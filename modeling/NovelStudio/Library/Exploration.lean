import Mathlib.Data.List.Basic
import Mathlib.Order.WellFounded

/-! Loops that end, and searches of a state space: a search whose queue has run empty has
seen every state that can be reached, up to a simulation. -/

namespace NovelStudio.Library

universe u v w

section Loop

variable {σ : Type u} {ε : Type v} {Rank : Type w} [WellFoundedRelation Rank]

/-- Turns are taken until one says that nothing is left to do; every turn lowers the rank. -/
def turnLoop (turn : σ → Except ε (Option σ)) (rank : σ → Rank)
    (descends : ∀ state next, turn state = .ok (some next) → WellFoundedRelation.rel (rank next) (rank state))
    (state : σ) : Except ε σ :=
  match _turns : turn state with
  | .error failure => .error failure
  | .ok none => .ok state
  | .ok (some next) => turnLoop turn rank descends next
termination_by rank state
decreasing_by exact descends _ _ ‹_›

variable {turn : σ → Except ε (Option σ)} {rank : σ → Rank}
  {descends : ∀ state next, turn state = .ok (some next) → WellFoundedRelation.rel (rank next) (rank state)} {state : σ}

theorem loop_stop (stops : turn state = .ok none) : turnLoop turn rank descends state = .ok state := by
  rw [turnLoop]
  split <;> simp_all

theorem loop_turn (turns : turn state = .ok (some next)) :
    turnLoop turn rank descends state = turnLoop turn rank descends next := by
  rw [turnLoop]
  split <;> simp_all

theorem loop_invariant {motive : σ → Prop} (kept : ∀ {state next}, motive state → turn state = .ok (some next) → motive next)
    (initially : motive state) (done : turnLoop turn rank descends state = .ok final) :
    motive final ∧ turn final = .ok none := by
  induction state using turnLoop.induct turn rank descends with
  | case1 state failure fails =>
    rw [turnLoop] at done
    split at done <;> simp_all
  | case2 state stops =>
    rw [loop_stop stops] at done
    cases done
    exact ⟨initially, stops⟩
  | case3 state next turns ih =>
    rw [loop_turn turns] at done
    exact ih (kept initially turns) done

theorem loop_ends {motive : σ → Prop} (kept : ∀ {state next}, motive state → turn state = .ok (some next) → motive next)
    (turns : ∀ {state}, motive state → ∃ outcome, turn state = .ok outcome) (initially : motive state) :
    ∃ final, turnLoop turn rank descends state = .ok final := by
  induction state using turnLoop.induct turn rank descends with
  | case1 state failure fails =>
    obtain ⟨outcome, ends⟩ := turns initially
    rw [fails] at ends
    cases ends
  | case2 state stops => exact ⟨state, loop_stop stops⟩
  | case3 state next moves ih =>
    obtain ⟨final, done⟩ := ih (kept initially moves)
    exact ⟨final, by rw [loop_turn moves, done]⟩

end Loop

section Search

variable {σ : Type u} {step : σ → σ → Prop} {alike : σ → σ → Prop}

/-- A state is like one that was expanded, or like one that still waits. -/
def Covered (alike : σ → σ → Prop) (expanded waiting : List σ) (state : σ) : Prop :=
  ∃ other ∈ expanded ++ waiting, alike state other

/-- Whatever follows an expanded state is covered. -/
def Closed (step : σ → σ → Prop) (alike : σ → σ → Prop) (expanded waiting : List σ) : Prop :=
  ∀ state ∈ expanded, ∀ next, step state next → Covered alike expanded waiting next

theorem Covered.skip (transitive : ∀ {a b c}, alike a b → alike b c → alike a c) (known : other ∈ expanded)
    (same : alike first other) (covered : Covered alike expanded (first :: rest) state) :
    Covered alike expanded rest state := by
  obtain ⟨found, member, like⟩ := covered
  rw [List.mem_append, List.mem_cons] at member
  rcases member with member | rfl | member
  · exact ⟨found, List.mem_append_left _ member, like⟩
  · exact ⟨other, List.mem_append_left _ known, transitive like same⟩
  · exact ⟨found, List.mem_append_right _ member, like⟩

theorem Covered.expand (more : List σ) (covered : Covered alike expanded (first :: rest) state) :
    Covered alike (expanded ++ [first]) (rest ++ more) state := by
  obtain ⟨found, member, like⟩ := covered
  refine ⟨found, ?_, like⟩
  simp only [List.mem_append, List.mem_cons] at member ⊢
  tauto

theorem Closed.skip (transitive : ∀ {a b c}, alike a b → alike b c → alike a c) (known : other ∈ expanded)
    (same : alike first other) (closed : Closed step alike expanded (first :: rest)) : Closed step alike expanded rest :=
  fun state member next follows => (closed state member next follows).skip transitive known same

theorem Closed.expand (reflexive : ∀ state, alike state state) (more : List σ)
    (follow : ∀ next, step first next → next ∈ more) (closed : Closed step alike expanded (first :: rest)) :
    Closed step alike (expanded ++ [first]) (rest ++ more) := by
  intro state member next follows
  rw [List.mem_append, List.mem_singleton] at member
  rcases member with member | rfl
  · exact (closed state member next follows).expand more
  · exact ⟨next, by simp [follow next follows], reflexive next⟩

/-- When nothing waits, whatever follows a state that is like an expanded one is like an expanded one. -/
theorem Closed.follows (closed : Closed step alike expanded [])
    (transitive : ∀ {a b c}, alike a b → alike b c → alike a c)
    (simulates : ∀ {state other next}, alike state other → step state next → ∃ after, step other after ∧ alike next after)
    (like : ∃ other ∈ expanded, alike state other) (moves : step state next) : ∃ other ∈ expanded, alike next other := by
  obtain ⟨other, member, same⟩ := like
  obtain ⟨after, steps, near⟩ := simulates same moves
  obtain ⟨last, found, like⟩ := closed other member after steps
  rw [List.append_nil] at found
  exact ⟨last, found, transitive near like⟩

end Search

end NovelStudio.Library
