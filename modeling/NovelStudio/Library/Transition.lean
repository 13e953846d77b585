import Mathlib.Data.List.Basic
import Mathlib.Data.List.Count
import Mathlib.Order.Basic

/-! Labelled transition systems: finite runs with their labels, and the rules
that carry a fact about one step to every run. -/

namespace NovelStudio.Library

universe u v w
variable {State : Type u} {Label : Type v} {step : State → Label → State → Prop}

/-- A finite run from `start`: the labels of its steps, oldest first, and the
state it ends in. -/
inductive Run (step : State → Label → State → Prop) (start : State) : List Label → State → Prop where
  | done : Run step start [] start
  | snoc (earlier : Run step start labels state) (last : step state label next) :
      Run step start (labels ++ [label]) next

theorem Run.one (only : step state label next) : Run step state [label] next :=
  by simpa using Run.done.snoc only

theorem Run.append (first : Run step start before state) (second : Run step state after final) :
    Run step start (before ++ after) final := by
  induction second with
  | done => simpa using first
  | snoc earlier last ih => simpa [List.append_assoc] using ih.snoc last

theorem Run.mono {weaker : State → Label → State → Prop} (run : Run step start labels state)
    (weaken : ∀ {state label next}, step state label next → weaker state label next) :
    Run weaker start labels state := by
  induction run with
  | done => exact .done
  | snoc earlier last ih => exact ih.snoc (weaken last)

section Execution
variable {Action : Type w}

/-- The labels and the last state of a list of actions, when none of them is refused. -/
def execute (act : State → Action → Option (State × Label)) (state : State) :
    List Action → Option (List Label × State)
  | [] => some ([], state)
  | action :: rest =>
    match act state action with
    | none => none
    | some (next, label) => (execute act next rest).map fun (labels, final) => (label :: labels, final)

theorem Run.of_execute {act : State → Action → Option (State × Label)}
    (sound : ∀ {state action next label}, act state action = some (next, label) → step state label next)
    (actions : List Action) (executed : execute act start actions = some (labels, final)) : Run step start labels final := by
  induction actions generalizing start labels with
  | nil =>
    cases executed
    exact .done
  | cons action rest ih =>
    simp only [execute] at executed
    split at executed
    · cases executed
    · rename_i next label acted
      obtain ⟨⟨later, last⟩, found, same⟩ := Option.map_eq_some_iff.mp executed
      cases same
      exact (Run.one (sound acted)).append (ih found)

end Execution

theorem Run.split (run : Run step start labels final) (before after : List Label) (same : labels = before ++ after) :
    ∃ state, Run step start before state ∧ Run step state after final := by
  induction run generalizing after with
  | done =>
    obtain ⟨rfl, rfl⟩ := List.append_eq_nil_iff.mp same.symm
    exact ⟨start, .done, .done⟩
  | @snoc labels state label next earlier last ih =>
    rcases List.eq_nil_or_concat after with rfl | ⟨rest, final, rfl⟩
    · rw [List.append_nil] at same
      subst same
      exact ⟨next, earlier.snoc last, .done⟩
    · rw [List.concat_eq_append, ← List.append_assoc] at same
      obtain ⟨sameInit, sameLast⟩ := List.append_inj' same rfl
      cases sameLast
      obtain ⟨middle, first, second⟩ := ih rest sameInit
      exact ⟨middle, first, by simpa using second.snoc last⟩

theorem Run.last (run : Run step start (labels ++ [label]) final) :
    ∃ state, Run step start labels state ∧ step state label final := by
  obtain ⟨state, first, second⟩ := run.split _ _ rfl
  refine ⟨state, first, ?_⟩
  generalize same : [label] = single at second
  cases second with
  | done => cases same
  | @snoc labels state label next earlier last =>
    obtain ⟨empty, sameLabel⟩ := List.append_inj' ((List.nil_append _).trans same) rfl
    subst empty
    cases sameLabel
    generalize none : ([] : List _) = labels at earlier
    cases earlier with
    | done => exact last
    | snoc => simp at none

theorem Run.around (run : Run step start labels final) {before : List Label} {label : Label} {after : List Label}
    (same : labels = before ++ label :: after) :
    ∃ state next, Run step start before state ∧ step state label next ∧ Run step next after final := by
  obtain ⟨next, first, second⟩ := run.split (before ++ [label]) after (by simpa using same)
  obtain ⟨state, earlier, last⟩ := first.last
  exact ⟨state, next, earlier, last, second⟩

theorem Run.invariant {motive : State → Prop} (run : Run step start labels state)
    (initially : motive start)
    (kept : ∀ {state label next}, motive state → step state label next → motive next) : motive state := by
  induction run with
  | done => exact initially
  | snoc earlier last ih => exact kept ih last

theorem Run.strengthen {motive : State → Prop} (run : Run step start labels state) (initially : motive start)
    (kept : ∀ {state label next}, motive state → step state label next → motive next) :
    Run (fun state label next => motive state ∧ step state label next) start labels state := by
  induction run with
  | done => exact .done
  | snoc earlier last ih => exact ih.snoc ⟨earlier.invariant initially kept, last⟩

/-- The same rule for facts that also speak about the labels so far; the step
may use that its source is reached. -/
theorem Run.history {motive : List Label → State → Prop} (run : Run step start labels state)
    (initially : motive [] start)
    (kept : ∀ {labels state label next}, Run step start labels state → motive labels state →
      step state label next → motive (labels ++ [label]) next) : motive labels state := by
  induction run with
  | done => exact initially
  | snoc earlier last ih => exact kept earlier ih last

/-- A relation between the two ends of a step that is reflexive and transitive
relates the two ends of every run. -/
theorem Run.related {motive : State → State → Prop} (run : Run step start labels state)
    (reflexive : ∀ state, motive state state)
    (transitive : ∀ {a b c}, motive a b → motive b c → motive a c)
    (stepwise : ∀ {state label next}, step state label next → motive state next) :
    motive start state :=
  run.invariant (reflexive start) fun reached last => transitive reached (stepwise last)

section AtMostOnce

/-- Once a firing step leaves the system spent, spent is kept, and no spent
state fires, a run fires at most once, and only ends spent. -/
theorem Run.fires_at_most_once (run : Run step start labels state) (fires : Label → Bool) (spent : State → Prop)
    (spends : ∀ {state label next}, step state label next → fires label = true → spent next)
    (kept : ∀ {state label next}, step state label next → spent state → spent next)
    (blocked : ∀ {state label next}, step state label next → spent state → fires label = false) :
    labels.countP fires ≤ 1 ∧ (0 < labels.countP fires → spent state) := by
  refine run.history (motive := fun labels state =>
    labels.countP fires ≤ 1 ∧ (0 < labels.countP fires → spent state)) (by simp) ?_
  intro labels state label next _ ⟨once, settled⟩ last
  rw [List.countP_append, List.countP_singleton]
  by_cases already : 0 < labels.countP fires
  · have quiet := blocked last (settled already)
    simp only [quiet, Bool.false_eq_true, ↓reduceIte, Nat.add_zero]
    exact ⟨once, fun _ => kept last (settled already)⟩
  · by_cases firing : fires label = true
    · simp only [firing, ↓reduceIte]
      exact ⟨by omega, fun _ => spends last firing⟩
    · simp only [firing, Bool.false_eq_true, ↓reduceIte, Nat.add_zero]
      exact ⟨once, fun positive => absurd positive already⟩

end AtMostOnce

end NovelStudio.Library
