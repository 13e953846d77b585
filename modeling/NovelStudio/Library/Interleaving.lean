import Mathlib.Logic.Function.Basic
import Mathlib.Logic.Relation

/-! Concurrent threads: sequential programs over atomic operations, their
interleavings, and the rely–guarantee rules that carry what is proved about each
program alone to every interleaving. -/

namespace NovelStudio.Library

/-- A sequential program: a value, or an operation and how to go on from its answer. -/
inductive Program (Op : Type) (Answer : Op → Type) (Value : Type) where
  | done (value : Value)
  | perform (op : Op) (next : Answer op → Program Op Answer Value)

namespace Program

variable {Op : Type} {Answer : Op → Type} {Value Result : Type}

def bind : Program Op Answer Value → (Value → Program Op Answer Result) → Program Op Answer Result
  | done value, after => after value
  | perform op next, after => perform op fun answer => (next answer).bind after

instance : Monad (Program Op Answer) where
  pure := done
  bind := bind

/-- The program that performs one operation. -/
def one (op : Op) : Program Op Answer (Answer op) := perform op done

end Program

section Rules

variable {Op : Type} {Answer : Op → Type} {State Thread Value Result : Type}
  (Exec : Thread → (op : Op) → State → Answer op → State → Prop)
  (Safe Outside : Thread → State → State → Prop)

/-- What a thread has to expect between two of its operations: steps of the other
threads, which are safe, and steps from outside. -/
def Rely (thread : Thread) : State → State → Prop :=
  Relation.ReflTransGen fun state next =>
    (∃ other, other ≠ thread ∧ Safe other state next) ∨ Outside thread state next

/-- Every operation of the program is safe wherever the rely puts it, and the value it
ends with satisfies `post`. -/
def Meets (thread : Thread) (post : Value → State → Prop) : Program Op Answer Value → State → Prop
  | .done value, state => post value state
  | .perform op next, state => ∀ before, Rely Safe Outside thread state before → ∀ answer after,
      Exec thread op before answer after → Safe thread before after ∧ Meets thread post (next answer) after

variable {Exec Safe Outside} {thread : Thread} {post : Value → State → Prop}

theorem Rely.refl (state : State) : Rely Safe Outside thread state state := Relation.ReflTransGen.refl

theorem Rely.keeps {holds : State → Prop}
    (safe : ∀ {other state next}, other ≠ thread → Safe other state next → holds state → holds next)
    (outside : ∀ {state next}, Outside thread state next → holds state → holds next)
    (rely : Rely Safe Outside thread state next) (now : holds state) : holds next := by
  induction rely with
  | refl => exact now
  | tail earlier last ih =>
    rcases last with ⟨other, different, step⟩ | step
    · exact safe different step ih
    · exact outside step ih

variable {program : Program Op Answer Value}

theorem Meets.mono {weaker : Value → State → Prop}
    (meets : Meets Exec Safe Outside thread post program state)
    (weaken : ∀ {value state}, post value state → weaker value state) :
    Meets Exec Safe Outside thread weaker program state := by
  induction program generalizing state with
  | done value => exact weaken meets
  | perform op next ih =>
    intro before rely answer after executed
    obtain ⟨safe, rest⟩ := meets before rely answer after executed
    exact ⟨safe, ih answer rest⟩

theorem Meets.bind {next : Value → Program Op Answer Result} {goal : Result → State → Prop}
   
    (meets : Meets Exec Safe Outside thread (fun value => Meets Exec Safe Outside thread goal (next value)) program state) :
    Meets Exec Safe Outside thread goal (program >>= next) state := by
  induction program generalizing state with
  | done value => exact meets
  | perform op rest ih =>
    intro before rely answer after executed
    obtain ⟨safe, later⟩ := meets before rely answer after executed
    exact ⟨safe, ih answer later⟩

theorem Meets.wait (stable : ∀ {value state next},
      Rely Safe Outside thread state next → post value state → post value next)
    (meets : Meets Exec Safe Outside thread post program state) (rely : Rely Safe Outside thread state next) :
    Meets Exec Safe Outside thread post program next := by
  cases program with
  | done value => exact stable rely meets
  | perform op rest => exact fun before later => meets before (rely.trans later)

variable (Exec Safe Outside thread)

/-- A condition that the other threads and the outside keep. -/
def Stable (holds : State → Prop) : Prop :=
  ∀ state next, (∃ other, other ≠ thread ∧ Safe other state next) ∨ Outside thread state next → holds state → holds next

/-- From every state of `pre`, the program is safe and ends in `post`. -/
def Triple (pre : State → Prop) (program : Program Op Answer Value) (post : Value → State → Prop) : Prop :=
  ∀ state, pre state → Meets Exec Safe Outside thread post program state

variable {Exec Safe Outside thread} {pre : State → Prop}

theorem Stable.rely (stable : Stable Safe Outside thread pre) (rely : Rely Safe Outside thread state next) (now : pre state) :
    pre next :=
  rely.keeps (fun different safe => stable _ _ (.inl ⟨_, different, safe⟩)) (fun outside => stable _ _ (.inr outside)) now

theorem Stable.and {other : State → Prop} (first : Stable Safe Outside thread pre) (second : Stable Safe Outside thread other) :
    Stable Safe Outside thread fun state => pre state ∧ other state :=
  fun _ _ step now => ⟨first _ _ step now.1, second _ _ step now.2⟩

theorem Triple.pure {value : Value} (holds : ∀ {state}, pre state → post value state) :
    Triple Exec Safe Outside thread pre (Pure.pure value : Program Op Answer Value) post :=
  fun _ now => holds now

theorem Triple.bind {next : Value → Program Op Answer Result}
    {middle : Value → State → Prop} {goal : Result → State → Prop}
    (first : Triple Exec Safe Outside thread pre program middle)
    (rest : ∀ value, Triple Exec Safe Outside thread (middle value) (next value) goal) :
    Triple Exec Safe Outside thread pre (program >>= next) goal :=
  fun _ now => ((first _ now).mono fun holds => rest _ _ holds).bind

theorem Triple.mono {stronger : State → Prop} {weaker : Value → State → Prop}
    (triple : Triple Exec Safe Outside thread pre program post) (before : ∀ {state}, stronger state → pre state)
    (after : ∀ {value state}, post value state → weaker value state) :
    Triple Exec Safe Outside thread stronger program weaker :=
  fun _ now => (triple _ (before now)).mono after

theorem Triple.frame {kept : State → Prop} (stable : Stable Safe Outside thread kept)
    (own : ∀ {state next}, Safe thread state next → kept state → kept next)
    (triple : Triple Exec Safe Outside thread pre program post) :
    Triple Exec Safe Outside thread (fun state => pre state ∧ kept state) program fun value state => post value state ∧ kept state := by
  rintro state ⟨now, held⟩
  have meets := triple state now
  clear now triple
  induction program generalizing state with
  | done value => exact ⟨meets, held⟩
  | perform op next ih =>
    intro before rely answer after executed
    obtain ⟨safe, rest⟩ := meets before rely answer after executed
    exact ⟨safe, ih answer after (own safe (stable.rely rely held)) rest⟩

theorem Triple.one {op : Op} {goal : Answer op → State → Prop} (stable : Stable Safe Outside thread pre)
    (step : ∀ {before answer after}, pre before → Exec thread op before answer after →
      Safe thread before after ∧ goal answer after) :
    Triple Exec Safe Outside thread pre (Program.one op) goal :=
  fun _ now _ rely _ _ executed => step (stable.rely rely now) executed

theorem Triple.ite {holds : Prop} [Decidable holds] {first second : Program Op Answer Value}
    (yes : holds → Triple Exec Safe Outside thread pre first post)
    (no : ¬holds → Triple Exec Safe Outside thread pre second post) :
    Triple Exec Safe Outside thread pre (if holds then first else second) post := by
  split
  · exact yes ‹_›
  · exact no ‹_›

theorem Triple.fact {fact : Prop}
    (triple : fact → Triple Exec Safe Outside thread pre program post) :
    Triple Exec Safe Outside thread (fun state => fact ∧ pre state) program post :=
  fun _ now => triple now.1 _ now.2

theorem Triple.some {Index : Type} {fact : Index → Prop} {pre : Index → State → Prop}
    (triple : ∀ index, fact index → Triple Exec Safe Outside thread (pre index) program post) :
    Triple Exec Safe Outside thread (fun state => ∃ index, fact index ∧ pre index state) program post :=
  fun _ ⟨index, fact, now⟩ => triple index fact _ now

theorem Triple.assume {fact : Prop} (implies : ∀ {state}, pre state → fact)
    (triple : fact → Triple Exec Safe Outside thread pre program post) : Triple Exec Safe Outside thread pre program post :=
  fun _ now => triple (implies now) _ now

theorem Triple.or {other : State → Prop}
    (first : Triple Exec Safe Outside thread pre program post) (second : Triple Exec Safe Outside thread other program post) :
    Triple Exec Safe Outside thread (fun state => pre state ∨ other state) program post :=
  fun _ now => now.elim (first _) (second _)

end Rules

/-- Threads that share a state, each with the rest of its program. -/
structure Threads (Op : Type) (Answer : Op → Type) (State Thread : Type) where
  state : State
  programs : Thread → Program Op Answer Unit

namespace Threads

variable {Op : Type} {Answer : Op → Type} {State Thread : Type}

/-- One thread performs its next operation. -/
def Turn [DecidableEq Thread] (Exec : Thread → (op : Op) → State → Answer op → State → Prop) (thread : Thread)
    (threads next : Threads Op Answer State Thread) : Prop :=
  ∃ op rest answer, threads.programs thread = .perform op rest ∧
    Exec thread op threads.state answer next.state ∧
    next.programs = Function.update threads.programs thread (rest answer)

variable {Exec : Thread → (op : Op) → State → Answer op → State → Prop} {Safe Outside : Thread → State → State → Prop}

/-- Every thread's remaining program is safe from the shared state on. -/
def Correct (Exec : Thread → (op : Op) → State → Answer op → State → Prop)
    (Safe Outside : Thread → State → State → Prop) (threads : Threads Op Answer State Thread) : Prop :=
  ∀ thread, Meets Exec Safe Outside thread (fun _ _ => True) (threads.programs thread) threads.state

theorem Correct.turn [DecidableEq Thread] {threads next : Threads Op Answer State Thread} (correct : threads.Correct Exec Safe Outside)
    (turn : Turn Exec thread threads next) :
    Safe thread threads.state next.state ∧ next.Correct Exec Safe Outside := by
  obtain ⟨op, rest, answer, program, executed, same⟩ := turn
  have own := correct thread
  rw [program] at own
  obtain ⟨safe, later⟩ := own threads.state (.refl _) answer next.state executed
  refine ⟨safe, fun other => ?_⟩
  rw [same]
  by_cases acting : other = thread
  · subst acting
    simpa using later
  · rw [Function.update_of_ne acting]
    exact (correct other).wait (fun _ _ => trivial) (.single (.inl ⟨thread, Ne.symm acting, safe⟩))

theorem Correct.outside {threads next : Threads Op Answer State Thread} (correct : threads.Correct Exec Safe Outside)
    (step : ∀ thread, next.programs thread = threads.programs thread ∧ Outside thread threads.state next.state ∨
      Meets Exec Safe Outside thread (fun _ _ => True) (next.programs thread) next.state) :
    next.Correct Exec Safe Outside := by
  intro thread
  rcases step thread with ⟨same, outside⟩ | replaced
  · rw [same]
    exact (correct thread).wait (fun _ _ => trivial) (.single (.inr outside))
  · exact replaced

end Threads

end NovelStudio.Library
