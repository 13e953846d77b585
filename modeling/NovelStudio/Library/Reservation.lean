import Mathlib.Data.List.Nodup
import NovelStudio.Library.Transition

/-! Reservations. A call takes a key that is free, and holds it until it fires or
fails; what is taken is never free again. Such a key is fired at most once. -/

namespace NovelStudio.Library

universe u v w

/-- A call that holds a reservation, and whether it has failed. -/
structure Flight (Call : Type u) where
  call : Call
  failed : Bool

section Flights

variable {Call : Type u} {κ : Type v} (key : Call → κ)

/-- The keys of the calls that may still fire. -/
def pendingOf (flights : List (Flight Call)) : List κ :=
  (flights.filter fun flight => !flight.failed).map fun flight => key flight.call

theorem pendingOf_append (first rest : List (Flight Call)) :
    pendingOf key (first ++ rest) = pendingOf key first ++ pendingOf key rest := by
  simp [pendingOf, List.filter_append]

theorem pendingOf_waiting (first rest : List (Flight Call)) (call : Call) :
    pendingOf key (first ++ ⟨call, false⟩ :: rest) = pendingOf key first ++ key call :: pendingOf key rest := by
  simp [pendingOf, List.filter_append]

theorem pendingOf_failed (first rest : List (Flight Call)) (call : Call) :
    pendingOf key (first ++ ⟨call, true⟩ :: rest) = pendingOf key first ++ pendingOf key rest := by
  simp [pendingOf, List.filter_append]

theorem pendingOf_reserved (flights : List (Flight Call)) (call : Call) :
    pendingOf key (flights ++ [⟨call, false⟩]) = pendingOf key flights ++ [key call] := by
  simp [pendingOf, List.filter_append]

theorem pendingOf_removed (first rest : List (Flight Call)) (flight : Flight Call) :
    (pendingOf key (first ++ rest)).Sublist (pendingOf key (first ++ flight :: rest)) := by
  apply List.Sublist.map
  apply List.Sublist.filter
  exact List.Sublist.append_left (List.sublist_cons_self ..) first

theorem pendingOf_fails (first rest : List (Flight Call)) (call : Call) :
    (pendingOf key (first ++ ⟨call, true⟩ :: rest)).Sublist (pendingOf key (first ++ ⟨call, false⟩ :: rest)) := by
  rw [pendingOf_failed, pendingOf_waiting]
  exact List.Sublist.append_left (List.sublist_cons_self ..) _

end Flights

/-- The keys that are taken, and those of them that may still be fired. -/
structure Desk (κ : Type u) where
  taken : κ → Prop
  pending : List κ

variable {κ : Type u}

namespace Desk

/-- Every key that may be fired is taken, and by one call. -/
structure Consistent (desk : Desk κ) : Prop where
  taken : ∀ key ∈ desk.pending, desk.taken key
  single : desk.pending.Nodup

/-- A key is taken and nobody may fire it. -/
def Spent (desk : Desk κ) (key : κ) : Prop := desk.taken key ∧ key ∉ desk.pending

/-- What one step may do, with the key that it fires. -/
inductive Move (desk next : Desk κ) : Option κ → Prop where
  | keep (grows : ∀ key, desk.taken key → next.taken key) (fewer : next.pending.Sublist desk.pending) :
      Move desk next none
  | reserve (key : κ) (free : ¬desk.taken key) (grows : ∀ other, desk.taken other → next.taken other)
      (taken : next.taken key) (pending : next.pending = desk.pending ++ [key]) : Move desk next none
  | fire (key : κ) (first rest : List κ) (grows : ∀ other, desk.taken other → next.taken other)
      (before : desk.pending = first ++ key :: rest) (after : next.pending = first ++ rest) : Move desk next (some key)

variable {desk next : Desk κ} {fired : Option κ}

theorem Move.grows (move : Move desk next fired) (key : κ) (taken : desk.taken key) : next.taken key := by
  cases move with
  | keep grows => exact grows key taken
  | reserve _ _ grows => exact grows key taken
  | fire _ _ _ grows => exact grows key taken

section Flights

variable {Call : Type v} {key : Call → κ} {flights first rest : List (Flight Call)} {taken later : κ → Prop}

theorem Move.fails (was : flights = first ++ ⟨call, false⟩ :: rest) (grows : ∀ key, taken key → later key) :
    Move ⟨taken, pendingOf key flights⟩ ⟨later, pendingOf key (first ++ ⟨call, true⟩ :: rest)⟩ none := by
  subst was
  exact .keep grows (pendingOf_fails ..)

theorem Move.drops (was : flights = first ++ flight :: rest) (grows : ∀ key, taken key → later key) :
    Move ⟨taken, pendingOf key flights⟩ ⟨later, pendingOf key (first ++ rest)⟩ none := by
  subst was
  exact .keep grows (pendingOf_removed ..)

theorem Move.fires (was : flights = first ++ ⟨call, false⟩ :: rest) (grows : ∀ key, taken key → later key) :
    Move ⟨taken, pendingOf key flights⟩ ⟨later, pendingOf key (first ++ rest)⟩ (some (key call)) := by
  subst was
  exact .fire _ _ _ grows (pendingOf_waiting ..) (pendingOf_append ..)

theorem Move.firesFailing (was : flights = first ++ ⟨call, false⟩ :: rest) (grows : ∀ key, taken key → later key) :
    Move ⟨taken, pendingOf key flights⟩ ⟨later, pendingOf key (first ++ ⟨call, true⟩ :: rest)⟩ (some (key call)) := by
  subst was
  exact .fire _ _ _ grows (pendingOf_waiting ..) (pendingOf_failed ..)

end Flights

theorem Consistent.step (consistent : desk.Consistent) (move : Move desk next fired) : next.Consistent := by
  cases move with
  | keep grows fewer =>
    exact ⟨fun key waiting => grows key (consistent.taken key (fewer.subset waiting)), consistent.single.sublist fewer⟩
  | reserve key free grows taken pending =>
    constructor
    · intro other waiting
      rw [pending, List.mem_append, List.mem_singleton] at waiting
      rcases waiting with waiting | rfl
      · exact grows other (consistent.taken other waiting)
      · exact taken
    · rw [pending]
      apply List.Nodup.append consistent.single (List.nodup_singleton _)
      intro other waiting here
      rw [List.mem_singleton] at here
      exact free (here ▸ consistent.taken other waiting)
  | fire key first rest grows before after =>
    have fewer : (first ++ rest).Sublist desk.pending :=
      before ▸ List.Sublist.append_left (List.sublist_cons_self ..) first
    rw [← after] at fewer
    exact ⟨fun key waiting => grows key (consistent.taken key (fewer.subset waiting)), consistent.single.sublist fewer⟩

theorem Consistent.spends (consistent : desk.Consistent) (move : Move desk next (some key)) : next.Spent key := by
  cases move with
  | fire _ first rest grows before after =>
    have waiting : key ∈ desk.pending := by simp [before]
    refine ⟨grows key (consistent.taken key waiting), ?_⟩
    have single := consistent.single
    rw [before, List.nodup_middle] at single
    rw [after]
    exact (List.nodup_cons.mp single).1

theorem Spent.kept (spent : desk.Spent key) (move : Move desk next fired) : next.Spent key := by
  refine ⟨move.grows key spent.1, fun waiting => ?_⟩
  cases move with
  | keep grows fewer => exact spent.2 (fewer.subset waiting)
  | reserve other free grows taken pending =>
    rw [pending, List.mem_append, List.mem_singleton] at waiting
    rcases waiting with waiting | rfl
    · exact spent.2 waiting
    · exact free spent.1
  | fire other first rest grows before after =>
    apply spent.2
    rw [after, List.mem_append] at waiting
    simp only [before, List.mem_append, List.mem_cons]
    tauto

theorem Spent.blocks (spent : desk.Spent key) (move : Move desk next fired) : fired ≠ some key := by
  rintro rfl
  cases move with
  | fire _ first rest grows before after => exact spent.2 (by simp [before])

end Desk

section Run

variable {State : Type v} {Label : Type w} {step : State → Label → State → Prop} {start state : State} {labels : List Label}
  (desk : State → Desk κ) (fires : Label → Option κ)

theorem Run.fires_reserved_once [DecidableEq κ] (run : Run step start labels state) (initially : (desk start).Consistent)
    (simulated : ∀ {state label next}, step state label next → (desk state).Move (desk next) (fires label)) (key : κ) :
    labels.countP (fun label => fires label = some key) ≤ 1 ∧
      (0 < labels.countP (fun label => fires label = some key) → (desk state).taken key) := by
  have strong := run.strengthen (motive := fun state => (desk state).Consistent) initially
    fun consistent step => consistent.step (simulated step)
  obtain ⟨once, spent⟩ := strong.fires_at_most_once (fun label => fires label = some key) (fun state => (desk state).Spent key)
    (fun step fired => step.1.spends (of_decide_eq_true fired ▸ simulated step.2))
    (fun step spent => spent.kept (simulated step.2))
    (fun step spent => decide_eq_false (spent.blocks (simulated step.2)))
  exact ⟨once, fun fired => (spent fired).1⟩

end Run

end NovelStudio.Library
