import NovelStudio.Autosave.Interleaving

/-! The running mark is a lock: at most one flush of a document is between taking
and discarding it, and only that flush moves the document's status. -/

namespace NovelStudio.Autosave

open Library

variable {Doc Content : Type}

/-- The stages in which a flush owns the running mark of its document. -/
def FlushStage.holds : FlushStage Content → Bool
  | .entering | .answering _ | .confirming _ => false
  | _ => true

/-- The generation a flush has taken out of the tracker to save. -/
def FlushStage.carried : FlushStage Content → Option Nat
  | .marking generation _ | .saving generation _ | .returned generation | .raised generation _ => some generation
  | _ => none

theorem FlushStage.holds_of_carried {stage : FlushStage Content} (carried : stage.carried = some generation) :
    stage.holds = true := by
  cases stage <;> simp [FlushStage.carried, FlushStage.holds] at *

def Call.holds : Call Doc Content → Bool
  | .flushing _ _ stage _ => stage.holds
  | _ => false

namespace Coordinator
variable [DecidableEq Doc]

variable {after coordinator : Coordinator Doc Content}

theorem Section.saving_of_stage
    (moved : Section coordinator documentId stage after (.stage next) event) :
    (after.saving = coordinator.saving ∧ next.holds = stage.holds) ∨
    (documentId ∉ coordinator.saving ∧ after.saving = insert documentId coordinator.saving ∧
      stage.holds = false) ∨
    (after.saving = coordinator.saving.erase documentId ∧ stage.holds = true ∧ next.holds = false) := by
  cases moved with
  | acquire free dirty => exact .inr (.inl ⟨free, rfl, rfl⟩)
  | leave => exact .inr (.inr ⟨rfl, rfl, rfl⟩)
  | _ => exact .inl ⟨rfl, rfl⟩

theorem Section.saving_of_result
    (moved : Section coordinator documentId stage after (.result value) event) :
    after.saving = coordinator.saving ∧ stage.holds = false := by
  cases moved <;> simp [FlushStage.holds]

/-- A flush moves its document's status only at the generation it carries, and to
saved or failed only after the callback returned or raised. -/
theorem Section.tracker_cases
    (moved : Section coordinator documentId stage after progress event) :
    after.tracker = coordinator.tracker ∨
    ∃ generation status failure, stage.carried = some generation ∧
      after.tracker = (coordinator.tracker.transition documentId generation status failure).1 ∧
      (status = .saved → stage = .returned generation) ∧
      (status = .failed → ∃ failure, stage = .raised generation failure) := by
  cases moved with
  | @mark generation content => exact .inr ⟨generation, .saving, none, rfl, rfl, by simp, by simp⟩
  | @saved generation => exact .inr ⟨generation, .saved, none, rfl, rfl, fun _ => rfl, by simp⟩
  | @failed generation failure =>
    exact .inr ⟨generation, .failed, some failure, rfl, rfl, by simp, fun _ => ⟨failure, rfl⟩⟩
  | coalesce | acquire | nothing => exact .inl (cancelIdle_tracker ..)
  | _ => exact .inl rfl

theorem Section.carried_cases
    (moved : Section coordinator documentId stage after (.stage next) event)
    (carried : next.carried = some generation) :
    stage.carried = some generation ∨
    (stage = .reading ∧ after.tracker = coordinator.tracker ∧
      ∃ state, coordinator.tracker.get documentId = some state ∧ state.dirty = true ∧
        generation = state.generation) := by
  cases moved with
  | @read state found dirty =>
    exact .inr ⟨rfl, rfl, state, found, dirty, (Option.some.inj carried).symm⟩
  | mark | «return» | raise => exact .inl carried
  | _ => cases carried

theorem Section.not_changed
    (moved : Section coordinator documentId stage after progress event) :
    event ≠ .changed target generation content := by
  cases moved <;> simp

theorem Section.closed_eq
    (moved : Section coordinator documentId stage after progress event) :
    after.closed = coordinator.closed := by
  cases moved <;> simp

end Coordinator

namespace System

/-- A call that owns the running mark of a document. -/
def Holder (system : System Doc Content) (call : Nat) (documentId : Doc) : Prop :=
  ∃ reason stage caller, system.calls.get? call = some (.flushing documentId reason stage caller) ∧
    stage.holds = true

structure Exclusive (system : System Doc Content) : Prop where
  held : ∀ {call documentId}, system.Holder call documentId → documentId ∈ system.coordinator.saving
  alone : ∀ {first second documentId},
    system.Holder first documentId → system.Holder second documentId → first = second

theorem exclusive_init : Exclusive (init : System Doc Content) := by
  constructor
  · rintro call documentId ⟨reason, stage, caller, found, _⟩
    simp [init] at found
  · rintro first second documentId ⟨reason, stage, caller, found, _⟩
    simp [init] at found

variable {system : System Doc Content}

theorem Exclusive.of_subset {next : System Doc Content} (valid : Exclusive system)
    (subset : ∀ {call documentId}, next.Holder call documentId → system.Holder call documentId)
    (same : next.coordinator.saving = system.coordinator.saving) : Exclusive next :=
  ⟨fun holder => same ▸ valid.held (subset holder),
    fun first second => valid.alone (subset first) (subset second)⟩

variable {coordinator : Coordinator Doc Content}

theorem Holder.of_set
    {value : Call Doc Content} (quiet : value.holds = false)
    (holder : (⟨coordinator, system.calls.set call value⟩ : System Doc Content).Holder other documentId) :
    other ≠ call ∧ system.Holder other documentId := by
  obtain ⟨reason, stage, caller, found, holds⟩ := holder
  simp only [Dict.get?_set] at found
  by_cases same : other = call
  · rw [if_pos same] at found
    cases Option.some.inj found
    exact absurd (quiet.symm.trans holds) Bool.false_ne_true
  · rw [if_neg same] at found
    exact ⟨same, reason, stage, caller, found, holds⟩

theorem Holder.of_erase
    (holder : (⟨coordinator, system.calls.erase call⟩ : System Doc Content).Holder other documentId) :
    other ≠ call ∧ system.Holder other documentId := by
  obtain ⟨reason, stage, caller, found, holds⟩ := holder
  simp only [Dict.get?_erase] at found
  by_cases same : other = call
  · simp [same] at found
  · rw [if_neg same] at found
    exact ⟨same, reason, stage, caller, found, holds⟩

theorem Holder.of_afterFlush
    (holder : (⟨coordinator, system.afterFlush call caller value⟩ : System Doc Content).Holder other documentId) :
    other ≠ call ∧ system.Holder other documentId := by
  cases caller with
  | none => exact holder.of_erase
  | some loop => exact Holder.of_set rfl holder

section
variable [DecidableEq Doc]

variable {system : System Doc Content}

theorem Exclusive.advance {coordinator : Coordinator Doc Content}
    (valid : Exclusive system)
    (found : system.calls.get? call = some (.flushing documentId reason stage caller))
    (moved : Coordinator.Section system.coordinator documentId stage coordinator (.stage next) event) :
    Exclusive ⟨coordinator, system.calls.set call (.flushing documentId reason next caller)⟩ := by
  -- A holder of the new state is the moving call, if its next stage owns the mark, or an older holder.
  have origin {other target} (holder : (⟨coordinator, system.calls.set call
      (.flushing documentId reason next caller)⟩ : System Doc Content).Holder other target) :
      (other = call ∧ target = documentId ∧ next.holds = true) ∨ (other ≠ call ∧ system.Holder other target) := by
    obtain ⟨reason', stage', caller', stored, holds⟩ := holder
    simp only [Dict.get?_set] at stored
    by_cases same : other = call
    · rw [if_pos same] at stored
      cases stored
      exact .inl ⟨same, rfl, holds⟩
    · rw [if_neg same] at stored
      exact .inr ⟨same, reason', stage', caller', stored, holds⟩
  rcases moved.saving_of_stage with ⟨same, kept⟩ | ⟨free, taken, _⟩ | ⟨dropped, owned, released⟩
  · refine valid.of_subset (fun holder => ?_) same
    rcases origin holder with ⟨rfl, rfl, holds⟩ | ⟨_, older⟩
    · exact ⟨reason, stage, caller, found, kept ▸ holds⟩
    · exact older
  · constructor
    · intro other target holder
      rw [taken]
      rcases origin holder with ⟨_, rfl, _⟩ | ⟨_, older⟩
      · exact Finset.mem_insert_self ..
      · exact Finset.mem_insert_of_mem (valid.held older)
    · intro first second target left right
      rcases origin left with ⟨rfl, rfl, _⟩ | ⟨_, older⟩ <;>
        rcases origin right with ⟨rfl, same, _⟩ | ⟨_, other⟩
      · rfl
      · exact absurd (valid.held other) free
      · exact absurd (valid.held (same ▸ older)) free
      · exact valid.alone older other
  · have owner : system.Holder call documentId := ⟨reason, stage, caller, found, owned⟩
    have older {other target} (holder : (⟨coordinator, system.calls.set call
        (.flushing documentId reason next caller)⟩ : System Doc Content).Holder other target) :
        other ≠ call ∧ system.Holder other target := by
      rcases origin holder with ⟨_, _, holds⟩ | kept
      · rw [released] at holds
        cases holds
      · exact kept
    constructor
    · intro other target holder
      rw [dropped]
      refine Finset.mem_erase.mpr ⟨?_, valid.held (older holder).2⟩
      rintro rfl
      exact (older holder).1 (valid.alone (older holder).2 owner)
    · intro first second target left right
      exact valid.alone (older left).2 (older right).2

theorem Exclusive.step {next : System Doc Content} (valid : Exclusive system)
    (step : Step system event next) : Exclusive next := by
  cases step.stepped with
  | change | request | requestAll | close | expire =>
    exact valid.of_subset (fun holder => (Holder.of_set rfl holder).2) rfl
  | schedule found =>
    refine valid.of_subset (fun holder => holder.of_erase.2) ?_
    simp only [Coordinator.scheduleIdle]
    split <;> simp
  | advance found moved => exact valid.advance found moved
  | conclude found moved =>
    exact valid.of_subset (fun holder => holder.of_afterFlush.2) moved.saving_of_result.1
  | list found | loopNext found =>
    exact valid.of_subset (fun holder => (Holder.of_set rfl holder).2) rfl
  | loopEnd found => exact valid.of_subset (fun holder => holder.of_erase.2) rfl

theorem exclusive_of_run (run : Run Step init history system) :
    Exclusive system :=
  run.invariant exclusive_init fun valid step => valid.step step

end
end System
end NovelStudio.Autosave

/-! What the history of a run says about the tracker: whose content a generation
is, which callback wrote it, and in which order the callbacks were issued. -/

namespace NovelStudio.Autosave

open Library

variable {Doc Content : Type} [DecidableEq Doc]

namespace DirtyStateTracker

theorem transition_found {tracker : DirtyStateTracker Doc Content} {failure : Option SaveFailure}
    (found : (tracker.transition documentId generation status failure).1.get other = some after) :
    ∃ before, tracker.get other = some before ∧ after.generation = before.generation ∧
      after.content = before.content ∧
      (after = before ∨ other = documentId ∧ before.generation = generation ∧ after.status = status) := by
  rcases tracker.transition_cases documentId generation status failure with
    ⟨refused, _⟩ | ⟨current, tracked, same, _, moved⟩
  · rw [refused] at found
    exact ⟨after, found, rfl, rfl, .inl rfl⟩
  · rw [moved] at found
    by_cases target : other = documentId
    · rw [if_pos target] at found
      cases found
      exact ⟨current, target ▸ tracked, same.symm, rfl, .inr ⟨target, same, rfl⟩⟩
    · rw [if_neg target] at found
      exact ⟨after, found, rfl, rfl, .inl rfl⟩

theorem transition_keeps {tracker : DirtyStateTracker Doc Content} (documentId : Doc) (generation : Nat)
    (status : SaveStatus) (failure : Option SaveFailure) (found : tracker.get other = some before) :
    ∃ after, (tracker.transition documentId generation status failure).1.get other = some after ∧
      after.generation = before.generation ∧
      (after = before ∨ other = documentId ∧ before.generation = generation ∧ after.status = status) := by
  rcases tracker.transition_cases documentId generation status failure with
    ⟨refused, _⟩ | ⟨current, tracked, same, _, moved⟩
  · exact ⟨before, by rw [refused]; exact found, rfl, .inl rfl⟩
  · rw [moved]
    by_cases target : other = documentId
    · subst target
      cases tracked.symm.trans found
      exact ⟨_, if_pos rfl, same.symm, .inr ⟨rfl, same, rfl⟩⟩
    · exact ⟨before, by rw [if_neg target]; exact found, rfl, .inl rfl⟩

end DirtyStateTracker

namespace System

variable {next system : System Doc Content}

/-- How a step treats the tracker: not at all, as one `mark_dirty` that the event
records, or as one transition by the flush that carries the generation. -/
theorem Stepped.tracker_cases (stepped : Stepped system event next) :
    next.coordinator.tracker = system.coordinator.tracker ∨
    (∃ documentId content, system.coordinator.closed = false ∧
      event = .changed documentId (system.coordinator.tracker.markDirty documentId content).2.generation content ∧
      next.coordinator.tracker = (system.coordinator.tracker.markDirty documentId content).1) ∨
    ∃ call documentId reason stage caller generation status failure later,
      system.calls.get? call = some (.flushing documentId reason stage caller) ∧
      stage.carried = some generation ∧
      next.coordinator.tracker = (system.coordinator.tracker.transition documentId generation status failure).1 ∧
      next.calls.get? call = some (.flushing documentId reason later caller) ∧
      (status = .saved → stage = .returned generation ∧ later = .checking) ∧
      (status = .failed → ∃ failure, stage = .raised generation failure) := by
  cases stepped with
  | @change call documentId content fresh opened =>
    exact .inr (.inl ⟨documentId, content, opened, rfl, rfl⟩)
  | schedule found =>
    refine .inl ?_
    simp only [Coordinator.scheduleIdle]
    split <;> simp
  | @advance call documentId reason stage caller next event coordinator found moved =>
    rcases moved.tracker_cases with same | ⟨generation, status, failure, carried, transitioned, saved, failed⟩
    · exact .inl same
    · refine .inr (.inr ⟨call, documentId, reason, stage, caller, generation, status, failure, next,
        found, carried, transitioned, Dict.get?_set_self .., fun same => ⟨saved same, ?_⟩, failed⟩)
      cases saved same
      cases moved with
      | saved => rfl
  | conclude found moved =>
    rcases moved.tracker_cases with same | ⟨generation, status, failure, carried, _, _, _⟩
    · exact .inl same
    · have idle := moved.saving_of_result.2
      rw [FlushStage.holds_of_carried carried] at idle
      cases idle
  | _ => exact .inl rfl

/-- Where a flush call of the next state comes from: it stood there before, has
just started, or has just run one section. -/
theorem Stepped.flush_origin (stepped : Stepped system event next)
    (found : next.calls.get? call = some (.flushing documentId reason stage caller)) :
    system.calls.get? call = some (.flushing documentId reason stage caller) ∨
    stage = .entering ∨
    ∃ earlier, system.calls.get? call = some (.flushing documentId reason earlier caller) ∧
      Coordinator.Section system.coordinator documentId earlier next.coordinator (.stage stage) event := by
  cases stepped with
  | schedule | loopEnd =>
    simp only [Dict.get?_erase] at found
    split at found
    · cases found
    · exact .inl found
  | @conclude acting document reason' stage' caller' value event coordinator running moved =>
    cases caller' with
    | none =>
      simp only [afterFlush, Dict.get?_erase] at found
      split at found
      · cases found
      · exact .inl found
    | some loop =>
      simp only [afterFlush, Dict.get?_set] at found
      split at found
      · cases found
      · exact .inl found
  | advance running moved =>
    simp only [Dict.get?_set] at found
    split at found
    · rename_i same
      cases found
      exact .inr (.inr ⟨_, same ▸ running, moved⟩)
    · exact .inl found
  | _ =>
    simp only [Dict.get?_set] at found
    split at found
    · cases found <;> exact .inr (.inl rfl)
    · exact .inl found

theorem Stepped.tracker_grows (stepped : Stepped system event next)
    (found : system.coordinator.tracker.get documentId = some before) :
    ∃ after, next.coordinator.tracker.get documentId = some after ∧
      before.generation ≤ after.generation := by
  rcases stepped.tracker_cases with same | ⟨target, content, _, _, changed⟩ |
    ⟨_, target, _, _, _, generation, status, failure, _, _, _, moved, _⟩
  · exact ⟨before, same ▸ found, le_refl _⟩
  · rw [changed, DirtyStateTracker.get_markDirty]
    by_cases same : documentId = target
    · subst same
      refine ⟨_, if_pos rfl, ?_⟩
      rw [DirtyStateTracker.markDirty_generation content found]
      exact Nat.le_succ _
    · exact ⟨before, by rw [if_neg same]; exact found, le_refl _⟩
  · obtain ⟨after, kept, same, _⟩ :=
      DirtyStateTracker.transition_keeps target generation status failure found
    exact ⟨after, moved ▸ kept, same ▸ le_refl _⟩

/-- What a flush carries is at most the tracked generation, and dirty when it is
the tracked one. -/
def Carries (system : System Doc Content) : Prop :=
  ∀ {call documentId reason stage caller generation},
    system.calls.get? call = some (.flushing documentId reason stage caller) →
    stage.carried = some generation →
    ∃ state, system.coordinator.tracker.get documentId = some state ∧ generation ≤ state.generation ∧
      (generation = state.generation → state.dirty = true)

theorem Carries.step (exclusive : Exclusive system)
    (carries : Carries system) (stepped : Stepped system event next) : Carries next := by
  intro call documentId reason stage caller generation found carried
  -- First the state the call carries from, in the source of the step.
  have source : ∃ state, system.coordinator.tracker.get documentId = some state ∧
      generation ≤ state.generation ∧ (generation = state.generation → state.dirty = true) := by
    rcases stepped.flush_origin found with same | fresh | ⟨earlier, running, moved⟩
    · exact carries same carried
    · rw [fresh] at carried
      cases carried
    · rcases moved.carried_cases carried with kept | ⟨_, _, state, tracked, dirty, rfl⟩
      · exact carries running kept
      · exact ⟨state, tracked, le_refl _, fun _ => dirty⟩
  obtain ⟨state, tracked, below, dirty⟩ := source
  rcases stepped.tracker_cases with same | ⟨target, content, _, _, changed⟩ |
    ⟨acting, target, actReason, actStage, actCaller, moving, status, failure, later,
      running, carrying, moved, landed, saved, _⟩
  · exact ⟨state, same ▸ tracked, below, dirty⟩
  · rw [changed, DirtyStateTracker.get_markDirty]
    by_cases same : documentId = target
    · subst same
      have above := DirtyStateTracker.markDirty_generation content tracked
      exact ⟨_, if_pos rfl, by omega, fun equal => by omega⟩
    · exact ⟨state, by rw [if_neg same]; exact tracked, below, dirty⟩
  · obtain ⟨after, kept, same, changed⟩ :=
      DirtyStateTracker.transition_keeps target moving status failure tracked
    refine ⟨after, moved ▸ kept, same ▸ below, fun equal => ?_⟩
    rcases changed with rfl | ⟨rfl, atGeneration, nowStatus⟩
    · exact dirty equal
    · by_cases finished : status = .saved
      · -- The flush that saved this document is the only holder, and carries nothing any more.
        exfalso
        obtain ⟨_, rfl⟩ := saved finished
        have holder : system.Holder acting documentId :=
          ⟨_, _, _, running, FlushStage.holds_of_carried carrying⟩
        rcases stepped.flush_origin found with older | fresh | ⟨earlier, older, section'⟩
        · have own := exclusive.alone ⟨_, _, _, older, FlushStage.holds_of_carried carried⟩ holder
          subst own
          cases landed.symm.trans found
          cases carried
        · rw [fresh] at carried
          cases carried
        · rcases section'.carried_cases carried with kept' | ⟨rfl, same', _⟩
          · have own := exclusive.alone ⟨_, _, _, older, FlushStage.holds_of_carried kept'⟩ holder
            subst own
            cases landed.symm.trans found
            cases carried
          · have own := exclusive.alone ⟨_, _, _, older, rfl⟩ holder
            subst own
            cases landed.symm.trans found
            cases carried
      · simp [DocumentState.dirty, nowStatus, finished]

theorem Stepped.changed
    (stepped : Stepped system (.changed documentId generation content) next) :
    system.coordinator.closed = false ∧
    generation = (system.coordinator.tracker.markDirty documentId content).2.generation ∧
      next.coordinator.tracker = (system.coordinator.tracker.markDirty documentId content).1 := by
  cases stepped with
  | change fresh opened => exact ⟨opened, rfl, rfl⟩
  | advance found moved => exact absurd rfl moved.not_changed
  | conclude found moved => exact absurd rfl moved.not_changed

theorem Stepped.dirty_cases (carries : Carries system)
    (stepped : Stepped system event next) (dirty : next.coordinator.tracker.isDirty documentId = true) :
    system.coordinator.tracker.isDirty documentId = true ∨
    ∃ generation content, event = .changed documentId generation content := by
  rcases stepped.tracker_cases with same | ⟨target, content, opened, rfl, changed⟩ |
    ⟨acting, target, _, _, _, moving, status, failure, later, running, carrying, moved, _, _⟩
  · exact .inl (same ▸ dirty)
  · by_cases same : documentId = target
    · exact .inr ⟨_, content, by rw [same]⟩
    · rw [DirtyStateTracker.isDirty, changed, DirtyStateTracker.get_markDirty, if_neg same] at dirty
      exact .inl dirty
  · obtain ⟨after, found, stillDirty⟩ := DirtyStateTracker.isDirty_iff.mp dirty
    rw [moved] at found
    obtain ⟨before, tracked, _, _, rfl | ⟨rfl, atGeneration, _⟩⟩ :=
      DirtyStateTracker.transition_found found
    · exact .inl (DirtyStateTracker.isDirty_iff.mpr ⟨after, tracked, stillDirty⟩)
    · obtain ⟨state, held, _, carriedDirty⟩ := carries running carrying
      cases tracked.symm.trans held
      exact .inl (DirtyStateTracker.isDirty_iff.mpr ⟨before, tracked, carriedDirty atGeneration.symm⟩)

end System
end NovelStudio.Autosave
