import NovelStudio.Autosave.Coordinator
import NovelStudio.Library.Transition

/-! What one step of the coordinator can do, said once: every invariant below is
proved by cases on these two relations and never unfolds the coordinator. -/

namespace NovelStudio.Autosave

open Library

variable {Doc Content : Type} [DecidableEq Doc]

namespace Coordinator

@[simp] theorem cancelIdle_tracker (coordinator : Coordinator Doc Content) (documentId : Doc) :
    (coordinator.cancelIdle documentId).tracker = coordinator.tracker := by
  unfold cancelIdle; split <;> rfl

@[simp] theorem cancelIdle_saving (coordinator : Coordinator Doc Content) (documentId : Doc) :
    (coordinator.cancelIdle documentId).saving = coordinator.saving := by
  unfold cancelIdle; split <;> rfl

@[simp] theorem cancelIdle_pending (coordinator : Coordinator Doc Content) (documentId : Doc) :
    (coordinator.cancelIdle documentId).pending = coordinator.pending := by
  unfold cancelIdle; split <;> rfl

@[simp] theorem cancelIdle_closed (coordinator : Coordinator Doc Content) (documentId : Doc) :
    (coordinator.cancelIdle documentId).closed = coordinator.closed := by
  unfold cancelIdle; split <;> rfl

/-- The sections of `flush` on one document, one constructor for each way a section can go. -/
inductive Section (coordinator : Coordinator Doc Content) (documentId : Doc) :
    FlushStage Content → Coordinator Doc Content → Progress Content → Event Doc Content → Prop where
  | coalesce (busy : documentId ∈ coordinator.saving) :
      Section coordinator documentId .entering
        { coordinator.cancelIdle documentId with pending := insert documentId coordinator.pending }
        (.result false) (.coalesced documentId)
  | acquire (free : documentId ∉ coordinator.saving) (dirty : coordinator.tracker.isDirty documentId = true) :
      Section coordinator documentId .entering
        { coordinator.cancelIdle documentId with saving := insert documentId coordinator.saving }
        (.stage .reading) .quiet
  | nothing (free : documentId ∉ coordinator.saving) (clean : coordinator.tracker.isDirty documentId = false) :
      Section coordinator documentId .entering (coordinator.cancelIdle documentId)
        (.result true) (.flushed documentId true)
  | read (found : coordinator.tracker.get documentId = some state) (dirty : state.dirty = true) :
      Section coordinator documentId .reading coordinator
        (.stage (.marking state.generation state.content)) .quiet
  | finish (clean : coordinator.tracker.isDirty documentId = false) :
      Section coordinator documentId .reading coordinator (.stage (.leaving true)) .quiet
  | mark : Section coordinator documentId (.marking generation content)
      { coordinator with tracker := (coordinator.tracker.markSaving documentId generation).1 }
      (.stage (.saving generation content))
      (.saveStarted documentId generation content (coordinator.tracker.markSaving documentId generation).2.isSome)
  | return : Section coordinator documentId (.saving generation content) coordinator
      (.stage (.returned generation)) (.saveReturned documentId generation content)
  | raise {failure : SaveFailure} : Section coordinator documentId (.saving generation content) coordinator
      (.stage (.raised generation failure)) (.saveRaised documentId generation failure)
  | saved : Section coordinator documentId (.returned generation)
      { coordinator with tracker := (coordinator.tracker.markSaved documentId generation).1 }
      (.stage .checking)
      (.savedMarked documentId generation (coordinator.tracker.markSaved documentId generation).2.isSome)
  | failed {failure : SaveFailure} : Section coordinator documentId (.raised generation failure)
      { coordinator with tracker := (coordinator.tracker.markFailed documentId generation failure).1 }
      (.stage (.leaving false))
      (.failedMarked documentId generation (coordinator.tracker.markFailed documentId generation failure).2.isSome)
  | check : Section coordinator documentId .checking
      { coordinator with pending := coordinator.pending.erase documentId }
      (.stage (.latest (documentId ∈ coordinator.pending))) .quiet
  | again {pending : Bool} (wanted : pending = true ∨ coordinator.tracker.isDirty documentId = true) :
      Section coordinator documentId (.latest pending) coordinator (.stage .reading) .quiet
  | done {pending : Bool} (clean : coordinator.tracker.isDirty documentId = false) :
      Section coordinator documentId (.latest pending) coordinator (.stage (.leaving true)) .quiet
  | leave : Section coordinator documentId (.leaving allSaved)
      { coordinator with saving := coordinator.saving.erase documentId }
      (.stage (.answering allSaved)) .quiet
  | untracked (missing : coordinator.tracker.get documentId = none) :
      Section coordinator documentId (.answering allSaved) coordinator
        (.result allSaved) (.flushed documentId allSaved)
  | tracked (found : coordinator.tracker.get documentId = some state) :
      Section coordinator documentId (.answering allSaved) coordinator (.stage (.confirming allSaved)) .quiet
  | answer : Section coordinator documentId (.confirming allSaved) coordinator
      (.result (allSaved && !coordinator.tracker.isDirty documentId))
      (.flushed documentId (allSaved && !coordinator.tracker.isDirty documentId))

theorem flushSection_section (coordinator : Coordinator Doc Content) (documentId : Doc) (outcome : Outcome)
    (stage : FlushStage Content) :
    Section coordinator documentId stage (coordinator.flushSection documentId outcome stage).1
      (coordinator.flushSection documentId outcome stage).2.1
      (coordinator.flushSection documentId outcome stage).2.2 := by
  cases stage with
  | entering =>
    by_cases busy : documentId ∈ coordinator.saving
    · simpa [flushSection, enterFlush, busy] using Section.coalesce busy
    · cases dirty : coordinator.tracker.isDirty documentId with
      | true => simpa [flushSection, enterFlush, busy, dirty] using Section.acquire busy dirty
      | false => simpa [flushSection, enterFlush, busy, dirty] using Section.nothing busy dirty
  | reading =>
    cases found : coordinator.tracker.get documentId with
    | none => simpa [flushSection, found] using Section.finish (by simp [DirtyStateTracker.isDirty, found])
    | some state =>
      by_cases dirty : state.dirty = true
      · simpa [flushSection, found, dirty] using Section.read found dirty
      · simpa [flushSection, found, dirty] using
          Section.finish (by simpa [DirtyStateTracker.isDirty, found] using dirty)
  | marking generation content => exact .mark
  | saving generation content =>
    cases outcome with
    | returns => exact .return
    | raises exception => exact .raise
  | returned generation => exact .saved
  | raised generation failure => exact .failed
  | checking => exact .check
  | latest pending =>
    by_cases wanted : pending = true ∨ coordinator.tracker.isDirty documentId = true
    · have loop : (!pending && !coordinator.tracker.isDirty documentId) = false := by
        rcases wanted with rfl | dirty
        · simp
        · simp [dirty]
      simpa [flushSection, loop] using Section.again wanted
    · rw [not_or, Bool.not_eq_true, Bool.not_eq_true] at wanted
      simpa [flushSection, wanted.1, wanted.2] using Section.done wanted.2
  | leaving allSaved => exact .leave
  | answering allSaved =>
    cases found : coordinator.tracker.get documentId with
    | none => simpa [flushSection, found] using Section.untracked found
    | some state => simpa [flushSection, found] using Section.tracked found
  | confirming allSaved => exact .answer

end Coordinator

namespace System

/-- The steps of the system, one constructor for each kind of action. -/
inductive Stepped (system : System Doc Content) : Event Doc Content → System Doc Content → Prop where
  | change (fresh : system.calls.get? call = none) (opened : system.coordinator.closed = false) :
      Stepped system
        (.changed documentId (system.coordinator.tracker.markDirty documentId content).2.generation content)
        ⟨{ system.coordinator with tracker := (system.coordinator.tracker.markDirty documentId content).1 },
          system.calls.set call
            (.changing documentId (system.coordinator.tracker.markDirty documentId content).2.generation)⟩
  | request (fresh : system.calls.get? call = none) :
      Stepped system .quiet
        ⟨system.coordinator, system.calls.set call (.flushing documentId reason .entering none)⟩
  | requestAll (fresh : system.calls.get? call = none) :
      Stepped system .quiet ⟨system.coordinator, system.calls.set call (.listing reason false)⟩
  | close (fresh : system.calls.get? call = none) :
      Stepped system .closed
        ⟨{ system.coordinator with closed := true }, system.calls.set call (.listing .applicationClose true)⟩
  | expire (fresh : system.calls.get? call = none)
      (live : system.coordinator.scheduler.live.get? handle = some documentId) :
      Stepped system .quiet
        ⟨{ system.coordinator with scheduler := system.coordinator.scheduler.cancel handle },
          system.calls.set call (.flushing documentId .idle .entering none)⟩
  | schedule (found : system.calls.get? call = some (.changing documentId generation)) :
      Stepped system .quiet ⟨system.coordinator.scheduleIdle documentId, system.calls.erase call⟩
  | advance {coordinator : Coordinator Doc Content} (found : system.calls.get? call = some (.flushing documentId reason stage caller))
      (moved : Coordinator.Section system.coordinator documentId stage coordinator (.stage next) event) :
      Stepped system event ⟨coordinator, system.calls.set call (.flushing documentId reason next caller)⟩
  | conclude {coordinator : Coordinator Doc Content} (found : system.calls.get? call = some (.flushing documentId reason stage caller))
      (moved : Coordinator.Section system.coordinator documentId stage coordinator (.result value) event) :
      Stepped system event ⟨coordinator, system.afterFlush call caller value⟩
  | list (found : system.calls.get? call = some (.listing reason closing)) :
      Stepped system .quiet ⟨system.coordinator, system.calls.set call
        (.looping ⟨reason, closing, system.coordinator.tracker.dirtyDocuments, true⟩)⟩
  | loopEnd (found : system.calls.get? call = some (.looping loop)) (finished : loop.rest = []) :
      Stepped system (.flushedAll loop.closing loop.allSaved) ⟨system.coordinator, system.calls.erase call⟩
  | loopNext (found : system.calls.get? call = some (.looping loop)) (more : loop.rest = documentId :: rest) :
      Stepped system .quiet ⟨system.coordinator, system.calls.set call
        (.flushing documentId loop.reason .entering (some { loop with rest }))⟩

omit [DecidableEq Doc] in
theorem absent_of_not_contains {system : System Doc Content} (fresh : ¬ system.calls.contains call = true) :
    system.calls.get? call = none :=
  Dict.get?_eq_none_iff.mpr (by simpa using fresh)

theorem Step.stepped {system next : System Doc Content} (step : Step system event next) :
    Stepped system event next := by
  obtain ⟨action, acted⟩ := step
  cases action with
  | change call documentId content =>
    simp only [act] at acted
    split at acted
    · cases acted
    · rename_i fresh
      cases opened : system.coordinator.closed with
      | true => simp [Coordinator.contentChanged, opened] at acted
      | false =>
        rw [Coordinator.contentChanged, if_neg (by simp [opened])] at acted
        cases acted
        exact .change (absent_of_not_contains fresh) opened
  | request call documentId reason =>
    simp only [act] at acted
    split at acted
    · cases acted
    · rename_i fresh
      cases acted
      exact .request (absent_of_not_contains fresh)
  | requestAll call reason =>
    simp only [act] at acted
    split at acted
    · cases acted
    · rename_i fresh
      cases acted
      exact .requestAll (absent_of_not_contains fresh)
  | close call =>
    simp only [act] at acted
    split at acted
    · cases acted
    · rename_i fresh
      cases acted
      exact .close (absent_of_not_contains fresh)
  | expire handle call =>
    simp only [act] at acted
    split at acted
    · cases acted
    · rename_i fresh
      split at acted
      · cases acted
      · rename_i documentId live
        cases acted
        exact .expire (absent_of_not_contains fresh) live
  | proceed call outcome =>
    simp only [act, Option.map_eq_some_iff] at acted
    obtain ⟨running, found, moved⟩ := acted
    cases running with
    | changing documentId generation =>
      cases moved
      exact .schedule found
    | flushing documentId reason stage caller =>
      have progressed := Coordinator.flushSection_section system.coordinator documentId outcome stage
      simp only [proceed] at moved
      generalize system.coordinator.flushSection documentId outcome stage = result at progressed moved
      obtain ⟨coordinator, progress, event'⟩ := result
      cases progress with
      | stage stage' =>
        cases moved
        exact .advance found progressed
      | result value =>
        cases moved
        exact .conclude found progressed
    | listing reason closing =>
      cases moved
      exact .list found
    | looping loop =>
      simp only [proceed] at moved
      split at moved
      · rename_i finished
        cases moved
        exact .loopEnd found finished
      · rename_i documentId rest more
        cases moved
        exact .loopNext found more

end System
end NovelStudio.Autosave

/-! The idle timers: which handle belongs to which document, and what a step does
to the timer of a document. -/

namespace NovelStudio.Autosave

open Library

variable {Doc Content : Type} [DecidableEq Doc]

namespace Coordinator

/-- A timer of the document is scheduled, neither cancelled nor expired. -/
def TimerLive (coordinator : Coordinator Doc Content) (documentId : Doc) : Prop :=
  ∃ handle, coordinator.scheduler.live.get? handle = some documentId

/-- A handle remembered for a document is that document's timer, or has expired. -/
structure Timers (coordinator : Coordinator Doc Content) : Prop where
  owned : ∀ {documentId other handle}, coordinator.idle.get? documentId = some handle →
    coordinator.scheduler.live.get? handle = some other → other = documentId
  remembered : ∀ {documentId handle}, coordinator.idle.get? documentId = some handle →
    handle < coordinator.scheduler.issued
  scheduled : ∀ {documentId handle}, coordinator.scheduler.live.get? handle = some documentId →
    handle < coordinator.scheduler.issued

theorem cancelIdle_cases (coordinator : Coordinator Doc Content) (documentId : Doc) :
    coordinator.cancelIdle documentId = coordinator ∨
    ∃ handle, coordinator.idle.get? documentId = some handle ∧
      (coordinator.cancelIdle documentId).idle = coordinator.idle.erase documentId ∧
      (coordinator.cancelIdle documentId).scheduler.live = coordinator.scheduler.live.erase handle ∧
      (coordinator.cancelIdle documentId).scheduler.issued = coordinator.scheduler.issued := by
  unfold cancelIdle
  cases found : coordinator.idle.get? documentId with
  | none => exact .inl rfl
  | some handle => exact .inr ⟨handle, rfl, rfl, rfl, rfl⟩

variable {coordinator : Coordinator Doc Content}

theorem Timers.cancelIdle (timers : coordinator.Timers) (documentId : Doc) :
    (coordinator.cancelIdle documentId).Timers := by
  rcases coordinator.cancelIdle_cases documentId with same | ⟨handle, found, idle, live, issued⟩
  · rwa [same]
  · constructor <;> simp only [idle, live, issued, Dict.get?_erase, Option.ite_none_left_eq_some]
    · rintro target other handle ⟨_, kept⟩ ⟨_, alive⟩
      exact timers.owned kept alive
    · rintro target handle ⟨_, kept⟩
      exact timers.remembered kept
    · rintro target handle ⟨_, alive⟩
      exact timers.scheduled alive

theorem TimerLive.cancelIdle (timers : coordinator.Timers)
    (live : coordinator.TimerLive documentId) (different : documentId ≠ other) :
    (coordinator.cancelIdle other).TimerLive documentId := by
  rcases coordinator.cancelIdle_cases other with same | ⟨handle, found, _, erased, _⟩
  · rwa [same]
  · obtain ⟨kept, alive⟩ := live
    refine ⟨kept, ?_⟩
    rw [erased, Dict.get?_erase, if_neg]
    · exact alive
    · rintro rfl
      exact different (timers.owned found alive)

theorem Timers.scheduleIdle (timers : coordinator.Timers) (documentId : Doc) :
    (coordinator.scheduleIdle documentId).Timers := by
  have cancelled := timers.cancelIdle documentId
  simp only [Coordinator.scheduleIdle]
  generalize coordinator.cancelIdle documentId = before at cancelled
  by_cases closed : before.closed = true
  · rwa [if_pos closed]
  rw [if_neg closed]
  constructor
  · intro target other handle kept alive
    simp only [Scheduler.callLater, Dict.get?_set] at kept alive
    split at kept
    · rename_i same
      cases kept
      rw [if_pos rfl] at alive
      exact (Option.some.inj alive).symm.trans same.symm
    · have older := cancelled.remembered kept
      rw [if_neg (by omega)] at alive
      exact cancelled.owned kept alive
  · intro target handle kept
    simp only [Scheduler.callLater, Dict.get?_set] at kept ⊢
    split at kept
    · cases kept
      exact Nat.lt_succ_self _
    · exact Nat.lt_succ_of_lt (cancelled.remembered kept)
  · intro target handle alive
    simp only [Scheduler.callLater, Dict.get?_set] at alive ⊢
    split at alive
    · rename_i same
      rw [same]
      exact Nat.lt_succ_self _
    · exact Nat.lt_succ_of_lt (cancelled.scheduled alive)

theorem timerLive_scheduleIdle (opened : coordinator.closed = false)
    (documentId : Doc) : (coordinator.scheduleIdle documentId).TimerLive documentId := by
  simp only [Coordinator.scheduleIdle, cancelIdle_closed, opened, Bool.false_eq_true, ↓reduceIte]
  exact ⟨_, Dict.get?_set_self ..⟩

theorem TimerLive.scheduleIdle (timers : coordinator.Timers)
    (live : coordinator.TimerLive documentId) (different : documentId ≠ other) :
    (coordinator.scheduleIdle other).TimerLive documentId := by
  obtain ⟨handle, alive⟩ := live.cancelIdle timers different
  have older := (timers.cancelIdle other).scheduled alive
  simp only [Coordinator.scheduleIdle]
  split
  · exact ⟨handle, alive⟩
  · refine ⟨handle, ?_⟩
    simp only [Scheduler.callLater]
    rw [Dict.get?_set_ne _ _ (by omega)]
    exact alive

/-- A section of `flush` cancels a timer only on entry, and only its document's. -/
theorem Section.timers {after : Coordinator Doc Content} (timers : coordinator.Timers)
    (moved : Section coordinator documentId stage after progress event) : after.Timers := by
  cases moved with
  | coalesce | acquire | nothing =>
    have cancelled := timers.cancelIdle documentId
    exact ⟨cancelled.owned, cancelled.remembered, cancelled.scheduled⟩
  | _ => exact ⟨timers.owned, timers.remembered, timers.scheduled⟩

theorem Section.timerLive {after : Coordinator Doc Content} (timers : coordinator.Timers)
    (moved : Section coordinator documentId stage after progress event) (live : coordinator.TimerLive other)
    (kept : stage = .entering → other ≠ documentId) : after.TimerLive other := by
  cases moved with
  | coalesce | acquire | nothing => exact live.cancelIdle timers (kept rfl)
  | _ => exact live

end Coordinator

namespace System

theorem Stepped.timers {system next : System Doc Content} (timers : system.coordinator.Timers)
    (stepped : Stepped system event next) : next.coordinator.Timers := by
  cases stepped with
  | expire fresh live =>
    constructor <;> simp only [Scheduler.cancel, Dict.get?_erase, Option.ite_none_left_eq_some]
    · rintro target other handle kept ⟨_, alive⟩
      exact timers.owned kept alive
    · exact timers.remembered
    · rintro target handle ⟨_, alive⟩
      exact timers.scheduled alive
  | schedule found => exact timers.scheduleIdle _
  | advance found moved => exact moved.timers timers
  | conclude found moved => exact moved.timers timers
  | _ => exact ⟨timers.owned, timers.remembered, timers.scheduled⟩

theorem timers_of_run {system : System Doc Content} (run : Run Step init history system) :
    system.coordinator.Timers := by
  refine run.invariant ⟨?_, ?_, ?_⟩ fun timers step => step.stepped.timers timers
  all_goals simp [init, Coordinator.init]

end System
end NovelStudio.Autosave
