import NovelStudio.Autosave.Interleaving
import NovelStudio.Autosave.SavedContent

/-! What becomes of a dirty document. It is covered while somebody will still look
at it: a timer, a call about to schedule one or about to flush, or the running flush
before its last look. Two steps can leave it uncovered: a request that coalesces
into a flush past its last look, and a callback that raises for older content. -/

namespace NovelStudio.Autosave

open Library

variable {Doc Content : Type}

/-- The stages after which a flush that does not fail looks at the tracker again. -/
def FlushStage.watches : FlushStage Content → Bool
  | .reading | .marking _ _ | .saving _ _ | .returned _ | .checking | .latest _ => true
  | _ => false

theorem FlushStage.holds_of_watches {stage : FlushStage Content} (watches : stage.watches = true) :
    stage.holds = true := by
  cases stage <;> simp [FlushStage.watches, FlushStage.holds] at *

/-- The events of the steps that the condition on a run is about. -/
def Event.guarded : Event Doc Content → Bool
  | .closed | .coalesced _ | .saveRaised _ _ _ => true
  | _ => false

/-- A save of the generation has failed, and the document has not changed since. -/
def FailedSince (history : List (Event Doc Content)) (documentId : Doc) (generation : Nat) : Prop :=
  ∃ before failure after, history = before ++ Event.saveRaised documentId generation failure :: after ∧
    ∀ later content, .changed documentId later content ∉ after

theorem FailedSince.snoc {event : Event Doc Content} (failed : FailedSince history documentId generation)
    (unchanged : ∀ later content, event ≠ .changed documentId later content) :
    FailedSince (history ++ [event]) documentId generation := by
  obtain ⟨before, failure, after, rfl, none⟩ := failed
  refine ⟨before, failure, after ++ [event], by simp, fun later content member => ?_⟩
  rcases List.mem_append.mp member with old | new
  · exact none later content old
  · exact unchanged later content (List.mem_singleton.mp new).symm

theorem failedSince_now (history : List (Event Doc Content)) (documentId : Doc) (generation : Nat)
    (failure : SaveFailure) :
    FailedSince (history ++ [.saveRaised documentId generation failure]) documentId generation :=
  ⟨history, failure, [], rfl, by simp⟩

section
variable [DecidableEq Doc]

theorem Coordinator.Section.raised {coordinator after : Coordinator Doc Content} {failure : SaveFailure}
    (moved : Section coordinator documentId stage after (.stage (.raised generation failure)) event) :
    event = .saveRaised documentId generation failure := by
  cases moved with
  | raise => rfl

/-- A section of `flush` on a dirty document leaves it watched, unless it coalesces or raises. -/
theorem Coordinator.Section.watches {coordinator after : Coordinator Doc Content}
    (moved : Section coordinator documentId stage after (.stage later) event)
    (looking : stage = .entering ∨ stage.watches = true)
    (dirty : coordinator.tracker.isDirty documentId = true)
    (unraised : ∀ generation failure, event ≠ .saveRaised documentId generation failure) :
    later.watches = true := by
  cases moved with
  | finish clean | done clean =>
    rw [dirty] at clean
    cases clean
  | raise => exact absurd rfl (unraised _ _)
  | failed | leave | tracked => rcases looking with looking | looking <;> cases looking
  | _ => rfl

theorem Coordinator.Section.saving_of_raised {coordinator after : Coordinator Doc Content} {failure : SaveFailure}
    (moved : Section coordinator documentId stage after progress (.saveRaised target generation failure)) :
    ∃ content, stage = .saving generation content := by
  cases moved with
  | raise => exact ⟨_, rfl⟩

theorem Coordinator.Section.not_closed {coordinator after : Coordinator Doc Content} :
    ¬ Section coordinator documentId stage after progress .closed := nofun

theorem Coordinator.flushSection_returns (coordinator : Coordinator Doc Content) (documentId : Doc)
    (stage : FlushStage Content) (generation : Nat) (failure : SaveFailure) :
    (coordinator.flushSection documentId .returns stage).2.2 ≠ .saveRaised documentId generation failure := by
  intro same
  have progressed := coordinator.flushSection_section documentId .returns stage
  rw [same] at progressed
  obtain ⟨content, rfl⟩ := progressed.saving_of_raised
  cases same

theorem Coordinator.Section.not_watched {coordinator after : Coordinator Doc Content}
    (moved : Section coordinator documentId stage after (.result value) event)
    (dirty : coordinator.tracker.isDirty documentId = true)
    (uncoalesced : event ≠ .coalesced documentId) : stage ≠ .entering ∧ stage.watches = false := by
  cases moved with
  | coalesce => exact absurd rfl uncoalesced
  | nothing free clean =>
    rw [dirty] at clean
    cases clean
  | _ => exact ⟨by simp, rfl⟩

namespace System

/-- A `content_changed` of the document stands between its two sections. -/
def Changing (system : System Doc Content) (documentId : Doc) : Prop :=
  ∃ call generation, system.calls.get? call = some (.changing documentId generation)

/-- A flush of the document, other than the given call, is about to enter. -/
def EnteringBeside (system : System Doc Content) (acting : Nat) (documentId : Doc) : Prop :=
  ∃ call reason caller, call ≠ acting ∧
    system.calls.get? call = some (.flushing documentId reason .entering caller)

/-- The running flush of the document has not taken its last look. -/
def Watched (system : System Doc Content) (documentId : Doc) : Prop :=
  ∃ call reason stage caller, system.calls.get? call = some (.flushing documentId reason stage caller) ∧
    stage.watches = true

/-- The save of the tracked generation has failed, marked or about to be. -/
def Failing (system : System Doc Content) (documentId : Doc) : Prop :=
  ∃ state, system.coordinator.tracker.get documentId = some state ∧
    (state.status = .failed ∨ ∃ call reason failure caller,
      system.calls.get? call = some (.flushing documentId reason (.raised state.generation failure) caller))

/-- The condition on the state before a step: a request coalesces only while
something else will look at a dirty document, and the callback raises only for the
latest content, or while something else will. The coordinator is not closed. -/
def Heeded (system : System Doc Content) : Action Doc Content → Prop
  | .close _ => False
  | .proceed acting outcome =>
    match system.calls.get? acting with
    | some (.flushing documentId _ .entering _) =>
      documentId ∈ system.coordinator.saving → system.coordinator.tracker.isDirty documentId = true →
        system.Changing documentId ∨ system.EnteringBeside acting documentId ∨ system.Watched documentId ∨
          system.Failing documentId
    | some (.flushing documentId _ (.saving generation _) _) =>
      outcome ≠ .returns →
        (∃ state, system.coordinator.tracker.get documentId = some state ∧ state.generation = generation) ∨
          system.coordinator.TimerLive documentId ∨ system.Changing documentId ∨
            system.EnteringBeside acting documentId
    | _ => True
  | _ => True

def HeededStep (system : System Doc Content) (event : Event Doc Content) (next : System Doc Content) : Prop :=
  ∃ action, system.Heeded action ∧ system.act action = some (next, event)

theorem HeededStep.step {system next : System Doc Content} (heeded : HeededStep system event next) :
    Step system event next := by
  obtain ⟨action, _, acted⟩ := heeded
  exact ⟨action, acted⟩

/-- Who will still look at a dirty document. -/
inductive Covered (history : List (Event Doc Content)) (system : System Doc Content) (documentId : Doc) : Prop
  | timer (live : system.coordinator.TimerLive documentId)
  | changing (found : system.Changing documentId)
  | entering (found : system.calls.get? call = some (.flushing documentId reason .entering caller))
  | watched (found : system.Watched documentId)
  | failed (found : system.coordinator.tracker.get documentId = some state)
      (since : FailedSince history documentId state.generation)

def Covering (history : List (Event Doc Content)) (system : System Doc Content) : Prop :=
  ∀ {documentId}, system.coordinator.tracker.isDirty documentId = true → Covered history system documentId

/-- A failed status, and a flush about to set it, come from a save that raised. -/
structure Failures (history : List (Event Doc Content)) (system : System Doc Content) : Prop where
  marked : ∀ {documentId state}, system.coordinator.tracker.get documentId = some state →
    state.status = .failed → FailedSince history documentId state.generation
  raised : ∀ {call documentId reason failure caller state},
    system.calls.get? call = some (.flushing documentId reason (.raised state.generation failure) caller) →
    system.coordinator.tracker.get documentId = some state → FailedSince history documentId state.generation

theorem Stepped.generation_kept {system next : System Doc Content} (stepped : Stepped system event next)
    (unchanged : ∀ generation content, event ≠ .changed documentId generation content)
    (found : next.coordinator.tracker.get documentId = some after) :
    ∃ before, system.coordinator.tracker.get documentId = some before ∧ after.generation = before.generation := by
  rcases stepped.tracker_cases with same | ⟨target, content, _, rfl, changed⟩ |
    ⟨_, target, _, _, _, _, _, _, _, _, _, moved, _⟩
  · exact ⟨after, same ▸ found, rfl⟩
  · rw [changed, DirtyStateTracker.get_markDirty] at found
    by_cases same : documentId = target
    · exact absurd (by rw [same]) (unchanged _ content)
    · rw [if_neg same] at found
      exact ⟨after, found, rfl⟩
  · rw [moved] at found
    obtain ⟨before, tracked, same, _⟩ := DirtyStateTracker.transition_found found
    exact ⟨before, tracked, same⟩

theorem Stepped.just_changed {system next : System Doc Content}
    (stepped : Stepped system (.changed documentId generation content) next)
    (found : next.coordinator.tracker.get documentId = some after) :
    after.status = .unsaved ∧
      ∀ before, system.coordinator.tracker.get documentId = some before → before.generation < after.generation := by
  obtain ⟨_, _, changed⟩ := stepped.changed
  rw [changed, DirtyStateTracker.get_markDirty, if_pos rfl] at found
  cases found
  refine ⟨rfl, fun before tracked => ?_⟩
  rw [DirtyStateTracker.markDirty_generation _ tracked]
  exact Nat.lt_succ_self _

theorem Stepped.changing {system next : System Doc Content}
    (stepped : Stepped system (.changed documentId generation content) next) : next.Changing documentId := by
  cases stepped with
  | change fresh opened => exact ⟨_, _, Dict.get?_set_self ..⟩
  | advance found moved => exact absurd rfl moved.not_changed
  | conclude found moved => exact absurd rfl moved.not_changed

theorem Failures.step {system next : System Doc Content} (carries : Carries system)
    (failures : Failures history system) (stepped : Stepped system event next) :
    Failures (history ++ [event]) next where
  marked := by
    intro documentId state found failed
    by_cases changed : ∃ generation content, event = .changed documentId generation content
    · obtain ⟨generation, content, rfl⟩ := changed
      rw [(stepped.just_changed found).1] at failed
      cases failed
    · have unchanged : ∀ generation content, event ≠ .changed documentId generation content :=
        fun generation content same => changed ⟨generation, content, same⟩
      rcases stepped.tracker_cases with same | ⟨target, content, _, rfl, moved⟩ |
        ⟨_, target, _, _, _, _, _, _, _, running, _, moved, _, _, ended⟩
      · exact (failures.marked (same ▸ found) failed).snoc unchanged
      · rw [moved, DirtyStateTracker.get_markDirty] at found
        split at found
        · cases found
          cases failed
        · exact (failures.marked found failed).snoc unchanged
      · rw [moved] at found
        obtain ⟨before, tracked, same, _, rfl | ⟨rfl, atGeneration, nowStatus⟩⟩ :=
          DirtyStateTracker.transition_found found
        · exact (failures.marked tracked failed).snoc unchanged
        · obtain ⟨failure, rfl⟩ := ended (nowStatus ▸ failed)
          rw [same]
          subst atGeneration
          exact (failures.raised running tracked).snoc unchanged
  raised := by
    intro call documentId reason failure caller state found tracked
    rcases stepped.flush_origin found with older | fresh | ⟨earlier, running, moved⟩
    · by_cases changed : ∃ generation content, event = .changed documentId generation content
      · obtain ⟨generation, content, rfl⟩ := changed
        obtain ⟨held, before, below, _⟩ := carries older rfl
        have above := (stepped.just_changed tracked).2 held before
        omega
      · have unchanged : ∀ generation content, event ≠ .changed documentId generation content :=
          fun generation content same => changed ⟨generation, content, same⟩
        obtain ⟨before, held, same⟩ := stepped.generation_kept unchanged tracked
        rw [same] at older ⊢
        exact (failures.raised older held).snoc unchanged
    · cases fresh
    · rw [moved.raised]
      exact failedSince_now history documentId state.generation failure

theorem failures_of_run {system : System Doc Content} (run : Run Step init history system) :
    Failures history system := by
  refine run.history ?_ fun reached failures step => failures.step (carries_of_run reached) step.stepped
  constructor
  · intro documentId state found
    simp [init, Coordinator.init, DirtyStateTracker.get] at found
  · intro call documentId reason failure caller state found
    simp [init] at found

omit [DecidableEq Doc] in
theorem afterFlush_other (system : System Doc Content) (caller : Option (FlushAll Doc)) (value : Bool)
    (different : other ≠ call) :
    (system.afterFlush call caller value).get? other = system.calls.get? other := by
  cases caller with
  | none => rw [afterFlush, Dict.get?_erase, if_neg different]
  | some loop => rw [afterFlush, Dict.get?_set, if_neg different]

omit [DecidableEq Doc] in
theorem kept_of_fresh {system : System Doc Content} {started : Call Doc Content}
    (fresh : system.calls.get? acting = none) (found : system.calls.get? call = some running) :
    (system.calls.set acting started).get? call = some running := by
  rw [Dict.get?_set_ne _ _, found]
  rintro rfl
  cases fresh.symm.trans found

theorem Stepped.call_cases {system next : System Doc Content} (stepped : Stepped system event next)
    (found : system.calls.get? call = some running) :
    next.calls.get? call = some running ∨
    (∃ documentId generation, running = .changing documentId generation ∧
      next.coordinator = system.coordinator.scheduleIdle documentId) ∨
    (∃ documentId reason stage caller later, running = .flushing documentId reason stage caller ∧
      next.calls.get? call = some (.flushing documentId reason later caller) ∧
      Coordinator.Section system.coordinator documentId stage next.coordinator (.stage later) event) ∨
    (∃ documentId reason stage caller value, running = .flushing documentId reason stage caller ∧
      Coordinator.Section system.coordinator documentId stage next.coordinator (.result value) event) ∨
    (∃ reason closing, running = .listing reason closing) ∨ ∃ loop, running = .looping loop := by
  cases stepped with
  | @schedule acting documentId generation standing =>
    by_cases same : call = acting
    · cases (same ▸ found).symm.trans standing
      exact .inr (.inl ⟨documentId, generation, rfl, rfl⟩)
    · exact .inl (by rw [Dict.get?_erase, if_neg same]; exact found)
  | @advance acting documentId reason stage caller later event coordinator standing moved =>
    by_cases same : call = acting
    · subst same
      cases found.symm.trans standing
      exact .inr (.inr (.inl ⟨documentId, reason, stage, caller, later, rfl, Dict.get?_set_self .., moved⟩))
    · exact .inl (by rw [Dict.get?_set_ne _ _ same]; exact found)
  | @conclude acting documentId reason stage caller value event coordinator standing moved =>
    by_cases same : call = acting
    · subst same
      cases found.symm.trans standing
      exact .inr (.inr (.inr (.inl ⟨documentId, reason, stage, caller, value, rfl, moved⟩)))
    · exact .inl (by rw [afterFlush_other _ _ _ same]; exact found)
  | @list acting reason closing standing =>
    by_cases same : call = acting
    · cases (same ▸ found).symm.trans standing
      exact .inr (.inr (.inr (.inr (.inl ⟨reason, closing, rfl⟩))))
    · exact .inl (by rw [Dict.get?_set_ne _ _ same]; exact found)
  | @loopEnd acting loop standing finished =>
    by_cases same : call = acting
    · cases (same ▸ found).symm.trans standing
      exact .inr (.inr (.inr (.inr (.inr ⟨loop, rfl⟩))))
    · exact .inl (by rw [Dict.get?_erase, if_neg same]; exact found)
  | @loopNext acting loop documentId rest standing more =>
    by_cases same : call = acting
    · cases (same ▸ found).symm.trans standing
      exact .inr (.inr (.inr (.inr (.inr ⟨loop, rfl⟩))))
    · exact .inl (by rw [Dict.get?_set_ne _ _ same]; exact found)
  | change fresh => exact .inl (kept_of_fresh fresh found)
  | request fresh => exact .inl (kept_of_fresh fresh found)
  | requestAll fresh => exact .inl (kept_of_fresh fresh found)
  | close fresh => exact .inl (kept_of_fresh fresh found)
  | expire fresh live => exact .inl (kept_of_fresh fresh found)

theorem Covered.step {system next : System Doc Content} (timers : system.coordinator.Timers)
    (opened : system.coordinator.closed = false) (covered : Covered history system documentId)
    (stepped : Stepped system event next) (before : system.coordinator.tracker.isDirty documentId = true)
    (unchanged : ∀ generation content, event ≠ .changed documentId generation content)
    (uncoalesced : event ≠ .coalesced documentId)
    (unraised : ∀ generation failure, event ≠ .saveRaised documentId generation failure) :
    Covered (history ++ [event]) next documentId := by
  -- The flush that was to look at the document stands where it stood, or moves on to look.
  have looked {call reason stage caller}
      (found : system.calls.get? call = some (.flushing documentId reason stage caller))
      (looking : stage = .entering ∨ stage.watches = true) : Covered (history ++ [event]) next documentId := by
    rcases stepped.call_cases found with kept | ⟨_, _, same, _⟩ | ⟨_, _, _, _, later, same, landed, moved⟩ |
      ⟨_, _, _, _, _, same, moved⟩ | ⟨_, _, same⟩ | ⟨_, same⟩
    · rcases looking with rfl | watches
      · exact .entering kept
      · exact .watched ⟨_, _, _, _, kept, watches⟩
    · cases same
    · cases same
      exact .watched ⟨_, _, _, _, landed, moved.watches looking before unraised⟩
    · cases same
      obtain ⟨notEntering, blind⟩ := moved.not_watched before uncoalesced
      rcases looking with entering | watches
      · exact absurd entering notEntering
      · rw [blind] at watches
        cases watches
    all_goals cases same
  cases covered with
  | timer live =>
    cases stepped with
    | @expire acting handle target fresh alive =>
      by_cases same : target = documentId
      · subst same
        exact .entering (Dict.get?_set_self ..)
      · obtain ⟨other, kept⟩ := live
        refine .timer ⟨other, ?_⟩
        simp only [Scheduler.cancel]
        rw [Dict.get?_erase, if_neg]
        · exact kept
        · rintro rfl
          exact same (Option.some.inj (alive.symm.trans kept))
    | @schedule acting target generation found =>
      by_cases same : target = documentId
      · exact .timer (same ▸ Coordinator.timerLive_scheduleIdle opened target)
      · exact .timer (live.scheduleIdle timers (Ne.symm same))
    | @advance acting target reason stage caller later event coordinator found moved =>
      by_cases same : stage = .entering ∧ documentId = target
      · obtain ⟨rfl, rfl⟩ := same
        exact looked found (.inl rfl)
      · exact .timer (moved.timerLive timers live fun entering target => same ⟨entering, target⟩)
    | @conclude acting target reason stage caller value event coordinator found moved =>
      by_cases same : stage = .entering ∧ documentId = target
      · obtain ⟨rfl, rfl⟩ := same
        exact looked found (.inl rfl)
      · exact .timer (moved.timerLive timers live fun entering target => same ⟨entering, target⟩)
    | _ => exact .timer live
  | changing found =>
    obtain ⟨call, generation, found⟩ := found
    rcases stepped.call_cases found with kept | ⟨_, _, same, scheduled⟩ | ⟨_, _, _, _, _, same, _⟩ |
      ⟨_, _, _, _, _, same, _⟩ | ⟨_, _, same⟩ | ⟨_, same⟩
    · exact .changing ⟨call, generation, kept⟩
    · cases same
      exact .timer (scheduled ▸ Coordinator.timerLive_scheduleIdle opened documentId)
    all_goals cases same
  | entering found => exact looked found (.inl rfl)
  | watched found =>
    obtain ⟨call, reason, stage, caller, found, watches⟩ := found
    exact looked found (.inr watches)
  | failed found since =>
    obtain ⟨after, kept, _⟩ := stepped.tracker_grows found
    obtain ⟨held, tracked, same⟩ := stepped.generation_kept unchanged kept
    cases found.symm.trans tracked
    exact .failed kept (same ▸ since.snoc unchanged)

theorem cases_of_act {system next : System Doc Content} (acted : system.act action = some (next, event))
    (guarded : event.guarded = true) :
    (∃ acting, action = .close acting) ∨
    ∃ acting outcome documentId reason stage caller progress, action = .proceed acting outcome ∧
      system.calls.get? acting = some (.flushing documentId reason stage caller) ∧
      Coordinator.Section system.coordinator documentId stage next.coordinator progress event ∧
      (outcome = .returns → ∀ generation failure, event ≠ .saveRaised documentId generation failure) ∧
      ∀ other, other ≠ acting → next.calls.get? other = system.calls.get? other := by
  cases action with
  | close acting => exact .inl ⟨acting, rfl⟩
  | proceed acting outcome =>
    simp only [act, Option.map_eq_some_iff] at acted
    obtain ⟨running, found, moved⟩ := acted
    cases running with
    | flushing documentId reason stage caller =>
      have progressed := Coordinator.flushSection_section system.coordinator documentId outcome stage
      have returned : outcome = .returns → ∀ generation failure,
          (system.coordinator.flushSection documentId outcome stage).2.2 ≠
            .saveRaised documentId generation failure := by
        rintro rfl
        exact Coordinator.flushSection_returns system.coordinator documentId stage
      simp only [proceed] at moved
      generalize system.coordinator.flushSection documentId outcome stage = result at moved progressed returned
      obtain ⟨coordinator, progress, produced⟩ := result
      refine .inr ⟨acting, outcome, documentId, reason, stage, caller, progress, rfl, found, ?_⟩
      cases progress with
      | stage later =>
        cases moved
        exact ⟨progressed, returned, fun other different => Dict.get?_set_ne _ _ different⟩
      | result value =>
        cases moved
        exact ⟨progressed, returned, fun other different => afterFlush_other _ _ _ different⟩
    | looping loop =>
      simp only [proceed] at moved
      split at moved <;> cases moved <;> cases guarded
    | changing | listing =>
      cases moved
      cases guarded
  | change call documentId content =>
    simp only [act] at acted
    split at acted
    · cases acted
    · obtain ⟨_, _, same⟩ := Option.map_eq_some_iff.mp acted
      cases same
      cases guarded
  | request | requestAll =>
    simp only [act] at acted
    split at acted
    · cases acted
    · cases acted
      cases guarded
  | expire =>
    simp only [act] at acted
    split at acted
    · cases acted
    · split at acted
      · cases acted
      · cases acted
        cases guarded

theorem Covered.coalesced {system next : System Doc Content} (failures : Failures history system)
    (heeded : system.Heeded action) (acted : system.act action = some (next, .coalesced documentId))
    (dirty : system.coordinator.tracker.isDirty documentId = true) :
    Covered (history ++ [.coalesced documentId]) next documentId := by
  obtain ⟨acting, rfl⟩ | ⟨acting, outcome, target, reason, stage, caller, progress, rfl, found, progressed, _, kept⟩ :=
    cases_of_act acted rfl
  · exact heeded.elim
  generalize reached : next.coordinator = coordinator at progressed
  cases progressed with
  | coalesce busy =>
    simp only [Heeded, found] at heeded
    rcases heeded busy dirty with ⟨call, generation, changing⟩ | ⟨call, _, _, beside, entering⟩ |
      ⟨call, _, _, _, watched, watches⟩ | ⟨state, tracked, failing⟩
    · refine .changing ⟨call, generation, (kept call ?_).trans changing⟩
      rintro rfl
      cases found.symm.trans changing
    · exact .entering ((kept call beside).trans entering)
    · refine .watched ⟨call, _, _, _, (kept call ?_).trans watched, watches⟩
      rintro rfl
      cases found.symm.trans watched
      cases watches
    · have unmoved : next.coordinator.tracker = system.coordinator.tracker := by rw [reached]; simp
      refine .failed (unmoved ▸ tracked) (FailedSince.snoc ?_ (by simp))
      rcases failing with marked | ⟨call, _, failure, _, raised⟩
      · exact failures.marked tracked marked
      · exact failures.raised raised tracked

theorem Covered.raised {system next : System Doc Content} {failure : SaveFailure}
    (heeded : system.Heeded action)
    (acted : system.act action = some (next, .saveRaised documentId generation failure)) :
    Covered (history ++ [.saveRaised documentId generation failure]) next documentId := by
  obtain ⟨acting, rfl⟩ | ⟨acting, outcome, target, reason, stage, caller, progress, rfl, found, progressed,
      returned, kept⟩ := cases_of_act acted rfl
  · exact heeded.elim
  generalize reached : next.coordinator = coordinator at progressed
  cases progressed with
  | raise =>
    simp only [Heeded, found] at heeded
    rcases heeded (fun same => returned same _ _ rfl) with ⟨state, tracked, rfl⟩ | ⟨handle, live⟩ | ⟨call, _, changing⟩ |
      ⟨call, _, _, beside, entering⟩
    · exact .failed (reached ▸ tracked) (failedSince_now ..)
    · exact .timer ⟨handle, reached ▸ live⟩
    · refine .changing ⟨call, _, (kept call ?_).trans changing⟩
      rintro rfl
      cases found.symm.trans changing
    · exact .entering ((kept call beside).trans entering)

theorem Covering.step {system next : System Doc Content} (run : Run Step init history system)
    (opened : system.coordinator.closed = false) (covering : Covering history system)
    (heeded : system.Heeded action) (acted : system.act action = some (next, event)) :
    Covering (history ++ [event]) next := by
  intro documentId dirty
  have stepped := Step.stepped ⟨action, acted⟩
  rcases stepped.dirty_cases (carries_of_run run) dirty with before | ⟨generation, content, rfl⟩
  · by_cases changed : ∃ generation content, event = .changed documentId generation content
    · obtain ⟨generation, content, rfl⟩ := changed
      exact .changing stepped.changing
    by_cases coalesced : event = .coalesced documentId
    · subst coalesced
      exact .coalesced (failures_of_run run) heeded acted before
    by_cases raised : ∃ generation failure, event = .saveRaised documentId generation failure
    · obtain ⟨generation, failure, rfl⟩ := raised
      exact .raised heeded acted
    · exact (covering before).step (timers_of_run run) opened stepped before
        (fun generation content same => changed ⟨generation, content, same⟩) coalesced
        fun generation failure same => raised ⟨generation, failure, same⟩
  · exact .changing stepped.changing

theorem HeededStep.opened {system next : System Doc Content} (heeded : HeededStep system event next)
    (opened : system.coordinator.closed = false) : next.coordinator.closed = false := by
  obtain ⟨action, condition, acted⟩ := heeded
  have stepped := Step.stepped ⟨action, acted⟩
  cases stepped with
  | close fresh =>
    obtain ⟨acting, rfl⟩ | ⟨_, _, _, _, _, _, _, _, _, progressed, _⟩ := cases_of_act acted rfl
    · exact condition.elim
    · exact (progressed.not_closed).elim
  | schedule found =>
    simp only [Coordinator.scheduleIdle]
    split <;> simpa using opened
  | advance found moved => exact moved.closed_eq.trans opened
  | conclude found moved => exact moved.closed_eq.trans opened
  | _ => exact opened

/-- In every run whose steps meet the condition, a document that is dirty while no
flush of it is running and no change of it is half done has a timer, or the save of
that very generation has failed since its last change. -/
theorem dirty_is_timed_or_failed {system : System Doc Content} (run : Run HeededStep init history system)
    (documentId : Doc) (state : DocumentState Doc Content)
    (found : system.coordinator.tracker.get documentId = some state) (dirty : state.dirty = true)
    (idle : ∀ call reason stage caller,
      system.calls.get? call = some (.flushing documentId reason stage caller) →
      stage ≠ .entering ∧ stage.holds = false)
    (settled : ∀ call generation, system.calls.get? call ≠ some (.changing documentId generation)) :
    (∃ handle, system.coordinator.scheduler.live.get? handle = some documentId) ∨
      FailedSince history documentId state.generation := by
  have covering : system.coordinator.closed = false ∧ Covering history system := by
    refine run.history (motive := fun history system =>
      system.coordinator.closed = false ∧ Covering history system) ⟨rfl, ?_⟩ ?_
    · intro documentId dirty
      simp [init, Coordinator.init, DirtyStateTracker.isDirty, DirtyStateTracker.get] at dirty
    · rintro history system event next reached ⟨opened, covering⟩ step
      refine ⟨step.opened opened, ?_⟩
      obtain ⟨action, heeded, acted⟩ := step
      exact Covering.step (reached.mono fun step => step.step) opened covering heeded acted
  cases covering.2 (DirtyStateTracker.isDirty_iff.mpr ⟨state, found, dirty⟩) with
  | timer live => exact .inl live
  | changing changing =>
    obtain ⟨call, generation, standing⟩ := changing
    exact absurd standing (settled call generation)
  | entering standing => exact absurd rfl (idle _ _ _ _ standing).1
  | watched watched =>
    obtain ⟨call, reason, stage, caller, standing, watches⟩ := watched
    have free := (idle call reason stage caller standing).2
    rw [FlushStage.holds_of_watches watches] at free
    cases free
  | failed tracked since =>
    cases tracked.symm.trans found
    exact .inr since

theorem HeededStep.of_act {system next : System Doc Content} (acted : system.act action = some (next, event))
    (unguarded : event.guarded = false) : HeededStep system event next := by
  refine ⟨action, ?_, acted⟩
  cases action with
  | close call =>
    simp only [act] at acted
    split at acted
    · cases acted
    · cases acted
      cases unguarded
  | proceed acting outcome =>
    simp only [act, Option.map_eq_some_iff] at acted
    obtain ⟨running, found, moved⟩ := acted
    simp only [Heeded, found]
    split
    · rename_i documentId reason caller same
      cases same
      intro busy
      simp only [proceed, Coordinator.flushSection, Coordinator.enterFlush, Coordinator.cancelIdle_saving, busy,
        ↓reduceIte] at moved
      cases moved
      cases unguarded
    · rename_i documentId reason generation content caller same
      cases same
      intro raised
      cases outcome with
      | returns => exact absurd rfl raised
      | raises exception =>
        cases moved
        cases unguarded
    · trivial
  | _ => trivial

theorem HeededStep.of_raise {system next : System Doc Content} (acting : Nat) (outcome : Outcome)
    (state : DocumentState Doc Content) (acted : system.act (.proceed acting outcome) = some (next, event))
    (found : system.calls.get? acting =
      some (.flushing documentId reason (.saving state.generation state.content) caller))
    (tracked : system.coordinator.tracker.get documentId = some state) : HeededStep system event next := by
  refine ⟨_, ?_, acted⟩
  simp only [Heeded, found]
  exact fun _ => .inl ⟨state, tracked, rfl⟩

theorem heededRun_of_actions (actions : List (Action Doc Content)) {system next : System Doc Content}
    (executed : execute act system actions = some (history, next))
    (unguarded : history.all (fun event => !event.guarded) = true) : Run HeededStep system history next := by
  induction actions generalizing system history with
  | nil =>
    cases executed
    exact .done
  | cons action rest ih =>
    simp only [execute] at executed
    split at executed
    · cases executed
    · rename_i middle event acted
      obtain ⟨⟨later, last⟩, found, same⟩ := Option.map_eq_some_iff.mp executed
      cases same
      rw [List.all_cons, Bool.and_eq_true, Bool.not_eq_true'] at unguarded
      exact (Run.one (HeededStep.of_act acted unguarded.1)).append (ih found unguarded.2)

/-- A save that raises for the latest content is recorded, and needs no timer. -/
theorem failed_save_is_recorded : ∃ (history : List (Event Nat String)) (system : System Nat String), Run HeededStep init history system ∧
    system.calls.entries = [] ∧ ((∃ handle, system.coordinator.scheduler.live.get? handle = some 7) ∨
      FailedSince history 7 1) := by
  have started : Run HeededStep init [.changed 7 1 "draft", .quiet, .quiet, .quiet, .quiet,
      .saveStarted 7 1 "draft" true] _ :=
    heededRun_of_actions [.change 0 7 "draft", .proceed 0 .returns, .expire 0 1, .proceed 1 .returns,
      .proceed 1 .returns, .proceed 1 .returns] rfl rfl
  have raised := started.snoc (.of_raise 1 (.raises (.other "disk full")) ⟨7, "draft", 1, .saving, none⟩ rfl rfl rfl)
  have run := raised.append (heededRun_of_actions (List.replicate 4 (.proceed 1 .returns)) rfl rfl)
  refine ⟨_, _, run, rfl, dirty_is_timed_or_failed run 7 _ rfl rfl ?_ ?_⟩
  · rintro call reason stage caller ⟨⟩
  · rintro call generation ⟨⟩

/-- The second change of a document is requested while the save of the first is in
flight; the request coalesces, and then that save raises. -/
def coalescedThenRaised : List (Action Nat String) :=
  [.change 0 7 "first", .proceed 0 .returns, .expire 0 1, .proceed 1 .returns, .proceed 1 .returns,
    .proceed 1 .returns, .change 2 7 "second", .proceed 2 .returns, .expire 1 3, .proceed 3 .returns,
    .proceed 1 (.raises (.saveError "disk full" true)), .proceed 1 .returns, .proceed 1 .returns,
    .proceed 1 .returns, .proceed 1 .returns]

def coalescedThenRaisedHistory : List (Event Nat String) :=
  [.changed 7 1 "first", .quiet, .quiet, .quiet, .quiet, .saveStarted 7 1 "first" true, .changed 7 2 "second",
    .quiet, .quiet, .coalesced 7, .saveRaised 7 1 ⟨"disk full", true⟩, .failedMarked 7 1 false, .quiet, .quiet,
    .flushed 7 false]

/-- The second content is left dirty: no call is in flight, no timer is scheduled and
no save of it was tried. -/
theorem coalesced_change_is_lost : ∃ system state,
    Run Step init coalescedThenRaisedHistory system ∧ system.calls.entries = [] ∧
    system.coordinator.tracker.get 7 = some state ∧ state.dirty = true ∧ state.generation = 2 ∧
    (∀ handle, system.coordinator.scheduler.live.get? handle ≠ some 7) ∧
    ¬ FailedSince coalescedThenRaisedHistory 7 2 := by
  refine ⟨_, _, run_of_actions coalescedThenRaised rfl, rfl, rfl, rfl, rfl, ?_, ?_⟩
  · rintro handle ⟨⟩
  · rintro ⟨before, failure, after, same, _⟩
    have member : Event.saveRaised 7 2 failure ∈ coalescedThenRaisedHistory := by simp [same]
    simp [coalescedThenRaisedHistory] at member

end System
end
end NovelStudio.Autosave
