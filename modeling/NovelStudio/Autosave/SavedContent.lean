import NovelStudio.Autosave.Exclusion

/-! A document is shown as saved only when the callback returned for the content
of its latest generation; closing leaves nothing dirty behind. -/

namespace NovelStudio.Autosave

open Library

variable {Doc Content : Type}

/-- What the history of a run holds for a flush that stands at a stage. -/
def FlushStage.Backed (history : List (Event Doc Content)) (documentId : Doc) : FlushStage Content → Prop
  | .marking generation content => .changed documentId generation content ∈ history
  | .saving generation content => .changed documentId generation content ∈ history ∧
      ∃ marked, .saveStarted documentId generation content marked ∈ history
  | .returned generation => ∃ content, .changed documentId generation content ∈ history ∧
      .saveReturned documentId generation content ∈ history
  | _ => True

theorem FlushStage.Backed.snoc {stage : FlushStage Content} (backed : stage.Backed history documentId)
    (event : Event Doc Content) : stage.Backed (history ++ [event]) documentId := by
  cases stage with
  | marking generation content => exact List.mem_append_left _ backed
  | saving generation content =>
    obtain ⟨changed, marked, started⟩ := backed
    exact ⟨List.mem_append_left _ changed, marked, List.mem_append_left _ started⟩
  | returned generation =>
    obtain ⟨content, changed, returned⟩ := backed
    exact ⟨content, List.mem_append_left _ changed, List.mem_append_left _ returned⟩
  | _ => trivial

/-- What a `flush_all` is heading for: whether it is closing, whether all was saved
so far, and the documents it has not yet seen answered. -/
def Call.remaining : Call Doc Content → Option (Bool × Bool × List Doc)
  | .looping loop => some (loop.closing, loop.allSaved, loop.rest)
  | .flushing documentId _ _ (some loop) => some (loop.closing, loop.allSaved, documentId :: loop.rest)
  | _ => none

theorem Call.remaining_stage (documentId : Doc) (reason : FlushReason) (stage other : FlushStage Content)
    (caller : Option (FlushAll Doc)) :
    (Call.flushing documentId reason stage caller).remaining = (Call.flushing documentId reason other caller).remaining := by
  cases caller <;> rfl

/-- The generations whose content was handed to the callback, in the order it was called. -/
def startedGenerations [DecidableEq Doc] (documentId : Doc) (history : List (Event Doc Content)) : List Nat :=
  history.filterMap fun
    | .saveStarted target generation _ _ => if target = documentId then some generation else none
    | _ => none

section
variable [DecidableEq Doc]

@[simp] theorem mem_startedGenerations {history : List (Event Doc Content)} :
    generation ∈ startedGenerations documentId history ↔
      ∃ content marked, .saveStarted documentId generation content marked ∈ history := by
  simp only [startedGenerations, List.mem_filterMap]
  constructor
  · rintro ⟨event, member, picked⟩
    cases event with
    | saveStarted target generation' content marked =>
      simp only [Option.ite_none_right_eq_some, Option.some.injEq] at picked
      obtain ⟨rfl, rfl⟩ := picked
      exact ⟨content, marked, member⟩
    | _ => cases picked
  · rintro ⟨content, marked, member⟩
    exact ⟨_, member, by simp⟩

theorem startedGenerations_snoc (documentId : Doc) (history : List (Event Doc Content)) (event : Event Doc Content) :
    startedGenerations documentId (history ++ [event]) =
      startedGenerations documentId history ++ startedGenerations documentId [event] := by
  simp [startedGenerations]

variable {after coordinator : Coordinator Doc Content}

theorem Coordinator.Section.backed
    (moved : Section coordinator documentId stage after (.stage next) event)
    (backed : stage.Backed history documentId)
    (tracked : ∀ {state}, coordinator.tracker.get documentId = some state →
      .changed documentId state.generation state.content ∈ history) :
    next.Backed (history ++ [event]) documentId := by
  cases moved with
  | read found dirty => exact List.mem_append_left _ (tracked found)
  | mark =>
    exact ⟨List.mem_append_left _ backed, _, List.mem_append_right _ (List.mem_singleton_self _)⟩
  | «return» =>
    exact ⟨_, List.mem_append_left _ backed.1, List.mem_append_right _ (List.mem_singleton_self _)⟩
  | _ => trivial

theorem Coordinator.Section.marking
    (moved : Section coordinator documentId stage after (.stage (.marking generation content)) event) :
    ∃ state, coordinator.tracker.get documentId = some state ∧ generation = state.generation ∧ event = .quiet := by
  cases moved with
  | read found dirty => exact ⟨_, found, rfl, rfl⟩

theorem Coordinator.Section.started
    (moved : Section coordinator documentId stage after progress (.saveStarted target generation content marked)) :
    target = documentId ∧ stage = .marking generation content := by
  cases moved with
  | mark => exact ⟨rfl, rfl⟩

theorem Coordinator.Section.saveReturned
    (moved : Section coordinator documentId stage after progress (.saveReturned target generation content)) :
    target = documentId ∧ stage = .saving generation content := by
  cases moved with
  | «return» => exact ⟨rfl, rfl⟩

/-- A flush that answers `true` answers it for a document that is clean. -/
theorem Coordinator.Section.clean_of_result
    (moved : Section coordinator documentId stage after (.result value) event) :
    after.tracker = coordinator.tracker ∧
      (value = true → coordinator.tracker.isDirty documentId = false) := by
  cases moved with
  | coalesce => exact ⟨cancelIdle_tracker .., by simp⟩
  | nothing free clean => exact ⟨cancelIdle_tracker .., fun _ => clean⟩
  | untracked missing => exact ⟨rfl, fun _ => by simp [DirtyStateTracker.isDirty, missing]⟩
  | answer => exact ⟨rfl, fun saved => by simpa using (Bool.and_eq_true_iff.mp saved).2⟩

namespace System

/-- The history accounts for everything the tracker and the running flushes hold. -/
structure Recorded (history : List (Event Doc Content)) (system : System Doc Content) : Prop where
  tracked : ∀ {documentId state}, system.coordinator.tracker.get documentId = some state →
    .changed documentId state.generation state.content ∈ history
  bounded : ∀ {documentId generation content}, .changed documentId generation content ∈ history →
    ∃ state, system.coordinator.tracker.get documentId = some state ∧ generation ≤ state.generation
  single : ∀ {documentId generation first second}, .changed documentId generation first ∈ history →
    .changed documentId generation second ∈ history → first = second
  backed : ∀ {call documentId reason stage caller},
    system.calls.get? call = some (.flushing documentId reason stage caller) → stage.Backed history documentId
  started : ∀ {documentId generation content marked},
    .saveStarted documentId generation content marked ∈ history → .changed documentId generation content ∈ history
  returned : ∀ {documentId generation content}, .saveReturned documentId generation content ∈ history →
    ∃ marked, .saveStarted documentId generation content marked ∈ history
  saved : ∀ {documentId state}, system.coordinator.tracker.get documentId = some state → state.status = .saved →
    .saveReturned documentId state.generation state.content ∈ history

theorem recorded_init : Recorded [] (init : System Doc Content) := by
  constructor <;> simp [init, Coordinator.init, DirtyStateTracker.get]

variable {next system : System Doc Content}

theorem Stepped.started
    (stepped : Stepped system (.saveStarted documentId generation content marked) next) :
    ∃ call reason caller,
      system.calls.get? call = some (.flushing documentId reason (.marking generation content) caller) ∧
      next.calls.get? call = some (.flushing documentId reason (.saving generation content) caller) := by
  cases stepped with
  | advance found moved =>
    obtain ⟨rfl, rfl⟩ := moved.started
    cases moved with
    | mark => exact ⟨_, _, _, found, Dict.get?_set_self ..⟩
  | conclude found moved => cases moved

theorem Stepped.saveReturned
    (stepped : Stepped system (.saveReturned documentId generation content) next) :
    ∃ call reason caller,
      system.calls.get? call = some (.flushing documentId reason (.saving generation content) caller) := by
  cases stepped with
  | advance found moved =>
    obtain ⟨rfl, rfl⟩ := moved.saveReturned
    exact ⟨_, _, _, found⟩
  | conclude found moved => cases moved

theorem Recorded.step (recorded : Recorded history system)
    (stepped : Stepped system event next) : Recorded (history ++ [event]) next where
  tracked := by
    intro documentId state found
    rcases stepped.tracker_cases with same | ⟨target, content, _, rfl, changed⟩ |
      ⟨_, target, _, _, _, generation, status, failure, _, _, _, moved, _⟩
    · exact List.mem_append_left _ (recorded.tracked (same ▸ found))
    · rw [changed, DirtyStateTracker.get_markDirty] at found
      by_cases same : documentId = target
      · rw [if_pos same] at found
        cases found
        exact List.mem_append_right _ (by rw [same]; exact List.mem_singleton_self _)
      · rw [if_neg same] at found
        exact List.mem_append_left _ (recorded.tracked found)
    · rw [moved] at found
      obtain ⟨before, tracked, sameGeneration, sameContent, _⟩ := DirtyStateTracker.transition_found found
      rw [sameGeneration, sameContent]
      exact List.mem_append_left _ (recorded.tracked tracked)
  bounded := by
    intro documentId generation content member
    rcases List.mem_append.mp member with old | new
    · obtain ⟨before, found, below⟩ := recorded.bounded old
      obtain ⟨after, kept, grown⟩ := stepped.tracker_grows found
      exact ⟨after, kept, below.trans grown⟩
    · cases List.mem_singleton.mp new
      obtain ⟨_, rfl, changed⟩ := stepped.changed
      rw [changed, DirtyStateTracker.get_markDirty, if_pos rfl]
      exact ⟨_, rfl, le_refl _⟩
  single := by
    -- A change takes a generation above every recorded one, so it repeats none of them.
    have above {documentId generation old content} (now : event = .changed documentId generation old)
        (before : .changed documentId generation content ∈ history) : False := by
      subst now
      obtain ⟨state, found, below⟩ := recorded.bounded before
      obtain ⟨_, same, _⟩ := stepped.changed
      rw [DirtyStateTracker.markDirty_generation _ found] at same
      omega
    intro documentId generation first second left right
    rcases List.mem_append.mp left with oldLeft | newLeft <;>
      rcases List.mem_append.mp right with oldRight | newRight
    · exact recorded.single oldLeft oldRight
    · exact (above (List.mem_singleton.mp newRight).symm oldLeft).elim
    · exact (above (List.mem_singleton.mp newLeft).symm oldRight).elim
    · cases (List.mem_singleton.mp newLeft).trans (List.mem_singleton.mp newRight).symm
      rfl
  backed := by
    intro call documentId reason stage caller found
    rcases stepped.flush_origin found with same | rfl | ⟨earlier, running, moved⟩
    · exact (recorded.backed same).snoc event
    · trivial
    · exact moved.backed (recorded.backed running) recorded.tracked
  started := by
    intro documentId generation content marked member
    rcases List.mem_append.mp member with old | new
    · exact List.mem_append_left _ (recorded.started old)
    · cases List.mem_singleton.mp new
      obtain ⟨_, _, _, running, _⟩ := stepped.started
      exact List.mem_append_left _ (recorded.backed running)
  returned := by
    intro documentId generation content member
    rcases List.mem_append.mp member with old | new
    · obtain ⟨marked, started⟩ := recorded.returned old
      exact ⟨marked, List.mem_append_left _ started⟩
    · cases List.mem_singleton.mp new
      obtain ⟨_, _, _, running⟩ := stepped.saveReturned
      obtain ⟨_, marked, started⟩ := recorded.backed running
      exact ⟨marked, List.mem_append_left _ started⟩
  saved := by
    intro documentId state found finished
    rcases stepped.tracker_cases with same | ⟨target, content, _, rfl, changed⟩ |
      ⟨_, target, _, _, _, generation, status, failure, _, running, _, moved, _, ended, _⟩
    · exact List.mem_append_left _ (recorded.saved (same ▸ found) finished)
    · rw [changed, DirtyStateTracker.get_markDirty] at found
      split at found
      · cases found
        cases finished
      · exact List.mem_append_left _ (recorded.saved found finished)
    · rw [moved] at found
      obtain ⟨before, tracked, sameGeneration, sameContent, rfl | ⟨rfl, atGeneration, nowStatus⟩⟩ :=
        DirtyStateTracker.transition_found found
      · exact List.mem_append_left _ (recorded.saved tracked finished)
      · obtain ⟨rfl, _⟩ := ended (nowStatus ▸ finished)
        obtain ⟨content, changed, returned⟩ := recorded.backed running
        have same := recorded.single changed (atGeneration ▸ recorded.tracked tracked)
        rw [sameGeneration, sameContent, atGeneration, ← same]
        exact List.mem_append_left _ returned

theorem recorded_of_run (run : Run Step init history system) :
    Recorded history system :=
  run.history recorded_init fun _ recorded step => recorded.step step.stepped

theorem carries_of_run (run : Run Step init history system) : Carries system := by
  have both : Exclusive system ∧ Carries system :=
    run.invariant (motive := fun system => Exclusive system ∧ Carries system)
      ⟨exclusive_init, by intro call documentId reason stage caller generation found; simp [init] at found⟩
      fun ⟨exclusive, carries⟩ step => ⟨exclusive.step step, carries.step exclusive step.stepped⟩
  intro call documentId reason stage caller generation found carried
  exact both.2 found carried

/-- The callback is handed generations in ascending order, and a flush about to
call it holds one that is not below any of them. -/
structure Ascending (history : List (Event Doc Content)) (system : System Doc Content) : Prop where
  ordered : ∀ documentId, (startedGenerations documentId history).Pairwise (· ≤ ·)
  last : ∀ {call documentId reason generation content caller},
    system.calls.get? call = some (.flushing documentId reason (.marking generation content) caller) →
    ∀ started ∈ startedGenerations documentId history, started ≤ generation

theorem Ascending.step (exclusive : Exclusive system)
    (recorded : Recorded history system) (ascending : Ascending history system)
    (stepped : Stepped system event next) : Ascending (history ++ [event]) next where
  ordered := by
    intro documentId
    rw [startedGenerations_snoc, List.pairwise_append]
    refine ⟨ascending.ordered documentId, ?_, ?_⟩
    · cases event with
      | saveStarted target => by_cases same : target = documentId <;> simp [startedGenerations, same]
      | _ => exact .nil
    · intro older before newer now
      obtain ⟨content, marked, member⟩ := mem_startedGenerations.mp now
      cases List.mem_singleton.mp member
      obtain ⟨_, _, _, running, _⟩ := stepped.started
      exact ascending.last running older before
  last := by
    intro call documentId reason generation content caller found started member
    rw [startedGenerations_snoc, List.mem_append] at member
    rcases stepped.flush_origin found with same | fresh | ⟨earlier, running, moved⟩
    · rcases member with before | now
      · exact ascending.last same started before
      · -- A save that starts now is started by the only flush that owns the mark.
        obtain ⟨startedContent, marked, single⟩ := mem_startedGenerations.mp now
        cases List.mem_singleton.mp single
        obtain ⟨other, _, _, running, landed⟩ := stepped.started
        have own := exclusive.alone ⟨_, _, _, same, rfl⟩ ⟨_, _, _, running, rfl⟩
        subst own
        cases landed.symm.trans found
    · cases fresh
    · obtain ⟨state, tracked, rfl, rfl⟩ := moved.marking
      rcases member with before | now
      · obtain ⟨startedContent, marked, old⟩ := mem_startedGenerations.mp before
        obtain ⟨held, found, below⟩ := recorded.bounded (recorded.started old)
        cases tracked.symm.trans found
        exact below
      · simp [startedGenerations] at now

theorem ascending_of_run (run : Run Step init history system) :
    Ascending history system := by
  refine run.history (by constructor <;> simp [startedGenerations]) fun reached ascending step => ?_
  exact ascending.step (exclusive_of_run reached) (recorded_of_run reached) step.stepped

/-- While a closing `flush_all` has seen no failure, every dirty document is still ahead of it. -/
structure Closing (system : System Doc Content) : Prop where
  listed : ∀ {call reason}, system.calls.get? call = some (.listing reason true) →
    system.coordinator.closed = true
  ahead : ∀ {call running allSaved rest}, system.calls.get? call = some running →
    running.remaining = some (true, allSaved, rest) →
    system.coordinator.closed = true ∧
      (allSaved = true → ∀ documentId, system.coordinator.tracker.isDirty documentId = true → documentId ∈ rest)

theorem Stepped.closed_kept (stepped : Stepped system event next)
    (closed : system.coordinator.closed = true) : next.coordinator.closed = true := by
  cases stepped with
  | close => rfl
  | schedule found =>
    simp only [Coordinator.scheduleIdle]
    split <;> simpa using closed
  | advance found moved => exact moved.closed_eq.trans closed
  | conclude found moved => exact moved.closed_eq.trans closed
  | _ => exact closed

theorem Stepped.dirty_before (carries : Carries system)
    (stepped : Stepped system event next) (closed : system.coordinator.closed = true)
    (dirty : next.coordinator.tracker.isDirty documentId = true) :
    system.coordinator.tracker.isDirty documentId = true := by
  rcases stepped.dirty_cases carries dirty with before | ⟨_, _, rfl⟩
  · exact before
  · rw [stepped.changed.1] at closed
    cases closed

/-- What a call that is ahead of some documents was before the step: itself, the
listing it came from, or the flush it has just answered. -/
theorem Stepped.remaining_cases (stepped : Stepped system event next)
    (found : next.calls.get? call = some running)
    (ahead : running.remaining = some (closing, allSaved, rest)) :
    (∃ before, system.calls.get? call = some before ∧ before.remaining = some (closing, allSaved, rest)) ∨
    (∃ reason, system.calls.get? call = some (.listing reason closing) ∧ allSaved = true ∧
      next.coordinator = system.coordinator ∧ rest = system.coordinator.tracker.dirtyDocuments) ∨
    ∃ before documentId value earlier, system.calls.get? call = some before ∧
      before.remaining = some (closing, earlier, documentId :: rest) ∧ allSaved = (earlier && value) ∧
      next.coordinator.tracker = system.coordinator.tracker ∧
      (value = true → system.coordinator.tracker.isDirty documentId = false) := by
  cases stepped with
  | schedule | loopEnd =>
    simp only [Dict.get?_erase] at found
    split at found
    · cases found
    · exact .inl ⟨running, found, ahead⟩
  | advance standing moved =>
    simp only [Dict.get?_set] at found
    split at found
    · rename_i same
      cases found
      exact .inl ⟨_, same ▸ standing, (Call.remaining_stage ..).trans ahead⟩
    · exact .inl ⟨running, found, ahead⟩
  | @conclude acting documentId reason stage caller value event coordinator standing moved =>
    cases caller with
    | none =>
      simp only [afterFlush, Dict.get?_erase] at found
      split at found
      · cases found
      · exact .inl ⟨running, found, ahead⟩
    | some loop =>
      simp only [afterFlush, Dict.get?_set] at found
      split at found
      · rename_i same
        cases found
        cases ahead
        exact .inr (.inr ⟨_, documentId, value, loop.allSaved, same ▸ standing, rfl, rfl,
          moved.clean_of_result⟩)
      · exact .inl ⟨running, found, ahead⟩
  | list standing =>
    simp only [Dict.get?_set] at found
    split at found
    · rename_i same
      cases found
      cases ahead
      exact .inr (.inl ⟨_, same ▸ standing, rfl, rfl, rfl⟩)
    · exact .inl ⟨running, found, ahead⟩
  | loopNext standing more =>
    simp only [Dict.get?_set] at found
    split at found
    · rename_i same
      cases found
      refine .inl ⟨_, same ▸ standing, ?_⟩
      simpa [Call.remaining, more] using ahead
    · exact .inl ⟨running, found, ahead⟩
  | _ =>
    simp only [Dict.get?_set] at found
    split at found
    · cases found
      cases ahead
    · exact .inl ⟨running, found, ahead⟩

/-- Only `on_application_close` lists documents for closing, and it closes first. -/
theorem Stepped.listing_cases (stepped : Stepped system event next)
    (found : next.calls.get? call = some (.listing reason true)) :
    system.calls.get? call = some (.listing reason true) ∨ next.coordinator.closed = true := by
  cases stepped with
  | close => exact .inr rfl
  | schedule | loopEnd =>
    simp only [Dict.get?_erase] at found
    split at found
    · cases found
    · exact .inl found
  | @conclude acting documentId reason stage caller value event coordinator standing moved =>
    cases caller <;> simp only [afterFlush, Dict.get?_erase, Dict.get?_set] at found <;> split at found
    all_goals first | cases found | exact .inl found
  | _ =>
    simp only [Dict.get?_set] at found
    split at found
    · cases found
    · exact .inl found

theorem Closing.step (carries : Carries system)
    (closing : Closing system) (stepped : Stepped system event next) : Closing next where
  listed := by
    intro call reason found
    rcases stepped.listing_cases found with same | closed
    · exact stepped.closed_kept (closing.listed same)
    · exact closed
  ahead := by
    intro call running allSaved rest found ahead
    rcases stepped.remaining_cases found ahead with ⟨before, standing, same⟩ |
      ⟨reason, standing, rfl, same, rfl⟩ | ⟨before, answered, value, earlier, standing, same, rfl, kept, clean⟩
    · obtain ⟨closed, dirtyAhead⟩ := closing.ahead standing same
      exact ⟨stepped.closed_kept closed, fun saved documentId dirty =>
        dirtyAhead saved documentId (stepped.dirty_before carries closed dirty)⟩
    · have closed := closing.listed standing
      refine ⟨stepped.closed_kept closed, fun _ documentId dirty => ?_⟩
      rw [same] at dirty
      exact (DirtyStateTracker.mem_dirtyDocuments ..).mpr dirty
    · obtain ⟨closed, dirtyAhead⟩ := closing.ahead standing same
      refine ⟨stepped.closed_kept closed, fun saved documentId dirty => ?_⟩
      rw [Bool.and_eq_true] at saved
      rw [kept] at dirty
      rcases List.mem_cons.mp (dirtyAhead saved.1 documentId dirty) with rfl | later
      · rw [clean saved.2] at dirty
        cases dirty
      · exact later

theorem closing_of_run (run : Run Step init history system) : Closing system := by
  refine run.history (motive := fun _ system => Closing system) (by constructor <;> simp [init]) ?_
  exact fun reached closing step => closing.step (carries_of_run reached) step.stepped

/-- `on_application_close` answers `true` only when nothing is dirty. -/
theorem clean_after_close (run : Run Step init history system)
    (step : Step system (.flushedAll true true) next) (documentId : Doc) :
    next.coordinator.tracker.isDirty documentId = false := by
  have closing := closing_of_run run
  cases same : next.coordinator.tracker.isDirty documentId with
  | false => rfl
  | true =>
    exfalso
    generalize answered : Event.flushedAll true true = event at step
    cases step.stepped with
    | @loopEnd call loop found finished =>
      cases loop with
      | mk reason isClosing rest allSaved =>
        cases answered
        have ahead := (closing.ahead found rfl).2 rfl documentId same
        rw [finished] at ahead
        cases ahead
    | advance found moved => cases moved <;> cases answered
    | conclude found moved => cases moved <;> cases answered
    | _ => cases answered

/-- Over every interleaving: a document is saved only at its latest generation, and
only after the callback returned for that generation's content; one save of a
document runs at a time, in ascending generations; a close that answers `true`
leaves no document dirty. -/
theorem saved_only_current_content {system : System Doc Content} (run : Run Step init history system) :
    (∀ documentId state, system.coordinator.tracker.get documentId = some state → state.status = .saved →
      .saveReturned documentId state.generation state.content ∈ history ∧
      .changed documentId state.generation state.content ∈ history ∧
      ∀ generation content, .changed documentId generation content ∈ history → generation ≤ state.generation) ∧
    (∀ documentId generation content marked, .saveStarted documentId generation content marked ∈ history →
      .changed documentId generation content ∈ history ∧
      ∀ other, .changed documentId generation other ∈ history → other = content) ∧
    (∀ first second documentId firstReason secondReason firstGeneration secondGeneration firstContent
        secondContent firstCaller secondCaller,
      system.calls.get? first =
        some (.flushing documentId firstReason (.saving firstGeneration firstContent) firstCaller) →
      system.calls.get? second =
        some (.flushing documentId secondReason (.saving secondGeneration secondContent) secondCaller) →
      first = second) ∧
    (∀ documentId, (startedGenerations documentId history).Pairwise (· ≤ ·)) ∧
    ∀ next, Step system (.flushedAll true true) next →
      ∀ documentId state, next.coordinator.tracker.get documentId = some state → state.dirty = false := by
  have recorded := recorded_of_run run
  refine ⟨fun documentId state found saved => ⟨recorded.saved found saved, recorded.tracked found, ?_⟩, ?_, ?_,
    (ascending_of_run run).ordered, ?_⟩
  · intro generation content changed
    obtain ⟨held, same, below⟩ := recorded.bounded changed
    cases found.symm.trans same
    exact below
  · intro documentId generation content marked started
    have changed := recorded.started started
    exact ⟨changed, fun other again => recorded.single again changed⟩
  · intro first second documentId _ _ _ _ _ _ _ _ left right
    exact (exclusive_of_run run).alone ⟨_, _, _, left, rfl⟩ ⟨_, _, _, right, rfl⟩
  · intro next step documentId state found
    have clean := clean_after_close run step documentId
    simpa [DirtyStateTracker.isDirty, found] using clean

theorem run_of_actions (actions : List (Action Doc Content))
    (executed : execute act init actions = some (history, system)) : Run Step init history system :=
  Run.of_execute (fun acted => ⟨_, acted⟩) actions executed

/-- A document changes twice; the idle save of the first content is overtaken by the second change. -/
def overtaken : List (Action Nat String) :=
  [.change 0 7 "first", .proceed 0 .returns, .expire 0 1, .proceed 1 .returns, .proceed 1 .returns,
    .proceed 1 .returns, .change 2 7 "second", .proceed 1 .returns, .proceed 1 .returns, .proceed 1 .returns,
    .proceed 1 .returns, .proceed 1 .returns, .proceed 1 .returns, .proceed 1 .returns, .proceed 1 .returns,
    .proceed 1 .returns, .proceed 1 .returns, .close 3, .proceed 3 .returns]

theorem overtaken_saves_second : ∃ history system next,
    execute act init overtaken = some (history, system) ∧ Step system (.flushedAll true true) next ∧
    .saveReturned 7 2 "second" ∈ history ∧ startedGenerations 7 history = [1, 2] ∧
    ∀ documentId state, next.coordinator.tracker.get documentId = some state → state.dirty = false := by
  refine ⟨_, _, _, rfl, ⟨.proceed 3 .returns, rfl⟩, ?_, rfl, ?_⟩
  · exact ((saved_only_current_content (run_of_actions overtaken rfl)).1 7 _ rfl rfl).1
  · exact (saved_only_current_content (run_of_actions overtaken rfl)).2.2.2.2 _
      ⟨.proceed 3 .returns, rfl⟩

end System
end
end NovelStudio.Autosave
