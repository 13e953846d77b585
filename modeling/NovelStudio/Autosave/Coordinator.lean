import Mathlib.Data.Finset.Basic
import NovelStudio.Library.Dict

/-! The tracker of the latest in-memory content of each document
(`autosave/contracts.py`, `autosave/dirty_state.py`). -/

namespace NovelStudio.Autosave

open Library

inductive SaveStatus where
  | saving | saved | unsaved | failed
  deriving DecidableEq

structure SaveFailure where
  message : String
  retryable : Bool
  deriving DecidableEq

/-- What a save callback can raise: the module's `SaveError`, or any other exception. -/
inductive SaveException where
  | saveError (message : String) (retryable : Bool)
  | other (message : String)
  deriving DecidableEq

/-- Only a `SaveError` can say that it is not retryable. -/
def SaveException.failure : SaveException → SaveFailure
  | .saveError message retryable => ⟨message, retryable⟩
  | .other message => ⟨message, true⟩

structure DocumentState (Doc Content : Type) where
  documentId : Doc
  content : Content
  generation : Nat
  status : SaveStatus
  failure : Option SaveFailure := none
  deriving DecidableEq

def DocumentState.dirty (state : DocumentState Doc Content) : Bool := state.status != .saved

/-- Each method runs under the tracker's own lock, so each is one atomic section. -/
structure DirtyStateTracker (Doc Content : Type) where
  states : Dict Doc (DocumentState Doc Content)

namespace DirtyStateTracker
variable {Doc Content : Type} [DecidableEq Doc]

def get (tracker : DirtyStateTracker Doc Content) (documentId : Doc) : Option (DocumentState Doc Content) :=
  tracker.states.get? documentId

def markDirty (tracker : DirtyStateTracker Doc Content) (documentId : Doc) (content : Content) :
    DirtyStateTracker Doc Content × DocumentState Doc Content :=
  let generation := match tracker.get documentId with
    | none => 1
    | some previous => previous.generation + 1
  let state := ⟨documentId, content, generation, .unsaved, none⟩
  (⟨tracker.states.set documentId state⟩, state)

/-- A completion of an older generation is refused and leaves the tracker as it was. -/
def transition (tracker : DirtyStateTracker Doc Content) (documentId : Doc) (generation : Nat)
    (status : SaveStatus) (failure : Option SaveFailure := none) :
    DirtyStateTracker Doc Content × Option (DocumentState Doc Content) :=
  match tracker.get documentId with
  | none => (tracker, none)
  | some current =>
    if current.generation ≠ generation then (tracker, none)
    else
      let state := ⟨documentId, current.content, generation, status, failure⟩
      (⟨tracker.states.set documentId state⟩, some state)

def markSaving (tracker : DirtyStateTracker Doc Content) (documentId : Doc) (generation : Nat) :=
  tracker.transition documentId generation .saving

def markSaved (tracker : DirtyStateTracker Doc Content) (documentId : Doc) (generation : Nat) :=
  tracker.transition documentId generation .saved

def markFailed (tracker : DirtyStateTracker Doc Content) (documentId : Doc) (generation : Nat)
    (failure : SaveFailure) :=
  tracker.transition documentId generation .failed (some failure)

def dirtyDocuments (tracker : DirtyStateTracker Doc Content) : List Doc :=
  (tracker.states.entries.filter fun entry => entry.2.dirty).map Prod.fst

/-- `tracker.get(d)` is present and dirty. -/
def isDirty (tracker : DirtyStateTracker Doc Content) (documentId : Doc) : Bool :=
  match tracker.get documentId with
  | none => false
  | some state => state.dirty

theorem mem_dirtyDocuments (tracker : DirtyStateTracker Doc Content) (documentId : Doc) :
    documentId ∈ tracker.dirtyDocuments ↔ tracker.isDirty documentId = true := by
  simp only [dirtyDocuments, isDirty, get, List.mem_map, List.mem_filter]
  constructor
  · rintro ⟨⟨key, state⟩, ⟨member, dirty⟩, rfl⟩
    simpa [Dict.get?_eq_some_iff.mpr member] using dirty
  · intro dirty
    cases found : tracker.states.get? documentId with
    | none => simp [found] at dirty
    | some state =>
      exact ⟨(documentId, state), ⟨Dict.get?_eq_some_iff.mp found, by simpa [found] using dirty⟩, rfl⟩

theorem isDirty_iff {tracker : DirtyStateTracker Doc Content} {documentId : Doc} :
    tracker.isDirty documentId = true ↔ ∃ state, tracker.get documentId = some state ∧ state.dirty = true := by
  unfold isDirty
  cases tracker.get documentId <;> simp

theorem get_markDirty (tracker : DirtyStateTracker Doc Content) (documentId : Doc) (content : Content) :
    (tracker.markDirty documentId content).1.get other =
      if other = documentId then some (tracker.markDirty documentId content).2 else tracker.get other := by
  simp [markDirty, get, Dict.get?_set]

theorem markDirty_generation {tracker : DirtyStateTracker Doc Content} (content : Content)
    (found : tracker.get documentId = some previous) :
    (tracker.markDirty documentId content).2.generation = previous.generation + 1 := by
  simp [markDirty, found]

/-- What a transition does: it changes one document, at its current generation,
and keeps that document's content. -/
theorem transition_cases (tracker : DirtyStateTracker Doc Content) (documentId : Doc) (generation : Nat)
    (status : SaveStatus) (failure : Option SaveFailure) :
    (tracker.transition documentId generation status failure = (tracker, none) ∧
      ∀ current, tracker.get documentId = some current → current.generation ≠ generation) ∨
    ∃ current, tracker.get documentId = some current ∧ current.generation = generation ∧
      (tracker.transition documentId generation status failure).2 =
        some ⟨documentId, current.content, generation, status, failure⟩ ∧
      ∀ other, (tracker.transition documentId generation status failure).1.get other =
        if other = documentId then some ⟨documentId, current.content, generation, status, failure⟩
        else tracker.get other := by
  unfold transition
  cases found : tracker.get documentId with
  | none => exact .inl ⟨rfl, by simp⟩
  | some current =>
    by_cases same : current.generation = generation
    · refine .inr ⟨current, rfl, same, by simp [same], fun other => ?_⟩
      simp [same, get, Dict.get?_set]
    · exact .inl ⟨by simp [same], by simpa using same⟩

end DirtyStateTracker
end NovelStudio.Autosave

/-! The save coordinator (`autosave/coordinator.py`). Every function here is the
code between two lock acquisitions of one call, together with the lock-free code
that follows it, so each is one atomic step of the calling thread. -/

namespace NovelStudio.Autosave

open Library

inductive FlushReason where
  | idle | periodic | focusLoss | documentSwitch | chapterSwitch | applicationClose | explicit
  deriving DecidableEq

/-- The timers that are scheduled and neither cancelled nor expired. -/
structure Scheduler (Doc : Type) where
  live : Dict Nat Doc
  issued : Nat

variable {Doc Content : Type} [DecidableEq Doc]

/-- `call_later` of the idle flush of a document; handles are issued in order. -/
def Scheduler.callLater (scheduler : Scheduler Doc) (documentId : Doc) : Scheduler Doc × Nat :=
  (⟨scheduler.live.set scheduler.issued documentId, scheduler.issued + 1⟩, scheduler.issued)

/-- Cancelling a handle that has already expired does nothing. -/
def Scheduler.cancel (scheduler : Scheduler Doc) (handle : Nat) : Scheduler Doc :=
  { scheduler with live := scheduler.live.erase handle }

structure Coordinator (Doc Content : Type) where
  tracker : DirtyStateTracker Doc Content
  idle : Dict Doc Nat
  saving : Finset Doc
  pending : Finset Doc
  closed : Bool
  scheduler : Scheduler Doc

/-- Where a `flush` call stands: which section it runs next. -/
inductive FlushStage (Content : Type) where
  /-- Before the first locked section. -/
  | entering
  /-- At the top of the loop, before `tracker.get`. -/
  | reading
  /-- Before `mark_saving`, holding what `tracker.get` returned. -/
  | marking (generation : Nat) (content : Content)
  /-- Inside the save callback, with no lock held. -/
  | saving (generation : Nat) (content : Content)
  /-- The callback returned; before `mark_saved`. -/
  | returned (generation : Nat)
  /-- The callback raised; before `mark_failed`. -/
  | raised (generation : Nat) (failure : SaveFailure)
  /-- Before the locked read of the pending mark. -/
  | checking
  /-- Before the `tracker.get` that decides whether to loop. -/
  | latest (pending : Bool)
  /-- Out of the loop, before the running mark is discarded. -/
  | leaving (allSaved : Bool)
  /-- Before the first `tracker.get` of the result. -/
  | answering (allSaved : Bool)
  /-- Before the second `tracker.get` of the result. -/
  | confirming (allSaved : Bool)
  deriving DecidableEq

/-- A flush call either has a further section to run or returns. -/
inductive Progress (Content : Type) where
  | stage (next : FlushStage Content)
  | result (value : Bool)
  deriving DecidableEq

/-- How the save callback ends, when it is the callback's turn. -/
inductive Outcome where
  | returns
  | raises (exception : SaveException)
  deriving DecidableEq

/-- What a step does that the outside can see. The observer is told of `changed`,
of `saveStarted` when marked, and of `savedMarked` and `failedMarked` when marked. -/
inductive Event (Doc Content : Type) where
  | changed (documentId : Doc) (generation : Nat) (content : Content)
  | saveStarted (documentId : Doc) (generation : Nat) (content : Content) (marked : Bool)
  | saveReturned (documentId : Doc) (generation : Nat) (content : Content)
  | saveRaised (documentId : Doc) (generation : Nat) (failure : SaveFailure)
  | savedMarked (documentId : Doc) (generation : Nat) (marked : Bool)
  | failedMarked (documentId : Doc) (generation : Nat) (marked : Bool)
  | coalesced (documentId : Doc)
  | flushed (documentId : Doc) (value : Bool)
  | flushedAll (closing : Bool) (value : Bool)
  | closed
  | quiet
  deriving DecidableEq

namespace Coordinator

def init : Coordinator Doc Content := ⟨⟨∅⟩, ∅, ∅, ∅, false, ⟨∅, 0⟩⟩

/-- `self._idle.pop(document_id, None)` and the cancel of what it returns. -/
def cancelIdle (coordinator : Coordinator Doc Content) (documentId : Doc) : Coordinator Doc Content :=
  match coordinator.idle.get? documentId with
  | none => coordinator
  | some handle => { coordinator with
      idle := coordinator.idle.erase documentId
      scheduler := coordinator.scheduler.cancel handle }

/-- First section of `content_changed`: refused once closed. -/
def contentChanged (coordinator : Coordinator Doc Content) (documentId : Doc) (content : Content) :
    Option (Coordinator Doc Content × Nat) :=
  if coordinator.closed then none
  else
    let (tracker, state) := coordinator.tracker.markDirty documentId content
    some ({ coordinator with tracker }, state.generation)

/-- Second section of `content_changed`: replace the idle timer. -/
def scheduleIdle (coordinator : Coordinator Doc Content) (documentId : Doc) : Coordinator Doc Content :=
  let coordinator := coordinator.cancelIdle documentId
  if coordinator.closed then coordinator
  else
    let (scheduler, handle) := coordinator.scheduler.callLater documentId
    { coordinator with idle := coordinator.idle.set documentId handle, scheduler }

/-- First section of `flush`. -/
def enterFlush (coordinator : Coordinator Doc Content) (documentId : Doc) :
    Coordinator Doc Content × Progress Content × Event Doc Content :=
  let coordinator := coordinator.cancelIdle documentId
  if documentId ∈ coordinator.saving then
    ({ coordinator with pending := insert documentId coordinator.pending }, .result false, .coalesced documentId)
  else if coordinator.tracker.isDirty documentId then
    ({ coordinator with saving := insert documentId coordinator.saving }, .stage .reading, .quiet)
  else (coordinator, .result true, .flushed documentId true)

/-- One section of a running `flush`, with the callback's outcome for the section
in which it ends. -/
def flushSection (coordinator : Coordinator Doc Content) (documentId : Doc) (outcome : Outcome) :
    FlushStage Content → Coordinator Doc Content × Progress Content × Event Doc Content
  | .entering => coordinator.enterFlush documentId
  | .reading =>
    match coordinator.tracker.get documentId with
    | some state =>
      if state.dirty then (coordinator, .stage (.marking state.generation state.content), .quiet)
      else (coordinator, .stage (.leaving true), .quiet)
    | none => (coordinator, .stage (.leaving true), .quiet)
  | .marking generation content =>
    let (tracker, marked) := coordinator.tracker.markSaving documentId generation
    ({ coordinator with tracker }, .stage (.saving generation content),
      .saveStarted documentId generation content marked.isSome)
  | .saving generation content =>
    match outcome with
    | .returns => (coordinator, .stage (.returned generation), .saveReturned documentId generation content)
    | .raises exception => (coordinator, .stage (.raised generation exception.failure),
        .saveRaised documentId generation exception.failure)
  | .returned generation =>
    let (tracker, saved) := coordinator.tracker.markSaved documentId generation
    ({ coordinator with tracker }, .stage .checking, .savedMarked documentId generation saved.isSome)
  | .raised generation failure =>
    -- The failure branch leaves the loop without looking at the pending mark.
    let (tracker, failed) := coordinator.tracker.markFailed documentId generation failure
    ({ coordinator with tracker }, .stage (.leaving false), .failedMarked documentId generation failed.isSome)
  | .checking =>
    ({ coordinator with pending := coordinator.pending.erase documentId },
      .stage (.latest (documentId ∈ coordinator.pending)), .quiet)
  | .latest pending =>
    if !pending && !coordinator.tracker.isDirty documentId then (coordinator, .stage (.leaving true), .quiet)
    else (coordinator, .stage .reading, .quiet)
  | .leaving allSaved =>
    ({ coordinator with saving := coordinator.saving.erase documentId }, .stage (.answering allSaved), .quiet)
  | .answering allSaved =>
    match coordinator.tracker.get documentId with
    | none => (coordinator, .result allSaved, .flushed documentId allSaved)
    | some _ => (coordinator, .stage (.confirming allSaved), .quiet)
  | .confirming allSaved =>
    let value := allSaved && !coordinator.tracker.isDirty documentId
    (coordinator, .result value, .flushed documentId value)

end Coordinator

/-- The loop of `flush_all`; `closing` says that `on_application_close` runs it. -/
structure FlushAll (Doc : Type) where
  reason : FlushReason
  closing : Bool
  rest : List Doc
  allSaved : Bool
  deriving DecidableEq

/-- A call in flight, between two of its sections. -/
inductive Call (Doc Content : Type) where
  /-- `content_changed` between its two locked sections. -/
  | changing (documentId : Doc) (generation : Nat)
  /-- `flush`, called directly or from `flush_all`. -/
  | flushing (documentId : Doc) (reason : FlushReason) (stage : FlushStage Content) (caller : Option (FlushAll Doc))
  /-- `flush_all` before `dirty_documents`. -/
  | listing (reason : FlushReason) (closing : Bool)
  /-- `flush_all` between two documents. -/
  | looping (loop : FlushAll Doc)
  deriving DecidableEq

/-- The coordinator and every call in flight, keyed by an arbitrary call number. -/
structure System (Doc Content : Type) where
  coordinator : Coordinator Doc Content
  calls : Dict Nat (Call Doc Content)

/-- What can happen next: a new call by any thread, the expiry of a timer, or one
more section of a call in flight. The periodic timer is a `requestAll`. -/
inductive Action (Doc Content : Type) where
  | change (call : Nat) (documentId : Doc) (content : Content)
  | request (call : Nat) (documentId : Doc) (reason : FlushReason)
  | requestAll (call : Nat) (reason : FlushReason)
  | close (call : Nat)
  | expire (handle : Nat) (call : Nat)
  | proceed (call : Nat) (outcome : Outcome)

namespace System

def init : System Doc Content := ⟨Coordinator.init, ∅⟩

/-- Where a flush that has returned leaves its call. -/
def afterFlush (system : System Doc Content) (call : Nat) (caller : Option (FlushAll Doc)) (value : Bool) :
    Dict Nat (Call Doc Content) :=
  match caller with
  | none => system.calls.erase call
  | some loop => system.calls.set call (.looping { loop with allSaved := loop.allSaved && value })

/-- The next section of a call in flight. -/
def proceed (system : System Doc Content) (call : Nat) (outcome : Outcome) :
    Call Doc Content → System Doc Content × Event Doc Content
  | .changing documentId _ =>
    ({ coordinator := system.coordinator.scheduleIdle documentId, calls := system.calls.erase call }, .quiet)
  | .flushing documentId reason stage caller =>
    let (coordinator, progress, event) := system.coordinator.flushSection documentId outcome stage
    match progress with
    | .stage next => ({ coordinator, calls := system.calls.set call (.flushing documentId reason next caller) }, event)
    | .result value => ({ coordinator, calls := system.afterFlush call caller value }, event)
  | .listing reason closing =>
    (⟨system.coordinator, system.calls.set call
      (.looping ⟨reason, closing, system.coordinator.tracker.dirtyDocuments, true⟩)⟩, .quiet)
  | .looping loop =>
    match loop.rest with
    | [] => ({ system with calls := system.calls.erase call }, .flushedAll loop.closing loop.allSaved)
    | documentId :: rest =>
      (⟨system.coordinator, system.calls.set call
        (.flushing documentId loop.reason .entering (some { loop with rest }))⟩, .quiet)

/-- One step of the system, refused when the action is not possible. -/
def act (system : System Doc Content) : Action Doc Content → Option (System Doc Content × Event Doc Content)
  | .change call documentId content =>
    if system.calls.contains call then none
    else (system.coordinator.contentChanged documentId content).map fun (coordinator, generation) =>
      ({ coordinator, calls := system.calls.set call (.changing documentId generation) },
        .changed documentId generation content)
  | .request call documentId reason =>
    if system.calls.contains call then none
    else some ({ system with calls := system.calls.set call (.flushing documentId reason .entering none) }, .quiet)
  | .requestAll call reason =>
    if system.calls.contains call then none
    else some ({ system with calls := system.calls.set call (.listing reason false) }, .quiet)
  | .close call =>
    if system.calls.contains call then none
    else some (⟨{ system.coordinator with closed := true },
      system.calls.set call (.listing .applicationClose true)⟩, .closed)
  | .expire handle call =>
    if system.calls.contains call then none
    else match system.coordinator.scheduler.live.get? handle with
      | none => none
      | some documentId =>
        some (⟨{ system.coordinator with scheduler := system.coordinator.scheduler.cancel handle },
          system.calls.set call (.flushing documentId .idle .entering none)⟩, .quiet)
  | .proceed call outcome => (system.calls.get? call).map (system.proceed call outcome)

/-- The step relation of the coordinator under every interleaving. -/
def Step (system : System Doc Content) (event : Event Doc Content) (next : System Doc Content) : Prop :=
  ∃ action, system.act action = some (next, event)

end System
end NovelStudio.Autosave
