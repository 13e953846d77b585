import NovelStudio.Sync.Channels

/-! The review of a received message: the merge of its snapshot into the chapter, the
conflicts that are left, and what forbids to apply it. -/

namespace NovelStudio.Sync

open Library Experimental Manuscript.BlockMerge
open NovelStudio.Manuscript hiding Failure

def nodesOf : (items : List Json) → Json.distinctItems items = true → List Node
  | [], _ => []
  | item :: rest, distinct =>
    have parts : item.distinct = true ∧ Json.distinctItems rest = true := by
      simpa only [Json.distinctItems, Bool.and_eq_true] using distinct
    ⟨item, parts.1⟩ :: nodesOf rest parts.2

theorem distinct_of_get? {node : Json} (distinct : node.distinct = true) (found : node.get? key = some value) :
    value.distinct = true := by
  cases node with
  | dict fields =>
    rw [Json.distinct, Bool.and_eq_true] at distinct
    exact Json.distinct_of_mem distinct.2 (mem_of_lookup found)
  | _ => cases found

/-- `document.get('content', [])`. -/
def content (document : Document) : Except Failure (List Node) :=
  match found : document.json.get? "content" with
  | none => pure []
  | some (.list items) => pure (nodesOf items (by simpa only [Json.distinct] using distinct_of_get? document.distinct found))
  | some _ => throw (.other "TypeError")

/-- `{'type': 'doc', 'content': nodes}`. -/
def docOf (nodes : List Node) : Document :=
  ⟨.dict [("type", .str "doc"), ("content", .list (nodes.map Node.json))], by
    simp [Json.distinct, Json.distinctFields, distinctItems_nodes]⟩

def Choice.side : Choice → Side
  | .own => .original
  | .incoming => .fork

/-- What a review has found so far. -/
structure Draft where
  segments : List ReviewSegment
  used : List String
  unresolved : Nat
  blocked : List String
  desired : Option Snapshot

/-- The loop over the segments of the merge: the segments, the merged blocks, the keys
of the conflicts, and how many have no choice. -/
def mergeReview (outside : Outside) (mid : String) (choices : Dict String Choice) (index : Nat) :
    List Segment → List ReviewSegment × List Node × List String × Nat
  | [] => ([], [], [], 0)
  | segment :: rest =>
    let (segments, nodes, used, unresolved) := mergeReview outside mid choices (index + 1) rest
    match segment with
    | .unchanged plain => (.unchanged plain :: segments, plain ++ nodes, used, unresolved)
    | .changed kind .. =>
      let key := outside.digest (.segment mid index segment)
      if kind = .conflict then
        let choice := choices.get? key
        (.merged key segment choice :: segments, segment.resolve (choice.map Choice.side) ++ nodes, key :: used,
          unresolved + if choice.isNone then 1 else 0)
      else (.merged key segment none :: segments, segment.resolve none ++ nodes, used, unresolved)

def draftOf (outside : Outside) (mid : String) (channel : Channel) (envelope : Envelope) (choices : Dict String Choice) :
    Option Chapter → Except Failure Draft
  | none =>
    return { segments := [.newChapter envelope.snapshot], used := [], unresolved := 0, desired := envelope.snapshot,
             blocked := if 20 ≤ channel.baseline.values.length then ["SYNC_SELECTION_LIMIT_NEW_CHANNEL_REQUIRED"] else [] }
  | some current =>
    if envelope.operation = .tombstone ∨ current.archived then
      let key := outside.digest (.archive mid current envelope.snapshot)
      let choice := choices.get? key
      let desired := if choice = some .incoming then envelope.snapshot else some current.snapshot
      return { segments := [.archive key envelope.base current.snapshot envelope.snapshot choice], used := [key],
               unresolved := if choice.isNone then 1 else 0, desired,
               blocked := if current.archived && desired.isSome then
                 ["SYNC_ARCHIVED_TARGET_RESTORE_IN_ORIGINAL_EDITOR_FIRST"] else [] }
    else do
      let incoming ← fetch envelope.snapshot (.other "TypeError")
      let raw := blockMerge outside.canonical (← content envelope.base.document) (← content current.document)
        (← content incoming.document)
      let (segments, nodes, used, unresolved) := mergeReview outside mid choices 0 raw
      return { segments, used, unresolved, blocked := [], desired := some ⟨incoming.title, docOf nodes⟩ }

/-- `assert_ai_locks` of what a message would make of a chapter. -/
def keepsLocks (outside : Outside) (current : Chapter) (desired : Option Snapshot) : Except Failure Unit :=
  let after := match desired with
    | some snapshot => snapshot.document
    | none => docOf []
  match assertAiLocks outside.locks current.document.json after.json with
  | .ok _ => pure ()
  | .error (.constraint _) => throw .revisionLocked
  | .error _ => throw (.other "document malformed")

def Plan.canApply (plan : Plan) : Bool := plan.unresolved = 0 && plan.blocked.isEmpty

def review (outside : Outside) (caller : Caller) (mid : String) (row : InboxRow) (choices : Dict String Choice)
    (view : View) : Except Failure Plan := do
  let channel ← activeChannel caller view.store row.channelId
  let envelope := row.envelope
  selectionGuard channel.data row.targetChapterId (some envelope.sourceChapterId)
  reject (row.status ≠ .pendingReview) (.value "SYNC_MESSAGE_NOT_PENDING_REVIEW")
  reject (envelope.operation ≠ .tombstone && envelope.sourceChapterId ∈ channel.data.tombstones)
    (.value "SYNC_REMOTE_CHAPTER_TOMBSTONED")
  let current ← row.targetChapterId.mapM (readChapter outside caller view.book)
  reject (row.targetChapterId.any (· ∉ channel.data.chapterIds)) (.value "SYNC_TARGET_NOT_SELECTED")
  reject (row.targetChapterId.isNone && !channel.data.allowNewChapters) (.value "SYNC_NEW_CHAPTER_NOT_APPROVED")
  let draft ← draftOf outside mid channel.data envelope choices current
  reject (choices.keys.any (· ∉ draft.used)) (.value "SYNC_UNKNOWN_OR_STALE_CONFLICT_CHOICE")
  let locked ← match current with
    | none => pure []
    | some current =>
      match keepsLocks outside current draft.desired with
      | .ok _ => pure []
      | .error .revisionLocked => pure ["SYNC_REVISION_LOCKED"]
      | .error failure => throw failure
  return { messageId := mid, current, base := envelope.base, incoming := envelope.snapshot, desired := draft.desired,
           segments := draft.segments, choices, unresolved := draft.unresolved, blocked := draft.blocked ++ locked,
           operation := envelope.operation }

end NovelStudio.Sync

/-! Receiving, applying and recovering messages. Applying takes two transactions: one
reserves the message, the other calls the original writer and records its result. -/

namespace NovelStudio.Sync

open Library Experimental
open NovelStudio.Manuscript hiding Failure

/-- `SUPERSEDED` for the pending messages of the same source. -/
def supersede (rid remoteId : String) (row : Row InboxRow) : Row InboxRow :=
  if row.data.channelId = rid ∧ row.data.envelope.sourceChapterId = remoteId ∧ row.data.status = .pendingReview then
    bump row fun row => { row with status := .superseded }
  else row

structure Received where
  row : Row InboxRow
  receipt : Receipt
  duplicate : Bool

def receivedOf (row : Row InboxRow) (duplicate : Bool) : Received :=
  ⟨row, receipt row.data.envelope row.data.envelopeDigest, duplicate⟩

/-- The target of a new message, and the binding it makes. -/
def chooseTarget (outside : Outside) (caller : Caller) (rid : String) (channel : Channel) (value : ReceiveIn)
    (envelope : Envelope) (store : Store) (book : Book) : Except Failure (Option String × Option Binding) := do
  let remoteId := envelope.sourceChapterId
  let baseDigest := outside.digest (.base envelope.base)
  match channel.bindings.get? remoteId with
  | some binding =>
    reject (value.createNew || value.targetChapterId.any (· ≠ binding.chapterId) || binding.baseDigest ≠ baseDigest)
      (.value "SYNC_EXISTING_BINDING_OR_BASE_CHANGED")
    selectionGuard channel (some binding.chapterId) (some remoteId)
    return (some binding.chapterId, none)
  | none =>
    if value.createNew then
      let reserved := (ofChannel store.inbox rid).countP (·.data.targetChapterId.isNone)
      reject (value.targetChapterId.isSome || !channel.allowNewChapters || envelope.operation = .tombstone ||
          20 ≤ channel.baseline.values.length + reserved)
        (.value "SYNC_NEW_CHAPTER_NOT_APPROVED")
      reject ((ofChannel store.inbox rid).any fun row => row.data.envelope.sourceChapterId = remoteId)
        (.value "SYNC_PENDING_NEW_CHAPTER_REVIEW_REQUIRED")
      return (none, none)
    else
      selectionGuard channel value.targetChapterId (some remoteId)
      let target ← fetch value.targetChapterId (.value "SYNC_TARGET_NOT_SELECTED")
      let base ← fetch (channel.baseline.get? target) (.other "KeyError")
      reject (!base.same envelope.base) (.value "SYNC_INITIAL_BASE_MISMATCH_USE_NEW_CHAPTER")
      discard <| readChapter outside caller book target
      reject (channel.bindings.values.any fun binding => binding.chapterId = target) (.value "SYNC_TARGET_ALREADY_BOUND")
      return (some target, some ⟨target, baseDigest⟩)

/-- The checks of an envelope before the transaction. -/
def checkEnvelope (outside : Outside) (channel : Channel) (envelope : Envelope) : Except Failure Envelope := do
  let base ← outside.safeSnapshot envelope.base
  let snapshot ← envelope.snapshot.mapM outside.safeSnapshot
  let envelope := { envelope with base, snapshot }
  reject (decide (envelope.operation = .tombstone) ≠ envelope.snapshot.isNone) (.value "SYNC_OPERATION_INVALID")
  reject (envelope.streamId ≠ channel.streamId || envelope.sourceEndpoint ≠ channel.peerId ||
      envelope.destinationEndpoint ≠ channel.endpointId) (.value "SYNC_ENVELOPE_WRONG_PEER_OR_STREAM")
  reject (MAX_BYTES < outside.envelopeSize envelope) (.value "SYNC_ENVELOPE_LIMIT")
  return envelope

def receive (outside : Outside) (caller : Caller) (rid : String) (value : ReceiveIn) (reauthorize : Reauthorize)
    (seen store : Store) (book : Book) : Except Failure (Store × Received) := do
  let channel ← activeChannel caller seen rid
  let envelope ← checkEnvelope outside channel.data value.envelope
  let remoteId := envelope.sourceChapterId
  let fingerprint := outside.digest (.envelope envelope)
  let request := outside.digest (.receiveRequest value.envelope value.targetChapterId value.createNew)
  reauthorize 0
  let channel ← stored store.channels rid
  selectionGuard channel.data none (some remoteId)
  match store.inbox.get? envelope.messageId with
  | some prior =>
    reject (prior.data.channelId ≠ rid || prior.data.envelopeDigest ≠ fingerprint ||
        prior.data.receiveRequestDigest ≠ request) (.value "SYNC_IDEMPOTENCY_KEY_REUSED")
    selectionGuard channel.data prior.data.targetChapterId (some remoteId)
    return (store, receivedOf prior true)
  | none =>
    checkVersion channel value.expectedVersion
    reject (envelope.sequence ≤ channel.data.receiveCursor) (.value "SYNC_OLD_OR_OUT_OF_ORDER_SEQUENCE")
    reject (remoteId ∈ channel.data.tombstones) (.value "SYNC_REMOTE_CHAPTER_TOMBSTONED")
    reject (MAX_MESSAGES ≤ (ofChannel store.inbox rid).length) (.value "SYNC_INBOX_LIMIT")
    reject ((ofChannel store.inbox rid).any fun row => row.data.envelope.sourceChapterId = remoteId &&
        (row.data.status = .claimed || row.data.status = .unknown))
      (.value "SYNC_PENDING_OUTCOME_RECONCILIATION_REQUIRED")
    let (target, binding) ← chooseTarget outside caller rid channel.data value envelope store book
    let row := newRow caller.actor
      { channelId := rid, envelope, envelopeDigest := fingerprint, receiveRequestDigest := request,
        targetChapterId := target, status := .pendingReview, checkpoint := none, intent := none, createdIds := [],
        journal := none, resultVersion := none, errorCode := none, selectionWithdrawn := false }
    let inbox := (store.inbox.mapValues fun _ => supersede rid remoteId).set envelope.messageId row
    let bindings := match binding with
      | some binding => channel.data.bindings.set remoteId binding
      | none => channel.data.bindings
    let tombstones := if envelope.operation = .tombstone then channel.data.tombstones ++ [remoteId]
      else channel.data.tombstones
    let channel ← advance channel value.expectedVersion fun channel =>
      { channel with bindings, tombstones, receiveCursor := envelope.sequence }
    let store := { store with channels := store.channels.set rid channel, inbox }
    bounded outside store rid
    reauthorize 1
    return (store, receivedOf row false)

def markUnknown (outside : Outside) (mid : String) (store : Store) : Except Failure Store := do
  let row ← stored store.inbox mid
  if row.data.status ≠ .claimed ∧ row.data.status ≠ .unknown then return store
  let row := bump row fun row =>
    { row with status := .unknown, errorCode := some "SYNC_WRITE_OUTCOME_UNKNOWN_NO_AUTOMATIC_RETRY" }
  let store := { store with inbox := store.inbox.set mid row }
  bounded outside store row.data.channelId
  return store

structure ApplyIn where
  expectedVersion : Nat
  choices : Dict String Choice
  previewDigest : String

/-- An `apply` between its two transactions. -/
structure Call where
  caller : Caller
  messageId : String
  expectedVersion : Nat
  channelId : String
  sourceChapterId : String
  targetChapterId : Option String
  old : Option Chapter
  desired : Option Snapshot
  kind : WriteKind

/-- The chapters there were before a new one is created. -/
def knownIds (plan : Plan) (book : Book) : Except Failure (List String) :=
  if plan.current.isNone then book.listing else pure []

/-- The part of `apply` up to the end of its first transaction; `writers` are the
original writers the caller gave. -/
def reserve (outside : Outside) (caller : Caller) (mid : String) (value : ApplyIn) (writers : WriteKind → Bool)
    (reauthorize : Reauthorize) (seen : View) (store : Store) (book : Book) : Except Failure (Store × Call) := do
  let row ← owned caller seen.store.inbox mid
  checkVersion row value.expectedVersion
  reject (row.data.status ≠ .pendingReview) (.value "SYNC_MESSAGE_ALREADY_CLAIMED_NO_AUTOMATIC_RETRY")
  let plan ← review outside caller mid row.data value.choices seen
  reject (outside.digest (.plan plan) ≠ value.previewDigest) (.stale "SYNC_REVIEW_CHANGED")
  reject (!plan.canApply) (.value "SYNC_UNRESOLVED_OR_BLOCKED")
  let kind := if plan.current.isNone then .create else if plan.desired.isNone then .archive else .save
  reject (!writers kind) (.value "SYNC_ORIGINAL_WRITER_REQUIRED")
  reauthorize 0
  let current ← stored store.inbox mid
  checkVersion current value.expectedVersion
  let again ← review outside caller mid current.data value.choices ⟨store, book⟩
  reject (outside.digest (.plan again) ≠ value.previewDigest) (.stale "SYNC_REVIEW_CHANGED")
  let createdIds ← knownIds plan book
  let claimed ← advance current value.expectedVersion fun row =>
    { row with status := .claimed, checkpoint := plan.current, intent := plan.desired, createdIds,
               journal := some (kind, .claimed) }
  let store := { store with inbox := store.inbox.set mid claimed }
  bounded outside store row.data.channelId
  reauthorize 1
  return (store, { caller, messageId := mid, expectedVersion := value.expectedVersion, channelId := row.data.channelId,
                   sourceChapterId := row.data.envelope.sourceChapterId, targetChapterId := row.data.targetChapterId,
                   old := plan.current, desired := plan.desired, kind })

/-- `_matches`. -/
def matchesIntent (current : Chapter) (desired : Option Snapshot) : Bool :=
  match desired with
  | none => current.archived
  | some snapshot => !current.archived && current.document.json.eq snapshot.document.json

/-- A chapter that was created joins the selection of its channel. -/
def selectCreated (outside : Outside) (channels : Dict String (Row Channel)) (channel : Row Channel) (row : InboxRow)
    (cid : String) : Except Failure (Dict String (Row Channel)) := do
  if row.targetChapterId.isSome then return channels
  reject (cid ∈ channel.data.baseline.keys || cid ∈ row.createdIds || 20 ≤ channel.data.baseline.values.length)
    (.value "SYNC_NEW_TARGET_ALREADY_SELECTED_OR_LIMIT_MANUAL_CLOSE_REQUIRED")
  let binding : Binding := ⟨cid, outside.digest (.base row.envelope.base)⟩
  return channels.set row.channelId (bump channel fun channel =>
    { channel with
      chapterIds := channel.chapterIds ++ [cid]
      baseline := channel.baseline.set cid row.envelope.base
      bindings := channel.bindings.set row.envelope.sourceChapterId binding })

/-- `_finish_row`; its calls of the guard are numbered from `first`. -/
def finishRow (outside : Outside) (caller : Caller) (store : Store) (mid cid : String) (row : Row InboxRow)
    (version : Nat) (confirmed : Bool) (expectedVersion : Nat) (reauthorize : Reauthorize) (first : Nat) (book : Book) :
    Except Failure (Store × Row InboxRow) := do
  let channel ← stored store.channels row.data.channelId
  checkVersion row expectedVersion
  reject (row.data.status ≠ .claimed && row.data.status ≠ .unknown) (.value "SYNC_RECOVERY_ALREADY_RESOLVED")
  selectionGuard channel.data row.data.targetChapterId (some row.data.envelope.sourceChapterId)
  let actual ← readChapter outside caller book cid
  reject (actual.version ≠ version || !matchesIntent actual row.data.intent) (.stale "SYNC_FINAL_RECEIPT_CHANGED")
  reauthorize first
  let channels ← selectCreated outside store.channels channel row.data cid
  let status := if confirmed then .applied else .reconciled
  let journal := row.data.journal.map fun entry =>
    (entry.1, if confirmed then .receiptConfirmed else .manuallyAdopted)
  let row := bump row fun row =>
    { row with status, targetChapterId := some cid, resultVersion := some version, journal }
  let store := { store with channels, inbox := store.inbox.set mid row }
  bounded outside store row.data.channelId
  reauthorize (first + 1)
  return (store, row)

/-- The checks of the second transaction of `apply` before it calls the writer. -/
def beforeWrite (outside : Outside) (call : Call) (reauthorize : Reauthorize) (store : Store) (book : Book) :
    Except Failure (Row InboxRow) := do
  let row ← stored store.inbox call.messageId
  let channel ← activeChannel call.caller store call.channelId
  selectionGuard channel.data call.targetChapterId (some call.sourceChapterId)
  checkVersion row (call.expectedVersion + 1)
  reject (row.data.status ≠ .claimed) (.value "SYNC_MESSAGE_ALREADY_RESOLVED_NO_REPLAY")
  reauthorize 2
  match call.old with
  | none => pure ()
  | some old =>
    let current ← readChapter outside call.caller book old.id
    reject (!current.same old) (.stale "SYNC_FINAL_SOURCE_CHANGED")
    keepsLocks outside old call.desired
  return row

/-- What the original writer is asked to do. -/
inductive WriteRequest where
  | create (title : String) (document : Document)
  | archive (cid : String) (version : Nat)
  | save (cid : String) (document : Document) (version : Nat)

def Call.request (call : Call) : Except Failure WriteRequest :=
  match call.kind, call.old, call.desired with
  | .create, _, some desired => pure (.create desired.title desired.document)
  | .archive, some old, _ => pure (.archive old.id old.version)
  | .save, some old, some desired => pure (.save old.id desired.document old.version)
  | _, _, _ => throw (.other "TypeError")

/-- The writer raises, or returns the id of a chapter and leaves the book as given. -/
inductive WriterOutcome where
  | raised (failure : Failure)
  | returned (cid : String) (book : Book)

/-- The second transaction after the writer has returned. -/
def afterWrite (outside : Outside) (call : Call) (reauthorize : Reauthorize) (store : Store) (row : Row InboxRow)
    (cid : String) (book : Book) : Except Failure (Store × Row InboxRow) := do
  discard <| activeChannel call.caller store call.channelId
  reauthorize 3
  let actual ← readChapter outside call.caller book cid
  reject (!matchesIntent actual call.desired) (.value "SYNC_WRITER_RECEIPT_MISMATCH")
  finishRow outside call.caller store call.messageId cid row actual.version true (call.expectedVersion + 1) reauthorize 4
    book

/-- How the second transaction of `apply` ends. -/
inductive Finished where
  /-- The writer was not called. -/
  | refused (failure : Failure)
  /-- The writer was called; the transaction is rolled back. -/
  | failed (request : WriteRequest) (failure : Failure)
  | committed (request : WriteRequest) (store : Store) (row : Row InboxRow)

/-- The second transaction of `apply`. -/
def finish (outside : Outside) (call : Call) (reauthorize : Reauthorize) (store : Store) (book : Book)
    (writer : WriteRequest → WriterOutcome) : Finished :=
  match beforeWrite outside call reauthorize store book with
  | .error failure => .refused failure
  | .ok row =>
    match call.request with
    | .error failure => .refused failure
    | .ok request =>
      match writer request with
      | .raised failure => .failed request failure
      | .returned cid book =>
        match afterWrite outside call reauthorize store row cid book with
        | .error failure => .failed request failure
        | .ok (store, row) => .committed request store row

structure RecoverIn where
  expectedVersion : Nat
  adoptMatchingResult : Bool
  closeWithoutReplay : Bool
  previewDigest : Option String

/-- The observations of `recover`; a chapter that is not there is passed over. -/
def observe (outside : Outside) (caller : Caller) (row : InboxRow) (book : Book) :
    List String → Except Failure (List Observation)
  | [] => pure []
  | key :: rest => do
    match readChapter outside caller book key with
    | .error (.notFound _) => observe outside caller row book rest
    | .error failure => throw failure
    | .ok current =>
      let state := if matchesIntent current row.intent then .matchesIntentUnconfirmed
        else if row.checkpoint.any current.same then .checkpointUnchanged else .divergedOrPartial
      return ⟨key, current.version, state, current.document⟩ :: (← observe outside caller row book rest)

def exactMatch (observations : List Observation) : Bool :=
  match observations with
  | [only] => only.state = .matchesIntentUnconfirmed
  | _ => false

/-- What `recover` reports of a claimed message, or of one whose outcome is unknown. -/
def recovery (outside : Outside) (caller : Caller) (mid : String) (expectedVersion : Nat) (seen : View) :
    Except Failure Recovery := do
  let row ← owned caller seen.store.inbox mid
  checkVersion row expectedVersion
  let channel ← activeChannel caller seen.store row.data.channelId
  reject (row.data.status ≠ .claimed && row.data.status ≠ .unknown) (.value "SYNC_RECOVERY_NOT_REQUIRED")
  let ids ← match row.data.targetChapterId with
    | some cid => pure [cid]
    | none => do
      let listed ← seen.book.listing
      pure (listed.filter (· ∉ row.data.createdIds))
  let observations ← observe outside caller row.data seen.book ids
  let withdrawn := match selectionGuard channel.data row.data.targetChapterId (some row.data.envelope.sourceChapterId) with
    | .ok _ => false
    | .error _ => true
  let selected := row.data.targetChapterId.isNone &&
    observations.any fun item => item.chapterId ∈ channel.data.baseline.keys
  return { id := mid, version := row.version, status := row.data.status, observations,
           canAdopt := exactMatch observations && !withdrawn && !selected, selectionWithdrawn := withdrawn,
           targetAlreadySelected := selected }

inductive Recovered where
  | report (recovery : Recovery)
  | closed (store : Store) (row : Row InboxRow)
  | adopted (store : Store) (row : Row InboxRow)

def recover (outside : Outside) (caller : Caller) (mid : String) (value : RecoverIn) (reauthorize : Reauthorize)
    (seen : View) (store : Store) (book : Book) : Except Failure Recovered := do
  let result ← recovery outside caller mid value.expectedVersion seen
  let digest := outside.digest (.recovery result)
  reauthorize 0
  reject (value.adoptMatchingResult && value.closeWithoutReplay) (.value "SYNC_ONE_RECOVERY_ACTION_REQUIRED")
  if value.closeWithoutReplay then
    reject (value.previewDigest ≠ some digest) (.stale "SYNC_RECOVERY_CHANGED")
    let row ← stored store.inbox mid
    checkVersion row value.expectedVersion
    discard <| activeChannel caller store row.data.channelId
    reauthorize 1
    let row ← advance row value.expectedVersion fun row => { row with status := .closedWithoutReplay }
    return .closed { store with inbox := store.inbox.set mid row } row
  else if value.adoptMatchingResult then
    reject (!result.canAdopt || value.previewDigest ≠ some digest) (.stale "SYNC_RECOVERY_CHANGED_OR_NOT_EXACT")
    match result.observations with
    | [] => throw (.other "IndexError")
    | item :: _ =>
      let row ← stored store.inbox mid
      let (store, row) ← finishRow outside caller store mid item.chapterId row item.version false value.expectedVersion
        reauthorize 1 book
      return .adopted store row
  else return .report result

end NovelStudio.Sync
