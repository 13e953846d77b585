import NovelStudio.Experimental.Rows
import NovelStudio.Manuscript.BlockMerge
import NovelStudio.Manuscript.RevisionLock

/-! The records of the offline exchange in `offline_sync.py`: channels, the outbox and
the inbox, the store that holds them, and what the service reads outside of it. -/

namespace NovelStudio.Sync

open Library Experimental
open NovelStudio.Manuscript hiding Failure

abbrev Document := BlockMerge.Node

structure Snapshot where
  title : String
  document : Document

/-- `left == right`. -/
def Snapshot.same (left right : Snapshot) : Bool := left.title = right.title && left.document.json.eq right.document.json

structure Chapter where
  id : String
  version : Nat
  archived : Bool
  title : String
  document : Document

def Chapter.snapshot (chapter : Chapter) : Snapshot := ⟨chapter.title, chapter.document⟩

def Chapter.same (left right : Chapter) : Bool :=
  left.id = right.id && left.version = right.version && left.archived = right.archived &&
    left.snapshot.same right.snapshot

inductive Operation where
  | snapshot | tombstone
  deriving DecidableEq

structure Envelope where
  streamId : String
  sourceEndpoint : String
  destinationEndpoint : String
  messageId : String
  sequence : Nat
  sourceChapterId : String
  sourceVersion : Nat
  operation : Operation
  base : Snapshot
  snapshot : Option Snapshot

inductive ChannelStatus where
  | active | revoked
  deriving DecidableEq

structure Binding where
  chapterId : String
  baseDigest : String

structure Channel where
  streamId : String
  endpointId : String
  peerId : String
  chapterIds : List String
  allowNewChapters : Bool
  baseline : Dict String Snapshot
  status : ChannelStatus
  sendCursor : Nat
  receiveCursor : Nat
  bindings : Dict String Binding
  tombstones : List String
  sentTombstones : List String
  withdrawnChapterIds : List String
  withdrawnSourceIds : List String

inductive OutboxStatus where
  | pending | failed | unknown | acknowledged | selectionRevoked
  deriving DecidableEq

structure OutboxRow where
  channelId : String
  requestId : String
  requestDigest : String
  envelope : Envelope
  envelopeDigest : String
  chapterId : String
  status : OutboxStatus
  attempts : Nat
  selectionWithdrawn : Bool

inductive InboxStatus where
  | pendingReview | superseded | selectionRevoked | claimed | unknown | applied | reconciled | closedWithoutReplay
  deriving DecidableEq

/-- Which of the original chapter writers a message needs. -/
inductive WriteKind where
  | create | archive | save
  deriving DecidableEq

inductive JournalStatus where
  | claimed | receiptConfirmed | manuallyAdopted
  deriving DecidableEq

structure InboxRow where
  channelId : String
  envelope : Envelope
  envelopeDigest : String
  receiveRequestDigest : String
  targetChapterId : Option String
  status : InboxStatus
  checkpoint : Option Chapter
  intent : Option Snapshot
  createdIds : List String
  journal : Option (WriteKind × JournalStatus)
  resultVersion : Option Nat
  errorCode : Option String
  selectionWithdrawn : Bool

/-- The committed collections of one project. -/
structure Store where
  channels : Dict String (Row Channel)
  outbox : Dict String (Row OutboxRow)
  inbox : Dict String (Row InboxRow)

def Store.empty : Store := ⟨∅, ∅, ∅⟩

/-- The chapters as a caller may read them. -/
structure Book where
  chapter : String → Except Failure Chapter
  listing : Except Failure (List String)

inductive Choice where
  | own | incoming
  deriving DecidableEq

inductive ReviewSegment where
  | newChapter (incoming : Option Snapshot)
  | archive (key : String) (base own : Snapshot) (incoming : Option Snapshot) (choice : Option Choice)
  | unchanged (nodes : List BlockMerge.Node)
  | merged (key : String) (segment : BlockMerge.Segment) (choice : Option Choice)

structure ReceiveIn where
  expectedVersion : Nat
  envelope : Envelope
  targetChapterId : Option String
  createNew : Bool

structure QueueIn where
  expectedVersion : Nat
  chapterId : String
  requestId : String
  tombstone : Bool

structure SelectionIn where
  expectedVersion : Nat
  addChapterIds : List String
  withdrawChapterIds : List String

structure Plan where
  messageId : String
  current : Option Chapter
  base : Snapshot
  incoming : Option Snapshot
  desired : Option Snapshot
  segments : List ReviewSegment
  choices : Dict String Choice
  unresolved : Nat
  blocked : List String
  operation : Operation

inductive ObservedState where
  | matchesIntentUnconfirmed | checkpointUnchanged | divergedOrPartial
  deriving DecidableEq

structure Observation where
  chapterId : String
  version : Nat
  state : ObservedState
  document : Document

structure Recovery where
  id : String
  version : Nat
  status : InboxStatus
  observations : List Observation
  canAdopt : Bool
  selectionWithdrawn : Bool
  targetAlreadySelected : Bool

/-- What the service takes digests of. -/
inductive Material where
  | envelope (envelope : Envelope)
  | base (base : Snapshot)
  | queueRequest (chapterId requestId : String) (tombstone : Bool)
  | receiveRequest (envelope : Envelope) (targetChapterId : Option String) (createNew : Bool)
  | selection (channelId : String) (version : Nat) (additions : List Chapter) (withdrawn : List String)
  | archive (messageId : String) (current : Chapter) (incoming : Option Snapshot)
  | segment (messageId : String) (index : Nat) (segment : BlockMerge.Segment)
  | plan (plan : Plan)
  | recovery (recovery : Recovery)

/-- Functions of other modules: the digest, the check of a snapshot that is exchanged,
the rendering of a block, and the sizes of what is rendered. -/
structure Outside where
  digest : Material → String
  safeSnapshot : Snapshot → Except Failure Snapshot
  canonical : BlockMerge.Node → String
  envelopeSize : Envelope → Nat
  rowsSize : List (Row Channel) → List (Row OutboxRow) → List (Row InboxRow) → Nat
  locks : Digests

structure Caller where
  actor : String
  localScope : Bool

def MAX_BYTES : Nat := 512 * 1024
def MAX_CHANNEL_BYTES : Nat := 8 * 1024 * 1024
def MAX_MESSAGES : Nat := 100

end NovelStudio.Sync

/-! The operations of `OfflineSyncService` on channels and on the outbox. `seen` is what
an operation read before its transaction, `store` what the transaction finds;
`reauthorize k` is its `k`-th call of the caller's guard. An operation that fails
leaves the store as it was. -/

namespace NovelStudio.Sync

open Library Experimental
open NovelStudio.Manuscript hiding Failure

structure View where
  store : Store
  book : Book

abbrev Reauthorize := Nat → Except Failure Unit

def ownLocal (caller : Caller) : Except Failure Unit :=
  reject (!caller.localScope) (.value "SYNC_COLLABORATION_BRANCH_WRITER_UNAVAILABLE")

def owned (caller : Caller) (rows : Dict String (Row α)) (rid : String) : Except Failure (Row α) := do
  ownLocal caller
  let row ← fetch (rows.get? rid) (.notFound "sync record unavailable")
  reject (row.createdBy ≠ caller.actor) (.notFound "sync record unavailable")
  return row

/-- `_channel`. -/
def activeChannel (caller : Caller) (store : Store) (rid : String) : Except Failure (Row Channel) := do
  let row ← owned caller store.channels rid
  reject (row.data.status ≠ .active) (.value "SYNC_CHANNEL_REVOKED")
  return row

/-- `_chapter`: the authorized chapter, whose snapshot must be fit for exchange. -/
def readChapter (outside : Outside) (caller : Caller) (book : Book) (cid : String) : Except Failure Chapter := do
  ownLocal caller
  let row ← book.chapter cid
  let snapshot ← outside.safeSnapshot row.snapshot
  return { row with id := cid, title := snapshot.title, document := snapshot.document }

def ofChannel (rows : Dict String (Row InboxRow)) (channelId : String) : List (Row InboxRow) :=
  rows.values.filter fun row => row.data.channelId = channelId

def outboxOf (rows : Dict String (Row OutboxRow)) (channelId : String) : List (Row OutboxRow) :=
  rows.values.filter fun row => row.data.channelId = channelId

def bounded (outside : Outside) (store : Store) (channelId : String) : Except Failure Unit :=
  let channels := (store.channels.get? channelId).toList
  let outbox := outboxOf store.outbox channelId
  let inbox := ofChannel store.inbox channelId
  reject (2 * MAX_MESSAGES + 1 < channels.length + outbox.length + inbox.length ||
      MAX_CHANNEL_BYTES < outside.rowsSize channels outbox inbox)
    (.value "SYNC_CHANNEL_CAPACITY_REACHED_EXPORT_REVIEW_AND_START_NEW_CHANNEL")

def selectionGuard (channel : Channel) (cid remoteId : Option String) : Except Failure Unit := do
  reject (channel.status ≠ .active) (.value "SYNC_CHANNEL_REVOKED")
  reject (cid.any (· ∈ channel.withdrawnChapterIds) || remoteId.any (· ∈ channel.withdrawnSourceIds))
    (.value "SYNC_SELECTION_REVOKED_NEW_CHANNEL_REQUIRED")
  reject (cid.any (· ∉ channel.chapterIds)) (.value "SYNC_TARGET_NOT_SELECTED")

structure ChannelIn where
  streamId : String
  endpointId : String
  peerId : String
  chapterIds : List String
  allowNewChapters : Bool
  /-- `max_length=20`. -/
  bounded : chapterIds.length ≤ 20

/-- `open_channel`; `fresh` is the new row's id. -/
def openChannel (outside : Outside) (caller : Caller) (value : ChannelIn) (reauthorize : Reauthorize) (fresh : String)
    (book : Book) (store : Store) : Except Failure (Store × Row Channel) := do
  ownLocal caller
  reject (value.endpointId = value.peerId || !value.chapterIds.Nodup) (.value "SYNC_PAIR_OR_SELECTION_INVALID")
  reject (value.chapterIds.isEmpty && !value.allowNewChapters) (.value "SYNC_EXPLICIT_SCOPE_REQUIRED")
  let baseline ← value.chapterIds.foldlM (fun (baseline : Dict String Snapshot) cid => do
    let chapter ← readChapter outside caller book cid
    reject chapter.archived (.value "SYNC_ARCHIVED_SOURCE_UNAVAILABLE")
    return baseline.set cid chapter.snapshot) ∅
  reauthorize 0
  reject (20 ≤ store.channels.values.length) (.value "SYNC_CHANNEL_LIMIT")
  reject (store.channels.values.any fun row => row.createdBy = caller.actor && row.data.streamId = value.streamId)
    (.value "SYNC_STREAM_ALREADY_REGISTERED_USE_NEW_STREAM_AFTER_REVOCATION")
  let row := newRow caller.actor
    { streamId := value.streamId, endpointId := value.endpointId, peerId := value.peerId, chapterIds := value.chapterIds,
      allowNewChapters := value.allowNewChapters, baseline, status := .active, sendCursor := 0, receiveCursor := 0,
      bindings := ∅, tombstones := [], sentTombstones := [], withdrawnChapterIds := [], withdrawnSourceIds := [] }
  let store := { store with channels := store.channels.set fresh row }
  bounded outside store fresh
  reauthorize 1
  return (store, row)

def revoke (caller : Caller) (rid : String) (expectedVersion : Nat) (reauthorize : Reauthorize) (seen store : Store) :
    Except Failure (Store × Row Channel) := do
  discard <| activeChannel caller seen rid
  reauthorize 0
  let row ← stored store.channels rid
  let row ← advance row expectedVersion fun channel => { channel with status := .revoked }
  reauthorize 1
  return ({ store with channels := store.channels.set rid row }, row)

/-- `sorted(set(left) | set(right))`. -/
def sortedUnion (left right : List String) : List String := (left ++ right).dedup.mergeSort fun a b => a ≤ b

/-- `_selection_plan`: the chapters to add, and the digest of the plan. -/
def selectionPlan (outside : Outside) (caller : Caller) (rid : String) (channel : Row Channel) (value : SelectionIn)
    (view : View) : Except Failure (List Chapter × String) := do
  checkVersion channel value.expectedVersion
  let added := value.addChapterIds
  let withdrawn := value.withdrawChapterIds
  reject (added.isEmpty && withdrawn.isEmpty || !added.Nodup || !withdrawn.Nodup || added.any (· ∈ withdrawn))
    (.value "SYNC_SELECTION_CHANGE_INVALID")
  reject (withdrawn.any (· ∉ channel.data.chapterIds)) (.value "SYNC_CHAPTER_NOT_SELECTED")
  reject (added.any (· ∈ channel.data.withdrawnChapterIds)) (.value "SYNC_SELECTION_REVOKED_NEW_CHANNEL_REQUIRED")
  reject (added.any (· ∈ channel.data.baseline.keys)) (.value "SYNC_BASELINE_ALREADY_REGISTERED")
  let reserved := (ofChannel view.store.inbox rid).countP (·.data.targetChapterId.isNone)
  reject (20 < channel.data.baseline.values.length + reserved + added.length)
    (.value "SYNC_SELECTION_LIMIT_NEW_CHANNEL_REQUIRED")
  let chapters ← added.mapM (readChapter outside caller view.book)
  reject (chapters.any Chapter.archived) (.value "SYNC_ARCHIVED_SOURCE_UNAVAILABLE")
  return (chapters, outside.digest (.selection rid channel.version chapters withdrawn))

/-- `change` of `change_selection`. -/
def changeSelected (channel : Channel) (value : SelectionIn) (remoteIds : List String) (additions : List Chapter) :
    Channel :=
  { channel with
    chapterIds := channel.chapterIds.filter (· ∉ value.withdrawChapterIds) ++ value.addChapterIds
    withdrawnChapterIds := sortedUnion channel.withdrawnChapterIds value.withdrawChapterIds
    withdrawnSourceIds := sortedUnion channel.withdrawnSourceIds remoteIds
    baseline := additions.foldl (fun baseline chapter => baseline.set chapter.id chapter.snapshot) channel.baseline }

/-- `invalidate` of `change_selection`, on a row of each collection. -/
def OutboxRow.invalidate (row : OutboxRow) : OutboxRow :=
  { row with
    selectionWithdrawn := true
    status := if row.status = .pending ∨ row.status = .failed then .selectionRevoked else row.status }

def InboxRow.invalidate (row : InboxRow) : InboxRow :=
  { row with
    selectionWithdrawn := true
    status := if row.status = .pendingReview then .selectionRevoked else row.status }

def changeSelection (outside : Outside) (caller : Caller) (rid : String) (value : SelectionIn) (previewDigest : String)
    (reauthorize : Reauthorize) (seen store : Store) (book : Book) : Except Failure (Store × Row Channel) := do
  discard <| activeChannel caller seen rid
  reauthorize 0
  let channel ← stored store.channels rid
  selectionGuard channel.data none none
  let (additions, digest) ← selectionPlan outside caller rid channel value ⟨store, book⟩
  reject (digest ≠ previewDigest) (.stale "SYNC_SELECTION_REVIEW_CHANGED")
  let withdrawn := value.withdrawChapterIds
  let bound := (channel.data.bindings.entries.filter fun entry => entry.2.chapterId ∈ withdrawn).map Prod.fst
  let targeted := ((ofChannel store.inbox rid).filter fun row => row.data.targetChapterId.any (· ∈ withdrawn)).map
    (·.data.envelope.sourceChapterId)
  let channel ← advance channel value.expectedVersion fun channel =>
    changeSelected channel value (bound ++ targeted) additions
  let outbox := store.outbox.mapValues fun _ row =>
    if row.data.channelId = rid ∧ row.data.chapterId ∈ withdrawn then bump row OutboxRow.invalidate else row
  let inbox := store.inbox.mapValues fun _ row =>
    if row.data.channelId = rid ∧ row.data.targetChapterId.any (· ∈ withdrawn) = true then bump row InboxRow.invalidate
    else row
  let store : Store := ⟨store.channels.set rid channel, outbox, inbox⟩
  bounded outside store rid
  reauthorize 1
  return (store, channel)

/-- `queue`; `fresh` is the new message's id. -/
def queue (outside : Outside) (caller : Caller) (rid : String) (value : QueueIn) (reauthorize : Reauthorize)
    (fresh : String) (seen : View) (store : Store) (book : Book) : Except Failure (Store × Row OutboxRow) := do
  let channel ← activeChannel caller seen.store rid
  reject (value.chapterId ∉ channel.data.chapterIds) (.value "SYNC_CHAPTER_NOT_SELECTED")
  let current ← readChapter outside caller seen.book value.chapterId
  reject (current.archived ≠ value.tombstone) (.value "SYNC_TOMBSTONE_REQUIRES_CURRENT_ARCHIVE")
  let signature := outside.digest (.queueRequest value.chapterId value.requestId value.tombstone)
  reauthorize 0
  let channel ← stored store.channels rid
  selectionGuard channel.data (some value.chapterId) none
  match store.outbox.values.find? fun row => row.data.channelId = rid && row.data.requestId = value.requestId with
  | some prior =>
    reject (prior.data.requestDigest ≠ signature) (.value "SYNC_IDEMPOTENCY_KEY_REUSED")
    return (store, prior)
  | none =>
    checkVersion channel value.expectedVersion
    reject (value.chapterId ∈ channel.data.sentTombstones) (.value "SYNC_SOURCE_TOMBSTONED_NEW_CHANNEL_REQUIRED")
    reject (MAX_MESSAGES ≤ (outboxOf store.outbox rid).length) (.value "SYNC_OUTBOX_LIMIT")
    reject (channel.data.status ≠ .active) (.value "SYNC_CHANNEL_REVOKED")
    let again ← readChapter outside caller book value.chapterId
    reject (!again.same current) (.stale "SYNC_SOURCE_CHANGED")
    let base ← fetch (channel.data.baseline.get? value.chapterId) (.other "KeyError")
    let envelope : Envelope :=
      { streamId := channel.data.streamId, sourceEndpoint := channel.data.endpointId,
        destinationEndpoint := channel.data.peerId, messageId := fresh, sequence := channel.data.sendCursor + 1,
        sourceChapterId := value.chapterId, sourceVersion := current.version,
        operation := if value.tombstone then .tombstone else .snapshot, base,
        snapshot := if value.tombstone then none else some current.snapshot }
    let row := newRow caller.actor
      { channelId := rid, requestId := value.requestId, requestDigest := signature, envelope,
        envelopeDigest := outside.digest (.envelope envelope), chapterId := value.chapterId, status := .pending,
        attempts := 0, selectionWithdrawn := false }
    let channel ← advance channel value.expectedVersion fun channel => { channel with sendCursor := envelope.sequence }
    let sent := if value.tombstone then channel.data.sentTombstones ++ [value.chapterId] else channel.data.sentTombstones
    let channel := { channel with data := { channel.data with sentTombstones := sent } }
    let store := { store with channels := store.channels.set rid channel, outbox := store.outbox.set fresh row }
    bounded outside store rid
    reauthorize 1
    return (store, row)

def dispatchGuard (outside : Outside) (caller : Caller) (row : OutboxRow) (view : View) : Except Failure Unit := do
  let channel ← activeChannel caller view.store row.channelId
  selectionGuard channel.data (some row.chapterId) none
  let current ← readChapter outside caller view.book row.chapterId
  let tombstone := decide (row.envelope.operation = .tombstone)
  reject (!tombstone && row.chapterId ∈ channel.data.sentTombstones) (.value "SYNC_SOURCE_TOMBSTONED")
  reject (current.version ≠ row.envelope.sourceVersion || current.archived ≠ tombstone ||
      !current.archived && !(row.envelope.snapshot.any current.snapshot.same))
    (.stale "SYNC_QUEUED_SOURCE_CHANGED_REQUEUE_CURRENT_SAVED_VERSION")

/-- `export`. -/
def exportMessage (outside : Outside) (caller : Caller) (mid : String) (expectedVersion : Nat) (envelopeDigest : String)
    (reauthorize : Reauthorize) (seen : View) (store : Store) (book : Book) :
    Except Failure (Store × Row OutboxRow) := do
  let row ← owned caller seen.store.outbox mid
  reject (envelopeDigest ≠ row.data.envelopeDigest) (.stale "SYNC_ENVELOPE_CHANGED")
  dispatchGuard outside caller row.data seen
  reauthorize 0
  let row ← stored store.outbox mid
  checkVersion row expectedVersion
  reject (row.data.status = .acknowledged || 8 ≤ row.data.attempts) (.value "SYNC_RETRY_LIMIT_OR_ALREADY_ACKNOWLEDGED")
  dispatchGuard outside caller row.data ⟨store, book⟩
  reauthorize 1
  let row ← advance row expectedVersion fun row => { row with status := .unknown, attempts := row.attempts + 1 }
  return ({ store with outbox := store.outbox.set mid row }, row)

structure Receipt where
  messageId : String
  envelopeDigest : String
  streamId : String
  sourceEndpoint : String
  destinationEndpoint : String
  sequence : Nat
  deriving DecidableEq

def receipt (envelope : Envelope) (envelopeDigest : String) : Receipt :=
  ⟨envelope.messageId, envelopeDigest, envelope.streamId, envelope.sourceEndpoint, envelope.destinationEndpoint,
    envelope.sequence⟩

inductive DeliveryState where
  | failed | unknown | acknowledged
  deriving DecidableEq

def DeliveryState.status : DeliveryState → OutboxStatus
  | .failed => .failed
  | .unknown => .unknown
  | .acknowledged => .acknowledged

def delivery (caller : Caller) (mid : String) (expectedVersion : Nat) (state : DeliveryState) (given : Option Receipt)
    (reauthorize : Reauthorize) (seen store : Store) : Except Failure (Store × Row OutboxRow) := do
  let row ← owned caller seen.outbox mid
  discard <| activeChannel caller seen row.data.channelId
  reauthorize 0
  let row ← stored store.outbox mid
  reject (row.data.status = .acknowledged || row.data.attempts = 0) (.value "SYNC_DELIVERY_STATE_INVALID")
  reject (state = .acknowledged && given ≠ some (receipt row.data.envelope row.data.envelopeDigest))
    (.value "SYNC_RECEIPT_MISMATCH")
  let row ← advance row expectedVersion fun row => { row with status := state.status }
  reauthorize 1
  return ({ store with outbox := store.outbox.set mid row }, row)

end NovelStudio.Sync
