import NovelStudio.Realtime.Document

/-! The operations of `RealtimeCollaboration`. Each works on the store that its
transaction finds, and leaves it as it was when it fails. What is pushed to subscribers
is not modelled. -/

namespace NovelStudio.Realtime

open Library Experimental

def session (outside : Outside) (mode : Mode) (caller : Caller) : Except Failure String := do
  reject (mode ≠ .mainline && caller.token = "") (.denied 401 "REALTIME_TRUSTED_SESSION_REQUIRED")
  return outside.sha256 (caller.actor ++ "\x00" ++ if caller.token = "" then "local-author-session" else caller.token)

/-- `_row`. -/
def rowOf (rows : Dict String (Row α)) (rid : String) : Except Failure (Row α) := fetch (rows.get? rid) (.notFound rid)

/-- `_state`. -/
def stateOf (contact : Contact) (rid : String) (row : Row Participant) : ParticipantStatus :=
  if row.data.status ≠ .active then row.data.status
  else if row.data.serverEpoch ≠ contact.epoch then .disconnected
  else if row.data.leaseUntil ≤ contact.now then .expired
  else if contact.sessionEnded rid then .revoked
  else if !contact.mayRead row.createdBy then .revoked
  else .active

def participant (outside : Outside) (mode : Mode) (caller : Caller) (contact : Contact) (store : Store) (rid : String)
    (active : Bool) : Except Failure (Row Participant) := do
  let row ← rowOf store.participants rid
  let own ← session outside mode caller
  reject (row.createdBy ≠ caller.actor || row.data.sessionDigest ≠ own) (.notFound rid)
  reject (active && stateOf contact rid row ≠ .active) (.value "REALTIME_PARTICIPANT_NOT_ACTIVE")
  return row

def bounded (outside : Outside) (store : Store) : Except Failure Unit := do
  reject (MAX_PARTICIPANTS < store.participants.keys.length || MAX_OPERATIONS < store.operations.keys.length)
    (.value "REALTIME_JOURNAL_CAPACITY_REACHED")
  reject (MAX_SCOPE_BYTES < outside.rowsSize store.participants.values store.operations.values)
    (.value "REALTIME_SCOPE_BYTES_LIMIT")

structure JoinIn where
  deviceId : String
  chapterId : String
  documentVersion : Nat

/-- `join`; `seen` is the store that it reads before its transaction, `fresh` the new row's id. -/
def join (outside : Outside) (mode : Mode) (caller : Caller) (contact : Contact) (value : JoinIn) (fresh : String)
    (seen store : Store) : Except Failure (Store × Row Participant) := do
  contact.guard 0
  let chapter ← read outside mode caller contact 0 seen value.chapterId
  reject (chapter.version ≠ value.documentVersion) (.stale "REALTIME_DOCUMENT_CHANGED")
  contact.guard 1
  let own ← session outside mode caller
  match store.participants.entries.find? fun entry => entry.2.data.sessionDigest = own &&
      entry.2.data.deviceId = value.deviceId && entry.2.data.chapterId = value.chapterId with
  | some (rid, old) =>
    reject (stateOf contact rid old ≠ .active) (.value "REALTIME_RECONNECT_REQUIRED_OR_REVOKED")
    return (store, old)
  | none =>
    let current ← read outside mode caller contact 1 store value.chapterId
    reject (current.version ≠ value.documentVersion) (.stale "REALTIME_DOCUMENT_CHANGED")
    let row := newRow caller.actor
      { deviceId := value.deviceId, chapterId := value.chapterId, documentVersion := value.documentVersion,
        status := .active, sessionDigest := own, serverEpoch := contact.epoch,
        leaseUntil := contact.now + LEASE_SECONDS, cursor := none }
    let store := { store with participants := store.participants.set fresh row }
    bounded outside store
    contact.guard 2
    return (store, row)

inductive ParticipantAction where
  | heartbeat | disconnect | reconnect | leave | revoke
  deriving DecidableEq

def ParticipantAction.nextState : ParticipantAction → ParticipantStatus
  | .heartbeat | .reconnect => .active
  | .disconnect => .disconnected
  | .leave => .left
  | .revoke => .revoked

structure ParticipantActionIn where
  expectedVersion : Nat
  action : ParticipantAction
  documentVersion : Option Nat

/-- A participant is changed by its own session, or revoked by a reviewer. -/
def mayChange (outside : Outside) (mode : Mode) (caller : Caller) (contact : Contact) (rid : String)
    (action : ParticipantAction) (row : Row Participant) (store : Store) : Except Failure Unit :=
  if action ≠ .revoke then discard <| participant outside mode caller contact store rid false
  else if row.createdBy ≠ caller.actor then contact.guard 1
  else pure ()

def transition (outside : Outside) (mode : Mode) (caller : Caller) (contact : Contact) (rid : String)
    (value : ParticipantActionIn) (store : Store) : Except Failure (Store × Row Participant) := do
  contact.guard 0
  let row ← rowOf store.participants rid
  mayChange outside mode caller contact rid value.action row store
  checkVersion row value.expectedVersion
  let status := stateOf contact rid row
  reject (status = .left || status = .revoked) (.value "REALTIME_PARTICIPANT_TERMINAL")
  let nextState := value.action.nextState
  reject (value.action = .heartbeat && status ≠ .active) (.value "REALTIME_RECONNECT_REQUIRED")
  if nextState = .active then
    let current ← read outside mode caller contact 0 store row.data.chapterId
    reject (some current.version ≠ value.documentVersion) (.stale "REALTIME_RECONNECT_DOCUMENT_CHANGED")
  let row ← advance row value.expectedVersion fun row =>
    { row with status := nextState, serverEpoch := contact.epoch,
               leaseUntil := if nextState = .active then contact.now + LEASE_SECONDS else 0,
               documentVersion := if nextState = .active then value.documentVersion.getD row.documentVersion
                 else row.documentVersion,
               cursor := none }
  contact.guard 2
  let store := { store with participants := store.participants.set rid row }
  bounded outside store
  return (store, row)

structure CursorIn where
  expectedVersion : Nat
  documentVersion : Nat
  anchor : Position
  focus : Position

def cursor (outside : Outside) (mode : Mode) (caller : Caller) (contact : Contact) (rid : String) (value : CursorIn)
    (store : Store) : Except Failure (Store × Row Participant) := do
  contact.guard 0
  let row ← participant outside mode caller contact store rid true
  checkVersion row value.expectedVersion
  let current ← read outside mode caller contact 0 store row.data.chapterId
  reject (current.version ≠ value.documentVersion) (.stale "REALTIME_CURSOR_DOCUMENT_CHANGED")
  for position in [value.anchor, value.focus] do
    let text ← nodeText position.path current.document
    reject (text.length < position.offset) (.value "REALTIME_DOCUMENT_POSITION_INVALID")
  let row ← advance row value.expectedVersion fun row =>
    { row with documentVersion := value.documentVersion, cursor := some (value.anchor, value.focus),
               leaseUntil := contact.now + LEASE_SECONDS }
  contact.guard 1
  let store := { store with participants := store.participants.set rid row }
  bounded outside store
  return (store, row)

def MAX_DESIRED_BYTES : Nat := 512 * 1024

def desiredDocument (outside : Outside) (current : Json) (edits : List TextEdit) : Except Failure Json := do
  let desired ← applyEdits current edits
  keepsLocks outside current desired
  let text ← fetch (outside.canonical desired) (.other "ValueError")
  reject (MAX_DESIRED_BYTES < text.utf8ByteSize) (.value "REALTIME_DOCUMENT_SIZE_LIMIT")
  return desired

def preparedDocument (outside : Outside) (conflict : Bool) (current : Json) (edits : List TextEdit) : Except Failure Json :=
  if conflict then pure .null else desiredDocument outside current edits

def preparedRow (outside : Outside) (mode : Mode) (caller : Caller) (contact : Contact) (value : EditIn)
    (participant : Row Participant) (own : String) (store : Store) : Except Failure (Row Operation) := do
  checkVersion participant value.participantVersion
  let current ← read outside mode caller contact 0 store participant.data.chapterId
  let conflict := current.version ≠ value.documentVersion || outside.digest current.document ≠ value.documentDigest
  let desired ← preparedDocument outside conflict current.document value.edits
  return newRow caller.actor
    { request := value, requestDigest := outside.sha256 (outside.editText value), chapterId := participant.data.chapterId,
      sessionDigest := own, status := if conflict then .conflict else .prepared, baseDocument := current.document,
      baseVersion := current.version, desiredDocument := desired, currentDigest := outside.digest current.document,
      resultVersion := none }

/-- `prepare`; a request that was prepared before is not prepared again. -/
def prepare (outside : Outside) (mode : Mode) (caller : Caller) (contact : Contact) (value : EditIn) (fresh : String)
    (store : Store) : Except Failure (Store × Row Operation) := do
  contact.guard 0
  let participant ← participant outside mode caller contact store value.participantId true
  let own ← session outside mode caller
  match store.operations.values.find? fun row => row.data.sessionDigest = own && row.data.request.requestId = value.requestId with
  | some existing =>
    reject (existing.data.requestDigest ≠ outside.sha256 (outside.editText value))
      (.value "REALTIME_IDEMPOTENCY_CONTENT_CHANGED")
    return (store, existing)
  | none =>
    let row ← preparedRow outside mode caller contact value participant own store
    let store := { store with operations := store.operations.set fresh row }
    bounded outside store
    contact.guard 1
    return (store, row)

def ownedOperation (outside : Outside) (mode : Mode) (caller : Caller) (store : Store) (rid : String) (requireSession : Bool) :
    Except Failure (Row Operation) := do
  let row ← rowOf store.operations rid
  reject (row.createdBy ≠ caller.actor) (.notFound rid)
  if requireSession then
    let own ← session outside mode caller
    reject (row.data.sessionDigest ≠ own) (.notFound rid)
  return row

def applyGuard (outside : Outside) (mode : Mode) (caller : Caller) (contact : Contact) (row : Operation) (store : Store) :
    Except Failure Unit := do
  contact.guard 1
  discard <| participant outside mode caller contact store row.request.participantId true
  let current ← read outside mode caller contact 0 store row.chapterId
  reject (current.version ≠ row.baseVersion || outside.digest current.document ≠ row.currentDigest)
    (.stale "REALTIME_EDIT_BASE_CHANGED")
  keepsLocks outside current.document row.desiredDocument

/-- `act` with `cancel`. -/
def cancel (outside : Outside) (mode : Mode) (caller : Caller) (contact : Contact) (rid : String) (expectedVersion : Nat)
    (store : Store) : Except Failure (Store × Row Operation) := do
  contact.guard 0
  let row ← ownedOperation outside mode caller store rid false
  checkVersion row expectedVersion
  reject (row.data.status ≠ .prepared && row.data.status ≠ .conflict) (.value "REALTIME_CANCEL_UNAVAILABLE")
  let row := bump row fun row => { row with status := .cancelled }
  contact.guard 1
  return ({ store with operations := store.operations.set rid row }, row)

/-- The first checks of `act` with `apply`. -/
def startApply (outside : Outside) (mode : Mode) (caller : Caller) (contact : Contact) (rid : String) (expectedVersion : Nat)
    (store : Store) : Except Failure (Row Operation) := do
  contact.guard 0
  let row ← ownedOperation outside mode caller store rid true
  checkVersion row expectedVersion
  reject (row.data.status ≠ .prepared) (.value "REALTIME_OPERATION_NOT_PREPARED_NO_REPLAY")
  return row

/-- The first transaction of `apply` on the mainline. -/
def claim (outside : Outside) (caller : Caller) (contact : Contact) (rid : String) (expectedVersion : Nat) (store : Store) :
    Except Failure (Store × Row Operation) := do
  let row ← startApply outside .mainline caller contact rid expectedVersion store
  applyGuard outside .mainline caller contact row.data store
  let row := bump row fun row => { row with status := .claimed }
  contact.guard 2
  return ({ store with operations := store.operations.set rid row }, row)

def finish (outside : Outside) (mode : Mode) (caller : Caller) (contact : Contact) (rid : String) (row : Row Operation)
    (receipt : Receipt) (store : Store) : Except Failure (Row Operation) := do
  let actual ← read outside mode caller contact 3 store row.data.chapterId
  reject (receipt.operationId ≠ rid || receipt.beforeVersion ≠ row.data.baseVersion ||
      receipt.afterVersion ≠ row.data.baseVersion + 1 || actual.version ≠ receipt.afterVersion ||
      outside.digest actual.document ≠ outside.digest row.data.desiredDocument ||
      receipt.documentDigest ≠ outside.digest actual.document) (.value "REALTIME_RECEIPT_MISMATCH")
  contact.guard 4
  return bump row fun row => { row with status := .applied, resultVersion := some actual.version }

/-- What follows the call of the writer in its transaction. -/
def settle (outside : Outside) (mode : Mode) (caller : Caller) (contact : Contact) (rid : String) (row : Row Operation)
    (written : Committed) : Except Failure (Store × Row Operation) := do
  let row ← finish outside mode caller contact rid row written.receipt written.store
  let store := { written.store with operations := written.store.operations.set rid row }
  bounded outside store
  return (store, row)

/-- How a transaction ends that may call the writer. -/
inductive Performed where
  /-- The writer was not called. -/
  | refused (failure : Failure)
  /-- The writer was called; the transaction is rolled back. -/
  | failed (failure : Failure)
  | committed (saved : Option Saved) (store : Store) (row : Row Operation)

/-- The guard, the call of the writer and `_finish`. -/
def perform (outside : Outside) (mode : Mode) (caller : Caller) (contact : Contact) (rid : String) (row : Row Operation)
    (store : Store) : Performed :=
  match applyGuard outside mode caller contact row.data store with
  | .error failure => .refused failure
  | .ok _ =>
    match commit outside mode caller contact rid row.data store with
    | .error failure => .failed failure
    | .ok written =>
      match settle outside mode caller contact rid row written with
      | .error failure => .failed failure
      | .ok (store, row) => .committed written.saved store row

/-- `apply` on a branch, in one transaction. -/
def applyBranch (outside : Outside) (caller : Caller) (contact : Contact) (rid : String) (expectedVersion : Nat)
    (store : Store) : Performed :=
  match startApply outside .branch caller contact rid expectedVersion store with
  | .error failure => .refused failure
  | .ok row => perform outside .branch caller contact rid row store

/-- The row that the second transaction of `apply` works on. -/
def resume (outside : Outside) (caller : Caller) (rid : String) (store : Store) : Except Failure (Row Operation) := do
  let row ← ownedOperation outside .mainline caller store rid true
  reject (row.data.status ≠ .claimed) (.value "REALTIME_OPERATION_NO_REPLAY")
  return row

/-- The second transaction of `apply` on the mainline. -/
def applyMainline (outside : Outside) (caller : Caller) (contact : Contact) (rid : String) (store : Store) : Performed :=
  match resume outside caller rid store with
  | .error failure => .refused failure
  | .ok row => perform outside .mainline caller contact rid row store

/-- The transaction after a second one that failed. -/
def markUnknown (outside : Outside) (caller : Caller) (rid : String) (store : Store) : Except Failure Store := do
  let row ← ownedOperation outside .mainline caller store rid true
  return if row.data.status = .claimed then
      { store with operations := store.operations.set rid (bump row fun row => { row with status := .unknown }) }
    else store

inductive RecoveryAction where
  | inspect | adopt | closeWithoutReplay
  deriving DecidableEq

structure RecoverIn where
  expectedVersion : Nat
  action : RecoveryAction
  recoveryDigest : Option String

/-- What `recover` reports. -/
def observe (outside : Outside) (rid : String) (row : Row Operation) (actual : Chapter) : Recovery :=
  let match' := actual.version = row.data.baseVersion + 1 &&
    outside.digest actual.document = outside.digest row.data.desiredDocument
  let unchanged := actual.version = row.data.baseVersion && outside.digest actual.document = row.data.currentDigest
  { id := rid, version := row.version, status := row.data.status, currentVersion := actual.version,
    observation := if match' then .matchesIntentUnconfirmed else if unchanged then .baseUnchanged else .diverged,
    canAdopt := match' }

/-- `recover`: the report, and the store with the row if the operation is closed. -/
def recover (outside : Outside) (mode : Mode) (caller : Caller) (contact : Contact) (rid : String) (value : RecoverIn)
    (store : Store) : Except Failure (Recovery × Option (Store × Row Operation)) := do
  contact.guard 0
  let row ← ownedOperation outside mode caller store rid false
  checkVersion row value.expectedVersion
  reject (row.data.status ≠ .claimed && row.data.status ≠ .unknown) (.value "REALTIME_RECOVERY_NOT_REQUIRED")
  let actual ← read outside mode caller contact 0 store row.data.chapterId
  let result := observe outside rid row actual
  contact.guard 1
  if value.action = .inspect then return (result, none)
  reject (value.recoveryDigest ≠ some (outside.sha256 (outside.recoveryText result))) (.stale "REALTIME_RECOVERY_CHANGED")
  reject (value.action = .adopt && !result.canAdopt) (.value "REALTIME_RECOVERY_NOT_EXACT")
  let status := if value.action = .adopt then .adopted else .closedWithoutReplay
  let row := bump row fun row => { row with status, resultVersion := some actual.version }
  return (result, some ({ store with operations := store.operations.set rid row }, row))

end NovelStudio.Realtime
