import NovelStudio.Experimental.Rows
import NovelStudio.Manuscript.RevisionLock

/-! The records of the writer room in `writer_room_realtime.py`: participants,
operations, the chapters they edit, and what the service meets outside of its store. -/

namespace NovelStudio.Realtime

open Library Experimental
open NovelStudio.Manuscript hiding Failure

def MAX_PARTICIPANTS : Nat := 100
def MAX_OPERATIONS : Nat := 200
def MAX_SCOPE_BYTES : Nat := 8 * 1024 * 1024
def LEASE_SECONDS : Int := 60

/-- Which chapters a scope edits: the project's own, or those of a collaboration branch. -/
inductive Mode where
  | mainline | branch
  deriving DecidableEq

/-- Who calls; an empty token or branch is one that is not given. -/
structure Caller where
  actor : String
  token : String
  branch : String

structure Position where
  path : List Nat
  offset : Nat

structure TextEdit where
  path : List Nat
  start : Nat
  stop : Nat
  text : String
  range : start ≤ stop

structure EditIn where
  participantId : String
  participantVersion : Nat
  requestId : String
  documentVersion : Nat
  documentDigest : String
  edits : List TextEdit

inductive ParticipantStatus where
  | active | disconnected | left | revoked | expired
  deriving DecidableEq

structure Participant where
  deviceId : String
  chapterId : String
  documentVersion : Nat
  status : ParticipantStatus
  sessionDigest : String
  serverEpoch : String
  leaseUntil : Int
  cursor : Option (Position × Position)

inductive OperationStatus where
  | prepared | conflict | cancelled | claimed | unknown | applied | adopted | closedWithoutReplay
  deriving DecidableEq

structure Operation where
  request : EditIn
  requestDigest : String
  chapterId : String
  sessionDigest : String
  status : OperationStatus
  baseDocument : Json
  baseVersion : Nat
  /-- Null for an edit that is in conflict. -/
  desiredDocument : Json
  currentDigest : String
  resultVersion : Option Nat

structure Chapter where
  id : String
  version : Nat
  document : Json
  archived : Bool
  deleted : Bool
  /-- Hidden, secret or private. -/
  concealed : Bool
  /-- How many checkpoints its history holds. -/
  history : Nat

/-- What a writer reports of a write. -/
structure Receipt where
  operationId : String
  beforeVersion : Nat
  afterVersion : Nat
  documentDigest : String

structure StoredReceipt extends Receipt where
  requestDigest : String

/-- The chapters of a branch and the receipts of its writes. -/
structure Manuscript where
  chapters : Dict String Chapter
  receipts : Dict String StoredReceipt

/-- The document of one scope; only a branch keeps its manuscript there. -/
structure Store where
  participants : Dict String (Row Participant)
  operations : Dict String (Row Operation)
  manuscript : Manuscript

def Store.empty : Store := ⟨∅, ∅, ⟨∅, ∅⟩⟩

inductive Observation where
  | matchesIntentUnconfirmed | baseUnchanged | diverged
  deriving DecidableEq

structure Recovery where
  id : String
  version : Nat
  status : OperationStatus
  currentVersion : Nat
  observation : Observation
  canAdopt : Bool

/-- What the branch repository takes the digest of, to recognize a repeated save. -/
structure SaveRequest where
  chapterId : String
  expectedVersion : Nat
  document : Json
  actor : String

structure Outside where
  /-- `json.dumps` with sorted keys. -/
  dumps : Json → String
  /-- The same, where it refuses numbers that are not finite. -/
  canonical : Json → Option String
  sha256 : String → String
  editText : EditIn → String
  recoveryText : Recovery → String
  saveText : SaveRequest → String
  rowsSize : List (Row Participant) → List (Row Operation) → Nat
  locks : Digests
  /-- `document_to_markdown`, which refuses what it can not render. -/
  toMarkdown : Json → Except Failure Unit
  /-- The document of the Markdown of a chapter. -/
  fromMarkdown : Chapter → Json
  /-- The checks of the branch repository on what it has stored. -/
  intact : Manuscript → Except Failure Unit
  /-- The limits on the size of a manuscript and of its records. -/
  fits : Manuscript → Bool

/-- `digest` of a document. -/
def Outside.digest (outside : Outside) (document : Json) : String := outside.sha256 (outside.dumps document)

/-- What the calls of one transaction meet: the caller's session and permission at each
check, the sources and the mainline chapters at each access, the process and the time. -/
structure Contact where
  guard : Nat → Except Failure Unit
  reads : Nat → Except Failure Unit
  books : Nat → Dict String Chapter
  epoch : String
  now : Int
  /-- Whether the guard that a participant left behind fails. -/
  sessionEnded : String → Bool
  mayRead : String → Bool

/-- The failures of the paragraph locks. -/
def ofLocks : Except Manuscript.Failure α → Except Failure α
  | .ok value => .ok value
  | .error (.constraint _) => .error .revisionLocked
  | .error _ => .error (.other "document malformed")

@[simp] theorem ofLocks_ok {checked : Except Manuscript.Failure α} : ofLocks checked = .ok value ↔ checked = .ok value := by
  cases checked with
  | ok found => simp [ofLocks]
  | error failure => cases failure <;> simp [ofLocks]

end NovelStudio.Realtime

/-! Edits of a rich document, and the chapters as the adapters read and save them. -/

namespace NovelStudio.Realtime

open Library Experimental
open NovelStudio.Manuscript hiding Failure

/-- The text of the text node that `_node` finds at a path. -/
def nodeText : List Nat → Json → Except Failure String
  | [], .dict fields =>
    match lookup "type" fields, lookup "text" fields with
    | some kind, some (.str text) =>
      if kind.eq (.str "text") then .ok text else .error (.value "REALTIME_TEXT_NODE_REQUIRED")
    | _, _ => .error (.value "REALTIME_TEXT_NODE_REQUIRED")
  | [], _ => .error (.other "AttributeError")
  | index :: path, .dict fields =>
    match lookup "content" fields with
    | some (.list items) =>
      match items[index]? with
      | some child => nodeText path child
      | none => .error (.value "REALTIME_DOCUMENT_POSITION_INVALID")
    | _ => .error (.value "REALTIME_DOCUMENT_POSITION_INVALID")
  | _ :: _, _ => .error (.value "REALTIME_DOCUMENT_POSITION_INVALID")

/-- `_node(document, path)['text'] = text`. -/
def setText (text : String) : List Nat → Json → Json
  | [], .dict fields => .dict (store "text" (.str text) fields)
  | index :: path, .dict fields =>
    match lookup "content" fields with
    | some (.list items) =>
      match items[index]? with
      | some child => .dict (store "content" (.list (items.set index (setText text path child))) fields)
      | none => .dict fields
    | _ => .dict fields
  | _, document => document

/-- `text[:start] + given + text[stop:]`. -/
def splice (text : String) (edit : TextEdit) : String :=
  String.ofList (text.toList.take edit.start ++ edit.text.toList ++ text.toList.drop edit.stop)

def applyEdit (document : Json) (edit : TextEdit) : Except Failure Json := do
  let text ← nodeText edit.path document
  reject (text.length < edit.stop) (.value "REALTIME_DOCUMENT_POSITION_INVALID")
  return setText (splice text edit) edit.path document

/-- The edits are applied one after the other. -/
def applyEdits (document : Json) (edits : List TextEdit) : Except Failure Json := edits.foldlM applyEdit document

/-- `MainlineDocumentAdapter.read`, the `k`-th access to the chapters. -/
def readMainline (caller : Caller) (contact : Contact) (k : Nat) (cid : String) : Except Failure Chapter := do
  reject (caller.branch ≠ "") (.value "REALTIME_BRANCH_AUTHORITY_NOT_CONFIGURED")
  contact.reads k
  let row ← fetch ((contact.books k).get? cid) (.notFound cid)
  reject (row.archived || row.concealed) (.notFound cid)
  return row

/-- `_chapter` of the branch repository. -/
def branchChapter (manuscript : Manuscript) (cid : String) : Except Failure Chapter := do
  let row ← fetch (manuscript.chapters.get? cid) (.notFound cid)
  reject (row.id ≠ cid || row.deleted) (.notFound cid)
  return row

/-- `BranchDocumentAdapter.read`. -/
def readBranch (outside : Outside) (contact : Contact) (k : Nat) (manuscript : Manuscript) (cid : String) :
    Except Failure Chapter := do
  contact.reads k
  outside.intact manuscript
  let row ← branchChapter manuscript cid
  reject (row.archived || row.concealed) (.notFound cid)
  return row

/-- `_adapter(ctx).read`. -/
def read (outside : Outside) (mode : Mode) (caller : Caller) (contact : Contact) (k : Nat) (store : Store) (cid : String) :
    Except Failure Chapter :=
  match mode with
  | .mainline => readMainline caller contact k cid
  | .branch => readBranch outside contact k store.manuscript cid

def keepsLocks (outside : Outside) (current desired : Json) : Except Failure Unit :=
  ofLocks (assertAiLocks outside.locks current desired)

/-- A chapter as a writer found it, and as it left it. -/
structure Saved where
  chapterId : String
  before : Chapter
  after : Chapter

def SOURCE : String := "REALTIME_REVIEWED_EDIT"

/-- `chapters.save` on the mainline. -/
def saveMainline (outside : Outside) (book : Dict String Chapter) (cid : String) (expected : Nat) (document : Json) :
    Except Failure Saved := do
  let current ← fetch (book.get? cid) (.notFound cid)
  let given := if document.truthy then document else outside.fromMarkdown current
  reject (expected ≠ current.version) .versionConflict
  let document ← ofLocks (preserveRevisionConstraints outside.locks current.document given SOURCE)
  outside.toMarkdown document
  return ⟨cid, current, { current with version := current.version + 1, document, history := current.history + 1 }⟩

def MAX_DOCUMENT_BYTES : Nat := 2000000
def MAX_HISTORY_PER_CHAPTER : Nat := 500
def MAX_OPERATION_RECEIPTS : Nat := 5000

def validatedDocument (outside : Outside) (document : Json) : Except Failure Unit := do
  reject (!(document.get? "type").any fun kind => kind.eq (.str "doc")) (.value "BRANCH_RICH_DOCUMENT_REQUIRED")
  let text ← fetch (outside.canonical document) (.other "ValueError")
  reject (MAX_DOCUMENT_BYTES < text.utf8ByteSize) (.value "BRANCH_DOCUMENT_LIMIT")
  outside.toMarkdown document

/-- What a writer hands back: its receipt, the store, and the chapter if it was saved now. -/
structure Committed where
  receipt : Receipt
  store : Store
  saved : Option Saved

/-- The new version of a branch chapter. -/
def updateBranch (outside : Outside) (manuscript : Manuscript) (cid operationId : String) (expected : Nat) (document : Json)
    (request : String) : Except Failure (StoredReceipt × Manuscript × Saved) := do
  let row ← branchChapter manuscript cid
  reject (expected < 1) (.value "BRANCH_EXPECTED_VERSION_REQUIRED")
  reject (row.version ≠ expected) .versionConflict
  reject row.archived (.value "BRANCH_CHAPTER_ARCHIVED")
  let prepared ← ofLocks (preserveRevisionConstraints outside.locks row.document document SOURCE)
  outside.toMarkdown prepared
  reject (MAX_HISTORY_PER_CHAPTER ≤ row.history) (.value "BRANCH_CAPACITY_HISTORY_REVIEW_REQUIRED")
  let text ← fetch (outside.canonical prepared) (.other "ValueError")
  let after := { row with version := row.version + 1, document := prepared, history := row.history + 1 }
  let receipt : StoredReceipt := ⟨⟨operationId, expected, after.version, outside.sha256 text⟩, request⟩
  return (receipt, ⟨manuscript.chapters.set cid after, manuscript.receipts.set operationId receipt⟩, ⟨cid, row, after⟩)

/-- A save under an operation id that has a receipt is not repeated. -/
def updateOnce (outside : Outside) (manuscript : Manuscript) (cid operationId : String) (expected : Nat) (document : Json)
    (request : String) : Except Failure (StoredReceipt × Manuscript × Option Saved) :=
  match manuscript.receipts.get? operationId with
  | some receipt => do
    reject (receipt.requestDigest ≠ request) (.value "BRANCH_OPERATION_REUSED")
    return (receipt, manuscript, none)
  | none => do
    let (receipt, manuscript, saved) ← updateBranch outside manuscript cid operationId expected document request
    return (receipt, manuscript, some saved)

/-- `BranchManuscriptRepository.save` inside the transaction of its caller. -/
def saveBranch (outside : Outside) (caller : Caller) (contact : Contact) (manuscript : Manuscript) (cid operationId : String)
    (expected : Nat) (document : Json) : Except Failure (StoredReceipt × Manuscript × Option Saved) := do
  validatedDocument outside document
  reject (operationId = "" || 200 < operationId.length) (.value "BRANCH_OPERATION_ID_INVALID")
  let request := outside.sha256 (outside.saveText ⟨cid, expected, document, caller.actor⟩)
  contact.guard 2
  outside.intact manuscript
  let (receipt, manuscript, saved) ← updateOnce outside manuscript cid operationId expected document request
  reject (!outside.fits manuscript || MAX_OPERATION_RECEIPTS < manuscript.receipts.keys.length)
    (.value "BRANCH_CAPACITY_REVIEW_REQUIRED")
  contact.guard 3
  return (receipt, manuscript, saved)

/-- `MainlineDocumentAdapter.commit`. -/
def commitMainline (outside : Outside) (caller : Caller) (contact : Contact) (rid : String) (row : Operation) (store : Store) :
    Except Failure Committed := do
  let old ← readMainline caller contact 1 row.chapterId
  reject (old.version ≠ row.baseVersion) (.stale "REALTIME_DOCUMENT_CHANGED")
  keepsLocks outside old.document row.desiredDocument
  contact.guard 2
  let saved ← saveMainline outside (contact.books 2) row.chapterId row.baseVersion row.desiredDocument
  contact.guard 3
  return ⟨⟨rid, row.baseVersion, saved.after.version, outside.digest saved.after.document⟩, store, some saved⟩

/-- `BranchDocumentAdapter.commit`. -/
def commitBranch (outside : Outside) (caller : Caller) (contact : Contact) (rid : String) (row : Operation) (store : Store) :
    Except Failure Committed := do
  let old ← readBranch outside contact 1 store.manuscript row.chapterId
  keepsLocks outside old.document row.desiredDocument
  contact.reads 2
  let (receipt, manuscript, saved) ← saveBranch outside caller contact store.manuscript row.chapterId rid row.baseVersion
    row.desiredDocument
  return ⟨receipt.toReceipt, { store with manuscript }, saved⟩

/-- `adapter.commit`. -/
def commit (outside : Outside) (mode : Mode) (caller : Caller) (contact : Contact) (rid : String) (row : Operation)
    (store : Store) : Except Failure Committed :=
  match mode with
  | .mainline => commitMainline outside caller contact rid row store
  | .branch => commitBranch outside caller contact rid row store

end NovelStudio.Realtime
