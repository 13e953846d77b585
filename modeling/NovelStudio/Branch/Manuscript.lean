import Mathlib.Data.List.Sort
import NovelStudio.Experimental.Rows

/-! The manuscript of a collaboration branch (`branch_manuscript.py`): its chapters with
their histories, the receipts of saves, and the calls that change it. -/

namespace NovelStudio.Branch

open Library Experimental

def OWNER : String := "BRANCH_MANUSCRIPT_V1"
def MAX_CHAPTER_IDENTITIES : Nat := 2000
def MAX_HISTORY_PER_CHAPTER : Nat := 500
def MAX_OPERATION_RECEIPTS : Nat := 5000
def MAX_AUDIT_ENTRIES : Nat := 20000
def MAX_MANUSCRIPT_BYTES : Nat := 64 * 1024 * 1024
def RECOVERY_RESERVE_BYTES : Nat := 4 * 1024 * 1024
def RECOVERY_HISTORY_RESERVE : Nat := 20

/-- A scope that `branch_scope` accepts. -/
structure BranchScope where
  novelId : String
  workspaceId : String
  storylineId : String
  branchId : String
  named : novelId ≠ "" ∧ workspaceId ≠ "" ∧ storylineId ≠ "" ∧ branchId ≠ ""
  deriving DecidableEq

def isHex (char : Char) : Bool := ('0' ≤ char && char ≤ '9') || ('a' ≤ char && char ≤ 'f')

/-- Groups of hexadecimal digits of the given lengths, with hyphens between. -/
def hexGroups : List Nat → List Char → Bool
  | [], text => text.isEmpty
  | [size], text => text.length = size && text.all isHex
  | size :: more, text =>
    (text.take size).length = size && (text.take size).all isHex &&
      match text.drop size with
      | '-' :: rest => hexGroups more rest
      | _ => false

/-- `str(UUID(token)) == token`. -/
def isUuid (token : List Char) : Bool := hexGroups [8, 4, 4, 4, 12] token

/-- `str(uuid4())`. -/
structure Uuid where
  text : String
  canonical : isUuid text.toList = true

def chapterId (novelId token : String) : String := novelId ++ ":~b" ++ token

def isBranchChapterId (novelId cid : String) : Bool :=
  novelId ≠ "" && (novelId ++ ":~b").toList.isPrefixOf cid.toList && isUuid (cid.toList.drop (novelId ++ ":~b").toList.length)

structure Checkpoint (δ : Type) where
  version : Nat
  document : δ
  title : String
  isArchived : Bool
  source : String
  operator : String
  scope : BranchScope

/-- A chapter as it is shown: without its history and the document it was forked from. -/
structure External (δ : Type) where
  id : String
  novelId : String
  scope : BranchScope
  branchId : String
  authority : String
  number : Nat
  sortOrder : Nat
  title : String
  version : Nat
  document : δ
  documentDigest : String
  content : String
  isArchived : Bool
  deleted : Bool
  createdBy : String
  updatedBy : String
  origin : Option String

structure Chapter (δ : Type) extends External δ where
  history : List (Checkpoint δ)
  baseDocument : Option δ

/-- What `save` returns for an operation id, at any time. -/
structure Receipt (δ : Type) where
  operationId : String
  chapterId : String
  beforeVersion : Int
  afterVersion : Nat
  documentDigest : String
  requestDigest : String
  chapter : External δ
  scope : BranchScope

structure Audit where
  action : String
  chapterId : String
  actorId : String
  version : Nat
  source : Option String
  operationId : Option String

structure Manuscript (δ : Type) where
  owner : String
  scope : BranchScope
  revision : Nat
  nextNumber : Nat
  chapters : Dict String (Chapter δ)
  receipts : Dict String (Receipt δ)
  audit : List Audit

/-- What a save asks for, as its request digest sees it. -/
structure Request (δ : Type) where
  chapterId : String
  expectedVersion : Int
  document : δ
  source : String
  actorId : String

/-- What the repository calls for documents (`document.py`, `revision_constraints.py`) and
for the JSON text of its manuscript. -/
structure Documents (δ : Type) where
  /-- `validated_document(document)`. -/
  validated : δ → Except Failure Unit
  /-- `document_to_markdown(document)`. -/
  toMarkdown : δ → Except Failure String
  /-- `markdown_to_document` of a title and a content. -/
  fromMarkdown : String → String → δ
  digest : δ → String
  requestDigest : Request δ → String
  /-- `preserve_revision_constraints(before, document, source)`. -/
  preserve : δ → δ → String → Except Failure δ
  /-- The text of the heading that the document starts with. -/
  heading : δ → Option String
  /-- `len(canonical(manuscript).encode())`. -/
  size : Manuscript δ → Nat

variable {δ : Type} (documents : Documents δ) (scope : BranchScope)

/-- A checkpoint that `_state` accepts under its chapter. -/
def checkpointValid (chapter : Chapter δ) (checkpoint : Checkpoint δ) : Bool :=
  checkpoint.scope = scope && 1 ≤ checkpoint.version && checkpoint.version < chapter.version

def identityValid (cid : String) (chapter : Chapter δ) : Bool :=
  chapter.id = cid && isBranchChapterId scope.novelId cid && chapter.scope = scope && chapter.novelId = scope.novelId &&
    chapter.branchId = scope.branchId && 1 ≤ chapter.version && 1 ≤ chapter.number && chapter.authority = OWNER

def historyValid (chapter : Chapter δ) : Bool :=
  chapter.history.all (checkpointValid scope chapter) && (chapter.history.map Checkpoint.version).Nodup

def numbers (manuscript : Manuscript δ) : List Nat := manuscript.chapters.values.map (·.number)

def emptyManuscript : Manuscript δ := ⟨OWNER, scope, 0, 1, ∅, ∅, []⟩

/-- `_state`: the stored manuscript, when nothing in it is corrupt. -/
def state (stored : Option (Manuscript δ)) : Except Failure (Manuscript δ) :=
  match stored with
  | none => return emptyManuscript scope
  | some row => do
    reject (row.owner ≠ OWNER || row.scope ≠ scope) (.value "BRANCH_MANUSCRIPT_OWNER_MISMATCH")
    reject (!(row.chapters.entries.all (fun entry => identityValid scope entry.1 entry.2) && (numbers row).Nodup))
      (.value "BRANCH_MANUSCRIPT_IDENTITY_CORRUPT")
    reject (!row.chapters.values.all (historyValid scope)) (.value "BRANCH_MANUSCRIPT_HISTORY_CORRUPT")
    reject ((numbers row).any (row.nextNumber ≤ ·) || row.nextNumber = 0) (.value "BRANCH_MANUSCRIPT_ALLOCATION_CORRUPT")
    reject (row.receipts.entries.any fun entry => entry.2.scope ≠ scope || entry.2.operationId ≠ entry.1)
      (.value "BRANCH_MANUSCRIPT_RECEIPT_CORRUPT")
    return row

def chapter (manuscript : Manuscript δ) (cid : String) : Except Failure (Chapter δ) := do
  let row ← fetch (manuscript.chapters.get? cid) (.notFound cid)
  reject (row.id ≠ cid || row.scope ≠ scope || row.novelId ≠ scope.novelId || row.branchId ≠ scope.branchId || row.deleted) (.notFound cid)
  return row

/-- `_cas`. -/
def compareVersion (row : Chapter δ) (expected : Int) : Except Failure Unit := do
  reject (expected < 1) (.value "BRANCH_EXPECTED_VERSION_REQUIRED")
  reject ((row.version : Int) ≠ expected) .versionConflict

/-- `_checkpoint`: the chapter with its present state in the history. -/
def checkpoint (row : Chapter δ) (actor source : String) : Except Failure (Chapter δ) := do
  let limit := MAX_HISTORY_PER_CHAPTER + if source ∈ ["RESTORE", "RESTORE_ARCHIVE"] then RECOVERY_HISTORY_RESERVE else 0
  reject (limit ≤ row.history.length) (.value "BRANCH_CAPACITY_HISTORY_REVIEW_REQUIRED")
  return { row with history := row.history ++ [⟨row.version, row.document, row.title, row.isArchived, source, actor, row.scope⟩] }

inductive Answer (δ : Type) where
  | chapter (row : External δ)
  | receipt (receipt : Receipt δ)
  | deleted (id : String) (version : Nat)
  | moved (revision : Nat) (order : List String)

/-- What may stop a call apart from its own checks: the caller's check before and after the
operation, and the commit of the transaction. -/
structure Checks where
  before : Except Failure Unit
  after : Except Failure Unit
  commit : Except Failure Unit

/-- The bytes that a write may leave behind. -/
def byteLimit (recovery : Bool) : Nat := if recovery then MAX_MANUSCRIPT_BYTES else MAX_MANUSCRIPT_BYTES - RECOVERY_RESERVE_BYTES

/-- `_write`: the manuscript is put only after the last check. -/
def write (checks : Checks) (recovery : Bool) (stored : Option (Manuscript δ))
    (operation : Manuscript δ → Except Failure (Manuscript δ × Answer δ)) : Except Failure (Option (Manuscript δ) × Answer δ) := do
  checks.before
  let manuscript ← state scope stored
  let (manuscript, result) ← operation manuscript
  reject (documents.size manuscript > byteLimit recovery || manuscript.receipts.entries.length > MAX_OPERATION_RECEIPTS ||
    manuscript.audit.length > MAX_AUDIT_ENTRIES) (.value "BRANCH_CAPACITY_REVIEW_REQUIRED")
  checks.after
  return (some manuscript, result)

structure Payload (δ : Type) where
  title : String
  document : Option δ
  content : String

/-- The chapter that a branch chapter was forked from. -/
structure Origin (δ : Type) where
  summary : String
  document : δ

def nextOrder (manuscript : Manuscript δ) : Nat := (manuscript.chapters.values.map fun row => row.sortOrder).foldl max 0 + 1

def baseDocument : Option (Origin δ) → Except Failure (Option δ)
  | none => return none
  | some origin => do
    documents.validated origin.document
    return some origin.document

/-- The operation of `create`. -/
def add (title : String) (document : δ) (actor : String) (token : Uuid) (origin : Option (Origin δ)) (manuscript : Manuscript δ) :
    Except Failure (Manuscript δ × Answer δ) := do
  reject (MAX_CHAPTER_IDENTITIES ≤ manuscript.chapters.entries.length) (.value "BRANCH_CHAPTER_LIMIT")
  let cid := chapterId scope.novelId token.text
  reject (manuscript.chapters.contains cid) (.value "BRANCH_IDENTITY_COLLISION")
  let content ← documents.toMarkdown document
  let base ← baseDocument documents origin
  let row : Chapter δ :=
    { id := cid, novelId := scope.novelId, scope := scope, branchId := scope.branchId, authority := OWNER,
      number := manuscript.nextNumber, sortOrder := nextOrder manuscript, title := title, version := 1, document := document,
      documentDigest := documents.digest document, content := content, isArchived := false, deleted := false,
      createdBy := actor, updatedBy := actor, origin := origin.map Origin.summary, history := [], baseDocument := base }
  let audit : Audit := ⟨"CHAPTER_CREATED", cid, actor, 1, none, none⟩
  let changed := { manuscript with
    nextNumber := manuscript.nextNumber + 1, chapters := manuscript.chapters.set cid row, revision := manuscript.revision + 1,
    audit := manuscript.audit ++ [audit] }
  return (changed, .chapter row.toExternal)

def create (nid : String) (payload : Payload δ) (actor : String) (token : Uuid) (origin : Option (Origin δ)) (checks : Checks)
    (stored : Option (Manuscript δ)) : Except Failure (Option (Manuscript δ) × Answer δ) := do
  reject (nid ≠ scope.novelId) (.notFound nid)
  reject (payload.title = "" || payload.title.length > 300) (.value "BRANCH_TITLE_INVALID")
  let document := payload.document.getD (documents.fromMarkdown payload.title payload.content)
  documents.validated document
  write documents scope checks false stored (add documents scope payload.title document actor token origin)

/-- The receipt that a save leaves under its operation id. -/
def receiptOf (request : Request δ) (row : Chapter δ) (operationId : String) : Receipt δ :=
  ⟨operationId, request.chapterId, request.expectedVersion, row.version, row.documentDigest, documents.requestDigest request,
    row.toExternal, scope⟩

/-- The chapter with the document of a save, at its next version. -/
def saved (request : Request δ) (row : Chapter δ) : Except Failure (Chapter δ) := do
  compareVersion row request.expectedVersion
  reject row.isArchived (.value "BRANCH_CHAPTER_ARCHIVED")
  let prepared ← documents.preserve row.document request.document request.source
  let content ← documents.toMarkdown prepared
  let row ← checkpoint row request.actorId request.source
  return { row with
    document := prepared, content := content, documentDigest := documents.digest prepared,
    title := (documents.heading prepared).getD row.title, version := row.version + 1, updatedBy := request.actorId }

/-- The operation of `save` where no receipt answers it. -/
def saveNew (request : Request δ) (operationId : Option String) (manuscript : Manuscript δ) :
    Except Failure (Manuscript δ × Answer δ) := do
  let row ← chapter scope manuscript request.chapterId
  let row ← saved documents request row
  let audit : Audit := ⟨"CHAPTER_SAVED", request.chapterId, request.actorId, row.version, some request.source, operationId⟩
  let manuscript := { manuscript with
    chapters := manuscript.chapters.set request.chapterId row, revision := manuscript.revision + 1, audit := manuscript.audit ++ [audit] }
  match operationId with
  | none => return (manuscript, .chapter row.toExternal)
  | some operationId =>
    let receipt := receiptOf documents scope request row operationId
    return ({ manuscript with receipts := manuscript.receipts.set operationId receipt }, .receipt receipt)

/-- The operation of `save`. -/
def update (request : Request δ) (operationId : Option String) (manuscript : Manuscript δ) :
    Except Failure (Manuscript δ × Answer δ) :=
  match operationId.bind manuscript.receipts.get? with
  | some receipt => do
    reject (receipt.requestDigest ≠ documents.requestDigest request) (.value "BRANCH_OPERATION_REUSED")
    return (manuscript, .receipt receipt)
  | none => saveNew documents scope request operationId manuscript

def save (request : Request δ) (operationId : Option String) (checks : Checks) (stored : Option (Manuscript δ)) :
    Except Failure (Option (Manuscript δ) × Answer δ) := do
  documents.validated request.document
  reject (operationId.any fun operation => operation = "" || operation.length > 200) (.value "BRANCH_OPERATION_ID_INVALID")
  write documents scope checks (request.source = "RESTORE") stored (update documents scope request operationId)

/-- A snapshot of the history is saved again, in the same transaction. -/
def restore (cid : String) (version : Nat) (expectedVersion : Int) (actor : String) (checks : Checks) (stored : Option (Manuscript δ)) :
    Except Failure (Option (Manuscript δ) × Answer δ) := do
  let manuscript ← state scope stored
  let row ← chapter scope manuscript cid
  let snapshot ← fetch (row.history.find? (·.version = version)) (.notFound (toString version))
  save documents scope ⟨cid, expectedVersion, snapshot.document, "RESTORE", actor⟩ none checks stored

/-- The operation of `set_archived`. -/
def archive (cid : String) (archived : Bool) (expectedVersion : Int) (actor : String) (manuscript : Manuscript δ) :
    Except Failure (Manuscript δ × Answer δ) := do
  let row ← chapter scope manuscript cid
  compareVersion row expectedVersion
  if row.isArchived = archived then return (manuscript, .chapter row.toExternal)
  else do
    let kept ← checkpoint row actor (if archived then "ARCHIVE" else "RESTORE_ARCHIVE")
    let changed : Chapter δ := { kept with isArchived := archived, version := row.version + 1, updatedBy := actor }
    return ({ manuscript with chapters := manuscript.chapters.set cid changed, revision := manuscript.revision + 1 },
      .chapter changed.toExternal)

def setArchived (cid : String) (archived : Bool) (expectedVersion : Int) (actor : String) (checks : Checks)
    (stored : Option (Manuscript δ)) : Except Failure (Option (Manuscript δ) × Answer δ) :=
  write documents scope checks (!archived) stored (archive scope cid archived expectedVersion actor)

/-- The operation of `delete`. -/
def remove (cid : String) (expectedVersion : Int) (actor : String) (manuscript : Manuscript δ) : Except Failure (Manuscript δ × Answer δ) := do
  let row ← chapter scope manuscript cid
  compareVersion row expectedVersion
  reject (!row.isArchived) (.value "BRANCH_ARCHIVE_REQUIRED")
  let kept ← checkpoint row actor "DELETE"
  let changed : Chapter δ := { kept with deleted := true, version := row.version + 1, updatedBy := actor }
  return ({ manuscript with chapters := manuscript.chapters.set cid changed, revision := manuscript.revision + 1 },
    .deleted cid changed.version)

def delete (cid : String) (expectedVersion : Int) (actor : String) (checks : Checks) (stored : Option (Manuscript δ)) :
    Except Failure (Option (Manuscript δ) × Answer δ) :=
  write documents scope checks false stored (remove scope cid expectedVersion actor)

/-- The ids of the chapters that are not deleted, in their order. -/
def order (manuscript : Manuscript δ) : List String :=
  ((manuscript.chapters.values.filter fun row => !row.deleted).insertionSort fun left right => left.sortOrder ≤ right.sortOrder).map (·.id)

/-- `items[index], items[other] = items[other], items[index]`. -/
def swap (items : List String) (index other : Nat) : List String :=
  match items[index]?, items[other]? with
  | some first, some second => (items.set index second).set other first
  | _, _ => items

/-- `for i, chapter in enumerate(order, 1): chapter['sort_order'] = i`. -/
def renumbered (order : List String) (chapters : Dict String (Chapter δ)) : Dict String (Chapter δ) :=
  chapters.mapValues fun cid row => if cid ∈ order then { row with sortOrder := order.idxOf cid + 1 } else row

/-- The operation of `move`. -/
def moveChapter (cid : String) (up : Bool) (expectedRevision : Int) (manuscript : Manuscript δ) :
    Except Failure (Manuscript δ × Answer δ) := do
  reject ((manuscript.revision : Int) ≠ expectedRevision) .versionConflict
  discard (chapter scope manuscript cid)
  let order := order manuscript
  let index := order.idxOf cid
  reject (order.length ≤ index) (.other "StopIteration")
  -- The place before the first one is none, and neither is the one after the last.
  if (up && index = 0) || (!up && order.length ≤ index + 1) then return (manuscript, .moved manuscript.revision order)
  else
    let order := swap order index (if up then index - 1 else index + 1)
    return ({ manuscript with chapters := renumbered order manuscript.chapters, revision := manuscript.revision + 1 },
      .moved (manuscript.revision + 1) order)

def move (cid direction : String) (expectedRevision : Int) (checks : Checks) (stored : Option (Manuscript δ)) :
    Except Failure (Option (Manuscript δ) × Answer δ) := do
  reject (direction ∉ ["up", "down"]) (.value "BRANCH_MOVE_INVALID")
  write documents scope checks false stored (moveChapter scope cid (direction = "up") expectedRevision)

/-- The calls that change a manuscript. -/
inductive Call (δ : Type) where
  | create (nid : String) (payload : Payload δ) (actor : String) (token : Uuid) (origin : Option (Origin δ))
  | save (request : Request δ) (operationId : Option String)
  | restore (cid : String) (version : Nat) (expectedVersion : Int) (actor : String)
  | setArchived (cid : String) (archived : Bool) (expectedVersion : Int) (actor : String)
  | delete (cid : String) (expectedVersion : Int) (actor : String)
  | move (cid direction : String) (expectedRevision : Int)

/-- A call inside its transaction, before that is committed. -/
def perform (call : Call δ) (checks : Checks) (stored : Option (Manuscript δ)) : Except Failure (Option (Manuscript δ) × Answer δ) :=
  match call with
  | .create nid payload actor token origin => create documents scope nid payload actor token origin checks stored
  | .save request operationId => save documents scope request operationId checks stored
  | .restore cid version expectedVersion actor => restore documents scope cid version expectedVersion actor checks stored
  | .setArchived cid archived expectedVersion actor => setArchived documents scope cid archived expectedVersion actor checks stored
  | .delete cid expectedVersion actor => delete documents scope cid expectedVersion actor checks stored
  | .move cid direction expectedRevision => move documents scope cid direction expectedRevision checks stored

/-- A call in its own transaction: what is stored after it, and how it ends. A call that
raises, or whose commit does, leaves the store as it was. -/
def transact (stored : Option (Manuscript δ)) (call : Call δ × Checks) : Option (Manuscript δ) × Except Failure (Answer δ) :=
  match perform documents scope call.1 call.2 stored with
  | .error failure => (stored, .error failure)
  | .ok (next, answer) =>
    match call.2.commit with
    | .error failure => (stored, .error failure)
    | .ok () => (next, .ok answer)

/-- What is stored after calls of any clients, one transaction after another. -/
def run (stored : Option (Manuscript δ)) (calls : List (Call δ × Checks)) : Option (Manuscript δ) :=
  calls.foldl (fun stored call => (transact documents scope stored call).1) stored

end NovelStudio.Branch
