import NovelStudio.Experimental.Rows
import NovelStudio.Library.JsonText

/-! The scope documents of the experimental store (`store.py`): what is valid, how lifecycles advance, and a transaction of each backend. -/

namespace NovelStudio.Experimental

open Library

def LIFECYCLE : String := "_taskcenter_lifecycle_v1"
def OBSERVED_COLLECTION : String := "semantic_import_jobs"
def TEAM_LIFECYCLE : String := "_taskcenter_team_lifecycle_v1"
def TEAM_COLLECTION : String := "team_runs"

structure Lifecycle where
  key : String
  mode : String
  collection : String

def localLifecycle : Lifecycle := ⟨LIFECYCLE, "local", OBSERVED_COLLECTION⟩
def teamLifecycle : Lifecycle := ⟨TEAM_LIFECYCLE, "collaboration", TEAM_COLLECTION⟩

def LIFECYCLE_MODES : List Lifecycle := [localLifecycle, teamLifecycle]

/-- A scope document: an object that names every field once. -/
structure Document where
  fields : List (String × Json)
  distinct : (Json.dict fields).distinct = true

namespace Document

def get? (document : Document) (key : String) : Option Json := lookup key document.fields

def set (document : Document) (key : String) (value : Json) (distinct : value.distinct = true) : Document :=
  ⟨store key value document.fields, Json.distinct_store distinct document.distinct⟩

def rows (document : Document) (collection : String) : List (String × Json) :=
  (((document.get? "collections").bind (Json.get? collection)).getD (.dict [])).fields

/-- The nonces of a lifecycle, by the rows they are of. -/
def nonces (document : Document) (lifecycle : Lifecycle) : List (String × Json) :=
  (((document.get? lifecycle.key).bind (Json.get? "rows")).getD (.dict [])).fields

/-- `canonical(left) == canonical(right)`. -/
def same (left right : Document) : Bool := Json.sameText (.dict left.fields) (.dict right.fields)

end Document

/-- A scope: the project, and the fields of the scope. -/
structure Scope where
  nid : String
  fields : List (String × Json)
  distinct : (Json.dict fields).distinct = true

def Scope.mode (scope : Scope) : Option Json := lookup "mode" scope.fields

/-- `key`, as far as it refuses a scope. -/
def checkScope (scope : Scope) : Except Failure Unit := do
  reject (scope.nid = "" || lookup "novel_id" scope.fields ≠ some (.str scope.nid)) (.value "experimental scope must identify its project")
  reject (scope.mode ≠ some (.str "local") && scope.mode ≠ some (.str "collaboration")) (.value "unsupported experimental scope")
  reject (scope.mode = some (.str "collaboration") && ["workspace_id", "storyline_id", "branch_id"].any fun key =>
    !((lookup key scope.fields).any Json.truthy)) (.value "complete collaboration scope required")

def Scope.empty (scope : Scope) : Document :=
  ⟨[("schema_version", .int 1), ("novel_id", .str scope.nid), ("scope", .dict scope.fields), ("collections", .dict [])], by
    have unique := scope.distinct
    simp only [Json.distinct, Json.distinctFields] at unique ⊢
    rw [unique]
    rfl⟩

def isHex (char : Char) : Bool := ('0' ≤ char && char ≤ '9') || ('a' ≤ char && char ≤ 'f')

/-- `_nonce` of a string: the text of a UUID of version 4. -/
def isNonce (text : String) : Bool :=
  text.toList.length = 36 && text.toList.zipIdx.all fun (char, place) =>
    if place = 8 || place = 13 || place = 18 || place = 23 then char = '-'
    else if place = 14 then char = '4'
    else if place = 19 then char = '8' || char = '9' || char = 'a' || char = 'b'
    else isHex char

/-- A value that is a string with a property. -/
def isText (property : String → Bool) : Option Json → Bool
  | some (.str text) => property text
  | _ => false

/-- `file:` and a nonce. -/
def isProject (text : String) : Bool :=
  "file:".toList.isPrefixOf text.toList && isNonce (String.ofList (text.toList.drop 5))

def sameKeys (left right : List (String × Json)) : Bool :=
  (left.all fun field => (lookup field.1 right).isSome) && right.all fun field => (lookup field.1 left).isSome

def METADATA_FIELDS : List String := ["schema_version", "project_identity", "document_incarnation", "rows"]

/-- The metadata of a lifecycle, against the rows of its collection. -/
def validMetadata (scope : Scope) (lifecycle : Lifecycle) (rows : List (String × Json)) : Json → Bool
  | .dict metadata =>
    (metadata.all fun field => field.1 ∈ METADATA_FIELDS) && METADATA_FIELDS.all (fun key => (lookup key metadata).isSome) &&
    lookup "schema_version" metadata = some (.int 1) &&
    isText isProject (lookup "project_identity" metadata) && isText isNonce (lookup "document_incarnation" metadata) &&
    ((lookup "rows" metadata).any fun nonces => nonces.isDict &&
      (nonces.fields.all fun field => field.1 ≠ "" && isText isNonce (some field.2)) &&
      scope.mode = some (.str lifecycle.mode) && sameKeys rows nonces.fields)
  | _ => false

def validate (scope : Scope) (document : Document) : Except Failure Unit := do
  reject (!((document.get? "schema_version").any fun version => version.eq (.int 1)) ||
      !((document.get? "novel_id").any fun nid => nid.eq (.str scope.nid)) ||
      !((document.get? "scope").any fun stored => stored.eq (.dict scope.fields)) ||
      !((document.get? "collections").any fun collections => collections.isDict && collections.fields.all fun field => field.2.isDict))
    (.value "experimental store corrupt or scope mismatch; restore a verified backup")
  LIFECYCLE_MODES.forM fun lifecycle => reject ((document.get? lifecycle.key).any fun metadata =>
    !validMetadata scope lifecycle (document.rows lifecycle.collection) metadata) (.value "experimental lifecycle metadata is invalid")
  reject (!Json.finiteFields document.fields) (.value "Out of range float values are not JSON compliant")

def Scope.lifecycle (scope : Scope) : Lifecycle := if scope.mode = some (.str "local") then localLifecycle else teamLifecycle

/-- A row that is new or changed draws a nonce, by its place. -/
def advanceRow (before : List (String × Json)) (draw : Nat → String) (nonces : List (String × Json)) (row : (String × Json) × Nat) :
    List (String × Json) :=
  if (lookup row.1.1 before).any (Json.sameText · row.1.2) then nonces else store row.1.1 (.str (draw row.2)) nonces

/-- The nonces of the rows that are left, and those of the rows that are new or changed. -/
def advanceRows (nonces before after : List (String × Json)) (draw : Nat → String) : List (String × Json) :=
  after.zipIdx.foldl (advanceRow before draw) (nonces.filter fun field => (lookup field.1 after).isSome)

theorem advanceRows_distinct {nonces before after : List (String × Json)} {draw : Nat → String} (distinct : (Json.dict nonces).distinct = true) :
    (Json.dict (advanceRows nonces before after draw)).distinct = true := by
  unfold advanceRows
  have start := Json.distinct_filter (fun field : String × Json => (lookup field.1 after).isSome) distinct
  revert start
  generalize nonces.filter (fun field => (lookup field.1 after).isSome) = kept
  generalize after.zipIdx = fields
  intro start
  induction fields generalizing kept with
  | nil => exact start
  | cons field rest ih =>
    rw [List.foldl_cons]
    refine ih _ ?_
    unfold advanceRow
    split
    · exact start
    · exact Json.distinct_store rfl start

def newMetadata (identity incarnation : String) : List (String × Json) :=
  [("schema_version", .int 1), ("project_identity", .str identity), ("document_incarnation", .str incarnation), ("rows", .dict [])]

/-- The metadata that a transaction starts from: that of the previous document, or new one for the identity of the project. -/
def startMetadata (previous : Document) (lifecycle : Lifecycle) (identity : Option String) (draw : Nat → String) :
    Option {metadata : List (String × Json) // (Json.dict metadata).distinct = true} :=
  match found : previous.get? lifecycle.key with
  | some metadata => some ⟨metadata.fields, Json.distinct_fields (Json.distinct_lookup previous.distinct found)⟩
  | none => identity.map fun identity => ⟨newMetadata identity (draw 0), rfl⟩

theorem nonces_distinct {metadata : List (String × Json)} (distinct : (Json.dict metadata).distinct = true) :
    (Json.dict ((lookup "rows" metadata).getD (.dict [])).fields).distinct = true := by
  cases found : lookup "rows" metadata with
  | none => rfl
  | some nonces => exact Json.distinct_fields (Json.distinct_lookup distinct found)

def advanceLifecycles (scope : Scope) (document previous : Document) (identity : Option String) (draw : Nat → String) : Document :=
  let lifecycle := scope.lifecycle
  match startMetadata previous lifecycle identity draw with
  | none => document
  | some ⟨metadata, distinct⟩ =>
    let nonces := ((lookup "rows" metadata).getD (.dict [])).fields
    let rows := advanceRows nonces (previous.rows lifecycle.collection) (document.rows lifecycle.collection) fun place => draw (place + 1)
    document.set lifecycle.key (.dict (store "rows" (.dict rows) metadata))
      (Json.distinct_store (advanceRows_distinct (nonces_distinct distinct)) distinct)

/-- How an attempt of `os.replace` ends. -/
inductive Attempt where
  | replaced
  /-- A `PermissionError`. -/
  | denied (failure : Failure)
  | failed (failure : Failure)

/-- The disk below `atomic_write`: how the temporary file is written, and the attempts to put it into place. -/
structure Disk where
  written : Except Failure Unit
  attempt : Nat → Attempt

/-- The attempts from a place on: a denied one is made again while some are left. -/
def putInPlace (disk : Disk) (content : Document) (file : Option Document) (place : Nat) : Nat → Except Failure Unit × Option Document
  | 0 =>
    match disk.attempt place with
    | .replaced => (.ok (), some content)
    | .denied failure | .failed failure => (.error failure, file)
  | left + 1 =>
    match disk.attempt place with
    | .replaced => (.ok (), some content)
    | .denied _ => putInPlace disk content file (place + 1) left
    | .failed failure => (.error failure, file)

/-- `atomic_write`: how it ends, and what the file has then. -/
def atomicWrite (disk : Disk) (content : Document) (file : Option Document) : Except Failure Unit × Option Document :=
  match disk.written with
  | .error failure => (.error failure, file)
  | .ok () => putInPlace disk content file 0 4

/-- What is outside of a transaction: the fence of unfinished replacements, the owner of the project where there is one, before and behind
the body, the disk, the commit of the database, and the values of `uuid4`. -/
structure Surroundings where
  residue : Except Failure Unit
  owner : Option String
  residueAgain : Except Failure Unit
  ownerAgain : Except Failure String
  disk : Disk
  commit : Except Failure Unit
  draw : Nat → String

/-- The body of a transaction: it raises, or leaves the document as it wants it. -/
abbrev Body := Document → Except Failure Document

def keepsMetadata (document original : Document) : Bool :=
  LIFECYCLE_MODES.all fun lifecycle =>
    match document.get? lifecycle.key, original.get? lifecycle.key with
    | none, none => true
    | some now, some before => Json.sameText now before
    | _, _ => false

/-- `business`: the document without its metadata. -/
def business (document : Document) : Document :=
  ⟨document.fields.filter fun field => field.1 ≠ LIFECYCLE && field.1 ≠ TEAM_LIFECYCLE, Json.distinct_filter _ document.distinct⟩

/-- The owner is still the one that the transaction started with. -/
def keepsOwner (around : Surroundings) : Option String → Except Failure Unit
  | none => pure ()
  | some identity => do
    let current ← around.ownerAgain
    reject (current ≠ identity) (.value "EXPERIMENTAL_PROJECT_OWNER_CHANGED")

/-- `_file_snapshot`, of what the file has. -/
def snapshot (scope : Scope) (file : Option Document) : Except Failure Document :=
  match file with
  | none => return scope.empty
  | some document => do
    validate scope document
    return document

/-- What a transaction that changes the file writes. -/
def replacement (around : Surroundings) (scope : Scope) (document original : Document) (identity : Option String) : Except Failure Document := do
  around.residueAgain
  let document := advanceLifecycles scope document original identity around.draw
  validate scope document
  keepsOwner around identity
  return document

/-- `transaction` of the file backend up to its write: the document that it writes, or none where the file stays. -/
def fileTransaction (around : Surroundings) (scope : Scope) (observation : Bool) (body : Body) (file : Option Document) :
    Except Failure (Option Document) := do
  checkScope scope
  onlyIf (!observation) around.residue
  let original ← snapshot scope file
  let document ← body original
  reject (observation && !document.same original) (.value "EXPERIMENTAL_SCOPE_OBSERVATION_MUTATION")
  reject (!keepsMetadata document original) (.value "experimental lifecycle metadata is owner-managed")
  validate scope (business document)
  if document.same original then return none
  else some <$> replacement around scope document original (if file.isNone then around.owner else none)

/-- `transaction` of the PostgreSQL backend up to its commit: the document of the row, which its first statement inserts where there is none. -/
def postgresTransaction (scope : Scope) (observation : Bool) (body : Body) (row : Option Document) : Except Failure Document := do
  checkScope scope
  let original := row.getD scope.empty
  validate scope original
  let document ← body original
  reject (observation && !document.same original) (.value "EXPERIMENTAL_SCOPE_OBSERVATION_MUTATION")
  validate scope document
  return if document.same original then original else document

inductive Backend where
  | file | postgres

/-- `transaction`: how it ends, and what is committed then. -/
def transaction (backend : Backend) (around : Surroundings) (scope : Scope) (observation : Bool) (body : Body) (committed : Option Document) :
    Except Failure Unit × Option Document :=
  match backend with
  | .file =>
    match fileTransaction around scope observation body committed with
    | .error failure => (.error failure, committed)
    | .ok none => (.ok (), committed)
    | .ok (some document) => atomicWrite around.disk document committed
  | .postgres =>
    match postgresTransaction scope observation body committed with
    | .error failure => (.error failure, committed)
    | .ok document =>
      match around.commit with
      | .error failure => (.error failure, committed)
      | .ok () => (.ok (), some document)

end NovelStudio.Experimental
