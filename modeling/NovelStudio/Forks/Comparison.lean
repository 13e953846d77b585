import Mathlib.Data.List.Dedup
import Mathlib.Data.List.Sort
import NovelStudio.Forks.Record
import NovelStudio.Library.ThreeWay

/-! The comparison of a structured fork with its original (`structured_forks.py`): what
each record would become, which choices are still open and what stands against it. -/

namespace NovelStudio.Forks

open Library Experimental

abbrev Project := Kind → List Record

structure ManuscriptLink where
  forkId : String
  targetId : String

/-- A row of `project_structured_forks_v1`. -/
structure Fork where
  status : String
  targetId : String
  activeMerge : Option String
  manuscriptFork : Option ManuscriptLink
  baseline : Dict String Record
  idMap : Dict String String
  /-- Every selected record has its id in the fork. -/
  covered : idMap.keys = baseline.keys

/-- A row of `project_forks_v1`, as far as a link to it is verified. -/
structure ManuscriptFork where
  status : String
  targetId : String

structure World where
  novels : Dict String Project
  forks : Dict String (Row Fork)
  /-- The statuses of `project_structured_merges_v1`. -/
  merges : Dict String (Row String)
  manuscripts : Dict String (Row ManuscriptFork)

/-- Who compares, and in which project. -/
structure Context where
  actor : String
  novelId : String
  isLocal : Bool

/-- The side that a conflict is decided for. -/
inductive Side where
  | original | fork
  deriving DecidableEq

/-- The values of selected records, where a record may be missing. -/
abbrev Records := Dict String (Option Record)

section
variable (runtime : Runtime) (world : World) (context : Context)

def owned (collection : Dict String (Row α)) (rid : String) : Except Failure (Row α) := do
  reject (!context.isLocal) (.value "FORK_COLLABORATION_BRANCH_WRITER_UNAVAILABLE")
  let row ← fetch (collection.get? rid) (.notFound rid)
  reject (row.createdBy ≠ context.actor) (.notFound "fork unavailable")
  return row

/-- `data_set(novel_id, kind)`. -/
def dataSet (novelId : String) (kind : Kind) : Except Failure (List Record) := do
  let project ← fetch (world.novels.get? novelId) (.notFound novelId)
  return project kind

def hidden (row : Record) : Bool :=
  (value row "branch_id").truthy || (value row "hidden").truthy || (value row "secret").truthy ||
    runtime.upper (str runtime ((row.get? "visibility").getD (.str ""))) ∈ ["PRIVATE", "SECRET", "DENIED"]

/-- `_read`: the record of a key, of which there must be at most one. -/
def read (novelId key : String) : Except Failure (Option Record) := do
  let (kind, rid) ← split key
  let rows ← dataSet world novelId kind
  match rows.filter fun row => str runtime (value row "id") = rid with
  | [] => return none
  | [row] =>
    reject (hidden runtime row) (.notFound "structured record unavailable")
    return some row
  | _ => throw (.value "FORK_DUPLICATE_ORIGINAL_RECORD_ID")

def verifyManuscriptFork (row : Fork) (targetAuthorize : String → Except Failure Unit) : Except Failure Unit :=
  match row.manuscriptFork with
  | none => return
  | some link => do
    let manuscript ← owned context world.manuscripts link.forkId
    reject (manuscript.data.targetId ≠ row.targetId || manuscript.data.targetId ≠ link.targetId || manuscript.data.status ≠ "FORKED")
      (.stale "FORK_MANUSCRIPT_TARGET_IDENTITY_CHANGED")
    targetAuthorize row.targetId

/-- A record of the fork under the ids of the original. -/
def restored (reverse : Dict String String) (key : String) (item : Option Record) : Except Failure (Option Record) :=
  match item with
  | none => return none
  | some item =>
    if item.entries.isEmpty then return some item
    else do
      let (kind, rid) ← split key
      let item ← mapped runtime kind item reverse
      return some (item.set "id" (.str rid))

def checked (key : String) (item : Option Record) : Except Failure Unit :=
  match item with
  | none => return
  | some item =>
    if item.entries.isEmpty then return
    else do
      let (kind, _) ← split key
      discard (supported runtime kind item)

/-- `{v: k for k, v in id_map.items()}`. -/
def reversed (mapping : Dict String String) : Dict String String :=
  mapping.entries.foldl (fun reverse entry => reverse.set entry.2 entry.1) ∅

/-- `_current`: the selected records as they are now, those of the fork under the ids of the original. -/
def current (row : Fork) (targetAuthorize : String → Except Failure Unit) : Except Failure (Records × Records) := do
  verifyManuscriptFork world context row targetAuthorize
  targetAuthorize row.targetId
  reject (!world.novels.contains row.targetId) (.notFound row.targetId)
  let original ← row.baseline.mapValuesM fun key _ => read runtime world context.novelId key
  let fork ← row.idMap.mapValuesM fun _ target => read runtime world row.targetId target
  let fork ← fork.mapValuesM (restored runtime (reversed row.idMap))
  discard (original.mapValuesM (checked runtime))
  return (original, fork)

end

def Side.text : Side → String
  | .original => "ORIGINAL"
  | .fork => "FORK"

def optional (row : Option Record) : Json := row.elim .null fun row => .dict row.entries

/-- `left == right` of two records that may be missing. -/
def sameRecord (left right : Option Record) : Bool := (optional left).eq (optional right)

/-- A difference that a comparison shows. -/
structure Change where
  id : String
  field : String
  kind : Difference
  reason : String
  base : Json
  original : Json
  fork : Json
  choice : Option Side

def Change.chosen (change : Change) : Json :=
  if change.kind = .rightOnly || change.kind = .bothSame || change.choice = some .fork then change.fork else change.original

section
variable (runtime : Runtime) (choices : Dict String Side) (key : String) (base : Record)

def fieldId (field : String) (left right : Record) : String :=
  runtime.digest (.list [.str key, .str field, value base field, value left field, value right field])

def compareField (left right : Record) (field : String) : Option Change :=
  let b := value base field
  let l := value left field
  let r := value right field
  (difference Json.eq b l r).map fun kind =>
    let cid := fieldId runtime key base field left right
    let choice := if kind = .conflict then choices.get? cid else none
    ⟨cid, field, kind, if field = "name" then "RENAME" else "FIELD_EDIT", b, l, r, choice⟩

/-- `sorted(set(base) | set(left) | set(right))`. -/
def fieldNames (base left right : Record) : List String :=
  (base.keys ++ left.keys ++ right.keys).dedup.insertionSort (· ≤ ·)

/-- Both records are live: every field is merged by itself. -/
def compareFields (left right : Record) : Except Failure (List Change × Option Record) := do
  let base' ← fetch (content (some base)) (.other "TypeError")
  let left' ← fetch (content (some left)) (.other "TypeError")
  let right' ← fetch (content (some right)) (.other "TypeError")
  let changes := (fieldNames base' left' right').filterMap (compareField runtime choices key base left right)
  return (changes, some (changes.foldl (fun result change => result.set change.field change.chosen) left))

def recordId' (left right : Option Record) : String :=
  runtime.digest (.list [.str key, .str "ARCHIVE_DELETE", optional (some base), optional left, optional right])

/-- `{**left, **content(right), 'status': ...}`. -/
def overlaid (left : Record) (right : Option Record) : Record :=
  let status := if live right then (right.bind (·.get? "status")).getD (.str "ACTIVE") else .str "ARCHIVED"
  (left.update ((content right).getD ∅)).set "status" status

/-- A record is archived or missing: one choice for the whole record. -/
def compareWhole (left right : Option Record) : Except Failure (List Change × Option Record) :=
  let cid := recordId' runtime key base left right
  let choice := choices.get? cid
  let change : Change := ⟨cid, "record", .conflict, "DELETE_OR_ARCHIVE_MODIFY", optional (content (some base)),
    optional (content left), optional (content right), choice⟩
  match choice with
  | some .fork =>
    match left with
    | none => throw (.value "FORK_MISSING_ORIGINAL_REQUIRES_OWNER_RESTORE")
    | some left => return ([change], some (overlaid left right))
  | _ => return ([change], left)

/-- A record whose content changed is as restricted as the strictest of its sources. -/
def restricted (left right : Option Record) (result : Option Record) : Option Record :=
  match result with
  | none => none
  | some row =>
    if sameRecord (content (some row)) (content left) then some row
    else
      let level := mergePrivacy [value (left.getD ∅) "privacy_level", value (right.getD ∅) "privacy_level", value base "privacy_level"]
      some ((row.set "privacy_level" (.str level.text)).erase "privacy_status")

/-- A compared record: its entry in `records`, and what it would become. -/
structure Compared where
  kind : Kind
  title : Json
  originalDigest : String
  forkDigest : String
  changes : List Change
  desired : Option Record

def title (left : Option Record) : Json :=
  let row := if present left then left.getD base else base
  (row.get? "name").getD ((row.get? "relationship_type").getD (.str key))

/-- The changes of a record, and what is chosen of them. -/
def compareSides (left right : Option Record) : Except Failure (List Change × Option Record) :=
  match left, right with
  | some l, some r =>
    if active l && active r then compareFields runtime choices key base l r
    else compareWhole runtime choices key base (some l) (some r)
  | left, right => compareWhole runtime choices key base left right

/-- The turn of `_comparison` for one record of the baseline. -/
def compareRecord (left right : Option Record) : Except Failure Compared := do
  let (changes, result) ← compareSides runtime choices key base left right
  let (kind, _) ← split key
  return ⟨kind, title key base left, runtime.digest (optional left), runtime.digest (optional right), changes,
    restricted base left right result⟩

end

/-- What stands against a merge: a record, the field that is in the way, and why. -/
structure Block where
  key : String
  field : Option String
  code : String
  deriving DecidableEq

section
variable (runtime : Runtime) (world : World) (context : Context)

def comparedRecords (row : Fork) (original fork : Records) (choices : Dict String Side) : Except Failure (Dict String Compared) :=
  row.baseline.mapValuesM fun key base => do
    let left ← fetch (original.get? key) (.other "KeyError")
    let right ← fetch (fork.get? key) (.other "KeyError")
    compareRecord runtime choices key base left right

def changesOf (records : Dict String Compared) : List Change := records.values.flatMap Compared.changes

/-- The conflicts, whose ids a choice may name. -/
def conflictsOf (records : Dict String Compared) : List Change := (changesOf records).filter (·.kind = .conflict)

def standing (desired : Records) (target : String) : Bool := (desired.get? target).any live

/-- The references of one desired record that lead nowhere. -/
def blockedReferences (desired : Records) (key : String) (result : Option Record) : Except Failure (List Block) :=
  match result with
  | none => return []
  | some row =>
    if active row then do
      let (kind, _) ← split key
      let dangling := (references kind row).filter fun reference => !standing desired (reference.target runtime)
      return dangling.map fun reference => ⟨key, some reference.field, "FORK_CROSS_REFERENCE_MISSING_OR_ARCHIVED"⟩
    else return []

def comparison (row : Fork) (original fork : Records) (choices : Dict String Side) :
    Except Failure (Dict String Compared × Records × Nat × List Block) := do
  let records ← comparedRecords runtime row original fork choices
  let desired := records.mapValues fun _ compared => compared.desired
  let used := (conflictsOf records).map Change.id
  reject (choices.keys.any (· ∉ used)) (.value "FORK_UNKNOWN_OR_STALE_CONFLICT_CHOICE")
  let blocked ← desired.mapValuesM (blockedReferences runtime desired)
  return (records, desired, ((conflictsOf records).filter (·.choice.isNone)).length, blocked.values.flatten)

/-- `f"{kind}:{row.get('id', '')}"`. -/
def ownKey (kind : Kind) (row : Record) : String := keyOf kind (str runtime ((row.get? "id").getD (.str "")))

/-- The turn of `_dependencies` for one record. -/
def dependencyTurn (selected : Records) (kind : Kind) (result : Records) (row : Record) : Except Failure Records :=
  let key := ownKey runtime kind row
  if selected.contains key || !active row then return result
  else if (references kind row).any fun reference => selected.contains (reference.target runtime) then do
    let item ← read runtime world context.novelId key
    return result.set key item
  else return result

/-- `_dependencies`: the live records outside the selection that reference a selected one. -/
def dependencies (selected : Records) : Except Failure Records :=
  kinds.foldlM (fun result kind => do
    let rows ← dataSet world context.novelId kind
    rows.foldlM (dependencyTurn runtime world context selected kind) result) ∅

/-- The references of one dependent record to records that would not be live. -/
def archivedReferences (desired : Records) (key : String) (row : Option Record) : Except Failure (List Block) :=
  match row with
  | none => return []
  | some row => do
    let (kind, _) ← split key
    let archived := (references kind row).filter fun reference =>
      desired.contains (reference.target runtime) && !standing desired (reference.target runtime)
    return archived.map fun reference => ⟨reference.target runtime, none, "FORK_UNSELECTED_DEPENDENT_REQUIRES_REVIEW"⟩

def dependencyBlocks (dependents desired : Records) : Except Failure (List Block) := do
  let blocked ← dependents.mapValuesM (archivedReferences runtime desired)
  return blocked.values.flatten

/-- What a comparison returns; the desired records and the dependent ones are under its digest. -/
structure Review where
  forkId : String
  expectedVersion : Nat
  previewDigest : String
  records : Dict String Compared
  unresolved : Nat
  blocked : List Block
  canApply : Bool
  writeCount : Nat
  original : Records
  fork : Records
  desired : Records
  dependents : Records

def recordsJson (records : Records) : Json := .dict (records.entries.map fun entry => (entry.1, optional entry.2))

def choicesJson (choices : Dict String Side) : Json := .dict (choices.entries.map fun entry => (entry.1, .str entry.2.text))

/-- The last merge of the fork is over. -/
def mergeSettled : Option String → Except Failure Unit
  | none => return
  | some merge => do
    let merge ← owned context world.merges merge
    reject (merge.data ∉ ["COMPLETED", "RESTORED"]) (.value "FORK_MERGE_RECOVERY_REQUIRED")

def compare (reauthorize : Except Failure Unit) (targetAuthorize : String → Except Failure Unit) (rid : String)
    (expectedVersion : Nat) (choices : Dict String Side) : Except Failure Review := do
  let row ← owned context world.forks rid
  checkVersion row expectedVersion
  reject (row.data.status ≠ "FORKED") (.value "FORK_NOT_READY_OR_RECOVERY_REQUIRED")
  mergeSettled world context row.data.activeMerge
  let (original, fork) ← current runtime world context row.data targetAuthorize
  let (records, desired, unresolved, blocked) ← comparison runtime row.data original fork choices
  let dependents ← dependencies runtime world context desired
  let dependentBlocks ← dependencyBlocks runtime dependents desired
  reauthorize
  targetAuthorize row.data.targetId
  let blocked := blocked ++ dependentBlocks
  let preview := runtime.digest (.list [.str rid, .int row.version, recordsJson original, recordsJson fork, choicesJson choices,
    recordsJson desired, recordsJson dependents])
  let writes := desired.entries.filter fun entry => !sameRecord entry.2 ((original.get? entry.1).join)
  return ⟨rid, row.version, preview, records, unresolved, blocked, unresolved = 0 && blocked.isEmpty, writes.length, original, fork,
    desired, dependents⟩

end

end NovelStudio.Forks
