import NovelStudio.Library.Fallible
import NovelStudio.Library.JsonDecoder
import NovelStudio.Library.JsonText
import NovelStudio.Library.Text

/-! The identity store (`stable_identity.py`): its file, what it takes for well formed, and its calls. -/

namespace NovelStudio.Identity

open Library

abbrev Uuid := BitVec 128

inductive Failure where
  | integrity (code : String)
  | mutation (code : String)
  | value (text : String)
  | key (key : String)
  /-- A lock or a file, or JSON that the interpreter does not read. -/
  | other (note : String)
  deriving DecidableEq

inductive Kind where
  | provider | model | runtime | executionNode
  deriving DecidableEq

def Kind.name : Kind → String
  | .provider => "provider"
  | .model => "model"
  | .runtime => "runtime"
  | .executionNode => "execution_node"

/-- `KINDS`. -/
def Kind.all : List Kind := [.provider, .model, .runtime, .executionNode]

def knownKind (name : String) (failure : Failure) : Except Failure Kind := fetch (Kind.all.find? (·.name = name)) failure

structure Row where
  key : String
  identityId : Uuid
  metadata : List (String × Json)
  deriving DecidableEq

/-- `data["entities"]`. -/
abbrev Entities := Kind → List Row

abbrev File := Option Entities

/-- What is outside of the module: the lock of the file, how it is replaced, what `uuid.UUID` reads of a text, and how deep
the interpreter nests. -/
structure Host where
  lock : Except Failure Unit
  disk : Except Failure Unit
  parse : String → Option Uuid
  depth : Nat

/-- `not key.strip()`. -/
def isBlank (key : String) : Bool := strip key = ""

/-- Metadata as a caller gives it: an object of JSON, or one with a key that is no string or a value of another type. -/
inductive Metadata where
  | fields (fields : List (String × Json))
  | foreign

/-- `_validate_metadata(dict(metadata))`. -/
def normalized (kind : Kind) : Metadata → Except Failure (List (String × Json))
  | .fields fields => do
    reject (!Json.finiteFields fields) (.integrity (kind.name ++ "_METADATA_INVALID"))
    return fields
  | .foreign => throw (.integrity (kind.name ++ "_METADATA_INVALID"))

inductive RawId where
  | uuid (value : Uuid)
  | text (text : String)
  | other

def validateUuid (host : Host) (kind : Kind) (raw : RawId) : Except Failure Uuid := do
  let malformed := Failure.integrity (kind.name ++ "_id_MALFORMED")
  let parsed ← match raw with
    | .uuid value => pure value
    | .text text => fetch (host.parse text) malformed
    | .other => throw malformed
  reject (parsed = 0) (.integrity (kind.name ++ "_id_ZERO"))
  return parsed

/-- One turn of the loop of `_validate_rows`, over the rows that passed. -/
def validateRow (kind : Kind) (validated : List Row) (row : Row) : Except Failure (List Row) := do
  reject (isBlank row.key) (.integrity (kind.name ++ "_ENTRY_INVALID"))
  reject (row.key ∈ validated.map Row.key) (.integrity (kind.name ++ "_DUPLICATE_KEY"))
  reject (row.identityId = 0) (.integrity (kind.name ++ "_id_ZERO"))
  reject (row.identityId ∈ validated.map Row.identityId) (.integrity (kind.name ++ "_DUPLICATE_ID"))
  reject (!Json.finiteFields row.metadata) (.integrity (kind.name ++ "_METADATA_INVALID"))
  return validated ++ [row]

def validateRows (kind : Kind) (rows : List Row) : Except Failure (List Row) := rows.foldlM (validateRow kind) []

def read (file : File) : Except Failure Entities :=
  match file with
  | none => return fun _ => []
  | some entities => do
    Kind.all.forM fun kind => discard (validateRows kind (entities kind))
    return entities

/-- `_write`: the file is replaced, and read again. -/
def write (host : Host) (data : Entities) (file : File) : Except Failure Unit × File :=
  match host.disk with
  | .error failure => (.error failure, file)
  | .ok _ => ((read (some data)).map fun _ => (), some data)

/-- A call under the lock: what it plans on the data, and the file behind it. -/
def mutate (host : Host) (file : File) (plan : Entities → Except Failure (α × Option Entities)) : Except Failure α × File :=
  match host.lock >>= fun _ => read file >>= plan with
  | .error failure => (.error failure, file)
  | .ok (result, none) => (.ok result, file)
  | .ok (result, some candidate) =>
    match write host candidate file with
    | (.error failure, later) => (.error failure, later)
    | (.ok _, later) => (.ok result, later)

/-- `candidate["entities"][kind] = rows`. -/
def replaced (data : Entities) (kind : Kind) (rows : List Row) : Entities := Function.update data kind rows

/-- The new row of `create` and `get_or_create`. -/
def append (kind : Kind) (key : String) (metadata : Option Metadata) (drawn : Uuid) (data : Entities) : Except Failure (Uuid × Option Entities) := do
  let metadata ← normalized kind (metadata.getD (.fields []))
  let rows ← validateRows kind (data kind ++ [⟨key, drawn, metadata⟩])
  return (drawn, some (replaced data kind rows))

/-- The check of `create` and `get_or_create` before they take the lock. -/
def required (kind key : String) : Except Failure Kind := do
  let kind ← knownKind kind (.value "identity key is required")
  reject (isBlank key) (.value "identity key is required")
  return kind

def create (kind : Kind) (key : String) (metadata : Option Metadata) (drawn : Uuid) (data : Entities) : Except Failure (Uuid × Option Entities) := do
  reject ((data kind).any (·.key = key)) (.integrity (kind.name ++ "_ALREADY_EXISTS"))
  append kind key metadata drawn data

def getOrCreate (kind : Kind) (key : String) (metadata : Option Metadata) (drawn : Uuid) (data : Entities) :
    Except Failure (Uuid × Option Entities) :=
  match (data kind).find? (·.key = key) with
  | some existing => return (existing.identityId, none)
  | none => append kind key metadata drawn data

/-- The rows of `update`. -/
def withMetadata (key : String) (metadata : List (String × Json)) (rows : List Row) : List Row :=
  rows.map fun row => if row.key = key then { row with metadata } else row

/-- The check that an identity that is given is the one that is stored. -/
def keepsIdentity (host : Host) (kind : Kind) (given : Option RawId) (current : Uuid) : Except Failure Unit :=
  match given with
  | none => pure ()
  | some raw => do
    let identity ← validateUuid host kind raw
    reject (identity ≠ current) (.mutation (kind.name ++ "_ID_IMMUTABLE"))

/-- `update`; no identity stands for `None`. -/
def update (host : Host) (kind : Kind) (key : String) (identityId : Option RawId) (metadata : Option Metadata) (data : Entities) :
    Except Failure (Uuid × Option Entities) := do
  let row ← fetch ((data kind).find? (·.key = key)) (.key key)
  keepsIdentity host kind identityId row.identityId
  match metadata with
  | none => return (row.identityId, none)
  | some metadata => do
    let metadata ← normalized kind metadata
    let rows ← validateRows kind (withMetadata key metadata (data kind))
    return (row.identityId, some (replaced data kind rows))

/-- `json.loads`. -/
def loads (depth : Nat) (text : String) : Except Fault Decoded :=
  match scanOnce depth (skipSpace text.toList) with
  | .error fault => .error fault
  | .ok (value, rest) => if skipSpace rest = [] then .ok value else .error .decode

/-- Whether a row is of the model of a provider: its key is `["provider_model", provider, key]`. -/
def ofProvider (depth : Nat) (key : String) (row : Row) : Except Failure Bool :=
  match loads depth row.key with
  | .ok (.list [.str tag, _, .str model]) => return tag = pyStr "provider_model" && model = pyStr key
  | .ok _ | .error .decode => return false
  | .error _ => throw (.other "json")

def lookupKey (depth : Nat) (kind : Kind) (key : String) (rows : List Row) : Except Failure String :=
  if kind ≠ .model ∨ key.toList.head? = some '[' then return key
  else do
    match ← rows.filterM (ofProvider depth key) with
    | [only] => return only.key
    | _ => return key

/-- `delete`; its result is the key that is gone. -/
def delete (host : Host) (kind : Kind) (key : String) (data : Entities) : Except Failure (String × Option Entities) := do
  let key ← lookupKey host.depth kind key (data kind)
  reject (!(data kind).any (·.key = key)) (.key key)
  return (key, some (replaced data kind ((data kind).filter (·.key ≠ key))))

/-- An entry of a legacy source: its key where that is a string, its identity, and its metadata. -/
inductive Entry where
  | mapping (key : Option String) (identity : Option RawId) (metadata : Metadata)
  | other

/-- What the loop of `migrate` has so far. -/
structure Migrated where
  rows : List Row
  input : List String
  result : List (String × Uuid)

def newIdentity (host : Host) (kind : Kind) (given : Option RawId) (drawn : Uuid) : Except Failure Uuid :=
  match given with
  | none => pure drawn
  | some raw => validateUuid host kind raw

/-- One turn of the loop of `migrate`: an entry, and its `uuid4`. -/
def migrateEntry (host : Host) (kind : Kind) (so : Migrated) (turn : Entry × Uuid) : Except Failure Migrated := do
  let invalid := Failure.integrity (kind.name ++ "_LEGACY_ENTRY_INVALID")
  match turn.1 with
  | .other => throw invalid
  | .mapping key raw metadata => do
    let key ← fetch key invalid
    reject (isBlank key) invalid
    reject (key ∈ so.input) (.integrity (kind.name ++ "_DUPLICATE_KEY"))
    match so.rows.find? (·.key = key) with
    | some existing => do
      keepsIdentity host kind raw existing.identityId
      return ⟨so.rows, so.input ++ [key], so.result ++ [(key, existing.identityId)]⟩
    | none => do
      let identity ← newIdentity host kind raw turn.2
      reject (identity ∈ so.rows.map Row.identityId) (.integrity (kind.name ++ "_DUPLICATE_ID"))
      let metadata ← normalized kind metadata
      return ⟨so.rows ++ [⟨key, identity, metadata⟩], so.input ++ [key], so.result ++ [(key, identity)]⟩

/-- `migrate`; `draws` has an identity for each entry. -/
def migrate (host : Host) (kind : Kind) (turns : List (Entry × Uuid)) (data : Entities) :
    Except Failure (List (String × Uuid) × Option Entities) := do
  let so ← turns.foldlM (migrateEntry host kind) ⟨data kind, [], []⟩
  let rows ← validateRows kind so.rows
  return (so.result, if rows ≠ data kind then some (replaced data kind rows) else none)

end NovelStudio.Identity
