import NovelStudio.Experimental.Rows
import NovelStudio.Library.Json
import NovelStudio.Library.Text

/-! Selected knowledge records of a project and their references
(`structured_forks.py`, `privacy.py`). -/

namespace NovelStudio.Forks

open Library Experimental

inductive Kind where
  | locations | characters | relationships
  deriving DecidableEq

def Kind.name : Kind → String
  | .locations => "locations"
  | .characters => "characters"
  | .relationships => "relationships"

def kinds : List Kind := [.locations, .characters, .relationships]

def Kind.fields : Kind → List String
  | .characters =>
    ["id", "name", "age", "role", "personality", "goal", "current_location", "status", "privacy_level", "privacy_status"]
  | .locations => ["id", "name", "location_type", "description", "rules", "atmosphere", "status", "privacy_level", "privacy_status"]
  | .relationships => ["id", "source_character_id", "target_character_id", "relationship_type", "description", "status",
      "valid_from_event_id", "valid_to_event_id", "certainty", "privacy_level", "privacy_status"]

def metadata : List String := ["id", "privacy_level", "privacy_status"]

abbrev Record := Dict String Json

/-- What the Python runtime computes for the service. -/
structure Runtime where
  /-- `str(value)` of a float or a container. -/
  repr : Json → String
  /-- `text.upper()`. -/
  upper : String → String
  /-- `len(canonical(row).encode())`, where the row has a JSON text. -/
  canonicalSize : Record → Nat
  /-- `digest(value)`. -/
  digest : Json → String

variable (runtime : Runtime)

/-- `str(value)`. -/
def str : Json → String
  | .null => "None"
  | .bool value => if value then "True" else "False"
  | .int value => toString value
  | .str value => value
  | other => runtime.repr other

/-- `row.get(field)`, where a missing field is null. -/
def value (row : Record) (field : String) : Json := (row.get? field).getD .null

/-- A record of which there is something: `bool(row)`. -/
def present : Option Record → Bool
  | none => false
  | some row => !row.entries.isEmpty

def keyOf (kind : Kind) (rid : String) : String := kind.name ++ ":" ++ rid

def alphanumeric (char : Char) : Bool := ('a' ≤ char && char ≤ 'z') || ('A' ≤ char && char ≤ 'Z') || ('0' ≤ char && char ≤ '9')

/-- `[A-Za-z0-9][A-Za-z0-9_.-]{0,119}` -/
def recordId : List Char → Bool
  | [] => false
  | first :: rest =>
    alphanumeric first && rest.all (fun char => alphanumeric char || char = '_' || char = '.' || char = '-') && rest.length ≤ 119

def split (key : String) : Except Failure (Kind × String) :=
  let (kind, rest) := key.toList.span (· ≠ ':')
  match rest with
  | [] => throw (.value "not enough values to unpack")
  | _ :: rid =>
    match kinds.find? fun known => known.name = String.ofList kind with
    | none => throw (.value "FORK_RECORD_ID_INVALID")
    | some known => if recordId rid then pure (known, String.ofList rid) else throw (.value "FORK_RECORD_ID_INVALID")

def nested : Json → Bool
  | .list _ | .dict _ => true
  | _ => false

def Kind.required : Kind → List String
  | .locations | .characters => ["name"]
  | .relationships => ["source_character_id", "target_character_id", "relationship_type"]

def filled : Json → Bool
  | .str text => strip text ≠ ""
  | _ => false

mutual
/-- Every float of a value is finite, which `allow_nan=False` asks for. -/
def finite : Json → Bool
  | .float .nan | .float (.inf _) => false
  | .list items => finiteItems items
  | .dict fields => finiteFields fields
  | _ => true

def finiteItems : List Json → Bool
  | [] => true
  | item :: rest => finite item && finiteItems rest

def finiteFields : List (String × Json) → Bool
  | [] => true
  | (_, value) :: rest => finite value && finiteFields rest
end

def supported (kind : Kind) (row : Record) : Except Failure Record := do
  reject (row.keys.any fun field => field ∉ kind.fields) (.value "FORK_UNSUPPORTED_STRUCTURED_FIELDS")
  reject (kind.required.any fun field => !filled (value row field)) (.value "FORK_STRUCTURED_REQUIRED_FIELD_INVALID")
  reject (!finite (.dict row.entries)) (.value "Out of range float values are not JSON compliant")
  reject (runtime.canonicalSize row > 64 * 1024) (.value "FORK_STRUCTURED_RECORD_SIZE_LIMIT")
  reject (kind = .relationships && ((value row "valid_from_event_id").truthy || (value row "valid_to_event_id").truthy))
    (.value "FORK_EVENT_REFERENCE_REQUIRES_EVENT_OWNER")
  reject (row.values.any nested) (.value "FORK_UNSUPPORTED_EMBEDDED_STRUCTURE")
  return row

theorem finite_of_mem {fields : List (String × Json)} {item : Json} (all : finiteFields fields = true)
    (member : (key, item) ∈ fields) : finite item = true := by
  induction fields with
  | nil => cases member
  | cons field rest ih =>
    rw [finiteFields, Bool.and_eq_true] at all
    rcases List.mem_cons.mp member with rfl | later
    · exact all.1
    · exact ih all.2 later

theorem eq_self {value : Json} (scalar : nested value = false) (whole : finite value = true) : value.eq value = true := by
  cases value with
  | null | bool | int | str => simp [Json.eq, Json.sameNumber, Json.number?]
  | float number => cases number <;> simp_all [Json.eq, Json.sameNumber, Json.number?, finite]
  | list | dict => cases scalar

theorem supported_eq_self {row : Record} {item : Json} (done : supported runtime kind row = .ok result)
    (member : (key, item) ∈ row.entries) : item.eq item = true := by
  simp only [supported, bind_ok, reject_ok, Bool.not_eq_false', pure_ok] at done
  obtain ⟨_, _, _, _, _, whole, _, _, _, _, _, scalars, _⟩ := done
  refine eq_self ?_ (finite_of_mem (by simpa [finite] using whole) member)
  rw [← Bool.not_eq_true]
  intro inner
  rw [← Bool.not_eq_true, List.any_eq_true] at scalars
  exact scalars ⟨item, List.mem_map.mpr ⟨_, member, rfl⟩, inner⟩

/-- A field that names a record of some kind. -/
structure Reference where
  field : String
  kind : Kind
  rid : Json
  deriving DecidableEq

/-- `f'{kind}:{rid}'`. -/
def Reference.target (reference : Reference) : String := keyOf reference.kind (str runtime reference.rid)

def references (kind : Kind) (row : Record) : List Reference :=
  match kind with
  | .characters =>
    if (value row "current_location").truthy then [⟨"current_location", .locations, value row "current_location"⟩] else []
  | .relationships =>
    if row.entries.isEmpty then []
    else ["source_character_id", "target_character_id"].map fun field => ⟨field, .characters, value row field⟩
  | .locations => []

def mapped (kind : Kind) (row : Record) (mapping : Dict String String) : Except Failure Record := do
  let result ← supported runtime kind row
  (references kind row).foldlM (fun result reference => do
    let target ← fetch (mapping.get? (reference.target runtime)) (.value "FORK_REFERENCE_NOT_SELECTED_OR_UNMAPPED")
    let (_, rid) ← split target
    return result.set reference.field (.str rid)) result

/-- The fields of a record that are its own; an empty record has no content. -/
def content (row : Option Record) : Option Record :=
  match row with
  | some row => if row.entries.isEmpty then none else some (row.filterKeys (· ∉ metadata))
  | none => none

def active (row : Record) : Bool := !(value row "status").eq (.str "ARCHIVED")

def live (row : Option Record) : Bool := row.any active

/-- `_PRIVACY_ORDER`. -/
inductive Privacy where
  | cloudAllowed | redactBeforeCloud | localOnly
  deriving DecidableEq

def Privacy.text : Privacy → String
  | .cloudAllowed => "CLOUD_ALLOWED"
  | .redactBeforeCloud => "REDACT_BEFORE_CLOUD"
  | .localOnly => "LOCAL_ONLY"

def Privacy.order : Privacy → Nat
  | .cloudAllowed => 0
  | .redactBeforeCloud => 1
  | .localOnly => 2

/-- Anything but a known level is local only. -/
def normalizePrivacy (level : Json) : Privacy :=
  if level = .str "CLOUD_ALLOWED" then .cloudAllowed
  else if level = .str "REDACT_BEFORE_CLOUD" then .redactBeforeCloud
  else .localOnly

/-- The later level when it is the stricter one. -/
def Privacy.max (first later : Privacy) : Privacy := if later.order > first.order then later else first

def mergePrivacy (levels : List Json) : Privacy :=
  match levels.map normalizePrivacy with
  | [] => .localOnly
  | first :: rest => rest.foldl Privacy.max first

theorem name_no_colon (kind : Kind) : ∀ char ∈ kind.name.toList, char ≠ ':' := by
  have none : kind.name.toList.all (· ≠ ':') = true := by cases kind <;> decide
  intro char inside
  simpa using List.all_eq_true.mp none char inside

theorem find_name (kind : Kind) : kinds.find? (fun known => known.name = kind.name) = some kind := by
  cases kind <;> decide

theorem split_ok {kind : Kind} {rid : String} : split (keyOf kind rid) = .ok result ↔ recordId rid.toList ∧ result = (kind, rid) := by
  have whole : (keyOf kind rid).toList = kind.name.toList ++ ':' :: rid.toList := by simp [keyOf]
  have parts : (keyOf kind rid).toList.span (· ≠ ':') = (kind.name.toList, ':' :: rid.toList) := by
    rw [List.span_eq_takeWhile_dropWhile, whole]
    have kept : ∀ char ∈ kind.name.toList, decide (char ≠ ':') = true := fun char inside => decide_eq_true (name_no_colon kind char inside)
    rw [List.takeWhile_append_of_pos kept, List.dropWhile_append_of_pos kept]
    simp
  unfold split
  rw [parts]
  simp only [String.ofList_toList, find_name]
  by_cases valid : recordId rid.toList = true
  · simp only [valid, if_true, pure_ok, true_and]
    exact eq_comm
  · simp [valid, throw_ok]

end NovelStudio.Forks
