import Mathlib.Algebra.Order.Ring.Rat
import Mathlib.Data.Rat.Defs
import NovelStudio.Library.Fallible
import NovelStudio.Library.Json

/-! The fields of a timeline (`studio_timeline_render.py`): closed objects, bounded integers and numbers, identities and booleans. What is read
is read again from the value that it is written as. -/

namespace NovelStudio.Timelines

open Library

def MAX_DURATION_MS : Int := 600000
def MAX_CLIPS : Nat := 30
def MAX_CAPTION_CHARACTERS : Nat := 32000

/-- A `ValueError`. -/
structure Failure where
  code : String
  deriving DecidableEq

abbrev Row := List (String × Json)

def refuse (bad : Bool) (code : String) : Except Failure Unit := reject bad ⟨code⟩

def object (value : Json) (allowed required : List String) : Except Failure Row :=
  match value with
  | .dict row => do
    refuse (row.any (fun field => !allowed.contains field.1) || required.any fun key => (lookup key row).isNone) "STUDIO_TIMELINE_FIELDS_INVALID"
    return row
  | _ => throw ⟨"STUDIO_TIMELINE_FIELDS_INVALID"⟩

/-- `row[key]`, of a field that is there. -/
def Row.item (row : Row) (key : String) : Json := (lookup key row).getD .null

/-- `row.get(key, default)`. -/
def Row.get (row : Row) (key : String) (default : Json) : Json := (lookup key row).getD default

/-- `key in row`. -/
def Row.has (row : Row) (key : String) : Bool := (lookup key row).isSome

def integer (value : Json) (minimum maximum : Int) : Except Failure Int :=
  match value with
  | .int number => do
    refuse (!(minimum ≤ number && number ≤ maximum)) "STUDIO_TIMELINE_INTEGER_INVALID"
    return number
  | _ => throw ⟨"STUDIO_TIMELINE_INTEGER_INVALID"⟩

/-- `re.fullmatch(r"[A-Za-z0-9][A-Za-z0-9_-]{0,239}", value)`. -/
def isIdentity (text : String) : Bool :=
  match text.toList with
  | [] => false
  | first :: rest => first.isAlphanum && rest.length ≤ 239 && rest.all fun char => char.isAlphanum || char = '_' || char = '-'

def identity (value : Json) : Except Failure String :=
  match value with
  | .str text => do
    refuse (!isIdentity text) "STUDIO_TIMELINE_ID_INVALID"
    return text
  | _ => throw ⟨"STUDIO_TIMELINE_ID_INVALID"⟩

def boolean (value : Json) : Except Failure Bool :=
  match value with
  | .bool truth => return truth
  | _ => throw ⟨"STUDIO_TIMELINE_BOOLEAN_INVALID"⟩

/-- `low <= value <= high` of a float. -/
def between (low high : Int) : PyFloat → Bool
  | .finite value => (low : Rat) ≤ value && value ≤ (high : Rat)
  | .negZero => low ≤ 0 && 0 ≤ high
  | .inf _ | .nan => false

/-- `number`: an integer becomes a float. -/
def number (value : Json) (low high : Int) (code : String) : Except Failure PyFloat :=
  match value with
  | .int integer => do
    refuse (!(low ≤ integer && integer ≤ high)) code
    return .finite integer
  | .float float => do
    refuse (!between low high float) code
    return float
  | _ => throw ⟨code⟩

/-- `value == 0` of a float. -/
def isZero (float : PyFloat) : Bool := float = .finite 0 || float = .negZero

variable {value : Json} {row : Row} {allowed required : List String} {low high number' : Int} {text code : String}

@[simp] theorem refuse_ok {bad : Bool} {result : Unit} : refuse bad code = .ok result ↔ bad = false := reject_ok

theorem object_ok : object value allowed required = .ok row ↔
    value = .dict row ∧ (∀ field ∈ row, field.1 ∈ allowed) ∧ ∀ key ∈ required, (lookup key row).isSome = true := by
  cases value with
  | dict fields =>
    simp only [object, bind_ok, refuse_ok, pure_ok, Bool.or_eq_false_iff, List.any_eq_false, Bool.not_eq_true', Bool.not_eq_true,
      Option.isNone_eq_false_iff, Json.dict.injEq, List.contains_eq_mem, decide_eq_false_iff_not, not_not]
    constructor
    · rintro ⟨_, ⟨closed, there⟩, rfl⟩
      exact ⟨rfl, closed, there⟩
    · rintro ⟨rfl, closed, there⟩
      exact ⟨(), ⟨closed, there⟩, rfl⟩
  | _ => simp [object, throw_ok]

theorem integer_ok {result : Int} : integer value low high = .ok result ↔ value = .int result ∧ low ≤ result ∧ result ≤ high := by
  cases value with
  | int stored =>
    simp only [integer, bind_ok, refuse_ok, pure_ok, Bool.not_eq_false', Bool.and_eq_true, decide_eq_true_eq, Json.int.injEq]
    constructor
    · rintro ⟨_, bounds, rfl⟩
      exact ⟨rfl, bounds⟩
    · rintro ⟨rfl, bounds⟩
      exact ⟨(), bounds, rfl⟩
  | _ => simp [integer, throw_ok]

theorem identity_ok : identity value = .ok text ↔ value = .str text ∧ isIdentity text = true := by
  cases value with
  | str stored =>
    simp only [identity, bind_ok, refuse_ok, pure_ok, Bool.not_eq_false', Json.str.injEq]
    constructor
    · rintro ⟨_, right, rfl⟩
      exact ⟨rfl, right⟩
    · rintro ⟨rfl, right⟩
      exact ⟨(), right, rfl⟩
  | _ => simp [identity, throw_ok]

theorem between_integer {integer : Int} (bounds : low ≤ integer ∧ integer ≤ high) : between low high (.finite integer) = true := by
  simp only [between, Bool.and_eq_true, decide_eq_true_eq]
  exact ⟨by exact_mod_cast bounds.1, by exact_mod_cast bounds.2⟩

variable {float : PyFloat}

theorem number_ok (done : number value low high code = .ok float) : between low high float = true := by
  cases value with
  | int integer =>
    simp only [number, bind_ok, refuse_ok, pure_ok, Bool.not_eq_false', Bool.and_eq_true, decide_eq_true_eq] at done
    obtain ⟨_, bounds, rfl⟩ := done
    exact between_integer bounds
  | float stored =>
    simp only [number, bind_ok, refuse_ok, pure_ok, Bool.not_eq_false'] at done
    obtain ⟨_, bounds, rfl⟩ := done
    exact bounds
  | _ => simp [number, throw_ok] at done

theorem number_float : number (.float float) low high code = .ok float ↔ between low high float = true := by
  simp only [number, bind_ok, refuse_ok, pure_ok, Bool.not_eq_false', and_true]
  exact ⟨fun ⟨_, bounds⟩ => bounds, fun bounds => ⟨(), bounds⟩⟩

theorem integer_again {result : Int} (done : integer value low high = .ok result) : integer (.int result) low high = .ok result :=
  integer_ok.mpr ⟨rfl, (integer_ok.mp done).2⟩

theorem identity_again (done : identity value = .ok text) : identity (.str text) = .ok text :=
  identity_ok.mpr ⟨rfl, (identity_ok.mp done).2⟩

theorem number_again (done : number value low high code = .ok float) : number (.float float) low high code = .ok float :=
  number_float.mpr (number_ok done)

end NovelStudio.Timelines
