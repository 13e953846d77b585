import Mathlib.Data.Rat.Defs

/-! JSON values as the Python `json` module reads them: integers and floats are
apart, and an object is its fields in order. -/

namespace NovelStudio.Library

/-- A float that is read or computed; rounding is not modelled. -/
inductive PyFloat where
  | finite (value : Rat)
  | negZero
  | inf (negative : Bool)
  | nan
  deriving DecidableEq

inductive Json where
  | null
  | bool (value : Bool)
  | int (value : Int)
  | float (value : PyFloat)
  | str (value : String)
  | list (items : List Json)
  | dict (fields : List (String × Json))

/-- `fields[key]`, the first of them. -/
def lookup (key : String) : List (String × Json) → Option Json
  | [] => none
  | (name, value) :: rest => if name = key then some value else lookup key rest

/-- `fields[key] = value`: in place, or at the end. -/
def store (key : String) (value : Json) : List (String × Json) → List (String × Json)
  | [] => [(key, value)]
  | (name, old) :: rest => if name = key then (key, value) :: rest else (name, old) :: store key value rest

@[simp] theorem lookup_store_self (key : String) (value : Json) (fields : List (String × Json)) :
    lookup key (store key value fields) = some value := by
  induction fields with
  | nil => simp [store, lookup]
  | cons field rest ih =>
    obtain ⟨name, old⟩ := field
    by_cases same : name = key <;> simp [store, lookup, same, ih]

theorem lookup_store_ne (value : Json) (fields : List (String × Json)) (different : other ≠ key) :
    lookup other (store key value fields) = lookup other fields := by
  induction fields with
  | nil => simp [store, lookup, Ne.symm different]
  | cons field rest ih =>
    obtain ⟨name, old⟩ := field
    by_cases same : name = key
    · simp [store, lookup, same, Ne.symm different]
    · simp [store, lookup, same, ih]

theorem mem_of_lookup {fields : List (String × Json)} (found : lookup key fields = some value) :
    (key, value) ∈ fields := by
  induction fields with
  | nil => cases found
  | cons field rest ih =>
    obtain ⟨name, stored⟩ := field
    simp only [lookup] at found
    split at found
    · rename_i same
      cases found
      exact same ▸ List.mem_cons_self ..
    · exact List.mem_cons_of_mem _ (ih found)

theorem lookup_isSome_iff {fields : List (String × Json)} :
    (lookup key fields).isSome = true ↔ key ∈ fields.map Prod.fst := by
  induction fields with
  | nil => simp [lookup]
  | cons field rest ih =>
    obtain ⟨name, stored⟩ := field
    by_cases same : name = key
    · simp [lookup, same]
    · simp [lookup, same, ih, Ne.symm same]

namespace Json

mutual
/-- Equality of JSON trees is decided by structure. -/
def decideEq : (left right : Json) → Decidable (left = right)
  | .null, .null => isTrue rfl
  | .bool a, .bool b => decidable_of_iff (a = b) (by simp)
  | .int a, .int b => decidable_of_iff (a = b) (by simp)
  | .float a, .float b => decidable_of_iff (a = b) (by simp)
  | .str a, .str b => decidable_of_iff (a = b) (by simp)
  | .list a, .list b =>
    match decideItems a b with
    | isTrue same => isTrue (by rw [same])
    | isFalse different => isFalse (by simpa using different)
  | .dict a, .dict b =>
    match decideFields a b with
    | isTrue same => isTrue (by rw [same])
    | isFalse different => isFalse (by simpa using different)
  | .null, .bool _ | .null, .int _ | .null, .float _ | .null, .str _ | .null, .list _ | .null, .dict _
  | .bool _, .null | .bool _, .int _ | .bool _, .float _ | .bool _, .str _ | .bool _, .list _ | .bool _, .dict _
  | .int _, .null | .int _, .bool _ | .int _, .float _ | .int _, .str _ | .int _, .list _ | .int _, .dict _
  | .float _, .null | .float _, .bool _ | .float _, .int _ | .float _, .str _ | .float _, .list _ | .float _, .dict _
  | .str _, .null | .str _, .bool _ | .str _, .int _ | .str _, .float _ | .str _, .list _ | .str _, .dict _
  | .list _, .null | .list _, .bool _ | .list _, .int _ | .list _, .float _ | .list _, .str _ | .list _, .dict _
  | .dict _, .null | .dict _, .bool _ | .dict _, .int _ | .dict _, .float _ | .dict _, .str _ | .dict _, .list _ =>
    isFalse nofun

def decideItems : (left right : List Json) → Decidable (left = right)
  | [], [] => isTrue rfl
  | x :: xs, y :: ys =>
    match decideEq x y, decideItems xs ys with
    | isTrue head, isTrue tail => isTrue (by rw [head, tail])
    | isFalse head, _ => isFalse (by simp [head])
    | _, isFalse tail => isFalse (by simp [tail])
  | [], _ :: _ | _ :: _, [] => isFalse nofun

def decideFields : (left right : List (String × Json)) → Decidable (left = right)
  | [], [] => isTrue rfl
  | (key, x) :: xs, (name, y) :: ys =>
    match instDecidableEqString key name, decideEq x y, decideFields xs ys with
    | isTrue same, isTrue head, isTrue tail => isTrue (by rw [same, head, tail])
    | isFalse same, _, _ => isFalse (by simp [same])
    | _, isFalse head, _ => isFalse (by simp [head])
    | _, _, isFalse tail => isFalse (by simp [tail])
  | [], _ :: _ | _ :: _, [] => isFalse nofun
end

instance : DecidableEq Json := decideEq

/-- `node.get(key)` where the node is an object. -/
def get? (key : String) : Json → Option Json
  | .dict fields => lookup key fields
  | _ => none

def isDict : Json → Bool
  | .dict _ => true
  | _ => false

/-- `bool(value)`. -/
def truthy : Json → Bool
  | .null => false
  | .bool value => value
  | .int value => value ≠ 0
  | .float value => value ≠ .finite 0 && value ≠ .negZero
  | .str value => value ≠ ""
  | .list items => !items.isEmpty
  | .dict fields => !fields.isEmpty

/-- The number a value compares as: booleans are 0 and 1, and both zeros are equal. -/
def number? : Json → Option PyFloat
  | .bool value => some (.finite (if value then 1 else 0))
  | .int value => some (.finite value)
  | .float .negZero => some (.finite 0)
  | .float value => some value
  | _ => none

/-- `left == right` of two numbers. -/
def sameNumber (left right : Json) : Bool :=
  match left.number?, right.number? with
  | some a, some b => a = b && a ≠ .nan
  | _, _ => false

mutual
/-- `left == right`: containers compare by their parts, objects regardless of order. -/
def eq : Json → Json → Bool
  | .null, .null => true
  | .str a, .str b => a = b
  | .list a, .list b => eqItems a b
  | .dict a, .dict b => eqFields a b && b.all fun field => (lookup field.1 a).isSome
  | left, right => sameNumber left right

def eqItems : List Json → List Json → Bool
  | [], [] => true
  | x :: xs, y :: ys => eq x y && eqItems xs ys
  | _, _ => false

/-- Every field of the first is equal in the second. -/
def eqFields : List (String × Json) → List (String × Json) → Bool
  | [], _ => true
  | (key, x) :: rest, other =>
    (match lookup key other with
      | some y => eq x y
      | none => false) && eqFields rest other
end

theorem eq_of_mem_eqFields {fields other : List (String × Json)} (same : eqFields fields other = true)
    (member : (key, x) ∈ fields) : ∃ y, lookup key other = some y ∧ eq x y = true := by
  induction fields with
  | nil => cases member
  | cons field rest ih =>
    obtain ⟨name, value⟩ := field
    rw [eqFields, Bool.and_eq_true] at same
    rcases List.mem_cons.mp member with here | later
    · cases here
      have head := same.1
      cases found : lookup key other with
      | none => simp [found] at head
      | some y => exact ⟨y, rfl, by simpa [found] using head⟩
    · exact ih same.2 later

theorem lookup_of_eq {fields other : List (String × Json)} (same : eq (.dict fields) (.dict other) = true)
    (found : lookup key other = some y) : ∃ x, lookup key fields = some x ∧ eq x y = true := by
  rw [eq, Bool.and_eq_true, List.all_eq_true] at same
  obtain ⟨x, stored⟩ := Option.isSome_iff_exists.mp (same.2 _ (mem_of_lookup found))
  obtain ⟨z, again, equal⟩ := eq_of_mem_eqFields same.1 (mem_of_lookup stored)
  cases found.symm.trans again
  exact ⟨x, stored, equal⟩

theorem dict_of_eq {value : Json} (same : eq value (.dict other) = true) : ∃ fields, value = .dict fields := by
  cases value with
  | dict fields => exact ⟨fields, rfl⟩
  | _ => simp [eq, sameNumber, number?] at same

theorem eq_str_iff {value : Json} {text : String} : eq value (.str text) = true ↔ value = .str text := by
  cases value with
  | str other => simp [eq]
  | _ => simp [eq, sameNumber, number?]

end Json
end NovelStudio.Library

/-! Python equality is symmetric on values whose objects name every field once. -/

namespace NovelStudio.Library.Json

mutual
/-- No object names a field twice. -/
def distinct : Json → Bool
  | .list items => distinctItems items
  | .dict fields => (fields.map Prod.fst).Nodup && distinctFields fields
  | _ => true

def distinctItems : List Json → Bool
  | [] => true
  | item :: rest => distinct item && distinctItems rest

def distinctFields : List (String × Json) → Bool
  | [] => true
  | (_, value) :: rest => distinct value && distinctFields rest
end

variable {fields : List (String × Json)}

theorem lookup_of_mem (unique : (fields.map Prod.fst).Nodup)
    (member : (key, value) ∈ fields) : lookup key fields = some value := by
  induction fields with
  | nil => cases member
  | cons field rest ih =>
    obtain ⟨name, stored⟩ := field
    rw [List.map_cons, List.nodup_cons] at unique
    rcases List.mem_cons.mp member with here | later
    · cases here
      simp [lookup]
    · have other : name ≠ key := fun same => unique.1 (same ▸ List.mem_map.mpr ⟨_, later, rfl⟩)
      rw [lookup, if_neg other]
      exact ih unique.2 later

theorem distinct_of_mem (unique : distinctFields fields = true)
    (member : (key, value) ∈ fields) : distinct value = true := by
  induction fields with
  | nil => cases member
  | cons field rest ih =>
    rw [distinctFields, Bool.and_eq_true] at unique
    rcases List.mem_cons.mp member with rfl | later
    · exact unique.1
    · exact ih unique.2 later

theorem eqFields_of_forall {other : List (String × Json)}
    (same : ∀ key x, (key, x) ∈ fields → ∃ y, lookup key other = some y ∧ eq x y = true) :
    eqFields fields other = true := by
  induction fields with
  | nil => simp [eqFields]
  | cons field rest ih =>
    obtain ⟨key, x⟩ := field
    obtain ⟨y, found, equal⟩ := same key x (List.mem_cons_self ..)
    rw [eqFields, Bool.and_eq_true, found]
    exact ⟨equal, ih fun key x member => same key x (List.mem_cons_of_mem _ member)⟩

theorem sameNumber_symm (left right : Json) : sameNumber left right = sameNumber right left := by
  unfold sameNumber
  cases left.number? <;> cases right.number? <;> try rfl
  rename_i a b
  by_cases same : a = b
  · rw [same]
  · simp [same, Ne.symm same]

mutual
theorem eq_symm : (left right : Json) → distinct left = true → distinct right = true → eq left right = true →
    eq right left = true
  | .dict a, .dict b => fun first second same => by
    rw [distinct, Bool.and_eq_true, decide_eq_true_eq] at first second
    rw [eq, Bool.and_eq_true, List.all_eq_true] at same
    have back := eqFields_symm a b first.2 second.2 same.1
    rw [eq, Bool.and_eq_true, List.all_eq_true]
    refine ⟨eqFields_of_forall fun key y member => ?_, fun field member => ?_⟩
    · obtain ⟨x, found⟩ := Option.isSome_iff_exists.mp (same.2 _ member)
      obtain ⟨y', stored, equal⟩ := back key x (mem_of_lookup found)
      cases stored.symm.trans (lookup_of_mem second.1 member)
      exact ⟨x, found, equal⟩
    · obtain ⟨y, stored, _⟩ := back field.1 field.2 member
      simp [stored]
  | .list a, .list b => fun first second same => by
    rw [distinct] at first second
    rw [eq] at same ⊢
    exact eqItems_symm a b first second same
  | .null, right => fun _ _ same => by
    cases right <;> simp_all [eq, sameNumber, number?]
  | .bool a, right => fun _ _ same => by
    cases right <;> simp_all [eq, sameNumber_symm (.bool a)]
  | .int a, right => fun _ _ same => by
    cases right <;> simp_all [eq, sameNumber_symm (.int a)]
  | .float a, right => fun _ _ same => by
    cases right <;> simp_all [eq, sameNumber_symm (.float a)]
  | .str a, right => fun _ _ same => by
    cases right <;> simp_all [eq, sameNumber, number?]
  | .list a, .null | .list a, .bool _ | .list a, .int _ | .list a, .float _ | .list a, .str _ | .list a, .dict _
  | .dict a, .null | .dict a, .bool _ | .dict a, .int _ | .dict a, .float _ | .dict a, .str _ | .dict a, .list _ =>
    fun _ _ same => by simp [eq, sameNumber, number?] at same

theorem eqItems_symm : (left right : List Json) → distinctItems left = true → distinctItems right = true →
    eqItems left right = true → eqItems right left = true
  | [], [] => fun _ _ same => same
  | x :: xs, y :: ys => fun first second same => by
    rw [distinctItems, Bool.and_eq_true] at first second
    rw [eqItems, Bool.and_eq_true] at same ⊢
    exact ⟨eq_symm x y first.1 second.1 same.1, eqItems_symm xs ys first.2 second.2 same.2⟩
  | [], _ :: _ | _ :: _, [] => fun _ _ same => by simp [eqItems] at same

theorem eqFields_symm : (fields other : List (String × Json)) → distinctFields fields = true →
    distinctFields other = true → eqFields fields other = true →
    ∀ key x, (key, x) ∈ fields → ∃ y, lookup key other = some y ∧ eq y x = true
  | [], _ => fun _ _ _ _ _ member => nomatch member
  | (name, value) :: rest, other => fun first second same key x member => by
    rw [distinctFields, Bool.and_eq_true] at first
    rw [eqFields, Bool.and_eq_true] at same
    rcases List.mem_cons.mp member with here | later
    · cases here
      have head := same.1
      cases found : lookup name other with
      | none => simp [found] at head
      | some y =>
        refine ⟨y, rfl, eq_symm value y first.1 (distinct_of_mem second (mem_of_lookup found)) ?_⟩
        simpa [found] using head
    · exact eqFields_symm rest other first.2 second same.2 key x later
end

end NovelStudio.Library.Json
