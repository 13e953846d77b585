import Mathlib.Data.List.Lex
import Mathlib.Data.List.Sort
import NovelStudio.Layout.Numbers
import NovelStudio.Library.Json

/-! The values of the language that a graph is made of, and their JSON data. -/

namespace NovelStudio.Canvas

open Library

/-- A plain value. What has an identity is known by its reference. -/
inductive JsValue where
  | undefined
  | null
  | bool (value : Bool)
  | number (value : Layout.Num)
  | string (text : String)
  | function (reference : Nat)
  | array (reference : Nat) (items : List JsValue)
  | object (reference : Nat) (fields : List (String × JsValue))

/-- The UTF-16 code units of a character. -/
def charUnits (char : Char) : List Nat :=
  if char.toNat < 0x10000 then [char.toNat]
  else [0xD800 + (char.toNat - 0x10000) / 0x400, 0xDC00 + (char.toNat - 0x10000) % 0x400]

def units (text : String) : List Nat := text.toList.flatMap charUnits

/-- The order of keys, by their code units. -/
abbrev KeyLe {β : Type} (left right : String × β) : Prop := units left.1 ≤ units right.1

/-- `Object.keys(row).sort()`, with what the keys lead to. -/
def sortKeys {β : Type} (fields : List (String × β)) : List (String × β) := fields.insertionSort KeyLe

theorem sortKeys_map {β γ : Type} (change : β → γ) (fields : List (String × β)) :
    sortKeys (fields.map fun field => (field.1, change field.2)) = (sortKeys fields).map fun field => (field.1, change field.2) := by
  unfold sortKeys
  exact (List.map_insertionSort KeyLe KeyLe (fun field : String × β => (field.1, change field.2)) fields fun _ _ _ _ => Iff.rfl).symm

mutual
/-- The data of `JSON.stringify(value)`, its keys in order; none where the value is left out. -/
def json : JsValue → Option Json
  | .undefined | .function _ => none
  | .null => some .null
  | .bool value => some (.bool value)
  | .number (.finite value) => some (.float (.finite value))
  | .number _ => some .null
  | .string text => some (.str text)
  | .array _ items => some (.list (jsonItems items))
  | .object _ fields => some (.dict ((sortKeys (jsonFields fields)).filterMap fun field => field.2.map (field.1, ·)))

def jsonItems : List JsValue → List Json
  | [] => []
  | item :: rest => (json item).getD .null :: jsonItems rest

def jsonFields : List (String × JsValue) → List (String × Option Json)
  | [] => []
  | (key, value) :: rest => (key, json value) :: jsonFields rest
end

theorem jsonItems_eq (items : List JsValue) : jsonItems items = items.map fun item => (json item).getD .null := by
  induction items with
  | nil => rfl
  | cons item rest ih => rw [jsonItems, ih, List.map_cons]

theorem jsonFields_eq (fields : List (String × JsValue)) : jsonFields fields = fields.map fun field => (field.1, json field.2) := by
  induction fields with
  | nil => rfl
  | cons fieldOf rest ih => rw [jsonFields, ih, List.map_cons]

theorem json_object (reference : Nat) (fields : List (String × JsValue)) :
    json (.object reference fields) = some (.dict ((sortKeys fields).filterMap fun field => (json field.2).map (field.1, ·))) := by
  rw [json, jsonFields_eq, sortKeys_map, List.filterMap_map]
  rfl

/-- `row[key]` of a row that has the key. -/
def fieldOf (fields : List (String × JsValue)) (key : String) : Option JsValue := (fields.find? (·.1 = key)).map (·.2)

/-- `row[key] = value`: in place, or at the end. -/
def setField (key : String) (value : JsValue) : List (String × JsValue) → List (String × JsValue)
  | [] => [(key, value)]
  | (name, old) :: rest => if name = key then (key, value) :: rest else (name, old) :: setField key value rest

theorem fieldOf_cons (name : String) (value : JsValue) (rest : List (String × JsValue)) (key : String) :
    fieldOf ((name, value) :: rest) key = if name = key then some value else fieldOf rest key := by
  unfold fieldOf
  rw [List.find?_cons]
  by_cases same : name = key
  · simp [same]
  · simp [same]

variable {fields : List (String × JsValue)}

theorem fieldOf_eq_some_iff (distinct : (fields.map Prod.fst).Nodup) :
    fieldOf fields key = some value ↔ (key, value) ∈ fields := by
  induction fields with
  | nil => simp [fieldOf]
  | cons first rest ih =>
    obtain ⟨name, old⟩ := first
    obtain ⟨fresh, others⟩ := List.nodup_cons.mp distinct
    rw [fieldOf_cons, List.mem_cons]
    split
    · rename_i same
      subst same
      have absent : (name, value) ∉ rest := fun member => fresh (List.mem_map.mpr ⟨_, member, rfl⟩)
      simp [absent, eq_comm]
    · rename_i different
      rw [ih others]
      simp [Ne.symm different]

theorem fieldOf_eq_none_iff : fieldOf fields key = none ↔ key ∉ fields.map Prod.fst := by
  induction fields with
  | nil => simp [fieldOf]
  | cons first rest ih =>
    obtain ⟨name, old⟩ := first
    rw [fieldOf_cons]
    by_cases same : name = key
    · simp [same]
    · simp [same, Ne.symm same, ih]

theorem fieldOf_setField (key : String) (value : JsValue) (fields : List (String × JsValue)) (other : String) :
    fieldOf (setField key value fields) other = if other = key then some value else fieldOf fields other := by
  induction fields with
  | nil =>
    rw [setField, fieldOf_cons]
    simp only [eq_comm]
  | cons first rest ih =>
    obtain ⟨name, old⟩ := first
    rw [setField]
    split
    · rename_i same
      subst same
      rw [fieldOf_cons, fieldOf_cons]
      by_cases wanted : other = name
      · simp [wanted]
      · simp [wanted, Ne.symm wanted]
    · rename_i different
      rw [fieldOf_cons, fieldOf_cons, ih]
      by_cases wanted : other = key
      · subst wanted
        simp [different]
      · simp [wanted]

theorem keys_setField (key : String) (value : JsValue) (fields : List (String × JsValue)) :
    (setField key value fields).map Prod.fst = if key ∈ fields.map Prod.fst then fields.map Prod.fst else fields.map Prod.fst ++ [key] := by
  induction fields with
  | nil => simp [setField]
  | cons first rest ih =>
    obtain ⟨name, old⟩ := first
    by_cases same : name = key
    · simp [setField, same]
    · rw [setField, if_neg same, List.map_cons, ih]
      by_cases present : key ∈ rest.map Prod.fst
      · simp [present]
      · simp [present, Ne.symm same]

theorem fieldOf_filter (keep : String → Bool) (fields : List (String × JsValue)) (key : String) :
    fieldOf (fields.filter fun entry => keep entry.1) key = if keep key then fieldOf fields key else none := by
  induction fields with
  | nil => simp [fieldOf]
  | cons first rest ih =>
    obtain ⟨name, old⟩ := first
    by_cases same : name = key
    · subst same
      cases kept : keep name
      · simpa [List.filter_cons, kept] using ih
      · simp [kept, fieldOf_cons]
    · cases kept : keep name
      · simpa [List.filter_cons, kept, fieldOf_cons, same] using ih
      · simpa [List.filter_cons, kept, fieldOf_cons, same] using ih

theorem fieldOf_map (changed : String) (change : JsValue → JsValue) (fields : List (String × JsValue)) (key : String) :
    fieldOf (fields.map fun entry => (entry.1, if entry.1 = changed then change entry.2 else entry.2)) key =
      (fieldOf fields key).map fun value => if key = changed then change value else value := by
  induction fields with
  | nil => simp [fieldOf]
  | cons first rest ih =>
    obtain ⟨name, old⟩ := first
    rw [List.map_cons, fieldOf_cons, fieldOf_cons, ih]
    split
    · rename_i same
      rw [same]
      rfl
    · rfl

theorem flatMap_charUnits_injective {lefts rights : List Char} (same : lefts.flatMap charUnits = rights.flatMap charUnits) : lefts = rights := by
  have units_ne : ∀ char, charUnits char ≠ [] := by
    intro char
    unfold charUnits
    split <;> simp
  induction lefts generalizing rights with
  | nil =>
    cases rights with
    | nil => rfl
    | cons right rights => exact absurd (List.append_eq_nil_iff.mp same.symm).1 (units_ne right)
  | cons left lefts ih =>
    cases rights with
    | nil => exact absurd (List.append_eq_nil_iff.mp same).1 (units_ne left)
    | cons right rights =>
      rw [List.flatMap_cons, List.flatMap_cons] at same
      have valid : left.toNat < 0xD800 ∨ 0xDFFF < left.toNat ∧ left.toNat < 0x110000 := left.valid
      have valid' : right.toNat < 0xD800 ∨ 0xDFFF < right.toNat ∧ right.toNat < 0x110000 := right.valid
      have head : left.toNat = right.toNat ∧ lefts.flatMap charUnits = rights.flatMap charUnits := by
        unfold charUnits at same ⊢
        split at same
        · split at same
          · simpa using same
          · have first := (List.cons.inj same).1
            omega
        · split at same
          · have first := (List.cons.inj same).1
            omega
          · simp only [List.cons_append, List.nil_append, List.cons.injEq] at same
            exact ⟨by omega, same.2.2⟩
      rw [Char.toNat_inj.mp head.1, ih head.2]

theorem units_injective {left right : String} (same : units left = units right) : left = right :=
  String.toList_inj.mp (flatMap_charUnits_injective same)

def dataFields (fields : List (String × JsValue)) : List (String × Json) :=
  (sortKeys fields).filterMap fun field => (json field.2).map (field.1, ·)

theorem mem_dataFields (distinct : (fields.map Prod.fst).Nodup) {key : String} {data : Json} :
    (key, data) ∈ dataFields fields ↔ (fieldOf fields key).bind json = some data := by
  unfold dataFields
  rw [List.mem_filterMap, Option.bind_eq_some_iff]
  constructor
  · rintro ⟨⟨name, value⟩, member, found⟩
    obtain ⟨_, known, same⟩ := Option.map_eq_some_iff.mp found
    obtain ⟨rfl, rfl⟩ := Prod.mk.inj same
    exact ⟨value, (fieldOf_eq_some_iff distinct).mpr ((List.mem_insertionSort KeyLe).mp member), known⟩
  · rintro ⟨value, found, known⟩
    refine ⟨(key, value), (List.mem_insertionSort KeyLe).mpr ((fieldOf_eq_some_iff distinct).mp found), ?_⟩
    rw [known]
    rfl

theorem keys_dataFields (fields : List (String × JsValue)) : ((dataFields fields).map Prod.fst).Sublist ((sortKeys fields).map Prod.fst) := by
  unfold dataFields
  induction sortKeys fields with
  | nil => exact .slnil
  | cons first rest ih =>
    rw [List.filterMap_cons]
    cases json first.2 with
    | none => exact ih.trans (List.sublist_cons_self ..)
    | some data => exact ih.cons_cons _

theorem dataFields_distinct (distinct : (fields.map Prod.fst).Nodup) : ((dataFields fields).map Prod.fst).Nodup :=
  (((List.perm_insertionSort KeyLe fields).map Prod.fst).nodup_iff.mpr distinct).sublist (keys_dataFields fields)

theorem dataFields_sorted (fields : List (String × JsValue)) : (dataFields fields).Pairwise KeyLe := by
  have sorted : ((sortKeys fields).map Prod.fst).Pairwise fun left right => units left ≤ units right := by
    rw [List.pairwise_map]
    exact List.pairwise_insertionSort KeyLe fields
  have inherited : ((dataFields fields).map Prod.fst).Pairwise fun left right => units left ≤ units right := sorted.sublist (keys_dataFields fields)
  rwa [List.pairwise_map] at inherited

theorem json_object_iff {reference reference' : Nat} {fields' : List (String × JsValue)} (distinct : (fields.map Prod.fst).Nodup)
    (distinct' : (fields'.map Prod.fst).Nodup) :
    json (.object reference fields) = json (.object reference' fields') ↔ ∀ key, (fieldOf fields key).bind json = (fieldOf fields' key).bind json := by
  have members : dataFields fields = dataFields fields' ↔ ∀ key, (fieldOf fields key).bind json = (fieldOf fields' key).bind json := by
    constructor
    · intro same key
      apply Option.ext
      intro data
      rw [← mem_dataFields distinct, ← mem_dataFields distinct', same]
    · intro same
      have perm : (dataFields fields).Perm (dataFields fields') := by
        refine (List.perm_ext_iff_of_nodup (List.Nodup.of_map _ (dataFields_distinct distinct))
          (List.Nodup.of_map _ (dataFields_distinct distinct'))).mpr fun entry => ?_
        rw [mem_dataFields distinct, mem_dataFields distinct', same]
      refine perm.eq_of_pairwise ?_ (dataFields_sorted fields) (dataFields_sorted fields')
      intro one other member member' first second
      have keys : one.1 = other.1 := units_injective (le_antisymm first second)
      exact List.inj_on_of_nodup_map (dataFields_distinct distinct) member (perm.mem_iff.mpr member') keys
  rw [json_object, json_object, ← members]
  simp [dataFields]

end NovelStudio.Canvas
