import NovelStudio.Library.Json

/-! What is known of the text of a JSON value: whether there is one, and when two values have the same one. -/

namespace NovelStudio.Library.Json

mutual
def finite : Json → Bool
  | .float (.finite _) | .float .negZero => true
  | .float _ => false
  | .list items => finiteItems items
  | .dict fields => finiteFields fields
  | _ => true

def finiteItems : List Json → Bool
  | [] => true
  | item :: rest => finite item && finiteItems rest

def finiteFields : List (String × Json) → Bool
  | [] => true
  | (_, value) :: rest => finite value && finiteFields rest
end

mutual
/-- Two values have the same text, where the fields of an object are sorted. -/
def sameText : Json → Json → Bool
  | .null, .null => true
  | .bool a, .bool b => a = b
  | .int a, .int b => a = b
  | .float a, .float b => a = b
  | .str a, .str b => a = b
  | .list a, .list b => sameItems a b
  | .dict a, .dict b => a.length = b.length && sameFields a b
  | _, _ => false

def sameItems : List Json → List Json → Bool
  | [], [] => true
  | x :: xs, y :: ys => sameText x y && sameItems xs ys
  | _, _ => false

def sameFields : List (String × Json) → List (String × Json) → Bool
  | [], _ => true
  | (key, x) :: rest, other =>
    (match lookup key other with
      | some y => sameText x y
      | none => false) && sameFields rest other
end

/-- The fields of an object; no fields where it is none. -/
def fields : Json → List (String × Json)
  | .dict fields => fields
  | _ => []

mutual
theorem sameText_refl : (value : Json) → value.distinct = true → sameText value value = true
  | .null => fun _ => rfl
  | .bool _ | .int _ | .float _ | .str _ => fun _ => by simp [sameText]
  | .list items => fun unique => by
    rw [distinct] at unique
    exact sameItems_refl items unique
  | .dict fields => fun unique => by
    rw [distinct, Bool.and_eq_true, decide_eq_true_eq] at unique
    rw [sameText, Bool.and_eq_true]
    exact ⟨by simp, sameFields_refl fields fields unique.2 fun key value member => lookup_of_mem unique.1 member⟩

theorem sameItems_refl : (items : List Json) → distinctItems items = true → sameItems items items = true
  | [] => fun _ => rfl
  | item :: rest => fun unique => by
    rw [distinctItems, Bool.and_eq_true] at unique
    rw [sameItems, Bool.and_eq_true]
    exact ⟨sameText_refl item unique.1, sameItems_refl rest unique.2⟩

theorem sameFields_refl : (fields other : List (String × Json)) → distinctFields fields = true →
    (∀ key value, (key, value) ∈ fields → lookup key other = some value) → sameFields fields other = true
  | [], _ => fun _ _ => rfl
  | (key, value) :: rest, other => fun unique stored => by
    rw [distinctFields, Bool.and_eq_true] at unique
    rw [sameFields, stored key value (List.mem_cons_self ..), Bool.and_eq_true]
    exact ⟨sameText_refl value unique.1, sameFields_refl rest other unique.2 fun key value member => stored key value (List.mem_cons_of_mem _ member)⟩
end

variable {fields : List (String × Json)}

theorem mem_keys_store : name ∈ (store key value fields).map Prod.fst ↔ name = key ∨ name ∈ fields.map Prod.fst := by
  induction fields with
  | nil => simp [store]
  | cons field rest ih =>
    obtain ⟨other, old⟩ := field
    rw [store]
    split
    · rename_i same
      subst same
      simp
    · rw [List.map_cons, List.mem_cons, ih, List.map_cons, List.mem_cons]
      tauto

theorem nodup_store (unique : (fields.map Prod.fst).Nodup) : ((store key value fields).map Prod.fst).Nodup := by
  induction fields with
  | nil => simp [store]
  | cons field rest ih =>
    obtain ⟨other, old⟩ := field
    rw [List.map_cons, List.nodup_cons] at unique
    rw [store]
    split
    · rename_i same
      subst same
      exact List.nodup_cons.mpr unique
    · rename_i different
      rw [List.map_cons, List.nodup_cons, mem_keys_store, not_or]
      exact ⟨⟨different, unique.1⟩, ih unique.2⟩

theorem distinctFields_store (value_distinct : value.distinct = true) (each : distinctFields fields = true) :
    distinctFields (store key value fields) = true := by
  induction fields with
  | nil => simp [store, distinctFields, value_distinct]
  | cons field rest ih =>
    obtain ⟨other, old⟩ := field
    rw [distinctFields, Bool.and_eq_true] at each
    rw [store]
    split
    · rw [distinctFields, Bool.and_eq_true]
      exact ⟨value_distinct, each.2⟩
    · rw [distinctFields, Bool.and_eq_true]
      exact ⟨each.1, ih each.2⟩

theorem distinct_store (value_distinct : value.distinct = true) (distinct : (Json.dict fields).distinct = true) :
    (Json.dict (store key value fields)).distinct = true := by
  rw [Json.distinct, Bool.and_eq_true, decide_eq_true_eq] at distinct ⊢
  exact ⟨nodup_store distinct.1, distinctFields_store value_distinct distinct.2⟩

theorem distinctFields_filter (keep : String × Json → Bool) (each : distinctFields fields = true) :
    distinctFields (fields.filter keep) = true := by
  induction fields with
  | nil => rfl
  | cons field rest ih =>
    rw [distinctFields, Bool.and_eq_true] at each
    rw [List.filter_cons]
    split
    · rw [distinctFields, Bool.and_eq_true]
      exact ⟨each.1, ih each.2⟩
    · exact ih each.2

theorem distinct_filter (keep : String × Json → Bool) (distinct : (Json.dict fields).distinct = true) :
    (Json.dict (fields.filter keep)).distinct = true := by
  rw [Json.distinct, Bool.and_eq_true, decide_eq_true_eq] at distinct ⊢
  exact ⟨distinct.1.sublist (List.filter_sublist.map _), distinctFields_filter keep distinct.2⟩

theorem distinct_lookup (distinct : (Json.dict fields).distinct = true) (found : lookup key fields = some value) :
    value.distinct = true := by
  rw [Json.distinct, Bool.and_eq_true] at distinct
  exact distinct_of_mem distinct.2 (mem_of_lookup found)

theorem distinct_fields {value : Json} (distinct : value.distinct = true) : (Json.dict value.fields).distinct = true := by
  cases value with
  | dict fields => exact distinct
  | _ => rfl

theorem lookup_filter (keep : String → Bool) :
    lookup key (fields.filter fun field => keep field.1) = if keep key then lookup key fields else none := by
  induction fields with
  | nil => simp [lookup]
  | cons field rest ih =>
    obtain ⟨name, value⟩ := field
    rw [List.filter_cons]
    by_cases same : name = key
    · subst same
      by_cases kept : keep name = true
      · simp [kept, lookup]
      · simp [kept, ih]
    · by_cases kept : keep name = true
      · simp [kept, lookup, same, ih]
      · simp [kept, lookup, same, ih]

end NovelStudio.Library.Json
