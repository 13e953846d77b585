import NovelStudio.Forks.Comparison

/-! What one compared record becomes: every field of two live records is merged by
itself, and an archived or missing record goes by the one choice for it. -/

namespace NovelStudio.Forks

open Library Experimental

@[simp] theorem value_set_self (row : Record) (field : String) (new : Json) : value (row.set field new) field = new := by
  simp [value]

theorem value_set_ne (row : Record) (new : Json) (different : other ≠ field) : value (row.set field new) other = value row other := by
  simp [value, Dict.get?_set_ne _ _ different]

theorem value_erase_ne (row : Record) (different : other ≠ field) : value (row.erase field) other = value row other := by
  simp [value, Dict.get?_erase, different]

theorem value_of_not_mem {row : Record} (absent : field ∉ row.keys) : value row field = .null := by
  simp [value, Dict.get?_eq_none_iff.mpr absent]

theorem mem_keys_content {row fields : Record} (own : field ∉ metadata) (shown : content (some row) = some fields) :
    field ∈ fields.keys ↔ field ∈ row.keys := by
  simp only [content] at shown
  split at shown
  · cases shown
  · cases shown
    simp [Dict.mem_keys_iff, Dict.get?_filterKeys, own]

theorem restricted_some (base : Record) (left right : Option Record) (row : Record) :
    ∃ shown, restricted base left right (some row) = some shown ∧ ∀ field ∉ metadata, value shown field = value row field := by
  simp only [restricted]
  split
  · exact ⟨row, rfl, fun _ _ => rfl⟩
  · refine ⟨_, rfl, fun field own => ?_⟩
    have level : field ≠ "privacy_level" := fun same => own (by simp [same, metadata])
    have status : field ≠ "privacy_status" := fun same => own (by simp [same, metadata])
    rw [value_erase_ne _ status, value_set_ne _ _ level]

section
variable {runtime : Runtime} {choices : Dict String Side} {key : String} {base left right : Record}

/-- The choice for a field takes the value of the fork. -/
def takesFork (runtime : Runtime) (choices : Dict String Side) (key : String) (base left right : Record) (field : String) : Bool :=
  choices.get? (fieldId runtime key base field left right) = some .fork

def mergedField (runtime : Runtime) (choices : Dict String Side) (key : String) (base left right : Record) (field : String) : Json :=
  merged Json.eq (value base field) (value left field) (value right field) (takesFork runtime choices key base left right field)

theorem compareField_some (found : compareField runtime choices key base left right field = some change) :
    change.field = field ∧ change.chosen = mergedField runtime choices key base left right field := by
  obtain ⟨kind, differs, rfl⟩ := Option.map_eq_some_iff.mp found
  refine ⟨rfl, ?_⟩
  unfold mergedField merged
  rw [differs]
  cases kind with
  | bothSame | rightOnly | leftOnly => simp [Change.chosen]
  | conflict => simp [Change.chosen, takesFork]

theorem compareField_none (same : compareField runtime choices key base left right field = none) :
    mergedField runtime choices key base left right field = value left field := by
  unfold mergedField merged
  rw [Option.map_eq_none_iff.mp same]

theorem value_foldl {changes : String → Option Change} (named : ∀ {field change}, changes field = some change → change.field = field)
    (names : List String) (row : Record) (field : String) :
    value ((names.filterMap changes).foldl (fun result change => result.set change.field change.chosen) row) field =
      if field ∈ names then ((changes field).map Change.chosen).getD (value row field) else value row field := by
  induction names generalizing row with
  | nil => simp
  | cons name rest ih =>
    cases found : changes name with
    | none =>
      rw [List.filterMap_cons_none found, ih]
      by_cases same : field = name
      · simp [same, found]
      · simp [same]
    | some change =>
      rw [List.filterMap_cons_some found, List.foldl_cons, ih, named found]
      by_cases same : field = name
      · simp [same, found]
      · rw [value_set_ne _ _ same]
        simp [same]

theorem mem_fieldNames {base left right : Record} :
    field ∈ fieldNames base left right ↔ field ∈ base.keys ∨ field ∈ left.keys ∨ field ∈ right.keys := by
  rw [fieldNames, List.mem_insertionSort, List.mem_dedup, List.mem_append, List.mem_append, or_assoc]

theorem mem_fieldNames_of_compareField {base' left' right' : Record} (own : field ∉ metadata) (baseShown : content (some base) = some base')
    (leftShown : content (some left) = some left') (rightShown : content (some right) = some right')
    (found : compareField runtime choices key base left right field = some change) : field ∈ fieldNames base' left' right' := by
  rw [mem_fieldNames, mem_keys_content own baseShown, mem_keys_content own leftShown, mem_keys_content own rightShown]
  by_cases inBase : field ∈ base.keys
  · exact .inl inBase
  · by_cases inLeft : field ∈ left.keys
    · exact .inr (.inl inLeft)
    · by_cases inRight : field ∈ right.keys
      · exact .inr (.inr inRight)
      · simp [compareField, difference, value_of_not_mem inBase, value_of_not_mem inLeft, value_of_not_mem inRight, Json.eq] at found

theorem compareFields_ok (done : compareFields runtime choices key base left right = .ok (changes, result)) :
    ∃ (names : List String) (row : Record), changes = names.filterMap (compareField runtime choices key base left right) ∧
      result = some row ∧ ∀ field ∉ metadata,
        value row field = mergedField runtime choices key base left right field ∧
        ∀ {change}, compareField runtime choices key base left right field = some change → change ∈ changes := by
  simp only [compareFields, bind_ok, fetch_ok, pure_ok, Prod.mk.injEq] at done
  obtain ⟨base', baseShown, left', leftShown, right', rightShown, rfl, rfl⟩ := done
  refine ⟨_, _, rfl, rfl, fun field own => ⟨?_, fun {change} found => ?_⟩⟩
  · rw [value_foldl fun found => (compareField_some found).1]
    cases found : compareField runtime choices key base left right field with
    | none => simpa using (compareField_none found).symm
    | some change =>
      rw [if_pos (mem_fieldNames_of_compareField own baseShown leftShown rightShown found)]
      exact (compareField_some found).2
  · exact List.mem_filterMap.mpr ⟨field, mem_fieldNames_of_compareField own baseShown leftShown rightShown found, found⟩

end

theorem value_overlaid (left : Record) (right : Option Record) (own : field ∉ metadata) :
    value (overlaid left right) field =
      if field = "status" then if live right then (right.bind (·.get? "status")).getD (.str "ACTIVE") else .str "ARCHIVED"
      else (right.bind (·.get? field)).getD (value left field) := by
  unfold overlaid
  by_cases status : field = "status"
  · simp [status]
  · rw [value_set_ne _ _ status, if_neg status, value, Dict.get?_update]
    cases right with
    | none => simp [content, value]
    | some row =>
      simp only [content, Option.bind_some]
      split
      · rename_i nothing
        have absent : row.get? field = none := by
          rw [Dict.get?, List.isEmpty_iff.mp nothing]
          rfl
        simp [absent, value]
      · cases found : row.get? field <;> simp [Dict.get?_filterKeys, own, found, value]

section
variable {runtime : Runtime} {choices : Dict String Side} {key : String} {base : Record} {left right : Option Record}

/-- An archived or missing record is one conflict; the fork's side needs an original to write to. -/
theorem compareWhole_ok (done : compareWhole runtime choices key base left right = .ok (changes, result)) :
    (∃ change, changes = [change] ∧ change.id = recordId' runtime key base left right ∧ change.kind = .conflict ∧
      change.choice = choices.get? (recordId' runtime key base left right)) ∧
    (choices.get? (recordId' runtime key base left right) = some .fork ∧ (∃ row, left = some row ∧ result = some (overlaid row right)) ∨
      choices.get? (recordId' runtime key base left right) ≠ some .fork ∧ result = left) := by
  unfold compareWhole at done
  simp only at done
  split at done
  · rename_i chosen
    split at done
    · simp [throw_ok] at done
    · rename_i row
      obtain ⟨rfl, rfl⟩ := Prod.mk.inj (pure_ok.mp done)
      exact ⟨⟨_, rfl, rfl, rfl, rfl⟩, .inl ⟨chosen, row, rfl, rfl⟩⟩
  · rename_i other
    obtain ⟨rfl, rfl⟩ := Prod.mk.inj (pure_ok.mp done)
    exact ⟨⟨_, rfl, rfl, rfl, rfl⟩, .inr ⟨other, rfl⟩⟩

theorem sameRecord_self_of_restricted {result : Option Record} (same : sameRecord (content result) (content left) = true) :
    restricted base left right result = result := by
  cases result with
  | none => rfl
  | some row => simp [restricted, same]

end

def bothLive (left right : Option Record) : Bool := live left && live right

variable {runtime : Runtime} {choices : Dict String Side} {key : String} {base : Record} {left right : Option Record}

theorem compareSides_ok (done : compareSides runtime choices key base left right = .ok (changes, result)) :
    (∃ l r, left = some l ∧ right = some r ∧ bothLive left right = true ∧
        compareFields runtime choices key base l r = .ok (changes, result)) ∨
      bothLive left right = false ∧ compareWhole runtime choices key base left right = .ok (changes, result) := by
  unfold compareSides at done
  split at done
  · rename_i l r
    split at done
    · rename_i live
      exact .inl ⟨l, r, rfl, rfl, live, done⟩
    · rename_i archived
      exact .inr ⟨by simpa [bothLive, live] using archived, done⟩
  · rename_i missing
    refine .inr ⟨?_, done⟩
    match left, right with
    | none, _ => rfl
    | some l, none => simp [bothLive, live]
    | some l, some r => exact (missing l r rfl rfl).elim

theorem compareRecord_ok (done : compareRecord runtime choices key base left right = .ok compared) :
    ∃ result, compareSides runtime choices key base left right = .ok (compared.changes, result) ∧
      compared.desired = restricted base left right result ∧ ∃ rid, split key = .ok (compared.kind, rid) := by
  simp only [compareRecord, bind_ok, pure_ok, Prod.exists] at done
  obtain ⟨changes, result, computed, kind, rid, known, rfl⟩ := done
  exact ⟨result, computed, rfl, rid, known⟩

end NovelStudio.Forks
