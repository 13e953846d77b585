import Mathlib.Algebra.GroupWithZero.Nat
import Mathlib.Algebra.Order.BigOperators.Group.List
import Mathlib.Algebra.Order.Group.Nat
import Mathlib.Data.List.Induction
import Mathlib.Data.List.Nodup

/-! Dictionaries that iterate in insertion order: storing under a present key
keeps its position, a new key goes last. Keys are distinct by construction. -/

namespace NovelStudio.Library

universe u v w

structure Dict (κ : Type u) (ν : Type v) where
  entries : List (κ × ν)
  distinct : (entries.map Prod.fst).Nodup
  deriving DecidableEq

namespace Dict
variable {κ : Type u} {ν : Type v} {μ : Type w}

def empty : Dict κ ν := ⟨[], List.nodup_nil⟩

instance : EmptyCollection (Dict κ ν) := ⟨empty⟩
instance : Inhabited (Dict κ ν) := ⟨empty⟩

def keys (dict : Dict κ ν) : List κ := dict.entries.map Prod.fst

def values (dict : Dict κ ν) : List ν := dict.entries.map Prod.snd

/-- Apply a function to every stored value, in place. -/
def mapValues (dict : Dict κ ν) (change : κ → ν → μ) : Dict κ μ :=
  ⟨dict.entries.map fun entry => (entry.1, change entry.1 entry.2), by
    simpa [Function.comp_def] using dict.distinct⟩

variable [DecidableEq κ]

def get? (dict : Dict κ ν) (key : κ) : Option ν :=
  (dict.entries.find? fun entry => entry.1 = key).map Prod.snd

def contains (dict : Dict κ ν) (key : κ) : Bool := decide (key ∈ dict.keys)

private def store (entries : List (κ × ν)) (key : κ) (value : ν) : List (κ × ν) :=
  if key ∈ entries.map Prod.fst then
    entries.map fun entry => if entry.1 = key then (key, value) else entry
  else entries ++ [(key, value)]

private theorem keys_store (entries : List (κ × ν)) (key : κ) (value : ν) :
    (store entries key value).map Prod.fst =
      if key ∈ entries.map Prod.fst then entries.map Prod.fst else entries.map Prod.fst ++ [key] := by
  unfold store
  split
  · rw [List.map_map]
    apply List.map_congr_left
    intro entry _
    by_cases same : entry.1 = key <;> simp [same]
  · simp

/-- `dict[key] = value`. -/
def set (dict : Dict κ ν) (key : κ) (value : ν) : Dict κ ν :=
  ⟨store dict.entries key value, by
    rw [keys_store]
    split
    · exact dict.distinct
    · rename_i absent
      exact List.nodup_append.mpr ⟨dict.distinct, List.nodup_singleton key,
        fun present member other single same => by
          rw [List.mem_singleton.mp single] at same
          exact absent (same ▸ member)⟩⟩

/-- `dict.pop(key, None)`, without the popped value. -/
def erase (dict : Dict κ ν) (key : κ) : Dict κ ν :=
  ⟨dict.entries.filter fun entry => entry.1 ≠ key,
    dict.distinct.sublist (List.filter_sublist.map Prod.fst)⟩

theorem keys_set (dict : Dict κ ν) (key : κ) (value : ν) :
    (dict.set key value).keys = if key ∈ dict.keys then dict.keys else dict.keys ++ [key] :=
  keys_store dict.entries key value

@[simp] theorem get?_empty (key : κ) : (∅ : Dict κ ν).get? key = none := rfl

omit [DecidableEq κ] in
@[simp] theorem keys_empty : (∅ : Dict κ ν).keys = [] := rfl

omit [DecidableEq κ] in
@[simp] theorem values_empty : (∅ : Dict κ ν).values = [] := rfl

variable {dict : Dict κ ν} {key : κ} {value : ν}

theorem get?_eq_some_iff :
    dict.get? key = some value ↔ (key, value) ∈ dict.entries := by
  unfold get?
  constructor
  · intro found
    obtain ⟨entry, located, rfl⟩ := Option.map_eq_some_iff.mp found
    have same : entry.1 = key := by simpa using List.find?_some located
    rw [← same]
    exact List.mem_of_find?_eq_some located
  · obtain ⟨entries, distinct⟩ := dict
    intro member
    induction entries with
    | nil => cases member
    | cons entry rest ih =>
      rw [List.map_cons, List.nodup_cons] at distinct
      rcases List.mem_cons.mp member with same | later
      · simp [← same]
      · have different : entry.1 ≠ key := by
          intro same
          exact distinct.1 (same ▸ List.mem_map.mpr ⟨(key, value), later, rfl⟩)
        rw [List.find?_cons_of_neg (by simpa using different)]
        exact ih distinct.2 later

theorem get?_eq_none_iff : dict.get? key = none ↔ key ∉ dict.keys := by
  rw [get?, Option.map_eq_none_iff, List.find?_eq_none, keys, List.mem_map]
  simp only [decide_eq_true_eq, not_exists, not_and]

theorem mem_keys_iff : key ∈ dict.keys ↔ ∃ value, dict.get? key = some value := by
  rw [← not_iff_not, ← get?_eq_none_iff]
  cases dict.get? key <;> simp

theorem mem_values_iff :
    value ∈ dict.values ↔ ∃ key, dict.get? key = some value := by
  simp [values, get?_eq_some_iff]

@[simp] theorem contains_iff : dict.contains key = true ↔ key ∈ dict.keys := by
  simp [contains]

private theorem find?_store_self (entries : List (κ × ν)) (key : κ) (value : ν) :
    (store entries key value).find? (fun entry => entry.1 = key) = some (key, value) := by
  unfold store
  split
  · rename_i present
    induction entries with
    | nil => simp at present
    | cons entry rest ih =>
      by_cases same : entry.1 = key
      · simp [same]
      · have later : key ∈ rest.map Prod.fst := by simpa [Ne.symm same] using present
        simpa [same] using ih later
  · rename_i absent
    have before : entries.find? (fun entry => entry.1 = key) = none :=
      List.find?_eq_none.mpr fun entry member same =>
        absent (List.mem_map.mpr ⟨entry, member, by simpa using same⟩)
    simp [List.find?_append, before]

private theorem find?_store_ne (entries : List (κ × ν)) (value : ν) (different : other ≠ key) :
    (store entries key value).find? (fun entry => entry.1 = other) =
      entries.find? fun entry => entry.1 = other := by
  unfold store
  split
  · rename_i present
    clear present
    induction entries with
    | nil => rfl
    | cons entry rest ih =>
      by_cases same : entry.1 = key
      · simpa [same, Ne.symm different] using ih
      · by_cases wanted : entry.1 = other
        · simp [wanted, different]
        · simpa [same, wanted] using ih
  · simp [List.find?_append, Ne.symm different]

@[simp] theorem get?_set_self (dict : Dict κ ν) (key : κ) (value : ν) :
    (dict.set key value).get? key = some value := by
  simp [get?, set, find?_store_self]

theorem get?_set_ne (dict : Dict κ ν) (value : ν) (different : other ≠ key) :
    (dict.set key value).get? other = dict.get? other := by
  simp [get?, set, find?_store_ne _ _ different]

theorem get?_set (dict : Dict κ ν) (key other : κ) (value : ν) :
    (dict.set key value).get? other = if other = key then some value else dict.get? other := by
  by_cases same : other = key
  · simp [same]
  · simp [same, get?_set_ne dict value same]

theorem get?_erase (dict : Dict κ ν) (key other : κ) :
    (dict.erase key).get? other = if other = key then none else dict.get? other := by
  by_cases same : other = key
  · subst other
    rw [if_pos rfl, get?_eq_none_iff]
    simp [keys, erase]
  · rw [if_neg same]
    apply Option.ext
    intro value
    simp [get?_eq_some_iff, erase, same]

@[simp] theorem get?_erase_self (dict : Dict κ ν) (key : κ) : (dict.erase key).get? key = none := by
  simp [get?_erase]

@[simp] theorem get?_mapValues (dict : Dict κ ν) (change : κ → ν → μ) (key : κ) :
    (dict.mapValues change).get? key = (dict.get? key).map (change key) := by
  apply Option.ext
  intro value
  simp only [get?_eq_some_iff, mapValues, List.mem_map, Option.map_eq_some_iff, Prod.mk.injEq]
  constructor
  · rintro ⟨⟨other, stored⟩, member, rfl, rfl⟩
    exact ⟨stored, member, rfl⟩
  · rintro ⟨stored, member, rfl⟩
    exact ⟨(key, stored), member, rfl, rfl⟩

omit [DecidableEq κ] in
@[simp] theorem keys_mapValues (dict : Dict κ ν) (change : κ → ν → μ) :
    (dict.mapValues change).keys = dict.keys := by
  simp [keys, mapValues]

omit [DecidableEq κ] in
theorem mapValues_mapValues {ρ : Type*} (dict : Dict κ ν) (change : κ → ν → μ) (later : κ → μ → ρ) :
    (dict.mapValues change).mapValues later = dict.mapValues fun key value => later key (change key value) := by
  simp [mapValues]

omit [DecidableEq κ] in
theorem mapValues_congr {change other : κ → ν → μ}
    (same : ∀ entry ∈ dict.entries, change entry.1 entry.2 = other entry.1 entry.2) : dict.mapValues change = dict.mapValues other := by
  have entries : (dict.entries.map fun entry => (entry.1, change entry.1 entry.2)) = dict.entries.map fun entry => (entry.1, other entry.1 entry.2) :=
    List.map_congr_left fun entry member => by rw [same entry member]
  simp only [mapValues, entries]

theorem mapValues_set (dict : Dict κ ν) (key : κ) (value : ν) (change : κ → ν → μ) :
    (dict.set key value).mapValues change = (dict.mapValues change).set key (change key value) := by
  have keys : (dict.entries.map fun entry => (entry.1, change entry.1 entry.2)).map Prod.fst = dict.entries.map Prod.fst := by
    simp [Function.comp_def]
  have entries : (store dict.entries key value).map (fun entry => (entry.1, change entry.1 entry.2)) =
      store (dict.entries.map fun entry => (entry.1, change entry.1 entry.2)) key (change key value) := by
    unfold store
    rw [keys]
    split
    · rw [List.map_map, List.map_map]
      apply List.map_congr_left
      intro entry _
      by_cases same : entry.1 = key <;> simp [same]
    · simp
  simp only [mapValues, set, entries]

theorem set_set (dict : Dict κ ν) (key : κ) (first second : ν) : (dict.set key first).set key second = dict.set key second := by
  obtain ⟨entries, distinct⟩ := dict
  have present : key ∈ (store entries key first).map Prod.fst := by
    rw [keys_store]
    split
    · assumption
    · simp
  simp only [set, mk.injEq]
  rw [store, if_pos present]
  unfold store
  split
  · rw [List.map_map]
    apply List.map_congr_left
    intro entry _
    by_cases same : entry.1 = key <;> simp [same]
  · rename_i absent
    rw [List.map_append]
    congr 1
    · conv_rhs => rw [← List.map_id entries]
      apply List.map_congr_left
      intro entry member
      have different : entry.1 ≠ key := fun same => absent (same ▸ List.mem_map_of_mem member)
      simp [different]
    · simp

theorem set_eq_self (found : dict.get? key = some value) : dict.set key value = dict := by
  obtain ⟨entries, distinct⟩ := dict
  have member := get?_eq_some_iff.mp found
  have present : key ∈ entries.map Prod.fst := List.mem_map.mpr ⟨(key, value), member, rfl⟩
  have same : store entries key value = entries := by
    rw [store, if_pos present]
    apply (List.map_congr_left ?_).trans (List.map_id entries)
    intro entry inside
    by_cases here : entry.1 = key
    · rw [if_pos here, id]
      exact (List.inj_on_of_nodup_map distinct inside member here).symm
    · rw [if_neg here, id]
  simp only [set, same]

/-- `{key: value for key, value in dict.items() if keep(key)}`. -/
def filterKeys (dict : Dict κ ν) (keep : κ → Bool) : Dict κ ν :=
  ⟨dict.entries.filter fun entry => keep entry.1, dict.distinct.sublist (List.filter_sublist.map Prod.fst)⟩

theorem get?_filterKeys (dict : Dict κ ν) (keep : κ → Bool) (key : κ) :
    (dict.filterKeys keep).get? key = if keep key then dict.get? key else none := by
  apply Option.ext
  intro value
  by_cases kept : keep key <;> simp [get?_eq_some_iff, filterKeys, kept]

/-- `{key: value for key, value in dict.items() if keep(value)}`. -/
def filterValues (dict : Dict κ ν) (keep : ν → Bool) : Dict κ ν :=
  ⟨dict.entries.filter fun entry => keep entry.2, dict.distinct.sublist (List.filter_sublist.map Prod.fst)⟩

theorem get?_filterValues {keep : ν → Bool} :
    (dict.filterValues keep).get? key = some value ↔ dict.get? key = some value ∧ keep value = true := by
  simp [get?_eq_some_iff, filterValues]

/-- `dict[key] = value`, or `dict.pop(key, None)` without a value. -/
def write (dict : Dict κ ν) (key : κ) : Option ν → Dict κ ν
  | some value => dict.set key value
  | none => dict.erase key

theorem get?_write (dict : Dict κ ν) (key other : κ) (value : Option ν) :
    (dict.write key value).get? other = if other = key then value else dict.get? other := by
  cases value with
  | none => rw [write, get?_erase]
  | some value => rw [write, get?_set]

omit [DecidableEq κ] in
theorem length_entries (dict : Dict κ ν) : dict.entries.length = dict.keys.length := by
  simp [keys]

theorem length_set (dict : Dict κ ν) (key : κ) (value : ν) :
    (dict.set key value).entries.length = dict.entries.length + if key ∈ dict.keys then 0 else 1 := by
  rw [length_entries, length_entries, keys_set]
  split <;> simp

variable {β : Type*}

/-- A stored value that is read as the one it replaces, or as nothing where there was none, is not seen. -/
theorem filterMap_set (read : κ × ν → Option β)
    (replaced : ∀ {old}, dict.get? key = some old → read (key, value) = read (key, old))
    (added : dict.get? key = none → read (key, value) = none) :
    (dict.set key value).entries.filterMap read = dict.entries.filterMap read := by
  simp only [set, store]
  split
  · rw [List.filterMap_map]
    apply List.filterMap_congr
    rintro ⟨other, old⟩ member
    by_cases same : other = key
    · subst same
      simpa using replaced (get?_eq_some_iff.mpr member)
    · simp [same]
  · rename_i absent
    rw [List.filterMap_append, List.filterMap_cons, added (get?_eq_none_iff.mpr absent), List.filterMap_nil, List.append_nil]

theorem filterValues_set (keep : ν → Bool) (dropped : keep value = false)
    (before : ∀ {old}, dict.get? key = some old → keep old = false) :
    (dict.set key value).filterValues keep = dict.filterValues keep := by
  let kept : κ × ν → Option (κ × ν) := fun entry => if keep entry.2 then some entry else none
  have entries : (dict.set key value).entries.filterMap kept = dict.entries.filterMap kept :=
    filterMap_set kept (fun found => by simp [kept, dropped, before found]) (fun _ => by simp [kept, dropped])
  simpa [kept, filterValues, ← List.filterMap_eq_filter, Option.guard] using entries

theorem get?_foldl_write (writes : List (κ × Option ν)) (dict : Dict κ ν) (key : κ) :
    (writes.foldl (fun dict entry => dict.write entry.1 entry.2) dict).get? key =
      match (writes.filter fun entry => entry.1 = key).getLast? with
      | some entry => entry.2
      | none => dict.get? key := by
  induction writes using List.reverseRecOn with
  | nil => rfl
  | append_singleton writes entry ih =>
    rw [List.foldl_append, List.foldl_cons, List.foldl_nil, get?_write, List.filter_append]
    by_cases same : key = entry.1
    · subst same
      simp
    · rw [if_neg same, ih, List.filter_cons_of_neg (by simpa using Ne.symm same), List.filter_nil, List.append_nil]

/-- `{**dict, **other}`. -/
def update (dict other : Dict κ ν) : Dict κ ν :=
  other.entries.foldl (fun dict entry => dict.set entry.1 entry.2) dict

theorem get?_update (dict other : Dict κ ν) (key : κ) : (dict.update other).get? key = (other.get? key).or (dict.get? key) := by
  obtain ⟨entries, distinct⟩ := other
  simp only [update, get?]
  induction entries generalizing dict with
  | nil => simp
  | cons entry rest ih =>
    rw [List.map_cons, List.nodup_cons] at distinct
    rw [List.foldl_cons, ih _ distinct.2]
    by_cases same : entry.1 = key
    · have absent : rest.find? (fun entry => entry.1 = key) = none :=
        List.find?_eq_none.mpr fun other inside named =>
          distinct.1 (List.mem_map.mpr ⟨other, inside, (of_decide_eq_true named).trans same.symm⟩)
      have stored := get?_set_self dict entry.1 entry.2
      simp only [get?, same] at stored
      simp [same, absent, stored]
    · have stored := get?_set_ne dict entry.2 (Ne.symm same)
      simp only [get?] at stored
      rw [stored, List.find?_cons_of_neg (by simpa using same)]

theorem mem_keys_set {other : κ} :
    other ∈ (dict.set key value).keys ↔ other = key ∨ other ∈ dict.keys := by
  rw [keys_set]
  split
  · rename_i present
    constructor
    · exact .inr
    · rintro (rfl | member)
      · exact present
      · exact member
  · simp [or_comm]

theorem get?_foldl_set {α : Type*} (key : α → κ) (value : ν) (items : List α) (dict : Dict κ ν) (wanted : κ) :
    (items.foldl (fun dict item => dict.set (key item) value) dict).get? wanted =
      if wanted ∈ items.map key then some value else dict.get? wanted := by
  induction items generalizing dict with
  | nil => simp
  | cons first rest ih =>
    rw [List.foldl_cons, ih, get?_set]
    by_cases later : wanted ∈ rest.map key <;> by_cases same : wanted = key first <;>
      simp [later, same]

theorem mem_values_set {stored : ν}
    (member : stored ∈ (dict.set key value).values) : stored = value ∨ stored ∈ dict.values := by
  obtain ⟨other, found⟩ := mem_values_iff.mp member
  rw [get?_set] at found
  split at found
  · exact .inl (Option.some.inj found).symm
  · exact .inr (mem_values_iff.mpr ⟨other, found⟩)

/-- `dict == other`, whatever the order of their keys. -/
def agrees [DecidableEq ν] (dict other : Dict κ ν) : Bool :=
  dict.entries.all (fun entry => other.get? entry.1 = some entry.2) && other.entries.all fun entry => dict.get? entry.1 = some entry.2

theorem agrees_iff [DecidableEq ν] {other : Dict κ ν} : dict.agrees other = true ↔ ∀ key, dict.get? key = other.get? key := by
  simp only [agrees, Bool.and_eq_true, List.all_eq_true, decide_eq_true_eq]
  constructor
  · rintro ⟨left, right⟩ key
    apply Option.ext
    intro value
    exact ⟨fun found => left _ (get?_eq_some_iff.mp found), fun found => right _ (get?_eq_some_iff.mp found)⟩
  · intro same
    exact ⟨fun entry member => by rw [← same]; exact get?_eq_some_iff.mpr member,
      fun entry member => by rw [same]; exact get?_eq_some_iff.mpr member⟩

private def mapEntriesM {ε : Type*} (change : κ → ν → Except ε μ) : List (κ × ν) → Except ε (List (κ × μ))
  | [] => .ok []
  | (key, value) :: rest =>
    match change key value with
    | .error failure => .error failure
    | .ok changed =>
      match mapEntriesM change rest with
      | .error failure => .error failure
      | .ok later => .ok ((key, changed) :: later)

omit [DecidableEq κ] in
private theorem mapEntriesM_ok {ε : Type*} {change : κ → ν → Except ε μ} {entries : List (κ × ν)} {results : List (κ × μ)}
    (done : mapEntriesM change entries = .ok results) :
    results.map Prod.fst = entries.map Prod.fst ∧
      ∀ key value, (key, value) ∈ entries → ∃ changed, (key, changed) ∈ results ∧ change key value = .ok changed := by
  induction entries generalizing results with
  | nil =>
    cases done
    exact ⟨rfl, fun _ _ member => nomatch member⟩
  | cons entry rest ih =>
    obtain ⟨key, value⟩ := entry
    simp only [mapEntriesM] at done
    split at done
    · cases done
    · rename_i changed first
      split at done
      · cases done
      · rename_i later others
        cases done
        obtain ⟨keys, found⟩ := ih others
        refine ⟨by simp [keys], fun other old member => ?_⟩
        rcases List.mem_cons.mp member with here | member
        · cases here
          exact ⟨changed, List.mem_cons_self .., first⟩
        · obtain ⟨new, inside, computed⟩ := found other old member
          exact ⟨new, List.mem_cons_of_mem _ inside, computed⟩

omit [DecidableEq κ] in
/-- `{key: change(key, value) for key, value in dict.items()}` where `change` may raise. -/
def mapValuesM {ε : Type*} (dict : Dict κ ν) (change : κ → ν → Except ε μ) : Except ε (Dict κ μ) :=
  match computed : mapEntriesM change dict.entries with
  | .error failure => .error failure
  | .ok results => .ok ⟨results, (mapEntriesM_ok computed).1 ▸ dict.distinct⟩

theorem mapValuesM_ok {ε : Type*} {change : κ → ν → Except ε μ} {result : Dict κ μ}
    (done : dict.mapValuesM change = .ok result) :
    result.keys = dict.keys ∧
      ∀ {key value}, dict.get? key = some value → ∃ changed, result.get? key = some changed ∧ change key value = .ok changed := by
  unfold mapValuesM at done
  split at done
  · cases done
  · rename_i results computed
    cases done
    obtain ⟨keys, found⟩ := mapEntriesM_ok computed
    refine ⟨keys, fun {key value} present => ?_⟩
    obtain ⟨changed, inside, computed⟩ := found key value (get?_eq_some_iff.mp present)
    exact ⟨changed, get?_eq_some_iff.mpr inside, computed⟩

omit [DecidableEq κ] in
/-- What the stored values weigh together. -/
def total (weight : ν → Nat) (dict : Dict κ ν) : Nat := (dict.values.map weight).sum

omit [DecidableEq κ] in
theorem total_le {light heavy : ν → Nat} (below : ∀ value ∈ dict.values, light value ≤ heavy value) :
    dict.total light ≤ dict.total heavy :=
  List.sum_le_sum below

omit [DecidableEq κ] in
theorem total_congr {one other : ν → Nat} (same : ∀ value ∈ dict.values, one value = other value) :
    dict.total one = dict.total other :=
  congrArg List.sum (List.map_congr_left same)

omit [DecidableEq κ] in
theorem total_add (dict : Dict κ ν) (one other : ν → Nat) :
    dict.total (fun value => one value + other value) = dict.total one + dict.total other :=
  List.sum_map_add

private theorem values_store_new {entries : List (κ × ν)} (value : ν) (absent : key ∉ entries.map Prod.fst) :
    store entries key value = entries ++ [(key, value)] :=
  if_neg absent

theorem total_set_new (weight : ν → Nat) (value : ν) (absent : dict.get? key = none) :
    (dict.set key value).total weight = dict.total weight + weight value := by
  have appended := values_store_new value (get?_eq_none_iff.mp absent)
  simp [total, values, set, appended]

theorem total_set_old (weight : ν → Nat) (value : ν) (found : dict.get? key = some old) :
    (dict.set key value).total weight + weight old = dict.total weight + weight value := by
  obtain ⟨entries, distinct⟩ := dict
  have member := get?_eq_some_iff.mp found
  have replaced : (store entries key value) = entries.map fun entry => if entry.1 = key then (key, value) else entry :=
    if_pos (List.mem_map.mpr ⟨(key, old), member, rfl⟩)
  simp only [total, values, set, replaced]
  clear found replaced
  induction entries with
  | nil => cases member
  | cons entry rest ih =>
    rw [List.map_cons, List.nodup_cons] at distinct
    rcases List.mem_cons.mp member with rfl | later
    · have untouched : (rest.map fun entry => if entry.1 = key then (key, value) else entry) = rest := by
        apply (List.map_congr_left ?_).trans (List.map_id rest)
        intro other inside
        exact if_neg fun same => distinct.1 (List.mem_map.mpr ⟨other, inside, same⟩)
      simp [untouched]
      omega
    · have different : entry.1 ≠ key := fun same => distinct.1 (same ▸ List.mem_map.mpr ⟨(key, old), later, rfl⟩)
      have rest := ih distinct.2 later
      simp [different] at rest ⊢
      omega

theorem total_erase (weight : ν → Nat) (found : dict.get? key = some old) :
    dict.total weight = (dict.erase key).total weight + weight old := by
  obtain ⟨entries, distinct⟩ := dict
  have member := get?_eq_some_iff.mp found
  simp only [total, values, erase]
  clear found
  induction entries with
  | nil => cases member
  | cons entry rest ih =>
    rw [List.map_cons, List.nodup_cons] at distinct
    rcases List.mem_cons.mp member with rfl | later
    · have untouched : (rest.filter fun entry => entry.1 ≠ key) = rest := by
        apply List.filter_eq_self.mpr
        intro other inside
        exact decide_eq_true fun same => distinct.1 (List.mem_map.mpr ⟨other, inside, same⟩)
      rw [List.filter_cons_of_neg (by simp), untouched]
      simp [Nat.add_comm]
    · have different : entry.1 ≠ key := fun same => distinct.1 (same ▸ List.mem_map.mpr ⟨(key, old), later, rfl⟩)
      have rest := ih distinct.2 later
      simp [different] at rest ⊢
      omega

theorem mapValues_erase (dict : Dict κ ν) (key : κ) (change : κ → ν → μ) : (dict.erase key).mapValues change = (dict.mapValues change).erase key := by
  have entries : (dict.entries.filter fun entry => entry.1 ≠ key).map (fun entry => (entry.1, change entry.1 entry.2)) =
      (dict.entries.map fun entry => (entry.1, change entry.1 entry.2)).filter fun entry => entry.1 ≠ key := by
    rw [List.filter_map]
    rfl
  simp only [mapValues, erase, entries]

theorem mapValues_write (dict : Dict κ ν) (key : κ) (value : Option ν) (change : κ → ν → μ) :
    (dict.write key value).mapValues change = (dict.mapValues change).write key (value.map (change key)) := by
  cases value with
  | none => exact mapValues_erase dict key change
  | some value => exact mapValues_set dict key value change

theorem filterMap_values_keys (dict : Dict κ ν) (read : ν → Option β) :
    dict.values.filterMap read = dict.keys.filterMap fun key => (dict.get? key).bind read := by
  rw [values, keys, List.filterMap_map, List.filterMap_map]
  refine List.filterMap_congr fun entry member => ?_
  simp only [Function.comp_apply, get?_eq_some_iff.mpr member, Option.bind_some]

theorem filterMap_values_congr {other : Dict κ μ} {read : ν → Option β} {read' : μ → Option β}
    (sameKeys : dict.keys = other.keys)
    (same : ∀ key value value', dict.get? key = some value → other.get? key = some value' → read value = read' value') :
    dict.values.filterMap read = other.values.filterMap read' := by
  rw [filterMap_values_keys, filterMap_values_keys, ← sameKeys]
  refine List.filterMap_congr fun key member => ?_
  obtain ⟨value, found⟩ := mem_keys_iff.mp member
  obtain ⟨value', found'⟩ := mem_keys_iff.mp (sameKeys ▸ member)
  rw [found, found', Option.bind_some, Option.bind_some, same key value value' found found']

/-- `{key: value for key, value in fields}`. -/
def ofList (fields : List (κ × ν)) : Dict κ ν := fields.foldl (fun dict field => dict.set field.1 field.2) ∅

theorem entries_set_new (value : ν) (absent : key ∉ dict.keys) : (dict.set key value).entries = dict.entries ++ [(key, value)] :=
  if_neg absent

private theorem entries_foldl_set (fields : List (κ × ν)) (dict : Dict κ ν) (distinct : (fields.map Prod.fst).Nodup)
    (apart : ∀ field ∈ fields, field.1 ∉ dict.keys) :
    (fields.foldl (fun dict field => dict.set field.1 field.2) dict).entries = dict.entries ++ fields := by
  induction fields generalizing dict with
  | nil => exact (List.append_nil _).symm
  | cons field rest ih =>
    rw [List.map_cons, List.nodup_cons] at distinct
    have new := apart field (List.mem_cons_self ..)
    rw [List.foldl_cons, ih _ distinct.2, entries_set_new _ new, List.append_assoc, List.singleton_append]
    intro other member
    rw [keys_set, if_neg new, List.mem_append, List.mem_singleton, not_or]
    exact ⟨apart other (List.mem_cons_of_mem _ member), fun same => distinct.1 (same ▸ List.mem_map.mpr ⟨other, member, rfl⟩)⟩

omit [DecidableEq κ] in
theorem eq_of_entries {other : Dict κ ν} (same : dict.entries = other.entries) : dict = other := by
  obtain ⟨_, _⟩ := dict
  obtain ⟨_, _⟩ := other
  cases same
  rfl

private theorem get?_foldl_fields (fields : List (κ × ν)) (dict : Dict κ ν) (key : κ) :
    (∃ value, (fields.foldl (fun dict field => dict.set field.1 field.2) dict).get? key = some value ∧ (key, value) ∈ fields) ∨
      (fields.foldl (fun dict field => dict.set field.1 field.2) dict).get? key = dict.get? key ∧ key ∉ fields.map Prod.fst := by
  induction fields generalizing dict with
  | nil => exact .inr ⟨rfl, List.not_mem_nil⟩
  | cons field rest ih =>
    rw [List.foldl_cons]
    rcases ih (dict.set field.1 field.2) with ⟨value, found, member⟩ | ⟨same, absent⟩
    · exact .inl ⟨value, found, List.mem_cons_of_mem _ member⟩
    · by_cases here : key = field.1
      · subst here
        exact .inl ⟨field.2, same.trans (get?_set_self ..), List.mem_cons_self ..⟩
      · refine .inr ⟨same.trans (get?_set_ne _ _ here), ?_⟩
        rw [List.map_cons, List.mem_cons, not_or]
        exact ⟨here, absent⟩

theorem mem_of_get?_ofList {fields : List (κ × ν)} (found : (ofList fields).get? key = some value) : (key, value) ∈ fields := by
  rcases get?_foldl_fields fields ∅ key with ⟨_, found', member⟩ | ⟨none, _⟩
  · cases found.symm.trans found'
    exact member
  · cases found.symm.trans none

theorem exists_get?_ofList {fields : List (κ × ν)} (member : key ∈ fields.map Prod.fst) : ∃ value, (ofList fields).get? key = some value := by
  rcases get?_foldl_fields fields ∅ key with ⟨value, found, _⟩ | ⟨_, absent⟩
  · exact ⟨value, found⟩
  · exact (absent member).elim

@[simp] theorem ofList_entries (dict : Dict κ ν) : ofList dict.entries = dict :=
  eq_of_entries (entries_foldl_set dict.entries ∅ dict.distinct (by simp))

theorem entries_eq (dict : Dict κ ν) : dict.entries = dict.keys.filterMap fun key => (dict.get? key).map (key, ·) := by
  rw [keys, List.filterMap_map]
  refine (List.filterMap_some.symm).trans (List.filterMap_congr fun entry member => ?_)
  rw [Function.comp_apply, get?_eq_some_iff.mpr member, Option.map_some]

theorem eq_of_get? {other : Dict κ ν} (keys : dict.keys = other.keys) (same : ∀ key, dict.get? key = other.get? key) : dict = other :=
  eq_of_entries (by simp only [entries_eq, keys, same])

end Dict
end NovelStudio.Library
