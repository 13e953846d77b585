import Mathlib.Data.List.Induction
import Mathlib.Data.List.Perm.Basic
import Mathlib.Data.List.Sort
import NovelStudio.Library.Fallible

/-! Lists that are read item by item, where an item has to fit what was read before it, and lists that are sorted by a key: whether a list
is read, and what it is sorted to, does not depend on its order. -/

namespace NovelStudio.Library

universe u v w
variable {ε : Type u} {α : Type v} {β : Type v}

variable {items : List α} {related : α → β → Prop} {results : List β}

theorem exists_of_forall₂ {result : β} (each : List.Forall₂ related items results)
    (member : result ∈ results) : ∃ item ∈ items, related item result := by
  induction each with
  | nil => cases member
  | @cons item first items rest here each ih =>
    rcases List.mem_cons.mp member with rfl | later
    · exact ⟨item, List.mem_cons_self .., here⟩
    · obtain ⟨other, there, here⟩ := ih later
      exact ⟨other, List.mem_cons_of_mem _ there, here⟩

theorem exists_result_of_forall₂ {item : α} (each : List.Forall₂ related items results)
    (member : item ∈ items) : ∃ result ∈ results, related item result := by
  have turned : List.Forall₂ (flip related) results items := List.Forall₂.flip each
  exact exists_of_forall₂ turned member

theorem find?_of_nodup {κ : Type w} [DecidableEq κ] {key : α → κ} {item : α} (distinct : (items.map key).Nodup) (member : item ∈ items) :
    (items.find? fun other => key other = key item) = some item := by
  induction items with
  | nil => cases member
  | cons first rest ih =>
    rw [List.map_cons, List.nodup_cons] at distinct
    cases List.mem_cons.mp member with
    | inl here =>
      subst here
      exact List.find?_cons_of_pos (decide_eq_true rfl)
    | inr later =>
      have different : key first ≠ key item := fun same => distinct.1 (same ▸ List.mem_map_of_mem later)
      rw [List.find?_cons_of_neg (by rwa [decide_eq_true_eq])]
      exact ih distinct.2 later

theorem at_of_forall₂ {result : β} {place : Nat} (each : List.Forall₂ related items results)
    (stands : results[place]? = some result) : ∃ item, items[place]? = some item ∧ related item result := by
  induction each generalizing place with
  | nil => cases stands
  | @cons item first items results here _ ih =>
    cases place with
    | zero =>
      cases stands
      exact ⟨item, rfl, here⟩
    | succ place => exact ih stands

theorem mapM_ok {read : α → Except ε β} :
    items.mapM read = .ok results ↔ List.Forall₂ (fun item result => read item = .ok result) items results := by
  induction items generalizing results with
  | nil =>
    rw [List.mapM_nil, pure_ok, List.forall₂_nil_left_iff]
    exact eq_comm
  | cons item items ih =>
    simp only [List.mapM_cons, bind_ok, pure_ok, List.forall₂_cons_left_iff, ih]
    constructor
    · rintro ⟨first, here, rest, later, rfl⟩
      exact ⟨first, rest, here, later, rfl⟩
    · rintro ⟨first, rest, here, later, rfl⟩
      exact ⟨first, here, rest, later, rfl⟩

theorem mapM_total {read : α → Except ε β} (each : ∀ item ∈ items, ∃ result, read item = .ok result) :
    ∃ results, items.mapM read = .ok results := by
  induction items with
  | nil => exact ⟨[], rfl⟩
  | cons item items ih =>
    obtain ⟨result, here⟩ := each item (List.mem_cons_self ..)
    obtain ⟨results, later⟩ := ih fun other member => each other (List.mem_cons_of_mem _ member)
    exact ⟨result :: results, mapM_ok.mpr (List.Forall₂.cons here (mapM_ok.mp later))⟩

theorem mapM_some {read : α → Option β} :
    items.mapM read = some results ↔ List.Forall₂ (fun item result => read item = some result) items results := by
  induction items generalizing results with
  | nil =>
    rw [List.mapM_nil, List.forall₂_nil_left_iff]
    exact ⟨fun same => (Option.some.inj same).symm, fun same => congrArg some same.symm⟩
  | cons item items ih =>
    simp only [List.mapM_cons, Option.bind_eq_bind, Option.bind_eq_some_iff, Option.pure_def, Option.some.injEq, List.forall₂_cons_left_iff, ih]
    constructor
    · intro both
      obtain ⟨first, here, rest, later, rfl⟩ := both
      exact ⟨first, rest, here, later, rfl⟩
    · intro both
      obtain ⟨first, rest, here, later, rfl⟩ := both
      exact ⟨first, here, rest, later, rfl⟩

/-- Every item is read with what was read before it. -/
def readAll (read : List β → α → Except ε β) (items : List α) : Except ε (List β) :=
  items.foldlM (fun seen item => do return seen ++ [← read seen item]) []

section ReadAll

variable {read : List β → α → Except ε β} {alone : α → Except ε β} {fits : β → β → Prop} {bounded : List β → Prop}

/-- Behind results that fit each other and are within their bounds, an item is read just when it is read alone, fits each of them, and
leaves the list within its bounds. -/
def ReadsAs (read : List β → α → Except ε β) (alone : α → Except ε β) (fits : β → β → Prop) (bounded : List β → Prop) : Prop :=
  ∀ seen item result, seen.Pairwise fits → bounded seen →
    (read seen item = .ok result ↔ alone item = .ok result ∧ (∀ other ∈ seen, fits other result) ∧ bounded (seen ++ [result]))

theorem pairwise_snoc {seen : List β} (fit : seen.Pairwise fits) (other : ∀ one ∈ seen, fits one result) : (seen ++ [result]).Pairwise fits := by
  rw [List.pairwise_append]
  refine ⟨fit, List.pairwise_singleton _ _, ?_⟩
  intro one member two last
  obtain rfl := List.mem_singleton.mp last
  exact other one member

theorem bounded_prefix (shrink : ∀ {seen result}, bounded (seen ++ [result]) → bounded seen) {first later : List β}
    (whole : bounded (first ++ later)) : bounded first := by
  induction later using List.reverseRecOn with
  | nil => simpa using whole
  | append_singleton later last ih =>
    rw [← List.append_assoc] at whole
    exact ih (shrink whole)

/-- A list is read just when each item is read alone, the results fit each other, and the list is within its bounds. -/
theorem readAll_ok (reads : ReadsAs read alone fits bounded) (empty : bounded [])
    (shrink : ∀ {seen result}, bounded (seen ++ [result]) → bounded seen) {items : List α} {results : List β} :
    readAll read items = .ok results ↔
      List.Forall₂ (fun item result => alone item = .ok result) items results ∧ results.Pairwise fits ∧ bounded results := by
  have general : ∀ (items : List α) (seen results : List β), seen.Pairwise fits → bounded seen →
      (items.foldlM (fun seen item => do return seen ++ [← read seen item]) seen = .ok results ↔
        ∃ later, results = seen ++ later ∧ List.Forall₂ (fun item result => alone item = .ok result) items later ∧
          results.Pairwise fits ∧ bounded results) := by
    intro items
    induction items with
    | nil =>
      intro seen results fit within
      rw [foldlM_nil_ok]
      constructor
      · rintro rfl
        exact ⟨[], (List.append_nil _).symm, .nil, fit, within⟩
      · rintro ⟨later, rfl, each, _⟩
        cases each
        exact (List.append_nil _).symm
    | cons item rest ih =>
      intro seen results fit within
      rw [foldlM_cons_ok]
      simp only [bind_ok, pure_ok]
      constructor
      · rintro ⟨next, ⟨result, here, rfl⟩, done⟩
        obtain ⟨single, other, bound⟩ := (reads seen item result fit within).mp here
        obtain ⟨later, rfl, each, all, total⟩ := (ih _ _ (pairwise_snoc fit other) bound).mp done
        exact ⟨result :: later, by simp, .cons single each, all, total⟩
      · rintro ⟨later, rfl, each, all, total⟩
        cases each with
        | @cons _ result _ later single each =>
          have bound : bounded (seen ++ [result]) := bounded_prefix shrink (by simpa using total)
          have other : ∀ one ∈ seen, fits one result := by
            intro one member
            exact (List.pairwise_append.mp all).2.2 one member result (List.mem_cons_self ..)
          refine ⟨_, ⟨result, (reads seen item result fit within).mpr ⟨single, other, bound⟩, rfl⟩, ?_⟩
          exact (ih _ _ (pairwise_snoc fit other) bound).mpr ⟨later, by simp, each, by simpa using all, by simpa using total⟩
  rw [readAll, general items [] results List.Pairwise.nil empty]
  simp

theorem readAll_again (reads : ReadsAs read alone fits bounded) (empty : bounded [])
    (shrink : ∀ {seen result}, bounded (seen ++ [result]) → bounded seen) {items : List α} {results sorted : List β} {value : β → α}
    (symmetric : ∀ {one two}, fits one two → fits two one) (regardless : ∀ {one two : List β}, one.Perm two → bounded one → bounded two)
    (again : ∀ item result, alone item = .ok result → alone (value result) = .ok result)
    (done : readAll read items = .ok results) (same : sorted.Perm results) : readAll read (sorted.map value) = .ok sorted := by
  obtain ⟨each, fit, bound⟩ := (readAll_ok reads empty shrink).mp done
  refine (readAll_ok reads empty shrink).mpr ⟨?_, ?_, regardless same.symm bound⟩
  · rw [List.forall₂_map_left_iff, List.forall₂_same]
    intro result member
    obtain ⟨item, _, here⟩ := exists_of_forall₂ each (same.mem_iff.mp member)
    exact again item result here
  · exact (same.pairwise_iff fun {_ _} => symmetric).mpr fit

end ReadAll

theorem perm_of_forall₂ {alone : α → Except ε β} {related : α → α → Prop} {items others moved : List α} {results results' : List β}
    (each : List.Forall₂ (fun item result => alone item = .ok result) items results)
    (each' : List.Forall₂ (fun item result => alone item = .ok result) others results') (order : items.Perm moved)
    (relate : List.Forall₂ related moved others)
    (same : ∀ item other result result', related item other → alone item = .ok result → alone other = .ok result' → result = result') :
    results.Perm results' := by
  obtain ⟨middle, first, second⟩ := List.perm_comp_forall₂ order.symm each
  have equal : middle = results' := by
    clear second order each
    induction relate generalizing middle results' with
    | nil =>
      cases first
      cases each'
      rfl
    | cons here rest ih =>
      cases first with
      | cons one first =>
        cases each' with
        | cons two each' => rw [same _ _ _ _ here one two, ih each' _ first]
  exact equal ▸ second.symm

section Sorting

variable {κ : Type w} [LinearOrder κ]

/-- `sorted(items, key=key)`. -/
def sortBy (key : α → κ) (items : List α) : List α := items.insertionSort fun left right => key left ≤ key right

theorem sortBy_perm (key : α → κ) (items : List α) : (sortBy key items).Perm items := List.perm_insertionSort _ _

theorem sortBy_pairwise (key : α → κ) (items : List α) : (sortBy key items).Pairwise fun left right => key left ≤ key right :=
  List.pairwise_insertionSort _ _

@[simp] theorem mem_sortBy {key : α → κ} {items : List α} {item : α} : item ∈ sortBy key items ↔ item ∈ items := (sortBy_perm key items).mem_iff

theorem sortBy_sortBy (key : α → κ) (items : List α) : sortBy key (sortBy key items) = sortBy key items :=
  (sortBy_pairwise key items).insertionSort_eq

theorem sortBy_eq_of_perm {key : α → κ} {items others : List α} (same : items.Perm others)
    (unique : ∀ one ∈ items, ∀ two ∈ items, key one = key two → one = two) : sortBy key items = sortBy key others := by
  refine List.Perm.eq_of_pairwise ?_ (sortBy_pairwise key items) (sortBy_pairwise key others) (((sortBy_perm key items).trans same).trans (sortBy_perm key others).symm)
  intro one two member member' below above
  exact unique one (mem_sortBy.mp member) two (same.mem_iff.mpr (mem_sortBy.mp member')) (le_antisymm below above)

end Sorting

end NovelStudio.Library
