import Mathlib.Data.List.NodupEquivFin
import Mathlib.Order.Lattice

/-! Half-open intervals in the order of their starts, of which each ends before the next but one starts. -/

namespace NovelStudio.Library

universe u v
variable {α : Type u} {κ : Type v} [LinearOrder κ] {start finish : α → κ} {items : List α} {left right : α}

/-- Items in the order of their starts, none of which reaches the next but one. -/
structure Staggered (start finish : α → κ) (items : List α) : Prop where
  sorted : items.Pairwise fun left right => start left ≤ start right
  skip : ∀ index left right, items[index]? = some left → items[index + 2]? = some right → finish left ≤ start right

theorem Staggered.apart (staggered : Staggered start finish items) {index later : ℕ} (far : index + 2 ≤ later) (here : items[index]? = some left)
    (there : items[later]? = some right) : finish left ≤ start right := by
  rcases Nat.eq_or_lt_of_le far with rfl | further
  · exact staggered.skip index left right here there
  · obtain ⟨within, rfl⟩ := List.getElem?_eq_some_iff.mp there
    have between : index + 2 < items.length := further.trans within
    calc finish left ≤ start items[index + 2] := staggered.skip index left _ here (List.getElem?_eq_getElem between)
      _ ≤ start items[later] := List.pairwise_iff_getElem.mp staggered.sorted _ _ between within further

theorem Staggered.consecutive (staggered : Staggered start finish items) {index later : ℕ} (before : index < later) (here : items[index]? = some left)
    (there : items[later]? = some right) (overlap : start right < finish left) : later = index + 1 := by
  by_contra away
  exact absurd (staggered.apart (by omega) here there) (not_le.mpr overlap)

theorem Staggered.active_le_two (staggered : Staggered start finish items) {instant : κ} {active : α → Prop} [DecidablePred active]
    (runs : ∀ item, active item → start item ≤ instant ∧ instant < finish item) : (items.filter active).length ≤ 2 := by
  by_contra many
  rw [not_le] at many
  have each : ∀ item ∈ items.filter active, start item ≤ instant ∧ instant < finish item := by
    intro item member
    exact runs item (decide_eq_true_eq.mp (List.mem_filter.mp member).2)
  obtain ⟨indices, same⟩ := List.sublist_iff_exists_orderEmbedding_getElem?_eq.mp (List.filter_sublist : (items.filter active).Sublist items)
  generalize items.filter active = actives at many each same
  obtain ⟨one, two, three, rest, rfl⟩ : ∃ one two three rest, actives = one :: two :: three :: rest := by
    match actives, many with
    | one :: two :: three :: rest, _ => exact ⟨one, two, three, rest, rfl⟩
  have far : indices 0 + 2 ≤ indices 2 := by
    have one : indices 0 < indices 1 := indices.lt_iff_lt.mpr Nat.zero_lt_one
    have two : indices 1 < indices 2 := indices.lt_iff_lt.mpr (by decide)
    omega
  have ended : finish one ≤ instant := (staggered.apart far (same 0).symm (same 2).symm).trans (each three (by simp)).1
  exact absurd ended (not_le.mpr (each one (by simp)).2)

end NovelStudio.Library
