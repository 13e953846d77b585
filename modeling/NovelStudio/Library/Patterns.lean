import Mathlib.Computability.RegularExpressions

/-! Patterns over classes of items, as a regular expression writes `[…]` and `[…]+`, and the words
they match. -/

namespace NovelStudio.Library

universe u
variable {α : Type u}

/-- `[…]`: one item of a class. -/
def oneOf : List α → RegularExpression α
  | [] => 0
  | item :: items => RegularExpression.char item + oneOf items

/-- `pattern+`: the pattern once or more. -/
def more (pattern : RegularExpression α) : RegularExpression α := pattern * pattern.star

theorem mem_oneOf {items word : List α} : word ∈ (oneOf items).matches' ↔ ∃ item ∈ items, word = [item] := by
  induction items with
  | nil =>
    rw [oneOf, RegularExpression.matches'_zero]
    simp
  | cons first items ih =>
    rw [oneOf, RegularExpression.matches'_add, Language.mem_add, RegularExpression.matches'_char, ih]
    constructor
    · intro matched
      cases matched with
      | inl here => exact ⟨first, List.mem_cons_self .., here⟩
      | inr later =>
        obtain ⟨item, member, same⟩ := later
        exact ⟨item, List.mem_cons_of_mem _ member, same⟩
    · intro listed
      obtain ⟨item, member, same⟩ := listed
      cases List.mem_cons.mp member with
      | inl first' =>
        subst first'
        exact Or.inl same
      | inr later => exact Or.inr ⟨item, later, same⟩

theorem mem_more_oneOf {items word : List α} : word ∈ (more (oneOf items)).matches' ↔ word ≠ [] ∧ ∀ item ∈ word, item ∈ items := by
  rw [more, RegularExpression.matches'_mul, RegularExpression.matches'_star, Language.mem_mul]
  constructor
  · intro matched
    obtain ⟨head, first, tail, rest, whole⟩ := matched
    obtain ⟨item, member, rfl⟩ := mem_oneOf.mp first
    obtain ⟨pieces, rfl, each⟩ := Language.mem_kstar.mp rest
    subst whole
    refine ⟨List.cons_ne_nil _ _, ?_⟩
    intro other inside
    cases List.mem_append.mp inside with
    | inl here =>
      rw [List.mem_singleton] at here
      exact here ▸ member
    | inr later =>
      obtain ⟨piece, listed, holds⟩ := List.mem_flatten.mp later
      obtain ⟨one, class', rfl⟩ := mem_oneOf.mp (each piece listed)
      rw [List.mem_singleton] at holds
      exact holds ▸ class'
  · intro both
    obtain ⟨some', inside⟩ := both
    cases word with
    | nil => exact absurd rfl some'
    | cons item word =>
      refine ⟨[item], mem_oneOf.mpr ⟨item, inside item (List.mem_cons_self ..), rfl⟩, word, ?_, rfl⟩
      refine Language.mem_kstar.mpr ⟨word.map fun one => [one], ?_, ?_⟩
      · exact (List.flatMap_singleton' word).symm
      · intro piece listed
        obtain ⟨one, member, rfl⟩ := List.mem_map.mp listed
        exact mem_oneOf.mpr ⟨one, inside one (List.mem_cons_of_mem _ member), rfl⟩

end NovelStudio.Library
