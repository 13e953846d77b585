import Mathlib.Data.List.Basic

/-! Reading a sequence of chunks in parts: what is left behind a position of a chunk and an offset in it. -/

namespace NovelStudio.Library.Resumption

variable {α β : Type*}

/-- The items that are left behind a position. -/
def remaining (chunks : List (List α)) (chunk offset : Nat) : List α := (chunks.drop chunk).flatten.drop offset

/-- How many steps are left: every item, and the end of every chunk. -/
def pending (chunks : List (List α)) (chunk offset : Nat) : Nat := (remaining chunks chunk offset).length + (chunks.length - chunk)

variable {chunks : List (List α)} {chunk offset : Nat} {items : List α} {item : α}

theorem remaining_read (found : chunks[chunk]? = some items) (inside : items[offset]? = some item) :
    remaining chunks chunk offset = item :: remaining chunks chunk (offset + 1) := by
  obtain ⟨bound, rfl⟩ := List.getElem?_eq_some_iff.mp found
  have short : offset < chunks[chunk].length := (List.getElem?_eq_some_iff.mp inside).1
  rw [remaining, remaining, List.drop_eq_getElem_cons bound, List.flatten_cons, List.drop_append_of_le_length (by omega),
    List.drop_append_of_le_length (by omega), List.drop_eq_getElem?_toList_append, inside]
  rfl

theorem remaining_close (found : chunks[chunk]? = some items) : remaining chunks chunk items.length = remaining chunks (chunk + 1) 0 := by
  obtain ⟨bound, rfl⟩ := List.getElem?_eq_some_iff.mp found
  rw [remaining, remaining, List.drop_eq_getElem_cons bound, List.flatten_cons, List.drop_left, List.drop_zero]

theorem remaining_end (beyond : chunks.length ≤ chunk) : remaining chunks chunk offset = [] := by
  rw [remaining, List.drop_eq_nil_of_le beyond]
  simp

theorem pending_read (found : chunks[chunk]? = some items) (inside : items[offset]? = some item) :
    pending chunks chunk (offset + 1) + 1 = pending chunks chunk offset := by
  simp only [pending, remaining_read found inside, List.length_cons]
  omega

theorem pending_close (found : chunks[chunk]? = some items) : pending chunks (chunk + 1) 0 + 1 = pending chunks chunk items.length := by
  have bound := (List.getElem?_eq_some_iff.mp found).1
  simp only [pending, remaining_close found]
  omega

theorem getElem?_of_drop {rest : List α} (whole : item :: rest = items.drop offset) :
    items[offset]? = some item ∧ rest = items.drop (offset + 1) := by
  have short : offset < items.length := by
    by_contra long
    rw [List.drop_eq_nil_of_le (by omega)] at whole
    cases whole
  rw [List.drop_eq_getElem_cons short] at whole
  obtain ⟨rfl, later⟩ := List.cons.inj whole
  exact ⟨List.getElem?_eq_getElem short, later⟩

end NovelStudio.Library.Resumption
