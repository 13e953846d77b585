import Mathlib.Data.List.Basic

/-! Slices of a list by two positions, as `items[start:stop]`. -/

namespace NovelStudio.Library

variable {α β : Type*}

def slice (items : List α) (start stop : Nat) : List α := (items.drop start).take (stop - start)

@[simp] theorem slice_self (items : List α) (start : Nat) : slice items start start = [] := by simp [slice]

@[simp] theorem slice_all (items : List α) : slice items 0 items.length = items := by simp [slice]

theorem length_slice {items : List α} (bound : stop ≤ items.length) : (slice items start stop).length = stop - start := by
  simp only [slice, List.length_take, List.length_drop]
  omega

theorem map_slice (items : List α) (f : α → β) (start stop : Nat) :
    (slice items start stop).map f = slice (items.map f) start stop := by
  simp [slice, List.map_take, List.map_drop]

theorem slice_append (items : List α) (first : start ≤ middle) (second : middle ≤ stop) :
    slice items start middle ++ slice items middle stop = slice items start stop := by
  have split : stop - start = (middle - start) + (stop - middle) := by omega
  have rest : items.drop middle = (items.drop start).drop (middle - start) := by
    rw [List.drop_drop]
    congr 1
    omega
  rw [slice, slice, slice, split, List.take_add, rest]

theorem getElem?_slice (items : List α) (start stop index : Nat) :
    (slice items start stop)[index]? = if index < stop - start then items[start + index]? else none := by
  simp only [slice, List.getElem?_take, List.getElem?_drop]

theorem slice_ext {left right : List α} (start start' size : Nat)
    (same : ∀ index < size, left[start + index]? = right[start' + index]?) :
    slice left start (start + size) = slice right start' (start' + size) := by
  apply List.ext_getElem?
  intro index
  simp only [getElem?_slice, Nat.add_sub_cancel_left]
  split
  · rename_i inside
    exact same index inside
  · rfl

theorem getElem?_of_slice_eq {left right : List α} {start start' : Nat} (size : Nat)
    (same : slice left start (start + size) = slice right start' (start' + size)) (inside : index < size) :
    left[start + index]? = right[start' + index]? := by
  have both := congrArg (·[index]?) same
  simpa [getElem?_slice, inside] using both

theorem slice_take (items : List α) (bound : stop ≤ size) : slice (items.take size) start stop = slice items start stop := by
  apply List.ext_getElem?
  intro index
  simp only [getElem?_slice, List.getElem?_take]
  split
  · rw [if_pos (by omega)]
  · rfl

theorem slice_drop (items : List α) (offset start stop : Nat) :
    slice (items.drop offset) start stop = slice items (offset + start) (offset + stop) := by
  apply List.ext_getElem?
  intro index
  simp only [getElem?_slice, List.getElem?_drop, Nat.add_sub_add_left, Nat.add_assoc]

theorem slice_slice (items : List α) {first last start stop : Nat} (bound : first + stop ≤ last) :
    slice (slice items first last) start stop = slice items (first + start) (first + stop) := by
  rw [slice, slice, ← slice, ← slice_drop]
  exact slice_take _ (by omega)

end NovelStudio.Library
