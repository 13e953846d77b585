import Mathlib.Logic.Basic

/-! Three-way merges of one value: which of two sides changed it from a common base, and
what the merge takes. -/

namespace NovelStudio.Library

universe u
variable {α : Type u} (same : α → α → Bool) (base left right : α)

/-- What two sides did to a value of the base, when they did anything. -/
inductive Difference where
  | bothSame | rightOnly | leftOnly | conflict
  deriving DecidableEq

/-- How the sides differ from the base, compared in this order. -/
def difference : Option Difference :=
  if same left right && same right base then none
  else if same left right then some .bothSame
  else if same left base then some .rightOnly
  else if same right base then some .leftOnly
  else some .conflict

/-- The value a merge takes; the right side of a conflict only when asked to. -/
def merged (takeRight : Bool) : α :=
  match difference same base left right with
  | none | some .leftOnly => left
  | some .bothSame | some .rightOnly => right
  | some .conflict => if takeRight then right else left

variable {same base left right} {takeRight : Bool}

theorem merged_right (kept : same left base) (changed : same right base = false) :
    merged same base left right takeRight = right := by
  by_cases agree : same left right <;> simp [merged, difference, agree, kept, changed]

theorem merged_left (changed : same left base = false) (kept : same right base) :
    merged same base left right takeRight = left := by
  by_cases agree : same left right <;> simp [merged, difference, agree, changed, kept]

theorem merged_both (agree : same left right) (changed : same right base = false) :
    merged same base left right takeRight = right := by
  simp [merged, difference, agree, changed]

theorem merged_conflict (differ : same left right = false) (left' : same left base = false) (right' : same right base = false) :
    merged same base left right takeRight = if takeRight then right else left := by
  simp [merged, difference, differ, left', right']

theorem differ_of_conflict (conflict : difference same base left right = some .conflict) : same left right = false := by
  cases agree : same left right with
  | false => rfl
  | true => by_cases kept : same right base <;> simp [difference, agree, kept] at conflict

end NovelStudio.Library
