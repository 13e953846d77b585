import NovelStudio.Library.Dict
import NovelStudio.Library.Fallible

/-! The rows of the experimental services (`common.py`) and their versions. -/

namespace NovelStudio.Experimental

open Library

inductive Failure where
  | value (code : String)
  | stale (code : String)
  | notFound (code : String)
  | versionConflict
  | revisionLocked
  /-- An HTTP refusal. -/
  | denied (status : Nat) (code : String)
  | other (note : String)
  deriving DecidableEq

/-- A row with the fields that `new_row` gives every row. -/
structure Row (α : Type) where
  createdBy : String
  version : Nat
  data : α

def newRow (actor : String) (data : α) : Row α := ⟨actor, 1, data⟩

def checkVersion (row : Row α) (expected : Nat) : Except Failure Unit :=
  reject (expected ≠ row.version) .versionConflict

/-- `advance`: the change and the next version; no row changes without it. -/
def advance (row : Row α) (expected : Nat) (change : α → α) : Except Failure (Row α) := do
  checkVersion row expected
  return { row with version := expected + 1, data := change row.data }

/-- `advance(row, actor, row['version'], change)`, which can not fail. -/
def bump (row : Row α) (change : α → α) : Row α := { row with version := row.version + 1, data := change row.data }

def stored (rows : Dict String (Row α)) (rid : String) : Except Failure (Row α) :=
  fetch (rows.get? rid) (.other "KeyError")

@[simp] theorem checkVersion_ok {row : Row α} : checkVersion row expected = .ok result ↔ expected = row.version := by
  simp [checkVersion]

@[simp] theorem advance_ok {row : Row α} :
    advance row expected change = .ok next ↔ expected = row.version ∧ next = bump row change := by
  simp only [advance, bind_ok, checkVersion_ok, pure_ok]
  constructor
  · rintro ⟨_, rfl, rfl⟩
    exact ⟨rfl, rfl⟩
  · rintro ⟨rfl, rfl⟩
    exact ⟨(), rfl, rfl⟩

@[simp] theorem stored_ok {rows : Dict String (Row α)} : stored rows rid = .ok row ↔ rows.get? rid = some row := by
  simp [stored]

/-- How a collection changes: its rows are kept or changed, and the rows that are new. -/
structure RowsStep (changed : Row α → Row α → Prop) (new : Row α → Prop) (before after : Dict String (Row α)) : Prop where
  kept : ∀ ⦃rid row⦄, before.get? rid = some row → ∃ next, after.get? rid = some next ∧ (next = row ∨ changed row next)
  added : ∀ ⦃rid next⦄, before.get? rid = none → after.get? rid = some next → new next

namespace RowsStep

variable {changed : Row α → Row α → Prop} {new : Row α → Prop}

theorem refl (rows : Dict String (Row α)) : RowsStep changed new rows rows :=
  ⟨fun _ row found => ⟨row, found, .inl rfl⟩, fun _ _ absent found => by simp [absent] at found⟩

theorem mapValues (rows : Dict String (Row α)) (change : String → Row α → Row α)
    (steps : ∀ rid row, change rid row = row ∨ changed row (change rid row)) :
    RowsStep changed new rows (rows.mapValues change) := by
  refine ⟨fun rid row found => ⟨change rid row, by simp [found], steps rid row⟩, fun rid next absent found => ?_⟩
  simp [absent] at found

theorem set {rows : Dict String (Row α)} (found : rows.get? rid = some row) (step : changed row next) :
    RowsStep changed new rows (rows.set rid next) := by
  refine ⟨fun other stored there => ?_, fun other added absent there => ?_⟩
  · rw [Dict.get?_set]
    split
    · rename_i same
      subst same
      cases there.symm.trans found
      exact ⟨next, rfl, .inr step⟩
    · exact ⟨stored, there, .inl rfl⟩
  · rw [Dict.get?_set] at there
    split at there
    · rename_i same
      simp [same, found] at absent
    · simp [absent] at there

theorem insert {before middle : Dict String (Row α)} (step : RowsStep changed new before middle)
    (absent : before.get? rid = none) (fresh : new next) : RowsStep changed new before (middle.set rid next) := by
  refine ⟨fun other row found => ?_, fun other added none found => ?_⟩
  · have different : other ≠ rid := by
      rintro rfl
      simp [absent] at found
    rw [Dict.get?_set_ne _ _ different]
    exact step.kept found
  · rw [Dict.get?_set] at found
    split at found
    · cases found
      exact fresh
    · exact step.added none found

end RowsStep

end NovelStudio.Experimental
