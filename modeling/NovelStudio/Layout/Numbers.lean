import Mathlib.Data.Rat.Floor
import Mathlib.Tactic.Linarith

/-! The numbers that the layout computes with: those of the language, and the integers among them. -/

namespace NovelStudio.Layout

/-- What the layout does with its numbers. -/
structure Numbers (ν : Type) where
  ofInt : Int → ν
  add : ν → ν → ν
  sub : ν → ν → ν
  /-- `Math.max`, `Math.min`. -/
  max : ν → ν → ν
  min : ν → ν → ν
  lt : ν → ν → Bool
  le : ν → ν → Bool
  /-- `left === right`. -/
  same : ν → ν → Bool
  /-- Both have the same JSON text. -/
  sameText : ν → ν → Bool
  isFinite : ν → Bool
  round : ν → ν
  floor : ν → ν
  /-- `Math.floor(axis * MAX_DOCK_FRACTION)`. -/
  dockShare : ν → ν

/-- What the order of panels rests on. -/
structure Numbers.Lawful (js : Numbers ν) : Prop where
  eq_of_same : ∀ {left right}, js.same left right = true → left = right
  ofInt_inj : ∀ {left right}, js.ofInt left = js.ofInt right → left = right
  ne_of_lt : ∀ {left right}, js.lt left right = true → left ≠ right
  lt_of_lt_next : ∀ {number bound}, js.lt (js.ofInt (number + 1)) bound = true → js.lt (js.ofInt number) bound = true
  /-- What an integer is not below, the next one is not. -/
  next_ne : ∀ {number bound}, js.lt (js.ofInt number) bound = false → js.ofInt (number + 1) ≠ bound

/-- The integers, where `share` is what a dock may take of an axis. -/
def integers (share : Int → Int) : Numbers Int where
  ofInt number := number
  add := (· + ·)
  sub := (· - ·)
  max := Max.max
  min := Min.min
  lt left right := left < right
  le left right := left ≤ right
  same left right := left = right
  sameText left right := left = right
  isFinite _ := true
  round number := number
  floor number := number
  dockShare := share

theorem integers_lawful (share : Int → Int) : (integers share).Lawful where
  eq_of_same := of_decide_eq_true
  ofInt_inj same := same
  ne_of_lt := by
    rintro left _ less rfl
    exact lt_irrefl left (of_decide_eq_true less)
  lt_of_lt_next := by
    intro number bound less
    have less : number + 1 < bound := of_decide_eq_true less
    have earlier : number < bound := by omega
    exact decide_eq_true earlier
  next_ne := by
    rintro number _ least rfl
    exact of_decide_eq_false least (Int.lt_succ number)

/-- A number of the language; its two zeros are one here. -/
inductive Num where
  | finite (value : ℚ)
  | infinite (negative : Bool)
  | nan
  deriving DecidableEq

namespace Num

def lt : Num → Num → Bool
  | .finite left, .finite right => left < right
  | .infinite true, .finite _ | .infinite true, .infinite false | .finite _, .infinite false => true
  | _, _ => false

def isNan : Num → Bool
  | .nan => true
  | _ => false

def le (left right : Num) : Bool := !left.isNan && !right.isNan && !lt right left

def max (left right : Num) : Num := if left.isNan || right.isNan then .nan else if lt left right then right else left

def min (left right : Num) : Num := if left.isNan || right.isNan then .nan else if lt right left then right else left

def neg : Num → Num
  | .finite value => .finite (-value)
  | .infinite negative => .infinite !negative
  | .nan => .nan

def isFinite : Num → Bool
  | .finite _ => true
  | _ => false

/-- The sum, which `rounding` takes to a number of the language. -/
def add (rounding : ℚ → Num) : Num → Num → Num
  | .finite left, .finite right => rounding (left + right)
  | .infinite left, .infinite right => if left = right then .infinite left else .nan
  | .infinite negative, .finite _ | .finite _, .infinite negative => .infinite negative
  | _, _ => .nan

/-- `Math.floor`. -/
def floor : Num → Num
  | .finite value => .finite ⌊value⌋
  | other => other

/-- `Math.round`. -/
def round : Num → Num
  | .finite value => .finite ⌊value + 1 / 2⌋
  | other => other

/-- `axis * fraction`. -/
def scale (rounding : ℚ → Num) (fraction : ℚ) : Num → Num
  | .finite value => rounding (value * fraction)
  | other => other

end Num

/-- The numbers of the language, with its rounding and with what `MAX_DOCK_FRACTION` is in it. -/
def numbers (rounding : ℚ → Num) (fraction : ℚ) : Numbers Num where
  ofInt number := .finite number
  add := Num.add rounding
  sub left right := Num.add rounding left right.neg
  max := Num.max
  min := Num.min
  lt := Num.lt
  le := Num.le
  same left right := left = right && !left.isNan
  sameText left right := left = right || !left.isFinite && !right.isFinite
  isFinite := Num.isFinite
  round := Num.round
  floor := Num.floor
  dockShare axis := (axis.scale rounding fraction).floor

theorem numbers_lawful (rounding : ℚ → Num) (fraction : ℚ) : (numbers rounding fraction).Lawful where
  eq_of_same same := by
    simp only [numbers, Bool.and_eq_true, decide_eq_true_eq] at same
    exact same.1
  ofInt_inj same := by
    simpa [numbers] using same
  ne_of_lt := by
    rintro left _ less rfl
    cases left with
    | finite value => simp [numbers, Num.lt] at less
    | infinite negative => cases negative <;> simp [numbers, Num.lt] at less
    | nan => simp [numbers, Num.lt] at less
  lt_of_lt_next := by
    intro number bound less
    cases bound with
    | finite value =>
      have less : ((number + 1 : Int) : ℚ) < value := of_decide_eq_true less
      have earlier : (number : ℚ) < value := by
        push_cast at less
        linarith
      exact decide_eq_true earlier
    | infinite negative => cases negative <;> simp_all [numbers, Num.lt]
    | nan => simp [numbers, Num.lt] at less
  next_ne := by
    rintro number _ least rfl
    simp [numbers, Num.lt] at least

end NovelStudio.Layout
