import Mathlib.Tactic.IntervalCases

/-! Numbers that are padded with zeros, and times of hours, minutes, seconds and milliseconds: what
is written is read back. -/

namespace NovelStudio.Library

/-- The zeros of Unicode; nine more decimal digits follow each. -/
def DECIMAL_ZEROS : List Nat :=
  [0x30, 0x660, 0x6F0, 0x7C0, 0x966, 0x9E6, 0xA66, 0xAE6, 0xB66, 0xBE6, 0xC66, 0xCE6, 0xD66, 0xDE6, 0xE50, 0xED0, 0xF20, 0x1040, 0x1090,
    0x17E0, 0x1810, 0x1946, 0x19D0, 0x1A80, 0x1A90, 0x1B50, 0x1BB0, 0x1C40, 0x1C50, 0xA620, 0xA8D0, 0xA900, 0xA9D0, 0xA9F0, 0xAA50, 0xABF0,
    0xFF10, 0x104A0, 0x10D30, 0x11066, 0x110F0, 0x11136, 0x111D0, 0x112F0, 0x11450, 0x114D0, 0x11650, 0x116C0, 0x11730, 0x118E0, 0x11950,
    0x11C50, 0x11D50, 0x11DA0, 0x11F50, 0x16A60, 0x16AC0, 0x16B50, 0x1D7CE, 0x1D7D8, 0x1D7E2, 0x1D7EC, 0x1D7F6, 0x1E140, 0x1E2F0, 0x1E4F0,
    0x1E950, 0x1FBF0]

/-- The value of a character that `\d` matches. -/
def decimalValue (char : Char) : Option Nat :=
  (DECIMAL_ZEROS.find? fun first => first ≤ char.toNat && char.toNat ≤ first + 9).map (char.toNat - ·)

def isDecimal (char : Char) : Bool := (decimalValue char).isSome

/-- `int(digits)`. -/
def decimalNumber (digits : List Char) : Nat := digits.foldl (fun value digit => value * 10 + (decimalValue digit).getD 0) 0

/-- `f"{value:0{width}d}"`. -/
def zeroPadded (width value : Nat) : List Char := List.replicate (width - (Nat.toDigits 10 value).length) '0' ++ Nat.toDigits 10 value

theorem decimalValue_digitChar (small : digit < 10) : decimalValue digit.digitChar = some digit := by
  interval_cases digit <;> decide

theorem decimalNumber_snoc (digits : List Char) (digit : Char) :
    decimalNumber (digits ++ [digit]) = decimalNumber digits * 10 + (decimalValue digit).getD 0 := by
  rw [decimalNumber, List.foldl_append]
  rfl

theorem zeroPadded_succ (positive : 0 < width) (value : Nat) :
    zeroPadded (width + 1) value = zeroPadded width (value / 10) ++ [(value % 10).digitChar] := by
  unfold zeroPadded
  rcases Nat.lt_or_ge value 10 with small | large
  · obtain ⟨width, rfl⟩ := Nat.exists_eq_succ_of_ne_zero (Nat.ne_of_gt positive)
    rw [Nat.toDigits_of_lt_base small, Nat.div_eq_of_lt small, Nat.mod_eq_of_lt small, Nat.toDigits_zero]
    simp [List.replicate_succ']
  · rw [Nat.toDigits_of_base_le (by decide) large]
    simp

theorem zeroPadded_one (small : value < 10) : zeroPadded 1 value = [value.digitChar] := by
  rw [zeroPadded, Nat.toDigits_of_lt_base small]
  rfl

theorem zeroPadded_two (small : value < 100) : zeroPadded 2 value = [(value / 10).digitChar, (value % 10).digitChar] := by
  rw [zeroPadded_succ (by decide), zeroPadded_one (by omega)]
  rfl

theorem zeroPadded_three (small : value < 1000) :
    zeroPadded 3 value = [(value / 100).digitChar, (value / 10 % 10).digitChar, (value % 10).digitChar] := by
  rw [zeroPadded_succ (by decide), zeroPadded_two (by omega), Nat.div_div_eq_div_mul]
  rfl

/-- ASCII digits. -/
def isNumeral (char : Char) : Bool := '0' ≤ char && char ≤ '9'

theorem isNumeral_toDigits (value : Nat) : ∀ char ∈ Nat.toDigits 10 value, isNumeral char = true := by
  intro char member
  have digit := Nat.isDigit_of_mem_toDigits (by decide) (by decide) member
  simp only [Char.isDigit, Bool.and_eq_true, decide_eq_true_eq] at digit
  simp only [isNumeral, Bool.and_eq_true, decide_eq_true_eq]
  exact digit

theorem isNumeral_zeroPadded (width value : Nat) : ∀ char ∈ zeroPadded width value, isNumeral char = true := by
  intro char member
  rcases List.mem_append.mp member with zero | digit
  · rw [List.eq_of_mem_replicate zero]
    decide
  · exact isNumeral_toDigits value char digit

theorem isNumeral_range (numeral : isNumeral char = true) : 48 ≤ char.toNat ∧ char.toNat ≤ 57 := by
  simp only [isNumeral, Bool.and_eq_true, decide_eq_true_eq] at numeral
  exact numeral

theorem isDecimal_numeral (numeral : isNumeral char = true) : isDecimal char = true := by
  obtain ⟨low, high⟩ := isNumeral_range numeral
  have first : (decide (48 ≤ char.toNat) && decide (char.toNat ≤ 48 + 9)) = true := by
    rw [Bool.and_eq_true, decide_eq_true_eq, decide_eq_true_eq]
    omega
  obtain ⟨others, zeros⟩ : ∃ others, DECIMAL_ZEROS = 48 :: others := ⟨_, rfl⟩
  unfold isDecimal decimalValue
  rw [zeros, List.find?_cons, first]
  rfl

theorem decimalNumber_toDigits (value : Nat) : decimalNumber (Nat.toDigits 10 value) = value := by
  induction value using Nat.strongRecOn with
  | _ value ih =>
    rcases Nat.lt_or_ge value 10 with small | large
    · rw [Nat.toDigits_of_lt_base small]
      simp [decimalNumber, decimalValue_digitChar small]
    · have below : value / 10 < value := by omega
      rw [Nat.toDigits_of_base_le (by decide) large, decimalNumber_snoc, ih _ below, decimalValue_digitChar (Nat.mod_lt _ (by decide)),
        Option.getD_some]
      omega

theorem decimalNumber_zeros (count : Nat) (digits : List Char) : decimalNumber (List.replicate count '0' ++ digits) = decimalNumber digits := by
  induction count with
  | zero => rfl
  | succ count ih =>
    have zero : decimalValue '0' = some 0 := rfl
    rw [← ih, decimalNumber, List.replicate_succ, List.cons_append, List.foldl_cons, zero]
    rfl

theorem decimalNumber_zeroPadded (width value : Nat) : decimalNumber (zeroPadded width value) = value := by
  rw [zeroPadded, decimalNumber_zeros, decimalNumber_toDigits]

/-- `hours:minutes:seconds`, the separator and the milliseconds. -/
def stamp (separator : Char) (milliseconds : Nat) : List Char :=
  let hours := milliseconds / 3600000
  let rest := milliseconds % 3600000
  let minutes := rest / 60000
  let rest := rest % 60000
  zeroPadded 2 hours ++ ':' :: zeroPadded 2 minutes ++ ':' :: zeroPadded 2 (rest / 1000) ++ separator :: zeroPadded 3 (rest % 1000)

/-- How many digits the hours may have, which digits may begin the minutes and the seconds, and what may stand before the milliseconds. -/
structure StampRule where
  hours : Nat → Bool
  tens : Char → Bool
  separators : List Char

/-- Two decimal digits, the first of which is one of some. -/
def readPair (tens : Char → Bool) (one two : Char) : Option Nat :=
  if tens one && isDecimal one && isDecimal two then some (decimalNumber [one, two]) else none

/-- The time that a text begins with, and what is left of it. -/
def readStamp (rule : StampRule) (text : List Char) : Option (Nat × List Char) := do
  let hours := text.takeWhile isDecimal
  guard (rule.hours hours.length)
  match text.dropWhile isDecimal with
  | ':' :: m :: m' :: ':' :: s :: s' :: separator :: a :: b :: c :: rest =>
    let minutes ← readPair rule.tens m m'
    let seconds ← readPair rule.tens s s'
    guard (separator ∈ rule.separators && isDecimal a && isDecimal b && isDecimal c)
    return (((decimalNumber hours * 60 + minutes) * 60 + seconds) * 1000 + decimalNumber [a, b, c], rest)
  | _ => none

/-- The two times of a whole line, with an arrow between. -/
def readTiming (rule : StampRule) (line : List Char) : Option (Nat × Nat) := do
  let (start, rest) ← readStamp rule line
  match rest with
  | ' ' :: '-' :: '-' :: '>' :: ' ' :: rest =>
    let (finish, left) ← readStamp rule rest
    guard left.isEmpty
    return (start, finish)
  | _ => none

def timing (separator : Char) (start finish : Nat) : List Char := stamp separator start ++ [' ', '-', '-', '>', ' '] ++ stamp separator finish

theorem readPair_digits {tens : Char → Bool} (small : value < 60) (low : ∀ digit, digit < 6 → tens digit.digitChar = true) :
    readPair tens (value / 10).digitChar (value % 10).digitChar = some value := by
  have one := decimalValue_digitChar (show value / 10 < 10 by omega)
  have two := decimalValue_digitChar (show value % 10 < 10 by omega)
  have number : decimalNumber [(value / 10).digitChar, (value % 10).digitChar] = value := by
    simp only [decimalNumber, List.foldl_cons, List.foldl_nil, one, two, Option.getD_some]
    omega
  simp [readPair, isDecimal, one, two, low _ (show value / 10 < 6 by omega), number]

/-- A rule that takes what `stamp` writes. -/
structure StampRule.Takes (rule : StampRule) (separator : Char) (milliseconds : Nat) : Prop where
  hours : rule.hours (zeroPadded 2 (milliseconds / 3600000)).length = true
  tens : ∀ digit, digit < 6 → rule.tens digit.digitChar = true
  separator : separator ∈ rule.separators

theorem stamp_parts (separator : Char) (milliseconds : Nat) : ∃ minutes seconds millis, minutes < 60 ∧ seconds < 60 ∧ millis < 1000 ∧
    ((milliseconds / 3600000 * 60 + minutes) * 60 + seconds) * 1000 + millis = milliseconds ∧
    stamp separator milliseconds = zeroPadded 2 (milliseconds / 3600000) ++
      ':' :: (minutes / 10).digitChar :: (minutes % 10).digitChar :: ':' :: (seconds / 10).digitChar :: (seconds % 10).digitChar ::
      [separator, (millis / 100).digitChar, (millis / 10 % 10).digitChar, (millis % 10).digitChar] := by
  refine ⟨milliseconds % 3600000 / 60000, milliseconds % 3600000 % 60000 / 1000, milliseconds % 3600000 % 60000 % 1000, ?_, ?_, ?_, ?_, ?_⟩
  · omega
  · omega
  · omega
  · omega
  · unfold stamp
    simp only
    rw [zeroPadded_two (show milliseconds % 3600000 / 60000 < 100 by omega),
      zeroPadded_two (show milliseconds % 3600000 % 60000 / 1000 < 100 by omega),
      zeroPadded_three (show milliseconds % 3600000 % 60000 % 1000 < 1000 by omega)]
    simp only [List.append_assoc, List.cons_append, List.nil_append]

theorem readMillis (small : millis < 1000) :
    (isDecimal (millis / 100).digitChar && isDecimal (millis / 10 % 10).digitChar && isDecimal (millis % 10).digitChar) = true ∧
      decimalNumber [(millis / 100).digitChar, (millis / 10 % 10).digitChar, (millis % 10).digitChar] = millis := by
  have hundreds := decimalValue_digitChar (show millis / 100 < 10 by omega)
  have tens := decimalValue_digitChar (show millis / 10 % 10 < 10 by omega)
  have ones := decimalValue_digitChar (show millis % 10 < 10 by omega)
  constructor
  · simp [isDecimal, hundreds, tens, ones]
  · simp only [decimalNumber, List.foldl_cons, List.foldl_nil, hundreds, tens, ones, Option.getD_some]
    omega

theorem readStamp_stamp {rule : StampRule} (takes : rule.Takes separator milliseconds) (rest : List Char) :
    readStamp rule (stamp separator milliseconds ++ rest) = some (milliseconds, rest) := by
  obtain ⟨minutes, seconds, millis, minute, second, milli, whole, written⟩ := stamp_parts separator milliseconds
  have digits : ∀ char ∈ zeroPadded 2 (milliseconds / 3600000), isDecimal char = true :=
    fun char member => isDecimal_numeral (isNumeral_zeroPadded _ _ char member)
  have colon : ¬isDecimal ':' = true := by decide
  have taken (tail : List Char) : (zeroPadded 2 (milliseconds / 3600000) ++ ':' :: tail).takeWhile isDecimal = zeroPadded 2 (milliseconds / 3600000) := by
    rw [List.takeWhile_append_of_pos digits, List.takeWhile_cons_of_neg colon, List.append_nil]
  have left (tail : List Char) : (zeroPadded 2 (milliseconds / 3600000) ++ ':' :: tail).dropWhile isDecimal = ':' :: tail := by
    rw [List.dropWhile_append_of_pos digits, List.dropWhile_cons_of_neg colon]
  obtain ⟨decimals, number⟩ := readMillis milli
  have separated : (decide (separator ∈ rule.separators) && isDecimal (millis / 100).digitChar && isDecimal (millis / 10 % 10).digitChar &&
      isDecimal (millis % 10).digitChar) = true := by
    rw [decide_eq_true takes.separator, Bool.true_and]
    exact decimals
  rw [written, List.append_assoc, readStamp]
  simp only [List.cons_append, List.nil_append, taken, left, takes.hours, guard_true, readPair_digits minute takes.tens,
    readPair_digits second takes.tens, separated, number, decimalNumber_zeroPadded, whole, Option.pure_def, Option.bind_eq_bind, Option.bind_some]

theorem readTiming_timing {rule : StampRule} (starts : rule.Takes separator start) (ends : rule.Takes separator finish) :
    readTiming rule (timing separator start finish) = some (start, finish) := by
  have last := readStamp_stamp ends []
  rw [List.append_nil] at last
  rw [readTiming, timing, List.append_assoc, readStamp_stamp starts]
  simp [last]

end NovelStudio.Library
