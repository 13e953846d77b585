import Mathlib.Data.List.Chain
import Mathlib.Tactic.IntervalCases
import NovelStudio.Library.JsonDecoder

/-! `json.dumps` of Python without spaces, and that scanning its text gives the value back. -/

namespace NovelStudio.Library

/-- `'\\u{0:04x}'.format(unit)`. -/
def hexChar (digit : Nat) : Char := if digit < 10 then Char.ofNat (48 + digit) else Char.ofNat (87 + digit)

def unicodeEscape (unit : Nat) : List Char :=
  ['\\', 'u', hexChar (unit / 4096 % 16), hexChar (unit / 256 % 16), hexChar (unit / 16 % 16), hexChar (unit % 16)]

/-- The characters that have an escape of their own. -/
def shortEscape (point : Nat) : Option Char :=
  match point with
  | 34 => some '"'
  | 92 => some '\\'
  | 10 => some 'n'
  | 13 => some 'r'
  | 9 => some 't'
  | 12 => some 'f'
  | 8 => some 'b'
  | _ => none

def isHighSurrogate (point : Nat) : Bool := 0xD800 ≤ point && point ≤ 0xDBFF
def isLowSurrogate (point : Nat) : Bool := 0xDC00 ≤ point && point ≤ 0xDFFF

/-- A character of a string, with `ensure_ascii`. -/
def escapeAscii (point : Nat) : Option (List Char) :=
  match shortEscape point with
  | some char => some ['\\', char]
  | none =>
    if 32 ≤ point ∧ point ≤ 126 then some [Char.ofNat point]
    else if point < 0x10000 then some (unicodeEscape point)
    else some (unicodeEscape (0xD800 + (point - 0x10000) / 0x400) ++ unicodeEscape (0xDC00 + (point - 0x10000) % 0x400))

/-- A character of a string without `ensure_ascii`; a surrogate has no UTF-8. -/
def escapePlain (point : Nat) : Option (List Char) :=
  match shortEscape point with
  | some char => some ['\\', char]
  | none =>
    if point < 32 then some (unicodeEscape point)
    else if isHighSurrogate point || isLowSurrogate point then none
    else some [Char.ofNat point]

/-- How characters are escaped and floats are printed; either may fail. -/
structure Style where
  escape : Nat → Option (List Char)
  float : List Char → Option (List Char)

variable (style : Style)

def escapeAll : PyStr → Option (List Char)
  | [] => some []
  | point :: rest => do return (← style.escape point) ++ (← escapeAll rest)

def encodeString (text : PyStr) : Option (List Char) := do
  return '"' :: (← escapeAll style text) ++ ['"']

def encodeInt (value : Int) : List Char :=
  if value < 0 then '-' :: Nat.toDigits 10 value.natAbs else Nat.toDigits 10 value.natAbs

mutual
def encodeValue : Decoded → Option (List Char)
  | .null => some ['n', 'u', 'l', 'l']
  | .bool true => some ['t', 'r', 'u', 'e']
  | .bool false => some ['f', 'a', 'l', 's', 'e']
  | .int value => some (encodeInt value)
  | .float literal => style.float literal
  | .str text => encodeString style text
  | .list items => do return '[' :: (← encodeItems items) ++ [']']
  | .dict fields => do return '{' :: (← encodeFields fields) ++ ['}']

def encodeItems : List Decoded → Option (List Char)
  | [] => some []
  | item :: rest =>
    if rest.isEmpty then encodeValue item
    else do return (← encodeValue item) ++ ',' :: (← encodeItems rest)

def encodeFields : List (PyStr × Decoded) → Option (List Char)
  | [] => some []
  | (key, value) :: rest => do
    let field := (← encodeString style key) ++ ':' :: (← encodeValue value)
    if rest.isEmpty then return field else return field ++ ',' :: (← encodeFields rest)
end

theorem hexDigit_hexChar : ∀ digit, digit < 16 → hexDigit (hexChar digit) = some digit := by decide

theorem hexFour_unit (bounded : unit < 0x10000) :
    hexFour (hexChar (unit / 4096 % 16)) (hexChar (unit / 256 % 16)) (hexChar (unit / 16 % 16)) (hexChar (unit % 16)) = some unit := by
  have nibble (number : Nat) : hexDigit (hexChar (number % 16)) = some (number % 16) :=
    hexDigit_hexChar _ (Nat.mod_lt _ (by decide))
  simp only [hexFour, nibble, Option.pure_def, Option.bind_eq_bind, Option.bind_some, Option.some.injEq]
  omega

/-- The ways in which a text stands for a character. -/
inductive Escaped : Nat → List Char → Prop where
  | short (named : shortEscape point = some char) : Escaped point ['\\', char]
  | unit (bounded : point < 0x10000) : Escaped point (unicodeEscape point)
  | pair (high : 0x10000 ≤ point) (bounded : point < 0x110000) :
      Escaped point (unicodeEscape (0xD800 + (point - 0x10000) / 0x400) ++ unicodeEscape (0xDC00 + (point - 0x10000) % 0x400))
  | plain (char : Char) (printed : 32 ≤ char.toNat) (quote : char ≠ '"') (slash : char ≠ '\\') : Escaped char.toNat [char]

/-- What follows a character does not turn it into the first half of a pair. -/
def Separate (point : Nat) (tail : List Char) : Prop := isHighSurrogate point = true → lowSurrogate tail = none

theorem shortEscape_spec (named : shortEscape point = some char) :
    simpleEscape char = some point ∧ char ≠ 'u' ∧ isHighSurrogate point = false := by
  unfold shortEscape at named
  split at named <;> first | cases named | skip
  all_goals exact ⟨rfl, by decide, by decide⟩

theorem scanString_short (named : shortEscape point = some char) (fuel : Nat) :
    scanString (fuel + 1) ('\\' :: char :: tail) = scanThen (scanString fuel tail) fun points left => .ok (point :: points, left) := by
  obtain ⟨simple, notUnit, _⟩ := shortEscape_spec named
  rw [scanString.eq_def]
  simp only
  split
  · contradiction
  · rename_i same
    exact absurd (List.cons.inj same).1 (by decide)
  · rename_i same
    exact absurd (List.cons.inj (List.cons.inj same).2).1 notUnit
  · rename_i same
    cases same
    rw [simple]
  · rename_i other same
    cases same
    exact absurd rfl (other char tail rfl)

theorem scanString_unit (code : Nat) (bounded : code < 0x10000) (fuel : Nat) :
    scanString (fuel + 1) (unicodeEscape code ++ tail) =
      scanThen (scanString fuel (escapedPoint code tail).2) fun points left => .ok ((escapedPoint code tail).1 :: points, left) := by
  simp only [unicodeEscape, List.cons_append, List.nil_append, scanString, hexFour_unit bounded]

theorem lowSurrogate_unit (bounded : code < 0x10000) :
    lowSurrogate (unicodeEscape code ++ tail) = if isLowSurrogate code then some (code, tail) else none := by
  simp only [unicodeEscape, List.cons_append, List.nil_append, lowSurrogate, hexFour_unit bounded, isLowSurrogate, Bool.and_eq_true, decide_eq_true_eq]

theorem escapedPoint_separate (separate : Separate point tail) : escapedPoint point tail = (point, tail) := by
  unfold escapedPoint
  split
  · rename_i high
    rw [separate (by simpa [isHighSurrogate] using high)]
  · rfl

theorem escapedPoint_pair (high : 0x10000 ≤ point) (bounded : point < 0x110000) :
    escapedPoint (0xD800 + (point - 0x10000) / 0x400) (unicodeEscape (0xDC00 + (point - 0x10000) % 0x400) ++ tail) = (point, tail) := by
  have low : lowSurrogate (unicodeEscape (0xDC00 + (point - 0x10000) % 0x400) ++ tail) = some (0xDC00 + (point - 0x10000) % 0x400, tail) := by
    rw [lowSurrogate_unit (by omega), if_pos (by simp only [isLowSurrogate, Bool.and_eq_true, decide_eq_true_eq]; omega)]
  unfold escapedPoint
  rw [if_pos (by omega), low]
  simp only [Prod.mk.injEq, and_true]
  omega

theorem scanString_plain (char : Char) (printed : 32 ≤ char.toNat) (quote : char ≠ '"') (slash : char ≠ '\\') (fuel : Nat) :
    scanString (fuel + 1) (char :: tail) = scanThen (scanString fuel tail) fun points left => .ok (char.toNat :: points, left) := by
  rw [scanString.eq_def]
  simp only
  split
  · contradiction
  · rename_i same
    exact absurd (List.cons.inj same).1 quote
  · rename_i same
    exact absurd (List.cons.inj same).1 slash
  · rename_i same
    exact absurd (List.cons.inj same).1 slash
  · rename_i same
    cases same
    rw [if_neg]
    rintro (control | escaped)
    · omega
    · exact slash escaped

theorem scanString_escaped (escaped : Escaped point text) (separate : Separate point tail) (fuel : Nat) :
    scanString (fuel + 1) (text ++ tail) = scanThen (scanString fuel tail) fun points left => .ok (point :: points, left) := by
  cases escaped with
  | short named => exact scanString_short named fuel
  | unit bounded => rw [scanString_unit _ bounded, escapedPoint_separate separate]
  | pair high bounded => rw [List.append_assoc, scanString_unit _ (by omega), escapedPoint_pair high bounded]
  | plain char printed quote slash => exact scanString_plain char printed quote slash fuel

/-- Two halves of a pair that stand side by side are read as one character. -/
def joined : PyStr → PyStr
  | [] => []
  | [point] => [point]
  | one :: two :: rest =>
    if isHighSurrogate one && isLowSurrogate two then (0x10000 + (one - 0xD800) * 0x400 + (two - 0xDC00)) :: joined rest
    else one :: joined (two :: rest)

/-- No first half of a pair stands right before a second half. -/
def Unpaired (text : PyStr) : Prop := text.IsChain fun one two => ¬(isHighSurrogate one = true ∧ isLowSurrogate two = true)

theorem joined_unpaired {text : PyStr} (unpaired : Unpaired text) : joined text = text := by
  fun_induction joined text with
  | case1 => rfl
  | case2 => rfl
  | case3 one two rest paired ih =>
    rw [Bool.and_eq_true] at paired
    exact absurd paired (List.isChain_cons_cons.mp unpaired).1
  | case4 one two rest apart ih => rw [ih unpaired.tail]

theorem lowSurrogate_escaped (escaped : Escaped point text) (other : isLowSurrogate point = false) : lowSurrogate (text ++ tail) = none := by
  cases escaped with
  | short named =>
    obtain ⟨_, notUnit, _⟩ := shortEscape_spec named
    unfold lowSurrogate
    split
    · rename_i same
      exact absurd (List.cons.inj (List.cons.inj same).2).1 notUnit
    · rfl
  | unit bounded => rw [lowSurrogate_unit bounded, other, if_neg Bool.false_ne_true]
  | pair high bounded =>
    rw [List.append_assoc, lowSurrogate_unit (by omega), if_neg]
    simp only [isLowSurrogate, Bool.and_eq_true, decide_eq_true_eq]
    omega
  | plain char printed quote slash =>
    unfold lowSurrogate
    split
    · rename_i same
      exact absurd (List.cons.inj same).1 slash
    · rfl

/-- The escapes of a style stand for their characters. -/
def Style.Lawful (style : Style) (point : Nat) : Prop := ∀ text, style.escape point = some text → Escaped point text

variable {style}

theorem escapeAll_cons {rest : PyStr} : escapeAll style (point :: rest) = some text ↔
    ∃ first others, style.escape point = some first ∧ escapeAll style rest = some others ∧ first ++ others = text := by
  simp only [escapeAll, Option.bind_eq_bind, Option.bind_eq_some_iff, Option.pure_def, Option.some.injEq]
  constructor
  · intro ⟨first, escaped, others, later, same⟩
    exact ⟨first, others, escaped, later, same⟩
  · intro ⟨first, others, escaped, later, same⟩
    exact ⟨first, escaped, others, later, same⟩

theorem escaped_surrogate (escaped : Escaped point text) (half : isHighSurrogate point = true ∨ isLowSurrogate point = true) :
    text = unicodeEscape point := by
  simp only [isHighSurrogate, isLowSurrogate, Bool.and_eq_true, decide_eq_true_eq] at half
  cases escaped with
  | short named =>
    unfold shortEscape at named
    split at named <;> first | omega | cases named
  | unit bounded => rfl
  | pair high bounded => omega
  | plain char printed quote slash =>
    have valid := char.valid
    simp only [UInt32.isValidChar, Nat.isValidChar] at valid
    change char.toNat < 0xD800 ∨ 0xDFFF < char.toNat ∧ char.toNat < 0x110000 at valid
    omega

theorem escapedPoint_joined (high : isHighSurrogate one = true) (low : isLowSurrogate two = true) :
    escapedPoint one (unicodeEscape two ++ tail) = (0x10000 + (one - 0xD800) * 0x400 + (two - 0xDC00), tail) := by
  have bounded : two < 0x10000 := by
    simp only [isLowSurrogate, Bool.and_eq_true, decide_eq_true_eq] at low
    omega
  have half : lowSurrogate (unicodeEscape two ++ tail) = some (two, tail) := by rw [lowSurrogate_unit bounded, if_pos low]
  unfold escapedPoint
  rw [if_pos (by simpa [isHighSurrogate] using high), half]

/-- The characters of a string are scanned back up to its closing quote, with their halves joined. -/
theorem scanString_escapeAll {points : PyStr} (lawful : ∀ point ∈ points, style.Lawful point)
    (encoded : escapeAll style points = some text) (fuel : Nat) (enough : points.length < fuel) :
    scanString fuel (text ++ '"' :: rest) = .ok (joined points, rest) := by
  fun_induction joined points generalizing text fuel with
  | case1 =>
    cases encoded
    obtain ⟨fuel, rfl⟩ := Nat.exists_eq_succ_of_ne_zero (Nat.ne_of_gt enough)
    rfl
  | case2 point =>
    obtain ⟨first, later, escaped, coded, rfl⟩ := escapeAll_cons.mp encoded
    cases coded
    obtain ⟨fuel, rfl⟩ := Nat.exists_eq_succ_of_ne_zero (Nat.ne_of_gt (Nat.lt_of_le_of_lt (Nat.zero_le _) enough))
    obtain ⟨fuel, rfl⟩ := Nat.exists_eq_succ_of_ne_zero (Nat.ne_of_gt (Nat.lt_of_succ_lt_succ enough))
    have separate : Separate point ('"' :: rest) := fun _ => rfl
    rw [List.append_nil, scanString_escaped (lawful point (List.mem_cons_self ..) _ escaped) separate]
    rfl
  | case3 one two others paired ih =>
    rw [Bool.and_eq_true] at paired
    obtain ⟨first, later, escaped, coded, rfl⟩ := escapeAll_cons.mp encoded
    obtain ⟨second, last, escapedNext, codedNext, rfl⟩ := escapeAll_cons.mp coded
    obtain rfl := escaped_surrogate (lawful one (List.mem_cons_self ..) _ escaped) (.inl paired.1)
    obtain rfl := escaped_surrogate (lawful two (by simp) _ escapedNext) (.inr paired.2)
    obtain ⟨fuel, rfl⟩ := Nat.exists_eq_succ_of_ne_zero (Nat.ne_of_gt (Nat.lt_of_le_of_lt (Nat.zero_le _) enough))
    have bounded : one < 0x10000 := by
      have high := paired.1
      simp only [isHighSurrogate, Bool.and_eq_true, decide_eq_true_eq] at high
      omega
    have scanned := ih (fun next member => lawful next (List.mem_cons_of_mem _ (List.mem_cons_of_mem _ member))) codedNext fuel (by
      simp only [List.length_cons] at enough
      omega)
    rw [List.append_assoc, List.append_assoc, scanString_unit one bounded, escapedPoint_joined paired.1 paired.2]
    simp only [scanned]
    rfl
  | case4 one two others apart ih =>
    obtain ⟨first, later, escaped, coded, rfl⟩ := escapeAll_cons.mp encoded
    obtain ⟨fuel, rfl⟩ := Nat.exists_eq_succ_of_ne_zero (Nat.ne_of_gt (Nat.lt_of_le_of_lt (Nat.zero_le _) enough))
    have separate : Separate one (later ++ '"' :: rest) := by
      intro high
      obtain ⟨second, last, escapedNext, _, rfl⟩ := escapeAll_cons.mp coded
      have alone : isLowSurrogate two = false := by simpa [high] using apart
      rw [List.append_assoc]
      exact lowSurrogate_escaped (lawful two (by simp) _ escapedNext) alone
    have scanned := ih (fun next member => lawful next (List.mem_cons_of_mem _ member)) coded fuel (Nat.lt_of_succ_lt_succ enough)
    rw [List.append_assoc, scanString_escaped (lawful one (List.mem_cons_self ..) _ escaped) separate, scanned]
    rfl

theorem toNat_ofNat_valid (valid : point.isValidChar) : (Char.ofNat point).toNat = point := by
  unfold Char.ofNat
  rw [dif_pos valid]
  rfl

theorem escaped_plain (valid : point.isValidChar) (printed : 32 ≤ point) (unnamed : shortEscape point = none) :
    Escaped point [Char.ofNat point] := by
  have back := toNat_ofNat_valid valid
  have plain := Escaped.plain (Char.ofNat point) (by omega)
  rw [back] at plain
  apply plain
  · intro quote
    rw [quote] at back
    rw [← back] at unnamed
    cases unnamed
  · intro slash
    rw [slash] at back
    rw [← back] at unnamed
    cases unnamed

theorem escapeAscii_lawful (float : List Char → Option (List Char)) (bounded : point < 0x110000) : (Style.mk escapeAscii float).Lawful point := by
  intro text escaped
  simp only [escapeAscii] at escaped
  split at escaped
  · rename_i named
    cases escaped
    exact .short named
  · rename_i unnamed
    split at escaped
    · rename_i printed
      cases escaped
      exact escaped_plain (.inl (by omega)) printed.1 unnamed
    · split at escaped
      · rename_i short
        cases escaped
        exact .unit short
      · rename_i long
        cases escaped
        exact .pair (by omega) bounded

theorem escapePlain_lawful (float : List Char → Option (List Char)) (bounded : point < 0x110000) : (Style.mk escapePlain float).Lawful point := by
  intro text escaped
  simp only [escapePlain] at escaped
  split at escaped
  · rename_i named
    cases escaped
    exact .short named
  · rename_i unnamed
    split at escaped
    · rename_i control
      cases escaped
      exact .unit (by omega)
    · split at escaped
      · cases escaped
      · rename_i printed whole
        cases escaped
        refine escaped_plain ?_ (Nat.le_of_not_lt printed) unnamed
        simp only [isHighSurrogate, isLowSurrogate, Bool.or_eq_true, Bool.and_eq_true, decide_eq_true_eq] at whole
        rcases Nat.lt_or_ge point 0xD800 with below | above
        · exact .inl below
        · exact .inr ⟨by omega, bounded⟩

theorem isDigit_of_mem_toDigits (member : char ∈ Nat.toDigits 10 number) : isDigit char = true := by
  have digit := Nat.isDigit_of_mem_toDigits (by decide) (by decide) member
  simp only [Char.isDigit, Bool.and_eq_true, decide_eq_true_eq] at digit
  simp only [isDigit, Bool.and_eq_true, decide_eq_true_eq]
  exact digit

theorem toDigits_head (positive : 0 < number) : ∃ first rest, Nat.toDigits 10 number = first :: rest ∧ first ≠ '0' := by
  induction number using Nat.strongRecOn with
  | _ number ih =>
    rw [Nat.toDigits_eq_if (by decide)]
    split
    · rename_i small
      refine ⟨number.digitChar, [], rfl, ?_⟩
      interval_cases number <;> decide
    · rename_i large
      obtain ⟨first, rest, same, nonzero⟩ := ih (number / 10) (by omega) (by omega)
      exact ⟨first, rest ++ [(number % 10).digitChar], by rw [same]; rfl, nonzero⟩

theorem digitsValue_toDigits (number : Nat) : digitsValue (Nat.toDigits 10 number) = number := by
  have general : ∀ (digits : List Char) (value : Nat), digits.foldl (fun value digit => value * 10 + (digit.toNat - 48)) value =
      Nat.ofDigitChars 10 digits value := by
    intro digits
    induction digits with
    | nil => exact fun value => rfl
    | cons digit rest ih =>
      intro value
      rw [List.foldl_cons, ih, Nat.ofDigitChars_cons, Nat.mul_comm]
      rfl
  rw [digitsValue, general, Nat.ofDigitChars_ten_toDigits]

/-- What follows a number does not go on with it. -/
def Stops (rest : List Char) : Prop := ∀ char, rest.head? = some char → isDigit char = false ∧ char ≠ '.' ∧ char ≠ 'e' ∧ char ≠ 'E'

theorem integerDigits_toDigits (number : Nat) (stops : Stops rest) :
    integerDigits (Nat.toDigits 10 number ++ rest) = some (Nat.toDigits 10 number, rest) := by
  rcases Nat.eq_zero_or_pos number with rfl | positive
  · rfl
  · obtain ⟨first, others, same, nonzero⟩ := toDigits_head positive
    have digits : ∀ char ∈ others, isDigit char = true := by
      intro char member
      exact isDigit_of_mem_toDigits (by rw [same]; exact List.mem_cons_of_mem _ member)
    have here : isDigit first = true := isDigit_of_mem_toDigits (by rw [same]; exact List.mem_cons_self ..)
    have ends : rest.takeWhile isDigit = [] ∧ rest.dropWhile isDigit = rest := by
      cases rest with
      | nil => exact ⟨rfl, rfl⟩
      | cons char rest => simp [(stops char rfl).1]
    rw [same, List.cons_append, integerDigits, if_neg nonzero, if_pos here, List.takeWhile_append_of_pos digits,
      List.dropWhile_append_of_pos digits, ends.1, ends.2, List.append_nil]

theorem fraction_stops (stops : Stops rest) : fraction rest = ([], rest) := by
  unfold fraction
  split
  · exact absurd rfl (stops '.' rfl).2.1
  · rfl

theorem exponent_stops (stops : Stops rest) : exponent rest = ([], rest) := by
  unfold exponent
  split
  · rfl
  · rename_i mark rest
    have other := (stops mark rfl).2.2
    rw [if_neg]
    intro ⟨marked, _⟩
    exact marked.elim other.1 other.2

theorem scanNumber_encodeInt (value : Int) (short : (Nat.toDigits 10 value.natAbs).length ≤ MAX_STR_DIGITS) (stops : Stops rest) :
    scanNumber (encodeInt value ++ rest) = .ok (.int value, rest) := by
  have digits := integerDigits_toDigits value.natAbs stops
  have few := Nat.not_lt.mpr short
  unfold encodeInt
  split
  · rename_i negative
    have sign : takeSign ['-'] (('-' :: Nat.toDigits 10 value.natAbs) ++ rest) = (['-'], Nat.toDigits 10 value.natAbs ++ rest) := rfl
    simp only [scanNumber, sign, digits, fraction_stops stops, exponent_stops stops, few, digitsValue_toDigits, and_self, if_true, if_false]
    rw [if_neg (by simp)]
    simp only [Except.ok.injEq, Prod.mk.injEq, Decoded.int.injEq, and_true]
    omega
  · rename_i positive
    have sign : takeSign ['-'] (Nat.toDigits 10 value.natAbs ++ rest) = ([], Nat.toDigits 10 value.natAbs ++ rest) := by
      cases same : Nat.toDigits 10 value.natAbs with
      | nil => exact absurd same Nat.toDigits_ne_nil
      | cons first others =>
        have here : isDigit first = true := isDigit_of_mem_toDigits (by rw [same]; exact List.mem_cons_self ..)
        rw [List.cons_append, takeSign, if_neg]
        intro minus
        rw [List.mem_singleton.mp minus] at here
        exact absurd here (by decide)
    simp only [scanNumber, sign, digits, fraction_stops stops, exponent_stops stops, few, digitsValue_toDigits, and_self, if_true, if_false]
    simp only [Except.ok.injEq, Prod.mk.injEq, Decoded.int.injEq, and_true]
    omega

/-- A text that is scanned as the float that it is. -/
def Floating (text : List Char) : Prop :=
  (∃ sign first rest, (sign = [] ∨ sign = ['-']) ∧ text = sign ++ first :: rest ∧ isDigit first = true) ∧
    ∀ rest, Stops rest → scanNumber (text ++ rest) = .ok (.float text, rest)

/-- A string whose characters have lawful escapes. -/
def PrintableText (style : Style) (text : PyStr) : Prop := ∀ point ∈ text, style.Lawful point

mutual
/-- A value whose text is scanned back, where so many arrays and objects may be entered. -/
def Printable (style : Style) (depth : Nat) : Decoded → Prop
  | .null | .bool _ => True
  | .int value => (Nat.toDigits 10 value.natAbs).length ≤ MAX_STR_DIGITS
  | .float literal => ∀ text, style.float literal = some text → Floating text
  | .str text => PrintableText style text
  | .list items => 0 < depth ∧ PrintableItems style (depth - 1) items
  | .dict fields => 0 < depth ∧ (fields.map fun field => joined field.1).Nodup ∧ PrintableFields style (depth - 1) fields

def PrintableItems (style : Style) (depth : Nat) : List Decoded → Prop
  | [] => True
  | item :: rest => Printable style depth item ∧ PrintableItems style depth rest

def PrintableFields (style : Style) (depth : Nat) : List (PyStr × Decoded) → Prop
  | [] => True
  | (key, value) :: rest => PrintableText style key ∧ Printable style depth value ∧ PrintableFields style depth rest
end

mutual
/-- The value as it is read back: floats as they are printed, and halves of characters joined. -/
def reprint (style : Style) : Decoded → Decoded
  | .float literal => .float ((style.float literal).getD literal)
  | .str text => .str (joined text)
  | .list items => .list (reprintItems style items)
  | .dict fields => .dict (reprintFields style fields)
  | value => value

def reprintItems (style : Style) : List Decoded → List Decoded
  | [] => []
  | item :: rest => reprint style item :: reprintItems style rest

def reprintFields (style : Style) : List (PyStr × Decoded) → List (PyStr × Decoded)
  | [] => []
  | (key, value) :: rest => (joined key, reprint style value) :: reprintFields style rest
end

@[simp] theorem keys_reprintFields (fields : List (PyStr × Decoded)) : (reprintFields style fields).map Prod.fst = fields.map fun field => joined field.1 := by
  induction fields with
  | nil => rfl
  | cons field rest ih => rw [reprintFields, List.map_cons, ih, List.map_cons]

theorem stops_comma (rest : List Char) : Stops (',' :: rest) := by
  intro char same
  cases same
  decide

theorem stops_bracket (rest : List Char) : Stops (']' :: rest) := by
  intro char same
  cases same
  decide

theorem stops_brace (rest : List Char) : Stops ('}' :: rest) := by
  intro char same
  cases same
  decide

theorem skipSpace_cons (visible : isJsonSpace first = false) : skipSpace (first :: rest) = first :: rest := by
  rw [skipSpace, List.dropWhile_cons_of_neg (by simp [visible])]

/-- A character that a value may begin with, as opposed to space and what closes an array. -/
def Opens (char : Char) : Prop := isJsonSpace char = false ∧ char ≠ ']' ∧ char ≠ '\uFEFF'

theorem isDigit_opens (digit : isDigit char = true) : Opens char := by
  refine ⟨?_, ?_, ?_⟩
  · by_contra space
    simp only [isJsonSpace, Bool.not_eq_false, Bool.or_eq_true, decide_eq_true_eq] at space
    rcases space with ((rfl | rfl) | rfl) | rfl <;> exact absurd digit (by decide)
  · rintro rfl
    exact absurd digit (by decide)
  · rintro rfl
    exact absurd digit (by decide)

theorem encodeInt_head (value : Int) : ∃ sign first rest, (sign = [] ∨ sign = ['-']) ∧ encodeInt value = sign ++ first :: rest ∧ isDigit first = true := by
  have digits : ∃ first rest, Nat.toDigits 10 value.natAbs = first :: rest ∧ isDigit first = true := by
    cases same : Nat.toDigits 10 value.natAbs with
    | nil => exact absurd same Nat.toDigits_ne_nil
    | cons first rest => exact ⟨first, rest, rfl, isDigit_of_mem_toDigits (by rw [same]; exact List.mem_cons_self ..)⟩
  obtain ⟨first, rest, same, digit⟩ := digits
  unfold encodeInt
  split
  · exact ⟨['-'], first, rest, .inr rfl, by rw [same]; rfl, digit⟩
  · exact ⟨[], first, rest, .inl rfl, by rw [same]; rfl, digit⟩

theorem encodeString_some {text : PyStr} : encodeString style text = some out ↔ ∃ inner, escapeAll style text = some inner ∧ '"' :: inner ++ ['"'] = out := by
  simp only [encodeString, Option.bind_eq_bind, Option.bind_eq_some_iff, Option.pure_def, Option.some.injEq]

theorem encodeValue_head {value : Decoded} (printable : Printable style depth value) (encoded : encodeValue style value = some text) :
    ∃ first rest, text = first :: rest ∧ Opens first := by
  have numeric {text : List Char} (number : ∃ sign first rest, (sign = [] ∨ sign = ['-']) ∧ text = sign ++ first :: rest ∧ isDigit first = true) :
      ∃ first rest, text = first :: rest ∧ Opens first := by
    obtain ⟨sign, first, rest, unsigned | minus, same, digit⟩ := number
    · exact ⟨first, rest, by rw [same, unsigned]; rfl, isDigit_opens digit⟩
    · exact ⟨'-', first :: rest, by rw [same, minus]; rfl, by decide, by decide, by decide⟩
  cases value with
  | null =>
    cases encoded
    exact ⟨_, _, rfl, by decide, by decide, by decide⟩
  | bool value =>
    cases value <;>
    · cases encoded
      exact ⟨_, _, rfl, by decide, by decide, by decide⟩
  | int value =>
    cases encoded
    exact numeric (encodeInt_head value)
  | float literal => exact numeric (printable text encoded).1
  | str points =>
    obtain ⟨inner, _, rfl⟩ := encodeString_some.mp encoded
    exact ⟨_, _, rfl, by decide, by decide, by decide⟩
  | list items =>
    simp only [encodeValue, Option.bind_eq_bind, Option.bind_eq_some_iff, Option.pure_def, Option.some.injEq] at encoded
    obtain ⟨inner, _, rfl⟩ := encoded
    exact ⟨_, _, rfl, by decide, by decide, by decide⟩
  | dict fields =>
    simp only [encodeValue, Option.bind_eq_bind, Option.bind_eq_some_iff, Option.pure_def, Option.some.injEq] at encoded
    obtain ⟨inner, _, rfl⟩ := encoded
    exact ⟨_, _, rfl, by decide, by decide, by decide⟩

theorem scanHooked_number {hooks : Hooks} (sign : List Char) (unsigned : sign = [] ∨ sign = ['-']) (digit : isDigit first = true) :
    scanHooked hooks depth (sign ++ first :: rest) = scanNumber (sign ++ first :: rest) := by
  have different (char : Char) (other : isDigit char = false) : first ≠ char := by
    rintro rfl
    rw [digit] at other
    cases other
  rw [scanHooked.eq_def]
  rcases unsigned with rfl | rfl
  · simp only [List.nil_append]
    split
    all_goals first | rfl | (rename_i same; exact absurd (List.cons.inj same).1 (different _ (by decide)))
  · simp only [List.cons_append, List.nil_append]
    split
    all_goals first | rfl | (rename_i same; exact absurd (List.cons.inj same).1 (by decide)) |
      (rename_i same; exact absurd (List.cons.inj (List.cons.inj same).2).1 (different _ (by decide)))

/-- What a hook makes of the fields of an object with distinct keys: nothing else. -/
def Hooks.Lawful (hooks : Hooks) : Prop := ∀ fields : List (PyStr × Decoded), (fields.map Prod.fst).Nodup → hooks.pairs fields = some fields

theorem storeField_fresh {fields : List (PyStr × Decoded)} (fresh : field.1 ∉ fields.map Prod.fst) : storeField fields field = fields ++ [field] := by
  rw [storeField, if_neg fresh]

theorem Hooks.none_lawful : Hooks.none.Lawful := by
  have general : ∀ (fields before : List (PyStr × Decoded)), ((before ++ fields).map Prod.fst).Nodup →
      fields.foldl storeField before = before ++ fields := by
    intro fields
    induction fields with
    | nil => exact fun before _ => (List.append_nil before).symm
    | cons field rest ih =>
      intro before distinct
      have fresh : field.1 ∉ before.map Prod.fst := by
        rw [List.map_append, List.map_cons] at distinct
        intro member
        exact (List.nodup_append.mp distinct).2.2 _ member _ (List.mem_cons_self ..) rfl
      rw [List.foldl_cons, storeField_fresh fresh, ih (before ++ [field]) (by rwa [List.append_assoc]), List.append_assoc]
      rfl
  intro fields distinct
  exact congrArg some (general fields [] distinct)

theorem escaped_pos (escaped : Escaped point text) : 0 < text.length := by
  cases escaped <;> simp [unicodeEscape]

theorem escapeAll_length {points : PyStr} (lawful : ∀ point ∈ points, style.Lawful point) (escaped : escapeAll style points = some text) :
    points.length ≤ text.length := by
  induction points generalizing text with
  | nil => exact Nat.zero_le _
  | cons point rest ih =>
    obtain ⟨first, others, here, later, rfl⟩ := escapeAll_cons.mp escaped
    have one := escaped_pos (lawful point (List.mem_cons_self ..) first here)
    have more := ih (fun next member => lawful next (List.mem_cons_of_mem _ member)) later
    rw [List.length_cons, List.length_append]
    omega

theorem scanString_encodeString {points : PyStr} {inner : List Char} (printable : PrintableText style points) (escaped : escapeAll style points = some inner)
    (rest : List Char) : scanString ((inner ++ '"' :: rest).length + 1) (inner ++ '"' :: rest) = .ok (joined points, rest) := by
  refine scanString_escapeAll printable escaped _ ?_
  have short := escapeAll_length printable escaped
  rw [List.length_append]
  omega

theorem scanHooked_string {hooks : Hooks} {points : PyStr} (printable : PrintableText style points) (encoded : encodeString style points = some text) :
    scanHooked hooks depth (text ++ rest) = .ok (.str (joined points), rest) := by
  obtain ⟨inner, escaped, rfl⟩ := encodeString_some.mp encoded
  have scanned := scanString_encodeString printable escaped rest
  have shape : ('"' :: inner ++ ['"']) ++ rest = '"' :: (inner ++ '"' :: rest) := by simp
  rw [shape, scanHooked.eq_def]
  simp only [scanned, scanThen]

theorem encodeItems_cons {item : Decoded} {items : List Decoded} : encodeItems style (item :: items) = some text ↔
    ∃ first, encodeValue style item = some first ∧
      (items = [] ∧ first = text ∨ items ≠ [] ∧ ∃ others, encodeItems style items = some others ∧ first ++ ',' :: others = text) := by
  rw [encodeItems]
  cases items with
  | nil => simp
  | cons next rest => simp [Option.bind_eq_some_iff]

theorem encodeFields_cons {key : PyStr} {value : Decoded} {fields : List (PyStr × Decoded)} : encodeFields style ((key, value) :: fields) = some text ↔
    ∃ name first, encodeString style key = some name ∧ encodeValue style value = some first ∧
      (fields = [] ∧ name ++ ':' :: first = text ∨
        fields ≠ [] ∧ ∃ others, encodeFields style fields = some others ∧ name ++ ':' :: first ++ ',' :: others = text) := by
  rw [encodeFields]
  cases fields with
  | nil => simp [Option.bind_eq_some_iff]
  | cons next rest => simp [Option.bind_eq_some_iff]

section Values

variable {hooks : Hooks}

variable {scan : List Char → Scan Decoded}

theorem scanElements_encode {items : List Decoded} (printable : PrintableItems style depth items)
    (each : ∀ item ∈ items, ∀ text rest, encodeValue style item = some text → Stops rest → scan (text ++ rest) = .ok (reprint style item, rest))
    (nonempty : items ≠ []) (encoded : encodeItems style items = some text) (fuel : Nat) (enough : text.length < fuel) :
    scanElements scan fuel (text ++ ']' :: rest) = .ok (reprintItems style items, rest) := by
  induction items generalizing text fuel with
  | nil => exact absurd rfl nonempty
  | cons item items ih =>
    obtain ⟨fuel, rfl⟩ := Nat.exists_eq_succ_of_ne_zero (Nat.ne_of_gt (Nat.lt_of_le_of_lt (Nat.zero_le _) enough))
    rw [PrintableItems] at printable
    obtain ⟨first, here, last | more⟩ := encodeItems_cons.mp encoded
    · obtain ⟨rfl, rfl⟩ := last
      obtain ⟨char, chars, same, ⟨visible, _⟩⟩ := encodeValue_head printable.1 here
      have scanned := each item (List.mem_cons_self ..) first (']' :: rest) here (stops_bracket rest)
      rw [scanElements]
      have skipped : skipSpace (first ++ ']' :: rest) = first ++ ']' :: rest := by
        rw [same, List.cons_append, skipSpace_cons visible]
      rw [skipped, scanned]
      rfl
    · obtain ⟨remaining, others, later, rfl⟩ := more
      obtain ⟨char, chars, same, ⟨visible, _⟩⟩ := encodeValue_head printable.1 here
      have scanned := each item (List.mem_cons_self ..) first (',' :: (others ++ ']' :: rest)) here (stops_comma _)
      have skipped : skipSpace (first ++ ',' :: (others ++ ']' :: rest)) = first ++ ',' :: (others ++ ']' :: rest) := by
        rw [same, List.cons_append, skipSpace_cons visible]
      have tail := ih printable.2 (fun item member => each item (List.mem_cons_of_mem _ member)) remaining later fuel (by
        rw [List.length_append, List.length_cons] at enough
        omega)
      rw [List.append_assoc, List.cons_append, scanElements, skipped, scanned]
      simp only [scanThen]
      rw [skipSpace_cons (by decide)]
      simp only [tail]
      rfl

theorem scanMembers_encode {fields : List (PyStr × Decoded)} (printable : PrintableFields style depth fields)
    (each : ∀ field ∈ fields, ∀ text rest, encodeValue style field.2 = some text → Stops rest → scan (text ++ rest) = .ok (reprint style field.2, rest))
    (nonempty : fields ≠ []) (encoded : encodeFields style fields = some text) (fuel : Nat) (enough : text.length < fuel) :
    scanMembers scan fuel (text ++ '}' :: rest) = .ok (reprintFields style fields, rest) := by
  induction fields generalizing text fuel with
  | nil => exact absurd rfl nonempty
  | cons field fields ih =>
    obtain ⟨key, value⟩ := field
    obtain ⟨fuel, rfl⟩ := Nat.exists_eq_succ_of_ne_zero (Nat.ne_of_gt (Nat.lt_of_le_of_lt (Nat.zero_le _) enough))
    rw [PrintableFields] at printable
    obtain ⟨name, first, named, here, tail⟩ := encodeFields_cons.mp encoded
    obtain ⟨inner, escaped, rfl⟩ := encodeString_some.mp named
    obtain ⟨char, chars, same, ⟨visible, _⟩⟩ := encodeValue_head printable.2.1 here
    -- the name and the value are read, whatever comes then
    have member (after left : List Char) (stops : Stops after) (answer) (ends : skipSpace after = '}' :: left ∧
          answer = .ok ([(joined key, reprint style value)], left) ∨ skipSpace after = ',' :: left ∧
          answer = scanThen (scanMembers scan fuel left) fun others left => .ok ((joined key, reprint style value) :: others, left)) :
        scanMembers scan (fuel + 1) (('"' :: inner ++ ['"']) ++ ':' :: first ++ after) = answer := by
      have shape : ('"' :: inner ++ ['"']) ++ ':' :: first ++ after = '"' :: (inner ++ '"' :: ':' :: (first ++ after)) := by simp
      have skipped : skipSpace (first ++ after) = first ++ after := by
        rw [same, List.cons_append, skipSpace_cons visible]
      rw [shape, scanMembers, skipSpace_cons (by decide)]
      simp only [scanString_encodeString printable.1 escaped, scanThen]
      rw [skipSpace_cons (by decide)]
      simp only [skipped, each (key, value) (List.mem_cons_self ..) first after here stops]
      rcases ends with ⟨shape, rfl⟩ | ⟨shape, rfl⟩ <;> rw [shape] <;> rfl
    rcases tail with ⟨rfl, rfl⟩ | ⟨remaining, others, later, rfl⟩
    · rw [member _ rest (stops_brace rest) _ (.inl ⟨skipSpace_cons (by decide), rfl⟩), reprintFields, reprintFields]
    · have tail := ih printable.2.2 (fun field member => each field (List.mem_cons_of_mem _ member)) remaining later fuel (by
        rw [List.length_append, List.length_cons] at enough
        omega)
      have shape : (('"' :: inner ++ ['"']) ++ ':' :: first ++ ',' :: others) ++ '}' :: rest =
          ('"' :: inner ++ ['"']) ++ ':' :: first ++ (',' :: (others ++ '}' :: rest)) := by simp
      rw [shape, member _ _ (stops_comma _) _ (.inr ⟨skipSpace_cons (by decide), rfl⟩)]
      simp only [tail, scanThen]
      rfl

theorem scanArray_encode {items : List Decoded} {inner : List Char} (printable : PrintableItems style depth items)
    (each : ∀ item ∈ items, ∀ text rest, encodeValue style item = some text → Stops rest → scan (text ++ rest) = .ok (reprint style item, rest))
    (encoded : encodeItems style items = some inner) :
    scanArray scan (inner ++ ']' :: rest) = .ok (.list (reprintItems style items), rest) := by
  cases items with
  | nil =>
    cases encoded
    rfl
  | cons item items =>
    have head : ∃ first others, inner = first :: others ∧ Opens first := by
      rw [PrintableItems] at printable
      obtain ⟨text, here, last | more⟩ := encodeItems_cons.mp encoded
      · obtain ⟨_, rfl⟩ := last
        exact encodeValue_head printable.1 here
      · obtain ⟨_, others, _, rfl⟩ := more
        obtain ⟨first, chars, rfl, visible⟩ := encodeValue_head printable.1 here
        exact ⟨first, chars ++ ',' :: others, rfl, visible⟩
    have scanned (fuel : Nat) (enough : inner.length < fuel) :
        scanElements scan fuel (inner ++ ']' :: rest) = .ok (reprintItems style (item :: items), rest) :=
      scanElements_encode printable each (List.cons_ne_nil _ _) encoded fuel enough
    obtain ⟨first, others, rfl, visible, bracket, _⟩ := head
    rw [scanArray, List.cons_append, skipSpace_cons visible]
    split
    · rename_i same
      exact absurd (List.cons.inj same).1 bracket
    · rw [← List.cons_append, scanned _ (by rw [List.length_append]; omega)]
      rfl

theorem scanObject_encode {fields : List (PyStr × Decoded)} {inner : List Char} (lawful : hooks.Lawful)
    (distinct : (fields.map fun field => joined field.1).Nodup) (printable : PrintableFields style depth fields)
    (each : ∀ field ∈ fields, ∀ text rest, encodeValue style field.2 = some text → Stops rest → scan (text ++ rest) = .ok (reprint style field.2, rest))
    (encoded : encodeFields style fields = some inner) :
    scanObjectHooked hooks scan (inner ++ '}' :: rest) = .ok (.dict (reprintFields style fields), rest) := by
  cases fields with
  | nil =>
    cases encoded
    simp only [scanObjectHooked, List.nil_append, skipSpace_cons (show isJsonSpace '}' = false by decide), lawful [] List.nodup_nil]
    rfl
  | cons field fields =>
    obtain ⟨key, value⟩ := field
    have head : ∃ others, inner = '"' :: others := by
      obtain ⟨name, first, named, _, tail⟩ := encodeFields_cons.mp encoded
      obtain ⟨text, _, rfl⟩ := encodeString_some.mp named
      rcases tail with ⟨_, rfl⟩ | ⟨_, others, _, rfl⟩
      · exact ⟨_, rfl⟩
      · exact ⟨_, rfl⟩
    have scanned (fuel : Nat) (enough : inner.length < fuel) :
        scanMembers scan fuel (inner ++ '}' :: rest) = .ok (reprintFields style ((key, value) :: fields), rest) :=
      scanMembers_encode printable each (List.cons_ne_nil _ _) encoded fuel enough
    obtain ⟨others, rfl⟩ := head
    have unique : ((reprintFields style ((key, value) :: fields)).map Prod.fst).Nodup := by rwa [keys_reprintFields]
    rw [scanObjectHooked, List.cons_append, skipSpace_cons (by decide)]
    split
    · rename_i same
      exact absurd (List.cons.inj same).1 (by decide)
    · rw [← List.cons_append, scanned _ (by rw [List.length_append]; omega)]
      simp only [scanThen, lawful _ unique]

mutual
theorem scanHooked_encode (lawful : hooks.Lawful) : ∀ (value : Decoded) (depth : Nat) (text rest : List Char), Printable style depth value →
    encodeValue style value = some text → Stops rest → scanHooked hooks depth (text ++ rest) = .ok (reprint style value, rest)
  | .null, depth, text, rest => by
    intro _ encoded _
    cases encoded
    rw [scanHooked.eq_def]
    rfl
  | .bool true, depth, text, rest => by
    intro _ encoded _
    cases encoded
    rw [scanHooked.eq_def]
    rfl
  | .bool false, depth, text, rest => by
    intro _ encoded _
    cases encoded
    rw [scanHooked.eq_def]
    rfl
  | .int value, depth, text, rest => by
    intro printable encoded stops
    cases encoded
    have scanned := scanNumber_encodeInt value printable stops
    obtain ⟨sign, first, digits, unsigned, same, digit⟩ := encodeInt_head value
    rw [same, List.append_assoc] at scanned
    rw [same, List.append_assoc, List.cons_append, scanHooked_number sign unsigned digit]
    exact scanned
  | .float literal, depth, text, rest => by
    intro printable encoded stops
    obtain ⟨⟨sign, first, digits, unsigned, same, digit⟩, scans⟩ := printable text encoded
    have scanned := scans rest stops
    have floating : reprint style (.float literal) = .float text := by
      have printed : style.float literal = some text := encoded
      rw [reprint, printed]
      rfl
    rw [floating]
    rw [same, List.append_assoc] at scanned
    rw [same, List.append_assoc, List.cons_append, scanHooked_number sign unsigned digit]
    exact scanned
  | .str points, depth, text, rest => fun printable encoded _ => scanHooked_string printable encoded
  | .list items, depth, text, rest => by
    intro printable encoded _
    rw [Printable] at printable
    obtain ⟨below, rfl⟩ := Nat.exists_eq_succ_of_ne_zero (Nat.ne_of_gt printable.1)
    simp only [encodeValue, Option.bind_eq_bind, Option.bind_eq_some_iff, Option.pure_def, Option.some.injEq] at encoded
    obtain ⟨inner, coded, rfl⟩ := encoded
    have each := scanHooked_encodeItems lawful items below printable.2
    have shape : ('[' :: inner ++ [']']) ++ rest = '[' :: (inner ++ ']' :: rest) := by simp
    rw [shape, scanHooked.eq_def]
    simp only [reprint]
    exact scanArray_encode printable.2 each coded
  | .dict fields, depth, text, rest => by
    intro printable encoded _
    rw [Printable] at printable
    obtain ⟨below, rfl⟩ := Nat.exists_eq_succ_of_ne_zero (Nat.ne_of_gt printable.1)
    simp only [encodeValue, Option.bind_eq_bind, Option.bind_eq_some_iff, Option.pure_def, Option.some.injEq] at encoded
    obtain ⟨inner, coded, rfl⟩ := encoded
    have each := scanHooked_encodeFields lawful fields below printable.2.2
    have shape : ('{' :: inner ++ ['}']) ++ rest = '{' :: (inner ++ '}' :: rest) := by simp
    rw [shape, scanHooked.eq_def]
    simp only [reprint]
    exact scanObject_encode lawful printable.2.1 printable.2.2 each coded

theorem scanHooked_encodeItems (lawful : hooks.Lawful) : ∀ (items : List Decoded) (depth : Nat), PrintableItems style depth items →
    ∀ item ∈ items, ∀ text rest, encodeValue style item = some text → Stops rest →
      scanHooked hooks depth (text ++ rest) = .ok (reprint style item, rest)
  | [], _ => fun _ _ member => nomatch member
  | item :: items, depth => by
    intro printable other member text rest encoded stops
    rw [PrintableItems] at printable
    rcases List.mem_cons.mp member with same | later
    · rw [same] at encoded ⊢
      exact scanHooked_encode lawful item depth text rest printable.1 encoded stops
    · exact scanHooked_encodeItems lawful items depth printable.2 other later text rest encoded stops

theorem scanHooked_encodeFields (lawful : hooks.Lawful) : ∀ (fields : List (PyStr × Decoded)) (depth : Nat), PrintableFields style depth fields →
    ∀ field ∈ fields, ∀ text rest, encodeValue style field.2 = some text → Stops rest →
      scanHooked hooks depth (text ++ rest) = .ok (reprint style field.2, rest)
  | [], _ => fun _ _ member => nomatch member
  | (key, value) :: fields, depth => by
    intro printable other member text rest encoded stops
    rw [PrintableFields] at printable
    rcases List.mem_cons.mp member with same | later
    · rw [same] at encoded ⊢
      exact scanHooked_encode lawful value depth text rest printable.2.1 encoded stops
    · exact scanHooked_encodeFields lawful fields depth printable.2.2 other later text rest encoded stops
end

theorem loads_encode (lawful : hooks.Lawful) {value : Decoded} (printable : Printable style depth value) (encoded : encodeValue style value = some text) :
    loads hooks depth text = .ok (reprint style value) := by
  obtain ⟨first, rest, same, visible, _, mark⟩ := encodeValue_head printable encoded
  have scanned := scanHooked_encode lawful value depth text [] printable encoded (by
    intro char none
    cases none)
  rw [List.append_nil] at scanned
  have skipped : skipSpace text = text := by rw [same, skipSpace_cons visible]
  rw [loads, if_neg, skipped, scanned]
  · rfl
  · rw [same]
    intro marked
    exact mark (Option.some.inj marked)

end Values

def Ascii (text : List Char) : Prop := ∀ char ∈ text, char.toNat < 128

theorem ascii_of_all (all : text.all (fun char => decide (char.toNat < 128)) = true) : Ascii text :=
  fun char member => of_decide_eq_true (List.all_eq_true.mp all char member)

theorem ascii_nil : Ascii [] := fun _ none => nomatch none

theorem Ascii.append {one two : List Char} (first : Ascii one) (second : Ascii two) : Ascii (one ++ two) := by
  intro char member
  rcases List.mem_append.mp member with here | there
  · exact first char here
  · exact second char there

theorem Ascii.cons {rest : List Char} (first : char.toNat < 128) (others : Ascii rest) : Ascii (char :: rest) := by
  intro other member
  rcases List.mem_cons.mp member with rfl | later
  · exact first
  · exact others other later

theorem ascii_unicodeEscape (unit : Nat) : Ascii (unicodeEscape unit) := by
  have hex : ∀ digit, digit < 16 → (hexChar digit).toNat < 128 := by decide
  have nibble (number : Nat) : (hexChar (number % 16)).toNat < 128 := hex _ (Nat.mod_lt _ (by decide))
  intro char member
  simp only [unicodeEscape, List.mem_cons, List.not_mem_nil, or_false] at member
  rcases member with rfl | rfl | rfl | rfl | rfl | rfl
  · decide
  · decide
  · exact nibble _
  · exact nibble _
  · exact nibble _
  · exact nibble _

theorem ascii_shortEscape (named : shortEscape point = some char) : char.toNat < 128 := by
  unfold shortEscape at named
  split at named <;> first | cases named | skip
  all_goals decide

theorem ascii_escapeAscii (escaped : escapeAscii point = some text) : Ascii text := by
  unfold escapeAscii at escaped
  split at escaped
  · rename_i named
    cases escaped
    exact .cons (by decide) (.cons (ascii_shortEscape named) ascii_nil)
  · split at escaped
    · rename_i printed
      cases escaped
      have back : (Char.ofNat point).toNat = point := toNat_ofNat_valid (.inl (by omega))
      exact .cons (by omega) ascii_nil
    · split at escaped
      · cases escaped
        exact ascii_unicodeEscape _
      · cases escaped
        exact (ascii_unicodeEscape _).append (ascii_unicodeEscape _)

section Ascii

variable (escapes : ∀ point text, style.escape point = some text → Ascii text) (floats : ∀ literal text, style.float literal = some text → Ascii text)

include escapes in
theorem ascii_escapeAll {points : PyStr} (escaped : escapeAll style points = some text) : Ascii text := by
  induction points generalizing text with
  | nil =>
    cases escaped
    exact ascii_nil
  | cons point rest ih =>
    obtain ⟨first, others, here, later, rfl⟩ := escapeAll_cons.mp escaped
    exact (escapes point first here).append (ih later)

include escapes in
theorem ascii_encodeString {points : PyStr} (encoded : encodeString style points = some text) : Ascii text := by
  obtain ⟨inner, escaped, rfl⟩ := encodeString_some.mp encoded
  exact (Ascii.cons (by decide) (ascii_escapeAll escapes escaped)).append (.cons (by decide) ascii_nil)

theorem ascii_encodeInt (value : Int) : Ascii (encodeInt value) := by
  have digits : Ascii (Nat.toDigits 10 value.natAbs) := by
    intro char member
    have digit := isDigit_of_mem_toDigits member
    simp only [isDigit, Bool.and_eq_true, decide_eq_true_eq] at digit
    have below : char.toNat ≤ 57 := digit.2
    omega
  unfold encodeInt
  split
  · exact .cons (by decide) digits
  · exact digits

include escapes floats

mutual
theorem ascii_encodeValue : ∀ (value : Decoded) (text : List Char), encodeValue style value = some text → Ascii text
  | .null, text => by
    intro encoded
    cases encoded
    exact ascii_of_all rfl
  | .bool true, text => by
    intro encoded
    cases encoded
    exact ascii_of_all rfl
  | .bool false, text => by
    intro encoded
    cases encoded
    exact ascii_of_all rfl
  | .int value, text => by
    intro encoded
    cases encoded
    exact ascii_encodeInt value
  | .float literal, text => fun encoded => floats literal text encoded
  | .str points, text => fun encoded => ascii_encodeString escapes encoded
  | .list items, text => by
    intro encoded
    simp only [encodeValue, Option.bind_eq_bind, Option.bind_eq_some_iff, Option.pure_def, Option.some.injEq] at encoded
    obtain ⟨inner, coded, rfl⟩ := encoded
    exact (Ascii.cons (by decide) (ascii_encodeItems items inner coded)).append (.cons (by decide) ascii_nil)
  | .dict fields, text => by
    intro encoded
    simp only [encodeValue, Option.bind_eq_bind, Option.bind_eq_some_iff, Option.pure_def, Option.some.injEq] at encoded
    obtain ⟨inner, coded, rfl⟩ := encoded
    exact (Ascii.cons (by decide) (ascii_encodeFields fields inner coded)).append (.cons (by decide) ascii_nil)

theorem ascii_encodeItems : ∀ (items : List Decoded) (text : List Char), encodeItems style items = some text → Ascii text
  | [], text => by
    intro encoded
    cases encoded
    exact ascii_nil
  | item :: items, text => by
    intro encoded
    obtain ⟨first, here, ⟨_, rfl⟩ | ⟨_, others, later, rfl⟩⟩ := encodeItems_cons.mp encoded
    · exact ascii_encodeValue item first here
    · exact (ascii_encodeValue item first here).append (.cons (by decide) (ascii_encodeItems items others later))

theorem ascii_encodeFields : ∀ (fields : List (PyStr × Decoded)) (text : List Char), encodeFields style fields = some text → Ascii text
  | [], text => by
    intro encoded
    cases encoded
    exact ascii_nil
  | (key, value) :: fields, text => by
    intro encoded
    obtain ⟨name, first, named, here, tail⟩ := encodeFields_cons.mp encoded
    have field : Ascii (name ++ ':' :: first) := (ascii_encodeString escapes named).append (.cons (by decide) (ascii_encodeValue value first here))
    rcases tail with ⟨_, rfl⟩ | ⟨_, others, later, rfl⟩
    · exact field
    · exact field.append (.cons (by decide) (ascii_encodeFields fields others later))
end

end Ascii

end NovelStudio.Library
