import Mathlib.Data.List.Basic

/-! `json.JSONDecoder().raw_decode` of Python: a scanner that stops after the first value.
Besides its own error it raises when arrays and objects nest deeper than the interpreter
allows, and when an integer has more digits than `int` reads. -/

namespace NovelStudio.Library

/-- A Python string: its code points, lone surrogates among them. -/
abbrev PyStr := List Nat

def pyStr (text : String) : PyStr := text.toList.map Char.toNat

/-- A decoded value; a float is kept as its literal. -/
inductive Decoded where
  | null
  | bool (value : Bool)
  | int (value : Int)
  | float (literal : List Char)
  | str (value : PyStr)
  | list (items : List Decoded)
  | dict (fields : List (PyStr × Decoded))

/-- How scanning ends without a value: a `JSONDecodeError`, or another exception. -/
inductive Fault where
  | decode
  | recursion
  | digits
  deriving DecidableEq

/-- A scanned part and what is left of the text. -/
abbrev Scan (α : Type) := Except Fault (α × List Char)

/-- Scanning goes on with what is left. -/
def scanThen (first : Scan α) (next : α → List Char → Scan β) : Scan β :=
  match first with
  | .ok (value, rest) => next value rest
  | .error fault => .error fault

/-- The integer digits that `int` reads. -/
def MAX_STR_DIGITS : Nat := 4300

def isJsonSpace (char : Char) : Bool := char = ' ' || char = '\t' || char = '\n' || char = '\r'

def skipSpace (text : List Char) : List Char := text.dropWhile isJsonSpace

def hexDigit (char : Char) : Option Nat :=
  if '0' ≤ char ∧ char ≤ '9' then some (char.toNat - 48)
  else if 'a' ≤ char ∧ char ≤ 'f' then some (char.toNat - 87)
  else if 'A' ≤ char ∧ char ≤ 'F' then some (char.toNat - 55)
  else none

/-- The number that four hexadecimal digits make. -/
def hexFour (a b c d : Char) : Option Nat := do
  return (((← hexDigit a) * 16 + (← hexDigit b)) * 16 + (← hexDigit c)) * 16 + (← hexDigit d)

def simpleEscape (char : Char) : Option Nat :=
  match char with
  | '"' => some 34
  | '\\' => some 92
  | '/' => some 47
  | 'b' => some 8
  | 'f' => some 12
  | 'n' => some 10
  | 'r' => some 13
  | 't' => some 9
  | _ => none

/-- The second half of a surrogate pair, where one follows. -/
def lowSurrogate (text : List Char) : Option (Nat × List Char) :=
  match text with
  | '\\' :: 'u' :: a :: b :: c :: d :: rest =>
    match hexFour a b c d with
    | some low => if 0xDC00 ≤ low ∧ low ≤ 0xDFFF then some (low, rest) else none
    | none => none
  | _ => none

/-- The code point of an escape of four digits, and what is left. -/
def escapedPoint (code : Nat) (rest : List Char) : Nat × List Char :=
  if 0xD800 ≤ code ∧ code ≤ 0xDBFF then
    match lowSurrogate rest with
    | some (low, rest) => (0x10000 + (code - 0xD800) * 0x400 + (low - 0xDC00), rest)
    | none => (code, rest)
  else (code, rest)

/-- `scanstring` after the opening quote; the fuel bounds the characters. -/
def scanString : Nat → List Char → Scan PyStr
  | 0, _ => .error .decode
  | fuel + 1, text =>
    match text with
    | [] => .error .decode
    | '"' :: rest => .ok ([], rest)
    | '\\' :: 'u' :: a :: b :: c :: d :: rest =>
      match hexFour a b c d with
      | none => .error .decode
      | some code =>
        scanThen (scanString fuel (escapedPoint code rest).2) fun points left =>
          .ok ((escapedPoint code rest).1 :: points, left)
    | '\\' :: char :: rest =>
      match simpleEscape char with
      | none => .error .decode
      | some point => scanThen (scanString fuel rest) fun points left => .ok (point :: points, left)
    | char :: rest =>
      if char.toNat < 32 ∨ char = '\\' then .error .decode
      else scanThen (scanString fuel rest) fun points left => .ok (char.toNat :: points, left)

def isDigit (char : Char) : Bool := '0' ≤ char && char ≤ '9'

/-- A sign, where one of the given characters stands first. -/
def takeSign (signs text : List Char) : List Char × List Char :=
  match text with
  | first :: rest => if first ∈ signs then ([first], rest) else ([], text)
  | [] => ([], text)

/-- `0|[1-9][0-9]*` -/
def integerDigits (text : List Char) : Option (List Char × List Char) :=
  match text with
  | [] => none
  | first :: rest =>
    if first = '0' then some (['0'], rest)
    else if isDigit first then some (first :: rest.takeWhile isDigit, rest.dropWhile isDigit)
    else none

/-- `(\.[0-9]+)?` -/
def fraction (text : List Char) : List Char × List Char :=
  match text with
  | '.' :: rest =>
    if (rest.takeWhile isDigit).isEmpty then ([], text) else ('.' :: rest.takeWhile isDigit, rest.dropWhile isDigit)
  | _ => ([], text)

/-- `([eE][-+]?[0-9]+)?` -/
def exponent (text : List Char) : List Char × List Char :=
  match text with
  | [] => ([], text)
  | mark :: rest =>
    let digits := (takeSign ['-', '+'] rest).2
    if (mark = 'e' ∨ mark = 'E') ∧ (digits.takeWhile isDigit).isEmpty = false then
      (mark :: (takeSign ['-', '+'] rest).1 ++ digits.takeWhile isDigit, digits.dropWhile isDigit)
    else ([], text)

def digitsValue (digits : List Char) : Nat := digits.foldl (fun value digit => value * 10 + (digit.toNat - 48)) 0

def scanNumber (text : List Char) : Scan Decoded :=
  let sign := (takeSign ['-'] text).1
  match integerDigits (takeSign ['-'] text).2 with
  | none => .error .decode
  | some (digits, rest) =>
    let point := fraction rest
    let power := exponent point.2
    if point.1 = [] ∧ power.1 = [] then
      if MAX_STR_DIGITS < digits.length then .error .digits
      else .ok (.int (if sign = [] then digitsValue digits else -digitsValue digits), power.2)
    else .ok (.float (sign ++ digits ++ point.1 ++ power.1), power.2)

/-- The values of an array up to its bracket; the fuel bounds how many there are. -/
def scanElements (scan : List Char → Scan Decoded) : Nat → List Char → Scan (List Decoded)
  | 0, _ => .error .decode
  | fuel + 1, text =>
    scanThen (scan (skipSpace text)) fun value rest =>
      match skipSpace rest with
      | ']' :: left => .ok ([value], left)
      | ',' :: more => scanThen (scanElements scan fuel more) fun others left => .ok (value :: others, left)
      | _ => .error .decode

/-- The pairs of an object up to its brace. -/
def scanMembers (scan : List Char → Scan Decoded) : Nat → List Char → Scan (List (PyStr × Decoded))
  | 0, _ => .error .decode
  | fuel + 1, text =>
    match skipSpace text with
    | '"' :: quoted =>
      scanThen (scanString (quoted.length + 1) quoted) fun key rest =>
        match skipSpace rest with
        | ':' :: rest =>
          scanThen (scan (skipSpace rest)) fun value rest =>
            match skipSpace rest with
            | '}' :: left => .ok ([(key, value)], left)
            | ',' :: more => scanThen (scanMembers scan fuel more) fun others left => .ok ((key, value) :: others, left)
            | _ => .error .decode
        | _ => .error .decode
    | _ => .error .decode

def scanArray (scan : List Char → Scan Decoded) (text : List Char) : Scan Decoded :=
  match skipSpace text with
  | ']' :: left => .ok (.list [], left)
  | more => scanThen (scanElements scan (more.length + 1) more) fun items left => .ok (.list items, left)

/-- `dict[key] = value`, in place or at the end. -/
def storeField (fields : List (PyStr × Decoded)) (field : PyStr × Decoded) : List (PyStr × Decoded) :=
  if field.1 ∈ fields.map Prod.fst then fields.map fun old => if old.1 = field.1 then field else old
  else fields ++ [field]

def scanObject (scan : List Char → Scan Decoded) (text : List Char) : Scan Decoded :=
  match skipSpace text with
  | '}' :: left => .ok (.dict [], left)
  | more => scanThen (scanMembers scan (more.length + 1) more) fun pairs left => .ok (.dict (pairs.foldl storeField []), left)

/-- `scan_once`, where so many arrays and objects may still be entered. -/
def scanOnce (depth : Nat) (text : List Char) : Scan Decoded :=
  match text with
  | '"' :: rest => scanThen (scanString (rest.length + 1) rest) fun value left => .ok (.str value, left)
  | '{' :: rest =>
    match depth with
    | 0 => .error .recursion
    | depth + 1 => scanObject (scanOnce depth) rest
  | '[' :: rest =>
    match depth with
    | 0 => .error .recursion
    | depth + 1 => scanArray (scanOnce depth) rest
  | 'n' :: 'u' :: 'l' :: 'l' :: left => .ok (.null, left)
  | 't' :: 'r' :: 'u' :: 'e' :: left => .ok (.bool true, left)
  | 'f' :: 'a' :: 'l' :: 's' :: 'e' :: left => .ok (.bool false, left)
  | 'N' :: 'a' :: 'N' :: left => .ok (.float ['N', 'a', 'N'], left)
  | 'I' :: 'n' :: 'f' :: 'i' :: 'n' :: 'i' :: 't' :: 'y' :: left => .ok (.float ['I', 'n', 'f'], left)
  | '-' :: 'I' :: 'n' :: 'f' :: 'i' :: 'n' :: 'i' :: 't' :: 'y' :: left => .ok (.float ['-', 'I', 'n', 'f'], left)
  | _ => scanNumber text

def rawDecode (depth : Nat) (text : String) : Scan Decoded := scanOnce depth text.toList

theorem scanThen_ok {first : Scan α} {next : α → List Char → Scan β} :
    scanThen first next = .ok result ↔ ∃ value rest, first = .ok (value, rest) ∧ next value rest = .ok result := by
  unfold scanThen
  split <;> simp_all

theorem lowSurrogate_shorter (found : lowSurrogate text = some (low, rest)) : rest.length < text.length := by
  unfold lowSurrogate at found
  split at found
  · split at found
    · split at found
      · cases found
        simp only [List.length_cons]
        omega
      · cases found
    · cases found
  · cases found

theorem escapedPoint_le (code : Nat) (rest : List Char) : (escapedPoint code rest).2.length ≤ rest.length := by
  unfold escapedPoint
  split
  · split
    · rename_i found
      exact Nat.le_of_lt (lowSurrogate_shorter found)
    · exact Nat.le_refl _
  · exact Nat.le_refl _

theorem skipSpace_le (text : List Char) : (skipSpace text).length ≤ text.length :=
  (List.dropWhile_sublist _).length_le

theorem scanString_shorter (done : scanString fuel text = .ok (points, left)) : left.length < text.length := by
  induction fuel generalizing text points left with
  | zero => cases done
  | succ fuel ih =>
    simp only [scanString] at done
    split at done
    · cases done
    · cases done
      simp
    · split at done
      · cases done
      · rename_i a b c d rest _ code _
        obtain ⟨more, end', scanned, same⟩ := scanThen_ok.mp done
        cases same
        have shorter := ih scanned
        have below := escapedPoint_le code rest
        simp only [List.length_cons]
        omega
    · split at done
      · cases done
      · obtain ⟨more, end', scanned, same⟩ := scanThen_ok.mp done
        cases same
        have shorter := ih scanned
        simp only [List.length_cons]
        omega
    · split at done
      · cases done
      · obtain ⟨more, end', scanned, same⟩ := scanThen_ok.mp done
        cases same
        have shorter := ih scanned
        simp only [List.length_cons]
        omega

theorem scanString_fuel (enough : text.length < fuel) : scanString (fuel + 1) text = scanString fuel text := by
  induction fuel generalizing text with
  | zero => cases enough
  | succ fuel ih =>
    conv_lhs => rw [scanString.eq_def]
    conv_rhs => rw [scanString.eq_def]
    simp only
    split
    · rfl
    · rfl
    · rename_i rest
      split
      · rfl
      · rename_i code _
        have below := escapedPoint_le code rest
        simp only [List.length_cons] at enough
        rw [ih (by omega)]
    · split
      · rfl
      · simp only [List.length_cons] at enough
        rw [ih (by omega)]
    · split
      · rfl
      · simp only [List.length_cons] at enough
        rw [ih (by omega)]

theorem dropWhile_le (drops : Char → Bool) (text : List Char) : (text.dropWhile drops).length ≤ text.length :=
  (List.dropWhile_sublist _).length_le

theorem takeSign_le (signs text : List Char) : (takeSign signs text).2.length ≤ text.length := by
  unfold takeSign
  split
  · split
    · exact Nat.le_succ _
    · exact Nat.le_refl _
  · exact Nat.le_refl _

theorem integerDigits_shorter (found : integerDigits text = some (digits, rest)) : rest.length < text.length := by
  unfold integerDigits at found
  split at found
  · cases found
  · split at found
    · cases found
      exact Nat.lt_succ_self _
    · split at found
      · cases found
        exact Nat.lt_succ_of_le (dropWhile_le ..)
      · cases found

theorem fraction_le (text : List Char) : (fraction text).2.length ≤ text.length := by
  unfold fraction
  split
  · split
    · exact Nat.le_refl _
    · exact Nat.le_succ_of_le (dropWhile_le ..)
  · exact Nat.le_refl _

theorem exponent_le (text : List Char) : (exponent text).2.length ≤ text.length := by
  unfold exponent
  split
  · exact Nat.le_refl _
  · simp only
    split
    · exact Nat.le_succ_of_le (Nat.le_trans (dropWhile_le ..) (takeSign_le ..))
    · exact Nat.le_refl _

theorem scanNumber_shorter (done : scanNumber text = .ok (value, left)) : left.length < text.length := by
  unfold scanNumber at done
  simp only at done
  split at done
  · cases done
  · rename_i digits rest found
    have shorter := Nat.lt_of_lt_of_le (integerDigits_shorter found) (takeSign_le ..)
    have below := Nat.le_trans (exponent_le _) (fraction_le rest)
    split at done
    · split at done
      · cases done
      · cases done
        exact Nat.lt_of_le_of_lt below shorter
    · cases done
      exact Nat.lt_of_le_of_lt below shorter

section

variable {scan : List Char → Scan Decoded}
  (shorter : ∀ {text value left}, scan text = .ok (value, left) → left.length < text.length)

include shorter

theorem scanElements_shorter (done : scanElements scan fuel text = .ok (items, left)) : left.length < text.length := by
  induction fuel generalizing text items left with
  | zero => cases done
  | succ fuel ih =>
    obtain ⟨value, rest, scanned, done⟩ := scanThen_ok.mp done
    have first := Nat.lt_of_lt_of_le (shorter scanned) (skipSpace_le text)
    have below := skipSpace_le rest
    split at done
    · rename_i found
      cases done
      simp only [found, List.length_cons] at below
      omega
    · rename_i more found
      obtain ⟨others, end', later, same⟩ := scanThen_ok.mp done
      cases same
      have last := ih later
      simp only [found, List.length_cons] at below
      omega
    · cases done

theorem scanElements_fuel (enough : text.length < fuel) : scanElements scan (fuel + 1) text = scanElements scan fuel text := by
  induction fuel generalizing text with
  | zero => cases enough
  | succ fuel ih =>
    rw [scanElements, scanElements]
    cases scanned : scan (skipSpace text) with
    | error => rfl
    | ok pair =>
      obtain ⟨value, rest⟩ := pair
      have first := Nat.lt_of_lt_of_le (shorter scanned) (skipSpace_le text)
      have below := skipSpace_le rest
      simp only [scanThen]
      split
      · rfl
      · rename_i more found
        simp only [found, List.length_cons] at below
        rw [ih (by omega)]
      · rfl

theorem member_shorter (opened : skipSpace text = '"' :: quoted) (named : scanString (quoted.length + 1) quoted = .ok (key, rest))
    (colon : skipSpace rest = ':' :: after) (scanned : scan (skipSpace after) = .ok (value, left)) : left.length + 2 < text.length := by
  have one := skipSpace_le text
  have two := scanString_shorter named
  have three := skipSpace_le rest
  have four := Nat.lt_of_lt_of_le (shorter scanned) (skipSpace_le after)
  simp only [opened, colon, List.length_cons] at one three
  omega

theorem scanMembers_shorter (done : scanMembers scan fuel text = .ok (pairs, left)) : left.length < text.length := by
  induction fuel generalizing text pairs left with
  | zero => cases done
  | succ fuel ih =>
    simp only [scanMembers] at done
    split at done
    · rename_i quoted opened
      obtain ⟨key, rest, named, done⟩ := scanThen_ok.mp done
      split at done
      · rename_i after colon
        obtain ⟨value, more, scanned, done⟩ := scanThen_ok.mp done
        have first := member_shorter shorter opened named colon scanned
        have below := skipSpace_le more
        split at done
        · rename_i found
          cases done
          simp only [found, List.length_cons] at below
          omega
        · rename_i comma found
          obtain ⟨others, end', later, same⟩ := scanThen_ok.mp done
          cases same
          have last := ih later
          simp only [found, List.length_cons] at below
          omega
        · cases done
      · cases done
    · cases done

theorem scanMembers_fuel (enough : text.length < fuel) : scanMembers scan (fuel + 1) text = scanMembers scan fuel text := by
  induction fuel generalizing text with
  | zero => cases enough
  | succ fuel ih =>
    rw [scanMembers, scanMembers]
    split
    · rename_i quoted opened
      cases named : scanString (quoted.length + 1) quoted with
      | error => rfl
      | ok pair =>
        obtain ⟨key, rest⟩ := pair
        simp only [scanThen]
        split
        · rename_i after colon
          cases scanned : scan (skipSpace after) with
          | error => rfl
          | ok pair =>
            obtain ⟨value, more⟩ := pair
            have first := member_shorter shorter opened named colon scanned
            have below := skipSpace_le more
            simp only
            split
            · rfl
            · rename_i comma found
              simp only [found, List.length_cons] at below
              rw [ih (by omega)]
            · rfl
        · rfl
    · rfl

theorem scanArray_shorter (done : scanArray scan text = .ok (value, left)) : left.length ≤ text.length := by
  have below := skipSpace_le text
  unfold scanArray at done
  split at done
  · rename_i found
    cases done
    simp only [found, List.length_cons] at below
    omega
  · obtain ⟨items, end', scanned, same⟩ := scanThen_ok.mp done
    cases same
    exact Nat.le_of_lt (Nat.lt_of_lt_of_le (scanElements_shorter shorter scanned) below)

theorem scanObject_shorter (done : scanObject scan text = .ok (value, left)) : left.length ≤ text.length := by
  have below := skipSpace_le text
  unfold scanObject at done
  split at done
  · rename_i found
    cases done
    simp only [found, List.length_cons] at below
    omega
  · obtain ⟨items, end', scanned, same⟩ := scanThen_ok.mp done
    cases same
    exact Nat.le_of_lt (Nat.lt_of_lt_of_le (scanMembers_shorter shorter scanned) below)

end

theorem scanOnce_shorter (done : scanOnce depth text = .ok (value, left)) : left.length < text.length := by
  induction depth generalizing text value left with
  | zero =>
    rw [scanOnce.eq_def] at done
    split at done
    · obtain ⟨points, end', scanned, same⟩ := scanThen_ok.mp done
      cases same
      exact Nat.lt_succ_of_lt (scanString_shorter scanned)
    all_goals first | exact scanNumber_shorter done | (cases done; simp only [List.length_cons]; omega) | cases done
  | succ depth ih =>
    rw [scanOnce.eq_def] at done
    split at done
    · obtain ⟨points, end', scanned, same⟩ := scanThen_ok.mp done
      cases same
      exact Nat.lt_succ_of_lt (scanString_shorter scanned)
    · exact Nat.lt_succ_of_le (scanObject_shorter ih done)
    · exact Nat.lt_succ_of_le (scanArray_shorter ih done)
    all_goals first | exact scanNumber_shorter done | (cases done; simp only [List.length_cons]; omega)

/-- The fuel of the loops of `scan_once` is enough: more changes nothing. -/
theorem scanOnce_fuel (depth : Nat) (text : List Char) :
    scanElements (scanOnce depth) (text.length + 2) text = scanElements (scanOnce depth) (text.length + 1) text ∧
      scanMembers (scanOnce depth) (text.length + 2) text = scanMembers (scanOnce depth) (text.length + 1) text ∧
      scanString (text.length + 2) text = scanString (text.length + 1) text :=
  ⟨scanElements_fuel scanOnce_shorter (Nat.lt_succ_self _), scanMembers_fuel scanOnce_shorter (Nat.lt_succ_self _),
    scanString_fuel (Nat.lt_succ_self _)⟩

end NovelStudio.Library

/-! `json.loads` of Python with an `object_pairs_hook` and a `parse_constant`. -/

namespace NovelStudio.Library

/-- What the fields of an object become, and what `NaN` and the infinities become; a hook may raise. -/
structure Hooks where
  pairs : List (PyStr × Decoded) → Option (List (PyStr × Decoded))
  constant : List Char → Option Decoded

/-- No hooks: the last of equal keys counts, and constants are floats. -/
def Hooks.none : Hooks := ⟨fun pairs => some (pairs.foldl storeField []), fun literal => some (.float literal)⟩

def scanConstant (hooks : Hooks) (literal left : List Char) : Scan Decoded :=
  match hooks.constant literal with
  | some value => .ok (value, left)
  | .none => .error .decode

def scanObjectHooked (hooks : Hooks) (scan : List Char → Scan Decoded) (text : List Char) : Scan Decoded :=
  match skipSpace text with
  | '}' :: left =>
    match hooks.pairs [] with
    | some fields => .ok (.dict fields, left)
    | .none => .error .decode
  | more => scanThen (scanMembers scan (more.length + 1) more) fun pairs left =>
    match hooks.pairs pairs with
    | some fields => .ok (.dict fields, left)
    | .none => .error .decode

/-- `scan_once` with hooks. -/
def scanHooked (hooks : Hooks) (depth : Nat) (text : List Char) : Scan Decoded :=
  match text with
  | '"' :: rest => scanThen (scanString (rest.length + 1) rest) fun value left => .ok (.str value, left)
  | '{' :: rest =>
    match depth with
    | 0 => .error .recursion
    | depth + 1 => scanObjectHooked hooks (scanHooked hooks depth) rest
  | '[' :: rest =>
    match depth with
    | 0 => .error .recursion
    | depth + 1 => scanArray (scanHooked hooks depth) rest
  | 'n' :: 'u' :: 'l' :: 'l' :: left => .ok (.null, left)
  | 't' :: 'r' :: 'u' :: 'e' :: left => .ok (.bool true, left)
  | 'f' :: 'a' :: 'l' :: 's' :: 'e' :: left => .ok (.bool false, left)
  | 'N' :: 'a' :: 'N' :: left => scanConstant hooks ['N', 'a', 'N'] left
  | 'I' :: 'n' :: 'f' :: 'i' :: 'n' :: 'i' :: 't' :: 'y' :: left => scanConstant hooks ['I', 'n', 'f'] left
  | '-' :: 'I' :: 'n' :: 'f' :: 'i' :: 'n' :: 'i' :: 't' :: 'y' :: left => scanConstant hooks ['-', 'I', 'n', 'f'] left
  | _ => scanNumber text

/-- `json.loads`: one value, with space around it and nothing else. -/
def loads (hooks : Hooks) (depth : Nat) (text : List Char) : Except Fault Decoded :=
  if text.head? = some '\uFEFF' then .error .decode
  else
    match scanHooked hooks depth (skipSpace text) with
    | .error fault => .error fault
    | .ok (value, left) => if skipSpace left = [] then .ok value else .error .decode

/-- Without hooks the scanner is that of `raw_decode`. -/
theorem scanHooked_none (depth : Nat) : scanHooked Hooks.none depth = scanOnce depth := by
  induction depth with
  | zero =>
    funext text
    rw [scanHooked.eq_def, scanOnce.eq_def]
    rfl
  | succ depth ih =>
    funext text
    rw [scanHooked.eq_def, scanOnce.eq_def]
    simp only [ih]
    rfl

end NovelStudio.Library
