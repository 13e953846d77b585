import Mathlib.Data.List.Basic
import Mathlib.Data.List.Infix

/-! UTF-8 as a strict decoder reads it: one code point at a time, where an error says at which byte
the code point begins, where it ends, and whether the bytes that are there could still be completed. -/

namespace NovelStudio.Library.Utf8

def encode (text : List Char) : List UInt8 := text.flatMap String.utf8EncodeChar

@[simp] theorem encode_nil : encode [] = [] := rfl

@[simp] theorem encode_cons (char : Char) (text : List Char) : encode (char :: text) = String.utf8EncodeChar char ++ encode text := rfl

@[simp] theorem encode_append (one two : List Char) : encode (one ++ two) = encode one ++ encode two := List.flatMap_append

/-- Bytes that begin a code point and do not end it. -/
def Unfinished (bytes : List UInt8) : Prop := bytes ≠ [] ∧ ∃ char rest, rest ≠ [] ∧ String.utf8EncodeChar char = bytes ++ rest

inductive Reason where
  | unexpectedEnd
  | invalidStart
  | invalidContinuation
deriving DecidableEq

/-- What stands at the head of some bytes: a code point of a width, the start of one that the bytes end in, or an error of a width. -/
inductive Scan where
  | scalar (value width : Nat)
  | incomplete
  | invalid (reason : Reason) (width : Nat)
deriving DecidableEq

def isContinuation (byte : UInt8) : Bool := 0x80 ≤ byte.toNat && byte.toNat < 0xC0

def scanTwo (first : UInt8) : List UInt8 → Scan
  | [] => .incomplete
  | second :: _ =>
    if !isContinuation second then .invalid .invalidContinuation 1
    else .scalar ((first.toNat - 0xC0) * 64 + (second.toNat - 0x80)) 2

/-- An overlong form behind `E0`, or a surrogate behind `ED`. -/
def misplacedThree (first second : UInt8) : Bool := if second.toNat < 0xA0 then first.toNat == 0xE0 else first.toNat == 0xED

/-- An overlong form behind `F0`, or what lies above the last code point behind `F4`. -/
def misplacedFour (first second : UInt8) : Bool := if second.toNat < 0x90 then first.toNat == 0xF0 else first.toNat == 0xF4

def scanThree (first : UInt8) : List UInt8 → Scan
  | [] => .incomplete
  | second :: rest =>
    if !isContinuation second || misplacedThree first second then .invalid .invalidContinuation 1
    else match rest with
      | [] => .incomplete
      | third :: _ =>
        if !isContinuation third then .invalid .invalidContinuation 2
        else .scalar ((first.toNat - 0xE0) * 4096 + (second.toNat - 0x80) * 64 + (third.toNat - 0x80)) 3

def scanFour (first : UInt8) : List UInt8 → Scan
  | [] => .incomplete
  | second :: rest =>
    if !isContinuation second || misplacedFour first second then .invalid .invalidContinuation 1
    else match rest with
      | [] => .incomplete
      | third :: rest =>
        if !isContinuation third then .invalid .invalidContinuation 2
        else match rest with
          | [] => .incomplete
          | fourth :: _ =>
            if !isContinuation fourth then .invalid .invalidContinuation 3
            else .scalar ((first.toNat - 0xF0) * 262144 + (second.toNat - 0x80) * 4096 + (third.toNat - 0x80) * 64 + (fourth.toNat - 0x80)) 4

def scan : List UInt8 → Scan
  | [] => .incomplete
  | first :: rest =>
    if first.toNat < 0x80 then .scalar first.toNat 1
    else if first.toNat < 0xC2 then .invalid .invalidStart 1
    else if first.toNat < 0xE0 then scanTwo first rest
    else if first.toNat < 0xF0 then scanThree first rest
    else if first.toNat < 0xF5 then scanFour first rest
    else .invalid .invalidStart 1

theorem isContinuation_iff {byte : UInt8} : isContinuation byte = true ↔ 0x80 ≤ byte.toNat ∧ byte.toNat < 0xC0 := by
  rw [isContinuation, Bool.and_eq_true, decide_eq_true_eq, decide_eq_true_eq]

theorem toNat_ofNat {value : Nat} (valid : value.isValidChar) : (Char.ofNat value).toNat = value := by
  rw [Char.ofNat, dif_pos valid]
  rfl

theorem ofNat_byte (byte : UInt8) {value : Nat} (same : value = byte.toNat) : UInt8.ofNat value = byte := by
  rw [same, UInt8.ofNat_toNat]

variable {char : Char}

theorem utf8EncodeChar_one (small : char.toNat < 0x80) : String.utf8EncodeChar char = [UInt8.ofNat char.toNat] :=
  if_pos (Nat.le_of_lt_succ small)

theorem utf8EncodeChar_two (big : 0x80 ≤ char.toNat) (small : char.toNat < 0x800) :
    String.utf8EncodeChar char = [UInt8.ofNat (char.toNat / 64 % 0x20 + 0xC0), UInt8.ofNat (char.toNat % 0x40 + 0x80)] :=
  (if_neg (Nat.not_le.mpr big)).trans (if_pos (Nat.le_of_lt_succ small))

theorem utf8EncodeChar_three (big : 0x800 ≤ char.toNat) (small : char.toNat < 0x10000) :
    String.utf8EncodeChar char =
      [UInt8.ofNat (char.toNat / 4096 % 0x10 + 0xE0), UInt8.ofNat (char.toNat / 64 % 0x40 + 0x80), UInt8.ofNat (char.toNat % 0x40 + 0x80)] :=
  ((if_neg (Nat.not_le.mpr (Nat.le_trans (by decide) big))).trans (if_neg (Nat.not_le.mpr big))).trans (if_pos (Nat.le_of_lt_succ small))

theorem utf8EncodeChar_four (big : 0x10000 ≤ char.toNat) :
    String.utf8EncodeChar char =
      [UInt8.ofNat (char.toNat / 262144 % 0x08 + 0xF0), UInt8.ofNat (char.toNat / 4096 % 0x40 + 0x80),
        UInt8.ofNat (char.toNat / 64 % 0x40 + 0x80), UInt8.ofNat (char.toNat % 0x40 + 0x80)] :=
  ((if_neg (Nat.not_le.mpr (Nat.le_trans (by decide) big))).trans (if_neg (Nat.not_le.mpr (Nat.le_trans (by decide) big)))).trans
    (if_neg (Nat.not_le.mpr big))

theorem utf8EncodeChar_cases (char : Char) :
    (char.toNat < 0x80 ∧ ∃ first, String.utf8EncodeChar char = [first] ∧ first.toNat = char.toNat) ∨
    (0x80 ≤ char.toNat ∧ char.toNat < 0x800 ∧ ∃ first second, String.utf8EncodeChar char = [first, second] ∧
      first.toNat = char.toNat / 64 + 0xC0 ∧ second.toNat = char.toNat % 64 + 0x80) ∨
    (0x800 ≤ char.toNat ∧ char.toNat < 0x10000 ∧ (char.toNat < 0xD800 ∨ 0xDFFF < char.toNat) ∧
      ∃ first second third, String.utf8EncodeChar char = [first, second, third] ∧ first.toNat = char.toNat / 4096 + 0xE0 ∧
        second.toNat = char.toNat / 64 % 64 + 0x80 ∧ third.toNat = char.toNat % 64 + 0x80) ∨
    (0x10000 ≤ char.toNat ∧ char.toNat < 0x110000 ∧ ∃ first second third fourth, String.utf8EncodeChar char = [first, second, third, fourth] ∧
      first.toNat = char.toNat / 262144 + 0xF0 ∧ second.toNat = char.toNat / 4096 % 64 + 0x80 ∧
      third.toNat = char.toNat / 64 % 64 + 0x80 ∧ fourth.toNat = char.toNat % 64 + 0x80) := by
  have valid : char.toNat < 0xD800 ∨ (0xDFFF < char.toNat ∧ char.toNat < 0x110000) := char.valid
  have byte : ∀ {value : Nat}, value < 256 → (UInt8.ofNat value).toNat = value := fun small => UInt8.toNat_ofNat_of_lt' small
  by_cases one : char.toNat < 0x80
  · exact Or.inl ⟨one, _, utf8EncodeChar_one one, byte (by omega)⟩
  · by_cases two : char.toNat < 0x800
    · refine Or.inr (Or.inl ⟨by omega, two, _, _, utf8EncodeChar_two (by omega) two, ?_, byte (by omega)⟩)
      rw [byte (by omega)]
      omega
    · by_cases three : char.toNat < 0x10000
      · refine Or.inr (Or.inr (Or.inl ⟨by omega, three, by omega, _, _, _, utf8EncodeChar_three (by omega) three, ?_, byte (by omega),
          byte (by omega)⟩))
        rw [byte (by omega)]
        omega
      · refine Or.inr (Or.inr (Or.inr ⟨by omega, by omega, _, _, _, _, utf8EncodeChar_four (by omega), ?_, byte (by omega), byte (by omega),
          byte (by omega)⟩))
        rw [byte (by omega)]
        omega

variable {first second : UInt8}

theorem encoded_two (lead : 0xC2 ≤ first.toNat) (short : first.toNat < 0xE0) (tail : isContinuation second = true) :
    ∃ char : Char, char.toNat = (first.toNat - 0xC0) * 64 + (second.toNat - 0x80) ∧ String.utf8EncodeChar char = [first, second] := by
  rw [isContinuation_iff] at tail
  have valid : ((first.toNat - 0xC0) * 64 + (second.toNat - 0x80)).isValidChar := Or.inl (by omega)
  have value := toNat_ofNat valid
  refine ⟨_, value, ?_⟩
  rw [utf8EncodeChar_two (by rw [value]; omega) (by rw [value]; omega), value, ofNat_byte first (by omega),
    ofNat_byte second (by omega)]

theorem encoded_three {third : UInt8} (lead : 0xE0 ≤ first.toNat) (short : first.toNat < 0xF0) (tail : isContinuation second = true)
    (overlong : first.toNat = 0xE0 → 0xA0 ≤ second.toNat) (surrogate : first.toNat = 0xED → second.toNat < 0xA0) (last : isContinuation third = true) :
    ∃ char : Char, char.toNat = (first.toNat - 0xE0) * 4096 + (second.toNat - 0x80) * 64 + (third.toNat - 0x80) ∧
      String.utf8EncodeChar char = [first, second, third] := by
  rw [isContinuation_iff] at tail last
  have valid : ((first.toNat - 0xE0) * 4096 + (second.toNat - 0x80) * 64 + (third.toNat - 0x80)).isValidChar := by
    by_cases low : first.toNat < 0xEE
    · exact Or.inl (by omega)
    · exact Or.inr ⟨by omega, by omega⟩
  have value := toNat_ofNat valid
  refine ⟨_, value, ?_⟩
  rw [utf8EncodeChar_three (by rw [value]; omega) (by rw [value]; omega), value, ofNat_byte first (by omega),
    ofNat_byte second (by omega), ofNat_byte third (by omega)]

theorem encoded_four {third fourth : UInt8} (lead : 0xF0 ≤ first.toNat) (short : first.toNat < 0xF5) (tail : isContinuation second = true)
    (overlong : first.toNat = 0xF0 → 0x90 ≤ second.toNat) (above : first.toNat = 0xF4 → second.toNat < 0x90) (middle : isContinuation third = true)
    (last : isContinuation fourth = true) :
    ∃ char : Char, char.toNat =
        (first.toNat - 0xF0) * 262144 + (second.toNat - 0x80) * 4096 + (third.toNat - 0x80) * 64 + (fourth.toNat - 0x80) ∧
      String.utf8EncodeChar char = [first, second, third, fourth] := by
  rw [isContinuation_iff] at tail middle last
  have valid : ((first.toNat - 0xF0) * 262144 + (second.toNat - 0x80) * 4096 + (third.toNat - 0x80) * 64 + (fourth.toNat - 0x80)).isValidChar :=
    Or.inr ⟨by omega, by omega⟩
  have value := toNat_ofNat valid
  refine ⟨_, value, ?_⟩
  rw [utf8EncodeChar_four (by rw [value]; omega), value, ofNat_byte first (by omega), ofNat_byte second (by omega),
    ofNat_byte third (by omega), ofNat_byte fourth (by omega)]

theorem scan_encoded (char : Char) (tail : List UInt8) :
    scan (String.utf8EncodeChar char ++ tail) = .scalar char.toNat (String.utf8EncodeChar char).length := by
  rcases utf8EncodeChar_cases char with one | two | three | four
  · obtain ⟨small, first, same, value⟩ := one
    rw [same]
    show scan (first :: tail) = .scalar char.toNat 1
    rw [scan, if_pos (by omega), value]
  · obtain ⟨big, small, first, second, same, lead, last⟩ := two
    have continues : isContinuation second = true := isContinuation_iff.mpr (by omega)
    rw [same]
    show scan (first :: second :: tail) = .scalar char.toNat 2
    rw [scan, if_neg (by omega), if_neg (by omega), if_pos (by omega), scanTwo, continues, if_neg (by decide)]
    exact congrArg (Scan.scalar · 2) (by omega)
  · obtain ⟨big, small, apart, first, second, third, same, lead, middle, last⟩ := three
    have continues : isContinuation second = true := isContinuation_iff.mpr (by omega)
    have ends : isContinuation third = true := isContinuation_iff.mpr (by omega)
    have plain : misplacedThree first second = false := by
      unfold misplacedThree
      split
      · exact beq_false_of_ne (by omega)
      · exact beq_false_of_ne (by omega)
    rw [same]
    show scan (first :: second :: third :: tail) = .scalar char.toNat 3
    rw [scan, if_neg (by omega), if_neg (by omega), if_neg (by omega), if_pos (by omega), scanThree, continues, plain, if_neg (by decide), ends,
      if_neg (by decide)]
    exact congrArg (Scan.scalar · 3) (by omega)
  · obtain ⟨big, small, first, second, third, fourth, same, lead, middle, next, last⟩ := four
    have continues : isContinuation second = true := isContinuation_iff.mpr (by omega)
    have goes : isContinuation third = true := isContinuation_iff.mpr (by omega)
    have ends : isContinuation fourth = true := isContinuation_iff.mpr (by omega)
    have plain : misplacedFour first second = false := by
      unfold misplacedFour
      split
      · exact beq_false_of_ne (by omega)
      · exact beq_false_of_ne (by omega)
    rw [same]
    show scan (first :: second :: third :: fourth :: tail) = .scalar char.toNat 4
    rw [scan, if_neg (by omega), if_neg (by omega), if_neg (by omega), if_neg (by omega), if_pos (by omega), scanFour, continues, plain,
      if_neg (by decide), goes, if_neg (by decide), ends, if_neg (by decide)]
    exact congrArg (Scan.scalar · 4) (by omega)

/-- What a scan says about the bytes: a code point stands encoded at the head, or the bytes end inside one, or neither. -/
inductive Found (bytes : List UInt8) : Scan → Prop where
  | scalar (char : Char) (tail : List UInt8) (whole : bytes = String.utf8EncodeChar char ++ tail) :
      Found bytes (.scalar char.toNat (String.utf8EncodeChar char).length)
  | incomplete (unfinished : Unfinished bytes) : Found bytes .incomplete
  | invalid (reason : Reason) (width : Nat) (named : reason ≠ .unexpectedEnd) : Found bytes (.invalid reason width)

variable {bytes rest : List UInt8}

theorem Unfinished.of_encoded (some' : bytes ≠ []) (more : rest ≠ [])
    (encoded : String.utf8EncodeChar char = bytes ++ rest) : Unfinished bytes := ⟨some', char, rest, more, encoded⟩

theorem found_two (rest : List UInt8) (lead : 0xC2 ≤ first.toNat) (short : first.toNat < 0xE0) :
    Found (first :: rest) (scanTwo first rest) := by
  cases rest with
  | nil =>
    obtain ⟨char, -, encoded⟩ := @encoded_two first 0x80 lead short (by decide)
    exact .incomplete (.of_encoded (List.cons_ne_nil _ _) (List.cons_ne_nil 0x80 []) encoded)
  | cons second tail =>
    rw [scanTwo]
    split
    · exact .invalid _ _ (by decide)
    · rename_i continues
      rw [Bool.not_eq_true', Bool.not_eq_false] at continues
      obtain ⟨char, value, encoded⟩ := encoded_two lead short continues
      have found : Found (first :: second :: tail) (.scalar char.toNat _) := .scalar char tail (by rw [encoded]; rfl)
      rwa [value, encoded] at found

theorem found_three (rest : List UInt8) (lead : 0xE0 ≤ first.toNat) (short : first.toNat < 0xF0) :
    Found (first :: rest) (scanThree first rest) := by
  cases rest with
  | nil =>
    -- the second byte that is free of overlong forms and of surrogates
    by_cases zero : first.toNat = 0xE0
    · obtain ⟨char, -, encoded⟩ := @encoded_three first 0xA0 0x80 lead short (by decide) (fun _ => by decide) (by omega) (by decide)
      exact .incomplete (.of_encoded (List.cons_ne_nil _ _) (List.cons_ne_nil 0xA0 [0x80]) encoded)
    · obtain ⟨char, -, encoded⟩ := @encoded_three first 0x80 0x80 lead short (by decide) (by omega) (fun _ => by decide) (by decide)
      exact .incomplete (.of_encoded (List.cons_ne_nil _ _) (List.cons_ne_nil 0x80 [0x80]) encoded)
  | cons second tail =>
    show Found _ (if (!isContinuation second || misplacedThree first second) = true then .invalid .invalidContinuation 1 else _)
    split
    · exact .invalid _ _ (by decide)
    · rename_i allowed
      rw [Bool.or_eq_true, not_or, Bool.not_eq_true', Bool.not_eq_false] at allowed
      obtain ⟨continues, plain⟩ := allowed
      have overlong : first.toNat = 0xE0 → 0xA0 ≤ second.toNat := by
        intro zero
        by_contra low
        rw [misplacedThree, if_pos (by omega), beq_iff_eq] at plain
        exact plain zero
      have surrogate : first.toNat = 0xED → second.toNat < 0xA0 := by
        intro surrogates
        by_contra high
        rw [misplacedThree, if_neg high, beq_iff_eq] at plain
        exact plain surrogates
      cases tail with
      | nil =>
        obtain ⟨char, -, encoded⟩ := @encoded_three first second 0x80 lead short continues overlong surrogate (by decide)
        exact .incomplete (.of_encoded (List.cons_ne_nil _ _) (List.cons_ne_nil 0x80 []) encoded)
      | cons third tail =>
        show Found _ (if (!isContinuation third) = true then .invalid .invalidContinuation 2 else _)
        split
        · exact .invalid _ _ (by decide)
        · rename_i ends
          rw [Bool.not_eq_true', Bool.not_eq_false] at ends
          obtain ⟨char, value, encoded⟩ := encoded_three lead short continues overlong surrogate ends
          have found : Found (first :: second :: third :: tail) (.scalar char.toNat _) := .scalar char tail (by rw [encoded]; rfl)
          rwa [value, encoded] at found

theorem found_four (rest : List UInt8) (lead : 0xF0 ≤ first.toNat) (short : first.toNat < 0xF5) :
    Found (first :: rest) (scanFour first rest) := by
  cases rest with
  | nil =>
    by_cases zero : first.toNat = 0xF0
    · obtain ⟨char, -, encoded⟩ := @encoded_four first 0x90 0x80 0x80 lead short (by decide) (fun _ => by decide) (by omega) (by decide) (by decide)
      exact .incomplete (.of_encoded (List.cons_ne_nil _ _) (List.cons_ne_nil 0x90 [0x80, 0x80]) encoded)
    · obtain ⟨char, -, encoded⟩ := @encoded_four first 0x80 0x80 0x80 lead short (by decide) (by omega) (fun _ => by decide) (by decide) (by decide)
      exact .incomplete (.of_encoded (List.cons_ne_nil _ _) (List.cons_ne_nil 0x80 [0x80, 0x80]) encoded)
  | cons second tail =>
    show Found _ (if (!isContinuation second || misplacedFour first second) = true then .invalid .invalidContinuation 1 else _)
    split
    · exact .invalid _ _ (by decide)
    · rename_i allowed
      rw [Bool.or_eq_true, not_or, Bool.not_eq_true', Bool.not_eq_false] at allowed
      obtain ⟨continues, plain⟩ := allowed
      have overlong : first.toNat = 0xF0 → 0x90 ≤ second.toNat := by
        intro zero
        by_contra low
        rw [misplacedFour, if_pos (by omega), beq_iff_eq] at plain
        exact plain zero
      have above : first.toNat = 0xF4 → second.toNat < 0x90 := by
        intro last
        by_contra high
        rw [misplacedFour, if_neg high, beq_iff_eq] at plain
        exact plain last
      cases tail with
      | nil =>
        obtain ⟨char, -, encoded⟩ := @encoded_four first second 0x80 0x80 lead short continues overlong above (by decide) (by decide)
        exact .incomplete (.of_encoded (List.cons_ne_nil _ _) (List.cons_ne_nil 0x80 [0x80]) encoded)
      | cons third tail =>
        show Found _ (if (!isContinuation third) = true then .invalid .invalidContinuation 2 else _)
        split
        · exact .invalid _ _ (by decide)
        · rename_i goes
          rw [Bool.not_eq_true', Bool.not_eq_false] at goes
          cases tail with
          | nil =>
            obtain ⟨char, -, encoded⟩ := @encoded_four first second third 0x80 lead short continues overlong above goes (by decide)
            exact .incomplete (.of_encoded (List.cons_ne_nil _ _) (List.cons_ne_nil 0x80 []) encoded)
          | cons fourth tail =>
            show Found _ (if (!isContinuation fourth) = true then .invalid .invalidContinuation 3 else _)
            split
            · exact .invalid _ _ (by decide)
            · rename_i ends
              rw [Bool.not_eq_true', Bool.not_eq_false] at ends
              obtain ⟨char, value, encoded⟩ := encoded_four lead short continues overlong above goes ends
              have found : Found (first :: second :: third :: fourth :: tail) (.scalar char.toNat _) := .scalar char tail (by rw [encoded]; rfl)
              rwa [value, encoded] at found

theorem found_scan (some' : bytes ≠ []) : Found bytes (scan bytes) := by
  cases bytes with
  | nil => exact absurd rfl some'
  | cons first rest =>
    rw [scan]
    split
    · rename_i small
      have valid : first.toNat.isValidChar := Or.inl (by omega)
      have value := toNat_ofNat valid
      have encoded : String.utf8EncodeChar (Char.ofNat first.toNat) = [first] := by
        rw [utf8EncodeChar_one (by rw [value]; omega), value, ofNat_byte first rfl]
      have found : Found (first :: rest) (.scalar (Char.ofNat first.toNat).toNat _) := .scalar _ rest (by rw [encoded]; rfl)
      rwa [value, encoded] at found
    · split
      · exact .invalid _ _ (by decide)
      · split
        · exact found_two rest (by omega) (by omega)
        · split
          · exact found_three rest (by omega) (by omega)
          · split
            · exact found_four rest (by omega) (by omega)
            · exact .invalid _ _ (by decide)

variable {reason : Reason} {width : Nat}

theorem scanTwo_append (bad : scanTwo first rest = .invalid reason width)
    (more : List UInt8) : scanTwo first (rest ++ more) = .invalid reason width := by
  cases rest with
  | nil => cases bad
  | cons second tail => exact bad

theorem scanThree_append (bad : scanThree first rest = .invalid reason width)
    (more : List UInt8) : scanThree first (rest ++ more) = .invalid reason width := by
  match rest with
  | [] => cases bad
  | [second] =>
    change (if (!isContinuation second || misplacedThree first second) = true then Scan.invalid .invalidContinuation 1 else Scan.incomplete) = _ at bad
    split at bad
    · rename_i refused
      exact (if_pos refused).trans bad
    · cases bad
  | second :: third :: tail => exact bad

theorem scanFour_append (bad : scanFour first rest = .invalid reason width)
    (more : List UInt8) : scanFour first (rest ++ more) = .invalid reason width := by
  match rest with
  | [] => cases bad
  | [second] =>
    change (if (!isContinuation second || misplacedFour first second) = true then Scan.invalid .invalidContinuation 1 else Scan.incomplete) = _ at bad
    split at bad
    · rename_i refused
      exact (if_pos refused).trans bad
    · cases bad
  | [second, third] =>
    change (if (!isContinuation second || misplacedFour first second) = true then Scan.invalid .invalidContinuation 1 else if (!isContinuation third) = true then Scan.invalid .invalidContinuation 2 else Scan.incomplete) = _ at bad
    split at bad
    · rename_i refused
      exact (if_pos refused).trans bad
    · rename_i allowed
      split at bad
      · rename_i refused
        exact ((if_neg allowed).trans (if_pos refused)).trans bad
      · cases bad
  | second :: third :: fourth :: tail => exact bad

theorem scan_append (bad : scan bytes = .invalid reason width) (more : List UInt8) :
    scan (bytes ++ more) = .invalid reason width := by
  cases bytes with
  | nil => cases bad
  | cons first rest =>
    rw [scan] at bad
    rw [List.cons_append, scan]
    split at bad
    · cases bad
    · rename_i long
      rw [if_neg long]
      split at bad
      · rename_i start
        rw [if_pos start, bad]
      · rename_i lead
        rw [if_neg lead]
        split at bad
        · rename_i two
          rw [if_pos two, scanTwo_append bad more]
        · rename_i others
          rw [if_neg others]
          split at bad
          · rename_i three
            rw [if_pos three, scanThree_append bad more]
          · rename_i rest'
            rw [if_neg rest']
            split at bad
            · rename_i four
              rw [if_pos four, scanFour_append bad more]
            · rename_i none'
              rw [if_neg none', bad]

theorem encoded_append {other : Char} {tail : List UInt8} (same : String.utf8EncodeChar char ++ tail = String.utf8EncodeChar other ++ rest) :
    char = other ∧ tail = rest := by
  have one := scan_encoded char tail
  rw [same, scan_encoded other rest] at one
  obtain ⟨value, length⟩ := Scan.scalar.inj one
  have tails := (List.append_inj' same (by
    have lengths := congrArg List.length same
    rw [List.length_append, List.length_append] at lengths
    omega)).2
  exact ⟨Char.ext (UInt32.toNat_inj.mp value.symm), tails⟩

theorem scan_unfinished (unfinished : Unfinished bytes) : scan bytes = .incomplete := by
  obtain ⟨some', char, rest, more, encoded⟩ := unfinished
  cases scanned : scan bytes with
  | incomplete => rfl
  | invalid reason width =>
    have whole := scan_append scanned rest
    rw [← encoded, ← List.append_nil (String.utf8EncodeChar char), scan_encoded] at whole
    cases whole
  | scalar value width =>
    have found := found_scan some'
    rw [scanned] at found
    cases found with
    | scalar other tail whole =>
      rw [whole, List.append_assoc, ← List.append_nil (String.utf8EncodeChar char)] at encoded
      have none := (encoded_append encoded).2
      exact absurd (List.append_eq_nil_iff.mp none.symm).2 more

/-- Where decoding stopped, and why. -/
structure DecodeError where
  start : Nat
  stop : Nat
  reason : Reason
deriving DecidableEq

/-- `bytes.decode('utf-8')`, where the first byte stands at a position. -/
def decode (position : Nat) (bytes : List UInt8) : Except DecodeError (List Char) :=
  match bytes with
  | [] => .ok []
  | first :: rest =>
    match scan (first :: rest) with
    | .scalar value width => (decode (position + max width 1) ((first :: rest).drop (max width 1))).map (Char.ofNat value :: ·)
    | .incomplete => .error ⟨position, position + (first :: rest).length, .unexpectedEnd⟩
    | .invalid reason width => .error ⟨position, position + width, reason⟩
termination_by bytes.length
decreasing_by
  rw [List.length_drop, List.length_cons]
  omega

theorem utf8EncodeChar_length (char : Char) : 0 < (String.utf8EncodeChar char).length ∧ (String.utf8EncodeChar char).length ≤ 4 := by
  rcases utf8EncodeChar_cases char with one | two | three | four
  · obtain ⟨-, first, same, -⟩ := one
    rw [same]
    exact ⟨by simp, by simp⟩
  · obtain ⟨-, -, first, second, same, -⟩ := two
    rw [same]
    exact ⟨by simp, by simp⟩
  · obtain ⟨-, -, -, first, second, third, same, -⟩ := three
    rw [same]
    exact ⟨by simp, by simp⟩
  · obtain ⟨-, -, first, second, third, fourth, same, -⟩ := four
    rw [same]
    exact ⟨by simp, by simp⟩

theorem Unfinished.length (unfinished : Unfinished bytes) : bytes.length < 4 := by
  obtain ⟨-, char, rest, more, encoded⟩ := unfinished
  have whole := congrArg List.length encoded
  have size := (utf8EncodeChar_length char).2
  have positive := List.length_pos_iff.mpr more
  rw [List.length_append] at whole
  omega

theorem decode_char (position : Nat) (char : Char) (tail : List UInt8) :
    decode position (String.utf8EncodeChar char ++ tail) = (decode (position + (String.utf8EncodeChar char).length) tail).map (char :: ·) := by
  have positive := (utf8EncodeChar_length char).1
  have scanned := scan_encoded char tail
  cases bytes : String.utf8EncodeChar char ++ tail with
  | nil => exact absurd (List.append_eq_nil_iff.mp bytes).1 (List.ne_nil_of_length_pos positive)
  | cons first rest =>
    rw [bytes] at scanned
    rw [decode, scanned]
    show (decode (position + max _ 1) ((first :: rest).drop (max _ 1))).map _ = _
    rw [max_eq_left positive, ← bytes, List.drop_left, Char.ofNat_toNat]

theorem decode_encode (position : Nat) (text : List Char) (tail : List UInt8) :
    decode position (encode text ++ tail) = (decode (position + (encode text).length) tail).map (text ++ ·) := by
  induction text generalizing position with
  | nil =>
    show decode position tail = (decode (position + 0) tail).map _
    cases decode position tail with
    | ok more => rfl
    | error failure => rfl
  | cons char text ih =>
    rw [encode_cons, List.append_assoc, decode_char, ih, List.length_append, Nat.add_assoc]
    cases decode (position + ((String.utf8EncodeChar char).length + (encode text).length)) tail with
    | ok more => rfl
    | error failure => rfl

theorem exists_text (bytes : List UInt8) : ∃ text tail, bytes = encode text ++ tail ∧ ∀ value width, tail ≠ [] → scan tail ≠ .scalar value width := by
  induction size : bytes.length using Nat.strong_induction_on generalizing bytes with
  | h size ih =>
    cases bytes with
    | nil => exact ⟨[], [], rfl, fun value width some' => absurd rfl some'⟩
    | cons first rest =>
      have found := found_scan (List.cons_ne_nil first rest)
      cases scanned : scan (first :: rest) with
      | incomplete => exact ⟨[], first :: rest, rfl, fun value width _ => by rw [scanned]; nofun⟩
      | invalid reason width => exact ⟨[], first :: rest, rfl, fun value width _ => by rw [scanned]; nofun⟩
      | scalar value width =>
        rw [scanned] at found
        cases found with
        | scalar char tail whole =>
          have lengths := congrArg List.length whole
          rw [List.length_append] at lengths
          have positive := (utf8EncodeChar_length char).1
          obtain ⟨text, others, same, stops⟩ := ih tail.length (by omega) tail rfl
          exact ⟨char :: text, others, by rw [whole, same, encode_cons, List.append_assoc], stops⟩

theorem decode_ok {position : Nat} {text : List Char} : decode position bytes = .ok text ↔ bytes = encode text := by
  constructor
  · intro decoded
    obtain ⟨front, tail, rfl, stops⟩ := exists_text bytes
    rw [decode_encode] at decoded
    cases tail with
    | nil =>
      rw [decode] at decoded
      have same : front ++ [] = text := Except.ok.inj decoded
      rw [List.append_nil, ← same, List.append_nil]
    | cons first rest =>
      rw [decode] at decoded
      cases scanned : scan (first :: rest) with
      | scalar value width => exact absurd scanned (stops value width (List.cons_ne_nil _ _))
      | incomplete =>
        rw [scanned] at decoded
        cases decoded
      | invalid reason width =>
        rw [scanned] at decoded
        cases decoded
  · intro same
    have whole := decode_encode position text []
    rw [List.append_nil, ← same] at whole
    rw [whole, decode]
    show Except.ok (text ++ []) = _
    rw [List.append_nil]

theorem decode_unfinished (text : List Char) {missing : List UInt8} (unfinished : Unfinished missing) :
    decode 0 (encode text ++ missing) = .error ⟨(encode text).length, (encode text ++ missing).length, .unexpectedEnd⟩ := by
  have scanned := scan_unfinished unfinished
  rw [decode_encode, Nat.zero_add]
  cases missing with
  | nil => exact absurd rfl unfinished.1
  | cons first rest =>
    rw [decode, scanned, List.length_append]
    rfl

theorem decode_unexpectedEnd {failure : DecodeError} (failed : decode 0 bytes = .error failure)
    (broken : failure.reason = .unexpectedEnd) : ∃ text missing, bytes = encode text ++ missing ∧ Unfinished missing := by
  obtain ⟨front, tail, rfl, stops⟩ := exists_text bytes
  rw [decode_encode, Nat.zero_add] at failed
  cases tail with
  | nil =>
    rw [decode] at failed
    cases failed
  | cons first rest =>
    have found := found_scan (List.cons_ne_nil first rest)
    rw [decode] at failed
    cases scanned : scan (first :: rest) with
    | scalar value width => exact absurd scanned (stops value width (List.cons_ne_nil _ _))
    | incomplete =>
      rw [scanned] at found
      cases found with
      | incomplete unfinished => exact ⟨front, first :: rest, rfl, unfinished⟩
    | invalid reason width =>
      rw [scanned] at failed found
      obtain rfl := Except.error.inj failed
      cases found with
      | invalid _ _ named => exact absurd broken named

/-- A text that is cut after so many bytes: what is kept of it, and the beginning of the code point that is cut. -/
theorem take_encode (text : List Char) (limit : Nat) :
    ∃ kept rest missing, text = kept ++ rest ∧ (encode text).take limit = encode kept ++ missing ∧ (missing = [] ∨ Unfinished missing) ∧
      (encode kept).length ≤ limit ∧ ∀ char others, rest = char :: others → limit < (encode kept).length + (String.utf8EncodeChar char).length := by
  induction text generalizing limit with
  | nil => exact ⟨[], [], [], rfl, List.take_nil, Or.inl rfl, Nat.zero_le _, nofun⟩
  | cons char text ih =>
    by_cases fits : (String.utf8EncodeChar char).length ≤ limit
    · obtain ⟨kept, rest, missing, same, cut, broken, within', next⟩ := ih (limit - (String.utf8EncodeChar char).length)
      refine ⟨char :: kept, rest, missing, by rw [same, List.cons_append], ?_, broken, ?_, ?_⟩
      · rw [encode_cons, List.take_append, List.take_of_length_le fits, cut, encode_cons, List.append_assoc]
      · rw [encode_cons, List.length_append]
        omega
      · intro other others first
        have over' := next other others first
        rw [encode_cons, List.length_append]
        omega
    · refine ⟨[], char :: text, (String.utf8EncodeChar char).take limit, rfl, ?_, ?_, Nat.zero_le _, ?_⟩
      · rw [encode_cons, List.take_append_of_le_length (by omega)]
        rfl
      · by_cases none : (String.utf8EncodeChar char).take limit = []
        · exact Or.inl none
        · refine Or.inr ⟨none, char, (String.utf8EncodeChar char).drop limit, ?_, (List.take_append_drop limit _).symm⟩
          apply List.ne_nil_of_length_pos
          rw [List.length_drop]
          omega
      · intro other others first
        obtain ⟨rfl, -⟩ := List.cons.inj first
        rw [encode_nil, List.length_nil]
        omega

/-- What is kept is the longest part of the text, from its beginning on, whose bytes are within the limit. -/
theorem longest_kept {kept rest other : List Char} {limit : Nat}
    (next : ∀ char others, rest = char :: others → limit < (encode kept).length + (String.utf8EncodeChar char).length)
    (shorter : other <+: kept ++ rest) (within' : (encode other).length ≤ limit) : other <+: kept := by
  cases List.prefix_or_prefix_of_prefix shorter (List.prefix_append kept rest) with
  | inl inside => exact inside
  | inr beyond =>
    obtain ⟨more, same⟩ := beyond
    cases more with
    | nil =>
      rw [List.append_nil] at same
      rw [same]
    | cons char more =>
      subst same
      have continued : char :: more <+: rest := (List.prefix_append_right_inj kept).mp shorter
      obtain ⟨others, whole⟩ := continued
      have beyond := next char (more ++ others) whole.symm
      rw [encode_append, encode_cons, List.length_append, List.length_append] at within'
      omega

end NovelStudio.Library.Utf8
