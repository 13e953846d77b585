import Mathlib.Data.List.Basic

/-! URL-safe base64 without padding, and the bytes of ASCII texts. -/

namespace NovelStudio.Library

def sextet (value : Nat) : Char :=
  if value < 26 then Char.ofNat (65 + value)
  else if value < 52 then Char.ofNat (71 + value)
  else if value < 62 then Char.ofNat (value - 4)
  else if value = 62 then '-' else '_'

def sextetValue (char : Char) : Option Nat :=
  if 'A' ≤ char ∧ char ≤ 'Z' then some (char.toNat - 65)
  else if 'a' ≤ char ∧ char ≤ 'z' then some (char.toNat - 71)
  else if '0' ≤ char ∧ char ≤ '9' then some (char.toNat + 4)
  else if char = '-' then some 62
  else if char = '_' then some 63
  else none

/-- `base64.urlsafe_b64encode(raw).rstrip(b"=")`. -/
def url64 : List UInt8 → List Char
  | [] => []
  | [a] => [sextet (a.toNat / 4), sextet (a.toNat % 4 * 16)]
  | [a, b] => [sextet (a.toNat / 4), sextet (a.toNat % 4 * 16 + b.toNat / 16), sextet (b.toNat % 16 * 4)]
  | a :: b :: c :: rest =>
    sextet (a.toNat / 4) :: sextet (a.toNat % 4 * 16 + b.toNat / 16) :: sextet (b.toNat % 16 * 4 + c.toNat / 64) ::
      sextet (c.toNat % 64) :: url64 rest

/-- `base64.b64decode` of a text that is padded first; bits that are left in the last character are dropped. -/
def b64decode : List Char → Option (List UInt8)
  | [] => some []
  | [_] => none
  | [a, b] => do
    let a ← sextetValue a
    let b ← sextetValue b
    return [UInt8.ofNat (a * 4 + b / 16)]
  | [a, b, c] => do
    let a ← sextetValue a
    let b ← sextetValue b
    let c ← sextetValue c
    return [UInt8.ofNat (a * 4 + b / 16), UInt8.ofNat (b % 16 * 16 + c / 4)]
  | a :: b :: c :: d :: rest => do
    let a ← sextetValue a
    let b ← sextetValue b
    let c ← sextetValue c
    let d ← sextetValue d
    let bytes ← b64decode rest
    return UInt8.ofNat (a * 4 + b / 16) :: UInt8.ofNat (b % 16 * 16 + c / 4) :: UInt8.ofNat (c % 4 * 64 + d) :: bytes

/-- `[A-Za-z0-9_-]`. -/
def isUrl64 (char : Char) : Bool := (sextetValue char).isSome

theorem sextetValue_sextet : ∀ value, value < 64 → sextetValue (sextet value) = some value := by decide

theorem ofNat_toNat_eq (byte : UInt8) (same : value = byte.toNat) : UInt8.ofNat value = byte := by
  rw [same, UInt8.ofNat_toNat]

theorem b64decode_url64 (bytes : List UInt8) : b64decode (url64 bytes) = some bytes := by
  have six (value : Nat) (small : value < 64) := sextetValue_sextet value small
  fun_induction url64 bytes with
  | case1 => rfl
  | case2 a =>
    have bound := a.toNat_lt
    simp only [b64decode, six (a.toNat / 4) (by omega), six (a.toNat % 4 * 16) (by omega), Option.bind_eq_bind, Option.bind_some, Option.pure_def]
    rw [ofNat_toNat_eq a (by omega)]
  | case3 a b =>
    have bound := a.toNat_lt
    have bound' := b.toNat_lt
    simp only [b64decode, six (a.toNat / 4) (by omega), six (a.toNat % 4 * 16 + b.toNat / 16) (by omega), six (b.toNat % 16 * 4) (by omega),
      Option.bind_eq_bind, Option.bind_some, Option.pure_def]
    rw [ofNat_toNat_eq a (by omega), ofNat_toNat_eq b (by omega)]
  | case4 a b c rest ih =>
    have bound := a.toNat_lt
    have bound' := b.toNat_lt
    have bound'' := c.toNat_lt
    simp only [b64decode, six (a.toNat / 4) (by omega), six (a.toNat % 4 * 16 + b.toNat / 16) (by omega),
      six (b.toNat % 16 * 4 + c.toNat / 64) (by omega), six (c.toNat % 64) (by omega), ih, Option.bind_eq_bind, Option.bind_some, Option.pure_def]
    rw [ofNat_toNat_eq a (by omega), ofNat_toNat_eq b (by omega), ofNat_toNat_eq c (by omega)]

theorem isUrl64_url64 (bytes : List UInt8) : ∀ char ∈ url64 bytes, isUrl64 char = true := by
  have six (value : Nat) (small : value < 64) : isUrl64 (sextet value) = true := by rw [isUrl64, sextetValue_sextet value small]; rfl
  fun_induction url64 bytes with
  | case1 => simp
  | case2 a =>
    have bound := a.toNat_lt
    simp only [List.mem_cons, List.not_mem_nil, or_false, forall_eq_or_imp, forall_eq]
    exact ⟨six _ (by omega), six _ (by omega)⟩
  | case3 a b =>
    have bound := a.toNat_lt
    have bound' := b.toNat_lt
    simp only [List.mem_cons, List.not_mem_nil, or_false, forall_eq_or_imp, forall_eq]
    exact ⟨six _ (by omega), six _ (by omega), six _ (by omega)⟩
  | case4 a b c rest ih =>
    have bound := a.toNat_lt
    have bound' := b.toNat_lt
    have bound'' := c.toNat_lt
    simp only [List.mem_cons, forall_eq_or_imp]
    exact ⟨six _ (by omega), six _ (by omega), six _ (by omega), six _ (by omega), ih⟩

theorem length_url64 (bytes : List UInt8) : (url64 bytes).length = (4 * bytes.length + 2) / 3 := by
  fun_induction url64 bytes with
  | case1 => rfl
  | case2 => simp
  | case3 => simp
  | case4 a b c rest ih =>
    simp only [List.length_cons, ih]
    omega

/-- `text.encode("ascii")`, of a text that is ASCII. -/
def asciiBytes (text : List Char) : List UInt8 := text.map fun char => UInt8.ofNat char.toNat

/-- `raw.decode("utf-8")`. -/
def utf8Text (bytes : List UInt8) : Option (List Char) := (String.fromUTF8? bytes.toByteArray).map String.toList

theorem utf8Text_asciiBytes {text : List Char} (ascii : ∀ char ∈ text, char.toNat < 128) : utf8Text (asciiBytes text) = some text := by
  have bytes : text.flatMap String.utf8EncodeChar = asciiBytes text := by
    induction text with
    | nil => rfl
    | cons char rest ih =>
      have single : String.utf8EncodeChar char = [UInt8.ofNat char.toNat] := if_pos (Nat.le_of_lt_succ (ascii char (List.mem_cons_self ..)))
      rw [List.flatMap_cons, single, ih fun other member => ascii other (List.mem_cons_of_mem _ member)]
      rfl
  have decoded : String.fromUTF8? (asciiBytes text).toByteArray = some (String.ofList text) := by
    rw [← bytes]
    exact dif_pos ByteArray.isValidUTF8_utf8Encode
  rw [utf8Text, decoded, Option.map_some, String.toList_ofList]

theorem length_asciiBytes (text : List Char) : (asciiBytes text).length = text.length := List.length_map _

end NovelStudio.Library
