import Mathlib.Algebra.GroupWithZero.Nat

/-! Text operations as the Python string type defines them. -/

namespace NovelStudio.Library

/-! A property of the characters of a text is decided along the text, not over all characters. -/

instance decidableEveryChar {p : Char → Prop} [DecidablePred p] (text : List Char) : Decidable (∀ char ∈ text, p char) :=
  List.decidableBAll p text

instance decidableSomeChar {p : Char → Prop} [DecidablePred p] (text : List Char) : Decidable (∃ char ∈ text, p char) :=
  List.decidableBEx p text

/-- `str.isspace` of one character. -/
def isSpace (char : Char) : Bool :=
  let code := char.toNat
  (9 ≤ code && code ≤ 13) || (28 ≤ code && code ≤ 32) || code == 0x85 || code == 0xA0 || code == 0x1680 ||
    (0x2000 ≤ code && code ≤ 0x200A) || code == 0x2028 || code == 0x2029 || code == 0x202F || code == 0x205F ||
    code == 0x3000

/-- `str.strip()`: without the spaces at both ends. -/
def strip (text : String) : String :=
  String.ofList ((text.toList.dropWhile isSpace).reverse.dropWhile isSpace).reverse

/-- How many bytes the UTF-8 of a text takes. -/
def utf8Bytes (text : List Char) : Nat := (text.map Char.utf8Size).sum

theorem utf8ByteSize_ofList (text : List Char) : (String.ofList text).utf8ByteSize = utf8Bytes text := by
  induction text with
  | nil => rfl
  | cons char text ih =>
    rw [String.ofList_cons, String.utf8ByteSize_append, String.utf8ByteSize_singleton, ih]
    rfl

@[simp] theorem utf8Bytes_append (one two : List Char) : utf8Bytes (one ++ two) = utf8Bytes one + utf8Bytes two := by
  rw [utf8Bytes, List.map_append, List.sum_append]
  rfl

@[simp] theorem utf8Bytes_cons (char : Char) (text : List Char) : utf8Bytes (char :: text) = char.utf8Size + utf8Bytes text := rfl

theorem utf8Size_ascii {char : Char} (ascii : char.toNat < 128) : char.utf8Size = 1 := by
  have small : char.val.toNat ≤ 127 := Nat.le_of_lt_succ ascii
  exact if_pos small

theorem utf8Bytes_ascii {text : List Char} (ascii : ∀ char ∈ text, char.toNat < 128) : utf8Bytes text = text.length := by
  induction text with
  | nil => rfl
  | cons char text ih =>
    rw [utf8Bytes_cons, utf8Size_ascii (ascii char (List.mem_cons_self ..)), ih fun other member => ascii other (List.mem_cons_of_mem _ member),
      List.length_cons, Nat.add_comm]

end NovelStudio.Library
