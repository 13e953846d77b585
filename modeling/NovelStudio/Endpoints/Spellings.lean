import NovelStudio.Library.Patterns
import NovelStudio.Library.Readings
import NovelStudio.Library.Splitting

/-! Addresses as the `ipaddress` module reads and classifies them: dotted quads, and hextets with a
skipped run of zeros and a scope. -/

namespace NovelStudio.Endpoints

open Library

def DIGITS : List Char := "0123456789".toList
def HEX_DIGITS : List Char := "0123456789abcdefABCDEF".toList

/-- The value of a digit of any base up to sixteen. -/
def digitValue (char : Char) : Nat :=
  if char.toNat < 58 then char.toNat - 48 else if char.toNat < 71 then char.toNat - 55 else char.toNat - 87

/-- `int(text, base)` of a text of digits. -/
def readNumber (base : Nat) (text : List Char) : Nat := text.foldl (fun value char => value * base + digitValue char) 0

def parseOctet (text : List Char) : Option Nat :=
  if text = [] ∨ ¬(∀ char ∈ text, char ∈ DIGITS) then none
  else if 3 < text.length then none
  else if text ≠ ['0'] ∧ text.head? = some '0' then none
  else if 255 < readNumber 10 text then none
  else some (readNumber 10 text)

/-- `int.from_bytes(octets, 'big')`. -/
def fromBytes (octets : List Nat) : Nat := octets.foldl (fun value octet => value * 256 + octet) 0

/-- `IPv4Address(text)`. -/
def ipv4Address (text : List Char) : Option Nat :=
  if '/' ∈ text then none
  else if text = [] then none
  else if (text.splitOn '.').length ≠ 4 then none
  else ((text.splitOn '.').mapM parseOctet).map fromBytes

/-- `text.partition(mark)`: what stands before the first mark, and what stands behind it where there is one. -/
def partition (mark : Char) (text : List Char) : List Char × Option (List Char) :=
  (text.takeWhile (· != mark), (text.dropWhile (· != mark)).tail?)

def splitScopeId (text : List Char) : Option (List Char × Option (List Char)) :=
  match partition '%' text with
  | (address, none) => some (address, none)
  | (address, some scope) => if scope = [] ∨ '%' ∈ scope then none else some (address, some scope)

/-- A part between colons: the characters that stand there, or half of a dotted quad, which the
source prints in hexadecimal and reads again. -/
inductive Part where
  | text (chars : List Char)
  | number (value : Nat)
deriving DecidableEq

/-- `not part`; a printed number has a digit at least. -/
def Part.empty : Part → Bool
  | text chars => chars.isEmpty
  | number _ => false

/-- `_parse_hextet`; the number of no digits is refused by `int`. -/
def Part.parse : Part → Option Nat
  | text chars => if (∃ char ∈ chars, char ∉ HEX_DIGITS) ∨ 4 < chars.length ∨ chars = [] then none else some (readNumber 16 chars)
  | number value => some value

/-- The parts between the colons, a dotted quad at the end as the two hextets it stands for. -/
def hextetParts (text : List Char) : Option (List Part) :=
  match (text.splitOn ':').getLast? with
  | none => none
  | some last =>
    if '.' ∈ last then
      match ipv4Address last with
      | none => none
      | some value => some ((text.splitOn ':').dropLast.map Part.text ++ [.number (value / 65536 % 65536), .number (value % 65536)])
    else some ((text.splitOn ':').map Part.text)

/-- The places of the empty parts between the ends. -/
def skips (parts : List Part) : List Nat := (List.range (parts.length - 2)).filterMap fun index =>
  if (parts[index + 1]?.map Part.empty).getD false then some (index + 1) else none

/-- `fromBytes` of sixteen bits each. -/
def fromHextets (start : Nat) (hextets : List Nat) : Nat := hextets.foldl (fun value hextet => value * 65536 + hextet) start

/-- How many parts stand above and below the skipped run, which are parsed, and how many it skips. -/
def hextetRuns (parts : List Part) : Option (Nat × Nat × Nat) :=
  let first := (parts.head?.map Part.empty).getD false
  let last := (parts.getLast?.map Part.empty).getD false
  match skips parts with
  | [] => if parts.length ≠ 8 ∨ first ∨ last then none else some (8, 0, 0)
  | [skip] =>
    let low := parts.length - skip - 1
    if first ∧ 1 < skip then none
    else if last ∧ 1 < low then none
    else
      let high := if first then skip - 1 else skip
      let low := if last then low - 1 else low
      if 8 ≤ high + low then none else some (high, low, 8 - (high + low))
  | _ :: _ :: _ => none

/-- `_BaseV6._ip_int_from_string`. -/
def hextetsFromString (text : List Char) : Option Nat :=
  if text = [] then none
  else if (text.splitOn ':').length < 3 then none
  else match hextetParts text with
    | none => none
    | some parts =>
      if 9 < parts.length then none
      else match hextetRuns parts with
        | none => none
        | some (high, low, skipped) =>
          match (parts.take high).mapM Part.parse, (parts.drop (parts.length - low)).mapM Part.parse with
          | some above, some below => some (fromHextets (fromHextets 0 above * 65536 ^ skipped) below)
          | _, _ => none

/-- `IPv6Address(text)`; the scope does not count where addresses are classified. -/
def ipv6Address (text : List Char) : Option Nat :=
  if '/' ∈ text then none
  else match splitScopeId text with
    | none => none
    | some (address, _) => hextetsFromString address

/-- An address of one of the two families. -/
inductive Address where
  | v4 (value : Nat)
  | v6 (value : Nat)
deriving DecidableEq

/-- `ipaddress.ip_address(text)`. -/
def ipAddress (text : List Char) : Option Address :=
  match ipv4Address text with
  | some value => some (.v4 value)
  | none => (ipv6Address text).map .v6

/-- Whether a value of so many bits lies in the network `base/length`. -/
def inNetwork (bits base length value : Nat) : Bool := value / 2 ^ (bits - length) == base / 2 ^ (bits - length)

/-- The first hextet as the top of an address. -/
def top (hextet : Nat) : Nat := hextet * 2 ^ 112

def RESERVED_NETWORKS : List (Nat × Nat) :=
  [(top 0, 8), (top 0x100, 8), (top 0x200, 7), (top 0x400, 6), (top 0x800, 5), (top 0x1000, 4), (top 0x4000, 3), (top 0x6000, 3),
    (top 0x8000, 3), (top 0xA000, 3), (top 0xC000, 3), (top 0xE000, 4), (top 0xF000, 5), (top 0xF800, 6), (top 0xFE00, 9)]

def Address.isLinkLocal : Address → Bool
  | v4 value => inNetwork 32 0xA9FE0000 16 value
  | v6 value => inNetwork 128 (top 0xFE80) 10 value

def Address.isMulticast : Address → Bool
  | v4 value => inNetwork 32 0xE0000000 4 value
  | v6 value => inNetwork 128 (top 0xFF00) 8 value

def Address.isUnspecified : Address → Bool
  | v4 value => value == 0
  | v6 value => value == 0

def Address.isReserved : Address → Bool
  | v4 value => inNetwork 32 0xF0000000 4 value
  | v6 value => RESERVED_NETWORKS.any fun (base, length) => inNetwork 128 base length value

def Address.isLoopback : Address → Bool
  | v4 value => inNetwork 32 0x7F000000 8 value
  | v6 value => value == 1

def Address.ipv4Mapped : Address → Option Nat
  | v4 _ => none
  | v6 value => if value / 2 ^ 32 = 0xFFFF then some (value % 2 ^ 32) else none

/-- An address that no provider is dialled at. -/
def Address.Restricted (address : Address) : Prop :=
  address.isLinkLocal = true ∨ address.isMulticast = true ∨ address.isUnspecified = true ∨ address.isReserved = true

theorem reserved_no_loopback {value : Nat} (reserved : (Address.v4 value).isReserved = true) : (Address.v4 value).isLoopback = false := by
  unfold Address.isReserved inNetwork at reserved
  unfold Address.isLoopback inNetwork
  rw [beq_iff_eq] at reserved
  rw [beq_eq_false_iff_ne]
  intro loopback
  omega

end NovelStudio.Endpoints

/-! The spellings of an IPv4 address that `inet_aton` takes, and those among them that the pattern of
legacy numeric hosts matches. -/

namespace NovelStudio.Endpoints

open Library

def OCTAL_DIGITS : List Char := "01234567".toList

/-- Whether a text begins with `0x` or `0X`. -/
def hexMark : List Char → Bool
  | zero :: mark :: _ => zero == '0' && (mark == 'x' || mark == 'X')
  | _ => false

/-- The number of some digits of a base, at least one. -/
def digits (base : Nat) (allowed text : List Char) : Option Nat :=
  if text ≠ [] ∧ ∀ char ∈ text, char ∈ allowed then some (readNumber base text) else none

/-- The number a part of an address spells: hexadecimal behind `0x`, octal behind another `0`, decimal else. -/
def partValue (part : List Char) : Option Nat :=
  if hexMark part then digits 16 HEX_DIGITS (part.drop 2)
  else if part.head? = some '0' then digits 8 OCTAL_DIGITS part
  else digits 10 DIGITS part

/-- The address of one to four numbers: all but the last are bytes, the last takes what remains. -/
def combine : List Nat → Option Nat
  | [last] => if last < 2 ^ 32 then some last else none
  | [one, last] => if one < 256 ∧ last < 2 ^ 24 then some (one * 2 ^ 24 + last) else none
  | [one, two, last] => if one < 256 ∧ two < 256 ∧ last < 2 ^ 16 then some (one * 2 ^ 24 + two * 2 ^ 16 + last) else none
  | [one, two, three, last] =>
    if one < 256 ∧ two < 256 ∧ three < 256 ∧ last < 256 then some (one * 2 ^ 24 + two * 2 ^ 16 + three * 2 ^ 8 + last) else none
  | _ => none

/-- The address a host spells, in any of the spellings of `inet_aton`. -/
def inetAton (host : List Char) : Option Nat := ((host.splitOn '.').mapM partValue).bind combine

/-- A part behind a dot is spelled in hexadecimal. -/
def LaterHexadecimal (host : List Char) : Prop := (inetAton host).isSome = true ∧ ∃ part ∈ (host.splitOn '.').tail, hexMark part = true

instance (host : List Char) : Decidable (LaterHexadecimal host) := by
  unfold LaterHexadecimal
  infer_instance

variable {text : List Char} {value : Nat}

theorem digits_some {base : Nat} {allowed : List Char} (read : digits base allowed text = some value) :
    text ≠ [] ∧ (∀ char ∈ text, char ∈ allowed) ∧ readNumber base text = value := by
  unfold digits at read
  split at read
  · rename_i both
    exact ⟨both.1, both.2, Option.some.inj read⟩
  · cases read

variable {char : Char}

theorem octal_decimal (octal : char ∈ OCTAL_DIGITS) : char ∈ DIGITS := by
  have all := List.all_eq_true.mp (show (OCTAL_DIGITS.all fun char => decide (char ∈ DIGITS)) = true by decide) char octal
  exact of_decide_eq_true all

variable {part : List Char}

theorem partValue_decimal (read : partValue part = some value) (unmarked : hexMark part = false) :
    part ≠ [] ∧ ∀ char ∈ part, char ∈ DIGITS := by
  unfold partValue at read
  rw [if_neg (by rw [unmarked]; exact Bool.false_ne_true)] at read
  split at read
  · obtain ⟨some', inside, -⟩ := digits_some read
    exact ⟨some', fun char member => octal_decimal (inside char member)⟩
  · obtain ⟨some', inside, -⟩ := digits_some read
    exact ⟨some', inside⟩

/-- A part with the mark is `0`, `x` or `X`, and one or more hexadecimal digits. -/
theorem partValue_hexadecimal (read : partValue part = some value) (marked : hexMark part = true) :
    ∃ mark rest, part = '0' :: mark :: rest ∧ (mark = 'x' ∨ mark = 'X') ∧ rest ≠ [] ∧ ∀ char ∈ rest, char ∈ HEX_DIGITS := by
  unfold partValue at read
  rw [if_pos marked] at read
  obtain ⟨some', inside, -⟩ := digits_some read
  match part, marked, some', inside with
  | zero :: mark :: rest, marked, some', inside =>
    rw [hexMark, Bool.and_eq_true, Bool.or_eq_true, beq_iff_eq, beq_iff_eq, beq_iff_eq] at marked
    exact ⟨mark, rest, by rw [marked.1], marked.2, some', inside⟩

variable {address : Nat} {host : List Char}

theorem inetAton_parts (spelled : inetAton host = some address) :
    ∃ values, (host.splitOn '.').mapM partValue = some values ∧ combine values = some address := by
  exact Option.bind_eq_some_iff.mp spelled

theorem inetAton_part (spelled : inetAton host = some address) (listed : part ∈ host.splitOn '.') :
    ∃ value, partValue part = some value := by
  obtain ⟨values, read, -⟩ := inetAton_parts spelled
  obtain ⟨value, -, here⟩ := exists_result_of_forall₂ (mapM_some.mp read) listed
  exact ⟨value, here⟩

theorem partValue_chars (read : partValue part = some value) (member : char ∈ part) :
    char ∈ HEX_DIGITS ∨ char = 'x' ∨ char = 'X' := by
  cases marked : hexMark part with
  | false =>
    have decimal := (partValue_decimal read marked).2 char member
    have hexadecimal := List.all_eq_true.mp (show (DIGITS.all fun char => decide (char ∈ HEX_DIGITS)) = true by decide) char decimal
    exact Or.inl (of_decide_eq_true hexadecimal)
  | true =>
    obtain ⟨mark, rest, rfl, letter, -, inside⟩ := partValue_hexadecimal read marked
    cases List.mem_cons.mp member with
    | inl zero =>
      subst zero
      exact Or.inl (by decide)
    | inr later =>
      cases List.mem_cons.mp later with
      | inl here =>
        subst here
        exact Or.inr letter
      | inr digit => exact Or.inl (inside char digit)

theorem inetAton_chars (spelled : inetAton host = some address) (member : char ∈ host) :
    char = '.' ∨ char ∈ HEX_DIGITS ∨ char = 'x' ∨ char = 'X' := by
  have whole : ['.'].intercalate (host.splitOn '.') = host := List.intercalate_splitOn '.'
  rw [← whole] at member
  cases mem_intercalate member with
  | inl dot => exact Or.inl (List.mem_singleton.mp dot)
  | inr inside =>
    obtain ⟨part, listed, here⟩ := inside
    obtain ⟨value, read⟩ := inetAton_part spelled listed
    exact Or.inr (partValue_chars read here)

theorem parseOctet_partValue (read : parseOctet part = some value) : partValue part = some value ∧ value < 256 := by
  unfold parseOctet at read
  split at read
  · cases read
  rename_i texts
  rw [not_or, not_not] at texts
  split at read
  · cases read
  split at read
  · cases read
  rename_i leading
  split at read
  · cases read
  rename_i small
  obtain rfl := Option.some.inj read
  refine ⟨?_, by omega⟩
  by_cases zero : part = ['0']
  · subst zero
    have octal : ∀ char ∈ ['0'], char ∈ OCTAL_DIGITS := by
      intro char member
      obtain rfl := List.mem_singleton.mp member
      decide
    have unmarked : hexMark ['0'] = false := rfl
    have first : ['0'].head? = some '0' := rfl
    rw [partValue, if_neg (by rw [unmarked]; exact Bool.false_ne_true), if_pos first, digits, if_pos ⟨List.cons_ne_nil _ _, octal⟩]
    rfl
  · have first : part.head? ≠ some '0' := fun zeros => leading ⟨zero, zeros⟩
    have unmarked : hexMark part = false := by
      unfold hexMark
      split
      · rename_i one mark rest
        rw [List.head?_cons, ne_eq, Option.some.injEq] at first
        rw [beq_false_of_ne first, Bool.false_and]
      · rfl
    rw [partValue, if_neg (by rw [unmarked]; exact Bool.false_ne_true), if_neg first, digits, if_pos ⟨texts.1, texts.2⟩]

theorem ipv4Address_inetAton (read : ipv4Address text = some value) : inetAton text = some value := by
  unfold ipv4Address at read
  split at read
  · cases read
  split at read
  · cases read
  split at read
  · cases read
  obtain ⟨octets, parsed, rfl⟩ := Option.map_eq_some_iff.mp read
  rename_i four
  rw [not_not] at four
  have each := mapM_some.mp parsed
  have parts : (text.splitOn '.').mapM partValue = some octets := by
    rw [mapM_some]
    exact each.imp fun part octet here => (parseOctet_partValue here).1
  have bytes : ∀ octet ∈ octets, octet < 256 := by
    intro octet member
    obtain ⟨part, -, here⟩ := exists_of_forall₂ each member
    exact (parseOctet_partValue here).2
  have count : octets.length = 4 := each.length_eq.symm.trans four
  obtain ⟨one, two, three, last, rfl⟩ := List.length_eq_four.mp count
  simp only [List.mem_cons, List.not_mem_nil, or_false, forall_eq_or_imp, forall_eq] at bytes
  rw [inetAton, parts, Option.bind_some, combine, if_pos bytes]
  simp only [fromBytes, List.foldl_cons, List.foldl_nil]
  exact congrArg some (by omega)

theorem inetAton_ipv6Address (spelled : inetAton text = some address) : ipv6Address text = none := by
  have absent : ∀ mark : Char, mark ≠ '.' → mark ∉ HEX_DIGITS → mark ≠ 'x' → mark ≠ 'X' → mark ∉ text := by
    intro mark dot digit small large member
    cases inetAton_chars spelled member with
    | inl here => exact dot here
    | inr others =>
      rcases others with hexadecimal | letter | letter
      · exact digit hexadecimal
      · exact small letter
      · exact large letter
  have colons : ':' ∉ text := absent ':' (by decide) (by decide) (by decide) (by decide)
  have scopes : '%' ∉ text := absent '%' (by decide) (by decide) (by decide) (by decide)
  have slashes : '/' ∉ text := absent '/' (by decide) (by decide) (by decide) (by decide)
  have whole : partition '%' text = (text, none) := by
    have kept : ∀ char ∈ text, (char != '%') = true := by
      intro char member
      rw [bne_iff_ne]
      intro same
      exact scopes (same ▸ member)
    rw [partition, List.takeWhile_eq_self_iff.mpr kept, List.dropWhile_eq_nil_iff.mpr kept]
    rfl
  rw [ipv6Address, if_neg slashes, splitScopeId, whole]
  show hextetsFromString text = none
  unfold hextetsFromString
  split
  · rfl
  · rw [List.splitOn_eq_singleton colons, if_pos (show [text].length < 3 from Nat.one_lt_succ_succ 1)]

/-- `[0-9]+`. -/
def DECIMALS : RegularExpression Char := more (oneOf DIGITS)

/-- `0[xX][0-9A-Fa-f]+`. -/
def HEXADECIMALS : RegularExpression Char := .char '0' * (oneOf ['x', 'X'] * more (oneOf HEX_DIGITS))

/-- `(?:[0-9]+|0[xX][0-9A-Fa-f]+)(?:\.[0-9]+|0[xX][0-9A-Fa-f]+)*`: in the repeated group the dot
belongs to the first alternative alone. -/
def PROVIDER_LEGACY_NUMERIC_HOST : RegularExpression Char :=
  (DECIMALS + HEXADECIMALS) * (RegularExpression.char '.' * DECIMALS + HEXADECIMALS).star

/-- One piece of the repeated group. -/
def Piece (word : List Char) : Prop := word ∈ (RegularExpression.char '.' * DECIMALS + HEXADECIMALS).matches'

variable {word : List Char}

theorem mem_decimals : word ∈ DECIMALS.matches' ↔ word ≠ [] ∧ ∀ char ∈ word, char ∈ DIGITS := mem_more_oneOf

theorem mem_hexadecimals : word ∈ HEXADECIMALS.matches' ↔
    ∃ mark rest, word = '0' :: mark :: rest ∧ (mark = 'x' ∨ mark = 'X') ∧ rest ≠ [] ∧ ∀ char ∈ rest, char ∈ HEX_DIGITS := by
  rw [HEXADECIMALS, RegularExpression.matches'_mul, RegularExpression.matches'_mul, Language.mem_mul]
  constructor
  · intro matched
    obtain ⟨zero, rfl, tail, marked, rfl⟩ := matched
    obtain ⟨one, letter, rest, inside, rfl⟩ := Language.mem_mul.mp marked
    obtain ⟨mark, listed, rfl⟩ := mem_oneOf.mp letter
    obtain ⟨some', each⟩ := mem_more_oneOf.mp inside
    refine ⟨mark, rest, rfl, ?_, some', each⟩
    rwa [List.mem_cons, List.mem_singleton] at listed
  · intro spelled
    obtain ⟨mark, rest, rfl, letter, some', each⟩ := spelled
    refine ⟨['0'], rfl, mark :: rest, ?_, rfl⟩
    refine Language.mem_mul.mpr ⟨[mark], mem_oneOf.mpr ⟨mark, ?_, rfl⟩, rest, mem_more_oneOf.mpr ⟨some', each⟩, rfl⟩
    rwa [List.mem_cons, List.mem_singleton]

theorem piece_iff : Piece word ↔ (∃ rest, word = '.' :: rest ∧ rest ∈ DECIMALS.matches') ∨ word ∈ HEXADECIMALS.matches' := by
  rw [Piece, RegularExpression.matches'_add, Language.mem_add, RegularExpression.matches'_mul, Language.mem_mul]
  constructor
  · intro matched
    cases matched with
    | inl dotted =>
      obtain ⟨dot, rfl, rest, here, rfl⟩ := dotted
      exact Or.inl ⟨rest, rfl, here⟩
    | inr hexadecimal => exact Or.inr hexadecimal
  · intro either
    cases either with
    | inl dotted =>
      obtain ⟨rest, rfl, here⟩ := dotted
      exact Or.inl ⟨['.'], rfl, rest, here, rfl⟩
    | inr hexadecimal => exact Or.inr hexadecimal

theorem legacy_iff : PROVIDER_LEGACY_NUMERIC_HOST.rmatch host = true ↔
    ∃ (first : List Char) (pieces : List (List Char)), host = first ++ pieces.flatten ∧ (first ∈ DECIMALS.matches' ∨ first ∈ HEXADECIMALS.matches') ∧ ∀ piece ∈ pieces, Piece piece := by
  rw [RegularExpression.rmatch_iff_matches', PROVIDER_LEGACY_NUMERIC_HOST, RegularExpression.matches'_mul, RegularExpression.matches'_star,
    Language.mem_mul]
  constructor
  · intro matched
    obtain ⟨first, number, tail, rest, rfl⟩ := matched
    obtain ⟨pieces, rfl, each⟩ := Language.mem_kstar.mp rest
    exact ⟨first, pieces, rfl, number, each⟩
  · intro split
    obtain ⟨first, pieces, rfl, number, each⟩ := split
    exact ⟨first, number, pieces.flatten, Language.mem_kstar.mpr ⟨pieces, rfl, each⟩, rfl⟩

/-- Some dot is followed by `0x`. -/
def dottedMark : List Char → Bool
  | [] => false
  | char :: rest => (char == '.' && hexMark rest) || dottedMark rest

theorem hexMark_append (marked : hexMark text = true) (rest : List Char) : hexMark (text ++ rest) = true := by
  match text, marked with
  | zero :: mark :: text, marked => exact marked

theorem dottedMark_append {front : List Char} (undotted : '.' ∉ front) (rest : List Char) : dottedMark (front ++ rest) = dottedMark rest := by
  induction front with
  | nil => rfl
  | cons char front ih =>
    rw [List.mem_cons, not_or] at undotted
    rw [List.cons_append, dottedMark, beq_false_of_ne (Ne.symm undotted.1), Bool.false_and, Bool.false_or, ih undotted.2]

theorem dottedMark_part (later : part ∈ (host.splitOn '.').tail) (marked : hexMark part = true) :
    dottedMark host = true := by
  induction host with
  | nil => cases later
  | cons char host ih =>
    rw [dottedMark, Bool.or_eq_true, Bool.and_eq_true]
    rw [List.splitOn_cons_eq_if_modifyHead] at later
    split at later
    · rename_i dot
      rw [List.tail_cons] at later
      cases parts : host.splitOn '.' with
      | nil => exact absurd parts (List.splitOn_ne_nil '.' host)
      | cons head tail =>
        rw [parts] at later
        cases List.mem_cons.mp later with
        | inl first =>
          have whole : ['.'].intercalate (host.splitOn '.') = host := List.intercalate_splitOn '.'
          rw [parts] at whole
          obtain ⟨rest, front⟩ : ∃ rest, host = head ++ rest := by
            cases tail with
            | nil => exact ⟨[], by rw [← whole, List.intercalate_singleton, List.append_nil]⟩
            | cons next tail => exact ⟨['.'] ++ ['.'].intercalate (next :: tail), by rw [← whole, List.intercalate_cons_cons, List.append_assoc]⟩
          refine Or.inl ⟨dot, ?_⟩
          rw [front]
          exact hexMark_append (first ▸ marked) rest
        | inr others =>
          rw [parts, List.tail_cons] at ih
          exact Or.inr (ih others)
    · rw [List.tail_modifyHead] at later
      exact Or.inr (ih later)

theorem digits_undotted (inside : ∀ char ∈ word, char ∈ HEX_DIGITS) : '.' ∉ word := by
  intro member
  exact absurd (inside '.' member) (by decide)

theorem hexadecimals_undotted (matched : word ∈ HEXADECIMALS.matches') : '.' ∉ word := by
  obtain ⟨mark, rest, rfl, letter, -, inside⟩ := mem_hexadecimals.mp matched
  intro member
  cases List.mem_cons.mp member with
  | inl zero => exact absurd zero (by decide)
  | inr later =>
    cases List.mem_cons.mp later with
    | inl here =>
      subst here
      exact absurd letter (by decide)
    | inr digit => exact digits_undotted inside digit

theorem decimals_hexadecimal (matched : word ∈ DECIMALS.matches') : ∀ char ∈ word, char ∈ HEX_DIGITS := by
  intro char member
  have hexadecimal := List.all_eq_true.mp (show (DIGITS.all fun char => decide (char ∈ HEX_DIGITS)) = true by decide) char
    ((mem_decimals.mp matched).2 char member)
  exact of_decide_eq_true hexadecimal

variable {pieces : List (List Char)}

theorem pieces_start (each : ∀ piece ∈ pieces, Piece piece) {rest : List Char}
    (whole : pieces.flatten = char :: rest) : char = '.' ∨ char = '0' := by
  cases pieces with
  | nil => cases whole
  | cons piece pieces =>
    rw [List.flatten_cons] at whole
    cases piece_iff.mp (each piece (List.mem_cons_self ..)) with
    | inl dotted =>
      obtain ⟨digits, rfl, -⟩ := dotted
      exact Or.inl (List.cons.inj whole).1.symm
    | inr hexadecimal =>
      obtain ⟨mark, digits, rfl, -⟩ := mem_hexadecimals.mp hexadecimal
      exact Or.inr (List.cons.inj whole).1.symm

theorem hexMark_decimals (matched : word ∈ DECIMALS.matches') (each : ∀ piece ∈ pieces, Piece piece) :
    hexMark (word ++ pieces.flatten) = false := by
  have letters : ∀ mark : Char, mark ∈ DIGITS ∨ mark = '.' ∨ mark = '0' → (mark == 'x' || mark == 'X') = false := by
    intro mark known
    rw [Bool.or_eq_false_iff, beq_eq_false_iff_ne, beq_eq_false_iff_ne]
    constructor
    · intro small
      subst small
      exact absurd known (by decide)
    · intro large
      subst large
      exact absurd known (by decide)
  cases word with
  | nil => exact absurd rfl (mem_decimals.mp matched).1
  | cons digit word =>
    cases word with
    | nil =>
      cases next : pieces.flatten with
      | nil => rfl
      | cons mark rest =>
        show (digit == '0' && (mark == 'x' || mark == 'X')) = false
        rw [letters mark (Or.inr (pieces_start each next)), Bool.and_false]
    | cons mark word =>
      show (digit == '0' && (mark == 'x' || mark == 'X')) = false
      rw [letters mark (Or.inl ((mem_decimals.mp matched).2 mark (List.mem_cons_of_mem _ (List.mem_cons_self ..)))), Bool.and_false]

theorem pieces_unmarked (each : ∀ piece ∈ pieces, Piece piece) : dottedMark pieces.flatten = false := by
  induction pieces with
  | nil => rfl
  | cons piece pieces ih =>
    have later : ∀ other ∈ pieces, Piece other := fun other member => each other (List.mem_cons_of_mem _ member)
    rw [List.flatten_cons]
    cases piece_iff.mp (each piece (List.mem_cons_self ..)) with
    | inl dotted =>
      obtain ⟨digits, rfl, matched⟩ := dotted
      rw [List.cons_append, dottedMark, hexMark_decimals matched later, Bool.and_false, Bool.false_or,
        dottedMark_append (digits_undotted (decimals_hexadecimal matched)), ih later]
    | inr hexadecimal => rw [dottedMark_append (hexadecimals_undotted hexadecimal), ih later]

theorem legacy_unmarked (matched : PROVIDER_LEGACY_NUMERIC_HOST.rmatch host = true) : dottedMark host = false := by
  obtain ⟨first, pieces, rfl, number, each⟩ := legacy_iff.mp matched
  have undotted : '.' ∉ first := by
    cases number with
    | inl decimal => exact digits_undotted (decimals_hexadecimal decimal)
    | inr hexadecimal => exact hexadecimals_undotted hexadecimal
  rw [dottedMark_append undotted, pieces_unmarked each]

theorem legacy_spelled (spelled : inetAton host = some address) :
    PROVIDER_LEGACY_NUMERIC_HOST.rmatch host = true ↔ ¬LaterHexadecimal host := by
  constructor
  · intro matched later
    obtain ⟨-, part, listed, marked⟩ := later
    have unmarked := legacy_unmarked matched
    rw [dottedMark_part listed marked] at unmarked
    cases unmarked
  · intro none
    have unmarked : ∀ part ∈ (host.splitOn '.').tail, hexMark part = false := by
      intro part listed
      rw [← Bool.not_eq_true]
      intro marked
      exact none ⟨by rw [spelled]; rfl, part, listed, marked⟩
    have values : ∀ part ∈ host.splitOn '.', ∃ value, partValue part = some value := fun part listed => inetAton_part spelled listed
    have whole : ['.'].intercalate (host.splitOn '.') = host := List.intercalate_splitOn '.'
    rw [legacy_iff]
    cases parts : host.splitOn '.' with
    | nil => exact absurd parts (List.splitOn_ne_nil '.' host)
    | cons first rest =>
      rw [parts] at unmarked values whole
      refine ⟨first, rest.map ('.' :: ·), ?_, ?_, ?_⟩
      · rw [← whole]
        clear whole parts unmarked values none
        induction rest generalizing first with
        | nil => rw [List.intercalate_singleton, List.map_nil, List.flatten_nil, List.append_nil]
        | cons next rest ih =>
          rw [List.intercalate_cons_cons, ih, List.map_cons, List.flatten_cons, List.append_assoc]
          rfl
      · obtain ⟨value, read⟩ := values first (List.mem_cons_self ..)
        cases marked : hexMark first with
        | false => exact Or.inl (mem_decimals.mpr (partValue_decimal read marked))
        | true => exact Or.inr (mem_hexadecimals.mpr (partValue_hexadecimal read marked))
      · intro piece member
        obtain ⟨part, listed, rfl⟩ := List.mem_map.mp member
        obtain ⟨value, read⟩ := values part (List.mem_cons_of_mem _ listed)
        exact piece_iff.mpr (Or.inl ⟨part, rfl, mem_decimals.mpr (partValue_decimal read (unmarked part listed))⟩)

end NovelStudio.Endpoints
