import Mathlib.Data.Rat.Floor
import Mathlib.Order.Lex
import NovelStudio.Library.Base64
import NovelStudio.Library.Fallible
import NovelStudio.Library.JsonEncoder
import NovelStudio.Library.Readings

/-! Cursors of asset queries (`creative/asset_query_cursor.py`): a signed token that says where a page ended. -/

namespace NovelStudio.Cursors

open Library

def MAX_TOKEN_BYTES : Nat := 2048
def MAX_PAYLOAD_BYTES : Nat := 1024
def CURSOR_TTL_SECONDS : Int := 900

/-- The last second at which a cursor may be issued. -/
def LAST_ISSUE : Int := 2 ^ 53 - 1 - CURSOR_TTL_SECONDS

/-- `AssetQueryCursorInvalid`, `AssetQueryCursorRestart` and `AssetQueryCursorUnavailable`. -/
inductive Failure where
  | invalid
  | restart
  | unavailable
  deriving DecidableEq

def isLowerHex (point : Nat) : Bool := (48 ≤ point && point ≤ 57) || (97 ≤ point && point ≤ 102)

def isAlphanumeric (point : Nat) : Bool := (48 ≤ point && point ≤ 57) || (65 ≤ point && point ≤ 90) || (97 ≤ point && point ≤ 122)

/-- `_SHA.fullmatch`. -/
def isSha (text : PyStr) : Bool := text.length = 64 && text.all isLowerHex

/-- `_ID.fullmatch`. -/
def isId (text : PyStr) : Bool :=
  match text with
  | [] => false
  | first :: rest => isAlphanumeric first && rest.length ≤ 239 && rest.all fun point => isAlphanumeric point || point = 95 || point = 45

/-- The time and the name that a page ended with. -/
structure Position where
  created : PyStr
  aid : PyStr
  deriving DecidableEq

/-- The check of `_after`; the code points of a string are below 0x110000. -/
def Position.admitted (position : Position) : Bool :=
  position.created.length ≤ 80 && position.created.all (fun point => 32 ≤ point && point ≠ 127 && point < 0x110000) && isId position.aid

structure CursorPosition where
  issuedAt : Int
  expiresAt : Int
  after : Position
  deriving DecidableEq

/-- `_times`. -/
def checkTimes (issued expires : Int) : Except Failure Unit :=
  reject (!(0 ≤ issued && issued ≤ LAST_ISSUE && expires - issued = CURSOR_TTL_SECONDS)) .invalid

/-- What the clock may give: a number, or anything else, an exception included. -/
inductive Reading where
  | int (value : Int)
  | float (value : Rat)
  | other

def now : Reading → Except Failure Int
  | .int value => if 0 ≤ value ∧ value ≤ LAST_ISSUE then .ok value else .error .unavailable
  | .float value => if 0 ≤ value ∧ value ≤ LAST_ISSUE then .ok ⌊value⌋ else .error .unavailable
  | .other => .error .unavailable

/-- The codec of a key: the HMAC of a body is 64 hexadecimal digits. The interpreter has room for two nested containers. -/
structure Codec where
  sign : List Char → List Char
  signed : ∀ body, isSha ((sign body).map Char.toNat) = true
  depth : Nat
  room : 2 ≤ depth

/-- `ensure_ascii`; the payload has no floats. -/
def cursorStyle : Style := ⟨escapeAscii, fun _ => none⟩

/-- `json.dumps` with sorted keys. -/
def sortKeys (fields : List (PyStr × Decoded)) : Decoded := .dict (sortBy Prod.fst fields)

def payload (binding revision : PyStr) (after : Position) (issued expires : Int) : Decoded :=
  sortKeys [(pyStr "v", .int 1), (pyStr "binding", .str binding), (pyStr "revision", .str revision),
    (pyStr "after", .list [.str after.created, .str after.aid]), (pyStr "iat", .int issued), (pyStr "exp", .int expires)]

/-- The times of a new cursor: those of the cursor before it, which has to be current, or a new lifetime. -/
def lifetime (current : Int) : Option CursorPosition → Except Failure (Int × Int)
  | none => return (current, current + CURSOR_TTL_SECONDS)
  | some prior => do
    checkTimes prior.issuedAt prior.expiresAt
    reject (!(prior.issuedAt ≤ current && current < prior.expiresAt)) .restart
    return (prior.issuedAt, prior.expiresAt)

def TOKEN_PREFIX : List Char := ['a', 'q', '1']

def tokenOf (codec : Codec) (body : List Char) : List Char := TOKEN_PREFIX ++ '.' :: body ++ '.' :: codec.sign body

def encode (codec : Codec) (clock : Reading) (binding revision : PyStr) (after : Position) (prior : Option CursorPosition) :
    Except Failure (List Char) := do
  reject (!isSha binding || !isSha revision || !after.admitted) .invalid
  let current ← now clock
  let (issued, expires) ← lifetime current prior
  let raw ← fetch (encodeValue cursorStyle (payload binding revision after issued expires)) .invalid
  reject (MAX_PAYLOAD_BYTES < (asciiBytes raw).length) .invalid
  let token := tokenOf codec (url64 (asciiBytes raw))
  reject (MAX_TOKEN_BYTES < token.length) .invalid
  return token

/-- `_pairs` and `_constant`. -/
def cursorHooks : Hooks := ⟨fun pairs => if (pairs.map Prod.fst).Nodup then some pairs else none, fun _ => none⟩

def FIELDS : List PyStr := ["v", "binding", "revision", "after", "iat", "exp"].map pyStr

def field (fields : List (PyStr × Decoded)) (name : String) : Option Decoded :=
  (fields.find? fun entry => entry.1 = pyStr name).map Prod.snd

/-- `_digest`. -/
def asDigest : Option Decoded → Except Failure PyStr
  | some (.str text) => if isSha text then .ok text else .error .invalid
  | _ => .error .invalid

/-- `_after`. -/
def asAfter : Option Decoded → Except Failure Position
  | some (.list [.str created, .str aid]) => if (Position.mk created aid).admitted then .ok ⟨created, aid⟩ else .error .invalid
  | _ => .error .invalid

/-- `type(value) is int`. -/
def asInt : Option Decoded → Except Failure Int
  | some (.int value) => .ok value
  | _ => .error .invalid

/-- What a payload says, once its shape is checked. -/
structure Contents where
  binding : PyStr
  revision : PyStr
  position : CursorPosition
  deriving DecidableEq

local instance lawfulNames : LawfulBEq PyStr := inferInstance

def readFields (fields : List (PyStr × Decoded)) : Except Failure Contents := do
  reject (!(FIELDS.all (fun name => name ∈ fields.map Prod.fst) && fields.all fun entry => entry.1 ∈ FIELDS)) .invalid
  let version ← asInt (field fields "v")
  reject (version ≠ 1) .invalid
  let binding ← asDigest (field fields "binding")
  let revision ← asDigest (field fields "revision")
  let after ← asAfter (field fields "after")
  let issued ← asInt (field fields "iat")
  let expires ← asInt (field fields "exp")
  checkTimes issued expires
  return ⟨binding, revision, issued, expires, after⟩

/-- The payload of an authenticated body; every failure to read it is the same. -/
def readBody (codec : Codec) (body : List Char) : Except Failure Contents := do
  let raw ← fetch (b64decode body) .invalid
  reject (MAX_PAYLOAD_BYTES < raw.length || url64 raw ≠ body) .invalid
  let text ← fetch (utf8Text raw) .invalid
  let value ← (loads cursorHooks codec.depth text).mapError fun _ => .invalid
  match value with
  | .dict fields => readFields fields
  | _ => throw .invalid

/-- The checks on the form of a token, and that its signature is the one of its body. -/
def authenticate (codec : Codec) (token : List Char) : Except Failure (List Char) := do
  reject (!(token.all (fun char => char.toNat < 128) && 1 ≤ token.length && token.length ≤ MAX_TOKEN_BYTES)) .invalid
  match token.splitOn '.' with
  | [version, body, supplied] =>
    reject (version ≠ TOKEN_PREFIX || body = [] || !body.all isUrl64 || 4 * ((MAX_PAYLOAD_BYTES + 2) / 3) < body.length ||
      !isSha (supplied.map Char.toNat)) .invalid
    reject (supplied ≠ codec.sign body) .invalid
    return body
  | _ => throw .invalid

def decode (codec : Codec) (clock : Reading) (token : List Char) (binding revision : PyStr) : Except Failure CursorPosition := do
  reject (!isSha binding || !isSha revision) .invalid
  let body ← authenticate codec token
  let contents ← readBody codec body
  reject (contents.binding ≠ binding) .invalid
  let current ← now clock
  reject (!(contents.position.issuedAt ≤ current && current < contents.position.expiresAt) || contents.revision ≠ revision) .restart
  return contents.position

end NovelStudio.Cursors

/-! The text of a cursor's payload, and that reading a token gives back what it was made of. -/

namespace NovelStudio.Cursors

open Library

/-- A character that is printed as it is. -/
def Plain (point : Nat) : Prop := (point = 32 ∨ point = 33 ∨ 35 ≤ point) ∧ point ≤ 126 ∧ point ≠ 92

theorem isSha_spec {text : PyStr} (sha : isSha text = true) : text.length = 64 ∧ ∀ point ∈ text, Plain point := by
  simp only [isSha, Bool.and_eq_true, decide_eq_true_eq, List.all_eq_true, isLowerHex, Bool.or_eq_true] at sha
  refine ⟨sha.1, ?_⟩
  intro point member
  have range := sha.2 point member
  unfold Plain
  omega

theorem isAlphanumeric_spec (alphanumeric : isAlphanumeric point = true) : Plain point := by
  simp only [isAlphanumeric, Bool.and_eq_true, decide_eq_true_eq, Bool.or_eq_true] at alphanumeric
  unfold Plain
  omega

theorem isId_spec {text : PyStr} (named : isId text = true) : text.length ≤ 240 ∧ ∀ point ∈ text, Plain point := by
  unfold isId at named
  split at named
  · cases named
  · rename_i first rest
    simp only [Bool.and_eq_true, decide_eq_true_eq, List.all_eq_true, Bool.or_eq_true] at named
    obtain ⟨⟨start, short⟩, others⟩ := named
    refine ⟨by rw [List.length_cons]; omega, ?_⟩
    intro point member
    rcases List.mem_cons.mp member with rfl | later
    · exact isAlphanumeric_spec start
    · rcases others point later with (alphanumeric | rfl) | rfl
      · exact isAlphanumeric_spec alphanumeric
      · exact ⟨by decide, by decide, by decide⟩
      · exact ⟨by decide, by decide, by decide⟩

theorem admitted_spec {position : Position} (admitted : position.admitted = true) :
    position.created.length ≤ 80 ∧ (∀ point ∈ position.created, 32 ≤ point ∧ point ≠ 127 ∧ point < 0x110000) ∧ isId position.aid = true := by
  simp only [Position.admitted, Bool.and_eq_true, decide_eq_true_eq, List.all_eq_true, ne_eq] at admitted
  exact ⟨admitted.1.1, fun point member => ⟨(admitted.1.2 point member).1.1, by simpa using (admitted.1.2 point member).1.2, (admitted.1.2 point member).2⟩, admitted.2⟩

theorem joined_small {text : PyStr} (small : ∀ point ∈ text, point < 0xD800) : joined text = text := by
  apply joined_unpaired
  have none : ∀ point ∈ text, isHighSurrogate point = false := by
    intro point member
    have below := small point member
    simp only [isHighSurrogate, Bool.and_eq_false_iff, decide_eq_false_iff_not]
    omega
  refine List.Pairwise.isChain (List.pairwise_of_forall_mem_list ?_)
  intro one member two _ paired
  rw [none one member] at paired
  exact absurd paired.1 Bool.false_ne_true

theorem joined_sha {text : PyStr} (sha : isSha text = true) : joined text = text :=
  joined_small fun point member => by
    have range := ((isSha_spec sha).2 point member).2.1
    omega

theorem joined_id {text : PyStr} (named : isId text = true) : joined text = text :=
  joined_small fun point member => by
    have range := ((isId_spec named).2 point member).2.1
    omega

theorem length_joined_le (text : PyStr) : (joined text).length ≤ text.length := by
  fun_induction joined text with
  | case1 => exact Nat.le_refl _
  | case2 => exact Nat.le_refl _
  | case3 one two rest paired ih =>
    simp only [List.length_cons]
    omega
  | case4 one two rest apart ih =>
    simp only [List.length_cons] at ih ⊢
    omega

theorem mem_joined {text : PyStr} (member : point ∈ joined text) : point ∈ text ∨ 0x10000 ≤ point ∧ point < 0x110000 := by
  fun_induction joined text with
  | case1 => cases member
  | case2 => exact .inl member
  | case3 one two rest paired ih =>
    simp only [isHighSurrogate, isLowSurrogate, Bool.and_eq_true, decide_eq_true_eq] at paired
    rcases List.mem_cons.mp member with same | later
    · right
      omega
    · exact (ih later).imp_left fun old => List.mem_cons_of_mem _ (List.mem_cons_of_mem _ old)
  | case4 one two rest apart ih =>
    rcases List.mem_cons.mp member with rfl | later
    · exact .inl (List.mem_cons_self ..)
    · exact (ih later).imp_left fun old => List.mem_cons_of_mem _ old

/-- A position as its payload is read. -/
def Position.read (position : Position) : Position := ⟨joined position.created, position.aid⟩

theorem Position.read_admitted {position : Position} (admitted : position.admitted = true) : position.read.admitted = true := by
  obtain ⟨short, points, named⟩ := admitted_spec admitted
  have fits : (joined position.created).length ≤ 80 := Nat.le_trans (length_joined_le _) short
  simp only [Position.admitted, Position.read, Bool.and_eq_true, List.all_eq_true]
  refine ⟨⟨decide_eq_true fits, ?_⟩, named⟩
  intro point member
  have range : 32 ≤ point ∧ point ≠ 127 ∧ point < 0x110000 := by
    rcases mem_joined member with old | new
    · exact points point old
    · omega
  exact ⟨⟨decide_eq_true range.1, decide_eq_true range.2.1⟩, decide_eq_true range.2.2⟩

theorem Position.read_unpaired {position : Position} (unpaired : Unpaired position.created) : position.read = position := by
  rw [Position.read, joined_unpaired unpaired]

def payloadFields (binding revision : PyStr) (after : Position) (issued expires : Int) : List (PyStr × Decoded) :=
  [(pyStr "after", .list [.str after.created, .str after.aid]), (pyStr "binding", .str binding), (pyStr "exp", .int expires),
    (pyStr "iat", .int issued), (pyStr "revision", .str revision), (pyStr "v", .int 1)]

theorem payload_eq (binding revision : PyStr) (after : Position) (issued expires : Int) :
    payload binding revision after issued expires = .dict (payloadFields binding revision after issued expires) := by
  rfl

structure Lifetime (issued expires : Int) : Prop where
  start : 0 ≤ issued
  last : issued ≤ LAST_ISSUE
  span : expires - issued = CURSOR_TTL_SECONDS

theorem checkTimes_ok : checkTimes issued expires = .ok done ↔ Lifetime issued expires := by
  rw [checkTimes, reject_ok, Bool.not_eq_false', Bool.and_eq_true, Bool.and_eq_true, decide_eq_true_eq, decide_eq_true_eq, decide_eq_true_eq]
  exact ⟨fun ⟨⟨start, last⟩, span⟩ => ⟨start, last, span⟩, fun ⟨start, last, span⟩ => ⟨⟨start, last⟩, span⟩⟩

theorem Lifetime.digits (lives : Lifetime issued expires) :
    (Nat.toDigits 10 issued.natAbs).length ≤ 16 ∧ (Nat.toDigits 10 expires.natAbs).length ≤ 16 := by
  obtain ⟨start, last, span⟩ := lives
  simp only [LAST_ISSUE, CURSOR_TTL_SECONDS] at last span
  constructor
  · exact (Nat.length_toDigits_le_iff (by decide) (by decide)).mpr (by omega)
  · exact (Nat.length_toDigits_le_iff (by decide) (by decide)).mpr (by omega)

section Payload

variable {binding revision : PyStr} {after : Position} {issued expires : Int}

theorem printableText_of_bounded {text : PyStr} (bounded : ∀ point ∈ text, point < 0x110000) : PrintableText cursorStyle text :=
  fun point member => escapeAscii_lawful _ (bounded point member)

theorem printableText_sha {text : PyStr} (sha : isSha text = true) : PrintableText cursorStyle text :=
  printableText_of_bounded fun point member => by
    have range := ((isSha_spec sha).2 point member).2.1
    omega

theorem printable_payload (bound : isSha binding = true) (revised : isSha revision = true) (admitted : after.admitted = true)
    (lives : Lifetime issued expires) (room : 2 ≤ depth) : Printable cursorStyle depth (payload binding revision after issued expires) := by
  obtain ⟨_, points, named⟩ := admitted_spec admitted
  have key (name : String) (ascii : (pyStr name).all (fun point => point < 0x110000) = true) : PrintableText cursorStyle (pyStr name) :=
    printableText_of_bounded fun point member => of_decide_eq_true (List.all_eq_true.mp ascii point member)
  have digits := lives.digits
  have few : 16 ≤ MAX_STR_DIGITS := by decide
  rw [payload_eq, payloadFields, Printable]
  refine ⟨by omega, (by decide : ([pyStr "after", pyStr "binding", pyStr "exp", pyStr "iat", pyStr "revision", pyStr "v"].map joined).Nodup), ?_⟩
  simp only [PrintableFields, Printable, PrintableItems, and_true]
  refine ⟨key _ (by decide), ⟨by omega, ?_, ?_⟩, key _ (by decide), printableText_sha bound, key _ (by decide), ?_, key _ (by decide), ?_,
    key _ (by decide), printableText_sha revised, key _ (by decide), ?_⟩
  · exact printableText_of_bounded fun point member => (points point member).2.2
  · refine printableText_of_bounded fun point member => ?_
    have range := ((isId_spec named).2 point member).2.1
    omega
  · omega
  · omega
  · decide

theorem reprint_payload (bound : isSha binding = true) (revised : isSha revision = true) (named : isId after.aid = true) :
    reprint cursorStyle (payload binding revision after issued expires) = .dict (payloadFields binding revision after.read issued expires) := by
  have key (name : String) (small : (pyStr name).all (fun point => point < 0xD800) = true) : joined (pyStr name) = pyStr name :=
    joined_small fun point member => of_decide_eq_true (List.all_eq_true.mp small point member)
  rw [payload_eq, payloadFields]
  simp only [reprint, reprintFields, reprintItems, joined_sha bound, joined_sha revised, joined_id named, key "after" (by decide),
    key "binding" (by decide), key "exp" (by decide), key "iat" (by decide), key "revision" (by decide), key "v" (by decide)]
  rfl

/-- The checks of a payload pass on what `encode` put there. -/
theorem readFields_payload (bound : isSha binding = true) (revised : isSha revision = true) (admitted : after.admitted = true)
    (lives : Lifetime issued expires) :
    readFields (payloadFields binding revision after issued expires) = .ok ⟨binding, revision, issued, expires, after⟩ := by
  have keys : (FIELDS.all (fun name => name ∈ (payloadFields binding revision after issued expires).map Prod.fst) &&
      (payloadFields binding revision after issued expires).all fun entry => entry.1 ∈ FIELDS) = true := by rfl
  have version : asInt (field (payloadFields binding revision after issued expires) "v") = .ok 1 := rfl
  have first : asDigest (field (payloadFields binding revision after issued expires) "binding") = .ok binding := if_pos bound
  have second : asDigest (field (payloadFields binding revision after issued expires) "revision") = .ok revision := if_pos revised
  have third : asAfter (field (payloadFields binding revision after issued expires) "after") = .ok after := if_pos admitted
  have fourth : asInt (field (payloadFields binding revision after issued expires) "iat") = .ok issued := rfl
  have fifth : asInt (field (payloadFields binding revision after issued expires) "exp") = .ok expires := rfl
  have times : checkTimes issued expires = .ok () := checkTimes_ok.mpr lives
  simp only [readFields, bind_ok, reject_ok, pure_ok, keys]
  exact ⟨(), rfl, 1, version, (), rfl, binding, first, revision, second, after, third, issued, fourth, expires, fifth, (), times, rfl⟩

theorem escapeAscii_total (points : PyStr) : ∃ text, escapeAll cursorStyle points = some text := by
  induction points with
  | nil => exact ⟨[], rfl⟩
  | cons point rest ih =>
    obtain ⟨others, later⟩ := ih
    have here : ∃ first, escapeAscii point = some first := by
      unfold escapeAscii
      split
      · exact ⟨_, rfl⟩
      · split
        · exact ⟨_, rfl⟩
        · split
          · exact ⟨_, rfl⟩
          · exact ⟨_, rfl⟩
    obtain ⟨first, escaped⟩ := here
    exact ⟨first ++ others, escapeAll_cons.mpr ⟨first, others, escaped, later, rfl⟩⟩

theorem length_escapeAscii (basic : point < 0x10000) (escaped : escapeAscii point = some text) : text.length ≤ 6 := by
  rw [escapeAscii] at escaped
  split at escaped
  · cases escaped
    simp
  · split at escaped
    · cases escaped
      simp
    · cases escaped
      simp [unicodeEscape]

theorem length_escapeAll_basic {points : PyStr} (basic : ∀ point ∈ points, point < 0x10000) (escaped : escapeAll cursorStyle points = some text) :
    text.length ≤ 6 * points.length := by
  induction points generalizing text with
  | nil =>
    cases escaped
    exact Nat.zero_le _
  | cons point rest ih =>
    obtain ⟨first, others, here, later, rfl⟩ := escapeAll_cons.mp escaped
    have one := length_escapeAscii (basic point (List.mem_cons_self ..)) here
    have more := ih (fun other member => basic other (List.mem_cons_of_mem _ member)) later
    rw [List.length_append, List.length_cons]
    omega

theorem length_escapeAll_plain {points : PyStr} (plain : ∀ point ∈ points, Plain point)
    (escaped : escapeAll cursorStyle points = some text) : text.length = points.length := by
  induction points generalizing text with
  | nil =>
    cases escaped
    rfl
  | cons point rest ih =>
    obtain ⟨first, others, here, later, rfl⟩ := escapeAll_cons.mp escaped
    obtain ⟨low, high, slash⟩ := plain point (List.mem_cons_self ..)
    have unnamed : shortEscape point = none := by
      unfold shortEscape
      split <;> first | omega | rfl
    have single : escapeAscii point = some [Char.ofNat point] := by
      unfold escapeAscii
      rw [unnamed]
      exact if_pos ⟨by omega, high⟩
    cases Option.some.inj (here.symm.trans single)
    have more := ih (fun other member => plain other (List.mem_cons_of_mem _ member)) later
    simp only [List.length_append, List.length_cons, List.length_nil, more]
    omega

/-- A string of the payload with its quotes. -/
def quoted (inner : List Char) : List Char := '"' :: inner ++ ['"']

def payloadText (created aid binding revision : List Char) (issued expires : Int) : List Char :=
  '{' :: (quoted "after".toList ++ ':' :: ('[' :: (quoted created ++ ',' :: quoted aid) ++ [']']) ++ ',' ::
    (quoted "binding".toList ++ ':' :: quoted binding ++ ',' :: (quoted "exp".toList ++ ':' :: encodeInt expires ++ ',' ::
      (quoted "iat".toList ++ ':' :: encodeInt issued ++ ',' :: (quoted "revision".toList ++ ':' :: quoted revision ++ ',' ::
        (quoted "v".toList ++ ':' :: ['1'])))))) ++ ['}']

theorem encodeString_quoted {text : PyStr} (escaped : escapeAll cursorStyle text = some out) : encodeString cursorStyle text = some (quoted out) :=
  encodeString_some.mpr ⟨out, escaped, rfl⟩

theorem encodeValue_payload (one : escapeAll cursorStyle after.created = some created) (two : escapeAll cursorStyle after.aid = some aid)
    (three : escapeAll cursorStyle binding = some bindingText) (four : escapeAll cursorStyle revision = some revisionText) :
    encodeValue cursorStyle (payload binding revision after issued expires) =
      some (payloadText created aid bindingText revisionText issued expires) := by
  have afterKey : encodeString cursorStyle (pyStr "after") = some (quoted "after".toList) := rfl
  have bindingKey : encodeString cursorStyle (pyStr "binding") = some (quoted "binding".toList) := rfl
  have expKey : encodeString cursorStyle (pyStr "exp") = some (quoted "exp".toList) := rfl
  have iatKey : encodeString cursorStyle (pyStr "iat") = some (quoted "iat".toList) := rfl
  have revisionKey : encodeString cursorStyle (pyStr "revision") = some (quoted "revision".toList) := rfl
  have versionKey : encodeString cursorStyle (pyStr "v") = some (quoted "v".toList) := rfl
  have version : encodeInt 1 = ['1'] := rfl
  rw [payload_eq, payloadFields]
  simp only [encodeValue, encodeFields, encodeItems, List.isEmpty_cons, List.isEmpty_nil, encodeString_quoted one, encodeString_quoted two,
    encodeString_quoted three, encodeString_quoted four, afterKey, bindingKey, expKey, iatKey, revisionKey, versionKey, version,
    Option.bind_eq_bind, Option.bind_some, Option.pure_def, if_true, if_false, Bool.false_eq_true]
  rfl

/-- What the payload takes besides its position: the names, the digests and the digits of the times. -/
def overhead (issued expires : Int) : Nat := 192 + (encodeInt issued).length + (encodeInt expires).length

theorem length_escapeAll_sha {text : PyStr} (sha : isSha text = true) (escaped : escapeAll cursorStyle text = some out) : out.length = 64 := by
  obtain ⟨size, points⟩ := isSha_spec sha
  rw [length_escapeAll_plain points escaped, size]

theorem payload_length (bound : isSha binding = true) (revised : isSha revision = true) (named : isId after.aid = true) :
    ∃ created raw, escapeAll cursorStyle after.created = some created ∧
      encodeValue cursorStyle (payload binding revision after issued expires) = some raw ∧
      raw.length = overhead issued expires + created.length + after.aid.length := by
  obtain ⟨created, one⟩ := escapeAscii_total after.created
  obtain ⟨aid, two⟩ := escapeAscii_total after.aid
  obtain ⟨bindingText, three⟩ := escapeAscii_total binding
  obtain ⟨revisionText, four⟩ := escapeAscii_total revision
  refine ⟨created, _, one, encodeValue_payload one two three four, ?_⟩
  have first := length_escapeAll_plain (isId_spec named).2 two
  have second := length_escapeAll_sha bound three
  have third := length_escapeAll_sha revised four
  have keys : (quoted "after".toList).length = 7 ∧ (quoted "binding".toList).length = 9 ∧ (quoted "exp".toList).length = 5 ∧
      (quoted "iat".toList).length = 5 ∧ (quoted "revision".toList).length = 10 ∧ (quoted "v".toList).length = 3 := by decide
  have size (inner : List Char) : (quoted inner).length = inner.length + 2 := by simp [quoted]
  simp only [payloadText, overhead, List.length_append, List.length_cons, List.length_nil, keys, size created, size aid, size bindingText,
    size revisionText, first, second, third]
  omega

end Payload

end NovelStudio.Cursors
