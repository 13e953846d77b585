import Mathlib.Algebra.GroupWithZero.Nat
import NovelStudio.Library.Fallible
import NovelStudio.Library.JsonDecoder

/-! Frames of the plugin worker (`plugin_worker_protocol.py`): a bounded JSON object in
strict UTF-8, and the envelope that it must be. -/

namespace NovelStudio.PluginWorker

open Library

def PLUGIN_WORKER_PROTOCOL_VERSION : String := "1"
def HOST_TEST_WORKER_IDENTITY : String := "host.test_worker"
def MAX_FRAME_BYTES : Nat := 64 * 1024
def MAX_JSON_DEPTH : Nat := 8
def MAX_JSON_KEYS : Nat := 32
def MAX_JSON_LIST : Nat := 32
def MAX_ECHO_CHARS : Nat := 1024

/-- What a parser raises: a `ProtocolError` with its code, or an exception that is none. -/
inductive Raised where
  | protocol (code : String)
  /-- `RecursionError` or `ValueError`, from the decoder. -/
  | decoder (fault : Fault)
  /-- `TypeError: unhashable type`. -/
  | unhashable
  deriving DecidableEq

inductive MessageType where
  | hello | ready | jobStart | jobResult | jobError | cancel | shutdown
  deriving DecidableEq

def MessageType.name : MessageType → String
  | .hello => "HELLO"
  | .ready => "READY"
  | .jobStart => "JOB_START"
  | .jobResult => "JOB_RESULT"
  | .jobError => "JOB_ERROR"
  | .cancel => "CANCEL"
  | .shutdown => "SHUTDOWN"

def MESSAGE_TYPES : List MessageType := [.hello, .ready, .jobStart, .jobResult, .jobError, .cancel, .shutdown]

def ENVELOPE_FIELDS : List String :=
  ["protocol_version", "message_type", "job_id", "execution_attempt_id", "message_id", "payload"]

def WORKER_OPERATIONS : List String :=
  ["PING", "ECHO_SAFE", "SLEEP", "RETURN_FIXED_RESULT", "CRASH_FOR_TEST", "EMIT_MALFORMED_FRAME_FOR_TEST",
    "EMIT_OVERSIZED_FRAME_FOR_TEST", "EMIT_TRUNCATED_FRAME_FOR_TEST", "ATTEMPT_SUBPROCESS_FOR_TEST"]

def PAYLOAD_KEYS : MessageType → List String
  | .hello | .ready => ["worker_identity", "session_nonce"]
  | .jobStart => ["operation", "echo_payload", "sleep_ms"]
  | .jobResult => ["operation", "output"]
  | .jobError => ["reason_code", "exit_status"]
  | .cancel | .shutdown => []

def MESSAGES_WITHOUT_JOB : List MessageType := [.hello, .ready, .shutdown]

abbrev Fields := List (PyStr × Decoded)

/-- `fields.get(name)`. -/
def field (fields : Fields) (name : String) : Option Decoded :=
  (fields.find? fun entry => entry.1 = pyStr name).map Prod.snd

def isLowerHex (point : Nat) : Bool := (48 ≤ point && point ≤ 57) || (97 ≤ point && point ≤ 102)
def isHex (point : Nat) : Bool := isLowerHex point || (65 ≤ point && point ≤ 70)
def isUpper (point : Nat) : Bool := 65 ≤ point && point ≤ 90
def isLower (point : Nat) : Bool := 97 ≤ point && point ≤ 122
def isNumeral (point : Nat) : Bool := 48 ≤ point && point ≤ 57

/-- Groups of hexadecimal digits of the given lengths, with hyphens between. -/
def hexGroups : List Nat → PyStr → Bool
  | [], text => text.isEmpty
  | [length], text => text.length = length && text.all isHex
  | length :: rest, text =>
    (text.take length).length = length && (text.take length).all isHex && (text.drop length).head? = some 45 &&
      hexGroups rest (text.drop (length + 1))

/-- `UUID_RE.fullmatch`. -/
def isUuid (text : PyStr) : Bool := hexGroups [8, 4, 4, 4, 12] text

/-- `NONCE_RE.fullmatch`. -/
def isNonce (text : PyStr) : Bool := text.length = 32 && text.all isLowerHex

/-- `REASON_RE.fullmatch`. -/
def isReason (text : PyStr) : Bool :=
  match text with
  | [] => false
  | first :: rest => isUpper first && 2 ≤ rest.length && rest.length ≤ 78 && rest.all fun point => isUpper point || isNumeral point || point = 95

/-- `ECHO_RE.fullmatch`, with the limit of characters. -/
def isEcho (text : PyStr) : Bool :=
  text.length ≤ MAX_ECHO_CHARS && text.all fun point => isUpper point || isLower point || isNumeral point || point ∈ [46, 95, 45, 32]

mutual
/-- `_bounded_json`, which fails in one way only. -/
def boundedJson (depth : Nat) : Decoded → Bool
  | .null | .bool _ | .float _ | .str _ => depth ≤ MAX_JSON_DEPTH
  | .int value => depth ≤ MAX_JSON_DEPTH && value.natAbs ≤ 10 ^ 12
  | .list items => depth ≤ MAX_JSON_DEPTH && items.length ≤ MAX_JSON_LIST && boundedItems (depth + 1) items
  | .dict fields => depth ≤ MAX_JSON_DEPTH && fields.length ≤ MAX_JSON_KEYS && boundedFields (depth + 1) fields

def boundedItems (depth : Nat) : List Decoded → Bool
  | [] => true
  | item :: rest => boundedJson depth item && boundedItems depth rest

def boundedFields (depth : Nat) : List (PyStr × Decoded) → Bool
  | [] => true
  | (_, item) :: rest => boundedJson depth item && boundedFields depth rest
end

/-- `raw_decode`, whose own error becomes a `ProtocolError`. -/
def decodeText (depth : Nat) (text : String) : Except Raised (Decoded × List Char) :=
  match rawDecode depth text with
  | .ok found => .ok found
  | .error .decode => .error (.protocol "INVALID_JSON")
  | .error fault => .error (.decoder fault)

/-- `isinstance(value, dict)`. -/
def asDict : Decoded → Option Fields
  | .dict fields => some fields
  | _ => none

/-- `decode_frame_payload`; so many arrays and objects may nest in the interpreter. -/
def decodeFramePayload (depth : Nat) (payload : ByteArray) : Except Raised Fields := do
  reject (MAX_FRAME_BYTES < payload.size) (.protocol "OVERSIZED_FRAME")
  let text ← fetch (String.fromUTF8? payload) (.protocol "INVALID_UTF8")
  let (obj, left) ← decodeText depth text
  reject (!left.isEmpty) (.protocol "TRAILING_GARBAGE")
  let fields ← fetch (asDict obj) (.protocol "MALFORMED_FRAME")
  reject (!boundedJson 0 (.dict fields)) (.protocol "INVALID_JSON_STRUCTURE")
  return fields

def matchesText (accepts : PyStr → Bool) : Option Decoded → Bool
  | some (.str text) => accepts text
  | _ => false

/-- A text that is equal to the given one. -/
def isText (expected : String) : Option Decoded → Bool := matchesText fun text => text = pyStr expected

/-- A field that is there and is not null. -/
def given (value : Option Decoded) : Bool :=
  match value with
  | none | some .null => false
  | _ => true

/-- A whole number from zero to the limit. -/
def isCount (limit : Int) : Option Decoded → Bool
  | some (.int value) => 0 ≤ value && value ≤ limit
  | _ => false

/-- `operation in WORKER_OPERATIONS`, which hashes the operation. -/
def isOperation : Option Decoded → Except Raised Bool
  | some (.list _) | some (.dict _) => .error .unhashable
  | value => .ok (WORKER_OPERATIONS.any fun operation => isText operation value)

def unknownKeys (known : List String) (fields : Fields) : Bool :=
  fields.any fun entry => !(known.any fun name => entry.1 = pyStr name)

def validatePayload (type : MessageType) (body : Fields) : Except Raised Unit :=
  match type with
  | .hello | .ready => do
    reject (!isText HOST_TEST_WORKER_IDENTITY (field body "worker_identity")) (.protocol "WORKER_IDENTITY_MISMATCH")
    reject (!matchesText isNonce (field body "session_nonce")) (.protocol "HANDSHAKE_MALFORMED")
  | .jobStart => do
    let known ← isOperation (field body "operation")
    reject (!known) (.protocol "UNKNOWN_OPERATION")
    reject (given (field body "echo_payload") && !matchesText isEcho (field body "echo_payload")) (.protocol "MALFORMED_FRAME")
    reject (given (field body "sleep_ms") && !isCount 10000 (field body "sleep_ms")) (.protocol "MALFORMED_FRAME")
  | .jobResult => do
    let known ← isOperation (field body "operation")
    reject (!known) (.protocol "UNKNOWN_OPERATION")
    reject ((field body "output").any fun output => !boundedJson 0 output) (.protocol "INVALID_JSON_STRUCTURE")
  | .jobError => do
    reject (!matchesText isReason (field body "reason_code")) (.protocol "MALFORMED_FRAME")
    reject (given (field body "exit_status") && !isCount 255 (field body "exit_status")) (.protocol "MALFORMED_FRAME")
  | .cancel | .shutdown => return

def messageType (value : Option Decoded) : Option MessageType :=
  MESSAGE_TYPES.find? fun type => isText type.name value

def checkIdentities (type : MessageType) (fields : Fields) : Except Raised Unit :=
  if type ∈ MESSAGES_WITHOUT_JOB then
    reject (given (field fields "job_id") || given (field fields "execution_attempt_id")) (.protocol "MALFORMED_FRAME")
  else do
    reject (!matchesText isUuid (field fields "job_id")) (.protocol "MISSING_JOB_IDENTITY")
    reject (!matchesText isUuid (field fields "execution_attempt_id")) (.protocol "MISSING_JOB_IDENTITY")

/-- The checks of `parse_envelope` after the frame was decoded. -/
def checkEnvelope (fields : Fields) : Except Raised Fields := do
  reject (unknownKeys ENVELOPE_FIELDS fields) (.protocol "UNKNOWN_FIELD")
  reject (ENVELOPE_FIELDS.any fun name => (field fields name).isNone) (.protocol "MALFORMED_FRAME")
  reject (!isText PLUGIN_WORKER_PROTOCOL_VERSION (field fields "protocol_version")) (.protocol "PROTOCOL_VERSION_MISMATCH")
  let type ← fetch (messageType (field fields "message_type")) (.protocol "UNKNOWN_MESSAGE_TYPE")
  reject (!matchesText isUuid (field fields "message_id")) (.protocol "MALFORMED_FRAME")
  checkIdentities type fields
  let body ← fetch ((field fields "payload").bind asDict) (.protocol "MALFORMED_FRAME")
  reject (unknownKeys (PAYLOAD_KEYS type) body) (.protocol "UNKNOWN_FIELD")
  validatePayload type body
  return fields

def parseEnvelope (depth : Nat) (payload : ByteArray) : Except Raised Fields := do
  checkEnvelope (← decodeFramePayload depth payload)

end NovelStudio.PluginWorker
