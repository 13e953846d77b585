import NovelStudio.PluginWorker.Protocol

/-! What a parsed envelope satisfies, and when parsing ends with anything else than such
an envelope or a `ProtocolError`. -/

namespace NovelStudio.PluginWorker

open Library

/-- The value is a string that satisfies the pattern. -/
def Text (accepts : PyStr → Bool) (value : Option Decoded) : Prop := ∃ text, value = some (.str text) ∧ accepts text = true

/-- Absent, null, or as demanded. -/
def Optionally (holds : Option Decoded → Prop) (value : Option Decoded) : Prop :=
  value = none ∨ value = some .null ∨ holds value

def Named (name : String) (value : Option Decoded) : Prop := value = some (.str (pyStr name))

def Operation (value : Option Decoded) : Prop := ∃ operation ∈ WORKER_OPERATIONS, Named operation value

def Count (limit : Int) (value : Option Decoded) : Prop := ∃ count, value = some (.int count) ∧ 0 ≤ count ∧ count ≤ limit

/-- The payload that a message type asks for. -/
def PayloadSchema (body : Fields) : MessageType → Prop
  | .hello | .ready =>
    Named HOST_TEST_WORKER_IDENTITY (field body "worker_identity") ∧ Text isNonce (field body "session_nonce")
  | .jobStart =>
    Operation (field body "operation") ∧ Optionally (Text isEcho) (field body "echo_payload") ∧
      Optionally (Count 10000) (field body "sleep_ms")
  | .jobResult => Operation (field body "operation") ∧ ∀ output, field body "output" = some output → boundedJson 0 output = true
  | .jobError => Text isReason (field body "reason_code") ∧ Optionally (Count 255) (field body "exit_status")
  | .cancel | .shutdown => True

/-- The identities of a job, which only messages about a job have. -/
def Identities (type : MessageType) (fields : Fields) : Prop :=
  if type ∈ MESSAGES_WITHOUT_JOB then
    Optionally (fun _ => False) (field fields "job_id") ∧ Optionally (fun _ => False) (field fields "execution_attempt_id")
  else Text isUuid (field fields "job_id") ∧ Text isUuid (field fields "execution_attempt_id")

/-- All but the payload of an envelope of the given type. -/
structure Header (type : MessageType) (body fields : Fields) : Prop where
  keys : ∀ entry ∈ fields, ∃ name ∈ ENVELOPE_FIELDS, entry.1 = pyStr name
  present : ∀ name ∈ ENVELOPE_FIELDS, ∃ value, field fields name = some value
  version : Named PLUGIN_WORKER_PROTOCOL_VERSION (field fields "protocol_version")
  named : messageType (field fields "message_type") = some type
  messageId : Text isUuid (field fields "message_id")
  identities : Identities type fields
  payload : field fields "payload" = some (.dict body)
  payloadKeys : ∀ entry ∈ body, ∃ name ∈ PAYLOAD_KEYS type, entry.1 = pyStr name

/-- An envelope within the limits of the protocol. -/
def Conforms (fields : Fields) : Prop :=
  boundedJson 0 (.dict fields) = true ∧ ∃ type body, Header type body fields ∧ PayloadSchema body type

theorem matchesText_iff {accepts : PyStr → Bool} : matchesText accepts value = true ↔ Text accepts value := by
  unfold Text
  cases value with
  | none => simp [matchesText]
  | some value => cases value <;> simp [matchesText]

theorem isText_iff : isText expected value = true ↔ Named expected value := by
  unfold isText Named
  rw [matchesText_iff]
  simp [Text]

theorem optionally_iff {holds : Option Decoded → Prop} {check : Bool} (decides : check = true ↔ holds value) :
    (given value && !check) = false ↔ Optionally holds value := by
  unfold Optionally
  rw [Bool.and_eq_false_iff, Bool.not_eq_false', decides]
  cases value with
  | none => simp [given]
  | some value => cases value <;> simp [given]

theorem isCount_iff : isCount limit value = true ↔ Count limit value := by
  unfold Count
  cases value with
  | none => simp [isCount]
  | some value => cases value <;> simp [isCount]

theorem given_iff : given value = false ↔ Optionally (fun _ => False) value := by
  unfold Optionally
  cases value with
  | none => simp [given]
  | some value => cases value <;> simp [given]

/-- An array or an object, which can not be hashed. -/
def Container (value : Option Decoded) : Prop := (∃ items, value = some (.list items)) ∨ ∃ fields, value = some (.dict fields)

theorem isOperation_ok : isOperation value = .ok known ↔ ¬Container value ∧ (known = true ↔ Operation value) := by
  have spelled : (WORKER_OPERATIONS.any fun operation => isText operation value) = true ↔ Operation value := by
    simp [List.any_eq_true, isText_iff, Operation]
  cases found : isOperation value with
  | error raised =>
    unfold isOperation at found
    split at found <;> simp_all [Container]
  | ok answer =>
    unfold isOperation at found
    split at found
    · cases found
    · cases found
    · cases found
      have free : ¬Container value := by
        rintro (⟨items, rfl⟩ | ⟨fields, rfl⟩) <;> simp_all
      simp only [Except.ok.injEq, free, not_false_eq_true, true_and, ← spelled]
      exact ⟨fun same => by rw [same], fun same => Bool.eq_iff_iff.mpr same.symm⟩

theorem isOperation_error : isOperation value = .error raised ↔ Container value ∧ raised = .unhashable := by
  unfold isOperation Container
  split <;> simp_all [eq_comm]

theorem unknownKeys_iff {known : List String} {fields : Fields} :
    unknownKeys known fields = false ↔ ∀ entry ∈ fields, ∃ name ∈ known, entry.1 = pyStr name := by
  simp [unknownKeys]

theorem validatePayload_ok (type : MessageType) : validatePayload type body = .ok () ↔ PayloadSchema body type := by
  cases type with
  | hello | ready => simp [validatePayload, PayloadSchema, bind_ok, isText_iff, matchesText_iff]
  | jobStart =>
    simp only [validatePayload, PayloadSchema, bind_ok, reject_ok, optionally_iff matchesText_iff, optionally_iff isCount_iff, isOperation_ok]
    constructor
    · rintro ⟨known, ⟨_, spelled⟩, _, isKnown, _, echo, sleep⟩
      exact ⟨spelled.mp (by simpa using isKnown), echo, sleep⟩
    · rintro ⟨operation, echo, sleep⟩
      refine ⟨true, ⟨?_, by simp [operation]⟩, (), rfl, (), echo, sleep⟩
      obtain ⟨_, _, named⟩ := operation
      rintro (⟨_, same⟩ | ⟨_, same⟩) <;> cases named.symm.trans same
  | jobResult =>
    simp only [validatePayload, PayloadSchema, bind_ok, reject_ok, isOperation_ok]
    constructor
    · rintro ⟨known, ⟨_, spelled⟩, _, isKnown, bounded⟩
      refine ⟨spelled.mp (by simpa using isKnown), fun output found => ?_⟩
      simpa [found] using bounded
    · rintro ⟨operation, bounded⟩
      refine ⟨true, ⟨?_, by simp [operation]⟩, (), rfl, ?_⟩
      · obtain ⟨_, _, named⟩ := operation
        rintro (⟨_, same⟩ | ⟨_, same⟩) <;> cases named.symm.trans same
      · cases found : field body "output" with
        | none => rfl
        | some output => simp [bounded output found]
  | jobError => simp [validatePayload, PayloadSchema, bind_ok, matchesText_iff, optionally_iff isCount_iff]
  | cancel | shutdown => simp [validatePayload, PayloadSchema, pure_ok]

/-- The exception is a `ProtocolError`. -/
def Raised.isProtocol : Raised → Bool
  | .protocol _ => true
  | _ => false

/-- The message types whose payload names an operation. -/
def MessageType.operates : MessageType → Bool
  | .jobStart | .jobResult => true
  | _ => false

theorem validatePayload_error (failed : validatePayload type body = .error raised) :
    raised.isProtocol = true ∨ (raised = .unhashable ∧ type.operates = true ∧ Container (field body "operation")) := by
  cases type with
  | hello | ready =>
    simp only [validatePayload, bind_error, reject_error] at failed
    rcases failed with ⟨_, rfl⟩ | ⟨_, _, _, rfl⟩ <;> exact .inl rfl
  | jobStart =>
    simp only [validatePayload, bind_error, reject_error, isOperation_error] at failed
    rcases failed with ⟨container, rfl⟩ | ⟨_, _, ⟨_, rfl⟩ | ⟨_, _, ⟨_, rfl⟩ | ⟨_, _, _, rfl⟩⟩⟩
    · exact .inr ⟨rfl, rfl, container⟩
    all_goals exact .inl rfl
  | jobResult =>
    simp only [validatePayload, bind_error, reject_error, isOperation_error] at failed
    rcases failed with ⟨container, rfl⟩ | ⟨_, _, ⟨_, rfl⟩ | ⟨_, _, _, rfl⟩⟩
    · exact .inr ⟨rfl, rfl, container⟩
    all_goals exact .inl rfl
  | jobError =>
    simp only [validatePayload, bind_error, reject_error] at failed
    rcases failed with ⟨_, rfl⟩ | ⟨_, _, _, rfl⟩ <;> exact .inl rfl
  | cancel | shutdown => cases failed

theorem validatePayload_container (operates : type.operates = true) (container : Container (field body "operation")) :
    validatePayload type body = .error .unhashable := by
  have raises := isOperation_error.mpr ⟨container, rfl⟩
  cases type with
  | jobStart | jobResult =>
    simp only [validatePayload, bind_error]
    exact .inl raises
  | _ => cases operates

theorem checkIdentities_ok : checkIdentities type fields = .ok done ↔ Identities type fields := by
  unfold checkIdentities Identities
  split
  · simp [given_iff]
  · simp [bind_ok, matchesText_iff]

theorem checkIdentities_error (failed : checkIdentities type fields = .error raised) : raised.isProtocol = true := by
  unfold checkIdentities at failed
  split at failed
  · obtain ⟨_, rfl⟩ := reject_error.mp failed
    rfl
  · simp only [bind_error, reject_error] at failed
    rcases failed with ⟨_, rfl⟩ | ⟨_, _, _, rfl⟩ <;> rfl

theorem payload_dict {value : Option Decoded} : value.bind asDict = some body ↔ value = some (.dict body) := by
  cases value with
  | none => simp
  | some value => cases value <;> simp [asDict]

theorem present_iff {fields : Fields} :
    (ENVELOPE_FIELDS.any fun name => (field fields name).isNone) = false ↔ ∀ name ∈ ENVELOPE_FIELDS, ∃ value, field fields name = some value := by
  rw [List.any_eq_false]
  simp [Option.ne_none_iff_exists']

theorem checkEnvelope_ok : checkEnvelope fields = .ok result ↔
    result = fields ∧ ∃ type body, Header type body fields ∧ validatePayload type body = .ok () := by
  simp only [checkEnvelope, bind_ok, reject_ok, fetch_ok, pure_ok, unknownKeys_iff, present_iff, Bool.not_eq_false', isText_iff,
    matchesText_iff, payload_dict]
  constructor
  · rintro ⟨_, keys, _, present, _, version, type, named, _, messageId, _, identities, body, payload, _, payloadKeys, _, valid, rfl⟩
    exact ⟨rfl, type, body, ⟨keys, present, version, named, messageId, checkIdentities_ok.mp identities, payload, payloadKeys⟩, valid⟩
  · rintro ⟨rfl, type, body, header, valid⟩
    exact ⟨(), header.keys, (), header.present, (), header.version, type, header.named, (), header.messageId, (), checkIdentities_ok.mpr header.identities,
      body, header.payload, (), header.payloadKeys, (), valid, rfl⟩

theorem checkEnvelope_error (failed : checkEnvelope fields = .error raised) :
    raised.isProtocol = true ∨ (raised = .unhashable ∧
      ∃ type body, Header type body fields ∧ type.operates = true ∧ Container (field body "operation")) := by
  simp only [checkEnvelope, bind_error, reject_error, fetch_error, reject_ok, fetch_ok, unknownKeys_iff, present_iff, Bool.not_eq_false',
    isText_iff, matchesText_iff, payload_dict] at failed
  rcases failed with ⟨_, rfl⟩ | ⟨_, keys, ⟨_, rfl⟩ | ⟨_, present, ⟨_, rfl⟩ | ⟨_, version, ⟨_, rfl⟩ | ⟨type, named, failed⟩⟩⟩⟩
  · exact .inl rfl
  · exact .inl rfl
  · exact .inl rfl
  · exact .inl rfl
  rcases failed with ⟨_, rfl⟩ | ⟨_, messageId, failed | ⟨_, identities, ⟨_, rfl⟩ | ⟨body, payload, ⟨_, rfl⟩ | ⟨_, payloadKeys, failed⟩⟩⟩⟩
  · exact .inl rfl
  · exact .inl (checkIdentities_error failed)
  · exact .inl rfl
  · exact .inl rfl
  rcases failed with failed | ⟨_, _, failed⟩
  · rcases validatePayload_error failed with protocol | ⟨rfl, operates, container⟩
    · exact .inl protocol
    · exact .inr ⟨rfl, type, body, ⟨keys, present, version, named, messageId, checkIdentities_ok.mp identities, payload, payloadKeys⟩, operates, container⟩
  · cases failed

theorem decodeText_ok : decodeText depth text = .ok found ↔ rawDecode depth text = .ok found := by
  unfold decodeText
  split <;> simp_all

theorem decodeText_error (failed : decodeText depth text = .error raised) :
    raised.isProtocol = true ∨ ∃ fault, fault ≠ .decode ∧ raised = .decoder fault ∧ rawDecode depth text = .error fault := by
  unfold decodeText at failed
  split at failed
  · cases failed
  · cases failed
    exact .inl rfl
  · rename_i fault different found
    cases failed
    exact .inr ⟨fault, different, rfl, found⟩

theorem asDict_some : asDict value = some fields ↔ value = .dict fields := by
  cases value <;> simp [asDict]

theorem decodeFramePayload_ok : decodeFramePayload depth payload = .ok fields ↔
    payload.size ≤ MAX_FRAME_BYTES ∧ ∃ text, String.fromUTF8? payload = some text ∧
      rawDecode depth text = .ok (.dict fields, []) ∧ boundedJson 0 (.dict fields) = true := by
  simp only [decodeFramePayload, bind_ok, reject_ok, fetch_ok, pure_ok, decodeText_ok, asDict_some]
  constructor
  · rintro ⟨_, small, text, decoded, ⟨obj, left⟩, scanned, _, whole, found, rfl, _, bounded, rfl⟩
    have whole : left = [] := by simpa using whole
    subst whole
    exact ⟨by simpa using small, text, decoded, scanned, by simpa using bounded⟩
  · rintro ⟨small, text, decoded, scanned, bounded⟩
    exact ⟨(), by simpa using small, text, decoded, _, scanned, (), rfl, fields, rfl, (), by simp [bounded], rfl⟩

theorem decodeFramePayload_error (failed : decodeFramePayload depth payload = .error raised) :
    raised.isProtocol = true ∨ ∃ fault, fault ≠ .decode ∧ payload.size ≤ MAX_FRAME_BYTES ∧
      ∃ text, String.fromUTF8? payload = some text ∧ rawDecode depth text = .error fault := by
  simp only [decodeFramePayload, bind_error, reject_error, fetch_error, reject_ok, fetch_ok] at failed
  rcases failed with ⟨_, rfl⟩ | ⟨_, small, ⟨_, rfl⟩ | ⟨text, decoded, failed | ⟨⟨obj, left⟩, _, failed⟩⟩⟩
  · exact .inl rfl
  · exact .inl rfl
  · rcases decodeText_error failed with protocol | ⟨fault, different, _, found⟩
    · exact .inl protocol
    · exact .inr ⟨fault, different, by simpa using small, text, decoded, found⟩
  · rcases failed with ⟨_, rfl⟩ | ⟨_, _, ⟨_, rfl⟩ | ⟨fields, _, ⟨_, rfl⟩ | ⟨_, _, failed⟩⟩⟩
    · exact .inl rfl
    · exact .inl rfl
    · exact .inl rfl
    · cases failed

/-- The outcome is an envelope of the protocol, or a `ProtocolError`. -/
def FailsClosed (outcome : Except Raised Fields) : Prop :=
  match outcome with
  | .ok envelope => Conforms envelope
  | .error raised => raised.isProtocol = true

/-- The decoder raises something else than its own error: the text nests deeper than the
interpreter allows, or has an integer of too many digits. -/
def DecoderRaises (depth : Nat) (text : String) : Prop := ∃ fault, fault ≠ .decode ∧ rawDecode depth text = .error fault

/-- The text is an envelope within the limits, up to an operation that can not be hashed. -/
def HashesContainer (depth : Nat) (text : String) : Prop :=
  ∃ fields type body, rawDecode depth text = .ok (.dict fields, []) ∧ boundedJson 0 (.dict fields) = true ∧
    Header type body fields ∧ type.operates = true ∧ Container (field body "operation")

theorem parseEnvelope_ok (parsed : parseEnvelope depth payload = .ok envelope) : Conforms envelope := by
  simp only [parseEnvelope, bind_ok] at parsed
  obtain ⟨fields, decoded, checked⟩ := parsed
  obtain ⟨_, _, _, _, bounded⟩ := decodeFramePayload_ok.mp decoded
  obtain ⟨rfl, type, body, header, valid⟩ := checkEnvelope_ok.mp checked
  exact ⟨bounded, type, body, header, (validatePayload_ok type).mp valid⟩

/-- Parsing fails closed on every frame but those whose text makes the decoder raise, and
those that name an array or an object as their operation. -/
theorem parseEnvelope_failsClosed_iff (depth : Nat) (payload : ByteArray) :
    FailsClosed (parseEnvelope depth payload) ↔
      ¬(payload.size ≤ MAX_FRAME_BYTES ∧ ∃ text, String.fromUTF8? payload = some text ∧
        (DecoderRaises depth text ∨ HashesContainer depth text)) := by
  constructor
  · rintro closed ⟨small, text, decoded, ⟨fault, different, found⟩ | ⟨fields, type, body, found, bounded, header, operates, container⟩⟩
    · have raises : parseEnvelope depth payload = .error (.decoder fault) := by
        have text : decodeText depth text = .error (.decoder fault) := by
          cases fault <;> simp [decodeText, found] at different ⊢
        have frame : decodeFramePayload depth payload = .error (.decoder fault) := by
          simp only [decodeFramePayload, bind_error, reject_ok, fetch_ok]
          exact .inr ⟨(), by simpa using small, .inr ⟨_, decoded, .inl text⟩⟩
        exact bind_error.mpr (.inl frame)
      rw [raises] at closed
      cases closed
    · have raises : parseEnvelope depth payload = .error .unhashable := by
        refine bind_error.mpr (.inr ⟨fields, decodeFramePayload_ok.mpr ⟨small, text, decoded, found, bounded⟩, ?_⟩)
        have failed : validatePayload type body = .error .unhashable := validatePayload_container operates container
        simp only [checkEnvelope, bind_error, reject_ok, fetch_ok, unknownKeys_iff, present_iff, Bool.not_eq_false', isText_iff,
          matchesText_iff, payload_dict]
        exact .inr ⟨(), header.keys, .inr ⟨(), header.present, .inr ⟨(), header.version, .inr ⟨type, header.named,
          .inr ⟨(), header.messageId, .inr ⟨(), checkIdentities_ok.mpr header.identities, .inr ⟨body, header.payload,
            .inr ⟨(), header.payloadKeys, .inl failed⟩⟩⟩⟩⟩⟩⟩⟩
      rw [raises] at closed
      cases closed
  · intro harmless
    cases outcome : parseEnvelope depth payload with
    | ok envelope => exact parseEnvelope_ok outcome
    | error raised =>
      rcases bind_error.mp outcome with failed | ⟨fields, decoded, failed⟩
      · rcases decodeFramePayload_error failed with protocol | ⟨fault, different, small, text, decoded, found⟩
        · exact protocol
        · exact absurd ⟨small, text, decoded, .inl ⟨fault, different, found⟩⟩ harmless
      · obtain ⟨small, text, decoded, found, bounded⟩ := decodeFramePayload_ok.mp decoded
        rcases checkEnvelope_error failed with protocol | ⟨_, type, body, header, operates, container⟩
        · exact protocol
        · exact absurd ⟨small, text, decoded, .inr ⟨fields, type, body, found, bounded, header, operates, container⟩⟩ harmless

/-- A result that names an array as its operation. -/
def arrayOperation : String :=
  "\x7b\"protocol_version\":\"1\",\"message_type\":\"JOB_RESULT\",\"job_id\":\"00000000-0000-4000-8000-000000000000\"," ++
    "\"execution_attempt_id\":\"00000000-0000-4000-8000-000000000000\"," ++
    "\"message_id\":\"00000000-0000-4000-8000-000000000000\",\"payload\":\x7b\"operation\":[]\x7d\x7d"

def arrayEnvelope : Fields :=
  [(pyStr "protocol_version", .str (pyStr "1")), (pyStr "message_type", .str (pyStr "JOB_RESULT")),
    (pyStr "job_id", .str (pyStr "00000000-0000-4000-8000-000000000000")),
    (pyStr "execution_attempt_id", .str (pyStr "00000000-0000-4000-8000-000000000000")),
    (pyStr "message_id", .str (pyStr "00000000-0000-4000-8000-000000000000")),
    (pyStr "payload", .dict [(pyStr "operation", .list [])])]

set_option maxRecDepth 20000 in
theorem arrayOperation_decoded : rawDecode 3 arrayOperation = .ok (.dict arrayEnvelope, []) := by
  rfl

/-- Parsing it raises an exception that is no `ProtocolError`. -/
theorem array_operation_escapes : parseEnvelope 3 arrayOperation.toUTF8 = .error .unhashable ∧
    ¬FailsClosed (parseEnvelope 3 arrayOperation.toUTF8) := by
  have decoded : String.fromUTF8? arrayOperation.toUTF8 = some arrayOperation := dif_pos arrayOperation.isValidUTF8
  have frame : decodeFramePayload 3 arrayOperation.toUTF8 = .ok arrayEnvelope :=
    decodeFramePayload_ok.mpr ⟨by decide +kernel, _, decoded, arrayOperation_decoded, rfl⟩
  have raises : parseEnvelope 3 arrayOperation.toUTF8 = .error .unhashable :=
    bind_error.mpr (.inr ⟨arrayEnvelope, frame, rfl⟩)
  refine ⟨raises, ?_⟩
  rw [raises]
  nofun

end NovelStudio.PluginWorker
