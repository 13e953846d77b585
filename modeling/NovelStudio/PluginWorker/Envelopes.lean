import NovelStudio.Library.JsonValues
import NovelStudio.PluginWorker.FailsClosed

/-! How envelopes are built and framed (`encode_frame`, `build_envelope`), and how the worker
reads frames from its input (`plugin_test_worker.py`). -/

namespace NovelStudio.PluginWorker

open Library

inductive Unsent where
  /-- `ValueError` or `RecursionError`, from `json.dumps` or from taking the UTF-8. -/
  | refused
  /-- `ProtocolError`, `OVERSIZED_FRAME`. -/
  | oversized
  deriving DecidableEq

/-- `HEADER_STRUCT.pack`: four bytes, the highest first. -/
def packLength (length : Nat) : ByteArray :=
  ⟨#[UInt8.ofNat (length / 2 ^ 24), UInt8.ofNat (length / 2 ^ 16), UInt8.ofNat (length / 2 ^ 8), UInt8.ofNat length]⟩

/-- `int.from_bytes(header, "big")`. -/
def unpackLength (header : ByteArray) : Nat := header.data.toList.foldl (fun value byte => value * 256 + byte.toNat) 0

def encodeFrame (floats : Floats) (depth : Nat) (message : Fields) : Except Unsent ByteArray := do
  let text ← fetch (dumps floats depth (.dict message)) .refused
  let payload := (String.ofList text).toUTF8
  reject (MAX_FRAME_BYTES < payload.size) .oversized
  return packLength payload.size ++ payload

/-- What the worker gets from its input: its end, an exit of the process, or a payload before the rest. -/
inductive Incoming where
  | ended
  | exits
  | frame (payload left : ByteArray)

def readFrame (input : ByteArray) : Incoming :=
  if input.size < 4 then .ended
  else
    let length := unpackLength (input.extract 0 4)
    if length = 0 ∨ MAX_FRAME_BYTES < length then .exits
    else if input.size < 4 + length then .ended
    else .frame (input.extract 4 (4 + length)) (input.extract (4 + length) input.size)

/-- The arguments of `build_envelope`, with what `new_message_id` returns. -/
structure Building where
  messageType : PyStr
  payload : Option Fields
  jobId : Option PyStr
  executionAttemptId : Option PyStr
  messageId : Option PyStr
  protocolVersion : PyStr
  newMessageId : PyStr
  texts : Points messageType ∧ Points protocolVersion ∧ Points newMessageId
  identities : ∀ text ∈ jobId.toList ++ executionAttemptId.toList ++ messageId.toList, Points text
  object : ∀ fields, payload = some fields → Wellformed (.dict fields)
  uuid : isUuid newMessageId = true

def textOrNull : Option PyStr → Decoded
  | some text => .str text
  | none => .null

/-- `message_id or new_message_id()`. -/
def Building.id (building : Building) : PyStr :=
  match building.messageId with
  | some (first :: rest) => first :: rest
  | _ => building.newMessageId

/-- `payload or {}`. -/
def Building.body (building : Building) : Fields := building.payload.getD []

def buildEnvelope (building : Building) : Fields :=
  [(pyStr "protocol_version", .str building.protocolVersion),
    (pyStr "message_type", .str building.messageType),
    (pyStr "job_id", textOrNull building.jobId),
    (pyStr "execution_attempt_id", textOrNull building.executionAttemptId),
    (pyStr "message_id", .str building.id),
    (pyStr "payload", .dict building.body)]

theorem packLength_size (length : Nat) : (packLength length).size = 4 := rfl

theorem unpackLength_packLength (bounded : length < 2 ^ 32) : unpackLength (packLength length) = length := by
  simp only [unpackLength, packLength, List.foldl_cons, List.foldl_nil, UInt8.toNat_ofNat']
  omega

theorem readFrame_packed (payload rest : ByteArray) (positive : 0 < payload.size) (short : payload.size ≤ MAX_FRAME_BYTES) :
    readFrame (packLength payload.size ++ payload ++ rest) = .frame payload rest := by
  have four := packLength_size payload.size
  have size : (packLength payload.size ++ payload ++ rest).size = 4 + payload.size + rest.size := by
    rw [ByteArray.size_append, ByteArray.size_append, four]
  have header : (packLength payload.size ++ payload ++ rest).extract 0 4 = packLength payload.size := by
    rw [ByteArray.append_assoc, ByteArray.extract_append_eq_left four.symm]
  have length : unpackLength (packLength payload.size) = payload.size := by
    apply unpackLength_packLength
    unfold MAX_FRAME_BYTES at short
    omega
  have body : (packLength payload.size ++ payload ++ rest).extract 4 (4 + payload.size) = payload := by
    rw [ByteArray.extract_append, ByteArray.extract_append_eq_right four.symm (by rw [four]), ByteArray.size_append, four, Nat.sub_self,
      Nat.sub_eq_zero_of_le (Nat.le_add_right ..), ByteArray.extract_same, ByteArray.append_empty]
  have left : (packLength payload.size ++ payload ++ rest).extract (4 + payload.size) (4 + payload.size + rest.size) = rest :=
    ByteArray.extract_append_eq_right (by rw [ByteArray.size_append, four]) (by rw [ByteArray.size_append, four])
  rw [readFrame, size, if_neg (by omega)]
  simp only [header, length, body, left]
  rw [if_neg (by omega), if_neg (by omega)]

end NovelStudio.PluginWorker

/-! Which envelopes reach the other side: what is framed is read back and parsed exactly when it
conforms to the protocol, as an equal envelope. -/

namespace NovelStudio.PluginWorker

open Library

variable {floats : Floats}

theorem field_canonical (fields : Fields) (name : String) :
    field (canonicalFields floats fields) name = (field fields name).map (canonical floats) := by
  induction fields with
  | nil => rfl
  | cons entry rest ih =>
    obtain ⟨key, value⟩ := entry
    unfold field at ih ⊢
    rw [canonicalFields]
    by_cases same : key = pyStr name
    · simp [same]
    · simpa [same] using ih

theorem keys_canonical (fields : Fields) (known : List String) :
    (∀ entry ∈ canonicalFields floats fields, ∃ name ∈ known, entry.1 = pyStr name) ↔ ∀ entry ∈ fields, ∃ name ∈ known, entry.1 = pyStr name := by
  rw [canonicalFields_eq, List.forall_mem_map]

theorem text_canonical {accepts : PyStr → Bool} (value : Option Decoded) : Text accepts (value.map (canonical floats)) ↔ Text accepts value := by
  unfold Text
  cases value with
  | none => simp
  | some value => cases value <;> simp [canonical]

theorem named_canonical (value : Option Decoded) : Named name (value.map (canonical floats)) ↔ Named name value := by
  unfold Named
  cases value with
  | none => simp
  | some value => cases value <;> simp [canonical]

theorem count_canonical (value : Option Decoded) : Count limit (value.map (canonical floats)) ↔ Count limit value := by
  unfold Count
  cases value with
  | none => simp
  | some value => cases value <;> simp [canonical]

theorem optionally_canonical {holds : Option Decoded → Prop} (value : Option Decoded)
    (same : holds (value.map (canonical floats)) ↔ holds value) : Optionally holds (value.map (canonical floats)) ↔ Optionally holds value := by
  unfold Optionally
  rw [same]
  cases value with
  | none => simp
  | some value => cases value <;> simp [canonical]

theorem operation_canonical (value : Option Decoded) : Operation (value.map (canonical floats)) ↔ Operation value := by
  unfold Operation
  simp only [named_canonical]

theorem messageType_canonical (value : Option Decoded) : messageType (value.map (canonical floats)) = messageType value := by
  unfold messageType
  congr 1
  funext type
  exact Bool.eq_iff_iff.mpr (isText_iff.trans ((named_canonical value).trans isText_iff.symm))

mutual
theorem boundedJson_canonical : ∀ (value : Decoded) (depth : Nat), boundedJson depth (canonical floats value) = boundedJson depth value
  | .null, _ => rfl
  | .bool _, _ => rfl
  | .int _, _ => rfl
  | .str _, _ => rfl
  | .float _, _ => rfl
  | .list items, depth => by
    rw [canonical, boundedJson, boundedJson, boundedItems_canonical items, canonicalItems_eq, List.length_map]
  | .dict fields, depth => by
    rw [canonical, boundedJson, boundedJson, boundedFields_canonical fields, canonicalFields_eq, List.length_map]

theorem boundedItems_canonical : ∀ (items : List Decoded) (depth : Nat), boundedItems depth (canonicalItems floats items) = boundedItems depth items
  | [], _ => rfl
  | item :: rest, depth => by rw [canonicalItems, boundedItems, boundedItems, boundedJson_canonical item, boundedItems_canonical rest]

theorem boundedFields_canonical : ∀ (fields : Fields) (depth : Nat), boundedFields depth (canonicalFields floats fields) = boundedFields depth fields
  | [], _ => rfl
  | (_, value) :: rest, depth => by rw [canonicalFields, boundedFields, boundedFields, boundedJson_canonical value, boundedFields_canonical rest]
end

theorem payloadSchema_canonical (body : Fields) (type : MessageType) : PayloadSchema (canonicalFields floats body) type ↔ PayloadSchema body type := by
  have output : (∀ output, (field body "output").map (canonical floats) = some output → boundedJson 0 output = true) ↔
      ∀ output, field body "output" = some output → boundedJson 0 output = true := by
    cases field body "output" with
    | none => simp
    | some value => simp [boundedJson_canonical]
  cases type with
  | hello | ready => simp only [PayloadSchema, field_canonical, named_canonical, text_canonical]
  | jobStart =>
    simp only [PayloadSchema, field_canonical, operation_canonical, optionally_canonical _ (text_canonical _),
      optionally_canonical _ (count_canonical _)]
  | jobResult => simp only [PayloadSchema, field_canonical, operation_canonical, output]
  | jobError => simp only [PayloadSchema, field_canonical, text_canonical, optionally_canonical _ (count_canonical _)]
  | cancel | shutdown => simp only [PayloadSchema]

theorem identities_canonical (type : MessageType) (fields : Fields) : Identities type (canonicalFields floats fields) ↔ Identities type fields := by
  have absent (value : Option Decoded) : Optionally (fun _ => False) (value.map (canonical floats)) ↔ Optionally (fun _ => False) value :=
    optionally_canonical value Iff.rfl
  unfold Identities
  simp only [field_canonical, text_canonical, absent]

theorem payload_canonical (value : Option Decoded) :
    value.map (canonical floats) = some (.dict body) ↔ ∃ original, value = some (.dict original) ∧ body = canonicalFields floats original := by
  cases value with
  | none => simp
  | some value => cases value <;> simp [canonical, eq_comm]

theorem present_canonical (fields : Fields) :
    (∀ name ∈ ENVELOPE_FIELDS, ∃ value, field (canonicalFields floats fields) name = some value) ↔
      ∀ name ∈ ENVELOPE_FIELDS, ∃ value, field fields name = some value := by
  simp only [field_canonical, Option.map_eq_some_iff]
  constructor
  · intro present name known
    obtain ⟨_, value, found, _⟩ := present name known
    exact ⟨value, found⟩
  · intro present name known
    obtain ⟨value, found⟩ := present name known
    exact ⟨_, value, found, rfl⟩

theorem conforms_canonical (fields : Fields) : Conforms (canonicalFields floats fields) ↔ Conforms fields := by
  have bounded : boundedJson 0 (.dict (canonicalFields floats fields)) = boundedJson 0 (.dict fields) := boundedJson_canonical (.dict fields) 0
  have here (name : String) : field (canonicalFields floats fields) name = (field fields name).map (canonical floats) := field_canonical fields name
  unfold Conforms
  rw [bounded]
  refine and_congr_right fun _ => ?_
  constructor
  · intro ⟨type, body, header, schema⟩
    have payload := header.payload
    rw [field_canonical, payload_canonical] at payload
    obtain ⟨original, payload, rfl⟩ := payload
    refine ⟨type, original, ?_, (payloadSchema_canonical original type).mp schema⟩
    exact
      { keys := (keys_canonical fields _).mp header.keys
        present := (present_canonical fields).mp header.present
        version := (named_canonical _).mp (here _ ▸ header.version)
        named := (messageType_canonical _).symm.trans (here _ ▸ header.named)
        messageId := (text_canonical _).mp (here _ ▸ header.messageId)
        identities := (identities_canonical type fields).mp header.identities
        payload := payload
        payloadKeys := (keys_canonical original _).mp header.payloadKeys }
  · intro ⟨type, body, header, schema⟩
    refine ⟨type, canonicalFields floats body, ?_, (payloadSchema_canonical body type).mpr schema⟩
    exact
      { keys := (keys_canonical fields _).mpr header.keys
        present := (present_canonical fields).mpr header.present
        version := here _ ▸ (named_canonical _).mpr header.version
        named := here _ ▸ (messageType_canonical _).trans header.named
        messageId := here _ ▸ (text_canonical _).mpr header.messageId
        identities := (identities_canonical type fields).mpr header.identities
        payload := by rw [field_canonical, payload_canonical]; exact ⟨body, header.payload, rfl⟩
        payloadKeys := (keys_canonical body _).mpr header.payloadKeys }

theorem parseEnvelope_iff : parseEnvelope depth payload = .ok envelope ↔ payload.size ≤ MAX_FRAME_BYTES ∧
    ∃ text, String.fromUTF8? payload = some text ∧ rawDecode depth text = .ok (.dict envelope, []) ∧ Conforms envelope := by
  simp only [parseEnvelope, bind_ok]
  constructor
  · rintro ⟨fields, decoded, checked⟩
    obtain ⟨small, text, utf8, scanned, bounded⟩ := decodeFramePayload_ok.mp decoded
    obtain ⟨rfl, type, body, header, valid⟩ := checkEnvelope_ok.mp checked
    exact ⟨small, text, utf8, scanned, bounded, type, body, header, (validatePayload_ok type).mp valid⟩
  · rintro ⟨small, text, utf8, scanned, bounded, type, body, header, schema⟩
    exact ⟨envelope, decodeFramePayload_ok.mpr ⟨small, text, utf8, scanned, bounded⟩,
      checkEnvelope_ok.mpr ⟨rfl, type, body, header, (validatePayload_ok type).mpr schema⟩⟩

/-- The bytes of the text of an envelope fit into a frame. -/
def FitsFrame (floats : Floats) (depth : Nat) (message : Fields) : Prop :=
  ∀ text, dumps floats depth (.dict message) = some text → (String.ofList text).utf8ByteSize ≤ MAX_FRAME_BYTES

theorem encodeFrame_ok : encodeFrame floats depth message = .ok frame ↔ ∃ text, dumps floats depth (.dict message) = some text ∧
    (String.ofList text).toUTF8.size ≤ MAX_FRAME_BYTES ∧ packLength (String.ofList text).toUTF8.size ++ (String.ofList text).toUTF8 = frame := by
  simp only [encodeFrame, bind_ok, fetch_ok, reject_ok, pure_ok, decide_eq_false_iff_not, Nat.not_lt]
  constructor
  · rintro ⟨text, dumped, _, short, same⟩
    exact ⟨text, dumped, short, same⟩
  · rintro ⟨text, dumped, short, same⟩
    exact ⟨text, dumped, (), short, same⟩

theorem encodeFrame_exists (within : dumpable depth (.dict message) = true) :
    (∃ frame, encodeFrame floats depth message = .ok frame) ↔ Portable floats (.dict message) ∧ FitsFrame floats depth message := by
  have dumped : (dumps floats depth (.dict message)).isSome = true ↔ dumpable depth (.dict message) = true ∧ Portable floats (.dict message) :=
    dumps_isSome depth (.dict message)
  simp only [encodeFrame_ok]
  constructor
  · intro ⟨frame, text, found, short, _⟩
    refine ⟨(dumped.mp (Option.isSome_of_mem found)).2, ?_⟩
    intro other again
    cases found.symm.trans again
    exact short
  · intro ⟨portable, fits⟩
    obtain ⟨text, found⟩ := Option.isSome_iff_exists.mp (dumped.mpr ⟨within, portable⟩)
    exact ⟨_, text, found, fits text found, rfl⟩

theorem framed_parsed (wellformed : Wellformed (.dict message)) (framed : encodeFrame floats depth message = .ok frame) (rest : ByteArray) :
    ∃ sent, readFrame (frame ++ rest) = .frame sent rest ∧
      ∀ envelope, parseEnvelope depth sent = .ok envelope ↔ envelope = canonicalFields floats message ∧ Conforms message := by
  obtain ⟨text, dumped, short, rfl⟩ := encodeFrame_ok.mp framed
  have scanned : scanOnce depth text = .ok (.dict (canonicalFields floats message), []) := rawDecode_dumps wellformed dumped
  have nonempty : 0 < (String.ofList text).toUTF8.size := by
    have taken := scanOnce_shorter scanned
    rw [String.toUTF8_eq_toByteArray, String.size_toByteArray, Nat.pos_iff_ne_zero, ne_eq, String.utf8ByteSize_eq_zero_iff, String.ofList_eq_empty_iff]
    rintro rfl
    exact absurd taken (Nat.not_lt_zero _)
  have utf8 : String.fromUTF8? (String.ofList text).toUTF8 = some (String.ofList text) := dif_pos (String.ofList text).isValidUTF8
  refine ⟨_, readFrame_packed _ rest nonempty short, ?_⟩
  intro envelope
  rw [parseEnvelope_iff]
  constructor
  · intro ⟨_, other, decoded, found, conforms⟩
    cases utf8.symm.trans decoded
    rw [rawDecode, String.toList_ofList, scanned] at found
    cases found
    exact ⟨rfl, (conforms_canonical message).mp conforms⟩
  · intro ⟨same, conforms⟩
    subst same
    exact ⟨short, _, utf8, by rw [rawDecode, String.toList_ofList, scanned], (conforms_canonical message).mpr conforms⟩

/-- The arguments make an envelope of the given type that conforms to the protocol. -/
structure Accepted (building : Building) (type : MessageType) : Prop where
  version : building.protocolVersion = pyStr PLUGIN_WORKER_PROTOCOL_VERSION
  named : building.messageType = pyStr type.name
  messageId : isUuid building.id = true
  identities : if type ∈ MESSAGES_WITHOUT_JOB then building.jobId = none ∧ building.executionAttemptId = none
    else (∃ job ∈ building.jobId, isUuid job = true) ∧ ∃ attempt ∈ building.executionAttemptId, isUuid attempt = true
  keys : ∀ entry ∈ building.body, ∃ name ∈ PAYLOAD_KEYS type, entry.1 = pyStr name
  schema : PayloadSchema building.body type
  bounded : boundedJson 1 (.dict building.body) = true

theorem messageType_text (text : PyStr) : messageType (some (.str text)) = some type ↔ text = pyStr type.name := by
  have spelled (other : MessageType) : isText other.name (some (.str text)) = decide (text = pyStr other.name) := rfl
  unfold messageType
  simp only [spelled]
  constructor
  · intro found
    simpa using List.find?_some found
  · rintro rfl
    cases type <;> decide

theorem textOrNull_absent (text : Option PyStr) : Optionally (fun _ => False) (some (textOrNull text)) ↔ text = none := by
  unfold Optionally
  cases text <;> simp [textOrNull]

theorem textOrNull_text {accepts : PyStr → Bool} (text : Option PyStr) : Text accepts (some (textOrNull text)) ↔ ∃ found ∈ text, accepts found = true := by
  unfold Text
  cases text <;> simp [textOrNull]

theorem boundedJson_built (building : Building) :
    boundedJson 0 (.dict (buildEnvelope building)) = true ↔ boundedJson 1 (.dict building.body) = true := by
  have texts (text : Option PyStr) : boundedJson 1 (textOrNull text) = true := by cases text <;> rfl
  have string (text : PyStr) : boundedJson 1 (.str text) = true := rfl
  rw [boundedJson, buildEnvelope]
  simp only [boundedFields, texts, string, Bool.and_true, Bool.true_and, Nat.zero_add]
  simp [MAX_JSON_KEYS, MAX_JSON_DEPTH]

theorem conforms_built (building : Building) : Conforms (buildEnvelope building) ↔ ∃ type, Accepted building type := by
  have fields : field (buildEnvelope building) "protocol_version" = some (.str building.protocolVersion) ∧
      field (buildEnvelope building) "message_type" = some (.str building.messageType) ∧
      field (buildEnvelope building) "job_id" = some (textOrNull building.jobId) ∧
      field (buildEnvelope building) "execution_attempt_id" = some (textOrNull building.executionAttemptId) ∧
      field (buildEnvelope building) "message_id" = some (.str building.id) ∧
      field (buildEnvelope building) "payload" = some (.dict building.body) := ⟨rfl, rfl, rfl, rfl, rfl, rfl⟩
  obtain ⟨version, named, job, attempt, messageId, payload⟩ := fields
  have identities (type : MessageType) : Identities type (buildEnvelope building) ↔
      if type ∈ MESSAGES_WITHOUT_JOB then building.jobId = none ∧ building.executionAttemptId = none
      else (∃ job ∈ building.jobId, isUuid job = true) ∧ ∃ attempt ∈ building.executionAttemptId, isUuid attempt = true := by
    rw [Identities, job, attempt, textOrNull_absent, textOrNull_absent, textOrNull_text, textOrNull_text]
  unfold Conforms
  rw [boundedJson_built]
  constructor
  · intro ⟨bounded, type, body, header, schema⟩
    obtain rfl : building.body = body := by
      have same := payload.symm.trans header.payload
      cases same
      rfl
    refine ⟨type, ?_⟩
    exact
      { version := by simpa [Named] using version.symm.trans header.version
        named := (messageType_text _).mp (named ▸ header.named)
        messageId := by
          obtain ⟨text, found, accepted⟩ := header.messageId
          cases messageId.symm.trans found
          exact accepted
        identities := (identities type).mp header.identities
        keys := header.payloadKeys
        schema := schema
        bounded := bounded }
  · intro ⟨type, accepted⟩
    refine ⟨accepted.bounded, type, building.body, ?_, accepted.schema⟩
    exact
      { keys := by
          intro entry member
          simp only [buildEnvelope, List.mem_cons, List.not_mem_nil, or_false] at member
          rcases member with rfl | rfl | rfl | rfl | rfl | rfl
          all_goals exact ⟨_, by simp [ENVELOPE_FIELDS], rfl⟩
        present := by
          intro name known
          simp only [ENVELOPE_FIELDS, List.mem_cons, List.not_mem_nil, or_false] at known
          rcases known with rfl | rfl | rfl | rfl | rfl | rfl
          · exact ⟨_, version⟩
          · exact ⟨_, named⟩
          · exact ⟨_, job⟩
          · exact ⟨_, attempt⟩
          · exact ⟨_, messageId⟩
          · exact ⟨_, payload⟩
        version := by rw [Named, version, accepted.version]
        named := by rw [named]; exact (messageType_text _).mpr accepted.named
        messageId := ⟨_, messageId, accepted.messageId⟩
        identities := (identities type).mpr accepted.identities
        payload := payload
        payloadKeys := accepted.keys }

theorem wellformed_built (building : Building) : Wellformed (.dict (buildEnvelope building)) := by
  have key (name : String) : Points (pyStr name) := by
    intro point member
    obtain ⟨char, _, rfl⟩ := List.mem_map.mp member
    exact toNat_lt char
  have text (text : Option PyStr) (points : ∀ found, text = some found → Points found) : Wellformed (textOrNull text) := by
    cases text with
    | none => simp only [textOrNull, Wellformed]
    | some found => simpa only [textOrNull, Wellformed] using points found rfl
  have id : Points building.id := by
    unfold Building.id
    split
    · rename_i first rest given
      exact building.identities _ (by simp [given])
    · exact building.texts.2.2
  have body : Wellformed (.dict building.body) := by
    unfold Building.body
    cases given : building.payload with
    | none => simp [Wellformed, WellformedFields]
    | some fields => exact building.object fields given
  have job := text building.jobId fun found given => building.identities found (by simp [given])
  have attempt := text building.executionAttemptId fun found given => building.identities found (by simp [given])
  rw [Wellformed]
  refine ⟨?_, ?_⟩
  · have names : (buildEnvelope building).map Prod.fst = ENVELOPE_FIELDS.map pyStr := rfl
    rw [names]
    decide
  · rw [wellformedFields_iff]
    intro entry member
    simp only [buildEnvelope, List.mem_cons, List.not_mem_nil, or_false] at member
    rcases member with rfl | rfl | rfl | rfl | rfl | rfl
    · exact ⟨key _, by rw [Wellformed]; exact building.texts.2.1⟩
    · exact ⟨key _, by rw [Wellformed]; exact building.texts.1⟩
    · exact ⟨key _, job⟩
    · exact ⟨key _, attempt⟩
    · exact ⟨key _, by rw [Wellformed]; exact id⟩
    · exact ⟨key _, body⟩

/-- A parsed envelope is framed exactly when its floats are finite, its texts are whole and its
text fits; the other side reads an equal envelope. What is built and framed is parsed exactly when
its arguments conform. -/
theorem envelopes_travel (floats : Floats) (depth : Nat) (rest : ByteArray) :
    (∀ payload envelope, parseEnvelope depth payload = .ok envelope →
      ((∃ frame, encodeFrame floats depth envelope = .ok frame) ↔ Portable floats (.dict envelope) ∧ FitsFrame floats depth envelope) ∧
      ∀ frame, encodeFrame floats depth envelope = .ok frame → ∃ sent again, readFrame (frame ++ rest) = .frame sent rest ∧
        parseEnvelope depth sent = .ok again ∧ canonicalFields floats again = canonicalFields floats envelope) ∧
    ∀ building frame, encodeFrame floats depth (buildEnvelope building) = .ok frame → ∃ sent, readFrame (frame ++ rest) = .frame sent rest ∧
      ((∃ envelope, parseEnvelope depth sent = .ok envelope) ↔ ∃ type, Accepted building type) ∧
      ∀ envelope, parseEnvelope depth sent = .ok envelope → canonicalFields floats envelope = canonicalFields floats (buildEnvelope building) := by
  constructor
  · intro payload envelope parsed
    obtain ⟨_, text, _, scanned, conforms⟩ := parseEnvelope_iff.mp parsed
    obtain ⟨wellformed, within⟩ := scanOnce_sound scanned
    refine ⟨encodeFrame_exists within, ?_⟩
    intro frame framed
    obtain ⟨sent, read, answers⟩ := framed_parsed wellformed framed rest
    exact ⟨sent, _, read, (answers _).mpr ⟨rfl, conforms⟩, canonicalFields_again envelope⟩
  · intro building frame framed
    obtain ⟨sent, read, answers⟩ := framed_parsed (wellformed_built building) framed rest
    refine ⟨sent, read, ?_, ?_⟩
    · rw [← conforms_built]
      constructor
      · intro ⟨envelope, parsed⟩
        exact ((answers envelope).mp parsed).2
      · intro conforms
        exact ⟨_, (answers _).mpr ⟨rfl, conforms⟩⟩
    · intro envelope parsed
      rw [((answers envelope).mp parsed).1, canonicalFields_again]

/-- A result whose output is the given text, and the envelope that it is. -/
def resultText (output : String) : String :=
  "\x7b\"protocol_version\":\"1\",\"message_type\":\"JOB_RESULT\",\"job_id\":\"00000000-0000-4000-8000-000000000000\"," ++
    "\"execution_attempt_id\":\"00000000-0000-4000-8000-000000000000\"," ++
    "\"message_id\":\"00000000-0000-4000-8000-000000000000\",\"payload\":\x7b\"operation\":\"PING\",\"output\":" ++ output ++ "\x7d\x7d"

def resultBody (output : Decoded) : Fields := [(pyStr "operation", .str (pyStr "PING")), (pyStr "output", output)]

def zeroId : PyStr := pyStr "00000000-0000-4000-8000-000000000000"

def resultEnvelope (output : Decoded) : Fields :=
  [(pyStr "protocol_version", .str (pyStr "1")), (pyStr "message_type", .str (pyStr "JOB_RESULT")), (pyStr "job_id", .str zeroId),
    (pyStr "execution_attempt_id", .str zeroId), (pyStr "message_id", .str zeroId), (pyStr "payload", .dict (resultBody output))]

set_option maxRecDepth 20000 in
theorem resultText_half : rawDecode 9 (resultText "5e-1") = .ok (.dict (resultEnvelope (.float ['5', 'e', '-', '1'])), []) := by
  rfl

set_option maxRecDepth 20000 in
theorem resultText_nan : rawDecode 9 (resultText "NaN") = .ok (.dict (resultEnvelope (.float ['N', 'a', 'N'])), []) := by
  rfl

theorem resultEnvelope_parsed (scanned : rawDecode 9 (resultText text) = .ok (.dict (resultEnvelope (.float literal)), []))
    (short : (resultText text).utf8ByteSize ≤ MAX_FRAME_BYTES) : parseEnvelope 9 (resultText text).toUTF8 = .ok (resultEnvelope (.float literal)) := by
  have utf8 : String.fromUTF8? (resultText text).toUTF8 = some (resultText text) := dif_pos (resultText text).isValidUTF8
  have frame : decodeFramePayload 9 (resultText text).toUTF8 = .ok (resultEnvelope (.float literal)) :=
    decodeFramePayload_ok.mpr ⟨short, _, utf8, scanned, rfl⟩
  exact bind_ok.mpr ⟨_, frame, rfl⟩

/-- Printing one half, which has two literals here. -/
def halfText (literal : List Char) : Option (List Char) :=
  if literal = ['5', 'e', '-', '1'] ∨ literal = ['0', '.', '5'] then some ['0', '.', '5'] else none

theorem halfText_some (printed : halfText literal = some text) : text = ['0', '.', '5'] := by
  unfold halfText at printed
  split at printed
  · exact (Option.some.inj printed).symm
  · cases printed

theorem half_floating : Floating ['0', '.', '5'] := by
  refine ⟨⟨[], '0', ['.', '5'], .inl rfl, rfl, rfl⟩, ?_⟩
  intro rest stops
  have ends : rest.takeWhile isDigit = [] ∧ rest.dropWhile isDigit = rest := by
    cases rest with
    | nil => exact ⟨rfl, rfl⟩
    | cons char rest => simp [(stops char rfl).1]
  have point : fraction ('.' :: '5' :: rest) = (['.', '5'], rest) := by
    have five : isDigit '5' = true := rfl
    simp [fraction, five, ends]
  have sign : takeSign ['-'] ('0' :: '.' :: '5' :: rest) = ([], '0' :: '.' :: '5' :: rest) := rfl
  simp [scanNumber, sign, integerDigits, point, exponent_stops stops]

def half : Floats where
  text := halfText
  floating printed := by
    rw [halfText_some printed]
    exact half_floating
  again printed := by
    rw [halfText_some printed]
    rfl
  nan := rfl
  infinite := ⟨rfl, rfl⟩

/-- A handshake of the given type, with the identity of the worker. -/
def handshake (type : String) (points : Points (pyStr type)) : Building where
  messageType := pyStr type
  payload := some [(pyStr "worker_identity", .str (pyStr HOST_TEST_WORKER_IDENTITY)), (pyStr "session_nonce", .str (pyStr "00000000000000000000000000000000"))]
  jobId := none
  executionAttemptId := none
  messageId := none
  protocolVersion := pyStr PLUGIN_WORKER_PROTOCOL_VERSION
  newMessageId := zeroId
  texts := ⟨points, by unfold Points; decide, by unfold Points; decide⟩
  identities _ none := nomatch none
  object fields given := by
    cases given
    simp only [Wellformed, WellformedFields, and_true]
    unfold Points
    decide
  uuid := rfl

def hello : Building := handshake "HELLO" (by unfold Points; decide)
def invoke : Building := handshake "INVOKE" (by unfold Points; decide)

theorem framed_short {message : Fields} (short : ((dumps floats depth (.dict message)).map fun text => decide ((String.ofList text).utf8ByteSize ≤ MAX_FRAME_BYTES)) = some true) :
    ∃ frame, encodeFrame floats depth message = .ok frame := by
  obtain ⟨text, dumped, fits⟩ := Option.map_eq_some_iff.mp short
  exact ⟨_, encodeFrame_ok.mpr ⟨text, dumped, of_decide_eq_true fits, rfl⟩⟩

theorem hello_accepted : Accepted hello .hello where
  version := rfl
  named := rfl
  messageId := rfl
  identities := ⟨rfl, rfl⟩
  keys := by decide
  schema := ⟨rfl, _, rfl, rfl⟩
  bounded := rfl

/-- A half reaches the other side, and so does a greeting that is built. -/
theorem envelopes_travel_half :
    (∃ frame sent again, encodeFrame half 9 (resultEnvelope (.float ['5', 'e', '-', '1'])) = .ok frame ∧
      readFrame (frame ++ ByteArray.empty) = .frame sent ByteArray.empty ∧ parseEnvelope 9 sent = .ok again ∧
      canonicalFields half again = canonicalFields half (resultEnvelope (.float ['5', 'e', '-', '1']))) ∧
    ∃ frame sent envelope, encodeFrame half 9 (buildEnvelope hello) = .ok frame ∧
      readFrame (frame ++ ByteArray.empty) = .frame sent ByteArray.empty ∧ parseEnvelope 9 sent = .ok envelope := by
  obtain ⟨parsed, built⟩ := envelopes_travel half 9 ByteArray.empty
  constructor
  · obtain ⟨frame, framed⟩ : ∃ frame, encodeFrame half 9 (resultEnvelope (.float ['5', 'e', '-', '1'])) = .ok frame :=
      framed_short (by decide +kernel)
    obtain ⟨sent, again, read, answered, same⟩ :=
      (parsed _ _ (resultEnvelope_parsed resultText_half (by decide +kernel))).2 frame framed
    exact ⟨frame, sent, again, framed, read, answered, same⟩
  · obtain ⟨frame, framed⟩ : ∃ frame, encodeFrame half 9 (buildEnvelope hello) = .ok frame := framed_short (by decide +kernel)
    obtain ⟨sent, read, accepts, _⟩ := built hello frame framed
    obtain ⟨envelope, answered⟩ := accepts.mpr ⟨.hello, hello_accepted⟩
    exact ⟨frame, sent, envelope, framed, read, answered⟩

/-- An envelope with a `NaN` is parsed but not framed, and one that names no message type is framed but not parsed. -/
theorem not_every_envelope_travels :
    (∃ payload envelope, parseEnvelope 9 payload = .ok envelope ∧ ∀ floats frame, encodeFrame floats 9 envelope ≠ .ok frame) ∧
    ∃ frame sent, encodeFrame half 9 (buildEnvelope invoke) = .ok frame ∧ readFrame (frame ++ ByteArray.empty) = .frame sent ByteArray.empty ∧
      ∀ envelope, parseEnvelope 9 sent ≠ .ok envelope := by
  constructor
  · refine ⟨_, _, resultEnvelope_parsed resultText_nan (by decide +kernel), ?_⟩
    intro floats frame framed
    obtain ⟨text, dumped, _⟩ := encodeFrame_ok.mp framed
    have portable := ((dumps_isSome 9 _).mp (Option.isSome_of_mem dumped)).2
    simp [Portable, PortableFields, resultEnvelope, resultBody, floats.nan] at portable
  · obtain ⟨frame, framed⟩ : ∃ frame, encodeFrame half 9 (buildEnvelope invoke) = .ok frame := framed_short (by decide +kernel)
    obtain ⟨sent, read, answers⟩ := framed_parsed (wellformed_built invoke) framed ByteArray.empty
    refine ⟨frame, sent, framed, read, ?_⟩
    intro envelope parsed
    obtain ⟨type, accepted⟩ := (conforms_built invoke).mp ((answers envelope).mp parsed).2
    have named : pyStr "INVOKE" = pyStr type.name := accepted.named
    cases type <;> exact absurd named (by decide)

end NovelStudio.PluginWorker
