import NovelStudio.Library.Utf8

/-! The body of a prompt, read up to a limit: the whole text, a preview that ends at a code point, or
nothing where the bytes that were read are no text. -/

namespace NovelStudio.Prompts

open Library.Utf8

inductive BodyState where
  | complete
  | truncated
  | undecodable
deriving DecidableEq

/-- How the whole body is obtained. -/
inductive Fetch where
  | assetBytes
  | included
deriving DecidableEq

structure BodyReading where
  state : BodyState
  value : Option (List Char)
  truncated : Bool
  decodable : Bool
  bodyValidated : Bool
  tailUnverified : Bool
  originalLength : Nat
  previewLength : Nat
  limit : Int
  digest : String
  digestOf : String
  fetch : Fetch
deriving DecidableEq

/-- `_decode_chunk`: the text, where there is one. -/
def decodeChunk (chunk : List UInt8) (allowPartialTail : Bool) : Option (List Char) :=
  match decode 0 chunk with
  | .ok text => some text
  | .error failure =>
    if allowPartialTail && failure.reason == .unexpectedEnd && failure.stop == chunk.length && decide (chunk.length - failure.start < 4) then
      match decode 0 (chunk.take failure.start) with
      | .ok text => some text
      | .error _ => none
    else none

/-- What is reported of a body whose chunk was decoded. -/
def reportBody (digest : List UInt8 → String) (data : List UInt8) (limit : Int) (truncated : Bool) (text : Option (List Char)) : BodyReading :=
  let state : BodyState := if text.isNone then .undecodable else if truncated then .truncated else .complete
  { state
    value := text
    truncated
    decodable := text.isSome
    bodyValidated := state == .complete
    tailUnverified := truncated
    originalLength := data.length
    previewLength := (text.map fun value => (encode value).length).getD 0
    limit
    digest := digest data
    digestOf := "ORIGINAL_BYTES"
    fetch := if state ≠ .complete then .assetBytes else .included }

/-- `read_prompt_body` of some bytes, with the digest as it is computed of them. -/
def readPromptBody (digest : List UInt8 → String) (raw : List UInt8) (limit : Int) : Except String BodyReading :=
  if limit < 0 then .error "PROMPT_BODY_LIMIT_INVALID"
  else
    let truncated := decide (limit < raw.length)
    .ok (reportBody digest raw limit truncated (decodeChunk (if truncated then raw.take limit.toNat else raw) truncated))

/-- A chunk is decoded to the text it encodes, up to the beginning of a code point that is cut where that is allowed. -/
theorem decodeChunk_iff {chunk : List UInt8} {allowed : Bool} {text : List Char} :
    decodeChunk chunk allowed = some text ↔ ∃ missing, chunk = encode text ++ missing ∧ (missing = [] ∨ (allowed = true ∧ Unfinished missing)) := by
  unfold decodeChunk
  constructor
  · intro decoded
    cases tried : decode 0 chunk with
    | ok whole =>
      rw [tried] at decoded
      obtain rfl := Option.some.inj decoded
      exact ⟨[], by rw [List.append_nil]; exact decode_ok.mp tried, Or.inl rfl⟩
    | error failure =>
      simp only [tried] at decoded
      split at decoded
      · rename_i partial'
        simp only [Bool.and_eq_true, beq_iff_eq] at partial'
        obtain ⟨⟨⟨allow, reason⟩, -⟩, -⟩ := partial'
        obtain ⟨front, missing, rfl, unfinished⟩ := decode_unexpectedEnd tried reason
        rw [decode_unfinished front unfinished] at tried
        obtain rfl := Except.error.inj tried
        rw [List.take_left, decode_ok.mpr rfl] at decoded
        obtain rfl := Option.some.inj decoded
        exact ⟨missing, rfl, Or.inr ⟨allow, unfinished⟩⟩
      · cases decoded
  · intro encoded
    obtain ⟨missing, rfl, either⟩ := encoded
    cases either with
    | inl none =>
      rw [none, List.append_nil, decode_ok.mpr rfl]
    | inr cut =>
      obtain ⟨allow, unfinished⟩ := cut
      have short := unfinished.length
      rw [decode_unfinished text unfinished]
      have within' : (encode text ++ missing).length - (encode text).length < 4 := by
        rw [List.length_append]
        omega
      simp only [allow, within', BEq.rfl, Bool.and_self, decide_true, ↓reduceIte, List.take_left]
      rw [decode_ok.mpr rfl]

theorem reportBody_complete {digest : List UInt8 → String} {data : List UInt8} {limit : Int} {truncated : Bool} {text : Option (List Char)} :
    (reportBody digest data limit truncated text).state = .complete ↔ truncated = false ∧ text.isSome = true := by
  cases text with
  | none => exact iff_of_false nofun nofun
  | some value =>
    cases truncated with
    | true => exact iff_of_false nofun nofun
    | false => exact iff_of_true rfl ⟨rfl, rfl⟩

theorem reportBody_truncated {digest : List UInt8 → String} {data : List UInt8} {limit : Int} {truncated : Bool} {text : Option (List Char)} :
    (reportBody digest data limit truncated text).state = .truncated ↔ truncated = true ∧ text.isSome = true := by
  cases text with
  | none => exact iff_of_false nofun nofun
  | some value =>
    cases truncated with
    | true => exact iff_of_true rfl ⟨rfl, rfl⟩
    | false => exact iff_of_false nofun nofun

/-- The longest beginning of a text whose bytes are within a limit. -/
def LongestWithin (limit : Nat) (text kept : List Char) : Prop :=
  kept <+: text ∧ (encode kept).length ≤ limit ∧ ∀ other, other <+: text → (encode other).length ≤ limit → other <+: kept

/-- A body is read as a whole exactly where it is within the limit and a text, a longer text is cut at the last code point within the limit,
a preview misses only the beginning of a code point, and everything else is refused without a value. -/
theorem prompt_body_exact (digest : List UInt8 → String) (raw : List UInt8) (limit : Int) :
    (limit < 0 ∧ readPromptBody digest raw limit = .error "PROMPT_BODY_LIMIT_INVALID") ∨
    ∃ bound : Nat, limit = bound ∧ ∃ reading, readPromptBody digest raw limit = .ok reading ∧
      (reading.state = .complete ↔ raw.length ≤ bound ∧ ∃ text, raw = encode text) ∧
      (reading.state = .complete → ∃ text, reading.value = some text ∧ raw = encode text) ∧
      (∀ text, bound < raw.length → raw = encode text →
        reading.state = .truncated ∧ ∃ kept, reading.value = some kept ∧ LongestWithin bound text kept) ∧
      (reading.state = .truncated ↔ bound < raw.length ∧ ∃ kept missing, raw.take bound = encode kept ++ missing ∧ (missing = [] ∨ Unfinished missing)) ∧
      (reading.state = .truncated → ∃ kept missing, reading.value = some kept ∧ raw.take bound = encode kept ++ missing ∧ missing.length < 4 ∧
        (missing = [] ∨ Unfinished missing)) ∧
      (reading.state ≠ .complete → reading.state ≠ .truncated → reading.state = .undecodable ∧ reading.value = none) := by
  by_cases negative : limit < 0
  · exact Or.inl ⟨negative, if_pos negative⟩
  obtain ⟨bound, rfl⟩ := Int.eq_ofNat_of_zero_le (Int.not_lt.mp negative)
  refine Or.inr ⟨bound, rfl, _, if_neg negative, ?_⟩
  have long : decide ((bound : Int) < raw.length) = decide (bound < raw.length) := decide_eq_decide.mpr Int.ofNat_lt
  rw [long, Int.toNat_natCast]
  by_cases cut : bound < raw.length
  · rw [decide_eq_true cut, if_pos rfl]
    have some_iff : (decodeChunk (raw.take bound) true).isSome = true ↔
        ∃ kept missing, raw.take bound = encode kept ++ missing ∧ (missing = [] ∨ Unfinished missing) := by
      rw [Option.isSome_iff_exists]
      simp only [decodeChunk_iff, true_and]
    refine ⟨?_, ?_, ?_, ?_, ?_, ?_⟩
    · rw [reportBody_complete]
      exact iff_of_false (fun both => Bool.noConfusion both.1) fun both => absurd both.1 (Nat.not_le.mpr cut)
    · intro complete
      exact absurd (reportBody_complete.mp complete).1 nofun
    · intro text _ encoded
      obtain ⟨kept, rest, missing, whole, taken, broken, fits, next⟩ := take_encode text bound
      have decoded : decodeChunk (raw.take bound) true = some kept := by
        rw [decodeChunk_iff]
        refine ⟨missing, by rw [encoded, taken], ?_⟩
        cases broken with
        | inl none => exact Or.inl none
        | inr unfinished => exact Or.inr ⟨rfl, unfinished⟩
      refine ⟨reportBody_truncated.mpr ⟨rfl, by rw [decoded]; rfl⟩, kept, decoded, ?_, fits, ?_⟩
      · rw [whole]
        exact List.prefix_append kept rest
      · intro other shorter within'
        rw [whole] at shorter
        exact longest_kept next shorter within'
    · rw [reportBody_truncated, some_iff]
      exact ⟨fun both => ⟨cut, both.2⟩, fun both => ⟨rfl, both.2⟩⟩
    · intro truncated
      obtain ⟨kept, decoded⟩ := Option.isSome_iff_exists.mp (reportBody_truncated.mp truncated).2
      obtain ⟨missing, taken, either⟩ := decodeChunk_iff.mp decoded
      cases either with
      | inl none => exact ⟨kept, missing, decoded, taken, by rw [none]; exact Nat.succ_pos 3, Or.inl none⟩
      | inr broken => exact ⟨kept, missing, decoded, taken, broken.2.length, Or.inr broken.2⟩
    · intro _ none
      cases decoded : decodeChunk (raw.take bound) true with
      | none => exact ⟨rfl, rfl⟩
      | some kept =>
        rw [decoded] at none
        exact absurd rfl none
  · rw [decide_eq_false cut, if_neg Bool.false_ne_true]
    have some_iff : (decodeChunk raw false).isSome = true ↔ ∃ text, raw = encode text := by
      rw [Option.isSome_iff_exists]
      simp only [decodeChunk_iff, Bool.false_eq_true, false_and, or_false, exists_eq_right, List.append_nil]
    refine ⟨?_, ?_, ?_, ?_, ?_, ?_⟩
    · rw [reportBody_complete, some_iff]
      exact ⟨fun both => ⟨Nat.not_lt.mp cut, both.2⟩, fun both => ⟨rfl, both.2⟩⟩
    · intro complete
      obtain ⟨text, decoded⟩ := Option.isSome_iff_exists.mp (reportBody_complete.mp complete).2
      obtain ⟨missing, whole, either⟩ := decodeChunk_iff.mp decoded
      cases either with
      | inl none => exact ⟨text, decoded, by rw [whole, none, List.append_nil]⟩
      | inr broken => exact absurd broken.1 nofun
    · intro text longer
      exact absurd longer cut
    · rw [reportBody_truncated]
      exact iff_of_false (fun both => Bool.noConfusion both.1) fun both => cut both.1
    · intro truncated
      exact absurd (reportBody_truncated.mp truncated).1 nofun
    · intro none _
      cases decoded : decodeChunk raw false with
      | none => exact ⟨rfl, rfl⟩
      | some kept =>
        rw [decoded] at none
        exact absurd rfl none

end NovelStudio.Prompts
