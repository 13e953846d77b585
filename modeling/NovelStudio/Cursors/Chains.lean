import NovelStudio.Cursors.Tokens

/-! Cursors over their lives: what an issued token is read as, how long a chain of them lives, and what is refused. -/

namespace NovelStudio.Cursors

open Library

variable {codec : Codec} {binding revision : PyStr} {after : Position}

theorem sign_spec (codec : Codec) (body : List Char) :
    (codec.sign body).length = 64 ∧ ∀ char ∈ codec.sign body, char.toNat < 128 ∧ char ≠ '.' := by
  have signed := codec.signed body
  simp only [isSha, Bool.and_eq_true, decide_eq_true_eq, List.all_eq_true, List.length_map, List.mem_map, forall_exists_index, and_imp,
    forall_apply_eq_imp_iff₂, isLowerHex, Bool.or_eq_true] at signed
  refine ⟨signed.1, ?_⟩
  intro char member
  have range := signed.2 char member
  refine ⟨by omega, ?_⟩
  rintro rfl
  revert range
  decide

theorem isUrl64_spec (char : Char) (url : isUrl64 char = true) : char.toNat < 128 ∧ char ≠ '.' := by
  constructor
  · unfold isUrl64 sextetValue at url
    split at url
    · rename_i range
      have below : char.toNat ≤ 90 := range.2
      omega
    split at url
    · rename_i range
      have below : char.toNat ≤ 122 := range.2
      omega
    split at url
    · rename_i range
      have below : char.toNat ≤ 57 := range.2
      omega
    split at url
    · rename_i same
      subst same
      decide
    split at url
    · rename_i same
      subst same
      decide
    · cases url
  · rintro rfl
    exact absurd url (by decide)

theorem splitOn_token {body signature : List Char} (bodyDots : '.' ∉ body) (signatureDots : '.' ∉ signature) :
    (TOKEN_PREFIX ++ '.' :: body ++ '.' :: signature).splitOn '.' = [TOKEN_PREFIX, body, signature] := by
  have first : '.' ∉ TOKEN_PREFIX := by decide
  rw [List.append_assoc, List.cons_append, List.splitOn_append_cons_self_of_not_mem first, List.splitOn_append_cons_self_of_not_mem bodyDots,
    List.splitOn_eq_singleton signatureDots]

theorem authenticate_token (authentic : authenticate codec token = .ok body) : token = tokenOf codec body := by
  unfold authenticate at authentic
  simp only [bind_ok, reject_ok] at authentic
  obtain ⟨_, _, authentic⟩ := authentic
  split at authentic
  · rename_i version found supplied parts
    simp only [bind_ok, reject_ok, pure_ok, Bool.or_eq_false_iff, decide_eq_false_iff_not, ne_eq, not_not] at authentic
    obtain ⟨_, ⟨⟨⟨⟨named, _⟩, _⟩, _⟩, _⟩, _, signed, same⟩ := authentic
    subst same
    have whole : ['.'].intercalate (token.splitOn '.') = token := List.intercalate_splitOn '.'
    rw [parts] at whole
    rw [← whole, tokenOf, signed, named]
    simp [List.intercalate]
  · cases authentic

structure Fits (codec : Codec) (body : List Char) : Prop where
  nonempty : body ≠ []
  url : ∀ char ∈ body, isUrl64 char = true
  short : body.length ≤ 4 * ((MAX_PAYLOAD_BYTES + 2) / 3)

theorem authenticate_tokenOf (fits : Fits codec body) : authenticate codec (tokenOf codec body) = .ok body := by
  obtain ⟨size, signature⟩ := sign_spec codec body
  have parts : (tokenOf codec body).splitOn '.' = [TOKEN_PREFIX, body, codec.sign body] :=
    splitOn_token (fun member => (isUrl64_spec _ (fits.url _ member)).2 rfl) (fun member => (signature _ member).2 rfl)
  have ascii : Ascii (tokenOf codec body) := by
    have front : Ascii TOKEN_PREFIX := ascii_of_all rfl
    exact (front.append (.cons (by decide) fun char member => (isUrl64_spec char (fits.url char member)).1)).append
      (.cons (by decide) fun char member => (signature char member).1)
  have length : (tokenOf codec body).length = 3 + 1 + body.length + 1 + 64 := by
    simp only [tokenOf, TOKEN_PREFIX, List.length_append, List.length_cons, List.length_nil, size]
    omega
  have short := fits.short
  have room : 4 * ((MAX_PAYLOAD_BYTES + 2) / 3) = 1368 := by decide
  have limit : MAX_TOKEN_BYTES = 2048 := rfl
  unfold authenticate
  rw [parts]
  simp only [bind_ok, reject_ok, pure_ok]
  refine ⟨(), ?_, (), ?_, (), by simp, trivial⟩
  · simp only [Bool.not_eq_false', Bool.and_eq_true, List.all_eq_true, decide_eq_true_eq]
    exact ⟨⟨ascii, by omega⟩, by omega⟩
  · simp only [Bool.or_eq_false_iff, decide_eq_false_iff_not, Bool.not_eq_false', List.all_eq_true, not_lt, ne_eq, not_not]
    exact ⟨⟨⟨⟨trivial, fits.nonempty⟩, fits.url⟩, short⟩, codec.signed body⟩

theorem now_ok (reads : now clock = .ok current) : 0 ≤ current ∧ current ≤ LAST_ISSUE := by
  unfold now at reads
  split at reads
  · split at reads
    · cases reads
      assumption
    · cases reads
  · split at reads
    · rename_i range
      cases reads
      exact ⟨Int.le_floor.mpr (by exact_mod_cast range.1), by exact_mod_cast (Int.floor_le _).trans range.2⟩
    · cases reads
  · cases reads

/-- The lifetime of a token: a new one from now, or that of the cursor before it while it lasts. -/
inductive Starts (current : Int) : Option CursorPosition → Int → Int → Prop where
  | first : Starts current none current (current + CURSOR_TTL_SECONDS)
  | inherited (lives : Lifetime prior.issuedAt prior.expiresAt) (began : prior.issuedAt ≤ current) (lasts : current < prior.expiresAt) :
      Starts current (some prior) prior.issuedAt prior.expiresAt

theorem lifetime_ok : lifetime current prior = .ok (issued, expires) ↔ Starts current prior issued expires := by
  cases prior with
  | none =>
    simp only [lifetime, pure_ok, Prod.mk.injEq]
    constructor
    · rintro ⟨rfl, rfl⟩
      exact .first
    · intro starts
      cases starts
      exact ⟨rfl, rfl⟩
  | some prior =>
    simp only [lifetime, bind_ok, checkTimes_ok, reject_ok, pure_ok, Prod.mk.injEq, Bool.not_eq_false', Bool.and_eq_true, decide_eq_true_eq]
    constructor
    · rintro ⟨_, lives, _, ⟨began, lasts⟩, rfl, rfl⟩
      exact .inherited lives began lasts
    · intro starts
      cases starts with
      | inherited lives began lasts => exact ⟨(), lives, (), ⟨began, lasts⟩, rfl, rfl⟩

theorem Starts.lives (starts : Starts current prior issued expires) (reads : now clock = .ok current) : Lifetime issued expires := by
  cases starts with
  | first =>
    obtain ⟨start, last⟩ := now_ok reads
    exact ⟨start, last, by omega⟩
  | inherited lives _ _ => exact lives

structure Issued (codec : Codec) (binding revision : PyStr) (after : Position) (issued expires : Int) (token : List Char) : Prop where
  bound : isSha binding = true
  revised : isSha revision = true
  admitted : after.admitted = true
  lives : Lifetime issued expires
  text : ∃ raw, encodeValue cursorStyle (payload binding revision after issued expires) = some raw ∧ raw.length ≤ MAX_PAYLOAD_BYTES ∧
    token = tokenOf codec (url64 (asciiBytes raw))

theorem payload_ascii (encoded : encodeValue cursorStyle (payload binding revision after issued expires) = some raw) : Ascii raw ∧ raw ≠ [] := by
  have noFloats : ∀ literal text, cursorStyle.float literal = some text → Ascii text := by
    intro literal text printed
    cases printed
  refine ⟨ascii_encodeValue (fun _ _ escaped => ascii_escapeAscii escaped) noFloats _ raw encoded, ?_⟩
  rintro rfl
  rw [payload_eq, payloadFields, encodeValue] at encoded
  simp [Option.bind_eq_some_iff] at encoded

theorem fits_payload (codec : Codec) (encoded : encodeValue cursorStyle (payload binding revision after issued expires) = some raw)
    (short : raw.length ≤ MAX_PAYLOAD_BYTES) : Fits codec (url64 (asciiBytes raw)) := by
  have size := length_url64 (asciiBytes raw)
  rw [length_asciiBytes] at size
  have limit : MAX_PAYLOAD_BYTES = 1024 := rfl
  refine ⟨?_, isUrl64_url64 _, by omega⟩
  intro empty
  rw [empty, List.length_nil] at size
  exact (payload_ascii encoded).2 (List.length_eq_zero_iff.mp (by omega))

/-- The token that `encode` gives, and when it gives one. -/
theorem encode_ok : encode codec clock binding revision after prior = .ok token ↔
    ∃ current issued expires, now clock = .ok current ∧ Starts current prior issued expires ∧ Issued codec binding revision after issued expires token := by
  simp only [encode, bind_ok, reject_ok, fetch_ok, pure_ok, Bool.or_eq_false_iff, Bool.not_eq_false', decide_eq_false_iff_not, not_lt, Prod.exists,
    lifetime_ok, length_asciiBytes]
  constructor
  · rintro ⟨_, ⟨⟨bound, revised⟩, admitted⟩, current, reads, issued, expires, starts, raw, encoded, _, short, _, _, rfl⟩
    exact ⟨current, issued, expires, reads, starts, bound, revised, admitted, starts.lives reads, raw, encoded, short, rfl⟩
  · rintro ⟨current, issued, expires, reads, starts, bound, revised, admitted, _, raw, encoded, short, rfl⟩
    refine ⟨(), ⟨⟨bound, revised⟩, admitted⟩, current, reads, issued, expires, starts, raw, encoded, (), short, (), ?_, rfl⟩
    have size := length_url64 (asciiBytes raw)
    have signature := (sign_spec codec (url64 (asciiBytes raw))).1
    rw [length_asciiBytes] at size
    have limits : MAX_PAYLOAD_BYTES = 1024 ∧ MAX_TOKEN_BYTES = 2048 := ⟨rfl, rfl⟩
    simp only [tokenOf, TOKEN_PREFIX, List.length_append, List.length_cons, List.length_nil, signature]
    omega

/-- Reading the body of an issued token gives what it was made of, with halves of characters joined. -/
theorem readBody_issued (bound : isSha binding = true) (revised : isSha revision = true) (admitted : after.admitted = true)
    (lives : Lifetime issued expires) (encoded : encodeValue cursorStyle (payload binding revision after issued expires) = some raw)
    (short : raw.length ≤ MAX_PAYLOAD_BYTES) :
    readBody codec (url64 (asciiBytes raw)) = .ok ⟨binding, revision, issued, expires, after.read⟩ := by
  have lawful : cursorHooks.Lawful := fun fields distinct => if_pos distinct
  have printable : Printable cursorStyle codec.depth (payload binding revision after issued expires) :=
    printable_payload bound revised admitted lives codec.room
  have loaded := loads_encode lawful printable encoded
  rw [reprint_payload bound revised (admitted_spec admitted).2.2] at loaded
  have contents := readFields_payload bound revised (Position.read_admitted admitted) lives
  simp only [readBody, bind_ok, fetch_ok, reject_ok, mapError_ok, Bool.or_eq_false_iff, decide_eq_false_iff_not, not_lt, ne_eq, not_not]
  exact ⟨_, b64decode_url64 _, (), ⟨by rwa [length_asciiBytes], rfl⟩, raw, utf8Text_asciiBytes (payload_ascii encoded).1, _, loaded, contents⟩

/-- An issued token is accepted with its own binding and revision while it lasts, and says what it was made of. -/
theorem Issued.decode_ok (made : Issued codec binding revision after issued expires token) {actual : PyStr} {current : PyStr} :
    decode codec clock token actual current = .ok position ↔
      actual = binding ∧ current = revision ∧ position = ⟨issued, expires, after.read⟩ ∧
      ∃ time, now clock = .ok time ∧ issued ≤ time ∧ time < expires := by
  obtain ⟨bound, revised, admitted, lives, raw, encoded, short, rfl⟩ := made
  have authentic := authenticate_tokenOf (fits_payload codec encoded short)
  have contents : readBody codec (url64 (asciiBytes raw)) = .ok ⟨binding, revision, issued, expires, after.read⟩ :=
    readBody_issued bound revised admitted lives encoded short
  simp only [decode, bind_ok, reject_ok, pure_ok, Bool.or_eq_false_iff, Bool.not_eq_false', Bool.and_eq_true, decide_eq_true_eq,
    decide_eq_false_iff_not, ne_eq, not_not]
  constructor
  · rintro ⟨_, _, body, authenticated, read, found, _, same, time, reads, _, ⟨⟨began, lasts⟩, same'⟩, rfl⟩
    cases authentic.symm.trans authenticated
    cases contents.symm.trans found
    exact ⟨same.symm, same'.symm, rfl, time, reads, began, lasts⟩
  · rintro ⟨rfl, rfl, rfl, time, reads, began, lasts⟩
    exact ⟨(), ⟨bound, revised⟩, _, authentic, _, contents, (), rfl, time, reads, (), ⟨⟨began, lasts⟩, rfl⟩, rfl⟩

/-- The tokens that follow from one another, each made after the one before it was read, at whatever times and for whatever queries. -/
inductive Chain (codec : Codec) (start : Int) : List Char → Prop where
  | first (reads : now clock = .ok start) (made : encode codec clock query source place none = .ok token) : Chain codec start token
  | next (before : Chain codec start token) (read : decode codec clock token query source = .ok position)
      (made : encode codec later query' source' place' (some position) = .ok token') : Chain codec start token'

theorem Chain.issued (chain : Chain codec start token) :
    ∃ binding revision after, Issued codec binding revision after start (start + CURSOR_TTL_SECONDS) token := by
  induction chain with
  | first reads made =>
    obtain ⟨current, issued, expires, reads', starts, whole⟩ := encode_ok.mp made
    cases reads.symm.trans reads'
    cases starts
    exact ⟨_, _, _, whole⟩
  | next before read made ih =>
    obtain ⟨binding, revision, after, whole⟩ := ih
    obtain ⟨_, _, rfl, _⟩ := whole.decode_ok.mp read
    obtain ⟨current, issued, expires, _, starts, later⟩ := encode_ok.mp made
    cases starts
    exact ⟨_, _, _, later⟩

/-- Whoever does not hold the key presents a body with its signature only where the codec signed that body. -/
def Unforgeable (codec : Codec) (bodies : List (List Char)) (token : List Char) : Prop :=
  ∀ body, token = tokenOf codec body → body ∈ bodies

theorem authenticate_error (failed : authenticate codec token = .error raised) : raised = .invalid := by
  unfold authenticate at failed
  rcases bind_error.mp failed with refused | ⟨_, _, failed⟩
  · exact (reject_error.mp refused).2.symm
  · split at failed
    · rcases bind_error.mp failed with refused | ⟨_, _, failed⟩
      · exact (reject_error.mp refused).2.symm
      · rcases bind_error.mp failed with refused | ⟨_, _, failed⟩
        · exact (reject_error.mp refused).2.symm
        · cases failed
    · cases failed
      rfl

theorem decode_unsigned (unforgeable : Unforgeable codec bodies token) (changed : ∀ body ∈ bodies, token ≠ tokenOf codec body)
    (clock : Reading) (query source : PyStr) : decode codec clock token query source = .error .invalid := by
  have refused : authenticate codec token = .error .invalid := by
    cases authentic : authenticate codec token with
    | ok body =>
      have same := authenticate_token authentic
      exact absurd same (changed body (unforgeable body same))
    | error failure => rw [authenticate_error authentic]
  rw [decode, bind_error]
  cases checked : reject (!isSha query || !isSha source) Failure.invalid with
  | error failure => exact .inl (by rw [(reject_error.mp checked).2])
  | ok done => exact .inr ⟨done, rfl, bind_error.mpr (.inl refused)⟩

/-- The payload of a position, with its escapes, fits into a token. -/
def PayloadFits (binding revision : PyStr) (after : Position) (issued expires : Int) : Prop :=
  ∃ raw, encodeValue cursorStyle (payload binding revision after issued expires) = some raw ∧ raw.length ≤ MAX_PAYLOAD_BYTES

theorem payloadFits_iff (bound : isSha binding = true) (revised : isSha revision = true) (named : isId after.aid = true) :
    PayloadFits binding revision after issued expires ↔ ∃ created, escapeAll cursorStyle after.created = some created ∧
      overhead issued expires + created.length + after.aid.length ≤ MAX_PAYLOAD_BYTES := by
  obtain ⟨created, raw, escaped, encoded, size⟩ := @payload_length binding revision after issued expires bound revised named
  constructor
  · rintro ⟨raw', encoded', short⟩
    cases encoded.symm.trans encoded'
    exact ⟨created, escaped, by omega⟩
  · rintro ⟨created', escaped', short⟩
    cases escaped.symm.trans escaped'
    exact ⟨raw, encoded, by omega⟩

theorem Lifetime.overhead_le (lives : Lifetime issued expires) : overhead issued expires ≤ 224 := by
  have digits := lives.digits
  obtain ⟨start, _, span⟩ := lives
  simp only [CURSOR_TTL_SECONDS] at span
  have whole (value : Int) (positive : 0 ≤ value) : encodeInt value = Nat.toDigits 10 value.natAbs := if_neg (by omega)
  rw [overhead, whole issued start, whole expires (by omega)]
  omega

theorem payloadFits_basic (bound : isSha binding = true) (revised : isSha revision = true) (admitted : after.admitted = true)
    (lives : Lifetime issued expires) (basic : ∀ point ∈ after.created, point < 0x10000) : PayloadFits binding revision after issued expires := by
  obtain ⟨few, _, named⟩ := admitted_spec admitted
  obtain ⟨created, escaped⟩ := escapeAscii_total after.created
  refine (payloadFits_iff bound revised named).mpr ⟨created, escaped, ?_⟩
  have size := length_escapeAll_basic basic escaped
  have long := (isId_spec named).1
  have names := lives.overhead_le
  have limit : MAX_PAYLOAD_BYTES = 1024 := rfl
  omega

/-- An admitted position whose payload fits, and whose time spells no character by its halves, is read back from its token,
with the lifetime of the cursor before it; all tokens of a chain end with the lifetime of the first; and a token is refused where
its body or signature was changed, and for another binding or revision. -/
theorem cursors_exact (codec : Codec) :
    (∀ clock current prior issued expires binding revision after, now clock = .ok current → Starts current prior issued expires →
      isSha binding = true → isSha revision = true → after.admitted = true → PayloadFits binding revision after issued expires →
      Unpaired after.created → ∃ token, encode codec clock binding revision after prior = .ok token ∧
        ∀ later time, now later = .ok time → issued ≤ time → time < expires →
          decode codec later token binding revision = .ok ⟨issued, expires, after⟩) ∧
    (∀ binding revision after issued expires, isSha binding = true → isSha revision = true → after.admitted = true → Lifetime issued expires →
      (∀ point ∈ after.created, point < 0x10000) → PayloadFits binding revision after issued expires) ∧
    (∀ start token, Chain codec start token → ∀ clock query source,
      (∀ position, decode codec clock token query source = .ok position →
        position.issuedAt = start ∧ position.expiresAt = start + CURSOR_TTL_SECONDS) ∧
      ∀ time, now clock = .ok time → start + CURSOR_TTL_SECONDS ≤ time → ∃ failure, decode codec clock token query source = .error failure) ∧
    (∀ bodies token, Unforgeable codec bodies token → (∀ body ∈ bodies, token ≠ tokenOf codec body) →
      ∀ clock query source, decode codec clock token query source = .error .invalid) ∧
    ∀ clock binding revision after prior token, encode codec clock binding revision after prior = .ok token →
      ∀ later query source, query ≠ binding ∨ source ≠ revision → ∃ failure, decode codec later token query source = .error failure := by
  refine ⟨?_, ?_, ?_, fun bodies token unforgeable changed => decode_unsigned unforgeable changed, ?_⟩
  · intro clock current prior issued expires binding revision after reads starts bound revised admitted fits unpaired
    obtain ⟨raw, encoded, short⟩ := fits
    have made : Issued codec binding revision after issued expires (tokenOf codec (url64 (asciiBytes raw))) :=
      ⟨bound, revised, admitted, starts.lives reads, raw, encoded, short, rfl⟩
    refine ⟨_, encode_ok.mpr ⟨current, issued, expires, reads, starts, made⟩, ?_⟩
    intro later time reads' began lasts
    refine made.decode_ok.mpr ⟨rfl, rfl, ?_, time, reads', began, lasts⟩
    rw [Position.read_unpaired unpaired]
  · intro binding revision after issued expires bound revised admitted lives basic
    exact payloadFits_basic bound revised admitted lives basic
  · intro start token chain clock query source
    obtain ⟨binding, revision, after, made⟩ := chain.issued
    constructor
    · intro position read
      obtain ⟨_, _, rfl, _⟩ := made.decode_ok.mp read
      exact ⟨rfl, rfl⟩
    · intro time reads late
      cases read : decode codec clock token query source with
      | error failure => exact ⟨failure, rfl⟩
      | ok position =>
        obtain ⟨_, _, _, time', reads', _, lasts⟩ := made.decode_ok.mp read
        cases reads.symm.trans reads'
        omega
  · intro clock binding revision after prior token encoded later query source other
    obtain ⟨current, issued, expires, _, _, made⟩ := encode_ok.mp encoded
    cases read : decode codec later token query source with
    | error failure => exact ⟨failure, rfl⟩
    | ok position =>
      obtain ⟨same, same', _⟩ := made.decode_ok.mp read
      exact absurd other (by simp [same, same'])

/-- A codec whose signature is that of the body below, under a key of 32 zero bytes. -/
def zeroCodec : Codec where
  sign _ := "d0af8602b6cc6bd1e9151122e67a285d670154af98cc8cb73092a3bd509ed424".toList
  signed _ := by decide
  depth := 2
  room := Nat.le_refl 2

def someBinding : PyStr := List.replicate 64 97
def someRevision : PyStr := List.replicate 64 98
def somePosition : Position := ⟨pyStr "2026-01-01T00:00:00Z", pyStr "asset_1"⟩

theorem cursors_exact_zero :
    (∃ token, encode zeroCodec (.int 1000) someBinding someRevision somePosition none = .ok token ∧
      decode zeroCodec (.int 1899) token someBinding someRevision = .ok ⟨1000, 1900, somePosition⟩ ∧
      (∃ failure, decode zeroCodec (.int 1900) token someBinding someRevision = .error failure) ∧
      ∃ failure, decode zeroCodec (.int 1000) token someRevision someRevision = .error failure) ∧
    decode zeroCodec (.int 1000) (TOKEN_PREFIX ++ '.' :: ['e', 'y'] ++ '.' :: List.replicate 64 '0') someBinding someRevision = .error .invalid := by
  have sha : isSha someBinding = true ∧ isSha someRevision = true := ⟨by decide, by decide⟩
  have admitted : somePosition.admitted = true := by decide
  have lives : Lifetime 1000 1900 := ⟨by decide, by decide, by decide⟩
  obtain ⟨exactly, basic, chains, forged, other⟩ := cursors_exact zeroCodec
  have small : ∀ point ∈ somePosition.created, point < 0xD800 := by decide
  have fits := basic someBinding someRevision somePosition 1000 1900 sha.1 sha.2 admitted lives fun point member =>
    Nat.lt_trans (small point member) (by decide)
  have unpaired : Unpaired somePosition.created := by
    refine List.Pairwise.isChain (List.pairwise_of_forall_mem_list ?_)
    intro one member two _ paired
    have below := small one member
    simp only [isHighSurrogate, Bool.and_eq_true, decide_eq_true_eq] at paired
    omega
  constructor
  · obtain ⟨token, made, read⟩ := exactly (.int 1000) 1000 none 1000 1900 someBinding someRevision somePosition rfl .first sha.1 sha.2 admitted fits unpaired
    refine ⟨token, made, read (.int 1899) 1899 rfl (by decide) (by decide), ?_, ?_⟩
    · exact (chains 1000 token (.first rfl made) (.int 1900) someBinding someRevision).2 1900 rfl (by decide)
    · exact other _ _ _ _ _ token made (.int 1000) someRevision someRevision (.inl (by decide))
  · refine forged [] _ ?_ (List.forall_mem_nil _) _ _ _
    intro body same
    have signatures : '.' :: List.replicate 64 '0' = '.' :: zeroCodec.sign body := List.append_inj_right' same rfl
    have first : (zeroCodec.sign body).head? = some 'd' := rfl
    rw [← (List.cons.inj signatures).2] at first
    exact absurd first (by decide)

/-- 80 characters beyond the Basic Multilingual Plane, and a long name. -/
def longPosition : Position := ⟨List.replicate 80 0x1F600, List.replicate 240 97⟩

/-- One such character by its two halves. -/
def halvedPosition : Position := ⟨[0xD83D, 0xDE00], pyStr "asset_1"⟩

/-- Not every admitted position has a token, and not every token gives back its position. -/
theorem not_every_position :
    (¬ ∀ (codec : Codec) (clock : Reading) (current : Int) (binding revision : PyStr) (after : Position), now clock = .ok current →
      isSha binding = true → isSha revision = true → after.admitted = true →
      ∃ token, encode codec clock binding revision after none = .ok token) ∧
    ¬ ∀ (codec : Codec) (clock : Reading) (current : Int) (binding revision : PyStr) (after : Position) (token : List Char), now clock = .ok current →
      after.admitted = true → encode codec clock binding revision after none = .ok token →
      decode codec clock token binding revision = .ok ⟨current, current + CURSOR_TTL_SECONDS, after⟩ := by
  have sha : isSha someBinding = true ∧ isSha someRevision = true := ⟨by decide, by decide⟩
  constructor
  · intro total
    obtain ⟨token, made⟩ := total zeroCodec (.int 1000) 1000 someBinding someRevision longPosition rfl sha.1 sha.2 (by decide +kernel)
    obtain ⟨current, issued, expires, _, _, _, _, _, _, raw, encoded, short, _⟩ := encode_ok.mp made
    obtain ⟨created, escaped, fits⟩ := (payloadFits_iff sha.1 sha.2 (by decide +kernel)).mp ⟨raw, encoded, short⟩
    have long : (escapeAll cursorStyle longPosition.created).map List.length = some 960 := by decide +kernel
    rw [escaped, Option.map_some, Option.some.injEq] at long
    have name : longPosition.aid.length = 240 := rfl
    have limit : MAX_PAYLOAD_BYTES = 1024 := rfl
    omega
  · intro exact_
    have lives : Lifetime 1000 1900 := ⟨by decide, by decide, by decide⟩
    have admitted : halvedPosition.admitted = true := by decide
    obtain ⟨raw, encoded, short⟩ := payloadFits_basic sha.1 sha.2 admitted lives (by decide)
    have made : Issued zeroCodec someBinding someRevision halvedPosition 1000 1900 (tokenOf zeroCodec (url64 (asciiBytes raw))) :=
      ⟨sha.1, sha.2, admitted, lives, raw, encoded, short, rfl⟩
    have read := exact_ zeroCodec (.int 1000) 1000 someBinding someRevision halvedPosition _ rfl admitted
      (encode_ok.mpr ⟨1000, 1000, 1900, rfl, .first, made⟩)
    obtain ⟨_, _, same, _⟩ := made.decode_ok.mp read
    exact absurd (congrArg (fun position => position.after.created) same) (by decide)

end NovelStudio.Cursors
