import NovelStudio.Endpoints.Spellings

/-! Admission of a provider endpoint: the URL is split, its host is brought to the text the resolver
would dial, and an address in a restricted class is refused in every spelling but one. -/

namespace NovelStudio.Endpoints

open Library

/-- What the Unicode database and the `idna` codec do to a text. -/
structure Unicode where
  lower : List Char → List Char
  nfkc : List Char → List Char
  idna : List Char → Option (List Char)

/-- Why an endpoint is refused: a `ValueError` of the URL parser, or the rejection of the source. -/
inductive Rejected where
  | malformed
  | endpoint (text : String)
deriving DecidableEq

structure SplitResult where
  scheme : List Char
  netloc : List Char
  path : List Char
  query : List Char
  fragment : List Char
deriving DecidableEq

def isAscii (text : List Char) : Bool := text.all fun char => char.toNat < 128

def isAsciiAlpha (char : Char) : Bool := (65 ≤ char.toNat && char.toNat ≤ 90) || (97 ≤ char.toNat && char.toNat ≤ 122)

/-- `char in scheme_chars`. -/
def isSchemeChar (char : Char) : Bool := isAsciiAlpha char || DIGITS.contains char || char == '+' || char == '-' || char == '.'

/-- The scheme before the first colon, where one stands there, and the rest. -/
def splitScheme (unicode : Unicode) (url : List Char) : List Char × List Char :=
  match partition ':' url with
  | (_, none) => ([], url)
  | (scheme, some rest) =>
    if (scheme.head?.map isAsciiAlpha).getD false && scheme.all isSchemeChar then (unicode.lower scheme, rest) else ([], url)

/-- `text.rpartition(mark)`: what stands behind the last mark, and what stands before it where there is one. -/
def rpartition (mark : Char) (text : List Char) : Option (List Char) × List Char :=
  let (back, front) := partition mark text.reverse
  (front.map List.reverse, back.reverse)

/-- `v[a-fA-F0-9]+\..+` from the first character on. -/
def isFuture (hostname : List Char) : Bool :=
  match partition '.' (hostname.drop 1) with
  | (version, some rest) => !version.isEmpty && version.all HEX_DIGITS.contains && !rest.isEmpty && !rest.contains '\n'
  | (_, none) => false

/-- `_check_bracketed_host`. -/
def bracketedHost (hostname : List Char) : Bool :=
  if hostname.head? = some 'v' then isFuture hostname
  else match ipAddress hostname with
    | some (.v6 _) => true
    | _ => false

/-- `_checknetloc`: no character turns into a delimiter when the text is normalized. -/
def checkNetloc (unicode : Unicode) (netloc : List Char) : Bool :=
  if netloc.isEmpty || isAscii netloc then true
  else
    let plain := netloc.filter fun char => !"@:#?".toList.contains char
    unicode.nfkc plain == plain || !"/?#@:".toList.any (unicode.nfkc plain).contains

/-- The netloc behind `//` and the rest. -/
def splitNetloc (url : List Char) : List Char × List Char :=
  if url.take 2 = ['/', '/'] then
    ((url.drop 2).takeWhile fun char => !"/?#".toList.contains char, (url.drop 2).dropWhile fun char => !"/?#".toList.contains char)
  else ([], url)

/-- `urllib.parse.urlsplit`. -/
def urlsplit (unicode : Unicode) (text : List Char) : Except Rejected SplitResult := do
  let url := (text.dropWhile fun char => char.toNat ≤ 32).filter fun char => !"\t\r\n".toList.contains char
  let (scheme, url) := splitScheme unicode url
  let (netloc, url) := splitNetloc url
  if netloc.contains '[' != netloc.contains ']' then throw .malformed
  if netloc.contains '[' && !bracketedHost (partition ']' ((partition '[' netloc).2.getD [])).1 then throw .malformed
  let (url, fragment) := partition '#' url
  let (path, query) := partition '?' url
  if !checkNetloc unicode netloc then throw .malformed
  return { scheme, netloc, path, query := query.getD [], fragment := fragment.getD [] }

/-- `username` and `password`, where the netloc has them. -/
def SplitResult.userinfo (parsed : SplitResult) : Option (List Char) × Option (List Char) :=
  match rpartition '@' parsed.netloc with
  | (none, _) => (none, none)
  | (some userinfo, _) => (some (partition ':' userinfo).1, (partition ':' userinfo).2)

/-- `hostname`, `None` as the empty text. -/
def SplitResult.hostname (unicode : Unicode) (parsed : SplitResult) : List Char :=
  let hostinfo := (rpartition '@' parsed.netloc).2
  let hostname := match (partition '[' hostinfo).2 with
    | some bracketed => (partition ']' bracketed).1
    | none => (partition ':' hostinfo).1
  if hostname.isEmpty then []
  else match partition '%' hostname with
    | (host, none) => unicode.lower host
    | (host, some zone) => unicode.lower host ++ '%' :: zone

def resolverHost (unicode : Unicode) (host : List Char) : Except Rejected (List Char) :=
  if isAscii host then .ok host
  else match unicode.idna host with
    | none => .error (.endpoint "provider endpoint host is not resolvable")
    | some encoded =>
      if encoded.isEmpty || !isAscii encoded then .error (.endpoint "provider endpoint host is not resolvable") else .ok encoded

/-- `text.rstrip('.')`. -/
def rstripDots (text : List Char) : List Char := (text.reverse.dropWhile (· == '.')).reverse

/-- An http address with a host and nothing beside it that names a user or a fragment. -/
def SplitResult.WellFormed (unicode : Unicode) (parsed : SplitResult) : Prop :=
  (unicode.lower parsed.scheme = "http".toList ∨ unicode.lower parsed.scheme = "https".toList) ∧ parsed.hostname unicode ≠ [] ∧
    parsed.userinfo.1.getD [] = [] ∧ parsed.userinfo.2.getD [] = [] ∧ parsed.fragment = []

instance (unicode : Unicode) (parsed : SplitResult) : Decidable (parsed.WellFormed unicode) := by
  unfold SplitResult.WellFormed
  infer_instance

/-- `getattr(address, 'ipv4_mapped', None) or address`: an address object is true even where its value is zero. -/
def Address.effective (address : Address) : Address := (address.ipv4Mapped.map .v4).getD address

def Address.refused (address : Address) : Bool :=
  address.isLinkLocal || address.isMulticast || address.isUnspecified || (address.isReserved && !address.isLoopback)

/-- What a host that was brought to the resolver's text is answered with. -/
def admitHost (stripped normalized : List Char) : Except Rejected (List Char) :=
  match ipAddress normalized with
  | none =>
    if PROVIDER_LEGACY_NUMERIC_HOST.rmatch normalized then .error (.endpoint "provider endpoint address is not allowed") else .ok stripped
  | some address => if address.effective.refused then .error (.endpoint "provider endpoint address is not allowed") else .ok stripped

/-- `str.strip`. -/
def stripText (text : List Char) : List Char := stripBy isSpace text

def validateProviderEndpoint (unicode : Unicode) (url : List Char) : Except Rejected (List Char) := do
  let parsed ← urlsplit unicode (stripText url)
  if ¬parsed.WellFormed unicode then throw (.endpoint "invalid provider endpoint")
  let host ← resolverHost unicode (stripText (parsed.hostname unicode))
  admitHost (stripText url) (rstripDots host)

/-- The host of a URL after the `idna` step and without trailing dots. -/
def normalizedHost (unicode : Unicode) (url : List Char) : Option (List Char) :=
  match urlsplit unicode (stripText url) with
  | .error _ => none
  | .ok parsed =>
    match resolverHost unicode (stripText (parsed.hostname unicode)) with
    | .error _ => none
    | .ok host => some (rstripDots host)

/-- The host is an IPv4 address in some spelling of `inet_aton`, or an IPv6 literal that maps one. -/
def Denotes (host : List Char) (address : Nat) : Prop :=
  inetAton host = some address ∨ ∃ value, ipv6Address host = some value ∧ (Address.v6 value).ipv4Mapped = some address

/-- The URL is one that is admitted where its host is no restricted address. -/
def WellFormedUrl (unicode : Unicode) (url : List Char) : Prop :=
  ∃ parsed, urlsplit unicode (stripText url) = .ok parsed ∧ parsed.WellFormed unicode

theorem refused_restricted {value : Nat} : (Address.v4 value).refused = true ↔ (Address.v4 value).Restricted := by
  unfold Address.refused Address.Restricted
  simp only [Bool.or_eq_true, Bool.and_eq_true, Bool.not_eq_true', or_assoc]
  constructor
  · intro refused
    rcases refused with here | here | here | here
    · exact Or.inl here
    · exact Or.inr (Or.inl here)
    · exact Or.inr (Or.inr (Or.inl here))
    · exact Or.inr (Or.inr (Or.inr here.1))
  · intro restricted
    rcases restricted with here | here | here | here
    · exact Or.inl here
    · exact Or.inr (Or.inl here)
    · exact Or.inr (Or.inr (Or.inl here))
    · exact Or.inr (Or.inr (Or.inr ⟨here, reserved_no_loopback here⟩))

theorem validate_refuses {unicode : Unicode} {url host : List Char} (reached : normalizedHost unicode url = some host) :
    (∃ rejected, validateProviderEndpoint unicode url = .error rejected) ↔
      ¬WellFormedUrl unicode url ∨ ∃ rejected, admitHost (stripText url) host = .error rejected := by
  unfold normalizedHost at reached
  unfold validateProviderEndpoint WellFormedUrl
  cases split : urlsplit unicode (stripText url) with
  | error rejected =>
    rw [split] at reached
    cases reached
  | ok parsed =>
    rw [split] at reached
    cases resolved : resolverHost unicode (stripText (parsed.hostname unicode)) with
    | error rejected =>
      simp only [resolved] at reached
      cases reached
    | ok dialled =>
      simp only [resolved, Option.some.injEq] at reached
      subst reached
      by_cases formed : parsed.WellFormed unicode
      · have whole : ∃ other, Except.ok (ε := Rejected) parsed = .ok other ∧ other.WellFormed unicode := ⟨parsed, rfl, formed⟩
        rw [or_iff_right (not_not.mpr whole)]
        show (∃ rejected, (do
          if ¬parsed.WellFormed unicode then throw (.endpoint "invalid provider endpoint")
          let host ← resolverHost unicode (stripText (parsed.hostname unicode))
          admitHost (stripText url) (rstripDots host)) = Except.error rejected) ↔ _
        rw [if_neg (not_not.mpr formed), resolved]
        rfl
      · have broken : ¬∃ other, Except.ok (ε := Rejected) parsed = .ok other ∧ other.WellFormed unicode := by
          intro whole
          obtain ⟨other, same, well⟩ := whole
          exact formed (Except.ok.inj same ▸ well)
        refine iff_of_true ⟨.endpoint "invalid provider endpoint", ?_⟩ (Or.inl broken)
        show (do
          if ¬parsed.WellFormed unicode then throw (.endpoint "invalid provider endpoint")
          let host ← resolverHost unicode (stripText (parsed.hostname unicode))
          admitHost (stripText url) (rstripDots host)) = Except.error _
        rw [if_pos formed]
        rfl

theorem ipv4Address_decimal {host : List Char} {value : Nat} (read : ipv4Address host = some value) : ¬LaterHexadecimal host := by
  intro later
  obtain ⟨-, part, listed, marked⟩ := later
  unfold ipv4Address at read
  split at read
  · cases read
  split at read
  · cases read
  split at read
  · cases read
  obtain ⟨octets, parsed, -⟩ := Option.map_eq_some_iff.mp read
  obtain ⟨octet, -, here⟩ := exists_result_of_forall₂ (mapM_some.mp parsed) (List.mem_of_mem_tail listed)
  obtain ⟨mark, rest, rfl, letter, -⟩ := partValue_hexadecimal (parseOctet_partValue here).1 marked
  unfold parseOctet at here
  split at here
  · cases here
  rename_i texts
  rw [not_or, not_not] at texts
  have digit := texts.2 mark (List.mem_cons_of_mem _ (List.mem_cons_self ..))
  cases letter with
  | inl small =>
    subst small
    exact absurd digit (by decide)
  | inr large =>
    subst large
    exact absurd digit (by decide)

/-- A host that denotes a restricted address is refused just when none of its later parts is hexadecimal. -/
theorem admitHost_refuses {stripped host : List Char} {address : Nat} (denoted : Denotes host address)
    (restricted : (Address.v4 address).Restricted) :
    (∃ rejected, admitHost stripped host = .error rejected) ↔ ¬LaterHexadecimal host := by
  have refused := refused_restricted.mpr restricted
  unfold admitHost
  cases quad : ipv4Address host with
  | some value =>
    have same : value = address := by
      have spelled := ipv4Address_inetAton quad
      cases denoted with
      | inl first =>
        rw [spelled] at first
        exact Option.some.inj first
      | inr second =>
        obtain ⟨other, literal, -⟩ := second
        rw [inetAton_ipv6Address spelled] at literal
        cases literal
    subst same
    have read : ipAddress host = some (.v4 value) := by rw [ipAddress, quad]
    rw [read]
    refine iff_of_true ⟨.endpoint "provider endpoint address is not allowed", ?_⟩ (ipv4Address_decimal quad)
    exact if_pos refused
  | none =>
    cases denoted with
    | inl spelled =>
      have read : ipAddress host = none := by rw [ipAddress, quad, inetAton_ipv6Address spelled]; rfl
      rw [read, ← legacy_spelled spelled]
      show (∃ rejected, (if PROVIDER_LEGACY_NUMERIC_HOST.rmatch host = true then _ else _) = Except.error rejected) ↔ _
      cases PROVIDER_LEGACY_NUMERIC_HOST.rmatch host with
      | true => exact iff_of_true ⟨_, rfl⟩ rfl
      | false =>
        refine iff_of_false ?_ Bool.false_ne_true
        intro refused
        obtain ⟨rejected, raised⟩ := refused
        cases raised
    | inr mapped =>
      obtain ⟨value, literal, inner⟩ := mapped
      have read : ipAddress host = some (.v6 value) := by rw [ipAddress, quad, literal]; rfl
      have effective : (Address.v6 value).effective = .v4 address := by rw [Address.effective, inner]; rfl
      rw [read]
      refine iff_of_true ⟨.endpoint "provider endpoint address is not allowed", ?_⟩ ?_
      · show (if (Address.v6 value).effective.refused = true then _ else _) = _
        rw [effective]
        exact if_pos refused
      · intro later
        obtain ⟨spelled, -⟩ := later
        obtain ⟨other, spelled⟩ := Option.isSome_iff_exists.mp spelled
        rw [inetAton_ipv6Address spelled] at literal
        cases literal

/-- The address a URL denotes is kept out when it is restricted, unless an otherwise well formed URL spells a part behind the first dot in
hexadecimal. -/
theorem restricted_refused (unicode : Unicode) (url host : List Char) (address : Nat) (reached : normalizedHost unicode url = some host)
    (denoted : Denotes host address) :
    ((Address.v4 address).Restricted → ∃ rejected, validateProviderEndpoint unicode url = .error rejected) ↔
      ¬((Address.v4 address).Restricted ∧ WellFormedUrl unicode url ∧ LaterHexadecimal host) := by
  rw [validate_refuses reached]
  constructor
  · intro kept all
    obtain ⟨restricted, formed, later⟩ := all
    cases kept restricted with
    | inl broken => exact broken formed
    | inr refused => exact (admitHost_refuses denoted restricted).mp refused later
  · intro apart restricted
    by_cases formed : WellFormedUrl unicode url
    · have plain : ¬LaterHexadecimal host := fun later => apart ⟨restricted, formed, later⟩
      exact Or.inr ((admitHost_refuses denoted restricted).mpr plain)
    · exact Or.inl formed

/-- The database on a text of ASCII characters. -/
def asciiUnicode : Unicode where
  lower := List.map Char.toLower
  nfkc := id
  idna := some

/-- The whole address in one octal number is refused. -/
theorem octal_refused :
    ((Address.v4 2852039166).Restricted → ∃ rejected, validateProviderEndpoint asciiUnicode "http://025177524776/".toList = .error rejected) ↔
      ¬((Address.v4 2852039166).Restricted ∧ WellFormedUrl asciiUnicode "http://025177524776/".toList ∧ LaterHexadecimal "025177524776".toList) := by
  apply restricted_refused
  · decide +kernel
  · exact Or.inl (by decide +kernel)

/-- The metadata address with a hexadecimal second part is admitted. -/
theorem hexadecimal_admitted : ¬∀ (unicode : Unicode) (url host : List Char) (address : Nat), normalizedHost unicode url = some host →
    Denotes host address → (Address.v4 address).Restricted → ∃ rejected, validateProviderEndpoint unicode url = .error rejected := by
  intro admission
  have reached : normalizedHost asciiUnicode "http://169.0xfe.169.254/".toList = some "169.0xfe.169.254".toList := by decide +kernel
  have spelled : inetAton "169.0xfe.169.254".toList = some 0xA9FEA9FE := by decide +kernel
  have admitted : validateProviderEndpoint asciiUnicode "http://169.0xfe.169.254/".toList = .ok "http://169.0xfe.169.254/".toList := by
    decide +kernel
  obtain ⟨rejected, raised⟩ := admission asciiUnicode _ _ _ reached (Or.inl spelled) (Or.inl (by decide))
  rw [admitted] at raised
  cases raised

end NovelStudio.Endpoints
