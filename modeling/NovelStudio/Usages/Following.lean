import NovelStudio.Usages.Pages

/-! Calls that follow `next_cursor` from the first page on. -/

namespace NovelStudio.Usages

open Library Experimental Resumption

variable {request : Request} {bytes : Bytes Page} {source : Pin} {listing : List Entry} {documents : List Document} {owners : List Owner}
  {incarnation name : String} {calls : Nat → Call}

/-- Each call after the first is made under the token of the page before it, which the token table still keeps. -/
structure Following (request : Request) (bytes : Bytes Page) (calls : Nat → Call) : Prop where
  first : (calls 0).cursor = none
  next : ∀ n page tokens cursor, pagedUsages request bytes (calls n) = .ok (page, tokens) → page.nextCursor = some cursor →
    (calls (n + 1)).cursor = some cursor ∧ (calls (n + 1)).loadingTokens.get? cursor = tokens.get? cursor

/-- No token expires: all is done within its time from the beginning of the first call on. -/
def Lasting (calls : Nat → Call) : Prop :=
  ∀ n, (calls n).loading < (calls 0).beginning + TOKEN_TTL ∧ (calls n).issuing < (calls 0).beginning + TOKEN_TTL

def itemsOf : Except Failure (Page × Tokens) → List Reference
  | .ok (page, _) => page.items
  | .error _ => []

/-- What the calls before one have shown. -/
def shownBefore (request : Request) (bytes : Bytes Page) (calls : Nat → Call) (n : Nat) : List Reference :=
  (List.range n).flatMap fun k => itemsOf (pagedUsages request bytes (calls k))

theorem shownBefore_succ (n : Nat) : shownBefore request bytes calls (n + 1) =
    shownBefore request bytes calls n ++ itemsOf (pagedUsages request bytes (calls n)) := by
  simp [shownBefore, List.range_succ]

/-- The world of every call, at each of its moments, is the one of a listing. -/
def AllStill (request : Request) (owners : List Owner) (incarnation : String) (source : Pin) (listing : List Entry) (documents : List Document)
    (calls : Nat → Call) : Prop :=
  ∀ n, ∀ world ∈ [(calls n).before, (calls n).verifying, (calls n).returning], Still request owners incarnation source listing documents world

/-- A call from which on pages are followed. -/
structure At (request : Request) (owners : List Owner) (incarnation name : String) (source : Pin) (listing : List Entry) (documents : List Document)
    (bytes : Bytes Page) (calls : Nat → Call) (n : Nat) (saved : Option Saved) : Prop where
  query : checkQuery request (calls n).cursor = .ok ()
  begun : begin (calls n) (bindingOf request incarnation name owners) = .ok saved
  kept : Kept request source listing documents (bindingOf request incarnation name owners) (shownBefore request bytes calls n) saved
  expires : expiryOf (calls n).beginning saved = (calls 0).beginning + TOKEN_TTL

variable {call : Call} {cursor : String} {token : Saved}

theorem begin_token {binding : Binding} (under : call.cursor = some cursor)
    (stored : call.loadingTokens.get? cursor = some token) (live : call.loading < token.expires) (bound : token.binding = binding) :
    begin call binding = .ok (some token) := by
  have alive : (call.loadingTokens.live call.loading).get? cursor = some token :=
    Dict.get?_filterValues.mpr ⟨stored, decide_eq_true live⟩
  subst bound
  rw [begin, under]
  simp only [load, alive, fetch, pure_bind, ne_eq, not_true_eq_false, decide_false]
  rfl

theorem checkQuery_token {cursor : Option String} {token : String} (query : checkQuery request cursor = .ok ()) (formed : isToken token = true) :
    checkQuery request (some token) = .ok () := by
  simp only [checkQuery, bind_ok, reject_ok] at query ⊢
  obtain ⟨_, limits, _⟩ := query
  exact ⟨(), limits, by simp [formed]⟩

/-- The last of some pages: with it all the references are shown, and it counts them. Or a call that meets a bound of the code. -/
inductive Ended (request : Request) (bytes : Bytes Page) (source : Pin) (documents : List Document) (calls : Nat → Call) (last : Nat) : Prop where
  | complete (page : Page) (tokens : Tokens) (returned : pagedUsages request bytes (calls last) = .ok (page, tokens)) (final : page.nextCursor = none)
      (whole : shownBefore request bytes calls (last + 1) = matching request source (documents.map positions))
      (total : page.total = some (matching request source (documents.map positions)).length)
  | stopped (raised : pagedUsages request bytes (calls last) = .error exhausted)
      (limit : Exhausted request bytes source documents (shownBefore request bytes calls last) (calls last))

def Continues (request : Request) (bytes : Bytes Page) (call : Call) : Prop :=
  ∃ page tokens, pagedUsages request bytes call = .ok (page, tokens) ∧ page.nextCursor = some call.drawn ∧ page.total = none

theorem At.follow (chosen : Usages.owners request = .ok (name, owners)) (still : AllStill request owners incarnation source listing documents calls)
    (following : Following request bytes calls) (lasting : Lasting calls) (tokens : ∀ n, isToken (calls n).drawn = true) :
    ∀ (left : Nat) {n : Nat} {saved : Option Saved}, At request owners incarnation name source listing documents bytes calls n saved →
      steps documents saved < left →
      ∃ last, (∀ k, n ≤ k → k < last → Continues request bytes (calls k)) ∧ Ended request bytes source documents calls last := by
  intro left
  induction left with
  | zero =>
    intro n saved _ few
    exact absurd few (Nat.not_lt_zero _)
  | succ left ih =>
    intro n saved here few
    have outcome : Outcome request bytes source listing documents (bindingOf request incarnation name owners) (shownBefore request bytes calls n)
        (calls n) saved (pagedUsages request bytes (calls n)) := by
      apply pagedUsages_still (still n _ (by simp)) (still n _ (by simp)) (still n _ (by simp)) here.query chosen here.begun here.kept
      rw [here.expires]
      exact (lasting n).2
    generalize returned : pagedUsages request bytes (calls n) = result at outcome
    cases outcome with
    | last page final whole total =>
      refine ⟨n, fun k above beneath => absurd above (not_le.mpr beneath), .complete page _ returned final ?_ total⟩
      rw [shownBefore_succ, returned]
      exact whole
    | stopped limit => exact ⟨n, fun k above beneath => absurd above (not_le.mpr beneath), .stopped returned limit⟩
    | more page table next cursor stored kept fewer expires unknown =>
      obtain ⟨under, keeps⟩ := following.next n page table _ returned cursor
      have alive : next.expires = (calls 0).beginning + TOKEN_TTL := expires.trans here.expires
      have later : At request owners incarnation name source listing documents bytes calls (n + 1) (some next) := by
        refine ⟨?_, begin_token under (keeps.trans stored) ?_ (kept.bound next rfl).1, ?_, alive⟩
        · rw [under]
          exact checkQuery_token here.query (tokens n)
        · rw [alive]
          exact (lasting (n + 1)).1
        · rw [shownBefore_succ, returned]
          exact kept
      obtain ⟨last, between, ended⟩ := ih later (by omega)
      refine ⟨last, ?_, ended⟩
      intro k above beneath
      rcases Nat.eq_or_lt_of_le above with rfl | above
      · exact ⟨page, table, returned, cursor, unknown⟩
      · exact between k above beneath

/-- Pages that follow one another in a still world show all the references that match, each once and in order, and the last
page counts them; as far as no call meets a bound of the code. -/
theorem follow_complete (chosen : Usages.owners request = .ok (name, owners)) (query : checkQuery request none = .ok ())
    (still : AllStill request owners incarnation source listing documents calls) (following : Following request bytes calls)
    (lasting : Lasting calls) (tokens : ∀ n, isToken (calls n).drawn = true) :
    ∃ last, (∀ n < last, Continues request bytes (calls n)) ∧ Ended request bytes source documents calls last := by
  have first : At request owners incarnation name source listing documents bytes calls 0 none := by
    refine ⟨?_, ?_, Kept.start .., rfl⟩
    · rw [following.first]
      exact query
    · rw [begin, following.first]
      rfl
  obtain ⟨last, between, ended⟩ := At.follow chosen still following lasting tokens _ first (Nat.lt_succ_self _)
  exact ⟨last, fun n beneath => between n (Nat.zero_le n) beneath, ended⟩

def restart : Failure := .stale "STUDIO_USAGE_RESTART_REQUIRED"

variable {page : Page}

theorem scanPage_ok (scanned : scanPage request bytes call = .ok (page, token)) :
    (∃ name, Usages.owners request = .ok (name, page.selectedSources)) ∧ readSource call.before = .ok token.fingerprint.2 ∧
      discover request page.selectedSources call.before = .ok token.fingerprint.1 ∧ page.nextCursor = none := by
  obtain ⟨_, _, scanned⟩ := bind_ok.mp scanned
  obtain ⟨⟨name, owners⟩, chosen, scanned⟩ := bind_ok.mp scanned
  obtain ⟨_, _, scanned⟩ := bind_ok.mp scanned
  obtain ⟨source, asset, scanned⟩ := bind_ok.mp scanned
  obtain ⟨listing, listed, scanned⟩ := bind_ok.mp scanned
  obtain ⟨_, _, scanned⟩ := bind_ok.mp scanned
  obtain ⟨scan, _, scanned⟩ := bind_ok.mp scanned
  obtain ⟨_, _, scanned⟩ := bind_ok.mp scanned
  obtain ⟨rfl, rfl⟩ := Prod.mk.inj (pure_ok.mp scanned)
  exact ⟨⟨name, chosen⟩, asset, listed, rfl⟩

variable {tokens : Tokens}

theorem issued_fingerprint
    (returned : pagedUsages request bytes call = .ok (page, tokens)) (under : page.nextCursor = some cursor) :
    cursor = call.drawn ∧ ∃ token owners name, tokens.get? cursor = some token ∧ Usages.owners request = .ok (name, owners) ∧
      readSource call.before = .ok token.fingerprint.2 ∧ discover request owners call.before = .ok token.fingerprint.1 := by
  obtain ⟨⟨scanned, token⟩, done, returned⟩ := bind_ok.mp returned
  obtain ⟨⟨name, chosen⟩, asset, listed, without⟩ := scanPage_ok done
  obtain ⟨⟨issued, table⟩, under', returned⟩ := bind_ok.mp returned
  obtain ⟨_, _, returned⟩ := bind_ok.mp returned
  obtain ⟨rfl, rfl⟩ := Prod.mk.inj (pure_ok.mp returned)
  unfold issuePage at under'
  split at under'
  · obtain ⟨_, stored, pair⟩ := bind_ok.mp under'
    obtain ⟨rfl, rfl⟩ := Prod.mk.inj (pure_ok.mp pair)
    obtain rfl := Option.some.inj under
    obtain ⟨_, _, stored⟩ := bind_ok.mp stored
    obtain rfl := pure_ok.mp stored
    exact ⟨rfl, token, _, name, Dict.get?_set_self .., chosen, asset, listed⟩
  · obtain ⟨rfl, rfl⟩ := Prod.mk.inj (pure_ok.mp under')
    rw [without] at under
    cases under

theorem pagedUsages_restart (chosen : Usages.owners request = .ok (name, owners))
    (query : checkQuery request call.cursor = .ok ()) (under : call.cursor = some cursor) (stored : call.loadingTokens.get? cursor = some token)
    (asset : readSource call.before = .ok source) (listed : discover request owners call.before = .ok listing)
    (changed : token.fingerprint ≠ (listing, source)) : pagedUsages request bytes call = .error restart := by
  have begins : ∀ binding, begin call binding = .error restart ∨ begin call binding = .ok (some token) := by
    intro binding
    rw [begin, under]
    cases found : (call.loadingTokens.live call.loading).get? cursor with
    | none =>
      left
      simp only [load, found]
      rfl
    | some other =>
      obtain ⟨same, _⟩ := Dict.get?_filterValues.mp found
      obtain rfl := Option.some.inj (same.symm.trans stored)
      simp only [load, found, fetch, pure_bind]
      by_cases bound : other.binding = binding
      · right
        simp only [bound, ne_eq, not_true_eq_false, decide_false]
        rfl
      · left
        simp only [bound, ne_eq, not_false_eq_true, decide_true]
        rfl
  have stops : scanPage request bytes call = .error restart := by
    simp only [scanPage, query, chosen, Bind.bind, Except.bind]
    rcases begins ⟨request.root, request.novelId, request.scope, request.actor, call.before.incarnation, name, owners, request.assetId,
      request.limit, request.state, request.strict⟩ with begun | begun
    · simp only [begun]
    · simp only [begun, asset, listed, Option.any_some, changed, ne_eq, not_false_eq_true, decide_true]
      rfl
  rw [pagedUsages, stops]
  rfl

/-- A visible owner or the asset is another one than before. -/
def Changed (request : Request) (owners : List Owner) (before after : World) : Prop :=
  (∃ entry : Entry, entry.1 ∈ owners ∧ ¬(Visible request before entry ↔ Visible request after entry)) ∨ readSource before ≠ readSource after

theorem Changed.fingerprint {before after : World} {listing' : List Entry} {source' : Pin} (distinct : owners.Nodup)
    (changed : Changed request owners before after) (asset : readSource before = .ok source) (listed : discover request owners before = .ok listing)
    (asset' : readSource after = .ok source') (listed' : discover request owners after = .ok listing') : (listing, source) ≠ (listing', source') := by
  intro same
  obtain ⟨rfl, rfl⟩ := Prod.mk.inj same
  rcases changed with ⟨entry, inside, differs⟩ | differs
  · have first := (discover_ok distinct listed).member entry
    have second := (discover_ok distinct listed').member entry
    rw [first] at second
    exact differs ⟨fun visible => (second.mp ⟨inside, visible⟩).2, fun visible => (second.mpr ⟨inside, visible⟩).2⟩
  · exact differs (asset.trans asset'.symm)

theorem changed_restart (chosen : Usages.owners request = .ok (name, owners)) (query : checkQuery request none = .ok ())
    (following : Following request bytes calls) (drawn : ∀ n, isToken (calls n).drawn = true) {n : Nat}
    {source' : Pin} {listing' : List Entry} (returned : pagedUsages request bytes (calls n) = .ok (page, tokens)) (more : page.nextCursor ≠ none)
    (changed : Changed request owners (calls n).before (calls (n + 1)).before) (asset : readSource (calls (n + 1)).before = .ok source')
    (listed : discover request owners (calls (n + 1)).before = .ok listing') : pagedUsages request bytes (calls (n + 1)) = .error restart := by
  obtain ⟨cursor, under⟩ := Option.ne_none_iff_exists'.mp more
  obtain ⟨next, keeps⟩ := following.next n page tokens cursor returned under
  obtain ⟨rfl, token, owners', name', stored, chosen', assetBefore, listedBefore⟩ := issued_fingerprint returned under
  obtain ⟨rfl, rfl⟩ := Prod.mk.inj (Except.ok.inj (chosen.symm.trans chosen'))
  refine pagedUsages_restart chosen ?_ next (keeps.trans stored) asset listed ?_
  · rw [next]
    exact checkQuery_token query (drawn n)
  · exact changed.fingerprint (owners_distinct chosen) assetBefore listedBefore asset listed

theorem pagedUsages_reads (chosen : Usages.owners request = .ok (name, owners))
    (returned : pagedUsages request bytes call = .ok (page, tokens)) :
    ∃ source listing, readSource call.before = .ok source ∧ discover request owners call.before = .ok listing := by
  obtain ⟨⟨scanned, token⟩, done, _⟩ := bind_ok.mp returned
  obtain ⟨⟨name', chosen'⟩, asset, listed, _⟩ := scanPage_ok done
  obtain ⟨rfl, same⟩ := Prod.mk.inj (Except.ok.inj (chosen.symm.trans chosen'))
  exact ⟨_, _, asset, same ▸ listed⟩

/-- Pages that follow one another neither lose nor repeat a reference, and none mixes two states of the owners. While nothing changes
they show all the references that match, in the order of the directory, the documents and their positions, up to a last page that
counts them, or a call that meets a bound of the code. Behind a change no page is returned. -/
theorem usages_paged (request : Request) (bytes : Bytes Page) (calls : Nat → Call) {owners : List Owner} {name : String}
    (chosen : Usages.owners request = .ok (name, owners)) (query : checkQuery request none = .ok ()) (following : Following request bytes calls)
    (drawn : ∀ n, isToken (calls n).drawn = true) :
    (∀ incarnation source listing documents, Lasting calls → AllStill request owners incarnation source listing documents calls →
      Listed request owners (calls 0).before listing ∧
        ∃ last, (∀ n < last, Continues request bytes (calls n)) ∧ Ended request bytes source documents calls last) ∧
    (∀ n page tokens, pagedUsages request bytes (calls n) = .ok (page, tokens) → page.nextCursor ≠ none →
      Changed request owners (calls n).before (calls (n + 1)).before →
      (∀ result, pagedUsages request bytes (calls (n + 1)) ≠ .ok result) ∧
        ∀ source listing, readSource (calls (n + 1)).before = .ok source → discover request owners (calls (n + 1)).before = .ok listing →
          pagedUsages request bytes (calls (n + 1)) = .error restart) := by
  constructor
  · intro incarnation source listing documents lasting still
    constructor
    · exact discover_ok (owners_distinct chosen) (still 0 _ (List.mem_cons_self ..)).listed
    · exact follow_complete chosen query still following lasting drawn
  · intro n page tokens returned more changed
    constructor
    · intro result next
      obtain ⟨source, listing, asset, listed⟩ := pagedUsages_reads chosen next
      rw [changed_restart chosen query following drawn returned more changed asset listed] at next
      cases next
    · intro source listing asset listed
      exact changed_restart chosen query following drawn returned more changed asset listed

def sampleRequest : Request := ⟨"/data", "n", "", "u", "x", true, 1, none, false, none, false⟩

def samplePin : Pin := ⟨"ASSET", "x", 1, "d", "image"⟩

def sampleGraph : GraphRow :=
  ⟨"g", 1, "e", [⟨"b", "asset_reference", some ⟨"x", 1, "c", "image"⟩⟩, ⟨"a", "asset_reference", some ⟨"x", 1, "d", "image"⟩⟩],
    [("a", "CURRENT"), ("b", "STALE")]⟩

def sampleWorld : World where
  incarnation := "i"
  guard := .ok ()
  context := fun _ => .ok ()
  source := .ok samplePin
  rows := fun owner => if owner = .graph then (∅ : Dict String (Option StoredRow)).set "g" (some ⟨"u", "n", "", "g", some (some 1), "h"⟩) else ∅
  get := fun _ _ => .ok (.graph sampleGraph)

def sampleBytes : Bytes Page := ⟨fun _ => 300, fun page => 1500 + 301 * page.items.length⟩

def sampleToken : String := String.ofList (List.replicate 43 'a')

/-- The call of the first page, in a world. -/
def sampleCall (tokens : Tokens) (world : World) : Call := ⟨none, sampleToken, 0, tokens, 0, 0, tokens, world, world, world⟩

def sampleTokens : Tokens := match pagedUsages sampleRequest sampleBytes (sampleCall ∅ sampleWorld) with
  | .ok (_, tokens) => tokens
  | .error _ => ∅

/-- The first page, and the call behind it in another world. -/
def sampleCalls (world : World) : Nat → Call
  | 0 => sampleCall ∅ sampleWorld
  | _ + 1 => { sampleCall sampleTokens world with cursor := some sampleToken }

theorem sample_first : ∃ page, pagedUsages sampleRequest sampleBytes (sampleCall ∅ sampleWorld) = .ok (page, sampleTokens) ∧
    page.nextCursor = some sampleToken := by
  obtain ⟨⟨page, tokens⟩, returned, named⟩ := ok_of_endsWith (fun result => result.1.nextCursor = some sampleToken)
    (pagedUsages sampleRequest sampleBytes (sampleCall ∅ sampleWorld)) (by decide +kernel)
  refine ⟨page, ?_, of_decide_eq_true named⟩
  rw [sampleTokens, returned]

theorem sample_following {world : World} (final : ∀ page tokens, pagedUsages sampleRequest sampleBytes (sampleCalls world 1) = .ok (page, tokens) →
    page.nextCursor = none) : Following sampleRequest sampleBytes (sampleCalls world) := by
  refine ⟨rfl, ?_⟩
  intro n page tokens cursor returned under
  cases n with
  | zero =>
    obtain ⟨first, made, named⟩ := sample_first
    obtain ⟨rfl, rfl⟩ := Prod.mk.inj (Except.ok.inj (made.symm.trans returned))
    obtain rfl := Option.some.inj (named.symm.trans under)
    exact ⟨rfl, rfl⟩
  | succ n => cases (final page tokens returned).symm.trans under

theorem sample_last (page : Page) (tokens : Tokens)
    (returned : pagedUsages sampleRequest sampleBytes (sampleCalls sampleWorld 1) = .ok (page, tokens)) : page.nextCursor = none := by
  obtain ⟨⟨last, after⟩, made, final⟩ := ok_of_endsWith (fun result => result.1.nextCursor = none)
    (pagedUsages sampleRequest sampleBytes (sampleCalls sampleWorld 1)) (by decide +kernel)
  obtain ⟨rfl, rfl⟩ := Prod.mk.inj (Except.ok.inj (made.symm.trans returned))
  exact of_decide_eq_true final

/-- A world in which the graph is another one. -/
def editedWorld : World := { sampleWorld with
  rows := fun owner => if owner = .graph then (∅ : Dict String (Option StoredRow)).set "g" (some ⟨"u", "n", "", "g", some (some 1), "k"⟩) else ∅ }

theorem sampleToken_formed : isToken sampleToken = true := by decide

theorem sample_drawn (world : World) (n : Nat) : isToken (sampleCalls world n).drawn = true := by
  cases n with
  | zero => exact sampleToken_formed
  | succ n => exact sampleToken_formed

theorem sample_still : AllStill sampleRequest [.graph] "i" samplePin [(.graph, "g", "h")] [.graph sampleGraph] (sampleCalls sampleWorld) := by
  have still : Still sampleRequest [.graph] "i" samplePin [(.graph, "g", "h")] [.graph sampleGraph] sampleWorld :=
    ⟨rfl, rfl, rfl, rfl, .cons rfl .nil⟩
  intro n world member
  have same : world = sampleWorld := by
    cases n with
    | zero => simpa [sampleCalls, sampleCall] using member
    | succ n => simpa [sampleCalls, sampleCall] using member
  rw [same]
  exact still

theorem sample_lasting (world : World) : Lasting (sampleCalls world) := by
  intro n
  cases n with
  | zero => exact ⟨Nat.zero_lt_succ _, Nat.zero_lt_succ _⟩
  | succ n => exact ⟨Nat.zero_lt_succ _, Nat.zero_lt_succ _⟩

theorem edited_restarts : pagedUsages sampleRequest sampleBytes (sampleCalls editedWorld 1) = .error restart := rfl

theorem usages_paged_sample :
    (Listed sampleRequest [.graph] sampleWorld [(.graph, "g", "h")] ∧
      ∃ last, (∀ n < last, Continues sampleRequest sampleBytes (sampleCalls sampleWorld n)) ∧
        Ended sampleRequest sampleBytes samplePin [.graph sampleGraph] (sampleCalls sampleWorld) last) ∧
    pagedUsages sampleRequest sampleBytes (sampleCalls editedWorld 1) = .error restart := by
  constructor
  · exact (usages_paged sampleRequest sampleBytes (sampleCalls sampleWorld) rfl rfl (sample_following sample_last) (sample_drawn _)).1
      "i" samplePin _ _ (sample_lasting _) sample_still
  · obtain ⟨page, returned, named⟩ := sample_first
    have following : Following sampleRequest sampleBytes (sampleCalls editedWorld) := by
      apply sample_following
      intro page tokens returned
      cases edited_restarts.symm.trans returned
    refine ((usages_paged sampleRequest sampleBytes (sampleCalls editedWorld) rfl rfl following (sample_drawn _)).2 0 page sampleTokens
      returned ?_ (.inl ⟨(.graph, "g", "h"), ?_, ?_⟩)).2 samplePin [(.graph, "g", "k")] rfl rfl
    · rw [named]
      exact Option.some_ne_none _
    · decide
    · intro same
      obtain ⟨row, stored, _, _, _, digest, _⟩ := same.mp ⟨⟨"u", "n", "", "g", some (some 1), "h"⟩, rfl, rfl, rfl, rfl, rfl, by decide⟩
      obtain rfl := Option.some.inj (Option.some.inj stored)
      exact absurd digest (by decide)

/-- A world in which the asset is gone. -/
def bereftWorld : World := { sampleWorld with source := .error (.notFound "x") }

/-- A world with more graphs than a directory lists. -/
def crowdedWorld : World := { sampleWorld with
  rows := fun _ => ⟨(List.range 4097).map fun n =>
    (String.ofList (List.replicate n 'a'), some ⟨"u", "n", "", String.ofList (List.replicate n 'a'), some (some 1), "h"⟩), by
      rw [List.map_map]
      refine List.Nodup.map ?_ List.nodup_range
      intro left right same
      simpa using congrArg String.length same⟩ }

theorem usages_stopped :
    pagedUsages sampleRequest sampleBytes (sampleCall ∅ crowdedWorld) = .error exhausted ∧
    (∃ page, pagedUsages sampleRequest sampleBytes (sampleCalls bereftWorld 0) = .ok (page, sampleTokens) ∧ page.nextCursor = some sampleToken) ∧
    pagedUsages sampleRequest sampleBytes (sampleCalls bereftWorld 1) = .error (.notFound "x") := by
  refine ⟨?_, sample_first, rfl⟩
  have crowded : directory sampleRequest [6, 7] (crowdedWorld.rows .graph) = .error exhausted := by
    have many : MAX_DIRECTORY_ROWS < (crowdedWorld.rows .graph).keys.length := by
      simp [crowdedWorld, Dict.keys, MAX_DIRECTORY_ROWS]
    rw [directory, decide_eq_true many]
    rfl
  have unlisted : discover sampleRequest [.graph] crowdedWorld = .error exhausted := by
    have first : usageDirectory sampleRequest crowdedWorld .graph = .error exhausted := by
      simp only [usageDirectory, if_true, crowded]
      rfl
    simp only [discover, List.mapM_cons, first]
    rfl
  have stops : scanPage sampleRequest sampleBytes (sampleCall ∅ crowdedWorld) = .error exhausted := by
    have asset : readSource crowdedWorld = .ok samplePin := rfl
    have chosen : owners sampleRequest = .ok ("CREATIVE_GRAPH", [.graph]) := rfl
    simp only [scanPage, chosen, sampleCall, asset, unlisted, Bind.bind, Except.bind]
    rfl
  rw [pagedUsages, stops]
  rfl

end NovelStudio.Usages
