import NovelStudio.Library.Resumption
import NovelStudio.Usages.Directory

/-! Pages that follow one another: together they are all the references that match, each once. -/

namespace NovelStudio.Usages

open Library Experimental Resumption

variable {request : Request} {item : Reference → Nat} {world : World} {source : Pin} {chunks : List (List Position)}

/-- All the references that match, in the order of the chunks and of the positions in each. -/
def matching (request : Request) (source : Pin) (chunks : List (List Position)) : List Reference :=
  chunks.flatten.filterMap (selected request source)

/-- A reference that fits on no page. -/
def Oversized (request : Request) (item : Reference → Nat) (source : Pin) (chunks : List (List Position)) : Prop :=
  ∃ found ∈ matching request source chunks, MAX_RESPONSE_BYTES - 4096 < item found

def exhausted : Failure := .value "STUDIO_USAGE_RESOURCE_UNAVAILABLE"

/-- What holds of a page while it is scanned: behind what earlier pages have shown and the items of this one
stand the references that are left. -/
structure Seen (request : Request) (source : Pin) (chunks : List (List Position)) (shown : List Reference) (chunk : Nat) (progress : Progress) : Prop where
  rest : matching request source chunks = shown ++ progress.items ++ (remaining chunks chunk progress.offset).filterMap (selected request source)
  observed : progress.observed = (shown ++ progress.items).length
  fresh : progress.items = [] → progress.responseBytes = 0
  bounded : progress.items.length ≤ request.limit
  inside : ∀ items, chunks[chunk]? = some items → progress.offset ≤ items.length

variable {shown : List Reference} {chunk : Nat} {progress : Progress} {items : List Position} {position : Position}

theorem Seen.skip (seen : Seen request source chunks shown chunk progress) (found : chunks[chunk]? = some items)
    (there : items[progress.offset]? = some position) (chosen : selected request source position = none) :
    Seen request source chunks shown chunk
      { progress with scannedReferences := progress.scannedReferences + 1, offset := progress.offset + 1 } where
  rest := by rw [seen.rest, remaining_read found there, List.filterMap_cons_none chosen]
  observed := seen.observed
  fresh := seen.fresh
  bounded := seen.bounded
  inside := by
    intro others same
    obtain rfl := Option.some.inj (found.symm.trans same)
    exact (List.getElem?_eq_some_iff.mp there).1

theorem Seen.add {reference : Reference} (seen : Seen request source chunks shown chunk progress) (found : chunks[chunk]? = some items)
    (there : items[progress.offset]? = some position) (chosen : selected request source position = some reference)
    (room : progress.items.length < request.limit) (bytes : Nat) :
    Seen request source chunks shown chunk
      ⟨progress.items ++ [reference], bytes, progress.observed + 1, progress.scannedReferences + 1, progress.offset + 1⟩ where
  rest := by
    rw [seen.rest, remaining_read found there, List.filterMap_cons_some chosen]
    simp
  observed := by
    rw [seen.observed]
    simp
    omega
  fresh := by simp
  bounded := by
    rw [List.length_append, List.length_singleton]
    exact room
  inside := by
    intro others same
    obtain rfl := Option.some.inj (found.symm.trans same)
    exact (List.getElem?_eq_some_iff.mp there).1

theorem Seen.close (seen : Seen request source chunks shown chunk progress) (found : chunks[chunk]? = some items)
    (whole : progress.offset = items.length) : Seen request source chunks shown (chunk + 1) { progress with offset := 0 } where
  rest := by
    rw [seen.rest, whole, remaining_close found]
  observed := seen.observed
  fresh := seen.fresh
  bounded := seen.bounded
  inside := fun _ _ => Nat.zero_le _

theorem Seen.oversized {reference : Reference} (seen : Seen request source chunks shown chunk progress) (found : chunks[chunk]? = some items)
    (there : items[progress.offset]? = some position) (chosen : selected request source position = some reference)
    (large : MAX_RESPONSE_BYTES - 4096 < item reference) : Oversized request item source chunks := by
  refine ⟨reference, ?_, large⟩
  rw [seen.rest, remaining_read found there, List.filterMap_cons_some chosen]
  simp

/-- What a scan reaches from a page: what holds of it is kept, and no step is taken back. -/
structure Scanned (request : Request) (source : Pin) (chunks : List (List Position)) (shown : List Reference) (chunk : Nat) (before : Progress)
    (reached : Nat) (after : Progress) : Prop where
  seen : Seen request source chunks shown reached after
  pending : pending chunks reached after.offset ≤ pending chunks chunk before.offset

/-- Positions are scanned up to the end of their document or a bound of the page; an empty page reads one at least. -/
theorem scanPositions_ok (found : chunks[chunk]? = some items) : ∀ (rest : List Position) {progress after : Progress} {stop : Bool},
    rest = items.drop progress.offset → Seen request source chunks shown chunk progress →
    scanPositions request item source rest progress = .ok (after, stop) →
    Scanned request source chunks shown chunk progress chunk after ∧ (stop = false → after.offset = items.length) ∧
      (stop = true → progress.items = [] → 0 < request.limit → progress.scannedReferences < MAX_REFERENCES →
        pending chunks chunk after.offset < pending chunks chunk progress.offset) := by
  intro rest
  induction rest with
  | nil =>
    intro progress after stop whole seen done
    obtain ⟨rfl, rfl⟩ := Prod.mk.inj (Except.ok.inj done)
    have long : items.length ≤ progress.offset := List.drop_eq_nil_iff.mp whole.symm
    exact ⟨⟨seen, le_refl _⟩, fun _ => le_antisymm (seen.inside items found) long, nofun⟩
  | cons position rest ih =>
    intro progress after stop whole seen done
    obtain ⟨there, later⟩ := getElem?_of_drop whole
    have step := pending_read found there
    rw [scanPositions] at done
    split at done
    · rename_i full
      simp only [Bool.or_eq_true, decide_eq_true_eq] at full
      obtain ⟨rfl, rfl⟩ := Prod.mk.inj (Except.ok.inj done)
      refine ⟨⟨seen, le_refl _⟩, nofun, ?_⟩
      intro _ empty some' few
      rw [empty, List.length_nil] at full
      omega
    · rename_i room
      simp only [Bool.or_eq_true, decide_eq_true_eq, not_or, not_le] at room
      cases chosen : selected request source position with
      | none =>
        rw [chosen] at done
        obtain ⟨scanned, closed, _⟩ := ih later (seen.skip found there chosen) done
        have less := scanned.pending
        dsimp only at less
        exact ⟨⟨scanned.seen, by omega⟩, closed, fun _ _ _ _ => by omega⟩
      | some reference =>
        rw [chosen] at done
        dsimp only at done
        split at done
        · split at done
          · cases done
          · rename_i nonempty
            obtain ⟨rfl, rfl⟩ := Prod.mk.inj (Except.ok.inj done)
            exact ⟨⟨seen, le_refl _⟩, nofun, fun _ empty => absurd (List.isEmpty_iff.mpr empty) nonempty⟩
        · obtain ⟨scanned, closed, _⟩ := ih later (seen.add found there chosen room.2 _) done
          have less := scanned.pending
          dsimp only at less
          exact ⟨⟨scanned.seen, by omega⟩, closed, fun _ _ _ _ => by omega⟩

theorem scanPositions_error (found : chunks[chunk]? = some items) : ∀ (rest : List Position) {progress : Progress} {failure : Failure},
    rest = items.drop progress.offset → Seen request source chunks shown chunk progress →
    scanPositions request item source rest progress = .error failure → failure = exhausted ∧ Oversized request item source chunks := by
  intro rest
  induction rest with
  | nil =>
    intro progress failure _ _ failed
    cases failed
  | cons position rest ih =>
    intro progress failure whole seen failed
    obtain ⟨there, later⟩ := getElem?_of_drop whole
    rw [scanPositions] at failed
    split at failed
    · cases failed
    · rename_i room
      simp only [Bool.or_eq_true, decide_eq_true_eq, not_or, not_le] at room
      cases chosen : selected request source position with
      | none =>
        rw [chosen] at failed
        exact ih later (seen.skip found there chosen) failed
      | some reference =>
        rw [chosen] at failed
        dsimp only at failed
        split at failed
        · rename_i large
          split at failed
          · rename_i empty
            rw [seen.fresh (List.isEmpty_iff.mp empty), Nat.zero_add] at large
            exact ⟨(Except.error.inj failed).symm, seen.oversized found there chosen large⟩
          · cases failed
        · exact ih later (seen.add found there chosen room.2 _) failed

variable {owners : List Owner} {listing : List Entry} {documents : List Document} {incarnation : String}

/-- A world in which the visible owners and the asset are the ones of a listing. -/
structure Still (request : Request) (owners : List Owner) (incarnation : String) (source : Pin) (listing : List Entry) (documents : List Document)
    (world : World) : Prop where
  permitted : world.guard = .ok ()
  same : world.incarnation = incarnation
  asset : readSource world = .ok source
  listed : discover request owners world = .ok listing
  read : List.Forall₂ (fun entry document => world.get entry.1 entry.2.1 = .ok document) listing documents

theorem Still.verified (still : Still request owners incarnation source listing documents world) :
    verify request incarnation owners source listing world = .ok () := by
  simp only [verify, bind_ok, reject_ok]
  refine ⟨(), still.permitted, (), ?_, source, still.asset, (), ?_, listing, still.listed, (), ?_, still.permitted⟩
  · simp [still.same]
  · simp
  · simp

theorem Still.document {entry : Entry} {place : Nat} (still : Still request owners incarnation source listing documents world)
    (there : listing[place]? = some entry) :
    ∃ document, world.get entry.1 entry.2.1 = .ok document ∧ (documents.map positions)[place]? = some (positions document) := by
  obtain ⟨bound, rfl⟩ := List.getElem?_eq_some_iff.mp there
  have same := still.read.length_eq
  refine ⟨documents[place], still.read.get bound (by omega), ?_⟩
  rw [List.getElem?_map, List.getElem?_eq_getElem (by omega)]
  rfl

theorem scanConsumers_nil (room : Nat) (scan : Scan) : scanConsumers request item world source room [] scan = .ok scan := by
  cases room <;> rfl

/-- Consumers are scanned up to the end of the listing or a bound of the page; where there is one, a step is taken. -/
theorem scanConsumers_ok (still : Still request owners incarnation source listing documents world) :
    ∀ (room : Nat) (entries : List Entry) (scan : Scan) {after : Scan}, entries = listing.drop scan.consumer → scan.consumer ≤ listing.length →
      Seen request source (documents.map positions) shown scan.consumer scan.toProgress →
      scanConsumers request item world source room entries scan = .ok after →
      Scanned request source (documents.map positions) shown scan.consumer scan.toProgress after.consumer after.toProgress ∧
        after.consumer ≤ listing.length ∧
        (room ≠ 0 → entries ≠ [] → scan.items = [] → 0 < request.limit → scan.scannedReferences < MAX_REFERENCES →
          pending (documents.map positions) after.consumer after.offset < pending (documents.map positions) scan.consumer scan.offset) := by
  intro room
  induction room with
  | zero =>
    intro entries scan after _ inside seen done
    obtain rfl := Except.ok.inj done
    exact ⟨⟨seen, le_refl _⟩, inside, fun absent => absurd rfl absent⟩
  | succ room ih =>
    intro entries scan after whole inside seen done
    cases entries with
    | nil =>
      obtain rfl := Except.ok.inj done
      exact ⟨⟨seen, le_refl _⟩, inside, fun _ absent => absurd rfl absent⟩
    | cons entry rest =>
      obtain ⟨there, later⟩ := getElem?_of_drop whole
      obtain ⟨document, reads, found⟩ := still.document there
      simp only [scanConsumers, still.permitted, reads, bind_ok, Except.ok.injEq, exists_eq_left', Prod.exists] at done
      obtain ⟨_, _, progress, stop, scannedTo, done⟩ := done
      obtain ⟨scanned, closed, moved⟩ := scanPositions_ok found _ rfl seen scannedTo
      split at done
      · rename_i stops
        obtain rfl := Except.ok.inj done
        exact ⟨scanned, inside, fun _ _ => moved stops⟩
      · rename_i ends
        have whole := closed (Bool.eq_false_of_not_eq_true ends)
        have bound := (List.getElem?_eq_some_iff.mp there).1
        have less := scanned.pending
        have step := pending_close found
        rw [← whole] at step
        obtain ⟨further, reached, _⟩ := ih rest ⟨{ progress with offset := 0 }, scan.consumer + 1, scan.scannedConsumers + 1⟩ later bound (scanned.seen.close found whole) done
        have least := further.pending
        dsimp only at least
        exact ⟨⟨further.seen, by omega⟩, reached, fun _ _ _ _ _ => by omega⟩

theorem scanConsumers_error (still : Still request owners incarnation source listing documents world) :
    ∀ (room : Nat) (entries : List Entry) (scan : Scan) {failure : Failure}, entries = listing.drop scan.consumer →
      Seen request source (documents.map positions) shown scan.consumer scan.toProgress →
      scanConsumers request item world source room entries scan = .error failure →
      failure = exhausted ∧ Oversized request item source (documents.map positions) := by
  intro room
  induction room with
  | zero =>
    intro entries scan failure _ _ failed
    cases failed
  | succ room ih =>
    intro entries scan failure whole seen failed
    cases entries with
    | nil => cases failed
    | cons entry rest =>
      obtain ⟨there, later⟩ := getElem?_of_drop whole
      obtain ⟨document, reads, found⟩ := still.document there
      simp only [scanConsumers, still.permitted, reads, bind_error, reduceCtorEq, false_or, Except.ok.injEq, exists_eq_left', Prod.exists] at failed
      obtain ⟨_, _, failed | ⟨progress, stop, scannedTo, failed⟩⟩ := failed
      · exact scanPositions_error found _ rfl seen failed
      · obtain ⟨scanned, closed, _⟩ := scanPositions_ok found _ rfl seen scannedTo
        split at failed
        · cases failed
        · rename_i ends
          exact ih rest ⟨{ progress with offset := 0 }, scan.consumer + 1, scan.scannedConsumers + 1⟩ later (scanned.seen.close found (closed (Bool.eq_false_of_not_eq_true ends))) failed

variable {bytes : Bytes Page} {call : Call} {binding : Binding} {name : String}

/-- The position that a page begins at. -/
def consumerOf (saved : Option Saved) : Nat := (saved.map Saved.consumer).getD 0

def offsetOf (saved : Option Saved) : Nat := (saved.map Saved.offset).getD 0

def observedOf (saved : Option Saved) : Nat := (saved.map Saved.observed).getD 0

def expiryOf (beginning : Nat) (saved : Option Saved) : Nat := (saved.map Saved.expires).getD (beginning + TOKEN_TTL)

/-- The digest input of a request that is served under an incarnation. -/
def bindingOf (request : Request) (incarnation name : String) (owners : List Owner) : Binding :=
  ⟨request.root, request.novelId, request.scope, request.actor, incarnation, name, owners, request.assetId, request.limit, request.state, request.strict⟩

/-- What earlier pages have shown, and what a token keeps of it. -/
structure Kept (request : Request) (source : Pin) (listing : List Entry) (documents : List Document) (binding : Binding) (shown : List Reference)
    (saved : Option Saved) : Prop where
  rest : matching request source (documents.map positions) =
    shown ++ (remaining (documents.map positions) (consumerOf saved) (offsetOf saved)).filterMap (selected request source)
  observed : observedOf saved = shown.length
  inside : ∀ items, (documents.map positions)[consumerOf saved]? = some items → offsetOf saved ≤ items.length
  within : consumerOf saved ≤ listing.length
  bound : ∀ token, saved = some token → token.binding = binding ∧ token.fingerprint = (listing, source)

theorem Kept.start (request : Request) (source : Pin) (listing : List Entry) (documents : List Document) (binding : Binding) :
    Kept request source listing documents binding [] none where
  rest := rfl
  observed := rfl
  inside := fun _ _ => Nat.zero_le _
  within := Nat.zero_le _
  bound := nofun

theorem Kept.seen (kept : Kept request source listing documents binding shown saved) :
    Seen request source (documents.map positions) shown (consumerOf saved) ⟨[], 0, observedOf saved, 0, offsetOf saved⟩ where
  rest := by
    rw [List.append_nil]
    exact kept.rest
  observed := by
    rw [List.append_nil]
    exact kept.observed
  fresh := fun _ => rfl
  bounded := Nat.zero_le _
  inside := kept.inside

/-- The steps that are left behind a token. -/
def steps (documents : List Document) (saved : Option Saved) : Nat := pending (documents.map positions) (consumerOf saved) (offsetOf saved)

/-- A bound of the code that a call can meet in a still world. -/
inductive Exhausted (request : Request) (bytes : Bytes Page) (source : Pin) (documents : List Document) (shown : List Reference) (call : Call) : Prop where
  | reference (large : Oversized request bytes.item source (documents.map positions))
  | tokens (full : MAX_TOKENS ≤ (call.issuingTokens.live call.issuing).keys.length)
  | page (page : Page) (inside : shown ++ page.items <+: matching request source (documents.map positions))
      (large : MAX_RESPONSE_BYTES < bytes.result page)

/-- What a call in a still world returns, behind what earlier pages have shown. -/
inductive Outcome (request : Request) (bytes : Bytes Page) (source : Pin) (listing : List Entry) (documents : List Document) (binding : Binding)
    (shown : List Reference) (call : Call) (saved : Option Saved) : Except Failure (Page × Tokens) → Prop where
  | last (page : Page) (final : page.nextCursor = none) (whole : shown ++ page.items = matching request source (documents.map positions))
      (total : page.total = some (matching request source (documents.map positions)).length) :
      Outcome request bytes source listing documents binding shown call saved (.ok (page, call.issuingTokens))
  | more (page : Page) (tokens : Tokens) (next : Saved) (cursor : page.nextCursor = some call.drawn) (stored : tokens.get? call.drawn = some next)
      (kept : Kept request source listing documents binding (shown ++ page.items) (some next))
      (fewer : steps documents (some next) < steps documents saved) (expires : next.expires = expiryOf call.beginning saved)
      (unknown : page.total = none) :
      Outcome request bytes source listing documents binding shown call saved (.ok (page, tokens))
  | stopped (limit : Exhausted request bytes source documents shown call) :
      Outcome request bytes source listing documents binding shown call saved (.error exhausted)

theorem checkQuery_limit {cursor : Option String} (query : checkQuery request cursor = .ok ()) : 0 < request.limit ∧ request.limit ≤ MAX_USAGE_ROWS := by
  simp only [checkQuery, bind_ok, reject_ok, Bool.or_eq_false_iff, decide_eq_false_iff_not] at query
  have limit := query.choose_spec.1.1
  unfold MAX_USAGE_ROWS
  omega

def pageOf (request : Request) (name : String) (owners : List Owner) (source : Pin) (listing : List Entry) (scan : Scan) : Page where
  owner := name
  source := source
  items := scan.items.take MAX_USAGE_ROWS
  limit := request.limit
  hasMore := scan.consumer < listing.length
  nextCursor := none
  observedCount := scan.observed
  scannedConsumers := scan.scannedConsumers
  scannedReferences := scan.scannedReferences
  total := if scan.consumer < listing.length then none else some scan.observed
  selectedSources := owners

def tokenOf (binding : Binding) (source : Pin) (listing : List Entry) (expires : Nat) (scan : Scan) : Saved where
  binding := binding
  fingerprint := (listing, source)
  consumer := scan.consumer
  offset := scan.offset
  observed := scan.observed
  expires := expires

variable {saved : Option Saved}

theorem scanPage_still (before : Still request owners incarnation source listing documents call.before)
    (verifying : Still request owners incarnation source listing documents call.verifying)
    (query : checkQuery request call.cursor = .ok ()) (chosen : Usages.owners request = .ok (name, owners))
    (begun : begin call (bindingOf request incarnation name owners) = .ok saved)
    (kept : Kept request source listing documents (bindingOf request incarnation name owners) shown saved) :
    scanPage request bytes call = do
      let scan ← scanConsumers request bytes.item call.before source MAX_CONSUMERS (listing.drop (consumerOf saved))
        ⟨⟨[], 0, observedOf saved, 0, offsetOf saved⟩, consumerOf saved, 0⟩
      return (pageOf request name owners source listing scan,
        tokenOf (bindingOf request incarnation name owners) source listing (expiryOf call.beginning saved) scan) := by
  have fresh : (saved.any fun saved => decide (saved.fingerprint ≠ (listing, source))) = false := by
    cases saved with
    | none => rfl
    | some token => simp [(kept.bound token rfl).2]
  have verified := verifying.verified
  obtain rfl := before.same
  simp only [bindingOf] at begun
  simp only [scanPage, query, chosen, begun, before.asset, before.listed, fresh, verified, reject, Bind.bind, Except.bind, Pure.pure, Except.pure]
  rfl

/-- What a scan of a page in a still world reaches. -/
structure Reached (request : Request) (source : Pin) (listing : List Entry) (documents : List Document) (shown : List Reference)
    (saved : Option Saved) (scan : Scan) : Prop where
  seen : Seen request source (documents.map positions) shown scan.consumer scan.toProgress
  within : scan.consumer ≤ listing.length
  moved : scan.consumer < listing.length → pending (documents.map positions) scan.consumer scan.offset < steps documents saved

variable {scan : Scan}

theorem Kept.reached (kept : Kept request source listing documents binding shown saved)
    (before : Still request owners incarnation source listing documents world) (least : 0 < request.limit)
    (done : scanConsumers request item world source MAX_CONSUMERS (listing.drop (consumerOf saved))
      ⟨⟨[], 0, observedOf saved, 0, offsetOf saved⟩, consumerOf saved, 0⟩ = .ok scan) : Reached request source listing documents shown saved scan := by
  obtain ⟨scanned, within, moved⟩ := scanConsumers_ok before _ _ ⟨⟨[], 0, observedOf saved, 0, offsetOf saved⟩, consumerOf saved, 0⟩ rfl kept.within kept.seen done
  refine ⟨scanned.seen, within, ?_⟩
  intro more
  refine moved (by decide) ?_ rfl least (Nat.zero_lt_succ _)
  intro empty
  rw [empty, scanConsumers_nil] at done
  obtain rfl := Except.ok.inj done
  exact absurd (List.drop_eq_nil_iff.mp empty) (not_le.mpr more)

theorem Reached.whole (reached : Reached request source listing documents shown saved scan) (same : documents.length = listing.length)
    (ended : ¬ scan.consumer < listing.length) : shown ++ scan.items = matching request source (documents.map positions) := by
  have rest := reached.seen.rest
  rw [remaining_end (by rw [List.length_map]; omega), List.filterMap_nil, List.append_nil] at rest
  exact rest.symm

theorem Reached.prefix (reached : Reached request source listing documents shown saved scan) :
    shown ++ scan.items <+: matching request source (documents.map positions) :=
  ⟨_, reached.seen.rest.symm⟩

theorem Reached.pageItems (reached : Reached request source listing documents shown saved scan) (most : request.limit ≤ MAX_USAGE_ROWS)
    (name : String) (owners : List Owner) :
    (pageOf request name owners source listing scan).items = scan.items :=
  List.take_of_length_le (reached.seen.bounded.trans most)

theorem Reached.kept (reached : Reached request source listing documents shown saved scan) (expires : Nat) :
    Kept request source listing documents binding (shown ++ scan.items) (some (tokenOf binding source listing expires scan)) where
  rest := reached.seen.rest
  observed := reached.seen.observed
  inside := reached.seen.inside
  within := reached.within
  bound := by
    intro token same
    obtain rfl := Option.some.inj same
    exact ⟨rfl, rfl⟩

def Page.under (page : Page) (token : String) : Page := { page with nextCursor := some token }

theorem issuePage_more {page : Page} {token : Saved} (waits : page.hasMore = true) (live : call.issuing < token.expires) :
    issuePage call page token = do
      reject (MAX_TOKENS ≤ (call.issuingTokens.live call.issuing).keys.length) exhausted
      return (page.under call.drawn, (call.issuingTokens.live call.issuing).set call.drawn token) := by
  rw [issuePage, if_pos waits, issue, decide_eq_false (not_le.mpr live), Bool.false_or]
  cases decide (MAX_TOKENS ≤ (call.issuingTokens.live call.issuing).keys.length) <;> rfl

theorem checkPage_still {page : Page} {token : Saved} (returning : Still request owners incarnation source listing documents call.returning)
    (same : call.before.incarnation = incarnation) (selects : page.selectedSources = owners) (fingerprint : token.fingerprint = (listing, source)) :
    checkPage request bytes call page token = reject (MAX_RESPONSE_BYTES < bytes.result page) exhausted := by
  simp only [checkPage, same, selects, fingerprint, returning.verified, returning.permitted, Bind.bind, Except.bind]
  cases decide (MAX_RESPONSE_BYTES < bytes.result page) <;> rfl

/-- A call in a still world shows the references behind its token, as far as no bound of the code is met. -/
theorem pagedUsages_still (before : Still request owners incarnation source listing documents call.before)
    (verifying : Still request owners incarnation source listing documents call.verifying)
    (returning : Still request owners incarnation source listing documents call.returning)
    (query : checkQuery request call.cursor = .ok ()) (chosen : Usages.owners request = .ok (name, owners))
    (begun : begin call (bindingOf request incarnation name owners) = .ok saved)
    (kept : Kept request source listing documents (bindingOf request incarnation name owners) shown saved)
    (live : call.issuing < expiryOf call.beginning saved) :
    Outcome request bytes source listing documents (bindingOf request incarnation name owners) shown call saved (pagedUsages request bytes call) := by
  obtain ⟨least, most⟩ := checkQuery_limit query
  rw [pagedUsages, scanPage_still before verifying query chosen begun kept]
  cases done : scanConsumers request bytes.item call.before source MAX_CONSUMERS (listing.drop (consumerOf saved))
      ⟨⟨[], 0, observedOf saved, 0, offsetOf saved⟩, consumerOf saved, 0⟩ with
  | error failure =>
    obtain ⟨rfl, large⟩ := scanConsumers_error before _ _ ⟨⟨[], 0, observedOf saved, 0, offsetOf saved⟩, consumerOf saved, 0⟩ rfl kept.seen done
    exact .stopped (.reference large)
  | ok scan =>
    have reached := kept.reached before least done
    have items := reached.pageItems most name owners
    have same := before.same
    by_cases more : scan.consumer < listing.length
    · have waits : (pageOf request name owners source listing scan).hasMore = true := decide_eq_true more
      have alive : call.issuing <
          (tokenOf (bindingOf request incarnation name owners) source listing (expiryOf call.beginning saved) scan).expires := live
      simp only [issuePage_more waits alive, Bind.bind, Except.bind, Pure.pure, Except.pure]
      by_cases full : MAX_TOKENS ≤ (call.issuingTokens.live call.issuing).keys.length
      · rw [decide_eq_true full]
        exact .stopped (.tokens full)
      · rw [decide_eq_false full]
        simp only [reject, Bool.false_eq_true, if_false, Pure.pure, Except.pure]
        rw [checkPage_still returning same rfl rfl]
        by_cases large : MAX_RESPONSE_BYTES < bytes.result ((pageOf request name owners source listing scan).under call.drawn)
        · rw [decide_eq_true large]
          exact .stopped (.page _ (items ▸ reached.prefix) large)
        · rw [decide_eq_false large]
          exact .more _ _ _ rfl (Dict.get?_set_self ..) (items ▸ reached.kept _) (reached.moved more) rfl (if_pos more)
    · have ends : (pageOf request name owners source listing scan).hasMore = false := decide_eq_false more
      have whole := reached.whole before.read.length_eq.symm more
      simp only [Bind.bind, Except.bind, Pure.pure, Except.pure, issuePage, ends, Bool.false_eq_true, if_false]
      rw [checkPage_still returning same rfl rfl]
      by_cases large : MAX_RESPONSE_BYTES < bytes.result (pageOf request name owners source listing scan)
      · rw [decide_eq_true large]
        exact .stopped (.page _ (items ▸ reached.prefix) large)
      · rw [decide_eq_false large]
        refine .last _ rfl (items ▸ whole) ?_
        rw [pageOf, if_neg more, reached.seen.observed, whole]

end NovelStudio.Usages
