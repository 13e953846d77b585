import Mathlib.Data.List.Sort
import Mathlib.Data.Prod.Lex
import Mathlib.Data.String.Basic
import NovelStudio.Experimental.Rows

/-! Pages of the saved references to an asset (`asset_usage_paging.py`): the directory of the visible
owners, the scan of their references, and the tokens under which positions are kept. -/

namespace NovelStudio.Usages

open Library Experimental

def MAX_DIRECTORY_ROWS : Nat := 4096
def MAX_CONSUMERS : Nat := 16
def MAX_REFERENCES : Nat := 256
def MAX_RESPONSE_BYTES : Nat := 256 * 1024
def MAX_USAGE_ROWS : Nat := 200
def MAX_TOKENS : Nat := 1024
def TOKEN_TTL : Nat := 300

inductive Owner where
  | graph | timeline
  deriving DecidableEq

def Owner.name : Owner → String
  | .graph => "CREATIVE_GRAPH"
  | .timeline => "STUDIO_TIMELINE"

/-- A `TimelineAssetSnapshot`. -/
structure Pin where
  kind : String
  id : String
  version : Nat
  digest : String
  assetKind : String
  deriving DecidableEq

structure AssetParameters where
  assetId : String
  version : Nat
  digest : String
  kind : String

structure GraphNode where
  id : String
  definitionId : String
  parameters : Option AssetParameters

structure GraphRow where
  id : String
  version : Nat
  definitionDigest : String
  nodes : List GraphNode
  /-- The state of the reference of a node. -/
  referenceStates : List (String × String)

structure Clip where
  id : String
  sourceSnapshot : Pin

structure Track where
  id : String
  clips : List Clip

structure TimelineRow where
  id : String
  version : Nat
  timelineDigest : String
  tracks : List Track

/-- A saved owner, as its service returns it. -/
inductive Document where
  | graph (row : GraphRow)
  | timeline (row : TimelineRow)

/-- A row of a collection, as far as its directory reads it; its digest is `_hash(row)`. -/
structure StoredRow where
  createdBy : String
  novelId : String
  scope : String
  id : String
  /-- The schema version of the definition, if the definition is a dictionary and has one. -/
  definition : Option (Option Nat)
  digest : String

structure Request where
  root : String
  novelId : String
  scope : String
  actor : String
  assetId : String
  graph : Bool
  limit : Nat
  state : Option String
  /-- Whether there is a production service. -/
  production : Bool
  sources : Option (List String)
  strict : Bool

/-- What a call finds at a moment: its authority, the asset and the stored owners. -/
structure World where
  incarnation : String
  guard : Except Failure Unit
  /-- The checks of a service before it reads. -/
  context : Owner → Except Failure Unit
  source : Except Failure Pin
  rows : Owner → Dict String (Option StoredRow)
  get : Owner → String → Except Failure Document

variable (request : Request)

def addRow (excluded : List Nat) (result : List (String × String)) (entry : String × Option StoredRow) : Except Failure (List (String × String)) :=
  match entry.2 with
  | none => return result
  | some row =>
    if row.createdBy ≠ request.actor || row.novelId ≠ request.novelId || row.scope ≠ request.scope then return result
    else do
      reject (excluded ≠ [] && row.definition = none) (.value "STUDIO_USAGE_OWNER_IDENTITY_INVALID")
      if row.definition.any fun version => version.any (· ∈ excluded) then return result
      else do
        reject (row.id ≠ entry.1) (.value "STUDIO_USAGE_OWNER_IDENTITY_INVALID")
        return result ++ [(entry.1, row.digest)]

/-- `directory`: the visible rows of a collection with their digests. -/
def directory (excluded : List Nat) (rows : Dict String (Option StoredRow)) : Except Failure (List (String × String)) := do
  reject (MAX_DIRECTORY_ROWS < rows.keys.length) (.value "STUDIO_USAGE_RESOURCE_UNAVAILABLE")
  let result ← rows.entries.foldlM (addRow request excluded) []
  return result.insertionSort fun left right => toLex left ≤ toLex right

abbrev Entry := Owner × String × String

/-- `usage_directory` and `timeline_usage_directory`. -/
def usageDirectory (world : World) (owner : Owner) : Except Failure (List Entry) := do
  world.context owner
  let result ← directory request (if owner = .graph then [6, 7] else []) (world.rows owner)
  world.guard
  return result.map fun row => (owner, row)

def discover (owners : List Owner) (world : World) : Except Failure (List Entry) := do
  let listings ← owners.mapM (usageDirectory request world)
  return listings.flatten.insertionSort fun left right => toLex (left.1.name, toLex left.2) ≤ toLex (right.1.name, toLex right.2)

/-- `_source`. -/
def readSource (world : World) : Except Failure Pin := do
  world.guard
  let source ← world.source
  world.guard
  return source

inductive Location where
  | node (nodeId definitionId : String)
  | clip (trackId clipId : String)

structure Reference where
  owner : Owner
  id : String
  version : Nat
  digest : String
  location : Location
  source : Pin
  currentSource : Pin
  state : String

inductive Position where
  | node (row : GraphRow) (node : GraphNode)
  | clip (row : TimelineRow) (trackId : String) (clip : Clip)

def positions : Document → List Position
  | .graph row => (row.nodes.insertionSort fun left right => left.id ≤ right.id).map (.node row)
  | .timeline row => (row.tracks.insertionSort fun left right => left.id ≤ right.id).flatMap fun track =>
      (track.clips.insertionSort fun left right => left.id ≤ right.id).map (.clip row track.id)

def stateOf (pin source : Pin) : String := if pin = source then "CURRENT" else "STALE"

def reference (source : Pin) (assetId : String) : Position → Option Reference
  | .node row node =>
    match node.parameters with
    | none => none
    | some parameters =>
      if node.definitionId ≠ "asset_reference" || parameters.assetId ≠ assetId ||
          !(row.referenceStates.any fun state => state.1 = node.id && state.2 ∈ ["CURRENT", "STALE"]) then none
      else
        let pin : Pin := ⟨"ASSET", parameters.assetId, parameters.version, parameters.digest, parameters.kind⟩
        some ⟨.graph, row.id, row.version, row.definitionDigest, .node node.id node.definitionId, pin, source, stateOf pin source⟩
  | .clip row trackId clip =>
    let pin := clip.sourceSnapshot
    if pin.id ≠ assetId || pin.kind ≠ "ASSET" then none
    else some ⟨.timeline, row.id, row.version, row.timelineDigest, .clip trackId clip.id, pin, source, stateOf pin source⟩

/-- The reference at a position, if it is asked for. -/
def selected (source : Pin) (position : Position) : Option Reference :=
  (reference source request.assetId position).filter fun item => request.state.all (item.state = ·)

/-- What a token is bound to: `binding` is the digest of this. -/
structure Binding where
  root : String
  novelId : String
  scope : String
  actor : String
  incarnation : String
  owner : String
  owners : List Owner
  assetId : String
  limit : Nat
  state : Option String
  strict : Bool
  deriving DecidableEq

/-- `fingerprint` is the digest of the listing and the source. -/
structure Saved where
  binding : Binding
  fingerprint : List Entry × Pin
  consumer : Nat
  offset : Nat
  observed : Nat
  expires : Nat

abbrev Tokens := Dict String Saved

def Tokens.live (tokens : Tokens) (now : Nat) : Tokens := tokens.filterValues fun saved => now < saved.expires

def load (tokens : Tokens) (now : Nat) (token : String) (binding : Binding) : Except Failure Saved := do
  let saved ← fetch ((tokens.live now).get? token) (.stale "STUDIO_USAGE_RESTART_REQUIRED")
  reject (saved.binding ≠ binding) (.stale "STUDIO_USAGE_RESTART_REQUIRED")
  return saved

/-- `_issue`, of a token that was drawn. -/
def issue (tokens : Tokens) (now : Nat) (drawn : String) (saved : Saved) : Except Failure Tokens := do
  reject (saved.expires ≤ now || MAX_TOKENS ≤ (tokens.live now).keys.length) (.value "STUDIO_USAGE_RESOURCE_UNAVAILABLE")
  return (tokens.live now).set drawn saved

structure Progress where
  items : List Reference
  responseBytes : Nat
  observed : Nat
  scannedReferences : Nat
  offset : Nat

/-- What is left to the outside of a page: the canonical bytes of references and results. -/
structure Bytes (Page : Type) where
  item : Reference → Nat
  result : Page → Nat

/-- Lines of `for index in range(offset, len(positions))`, from a position on; and whether it stops there. -/
def scanPositions (item : Reference → Nat) (source : Pin) : List Position → Progress → Except Failure (Progress × Bool)
  | [], progress => return (progress, false)
  | position :: rest, progress =>
    if MAX_REFERENCES ≤ progress.scannedReferences || request.limit ≤ progress.items.length then return (progress, true)
    else
      let passed := { progress with scannedReferences := progress.scannedReferences + 1, offset := progress.offset + 1 }
      match selected request source position with
      | none => scanPositions item source rest passed
      | some found =>
        if MAX_RESPONSE_BYTES - 4096 < progress.responseBytes + item found then
          if progress.items.isEmpty then throw (.value "STUDIO_USAGE_RESOURCE_UNAVAILABLE") else return (progress, true)
        else
          scanPositions item source rest
            { passed with
              items := progress.items ++ [found]
              responseBytes := progress.responseBytes + item found
              observed := progress.observed + 1 }

structure Scan extends Progress where
  consumer : Nat
  scannedConsumers : Nat

/-- The loop over the consumers that a listing has left; `room` more fit on the page. -/
def scanConsumers (item : Reference → Nat) (world : World) (source : Pin) : Nat → List Entry → Scan → Except Failure Scan
  | 0, _, scan => return scan
  | _, [], scan => return scan
  | room + 1, entry :: rest, scan => do
    world.guard
    let document ← world.get entry.1 entry.2.1
    let (progress, stop) ← scanPositions request item source ((positions document).drop scan.offset) scan.toProgress
    let scan := { scan with toProgress := progress, scannedConsumers := scan.scannedConsumers + 1 }
    if stop then return scan
    else scanConsumers item world source room rest { scan with consumer := scan.consumer + 1, offset := 0 }

structure Page where
  owner : String
  source : Pin
  items : List Reference
  limit : Nat
  hasMore : Bool
  nextCursor : Option String
  observedCount : Nat
  scannedConsumers : Nat
  scannedReferences : Nat
  total : Option Nat
  selectedSources : List Owner

/-- The owners that are asked for, and the name of the result. -/
def owners : Except Failure (String × List Owner) :=
  match request.sources with
  | none => return if request.graph then (Owner.graph.name, [.graph]) else (Owner.timeline.name, [.timeline])
  | some sources => do
    reject (sources ∉ [["graph"], ["timeline"], ["graph", "timeline"]]) (.value "STUDIO_USAGE_QUERY_INVALID")
    reject ("timeline" ∈ sources && !request.production) (.value "STUDIO_USAGE_SOURCE_UNAVAILABLE")
    return ("STUDIO_SAVED_ASSET_REFERENCES",
      (if "graph" ∈ sources then [.graph] else []) ++ if "timeline" ∈ sources then [.timeline] else [])

def tokenChar (char : Char) : Bool := char.isAlphanum || char = '_' || char = '-'

/-- `re.fullmatch(r'[A-Za-z0-9_-]\x7b43\x7d', cursor)`. -/
def isToken (cursor : String) : Bool := cursor.toList.length = 43 && cursor.toList.all tokenChar

/-- A call, with what it draws and reads from the clock and what it finds at its moments. -/
structure Call where
  cursor : Option String
  drawn : String
  /-- The clock, and the tokens there are, when it loads its token, begins, and issues a token. -/
  loading : Nat
  loadingTokens : Tokens
  beginning : Nat
  issuing : Nat
  issuingTokens : Tokens
  before : World
  verifying : World
  returning : World

def verify (incarnation : String) (owners : List Owner) (source : Pin) (listing : List Entry) (world : World) : Except Failure Unit := do
  world.guard
  reject (world.incarnation ≠ incarnation) (.stale "STUDIO_USAGE_RESTART_REQUIRED")
  let again ← readSource world
  reject (again ≠ source) (.stale "STUDIO_USAGE_RESTART_REQUIRED")
  let found ← discover request owners world
  reject (found ≠ listing) (.stale "STUDIO_USAGE_RESTART_REQUIRED")
  world.guard

def checkQuery (cursor : Option String) : Except Failure Unit := do
  reject (request.limit < 1 || 200 < request.limit || request.state ∉ [none, some "CURRENT", some "STALE"]) (.value "STUDIO_USAGE_QUERY_INVALID")
  reject (cursor.any fun cursor => !isToken cursor) (.value "STUDIO_USAGE_QUERY_INVALID")

/-- Where a page begins: the token that it was asked under, if any. -/
def begin (call : Call) (binding : Binding) : Except Failure (Option Saved) :=
  match call.cursor with
  | none => return none
  | some cursor => some <$> load call.loadingTokens call.loading cursor binding

/-- The page without its token, and the position behind it. -/
def scanPage (bytes : Bytes Page) (call : Call) : Except Failure (Page × Saved) := do
  checkQuery request call.cursor
  let (owner, owners) ← owners request
  let binding : Binding := ⟨request.root, request.novelId, request.scope, request.actor, call.before.incarnation, owner, owners,
    request.assetId, request.limit, request.state, request.strict⟩
  let saved ← begin call binding
  let source ← readSource call.before
  let listing ← discover request owners call.before
  reject (saved.any fun saved => saved.fingerprint ≠ (listing, source)) (.stale "STUDIO_USAGE_RESTART_REQUIRED")
  let consumer := (saved.map Saved.consumer).getD 0
  let scan ← scanConsumers request bytes.item call.before source MAX_CONSUMERS (listing.drop consumer)
    ⟨⟨[], 0, (saved.map Saved.observed).getD 0, 0, (saved.map Saved.offset).getD 0⟩, consumer, 0⟩
  verify request call.before.incarnation owners source listing call.verifying
  let more := scan.consumer < listing.length
  return (
    { owner, source
      items := scan.items.take MAX_USAGE_ROWS
      limit := request.limit
      hasMore := more
      nextCursor := none
      observedCount := scan.observed
      scannedConsumers := scan.scannedConsumers
      scannedReferences := scan.scannedReferences
      total := if more then none else some scan.observed
      selectedSources := owners },
    { binding, fingerprint := (listing, source), consumer := scan.consumer, offset := scan.offset, observed := scan.observed
      expires := (saved.map Saved.expires).getD (call.beginning + TOKEN_TTL) })

/-- The token of a page, where there is more; and the tokens then. -/
def issuePage (call : Call) (page : Page) (saved : Saved) : Except Failure (Page × Tokens) :=
  if page.hasMore then do
    let tokens ← issue call.issuingTokens call.issuing call.drawn saved
    return ({ page with nextCursor := some call.drawn }, tokens)
  else return (page, call.issuingTokens)

/-- What is checked of a page before it is returned. -/
def checkPage (bytes : Bytes Page) (call : Call) (page : Page) (saved : Saved) : Except Failure Unit := do
  verify request call.before.incarnation page.selectedSources saved.fingerprint.2 saved.fingerprint.1 call.returning
  reject (MAX_RESPONSE_BYTES < bytes.result page) (.value "STUDIO_USAGE_RESOURCE_UNAVAILABLE")
  call.returning.guard

/-- `_paged_usages`: the page, and the tokens after the call; a page that fails leaves no token of its own. -/
def pagedUsages (bytes : Bytes Page) (call : Call) : Except Failure (Page × Tokens) := do
  let (page, saved) ← scanPage request bytes call
  let (page, tokens) ← issuePage call page saved
  checkPage request bytes call page saved
  return (page, tokens)

end NovelStudio.Usages

/-! What a directory lists: each visible owner once, in order. -/

namespace NovelStudio.Usages

open Library Experimental

variable {request : Request} {world : World} {excluded : List Nat} {rows : Dict String (Option StoredRow)}

/-- What a directory lists of a stored row. -/
def listedRow (request : Request) (excluded : List Nat) (entry : String × Option StoredRow) : Option (String × String) :=
  match entry.2 with
  | none => none
  | some row =>
    if row.createdBy ≠ request.actor || row.novelId ≠ request.novelId || row.scope ≠ request.scope ||
        row.definition.any fun version => version.any (· ∈ excluded) then none
    else some (entry.1, row.digest)

theorem addRow_ok {result after : List (String × String)} {entry : String × Option StoredRow} (done : addRow request excluded result entry = .ok after) :
    after = result ++ (listedRow request excluded entry).toList := by
  obtain ⟨key, stored⟩ := entry
  cases stored with
  | none =>
    obtain rfl := pure_ok.mp done
    exact (List.append_nil _).symm
  | some row =>
    dsimp only [addRow] at done
    dsimp only [listedRow]
    split at done
    · rename_i foreign
      obtain rfl := pure_ok.mp done
      rw [foreign]
      simp
    · rename_i own
      obtain ⟨_, _, done⟩ := bind_ok.mp done
      rw [eq_false_of_ne_true own, Bool.false_or]
      split at done
      · rename_i other
        obtain rfl := pure_ok.mp done
        rw [other]
        simp
      · rename_i kind
        obtain ⟨_, _, done⟩ := bind_ok.mp done
        obtain rfl := pure_ok.mp done
        rw [eq_false_of_ne_true kind]
        simp

theorem addRows_ok {entries : List (String × Option StoredRow)} {result : List (String × String)}
    (done : entries.foldlM (addRow request excluded) [] = .ok result) : result = entries.filterMap (listedRow request excluded) := by
  refine foldlM_invariant (motive := fun seen result => result = seen.filterMap (listedRow request excluded))
    ?_ rfl done
  intro before entry result next _ holds turned
  rw [addRow_ok turned, holds, List.filterMap_append]
  cases listed : listedRow request excluded entry with
  | none => simp [listed]
  | some row => simp [listed]

theorem directory_ok {listed : List (String × String)} (done : directory request excluded rows = .ok listed) :
    listed.Perm (rows.entries.filterMap (listedRow request excluded)) ∧ listed.Pairwise fun left right => toLex left ≤ toLex right := by
  obtain ⟨_, _, done⟩ := bind_ok.mp done
  obtain ⟨result, added, done⟩ := bind_ok.mp done
  obtain rfl := pure_ok.mp done
  rw [← addRows_ok added]
  exact ⟨List.perm_insertionSort _ _, List.pairwise_insertionSort _ _⟩

/-- A row that its owner, novel and scope make visible, under its digest. -/
def Visible (request : Request) (world : World) (entry : Entry) : Prop :=
  ∃ row, (world.rows entry.1).get? entry.2.1 = some (some row) ∧ row.createdBy = request.actor ∧ row.novelId = request.novelId ∧
    row.scope = request.scope ∧ row.digest = entry.2.2 ∧ (entry.1 = .graph → row.definition ≠ some (some 6) ∧ row.definition ≠ some (some 7))

def excludedSchemas (owner : Owner) : List Nat := if owner = .graph then [6, 7] else []

theorem listedRow_some {key : String} {stored : Option StoredRow} {listed : String × String} {owner : Owner} :
    listedRow request (excludedSchemas owner) (key, stored) = some listed ↔ listed.1 = key ∧ ∃ row, stored = some row ∧
      row.createdBy = request.actor ∧ row.novelId = request.novelId ∧ row.scope = request.scope ∧ row.digest = listed.2 ∧
      (owner = .graph → row.definition ≠ some (some 6) ∧ row.definition ≠ some (some 7)) := by
  cases stored with
  | none => simp [listedRow]
  | some row =>
    have kinds : (row.definition.any fun version => version.any (· ∈ excludedSchemas owner)) = false ↔
        (owner = .graph → row.definition ≠ some (some 6) ∧ row.definition ≠ some (some 7)) := by
      unfold excludedSchemas
      rcases row.definition with _ | _ | version
      · simp
      · simp
      · by_cases graph : owner = .graph <;> simp [graph]
    dsimp only [listedRow]
    split
    · rename_i hidden
      simp only [reduceCtorEq, Option.some.injEq, exists_eq_left', false_iff, not_and]
      intro _ author novel scope _ kind
      simp [author, novel, scope, kinds.mpr kind] at hidden
    · rename_i visible
      simp only [Bool.not_eq_true, Bool.or_eq_false_iff, decide_eq_false_iff_not, not_not] at visible
      simp only [Option.some.injEq, exists_eq_left', visible.1.1.1, visible.1.1.2, visible.1.2, true_and]
      constructor
      · rintro rfl
        exact ⟨rfl, rfl, kinds.mp visible.2⟩
      · rintro ⟨rfl, same, _⟩
        exact Prod.ext rfl same

theorem listedRows_keys (entries : List (String × Option StoredRow)) :
    ((entries.filterMap (listedRow request excluded)).map Prod.fst).Sublist (entries.map Prod.fst) := by
  induction entries with
  | nil => exact List.Sublist.slnil
  | cons entry rest ih =>
    cases listed : listedRow request excluded entry with
    | none =>
      rw [List.filterMap_cons_none listed]
      exact ih.cons _
    | some row =>
      have same : row.1 = entry.1 := by
        unfold listedRow at listed
        split at listed
        · cases listed
        · split at listed
          · cases listed
          · obtain rfl := Option.some.inj listed
            rfl
      rw [List.filterMap_cons_some listed, List.map_cons, List.map_cons, same]
      exact ih.cons_cons _

theorem usageDirectory_ok {owner : Owner} {listed : List Entry} (done : usageDirectory request world owner = .ok listed) :
    (∀ entry, entry ∈ listed ↔ entry.1 = owner ∧ Visible request world entry) ∧ (listed.map fun entry => (entry.1, entry.2.1)).Nodup := by
  obtain ⟨_, _, done⟩ := bind_ok.mp done
  obtain ⟨directory, found, done⟩ := bind_ok.mp done
  obtain ⟨_, _, done⟩ := bind_ok.mp done
  obtain rfl := pure_ok.mp done
  obtain ⟨same, _⟩ := directory_ok found
  constructor
  · intro entry
    rw [List.mem_map]
    constructor
    · rintro ⟨row, member, rfl⟩
      obtain ⟨⟨key, stored⟩, present, listed⟩ := List.mem_filterMap.mp (same.mem_iff.mp member)
      obtain ⟨rfl, row, rfl, visible⟩ := listedRow_some.mp listed
      exact ⟨rfl, row, Dict.get?_eq_some_iff.mpr present, visible⟩
    · rintro ⟨rfl, row, present, visible⟩
      refine ⟨entry.2, same.mem_iff.mpr (List.mem_filterMap.mpr ⟨(entry.2.1, some row), Dict.get?_eq_some_iff.mp present, ?_⟩), rfl⟩
      exact listedRow_some.mpr ⟨rfl, row, rfl, visible⟩
  · rw [List.map_map]
    apply List.Nodup.of_map Prod.snd
    rw [List.map_map]
    exact (same.map Prod.fst).nodup_iff.mpr ((listedRows_keys _).nodup (world.rows owner).distinct)

variable {owners : List Owner}

theorem usageDirectories_ok : ∀ {listings : List (List Entry)}, owners.Nodup →
    owners.mapM (usageDirectory request world) = .ok listings →
    (∀ entry, entry ∈ listings.flatten ↔ entry.1 ∈ owners ∧ Visible request world entry) ∧
      (listings.flatten.map fun entry => (entry.1, entry.2.1)).Nodup := by
  induction owners with
  | nil =>
    intro listings _ done
    obtain rfl := pure_ok.mp done
    simp
  | cons owner rest ih =>
    intro listings distinct done
    rw [List.mapM_cons] at done
    obtain ⟨listed, here, done⟩ := bind_ok.mp done
    obtain ⟨others, later, done⟩ := bind_ok.mp done
    obtain rfl := pure_ok.mp done
    obtain ⟨absent, distinct⟩ := List.nodup_cons.mp distinct
    obtain ⟨first, once⟩ := usageDirectory_ok here
    obtain ⟨second, others'⟩ := ih distinct later
    constructor
    · intro entry
      rw [List.flatten_cons, List.mem_append, first, second, List.mem_cons, ← or_and_right]
    · rw [List.flatten_cons, List.map_append]
      refine List.nodup_append.mpr ⟨once, others', ?_⟩
      intro left isLeft right isRight same
      obtain ⟨entry, listed, rfl⟩ := List.mem_map.mp isLeft
      obtain ⟨other, listed', rfl⟩ := List.mem_map.mp isRight
      obtain ⟨rfl, _⟩ := (first entry).mp listed
      obtain ⟨inside, _⟩ := (second other).mp listed'
      exact absent (congrArg Prod.fst same ▸ inside)

/-- A listing: every visible owner that is asked for, once, in the order of the names and keys. -/
structure Listed (request : Request) (owners : List Owner) (world : World) (listing : List Entry) : Prop where
  member : ∀ entry, entry ∈ listing ↔ entry.1 ∈ owners ∧ Visible request world entry
  once : (listing.map fun entry => (entry.1, entry.2.1)).Nodup
  ordered : listing.Pairwise fun left right => toLex (left.1.name, toLex left.2) ≤ toLex (right.1.name, toLex right.2)

theorem discover_ok {listing : List Entry} (distinct : owners.Nodup) (done : discover request owners world = .ok listing) :
    Listed request owners world listing := by
  obtain ⟨listings, found, done⟩ := bind_ok.mp done
  obtain rfl := pure_ok.mp done
  obtain ⟨member, once⟩ := usageDirectories_ok distinct found
  exact {
    member := fun entry => (List.mem_insertionSort _).trans (member entry)
    once := (List.Perm.map _ (List.perm_insertionSort _ _)).nodup_iff.mpr once
    ordered := List.pairwise_insertionSort _ _ }

theorem owners_distinct {name : String} (chosen : Usages.owners request = .ok (name, owners)) : owners.Nodup := by
  unfold Usages.owners at chosen
  split at chosen
  · have pair := pure_ok.mp chosen
    split at pair
    · obtain ⟨_, rfl⟩ := Prod.mk.inj pair
      exact List.nodup_singleton _
    · obtain ⟨_, rfl⟩ := Prod.mk.inj pair
      exact List.nodup_singleton _
  · obtain ⟨_, _, chosen⟩ := bind_ok.mp chosen
    obtain ⟨_, _, chosen⟩ := bind_ok.mp chosen
    obtain ⟨_, rfl⟩ := Prod.mk.inj (pure_ok.mp chosen)
    split <;> split <;> simp

end NovelStudio.Usages
