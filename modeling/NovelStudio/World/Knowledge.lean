import Mathlib
import NovelStudio.World.Calls
import NovelStudio.World.Mirror

/-! What a character knows and feels at a point of the story (`_projection`,
`character_context`), from the reviewed knowledge events. -/

namespace NovelStudio.World

open Library Experimental

structure Query where
  characterId : String
  chapterId : String
  worldTime : Option Int
  calendar : String
  sceneId : Option String

/-- The point as the novel knows it: the narrative sequence of its chapter, and its scene. -/
structure Point where
  number : Nat
  scene : Option Boundary

variable (outside : Outside) (records : Dict String Record) (query : Query) (point : Point)

def narrativeReached (row : Record) : Bool :=
  row.content.effectiveChapter ≤ point.number &&
    match point.scene with
    | none => true
    | some scene =>
      row.content.effectiveChapter < point.number ||
        -- The reviewed boundary, not a later edited scene order.
        (row.data.temporal.bind fun data => named data.sceneId).isSome &&
          row.scene.any fun place => place.parentId = scene.place.parentId && place.position ≤ scene.place.position

/-- The world time asked for, if any, is not before the data begins to hold; unknown time never does. -/
def begun (data : TemporalData) : Bool :=
  match query.worldTime with
  | none => true
  | some time =>
    data.calendar = query.calendar && (data.worldTime.isSome || data.validFrom.isSome || data.validTo.isSome) &&
      data.worldTime.all (· ≤ time) && data.validFrom.all (· ≤ time)

/-- The world time asked for, if any, is one at which the data holds. -/
def timely (data : TemporalData) : Bool :=
  begun query data &&
    match query.worldTime with
    | none => true
    | some time => data.validTo.all (time < ·)

/-- `_assert_fresh` does not raise. -/
def isFresh (row : Record) : Bool := endsWith (fun _ => true) (assertFresh outside records .storyGraph row)

def current (row : Record) : Bool :=
  row.status = .approved && narrativeReached point row && row.effectiveUntil.all (point.number < ·) &&
    row.data.temporal.any (timely query) && isFresh outside records row

def activeRecords : Dict String Record := records.filterValues fun row => row.kind.graph && current outside records query point row

structure KnowledgeEvent where
  row : Record
  data : KnowledgeData

def eventOf (row : Record) : Option KnowledgeEvent := row.data.knowledge.map fun data => ⟨row, data⟩

/-- A record that is approved, or was: it keeps its place until it is corrected. -/
def Record.everApproved (row : Record) : Bool := row.status = .approved || row.history.any (·.status = .approved)

/-- An event of the character that the point asked for does not precede, whatever the scene. -/
def KnowledgeEvent.considered (event : KnowledgeEvent) : Bool :=
  event.data.characterId = query.characterId && event.row.content.effectiveChapter ≤ point.number && event.row.everApproved &&
    begun query event.data.toTemporalData

def KnowledgeEvent.reached (event : KnowledgeEvent) : Bool := event.considered query point && narrativeReached point event.row

/-- An event of the chapter asked for whose scene can not be compared with the one asked for. -/
def KnowledgeEvent.uncertain (event : KnowledgeEvent) : Bool :=
  event.considered query point && !narrativeReached point event.row &&
    point.scene.any fun scene =>
      event.row.content.effectiveChapter = point.number &&
        (named event.data.sceneId = none || event.row.scene.bind ScenePlace.parentId ≠ scene.place.parentId)

/-- The sort key of an event: its chapter, its scene (none goes last), its order, its time and id. -/
abbrev Place := Nat ×ₗ WithTop Int ×ₗ Nat ×ₗ String ×ₗ String

def KnowledgeEvent.place (event : KnowledgeEvent) : Place :=
  toLex (event.row.content.effectiveChapter, toLex ((event.row.scene.map ScenePlace.position : WithTop Int),
    toLex (event.row.content.eventOrder, toLex (event.row.createdAt, event.row.id))))

/-- What an event is about: a relation, or a state of mind. -/
inductive Key where
  | knowledge (relationId : Option String)
  | mental (category : Category) (stateKey : String)
  deriving DecidableEq

def KnowledgeEvent.key (event : KnowledgeEvent) : Key :=
  if event.data.category.epistemic then .knowledge event.data.relationId else .mental event.data.category event.data.stateKey

def allEvents : List KnowledgeEvent := records.values.filterMap eventOf

/-- `events`, sorted. -/
def events : List KnowledgeEvent :=
  ((allEvents records).filter fun event => event.reached query point).insertionSort fun left right => left.place ≤ right.place

def uncertainEvents : List KnowledgeEvent := (allEvents records).filter fun event => event.uncertain query point

/-- The event that is shown under its key, if any, once it has its turn. -/
def KnowledgeEvent.shown (active : Dict String Record) (event : KnowledgeEvent) : Option KnowledgeEvent :=
  if event.row.id ∉ active.keys ∨ event.data.operation = .forget then none
  else match named event.data.relationId with
    | none => some event
    | some rid => if rid ∈ active.keys then some event else none

/-- `knowledge` and `mental`, told apart by their keys. -/
def shownEvents (active : Dict String Record) : Dict Key KnowledgeEvent :=
  let known := (events records query point).foldl (fun shown event => shown.write event.key (event.shown active)) ∅
  (uncertainEvents records query point).foldl (fun shown event => shown.erase event.key) known

structure Projection where
  active : Dict String Record
  shown : Dict Key KnowledgeEvent
  scene : Option Boundary

def projection : Except Failure Projection := do
  discard (outside.entitySources ⟨[query.characterId], []⟩)
  let number ← outside.sequence query.chapterId
  discard (rows outside records)
  let scene ← sceneBoundary outside query.sceneId query.chapterId
  let active := activeRecords outside records query ⟨number, scene⟩
  return ⟨active, shownEvents records query ⟨number, scene⟩ active, scene⟩

structure ContextItem where
  category : Category
  text : String
  evidenceStatus : EvidenceStatus
  recordId : String
  recordVersion : Nat
  chapterId : Option String
  sourceVersions : Dict String Source
  relationVersion : Option Nat

def statement : Data → String
  | .storyRelation data => data.statement
  | _ => ""

def contextItem (active : Dict String Record) (event : KnowledgeEvent) : ContextItem :=
  let relation := event.data.relationId.bind active.get?
  let text := match relation, event.data.category with
    | some row, .knownFact | some row, .secret => statement row.data
    | _, _ => event.data.value
  ⟨event.data.category, text, event.data.evidenceStatus, event.row.id, event.row.version, event.row.content.chapterId,
    event.row.content.sources, relation.map fun row => row.version⟩

def Key.epistemic : Key → Bool
  | .knowledge _ => true
  | .mental .. => false

/-- The items of `character_context`: what is known, and then the states of mind. -/
def characterContext : Except Failure (List ContextItem) := do
  let projected ← projection outside records query
  let ordered := projected.shown.entries.filter (fun entry => entry.1.epistemic) ++
    projected.shown.entries.filter fun entry => !entry.1.epistemic
  return ordered.map fun entry => contextItem projected.active entry.2

end NovelStudio.World

/-! What the projection of a character shows: only the latest event for its key, and only
while that holds. -/

namespace NovelStudio.World

open Library Experimental

variable {outside : Outside} {records : Dict String Record} {query : Query} {point : Point} {active : Dict String Record} {store : Store}

variable {event : KnowledgeEvent}

theorem shown_some {shown : KnowledgeEvent} (shows : event.shown active = some shown) :
    shown = event ∧ event.row.id ∈ active.keys ∧ event.data.operation ≠ .forget ∧
      ∀ {rid}, named event.data.relationId = some rid → rid ∈ active.keys := by
  unfold KnowledgeEvent.shown at shows
  split at shows
  · cases shows
  · rename_i holds
    simp only [not_or, not_not] at holds
    split at shows
    · rename_i unrelated
      cases shows
      exact ⟨rfl, holds.1, holds.2, fun related => by simp [unrelated] at related⟩
    · rename_i rid related
      split at shows
      · rename_i inside
        cases shows
        refine ⟨rfl, holds.1, holds.2, fun other => ?_⟩
        cases related.symm.trans other
        exact inside
      · cases shows

/-- The writes that the events make under their keys, the uncertain ones last. -/
def keyWrites (records : Dict String Record) (query : Query) (point : Point) (active : Dict String Record) :
    List (Key × Option KnowledgeEvent) :=
  (events records query point).map (fun event => (event.key, event.shown active)) ++
    (uncertainEvents records query point).map fun event => (event.key, none)

theorem shownEvents_eq : shownEvents records query point active =
    (keyWrites records query point active).foldl (fun shown entry => shown.write entry.1 entry.2) ∅ := by
  rw [keyWrites, List.foldl_append, List.foldl_map, List.foldl_map]
  rfl

theorem mem_events :
    event ∈ events records query point ↔ event ∈ allEvents records ∧ event.reached query point = true := by
  rw [events, List.mem_insertionSort, List.mem_filter]

theorem shown_last (found : (shownEvents records query point active).get? key = some event) :
    event ∈ events records query point ∧ event.key = key ∧ event.shown active = some event ∧
      ∀ other ∈ events records query point, other.key = key → other.place ≤ event.place := by
  rw [shownEvents_eq, Dict.get?_foldl_write] at found
  split at found
  · rename_i entry last
    rw [keyWrites, List.filter_append, List.getLast?_append, List.filter_map, List.filter_map, List.getLast?_map, List.getLast?_map] at last
    rcases Option.or_eq_some_iff.mp last with erased | ⟨_, written⟩
    · obtain ⟨_, _, rfl⟩ := Option.map_eq_some_iff.mp erased
      cases found
    · obtain ⟨last, located, rfl⟩ := Option.map_eq_some_iff.mp written
      obtain ⟨rfl, _⟩ := shown_some found
      obtain ⟨before, split⟩ := List.getLast?_eq_some_iff.mp located
      have inside := List.mem_filter.mp (List.mem_of_getLast? located)
      have sorted : ((events records query point).filter ((fun entry => decide (entry.1 = key)) ∘
          fun event : KnowledgeEvent => (event.key, event.shown active))).Pairwise fun left right => left.place ≤ right.place :=
        (List.pairwise_insertionSort _ _).filter _
      rw [split, List.pairwise_append] at sorted
      refine ⟨inside.1, by simpa using inside.2, found, fun other member same => ?_⟩
      have kept : other ∈ before ++ [event] := split ▸ List.mem_filter.mpr ⟨member, by simpa using same⟩
      rcases List.mem_append.mp kept with early | here
      · exact sorted.2.2 other early event (List.mem_singleton_self _)
      · rw [List.mem_singleton.mp here]
  · cases found

/-- Every stored record has passed the checks of its payload. -/
def Checked (store : Store) : Prop := ∀ {rid row}, store.records.get? rid = some row → row.data.validated = .ok ()

theorem validated_of_checked {payload : Payload} (checked : payload.checked service = .ok ()) : payload.data.validated = .ok () := by
  simp only [Payload.checked, bind_ok] at checked
  obtain ⟨_, _, _, validated, _⟩ := checked
  exact validated

/-- The records after a call: one is new or another version, with data that is checked or was stored. -/
theorem effect_records (effect : Effect outside store call next) :
    ∃ rid changed, next.records = store.records.set rid changed ∧
      (changed.data.validated = .ok () ∨ ∃ row, store.records.get? rid = some row ∧ changed.data = row.data) := by
  cases effect with
  | create checked => exact ⟨_, _, rfl, .inl (validated_of_checked checked)⟩
  | draft checked => exact ⟨_, _, rfl, .inl (validated_of_checked checked)⟩
  | edit checked => exact ⟨_, _, rfl, .inl (validated_of_checked checked)⟩
  | promote found => exact ⟨_, _, rfl, .inr ⟨_, found, rfl⟩⟩
  | @demote rid row action after service fresh found status kept done =>
    exact ⟨rid, row.reviewed action, demote_records done, .inr ⟨row, found, rfl⟩⟩

theorem run_checked (run : Run Step Store.empty calls store) : Checked store := by
  refine run.invariant (motive := Checked) (fun found => nomatch found) fun {state label next} checked last => ?_
  cases last with
  | transact outside guards unused =>
    rcases transact_cases outside guards label state with ⟨_, done⟩ | ⟨next, done, effect⟩
    · rw [done]
      exact checked
    · rw [done]
      intro rid row found
      obtain ⟨rid', changed, records, validated⟩ := effect_records effect
      rw [records, Dict.get?_set] at found
      split at found
      · cases found
        rcases validated with valid | ⟨old, there, same⟩
        · exact valid
        · rw [same]
          exact checked there
      · exact checked found

/-- An event is the latest for its key of those that the point asked for has reached: in the
narrative, and in its world time where one is asked for. -/
structure Latest (records : Dict String Record) (query : Query) (point : Point) (event : KnowledgeEvent) : Prop where
  stored : records.get? event.row.id = some event.row ∧ event.row.data = .knowledgeEvent event.data
  reached : event.reached query point = true
  last : ∀ {rid row other}, records.get? rid = some row → eventOf row = some other → other.reached query point = true →
    other.key = event.key → other.place ≤ event.place

/-- An event still holds at a point: its record is approved, fresh and valid there, it is no
forgetting, and the relation that it is about is current. -/
structure Holds (outside : Outside) (records : Dict String Record) (query : Query) (point : Point) (event : KnowledgeEvent) : Prop where
  approved : event.row.status = .approved
  fresh : assertFresh outside records .storyGraph event.row = .ok ()
  timely : timely query event.data.toTemporalData = true
  lasting : event.row.effectiveUntil.all (point.number < ·) = true
  remembered : event.data.operation ≠ .forget
  related : event.data.category.epistemic = true → ∃ rid relation, named event.data.relationId = some rid ∧
    records.get? rid = some relation ∧ current outside records query point relation = true

theorem mem_allEvents :
    event ∈ allEvents records ↔ ∃ rid, records.get? rid = some event.row ∧ event.row.data = .knowledgeEvent event.data := by
  simp only [allEvents, List.mem_filterMap, Dict.mem_values_iff]
  constructor
  · rintro ⟨row, ⟨rid, found⟩, made⟩
    obtain ⟨data, knowledge, rfl⟩ := Option.map_eq_some_iff.mp made
    unfold Data.knowledge at knowledge
    split at knowledge
    · rename_i same
      cases knowledge
      exact ⟨rid, found, same⟩
    · cases knowledge
  · rintro ⟨rid, found, same⟩
    exact ⟨event.row, ⟨rid, found⟩, by simp [eventOf, same, Data.knowledge]⟩

theorem mem_activeRecords {rid : String} : rid ∈ (activeRecords outside records query point).keys ↔
    ∃ row, records.get? rid = some row ∧ row.kind.graph = true ∧ current outside records query point row = true := by
  simp [Dict.mem_keys_iff, activeRecords, Dict.get?_filterValues]

theorem fresh_of_isFresh {row : Record} (fresh : isFresh outside records row = true) : assertFresh outside records .storyGraph row = .ok () := by
  obtain ⟨_, done, _⟩ := ok_of_endsWith _ _ fresh
  exact done

theorem named_of_epistemic {data : KnowledgeData} (shaped : data.operationShape = .ok ()) (epistemic : data.category.epistemic = true) :
    ∃ rid, named data.relationId = some rid := by
  simp only [KnowledgeData.operationShape, bind_ok, reject_ok] at shaped
  obtain ⟨_, named, _⟩ := shaped
  rw [epistemic, Bool.true_and, decide_eq_false_iff_not] at named
  exact Option.ne_none_iff_exists'.mp named

/-- A projection shows under a key only the latest event reached for it, and only while it holds. -/
theorem shown_latest (mirrored : Mirrored store) (checked : Checked store)
    (found : (shownEvents store.records query point (activeRecords outside store.records query point)).get? key = some event) :
    event.key = key ∧ Latest store.records query point event ∧ Holds outside store.records query point event := by
  obtain ⟨member, same, shows, last⟩ := shown_last found
  obtain ⟨inside, reached⟩ := mem_events.mp member
  obtain ⟨_, activated, remembered, related⟩ := shown_some shows
  obtain ⟨rid, there, data⟩ := mem_allEvents.mp inside
  cases mirrored.ids there
  obtain ⟨row, there', _, holds⟩ := mem_activeRecords.mp activated
  cases there.symm.trans there'
  simp only [current, Bool.and_eq_true, decide_eq_true_eq, data, Data.temporal, Option.any_some] at holds
  obtain ⟨⟨⟨⟨approved, _⟩, lasting⟩, timely⟩, fresh⟩ := holds
  refine ⟨same, ⟨⟨there, data⟩, reached, fun {rid row other} found made reached' same' => ?_⟩, approved, fresh_of_isFresh fresh, timely, lasting,
    remembered, fun epistemic => ?_⟩
  · refine last other (mem_events.mpr ⟨?_, reached'⟩) (same'.trans same)
    rw [allEvents, List.mem_filterMap]
    exact ⟨row, Dict.mem_values_iff.mpr ⟨rid, found⟩, made⟩
  · have validated := checked there
    rw [data] at validated
    simp only [Data.validated, bind_ok] at validated
    obtain ⟨_, _, shaped⟩ := validated
    obtain ⟨rid, named⟩ := named_of_epistemic shaped epistemic
    obtain ⟨relation, found, _, holds⟩ := mem_activeRecords.mp (related named)
    exact ⟨rid, relation, named, found, holds⟩

end NovelStudio.World
