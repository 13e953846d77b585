import NovelStudio.Experimental.Rows

/-! Reviewed facts of a story (`world.py`, `story_graph.py`): the records of both services,
and the canon entries that they promote. -/

namespace NovelStudio.World

open Library Experimental

inductive Kind where
  | history | geography | civilization | ability | abilityUse | psychology | relationship | characterEvent | characterVisual | sceneVisual
  | storyConcept | storyRelation | knowledgeEvent
  deriving DecidableEq

/-- `kind in GRAPH_KINDS`; the other kinds are those of `DATA_MODELS`. -/
def Kind.graph : Kind → Bool
  | .storyConcept | .storyRelation | .knowledgeEvent => true
  | _ => false

structure HistoryData where
  time : Int
  endTime : Option Int
  characterIds : List String
  locationIds : List String
  /-- The events that its relations name. -/
  relations : List String

structure GeographyData where
  locationId : String
  regionId : Option String
  ownerId : Option String
  /-- The locations that its relations name. -/
  relations : List String
  supersedesId : Option String

structure CivilizationData where
  parentId : Option String
  locationIds : List String

structure AbilityData where
  conflictsWith : List String

structure AbilityUseData where
  characterId : String
  ruleId : String

structure PsychologyData where
  characterId : String
  arcId : String
  previousSnapshotId : Option String

structure RelationshipData where
  sourceCharacterId : String
  targetCharacterId : String
  previousRecordId : Option String
  eventId : Option String

structure CharacterEventData where
  characterId : String
  locationId : Option String

structure CharacterVisualData where
  characterId : String

structure SceneVisualData where
  locationId : String

inductive ConceptType where
  | item | object | secret | foreshadowing
  deriving DecidableEq

inductive NodeKind where
  | character | location | chapter | scene | organization | event | rule
  | concept (conceptType : ConceptType)
  deriving DecidableEq

structure GraphNode where
  kind : NodeKind
  id : String

structure Evidence where
  chapterId : String
  quote : String
  start : Nat

structure TemporalData where
  sceneId : Option String
  worldTime : Option Int
  validFrom : Option Int
  validTo : Option Int
  calendar : String
  untilChapterId : Option String
  evidence : List Evidence

structure ConceptData extends TemporalData where
  conceptType : ConceptType

inductive Layer where
  | worldFact | characterBelief | research | speculation
  deriving DecidableEq

inductive RelationName where
  | locatedAt | memberOf | owns | alliedWith | opposes | causes | precedes | reveals | foreshadows | contradicts | about | knows | believes
  | belongsTo | hates | trusts | relatedTo | appearsIn

structure RelationData extends TemporalData where
  subject : GraphNode
  object : GraphNode
  relation : RelationName
  layer : Layer
  statement : String
  observerId : Option String

inductive Operation where
  | learn | hearsay | forget | misunderstand | correct | goalChange | setState
  deriving DecidableEq

inductive Category where
  | knownFact | belief | falseBelief | secret | goal | fear | value | emotion | intent | relationshipState
  deriving DecidableEq

/-- `category in {'KNOWN_FACT', 'BELIEF', 'FALSE_BELIEF', 'SECRET'}`. -/
def Category.epistemic : Category → Bool
  | .knownFact | .belief | .falseBelief | .secret => true
  | _ => false

inductive EvidenceStatus where
  | explicit | hypothesis

structure KnowledgeData extends TemporalData where
  characterId : String
  operation : Operation
  category : Category
  relationId : Option String
  psychologyId : Option String
  value : String
  stateKey : String
  evidenceStatus : EvidenceStatus

inductive Data where
  | history (data : HistoryData)
  | geography (data : GeographyData)
  | civilization (data : CivilizationData)
  | ability (data : AbilityData)
  | abilityUse (data : AbilityUseData)
  | psychology (data : PsychologyData)
  | relationship (data : RelationshipData)
  | characterEvent (data : CharacterEventData)
  | characterVisual (data : CharacterVisualData)
  | sceneVisual (data : SceneVisualData)
  | storyConcept (data : ConceptData)
  | storyRelation (data : RelationData)
  | knowledgeEvent (data : KnowledgeData)

def Data.kind : Data → Kind
  | .history _ => .history
  | .geography _ => .geography
  | .civilization _ => .civilization
  | .ability _ => .ability
  | .abilityUse _ => .abilityUse
  | .psychology _ => .psychology
  | .relationship _ => .relationship
  | .characterEvent _ => .characterEvent
  | .characterVisual _ => .characterVisual
  | .sceneVisual _ => .sceneVisual
  | .storyConcept _ => .storyConcept
  | .storyRelation _ => .storyRelation
  | .knowledgeEvent _ => .knowledgeEvent

def Data.knowledge : Data → Option KnowledgeData
  | .knowledgeEvent data => some data
  | _ => none

def Data.temporal : Data → Option TemporalData
  | .storyConcept data => some data.toTemporalData
  | .storyRelation data => some data.toTemporalData
  | .knowledgeEvent data => some data.toTemporalData
  | _ => none

/-- `reference if reference else None`. -/
def named (reference : Option String) : Option String := reference.filter (· ≠ "")

structure Payload where
  title : String
  chapterId : Option String
  eventOrder : Nat
  data : Data

inductive Service where
  | world | storyGraph
  deriving DecidableEq

def TemporalData.interval (data : TemporalData) : Except Failure Unit :=
  match data.validFrom, data.validTo with
  | some start, some stop => reject (stop ≤ start) (.value "valid_to must be later than valid_from (exclusive end)")
  | _, _ => return ()

def KnowledgeData.operationShape (data : KnowledgeData) : Except Failure Unit := do
  reject (data.category.epistemic && named data.relationId = none) (.value "knowledge requires a reviewed relation")
  reject (data.operation ∈ [.misunderstand, .hearsay] && data.category ∉ [.belief, .falseBelief])
    (.value "hearsay and misunderstanding are beliefs, never facts")
  reject (data.operation = .misunderstand && data.category ≠ .falseBelief) (.value "misunderstanding requires FALSE_BELIEF")
  reject (data.category ∉ [.knownFact, .secret] && data.value = "" && data.operation ≠ .forget)
    (.value "this knowledge change needs its own explicit value")
  reject (data.category = .relationshipState && named data.relationId = none) (.value "relationship state requires a reviewed relation")
  reject (data.operation = .goalChange && data.category ≠ .goal) (.value "goal change requires GOAL")

def Data.validated : Data → Except Failure Unit
  | .history data => reject (data.endTime.any (· < data.time)) (.value "history event end cannot precede its start")
  | .relationship data =>
    reject (data.sourceCharacterId = data.targetCharacterId) (.value "a relationship needs two different characters")
  | .storyConcept data => data.interval
  | .storyRelation data => do
    data.interval
    reject (data.layer = .characterBelief && named data.observerId = none) (.value "character belief requires an observer")
  | .knowledgeEvent data => do
    data.interval
    data.operationShape
  | _ => return ()

/-- `_payload`. -/
def Payload.checked (service : Service) (payload : Payload) : Except Failure Unit := do
  reject (payload.data.kind.graph ≠ (service = .storyGraph)) (.value "kind")
  payload.data.validated
  match service with
  | .world =>
    reject (payload.data.kind ∈ [.abilityUse, .psychology, .relationship, .characterEvent] && named payload.chapterId = none)
      (.value "requires a real chapter reference")
  | .storyGraph => reject (named payload.chapterId = none || payload.eventOrder > 1000000) (.value "chapter_id")

/-- The version and digest that a source had when it was captured. -/
structure Source where
  version : Nat
  digest : String
  deriving DecidableEq

structure Links where
  characterIds : List String
  locationIds : List String

/-- Where a scene stands among its siblings. -/
structure ScenePlace where
  position : Int
  parentId : Option String
  deriving DecidableEq

/-- The fields that a canon entry takes over from its record. -/
structure Content extends Payload where
  sources : Dict String Source
  effectiveChapter : Nat
  links : Links
  entitySources : Dict String String
  semanticSources : Dict String Source

inductive Status where
  | review | approved | rejected | archived
  deriving DecidableEq

inductive CanonState where
  | candidate | canon | reviewed

structure Snapshot where
  id : String
  version : Nat
  createdAt : String
  status : Status
  canonState : CanonState
  canonId : Option String
  content : Content
  effectiveUntil : Option Nat
  scene : Option ScenePlace
  /-- Set for the drafts of adopted research. -/
  researchSources : Bool

structure Record extends Snapshot where
  history : List Snapshot

namespace Record

def data (row : Record) : Data := row.content.data

def kind (row : Record) : Kind := row.data.kind

def visibleKind (service : Service) (row : Record) : Bool := !row.researchSources && (service = .storyGraph || !row.kind.graph)

def promotesCanon (row : Record) : Bool :=
  !row.kind.graph ||
    match row.data with
    | .storyRelation data => data.layer = .worldFact
    | _ => false

/-- `change_row`, after its version check. -/
def change (row : Record) (callback : Record → Record) : Record :=
  { callback row with id := row.id, createdAt := row.createdAt, version := row.version + 1, history := row.history ++ [row.toSnapshot] }

end Record

inductive EntryStatus where
  | active | archived
  deriving DecidableEq

structure CanonEntry where
  id : String
  version : Nat
  status : EntryStatus
  content : Content
  sourceRecordId : String
  sourceRecordVersion : Nat

/-- `change_row` of a canon entry. -/
def CanonEntry.change (entry : CanonEntry) (callback : CanonEntry → CanonEntry) : CanonEntry :=
  { callback entry with id := entry.id, version := entry.version + 1 }

structure Store where
  records : Dict String Record
  canon : Dict String CanonEntry

def Store.empty : Store := ⟨∅, ∅⟩

def requireRow (records : Dict String Record) (rid : String) : Except Failure Record := fetch (records.get? rid) (.notFound rid)

end NovelStudio.World
