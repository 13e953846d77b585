import Mathlib.Data.List.Sort
import Mathlib.Data.String.Basic
import NovelStudio.World.Records

/-! What a record is captured with (`_references`, `_capture`, `capture_graph`), and whether
that still holds (`_assert_fresh`). -/

namespace NovelStudio.World

open Library Experimental

/-- `scene_boundary` of a scene. -/
structure Boundary where
  id : String
  place : ScenePlace
  digest : String

/-- What the services read apart from their records: the novel, its chapters and entities, and
its planned scenes. -/
structure Outside where
  /-- `novels.get(nid)`. -/
  novel : Except Failure Unit
  scopedSources : List String → Except Failure (Dict String Source)
  /-- The narrative sequence of `_chapter`. -/
  sequence : String → Except Failure Nat
  content : String → Except Failure String
  entitySources : Links → Except Failure (Dict String String)
  /-- `scene_boundary` of a scene in a chapter. -/
  boundary : String → String → Except Failure Boundary
  /-- The stamps of a planned scene that is available and current, and its sources. -/
  plannedScene : String → Except Failure (Dict String String × Dict String Source)
  assertSources : Dict String Source → Except Failure Unit
  digest : Snapshot → String

variable (outside : Outside) (records : Dict String Record)

def sceneBoundary (sceneId : Option String) (chapterId : String) : Except Failure (Option Boundary) :=
  match named sceneId with
  | none => return none
  | some sceneId => some <$> outside.boundary sceneId chapterId

structure Capture where
  sources : Dict String Source
  effectiveChapter : Nat
  effectiveUntil : Option Nat
  links : Links
  entitySources : Dict String String
  semanticSources : Dict String Source
  scene : Option ScenePlace

/-- `sorted(set(ids))`. -/
def sortedSet (ids : List String) : List String := ids.dedup.insertionSort (· ≤ ·)

def stamp (row : Record) : Source := ⟨row.version, outside.digest row.toSnapshot⟩

structure References where
  characters : List String
  locations : List String
  dependencies : List (String × Kind)

def dependency (reference : Option String) (kind : Kind) : List (String × Kind) := (named reference).toList.map (·, kind)

def references : Data → Except Failure References
  | .history data => return ⟨data.characterIds, data.locationIds, data.relations.map (·, .history)⟩
  | .geography data => do
    reject (data.regionId = some data.locationId) (.value "a location cannot contain itself")
    return ⟨[], [data.locationId] ++ (named data.regionId).toList ++ data.relations,
      dependency data.ownerId .civilization ++ dependency data.supersedesId .geography⟩
  | .civilization data => return ⟨[], data.locationIds, dependency data.parentId .civilization⟩
  | .ability data => return ⟨[], [], data.conflictsWith.map (·, .ability)⟩
  | .abilityUse data => return ⟨[data.characterId], [], [(data.ruleId, .ability)]⟩
  | .psychology data => return ⟨[data.characterId], [], dependency data.previousSnapshotId .psychology⟩
  | .relationship data => return ⟨[data.sourceCharacterId, data.targetCharacterId], [],
      dependency data.previousRecordId .relationship ++ dependency data.eventId .history⟩
  | .characterEvent data => return ⟨[data.characterId], (named data.locationId).toList, []⟩
  | .characterVisual data => return ⟨[data.characterId], [], []⟩
  | .sceneVisual data => return ⟨[], [data.locationId], []⟩
  | _ => throw (.value "unhandled world record kind")

/-- An approved record of a kind that another record, unless it is a new one, may refer to. -/
def referred (service : Service) (self : Option String) (rid : String) (kind : Kind) : Except Failure Record := do
  let row ← requireRow records rid
  reject (!row.visibleKind service) (.notFound rid)
  reject (row.status ≠ .approved || row.kind ≠ kind) (.value "semantic references require an approved record of the correct kind")
  reject (self = some row.id) (.value "self-referential semantic record")
  return row

/-- Whether a record may follow the one that it names as its predecessor. -/
def follows : Data → Data → Bool
  | .psychology data, .psychology prior => prior.characterId = data.characterId && prior.arcId = data.arcId
  | .relationship data, .relationship prior =>
    prior.sourceCharacterId = data.sourceCharacterId && prior.targetCharacterId = data.targetCharacterId
  | .geography data, .geography prior => prior.locationId = data.locationId
  | _, _ => false

def predecessor : Data → Option String
  | .psychology data => named data.previousSnapshotId
  | .relationship data => named data.previousRecordId
  | .geography data => named data.supersedesId
  | _ => none

/-- The check of the record that a record follows. -/
def checkPredecessor (data : Data) : Except Failure Unit :=
  match predecessor data with
  | none => return ()
  | some rid => do
    let prior ← requireRow records rid
    reject (!follows data prior.data) (.value "predecessor must identify the same subject")

def semanticSources (service : Service) (self : Option String) (dependencies : List (String × Kind)) :
    Except Failure (Dict String Source) :=
  dependencies.foldlM (fun refs dependency => do
    let row ← referred records service self dependency.1 dependency.2
    return refs.set dependency.1 (stamp outside row)) ∅

/-- The place of a record in the narrative, before all chapters where it names none. -/
def chapterNumber (chapterId : Option String) : Except Failure Nat :=
  match named chapterId with
  | some cid => outside.sequence cid
  | none => return 0

/-- `_capture` of a world record. -/
def captureWorld (service : Service) (self : Option String) (payload : Payload) : Except Failure Capture := do
  let sources ← outside.scopedSources (named payload.chapterId).toList
  let number ← chapterNumber outside payload.chapterId
  let named ← references payload.data
  let links : Links := ⟨sortedSet named.characters, sortedSet named.locations⟩
  let entities ← outside.entitySources links
  let refs ← semanticSources outside records service self named.dependencies
  checkPredecessor records payload.data
  return ⟨sources, number, none, links, entities, refs, none⟩

/-- What `capture_graph` gathers from the references of a record. -/
structure Gathered where
  sources : Dict String Source
  characterIds : List String
  locationIds : List String
  entities : Dict String String
  semantic : Dict String Source

def Gathered.addCharacter (gathered : Gathered) (id : String) : Gathered :=
  { gathered with characterIds := gathered.characterIds ++ [id] }

/-- The approved record of a kind that `world_ref` finds. -/
def worldRef (rid : String) (kind : Kind) : Except Failure Record := do
  let row ← requireRow records rid
  reject (row.status ≠ .approved || row.kind ≠ kind) (.value "reference must identify an approved record of the correct kind")
  return row

def Gathered.addRef (gathered : Gathered) (rid : String) (row : Record) : Gathered :=
  { gathered with semantic := gathered.semantic.set rid (stamp outside row) }

/-- `node`, for a node that is a record. -/
def recordNode (rid : String) (kind : Kind) (gathered : Gathered) : Except Failure Gathered := do
  let row ← worldRef records rid kind
  return gathered.addRef outside rid row

def conceptNode (rid : String) (conceptType : ConceptType) (gathered : Gathered) : Except Failure Gathered := do
  let row ← worldRef records rid .storyConcept
  match row.data with
  | .storyConcept data => reject (data.conceptType ≠ conceptType) (.value "concept type mismatch")
  | _ => throw (.other "KeyError")
  return gathered.addRef outside rid row

def node (ref : GraphNode) (gathered : Gathered) : Except Failure Gathered :=
  match ref.kind with
  | .character => return gathered.addCharacter ref.id
  | .location => return { gathered with locationIds := gathered.locationIds ++ [ref.id] }
  | .chapter => do
    let sources ← outside.scopedSources [ref.id]
    discard (outside.sequence ref.id)
    return { gathered with sources := gathered.sources.update sources }
  | .scene => do
    let (stamps, sources) ← outside.plannedScene ref.id
    return { gathered with entities := gathered.entities.update stamps, sources := gathered.sources.update sources }
  | .organization => recordNode outside records ref.id .civilization gathered
  | .event => recordNode outside records ref.id .history gathered
  | .rule => recordNode outside records ref.id .ability gathered
  | .concept conceptType => conceptNode outside records ref.id conceptType gathered

/-- Whether a character may take up a relation as an event of a category says. -/
def relationAllowed (data : KnowledgeData) : Data → Except Failure Unit
  | .storyRelation relation => do
    reject (data.category ∈ [.knownFact, .secret] && relation.layer ≠ .worldFact)
      (.value "research, speculation and belief cannot become known world fact")
    reject (relation.layer = .characterBelief && relation.observerId ≠ some data.characterId)
      (.value "another character belief must be recorded as a new hearsay claim")
  | _ => throw (.other "KeyError")

def relationRef (data : KnowledgeData) (gathered : Gathered) : Except Failure Gathered :=
  match named data.relationId with
  | none => return gathered
  | some rid => do
    let relation ← worldRef records rid .storyRelation
    relationAllowed data relation.data
    return gathered.addRef outside rid relation

def psychologyAllowed (data : KnowledgeData) : Data → Except Failure Unit
  | .psychology psychology =>
    reject (psychology.characterId ≠ data.characterId) (.value "psychology belongs to another character")
  | _ => throw (.other "KeyError")

def psychologyRef (data : KnowledgeData) (gathered : Gathered) : Except Failure Gathered :=
  match named data.psychologyId with
  | none => return gathered
  | some rid => do
    let psychology ← worldRef records rid .psychology
    psychologyAllowed data psychology.data
    return gathered.addRef outside rid psychology

/-- The references of a graph record. -/
def gather (data : Data) (gathered : Gathered) : Except Failure Gathered :=
  match data with
  | .storyRelation relation => do
    let gathered ← node outside records relation.subject gathered
    let gathered ← node outside records relation.object gathered
    match named relation.observerId with
    | none => return gathered
    | some observer => return gathered.addCharacter observer
  | .knowledgeEvent knowledge => do
    let gathered ← relationRef outside records knowledge (gathered.addCharacter knowledge.characterId)
    psychologyRef outside records knowledge gathered
  | _ => return gathered

/-- The quotes of a record stand where it says. -/
def checkEvidence (item : Evidence) : Except Failure Unit := do
  let content ← outside.content item.chapterId
  reject ((content.toList.drop item.start).take item.quote.length ≠ item.quote.toList)
    (.value "evidence quote does not match source at the selected offset")

/-- The chapter from which a record no longer holds. -/
def effectiveUntil (start : Nat) (untilChapterId : Option String) : Except Failure (Option Nat) :=
  match named untilChapterId with
  | none => return none
  | some cid => do
    let stop ← outside.sequence cid
    reject (stop ≤ start) (.value "end chapter must follow the originating chapter")
    return some stop

def captureGraph (payload : Payload) (data : TemporalData) : Except Failure Capture := do
  let chapterId ← fetch payload.chapterId (.other "None")
  let sources ← outside.scopedSources ([chapterId] ++ (named data.untilChapterId).toList ++ data.evidence.map Evidence.chapterId)
  let start ← outside.sequence chapterId
  let stop ← effectiveUntil outside start data.untilChapterId
  data.evidence.forM (checkEvidence outside)
  let scene ← sceneBoundary outside data.sceneId chapterId
  let stamps : Dict String String := match scene with
    | none => ∅
    | some scene => (∅ : Dict String String).set ("viewpoint_scene:" ++ scene.id) scene.digest
  let gathered ← gather outside records payload.data ⟨sources, [], [], stamps, ∅⟩
  let links : Links := ⟨sortedSet gathered.characterIds, sortedSet gathered.locationIds⟩
  let entities ← outside.entitySources links
  return ⟨gathered.sources, start, stop, links, gathered.entities.update entities, gathered.semantic, scene.map Boundary.place⟩

def capture (service : Service) (self : Option String) (payload : Payload) : Except Failure Capture :=
  match payload.data.temporal with
  | some data => captureGraph outside records payload data
  | none => captureWorld outside records service self payload

/-- The captured fields of a record are the present ones. -/
def unchanged (row : Record) (capture : Capture) : Bool :=
  capture.effectiveChapter = row.content.effectiveChapter && capture.entitySources.agrees row.content.entitySources &&
    capture.semanticSources.agrees row.content.semanticSources && capture.effectiveUntil = row.effectiveUntil

/-- `_assert_fresh`, below the records `seen` of its chain; `remaining` more fit in the bound. -/
def assertFreshBelow (service : Service) : Nat → List String → Record → Except Failure Unit
  | 0, _, _ => throw (.stale "semantic source chain exceeds bounded depth")
  | remaining + 1, seen, row => do
    reject row.researchSources (.stale "research draft requires current research authority")
    reject (row.id ∈ seen) (.stale "cyclic semantic source chain")
    outside.assertSources row.content.sources
    let capture ← (capture outside records service (some row.id) row.content.toPayload).mapError
      fun _ => .stale "world reference changed or is no longer approved"
    reject (!unchanged row capture) (.stale "world source or narrative order changed")
    row.content.semanticSources.keys.forM fun rid => do
      let next ← requireRow records rid
      assertFreshBelow service remaining (row.id :: seen) next

def assertFresh (service : Service) (row : Record) : Except Failure Unit := assertFreshBelow outside records service 128 [] row

end NovelStudio.World
