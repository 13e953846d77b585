import NovelStudio.Experimental.Rows

/-! Planning graphs (`planning.py`): their nodes, the proposals to change them, and what these
are captured with from outside. -/

namespace NovelStudio.Planning

open Library Experimental

structure PlanningFields where
  goal : String
  conflict : String
  turningPoint : String
  climax : String
  endingIntent : String
  characterObjectives : Dict String String
  beats : Dict String String

structure PlanningLinks where
  characterIds : List String
  locationIds : List String
  worldRuleIds : List String
  chapterIds : List String
  storyRouteIds : List String

inductive Level where
  | project | volume | chapter | scene
  deriving DecidableEq

def Level.expectedParent : Level → Option Level
  | .project => none
  | .volume => some .project
  | .chapter => some .volume
  | .scene => some .chapter

/-- A chapter or a scene, which stays with its chapter. -/
def Level.bound : Level → Bool
  | .chapter | .scene => true
  | _ => false

inductive GraphStatus where
  | active | archived
  deriving DecidableEq

inductive NodeStatus where
  | draft | approved | archived
  deriving DecidableEq

inductive ProposalStatus where
  | review | approved | rejected | archived
  deriving DecidableEq

inductive ExecutionMode where
  | userAuthored | mockOnly

/-- The version and the digest of a chapter. -/
structure Source where
  version : Nat
  digest : String
  deriving DecidableEq

structure Graph where
  title : String
  status : GraphStatus
  rootNodeId : String

/-- What an approval writes into a node. -/
structure Content where
  fields : PlanningFields
  links : PlanningLinks
  sources : Dict String Source
  entitySources : Dict String String

structure Node extends Content where
  title : String
  graphId : String
  parentId : Option String
  level : Level
  position : Nat
  status : NodeStatus
  approvedProposalId : Option String

/-- What the history of a proposal can bring back. -/
structure Draft extends Content where
  title : String
  rationale : String
  targetVersion : Nat
  ancestorVersions : Dict String Nat

structure Proposal extends Draft where
  nodeId : String
  graphId : String
  templateId : Option String
  executionMode : ExecutionMode
  status : ProposalStatus
  appliedNodeVersion : Option Nat
  restoredFromVersion : Option Nat

/-- A proposal with its history, each entry under the version that it had. -/
structure Tracked extends Proposal where
  history : List (Nat × Proposal)

structure State where
  graphs : Dict String (Row Graph)
  nodes : Dict String (Row Node)
  proposals : Dict String (Row Tracked)

def State.empty : State := ⟨∅, ∅, ∅⟩

structure Project where
  novelId : String
  /-- `scope.mode == 'collaboration'`. -/
  collaboration : Bool
  branchId : Option String

structure Chapter where
  novelId : String
  branchId : Option String
  version : Nat
  digest : String

structure Entity where
  branchId : Option String
  digest : String

structure Template where
  title : String
  description : String
  beats : Dict String String
  endingOptions : List String

/-- What a call finds outside the planning collections. -/
structure Outside where
  actor : String
  /-- `novels.get(nid)`. -/
  novel : Except Failure Unit
  chapter : String → Option Chapter
  characters : String → Option Entity
  locations : String → Option Entity
  storyRoutes : String → Option Entity
  /-- The digest of an approved ability of the world. -/
  ability : String → Option String
  /-- The digest of a canon entry. -/
  canon : String → Option String
  template : String → Option Template
  /-- Fields within their bounds. -/
  accepts : PlanningFields → Bool
  reauthorize : Except Failure Unit
  /-- The ids that new rows draw. -/
  ids : Nat → String

section
variable (project : Project) (outside : Outside)

def Chapter.stamp (chapter : Chapter) : Source := ⟨chapter.version, chapter.digest⟩

def branchCheck (cid : String) : Except Failure Unit := do
  let chapter ← fetch (outside.chapter cid) (.value "BRANCH_SOURCE_ADAPTER_REQUIRED: authorized branch source unavailable")
  reject (chapter.branchId ≠ project.branchId) (.value "BRANCH_SOURCE_ADAPTER_REQUIRED: base manuscript is not branch evidence")

/-- `sources`, a chapter at a time. -/
def addSource (sources : Dict String Source) (cid : String) : Except Failure (Dict String Source) := do
  let chapter ← fetch (outside.chapter cid) (.notFound cid)
  reject (chapter.novelId ≠ project.novelId) (.value "chapter belongs to another project")
  return sources.set cid chapter.stamp

def scopedSources (chapterIds : List String) : Except Failure (Dict String Source) := do
  onlyIf project.collaboration (chapterIds.forM (branchCheck project outside))
  chapterIds.foldlM (addSource project outside) ∅

/-- `assert_sources`, for a chapter. -/
def assertSource (entry : String × Source) : Except Failure Unit := do
  let chapter ← fetch (outside.chapter entry.1) (.stale "source chapter no longer exists")
  reject (chapter.novelId ≠ project.novelId || chapter.stamp ≠ entry.2) (.stale "source chapter changed; review the current version")

def assertSources (sources : Dict String Source) : Except Failure Unit := sources.entries.forM (assertSource project outside)

/-- `entity_sources`, for an entity of a dataset. -/
def addEntity (dataset : String) (rows : String → Option Entity) (captures : Dict String String) (rid : String) :
    Except Failure (Dict String String) := do
  let row ← fetch (rows rid) (.value s!"unknown {dataset} reference: {rid}")
  reject (row.branchId.any (· ≠ "") && row.branchId ≠ project.branchId) (.value "entity belongs to another branch")
  return captures.set s!"{dataset}:{rid}" row.digest

/-- `entity_sources`, for a rule of the world. -/
def addRule (captures : Dict String String) (rid : String) : Except Failure (Dict String String) :=
  match outside.ability rid, outside.canon rid with
  | some digest, _ => return captures.set s!"world:{rid}" digest
  | none, some digest => return captures.set s!"canon:{rid}" digest
  | none, none => throw (.value s!"unknown approved world rule reference: {rid}")

def entitySources (links : PlanningLinks) : Except Failure (Dict String String) := do
  let captures ← links.characterIds.foldlM (addEntity project "characters" outside.characters) ∅
  let captures ← links.locationIds.foldlM (addEntity project "locations" outside.locations) captures
  let captures ← links.storyRouteIds.foldlM (addEntity project "story_routes" outside.storyRoutes) captures
  links.worldRuleIds.foldlM (addRule outside) captures

/-- `_validate_links`: what the content is captured with. -/
def validateLinks (fields : PlanningFields) (links : PlanningLinks) : Except Failure Content := do
  reject (!(fields.characterObjectives.keys.all (· ∈ links.characterIds))) (.value "character objectives require linked real characters")
  let sources ← scopedSources project outside links.chapterIds
  let entities ← entitySources project outside links
  return ⟨fields, links, sources, entities⟩

end

end NovelStudio.Planning
