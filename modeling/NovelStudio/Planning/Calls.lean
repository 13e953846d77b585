import NovelStudio.Library.Transition
import NovelStudio.Planning.Records

/-! The calls of the planning service. Each is a transaction over the graphs, the nodes and the
proposals: a call that fails changes nothing. -/

namespace NovelStudio.Planning

open Library Experimental

structure PlanningGraphIn where
  title : String
  fields : PlanningFields
  links : PlanningLinks

inductive ChildLevel where
  | volume | chapter | scene

def ChildLevel.level : ChildLevel → Level
  | .volume => .volume
  | .chapter => .chapter
  | .scene => .scene

structure PlanningNodeIn extends PlanningGraphIn where
  graphId : String
  parentId : String
  level : ChildLevel
  position : Nat

structure PlanningNodeEditIn extends PlanningGraphIn where
  expectedVersion : Nat
  position : Nat

structure PlanningProposalIn extends PlanningGraphIn where
  nodeId : String
  expectedNodeVersion : Nat
  rationale : String
  templateId : Option String

structure PlanningGenerateIn where
  nodeId : String
  expectedNodeVersion : Nat
  adapterId : String
  templateId : String
  instruction : String
  candidateCount : Nat

inductive Transition where
  | archive | restore | unknown

inductive ReviewAction where
  | approve | reject | reopen | archive | unknown
  deriving DecidableEq

inductive Call where
  | createGraph (value : PlanningGraphIn)
  | createNode (value : PlanningNodeIn)
  | editNode (nodeId : String) (value : PlanningNodeEditIn)
  | transitionGraph (graphId : String) (action : Transition) (expected : Nat)
  | transitionNode (nodeId : String) (action : Transition) (expected : Nat)
  | createProposal (value : PlanningProposalIn)
  | generate (request : PlanningGenerateIn)
  | review (proposalId : String) (action : ReviewAction) (expected : Nat)
  | restore (proposalId : String) (expected historicalVersion : Nat)

def requireRow (rows : Dict String (Row α)) (rid : String) : Except Failure (Row α) := fetch (rows.get? rid) (.notFound rid)

/-- The ancestors above a parent, from the root down; `remaining` is how many more nodes there can be. -/
def ancestorsFrom (nodes : Dict String (Row Node)) (graphId : String) : Nat → List String → Option String →
    Except Failure (List (String × Row Node))
  | _, _, none => return []
  | 0, _, some _ => throw (.other "more ancestors than nodes")
  | remaining + 1, seen, some pid => do
    let parent ← requireRow nodes pid
    reject (pid ∈ seen || parent.data.graphId ≠ graphId || parent.data.status = .archived) (.stale "planning ancestor is unavailable")
    let above ← ancestorsFrom nodes graphId remaining (pid :: seen) parent.data.parentId
    return above ++ [(pid, parent)]

def ancestors (nodes : Dict String (Row Node)) (nodeId : String) (node : Node) : Except Failure (List (String × Row Node)) :=
  ancestorsFrom nodes node.graphId nodes.keys.length [nodeId] node.parentId

def versions (rows : List (String × Row Node)) : Dict String Nat := Dict.ofList (rows.map fun row => (row.1, row.2.version))

section
variable (project : Project) (outside : Outside) (state : State)

/-- `_assert_fresh`, of a proposal that is to be applied. -/
def assertFresh (row : Row Tracked) : Except Failure Unit := do
  assertSources project outside row.data.sources
  discard ((scopedSources project outside row.data.sources.keys).mapError fun _ => .stale "planning entity or branch source changed")
  let refs ← (entitySources project outside row.data.links).mapError fun _ => .stale "planning entity or branch source changed"
  reject (!refs.agrees row.data.entitySources) (.stale "planning entity source changed")
  let node ← requireRow state.nodes row.data.nodeId
  let graph ← requireRow state.graphs row.data.graphId
  reject (graph.data.status ≠ .active) (.stale "planning graph is archived")
  let above ← ancestors state.nodes row.data.nodeId node.data
  reject (!(versions above).agrees row.data.ancestorVersions) (.stale "planning ancestor context changed")
  reject (node.version ≠ row.data.targetVersion || node.data.status = .archived) (.stale "planning target node changed")

def createGraph (value : PlanningGraphIn) : Except Failure State := do
  outside.novel
  let content ← validateLinks project outside value.fields value.links
  let (graphId, nodeId) := (outside.ids 0, outside.ids 1)
  let node : Node :=
    { content with title := value.title, graphId, parentId := none, level := .project, position := 0, status := .draft, approvedProposalId := none }
  return { state with
    graphs := state.graphs.set graphId (newRow outside.actor ⟨value.title, .active, nodeId⟩)
    nodes := state.nodes.set nodeId (newRow outside.actor node) }

def createNode (value : PlanningNodeIn) : Except Failure State := do
  outside.novel
  let content ← validateLinks project outside value.fields value.links
  let graph ← requireRow state.graphs value.graphId
  reject (graph.data.status ≠ .active) (.value "planning graph is archived")
  let parent ← requireRow state.nodes value.parentId
  reject (parent.data.graphId ≠ value.graphId || value.level.level.expectedParent ≠ some parent.data.level || parent.data.status = .archived)
    (.value "planning hierarchy must be Project > Volume > Chapter > Scene in one graph")
  reject (value.level.level = .chapter && value.links.chapterIds.length ≠ 1) (.value "chapter planning nodes require one real chapter reference")
  reject (value.level.level = .scene && value.links.chapterIds ≠ parent.data.links.chapterIds)
    (.value "scene chapter reference must match its parent chapter")
  let node : Node :=
    { content with
      title := value.title
      graphId := value.graphId
      parentId := some value.parentId
      level := value.level.level
      position := value.position
      status := .draft
      approvedProposalId := none }
  return { state with nodes := state.nodes.set (outside.ids 0) (newRow outside.actor node) }

def editNode (nodeId : String) (value : PlanningNodeEditIn) : Except Failure State := do
  let row ← requireRow state.nodes nodeId
  let graph ← requireRow state.graphs row.data.graphId
  reject (row.data.status = .archived || graph.data.status ≠ .active) (.value "restore archived planning targets before editing")
  discard (ancestors state.nodes nodeId row.data)
  reject (row.data.links.chapterIds ≠ value.links.chapterIds && row.data.level.bound)
    (.value "a chapter or scene node cannot be rebound to another chapter")
  let content ← validateLinks project outside value.fields value.links
  let row ← advance row value.expectedVersion fun node =>
    { node with
      toContent := content
      title := value.title
      position := value.position
      status := .draft
      approvedProposalId := none }
  return { state with nodes := state.nodes.set nodeId row }

def graphStatus : Transition → GraphStatus → Except Failure GraphStatus
  | .archive, .active => return .archived
  | .restore, .archived => return .active
  | _, _ => throw (.value "invalid graph transition")

def transitionGraph (graphId : String) (action : Transition) (expected : Nat) : Except Failure State := do
  outside.novel
  let row ← requireRow state.graphs graphId
  checkVersion row expected
  let status ← graphStatus action row.data.status
  return { state with graphs := state.graphs.set graphId (bump row fun graph => { graph with status }) }

def transitionStatus (nodeId : String) (node : Node) : Transition → Except Failure NodeStatus
  | .archive => do
    reject (node.status = .archived) (.value "invalid node transition")
    reject (state.nodes.values.any fun child => child.data.parentId = some nodeId && child.data.status ≠ .archived)
      (.value "archive active child nodes first")
    return .archived
  | .restore => do
    reject (node.status ≠ .archived) (.value "invalid node transition")
    let parentId ← fetch node.parentId (.notFound "None")
    let parent ← requireRow state.nodes parentId
    reject (parent.data.status = .archived) (.value "restore the parent node first")
    return .draft
  | .unknown => throw (.value "invalid node transition")

def transitionNode (nodeId : String) (action : Transition) (expected : Nat) : Except Failure State := do
  let row ← requireRow state.nodes nodeId
  reject (row.data.level = .project) (.value "archive the graph to archive its root")
  let graph ← requireRow state.graphs row.data.graphId
  reject (graph.data.status ≠ .active) (.value "planning graph is archived")
  checkVersion row expected
  let status ← transitionStatus state nodeId row.data action
  return { state with nodes := state.nodes.set nodeId (bump row fun node => { node with status }) }

def proposalRow (value : PlanningProposalIn) (executionMode : ExecutionMode) : Except Failure (Row Tracked) := do
  let node ← requireRow state.nodes value.nodeId
  let graph ← requireRow state.graphs node.data.graphId
  reject (graph.data.status ≠ .active || node.data.status = .archived) (.value "planning target is archived")
  reject (node.version ≠ value.expectedNodeVersion) .versionConflict
  reject (node.data.level.bound && value.links.chapterIds ≠ node.data.links.chapterIds)
    (.value "proposal cannot rebind a chapter or scene node")
  let content ← validateLinks project outside value.fields value.links
  let above ← ancestors state.nodes value.nodeId node.data
  let proposal : Proposal :=
    { content with
      title := value.title
      rationale := value.rationale
      targetVersion := value.expectedNodeVersion
      ancestorVersions := versions above
      nodeId := value.nodeId
      graphId := node.data.graphId
      templateId := value.templateId
      executionMode
      status := .review
      appliedNodeVersion := none
      restoredFromVersion := none }
  return newRow outside.actor ⟨proposal, []⟩

def addProposal (value : PlanningProposalIn) (executionMode : ExecutionMode) (id : String) : Except Failure State := do
  let row ← proposalRow project outside state value executionMode
  return { state with proposals := state.proposals.set id row }

def template (tid : String) : Except Failure Template := fetch (outside.template tid) (.notFound tid)

def createProposal (value : PlanningProposalIn) : Except Failure State := do
  outside.novel
  onlyIf value.templateId.isSome (discard (template outside (value.templateId.getD "")))
  addProposal project outside state value .userAuthored (outside.ids 0)

/-- A candidate of `MockStructuredPlanningAdapter`. -/
def mockFields (fields : PlanningFields) (instruction : String) (template : Template) (index : Nat) : PlanningFields :=
  { fields with
    goal := if instruction ≠ "" then instruction else if fields.goal ≠ "" then fields.goal else "Define the next narrative goal"
    beats := fields.beats.update template.beats
    endingIntent := (template.endingOptions[index % template.endingOptions.length]?).getD fields.endingIntent }

def candidate (node : Node) (request : PlanningGenerateIn) (template : Template) (index : Nat) : Except Failure PlanningProposalIn := do
  let fields := mockFields node.fields request.instruction template index
  reject (!outside.accepts fields) (.value "fields")
  return {
    title := s!"Mock option {index + 1}"
    fields
    links := node.links
    nodeId := request.nodeId
    expectedNodeVersion := request.expectedNodeVersion
    rationale := "Deterministic schema fixture; literary quality is not verified."
    templateId := some request.templateId }

/-- `generate`: a proposal for each candidate, or none at all. What it captures before its transaction is
what the transaction finds, since calls follow one another. -/
def generate (request : PlanningGenerateIn) : Except Failure State := do
  reject (request.adapterId ≠ "mock-structured-planner") (.value "planning adapter NOT_CONFIGURED; only explicit Mock is available")
  outside.novel
  let node ← requireRow state.nodes request.nodeId
  reject (node.version ≠ request.expectedNodeVersion) .versionConflict
  discard (ancestors state.nodes request.nodeId node.data)
  discard (validateLinks project outside node.data.fields node.data.links)
  let template ← template outside request.templateId
  (List.range request.candidateCount).foldlM (fun state index => do
    let value ← candidate outside node.data request template index
    addProposal project outside state value .mockOnly (outside.ids index)) state

/-- `change_row` of a proposal, after its version check. -/
def changeProposal (row : Row Tracked) (change : Proposal → Proposal) : Row Tracked :=
  bump row fun tracked => ⟨change tracked.toProposal, tracked.history ++ [(row.version, tracked.toProposal)]⟩

/-- The transitions of `review`. -/
def reviewed : ReviewAction → ProposalStatus → Except Failure ProposalStatus
  | .approve, .review => return .approved
  | .reject, .review => return .rejected
  | .reopen, .rejected | .reopen, .archived => return .review
  | .archive, .review | .archive, .rejected | .archive, .approved => return .archived
  | _, _ => throw (.value "invalid planning review transition")

/-- The target node takes over the content of a proposal. -/
def applyProposal (pid : String) (row : Row Tracked) : Except Failure (Row Node) := do
  let graph ← requireRow state.graphs row.data.graphId
  reject (graph.data.status ≠ .active) (.value "planning graph is archived")
  assertFresh project outside state row
  let node ← requireRow state.nodes row.data.nodeId
  advance node row.data.targetVersion fun node =>
    { node with toContent := row.data.toContent, status := .approved, approvedProposalId := some pid }

/-- The nodes once a proposal has been reviewed, and the version at which it was applied, if it was. -/
def reviewedNodes (pid : String) (row : Row Tracked) (action : ReviewAction) : Except Failure (Dict String (Row Node) × Option Nat) :=
  match action with
  | .approve => do
    let node ← applyProposal project outside state pid row
    return (state.nodes.set row.data.nodeId node, some node.version)
  | _ => return (state.nodes, none)

def review (pid : String) (action : ReviewAction) (expected : Nat) : Except Failure State := do
  let row ← requireRow state.proposals pid
  checkVersion row expected
  let status ← reviewed action row.data.status
  let (nodes, applied) ← reviewedNodes project outside state pid row action
  let row := changeProposal row fun proposal =>
    { proposal with status, appliedNodeVersion := if applied.isSome then applied else proposal.appliedNodeVersion }
  outside.reauthorize
  return { state with nodes, proposals := state.proposals.set pid row }

def restore (pid : String) (expected historicalVersion : Nat) : Except Failure State := do
  let row ← requireRow state.proposals pid
  let old ← fetch (row.data.history.find? fun entry => entry.1 = historicalVersion) (.notFound "planning history version")
  checkVersion row expected
  -- History content comes back for review with its original source fence.
  let row := changeProposal row fun proposal =>
    { proposal with toDraft := old.2.toDraft, status := .review, restoredFromVersion := some historicalVersion }
  outside.reauthorize
  return { state with proposals := state.proposals.set pid row }

def perform : Call → Except Failure State
  | .createGraph value => createGraph project outside state value
  | .createNode value => createNode project outside state value
  | .editNode nodeId value => editNode project outside state nodeId value
  | .transitionGraph graphId action expected => transitionGraph outside state graphId action expected
  | .transitionNode nodeId action expected => transitionNode state nodeId action expected
  | .createProposal value => createProposal project outside state value
  | .generate request => generate project outside state request
  | .review pid action expected => review project outside state pid action expected
  | .restore pid expected historicalVersion => restore outside state pid expected historicalVersion

end

/-- A call with what it finds, and the collections before and after it. -/
structure Event where
  outside : Outside
  call : Call
  before : State
  after : State

/-- The ids that a call draws are new. -/
def Fresh (outside : Outside) (state : State) : Prop :=
  Function.Injective outside.ids ∧ ∀ index, outside.ids index ∉ state.graphs.keys ∧ outside.ids index ∉ state.nodes.keys ∧
    outside.ids index ∉ state.proposals.keys

/-- The end of a transaction: a failure leaves the collections as they were. -/
def commit (state : State) : Except Failure State → State
  | .ok next => next
  | .error _ => state

structure Step (project : Project) (state : State) (event : Event) (next : State) : Prop where
  before : event.before = state
  after : event.after = next
  fresh : Fresh event.outside state
  result : next = commit state (perform project event.outside state event.call)

end NovelStudio.Planning
