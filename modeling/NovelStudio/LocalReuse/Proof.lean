import NovelStudio.Library.Reaching
import NovelStudio.LocalReuse.Signature

/-! The proof that a stored run grants its local results, and the search for one
(`creative/graph_local_reuse.py`, `_proof` and `cached`; `_owned` and `_current` of the executor). Guards that raise end
a call without a result and are not modelled. -/

namespace NovelStudio.LocalReuse

open Library Graphs Workflow

def adapterVersion : String := "creative-graph-local/1"

def dependencyCacheMode : String := "OPT_IN_REVIEWED_SCHEMA1_LOCAL_DEPENDENCIES_V1"

def maxRuns : Nat := 100

def maxHistory : Nat := 20

/-- `LOCAL`. -/
def localKinds : List DefinitionId := [.textInput, .textReference, .draftPrepare, .manualTransform, .directorNote]

section Definitions

variable {V D : Type} [DecidableEq D] (outside : Outside V D) (state : State V D)

def eligible (definition : Definition V) : Bool :=
  definition.schemaVersion = 1 && definition.nodes.all fun node => node.definitionId ∈ localKinds || node.definitionId = .humanReview

/-- Python's `==` on nodes. -/
def Node.alike (node other : Node V) : Bool :=
  node.id = other.id && node.definitionId = other.definitionId && node.definitionVersion = other.definitionVersion
    && node.enabled = other.enabled && outside.alike node.parameters other.parameters && outside.alike node.position other.position

def sameNodes : List (Node V) → List (Node V) → Bool
  | [], [] => true
  | node :: nodes, other :: others => node.alike outside other && sameNodes nodes others
  | _, _ => false

/-- Python's `==` on results and inputs. -/
def samePorts (ports others : Ports V) : Bool :=
  ports.keys = others.keys && decide (∀ key ∈ ports.keys, ∀ value ∈ ports.lookup key, ∀ other ∈ others.lookup key, outside.alike value other)

/-- A node for which `_owned` asks that execution is switched on. -/
def executes (node : Node V) : Bool :=
  node.definitionId ∈ [DefinitionId.textGenerate, .imageGenerate, .imageUpscale, .videoGenerate] ||
    node.definitionId = .mediaGenerate && !outside.trimsAudio node.parameters

/-- `_owned` on the runs. -/
def ownedRun (novelId scope actor runId : String) : Except Refusal (StoredRun V D) := do
  let row ← fetch (state.runs.get? runId) .evidence
  reject (row.novelId ≠ novelId || row.scope ≠ scope || row.createdBy ≠ actor || row.binding ≠ outside.incarnation novelId) .evidence
  reject (row.version < 1) .evidence
  onlyIf (row.typedNodes.any (executes outside)) outside.requireExecution
  return row

def parseGraph (definition : Definition V) : Except Refusal Unit := do
  reject (!outside.modelTakes definition) .evidence
  onlyIf (definition.schemaVersion ∈ supportedSchemaVersions) ((validateGraph outside.size definition.toInput).mapError fun _ => .evidence)

/-- `_owned` on the graphs. -/
def ownedGraph (graphs : Dict String (Graph V D)) (novelId scope actor graphId : String) : Except Refusal (Graph V D) := do
  let row ← fetch (graphs.get? graphId) .evidence
  reject (row.novelId ≠ novelId || row.scope ≠ scope || row.createdBy ≠ actor || row.binding ≠ outside.incarnation novelId) .evidence
  reject (row.version < 1) .evidence
  parseGraph outside row.definition
  outside.modelAuthority row.definition
  reject (outside.definitionDigest row.definition ≠ row.definitionDigest || outside.executionDigest row.definition ≠ row.executionDigest) .evidence
  return row

/-- The checks of `_current` on a graph. -/
def currentGraph (graph : GraphSnapshot V D) (row : Run V D) : Except Refusal Unit := do
  reject (graph.version ≠ row.graphVersion || graph.definitionDigest ≠ row.graphDigest || row.binding ≠ graph.binding) .evidence
  reject (row.adapterVersion ≠ adapterVersion) .evidence
  reject (decide (row.cacheMode = dependencyCacheMode) ≠ row.reuseReviewedLocalDependencies) .evidence
  onlyIf row.reuseReviewedLocalDependencies (reject (!eligible graph.definition || row.graphSchemaVersion.getD 1 ≠ 1) .evidence)
  reject (!sameNodes outside row.typedNodes (graph.definition.nodes.filter fun node => node.id ∈ row.selectedClosure)
    || graph.definition.schemaVersion ∉ [3, 4, 5] && row.typedNodes.any (fun node => node.definitionId = .assetReference)
    || graph.definition.schemaVersion ∈ [3, 4, 5] && row.graphSchemaVersion ≠ some graph.definition.schemaVersion
    || row.typedEdges ≠ graph.definition.edges.filter fun edge =>
      edge.sourceNodeId ∈ row.selectedClosure && edge.targetNodeId ∈ row.selectedClosure) .evidence
  outside.fence graph row

/-- `_current`, in a state with these graphs. -/
def current (graphs : Dict String (Graph V D)) (target : Run V D) (actor : String) (row : Run V D) : Except Refusal Unit :=
  if row.graphSchemaVersion ∈ [some 3, some 4, some 5] then outside.inPhase row
  else do
    let graph ← ownedGraph outside graphs target.novelId target.scope actor row.graphId
    currentGraph outside graph.toGraphSnapshot row

/-- The source may serve the target at all. -/
def sameOwner (target source : Run V D) (actor : String) : Bool :=
  source.id ≠ target.id && source.status = .succeeded && source.reviewed && source.adapterVersion = adapterVersion
    && source.novelId = target.novelId && source.scope = target.scope && source.binding = target.binding && source.graphId = target.graphId
    && source.createdBy = target.createdBy && source.createdBy = actor && !source.modelExecutionContract.any (· ≠ "")
    && !source.mediaExecutionContract.any (· ≠ "") && source.externalCalls = some 0 && source.modelCalled = some false
    && source.externalAiCalls = some false

/-- The version of the graph that the source ran, if it is the only one of its number and still fits the graph. -/
def historical (target source : Run V D) (actor : String) : Except Refusal (Graph V D) := do
  let graph ← ownedGraph outside state.graphs target.novelId target.scope actor target.graphId
  reject (!eligible graph.definition || maxHistory < graph.history.length) .evidence
  match (graph.toGraphSnapshot :: graph.history).filter fun item => item.version = source.graphVersion with
  | [version] => do
    reject (!eligible version.definition || version.id ≠ graph.id || version.novelId ≠ graph.novelId || version.scope ≠ graph.scope
      || version.binding ≠ graph.binding || version.createdBy ≠ graph.createdBy || source.executionDigest ≠ version.executionDigest
      || source.graphSchemaVersion.getD 1 ≠ 1) .evidence
    return ⟨version, if version.version = graph.version then graph.history else []⟩
  | _ => .error .evidence

/-- The nodes of a run that are of a kind, or of none. -/
def Run.kept (row : Run V D) (keep : DefinitionId → Bool) : List (Node V) := row.typedNodes.filter fun node => keep node.definitionId

def Run.locals (row : Run V D) : List (Node V) := row.kept fun kind => kind ∈ localKinds

def Run.reviews (row : Run V D) : List (Node V) := row.kept fun kind => kind ∉ localKinds

/-- All local nodes, and no others, have results in a run whose nodes all succeeded. -/
def completed (source : StoredRun V D) : Bool :=
  source.reviews ≠ [] && source.typedOutputs.keys.all (fun key => key ∈ source.locals.map Node.id)
    && source.locals.all (fun node => node.id ∈ source.typedOutputs.keys)
    && source.nodeStates.values.all (fun state => state.status = .succeeded) && source.history.length ≤ maxHistory

/-- A local node was completed by the local rules, and they give its result again. -/
def replay (source : Run V D) (node : Node V) : Except Refusal Unit := do
  let result ← fetch (((source.nodeStates.get? node.id).bind NodeState.output).bind Evidence.result) .evidence
  reject (result.modelCalled ≠ some false || result.applied ≠ some false || result.method ≠ some "LOCAL_RULES"
    || result.adapter ≠ some adapterVersion) .evidence
  let ports ← inputs source node.id source.typedOutputs
  let output ← outside.execute node.definitionId node.parameters ports
  let stored ← fetch (source.typedOutputs.get? node.id) .evidence
  reject (!samePorts outside output stored) .evidence

def TraceEntry.same (entry other : TraceEntry) : Bool :=
  entry.action = other.action && entry.status = other.status && entry.happenedAt = other.happenedAt
    && entry.nodeStatuses.agrees other.nodeStatuses && entry.rest = other.rest

def sameTrace : List TraceEntry → List TraceEntry → Bool
  | [], [] => true
  | entry :: entries, other :: others => entry.same other && sameTrace entries others
  | _, _ => false

/-- An item of the history is an earlier state of the run that waits at the review. -/
def earlier (source item : Run V D) (actor review : String) : Bool :=
  item.id = source.id && item.novelId = source.novelId && item.scope = source.scope && item.binding = source.binding
    && item.createdBy = source.createdBy && item.createdAt = source.createdAt && item.graphId = source.graphId
    && item.graphVersion = source.graphVersion && item.graphDigest = source.graphDigest && item.executionDigest = source.executionDigest
    && item.adapterVersion = source.adapterVersion && item.requestDigest = source.requestDigest
    && 1 ≤ item.version && item.version < source.version && item.updatedBy = actor
    && (item.nodeStates.get? review).any (fun state => state.status = .waitingApproval)
    && sameTrace (source.trace.take item.trace.length) item.trace

/-- `_timestamp`. -/
def stamped : Option String → Except Refusal Bool
  | none => .ok false
  | some text => outside.timestamp text

/-- The keys of the statuses are the nodes of the run. -/
def covers (source : Run V D) (statuses : Dict String NodeStatus) : Bool :=
  statuses.keys.all (fun key => key ∈ source.typedNodes.map Node.id) && (source.typedNodes.map Node.id).all fun key => key ∈ statuses.keys

/-- Between these entries of the trace the run went on from the item, with the review approved. -/
def moves (source item : Run V D) (review : String) (before after : TraceEntry) : Bool :=
  before.nodeStatuses.agrees (item.nodeStates.mapValues fun _ state => state.status) && before.status = .waitingApproval
    && covers source before.nodeStatuses && covers source after.nodeStatuses
    && before.nodeStatuses.get? review = some .waitingApproval && after.nodeStatuses.get? review = some .succeeded
    && after.action = "WORKFLOW_NODE_APPROVED" && after.status = .running

/-- The entries before and after the approval differ in the review alone. -/
def approves (source item : Run V D) (review : String) (before after : TraceEntry) : Except Refusal Bool :=
  if moves source item review before after then do
    let timed ← stamped outside after.happenedAt
    return timed && (source.typedNodes.map Node.id).all fun key => key = review || before.nodeStatuses.get? key = after.nodeStatuses.get? key
  else .ok false

/-- One turn of the loop over what waited: whether the item proves the approval. -/
def waited (source item : Run V D) (actor review : String) : Except Refusal Bool :=
  if earlier source item actor review then do
    let then_ ← inputs item review item.typedOutputs
    let now ← inputs source review source.typedOutputs
    if samePorts outside then_ now then
      match item.trace.getLast?, source.trace[item.trace.length]? with
      | some before, some after => approves outside source item review before after
      | _, _ => return false
    else return false
  else .ok false

def firstWaited (graphs : Dict String (Graph V D)) (target : Run V D) (source : Run V D) (actor review : String) : List (Run V D) → Except Refusal Unit
  | [] => .error .evidence
  | item :: rest => do
    let proven ← waited outside source item actor review
    if proven then current outside graphs target actor item else firstWaited graphs target source actor review rest

/-- A review was approved by the actor, out of a state that waited for it. -/
def approved (graphs : Dict String (Graph V D)) (target : Run V D) (source : StoredRun V D) (actor : String) (review : Node V) : Except Refusal Unit := do
  let stored ← fetch (source.nodeStates.get? review.id) .evidence
  reject (stored.output.bind Evidence.approvedBy ≠ some (strip actor)) .evidence
  let timed ← stamped outside (stored.output.bind Evidence.approvedAt)
  reject (!timed) .evidence
  firstWaited outside graphs target source.toRun actor review.id
    (source.history.filter fun item => item.status = .waitingApproval && item.currentNodeId = some review.id)

/-- `_proof`: the nodes upstream of the reviews. -/
def proof (target : Run V D) (source : StoredRun V D) (actor : String) : Except Refusal (List String) := do
  reject (!sameOwner target source.toRun actor) .evidence
  let _ ← ownedRun outside state target.novelId target.scope actor source.id
  let graph ← historical outside state target source.toRun actor
  let graphs := state.graphs.set graph.id graph
  current outside graphs target actor source.toRun
  reject (!completed source) .evidence
  source.locals.forM (replay outside source.toRun)
  source.reviews.forM (approved outside graphs target source actor)
  return ancestors source.pairs (source.reviews.map Node.id)

def granted (row : Run V D) (actor nodeId : String) (outputs : Dict String (Ports V)) (source : StoredRun V D) : Except Refusal (Ports V) := do
  let reviewed ← proof outside state row source actor
  reject (nodeId ∉ reviewed) .evidence
  let output ← fetch (source.typedOutputs.get? nodeId) .evidence
  let theirs ← signature outside source.toRun actor source.typedOutputs outside.depth ∅ nodeId
  let ours ← signature outside row actor (outputs.set nodeId output) outside.depth ∅ nodeId
  reject (theirs.1 ≠ ours.1) .evidence
  return output

/-- Evidence that grants nothing is swallowed and the loop goes on. -/
def orElse (found : Except Refusal (Ports V)) (later : Except Refusal (Option (Ports V))) : Except Refusal (Option (Ports V)) :=
  match found with
  | .ok output => .ok (some output)
  | .error .evidence => later
  | .error .authority => .error .authority

def firstGranted (row : Run V D) (actor nodeId : String) (outputs : Dict String (Ports V)) : List (StoredRun V D) → Except Refusal (Option (Ports V))
  | [] => .ok none
  | source :: rest => orElse (granted outside state row actor nodeId outputs source) (firstGranted row actor nodeId outputs rest)

def cached (row : Run V D) (actor nodeId : String) (outputs : Dict String (Ports V)) : Except Refusal (Option (Ports V)) :=
  if maxRuns < state.runs.values.length then .ok none else firstGranted outside state row actor nodeId outputs state.runs.values

end Definitions

end NovelStudio.LocalReuse
