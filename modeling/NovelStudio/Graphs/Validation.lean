import NovelStudio.Library.Fallible
import NovelStudio.Library.Reaching
import NovelStudio.Library.Text
import NovelStudio.Workflow.Order

/-! The finite contracts of creative graphs: the kinds of nodes with their ports, the catalogs that are published
of them and what a definition is checked for (`creative/graph_models.py`, `creative/graph.py`). -/

namespace NovelStudio.Graphs

open Library

/-- The keys of `DEFINITIONS`. -/
inductive DefinitionId where
  | textInput | textReference | draftPrepare | manualTransform | directorNote | humanReview | assetReference
  | textGenerate | mediaGenerate | mediaReview | timelineExport | imageReference | imagePrompt | imageGenerate
  | imageStyle | imageUpscale | directorPlan | storyboardPlan | storyboardPrompt | storyboardShot | videoGenerate
  | localSubgraph | localCondition
  deriving DecidableEq

inductive PortType where
  | text | draft | directorNotes | assetRef | mediaCandidate | imageReferences | imagePrompt | directorPlan
  | storyboardData | storyboardShot | videoCandidate
  deriving DecidableEq

def PortType.name : PortType → String
  | .text => "TEXT"
  | .draft => "DRAFT"
  | .directorNotes => "DIRECTOR_NOTES"
  | .assetRef => "ASSET_REF"
  | .mediaCandidate => "MEDIA_CANDIDATE"
  | .imageReferences => "IMAGE_REFERENCES"
  | .imagePrompt => "IMAGE_PROMPT"
  | .directorPlan => "DIRECTOR_PLAN"
  | .storyboardData => "STORYBOARD_DATA"
  | .storyboardShot => "STORYBOARD_SHOT"
  | .videoCandidate => "VIDEO_CANDIDATE"

structure Port where
  id : String
  type : PortType
  required : Bool
  multiple : Bool
  deriving DecidableEq

/-- `port(name, kind)`. -/
def port (name : String) (kind : PortType) : Port := ⟨name, kind, false, false⟩

/-- `port(name, kind, True)`. -/
def requiredPort (name : String) (kind : PortType) : Port := ⟨name, kind, true, false⟩

structure Definition where
  inputs : List Port
  outputs : List Port
  deriving DecidableEq

/-- `DEFINITIONS` without its parameter models. -/
def definitions : DefinitionId → Definition
  | .textInput => ⟨[], [port "text" .text]⟩
  | .textReference => ⟨[requiredPort "text" .text], [port "text" .text]⟩
  | .draftPrepare => ⟨[requiredPort "text" .text, port "direction" .directorNotes], [port "draft" .draft]⟩
  | .manualTransform => ⟨[requiredPort "text" .text, port "direction" .directorNotes], [port "draft" .draft]⟩
  | .directorNote => ⟨[], [port "direction" .directorNotes]⟩
  | .humanReview => ⟨[requiredPort "draft" .draft], []⟩
  | .assetReference => ⟨[], [port "asset" .assetRef]⟩
  | .textGenerate => ⟨[requiredPort "text" .text, port "direction" .directorNotes], [port "draft" .draft]⟩
  | .mediaGenerate => ⟨[port "text" .text, port "draft" .draft, port "source" .assetRef], [port "candidate" .mediaCandidate]⟩
  | .mediaReview => ⟨[requiredPort "candidate" .mediaCandidate], [port "asset" .assetRef]⟩
  | .timelineExport =>
    ⟨["source_1", "source_2", "source_3", "source_4", "source_5", "source_6", "source_7", "source_8"].map (port · .assetRef),
      [port "candidate" .mediaCandidate]⟩
  | .imageReference =>
    ⟨["source_1", "source_2", "source_3", "source_4", "source_5"].map (port · .assetRef), [port "references" .imageReferences]⟩
  | .imagePrompt => ⟨[port "text" .text, port "references" .imageReferences], [port "prompt" .imagePrompt]⟩
  | .imageGenerate =>
    ⟨[requiredPort "prompt" .imagePrompt, port "source" .assetRef, port "mask" .assetRef], [port "candidate" .mediaCandidate]⟩
  | .imageStyle => ⟨[requiredPort "prompt" .imagePrompt], [port "prompt" .imagePrompt]⟩
  | .imageUpscale => ⟨[requiredPort "source" .assetRef], [port "candidate" .mediaCandidate]⟩
  | .directorPlan => ⟨[], [port "direction" .directorPlan]⟩
  | .storyboardPlan => ⟨[port "direction" .directorPlan], [port "storyboard" .storyboardData]⟩
  | .storyboardPrompt => ⟨[requiredPort "storyboard" .storyboardData], [port "prompt" .imagePrompt]⟩
  | .storyboardShot => ⟨[requiredPort "storyboard" .storyboardData], [port "shot" .storyboardShot]⟩
  | .videoGenerate =>
    ⟨[port "text" .text, port "shot" .storyboardShot, port "source" .assetRef, port "reference" .assetRef], [port "candidate" .videoCandidate]⟩
  | .localSubgraph => ⟨[requiredPort "text" .text], [port "draft" .draft]⟩
  | .localCondition => ⟨[requiredPort "text" .text], [port "when_true" .text, port "when_false" .text]⟩

/-- The keys in the order in which they are put into `DEFINITIONS`. -/
def definitionKeys : List DefinitionId :=
  [.textInput, .textReference, .draftPrepare, .manualTransform, .directorNote, .humanReview, .assetReference, .textGenerate, .mediaGenerate,
    .mediaReview, .timelineExport, .imageReference, .imagePrompt, .imageGenerate, .imageStyle, .imageUpscale, .directorPlan, .storyboardPlan,
    .storyboardPrompt, .storyboardShot, .videoGenerate, .localSubgraph, .localCondition]

theorem mem_definitionKeys (definitionId : DefinitionId) : definitionId ∈ definitionKeys := by
  cases definitionId <;> decide

def localSubgraphParentIds : List DefinitionId :=
  [.textInput, .textReference, .draftPrepare, .manualTransform, .directorNote, .humanReview, .localSubgraph]

/-- `NODE_IDS` of `graph_local_conditions`, as the catalog sorts them. -/
def conditionNodeIds : List DefinitionId :=
  [.draftPrepare, .humanReview, .localCondition, .manualTransform, .textInput, .textReference]

def newImageDefinitionIds : List DefinitionId := [.imageReference, .imagePrompt, .imageGenerate]

def productionDefinitionIds : List DefinitionId := [.imageStyle, .imageUpscale, .directorPlan, .storyboardPlan, .storyboardPrompt]

def videoDefinitionIds : List DefinitionId := [.storyboardShot, .videoGenerate]

def videoSchemaDefinitionIds : List DefinitionId :=
  [.textInput, .textReference, .assetReference, .directorPlan, .storyboardPlan, .storyboardShot, .videoGenerate, .mediaReview, .timelineExport]

/-- The kind belongs to another schema than the one it is asked for under. -/
def outsideSubgraphs (schemaVersion : Option Nat) (definitionId : DefinitionId) : Bool :=
  definitionId = .localSubgraph && schemaVersion ≠ some 6 || schemaVersion = some 6 && definitionId ∉ localSubgraphParentIds

def outsideConditions (schemaVersion : Option Nat) (definitionId : DefinitionId) : Bool :=
  definitionId = .localCondition && schemaVersion ≠ some 7 || schemaVersion = some 7 && definitionId ∉ conditionNodeIds

def definitionFor (schemaVersion : Option Nat) (definitionId : DefinitionId) : Except String Definition :=
  if outsideSubgraphs schemaVersion definitionId then .error "CREATIVE_GRAPH_LOCAL_SUBGRAPH_SCHEMA_REQUIRED"
  else if outsideConditions schemaVersion definitionId then .error "CREATIVE_GRAPH_CONDITION_SCHEMA_REQUIRED"
  else if schemaVersion = some 5 ∧ definitionId = .mediaReview then
    .ok { definitions definitionId with inputs := [requiredPort "candidate" .videoCandidate] }
  else if schemaVersion = some 5 ∧ definitionId = .timelineExport then
    .ok { definitions definitionId with outputs := [port "candidate" .videoCandidate] }
  else if definitionId = .humanReview ∧ schemaVersion = some 3 then
    .ok { definitions definitionId with outputs := [port "reviewed_draft" .draft] }
  else .ok (definitions definitionId)

/-- A published row, with what is read of it. -/
structure CatalogRow where
  id : DefinitionId
  inputs : List Port
  outputs : List Port
  deriving DecidableEq

/-- The arguments of `catalog_definitions`. -/
structure CatalogFlags where
  includeModel : Bool
  includeMedia : Bool
  includeImage : Bool
  includeProduction : Bool
  includeVideo : Bool
  includeLocalSubgraph : Bool
  deriving DecidableEq

namespace CatalogFlags

/-- The schema whose ports the rows have. -/
def schemaVersion (flags : CatalogFlags) : Option Nat :=
  if flags.includeLocalSubgraph then some 6 else if flags.includeVideo then some 5 else if flags.includeMedia then some 3 else none

/-- The filters that stand before `definition_for` is called. -/
def asks (flags : CatalogFlags) (key : DefinitionId) : Bool :=
  key ≠ .localCondition && (if flags.includeLocalSubgraph then key ∈ localSubgraphParentIds else key ≠ .localSubgraph)

/-- The filters that stand behind it. -/
def keeps (flags : CatalogFlags) (key : DefinitionId) : Bool :=
  (!flags.includeVideo || key ∈ videoSchemaDefinitionIds)
    && (flags.includeModel || key ≠ .textGenerate)
    && (flags.includeMedia || key ∉ [DefinitionId.mediaGenerate, .mediaReview, .timelineExport])
    && (flags.includeImage || key ∉ newImageDefinitionIds)
    && (flags.includeProduction || key ∉ productionDefinitionIds)
    && (flags.includeVideo || key ∉ videoDefinitionIds)

end CatalogFlags

def catalogRow (schemaVersion : Option Nat) (key : DefinitionId) : Except String CatalogRow := do
  let value ← definitionFor schemaVersion key
  return ⟨key, value.inputs, value.outputs⟩

def catalogDefinitions (flags : CatalogFlags) : Except String (List CatalogRow) := do
  let rows ← (definitionKeys.filter flags.asks).mapM (catalogRow flags.schemaVersion)
  return rows.filter fun row => flags.keeps row.id

/-- What the catalog reads of the service and of its settings. -/
structure CatalogOwner where
  modelRuntime : Bool
  mediaRuntime : Bool
  executionEnabled : Bool
  requireExecution : Except String Unit
  requireConditions : Except String Unit

/-- The arguments of `catalog`. -/
structure CatalogRequest where
  includeImage : Bool
  includeProduction : Bool
  includeVideo : Bool
  includeLocalSubgraph : Bool
  includeLocalConditions : Bool
  deriving DecidableEq

def CatalogRequest.includesMedia (request : CatalogRequest) : Bool := request.includeImage || request.includeProduction || request.includeVideo

/-- The flags of the catalog without subgraphs. -/
def CatalogOwner.flags (owner : CatalogOwner) (request : CatalogRequest) : CatalogFlags where
  includeModel := owner.modelRuntime && owner.executionEnabled
  includeMedia := owner.mediaRuntime
  includeImage := request.includeImage && owner.mediaRuntime
  includeProduction := (request.includeProduction || request.includeVideo) && owner.mediaRuntime
  includeVideo := request.includeVideo && owner.mediaRuntime
  includeLocalSubgraph := false

/-- The `definitions` of `catalog`. -/
def CatalogOwner.catalog (owner : CatalogOwner) (request : CatalogRequest) : Except String (List CatalogRow) := do
  if request.includeLocalConditions then
    reject (request.includesMedia || request.includeLocalSubgraph) "CREATIVE_GRAPH_CONDITION_CATALOG_MODE_INVALID"
    owner.requireConditions
    conditionNodeIds.mapM (catalogRow (some 7))
  else if request.includeLocalSubgraph then
    reject request.includesMedia "CREATIVE_GRAPH_SUBGRAPH_CATALOG_MODE_INVALID"
    catalogDefinitions ⟨false, false, false, false, false, true⟩
  else
    onlyIf request.includesMedia owner.requireExecution
    catalogDefinitions (owner.flags request)

end NovelStudio.Graphs

/-! What the model of a graph checks (`creative/graph_models.py`, `validate_graph`). -/

namespace NovelStudio.Graphs

open Library

structure NodeInstance where
  id : String
  definitionId : DefinitionId
  deriving DecidableEq

structure TypedEdge where
  id : String
  sourceNodeId : String
  sourcePort : String
  targetNodeId : String
  targetPort : String
  deriving DecidableEq

structure GraphVisualGroup where
  id : String
  parentId : Option String
  nodeIds : List String
  deriving DecidableEq

/-- A definition of any schema; without a presentation there are no groups. -/
structure GraphInput where
  schemaVersion : Nat
  title : String
  nodes : List NodeInstance
  edges : List TypedEdge
  groups : List GraphVisualGroup
  deriving DecidableEq

/-- The `definition_id` literals of the node models, from `GraphInput` to `GraphLocalSubgraphInput`. -/
def nodeKinds : Nat → List DefinitionId
  | 1 => [.textInput, .textReference, .draftPrepare, .manualTransform, .directorNote, .humanReview, .assetReference]
  | 2 => [.textInput, .textReference, .draftPrepare, .manualTransform, .directorNote, .humanReview, .assetReference, .textGenerate]
  | 3 => [.textInput, .textReference, .draftPrepare, .manualTransform, .directorNote, .humanReview, .assetReference, .textGenerate,
      .mediaGenerate, .mediaReview, .timelineExport]
  | 4 => [.textInput, .textReference, .assetReference, .imageReference, .imagePrompt, .imageGenerate, .mediaReview, .imageStyle,
      .imageUpscale, .directorPlan, .storyboardPlan, .storyboardPrompt]
  | 5 => videoSchemaDefinitionIds
  | 6 => localSubgraphParentIds
  | _ => []

def TypedEdge.key (edge : TypedEdge) : String × String × String × String :=
  (edge.sourceNodeId, edge.sourcePort, edge.targetNodeId, edge.targetPort)

def TypedEdge.targetKey (edge : TypedEdge) : String × String := (edge.targetNodeId, edge.targetPort)

namespace GraphInput

def nodeIds (definition : GraphInput) : List String := definition.nodes.map NodeInstance.id

/-- `nodes[node_id]`; the ids are distinct where it is read. -/
def node? (definition : GraphInput) (nodeId : String) : Option NodeInstance := definition.nodes.find? fun node => node.id = nodeId

/-- The edges as `_workflow_order` takes them. -/
def links (definition : GraphInput) : List Workflow.Edge := definition.edges.map fun edge => (edge.sourceNodeId, edge.targetNodeId)

def addEdge (definition : GraphInput) (edge : TypedEdge) : GraphInput := { definition with edges := definition.edges ++ [edge] }

end GraphInput

/-- What the loop over the groups has taken. -/
structure Grouped where
  groupIds : List String
  members : List String
  deriving DecidableEq

def Grouped.take (nodeIds : List String) (taken : Grouped) (group : GraphVisualGroup) : Except String Grouped := do
  reject (group.id ∈ taken.groupIds || group.nodeIds.any fun member => member ∉ nodeIds || member ∈ taken.members)
    "CREATIVE_GRAPH_GROUP_MEMBERSHIP_INVALID"
  return ⟨group.id :: taken.groupIds, group.nodeIds ++ taken.members⟩

/-- A group lies at the root or in a group that does. -/
def checkParent (groups : List GraphVisualGroup) (group : GraphVisualGroup) : Except String Unit :=
  match group.parentId with
  | none => .ok ()
  | some parentId =>
    match groups.find? fun other => other.id = parentId with
    | none => .error "CREATIVE_GRAPH_GROUP_PARENT_INVALID"
    | some parent => reject (parent.id = group.id || parent.parentId.isSome) "CREATIVE_GRAPH_GROUP_PARENT_INVALID"

def checkGroups (nodeIds : List String) (groups : List GraphVisualGroup) : Except String Unit := do
  let _ ← groups.foldlM (Grouped.take nodeIds) ⟨[], []⟩
  groups.forM (checkParent groups)

structure EdgeLoop where
  seen : List (String × String × String × String)
  targets : List (String × String)
  deriving DecidableEq

local instance lawfulTargets : LawfulBEq (String × String) := inferInstance

def EdgeLoop.turn (definition : GraphInput) (state : EdgeLoop) (edge : TypedEdge) : Except String EdgeLoop := do
  let source ← fetch (definition.node? edge.sourceNodeId) "CREATIVE_GRAPH_UNKNOWN_NODE"
  let target ← fetch (definition.node? edge.targetNodeId) "CREATIVE_GRAPH_UNKNOWN_NODE"
  let outputs ← definitionFor (some definition.schemaVersion) source.definitionId
  let inputs ← definitionFor (some definition.schemaVersion) target.definitionId
  let out ← fetch (outputs.outputs.find? fun port => port.id = edge.sourcePort) "CREATIVE_GRAPH_UNKNOWN_PORT"
  let inp ← fetch (inputs.inputs.find? fun port => port.id = edge.targetPort) "CREATIVE_GRAPH_UNKNOWN_PORT"
  reject (out.type ≠ inp.type) "CREATIVE_GRAPH_PORT_TYPE_MISMATCH"
  reject (edge.key ∈ state.seen) "CREATIVE_GRAPH_DUPLICATE_EDGE"
  reject (edge.targetKey ∈ state.targets) "CREATIVE_GRAPH_PORT_CARDINALITY"
  return ⟨edge.key :: state.seen, edge.targetKey :: state.targets⟩

/-- The rules of the edges: the loop and, behind it, the order of the nodes. -/
def edgeRules (definition : GraphInput) : Except String Unit := do
  let _ ← definition.edges.foldlM (EdgeLoop.turn definition) ⟨[], []⟩
  let _ ← Workflow.workflowOrder definition.nodeIds definition.links
  return ()

def maxDefinitionBytes : Nat := 96000

/-- `validate_graph`, with the size of what is stored of a definition. -/
def validateGraph (size : GraphInput → Nat) (definition : GraphInput) : Except String Unit := do
  reject (strip definition.title = "") "CREATIVE_GRAPH_TITLE_OR_SCHEMA_INVALID"
  reject (¬ definition.nodeIds.Nodup || ¬ (definition.edges.map TypedEdge.id).Nodup) "CREATIVE_GRAPH_DUPLICATE_ID"
  checkGroups definition.nodeIds definition.groups
  edgeRules definition
  reject (maxDefinitionBytes < size definition) "CREATIVE_GRAPH_DEFINITION_CAPACITY"

def supportedSchemaVersions : List Nat := [1, 2, 3, 4, 5, 6]

/-- A definition that the model of its schema takes. -/
structure Accepted (size : GraphInput → Nat) (definition : GraphInput) : Prop where
  supported : definition.schemaVersion ∈ supportedSchemaVersions
  kinds : ∀ node ∈ definition.nodes, node.definitionId ∈ nodeKinds definition.schemaVersion
  valid : validateGraph size definition = .ok ()

/-- An edge fits the ports of its nodes. -/
def Fits (definition : GraphInput) (edge : TypedEdge) : Prop :=
  ∃ source target outputs inputs out inp,
    definition.node? edge.sourceNodeId = some source ∧ definition.node? edge.targetNodeId = some target ∧
    definitionFor (some definition.schemaVersion) source.definitionId = .ok outputs ∧
    definitionFor (some definition.schemaVersion) target.definitionId = .ok inputs ∧
    (outputs.outputs.find? fun port => port.id = edge.sourcePort) = some out ∧
    (inputs.inputs.find? fun port => port.id = edge.targetPort) = some inp ∧ out.type = inp.type

variable {definition : GraphInput} {edge : TypedEdge} {state : EdgeLoop}

theorem EdgeLoop.turn_ok {next : EdgeLoop} :
    EdgeLoop.turn definition state edge = .ok next ↔
      Fits definition edge ∧ edge.key ∉ state.seen ∧ edge.targetKey ∉ state.targets ∧
        next = ⟨edge.key :: state.seen, edge.targetKey :: state.targets⟩ := by
  simp only [EdgeLoop.turn, bind_ok, fetch_ok, reject_ok, pure_ok, decide_eq_false_iff_not, not_not]
  constructor
  · rintro ⟨source, sourceAt, target, targetAt, outputs, outputsOf, inputs, inputsOf, out, outAt, inp, inpAt, _, typed, _, fresh, _, free, same⟩
    exact ⟨⟨source, target, outputs, inputs, out, inp, sourceAt, targetAt, outputsOf, inputsOf, outAt, inpAt, typed⟩, fresh, free, same.symm⟩
  · rintro ⟨fits, fresh, free, same⟩
    obtain ⟨source, target, outputs, inputs, out, inp, sourceAt, targetAt, outputsOf, inputsOf, outAt, inpAt, typed⟩ := fits
    exact ⟨source, sourceAt, target, targetAt, outputs, outputsOf, inputs, inputsOf, out, outAt, inp, inpAt, (), typed, (), fresh, (), free,
      same.symm⟩

theorem edgeLoop_sets
    (done : definition.edges.foldlM (EdgeLoop.turn definition) ⟨[], []⟩ = .ok state) :
    (∀ key ∈ state.seen, ∃ edge ∈ definition.edges, edge.key = key) ∧
      ∀ key ∈ state.targets, ∃ edge ∈ definition.edges, edge.targetKey = key := by
  have sets := foldlM_invariant (motive := fun before state =>
    (∀ key ∈ state.seen, ∃ edge ∈ before, edge.key = key) ∧ ∀ key ∈ state.targets, ∃ edge ∈ before, edge.targetKey = key) ?_ ?_ done
  · exact sets
  · intro before edge state next _ holds turned
    obtain ⟨-, -, -, rfl⟩ := EdgeLoop.turn_ok.mp turned
    constructor
    · intro key member
      cases List.mem_cons.mp member with
      | inl here => exact ⟨edge, List.mem_append_right _ (List.mem_singleton.mpr rfl), here.symm⟩
      | inr old =>
        obtain ⟨other, inside, same⟩ := holds.1 key old
        exact ⟨other, List.mem_append_left _ inside, same⟩
    · intro key member
      cases List.mem_cons.mp member with
      | inl here => exact ⟨edge, List.mem_append_right _ (List.mem_singleton.mpr rfl), here.symm⟩
      | inr old =>
        obtain ⟨other, inside, same⟩ := holds.2 key old
        exact ⟨other, List.mem_append_left _ inside, same⟩
  · exact ⟨nofun, nofun⟩

theorem edgeLoop_nodup
    (done : definition.edges.foldlM (EdgeLoop.turn definition) ⟨[], []⟩ = .ok state) : (definition.edges.map TypedEdge.targetKey).Nodup := by
  have turns := foldlM_invariant (motive := fun before (state : EdgeLoop) =>
    (before.map TypedEdge.targetKey).Nodup ∧ ∀ key ∈ before.map TypedEdge.targetKey, key ∈ state.targets) ?_ ?_ done
  · exact turns.1
  · intro before edge state next _ holds turned
    obtain ⟨-, -, free, rfl⟩ := EdgeLoop.turn_ok.mp turned
    rw [List.map_append, List.map_singleton]
    constructor
    · apply List.nodup_append.mpr
      refine ⟨holds.1, List.nodup_singleton _, ?_⟩
      intro one member two here same
      cases List.mem_singleton.mp here
      exact free (holds.2 _ (same ▸ member))
    · intro key member
      cases List.mem_append.mp member with
      | inl old => exact List.mem_cons_of_mem _ (holds.2 key old)
      | inr new => exact List.mem_singleton.mp new ▸ List.mem_cons_self ..
  · exact ⟨List.nodup_nil, nofun⟩

theorem validateGraph_nodup {size : GraphInput → Nat} (valid : validateGraph size definition = .ok ()) :
    definition.nodeIds.Nodup ∧ (definition.edges.map TypedEdge.targetKey).Nodup := by
  rw [validateGraph, bind_ok] at valid
  obtain ⟨_, -, valid⟩ := valid
  obtain ⟨_, distinct, valid⟩ := bind_ok.mp valid
  obtain ⟨_, -, valid⟩ := bind_ok.mp valid
  obtain ⟨_, ruled, -⟩ := bind_ok.mp valid
  rw [edgeRules, bind_ok] at ruled
  obtain ⟨state, done, -⟩ := ruled
  rw [reject_ok, Bool.or_eq_false_iff, decide_eq_false_iff_not, not_not] at distinct
  exact ⟨distinct.1, edgeLoop_nodup done⟩

theorem GraphInput.mem_nodeIds {node : NodeInstance} (found : definition.node? nodeId = some node) :
    nodeId ∈ definition.nodeIds := by
  have same : node.id = nodeId := of_decide_eq_true (List.find?_some found :)
  rw [← same]
  exact List.mem_map.mpr ⟨node, List.mem_of_find?_eq_some found, rfl⟩

/-- What an edge needs to be added: it fits, brings a new key to a free port and closes no cycle. -/
theorem edgeRules_add (valid : edgeRules definition = .ok ()) (fits : Fits definition edge)
    (fresh : ∀ other ∈ definition.edges, other.key ≠ edge.key) (free : ∀ other ∈ definition.edges, other.targetKey ≠ edge.targetKey)
    (apart : ¬ Relation.ReflTransGen (Precedes definition.links) edge.targetNodeId edge.sourceNodeId) :
    edgeRules (definition.addEdge edge) = .ok () := by
  rw [edgeRules, bind_ok] at valid ⊢
  obtain ⟨state, done, ordered⟩ := valid
  obtain ⟨order, sorted, -⟩ := bind_ok.mp ordered
  obtain ⟨distinct, known, acyclic⟩ := Workflow.workflowOrder_ok_iff.mp ⟨order, sorted⟩
  obtain ⟨keys, targets⟩ := edgeLoop_sets done
  obtain ⟨source, target, -, -, -, -, sourceAt, targetAt, -⟩ := id fits
  have last : EdgeLoop.turn definition state edge = .ok ⟨edge.key :: state.seen, edge.targetKey :: state.targets⟩ := by
    apply EdgeLoop.turn_ok.mpr
    refine ⟨fits, ?_, ?_, rfl⟩
    · intro taken
      obtain ⟨other, inside, same⟩ := keys _ taken
      exact fresh other inside same
    · intro taken
      obtain ⟨other, inside, same⟩ := targets _ taken
      exact free other inside same
  have looped : (definition.addEdge edge).edges.foldlM (EdgeLoop.turn (definition.addEdge edge)) ⟨[], []⟩ =
      .ok ⟨edge.key :: state.seen, edge.targetKey :: state.targets⟩ := by
    show (definition.edges ++ [edge]).foldlM (EdgeLoop.turn definition) _ = _
    rw [List.foldlM_append, bind_ok]
    exact ⟨state, done, foldlM_cons_ok.mpr ⟨_, last, foldlM_nil_ok.mpr rfl⟩⟩
  have links : (definition.addEdge edge).links = definition.links ++ [(edge.sourceNodeId, edge.targetNodeId)] := List.map_append
  obtain ⟨longer, resorted⟩ : ∃ order, Workflow.workflowOrder definition.nodeIds (definition.addEdge edge).links = .ok order := by
    rw [links]
    apply Workflow.workflowOrder_ok_iff.mpr
    refine ⟨distinct, ?_, acyclic.add apart⟩
    intro link member
    cases List.mem_append.mp member with
    | inl old => exact known link old
    | inr new =>
      cases List.mem_singleton.mp new
      exact ⟨GraphInput.mem_nodeIds sourceAt, GraphInput.mem_nodeIds targetAt⟩
  exact ⟨_, looped, bind_ok.mpr ⟨longer, resorted, rfl⟩⟩

theorem validateGraph_add {size : GraphInput → Nat}
    (valid : validateGraph size definition = .ok ()) (fresh : ∀ other ∈ definition.edges, other.id ≠ edge.id)
    (rules : edgeRules (definition.addEdge edge) = .ok ()) :
    validateGraph size (definition.addEdge edge) =
      reject (maxDefinitionBytes < size (definition.addEdge edge)) "CREATIVE_GRAPH_DEFINITION_CAPACITY" := by
  rw [validateGraph, bind_ok] at valid
  obtain ⟨_, titled, valid⟩ := valid
  obtain ⟨_, distinct, valid⟩ := bind_ok.mp valid
  obtain ⟨_, grouped, -⟩ := bind_ok.mp valid
  have apart : (reject (¬ (definition.addEdge edge).nodeIds.Nodup || ¬ ((definition.addEdge edge).edges.map TypedEdge.id).Nodup)
      "CREATIVE_GRAPH_DUPLICATE_ID" : Except String Unit) = .ok () := by
    rw [reject_ok, Bool.or_eq_false_iff, decide_eq_false_iff_not, decide_eq_false_iff_not, not_not, not_not] at distinct ⊢
    refine ⟨distinct.1, ?_⟩
    rw [GraphInput.addEdge, List.map_append]
    apply List.nodup_append.mpr
    refine ⟨distinct.2, List.nodup_singleton _, ?_⟩
    intro one member two same
    obtain ⟨other, inside, rfl⟩ := List.mem_map.mp member
    cases List.mem_singleton.mp same
    exact fresh other inside
  rw [validateGraph, apart, rules]
  show (reject (strip definition.title = "") _ >>= fun _ => _) = _
  rw [titled]
  show (checkGroups definition.nodeIds definition.groups >>= fun _ => _) = _
  rw [grouped]
  rfl

end NovelStudio.Graphs
