import Mathlib.Data.Finmap
import Mathlib.Data.List.Sort
import NovelStudio.Graphs.Validation
import NovelStudio.Library.Dict
import NovelStudio.Workflow.Run

/-! Runs of creative graphs as they are stored, with the results of their local nodes
(`creative/graph_execution.py`, `creative/graph.py`). -/

namespace NovelStudio.LocalReuse

open Library Graphs Workflow

/-- What a node reads or returns: values under the names of its ports. -/
abbrev Ports (V : Type) := Finmap fun _ : String => V

/-- Why a check ends: evidence that grants nothing, or an exception that the search does not swallow. -/
inductive Refusal where
  | evidence
  | authority
  deriving DecidableEq

/-- A typed node; `V` are the values of parameters, positions and ports. -/
structure Node (V : Type) where
  id : String
  definitionId : DefinitionId
  definitionVersion : Nat
  enabled : Bool
  parameters : V
  position : V

structure Definition (V : Type) where
  schemaVersion : Nat
  title : String
  nodes : List (Node V)
  edges : List TypedEdge
  groups : List GraphVisualGroup

def Definition.toInput (definition : Definition V) : GraphInput :=
  ⟨definition.schemaVersion, definition.title, definition.nodes.map fun node => ⟨node.id, node.definitionId⟩, definition.edges, definition.groups⟩

/-- A version of a graph; `D` are digests. -/
structure GraphSnapshot (V D : Type) where
  id : String
  novelId : String
  scope : String
  binding : String
  createdBy : String
  version : Int
  definition : Definition V
  definitionDigest : D
  executionDigest : D

structure Graph (V D : Type) extends GraphSnapshot V D where
  history : List (GraphSnapshot V D)

/-- The `result` that a local node is completed with. -/
structure LocalResult where
  modelCalled : Option Bool
  applied : Option Bool
  method : Option String
  adapter : Option String
  deriving DecidableEq

/-- The `output` of a node state: a result, or the approval of a review. -/
structure Evidence where
  result : Option LocalResult
  approvedBy : Option String
  approvedAt : Option String
  deriving DecidableEq

structure NodeState where
  status : NodeStatus
  output : Option Evidence
  deriving DecidableEq

/-- `rest` is the canonical text of what else the entry holds. -/
structure TraceEntry where
  action : String
  status : RunStatus
  happenedAt : Option String
  nodeStatuses : Dict String NodeStatus
  rest : String

/-- A run, as one entry of its history has it too. -/
structure Run (V D : Type) where
  id : String
  novelId : String
  scope : String
  binding : String
  createdBy : String
  createdAt : String
  updatedBy : String
  version : Int
  status : RunStatus
  graphId : String
  graphVersion : Int
  graphDigest : D
  executionDigest : D
  requestDigest : D
  adapterVersion : String
  graphSchemaVersion : Option Nat
  reviewed : Bool
  modelExecutionContract : Option String
  mediaExecutionContract : Option String
  externalCalls : Option Int
  modelCalled : Option Bool
  externalAiCalls : Option Bool
  reuseReviewedLocalDependencies : Bool
  cacheMode : String
  currentNodeId : Option String
  selectedClosure : List String
  typedNodes : List (Node V)
  typedEdges : List TypedEdge
  nodeStates : Dict String NodeState
  typedOutputs : Dict String (Ports V)
  trace : List TraceEntry

structure StoredRun (V D : Type) extends Run V D where
  history : List (Run V D)

structure State (V D : Type) where
  graphs : Dict String (Graph V D)
  runs : Dict String (StoredRun V D)

structure Link where
  source : String
  sourcePort : String
  targetPort : String
  deriving DecidableEq

def Link.before (link other : Link) : Bool :=
  link.source < other.source || link.source = other.source &&
    (link.sourcePort < other.sourcePort || link.sourcePort = other.sourcePort && link.targetPort ≤ other.targetPort)

/-- What `signature` digests of a node. -/
structure NodeFields (V : Type) where
  id : String
  definitionId : DefinitionId
  definitionVersion : Nat
  enabled : Bool
  parameters : V
  deriving DecidableEq

/-- What `signature` digests, without its constants. -/
structure Signed (V D : Type) where
  novelId : String
  binding : String
  scope : String
  actor : String
  graphId : String
  node : NodeFields V
  dependencies : List (Link × D)
  inputs : D
  output : D
  deriving DecidableEq

def Node.fields (node : Node V) : NodeFields V := ⟨node.id, node.definitionId, node.definitionVersion, node.enabled, node.parameters⟩

/-- What the checks use of the service, the executor and the interpreter. -/
structure Outside (V D : Type) where
  /-- Python's `==` on values. -/
  alike : V → V → Bool
  definitionDigest : Definition V → D
  executionDigest : Definition V → D
  portsDigest : Ports V → D
  signedDigest : Signed V D → D
  /-- The model of the schema takes the definition and gives it back, the checks of `validate_graph` apart. -/
  modelTakes : Definition V → Bool
  size : GraphInput → Nat
  modelAuthority : Definition V → Except Refusal Unit
  requireExecution : Except Refusal Unit
  /-- The operation of the parameters is `m8.audio.trim`. -/
  trimsAudio : V → Bool
  incarnation : String → String
  /-- `_current` with the phase of the assets that schemas 3, 4 and 5 are read in. -/
  inPhase : Run V D → Except Refusal Unit
  /-- The other checks of `_current`. -/
  fence : GraphSnapshot V D → Run V D → Except Refusal Unit
  /-- `run_trusted_local` with the local adapter. -/
  execute : DefinitionId → V → Ports V → Except Refusal (Ports V)
  /-- A timestamp with an offset; it raises where the text is none. -/
  timestamp : String → Except Refusal Bool
  /-- The calls that the interpreter nests. -/
  depth : Nat

/-- The digests are those of different things wherever these differ. -/
structure Outside.DigestsInjective (outside : Outside V D) : Prop where
  ports : Function.Injective outside.portsDigest
  signed : Function.Injective outside.signedDigest

def Run.node? (row : Run V D) (nodeId : String) : Option (Node V) := row.typedNodes.find? fun node => node.id = nodeId

def linkOf (edge : TypedEdge) : Link := ⟨edge.sourceNodeId, edge.sourcePort, edge.targetPort⟩

/-- The links into a node, in the order of the edges. -/
def Run.links (row : Run V D) (nodeId : String) : List Link := (row.typedEdges.filter fun edge => edge.targetNodeId = nodeId).map linkOf

def Run.pairs (row : Run V D) : List (String × String) := row.typedEdges.map fun edge => (edge.sourceNodeId, edge.targetNodeId)

def output? (outputs : Dict String (Ports V)) (link : Link) : Option V := (outputs.get? link.source).bind (Finmap.lookup link.sourcePort)

/-- A dictionary of what some links bring; a later link replaces an earlier one to its port. -/
def gather (outputs : Dict String (Ports V)) (links : List Link) : Except Refusal (Ports V) :=
  links.foldlM (fun inputs link => do
    let value ← fetch (output? outputs link) .evidence
    return inputs.insert link.targetPort value) ∅

def inputs (row : Run V D) (nodeId : String) (outputs : Dict String (Ports V)) : Except Refusal (Ports V) := gather outputs (row.links nodeId)

end NovelStudio.LocalReuse

/-! The signature of a node with all that it depends on (`creative/graph_local_reuse.py`, `signature`), and what two
runs share whose nodes have one signature. -/

namespace NovelStudio.LocalReuse

open Library Graphs

section Definitions

variable {V D : Type} (outside : Outside V D) (row : Run V D) (actor : String) (outputs : Dict String (Ports V))

def incoming (nodeId : String) : List Link := (row.links nodeId).insertionSort fun link other => link.before other

def signable (node : Node V) (dependencies : List (Link × D)) (taken output : Ports V) : Signed V D :=
  ⟨row.novelId, row.binding, row.scope, actor, row.graphId, node.fields, dependencies, outside.portsDigest taken, outside.portsDigest output⟩

/-- `signature`, with the memo and the room that is left for nested calls. -/
def signature : Nat → Dict String D → String → Except Refusal (D × Dict String D)
  | 0, _, _ => .error .evidence
  | depth + 1, memo, nodeId =>
    match memo.get? nodeId with
    | some value => .ok (value, memo)
    | none => do
      let node ← fetch (row.node? nodeId) .evidence
      let gathered ← (incoming row nodeId).foldlM (fun (gathered : List (Link × D) × Dict String D) link => do
        let found ← signature depth gathered.2 link.source
        return (gathered.1 ++ [(link, found.1)], found.2)) ([], memo)
      let taken ← gather outputs (incoming row nodeId)
      let output ← fetch (outputs.get? nodeId) .evidence
      return (outside.signedDigest (signable outside row actor node gathered.1 taken output),
        gathered.2.set nodeId (outside.signedDigest (signable outside row actor node gathered.1 taken output)))

/-- The digest that signs a node, as its recursion builds it. -/
inductive Signs : String → D → Prop where
  | node {nodeId : String} {node : Node V} {dependencies : List (Link × D)} {taken output : Ports V}
      (found : row.node? nodeId = some node)
      (links : dependencies.map Prod.fst = incoming row nodeId)
      (signs : ∀ entry ∈ dependencies, Signs entry.1.source entry.2)
      (reads : gather outputs (incoming row nodeId) = .ok taken)
      (returned : outputs.get? nodeId = some output) :
      Signs nodeId (outside.signedDigest (signable outside row actor node dependencies taken output))

end Definitions

variable {V D : Type} {outside : Outside V D} {row : Run V D} {actor : String} {outputs : Dict String (Ports V)}

/-- What a memo holds signs its nodes. -/
def Known (outside : Outside V D) (row : Run V D) (actor : String) (outputs : Dict String (Ports V)) (memo : Dict String D) : Prop :=
  ∀ nodeId value, memo.get? nodeId = some value → Signs outside row actor outputs nodeId value

theorem signature_signs {memo : Dict String D} {found : D × Dict String D} (known : Known outside row actor outputs memo)
    (done : signature outside row actor outputs depth memo nodeId = .ok found) :
    Signs outside row actor outputs nodeId found.1 ∧ Known outside row actor outputs found.2 := by
  induction depth generalizing memo nodeId found with
  | zero => cases done
  | succ depth ih =>
    unfold signature at done
    split at done
    · rename_i value held
      cases done
      exact ⟨known nodeId value held, known⟩
    · obtain ⟨node, present, done⟩ := bind_ok.mp done
      obtain ⟨gathered, looped, done⟩ := bind_ok.mp done
      obtain ⟨taken, reads, done⟩ := bind_ok.mp done
      obtain ⟨output, returned, done⟩ := bind_ok.mp done
      have turns := foldlM_invariant (motive := fun before (gathered : List (Link × D) × Dict String D) =>
        gathered.1.map Prod.fst = before ∧ (∀ entry ∈ gathered.1, Signs outside row actor outputs entry.1.source entry.2) ∧
          Known outside row actor outputs gathered.2) ?_ ?_ looped
      · obtain ⟨links, signs, kept⟩ := turns
        rw [← pure_ok.mp done]
        have signed : Signs outside row actor outputs nodeId _ := Signs.node (fetch_ok.mp present) links signs reads (fetch_ok.mp returned)
        refine ⟨signed, ?_⟩
        intro other value held
        rw [Dict.get?_set] at held
        split at held
        · rename_i same
          cases held
          exact same ▸ signed
        · exact kept other value held
      · intro before link gathered next member holds turned
        obtain ⟨links, signs, kept⟩ := holds
        obtain ⟨found, nested, turned⟩ := bind_ok.mp turned
        obtain ⟨signed, after⟩ := ih kept nested
        rw [← pure_ok.mp turned]
        refine ⟨?_, ?_, after⟩
        · rw [List.map_append, links]
          rfl
        · intro entry inside
          cases List.mem_append.mp inside with
          | inl old => exact signs entry old
          | inr new =>
            cases List.mem_singleton.mp new
            exact signed
      · exact ⟨rfl, nofun, known⟩

/-- A node feeds another through an edge. -/
def Feeds (row : Run V D) (source target : String) : Prop := ∃ link ∈ row.links target, link.source = source

theorem perm_incoming (row : Run V D) (nodeId : String) : (incoming row nodeId).Perm (row.links nodeId) := List.perm_insertionSort _ _

theorem Signs.accessible (signs : Signs outside row actor outputs nodeId value) : Acc (Feeds row) nodeId := by
  induction signs with
  | node found links signs reads returned ih =>
    apply Acc.intro
    intro source feeds
    obtain ⟨link, member, same⟩ := feeds
    rw [← (perm_incoming row _).mem_iff, ← links] at member
    obtain ⟨entry, inside, rfl⟩ := List.mem_map.mp member
    exact same ▸ ih entry inside

theorem Signs.acyclic (signs : Signs outside row actor outputs nodeId value) : ¬ Relation.TransGen (Feeds row) nodeId nodeId := by
  have accessible := signs.accessible.transGen
  clear signs
  intro cycle
  induction accessible with
  | intro node _ ih => exact ih node cycle cycle

/-- What signs a node was made of that node, of what signs the nodes behind it, and of what it reads and returns. -/
theorem Signs.made (signs : Signs outside row actor outputs nodeId value) : ∃ node dependencies taken output,
    row.node? nodeId = some node ∧ dependencies.map Prod.fst = incoming row nodeId ∧
      (∀ entry ∈ dependencies, Signs outside row actor outputs entry.1.source entry.2) ∧ gather outputs (incoming row nodeId) = .ok taken ∧
      outputs.get? nodeId = some output ∧ value = outside.signedDigest (signable outside row actor node dependencies taken output) := by
  cases signs with
  | node found links signs reads returned => exact ⟨_, _, _, _, found, links, signs, reads, returned, rfl⟩

/-- A node is the same in two runs, with its links, what they bring and what it returns. -/
structure Twin (row : Run V D) (outputs : Dict String (Ports V)) (other : Run V D) (others : Dict String (Ports V)) (nodeId : String) : Prop where
  fields : ∃ node twin, row.node? nodeId = some node ∧ other.node? nodeId = some twin ∧ node.fields = twin.fields
  links : incoming row nodeId = incoming other nodeId
  reads : ∃ taken, gather outputs (incoming row nodeId) = .ok taken ∧ gather others (incoming other nodeId) = .ok taken
  returns : ∃ output, outputs.get? nodeId = some output ∧ others.get? nodeId = some output

variable {other : Run V D} {others : Dict String (Ports V)}

theorem Signs.twin (injective : outside.DigestsInjective) (signs : Signs outside row actor outputs nodeId value)
    (signed : Signs outside other actor others nodeId value) : Twin row outputs other others nodeId ∧
      ∀ source, Feeds other source nodeId → ∃ value, Signs outside row actor outputs source value ∧ Signs outside other actor others source value := by
  obtain ⟨node, dependencies, taken, output, found, links, below, reads, returned, made⟩ := signs.made
  obtain ⟨twin, dependencies', taken', output', found', links', below', reads', returned', same⟩ := signed.made
  have equal := injective.signed (made.symm.trans same)
  unfold signable at equal
  injection equal with _ _ _ _ _ fields listed digested given
  subst listed
  have sameReads := injective.ports digested
  have sameReturn := injective.ports given
  subst sameReads sameReturn
  refine ⟨⟨⟨node, twin, found, found', fields⟩, links.symm.trans links', ⟨taken, reads, reads'⟩, ⟨output, returned, returned'⟩⟩, ?_⟩
  intro source feeds
  obtain ⟨link, member, from_⟩ := feeds
  rw [← (perm_incoming other nodeId).mem_iff, ← links'] at member
  obtain ⟨entry, inside, rfl⟩ := List.mem_map.mp member
  exact ⟨entry.2, from_ ▸ below entry inside, from_ ▸ below' entry inside⟩

theorem Signs.twins (injective : outside.DigestsInjective) (signs : Signs outside row actor outputs nodeId value)
    (signed : Signs outside other actor others nodeId value) (path : Relation.ReflTransGen (Feeds other) source nodeId) :
    Twin row outputs other others source := by
  have both : ∃ value, Signs outside row actor outputs source value ∧ Signs outside other actor others source value := by
    induction path using Relation.ReflTransGen.head_induction_on with
    | refl => exact ⟨value, signs, signed⟩
    | head feeds _ ih =>
      obtain ⟨value, one, two⟩ := ih
      exact (one.twin injective two).2 _ feeds
  obtain ⟨value, one, two⟩ := both
  exact (one.twin injective two).1

section Gathering

variable {links : List Link}

theorem gather_ok (done : gather outputs links = .ok taken) (distinct : (links.map Link.targetPort).Nodup) :
    (∀ link ∈ links, ∃ value, output? outputs link = some value ∧ taken.lookup link.targetPort = some value) ∧
      ∀ port ∉ links.map Link.targetPort, taken.lookup port = none := by
  have turns := foldlM_invariant (motive := fun before (taken : Ports V) => (before.map Link.targetPort).Nodup →
    (∀ link ∈ before, ∃ value, output? outputs link = some value ∧ taken.lookup link.targetPort = some value) ∧
      ∀ port ∉ before.map Link.targetPort, taken.lookup port = none) ?_ ?_ done
  · exact turns distinct
  · intro before link taken next _ holds turned apart
    obtain ⟨value, read, turned⟩ := bind_ok.mp turned
    rw [List.map_append, List.map_singleton] at apart
    obtain ⟨earlier, -, new⟩ := List.nodup_append.mp apart
    obtain ⟨brought, absent⟩ := holds earlier
    rw [← pure_ok.mp turned]
    constructor
    · intro one member
      cases List.mem_append.mp member with
      | inl old =>
        obtain ⟨held, there, port⟩ := brought one old
        have different : one.targetPort ≠ link.targetPort := new _ (List.mem_map_of_mem old) _ (List.mem_singleton.mpr rfl)
        exact ⟨held, there, by rw [Finmap.lookup_insert_of_ne _ different, port]⟩
      | inr here =>
        cases List.mem_singleton.mp here
        exact ⟨value, fetch_ok.mp read, Finmap.lookup_insert _⟩
    · intro port outside_
      rw [List.map_append, List.map_singleton, List.mem_append, List.mem_singleton, not_or] at outside_
      rw [Finmap.lookup_insert_of_ne _ outside_.2, absent port outside_.1]
  · intro _
    exact ⟨nofun, fun port _ => Finmap.lookup_empty port⟩

theorem gather_total (readable : ∀ link ∈ links, ∃ value, output? outputs link = some value) : ∃ taken, gather outputs links = .ok taken := by
  unfold gather
  generalize (∅ : Ports V) = first
  induction links generalizing first with
  | nil => exact ⟨first, rfl⟩
  | cons link links ih =>
    obtain ⟨value, read⟩ := readable link (List.mem_cons_self ..)
    obtain ⟨taken, done⟩ := ih (fun one member => readable one (List.mem_cons_of_mem _ member)) (first.insert link.targetPort value)
    exact ⟨taken, foldlM_cons_ok.mpr ⟨_, by rw [read]; rfl, done⟩⟩

theorem gather_perm {links' : List Link} (same : links.Perm links') (distinct : (links.map Link.targetPort).Nodup)
    (done : gather outputs links = .ok taken) : gather outputs links' = .ok taken := by
  obtain ⟨brought, absent⟩ := gather_ok done distinct
  obtain ⟨taken', done'⟩ : ∃ taken', gather outputs links' = .ok taken' := by
    apply gather_total
    intro link member
    obtain ⟨value, read, -⟩ := brought link (same.mem_iff.mpr member)
    exact ⟨value, read⟩
  obtain ⟨brought', absent'⟩ := gather_ok done' ((same.map _).nodup_iff.mp distinct)
  have equal : taken' = taken := by
    apply Finmap.ext_lookup
    intro port
    by_cases inside : port ∈ links.map Link.targetPort
    · obtain ⟨link, member, rfl⟩ := List.mem_map.mp inside
      obtain ⟨value, read, held⟩ := brought link member
      obtain ⟨value', read', held'⟩ := brought' link (same.mem_iff.mp member)
      rw [held, held', ← read, ← read']
    · have outside' : port ∉ links'.map Link.targetPort := fun member => inside ((same.map _).mem_iff.mpr member)
      rw [absent port inside, absent' port outside']
  rw [done', equal]

theorem gather_congr (same : ∀ link ∈ links, output? outputs link = output? others link) : gather outputs links = gather others links := by
  unfold gather
  generalize (∅ : Ports V) = first
  induction links generalizing first with
  | nil => rfl
  | cons link links ih =>
    rw [List.foldlM_cons, List.foldlM_cons, same link (List.mem_cons_self ..)]
    apply bind_congr
    intro next
    exact ih (fun one member => same one (List.mem_cons_of_mem _ member)) next

end Gathering

end NovelStudio.LocalReuse
