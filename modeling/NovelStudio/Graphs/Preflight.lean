import NovelStudio.Library.Exploration
import NovelStudio.Library.Fallible
import NovelStudio.Workflow.Order

/-! What a preflight of a graph runs and in which order (`creative/graph.py`, `_preflight`). -/

namespace NovelStudio.Graphs

open Library

structure GraphNode where
  id : String
  enabled : Bool
  deriving DecidableEq

structure GraphEdge where
  source : String
  sourcePort : String
  target : String
  targetPort : String
  deriving DecidableEq

structure GraphDefinition where
  nodes : List GraphNode
  edges : List GraphEdge
  deriving DecidableEq

namespace GraphDefinition

def ids (definition : GraphDefinition) : List String := definition.nodes.map GraphNode.id

/-- The edges as `_workflow_order` takes them. -/
def pairs (definition : GraphDefinition) : List Workflow.Edge := definition.edges.map fun edge => (edge.source, edge.target)

/-- The targets asked for, or all that is enabled. -/
def targets (definition : GraphDefinition) (requested : List String) : List String :=
  if requested = [] then (definition.nodes.filter GraphNode.enabled).map GraphNode.id else requested

/-- `incoming[edge["target_node_id"]].append(edge)`. -/
def fileEdge (incoming : Dict String (List GraphEdge)) (edge : GraphEdge) : Except String (Dict String (List GraphEdge)) := do
  let listed ← fetch (incoming.get? edge.target) "KeyError"
  return incoming.set edge.target (listed ++ [edge])

def incoming (definition : GraphDefinition) : Except String (Dict String (List GraphEdge)) :=
  definition.edges.foldlM fileEdge (definition.ids.foldl (fun table nodeId => table.set nodeId []) ∅)

end GraphDefinition

/-- The state of the loop that closes the targets; the end of the queue, where it is popped, comes first. -/
structure Closing where
  closure : List String
  queue : List String
  deriving DecidableEq

def Closing.pull (state : Closing) (edge : GraphEdge) : Closing :=
  if edge.source ∈ state.closure then state else ⟨state.closure ++ [edge.source], edge.source :: state.queue⟩

/-- One turn: the last of the queue is taken and the sources of its edges are pulled in. -/
def Closing.turn (incoming : Dict String (List GraphEdge)) (state : Closing) : Except String (Option Closing) :=
  match state.queue with
  | [] => .ok none
  | nodeId :: queue => do
    let edges ← fetch (incoming.get? nodeId) "KeyError"
    return some (edges.foldl pull ⟨state.closure, queue⟩)

/-- The sources that may still be pulled in, and the queue. -/
def Closing.rank (sources : List String) (state : Closing) : Nat :=
  (sources.filter fun source => source ∉ state.closure).length + state.queue.length

theorem Closing.rank_pull {sources : List String} (state : Closing) (known : edge.source ∈ sources) :
    (state.pull edge).rank sources ≤ state.rank sources := by
  unfold pull
  split
  · exact Nat.le_refl _
  · rename_i fresh
    have fewer : (sources.filter fun source => source ∉ state.closure ++ [edge.source]).length <
        (sources.filter fun source => source ∉ state.closure).length := by
      have narrowed : (sources.filter fun source => source ∉ state.closure ++ [edge.source]) =
          (sources.filter fun source => source ∉ state.closure).filter fun source => source ≠ edge.source := by
        rw [List.filter_filter]
        congr 1
        funext source
        simp [and_comm]
      rw [narrowed]
      refine List.length_filter_lt_length_iff_exists.mpr ⟨edge.source, List.mem_filter.mpr ⟨known, by simpa using fresh⟩, by simp⟩
    simp only [rank, List.length_cons]
    omega

theorem Closing.rank_pulls {sources : List String} (edges : List GraphEdge) (state : Closing)
    (known : ∀ edge ∈ edges, edge.source ∈ sources) : (edges.foldl pull state).rank sources ≤ state.rank sources := by
  induction edges generalizing state with
  | nil => exact Nat.le_refl _
  | cons edge rest ih =>
    refine Nat.le_trans (ih (state.pull edge) fun other member => known other (List.mem_cons_of_mem _ member)) ?_
    exact state.rank_pull (known edge (List.mem_cons_self ..))

/-- All sources of the listed edges. -/
def sourcesOf (incoming : Dict String (List GraphEdge)) : List String := incoming.values.flatten.map GraphEdge.source

theorem Closing.turn_descends (incoming : Dict String (List GraphEdge)) (state next : Closing)
    (turned : state.turn incoming = .ok (some next)) : next.rank (sourcesOf incoming) < state.rank (sourcesOf incoming) := by
  unfold turn at turned
  split at turned
  · cases turned
  · rename_i nodeId queue waiting
    simp only [bind_ok, fetch_ok, pure_ok, Option.some.injEq] at turned
    obtain ⟨edges, found, rfl⟩ := turned
    have known : ∀ edge ∈ edges, edge.source ∈ sourcesOf incoming := by
      intro edge member
      refine List.mem_map.mpr ⟨edge, List.mem_flatten.mpr ⟨edges, Dict.mem_values_iff.mpr ⟨nodeId, found⟩, member⟩, rfl⟩
    refine Nat.lt_of_le_of_lt (rank_pulls edges _ known) ?_
    simp only [rank, waiting, List.length_cons]
    omega

def closeTargets (incoming : Dict String (List GraphEdge)) (targets : List String) : Except String Closing :=
  turnLoop (Closing.turn incoming) (Closing.rank (sourcesOf incoming)) (Closing.turn_descends incoming) ⟨targets, targets.reverse⟩

/-- The execution order of a preflight: the targets and what comes before them, in the order of the workflow. -/
def executionOrder (definition : GraphDefinition) (requested : List String) : Except String (List String) := do
  let targets := definition.targets requested
  reject (!decide targets.Nodup || targets.any fun target => target ∉ definition.ids) "CREATIVE_GRAPH_TARGET_INVALID"
  let incoming ← definition.incoming
  let closed ← closeTargets incoming targets
  let order ← Workflow.workflowOrder definition.ids definition.pairs
  return order.filter fun nodeId => nodeId ∈ closed.closure

section Incoming

variable {definition : GraphDefinition} {incoming : Dict String (List GraphEdge)}

open GraphDefinition

theorem incoming_spec (filed : definition.incoming = .ok incoming) (nodeId : String) :
    incoming.get? nodeId =
      if nodeId ∈ definition.ids then some (definition.edges.filter fun edge => edge.target = nodeId) else none := by
  refine foldlM_invariant (motive := fun before table => ∀ nodeId, table.get? nodeId =
    if nodeId ∈ definition.ids then some (before.filter fun edge => edge.target = nodeId) else none) ?_ ?_ filed nodeId
  · intro before edge table next _ holds turned nodeId
    simp only [fileEdge, bind_ok, fetch_ok, pure_ok] at turned
    obtain ⟨listed, found, rfl⟩ := turned
    rw [holds] at found
    have here : edge.target ∈ definition.ids := by
      by_contra missing
      rw [if_neg missing] at found
      cases found
    rw [if_pos here, Option.some.injEq] at found
    rw [Dict.get?_set, List.filter_append]
    by_cases same : nodeId = edge.target
    · subst same
      simp [here, found]
    · rw [if_neg same, holds]
      simp [Ne.symm same]
  · intro nodeId
    have filled := Dict.get?_foldl_set (fun nodeId : String => nodeId) ([] : List GraphEdge) definition.ids ∅ nodeId
    simpa using filled

theorem incoming_built (known : ∀ edge ∈ definition.edges, edge.target ∈ definition.ids) :
    ∃ incoming, definition.incoming = .ok incoming := by
  have general : ∀ (edges : List GraphEdge) (table : Dict String (List GraphEdge)),
      (∀ nodeId ∈ definition.ids, nodeId ∈ table.keys) → (∀ edge ∈ edges, edge.target ∈ definition.ids) →
      ∃ incoming, edges.foldlM fileEdge table = .ok incoming := by
    intro edges
    induction edges with
    | nil => exact fun table _ _ => ⟨table, rfl⟩
    | cons edge rest ih =>
      intro table listed known
      obtain ⟨before, found⟩ := Dict.mem_keys_iff.mp (listed _ (known edge (List.mem_cons_self ..)))
      have turned : fileEdge table edge = .ok (table.set edge.target (before ++ [edge])) := by
        rw [fileEdge, found]
        rfl
      have grown : ∀ nodeId ∈ definition.ids, nodeId ∈ (table.set edge.target (before ++ [edge])).keys := by
        intro nodeId member
        rw [Dict.keys_set]
        split
        · exact listed nodeId member
        · exact List.mem_append_left _ (listed nodeId member)
      obtain ⟨incoming, done⟩ := ih _ grown fun other member => known other (List.mem_cons_of_mem _ member)
      exact ⟨incoming, foldlM_cons_ok.mpr ⟨_, turned, done⟩⟩
  refine general definition.edges _ ?_ known
  intro nodeId member
  have filled := Dict.get?_foldl_set (fun nodeId : String => nodeId) ([] : List GraphEdge) definition.ids ∅ nodeId
  exact Dict.mem_keys_iff.mpr ⟨[], by simpa [member] using filled⟩

end Incoming

theorem Closing.mem_pulls {edges : List GraphEdge} {state : Closing} :
    nodeId ∈ (edges.foldl pull state).closure ↔ nodeId ∈ state.closure ∨ ∃ edge ∈ edges, edge.source = nodeId := by
  induction edges generalizing state with
  | nil => simp
  | cons edge rest ih =>
    rw [List.foldl_cons, ih]
    unfold pull
    split
    · rename_i known
      simp only [List.mem_cons, exists_eq_or_imp]
      constructor
      · intro member
        exact member.imp_right Or.inr
      · intro member
        rcases member with old | rfl | later
        · exact .inl old
        · exact .inl known
        · exact .inr later
    · simp only [List.mem_append, List.mem_cons, List.not_mem_nil, false_or, exists_eq_or_imp, or_assoc, @eq_comm _ nodeId]

theorem Closing.mem_queue_pulls {edges : List GraphEdge} {state : Closing} :
    nodeId ∈ (edges.foldl pull state).queue ↔
      nodeId ∈ state.queue ∨ nodeId ∉ state.closure ∧ ∃ edge ∈ edges, edge.source = nodeId := by
  induction edges generalizing state with
  | nil => simp
  | cons edge rest ih =>
    rw [List.foldl_cons, ih]
    unfold pull
    simp only [List.mem_cons, exists_eq_or_imp]
    split
    · rename_i known
      constructor
      · intro member
        exact member.imp_right fun fresh => ⟨fresh.1, .inr fresh.2⟩
      · intro member
        rcases member with old | ⟨fresh, rfl | later⟩
        · exact .inl old
        · exact absurd known fresh
        · exact .inr ⟨fresh, later⟩
    · rename_i unknown
      simp only [List.mem_cons, List.mem_append, not_or]
      by_cases same : nodeId = edge.source
      · subst same
        simp [unknown]
      · simp [same, Ne.symm same]

/-- What holds at the head of the loop: the closure holds the targets and only what comes before them,
and the sources of whatever does not wait. -/
structure Closing.Sound (edges : List Workflow.Edge) (targets : List String) (state : Closing) : Prop where
  queued : ∀ nodeId ∈ state.queue, nodeId ∈ state.closure
  wanted : ∀ nodeId ∈ targets, nodeId ∈ state.closure
  reaches : ∀ nodeId ∈ state.closure, ∃ target ∈ targets, Relation.ReflTransGen (Precedes edges) nodeId target
  expanded : ∀ nodeId ∈ state.closure, nodeId ∉ state.queue → ∀ source, Precedes edges source nodeId → source ∈ state.closure

theorem Closing.sound_init (edges : List Workflow.Edge) (targets : List String) : (Closing.mk targets targets.reverse).Sound edges targets where
  queued _ member := List.mem_reverse.mp member
  wanted _ member := member
  reaches nodeId member := ⟨nodeId, member, .refl⟩
  expanded _ member waits := absurd (List.mem_reverse.mpr member) waits

section Closed

variable {definition : GraphDefinition} {incoming : Dict String (List GraphEdge)} {targets : List String}

theorem Closing.Sound.turn {state next : Closing} (sound : state.Sound definition.pairs targets)
    (filed : definition.incoming = .ok incoming) (turned : state.turn incoming = .ok (some next)) :
    next.Sound definition.pairs targets := by
  unfold Closing.turn at turned
  split at turned
  · cases turned
  rename_i nodeId queue waiting
  simp only [bind_ok, fetch_ok, pure_ok, Option.some.injEq] at turned
  obtain ⟨edges, found, rfl⟩ := turned
  rw [incoming_spec filed] at found
  split at found
  case isFalse => cases found
  cases found
  -- the edges taken are those that lead to the node
  have sources {source : String} : (∃ edge ∈ definition.edges.filter fun edge => edge.target = nodeId, edge.source = source) ↔
      Precedes definition.pairs source nodeId := by
    simp only [List.mem_filter, decide_eq_true_eq, Precedes, GraphDefinition.pairs, List.mem_map, Prod.mk.injEq]
    constructor
    · rintro ⟨edge, ⟨member, into⟩, from_⟩
      exact ⟨edge, member, from_, into⟩
    · rintro ⟨edge, member, from_, into⟩
      exact ⟨edge, ⟨member, into⟩, from_⟩
  have here : nodeId ∈ state.closure := sound.queued nodeId (by rw [waiting]; exact List.mem_cons_self ..)
  constructor
  · intro other member
    rw [Closing.mem_pulls]
    rcases Closing.mem_queue_pulls.mp member with old | ⟨_, new⟩
    · exact .inl (sound.queued other (by rw [waiting]; exact List.mem_cons_of_mem _ old))
    · exact .inr new
  · intro other member
    exact Closing.mem_pulls.mpr (.inl (sound.wanted other member))
  · intro other member
    rcases Closing.mem_pulls.mp member with old | new
    · exact sound.reaches other old
    · obtain ⟨target, wanted, path⟩ := sound.reaches nodeId here
      exact ⟨target, wanted, path.head (sources.mp new)⟩
  · intro other member idle source edge
    rw [Closing.mem_pulls]
    rw [Closing.mem_queue_pulls, not_or, not_and] at idle
    rcases Closing.mem_pulls.mp member with old | new
    · by_cases same : other = nodeId
      · subst same
        exact .inr (sources.mpr edge)
      · refine .inl (sound.expanded other old ?_ source edge)
        rw [waiting, List.mem_cons, not_or]
        exact ⟨same, idle.1⟩
    · by_cases old : other ∈ state.closure
      · by_cases same : other = nodeId
        · subst same
          exact .inr (sources.mpr edge)
        · refine .inl (sound.expanded other old ?_ source edge)
          rw [waiting, List.mem_cons, not_or]
          exact ⟨same, idle.1⟩
      · exact absurd new (idle.2 old)

theorem closeTargets_spec {closed : Closing} (filed : definition.incoming = .ok incoming) (done : closeTargets incoming targets = .ok closed) :
    nodeId ∈ closed.closure ↔ ∃ target ∈ targets, Relation.ReflTransGen (Precedes definition.pairs) nodeId target := by
  obtain ⟨sound, stopped⟩ := loop_invariant (fun sound turned => Closing.Sound.turn sound filed turned)
    (Closing.sound_init definition.pairs targets) done
  have empty : closed.queue = [] := by
    unfold Closing.turn at stopped
    split at stopped
    · assumption
    · simp only [bind_ok, pure_ok] at stopped
      obtain ⟨_, _, none⟩ := stopped
      cases none
  constructor
  · exact sound.reaches nodeId
  · intro ⟨target, wanted, path⟩
    induction path using Relation.ReflTransGen.head_induction_on with
    | refl => exact sound.wanted target wanted
    | head edge _ ih => exact sound.expanded _ ih (by simp [empty]) _ edge

theorem closeTargets_ends (filed : definition.incoming = .ok incoming) (known : ∀ edge ∈ definition.edges, edge.source ∈ definition.ids)
    (wanted : ∀ target ∈ targets, target ∈ definition.ids) : ∃ closed, closeTargets incoming targets = .ok closed := by
  refine loop_ends (motive := fun state => ∀ nodeId ∈ state.queue, nodeId ∈ definition.ids) ?_ ?_ ?_
  · intro state next inside turned
    unfold Closing.turn at turned
    split at turned
    · cases turned
    rename_i nodeId queue waiting
    simp only [bind_ok, fetch_ok, pure_ok, Option.some.injEq] at turned
    obtain ⟨edges, found, rfl⟩ := turned
    rw [incoming_spec filed, if_pos (inside nodeId (by rw [waiting]; exact List.mem_cons_self ..))] at found
    cases found
    intro other member
    rcases Closing.mem_queue_pulls.mp member with old | ⟨_, edge, listed, rfl⟩
    · exact inside other (by rw [waiting]; exact List.mem_cons_of_mem _ old)
    · exact known edge (List.mem_filter.mp listed).1
  · intro state inside
    unfold Closing.turn
    split
    · exact ⟨none, rfl⟩
    · rename_i nodeId queue waiting
      rw [incoming_spec filed, if_pos (inside nodeId (by rw [waiting]; exact List.mem_cons_self ..))]
      exact ⟨_, rfl⟩
  · intro nodeId member
    exact wanted nodeId (List.mem_reverse.mp member)

end Closed

/-- An order of the targets and of all that comes before them, each node once and behind whatever comes before it. -/
structure ExecutionOrder (edges : List Workflow.Edge) (targets order : List String) : Prop where
  wanted : ∀ target ∈ targets, target ∈ order
  predecessors : ∀ nodeId ∈ order, ∀ source, Relation.TransGen (Precedes edges) source nodeId → source ∈ order
  nothingElse : ∀ nodeId ∈ order, nodeId ∈ targets ∨ ∃ target ∈ targets, Relation.TransGen (Precedes edges) nodeId target
  distinct : order.Nodup
  behind : ∀ before nodeId after, order = before ++ nodeId :: after →
    ∀ source, Relation.TransGen (Precedes edges) source nodeId → source ∈ before

section Order

variable {definition : GraphDefinition} {requested : List String}

theorem executionOrder_ok : executionOrder definition requested = .ok result ↔
    (definition.targets requested).Nodup ∧ (∀ target ∈ definition.targets requested, target ∈ definition.ids) ∧
    ∃ incoming, definition.incoming = .ok incoming ∧ ∃ closed, closeTargets incoming (definition.targets requested) = .ok closed ∧
      ∃ order, Workflow.workflowOrder definition.ids definition.pairs = .ok order ∧
        (order.filter fun nodeId => nodeId ∈ closed.closure) = result := by
  simp only [executionOrder, bind_ok, reject_ok, pure_ok, Bool.or_eq_false_iff, Bool.not_eq_false', decide_eq_true_eq, List.any_eq_false,
    not_not, exists_const, and_assoc]

theorem executionOrder_sound (computed : executionOrder definition requested = .ok order) :
    ExecutionOrder definition.pairs (definition.targets requested) order := by
  obtain ⟨_, known, incoming, filed, closed, done, whole, ordered, rfl⟩ := executionOrder_ok.mp computed
  obtain ⟨distinct, perm, respects, within⟩ := Workflow.workflowOrder_spec ordered
  have inClosure {nodeId} : nodeId ∈ closed.closure ↔
      ∃ target ∈ definition.targets requested, Relation.ReflTransGen (Precedes definition.pairs) nodeId target := closeTargets_spec filed done
  have member {nodeId} : nodeId ∈ whole.filter (fun nodeId => nodeId ∈ closed.closure) ↔
      nodeId ∈ definition.ids ∧ ∃ target ∈ definition.targets requested, Relation.ReflTransGen (Precedes definition.pairs) nodeId target := by
    rw [List.mem_filter, perm.mem_iff, decide_eq_true_eq, inClosure]
  have ends {source nodeId} (path : Relation.TransGen (Precedes definition.pairs) source nodeId) : source ∈ definition.ids := by
    obtain ⟨_, edge, _⟩ := Relation.TransGen.head'_iff.mp path
    exact (within _ edge).1
  constructor
  · intro target wanted
    exact member.mpr ⟨known target wanted, target, wanted, .refl⟩
  · intro nodeId here source path
    obtain ⟨_, target, wanted, onward⟩ := member.mp here
    exact member.mpr ⟨ends path, target, wanted, path.to_reflTransGen.trans onward⟩
  · intro nodeId here
    obtain ⟨_, target, wanted, onward⟩ := member.mp here
    rcases Relation.reflTransGen_iff_eq_or_transGen.mp onward with rfl | path
    · exact .inl wanted
    · exact .inr ⟨target, wanted, path⟩
  · exact (perm.nodup_iff.mpr distinct).filter _
  · intro before nodeId after same source path
    have here : nodeId ∈ whole.filter fun nodeId => nodeId ∈ closed.closure := by simp [same]
    obtain ⟨_, target, wanted, onward⟩ := member.mp here
    have kept : source ∈ closed.closure := inClosure.mpr ⟨target, wanted, path.to_reflTransGen.trans onward⟩
    exact respects.earlier_filter path (decide_eq_true kept) same

/-- A preflight computes an order exactly where the nodes are distinct, the edges run between them without a cycle,
and the targets are different nodes. -/
theorem executionOrder_ok_iff : (∃ order, executionOrder definition requested = .ok order) ↔
    definition.ids.Nodup ∧ (∀ edge ∈ definition.pairs, edge.1 ∈ definition.ids ∧ edge.2 ∈ definition.ids) ∧ Acyclic definition.pairs ∧
    (definition.targets requested).Nodup ∧ ∀ target ∈ definition.targets requested, target ∈ definition.ids := by
  constructor
  · intro ⟨order, computed⟩
    obtain ⟨once, known, _, _, _, _, whole, ordered, _⟩ := executionOrder_ok.mp computed
    obtain ⟨distinct, within, acyclic⟩ := Workflow.workflowOrder_ok_iff.mp ⟨whole, ordered⟩
    exact ⟨distinct, within, acyclic, once, known⟩
  · intro ⟨distinct, within, acyclic, once, known⟩
    have ends : ∀ edge ∈ definition.edges, edge.source ∈ definition.ids ∧ edge.target ∈ definition.ids :=
      fun edge member => within _ (List.mem_map.mpr ⟨edge, member, rfl⟩)
    obtain ⟨incoming, filed⟩ := incoming_built fun edge member => (ends edge member).2
    obtain ⟨closed, done⟩ := closeTargets_ends filed (fun edge member => (ends edge member).1) known
    obtain ⟨whole, ordered⟩ := Workflow.workflowOrder_ok_iff.mpr ⟨distinct, within, acyclic⟩
    exact ⟨_, executionOrder_ok.mpr ⟨once, known, incoming, filed, closed, done, whole, ordered, rfl⟩⟩

end Order

/-- A preflight orders its targets and what comes before them, and it does so for every graph; the order of a workflow
exists exactly where the graph has no cycle, whatever edges are repeated. -/
theorem executionOrder_closed :
    (∀ (definition : GraphDefinition) (requested : List String),
      ((∃ order, executionOrder definition requested = .ok order) ↔
        definition.ids.Nodup ∧ (∀ edge ∈ definition.pairs, edge.1 ∈ definition.ids ∧ edge.2 ∈ definition.ids) ∧ Acyclic definition.pairs ∧
        (definition.targets requested).Nodup ∧ ∀ target ∈ definition.targets requested, target ∈ definition.ids) ∧
      ∀ order, executionOrder definition requested = .ok order →
        ExecutionOrder definition.pairs (definition.targets requested) order) ∧
    ∀ (ids : List String) (edges : List Workflow.Edge), ids.Nodup → (∀ edge ∈ edges, edge.1 ∈ ids ∧ edge.2 ∈ ids) →
      (Acyclic edges ↔ ∃ order, Workflow.workflowOrder ids edges = .ok order ∧ order.Perm ids ∧ Respects edges order) ∧
      (¬ Acyclic edges → ∃ message, Workflow.workflowOrder ids edges = .error message) := by
  refine ⟨fun definition requested => ⟨executionOrder_ok_iff, fun order computed => executionOrder_sound computed⟩, ?_⟩
  intro ids edges distinct known
  have exactly : Acyclic edges ↔ ∃ order, Workflow.workflowOrder ids edges = .ok order := by
    rw [Workflow.workflowOrder_ok_iff]
    exact ⟨fun acyclic => ⟨distinct, known, acyclic⟩, fun accepted => accepted.2.2⟩
  constructor
  · rw [exactly]
    constructor
    · intro ⟨order, accepted⟩
      obtain ⟨_, perm, respects, _⟩ := Workflow.workflowOrder_spec accepted
      exact ⟨order, accepted, perm, respects⟩
    · intro ⟨order, accepted, _⟩
      exact ⟨order, accepted⟩
  · intro cyclic
    cases ordered : Workflow.workflowOrder ids edges with
    | error message => exact ⟨message, rfl⟩
    | ok order => exact absurd (exactly.mpr ⟨order, ordered⟩) cyclic

/-- Two ways lead from the first node to the last, one of them through two parallel edges. -/
def diamond : GraphDefinition where
  nodes := [⟨"review", true⟩, ⟨"left", true⟩, ⟨"right", true⟩, ⟨"source", true⟩, ⟨"aside", true⟩]
  edges := [⟨"source", "text", "left", "text"⟩, ⟨"source", "text", "left", "reference"⟩, ⟨"source", "text", "right", "text"⟩,
    ⟨"left", "draft", "review", "draft"⟩, ⟨"right", "draft", "review", "reference"⟩]

theorem diamond_ordered : Workflow.workflowOrder diamond.ids diamond.pairs = .ok ["source", "aside", "left", "right", "review"] := by decide

theorem executionOrder_closed_diamond :
    (∃ order, executionOrder diamond ["review"] = .ok order ∧ ExecutionOrder diamond.pairs ["review"] order) ∧
    ∃ order, Workflow.workflowOrder diamond.ids diamond.pairs = .ok order ∧ order.Perm diamond.ids ∧ Respects diamond.pairs order := by
  have acyclic : Acyclic diamond.pairs := (Workflow.workflowOrder_ok_iff.mp ⟨_, diamond_ordered⟩).2.2
  constructor
  · have whole := executionOrder_closed.1 diamond ["review"]
    obtain ⟨order, computed⟩ := whole.1.mpr ⟨by decide, by decide, acyclic, by decide, by decide⟩
    exact ⟨order, computed, whole.2 order computed⟩
  · exact (executionOrder_closed.2 diamond.ids diamond.pairs (by decide) (by decide)).1.mp acyclic

end NovelStudio.Graphs
