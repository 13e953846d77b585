import Mathlib.Data.List.Perm.Subperm
import NovelStudio.Planning.Hierarchy

/-! The parent chains of planning nodes: where every node that is reached is placed, and that the
walk over its ancestors finds its chain. -/

namespace NovelStudio.Planning

open Library Experimental

variable {project : Project} {outside : Outside} {state next : State}

/-- The ancestors of a node by its parent ids, from the one without a parent down. -/
inductive ParentChain (nodes : Dict String (Row Node)) : Row Node → List (String × Row Node) → Prop where
  | top {node} (none : node.data.parentId = none) : ParentChain nodes node []
  | child {node pid parent above} (named : node.data.parentId = some pid) (stored : nodes.get? pid = some parent) (chain : ParentChain nodes parent above) :
      ParentChain nodes node (above ++ [(pid, parent)])

/-- The levels above a level, from the top down. -/
def Level.above : Level → List Level
  | .project => []
  | .volume => [.project]
  | .chapter => [.project, .volume]
  | .scene => [.project, .volume, .chapter]

/-- Where a node of a hierarchy is. -/
structure Placed (state : State) (id : String) (node : Row Node) (above : List (String × Row Node)) : Prop where
  chain : ParentChain state.nodes node above
  levels : above.map (·.2.data.level) = node.data.level.above
  graph : ∀ entry ∈ above, entry.2.data.graphId = node.data.graphId
  root : ∃ graph, state.graphs.get? node.data.graphId = some graph ∧ (above.map Prod.fst ++ [id]).head? = some graph.data.rootNodeId ∧
    ∀ other row, state.nodes.get? other = some row → row.data.graphId = node.data.graphId → row.data.level = .project →
      other = graph.data.rootNodeId
  living : node.data.status ≠ .archived → ∀ entry ∈ above, entry.2.data.status ≠ .archived
  chapter : node.data.level = .chapter → ∃ chapterId, node.data.links.chapterIds = [chapterId]
  scene : node.data.level = .scene → ∃ pid parent, node.data.parentId = some pid ∧ state.nodes.get? pid = some parent ∧
    node.data.links.chapterIds = parent.data.links.chapterIds

def Level.depth (level : Level) : Nat := level.above.length

theorem depth_expectedParent {level parent : Level} (expected : level.expectedParent = some parent) : level.depth = parent.depth + 1 := by
  cases level <;> cases expected <;> rfl

theorem above_expectedParent {level parent : Level} (expected : level.expectedParent = some parent) : level.above = parent.above ++ [parent] := by
  cases level <;> cases expected <;> rfl

variable {id : String} {node : Row Node}

theorem Hierarchy.top (hierarchy : Hierarchy state) (found : state.nodes.get? id = some node)
    (level : node.data.level = .project) : Placed state id node [] := by
  obtain ⟨none, _, graph, there, rooted⟩ := hierarchy.root found level
  refine ⟨.top none, by rw [level]; rfl, nofun, ⟨graph, there, by simp [rooted], fun other row stored same root => ?_⟩, fun _ => nofun, ?_, ?_⟩
  · obtain ⟨_, _, graph', there', rooted'⟩ := hierarchy.root stored root
    rw [same] at there'
    cases there.symm.trans there'
    exact rooted'.symm
  · simp [level]
  · simp [level]

variable {above : List (String × Row Node)}

theorem Hierarchy.below (hierarchy : Hierarchy state) {pid : String} {parent : Row Node}
    (found : state.nodes.get? id = some node) (named : node.data.parentId = some pid) (stored : state.nodes.get? pid = some parent)
    (under : Under node.data parent.data) (placed : Placed state pid parent above) : Placed state id node (above ++ [(pid, parent)]) := by
  refine ⟨.child named stored placed.chain, ?_, ?_, ?_, ?_, ?_, fun scene => ⟨pid, parent, named, stored, under.chapter scene⟩⟩
  · rw [List.map_append, placed.levels, above_expectedParent under.level]
    rfl
  · intro entry member
    rcases List.mem_append.mp member with higher | last
    · exact (placed.graph entry higher).trans under.graph
    · cases List.mem_singleton.mp last
      exact under.graph
  · obtain ⟨graph, there, head, single⟩ := placed.root
    refine ⟨graph, under.graph ▸ there, ?_, fun other row stored same => single other row stored (same.trans under.graph.symm)⟩
    rw [List.map_append, List.head?_append]
    have head : (List.map Prod.fst above ++ List.map Prod.fst [(pid, parent)]).head? = some graph.data.rootNodeId := head
    rw [head]
    rfl
  · intro living entry member
    rcases List.mem_append.mp member with higher | last
    · exact placed.living (under.alive living) entry higher
    · cases List.mem_singleton.mp last
      exact under.alive living
  · intro level
    exact List.length_eq_one_iff.mp (hierarchy.chapter found level)

theorem Hierarchy.exists_placed (hierarchy : Hierarchy state) (found : state.nodes.get? id = some node) :
    ∃ above, Placed state id node above := by
  generalize deep : node.data.level.depth = depth
  induction depth generalizing id node with
  | zero =>
    have level : node.data.level = .project := by
      cases level : node.data.level <;> simp [level, Level.depth, Level.above] at deep
      rfl
    exact ⟨[], hierarchy.top found level⟩
  | succ depth ih =>
    have level : node.data.level ≠ .project := by
      intro level
      simp [level, Level.depth, Level.above] at deep
    obtain ⟨pid, parent, named, stored, under⟩ := hierarchy.placed found level
    obtain ⟨above, placed⟩ := ih stored (by have := depth_expectedParent under.level; omega)
    exact ⟨_, hierarchy.below found named stored under placed⟩

/-- A walk does not come to a node twice, since the levels on its way ascend, and so it takes no more
steps than there are nodes. -/
theorem ancestorsFrom_chain (hierarchy : Hierarchy state)
    (chain : ParentChain state.nodes node above) (found : state.nodes.get? id = some node) (living : node.data.status ≠ .archived) {seen : List String}
    (deeper : ∀ other ∈ seen, ∃ row, state.nodes.get? other = some row ∧ node.data.level.depth ≤ row.data.level.depth)
    (once : seen.Nodup) {remaining : Nat} (enough : state.nodes.keys.length + 1 ≤ seen.length + remaining) :
    ancestorsFrom state.nodes node.data.graphId remaining seen node.data.parentId = .ok above := by
  induction chain generalizing id seen remaining with
  | top none => simp [none, ancestorsFrom, pure_ok]
  | @child node pid parent above named stored chain ih =>
    have level : node.data.level ≠ .project := by
      intro level
      obtain ⟨none, _⟩ := hierarchy.root found level
      simp [none] at named
    obtain ⟨_, _, named', stored', under⟩ := hierarchy.placed found level
    cases named.symm.trans named'
    cases stored.symm.trans stored'
    have higher := depth_expectedParent under.level
    have unseen : pid ∉ seen := by
      intro member
      obtain ⟨row, there, deep⟩ := deeper pid member
      cases stored.symm.trans there
      omega
    have all : ∀ other ∈ pid :: seen, ∃ row, state.nodes.get? other = some row ∧ parent.data.level.depth ≤ row.data.level.depth := by
      intro other member
      rcases List.mem_cons.mp member with rfl | member
      · exact ⟨parent, stored, le_refl _⟩
      · obtain ⟨row, there, deep⟩ := deeper other member
        exact ⟨row, there, by omega⟩
    have inside : (pid :: seen).length ≤ state.nodes.keys.length := by
      refine (List.subperm_of_subset (List.nodup_cons.mpr ⟨unseen, once⟩) fun other member => ?_).length_le
      obtain ⟨row, there, _⟩ := all other member
      exact Dict.mem_keys_iff.mpr ⟨row, there⟩
    rw [List.length_cons] at inside
    obtain ⟨remaining, rfl⟩ : ∃ more, remaining = more + 1 := Nat.exists_eq_succ_of_ne_zero (by omega)
    have alive := under.alive living
    have upwards : ancestorsFrom state.nodes node.data.graphId remaining (pid :: seen) parent.data.parentId = .ok above := by
      rw [← under.graph]
      exact ih stored alive all (List.nodup_cons.mpr ⟨unseen, once⟩) (by rw [List.length_cons]; omega)
    simp only [named, ancestorsFrom, bind_ok, requireRow_ok, reject_ok, pure_ok]
    refine ⟨parent, stored, (), ?_, above, upwards, rfl⟩
    simp [unseen, under.graph, alive]

theorem ancestors_chain (hierarchy : Hierarchy state)
    (found : state.nodes.get? id = some node) (chain : ParentChain state.nodes node above) (living : node.data.status ≠ .archived) :
    ancestors state.nodes id node.data = .ok above := by
  refine ancestorsFrom_chain hierarchy chain found living (fun other member => ?_) (List.nodup_singleton id) (by rw [List.length_singleton]; omega)
  cases List.mem_singleton.mp member
  exact ⟨node, found, le_refl _⟩

/-- Whatever calls are made, every node has its place below the root of its graph, and the walk over
the ancestors of a living node ends with them. -/
theorem reached_hierarchy {events : List Event} (run : Run (Step project) .empty events state) {id : String} {node : Row Node}
    (found : state.nodes.get? id = some node) :
    ∃ above, Placed state id node above ∧ (node.data.status ≠ .archived → ancestors state.nodes id node.data = .ok above) := by
  have hierarchy : Hierarchy state := run.invariant empty_hierarchy fun hierarchy step => step.hierarchy hierarchy
  obtain ⟨above, placed⟩ := hierarchy.exists_placed found
  exact ⟨above, placed, ancestors_chain hierarchy found placed.chain⟩

def drawn (letter : Char) (index : Nat) : String := String.ofList (letter :: List.replicate index 'x')

def sampleOutside (letter : Char) : Outside where
  actor := "author"
  novel := .ok ()
  chapter := fun cid => if cid = "c1" then some ⟨"n1", none, 3, "d3"⟩ else none
  characters := fun _ => none
  locations := fun _ => none
  storyRoutes := fun _ => none
  ability := fun _ => none
  canon := fun _ => none
  template := fun _ => none
  accepts := fun _ => true
  reauthorize := .ok ()
  ids := drawn letter

def sampleProject : Project := ⟨"n1", false, none⟩

/-- No id of the state starts with a letter. -/
def unused (state : State) (letter : Char) : Bool :=
  (state.graphs.keys ++ state.nodes.keys ++ state.proposals.keys).all fun rid => rid.toList.head? ≠ some letter

/-- A call that draws ids which start with a letter. -/
def attempt (state : State) (attempted : Char × Call) : Option (State × Event) :=
  if unused state attempted.1 then
    let next := commit state (perform sampleProject (sampleOutside attempted.1) state attempted.2)
    some (next, ⟨sampleOutside attempted.1, attempted.2, state, next⟩)
  else none

theorem fresh_of_unused {letter : Char} (fresh : unused state letter = true) : Fresh (sampleOutside letter) state := by
  refine ⟨fun first second same => ?_, fun index => ?_⟩
  · have lengths := congrArg (fun rid => rid.toList.length) same
    simpa [sampleOutside, drawn] using lengths
  · have apart : drawn letter index ∉ state.graphs.keys ++ state.nodes.keys ++ state.proposals.keys := by
      intro member
      have other := List.all_eq_true.mp fresh _ member
      simp [drawn] at other
    simpa [sampleOutside, not_or, and_assoc] using apart

theorem step_of_attempt {attempted : Char × Call} {event : Event} (done : attempt state attempted = some (next, event)) :
    Step sampleProject state event next := by
  simp only [attempt] at done
  split at done
  · rename_i fresh
    cases done
    exact ⟨rfl, rfl, fresh_of_unused fresh, rfl⟩
  · cases done

def sampleFields : PlanningFields := ⟨"", "", "", "", "", ∅, ∅⟩

def sampleLinks (chapterIds : List String) : PlanningLinks := ⟨[], [], [], chapterIds, []⟩

def sampleNode (parentId : String) (level : ChildLevel) (chapterIds : List String) : Call :=
  .createNode ⟨⟨"title", sampleFields, sampleLinks chapterIds⟩, "a", parentId, level, 0⟩

def sampleGraph : Char × Call := ('a', .createGraph ⟨"title", sampleFields, sampleLinks []⟩)

def samplePlan : List (Char × Call) :=
  [sampleGraph, ('b', sampleNode "ax" .volume []), ('c', sampleNode "b" .chapter ["c1"]), ('d', sampleNode "c" .scene ["c1"])]

theorem reached_hierarchy_sample : ∃ state node above, state.nodes.get? "d" = some node ∧ node.data.level = .scene ∧ Placed state "d" node above ∧
    (node.data.status ≠ .archived → ancestors state.nodes "d" node.data = .ok above) := by
  have ends : (execute attempt .empty samplePlan).any (fun reached =>
      (reached.2.nodes.get? "d").any fun node => node.data.level = .scene) = true := by
    decide +kernel
  obtain ⟨⟨events, state⟩, executed, scene⟩ := Option.any_eq_true _ _ |>.mp ends
  obtain ⟨node, found, level⟩ := Option.any_eq_true _ _ |>.mp scene
  obtain ⟨above, placed⟩ := reached_hierarchy (Run.of_execute step_of_attempt samplePlan executed) found
  exact ⟨state, node, above, found, of_decide_eq_true level, placed⟩

end NovelStudio.Planning

/-! What a planning call does to the nodes and the proposals. The versions of nodes only grow, and no
call changes what a proposal says. -/

namespace NovelStudio.Planning

open Library Experimental

variable {project : Project} {outside : Outside} {state next : State}

/-- What a proposal is written against. -/
structure Written (project : Project) (outside : Outside) (state : State) (nodeId : String) (draft : Draft) : Prop where
  target : ∃ node above, state.nodes.get? nodeId = some node ∧ node.version = draft.targetVersion ∧ node.data.status ≠ .archived ∧
    ancestors state.nodes nodeId node.data = .ok above ∧ draft.ancestorVersions = versions above
  sources : scopedSources project outside draft.links.chapterIds = .ok draft.sources
  entities : entitySources project outside draft.links = .ok draft.entitySources

/-- A change of a node that is no approval. -/
structure Edited (node next : Row Node) : Prop where
  version : next.version = node.version + 1
  approval : next.data.approvedProposalId = none ∨ next.data.approvedProposalId = node.data.approvedProposalId ∧ next.data.toContent = node.data.toContent

/-- Proposals that are added to those there are. -/
structure Proposed (project : Project) (outside : Outside) (state : State) (proposals : Dict String (Row Tracked)) : Prop where
  kept : ∀ {pid row}, state.proposals.get? pid = some row → proposals.get? pid = some row
  added : ∀ {pid row}, proposals.get? pid = some row → state.proposals.get? pid = some row ∨
    state.proposals.get? pid = none ∧ row.data.history = [] ∧ Written project outside state row.data.nodeId row.data.toDraft

/-- What a call that does not raise does. -/
inductive Effect (project : Project) (outside : Outside) (state : State) : Call → State → Prop where
  | graphs : Effect project outside state call { state with graphs }
  | add (new : rid ∉ state.nodes.keys) (plain : node.data.approvedProposalId = none) :
      Effect project outside state call { state with graphs, nodes := state.nodes.set rid node }
  | edit (found : state.nodes.get? rid = some node) (edited : Edited node changed) :
      Effect project outside state call { state with nodes := state.nodes.set rid changed }
  | propose (proposed : Proposed project outside state proposals) : Effect project outside state call { state with proposals }
  | approve (there : state.proposals.get? pid = some row) (applied : applyProposal project outside state pid row = .ok node)
      (draft : (change row.data.toProposal).toDraft = row.data.toDraft) (target : (change row.data.toProposal).nodeId = row.data.nodeId) :
      Effect project outside state (.review pid .approve expected)
        { state with nodes := state.nodes.set row.data.nodeId node, proposals := state.proposals.set pid (changeProposal row change) }
  | track (there : state.proposals.get? pid = some row) (draft : (change row.data.toProposal).toDraft = row.data.toDraft)
      (target : (change row.data.toProposal).nodeId = row.data.nodeId) :
      Effect project outside state call { state with proposals := state.proposals.set pid (changeProposal row change) }

/-- The history of a proposal says what the proposal says. -/
def Faithful (state : State) : Prop :=
  ∀ ⦃pid row⦄, state.proposals.get? pid = some row → ∀ entry ∈ row.data.history, entry.2.toDraft = row.data.toDraft

variable {row : Row Tracked}

theorem proposalRow_ok {value : PlanningProposalIn} {mode : ExecutionMode}
    (done : proposalRow project outside state value mode = .ok row) :
    row.data.history = [] ∧ Written project outside state row.data.nodeId row.data.toDraft := by
  simp only [proposalRow, bind_ok, pure_ok, reject_ok, requireRow_ok, Bool.or_eq_false_iff, decide_eq_false_iff_not, not_not] at done
  obtain ⟨node, found, graph, _, _, ⟨_, living⟩, _, version, _, _, content, captured, above, walked, rfl⟩ := done
  obtain ⟨_, links, sources, entities⟩ := validateLinks_ok captured
  rw [← links] at sources entities
  exact ⟨rfl, ⟨node, above, found, version, living, walked, rfl⟩, sources, entities⟩

theorem Proposed.refl : Proposed project outside state state.proposals := ⟨fun found => found, fun found => .inl found⟩

variable {pid : String}

theorem Proposed.add {middle : State} {value : PlanningProposalIn} {mode : ExecutionMode}
    (proposed : Proposed project outside state middle.proposals) (nodes : middle.nodes = state.nodes) (graphs : middle.graphs = state.graphs)
    (new : pid ∉ state.proposals.keys) (done : addProposal project outside middle value mode pid = .ok next) :
    Proposed project outside state next.proposals ∧ next.nodes = state.nodes ∧ next.graphs = state.graphs := by
  simp only [addProposal, bind_ok, pure_ok] at done
  obtain ⟨row, made, rfl⟩ := done
  have absent := Dict.get?_eq_none_iff.mpr new
  obtain ⟨history, target, sources, entities⟩ := proposalRow_ok made
  refine ⟨⟨fun {other there} found => ?_, fun {other there} found => ?_⟩, nodes, graphs⟩
  · refine (Dict.get?_set_ne _ _ ?_).trans (proposed.kept found)
    rintro rfl
    simp [absent] at found
  · rw [Dict.get?_set] at found
    split at found
    · rename_i same
      cases found
      rw [nodes] at target
      exact .inr ⟨same ▸ absent, history, target, sources, entities⟩
    · exact proposed.added found

theorem generate_effect (fresh : Fresh outside state) {request : PlanningGenerateIn} (done : generate project outside state request = .ok next) :
    Proposed project outside state next.proposals ∧ next.nodes = state.nodes ∧ next.graphs = state.graphs := by
  simp only [generate, bind_ok] at done
  obtain ⟨_, _, _, _, node, _, _, _, _, _, _, _, template, _, made⟩ := done
  refine foldlM_invariant (motive := fun _ middle => Proposed project outside state middle.proposals ∧ middle.nodes = state.nodes ∧
    middle.graphs = state.graphs) (fun {before index middle next} _ earlier turned => ?_) ⟨Proposed.refl, rfl, rfl⟩ made
  obtain ⟨proposed, nodes, graphs⟩ := earlier
  obtain ⟨value, _, added⟩ := bind_ok.mp turned
  exact proposed.add nodes graphs (fresh.2 index).2.2 added

variable {nodes : Dict String (Row Node)}

theorem state_eta {graphs : Dict String (Row Graph)} (graphsSame : next.graphs = graphs)
    (nodesSame : next.nodes = nodes) : next = ⟨graphs, nodes, next.proposals⟩ := by
  cases next
  cases graphsSame
  cases nodesSame
  rfl

theorem review_effect {action : ReviewAction} {expected : Nat} (done : review project outside state pid action expected = .ok next) :
    Effect project outside state (.review pid action expected) next := by
  simp only [review, bind_ok, pure_ok, requireRow_ok, Prod.exists] at done
  obtain ⟨row, there, _, _, status, _, nodes, applied, changed, _, _, rfl⟩ := done
  cases action with
  | approve =>
    simp only [reviewedNodes, bind_ok, pure_ok, Prod.mk.injEq] at changed
    obtain ⟨node, applied, rfl, _⟩ := changed
    exact .approve there applied rfl rfl
  | reject | reopen | archive | unknown =>
    cases pure_ok.mp changed
    exact .track there rfl rfl

theorem restore_effect (faithful : Faithful state) {expected historicalVersion : Nat}
    (done : restore outside state pid expected historicalVersion = .ok next) :
    Effect project outside state (.restore pid expected historicalVersion) next := by
  simp only [restore, bind_ok, pure_ok, requireRow_ok, fetch_ok] at done
  obtain ⟨row, there, old, recalled, _, _, _, _, rfl⟩ := done
  exact .track there (faithful there old (List.mem_of_find?_eq_some recalled)) rfl

variable {call : Call}

theorem perform_effect (faithful : Faithful state) (fresh : Fresh outside state) (done : perform project outside state call = .ok next) :
    Effect project outside state call next := by
  cases call with
  | createGraph value =>
    simp only [perform, createGraph, bind_ok, pure_ok] at done
    obtain ⟨_, _, content, _, rfl⟩ := done
    exact .add (fresh.2 1).2.1 rfl
  | createNode value =>
    simp only [perform, createNode, bind_ok, pure_ok] at done
    obtain ⟨_, _, content, _, graph, _, _, _, parent, _, _, _, _, _, _, _, rfl⟩ := done
    exact .add (fresh.2 0).2.1 rfl
  | editNode nodeId value =>
    simp only [perform, editNode, bind_ok, pure_ok, requireRow_ok, advance_ok] at done
    obtain ⟨row, found, graph, _, _, _, _, _, _, _, content, _, _, ⟨_, rfl⟩, rfl⟩ := done
    exact .edit found ⟨rfl, .inl rfl⟩
  | transitionGraph graphId action expected =>
    simp only [perform, transitionGraph, bind_ok, pure_ok] at done
    obtain ⟨_, _, row, _, _, _, status, _, rfl⟩ := done
    exact .graphs
  | transitionNode nodeId action expected =>
    simp only [perform, transitionNode, bind_ok, pure_ok, requireRow_ok] at done
    obtain ⟨row, found, _, _, graph, _, _, _, _, _, status, _, rfl⟩ := done
    exact .edit found ⟨rfl, .inr ⟨rfl, rfl⟩⟩
  | createProposal value =>
    simp only [perform, createProposal, bind_ok] at done
    obtain ⟨_, _, _, _, added⟩ := done
    obtain ⟨proposed, nodes, graphs⟩ := Proposed.refl.add rfl rfl (fresh.2 0).2.2 added
    rw [state_eta graphs nodes]
    exact .propose proposed
  | generate request =>
    obtain ⟨proposed, nodes, graphs⟩ := generate_effect fresh done
    rw [state_eta graphs nodes]
    exact .propose proposed
  | review pid action expected => exact review_effect done
  | restore pid expected historicalVersion => exact restore_effect faithful done

/-- A later state: its nodes are as they were or of a higher version, and its proposals say what they said. -/
structure Later (before after : State) : Prop where
  nodes : ∀ {rid node}, before.nodes.get? rid = some node → ∃ next, after.nodes.get? rid = some next ∧ (next = node ∨ node.version < next.version)
  proposals : ∀ {pid row}, before.proposals.get? pid = some row → ∃ next, after.proposals.get? pid = some next ∧
    next.data.toDraft = row.data.toDraft ∧ next.data.nodeId = row.data.nodeId

theorem Later.refl (state : State) : Later state state := ⟨fun found => ⟨_, found, .inl rfl⟩, fun found => ⟨_, found, rfl, rfl⟩⟩

theorem Later.trans {before middle after : State} (first : Later before middle) (second : Later middle after) : Later before after where
  nodes {rid node} found := by
    obtain ⟨between, found, first⟩ := first.nodes found
    obtain ⟨next, found, second⟩ := second.nodes found
    refine ⟨next, found, ?_⟩
    rcases first with rfl | first
    · exact second
    · rcases second with rfl | second
      · exact .inr first
      · exact .inr (first.trans second)
  proposals {pid row} found := by
    obtain ⟨between, found, draft, target⟩ := first.proposals found
    obtain ⟨next, found, draft', target'⟩ := second.proposals found
    exact ⟨next, found, draft'.trans draft, target'.trans target⟩

theorem Later.same {before after : State} (later : Later before after) {rid : String} {node next : Row Node} (found : before.nodes.get? rid = some node)
    (there : after.nodes.get? rid = some next) (version : next.version ≤ node.version) : next = node := by
  obtain ⟨_, there', same⟩ := later.nodes found
  cases there.symm.trans there'
  rcases same with same | higher
  · exact same
  · omega

theorem nodes_set_later {rid other : String} {node next there : Row Node} (found : nodes.get? rid = some node)
    (higher : node.version < next.version) (stored : nodes.get? other = some there) :
    ∃ after, (nodes.set rid next).get? other = some after ∧ (after = there ∨ there.version < after.version) := by
  by_cases same : other = rid
  · subst same
    cases stored.symm.trans found
    exact ⟨next, Dict.get?_set_self .., .inr higher⟩
  · exact ⟨there, (Dict.get?_set_ne _ _ same).trans stored, .inl rfl⟩

theorem proposals_set_later {proposals : Dict String (Row Tracked)} {other : String} {there : Row Tracked} {change : Proposal → Proposal}
    (found : proposals.get? pid = some row) (draft : (change row.data.toProposal).toDraft = row.data.toDraft)
    (target : (change row.data.toProposal).nodeId = row.data.nodeId) (stored : proposals.get? other = some there) :
    ∃ after, (proposals.set pid (changeProposal row change)).get? other = some after ∧ after.data.toDraft = there.data.toDraft ∧
      after.data.nodeId = there.data.nodeId := by
  by_cases same : other = pid
  · subst same
    cases stored.symm.trans found
    exact ⟨_, Dict.get?_set_self .., draft, target⟩
  · exact ⟨there, (Dict.get?_set_ne _ _ same).trans stored, rfl, rfl⟩

theorem Effect.later (effect : Effect project outside state call next) : Later state next := by
  cases effect with
  | graphs => exact ⟨(Later.refl state).nodes, (Later.refl state).proposals⟩
  | add new plain =>
    refine ⟨fun {other there} found => ⟨there, (Dict.get?_set_ne _ _ ?_).trans found, .inl rfl⟩, (Later.refl state).proposals⟩
    rintro rfl
    exact new (Dict.mem_keys_iff.mpr ⟨there, found⟩)
  | edit found edited =>
    exact ⟨nodes_set_later found (by have := edited.version; omega), (Later.refl state).proposals⟩
  | propose proposed => exact ⟨(Later.refl state).nodes, fun found => ⟨_, proposed.kept found, rfl, rfl⟩⟩
  | approve there applied draft target =>
    obtain ⟨node, found, _, _, _, rfl⟩ := applyProposal_ok applied
    exact ⟨nodes_set_later found (Nat.lt_succ_self _), proposals_set_later there draft target⟩
  | track there draft target => exact ⟨(Later.refl state).nodes, proposals_set_later there draft target⟩

theorem Faithful.track (faithful : Faithful state) {change : Proposal → Proposal}
    (found : state.proposals.get? pid = some row) (draft : (change row.data.toProposal).toDraft = row.data.toDraft) :
    Faithful { state with nodes, proposals := state.proposals.set pid (changeProposal row change) } := by
  intro other there stored entry member
  rw [Dict.get?_set] at stored
  split at stored
  · cases stored
    refine Eq.trans ?_ draft.symm
    rcases List.mem_append.mp member with older | last
    · exact faithful found entry older
    · cases List.mem_singleton.mp last
      rfl
  · exact faithful stored entry member

theorem Effect.faithful (effect : Effect project outside state call next) (faithful : Faithful state) : Faithful next := by
  cases effect with
  | graphs | add | edit => exact faithful
  | propose proposed =>
    intro pid row found entry member
    rcases proposed.added found with old | ⟨_, empty, _⟩
    · exact faithful old entry member
    · rw [empty] at member
      cases member
  | approve there applied draft target => exact faithful.track there draft
  | track there draft target => exact faithful.track there draft

variable {event : Event}

theorem Step.effect (step : Step project state event next) (faithful : Faithful state) :
    (∃ failure, perform project event.outside state event.call = .error failure) ∧ next = state ∨
      perform project event.outside state event.call = .ok next ∧ Effect project event.outside state event.call next := by
  have result := step.result
  cases done : perform project event.outside state event.call with
  | ok after =>
    rw [done] at result
    cases result
    exact .inr ⟨rfl, perform_effect faithful step.fresh done⟩
  | error failure =>
    rw [done] at result
    exact .inl ⟨⟨failure, rfl⟩, result⟩

theorem Step.faithful (step : Step project state event next) (faithful : Faithful state) : Faithful next := by
  rcases step.effect faithful with ⟨_, rfl⟩ | ⟨_, effect⟩
  · exact faithful
  · exact effect.faithful faithful

theorem Step.later (step : Step project state event next) (faithful : Faithful state) : Later state next := by
  rcases step.effect faithful with ⟨_, rfl⟩ | ⟨_, effect⟩
  · exact Later.refl _
  · exact effect.later

end NovelStudio.Planning
