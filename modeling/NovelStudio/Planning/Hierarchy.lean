import NovelStudio.Planning.Calls

/-! The hierarchy of a planning graph: every call keeps it, and so walks to the root succeed. -/

namespace NovelStudio.Planning

open Library Experimental

variable {project : Project} {outside : Outside} {state next : State}

@[simp] theorem requireRow_ok {rows : Dict String (Row α)} {row : Row α} : requireRow rows rid = .ok row ↔ rows.get? rid = some row := by
  simp [requireRow]

theorem validateLinks_ok {fields : PlanningFields} {links : PlanningLinks} {content : Content}
    (done : validateLinks project outside fields links = .ok content) : content.fields = fields ∧ content.links = links ∧
      scopedSources project outside links.chapterIds = .ok content.sources ∧ entitySources project outside links = .ok content.entitySources := by
  simp only [validateLinks, bind_ok, pure_ok] at done
  obtain ⟨_, _, sources, captured, entities, found, rfl⟩ := done
  exact ⟨rfl, rfl, captured, found⟩

/-- A node may be below another one. -/
structure Under (node parent : Node) : Prop where
  graph : parent.graphId = node.graphId
  level : node.level.expectedParent = some parent.level
  alive : node.status ≠ .archived → parent.status ≠ .archived
  chapter : node.level = .scene → node.links.chapterIds = parent.links.chapterIds

/-- A draft of a proposal stays with the chapter of its target. -/
def Bound (nodes : Dict String (Row Node)) (nodeId : String) (draft : Draft) : Prop :=
  ∃ node, nodes.get? nodeId = some node ∧ (node.data.level.bound = true → draft.links.chapterIds = node.data.links.chapterIds)

structure Hierarchy (state : State) : Prop where
  root : ∀ {id node}, state.nodes.get? id = some node → node.data.level = .project → node.data.parentId = none ∧ node.data.status ≠ .archived ∧
    ∃ graph, state.graphs.get? node.data.graphId = some graph ∧ graph.data.rootNodeId = id
  placed : ∀ {id node}, state.nodes.get? id = some node → node.data.level ≠ .project →
    ∃ pid parent, node.data.parentId = some pid ∧ state.nodes.get? pid = some parent ∧ Under node.data parent.data
  chapter : ∀ {id node}, state.nodes.get? id = some node → node.data.level = .chapter → node.data.links.chapterIds.length = 1
  proposals : ∀ {pid row}, state.proposals.get? pid = some row → Bound state.nodes row.data.nodeId row.data.toDraft ∧
    ∀ entry ∈ row.data.history, Bound state.nodes row.data.nodeId entry.2.toDraft

theorem empty_hierarchy : Hierarchy .empty := ⟨nofun, nofun, nofun, nofun⟩

variable {id : String} {node : Row Node} {nodes : Dict String (Row Node)}

theorem get?_set_node {other : String} {there : Row Node}
    (found : (nodes.set id node).get? other = some there) : (other = id ∧ there = node) ∨ other ≠ id ∧ nodes.get? other = some there := by
  rw [Dict.get?_set] at found
  split at found
  · rename_i same
    exact .inl ⟨same, (Option.some.inj found).symm⟩
  · rename_i differs
    exact .inr ⟨differs, found⟩

/-- The place of a node in its hierarchy, which no call changes. -/
structure SamePlace (node changed : Node) : Prop where
  parent : changed.parentId = node.parentId
  graph : changed.graphId = node.graphId
  level : changed.level = node.level
  chapter : node.level.bound = true → changed.links.chapterIds = node.links.chapterIds

variable {nodeId : String}

theorem Bound.set {changed : Row Node} {draft : Draft} (bound : Bound nodes nodeId draft)
    (found : nodes.get? id = some node) (place : SamePlace node.data changed.data) : Bound (nodes.set id changed) nodeId draft := by
  obtain ⟨target, there, chapter⟩ := bound
  by_cases same : nodeId = id
  · subst same
    cases there.symm.trans found
    refine ⟨changed, Dict.get?_set_self .., fun bound => ?_⟩
    rw [place.level] at bound
    rw [chapter bound, place.chapter bound]
  · exact ⟨target, (Dict.get?_set_ne _ _ same).trans there, chapter⟩

/-- A node changes in its place. One that is archived has no children that are not, and one that is not
archived is below one that is not. -/
theorem Hierarchy.change (hierarchy : Hierarchy state) {changed : Row Node} (found : state.nodes.get? id = some node)
    (place : SamePlace node.data changed.data)
    (archived : changed.data.status = .archived → node.data.level ≠ .project ∧
      ∀ other child, state.nodes.get? other = some child → child.data.parentId = some id → child.data.status = .archived)
    (alive : changed.data.status ≠ .archived → ∀ pid parent, node.data.parentId = some pid → state.nodes.get? pid = some parent →
      parent.data.status ≠ .archived) : Hierarchy { state with nodes := state.nodes.set id changed } where
  root {other there} found' level := by
    rcases get?_set_node found' with ⟨rfl, rfl⟩ | ⟨_, found'⟩
    · rw [place.level] at level
      obtain ⟨parent, _, graph⟩ := hierarchy.root found level
      refine ⟨place.parent.trans parent, fun dead => (archived dead).1 level, ?_⟩
      rw [place.graph]
      exact graph
    · exact hierarchy.root found' level
  placed {other there} found' level := by
    have lookup : ∀ {pid parent}, state.nodes.get? pid = some parent → ∃ parent', (state.nodes.set id changed).get? pid = some parent' ∧
        ((pid = id ∧ parent = node ∧ parent' = changed) ∨ parent' = parent) := by
      intro pid parent there
      rw [Dict.get?_set]
      split
      · rename_i same
        subst same
        exact ⟨changed, rfl, .inl ⟨rfl, Option.some.inj (there.symm.trans found), rfl⟩⟩
      · exact ⟨parent, there, .inr rfl⟩
    -- The child, with whatever has become of its parent.
    have below : ∀ {child : Node} {pid parent}, child.parentId = some pid → state.nodes.get? pid = some parent → Under child parent.data →
        (child.status ≠ .archived → pid = id → changed.data.status ≠ .archived) →
        ∃ pid parent, child.parentId = some pid ∧ (state.nodes.set id changed).get? pid = some parent ∧ Under child parent.data := by
      intro child pid parent named there under survives
      obtain ⟨parent', there', same⟩ := lookup there
      refine ⟨pid, parent', named, there', ?_⟩
      rcases same with ⟨rfl, rfl, rfl⟩ | rfl
      · refine ⟨place.graph.trans under.graph, by rw [place.level]; exact under.level, fun living => survives living rfl, fun scene => ?_⟩
        rw [under.chapter scene]
        have level := under.level
        rw [scene] at level
        exact (place.chapter (by rw [← Option.some.inj level]; rfl)).symm
      · exact under
    rcases get?_set_node found' with ⟨rfl, rfl⟩ | ⟨_, found'⟩
    · rw [place.level] at level
      obtain ⟨pid, parent, named, stored, under⟩ := hierarchy.placed found level
      have moved : Under there.data parent.data := by
        refine ⟨under.graph.trans place.graph.symm, by rw [place.level]; exact under.level, fun living => alive living pid parent named stored, fun scene => ?_⟩
        rw [place.level] at scene
        rw [place.chapter (by rw [scene]; rfl), under.chapter scene]
      refine below (place.parent.trans named) stored moved fun living same => ?_
      exact living
    · obtain ⟨pid, parent, named, stored, under⟩ := hierarchy.placed found' level
      refine below named stored under fun living same dead => ?_
      exact living ((archived dead).2 other there found' (same ▸ named))
  chapter {other there} found' level := by
    rcases get?_set_node found' with ⟨rfl, rfl⟩ | ⟨_, found'⟩
    · rw [place.level] at level
      rw [place.chapter (by rw [level]; rfl)]
      exact hierarchy.chapter found level
    · exact hierarchy.chapter found' level
  proposals {pid row} there := by
    obtain ⟨bound, history⟩ := hierarchy.proposals there
    exact ⟨bound.set found place, fun entry member => (history entry member).set found place⟩

theorem Bound.add {draft : Draft} (bound : Bound nodes nodeId draft)
    (new : id ∉ nodes.keys) : Bound (nodes.set id node) nodeId draft := by
  obtain ⟨target, there, chapter⟩ := bound
  refine ⟨target, (Dict.get?_set_ne _ _ ?_).trans there, chapter⟩
  rintro rfl
  exact new (Dict.mem_keys_iff.mpr ⟨target, there⟩)

theorem Hierarchy.add (hierarchy : Hierarchy state) {graphs : Dict String (Row Graph)} (new : id ∉ state.nodes.keys)
    (kept : ∀ {gid graph}, state.graphs.get? gid = some graph → graphs.get? gid = some graph)
    (root : node.data.level = .project → node.data.parentId = none ∧ node.data.status ≠ .archived ∧
      ∃ graph, graphs.get? node.data.graphId = some graph ∧ graph.data.rootNodeId = id)
    (placed : node.data.level ≠ .project →
      ∃ pid parent, node.data.parentId = some pid ∧ state.nodes.get? pid = some parent ∧ Under node.data parent.data)
    (chapter : node.data.level = .chapter → node.data.links.chapterIds.length = 1) :
    Hierarchy { state with graphs, nodes := state.nodes.set id node } where
  root {other there} found level := by
    rcases get?_set_node found with ⟨rfl, rfl⟩ | ⟨_, found⟩
    · exact root level
    · obtain ⟨none, living, graph, there, rooted⟩ := hierarchy.root found level
      exact ⟨none, living, graph, kept there, rooted⟩
  placed {other there} found level := by
    have stays : ∀ {pid parent}, state.nodes.get? pid = some parent → (state.nodes.set id node).get? pid = some parent := by
      intro pid parent stored
      refine (Dict.get?_set_ne _ _ ?_).trans stored
      rintro rfl
      exact new (Dict.mem_keys_iff.mpr ⟨parent, stored⟩)
    have below : ∃ pid parent, there.data.parentId = some pid ∧ state.nodes.get? pid = some parent ∧ Under there.data parent.data := by
      rcases get?_set_node found with ⟨rfl, rfl⟩ | ⟨_, found⟩
      · exact placed level
      · exact hierarchy.placed found level
    obtain ⟨pid, parent, named, stored, under⟩ := below
    exact ⟨pid, parent, named, stays stored, under⟩
  chapter {other there} found level := by
    rcases get?_set_node found with ⟨rfl, rfl⟩ | ⟨_, found⟩
    · exact chapter level
    · exact hierarchy.chapter found level
  proposals {pid row} there := by
    obtain ⟨bound, history⟩ := hierarchy.proposals there
    exact ⟨bound.add new, fun entry member => (history entry member).add new⟩

theorem Hierarchy.graphs (hierarchy : Hierarchy state) {graphs : Dict String (Row Graph)}
    (kept : ∀ {gid graph}, state.graphs.get? gid = some graph → ∃ next, graphs.get? gid = some next ∧ next.data.rootNodeId = graph.data.rootNodeId) :
    Hierarchy { state with graphs } where
  root found level := by
    obtain ⟨none, living, graph, there, rooted⟩ := hierarchy.root found level
    obtain ⟨next, there', same⟩ := kept there
    exact ⟨none, living, next, there', same.trans rooted⟩
  placed := hierarchy.placed
  chapter := hierarchy.chapter
  proposals := hierarchy.proposals

variable {pid : String} {row : Row Tracked}

theorem Hierarchy.propose (hierarchy : Hierarchy state) (bound : Bound state.nodes row.data.nodeId row.data.toDraft)
    (history : ∀ entry ∈ row.data.history, Bound state.nodes row.data.nodeId entry.2.toDraft) :
    Hierarchy { state with proposals := state.proposals.set pid row } where
  root := hierarchy.root
  placed := hierarchy.placed
  chapter := hierarchy.chapter
  proposals {other there} found := by
    rw [Dict.get?_set] at found
    split at found
    · cases found
      exact ⟨bound, history⟩
    · exact hierarchy.proposals found

theorem createGraph_hierarchy (hierarchy : Hierarchy state) (fresh : Fresh outside state) {value : PlanningGraphIn}
    (done : createGraph project outside state value = .ok next) : Hierarchy next := by
  simp only [createGraph, bind_ok, pure_ok] at done
  obtain ⟨_, _, content, captured, rfl⟩ := done
  refine hierarchy.add (fresh.2 1).2.1 (fun {gid graph} found => (Dict.get?_set_ne _ _ ?_).trans found) (fun _ => ⟨rfl, nofun, _, Dict.get?_set_self .., rfl⟩)
    (fun other => (other rfl).elim) nofun
  rintro rfl
  exact (fresh.2 0).1 (Dict.mem_keys_iff.mpr ⟨graph, found⟩)

theorem createNode_hierarchy (hierarchy : Hierarchy state) (fresh : Fresh outside state) {value : PlanningNodeIn}
    (done : createNode project outside state value = .ok next) : Hierarchy next := by
  simp only [createNode, bind_ok, pure_ok, reject_ok, requireRow_ok, Bool.or_eq_false_iff, decide_eq_false_iff_not] at done
  obtain ⟨_, _, content, captured, graph, _, _, _, parent, there, _, ⟨⟨same, level⟩, living⟩, _, one, _, scene, rfl⟩ := done
  obtain ⟨_, links, _, _⟩ := validateLinks_ok captured
  have child : value.level.level ≠ .project := by cases value.level <;> nofun
  refine hierarchy.add (fresh.2 0).2.1 (fun found => found) (fun project => (child project).elim) (fun _ => ?_) (fun chapter => ?_)
  · refine ⟨value.parentId, parent, rfl, there, ⟨not_not.mp same, not_not.mp level, fun _ => living, fun isScene => ?_⟩⟩
    have isScene : value.level.level = .scene := isScene
    simp only [isScene, decide_true, Bool.true_and, decide_eq_false_iff_not, not_not] at scene
    exact (congrArg PlanningLinks.chapterIds links).trans scene
  · have chapter : value.level.level = .chapter := chapter
    simp only [chapter, decide_true, Bool.true_and, decide_eq_false_iff_not, not_not] at one
    exact (congrArg (fun links => links.chapterIds.length) links).trans one

theorem Hierarchy.parent_alive (hierarchy : Hierarchy state) {parent : Row Node} (found : state.nodes.get? id = some node)
    (living : node.data.status ≠ .archived) (named : node.data.parentId = some pid) (stored : state.nodes.get? pid = some parent) :
    parent.data.status ≠ .archived := by
  by_cases level : node.data.level = .project
  · obtain ⟨none, _⟩ := hierarchy.root found level
    simp [none] at named
  · obtain ⟨_, _, named', stored', under⟩ := hierarchy.placed found level
    cases named.symm.trans named'
    cases stored.symm.trans stored'
    exact under.alive living

theorem editNode_hierarchy (hierarchy : Hierarchy state) {value : PlanningNodeEditIn}
    (done : editNode project outside state nodeId value = .ok next) : Hierarchy next := by
  simp only [editNode, bind_ok, pure_ok, reject_ok, requireRow_ok, Bool.or_eq_false_iff, decide_eq_false_iff_not, advance_ok] at done
  obtain ⟨row, found, graph, _, _, ⟨living, _⟩, _, _, _, kept, content, captured, _, ⟨_, rfl⟩, rfl⟩ := done
  obtain ⟨_, links, _, _⟩ := validateLinks_ok captured
  refine hierarchy.change found ⟨rfl, rfl, rfl, fun bound => ?_⟩ (by rintro ⟨⟩) fun _ pid parent named stored => hierarchy.parent_alive found living named stored
  simp only [bound, Bool.and_true, decide_eq_false_iff_not, not_not] at kept
  exact (congrArg PlanningLinks.chapterIds links).trans kept.symm

variable {action : Transition} {expected : Nat}

theorem transitionGraph_hierarchy (hierarchy : Hierarchy state) {graphId : String}
    (done : transitionGraph outside state graphId action expected = .ok next) : Hierarchy next := by
  simp only [transitionGraph, bind_ok, pure_ok, requireRow_ok] at done
  obtain ⟨_, _, row, found, _, _, status, _, rfl⟩ := done
  refine hierarchy.graphs fun {gid graph} there => ?_
  by_cases same : gid = graphId
  · subst same
    cases there.symm.trans found
    exact ⟨_, Dict.get?_set_self .., rfl⟩
  · exact ⟨graph, (Dict.get?_set_ne _ _ same).trans there, rfl⟩

/-- A transition archives a node without living children, or brings one back below a living parent. -/
theorem transitionStatus_ok {node : Node} {status : NodeStatus}
    (done : transitionStatus state nodeId node action = .ok status) :
    (status = .archived ∧ ∀ other child, state.nodes.get? other = some child → child.data.parentId = some nodeId → child.data.status = .archived) ∨
      status = .draft ∧ ∃ pid parent, node.parentId = some pid ∧ state.nodes.get? pid = some parent ∧ parent.data.status ≠ .archived := by
  cases action with
  | archive =>
    simp only [transitionStatus, bind_ok, pure_ok, reject_ok] at done
    obtain ⟨_, _, _, none, rfl⟩ := done
    refine .inl ⟨rfl, fun other child there named => ?_⟩
    have passes := List.any_eq_false.mp none child (Dict.mem_values_iff.mpr ⟨other, there⟩)
    simpa [named] using passes
  | restore =>
    simp only [transitionStatus, bind_ok, pure_ok, reject_ok, fetch_ok, requireRow_ok, decide_eq_false_iff_not] at done
    obtain ⟨_, _, pid, named, parent, stored, _, living, rfl⟩ := done
    exact .inr ⟨rfl, pid, parent, named, stored, living⟩
  | unknown => cases done

theorem transitionNode_hierarchy (hierarchy : Hierarchy state)
    (done : transitionNode state nodeId action expected = .ok next) : Hierarchy next := by
  simp only [transitionNode, bind_ok, pure_ok, reject_ok, requireRow_ok, decide_eq_false_iff_not] at done
  obtain ⟨row, found, _, level, graph, _, _, _, _, _, status, moved, rfl⟩ := done
  have place : SamePlace row.data (bump row fun node => { node with status }).data := ⟨rfl, rfl, rfl, fun _ => rfl⟩
  rcases transitionStatus_ok moved with ⟨rfl, childless⟩ | ⟨rfl, pid, parent, named, stored, living⟩
  · exact hierarchy.change found place (fun _ => ⟨level, childless⟩) fun living => (living rfl).elim
  · refine hierarchy.change found place nofun fun _ other above named' stored' => ?_
    cases named.symm.trans named'
    cases stored.symm.trans stored'
    exact living

theorem addProposal_hierarchy (hierarchy : Hierarchy state) {value : PlanningProposalIn} {mode : ExecutionMode}
    (done : addProposal project outside state value mode pid = .ok next) : Hierarchy next := by
  simp only [addProposal, proposalRow, bind_ok, pure_ok, reject_ok, requireRow_ok] at done
  obtain ⟨_, ⟨node, found, graph, _, _, _, _, _, _, kept, content, captured, above, _, rfl⟩, rfl⟩ := done
  obtain ⟨_, links, _, _⟩ := validateLinks_ok captured
  refine hierarchy.propose ⟨node, found, fun bound => ?_⟩ nofun
  simp only [bound, Bool.true_and, decide_eq_false_iff_not, not_not] at kept
  exact (congrArg PlanningLinks.chapterIds links).trans kept

theorem createProposal_hierarchy (hierarchy : Hierarchy state) {value : PlanningProposalIn}
    (done : createProposal project outside state value = .ok next) : Hierarchy next := by
  simp only [createProposal, bind_ok] at done
  obtain ⟨_, _, _, _, added⟩ := done
  exact addProposal_hierarchy hierarchy added

theorem generate_hierarchy (hierarchy : Hierarchy state) {request : PlanningGenerateIn}
    (done : generate project outside state request = .ok next) : Hierarchy next := by
  simp only [generate, bind_ok] at done
  obtain ⟨_, _, _, _, node, _, _, _, _, _, _, _, template, _, made⟩ := done
  refine foldlM_invariant (motive := fun _ state => Hierarchy state) (fun _ hierarchy turned => ?_) hierarchy made
  obtain ⟨value, _, added⟩ := bind_ok.mp turned
  exact addProposal_hierarchy hierarchy added

theorem applyProposal_ok (done : applyProposal project outside state pid row = .ok node) :
    ∃ target, state.nodes.get? row.data.nodeId = some target ∧ assertFresh project outside state row = .ok () ∧
      row.data.targetVersion = target.version ∧ target.data.status ≠ .archived ∧
      node = bump target fun node => { node with toContent := row.data.toContent, status := .approved, approvedProposalId := some pid } := by
  simp only [applyProposal, bind_ok, requireRow_ok, advance_ok] at done
  obtain ⟨graph, _, _, _, _, fresh, target, found, version, rfl⟩ := done
  refine ⟨target, found, fresh, version, ?_, rfl⟩
  simp only [assertFresh, bind_ok, requireRow_ok, reject_ok, Bool.or_eq_false_iff, decide_eq_false_iff_not] at fresh
  obtain ⟨_, _, _, _, _, _, _, _, node, found', _, _, _, _, _, _, _, _, _, living⟩ := fresh
  cases found.symm.trans found'
  exact living

theorem reviewedNodes_hierarchy (hierarchy : Hierarchy state) {action : ReviewAction}
    {applied : Option Nat} (there : state.proposals.get? pid = some row)
    (done : reviewedNodes project outside state pid row action = .ok (nodes, applied)) : Hierarchy { state with nodes } := by
  cases action with
  | approve =>
    simp only [reviewedNodes, bind_ok, pure_ok, Prod.mk.injEq] at done
    obtain ⟨node, changed, rfl, _⟩ := done
    obtain ⟨target, found, _, _, living, rfl⟩ := applyProposal_ok changed
    refine hierarchy.change found ⟨rfl, rfl, rfl, fun bound => ?_⟩ nofun fun _ pid parent named stored => hierarchy.parent_alive found living named stored
    obtain ⟨⟨target', found', chapter⟩, _⟩ := hierarchy.proposals there
    cases found.symm.trans found'
    exact chapter bound
  | reject | reopen | archive | unknown =>
    cases pure_ok.mp done
    exact hierarchy

theorem review_hierarchy (hierarchy : Hierarchy state) {action : ReviewAction}
    (done : review project outside state pid action expected = .ok next) : Hierarchy next := by
  simp only [review, bind_ok, pure_ok, requireRow_ok, Prod.exists] at done
  obtain ⟨row, there, _, _, status, _, nodes, applied, changed, _, _, rfl⟩ := done
  have moved := reviewedNodes_hierarchy hierarchy there changed
  obtain ⟨bound, history⟩ := moved.proposals there
  refine moved.propose bound fun entry member => ?_
  rcases List.mem_append.mp member with older | last
  · exact history entry older
  · cases List.mem_singleton.mp last
    exact bound

theorem restore_hierarchy (hierarchy : Hierarchy state) {historicalVersion : Nat}
    (done : restore outside state pid expected historicalVersion = .ok next) : Hierarchy next := by
  simp only [restore, bind_ok, pure_ok, requireRow_ok, fetch_ok] at done
  obtain ⟨row, there, old, recalled, _, _, _, _, rfl⟩ := done
  obtain ⟨bound, history⟩ := hierarchy.proposals there
  refine hierarchy.propose (history old (List.mem_of_find?_eq_some recalled)) fun entry member => ?_
  rcases List.mem_append.mp member with older | last
  · exact history entry older
  · cases List.mem_singleton.mp last
    exact bound

theorem perform_hierarchy (hierarchy : Hierarchy state) (fresh : Fresh outside state) {call : Call}
    (done : perform project outside state call = .ok next) : Hierarchy next := by
  cases call with
  | createGraph value => exact createGraph_hierarchy hierarchy fresh done
  | createNode value => exact createNode_hierarchy hierarchy fresh done
  | editNode nodeId value => exact editNode_hierarchy hierarchy done
  | transitionGraph graphId action expected => exact transitionGraph_hierarchy hierarchy done
  | transitionNode nodeId action expected => exact transitionNode_hierarchy hierarchy done
  | createProposal value => exact createProposal_hierarchy hierarchy done
  | generate request => exact generate_hierarchy hierarchy done
  | review pid action expected => exact review_hierarchy hierarchy done
  | restore pid expected historicalVersion => exact restore_hierarchy hierarchy done

theorem Step.hierarchy {event : Event} (step : Step project state event next) (hierarchy : Hierarchy state) : Hierarchy next := by
  rw [step.result]
  cases done : perform project event.outside state event.call with
  | ok next => exact perform_hierarchy hierarchy step.fresh done
  | error => exact hierarchy

end NovelStudio.Planning
