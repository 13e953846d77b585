import NovelStudio.Planning.Effects

/-! What an approval relies on: a proposal is approved once at most, and only while everything that
it was written against is as it was then. -/

namespace NovelStudio.Planning

open Library Experimental

variable {project : Project} {outside : Outside} {state next : State}

/-- The event approves a proposal, and does not fail. -/
def Event.Approves (project : Project) (event : Event) (pid : String) : Prop :=
  (∃ expected, event.call = .review pid .approve expected) ∧ perform project event.outside event.before event.call = .ok event.after

/-- What a proposal was written against at its origin is there, unchanged, when it is approved. -/
structure Unchanged (project : Project) (origin : Event) (between : List Event) (approval : Event) (nodeId : String) (draft : Draft) : Prop where
  nodes : ∃ node above, node.version = draft.targetVersion ∧ ancestors origin.before.nodes nodeId node.data = .ok above ∧
    ancestors approval.before.nodes nodeId node.data = .ok above ∧
    ∀ entry ∈ (nodeId, node) :: above, origin.before.nodes.get? entry.1 = some entry.2 ∧
      approval.before.nodes.get? entry.1 = some entry.2 ∧ ∀ event ∈ between, event.after.nodes.get? entry.1 = some entry.2
  chapters : ∀ cid ∈ draft.links.chapterIds, ∃ stamp, (origin.outside.chapter cid).map Chapter.stamp = some stamp ∧
    (approval.outside.chapter cid).map Chapter.stamp = some stamp
  entities : ∃ captured found, entitySources project origin.outside draft.links = .ok captured ∧
    entitySources project approval.outside draft.links = .ok found ∧ ∀ key, found.get? key = captured.get? key

/-- The event in which a proposal was made. -/
structure Origin (project : Project) (origin : Event) (pid nodeId : String) (draft : Draft) : Prop where
  new : origin.before.proposals.get? pid = none
  made : ∃ row, origin.after.proposals.get? pid = some row ∧ row.data.nodeId = nodeId ∧ row.data.toDraft = draft
  nodes : origin.after.nodes = origin.before.nodes
  written : Written project origin.outside origin.before nodeId draft

/-- The proposals of a state have their origins among the events. -/
def Known (project : Project) (events : List Event) (state : State) : Prop :=
  ∀ ⦃pid row⦄, state.proposals.get? pid = some row → ∃ first origin between, events = first ++ origin :: between ∧
    Origin project origin pid row.data.nodeId row.data.toDraft

/-- A node that carries the id of a proposal holds what the proposal said when it was approved. -/
def Carried (project : Project) (events : List Event) (state : State) : Prop :=
  ∀ ⦃rid node pid⦄, state.nodes.get? rid = some node → node.data.approvedProposalId = some pid →
    ∃ approval ∈ events, approval.Approves project pid ∧ ∃ row, approval.before.proposals.get? pid = some row ∧ row.data.nodeId = rid ∧
      node.data.toContent = row.data.toContent

variable {events : List Event} {final start : State}

theorem run_faithful (run : Run (Step project) start events final) (faithful : Faithful start) :
    Faithful final :=
  run.invariant (motive := Faithful) faithful fun faithful step => step.faithful faithful

theorem run_later (run : Run (Step project) start events final) (faithful : Faithful start) :
    Later start final :=
  (run.strengthen (motive := Faithful) faithful fun faithful step => step.faithful faithful).related Later.refl Later.trans
    fun step => step.2.later step.1

theorem empty_faithful : Faithful .empty := nofun

theorem run_hierarchy (run : Run (Step project) .empty events state) : Hierarchy state :=
  run.invariant empty_hierarchy fun hierarchy step => step.hierarchy hierarchy

variable {event : Event}

theorem Step.known (step : Step project state event next) (faithful : Faithful state)
    (known : Known project events state) : Known project (events ++ [event]) next := by
  have earlier : ∀ {pid nodeId draft}, (∃ first origin between, events = first ++ origin :: between ∧ Origin project origin pid nodeId draft) →
      ∃ first origin between, events ++ [event] = first ++ origin :: between ∧ Origin project origin pid nodeId draft := by
    rintro pid nodeId draft ⟨first, origin, between, rfl, made⟩
    exact ⟨first, origin, between ++ [event], by simp, made⟩
  have track : ∀ {pid there change other row}, state.proposals.get? pid = some there →
      (change there.data.toProposal).toDraft = there.data.toDraft → (change there.data.toProposal).nodeId = there.data.nodeId →
      (state.proposals.set pid (changeProposal there change)).get? other = some row →
      ∃ first origin between, events ++ [event] = first ++ origin :: between ∧ Origin project origin other row.data.nodeId row.data.toDraft := by
    intro pid there change other row found draft target stored
    rw [Dict.get?_set] at stored
    split at stored
    · rename_i same
      subst same
      cases stored
      have origin := earlier (known found)
      rwa [← draft, ← target] at origin
    · exact earlier (known stored)
  rcases step.effect faithful with ⟨_, rfl⟩ | ⟨_, effect⟩
  · exact fun _ _ found => earlier (known found)
  · generalize event.call = call at effect
    have before := step.before
    have after := step.after
    cases effect with
    | graphs | add | edit => exact fun _ _ found => earlier (known found)
    | propose proposed =>
      intro pid row found
      rcases proposed.added found with old | ⟨new, _, written⟩
      · exact earlier (known old)
      · refine ⟨events, event, [], rfl, ?_, ⟨row, ?_, rfl, rfl⟩, ?_, ?_⟩
        · rw [before]
          exact new
        · rw [after]
          exact found
        · rw [before, after]
        · rw [before]
          exact written
    | approve there applied draft target => exact fun _ _ found => track there draft target found
    | track there draft target => exact fun _ _ found => track there draft target found

theorem Step.carried (step : Step project state event next) (faithful : Faithful state)
    (carried : Carried project events state) : Carried project (events ++ [event]) next := by
  have earlier : ∀ ⦃rid node pid⦄, state.nodes.get? rid = some node → node.data.approvedProposalId = some pid →
      ∃ approval ∈ events ++ [event], approval.Approves project pid ∧ ∃ row, approval.before.proposals.get? pid = some row ∧ row.data.nodeId = rid ∧
        node.data.toContent = row.data.toContent := by
    intro rid node pid found approved
    obtain ⟨approval, member, holds⟩ := carried found approved
    exact ⟨approval, List.mem_append_left _ member, holds⟩
  rcases step.effect faithful with ⟨_, rfl⟩ | ⟨done, effect⟩
  · exact earlier
  · generalize called : event.call = call at effect
    have before := step.before
    have after := step.after
    cases effect with
    | graphs | propose | track => exact earlier
    | add new plain =>
      intro rid node pid found approved
      rcases get?_set_node found with ⟨rfl, rfl⟩ | ⟨_, found⟩
      · simp [plain] at approved
      · exact earlier found approved
    | edit found edited =>
      intro rid node pid stored approved
      rcases get?_set_node stored with ⟨rfl, rfl⟩ | ⟨_, stored⟩
      · rcases edited.approval with none | ⟨same, content⟩
        · simp [none] at approved
        · rw [content]
          exact earlier found (same.symm.trans approved)
      · exact earlier stored approved
    | @approve pid row _ _ expected there applied draft target =>
      intro rid node other stored approved
      rcases get?_set_node stored with ⟨rfl, rfl⟩ | ⟨_, stored⟩
      · obtain ⟨_, _, _, _, _, rfl⟩ := applyProposal_ok applied
        cases Option.some.inj approved
        refine ⟨event, by simp, ⟨⟨expected, called⟩, ?_⟩, row, ?_, rfl, rfl⟩
        · rw [before, after]
          exact done
        · rw [before]
          exact there
      · exact earlier stored approved

theorem run_known (run : Run (Step project) .empty events state) : Known project events state :=
  run.history (motive := fun events state => Known project events state) nofun fun earlier known step =>
    step.known (run_faithful earlier empty_faithful) known

theorem run_carried (run : Run (Step project) .empty events state) : Carried project events state :=
  run.history (motive := fun events state => Carried project events state) nofun fun earlier carried step =>
    step.carried (run_faithful earlier empty_faithful) carried

theorem assertFresh_ok {row : Row Tracked} (done : assertFresh project outside state row = .ok ()) :
    assertSources project outside row.data.sources = .ok () ∧
      (∃ found, entitySources project outside row.data.links = .ok found ∧ ∀ key, found.get? key = row.data.entitySources.get? key) ∧
      ∃ node above, state.nodes.get? row.data.nodeId = some node ∧ ancestors state.nodes row.data.nodeId node.data = .ok above ∧
        (∀ key, (versions above).get? key = row.data.ancestorVersions.get? key) ∧ node.version = row.data.targetVersion ∧
        node.data.status ≠ .archived := by
  simp only [assertFresh, bind_ok, mapError_ok, requireRow_ok, reject_ok, Bool.or_eq_false_iff, decide_eq_false_iff_not, not_not,
    Bool.not_eq_false', Dict.agrees_iff] at done
  obtain ⟨_, sources, _, _, found, captured, _, same, node, there, graph, _, _, _, above, walked, _, ancestors, version, living⟩ := done
  exact ⟨sources, ⟨found, captured, same⟩, node, above, there, walked, ancestors, version, living⟩

variable {above : List (String × Row Node)} {node : Row Node} {nodes : Dict String (Row Node)}

theorem ParentChain.stored (chain : ParentChain nodes node above) :
    ∀ entry ∈ above, nodes.get? entry.1 = some entry.2 := by
  induction chain with
  | top => exact nofun
  | child named stored chain ih =>
    intro entry member
    rcases List.mem_append.mp member with higher | last
    · exact ih entry higher
    · cases List.mem_singleton.mp last
      exact stored

theorem ParentChain.moved {other : Dict String (Row Node)}
    (chain : ParentChain nodes node above) (stored : ∀ entry ∈ above, other.get? entry.1 = some entry.2) : ParentChain other node above := by
  induction chain with
  | top none => exact .top none
  | child named there chain ih =>
    exact .child named (stored _ (List.mem_append_right _ (List.mem_singleton_self _))) (ih fun entry member => stored entry (List.mem_append_left _ member))

variable {rid : String}

theorem Hierarchy.walked (hierarchy : Hierarchy state)
    (found : state.nodes.get? rid = some node) (living : node.data.status ≠ .archived) (walked : ancestors state.nodes rid node.data = .ok above) :
    ParentChain state.nodes node above := by
  obtain ⟨above', placed⟩ := hierarchy.exists_placed found
  cases walked.symm.trans (ancestors_chain hierarchy found placed.chain living)
  exact placed.chain

theorem version_of_mem (stored : ∀ entry ∈ above, nodes.get? entry.1 = some entry.2)
    {version : Nat} (found : (versions above).get? rid = some version) :
    ∃ node, nodes.get? rid = some node ∧ node.version = version := by
  obtain ⟨entry, member, same⟩ := List.mem_map.mp (Dict.mem_of_get?_ofList found)
  cases same
  exact ⟨entry.2, stored entry member, rfl⟩

theorem same_ancestors {before after : State} (later : Later before after) {above' : List (String × Row Node)}
    (there : ∀ entry ∈ above, before.nodes.get? entry.1 = some entry.2) (here : ∀ entry ∈ above', after.nodes.get? entry.1 = some entry.2)
    (agree : ∀ key, (versions above').get? key = (versions above).get? key) : ∀ entry ∈ above, after.nodes.get? entry.1 = some entry.2 := by
  intro entry member
  have named : entry.1 ∈ (above.map fun row => (row.1, row.2.version)).map Prod.fst :=
    List.mem_map.mpr ⟨_, List.mem_map.mpr ⟨entry, member, rfl⟩, rfl⟩
  obtain ⟨version, found⟩ := Dict.exists_get?_ofList named
  obtain ⟨node, stored, higher⟩ := version_of_mem there found
  obtain ⟨next, stored', same⟩ := version_of_mem here ((agree entry.1).trans found)
  cases stored.symm.trans (there entry member)
  rw [← later.same (there entry member) stored' (by omega)]
  exact stored'

theorem same_between (run : Run (Step project) start events final) (faithful : Faithful start)
    (found : start.nodes.get? rid = some node) (there : final.nodes.get? rid = some node) :
    ∀ event ∈ events, event.after.nodes.get? rid = some node := by
  intro event member
  obtain ⟨earlier, rest, rfl⟩ := List.append_of_mem member
  obtain ⟨middle, after, first, step, last⟩ := run.around rfl
  have faithfulMiddle := run_faithful first faithful
  have forward := (run_later first faithful).trans (step.later faithfulMiddle)
  obtain ⟨between, stored, higher⟩ := forward.nodes found
  obtain ⟨_, stored', higher'⟩ := (run_later last (step.faithful faithfulMiddle)).nodes stored
  cases there.symm.trans stored'
  rw [step.after, stored]
  rcases higher with rfl | higher
  · rfl
  · rcases higher' with rfl | higher'
    · omega
    · omega

theorem scopedSources_ok {cids : List String} {sources : Dict String Source} (done : scopedSources project outside cids = .ok sources) :
    ∀ cid ∈ cids, ∃ chapter, outside.chapter cid = some chapter ∧ sources.get? cid = some chapter.stamp := by
  simp only [scopedSources, bind_ok] at done
  obtain ⟨_, _, captured⟩ := done
  refine foldlM_invariant (motive := fun cids sources => ∀ cid ∈ cids, ∃ chapter, outside.chapter cid = some chapter ∧
    sources.get? cid = some chapter.stamp) (fun {before cid sources next} _ earlier turned => ?_) nofun captured
  simp only [addSource, bind_ok, fetch_ok, pure_ok] at turned
  obtain ⟨chapter, found, _, _, rfl⟩ := turned
  intro other member
  by_cases same : other = cid
  · subst same
    exact ⟨chapter, found, Dict.get?_set_self ..⟩
  · rcases List.mem_append.mp member with older | last
    · obtain ⟨chapter', found', stamped⟩ := earlier other older
      exact ⟨chapter', found', (Dict.get?_set_ne _ _ same).trans stamped⟩
    · exact (same (List.mem_singleton.mp last)).elim

theorem assertSources_ok {sources : Dict String Source} (done : assertSources project outside sources = .ok ()) {cid : String} {source : Source}
    (found : sources.get? cid = some source) : (outside.chapter cid).map Chapter.stamp = some source := by
  have checked := forM_ok done (cid, source) (Dict.get?_eq_some_iff.mp found)
  simp only [assertSource, bind_ok, fetch_ok, reject_ok, Bool.or_eq_false_iff, decide_eq_false_iff_not, not_not] at checked
  obtain ⟨chapter, there, _, stamped⟩ := checked
  rw [there, Option.map_some, stamped]

variable {pid : String}

theorem Step.approves (step : Step project state event next) (approves : event.Approves project pid) :
    ∃ row target, state.proposals.get? pid = some row ∧ state.nodes.get? row.data.nodeId = some target ∧ target.version = row.data.targetVersion ∧
      assertFresh project event.outside state row = .ok () ∧
      ∃ node, next.nodes.get? row.data.nodeId = some node ∧ target.version < node.version := by
  obtain ⟨⟨expected, called⟩, done⟩ := approves
  rw [called, step.before, step.after] at done
  simp only [perform, review, bind_ok, pure_ok, requireRow_ok, Prod.exists] at done
  obtain ⟨row, there, _, _, status, _, nodes, applied, changed, _, _, rfl⟩ := done
  simp only [reviewedNodes, bind_ok, pure_ok, Prod.mk.injEq] at changed
  obtain ⟨node, applied, rfl, _⟩ := changed
  obtain ⟨target, found, fresh, version, _, rfl⟩ := applyProposal_ok applied
  exact ⟨row, target, there, found, version.symm, fresh, _, Dict.get?_set_self .., Nat.lt_succ_self _⟩

theorem approved_unchanged {earlier : List Event} {approval : Event} (run : Run (Step project) .empty earlier state)
    (step : Step project state approval next) (approves : approval.Approves project pid) :
    ∃ row first origin between, approval.before.proposals.get? pid = some row ∧ earlier = first ++ origin :: between ∧
      Origin project origin pid row.data.nodeId row.data.toDraft ∧
      Unchanged project origin between approval row.data.nodeId row.data.toDraft := by
  obtain ⟨row, target, there, found, version, fresh, _⟩ := step.approves approves
  obtain ⟨sources, entities, target', above', found', walked', agree, _, living⟩ := assertFresh_ok fresh
  cases found.symm.trans found'
  obtain ⟨first, origin, between, rfl, made⟩ := run_known run there
  refine ⟨row, first, origin, between, step.before ▸ there, rfl, made, ?_⟩
  obtain ⟨start, middle, toOrigin, originStep, toApproval⟩ := run.around rfl
  have faithful := originStep.faithful (run_faithful toOrigin empty_faithful)
  have later := run_later toApproval faithful
  have nodes : middle.nodes = start.nodes := by rw [← originStep.after, ← originStep.before]; exact made.nodes
  obtain ⟨⟨node, above, stored, same, alive, walked, captured⟩, chapters, entitiesThere⟩ := made.written
  rw [originStep.before] at stored walked
  -- The target and its ancestors are still the rows that they were.
  have stored' : middle.nodes.get? row.data.nodeId = some node := nodes ▸ stored
  cases later.same stored' found (by omega)
  have chain := (run_hierarchy toOrigin).walked stored alive walked
  have chain' := (run_hierarchy run).walked found living walked'
  have kept := same_ancestors later (fun entry member => nodes ▸ chain.stored entry member) chain'.stored (by rw [← captured]; exact agree)
  refine ⟨⟨target, above, same, originStep.before ▸ walked, ?_, ?_⟩, fun cid member => ?_, ?_⟩
  · rw [step.before]
    exact ancestors_chain (run_hierarchy run) found (chain.moved kept) living
  · intro entry member
    have both : start.nodes.get? entry.1 = some entry.2 ∧ state.nodes.get? entry.1 = some entry.2 := by
      rcases List.mem_cons.mp member with rfl | higher
      · exact ⟨stored, found⟩
      · exact ⟨chain.stored entry higher, kept entry higher⟩
    rw [originStep.before, step.before]
    exact ⟨both.1, both.2, same_between toApproval faithful (nodes ▸ both.1) both.2⟩
  · obtain ⟨chapter, atOrigin, stamped⟩ := scopedSources_ok chapters cid member
    exact ⟨chapter.stamp, by rw [atOrigin]; rfl, assertSources_ok sources stamped⟩
  · obtain ⟨recaptured, atApproval, agrees⟩ := entities
    exact ⟨row.data.entitySources, recaptured, entitiesThere, atApproval, agrees⟩

theorem approved_once {approval other : Event} {between : List Event} {middle state next : State}
    (step : Step project start approval middle) (faithful : Faithful start) (approves : approval.Approves project pid)
    (run : Run (Step project) middle between state) (second : Step project state other next) : ¬ other.Approves project pid := by
  intro again
  obtain ⟨row, target, there, _, version, _, node, found, higher⟩ := step.approves approves
  obtain ⟨row', target', there', found', version', _⟩ := second.approves again
  have later := run_later run (step.faithful faithful)
  obtain ⟨_, stored, draft, nodeId⟩ := ((step.later faithful).trans later).proposals there
  cases there'.symm.trans stored
  obtain ⟨_, stored, grown⟩ := later.nodes found
  rw [nodeId] at found'
  cases found'.symm.trans stored
  have sameTarget : row'.data.targetVersion = row.data.targetVersion := congrArg Draft.targetVersion draft
  rcases grown with rfl | grown
  · omega
  · omega

/-- Whatever calls are made: a proposal is approved only while its target, the ancestors of that, and its
chapters and entities are what they were when it was made, and never a second time; a node that carries
the id of a proposal holds what the proposal said when it was approved; a call that fails changes nothing. -/
theorem reached_proposals {events : List Event} (run : Run (Step project) .empty events state) :
    (∀ {earlier approval later pid}, events = earlier ++ approval :: later → approval.Approves project pid →
      (∃ row first origin between, approval.before.proposals.get? pid = some row ∧ earlier = first ++ origin :: between ∧
        Origin project origin pid row.data.nodeId row.data.toDraft ∧
        Unchanged project origin between approval row.data.nodeId row.data.toDraft) ∧
      ∀ other ∈ later, ¬ other.Approves project pid) ∧
    Carried project events state ∧
    ∀ event ∈ events, (∃ failure, perform project event.outside event.before event.call = .error failure) → event.after = event.before := by
  refine ⟨fun {earlier approval later pid} same approves => ?_, run_carried run, fun event member fails => ?_⟩
  · obtain ⟨start, middle, before, step, after⟩ := run.around same
    refine ⟨approved_unchanged before step approves, fun other member => ?_⟩
    obtain ⟨between, rest, rfl⟩ := List.append_of_mem member
    obtain ⟨_, _, towards, second, _⟩ := after.around rfl
    exact approved_once step (run_faithful before empty_faithful) approves towards second
  · obtain ⟨earlier, rest, rfl⟩ := List.append_of_mem member
    obtain ⟨start, next, before, step, _⟩ := run.around rfl
    obtain ⟨failure, fails⟩ := fails
    have result := step.result
    rw [step.before] at fails
    rw [fails] at result
    rw [step.before, step.after]
    exact result

def sampleProposal : Char × Call := ('b', .createProposal ⟨⟨"title", sampleFields, sampleLinks ["c1"]⟩, "ax", 1, "", none⟩)

/-- A proposal to change the root of a graph is approved. -/
theorem reached_proposals_sample : ∃ approval row origin between, approval.Approves sampleProject "b" ∧
    approval.before.proposals.get? "b" = some row ∧ Unchanged sampleProject origin between approval row.data.nodeId row.data.toDraft := by
  have ends : (execute attempt .empty [sampleGraph, sampleProposal]).any (fun reached => unused reached.2 'c' &&
      endsWith (fun _ => true) (perform sampleProject (sampleOutside 'c') reached.2 (.review "b" .approve 1))) = true := by
    decide +kernel
  obtain ⟨⟨events, state⟩, executed, passes⟩ := Option.any_eq_true _ _ |>.mp ends
  obtain ⟨fresh, approved⟩ := Bool.and_eq_true _ _ |>.mp passes
  obtain ⟨next, done, _⟩ := ok_of_endsWith _ _ approved
  have step : Step sampleProject state ⟨sampleOutside 'c', .review "b" .approve 1, state, next⟩ next :=
    ⟨rfl, rfl, fresh_of_unused fresh, by rw [done]; rfl⟩
  have approves : Event.Approves sampleProject ⟨sampleOutside 'c', .review "b" .approve 1, state, next⟩ "b" := ⟨⟨1, rfl⟩, done⟩
  have run : Run (Step sampleProject) .empty events state := Run.of_execute step_of_attempt _ executed
  obtain ⟨⟨row, _, origin, between, there, _, _, unchanged⟩, _⟩ := (reached_proposals (run.snoc step)).1 rfl approves
  exact ⟨_, row, origin, between, approves, there, unchanged⟩

end NovelStudio.Planning
