import NovelStudio.Library.Transition
import NovelStudio.Workflow.Run

/-! A run works through the topological order from the front: what has succeeded is
a prefix of it, and only the node after that prefix can be in hand. -/

namespace NovelStudio.Workflow

open Library

variable {Value : Type}

def statusOf (states : NodeStates Value) (nodeId : String) : Option NodeStatus :=
  (states.get? nodeId).map NodeState.status

theorem statusOf_set (states : NodeStates Value) (nodeId other : String) (state : NodeState Value) :
    statusOf (states.set nodeId state) other = if other = nodeId then some state.status else statusOf states other := by
  unfold statusOf
  rw [Dict.get?_set]
  split <;> rfl

theorem statusOf_skip (states : NodeStates Value) (error : Option NodeError) (nodeId : String) :
    statusOf (states.mapValues fun _ state => state.skip error) nodeId =
      (statusOf states nodeId).map fun status => if status = .pending then .skipped else status := by
  unfold statusOf
  rw [Dict.get?_mapValues]
  cases states.get? nodeId with
  | none => rfl
  | some state =>
    simp only [Option.map_some, NodeState.skip]
    split <;> rfl

/-- The order falls into the nodes that have succeeded and the others, of which only
the first can be in hand. -/
structure Split (order : List String) (states : NodeStates Value) (done rest : List String) : Prop where
  whole : order = done ++ rest
  finished : ∀ {nodeId}, nodeId ∈ done → statusOf states nodeId = some .succeeded
  unfinished : ∀ {nodeId}, nodeId ∈ rest → statusOf states nodeId ≠ some .succeeded
  idle : ∀ {nodeId status}, nodeId ∈ rest.tail → statusOf states nodeId = some status → status.active = false
  known : ∀ {nodeId status}, statusOf states nodeId = some status → nodeId ∈ order

namespace Split

variable {order : List String} {states : NodeStates Value}

theorem succeeded_iff (split : Split order states done rest) :
    statusOf states nodeId = some .succeeded ↔ nodeId ∈ done := by
  constructor
  · intro succeeded
    have member := split.known succeeded
    rw [split.whole, List.mem_append] at member
    rcases member with finished | waiting
    · exact finished
    · exact absurd succeeded (split.unfinished waiting)
  · exact split.finished

theorem head_of_active (split : Split order states done rest)
    (found : statusOf states nodeId = some status) (active : status.active = true) :
    ∃ more, rest = nodeId :: more := by
  have member := split.known found
  rw [split.whole, List.mem_append] at member
  rcases member with finished | waiting
  · rw [split.finished finished] at found
    cases found
    cases active
  · cases rest with
    | nil => cases waiting
    | cons first more =>
      rcases List.mem_cons.mp waiting with rfl | later
      · exact ⟨more, rfl⟩
      · rw [split.idle later found] at active
        cases active

theorem disjoint (distinct : order.Nodup)
    (split : Split order states done (nodeId :: rest)) : nodeId ∉ done ∧ nodeId ∉ rest := by
  rw [split.whole, List.nodup_append] at distinct
  obtain ⟨_, restDistinct, apart⟩ := distinct
  exact ⟨fun member => apart nodeId member nodeId (List.mem_cons_self ..) rfl, (List.nodup_cons.mp restDistinct).1⟩

theorem set_head {state : NodeState Value}
    (distinct : order.Nodup) (split : Split order states done (nodeId :: rest)) (open' : state.status ≠ .succeeded) :
    Split order (states.set nodeId state) done (nodeId :: rest) := by
  obtain ⟨notDone, notRest⟩ := split.disjoint distinct
  refine ⟨split.whole, ?_, ?_, ?_, ?_⟩
  · intro other member
    rw [statusOf_set, if_neg (ne_of_mem_of_not_mem member notDone)]
    exact split.finished member
  · intro other member
    rw [statusOf_set]
    split_ifs with same
    · simpa using open'
    · exact split.unfinished member
  · intro other status member
    rw [statusOf_set, if_neg (ne_of_mem_of_not_mem member notRest)]
    exact split.idle member
  · intro other status found
    rw [statusOf_set] at found
    split_ifs at found with same
    · rw [split.whole, same]
      simp
    · exact split.known found

theorem finish {state : NodeState Value}
    (distinct : order.Nodup) (split : Split order states done (nodeId :: rest)) (succeeded : state.status = .succeeded) :
    Split order (states.set nodeId state) (done ++ [nodeId]) rest := by
  obtain ⟨notDone, notRest⟩ := split.disjoint distinct
  refine ⟨by simp [split.whole], ?_, ?_, ?_, ?_⟩
  · intro other member
    rw [statusOf_set]
    split_ifs with same
    · rw [succeeded]
    · exact split.finished (by simpa [same] using member)
  · intro other member
    rw [statusOf_set, if_neg (ne_of_mem_of_not_mem member notRest)]
    exact split.unfinished (List.mem_cons_of_mem _ member)
  · intro other status member
    have later := List.mem_of_mem_tail member
    rw [statusOf_set, if_neg (ne_of_mem_of_not_mem later notRest)]
    exact split.idle later
  · intro other status found
    rw [statusOf_set] at found
    split_ifs at found with same
    · rw [split.whole, same]
      simp
    · exact split.known found

theorem skip (split : Split order states done rest)
    (error : Option NodeError) : Split order (states.mapValues fun _ state => state.skip error) done rest := by
  refine ⟨split.whole, ?_, ?_, ?_, ?_⟩ <;> intro other
  · intro member
    rw [statusOf_skip, split.finished member]
    rfl
  · intro member succeeded
    rw [statusOf_skip, Option.map_eq_some_iff] at succeeded
    obtain ⟨status, found, same⟩ := succeeded
    split_ifs at same
    exact split.unfinished member (same ▸ found)
  · intro status member found
    rw [statusOf_skip, Option.map_eq_some_iff] at found
    obtain ⟨before, found, same⟩ := found
    split_ifs at same
    · rw [← same]
      rfl
    · exact same ▸ split.idle member found
  · intro status found
    rw [statusOf_skip, Option.map_eq_some_iff] at found
    obtain ⟨before, found, _⟩ := found
    exact split.known found

end Split

theorem Definition.order_spec (definition : Definition Value) :
    definition.topologicalOrder.Perm (definition.nodes.map Node.id) ∧ definition.topologicalOrder.Nodup ∧
      Respects definition.edges definition.topologicalOrder := by
  obtain ⟨distinct, perm, respects, _⟩ := workflowOrder_spec definition.accepted
  exact ⟨perm, perm.nodup_iff.mpr distinct, respects⟩

theorem Definition.mem_incoming {definition : Definition Value} :
    source ∈ definition.incoming nodeId ↔ (source, nodeId) ∈ definition.edges := by
  simp [incoming]

namespace Run

/-- The loop keeps the split: it starts where the order is behind it, and whatever
it leaves behind has succeeded. -/
theorem walk_split {host : Host Value} {run : Run Value} {status : RunStatus} (states : NodeStates Value)
    (visited skipped : List String)
    (order : run.definition.topologicalOrder = visited ++ remaining)
    (split : Split run.definition.topologicalOrder states done rest) (passed : done = visited ++ skipped)
    (walked : walk host run remaining states = .ok (final, status)) :
    ∃ done' rest', Split run.definition.topologicalOrder final done' rest' ∧ done <+: done' ∧
      (status = .succeeded → rest' = []) := by
  obtain ⟨_, distinct, respects⟩ := run.definition.order_spec
  induction remaining generalizing visited states done rest skipped with
  | nil =>
    simp only [walk, Except.ok.injEq, Prod.mk.injEq] at walked
    obtain ⟨rfl, _⟩ := walked
    refine ⟨done, rest, split, List.prefix_rfl, fun _ => ?_⟩
    have both := order.symm.trans split.whole
    rw [passed, List.append_nil, List.append_assoc] at both
    exact (List.append_eq_nil_iff.mp (List.self_eq_append_right.mp both)).2
  | cons nodeId remaining ih =>
    have ahead : nodeId :: remaining = skipped ++ rest := by
      have both := order.symm.trans split.whole
      rw [passed, List.append_assoc] at both
      exact List.append_cancel_left both
    have advanced : run.definition.topologicalOrder = (visited ++ [nodeId]) ++ remaining := by simp [order]
    cases skipped with
    | cons first skipped =>
      -- The node is one of those that have succeeded, and the loop skips it.
      obtain ⟨rfl, _⟩ := List.cons.inj ahead
      have succeeded : statusOf states nodeId = some .succeeded := split.finished (by simp [passed])
      obtain ⟨state, found, same⟩ := Option.map_eq_some_iff.mp succeeded
      simp only [walk, found, same, ↓reduceIte] at walked
      exact ih states _ skipped advanced split (by simp [passed]) walked
    | nil =>
      rw [List.nil_append] at ahead
      subst ahead
      rw [List.append_nil] at passed
      subst passed
      have unfinished := split.unfinished (List.mem_cons_self ..)
      have satisfied : (run.definition.incoming nodeId).any
          (fun source => (states.get? source).map NodeState.status != some .succeeded) = false := by
        rw [List.any_eq_false]
        intro source member
        rw [split.whole] at respects
        have earlier := respects.sources (Definition.mem_incoming.mp member)
        simpa [statusOf] using split.finished earlier
      simp only [walk, satisfied, Bool.false_eq_true, ↓reduceIte] at walked
      split at walked
      · cases walked
      rename_i state found
      have notSucceeded : state.status ≠ .succeeded := by
        intro same
        exact unfinished (by simp [statusOf, found, same])
      rw [if_neg notSucceeded] at walked
      split at walked
      · cases walked
        exact ⟨done, _, split, List.prefix_rfl, by simp⟩
      split at walked
      · cases walked
      split at walked
      · cases walked
      split at walked
      · cases walked
        exact ⟨done, _, split.set_head distinct (by simp), List.prefix_rfl, by simp⟩
      · cases walked
        exact ⟨done, _, split.set_head distinct (by simp), List.prefix_rfl, by simp⟩
      · split at walked
        · obtain ⟨done', rest', kept, grown, finished⟩ :=
            ih _ _ [] advanced (split.finish distinct rfl) (List.append_nil _).symm walked
          exact ⟨done', rest', kept, (List.prefix_append ..).trans grown, finished⟩
        · cases walked
          exact ⟨done, _, (split.set_head distinct (by simp)).skip _, List.prefix_rfl, by simp⟩

/-- The run's node states are split, and a succeeded run has nothing left. -/
structure Held (run : Run Value) (done rest : List String) : Prop where
  split : Split run.definition.topologicalOrder run.nodeStates done rest
  complete : run.status = .succeeded → rest = []

/-- A later record of the same run: what had succeeded before has succeeded still. -/
structure Grown (run later : Run Value) : Prop where
  same : later.definition = run.definition
  held : ∀ {done rest}, run.Held done rest → ∃ done' rest', later.Held done' rest' ∧ done <+: done'

theorem Grown.refl (run : Run Value) : run.Grown run :=
  ⟨rfl, fun held => ⟨_, _, held, List.prefix_rfl⟩⟩

theorem Grown.trans {run next later : Run Value} (first : run.Grown next) (second : next.Grown later) :
    run.Grown later := by
  refine ⟨second.same.trans first.same, fun held => ?_⟩
  obtain ⟨_, _, nextHeld, grown⟩ := first.held held
  obtain ⟨done, rest, laterHeld, more⟩ := second.held nextHeld
  exact ⟨done, rest, laterHeld, grown.trans more⟩

theorem Grown.of_status {run later : Run Value} (same : later.definition = run.definition)
    (states : later.nodeStates = run.nodeStates) (unfinished : later.status ≠ .succeeded) : run.Grown later := by
  refine ⟨same, fun {done rest} held => ⟨done, rest, ⟨?_, fun finished => absurd finished unfinished⟩, List.prefix_rfl⟩⟩
  rw [same, states]
  exact held.split

theorem Grown.of_set {run : Run Value} {state before : NodeState Value} {status : RunStatus}
    (found : run.nodeStates.get? nodeId = some before) (active : before.status.active = true)
    (unfinished : status ≠ .succeeded) : run.Grown (run.update (run.nodeStates.set nodeId state) status) := by
  refine ⟨rfl, fun {done rest} held => ?_⟩
  have distinct := run.definition.order_spec.2.1
  have inHand : statusOf run.nodeStates nodeId = some before.status := by simp [statusOf, found]
  obtain ⟨more, rfl⟩ := held.split.head_of_active inHand active
  by_cases succeeded : state.status = .succeeded
  · exact ⟨_, _, ⟨held.split.finish distinct succeeded, fun finished => absurd finished unfinished⟩,
      List.prefix_append ..⟩
  · exact ⟨_, _, ⟨held.split.set_head distinct succeeded, fun finished => absurd finished unfinished⟩,
      List.prefix_rfl⟩

theorem grown_timeOut (run : Run Value) : run.Grown run.timeOut :=
  .of_status rfl rfl (by simp [timeOut])

theorem grown_get (run : Run Value) (expired : Bool) : run.Grown (run.get expired) := by
  unfold get
  split
  · exact run.grown_timeOut
  · exact .refl run

theorem grown_advance (run : Run Value) (host : Host Value) : run.Grown (run.advance host).1 := by
  refine (run.grown_get host.expiredOnAdvance).trans ?_
  simp only [advance]
  generalize run.get host.expiredOnAdvance = run
  split
  · exact .refl run
  split
  · exact run.grown_timeOut
  split
  · exact .refl run
  · rename_i walked
    refine ⟨rfl, fun held => ?_⟩
    obtain ⟨done', rest', split, grown, finished⟩ :=
      walk_split run.nodeStates [] _ rfl held.split rfl walked
    exact ⟨done', rest', ⟨split, finished⟩, grown⟩

theorem grown_approve (run : Run Value) (host : Host Value) (nodeId approvedBy note : String) :
    run.Grown (run.approveWorkflowNode host nodeId approvedBy note).1 := by
  unfold approveWorkflowNode
  split
  · exact .refl run
  refine (run.grown_get host.expired).trans ?_
  generalize run.get host.expired = run
  dsimp only
  split
  · exact .refl run
  split
  · rename_i node state named found
    split
    · exact .refl run
    · rename_i awaiting
      rw [not_or, not_not, not_not] at awaiting
      exact .of_set found (by rw [awaiting.2]; rfl) (by simp)
  · exact .refl run

theorem grown_reject (run : Run Value) (host : Host Value) (nodeId rejectedBy note : String) :
    run.Grown (run.rejectWorkflowNode host nodeId rejectedBy note).1 := by
  refine (run.grown_get host.expired).trans ?_
  unfold rejectWorkflowNode
  generalize run.get host.expired = run
  dsimp only
  split
  · exact .refl run
  rename_i state found
  split
  · exact .refl run
  rename_i awaiting
  rw [not_or, not_not, not_not] at awaiting
  refine ⟨rfl, fun {done rest} held => ?_⟩
  have inHand : statusOf run.nodeStates nodeId = some .waitingApproval := by simp [statusOf, found, awaiting.2]
  obtain ⟨more, rfl⟩ := held.split.head_of_active inHand rfl
  exact ⟨done, _, ⟨(held.split.skip none).set_head run.definition.order_spec.2.1 (by simp), by simp [update]⟩,
    List.prefix_rfl⟩

theorem grown_trigger (run : Run Value) (host : Host Value) (nodeId triggeredBy : String) :
    run.Grown (run.triggerAgentNode host nodeId triggeredBy).1 := by
  refine (run.grown_get host.expired).trans ?_
  unfold triggerAgentNode
  generalize run.get host.expired = run
  dsimp only
  split
  · rename_i node state named found
    split
    · exact .refl run
    · rename_i awaiting
      rw [not_or, not_or, not_not, not_not, not_not] at awaiting
      exact .of_set found (by rw [awaiting.2.2]; rfl) (by simp)
  · exact .refl run

theorem grown_claim (run : Run Value) (host : Host Value) (nodeId claimedBy : String) :
    run.Grown (run.claimAgentTask host nodeId claimedBy).1 := by
  refine (run.grown_get host.expired).trans ?_
  unfold claimAgentTask
  generalize run.get host.expired = run
  dsimp only
  split
  · exact .refl run
  · rename_i state task found
    obtain ⟨stored, found, paired⟩ := Option.bind_eq_some_iff.mp found
    obtain ⟨_, _, same⟩ := Option.map_eq_some_iff.mp paired
    cases same
    split
    · exact .refl run
    · rename_i queued
      rw [not_or, not_or, not_not, not_not, not_not] at queued
      exact .of_set found (by rw [queued.2.1]; rfl) (by simp [queued.1])

theorem grown_complete (run : Run Value) (host : Host Value) (nodeId reported : String) (output : Option Value)
    (error : String) : run.Grown (run.completeAgentTask host nodeId reported output error).1 := by
  refine (run.grown_get host.expired).trans ?_
  unfold completeAgentTask
  generalize run.get host.expired = run
  dsimp only
  split
  · exact .refl run
  · rename_i state task found
    obtain ⟨stored, found, paired⟩ := Option.bind_eq_some_iff.mp found
    obtain ⟨_, _, same⟩ := Option.map_eq_some_iff.mp paired
    cases same
    split
    · exact .refl run
    rename_i claimed
    rw [not_or, not_or, not_not, not_not, not_not] at claimed
    have working : state.status.active = true := by rw [claimed.2.1]; rfl
    split
    · exact .of_set found working (by simp)
    split
    · exact .of_set found working (by simp)
    · exact .refl run

theorem grown_setState (run : Run Value) (host : Host Value) (action : StateAction) :
    run.Grown (run.setWorkflowRunState host action).1 := by
  refine (run.grown_get host.expired).trans ?_
  unfold setWorkflowRunState
  generalize run.get host.expired = run
  cases action <;> dsimp only <;> split
  all_goals first | exact .refl run | exact .of_status rfl rfl (by simp [update])

end Run

theorem Operation.grown_begin (operation : Operation Value) (host : Host Value) (run : Run Value) :
    run.Grown (operation.begin host run).1 := by
  cases operation with
  | read => exact run.grown_get host.expired
  | advance => exact .refl run
  | approve nodeId approvedBy note => exact run.grown_approve host nodeId approvedBy note
  | reject nodeId rejectedBy note => exact run.grown_reject host nodeId rejectedBy note
  | trigger nodeId triggeredBy => exact run.grown_trigger host nodeId triggeredBy
  | claim nodeId claimedBy => exact run.grown_claim host nodeId claimedBy
  | complete nodeId status output error => exact run.grown_complete host nodeId status output error
  | setState action => exact run.grown_setState host action

theorem Operation.grown_perform (operation : Operation Value) (host : Host Value) (run : Run Value) :
    run.Grown (operation.perform host run).1 := by
  have begun := operation.grown_begin host run
  unfold perform
  generalize operation.begin host run = result at begun ⊢
  obtain ⟨written, next⟩ := result
  cases next with
  | error message => exact begun
  | ok next =>
    cases next with
    | stop => exact begun
    | advance => exact begun.trans (written.grown_advance host)

theorem Step.grown {run next : Run Value} (step : Step run operation next) : run.Grown next := by
  cases step with
  | whole host => exact operation.grown_perform host run
  | stopped host => exact operation.grown_begin host run

theorem held_create (definition : Definition Value) (input : Value) :
    (Run.create definition input).Held [] definition.topologicalOrder := by
  have pending (nodeId : String) : statusOf (Run.create definition input).nodeStates nodeId =
      if nodeId ∈ definition.nodes.map Node.id then some .pending else none := by
    have filled := Dict.get?_foldl_set Node.id (NodeState.pending : NodeState Value) definition.nodes ∅ nodeId
    simp only [statusOf, Run.create, filled, Dict.get?_empty]
    split <;> rfl
  refine ⟨⟨rfl, by simp, ?_, ?_, ?_⟩, by simp [Run.create]⟩ <;> intro nodeId
  · intro _ succeeded
    rw [pending] at succeeded
    split_ifs at succeeded
    cases succeeded
  · intro status _ found
    rw [pending] at found
    split_ifs at found
    cases found
    rfl
  · intro status found
    rw [pending] at found
    split_ifs at found with member
    exact definition.order_spec.1.mem_iff.mpr member

namespace Run

theorem get_terminal {run : Run Value} (terminal : run.status.terminal = true) (expired : Bool) :
    run.get expired = run := by
  simp [get, terminal]

theorem advance_terminal {run : Run Value} (terminal : run.status.terminal = true) (host : Host Value) :
    (run.advance host).1 = run := by
  simp [advance, get_terminal terminal, terminal]

end Run

theorem Operation.begin_terminal {run : Run Value} (operation : Operation Value) (host : Host Value)
    (terminal : run.status.terminal = true) : (operation.begin host run).1 = run := by
  have notWaiting : run.status ≠ .waitingApproval := by rintro same; simp [same, RunStatus.terminal] at terminal
  have notRunning : run.status ≠ .running := by rintro same; simp [same, RunStatus.terminal] at terminal
  have notQueued : run.status ≠ .queued := by rintro same; simp [same, RunStatus.terminal] at terminal
  have notPaused : run.status ≠ .paused := by rintro same; simp [same, RunStatus.terminal] at terminal
  cases operation with
  | read => exact Run.get_terminal terminal _
  | advance => rfl
  | approve nodeId approvedBy note =>
    simp only [begin, Run.approveWorkflowNode, Run.get_terminal terminal, if_pos notWaiting]
    split <;> rfl
  | reject nodeId rejectedBy note =>
    simp only [begin, Run.rejectWorkflowNode, Run.get_terminal terminal]
    split
    · rfl
    · simp [notWaiting]
  | trigger nodeId triggeredBy =>
    simp only [begin, Run.triggerAgentNode, Run.get_terminal terminal]
    split
    · simp [notWaiting]
    · rfl
  | claim nodeId claimedBy =>
    simp only [begin, Run.claimAgentTask, Run.get_terminal terminal]
    split
    · rfl
    · simp [notRunning]
  | complete nodeId status output error =>
    simp only [begin, Run.completeAgentTask, Run.get_terminal terminal]
    split
    · rfl
    · simp [notRunning]
  | setState action =>
    cases action <;> simp [begin, Run.setWorkflowRunState, Run.get_terminal terminal, terminal, notWaiting,
      notRunning, notQueued, notPaused]

theorem Step.terminal {run next : Run Value} (step : Step run operation next)
    (terminal : run.status.terminal = true) : next = run := by
  cases step with
  | stopped host => exact operation.begin_terminal host terminal
  | whole host =>
    have begun := operation.begin_terminal host terminal
    unfold Operation.perform
    generalize operation.begin host run = result at begun ⊢
    obtain ⟨written, next⟩ := result
    cases begun
    cases next with
    | error message => rfl
    | ok next =>
      cases next with
      | stop => rfl
      | advance => exact Run.advance_terminal terminal host

/-- Over any sequence of calls on a run of an accepted definition: what has succeeded
is a prefix of the stored order, only the node after it is in hand, a node in hand
has all its sources succeeded, a succeeded run has no other node, success is kept,
and a terminal run never changes. -/
theorem run_keeps_prefix {input : Value} {definition : Definition Value} {run : Run Value}
    (reached : Library.Run Step (Run.create definition input) calls run) :
    (∃ done rest, definition.topologicalOrder = done ++ rest ∧
      (∀ nodeId, statusOf run.nodeStates nodeId = some .succeeded ↔ nodeId ∈ done) ∧
      ∀ nodeId status, statusOf run.nodeStates nodeId = some status → status.active = true →
        rest.head? = some nodeId) ∧
    (run.status = .succeeded → ∀ node ∈ definition.nodes, statusOf run.nodeStates node.id = some .succeeded) ∧
    ∀ {more later}, Library.Run Step run more later →
      (∀ nodeId status, statusOf run.nodeStates nodeId = some status → status.active = true →
        ∀ source, (source, nodeId) ∈ definition.edges →
          statusOf run.nodeStates source = some .succeeded ∧ statusOf later.nodeStates source = some .succeeded) ∧
      (run.status.terminal = true → later = run) := by
  have grown : (Run.create definition input).Grown run := reached.related Run.Grown.refl Run.Grown.trans Step.grown
  obtain ⟨done, rest, held, _⟩ := grown.held (held_create definition input)
  have same : run.definition = definition := grown.same
  obtain ⟨perm, _, respects⟩ := definition.order_spec
  have whole : definition.topologicalOrder = done ++ rest := same ▸ held.split.whole
  refine ⟨⟨done, rest, whole, fun nodeId => held.split.succeeded_iff, ?_⟩, ?_, ?_⟩
  · intro nodeId status found active
    obtain ⟨more, rfl⟩ := held.split.head_of_active found active
    rfl
  · intro finished node member
    rw [held.complete finished, List.append_nil] at whole
    exact held.split.finished (whole ▸ perm.mem_iff.mpr (List.mem_map_of_mem member))
  · intro more later continued
    have laterGrown : run.Grown later := continued.related Run.Grown.refl Run.Grown.trans Step.grown
    refine ⟨fun nodeId status found active source edge => ?_, fun terminal => ?_⟩
    · obtain ⟨tail, rfl⟩ := held.split.head_of_active found active
      rw [whole] at respects
      have member := respects.sources edge
      obtain ⟨laterDone, laterRest, laterHeld, extended⟩ := laterGrown.held held
      exact ⟨held.split.finished member, laterHeld.split.finished (extended.subset member)⟩
    · have kept : run.status.terminal = true ∧ later = run :=
        continued.invariant (motive := fun later => run.status.terminal = true ∧ later = run) ⟨terminal, rfl⟩
          fun ⟨ended, same⟩ step => ⟨ended, (step.terminal (same ▸ ended)).trans same⟩
      exact kept.2

/-- A checkpoint, an agent task after it, and an approval after both. -/
def reviewed : Definition String where
  nodes := [⟨"approve", .manualApproval, "Approve", ∅⟩, ⟨"write", .agentTask, "Write", ∅⟩,
    ⟨"start", .checkpoint, "Start", ∅⟩]
  edges := [("start", "write"), ("write", "approve"), ("start", "approve"), ("start", "write")]
  topologicalOrder := ["start", "write", "approve"]
  accepted := by decide

def quietHost : Host String := ⟨"now", false, false, false, fun _ _ => false, fun _ _ _ => none⟩

/-- The task of `reviewed` is triggered, claimed and fails. -/
theorem failed_task_freezes_run : ∃ calls run, Library.Run Step (Run.create reviewed "input") calls run ∧
    run.status = .failed ∧ (∃ done rest, reviewed.topologicalOrder = done ++ rest ∧
      ∀ nodeId, statusOf run.nodeStates nodeId = some .succeeded ↔ nodeId ∈ done) ∧
    ∀ {more later}, Library.Run Step run more later → later = run := by
  have reached : Library.Run Step (Run.create reviewed "input") _ _ := (((Library.Run.one (.whole .advance quietHost)).snoc
    (.whole (.trigger "write" "author") quietHost)).snoc (.whole (.claim "write" "writer") quietHost)).snoc
    (.whole (.complete "write" "FAILED" none "no model") quietHost)
  obtain ⟨⟨done, rest, whole, succeeded, _⟩, _, later⟩ := run_keeps_prefix reached
  exact ⟨_, _, reached, rfl, ⟨done, rest, whole, succeeded⟩, fun continued => (later continued).2 rfl⟩

end NovelStudio.Workflow
