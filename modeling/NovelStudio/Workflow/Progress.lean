import NovelStudio.Workflow.Prefix

/-! No open run is stuck: from wherever the calls on it have led, further calls bring it to its end. -/

namespace NovelStudio.Workflow

open Library

variable {Value : Type}

/-- A node in hand carries the task that its next call asks for. -/
def NodeState.staffed (state : NodeState Value) : Bool :=
  match state.status with
  | .queued => state.task?.any fun task => task.execution = .queued
  | .working => state.task?.any fun task => task.execution = .claimed
  | _ => true

/-- Every node of the order has a state, and is staffed. -/
def Staffed (order : List String) (states : NodeStates Value) : Prop :=
  ∀ nodeId ∈ order, ∃ state, states.get? nodeId = some state ∧ state.staffed = true

section

variable {states final : NodeStates Value} {order : List String}

theorem Staffed.set {state : NodeState Value} (staffed : Staffed order states) (nodeId : String) (own : state.staffed = true) :
    Staffed order (states.set nodeId state) := by
  intro other member
  rw [Dict.get?_set]
  split
  · exact ⟨state, rfl, own⟩
  · exact staffed other member

theorem Staffed.skip (staffed : Staffed order states) (error : Option NodeError) :
    Staffed order (states.mapValues fun _ state => state.skip error) := by
  intro nodeId member
  obtain ⟨state, found, own⟩ := staffed nodeId member
  rw [Dict.get?_mapValues, found]
  refine ⟨state.skip error, rfl, ?_⟩
  unfold NodeState.skip
  split
  · rfl
  · exact own

theorem Staffed.walk {host : Host Value} {run : Run Value} {status : RunStatus} (staffed : Staffed order states)
    (walked : Run.walk host run remaining states = .ok (final, status)) : Staffed order final := by
  induction remaining generalizing states with
  | nil =>
    cases walked
    exact staffed
  | cons nodeId remaining ih =>
    unfold Run.walk at walked
    split at walked
    · cases walked
    split at walked
    · exact ih staffed walked
    split at walked
    · cases walked
      exact staffed
    split at walked
    · exact ih staffed walked
    split at walked
    · cases walked
    split at walked
    · cases walked
    split at walked
    · cases walked
      exact staffed.set nodeId rfl
    · cases walked
      exact staffed.set nodeId rfl
    · split at walked
      · exact ih (staffed.set nodeId rfl) walked
      · cases walked
        exact (staffed.set nodeId rfl).skip _

end

namespace Run

def Ready (run : Run Value) : Prop := Staffed run.definition.topologicalOrder run.nodeStates

variable {run : Run Value}

theorem Ready.get (ready : run.Ready) (expired : Bool) : (run.get expired).Ready := by
  unfold Run.get
  split <;> exact ready

theorem Ready.advance (ready : run.Ready) (host : Host Value) : (run.advance host).1.Ready := by
  have now := ready.get host.expiredOnAdvance
  simp only [Run.advance]
  split
  · exact now
  split
  · exact now
  split
  · exact now
  · rename_i walked
    exact Staffed.walk now walked

theorem Ready.begin (ready : run.Ready) (operation : Operation Value) (host : Host Value) : (operation.begin host run).1.Ready := by
  have now := ready.get host.expired
  cases operation with
  | read => exact now
  | advance => exact ready
  | setState action => cases action <;> simp only [Operation.begin, setWorkflowRunState] <;> split <;> exact now
  | reject nodeId rejectedBy note =>
    simp only [Operation.begin, rejectWorkflowNode]
    repeat' split
    all_goals first | exact now | exact (Staffed.skip now none).set nodeId rfl
  | _ =>
    -- every other call writes one node, or nothing
    simp only [Operation.begin, approveWorkflowNode, triggerAgentNode, claimAgentTask, completeAgentTask]
    repeat' split
    all_goals first | exact ready | exact now | exact Staffed.set now _ rfl

end Run

theorem Step.ready {run next : Run Value} (step : Step run operation next) (ready : run.Ready) : next.Ready := by
  cases step with
  | stopped host => exact ready.begin operation host
  | whole host =>
    have begun := ready.begin operation host
    unfold Operation.perform
    split
    · rename_i same
      rw [same] at begun
      exact begun.advance host
    · rename_i same
      rwa [same] at begun
    · rename_i same
      rwa [same] at begun

theorem ready_create (definition : Definition Value) (input : Value) : (Run.create definition input).Ready := by
  intro nodeId member
  have filled := Dict.get?_foldl_set Node.id (NodeState.pending : NodeState Value) definition.nodes ∅ nodeId
  rw [if_pos (definition.order_spec.1.mem_iff.mp member)] at filled
  exact ⟨.pending, filled, rfl⟩

/-- A host that lets everything through: time does not run out, nothing is refused, and every handler produces. -/
def willing (value : Value) : Host Value := ⟨"now", false, false, false, fun _ _ => false, fun _ _ _ => some value⟩

/-- What is left of a run, each node of it with a state. -/
structure Run.Live (run : Run Value) (rest : List String) : Prop where
  split : ∃ done, Split run.definition.topologicalOrder run.nodeStates done rest
  ready : run.Ready

/-- Where a willing host leaves a run: at its end, or with a node that a person or an agent has in hand. -/
inductive Stop (definition : Definition Value) (states : NodeStates Value) : List String → RunStatus → Prop where
  | ended : Stop definition states [] .succeeded
  | waiting {nodeId : String} {node : Node Value} {state : NodeState Value} (later : List String)
      (named : definition.node? nodeId = some node) (kind : node.type = .manualApproval ∨ node.type = .agentTask)
      (found : states.get? nodeId = some state) (waits : state.status = .waitingApproval) :
      Stop definition states (nodeId :: later) .waitingApproval
  | inHand {nodeId : String} {state : NodeState Value} (later : List String) (found : states.get? nodeId = some state)
      (hand : state.status = .queued ∨ state.status = .working) : Stop definition states (nodeId :: later) .running

namespace Run

variable {states final : NodeStates Value} {run : Run Value} {value : Value}

theorem walk_passes {host : Host Value} (finished : ∀ nodeId ∈ done, statusOf states nodeId = some .succeeded)
    (rest : List String) : walk host run (done ++ rest) states = walk host run rest states := by
  induction done with
  | nil => rfl
  | cons nodeId done ih =>
    obtain ⟨state, found, same⟩ := Option.map_eq_some_iff.mp (finished nodeId (List.mem_cons_self ..))
    simp only [List.cons_append, walk, found, same, ↓reduceIte]
    exact ih fun other member => finished other (List.mem_cons_of_mem _ member)

theorem walk_inHand {host : Host Value} {state : NodeState Value} (found : states.get? nodeId = some state)
    (hand : state.status = .queued ∨ state.status = .working) (later : List String) :
    walk host run (nodeId :: later) states = .ok (states, .running) := by
  have unfinished : state.status ≠ .succeeded := by
    rcases hand with same | same <;> rw [same] <;> rintro ⟨⟩
  simp only [walk, found, if_neg unfinished, if_pos hand]

theorem walk_willing (value : Value) (split : Split run.definition.topologicalOrder states done rest)
    (staffed : Staffed run.definition.topologicalOrder states) :
    ∃ final status done' rest', walk (willing value) run rest states = .ok (final, status) ∧
      Split run.definition.topologicalOrder final done' rest' ∧ rest'.length ≤ rest.length ∧ Stop run.definition final rest' status := by
  obtain ⟨perm, distinct, respects⟩ := run.definition.order_spec
  induction rest generalizing states done with
  | nil =>
    refine ⟨states, .succeeded, done, [], ?_, split, le_refl _, .ended⟩
    have all : states.values.all (fun state => state.status == .succeeded) = true := by
      rw [List.all_eq_true]
      intro state member
      obtain ⟨nodeId, found⟩ := Dict.mem_values_iff.mp member
      have shown : statusOf states nodeId = some state.status := by rw [statusOf, found]; rfl
      have known := split.known shown
      rw [split.whole, List.append_nil] at known
      rw [split.finished known] at shown
      exact beq_iff_eq.mpr (Option.some.inj shown).symm
    rw [walk, all]
    rfl
  | cons nodeId later ih =>
    have member : nodeId ∈ run.definition.topologicalOrder := by rw [split.whole]; simp
    obtain ⟨state, found, own⟩ := staffed nodeId member
    have unfinished : state.status ≠ .succeeded := by
      intro same
      apply split.unfinished (List.mem_cons_self ..)
      rw [statusOf, found, ← same]
      rfl
    by_cases hand : state.status = .queued ∨ state.status = .working
    · exact ⟨states, .running, done, _, walk_inHand found hand later, split, le_refl _, .inHand later found hand⟩
    · have satisfied : (run.definition.incoming nodeId).any
          (fun source => (states.get? source).map NodeState.status != some .succeeded) = false := by
        rw [List.any_eq_false]
        intro source edge
        rw [split.whole] at respects
        simpa [statusOf] using split.finished (respects.sources (Definition.mem_incoming.mp edge))
      obtain ⟨node, inside, same⟩ := List.mem_map.mp (perm.mem_iff.mp member)
      have named : (run.definition.node? nodeId).isSome := by
        rw [Definition.node?, List.find?_isSome]
        exact ⟨node, inside, decide_eq_true same⟩
      obtain ⟨node, named⟩ := Option.isSome_iff_exists.mp named
      have free : (willing value).dispatchGuard run node = false := rfl
      simp only [walk, found, if_neg unfinished, if_neg hand, satisfied, Bool.false_eq_true, ↓reduceIte, named, free]
      split
      · rename_i kind
        exact ⟨_, _, done, _, rfl, split.set_head distinct (by rintro ⟨⟩), le_refl _, .waiting later named (.inl kind) (Dict.get?_set_self ..) rfl⟩
      · rename_i kind
        exact ⟨_, _, done, _, rfl, split.set_head distinct (by rintro ⟨⟩), le_refl _, .waiting later named (.inr kind) (Dict.get?_set_self ..) rfl⟩
      · obtain ⟨output, produced⟩ : ∃ output, produce (willing value) run states node = some output := by
          unfold produce
          split <;> exact ⟨_, rfl⟩
        rw [produced]
        have finished : (⟨.succeeded, some output, none, some "now"⟩ : NodeState Value).status = .succeeded := rfl
        obtain ⟨final, status, done', rest', walked, split, shorter, stop⟩ := ih (split.finish distinct finished) (staffed.set nodeId rfl)
        exact ⟨final, status, done', rest', walked, split, Nat.le_succ_of_le shorter, stop⟩

theorem Live.set {state : NodeState Value} (live : run.Live (nodeId :: later)) (unfinished : state.status ≠ .succeeded)
    (own : state.staffed = true) (status : RunStatus) : (run.update (run.nodeStates.set nodeId state) status).Live (nodeId :: later) := by
  obtain ⟨done, split⟩ := live.split
  exact ⟨⟨done, split.set_head run.definition.order_spec.2.1 unfinished⟩, Staffed.set live.ready nodeId own⟩

theorem Live.finish {state : NodeState Value} (live : run.Live (nodeId :: later)) (succeeded : state.status = .succeeded)
    (status : RunStatus) : (run.update (run.nodeStates.set nodeId state) status).Live later := by
  obtain ⟨done, split⟩ := live.split
  exact ⟨⟨_, split.finish run.definition.order_spec.2.1 succeeded⟩, Staffed.set live.ready nodeId (by simp [NodeState.staffed, succeeded])⟩

theorem Live.staff {state : NodeState Value} (live : run.Live (nodeId :: later)) (found : run.nodeStates.get? nodeId = some state) :
    state.staffed = true := by
  obtain ⟨done, split⟩ := live.split
  obtain ⟨stored, again, own⟩ := live.ready nodeId (by rw [split.whole]; simp)
  cases found.symm.trans again
  exact own

theorem advance_walked {status : RunStatus} (split : Split run.definition.topologicalOrder run.nodeStates done rest)
    (open' : run.status.terminal = false) (going : run.status ≠ .paused)
    (walked : walk (willing value) run rest run.nodeStates = .ok (final, status)) :
    (run.advance (willing value)).1.definition = run.definition ∧ (run.advance (willing value)).1.nodeStates = final ∧
      (run.advance (willing value)).1.status = status := by
  rw [← walk_passes (fun nodeId => split.finished) rest, ← split.whole] at walked
  have unchanged : run.get (willing value).expiredOnAdvance = run := by simp [get, willing]
  have goes : ¬(run.status.terminal = true ∨ run.status = .paused) := by simp [open', going]
  have checked : (willing value).expiredOnCheck = false := rfl
  simp only [advance, unchanged, if_neg goes, checked, Bool.false_eq_true, ↓reduceIte, walked, and_self]

theorem Live.advance (live : run.Live rest) (value : Value) (open' : run.status.terminal = false) (going : run.status ≠ .paused) :
    ∃ rest', rest'.length ≤ rest.length ∧ (run.advance (willing value)).1.Live rest' ∧
      Stop (run.advance (willing value)).1.definition (run.advance (willing value)).1.nodeStates rest' (run.advance (willing value)).1.status := by
  obtain ⟨done, split⟩ := live.split
  obtain ⟨final, status, done', rest', walked, later, shorter, stop⟩ := walk_willing value split live.ready
  have ready := live.ready.advance (willing value)
  obtain ⟨same, states, ended⟩ := advance_walked split open' going walked
  refine ⟨rest', shorter, ⟨⟨done', ?_⟩, ready⟩, ?_⟩
  · rw [same, states]
    exact later
  · rw [same, states, ended]
    exact stop

end Run

/-- Calls that follow can bring the run to its end. -/
def CanSucceed (run : Run Value) : Prop := ∃ calls later, Library.Run Step run calls later ∧ later.status = .succeeded

theorem CanSucceed.of_step {run next : Run Value} (step : Step run operation next) (can : CanSucceed next) : CanSucceed run := by
  obtain ⟨calls, later, reached, succeeded⟩ := can
  exact ⟨_, later, (Library.Run.one step).append reached, succeeded⟩

section

variable {run next : Run Value} {state : NodeState Value} {operation : Operation Value} {value : Value}

theorem CanSucceed.of_stop (begun : operation.begin (willing value) run = (next, .ok .stop)) (can : CanSucceed next) : CanSucceed run := by
  have step : Step run operation _ := .whole operation (willing value)
  rw [Operation.perform, begun] at step
  exact .of_step step can

theorem CanSucceed.of_advance (begun : operation.begin (willing value) run = (next, .ok .advance))
    (can : CanSucceed (next.advance (willing value)).1) : CanSucceed run := by
  have step : Step run operation _ := .whole operation (willing value)
  rw [Operation.perform, begun] at step
  exact .of_step step can

variable (value) (ahead : ∀ {run : Run Value}, run.Live later → run.status = .running → CanSucceed (run.advance (willing value)).1)

include ahead

theorem canSucceed_working (live : run.Live (nodeId :: later)) (running : run.status = .running)
    (found : run.nodeStates.get? nodeId = some state) (working : state.status = .working) : CanSucceed run := by
  obtain ⟨task, carried, claimed⟩ : ∃ task, state.task? = some task ∧ task.execution = .claimed := by
    simpa [NodeState.staffed, working, Option.any_eq_true] using live.staff found
  have begun : (Operation.complete nodeId "SUCCEEDED" none "").begin (willing value) run =
      (run.update (run.nodeStates.set nodeId ⟨.succeeded, some (.agent { task with execution := .completed, result := none }), none,
        some "now"⟩) .running, .ok .advance) := by
    simp [Operation.begin, Run.completeAgentTask, Run.get, willing, found, carried, running, working, claimed]
  exact .of_advance begun (ahead (live.finish rfl _) rfl)

theorem canSucceed_queued (live : run.Live (nodeId :: later)) (running : run.status = .running)
    (found : run.nodeStates.get? nodeId = some state) (queued : state.status = .queued) : CanSucceed run := by
  obtain ⟨task, carried, waits⟩ : ∃ task, state.task? = some task ∧ task.execution = .queued := by
    simpa [NodeState.staffed, queued, Option.any_eq_true] using live.staff found
  have begun : (Operation.claim nodeId "writer").begin (willing value) run =
      (run.update (run.nodeStates.set nodeId { state with
        status := .working
        output := some (.agent { task with execution := .claimed, claimedBy := some (strip "writer"), claimedAt := some "now" }) })
        .running, .ok .stop) := by
    simp [Operation.begin, Run.claimAgentTask, Run.get, willing, found, carried, running, queued, waits]
  exact .of_stop begun (canSucceed_working value ahead (live.set (by rintro ⟨⟩) rfl _) rfl (Dict.get?_set_self ..) rfl)

/-- The call that queues a task goes on to advance the run, which stops at that task. -/
theorem canSucceed_put (live : run.Live (nodeId :: later)) (queued : state.status = .queued) (own : state.staffed = true) :
    CanSucceed ((run.update (run.nodeStates.set nodeId state) .running).advance (willing value)).1 := by
  have live := live.set (by rw [queued]; rintro ⟨⟩) own .running
  obtain ⟨done, split⟩ := live.split
  have found : (run.nodeStates.set nodeId state).get? nodeId = some state := Dict.get?_set_self ..
  obtain ⟨same, states, ended⟩ := Run.advance_walked split rfl (by rintro ⟨⟩) (Run.walk_inHand found (.inl queued) later)
  refine canSucceed_queued value ahead ⟨⟨done, ?_⟩, live.ready.advance _⟩ ended (states ▸ found) queued
  rw [same, states]
  exact split

theorem canSucceed_waiting {node : Node Value} (live : run.Live (nodeId :: later)) (waiting : run.status = .waitingApproval)
    (named : run.definition.node? nodeId = some node) (kind : node.type = .manualApproval ∨ node.type = .agentTask)
    (found : run.nodeStates.get? nodeId = some state) (waits : state.status = .waitingApproval) : CanSucceed run := by
  rcases kind with manual | agent
  · have author : strip "author" ≠ "" := by decide
    have begun : (Operation.approve nodeId "author" "").begin (willing value) run =
        (run.update (run.nodeStates.set nodeId ⟨.succeeded, some (.approved (strip "author") "" "now"), none, some "now"⟩) .running,
          .ok .advance) := by
      simp [Operation.begin, Run.approveWorkflowNode, author, Run.get, willing, named, found, manual, waiting, waits]
    exact .of_advance begun (ahead (live.finish rfl _) rfl)
  · have begun : (Operation.trigger nodeId "author").begin (willing value) run =
        (run.update (run.nodeStates.set nodeId { state with
          status := .queued
          output := some (.agent ⟨.queued, node.agentRole, some (strip "author"), some "now", none, none, none⟩)
          finishedAt := some "now" }) .running, .ok .advance) := by
      simp [Operation.begin, Run.triggerAgentNode, Run.get, willing, named, found, agent, waiting, waits]
    exact .of_advance begun (canSucceed_put value ahead live rfl rfl)

end

theorem canSucceed_advance {run : Run Value} (value : Value) (live : run.Live rest) (open' : run.status.terminal = false)
    (going : run.status ≠ .paused) : CanSucceed (run.advance (willing value)).1 := by
  induction size : rest.length using Nat.strong_induction_on generalizing run rest with
  | h size ih =>
    obtain ⟨left, shorter, live, stop⟩ := live.advance value open' going
    generalize (run.advance (willing value)).1 = run at live stop ⊢
    generalize status : run.status = stopped at stop
    have ahead {later : List String} (fewer : later.length < left.length) {run : Run Value} (live : run.Live later)
        (running : run.status = .running) : CanSucceed (run.advance (willing value)).1 :=
      ih later.length (by omega) live (by rw [running]; rfl) (by rw [running]; rintro ⟨⟩) rfl
    cases stop with
    | ended => exact ⟨[], run, .done, status⟩
    | waiting later named kind found waits => exact canSucceed_waiting value (ahead (Nat.lt_succ_self _)) live status named kind found waits
    | inHand later found hand =>
      rcases hand with queued | working
      · exact canSucceed_queued value (ahead (Nat.lt_succ_self _)) live status found queued
      · exact canSucceed_working value (ahead (Nat.lt_succ_self _)) live status found working

/-- Wherever calls have led a run that is still open, whatever handlers raised or refused on the way and wherever a call stopped
between its writes, further calls bring it to its end with every node succeeded. -/
theorem open_run_can_succeed {input : Value} {definition : Definition Value} {run : Run Value}
    (reached : Library.Run Step (Run.create definition input) calls run) (open' : run.status.terminal = false) :
    ∃ later final, Library.Run Step run later final ∧ final.status = .succeeded ∧
      ∀ node ∈ definition.nodes, statusOf final.nodeStates node.id = some .succeeded := by
  have grown : (Run.create definition input).Grown run := reached.related Run.Grown.refl Run.Grown.trans Step.grown
  obtain ⟨done, rest, held, _⟩ := grown.held (held_create definition input)
  have ready : run.Ready := reached.invariant (ready_create definition input) fun ready step => step.ready ready
  have live : run.Live rest := ⟨⟨done, held.split⟩, ready⟩
  have can : CanSucceed run := by
    by_cases paused : run.status = .paused
    · have begun : (Operation.setState .resume).begin (willing input) run = (run.update run.nodeStates .running, .ok .advance) := by
        simp [Operation.begin, Run.setWorkflowRunState, Run.get, willing, paused]
      have resumed : (run.update run.nodeStates .running).Live rest := ⟨live.split, live.ready⟩
      exact .of_advance begun (canSucceed_advance input resumed rfl (by rintro ⟨⟩))
    · exact .of_step (.whole .advance (willing input)) (canSucceed_advance input live open' paused)
  obtain ⟨later, final, continued, succeeded⟩ := can
  have grown : run.Grown final := continued.related Run.Grown.refl Run.Grown.trans Step.grown
  obtain ⟨done', rest', complete, _⟩ := grown.held held
  refine ⟨later, final, continued, succeeded, fun node member => complete.split.finished ?_⟩
  have same : final.definition = definition := grown.same.trans (reached.related Run.Grown.refl Run.Grown.trans Step.grown).same
  have whole := complete.split.whole
  rw [complete.complete succeeded, List.append_nil, same] at whole
  exact whole ▸ definition.order_spec.1.mem_iff.mpr (List.mem_map_of_mem member)

/-- The task of `reviewed` is queued when the run is paused. -/
theorem reviewed_can_succeed : ∃ (run : Run String) (later : List (Operation String)) (final : Run String),
    run.status = .paused ∧ Library.Run Step run later final ∧ final.status = .succeeded ∧
    ∀ node ∈ reviewed.nodes, statusOf final.nodeStates node.id = some .succeeded := by
  have reached : Library.Run Step (Run.create reviewed "input") _ _ := ((Library.Run.one (.whole .advance quietHost)).snoc
    (.whole (.trigger "write" "author") quietHost)).snoc (.whole (.setState .pause) quietHost)
  obtain ⟨later, final, continued⟩ := open_run_can_succeed reached rfl
  exact ⟨_, later, final, rfl, continued⟩

end NovelStudio.Workflow
