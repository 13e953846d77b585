import NovelStudio.Library.Text
import NovelStudio.Workflow.Order

/-! The durable local workflow run (`services/v1_capability_service.py`): its record,
the loop that advances it, and the calls on it. Every call reads the record and
writes it back under the record's version, so its two writes are two atomic steps. -/

namespace NovelStudio.Workflow

open Library

inductive NodeType where
  | projectSnapshot | qualityGate | manualApproval | checkpoint | agentTask
  | knowledgeCandidates | draftPrepare | shotProposals | reviewArtifact
  deriving DecidableEq

/-- `Value` is whatever a node is configured with, reads and produces. -/
structure Node (Value : Type) where
  id : String
  type : NodeType
  name : String
  config : Dict String Value

/-- The configured role; absent stands for the default `writer`. -/
def Node.agentRole (node : Node Value) : Option Value := node.config.get? "agent_role"

/-- A definition exists only with the order that `create_workflow` computed for it. -/
structure Definition (Value : Type) where
  nodes : List (Node Value)
  edges : List Edge
  topologicalOrder : List String
  accepted : workflowOrder (nodes.map Node.id) edges = .ok topologicalOrder

namespace Definition

def node? (definition : Definition Value) (nodeId : String) : Option (Node Value) :=
  definition.nodes.find? fun node => node.id = nodeId

def incoming (definition : Definition Value) (nodeId : String) : List String :=
  (definition.edges.filter fun edge => edge.2 = nodeId).map Prod.fst

end Definition

inductive NodeStatus where
  | pending | waitingApproval | queued | working | succeeded | failed | skipped | rejected
  deriving DecidableEq

/-- A node that a person or an agent has in hand. -/
def NodeStatus.active : NodeStatus → Bool
  | .waitingApproval | .queued | .working => true
  | _ => false

inductive Execution where
  | deferred | queued | claimed | completed | failed
  deriving DecidableEq

structure AgentOutput (Value : Type) where
  execution : Execution
  agentRole : Option Value
  triggeredBy : Option String := none
  queuedAt : Option String := none
  claimedBy : Option String := none
  claimedAt : Option String := none
  result : Option Value := none

inductive Output (Value : Type) where
  | agent (task : AgentOutput Value)
  | approved (approvedBy note approvedAt : String)
  | rejected (rejectedBy note rejectedAt : String)
  | checkpoint (nodeId name : String)
  | produced (value : Value)

inductive NodeError where
  | nodeFailed
  | upstreamFailed
  | reported (message : String)
  deriving DecidableEq

structure NodeState (Value : Type) where
  status : NodeStatus
  output : Option (Output Value)
  error : Option NodeError
  finishedAt : Option String

def NodeState.pending : NodeState Value := ⟨.pending, none, none, none⟩

/-- `state.get('output', {}).get('execution')` of an agent task. -/
def NodeState.task? (state : NodeState Value) : Option (AgentOutput Value) :=
  match state.output with
  | some (.agent task) => some task
  | _ => none

/-- A node still pending when the run can no longer reach it. -/
def NodeState.skip (error : Option NodeError) (state : NodeState Value) : NodeState Value :=
  if state.status = .pending then { state with status := .skipped, error := error.or state.error } else state

inductive RunStatus where
  | queued | running | waitingApproval | paused | succeeded | failed | cancelled | rejected
  deriving DecidableEq

def RunStatus.terminal : RunStatus → Bool
  | .succeeded | .failed | .cancelled | .rejected => true
  | _ => false

abbrev NodeStates (Value : Type) := Dict String (NodeState Value)

structure Run (Value : Type) where
  definition : Definition Value
  input : Value
  status : RunStatus
  nodeStates : NodeStates Value
  currentNodeId : Option String
  stepsCompleted : Nat
  error : Option String
  version : Nat

/-- What a call finds outside the record: the clock, whether the run has exceeded its
time when it is read and when it is advanced, the optional dispatch guard, and what
the local handlers produce, `none` where one raises. -/
structure Host (Value : Type) where
  now : String
  expired : Bool
  expiredOnAdvance : Bool
  expiredOnCheck : Bool
  dispatchGuard : Run Value → Node Value → Bool
  execute : Node Value → Value → NodeStates Value → Option Value

namespace Run

/-- The record `create_workflow_run` stores before it advances the run. -/
def create (definition : Definition Value) (input : Value) : Run Value where
  definition
  input
  status := .queued
  nodeStates := definition.nodes.foldl (fun states node => states.set node.id .pending) ∅
  currentNodeId := none
  stepsCompleted := 0
  error := none
  version := 1

def timeOut (run : Run Value) : Run Value :=
  { run with status := .failed, error := some "WORKFLOW_TIMEOUT", version := run.version + 1 }

/-- `get_workflow_run`: reading a run that has exceeded its time fails it. -/
def get (run : Run Value) (expired : Bool) : Run Value :=
  if ¬ run.status.terminal ∧ expired then run.timeOut else run

/-- What a node that needs no person produces. -/
def produce (host : Host Value) (run : Run Value) (states : NodeStates Value) (node : Node Value) :
    Option (Output Value) :=
  match node.type with
  | .checkpoint => some (.checkpoint node.id node.name)
  | _ => (host.execute node run.input states).map .produced

/-- The loop over the topological order, with the run status it ends in. -/
def walk (host : Host Value) (run : Run Value) :
    List String → NodeStates Value → Except String (NodeStates Value × RunStatus)
  | [], states =>
    .ok (states, if states.values.all (fun state => state.status == .succeeded) then .succeeded else .running)
  | nodeId :: rest, states =>
    match states.get? nodeId with
    | none => .error "KeyError"
    | some state =>
      if state.status = .succeeded then walk host run rest states
      else if state.status = .queued ∨ state.status = .working then .ok (states, .running)
      else if (run.definition.incoming nodeId).any
          (fun source => (states.get? source).map NodeState.status != some .succeeded) then walk host run rest states
      else match run.definition.node? nodeId with
        | none => .error "KeyError"
        | some node =>
          -- The guard stands outside the error handling of the node, so it aborts the advance.
          if host.dispatchGuard run node then .error "dispatch refused"
          else match node.type with
            | .manualApproval =>
              .ok (states.set nodeId { state with status := .waitingApproval, output := none, error := none },
                .waitingApproval)
            | .agentTask =>
              .ok (states.set nodeId { state with
                  status := .waitingApproval
                  output := some (.agent ⟨.deferred, node.agentRole, none, none, none, none, none⟩)
                  error := none }, .waitingApproval)
            | _ =>
              match produce host run states node with
              | some output =>
                walk host run rest (states.set nodeId ⟨.succeeded, some output, none, some host.now⟩)
              | none =>
                .ok ((states.set nodeId { state with
                    status := .failed
                    output := none
                    error := some .nodeFailed }).mapValues fun _ state => state.skip (some .upstreamFailed), .failed)

def advance (run : Run Value) (host : Host Value) : Run Value × Except String Unit :=
  let run := run.get host.expiredOnAdvance
  if run.status.terminal ∨ run.status = .paused then (run, .ok ())
  else if host.expiredOnCheck then (run.timeOut, .ok ())
  else match walk host run run.definition.topologicalOrder run.nodeStates with
    | .error message => (run, .error message)
    | .ok (nodeStates, status) =>
      ({ run with
          nodeStates
          status
          currentNodeId := (nodeStates.entries.find? fun entry => entry.2.status.active).map Prod.fst
          stepsCompleted := nodeStates.values.countP fun state => state.status = .succeeded
          version := run.version + 1 }, .ok ())

/-- What a call does after its own write. -/
inductive Next where
  | stop | advance
  deriving DecidableEq

/-- A write of one node's state and the run status. -/
def update (run : Run Value) (nodeStates : NodeStates Value) (status : RunStatus) : Run Value :=
  { run with nodeStates, status, version := run.version + 1 }

def approveWorkflowNode (run : Run Value) (host : Host Value) (nodeId approvedBy note : String) :
    Run Value × Except String Next :=
  if strip approvedBy = "" then (run, .error "approved_by is required")
  else
    let run := run.get host.expired
    if run.status ≠ .waitingApproval then (run, .error "workflow run is not awaiting approval")
    else match run.definition.node? nodeId, run.nodeStates.get? nodeId with
      | some node, some state =>
        if node.type ≠ .manualApproval ∨ state.status ≠ .waitingApproval then
          (run, .error "workflow node is not awaiting manual approval")
        else
          (run.update (run.nodeStates.set nodeId
            ⟨.succeeded, some (.approved (strip approvedBy) note host.now), none, some host.now⟩) .running, .ok .advance)
      | _, _ => (run, .error "workflow node is not awaiting manual approval")

def rejectWorkflowNode (run : Run Value) (host : Host Value) (nodeId rejectedBy note : String) :
    Run Value × Except String Next :=
  let run := run.get host.expired
  match run.nodeStates.get? nodeId with
  | none => (run, .error "workflow node is not awaiting approval")
  | some state =>
    if run.status ≠ .waitingApproval ∨ state.status ≠ .waitingApproval then
      (run, .error "workflow node is not awaiting approval")
    else
      (run.update ((run.nodeStates.mapValues fun _ state => state.skip none).set nodeId { state with
        status := .rejected
        output := some (.rejected rejectedBy note host.now) }) .rejected, .ok .stop)

def triggerAgentNode (run : Run Value) (host : Host Value) (nodeId triggeredBy : String) :
    Run Value × Except String Next :=
  let run := run.get host.expired
  match run.definition.node? nodeId, run.nodeStates.get? nodeId with
  | some node, some state =>
    if run.status ≠ .waitingApproval ∨ node.type ≠ .agentTask ∨ state.status ≠ .waitingApproval then
      (run, .error "agent node is not waiting for trigger")
    else
      (run.update (run.nodeStates.set nodeId { state with
        status := .queued
        output := some (.agent ⟨.queued, node.agentRole, some (strip triggeredBy), some host.now, none, none, none⟩)
        finishedAt := some host.now }) .running, .ok .advance)
  | _, _ => (run, .error "agent node is not waiting for trigger")

def claimAgentTask (run : Run Value) (host : Host Value) (nodeId claimedBy : String) :
    Run Value × Except String Next :=
  let run := run.get host.expired
  match (run.nodeStates.get? nodeId).bind fun state => state.task?.map fun task => (state, task) with
  | none => (run, .error "agent task is not queued")
  | some (state, task) =>
    if run.status ≠ .running ∨ state.status ≠ .queued ∨ task.execution ≠ .queued then
      (run, .error "agent task is not queued")
    else
      (run.update (run.nodeStates.set nodeId { state with
        status := .working
        output := some (.agent { task with
          execution := .claimed, claimedBy := some (strip claimedBy), claimedAt := some host.now }) })
        run.status, .ok .stop)

def completeAgentTask (run : Run Value) (host : Host Value) (nodeId status : String) (output : Option Value)
    (error : String) : Run Value × Except String Next :=
  let run := run.get host.expired
  match (run.nodeStates.get? nodeId).bind fun state => state.task?.map fun task => (state, task) with
  | none => (run, .error "agent task is not claimed")
  | some (state, task) =>
    if run.status ≠ .running ∨ state.status ≠ .working ∨ task.execution ≠ .claimed then
      (run, .error "agent task is not claimed")
    else
      let reported := if error = "" then none else some (.reported error)
      if status = "SUCCEEDED" then
        (run.update (run.nodeStates.set nodeId ⟨.succeeded,
          some (.agent { task with execution := .completed, result := output }), reported, some host.now⟩)
          .running, .ok .advance)
      else if status = "FAILED" then
        (run.update (run.nodeStates.set nodeId ⟨.failed,
          some (.agent { task with execution := .failed }), reported, some host.now⟩) .failed, .ok .stop)
      else (run, .error "invalid agent completion status")

inductive StateAction where
  | pause | resume | cancel
  deriving DecidableEq

def setWorkflowRunState (run : Run Value) (host : Host Value) (action : StateAction) :
    Run Value × Except String Next :=
  let run := run.get host.expired
  match action with
  | .cancel =>
    if run.status.terminal then (run, .error "terminal workflow run cannot be cancelled")
    else (run.update run.nodeStates .cancelled, .ok .stop)
  | .pause =>
    if run.status ≠ .queued ∧ run.status ≠ .running ∧ run.status ≠ .waitingApproval then
      (run, .error "workflow run cannot be paused")
    else (run.update run.nodeStates .paused, .ok .stop)
  | .resume =>
    if run.status ≠ .paused then (run, .error "only a paused workflow run can be resumed")
    else (run.update run.nodeStates .running, .ok .advance)

end Run

/-- The calls on a run. `advance` is the second half of creating it, and what other hosts call. -/
inductive Operation (Value : Type) where
  | read
  | advance
  | approve (nodeId approvedBy note : String)
  | reject (nodeId rejectedBy note : String)
  | trigger (nodeId triggeredBy : String)
  | claim (nodeId claimedBy : String)
  | complete (nodeId status : String) (output : Option Value) (error : String)
  | setState (action : Run.StateAction)

namespace Operation

/-- The first write of a call, and whether it goes on to advance the run. -/
def begin (operation : Operation Value) (host : Host Value) (run : Run Value) : Run Value × Except String Run.Next :=
  match operation with
  | .read => (run.get host.expired, .ok .stop)
  | .advance => (run, .ok .advance)
  | .approve nodeId approvedBy note => run.approveWorkflowNode host nodeId approvedBy note
  | .reject nodeId rejectedBy note => run.rejectWorkflowNode host nodeId rejectedBy note
  | .trigger nodeId triggeredBy => run.triggerAgentNode host nodeId triggeredBy
  | .claim nodeId claimedBy => run.claimAgentTask host nodeId claimedBy
  | .complete nodeId status output error => run.completeAgentTask host nodeId status output error
  | .setState action => run.setWorkflowRunState host action

def perform (operation : Operation Value) (host : Host Value) (run : Run Value) : Run Value × Except String Unit :=
  match operation.begin host run with
  | (run, .ok .advance) => run.advance host
  | (run, .ok .stop) => (run, .ok ())
  | (run, .error message) => (run, .error message)

end Operation

/-- A call runs through, or stops between its two writes. -/
inductive Step (run : Run Value) : Operation Value → Run Value → Prop where
  | whole (operation : Operation Value) (host : Host Value) : Step run operation (operation.perform host run).1
  | stopped (operation : Operation Value) (host : Host Value) : Step run operation (operation.begin host run).1

end NovelStudio.Workflow
