import NovelStudio.Batches.Records
import NovelStudio.Library.Transition

/-! The calls of the safe batch service between their transactions, as they interleave. -/

namespace NovelStudio.Batches

open Library Experimental

/-- Where a call of `dispatch` stands. -/
inductive Phase where
  /-- It is in `ACTIVE`; its first transaction is next. -/
  | entered
  | started
  /-- `guard()` has passed; the executor of its kind is next. -/
  | guarded
  /-- The media task is stored. -/
  | bound (task : Nat)
  /-- `media.execute` has claimed the task. -/
  | executing (task token : Nat)
  /-- The intent to create an image job is stored. -/
  | intended
  /-- The image job is stored. -/
  | created (job : Nat)
  | produced (result : Result)
  /-- The stage has raised. -/
  | raised
  deriving DecidableEq

/-- A call of `dispatch`. -/
structure Dispatch where
  batch : Nat
  expected : Nat
  index : Nat
  kind : Kind
  attempts : Nat
  phase : Phase

/-- A call with one transaction, behind its checks of the row that it read. -/
inductive Request where
  | confirm (digest : String)
  | stop
  | retryFailed
  deriving DecidableEq

structure Admitted where
  request : Request
  batch : Nat
  expected : Nat
  deriving DecidableEq

/-- A call of `reconcile`, with the row that it read and where it stands among the items. -/
structure Reconciling where
  batch : Nat
  row : Row Batch
  index : Nat
  /-- Whether the claim of the item there was seen not to be in `ACTIVE`. -/
  cleared : Bool
  changed : List Change

/-- The store, and the calls of the process that uses it. -/
structure State where
  batches : Dict Nat (Row Batch)
  tasks : Dict Nat (Row Task)
  ledger : ReservationId → Option Ledger
  /-- `ACTIVE`. -/
  active : List Nat
  /-- By their claims. -/
  dispatches : Dict Nat Dispatch
  calls : List Admitted
  reconciles : List Reconciling
  /-- What the next identifier is that is drawn. -/
  drawn : Nat

def State.initial : State := ⟨∅, ∅, fun _ => none, [], ∅, [], [], 0⟩

/-- What a step does, for those who watch the batches. -/
inductive Label where
  | preflight (rid : Nat)
  | confirmed (rid : Nat) (digest : String)
  | started (rid index claim : Nat)
  | bound (rid index task : Nat)
  | retried (rid : Nat)
  | silent
  deriving DecidableEq

def checkRequest (row : Row Batch) (expected : Nat) : Request → Except Failure Unit
  | .confirm digest => checkConfirm row expected digest
  | .stop => checkStop row expected
  | .retryFailed => checkRetryFailed row expected

/-- The transaction of a call; `owner` is the check of `stop`. -/
def commitRequest (row : Row Batch) (expected : Nat) (owner : Except Failure Unit) : Request → Except Failure (Row Batch)
  | .confirm _ => confirm row expected
  | .stop => stop row expected owner
  | .retryFailed => retryFailed row expected

def requestLabel (rid : Nat) : Request → Label
  | .confirm digest => .confirmed rid digest
  | .stop => .silent
  | .retryFailed => .retried rid

def State.store (state : State) (rid : Nat) (row : Row Batch) : State := { state with batches := state.batches.set rid row }

def State.proceed (state : State) (claim : Nat) (dispatch : Dispatch) (phase : Phase) : State :=
  { state with dispatches := state.dispatches.set claim { dispatch with phase } }

/-- A dispatch ends, and its claim leaves `ACTIVE`. -/
def State.leave (state : State) (claim : Nat) : State :=
  { state with dispatches := state.dispatches.erase claim, active := state.active.erase claim }

/-- The phases in which an exception ends in the transaction of `fail`. -/
def Phase.isStage : Phase → Bool
  | .entered | .started | .raised => false
  | _ => true

def reservationOf (dispatch : Dispatch) : Option ReservationId :=
  if dispatch.kind = .registeredMedia then some ⟨dispatch.batch, dispatch.index, dispatch.attempts + 1⟩ else none

def taskStatus (tasks : Dict Nat (Row Task)) (task : Nat) : Option TaskStatus := (tasks.get? task).map (·.data.status)

/-- Steps of the calls. A call may be refused or fail wherever a check of its authority, its sources or another service stands:
a step that is not taken, `leave`, `raises` or `crash`. -/
inductive Step : State → Label → State → Prop where
  | preflight {state : State} {actor digest : String} {steps : List (Kind × Option Result)} {batch : Batch}
      (frozen : preflight digest steps = .ok batch) :
      Step state (.preflight state.drawn) { state.store state.drawn (newRow actor batch) with drawn := state.drawn + 1 }
  | admits {state : State} {rid expected : Nat} {row : Row Batch} {request : Request} (found : state.batches.get? rid = some row)
      (checked : checkRequest row expected request = .ok ()) :
      Step state .silent { state with calls := ⟨request, rid, expected⟩ :: state.calls }
  | commit {state : State} {admitted : Admitted} {row next : Row Batch} {owner : Except Failure Unit} (admits : admitted ∈ state.calls)
      (found : state.batches.get? admitted.batch = some row) (done : commitRequest row admitted.expected owner admitted.request = .ok next) :
      Step state (requestLabel admitted.batch admitted.request)
        { state.store admitted.batch next with calls := state.calls.erase admitted }
  | reconcileRead {state : State} {rid expected : Nat} {row : Row Batch} (found : state.batches.get? rid = some row)
      (checked : checkVersion row expected = .ok ()) :
      Step state .silent { state with reconciles := ⟨rid, row, 0, false, []⟩ :: state.reconciles }
  | reconcilePass {state : State} {before after : List Reconciling} {call : Reconciling} {item : Item}
      (calls : state.reconciles = before ++ call :: after) (there : call.row.data.items[call.index]? = some item) (settled : unsettled item = false) :
      Step state .silent { state with reconciles := before ++ { call with index := call.index + 1, cleared := false } :: after }
  | reconcileClear {state : State} {before after : List Reconciling} {call : Reconciling} {item : Item}
      (calls : state.reconciles = before ++ call :: after) (there : call.row.data.items[call.index]? = some item) (open' : unsettled item = true)
      (inactive : ∀ claim, item.claim = some claim → claim ∉ state.active) :
      Step state .silent { state with reconciles := before ++ { call with cleared := true } :: after }
  | reconcileItem {state : State} {before after : List Reconciling} {call : Reconciling} {item : Item} {actor : String} {bytes : Nat}
      {imageJob : Option (Nat × ImageStatus)} {ledger : Option Ledger} {row : Row Batch} {change : Option Change}
      (calls : state.reconciles = before ++ call :: after) (there : call.row.data.items[call.index]? = some item) (open' : unsettled item = true)
      (cleared : call.cleared = true) (found : state.batches.get? call.batch = some row)
      (inspected : reconcileItem actor call.batch call.row call.index item
        ⟨imageJob, bytes, (fetch item.taskId (.other "KeyError") >>= fun task => Row.data <$> mediaGet row call.batch task state.tasks.get?), ledger⟩ =
          .ok change) :
      Step state .silent { state with reconciles :=
        before ++ { call with index := call.index + 1, cleared := false, changed := call.changed ++ change.toList } :: after }
  | reconcileCommit {state : State} {before after : List Reconciling} {call : Reconciling} {row next : Row Batch}
      (calls : state.reconciles = before ++ call :: after) (ended : call.row.data.items.length ≤ call.index)
      (found : state.batches.get? call.batch = some row) (done : reconcile row call.row.version call.changed = .ok next) :
      Step state .silent { state.store call.batch next with reconciles := before ++ after }
  | enter {state : State} {rid expected index : Nat} {row : Row Batch} {item : Item} (found : state.batches.get? rid = some row)
      (checked : checkDispatch row expected = .ok (index, item)) :
      Step state .silent { state with
        active := state.drawn :: state.active
        dispatches := state.dispatches.set state.drawn ⟨rid, expected, index, item.kind, item.attempts, .entered⟩
        drawn := state.drawn + 1 }
  | start {state : State} {claim : Nat} {dispatch : Dispatch} {row next : Row Batch} (called : state.dispatches.get? claim = some dispatch)
      (phase : dispatch.phase = .entered) (found : state.batches.get? dispatch.batch = some row)
      (done : start row dispatch.expected dispatch.index claim = .ok next) :
      Step state (.started dispatch.batch dispatch.index claim) ((state.store dispatch.batch next).proceed claim dispatch .started)
  | guard {state : State} {claim : Nat} {dispatch : Dispatch} {row : Row Batch} (called : state.dispatches.get? claim = some dispatch)
      (phase : dispatch.phase = .started) (found : state.batches.get? dispatch.batch = some row)
      (passed : checkGuard row dispatch.index claim = .ok ()) : Step state .silent (state.proceed claim dispatch .guarded)
  | produce {state : State} {claim : Nat} {dispatch : Dispatch} {result : Result} (called : state.dispatches.get? claim = some dispatch)
      (phase : dispatch.phase = .guarded) (kind : dispatch.kind = .proof ∨ dispatch.kind = .exportText) :
      Step state .silent (state.proceed claim dispatch (.produced result))
  | bindTask {state : State} {claim : Nat} {dispatch : Dispatch} {row next : Row Batch} {actor : String}
      (called : state.dispatches.get? claim = some dispatch) (phase : dispatch.phase = .guarded) (kind : dispatch.kind.isMedia = true)
      (found : state.batches.get? dispatch.batch = some row)
      (done : bindTask row dispatch.index claim state.drawn (reservationOf dispatch) = .ok next) :
      Step state (.bound dispatch.batch dispatch.index state.drawn)
        { (state.store dispatch.batch next).proceed claim dispatch (.bound state.drawn) with
          tasks := state.tasks.set state.drawn (newRow actor ⟨some (dispatch.batch, dispatch.index), .queued, none⟩)
          drawn := state.drawn + 1 }
  | claimTask {state : State} {claim task : Nat} {dispatch : Dispatch} {row : Row Batch} {original next : Row Task}
      (called : state.dispatches.get? claim = some dispatch) (phase : dispatch.phase = .bound task)
      (found : state.batches.get? dispatch.batch = some row) (reads : mediaGet row dispatch.batch task state.tasks.get? = .ok original)
      (done : claimTask original 1 state.drawn true = .ok next) :
      Step state .silent { state.proceed claim dispatch (.executing task state.drawn) with
        tasks := state.tasks.set task next, drawn := state.drawn + 1 }
  | succeedTask {state : State} {claim task token bytes : Nat} {dispatch : Dispatch} {original : Row Task}
      (called : state.dispatches.get? claim = some dispatch) (phase : dispatch.phase = .executing task token)
      (reads : state.tasks.get? task = some original) (running : original.data.status = .running) (own : original.data.executionToken = some token) :
      Step state .silent { state.proceed claim dispatch (.produced ⟨bytes, none⟩) with
        tasks := state.tasks.set task (settleTask original token .succeeded) }
  | failTask {state : State} {claim task token : Nat} {dispatch : Dispatch} {original : Row Task}
      (called : state.dispatches.get? claim = some dispatch) (phase : dispatch.phase = .executing task token)
      (reads : state.tasks.get? task = some original) :
      Step state .silent { state.proceed claim dispatch .raised with tasks := state.tasks.set task (settleTask original token .failed) }
  | intendImage {state : State} {claim : Nat} {dispatch : Dispatch} {row next : Row Batch} (called : state.dispatches.get? claim = some dispatch)
      (phase : dispatch.phase = .guarded) (kind : dispatch.kind = .studioImage) (found : state.batches.get? dispatch.batch = some row)
      (done : intendImage row dispatch.index claim = .ok next) :
      Step state .silent ((state.store dispatch.batch next).proceed claim dispatch .intended)
  | bindImage {state : State} {claim job : Nat} {dispatch : Dispatch} {row next : Row Batch} (called : state.dispatches.get? claim = some dispatch)
      (phase : dispatch.phase = .intended) (found : state.batches.get? dispatch.batch = some row)
      (done : bindImage row dispatch.index claim job = .ok next) :
      Step state .silent ((state.store dispatch.batch next).proceed claim dispatch (.created job))
  | executeImage {state : State} {claim job bytes : Nat} {dispatch : Dispatch} (called : state.dispatches.get? claim = some dispatch)
      (phase : dispatch.phase = .created job) : Step state .silent (state.proceed claim dispatch (.produced ⟨bytes, some job⟩))
  | raises {state : State} {claim : Nat} {dispatch : Dispatch} (called : state.dispatches.get? claim = some dispatch)
      (stage : dispatch.phase.isStage = true) : Step state .silent (state.proceed claim dispatch .raised)
  | finish {state : State} {claim : Nat} {dispatch : Dispatch} {result : Result} {row next : Row Batch}
      (called : state.dispatches.get? claim = some dispatch) (phase : dispatch.phase = .produced result)
      (found : state.batches.get? dispatch.batch = some row) (done : finish row state.ledger dispatch.index claim result = .ok next) :
      Step state .silent ((state.store dispatch.batch next).leave claim)
  | fail {state : State} {claim : Nat} {dispatch : Dispatch} {row next : Row Batch} (called : state.dispatches.get? claim = some dispatch)
      (phase : dispatch.phase = .raised) (found : state.batches.get? dispatch.batch = some row)
      (done : fail row (taskStatus state.tasks) (fun reservation => (state.ledger reservation).map Ledger.status) dispatch.kind dispatch.index claim =
        .ok next) : Step state .silent ((state.store dispatch.batch next).leave claim)
  /-- A call of `dispatch` ends where it stands outside a stage, or where `fail` itself raises. -/
  | leave {state : State} {claim : Nat} {dispatch : Dispatch} (called : state.dispatches.get? claim = some dispatch)
      (outside : dispatch.phase.isStage = false) : Step state .silent (state.leave claim)
  /-- The broker changes its ledger. -/
  | broker {state : State} (ledger : ReservationId → Option Ledger) : Step state .silent { state with ledger }
  /-- The media service queues a task of its own. -/
  | queueTask {state : State} {actor : String} : Step state .silent { state with
      tasks := state.tasks.set state.drawn (newRow actor ⟨none, .queued, none⟩), drawn := state.drawn + 1 }
  /-- The media service controls a task, or executes it without a batch. -/
  | controlTask {state : State} {task expected : Nat} {action : TaskAction} {live : List Nat} {original next : Row Task}
      (reads : state.tasks.get? task = some original) (done : transitionTask original expected action live = .ok next) :
      Step state .silent { state with tasks := state.tasks.set task next }
  | executeTask {state : State} {task expected token : Nat} {status : TaskStatus} {original next : Row Task}
      (reads : state.tasks.get? task = some original) (done : claimTask original expected token false = .ok next) :
      Step state .silent { state with tasks := state.tasks.set task (settleTask next token status) }
  /-- The process stops: its calls are gone. -/
  | crash {state : State} : Step state .silent { state with active := [], dispatches := ∅, calls := [], reconciles := [] }

end NovelStudio.Batches
