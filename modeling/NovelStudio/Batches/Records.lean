import NovelStudio.Experimental.Rows

/-! Safe batches (`safe_batches.py`): their rows, and what each store transaction does to one. -/

namespace NovelStudio.Batches

open Library Experimental

def MAX_RESULT : Nat := 2 * 1024 * 1024
def MAX_TOTAL_RESULT : Nat := 4 * 1024 * 1024

/-- The kind of an item: `PROOF`, `EXPORT`, and so on. -/
inductive Kind where
  | proof | exportText | syntheticMedia | registeredMedia | voiceRedo | studioImage
  deriving DecidableEq

/-- The kinds whose original task is one of the media service. -/
def Kind.isMedia (kind : Kind) : Bool := kind = .syntheticMedia || kind = .registeredMedia

inductive ItemStatus where
  | pending | running | unknown | completed | skipped | cancelled | failed
  deriving DecidableEq

inductive BatchStatus where
  | preflight | ready | running | partially | unknown | completed | cancelled
  deriving DecidableEq

/-- What an item has to show, as far as a batch reads it. -/
structure Result where
  /-- `len(canonical(result).encode())`. -/
  bytes : Nat
  imageJob : Option Nat
  deriving DecidableEq

/-- `digest([actor, 'batch:rid:index:attempt'])`, by what it digests. -/
structure ReservationId where
  batch : Nat
  index : Nat
  attempt : Nat
  deriving DecidableEq

/-- An item, with the kind of its step in the snapshot. -/
structure Item where
  kind : Kind
  status : ItemStatus
  attempts : Nat
  result : Option Result
  claim : Option Nat
  errorCode : Option String
  taskId : Option Nat
  reservationId : Option ReservationId
  imageCreateIntent : Bool
  imageJobId : Option Nat
  deriving DecidableEq

structure Approval where
  snapshotDigest : String
  approvedVersion : Nat
  deriving DecidableEq

structure Batch where
  snapshotDigest : String
  status : BatchStatus
  confirmed : Bool
  approvals : List Approval
  items : List Item
  deriving DecidableEq

def Batch.item (batch : Batch) (index : Nat) : Except Failure Item := fetch batch.items[index]? (.other "IndexError")

def Batch.change (batch : Batch) (index : Nat) (change : Item → Item) : Batch := { batch with items := batch.items.modify index change }

inductive TaskStatus where
  | queued | running | succeeded | failed | cancelled
  deriving DecidableEq

structure Task where
  /-- `safe_batch_id` and `safe_batch_index`. -/
  safeBatch : Option (Nat × Nat)
  status : TaskStatus
  executionToken : Option Nat
  deriving DecidableEq

inductive LedgerStatus where
  | reserved | dispatched | unknownUpstream | settled | released | reconciled
  deriving DecidableEq

structure Ledger where
  status : LedgerStatus
  createdBy : String
  jobId : Nat
  authorizationDigest : String
  actualMicrousd : Option Nat
  overrun : Bool
  dispatched : Bool
  originalExecutorStoppedConfirmed : Bool

inductive ImageStatus where
  | queued | running | awaitingReview | approved | failed | cancelled
  deriving DecidableEq

/-- `media.get` of a task in the context of a batch that owns it, whose row is `row`. -/
def mediaGet (row : Row Batch) (rid taskId : Nat) (tasks : Nat → Option (Row Task)) : Except Failure (Row Task) := do
  let task ← fetch (tasks taskId) (.notFound "media record unavailable")
  match task.data.safeBatch with
  | none => return task
  | some (owner, index) =>
    reject (owner ≠ rid || row.data.status = .cancelled || (row.data.items[index]?.bind Item.taskId) ≠ some taskId)
      (.notFound "media record unavailable")
    return task

/-- The claim of `media.execute`; a batch's task wants the guard of the batch. -/
def claimTask (row : Row Task) (expected token : Nat) (guarded : Bool) : Except Failure (Row Task) := do
  reject (row.data.safeBatch.isSome && !guarded) (.value "SAFE_BATCH_DISPATCH_AUTHORITY_REQUIRED")
  reject (row.data.status ≠ .queued) (.value "MEDIA_TASK_NOT_QUEUED")
  advance row expected fun task => { task with status := .running, executionToken := some token }

/-- The end of `media.execute`, where the task is still the one that it claimed. -/
def settleTask (row : Row Task) (token : Nat) (status : TaskStatus) : Row Task :=
  if row.data.status = .running && row.data.executionToken = some token then bump row fun task => { task with status } else row

inductive TaskAction where
  | cancel | retry

/-- `media.transition`; `live` are the tokens of the calls of `media.execute` that run. -/
def transitionTask (row : Row Task) (expected : Nat) (action : TaskAction) (live : List Nat) : Except Failure (Row Task) := do
  reject row.data.safeBatch.isSome (.value "SAFE_BATCH_CONTROL_REQUIRED")
  match action with
  | .cancel => do
    reject (row.data.status ≠ .queued && row.data.status ≠ .running) (.value "MEDIA_TASK_TRANSITION_INVALID")
    advance row expected fun task => { task with status := .cancelled, executionToken := none }
  | .retry => do
    reject (row.data.status ≠ .failed && row.data.status ≠ .cancelled &&
      !(row.data.status = .running && !row.data.executionToken.any (· ∈ live))) (.value "MEDIA_TASK_TRANSITION_INVALID")
    advance row expected fun task => { task with status := .queued, executionToken := none }

/-- `AudiobookV2Service._require_candidate_write_capacity`. -/
def requireCandidateWriteCapacity : Except Failure Unit := throw (.value "AUDIO_CAPACITY_WRITE_UNAVAILABLE")

def requireStageWriteCapacity (kind : Kind) : Except Failure Unit := onlyIf (kind = .voiceRedo) requireCandidateWriteCapacity

/-- `_require_voice_only_confirmation_capacity`. -/
def requireVoiceOnlyConfirmationCapacity (batch : Batch) : Except Failure Unit :=
  onlyIf (batch.items ≠ [] && batch.items.all (·.kind = .voiceRedo)) requireCandidateWriteCapacity

/-- The item of a step, where an earlier batch has a result of the same fingerprint or none. -/
def newItem (step : Kind × Option Result) : Item :=
  ⟨step.1, if step.2.isSome then .skipped else .pending, 0, step.2, none, none, none, none, false, none⟩

/-- `preflight`, as far as the row that it stores. -/
def preflight (digest : String) (steps : List (Kind × Option Result)) : Except Failure Batch := do
  onlyIf (steps.any (·.1 = .voiceRedo)) requireCandidateWriteCapacity
  return ⟨digest, .preflight, false, [], steps.map newItem⟩

/-- What `confirm` checks of the row that it reads. -/
def checkConfirm (row : Row Batch) (expected : Nat) (digest : String) : Except Failure Unit := do
  checkVersion row expected
  reject (row.data.status ≠ .preflight || digest ≠ row.data.snapshotDigest) (.value "BATCH_CONFIRMATION_CHANGED")
  requireVoiceOnlyConfirmationCapacity row.data

/-- The transaction of `confirm`. -/
def confirm (row : Row Batch) (expected : Nat) : Except Failure (Row Batch) := do
  checkVersion row expected
  requireVoiceOnlyConfirmationCapacity row.data
  advance row expected fun batch => { batch with
    approvals := batch.approvals ++ [⟨batch.snapshotDigest, row.version⟩]
    confirmed := true
    status := if batch.items.any (·.status = .pending) then .ready else .completed }

/-- What `dispatch` checks of the row that it reads: the item that it is to start. -/
def checkDispatch (row : Row Batch) (expected : Nat) : Except Failure (Nat × Item) := do
  checkVersion row expected
  reject ((row.data.status ≠ .ready && row.data.status ≠ .partially) || !row.data.confirmed) (.value "BATCH_CONFIRM_BEFORE_EXECUTION")
  let index := row.data.items.findIdx (·.status = .pending)
  let item ← fetch row.data.items[index]? (.value "BATCH_NO_PENDING_ITEM")
  requireStageWriteCapacity item.kind
  return (index, item)

/-- The first transaction of `dispatch`. -/
def start (row : Row Batch) (expected index claim : Nat) : Except Failure (Row Batch) := do
  checkVersion row expected
  let item ← row.data.item index
  requireStageWriteCapacity item.kind
  advance row expected fun batch => { batch.change index (fun item =>
    { item with status := .running, claim := some claim, attempts := item.attempts + 1 }) with status := .running }

/-- `guard` of a dispatch, as far as the row decides. -/
def checkGuard (row : Row Batch) (index claim : Nat) : Except Failure Unit := do
  let item ← row.data.item index
  reject (row.data.status ≠ .running || item.claim ≠ some claim || item.status ≠ .running) (.value "BATCH_STOPPED")

/-- The row with the task of a media item. It is no new version. -/
def bindTask (row : Row Batch) (index claim task : Nat) (reservation : Option ReservationId) : Except Failure (Row Batch) := do
  checkGuard row index claim
  return { row with data := row.data.change index fun item => { item with taskId := some task, reservationId := reservation } }

/-- The row with the intent to create an image job. -/
def intendImage (row : Row Batch) (index claim : Nat) : Except Failure (Row Batch) := do
  checkGuard row index claim
  let item ← row.data.item index
  reject (item.imageCreateIntent || item.imageJobId.isSome) (.value "BATCH_STUDIO_IMAGE_ALREADY_SENT")
  return { row with data := row.data.change index fun item => { item with imageCreateIntent := true } }

def bindImage (row : Row Batch) (index claim job : Nat) : Except Failure (Row Batch) := do
  checkGuard row index claim
  return { row with data := row.data.change index fun item => { item with imageJobId := some job, taskId := some job } }

/-- The bytes of a result, or of `null`. -/
def resultBytes (result : Option Result) : Nat := (result.map Result.bytes).getD 4

/-- The status of a batch behind a stage. -/
def settledStatus (items : List Item) : BatchStatus :=
  if items.any (·.status = .unknown) then .unknown
  else if items.any (·.status = .pending) then .ready
  else if items.any (·.status = .failed) then .partially
  else .completed

/-- What `finish` makes of an item, with the ledger row of its reservation. -/
def finished (result : Result) (ledger : Option Ledger) (item : Item) : Item :=
  let done := { item with status := .completed, result := some result, claim := none }
  if ledger.any (·.status = .unknownUpstream) then
    { done with status := .unknown, errorCode := some "BATCH_ORIGINAL_COST_RECONCILIATION_REQUIRED" }
  else done

/-- The ledger row of the reservation of an item, if it has one. -/
def reservedLedger (ledgers : ReservationId → Option Ledger) (item : Item) : Except Failure (Option Ledger) :=
  match item.reservationId with
  | none => return none
  | some reservation => some <$> fetch (ledgers reservation) (.other "KeyError")

/-- The last transaction of a dispatch that has a result. -/
def finish (row : Row Batch) (ledgers : ReservationId → Option Ledger) (index claim : Nat) (result : Result) : Except Failure (Row Batch) := do
  reject (MAX_RESULT < result.bytes) (.value "BATCH_RESULT_LIMIT")
  checkGuard row index claim
  reject (MAX_TOTAL_RESULT < (row.data.items.map (resultBytes ·.result)).sum + result.bytes) (.value "BATCH_TOTAL_RESULT_LIMIT")
  let item ← row.data.item index
  let ledger ← reservedLedger ledgers item
  return bump row fun batch =>
    let items := batch.items.modify index (finished result ledger)
    { batch with items, status := settledStatus items }

/-- Whether the outcome of a stage that raised is unknown. -/
def outcomeUnknown (kind : Kind) (task : Option TaskStatus) (ledger : Option LedgerStatus) : Bool :=
  kind = .studioImage || task = some .running || task = some .succeeded || ledger = some .dispatched || ledger = some .unknownUpstream

/-- The last transaction of a dispatch whose stage raised. -/
def fail (row : Row Batch) (tasks : Nat → Option TaskStatus) (ledgers : ReservationId → Option LedgerStatus) (kind : Kind) (index claim : Nat) :
    Except Failure (Row Batch) := do
  let item ← row.data.item index
  let unknown := outcomeUnknown kind (item.taskId.bind tasks) (item.reservationId.bind ledgers)
  if row.data.status = .running && item.claim = some claim then
    return bump row fun batch => { batch.change index (fun item => { item with
      status := if unknown then .unknown else .failed
      errorCode := some (if unknown then "BATCH_ORIGINAL_RECEIPT_RECONCILIATION_REQUIRED" else "BATCH_DOMAIN_FAILED_RECHECK_BEFORE_RETRY")
      claim := none }) with status := if unknown then .unknown else .partially }
  else return row

/-- What `stop` checks of the row that it reads. -/
def checkStop (row : Row Batch) (expected : Nat) : Except Failure Unit := do
  checkVersion row expected
  reject (row.data.status = .completed || row.data.status = .cancelled) (.value "BATCH_ALREADY_TERMINAL")

/-- The transaction of `stop`; `owner` is its check of the project that owns the images. -/
def stop (row : Row Batch) (expected : Nat) (owner : Except Failure Unit) : Except Failure (Row Batch) := do
  checkVersion row expected
  onlyIf (row.data.items.any (·.kind = .studioImage)) owner
  advance row expected fun batch => { batch with
    status := .cancelled
    confirmed := false
    items := batch.items.map fun item =>
      if item.status = .pending || item.status = .running then { item with status := .cancelled, claim := none } else item }

def retried (item : Item) : Bool := item.status = .failed && item.kind ≠ .studioImage

/-- What `retry_failed` checks of the row that it reads. -/
def checkRetryFailed (row : Row Batch) (expected : Nat) : Except Failure Unit := do
  checkVersion row expected
  reject (row.data.status ≠ .partially || row.data.items.any (fun item => item.status = .running || item.status = .unknown) ||
    !row.data.items.any (·.status = .failed)) (.value "BATCH_ONLY_FAILED_RETRY_UNKNOWN_MUST_RECONCILE")
  reject (!row.data.items.any retried) (.value "BATCH_STUDIO_IMAGE_NO_REPLAY")
  row.data.items.forM fun item => onlyIf (item.status = .failed) (requireStageWriteCapacity item.kind)

/-- The transaction of `retry_failed`. -/
def retryFailed (row : Row Batch) (expected : Nat) : Except Failure (Row Batch) :=
  advance row expected fun batch => { batch with
    status := .preflight
    confirmed := false
    items := batch.items.map fun item =>
      if retried item then { item with status := .pending, claim := none, errorCode := none, taskId := none, reservationId := none } else item }

/-- What `reconcile` found of an item. -/
structure Change where
  index : Nat
  /-- Whether the original executor completed it. -/
  completed : Bool
  result : Option Result
  deriving DecidableEq

/-- What `reconcile` reads of the original executor of an item. -/
structure Receipt where
  imageJob : Option (Nat × ImageStatus)
  /-- The size of the result of the image job, or of the proposals. -/
  bytes : Nat
  /-- `media.get` of its task. -/
  task : Except Failure Task
  ledger : Option Ledger

/-- What an image job says of its item. -/
def reconcileImage (index : Nat) (receipt : Receipt) : Option Change :=
  match receipt.imageJob with
  | some (job, .awaitingReview) | some (job, .approved) => some ⟨index, true, some ⟨receipt.bytes, some job⟩⟩
  | some (_, .failed) | some (_, .cancelled) => some ⟨index, false, none⟩
  | _ => none

/-- The ledger row of an item, where it has settled; or that it is not the item's. -/
def checkLedger (actor : String) (row : Row Batch) (task : Nat) (ledger : Ledger) : Except Failure Bool := do
  reject (ledger.createdBy ≠ actor || ledger.jobId ≠ task || ledger.authorizationDigest ≠ row.data.snapshotDigest)
    (.value "BATCH_ORIGINAL_RESERVATION_BINDING_CHANGED")
  if ledger.status = .settled || ledger.status = .released || ledger.status = .reconciled then
    reject (ledger.actualMicrousd ≠ some 0 || ledger.overrun) (.value "BATCH_ZERO_BUDGET_OVERRUN_REVIEW_REQUIRED")
    return true
  else return false

/-- What a media task says of its item. -/
def reconcileTask (index : Nat) (bytes : Nat) (task : Task) (ledger : Option Ledger) : Option Change :=
  match task.status with
  | .succeeded => some ⟨index, true, some ⟨bytes, none⟩⟩
  | .failed | .cancelled => some ⟨index, false, none⟩
  | .queued =>
    if ledger.any fun ledger => ledger.status = .reconciled && !ledger.dispatched && ledger.originalExecutorStoppedConfirmed then
      some ⟨index, false, none⟩
    else none
  | .running => none

/-- The body of the loop of `reconcile` behind its check of `ACTIVE`. -/
def reconcileItem (actor : String) (rid : Nat) (row : Row Batch) (index : Nat) (item : Item) (receipt : Receipt) : Except Failure (Option Change) := do
  if item.kind = .studioImage then return reconcileImage index receipt
  else
    match item.taskId with
    | none => return none
    | some taskId => do
      let task ← receipt.task
      reject (task.safeBatch ≠ some (rid, index)) (.value "BATCH_ORIGINAL_TASK_BINDING_CHANGED")
      match item.reservationId with
      | none => return reconcileTask index receipt.bytes task none
      | some _ => do
        let ledger ← fetch receipt.ledger (.notFound "ledger unavailable")
        if ← checkLedger actor row taskId ledger then return reconcileTask index receipt.bytes task (some ledger)
        else return none

/-- An item that `reconcile` looks at. -/
def unsettled (item : Item) : Bool := item.status = .running || item.status = .unknown

def reconciled (change : Change) (item : Item) : Item :=
  let settled := { item with
    status := if change.completed then .completed else .failed
    result := change.result
    claim := none
    errorCode := none }
  match change.result.bind Result.imageJob with
  | some job => { settled with imageJobId := some job, taskId := some job }
  | none => settled

/-- The status of a batch behind a reconciliation. -/
def reconciledStatus (status : BatchStatus) (items : List Item) : BatchStatus :=
  if status = .cancelled then .cancelled
  else if items.any unsettled then .unknown
  else settledStatus items

/-- The transaction of `reconcile`. -/
def reconcile (row : Row Batch) (expected : Nat) (changed : List Change) : Except Failure (Row Batch) := do
  reject changed.isEmpty (.value "BATCH_NO_TERMINAL_ORIGINAL_RECEIPT_RECONCILE_ORIGINAL_EXECUTOR_FIRST")
  advance row expected fun batch =>
    let items := changed.foldl (fun items change => items.modify change.index (reconciled change)) batch.items
    { batch with items, status := reconciledStatus batch.status items }

end NovelStudio.Batches
