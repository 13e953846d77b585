import Mathlib.Data.List.Basic
import NovelStudio.Library.Interleaving

/-! Generation jobs: what a manager keeps of a job in memory, what of it is persisted
and shown, and what a restarted manager makes of a persisted record. -/

namespace NovelStudio.Jobs

/-- `Job.status`. -/
inductive Status where
  | prepared | queued | running | generating | settling
  | completed | failed | cancelled | accepting | accepted | rejected | acceptanceUncertain
deriving DecidableEq

namespace Status

/-- `JobManager.terminal`. -/
def terminal : Status → Bool
  | completed | failed | cancelled | accepted | rejected | accepting | acceptanceUncertain => true
  | prepared | queued | running | generating | settling => false

/-- The statuses a restarted manager finds interrupted. -/
def interrupted : Status → Bool
  | settling | running | generating | queued | prepared => true
  | completed | failed | cancelled | accepted | rejected | accepting | acceptanceUncertain => false

@[simp] theorem interrupted_eq (status : Status) : status.interrupted = !status.terminal := by
  cases status <;> rfl

end Status

/-- `Job.terminal_hook_status`. -/
inductive HookStatus where
  | completed | failedReconciliationRequired | missingReconciliationRequired | persistenceUncertain
deriving DecidableEq

/-- `Job.execution_outcome`. -/
inductive Outcome where
  | completed | cancelled | failed | unknown
deriving DecidableEq

/-- `Job.error_code`. -/
inductive ErrorCode where
  | terminalPersistenceUncertain | terminalReconciliationRequired | acceptanceReviewRequired
  | settlementRecoveryRequired | authorityRevoked | boundFailure | generationFailed
deriving DecidableEq

/-- Which engine runs the job: the author pipeline, or one of the isolated proposals. -/
inductive Kind where
  | author | adaptation | graph | director
deriving DecidableEq

/-- A job in a manager's memory. `hooked` says that `on_terminal` is callable and
`live` that a request authorization guards its publication; both are lost on restart.
`draftOnly` is the review policy of the job's origin and features. -/
structure Job where
  kind : Kind
  experimentalOrigin : Bool
  draftOnly : Bool
  live : Bool
  hooked : Bool
  status : Status
  output : String
  errorCode : Option ErrorCode
  executionOutcome : Option Outcome
  dispatchHooksRequired : Bool
  terminalHookStatus : Option HookStatus
  terminalHookCalled : Bool
  cancelled : Bool
  generationBoundFailure : Bool
deriving DecidableEq

structure Record where
  kind : Kind
  experimentalOrigin : Bool
  draftOnly : Bool
  status : Status
  output : String
  errorCode : Option ErrorCode
  executionOutcome : Option Outcome
  dispatchHooksRequired : Bool
  terminalHookStatus : Option HookStatus
deriving DecidableEq

/-- One assignment to a field of a job. -/
inductive Change where
  | status (value : Status)
  | output (value : String)
  | errorCode (value : Option ErrorCode)
  | executionOutcome (value : Option Outcome)
  | dispatchHooksRequired
  | terminalHookStatus (value : HookStatus)
  | terminalHookCalled
  | cancelled
  | generationBoundFailure
deriving DecidableEq

namespace Job

def set (job : Job) : Change → Job
  | .status value => { job with status := value }
  | .output value => { job with output := value }
  | .errorCode value => { job with errorCode := value }
  | .executionOutcome value => { job with executionOutcome := value }
  | .dispatchHooksRequired => { job with dispatchHooksRequired := true }
  | .terminalHookStatus value => { job with terminalHookStatus := some value }
  | .terminalHookCalled => { job with terminalHookCalled := true }
  | .cancelled => { job with cancelled := true }
  | .generationBoundFailure => { job with generationBoundFailure := true }

/-- Whether a terminal hook has to settle the job. -/
def settles (job : Job) : Bool := job.dispatchHooksRequired || job.hooked

/-- The status `public` shows: an unsettled completion is still settling. -/
def publicStatus (job : Job) : Status :=
  if job.status = .completed ∧ job.settles ∧ job.terminalHookStatus = none then .settling else job.status

/-- `record`, the persisted projection. -/
def record (job : Job) : Record where
  kind := job.kind
  experimentalOrigin := job.experimentalOrigin
  draftOnly := job.draftOnly
  status := job.publicStatus
  output := job.output
  errorCode := job.errorCode
  executionOutcome := if job.experimentalOrigin || job.dispatchHooksRequired then job.executionOutcome else none
  dispatchHooksRequired := job.dispatchHooksRequired
  terminalHookStatus := job.terminalHookStatus

/-- `_isolated_generation`. -/
def isolated (job : Job) : Bool := job.kind != .author

/-- `require_whole_generation_acceptance`. -/
def acceptsWhole (job : Job) : Bool := job.kind == .author && !job.draftOnly

/-- `require_generation_accounting`. -/
def accounted (job : Job) : Bool := !job.settles || job.terminalHookStatus == some .completed

/-- Whether the publication of the draft waits for a live authorization. -/
def ordinaryPublication (job : Job) : Bool := job.live && job.kind != .director && job.kind != .graph

end Job

namespace Record

/-- The fields an acceptance copies from the stored record, in their order. Fields the
record does not hold are left as they are. -/
def items (record : Record) : List Change :=
  [.status record.status, .output record.output, .errorCode record.errorCode] ++
    (if record.executionOutcome.isSome then [.executionOutcome record.executionOutcome] else []) ++
    (if record.dispatchHooksRequired then [.dispatchHooksRequired] else []) ++
    (match record.terminalHookStatus with
      | some value => [.terminalHookStatus value]
      | none => [])

/-- The job a restarted manager builds; nothing transient survives. -/
def revived (record : Record) : Job where
  kind := record.kind
  experimentalOrigin := record.experimentalOrigin
  draftOnly := record.draftOnly
  live := false
  hooked := false
  status := record.status
  output := record.output
  errorCode := record.errorCode
  executionOutcome := record.executionOutcome
  dispatchHooksRequired := record.dispatchHooksRequired
  terminalHookStatus := record.terminalHookStatus
  terminalHookCalled := false
  cancelled := false
  generationBoundFailure := false

/-- `_restore_job`: an interrupted job has failed, and an interrupted settlement has to
be reconciled. -/
def restored (record : Record) : Job :=
  if record.status = .settling then
    { record.revived with
      status := .failed, errorCode := some .settlementRecoveryRequired, dispatchHooksRequired := true,
      terminalHookStatus := some .missingReconciliationRequired,
      output := if record.kind = .director then "" else record.output }
  else if record.status.interrupted then
    { record.revived with status := .failed, output := if record.kind = .director then "" else record.output }
  else record.revived

end Record

end NovelStudio.Jobs

/-! The atomic operations of the job manager's methods on one job, and the world they
share: the persisted record, the managers' copies of the job, the
locks, the manuscript and the terminal hook. -/

namespace NovelStudio.Jobs
open Library

/-- A call running in the process of a manager. -/
structure Thread where
  manager : Nat
  serial : Nat
deriving DecidableEq

/-- A persisted record and the call that saved it. -/
structure Saved where
  saver : Thread
  record : Record
deriving DecidableEq

/-- Everything that concerns one job: its file, each manager's copy, the review lock all
managers share, the lock of each copy, how often the candidate was written to the
chapter, and how often the terminal hook was called and whether it returned. -/
structure World where
  file : Option Saved
  jobs : Nat → Option Job
  review : Option Thread
  condition : Nat → Option Thread
  written : Nat
  hookCalls : Nat
  settled : Bool

namespace World

def stored (world : World) : Option Record := world.file.map Saved.record

def setJob (world : World) (manager : Nat) (job : Job) : World :=
  { world with jobs := Function.update world.jobs manager (some job) }

def hold (world : World) (manager : Nat) (holder : Option Thread) : World :=
  { world with condition := Function.update world.condition manager holder }

def save (world : World) (saver : Thread) (record : Record) : World :=
  { world with file := some ⟨saver, record⟩ }

def write (world : World) : World := { world with written := world.written + 1 }

end World

/-- One operation of a method. A check or a call whose result the manager does not
control is `ask`; a call that may raise answers whether it returned. -/
inductive Op where
  | lockReview | unlockReview | lockJob | unlockJob
  | find | readJob | set (change : Change) | install (job : Job)
  | readStored | save (record : Record)
  | ask | writeChapter | readChapter | callHook

def Op.Answer : Op → Type
  | .lockReview | .unlockReview | .lockJob | .unlockJob | .set _ | .install _ => Unit
  | .find => Option Job
  | .readJob => Job
  | .readStored => Option Record
  | .save _ | .ask | .writeChapter | .readChapter | .callHook => Bool

/-- How a call that may raise ends: it returns, it raises without effect, or it raises
after its effect. -/
inductive Fate where
  | returns | raises | raisesAfter
deriving DecidableEq

abbrev Routine := Program Op Op.Answer

/-- What an operation does; an operation that has to wait does not happen. -/
def execute (thread : Thread) : (op : Op) → Fate → World → Option (op.Answer × World)
  | .lockReview, _, world =>
    match world.review with
    | none => some ((), { world with review := some thread })
    | some _ => none
  | .unlockReview, _, world => some ((), { world with review := none })
  | .lockJob, _, world =>
    match world.condition thread.manager with
    | none => some ((), world.hold thread.manager (some thread))
    | some _ => none
  | .unlockJob, _, world => some ((), world.hold thread.manager none)
  | .find, _, world => some (world.jobs thread.manager, world)
  | .readJob, _, world => (world.jobs thread.manager).map fun job => (job, world)
  | .set change, _, world =>
    (world.jobs thread.manager).map fun job => ((), world.setJob thread.manager (job.set change))
  | .install job, _, world =>
    match world.jobs thread.manager with
    | none => some ((), world.setJob thread.manager job)
    | some _ => none
  | .readStored, _, world => some (world.stored, world)
  | .save record, fate, world =>
    match fate with
    | .returns => some (true, world.save thread record)
    | .raises => some (false, world)
    | .raisesAfter => some (false, world.save thread record)
  | .ask, fate, world | .readChapter, fate, world => some (decide (fate = .returns), world)
  | .writeChapter, fate, world =>
    match fate with
    | .returns => some (true, world.write)
    | .raises => some (false, world)
    | .raisesAfter => some (false, world.write)
  | .callHook, fate, world =>
    let called := { world with hookCalls := world.hookCalls + 1 }
    if fate = .returns then some (true, { called with settled := true }) else some (false, called)

end NovelStudio.Jobs
