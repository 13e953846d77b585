import NovelStudio.Jobs.Job

/-! The methods of `JobManager` on one job. A routine that may raise answers whether it
returned; one that answers nothing has handled or reported its failure. -/

namespace NovelStudio.Jobs
open Library Program

def find : Routine (Option Job) := one Op.find
def readJob : Routine Job := one Op.readJob
def set (change : Change) : Routine Unit := one (Op.set change)
def install (job : Job) : Routine Unit := one (Op.install job)
def readStored : Routine (Option Record) := one Op.readStored
def save (record : Record) : Routine Bool := one (Op.save record)
def ask : Routine Bool := one Op.ask
def writeChapter : Routine Bool := one Op.writeChapter
def readChapter : Routine Bool := one Op.readChapter
def callHook : Routine Bool := one Op.callHook

def setIf (holds : Bool) (change : Change) : Routine Unit := if holds then set change else pure ()

/-- `with self._review_mutation(job.id)`. -/
def withReview {α : Type} (body : Routine α) : Routine α := do
  let _ ← one Op.lockReview
  let value ← body
  let _ ← one Op.unlockReview
  pure value

/-- `with job.condition`. -/
def withJob {α : Type} (body : Routine α) : Routine α := do
  let _ ← one Op.lockJob
  let value ← body
  let _ ← one Op.unlockJob
  pure value

def persist : Routine Bool := do
  let job ← readJob
  save job.record

/-- What `_emit` does when the save raises: an isolated proposal that is terminal keeps
only a receipt of it, anything else raises. -/
def emitFailure : Routine Bool := do
  let ownerGone ← ask
  let job ← readJob
  if job.status.terminal && (job.kind == .director || job.isolated && ownerGone) then do
    set (.output "")
    setIf (job.status == .completed) (.status .failed)
    set (.errorCode (some .terminalPersistenceUncertain))
    pure true
  else pure false

/-- `_emit` without a chunk. Its callers hold the condition, which it enters again. -/
def emit : Routine Bool := do
  if ← persist then pure true else emitFailure

/-- `_emit` with a chunk. -/
def emitChunk (chunk : String) : Routine Bool := do
  let job ← readJob
  setIf (!job.cancelled && !job.status.terminal) (.output (job.output ++ chunk))
  emit

/-- `_finish_terminal_hook` for a job without a callable hook. -/
def reportMissingHook (required : Bool) : Routine Unit :=
  if required then do
    set (.terminalHookStatus .missingReconciliationRequired)
    if ← persist then pure () else set (.terminalHookStatus .persistenceUncertain)
  else pure ()

/-- The outcome a settlement claims when the execution left none. -/
def outcomeOf : Status → Outcome
  | .completed => .completed
  | .cancelled => .cancelled
  | .failed => .failed
  | _ => .unknown

/-- What a raising hook leaves: the first assignment is visible before the second. -/
def hookFailed : Routine Unit := do
  let job ← readJob
  setIf job.isolated (.output "")
  set (.terminalHookStatus .failedReconciliationRequired)
  let job ← readJob
  setIf (job.status == .completed || !job.status.terminal) (.status .failed)
  set (.errorCode (some .terminalReconciliationRequired))

/-- `terminal_hook()` and what it leaves. -/
def callTerminalHook : Routine Unit := do
  if ← callHook then set (.terminalHookStatus .completed) else hookFailed

/-- `publication_guard`, which a live publication runs after its settlement. -/
def guardPublication (guarded : Bool) : Routine Unit := do
  let job ← readJob
  if guarded && (job.status == .settling || job.status == .failed) then do
    if ← ask then pure ()
    else do
      set (.output "")
      setIf (job.status == .settling) (.status .failed)
      setIf (job.status == .settling) (.errorCode (some .authorityRevoked))
  else pure ()

/-- The settlement could not be saved. -/
def settlementUncertain : Routine Unit := do
  let job ← readJob
  setIf job.isolated (.output "")
  set (.terminalHookStatus .persistenceUncertain)
  setIf (job.status == .completed || job.status == .settling) (.status .failed)
  setIf (job.errorCode != some .terminalPersistenceUncertain) (.errorCode (some .terminalReconciliationRequired))

/-- `_finish_terminal_hook` for a job with its hook not claimed yet. -/
def settle (guarded : Bool) : Routine Unit := do
  set .terminalHookCalled
  let job ← readJob
  setIf job.executionOutcome.isNone (.executionOutcome (some (outcomeOf job.status)))
  callTerminalHook
  guardPublication guarded
  if ← persist then pure () else settlementUncertain

/-- `_finish_terminal_hook` under the condition. -/
def finishHeld (guarded : Bool) : Routine Unit := do
  let job ← readJob
  if job.terminalHookCalled || job.terminalHookStatus.isSome then pure ()
  else if job.hooked then settle guarded
  else reportMissingHook job.dispatchHooksRequired

def finishTerminalHook : Routine Unit := withJob (finishHeld false)

/-- Another attempt to finish a job that is there. -/
def finish : Routine Unit := do
  match ← find with
  | none => pure ()
  | some _ => finishTerminalHook

/-- `_cancel_execution` under the condition. -/
def cancelHeld : Routine Bool := do
  let job ← readJob
  if job.status.terminal then pure true
  else do
    set (.status .cancelled)
    setIf job.isolated (.output "")
    setIf (job.executionOutcome != some .completed) (.executionOutcome (some .cancelled))
    emit

def cancel : Routine Unit := do
  match ← find with
  | none => pure ()
  | some _ =>
    set .cancelled
    let job ← readJob
    if job.status.terminal then pure ()
    else do
      let _ ← withJob cancelHeld
      pure ()

/-- Where a piece of the worker leaves it: it goes on, returns, or raises. -/
inductive Ending where
  | goesOn | returns | raises
deriving DecidableEq

/-- The ending of a piece that returns unless it raises. -/
def Ending.returning (returned : Bool) : Ending := if returned then .returns else .raises

/-- The ending of a piece that goes on unless it raises. -/
def Ending.going (returned : Bool) : Ending := if returned then .goesOn else .raises

/-- `self._cancel_execution(job); return`. -/
def stopCancelled : Routine Ending := do
  let returned ← cancelHeld
  pure (.returning returned)

/-- A refusal of `check_generation_bounds`. -/
def refuseBounds : Routine Ending := do
  set .generationBoundFailure
  set (.output "")
  set .cancelled
  pure .raises

def claim : Routine Ending := do
  let job ← readJob
  if job.status.terminal then pure .returns
  else if job.cancelled then stopCancelled
  else do
    set (.status .generating)
    let returned ← emit
    pure (.going returned)

/-- What the routes and the provider's stream do next. -/
inductive Happening where
  | route | snapshot | delta (text : String) | completed | cancelled | failed | bounds | failure
deriving DecidableEq

/-- A delta of the stream: the bounds, the live authorization, then the text. -/
def streamDelta (text : String) : Routine Ending := do
  if ← ask then do
    if ← ask then do
      let job ← readJob
      if job.status.terminal then pure .returns
      else if job.cancelled then stopCancelled
      else do
        let returned ← emitChunk text
        pure (.going returned)
    else pure .raises
  else refuseBounds

/-- The provider has completed: the bounds, and a live job keeps the outcome even when it
may not publish it. -/
def streamCompleted : Routine Ending := do
  if ← ask then do
    let job ← readJob
    setIf job.ordinaryPublication (.executionOutcome (some .completed))
    if ← ask then do
      let job ← readJob
      pure (if job.ordinaryPublication && job.status.terminal then .returns else .goesOn)
    else pure .raises
  else refuseBounds

def streamEvent (happening : Happening) : Routine Ending := do
  let job ← readJob
  if job.status.terminal then pure .returns
  else if job.cancelled then stopCancelled
  else match happening with
    | .cancelled => stopCancelled
    | .delta text => streamDelta text
    | .completed => streamCompleted
    | _ => pure .raises

/-- What the worker does about a happening. The context snapshot saves the job without
its condition; when it raises, the next route may be tried. -/
def happen : Happening → Routine Ending
  | .route => do
    let job ← readJob
    if job.cancelled then withJob stopCancelled else pure .goesOn
  | .snapshot => do
    if ← persist then pure .goesOn
    else do
      let another ← ask
      pure (.going another)
  | .bounds => refuseBounds
  | .failure => pure .raises
  | happening => withJob (streamEvent happening)

/-- Which end of the publication its handlers see. -/
inductive Published where
  | done | returned | refused | raised
deriving DecidableEq

/-- The end of a publication that returns unless it raises. -/
def Published.returning (returned : Bool) : Published := if returned then .returned else .raised

/-- The last checks of an isolated proposal; one that fails them has failed. -/
def discardIsolated : Routine Unit := do
  let job ← readJob
  if job.isolated then do
    if ← ask then pure ()
    else do
      set (.output "")
      set (.status .failed)
      setIf (job.terminalHookStatus == some .completed) (.errorCode (some .authorityRevoked))
  else pure ()

/-- A director's completion is checked again once it is saved, and its evidence is
appended; without the evidence the live result is withdrawn in memory. -/
def confirmDirector : Routine Published := do
  let job ← readJob
  if job.kind == .director && job.status == .completed then do
    if ← ask then do
      if ← ask then pure .done
      else do
        set (.status .failed)
        set (.output "")
        set (.errorCode (some .authorityRevoked))
        pure .returned
    else do
      set .generationBoundFailure
      set (.output "")
      set .cancelled
      pure .raised
  else pure .done

def publishDraft : Routine Published := do
  discardIsolated
  if ← emit then confirmDirector else pure .raised

/-- A live publication after its settlement. -/
def publishLive (status : Status) : Routine Published := do
  let job ← readJob
  if job.status == .failed then do
    let returned ← emit
    pure (.returning returned)
  else if job.status != status then pure .returned
  else if ← ask then do
    let job ← readJob
    if job.status != status then pure .returned
    else if job.cancelled then do
      let returned ← cancelHeld
      pure (.returning returned)
    else do
      set (.status .completed)
      publishDraft
  else pure .refused

/-- The receipt before the settlement, the settlement, and the draft. -/
def publishSettled (live settles : Bool) (status : Status) : Routine Published := do
  if ← (if settles then persist else pure true) then do
    finishHeld live
    if live then publishLive status else publishDraft
  else pure .raised

/-- The live authorization was refused during the publication. -/
def publicationRefused : Routine Ending := do
  let job ← readJob
  if job.status.terminal then pure .returns
  else do
    set (.output "")
    set (.status .failed)
    set (.errorCode (some .authorityRevoked))
    let returned ← emit
    pure (.returning returned)

/-- The publication could not be completed: the draft is not published until its receipt
is durable. -/
def publicationUncertain : Routine Ending := do
  set (.status .failed)
  let job ← readJob
  setIf job.isolated (.output "")
  set (.errorCode (some .terminalPersistenceUncertain))
  let _ ← persist
  pure .raises

def publishHeld : Routine Ending := do
  let job ← readJob
  if job.status.terminal then pure .returns
  else if job.cancelled then stopCancelled
  else if ← ask then do
    let job ← readJob
    if job.status.terminal then pure .returns
    else do
      let status := if job.settles then Status.settling else .generating
      set (.status (if job.ordinaryPublication then status else .completed))
      set (.executionOutcome (some .completed))
      match ← publishSettled job.ordinaryPublication job.settles status with
      | .done => pure .goesOn
      | .returned => pure .returns
      | .refused => publicationRefused
      | .raised => publicationUncertain
  else pure .raises

/-- After the last route: the deferred snapshot, the bounds, the review, the publication. -/
def conclude : Routine Ending := do
  let job ← readJob
  if job.cancelled then withJob stopCancelled
  else if ← ask then do
    if ← ask then do
      let job ← readJob
      if job.cancelled then withJob stopCancelled else withReview (withJob publishHeld)
    else refuseBounds
  else pure .raises

/-- The routes and their streams, as `plan` has them happen. -/
def generate : List Happening → Routine Ending
  | [] => conclude
  | happening :: plan => do
    match ← happen happening with
    | .goesOn => generate plan
    | ending => pure ending

/-- The body of `_run`. -/
def work (plan : List Happening) : Routine Ending := do
  if ← ask then do
    let job ← readJob
    if job.cancelled then withJob stopCancelled
    else do
      match ← withJob claim with
      | .goesOn => generate plan
      | ending => pure ending
  else pure .raises

/-- The handler of `_run`: a late failure cannot undo a terminal state. -/
def handleHeld : Routine Unit := do
  let job ← readJob
  if job.status.terminal then pure ()
  else if job.generationBoundFailure then do
    set (.output "")
    set (.status .failed)
    set (.executionOutcome (some .failed))
    set (.errorCode (some .boundFailure))
    let _ ← emit
    pure ()
  else if job.cancelled then do
    let _ ← cancelHeld
    pure ()
  else do
    let refused ← ask
    setIf (job.isolated || refused) (.output "")
    set (.status .failed)
    setIf job.executionOutcome.isNone (.executionOutcome (some .failed))
    set (.errorCode (some .generationFailed))
    let _ ← emit
    pure ()

def run (plan : List Happening) : Routine Unit := do
  match ← work plan with
  | .raises => withJob handleHeld
  | _ => pure ()
  finishTerminalHook

/-- The stored record is copied into the job field by field. -/
def refresh : List Change → Routine Unit
  | [] => pure ()
  | change :: rest => do
    set change
    refresh rest

/-- `_accept_claimed` for a chapter that is replaced: the write and what follows it, the
final record, and the chapter read back for the answer. The call for a continuation ends
before that read. -/
def acceptClaimed : Routine Bool := do
  if ← ask then do
    if ← writeChapter then do
      if ← ask then do
        set (.status .accepted)
        if ← emit then do
          let continues ← ask
          if continues then pure true else readChapter
        else pure false
      else pure false
    else pure false
  else pure false

/-- The acceptance that was claimed could not be confirmed. -/
def acceptanceUncertain : Routine Unit := do
  set (.status .acceptanceUncertain)
  set (.errorCode (some .acceptanceReviewRequired))
  let _ ← emit
  pure ()

/-- The claim of an acceptance: it is persisted before the first side effect. -/
def acceptClaim : Routine Unit := do
  set (.status .accepting)
  if ← persist then do
    if ← acceptClaimed then pure () else acceptanceUncertain
  else pure ()

/-- The checks of `accept` on the refreshed job. -/
def acceptRefreshed : Routine Unit := do
  if ← ask then do
    let job ← readJob
    if job.acceptsWhole && job.accounted then do
      if ← ask then do
        let job ← readJob
        if job.status == .completed then do
          if ← ask then acceptClaim else pure ()
        else pure ()
      else pure ()
    else pure ()
  else pure ()

/-- `accept` under both locks. -/
def acceptHeld : Routine Unit := do
  if ← ask then do
    let job ← readJob
    if job.acceptsWhole && job.accounted && job.errorCode != some .terminalPersistenceUncertain then do
      match ← readStored with
      | some record => do
        refresh record.items
        acceptRefreshed
      | none => acceptRefreshed
    else pure ()
  else pure ()

def accept : Routine Unit := do
  match ← find with
  | none => pure ()
  | some _ => withReview (withJob acceptHeld)

/-- Whether the stored record can still be rejected. -/
def Record.rejectable (record : Record) : Bool :=
  record.status == .completed && (!record.dispatchHooksRequired || record.terminalHookStatus == some .completed)

/-- `reject` under both locks. -/
def rejectHeld : Routine Unit := do
  if ← ask then do
    let stored ← readStored
    if stored.all Record.rejectable then do
      let job ← readJob
      if job.publicStatus == .completed && job.accounted then do
        set (.status .rejected)
        let _ ← emit
        pure ()
      else pure ()
    else pure ()
  else pure ()

def reject : Routine Unit := do
  match ← find with
  | none => pure ()
  | some _ =>
    if ← ask then do
      let job ← readJob
      if job.kind != .graph && job.publicStatus == .completed then withReview (withJob rejectHeld) else pure ()
    else pure ()

/-- A restarted manager reads an interrupted job again under the review lock; recovery is
a durable transition. -/
def restoreClaimed : Routine Unit := do
  match ← readStored with
  | none => pure ()
  | some record =>
    if record.status.interrupted then do
      if ← save record.restored.record then install record.restored else pure ()
    else install record.restored

/-- `JobManager.__init__` for this job. -/
def restore : Routine Unit := do
  match ← readStored with
  | none => pure ()
  | some record =>
    if record.status.interrupted then withReview restoreClaimed else install record.restored

end NovelStudio.Jobs
