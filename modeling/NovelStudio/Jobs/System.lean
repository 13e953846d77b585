import NovelStudio.Jobs.Routines
import NovelStudio.Library.Transition

/-! The job manager as a concurrent system: any number of calls on any number of
managers, interleaved operation by operation, with processes that stop and restart. -/

namespace NovelStudio.Jobs
open Library

/-- What is called on a job after its worker was started. -/
inductive Call where
  | accept | reject | cancel | restore | finish
deriving DecidableEq

def Call.routine : Call → Routine Unit
  | .accept => Jobs.accept
  | .reject => Jobs.reject
  | .cancel => Jobs.cancel
  | .restore => Jobs.restore
  | .finish => Jobs.finish

/-- The threads of all processes, and the calls that were made so far. -/
structure System where
  threads : Threads Op Op.Answer World Thread
  started : List Thread

/-- A thread takes its next operation, a call starts, or a process stops. -/
inductive Action where
  | turn (thread : Thread) (fate : Fate)
  | start (thread : Thread) (call : Call)
  | stop (manager : Nat)
deriving DecidableEq

/-- The process of a manager stops: its copy and its locks are gone. -/
def World.stop (world : World) (manager : Nat) : World :=
  { world with
    jobs := Function.update world.jobs manager none
    review := world.review.filter fun holder => holder.manager ≠ manager
    condition := Function.update world.condition manager none }

namespace System

def world (system : System) : World := system.threads.state

/-- A restart is the construction of a manager in a new process. -/
def mayStart (system : System) (thread : Thread) (call : Call) : Bool :=
  thread ∉ system.started && (call != .restore || system.started.all fun other => other.manager != thread.manager)

def act (system : System) : Action → Option System
  | .turn thread fate =>
    match system.threads.programs thread with
    | .done () => none
    | .perform op next => (execute thread op fate system.world).map fun (answer, state) =>
        ⟨⟨state, Function.update system.threads.programs thread (next answer)⟩, system.started⟩
  | .start thread call =>
    if system.mayStart thread call then
      some ⟨⟨system.world, Function.update system.threads.programs thread call.routine⟩, thread :: system.started⟩
    else none
  | .stop manager =>
    some ⟨⟨system.world.stop manager,
      fun thread => if thread.manager = manager then .done () else system.threads.programs thread⟩, system.started⟩

/-- A job that was queued and persisted, with its worker about to run. -/
def launch (worker : Thread) (job : Job) (plan : List Happening) : System where
  threads :=
    { state :=
        { file := some ⟨worker, job.record⟩
          jobs := Function.update (fun _ => none) worker.manager (some job)
          review := none
          condition := fun _ => none
          written := 0
          hookCalls := 0
          settled := false }
      programs := Function.update (fun _ => .done ()) worker (run plan) }
  started := [worker]

/-- One action that `allowed` admits. -/
def Step (allowed : System → Action → Prop) (system : System) (action : Action) (next : System) : Prop :=
  allowed system action ∧ system.act action = some next

variable {thread : Thread} {system next : System} {action : Action} {actions : List Action}

theorem act_turn {fate : Fate} (acted : system.act (.turn thread fate) = some next) :
    ∃ op rest answer, system.threads.programs thread = .perform op rest ∧
      execute thread op fate system.world = some (answer, next.world) ∧
      next.threads.programs = Function.update system.threads.programs thread (rest answer) ∧ next.started = system.started := by
  simp only [System.act] at acted
  split at acted
  · cases acted
  · rename_i op rest program
    obtain ⟨⟨answer, state⟩, executed, same⟩ := Option.map_eq_some_iff.mp acted
    subst same
    exact ⟨op, rest, answer, program, executed, rfl, rfl⟩

theorem act_start {call : Call} (acted : system.act (.start thread call) = some next) :
    system.mayStart thread call ∧
      next = ⟨⟨system.world, Function.update system.threads.programs thread call.routine⟩, thread :: system.started⟩ := by
  simp only [System.act] at acted
  split at acted
  · exact ⟨‹_›, (Option.some.inj acted).symm⟩
  · cases acted

theorem act_stop {manager : Nat} (acted : system.act (.stop manager) = some next) :
    next = ⟨⟨system.world.stop manager,
      fun thread => if thread.manager = manager then .done () else system.threads.programs thread⟩, system.started⟩ :=
  (Option.some.inj acted).symm

theorem Step.ended {allowed : System → Action → Prop} (step : System.Step allowed system action next)
    (known : thread ∈ system.started) (ended : system.threads.programs thread = .done ()) :
    next.threads.programs thread = .done () ∧ thread ∈ next.started := by
  obtain ⟨_, acted⟩ := step
  cases action with
  | turn acting fate =>
    obtain ⟨op, rest, answer, program, _, programs, started⟩ := System.act_turn acted
    have different : thread ≠ acting := by
      rintro rfl
      rw [ended] at program
      cases program
    exact ⟨by rw [programs, Function.update_of_ne different, ended], started ▸ known⟩
  | start acting call =>
    obtain ⟨may, rfl⟩ := System.act_start acted
    have different : thread ≠ acting := by
      rintro rfl
      simp [System.mayStart, known] at may
    exact ⟨by simp [different, ended], by simp [known]⟩
  | stop manager =>
    obtain rfl := System.act_stop acted
    exact ⟨by simp [ended], known⟩

def check (passes : System → Action → Bool) (system : System) (action : Action) : Option (System × Action) :=
  if passes system action then (system.act action).map fun next => (next, action) else none

theorem step_of_check {passes : System → Action → Bool} {admits : System → Action → Prop} {label : Action}
    (sound : ∀ {system action}, passes system action → admits system action)
    (checked : system.check passes action = some (next, label)) : System.Step admits system label next := by
  unfold System.check at checked
  split at checked
  · obtain ⟨_, acted, same⟩ := Option.map_eq_some_iff.mp checked
    cases same
    exact ⟨sound ‹_›, acted⟩
  · cases checked

/-- The state a list of checked actions leads to. -/
def reached (passes : System → Action → Bool) (system : System) (actions : List Action) : System :=
  ((Library.execute (System.check passes) system actions).map Prod.snd).getD system

theorem run_reached {passes : System → Action → Bool} {admits : System → Action → Prop}
    (sound : ∀ {system action}, passes system action = true → admits system action) (system : System) (actions : List Action)
    (ends : (Library.execute (System.check passes) system actions).isSome) :
    ∃ labels, Run (System.Step admits) system labels (system.reached passes actions) := by
  obtain ⟨⟨labels, later⟩, executed⟩ := Option.isSome_iff_exists.mp ends
  rw [System.reached, executed]
  exact ⟨labels, .of_execute (System.step_of_check sound) actions executed⟩

end System

/-- A job as it is queued: hooks come in pairs, and nothing has happened to it. -/
structure Job.Queued (job : Job) : Prop where
  status : job.status = .queued
  hooks : job.dispatchHooksRequired = job.hooked
  unsettled : job.terminalHookStatus = none
  unclaimed : job.terminalHookCalled = false

end NovelStudio.Jobs

/-! What the decision on a job may do: the protocol of its persisted status, the invariant
that ties the copy of the manager that runs the job to it, and what every thread
guarantees to the others. -/

namespace NovelStudio.Jobs
open Library

namespace Status

/-- The draft has been published, or a review of it has begun. -/
def reviewable : Status → Bool
  | completed | accepting | accepted | rejected | acceptanceUncertain => true
  | _ => false

/-- Undecided and not published. -/
def pending (status : Status) : Bool := !status.reviewable && status != cancelled

def decided : Status → Bool
  | accepted | rejected | cancelled => true
  | _ => false

/-- What may be recorded after a status. -/
def mayFollow : Status → Status → Bool
  | completed, next => next == completed || next == failed || next == accepting || next == rejected
  | accepting, next => next == accepted || next == acceptanceUncertain
  | accepted, _ | rejected, _ | acceptanceUncertain, _ => false
  | cancelled, next => next == cancelled
  | _, next => next.pending || next == cancelled || next == completed

/-- The chapter may have been written. -/
def claimed : Status → Bool
  | accepting | accepted | acceptanceUncertain => true
  | _ => false

theorem mayFollow_decided {status next : Status} (decision : status.decided) (follows : status.mayFollow next) :
    next = status := by
  cases status <;> simp_all [decided, mayFollow]

theorem mayFollow_claimed {status next : Status} (claim : status.claimed) (follows : status.mayFollow next) :
    next.claimed := by
  cases status <;> cases next <;> simp_all [claimed, mayFollow]

theorem mayFollow_pending {status next : Status} (now : status.pending) (after : next.pending ∨ next = cancelled ∨ next = completed) :
    status.mayFollow next := by
  cases status <;> cases next <;> simp_all [pending, reviewable, mayFollow]

theorem terminal_of_reviewable {status : Status} (published : status.reviewable) : status.terminal := by
  cases status <;> simp_all [terminal, reviewable]

end Status

/-- The part of a job that only changes under its condition. -/
def Job.core (job : Job) : Job :=
  { job with output := "", errorCode := none, executionOutcome := none, cancelled := false, generationBoundFailure := false }

def World.status (world : World) : Option Status := world.stored.map Record.status

/-- A hookless job never waits for a settlement. -/
def Job.Plain (job : Job) : Prop := job.settles = false ∧ job.status ≠ .settling

def Record.Plain (record : Record) : Prop := record.dispatchHooksRequired = false ∧ record.status ≠ .settling

/-- The copy of the manager that runs the job agrees with the persisted status. -/
structure Agrees (worker : Thread) (world : World) (status : Status) (job : Job) : Prop where
  cancelled : status = .cancelled → job.status = .cancelled
  terminal : status.reviewable → job.status.terminal
  reviewable : job.status.reviewable → status.reviewable ∨
    job.status = .completed ∧ world.condition worker.manager = some worker ∧ world.review = some worker

/-- What holds of the world throughout. `hooked` says whether the job was started with a
terminal hook. -/
structure Invariant (worker : Thread) (hooked : Bool) (world : World) : Prop where
  filed : ∃ status, world.status = some status
  agrees : ∀ {status job}, world.status = some status → world.jobs worker.manager = some job →
    Agrees worker world status job
  once : world.written ≤ 1
  claimed : ∀ {status}, world.status = some status → 0 < world.written → status.claimed
  plainJobs : hooked = false → ∀ {manager job}, world.jobs manager = some job → job.Plain
  plainFile : hooked = false → ∀ {record}, world.stored = some record → record.Plain
  hooks : ∀ {job}, world.jobs worker.manager = some job → job.hooked = hooked
  claims : ∀ {job}, world.jobs worker.manager = some job → job.terminalHookCalled →
    job.terminalHookStatus.isSome ∨ world.condition worker.manager = some worker

/-- How the file may change in a step of a thread. -/
structure Files (worker thread : Thread) (before : World) (record : Record) : Prop where
  follows : ∀ {status}, before.status = some status → status.mayFollow record.status
  completed : record.status = .completed →
    thread = worker ∧ before.condition worker.manager = some worker ∧ before.review = some worker
  reviewed : ∀ {status}, before.status = some status → status.reviewable → before.review = some thread
  cancelled : record.status = .cancelled → before.condition worker.manager = some thread
  held : thread ≠ worker → before.review = some thread ∨ before.condition worker.manager = some thread

/-- What a thread guarantees of its step to the others. -/
structure Safe (worker : Thread) (hooked : Bool) (thread : Thread) (before after : World) : Prop where
  invariant : Invariant worker hooked before → Invariant worker hooked after
  file : after.file = before.file ∨
    ∃ record, after.file = some ⟨thread, record⟩ ∧ Files worker thread before record
  written : after.written = before.written ∨
    after.written = before.written + 1 ∧ before.review = some thread ∧
      ∃ record, before.file = some ⟨thread, record⟩ ∧ record.status = .accepting
  review : ∀ {other}, other ≠ thread → (after.review = some other ↔ before.review = some other)
  condition : ∀ {other}, other ≠ thread → ∀ {manager}, (after.condition manager = some other ↔ before.condition manager = some other)
  alive : ∀ {manager job}, before.jobs manager = some job → ∃ now, after.jobs manager = some now
  core : ∀ {manager job now}, before.jobs manager = some job → after.jobs manager = some now →
    before.condition manager ≠ some thread → now.core = job.core
  settled : ∀ {job now}, before.jobs worker.manager = some job → after.jobs worker.manager = some now →
    job.terminalHookStatus.isSome → now.terminalHookStatus.isSome

/-- A process other than the thread's own stops. -/
def Outside (thread : Thread) (before after : World) : Prop :=
  ∃ manager, thread.manager ≠ manager ∧ after = before.stop manager

/-- The steps of the protocol that keep the decision: a save made without the job's
condition neither finds nor records a cancellation, a cancellation takes effect only in
the manager that runs the job, and nothing raises once a decision is recorded. -/
def Sound (worker thread : Thread) (world : World) : Op → Fate → Prop
  | .save record, fate =>
    fate = .raises ∨
    (world.condition thread.manager = some thread ∨ world.status ≠ some .cancelled ∧ record.status ≠ .cancelled) ∧
      (record.status = .cancelled → thread.manager = worker.manager) ∧
      (record.status.decided → fate = .returns)
  | .readChapter, fate => fate = .returns
  | _, _ => True

/-- One operation of a thread, under the conditions that keep the decision. -/
def Exec (worker thread : Thread) (op : Op) (before : World) (answer : op.Answer) (after : World) : Prop :=
  ∃ fate, Sound worker thread before op fate ∧ execute thread op fate before = some (answer, after)

end NovelStudio.Jobs
