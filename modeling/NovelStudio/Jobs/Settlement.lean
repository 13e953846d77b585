import NovelStudio.Jobs.Guarantees

/-! The settlement of a job with a terminal hook: the invariant that ties what is shown
and persisted to the hook's success, and what every operation of a thread guarantees
about it. -/

namespace NovelStudio.Jobs
open Library

/-- The settlement of a copy has not begun. -/
def Job.Fresh (job : Job) : Prop := job.terminalHookStatus = none ∧ job.terminalHookCalled = false

/-- The settlement of a copy has failed, and the copy is not completed. -/
def Job.Closed (job : Job) : Prop := job.terminalHookStatus.isSome ∧ job.status.terminal ∧ job.status ≠ .completed

/-- No settlement of a copy is under way. -/
def Job.Steady (job : Job) : Prop := job.Fresh ∨ job.Closed

/-- Nothing of a copy may be published. -/
def Job.Calm (job : Job) : Prop := job.Steady ∧ job.status ≠ .completed

/-- What holds of a manager's copy before the hook has returned. `strict` says that the
hook does not raise once the job is completed. -/
structure Unsettled (worker : Thread) (strict : Bool) (manager : Nat) (world : World) (job : Job) : Prop where
  required : job.dispatchHooksRequired
  hook : job.terminalHookStatus ≠ some .completed
  drafted : job.status = .completed → manager = worker.manager ∧ world.condition manager = some worker
  shown : strict → job.status = .completed → job.terminalHookStatus = none
  foreign : manager ≠ worker.manager → job.status.terminal
  steady : world.condition manager = none → job.Steady

/-- What is persisted before the hook has returned. -/
structure Record.Unsettled (record : Record) : Prop where
  required : record.dispatchHooksRequired
  hook : record.terminalHookStatus ≠ some .completed
  uncompleted : record.status ≠ .completed

/-- The settlement throughout: the hook is called at most once, and without its success
nothing of the job is completed but the draft the worker is about to settle. -/
structure Gated (worker : Thread) (strict : Bool) (world : World) : Prop where
  file : ∀ {saved}, world.file = some saved → world.settled = true ∨ saved.record.Unsettled
  copies : ∀ {manager job}, world.jobs manager = some job → world.settled = true ∨ Unsettled worker strict manager world job
  hooked : ∀ {manager job}, world.jobs manager = some job → job.hooked = decide (manager = worker.manager)
  calls : world.hookCalls ≤ 1
  called : world.hookCalls ≠ 0 → ∀ {job}, world.jobs worker.manager = some job → job.terminalHookCalled
  settled : world.settled = true → world.hookCalls ≠ 0

/-- What a thread guarantees of its step to the others. Once the hook has returned,
nobody relies on anything else. -/
structure HookSafe (worker : Thread) (strict : Bool) (thread : Thread) (before after : World) : Prop where
  gated : Gated worker strict before → Gated worker strict after
  settled : before.settled = true → after.settled = true
  alive : ∀ {manager job}, before.jobs manager = some job → ∃ now, after.jobs manager = some now
  condition : before.settled = false → ∀ {other}, other ≠ thread → ∀ {manager},
    (after.condition manager = some other ↔ before.condition manager = some other)
  core : before.settled = false → ∀ {manager job now}, before.jobs manager = some job → after.jobs manager = some now →
    before.condition manager ≠ some thread → now.core = job.core
  calls : before.settled = false → before.condition worker.manager ≠ some thread →
    after.hookCalls = before.hookCalls ∧ after.settled = before.settled

/-- One operation of a thread; under `strict` the hook does not raise for a completed job. -/
def HookExec (strict : Bool) (thread : Thread) (op : Op) (before : World) (answer : op.Answer) (after : World) : Prop :=
  ∃ fate, (strict = true → op = .callHook → fate = .returns ∨
      ∀ {job}, before.jobs thread.manager = some job → job.status ≠ .completed) ∧
    execute thread op fate before = some (answer, after)

/-- Every operation of the program keeps the guarantee of its thread. -/
abbrev HookGuards (worker : Thread) (strict : Bool) (thread : Thread) {Value : Type} (pre : World → Prop) (program : Routine Value)
    (post : Value → World → Prop) : Prop :=
  Triple (HookExec strict) (HookSafe worker strict) Outside thread pre program post

abbrev HookKept (worker : Thread) (strict : Bool) (thread : Thread) (pre : World → Prop) : Prop :=
  Stable (HookSafe worker strict) Outside thread pre

section Steps

variable {worker thread : Thread} {strict : Bool} {before after : World} {job : Job}

theorem HookSafe.refl (world : World) : HookSafe worker strict thread world world where
  gated := id
  settled := id
  alive found := ⟨_, found⟩
  condition _ _ _ _ := Iff.rfl
  core _ _ _ _ found found' _ := by rw [found] at found'; cases found'; rfl
  calls _ _ := ⟨rfl, rfl⟩

variable {now : Job}

theorem Job.called_eq_of_core (same : now.core = job.core) : now.terminalHookCalled = job.terminalHookCalled := by
  simpa [Job.core] using congrArg Job.terminalHookCalled same

theorem Job.Steady.of_core (steady : job.Steady) (same : now.core = job.core) : now.Steady := by
  unfold Job.Steady Job.Fresh Job.Closed at *
  rwa [Job.terminalHookStatus_eq_of_core same, Job.called_eq_of_core same, Job.status_eq_of_core same]

theorem Job.Calm.of_core (calm : job.Calm) (same : now.core = job.core) : now.Calm :=
  ⟨calm.1.of_core same, Job.status_eq_of_core same ▸ calm.2⟩

/-- An assignment that the settlement allows before the hook has returned. -/
def Change.permitted (worker thread : Thread) (strict : Bool) (job : Job) : Change → Prop
  | .status value => (value = .completed → thread = worker ∧ (strict → job.terminalHookStatus = none)) ∧
      (thread.manager ≠ worker.manager → value.terminal)
  | .terminalHookStatus value => value ≠ .completed ∧ (strict → job.status ≠ .completed)
  | _ => True

variable {change : Change}

theorem Change.permitted_of_free (free : change.free) : change.permitted worker thread strict job := by
  cases change <;> trivial

/-- What an assignment has to respect before the hook has returned. -/
structure HookAssigns (worker thread : Thread) (strict : Bool) (before : World) (job : Job) (change : Change) : Prop where
  held : change.free ∨ before.condition thread.manager = some thread
  permitted : change.permitted worker thread strict job

theorem Unsettled.set (unsettled : Unsettled worker strict thread.manager before job)
    (assigns : HookAssigns worker thread strict before job change) :
    Unsettled worker strict thread.manager (before.setJob thread.manager (job.set change)) (job.set change) := by
  obtain ⟨required, hook, drafted, shown, foreign, steady⟩ := unsettled
  obtain ⟨held, permitted⟩ := assigns
  have busy : change.free = false → before.condition thread.manager = some thread := fun other =>
    held.resolve_left (by simp [other])
  cases change with
  | status value =>
    refine ⟨required, hook, fun completed => ?_, fun strict' completed => (permitted.1 completed).2 strict', permitted.2, fun idle => ?_⟩
    · have own : thread = worker := (permitted.1 completed).1
      exact ⟨own ▸ rfl, own ▸ busy rfl⟩
    · exact absurd (idle.symm.trans (busy rfl)) nofun
  | terminalHookStatus value =>
    refine ⟨required, fun same => permitted.1 (Option.some.inj same), drafted, fun strict' completed => ?_, foreign, fun idle => ?_⟩
    · exact absurd completed (permitted.2 strict')
    · exact absurd (idle.symm.trans (busy rfl)) nofun
  | terminalHookCalled => exact ⟨required, hook, drafted, shown, foreign, fun idle => absurd (idle.symm.trans (busy rfl)) nofun⟩
  | dispatchHooksRequired => exact ⟨rfl, hook, drafted, shown, foreign, steady⟩
  | output | errorCode | executionOutcome | cancelled | generationBoundFailure =>
    exact ⟨required, hook, drafted, shown, foreign, steady⟩

theorem Job.set_called (change : Change) (called : job.terminalHookCalled) : (job.set change).terminalHookCalled := by
  cases change <;> first | exact called | rfl

theorem Gated.setJob {manager : Nat} (gated : Gated worker strict before)
    (copy : before.settled = true ∨ Unsettled worker strict manager (before.setJob manager job) job)
    (hooked : job.hooked = decide (manager = worker.manager))
    (called : manager = worker.manager → before.hookCalls ≠ 0 → job.terminalHookCalled) :
    Gated worker strict (before.setJob manager job) where
  file := gated.file
  copies := by
    intro other now found
    by_cases own : other = manager
    · subst own
      simp only [World.setJob_jobs, Option.some.injEq] at found
      exact found ▸ copy
    · rw [World.setJob_jobs_ne _ _ own] at found
      exact (gated.copies found).imp_right fun kept => ⟨kept.1, kept.2, kept.3, kept.4, kept.5, kept.6⟩
  hooked := by
    intro other now found
    by_cases own : other = manager
    · subst own
      simp only [World.setJob_jobs, Option.some.injEq] at found
      exact found ▸ hooked
    · rw [World.setJob_jobs_ne _ _ own] at found
      exact gated.hooked found
  calls := gated.calls
  called := by
    intro calls now found
    by_cases own : worker.manager = manager
    · subst own
      simp only [World.setJob_jobs, Option.some.injEq] at found
      exact found ▸ called rfl calls
    · rw [World.setJob_jobs_ne _ _ own] at found
      exact gated.called calls found
  settled := gated.settled

theorem HookSafe.set (found : before.jobs thread.manager = some job)
    (assigns : before.settled = false → HookAssigns worker thread strict before job change) :
    HookSafe worker strict thread before (before.setJob thread.manager (job.set change)) where
  gated gated := by
    refine gated.setJob ?_ (by rw [Job.set_hooked]; exact gated.hooked found) fun own calls =>
      Job.set_called change (gated.called calls (own ▸ found))
    cases settled : before.settled with
    | true => exact .inl rfl
    | false =>
      have unsettled := (gated.copies found).resolve_left (by simp [settled])
      exact .inr (unsettled.set (assigns settled))
  settled := id
  alive := by
    intro manager old present
    by_cases own : manager = thread.manager
    · subst own
      exact ⟨_, World.setJob_jobs ..⟩
    · exact ⟨old, by rwa [World.setJob_jobs_ne _ _ own]⟩
  condition _ _ _ _ := Iff.rfl
  core := by
    intro settled manager old now present present' free
    by_cases own : manager = thread.manager
    · subst own
      rw [found] at present
      cases present
      simp only [World.setJob_jobs, Option.some.injEq] at present'
      subst present'
      exact Job.core_set ((assigns settled).held.resolve_right free) job
    · rw [World.setJob_jobs_ne _ _ own, present] at present'
      cases present'
      rfl
  calls _ _ := ⟨rfl, rfl⟩

theorem HookSafe.install (foreign : thread.manager ≠ worker.manager) (absent : before.jobs thread.manager = none)
    (copy : before.settled = true ∨ Unsettled worker strict thread.manager (before.setJob thread.manager job) job)
    (hookless : job.hooked = false) : HookSafe worker strict thread before (before.setJob thread.manager job) where
  gated gated := gated.setJob copy (by simp [hookless, foreign]) fun own => absurd own foreign
  settled := id
  alive := by
    intro manager old found
    have different : manager ≠ thread.manager := fun own => by rw [own, absent] at found; cases found
    exact ⟨old, by rwa [World.setJob_jobs_ne _ _ different]⟩
  condition _ _ _ _ := Iff.rfl
  core := by
    intro _ manager old now found found' _
    have different : manager ≠ thread.manager := fun own => by rw [own, absent] at found; cases found
    rw [World.setJob_jobs_ne _ _ different, found] at found'
    cases found'
    rfl
  calls _ _ := ⟨rfl, rfl⟩

theorem HookSafe.save {record : Record} (gate : before.settled = true ∨ record.Unsettled) :
    HookSafe worker strict thread before (before.save thread record) where
  gated gated := ⟨fun filed => by cases filed; exact gate, fun found => (gated.copies found).imp_right fun kept =>
    ⟨kept.1, kept.2, kept.3, kept.4, kept.5, kept.6⟩, gated.hooked, gated.calls, gated.called, gated.settled⟩
  settled := id
  alive found := ⟨_, found⟩
  condition _ _ _ _ := Iff.rfl
  core _ _ _ _ found found' _ := by
    change before.jobs _ = _ at found'
    rw [found] at found'; cases found'; rfl
  calls _ _ := ⟨rfl, rfl⟩

theorem HookSafe.aside {review : Option Thread} {written : Nat} :
    HookSafe worker strict thread before { before with review := review, written := written } where
  gated gated := ⟨gated.file, fun found => (gated.copies found).imp_right fun kept =>
    ⟨kept.1, kept.2, kept.3, kept.4, kept.5, kept.6⟩, gated.hooked, gated.calls, gated.called, gated.settled⟩
  settled := id
  alive found := ⟨_, found⟩
  condition _ _ _ _ := Iff.rfl
  core _ _ _ _ found found' _ := by
    change before.jobs _ = _ at found'
    rw [found] at found'; cases found'; rfl
  calls _ _ := ⟨rfl, rfl⟩

theorem HookSafe.hold {holder : Option Thread}
    (others : before.settled = false → ∀ {other}, other ≠ thread → (holder = some other ↔ before.condition thread.manager = some other))
    (leaves : before.settled = false → ∀ {job}, before.jobs thread.manager = some job →
      Unsettled worker strict thread.manager before job →
        (job.status = .completed → holder = some worker) ∧ (holder = none → job.Steady)) :
    HookSafe worker strict thread before (before.hold thread.manager holder) where
  gated gated := by
    refine ⟨gated.file, fun {manager job} found => ?_, gated.hooked, gated.calls, gated.called, gated.settled⟩
    cases settled : before.settled with
    | true => exact .inl settled
    | false =>
      have kept := (gated.copies found).resolve_left (by simp [settled])
      refine .inr ⟨kept.1, kept.2, fun completed => ⟨(kept.3 completed).1, ?_⟩, kept.4, kept.5, fun idle => ?_⟩
      · by_cases own : manager = thread.manager
        · subst own
          rw [World.hold_condition]
          exact (leaves settled found kept).1 completed
        · rw [World.hold_condition_ne _ _ own]
          exact (kept.3 completed).2
      · by_cases own : manager = thread.manager
        · subst own
          rw [World.hold_condition] at idle
          exact (leaves settled found kept).2 idle
        · rw [World.hold_condition_ne _ _ own] at idle
          exact kept.6 idle
  settled := id
  alive found := ⟨_, found⟩
  condition := by
    intro settled other different manager
    by_cases own : manager = thread.manager
    · subst own
      rw [World.hold_condition]
      exact others settled different
    · rw [World.hold_condition_ne _ _ own]
  core _ _ _ _ found found' _ := by
    change before.jobs _ = _ at found'
    rw [found] at found'; cases found'; rfl
  calls _ _ := ⟨rfl, rfl⟩

theorem HookSafe.callHook {result : Bool} (holds : before.condition worker.manager = some thread)
    (uncalled : before.hookCalls = 0) (unsettled : before.settled = false)
    (claimed : ∀ {job}, before.jobs worker.manager = some job → job.terminalHookCalled) :
    HookSafe worker strict thread before { before with hookCalls := before.hookCalls + 1, settled := result } where
  gated gated := by
    refine ⟨fun filed => ?_, fun found => ?_, gated.hooked, by simp [uncalled], fun _ => claimed, fun _ => Nat.succ_ne_zero _⟩
    · exact .inr ((gated.file filed).resolve_left (by simp [unsettled]))
    · have kept := (gated.copies found).resolve_left (by simp [unsettled])
      exact .inr ⟨kept.1, kept.2, kept.3, kept.4, kept.5, kept.6⟩
  settled settled := by simp [unsettled] at settled
  alive found := ⟨_, found⟩
  condition _ _ _ _ := Iff.rfl
  core _ _ _ _ found found' _ := by
    change before.jobs _ = _ at found'
    rw [found] at found'; cases found'; rfl
  calls _ other := absurd holds other

theorem Gated.stop (gated : Gated worker strict before) (manager : Nat) : Gated worker strict (before.stop manager) := by
  have kept {other : Nat} {job : Job} (found : (before.stop manager).jobs other = some job) :
      other ≠ manager ∧ before.jobs other = some job := by
    by_cases own : other = manager
    · simp [World.stop, own] at found
    · exact ⟨own, by simpa [World.stop, own] using found⟩
  refine ⟨gated.file, fun found => ?_, fun found => gated.hooked (kept found).2, gated.calls,
    fun calls _ found => gated.called calls (kept found).2, gated.settled⟩
  obtain ⟨other, found⟩ := kept found
  refine (gated.copies found).imp_right fun copy => ⟨copy.1, copy.2, fun completed => ⟨(copy.3 completed).1, ?_⟩, copy.4, copy.5,
    fun idle => copy.6 (by simpa [World.stop, other] using idle)⟩
  simpa [World.stop, other] using (copy.3 completed).2

theorem hookStable_gated : HookKept worker strict thread (Gated worker strict) := by
  rintro state next (⟨other, _, safe⟩ | ⟨manager, _, rfl⟩) now
  · exact safe.gated now
  · exact now.stop manager

theorem hookStable_alive : HookKept worker strict thread fun world => ∃ job, world.jobs thread.manager = some job := by
  rintro state next (⟨other, _, safe⟩ | stop) ⟨job, found⟩
  · exact safe.alive found
  · exact ⟨job, stop.jobs.trans found⟩

end Steps

end NovelStudio.Jobs
