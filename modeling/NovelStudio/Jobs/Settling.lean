import NovelStudio.Jobs.Settlement

/-! Every routine keeps the settlement's guarantee: what is done under the condition of a
copy leaves it calm, and the settlement itself ends in the hook's success or a failure. -/

namespace NovelStudio.Jobs
open Library

variable {worker thread : Thread} {strict : Bool} {job : Job} {phase : Job → Prop} {Value : Type}

/-- The thread holds the condition of its copy, which is `job` up to what changes freely
and in `phase`, or the hook has returned. -/
structure Within (worker thread : Thread) (strict : Bool) (phase : Job → Prop) (job : Job) (world : World) : Prop where
  gated : Gated worker strict world
  state : world.settled = true ∨ world.settled = false ∧ phase job ∧ Keeps thread job world

/-- A phase that only depends on what the condition protects. -/
def Cored (phase : Job → Prop) : Prop := ∀ {job now : Job}, now.core = job.core → phase job → phase now

/-- The others settle nothing while the thread holds the condition of the job that they could settle. -/
theorem hookStable_keeps {fact : Prop} : HookKept worker strict thread fun world =>
    world.settled = true ∨ world.settled = false ∧ fact ∧ Keeps thread job world := by
  rintro state next step (settled | ⟨unsettled, holds, keeps⟩)
  · rcases step with ⟨other, _, safe⟩ | ⟨_, _, rfl⟩
    · exact .inl (safe.settled settled)
    · exact .inl settled
  · cases later : next.settled with
    | true => exact .inl rfl
    | false =>
      refine .inr ⟨rfl, holds, ?_⟩
      obtain ⟨held, now, found, same⟩ := keeps
      rcases step with ⟨other, different, safe⟩ | stop
      · obtain ⟨copy, found'⟩ := safe.alive found
        have foreign : state.condition thread.manager ≠ some other := by
          rw [held]
          exact fun same => different (Option.some.inj same).symm
        exact ⟨(safe.condition unsettled (Ne.symm different)).mpr held, copy, found', (safe.core unsettled found found' foreign).trans same⟩
      · exact ⟨stop.condition.mpr held, now, stop.jobs.trans found, same⟩

theorem stable_within : HookKept worker strict thread (Within worker thread strict phase job) := fun _ _ step now =>
  ⟨hookStable_gated _ _ step now.gated, hookStable_keeps _ _ step now.state⟩

variable {world : World}

theorem Within.mono {weaker : Job → Prop} (within : Within worker thread strict phase job world)
    (weaken : phase job → weaker job) : Within worker thread strict weaker job world :=
  ⟨within.gated, within.state.imp_right fun ⟨unsettled, now, keeps⟩ => ⟨unsettled, weaken now, keeps⟩⟩

theorem Within.unsettled (within : Within worker thread strict phase job world) (unsettled : world.settled = false) :
    ∃ copy, world.jobs thread.manager = some copy ∧ copy.core = job.core ∧ Unsettled worker strict thread.manager world copy ∧
      phase job ∧ world.condition thread.manager = some thread := by
  obtain ⟨_, now, holds, copy, found, same⟩ := within.state.resolve_left (by simp [unsettled])
  exact ⟨copy, found, same, (within.gated.copies found).resolve_left (by simp [unsettled]), now, holds⟩

theorem within_ask : HookGuards worker strict thread (Within worker thread strict phase job) ask fun _ =>
    Within worker thread strict phase job :=
  Triple.one stable_within fun now executed => by
    obtain ⟨_, _, done⟩ := executed
    cases done
    exact ⟨.refl _, now⟩

theorem within_readJob (cored : Cored phase) (later : Job → Prop)
    (derive : ∀ {world read}, Unsettled worker strict thread.manager world read → phase read → later read) :
    HookGuards worker strict thread (Within worker thread strict phase job) readJob fun read =>
      Within worker thread strict later read :=
  Triple.one stable_within fun {before _ _} now executed => by
    obtain ⟨_, _, done⟩ := executed
    obtain ⟨read, found, answer⟩ := Option.map_eq_some_iff.mp done
    cases answer
    refine ⟨.refl _, now.gated, ?_⟩
    cases settled : before.settled with
    | true => exact .inl rfl
    | false =>
      obtain ⟨copy, found', same, unsettled, phase, holds⟩ := now.unsettled settled
      rw [found] at found'
      cases found'
      exact .inr ⟨rfl, derive unsettled (cored same phase), holds, _, found, rfl⟩

theorem within_read (cored : Cored phase) : HookGuards worker strict thread (Within worker thread strict phase job) readJob fun read =>
    Within worker thread strict phase read :=
  within_readJob cored phase fun _ now => now

theorem within_set (change : Change) (later : Job → Prop) (permitted : phase job → change.permitted worker thread strict job)
    (next : phase job → later (job.set change)) : HookGuards worker strict thread (Within worker thread strict phase job) (set change)
      fun _ => Within worker thread strict later (job.set change) :=
  Triple.one stable_within fun {before _ _} now executed => by
    obtain ⟨_, _, done⟩ := executed
    obtain ⟨copy, found, same⟩ := Option.map_eq_some_iff.mp done
    cases same
    have safe : HookSafe worker strict thread before (before.setJob thread.manager (copy.set change)) := by
      refine .set found fun settled => ?_
      obtain ⟨_, found', core, _, phase, holds⟩ := now.unsettled settled
      rw [found] at found'
      cases found'
      refine ⟨.inr holds, ?_⟩
      have permitted := permitted phase
      cases change <;> first
        | trivial
        | simpa [Change.permitted, Job.status_eq_of_core core, Job.terminalHookStatus_eq_of_core core] using permitted
    refine ⟨safe, safe.gated now.gated, ?_⟩
    cases settled : before.settled with
    | true => exact .inl settled
    | false =>
      obtain ⟨_, found', core, _, phase, holds⟩ := now.unsettled settled
      rw [found] at found'
      cases found'
      refine .inr ⟨settled, next phase, holds, _, World.setJob_jobs .., ?_⟩
      cases change <;> simp_all [Job.core, Job.set]

variable {change : Change}

theorem within_set_free (cored : Cored phase) (free : change.free) : HookGuards worker strict thread
    (Within worker thread strict phase job) (set change) fun _ => Within worker thread strict phase job :=
  (within_set change phase (fun _ => Change.permitted_of_free free) (cored (Job.core_set free job))).mono id fun now =>
    ⟨now.gated, now.state.imp_right fun ⟨unsettled, phase, holds, copy, found, same⟩ =>
      ⟨unsettled, cored (Job.core_set free job).symm phase, holds, copy, found, same.trans (Job.core_set free job)⟩⟩

variable {holds : Bool}

theorem within_setIf_free (cored : Cored phase) (free : change.free) : HookGuards worker strict thread
    (Within worker thread strict phase job) (setIf holds change) fun _ => Within worker thread strict phase job :=
  .ite (fun _ => within_set_free cored free) fun _ => .pure id

/-- The thread holds the condition of a copy in `phase`, or the hook has returned. -/
def Over (worker thread : Thread) (strict : Bool) (phase : Job → Prop) (world : World) : Prop :=
  ∃ job, Within worker thread strict phase job world

theorem stable_over' : HookKept worker strict thread (Over worker thread strict phase) := fun _ _ step ⟨job, now⟩ =>
  ⟨job, stable_within _ _ step now⟩

theorem Over.mono {weaker : Job → Prop} (weaken : ∀ {job}, phase job → weaker job)
    (now : Over worker thread strict phase world) : Over worker thread strict weaker world :=
  now.imp fun _ within => within.mono weaken

theorem over_within {program : Routine Value} {post : Value → World → Prop}
    (runs : ∀ job, HookGuards worker strict thread (Within worker thread strict phase job) program post) :
    HookGuards worker strict thread (Over worker thread strict phase) program post :=
  fun world ⟨job, now⟩ => runs job world now

theorem Job.Steady.cored : Cored Job.Steady := fun same steady => steady.of_core same

theorem Job.Calm.cored : Cored Job.Calm := fun same calm => calm.of_core same

theorem Job.Closed.cored : Cored Job.Closed := fun same closed => by
  unfold Job.Closed at *
  rwa [Job.terminalHookStatus_eq_of_core same, Job.status_eq_of_core same]

theorem Job.Fresh.cored : Cored Job.Fresh := fun same fresh => by
  unfold Job.Fresh at *
  rwa [Job.terminalHookStatus_eq_of_core same, Job.called_eq_of_core same]

theorem Job.Closed.calm (closed : job.Closed) : job.Calm := ⟨.inr closed, closed.2.2⟩

theorem Job.Closed.failed (closed : job.Closed) : (job.set (.status .failed)).Closed := ⟨closed.1, rfl, nofun⟩

theorem Job.Steady.failed (steady : job.Steady) : (job.set (.status .failed)).Calm :=
  ⟨steady.imp id Job.Closed.failed, nofun⟩

/-- A phase in which a copy may be saved and declared failed. -/
structure Savable (phase : Job → Prop) : Prop where
  cored : Cored phase
  steady : ∀ {job}, phase job → job.Steady
  failed : ∀ {job}, phase job → phase (job.set (.status .failed))

theorem savable_calm : Savable Job.Calm := ⟨Job.Calm.cored, And.left, fun calm => calm.1.failed⟩

theorem savable_closed : Savable Job.Closed := ⟨Job.Closed.cored, .inr, Job.Closed.failed⟩

theorem Unsettled.record {manager : Nat} (unsettled : Unsettled worker strict manager world job)
    (steady : job.Steady) : job.record.Unsettled := by
  refine ⟨unsettled.required, unsettled.hook, ?_⟩
  change job.publicStatus ≠ .completed
  unfold Job.publicStatus
  split
  · nofun
  · rename_i shown
    intro completed
    rcases steady with ⟨hook, _⟩ | ⟨_, _, uncompleted⟩
    · exact shown ⟨completed, by simp [Job.settles, unsettled.required], hook⟩
    · exact uncompleted completed

theorem within_persist (savable : Savable phase) : HookGuards worker strict thread (Within worker thread strict phase job) persist
    fun _ => Over worker thread strict phase := by
  refine Triple.bind (within_readJob savable.cored (fun read => phase read ∧ read.record.Unsettled)
    fun unsettled phase => ⟨phase, unsettled.record (savable.steady phase)⟩) fun read => ?_
  refine Triple.one stable_within fun {before _ _} now executed => ?_
  obtain ⟨fate, _, done⟩ := executed
  have safe : HookSafe worker strict thread before (before.save thread read.record) :=
    .save (now.state.imp id fun ⟨_, ⟨_, gate⟩, _⟩ => gate)
  have after : Over worker thread strict phase (before.save thread read.record) := ⟨read, safe.gated now.gated, (now.mono And.left).state⟩
  cases fate with
  | returns =>
    cases done
    exact ⟨safe, after⟩
  | raises =>
    cases done
    exact ⟨.refl _, read, now.mono And.left⟩
  | raisesAfter =>
    cases done
    exact ⟨safe, after⟩

theorem within_fail (savable : Savable phase) : HookGuards worker strict thread (Within worker thread strict phase job)
    (set (.status .failed)) fun _ => Within worker thread strict phase (job.set (.status .failed)) :=
  within_set (.status .failed) phase (fun _ => ⟨nofun, fun _ => rfl⟩) savable.failed

theorem within_failIf (savable : Savable phase) : HookGuards worker strict thread (Within worker thread strict phase job)
    (setIf holds (.status .failed)) fun _ => Over worker thread strict phase :=
  .ite (fun _ => (within_fail savable).mono id fun now => ⟨_, now⟩) fun _ => .pure fun now => ⟨job, now⟩

theorem over_set_free (savable : Savable phase) (free : change.free) : HookGuards worker strict thread
    (Over worker thread strict phase) (set change) fun _ => Over worker thread strict phase :=
  over_within fun job => (within_set_free savable.cored free).mono id fun now => ⟨job, now⟩

theorem over_setIf_free (savable : Savable phase) (free : change.free) : HookGuards worker strict thread
    (Over worker thread strict phase) (setIf holds change) fun _ => Over worker thread strict phase :=
  .ite (fun _ => over_set_free savable free) fun _ => .pure id

theorem within_emitFailure (savable : Savable phase) : HookGuards worker strict thread (Within worker thread strict phase job)
    emitFailure fun _ => Over worker thread strict phase := by
  refine Triple.bind within_ask fun _ => Triple.bind (within_read savable.cored) fun read => Triple.ite (fun _ => ?_) fun _ =>
    .pure fun now => ⟨read, now⟩
  exact Triple.bind (within_set_free savable.cored rfl) fun _ => Triple.bind (within_failIf savable) fun _ =>
    Triple.bind (over_set_free savable rfl) fun _ => .pure id

theorem within_emit (savable : Savable phase) : HookGuards worker strict thread (Within worker thread strict phase job) emit
    fun _ => Over worker thread strict phase :=
  Triple.bind (within_persist savable) fun _ => Triple.ite (fun _ => .pure id) fun _ => over_within fun _ => within_emitFailure savable

theorem over_emit (savable : Savable phase) : HookGuards worker strict thread (Over worker thread strict phase) emit
    fun _ => Over worker thread strict phase :=
  over_within fun _ => within_emit savable

theorem over_persist (savable : Savable phase) : HookGuards worker strict thread (Over worker thread strict phase) persist
    fun _ => Over worker thread strict phase :=
  over_within fun _ => within_persist savable

theorem over_read (cored : Cored phase) : HookGuards worker strict thread (Over worker thread strict phase) readJob
    fun read => Within worker thread strict phase read :=
  over_within fun _ => within_read cored

theorem within_cancel : HookGuards worker strict thread (Within worker thread strict Job.Calm job) cancelHeld
    fun _ => Over worker thread strict Job.Calm := by
  refine Triple.bind (within_read Job.Calm.cored) fun read => Triple.ite (fun _ => .pure fun now => ⟨read, now⟩) fun open' => ?_
  have fresh (calm : read.Calm) : read.Fresh := calm.1.resolve_right fun closed => open' closed.2.1
  refine Triple.bind (within_set (.status .cancelled) Job.Calm (fun _ => ⟨nofun, fun _ => rfl⟩) fun calm =>
    ⟨.inl (fresh calm), nofun⟩) fun _ => ?_
  exact Triple.bind (within_setIf_free Job.Calm.cored rfl) fun _ => Triple.bind (within_setIf_free Job.Calm.cored rfl) fun _ =>
    within_emit savable_calm

/-- The thread holds the condition of the job it may settle, and the hook was not called. -/
def Uncalled (worker thread : Thread) (strict : Bool) (phase : Job → Prop) (job : Job) (world : World) : Prop :=
  Within worker thread strict phase job world ∧ world.hookCalls = 0

theorem Uncalled.unsettled (now : Uncalled worker thread strict phase job world) : world.settled = false := by
  cases settled : world.settled with
  | false => rfl
  | true => exact absurd now.2 (now.1.gated.settled settled)

theorem stable_uncalled (own : thread.manager = worker.manager) : HookKept worker strict thread (Uncalled worker thread strict phase job) := by
  intro state next step now
  refine ⟨stable_within _ _ step now.1, ?_⟩
  rcases step with ⟨other, different, safe⟩ | ⟨_, _, rfl⟩
  · obtain ⟨_, _, _, _, _, holds⟩ := now.1.unsettled now.unsettled
    rw [own] at holds
    refine ((safe.calls now.unsettled ?_).1).trans now.2
    rw [holds]
    exact fun same => different (Option.some.inj same).symm
  · exact now.2

/-- The hook of a claimed settlement is called. -/
def Job.Called (job : Job) : Prop := job.terminalHookStatus = none ∧ job.terminalHookCalled

theorem Job.Called.cored : Cored Job.Called := fun same called => by
  unfold Job.Called at *
  rwa [Job.terminalHookStatus_eq_of_core same, Job.called_eq_of_core same]

theorem uncalled_set (own : thread.manager = worker.manager) (change : Change) (later : Job → Prop)
    (permitted : phase job → change.permitted worker thread strict job) (next : phase job → later (job.set change)) :
    HookGuards worker strict thread (Uncalled worker thread strict phase job) (set change) fun _ =>
      Uncalled worker thread strict later (job.set change) :=
  Triple.one (stable_uncalled own) fun {before _ _} now executed => by
    obtain ⟨safe, after⟩ := within_set change later permitted next before now.1 before (.refl _) _ _ executed
    refine ⟨safe, after, ?_⟩
    obtain ⟨_, _, done⟩ := executed
    obtain ⟨copy, _, same⟩ := Option.map_eq_some_iff.mp done
    cases same
    exact now.2

theorem uncalled_read (own : thread.manager = worker.manager) (cored : Cored phase) : HookGuards worker strict thread
    (Uncalled worker thread strict phase job) readJob fun read => Uncalled worker thread strict phase read :=
  Triple.one (stable_uncalled own) fun {before _ _} now executed => by
    obtain ⟨safe, after⟩ := within_read cored before now.1 before (.refl _) _ _ executed
    refine ⟨safe, after, ?_⟩
    obtain ⟨_, _, done⟩ := executed
    obtain ⟨copy, _, same⟩ := Option.map_eq_some_iff.mp done
    cases same
    exact now.2

/-- The hook was called and did not return. -/
def Job.Raised (strict : Bool) (job : Job) : Prop := strict → job.status ≠ .completed

theorem Job.Raised.cored : Cored (Job.Raised strict) := fun same raised strict' => by
  rw [Job.status_eq_of_core same]
  exact raised strict'

theorem uncalled_callHook (own : thread.manager = worker.manager) : HookGuards worker strict thread
    (Uncalled worker thread strict Job.Called job) callHook fun returned world =>
      Over worker thread strict (fun job => returned = false ∧ job.Raised strict) world :=
  Triple.one (stable_uncalled own) fun {before _ _} now executed => by
    obtain ⟨fate, raises, done⟩ := executed
    obtain ⟨copy, found, core, _, called, holds⟩ := now.1.unsettled now.unsettled
    have claimed : ∀ {job}, before.jobs worker.manager = some job → job.terminalHookCalled := fun found' => by
      rw [← own, found] at found'
      cases found'
      exact (Job.called_eq_of_core core).trans called.2
    have safe (result : Bool) : HookSafe worker strict thread before
        { before with hookCalls := before.hookCalls + 1, settled := result } := .callHook (own ▸ holds) now.2 now.unsettled claimed
    simp only [execute] at done
    split at done
    · cases done
      exact ⟨safe true, job, (safe true).gated now.1.gated, .inl rfl⟩
    · rename_i raised
      cases done
      have kept : { before with hookCalls := before.hookCalls + 1 } =
          { before with hookCalls := before.hookCalls + 1, settled := false } := by rw [← now.unsettled]
      rw [kept]
      refine ⟨safe false, copy, (safe false).gated now.1.gated, .inr ⟨rfl, ⟨rfl, fun strict' => ?_⟩, holds, copy, found, rfl⟩⟩
      exact (raises strict' rfl).resolve_left raised found

theorem over_hookFailed : HookGuards worker strict thread (Over worker thread strict (Job.Raised strict)) hookFailed
    fun _ => Over worker thread strict Job.Closed := by
  refine Triple.bind (over_read Job.Raised.cored) fun _ => Triple.bind (within_setIf_free Job.Raised.cored rfl) fun _ => ?_
  have marked : Cored fun job => job.terminalHookStatus.isSome := fun same settled => by
    simpa [Job.terminalHookStatus_eq_of_core same] using settled
  refine Triple.bind (within_set (.terminalHookStatus .failedReconciliationRequired) (fun job => job.terminalHookStatus.isSome)
    (fun raised => ⟨nofun, raised⟩) fun _ => rfl) fun _ => Triple.bind (within_read marked) fun read => ?_
  have fails : HookGuards worker strict thread (Within worker thread strict (fun job => job.terminalHookStatus.isSome) read)
      (setIf (read.status == .completed || !read.status.terminal) (.status .failed)) fun _ => Over worker thread strict Job.Closed := by
    refine .ite (fun _ => ?_) fun terminal => .pure fun now => ⟨read, now.mono fun settled => ⟨settled, ?_⟩⟩
    · exact (within_set (.status .failed) Job.Closed (fun _ => ⟨nofun, fun _ => rfl⟩) fun settled => ⟨settled, rfl, nofun⟩).mono id
        fun now => ⟨_, now⟩
    · simpa [and_comm, not_or] using terminal
  exact Triple.bind fails fun _ => over_set_free savable_closed rfl

theorem uncalled_settle (own : thread.manager = worker.manager) {guarded : Bool} : HookGuards worker strict thread
    (Uncalled worker thread strict Job.Fresh job) (settle guarded) fun _ => Over worker thread strict Job.Closed := by
  refine Triple.bind (uncalled_set own .terminalHookCalled Job.Called (fun _ => trivial) fun fresh => ⟨fresh.1, rfl⟩) fun _ =>
    Triple.bind (uncalled_read own Job.Called.cored) fun read => ?_
  have outcome {holds : Bool} {value : Option Outcome} : HookGuards worker strict thread (Uncalled worker thread strict Job.Called read)
      (setIf holds (.executionOutcome value)) fun _ world => ∃ job, Uncalled worker thread strict Job.Called job world :=
    .ite (fun _ => (uncalled_set own (.executionOutcome value) Job.Called (fun _ => trivial) id).mono id fun now => ⟨_, now⟩)
      fun _ => .pure fun now => ⟨read, now⟩
  have calls (job : Job) : HookGuards worker strict thread (Uncalled worker thread strict Job.Called job) callTerminalHook
      fun _ => Over worker thread strict Job.Closed := by
    refine Triple.bind (uncalled_callHook own) fun returned => ?_
    cases returned with
    | true =>
      exact over_within fun job => (within_set (.terminalHookStatus .completed) Job.Closed (fun raised => nomatch raised.1)
        fun raised => nomatch raised.1).mono id fun now => ⟨_, now⟩
    | false => exact over_hookFailed.mono (Over.mono And.right) id
  have guards : HookGuards worker strict thread (Over worker thread strict Job.Closed) (guardPublication guarded)
      fun _ => Over worker thread strict Job.Closed := by
    refine Triple.bind (over_read Job.Closed.cored) fun read => Triple.ite (fun _ => ?_) fun _ => .pure fun now => ⟨read, now⟩
    refine Triple.bind within_ask fun _ => Triple.ite (fun _ => .pure fun now => ⟨read, now⟩) fun _ => ?_
    exact Triple.bind (within_set_free Job.Closed.cored rfl) fun _ => Triple.bind (within_failIf savable_closed) fun _ =>
      over_setIf_free savable_closed rfl
  have uncertain : HookGuards worker strict thread (Over worker thread strict Job.Closed) settlementUncertain
      fun _ => Over worker thread strict Job.Closed := by
    refine Triple.bind (over_read Job.Closed.cored) fun _ => Triple.bind (within_setIf_free Job.Closed.cored rfl) fun _ => ?_
    refine Triple.bind (within_set (.terminalHookStatus .persistenceUncertain) Job.Closed (fun closed => ⟨nofun, fun _ => closed.2.2⟩)
      fun closed => ⟨rfl, closed.2⟩) fun _ => ?_
    exact Triple.bind (within_failIf savable_closed) fun _ => over_setIf_free savable_closed rfl
  exact Triple.bind outcome fun _ => Triple.bind (fun world ⟨job, now⟩ => calls job world now) fun _ => Triple.bind guards fun _ =>
    Triple.bind (over_persist savable_closed) fun _ => Triple.ite (fun _ => .pure id) fun _ => uncertain

theorem within_finish {guarded : Bool} : HookGuards worker strict thread (Within worker thread strict Job.Steady job)
    (finishHeld guarded) fun _ => Over worker thread strict Job.Closed := by
  have reads : HookGuards worker strict thread (Within worker thread strict Job.Steady job) readJob fun read world =>
      read.hooked = decide (thread.manager = worker.manager) ∧
      Within worker thread strict (fun job => job.Steady ∧ job.dispatchHooksRequired ∧
        (thread.manager ≠ worker.manager → job.status.terminal ∧ job.status ≠ .completed)) read world ∧
      (thread.manager = worker.manager → read.terminalHookCalled = false → world.hookCalls = 0) :=
    Triple.one stable_within fun {before _ _} now executed => by
      have derive {world : World} {read : Job} (unsettled : Unsettled worker strict thread.manager world read) (steady : read.Steady) :
          read.Steady ∧ read.dispatchHooksRequired ∧
            (thread.manager ≠ worker.manager → read.status.terminal ∧ read.status ≠ .completed) :=
        ⟨steady, unsettled.required, fun foreign => ⟨unsettled.foreign foreign, fun completed => foreign (unsettled.drafted completed).1⟩⟩
      obtain ⟨safe, after⟩ := within_readJob Job.Steady.cored _ derive before now before (.refl _) _ _ executed
      obtain ⟨_, _, done⟩ := executed
      obtain ⟨read, found, answer⟩ := Option.map_eq_some_iff.mp done
      cases answer
      refine ⟨safe, now.gated.hooked found, after, fun own uncalled => ?_⟩
      by_contra calls
      simp [now.gated.called calls (own ▸ found)] at uncalled
  refine Triple.bind reads fun read => Triple.fact fun hooked => Triple.ite (fun done => ?_) fun undone => ?_
  · refine .pure fun now => ⟨read, now.1.mono fun ⟨steady, _⟩ => steady.resolve_left fun fresh => ?_⟩
    simp [fresh.1, fresh.2] at done
  · have untouched : read.terminalHookCalled = false ∧ read.terminalHookStatus = none := by simpa using undone
    refine Triple.ite (fun mine => ?_) fun foreign => ?_
    · have own : thread.manager = worker.manager := by simpa [mine] using hooked
      exact (uncalled_settle own).mono (fun now => ⟨now.1.mono fun _ => ⟨untouched.2, untouched.1⟩, now.2 own untouched.1⟩) id
    · have foreign : thread.manager ≠ worker.manager := by
        intro own
        simp [hooked, own] at foreign
      refine Triple.ite (fun _ => ?_) fun free => .pure fun now => ⟨read, now.1.mono fun ⟨_, required, _⟩ => absurd required free⟩
      refine Triple.bind ((within_set (.terminalHookStatus .missingReconciliationRequired) Job.Closed
        (fun now => ⟨nofun, fun _ => (now.2.2 foreign).2⟩) fun now => ⟨rfl, now.2.2 foreign⟩).mono And.left id) fun _ => ?_
      refine Triple.bind (within_persist savable_closed) fun _ => Triple.ite (fun _ => .pure id) fun _ => over_within fun job => ?_
      exact (within_set (.terminalHookStatus .persistenceUncertain) Job.Closed (fun closed => ⟨nofun, fun _ => closed.2.2⟩)
        fun closed => ⟨rfl, closed.2⟩).mono id fun now => ⟨_, now⟩

/-- The thread does not hold the condition of its copy, or the hook has returned. -/
def Waiting (worker thread : Thread) (strict : Bool) (world : World) : Prop :=
  Gated worker strict world ∧ (world.settled = true ∨ world.settled = false ∧ world.condition thread.manager ≠ some thread)

theorem stable_waiting : HookKept worker strict thread (Waiting worker thread strict) := by
  rintro state next step ⟨gated, now⟩
  refine ⟨hookStable_gated _ _ step gated, ?_⟩
  cases later : next.settled with
  | true => exact .inl rfl
  | false =>
    refine .inr ⟨rfl, ?_⟩
    rcases step with ⟨other, different, safe⟩ | stop
    · have unsettled : state.settled = false := by
        by_contra settled
        simp [safe.settled (by simpa using settled)] at later
      have free := (now.resolve_left (by simp [unsettled])).2
      exact fun holds => free ((safe.condition unsettled (Ne.symm different)).mp holds)
    · obtain ⟨manager, other, rfl⟩ := stop
      have free := (now.resolve_left (by simpa [World.stop] using later)).2
      simpa [World.stop, other] using free

/-- The same, and its manager has a copy. -/
def Out (worker thread : Thread) (strict : Bool) (world : World) : Prop :=
  Waiting worker thread strict world ∧ ∃ job, world.jobs thread.manager = some job

theorem stable_out : HookKept worker strict thread (Out worker thread strict) := stable_waiting.and hookStable_alive

theorem out_ask : HookGuards worker strict thread (Out worker thread strict) ask fun _ => Out worker thread strict :=
  Triple.one stable_out fun now executed => by
    obtain ⟨_, _, done⟩ := executed
    cases done
    exact ⟨.refl _, now⟩

theorem out_readJob : HookGuards worker strict thread (Out worker thread strict) readJob fun read world =>
    world.jobs thread.manager = some read ∧ Out worker thread strict world :=
  Triple.one stable_out fun now executed => by
    obtain ⟨_, _, done⟩ := executed
    obtain ⟨read, found, answer⟩ := Option.map_eq_some_iff.mp done
    cases answer
    exact ⟨.refl _, found, now⟩

theorem out_read : HookGuards worker strict thread (Out worker thread strict) readJob fun _ => Out worker thread strict :=
  out_readJob.mono id And.right

theorem out_set_free (free : change.free) : HookGuards worker strict thread (Out worker thread strict)
    (set change) fun _ => Out worker thread strict :=
  Triple.one stable_out fun {before _ _} ⟨⟨gated, now⟩, _⟩ executed => by
    obtain ⟨_, _, done⟩ := executed
    obtain ⟨job, found, same⟩ := Option.map_eq_some_iff.mp done
    cases same
    have safe : HookSafe worker strict thread before (before.setJob thread.manager (job.set change)) :=
      .set found fun _ => ⟨.inl free, Change.permitted_of_free free⟩
    exact ⟨safe, ⟨safe.gated gated, now⟩, _, World.setJob_jobs ..⟩

theorem out_find {rest : Routine Unit} (runs : HookGuards worker strict thread (Out worker thread strict) rest fun _ _ => True) :
    HookGuards worker strict thread (Waiting worker thread strict)
      (find >>= fun found => match found with | none => pure () | some _ => rest) fun _ _ => True := by
  have finds : HookGuards worker strict thread (Waiting worker thread strict) find fun found world =>
      world.jobs thread.manager = found ∧ Waiting worker thread strict world :=
    Triple.one stable_waiting fun now executed => by
      obtain ⟨_, _, done⟩ := executed
      cases done
      exact ⟨.refl _, rfl, now⟩
  refine Triple.bind finds fun found => ?_
  cases found with
  | none => exact .pure fun _ => trivial
  | some job => exact runs.mono (fun ⟨found, waiting⟩ => ⟨waiting, job, found⟩) id

variable {body : Routine Value}

theorem out_withJob
    (runs : ∀ job, HookGuards worker strict thread (Within worker thread strict Job.Calm job) body fun _ => Over worker thread strict Job.Calm) :
    HookGuards worker strict thread (Out worker thread strict) (withJob body) fun _ => Out worker thread strict := by
  have enter : HookGuards worker strict thread (Out worker thread strict) (Program.one Op.lockJob) fun _ =>
      Over worker thread strict Job.Calm := by
    refine Triple.one stable_out fun {before _ _} now executed => ?_
    obtain ⟨⟨gated, _⟩, job, found⟩ := now
    obtain ⟨_, _, done⟩ := executed
    cases unheld : before.condition thread.manager with
    | some holder => simp [execute, unheld] at done
    | none =>
      simp only [execute, unheld, Option.some.injEq] at done
      cases done
      have vacant {job : Job} (unsettled : Unsettled worker strict thread.manager before job) : job.status ≠ .completed :=
        fun completed => by
          have holds := (unsettled.drafted completed).2
          rw [unheld] at holds
          cases holds
      have safe : HookSafe worker strict thread before (before.hold thread.manager (some thread)) := by
        refine .hold (fun _ other different => ?_) fun _ _ _ unsettled => ⟨fun completed => absurd completed (vacant unsettled), by rintro ⟨⟩⟩
        simp [unheld, Ne.symm different]
      refine ⟨safe, job, safe.gated gated, ?_⟩
      cases settled : before.settled with
      | true => exact .inl settled
      | false =>
        have unsettled := (gated.copies found).resolve_left (by simp [settled])
        exact .inr ⟨settled, ⟨unsettled.steady unheld, vacant unsettled⟩, by simp, job, found, rfl⟩
  have leave : HookGuards worker strict thread (Over worker thread strict Job.Calm) (Program.one Op.unlockJob) fun _ =>
      Waiting worker thread strict := by
    refine Triple.one stable_over' fun {before _ _} now executed => ?_
    obtain ⟨job, now⟩ := now
    obtain ⟨_, _, done⟩ := executed
    cases done
    have safe : HookSafe worker strict thread before (before.hold thread.manager none) := by
      refine .hold (fun settled other different => ?_) fun settled copy found _ => ?_
      · obtain ⟨_, _, _, _, _, holds⟩ := now.unsettled settled
        simp [holds, Ne.symm different]
      · obtain ⟨_, found', core, _, calm, _⟩ := now.unsettled settled
        rw [found] at found'
        cases found'
        have calm := calm.of_core core
        exact ⟨fun completed => absurd completed calm.2, fun _ => calm.1⟩
    refine ⟨safe, safe.gated now.gated, ?_⟩
    cases settled : before.settled with
    | true => exact .inl settled
    | false => exact .inr ⟨settled, by simp⟩
  have section' : HookGuards worker strict thread (Out worker thread strict) (withJob body) fun _ => Waiting worker thread strict :=
    Triple.bind enter fun _ => Triple.bind (over_within runs) fun _ => Triple.bind leave fun _ => .pure id
  exact (section'.frame hookStable_alive fun safe alive => safe.alive alive.choose_spec).mono (fun out => ⟨out, out.2⟩) id

theorem hook_withReview {kept : World → Prop} (stable : HookKept worker strict thread kept)
    (aside : ∀ {world : World} (review : Option Thread), kept world → kept { world with review := review })
    (runs : HookGuards worker strict thread kept body fun _ => kept) :
    HookGuards worker strict thread kept (withReview body) fun _ => kept := by
  have enter : HookGuards worker strict thread kept (Program.one Op.lockReview) fun _ => kept := by
    refine Triple.one stable fun {before _ _} now executed => ?_
    obtain ⟨_, _, done⟩ := executed
    cases unheld : before.review with
    | some holder => simp [execute, unheld] at done
    | none =>
      simp only [execute, unheld, Option.some.injEq] at done
      cases done
      exact ⟨.aside, aside _ now⟩
  have leave : HookGuards worker strict thread kept (Program.one Op.unlockReview) fun _ => kept := by
    refine Triple.one stable fun now executed => ?_
    obtain ⟨_, _, done⟩ := executed
    cases done
    exact ⟨.aside, aside _ now⟩
  exact Triple.bind enter fun _ => Triple.bind runs fun _ => Triple.bind leave fun _ => .pure id

theorem Waiting.aside (review : Option Thread) (now : Waiting worker thread strict world) :
    Waiting worker thread strict { world with review := review } := by
  have safe : HookSafe worker strict thread world { world with review := review } := .aside
  exact ⟨safe.gated now.1, now.2⟩

theorem out_withReview
    (runs : HookGuards worker strict thread (Out worker thread strict) body fun _ => Out worker thread strict) :
    HookGuards worker strict thread (Out worker thread strict) (withReview body) fun _ => Out worker thread strict :=
  hook_withReview stable_out (fun review out => ⟨out.1.aside review, out.2⟩) runs

theorem within_stop : HookGuards worker strict thread (Within worker thread strict Job.Calm job) stopCancelled
    fun _ => Over worker thread strict Job.Calm :=
  Triple.bind within_cancel fun _ => .pure id

theorem within_refuse : HookGuards worker strict thread (Within worker thread strict Job.Calm job) refuseBounds
    fun _ => Over worker thread strict Job.Calm :=
  Triple.bind (within_set_free Job.Calm.cored rfl) fun _ => Triple.bind (within_set_free Job.Calm.cored rfl) fun _ =>
    Triple.bind (within_set_free Job.Calm.cored rfl) fun _ => .pure fun now => ⟨job, now⟩

theorem Job.Calm.fresh (calm : job.Calm) (open' : ¬job.status.terminal) : job.Fresh :=
  calm.1.resolve_right fun closed => open' closed.2.1

theorem within_claim : HookGuards worker strict worker (Within worker worker strict Job.Calm job) claim
    fun _ => Over worker worker strict Job.Calm := by
  refine Triple.bind (within_read Job.Calm.cored) fun read => Triple.ite (fun _ => .pure fun now => ⟨read, now⟩) fun open' =>
    Triple.ite (fun _ => within_stop) fun _ => ?_
  exact Triple.bind (within_set (.status .generating) Job.Calm (fun _ => ⟨nofun, fun foreign => absurd rfl foreign⟩)
    fun calm => ⟨.inl (calm.fresh open'), nofun⟩) fun _ => Triple.bind (within_emit savable_calm) fun _ => .pure id

theorem within_streamEvent (happening : Happening) : HookGuards worker strict thread (Within worker thread strict Job.Calm job)
    (streamEvent happening) fun _ => Over worker thread strict Job.Calm := by
  refine Triple.bind (within_read Job.Calm.cored) fun read => Triple.ite (fun _ => .pure fun now => ⟨read, now⟩) fun _ =>
    Triple.ite (fun _ => within_stop) fun _ => ?_
  cases happening with
  | cancelled => exact within_stop
  | delta text =>
    refine Triple.bind within_ask fun _ => Triple.ite (fun _ => Triple.bind within_ask fun _ => Triple.ite (fun _ => ?_)
      fun _ => .pure fun now => ⟨read, now⟩) fun _ => within_refuse
    refine Triple.bind (within_read Job.Calm.cored) fun read => Triple.ite (fun _ => .pure fun now => ⟨read, now⟩) fun _ =>
      Triple.ite (fun _ => within_stop) fun _ => Triple.bind ?_ fun _ => .pure id
    exact Triple.bind (within_read Job.Calm.cored) fun _ => Triple.bind (within_setIf_free Job.Calm.cored rfl) fun _ =>
      within_emit savable_calm
  | completed =>
    refine Triple.bind within_ask fun _ => Triple.ite (fun _ => ?_) fun _ => within_refuse
    refine Triple.bind (within_read Job.Calm.cored) fun read => Triple.bind (within_setIf_free Job.Calm.cored rfl) fun _ =>
      Triple.bind within_ask fun _ => Triple.ite (fun _ => ?_) fun _ => .pure fun now => ⟨read, now⟩
    exact Triple.bind (within_read Job.Calm.cored) fun read => .pure fun now => ⟨read, now⟩
  | route | snapshot | failed | bounds | failure => exact .pure fun now => ⟨read, now⟩

theorem within_handle : HookGuards worker strict thread (Within worker thread strict Job.Calm job) handleHeld
    fun _ => Over worker thread strict Job.Calm := by
  refine Triple.bind (within_read Job.Calm.cored) fun read => Triple.ite (fun _ => .pure fun now => ⟨read, now⟩) fun _ =>
    Triple.ite (fun _ => ?_) fun _ => Triple.ite (fun _ => Triple.bind within_cancel fun _ => .pure id) fun _ => ?_
  · exact Triple.bind (within_set_free Job.Calm.cored rfl) fun _ => Triple.bind (within_fail savable_calm) fun _ =>
      Triple.bind (within_set_free Job.Calm.cored rfl) fun _ => Triple.bind (within_set_free Job.Calm.cored rfl) fun _ =>
      Triple.bind (within_emit savable_calm) fun _ => .pure id
  · exact Triple.bind within_ask fun _ => Triple.bind (within_setIf_free Job.Calm.cored rfl) fun _ =>
      Triple.bind (within_fail savable_calm) fun _ => Triple.bind (within_setIf_free Job.Calm.cored rfl) fun _ =>
      Triple.bind (within_set_free Job.Calm.cored rfl) fun _ => Triple.bind (within_emit savable_calm) fun _ => .pure id

theorem savable_fresh : Savable Job.Fresh := ⟨Job.Fresh.cored, .inl, id⟩

theorem over_publishDraft : HookGuards worker strict thread (Over worker thread strict Job.Closed) publishDraft
    fun _ => Over worker thread strict Job.Closed := by
  have discards : HookGuards worker strict thread (Over worker thread strict Job.Closed) discardIsolated
      fun _ => Over worker thread strict Job.Closed := by
    refine Triple.bind (over_read Job.Closed.cored) fun read => Triple.ite (fun _ => Triple.bind within_ask fun _ =>
      Triple.ite (fun _ => .pure fun now => ⟨read, now⟩) fun _ => ?_) fun _ => .pure fun now => ⟨read, now⟩
    exact Triple.bind (within_set_free Job.Closed.cored rfl) fun _ => Triple.bind ((within_fail savable_closed).mono id fun now => ⟨_, now⟩)
      fun _ => over_setIf_free savable_closed rfl
  have confirms : HookGuards worker strict thread (Over worker thread strict Job.Closed) confirmDirector
      fun _ => Over worker thread strict Job.Closed := by
    refine Triple.bind (over_read Job.Closed.cored) fun read => Triple.ite (fun _ => Triple.bind within_ask fun _ =>
      Triple.ite (fun _ => Triple.bind within_ask fun _ => Triple.ite (fun _ => .pure fun now => ⟨read, now⟩) fun _ => ?_)
        fun _ => ?_) fun _ => .pure fun now => ⟨read, now⟩
    · exact Triple.bind (within_fail savable_closed) fun _ => Triple.bind (within_set_free Job.Closed.cored rfl) fun _ =>
        Triple.bind (within_set_free Job.Closed.cored rfl) fun _ => .pure fun now => ⟨_, now⟩
    · exact Triple.bind (within_set_free Job.Closed.cored rfl) fun _ => Triple.bind (within_set_free Job.Closed.cored rfl) fun _ =>
        Triple.bind (within_set_free Job.Closed.cored rfl) fun _ => .pure fun now => ⟨read, now⟩
  exact Triple.bind discards fun _ => Triple.bind (over_emit savable_closed) fun _ => Triple.ite (fun _ => confirms) fun _ => .pure id

theorem over_publishLive {status : Status} (open' : status.terminal = false) : HookGuards worker strict worker
    (Over worker worker strict Job.Closed) (publishLive status) fun _ => Over worker worker strict Job.Calm := by
  have calm {job : Job} {world : World} (now : Within worker worker strict Job.Closed job world) : Over worker worker strict Job.Calm world :=
    ⟨job, now.mono Job.Closed.calm⟩
  refine Triple.bind (over_read Job.Closed.cored) fun read => Triple.ite (fun _ => ?_) fun _ => Triple.ite (fun _ => .pure calm) fun same => ?_
  · exact Triple.bind (within_emit savable_closed) fun _ => .pure (Over.mono Job.Closed.calm)
  refine Triple.bind within_ask fun _ => Triple.ite (fun _ => ?_) fun _ => .pure calm
  refine Triple.bind (within_read Job.Closed.cored) fun again => Triple.ite (fun _ => .pure calm) fun same => ?_
  have never (closed : again.Closed) : False := by
    have same : again.status = status := by simpa using same
    simp [same, open', Job.Closed] at closed
  refine Triple.ite (fun _ => Triple.bind (within_cancel.mono (fun now => now.mono fun closed => (never closed).elim) id) fun _ => .pure id)
    fun _ => ?_
  exact Triple.bind ((within_set (.status .completed) Job.Closed (fun closed => (never closed).elim) fun closed => (never closed).elim).mono id
    fun now => ⟨_, now⟩) fun _ => over_publishDraft.mono id (Over.mono Job.Closed.calm)

/-- What the handlers of the publication find. -/
def Leaves (worker : Thread) (strict : Bool) (ended : Published) (world : World) : Prop :=
  Over worker worker strict Job.Steady world ∧ (ended = .raised ∨ Over worker worker strict Job.Calm world)

theorem Leaves.of_calm {ended : Published} (now : Over worker worker strict Job.Calm world) :
    Leaves worker strict ended world :=
  ⟨now.mono And.left, .inr now⟩

theorem within_publishSettled {live settles : Bool} {status : Status} (open' : status.terminal = false) : HookGuards worker strict worker
    (Within worker worker strict Job.Fresh job) (publishSettled live settles status) (Leaves worker strict) := by
  have receipt : HookGuards worker strict worker (Within worker worker strict Job.Fresh job) (if settles then persist else pure true)
      fun _ => Over worker worker strict Job.Fresh :=
    .ite (fun _ => within_persist savable_fresh) fun _ => .pure fun now => ⟨job, now⟩
  refine Triple.bind receipt fun _ => Triple.ite (fun _ => ?_) fun _ => .pure fun now => ⟨now.mono .inl, .inl rfl⟩
  refine Triple.bind ((over_within fun _ => within_finish).mono (Over.mono .inl) id) fun _ => Triple.ite (fun _ => ?_) fun _ => ?_
  · exact (over_publishLive open').mono id .of_calm
  · exact over_publishDraft.mono id fun now => .of_calm (now.mono Job.Closed.calm)

theorem within_publish : HookGuards worker strict worker (Within worker worker strict Job.Calm job) publishHeld
    fun _ => Over worker worker strict Job.Calm := by
  refine Triple.bind (within_read Job.Calm.cored) fun read => Triple.ite (fun _ => .pure fun now => ⟨read, now⟩) fun _ =>
    Triple.ite (fun _ => within_stop) fun _ => Triple.bind within_ask fun _ => Triple.ite (fun _ => ?_) fun _ => .pure fun now => ⟨read, now⟩
  refine Triple.bind (within_read Job.Calm.cored) fun again => Triple.ite (fun _ => .pure fun now => ⟨again, now⟩) fun open' => ?_
  refine Triple.bind (within_set _ Job.Fresh (fun calm => ⟨fun _ => ⟨rfl, fun _ => (calm.fresh open').1⟩, fun foreign => absurd rfl foreign⟩)
    fun calm => calm.fresh open') fun _ => Triple.bind (within_set_free Job.Fresh.cored rfl) fun _ =>
    Triple.bind (within_publishSettled (by split <;> rfl)) fun ended => ?_
  cases ended with
  | done | returned => exact .pure fun now => now.2.resolve_left nofun
  | refused =>
    have refused : HookGuards worker strict worker (Over worker worker strict Job.Calm) publicationRefused
        fun _ => Over worker worker strict Job.Calm := by
      refine Triple.bind (over_read Job.Calm.cored) fun read => Triple.ite (fun _ => .pure fun now => ⟨read, now⟩) fun _ => ?_
      exact Triple.bind (within_set_free Job.Calm.cored rfl) fun _ => Triple.bind (within_fail savable_calm) fun _ =>
        Triple.bind (within_set_free Job.Calm.cored rfl) fun _ => Triple.bind (within_emit savable_calm) fun _ => .pure id
    exact refused.mono (fun now => now.2.resolve_left nofun) id
  | raised =>
    have uncertain : HookGuards worker strict worker (Over worker worker strict Job.Steady) publicationUncertain
        fun _ => Over worker worker strict Job.Calm := by
      refine over_within fun job => Triple.bind (within_set (.status .failed) Job.Calm (fun _ => ⟨nofun, fun _ => rfl⟩) Job.Steady.failed)
        fun _ => Triple.bind (within_read Job.Calm.cored) fun _ => Triple.bind (within_setIf_free Job.Calm.cored rfl) fun _ => ?_
      exact Triple.bind (within_set_free Job.Calm.cored rfl) fun _ => Triple.bind (within_persist savable_calm) fun _ => .pure id
    exact uncertain.mono And.left id

theorem out_refuse : HookGuards worker strict thread (Out worker thread strict) refuseBounds fun _ => Out worker thread strict :=
  Triple.bind (out_set_free rfl) fun _ => Triple.bind (out_set_free rfl) fun _ => Triple.bind (out_set_free rfl) fun _ => .pure id

theorem out_stop : HookGuards worker strict thread (Out worker thread strict) (withJob stopCancelled) fun _ => Out worker thread strict :=
  out_withJob fun _ => within_stop

/-- Outside its condition the worker never finds its copy completed before the hook has
returned. -/
theorem out_persist : HookGuards worker strict worker (Out worker worker strict) persist fun _ => Out worker worker strict := by
  have reads : HookGuards worker strict worker (Out worker worker strict) readJob fun read world =>
      Out worker worker strict world ∧ (world.settled = true ∨ read.record.Unsettled) :=
    out_readJob.mono id fun {read world} ⟨found, out⟩ => ⟨out, by
      cases settled : world.settled with
      | true => exact .inl rfl
      | false =>
        have unsettled := (out.1.1.copies found).resolve_left (by simp [settled])
        have free := (out.1.2.resolve_left (by simp [settled])).2
        have uncompleted : read.status ≠ .completed := fun completed => free (unsettled.drafted completed).2
        exact .inr ⟨unsettled.required, unsettled.hook, by
          change read.publicStatus ≠ .completed
          rwa [Job.publicStatus_of_uncompleted uncompleted]⟩⟩
  refine Triple.bind reads fun read => Triple.one ?_ fun {before _ _} ⟨⟨⟨gated, now⟩, alive⟩, gate⟩ executed => ?_
  · rintro state next step ⟨out, gate⟩
    refine ⟨stable_out _ _ step out, gate.imp_left fun settled => ?_⟩
    rcases step with ⟨_, _, safe⟩ | ⟨_, _, rfl⟩
    · exact safe.settled settled
    · exact settled
  obtain ⟨fate, _, done⟩ := executed
  have safe : HookSafe worker strict worker before (before.save worker read.record) := .save gate
  have after : Out worker worker strict (before.save worker read.record) := ⟨⟨safe.gated gated, now⟩, alive⟩
  cases fate with
  | returns =>
    cases done
    exact ⟨safe, after⟩
  | raises =>
    cases done
    exact ⟨.refl _, ⟨gated, now⟩, alive⟩
  | raisesAfter =>
    cases done
    exact ⟨safe, after⟩

theorem out_happen (happening : Happening) : HookGuards worker strict worker (Out worker worker strict) (happen happening)
    fun _ => Out worker worker strict := by
  cases happening with
  | route => exact Triple.bind out_read fun _ => Triple.ite (fun _ => out_stop) fun _ => .pure id
  | snapshot =>
    exact Triple.bind out_persist fun _ => Triple.ite (fun _ => .pure id) fun _ => Triple.bind out_ask fun _ => .pure id
  | bounds => exact out_refuse
  | failure => exact .pure id
  | delta | completed | cancelled | failed => exact out_withJob fun _ => within_streamEvent _

theorem out_conclude : HookGuards worker strict worker (Out worker worker strict) conclude fun _ => Out worker worker strict := by
  refine Triple.bind out_read fun _ => Triple.ite (fun _ => out_stop) fun _ => Triple.bind out_ask fun _ =>
    Triple.ite (fun _ => Triple.bind out_ask fun _ => Triple.ite (fun _ => ?_) fun _ => out_refuse) fun _ => .pure id
  exact Triple.bind out_read fun _ => Triple.ite (fun _ => out_stop) fun _ => out_withReview (out_withJob fun _ => within_publish)

theorem out_generate (plan : List Happening) : HookGuards worker strict worker (Out worker worker strict) (generate plan)
    fun _ => Out worker worker strict := by
  induction plan with
  | nil => exact out_conclude
  | cons happening plan ih =>
    refine Triple.bind (out_happen happening) fun ending => ?_
    cases ending with
    | goesOn => exact ih
    | returns | raises => exact .pure id

theorem out_work (plan : List Happening) : HookGuards worker strict worker (Out worker worker strict) (work plan)
    fun _ => Out worker worker strict := by
  refine Triple.bind out_ask fun _ => Triple.ite (fun _ => ?_) fun _ => .pure id
  refine Triple.bind out_read fun _ => Triple.ite (fun _ => out_stop) fun _ => Triple.bind (out_withJob fun _ => within_claim) fun ending => ?_
  cases ending with
  | goesOn => exact out_generate plan
  | returns | raises => exact .pure id

theorem out_finish : HookGuards worker strict thread (Out worker thread strict) finishTerminalHook fun _ => Out worker thread strict :=
  out_withJob fun _ => (within_finish.mono (fun now => now.mono And.left) id).mono id (Over.mono Job.Closed.calm)

theorem out_run (plan : List Happening) : HookGuards worker strict worker (Out worker worker strict) (run plan)
    fun _ => Out worker worker strict := by
  refine Triple.bind (out_work plan) fun ending => ?_
  cases ending with
  | raises => exact Triple.bind (out_withJob fun _ => within_handle) fun _ => out_finish
  | goesOn | returns => exact out_finish

def Done (worker : Thread) (strict : Bool) (world : World) : Prop := Gated worker strict world ∧ world.settled = true

/-- An operation that neither calls the hook nor brings a copy. -/
def Op.quiet : Op → Bool
  | .callHook | .install _ => false
  | _ => true

theorem done_one (op : Op) (quiet : op.quiet) : HookGuards worker strict thread
    (Done worker strict) (Program.one op) fun _ => Done worker strict := by
  refine Triple.one ?_ fun {before answer after} ⟨gated, settled⟩ executed => ?_
  · rintro state next step ⟨gated, settled⟩
    refine ⟨hookStable_gated _ _ step gated, ?_⟩
    rcases step with ⟨_, _, safe⟩ | ⟨_, _, rfl⟩
    · exact safe.settled settled
    · exact settled
  have never {fact : Prop} (unsettled : before.settled = false) : fact := by simp [settled] at unsettled
  suffices safe : HookSafe worker strict thread before after from ⟨safe, safe.gated gated, safe.settled settled⟩
  obtain ⟨fate, _, done⟩ := executed
  cases op with
  | callHook | install => cases quiet
  | lockReview =>
    cases unheld : before.review <;> simp only [execute, unheld, reduceCtorEq, Option.some.injEq] at done
    cases done
    exact .aside
  | unlockReview =>
    cases done
    exact .aside
  | lockJob =>
    cases unheld : before.condition thread.manager <;> simp only [execute, unheld, reduceCtorEq, Option.some.injEq] at done
    cases done
    exact .hold never never
  | unlockJob =>
    cases done
    exact .hold never never
  | set change =>
    obtain ⟨job, found, same⟩ := Option.map_eq_some_iff.mp done
    cases same
    exact .set found never
  | readJob =>
    obtain ⟨job, found, same⟩ := Option.map_eq_some_iff.mp done
    cases same
    exact .refl _
  | save record =>
    cases fate <;> cases done
    · exact .save (.inl settled)
    · exact .refl _
    · exact .save (.inl settled)
  | writeChapter =>
    cases fate <;> cases done
    · exact .aside
    · exact .refl _
    · exact .aside
  | find | readStored | ask | readChapter =>
    cases done
    exact .refl _

theorem done_ask : HookGuards worker strict thread (Done worker strict) ask fun _ => Done worker strict := done_one .ask rfl

theorem done_set (change : Change) : HookGuards worker strict thread (Done worker strict) (set change) fun _ => Done worker strict :=
  done_one (.set change) rfl

theorem done_setIf : HookGuards worker strict thread (Done worker strict) (setIf holds change)
    fun _ => Done worker strict :=
  .ite (fun _ => done_set change) fun _ => .pure id

theorem done_readJob : HookGuards worker strict thread (Done worker strict) readJob fun _ => Done worker strict :=
  done_one .readJob rfl

theorem done_persist : HookGuards worker strict thread (Done worker strict) persist fun _ => Done worker strict :=
  Triple.bind done_readJob fun job => done_one (.save job.record) rfl

theorem done_emit : HookGuards worker strict thread (Done worker strict) emit fun _ => Done worker strict := by
  have fails : HookGuards worker strict thread (Done worker strict) emitFailure fun _ => Done worker strict := by
    refine Triple.bind done_ask fun _ => Triple.bind done_readJob fun _ => Triple.ite (fun _ => ?_) fun _ => .pure id
    exact Triple.bind (done_set _) fun _ => Triple.bind done_setIf fun _ => Triple.bind (done_set _) fun _ => .pure id
  exact Triple.bind done_persist fun _ => Triple.ite (fun _ => .pure id) fun _ => fails

theorem done_refresh (changes : List Change) : HookGuards worker strict thread (Done worker strict) (refresh changes)
    fun _ => Done worker strict := by
  induction changes with
  | nil => exact .pure id
  | cons change rest ih => exact Triple.bind (done_set change) fun _ => ih

theorem done_acceptClaim : HookGuards worker strict thread (Done worker strict) acceptClaim fun _ => Done worker strict := by
  have accepts : HookGuards worker strict thread (Done worker strict) acceptClaimed fun _ => Done worker strict := by
    refine Triple.bind done_ask fun _ => Triple.ite (fun _ => Triple.bind (done_one .writeChapter rfl) fun _ =>
      Triple.ite (fun _ => Triple.bind done_ask fun _ => Triple.ite (fun _ => ?_) fun _ => .pure id) fun _ => .pure id) fun _ => .pure id
    exact Triple.bind (done_set _) fun _ => Triple.bind done_emit fun _ => Triple.ite (fun _ => Triple.bind done_ask
      fun _ => Triple.ite (fun _ => .pure id) fun _ => done_one .readChapter rfl) fun _ => .pure id
  refine Triple.bind (done_set _) fun _ => Triple.bind done_persist fun _ =>
    Triple.ite (fun _ => Triple.bind accepts fun _ => Triple.ite (fun _ => .pure id) fun _ => ?_) fun _ => .pure id
  exact Triple.bind (done_set _) fun _ => Triple.bind (done_set _) fun _ => Triple.bind done_emit fun _ => .pure id

theorem done_acceptRefreshed : HookGuards worker strict thread (Done worker strict) acceptRefreshed fun _ => Done worker strict := by
  refine Triple.bind done_ask fun _ => Triple.ite (fun _ => Triple.bind done_readJob fun _ => Triple.ite (fun _ => ?_)
    fun _ => .pure id) fun _ => .pure id
  refine Triple.bind done_ask fun _ => Triple.ite (fun _ => Triple.bind done_readJob fun _ => Triple.ite (fun _ => ?_)
    fun _ => .pure id) fun _ => .pure id
  exact Triple.bind done_ask fun _ => Triple.ite (fun _ => done_acceptClaim) fun _ => .pure id

theorem within_accounted (cored : Cored phase) : HookGuards worker strict thread (Within worker thread strict phase job) readJob
    fun read => Within worker thread strict (fun job => phase job ∧ job.accounted = false) read :=
  within_readJob cored _ fun unsettled now => ⟨now, by
    have settles := unsettled.required
    have hook := unsettled.hook
    simp_all [Job.accounted, Job.settles]⟩

theorem Within.done {later : Job → Prop} (within : Within worker thread strict later job world) (never : ¬later job) :
    Done worker strict world :=
  ⟨within.gated, within.state.resolve_right fun ⟨_, now, _⟩ => never now⟩

theorem Done.over (done : Done worker strict world) : Over worker thread strict phase world :=
  ⟨⟨.author, false, false, false, false, .queued, "", none, none, false, none, false, false, false⟩, done.1, .inl done.2⟩

theorem within_accept : HookGuards worker strict thread (Within worker thread strict Job.Calm job) acceptHeld
    fun _ => Over worker thread strict Job.Calm := by
  refine Triple.bind within_ask fun _ => Triple.ite (fun _ => ?_) fun _ => .pure fun now => ⟨job, now⟩
  refine Triple.bind (within_accounted Job.Calm.cored) fun read => Triple.ite (fun gate => ?_) fun _ =>
    .pure fun now => ⟨read, now.mono And.left⟩
  have opened : read.accounted = true := by
    simp only [Bool.and_eq_true] at gate
    exact gate.1.2
  have done : ∀ {world}, Within worker thread strict (fun job => job.Calm ∧ job.accounted = false) read world → Done worker strict world :=
    fun now => now.done fun closed => by simp [opened] at closed
  refine Triple.mono (Triple.bind (done_one .readStored rfl) fun stored => ?_) done Done.over
  cases stored with
  | none => exact done_acceptRefreshed
  | some record => exact Triple.bind (done_refresh _) fun _ => done_acceptRefreshed

theorem within_reject : HookGuards worker strict thread (Within worker thread strict Job.Calm job) rejectHeld
    fun _ => Over worker thread strict Job.Calm := by
  have reads : HookGuards worker strict thread (Within worker thread strict Job.Calm job) readStored fun _ =>
      Within worker thread strict Job.Calm job :=
    Triple.one stable_within fun now executed => by
      obtain ⟨_, _, done⟩ := executed
      cases done
      exact ⟨.refl _, now⟩
  refine Triple.bind within_ask fun _ => Triple.ite (fun _ => Triple.bind reads fun _ => Triple.ite (fun _ => ?_)
    fun _ => .pure fun now => ⟨job, now⟩) fun _ => .pure fun now => ⟨job, now⟩
  refine Triple.bind (within_accounted Job.Calm.cored) fun read => Triple.ite (fun gate => ?_) fun _ =>
    .pure fun now => ⟨read, now.mono And.left⟩
  have opened : read.accounted = true := by
    simp only [Bool.and_eq_true] at gate
    exact gate.2
  have rejects : HookGuards worker strict thread (Done worker strict) (set (.status .rejected) >>= fun _ => emit >>= fun _ => pure ())
      fun _ => Done worker strict :=
    Triple.bind (done_set _) fun _ => Triple.bind done_emit fun _ => .pure id
  exact rejects.mono (fun now => now.done fun ⟨_, closed⟩ => by simp [opened] at closed) Done.over

variable {record : Record}

theorem Record.Unsettled.revived (unsettled : record.Unsettled) :
    (record.restored.dispatchHooksRequired ∧ record.restored.terminalHookStatus ≠ some .completed) ∧
      (record.restored.status.terminal ∧ record.restored.status ≠ .completed) ∧ record.restored.terminalHookCalled = false := by
  obtain ⟨required, hook, uncompleted⟩ := unsettled
  unfold Record.restored Record.revived
  split
  · exact ⟨⟨rfl, nofun⟩, ⟨rfl, nofun⟩, rfl⟩
  · split
    · exact ⟨⟨required, hook⟩, ⟨rfl, nofun⟩, rfl⟩
    · rename_i open'
      exact ⟨⟨required, hook⟩, ⟨by simpa using open', uncompleted⟩, rfl⟩

theorem Record.Unsettled.restored (unsettled : record.Unsettled) (world : World) (manager : Nat) :
    Jobs.Unsettled worker strict manager world record.restored := by
  obtain ⟨⟨required, hook⟩, ⟨terminal, uncompleted⟩, called⟩ := unsettled.revived
  refine ⟨required, hook, fun completed => absurd completed uncompleted, fun _ completed => absurd completed uncompleted,
    fun _ => terminal, fun _ => ?_⟩
  by_cases settled : record.restored.terminalHookStatus.isSome
  · exact Or.inr ⟨settled, terminal, uncompleted⟩
  · exact Or.inl ⟨by simpa using settled, called⟩

theorem Record.Unsettled.recovered (unsettled : record.Unsettled) : record.restored.record.Unsettled := by
  obtain ⟨⟨required, hook⟩, ⟨_, uncompleted⟩, _⟩ := unsettled.revived
  refine ⟨required, hook, ?_⟩
  change record.restored.publicStatus ≠ .completed
  rwa [Job.publicStatus_of_uncompleted uncompleted]

end NovelStudio.Jobs
