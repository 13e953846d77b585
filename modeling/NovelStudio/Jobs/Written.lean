import NovelStudio.Jobs.Reviews

/-! What every run of the job manager keeps of the decision on a job. -/

namespace NovelStudio.Jobs
open Library

variable {worker thread : Thread} {hooked : Bool} {job : Job} {plan : List Happening}
  {system next later : System} {action : Action} {actions more : List Action}

/-- The calls a decision has to survive: everything but a second settlement. -/
def Reviewed : Action → Bool
  | .start _ call => call != .finish
  | .turn .. | .stop _ => true

/-- The runs on which the decision is kept: every operation is `Sound`. -/
def Allowed (worker : Thread) (system : System) (action : Action) : Prop :=
  Reviewed action ∧ ∀ thread fate, action = .turn thread fate → ∀ op rest, system.threads.programs thread = .perform op rest →
    Sound worker thread system.world op fate

instance (worker thread : Thread) (world : World) (op : Op) (fate : Fate) : Decidable (Sound worker thread world op fate) :=
  match op with
  | .save _ => inferInstanceAs (Decidable (_ ∨ _))
  | .readChapter => inferInstanceAs (Decidable (_ = _))
  | .lockReview | .unlockReview | .lockJob | .unlockJob | .find | .readJob | .set _ | .install _ | .readStored | .ask
  | .writeChapter | .callHook => isTrue trivial

/-- `Allowed`, decided. -/
def allowed (worker : Thread) (system : System) (action : Action) : Bool :=
  Reviewed action && match action with
    | .turn thread fate =>
      match system.threads.programs thread with
      | .perform op _ => decide (Sound worker thread system.world op fate)
      | .done () => true
    | .start .. | .stop _ => true

theorem allowed_sound (holds : allowed worker system action) : Allowed worker system action := by
  obtain ⟨reviewed, sound⟩ := Bool.and_eq_true .. ▸ holds
  refine ⟨reviewed, ?_⟩
  rintro thread fate rfl op rest program
  simpa [program] using sound

/-- What holds of the system throughout. -/
structure Guarded (worker : Thread) (hooked : Bool) (system : System) : Prop where
  correct : system.threads.Correct (Exec worker) (Safe worker hooked) Outside
  invariant : Invariant worker hooked system.world
  worker : worker ∈ system.started
  saver : ∀ saved, system.world.file = some saved → saved.saver ∈ system.started
  unstarted : ∀ thread ∉ system.started, system.threads.programs thread = .done () ∧
    system.world.condition thread.manager ≠ some thread

/-- How a step treats what is recorded and written. -/
def Effect (worker : Thread) (hooked : Bool) (system : System) (action : Action) (next : System) : Prop :=
  next.world.file = system.world.file ∧ next.world.written = system.world.written ∨
    ∃ thread fate, action = .turn thread fate ∧ system.threads.programs thread ≠ .done () ∧
      Safe worker hooked thread system.world next.world

theorem guards_call (other : thread ≠ worker) (call : Call) (reviewed : call ≠ .finish)
    (foreign : call = .restore → thread.manager ≠ worker.manager) :
    Triple (Exec worker) (Safe worker hooked) Outside thread (Restarting worker thread hooked) call.routine fun _ _ => True := by
  cases call with
  | accept => exact (guards_accept other).mono And.left id
  | reject => exact (guards_reject other).mono And.left id
  | cancel => exact (guards_cancel other).mono And.left id
  | restore => exact guards_restore other (foreign rfl)
  | finish => exact absurd rfl reviewed

theorem Guarded.step (guarded : Guarded worker hooked system) (step : System.Step (Allowed worker) system action next) :
    Guarded worker hooked next ∧ Effect worker hooked system action next := by
  obtain ⟨⟨reviewed, sound⟩, acted⟩ := step
  cases action with
  | turn thread fate =>
    obtain ⟨op, rest, answer, program, executed, programs, started⟩ := System.act_turn acted
    have acting : system.threads.programs thread ≠ .done () := by rw [program]; nofun
    have known : thread ∈ system.started := by
      by_contra unknown
      exact acting (guarded.unstarted thread unknown).1
    have turn : Threads.Turn (Exec worker) thread system.threads next.threads :=
      ⟨op, rest, answer, program, ⟨fate, sound thread fate rfl op rest program, executed⟩, programs⟩
    obtain ⟨safe, correct⟩ := guarded.correct.turn turn
    refine ⟨⟨correct, safe.invariant guarded.invariant, started ▸ guarded.worker, fun saved filed => ?_, fun other unknown => ?_⟩,
      .inr ⟨thread, fate, rfl, acting, safe⟩⟩
    · rw [started]
      rcases safe.file with same | ⟨record, same, _⟩
      · exact guarded.saver saved (same.symm.trans filed)
      · cases same.symm.trans filed
        exact known
    · rw [started] at unknown
      have different : other ≠ thread := fun same => unknown (same ▸ known)
      obtain ⟨idle, free⟩ := guarded.unstarted other unknown
      exact ⟨by rw [programs, Function.update_of_ne different, idle], fun holds => free ((safe.condition different).mp holds)⟩
  | start thread call =>
    obtain ⟨may, rfl⟩ := System.act_start acted
    simp only [System.mayStart, Bool.and_eq_true, decide_eq_true_eq, Bool.or_eq_true, List.all_eq_true, bne_iff_ne] at may
    obtain ⟨fresh, restarting⟩ := may
    have other : thread ≠ worker := fun same => fresh (same ▸ guarded.worker)
    have foreign : call = .restore → thread.manager ≠ worker.manager := fun restores =>
      Ne.symm (restarting.resolve_left (by simp [restores]) worker guarded.worker)
    have begins : Triple (Exec worker) (Safe worker hooked) Outside thread (Restarting worker thread hooked) call.routine fun _ _ => True :=
      guards_call other call (by simpa [Reviewed] using reviewed) foreign
    refine ⟨⟨fun acting => ?_, guarded.invariant, by simp [guarded.worker],
      fun saved filed => List.mem_cons_of_mem _ (guarded.saver saved filed), fun acting unknown => ?_⟩, .inl ⟨rfl, rfl⟩⟩
    · by_cases same : acting = thread
      · subst same
        simpa using begins system.world ⟨guarded.invariant, (guarded.unstarted acting fresh).2⟩
      · simpa [same, System.world] using guarded.correct acting
    · simp only [List.mem_cons, not_or] at unknown
      exact ⟨by simpa [unknown.1] using (guarded.unstarted acting unknown.2).1, (guarded.unstarted acting unknown.2).2⟩
  | stop manager =>
    obtain rfl := System.act_stop acted
    refine ⟨⟨guarded.correct.outside fun acting => ?_, guarded.invariant.stop manager, guarded.worker, guarded.saver,
      fun acting unknown => ?_⟩,
      .inl ⟨rfl, rfl⟩⟩
    · by_cases own : acting.manager = manager
      · exact .inr (by simp [own, Meets])
      · exact .inl ⟨by simp [own], manager, own, rfl⟩
    · obtain ⟨idle, free⟩ := guarded.unstarted acting unknown
      refine ⟨by simp [idle], fun holds => ?_⟩
      by_cases own : acting.manager = manager
      · simp [System.world, World.stop, own] at holds
      · exact free (by simpa [System.world, World.stop, own] using holds)

theorem Guarded.run (guarded : Guarded worker hooked system) (run : Run (System.Step (Allowed worker)) system actions later) :
    Guarded worker hooked later := by
  induction run with
  | done => exact guarded
  | snoc _ last ih => exact (ih.step last).1

theorem Job.Queued.guarded (queued : job.Queued) : Guarded worker job.hooked (System.launch worker job plan) := by
  have shown : job.publicStatus = .queued := by simp [Job.publicStatus, queued.status]
  have status : (System.launch worker job plan).world.status = some .queued := by
    simp [System.launch, System.world, World.status, World.stored, Job.record, shown]
  have copy {now : Job} (found : (System.launch worker job plan).world.jobs worker.manager = some now) : now = job := by
    simpa [System.launch, System.world, eq_comm] using found
  have invariant : Invariant worker job.hooked (System.launch worker job plan).world := by
    refine ⟨⟨_, status⟩, fun filed found => ?_, Nat.zero_le 1, fun _ written => absurd written (Nat.lt_irrefl 0),
      fun hookless manager now found => ?_, fun hookless record filed => ?_, fun found => by rw [copy found],
      fun found called => ?_⟩
    · obtain rfl := copy found
      cases status.symm.trans filed
      exact ⟨by rintro ⟨⟩, by rintro ⟨⟩, fun reviewable => by rw [queued.status] at reviewable; cases reviewable⟩
    · have own : manager = worker.manager := by
        by_contra foreign
        simp [System.launch, System.world, foreign] at found
      subst own
      obtain rfl := copy found
      exact ⟨by simp [Job.settles, queued.hooks, hookless], by rw [queued.status]; rintro ⟨⟩⟩
    · cases filed
      exact ⟨by simp [Job.record, queued.hooks, hookless], by simp [Job.record, shown]⟩
    · rw [copy found, queued.unclaimed] at called
      cases called
  refine ⟨fun thread => ?_, invariant, by simp [System.launch], fun saved filed => ?_, fun thread unknown => ?_⟩
  · by_cases own : thread = worker
    · subst own
      have unpublished : Unpublished thread job.hooked false (System.launch thread job plan).world :=
        ⟨⟨invariant, by simp [System.launch, System.world], by simp [System.launch, System.world], job,
          by simp [System.launch, System.world]⟩, _, rfl, by simp [Job.record, shown, Status.reviewable]⟩
      simpa [System.launch, System.world] using (guards_run plan _ unpublished).mono fun _ => trivial
    · simp [System.launch, own, Meets]
  · cases filed
    simp [System.launch]
  · simp only [System.launch, List.mem_singleton] at unknown
    exact ⟨by simp [System.launch, unknown], by simp [System.launch, System.world]⟩

theorem Effect.decided {status : Status} (effect : Effect worker hooked system action next)
    (recorded : system.world.status = some status) (decision : status.decided) : next.world.status = some status := by
  rcases effect with ⟨same, _⟩ | ⟨thread, fate, _, _, safe⟩
  · rwa [World.status, World.stored, same]
  · rcases safe.file with same | ⟨record, same, files⟩
    · rwa [World.status, World.stored, same]
    · rw [World.status_of_file same, Status.mayFollow_decided decision (files.follows recorded)]

/-- Nobody who recorded an acceptance is still at it. -/
def Abandoned (system : System) (saved : Saved) : Prop :=
  system.world.file = some saved ∧
    (saved.record.status = .accepting ∧ system.threads.programs saved.saver = .done () ∨
      saved.record.status = .acceptanceUncertain ∨ saved.record.status = .accepted)

theorem Abandoned.step {saved : Saved} (abandoned : Abandoned system saved) (guarded : Guarded worker hooked system)
    (step : System.Step (Allowed worker) system action next) :
    next.world.written = system.world.written ∧ ∃ saved, Abandoned next saved := by
  obtain ⟨filed, given⟩ := abandoned
  have status := World.status_of_file filed
  have kept (same : next.world.file = system.world.file) : Abandoned next saved :=
    ⟨same.trans filed, given.imp_left fun ⟨accepting, ended⟩ => ⟨accepting, (step.ended (guarded.saver saved filed) ended).1⟩⟩
  rcases (guarded.step step).2 with ⟨same, unwritten⟩ | ⟨thread, fate, _, acting, safe⟩
  · exact ⟨unwritten, saved, kept same⟩
  · refine ⟨?_, ?_⟩
    · rcases safe.written with same | ⟨_, _, record, claim, accepting⟩
      · exact same
      · cases filed.symm.trans claim
        rcases given with ⟨_, ended⟩ | given | given
        · exact absurd ended acting
        · rw [accepting] at given
          cases given
        · rw [accepting] at given
          cases given
    · rcases safe.file with same | ⟨record, same, files⟩
      · exact ⟨saved, kept same⟩
      · refine ⟨_, same, .inr ?_⟩
        have follows := files.follows status
        rcases given with ⟨accepting, _⟩ | given | given
        · rw [accepting] at follows
          simpa [Status.mayFollow, or_comm] using follows
        · rw [given] at follows
          cases follows
        · rw [given] at follows
          cases follows

theorem Abandoned.run {saved : Saved} (abandoned : Abandoned system saved) (guarded : Guarded worker hooked system)
    (run : Run (System.Step (Allowed worker)) system actions later) : later.world.written = system.world.written := by
  have kept : later.world.written = system.world.written ∧ ∃ saved, Abandoned later saved := by
    induction run with
    | done => exact ⟨rfl, saved, abandoned⟩
    | snoc earlier last ih =>
      obtain ⟨same, saved, abandoned⟩ := ih
      obtain ⟨same', later⟩ := abandoned.step (guarded.run earlier) last
      exact ⟨same'.trans same, later⟩
  exact kept.1

/-- What a system reached later owes to the decision recorded in an earlier one: the
candidate is written at most once, a decision stays, what is rejected or cancelled is not
written, and nobody writes in place of a call that recorded an acceptance and ended. -/
structure KeepsDecision (system later : System) : Prop where
  once : later.world.written ≤ 1
  decided : ∀ {status}, system.world.status = some status → status.decided → later.world.status = some status
  unwritten : system.world.status = some .rejected ∨ system.world.status = some .cancelled → later.world.written = 0
  abandoned : ∀ {saved}, system.world.file = some saved →
    saved.record.status = .accepting ∧ system.threads.programs saved.saver = .done () ∨
      saved.record.status = .acceptanceUncertain → later.world.written = system.world.written

/-- An author job that waits for its worker. -/
def queuedJob : Job where
  kind := .author
  experimentalOrigin := false
  draftOnly := false
  live := false
  hooked := false
  status := .queued
  output := "draft"
  errorCode := none
  executionOutcome := none
  dispatchHooksRequired := false
  terminalHookStatus := none
  terminalHookCalled := false
  cancelled := false
  generationBoundFailure := false

theorem queuedJob_queued : queuedJob.Queued := ⟨rfl, rfl, rfl, rfl⟩

/-- The worker publishes the draft, and a call accepts it up to its final record. -/
def acceptance : List Action :=
  List.replicate 29 (.turn ⟨0, 0⟩ .returns) ++ [.start ⟨0, 1⟩ .accept] ++ List.replicate 23 (.turn ⟨0, 1⟩ .returns)

/-- The chapter is deleted before the acceptance reads it back. -/
def deletedChapter : List Action :=
  List.replicate 2 (.turn ⟨0, 1⟩ .raises) ++ List.replicate 4 (.turn ⟨0, 1⟩ .returns)

theorem System.run_allowed (worker : Thread) (system : System) (actions : List Action)
    (ends : (Library.execute (System.check (allowed worker)) system actions).isSome) :
    ∃ labels, Run (System.Step (Allowed worker)) system labels (system.reached (allowed worker) actions) :=
  run_reached allowed_sound system actions ends

theorem System.run_reviewed (system : System) (actions : List Action)
    (ends : (Library.execute (System.check fun _ => Reviewed) system actions).isSome) :
    ∃ labels, Run (System.Step fun _ action => Reviewed action) system labels (system.reached (fun _ => Reviewed) actions) :=
  run_reached id system actions ends

end NovelStudio.Jobs
