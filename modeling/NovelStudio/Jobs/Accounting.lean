import NovelStudio.Jobs.Settling

/-! The terminal hook over whole runs: it is called at most once, and what is shown,
acceptable or persisted as completed was settled. -/

namespace NovelStudio.Jobs
open Library

variable {worker thread : Thread} {strict : Bool} {job : Job} {plan : List Happening}
  {system next later : System} {action : Action} {actions : List Action}

theorem waiting_accept : HookGuards worker strict thread (Waiting worker thread strict) accept fun _ _ => True :=
  out_find ((out_withReview (out_withJob fun _ => within_accept)).mono id fun _ => trivial)

theorem waiting_reject : HookGuards worker strict thread (Waiting worker thread strict) reject fun _ _ => True := by
  refine out_find (Triple.bind out_ask fun _ => Triple.ite (fun _ => ?_) fun _ => .pure fun _ => trivial)
  refine Triple.bind out_read fun _ => Triple.ite (fun _ => ?_) fun _ => .pure fun _ => trivial
  exact (out_withReview (out_withJob fun _ => within_reject)).mono id fun _ => trivial

theorem waiting_cancel : HookGuards worker strict thread (Waiting worker thread strict) cancel fun _ _ => True := by
  refine out_find (Triple.bind (out_set_free rfl) fun _ => Triple.bind out_read fun _ => Triple.ite (fun _ => .pure fun _ => trivial)
    fun _ => ?_)
  exact Triple.bind (out_withJob fun _ => within_cancel) fun _ => .pure fun _ => trivial

theorem waiting_finish : HookGuards worker strict thread (Waiting worker thread strict) finish fun _ _ => True :=
  out_find (out_finish.mono id fun _ => trivial)

/-- A restarting manager knows that the hook has returned or that the record is unsettled. -/
def Restores (worker thread : Thread) (strict : Bool) (record : Record) (world : World) : Prop :=
  Waiting worker thread strict world ∧ (world.settled = true ∨ record.Unsettled)

variable {record : Record}

theorem stable_restores : HookKept worker strict thread (Restores worker thread strict record) := by
  rintro state next step ⟨waiting, gate⟩
  refine ⟨stable_waiting _ _ step waiting, gate.imp_left fun settled => ?_⟩
  rcases step with ⟨_, _, safe⟩ | ⟨_, _, rfl⟩
  · exact safe.settled settled
  · exact settled

theorem waiting_readStored : HookGuards worker strict thread (Waiting worker thread strict) readStored fun stored world =>
    Waiting worker thread strict world ∧ ∀ record, stored = some record → Restores worker thread strict record world :=
  Triple.one stable_waiting fun {before _ _} now executed => by
    obtain ⟨_, _, done⟩ := executed
    cases done
    refine ⟨.refl _, now, fun record found => ⟨now, ?_⟩⟩
    obtain ⟨saved, filed, rfl⟩ := Option.map_eq_some_iff.mp found
    exact now.1.file filed

theorem restores_install (foreign : thread.manager ≠ worker.manager) : HookGuards worker strict thread
    (Restores worker thread strict record) (install record.restored) fun _ => Waiting worker thread strict :=
  Triple.one stable_restores fun {before _ _} ⟨⟨gated, now⟩, gate⟩ executed => by
    obtain ⟨_, _, done⟩ := executed
    cases absent : before.jobs thread.manager with
    | some copy => simp [execute, absent] at done
    | none =>
      simp only [execute, absent, Option.some.injEq] at done
      cases done
      have hookless : record.restored.hooked = false := by
        unfold Record.restored Record.revived
        split
        · rfl
        · split <;> rfl
      have safe : HookSafe worker strict thread before (before.setJob thread.manager record.restored) :=
        .install foreign absent (gate.imp_right fun unsettled => unsettled.restored _ _) hookless
      exact ⟨safe, safe.gated gated, now⟩

theorem restores_save : HookGuards worker strict thread (Restores worker thread strict record)
    (save record.restored.record) fun _ => Restores worker thread strict record :=
  Triple.one stable_restores fun {before _ _} ⟨⟨gated, now⟩, gate⟩ executed => by
    obtain ⟨fate, _, done⟩ := executed
    have safe : HookSafe worker strict thread before (before.save thread record.restored.record) :=
      .save (gate.imp_right Record.Unsettled.recovered)
    have after : Restores worker thread strict record (before.save thread record.restored.record) := ⟨⟨safe.gated gated, now⟩, gate⟩
    cases fate with
    | returns =>
      cases done
      exact ⟨safe, after⟩
    | raises =>
      cases done
      exact ⟨.refl _, ⟨gated, now⟩, gate⟩
    | raisesAfter =>
      cases done
      exact ⟨safe, after⟩

theorem waiting_restore (foreign : thread.manager ≠ worker.manager) : HookGuards worker strict thread
    (Waiting worker thread strict) restore fun _ _ => True := by
  have claimed : HookGuards worker strict thread (Waiting worker thread strict) restoreClaimed fun _ => Waiting worker thread strict := by
    refine Triple.bind waiting_readStored fun stored => ?_
    cases stored with
    | none => exact .pure And.left
    | some record =>
      have restores : HookGuards worker strict thread (Restores worker thread strict record)
          (if record.status.interrupted then do
            if ← save record.restored.record then install record.restored else pure ()
          else install record.restored) fun _ => Waiting worker thread strict :=
        Triple.ite (fun _ => Triple.bind restores_save fun _ => Triple.ite (fun _ => restores_install foreign) fun _ => .pure And.left)
          fun _ => restores_install foreign
      exact restores.mono (fun now => now.2 record rfl) id
  refine Triple.bind waiting_readStored fun stored => ?_
  cases stored with
  | none => exact .pure fun _ => trivial
  | some record =>
    refine Triple.ite (fun _ => ?_) fun _ => (restores_install foreign).mono (fun now => now.2 record rfl) fun _ => trivial
    exact (hook_withReview stable_waiting Waiting.aside claimed).mono And.left fun _ => trivial

theorem waiting_call (call : Call) (foreign : call = .restore → thread.manager ≠ worker.manager) :
    HookGuards worker strict thread (Waiting worker thread strict) call.routine fun _ _ => True := by
  cases call with
  | accept => exact waiting_accept
  | reject => exact waiting_reject
  | cancel => exact waiting_cancel
  | restore => exact waiting_restore (foreign rfl)
  | finish => exact waiting_finish

/-- The runs in which the hook does not raise for a job that is already completed. -/
def HookAllowed (strict : Bool) (system : System) (action : Action) : Prop :=
  strict = true → ∀ {thread fate next}, action = .turn thread fate → system.threads.programs thread = .perform .callHook next →
    fate = .returns ∨ ∀ {job}, system.world.jobs thread.manager = some job → job.status ≠ .completed

/-- What holds of the system throughout. -/
structure HookGuarded (worker : Thread) (strict : Bool) (system : System) : Prop where
  correct : system.threads.Correct (HookExec strict) (HookSafe worker strict) Outside
  gated : Gated worker strict system.world
  known : worker ∈ system.started
  unstarted : ∀ thread ∉ system.started, system.threads.programs thread = .done () ∧ Waiting worker thread strict system.world

theorem HookGuarded.step (guarded : HookGuarded worker strict system) (step : System.Step (HookAllowed strict) system action next) :
    HookGuarded worker strict next := by
  obtain ⟨allowed, acted⟩ := step
  cases action with
  | turn thread fate =>
    obtain ⟨op, rest, answer, program, executed, programs, started⟩ := System.act_turn acted
    have turn : Threads.Turn (HookExec strict) thread system.threads next.threads := by
      refine ⟨op, rest, answer, program, ⟨fate, fun strict' hook => ?_, executed⟩, programs⟩
      subst hook
      exact allowed strict' rfl program
    obtain ⟨safe, correct⟩ := guarded.correct.turn turn
    have known : thread ∈ system.started := by
      by_contra unknown
      rw [(guarded.unstarted thread unknown).1] at program
      cases program
    refine ⟨correct, safe.gated guarded.gated, started ▸ guarded.known, fun other unknown => ?_⟩
    rw [started] at unknown
    have different : other ≠ thread := fun same => unknown (same ▸ known)
    obtain ⟨idle, waiting⟩ := guarded.unstarted other unknown
    exact ⟨by rw [programs, Function.update_of_ne different, idle],
      stable_waiting _ _ (.inl ⟨thread, Ne.symm different, safe⟩) waiting⟩
  | start thread call =>
    obtain ⟨may, rfl⟩ := System.act_start acted
    simp only [System.mayStart, Bool.and_eq_true, decide_eq_true_eq, Bool.or_eq_true, List.all_eq_true, bne_iff_ne] at may
    obtain ⟨fresh, restarting⟩ := may
    have foreign : call = .restore → thread.manager ≠ worker.manager := fun restores =>
      Ne.symm (restarting.resolve_left (by simp [restores]) worker guarded.known)
    have begins : HookGuards worker strict thread (Waiting worker thread strict) call.routine fun _ _ => True := waiting_call call foreign
    refine ⟨fun acting => ?_, guarded.gated, by simp [guarded.known], fun acting unknown => ?_⟩
    · by_cases same : acting = thread
      · subst same
        simpa using begins system.world (guarded.unstarted acting fresh).2
      · simpa [same, System.world] using guarded.correct acting
    · simp only [List.mem_cons, not_or] at unknown
      exact ⟨by simpa [unknown.1] using (guarded.unstarted acting unknown.2).1, (guarded.unstarted acting unknown.2).2⟩
  | stop manager =>
    obtain rfl := System.act_stop acted
    refine ⟨guarded.correct.outside fun acting => ?_, guarded.gated.stop manager, guarded.known, fun acting unknown => ?_⟩
    · by_cases own : acting.manager = manager
      · exact .inr (by simp [own, Meets])
      · exact .inl ⟨by simp [own], manager, own, rfl⟩
    · obtain ⟨idle, gated, free⟩ := guarded.unstarted acting unknown
      refine ⟨by simp [idle], gated.stop manager, free.imp id (And.imp_right fun free holds => ?_)⟩
      by_cases own : acting.manager = manager
      · simp [System.world, World.stop, own] at holds
      · exact free (by simpa [System.world, World.stop, own] using holds)

theorem HookGuarded.run (guarded : HookGuarded worker strict system) (run : Run (System.Step (HookAllowed strict)) system actions later) :
    HookGuarded worker strict later := by
  induction run with
  | done => exact guarded
  | snoc _ last ih => exact ih.step last

theorem Job.Queued.hookGuarded (queued : job.Queued) (hooked : job.hooked = true) :
    HookGuarded worker strict (System.launch worker job plan) := by
  have copy {manager : Nat} {now : Job} (found : (System.launch worker job plan).world.jobs manager = some now) :
      manager = worker.manager ∧ now = job := by
    by_cases own : manager = worker.manager
    · exact ⟨own, by simpa [System.launch, System.world, own, eq_comm] using found⟩
    · simp [System.launch, System.world, own] at found
  have uncompleted : job.status ≠ .completed := by rw [queued.status]; nofun
  have unsettled : Unsettled worker strict worker.manager (System.launch worker job plan).world job := by
    refine ⟨queued.hooks.trans hooked, by rw [queued.unsettled]; nofun, fun completed => absurd completed uncompleted,
      fun _ completed => absurd completed uncompleted, fun foreign => absurd rfl foreign, fun _ => ?_⟩
    exact .inl ⟨queued.unsettled, queued.unclaimed⟩
  have gated : Gated worker strict (System.launch worker job plan).world := by
    refine ⟨fun filed => ?_, fun found => ?_, fun found => ?_, Nat.zero_le 1, fun calls => absurd rfl calls, nofun⟩
    · cases filed
      refine .inr ⟨unsettled.required, unsettled.hook, ?_⟩
      change job.publicStatus ≠ .completed
      rwa [Job.publicStatus_of_uncompleted uncompleted]
    · obtain ⟨rfl, rfl⟩ := copy found
      exact .inr unsettled
    · obtain ⟨rfl, rfl⟩ := copy found
      simpa using hooked
  have waiting (thread : Thread) : Waiting worker thread strict (System.launch worker job plan).world :=
    ⟨gated, .inr ⟨rfl, by simp [System.launch, System.world]⟩⟩
  refine ⟨fun thread => ?_, gated, by simp [System.launch], fun thread unknown => ⟨?_, waiting thread⟩⟩
  · by_cases own : thread = worker
    · subst own
      have out : Out thread thread strict (System.launch thread job plan).world :=
        ⟨waiting thread, job, by simp [System.launch, System.world]⟩
      simpa [System.launch, System.world] using (out_run plan _ out).mono fun _ => trivial
    · simp [System.launch, own, Meets]
  · simp only [System.launch, List.mem_singleton] at unknown
    simp [System.launch, unknown]

/-- What `accept` asks of the copy it works on. -/
def Job.acceptable (job : Job) : Bool := job.acceptsWhole && job.accounted && job.status == .completed

/-- Only a settled job is acceptable or persisted as completed, and when `strict` only a
settled one is shown as completed. -/
structure Accounted (strict : Bool) (world : World) : Prop where
  calls : world.hookCalls ≤ 1
  acceptable : ∀ {manager job}, world.jobs manager = some job → job.acceptable → world.settled = true
  persisted : ∀ {record}, world.stored = some record → record.status = .completed → world.settled = true
  shown : strict = true → ∀ {manager job}, world.jobs manager = some job → job.publicStatus = .completed → world.settled = true

theorem Gated.accounted {world : World} (gated : Gated worker strict world) : Accounted strict world := by
  have unsettled {manager : Nat} {job : Job} (found : world.jobs manager = some job) (open' : ¬world.settled = true) :
      Unsettled worker strict manager world job := (gated.copies found).resolve_left open'
  refine ⟨gated.calls, fun found acceptable => ?_, fun {record} stored completed => ?_, fun strict' _ _ found completed => ?_⟩
  · by_contra open'
    have copy := unsettled found open'
    have hook := copy.hook
    simp only [Job.acceptable, Job.accounted, Job.settles, copy.required, Bool.and_eq_true] at acceptable
    simp [hook] at acceptable
  · obtain ⟨saved, filed, rfl⟩ := Option.map_eq_some_iff.mp stored
    exact (gated.file filed).resolve_right fun record => record.uncompleted completed
  · by_contra open'
    have copy := unsettled found open'
    unfold Job.publicStatus at completed
    split at completed
    · cases completed
    · rename_i shown
      exact shown ⟨completed, by simp [Job.settles, copy.required], copy.shown strict' completed⟩

/-- A broker job of an author that waits for its worker. -/
def hookedJob : Job where
  kind := .author
  experimentalOrigin := true
  draftOnly := false
  live := false
  hooked := true
  status := .queued
  output := "draft"
  errorCode := none
  executionOutcome := none
  dispatchHooksRequired := true
  terminalHookStatus := none
  terminalHookCalled := false
  cancelled := false
  generationBoundFailure := false

theorem hookedJob_queued : hookedJob.Queued := ⟨rfl, rfl, rfl, rfl⟩

/-- `HookAllowed`, decided. -/
def hookAllowed (system : System) : Action → Bool
  | .turn thread fate =>
    match system.threads.programs thread with
    | .perform .callHook _ => fate == .returns || (system.world.jobs thread.manager).all fun job => job.status != .completed
    | _ => true
  | .start .. | .stop _ => true

theorem hookAllowed_sound (holds : hookAllowed system action) : HookAllowed true system action := by
  rintro _ thread fate next rfl program
  simp only [hookAllowed, program, Bool.or_eq_true, beq_iff_eq, Option.all_eq_true, bne_iff_ne] at holds
  exact holds.imp id fun uncompleted _ found => uncompleted _ found

theorem System.run_hookAllowed (system : System) (actions : List Action)
    (ends : (Library.execute (System.check hookAllowed) system actions).isSome) :
    ∃ labels, Run (System.Step (HookAllowed true)) system labels (system.reached hookAllowed actions) :=
  run_reached hookAllowed_sound system actions ends

theorem System.run_any (system : System) (actions : List Action)
    (ends : (Library.execute (System.check fun _ _ => true) system actions).isSome) :
    ∃ labels, Run (System.Step fun _ _ => True) system labels (system.reached (fun _ _ => true) actions) :=
  run_reached (fun _ => trivial) system actions ends

/-- The hook raises after the draft was completed, and its failure is recorded before the job's. -/
def raisedHook : List Action :=
  List.replicate 24 (.turn ⟨0, 0⟩ .returns) ++ .turn ⟨0, 0⟩ .raises :: List.replicate 2 (.turn ⟨0, 0⟩ .returns)

end NovelStudio.Jobs
