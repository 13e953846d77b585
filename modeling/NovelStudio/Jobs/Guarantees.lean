import NovelStudio.Jobs.System

/-! The operations of a thread keep its guarantee: what each may do, and which conditions
the other threads leave alone. -/

namespace NovelStudio.Jobs
open Library

namespace World

@[simp] theorem setJob_file (world : World) (manager job) : (world.setJob manager job).file = world.file := rfl
@[simp] theorem setJob_review (world : World) (manager job) : (world.setJob manager job).review = world.review := rfl
@[simp] theorem setJob_condition (world : World) (manager job) : (world.setJob manager job).condition = world.condition := rfl
@[simp] theorem setJob_written (world : World) (manager job) : (world.setJob manager job).written = world.written := rfl
@[simp] theorem setJob_stored (world : World) (manager job) : (world.setJob manager job).stored = world.stored := rfl
@[simp] theorem setJob_status (world : World) (manager job) : (world.setJob manager job).status = world.status := rfl
@[simp] theorem setJob_jobs (world : World) (manager job) : (world.setJob manager job).jobs manager = some job := by
  simp [setJob]

theorem setJob_jobs_ne (world : World) {manager other : Nat} (job : Job) (different : other ≠ manager) :
    (world.setJob manager job).jobs other = world.jobs other := by
  simp [setJob, different]

@[simp] theorem hold_file (world : World) (manager holder) : (world.hold manager holder).file = world.file := rfl
@[simp] theorem hold_jobs (world : World) (manager holder) : (world.hold manager holder).jobs = world.jobs := rfl
@[simp] theorem hold_review (world : World) (manager holder) : (world.hold manager holder).review = world.review := rfl
@[simp] theorem hold_written (world : World) (manager holder) : (world.hold manager holder).written = world.written := rfl
@[simp] theorem hold_stored (world : World) (manager holder) : (world.hold manager holder).stored = world.stored := rfl
@[simp] theorem hold_status (world : World) (manager holder) : (world.hold manager holder).status = world.status := rfl
@[simp] theorem hold_condition (world : World) (manager holder) : (world.hold manager holder).condition manager = holder := by
  simp [hold]

theorem hold_condition_ne (world : World) {manager other : Nat} (holder) (different : other ≠ manager) :
    (world.hold manager holder).condition other = world.condition other := by
  simp [hold, different]

@[simp] theorem save_stored (world : World) (saver record) : (world.save saver record).stored = some record := rfl
@[simp] theorem save_status (world : World) (saver record) : (world.save saver record).status = some record.status := rfl
@[simp] theorem save_jobs (world : World) (saver record) : (world.save saver record).jobs = world.jobs := rfl
@[simp] theorem save_review (world : World) (saver record) : (world.save saver record).review = world.review := rfl
@[simp] theorem save_condition (world : World) (saver record) : (world.save saver record).condition = world.condition := rfl
@[simp] theorem save_written (world : World) (saver record) : (world.save saver record).written = world.written := rfl

end World

/-- An assignment outside the part of a job that its condition protects. -/
def Change.free : Change → Bool
  | .output _ | .errorCode _ | .executionOutcome _ | .cancelled | .generationBoundFailure => true
  | .status _ | .dispatchHooksRequired | .terminalHookStatus _ | .terminalHookCalled => false

@[simp] theorem Job.core_set {change : Change} (free : change.free) (job : Job) : (job.set change).core = job.core := by
  cases change <;> first | rfl | cases free

@[simp] theorem Job.core_status (job : Job) : job.core.status = job.status := rfl
@[simp] theorem Job.core_publicStatus (job : Job) : job.core.publicStatus = job.publicStatus := rfl
@[simp] theorem Job.core_hooked (job : Job) : job.core.hooked = job.hooked := rfl
@[simp] theorem Job.core_settles (job : Job) : job.core.settles = job.settles := rfl
@[simp] theorem Job.core_terminalHookStatus (job : Job) : job.core.terminalHookStatus = job.terminalHookStatus := rfl
@[simp] theorem Job.set_hooked (job : Job) (change : Change) : (job.set change).hooked = job.hooked := by
  cases change <;> rfl

variable {job now : Job}

theorem Job.status_eq_of_core (same : now.core = job.core) : now.status = job.status := by
  simpa using congrArg Job.status same

theorem Job.publicStatus_eq_of_core (same : now.core = job.core) : now.publicStatus = job.publicStatus := by
  simpa using congrArg Job.publicStatus same

theorem Job.publicStatus_of_uncompleted (uncompleted : job.status ≠ .completed) : job.publicStatus = job.status := by
  simp [Job.publicStatus, uncompleted]

theorem Job.settles_eq_of_core (same : now.core = job.core) : now.settles = job.settles := by
  simpa using congrArg Job.settles same

theorem Job.terminalHookStatus_eq_of_core (same : now.core = job.core) :
    now.terminalHookStatus = job.terminalHookStatus := by
  simpa using congrArg Job.terminalHookStatus same

theorem Job.plain_of_core (same : now.core = job.core) (plain : job.Plain) : now.Plain :=
  ⟨(settles_eq_of_core same).trans plain.1, status_eq_of_core same ▸ plain.2⟩

section Steps

variable {worker thread : Thread} {hooked : Bool} {before after : World}

variable {job : Job}

theorem Agrees.of_status {now : Job} (agrees : Agrees worker before status job) (same : now.status = job.status) :
    Agrees worker before status now :=
  ⟨fun cancelled => same.trans (agrees.cancelled cancelled), fun published => same ▸ agrees.terminal published,
    fun reviewable => by
      rw [same] at reviewable ⊢
      exact agrees.reviewable reviewable⟩

theorem Safe.refl (world : World) : Safe worker hooked thread world world where
  invariant := id
  file := .inl rfl
  written := .inl rfl
  review _ := Iff.rfl
  condition _ _ := Iff.rfl
  alive found := ⟨_, found⟩
  core found found' _ := by rw [found] at found'; cases found'; rfl
  settled found found' set := by rw [found] at found'; cases found'; exact set

theorem Invariant.setJob {manager : Nat} {now : Job} (invariant : Invariant worker hooked before)
    (plain : hooked = false → now.Plain) (same : manager = worker.manager → now.hooked = hooked)
    (claims : manager = worker.manager → now.terminalHookCalled →
      now.terminalHookStatus.isSome ∨ before.condition worker.manager = some worker)
    (agrees : manager = worker.manager → ∀ {status}, before.status = some status → Agrees worker before status now) :
    Invariant worker hooked (before.setJob manager now) where
  filed := invariant.filed
  agrees := by
    intro status job filed found
    by_cases own : manager = worker.manager
    · subst own
      simp only [World.setJob_jobs, Option.some.injEq] at found
      subst found
      exact ⟨(agrees rfl filed).cancelled, (agrees rfl filed).terminal, (agrees rfl filed).reviewable⟩
    · rw [World.setJob_jobs_ne _ _ (Ne.symm own)] at found
      have before := invariant.agrees filed found
      exact ⟨before.cancelled, before.terminal, before.reviewable⟩
  once := invariant.once
  claimed := invariant.claimed
  plainJobs := by
    intro hookless other job found
    by_cases own : other = manager
    · subst own
      simp only [World.setJob_jobs, Option.some.injEq] at found
      exact found ▸ plain hookless
    · rw [World.setJob_jobs_ne _ _ own] at found
      exact invariant.plainJobs hookless found
  plainFile := invariant.plainFile
  hooks := by
    intro job found
    by_cases own : manager = worker.manager
    · subst own
      simp only [World.setJob_jobs, Option.some.injEq] at found
      exact found ▸ same rfl
    · rw [World.setJob_jobs_ne _ _ (Ne.symm own)] at found
      exact invariant.hooks found
  claims := by
    intro job found called
    by_cases own : manager = worker.manager
    · subst own
      simp only [World.setJob_jobs, Option.some.injEq] at found
      subst found
      exact claims rfl called
    · rw [World.setJob_jobs_ne _ _ (Ne.symm own)] at found
      exact invariant.claims found called

/-- What an assignment has to respect: the condition of the copy, and the invariant. -/
structure Assigns (worker thread : Thread) (hooked : Bool) (before : World) (job : Job) (change : Change) : Prop where
  held : change.free ∨ before.condition thread.manager = some thread
  plain : hooked = false → job.Plain → (job.set change).Plain
  agrees : thread.manager = worker.manager → ∀ {status}, before.status = some status →
    Agrees worker before status job → Agrees worker before status (job.set change)
  claims : change = .terminalHookCalled → thread = worker

variable {change : Change}

theorem Assigns.of_free (free : change.free) : Assigns worker thread hooked before job change where
  held := .inl free
  plain _ := Job.plain_of_core (Job.core_set free job)
  agrees _ _ _ agrees := agrees.of_status (Job.status_eq_of_core (Job.core_set free job))
  claims called := by subst called; cases free

theorem Job.claimed_set (other : change ≠ .terminalHookCalled) :
    (job.set change).terminalHookCalled = job.terminalHookCalled := by
  cases change <;> first | rfl | exact absurd rfl other

theorem Job.settled_set (change : Change) (settled : job.terminalHookStatus.isSome) :
    (job.set change).terminalHookStatus.isSome := by
  cases change <;> first | exact settled | rfl

theorem Safe.set (found : before.jobs thread.manager = some job)
    (assigns : Assigns worker thread hooked before job change) :
    Safe worker hooked thread before (before.setJob thread.manager (job.set change)) where
  invariant invariant := invariant.setJob (fun hookless => assigns.plain hookless (invariant.plainJobs hookless found))
    (fun own => by rw [Job.set_hooked]; exact invariant.hooks (own ▸ found))
    (fun own called => by
      by_cases claim : change = .terminalHookCalled
      · have acting := assigns.claims claim
        subst claim
        exact .inr (acting ▸ assigns.held.resolve_left nofun)
      · rw [Job.claimed_set claim] at called
        exact (invariant.claims (own ▸ found) called).imp_left (Job.settled_set change))
    (fun own _ filed => assigns.agrees own filed (invariant.agrees filed (own ▸ found)))
  file := .inl rfl
  written := .inl rfl
  review _ := Iff.rfl
  condition _ _ := Iff.rfl
  alive := by
    intro manager old present
    by_cases own : manager = thread.manager
    · subst own
      exact ⟨_, World.setJob_jobs ..⟩
    · exact ⟨old, by rwa [World.setJob_jobs_ne _ _ own]⟩
  core := by
    intro manager old now present present' free
    by_cases own : manager = thread.manager
    · subst own
      rw [found] at present
      cases present
      simp only [World.setJob_jobs, Option.some.injEq] at present'
      subst present'
      exact Job.core_set (assigns.held.resolve_right free) job
    · rw [World.setJob_jobs_ne _ _ own, present] at present'
      cases present'
      rfl
  settled := by
    intro old now present present' set
    by_cases own : worker.manager = thread.manager
    · rw [own] at present present'
      rw [found] at present
      cases present
      simp only [World.setJob_jobs, Option.some.injEq] at present'
      subst present'
      exact Job.settled_set change set
    · rw [World.setJob_jobs_ne _ _ own, present] at present'
      cases present'
      exact set

/-- What a save has to respect: the protocol, and the invariant. -/
structure Saves (worker thread : Thread) (hooked : Bool) (before : World) (record : Record) : Prop where
  files : Files worker thread before record
  plain : hooked = false → record.Plain
  agrees : ∀ {job}, before.jobs worker.manager = some job → Agrees worker before record.status job

variable {record : Record}

theorem Invariant.save (invariant : Invariant worker hooked before)
    (saves : Saves worker thread hooked before record) : Invariant worker hooked (before.save thread record) where
  filed := ⟨_, rfl⟩
  agrees := by
    intro status job filed found
    cases filed
    have agrees := saves.agrees found
    exact ⟨agrees.cancelled, agrees.terminal, agrees.reviewable⟩
  once := invariant.once
  claimed := by
    intro status filed written
    cases filed
    obtain ⟨old, filed⟩ := invariant.filed
    exact Status.mayFollow_claimed (invariant.claimed filed written) (saves.files.follows filed)
  plainJobs := invariant.plainJobs
  plainFile := by
    intro hookless record filed
    cases filed
    exact saves.plain hookless
  hooks := invariant.hooks
  claims := invariant.claims

theorem Safe.save (saves : Saves worker thread hooked before record) :
    Safe worker hooked thread before (before.save thread record) where
  invariant invariant := invariant.save saves
  file := .inr ⟨record, rfl, saves.files⟩
  written := .inl rfl
  review _ := Iff.rfl
  condition _ _ := Iff.rfl
  alive found := ⟨_, found⟩
  core found found' _ := by
    change before.jobs _ = _ at found'
    rw [found] at found'; cases found'; rfl
  settled found found' set := by
    change before.jobs _ = _ at found'
    rw [found] at found'; cases found'; exact set

/-- The locks may change as far as the worker's copy needs no lock the worker gives up. -/
structure Unlocks (worker : Thread) (before : World) (review : Option Thread) (condition : Nat → Option Thread) (job : Job) :
    Prop where
  published : job.status = .completed → before.condition worker.manager = some worker → before.review = some worker →
    condition worker.manager = some worker ∧ review = some worker ∨ ∃ status, before.status = some status ∧ status.reviewable
  claims : job.terminalHookCalled → before.condition worker.manager = some worker →
    job.terminalHookStatus.isSome ∨ condition worker.manager = some worker

theorem Invariant.locks {review : Option Thread} {condition : Nat → Option Thread} (invariant : Invariant worker hooked before)
    (kept : ∀ {job}, before.jobs worker.manager = some job → Unlocks worker before review condition job) :
    Invariant worker hooked { before with review := review, condition := condition } where
  filed := invariant.filed
  agrees := by
    intro status job filed found
    have agrees := invariant.agrees filed found
    refine ⟨agrees.cancelled, agrees.terminal, fun reviewable => ?_⟩
    rcases agrees.reviewable reviewable with published | ⟨completed, holding, reviewing⟩
    · exact .inl published
    · rcases (kept found).published completed holding reviewing with ⟨holds, reviews⟩ | ⟨old, filed', published⟩
      · exact .inr ⟨completed, holds, reviews⟩
      · have same : status = old := Option.some.inj (filed.symm.trans filed')
        exact .inl (same ▸ published)
  once := invariant.once
  claimed := invariant.claimed
  plainJobs := invariant.plainJobs
  plainFile := invariant.plainFile
  hooks := invariant.hooks
  claims found called := (invariant.claims found called).elim .inl fun holds => (kept found).claims called holds

theorem Safe.locks {review : Option Thread} {condition : Nat → Option Thread}
    (reviews : ∀ {other}, other ≠ thread → (review = some other ↔ before.review = some other))
    (conditions : ∀ {other}, other ≠ thread → ∀ {manager}, (condition manager = some other ↔ before.condition manager = some other))
    (kept : Invariant worker hooked before → ∀ {job}, before.jobs worker.manager = some job →
      Unlocks worker before review condition job) :
    Safe worker hooked thread before { before with review := review, condition := condition } where
  invariant invariant := invariant.locks (kept invariant)
  file := .inl rfl
  written := .inl rfl
  review := reviews
  condition := conditions
  alive found := ⟨_, found⟩
  core found found' _ := by
    change before.jobs _ = _ at found'
    rw [found] at found'; cases found'; rfl
  settled found found' set := by
    change before.jobs _ = _ at found'
    rw [found] at found'; cases found'; exact set

theorem Outside.file (stop : Outside thread before after) : after.file = before.file := by
  obtain ⟨manager, _, rfl⟩ := stop
  rfl

theorem Outside.review (stop : Outside thread before after) : after.review = some thread ↔ before.review = some thread := by
  obtain ⟨manager, other, rfl⟩ := stop
  simp [World.stop, Option.filter_eq_some_iff, other]

theorem Outside.condition (stop : Outside thread before after) :
    after.condition thread.manager = some thread ↔ before.condition thread.manager = some thread := by
  obtain ⟨manager, other, rfl⟩ := stop
  simp [World.stop, other]

theorem Outside.jobs (stop : Outside thread before after) : after.jobs thread.manager = before.jobs thread.manager := by
  obtain ⟨manager, other, rfl⟩ := stop
  simp [World.stop, other]

theorem Invariant.stop (invariant : Invariant worker hooked before) (manager : Nat) :
    Invariant worker hooked (before.stop manager) where
  filed := invariant.filed
  agrees := by
    intro status job filed found
    by_cases own : worker.manager = manager
    · simp [World.stop, own] at found
    · have agrees := invariant.agrees filed (by simpa [World.stop, own] using found)
      refine ⟨agrees.cancelled, agrees.terminal, fun reviewable => ?_⟩
      rcases agrees.reviewable reviewable with published | ⟨completed, holds, reviews⟩
      · exact .inl published
      · exact .inr ⟨completed, by simpa [World.stop, own] using holds,
          by simp [World.stop, Option.filter_eq_some_iff, reviews, own]⟩
  once := invariant.once
  claimed := invariant.claimed
  plainJobs := by
    intro hookless other job found
    by_cases own : other = manager
    · simp [World.stop, own] at found
    · exact invariant.plainJobs hookless (by simpa [World.stop, own] using found)
  plainFile := invariant.plainFile
  hooks := by
    intro job found
    by_cases own : worker.manager = manager
    · simp [World.stop, own] at found
    · exact invariant.hooks (by simpa [World.stop, own] using found)
  claims := by
    intro job found called
    by_cases own : worker.manager = manager
    · simp [World.stop, own] at found
    · exact (invariant.claims (by simpa [World.stop, own] using found) called).imp_right fun holds => by
        simpa [World.stop, own] using holds

theorem stable_invariant : Stable (Safe worker hooked) Outside thread (Invariant worker hooked) := by
  rintro state next (⟨other, _, safe⟩ | ⟨manager, _, rfl⟩) now
  · exact safe.invariant now
  · exact now.stop manager

theorem stable_review : Stable (Safe worker hooked) Outside thread fun world => world.review = some thread := by
  rintro state next (⟨other, different, safe⟩ | stop) now
  · exact (safe.review (Ne.symm different)).mpr now
  · exact stop.review.mpr now

theorem stable_not_review : Stable (Safe worker hooked) Outside thread fun world => world.review ≠ some thread := by
  rintro state next (⟨other, different, safe⟩ | stop) now
  · exact fun later => now ((safe.review (Ne.symm different)).mp later)
  · exact fun later => now (stop.review.mp later)

theorem stable_not_condition :
    Stable (Safe worker hooked) Outside thread fun world => world.condition thread.manager ≠ some thread := by
  rintro state next (⟨other, different, safe⟩ | stop) now
  · exact fun later => now ((safe.condition (Ne.symm different)).mp later)
  · exact fun later => now (stop.condition.mp later)

theorem stable_alive : Stable (Safe worker hooked) Outside thread fun world => ∃ job, world.jobs thread.manager = some job := by
  rintro state next (⟨other, _, safe⟩ | stop) ⟨job, found⟩
  · exact safe.alive found
  · exact ⟨job, stop.jobs.trans found⟩

/-- The thread that holds the condition of a copy is the only one to change its core. -/
def Keeps (thread : Thread) (job : Job) (world : World) : Prop :=
  world.condition thread.manager = some thread ∧ ∃ now, world.jobs thread.manager = some now ∧ now.core = job.core

theorem stable_keeps : Stable (Safe worker hooked) Outside thread (Keeps thread job) := by
  rintro state next (⟨other, different, safe⟩ | stop) ⟨holds, now, found, same⟩
  · obtain ⟨later, found'⟩ := safe.alive found
    have foreign : state.condition thread.manager ≠ some other := by
      rw [holds]
      exact fun same => different (Option.some.inj same).symm
    exact ⟨(safe.condition (Ne.symm different)).mpr holds, later, found', (safe.core found found' foreign).trans same⟩
  · exact ⟨stop.condition.mpr holds, now, stop.jobs.trans found, same⟩

theorem stable_file {guard : World → Prop} (holds : Option Saved → Prop) (guarded : Stable (Safe worker hooked) Outside thread guard)
    (saved : ∀ {state other record}, other ≠ thread → guard state → holds state.file → Files worker other state record →
      holds (some ⟨other, record⟩)) :
    Stable (Safe worker hooked) Outside thread fun world => guard world ∧ holds world.file := by
  rintro state next step ⟨kept, now⟩
  refine ⟨guarded _ _ step kept, ?_⟩
  rcases step with ⟨other, different, safe⟩ | stop
  · rcases safe.file with same | ⟨record, same, files⟩
    · rwa [same]
    · rw [same]
      exact saved different kept now files
  · rwa [stop.file]

theorem Safe.hook (calls : Nat) (settled : Bool) :
    Safe worker hooked thread before { before with hookCalls := calls, settled := settled } where
  invariant invariant := ⟨invariant.filed, fun filed found => ⟨(invariant.agrees filed found).cancelled,
    (invariant.agrees filed found).terminal, (invariant.agrees filed found).reviewable⟩, invariant.once, invariant.claimed,
    invariant.plainJobs, invariant.plainFile, invariant.hooks, invariant.claims⟩
  file := .inl rfl
  written := .inl rfl
  review _ := Iff.rfl
  condition _ _ := Iff.rfl
  alive found := ⟨_, found⟩
  core found found' _ := by
    change before.jobs _ = _ at found'
    rw [found] at found'; cases found'; rfl
  settled found found' set := by
    change before.jobs _ = _ at found'
    rw [found] at found'; cases found'; exact set

theorem Safe.write (reviews : before.review = some thread) (claim : before.file = some ⟨thread, record⟩)
    (accepting : record.status = .accepting) (unwritten : before.written = 0) :
    Safe worker hooked thread before before.write where
  invariant invariant := ⟨invariant.filed, fun filed found => ⟨(invariant.agrees filed found).cancelled,
    (invariant.agrees filed found).terminal, (invariant.agrees filed found).reviewable⟩,
    by simp [World.write, unwritten], fun filed _ => by
      change before.status = _ at filed
      simp only [World.status, World.stored, claim, Option.map_some, Option.some.injEq] at filed
      simp [← filed, accepting, Status.claimed],
    invariant.plainJobs, invariant.plainFile, invariant.hooks, invariant.claims⟩
  file := .inl rfl
  written := .inr ⟨rfl, reviews, record, claim, accepting⟩
  review _ := Iff.rfl
  condition _ _ := Iff.rfl
  alive found := ⟨_, found⟩
  core found found' _ := by
    change before.jobs _ = _ at found'
    rw [found] at found'; cases found'; rfl
  settled found found' set := by
    change before.jobs _ = _ at found'
    rw [found] at found'; cases found'; exact set

end Steps

section Operations

variable {worker thread : Thread} {hooked : Bool} {pre : World → Prop}

/-- Every operation of the program keeps the guarantee of its thread. -/
abbrev Guards (worker : Thread) (hooked : Bool) (thread : Thread) {Value : Type} (pre : World → Prop) (program : Routine Value)
    (post : Value → World → Prop) : Prop :=
  Triple (Exec worker) (Safe worker hooked) Outside thread pre program post

abbrev Kept (worker : Thread) (hooked : Bool) (thread : Thread) (pre : World → Prop) : Prop :=
  Stable (Safe worker hooked) Outside thread pre

theorem guards_ask (stable : Kept worker hooked thread pre) : Guards worker hooked thread pre ask fun _ => pre :=
  Triple.one stable fun now executed => by
    obtain ⟨_, _, done⟩ := executed
    cases done
    exact ⟨.refl _, now⟩

theorem guards_find (stable : Kept worker hooked thread pre) : Guards worker hooked thread pre find fun found world =>
    world.jobs thread.manager = found ∧ pre world :=
  Triple.one stable fun now executed => by
    obtain ⟨_, _, done⟩ := executed
    cases done
    exact ⟨.refl _, rfl, now⟩

theorem guards_readChapter (stable : Kept worker hooked thread pre) :
    Guards worker hooked thread pre readChapter fun returned world => returned = true ∧ pre world :=
  Triple.one stable fun now executed => by
    obtain ⟨fate, returns, done⟩ := executed
    cases returns
    cases done
    exact ⟨.refl _, rfl, now⟩

theorem guards_readJob (stable : Kept worker hooked thread pre) :
    Guards worker hooked thread pre readJob fun job world => world.jobs thread.manager = some job ∧ pre world :=
  Triple.one stable fun {before _ _} now executed => by
    obtain ⟨_, _, done⟩ := executed
    obtain ⟨job, found, same⟩ := Option.map_eq_some_iff.mp done
    cases same
    exact ⟨.refl _, found, now⟩

theorem guards_readStored (stable : Kept worker hooked thread pre) :
    Guards worker hooked thread pre readStored fun stored world => world.stored = stored ∧ pre world :=
  Triple.one stable fun now executed => by
    obtain ⟨_, _, done⟩ := executed
    cases done
    exact ⟨.refl _, rfl, now⟩

theorem guards_set {change : Change} {post : World → Prop} (stable : Kept worker hooked thread pre)
    (step : ∀ {world job}, pre world → world.jobs thread.manager = some job →
      Assigns worker thread hooked world job change ∧ post (world.setJob thread.manager (job.set change))) :
    Guards worker hooked thread pre (set change) fun _ => post :=
  Triple.one stable fun now executed => by
    obtain ⟨_, _, done⟩ := executed
    obtain ⟨job, found, same⟩ := Option.map_eq_some_iff.mp done
    cases same
    obtain ⟨assigns, later⟩ := step now found
    exact ⟨.set found assigns, later⟩

theorem guards_save {record : Record} {post : Bool → World → Prop} (stable : Kept worker hooked thread pre)
    (step : ∀ {world}, pre world →
      (world.condition thread.manager = some thread ∨ world.status ≠ some .cancelled ∧ record.status ≠ .cancelled) →
      (record.status = .cancelled → thread.manager = worker.manager) →
      Saves worker thread hooked world record ∧ post true (world.save thread record) ∧
        (record.status.decided = false → post false (world.save thread record)))
    (lost : ∀ {world}, pre world → post false world) : Guards worker hooked thread pre (save record) post :=
  Triple.one stable fun {before _ _} now executed => by
    obtain ⟨fate, sound, done⟩ := executed
    cases fate with
    | raises =>
      cases done
      exact ⟨.refl _, lost now⟩
    | returns =>
      obtain ⟨unlocked, own, _⟩ := sound.resolve_left nofun
      obtain ⟨saves, later, _⟩ := step now unlocked own
      cases done
      exact ⟨.save saves, later⟩
    | raisesAfter =>
      obtain ⟨unlocked, own, decided⟩ := sound.resolve_left nofun
      obtain ⟨saves, _, later⟩ := step now unlocked own
      cases done
      refine ⟨.save saves, later ?_⟩
      by_contra decision
      cases decided (by simpa using decision)

theorem guards_callHook {post : World → Prop} (stable : Kept worker hooked thread pre)
    (step : ∀ {world} calls settled, pre world → post { world with hookCalls := calls, settled := settled }) :
    Guards worker hooked thread pre callHook fun _ => post :=
  Triple.one stable fun {before _ _} now executed => by
    obtain ⟨fate, _, done⟩ := executed
    simp only [execute] at done
    split at done
    · cases done
      exact ⟨.hook _ _, step _ _ now⟩
    · cases done
      exact ⟨.hook _ before.settled, step _ before.settled now⟩

theorem Safe.lockJob {before : World} (unheld : before.condition thread.manager = none) :
    Safe worker hooked thread before (before.hold thread.manager (some thread)) := by
  refine Safe.locks (fun _ => Iff.rfl) (fun {other} different manager => ?_) fun _ job _ => ⟨?_, ?_⟩
  · by_cases own : manager = thread.manager
    · simp [own, unheld, Ne.symm different]
    · simp [own]
  · intro _ holds reviews
    have foreign : worker.manager ≠ thread.manager := fun own => by simp [own, unheld] at holds
    exact .inl ⟨by simpa [foreign] using holds, reviews⟩
  · intro _ holds
    have foreign : worker.manager ≠ thread.manager := fun own => by simp [own, unheld] at holds
    exact .inr (by simpa [foreign] using holds)

theorem Safe.unlockJob {before : World} (held : before.condition thread.manager = some thread)
    (own : thread = worker → ∀ {job}, before.jobs worker.manager = some job →
      (job.status = .completed → ∃ status, before.status = some status ∧ status.reviewable) ∧
      (job.terminalHookCalled → job.terminalHookStatus.isSome)) :
    Safe worker hooked thread before (before.hold thread.manager none) := by
  refine Safe.locks (fun _ => Iff.rfl) (fun {other} different manager => ?_) fun _ job found => ?_
  · by_cases own : manager = thread.manager
    · simp [own, held, Ne.symm different]
    · simp [own]
  · by_cases same : worker.manager = thread.manager
    · have acting : before.condition worker.manager = some worker → thread = worker := fun holds =>
        Option.some.inj (held.symm.trans (same ▸ holds))
      exact ⟨fun completed holds _ => .inr ((own (acting holds) found).1 completed),
        fun called holds => .inl ((own (acting holds) found).2 called)⟩
    · exact ⟨fun _ holds reviews => .inl ⟨by simpa [same] using holds, reviews⟩, fun _ holds => .inr (by simpa [same] using holds)⟩

theorem Safe.lockReview {before : World} (unheld : before.review = none) :
    Safe worker hooked thread before { before with review := some thread } := by
  refine Safe.locks (fun different => ?_) (fun _ _ => Iff.rfl) fun _ job _ => ⟨?_, fun _ holds => .inr holds⟩
  · simp [unheld, Ne.symm different]
  · intro _ _ reviews
    rw [unheld] at reviews
    cases reviews

theorem Safe.unlockReview {before : World} (held : before.review = some thread)
    (own : thread = worker → before.condition worker.manager ≠ some worker) :
    Safe worker hooked thread before { before with review := none } := by
  refine Safe.locks (fun different => ?_) (fun _ _ => Iff.rfl) fun _ job _ => ⟨?_, fun _ holds => .inr holds⟩
  · simp [held, Ne.symm different]
  · intro _ holds reviews
    exact absurd holds (own (Option.some.inj (held.symm.trans reviews)))

/-- `with job.condition`: the body runs from what the lock gives, and gives it back. -/
theorem guards_withJob {Value : Type} {body : Routine Value} (inside : World → Prop) (after : Value → World → Prop) {post : Value → World → Prop}
    (stable : Kept worker hooked thread pre)
    (entered : ∀ {world}, pre world → world.condition thread.manager = none →
      Safe worker hooked thread world (world.hold thread.manager (some thread)) → inside (world.hold thread.manager (some thread)))
    (runs : Guards worker hooked thread inside body after) (kept : ∀ value, Kept worker hooked thread (after value))
    (left : ∀ {value world}, after value world → Safe worker hooked thread world (world.hold thread.manager none) ∧
      post value (world.hold thread.manager none)) : Guards worker hooked thread pre (withJob body) post := by
  have enter : Guards worker hooked thread pre (Program.one Op.lockJob) fun _ => inside := by
    refine Triple.one stable fun {before _ _} now executed => ?_
    obtain ⟨_, _, done⟩ := executed
    cases unheld : before.condition thread.manager with
    | some holder => simp [execute, unheld] at done
    | none =>
      simp only [execute, unheld, Option.some.injEq] at done
      cases done
      exact ⟨.lockJob unheld, entered now unheld (.lockJob unheld)⟩
  have leave (value : Value) : Guards worker hooked thread (after value) (Program.one Op.unlockJob) fun _ => post value := by
    refine Triple.one (kept value) fun now executed => ?_
    obtain ⟨_, _, done⟩ := executed
    cases done
    exact left now
  exact Triple.bind enter fun _ => Triple.bind runs fun value => Triple.bind (leave value) fun _ => .pure id

/-- `with self._review_mutation(job.id)`. -/
theorem guards_withReview {Value : Type} {body : Routine Value} (inside : World → Prop) (after : Value → World → Prop) {post : Value → World → Prop}
    (stable : Kept worker hooked thread pre)
    (entered : ∀ {world}, pre world → world.review = none →
      Safe worker hooked thread world { world with review := some thread } → inside { world with review := some thread })
    (runs : Guards worker hooked thread inside body after) (kept : ∀ value, Kept worker hooked thread (after value))
    (left : ∀ {value world}, after value world → Safe worker hooked thread world { world with review := none } ∧
      post value { world with review := none }) : Guards worker hooked thread pre (withReview body) post := by
  have enter : Guards worker hooked thread pre (Program.one Op.lockReview) fun _ => inside := by
    refine Triple.one stable fun {before _ _} now executed => ?_
    obtain ⟨_, _, done⟩ := executed
    cases unheld : before.review with
    | some holder => simp [execute, unheld] at done
    | none =>
      simp only [execute, unheld, Option.some.injEq] at done
      cases done
      exact ⟨.lockReview unheld, entered now unheld (.lockReview unheld)⟩
  have leave (value : Value) : Guards worker hooked thread (after value) (Program.one Op.unlockReview) fun _ => post value := by
    refine Triple.one (kept value) fun now executed => ?_
    obtain ⟨_, _, done⟩ := executed
    cases done
    exact left now
  exact Triple.bind enter fun _ => Triple.bind runs fun value => Triple.bind (leave value) fun _ => .pure id

end Operations

end NovelStudio.Jobs
