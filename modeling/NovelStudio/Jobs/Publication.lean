import NovelStudio.Jobs.Worker

/-! The run of the worker keeps its guarantee: the sections under its condition, the
publication under both locks, and the settlement at its end. -/

namespace NovelStudio.Jobs
open Library

variable {worker : Thread} {hooked reviewing fresh : Bool} {job : Job} {Value : Type}

/-- The worker waits outside its condition. -/
structure Free (worker : Thread) (hooked reviewing : Bool) (world : World) : Prop where
  invariant : Invariant worker hooked world
  review : world.review = some worker ↔ reviewing
  condition : world.condition worker.manager ≠ some worker
  alive : ∃ job, world.jobs worker.manager = some job

theorem stable_reviewing : Kept worker hooked worker fun world => world.review = some worker ↔ reviewing := by
  cases reviewing with
  | true => simpa using stable_review
  | false => simpa using stable_not_review

theorem stable_free : Kept worker hooked worker (Free worker hooked reviewing) := fun _ _ step now =>
  ⟨stable_invariant _ _ step now.invariant, stable_reviewing _ _ step now.review, stable_not_condition _ _ step now.condition,
    stable_alive _ _ step now.alive⟩

/-- Nothing of the draft has been published. -/
def Unpublished (worker : Thread) (hooked reviewing : Bool) (world : World) : Prop :=
  Free worker hooked reviewing world ∧ ∃ saved, world.file = some saved ∧ saved.record.status.reviewable = false

theorem stable_unpublished : Kept worker hooked worker (Unpublished worker hooked reviewing) := by
  refine stable_file (fun file => ∃ saved, file = some saved ∧ saved.record.status.reviewable = false) stable_free ?_
  rintro state other record different _ ⟨saved, filed, unpublished⟩ files
  have follows := files.follows (World.status_of_file filed)
  have uncompleted : record.status ≠ .completed := fun completed => different (files.completed completed).1
  refine ⟨_, rfl, ?_⟩
  revert follows uncompleted unpublished
  cases saved.record.status <;> cases record.status <;> simp [Status.mayFollow, Status.pending, Status.reviewable]

/-- The terminal hook is settled, or the job has none. -/
def Inert (worker : Thread) (hooked : Bool) (world : World) : Prop :=
  hooked = false ∨ ∃ job, world.jobs worker.manager = some job ∧ job.terminalHookStatus.isSome

theorem stable_inert : Kept worker hooked worker (Inert worker hooked) := by
  rintro state next (⟨other, _, safe⟩ | stop) (hookless | ⟨job, found, settled⟩)
  · exact .inl hookless
  · obtain ⟨now, found'⟩ := safe.alive found
    exact .inr ⟨now, found', safe.settled found found' settled⟩
  · exact .inl hookless
  · exact .inr ⟨job, stop.jobs.trans found, settled⟩

/-- The worker is outside its condition, with nothing published or nothing to settle. -/
def Idle (worker : Thread) (hooked reviewing : Bool) (world : World) : Prop :=
  Unpublished worker hooked reviewing world ∨ Free worker hooked reviewing world ∧ Inert worker hooked world

theorem stable_idle : Kept worker hooked worker (Idle worker hooked reviewing) := fun _ _ step now =>
  now.imp (stable_unpublished _ _ step) (stable_free.and stable_inert _ _ step)

/-- The worker holds its condition and has no settlement under way. -/
def Working (worker : Thread) (hooked reviewing : Bool) (world : World) : Prop :=
  ∃ job, job.Claimed ∧ Held worker hooked reviewing false job world

theorem stable_working : Kept worker hooked worker (Working worker hooked reviewing) := fun _ _ step ⟨job, claimed, held⟩ =>
  ⟨job, claimed, stable_held _ _ step held⟩

variable {world : World}

theorem Unpublished.enters (unpublished : Unpublished worker hooked reviewing world)
    (unheld : world.condition worker.manager = none)
    (safe : Safe worker hooked worker world (world.hold worker.manager (some worker))) :
    ∃ job, (job.Claimed ∧ job.status.reviewable = false) ∧
      Held worker hooked reviewing false job (world.hold worker.manager (some worker)) := by
  obtain ⟨free, saved, filed, unpublished⟩ := unpublished
  obtain ⟨job, found⟩ := free.alive
  have agrees := free.invariant.agrees (World.status_of_file filed) found
  have hidden : job.status.reviewable = false := by
    by_contra reviewable
    rcases agrees.reviewable (by simpa using reviewable) with published | ⟨_, holds, _⟩
    · simp [unpublished] at published
    · rw [unheld] at holds
      cases holds
  have claimed : job.Claimed := fun called =>
    (free.invariant.claims found called).resolve_right (by rw [unheld]; nofun)
  refine ⟨job, ⟨claimed, hidden⟩, safe.invariant free.invariant, free.review, ⟨by simp, job, found, rfl⟩, saved, filed, ?_, nofun⟩
  by_cases cancelled : saved.record.status = .cancelled
  · exact .inr (.inl ⟨cancelled, agrees.cancelled cancelled⟩)
  · exact .inl ⟨by simp [Status.pending, unpublished, cancelled], by simp [hidden]⟩

theorem Working.leaves (working : Working worker hooked false world) :
    Safe worker hooked worker world (world.hold worker.manager none) ∧
      Unpublished worker hooked false (world.hold worker.manager none) := by
  obtain ⟨job, claimed, held⟩ := working
  obtain ⟨holds, copy, found, core⟩ := held.keeps
  obtain ⟨saved, filed, legal, _⟩ := held.legal
  have hidden : saved.record.status.reviewable = false ∧ job.status ≠ .completed := by
    rcases legal with ⟨pending, draft⟩ | ⟨cancelled, copy⟩ | ⟨_, reviews, _⟩
    · refine ⟨by simpa [Status.pending] using And.left (by simpa [Status.pending] using pending), fun completed => ?_⟩
      simp [completed, Status.reviewable] at draft
    · exact ⟨by rw [cancelled]; rfl, by simp [copy]⟩
    · cases reviews
  have safe : Safe worker hooked worker world (world.hold worker.manager none) := by
    refine .unlockJob holds fun _ now found' => ?_
    rw [found] at found'
    cases found'
    refine ⟨fun completed => absurd ((Job.status_eq_of_core core).symm.trans completed) hidden.2, fun called => ?_⟩
    have kin := Fails.of_core core.symm
    rw [Job.terminalHookStatus_eq_of_core core]
    exact claimed (kin.called ▸ called)
  exact ⟨safe, ⟨safe.invariant held.invariant, held.review, by simp, copy, found⟩, saved, filed, hidden.1⟩

theorem guards_section {body : Routine Value}
    (runs : ∀ job, job.Claimed ∧ job.status.reviewable = false →
      Guards worker hooked worker (Held worker hooked false false job) body fun _ => Working worker hooked false) :
    Guards worker hooked worker (Unpublished worker hooked false) (withJob body) fun _ => Unpublished worker hooked false :=
  guards_withJob _ _ stable_unpublished Unpublished.enters (Triple.some runs) (fun _ => stable_working) Working.leaves

variable {now : Job}

theorem Fails.claimed (fails : Fails job now) (claimed : job.Claimed) : now.Claimed := fun called =>
  fails.settled (claimed (fails.called ▸ called))

theorem working_cancel (claimed : job.Claimed) : Guards worker hooked worker (Held worker hooked reviewing fresh job) cancelHeld
    fun _ => Working worker hooked reviewing :=
  held_cancel.mono id fun ⟨now, ⟨called, settled, _⟩, held, _⟩ => ⟨now, fun is => settled (claimed (called ▸ is)), held⟩

theorem working_emit (claimed : job.Claimed) : Guards worker hooked worker (Held worker hooked reviewing fresh job) emit
    fun _ => Working worker hooked reviewing :=
  held_emit.mono id fun ⟨now, ⟨fails, _⟩, held, _⟩ => ⟨now, fails.claimed claimed, held⟩

theorem working_stop (claimed : job.Claimed) : Guards worker hooked worker (Held worker hooked reviewing fresh job) stopCancelled
    fun _ => Working worker hooked reviewing :=
  Triple.bind (working_cancel claimed) fun _ => .pure id

theorem working_refuse (claimed : job.Claimed) : Guards worker hooked worker (Held worker hooked reviewing fresh job) refuseBounds
    fun _ => Working worker hooked reviewing :=
  Triple.bind (held_set_free rfl) fun _ => Triple.bind (held_set_free rfl) fun _ => Triple.bind (held_set_free rfl) fun _ =>
    .pure fun held => ⟨job, claimed, held.stale⟩

variable {status : Status}

theorem held_reopen (open' : job.status.terminal = false) (hidden : status.reviewable = false)
    (plain : job.Plain → status ≠ .settling) : Guards worker hooked worker (Held worker hooked reviewing fresh job)
      (set (.status status)) fun _ => Held worker hooked reviewing fresh (job.set (.status status)) := by
  refine held_set (fun was => ⟨was.1, plain was⟩) fun {saved} _ legal => ?_
  rcases legal with ⟨pending, _⟩ | ⟨_, copy⟩ | ⟨_, _, copy, _⟩
  · exact .inl ⟨pending, by simp [Job.set, hidden]⟩
  · rw [copy] at open'
    cases open'
  · rcases copy with copy | copy <;> rw [copy] at open' <;> cases open'

theorem working_claim (claimed : job.Claimed) : Guards worker hooked worker (Held worker hooked false false job) claim
    fun _ => Working worker hooked false := by
  refine Triple.bind held_readJob fun read => Triple.fact fun core => ?_
  have claimed := (Fails.of_core core).claimed claimed
  refine Triple.ite (fun _ => .pure fun held => ⟨read, claimed, held⟩) fun open' => Triple.ite (fun _ => working_stop claimed) fun _ =>
    Triple.bind (held_reopen (by simpa using open') rfl nofun) fun _ => Triple.bind (working_emit ?_) fun _ => .pure id
  exact claimed

theorem working_emitChunk (claimed : job.Claimed) : Guards worker hooked worker (Held worker hooked false false job)
    (emitChunk text) fun _ => Working worker hooked false :=
  Triple.bind held_readJob fun _ => Triple.fact fun core => Triple.bind (held_setIf_free rfl) fun _ =>
    working_emit ((Fails.of_core core).claimed claimed)

theorem working_streamDelta (claimed : job.Claimed) : Guards worker hooked worker (Held worker hooked false false job)
    (streamDelta text) fun _ => Working worker hooked false := by
  refine Triple.bind held_ask fun _ => Triple.ite (fun _ => Triple.bind held_ask fun _ => Triple.ite ?_ ?_) fun _ => working_refuse claimed
  · refine fun _ => Triple.bind held_readJob fun read => Triple.fact fun core => ?_
    have claimed := (Fails.of_core core).claimed claimed
    exact Triple.ite (fun _ => .pure fun held => ⟨read, claimed, held⟩) fun _ => Triple.ite (fun _ => working_stop claimed) fun _ =>
      Triple.bind (working_emitChunk claimed) fun _ => .pure id
  · exact fun _ => .pure fun held => ⟨job, claimed, held⟩

theorem working_streamCompleted (claimed : job.Claimed) : Guards worker hooked worker (Held worker hooked false false job)
    streamCompleted fun _ => Working worker hooked false := by
  refine Triple.bind held_ask fun _ => Triple.ite (fun _ => ?_) fun _ => working_refuse claimed
  refine Triple.bind held_readJob fun read => Triple.fact fun core => Triple.bind (held_setIf_free rfl) fun _ =>
    Triple.bind held_ask fun _ => ?_
  have claimed := (Fails.of_core core).claimed claimed
  refine Triple.ite (fun _ => Triple.bind held_readJob fun again => Triple.fact fun core' => ?_) fun _ =>
    .pure fun held => ⟨read, claimed, held⟩
  exact .pure fun held => ⟨again, (Fails.of_core core').claimed claimed, held⟩

theorem working_streamEvent (claimed : job.Claimed) (happening : Happening) : Guards worker hooked worker
    (Held worker hooked false false job) (streamEvent happening) fun _ => Working worker hooked false := by
  refine Triple.bind held_readJob fun read => Triple.fact fun core => ?_
  have claimed := (Fails.of_core core).claimed claimed
  refine Triple.ite (fun _ => .pure fun held => ⟨read, claimed, held⟩) fun _ => Triple.ite (fun _ => working_stop claimed) fun _ => ?_
  cases happening with
  | cancelled => exact working_stop claimed
  | delta text => exact working_streamDelta claimed
  | completed => exact working_streamCompleted claimed
  | route | snapshot | failed | bounds | failure => exact .pure fun held => ⟨read, claimed, held⟩

theorem working_handle (claimed : job.Claimed) : Guards worker hooked worker (Held worker hooked false false job) handleHeld
    fun _ => Working worker hooked false := by
  refine Triple.bind held_readJob fun read => Triple.fact fun core => ?_
  have claimed := (Fails.of_core core).claimed claimed
  refine Triple.ite (fun _ => .pure fun held => ⟨read, claimed, held⟩) fun open' => ?_
  have uncancelled : read.status ≠ .cancelled ∨ false = true := .inl fun cancelled => open' (by rw [cancelled]; rfl)
  have failed : (read.set (.status .failed)).Claimed := claimed
  refine Triple.ite (fun _ => ?_) fun _ => Triple.ite (fun _ => ?_) fun _ => ?_
  · exact Triple.bind (held_set_free rfl) fun _ => Triple.bind (held_fail uncancelled) fun _ => Triple.bind (held_set_free rfl) fun _ =>
      Triple.bind (held_set_free rfl) fun _ => Triple.bind (working_emit failed) fun _ => .pure id
  · exact Triple.bind (working_cancel claimed) fun _ => .pure id
  · exact Triple.bind held_ask fun _ => Triple.bind (held_setIf_free rfl) fun _ => Triple.bind (held_fail uncancelled) fun _ =>
      Triple.bind (held_setIf_free rfl) fun _ => Triple.bind (held_set_free rfl) fun _ => Triple.bind (working_emit failed) fun _ => .pure id

/-- A copy that says it is completed is persisted so. -/
def Shown (job : Job) (file : Option Saved) : Prop :=
  job.status = .completed → ∃ saved, file = some saved ∧ saved.record.status = .completed

/-- The worker holds both locks and what it shows is persisted. -/
def HeldShown (worker : Thread) (hooked : Bool) (job : Job) (world : World) : Prop :=
  Held worker hooked true false job world ∧ Shown job world.file

theorem stable_heldShown : Kept worker hooked worker (HeldShown worker hooked job) := by
  refine stable_file (Shown job) stable_held ?_
  intro state other record different held shown files completed
  obtain ⟨saved, filed, published⟩ := shown completed
  have reviewed := files.reviewed (World.status_of_file filed) (by rw [published]; rfl)
  exact absurd (Option.some.inj ((held.review.mpr rfl).symm.trans reviewed)).symm different

/-- The publication is over and the worker may leave both locks. -/
def Public (worker : Thread) (hooked : Bool) (world : World) : Prop :=
  ∃ job, job.Claimed ∧ HeldShown worker hooked job world

theorem stable_public : Kept worker hooked worker (Public worker hooked) := fun _ _ step ⟨job, claimed, held⟩ =>
  ⟨job, claimed, stable_heldShown _ _ step held⟩

theorem Public.of_uncompleted (claimed : job.Claimed) (uncompleted : job.status ≠ .completed)
    (held : Held worker hooked true fresh job world) : Public worker hooked world :=
  ⟨job, claimed, held.stale, fun completed => absurd completed uncompleted⟩

theorem Public.leaves (finished : Public worker hooked world) :
    Safe worker hooked worker world (world.hold worker.manager none) ∧ Idle worker hooked true (world.hold worker.manager none) := by
  obtain ⟨job, claimed, held, shown⟩ := finished
  obtain ⟨holds, copy, found, core⟩ := held.keeps
  obtain ⟨saved, filed, legal, _⟩ := held.legal
  have safe : Safe worker hooked worker world (world.hold worker.manager none) := by
    refine .unlockJob holds fun _ now found' => ?_
    rw [found] at found'
    cases found'
    refine ⟨fun completed => ?_, fun called => ?_⟩
    · obtain ⟨saved, filed, published⟩ := shown ((Job.status_eq_of_core core).symm.trans completed)
      exact ⟨_, World.status_of_file filed, by rw [published]; rfl⟩
    · rw [Job.terminalHookStatus_eq_of_core core]
      exact claimed ((Fails.of_core core.symm).called ▸ called)
  have free : Free worker hooked true (world.hold worker.manager none) :=
    ⟨safe.invariant held.invariant, held.review, by simp, copy, found⟩
  refine ⟨safe, ?_⟩
  rcases legal with ⟨pending, _⟩ | ⟨cancelled, _⟩ | ⟨_, _, _, inert⟩
  · exact .inl ⟨free, saved, filed, by simpa using And.left (by simpa [Status.pending] using pending)⟩
  · exact .inl ⟨free, saved, filed, by rw [cancelled]; rfl⟩
  · exact .inr ⟨free, inert.imp_right fun settled => ⟨copy, found, (Job.terminalHookStatus_eq_of_core core) ▸ settled⟩⟩

/-- What the handlers of the publication find. -/
def Ended (worker : Thread) (hooked : Bool) : Published → World → Prop
  | .done, world | .returned, world => Public worker hooked world
  | .refused, world => ∃ job, (job.Claimed ∧ job.status ≠ .completed) ∧ Held worker hooked true false job world
  | .raised, world => ∃ fresh job, (job.Claimed ∧ (job.status ≠ .cancelled ∨ fresh = true)) ∧ Held worker hooked true fresh job world

/-- A draft whose settlement is over. -/
structure Draft (hooked : Bool) (job : Job) : Prop where
  claimed : job.Claimed
  status : job.status = .completed ∨ job.status = .failed
  settled : hooked = false ∨ job.terminalHookStatus.isSome

theorem Draft.fails (draft : Draft hooked job) (fails : Fails job now) : Draft hooked now :=
  ⟨fails.claimed draft.claimed, fails.status.elim (fun same => same ▸ draft.status) .inr, draft.settled.imp_right fails.settled⟩

theorem Draft.uncancelled (draft : Draft hooked job) : job.status ≠ .cancelled :=
  fun cancelled => by rcases draft.status with status | status <;> rw [cancelled] at status <;> cases status

theorem held_discardIsolated (draft : Draft hooked job) : Guards worker hooked worker (Held worker hooked true false job)
    discardIsolated fun _ world => ∃ now, Draft hooked now ∧ Held worker hooked true false now world := by
  refine Triple.bind held_readJob fun read => Triple.fact fun core => ?_
  have draft := draft.fails (.of_core core)
  refine Triple.ite (fun _ => Triple.bind held_ask fun _ => Triple.ite ?_ ?_) fun _ => .pure fun held => ⟨read, draft, held⟩
  · exact fun _ => .pure fun held => ⟨read, draft, held⟩
  · exact fun _ => Triple.bind (held_set_free rfl) fun _ => Triple.bind (held_fail (.inl draft.uncancelled)) fun _ =>
      (held_setIf_free rfl).mono id fun held => ⟨_, draft.fails fails_failed, held⟩

theorem heldShown_readJob : Guards worker hooked worker (HeldShown worker hooked job) readJob fun read world =>
    read.core = job.core ∧ HeldShown worker hooked read world :=
  (guards_readJob stable_heldShown).mono id fun {read _} ⟨found, held, shown⟩ => by
    obtain ⟨_, copy, found', core⟩ := held.keeps
    rw [found] at found'
    cases found'
    exact ⟨core, held.of_core core, fun completed => shown ((Job.status_eq_of_core core).symm.trans completed)⟩

theorem held_confirmDirector (draft : Draft hooked job) : Guards worker hooked worker (HeldShown worker hooked job) confirmDirector
    (Ended worker hooked) := by
  refine Triple.bind heldShown_readJob fun read => Triple.fact fun core => ?_
  have draft := draft.fails (.of_core core)
  refine Triple.ite (fun _ => Triple.bind (guards_ask stable_heldShown) fun _ => Triple.ite (fun _ => ?_) fun _ => ?_) fun _ =>
    .pure fun held => ⟨read, draft.claimed, held⟩
  · refine Triple.bind (guards_ask stable_heldShown) fun _ => Triple.ite (fun _ => .pure fun held => ⟨read, draft.claimed, held⟩)
      fun _ => ?_
    have claimed : (read.set (.status .failed)).Claimed := draft.claimed
    exact Triple.bind ((held_fail (.inl draft.uncancelled)).mono And.left id) fun _ => Triple.bind (held_set_free rfl) fun _ =>
      Triple.bind (held_set_free rfl) fun _ => .pure fun held => .of_uncompleted claimed nofun held
  · exact Triple.bind ((held_set_free rfl).mono And.left id) fun _ => Triple.bind (held_set_free rfl) fun _ =>
      Triple.bind (held_set_free rfl) fun _ => .pure fun held => ⟨false, read, ⟨draft.claimed, .inl draft.uncancelled⟩, held⟩

theorem held_publishDraft (draft : Draft hooked job) : Guards worker hooked worker (Held worker hooked true false job) publishDraft
    (Ended worker hooked) := by
  refine Triple.bind (held_discardIsolated draft) fun _ => Triple.some fun job draft => Triple.assume Held.hooks fun ⟨hooks, plain⟩ => ?_
  refine Triple.bind held_emit fun returned => Triple.ite (fun returned' => ?_) fun _ => ?_
  · have confirms : Guards worker hooked worker (fun world => ∃ now, Draft hooked now ∧ HeldShown worker hooked now world)
        confirmDirector (Ended worker hooked) := Triple.some fun _ draft => held_confirmDirector draft
    refine confirms.mono ?_ id
    rintro world ⟨now, ⟨fails, _⟩, held, shown, _⟩
    refine ⟨now, draft.fails fails, held, fun completed => ?_⟩
    obtain ⟨saved, filed, _⟩ := held.legal
    have status := shown returned' completed
    have copied : job.status = .completed := fails.status.elim (fun same => same.symm.trans completed) fun failed => by
      rw [failed] at completed
      cases completed
    have public' : job.publicStatus = .completed := by
      rcases Job.publicStatus_cases hooks plain with ⟨same, _⟩ | ⟨_, _, hook, unsettled⟩
      · exact same.trans copied
      · have settled := draft.settled
        simp [hook, unsettled] at settled
    refine ⟨saved, filed, ?_⟩
    rw [World.status_of_file filed, public'] at status
    exact Option.some.inj status
  · exact .pure fun ⟨now, ⟨fails, _⟩, held, _⟩ => ⟨false, now, ⟨fails.claimed draft.claimed, .inl (draft.fails fails).uncancelled⟩, held⟩

theorem held_complete (open' : job.status.terminal = false) : Guards worker hooked worker (Held worker hooked true fresh job)
    (set (.status .completed)) fun _ => Held worker hooked true fresh (job.set (.status .completed)) := by
  refine held_set (fun was => ⟨was.1, nofun⟩) fun {saved} _ legal => ?_
  rcases legal with ⟨pending, _⟩ | ⟨_, copy⟩ | ⟨_, _, copy, _⟩
  · exact .inl ⟨pending, fun _ => ⟨rfl, rfl⟩⟩
  · rw [copy] at open'
    cases open'
  · rcases copy with copy | copy <;> rw [copy] at open' <;> cases open'

/-- The copy while a live publication waits for its last check. -/
structure Pending (hooked : Bool) (status : Status) (job : Job) : Prop where
  claimed : job.Claimed
  status : job.status = status ∨ job.status = .failed
  settled : hooked = false ∨ job.terminalHookStatus.isSome

theorem Pending.of_core (waits : Pending hooked status job) (same : now.core = job.core) :
    Pending hooked status now :=
  ⟨(Fails.of_core same).claimed waits.claimed, Job.status_eq_of_core same ▸ waits.status,
    waits.settled.imp_right (Fails.of_core same).settled⟩

theorem Pending.uncompleted (waits : Pending hooked status job) (open' : status.terminal = false) :
    job.status ≠ .completed ∧ job.status ≠ .cancelled := by
  rcases waits.status with status' | status' <;> rw [status']
  · exact ⟨fun completed => by simp [completed, Status.terminal] at open', fun cancelled => by simp [cancelled, Status.terminal] at open'⟩
  · exact ⟨by rintro ⟨⟩, by rintro ⟨⟩⟩

theorem held_publishLive (open' : status.terminal = false) (waits : Pending hooked status job) :
    Guards worker hooked worker (Held worker hooked true false job) (publishLive status) (Ended worker hooked) := by
  refine Triple.bind held_readJob fun read => Triple.fact fun core => ?_
  have waits := waits.of_core core
  obtain ⟨uncompleted, uncancelled⟩ := waits.uncompleted open'
  refine Triple.ite (fun _ => ?_) fun _ => Triple.ite (fun _ => .pure fun held => .of_uncompleted waits.claimed uncompleted held) fun _ =>
    Triple.bind held_ask fun _ => Triple.ite (fun _ => ?_) fun _ => .pure fun held => ⟨read, ⟨waits.claimed, uncompleted⟩, held⟩
  · refine Triple.bind held_emit fun returned => .pure fun ⟨now, ⟨fails, kept⟩, held, _⟩ => ?_
    have same : now.status = read.status := kept (.inr uncompleted)
    cases returned with
    | true => exact .of_uncompleted (fails.claimed waits.claimed) (same ▸ uncompleted) held
    | false => exact ⟨false, now, ⟨fails.claimed waits.claimed, .inl (same ▸ uncancelled)⟩, held⟩
  · refine Triple.bind held_readJob fun again => Triple.fact fun core' => ?_
    have waits := waits.of_core core'
    have uncompleted := (waits.uncompleted open').1
    refine Triple.ite (fun _ => .pure fun held => .of_uncompleted waits.claimed uncompleted held) fun same => ?_
    have same : again.status = status := by simpa using same
    have open' : again.status.terminal = false := same ▸ open'
    refine Triple.ite (fun _ => Triple.bind held_cancel fun returned => .pure ?_) fun _ =>
      Triple.bind (held_complete open') fun _ => held_publishDraft ⟨waits.claimed, .inl rfl, waits.settled⟩
    rintro world ⟨now, ⟨called, settled, cancelled⟩, held, fresh⟩
    have claimed : now.Claimed := fun is => settled (waits.claimed (called ▸ is))
    cases returned with
    | true => exact .of_uncompleted claimed (by rw [cancelled open']; nofun) held
    | false => exact ⟨true, now, ⟨claimed, .inr rfl⟩, fresh open' rfl⟩

theorem held_publishSettled {live settles : Bool} (open' : status.terminal = false) (claimed : job.Claimed)
    (entered : job.status = if live then status else .completed) : Guards worker hooked worker (Held worker hooked true false job)
      (publishSettled live settles status) (Ended worker hooked) := by
  have uncancelled : job.status ≠ .cancelled := by
    rw [entered]
    split
    · intro cancelled
      simp [cancelled, Status.terminal] at open'
    · rintro ⟨⟩
  have receipt : Guards worker hooked worker (Held worker hooked true false job) (if settles then persist else pure true)
      fun _ => Held worker hooked true false job :=
    .ite (fun _ => held_persist.mono id And.left) fun _ => .pure id
  refine Triple.bind receipt fun _ => Triple.ite (fun _ => Triple.bind (held_finish claimed) fun _ => Triple.some fun now finishes => ?_)
    fun _ => .pure fun held => ⟨false, job, ⟨claimed, .inl uncancelled⟩, held⟩
  have status' := finishes.status
  rw [entered] at status'
  cases live with
  | true => exact held_publishLive open' ⟨finishes.claimed, status', finishes.settled⟩
  | false => exact held_publishDraft ⟨finishes.claimed, status', finishes.settled⟩

theorem held_publicationRefused (claimed : job.Claimed) (uncompleted : job.status ≠ .completed) : Guards worker hooked worker
    (Held worker hooked true false job) publicationRefused fun _ => Public worker hooked := by
  refine Triple.bind held_readJob fun read => Triple.fact fun core => ?_
  have claimed := (Fails.of_core core).claimed claimed
  have uncompleted : read.status ≠ .completed := Job.status_eq_of_core core ▸ uncompleted
  refine Triple.ite (fun _ => .pure fun held => .of_uncompleted claimed uncompleted held) fun open' => ?_
  refine Triple.bind (held_set_free rfl) fun _ => Triple.bind (held_fail (.inl fun cancelled => open' (by rw [cancelled]; rfl))) fun _ =>
    Triple.bind (held_set_free rfl) fun _ => Triple.bind held_emit fun _ => .pure fun ⟨now, ⟨fails, same⟩, held, _⟩ => ?_
  exact .of_uncompleted (fails.claimed claimed) (by rw [same (.inr nofun)]; nofun) held

theorem held_publicationUncertain (claimed : job.Claimed) (may : job.status ≠ .cancelled ∨ fresh = true) : Guards worker hooked worker
    (Held worker hooked true fresh job) publicationUncertain fun _ => Public worker hooked := by
  refine Triple.bind (held_fail may) fun _ => Triple.bind held_readJob fun read => Triple.fact fun core =>
    Triple.bind (held_setIf_free rfl) fun _ => Triple.bind (held_set_free rfl) fun _ => Triple.bind held_persist fun _ =>
    .pure fun held => ?_
  have failed : read.status = .failed := Job.status_eq_of_core core
  exact .of_uncompleted ((fails_failed.trans (.of_core core)).claimed claimed) (by rw [failed]; nofun) held.1

theorem held_publish (claimed : job.Claimed) (hidden : job.status.reviewable = false) : Guards worker hooked worker
    (Held worker hooked true false job) publishHeld fun _ => Public worker hooked := by
  have unfinished {now : Job} (core : now.core = job.core) : now.Claimed ∧ now.status ≠ .completed := by
    refine ⟨(Fails.of_core core).claimed claimed, fun completed => ?_⟩
    rw [← Job.status_eq_of_core core, completed] at hidden
    cases hidden
  refine Triple.bind held_readJob fun read => Triple.fact fun core => ?_
  obtain ⟨claimed', uncompleted⟩ := unfinished core
  refine Triple.ite (fun _ => .pure fun held => .of_uncompleted claimed' uncompleted held) fun open' => Triple.ite (fun _ => ?_) fun _ =>
    Triple.bind held_ask fun _ => Triple.ite (fun _ => ?_) fun _ => .pure fun held => .of_uncompleted claimed' uncompleted held
  · refine Triple.bind held_cancel fun _ => .pure fun ⟨now, ⟨called, settled, cancelled⟩, held, _⟩ => ?_
    exact .of_uncompleted (fun is => settled (claimed' (called ▸ is))) (by rw [cancelled (by simpa using open')]; nofun) held
  refine Triple.bind held_readJob fun again => Triple.fact fun core' => ?_
  obtain ⟨claimed, uncompleted⟩ := unfinished (core'.trans core)
  refine Triple.ite (fun _ => .pure fun held => .of_uncompleted claimed uncompleted held) fun open' => ?_
  have open' : again.status.terminal = false := by simpa using open'
  have waiting : (if again.settles then Status.settling else .generating).terminal = false := by split <;> rfl
  have entering : Guards worker hooked worker (Held worker hooked true false again)
      (set (.status (if again.ordinaryPublication then if again.settles then .settling else .generating else .completed))) fun _ =>
        Held worker hooked true false (again.set (.status
          (if again.ordinaryPublication then if again.settles then .settling else .generating else .completed))) := by
    split
    · refine held_reopen open' (by split <;> rfl) fun plain => ?_
      rw [if_neg (by simp [plain.1])]
      nofun
    · exact held_complete open'
  refine Triple.bind entering fun _ => Triple.bind (held_set_free rfl) fun _ =>
    Triple.bind (held_publishSettled waiting claimed rfl) fun ended => ?_
  cases ended with
  | done | returned => exact .pure id
  | refused => exact Triple.some fun now ⟨claimed, uncompleted⟩ => held_publicationRefused claimed uncompleted
  | raised =>
    rintro world ⟨fresh, now, ⟨claimed, may⟩, held⟩
    exact held_publicationUncertain claimed may _ held

theorem guards_publish : Guards worker hooked worker (Unpublished worker hooked false) (withReview (withJob publishHeld)) fun _ =>
    Idle worker hooked false := by
  refine guards_withReview (Unpublished worker hooked true) (fun _ => Idle worker hooked true) stable_unpublished
    (fun ⟨free, unpublished⟩ _ safe => ⟨⟨safe.invariant free.invariant, by simp, free.condition, free.alive⟩, unpublished⟩) ?_
    (fun _ => stable_idle) fun {_ world} idle => ?_
  · exact guards_withJob _ _ stable_unpublished Unpublished.enters
      (Triple.some fun _ ⟨claimed, hidden⟩ => held_publish claimed hidden) (fun _ => stable_public) Public.leaves
  · have released : Free worker hooked true world → Safe worker hooked worker world { world with review := none } ∧
        Free worker hooked false { world with review := none } := fun free => by
      have safe : Safe worker hooked worker world { world with review := none } :=
        .unlockReview (free.review.mpr rfl) fun _ => free.condition
      exact ⟨safe, safe.invariant free.invariant, by simp, free.condition, free.alive⟩
    rcases idle with ⟨free, unpublished⟩ | ⟨free, inert⟩
    · exact ⟨(released free).1, .inl ⟨(released free).2, unpublished⟩⟩
    · exact ⟨(released free).1, .inr ⟨(released free).2, inert⟩⟩

theorem unpublished_set {change : Change} (free : change.free) : Guards worker hooked worker (Unpublished worker hooked reviewing)
    (set change) fun _ => Unpublished worker hooked reviewing :=
  guards_set stable_unpublished fun {world job} ⟨now, unpublished⟩ found => by
    have assigns : Assigns worker worker hooked world job change := .of_free free
    exact ⟨assigns, ⟨(Safe.set found assigns).invariant now.invariant, now.review, now.condition, _, World.setJob_jobs ..⟩, unpublished⟩

theorem unpublished_refuse : Guards worker hooked worker (Unpublished worker hooked reviewing) refuseBounds fun _ =>
    Unpublished worker hooked reviewing :=
  Triple.bind (unpublished_set rfl) fun _ => Triple.bind (unpublished_set rfl) fun _ => Triple.bind (unpublished_set rfl) fun _ =>
    .pure id

theorem unpublished_readJob : Guards worker hooked worker (Unpublished worker hooked false) readJob fun job world =>
    (job.status.reviewable = false ∧ (hooked = false → job.Plain)) ∧ Unpublished worker hooked false world :=
  (guards_readJob stable_unpublished).mono id fun {job world} ⟨found, free, saved, filed, unpublished⟩ => by
    have agrees := free.invariant.agrees (World.status_of_file filed) found
    refine ⟨⟨?_, fun hookless => free.invariant.plainJobs hookless found⟩, free, saved, filed, unpublished⟩
    by_contra reviewable
    rcases agrees.reviewable (by simpa using reviewable) with published | ⟨_, _, reviews⟩
    · simp [unpublished] at published
    · exact absurd (free.review.mp reviews) nofun

theorem unpublished_persist : Guards worker hooked worker (Unpublished worker hooked false) persist fun _ =>
    Unpublished worker hooked false := by
  refine Triple.bind unpublished_readJob fun job => Triple.fact fun known => ?_
  obtain ⟨hidden, plain⟩ := known
  refine guards_save stable_unpublished (fun {world} now unlocked _ => ?_) id
  obtain ⟨free, saved, filed, unpublished⟩ := now
  have shown : job.publicStatus = job.status := by
    unfold Job.publicStatus
    rw [if_neg]
    rintro ⟨completed, _⟩
    rw [completed] at hidden
    cases hidden
  obtain ⟨uncancelled, copied⟩ := unlocked.resolve_left free.condition
  have copied : job.status ≠ .cancelled := by simpa [Job.record, shown] using copied
  have pending : job.status.pending := by simp [Status.pending, hidden, copied]
  have waiting : saved.record.status.pending := by
    rw [World.status_of_file filed] at uncancelled
    simp only [Status.pending, unpublished, Bool.not_false, Bool.true_and, bne_iff_ne]
    exact fun cancelled => uncancelled (by rw [cancelled])
  have saves : Saves worker worker hooked world job.record := by
    refine ⟨⟨fun filed' => ?_, fun completed => ?_, fun filed' published => ?_, fun cancelled => ?_, fun other => absurd rfl other⟩,
      fun hookless => ?_, fun {now} found => ?_⟩
    · cases (World.status_of_file filed).symm.trans filed'
      simp only [Job.record, shown]
      exact Status.mayFollow_pending waiting (.inl pending)
    · simp only [Job.record, shown] at completed
      rw [completed] at hidden
      cases hidden
    · cases (World.status_of_file filed).symm.trans filed'
      simp [unpublished] at published
    · simp only [Job.record, shown] at cancelled
      exact absurd cancelled copied
    · have bare := (plain hookless).1
      simp only [Job.settles, Bool.or_eq_false_iff] at bare
      exact ⟨bare.1, by simpa [Job.record, shown] using (plain hookless).2⟩
    · have agrees := free.invariant.agrees (World.status_of_file filed) found
      simp only [Job.record, shown]
      refine ⟨fun cancelled => absurd cancelled copied, fun published => by simp [hidden] at published, fun published => ?_⟩
      rcases agrees.reviewable published with published | ⟨_, _, reviews⟩
      · simp [unpublished] at published
      · exact absurd (free.review.mp reviews) (by rintro ⟨⟩)
  have after : Unpublished worker hooked false (world.save worker job.record) :=
    ⟨⟨free.invariant.save saves, free.review, free.condition, free.alive⟩, _, rfl, by simpa [Job.record, shown] using hidden⟩
  exact ⟨saves, after, fun _ => after⟩

theorem unpublished_stop : Guards worker hooked worker (Unpublished worker hooked false) (withJob stopCancelled) fun _ =>
    Unpublished worker hooked false :=
  guards_section fun _ now => working_stop now.1

theorem unpublished_happen (happening : Happening) : Guards worker hooked worker (Unpublished worker hooked false)
    (happen happening) fun _ => Unpublished worker hooked false := by
  cases happening with
  | route => exact Triple.bind unpublished_readJob fun _ => Triple.fact fun _ => Triple.ite (fun _ => unpublished_stop) fun _ => .pure id
  | snapshot =>
    exact Triple.bind unpublished_persist fun _ => Triple.ite (fun _ => .pure id) fun _ =>
      Triple.bind (guards_ask stable_unpublished) fun _ => .pure id
  | bounds => exact unpublished_refuse
  | failure => exact .pure id
  | delta | completed | cancelled | failed => exact guards_section fun _ now => working_streamEvent now.1 _

theorem unpublished_conclude : Guards worker hooked worker (Unpublished worker hooked false) conclude fun _ =>
    Idle worker hooked false := by
  refine Triple.bind unpublished_readJob fun _ => Triple.fact fun _ => Triple.ite (fun _ => unpublished_stop.mono id .inl) fun _ =>
    Triple.bind (guards_ask stable_unpublished) fun _ => Triple.ite (fun _ => ?_) fun _ => .pure .inl
  refine Triple.bind (guards_ask stable_unpublished) fun _ => Triple.ite (fun _ => ?_) fun _ => unpublished_refuse.mono id .inl
  exact Triple.bind unpublished_readJob fun _ => Triple.fact fun _ =>
    Triple.ite (fun _ => unpublished_stop.mono id .inl) fun _ => guards_publish

theorem unpublished_generate (plan : List Happening) : Guards worker hooked worker (Unpublished worker hooked false)
    (generate plan) fun _ => Idle worker hooked false := by
  induction plan with
  | nil => exact unpublished_conclude
  | cons happening plan ih =>
    refine Triple.bind (unpublished_happen happening) fun ending => ?_
    cases ending with
    | goesOn => exact ih
    | returns | raises => exact .pure .inl

theorem unpublished_work (plan : List Happening) : Guards worker hooked worker (Unpublished worker hooked false)
    (work plan) fun _ => Idle worker hooked false := by
  refine Triple.bind (guards_ask stable_unpublished) fun _ => Triple.ite (fun _ => ?_) fun _ => .pure .inl
  refine Triple.bind unpublished_readJob fun _ => Triple.fact fun _ => Triple.ite (fun _ => unpublished_stop.mono id .inl) fun _ => ?_
  refine Triple.bind (guards_section fun _ now => working_claim now.1) fun ending => ?_
  cases ending with
  | goesOn => exact unpublished_generate plan
  | returns | raises => exact .pure .inl

/-- The worker holds the condition of a copy that others may be reviewing. -/
structure Closing (worker : Thread) (hooked : Bool) (job : Job) (world : World) : Prop where
  invariant : Invariant worker hooked world
  review : world.review ≠ some worker
  keeps : Keeps worker job world

theorem stable_closing : Kept worker hooked worker (Closing worker hooked job) := fun _ _ step now =>
  ⟨stable_invariant _ _ step now.invariant, stable_not_review _ _ step now.review, stable_keeps _ _ step now.keeps⟩

/-- Nothing of the settlement is left to do. -/
structure Rest (hooked : Bool) (job : Job) : Prop where
  claimed : job.Claimed
  settled : hooked = false ∨ job.terminalHookStatus.isSome

/-- The worker holds its condition after the publication. -/
def Closed (worker : Thread) (hooked : Bool) (world : World) : Prop :=
  ∃ job, Rest hooked job ∧ Closing worker hooked job world

theorem stable_closed : Kept worker hooked worker (Closed worker hooked) := fun _ _ step ⟨job, rest, closing⟩ =>
  ⟨job, rest, stable_closing _ _ step closing⟩

theorem closing_readJob : Guards worker hooked worker (Closing worker hooked job) readJob fun read world =>
    read.core = job.core ∧ Closing worker hooked read world :=
  (guards_readJob stable_closing).mono id fun {read _} ⟨found, invariant, review, holds, copy, found', core⟩ => by
    rw [found] at found'
    cases found'
    exact ⟨core, invariant, review, holds, read, found, rfl⟩

theorem Closed.leaves (closed : Closed worker hooked world) :
    Safe worker hooked worker world (world.hold worker.manager none) ∧ Idle worker hooked false (world.hold worker.manager none) := by
  obtain ⟨job, rest, invariant, review, holds, copy, found, core⟩ := closed
  have safe : Safe worker hooked worker world (world.hold worker.manager none) := by
    refine .unlockJob holds fun _ now found' => ?_
    rw [found] at found'
    cases found'
    refine ⟨fun completed => ?_, fun called => ?_⟩
    · obtain ⟨status, filed⟩ := invariant.filed
      rcases (invariant.agrees filed found).reviewable (by rw [completed]; rfl) with published | ⟨_, _, reviews⟩
      · exact ⟨status, filed, published⟩
      · exact absurd reviews review
    · rw [Job.terminalHookStatus_eq_of_core core]
      exact rest.claimed ((Fails.of_core core.symm).called ▸ called)
  have free : Free worker hooked false (world.hold worker.manager none) :=
    ⟨safe.invariant invariant, by simpa using review, by simp, copy, found⟩
  exact ⟨safe, .inr ⟨free, rest.settled.imp_right fun settled =>
    ⟨copy, found, (Job.terminalHookStatus_eq_of_core core) ▸ settled⟩⟩⟩

/-- What the worker finds when it enters its condition after its work: an unpublished
draft, or a terminal copy with nothing left to settle. -/
theorem Idle.enters (idle : Idle worker hooked false world) (unheld : world.condition worker.manager = none)
    (safe : Safe worker hooked worker world (world.hold worker.manager (some worker))) :
    (∃ job, (job.Claimed ∧ job.status.reviewable = false) ∧
      Held worker hooked false false job (world.hold worker.manager (some worker))) ∨
    ∃ job, (job.status.terminal = true ∧ Rest hooked job) ∧
      Closing worker hooked job (world.hold worker.manager (some worker)) := by
  rcases idle with unpublished | ⟨free, inert⟩
  · exact .inl (unpublished.enters unheld safe)
  obtain ⟨status, filed⟩ := free.invariant.filed
  obtain ⟨saved, file, same⟩ : ∃ saved, world.file = some saved ∧ saved.record.status = status := by
    simpa [World.status, World.stored] using filed
  by_cases published : status.reviewable
  · obtain ⟨job, found⟩ := free.alive
    refine .inr ⟨job, ⟨(free.invariant.agrees filed found).terminal published, ?_, ?_⟩,
      safe.invariant free.invariant, by simpa using free.review, by simp, job, found, rfl⟩
    · exact fun called => (free.invariant.claims found called).resolve_right (by rw [unheld]; rintro ⟨⟩)
    · refine inert.imp_right ?_
      rintro ⟨copy, found', settled⟩
      rw [found] at found'
      cases found'
      exact settled
  · exact .inl (Unpublished.enters ⟨free, saved, file, by simpa [same] using published⟩ unheld safe)

theorem guards_closing {body : Routine Value}
    (works : ∀ job, job.Claimed ∧ job.status.reviewable = false →
      Guards worker hooked worker (Held worker hooked false false job) body fun _ world =>
        Working worker hooked false world ∨ Closed worker hooked world)
    (closes : ∀ job, job.status.terminal = true ∧ Rest hooked job →
      Guards worker hooked worker (Closing worker hooked job) body fun _ world =>
        Working worker hooked false world ∨ Closed worker hooked world) :
    Guards worker hooked worker (Idle worker hooked false) (withJob body) fun _ => Idle worker hooked false := by
  refine guards_withJob _ _ stable_idle Idle.enters (Triple.or (Triple.some works) (Triple.some closes))
    (fun _ _ _ step now => now.imp (stable_working _ _ step) (stable_closed _ _ step)) fun now => ?_
  rcases now with working | closed
  · exact ⟨working.leaves.1, .inl working.leaves.2⟩
  · exact closed.leaves

theorem idle_handle : Guards worker hooked worker (Idle worker hooked false) (withJob handleHeld) fun _ =>
    Idle worker hooked false := by
  refine guards_closing (fun job ⟨claimed, _⟩ => (working_handle claimed).mono id .inl) fun job ⟨terminal, rest⟩ => ?_
  refine Triple.bind closing_readJob fun read => Triple.fact fun core => ?_
  have kin := Fails.of_core core
  refine Triple.ite (fun _ => .pure fun closing => .inr ⟨read, ⟨kin.claimed rest.claimed, rest.settled.imp_right kin.settled⟩, closing⟩)
    fun open' => ?_
  exact absurd ((Job.status_eq_of_core core) ▸ terminal) open'

theorem idle_finish : Guards worker hooked worker (Idle worker hooked false) finishTerminalHook fun _ =>
    Idle worker hooked false := by
  refine guards_closing (fun job working => (held_finish working.1).mono id ?_) fun job closed => ?_
  · rintro _ _ ⟨now, finishes, held⟩
    exact .inl ⟨now, finishes.claimed, held⟩
  have rest := closed.2
  refine Triple.bind closing_readJob fun read => Triple.fact fun core => ?_
  have kin := Fails.of_core core
  have rest : Rest hooked read := ⟨kin.claimed rest.claimed, rest.settled.imp_right kin.settled⟩
  refine Triple.ite (fun _ => .pure fun closing => .inr ⟨read, rest, closing⟩) fun unsettled => ?_
  have hookless : hooked = false := rest.settled.resolve_right fun settled => unsettled (by simp [settled])
  have plain : ∀ {world}, Closing worker hooked read world → read.hooked = false ∧ read.dispatchHooksRequired = false := by
    rintro world ⟨invariant, _, _, copy, found, same⟩
    have plain := (Job.plain_of_core same.symm (invariant.plainJobs hookless found)).1
    simp only [Job.settles, Bool.or_eq_false_iff] at plain
    exact ⟨plain.2, plain.1⟩
  refine Triple.assume plain fun hookless => ?_
  obtain ⟨bare, required⟩ := hookless
  rw [bare, required]
  exact .pure fun closing => .inr ⟨read, rest, closing⟩

theorem guards_run (plan : List Happening) : Guards worker hooked worker (Unpublished worker hooked false) (run plan)
    fun _ => Idle worker hooked false := by
  refine Triple.bind (unpublished_work plan) fun ending => ?_
  cases ending with
  | raises => exact Triple.bind idle_handle fun _ => idle_finish
  | goesOn | returns => exact idle_finish

end NovelStudio.Jobs
