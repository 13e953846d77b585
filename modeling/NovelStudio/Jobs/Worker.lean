import NovelStudio.Jobs.Guarantees

/-! The worker keeps its guarantee: under the condition of its copy every record it saves
follows the persisted one, and once a draft is published nothing of it is saved again. -/

namespace NovelStudio.Jobs
open Library

variable {worker : Thread} {hooked reviewing fresh : Bool} {job : Job}

/-- Whether the worker, holding the condition of its copy, may save what the copy says.
`reviewing` says that it holds the review lock too. -/
def Legal (hooked reviewing : Bool) (status : Status) (job : Job) : Prop :=
  (status.pending ∧ (job.status.reviewable → reviewing ∧ job.status = .completed)) ∨
  (status = .cancelled ∧ job.status = .cancelled) ∨
  (status = .completed ∧ reviewing ∧ (job.status = .completed ∨ job.status = .failed) ∧
    (hooked = false ∨ job.terminalHookStatus.isSome))

/-- The worker holds the condition of its copy, which is `job` up to what changes freely.
`fresh` says that no cancellation is recorded. -/
structure Held (worker : Thread) (hooked reviewing fresh : Bool) (job : Job) (world : World) : Prop where
  invariant : Invariant worker hooked world
  review : world.review = some worker ↔ reviewing
  keeps : Keeps worker job world
  legal : ∃ saved, world.file = some saved ∧ Legal hooked reviewing saved.record.status job ∧
    (fresh → saved.record.status ≠ .cancelled)

variable {now : Job} {status : Status}

theorem Legal.of_core (legal : Legal hooked reviewing status job) (same : now.core = job.core) :
    Legal hooked reviewing status now := by
  unfold Legal
  rw [Job.status_eq_of_core same, Job.terminalHookStatus_eq_of_core same]
  exact legal

variable {world : World}

theorem Held.of_core (held : Held worker hooked reviewing fresh job world) (same : now.core = job.core) :
    Held worker hooked reviewing fresh now world where
  invariant := held.invariant
  review := held.review
  keeps := ⟨held.keeps.1, by obtain ⟨copy, found, core⟩ := held.keeps.2; exact ⟨copy, found, core.trans same.symm⟩⟩
  legal := by obtain ⟨saved, filed, legal, clean⟩ := held.legal; exact ⟨saved, filed, legal.of_core same, clean⟩

theorem World.status_of_file {saved : Saved} (filed : world.file = some saved) :
    world.status = some saved.record.status := by
  simp [World.status, World.stored, filed]

theorem stable_held : Kept worker hooked worker (Held worker hooked reviewing fresh job) := by
  have guarded : Kept worker hooked worker fun world => Invariant worker hooked world ∧
      (world.review = some worker ↔ reviewing) ∧ Keeps worker job world := by
    refine stable_invariant.and (Stable.and ?_ stable_keeps)
    cases reviewing with
    | true => simpa using stable_review
    | false => simpa using stable_not_review
  have filed := stable_file (fun file => ∃ saved, file = some saved ∧ Legal hooked reviewing saved.record.status job ∧
      (fresh → saved.record.status ≠ .cancelled)) guarded ?_
  · intro state next step now
    obtain ⟨⟨invariant, review, keeps⟩, legal⟩ := filed _ _ step ⟨⟨now.invariant, now.review, now.keeps⟩, now.legal⟩
    exact ⟨invariant, review, keeps, legal⟩
  · rintro state other record different ⟨_, review, holds, _⟩ ⟨saved, filed, legal, _⟩ files
    have status := World.status_of_file filed
    have follows := files.follows status
    have uncompleted : record.status ≠ .completed := fun completed => different (files.completed completed).1
    have uncancelled : record.status ≠ .cancelled := fun cancelled =>
      different (Option.some.inj (holds.symm.trans (files.cancelled cancelled))).symm
    refine ⟨_, rfl, ?_, fun _ => uncancelled⟩
    rcases legal with ⟨pending, draft⟩ | ⟨cancelled, _⟩ | ⟨completed, reviews, _⟩
    · refine .inl ⟨?_, draft⟩
      revert follows pending uncompleted uncancelled
      cases saved.record.status <;> cases record.status <;> simp [Status.mayFollow, Status.pending, Status.reviewable]
    · rw [cancelled] at follows
      simp [Status.mayFollow, uncancelled] at follows
    · have reviewed := files.reviewed status (by rw [completed]; rfl)
      exact absurd (Option.some.inj ((review.mpr reviews).symm.trans reviewed)).symm different

theorem Job.publicStatus_cases (hooks : job.hooked = hooked) (plain : hooked = false → job.settles = false) :
    job.publicStatus = job.status ∧ (job.status = .completed → hooked = false ∨ job.terminalHookStatus.isSome) ∨
    job.publicStatus = .settling ∧ job.status = .completed ∧ hooked = true ∧ job.terminalHookStatus = none := by
  unfold Job.publicStatus
  split
  · rename_i masked
    refine .inr ⟨rfl, masked.1, ?_, masked.2.2⟩
    cases hooked with
    | true => rfl
    | false => exact absurd masked.2.1 (by simp [plain rfl])
  · rename_i shown
    refine .inl ⟨rfl, fun completed => ?_⟩
    cases hooked with
    | false => exact .inl rfl
    | true =>
      refine .inr (Option.isSome_iff_ne_none.mpr fun unsettled => shown ⟨completed, ?_, unsettled⟩)
      simp [Job.settles, hooks]

theorem Legal.publicStatus (legal : Legal hooked reviewing status job) (hooks : job.hooked = hooked)
    (plain : hooked = false → job.settles = false) :
    status.mayFollow job.publicStatus ∧ Legal hooked reviewing job.publicStatus job ∧
      (job.publicStatus = .completed → reviewing) ∧ (status.reviewable → reviewing) := by
  rcases legal with ⟨pending, draft⟩ | ⟨cancelled, copy⟩ | ⟨completed, reviews, copy, inert⟩
  · have unpublished : status.reviewable = false := by
      revert pending
      cases status <;> simp [Status.pending, Status.reviewable]
    rcases Job.publicStatus_cases hooks plain with ⟨same, settled⟩ | ⟨settling, _⟩
    · rw [same]
      by_cases published : job.status.reviewable
      · obtain ⟨reviews, completed⟩ := draft published
        exact ⟨Status.mayFollow_pending pending (.inr (.inr completed)),
          .inr (.inr ⟨completed, reviews, .inl completed, settled completed⟩), fun _ => reviews, by simp [unpublished]⟩
      · by_cases cancelled : job.status = .cancelled
        · exact ⟨Status.mayFollow_pending pending (.inr (.inl cancelled)), .inr (.inl ⟨cancelled, cancelled⟩),
            by simp [cancelled], by simp [unpublished]⟩
        · have open' : job.status.pending := by simp [Status.pending, published, cancelled]
          refine ⟨Status.mayFollow_pending pending (.inl open'), .inl ⟨open', fun reviewable => absurd reviewable published⟩,
            fun completed => ?_, by simp [unpublished]⟩
          simp [completed, Status.reviewable] at published
    · rw [settling]
      exact ⟨Status.mayFollow_pending pending (.inl rfl), .inl ⟨rfl, draft⟩, by rintro ⟨⟩, by simp [unpublished]⟩
  · rcases Job.publicStatus_cases hooks plain with ⟨same, _⟩ | ⟨_, completed, _⟩
    · rw [same, copy, cancelled]
      exact ⟨rfl, .inr (.inl ⟨rfl, copy⟩), by rintro ⟨⟩, by simp [Status.reviewable]⟩
    · rw [copy] at completed
      cases completed
  · rcases Job.publicStatus_cases hooks plain with ⟨same, _⟩ | ⟨_, _, hook, unsettled⟩
    · rw [same, completed]
      rcases copy with copy | copy
      · rw [copy]
        exact ⟨rfl, .inr (.inr ⟨rfl, reviews, .inl copy, inert⟩), fun _ => reviews, fun _ => reviews⟩
      · rw [copy]
        exact ⟨rfl, .inl ⟨rfl, by simp [copy, Status.reviewable]⟩, by rintro ⟨⟩, fun _ => reviews⟩
    · simp [hook, unsettled] at inert

theorem Legal.agrees (legal : Legal hooked reviewing status job)
    (holds : world.condition worker.manager = some worker) (review : world.review = some worker ↔ reviewing) :
    Agrees worker world status job := by
  rcases legal with ⟨pending, draft⟩ | ⟨cancelled, copy⟩ | ⟨completed, reviews, copy, _⟩
  · refine ⟨fun cancelled => ?_, fun published => ?_, fun published => .inr ⟨(draft published).2, holds, review.mpr (draft published).1⟩⟩
    · rw [cancelled] at pending
      cases pending
    · revert pending
      cases status <;> simp_all [Status.pending, Status.reviewable]
  · exact ⟨fun _ => copy, fun _ => by rw [copy]; rfl, fun published => by simp [copy, Status.reviewable] at published⟩
  · refine ⟨fun cancelled => ?_, fun _ => ?_, fun _ => .inl (by rw [completed]; rfl)⟩
    · rw [completed] at cancelled
      cases cancelled
    · rcases copy with copy | copy <;> rw [copy] <;> rfl

theorem held_ask : Guards worker hooked worker (Held worker hooked reviewing fresh job) ask fun _ => Held worker hooked reviewing fresh job :=
  guards_ask stable_held

theorem held_readJob : Guards worker hooked worker (Held worker hooked reviewing fresh job) readJob fun read world =>
    read.core = job.core ∧ Held worker hooked reviewing fresh read world :=
  (guards_readJob stable_held).mono id fun {read _} now => by
    obtain ⟨found, held⟩ := now
    obtain ⟨_, copy, found', core⟩ := held.keeps
    rw [found] at found'
    cases found'
    exact ⟨core, held.of_core core⟩

variable {change : Change}

theorem held_set (plain : job.Plain → (job.set change).Plain)
    (legal : ∀ {status}, (fresh → status ≠ .cancelled) → Legal hooked reviewing status job →
      Legal hooked reviewing status (job.set change)) :
    Guards worker hooked worker (Held worker hooked reviewing fresh job) (set change) fun _ =>
      Held worker hooked reviewing fresh (job.set change) :=
  guards_set stable_held fun {world copy} held found => by
    obtain ⟨holds, now, found', core⟩ := held.keeps
    rw [found] at found'
    cases found'
    have core' : (copy.set change).core = (job.set change).core := by
      cases change <;> simp_all [Job.core, Job.set]
    obtain ⟨saved, filed, may, clean⟩ := held.legal
    have assigns : Assigns worker worker hooked world copy change := by
      refine ⟨.inr holds, fun hookless was => ?_, fun _ status filed' _ => ?_, fun _ => rfl⟩
      · exact Job.plain_of_core core' (plain (Job.plain_of_core core.symm was))
      · have same : saved.record.status = status := Option.some.inj ((World.status_of_file filed).symm.trans filed')
        exact ((legal clean may).of_core core').agrees holds held.review |> fun agrees => same ▸ agrees
    refine ⟨assigns, ?_, held.review, ⟨holds, _, World.setJob_jobs .., core'⟩, saved, filed, legal clean may, clean⟩
    exact (Safe.set found assigns).invariant held.invariant

theorem held_set_free (free : change.free) : Guards worker hooked worker (Held worker hooked reviewing fresh job)
    (set change) fun _ => Held worker hooked reviewing fresh job :=
  (held_set (Job.plain_of_core (Job.core_set free job)) fun _ legal => legal.of_core (Job.core_set free job)).mono id
    fun held => held.of_core (Job.core_set free job).symm

theorem held_setIf_free {holds : Bool} (free : change.free) : Guards worker hooked worker
    (Held worker hooked reviewing fresh job) (setIf holds change) fun _ => Held worker hooked reviewing fresh job :=
  .ite (fun _ => held_set_free free) fun _ => .pure id

theorem held_persist : Guards worker hooked worker (Held worker hooked reviewing fresh job) persist fun returned world =>
    Held worker hooked reviewing false job world ∧ (returned → world.status = some job.publicStatus) ∧
      (returned = false → job.publicStatus = .cancelled → Held worker hooked reviewing fresh job world) := by
  refine Triple.bind held_readJob fun read => Triple.fact fun core => ?_
  have stale : ∀ {world}, Held worker hooked reviewing fresh read world → Held worker hooked reviewing false job world :=
    fun held => { held.of_core core.symm with
      legal := by obtain ⟨saved, filed, legal, _⟩ := (held.of_core core.symm).legal; exact ⟨saved, filed, legal, nofun⟩ }
  refine guards_save stable_held (fun {world} held _ _ => ?_)
    fun held => ⟨stale held, nofun, fun _ _ => held.of_core core.symm⟩
  obtain ⟨holds, copy, found, same⟩ := held.keeps
  obtain ⟨saved, filed, legal, _⟩ := held.legal
  have hooks : read.hooked = hooked := by
    rw [← held.invariant.hooks found, ← Job.core_hooked read, ← same, Job.core_hooked]
  have plain : hooked = false → read.Plain := fun hookless => Job.plain_of_core same.symm (held.invariant.plainJobs hookless found)
  have settled : hooked = false → read.settles = false := fun hookless => (plain hookless).1
  obtain ⟨follows, after, reviews, reviewed⟩ := legal.publicStatus hooks settled
  have saves : Saves worker worker hooked world read.record := by
    refine ⟨⟨fun filed' => ?_, fun completed => ⟨rfl, holds, held.review.mpr (reviews completed)⟩, fun filed' published => ?_,
      fun _ => holds, fun other => absurd rfl other⟩, fun hookless => ?_, fun found' => ?_⟩
    · cases (World.status_of_file filed).symm.trans filed'
      exact follows
    · cases (World.status_of_file filed).symm.trans filed'
      exact held.review.mpr (reviewed published)
    · have bare := (plain hookless).1
      simp only [Job.settles, Bool.or_eq_false_iff] at bare
      refine ⟨bare.1, ?_⟩
      rcases Job.publicStatus_cases hooks settled with ⟨shown, _⟩ | ⟨_, _, hook, _⟩
      · simp only [Job.record, shown]
        exact (plain hookless).2
      · rw [hookless] at hook
        cases hook
    · rw [found] at found'
      cases found'
      exact (after.agrees holds held.review).of_status (Job.status_eq_of_core same)
  have shown : read.publicStatus = job.publicStatus := Job.publicStatus_eq_of_core core
  have later : Held worker hooked reviewing false job (world.save worker read.record) :=
    ⟨held.invariant.save saves, held.review, ⟨holds, copy, found, same.trans core⟩, _, rfl, after.of_core core.symm, nofun⟩
  refine ⟨saves, ⟨later, fun _ => by simp [Job.record, shown], nofun⟩, fun undecided => ⟨later, nofun, fun _ cancelled => ?_⟩⟩
  simp [Job.record, shown, cancelled, Status.decided] at undecided

theorem held_fail (uncancelled : job.status ≠ .cancelled ∨ fresh) : Guards worker hooked worker
    (Held worker hooked reviewing fresh job) (set (.status .failed)) fun _ =>
      Held worker hooked reviewing fresh (job.set (.status .failed)) := by
  refine held_set (fun plain => ⟨plain.1, nofun⟩) fun {status} clean legal => ?_
  rcases legal with ⟨pending, _⟩ | ⟨cancelled, copy⟩ | ⟨completed, reviews, _, inert⟩
  · exact .inl ⟨pending, by simp [Job.set, Status.reviewable]⟩
  · rcases uncancelled with uncancelled | clean'
    · exact absurd copy uncancelled
    · exact absurd cancelled (clean clean')
  · exact .inr (.inr ⟨completed, reviews, .inr rfl, inert⟩)

/-- What happens to a copy between its claim and its settlement leaves the claim alone. -/
structure Fails (job now : Job) : Prop where
  status : now.status = job.status ∨ now.status = .failed
  called : now.terminalHookCalled = job.terminalHookCalled
  settled : job.terminalHookStatus.isSome → now.terminalHookStatus.isSome

theorem Fails.refl (job : Job) : Fails job job := ⟨.inl rfl, rfl, id⟩

theorem Fails.of_core (same : now.core = job.core) : Fails job now :=
  ⟨.inl (Job.status_eq_of_core same), by simpa [Job.core] using congrArg Job.terminalHookCalled same,
    (Job.terminalHookStatus_eq_of_core same) ▸ id⟩

theorem Fails.trans {later : Job} (first : Fails job now) (second : Fails now later) : Fails job later :=
  ⟨second.status.elim (fun same => same ▸ first.status) .inr, second.called.trans first.called, second.settled ∘ first.settled⟩

theorem fails_failed : Fails job (job.set (.status .failed)) := ⟨.inr rfl, rfl, id⟩

theorem held_failIf {holds : Bool} (uncancelled : holds → job.status ≠ .cancelled ∨ fresh) : Guards worker hooked worker
    (Held worker hooked reviewing fresh job) (setIf holds (.status .failed)) fun _ world =>
      ∃ now, (Fails job now ∧ (holds → now.status = .failed)) ∧ Held worker hooked reviewing fresh now world :=
  .ite (fun holds' => (held_fail (uncancelled holds')).mono id fun held => ⟨_, ⟨fails_failed, fun _ => rfl⟩, held⟩)
    fun free => .pure fun held => ⟨_, ⟨.refl _, fun holds' => absurd holds' free⟩, held⟩

theorem held_emitFailure : Guards worker hooked worker (Held worker hooked reviewing fresh job) emitFailure fun returned world =>
    ∃ now, (Fails job now ∧ (returned → now.status ≠ .completed) ∧
      (returned = false ∨ job.status ≠ .completed → now.status = job.status)) ∧ Held worker hooked reviewing fresh now world := by
  refine Triple.bind held_ask fun ownerGone => Triple.bind held_readJob fun read => Triple.fact fun core => ?_
  have kin := Fails.of_core core
  have status := Job.status_eq_of_core core
  refine Triple.ite (fun _ => ?_) fun _ => .pure fun held => ⟨read, ⟨kin, nofun, fun _ => status⟩, held⟩
  refine Triple.bind (held_set_free rfl) fun _ => ?_
  by_cases completed : read.status = .completed
  · rw [show (read.status == Status.completed) = true by simp [completed]]
    refine Triple.bind (held_fail (.inl (by simp [completed]))) fun _ => Triple.bind (held_set_free rfl) fun _ => .pure fun held => ?_
    refine ⟨read.set (.status .failed), ⟨kin.trans fails_failed, fun _ => nofun, fun different => ?_⟩, held⟩
    rcases different with different | different
    · cases different
    · exact absurd (status ▸ completed) different
  · rw [show (read.status == Status.completed) = false by simp [completed]]
    exact Triple.bind (.pure id) fun _ => Triple.bind (held_set_free rfl) fun _ => .pure fun held =>
      ⟨_, ⟨kin, fun _ => completed, fun _ => status⟩, held⟩

/-- What `emit` leaves of the copy and of the file. -/
def Emitted (worker : Thread) (hooked reviewing fresh : Bool) (job : Job) (returned : Bool) (world : World) : Prop :=
  ∃ now, (Fails job now ∧ (returned = false ∨ job.status ≠ .completed → now.status = job.status)) ∧
    Held worker hooked reviewing false now world ∧
    (returned → now.status = .completed → world.status = some job.publicStatus) ∧
    (returned = false → job.publicStatus = .cancelled → Held worker hooked reviewing fresh now world)

theorem Held.stale (held : Held worker hooked reviewing fresh job world) :
    Held worker hooked reviewing false job world :=
  { held with legal := by obtain ⟨saved, filed, legal, _⟩ := held.legal; exact ⟨saved, filed, legal, nofun⟩ }

theorem held_emit : Guards worker hooked worker (Held worker hooked reviewing fresh job) emit
    (Emitted worker hooked reviewing fresh job) := by
  refine Triple.bind held_persist fun returned => ?_
  cases returned with
  | true => exact .pure fun {world} now => ⟨job, ⟨.refl _, fun _ => rfl⟩, now.1, fun _ _ => now.2.1 rfl, nofun⟩
  | false =>
    by_cases cancelled : job.publicStatus = .cancelled
    · exact held_emitFailure.mono (fun now => now.2.2 rfl cancelled) fun ⟨now, ⟨fails, completed, kept⟩, held⟩ =>
        ⟨now, ⟨fails, kept⟩, held.stale, fun returned is => absurd is (completed returned), fun _ _ => held⟩
    · exact held_emitFailure.mono (fun now => now.1) fun ⟨now, ⟨fails, completed, kept⟩, held⟩ =>
        ⟨now, ⟨fails, kept⟩, held, fun returned is => absurd is (completed returned), fun _ is => absurd is cancelled⟩

theorem Held.pending (held : Held worker hooked reviewing fresh job world) (open' : job.status.terminal = false) :
    Held worker hooked reviewing true job world where
  invariant := held.invariant
  review := held.review
  keeps := held.keeps
  legal := by
    obtain ⟨saved, filed, legal, _⟩ := held.legal
    refine ⟨saved, filed, legal, fun _ cancelled => ?_⟩
    rcases legal with ⟨pending, _⟩ | ⟨_, copy⟩ | ⟨completed, _⟩
    · rw [cancelled] at pending
      cases pending
    · rw [copy] at open'
      cases open'
    · rw [completed] at cancelled
      cases cancelled

theorem held_cancel : Guards worker hooked worker (Held worker hooked reviewing fresh job) cancelHeld fun returned world =>
    ∃ now, (now.terminalHookCalled = job.terminalHookCalled ∧ (job.terminalHookStatus.isSome → now.terminalHookStatus.isSome) ∧
      (job.status.terminal = false → now.status = .cancelled)) ∧ Held worker hooked reviewing false now world ∧
      (job.status.terminal = false → returned = false → Held worker hooked reviewing true now world) := by
  refine Triple.bind held_readJob fun read => Triple.fact fun core => ?_
  have kin := Fails.of_core core
  have status := Job.status_eq_of_core core
  by_cases terminal : read.status.terminal
  · simp only [terminal, if_true]
    have never : job.status.terminal ≠ false := by simp [← status, terminal]
    exact .pure fun held => ⟨read, ⟨kin.called, kin.settled, fun open' => absurd open' never⟩, held.stale,
      fun open' => absurd open' never⟩
  simp only [terminal]
  have open' : read.status.terminal = false := by simpa using terminal
  have cancelled : Guards worker hooked worker (Held worker hooked reviewing true read) (set (.status .cancelled)) fun _ =>
      Held worker hooked reviewing true (read.set (.status .cancelled)) := by
    refine held_set (fun plain => ⟨plain.1, by rintro ⟨⟩⟩) fun {status} clean legal => ?_
    rcases legal with ⟨pending, _⟩ | ⟨cancelled, _⟩ | ⟨_, _, copy, _⟩
    · exact .inl ⟨pending, by simp [Job.set, Status.reviewable]⟩
    · exact absurd cancelled (clean rfl)
    · rcases copy with copy | copy <;> simp [copy, Status.terminal] at open'
  refine Triple.bind (cancelled.mono (fun held => held.pending open') id) fun _ =>
    Triple.bind (held_setIf_free rfl) fun _ => Triple.bind (held_setIf_free rfl) fun _ => ?_
  refine held_emit.mono id ?_
  rintro _ _ ⟨now, ⟨fails, same⟩, held, _, clean⟩
  refine ⟨now, ⟨fails.called.trans kin.called, fails.settled ∘ kin.settled, fun _ => same (.inr (by rintro ⟨⟩))⟩, held,
    fun _ failed => clean failed ?_⟩
  simp [Job.publicStatus, Job.set]

theorem held_hookStatus {value : HookStatus} : Guards worker hooked worker (Held worker hooked reviewing fresh job)
    (set (.terminalHookStatus value)) fun _ => Held worker hooked reviewing fresh (job.set (.terminalHookStatus value)) := by
  refine held_set id fun _ legal => ?_
  rcases legal with pending | cancelled | ⟨completed, reviews, copy, _⟩
  · exact .inl pending
  · exact .inr (.inl cancelled)
  · exact .inr (.inr ⟨completed, reviews, copy, .inr rfl⟩)

/-- What a settlement leaves of the copy: its status or a failure, and the hook's result. -/
def Settled (worker : Thread) (hooked reviewing fresh : Bool) (job : Job) (world : World) : Prop :=
  ∃ now, (Fails job now ∧ now.terminalHookStatus.isSome) ∧ Held worker hooked reviewing fresh now world

theorem fails_hookStatus (value : HookStatus) : Fails job (job.set (.terminalHookStatus value)) := ⟨.inl rfl, rfl, fun _ => rfl⟩

theorem held_hookFailed : Guards worker hooked worker (Held worker hooked reviewing fresh job) hookFailed fun _ =>
    Settled worker hooked reviewing fresh job := by
  refine Triple.bind held_readJob fun first => Triple.fact fun core => Triple.bind (held_setIf_free rfl) fun _ =>
    Triple.bind held_hookStatus fun _ => Triple.bind held_readJob fun read => Triple.fact fun core' => ?_
  have kin : Fails job read := ((Fails.of_core core).trans (fails_hookStatus _)).trans (Fails.of_core core')
  have hook : read.terminalHookStatus.isSome := by
    rw [Job.terminalHookStatus_eq_of_core core']
    rfl
  refine Triple.bind (held_failIf fun holds => .inl fun cancelled => ?_) fun _ => Triple.some fun now ⟨fails, _⟩ =>
    (held_set_free rfl).mono id fun held => ⟨now, ⟨kin.trans fails, fails.settled hook⟩, held⟩
  simp [cancelled, Status.terminal] at holds

theorem Held.hook (held : Held worker hooked reviewing fresh job world) (calls : Nat) (settled : Bool) :
    Held worker hooked reviewing fresh job { world with hookCalls := calls, settled := settled } := by
  have safe : Safe worker hooked worker world { world with hookCalls := calls, settled := settled } := .hook calls settled
  exact ⟨safe.invariant held.invariant, held.review, held.keeps, held.legal⟩

theorem held_callTerminalHook : Guards worker hooked worker (Held worker hooked reviewing fresh job) callTerminalHook fun _ =>
    Settled worker hooked reviewing fresh job := by
  refine Triple.bind (guards_callHook stable_held fun calls settled held => held.hook calls settled) fun returned => ?_
  exact .ite (fun _ => held_hookStatus.mono id fun held => ⟨_, ⟨fails_hookStatus _, rfl⟩, held⟩) fun _ => held_hookFailed

variable {guarded : Bool}

theorem held_guardPublication (hook : job.terminalHookStatus.isSome) : Guards worker hooked worker
    (Held worker hooked reviewing fresh job) (guardPublication guarded) fun _ => Settled worker hooked reviewing fresh job := by
  refine Triple.bind held_readJob fun read => Triple.fact fun core => ?_
  have kin := Fails.of_core core
  have hook := kin.settled hook
  refine Triple.ite (fun _ => Triple.bind held_ask fun current => Triple.ite ?_ ?_) ?_
  · exact fun _ => .pure fun held => ⟨read, ⟨kin, hook⟩, held⟩
  · refine fun _ => Triple.bind (held_set_free rfl) fun _ => Triple.bind (held_failIf fun settling => .inl fun cancelled => ?_)
      fun _ => Triple.some fun now ⟨fails, _⟩ => (held_setIf_free rfl).mono id fun held => ⟨now, ⟨kin.trans fails, fails.settled hook⟩, held⟩
    simp [cancelled] at settling
  · exact fun _ => .pure fun held => ⟨read, ⟨kin, hook⟩, held⟩

theorem held_settlementUncertain : Guards worker hooked worker (Held worker hooked reviewing fresh job) settlementUncertain
    fun _ => Settled worker hooked reviewing fresh job := by
  refine Triple.bind held_readJob fun read => Triple.fact fun core => Triple.bind (held_setIf_free rfl) fun _ =>
    Triple.bind held_hookStatus fun _ => ?_
  have kin := (Fails.of_core core).trans (fails_hookStatus .persistenceUncertain)
  refine Triple.bind (held_failIf fun holds => .inl fun cancelled => ?_) fun _ => Triple.some fun now ⟨fails, _⟩ =>
    (held_setIf_free rfl).mono id fun held => ⟨now, ⟨kin.trans fails, fails.settled rfl⟩, held⟩
  change read.status = _ at cancelled
  simp [cancelled] at holds

theorem held_claimHook : Guards worker hooked worker (Held worker hooked reviewing fresh job) (set .terminalHookCalled) fun _ =>
    Held worker hooked reviewing fresh (job.set .terminalHookCalled) :=
  held_set id fun _ legal => legal

/-- A settlement that was claimed is done. -/
def Job.Claimed (job : Job) : Prop := job.terminalHookCalled → job.terminalHookStatus.isSome

/-- What finishing leaves: the settlement is done, or the job has none. -/
structure Finishes (hooked : Bool) (job now : Job) : Prop where
  status : now.status = job.status ∨ now.status = .failed
  claimed : now.Claimed
  settled : hooked = false ∨ now.terminalHookStatus.isSome

theorem held_settle : Guards worker hooked worker (Held worker hooked reviewing fresh job) (settle guarded)
    fun _ world => ∃ now, Finishes hooked job now ∧ Held worker hooked reviewing false now world := by
  refine Triple.bind held_claimHook fun _ => Triple.bind held_readJob fun read => Triple.fact fun core =>
    Triple.bind (held_setIf_free rfl) fun _ => Triple.bind held_callTerminalHook fun _ => Triple.some fun called ⟨first, hook⟩ =>
    Triple.bind (held_guardPublication hook) fun _ => Triple.some fun guarded ⟨second, hook⟩ =>
    Triple.bind held_persist fun saved => ?_
  have status : guarded.status = job.status ∨ guarded.status = .failed := by
    have before : read.status = (job.set .terminalHookCalled).status := Job.status_eq_of_core core
    exact (first.trans second).status.imp_left fun same => same.trans before
  refine Triple.ite (fun _ => .pure fun held => ⟨guarded, ⟨status, fun _ => hook, .inr hook⟩, held.1⟩) fun _ =>
    held_settlementUncertain.mono (fun held => held.1) fun ⟨now, ⟨third, settled⟩, held⟩ => ⟨now, ⟨?_, fun _ => settled, .inr settled⟩, held⟩
  exact third.status.elim (fun same => same ▸ status) .inr

theorem Held.hooks (held : Held worker hooked reviewing fresh job world) :
    job.hooked = hooked ∧ (hooked = false → job.settles = false) := by
  obtain ⟨_, now, found, core⟩ := held.keeps
  refine ⟨?_, fun hookless => ?_⟩
  · rw [← held.invariant.hooks found, ← Job.core_hooked job, ← core, Job.core_hooked]
  · rw [← Job.settles_eq_of_core core]
    exact (held.invariant.plainJobs hookless found).1

theorem held_finish (claimed : job.Claimed) : Guards worker hooked worker
    (Held worker hooked reviewing fresh job) (finishHeld guarded) fun _ world =>
      ∃ now, Finishes hooked job now ∧ Held worker hooked reviewing false now world := by
  refine Triple.bind held_readJob fun read => Triple.fact fun core => Triple.assume Held.hooks fun ⟨hooks, plain⟩ => ?_
  have kin := Fails.of_core core
  have claimed : read.Claimed := fun called => kin.settled (claimed (kin.called ▸ called))
  refine Triple.ite (fun done => .pure fun held => ⟨read, ⟨kin.status, claimed, .inr ?_⟩, held.stale⟩) fun _ =>
    Triple.ite (fun _ => ?_) fun hookless => ?_
  · rcases Bool.or_eq_true .. ▸ done with called | settled
    · exact claimed called
    · exact settled
  · exact held_settle.mono id fun ⟨now, done, held⟩ => ⟨now, ⟨done.status.elim (fun same => same ▸ kin.status) .inr,
      done.claimed, done.settled⟩, held⟩
  · have hookless : hooked = false := by rw [← hooks]; simpa using hookless
    have free : read.dispatchHooksRequired = false := by
      have settles := plain hookless
      simp only [Job.settles, Bool.or_eq_false_iff] at settles
      exact settles.1
    rw [free]
    exact .pure fun held => ⟨read, ⟨kin.status, claimed, .inl hookless⟩, held.stale⟩

end NovelStudio.Jobs
