import NovelStudio.Jobs.Publication

/-! The calls on a job keep their guarantee: a review works on the persisted decision
under both locks, a cancellation finds the job undecided, and a restart recovers it under
the review lock. -/

namespace NovelStudio.Jobs
open Library

variable {worker thread : Thread} {hooked : Bool} {job : Job} {seen next : Status} {Value : Type}

/-- A call holds the review lock and the condition of its copy. -/
structure Reviewing (worker thread : Thread) (hooked : Bool) (job : Job) (world : World) : Prop where
  invariant : Invariant worker hooked world
  review : world.review = some thread
  keeps : Keeps thread job world

theorem stable_reviews : Kept worker hooked thread (Reviewing worker thread hooked job) := fun _ _ step now =>
  ⟨stable_invariant _ _ step now.invariant, stable_review _ _ step now.review, stable_keeps _ _ step now.keeps⟩

/-- The persisted status is the one that was seen, or neither is of a published draft. In
the manager that runs the job neither is of a cancelled one either. -/
def Copied (worker thread : Thread) (seen : Status) (file : Option Saved) : Prop :=
  ∃ saved, file = some saved ∧ (saved.record.status = seen ∨
    seen.reviewable = false ∧ saved.record.status.reviewable = false ∧
      (thread.manager = worker.manager → seen.pending ∧ saved.record.status.pending))

theorem Copied.status {world : World} (copied : Copied worker thread seen world.file) (published : seen.reviewable) :
    world.status = some seen := by
  obtain ⟨saved, filed, same | ⟨hidden, _⟩⟩ := copied
  · rw [World.status_of_file filed, same]
  · simp [published] at hidden

/-- A call holds both locks, and knows the persisted status. -/
def At (worker thread : Thread) (hooked : Bool) (seen : Status) (job : Job) (world : World) : Prop :=
  Reviewing worker thread hooked job world ∧ Copied worker thread seen world.file

theorem stable_at (other : thread ≠ worker) : Kept worker hooked thread (At worker thread hooked seen job) := by
  refine stable_file (Copied worker thread seen) stable_reviews ?_
  rintro state acting record different now ⟨saved, filed, copied⟩ files
  have status := World.status_of_file filed
  have follows := files.follows status
  have uncompleted : record.status ≠ .completed := fun completed =>
    other (Option.some.inj (now.review.symm.trans (files.completed completed).2.2))
  have hidden : saved.record.status.reviewable = false := by
    by_contra published
    exact different (Option.some.inj ((files.reviewed status (by simpa using published)).symm.trans now.review))
  have uncancelled : thread.manager = worker.manager → record.status ≠ .cancelled := fun own cancelled =>
    different (Option.some.inj ((files.cancelled cancelled).symm.trans (own ▸ now.keeps.1)))
  have hidden' : record.status.reviewable = false := by
    revert follows uncompleted hidden
    cases saved.record.status <;> cases record.status <;> simp [Status.mayFollow, Status.pending, Status.reviewable]
  have pending : thread.manager = worker.manager → saved.record.status.pending ∧ record.status.pending := fun own => by
    have uncancelled := uncancelled own
    revert follows uncompleted hidden uncancelled
    cases saved.record.status <;> cases record.status <;> simp [Status.mayFollow, Status.pending, Status.reviewable]
  refine ⟨_, rfl, .inr ⟨?_, hidden', fun own => ⟨?_, (pending own).2⟩⟩⟩
  · rcases copied with same | ⟨unseen, _⟩
    · exact same ▸ hidden
    · exact unseen
  · rcases copied with same | ⟨_, _, both⟩
    · exact same ▸ (pending own).1
    · exact (both own).1

theorem Reviewing.of_core {now : Job} {world : World} (reviewing : Reviewing worker thread hooked job world)
    (same : now.core = job.core) : Reviewing worker thread hooked now world where
  invariant := reviewing.invariant
  review := reviewing.review
  keeps := ⟨reviewing.keeps.1, by obtain ⟨copy, found, core⟩ := reviewing.keeps.2; exact ⟨copy, found, core.trans same.symm⟩⟩

theorem at_ask (other : thread ≠ worker) : Guards worker hooked thread (At worker thread hooked seen job) ask fun _ =>
    At worker thread hooked seen job :=
  guards_ask (stable_at other)

theorem at_readJob (other : thread ≠ worker) : Guards worker hooked thread (At worker thread hooked seen job) readJob
    fun read world => read.core = job.core ∧ At worker thread hooked seen read world :=
  (guards_readJob (stable_at other)).mono id fun {read _} ⟨found, now, copied⟩ => by
    obtain ⟨_, copy, found', core⟩ := now.keeps
    rw [found] at found'
    cases found'
    exact ⟨core, now.of_core core, copied⟩

/-- What a call may assign under both locks: the status it saw, or once the draft is
published a terminal one. -/
def Change.reviews (seen : Status) : Change → Prop
  | .status value => value = seen ∨ seen.reviewable ∧ value.terminal
  | .terminalHookCalled => False
  | _ => True

theorem Agrees.reviewed {world : World} {status : Status} {change : Change} (agrees : Agrees worker world status job)
    (same : status = seen ∨ seen.reviewable = false ∧ status.pending) (reviews : change.reviews seen) :
    Agrees worker world status (job.set change) := by
  cases change with
  | status value =>
    rcases reviews with rfl | ⟨published, terminal⟩
    · rcases same with rfl | ⟨hidden, pending⟩
      · exact ⟨id, Status.terminal_of_reviewable, .inl⟩
      · refine ⟨fun cancelled => ?_, fun published => ?_, fun published => ?_⟩
        · rw [cancelled] at pending
          cases pending
        · simp [Status.pending, published] at pending
        · simp [Job.set, hidden] at published
    · rcases same with rfl | ⟨hidden, _⟩
      · refine ⟨fun cancelled => ?_, fun _ => terminal, fun _ => .inl published⟩
        rw [cancelled] at published
        cases published
      · simp [published] at hidden
  | terminalHookCalled => exact reviews.elim
  | output | errorCode | executionOutcome | dispatchHooksRequired | terminalHookStatus | cancelled | generationBoundFailure =>
    exact agrees.of_status rfl

theorem at_set (other : thread ≠ worker) (change : Change) (reviews : change.reviews seen)
    (plain : hooked = false → job.Plain → (job.set change).Plain) : Guards worker hooked thread (At worker thread hooked seen job)
      (set change) fun _ => At worker thread hooked seen (job.set change) :=
  guards_set (stable_at other) fun {world copy} now found => by
    obtain ⟨now, copied⟩ := now
    obtain ⟨holds, present, found', core⟩ := now.keeps
    rw [found] at found'
    cases found'
    have core' : (copy.set change).core = (job.set change).core := by
      cases change <;> simp_all [Job.core, Job.set]
    have assigns : Assigns worker thread hooked world copy change := by
      refine ⟨.inr holds, fun hookless was => Job.plain_of_core core' (plain hookless (Job.plain_of_core core.symm was)),
        fun own status filed agrees => ?_, fun called => ?_⟩
      · obtain ⟨saved, file, same⟩ := copied
        cases (World.status_of_file file).symm.trans filed
        exact agrees.reviewed (same.imp id (And.imp_right fun both => (both.2 own).2)) reviews
      · subst called
        exact reviews.elim
    exact ⟨assigns, ⟨(Safe.set found assigns).invariant now.invariant, now.review, holds, _, World.setJob_jobs .., core'⟩, copied⟩

theorem at_set_free (other : thread ≠ worker) {change : Change} (free : change.free) : Guards worker hooked thread
    (At worker thread hooked seen job) (set change) fun _ => At worker thread hooked seen job := by
  refine (at_set other change ?_ fun _ => Job.plain_of_core (Job.core_set free job)).mono id fun ⟨now, copied⟩ =>
    ⟨now.of_core (Job.core_set free job).symm, copied⟩
  cases change <;> trivial

/-- The persisted record is one that this call saved. -/
def Mine (thread : Thread) (status : Status) (file : Option Saved) : Prop :=
  ∃ record, file = some ⟨thread, record⟩ ∧ record.status = status

theorem Mine.copied (mine : Mine thread seen file) : Copied worker thread seen file := by
  obtain ⟨record, filed, same⟩ := mine
  exact ⟨_, filed, .inl same⟩

/-- What a review saves over a published draft. -/
structure Decides (seen next : Status) : Prop where
  published : seen.reviewable
  reviewed : next.reviewable
  follows : seen.mayFollow next
  uncompleted : next ≠ .completed

theorem Decides.uncancelled (decides : Decides seen next) : next ≠ .cancelled := by
  intro cancelled
  have published := decides.reviewed
  rw [cancelled] at published
  cases published

theorem at_persist (other : thread ≠ worker) (next : Status) (decides : Decides seen next) (copy : job.status = next) : Guards worker hooked thread
    (At worker thread hooked seen job) persist fun returned world =>
      (returned = true → Reviewing worker thread hooked job world ∧ Mine thread next world.file ∧
        (seen.claimed = false → world.written = 0)) ∧
      (returned = false → At worker thread hooked seen job world ∨ next.decided = false ∧ At worker thread hooked next job world) := by
  refine Triple.bind (at_readJob other) fun read => Triple.fact fun core => ?_
  have back {world : World} : At worker thread hooked seen read world → At worker thread hooked seen job world := fun now =>
    ⟨now.1.of_core core.symm, now.2⟩
  have shown : read.record.status = next := by
    rw [show read.record.status = read.publicStatus from rfl, Job.publicStatus_eq_of_core core,
      Job.publicStatus_of_uncompleted (copy ▸ decides.uncompleted), copy]
  refine guards_save (stable_at other) (fun {world} now _ _ => ?_)
    fun now => ⟨by rintro ⟨⟩, fun _ => .inl (back now)⟩
  obtain ⟨now, copied⟩ := now
  have filed := copied.status decides.published
  have saves : Saves worker thread hooked world read.record := by
    refine ⟨⟨fun filed' => ?_, fun completed => ?_, fun filed' _ => ?_, fun cancelled => ?_, fun _ => .inl now.review⟩,
      fun hookless => ?_, fun {own} found => ?_⟩
    · cases filed.symm.trans filed'
      exact shown ▸ decides.follows
    · exact absurd (shown.symm.trans completed) decides.uncompleted
    · exact now.review
    · exact absurd (shown.symm.trans cancelled) decides.uncancelled
    · obtain ⟨_, present, found, same⟩ := now.keeps
      have plain := (Job.plain_of_core same.symm (now.invariant.plainJobs hookless found)).1
      simp only [Job.settles, Bool.or_eq_false_iff] at plain
      refine ⟨plain.1, fun settling => ?_⟩
      have published := decides.reviewed
      rw [← shown, settling] at published
      cases published
    · have agrees := now.invariant.agrees filed found
      rw [shown]
      exact ⟨fun cancelled => absurd cancelled decides.uncancelled, fun _ => agrees.terminal decides.published, fun _ => .inl decides.reviewed⟩
  have after : Reviewing worker thread hooked job (world.save thread read.record) :=
    ⟨now.invariant.save saves, now.review, (back ⟨now, copied⟩).1.keeps⟩
  have mine : Mine thread next (world.save thread read.record).file := ⟨_, rfl, shown⟩
  refine ⟨saves, ⟨fun _ => ⟨after, mine, fun unclaimed => ?_⟩, by rintro ⟨⟩⟩, fun undecided => ⟨by rintro ⟨⟩, fun _ => .inr ⟨shown ▸ undecided, after, mine.copied⟩⟩⟩
  change world.written = 0
  by_contra written
  have claimed := now.invariant.claimed filed (Nat.pos_of_ne_zero written)
  simp [unclaimed] at claimed

def Reviews (worker thread : Thread) (hooked : Bool) (world : World) : Prop :=
  ∃ job, Reviewing worker thread hooked job world

theorem stable_over : Kept worker hooked thread (Reviews worker thread hooked) := fun _ _ step ⟨job, now⟩ =>
  ⟨job, stable_reviews _ _ step now⟩

theorem at_emitFailure (other : thread ≠ worker) (uncompleted : job.status ≠ .completed) : Guards worker hooked thread
    (At worker thread hooked seen job) emitFailure fun _ world => ∃ now, At worker thread hooked seen now world := by
  refine Triple.bind (at_ask other) fun _ => Triple.bind (at_readJob other) fun read => Triple.fact fun core => ?_
  have uncompleted : read.status ≠ .completed := Job.status_eq_of_core core ▸ uncompleted
  refine Triple.ite (fun _ => ?_) fun _ => .pure fun now => ⟨read, now⟩
  rw [show (read.status == Status.completed) = false by simp [uncompleted]]
  exact Triple.bind (at_set_free other rfl) fun _ => Triple.bind (.pure id) fun _ =>
    Triple.bind (at_set_free other rfl) fun _ => .pure fun now => ⟨read, now⟩

theorem at_emit (other : thread ≠ worker) (next : Status) (decides : Decides seen next) (copy : job.status = next) (decided : next.decided) :
    Guards worker hooked thread (At worker thread hooked seen job) emit fun returned world =>
      Reviews worker thread hooked world ∧ (returned = false → ∃ now, At worker thread hooked seen now world) := by
  refine Triple.bind (at_persist other next decides copy) fun returned => ?_
  cases returned with
  | true => exact .pure fun now => ⟨⟨job, (now.1 rfl).1⟩, nofun⟩
  | false =>
    refine (at_emitFailure other (copy ▸ decides.uncompleted)).mono (fun now => ?_) fun ⟨now, at'⟩ => ⟨⟨now, at'.1⟩, fun _ => ⟨now, at'⟩⟩
    exact (now.2 rfl).resolve_right fun ⟨undecided, _⟩ => by simp [undecided] at decided

theorem at_emitUncertain (other : thread ≠ worker) (next : Status) (decides : Decides seen next) (copy : job.status = next) :
    Guards worker hooked thread (At worker thread hooked seen job) emit fun _ => Reviews worker thread hooked := by
  have uncompleted : job.status ≠ .completed := copy ▸ decides.uncompleted
  refine Triple.bind (at_persist other next decides copy) fun returned => ?_
  cases returned with
  | true => exact .pure fun now => ⟨job, (now.1 rfl).1⟩
  | false =>
    have fails (found : Status) : Guards worker hooked thread (At worker thread hooked found job) emitFailure fun _ =>
        Reviews worker thread hooked :=
      (at_emitFailure other uncompleted).mono id fun ⟨now, at'⟩ => ⟨now, at'.1⟩
    exact (Triple.or (fails seen) (fails next)).mono (fun now => (now.2 rfl).imp_right And.right) id

/-- The call recorded its claim and has not written the chapter. -/
def Claiming (worker thread : Thread) (hooked : Bool) (job : Job) (world : World) : Prop :=
  (Reviewing worker thread hooked job world ∧ world.written = 0) ∧ Mine thread .accepting world.file

theorem stable_claiming : Kept worker hooked thread (Claiming worker thread hooked job) := by
  refine stable_file (Mine thread .accepting) ?_ ?_
  · rintro state next step ⟨now, unwritten⟩
    refine ⟨stable_reviews _ _ step now, ?_⟩
    rcases step with ⟨acting, different, safe⟩ | stop
    · rcases safe.written with same | ⟨_, reviews, _⟩
      · exact same.trans unwritten
      · exact absurd (Option.some.inj (now.review.symm.trans reviews)).symm different
    · obtain ⟨_, _, rfl⟩ := stop
      exact unwritten
  · rintro state acting record different ⟨now, _⟩ ⟨claim, filed, accepting⟩ files
    have reviewed := files.reviewed (World.status_of_file filed) (by rw [accepting]; rfl)
    exact absurd (Option.some.inj (now.review.symm.trans reviewed)).symm different

theorem Claiming.at' {world : World} (claiming : Claiming worker thread hooked job world) :
    At worker thread hooked .accepting job world :=
  ⟨claiming.1.1, claiming.2.copied⟩

theorem claiming_write : Guards worker hooked thread (Claiming worker thread hooked job) writeChapter fun _ =>
    At worker thread hooked .accepting job :=
  Triple.one stable_claiming fun {before _ _} claiming executed => by
    obtain ⟨fate, _, done⟩ := executed
    have after := claiming.at'
    obtain ⟨⟨now, unwritten⟩, record, filed, accepting⟩ := claiming
    have safe : Safe worker hooked thread before before.write := .write now.review filed accepting unwritten
    have later : At worker thread hooked .accepting job before.write := ⟨⟨safe.invariant now.invariant, now.review, now.keeps⟩, after.2⟩
    cases fate with
    | returns =>
      cases done
      exact ⟨safe, later⟩
    | raises =>
      cases done
      exact ⟨.refl _, after⟩
    | raisesAfter =>
      cases done
      exact ⟨safe, later⟩

/-- What the handler of a claimed acceptance finds. -/
def Claimed (worker thread : Thread) (hooked returned : Bool) (world : World) : Prop :=
  Reviews worker thread hooked world ∧ (returned = false → ∃ job, At worker thread hooked .accepting job world)

theorem claimed_at {returned : Bool} {world : World} (now : At worker thread hooked .accepting job world) :
    Claimed worker thread hooked returned world :=
  ⟨⟨job, now.1⟩, fun _ => ⟨job, now⟩⟩

theorem claiming_accept (other : thread ≠ worker) : Guards worker hooked thread (Claiming worker thread hooked job) acceptClaimed
    (Claimed worker thread hooked) := by
  refine Triple.bind (guards_ask stable_claiming) fun _ => Triple.ite (fun _ => ?_) fun _ => .pure fun now => claimed_at now.at'
  refine Triple.bind claiming_write fun _ => Triple.ite (fun _ => ?_) fun _ => .pure claimed_at
  refine Triple.bind (at_ask other) fun _ => Triple.ite (fun _ => ?_) fun _ => .pure claimed_at
  refine Triple.bind (at_set other (.status .accepted) (.inr ⟨rfl, rfl⟩) fun _ plain => ⟨plain.1, nofun⟩) fun _ => ?_
  refine Triple.bind (at_emit other .accepted ⟨rfl, rfl, rfl, nofun⟩ rfl rfl) fun returned => ?_
  cases returned with
  | false => exact .pure id
  | true =>
    refine (Triple.bind (guards_ask stable_over) fun continues => ?_ : Guards worker hooked thread (Reviews worker thread hooked) _ _).mono
      And.left id
    exact Triple.ite (fun _ => .pure fun now => ⟨now, nofun⟩) fun _ => (guards_readChapter stable_over).mono id
      fun {returned _} ⟨returns, now⟩ => ⟨now, fun raised => by rw [returns] at raised; cases raised⟩

theorem at_uncertain (other : thread ≠ worker) : Guards worker hooked thread (At worker thread hooked .accepting job)
    acceptanceUncertain fun _ => Reviews worker thread hooked := by
  refine Triple.bind (at_set other (.status .acceptanceUncertain) (.inr ⟨rfl, rfl⟩) fun _ plain => ⟨plain.1, nofun⟩) fun _ =>
    Triple.bind (at_set_free other rfl) fun _ => Triple.bind (at_emitUncertain other .acceptanceUncertain ⟨rfl, rfl, rfl, nofun⟩ rfl) fun _ => .pure id

theorem at_claim (other : thread ≠ worker) : Guards worker hooked thread (At worker thread hooked .completed job) acceptClaim
    fun _ => Reviews worker thread hooked := by
  refine Triple.bind (at_set other (.status .accepting) (.inr ⟨rfl, rfl⟩) fun _ plain => ⟨plain.1, nofun⟩) fun _ => ?_
  refine Triple.bind (at_persist other .accepting ⟨rfl, rfl, rfl, nofun⟩ rfl) fun returned => ?_
  cases returned with
  | false => exact .pure fun now => (now.2 rfl).elim (fun at' => ⟨_, at'.1⟩) fun at' => ⟨_, at'.2.1⟩
  | true =>
    have accepts : Guards worker hooked thread (Claiming worker thread hooked (job.set (.status .accepting))) acceptClaimed
        (Claimed worker thread hooked) := claiming_accept other
    refine Triple.bind (accepts.mono (fun now => ?_) id) fun returned => ?_
    · obtain ⟨reviewing, mine, unwritten⟩ := now.1 rfl
      exact ⟨⟨reviewing, unwritten rfl⟩, mine⟩
    · cases returned with
      | true => exact .pure And.left
      | false =>
        rintro world ⟨_, raised⟩
        obtain ⟨now, at'⟩ := raised rfl
        exact at_uncertain other world at'

/-- A field of the stored record that a review copies. -/
def Change.copies (seen : Status) : Change → Prop
  | .status value => value = seen
  | .terminalHookCalled => False
  | _ => True

theorem Change.copies.reviews {change : Change} (copies : change.copies seen) : change.reviews seen := by
  cases change <;> first | trivial | exact .inl copies

theorem Change.copies.status {change : Change} (copies : change.copies seen) (same : job.status = seen) :
    (job.set change).status = seen := by
  cases change <;> first | exact same | exact copies

theorem Record.copies_of_mem_items {record : Record} {change : Change} (present : change ∈ record.items) :
    change.copies record.status := by
  cases hook : record.terminalHookStatus <;>
    simp only [Record.items, hook, List.mem_append, List.mem_cons, List.not_mem_nil, or_false] at present <;>
    grind [Change.copies]

theorem Record.plain_of_mem_items {record : Record} {change : Change} (plain : record.Plain) (present : change ∈ record.items)
    (was : job.Plain) : (job.set change).Plain := by
  cases change with
  | status value =>
    have same : value = record.status := Record.copies_of_mem_items present
    exact ⟨was.1, same ▸ plain.2⟩
  | dispatchHooksRequired =>
    cases hook : record.terminalHookStatus <;> simp [Record.items, hook, plain.1] at present
  | terminalHookCalled | output | errorCode | executionOutcome | terminalHookStatus | cancelled | generationBoundFailure =>
    exact was

theorem at_refresh (other : thread ≠ worker) (changes : List Change) (copies : ∀ change ∈ changes, change.copies seen)
    (plain : hooked = false → ∀ change ∈ changes, ∀ {job : Job}, job.Plain → (job.set change).Plain) : Guards worker hooked thread
      (At worker thread hooked seen job) (refresh changes) fun _ world =>
        ∃ now, (job.status = seen → now.status = seen) ∧ At worker thread hooked seen now world := by
  induction changes generalizing job with
  | nil => exact .pure fun now => ⟨job, id, now⟩
  | cons change rest ih =>
    have copied := copies change (by simp)
    refine Triple.bind (at_set other change copied.reviews fun hookless => plain hookless change (by simp)) fun _ => ?_
    refine (ih (fun later inside => copies later (by simp [inside])) fun hookless later inside => plain hookless later (by simp [inside])).mono
      id fun ⟨now, same, at'⟩ => ⟨now, fun first => same (copied.status first), at'⟩

theorem at_refreshRecord (other : thread ≠ worker) {record : Record} (plain : hooked = false → record.Plain) :
    Guards worker hooked thread (At worker thread hooked record.status job) (refresh record.items) fun _ world =>
      ∃ now, now.status = record.status ∧ At worker thread hooked record.status now world := by
  obtain ⟨rest, same⟩ : ∃ rest, record.items = .status record.status :: rest := ⟨_, rfl⟩
  have copies := @Record.copies_of_mem_items record
  have plains : hooked = false → ∀ change ∈ record.items, ∀ {job : Job}, job.Plain → (job.set change).Plain :=
    fun hookless _ inside _ => Record.plain_of_mem_items (plain hookless) inside
  rw [same] at copies plains ⊢
  refine Triple.bind (at_set other _ (copies (by simp)).reviews fun hookless was => ⟨was.1, (plain hookless).2⟩) fun _ => ?_
  exact (at_refresh other rest (fun change inside => copies (by simp [inside])) fun hookless change inside =>
    plains hookless change (by simp [inside])).mono id fun ⟨now, kept, at'⟩ => ⟨now, kept rfl, at'⟩

theorem at_acceptRefreshed (other : thread ≠ worker) (copy : job.status = seen) : Guards worker hooked thread
    (At worker thread hooked seen job) acceptRefreshed fun _ => Reviews worker thread hooked := by
  refine Triple.bind (at_ask other) fun _ => Triple.ite (fun _ => ?_) fun _ => .pure fun now => ⟨job, now.1⟩
  refine Triple.bind (at_readJob other) fun read => Triple.fact fun core => Triple.ite (fun _ => ?_) fun _ => .pure fun now => ⟨read, now.1⟩
  refine Triple.bind (at_ask other) fun _ => Triple.ite (fun _ => ?_) fun _ => .pure fun now => ⟨read, now.1⟩
  refine Triple.bind (at_readJob other) fun again => Triple.fact fun core' => Triple.ite (fun completed => ?_) fun _ =>
    .pure fun now => ⟨again, now.1⟩
  have same : seen = .completed := by
    rw [← copy, ← Job.status_eq_of_core core, ← Job.status_eq_of_core core']
    simpa using completed
  subst same
  exact Triple.bind (at_ask other) fun _ => Triple.ite (fun _ => at_claim other) fun _ => .pure fun now => ⟨again, now.1⟩

theorem reviews_readJob : Guards worker hooked thread (Reviewing worker thread hooked job) readJob fun read world =>
    read.core = job.core ∧ Reviewing worker thread hooked read world :=
  (guards_readJob stable_reviews).mono id fun {read _} ⟨found, now⟩ => by
    obtain ⟨_, copy, found', core⟩ := now.keeps
    rw [found] at found'
    cases found'
    exact ⟨core, now.of_core core⟩

theorem reviews_readStored : Guards worker hooked thread (Reviewing worker thread hooked job) readStored fun stored world =>
    ∃ record, (stored = some record ∧ (hooked = false → record.Plain)) ∧ At worker thread hooked record.status job world :=
  (guards_readStored stable_reviews).mono id fun {stored world} ⟨found, now⟩ => by
    obtain ⟨status, filed⟩ := now.invariant.filed
    obtain ⟨saved, file, same⟩ : ∃ saved, world.file = some saved ∧ saved.record.status = status := by
      simpa [World.status, World.stored] using filed
    refine ⟨saved.record, ⟨?_, fun hookless => now.invariant.plainFile hookless (by simp [World.stored, file])⟩, now,
      saved, file, .inl rfl⟩
    rw [← found]
    simp [World.stored, file]

theorem reviews_accept (other : thread ≠ worker) : Guards worker hooked thread (Reviewing worker thread hooked job) acceptHeld
    fun _ => Reviews worker thread hooked := by
  refine Triple.bind (guards_ask stable_reviews) fun _ => Triple.ite (fun _ => ?_) fun _ => .pure fun now => ⟨job, now⟩
  refine Triple.bind reviews_readJob fun read => Triple.fact fun _ => Triple.ite (fun _ => ?_) fun _ => .pure fun now => ⟨read, now⟩
  refine Triple.bind reviews_readStored fun stored => Triple.some fun record ⟨found, plain⟩ => ?_
  subst found
  exact Triple.bind (at_refreshRecord other plain) fun _ => Triple.some fun now copy => at_acceptRefreshed other copy

theorem reviews_reject (other : thread ≠ worker) : Guards worker hooked thread (Reviewing worker thread hooked job) rejectHeld
    fun _ => Reviews worker thread hooked := by
  refine Triple.bind (guards_ask stable_reviews) fun _ => Triple.ite (fun _ => ?_) fun _ => .pure fun now => ⟨job, now⟩
  refine Triple.bind reviews_readStored fun stored => Triple.some fun record ⟨found, _⟩ => ?_
  subst found
  refine Triple.ite (fun rejectable => ?_) fun _ => .pure fun now => ⟨job, now.1⟩
  have completed : record.status = .completed := by
    simp only [Option.all_some, Record.rejectable, Bool.and_eq_true, beq_iff_eq] at rejectable
    exact rejectable.1
  rw [completed]
  refine Triple.bind (at_readJob other) fun read => Triple.fact fun _ => Triple.ite (fun _ => ?_) fun _ => .pure fun now => ⟨read, now.1⟩
  exact Triple.bind (at_set other (.status .rejected) (.inr ⟨rfl, rfl⟩) fun _ plain => ⟨plain.1, nofun⟩) fun _ =>
    Triple.bind (at_emit other .rejected ⟨rfl, rfl, rfl, nofun⟩ rfl rfl) fun _ => .pure And.left

/-- The manager of a call has a copy of the job. -/
def Present (worker thread : Thread) (hooked : Bool) (world : World) : Prop :=
  Invariant worker hooked world ∧ ∃ job, world.jobs thread.manager = some job

theorem stable_present : Kept worker hooked thread (Present worker thread hooked) := stable_invariant.and stable_alive

theorem guards_bothLocks (other : thread ≠ worker) {body : Routine Unit}
    (runs : ∀ job, Guards worker hooked thread (Reviewing worker thread hooked job) body fun _ => Reviews worker thread hooked) :
    Guards worker hooked thread (Present worker thread hooked) (withReview (withJob body)) fun _ _ => True := by
  have guarded : Kept worker hooked thread fun world => Present worker thread hooked world ∧ world.review = some thread :=
    stable_present.and stable_review
  refine guards_withReview (fun world => Present worker thread hooked world ∧ world.review = some thread)
    (fun _ world => Present worker thread hooked world ∧ world.review = some thread) stable_present
    (fun ⟨invariant, alive⟩ _ safe => ⟨⟨safe.invariant invariant, alive⟩, rfl⟩) ?_ (fun _ => guarded)
    fun ⟨_, held⟩ => ⟨.unlockReview held fun own => absurd own other, trivial⟩
  refine guards_withJob (Reviews worker thread hooked) (fun _ => Reviews worker thread hooked) guarded
    (fun {world} ⟨⟨invariant, job, found⟩, held⟩ _ safe => ⟨job, safe.invariant invariant, held, by simp, job, found, rfl⟩)
    (fun world ⟨job, now⟩ => runs job world now) (fun _ => stable_over) fun {_ world} ⟨job, now⟩ => ?_
  have safe : Safe worker hooked thread world (world.hold thread.manager none) :=
    .unlockJob now.keeps.1 fun own => absurd own other
  obtain ⟨_, copy, found, _⟩ := now.keeps
  exact ⟨safe, ⟨safe.invariant now.invariant, copy, found⟩, now.review⟩

theorem present_find {rest : Routine Unit} (runs : Guards worker hooked thread (Present worker thread hooked) rest fun _ _ => True) :
    Guards worker hooked thread (Invariant worker hooked)
      (find >>= fun found => match found with | none => pure () | some _ => rest) fun _ _ => True := by
  refine Triple.bind (guards_find stable_invariant) fun found => ?_
  cases found with
  | none => exact .pure fun _ => trivial
  | some job => exact runs.mono (fun ⟨found, invariant⟩ => ⟨invariant, job, found⟩) id

theorem guards_accept (other : thread ≠ worker) : Guards worker hooked thread (Invariant worker hooked) accept fun _ _ => True :=
  present_find (guards_bothLocks other fun _ => reviews_accept other)

theorem guards_reject (other : thread ≠ worker) : Guards worker hooked thread (Invariant worker hooked) reject fun _ _ => True := by
  refine present_find (Triple.bind (guards_ask stable_present) fun _ => Triple.ite (fun _ => ?_) fun _ => .pure fun _ => trivial)
  refine Triple.bind ((guards_readJob stable_present).mono id And.right) fun _ => Triple.ite (fun _ => ?_) fun _ => .pure fun _ => trivial
  exact guards_bothLocks other fun _ => reviews_reject other

/-- A call holds the condition of its copy. -/
structure Holding (worker thread : Thread) (hooked : Bool) (job : Job) (world : World) : Prop where
  invariant : Invariant worker hooked world
  keeps : Keeps thread job world

theorem stable_holding : Kept worker hooked thread (Holding worker thread hooked job) := fun _ _ step now =>
  ⟨stable_invariant _ _ step now.invariant, stable_keeps _ _ step now.keeps⟩

theorem Holding.of_core {now : Job} {world : World} (holding : Holding worker thread hooked job world) (same : now.core = job.core) :
    Holding worker thread hooked now world :=
  ⟨holding.invariant, holding.keeps.1, by obtain ⟨copy, found, core⟩ := holding.keeps.2; exact ⟨copy, found, core.trans same.symm⟩⟩

/-- In the manager that runs the job the persisted status is pending. -/
def Open (worker thread : Thread) (file : Option Saved) : Prop :=
  thread.manager = worker.manager → ∃ saved, file = some saved ∧ saved.record.status.pending

/-- A call holds the condition of a copy whose cancellation it may record. -/
def Cancelling (worker thread : Thread) (hooked : Bool) (job : Job) (world : World) : Prop :=
  Holding worker thread hooked job world ∧ Open worker thread world.file

theorem stable_cancelling (other : thread ≠ worker) : Kept worker hooked thread (Cancelling worker thread hooked job) := by
  refine stable_file (Open worker thread) stable_holding ?_
  intro state acting record different holding pending files own
  obtain ⟨saved, filed, pending⟩ := pending own
  have holds : state.condition worker.manager = some thread := own ▸ holding.keeps.1
  have follows := files.follows (World.status_of_file filed)
  have uncompleted : record.status ≠ .completed := fun completed =>
    other (Option.some.inj (holds.symm.trans (files.completed completed).2.1))
  have uncancelled : record.status ≠ .cancelled := fun cancelled =>
    different (Option.some.inj (holds.symm.trans (files.cancelled cancelled))).symm
  refine ⟨_, rfl, ?_⟩
  revert follows pending uncompleted uncancelled
  cases saved.record.status <;> cases record.status <;> simp [Status.mayFollow, Status.pending, Status.reviewable]

theorem cancelling_set_free (other : thread ≠ worker) {change : Change} (free : change.free) : Guards worker hooked thread
    (Cancelling worker thread hooked job) (set change) fun _ => Cancelling worker thread hooked job :=
  guards_set (stable_cancelling other) fun {world copy} ⟨holding, pending⟩ found => by
    obtain ⟨holds, present, found', core⟩ := holding.keeps
    rw [found] at found'
    cases found'
    have assigns : Assigns worker thread hooked world copy change := .of_free free
    exact ⟨assigns, ⟨(Safe.set found assigns).invariant holding.invariant, holds, _, World.setJob_jobs ..,
      (Job.core_set free copy).trans core⟩, pending⟩

theorem cancelling_setIf_free (other : thread ≠ worker) {change : Change} {holds : Bool} (free : change.free) : Guards worker hooked thread
    (Cancelling worker thread hooked job) (setIf holds change) fun _ => Cancelling worker thread hooked job :=
  .ite (fun _ => cancelling_set_free other free) fun _ => .pure id

theorem cancelling_readJob (other : thread ≠ worker) : Guards worker hooked thread (Cancelling worker thread hooked job) readJob
    fun read world => read.core = job.core ∧ Cancelling worker thread hooked read world :=
  (guards_readJob (stable_cancelling other)).mono id fun {read _} ⟨found, holding, pending⟩ => by
    obtain ⟨_, copy, found', core⟩ := holding.keeps
    rw [found] at found'
    cases found'
    exact ⟨core, holding.of_core core, pending⟩

theorem cancelling_persist (other : thread ≠ worker) (copy : job.status = .cancelled) : Guards worker hooked thread
    (Cancelling worker thread hooked job) persist fun returned world =>
      Holding worker thread hooked job world ∧ (returned = false → Cancelling worker thread hooked job world) := by
  refine Triple.bind (cancelling_readJob other) fun read => Triple.fact fun core => ?_
  have shown : read.record.status = .cancelled := by
    rw [show read.record.status = read.publicStatus from rfl, Job.publicStatus_eq_of_core core,
      Job.publicStatus_of_uncompleted (by rw [copy]; rintro ⟨⟩), copy]
  refine guards_save (stable_cancelling other) (fun {world} now _ own => ?_)
    fun now => ⟨now.1.of_core core.symm, fun _ => ⟨now.1.of_core core.symm, now.2⟩⟩
  obtain ⟨holding, pending⟩ := now
  have own := own shown
  obtain ⟨saved, filed, pending⟩ := pending own
  obtain ⟨holds, present, found, same⟩ := holding.keeps
  have holds : world.condition worker.manager = some thread := own ▸ holds
  have saves : Saves worker thread hooked world read.record := by
    refine ⟨⟨fun filed' => ?_, fun completed => ?_, fun filed' published => ?_, fun _ => holds, fun _ => .inr holds⟩,
      fun hookless => ?_, fun {now} found' => ?_⟩
    · cases (World.status_of_file filed).symm.trans filed'
      exact Status.mayFollow_pending pending (.inr (.inl shown))
    · rw [shown] at completed
      cases completed
    · cases (World.status_of_file filed).symm.trans filed'
      simp [Status.pending, published] at pending
    · have plain := (Job.plain_of_core same.symm (holding.invariant.plainJobs hookless found)).1
      simp only [Job.settles, Bool.or_eq_false_iff] at plain
      exact ⟨plain.1, by rw [shown]; rintro ⟨⟩⟩
    · rw [own, found'] at found
      cases found
      have cancelled : present.status = .cancelled := (Job.status_eq_of_core (same.trans core)).trans copy
      rw [shown]
      exact ⟨fun _ => cancelled, by rintro ⟨⟩, fun reviewable => by rw [cancelled] at reviewable; cases reviewable⟩
  have after : Holding worker thread hooked job (world.save thread read.record) :=
    ⟨holding.invariant.save saves, (holding.of_core core.symm).keeps⟩
  exact ⟨saves, ⟨after, by rintro ⟨⟩⟩, fun undecided => by rw [shown] at undecided; cases undecided⟩

/-- A call holds the condition of its copy. -/
def Holds (worker thread : Thread) (hooked : Bool) (world : World) : Prop :=
  ∃ job, Holding worker thread hooked job world

theorem stable_holds : Kept worker hooked thread (Holds worker thread hooked) := fun _ _ step ⟨job, now⟩ =>
  ⟨job, stable_holding _ _ step now⟩

theorem cancelling_emit (other : thread ≠ worker) (copy : job.status = .cancelled) : Guards worker hooked thread
    (Cancelling worker thread hooked job) emit fun _ => Holds worker thread hooked := by
  refine Triple.bind (cancelling_persist other copy) fun returned => ?_
  cases returned with
  | true => exact .pure fun now => ⟨job, now.1⟩
  | false =>
    have fails : Guards worker hooked thread (Cancelling worker thread hooked job) emitFailure fun _ => Holds worker thread hooked := by
      refine Triple.bind (guards_ask (stable_cancelling other)) fun _ => Triple.bind (cancelling_readJob other) fun read =>
        Triple.fact fun core => Triple.ite (fun _ => ?_) fun _ => .pure fun now => ⟨read, now.1⟩
      rw [show (read.status == Status.completed) = false by simp [Job.status_eq_of_core core, copy]]
      exact Triple.bind (cancelling_set_free other rfl) fun _ => Triple.bind (.pure id) fun _ =>
        Triple.bind (cancelling_set_free other rfl) fun _ => .pure fun now => ⟨read, now.1⟩
    exact fails.mono (fun now => now.2 rfl) id

theorem holding_cancel (other : thread ≠ worker) : Guards worker hooked thread (Holding worker thread hooked job) cancelHeld
    fun _ => Holds worker thread hooked := by
  have reads : Guards worker hooked thread (Holding worker thread hooked job) readJob fun read => Holding worker thread hooked read :=
    (guards_readJob stable_holding).mono id fun {read _} ⟨found, holding⟩ => by
      obtain ⟨_, copy, found', core⟩ := holding.keeps
      rw [found] at found'
      cases found'
      exact holding.of_core core
  refine Triple.bind reads fun read => Triple.ite (fun _ => .pure fun now => ⟨read, now⟩) fun open' => ?_
  have cancels : Guards worker hooked thread (Holding worker thread hooked read) (set (.status .cancelled)) fun _ =>
      Cancelling worker thread hooked (read.set (.status .cancelled)) := by
    refine guards_set stable_holding fun {world copy} holding found => ?_
    obtain ⟨holds, present, found', core⟩ := holding.keeps
    rw [found] at found'
    cases found'
    have assigns : Assigns worker thread hooked world copy (.status .cancelled) :=
      ⟨.inr holds, fun _ was => ⟨was.1, nofun⟩, fun _ _ _ _ => ⟨fun _ => rfl, fun _ => rfl, nofun⟩, nofun⟩
    refine ⟨assigns, ⟨(Safe.set found assigns).invariant holding.invariant, holds, _, World.setJob_jobs .., ?_⟩, fun own => ?_⟩
    · simp_all [Job.core, Job.set]
    · obtain ⟨status, filed⟩ := holding.invariant.filed
      obtain ⟨saved, file, same⟩ : ∃ saved, world.file = some saved ∧ saved.record.status = status := by
        simpa [World.status, World.stored] using filed
      have agrees := holding.invariant.agrees filed (own ▸ found)
      have waiting : copy.status.terminal = false := by
        rw [Job.status_eq_of_core core]
        simpa using open'
      refine ⟨saved, file, ?_⟩
      rw [same, Status.pending, Bool.and_eq_true]
      refine ⟨?_, ?_⟩
      · by_contra published
        exact absurd (agrees.terminal (by simpa using published)) (by simp [waiting])
      · simp only [bne_iff_ne]
        intro cancelled
        rw [agrees.cancelled cancelled] at waiting
        cases waiting
  exact Triple.bind cancels fun _ => Triple.bind (cancelling_setIf_free other rfl) fun _ =>
    Triple.bind (cancelling_setIf_free other rfl) fun _ => cancelling_emit other rfl

theorem guards_cancel (other : thread ≠ worker) : Guards worker hooked thread (Invariant worker hooked) cancel fun _ _ => True := by
  have asks : Guards worker hooked thread (Present worker thread hooked) (set .cancelled) fun _ => Present worker thread hooked :=
    guards_set stable_present fun {world job} ⟨invariant, _⟩ found => by
      have assigns : Assigns worker thread hooked world job .cancelled := .of_free rfl
      exact ⟨assigns, (Safe.set found assigns).invariant invariant, _, World.setJob_jobs ..⟩
  refine present_find (Triple.bind asks fun _ => Triple.bind ((guards_readJob stable_present).mono id And.right) fun _ =>
    Triple.ite (fun _ => .pure fun _ => trivial) fun _ => Triple.bind ?_ fun _ => .pure id)
  refine guards_withJob (Holds worker thread hooked) (fun _ => Holds worker thread hooked) stable_present
    (fun {world} ⟨invariant, job, found⟩ _ safe => ⟨job, safe.invariant invariant, by simp, job, found, rfl⟩)
    (fun world ⟨job, now⟩ => holding_cancel other world now) (fun _ => stable_holds) fun ⟨job, now⟩ =>
      ⟨.unlockJob now.keeps.1 fun own => absurd own other, trivial⟩

theorem Safe.install {before : World} {now : Job} (foreign : thread.manager ≠ worker.manager)
    (absent : before.jobs thread.manager = none) (plain : hooked = false → now.Plain) :
    Safe worker hooked thread before (before.setJob thread.manager now) where
  invariant invariant := invariant.setJob plain (fun own => absurd own foreign) (fun own => absurd own foreign)
    fun own => absurd own foreign
  file := .inl rfl
  written := .inl rfl
  review _ := Iff.rfl
  condition _ _ := Iff.rfl
  alive := by
    intro manager old found
    have different : manager ≠ thread.manager := fun own => by rw [own, absent] at found; cases found
    exact ⟨old, by rwa [World.setJob_jobs_ne _ _ different]⟩
  core := by
    intro manager old later found found' _
    have different : manager ≠ thread.manager := fun own => by rw [own, absent] at found; cases found
    rw [World.setJob_jobs_ne _ _ different, found] at found'
    cases found'
    rfl
  settled := by
    intro old later found found' settled
    rw [World.setJob_jobs_ne _ _ (Ne.symm foreign), found] at found'
    cases found'
    exact settled

theorem guards_install (foreign : thread.manager ≠ worker.manager) {pre : World → Prop} {post : World → Prop}
    (stable : Kept worker hooked thread pre) (plain : hooked = false → job.Plain)
    (later : ∀ {world}, pre world → Safe worker hooked thread world (world.setJob thread.manager job) →
      post (world.setJob thread.manager job)) : Guards worker hooked thread pre (install job) fun _ => post :=
  Triple.one stable fun {before _ _} now executed => by
    obtain ⟨_, _, done⟩ := executed
    cases absent : before.jobs thread.manager with
    | some copy => simp [execute, absent] at done
    | none =>
      simp only [execute, absent, Option.some.injEq] at done
      cases done
      exact ⟨.install foreign absent plain, later now (.install foreign absent plain)⟩

theorem Record.Plain.restored {record : Record} (plain : record.Plain) : record.restored.Plain := by
  have settles : record.revived.settles = false := by simp [Record.revived, Job.settles, plain.1]
  have fresh : record.revived.Plain := ⟨settles, plain.2⟩
  unfold Record.restored
  rw [if_neg plain.2]
  split
  · exact ⟨settles, by rintro ⟨⟩⟩
  · exact fresh

theorem Record.restored_status {record : Record} (interrupted : record.status.interrupted) : record.restored.status = .failed := by
  unfold Record.restored
  rw [if_pos interrupted]
  split <;> rfl

/-- A restarting manager holds no condition of its own. -/
def Restarting (worker thread : Thread) (hooked : Bool) (world : World) : Prop :=
  Invariant worker hooked world ∧ world.condition thread.manager ≠ some thread

theorem stable_restarting : Kept worker hooked thread (Restarting worker thread hooked) :=
  stable_invariant.and stable_not_condition

/-- A restarting manager holds the review lock of a draft that is not published. -/
def Recovering (worker thread : Thread) (hooked : Bool) (world : World) : Prop :=
  (Restarting worker thread hooked world ∧ world.review = some thread) ∧
    ∃ saved, world.file = some saved ∧ saved.record.status.reviewable = false

theorem stable_recovering (other : thread ≠ worker) : Kept worker hooked thread (Recovering worker thread hooked) := by
  refine stable_file (fun file => ∃ saved, file = some saved ∧ saved.record.status.reviewable = false)
    (stable_restarting.and stable_review) ?_
  rintro state acting record different ⟨_, reviews⟩ ⟨saved, filed, hidden⟩ files
  have follows := files.follows (World.status_of_file filed)
  have uncompleted : record.status ≠ .completed := fun completed =>
    other (Option.some.inj (reviews.symm.trans (files.completed completed).2.2))
  refine ⟨_, rfl, ?_⟩
  revert follows uncompleted hidden
  cases saved.record.status <;> cases record.status <;> simp [Status.mayFollow, Status.pending, Status.reviewable]

theorem recovering_save (other : thread ≠ worker) {record : Record} (plain : hooked = false → record.Plain)
    (interrupted : record.status.interrupted) : Guards worker hooked thread (Recovering worker thread hooked)
      (save record.restored.record) fun _ world => Restarting worker thread hooked world ∧ world.review = some thread := by
  have shown : record.restored.record.status = .failed := by
    rw [show record.restored.record.status = record.restored.publicStatus from rfl,
      Job.publicStatus_of_uncompleted (by rw [Record.restored_status interrupted]; rintro ⟨⟩), Record.restored_status interrupted]
  refine guards_save (stable_recovering other) (fun {world} now unlocked _ => ?_) And.left
  obtain ⟨⟨⟨invariant, free⟩, reviews⟩, saved, filed, hidden⟩ := now
  obtain ⟨uncancelled, _⟩ := unlocked.resolve_left free
  have pending : saved.record.status.pending := by
    rw [World.status_of_file filed] at uncancelled
    simp only [Status.pending, hidden, Bool.not_false, Bool.true_and, bne_iff_ne]
    exact fun cancelled => uncancelled (by rw [cancelled])
  have saves : Saves worker thread hooked world record.restored.record := by
    refine ⟨⟨fun filed' => ?_, fun completed => ?_, fun filed' published => ?_, fun cancelled => ?_, fun _ => .inl reviews⟩,
      fun hookless => ?_, fun {now} found => ?_⟩
    · cases (World.status_of_file filed).symm.trans filed'
      exact Status.mayFollow_pending pending (.inl (by rw [shown]; rfl))
    · rw [shown] at completed
      cases completed
    · cases (World.status_of_file filed).symm.trans filed'
      simp [hidden] at published
    · rw [shown] at cancelled
      cases cancelled
    · have settles := (plain hookless).restored.1
      simp only [Job.settles, Bool.or_eq_false_iff] at settles
      exact ⟨settles.1, by rw [shown]; rintro ⟨⟩⟩
    · have agrees := invariant.agrees (World.status_of_file filed) found
      rw [shown]
      refine ⟨by rintro ⟨⟩, by rintro ⟨⟩, fun reviewable => ?_⟩
      rcases agrees.reviewable reviewable with published | ⟨_, _, held⟩
      · simp [hidden] at published
      · exact absurd (Option.some.inj (reviews.symm.trans held)) other
  have after : Restarting worker thread hooked (world.save thread record.restored.record) := ⟨invariant.save saves, free⟩
  exact ⟨saves, ⟨after, reviews⟩, fun _ => ⟨after, reviews⟩⟩

theorem guards_restore (other : thread ≠ worker) (foreign : thread.manager ≠ worker.manager) : Guards worker hooked thread
    (Restarting worker thread hooked) restore fun _ _ => True := by
  have plainly {pre : World → Prop} (stable : Kept worker hooked thread pre) (restarting : ∀ {world}, pre world → Restarting worker thread hooked world) :
      Guards worker hooked thread pre readStored fun stored world =>
        (∀ record, stored = some record → hooked = false → record.Plain) ∧ world.stored = stored ∧ pre world :=
    (guards_readStored stable).mono id fun ⟨found, now⟩ => ⟨fun _ same hookless =>
      (restarting now).1.plainFile hookless (found.trans same), found, now⟩
  refine Triple.bind (plainly stable_restarting id) fun stored => Triple.fact fun plain => ?_
  cases stored with
  | none => exact .pure fun _ => trivial
  | some record =>
    refine Triple.ite (fun _ => ?_) fun _ => ?_
    · have guarded : Kept worker hooked thread fun world => Restarting worker thread hooked world ∧ world.review = some thread :=
        stable_restarting.and stable_review
      refine (guards_withReview (fun world => Restarting worker thread hooked world ∧ world.review = some thread)
        (fun _ world => Restarting worker thread hooked world ∧ world.review = some thread) stable_restarting
        (fun ⟨invariant, free⟩ _ safe => ⟨⟨safe.invariant invariant, free⟩, rfl⟩) ?_ (fun _ => guarded)
        fun ⟨_, held⟩ => ⟨.unlockReview held fun own => absurd own other, trivial⟩).mono And.right id
      have installs {record : Record} (plain : hooked = false → record.Plain) : Guards worker hooked thread
          (fun world => Restarting worker thread hooked world ∧ world.review = some thread) (install record.restored)
          fun _ world => Restarting worker thread hooked world ∧ world.review = some thread :=
        guards_install foreign guarded (fun hookless => (plain hookless).restored) fun ⟨⟨invariant, free⟩, reviews⟩ safe =>
          ⟨⟨safe.invariant invariant, free⟩, reviews⟩
      refine Triple.bind (plainly guarded And.left) fun stored => Triple.fact fun plain => ?_
      cases stored with
      | none => exact .pure And.right
      | some record =>
        refine Triple.ite (fun interrupted => ?_) fun _ => (installs (plain record rfl)).mono And.right id
        refine Triple.bind ((recovering_save other (plain record rfl) interrupted).mono (fun {world} ⟨found, now, reviews⟩ => ?_) id) fun _ =>
          Triple.ite (fun _ => installs (plain record rfl)) fun _ => .pure id
        obtain ⟨saved, file, same⟩ := Option.map_eq_some_iff.mp found
        refine ⟨⟨now, reviews⟩, saved, file, ?_⟩
        rw [same]
        by_contra published
        rw [Status.interrupted_eq, Status.terminal_of_reviewable (by simpa using published)] at interrupted
        cases interrupted
    · exact (guards_install foreign stable_restarting (fun hookless => (plain record rfl hookless).restored)
        fun _ _ => trivial).mono And.right id

end NovelStudio.Jobs
