import Mathlib.Data.List.Nodup
import NovelStudio.Imports.Apply

/-! A call of `apply` is safe wherever it stops and whatever the authors do: it upserts only what is not there, keeps what is done, and
completes and reports only what the journal has. -/

namespace NovelStudio.Imports

open Library

variable {outside : Outside} {world next : World} {call : Call} {journal stored : Journal} {before rest : List Step} {step : Step}

theorem Digest.same_none {digest : Digest} (same : Digest.same digest none = true) : digest = none := by
  cases digest with
  | none => rfl
  | some value => cases same

/-- The journal is of the review, the project and the selection of a call. -/
structure Journal.Belongs (journal : Journal) (call : Call) : Prop where
  review : journal.reviewId = call.reviewId
  novel : journal.novelId = call.nid
  selection : Digest.same journal.fingerprint (some call.candidates) = true

/-- The steps of a journal have targets of their own, an upsert was started only where there was no entity, a result is recorded with its
digest, and a journal is completed only with all of its steps. -/
structure Sensible (status : JournalStatus) (steps : List Step) : Prop where
  distinct : (steps.map fun step => (step.kind, step.targetId)).Nodup
  absent : ∀ step ∈ steps, ∀ digest, step.status = .APPLYING digest ∨ step.status = .FAILED digest → digest = none
  recorded : ∀ step ∈ steps, ∀ result digest, step.status = .DONE result digest → digest = some result
  complete : status = .COMPLETED → ∀ step ∈ steps, step.status.isDone = true

def Journal.identity (journal : Journal) : String × String × Digest := (journal.reviewId, journal.novelId, journal.fingerprint)

/-- A later journal of the same selection: what is done stays. -/
structure Follows (earlier later : Journal) : Prop where
  identity : earlier.identity = later.identity
  done : ∀ step ∈ earlier.steps, step.status.isDone = true → step ∈ later.steps

theorem Journal.Belongs.of_identity (belongs : journal.Belongs call) (same : stored.identity = journal.identity) : stored.Belongs call := by
  simp only [Journal.identity, Prod.mk.injEq] at same
  obtain ⟨review, novel, fingerprint⟩ := same
  exact ⟨review ▸ belongs.review, novel ▸ belongs.novel, fingerprint ▸ belongs.selection⟩

variable {changed : Step} {status : JournalStatus}

theorem Sensible.replace {later : JournalStatus} (sensible : Sensible status (before ++ step :: rest))
    (target : (changed.kind, changed.targetId) = (step.kind, step.targetId))
    (absent : ∀ digest, changed.status = .APPLYING digest ∨ changed.status = .FAILED digest → digest = none)
    (recorded : ∀ result digest, changed.status = .DONE result digest → digest = some result)
    (open_ : later ≠ .COMPLETED) : Sensible later (before ++ changed :: rest) := by
  have each : ∀ other, other ∈ before ++ changed :: rest → other = changed ∨ other ∈ before ++ step :: rest := by
    intro other member
    rw [List.mem_append, List.mem_cons] at member ⊢
    tauto
  constructor
  · have distinct := sensible.distinct
    rw [List.map_append, List.map_cons] at distinct ⊢
    rw [target]
    exact distinct
  · intro other member digest found
    rcases each other member with rfl | there
    · exact absent digest found
    · exact sensible.absent other there digest found
  · intro other member result digest found
    rcases each other member with rfl | there
    · exact recorded result digest found
    · exact sensible.recorded other there result digest found
  · intro completed
    exact absurd completed open_

variable {steps : List Step}

theorem Sensible.reopen {later : JournalStatus} (sensible : Sensible status steps) (open_ : later ≠ .COMPLETED) :
    Sensible later steps :=
  ⟨sensible.distinct, sensible.absent, sensible.recorded, fun completed => absurd completed open_⟩

theorem done_kept (open_ : step.status.isDone = false) :
    ∀ other ∈ before ++ step :: rest, other.status.isDone = true → other ∈ before ++ changed :: rest := by
  intro other member done
  rw [List.mem_append, List.mem_cons] at member ⊢
  rcases member with early | rfl | late
  · exact .inl early
  · rw [open_] at done
    cases done
  · exact .inr (.inr late)

/-- The target of a step was found equal to its result, or was written and read back. -/
def Confirmed (nid : String) (trace : List Event) (step : Step) : Prop :=
  ∃ result, step.status = .DONE result (some result) ∧
    ((∃ row, Event.read nid step.kind step.targetId (.ok (some row)) ∈ trace ∧ Json.sameText row result = true) ∨
      ∃ written, List.Sublist [Event.upserted nid step.kind step.targetId (.ok written), .read nid step.kind step.targetId (.ok (some result))]
        trace ∧ confirms written step.targetId = true)

variable {nid : String}

theorem Confirmed.later {trace : List Event} (confirmed : Confirmed nid trace step) (more : List Event) :
    Confirmed nid (trace ++ more) step := by
  obtain ⟨result, status, ⟨row, member, same⟩ | ⟨written, sub, right⟩⟩ := confirmed
  · exact ⟨result, status, .inl ⟨row, List.mem_append_left _ member, same⟩⟩
  · exact ⟨result, status, .inr ⟨written, sub.trans (List.sublist_append_left ..), right⟩⟩

structure Written (world : World) (journal : Journal) : Prop where
  sensible : Sensible journal.status journal.steps
  belongs : ∃ call, world.call = some call ∧ journal.Belongs call
  follows : ∀ earlier, world.journal = some earlier → Follows earlier journal
  completed : journal.status = .COMPLETED → ∀ step ∈ journal.steps, Confirmed journal.novelId world.trace step

/-- What may be answered: success for a journal that is completed, and an interruption with what the journal has that was written last. -/
def Reports (world : World) : Except Raised Accepted → Prop
  | .ok accepted => ∃ journal, world.journal = some journal ∧ journal.status = .COMPLETED ∧ accepted.applied = journal.applied ∧
      accepted.checkpointCount = journal.steps.length ∧ ∀ step ∈ journal.steps, Confirmed journal.novelId world.trace step
  | .error (.interrupted detail) => ∃ journal ended, world.trace.getLast? = some (.wrote journal ended) ∧ journal.status ≠ .COMPLETED ∧
      (ended = .ok () → world.journal = some journal) ∧ detail.status = journal.status ∧ detail.applied = journal.applied ∧
      detail.completed = journal.completed ∧ detail.total = journal.steps.length
  | .error (.failed _) => True

/-- An entity is upserted where there is none, and for a step of the journal that is not done. -/
structure Upserts (outside : Outside) (world : World) (nid : String) (kind : Kind) (targetId : String) : Prop where
  absent : current outside world.knowledge nid kind targetId = none
  journal : ∃ call journal, world.call = some call ∧ world.journal = some journal ∧ journal.Belongs call ∧
    ∀ step ∈ journal.steps, step.kind = kind → step.targetId = targetId → step.status.isDone = false

/-- What an event is about, and what it leaves. -/
def Fits (outside : Outside) (world next : World) : Event → Prop
  | .loaded _ | .read .. | .wrote _ (.error _) => next.journal = world.journal ∧ next.knowledge = world.knowledge
  | .wrote journal (.ok ()) => next.journal = some journal ∧ next.knowledge = world.knowledge ∧ Written world journal
  | .upserted nid kind targetId _ => next.journal = world.journal ∧ Upserts outside world nid kind targetId
  | .answered outcome => next.journal = world.journal ∧ next.knowledge = world.knowledge ∧ Reports world outcome

/-- Every operation of a call does what it may. -/
def Sound (outside : Outside) (_ : Unit) (world next : World) : Prop :=
  ∃ event, next.trace = world.trace ++ [event] ∧ next.call = world.call ∧ Fits outside world next event

/-- Nothing but the knowledge changes from outside, and that is not unnoticed. -/
structure Around (world next : World) : Prop where
  journal : next.journal = world.journal
  call : next.call = world.call
  trace : next.trace = world.trace
  quiet : next.quiet = true → world.quiet = true ∧ next.knowledge = world.knowledge

theorem Around.of_rely (rely : Rely (Sound outside) Edits () world next) : Around world next := by
  induction rely with
  | refl => exact ⟨rfl, rfl, rfl, fun quiet => ⟨quiet, rfl⟩⟩
  | tail earlier last ih =>
    rcases last with ⟨other, different, _⟩ | ⟨knowledge, rfl⟩
    · exact absurd rfl different
    · exact ⟨ih.journal, ih.call, ih.trace, nofun⟩

/-- The rest of a call is safe from a world on. -/
abbrev Safe (outside : Outside) (routine : Routine) (world : World) : Prop :=
  Meets (Exec outside) (Sound outside) Edits () (fun _ _ => True) routine world

theorem Reports.around {outcome : Except Raised Accepted} (reports : Reports world outcome) (around : Around world next) : Reports next outcome := by
  match outcome with
  | .ok accepted | .error (.interrupted detail) =>
    simp only [Reports, around.journal, around.trace] at reports ⊢
    exact reports
  | .error (.failed failure) => trivial

theorem ends_safe {outcome : Except Raised Accepted} (reports : Reports world outcome) : Safe outside (ends outcome) world := by
  intro before rely answer after executed
  cases executed
  exact ⟨⟨.answered outcome, rfl, rfl, rfl, rfl, reports.around (.of_rely rely)⟩, trivial⟩

theorem fails_safe (failure : Failure) : Safe outside (fails failure) world := ends_safe trivial

theorem Written.around (written : Written world journal) (around : Around world next) : Written next journal := by
  constructor
  · exact written.sensible
  · rw [around.call]
    exact written.belongs
  · rw [around.journal]
    exact written.follows
  · rw [around.trace]
    exact written.completed

theorem write_safe {resume : Except Failure Unit → Routine} (written : Written world journal)
    (done : ∀ after, after.journal = some journal → after.call = world.call → after.trace = world.trace ++ [.wrote journal (.ok ())] →
      (after.quiet = true → after.knowledge = world.knowledge) → Safe outside (resume (.ok ())) after)
    (failed : ∀ failure after, after.journal = world.journal → after.call = world.call → after.trace = world.trace ++ [.wrote journal (.error failure)] →
      Safe outside (resume (.error failure)) after) : Safe outside (.perform (.write journal) resume) world := by
  intro before rely answer after executed
  have around := Around.of_rely rely
  cases executed with
  | writes =>
    refine ⟨⟨.wrote journal (.ok ()), rfl, rfl, rfl, rfl, written.around around⟩, done _ rfl around.call ?_ fun quiet => (around.quiet quiet).2⟩
    exact congrArg (· ++ _) around.trace
  | writeFails _ failure =>
    refine ⟨⟨.wrote journal (.error failure), rfl, rfl, rfl, rfl⟩, failed failure _ around.journal around.call ?_⟩
    exact congrArg (· ++ _) around.trace

theorem read_safe {kind : Kind} {targetId : String} {resume : Except Failure (Option Json) → Routine}
    (found : ∀ row after, after.journal = world.journal → after.call = world.call → after.trace = world.trace ++ [.read nid kind targetId (.ok row)] →
      current outside after.knowledge nid kind targetId = row → Safe outside (resume (.ok row)) after)
    (failed : ∀ failure after, after.journal = world.journal → after.call = world.call →
      after.trace = world.trace ++ [.read nid kind targetId (.error failure)] → Safe outside (resume (.error failure)) after) :
    Safe outside (.perform (.read nid kind targetId) resume) world := by
  intro before rely answer after executed
  have around := Around.of_rely rely
  cases executed with
  | reads =>
    refine ⟨⟨.read nid kind targetId _, rfl, rfl, rfl, rfl⟩, found _ _ around.journal around.call ?_ rfl⟩
    exact congrArg (· ++ _) around.trace
  | readFails _ _ _ failure =>
    refine ⟨⟨.read nid kind targetId (.error failure), rfl, rfl, rfl, rfl⟩, failed failure _ around.journal around.call ?_⟩
    exact congrArg (· ++ _) around.trace

variable {code : String}

theorem interrupt_safe (sensible : Sensible journal.status journal.steps)
    (belongs : world.call = some call ∧ journal.Belongs call) (follows : ∀ earlier, world.journal = some earlier → Follows earlier journal) :
    Safe outside (interrupt call journal code step) world := by
  have open_ : (interruptedJournal journal code).status ≠ .COMPLETED := by
    unfold interruptedJournal
    dsimp only
    split <;> nofun
  have written : Written world (interruptedJournal journal code) := by
    constructor
    · exact sensible.reopen open_
    · exact ⟨call, belongs.1, belongs.2.of_identity rfl⟩
    · intro earlier there
      exact ⟨(follows earlier there).identity, (follows earlier there).done⟩
    · intro completed
      exact absurd completed open_
  refine write_safe written ?_ ?_
  · intro after there _ trace _
    refine ends_safe ⟨interruptedJournal journal code, .ok (), ?_, open_, fun _ => there, rfl, rfl, rfl, rfl⟩
    rw [trace, List.getLast?_append_of_ne_nil _ (by simp)]
    rfl
  · intro failure after _ _ trace
    cases failure with
    | os =>
      refine ends_safe ⟨interruptedJournal journal code, .error .os, ?_, open_, nofun, rfl, rfl, rfl, rfl⟩
      rw [trace, List.getLast?_append_of_ne_nil _ (by simp)]
      rfl
    | value message => exact fails_safe _
    | other note => exact fails_safe _

/-- Where the loop is: the file has the steps of the journal in hand, and the steps before are confirmed. -/
structure Held (call : Call) (journal : Journal) (before rest : List Step) (world : World) : Prop where
  hand : world.call = some call
  belongs : journal.Belongs call
  stored : ∃ stored, world.journal = some stored ∧ stored.steps = before ++ rest ∧ stored.identity = journal.identity
  sensible : Sensible journal.status (before ++ rest)
  confirmed : ∀ step ∈ before, Confirmed journal.novelId world.trace step

theorem Held.later (held : Held call journal before rest world) {more : List Event} (file : next.journal = world.journal)
    (kept : next.call = world.call) (trace : next.trace = world.trace ++ more) : Held call journal before rest next := by
  constructor
  · rw [kept]
    exact held.hand
  · exact held.belongs
  · rw [file]
    exact held.stored
  · exact held.sensible
  · intro step member
    rw [trace]
    exact (held.confirmed step member).later more

theorem Held.follows (held : Held call journal before rest world) {code : Option String}
    (done : ∀ step ∈ before ++ rest, step.status.isDone = true → step ∈ steps) :
    ∀ earlier, world.journal = some earlier → Follows earlier { journal with status := status, errorCode := code, steps := steps } := by
  intro earlier there
  obtain ⟨stored, found, same, identity⟩ := held.stored
  obtain rfl := Option.some.inj (found.symm.trans there)
  exact ⟨identity, same ▸ done⟩

theorem Held.unfinished (held : Held call journal before (step :: rest) world) (open_ : step.status.isDone = false) : journal.status ≠ .COMPLETED := by
  intro completed
  have done := held.sensible.complete completed step (List.mem_append_right _ (List.mem_cons_self ..))
  rw [open_] at done
  cases done

theorem Held.written (held : Held call journal before (step :: rest) world) (open_ : step.status.isDone = false)
    (target : (changed.kind, changed.targetId) = (step.kind, step.targetId))
    (absent : ∀ digest, changed.status = .APPLYING digest ∨ changed.status = .FAILED digest → digest = none)
    (recorded : ∀ result digest, changed.status = .DONE result digest → digest = some result) :
    Written world { journal with steps := before ++ changed :: rest } := by
  constructor
  · exact held.sensible.replace target absent recorded (held.unfinished open_)
  · exact ⟨call, held.hand, held.belongs.of_identity rfl⟩
  · exact held.follows (done_kept open_)
  · intro completed
    exact absurd completed (held.unfinished open_)

theorem Held.at (held : Held call journal before (step :: rest) world) {more : List Event} (open_ : step.status.isDone = false)
    (target : (changed.kind, changed.targetId) = (step.kind, step.targetId))
    (absent : ∀ digest, changed.status = .APPLYING digest ∨ changed.status = .FAILED digest → digest = none)
    (recorded : ∀ result digest, changed.status = .DONE result digest → digest = some result)
    (file : next.journal = some { journal with steps := before ++ changed :: rest }) (kept : next.call = world.call)
    (trace : next.trace = world.trace ++ more) : Held call journal before (changed :: rest) next := by
  constructor
  · rw [kept]
    exact held.hand
  · exact held.belongs
  · exact ⟨_, file, rfl, rfl⟩
  · exact held.sensible.replace target absent recorded (held.unfinished open_)
  · intro other member
    rw [trace]
    exact (held.confirmed other member).later more

theorem Held.advance (held : Held call journal before (step :: rest) world) (confirmed : Confirmed journal.novelId world.trace step) :
    Held call journal (before ++ [step]) rest world := by
  constructor
  · exact held.hand
  · exact held.belongs
  · obtain ⟨stored, found, same, identity⟩ := held.stored
    exact ⟨stored, found, by rw [same, List.append_assoc, List.singleton_append], identity⟩
  · rw [List.append_assoc, List.singleton_append]
    exact held.sensible
  · intro other member
    rcases List.mem_append.mp member with early | here
    · exact held.confirmed other early
    · obtain rfl := List.mem_singleton.mp here
      exact confirmed

theorem Held.interrupt (held : Held call journal before (step :: rest) world) :
    Safe outside (interrupt call { journal with steps := before ++ step :: rest } code step) world := by
  refine interrupt_safe held.sensible ⟨held.hand, held.belongs.of_identity rfl⟩ ?_
  exact held.follows fun other member _ => member

theorem Held.interrupt_changed (held : Held call journal before (step :: rest) world)
    (open_ : step.status.isDone = false) (target : (changed.kind, changed.targetId) = (step.kind, step.targetId))
    (absent : ∀ digest, changed.status = .APPLYING digest ∨ changed.status = .FAILED digest → digest = none)
    (recorded : ∀ result digest, changed.status = .DONE result digest → digest = some result) :
    Safe outside (Imports.interrupt call { journal with steps := before ++ changed :: rest } code changed) world := by
  have written := held.written open_ target absent recorded
  exact interrupt_safe written.sensible ⟨held.hand, held.belongs.of_identity rfl⟩ written.follows

theorem upsert_safe {kind : Kind} {targetId : String} {candidate : Json} {resume : Except Failure (List Json) → Routine}
    (upserts : ∀ middle, Around world middle → middle.quiet = true → Upserts outside middle nid kind targetId)
    (each : ∀ written after, after.journal = world.journal → after.call = world.call →
      after.trace = world.trace ++ [.upserted nid kind targetId written] → Safe outside (resume written) after) :
    Safe outside (.perform (.upsert nid kind targetId candidate) resume) world := by
  intro middle rely answer after executed
  have around := Around.of_rely rely
  cases executed with
  | upserts _ _ _ _ quiet _ knowledge =>
    refine ⟨⟨.upserted nid kind targetId answer, rfl, rfl, rfl, upserts middle around quiet⟩, each _ _ around.journal around.call ?_⟩
    exact congrArg (· ++ _) around.trace

theorem upsertStep_safe {marked : Step} {resume : Step → Routine} (held : Held call journal before (marked :: rest) world)
    (same : marked = { step with status := .APPLYING none })
    (absent : world.quiet = true → current outside world.knowledge call.nid step.kind step.targetId = none)
    (resumes : ∀ done after, Held call journal (before ++ [done]) rest after → Safe outside (resume done) after) :
    Safe outside (upsertStep call journal before step none rest resume) world := by
  have open_ : marked.status.isDone = false := by
    rw [same]
    rfl
  have target : ∀ status, (({ step with status := status } : Step).kind, ({ step with status := status } : Step).targetId) =
      (marked.kind, marked.targetId) := by
    intro status
    rw [same]
  have stops : ∀ after more, after.journal = world.journal → after.call = world.call → after.trace = world.trace ++ more →
      Safe outside (interrupt call { journal with steps := before ++ { step with status := .FAILED none } :: rest } "IMPORT_APPLY_PARTIAL"
        { step with status := .FAILED none }) after := by
    intro after more file hand trace
    refine (held.later file hand trace).interrupt_changed open_ (target _) ?_ nofun
    rintro digest (found | found)
    · cases found
    · cases found
      rfl
  refine upsert_safe ?_ ?_
  · intro middle around quiet
    obtain ⟨was, knowledge⟩ := around.quiet quiet
    obtain ⟨stored, found, steps, identity⟩ := held.stored
    constructor
    · rw [knowledge]
      exact absent was
    · refine ⟨call, stored, around.call.trans held.hand, around.journal.trans found, held.belongs.of_identity identity, ?_⟩
      -- no other step of the journal has the target
      intro other member kind there
      rw [steps] at member
      have unique := held.sensible.distinct
      have here : marked ∈ before ++ marked :: rest := List.mem_append_right _ (List.mem_cons_self ..)
      have key : (other.kind, other.targetId) = (marked.kind, marked.targetId) := by rw [kind, there, same]
      rw [List.inj_on_of_nodup_map unique member here key]
      exact open_
  · intro written after file hand trace
    cases written with
    | error failure => exact stops after _ file hand trace
    | ok written =>
      dsimp only
      split
      · rename_i right
        refine read_safe ?_ ?_
        · intro row last file' hand' trace' _
          have trace'' := trace'.trans (congrArg (· ++ _) trace)
          rw [List.append_assoc] at trace''
          cases row with
          | none => exact stops last _ (file'.trans file) (hand'.trans hand) trace''
          | some row =>
            have held' := held.later (file'.trans file) (hand'.trans hand) trace''
            have recorded : ∀ result digest, Status.DONE row (some row) = .DONE result digest → digest = some result := by
              intro result digest found
              cases found
              rfl
            have unmarked : ∀ digest, Status.DONE row (some row) = .APPLYING digest ∨ Status.DONE row (some row) = .FAILED digest →
                digest = none := by
              rintro digest (found | found)
              · cases found
              · cases found
            refine write_safe (held'.written open_ (target _) unmarked recorded) ?_ ?_
            · intro final there hand'' trace3 _
              have held'' := held'.at open_ (target _) unmarked recorded there hand'' trace3
              refine resumes _ final (held''.advance ⟨row, rfl, .inr ⟨written, ?_, right⟩⟩)
              rw [trace3, trace'', held.belongs.novel]
              simp
            · intro failure final file'' hand'' trace3
              exact (held'.later file'' hand'' trace3).interrupt_changed open_ (target _) unmarked recorded
        · intro failure last file' hand' trace'
          have trace'' := trace'.trans (congrArg (· ++ _) trace)
          rw [List.append_assoc] at trace''
          exact stops last _ (file'.trans file) (hand'.trans hand) trace''
      · exact stops after _ file hand trace

theorem verdict_false {row : Option Json} (decided : verdict step row = .ok false) :
    ∃ result digest, step.status = .DONE result digest ∧ Digest.same row digest = true := by
  unfold verdict at decided
  split at decided
  · rename_i result digest status
    split at decided
    · rename_i same
      exact ⟨result, digest, status, same⟩
    · cases decided
  · split at decided <;> cases decided
  · split at decided <;> cases decided
  · split at decided <;> cases decided

theorem verdict_true {row : Option Json} (decided : verdict step row = .ok true)
    (absent : ∀ digest, step.status = .APPLYING digest ∨ step.status = .FAILED digest → digest = none) :
    step.status.isDone = false ∧ row = none := by
  unfold verdict at decided
  split at decided
  · split at decided <;> cases decided
  · rename_i status
    rw [status]
    split at decided
    · cases decided
    · rename_i missing
      rw [Bool.not_eq_true, Option.isSome_eq_false_iff, Option.isNone_iff_eq_none] at missing
      exact ⟨rfl, missing⟩
  · rename_i digest status
    split at decided
    · rename_i same
      rw [absent digest (.inl status)] at same
      rw [status]
      exact ⟨rfl, Digest.same_none same⟩
    · cases decided
  · rename_i digest status
    split at decided
    · rename_i same
      rw [absent digest (.inr status)] at same
      rw [status]
      exact ⟨rfl, Digest.same_none same⟩
    · cases decided

theorem applyStep_safe {resume : Step → Routine} (held : Held call journal before (step :: rest) world)
    (resumes : ∀ done after, Held call journal (before ++ [done]) rest after → Safe outside (resume done) after) :
    Safe outside (applyStep call journal before step rest resume) world := by
  have here : step ∈ before ++ step :: rest := List.mem_append_right _ (List.mem_cons_self ..)
  refine read_safe ?_ ?_
  · intro row after file hand trace known
    have held' := held.later file hand trace
    dsimp only
    split
    · exact held'.interrupt
    · rename_i decided
      obtain ⟨result, digest, status, same⟩ := verdict_false decided
      obtain rfl := held.sensible.recorded step here result digest status
      refine resumes step after (held'.advance ⟨result, status, .inl ?_⟩)
      cases row with
      | none => cases same
      | some row =>
        refine ⟨row, ?_, same⟩
        rw [trace, held.belongs.novel]
        exact List.mem_append_right _ (List.mem_singleton_self _)
    · rename_i decided
      obtain ⟨open_, rfl⟩ := verdict_true decided (held.sensible.absent step here)
      have unmarked : ∀ digest, Status.APPLYING none = .APPLYING digest ∨ Status.APPLYING none = .FAILED digest → digest = none := by
        rintro digest (found | found)
        · cases found
          rfl
        · cases found
      refine write_safe (held'.written open_ rfl unmarked nofun) ?_ ?_
      · intro last there hand' trace' quiet
        have marked : Held call journal before ({ step with status := .APPLYING none } :: rest) last :=
          held'.at open_ rfl unmarked nofun there hand' trace'
        refine upsertStep_safe marked rfl ?_ resumes
        intro undisturbed
        rw [quiet undisturbed]
        exact known
      · intro failure last _ _ _
        exact fails_safe failure
  · intro failure after _ _ _
    exact fails_safe failure

theorem applySteps_safe (held : Held call journal before rest world) : Safe outside (applySteps call journal before rest) world := by
  induction rest generalizing before world with
  | nil =>
    -- every step is behind the loop, and confirmed
    have sensible := held.sensible
    rw [List.append_nil] at sensible
    have written : Written world { journal with status := .COMPLETED, errorCode := none, steps := before } := by
      constructor
      · refine ⟨sensible.distinct, sensible.absent, sensible.recorded, ?_⟩
        intro _ step member
        obtain ⟨result, status, _⟩ := held.confirmed step member
        rw [status]
        rfl
      · exact ⟨call, held.hand, held.belongs.of_identity rfl⟩
      · exact held.follows fun step member _ => by rwa [List.append_nil] at member
      · intro _ step member
        exact held.confirmed step member
    refine write_safe written ?_ ?_
    · intro after there _ trace _
      refine ends_safe ⟨_, there, rfl, rfl, rfl, ?_⟩
      intro step member
      rw [trace]
      exact (held.confirmed step member).later _
    · intro failure after _ _ _
      exact fails_safe failure
  | cons step rest ih => exact applyStep_safe held fun done after held' => ih held'

theorem selectionSteps_sensible (selected : selectionSteps outside call = .ok steps) : Sensible .APPLYING steps := by
  simp only [selectionSteps, bind_ok] at selected
  obtain ⟨_, _, _, _, _, _, selected⟩ := selected
  have each : (steps.map fun step => (step.kind, step.targetId)).Nodup ∧ ∀ step ∈ steps, step.status = .PENDING := by
    refine foldlM_invariant (motive := fun _ steps => (steps.map fun step => (step.kind, step.targetId)).Nodup ∧
      ∀ step ∈ steps, step.status = .PENDING) ?_ ⟨List.nodup_nil, List.forall_mem_nil _⟩ selected
    rintro _ candidate steps next _ ⟨distinct, pending⟩ added
    simp only [addStep, bind_ok, reject_ok, pure_ok] at added
    obtain ⟨_, _, _, unused, rfl⟩ := added
    constructor
    · rw [List.map_append, List.map_singleton, List.nodup_append]
      refine ⟨distinct, List.nodup_singleton _, ?_⟩
      intro key member other here same
      obtain ⟨step, there, rfl⟩ := List.mem_map.mp member
      obtain rfl := List.mem_singleton.mp here
      obtain ⟨kind, target⟩ := Prod.mk.inj same
      have clash := List.any_eq_false.mp unused step there
      simp [kind, target] at clash
    · intro step member
      rcases List.mem_append.mp member with early | here
      · exact pending step early
      · obtain rfl := List.mem_singleton.mp here
        rfl
  refine ⟨each.1, ?_, ?_, by rintro ⟨⟩⟩
  · intro step member digest found
    rw [each.2 step member] at found
    rcases found with found | found <;> cases found
  · intro step member result digest found
    rw [each.2 step member] at found
    cases found

theorem checkJournal_ok (checked : checkJournal call journal = .ok ()) : journal.Belongs call := by
  simp only [checkJournal, bind_ok, reject_ok, Bool.or_eq_false_iff, decide_eq_false_iff_not, not_not, Bool.not_eq_false'] at checked
  obtain ⟨_, _, ⟨review, novel⟩, selection⟩ := checked
  exact ⟨review, novel, selection⟩

theorem apply_safe (hand : world.call = some call) (sensible : ∀ journal, world.journal = some journal → Sensible journal.status journal.steps) :
    Safe outside (apply outside call) world := by
  unfold apply
  split
  · exact fails_safe _
  · rename_i steps selected
    intro middle rely answer after executed
    have around := Around.of_rely rely
    cases executed with
    | loadFails failure => exact ⟨⟨.loaded (.error failure), rfl, rfl, rfl, rfl⟩, fails_safe failure⟩
    | loads =>
      refine ⟨⟨.loaded (.ok middle.journal), rfl, rfl, rfl, rfl⟩, ?_⟩
      have hand' : middle.call = some call := around.call.trans hand
      cases found : middle.journal with
      | some journal =>
        have there : world.journal = some journal := around.journal.symm.trans found
        dsimp only
        split
        · exact fails_safe _
        · rename_i checked
          have belongs := checkJournal_ok checked
          exact applySteps_safe ⟨hand', belongs.of_identity rfl, ⟨journal, found, rfl, rfl⟩, sensible journal there, nofun⟩
      | none =>
        have belongs : (newJournal call steps).Belongs call := ⟨rfl, rfl, Json.sameText_refl _ call.distinct⟩
        have fresh := selectionSteps_sensible selected
        refine write_safe ⟨fresh, ⟨call, hand', belongs⟩, ?_, nofun⟩ ?_ ?_
        · intro earlier there
          rw [show (middle.tell _).journal = middle.journal from rfl, found] at there
          cases there
        · intro last written hand'' _ _
          exact applySteps_safe ⟨hand''.trans hand', belongs.of_identity rfl, ⟨_, written, rfl, rfl⟩, fresh, nofun⟩
        · intro failure last _ _ _
          exact fails_safe failure

end NovelStudio.Imports
