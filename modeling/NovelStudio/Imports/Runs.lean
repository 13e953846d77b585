import NovelStudio.Imports.Resumes
import NovelStudio.Library.Transition

/-! Every run of calls, edits and stops: acceptance never overwrites, never repeats what is done, and completes only what it confirmed. -/

namespace NovelStudio.Imports

open Library

variable {outside : Outside} {world next : World} {system later : System} {label : Label} {event : Event}

/-- The calls in hand are safe, and the journal is sensible. -/
structure Kept (outside : Outside) (system : System) : Prop where
  correct : Threads.Correct (Exec outside) (Sound outside) Edits system
  sensible : ∀ journal, system.state.journal = some journal → Sensible journal.status journal.steps

theorem Kept.fresh (knowledge : String → Kind → List Json) : Kept outside (.fresh knowledge) := ⟨fun _ => trivial, nofun⟩

theorem Kept.told (kept : Kept outside system) (step : System.Step outside system (.event event) later) :
    Fits outside system.state later.state event ∧ later.state.call = system.state.call := by
  cases step with
  | turn told turn =>
    obtain ⟨other, told', hand, fits⟩ := (kept.correct.turn turn).1
    obtain rfl := (List.singleton_inj.mp (List.append_cancel_left (told.symm.trans told')))
    exact ⟨fits, hand⟩

theorem Fits.written (fits : Fits outside world next event) :
    next.journal = world.journal ∨ ∃ journal, event = .wrote journal (.ok ()) ∧ next.journal = some journal ∧ Written world journal := by
  match event with
  | .loaded _ | .read .. | .wrote _ (.error _) | .upserted .. | .answered _ => exact .inl fits.1
  | .wrote journal (.ok ()) => exact .inr ⟨journal, rfl, fits.1, fits.2.2⟩

theorem System.Step.journal_outside (step : System.Step outside system label later) (quiet : ∀ event, label ≠ .event event) :
    later.state.journal = system.state.journal := by
  cases step with
  | turn told turn => exact absurd rfl (quiet _)
  | edit edits =>
    obtain ⟨knowledge, rfl⟩ := edits
    rfl
  | begin idle call => rfl
  | stop => rfl

theorem Kept.moves (kept : Kept outside system) (step : System.Step outside system label later) : Kept outside later := by
  have told := step
  constructor
  · cases step with
    | turn told turn => exact (kept.correct.turn turn).2
    | edit edits => exact kept.correct.outside fun _ => .inl ⟨rfl, edits⟩
    | begin idle call => exact kept.correct.outside fun _ => .inr (apply_safe rfl kept.sensible)
    | stop => exact kept.correct.outside fun _ => .inr trivial
  · intro journal found
    cases label with
    | event event =>
      rcases (kept.told told).1.written with same | ⟨written, _, there, may⟩
      · exact kept.sensible journal (same ▸ found)
      · obtain rfl := Option.some.inj (there.symm.trans found)
        exact may.sensible
    | edit | begin | stop =>
      rw [told.journal_outside nofun] at found
      exact kept.sensible journal found

theorem Kept.done (kept : Kept outside system) (step : System.Step outside system label later) {done : Imports.Step} (isDone : done.status.isDone = true)
    (found : ∃ journal, system.state.journal = some journal ∧ done ∈ journal.steps) :
    ∃ journal, later.state.journal = some journal ∧ done ∈ journal.steps := by
  obtain ⟨journal, there, member⟩ := found
  cases label with
  | event event =>
    rcases (kept.told step).1.written with same | ⟨written, _, now, may⟩
    · exact ⟨journal, same.trans there, member⟩
    · exact ⟨written, now, (may.follows journal there).done done member isDone⟩
  | edit | begin | stop => exact ⟨journal, (step.journal_outside nofun).trans there, member⟩

/-- The acceptance of a review, in a state of it: what may be upserted, what is never upserted again, which calls change nothing, when it
is completed, and what a call answers. -/
structure Resumes (outside : Outside) (system : System) : Prop where
  absent : ∀ {nid kind targetId written next}, System.Step outside system (.event (.upserted nid kind targetId written)) next →
    current outside system.state.knowledge nid kind targetId = none
  once : ∀ {journal : Journal} {step : Imports.Step} {labels final}, system.state.journal = some journal → step ∈ journal.steps → step.status.isDone = true →
    Run (System.Step outside) system labels final → ∀ nid written, Label.event (.upserted nid step.kind step.targetId written) ∉ labels
  selection : ∀ {journal : Journal} {call : Call} {event next}, system.state.journal = some journal → system.state.call = some call →
    ¬ journal.Belongs call → System.Step outside system (.event event) next →
    next.state.journal = system.state.journal ∧ next.state.knowledge = system.state.knowledge
  completed : ∀ {journal : Journal} {label next}, System.Step outside system label next → next.state.journal = some journal →
    journal.status = .COMPLETED → next.state.journal = system.state.journal ∨ label = .event (.wrote journal (.ok ())) ∧
      ∀ step ∈ journal.steps, Confirmed journal.novelId system.state.trace step
  answered : ∀ {outcome next}, System.Step outside system (.event (.answered outcome)) next → Reports system.state outcome

theorem apply_resumes {knowledge : String → Kind → List Json} {labels : List Label}
    (run : Run (System.Step outside) (.fresh knowledge) labels system) : Resumes outside system := by
  have kept : Kept outside system := run.invariant (Kept.fresh knowledge) Kept.moves
  constructor
  · intro nid kind targetId written next step
    exact (kept.told step).1.2.absent
  · intro journal done labels final found member isDone continued nid written upserted
    obtain ⟨before, after, same⟩ := List.append_of_mem upserted
    obtain ⟨state, next, earlier, step, _⟩ := continued.around same
    have there : Kept outside state ∧ ∃ journal, state.state.journal = some journal ∧ done ∈ journal.steps :=
      earlier.invariant (motive := fun system => Kept outside system ∧ ∃ journal, system.state.journal = some journal ∧ done ∈ journal.steps)
        ⟨kept, journal, found, member⟩ fun ⟨kept, there⟩ step => ⟨kept.moves step, kept.done step isDone there⟩
    obtain ⟨keeps, stored, now, member'⟩ := there
    obtain ⟨_, _, _, hand, _, unfinished⟩ := (keeps.told step).1.2.journal
    obtain rfl := Option.some.inj (hand.symm.trans now)
    have open_ := unfinished done member' rfl rfl
    rw [isDone] at open_
    cases open_
  · intro journal call event next found hand other step
    obtain ⟨fits, _⟩ := kept.told step
    match event with
    | .loaded _ | .read .. | .wrote _ (.error _) => exact fits
    | .answered _ => exact ⟨fits.1, fits.2.1⟩
    | .upserted .. =>
      obtain ⟨_, _, hand', now, belongs, _⟩ := fits.2.journal
      obtain rfl := Option.some.inj (hand.symm.trans hand')
      obtain rfl := Option.some.inj (found.symm.trans now)
      exact absurd belongs other
    | .wrote written (.ok ()) =>
      obtain ⟨_, hand', belongs⟩ := fits.2.2.belongs
      obtain rfl := Option.some.inj (hand.symm.trans hand')
      exact absurd (belongs.of_identity (fits.2.2.follows journal found).identity) other
  · intro journal label next step found completed
    cases label with
    | event event =>
      rcases (kept.told step).1.written with same | ⟨written, rfl, there, may⟩
      · exact .inl same
      · obtain rfl := Option.some.inj (there.symm.trans found)
        exact .inr ⟨rfl, may.completed completed⟩
    | edit | begin | stop => exact .inl (step.journal_outside nofun)
  · intro outcome next step
    exact (kept.told step).1.2.2

/-- `str` of a string, for a selection that has no other values. -/
def plain : Outside where
  shown
    | .str text => text
    | _ => "None"
  uuid5 := id

def ada : Json := .dict [("id", .str "ada"), ("name", .str "Ada")]

def oneCandidate : Call := ⟨"review", "novel", .dict [("characters", .list [ada])], "author", rfl⟩

def adaStep (status : Status) : Imports.Step := ⟨.characters, "ada", ada, status⟩

theorem turn_of {op : Op} {rest : op.Answer → Routine} {answer : op.Answer} (program : system.programs () = .perform op rest)
    (executed : Exec outside () op system.state answer next) (told : next.trace = system.state.trace ++ [event]) :
    System.Step outside system (.event event) ⟨next, fun _ => rest answer⟩ := by
  refine .turn told ⟨op, rest, answer, program, executed, ?_⟩
  funext thread
  exact (Function.update_self () (rest answer) system.programs).symm

def adaJournal (lastActorId : Option String) (status : Status) : Journal :=
  { newJournal oneCandidate [adaStep status] with lastActorId }

/-- A call finds no journal, writes one, and upserts its candidate; the write that would complete it is next. -/
theorem ada_written : ∃ labels world, Run (System.Step plain) (.fresh fun _ _ => []) labels
      ⟨world, fun _ => applySteps oneCandidate (adaJournal (some "author") .PENDING) [adaStep (.DONE ada (some ada))] []⟩ ∧
    world.journal = some (adaJournal (some "author") (.DONE ada (some ada))) ∧ world.call = some oneCandidate := by
  have start : Run (System.Step plain) (.fresh fun _ _ => []) _ _ := Run.done.snoc (.begin rfl oneCandidate)
  have loaded := start.snoc (turn_of rfl .loads rfl)
  have created := loaded.snoc (turn_of rfl (.writes (adaJournal none .PENDING)) rfl)
  have absent := created.snoc (turn_of rfl (.reads "novel" .characters "ada") rfl)
  have marked := absent.snoc (turn_of rfl (.writes (adaJournal (some "author") (.APPLYING none))) rfl)
  have upserted := marked.snoc (turn_of rfl (.upserts "novel" .characters "ada" ada rfl (.ok [ada]) fun _ _ => [ada]) rfl)
  have found := upserted.snoc (turn_of rfl (.reads "novel" .characters "ada") rfl)
  have recorded := found.snoc (turn_of rfl (.writes (adaJournal (some "author") (.DONE ada (some ada)))) rfl)
  exact ⟨_, _, recorded, rfl, rfl⟩

/-- The candidate is recorded, and stays accepted. -/
theorem apply_resumes_ada : ∃ labels system, Run (System.Step plain) (.fresh fun _ _ => []) labels system ∧
    system.state.journal = some (adaJournal (some "author") (.DONE ada (some ada))) ∧ Resumes plain system := by
  obtain ⟨labels, world, run, journal, _⟩ := ada_written
  exact ⟨labels, _, run, journal, apply_resumes run⟩

/-- A write of the journal that raises by itself ends the call without a report of what is recorded. -/
theorem raises_without_report : ∃ labels system journal, Run (System.Step plain) (.fresh fun _ _ => []) labels system ∧
    (∃ next, System.Step plain system (.event (.answered (.error (.failed .os)))) next) ∧ system.state.call = some oneCandidate ∧
    system.state.journal = some journal ∧ journal.Belongs oneCandidate ∧ journal.applied.head? = some ("characters", [ada]) := by
  obtain ⟨labels, world, run, journal, hand⟩ := ada_written
  have failed := run.snoc (turn_of rfl (.writeFails _ .os) rfl)
  exact ⟨_, _, _, failed, ⟨_, turn_of rfl (.answers (.error (.failed .os))) rfl⟩, hand, journal, ⟨rfl, rfl, rfl⟩, rfl⟩

end NovelStudio.Imports
