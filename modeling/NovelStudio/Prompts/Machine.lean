import Mathlib.Data.List.Nodup
import NovelStudio.Prompts.Draft

/-! What holds of a draft through every sequence of operations: the request and its snapshot stay
frozen until the outcome is known, every identifier stands for one snapshot, what is shown as saved
was confirmed, and a conflict keeps the next identifier back while its mark is kept. -/

namespace NovelStudio.Prompts

open Library

variable {allocate : Nat → String}

/-- The request of a locked draft is recorded with its snapshot, and only a locked draft has one. -/
structure Sound (allocate : Nat → String) (session : Session) : Prop where
  outstanding : session.draft.requestId ≠ none ↔ isInputLocked session.draft = true
  recorded : ∀ id, session.draft.requestId = some id → ∃ snapshot, session.draft.pending = some snapshot ∧ (id, snapshot) ∈ session.submitted
  numbered : session.submitted.map Prod.fst = (List.range session.submitted.length).map allocate
  confirmed : session.draft.state = .saved → session.confirmed = some session.draft.content

theorem Sound.start (key : String) : Sound allocate (.start key) where
  outstanding := iff_of_false (not_not.mpr rfl) Bool.false_ne_true
  recorded := nofun
  numbered := rfl
  confirmed := nofun

variable {draft : Draft}

theorem locked_iff : isInputLocked draft = true ↔ draft.state = .submitting ∨ draft.state = .unknown := by
  rw [isInputLocked, Bool.or_eq_true, beq_iff_eq, beq_iff_eq]

theorem pendingMatchesContent_iff : pendingMatchesContent draft = true ↔ draft.pending = some draft.content := by
  rw [pendingMatchesContent, beq_iff_eq]

theorem allocates_iff :
    allocates draft = true ↔
      (draft.state = .clean ∨ draft.state = .dirty ∨ draft.state = .rejected) ∧ draft.conflictCode = none ∧ draft.requestId = none := by
  unfold allocates canSubmit
  simp only [Bool.and_eq_true, Bool.or_eq_true, bne_iff_ne, beq_iff_eq, Option.isNone_iff_eq_none, ne_eq, or_assoc, and_assoc]
  constructor
  · intro all
    exact all.2
  · intro all
    refine ⟨?_, all⟩
    intro busy
    rcases all.1 with here | here | here
    all_goals
      rw [busy] at here
      cases here

theorem beginSubmit_cases (draft : Draft) (allocated : String) :
    (allocates draft = true ∧ beginSubmit draft allocated =
      { draft with state := .submitting, pending := some draft.content, requestId := some allocated, conflictCode := none, message := none }) ∨
    (allocates draft = false ∧ beginSubmit draft allocated = draft) := by
  unfold beginSubmit allocates
  by_cases busy : draft.state = .submitting
  · right
    rw [if_pos busy, busy]
    exact ⟨rfl, rfl⟩
  · rw [if_neg busy]
    have free : (draft.state != .submitting) = true := bne_iff_ne.mpr busy
    rw [free, Bool.true_and]
    cases canSubmit draft with
    | true => exact Or.inl ⟨rfl, rfl⟩
    | false => exact Or.inr ⟨rfl, rfl⟩

/-- A retry leaves all but the state and the message, and turns an unknown outcome into a submission at most. -/
theorem retryUnknown_cases (draft : Draft) :
    retryUnknown draft = draft ∨ (draft.state = .unknown ∧ retryUnknown draft = { draft with state := .submitting, message := none }) := by
  unfold retryUnknown
  split
  · exact Or.inl rfl
  · rename_i able
    split
    · exact Or.inl rfl
    · rw [not_or, not_not] at able
      exact Or.inr ⟨able.1, rfl⟩

theorem reconcileStashed_cases (draft : Draft) :
    reconcileStashed draft = draft ∨
      (draft.state = .submitting ∧ ∃ message, reconcileStashed draft = { draft with state := .unknown, message := some message }) := by
  unfold reconcileStashed
  split
  · exact Or.inl rfl
  · rename_i busy
    exact Or.inr ⟨not_not.mp busy, _, rfl⟩

theorem editDraft_cases (draft : Draft) (patch : ContentPatch) :
    (isInputLocked draft = true ∧ editDraft draft patch = draft) ∨
      (isInputLocked draft = false ∧ (editDraft draft patch).state = .dirty ∧ (editDraft draft patch).requestId = draft.requestId ∧
        (editDraft draft patch).conflictCode = (if draft.state = .conflict then draft.conflictCode else none)) := by
  unfold editDraft
  split
  · rename_i locked
    exact Or.inl ⟨locked, rfl⟩
  · rename_i free
    exact Or.inr ⟨Bool.eq_false_iff.mpr free, rfl, rfl, rfl⟩

variable {session : Session}

theorem Sound.idle (sound : Sound allocate session) (free : isInputLocked draft = false)
    (request : draft.requestId = none) (conflicted : Bool) (confirmed : Option DraftContent)
    (saved : draft.state = .saved → confirmed = some draft.content) : Sound allocate ⟨draft, session.submitted, conflicted, confirmed⟩ where
  outstanding := by
    show draft.requestId ≠ none ↔ _
    rw [request, free]
    simp
  recorded := by
    intro id same
    change draft.requestId = some id at same
    rw [request] at same
    cases same
  numbered := sound.numbered
  confirmed := saved

theorem Sound.waiting (sound : Sound allocate session) (locked : isInputLocked draft = true)
    (before : isInputLocked session.draft = true) (request : draft.requestId = session.draft.requestId)
    (pending : draft.pending = session.draft.pending) : Sound allocate { session with draft } where
  outstanding := by
    show draft.requestId ≠ none ↔ _
    rw [request, locked, sound.outstanding, before]
  recorded := by
    intro id same
    change draft.requestId = some id at same
    rw [request] at same
    show ∃ snapshot, draft.pending = some snapshot ∧ _
    rw [pending]
    exact sound.recorded id same
  numbered := sound.numbered
  confirmed := by
    intro saved
    change draft.state = .saved at saved
    rw [locked_iff, saved] at locked
    cases locked with
    | inl other => cases other
    | inr other => cases other

variable {after : Session} {operation : Operation}

theorem Sound.next (sound : Sound allocate session)
    (called : Called allocate session operation after) : Sound allocate after := by
  obtain ⟨answer, rfl⟩ := called
  cases operation with
  | editDraft patch =>
    show Sound allocate ⟨Prompts.editDraft session.draft patch, session.submitted, session.conflicted, session.confirmed⟩
    cases editDraft_cases session.draft patch with
    | inl same =>
      rw [same.2]
      exact sound
    | inr edited =>
      obtain ⟨free, state, request, -⟩ := edited
      apply sound.idle
      · rw [isInputLocked, state]
        rfl
      · rw [request]
        by_contra outstanding
        have locked := sound.outstanding.mp outstanding
        rw [free] at locked
        cases locked
      · intro saved
        rw [state] at saved
        cases saved
  | beginSubmit =>
    cases beginSubmit_cases session.draft (allocate session.submitted.length) with
    | inl submitted =>
      obtain ⟨able, same⟩ := submitted
      have later : session.next allocate .beginSubmit =
          ⟨Prompts.beginSubmit session.draft (allocate session.submitted.length),
            session.submitted ++ [(allocate session.submitted.length, session.draft.content)], session.conflicted, session.confirmed⟩ := by
        show Session.mk _ (if allocates session.draft = true then _ else _) _ _ = _
        rw [if_pos able]
        rfl
      rw [later, same]
      constructor
      · exact iff_of_true (Option.some_ne_none _) rfl
      · intro id here
        obtain rfl := Option.some.inj here
        exact ⟨session.draft.content, rfl, List.mem_append_right _ (List.mem_singleton.mpr rfl)⟩
      · show (session.submitted ++ _).map Prod.fst = (List.range (session.submitted ++ _).length).map allocate
        rw [List.map_append, List.length_append, List.length_singleton, List.range_succ, List.map_append, sound.numbered]
        rfl
      · nofun
    | inr kept =>
      have later : session.next allocate .beginSubmit = session := by
        show Session.mk (Prompts.beginSubmit session.draft _) (if allocates session.draft = true then _ else _) _ _ = _
        rw [kept.2, if_neg (Bool.eq_false_iff.mp kept.1)]
      rw [later]
      exact sound
  | confirmSaved saved =>
    show Sound allocate ⟨Prompts.confirmSaved session.draft saved, session.submitted, session.conflicted, session.draft.pending⟩
    apply sound.idle
    · unfold isInputLocked Prompts.confirmSaved
      cases pendingMatchesContent session.draft with
      | true => rfl
      | false => rfl
    · rfl
    · intro shown
      change (if pendingMatchesContent session.draft then DraftState.saved else .dirty) = .saved at shown
      split at shown
      · rename_i matched
        exact pendingMatchesContent_iff.mp matched
      · cases shown
  | markConflict code message => exact sound.idle rfl rfl true session.confirmed nofun
  | markRejected code message => exact sound.idle rfl rfl session.conflicted session.confirmed nofun
  | markUnknown message =>
    have locked := sound.outstanding.mp (answer rfl)
    exact sound.waiting rfl locked rfl rfl
  | retryUnknown =>
    show Sound allocate { session with draft := Prompts.retryUnknown session.draft }
    cases retryUnknown_cases session.draft with
    | inl same =>
      rw [same]
      exact sound
    | inr sent =>
      rw [sent.2]
      exact sound.waiting rfl (locked_iff.mpr (Or.inr sent.1)) rfl rfl
  | reconcileStashed =>
    show Sound allocate { session with draft := Prompts.reconcileStashed session.draft }
    cases reconcileStashed_cases session.draft with
    | inl same =>
      rw [same]
      exact sound
    | inr stashed =>
      obtain ⟨busy, message, same⟩ := stashed
      rw [same]
      exact sound.waiting rfl (locked_iff.mpr (Or.inl busy)) rfl rfl
  | rebaseDraft base => exact sound.idle rfl rfl false session.confirmed nofun
  | discardDraft => exact sound.idle rfl rfl false session.confirmed nofun

theorem Sound.run {key : String} {operations : List Operation}
    (run : Run (Called allocate) (.start key) operations session) : Sound allocate session :=
  run.invariant (Sound.start key) fun sound called => sound.next called

theorem Sound.single (sound : Sound allocate session) (fresh : Function.Injective allocate) {id : String}
    {one two : DraftContent} (first : (id, one) ∈ session.submitted) (second : (id, two) ∈ session.submitted) : one = two := by
  have distinct : (session.submitted.map Prod.fst).Nodup := by
    rw [sound.numbered]
    exact List.Nodup.map fresh List.nodup_range
  exact congrArg Prod.snd (List.inj_on_of_nodup_map distinct first second rfl)

/-- A call that does not end the request keeps it, its snapshot and the list of requests, and the draft stays locked. -/
theorem waits_step (locked : isInputLocked session.draft = true)
    (called : Called allocate session operation after) (goes : operation.ends = false) :
    isInputLocked after.draft = true ∧ after.draft.requestId = session.draft.requestId ∧ after.draft.pending = session.draft.pending ∧
      after.submitted = session.submitted := by
  obtain ⟨-, rfl⟩ := called
  cases operation with
  | editDraft patch =>
    have same : Prompts.editDraft session.draft patch = session.draft := if_pos locked
    refine ⟨?_, ?_, ?_, rfl⟩
    · show isInputLocked (Prompts.editDraft session.draft patch) = true
      rw [same, locked]
    · show (Prompts.editDraft session.draft patch).requestId = _
      rw [same]
    · show (Prompts.editDraft session.draft patch).pending = _
      rw [same]
  | beginSubmit =>
    have busy : allocates session.draft = false := by
      rw [← Bool.not_eq_true, allocates_iff]
      intro able
      rcases locked_iff.mp locked with state | state
      all_goals
        rw [state] at able
        simp at able
    have same : Prompts.beginSubmit session.draft (allocate session.submitted.length) = session.draft := by
      cases beginSubmit_cases session.draft (allocate session.submitted.length) with
      | inl able =>
        rw [busy] at able
        cases able.1
      | inr kept => exact kept.2
    refine ⟨?_, ?_, ?_, if_neg (Bool.eq_false_iff.mp busy)⟩
    · show isInputLocked (Prompts.beginSubmit session.draft _) = true
      rw [same, locked]
    · show (Prompts.beginSubmit session.draft _).requestId = _
      rw [same]
    · show (Prompts.beginSubmit session.draft _).pending = _
      rw [same]
  | confirmSaved saved => cases goes
  | markConflict code message => cases goes
  | markRejected code message => cases goes
  | markUnknown message => exact ⟨rfl, rfl, rfl, rfl⟩
  | retryUnknown =>
    show isInputLocked (Prompts.retryUnknown session.draft) = true ∧ (Prompts.retryUnknown session.draft).requestId = _ ∧
      (Prompts.retryUnknown session.draft).pending = _ ∧ session.submitted = _
    cases retryUnknown_cases session.draft with
    | inl same =>
      rw [same]
      exact ⟨locked, rfl, rfl, rfl⟩
    | inr sent =>
      rw [sent.2]
      exact ⟨rfl, rfl, rfl, rfl⟩
  | reconcileStashed =>
    show isInputLocked (Prompts.reconcileStashed session.draft) = true ∧ (Prompts.reconcileStashed session.draft).requestId = _ ∧
      (Prompts.reconcileStashed session.draft).pending = _ ∧ session.submitted = _
    cases reconcileStashed_cases session.draft with
    | inl same =>
      rw [same]
      exact ⟨locked, rfl, rfl, rfl⟩
    | inr stashed =>
      obtain ⟨-, message, same⟩ := stashed
      rw [same]
      exact ⟨rfl, rfl, rfl, rfl⟩
  | rebaseDraft base => cases goes
  | discardDraft => cases goes

theorem waits_run {operations : List Operation} (locked : isInputLocked session.draft = true)
    (run : Run (Called allocate) session operations after) (go : ∀ operation ∈ operations, operation.ends = false) :
    isInputLocked after.draft = true ∧ after.draft.requestId = session.draft.requestId ∧ after.draft.pending = session.draft.pending ∧
      after.submitted = session.submitted := by
  induction run with
  | done => exact ⟨locked, rfl, rfl, rfl⟩
  | snoc earlier last ih =>
    obtain ⟨still, request, pending, submitted⟩ := ih fun operation member => go operation (List.mem_append_left _ member)
    obtain ⟨again, request', pending', submitted'⟩ := waits_step still last (go _ (List.mem_append_right _ (List.mem_singleton.mpr rfl)))
    exact ⟨again, request'.trans request, pending'.trans pending, submitted'.trans submitted⟩

/-- While a conflict waits for a rebase there is no request, and the mark is there. -/
def Blocked (session : Session) : Prop :=
  session.conflicted = true →
    session.draft.requestId = none ∧ session.draft.conflictCode ≠ none ∧ (session.draft.state = .conflict ∨ session.draft.state = .dirty)

/-- The call is no edit of a draft that was edited since its conflict: such an edit drops the mark. -/
def KeepsMark (session : Session) : Operation → Prop
  | .editDraft _ => ¬(session.draft.state = .dirty ∧ session.draft.conflictCode ≠ none)
  | _ => True

def Careful (allocate : Nat → String) (session : Session) (operation : Operation) (after : Session) : Prop :=
  Called allocate session operation after ∧ KeepsMark session operation

theorem Blocked.allocates (blocked : Blocked session) (conflicted : session.conflicted = true) :
    allocates session.draft = false := by
  obtain ⟨-, marked, -⟩ := blocked conflicted
  rw [← Bool.not_eq_true, allocates_iff]
  intro able
  exact marked able.2.1

theorem Blocked.quiet (blocked : Blocked session) (settles : operation.settles = true)
    (answer : operation.settles = true → session.draft.requestId ≠ none) : session.conflicted = false := by
  rw [← Bool.not_eq_true]
  intro conflicted
  exact answer settles (blocked conflicted).1

theorem Blocked.next (blocked : Blocked session)
    (called : Careful allocate session operation after) : Blocked after := by
  obtain ⟨⟨answer, rfl⟩, keeps⟩ := called
  intro conflicted
  cases operation with
  | editDraft patch =>
    obtain ⟨request, marked, state⟩ := blocked conflicted
    show (Prompts.editDraft session.draft patch).requestId = none ∧ (Prompts.editDraft session.draft patch).conflictCode ≠ none ∧
      ((Prompts.editDraft session.draft patch).state = .conflict ∨ (Prompts.editDraft session.draft patch).state = .dirty)
    cases editDraft_cases session.draft patch with
    | inl same =>
      rw [same.2]
      exact ⟨request, marked, state⟩
    | inr edited =>
      obtain ⟨-, dirty, kept, code⟩ := edited
      cases state with
      | inl conflict => exact ⟨kept.trans request, by rw [code, if_pos conflict]; exact marked, Or.inr dirty⟩
      | inr before => exact absurd ⟨before, marked⟩ keeps
  | beginSubmit =>
    have same : Prompts.beginSubmit session.draft (allocate session.submitted.length) = session.draft := by
      cases beginSubmit_cases session.draft (allocate session.submitted.length) with
      | inl able =>
        have refused := Blocked.allocates blocked conflicted
        rw [able.1] at refused
        cases refused
      | inr kept => exact kept.2
    show (Prompts.beginSubmit session.draft _).requestId = none ∧ (Prompts.beginSubmit session.draft _).conflictCode ≠ none ∧
      ((Prompts.beginSubmit session.draft _).state = .conflict ∨ (Prompts.beginSubmit session.draft _).state = .dirty)
    rw [same]
    exact blocked conflicted
  | confirmSaved saved =>
    have quiet := blocked.quiet rfl answer
    rw [show session.conflicted = true from conflicted] at quiet
    cases quiet
  | markConflict code message => exact ⟨rfl, Option.some_ne_none _, Or.inl rfl⟩
  | markRejected code message =>
    have quiet := blocked.quiet rfl answer
    rw [show session.conflicted = true from conflicted] at quiet
    cases quiet
  | markUnknown message =>
    have quiet := blocked.quiet rfl answer
    rw [show session.conflicted = true from conflicted] at quiet
    cases quiet
  | retryUnknown =>
    obtain ⟨request, marked, state⟩ := blocked conflicted
    have same : Prompts.retryUnknown session.draft = session.draft := by
      cases retryUnknown_cases session.draft with
      | inl same => exact same
      | inr sent =>
        rw [sent.1] at state
        simp at state
    show (Prompts.retryUnknown session.draft).requestId = none ∧ (Prompts.retryUnknown session.draft).conflictCode ≠ none ∧
      ((Prompts.retryUnknown session.draft).state = .conflict ∨ (Prompts.retryUnknown session.draft).state = .dirty)
    rw [same]
    exact ⟨request, marked, state⟩
  | reconcileStashed =>
    obtain ⟨request, marked, state⟩ := blocked conflicted
    have same : Prompts.reconcileStashed session.draft = session.draft := by
      cases reconcileStashed_cases session.draft with
      | inl same => exact same
      | inr stashed =>
        rw [stashed.1] at state
        simp at state
    show (Prompts.reconcileStashed session.draft).requestId = none ∧ (Prompts.reconcileStashed session.draft).conflictCode ≠ none ∧
      ((Prompts.reconcileStashed session.draft).state = .conflict ∨ (Prompts.reconcileStashed session.draft).state = .dirty)
    rw [same]
    exact ⟨request, marked, state⟩
  | rebaseDraft base => cases conflicted
  | discardDraft => cases conflicted

/-- Every sequence of calls keeps the outstanding request with its snapshot, associates an identifier with one snapshot, and shows as saved
what was confirmed; one in which every call keeps the mark allocates nothing while a conflict waits. -/
theorem draft_sequences (allocate : Nat → String) (fresh : Function.Injective allocate) (key : String) (operations : List Operation)
    (session : Session) (run : Run (Called allocate) (.start key) operations session) :
    (Run (Careful allocate) (.start key) operations session → session.conflicted = true → allocates session.draft = false) ∧
    (isInputLocked session.draft = true → ∀ later after, Run (Called allocate) session later after → (∀ operation ∈ later, operation.ends = false) →
      after.draft.requestId = session.draft.requestId ∧ after.draft.pending = session.draft.pending ∧ after.submitted = session.submitted) ∧
    (∀ id, session.draft.requestId = some id → ∃ snapshot, session.draft.pending = some snapshot ∧ (id, snapshot) ∈ session.submitted) ∧
    (∀ id one two, (id, one) ∈ session.submitted → (id, two) ∈ session.submitted → one = two) ∧
    (session.draft.state = .saved → session.confirmed = some session.draft.content) := by
  have sound := Sound.run run
  refine ⟨?_, ?_, sound.recorded, ?_, sound.confirmed⟩
  · intro careful conflicted
    have blocked : Blocked session := careful.invariant nofun fun blocked called => blocked.next called
    exact blocked.allocates conflicted
  · intro locked later after goes on'
    exact (waits_run locked goes on').2
  · intro id one two first second
    exact sound.single fresh first second

def lengths (count : Nat) : String := String.ofList (List.replicate (count + 1) 'r')

theorem lengths_injective : Function.Injective lengths := by
  intro one two same
  have lists := String.ofList_injective same
  have counts := congrArg List.length lists
  rw [List.length_replicate, List.length_replicate] at counts
  exact Nat.succ.inj counts

def retype (text : String) : ContentPatch :=
  ⟨some text, none, none, none, none, none, none, none, none, none, none, none⟩

/-- A submission that ends in a conflict, and one edit behind it. -/
def contested : List Operation := [.beginSubmit, .markConflict "PROMPT_REVISION_STALE" "stale", .editDraft (retype "mine")]

def replay (allocate : Nat → String) (session : Session) (operations : List Operation) : Session := operations.foldl (Session.next allocate) session

theorem contested_run : Run (Called lengths) (.start "new") contested (replay lengths (.start "new") contested) :=
  ((Run.done.snoc ⟨nofun, rfl⟩).snoc ⟨fun _ => Option.some_ne_none _, rfl⟩).snoc ⟨nofun, rfl⟩

/-- One edit behind a conflict keeps the mark. -/
theorem contested_waits : allocates (replay lengths (.start "new") contested).draft = false := by
  have first : Run (Careful lengths) (.start "new") contested (replay lengths (.start "new") contested) :=
    ((Run.done.snoc ⟨⟨nofun, rfl⟩, trivial⟩).snoc ⟨⟨fun _ => Option.some_ne_none _, rfl⟩, trivial⟩).snoc ⟨⟨nofun, rfl⟩, fun both => nomatch both.1⟩
  exact (draft_sequences lengths lengths_injective "new" contested _ contested_run).1 first rfl

/-- A second edit drops the mark, and the next submission takes a new identifier without a rebase. -/
theorem second_edit_allocates : ¬∀ (allocate : Nat → String) (key : String) (operations : List Operation) (session : Session),
    Function.Injective allocate → Run (Called allocate) (.start key) operations session → session.conflicted = true →
      allocates session.draft = false := by
  intro kept
  have edited : Run (Called lengths) (.start "new") (contested ++ [.editDraft (retype "mine again")]) _ :=
    contested_run.snoc ⟨nofun, rfl⟩
  have refused := kept lengths "new" _ _ lengths_injective edited rfl
  revert refused
  decide

end NovelStudio.Prompts
