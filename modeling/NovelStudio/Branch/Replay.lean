import NovelStudio.Branch.Runs

/-! Saves that are sent again under their operation id: what answers them, and that an id
never causes a second version. -/

namespace NovelStudio.Branch

open Library Experimental

variable {δ : Type} {documents : Documents δ} {scope : BranchScope} {stored : Option (Manuscript δ)} {manuscript next : Manuscript δ}

/-- A receipt that the save of a request has left, and what the save has checked. -/
structure Issued (documents : Documents δ) (request : Request δ) (operation : String) (receipt : Receipt δ) : Prop where
  valid : documents.validated request.document = .ok ()
  named : operation ≠ "" ∧ operation.length ≤ 200
  digest : receipt.requestDigest = documents.requestDigest request
  chapter : receipt.chapterId = request.chapterId

theorem add_receipts (done : add documents scope title document actor token origin manuscript = .ok (next, answer)) :
    next.receipts = manuscript.receipts := by
  simp only [add, bind_ok, pure_ok, Prod.mk.injEq] at done
  obtain ⟨_, _, _, _, _, _, _, _, rfl, _⟩ := done
  rfl

theorem archive_receipts (done : archive scope cid archived expectedVersion actor manuscript = .ok (next, answer)) :
    next.receipts = manuscript.receipts := by
  simp only [archive, bind_ok] at done
  obtain ⟨_, _, _, _, done⟩ := done
  split at done
  · obtain ⟨rfl, _⟩ := Prod.mk.inj (pure_ok.mp done)
    rfl
  · simp only [bind_ok, pure_ok, Prod.mk.injEq] at done
    obtain ⟨_, _, rfl, _⟩ := done
    rfl

theorem remove_receipts (done : remove scope cid expectedVersion actor manuscript = .ok (next, answer)) :
    next.receipts = manuscript.receipts := by
  simp only [remove, bind_ok, pure_ok, Prod.mk.injEq] at done
  obtain ⟨_, _, _, _, _, _, _, _, rfl, _⟩ := done
  rfl

theorem moveChapter_receipts (done : moveChapter scope cid up expectedRevision manuscript = .ok (next, answer)) :
    next.receipts = manuscript.receipts := by
  simp only [moveChapter, bind_ok] at done
  obtain ⟨_, _, _, _, _, _, done⟩ := done
  split at done <;>
    · obtain ⟨rfl, _⟩ := Prod.mk.inj (pure_ok.mp done)
      rfl

theorem saveNew_receipt (done : saveNew documents scope request (some operation) manuscript = .ok (next, answer)) :
    ∃ row, answer = .receipt (receiptOf documents scope request row operation) ∧
      next.receipts = manuscript.receipts.set operation (receiptOf documents scope request row operation) := by
  simp only [saveNew, bind_ok, pure_ok, Prod.mk.injEq] at done
  obtain ⟨_, _, changed, _, rfl, rfl⟩ := done
  exact ⟨changed, rfl, rfl⟩

theorem perform_receipts {call : Call δ} (sound : Sound documents scope (current scope stored))
    (done : perform documents scope call checks stored = .ok (some next, answer)) :
    next.receipts = (current scope stored).receipts ∨
      ∃ request operation receipt, call = .save request (some operation) ∧ Issued documents request operation receipt ∧
        (current scope stored).receipts.get? operation = none ∧ next.receipts = (current scope stored).receipts.set operation receipt ∧
        answer = .receipt receipt := by
  have read := state_current sound
  cases call with
  | create nid payload actor token origin =>
    simp only [perform, create, bind_ok] at done
    obtain ⟨_, _, _, _, _, _, done⟩ := done
    obtain ⟨_, _, _, state, operated, _, _, _, _, same⟩ := write_ok done
    cases same
    cases read.symm.trans state
    exact .inl (add_receipts operated)
  | save request operationId =>
    simp only [perform, save, bind_ok, reject_ok] at done
    obtain ⟨_, valid, _, named, done⟩ := done
    obtain ⟨_, _, _, state, operated, _, _, _, _, same⟩ := write_ok done
    cases same
    cases read.symm.trans state
    rcases update_ok operated with ⟨_, _, _, _, _, rfl, _⟩ | ⟨absent, saved⟩
    · exact .inl rfl
    · cases operationId with
      | none =>
        obtain ⟨_, _, _, _, _, _, _, _, _, _, receipts⟩ := saveNew_ok saved
        exact .inl receipts
      | some operation =>
        obtain ⟨row, answered, receipts⟩ := saveNew_receipt saved
        simp only [Option.any_some, Bool.or_eq_false_iff, decide_eq_false_iff_not, not_lt] at named
        exact .inr ⟨request, operation, _, rfl, ⟨valid, named, rfl, rfl⟩, absent operation rfl, receipts, answered⟩
  | restore cid version expectedVersion actor =>
    simp only [perform, restore, save, bind_ok] at done
    obtain ⟨_, _, _, _, _, _, _, _, _, _, done⟩ := done
    obtain ⟨_, _, _, state, operated, _, _, _, _, same⟩ := write_ok done
    cases same
    cases read.symm.trans state
    rcases update_ok operated with ⟨_, _, asked, _⟩ | ⟨_, saved⟩
    · cases asked
    · obtain ⟨_, _, _, _, _, _, _, _, _, _, receipts⟩ := saveNew_ok saved
      exact .inl receipts
  | setArchived cid archived expectedVersion actor =>
    obtain ⟨_, _, _, state, operated, _, _, _, _, same⟩ := write_ok done
    cases same
    cases read.symm.trans state
    exact .inl (archive_receipts operated)
  | delete cid expectedVersion actor =>
    obtain ⟨_, _, _, state, operated, _, _, _, _, same⟩ := write_ok done
    cases same
    cases read.symm.trans state
    exact .inl (remove_receipts operated)
  | move cid direction expectedRevision =>
    simp only [perform, move, bind_ok] at done
    obtain ⟨_, _, done⟩ := done
    obtain ⟨_, _, _, state, operated, _, _, _, _, same⟩ := write_ok done
    cases same
    cases read.symm.trans state
    exact .inl (moveChapter_receipts operated)

theorem receipt_issued (calls : List (Call δ × Checks))
    (found : (current scope (run documents scope none calls)).receipts.get? operation = some receipt) :
    ∃ before request checks rest, calls = before ++ (Call.save request (some operation), checks) :: rest ∧
      (transact documents scope (run documents scope none before) (.save request (some operation), checks)).2 = .ok (.receipt receipt) ∧
      Issued documents request operation receipt := by
  induction calls using List.reverseRecOn with
  | nil => cases found
  | append_singleton calls call ih =>
    have earlier : (current scope (run documents scope none calls)).receipts.get? operation = some receipt → ∃ before request checks rest,
        calls ++ [call] = before ++ (Call.save request (some operation), checks) :: rest ∧
        (transact documents scope (run documents scope none before) (.save request (some operation), checks)).2 = .ok (.receipt receipt) ∧
        Issued documents request operation receipt := by
      intro found
      obtain ⟨before, request, checks, rest, rfl, answered, issued⟩ := ih found
      exact ⟨before, request, checks, rest ++ [call], by simp, answered, issued⟩
    rw [run_snoc] at found
    rcases transact_cases documents scope (run documents scope none calls) call with ⟨_, done⟩ | ⟨next, answer, done, performed, _⟩
    · rw [done] at found
      exact earlier found
    · have sound := reachable_sound documents scope calls
      obtain ⟨next, rfl, _⟩ := perform_ok sound performed
      rw [done] at found
      rcases perform_receipts sound performed with same | ⟨request, added, issuedReceipt, asked, issued, _, receipts, rfl⟩
      · exact earlier (by rw [← same]; exact found)
      · have found' : next.receipts.get? operation = some receipt := found
        rw [receipts, Dict.get?_set] at found'
        split at found'
        · rename_i here
          cases found'
          subst here
          obtain ⟨called, checks⟩ := call
          cases asked
          exact ⟨calls, request, checks, [], rfl, by rw [done], issued⟩
        · exact earlier found'

/-- Nothing stops a save that is sent again: the checks pass, and the manuscript has not
outgrown what a save of this source may leave behind. -/
def Room (documents : Documents δ) (manuscript : Manuscript δ) (source : String) (checks : Checks) : Prop :=
  checks.before = .ok () ∧ documents.size manuscript ≤ byteLimit (source = "RESTORE") ∧ checks.after = .ok () ∧ checks.commit = .ok ()

theorem perform_again (sound : Sound documents scope manuscript) (within : Within documents manuscript)
    (found : manuscript.receipts.get? operation = some receipt) (issued : Issued documents request operation receipt) (checks : Checks) :
    perform documents scope (.save request (some operation)) checks (some manuscript) = (do
      checks.before
      reject (documents.size manuscript > byteLimit (request.source = "RESTORE")) (.value "BRANCH_CAPACITY_REVIEW_REQUIRED")
      checks.after
      return (some manuscript, .receipt receipt)) := by
  have receipts : ¬ manuscript.receipts.entries.length > MAX_OPERATION_RECEIPTS := by
    have := within.receipts
    omega
  have audit : ¬ manuscript.audit.length > MAX_AUDIT_ENTRIES := by
    have := within.audit
    omega
  have short : ¬ operation.length > 200 := by
    have := issued.named.2
    omega
  have answered : update documents scope request (some operation) manuscript = .ok (manuscript, .receipt receipt) := by
    simp [update, found, issued.digest, reject, bind, Except.bind, pure, Except.pure]
  simp only [perform, save, issued.valid, write, state_of_sound sound, Option.any_some, issued.named.1, short, decide_false, Bool.or_false,
    reject, Bool.false_eq_true, if_false, bind, Except.bind, pure, Except.pure]
  cases checks.before with
  | error failure => rfl
  | ok => simp only [answered, receipts, audit, decide_false, Bool.or_false]

theorem stored_of_receipt (found : (current scope stored).receipts.get? operation = some receipt) :
    stored = some (current scope stored) := by
  cases stored with
  | none => cases found
  | some manuscript => rfl

theorem transact_again (sound : Sound documents scope (current scope stored)) (within : Within documents (current scope stored))
    (found : (current scope stored).receipts.get? operation = some receipt) (issued : Issued documents request operation receipt)
    (checks : Checks) :
    transact documents scope stored (.save request (some operation), checks) = (stored, .ok (.receipt receipt)) ↔
      Room documents (current scope stored) request.source checks := by
  have performed := perform_again sound within found issued checks
  rw [← stored_of_receipt found] at performed
  unfold transact Room
  rw [performed]
  cases before : checks.before with
  | error failure => simp [bind, Except.bind]
  | ok =>
    by_cases fits : documents.size (current scope stored) ≤ byteLimit (request.source = "RESTORE")
    · have small : ¬ documents.size (current scope stored) > byteLimit (request.source = "RESTORE") := by omega
      cases after : checks.after with
      | error failure => simp [small, reject, bind, Except.bind, pure, Except.pure]
      | ok =>
        cases commit : checks.commit <;>
          simp [small, fits, reject, bind, Except.bind, pure, Except.pure]
    · have large : documents.size (current scope stored) > byteLimit (request.source = "RESTORE") := by omega
      simp [fits, large, reject, bind, Except.bind, throw, throwThe, MonadExceptOf.throw]

theorem transact_under_receipt (sound : Sound documents scope (current scope stored))
    (found : (current scope stored).receipts.get? operation = some receipt) (request : Request δ) (checks : Checks) :
    (transact documents scope stored (.save request (some operation), checks)).1 = stored ∧
      (documents.requestDigest request ≠ receipt.requestDigest →
        ∃ failure, transact documents scope stored (.save request (some operation), checks) = (stored, .error failure)) := by
  rcases transact_cases documents scope stored (.save request (some operation), checks) with
    ⟨failure, done⟩ | ⟨next, answer, done, performed, _⟩
  · exact ⟨by rw [done], fun _ => ⟨failure, done⟩⟩
  · simp only [perform, save, bind_ok] at performed
    obtain ⟨_, _, _, _, written⟩ := performed
    obtain ⟨_, _, _, state, operated, _, _, _, _, rfl⟩ := write_ok written
    cases (state_current sound).symm.trans state
    rcases update_ok operated with ⟨operation', receipt', asked, found', digest, rfl, _⟩ | ⟨absent, _⟩
    · cases asked
      cases found.symm.trans found'
      exact ⟨by rw [done]; exact (stored_of_receipt found).symm, fun differ => (differ digest.symm).elim⟩
    · rw [absent operation rfl] at found
      cases found

/-- The version that a chapter is at, where it exists. -/
def versionAt (scope : BranchScope) (stored : Option (Manuscript δ)) (cid : String) : Option Nat :=
  ((current scope stored).chapters.get? cid).map (·.version)

/-- A transaction that is a save under an id and changes the version of its chapter. -/
def raisesUnder (documents : Documents δ) (scope : BranchScope) (operation : String) (stored : Option (Manuscript δ))
    (call : Call δ × Checks) : Bool :=
  match call.1 with
  | .save request (some id) =>
    id = operation && versionAt scope (transact documents scope stored call).1 request.chapterId ≠ versionAt scope stored request.chapterId
  | _ => false

/-- How many versions the saves under an id caused. -/
def versionsUnder (documents : Documents δ) (scope : BranchScope) (operation : String) (stored : Option (Manuscript δ)) :
    List (Call δ × Checks) → Nat
  | [] => 0
  | call :: rest =>
    (if raisesUnder documents scope operation stored call then 1 else 0) +
      versionsUnder documents scope operation (transact documents scope stored call).1 rest

theorem save_of_raisesUnder {call : Call δ × Checks} (raised : raisesUnder documents scope operation stored call = true) :
    ∃ request checks, call = (.save request (some operation), checks) ∧
      versionAt scope (transact documents scope stored call).1 request.chapterId ≠ versionAt scope stored request.chapterId := by
  obtain ⟨call, checks⟩ := call
  cases call with
  | save request id =>
    cases id with
    | none => cases raised
    | some id =>
      simp only [raisesUnder, Bool.and_eq_true, decide_eq_true_eq] at raised
      obtain ⟨rfl, changed⟩ := raised
      exact ⟨request, checks, rfl, changed⟩
  | create | restore | setArchived | delete | move => cases raised

theorem raisesUnder_receipt (sound : Sound documents scope (current scope stored))
    (found : (current scope stored).receipts.get? operation = some receipt) (call : Call δ × Checks) :
    raisesUnder documents scope operation stored call = false := by
  rw [← Bool.not_eq_true]
  intro raised
  obtain ⟨request, checks, rfl, changed⟩ := save_of_raisesUnder raised
  exact changed (by rw [(transact_under_receipt sound found request checks).1])

theorem versionsUnder_receipt (sound : Sound documents scope (current scope stored))
    (found : (current scope stored).receipts.get? operation = some receipt) (calls : List (Call δ × Checks)) :
    versionsUnder documents scope operation stored calls = 0 := by
  induction calls generalizing stored with
  | nil => rfl
  | cons call rest ih =>
    have effect := transact_effect sound call
    rw [versionsUnder, raisesUnder_receipt sound found call, ih (effect.sound sound) ((effect.extends sound).receipts found)]
    rfl

theorem receipt_of_raises (sound : Sound documents scope (current scope stored)) {call : Call δ × Checks}
    (raised : raisesUnder documents scope operation stored call = true) :
    ∃ receipt, (current scope (transact documents scope stored call).1).receipts.get? operation = some receipt := by
  obtain ⟨request, checks, rfl, changed⟩ := save_of_raisesUnder raised
  rcases transact_cases documents scope stored (.save request (some operation), checks) with ⟨_, done⟩ | ⟨next, answer, done, performed, _⟩
  · rw [done] at changed
    exact (changed rfl).elim
  · simp only [perform, save, bind_ok] at performed
    obtain ⟨_, _, _, _, written⟩ := performed
    obtain ⟨_, next, _, state, operated, _, _, _, _, rfl⟩ := write_ok written
    cases (state_current sound).symm.trans state
    rcases update_ok operated with ⟨_, _, _, _, _, rfl, _⟩ | ⟨absent, saved⟩
    · rw [done] at changed
      exact (changed rfl).elim
    · obtain ⟨row, _, receipts⟩ := saveNew_receipt saved
      exact ⟨_, by rw [done, current, Option.getD_some, receipts, Dict.get?_set_self]⟩

theorem versionsUnder_le_one (sound : Sound documents scope (current scope stored)) (calls : List (Call δ × Checks)) :
    versionsUnder documents scope operation stored calls ≤ 1 := by
  induction calls generalizing stored with
  | nil => exact Nat.zero_le _
  | cons call rest ih =>
    rw [versionsUnder]
    have sound' := (transact_effect sound call).sound sound
    cases raised : raisesUnder documents scope operation stored call with
    | false => simpa using ih sound'
    | true =>
      obtain ⟨receipt, found⟩ := receipt_of_raises sound raised
      rw [versionsUnder_receipt sound' found]
      simp

/-- What the receipt of a request means for whoever saves under its id. -/
structure Answered (documents : Documents δ) (scope : BranchScope) (operation : String) (receipt : Receipt δ) (request : Request δ)
    (stored : Option (Manuscript δ)) : Prop where
  kept : (current scope stored).receipts.get? operation = some receipt
  again : ∀ checks, transact documents scope stored (.save request (some operation), checks) = (stored, .ok (.receipt receipt)) ↔
    Room documents (current scope stored) request.source checks
  other : ∀ other checks, documents.requestDigest other ≠ documents.requestDigest request →
    ∃ failure, transact documents scope stored (.save other (some operation), checks) = (stored, .error failure)
  document : ∃ row saved, (current scope stored).chapters.get? receipt.chapterId = some row ∧
    row.documentAt receipt.afterVersion = some saved ∧ receipt.documentDigest = documents.digest saved

/-- In every run an id causes at most one version. A receipt is the answer of a save of the
run, and whatever calls follow, that save is answered by it again just when nothing stops it,
and any other save under its id raises. -/
theorem saves_answered_again (documents : Documents δ) (scope : BranchScope) (calls later : List (Call δ × Checks)) :
    (∀ operation, versionsUnder documents scope operation none (calls ++ later) ≤ 1) ∧
      ∀ {operation receipt}, (current scope (run documents scope none calls)).receipts.get? operation = some receipt →
        ∃ before request checks rest, calls = before ++ (Call.save request (some operation), checks) :: rest ∧
          (transact documents scope (run documents scope none before) (.save request (some operation), checks)).2 = .ok (.receipt receipt) ∧
          Answered documents scope operation receipt request (run documents scope none (calls ++ later)) := by
  refine ⟨fun operation => versionsUnder_le_one sound_empty (calls ++ later), fun {operation receipt} found => ?_⟩
  obtain ⟨before, request, checks, rest, split, answered, issued⟩ := receipt_issued calls found
  have sound := reachable_sound documents scope (calls ++ later)
  have kept : (current scope (run documents scope none (calls ++ later))).receipts.get? operation = some receipt := by
    rw [run_append]
    exact (run_sound (reachable_sound documents scope calls) later).2.receipts found
  have within := run_within (calls ++ later) _ (stored_of_receipt kept)
  refine ⟨before, request, checks, rest, split, answered, kept, fun checks => transact_again sound within kept issued checks,
    fun other checks differ => ?_, (sound.receipts kept).document⟩
  exact (transact_under_receipt sound kept other checks).2 (issued.digest ▸ differ)

/-- A chapter of the largest document is saved under an id. -/
def savedOnce : List (Call Nat × Checks) := [(sampleCreate, passing), (sampleSave, passing)]

/-- It is saved until no further save fits, and then its first version is restored. -/
def filled : List (Call Nat × Checks) :=
  ((List.range' 2 28).map fun version => (.save { sampleRequest with expectedVersion := version } none, passing)) ++
    [(.restore sampleId 1 30 "author", passing)]

/-- The receipt of a store under an id, by the version it names. -/
def receiptVersion (stored : Option (Manuscript Nat)) (operation : String) : Option Nat :=
  ((current sampleScope stored).receipts.get? operation).map Receipt.afterVersion

/-- The save of a chapter is answered while there is room. -/
theorem saves_answered_again_sample : ∃ receipt before request checks rest,
    savedOnce = before ++ (Call.save request (some "o"), checks) :: rest ∧
      (transact sizedDocuments sampleScope (run sizedDocuments sampleScope none before) (.save request (some "o"), checks)).2 =
        .ok (.receipt receipt) ∧
      Answered sizedDocuments sampleScope "o" receipt request (run sizedDocuments sampleScope none (savedOnce ++ filled)) := by
  have there : ((current sampleScope (run sizedDocuments sampleScope none savedOnce)).receipts.get? "o").isSome = true := by decide +kernel
  obtain ⟨receipt, found⟩ := Option.isSome_iff_exists.mp there
  exact ⟨receipt, (saves_answered_again sizedDocuments sampleScope savedOnce filled).2 found⟩

/-- Once the restored version has taken the manuscript beyond the limit of a save, the save that
left the receipt is refused when it is sent again. -/
theorem retry_refused :
    receiptVersion (run sizedDocuments sampleScope none (savedOnce ++ filled)) "o" = some 2 ∧
      versionOf (run sizedDocuments sampleScope none (savedOnce ++ filled)) sampleId = some 31 ∧
      ∃ failure, (transact sizedDocuments sampleScope (run sizedDocuments sampleScope none (savedOnce ++ filled)) (sampleSave, passing)).2 =
        .error failure :=
  ⟨by decide +kernel, by decide +kernel, error_of_endsWith _ (by decide +kernel)⟩

end NovelStudio.Branch
