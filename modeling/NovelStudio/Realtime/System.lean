import NovelStudio.Library.Reservation
import NovelStudio.Realtime.Service

/-! The writer room under any number of clients. Transactions of one scope exclude each
other; between them other writers change the chapters, and at any time a process dies. -/

namespace NovelStudio.Realtime

open Library Experimental

/-- An `apply` on the mainline that has claimed its operation. -/
structure Call where
  caller : Caller
  operationId : String

structure System where
  store : Store
  flights : List (Flight Call)

namespace System

def initial : System := ⟨Store.empty, []⟩

def commit (system : System) (store : Store) : System := { system with store }

end System

inductive Label where
  | quiet
  /-- The writer was called, and its transaction was not committed. -/
  | wrote (operationId : String)
  | applied (operationId : String) (saved : Option Saved)

/-- The operation whose writer a step calls. -/
def Label.writes : Label → Option String
  | .wrote rid | .applied rid _ => some rid
  | .quiet => none

/-- The operation whose write a step commits. -/
def Label.commits : Label → Option String
  | .applied rid _ => some rid
  | _ => none

inductive Step (outside : Outside) : Mode → System → Label → System → Prop where
  /-- A call fails, or only reads. -/
  | idle (mode : Mode) (system : System) : Step outside mode system .quiet system
  | join (done : join outside mode caller contact value fresh seen system.store = .ok (next, row)) :
      Step outside mode system .quiet (system.commit next)
  | transition (done : transition outside mode caller contact rid value system.store = .ok (next, row)) :
      Step outside mode system .quiet (system.commit next)
  | cursor (done : cursor outside mode caller contact rid value system.store = .ok (next, row)) :
      Step outside mode system .quiet (system.commit next)
  /-- The id of a new operation is not in use. -/
  | prepare (unused : fresh ∉ system.store.operations.keys) (unknown : fresh ∉ system.store.manuscript.receipts.keys)
      (done : prepare outside mode caller contact value fresh system.store = .ok (next, row)) :
      Step outside mode system .quiet (system.commit next)
  | cancel (done : cancel outside mode caller contact rid version system.store = .ok (next, row)) :
      Step outside mode system .quiet (system.commit next)
  | recover (done : recover outside mode caller contact rid value system.store = .ok (report, some (next, row))) :
      Step outside mode system .quiet (system.commit next)
  /-- Other services write the manuscript of the branch, under operations of their own. -/
  | foreign (kept : ∀ rid ∈ system.store.operations.keys,
      manuscript.receipts.get? rid = system.store.manuscript.receipts.get? rid) :
      Step outside mode system .quiet (system.commit { system.store with manuscript })
  | applyBranch (done : applyBranch outside caller contact rid version system.store = .committed saved next row) :
      Step outside .branch system (.applied rid saved) (system.commit next)
  | failBranch (done : applyBranch outside caller contact rid version system.store = .failed reason) :
      Step outside .branch system (.wrote rid) system
  /-- The process dies, or the commit fails. -/
  | loseBranch (done : applyBranch outside caller contact rid version system.store = .committed saved next row) :
      Step outside .branch system (.wrote rid) system
  | claim (done : claim outside caller contact rid version system.store = .ok (next, row)) :
      Step outside .mainline system .quiet { system with store := next, flights := system.flights ++ [⟨⟨caller, rid⟩, false⟩] }
  | refuse (inFlight : system.flights = first ++ ⟨call, false⟩ :: rest)
      (done : applyMainline outside call.caller contact call.operationId system.store = .refused reason) :
      Step outside .mainline system .quiet { system with flights := first ++ ⟨call, true⟩ :: rest }
  | fail (inFlight : system.flights = first ++ ⟨call, false⟩ :: rest)
      (done : applyMainline outside call.caller contact call.operationId system.store = .failed reason) :
      Step outside .mainline system (.wrote call.operationId) { system with flights := first ++ ⟨call, true⟩ :: rest }
  | lose (inFlight : system.flights = first ++ ⟨call, false⟩ :: rest)
      (done : applyMainline outside call.caller contact call.operationId system.store = .committed saved next row) :
      Step outside .mainline system (.wrote call.operationId) { system with flights := first ++ ⟨call, true⟩ :: rest }
  | apply (inFlight : system.flights = first ++ ⟨call, false⟩ :: rest)
      (done : applyMainline outside call.caller contact call.operationId system.store = .committed saved next row) :
      Step outside .mainline system (.applied call.operationId saved) { system with store := next, flights := first ++ rest }
  /-- The process dies while the writer runs. -/
  | die (inFlight : system.flights = first ++ ⟨call, false⟩ :: rest)
      (resumed : resume outside call.caller call.operationId system.store = .ok row) :
      Step outside .mainline system (.wrote call.operationId) { system with flights := first ++ rest }
  /-- It dies at any other time. -/
  | crash (inFlight : system.flights = first ++ flight :: rest) :
      Step outside .mainline system .quiet { system with flights := first ++ rest }
  | markUnknown (inFlight : system.flights = first ++ ⟨call, true⟩ :: rest)
      (done : markUnknown outside call.caller call.operationId system.store = .ok next) :
      Step outside .mainline system .quiet { system with store := next, flights := first ++ rest }

end NovelStudio.Realtime

/-! What each transaction does to the operations and to the receipts of the branch. -/

namespace NovelStudio.Realtime

open Library Experimental
open NovelStudio.Manuscript hiding Failure

/-- Statuses that no call leaves. -/
def OperationStatus.terminal : OperationStatus → Bool
  | .cancelled | .applied | .adopted | .closedWithoutReplay => true
  | _ => false

/-- How the status of an operation may change. -/
def StatusStep (before after : OperationStatus) : Prop :=
  (before = .prepared ∧ (after = .claimed ∨ after = .applied)) ∨
  ((before = .prepared ∨ before = .conflict) ∧ after = .cancelled) ∨
  (before = .claimed ∧ (after = .unknown ∨ after = .applied)) ∨
  ((before = .claimed ∨ before = .unknown) ∧ (after = .adopted ∨ after = .closedWithoutReplay))

theorem StatusStep.leaves (step : StatusStep before after) : before.terminal = false := by
  rcases step with ⟨rfl, _⟩ | ⟨rfl | rfl, _⟩ | ⟨rfl, _⟩ | ⟨rfl | rfl, _⟩ <;> rfl

structure RowStep (row next : Row Operation) : Prop where
  createdBy : next.createdBy = row.createdBy
  data : next.data = { row.data with status := next.data.status, resultVersion := next.data.resultVersion }
  status : StatusStep row.data.status next.data.status

/-- What a step does to the operations; a new one is prepared, or in conflict. -/
abbrev OperationsStep := RowsStep RowStep fun next => next.data.status = .prepared ∨ next.data.status = .conflict

/-- A chapter was saved with what the operation prepared. -/
structure Exact (outside : Outside) (row : Operation) (saved : Saved) : Prop where
  chapter : saved.chapterId = row.chapterId
  before : saved.before.version = row.baseVersion
  after : saved.after.version = row.baseVersion + 1
  content : outside.digest saved.after.document = outside.digest row.desiredDocument

theorem saveMainline_ok (done : saveMainline outside book cid expected document = .ok saved) :
    book.get? cid = some saved.before ∧ saved.chapterId = cid ∧ saved.before.version = expected ∧
      saved.after.version = expected + 1 := by
  simp only [saveMainline, bind_ok, fetch_ok, reject_ok, pure_ok, ofLocks_ok] at done
  obtain ⟨current, found, _, same, _, _, _, _, rfl⟩ := done
  have same : expected = current.version := by simpa using same
  exact ⟨found, rfl, same.symm, by rw [same]⟩

theorem branchChapter_ok : branchChapter manuscript cid = .ok row ↔
    manuscript.chapters.get? cid = some row ∧ (decide (row.id ≠ cid) || row.deleted) = false := by
  simp only [branchChapter, bind_ok, fetch_ok, reject_ok, pure_ok]
  constructor
  · rintro ⟨_, found, _, kept, rfl⟩
    exact ⟨found, kept⟩
  · rintro ⟨found, kept⟩
    exact ⟨row, found, (), kept, rfl⟩

variable {manuscript : Manuscript}

theorem updateBranch_ok
    (done : updateBranch outside manuscript cid rid expected document request = .ok (receipt, next, saved)) :
    manuscript.chapters.get? cid = some saved.before ∧ next.chapters.get? cid = some saved.after ∧
      saved.chapterId = cid ∧ saved.before.version = expected ∧ saved.after.version = expected + 1 ∧
      next.receipts = manuscript.receipts.set rid receipt := by
  simp only [updateBranch, bind_ok, fetch_ok, reject_ok, pure_ok, ofLocks_ok, branchChapter_ok, Prod.mk.injEq] at done
  obtain ⟨row, ⟨found, _⟩, _, _, _, same, _, _, _, _, _, _, _, _, _, _, rfl, rfl, rfl⟩ := done
  have same : row.version = expected := by simpa using same
  exact ⟨found, Dict.get?_set_self .., rfl, same, by rw [same], rfl⟩

theorem updateOnce_ok
    (done : updateOnce outside manuscript cid rid expected document request = .ok (receipt, next, saved)) :
    (saved = none ∧ next = manuscript ∧ manuscript.receipts.get? rid = some receipt) ∨
    ∃ write, saved = some write ∧ manuscript.chapters.get? cid = some write.before ∧
      next.chapters.get? cid = some write.after ∧ write.chapterId = cid ∧ write.before.version = expected ∧
      write.after.version = expected + 1 ∧ next.receipts = manuscript.receipts.set rid receipt := by
  unfold updateOnce at done
  split at done
  · rename_i known found
    simp only [bind_ok, reject_ok, pure_ok, Prod.mk.injEq] at done
    obtain ⟨_, _, rfl, rfl, rfl⟩ := done
    exact .inl ⟨rfl, rfl, found⟩
  · simp only [bind_ok, pure_ok, Prod.mk.injEq] at done
    obtain ⟨⟨_, _, write⟩, updated, rfl, rfl, rfl⟩ := done
    exact .inr ⟨write, rfl, updateBranch_ok updated⟩

theorem saveBranch_ok
    (done : saveBranch outside caller contact manuscript cid rid expected document = .ok (receipt, next, saved)) :
    ∃ request, updateOnce outside manuscript cid rid expected document request = .ok (receipt, next, saved) := by
  simp only [saveBranch, bind_ok, pure_ok, Prod.mk.injEq] at done
  obtain ⟨_, _, _, _, _, _, _, _, ⟨_, _, _⟩, updated, _, _, _, _, rfl, rfl, rfl⟩ := done
  exact ⟨_, updated⟩

/-- What a writer does, in either scope. -/
structure Writes (outside : Outside) (mode : Mode) (caller : Caller) (contact : Contact) (rid : String) (row : Operation)
    (store : Store) (written : Committed) : Prop where
  operations : written.store.operations = store.operations
  receipts : ∀ other ≠ rid, written.store.manuscript.receipts.get? other = store.manuscript.receipts.get? other
  /-- Nothing is saved where the branch has a receipt. -/
  replayed : written.saved = none → ∃ receipt, store.manuscript.receipts.get? rid = some receipt
  saved : ∀ ⦃write⦄, written.saved = some write → write.chapterId = row.chapterId ∧
    write.before.version = row.baseVersion ∧ write.after.version = row.baseVersion + 1 ∧
    ∀ ⦃actual⦄, read outside mode caller contact 3 written.store row.chapterId = .ok actual →
      written.receipt.documentDigest = outside.digest actual.document →
      outside.digest write.after.document = outside.digest actual.document

variable {store : Store}

theorem commit_ok (done : commit outside mode caller contact rid row store = .ok written) :
    Writes outside mode caller contact rid row store written := by
  cases mode with
  | mainline =>
    simp only [commit, commitMainline, bind_ok, pure_ok] at done
    obtain ⟨_, _, _, _, _, _, _, _, saved, write, _, _, rfl⟩ := done
    obtain ⟨_, chapter, before, after⟩ := saveMainline_ok write
    refine ⟨rfl, fun _ _ => rfl, nofun, fun found same => ?_⟩
    cases same
    exact ⟨chapter, before, after, fun actual _ same => same⟩
  | branch =>
    simp only [commit, commitBranch, bind_ok, pure_ok] at done
    obtain ⟨_, _, _, _, _, _, ⟨receipt, manuscript, saved⟩, save, rfl⟩ := done
    obtain ⟨request, updated⟩ := saveBranch_ok save
    rcases updateOnce_ok updated with ⟨rfl, rfl, known⟩ | ⟨write, rfl, _, now, chapter, before, after, receipts⟩
    · exact ⟨rfl, fun _ _ => rfl, fun _ => ⟨receipt, known⟩, nofun⟩
    · refine ⟨rfl, fun other different => ?_, nofun, fun found same => ?_⟩
      · simp only [receipts, Dict.get?_set_ne _ _ different]
      · cases same
        refine ⟨chapter, before, after, fun actual seen _ => ?_⟩
        simp only [read, readBranch, bind_ok, branchChapter_ok, pure_ok] at seen
        obtain ⟨_, _, _, _, _, ⟨here, _⟩, _, _, rfl⟩ := seen
        cases here.symm.trans now
        rfl

structure Applies (outside : Outside) (rid : String) (row : Row Operation) (saved : Option Saved) (store next : Store)
    (final : Row Operation) : Prop where
  result : final = bump row fun row => { row with status := .applied, resultVersion := some (row.baseVersion + 1) }
  operations : next.operations = store.operations.set rid final
  receipts : ∀ other ≠ rid, next.manuscript.receipts.get? other = store.manuscript.receipts.get? other
  replayed : saved = none → ∃ receipt, store.manuscript.receipts.get? rid = some receipt
  exact : ∀ ⦃write⦄, saved = some write → Exact outside row.data write

theorem settle_ok {row : Row Operation} (wrote : Writes outside mode caller contact rid row.data store written)
    (done : settle outside mode caller contact rid row written = .ok (next, final)) :
    Applies outside rid row written.saved store next final := by
  simp only [settle, finish, bind_ok, reject_ok, pure_ok, Prod.mk.injEq] at done
  obtain ⟨_, ⟨actual, seen, _, same, _, _, rfl⟩, _, _, rfl, rfl⟩ := done
  simp only [Bool.or_eq_false_iff, decide_eq_false_iff_not, ne_eq, Decidable.not_not] at same
  obtain ⟨⟨⟨⟨⟨_, _⟩, version⟩, actualVersion⟩, content⟩, recorded⟩ := same
  refine ⟨by rw [actualVersion, version]; rfl, ?_, wrote.receipts, wrote.replayed, fun write saved => ?_⟩
  · simp only [wrote.operations]
  · obtain ⟨chapter, before, after, digest⟩ := wrote.saved saved
    exact ⟨chapter, before, after, (digest seen recorded).trans content⟩

theorem perform_committed {row : Row Operation}
    (done : perform outside mode caller contact rid row store = .committed saved next final) :
    Applies outside rid row saved store next final := by
  unfold perform at done
  split at done
  · cases done
  · split at done
    · cases done
    · rename_i written wrote
      split at done
      · cases done
      · rename_i settled
        cases done
        exact settle_ok (commit_ok wrote) settled

@[simp] theorem rowOf_ok {rows : Dict String (Row α)} : rowOf rows rid = .ok row ↔ rows.get? rid = some row := by
  simp [rowOf]

theorem ownedOperation_found (done : ownedOperation outside mode caller store rid require = .ok row) :
    store.operations.get? rid = some row := by
  cases require <;> simp only [ownedOperation, bind_ok, rowOf_ok, pure_ok, if_true, Bool.false_eq_true, if_false] at done
  · obtain ⟨_, found, _, _, rfl⟩ := done
    exact found
  · obtain ⟨_, found, _, _, _, _, _, _, rfl⟩ := done
    exact found

theorem startApply_found (done : startApply outside mode caller contact rid version store = .ok row) :
    store.operations.get? rid = some row ∧ row.data.status = .prepared := by
  simp only [startApply, bind_ok, reject_ok, pure_ok] at done
  obtain ⟨_, _, _, owned, _, _, _, prepared, rfl⟩ := done
  exact ⟨ownedOperation_found owned, by simpa using prepared⟩

theorem resume_found (done : resume outside caller rid store = .ok row) :
    store.operations.get? rid = some row ∧ row.data.status = .claimed := by
  simp only [resume, bind_ok, reject_ok, pure_ok] at done
  obtain ⟨_, owned, _, claimed, rfl⟩ := done
  exact ⟨ownedOperation_found owned, by simpa using claimed⟩

theorem applyBranch_started (called : ∀ reason, applyBranch outside caller contact rid version store ≠ .refused reason) :
    ∃ row, store.operations.get? rid = some row ∧ row.data.status = .prepared ∧
      applyBranch outside caller contact rid version store = perform outside .branch caller contact rid row store := by
  unfold applyBranch at called ⊢
  split at called
  · exact absurd rfl (called _)
  · rename_i row started
    obtain ⟨found, prepared⟩ := startApply_found started
    exact ⟨row, found, prepared, rfl⟩

theorem applyMainline_resumed (called : ∀ reason, applyMainline outside caller contact rid store ≠ .refused reason) :
    ∃ row, store.operations.get? rid = some row ∧ row.data.status = .claimed ∧
      applyMainline outside caller contact rid store = perform outside .mainline caller contact rid row store := by
  unfold applyMainline at called ⊢
  split at called
  · exact absurd rfl (called _)
  · rename_i row resumed
    obtain ⟨found, claimed⟩ := resume_found resumed
    exact ⟨row, found, claimed, rfl⟩

/-- What a transaction does that commits no write. -/
inductive Effect (store next : Store) : Prop where
  | same (operations : next.operations = store.operations)
      (receipts : ∀ rid ∈ store.operations.keys,
        next.manuscript.receipts.get? rid = store.manuscript.receipts.get? rid)
  | added (rid : String) (row : Row Operation) (unused : store.operations.get? rid = none)
      (unknown : store.manuscript.receipts.get? rid = none)
      (status : row.data.status = .prepared ∨ row.data.status = .conflict)
      (operations : next.operations = store.operations.set rid row) (manuscript : next.manuscript = store.manuscript)
  | changed (rid : String) (row after : Row Operation) (operations : next.operations = store.operations.set rid after)
      (manuscript : next.manuscript = store.manuscript) (found : store.operations.get? rid = some row)
      (step : RowStep row after) (unapplied : after.data.status ≠ .applied)

theorem Effect.refl (store : Store) : Effect store store := .same rfl fun _ _ => rfl

theorem join_effect (done : join outside mode caller contact value fresh seen store = .ok (next, row)) : Effect store next := by
  simp only [join, bind_ok] at done
  obtain ⟨_, _, _, _, _, _, _, _, _, _, done⟩ := done
  split at done
  · simp only [bind_ok, pure_ok, Prod.mk.injEq] at done
    obtain ⟨_, _, rfl, _⟩ := done
    exact .refl _
  · simp only [bind_ok, pure_ok, Prod.mk.injEq] at done
    obtain ⟨_, _, _, _, _, _, _, _, rfl, _⟩ := done
    exact .same rfl fun _ _ => rfl

theorem transition_effect (done : transition outside mode caller contact rid value store = .ok (next, row)) :
    Effect store next := by
  simp only [transition, bind_ok] at done
  obtain ⟨_, _, _, _, _, _, _, _, _, _, _, _, done⟩ := done
  split at done
  · simp only [bind_ok, pure_ok, Prod.mk.injEq] at done
    obtain ⟨_, _, _, _, _, _, _, _, _, _, rfl, _⟩ := done
    exact .same rfl fun _ _ => rfl
  · simp only [bind_ok, pure_ok, Prod.mk.injEq] at done
    obtain ⟨_, _, _, _, _, _, rfl, _⟩ := done
    exact .same rfl fun _ _ => rfl

theorem cursor_effect (done : cursor outside mode caller contact rid value store = .ok (next, row)) : Effect store next := by
  simp only [cursor, bind_ok, pure_ok, Prod.mk.injEq] at done
  obtain ⟨_, _, _, _, _, _, _, _, _, _, _, _, _, _, _, _, _, _, rfl, _⟩ := done
  exact .same rfl fun _ _ => rfl

theorem prepare_effect (unused : fresh ∉ store.operations.keys)
    (unknown : fresh ∉ store.manuscript.receipts.keys)
    (done : prepare outside mode caller contact value fresh store = .ok (next, row)) : Effect store next := by
  simp only [prepare, bind_ok] at done
  obtain ⟨_, _, _, _, own, _, done⟩ := done
  split at done
  · simp only [bind_ok, pure_ok, Prod.mk.injEq] at done
    obtain ⟨_, _, rfl, _⟩ := done
    exact .refl _
  · simp only [bind_ok, pure_ok, Prod.mk.injEq, preparedRow] at done
    obtain ⟨row, ⟨_, _, current, _, _, _, rfl⟩, _, _, _, _, rfl, rfl⟩ := done
    refine .added fresh _ (Dict.get?_eq_none_iff.mpr unused) (Dict.get?_eq_none_iff.mpr unknown) ?_ rfl rfl
    simp only [newRow]
    split <;> simp

theorem cancel_effect (done : cancel outside mode caller contact rid version store = .ok (next, row)) : Effect store next := by
  simp only [cancel, bind_ok, reject_ok, pure_ok, Prod.mk.injEq] at done
  obtain ⟨_, _, current, owned, _, _, _, available, _, _, rfl, rfl⟩ := done
  have available : current.data.status = .prepared ∨ current.data.status = .conflict := by
    simpa [Decidable.imp_iff_not_or] using available
  exact .changed rid current _ rfl rfl (ownedOperation_found owned) ⟨rfl, rfl, .inr (.inl ⟨available, rfl⟩)⟩ (by simp [bump])

theorem claim_effect (done : claim outside caller contact rid version store = .ok (next, row)) :
    Effect store next ∧ (∃ was, store.operations.get? rid = some was ∧ was.data.status = .prepared) ∧
      ∃ now, next.operations.get? rid = some now ∧ now.data.status = .claimed := by
  simp only [claim, bind_ok, pure_ok, Prod.mk.injEq] at done
  obtain ⟨was, started, _, _, _, _, rfl, rfl⟩ := done
  obtain ⟨found, prepared⟩ := startApply_found started
  refine ⟨.changed rid was _ rfl rfl found ⟨rfl, rfl, .inl ⟨prepared, .inl rfl⟩⟩ (by simp [bump]), ⟨was, found, prepared⟩, ?_⟩
  exact ⟨_, Dict.get?_set_self .., rfl⟩

theorem markUnknown_effect (done : markUnknown outside caller rid store = .ok next) : Effect store next := by
  simp only [markUnknown, bind_ok, pure_ok] at done
  obtain ⟨row, owned, done⟩ := done
  split at done
  · rename_i claimed
    subst done
    exact .changed rid row _ rfl rfl (ownedOperation_found owned) ⟨rfl, rfl, .inr (.inr (.inl ⟨claimed, .inl rfl⟩))⟩
      (by simp [bump])
  · subst done
    exact .refl _

theorem recover_effect (done : recover outside mode caller contact rid value store = .ok (report, some (next, row))) :
    Effect store next := by
  simp only [recover, bind_ok, reject_ok] at done
  obtain ⟨_, _, current, owned, _, _, _, unresolved, actual, _, _, _, done⟩ := done
  have unresolved : current.data.status = .claimed ∨ current.data.status = .unknown := by
    simpa [Decidable.imp_iff_not_or] using unresolved
  split at done
  · simp [pure_ok] at done
  · simp only [bind_ok, pure_ok, Prod.mk.injEq, Option.some.injEq] at done
    obtain ⟨_, _, _, _, _, rfl, rfl⟩ := done
    refine .changed rid current _ rfl rfl (ownedOperation_found owned) ⟨rfl, rfl, .inr (.inr (.inr ⟨unresolved, ?_⟩))⟩ ?_
    · simp only [bump]
      split <;> simp
    · simp only [bump]
      split <;> simp

end NovelStudio.Realtime
