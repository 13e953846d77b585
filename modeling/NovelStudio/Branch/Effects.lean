import NovelStudio.Branch.Manuscript

/-! What the operations on a branch manuscript do, and what a call that succeeds has checked. -/

namespace NovelStudio.Branch

open Library Experimental

variable {δ : Type} (documents : Documents δ) (scope : BranchScope)

/-- A chapter at its next version, with what it was in its history. -/
structure Advance (row next : Chapter δ) : Prop where
  id : next.id = row.id
  novelId : next.novelId = row.novelId
  scope : next.scope = row.scope
  branchId : next.branchId = row.branchId
  authority : next.authority = row.authority
  number : next.number = row.number
  sortOrder : next.sortOrder = row.sortOrder
  version : next.version = row.version + 1
  history : ∃ kept : Checkpoint δ, next.history = row.history ++ [kept] ∧ kept.version = row.version ∧ kept.document = row.document ∧
    kept.scope = row.scope
  digest : row.documentDigest = documents.digest row.document → next.documentDigest = documents.digest next.document

/-- A chapter as `create` makes it. -/
structure Created (manuscript : Manuscript δ) (cid : String) (row : Chapter δ) : Prop where
  id : ∃ token : Uuid, cid = chapterId scope.novelId token.text
  absent : manuscript.chapters.get? cid = none
  named : row.id = cid ∧ row.novelId = scope.novelId ∧ row.scope = scope ∧ row.branchId = scope.branchId ∧ row.authority = OWNER
  number : row.number = manuscript.nextNumber
  sortOrder : row.sortOrder = nextOrder manuscript
  version : row.version = 1
  history : row.history = []
  digest : row.documentDigest = documents.digest row.document

/-- What an operation makes of a manuscript. -/
inductive Effect (manuscript : Manuscript δ) : Manuscript δ → Prop where
  | same : Effect manuscript manuscript
  | created {cid row next} (made : Created documents scope manuscript cid row) (chapters : next.chapters = manuscript.chapters.set cid row)
      (fields : next.owner = manuscript.owner ∧ next.scope = manuscript.scope ∧ next.nextNumber = manuscript.nextNumber + 1)
      (receipts : next.receipts = manuscript.receipts) : Effect manuscript next
  | advanced {cid row changed next} (there : manuscript.chapters.get? cid = some row) (kept : row.deleted = false)
      (advance : Advance documents row changed) (chapters : next.chapters = manuscript.chapters.set cid changed)
      (fields : next.owner = manuscript.owner ∧ next.scope = manuscript.scope ∧ next.nextNumber = manuscript.nextNumber)
      (receipts : next.receipts = manuscript.receipts ∨ ∃ request operation, request.chapterId = cid ∧
        manuscript.receipts.get? operation = none ∧
        next.receipts = manuscript.receipts.set operation (receiptOf documents scope request changed operation)) : Effect manuscript next
  | moved {order next} (places : order.Perm (Branch.order manuscript)) (chapters : next.chapters = renumbered order manuscript.chapters)
      (fields : next.owner = manuscript.owner ∧ next.scope = manuscript.scope ∧ next.nextNumber = manuscript.nextNumber)
      (receipts : next.receipts = manuscript.receipts) : Effect manuscript next

variable {documents scope} {manuscript next : Manuscript δ}

theorem chapter_ok (done : chapter scope manuscript cid = .ok row) : manuscript.chapters.get? cid = some row ∧ row.deleted = false := by
  simp only [chapter, bind_ok, fetch_ok, reject_ok, pure_ok, Bool.or_eq_false_iff] at done
  obtain ⟨_, found, _, ⟨_, kept⟩, rfl⟩ := done
  exact ⟨found, kept⟩

variable {row : Chapter δ}

theorem compareVersion_ok (done : compareVersion row expected = .ok result) : (row.version : Int) = expected := by
  simp only [compareVersion, bind_ok, reject_ok, decide_eq_false_iff_not, not_not] at done
  obtain ⟨_, _, same⟩ := done
  exact same

theorem checkpoint_ok (done : checkpoint row actor source = .ok kept) :
    kept = { row with history := row.history ++ [⟨row.version, row.document, row.title, row.isArchived, source, actor, row.scope⟩] } := by
  simp only [checkpoint, bind_ok, pure_ok] at done
  obtain ⟨_, _, rfl⟩ := done
  rfl

theorem advance_of_checkpoint {kept : Chapter δ} (done : checkpoint row actor source = .ok kept) (archived deleted : Bool)
    (updatedBy : String) :
    Advance documents row { kept with isArchived := archived, deleted := deleted, version := row.version + 1, updatedBy := updatedBy } := by
  cases checkpoint_ok done
  exact ⟨rfl, rfl, rfl, rfl, rfl, rfl, rfl, rfl, ⟨_, rfl, rfl, rfl, rfl⟩, id⟩

theorem write_ok {stored : Option (Manuscript δ)} {operation : Manuscript δ → Except Failure (Manuscript δ × Answer δ)}
    (done : write documents scope checks recovery stored operation = .ok (result, answer)) :
    ∃ manuscript next, checks.before = .ok () ∧ state scope stored = .ok manuscript ∧ operation manuscript = .ok (next, answer) ∧
      documents.size next ≤ byteLimit recovery ∧ next.receipts.entries.length ≤ MAX_OPERATION_RECEIPTS ∧
      next.audit.length ≤ MAX_AUDIT_ENTRIES ∧ checks.after = .ok () ∧ result = some next := by
  simp only [write, bind_ok, reject_ok, pure_ok, Prod.exists, Prod.mk.injEq, Bool.or_eq_false_iff, decide_eq_false_iff_not, not_lt] at done
  obtain ⟨_, before, manuscript, read, next, _, operated, _, ⟨⟨bytes, receipts⟩, audit⟩, _, after, rfl, rfl⟩ := done
  exact ⟨manuscript, next, before, read, operated, bytes, receipts, audit, after, rfl⟩

theorem add_ok (done : add documents scope title document actor token origin manuscript = .ok (next, answer)) :
    Effect documents scope manuscript next := by
  simp only [add, bind_ok, reject_ok, pure_ok, Prod.mk.injEq] at done
  obtain ⟨_, _, _, fresh, content, _, base, _, rfl, _⟩ := done
  refine .created ⟨⟨token, rfl⟩, ?_, ⟨rfl, rfl, rfl, rfl, rfl⟩, rfl, rfl, rfl, rfl, rfl⟩ rfl ⟨rfl, rfl, rfl⟩ rfl
  rw [Dict.get?_eq_none_iff]
  simpa [Dict.contains] using fresh

theorem saved_ok (done : saved documents request row = .ok changed) :
    Advance documents row changed ∧ (row.version : Int) = request.expectedVersion := by
  simp only [saved, bind_ok, reject_ok, pure_ok] at done
  obtain ⟨_, compared, _, _, prepared, _, content, _, kept, checked, rfl⟩ := done
  rw [checkpoint_ok checked]
  exact ⟨⟨rfl, rfl, rfl, rfl, rfl, rfl, rfl, rfl, ⟨_, rfl, rfl, rfl, rfl⟩, fun _ => rfl⟩, compareVersion_ok compared⟩

theorem saveNew_ok (done : saveNew documents scope request operationId manuscript = .ok (next, answer)) :
    ∃ row changed, manuscript.chapters.get? request.chapterId = some row ∧ row.deleted = false ∧ Advance documents row changed ∧
      (row.version : Int) = request.expectedVersion ∧ next.chapters = manuscript.chapters.set request.chapterId changed ∧
      next.owner = manuscript.owner ∧ next.scope = manuscript.scope ∧ next.nextNumber = manuscript.nextNumber ∧
      next.receipts = (match operationId with
        | none => manuscript.receipts
        | some operation => manuscript.receipts.set operation (receiptOf documents scope request changed operation)) := by
  simp only [saveNew, bind_ok] at done
  obtain ⟨row, found, changed, advanced, done⟩ := done
  obtain ⟨there, kept⟩ := chapter_ok found
  obtain ⟨advance, current⟩ := saved_ok advanced
  refine ⟨row, changed, there, kept, advance, current, ?_⟩
  cases operationId with
  | none =>
    obtain ⟨rfl, _⟩ := Prod.mk.inj (pure_ok.mp done)
    exact ⟨rfl, rfl, rfl, rfl, rfl⟩
  | some operation =>
    obtain ⟨rfl, _⟩ := Prod.mk.inj (pure_ok.mp done)
    exact ⟨rfl, rfl, rfl, rfl, rfl⟩

theorem archive_ok (done : archive scope cid archived expectedVersion actor manuscript = .ok (next, answer)) :
    Effect documents scope manuscript next ∧ ∃ row, manuscript.chapters.get? cid = some row ∧ (row.version : Int) = expectedVersion := by
  simp only [archive, bind_ok] at done
  obtain ⟨row, found, _, compared, done⟩ := done
  obtain ⟨there, kept⟩ := chapter_ok found
  refine ⟨?_, row, there, compareVersion_ok compared⟩
  split at done
  · obtain ⟨rfl, _⟩ := Prod.mk.inj (pure_ok.mp done)
    exact .same
  · simp only [bind_ok, pure_ok, Prod.mk.injEq] at done
    obtain ⟨held, checked, rfl, _⟩ := done
    exact .advanced there kept (advance_of_checkpoint checked archived held.deleted actor) rfl ⟨rfl, rfl, rfl⟩ (.inl rfl)

theorem remove_ok (done : remove scope cid expectedVersion actor manuscript = .ok (next, answer)) :
    Effect documents scope manuscript next ∧ ∃ row, manuscript.chapters.get? cid = some row ∧ (row.version : Int) = expectedVersion := by
  simp only [remove, bind_ok, pure_ok, Prod.mk.injEq] at done
  obtain ⟨row, found, _, compared, _, _, held, checked, rfl, _⟩ := done
  obtain ⟨there, kept⟩ := chapter_ok found
  refine ⟨?_, row, there, compareVersion_ok compared⟩
  exact .advanced there kept (advance_of_checkpoint checked held.isArchived true actor) rfl ⟨rfl, rfl, rfl⟩ (.inl rfl)

theorem swap_perm (items : List String) (index other : Nat) : (swap items index other).Perm items := by
  unfold swap
  split
  · rename_i first second here there
    obtain ⟨low, rfl⟩ := List.getElem?_eq_some_iff.mp here
    obtain ⟨high, rfl⟩ := List.getElem?_eq_some_iff.mp there
    exact List.set_set_perm low high
  · exact List.Perm.refl _

theorem moveChapter_ok (done : moveChapter scope cid up expectedRevision manuscript = .ok (next, answer)) :
    Effect documents scope manuscript next ∧ (manuscript.revision : Int) = expectedRevision := by
  simp only [moveChapter, bind_ok, reject_ok, decide_eq_false_iff_not, not_not] at done
  obtain ⟨_, current, _, _, _, _, done⟩ := done
  refine ⟨?_, current⟩
  split at done
  · obtain ⟨rfl, _⟩ := Prod.mk.inj (pure_ok.mp done)
    exact .same
  · obtain ⟨rfl, _⟩ := Prod.mk.inj (pure_ok.mp done)
    exact .moved (swap_perm _ _ _) rfl ⟨rfl, rfl, rfl⟩ rfl

theorem update_ok (done : update documents scope request operationId manuscript = .ok (next, answer)) :
    (∃ operation receipt, operationId = some operation ∧ manuscript.receipts.get? operation = some receipt ∧
        receipt.requestDigest = documents.requestDigest request ∧ next = manuscript ∧ answer = .receipt receipt) ∨
      (∀ operation, operationId = some operation → manuscript.receipts.get? operation = none) ∧
        saveNew documents scope request operationId manuscript = .ok (next, answer) := by
  unfold update at done
  split at done
  · rename_i receipt found
    simp only [bind_ok, reject_ok, pure_ok, Prod.mk.injEq, decide_eq_false_iff_not, not_not] at done
    obtain ⟨_, same, rfl, rfl⟩ := done
    obtain ⟨operation, rfl, found⟩ := Option.bind_eq_some_iff.mp found
    exact .inl ⟨operation, receipt, rfl, found, same, rfl, rfl⟩
  · rename_i absent
    refine .inr ⟨?_, done⟩
    rintro operation rfl
    exact absent

theorem update_effect (done : update documents scope request operationId manuscript = .ok (next, answer)) :
    Effect documents scope manuscript next := by
  rcases update_ok done with ⟨_, _, _, _, _, rfl, _⟩ | ⟨absent, done⟩
  · exact .same
  · obtain ⟨row, changed, there, kept, advance, _, chapters, owner, inScope, allocated, receipts⟩ := saveNew_ok done
    refine .advanced there kept advance chapters ⟨owner, inScope, allocated⟩ ?_
    cases operationId with
    | none => exact .inl receipts
    | some operation => exact .inr ⟨request, operation, rfl, absent operation rfl, receipts⟩

end NovelStudio.Branch
