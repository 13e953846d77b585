import Mathlib.Data.List.Induction
import NovelStudio.Branch.History

/-! Calls of any clients, one transaction after another: every manuscript they lead to is
sound, and goes on from the ones before it. -/

namespace NovelStudio.Branch

open Library Experimental

variable {δ : Type} (documents : Documents δ) (scope : BranchScope)

/-- The manuscript that is stored, or the one a branch starts with. -/
def current (stored : Option (Manuscript δ)) : Manuscript δ := stored.getD (emptyManuscript scope)

/-- A manuscript within the capacity of the repository. -/
structure Within (manuscript : Manuscript δ) : Prop where
  bytes : documents.size manuscript ≤ MAX_MANUSCRIPT_BYTES
  receipts : manuscript.receipts.entries.length ≤ MAX_OPERATION_RECEIPTS
  audit : manuscript.audit.length ≤ MAX_AUDIT_ENTRIES

/-- The version that a call was made against is the present one. A save whose id has a
receipt is not made against any. -/
def Against (manuscript : Manuscript δ) : Call δ → Prop
  | .create .. => True
  | .save request operationId =>
    (∃ operation receipt, operationId = some operation ∧ manuscript.receipts.get? operation = some receipt) ∨
      ∃ row, manuscript.chapters.get? request.chapterId = some row ∧ (row.version : Int) = request.expectedVersion
  | .restore cid _ expected _ | .setArchived cid _ expected _ | .delete cid expected _ =>
    ∃ row, manuscript.chapters.get? cid = some row ∧ (row.version : Int) = expected
  | .move _ _ expected => (manuscript.revision : Int) = expected

variable {documents scope} {stored result : Option (Manuscript δ)} {manuscript next : Manuscript δ}

theorem identityValid_of_entry (sound : Sound documents scope manuscript) :
    manuscript.chapters.entries.all (fun entry => identityValid scope entry.1 entry.2) = true :=
  List.all_eq_true.mpr fun _ member => (sound.chapters (Dict.get?_eq_some_iff.mpr member)).identity

theorem numbers_nodup (sound : Sound documents scope manuscript) : (numbers manuscript).Nodup := by
  rw [numbers, Dict.values, List.map_map]
  refine List.Nodup.map_on (fun one member other member' same => ?_) manuscript.chapters.distinct.of_map
  have found := Dict.get?_eq_some_iff.mpr (show (one.1, one.2) ∈ _ from member)
  have found' := Dict.get?_eq_some_iff.mpr (show (other.1, other.2) ∈ _ from member')
  have key := sound.numbers found found' same
  rw [key, found'] at found
  exact Prod.ext key (Option.some.inj found).symm

theorem historyValid_of_sound {row : Chapter δ} (sound : ChapterSound documents scope nextNumber cid row) : historyValid scope row = true := by
  simp only [historyValid, Bool.and_eq_true, List.all_eq_true, decide_eq_true_eq]
  refine ⟨fun kept member => ?_, sound.versions ▸ List.nodup_range'⟩
  have version : kept.version ∈ row.history.map Checkpoint.version := List.mem_map.mpr ⟨kept, member, rfl⟩
  rw [sound.versions, List.mem_range'_1] at version
  simp only [checkpointValid, Bool.and_eq_true, decide_eq_true_eq]
  exact ⟨⟨sound.within kept member, version.1⟩, by omega⟩

theorem state_of_sound (sound : Sound documents scope manuscript) : state scope (some manuscript) = .ok manuscript := by
  have owner : (manuscript.owner ≠ OWNER || manuscript.scope ≠ scope) = false := by simp [sound.owner.1, sound.owner.2]
  have histories : manuscript.chapters.values.all (historyValid scope) = true := by
    refine List.all_eq_true.mpr fun row member => ?_
    obtain ⟨cid, found⟩ := Dict.mem_values_iff.mp member
    exact historyValid_of_sound (sound.chapters found)
  have allocation : ((numbers manuscript).any (manuscript.nextNumber ≤ ·) || manuscript.nextNumber = 0) = false := by
    have allocated := sound.allocated
    simp only [Bool.or_eq_false_iff, List.any_eq_false, decide_eq_true_eq, decide_eq_false_iff_not, numbers, List.mem_map]
    refine ⟨?_, by omega⟩
    rintro _ ⟨row, member, rfl⟩
    obtain ⟨cid, found⟩ := Dict.mem_values_iff.mp member
    have := (sound.chapters found).number
    omega
  have receipts : (manuscript.receipts.entries.any fun entry => entry.2.scope ≠ scope || entry.2.operationId ≠ entry.1) = false := by
    simp only [List.any_eq_false]
    intro entry member
    have found := sound.receipts (Dict.get?_eq_some_iff.mpr member)
    simp [found.scope, found.operation]
  simp only [state, owner, identityValid_of_entry sound, numbers_nodup sound, histories, allocation, receipts, decide_true, Bool.and_self,
    Bool.not_true, reject, Bool.false_eq_true, if_false, pure_bind]
  rfl

theorem sound_empty : Sound documents scope (current scope none) where
  owner := ⟨rfl, rfl⟩
  allocated := le_refl _
  chapters found := nomatch found
  numbers found := nomatch found
  orders found := nomatch found
  receipts found := nomatch found

theorem state_current (sound : Sound documents scope (current scope stored)) : state scope stored = .ok (current scope stored) := by
  cases stored with
  | none => rfl
  | some manuscript => exact state_of_sound sound

/-- What a call inside its transaction does: it reads what is stored, has an effect within the
capacity, and was made against the present version. -/
theorem perform_ok {call : Call δ} (sound : Sound documents scope (current scope stored))
    (done : perform documents scope call checks stored = .ok (result, answer)) :
    ∃ next, result = some next ∧ Effect documents scope (current scope stored) next ∧ Within documents next ∧
      Against (current scope stored) call := by
  have byteLimit_le : ∀ recovery, byteLimit recovery ≤ MAX_MANUSCRIPT_BYTES := by decide
  have read := state_current sound
  cases call with
  | create nid payload actor token origin =>
    simp only [perform, create, bind_ok] at done
    obtain ⟨_, _, _, _, _, _, done⟩ := done
    obtain ⟨manuscript, next, _, state, operated, bytes, receipts, audit, _, rfl⟩ := write_ok done
    cases read.symm.trans state
    exact ⟨next, rfl, add_ok operated, ⟨bytes.trans (byteLimit_le _), receipts, audit⟩, trivial⟩
  | save request operationId =>
    simp only [perform, save, bind_ok] at done
    obtain ⟨_, _, _, _, done⟩ := done
    obtain ⟨manuscript, next, _, state, operated, bytes, receipts, audit, _, rfl⟩ := write_ok done
    cases read.symm.trans state
    refine ⟨next, rfl, update_effect operated, ⟨bytes.trans (byteLimit_le _), receipts, audit⟩, ?_⟩
    rcases update_ok operated with ⟨operation, receipt, asked, found, _⟩ | ⟨_, saved⟩
    · exact .inl ⟨operation, receipt, asked, found⟩
    · obtain ⟨row, _, there, _, _, version, _⟩ := saveNew_ok saved
      exact .inr ⟨row, there, version⟩
  | restore cid version expectedVersion actor =>
    simp only [perform, restore, save, bind_ok] at done
    obtain ⟨_, _, _, _, _, _, _, _, _, _, done⟩ := done
    obtain ⟨manuscript, next, _, state, operated, bytes, receipts, audit, _, rfl⟩ := write_ok done
    cases read.symm.trans state
    refine ⟨next, rfl, update_effect operated, ⟨bytes.trans (byteLimit_le _), receipts, audit⟩, ?_⟩
    rcases update_ok operated with ⟨_, _, asked, _⟩ | ⟨_, saved⟩
    · cases asked
    · obtain ⟨row, _, there, _, _, version, _⟩ := saveNew_ok saved
      exact ⟨row, there, version⟩
  | setArchived cid archived expectedVersion actor =>
    obtain ⟨manuscript, next, _, state, operated, bytes, receipts, audit, _, rfl⟩ := write_ok done
    cases read.symm.trans state
    obtain ⟨effect, against⟩ := archive_ok operated
    exact ⟨next, rfl, effect, ⟨bytes.trans (byteLimit_le _), receipts, audit⟩, against⟩
  | delete cid expectedVersion actor =>
    obtain ⟨manuscript, next, _, state, operated, bytes, receipts, audit, _, rfl⟩ := write_ok done
    cases read.symm.trans state
    obtain ⟨effect, against⟩ := remove_ok operated
    exact ⟨next, rfl, effect, ⟨bytes.trans (byteLimit_le _), receipts, audit⟩, against⟩
  | move cid direction expectedRevision =>
    simp only [perform, move, bind_ok] at done
    obtain ⟨_, _, done⟩ := done
    obtain ⟨manuscript, next, _, state, operated, bytes, receipts, audit, _, rfl⟩ := write_ok done
    cases read.symm.trans state
    obtain ⟨effect, against⟩ := moveChapter_ok operated
    exact ⟨next, rfl, effect, ⟨bytes.trans (byteLimit_le _), receipts, audit⟩, against⟩

theorem transact_cases (documents : Documents δ) (scope : BranchScope) (stored : Option (Manuscript δ)) (call : Call δ × Checks) :
    (∃ failure, transact documents scope stored call = (stored, .error failure)) ∨
      ∃ next answer, transact documents scope stored call = (next, .ok answer) ∧
        perform documents scope call.1 call.2 stored = .ok (next, answer) ∧ call.2.commit = .ok () := by
  unfold transact
  cases done : perform documents scope call.1 call.2 stored with
  | error failure => exact .inl ⟨failure, rfl⟩
  | ok next =>
    cases committed : call.2.commit with
    | error failure => exact .inl ⟨failure, rfl⟩
    | ok => exact .inr ⟨next.1, next.2, rfl, rfl, rfl⟩

theorem transact_effect (sound : Sound documents scope (current scope stored)) (call : Call δ × Checks) :
    Effect documents scope (current scope stored) (current scope (transact documents scope stored call).1) := by
  rcases transact_cases documents scope stored call with ⟨_, done⟩ | ⟨next, answer, done, performed, _⟩
  · rw [done]
    exact .same
  · obtain ⟨next, rfl, effect, _⟩ := perform_ok sound performed
    rw [done]
    exact effect

theorem run_snoc (calls : List (Call δ × Checks)) (call : Call δ × Checks) :
    run documents scope stored (calls ++ [call]) = (transact documents scope (run documents scope stored calls) call).1 := by
  rw [run, List.foldl_append]
  rfl

theorem run_append (stored : Option (Manuscript δ)) (calls later : List (Call δ × Checks)) :
    run documents scope stored (calls ++ later) = run documents scope (run documents scope stored calls) later :=
  List.foldl_append

theorem run_sound (sound : Sound documents scope (current scope stored)) (calls : List (Call δ × Checks)) :
    Sound documents scope (current scope (run documents scope stored calls)) ∧
      Extends (current scope stored) (current scope (run documents scope stored calls)) := by
  induction calls generalizing stored with
  | nil => exact ⟨sound, .refl _⟩
  | cons call calls ih =>
    have effect := transact_effect sound call
    obtain ⟨sound', extends'⟩ := ih (effect.sound sound)
    exact ⟨sound', (effect.extends sound).trans extends'⟩

theorem reachable_sound (documents : Documents δ) (scope : BranchScope) (calls : List (Call δ × Checks)) :
    Sound documents scope (current scope (run documents scope none calls)) :=
  (run_sound sound_empty calls).1

theorem run_within (calls : List (Call δ × Checks)) :
    ∀ manuscript, run documents scope none calls = some manuscript → Within documents manuscript := by
  induction calls using List.reverseRecOn with
  | nil => nofun
  | append_singleton calls call ih =>
    intro manuscript reached
    rw [run_snoc] at reached
    have sound := reachable_sound documents scope calls
    rcases transact_cases documents scope (run documents scope none calls) call with ⟨_, done⟩ | ⟨next, answer, done, performed, _⟩
    · rw [done] at reached
      exact ih manuscript reached
    · obtain ⟨next, rfl, _, within, _⟩ := perform_ok sound performed
      rw [done] at reached
      cases reached
      exact within

/-- What a manuscript holds after any calls. -/
structure Linear (scope : BranchScope) (stored : Option (Manuscript δ)) : Prop where
  accepted : state scope stored = .ok (current scope stored)
  /-- A chapter at version `v` has one checkpoint for each version from 1 to `v - 1`. -/
  histories : ∀ {cid row}, (current scope stored).chapters.get? cid = some row →
    row.history.map Checkpoint.version = List.range' 1 (row.version - 1)
  numbers : ∀ {cid row cid' row'}, (current scope stored).chapters.get? cid = some row →
    (current scope stored).chapters.get? cid' = some row' → row.number = row'.number → cid = cid'
  orders : ∀ {cid row cid' row'}, (current scope stored).chapters.get? cid = some row →
    (current scope stored).chapters.get? cid' = some row' → row.deleted = false → row'.deleted = false →
    row.sortOrder = row'.sortOrder → cid = cid'

/-- A transaction raises and leaves the store as it was, or it was made against the present
version and raises that of each chapter by at most one. -/
def Guarded (scope : BranchScope) (stored : Option (Manuscript δ)) (call : Call δ)
    (after : Option (Manuscript δ) × Except Failure (Answer δ)) : Prop :=
  (∃ failure, after = (stored, .error failure)) ∨
    ∃ answer, after.2 = .ok answer ∧ Against (current scope stored) call ∧
      ∀ {cid row}, (current scope stored).chapters.get? cid = some row →
        ∃ later, (current scope after.1).chapters.get? cid = some later ∧ later.version ≤ row.version + 1

theorem linear_of_sound (sound : Sound documents scope (current scope stored)) : Linear scope stored where
  accepted := state_current sound
  histories found := (sound.chapters found).versions
  numbers := sound.numbers
  orders := sound.orders

theorem transact_guarded (sound : Sound documents scope (current scope stored)) (call : Call δ × Checks) :
    Guarded scope stored call.1 (transact documents scope stored call) := by
  rcases transact_cases documents scope stored call with ⟨failure, done⟩ | ⟨next, answer, done, performed, _⟩
  · exact .inl ⟨failure, done⟩
  · obtain ⟨next, rfl, effect, _, against⟩ := perform_ok sound performed
    refine .inr ⟨answer, by rw [done], against, fun found => ?_⟩
    obtain ⟨later, there, _, version⟩ := effect.chapters_extend sound found
    exact ⟨later, by rw [done]; exact there, version⟩

/-- After any calls of any clients the manuscript is accepted and linear, the next call is
guarded, and whatever calls follow keep every chapter's number and the document of each of
its versions, and leave a deleted chapter as it is. -/
theorem linear_history (documents : Documents δ) (scope : BranchScope) (calls later : List (Call δ × Checks)) :
    Linear scope (run documents scope none calls) ∧
      (∀ call, Guarded scope (run documents scope none calls) call.1 (transact documents scope (run documents scope none calls) call)) ∧
      Extends (current scope (run documents scope none calls)) (current scope (run documents scope none (calls ++ later))) := by
  have sound := reachable_sound documents scope calls
  refine ⟨linear_of_sound sound, fun call => transact_guarded sound call, ?_⟩
  rw [run_append]
  exact (run_sound sound later).2

/-- Documents that are named by the length of their JSON text. -/
def sizedDocuments : Documents Nat where
  validated size := reject (size > 2000000) (.value "BRANCH_DOCUMENT_LIMIT")
  toMarkdown _ := .ok ""
  fromMarkdown _ content := content.length
  digest := toString
  requestDigest request := request.chapterId ++ "/" ++ toString request.expectedVersion ++ "/" ++ toString request.document ++ "/" ++
    request.source ++ "/" ++ request.actorId
  preserve _ document _ := .ok document
  heading _ := none
  size manuscript := (manuscript.chapters.values.map fun row => row.document + (row.history.map Checkpoint.document).sum).sum +
    (manuscript.receipts.values.map fun receipt => receipt.chapter.document).sum

def sampleScope : BranchScope := ⟨"book", "w", "s", "b", by decide⟩

def sampleToken : Uuid := ⟨"00000000-0000-4000-8000-000000000000", by decide +kernel⟩

def sampleId : String := chapterId sampleScope.novelId sampleToken.text

def passing : Checks := ⟨.ok (), .ok (), .ok ()⟩

def sampleCreate : Call Nat := .create "book" ⟨"One", some 2000000, ""⟩ "author" sampleToken none

def sampleRequest : Request Nat := ⟨sampleId, 1, 2000000, "MANUAL_SAVE", "author"⟩

def sampleSave : Call Nat := .save sampleRequest (some "o")

/-- What a chapter of a store is at. -/
def versionOf (stored : Option (Manuscript Nat)) (cid : String) : Option Nat := (stored.bind (·.chapters.get? cid)).map (·.version)

/-- A save that is sent again under its operation id succeeds against a version that is not the present one. -/
theorem save_again_against_old_version :
    versionOf (run sizedDocuments sampleScope none [(sampleCreate, passing), (sampleSave, passing)]) sampleId = some 2 ∧
      sampleRequest.expectedVersion = 1 ∧
      ∃ answer, (transact sizedDocuments sampleScope
        (run sizedDocuments sampleScope none [(sampleCreate, passing), (sampleSave, passing)]) (sampleSave, passing)).2 = .ok answer := by
  refine ⟨by decide +kernel, rfl, ?_⟩
  obtain ⟨answer, done, _⟩ := ok_of_endsWith (fun _ => true) (transact sizedDocuments sampleScope
    (run sizedDocuments sampleScope none [(sampleCreate, passing), (sampleSave, passing)]) (sampleSave, passing)).2 (by decide +kernel)
  exact ⟨answer, done⟩

end NovelStudio.Branch
