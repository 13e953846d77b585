import NovelStudio.Realtime.System

/-! An operation is written at most once, and what is recorded of it is what was done. -/

namespace NovelStudio.Realtime

open Library Experimental

theorem step_store (step : Step outside mode system label next) :
    (label.commits = none ∧ Effect system.store next.store) ∨
    ∃ rid saved row final, label = .applied rid saved ∧ system.store.operations.get? rid = some row ∧
      (row.data.status = .prepared ∨ row.data.status = .claimed) ∧
      Applies outside rid row saved system.store next.store final := by
  cases step with
  | idle => exact .inl ⟨rfl, .refl _⟩
  | join done => exact .inl ⟨rfl, join_effect done⟩
  | transition done => exact .inl ⟨rfl, transition_effect done⟩
  | cursor done => exact .inl ⟨rfl, cursor_effect done⟩
  | prepare unused unknown done => exact .inl ⟨rfl, prepare_effect unused unknown done⟩
  | cancel done => exact .inl ⟨rfl, cancel_effect done⟩
  | recover done => exact .inl ⟨rfl, recover_effect done⟩
  | foreign kept => exact .inl ⟨rfl, .same rfl kept⟩
  | applyBranch done =>
    obtain ⟨row, found, prepared, performed⟩ := applyBranch_started fun reason => by rw [done]; exact nofun
    exact .inr ⟨_, _, row, _, rfl, found, .inl prepared, perform_committed (performed.symm.trans done)⟩
  | failBranch _ => exact .inl ⟨rfl, .refl _⟩
  | loseBranch _ => exact .inl ⟨rfl, .refl _⟩
  | claim done => exact .inl ⟨rfl, (claim_effect done).1⟩
  | refuse _ _ => exact .inl ⟨rfl, .refl _⟩
  | fail _ _ => exact .inl ⟨rfl, .refl _⟩
  | lose _ _ => exact .inl ⟨rfl, .refl _⟩
  | apply _ done =>
    obtain ⟨row, found, claimed, performed⟩ := applyMainline_resumed fun reason => by rw [done]; exact nofun
    exact .inr ⟨_, _, row, _, rfl, found, .inr claimed, perform_committed (performed.symm.trans done)⟩
  | die _ _ => exact .inl ⟨rfl, .refl _⟩
  | crash _ => exact .inl ⟨rfl, .refl _⟩
  | markUnknown _ done => exact .inl ⟨rfl, markUnknown_effect done⟩

theorem Applies.step {store : Store} (applies : Applies outside rid row saved store next final)
    (status : row.data.status = .prepared ∨ row.data.status = .claimed) : RowStep row final := by
  rw [applies.result]
  refine ⟨rfl, rfl, ?_⟩
  rcases status with prepared | claimed
  · exact .inl ⟨prepared, .inr rfl⟩
  · exact .inr (.inr (.inl ⟨claimed, .inr rfl⟩))

variable {system : System}

theorem step_operations (step : Step outside mode system label next) :
    OperationsStep system.store.operations next.store.operations := by
  rcases step_store step with ⟨_, effect⟩ | ⟨rid, saved, row, final, _, found, status, applies⟩
  · cases effect with
    | same operations _ => exact operations ▸ .refl _
    | added rid row unused _ status operations _ => exact operations ▸ .insert (.refl _) unused status
    | changed rid row after operations _ found step _ => exact operations ▸ .set found step
  · exact applies.operations ▸ .set found (applies.step status)

theorem terminal_kept (step : Step outside mode system label next)
    (found : system.store.operations.get? rid = some row) (terminal : row.data.status.terminal = true) :
    next.store.operations.get? rid = some row := by
  obtain ⟨after, there, rfl | changed⟩ := (step_operations step).kept found
  · exact there
  · simp [changed.status.leaves] at terminal

theorem step_writes (step : Step outside mode system label next) (writes : label.writes = some rid) :
    ∃ row, system.store.operations.get? rid = some row ∧ row.data.status.terminal = false := by
  have ofStatus {row : Row Operation} (found : system.store.operations.get? rid = some row)
      (status : row.data.status = .prepared ∨ row.data.status = .claimed) :
      ∃ row, system.store.operations.get? rid = some row ∧ row.data.status.terminal = false := by
    refine ⟨row, found, ?_⟩
    rcases status with same | same <;> rw [same] <;> rfl
  cases step with
  | applyBranch done | failBranch done | loseBranch done =>
    cases writes
    obtain ⟨row, found, prepared, _⟩ := applyBranch_started fun reason => by rw [done]; exact nofun
    exact ofStatus found (.inl prepared)
  | fail _ done | lose _ done | apply _ done =>
    cases writes
    obtain ⟨row, found, claimed, _⟩ := applyMainline_resumed fun reason => by rw [done]; exact nofun
    exact ofStatus found (.inr claimed)
  | die _ resumed =>
    cases writes
    obtain ⟨found, claimed⟩ := resume_found resumed
    exact ofStatus found (.inr claimed)
  | _ => cases writes

theorem terminal_forever (found : system.store.operations.get? rid = some row)
    (terminal : row.data.status.terminal = true) (run : Run (Step outside mode) system later final) :
    final.store.operations.get? rid = some row ∧ later.countP (fun label => label.writes = some rid) = 0 := by
  refine run.history (motive := fun later final => final.store.operations.get? rid = some row ∧
    later.countP (fun label => label.writes = some rid) = 0) ⟨found, rfl⟩ ?_
  intro later state label next _ ⟨there, silent⟩ step
  refine ⟨terminal_kept step there terminal, ?_⟩
  have quiet : label.writes ≠ some rid := by
    intro writes
    obtain ⟨current, here, open'⟩ := step_writes step writes
    cases here.symm.trans there
    simp [open'] at terminal
  simp [List.countP_append, silent, quiet]

/-- The write of an operation is committed. -/
def Store.Applied (store : Store) (rid : String) : Prop :=
  ∃ row, store.operations.get? rid = some row ∧ row.data.status = .applied

theorem commits_once (run : Run (Step outside mode) System.initial labels system) (rid : String) :
    labels.countP (fun label => label.commits = some rid) ≤ 1 ∧
      (0 < labels.countP (fun label => label.commits = some rid) → system.store.Applied rid) := by
  refine run.fires_at_most_once (fun label => label.commits = some rid) (fun system => system.store.Applied rid) ?_ ?_ ?_
  · intro state label next step fires
    rcases step_store step with ⟨none, _⟩ | ⟨other, saved, row, final, rfl, found, _, applies⟩
    · simp [none] at fires
    · obtain rfl : other = rid := by simpa [Label.commits] using fires
      refine ⟨final, by rw [applies.operations, Dict.get?_set_self], ?_⟩
      rw [applies.result]
      rfl
  · rintro state label next step ⟨row, found, applied⟩
    exact ⟨row, terminal_kept step found (by rw [applied]; rfl), applied⟩
  · rintro state label next step ⟨row, found, applied⟩
    rcases step_store step with ⟨none, _⟩ | ⟨other, saved, current, final, rfl, here, status, _⟩
    · simp [none]
    · refine decide_eq_false fun same => ?_
      obtain rfl : other = rid := by simpa [Label.commits] using same
      cases here.symm.trans found
      rcases status with same | same <;> simp [applied] at same

/-- Statuses of operations whose writer was never called on the mainline. -/
def OperationStatus.unclaimed : OperationStatus → Bool
  | .prepared | .conflict | .cancelled => true
  | _ => false

/-- An operation is claimed before it is written, and is never prepared again. -/
def System.desk (system : System) : Desk String where
  taken rid := ∃ row, system.store.operations.get? rid = some row ∧ row.data.status.unclaimed = false
  pending := pendingOf Call.operationId system.flights

theorem step_moves (step : Step outside .mainline system label next) :
    system.desk.Move next.desk label.writes := by
  have grows (rid : String) (taken : system.desk.taken rid) : next.desk.taken rid := by
    obtain ⟨row, found, claimed⟩ := taken
    obtain ⟨after, there, rfl | changed⟩ := (step_operations step).kept found
    · exact ⟨_, there, claimed⟩
    · refine ⟨after, there, ?_⟩
      rcases changed.status with ⟨prepared, _⟩ | ⟨prepared | conflict, _⟩ | ⟨_, same | same⟩ | ⟨_, same | same⟩ <;>
        simp_all [OperationStatus.unclaimed]
  cases step with
  | claim done =>
    obtain ⟨_, ⟨was, found, prepared⟩, now, there, claimed⟩ := claim_effect done
    refine .reserve _ ?_ grows ⟨now, there, by rw [claimed]; rfl⟩ (pendingOf_reserved ..)
    rintro ⟨taken, here, open'⟩
    cases here.symm.trans found
    simp [prepared, OperationStatus.unclaimed] at open'
  | refuse inFlight _ => exact .fails inFlight grows
  | fail inFlight _ => exact .firesFailing inFlight grows
  | lose inFlight _ => exact .firesFailing inFlight grows
  | apply inFlight _ => exact .fires inFlight grows
  | die inFlight _ => exact .fires inFlight grows
  | crash inFlight => exact .drops inFlight grows
  | markUnknown inFlight _ => exact .drops inFlight grows
  | _ => exact .keep grows (List.Sublist.refl _)

theorem initial_desk : System.initial.desk.Consistent := ⟨fun _ waiting => (nomatch waiting), List.nodup_nil⟩

/-- An operation that is not applied has no receipt. -/
def Unwritten (store : Store) : Prop :=
  ∀ ⦃rid row⦄, store.operations.get? rid = some row → row.data.status ≠ .applied → store.manuscript.receipts.get? rid = none

/-- An operation that is applied was written, and exactly. -/
def Recorded (outside : Outside) (labels : List Label) (store : Store) : Prop :=
  ∀ ⦃rid row⦄, store.operations.get? rid = some row → row.data.status = .applied →
    ∃ write, Label.applied rid (some write) ∈ labels ∧ Exact outside row.data write

theorem Unwritten.step (unwritten : Unwritten system.store) (step : Step outside mode system label next) :
    Unwritten next.store := by
  intro rid row found unapplied
  rcases step_store step with ⟨_, effect⟩ | ⟨other, saved, was, final, _, there, _, applies⟩
  · cases effect with
    | same operations receipts =>
      rw [operations] at found
      rw [receipts rid (Dict.mem_keys_iff.mpr ⟨row, found⟩)]
      exact unwritten found unapplied
    | added fresh new _ unknown _ operations manuscript =>
      rw [operations, Dict.get?_set] at found
      rw [manuscript]
      split at found
      · rename_i same
        rw [same, unknown]
      · exact unwritten found unapplied
    | changed other was after operations manuscript there changed _ =>
      rw [operations, Dict.get?_set] at found
      rw [manuscript]
      split at found
      · rename_i same
        subst same
        apply unwritten there
        intro applied
        have leaves := changed.status.leaves
        simp [applied, OperationStatus.terminal] at leaves
      · exact unwritten found unapplied
  · rw [applies.operations, Dict.get?_set] at found
    split at found
    · cases found
      simp [applies.result, bump] at unapplied
    · rename_i different
      rw [applies.receipts rid different]
      exact unwritten found unapplied

theorem Recorded.step (recorded : Recorded outside labels system.store)
    (unwritten : Unwritten system.store) (step : Step outside mode system label next) :
    Recorded outside (labels ++ [label]) next.store := by
  have earlier {rid : String} {row : Row Operation} (found : system.store.operations.get? rid = some row)
      (applied : row.data.status = .applied) :
      ∃ write, Label.applied rid (some write) ∈ labels ++ [label] ∧ Exact outside row.data write := by
    obtain ⟨write, member, exact⟩ := recorded found applied
    exact ⟨write, List.mem_append_left _ member, exact⟩
  intro rid row found applied
  rcases step_store step with ⟨_, effect⟩ | ⟨other, saved, was, final, rfl, there, status, applies⟩
  · cases effect with
    | same operations _ => exact earlier (operations ▸ found) applied
    | added fresh new _ _ status operations _ =>
      rw [operations, Dict.get?_set] at found
      split at found
      · cases found
        rcases status with same | same <;> simp [applied] at same
      · exact earlier found applied
    | changed other was after operations _ _ _ unapplied =>
      rw [operations, Dict.get?_set] at found
      split at found
      · cases found
        exact absurd applied unapplied
      · exact earlier found applied
  · rw [applies.operations, Dict.get?_set] at found
    split at found
    · rename_i same
      subst same
      cases found
      cases saved with
      | none =>
        -- A receipt would say that the operation is applied already.
        obtain ⟨receipt, known⟩ := applies.replayed rfl
        have unapplied : was.data.status ≠ .applied := by
          rcases status with same | same <;> simp [same]
        simp [unwritten there unapplied] at known
      | some write =>
        refine ⟨write, by simp, ?_⟩
        obtain ⟨chapter, before, after, content⟩ := applies.exact rfl
        rw [applies.result]
        exact ⟨chapter, before, after, content⟩
    · exact earlier found applied

theorem reachable_recorded (run : Run (Step outside mode) System.initial labels system) :
    Unwritten system.store ∧ Recorded outside labels system.store := by
  refine run.history (motive := fun labels system => Unwritten system.store ∧ Recorded outside labels system.store)
    ⟨fun _ _ found => ?_, fun _ _ found => ?_⟩ ?_
  · simp [System.initial, Store.empty] at found
  · simp [System.initial, Store.empty] at found
  · rintro labels state label next _ ⟨unwritten, recorded⟩ step
    exact ⟨unwritten.step step, recorded.step unwritten step⟩

end NovelStudio.Realtime

/-! The writer room commits each operation at most once, whatever its clients do. -/

namespace NovelStudio.Realtime

open Library Experimental

/-- How often the writer was called for an operation. -/
def writerCalls (rid : String) (labels : List Label) : Nat := labels.countP fun label => label.writes = some rid

/-- How often a write of the operation was committed. -/
def committedWrites (rid : String) (labels : List Label) : Nat := labels.countP fun label => label.commits = some rid

theorem branch_rolls_back (step : Step outside .branch system (.wrote rid) next) : next = system := by
  cases step <;> rfl

theorem mainline_writes_once (run : Run (Step outside .mainline) System.initial labels system) (rid : String) :
    writerCalls rid labels ≤ 1 ∧ (0 < writerCalls rid labels → system.desk.taken rid) :=
  run.fires_reserved_once System.desk Label.writes initial_desk (fun step => step_moves step) rid

/-- The mainline writer is called at most once for an operation; on a branch a write that
is not committed is undone, and at most one is committed. What is in a terminal state
stays as it is; what is applied was written exactly; what is cancelled was not written. -/
theorem operation_committed_once (outside : Outside) (mode : Mode) (rid : String)
    (injective : ∀ left right, outside.sha256 left = outside.sha256 right → left = right)
    (run : Run (Step outside mode) System.initial labels system) :
    (mode = .mainline → writerCalls rid labels ≤ 1) ∧
    committedWrites rid labels ≤ 1 ∧
    (mode = .branch → ∀ state next, Step outside mode state (.wrote rid) next → next = state) ∧
    ∀ row, system.store.operations.get? rid = some row →
      (row.data.status.terminal = true → ∀ later final, Run (Step outside mode) system later final →
        final.store.operations.get? rid = some row ∧ writerCalls rid later = 0) ∧
      (row.data.status = .applied → ∃ write, Label.applied rid (some write) ∈ labels ∧
        write.chapterId = row.data.chapterId ∧ write.before.version = row.data.baseVersion ∧
        write.after.version = row.data.baseVersion + 1 ∧
        outside.dumps write.after.document = outside.dumps row.data.desiredDocument) ∧
      (row.data.status = .cancelled → committedWrites rid labels = 0 ∧ (mode = .mainline → writerCalls rid labels = 0)) := by
  obtain ⟨once, applied⟩ := commits_once run rid
  refine ⟨?_, once, ?_, fun row found => ⟨fun terminal later final after => ?_, fun isApplied => ?_, fun cancelled => ⟨?_, ?_⟩⟩⟩
  · rintro rfl
    exact (mainline_writes_once run rid).1
  · rintro rfl state next step
    exact branch_rolls_back step
  · exact terminal_forever found terminal after
  · obtain ⟨write, member, exact⟩ := (reachable_recorded run).2 found isApplied
    exact ⟨write, member, exact.chapter, exact.before, exact.after, injective _ _ exact.content⟩
  · by_contra some
    obtain ⟨other, there, isApplied⟩ := applied (Nat.pos_of_ne_zero some)
    cases there.symm.trans found
    simp [cancelled] at isApplied
  · rintro rfl
    by_contra some
    obtain ⟨other, there, claimed⟩ := (mainline_writes_once run rid).2 (Nat.pos_of_ne_zero some)
    cases there.symm.trans found
    simp [cancelled, OperationStatus.unclaimed] at claimed

def docOf (text : String) : Json :=
  .dict [("type", .str "doc"), ("content", .list [.dict [("type", .str "paragraph"),
    ("content", .list [.dict [("type", .str "text"), ("text", .str text)]])]])]

def plainText (document : Json) : String :=
  if document = docOf "one" then "one" else if document = docOf "two" then "two" else ""

def plainOutside : Outside where
  dumps := plainText
  canonical document := some (plainText document)
  sha256 text := text
  editText _ := "edit"
  recoveryText _ := "recovery"
  saveText _ := "save"
  rowsSize _ _ := 0
  locks := ⟨fun _ => none, fun _ => ""⟩
  toMarkdown _ := .ok ()
  fromMarkdown chapter := chapter.document
  intact _ := .ok ()
  fits _ := true

def chapterAt (version : Nat) (text : String) : Chapter := ⟨"chapter", version, docOf text, false, false, false, 0⟩

/-- Everything is allowed, and the writer has saved before the third access. -/
def plainContact : Contact where
  guard _ := .ok ()
  reads _ := .ok ()
  books k := (∅ : Dict String Chapter).set "chapter" (if k < 3 then chapterAt 1 "one" else chapterAt 2 "two")
  epoch := "epoch"
  now := 0
  sessionEnded _ := false
  mayRead _ := true

/-- The permission is withdrawn after the write. -/
def revokedContact : Contact :=
  { plainContact with guard := fun k => if k = 4 then .error (.denied 403 "REALTIME_CURRENT_PERMISSION_REQUIRED") else .ok () }

def firstEdit : EditIn := ⟨"participant", 1, "request", 1, "one", [⟨[0, 0], 0, 3, "two", by decide⟩]⟩

def branchCaller : Caller := ⟨"author", "token", "branch"⟩

def mainlineCaller : Caller := ⟨"author", "", ""⟩

def branchStore : Store := ⟨∅, ∅, (∅ : Dict String Chapter).set "chapter" (chapterAt 1 "one"), ∅⟩

/-- On a branch the writer is called, the permission is withdrawn and the write undone;
when the edit is applied again, the writer is called again. -/
theorem branch_writer_called_twice : ∃ labels system, Run (Step plainOutside .branch) System.initial labels system ∧
    writerCalls "operation" labels = 2 ∧ committedWrites "operation" labels = 1 := by
  have opened : Run (Step plainOutside .branch) System.initial [.quiet]
      (System.initial.commit branchStore) :=
    Run.one (Step.foreign fun _ none => (nomatch none))
  have joined := opened.snoc (Step.join
    (show join plainOutside .branch branchCaller plainContact ⟨"device", "chapter", 1⟩ "participant"
      branchStore _ = .ok _ from rfl))
  have prepared := joined.snoc (Step.prepare (by decide) (by decide)
    (show prepare plainOutside .branch branchCaller plainContact firstEdit "operation" _ = .ok _ from rfl))
  have failed := prepared.snoc (Step.failBranch
    (show applyBranch plainOutside branchCaller revokedContact "operation" 1 _ = .failed _ from rfl))
  have applied := failed.snoc (Step.applyBranch
    (show applyBranch plainOutside branchCaller plainContact "operation" 1 _ = .committed _ _ _ from rfl))
  exact ⟨_, _, applied, rfl, rfl⟩

/-- On the mainline an operation is claimed and applied, and stays applied. -/
theorem applied_operation_stays : ∃ labels system row, Run (Step plainOutside .mainline) System.initial labels system ∧
    writerCalls "operation" labels = 1 ∧ system.store.operations.get? "operation" = some row ∧
    (∃ write, Label.applied "operation" (some write) ∈ labels ∧ write.before.version = 1 ∧ write.after.version = 2 ∧
      plainText write.after.document = "two") ∧
    ∀ later final, Run (Step plainOutside .mainline) system later final →
      final.store.operations.get? "operation" = some row ∧ writerCalls "operation" later = 0 := by
  have joined : Run (Step plainOutside .mainline) System.initial [.quiet] _ := Run.one (Step.join
    (show join plainOutside .mainline mainlineCaller plainContact ⟨"device", "chapter", 1⟩ "participant"
      Store.empty _ = .ok _ from rfl))
  have prepared := joined.snoc (Step.prepare (by decide) (by decide)
    (show prepare plainOutside .mainline mainlineCaller plainContact firstEdit "operation" _ = .ok _ from rfl))
  have claimed := prepared.snoc (Step.claim
    (show claim plainOutside mainlineCaller plainContact "operation" 1 _ = .ok _ from rfl))
  have applied := claimed.snoc (Step.apply (show _ = [] ++ _ :: [] from rfl)
    (show applyMainline plainOutside mainlineCaller plainContact "operation" _ = .committed _ _ _ from rfl))
  obtain ⟨_, _, _, settled⟩ := operation_committed_once plainOutside .mainline "operation" (fun _ _ same => same) applied
  obtain ⟨terminal, exact, _⟩ := settled _ rfl
  obtain ⟨write, member, _, before, after, content⟩ := exact rfl
  exact ⟨_, _, _, applied, rfl, rfl, ⟨write, member, before, after, content⟩, terminal rfl⟩

end NovelStudio.Realtime
