import NovelStudio.Sync.System

/-! What the operations on received messages do. -/

namespace NovelStudio.Sync

open Library Experimental

/-- An envelope is accepted on a channel. -/
structure Accepted (rid : String) (envelope : Envelope) (before after : Store) : Prop where
  inbox : InboxStep before.inbox after.inbox
  fresh : before.inbox.get? envelope.messageId = none
  stored : ∃ row, after.inbox.get? envelope.messageId = some row ∧ row.data.channelId = rid ∧ row.data.envelope = envelope
  onlyOne : ∀ ⦃mid⦄, mid ≠ envelope.messageId → before.inbox.get? mid = none → after.inbox.get? mid = none
  /-- No other message of the source is still to be written. -/
  settled : ∀ ⦃mid row⦄, mid ≠ envelope.messageId → after.inbox.get? mid = some row → row.data.channelId = rid →
    row.data.envelope.sourceChapterId = envelope.sourceChapterId →
    row.data.status ≠ .pendingReview ∧ row.data.status ≠ .claimed ∧ row.data.status ≠ .unknown
  channel : ∃ channel next, before.channels.get? rid = some channel ∧ after.channels.get? rid = some next ∧
    channel.data.receiveCursor < envelope.sequence ∧ envelope.sourceChapterId ∉ channel.data.tombstones ∧
    next.data.receiveCursor = envelope.sequence ∧
    next.data.tombstones = if envelope.operation = .tombstone then channel.data.tombstones ++ [envelope.sourceChapterId]
      else channel.data.tombstones
  others : ∀ ⦃other⦄, other ≠ rid → after.channels.get? other = before.channels.get? other

theorem supersede_step (rid remoteId : String) (row : Row InboxRow) :
    supersede rid remoteId row = row ∨ RowStep row (supersede rid remoteId row) := by
  unfold supersede
  split
  · rename_i pending
    exact .inr ⟨rfl, rfl, rfl, .inr (.inl ⟨pending.2.2, .inl rfl⟩)⟩
  · exact .inl rfl

theorem checkEnvelope_messageId (checked : checkEnvelope outside channel envelope = .ok safe) :
    safe.messageId = envelope.messageId := by
  simp only [checkEnvelope, bind_ok, pure_ok] at checked
  obtain ⟨_, _, _, _, _, _, _, _, _, _, rfl⟩ := checked
  rfl

variable {store : Store}

theorem receive_known (known : store.inbox.get? value.envelope.messageId = some row)
    (done : receive outside caller rid value reauthorize seen store book = .ok (next, received)) :
    next = store ∧ received.duplicate = true := by
  simp only [receive, bind_ok, stored_ok] at done
  obtain ⟨_, _, envelope, checked, _, _, _, _, _, _, done⟩ := done
  rw [checkEnvelope_messageId checked, known] at done
  simp only [bind_ok, pure_ok, Prod.mk.injEq] at done
  obtain ⟨_, _, _, _, rfl, rfl⟩ := done
  exact ⟨rfl, rfl⟩

theorem receive_cases
    (done : receive outside caller rid value reauthorize seen store book = .ok (next, received)) :
    (received.duplicate = true ∧ next = store) ∨
    (received.duplicate = false ∧ Accepted rid received.row.data.envelope store next) := by
  simp only [receive, bind_ok, stored_ok] at done
  obtain ⟨_, _, envelope, checked, _, _, channel, found, _, _, done⟩ := done
  split at done
  · simp only [bind_ok, pure_ok, Prod.mk.injEq] at done
    obtain ⟨_, _, _, _, rfl, rfl⟩ := done
    exact .inl ⟨rfl, rfl⟩
  · rename_i absent
    simp only [bind_ok, pure_ok, reject_ok, advance_ok, Prod.mk.injEq] at done
    obtain ⟨_, _, _, ordered, _, open', _, _, _, outcomes, target, _, changed, ⟨_, rfl⟩, _, _, _, _, rfl, rfl⟩ := done
    have ordered : channel.data.receiveCursor < envelope.sequence := by simpa using ordered
    have open' : envelope.sourceChapterId ∉ channel.data.tombstones := by simpa using open'
    refine .inr ⟨rfl, ?_⟩
    have unsettled : ∀ mid row, store.inbox.get? mid = some row → row.data.channelId = rid →
        row.data.envelope.sourceChapterId = envelope.sourceChapterId →
        row.data.status ≠ .claimed ∧ row.data.status ≠ .unknown := by
      intro mid row there channel source
      have member : row ∈ ofChannel store.inbox rid :=
        List.mem_filter.mpr ⟨Dict.mem_values_iff.mpr ⟨mid, there⟩, by simpa using channel⟩
      have checked := List.any_eq_false.mp outcomes row member
      simpa [source] using checked
    have superseded : InboxStep store.inbox (store.inbox.mapValues fun _ => supersede rid envelope.sourceChapterId) := by
      apply RowsStep.mapValues
      exact fun _ row => supersede_step rid envelope.sourceChapterId row
    refine ⟨superseded.insert absent rfl, absent, ⟨_, Dict.get?_set_self .., rfl, rfl⟩, ?_, ?_, ?_, ?_⟩
    · intro mid different none
      simp only [receivedOf, newRow] at different ⊢
      rw [Dict.get?_set_ne _ _ different]
      simp [none]
    · intro mid row different there
      simp only [receivedOf, newRow] at different there ⊢
      rw [Dict.get?_set_ne _ _ different, Dict.get?_mapValues, Option.map_eq_some_iff] at there
      obtain ⟨old, there, rfl⟩ := there
      intro own source
      by_cases pending : old.data.channelId = rid ∧ old.data.envelope.sourceChapterId = envelope.sourceChapterId ∧
          old.data.status = .pendingReview
      · simp [supersede, pending, bump]
      · simp only [supersede, if_neg pending] at own source ⊢
        exact ⟨fun status => pending ⟨own, source, status⟩, unsettled mid old there own source⟩
    · exact ⟨channel, _, found, Dict.get?_set_self .., ordered, open', rfl, rfl⟩
    · exact fun other different => Dict.get?_set_ne _ _ different

theorem markUnknown_effect {next : Store} (done : markUnknown outside mid store = .ok next) : Effect store next := by
  simp only [markUnknown, bind_ok, stored_ok] at done
  obtain ⟨row, found, done⟩ := done
  split at done
  · cases pure_ok.mp done
    exact Effect.refl _
  · rename_i open'
    simp only [bind_ok, pure_ok] at done
    obtain ⟨_, _, rfl⟩ := done
    refine .message found ⟨rfl, rfl, rfl, .inr (.inr ⟨?_, .inl rfl⟩)⟩
    by_cases claimed : row.data.status = .claimed
    · exact .inl claimed
    · exact .inr (by_contra fun other => open' ⟨claimed, other⟩)

theorem review_pending (done : review outside caller mid row choices view = .ok plan) : row.status = .pendingReview := by
  simp only [review, bind_ok, reject_ok] at done
  obtain ⟨_, _, _, _, _, pending, _⟩ := done
  simpa using pending

theorem reserve_effect
    (done : reserve outside caller mid value writers reauthorize seen store book = .ok (next, call)) :
    Effect store next ∧ call.messageId = mid ∧ ∃ row claimed, store.inbox.get? mid = some row ∧
      row.data.status = .pendingReview ∧ next.inbox.get? mid = some claimed ∧ claimed.data.status = .claimed := by
  simp only [reserve, bind_ok, pure_ok, stored_ok, advance_ok, Prod.mk.injEq] at done
  obtain ⟨_, _, _, _, _, _, plan, _, _, _, _, _, _, _, _, _, row, found, _, _, again, reviewed, _, _, created, _, claimed,
    ⟨_, rfl⟩, _, _, _, _, rfl, rfl⟩ := done
  have pending := review_pending reviewed
  refine ⟨.message found ⟨rfl, rfl, rfl, .inr (.inl ⟨pending, .inr (.inr rfl)⟩)⟩, rfl, row, _, found, pending,
    Dict.get?_set_self .., rfl⟩

def Unresolved (status : InboxStatus) : Prop := status = .claimed ∨ status = .unknown

theorem finishRow_effect {row : Row InboxRow} (found : store.inbox.get? mid = some row)
    (done : finishRow outside caller store mid cid row version confirmed expected reauthorize first book = .ok (next, result)) :
    Effect store next ∧ Unresolved row.data.status := by
  simp only [finishRow, bind_ok, pure_ok, stored_ok, reject_ok] at done
  obtain ⟨channel, there, _, _, _, unresolved, _, _, actual, _, _, _, _, _, channels, made, _, _, _, _, same⟩ := done
  obtain ⟨rfl, rfl⟩ := Prod.mk.inj same
  have status : Unresolved row.data.status := by
    by_cases claimed : row.data.status = .claimed
    · exact .inl claimed
    · exact .inr (by simpa [claimed] using unresolved)
  have step : RowStep row (bump row fun row => { row with
      status := if confirmed then .applied else .reconciled, targetChapterId := some cid, resultVersion := some version,
      journal := row.journal.map fun entry => (entry.1, if confirmed then .receiptConfirmed else .manuallyAdopted) }) := by
    refine ⟨rfl, rfl, rfl, .inr (.inr ⟨status, ?_⟩)⟩
    cases confirmed <;> simp [bump]
  have message := Effect.message found step
  refine ⟨⟨message.inbox, message.nothingNew, ?_⟩, status⟩
  unfold selectCreated at made
  split at made
  · cases pure_ok.mp made
    exact fun _ channel found => ⟨channel, found, rfl, rfl⟩
  · simp only [bind_ok, pure_ok] at made
    obtain ⟨_, _, rfl⟩ := made
    exact channels_set there rfl rfl

theorem beforeWrite_claimed (done : beforeWrite outside call reauthorize store book = .ok row) :
    store.inbox.get? call.messageId = some row ∧ row.data.status = .claimed := by
  simp only [beforeWrite, bind_ok, stored_ok, reject_ok] at done
  obtain ⟨row, found, _, _, _, _, _, _, _, claimed, _, _, done⟩ := done
  have claimed : row.data.status = .claimed := by simpa using claimed
  split at done
  · simp only [pure_ok] at done
    obtain ⟨_, _, rfl⟩ := done
    exact ⟨found, claimed⟩
  · simp only [bind_ok, pure_ok] at done
    obtain ⟨_, _, _, _, _, _, rfl⟩ := done
    exact ⟨found, claimed⟩

theorem finish_called (called : ∀ reason, finish outside call reauthorize store book writer ≠ .refused reason) :
    ∃ row, store.inbox.get? call.messageId = some row ∧ row.data.status = .claimed := by
  simp only [finish] at called
  split at called
  · exact absurd rfl (called _)
  · rename_i row checked
    exact ⟨row, beforeWrite_claimed checked⟩

theorem finish_committed
    (done : finish outside call reauthorize store book writer = .committed request next row) : Effect store next := by
  simp only [finish] at done
  split at done
  · cases done
  · rename_i claimed checked
    split at done
    · cases done
    · split at done
      · cases done
      · split at done
        · cases done
        · rename_i written
          cases done
          simp only [afterWrite, bind_ok] at written
          obtain ⟨_, _, _, _, _, _, _, _, finished⟩ := written
          exact (finishRow_effect (beforeWrite_claimed checked).1 finished).1

theorem recovery_unresolved (done : recovery outside caller mid expected seen = .ok result) :
    ∃ row, seen.store.inbox.get? mid = some row ∧ row.version = expected ∧ Unresolved row.data.status := by
  simp only [recovery, owned, bind_ok, pure_ok, fetch_ok, reject_ok, checkVersion_ok] at done
  obtain ⟨_, ⟨_, _, row, found, _, _, rfl⟩, _, version, _, _, _, unresolved, _⟩ := done
  refine ⟨row, found, version.symm, ?_⟩
  by_cases claimed : row.data.status = .claimed
  · exact .inl claimed
  · exact .inr (by simpa [claimed] using unresolved)

theorem recover_closed
    (done : recover outside caller mid value reauthorize seen store book = .ok (.closed next row)) :
    ∃ read current, seen.store.inbox.get? mid = some read ∧ Unresolved read.data.status ∧
      store.inbox.get? mid = some current ∧ current.version = read.version ∧
      next = { store with inbox := store.inbox.set mid (bump current fun row => { row with status := .closedWithoutReplay }) } := by
  simp only [recover, bind_ok] at done
  obtain ⟨result, observed, _, _, _, _, done⟩ := done
  obtain ⟨read, found, version, unresolved⟩ := recovery_unresolved observed
  split at done
  · simp only [bind_ok, pure_ok, stored_ok, checkVersion_ok, advance_ok, discard_ok, Recovered.closed.injEq] at done
    obtain ⟨_, _, current, there, _, same, _, _, _, _, changed, ⟨_, rfl⟩, rfl, _⟩ := done
    exact ⟨read, current, found, unresolved, there, same.symm.trans version.symm, rfl⟩
  · split at done
    · simp only [bind_ok] at done
      obtain ⟨_, _, done⟩ := done
      split at done
      · simp [throw_ok] at done
      · simp only [bind_ok, pure_ok, reduceCtorEq, and_false, exists_false] at done
    · simp [pure_ok] at done

theorem recover_adopted
    (done : recover outside caller mid value reauthorize seen store book = .ok (.adopted next row)) :
    Effect store next ∧ ∃ current, store.inbox.get? mid = some current ∧ Unresolved current.data.status := by
  simp only [recover, bind_ok] at done
  obtain ⟨result, observed, _, _, _, _, done⟩ := done
  split at done
  · simp only [bind_ok, pure_ok, reduceCtorEq, and_false, exists_false] at done
  · split at done
    · simp only [bind_ok] at done
      obtain ⟨_, _, done⟩ := done
      split at done
      · simp [throw_ok] at done
      · simp only [bind_ok, pure_ok, stored_ok, Recovered.adopted.injEq] at done
        obtain ⟨current, found, result, finished, rfl, _⟩ := done
        obtain ⟨effect, unresolved⟩ := finishRow_effect found finished
        exact ⟨effect, current, found, unresolved⟩
    · simp [pure_ok] at done

end NovelStudio.Sync

/-! The manuscript writer is called at most once for a message, and a message that is
resolved stays as it is. -/

namespace NovelStudio.Sync

open Library Experimental

/-- Statuses that say that nothing was written. -/
def InboxStatus.notWritten : InboxStatus → Bool
  | .pendingReview | .superseded | .selectionRevoked => true
  | _ => false

def InboxStatus.resolved : InboxStatus → Bool
  | .applied | .reconciled | .closedWithoutReplay => true
  | _ => false

theorem StatusStep.written (step : StatusStep before after) (written : before.notWritten = false) :
    after.notWritten = false := by
  rcases step with same | ⟨pending, _⟩ | ⟨_, next⟩
  · rw [same, written]
  · simp [pending, InboxStatus.notWritten] at written
  · rcases next with next | next | next | next <;> simp [next, InboxStatus.notWritten]

theorem StatusStep.resolved (step : StatusStep before after) (resolved : before.resolved = true) : after = before := by
  rcases step with same | ⟨pending, _⟩ | ⟨claimed | unknown, _⟩
  · exact same
  · simp [pending, InboxStatus.resolved] at resolved
  · simp [claimed, InboxStatus.resolved] at resolved
  · simp [unknown, InboxStatus.resolved] at resolved

/-- The writer of the message may have been called, or may yet be. -/
def System.Taken (system : System) (mid : String) : Prop :=
  ∃ row, system.store.inbox.get? mid = some row ∧ row.data.status.notWritten = false

/-- The messages whose writer may have been called, and those whose writer is still to be called. -/
def System.desk (system : System) : Desk String := ⟨system.Taken, pendingOf Call.messageId system.flights⟩

/-- The invariant of all operations together: a version of a message stands for one content. -/
def Consistent (system : System) : Prop :=
  ∀ ⦃old⦄, old ∈ system.committed → ∀ ⦃mid row⦄, old.inbox.get? mid = some row →
    ∃ now, system.store.inbox.get? mid = some now ∧ row.version ≤ now.version ∧ (row.version = now.version → now = row)

variable {system : System}

theorem close_effect (consistent : Consistent system) (before : seen.store ∈ system.committed)
    (done : recover outside caller mid value reauthorize seen system.store book = .ok (.closed next row)) :
    Effect system.store next := by
  obtain ⟨read, current, was, unresolved, found, version, rfl⟩ := recover_closed done
  obtain ⟨now, there, _, same⟩ := consistent before was
  cases there.symm.trans found
  have kept := same version.symm
  refine .message found ⟨rfl, rfl, rfl, .inr (.inr ⟨?_, .inr (.inr (.inr rfl))⟩)⟩
  rw [kept]
  exact unresolved

theorem step_store (consistent : Consistent system) (step : Step outside system label next) :
    Effect system.store next.store ∨
    ∃ rid envelope, label = .received rid envelope false ∧ Accepted rid envelope system.store next.store := by
  cases step with
  | idle => exact .inl (.refl _)
  | openChannel unused done => exact .inl (openChannel_effect unused done)
  | revoke _ done => exact .inl (revoke_effect done)
  | changeSelection _ done => exact .inl (changeSelection_effect done)
  | queue _ done => exact .inl (queue_effect done)
  | exportMessage _ done => exact .inl (exportMessage_effect done)
  | delivery _ done => exact .inl (delivery_effect done)
  | receive _ done =>
    rcases receive_cases done with ⟨duplicate, rfl⟩ | ⟨fresh, accepted⟩
    · exact .inl (.refl _)
    · exact .inr ⟨_, _, by rw [fresh], accepted⟩
  | reserve _ done => exact .inl (reserve_effect done).1
  | refuse _ done => exact .inl (.refl _)
  | fail _ done => exact .inl (.refl _)
  | apply _ done => exact .inl (finish_committed done)
  | die _ called asked => exact .inl (.refl _)
  | crash _ => exact .inl (.refl _)
  | markUnknown _ done => exact .inl (markUnknown_effect done)
  | close before done => exact .inl (close_effect consistent before done)
  | adopt _ done => exact .inl (recover_adopted done).1

theorem step_inbox (consistent : Consistent system) (step : Step outside system label next) :
    InboxStep system.store.inbox next.store.inbox := by
  rcases step_store consistent step with effect | ⟨_, _, _, accepted⟩
  · exact effect.inbox
  · exact accepted.inbox

theorem step_committed (step : Step outside system label next) :
    ∀ old ∈ next.committed, old = next.store ∨ old ∈ system.committed := by
  intro old member
  cases step <;> simp only [System.committed, System.commit, List.mem_cons] at member ⊢ <;> tauto

theorem taken_kept {next : System} (inbox : InboxStep system.store.inbox next.store.inbox)
    (taken : system.Taken mid) : next.Taken mid := by
  obtain ⟨row, found, written⟩ := taken
  obtain ⟨after, there, rfl | step⟩ := inbox.kept found
  · exact ⟨_, there, written⟩
  · exact ⟨after, there, step.status.written written⟩

theorem initial_consistent : Consistent System.initial := by
  intro old member mid row found
  simp only [System.committed, System.initial, List.mem_singleton] at member
  subst member
  simp [Store.empty] at found

theorem Consistent.step (consistent : Consistent system) (step : Step outside system label next) :
    Consistent next := by
  intro old member mid row found
  rcases step_committed step old member with rfl | earlier
  · exact ⟨row, found, Nat.le_refl _, fun _ => rfl⟩
  · obtain ⟨now, there, order, same⟩ := consistent earlier found
    obtain ⟨after, final, rfl | changed⟩ := (step_inbox consistent step).kept there
    · exact ⟨_, final, order, same⟩
    · have version := changed.version
      exact ⟨after, final, by omega, fun equal => by omega⟩

def Label.writes : Label → Option String
  | .wrote mid | .applied mid => some mid
  | _ => none

theorem Label.callsWriter_iff {label : Label} : label.callsWriter mid = true ↔ label.writes = some mid := by
  cases label <;> simp [Label.callsWriter, Label.writes]

theorem step_calls (step : Step outside system label next) (calls : label.writes = some mid) :
    ∃ row, system.store.inbox.get? mid = some row ∧ row.data.status = .claimed := by
  cases step with
  | fail inFlight done =>
    cases calls
    exact finish_called (fun reason => by rw [done]; exact nofun)
  | apply inFlight done =>
    cases calls
    exact finish_called (fun reason => by rw [done]; exact nofun)
  | die inFlight called asked =>
    cases calls
    exact ⟨_, beforeWrite_claimed called⟩
  | _ => cases calls

theorem step_moves (consistent : Consistent system) (step : Step outside system label next) :
    system.desk.Move next.desk label.writes := by
  have grows (mid : String) (taken : system.Taken mid) : next.Taken mid := taken_kept (step_inbox consistent step) taken
  cases step with
  | reserve _ done =>
    obtain ⟨_, same, row, claimed, found, pending, there, status⟩ := reserve_effect done
    subst same
    refine .reserve _ ?_ grows ⟨claimed, there, by rw [status]; rfl⟩ (pendingOf_reserved ..)
    rintro ⟨taken, here, written⟩
    cases here.symm.trans found
    simp [pending, InboxStatus.notWritten] at written
  | refuse inFlight done => exact .fails inFlight grows
  | fail inFlight done => exact .firesFailing inFlight grows
  | apply inFlight done => exact .fires inFlight grows
  | die inFlight called asked => exact .fires inFlight grows
  | crash inFlight => exact .drops inFlight grows
  | markUnknown inFlight done => exact .drops inFlight grows
  | _ => exact .keep grows (List.Sublist.refl _)

theorem resolved_kept (consistent : Consistent system) (step : Step outside system label next)
    (found : system.store.inbox.get? mid = some row) (resolved : row.data.status.resolved = true) :
    (∃ now, next.store.inbox.get? mid = some now ∧ now.data.status = row.data.status) ∧ label.callsWriter mid = false := by
  constructor
  · obtain ⟨now, there, rfl | changed⟩ := (step_inbox consistent step).kept found
    · exact ⟨_, there, rfl⟩
    · exact ⟨now, there, changed.status.resolved resolved⟩
  · by_contra called
    obtain ⟨current, there, claimed⟩ := step_calls step (Label.callsWriter_iff.mp (by simpa using called))
    cases there.symm.trans found
    simp [claimed, InboxStatus.resolved] at resolved

theorem reachable_consistent (run : Run (Step outside) System.initial labels system) : Consistent system :=
  run.invariant initial_consistent fun consistent step => consistent.step step

/-- From a reachable state on, a resolved message keeps its status and its writer is never called. -/
theorem resolved_forever (consistent : Consistent system)
    (found : system.store.inbox.get? mid = some row) (resolved : row.data.status.resolved = true)
    (run : Run (Step outside) system labels final) :
    (∃ now, final.store.inbox.get? mid = some now ∧ now.data.status = row.data.status) ∧
      labels.countP (Label.callsWriter mid) = 0 := by
  have strong := run.strengthen consistent fun consistent step => consistent.step step
  refine strong.history (motive := fun labels final => (∃ now, final.store.inbox.get? mid = some now ∧
    now.data.status = row.data.status) ∧ labels.countP (Label.callsWriter mid) = 0) ⟨⟨row, found, rfl⟩, rfl⟩ ?_
  intro labels state label next _ ⟨⟨now, there, same⟩, silent⟩ ⟨consistent, step⟩
  obtain ⟨⟨after, final, status⟩, quiet⟩ := resolved_kept consistent step there (by rw [same, resolved])
  refine ⟨⟨after, final, status.trans same⟩, ?_⟩
  rw [List.countP_append, silent, List.countP_singleton, quiet]
  rfl

/-- Whatever callers do, the writer is called at most once for a message; where it was
called, the message is not reported as not written; and once the message is resolved it
stays so, and the writer is not called for it. -/
theorem writer_called_at_most_once (outside : Outside) (mid : String)
    (run : Run (Step outside) System.initial labels system) :
    labels.countP (Label.callsWriter mid) ≤ 1 ∧
    (0 < labels.countP (Label.callsWriter mid) →
      ∃ row, system.store.inbox.get? mid = some row ∧ row.data.status.notWritten = false) ∧
    ∀ row, system.store.inbox.get? mid = some row → row.data.status.resolved = true →
      ∀ later final, Run (Step outside) system later final →
        (∃ now, final.store.inbox.get? mid = some now ∧ now.data.status = row.data.status) ∧
          later.countP (Label.callsWriter mid) = 0 := by
  have strong := run.strengthen initial_consistent fun consistent step => consistent.step step
  have vacant : System.initial.desk.Consistent := ⟨fun _ waiting => (nomatch waiting), List.nodup_nil⟩
  have counted : Label.callsWriter mid = fun label => decide (label.writes = some mid) :=
    funext fun label => Bool.eq_iff_iff.mpr (Label.callsWriter_iff.trans decide_eq_true_iff.symm)
  obtain ⟨once, taken⟩ := strong.fires_reserved_once System.desk Label.writes vacant
    (fun step => step_moves step.1 step.2) mid
  rw [counted]
  refine ⟨once, taken, fun row found resolved later final after => ?_⟩
  rw [← counted]
  exact resolved_forever (reachable_consistent run) found resolved after

def plainOutside : Outside where
  digest _ := "digest"
  safeSnapshot := .ok
  canonical _ := ""
  envelopeSize _ := 0
  rowsSize _ _ _ := 0
  locks := ⟨fun _ => none, fun _ => ""⟩

def chapterOne : Snapshot := ⟨"Chapter one", docOf []⟩

def firstMessage : Envelope :=
  ⟨"stream", "peer", "endpoint", "message", 1, "remote", 1, .snapshot, chapterOne, some chapterOne⟩

def openBook : Book := ⟨fun cid => .ok ⟨cid, 1, false, "Chapter one", docOf []⟩, .ok []⟩

theorem applied_run : ∃ system row, Run (Step plainOutside) System.initial
    [.quiet, .received "channel" firstMessage false, .reserved "message", .applied "message"] system ∧
    system.store.inbox.get? "message" = some row ∧ row.data.status = .applied := by
  have opened := Run.one (Step.openChannel (by decide)
    (show openChannel plainOutside ⟨"author", true⟩ ⟨"stream", "endpoint", "peer", [], true, by decide⟩ (fun _ => .ok ()) "channel"
      openBook System.initial.store = .ok _ from rfl))
  have received := opened.snoc (Step.receive (List.mem_cons_self ..)
    (show receive plainOutside ⟨"author", true⟩ "channel" ⟨1, firstMessage, none, true⟩ (fun _ => .ok ()) _ _ openBook =
      .ok _ from rfl))
  have reserved := received.snoc (Step.reserve (List.mem_cons_self ..)
    (show reserve plainOutside ⟨"author", true⟩ "message" ⟨1, ∅, "digest"⟩ (fun _ => true) (fun _ => .ok ())
      ⟨_, openBook⟩ _ openBook = .ok _ from rfl))
  have applied := reserved.snoc (Step.apply (show _ = [] ++ _ :: [] from rfl)
    (show finish plainOutside _ (fun _ => .ok ()) _ openBook (fun _ => .returned "chapter" openBook) =
      .committed _ _ _ from rfl))
  exact ⟨_, _, applied, rfl, rfl⟩

/-- A message that is applied was written once and is never written again. -/
theorem applied_message_stays_written : ∃ labels system, Run (Step plainOutside) System.initial labels system ∧
    labels.countP (Label.callsWriter "message") = 1 ∧
    ∀ later final, Run (Step plainOutside) system later final → later.countP (Label.callsWriter "message") = 0 := by
  obtain ⟨system, row, run, found, status⟩ := applied_run
  obtain ⟨once, _, resolved⟩ := writer_called_at_most_once plainOutside "message" run
  refine ⟨_, system, run, by decide, fun later final after => ?_⟩
  exact (resolved row found (by rw [status]; rfl) later final after).2

end NovelStudio.Sync
