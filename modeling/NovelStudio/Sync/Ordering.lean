import NovelStudio.Sync.AtMostOnce

/-! The order of accepted envelopes, deliveries that repeat, and the finality of tombstones. -/

namespace NovelStudio.Sync

open Library Experimental

def Label.acceptedOn (rid : String) : Label → Option Envelope
  | .received other envelope false => if other = rid then some envelope else none
  | _ => none

/-- Cursors and tombstones of channels only grow. -/
def Grows (before after : System) : Prop :=
  ∀ rid channel, before.store.channels.get? rid = some channel → ∃ next, after.store.channels.get? rid = some next ∧
    channel.data.receiveCursor ≤ next.data.receiveCursor ∧ channel.data.tombstones ⊆ next.data.tombstones

variable {system : System}

theorem step_grows (consistent : Consistent system) (step : Step outside system label next) :
    Grows system next := by
  intro rid channel found
  rcases step_store consistent step with effect | ⟨other, envelope, _, accepted⟩
  · obtain ⟨after, there, cursor, tombstones⟩ := effect.channels found
    exact ⟨after, there, by rw [cursor], by rw [tombstones]; exact List.Subset.refl _⟩
  · by_cases same : rid = other
    · subst same
      obtain ⟨before, after, was, there, ordered, _, cursor, tombstones⟩ := accepted.channel
      cases was.symm.trans found
      refine ⟨after, there, by omega, ?_⟩
      rw [tombstones]
      split
      · exact List.subset_append_left ..
      · exact List.Subset.refl _
    · exact ⟨channel, by rw [accepted.others same, found], Nat.le_refl _, List.Subset.refl _⟩

theorem run_grows (consistent : Consistent system) (run : Run (Step outside) system labels final) :
    Grows system final := by
  have strong := run.strengthen consistent fun consistent step => consistent.step step
  refine strong.related (fun _ _ channel found => ⟨channel, found, Nat.le_refl _, List.Subset.refl _⟩) ?_
    fun step => step_grows step.1 step.2
  intro first second third left right rid channel found
  obtain ⟨middle, there, cursor, tombstones⟩ := left rid channel found
  obtain ⟨last, final, cursor', tombstones'⟩ := right rid middle there
  exact ⟨last, final, Nat.le_trans cursor cursor', List.Subset.trans tombstones tombstones'⟩

theorem run_message (consistent : Consistent system) (run : Run (Step outside) system labels final)
    (found : system.store.inbox.get? mid = some row) : ∃ now, final.store.inbox.get? mid = some now ∧
      now.data.channelId = row.data.channelId ∧ now.data.envelope = row.data.envelope := by
  have strong := run.strengthen consistent fun consistent step => consistent.step step
  refine strong.invariant (motive := fun final => ∃ now, final.store.inbox.get? mid = some now ∧
    now.data.channelId = row.data.channelId ∧ now.data.envelope = row.data.envelope) ⟨row, found, rfl, rfl⟩ ?_
  rintro state label next ⟨now, there, channel, envelope⟩ ⟨consistent, step⟩
  obtain ⟨after, final, rfl | changed⟩ := (step_inbox consistent step).kept there
  · exact ⟨_, final, channel, envelope⟩
  · exact ⟨after, final, changed.channelId.trans channel, changed.envelope.trans envelope⟩

/-- Messages lie behind the cursor of their channel, and no message of a tombstoned
chapter is still to be written. -/
structure Ordered (system : System) : Prop where
  behind : ∀ ⦃mid row⦄, system.store.inbox.get? mid = some row → ∃ channel,
    system.store.channels.get? row.data.channelId = some channel ∧
      row.data.envelope.sequence ≤ channel.data.receiveCursor
  buried : ∀ ⦃mid row channel⦄, system.store.inbox.get? mid = some row →
    system.store.channels.get? row.data.channelId = some channel → row.data.envelope.operation = .snapshot →
    row.data.envelope.sourceChapterId ∈ channel.data.tombstones →
    row.data.status ≠ .pendingReview ∧ row.data.status ≠ .claimed ∧ row.data.status ≠ .unknown

theorem StatusStep.settled (step : StatusStep before after)
    (settled : before ≠ .pendingReview ∧ before ≠ .claimed ∧ before ≠ .unknown) : after = before := by
  rcases step with same | ⟨pending, _⟩ | ⟨claimed | unknown, _⟩
  · exact same
  · exact absurd pending settled.1
  · exact absurd claimed settled.2.1
  · exact absurd unknown settled.2.2

theorem inbox_source {before after : Dict String (Row InboxRow)} (step : InboxStep before after)
    (known : before.get? mid = none → after.get? mid = none) (found : after.get? mid = some row) : ∃ was, before.get? mid = some was ∧
      row.data.channelId = was.data.channelId ∧ row.data.envelope = was.data.envelope ∧
      StatusStep was.data.status row.data.status := by
  cases earlier : before.get? mid with
  | none => simp [known earlier] at found
  | some was =>
    obtain ⟨next, there, rfl | changed⟩ := step.kept earlier
    · cases there.symm.trans found
      exact ⟨_, rfl, rfl, rfl, .inl rfl⟩
    · cases there.symm.trans found
      exact ⟨was, rfl, changed.channelId, changed.envelope, changed.status⟩

theorem Ordered.step (ordered : Ordered system) (consistent : Consistent system)
    (step : Step outside system label next) : Ordered next := by
  rcases step_store consistent step with effect | ⟨rid, envelope, _, accepted⟩
  · have source {mid row} (found : next.store.inbox.get? mid = some row) :=
      inbox_source effect.inbox (fun absent => effect.nothingNew absent) found
    refine ⟨fun mid row found => ?_, fun mid row channel found there snapshot tombstoned => ?_⟩
    · obtain ⟨was, earlier, channelId, same, _⟩ := source found
      obtain ⟨channel, there, behind⟩ := ordered.behind earlier
      obtain ⟨after, final, cursor, _⟩ := effect.channels there
      exact ⟨after, by rw [channelId, final], by rw [same, cursor]; exact behind⟩
    · obtain ⟨was, earlier, channelId, same, status⟩ := source found
      obtain ⟨channel', before, _⟩ := ordered.behind earlier
      obtain ⟨after, final, _, tombstones⟩ := effect.channels before
      rw [channelId] at there
      cases there.symm.trans final
      rw [same] at snapshot tombstoned
      rw [tombstones] at tombstoned
      have settled := ordered.buried earlier before snapshot tombstoned
      rw [status.settled settled]
      exact settled
  · have source {mid row} (different : mid ≠ envelope.messageId) (found : next.store.inbox.get? mid = some row) :=
      inbox_source accepted.inbox (accepted.onlyOne different) found
    obtain ⟨before, after, was, there, newer, alive, cursor, tombstones⟩ := accepted.channel
    obtain ⟨new, stored, newChannel, newEnvelope⟩ := accepted.stored
    refine ⟨fun mid row found => ?_, fun mid row channel found located snapshot tombstoned => ?_⟩
    · by_cases here : mid = envelope.messageId
      · subst here
        cases stored.symm.trans found
        exact ⟨after, by rw [newChannel, there], by rw [newEnvelope, cursor]⟩
      · obtain ⟨old, earlier, channelId, same, _⟩ := source here found
        obtain ⟨channel, located, behind⟩ := ordered.behind earlier
        by_cases own : old.data.channelId = rid
        · rw [own] at located
          cases located.symm.trans was
          exact ⟨after, by rw [channelId, own, there], by rw [same]; omega⟩
        · exact ⟨channel, by rw [channelId, accepted.others own, located], by rw [same]; exact behind⟩
    · by_cases here : mid = envelope.messageId
      · -- The new message is of a chapter that is not tombstoned.
        subst here
        cases stored.symm.trans found
        rw [newChannel] at located
        cases located.symm.trans there
        rw [newEnvelope] at snapshot tombstoned
        rw [tombstones, snapshot] at tombstoned
        exact absurd tombstoned alive
      · obtain ⟨old, earlier, channelId, same, status⟩ := source here found
        by_cases own : row.data.channelId = rid
        · by_cases sameSource : row.data.envelope.sourceChapterId = envelope.sourceChapterId
          · exact accepted.settled here found own sameSource
          · rw [own] at located
            cases located.symm.trans there
            have earlierTombstone : old.data.envelope.sourceChapterId ∈ before.data.tombstones := by
              rw [tombstones] at tombstoned
              rw [← same]
              split at tombstoned
              · simpa [sameSource] using tombstoned
              · exact tombstoned
            rw [same] at snapshot
            have settled := ordered.buried earlier (by rw [← channelId, own, was]) snapshot earlierTombstone
            rw [status.settled settled]
            exact settled
        · rw [accepted.others own, channelId] at located
          rw [same] at snapshot tombstoned
          have settled := ordered.buried earlier located snapshot tombstoned
          rw [status.settled settled]
          exact settled

theorem initial_ordered : Ordered System.initial :=
  ⟨fun mid row found => by simp [System.initial, Store.empty] at found,
    fun mid row channel found => by simp [System.initial, Store.empty] at found⟩

theorem reachable_ordered (run : Run (Step outside) System.initial labels system) : Ordered system :=
  (run.strengthen initial_consistent fun consistent step => consistent.step step).invariant initial_ordered
    fun ordered step => ordered.step step.1 step.2

theorem step_accepts (step : Step outside system label next)
    (accepts : label = .received rid envelope false) : Accepted rid envelope system.store next.store := by
  cases step with
  | receive _ done =>
    injection accepts with sameChannel sameEnvelope fresh
    subst sameChannel sameEnvelope
    rcases receive_cases done with ⟨duplicate, _⟩ | ⟨_, accepted⟩
    · simp [fresh] at duplicate
    · exact accepted
  | _ => cases accepts

theorem acceptedOn_eq_some {label : Label} : label.acceptedOn rid = some envelope ↔ label = .received rid envelope false := by
  cases label with
  | received other stored duplicate =>
    cases duplicate with
    | true => simp [Label.acceptedOn]
    | false =>
      by_cases same : other = rid <;> simp [Label.acceptedOn, same]
  | _ => simp [Label.acceptedOn]

/-- The envelopes accepted on a channel come in the order of their sequences, and none is
beyond the cursor. -/
theorem accepted_sorted (rid : String) (run : Run (Step outside) System.initial labels system) :
    ((labels.filterMap (Label.acceptedOn rid)).map Envelope.sequence).Pairwise (· < ·) ∧
    ∀ envelope ∈ labels.filterMap (Label.acceptedOn rid), ∃ channel, system.store.channels.get? rid = some channel ∧
      envelope.sequence ≤ channel.data.receiveCursor := by
  have strong := run.strengthen initial_consistent fun consistent step => consistent.step step
  refine strong.history (motive := fun labels system =>
    ((labels.filterMap (Label.acceptedOn rid)).map Envelope.sequence).Pairwise (· < ·) ∧
    ∀ envelope ∈ labels.filterMap (Label.acceptedOn rid), ∃ channel, system.store.channels.get? rid = some channel ∧
      envelope.sequence ≤ channel.data.receiveCursor) ⟨List.Pairwise.nil, by simp⟩ ?_
  intro labels state label next _ ⟨sorted, behind⟩ ⟨consistent, step⟩
  have later : ∀ envelope ∈ labels.filterMap (Label.acceptedOn rid), ∃ channel,
      next.store.channels.get? rid = some channel ∧ envelope.sequence ≤ channel.data.receiveCursor := by
    intro envelope member
    obtain ⟨channel, found, bound⟩ := behind envelope member
    obtain ⟨after, there, cursor, _⟩ := step_grows consistent step rid channel found
    exact ⟨after, there, Nat.le_trans bound cursor⟩
  rw [List.filterMap_append, List.map_append]
  cases accepted : label.acceptedOn rid with
  | none =>
    have nothing : [label].filterMap (Label.acceptedOn rid) = [] := by simp [accepted]
    rw [nothing, List.map_nil, List.append_nil, List.append_nil]
    exact ⟨sorted, later⟩
  | some envelope =>
    have one : [label].filterMap (Label.acceptedOn rid) = [envelope] := by simp [accepted]
    obtain ⟨before, after, was, there, newer, _, cursor, _⟩ :=
      (step_accepts step (acceptedOn_eq_some.mp accepted)).channel
    rw [one, List.map_singleton]
    refine ⟨List.pairwise_append.mpr ⟨sorted, List.pairwise_singleton .., fun sequence member last here => ?_⟩,
      fun other member => ?_⟩
    · obtain ⟨earlier, found, rfl⟩ := List.mem_map.mp member
      obtain ⟨channel, same, bound⟩ := behind earlier found
      cases same.symm.trans was
      rw [List.mem_singleton.mp here]
      omega
    · rcases List.mem_append.mp member with member | member
      · exact later other member
      · rw [List.mem_singleton.mp member]
        exact ⟨after, there, by omega⟩

theorem accepted_kept (run : Run (Step outside) System.initial labels system)
    (accepted : .received rid envelope false ∈ labels) :
    (∃ row, system.store.inbox.get? envelope.messageId = some row) ∧
    ∃ channel, system.store.channels.get? rid = some channel ∧
      (envelope.operation = .tombstone → envelope.sourceChapterId ∈ channel.data.tombstones) := by
  obtain ⟨before, after, rfl⟩ := List.append_of_mem accepted
  obtain ⟨middle, first, rest⟩ := run.split (before ++ [.received rid envelope false]) after (by simp)
  obtain ⟨state, earlier, step⟩ := first.last
  have consistent := reachable_consistent first
  have effect := step_accepts step rfl
  obtain ⟨row, stored, _⟩ := effect.stored
  obtain ⟨now, there, _⟩ := run_message consistent rest stored
  obtain ⟨_, channel, _, found, _, _, _, tombstones⟩ := effect.channel
  obtain ⟨final, last, _, grown⟩ := run_grows consistent rest rid channel found
  refine ⟨⟨now, there⟩, final, last, fun tombstone => grown ?_⟩
  rw [tombstones, if_pos tombstone]
  simp

theorem step_unresolved (step : Step outside system label next)
    (writes : (label.settles mid || label.callsWriter mid) = true) :
    ∃ row, system.store.inbox.get? mid = some row ∧ Unresolved row.data.status := by
  by_cases calls : label.callsWriter mid = true
  · obtain ⟨row, found, claimed⟩ := step_calls step (Label.callsWriter_iff.mp calls)
    exact ⟨row, found, .inl claimed⟩
  · rw [Bool.or_eq_true] at writes
    have settles := writes.resolve_right calls
    cases step with
    | adopt _ done =>
      obtain rfl : _ = mid := by simpa [Label.settles] using settles
      exact (recover_adopted done).2
    | apply _ _ => exact absurd settles calls
    | _ => cases settles

theorem tombstone_final (run : Run (Step outside) System.initial labels system)
    (accepted : .received rid envelope false ∈ labels) (tombstone : envelope.operation = .tombstone)
    (after : Run (Step outside) system later final) (found : final.store.inbox.get? mid = some row)
    (own : row.data.channelId = rid) (source : row.data.envelope.sourceChapterId = envelope.sourceChapterId)
    (snapshot : row.data.envelope.operation = .snapshot) :
    ∀ label ∈ later, (label.settles mid || label.callsWriter mid) = false := by
  intro label member
  by_contra writes
  obtain ⟨before, behind, rfl⟩ := List.append_of_mem member
  obtain ⟨next, first, rest⟩ := after.split (before ++ [label]) behind (by simp)
  obtain ⟨state, earlier, step⟩ := first.last
  have whole := run.append earlier
  obtain ⟨current, there, unresolved⟩ := step_unresolved step (eq_true_of_ne_false writes)
  obtain ⟨now, last, channelId, same⟩ := run_message (reachable_consistent whole)
    ((Run.one step).append rest) there
  cases last.symm.trans found
  obtain ⟨_, channel, located, buried⟩ := accepted_kept whole (List.mem_append_left _ accepted)
  have settled := (reachable_ordered whole).buried there (by rw [← channelId, own, located])
    (by rw [← same, snapshot]) (by rw [← same, source]; exact buried tombstone)
  rcases unresolved with claimed | unknown
  · exact settled.2.1 claimed
  · exact settled.2.2 unknown

/-- Receiving is ordered and tombstones are final: cursors never fall, accepted sequences
rise, a delivery of an accepted envelope changes nothing, and after a tombstone no
snapshot of its chapter is applied, reconciled or handed to the writer. -/
theorem receive_ordered (outside : Outside) (run : Run (Step outside) System.initial labels system) :
    (∀ rid channel later final, system.store.channels.get? rid = some channel →
      Run (Step outside) system later final → ∃ next, final.store.channels.get? rid = some next ∧
        channel.data.receiveCursor ≤ next.data.receiveCursor) ∧
    (∀ rid, ((labels.filterMap (Label.acceptedOn rid)).map Envelope.sequence).Pairwise (· < ·)) ∧
    (∀ rid envelope, .received rid envelope false ∈ labels →
      ∀ caller other value reauthorize seen book next received, value.envelope.messageId = envelope.messageId →
        receive outside caller other value reauthorize seen system.store book = .ok (next, received) →
          next = system.store) ∧
    ∀ rid envelope, .received rid envelope false ∈ labels → envelope.operation = .tombstone →
      ∀ later final mid row, Run (Step outside) system later final → final.store.inbox.get? mid = some row →
        row.data.channelId = rid → row.data.envelope.sourceChapterId = envelope.sourceChapterId →
        row.data.envelope.operation = .snapshot →
          later.countP (fun label => label.settles mid || label.callsWriter mid) = 0 := by
  refine ⟨fun rid channel later final found after => ?_, fun rid => (accepted_sorted rid run).1, ?_, ?_⟩
  · obtain ⟨next, there, cursor, _⟩ := run_grows (reachable_consistent run) after rid channel found
    exact ⟨next, there, cursor⟩
  · intro rid envelope accepted caller other value reauthorize seen book next received same done
    obtain ⟨row, known⟩ := (accepted_kept run accepted).1
    exact (receive_known (by rw [same, known]) done).1
  · intro rid envelope accepted tombstone later final mid row after found own source snapshot
    rw [List.countP_eq_zero]
    intro label member
    simp [tombstone_final run accepted tombstone after found own source snapshot label member]

/-- The delivered message of a run, delivered again, changes nothing. -/
theorem delivered_again_changes_nothing : ∃ labels system, Run (Step plainOutside) System.initial labels system ∧
    .received "channel" firstMessage false ∈ labels ∧
    ∀ next received, receive plainOutside ⟨"author", true⟩ "channel" ⟨1, firstMessage, none, true⟩ (fun _ => .ok ())
      system.store system.store openBook = .ok (next, received) → next = system.store := by
  obtain ⟨system, row, run, found, status⟩ := applied_run
  obtain ⟨_, _, again, _⟩ := receive_ordered plainOutside run
  have accepted : .received "channel" firstMessage false ∈
      [Label.quiet, .received "channel" firstMessage false, .reserved "message", .applied "message"] := by simp
  exact ⟨_, system, run, accepted, fun next received => again "channel" firstMessage accepted _ _ _ _ _ _ _ _ rfl⟩

end NovelStudio.Sync
