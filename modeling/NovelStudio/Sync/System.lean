import NovelStudio.Library.Reservation
import NovelStudio.Sync.Inbox

/-! The service under any number of callers. Transactions are atomic; what an operation
read before its transaction is a store that was committed some time before, and the
chapters it reads are any. -/

namespace NovelStudio.Sync

open Library Experimental

/-- A flight is an `apply` between its transactions, or after a failed second one. -/
structure System where
  store : Store
  past : List Store
  flights : List (Flight Call)

namespace System

def initial : System := ⟨Store.empty, [], []⟩

def committed (system : System) : List Store := system.store :: system.past

def commit (system : System) (store : Store) : System := { system with store, past := system.store :: system.past }

end System

inductive Label where
  | quiet
  | received (channelId : String) (envelope : Envelope) (duplicate : Bool)
  | reserved (messageId : String)
  /-- The writer was called, and the message is not recorded as applied. -/
  | wrote (messageId : String)
  | applied (messageId : String)
  | reconciled (messageId : String)
  | closed (messageId : String)

/-- Whether the writer was called for a message. -/
def Label.callsWriter (mid : String) : Label → Bool
  | .wrote other | .applied other => other = mid
  | _ => false

/-- Whether a message was applied or reconciled. -/
def Label.settles (mid : String) : Label → Bool
  | .applied other | .reconciled other => other = mid
  | _ => false

inductive Step (outside : Outside) : System → Label → System → Prop where
  /-- An operation fails, or only reads. -/
  | idle (system : System) : Step outside system .quiet system
  | openChannel (unused : fresh ∉ system.store.channels.keys)
      (done : openChannel outside caller value reauthorize fresh book system.store = .ok (next, row)) :
      Step outside system .quiet (system.commit next)
  | revoke (before : seen ∈ system.committed)
      (done : revoke caller rid version reauthorize seen system.store = .ok (next, row)) :
      Step outside system .quiet (system.commit next)
  | changeSelection (before : seen ∈ system.committed)
      (done : changeSelection outside caller rid value digest reauthorize seen system.store book = .ok (next, row)) :
      Step outside system .quiet (system.commit next)
  | queue (before : seen.store ∈ system.committed)
      (done : queue outside caller rid value reauthorize fresh seen system.store book = .ok (next, row)) :
      Step outside system .quiet (system.commit next)
  | exportMessage (before : seen.store ∈ system.committed)
      (done : exportMessage outside caller mid version digest reauthorize seen system.store book = .ok (next, row)) :
      Step outside system .quiet (system.commit next)
  | delivery (before : seen ∈ system.committed)
      (done : delivery caller mid version state given reauthorize seen system.store = .ok (next, row)) :
      Step outside system .quiet (system.commit next)
  | receive (before : seen ∈ system.committed)
      (done : receive outside caller rid value reauthorize seen system.store book = .ok (next, received)) :
      Step outside system (.received rid received.row.data.envelope received.duplicate) (system.commit next)
  | reserve (before : seen.store ∈ system.committed)
      (done : reserve outside caller mid value writers reauthorize seen system.store book = .ok (next, call)) :
      Step outside system (.reserved mid) { system.commit next with flights := system.flights ++ [⟨call, false⟩] }
  /-- The second transaction of `apply` fails before it calls the writer. -/
  | refuse (inFlight : system.flights = first ++ ⟨call, false⟩ :: rest)
      (done : finish outside call reauthorize system.store book writer = .refused reason) :
      Step outside system .quiet { system with flights := first ++ ⟨call, true⟩ :: rest }
  /-- It fails after the call, and is rolled back. -/
  | fail (inFlight : system.flights = first ++ ⟨call, false⟩ :: rest)
      (done : finish outside call reauthorize system.store book writer = .failed request reason) :
      Step outside system (.wrote call.messageId) { system with flights := first ++ ⟨call, true⟩ :: rest }
  | apply (inFlight : system.flights = first ++ ⟨call, false⟩ :: rest)
      (done : finish outside call reauthorize system.store book writer = .committed request next row) :
      Step outside system (.applied call.messageId) { system.commit next with flights := first ++ rest }
  /-- The process dies while or after the writer runs and before the commit. -/
  | die (inFlight : system.flights = first ++ ⟨call, false⟩ :: rest)
      (called : beforeWrite outside call reauthorize system.store book = .ok row)
      (asked : call.request = .ok request) :
      Step outside system (.wrote call.messageId) { system with flights := first ++ rest }
  /-- It dies at any other time; what `apply` still had to do is lost. -/
  | crash (inFlight : system.flights = first ++ flight :: rest) :
      Step outside system .quiet { system with flights := first ++ rest }
  | markUnknown (inFlight : system.flights = first ++ ⟨call, true⟩ :: rest)
      (done : markUnknown outside call.messageId system.store = .ok next) :
      Step outside system .quiet { system.commit next with flights := first ++ rest }
  | close (before : seen.store ∈ system.committed)
      (done : recover outside caller mid value reauthorize seen system.store book = .ok (.closed next row)) :
      Step outside system (.closed mid) (system.commit next)
  | adopt (before : seen.store ∈ system.committed)
      (done : recover outside caller mid value reauthorize seen system.store book = .ok (.adopted next row)) :
      Step outside system (.reconciled mid) (system.commit next)

end NovelStudio.Sync

/-! What each operation does to the inbox and to the cursors and tombstones of channels. -/

namespace NovelStudio.Sync

open Library Experimental

def StatusStep (before after : InboxStatus) : Prop :=
  after = before ∨
  (before = .pendingReview ∧ (after = .superseded ∨ after = .selectionRevoked ∨ after = .claimed)) ∨
  ((before = .claimed ∨ before = .unknown) ∧
    (after = .unknown ∨ after = .applied ∨ after = .reconciled ∨ after = .closedWithoutReplay))

structure RowStep (row next : Row InboxRow) : Prop where
  channelId : next.data.channelId = row.data.channelId
  envelope : next.data.envelope = row.data.envelope
  version : next.version = row.version + 1
  status : StatusStep row.data.status next.data.status

/-- What an operation does to the inbox; a new message is still to be reviewed. -/
abbrev InboxStep := RowsStep RowStep fun next => next.data.status = .pendingReview

/-- What every operation does that accepts no envelope. -/
structure Effect (before after : Store) : Prop where
  inbox : InboxStep before.inbox after.inbox
  nothingNew : ∀ ⦃mid⦄, before.inbox.get? mid = none → after.inbox.get? mid = none
  channels : ∀ ⦃rid channel⦄, before.channels.get? rid = some channel → ∃ next, after.channels.get? rid = some next ∧
    next.data.receiveCursor = channel.data.receiveCursor ∧ next.data.tombstones = channel.data.tombstones

theorem channels_set {channels : Dict String (Row Channel)} (found : channels.get? rid = some channel)
    (cursor : next.data.receiveCursor = channel.data.receiveCursor) (tombstones : next.data.tombstones = channel.data.tombstones) :
    ∀ ⦃other stored⦄, channels.get? other = some stored → ∃ after, (channels.set rid next).get? other = some after ∧
      after.data.receiveCursor = stored.data.receiveCursor ∧ after.data.tombstones = stored.data.tombstones := by
  intro other stored there
  rw [Dict.get?_set]
  split
  · rename_i same
    subst same
    cases there.symm.trans found
    exact ⟨next, rfl, cursor, tombstones⟩
  · exact ⟨stored, there, rfl, rfl⟩

namespace Effect

theorem refl (store : Store) : Effect store store :=
  ⟨.refl _, fun _ absent => absent, fun _ channel found => ⟨channel, found, rfl, rfl⟩⟩

theorem setChannel {store : Store} (found : store.channels.get? rid = some channel)
    (cursor : next.data.receiveCursor = channel.data.receiveCursor) (tombstones : next.data.tombstones = channel.data.tombstones) :
    Effect store { store with channels := store.channels.set rid next } :=
  ⟨.refl _, fun _ absent => absent, channels_set found cursor tombstones⟩

theorem outbox (store : Store) (rows : Dict String (Row OutboxRow)) : Effect store { store with outbox := rows } :=
  ⟨.refl _, fun _ absent => absent, fun _ channel found => ⟨channel, found, rfl, rfl⟩⟩

theorem message {store : Store} (found : store.inbox.get? mid = some row) (step : RowStep row next) :
    Effect store { store with inbox := store.inbox.set mid next } := by
  refine ⟨.set found step, fun other absent => ?_, fun _ channel there => ⟨channel, there, rfl, rfl⟩⟩
  have different : other ≠ mid := by
    rintro rfl
    simp [found] at absent
  simpa only [Dict.get?_set_ne _ _ different] using absent

end Effect

variable {store : Store}

theorem openChannel_effect (unused : fresh ∉ store.channels.keys)
    (done : openChannel outside caller value reauthorize fresh book store = .ok (next, row)) : Effect store next := by
  simp only [openChannel, bind_ok, pure_ok, Prod.mk.injEq] at done
  obtain ⟨_, _, _, _, _, _, baseline, _, _, _, _, _, _, _, _, _, _, _, rfl, _⟩ := done
  refine ⟨.refl _, fun _ absent => absent, fun rid channel found => ⟨channel, ?_, rfl, rfl⟩⟩
  have different : rid ≠ fresh := by
    rintro rfl
    exact unused (Dict.mem_keys_iff.mpr ⟨channel, found⟩)
  simpa only [Dict.get?_set_ne _ _ different] using found

theorem revoke_effect (done : revoke caller rid version reauthorize seen store = .ok (next, row)) :
    Effect store next := by
  simp only [revoke, bind_ok, discard_ok, pure_ok, stored_ok, advance_ok, Prod.mk.injEq] at done
  obtain ⟨_, _, _, _, channel, found, changed, ⟨_, rfl⟩, _, _, rfl, _⟩ := done
  exact .setChannel found rfl rfl

theorem invalidate_step (row : Row InboxRow) : RowStep row (bump row InboxRow.invalidate) := by
  refine ⟨rfl, rfl, rfl, ?_⟩
  simp only [bump, InboxRow.invalidate, StatusStep]
  split
  · rename_i pending
    simp [pending]
  · exact .inl rfl

theorem changeSelection_effect
    (done : changeSelection outside caller rid value digest reauthorize seen store book = .ok (next, row)) :
    Effect store next := by
  simp only [changeSelection, bind_ok, discard_ok, pure_ok, stored_ok, advance_ok, Prod.mk.injEq] at done
  obtain ⟨_, _, _, _, channel, found, _, _, plan, _, _, _, changed, ⟨_, rfl⟩, _, _, _, _, rfl, _⟩ := done
  refine ⟨?_, fun mid absent => ?_, channels_set found rfl rfl⟩
  · simp only
    apply RowsStep.mapValues
    intro mid row
    split
    · exact .inr (invalidate_step row)
    · exact .inl rfl
  · simp [absent]

theorem queue_effect
    (done : queue outside caller rid value reauthorize fresh seen store book = .ok (next, row)) : Effect store next := by
  simp only [queue, bind_ok, stored_ok] at done
  obtain ⟨_, _, _, _, current, _, _, _, _, _, channel, found, _, _, done⟩ := done
  split at done
  · simp only [bind_ok, pure_ok, Prod.mk.injEq] at done
    obtain ⟨_, _, rfl, _⟩ := done
    exact .refl store
  · simp only [bind_ok, pure_ok, advance_ok, Prod.mk.injEq] at done
    obtain ⟨_, _, _, _, _, _, _, _, again, _, _, _, base, _, changed, ⟨_, rfl⟩, _, _, _, _, rfl, _⟩ := done
    exact ⟨.refl _, fun _ absent => absent, channels_set found rfl rfl⟩

theorem exportMessage_effect
    (done : exportMessage outside caller mid version digest reauthorize seen store book = .ok (next, row)) :
    Effect store next := by
  simp only [exportMessage, bind_ok, pure_ok, Prod.mk.injEq] at done
  obtain ⟨_, _, _, _, _, _, _, _, row, _, _, _, _, _, _, _, _, _, changed, _, rfl, _⟩ := done
  exact .outbox store _

theorem delivery_effect
    (done : delivery caller mid version state given reauthorize seen store = .ok (next, row)) : Effect store next := by
  simp only [delivery, bind_ok, discard_ok, pure_ok, Prod.mk.injEq] at done
  obtain ⟨_, _, _, _, _, _, row, _, _, _, _, _, changed, _, _, _, rfl, _⟩ := done
  exact .outbox store _

end NovelStudio.Sync
