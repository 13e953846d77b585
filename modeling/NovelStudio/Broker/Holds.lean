import NovelStudio.Broker.Admission

/-! The life of a hold: one for every key, never released once it was dispatched, and
never dispatched once it was finished. -/

namespace NovelStudio.Broker

open Library Experimental

theorem Effect.keeps_row {doc next : Doc} (effect : Effect doc next) (found : doc.ledger.get? key = some row) :
    ∃ later, next.ledger.get? key = some later ∧ (later = row ∨ Changes row.data later.data) := by
  cases effect with
  | created absent =>
    refine ⟨row, ?_, .inl rfl⟩
    rw [Dict.get?_set_ne, found]
    rintro rfl
    simp [absent] at found
  | changed there change changes =>
    rw [Dict.get?_set]
    split
    · rename_i same
      subst same
      cases there.symm.trans found
      exact ⟨_, rfl, .inr changes⟩
    · exact ⟨row, found, .inl rfl⟩
  | _ => exact ⟨row, found, .inl rfl⟩

theorem run_row {motive : Hold → Prop} (kept : ∀ {hold next}, motive hold → Changes hold next → motive next)
    {doc : Doc} (found : doc.ledger.get? key = some row) (holds : motive row.data) (calls : List Call) :
    ∃ later, (run digest calls doc).ledger.get? key = some later ∧ motive later.data := by
  induction calls generalizing doc row with
  | nil => exact ⟨row, found, holds⟩
  | cons call rest ih =>
    obtain ⟨later, there, same | changes⟩ := (after_effect digest doc call).keeps_row found
    · exact ih there (same ▸ holds)
    · exact ih there (kept holds changes)

theorem run_rows {motive : Hold → Prop} (kept : ∀ {hold next}, motive hold → Changes hold next → motive next)
    (fresh : ∀ input decision chosen price, motive (newHold input decision chosen price)) (calls : List Call)
    (found : (run digest calls .empty).ledger.get? key = some row) : motive row.data := by
  refine run_invariant (motive := fun doc => ∀ ⦃key row⦄, doc.ledger.get? key = some row → motive row.data) ?_ calls ?_ found
  · intro doc next holds effect
    cases effect with
    | created =>
      intro other row there
      simp only [Dict.get?_set] at there
      split at there
      · cases there
        exact fresh ..
      · exact holds there
    | changed before change changes =>
      intro other row there
      simp only [Dict.get?_set] at there
      split at there
      · cases there
        exact kept (holds before) changes
      · exact holds there
    | _ => exact holds
  · intro key row nothing
    simp [Doc.empty] at nothing

/-- What is accounted is the reserve until the actual amount is known. -/
def Hold.Honest (hold : Hold) : Prop :=
  hold.accountedMicrousd = if hold.actualMicrousd.isSome then hold.actualMicrousd else hold.reserveMicrousd

theorem Changes.honest (honest : hold.Honest) (changes : Changes hold next) : next.Honest := by
  cases changes <;> first | exact honest | rfl

/-- A hold that was sent: it is neither waiting nor released. -/
def Hold.Sent (hold : Hold) : Prop := hold.dispatched = true ∧ hold.status ≠ .reserved ∧ hold.status ≠ .released

theorem Changes.sent_kept (sent : hold.Sent) (changes : Changes hold next) : next.Sent := by
  obtain ⟨dispatched, waiting, released⟩ := sent
  cases changes with
  | sent => exact ⟨rfl, by rintro ⟨⟩, by rintro ⟨⟩⟩
  | settled _ actual => cases actual <;> simp [settle, Hold.Sent, dispatched]
  | recovered =>
    refine ⟨dispatched, ?_, ?_⟩ <;> simp only [recover] <;> split <;> first | assumption | rintro ⟨⟩
  | billed => exact ⟨dispatched, by rintro ⟨⟩, by rintro ⟨⟩⟩

theorem Changes.finished (done : hold.status.open = false) (changes : Changes hold next) : next.status.open = false := by
  cases changes with
  | sent waiting => simp [waiting, HoldStatus.open] at done
  | settled open' => simp [done] at open'
  | recovered =>
    simp only [recover]
    split
    · exact done
    · rfl
  | billed => rfl

theorem Changes.reserve (changes : Changes hold next) : next.reserveMicrousd = hold.reserveMicrousd := by
  cases changes <;> rfl

/-- A waiting hold was not sent, and a dispatched one was. -/
def Hold.Staged (hold : Hold) : Prop := hold.status = .dispatched → hold.dispatched = true

theorem Changes.staged (_ : hold.Staged) (changes : Changes hold next) : next.Staged := by
  cases changes with
  | sent => exact fun _ => rfl
  | settled _ actual =>
    intro here
    simp only [settle] at here
    split at here
    · cases here
    · split at here <;> cases here
  | recovered =>
    intro here
    simp only [recover] at here
    split at here
    · rename_i ended
      simp [here] at ended
    · cases here
  | billed => rintro ⟨⟩

/-- What tells apart the holds of one actor and idempotency key: the profile and its incarnation. -/
def Decision.space (decision : Decision) : Option (Profile × Option String) :=
  match decision.profile with
  | some .image => some (.image, decision.directorImageIncarnation)
  | some .nativeOcr => some (.nativeOcr, decision.nativeOcrIncarnation)
  | _ => none

theorem holdKey_space {decision other : Decision} (same : decision.space = other.space) (digest : Digest) (actor idempotencyKey : String) :
    holdKey digest actor idempotencyKey decision = holdKey digest actor idempotencyKey other := by
  unfold Decision.space at same
  unfold holdKey
  split at same <;> split at same <;> simp_all

theorem reserve_key (done : reserve digest host actor input doc = .ok (next, entry))
    (decided : doc.decisions.get? input.previewId = some row) :
    next.ledger.get? (holdKey digest actor input.idempotencyKey row.data) = some entry ∧
      (∀ old, doc.ledger.get? (holdKey digest actor input.idempotencyKey row.data) = some old → next = doc) := by
  simp only [reserve, bind_ok, reject_ok, fetch_ok, checkVersion_ok] at done
  obtain ⟨_, _, _, _, decision, there, _, _, _, _, _, _, _, _, _, _, done⟩ := done
  cases decided.symm.trans there
  split at done
  · rename_i old found
    simp only [bind_ok, pure_ok] at done
    obtain ⟨_, replayed, same⟩ := done
    cases same
    obtain ⟨rfl, _⟩ := replay_ok replayed
    exact ⟨found, fun _ _ => rfl⟩
  · rename_i absent
    simp only [createHold, bind_ok, reject_ok, fetch_ok, pure_ok] at done
    obtain ⟨_, _, chosen, _, _, _, _, _, same⟩ := done
    cases same
    refine ⟨Dict.get?_set_self .., fun old found => ?_⟩
    simp [absent] at found

theorem guardDispatch_sent (done : guardDispatch digest host actor reservationId jobId doc = .ok (next, entry))
    (staged : ∀ row, doc.ledger.get? reservationId = some row → row.data.Staged) :
    next.ledger.get? reservationId = some entry ∧ entry.data.Sent ∧ entry.data.status.open = true := by
  simp only [guardDispatch, bind_ok, reject_ok, fetch_ok, onlyIf_ok] at done
  obtain ⟨_, _, row, found, _, _, decision, _, _, _, _, _, _, _, _, _, _, _, _, terminal, chosen, _, _, _, done⟩ := done
  split at done
  · cases pure_ok.mp done
    exact ⟨Dict.get?_set_self .., ⟨rfl, by rintro ⟨⟩, by rintro ⟨⟩⟩, rfl⟩
  · rename_i started
    cases pure_ok.mp done
    have sent : entry.data.status = .dispatched := by
      cases status : entry.data.status <;> simp [status] at terminal started ⊢
    exact ⟨found, ⟨staged entry found sent, started, by simp [sent]⟩, by simp [sent, HoldStatus.open]⟩

theorem guardDispatch_open (done : guardDispatch digest host actor reservationId jobId doc = .ok (next, entry))
    (found : doc.ledger.get? reservationId = some row) : row.data.status.open = true := by
  simp only [guardDispatch, bind_ok, reject_ok, fetch_ok, onlyIf_ok] at done
  obtain ⟨_, _, stored, there, _, _, decision, _, _, _, _, _, _, _, _, _, _, _, _, terminal, _⟩ := done
  cases found.symm.trans there
  exact open_of_status terminal

theorem finalize_finished (done : finalize digest host actor reservationId jobId status usage doc = .ok (next, entry))
    (found : doc.ledger.get? reservationId = some row) (finished : row.data.status.open = false) : next = doc ∧ entry = row := by
  simp only [finalize, bind_ok, reject_ok, fetch_ok, onlyIf_ok] at done
  obtain ⟨stored, there, _, _, _, _, _, _, _, _, _, _, done⟩ := done
  cases found.symm.trans there
  split at done
  · cases pure_ok.mp done
    exact ⟨rfl, rfl⟩
  · rename_i waiting
    exact absurd (open_of_status (by simpa using waiting)) (by simp [finished])

theorem inflight_erase {doc : Doc} (found : doc.ledger.get? key = some row) (live : row.data.status.live = true)
    (current : row.data.current owner = true) :
    (totals owner doc).inflight = (totals owner { doc with ledger := doc.ledger.erase key }).inflight + 1 := by
  rw [inflight_eq, inflight_eq, Dict.total_erase _ found]
  simp [counts, live, current]

/-- The incarnations that a hold is bound to are the given one. -/
def Hold.BoundTo (owner : Option String) (hold : Hold) : Prop :=
  ∀ incarnation, hold.nativeOcrIncarnation = some incarnation ∨ hold.directorImageIncarnation = some incarnation → owner = some incarnation

theorem Hold.BoundTo.current {hold : Hold} (bound : hold.BoundTo owner) : hold.current owner = true := by
  have one (key : Option String) (among : key = hold.nativeOcrIncarnation ∨ key = hold.directorImageIncarnation) :
      (key.isNone || (owner.isSome && key = owner)) = true := by
    cases key with
    | none => rfl
    | some incarnation =>
      have same := bound incarnation (among.imp Eq.symm Eq.symm)
      simp [same]
  simp only [Hold.current, List.all_cons, List.all_nil, Bool.and_true]
  rw [one _ (.inl rfl), one _ (.inr rfl)]
  rfl

/-- One actor's idempotency key has one hold in one profile and incarnation, which later
reservations return; a dispatched hold is never released and accounts for its reserve
until its actual amount is known; a finished hold is neither dispatched nor finished
again; and a hold that is not finished is in flight while its project incarnation lasts. -/
theorem hold_lifecycle (digest : Digest) (calls more : List Call) :
    (∀ host actor input next entry decision, reserve digest host actor input (run digest calls .empty) = .ok (next, entry) →
      (run digest calls .empty).decisions.get? input.previewId = some decision →
      ∀ host' input' next' entry' decision', reserve digest host' actor input' (run digest more next) = .ok (next', entry') →
        input'.idempotencyKey = input.idempotencyKey → (run digest more next).decisions.get? input'.previewId = some decision' →
        decision'.data.space = decision.data.space →
        next' = run digest more next ∧
          ∃ key, next.ledger.get? key = some entry ∧ (run digest more next).ledger.get? key = some entry') ∧
    (∀ host actor rid jobId next entry, guardDispatch digest host actor rid jobId (run digest calls .empty) = .ok (next, entry) →
      ∃ row, (run digest more next).ledger.get? rid = some row ∧ row.data.status ≠ .released ∧
        row.data.reserveMicrousd = entry.data.reserveMicrousd ∧
        row.data.accountedMicrousd = if row.data.actualMicrousd.isSome then row.data.actualMicrousd else row.data.reserveMicrousd) ∧
    (∀ rid row, (run digest calls .empty).ledger.get? rid = some row → row.data.status.open = false →
      (∀ host actor jobId result, guardDispatch digest host actor rid jobId (run digest more (run digest calls .empty)) ≠ .ok result) ∧
      ∀ host actor jobId status usage next entry,
        finalize digest host actor rid jobId status usage (run digest more (run digest calls .empty)) = .ok (next, entry) →
        next = run digest more (run digest calls .empty) ∧ next.ledger.get? rid = some entry) ∧
    ∀ rid row owner, (run digest calls .empty).ledger.get? rid = some row →
      row.data.status ≠ .settled → row.data.status ≠ .released → row.data.status ≠ .reconciled → row.data.BoundTo owner →
      (totals owner (run digest calls .empty)).inflight =
        (totals owner { run digest calls .empty with ledger := (run digest calls .empty).ledger.erase rid }).inflight + 1 := by
  refine ⟨?_, ?_, ?_, ?_⟩
  · intro host actor input next entry decision done decided host' input' next' entry' decision' again same decided' space
    obtain ⟨found, _⟩ := reserve_key done decided
    obtain ⟨later, there, _⟩ := run_row (motive := fun _ => True) (fun _ _ => trivial) found trivial more
    obtain ⟨stored, unchanged⟩ := reserve_key again decided'
    rw [same, holdKey_space space] at stored unchanged
    cases unchanged later there
    exact ⟨rfl, _, found, stored⟩
  · intro host actor rid jobId next entry done
    have staged : ∀ row, (run digest calls .empty).ledger.get? rid = some row → row.data.Staged :=
      fun row found => run_rows Changes.staged (fun _ _ _ _ => by rintro ⟨⟩) calls found
    obtain ⟨found, sent, _⟩ := guardDispatch_sent done staged
    have honest : entry.data.Honest := by
      have call : next = after digest (run digest calls .empty) (.guardDispatch host actor rid jobId) := by
        simp [after, perform, done, Except.map]
      have ran : next = run digest (calls ++ [.guardDispatch host actor rid jobId]) .empty := by
        rw [call, run, run, List.foldl_append]
        rfl
      rw [ran] at found
      exact run_rows Changes.honest (fun _ _ _ _ => rfl) _ found
    obtain ⟨row, there, ⟨sent, same⟩, honest⟩ := run_row
      (motive := fun hold => (hold.Sent ∧ hold.reserveMicrousd = entry.data.reserveMicrousd) ∧ hold.Honest)
      (fun kept changes => ⟨⟨changes.sent_kept kept.1.1, changes.reserve.trans kept.1.2⟩, changes.honest kept.2⟩)
      found ⟨⟨sent, rfl⟩, honest⟩ more
    exact ⟨row, there, sent.2.2, same, honest⟩
  · intro rid row found finished
    obtain ⟨later, there, finished⟩ := run_row Changes.finished found finished more
    refine ⟨fun host actor jobId result done => ?_, fun host actor jobId status usage next entry done => ?_⟩
    · have open' := guardDispatch_open done there
      simp [finished] at open'
    · obtain ⟨rfl, rfl⟩ := finalize_finished done there finished
      exact ⟨rfl, there⟩
  · intro rid row owner found settled released reconciled bound
    apply inflight_erase found _ bound.current
    cases status : row.data.status <;> first | rfl | contradiction

/-- A hold of the sample run that was dispatched. -/
theorem dispatched_hold_stays : ∃ doc entry,
    guardDispatch String.join sampleHost "ann" "annk" "j"
      (run String.join (sampleCalls ++ [.reserve sampleHost "ann" ⟨"d", 1, "k", "j", none⟩]) .empty) = .ok (doc, entry) ∧
    ∃ row, (run String.join [.finalize sampleHost "ann" "annk" "j" .cancelled none] doc).ledger.get? "annk" = some row ∧
      row.data.status ≠ .released ∧ row.data.reserveMicrousd = entry.data.reserveMicrousd ∧
      row.data.accountedMicrousd = if row.data.actualMicrousd.isSome then row.data.actualMicrousd else row.data.reserveMicrousd := by
  obtain ⟨doc, entry, done⟩ : ∃ doc entry, guardDispatch String.join sampleHost "ann" "annk" "j"
      (run String.join (sampleCalls ++ [.reserve sampleHost "ann" ⟨"d", 1, "k", "j", none⟩]) .empty) = .ok (doc, entry) := ⟨_, _, rfl⟩
  exact ⟨doc, entry, done, (hold_lifecycle String.join _ _).2.1 _ _ _ _ _ _ done⟩

def nativeHost (owner : String) : Host := { sampleHost with owner := some owner, ownerLease := true }

def freeDecision (profile : Option Profile) : Decision :=
  { sampleDecision profile none with
    chosen := some ⟨"r", "f", "p", "m", profile = none, profile = some .nativeOcr, some (if profile = none then .synthetic else .nativeOcr)⟩
    nativeOcrIncarnation := if profile = some .nativeOcr then some "one" else none }

/-- Two previews of one actor, one of them of the native profile. -/
def nativeCalls : List Call :=
  [.configureBudget (nativeHost "one") "ann" 0 ⟨none, 2, true⟩, .preview "d" ⟨"ann", 1, freeDecision none⟩,
    .preview "n" ⟨"ann", 1, freeDecision (some .nativeOcr)⟩]

/-- One actor and idempotency key get a hold in each profile; a replay fails once the
preview is stale; and a hold of an earlier incarnation is in flight no more. -/
theorem key_held_twice : ∃ first entry second other,
    reserve String.join (nativeHost "one") "ann" ⟨"d", 1, "k", "j", none⟩ (run String.join nativeCalls .empty) = .ok (first, entry) ∧
    reserve String.join (nativeHost "one") "ann" ⟨"n", 1, "k", "j", none⟩ first = .ok (second, other) ∧
    second.ledger.keys.length = 2 ∧
    reserve String.join { nativeHost "one" with unchanged := .error (.stale "BROKER_SOURCES_CHANGED") } "ann" ⟨"d", 1, "k", "j", none⟩
      second = .error (.stale "BROKER_SOURCES_CHANGED") ∧
    other.data.status = .reserved ∧ (totals (some "one") second).inflight = 2 ∧ (totals (some "two") second).inflight = 1 :=
  ⟨_, _, _, _, rfl, rfl, by decide, rfl, rfl, by decide, by decide⟩

end NovelStudio.Broker
