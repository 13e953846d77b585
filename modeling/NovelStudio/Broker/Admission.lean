import NovelStudio.Broker.System

/-! The budget bounds what is committed: whatever was reserved, dispatched, finished and
reconciled, only charges above their reserve can lift the total over the limit. -/

namespace NovelStudio.Broker

open Library Experimental

theorem sum_filter (keep : α → Bool) (weight : α → Nat) (items : List α) :
    ((items.filter keep).map weight).sum = (items.map fun item => if keep item then weight item else 0).sum := by
  induction items with
  | nil => rfl
  | cons first rest ih =>
    rw [List.filter_cons, List.map_cons, List.sum_cons, ← ih]
    split <;> simp

theorem countP_filter_sum (keep counted : α → Bool) (items : List α) :
    (items.filter keep).countP counted = (items.map fun item => if keep item && counted item then 1 else 0).sum := by
  induction items with
  | nil => rfl
  | cons first rest ih =>
    rw [List.map_cons, List.sum_cons, ← ih, List.filter_cons]
    cases keep first <;> cases counted' : counted first <;> simp [counted', Nat.add_comm]

/-- What a row adds to the committed amount. -/
def accounted (owner : Option String) (row : Row Hold) : Nat :=
  if row.data.current owner then row.data.accountedMicrousd.getD 0 else 0

def counts (owner : Option String) (counted : Hold → Bool) (row : Row Hold) : Nat :=
  if row.data.current owner && counted row.data then 1 else 0

theorem committed_eq (owner : Option String) (doc : Doc) : (totals owner doc).committedMicrousd = doc.ledger.total (accounted owner) := by
  simp only [totals, nativeOcrRows_eq, sum_filter]
  rfl

theorem inflight_eq (owner : Option String) (doc : Doc) :
    (totals owner doc).inflight = doc.ledger.total (counts owner fun hold => hold.status.live) := by
  simp only [totals, nativeOcrRows_eq, countP_filter_sum]
  rfl

theorem countP_nativeOcrRows {doc : Doc} {counted : Hold → Bool}
    (none : (nativeOcrRows owner doc.ledger.values).countP (fun row => counted row.data) = 0)
    (found : doc.ledger.get? key = some row) (current : row.data.current owner = true) : counted row.data = false := by
  rw [List.countP_eq_zero] at none
  have member : row ∈ nativeOcrRows owner doc.ledger.values := by
    rw [nativeOcrRows_eq, List.mem_filter]
    exact ⟨Dict.mem_values_iff.mpr ⟨key, found⟩, current⟩
  simpa using none row member

namespace Hold

def excess (hold : Hold) : Nat := hold.actualMicrousd.getD 0 - hold.reserveMicrousd.getD 0

/-- The part of the accounted amount that the reserve covers. -/
def held (hold : Hold) : Nat :=
  match hold.actualMicrousd with
  | none => hold.reserveMicrousd.getD 0
  | some actual => min actual (hold.reserveMicrousd.getD 0)

theorem held_le (hold : Hold) : hold.held ≤ hold.reserveMicrousd.getD 0 := by
  unfold held
  split
  · exact Nat.le_refl _
  · exact Nat.min_le_right ..

structure Accounts (hold : Hold) : Prop where
  accounted : hold.accountedMicrousd.getD 0 = hold.held + hold.excess
  live : hold.status.live = true → hold.actualMicrousd = none
  overrun : hold.status = .settled → hold.overrun = true → hold.held = hold.reserveMicrousd.getD 0

end Hold

theorem newHold_accounts (input : ReserveInput) (decision : Decision) (chosen : Route) (price : Option Price) :
    (newHold input decision chosen price).Accounts :=
  ⟨by simp [newHold, Hold.held, Hold.excess], fun _ => rfl, nofun⟩

theorem HoldStatus.live_of_open {status : HoldStatus} (waiting : status.open = true) : status.live = true := by
  cases status <;> first | rfl | cases waiting

theorem settle_accounts (actual : Option Nat) (hold : Hold) : (settle actual hold).Accounts := by
  cases actual with
  | none =>
    refine ⟨by simp [settle, Hold.held, Hold.excess], fun _ => rfl, ?_⟩
    simp [settle]
  | some actual =>
    refine ⟨?_, ?_, ?_⟩
    · simp [settle, Hold.held, Hold.excess]
      omega
    · cases sent : hold.dispatched <;> simp [settle, sent, HoldStatus.live]
    · cases known : hold.reserveMicrousd with
      | none => simp [settle, known]
      | some reserve =>
        simp only [settle, known, Hold.held, Option.any_some, decide_eq_true_eq, Option.getD_some]
        omega

theorem bill_accounts (actual : Nat) (hold : Hold) : (bill actual hold).Accounts := by
  refine ⟨?_, nofun, nofun⟩
  simp [bill, Hold.held, Hold.excess]
  omega

theorem recover_accounts (recoveryId : String) (hold : Hold) : (recover recoveryId hold).Accounts := by
  refine ⟨by simp [recover, Hold.held, Hold.excess], ?_, nofun⟩
  cases status : hold.status <;> simp [recover, status, HoldStatus.live]

theorem Changes.accounts (accounts : hold.Accounts) (changes : Changes hold next) :
    next.Accounts ∧ next.bound = hold.bound ∧ next.held ≤ hold.held := by
  cases changes with
  | sent waiting =>
    exact ⟨⟨accounts.accounted, fun _ => accounts.live (by rw [waiting]; rfl), nofun⟩, rfl, Nat.le_refl _⟩
  | settled waiting actual =>
    refine ⟨settle_accounts actual hold, rfl, Nat.le_trans (Hold.held_le _) ?_⟩
    simp [settle, Hold.held, accounts.live (HoldStatus.live_of_open waiting)]
  | recovered =>
    refine ⟨recover_accounts _ hold, rfl, ?_⟩
    simp [recover, Hold.held]
  | billed waiting actual =>
    refine ⟨bill_accounts actual hold, rfl, Nat.le_trans (Hold.held_le _) ?_⟩
    rcases waiting with live | ⟨settled, overrun⟩
    · simp [bill, Hold.held, accounts.live live]
    · exact Nat.le_of_eq (accounts.overrun settled overrun).symm

/-- No row of the ledger is bound to an incarnation. -/
def Unbound (doc : Doc) : Prop := ∀ ⦃key row⦄, doc.ledger.get? key = some row → row.data.bound = false

/-- What every run keeps of the ledger, and of the budget where no row is bound. -/
structure Budgeted (doc : Doc) : Prop where
  accounts : ∀ ⦃key row⦄, doc.ledger.get? key = some row → row.data.Accounts
  covered : Unbound doc → ∀ limit, doc.budgetData.limitMicrousd = some limit → doc.ledger.total (fun row => row.data.held) ≤ limit

variable {doc : Doc}

theorem Unbound.accounted (unbound : Unbound doc) (owner : Option String) :
    (totals owner doc).committedMicrousd = doc.ledger.total fun row => row.data.accountedMicrousd.getD 0 := by
  rw [committed_eq]
  apply Nat.le_antisymm
  · apply Dict.total_le
    intro row _
    unfold Broker.accounted
    split
    · exact Nat.le_refl _
    · exact Nat.zero_le _
  · apply Dict.total_le
    intro row member
    obtain ⟨key, found⟩ := Dict.mem_values_iff.mp member
    simp [Broker.accounted, Hold.current_of_not_bound (unbound found)]

theorem Budgeted.held_le (budgeted : Budgeted doc) (unbound : Unbound doc) (owner : Option String) :
    doc.ledger.total (fun row => row.data.held) ≤ (totals owner doc).committedMicrousd := by
  rw [unbound.accounted owner]
  apply Dict.total_le
  intro row member
  obtain ⟨key, found⟩ := Dict.mem_values_iff.mp member
  rw [(budgeted.accounts found).accounted]
  exact Nat.le_add_right ..

theorem checkAdmission_ok (admitted : checkAdmission host price doc = .ok ()) :
    (totals host.owner doc).inflight < doc.budgetData.maxInflight ∧
      (totals host.owner doc).unpricedCount = 0 ∧ (totals host.owner doc).overrunCount = 0 ∧
      ∀ limit, doc.budgetData.limitMicrousd = some limit →
        (totals host.owner doc).committedMicrousd + (price.map Price.reserveMicrousd).getD 0 ≤ limit := by
  simp only [checkAdmission, bind_ok, reject_ok] at admitted
  obtain ⟨_, _, _, room, _, clear, within⟩ := admitted
  refine ⟨by simpa using room, by simp at clear; exact clear.1, by simp at clear; exact clear.2, fun limit same => ?_⟩
  simpa [same] using within

theorem Unbound.before_set {row : Row Hold}
    (unbound : Unbound { doc with ledger := doc.ledger.set key row })
    (same : ∀ old, doc.ledger.get? key = some old → old.data.bound = row.data.bound) : Unbound doc := by
  intro other stored found
  by_cases equal : other = key
  · subst equal
    rw [same stored found]
    exact unbound (Dict.get?_set_self ..)
  · apply unbound
    rw [Dict.get?_set_ne _ _ equal]
    exact found

theorem Budgeted.step (budgeted : Budgeted doc) (effect : Effect doc next) : Budgeted next := by
  cases effect with
  | nothing => exact budgeted
  | price => exact ⟨budgeted.accounts, budgeted.covered⟩
  | decided => exact ⟨budgeted.accounts, budgeted.covered⟩
  | budget owner row enough =>
    refine ⟨budgeted.accounts, fun unbound limit same => ?_⟩
    exact Nat.le_trans (budgeted.held_le unbound owner) (enough limit same)
  | created absent host input decision chosen price admitted actor =>
    refine ⟨fun other row found => ?_, fun unbound limit same => ?_⟩
    · simp only [Dict.get?_set] at found
      split at found
      · cases found
        exact newHold_accounts ..
      · exact budgeted.accounts found
    · have before := unbound.before_set fun old found => by simp [absent] at found
      rw [Dict.total_set_new _ _ absent]
      have held := budgeted.held_le before host.owner
      have within := (checkAdmission_ok admitted).2.2.2 limit same
      have new : (newHold input decision chosen price).held = (price.map Price.reserveMicrousd).getD 0 := rfl
      simp only [newRow, new]
      omega
  | changed found change changes =>
    rename_i key row
    obtain ⟨accounts, bound, less⟩ := changes.accounts (budgeted.accounts found)
    refine ⟨fun other row there => ?_, fun unbound limit same => ?_⟩
    · simp only [Dict.get?_set] at there
      split at there
      · cases there
        exact accounts
      · exact budgeted.accounts there
    · have before := unbound.before_set fun old there => by
        cases found.symm.trans there
        exact bound.symm
      have covered := budgeted.covered before limit same
      have replaced := Dict.total_set_old (fun row : Row Hold => row.data.held) (bump row change) found
      simp only [bump] at replaced less ⊢
      omega

theorem empty_budgeted : Budgeted .empty := by
  refine ⟨fun _ _ found => ?_, fun _ _ same => ?_⟩
  · simp [Doc.empty] at found
  · simp [Doc.budgetData, Doc.empty] at same

theorem run_budgeted (digest : Digest) (calls : List Call) : Budgeted (run digest calls .empty) :=
  run_invariant Budgeted.step calls empty_budgeted

theorem Budgeted.committed_le (budgeted : Budgeted doc) (unbound : Unbound doc) (owner : Option String)
    (limited : doc.budgetData.limitMicrousd = some limit) :
    (totals owner doc).committedMicrousd ≤ limit + doc.ledger.total fun row => row.data.excess := by
  have covered := budgeted.covered unbound limit limited
  have split : (totals owner doc).committedMicrousd =
      doc.ledger.total (fun row => row.data.held) + doc.ledger.total fun row => row.data.excess := by
    rw [unbound.accounted owner, ← Dict.total_add]
    apply Dict.total_congr
    intro row member
    obtain ⟨key, found⟩ := Dict.mem_values_iff.mp member
    exact (budgeted.accounts found).accounted
  omega

theorem reserve_cases (done : reserve digest host actor input doc = .ok (next, entry)) :
    next = doc ∨ ∃ key decision chosen price, doc.ledger.get? key = none ∧ checkAdmission host price doc = .ok () ∧
      entry = newRow actor (newHold input decision chosen price) ∧ next = { doc with ledger := doc.ledger.set key entry } := by
  simp only [reserve, bind_ok, reject_ok, fetch_ok, checkVersion_ok] at done
  obtain ⟨_, _, _, _, row, _, _, _, _, _, _, _, _, _, _, _, done⟩ := done
  split at done
  · simp only [bind_ok, pure_ok] at done
    obtain ⟨_, _, same⟩ := done
    cases same
    exact .inl rfl
  · rename_i absent
    simp only [createHold, bind_ok, reject_ok, fetch_ok, pure_ok] at done
    obtain ⟨_, _, chosen, _, _, _, _, admitted, same⟩ := done
    cases same
    exact .inr ⟨_, row.data, chosen, _, absent, admitted, rfl, rfl⟩

theorem reserve_within {next : Doc} (done : reserve digest host actor input doc = .ok (next, entry)) (unbound : Unbound next)
    (grows : next.ledger.keys ≠ doc.ledger.keys) (owner : Option String) :
    (∀ limit, next.budgetData.limitMicrousd = some limit → (totals owner next).committedMicrousd ≤ limit) ∧
      (totals owner next).inflight ≤ next.budgetData.maxInflight ∧
      ∀ key row, doc.ledger.get? key = some row → row.data.unpriced = false ∧ row.data.unacknowledged = false := by
  rcases reserve_cases done with rfl | ⟨key, decision, chosen, price, absent, admitted, same, rfl⟩
  · exact absurd rfl grows
  obtain ⟨room, priced, settled, within⟩ := checkAdmission_ok admitted
  have before := unbound.before_set fun old found => by simp [absent] at found
  refine ⟨fun limit limited => ?_, ?_, fun other row found => ?_⟩
  · rw [unbound.accounted owner, Dict.total_set_new _ _ absent, ← before.accounted host.owner]
    have amount : entry.data.accountedMicrousd = price.map Price.reserveMicrousd := by rw [same]; rfl
    rw [amount]
    exact within limit limited
  · rw [inflight_eq, Dict.total_set_new _ _ absent]
    have one : counts owner (fun hold => hold.status.live) entry ≤ 1 := by
      unfold counts
      split <;> omega
    have same : doc.ledger.total (counts owner fun hold => hold.status.live) =
        doc.ledger.total (counts host.owner fun hold => hold.status.live) := by
      apply Dict.total_congr
      intro row member
      obtain ⟨key, found⟩ := Dict.mem_values_iff.mp member
      simp [counts, Hold.current_of_not_bound (before found)]
    rw [inflight_eq] at room
    change _ ≤ doc.budgetData.maxInflight
    omega
  · have current : row.data.current host.owner = true := Hold.current_of_not_bound (before found)
    exact ⟨countP_nativeOcrRows priced found current, countP_nativeOcrRows settled found current⟩

/-- The committed amount stays within the limit and the charges above the reserves; what a
reservation adds stays within the limit and the number of holds in flight, and it adds
nothing while a live hold has no price or an overrun is not acknowledged. -/
theorem ledger_bound (digest : Digest) (calls : List Call) (unbound : Unbound (run digest calls .empty)) (owner : Option String) :
    (∀ limit, (run digest calls .empty).budgetData.limitMicrousd = some limit →
      (totals owner (run digest calls .empty)).committedMicrousd ≤ limit + (run digest calls .empty).ledger.total fun row =>
        row.data.actualMicrousd.getD 0 - row.data.reserveMicrousd.getD 0) ∧
    ∀ host actor input next entry, reserve digest host actor input (run digest calls .empty) = .ok (next, entry) → Unbound next →
      next.ledger.keys ≠ (run digest calls .empty).ledger.keys →
      (∀ limit, next.budgetData.limitMicrousd = some limit → (totals owner next).committedMicrousd ≤ limit) ∧
        (totals owner next).inflight ≤ next.budgetData.maxInflight ∧
        ∀ key row, (run digest calls .empty).ledger.get? key = some row →
          ¬(row.data.status.live = true ∧ row.data.reserveMicrousd = none) ∧
          ¬(row.data.overrun = true ∧ row.data.overrunAcknowledged = false) := by
  constructor
  · intro limit limited
    exact (run_budgeted digest calls).committed_le unbound owner limited
  · intro host actor input next entry done free grows
    obtain ⟨within, room, clear⟩ := reserve_within done free grows owner
    refine ⟨within, room, fun key row found => ?_⟩
    obtain ⟨priced, settled⟩ := clear key row found
    refine ⟨fun ⟨live, absent⟩ => ?_, fun ⟨closed, open'⟩ => ?_⟩
    · simp [Hold.unpriced, live, absent] at priced
    · simp [Hold.unacknowledged, closed, open'] at settled

def sampleHost : Host where
  novel := .ok ()
  guard := .ok ()
  now := 0
  owner := none
  ownerLease := false
  visionAuthority := none
  unchanged := .ok ()
  currentRoute := fun _ => .ok "f"

def samplePrice : PriceData := ⟨"r", "f", 7, none, none, "list", 0, 9⟩

def sampleDecision (profile : Option Profile) (price : Option Price) : Decision where
  request := ⟨.text, true, false, false, [], 0, none⟩
  status := .preview
  chosen := some ⟨"r", "f", "p", "m", false, false, price⟩
  budgetVersion := 1
  profile := profile
  nativeOcrIncarnation := none
  directorImageIncarnation := none
  directorImageBindingDigest := none

/-- A limit of ten, a price of seven, and a preview. -/
def sampleCalls : List Call :=
  [.configureBudget sampleHost "ann" 0 ⟨some 10, 2, true⟩, .configurePrice sampleHost "ann" 0 samplePrice,
    .preview "d" ⟨"ann", 1, sampleDecision none (some (.configured (newRow "ann" samplePrice)))⟩]

theorem sample_within : ∃ next entry,
    reserve String.join sampleHost "ann" ⟨"d", 1, "k", "j", none⟩ (run String.join sampleCalls .empty) = .ok (next, entry) ∧
      (totals none (run String.join sampleCalls .empty)).committedMicrousd ≤ 10 ∧
      (totals none next).committedMicrousd ≤ 10 ∧ (totals none next).inflight ≤ 2 := by
  have unbound : Unbound (run String.join sampleCalls .empty) := fun _ _ found => by cases found
  have bounds := ledger_bound String.join sampleCalls unbound none
  obtain ⟨next, entry, done, grows, limited, free, most⟩ : ∃ next entry,
      reserve String.join sampleHost "ann" ⟨"d", 1, "k", "j", none⟩ (run String.join sampleCalls .empty) = .ok (next, entry) ∧
        next.ledger.keys ≠ (run String.join sampleCalls .empty).ledger.keys ∧ next.budgetData.limitMicrousd = some 10 ∧
        (∀ row ∈ next.ledger.values, row.data.bound = false) ∧ next.budgetData.maxInflight = 2 :=
    ⟨_, _, rfl, by decide, rfl, by decide, rfl⟩
  obtain ⟨within, room, _⟩ := bounds.2 sampleHost "ann" _ next entry done
    (fun _ _ found => free _ (Dict.mem_values_iff.mpr ⟨_, found⟩)) grows
  exact ⟨next, entry, done, bounds.1 10 rfl, within 10 limited, most ▸ room⟩

end NovelStudio.Broker
