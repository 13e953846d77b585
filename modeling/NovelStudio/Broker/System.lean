import NovelStudio.Broker.Service

/-! Runs of the broker over one scope: any calls, by any actors, where a call that fails
leaves the document as it is; and what one call can do to it. -/

namespace NovelStudio.Broker

open Library Experimental

inductive Call where
  | configureBudget (host : Host) (actor : String) (expectedVersion : Nat) (value : BudgetData)
  | configurePrice (host : Host) (actor : String) (expectedVersion : Nat) (value : PriceData)
  /-- A preview stored its decision under an id of its own. -/
  | preview (id : String) (row : Row Decision)
  | reserve (host : Host) (actor : String) (input : ReserveInput)
  | guardDispatch (host : Host) (actor reservationId jobId : String)
  | finalize (host : Host) (actor reservationId jobId : String) (status : FinalStatus) (usage : Option Usage)
  | reconcile (host : Host) (actor rid : String) (input : ReconcileInput) (allowOrphan : Bool)
  | reconcileNativeOcr (host : Host) (actor rid : String) (input : RecoveryInput)

def perform (digest : Digest) (call : Call) (doc : Doc) : Except Failure Doc :=
  match call with
  | .configureBudget host actor expectedVersion value => Broker.configureBudget host actor expectedVersion value doc
  | .configurePrice host actor expectedVersion value => Broker.configurePrice host actor expectedVersion value doc
  | .preview id row =>
    if id ∈ doc.decisions.keys then .error (.other "the id is not new") else .ok { doc with decisions := doc.decisions.set id row }
  | .reserve host actor input => (Broker.reserve digest host actor input doc).map Prod.fst
  | .guardDispatch host actor reservationId jobId => (Broker.guardDispatch digest host actor reservationId jobId doc).map Prod.fst
  | .finalize host actor reservationId jobId status usage =>
    (Broker.finalize digest host actor reservationId jobId status usage doc).map Prod.fst
  | .reconcile host actor rid input allowOrphan => (Broker.reconcile host actor rid input allowOrphan doc).map Prod.fst
  | .reconcileNativeOcr host actor rid input => (Broker.reconcileNativeOcr host actor rid input doc).map Prod.fst

def after (digest : Digest) (doc : Doc) (call : Call) : Doc :=
  match perform digest call doc with
  | .ok next => next
  | .error _ => doc

def run (digest : Digest) (calls : List Call) (doc : Doc) : Doc := calls.foldl (after digest) doc

def HoldStatus.open : HoldStatus → Bool
  | .reserved | .dispatched => true
  | _ => false

inductive Changes (hold : Hold) : Hold → Prop where
  | sent (waiting : hold.status = .reserved) : Changes hold { hold with status := .dispatched, dispatched := true }
  | settled (open' : hold.status.open = true) (actual : Option Nat) (free : hold.dispatched = false → actual = some 0) :
      Changes hold (settle actual hold)
  | recovered (unfinished : hold.status ≠ .reconciled) (bound : hold.nativeOcrIncarnation.isSome = true) (recoveryId : String) :
      Changes hold (recover recoveryId hold)
  | billed (open' : hold.status.live = true ∨ (hold.status = .settled ∧ hold.overrun = true)) (actual : Nat) :
      Changes hold (bill actual hold)

/-- What a call does to the document, where it does not fail. -/
inductive Effect (doc : Doc) : Doc → Prop where
  | nothing : Effect doc doc
  | budget (owner : Option String) (row : Row BudgetData)
      (enough : ∀ limit, row.data.limitMicrousd = some limit → (totals owner doc).committedMicrousd ≤ limit) :
      Effect doc { doc with budget := some row }
  | price (prices : Dict String (Row PriceData)) : Effect doc { doc with prices }
  | decided (decisions : Dict String (Row Decision)) : Effect doc { doc with decisions }
  | created (absent : doc.ledger.get? key = none) (host : Host) (input : ReserveInput) (decision : Decision) (chosen : Route)
      (price : Option Price) (admitted : checkAdmission host price doc = .ok ()) (actor : String)
      (bound : decision.profile = some .nativeOcr → decision.nativeOcrIncarnation.isSome = true) :
      Effect doc { doc with ledger := doc.ledger.set key (newRow actor (newHold input decision chosen price)) }
  | changed (found : doc.ledger.get? key = some row) (change : Hold → Hold) (changes : Changes row.data (change row.data)) :
      Effect doc { doc with ledger := doc.ledger.set key (bump row change) }

theorem configureBudget_effect (done : configureBudget host actor expectedVersion value doc = .ok next) : Effect doc next := by
  simp only [configureBudget, bind_ok, reject_ok, pure_ok] at done
  obtain ⟨_, _, _, _, _, _, _, enough, rfl⟩ := done
  have enough : ∀ limit, value.limitMicrousd = some limit → (totals host.owner doc).committedMicrousd ≤ limit := by
    intro limit same
    simpa [same] using enough
  cases found : doc.budget with
  | none => exact .budget host.owner _ enough
  | some row => exact .budget host.owner _ enough

theorem configurePrice_effect (done : configurePrice host actor expectedVersion value doc = .ok next) : Effect doc next := by
  simp only [configurePrice, bind_ok, reject_ok, pure_ok] at done
  obtain ⟨_, _, _, _, _, _, _, _, _, _, _, _, rfl⟩ := done
  exact .price _

theorem replay_ok (done : replay digest host input decision old = .ok row) :
    row = old ∧ old.data.previewId = input.previewId ∧ old.data.authorizationDigest = input.authorizationDigest := by
  simp only [replay, bind_ok, onlyIf_ok, reject_ok, pure_ok] at done
  obtain ⟨_, _, _, same, rfl⟩ := done
  simp only [Bool.or_eq_false_iff, decide_eq_false_iff_not, not_not] at same
  exact ⟨rfl, same.1.1, same.1.2⟩

theorem assertPreview_owner (done : assertPreview digest host actor row = .ok ()) (native : row.data.profile = some .nativeOcr) :
    ∃ incarnation, row.data.nativeOcrIncarnation = some incarnation ∧ host.owner = some incarnation := by
  simp only [assertPreview, bind_ok, onlyIf_ok, reject_ok] at done
  obtain ⟨_, _, _, _, _, owned, _⟩ := done
  cases bound : row.data.nativeOcrIncarnation with
  | none => simp [native, bound] at owned
  | some incarnation =>
    simp [native, bound] at owned
    exact ⟨incarnation, rfl, owned.2.symm⟩

theorem reserve_effect (done : reserve digest host actor input doc = .ok (next, entry)) : Effect doc next := by
  simp only [reserve, bind_ok, reject_ok, fetch_ok, checkVersion_ok] at done
  obtain ⟨_, _, _, _, row, _, _, _, _, _, _, preview, _, _, _, _, done⟩ := done
  split at done
  · simp only [bind_ok, pure_ok] at done
    obtain ⟨_, _, same⟩ := done
    cases same
    exact .nothing
  · rename_i absent
    simp only [createHold, bind_ok, reject_ok, fetch_ok, pure_ok] at done
    obtain ⟨_, _, chosen, _, _, _, _, admitted, same⟩ := done
    cases same
    refine .created absent host input row.data chosen _ admitted actor fun native => ?_
    obtain ⟨incarnation, bound, _⟩ := assertPreview_owner preview native
    simp [bound]

theorem open_of_status {hold : Hold} (waiting : (hold.status ≠ .reserved && hold.status ≠ .dispatched) = false) :
    hold.status.open = true := by
  cases status : hold.status <;> simp [status] at waiting <;> rfl

theorem guardDispatch_effect (done : guardDispatch digest host actor reservationId jobId doc = .ok (next, entry)) : Effect doc next := by
  simp only [guardDispatch, bind_ok, reject_ok, fetch_ok, onlyIf_ok] at done
  obtain ⟨_, _, row, found, _, _, decision, _, _, _, _, _, _, _, _, _, _, _, _, _, chosen, _, _, _, done⟩ := done
  split at done
  · rename_i waiting
    cases pure_ok.mp done
    exact .changed found _ (.sent waiting)
  · cases pure_ok.mp done
    exact .nothing

theorem finalize_effect (done : finalize digest host actor reservationId jobId status usage doc = .ok (next, entry)) : Effect doc next := by
  simp only [finalize, bind_ok, reject_ok, fetch_ok, onlyIf_ok] at done
  obtain ⟨row, found, _, _, _, _, _, _, _, _, _, _, done⟩ := done
  split at done
  · cases pure_ok.mp done
    exact .nothing
  · rename_i waiting
    cases pure_ok.mp done
    refine .changed found _ (.settled (open_of_status (by simpa using waiting)) _ fun unsent => ?_)
    simp [actualOf, unsent]

theorem reconcile_effect (done : reconcile host actor rid input allowOrphan doc = .ok (next, entry)) : Effect doc next := by
  simp only [reconcile, bind_ok, reject_ok, fetch_ok, checkVersion_ok, pure_ok] at done
  obtain ⟨_, _, row, found, _, _, _, _, _, _, _, _, _, _, _, allowed, same⟩ := done
  cases same
  refine .changed found _ (.billed ?_ _)
  cases status : row.data.status <;> simp [orphan, status, HoldStatus.live] at allowed ⊢
  exact allowed

theorem reconcileNativeOcr_effect (done : reconcileNativeOcr host actor rid input doc = .ok (next, entry)) : Effect doc next := by
  simp only [reconcileNativeOcr, bind_ok, reject_ok, fetch_ok] at done
  obtain ⟨_, _, _, _, _, _, row, found, _, known, _, _, done⟩ := done
  split at done
  · cases pure_ok.mp done
    exact .nothing
  · simp only [bind_ok, checkVersion_ok, reject_ok, pure_ok] at done
    obtain ⟨_, _, _, unfinished, same⟩ := done
    cases same
    refine .changed found _ (.recovered (by simpa using unfinished) ?_ _)
    cases bound : row.data.nativeOcrIncarnation with
    | none => simp [bound] at known
    | some _ => rfl

theorem map_fst_ok {done : Except ε (α × β)} : done.map Prod.fst = .ok next ↔ ∃ entry, done = .ok (next, entry) := by
  cases done with
  | error failure => simp [Except.map]
  | ok pair =>
    obtain ⟨first, second⟩ := pair
    simp [Except.map]

theorem after_effect (digest : Digest) (doc : Doc) (call : Call) : Effect doc (after digest doc call) := by
  unfold after
  split
  · rename_i next done
    cases call with
    | configureBudget => exact configureBudget_effect done
    | configurePrice => exact configurePrice_effect done
    | preview =>
      simp only [perform] at done
      split at done
      · cases done
      · cases done
        exact .decided _
    | reserve =>
      obtain ⟨_, done⟩ := map_fst_ok.mp done
      exact reserve_effect done
    | guardDispatch =>
      obtain ⟨_, done⟩ := map_fst_ok.mp done
      exact guardDispatch_effect done
    | finalize =>
      obtain ⟨_, done⟩ := map_fst_ok.mp done
      exact finalize_effect done
    | reconcile =>
      obtain ⟨_, done⟩ := map_fst_ok.mp done
      exact reconcile_effect done
    | reconcileNativeOcr =>
      obtain ⟨_, done⟩ := map_fst_ok.mp done
      exact reconcileNativeOcr_effect done
  · exact .nothing

theorem run_invariant {motive : Doc → Prop} (kept : ∀ {doc next}, motive doc → Effect doc next → motive next)
    (calls : List Call) (initially : motive doc) : motive (run digest calls doc) := by
  induction calls generalizing doc with
  | nil => exact initially
  | cons call rest ih => exact ih (kept initially (after_effect digest doc call))

end NovelStudio.Broker
