import NovelStudio.Experimental.Rows
import NovelStudio.Library.Text

/-! The records of the model broker (`model_broker.py`): the budget of a project scope,
its prices, the decisions of previews, and the ledger of holds. -/

namespace NovelStudio.Broker

open Library Experimental

deriving instance DecidableEq for Row

/-- The candidate profiles of decisions. -/
inductive Profile where
  | localTextOnly | nativeOcr | image
  deriving DecidableEq

inductive Capability where
  | text | vision | image | video | audio | embedding
  deriving DecidableEq

inductive NarrativeTask where
  | novelWriting | screenplayAdaptation | directorNotes | frameAnalysis | storyboardImage | videoClip | dialogueAudio
  deriving DecidableEq

/-- The fields of a `BrokerRequest` that an image profile is held to. -/
structure BrokerRequest where
  capability : Capability
  localOnly : Bool
  allowCloudFallback : Bool
  allowSynthetic : Bool
  chapterIds : List String
  contextTokens : Nat
  taskType : Option NarrativeTask

structure PriceData where
  routeId : String
  routeFingerprint : String
  reserveMicrousd : Nat
  inputPerMillion : Option Nat
  outputPerMillion : Option Nat
  source : String
  asOf : Nat
  expiresAt : Nat
  deriving DecidableEq

/-- What `_price` returns: the two fixed prices, or a configured row. -/
inductive Price where
  | nativeOcr
  | synthetic
  | configured (row : Row PriceData)
  deriving DecidableEq

namespace Price

def reserveMicrousd : Price → Nat
  | .configured row => row.data.reserveMicrousd
  | _ => 0

def actualKnownZero : Price → Bool
  | .configured _ => false
  | _ => true

/-- `zero_kind == 'LOCAL_PROVIDER_FEE'`. -/
def localProviderFee : Price → Bool
  | .nativeOcr => true
  | _ => false

/-- The two rates of a price, where both are known. -/
def rates : Price → Option (Nat × Nat)
  | .configured row => row.data.inputPerMillion.bind fun input => row.data.outputPerMillion.map fun output => (input, output)
  | _ => none

end Price

structure Route where
  routeId : String
  fingerprint : String
  providerId : String
  modelId : String
  synthetic : Bool
  nativeOcr : Bool
  price : Option Price

inductive DecisionStatus where
  | preview | noLegalRoute
  deriving DecidableEq

structure Decision where
  request : BrokerRequest
  status : DecisionStatus
  chosen : Option Route
  budgetVersion : Nat
  profile : Option Profile
  nativeOcrIncarnation : Option String
  directorImageIncarnation : Option String
  directorImageBindingDigest : Option String

inductive HoldStatus where
  | reserved | dispatched | settled | released | unknownUpstream | reconciled
  deriving DecidableEq

structure Hold where
  previewId : String
  jobId : String
  authorizationDigest : Option String
  status : HoldStatus
  routeId : String
  routeFingerprint : String
  providerId : String
  modelId : String
  reserveMicrousd : Option Nat
  accountedMicrousd : Option Nat
  actualMicrousd : Option Nat
  price : Option Price
  dispatched : Bool
  overrun : Bool
  overrunAcknowledged : Bool
  /-- Its candidate profile is that of images. -/
  image : Bool
  directorImageIncarnation : Option String
  directorImageBindingDigest : Option String
  nativeOcrIncarnation : Option String
  nativeRecoveryId : Option String

structure BudgetData where
  limitMicrousd : Option Nat
  maxInflight : Nat
  requireKnownEstimate : Bool
  deriving DecidableEq

structure Doc where
  budget : Option (Row BudgetData)
  prices : Dict String (Row PriceData)
  decisions : Dict String (Row Decision)
  ledger : Dict String (Row Hold)

def Doc.empty : Doc := ⟨none, ∅, ∅, ∅⟩

/-- The budget of a scope, by default without a limit and with one hold in flight. -/
def Doc.budgetData (doc : Doc) : BudgetData := (doc.budget.map Row.data).getD ⟨none, 1, true⟩

def Doc.budgetVersion (doc : Doc) : Nat := (doc.budget.map Row.version).getD 0

/-- `RESERVED`, `DISPATCHED` or `UNKNOWN_UPSTREAM`. -/
def HoldStatus.live : HoldStatus → Bool
  | .reserved | .dispatched | .unknownUpstream => true
  | .settled | .released | .reconciled => false

namespace Hold

/-- It is bound to an incarnation of its project. -/
def bound (hold : Hold) : Bool := hold.nativeOcrIncarnation.isSome || hold.directorImageIncarnation.isSome

/-- The incarnations it is bound to, if any, are the present one. -/
def current (owner : Option String) (hold : Hold) : Bool :=
  [hold.nativeOcrIncarnation, hold.directorImageIncarnation].all fun key => key.isNone || (owner.isSome && key = owner)

def unpriced (hold : Hold) : Bool := hold.status.live && hold.reserveMicrousd.isNone

def unacknowledged (hold : Hold) : Bool := hold.overrun && !hold.overrunAcknowledged

end Hold

/-- `_native_ocr_rows`: the rows that count in the present incarnation of the project. -/
def nativeOcrRows (owner : Option String) (rows : List (Row Hold)) : List (Row Hold) :=
  if rows.any fun row => row.data.bound then rows.filter fun row => row.data.current owner else rows

structure Totals where
  committedMicrousd : Nat
  inflight : Nat
  unknownCount : Nat
  unpricedCount : Nat
  overrunCount : Nat
  deriving DecidableEq

def totals (owner : Option String) (doc : Doc) : Totals :=
  let rows := nativeOcrRows owner doc.ledger.values
  { committedMicrousd := (rows.map fun row => row.data.accountedMicrousd.getD 0).sum
    inflight := rows.countP fun row => row.data.status.live
    unknownCount := rows.countP fun row => row.data.status = .unknownUpstream
    unpricedCount := rows.countP fun row => row.data.unpriced
    overrunCount := rows.countP fun row => row.data.unacknowledged }

theorem Hold.current_of_not_bound {hold : Hold} (free : hold.bound = false) : hold.current owner = true := by
  simp only [bound, Bool.or_eq_false_iff, Option.isSome_eq_false_iff] at free
  simp [current, free]

theorem nativeOcrRows_eq (owner : Option String) (rows : List (Row Hold)) :
    nativeOcrRows owner rows = rows.filter fun row => row.data.current owner := by
  unfold nativeOcrRows
  split
  · rfl
  · rename_i free
    symm
    apply List.filter_eq_self.mpr
    intro row member
    apply Hold.current_of_not_bound
    simp only [List.any_eq_true, not_exists, not_and, Bool.not_eq_true] at free
    exact free row member

end NovelStudio.Broker

/-! The calls of the model broker on the document of one scope. What lies outside the
document, such as the routes that are registered at present, is given with every call. -/

namespace NovelStudio.Broker

open Library Experimental

def IMAGE_PROFILE : String := "LOCAL_VISION_IMAGE_UNDERSTANDING_V3"

abbrev Digest := List String → String

/-- A vision authority of the host. -/
structure Authority where
  incarnation : String
  bindingDigest : String
  providerId : String
  modelId : String
  /-- The host issued it, for this project, scope and actor. -/
  issued : Bool
  guard : Except Failure Unit

/-- What a call finds outside the document. -/
structure Host where
  /-- `novels.get(nid)`. -/
  novel : Except Failure Unit
  guard : Except Failure Unit
  now : Nat
  /-- `_native_ocr_owner(nid)`: the incarnation of the project. -/
  owner : Option String
  /-- An owner lease was given. -/
  ownerLease : Bool
  visionAuthority : Option Authority
  /-- The sources, routes, capacities and licences are still those of the preview. -/
  unchanged : Except Failure Unit
  /-- The fingerprint of a route, `current_route(route_id)`. -/
  currentRoute : String → Except Failure String

/-- What `assert_authority` reads of a row. -/
structure ImageFacts where
  image : Bool
  incarnation : Option String
  bindingDigest : Option String
  route : Option (String × String × String)

def Decision.imageFacts (decision : Decision) : ImageFacts :=
  { image := decision.profile = some .image
    incarnation := decision.directorImageIncarnation
    bindingDigest := decision.directorImageBindingDigest
    route := decision.chosen.map fun route => (route.providerId, route.modelId, route.routeId) }

def Hold.imageFacts (hold : Hold) : ImageFacts :=
  { image := hold.image
    incarnation := hold.directorImageIncarnation
    bindingDigest := hold.directorImageBindingDigest
    route := some (hold.providerId, hold.modelId, hold.routeId) }

/-- `_assert_image_authority` for a row. -/
def assertImageAuthority (digest : Digest) (host : Host) (facts : ImageFacts) (current : Bool) : Except Failure Authority := do
  reject (!host.ownerLease) (.value "BROKER_IMAGE_OWNER_REQUIRED")
  let authority ← fetch host.visionAuthority (.value "BROKER_IMAGE_AUTHORITY_REQUIRED")
  reject (!authority.issued || host.owner ≠ some authority.incarnation) (.value "BROKER_IMAGE_AUTHORITY_REQUIRED")
  reject (!facts.image || facts.incarnation ≠ some authority.incarnation || facts.bindingDigest ≠ some authority.bindingDigest)
    (.value "BROKER_IMAGE_AUTHORITY_MISMATCH")
  reject (facts.route ≠ some (authority.providerId, authority.modelId,
    digest ["local-vision-v3", authority.providerId, authority.modelId])) (.value "BROKER_IMAGE_AUTHORITY_MISMATCH")
  onlyIf current authority.guard
  return authority

/-- A request of the shape that the image profile asks for. -/
def BrokerRequest.ofImage (request : BrokerRequest) : Bool :=
  request.capability = .vision && request.localOnly && !request.allowCloudFallback && !request.allowSynthetic &&
    request.chapterIds = [] && request.contextTokens = 0 && request.taskType = some .frameAnalysis

def assertPreview (digest : Digest) (host : Host) (actor : String) (row : Row Decision) : Except Failure Unit := do
  onlyIf (row.data.profile = some .image) do
    discard (assertImageAuthority digest host row.data.imageFacts true)
    reject (!row.data.request.ofImage) (.value "BROKER_IMAGE_PROFILE_REQUIRED")
  onlyIf (row.data.profile ≠ some .image) (reject host.visionAuthority.isSome (.value "BROKER_IMAGE_PROFILE_REQUIRED"))
  reject (row.data.profile = some .nativeOcr && (row.data.nativeOcrIncarnation.getD "" = "" || row.data.nativeOcrIncarnation ≠ host.owner))
    (.stale "BROKER_NATIVE_OCR_OWNER_CHANGED")
  reject (row.createdBy ≠ actor) (.value "BROKER_ACTOR_MISMATCH")
  reject (row.data.status ≠ .preview || row.data.chosen.isNone) (.value "BROKER_LEGAL_PREVIEW_REQUIRED")
  host.unchanged

/-- `_price`. -/
def priceOf (now : Nat) (route : Route) (prices : Dict String (Row PriceData)) : Option Price :=
  if route.nativeOcr then some .nativeOcr
  else if route.synthetic then some .synthetic
  else
    match prices.get? route.routeId with
    | some row => if row.data.routeFingerprint = route.fingerprint ∧ now < row.data.expiresAt then some (.configured row) else none
    | none => none

def configureBudget (host : Host) (actor : String) (expectedVersion : Nat) (value : BudgetData) (doc : Doc) : Except Failure Doc := do
  host.novel
  host.guard
  reject (expectedVersion ≠ doc.budgetVersion) .versionConflict
  reject (value.limitMicrousd.any fun limit => limit < (totals host.owner doc).committedMicrousd) (.value "BROKER_BUDGET_BELOW_COMMITTED")
  return { doc with budget := some (match doc.budget with
    | some row => bump row fun _ => value
    | none => newRow actor value) }

def configurePrice (host : Host) (actor : String) (expectedVersion : Nat) (value : PriceData) (doc : Doc) : Except Failure Doc := do
  host.novel
  let fingerprint ← host.currentRoute value.routeId
  reject (fingerprint ≠ value.routeFingerprint) (.stale "BROKER_ROUTE_CHANGED")
  reject (value.expiresAt ≤ host.now) (.value "BROKER_PRICE_EXPIRED")
  host.guard
  reject (expectedVersion ≠ ((doc.prices.get? value.routeId).map Row.version).getD 0) .versionConflict
  return { doc with prices := doc.prices.set value.routeId (match doc.prices.get? value.routeId with
    | some row => bump row fun _ => value
    | none => newRow actor value) }

structure ReserveInput where
  previewId : String
  expectedVersion : Nat
  idempotencyKey : String
  jobId : String
  authorizationDigest : Option String

/-- The key of the hold of an actor's idempotency key, under the profile of a decision. -/
def holdKey (digest : Digest) (actor idempotencyKey : String) (decision : Decision) : String :=
  match decision.profile with
  | some .image => digest [IMAGE_PROFILE, actor, idempotencyKey, decision.directorImageIncarnation.getD ""]
  | some .nativeOcr => digest [actor, idempotencyKey, decision.nativeOcrIncarnation.getD ""]
  | _ => digest [actor, idempotencyKey]

/-- The hold that a key already has. -/
def replay (digest : Digest) (host : Host) (input : ReserveInput) (decision : Decision) (old : Row Hold) : Except Failure (Row Hold) := do
  onlyIf (decision.profile = some .image) do
    discard (assertImageAuthority digest host old.data.imageFacts true)
    reject (old.data.jobId ≠ input.jobId) (.value "BROKER_IDEMPOTENCY_MISMATCH")
  reject (old.data.previewId ≠ input.previewId || old.data.authorizationDigest ≠ input.authorizationDigest ||
    (input.authorizationDigest = none && old.data.jobId ≠ input.jobId)) (.value "BROKER_IDEMPOTENCY_MISMATCH")
  return old

def checkAdmission (host : Host) (price : Option Price) (doc : Doc) : Except Failure Unit := do
  let budget := doc.budgetData
  let sums := totals host.owner doc
  let amount := price.map Price.reserveMicrousd
  reject (amount.isNone && (budget.requireKnownEstimate || budget.limitMicrousd.isSome)) (.value "BROKER_PRICE_ESTIMATE_REQUIRED")
  reject (budget.maxInflight ≤ sums.inflight) (.value "BROKER_CONCURRENCY_LIMIT")
  reject (sums.unpricedCount ≠ 0 || sums.overrunCount ≠ 0) (.value "BROKER_UPSTREAM_RECONCILIATION_REQUIRED")
  reject (budget.limitMicrousd.any fun limit => limit < sums.committedMicrousd + amount.getD 0) (.value "BROKER_BUDGET_EXCEEDED")

def newHold (input : ReserveInput) (decision : Decision) (chosen : Route) (price : Option Price) : Hold :=
  { previewId := input.previewId
    jobId := input.jobId
    authorizationDigest := input.authorizationDigest
    status := .reserved
    routeId := chosen.routeId
    routeFingerprint := chosen.fingerprint
    providerId := chosen.providerId
    modelId := chosen.modelId
    reserveMicrousd := price.map Price.reserveMicrousd
    accountedMicrousd := price.map Price.reserveMicrousd
    actualMicrousd := none
    price
    dispatched := false
    overrun := false
    overrunAcknowledged := false
    image := decision.profile = some .image
    directorImageIncarnation := if decision.profile = some .image then decision.directorImageIncarnation else none
    directorImageBindingDigest := if decision.profile = some .image then decision.directorImageBindingDigest else none
    nativeOcrIncarnation := if decision.profile = some .nativeOcr then decision.nativeOcrIncarnation else none
    nativeRecoveryId := none }

/-- A hold under a key that has none. -/
def createHold (host : Host) (actor : String) (input : ReserveInput) (decision : Decision) (key : String) (doc : Doc) :
    Except Failure (Doc × Row Hold) := do
  reject (doc.budgetVersion ≠ decision.budgetVersion) (.stale "BROKER_BUDGET_CHANGED")
  let chosen ← fetch decision.chosen (.other "TypeError")
  let price := priceOf host.now chosen doc.prices
  reject (price ≠ chosen.price) (.stale "BROKER_PRICE_CHANGED")
  checkAdmission host price doc
  let entry := newRow actor (newHold input decision chosen price)
  return ({ doc with ledger := doc.ledger.set key entry }, entry)

def reserve (digest : Digest) (host : Host) (actor : String) (input : ReserveInput) (doc : Doc) : Except Failure (Doc × Row Hold) := do
  reject (input.idempotencyKey = "" || 160 < input.idempotencyKey.length || input.jobId = "" || 160 < input.jobId.length)
    (.value "BROKER_RESERVATION_ID_REQUIRED")
  host.novel
  let row ← fetch (doc.decisions.get? input.previewId) (.notFound input.previewId)
  reject (row.data.profile = some .nativeOcr && !host.ownerLease) (.value "BROKER_NATIVE_OCR_OWNER_REQUIRED")
  checkVersion row input.expectedVersion
  assertPreview digest host actor row
  host.guard
  reject (row.data.profile = some .image && input.authorizationDigest ≠ host.visionAuthority.map Authority.bindingDigest)
    (.value "BROKER_IMAGE_AUTHORITY_MISMATCH")
  let key := holdKey digest actor input.idempotencyKey row.data
  match doc.ledger.get? key with
  | some old => return (doc, ← replay digest host input row.data old)
  | none => createHold host actor input row.data key doc

def guardDispatch (digest : Digest) (host : Host) (actor reservationId jobId : String) (doc : Doc) : Except Failure (Doc × Row Hold) := do
  host.novel
  let entry ← fetch (doc.ledger.get? reservationId) (.notFound reservationId)
  reject (entry.data.jobId ≠ jobId || entry.createdBy ≠ actor) (.value "BROKER_RESERVATION_AUTHORITY_MISMATCH")
  let row ← fetch (doc.decisions.get? entry.data.previewId) (.notFound entry.data.previewId)
  onlyIf (entry.data.image || entry.data.directorImageIncarnation.isSome) do
    discard (assertImageAuthority digest host entry.data.imageFacts true)
    reject (row.data.profile ≠ some .image) (.value "BROKER_IMAGE_PROFILE_REQUIRED")
  reject (row.data.profile = some .nativeOcr && !host.ownerLease) (.value "BROKER_NATIVE_OCR_OWNER_REQUIRED")
  assertPreview digest host actor row
  host.guard
  onlyIf (row.data.profile = some .image) do
    let authority ← assertImageAuthority digest host entry.data.imageFacts true
    reject (entry.data.authorizationDigest ≠ some authority.bindingDigest) (.value "BROKER_IMAGE_AUTHORITY_MISMATCH")
  reject (entry.data.status ≠ .reserved && entry.data.status ≠ .dispatched) (.value "BROKER_RESERVATION_TERMINAL")
  let chosen ← fetch row.data.chosen (.other "TypeError")
  reject (priceOf host.now chosen doc.prices ≠ entry.data.price) (.stale "BROKER_PRICE_CHANGED")
  if entry.data.status = .reserved then
    let sent := bump entry fun hold => { hold with status := .dispatched, dispatched := true }
    return ({ doc with ledger := doc.ledger.set reservationId sent }, sent)
  else return (doc, entry)

inductive FinalStatus where
  | completed | cancelled | failed | unknown
  deriving DecidableEq

/-- The token counts of a usage report that are whole numbers. -/
structure Usage where
  inputTokens : Option Int
  outputTokens : Option Int

/-- The cost of a reported usage, rounded up. -/
def usageCost (price : Price) (usage : Usage) : Option Nat :=
  match usage.inputTokens, usage.outputTokens, price.rates with
  | some input, some output, some (inputRate, outputRate) =>
    if 0 ≤ input ∧ 0 ≤ output then some ((input.toNat * inputRate + output.toNat * outputRate + 999999) / 1000000) else none
  | _, _, _ => none

/-- What a finished hold is known to have cost. -/
def actualOf (status : FinalStatus) (usage : Option Usage) (hold : Hold) : Option Nat :=
  if !hold.dispatched then some 0
  else if hold.image then none
  else if hold.price.any Price.actualKnownZero then some 0
  else if status = .completed then usage.bind fun usage => hold.price.bind fun price => usageCost price usage
  else none

def settle (actual : Option Nat) (hold : Hold) : Hold :=
  { hold with
    status := if !hold.dispatched then .released else if actual.isSome then .settled else .unknownUpstream
    actualMicrousd := actual
    accountedMicrousd := if actual.isSome then actual else hold.reserveMicrousd
    overrun := actual.any fun actual => hold.reserveMicrousd.any fun reserve => reserve < actual }

def finalize (digest : Digest) (host : Host) (actor reservationId jobId : String) (status : FinalStatus) (usage : Option Usage) (doc : Doc) :
    Except Failure (Doc × Row Hold) := do
  let entry ← fetch (doc.ledger.get? reservationId) (.value "BROKER_RESERVATION_AUTHORITY_MISMATCH")
  reject (entry.data.jobId ≠ jobId || entry.createdBy ≠ actor) (.value "BROKER_RESERVATION_AUTHORITY_MISMATCH")
  onlyIf (entry.data.image || entry.data.directorImageIncarnation.isSome) do
    let authority ← assertImageAuthority digest host entry.data.imageFacts false
    reject (entry.data.authorizationDigest ≠ some authority.bindingDigest) (.value "BROKER_IMAGE_AUTHORITY_MISMATCH")
  onlyIf (!(entry.data.image || entry.data.directorImageIncarnation.isSome))
    (reject host.visionAuthority.isSome (.value "BROKER_IMAGE_PROFILE_REQUIRED"))
  reject (entry.data.nativeOcrIncarnation.isSome && !host.ownerLease) (.value "BROKER_NATIVE_OCR_OWNER_REQUIRED")
  reject (nativeOcrRows host.owner [entry] = []) (.stale "BROKER_NATIVE_OCR_OWNER_CHANGED")
  if entry.data.status ≠ .reserved && entry.data.status ≠ .dispatched then return (doc, entry)
  else
    let done := bump entry (settle (actualOf status usage entry.data))
    return ({ doc with ledger := doc.ledger.set reservationId done }, done)

/-- `re.fullmatch(r'[a-f0-9]{64}', text)`. -/
def isHexDigest (text : String) : Bool :=
  text.length = 64 && text.toList.all fun char => ('a' ≤ char && char ≤ 'f') || ('0' ≤ char && char ≤ '9')

structure RecoveryInput where
  expectedVersion : Nat
  jobId : String
  authorizationDigest : String
  recoveryId : String
  evidenceNote : String

/-- A hold whose local executor was stopped: nothing was charged. -/
def recover (recoveryId : String) (hold : Hold) : Hold :=
  { hold with
    status := if hold.status = .settled || hold.status = .released then hold.status else .reconciled
    actualMicrousd := some 0
    accountedMicrousd := some 0
    nativeRecoveryId := some recoveryId
    overrun := false
    overrunAcknowledged := true }

def reconcileNativeOcr (host : Host) (actor rid : String) (input : RecoveryInput) (doc : Doc) : Except Failure (Doc × Row Hold) := do
  reject (!host.ownerLease) (.value "BROKER_NATIVE_OCR_OWNER_REQUIRED")
  reject (!isHexDigest input.recoveryId || !isHexDigest input.authorizationDigest || strip input.evidenceNote = "" ||
    500 < input.evidenceNote.length) (.value "BROKER_NATIVE_OCR_RECOVERY_EVIDENCE_REQUIRED")
  host.guard
  let row ← fetch (doc.ledger.get? rid) (.value "BROKER_NATIVE_OCR_RECOVERY_IDENTITY_MISMATCH")
  reject (row.createdBy ≠ actor || row.data.jobId ≠ input.jobId || row.data.authorizationDigest ≠ some input.authorizationDigest ||
    row.data.nativeOcrIncarnation.getD "" = "" || nativeOcrRows host.owner [row] = [])
    (.value "BROKER_NATIVE_OCR_RECOVERY_IDENTITY_MISMATCH")
  let decision := doc.decisions.get? row.data.previewId
  reject (!(decision.any fun decision => decision.data.profile = some .nativeOcr &&
      decision.data.nativeOcrIncarnation = row.data.nativeOcrIncarnation && decision.createdBy = actor) ||
    !row.data.price.any Price.localProviderFee || row.data.reserveMicrousd ≠ some 0 ||
    row.data.actualMicrousd.getD 0 ≠ 0 || row.data.accountedMicrousd.getD 0 ≠ 0)
    (.value "BROKER_NATIVE_OCR_ZERO_FEE_REQUIRED")
  if row.data.nativeRecoveryId = some input.recoveryId then return (doc, row)
  else
    checkVersion row input.expectedVersion
    reject (row.data.status = .reconciled) (.value "BROKER_NATIVE_OCR_RECOVERY_STATE_INVALID")
    let done := bump row (recover input.recoveryId)
    return ({ doc with ledger := doc.ledger.set rid done }, done)

structure ReconcileInput where
  expectedVersion : Nat
  actualMicrousd : Nat
  originalExecutorStoppedConfirmed : Bool

def bill (actual : Nat) (hold : Hold) : Hold :=
  { hold with
    status := .reconciled
    actualMicrousd := some actual
    accountedMicrousd := some actual
    overrun := hold.reserveMicrousd.getD 0 < actual
    overrunAcknowledged := true }

/-- A hold whose executor is confirmed to have stopped. -/
def orphan (input : ReconcileInput) (allowOrphan : Bool) (hold : Hold) : Bool :=
  (hold.status = .reserved || hold.status = .dispatched) && allowOrphan && input.originalExecutorStoppedConfirmed

def reconcile (host : Host) (actor rid : String) (input : ReconcileInput) (allowOrphan : Bool) (doc : Doc) :
    Except Failure (Doc × Row Hold) := do
  host.novel
  let row ← fetch (doc.ledger.get? rid) (.notFound rid)
  checkVersion row input.expectedVersion
  host.guard
  reject (row.data.directorImageIncarnation.isSome || row.data.image) (.value "BROKER_IMAGE_RECONCILIATION_OWNER_REQUIRED")
  reject row.data.nativeOcrIncarnation.isSome (.value "BROKER_NATIVE_OCR_RECONCILIATION_OWNER_REQUIRED")
  reject (row.createdBy ≠ actor) (.value "BROKER_RESERVATION_AUTHORITY_MISMATCH")
  reject (!orphan input allowOrphan row.data && row.data.status ≠ .unknownUpstream && !(row.data.status = .settled && row.data.overrun))
    (.value "BROKER_UPSTREAM_RECONCILIATION_NOT_ALLOWED")
  let done := bump row (bill input.actualMicrousd)
  return ({ doc with ledger := doc.ledger.set rid done }, done)

end NovelStudio.Broker
