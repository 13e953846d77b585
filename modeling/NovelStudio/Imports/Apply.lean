import NovelStudio.Library.Fallible
import NovelStudio.Library.Interleaving
import NovelStudio.Library.JsonText
import NovelStudio.Library.Text

/-! Acceptance of imported knowledge (`import_apply_service.py`): the journal of a review, and a call of `apply` as a program over the
journal, the knowledge and the upsert. -/

namespace NovelStudio.Imports

open Library

inductive Kind where
  | characters | locations | timelineEvents | foreshadowing
  deriving DecidableEq

def KINDS : List (String × Kind) :=
  [("characters", .characters), ("locations", .locations), ("timeline_events", .timelineEvents), ("foreshadowing", .foreshadowing)]

def MAX_CANDIDATES : Nat := 1000

/-- The field that a candidate of a group has to fill. -/
def Kind.key : Kind → String
  | .characters | .locations => "name"
  | .timelineEvents | .foreshadowing => "title"

inductive Failure where
  | value (message : String)
  /-- An `OSError`. -/
  | os
  | other (note : String)
  deriving DecidableEq

/-- A digest, as the value that it digests. -/
abbrev Digest := Option Json

def Digest.same : Digest → Digest → Bool
  | none, none => true
  | some left, some right => Json.sameText left right
  | _, _ => false

inductive Status where
  | PENDING
  | APPLYING (beforeDigest : Digest)
  | FAILED (beforeDigest : Digest)
  | DONE (result : Json) (resultDigest : Digest)

def Status.isDone : Status → Bool
  | .DONE _ _ => true
  | _ => false

structure Step where
  kind : Kind
  targetId : String
  candidate : Json
  status : Status

inductive JournalStatus where
  | APPLYING | PARTIAL | REVIEW_REQUIRED | COMPLETED
  deriving DecidableEq

structure Journal where
  schemaVersion : Nat
  reviewId : String
  novelId : String
  fingerprint : Digest
  status : JournalStatus
  errorCode : Option String
  actorId : String
  lastActorId : Option String
  steps : List Step

def Step.result? (kind : Kind) (step : Step) : Option Json :=
  match step.status with
  | .DONE result _ => if step.kind = kind then some result else none
  | _ => none

def Journal.applied (journal : Journal) : List (String × List Json) :=
  KINDS.map fun group => (group.1, journal.steps.filterMap (Step.result? group.2))

def Journal.completed (journal : Journal) : Nat := journal.steps.countP fun step => step.status.isDone

/-- What the service takes from Python: `str` of a value, and the text of `uuid5` under the URL namespace. -/
structure Outside where
  shown : Json → String
  uuid5 : String → String

structure Call where
  reviewId : String
  nid : String
  candidates : Json
  actorId : String
  distinct : candidates.distinct = true

/-- `str(item.get(key) or "")`. -/
def itemText (outside : Outside) (item : Json) (key : String) : String :=
  match item.get? key with
  | some value => if value.truthy then outside.shown value else ""
  | none => ""

/-- `re.fullmatch(r"[a-zA-Z0-9_-]+", source)`. -/
def isBusinessId (source : String) : Bool :=
  source ≠ "" && source.toList.all fun char => char.isAlphanum || char = '_' || char = '-'

/-- The group of a candidate, and its place in it. -/
structure Candidate where
  group : String
  kind : Kind
  item : Json
  ordinal : Nat

def targetOf (outside : Outside) (call : Call) (candidate : Candidate) : String :=
  let source := itemText outside candidate.item "id"
  if isBusinessId source then String.ofList (source.toList.map Char.toLower)
  else
    let name := match candidate.item.get? "candidate_id" with
      | some value => if value.truthy then outside.shown value else toString candidate.ordinal
      | none => toString candidate.ordinal
    outside.uuid5 ("import-apply:" ++ call.reviewId ++ ":" ++ call.nid ++ ":" ++ candidate.group ++ ":" ++ name)

def addStep (outside : Outside) (call : Call) (steps : List Step) (candidate : Candidate) : Except Failure (List Step) := do
  reject (!candidate.item.isDict || strip (itemText outside candidate.item candidate.kind.key) = "")
    (.value (candidate.group ++ " candidate requires " ++ candidate.kind.key))
  let target := targetOf outside call candidate
  reject (steps.any fun step => step.kind = candidate.kind && step.targetId = target) (.value "duplicate target entity in review selection")
  return steps ++ [⟨candidate.kind, target, .dict (store "id" (.str target) candidate.item.fields), .PENDING⟩]

def items : Json → List Json
  | .list items => items
  | _ => []

def isList : Json → Bool
  | .list _ => true
  | _ => false

/-- The candidates of a selection, group by group. -/
def candidatesOf (groups : List (String × Json)) : List Candidate :=
  KINDS.flatMap fun group => (items ((lookup group.1 groups).getD (.list []))).zipIdx.map fun item => ⟨group.1, group.2, item.1, item.2⟩

/-- The steps of a selection, which `apply` validates before it takes the lock. -/
def selectionSteps (outside : Outside) (call : Call) : Except Failure (List Step) := do
  reject (!call.candidates.isDict || call.candidates.fields.any fun group => KINDS.all fun known => known.1 ≠ group.1)
    (.value "unsupported knowledge candidate group")
  reject (call.candidates.fields.any fun group => !isList group.2) (.value "knowledge candidate groups must be lists")
  reject ((call.candidates.fields.map fun group => (items group.2).length).sum > MAX_CANDIDATES)
    (.value "accept at most 1000 candidates per review")
  (candidatesOf call.candidates.fields).foldlM (addStep outside call) []

/-- A journal that was found belongs to the same selection. -/
def checkJournal (call : Call) (journal : Journal) : Except Failure Unit := do
  reject (journal.schemaVersion ≠ 1) (.value "import apply journal is corrupt")
  reject (journal.reviewId ≠ call.reviewId || journal.novelId ≠ call.nid || !Digest.same journal.fingerprint (some call.candidates))
    (.value "review selection changed after acceptance began; inspect its existing checkpoints")

def newJournal (call : Call) (steps : List Step) : Journal where
  schemaVersion := 1
  reviewId := call.reviewId
  novelId := call.nid
  fingerprint := some call.candidates
  status := .APPLYING
  errorCode := none
  actorId := call.actorId
  lastActorId := none
  steps := steps

/-- The detail of `ImportApplyInterrupted`. -/
structure Detail where
  code : String
  reviewId : String
  status : JournalStatus
  applied : List (String × List Json)
  completed : Nat
  total : Nat
  candidateId : String

inductive Raised where
  | interrupted (detail : Detail)
  | failed (failure : Failure)

structure Accepted where
  applied : List (String × List Json)
  checkpointCount : Nat

/-- What a call does outside of itself: it loads and writes the journal, reads an entity, upserts a candidate, and ends. -/
inductive Op where
  | load
  | read (nid : String) (kind : Kind) (targetId : String)
  | write (journal : Journal)
  | upsert (nid : String) (kind : Kind) (targetId : String) (candidate : Json)
  | answer (outcome : Except Raised Accepted)

def Op.Answer : Op → Type
  | .load => Except Failure (Option Journal)
  | .read .. => Except Failure (Option Json)
  | .write _ => Except Failure Unit
  | .upsert .. => Except Failure (List Json)
  | .answer _ => Unit

abbrev Routine := Program Op Op.Answer Unit

def ends (outcome : Except Raised Accepted) : Routine := .perform (.answer outcome) fun _ => .done ()

def fails (failure : Failure) : Routine := ends (.error (.failed failure))

def interruptedJournal (journal : Journal) (code : String) : Journal :=
  { journal with
    status := if code ∈ ["IMPORT_APPLY_AMBIGUOUS", "IMPORT_APPLIED_RECORD_CHANGED", "IMPORT_TARGET_EXISTS"] then .REVIEW_REQUIRED else .PARTIAL
    errorCode := some code }

def detailOf (reviewId : String) (journal : Journal) (code targetId : String) : Detail :=
  ⟨code, reviewId, journal.status, journal.applied, journal.completed, journal.steps.length, targetId⟩

def interrupt (call : Call) (journal : Journal) (code : String) (step : Step) : Routine :=
  let journal := interruptedJournal journal code
  let raises := ends (.error (.interrupted (detailOf call.reviewId journal code step.targetId)))
  .perform (.write journal) fun
    | .ok () | .error .os => raises
    | .error failure => fails failure

/-- Whether a step is to be upserted, or the code for which it stops the call. -/
def verdict (step : Step) (current : Option Json) : Except String Bool :=
  match step.status with
  | .DONE _ resultDigest => if Digest.same current resultDigest then .ok false else .error "IMPORT_APPLIED_RECORD_CHANGED"
  | .PENDING => if current.isSome then .error "IMPORT_TARGET_EXISTS" else .ok true
  | .APPLYING beforeDigest | .FAILED beforeDigest => if Digest.same current beforeDigest then .ok true else .error "IMPORT_APPLY_AMBIGUOUS"

/-- The repository confirmed exactly the target. -/
def confirms (written : List Json) (targetId : String) : Bool :=
  match written with
  | [row] => (row.get? "id").any fun value => value.eq (.str targetId)
  | _ => false

/-- The upsert of a step whose checkpoint is written; `resume` goes on with the step when it is done. -/
def upsertStep (call : Call) (journal : Journal) (before : List Step) (step : Step) (beforeDigest : Digest) (rest : List Step)
    (resume : Step → Routine) : Routine :=
  let failed : Step := { step with status := .FAILED beforeDigest }
  let stops := interrupt call { journal with steps := before ++ failed :: rest } "IMPORT_APPLY_PARTIAL" failed
  .perform (.upsert call.nid step.kind step.targetId step.candidate) fun
    | .error _ => stops
    | .ok written =>
      if confirms written step.targetId then
        .perform (.read call.nid step.kind step.targetId) fun
          | .error _ | .ok none => stops
          | .ok (some row) =>
            let done : Step := { step with status := .DONE row (some row) }
            .perform (.write { journal with steps := before ++ done :: rest }) fun
              | .ok () => resume done
              | .error _ => interrupt call { journal with steps := before ++ done :: rest } "IMPORT_APPLY_PARTIAL" done
      else stops

def applyStep (call : Call) (journal : Journal) (before : List Step) (step : Step) (rest : List Step) (resume : Step → Routine) : Routine :=
  .perform (.read call.nid step.kind step.targetId) fun
    | .error failure => fails failure
    | .ok current =>
      match verdict step current with
      | .error code => interrupt call { journal with steps := before ++ step :: rest } code step
      | .ok false => resume step
      | .ok true =>
        .perform (.write { journal with steps := before ++ { step with status := .APPLYING current } :: rest }) fun
          | .error failure => fails failure
          | .ok () => upsertStep call journal before step current rest resume

/-- The loop of `apply`, and what is behind it. -/
def applySteps (call : Call) (journal : Journal) (before : List Step) : List Step → Routine
  | [] =>
    let journal := { journal with status := .COMPLETED, errorCode := none, steps := before }
    .perform (.write journal) fun
      | .error failure => fails failure
      | .ok () => ends (.ok ⟨journal.applied, journal.steps.length⟩)
  | step :: rest => applyStep call journal before step rest fun step => applySteps call journal (before ++ [step]) rest

def apply (outside : Outside) (call : Call) : Routine :=
  match selectionSteps outside call with
  | .error failure => fails failure
  | .ok steps =>
    .perform .load fun
      | .error failure => fails failure
      | .ok (some journal) =>
        match checkJournal call journal with
        | .error failure => fails failure
        | .ok () => applySteps call { journal with lastActorId := some call.actorId } [] journal.steps
      | .ok none =>
        .perform (.write (newJournal call steps)) fun
          | .error failure => fails failure
          | .ok () => applySteps call { newJournal call steps with lastActorId := some call.actorId } [] steps

/-- What a call did outside of itself, and what it was answered. -/
inductive Event where
  | loaded (found : Except Failure (Option Journal))
  | read (nid : String) (kind : Kind) (targetId : String) (found : Except Failure (Option Json))
  | wrote (journal : Journal) (ended : Except Failure Unit)
  | upserted (nid : String) (kind : Kind) (targetId : String) (written : Except Failure (List Json))
  | answered (outcome : Except Raised Accepted)

/-- The knowledge of the projects, the journal of the review on the disk, the call that is in hand with what it did so far, and whether
nothing outside happened since its last read. -/
structure World where
  knowledge : String → Kind → List Json
  journal : Option Journal
  call : Option Call
  trace : List Event
  quiet : Bool

def current (outside : Outside) (knowledge : String → Kind → List Json) (nid : String) (kind : Kind) (targetId : String) : Option Json :=
  (knowledge nid kind).find? fun row => outside.shown ((row.get? "id").getD .null) = targetId

def World.tell (world : World) (event : Event) : World := { world with trace := world.trace ++ [event] }

/-- An operation may fail. A write that fails leaves the journal; an upsert, which may fail too, leaves the knowledge in any state, and
nothing outside happens between the read of its target and it. -/
inductive Exec (outside : Outside) : Unit → (op : Op) → World → op.Answer → World → Prop where
  | loads {world : World} : Exec outside () .load world (.ok world.journal) (world.tell (.loaded (.ok world.journal)))
  | loadFails {world : World} (failure : Failure) : Exec outside () .load world (.error failure) (world.tell (.loaded (.error failure)))
  | reads {world : World} (nid : String) (kind : Kind) (targetId : String) :
      Exec outside () (.read nid kind targetId) world (.ok (current outside world.knowledge nid kind targetId))
        ({ world with quiet := true }.tell (.read nid kind targetId (.ok (current outside world.knowledge nid kind targetId))))
  | readFails {world : World} (nid : String) (kind : Kind) (targetId : String) (failure : Failure) :
      Exec outside () (.read nid kind targetId) world (.error failure) (world.tell (.read nid kind targetId (.error failure)))
  | writes {world : World} (journal : Journal) :
      Exec outside () (.write journal) world (.ok ()) ({ world with journal := some journal }.tell (.wrote journal (.ok ())))
  | writeFails {world : World} (journal : Journal) (failure : Failure) :
      Exec outside () (.write journal) world (.error failure) (world.tell (.wrote journal (.error failure)))
  | upserts {world : World} (nid : String) (kind : Kind) (targetId : String) (candidate : Json) (quiet : world.quiet = true)
      (written : Except Failure (List Json)) (knowledge : String → Kind → List Json) :
      Exec outside () (.upsert nid kind targetId candidate) world written
        ({ world with knowledge, quiet := false }.tell (.upserted nid kind targetId written))
  | answers {world : World} (outcome : Except Raised Accepted) :
      Exec outside () (.answer outcome) world () (world.tell (.answered outcome))

/-- The authors and the other reviews change the knowledge. -/
def Edits (_ : Unit) (world next : World) : Prop := ∃ knowledge, next = { world with knowledge, quiet := false }

abbrev System := Threads Op Op.Answer World Unit

inductive Label where
  | event (event : Event)
  | edit
  | begin (call : Call)
  /-- The process stops; nothing more of the call is performed. -/
  | stop

/-- One call at a time is in hand, under the lock of its review. -/
inductive System.Step (outside : Outside) : System → Label → System → Prop where
  | turn {system next : System} {event : Event} (told : next.state.trace = system.state.trace ++ [event])
      (turn : Threads.Turn (Exec outside) () system next) : Step outside system (.event event) next
  | edit {system : System} {world : World} (edits : Edits () system.state world) : Step outside system .edit ⟨world, system.programs⟩
  | begin {system : System} (idle : system.programs () = .done ()) (call : Call) :
      Step outside system (.begin call) ⟨{ system.state with call := some call, trace := [], quiet := false }, fun _ => apply outside call⟩
  | stop {system : System} : Step outside system .stop ⟨{ system.state with call := none, trace := [] }, fun _ => .done ()⟩

/-- A review for which nothing was accepted yet. -/
def System.fresh (knowledge : String → Kind → List Json) : System := ⟨⟨knowledge, none, none, [], false⟩, fun _ => .done ()⟩

end NovelStudio.Imports
