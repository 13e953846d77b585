import NovelStudio.Library.Transition
import NovelStudio.World.Capture

/-! The calls that change records (`create_record`, `edit_record`, `review` and
`create_research_draft`), each a transaction of the store. -/

namespace NovelStudio.World

open Library Experimental

def MAX_RECORDS : Nat := 5000

/-- What may stop a call apart from its own checks: the caller's authorization before and after
it, the lease of the project, and the commit of the transaction. -/
structure Guards where
  before : Except Failure Unit
  after : Except Failure Unit
  commit : Except Failure Unit

variable (outside : Outside)

def validateCreateCapacity (service : Service) (records : Dict String Record) : Except Failure Unit :=
  match service with
  | .world => return ()
  | .storyGraph =>
    reject (MAX_RECORDS ≤ records.entries.length) (.value "bounded graph capacity reached; partition the project")

def rows (records : Dict String Record) : Except Failure (List Record) := do
  outside.novel
  reject (MAX_RECORDS < records.entries.length) (.value "graph exceeds bounded query capacity")
  return records.values

/-- What `_after_record_mutation` may raise: the index is refreshed from bounded rows. -/
def afterRecordMutation (service : Service) (records : Dict String Record) : Except Failure Unit :=
  match service with
  | .world => return ()
  | .storyGraph => discard (rows outside records)

def newRecord (rid stamp : String) (payload : Payload) (captured : Capture) : Record :=
  { id := rid, version := 1, createdAt := stamp, status := .review, canonState := .candidate, canonId := none,
    content := ⟨payload, captured.sources, captured.effectiveChapter, captured.links, captured.entitySources, captured.semanticSources⟩,
    effectiveUntil := captured.effectiveUntil, scene := captured.scene, researchSources := false, history := [] }

/-- `create_record`; `rid` and `stamp` are what `new_row` draws and reads from the clock. -/
def createRecord (service : Service) (rid stamp : String) (payload : Payload) (guards : Guards) (store : Store) : Except Failure Store := do
  payload.checked service
  outside.novel
  guards.before
  validateCreateCapacity service store.records
  let captured ← capture outside store.records service none payload
  let row := newRecord rid stamp payload captured
  assertFresh outside store.records service row
  let records := store.records.set rid row
  afterRecordMutation outside service records
  guards.after
  return { store with records }

/-- `create_research_draft`, a call of the world service. -/
def createResearchDraft (rid stamp : String) (payload : Payload) (guards : Guards) (store : Store) : Except Failure Store := do
  payload.checked .world
  reject (payload.data.kind ≠ .ability) (.value "research adoption supports original setting drafts only")
  outside.novel
  guards.before
  reject (1000 ≤ (store.records.values.filter fun row => row.researchSources).length) (.value "RESEARCH_DRAFT_LIMIT")
  let captured ← capture outside store.records .world none payload
  let row := newRecord rid stamp payload captured
  assertFresh outside store.records .world row
  guards.after
  return { store with records := store.records.set rid { row with researchSources := true } }

/-- `target.update(payload, **captured, status='REVIEW', canon_state='CANDIDATE')`: without a
scene the capture has no place, and the old one stays. -/
def Record.edited (row : Record) (payload : Payload) (captured : Capture) : Record :=
  row.change fun target =>
    { target with
      content := ⟨payload, captured.sources, captured.effectiveChapter, captured.links, captured.entitySources, captured.semanticSources⟩
      effectiveUntil := captured.effectiveUntil
      scene := captured.scene.or target.scene
      status := .review
      canonState := .candidate }

/-- The record that a call of a service may change. -/
def visibleRow (service : Service) (records : Dict String Record) (rid : String) : Except Failure Record := do
  let row ← requireRow records rid
  reject (!row.visibleKind service) (.notFound rid)
  return row

def editRecord (service : Service) (rid : String) (expected : Nat) (payload : Payload) (guards : Guards) (store : Store) :
    Except Failure Store := do
  payload.checked service
  guards.before
  let row ← visibleRow service store.records rid
  reject (row.kind ≠ payload.data.kind) (.value "record kind is immutable")
  reject (row.status = .approved) (.value "approved Canon is immutable; create a new candidate")
  let captured ← capture outside store.records service none payload
  reject (expected ≠ row.version) .versionConflict
  let records := store.records.set rid (row.edited payload captured)
  afterRecordMutation outside service records
  guards.after
  return { store with records }

inductive Action where
  | approve | reject | reopen | archive
  deriving DecidableEq

/-- `transitions`. -/
def Action.source : Action → List Status
  | .approve | .reject => [.review]
  | .reopen => [.rejected, .archived]
  | .archive => [.review, .rejected, .approved]

def Action.target : Action → Status
  | .approve => .approved
  | .reject => .rejected
  | .reopen => .review
  | .archive => .archived

def Record.reviewed (row : Record) (action : Action) : Record :=
  row.change fun target =>
    { target with
      status := action.target
      canonState := if action = .approve then if row.promotesCanon then .canon else .reviewed else .candidate }

/-- The canon entry of a record: `next(entry for entry in ... if entry['source_record_id'] == ...)`. -/
def entryOf (canon : Dict String CanonEntry) (rid : String) : Option CanonEntry :=
  canon.values.find? (·.sourceRecordId = rid)

/-- The entry for an approved record, new or the one that it had. -/
def promoted (canon : Dict String CanonEntry) (fresh : String) (row : Record) : CanonEntry :=
  match entryOf canon row.id with
  | some previous =>
    previous.change fun entry =>
      { entry with content := row.content, sourceRecordId := row.id, sourceRecordVersion := row.version, status := .active }
  | none => ⟨fresh, 1, .active, row.content, row.id, row.version⟩

def promote (rid fresh : String) (row : Record) (store : Store) : Store :=
  let entry := promoted store.canon fresh row
  ⟨store.records.set rid { row with canonId := some entry.id }, store.canon.set entry.id entry⟩

/-- The entry of a record that is not promoted is archived. -/
def demote (rid : String) (row : Record) (store : Store) : Except Failure Store :=
  match row.canonId with
  | none => return { store with records := store.records.set rid row }
  | some cid => do
    let entry ← fetch (store.canon.get? cid) (.other "KeyError")
    let canon :=
      if entry.status = .active then store.canon.set cid (entry.change fun target => { target with status := .archived })
      else store.canon
    return ⟨store.records.set rid row, canon⟩

/-- The canon after the review of a record. -/
def settleCanon (rid fresh : String) (action : Action) (row : Record) (store : Store) : Except Failure Store :=
  if action = .approve ∧ row.promotesCanon then return promote rid fresh row store else demote rid row store

/-- `review`; `fresh` is what `new_row` draws for a new canon entry. -/
def review (service : Service) (rid : String) (action : Action) (expected : Nat) (fresh : String) (guards : Guards) (store : Store) :
    Except Failure Store := do
  guards.before
  let row ← visibleRow service store.records rid
  reject (row.version ≠ expected) .versionConflict
  reject (row.status ∉ action.source) (.value "invalid world review transition")
  onlyIf (action = .approve) (assertFresh outside store.records service row)
  let store ← settleCanon rid fresh action (row.reviewed action) store
  afterRecordMutation outside service store.records
  guards.after
  return store

inductive Call where
  | create (service : Service) (rid stamp : String) (payload : Payload)
  | draft (rid stamp : String) (payload : Payload)
  | edit (service : Service) (rid : String) (expected : Nat) (payload : Payload)
  | review (service : Service) (rid : String) (action : Action) (expected : Nat) (fresh : String)

def perform (call : Call) (guards : Guards) (store : Store) : Except Failure Store :=
  match call with
  | .create service rid stamp payload => createRecord outside service rid stamp payload guards store
  | .draft rid stamp payload => createResearchDraft outside rid stamp payload guards store
  | .edit service rid expected payload => editRecord outside service rid expected payload guards store
  | .review service rid action expected fresh => review outside service rid action expected fresh guards store

/-- A call in its transaction: what is stored after it, and whether it raised. -/
def transact (call : Call) (guards : Guards) (store : Store) : Store × Except Failure Unit :=
  match perform outside call guards store with
  | .error failure => (store, .error failure)
  | .ok next =>
    match guards.commit with
    | .error failure => (store, .error failure)
    | .ok () => (next, .ok ())

/-- The ids that `uuid4` draws for a call are not in use. -/
def Call.Unused (store : Store) : Call → Prop
  | .create _ rid _ _ | .draft rid _ _ => rid ∉ store.records.keys
  | .edit .. => True
  | .review _ _ _ _ fresh => fresh ∉ store.canon.keys

/-- A transaction of any client; between them the novel changes at will. -/
inductive Step : Store → Call → Store → Prop where
  | transact {store : Store} {call : Call} (outside : Outside) (guards : Guards) (unused : call.Unused store) :
      Step store call (transact outside call guards store).1

end NovelStudio.World
