import NovelStudio.World.Calls

/-! The canon mirrors the approved facts: what a call does to the records and the canon, and
what holds of both after any calls. -/

namespace NovelStudio.World

open Library Experimental

variable {outside : Outside} {store next : Store} {records : Dict String Record} {guards : Guards}

@[simp] theorem requireRow_ok {row : Record} : requireRow records rid = .ok row ↔ records.get? rid = some row := by
  simp [requireRow]

theorem visibleRow_ok {row : Record} (done : visibleRow service records rid = .ok row) :
    records.get? rid = some row ∧ row.visibleKind service = true := by
  simp only [visibleRow, bind_ok, requireRow_ok, reject_ok, pure_ok, Bool.not_eq_false'] at done
  obtain ⟨_, found, _, visible, rfl⟩ := done
  exact ⟨found, visible⟩

/-- What a call that does not raise does to the store. -/
inductive Effect (outside : Outside) (store : Store) : Call → Store → Prop where
  | create (checked : payload.checked service = .ok ()) (room : validateCreateCapacity service store.records = .ok ())
      (capturing : capture outside store.records service none payload = .ok captured) :
      Effect outside store (.create service rid clock payload)
        { store with records := store.records.set rid (newRecord rid clock payload captured) }
  | draft (checked : payload.checked .world = .ok ())
      (capturing : capture outside store.records .world none payload = .ok captured) :
      Effect outside store (.draft rid clock payload)
        { store with records := store.records.set rid { newRecord rid clock payload captured with researchSources := true } }
  | edit (checked : payload.checked service = .ok ()) (found : store.records.get? rid = some row) (kind : row.kind = payload.data.kind)
      (candidate : row.status ≠ .approved) (capturing : capture outside store.records service none payload = .ok captured) :
      Effect outside store (.edit service rid row.version payload)
        { store with records := store.records.set rid (row.edited payload captured) }
  | promote (found : store.records.get? rid = some row) (status : row.status = .review) (promotes : row.promotesCanon = true) :
      Effect outside store (.review service rid .approve row.version fresh) (promote rid fresh (row.reviewed .approve) store)
  | demote (found : store.records.get? rid = some row) (status : row.status ∈ action.source)
      (kept : action = .approve → row.promotesCanon = false) (done : demote rid (row.reviewed action) store = .ok after) :
      Effect outside store (.review service rid action row.version fresh) after

@[simp] theorem edited_id (row : Record) (payload : Payload) (captured : Capture) : (row.edited payload captured).id = row.id := rfl

@[simp] theorem reviewed_id (row : Record) (action : Action) : (row.reviewed action).id = row.id := rfl

@[simp] theorem promotesCanon_reviewed (row : Record) (action : Action) : (row.reviewed action).promotesCanon = row.promotesCanon := rfl

theorem demote_records {row : Record} (done : demote rid row store = .ok next) : next.records = store.records.set rid row := by
  unfold demote at done
  split at done
  · cases done
    rfl
  · simp only [bind_ok, pure_ok] at done
    obtain ⟨_, _, rfl⟩ := done
    rfl

theorem review_effect (done : review outside service rid action expected fresh guards store = .ok next) :
    Effect outside store (.review service rid action expected fresh) next := by
  simp only [review, bind_ok, reject_ok, decide_eq_false_iff_not, not_not, pure_ok] at done
  obtain ⟨_, _, row, visible, _, rfl, _, status, _, _, changed, done, _, _, _, _, rfl⟩ := done
  have found := (visibleRow_ok visible).1
  rw [settleCanon, promotesCanon_reviewed] at done
  split at done
  · rename_i approves
    obtain ⟨rfl, promotes⟩ := approves
    cases pure_ok.mp done
    exact .promote found (by simpa [Action.source] using status) promotes
  · rename_i keeps
    exact .demote found status (fun same => by simpa [same] using keeps) done

theorem perform_effect (done : perform outside call guards store = .ok next) : Effect outside store call next := by
  cases call with
  | create service rid clock payload =>
    simp only [perform, createRecord, bind_ok, pure_ok] at done
    obtain ⟨_, checked, _, _, _, _, _, room, capture, captured, _, _, _, _, _, _, rfl⟩ := done
    exact .create checked room captured
  | draft rid clock payload =>
    simp only [perform, createResearchDraft, bind_ok, pure_ok] at done
    obtain ⟨_, checked, _, _, _, _, _, _, _, _, capture, captured, _, _, _, _, rfl⟩ := done
    exact .draft checked captured
  | edit service rid expected payload =>
    simp only [perform, editRecord, bind_ok, pure_ok, reject_ok, decide_eq_false_iff_not, not_not] at done
    obtain ⟨_, checked, _, _, row, visible, _, kind, _, candidate, capture, captured, _, rfl, _, _, _, _, rfl⟩ := done
    exact .edit checked (visibleRow_ok visible).1 kind candidate captured
  | review service rid action expected fresh => exact review_effect done

theorem transact_cases (outside : Outside) (guards : Guards) (call : Call) (store : Store) :
    (∃ failure, transact outside call guards store = (store, .error failure)) ∨
      ∃ next, transact outside call guards store = (next, .ok ()) ∧ Effect outside store call next := by
  unfold transact
  cases done : perform outside call guards store with
  | error failure => exact .inl ⟨failure, rfl⟩
  | ok next =>
    cases committed : guards.commit with
    | error failure => exact .inl ⟨failure, rfl⟩
    | ok => exact .inr ⟨next, rfl, perform_effect done⟩

section
variable {row changed : Record}

/-- An entry says what its record says, as far as the record is approved. -/
structure Mirrors (row : Record) (entry : CanonEntry) : Prop where
  source : entry.sourceRecordId = row.id
  active : entry.status = .active ↔ row.status = .approved ∧ row.promotesCanon = true
  current : entry.status = .active → entry.content = row.content ∧ entry.sourceRecordVersion = row.version

structure Mirrored (store : Store) : Prop where
  ids : ∀ {rid row}, store.records.get? rid = some row → row.id = rid
  entryIds : ∀ {cid entry}, store.canon.get? cid = some entry → entry.id = cid
  entry : ∀ {rid row cid}, store.records.get? rid = some row → row.canonId = some cid →
    ∃ entry, store.canon.get? cid = some entry ∧ Mirrors row entry
  record : ∀ {cid entry}, store.canon.get? cid = some entry →
    ∃ row, store.records.get? entry.sourceRecordId = some row ∧ row.canonId = some cid
  promoted : ∀ {rid row}, store.records.get? rid = some row → row.status = .approved → row.promotesCanon = true → row.canonId ≠ none

theorem mirrored_empty : Mirrored Store.empty where
  ids found := nomatch found
  entryIds found := nomatch found
  entry found := nomatch found
  record found := nomatch found
  promoted found := nomatch found

namespace Mirrored

/-- The entry of a record is the one that `review` looks for. -/
theorem entryOf_eq (mirrored : Mirrored store) (found : store.records.get? rid = some row) :
    entryOf store.canon rid = row.canonId.bind store.canon.get? := by
  cases linked : row.canonId with
  | none =>
    refine List.find?_eq_none.mpr fun entry member => ?_
    obtain ⟨cid, there⟩ := Dict.mem_values_iff.mp member
    obtain ⟨source, read, back⟩ := mirrored.record there
    intro same
    rw [of_decide_eq_true same, found] at read
    cases read
    rw [linked] at back
    cases back
  | some cid =>
    obtain ⟨entry, there, mirrors⟩ := mirrored.entry found linked
    have named : entry.sourceRecordId = rid := mirrors.source.trans (mirrored.ids found)
    rw [Option.bind_some, there]
    cases located : entryOf store.canon rid with
    | none =>
      exact (List.find?_eq_none.mp located entry (Dict.mem_values_iff.mpr ⟨cid, there⟩) (decide_eq_true named)).elim
    | some other =>
      obtain ⟨cid', there'⟩ := Dict.mem_values_iff.mp (List.mem_of_find?_eq_some located)
      obtain ⟨source, read, back⟩ := mirrored.record there'
      rw [of_decide_eq_true (List.find?_some (p := fun entry : CanonEntry => entry.sourceRecordId = rid) located), found] at read
      cases read
      cases linked.symm.trans back
      exact there'.symm.trans there ▸ rfl

theorem setRecord (mirrored : Mirrored store) (unlinked : ∀ row, store.records.get? rid = some row → row.canonId = none)
    (id : changed.id = rid) (none : changed.canonId = none) (candidate : changed.status = .approved → changed.promotesCanon = false) :
    Mirrored { store with records := store.records.set rid changed } := by
  refine ⟨fun {other row} found => ?_, mirrored.entryIds, fun {other row cid} found linked => ?_, fun {cid entry} there => ?_,
    fun {other row} found approved promotes => ?_⟩
  · rw [Dict.get?_set] at found
    split at found
    · rename_i same
      cases found
      exact id.trans same.symm
    · exact mirrored.ids found
  · rw [Dict.get?_set] at found
    split at found
    · cases found
      rw [none] at linked
      cases linked
    · exact mirrored.entry found linked
  · obtain ⟨row, found, linked⟩ := mirrored.record there
    refine ⟨row, ?_, linked⟩
    rw [Dict.get?_set_ne]
    · exact found
    · intro same
      rw [unlinked row (same ▸ found)] at linked
      cases linked
  · rw [Dict.get?_set] at found
    split at found
    · cases found
      rw [candidate approved] at promotes
      cases promotes
    · exact mirrored.promoted found approved promotes

theorem setBoth {canon : Dict String CanonEntry} {entry : CanonEntry} (mirrored : Mirrored store)
    (found : store.records.get? rid = some row)
    (place : row.canonId = some cid ∨ row.canonId = none ∧ store.canon.get? cid = none)
    (id : changed.id = rid) (linked : changed.canonId = some cid) (named : entry.id = cid) (mirrors : Mirrors changed entry)
    (reads : ∀ other, canon.get? other = if other = cid then some entry else store.canon.get? other) :
    Mirrored ⟨store.records.set rid changed, canon⟩ := by
  have elsewhere : ∀ {other row'}, other ≠ rid → store.records.get? other = some row' → row'.canonId ≠ some cid := by
    intro other row' differs found' linked'
    obtain ⟨entry', there, mirrors'⟩ := mirrored.entry found' linked'
    rcases place with old | ⟨_, absent⟩
    · obtain ⟨entry'', there', mirrors''⟩ := mirrored.entry found old
      cases there.symm.trans there'
      exact differs ((mirrored.ids found').symm.trans (mirrors'.source.symm.trans (mirrors''.source.trans (mirrored.ids found))))
    · cases absent.symm.trans there
  refine ⟨fun {other row'} found' => ?_, fun {cid' entry'} there => ?_, fun {other row' cid'} found' linked' => ?_,
    fun {cid' entry'} there => ?_, fun {other row'} found' approved promotes => ?_⟩
  · rw [Dict.get?_set] at found'
    split at found'
    · rename_i same
      cases found'
      exact id.trans same.symm
    · exact mirrored.ids found'
  · rw [reads] at there
    split at there
    · rename_i same
      cases there
      exact named.trans same.symm
    · exact mirrored.entryIds there
  · rw [Dict.get?_set] at found'
    split at found'
    · cases found'
      cases linked.symm.trans linked'
      exact ⟨entry, (reads _).trans (if_pos rfl), mirrors⟩
    · rename_i differs
      obtain ⟨entry', there, mirrors'⟩ := mirrored.entry found' linked'
      have other : cid' ≠ cid := fun same => elsewhere differs found' (same ▸ linked')
      exact ⟨entry', by rw [reads, if_neg other]; exact there, mirrors'⟩
  · rw [reads] at there
    split at there
    · rename_i same
      cases there
      exact ⟨changed, by rw [mirrors.source, id, Dict.get?_set_self], same ▸ linked⟩
    · rename_i other
      obtain ⟨row', found', linked'⟩ := mirrored.record there
      refine ⟨row', ?_, linked'⟩
      rw [Dict.get?_set_ne]
      · exact found'
      · intro same
        rw [same, found] at found'
        cases found'
        rcases place with old | ⟨none, _⟩
        · rw [old] at linked'
          exact other (Option.some.inj linked').symm
        · rw [none] at linked'
          cases linked'
  · rw [Dict.get?_set] at found'
    split at found'
    · cases found'
      rw [linked]
      exact nofun
    · exact mirrored.promoted found' approved promotes

theorem mirrors_archived {entry : CanonEntry} (source : entry.sourceRecordId = row.id) (archived : entry.status = .archived)
    (candidate : row.status = .approved → row.promotesCanon = false) : Mirrors row entry where
  source := source
  active := by
    refine ⟨fun active => by simp [archived] at active, fun ⟨approved, promotes⟩ => ?_⟩
    rw [candidate approved] at promotes
    cases promotes
  current active := by simp [archived] at active

theorem setKept (mirrored : Mirrored store) (found : store.records.get? rid = some row)
    (archived : ∀ {cid entry}, row.canonId = some cid → store.canon.get? cid = some entry → entry.status = .archived)
    (id : changed.id = rid) (linked : changed.canonId = row.canonId) (candidate : changed.status = .approved → changed.promotesCanon = false) :
    Mirrored { store with records := store.records.set rid changed } := by
  cases old : row.canonId with
  | none =>
    refine mirrored.setRecord (fun other there => ?_) id (linked.trans old) candidate
    cases found.symm.trans there
    exact old
  | some cid =>
    obtain ⟨entry, there, mirrors⟩ := mirrored.entry found old
    refine mirrored.setBoth found (.inl old) id (linked.trans old) (mirrored.entryIds there)
      (mirrors_archived ?_ (archived old there) candidate) fun other => ?_
    · exact mirrors.source.trans ((mirrored.ids found).trans id.symm)
    · split
      · rename_i same
        exact same ▸ there
      · rfl

theorem promote (mirrored : Mirrored store) (found : store.records.get? rid = some row) (promotes : row.promotesCanon = true)
    (unused : fresh ∉ store.canon.keys) : Mirrored (World.promote rid fresh (row.reviewed .approve) store) := by
  have id : (row.reviewed .approve).id = rid := (reviewed_id row _).trans (mirrored.ids found)
  have searched := mirrored.entryOf_eq found
  have mirrors : Mirrors (row.reviewed .approve) (World.promoted store.canon fresh (row.reviewed .approve)) := by
    refine ⟨?_, ?_, fun _ => ?_⟩ <;> unfold World.promoted <;> split
    · rfl
    · rfl
    · exact ⟨fun _ => ⟨rfl, promotes⟩, fun _ => rfl⟩
    · exact ⟨fun _ => ⟨rfl, promotes⟩, fun _ => rfl⟩
    · exact ⟨rfl, rfl⟩
    · exact ⟨rfl, rfl⟩
  refine mirrored.setBoth found ?_ id rfl rfl ⟨mirrors.source, mirrors.active, mirrors.current⟩ fun other => Dict.get?_set ..
  unfold World.promoted
  rw [id, searched]
  cases linked : row.canonId with
  | none => exact .inr ⟨rfl, Dict.get?_eq_none_iff.mpr unused⟩
  | some cid =>
    obtain ⟨entry, there, _⟩ := mirrored.entry found linked
    rw [Option.bind_some, there]
    exact .inl (congrArg some (mirrored.entryIds there).symm)

theorem demote (mirrored : Mirrored store) (found : store.records.get? rid = some row)
    (kept : action = .approve → row.promotesCanon = false) (done : demote rid (row.reviewed action) store = .ok next) : Mirrored next := by
  have id : (row.reviewed action).id = rid := (reviewed_id row _).trans (mirrored.ids found)
  have candidate : (row.reviewed action).status = .approved → (row.reviewed action).promotesCanon = false := by
    intro approved
    refine kept ?_
    cases action with
    | approve => rfl
    | reject | reopen | archive => cases approved
  have same : (row.reviewed action).canonId = row.canonId := rfl
  unfold World.demote at done
  rw [same] at done
  cases linked : row.canonId with
  | none =>
    rw [linked] at done
    cases done
    exact mirrored.setKept found (fun other => by rw [linked] at other; cases other) id same candidate
  | some cid =>
    simp only [linked, bind_ok, fetch_ok, pure_ok] at done
    obtain ⟨entry, there, rfl⟩ := done
    obtain ⟨_, there', mirrors⟩ := mirrored.entry found linked
    cases there.symm.trans there'
    have source := mirrors.source.trans ((mirrored.ids found).trans id.symm)
    have named := mirrored.entryIds there
    split
    · refine mirrored.setBoth found (.inl linked) id (same.trans linked) ?_ (mirrors_archived ?_ rfl candidate) fun other => Dict.get?_set ..
      · exact named
      · exact source
    · rename_i inactive
      refine mirrored.setKept found (fun {cid' entry'} other there' => ?_) id same candidate
      cases linked.symm.trans other
      cases there.symm.trans there'
      cases status : entry.status with
      | active => exact (inactive status).elim
      | archived => rfl

theorem effect (mirrored : Mirrored store) (unused : call.Unused store) (effect : Effect outside store call next) : Mirrored next := by
  have absent : ∀ {rid}, rid ∉ store.records.keys → ∀ row, store.records.get? rid = some row → row.canonId = none := by
    intro rid unused row found
    exact (unused (Dict.mem_keys_iff.mpr ⟨row, found⟩)).elim
  cases effect with
  | create => exact mirrored.setRecord (absent unused) rfl rfl nofun
  | draft => exact mirrored.setRecord (absent unused) rfl rfl nofun
  | edit _ found _ candidate _ =>
    refine mirrored.setKept found (fun {cid entry} linked there => ?_) ((edited_id ..).trans (mirrored.ids found)) rfl nofun
    obtain ⟨_, there', mirrors⟩ := mirrored.entry found linked
    cases there.symm.trans there'
    cases status : entry.status with
    | active => exact (candidate (mirrors.active.mp status).1).elim
    | archived => rfl
  | promote found _ promotes => exact mirrored.promote found promotes unused
  | demote found _ kept done => exact mirrored.demote found kept done

end Mirrored

end

/-- What the canon shows: at most one entry for a record, and an active one, equal in content and
version, just for the approved records that promote canon. -/
structure Exact (store : Store) : Prop where
  unique : ∀ {cid entry cid' entry'}, store.canon.get? cid = some entry → store.canon.get? cid' = some entry' →
    entry.sourceRecordId = entry'.sourceRecordId → cid = cid'
  sourced : ∀ {cid entry}, store.canon.get? cid = some entry → ∃ row, store.records.get? entry.sourceRecordId = some row ∧
    (entry.status = .active ↔ row.status = .approved ∧ row.promotesCanon = true) ∧
    (entry.status = .active → entry.content = row.content ∧ entry.sourceRecordVersion = row.version)
  complete : ∀ {rid row}, store.records.get? rid = some row → row.status = .approved → row.promotesCanon = true →
    ∃ cid entry, store.canon.get? cid = some entry ∧ entry.sourceRecordId = rid

theorem Mirrored.exact (mirrored : Mirrored store) : Exact store where
  unique there there' same := by
    obtain ⟨row, found, linked⟩ := mirrored.record there
    obtain ⟨row', found', linked'⟩ := mirrored.record there'
    rw [same, found'] at found
    cases found
    exact Option.some.inj (linked.symm.trans linked')
  sourced there := by
    obtain ⟨row, found, linked⟩ := mirrored.record there
    obtain ⟨_, there', mirrors⟩ := mirrored.entry found linked
    cases there.symm.trans there'
    exact ⟨row, found, mirrors.active, mirrors.current⟩
  complete found approved promotes := by
    obtain ⟨cid, linked⟩ := Option.ne_none_iff_exists'.mp (mirrored.promoted found approved promotes)
    obtain ⟨entry, there, mirrors⟩ := mirrored.entry found linked
    exact ⟨cid, entry, there, mirrors.source.trans (mirrored.ids found)⟩

/-- What a call of the archive action leaves of an approved record. -/
def Archived (row : Record) (call : Call) (after : Record) : Prop :=
  (∃ service expected fresh, call = .review service row.id .archive expected fresh) ∧
    after.content = row.content ∧ after.status = .archived ∧ after.version = row.version + 1

theorem effect_approved (mirrored : Mirrored store) (unused : call.Unused store) (effect : Effect outside store call next)
    (found : store.records.get? rid = some row) (approved : row.status = .approved) :
    ∃ after, next.records.get? rid = some after ∧ (after = row ∨ Archived row call after) := by
  have elsewhere : ∀ {other} (changed : Record), (∀ old, store.records.get? other = some old → old.status ≠ .approved) →
      (store.records.set other changed).get? rid = some row := by
    intro other changed candidate
    rw [Dict.get?_set_ne]
    · exact found
    · intro same
      exact candidate row (same ▸ found) approved
  have absent : ∀ {other}, other ∉ store.records.keys → ∀ old, store.records.get? other = some old → old.status ≠ .approved := by
    intro other unused old there
    exact (unused (Dict.mem_keys_iff.mpr ⟨old, there⟩)).elim
  cases effect with
  | create => exact ⟨row, elsewhere _ (absent unused), .inl rfl⟩
  | draft => exact ⟨row, elsewhere _ (absent unused), .inl rfl⟩
  | edit _ there _ candidate =>
    refine ⟨row, elsewhere _ (fun old there' => ?_), .inl rfl⟩
    cases there.symm.trans there'
    exact candidate
  | promote there status =>
    refine ⟨row, elsewhere _ (fun old there' => ?_), .inl rfl⟩
    cases there.symm.trans there'
    simp [status]
  | @demote rid' old action after service fresh there status kept done =>
    rw [demote_records done, Dict.get?_set]
    split
    · rename_i same
      subst same
      cases found.symm.trans there
      cases action with
      | archive => exact ⟨_, rfl, .inr ⟨⟨service, _, fresh, by rw [mirrored.ids found]⟩, rfl, rfl, rfl⟩⟩
      | approve | reject | reopen => simp [approved, Action.source] at status
    · exact ⟨row, found, .inl rfl⟩

theorem run_mirrored (run : Run Step Store.empty calls store) : Mirrored store := by
  refine run.invariant mirrored_empty fun mirrored last => ?_
  cases last with
  | transact outside guards unused =>
    rcases transact_cases outside guards _ _ with ⟨_, done⟩ | ⟨next, done, effect⟩
    · rw [done]
      exact mirrored
    · rw [done]
      exact mirrored.effect unused effect

/-- After any calls of both services the canon mirrors the approved records exactly; the next
call either raises and changes nothing, or leaves every approved record as it is, unless it
archives it. -/
theorem canon_mirrors (run : Run Step Store.empty calls store) :
    Exact store ∧ ∀ outside guards call, call.Unused store →
      (∃ failure, transact outside call guards store = (store, .error failure)) ∨
        (transact outside call guards store).2 = .ok () ∧ ∀ {rid row}, store.records.get? rid = some row → row.status = .approved →
          ∃ after, (transact outside call guards store).1.records.get? rid = some after ∧ (after = row ∨ Archived row call after) := by
  have mirrored := run_mirrored run
  refine ⟨mirrored.exact, fun outside guards call unused => ?_⟩
  rcases transact_cases outside guards call store with raised | ⟨next, done, effect⟩
  · exact .inl raised
  · rw [done]
    exact .inr ⟨rfl, fun found approved => effect_approved mirrored unused effect found approved⟩

/-- A novel of one chapter, in which everything that is asked for is there. -/
def sampleOutside : Outside where
  novel := .ok ()
  scopedSources _ := .ok ∅
  sequence _ := .ok 1
  content _ := .ok ""
  entitySources _ := .ok ∅
  boundary _ _ := .error (.stale "scene is unavailable")
  plannedScene _ := .error (.value "scene is unavailable")
  assertSources _ := .ok ()
  digest row := row.id

def openGuards : Guards := ⟨.ok (), .ok (), .ok ()⟩

instance (store : Store) : (call : Call) → Decidable (call.Unused store)
  | .create _ rid _ _ | .draft rid _ _ => inferInstanceAs (Decidable (rid ∉ store.records.keys))
  | .edit .. => isTrue trivial
  | .review _ _ _ _ fresh => inferInstanceAs (Decidable (fresh ∉ store.canon.keys))

/-- A call whose ids are not in use. -/
def attempt (outside : Outside) (store : Store) (call : Call) : Option (Store × Call) :=
  if call.Unused store then some ((transact outside call openGuards store).1, call) else none

theorem run_of_attempts (calls : List Call) (executed : execute (attempt outside) store calls = some (labels, next)) :
    Run Step store labels next :=
  Run.of_execute (fun {state action after label} attempted => by
    unfold attempt at attempted
    split at attempted
    · rename_i unused
      cases attempted
      exact .transact outside openGuards unused
    · cases attempted) calls executed

/-- The store after calls, if the ids of each are not in use. -/
def afterCalls (calls : List Call) : Option (List Call × Store) := execute (attempt sampleOutside) Store.empty calls

def untimed (worldTime : Option Int) : TemporalData := ⟨none, worldTime, none, none, "story", none, []⟩

def sampleRelation : Payload :=
  ⟨"Trust", some "c1", 0, .storyRelation ⟨untimed (some 0), ⟨.character, "anna"⟩, ⟨.character, "ben"⟩, .trusts, .worldFact, "Anna trusts Ben.", none⟩⟩

/-- A relation is created and approved. -/
def sampleCalls : List Call := [.create .storyGraph "r" "t" sampleRelation, .review .storyGraph "r" .approve 1 "e"]

theorem canon_mirrors_sample : ∃ store, (entryOf store.canon "r").any (fun entry => entry.status = .active) = true ∧
    Exact store ∧ ∀ outside guards call, call.Unused store →
      (∃ failure, transact outside call guards store = (store, .error failure)) ∨
        (transact outside call guards store).2 = .ok () ∧ ∀ {rid row}, store.records.get? rid = some row → row.status = .approved →
          ∃ after, (transact outside call guards store).1.records.get? rid = some after ∧ (after = row ∨ Archived row call after) := by
  have ends : (afterCalls sampleCalls).any (fun reached => (entryOf reached.2.canon "r").any fun entry => entry.status = .active) = true := by
    decide +kernel
  obtain ⟨⟨calls, store⟩, executed, active⟩ := Option.any_eq_true _ _ |>.mp ends
  exact ⟨store, active, canon_mirrors (run_of_attempts sampleCalls executed)⟩

end NovelStudio.World
