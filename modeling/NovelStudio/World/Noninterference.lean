import NovelStudio.World.Candidates
import NovelStudio.World.Perspective

/-! What a character is shown does not depend on what is hidden from them: stores that differ in relations
that are not known as such, in concepts and in the knowledge of others give the same perspective. -/

namespace NovelStudio.World

open Library Experimental

variable {outside : Outside} {records other : Dict String Record} {query : Query} {point : Point} {active active' : Dict String Record} {store : Store}

structure SameTimes (data changed : TemporalData) : Prop where
  sceneId : changed.sceneId = data.sceneId
  worldTime : changed.worldTime = data.worldTime
  validFrom : changed.validFrom = data.validFrom
  validTo : changed.validTo = data.validTo
  calendar : changed.calendar = data.calendar

/-- Records that differ only in what is hidden from a character: what relations and concepts say, what others know,
and the titles, links and digests that were captured with it. -/
structure Alike (characterId : String) (row changed : Record) : Prop where
  id : changed.id = row.id
  version : changed.version = row.version
  createdAt : changed.createdAt = row.createdAt
  status : changed.status = row.status
  approved : changed.everApproved = row.everApproved
  chapter : changed.content.effectiveChapter = row.content.effectiveChapter
  lasting : changed.effectiveUntil = row.effectiveUntil
  scene : changed.scene = row.scene
  kind : changed.kind = row.kind
  relation : ∀ {data}, row.data = .storyRelation data →
    ∃ hidden, changed.data = .storyRelation hidden ∧ SameTimes data.toTemporalData hidden.toTemporalData
  own : ∀ {data}, row.data = .knowledgeEvent data → data.characterId = characterId →
    changed.data = row.data ∧ changed.content.eventOrder = row.content.eventOrder ∧ changed.content.chapterId = row.content.chapterId ∧
      changed.content.sources = row.content.sources
  others : ∀ {data}, changed.data = .knowledgeEvent data → data.characterId = characterId → changed.data = row.data

structure AlikeStores (outside : Outside) (characterId : String) (records other : Dict String Record) : Prop where
  keys : records.keys = other.keys
  rows : ∀ {rid row changed}, records.get? rid = some row → other.get? rid = some changed → Alike characterId row changed
  fresh : ∀ {rid row changed}, records.get? rid = some row → other.get? rid = some changed →
    isFresh outside records row = isFresh outside other changed

/-- The relations of the facts and secrets that the projection shows say the same. -/
def SameRevealed (outside : Outside) (records other : Dict String Record) (query : Query) : Prop :=
  ∀ {projected key event rid row changed}, projection outside records query = .ok projected → projected.shown.get? key = some event →
    event.data.category ∈ [.knownFact, .secret] → event.data.relationId = some rid → records.get? rid = some row → other.get? rid = some changed →
    changed.data = row.data ∧ changed.content.chapterId = row.content.chapterId ∧ changed.content.sources = row.content.sources

/-- The relation that an event names is there. -/
def Linked (records : Dict String Record) (data : Data) : Prop :=
  ∀ ⦃knowledge⦄, data = .knowledgeEvent knowledge → ∀ ⦃rid⦄, named knowledge.relationId = some rid →
    ∃ relation, records.get? rid = some relation ∧ relation.kind = .storyRelation

variable {changed : Record}

theorem Linked.set {data : Data} {rid : String} (linked : Linked records data)
    (kind : ∀ row, records.get? rid = some row → changed.kind = row.kind) : Linked (records.set rid changed) data := by
  intro knowledge told other named
  obtain ⟨relation, found, isRelation⟩ := linked told named
  by_cases same : other = rid
  · subst same
    exact ⟨changed, Dict.get?_set_self .., (kind relation found).trans isRelation⟩
  · exact ⟨relation, (Dict.get?_set_ne _ _ same).trans found, isRelation⟩

variable {row : Record}

theorem worldRef_ok {rid : String} {kind : Kind} (done : worldRef records rid kind = .ok row) :
    records.get? rid = some row ∧ row.kind = kind := by
  simp only [worldRef, bind_ok, requireRow_ok, reject_ok, pure_ok, Bool.or_eq_false_iff, decide_eq_false_iff_not, not_not] at done
  obtain ⟨_, found, _, ⟨_, kind⟩, rfl⟩ := done
  exact ⟨found, kind⟩

theorem linked_of_capture {service : Service} {self : Option String} {payload : Payload} {captured : Capture}
    (done : capture outside records service self payload = .ok captured) : Linked records payload.data := by
  intro knowledge told rid named
  simp only [capture, told, Data.temporal, captureGraph, bind_ok, gather] at done
  obtain ⟨_, _, _, _, _, _, _, _, _, _, _, _, gathered, ⟨related, found, _⟩, _⟩ := done
  simp only [relationRef, named, bind_ok] at found
  obtain ⟨relation, there, _⟩ := found
  exact ⟨relation, worldRef_ok there⟩

/-- The records after a call: one is new or another version of the same kind, and names what is there. -/
theorem effect_linked {call : Call} {next : Store} (unused : call.Unused store) (effect : Effect outside store call next) :
    ∃ rid changed, next.records = store.records.set rid changed ∧ (∀ row, store.records.get? rid = some row → changed.kind = row.kind) ∧
      (Linked store.records changed.data ∨ ∃ row, store.records.get? rid = some row ∧ changed.data = row.data) := by
  have absent : ∀ {rid} {changed : Record}, rid ∉ store.records.keys → ∀ row, store.records.get? rid = some row → changed.kind = row.kind := by
    intro rid changed unused row found
    exact (unused (Dict.mem_keys_iff.mpr ⟨row, found⟩)).elim
  cases effect with
  | create _ _ capturing => exact ⟨_, _, rfl, absent unused, .inl (linked_of_capture capturing)⟩
  | draft _ capturing => exact ⟨_, _, rfl, absent unused, .inl (linked_of_capture capturing)⟩
  | edit _ found kind _ capturing =>
    refine ⟨_, _, rfl, fun row there => ?_, .inl (linked_of_capture capturing)⟩
    cases found.symm.trans there
    exact kind.symm
  | promote found =>
    refine ⟨_, _, rfl, fun row there => ?_, .inr ⟨_, found, rfl⟩⟩
    cases found.symm.trans there
    rfl
  | @demote rid row action after service fresh found status kept done =>
    refine ⟨rid, row.reviewed action, demote_records done, fun old there => ?_, .inr ⟨row, found, rfl⟩⟩
    cases found.symm.trans there
    rfl

theorem run_linked {calls : List Call} (run : Run Step Store.empty calls store) :
    ∀ rid row, store.records.get? rid = some row → Linked store.records row.data := by
  refine run.invariant (motive := fun store => ∀ rid row, store.records.get? rid = some row → Linked store.records row.data)
    (fun _ _ found => nomatch found) fun {state label next} linked last => ?_
  cases last with
  | transact outside guards unused =>
    rcases transact_cases outside guards label state with ⟨_, done⟩ | ⟨next, done, effect⟩
    · rw [done]
      exact linked
    · rw [done]
      intro rid row found
      obtain ⟨rid', changed, records, kind, told⟩ := effect_linked unused effect
      rw [records] at found ⊢
      rw [Dict.get?_set] at found
      split at found
      · cases found
        rcases told with new | ⟨old, there, same⟩
        · exact new.set kind
        · rw [same]
          exact (linked _ old there).set kind
      · exact (linked _ row found).set kind

theorem SameTimes.refl (data : TemporalData) : SameTimes data data := ⟨rfl, rfl, rfl, rfl, rfl⟩

theorem narrativeReached_alike (point : Point) {cid : String} {data hidden : TemporalData} (alike : Alike cid row changed)
    (holds : row.data.temporal = some data) (holds' : changed.data.temporal = some hidden) (times : SameTimes data hidden) :
    narrativeReached point changed = narrativeReached point row := by
  simp only [narrativeReached, holds, holds', alike.chapter, alike.scene, Option.bind_some, times.sceneId]

theorem current_alike (query : Query) (point : Point) {cid : String} {data hidden : TemporalData} (alike : Alike cid row changed)
    (fresh : isFresh outside records row = isFresh outside other changed) (holds : row.data.temporal = some data)
    (holds' : changed.data.temporal = some hidden) (times : SameTimes data hidden) :
    current outside other query point changed = current outside records query point row := by
  have reached := narrativeReached_alike point alike holds holds' times
  have lasts : changed.data.temporal.any (timely query) = row.data.temporal.any (timely query) := by
    simp only [holds, holds', Option.any_some, timely, begun, times.worldTime, times.validFrom, times.validTo, times.calendar]
  simp only [current, reached, lasts, alike.status, alike.lasting, fresh]

section
variable (alike : AlikeStores outside query.characterId records other)
include alike

theorem relation_alike {rid : String} {relation : Record} (found : records.get? rid = some relation) (kind : relation.kind = .storyRelation) :
    rid ∈ (activeRecords outside records query point).keys ↔ rid ∈ (activeRecords outside other query point).keys := by
  obtain ⟨changed, found'⟩ := Dict.mem_keys_iff.mp (alike.keys ▸ Dict.mem_keys_iff.mpr ⟨relation, found⟩)
  have same := alike.rows found found'
  obtain ⟨data, told⟩ : ∃ data, relation.data = .storyRelation data := by
    simp only [Record.kind] at kind
    cases told : relation.data <;> simp [told, Data.kind] at kind
    exact ⟨_, rfl⟩
  obtain ⟨hidden, told', times⟩ := same.relation told
  have holds := current_alike query point same (alike.fresh found found') (by rw [told]; rfl) (by rw [told']; rfl) times
  simp [mem_activeRecords, found, found', same.kind, holds]

theorem own_alike {rid : String} {row changed : Record} {data : KnowledgeData} (found : records.get? rid = some row)
    (found' : other.get? rid = some changed) (told : row.data = .knowledgeEvent data) (own : data.characterId = query.characterId) :
    rid ∈ (activeRecords outside records query point).keys ↔ rid ∈ (activeRecords outside other query point).keys := by
  have same := alike.rows found found'
  obtain ⟨told', _⟩ := same.own told own
  have holds := current_alike query point same (alike.fresh found found') (by rw [told]; rfl) (by rw [told', told]; rfl)
    (SameTimes.refl _)
  simp [mem_activeRecords, found, found', same.kind, holds]

end

/-- What a perspective reads of an event. -/
def KnowledgeEvent.view (event : KnowledgeEvent) : KnowledgeData × EvidenceOf := (event.data, evidence event.row)

def viewed (turn : Place × Key × Option KnowledgeEvent) : Place × Key × Option (KnowledgeData × EvidenceOf) :=
  (turn.1, turn.2.1, turn.2.2.map KnowledgeEvent.view)

/-- The record is no event of the character. -/
def Foreign (query : Query) (row : Record) : Prop := ∀ {data}, row.data = .knowledgeEvent data → data.characterId ≠ query.characterId

variable {row : Record}

theorem considered_foreign {event : KnowledgeEvent} (foreign : Foreign query row) (made : eventOf row = some event) :
    event.considered query point = false := by
  simp [KnowledgeEvent.considered, foreign (eventOf_data made).2]

theorem turnOf_foreign (foreign : Foreign query row) : turnOf query point active row = none := by
  unfold turnOf
  cases made : eventOf row with
  | none => rfl
  | some event => simp [KnowledgeEvent.reached, considered_foreign foreign made]

theorem uncertainKey_foreign (foreign : Foreign query row) : uncertainKey query point row = none := by
  unfold uncertainKey
  cases made : eventOf row with
  | none => rfl
  | some event => simp [KnowledgeEvent.uncertain, considered_foreign foreign made]

/-- A record is an event of the character, the same in both stores, or no event of the character in either. -/
theorem Alike.own_or_foreign {changed : Record} (alike : Alike query.characterId row changed) :
    (∃ data, eventOf row = some ⟨row, data⟩ ∧ eventOf changed = some ⟨changed, data⟩ ∧ row.data = .knowledgeEvent data ∧
        data.characterId = query.characterId) ∨
      Foreign query row ∧ Foreign query changed := by
  by_cases own : ∃ data, row.data = .knowledgeEvent data ∧ data.characterId = query.characterId
  · obtain ⟨data, told, same⟩ := own
    have told' := (alike.own told same).1.trans told
    exact .inl ⟨data, by simp [eventOf, told, Data.knowledge], by simp [eventOf, told', Data.knowledge], told, same⟩
  · have foreign : Foreign query row := fun told same => own ⟨_, told, same⟩
    exact .inr ⟨foreign, fun told same => foreign ((alike.others told same).symm.trans told) same⟩

/-- An event of the character takes the same turn in both stores, as far as a perspective reads it. -/
theorem turnOf_alike {changed : Record} (alike : Alike query.characterId row changed)
    (activity : ∀ {data}, row.data = .knowledgeEvent data → data.characterId = query.characterId → (row.id ∈ active.keys ↔ changed.id ∈ active'.keys) ∧
      ∀ {rid}, named data.relationId = some rid → (rid ∈ active.keys ↔ rid ∈ active'.keys)) :
    (turnOf query point active row).map viewed = (turnOf query point active' changed).map viewed ∧
      uncertainKey query point row = uncertainKey query point changed := by
  rcases alike.own_or_foreign with ⟨data, made, made', told, own⟩ | ⟨foreign, foreign'⟩
  · obtain ⟨told', order, chapterId, sources⟩ := alike.own told own
    obtain ⟨activated, related⟩ := activity told own
    have considered : KnowledgeEvent.considered query point ⟨changed, data⟩ = KnowledgeEvent.considered query point ⟨row, data⟩ := by
      simp only [KnowledgeEvent.considered, alike.chapter, alike.approved]
    have reached : narrativeReached point changed = narrativeReached point row :=
      narrativeReached_alike point alike (by rw [told]; rfl) (by rw [told', told]; rfl) (SameTimes.refl _)
    have place : KnowledgeEvent.place ⟨changed, data⟩ = KnowledgeEvent.place ⟨row, data⟩ := by
      simp only [KnowledgeEvent.place, alike.chapter, alike.scene, order, alike.createdAt, alike.id]
    have view : KnowledgeEvent.view ⟨changed, data⟩ = KnowledgeEvent.view ⟨row, data⟩ := by
      simp only [KnowledgeEvent.view, evidence, alike.id, alike.version, chapterId, sources]
    have shown : (KnowledgeEvent.shown active' ⟨changed, data⟩).map KnowledgeEvent.view = (KnowledgeEvent.shown active ⟨row, data⟩).map KnowledgeEvent.view := by
      simp only [KnowledgeEvent.shown, activated]
      split
      · rfl
      · cases named : named data.relationId with
        | none => exact congrArg some view
        | some rid =>
          simp only [related named]
          split
          · exact congrArg some view
          · rfl
    constructor
    · have turned : KnowledgeEvent.reached query point ⟨changed, data⟩ = KnowledgeEvent.reached query point ⟨row, data⟩ := by
        simp only [KnowledgeEvent.reached, considered, reached]
      simp only [turnOf, made, made', Option.bind_some, turned]
      split
      · simp only [Option.map_some, viewed, place, shown]
        rfl
      · rfl
    · simp only [uncertainKey, made, made', Option.bind_some, KnowledgeEvent.uncertain, considered, reached, alike.chapter, alike.scene]
      rfl
  · simp only [turnOf_foreign foreign, turnOf_foreign foreign', uncertainKey_foreign foreign, uncertainKey_foreign foreign', Option.map_none, and_self]

/-- What a perspective reads of what is shown. -/
def views (shown : Dict Key KnowledgeEvent) : Dict Key (KnowledgeData × EvidenceOf) := shown.mapValues fun _ event => event.view

theorem views_written (turned : List (Place × Key × Option KnowledgeEvent)) (shown : Dict Key KnowledgeEvent) :
    views (turned.foldl (fun shown turn => shown.write turn.2.1 turn.2.2) shown) =
      (turned.map viewed).foldl (fun shown turn => shown.write turn.2.1 turn.2.2) (views shown) := by
  induction turned generalizing shown with
  | nil => rfl
  | cons turn rest ih =>
    rw [List.foldl_cons, ih, List.map_cons, List.foldl_cons]
    congr 1
    exact Dict.mapValues_write shown turn.2.1 turn.2.2 fun _ event => event.view

theorem views_erased (keys : List Key) (shown : Dict Key KnowledgeEvent) :
    views (keys.foldl (fun shown key => shown.erase key) shown) = keys.foldl (fun shown key => shown.erase key) (views shown) := by
  induction keys generalizing shown with
  | nil => rfl
  | cons key rest ih =>
    rw [List.foldl_cons, ih, List.foldl_cons]
    congr 1
    exact Dict.mapValues_erase shown key fun _ event => event.view

theorem turns_viewed {active : Dict String Record} : (turns records query point active).map viewed =
    (records.values.filterMap fun row => (turnOf query point active row).map viewed).insertionSort fun left right => left.1 ≤ right.1 := by
  rw [turns, List.map_insertionSort (fun left right : Place × Key × Option KnowledgeEvent => left.1 ≤ right.1)
    (fun left right : Place × Key × Option (KnowledgeData × EvidenceOf) => left.1 ≤ right.1) viewed _ fun _ _ _ _ => Iff.rfl, List.map_filterMap,
    filterMap_values]

theorem shown_alike (point : Point) (mirrored : Mirrored store) (linked : ∀ rid row, store.records.get? rid = some row → Linked store.records row.data)
    (alike : AlikeStores outside query.characterId store.records other) :
    views (shownEvents store.records query point (activeRecords outside store.records query point)) =
      views (shownEvents other query point (activeRecords outside other query point)) := by
  have each : ∀ rid row changed, store.records.get? rid = some row → other.get? rid = some changed →
      (turnOf query point (activeRecords outside store.records query point) row).map viewed =
        (turnOf query point (activeRecords outside other query point) changed).map viewed ∧
      uncertainKey query point row = uncertainKey query point changed := by
    intro rid row changed found found'
    have same := alike.rows found found'
    refine turnOf_alike same fun {data} told own => ⟨?_, fun {named} names => ?_⟩
    · rw [same.id, mirrored.ids found]
      exact own_alike alike found found' told own
    · obtain ⟨relation, there, kind⟩ := linked rid row found told names
      exact relation_alike alike there kind
  have turned : (turns store.records query point (activeRecords outside store.records query point)).map viewed =
      (turns other query point (activeRecords outside other query point)).map viewed := by
    rw [turns_viewed, turns_viewed]
    congr 1
    exact Dict.filterMap_values_congr alike.keys fun rid row changed found found' => (each rid row changed found found').1
  have uncertain : store.records.values.filterMap (uncertainKey query point) = other.values.filterMap (uncertainKey query point) :=
    Dict.filterMap_values_congr alike.keys fun rid row changed found found' => (each rid row changed found found').2
  rw [shownEvents_turns, shownEvents_turns, views_erased, views_erased, views_written, views_written, turned, ← filterMap_values,
    ← filterMap_values, uncertain]

theorem get?_activeRecords {rid : String} (found : (activeRecords outside records query point).get? rid = some row) :
    records.get? rid = some row :=
  (Dict.get?_filterValues.mp found).1

theorem related_alike (linked : ∀ rid row, store.records.get? rid = some row → Linked store.records row.data)
    (unnamed : "" ∉ store.records.keys) (alike : AlikeStores outside query.characterId store.records other) {key : Key} {event : KnowledgeEvent}
    (found : (shownEvents store.records query point (activeRecords outside store.records query point)).get? key = some event) :
    (event.data.relationId.bind (activeRecords outside store.records query point).get? = none ∧
        event.data.relationId.bind (activeRecords outside other query point).get? = none) ∨
      ∃ rid row changed, event.data.relationId = some rid ∧ (activeRecords outside store.records query point).get? rid = some row ∧
        (activeRecords outside other query point).get? rid = some changed ∧ store.records.get? rid = some row ∧ other.get? rid = some changed := by
  obtain ⟨member, _, shows, _⟩ := shown_last found
  obtain ⟨_, _, _, related⟩ := shown_some shows
  obtain ⟨rid, there, told⟩ := mem_allEvents.mp (mem_events.mp member).1
  have unread : ∀ {records : Dict String Record} (point : Point), "" ∉ records.keys → (activeRecords outside records query point).get? "" = none := by
    intro records point unnamed
    refine Dict.get?_eq_none_iff.mpr fun member => ?_
    obtain ⟨row, active⟩ := Dict.mem_keys_iff.mp member
    exact unnamed (Dict.mem_keys_iff.mpr ⟨row, get?_activeRecords active⟩)
  cases names : event.data.relationId with
  | none => exact .inl ⟨rfl, rfl⟩
  | some relationId =>
    by_cases empty : relationId = ""
    · subst empty
      exact .inl ⟨unread point unnamed, unread point (alike.keys ▸ unnamed)⟩
    · have name : named event.data.relationId = some relationId := by simp [named, names, empty]
      obtain ⟨relation, stored, kind⟩ := linked rid event.row there told name
      have inside := related name
      obtain ⟨row, active⟩ := Dict.mem_keys_iff.mp inside
      obtain ⟨changed, active'⟩ := Dict.mem_keys_iff.mp ((relation_alike alike stored kind).mp inside)
      exact .inr ⟨relationId, row, changed, rfl, active, active', get?_activeRecords active, get?_activeRecords active'⟩

/-- The item of what a perspective reads of an event. -/
def itemOf (active : Dict String Record) (view : KnowledgeData × EvidenceOf) : ContextItem :=
  let relation := view.1.relationId.bind active.get?
  let text := match relation, view.1.category with
    | some row, .knownFact | some row, .secret => statement row.data
    | _, _ => view.1.value
  ⟨view.1.category, text, view.1.evidenceStatus, view.2.recordId, view.2.recordVersion, view.2.chapterId, view.2.sourceVersions,
    relation.map fun row => row.version⟩

theorem items_views (active : Dict String Record) (shown : Dict Key KnowledgeEvent) (keep : Key → Bool) :
    (shown.entries.filter fun entry => keep entry.1).map (fun entry => contextItem active entry.2) =
      ((views shown).entries.filter fun entry => keep entry.1).map fun entry => itemOf active entry.2 := by
  rw [views, Dict.mapValues, List.filter_map, List.map_map]
  rfl

theorem edges_views (active : Dict String Record) (shown : Dict Key KnowledgeEvent) :
    (shown.entries.filterMap fun entry => revealedEdge active entry.1 entry.2.data.category) =
      (views shown).entries.filterMap fun entry => revealedEdge active entry.1 entry.2.1.category := by
  rw [views, Dict.mapValues, List.filterMap_map]
  rfl

section
variable (linked : ∀ rid row, store.records.get? rid = some row → Linked store.records row.data) (unnamed : "" ∉ store.records.keys) (alike : AlikeStores outside query.characterId store.records other)
  (revealed : SameRevealed outside store.records other query) {scene : Option Boundary}
  (projected : projection outside store.records query = .ok ⟨activeRecords outside store.records query point,
    shownEvents store.records query point (activeRecords outside store.records query point), scene⟩)
include linked unnamed alike revealed projected

theorem item_alike {entry : Key × KnowledgeData × EvidenceOf}
    (inside : entry ∈ (views (shownEvents store.records query point (activeRecords outside store.records query point))).entries) :
    itemOf (activeRecords outside store.records query point) entry.2 = itemOf (activeRecords outside other query point) entry.2 := by
  obtain ⟨⟨key, event⟩, member, rfl⟩ := List.mem_map.mp inside
  have found := Dict.get?_eq_some_iff.mpr member
  rcases related_alike linked unnamed alike found with ⟨none, none'⟩ | ⟨rid, row, changed, names, active, active', stored, stored'⟩
  · simp only [itemOf, KnowledgeEvent.view, none, none']
  · have version := (alike.rows stored stored').version
    simp only [itemOf, KnowledgeEvent.view, names, Option.bind_some, active, active', Option.map_some, version]
    cases category : event.data.category with
    | knownFact | secret =>
      obtain ⟨data, _⟩ := revealed projected found (by simp [category]) names stored stored'
      simp only [data]
    | belief | falseBelief | goal | fear | value | emotion | intent | relationshipState => rfl

theorem edge_alike {entry : Key × KnowledgeData × EvidenceOf}
    (inside : entry ∈ (views (shownEvents store.records query point (activeRecords outside store.records query point))).entries) :
    revealedEdge (activeRecords outside store.records query point) entry.1 entry.2.1.category =
      revealedEdge (activeRecords outside other query point) entry.1 entry.2.1.category := by
  obtain ⟨⟨key, event⟩, member, rfl⟩ := List.mem_map.mp inside
  have found := Dict.get?_eq_some_iff.mpr member
  obtain ⟨_, same, _⟩ := shown_last found
  subst same
  have known : event.data.category ∈ [Category.knownFact, .secret] →
      (fetch (event.data.relationId.bind (activeRecords outside store.records query point).get?) (Failure.other "KeyError") >>= edgeOf) =
        (fetch (event.data.relationId.bind (activeRecords outside other query point).get?) (Failure.other "KeyError") >>= edgeOf) := by
    intro category
    rcases related_alike linked unnamed alike found with ⟨none, none'⟩ | ⟨rid, row, changed, names, active, active', stored, stored'⟩
    · rw [none, none']
    · have same := alike.rows stored stored'
      obtain ⟨data, chapterId, sources⟩ := revealed projected found category names stored stored'
      have edge : edgeOf row = edgeOf changed := by
        simp only [edgeOf, data, evidence, same.id, same.version, chapterId, sources]
      simp only [names, Option.bind_some, active, active']
      exact edge
  cases category : event.data.category with
  | knownFact | secret =>
    simp only [revealedEdge, KnowledgeEvent.view, KnowledgeEvent.key, category, Category.epistemic, ↓reduceIte, known (by simp [category])]
  | belief | falseBelief | goal | fear | value | emotion | intent | relationshipState =>
    simp [revealedEdge, KnowledgeEvent.view, KnowledgeEvent.key, category, Category.epistemic]

end

theorem projection_alike (outside : Outside) (query : Query) (keys : records.keys = other.keys) :
    (∃ failure, projection outside records query = .error failure ∧ projection outside other query = .error failure) ∨
      ∃ point, ∃ scene, projection outside records query =
          .ok ⟨activeRecords outside records query point, shownEvents records query point (activeRecords outside records query point), scene⟩ ∧
        projection outside other query =
          .ok ⟨activeRecords outside other query point, shownEvents other query point (activeRecords outside other query point), scene⟩ := by
  have bounded : discard (rows outside records) = discard (rows outside other) := by
    unfold rows
    rw [Dict.length_entries, Dict.length_entries, keys]
    cases outside.novel with
    | error failure => rfl
    | ok => cases full : reject (MAX_RECORDS < other.keys.length) (Failure.value "graph exceeds bounded query capacity") <;> rfl
  unfold projection
  rw [bounded]
  cases discard (outside.entitySources ⟨[query.characterId], []⟩) with
  | error failure => exact .inl ⟨failure, rfl, rfl⟩
  | ok =>
    cases outside.sequence query.chapterId with
    | error failure => exact .inl ⟨failure, rfl, rfl⟩
    | ok number =>
      cases discard (rows outside other) with
      | error failure => exact .inl ⟨failure, rfl, rfl⟩
      | ok =>
        cases sceneBoundary outside query.sceneId query.chapterId with
        | error failure => exact .inl ⟨failure, rfl, rfl⟩
        | ok scene => exact .inr ⟨⟨number, scene⟩, scene, rfl, rfl⟩

section
variable (linked : ∀ rid row, store.records.get? rid = some row → Linked store.records row.data) (unnamed : "" ∉ store.records.keys)
  (same : views (shownEvents store.records query point (activeRecords outside store.records query point)) =
    views (shownEvents other query point (activeRecords outside other query point)))
  (alike : AlikeStores outside query.characterId store.records other) (revealed : SameRevealed outside store.records other query)
  {scene : Option Boundary}
  (projected : projection outside store.records query = .ok ⟨activeRecords outside store.records query point,
    shownEvents store.records query point (activeRecords outside store.records query point), scene⟩)
include linked unnamed same alike revealed projected

theorem items_alike (keep : Key → Bool) :
    ((shownEvents store.records query point (activeRecords outside store.records query point)).entries.filter fun entry => keep entry.1).map
        (fun entry => contextItem (activeRecords outside store.records query point) entry.2) =
      ((shownEvents other query point (activeRecords outside other query point)).entries.filter fun entry => keep entry.1).map
        fun entry => contextItem (activeRecords outside other query point) entry.2 := by
  rw [items_views, items_views, ← same]
  exact List.map_congr_left fun entry member => item_alike linked unnamed alike revealed projected (List.mem_filter.mp member).1

theorem edges_alike :
    ((shownEvents store.records query point (activeRecords outside store.records query point)).entries.filterMap fun entry =>
        revealedEdge (activeRecords outside store.records query point) entry.1 entry.2.data.category) =
      (shownEvents other query point (activeRecords outside other query point)).entries.filterMap fun entry =>
        revealedEdge (activeRecords outside other query point) entry.1 entry.2.data.category := by
  rw [edges_views, edges_views, ← same]
  exact List.filterMap_congr fun entry member => edge_alike linked unnamed alike revealed projected member

theorem characterContext_alike (projected' : projection outside other query = .ok ⟨activeRecords outside other query point,
    shownEvents other query point (activeRecords outside other query point), scene⟩) :
    characterContext outside store.records query = characterContext outside other query := by
  have known := items_alike linked unnamed same alike revealed projected Key.epistemic
  have felt := items_alike linked unnamed same alike revealed projected fun key => !key.epistemic
  simp only [characterContext, projected, projected', List.map_append, known, felt, bind, Except.bind]

end

/-- A character's context and graph are the same in two stores that agree but for what is hidden from them.
No id that `new_row` draws is empty, and no character's. -/
theorem character_noninterference {calls : List Call} (run : Run Step Store.empty calls store) (unnamed : "" ∉ store.records.keys)
    (character : query.characterId ≠ "") (alike : AlikeStores outside query.characterId store.records other)
    (revealed : SameRevealed outside store.records other query) (digest : Context → String) :
    characterContextResult outside store.records query digest = characterContextResult outside other query digest ∧
      graph outside store.records query (some query.characterId) = graph outside other query (some query.characterId) := by
  have linked := run_linked run
  suffices both : characterContextResult outside store.records query digest = characterContextResult outside other query digest ∧
      characterEdges outside store.records query = characterEdges outside other query by
    refine ⟨both.1, ?_⟩
    have selected : selectedEdges outside store.records query (some query.characterId) = selectedEdges outside other query (some query.characterId) := by
      have named : named (some query.characterId) = some query.characterId := by simp [named, character]
      simp only [selectedEdges, named]
      exact both.2
    simp only [graph, selected]
  rcases projection_alike outside query alike.keys with ⟨failure, fails, fails'⟩ | ⟨point, scene, projected, projected'⟩
  · constructor
    · simp only [characterContextResult, fails, fails', bind, Except.bind]
    · simp only [characterEdges, fails, fails', bind, Except.bind]
  · have same := shown_alike point (run_mirrored run) linked alike
    have context := characterContext_alike linked unnamed same alike revealed projected projected'
    have edges := edges_alike linked unnamed same alike revealed projected
    constructor
    · simp only [characterContextResult, projected, projected', context, bind, Except.bind]
    · simp only [characterEdges, projected, projected', edges, bind, Except.bind]

def hide (row : Record) : Record :=
  match row.data with
  | .storyRelation data => { row with content := { row.content with data := .storyRelation { data with statement := "Ben hates Anna." } } }
  | _ => row

theorem hide_data (row : Record) : (∃ data, row.data = .storyRelation data ∧ (hide row).data = .storyRelation { data with statement := "Ben hates Anna." }) ∨
    hide row = row := by
  unfold hide
  cases told : row.data with
  | storyRelation data => exact .inl ⟨data, rfl, rfl⟩
  | _ => exact .inr rfl

theorem alike_hide (cid : String) (row : Record) : Alike cid row (hide row) := by
  have fields : (hide row).id = row.id ∧ (hide row).version = row.version ∧ (hide row).createdAt = row.createdAt ∧ (hide row).status = row.status ∧
      (hide row).everApproved = row.everApproved ∧ (hide row).content.effectiveChapter = row.content.effectiveChapter ∧
      (hide row).effectiveUntil = row.effectiveUntil ∧ (hide row).scene = row.scene := by
    unfold hide
    split <;> exact ⟨rfl, rfl, rfl, rfl, rfl, rfl, rfl, rfl⟩
  obtain ⟨id, version, createdAt, status, approved, chapter, lasting, scene⟩ := fields
  rcases hide_data row with ⟨data, told, told'⟩ | same
  · refine ⟨id, version, createdAt, status, approved, chapter, lasting, scene, ?_, fun {other} this => ?_, fun {other} this => ?_, fun {other} this => ?_⟩
    · rw [Record.kind, Record.kind, told, told']
      rfl
    · cases told.symm.trans this
      exact ⟨_, told', SameTimes.refl _⟩
    · cases told.symm.trans this
    · cases told'.symm.trans this
  · rw [same]
    exact ⟨rfl, rfl, rfl, rfl, rfl, rfl, rfl, rfl, rfl, fun told => ⟨_, told, SameTimes.refl _⟩, fun _ _ => ⟨rfl, rfl, rfl, rfl⟩, fun _ _ => rfl⟩

def falseBelief : Payload :=
  ⟨"Anna of Ben", some "c1", 1,
    .knowledgeEvent ⟨untimed (some 1), "anna", .misunderstand, .falseBelief, some "r", none, "Ben adores Anna.", "current", .explicit⟩⟩

/-- A relation is approved, and what a character wrongly believes of it. -/
def mistaken : List Call :=
  sampleCalls ++ [.create .storyGraph "believed" "t" falseBelief, .review .storyGraph "believed" .approve 1 "e1"]

/-- What a character who believes something false is shown does not depend on what is true. -/
theorem character_noninterference_sample : ∃ store : Store, (store.records.get? "r").any (fun row => statement row.data = "Anna trusts Ben.") = true ∧
    characterContextResult sampleOutside store.records sampleQuery (fun context => context.characterId) =
      characterContextResult sampleOutside (store.records.mapValues fun _ => hide) sampleQuery (fun context => context.characterId) ∧
    graph sampleOutside store.records sampleQuery (some "anna") =
      graph sampleOutside (store.records.mapValues fun _ => hide) sampleQuery (some "anna") := by
  have ends : (afterCalls mistaken).any (fun reached =>
      (reached.2.records.get? "r").any (fun row => statement row.data = "Anna trusts Ben.") && !reached.2.records.contains "" &&
      reached.2.records.values.all (fun row => isFresh sampleOutside reached.2.records row =
        isFresh sampleOutside (reached.2.records.mapValues fun _ => hide) (hide row)) &&
      endsWith (fun projected => projected.shown.values.length = 1 && projected.shown.values.all fun event =>
        event.data.category ∉ [Category.knownFact, .secret]) (projection sampleOutside reached.2.records sampleQuery)) = true := by
    decide +kernel
  obtain ⟨⟨calls, store⟩, executed, passes⟩ := Option.any_eq_true _ _ |>.mp ends
  simp only [Bool.and_eq_true, Bool.not_eq_true', Bool.eq_false_iff, ne_eq, Dict.contains_iff, List.all_eq_true, decide_eq_true_eq] at passes
  obtain ⟨⟨⟨told, unnamed⟩, fresh⟩, believed⟩ := passes
  have stored : ∀ {rid row changed}, store.records.get? rid = some row → (store.records.mapValues fun _ => hide).get? rid = some changed →
      changed = hide row := by
    intro rid row changed found found'
    rw [Dict.get?_mapValues, found] at found'
    exact (Option.some.inj found').symm
  obtain ⟨projected, done, believed⟩ := ok_of_endsWith _ _ believed
  refine ⟨store, told, character_noninterference (run_of_attempts _ executed) unnamed (by decide) ⟨(Dict.keys_mapValues _ _).symm, ?_, ?_⟩ ?_ _⟩
  · intro rid row changed found found'
    rw [stored found found']
    exact alike_hide _ row
  · intro rid row changed found found'
    rw [stored found found']
    exact fresh row (Dict.mem_values_iff.mpr ⟨rid, found⟩)
  · intro other key event rid row changed done' found category
    cases done.symm.trans done'
    simp only [Bool.and_eq_true, List.all_eq_true, decide_eq_true_eq] at believed
    exact (believed.2 event (Dict.mem_values_iff.mpr ⟨key, found⟩) category).elim

end NovelStudio.World
