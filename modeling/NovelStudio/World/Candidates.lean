import NovelStudio.World.Knowledge

/-! Candidates have no effect: what a record is captured with, whether it is fresh, and what a
projection shows depend on the approved records and on the places that once approved events keep. -/

namespace NovelStudio.World

open Library Experimental

variable {outside : Outside} {records other : Dict String Record} {query : Query} {point : Point} {store : Store}

/-- Two collections have the same approved records. -/
def SameApproved (records other : Dict String Record) : Prop :=
  ∀ {rid row}, row.status = .approved → (records.get? rid = some row ↔ other.get? rid = some row)

theorem SameApproved.symm (same : SameApproved records other) : SameApproved other records :=
  fun approved => (same approved).symm

variable {changed : Record}

theorem sameApproved_set (old : ∀ {row}, records.get? rid = some row → row.status ≠ .approved)
    (new : changed.status ≠ .approved) : SameApproved records (records.set rid changed) := by
  intro rid' row approved
  rw [Dict.get?_set]
  split
  · rename_i same
    subst same
    constructor
    · intro found
      exact (old found approved).elim
    · intro found
      cases found
      exact (new approved).elim
  · rfl

theorem referred_approved (done : referred records service self rid kind = .ok row) :
    records.get? rid = some row ∧ row.status = .approved := by
  simp only [referred, bind_ok, requireRow_ok, reject_ok, pure_ok, Bool.or_eq_false_iff, decide_eq_false_iff_not, not_not] at done
  obtain ⟨_, found, _, _, _, ⟨approved, _⟩, _, _, rfl⟩ := done
  exact ⟨found, approved⟩

theorem referred_mono (same : SameApproved records other) (done : referred records service self rid kind = .ok row) :
    referred other service self rid kind = .ok row := by
  have found := (same (referred_approved done).2).mp (referred_approved done).1
  simp only [referred, bind_ok, requireRow_ok] at done ⊢
  obtain ⟨row', found', checks⟩ := done
  refine ⟨row', ?_, checks⟩
  simp only [reject_ok, pure_ok] at checks
  obtain ⟨_, _, _, _, _, _, rfl⟩ := checks
  exact found

theorem worldRef_approved (done : worldRef records rid kind = .ok row) : records.get? rid = some row ∧ row.status = .approved := by
  simp only [worldRef, bind_ok, requireRow_ok, reject_ok, pure_ok, Bool.or_eq_false_iff, decide_eq_false_iff_not, not_not] at done
  obtain ⟨_, found, _, ⟨approved, _⟩, rfl⟩ := done
  exact ⟨found, approved⟩

theorem worldRef_mono (same : SameApproved records other) (done : worldRef records rid kind = .ok row) :
    worldRef other rid kind = .ok row := by
  have found := (same (worldRef_approved done).2).mp (worldRef_approved done).1
  simp only [worldRef, bind_ok, requireRow_ok] at done ⊢
  obtain ⟨row', found', checks⟩ := done
  refine ⟨row', ?_, checks⟩
  simp only [reject_ok, pure_ok] at checks
  obtain ⟨_, _, rfl⟩ := checks
  exact found

def NamesApproved (records : Dict String Record) (refs : Dict String Source) : Prop :=
  ∀ {rid source}, refs.get? rid = some source → ∃ row, records.get? rid = some row ∧ row.status = .approved

theorem namesApproved_empty : NamesApproved records ∅ := fun there => by cases there

theorem NamesApproved.set {refs : Dict String Source} (names : NamesApproved records refs) (found : records.get? rid = some row)
    (approved : row.status = .approved) : NamesApproved records (refs.set rid source) := by
  intro rid' source' there
  rw [Dict.get?_set] at there
  split at there
  · rename_i same
    exact ⟨row, same ▸ found, approved⟩
  · exact names there

/-- One turn of the loop over the dependencies. -/
def refer (outside : Outside) (records : Dict String Record) (service : Service) (self : Option String) (refs : Dict String Source)
    (dependency : String × Kind) : Except Failure (Dict String Source) := do
  let row ← referred records service self dependency.1 dependency.2
  return refs.set dependency.1 (stamp outside row)

theorem semanticSources_eq : semanticSources outside records service self dependencies =
    dependencies.foldlM (refer outside records service self) ∅ := rfl

theorem refer_ok {dependency : String × Kind} (done : refer outside records service self refs dependency = .ok result) :
    ∃ row, referred records service self dependency.1 dependency.2 = .ok row ∧ result = refs.set dependency.1 (stamp outside row) := by
  simp only [refer, bind_ok, pure_ok] at done
  obtain ⟨row, found, rfl⟩ := done
  exact ⟨row, found, rfl⟩

theorem refer_mono (same : SameApproved records other) {dependency : String × Kind}
    (done : refer outside records service self refs dependency = .ok result) :
    refer outside other service self refs dependency = .ok result := by
  obtain ⟨row, found, rfl⟩ := refer_ok done
  simp [refer, referred_mono same found, bind, Except.bind, pure, Except.pure]

theorem semanticSources_mono (same : SameApproved records other) (done : semanticSources outside records service self dependencies = .ok refs) :
    semanticSources outside other service self dependencies = .ok refs := by
  rw [semanticSources_eq] at done ⊢
  generalize (∅ : Dict String Source) = start at done ⊢
  induction dependencies generalizing start with
  | nil => exact done
  | cons dependency rest ih =>
    obtain ⟨next, turned, done⟩ := foldlM_cons_ok.mp done
    exact foldlM_cons_ok.mpr ⟨next, refer_mono same turned, ih next done⟩

theorem semanticSources_ok (done : semanticSources outside records service self dependencies = .ok refs) :
    NamesApproved records refs ∧ ∀ dependency ∈ dependencies, ∃ row, referred records service self dependency.1 dependency.2 = .ok row := by
  rw [semanticSources_eq] at done
  refine foldlM_invariant (motive := fun before refs => NamesApproved records refs ∧
    ∀ dependency ∈ before, ∃ row, referred records service self dependency.1 dependency.2 = .ok row) ?_ ⟨namesApproved_empty, by simp⟩ done
  intro before dependency refs next _ holds turned
  obtain ⟨row, found, rfl⟩ := refer_ok turned
  obtain ⟨there, approved⟩ := referred_approved found
  refine ⟨NamesApproved.set holds.1 there approved, fun earlier member => ?_⟩
  rcases List.mem_append.mp member with old | here
  · exact holds.2 earlier old
  · rw [List.mem_singleton.mp here]
    exact ⟨row, found⟩

theorem predecessor_dependency {data : Data} (named : references data = .ok refs) (follows : predecessor data = some rid) :
    ∃ kind, (rid, kind) ∈ refs.dependencies := by
  cases data with
  | psychology data =>
    cases pure_ok.mp named
    exact ⟨.psychology, by simp_all [dependency, predecessor]⟩
  | relationship data =>
    cases pure_ok.mp named
    exact ⟨.relationship, by simp_all [dependency, predecessor]⟩
  | geography data =>
    simp only [references, bind_ok, pure_ok] at named
    obtain ⟨_, _, rfl⟩ := named
    exact ⟨.geography, by simp_all [dependency, predecessor]⟩
  | history | civilization | ability | abilityUse | characterEvent | characterVisual | sceneVisual | storyConcept | storyRelation
  | knowledgeEvent => cases follows

theorem captureWorld_mono (same : SameApproved records other) (done : captureWorld outside records service self payload = .ok captured) :
    captureWorld outside other service self payload = .ok captured ∧ NamesApproved records captured.semanticSources := by
  simp only [captureWorld, bind_ok] at done ⊢
  obtain ⟨sources, inScope, number, counted, named, referring, entities, present, refs, looped, _, preceded, done⟩ := done
  obtain ⟨names, met⟩ := semanticSources_ok looped
  have preceded' : checkPredecessor other payload.data = .ok () := by
    unfold checkPredecessor at preceded ⊢
    split at preceded
    · rfl
    · rename_i rid follows
      obtain ⟨kind, member⟩ := predecessor_dependency referring follows
      obtain ⟨row, found⟩ := met _ member
      obtain ⟨there, approved⟩ := referred_approved found
      simp only [bind_ok, requireRow_ok] at preceded
      obtain ⟨prior, there', checked⟩ := preceded
      cases there.symm.trans there'
      simp only [bind_ok, requireRow_ok]
      exact ⟨row, (same approved).mp there, checked⟩
  refine ⟨⟨sources, inScope, number, counted, named, referring, entities, present, refs, semanticSources_mono same looped, _, preceded', done⟩, ?_⟩
  cases pure_ok.mp done
  exact names

theorem recordNode_mono (same : SameApproved records other) (names : NamesApproved records gathered.semantic)
    (done : recordNode outside records rid kind gathered = .ok result) :
    recordNode outside other rid kind gathered = .ok result ∧ NamesApproved records result.semantic := by
  simp only [recordNode, bind_ok, pure_ok] at done ⊢
  obtain ⟨row, found, rfl⟩ := done
  obtain ⟨there, approved⟩ := worldRef_approved found
  exact ⟨⟨row, worldRef_mono same found, rfl⟩, names.set there approved⟩

theorem conceptNode_mono (same : SameApproved records other) (names : NamesApproved records gathered.semantic)
    (done : conceptNode outside records rid conceptType gathered = .ok result) :
    conceptNode outside other rid conceptType gathered = .ok result ∧ NamesApproved records result.semantic := by
  simp only [conceptNode, bind_ok] at done ⊢
  obtain ⟨row, found, checks⟩ := done
  obtain ⟨there, approved⟩ := worldRef_approved found
  refine ⟨⟨row, worldRef_mono same found, checks⟩, ?_⟩
  split at checks
  · simp only [bind_ok, pure_ok] at checks
    obtain ⟨_, _, rfl⟩ := checks
    exact names.set there approved
  · cases checks

theorem node_mono (same : SameApproved records other) (names : NamesApproved records gathered.semantic)
    (done : node outside records ref gathered = .ok result) :
    node outside other ref gathered = .ok result ∧ NamesApproved records result.semantic := by
  unfold node at done ⊢
  split at done
  · cases done
    exact ⟨rfl, names⟩
  · cases done
    exact ⟨rfl, names⟩
  · refine ⟨done, ?_⟩
    simp only [bind_ok, pure_ok] at done
    obtain ⟨_, _, _, _, rfl⟩ := done
    exact names
  · refine ⟨done, ?_⟩
    simp only [bind_ok, pure_ok] at done
    obtain ⟨_, _, rfl⟩ := done
    exact names
  · exact recordNode_mono same names done
  · exact recordNode_mono same names done
  · exact recordNode_mono same names done
  · exact conceptNode_mono same names done

theorem relationRef_mono (same : SameApproved records other) (names : NamesApproved records gathered.semantic)
    (done : relationRef outside records data gathered = .ok result) :
    relationRef outside other data gathered = .ok result ∧ NamesApproved records result.semantic := by
  unfold relationRef at done ⊢
  split at done
  · cases done
    exact ⟨rfl, names⟩
  · simp only [bind_ok, pure_ok] at done ⊢
    obtain ⟨row, found, _, allowed, rfl⟩ := done
    obtain ⟨there, approved⟩ := worldRef_approved found
    exact ⟨⟨row, worldRef_mono same found, _, allowed, rfl⟩, names.set there approved⟩

theorem psychologyRef_mono (same : SameApproved records other) (names : NamesApproved records gathered.semantic)
    (done : psychologyRef outside records data gathered = .ok result) :
    psychologyRef outside other data gathered = .ok result ∧ NamesApproved records result.semantic := by
  unfold psychologyRef at done ⊢
  split at done
  · cases done
    exact ⟨rfl, names⟩
  · simp only [bind_ok, pure_ok] at done ⊢
    obtain ⟨row, found, _, allowed, rfl⟩ := done
    obtain ⟨there, approved⟩ := worldRef_approved found
    exact ⟨⟨row, worldRef_mono same found, _, allowed, rfl⟩, names.set there approved⟩

theorem gather_mono (same : SameApproved records other) (names : NamesApproved records gathered.semantic)
    (done : gather outside records data gathered = .ok result) :
    gather outside other data gathered = .ok result ∧ NamesApproved records result.semantic := by
  unfold gather at done ⊢
  split at done
  · rename_i relation
    simp only [bind_ok] at done ⊢
    obtain ⟨first, subject, second, object, observed⟩ := done
    obtain ⟨subject', names⟩ := node_mono same names subject
    obtain ⟨object', names⟩ := node_mono same names object
    refine ⟨⟨first, subject', second, object', observed⟩, ?_⟩
    split at observed <;>
      · cases observed
        exact names
  · simp only [bind_ok] at done ⊢
    obtain ⟨first, related, felt⟩ := done
    obtain ⟨related', names⟩ := relationRef_mono same (by exact names) related
    obtain ⟨felt', names⟩ := psychologyRef_mono same names felt
    exact ⟨⟨first, related', felt'⟩, names⟩
  · cases done
    exact ⟨rfl, names⟩

theorem captureGraph_mono (same : SameApproved records other) (done : captureGraph outside records payload data = .ok captured) :
    captureGraph outside other payload data = .ok captured ∧ NamesApproved records captured.semanticSources := by
  simp only [captureGraph, bind_ok] at done ⊢
  obtain ⟨cid, chapter, sources, inScope, start, counted, stop, ends, _, quoted, scene, bounded, gathered, gathering, entities, present, done⟩ := done
  obtain ⟨gathering', names⟩ := gather_mono same namesApproved_empty gathering
  refine ⟨⟨cid, chapter, sources, inScope, start, counted, stop, ends, _, quoted, scene, bounded, gathered, gathering', entities, present, done⟩, ?_⟩
  cases pure_ok.mp done
  exact names

theorem capture_mono (same : SameApproved records other) (done : capture outside records service self payload = .ok captured) :
    capture outside other service self payload = .ok captured ∧ NamesApproved records captured.semanticSources := by
  unfold capture at done ⊢
  split at done
  · exact captureGraph_mono same done
  · exact captureWorld_mono same done

variable {row : Record}

theorem assertFreshBelow_mono (same : SameApproved records other)
    (done : assertFreshBelow outside records service remaining seen row = .ok ()) :
    assertFreshBelow outside other service remaining seen row = .ok () := by
  induction remaining generalizing seen row with
  | zero => cases done
  | succ remaining ih =>
    simp only [assertFreshBelow, bind_ok, mapError_ok] at done ⊢
    obtain ⟨_, open', _, acyclic, _, sourced, captured, capturing, _, kept, chained⟩ := done
    obtain ⟨capturing', names⟩ := capture_mono same capturing
    refine ⟨_, open', _, acyclic, _, sourced, captured, capturing', _, kept, forM_mono (fun rid member followed => ?_) chained⟩
    obtain ⟨source, there⟩ := Dict.mem_keys_iff.mp member
    simp only [reject_ok, unchanged, Bool.not_eq_false', Bool.and_eq_true] at kept
    rw [← Dict.agrees_iff.mp kept.1.2 rid] at there
    obtain ⟨next, found, approved⟩ := names there
    simp only [bind_ok, requireRow_ok] at followed ⊢
    obtain ⟨next', found', fresh⟩ := followed
    cases found.symm.trans found'
    exact ⟨next, (same approved).mp found, ih fresh⟩

theorem isFresh_congr (same : SameApproved records other) (row : Record) : isFresh outside records row = isFresh outside other row := by
  have one : ∀ {records other : Dict String Record}, SameApproved records other → isFresh outside records row = true →
      isFresh outside other row = true := by
    intro records other same fresh
    have done := assertFreshBelow_mono same (fresh_of_isFresh fresh)
    simp only [isFresh, assertFresh, done, endsWith]
  exact Bool.eq_iff_iff.mpr ⟨one same, one same.symm⟩

theorem current_congr (same : SameApproved records other) (row : Record) :
    current outside records query point row = current outside other query point row := by
  simp only [current, isFresh_congr same row]

/-- All that a projection reads of an event that is not shown. -/
structure Tombstone where
  characterId : String
  key : Key
  place : Place
  chapter : Nat
  scene : Option ScenePlace
  inScene : Bool
  calendar : String
  worldTime : Option Int
  validFrom : Option Int
  ends : Bool

def KnowledgeEvent.tombstone (event : KnowledgeEvent) : Tombstone :=
  ⟨event.data.characterId, event.key, event.place, event.row.content.effectiveChapter, event.row.scene, (named event.data.sceneId).isSome,
    event.data.calendar, event.data.worldTime, event.data.validFrom, event.data.validTo.isSome⟩

/-- The place that a once approved knowledge event keeps. -/
def Record.tombstone (row : Record) : Option Tombstone := if row.everApproved then (eventOf row).map KnowledgeEvent.tombstone else none

/-- Whether a tombstone stands before the point asked for, whatever the scene. -/
def Tombstone.considered (query : Query) (point : Point) (tombstone : Tombstone) : Bool :=
  tombstone.characterId = query.characterId && tombstone.chapter ≤ point.number &&
    match query.worldTime with
    | none => true
    | some time =>
      tombstone.calendar = query.calendar && (tombstone.worldTime.isSome || tombstone.validFrom.isSome || tombstone.ends) &&
        tombstone.worldTime.all (· ≤ time) && tombstone.validFrom.all (· ≤ time)

/-- Whether the narrative has reached a tombstone. -/
def Tombstone.reached (point : Point) (tombstone : Tombstone) : Bool :=
  tombstone.chapter ≤ point.number &&
    match point.scene with
    | none => true
    | some scene =>
      tombstone.chapter < point.number ||
        tombstone.inScene && tombstone.scene.any fun place => place.parentId = scene.place.parentId && place.position ≤ scene.place.position

def Tombstone.uncertain (point : Point) (tombstone : Tombstone) : Bool :=
  point.scene.any fun scene =>
    tombstone.chapter = point.number && (!tombstone.inScene || tombstone.scene.bind ScenePlace.parentId ≠ scene.place.parentId)

variable {event : KnowledgeEvent}

theorem eventOf_data (made : eventOf row = some event) :
    event.row = row ∧ row.data = .knowledgeEvent event.data := by
  obtain ⟨data, knowledge, rfl⟩ := Option.map_eq_some_iff.mp made
  unfold Data.knowledge at knowledge
  split at knowledge
  · rename_i same
    cases knowledge
    exact ⟨rfl, same⟩
  · cases knowledge

theorem narrativeReached_eq (made : eventOf row = some event) :
    narrativeReached point event.row = event.tombstone.reached point := by
  obtain ⟨rfl, data⟩ := eventOf_data made
  simp only [narrativeReached, Tombstone.reached, KnowledgeEvent.tombstone, data, Data.temporal, Option.bind_some]
  cases point.scene <;> rfl

theorem considered_eq (made : eventOf row = some event) :
    event.considered query point = (row.everApproved && event.tombstone.considered query point) := by
  obtain ⟨rfl, _⟩ := eventOf_data made
  simp only [KnowledgeEvent.considered, Tombstone.considered, KnowledgeEvent.tombstone, begun]
  cases event.row.everApproved with
  | false => simp
  | true => cases query.worldTime <;> simp <;> rfl

/-- The write that a record makes under its key, with its place. -/
def turnOf (query : Query) (point : Point) (active : Dict String Record) (row : Record) : Option (Place × Key × Option KnowledgeEvent) :=
  (eventOf row).bind fun event => if event.reached query point then some (event.place, event.key, event.shown active) else none

def uncertainKey (query : Query) (point : Point) (row : Record) : Option Key :=
  (eventOf row).bind fun event => if event.uncertain query point then some event.key else none

variable {active : Dict String Record}

theorem turnOf_tombstone (idle : row.id ∉ active.keys) : turnOf query point active row =
    row.tombstone.bind fun tombstone =>
      if tombstone.considered query point && tombstone.reached point then some (tombstone.place, tombstone.key, none) else none := by
  unfold turnOf Record.tombstone
  cases made : eventOf row with
  | none => simp
  | some event =>
    have hidden : event.shown active = none := by
      rw [KnowledgeEvent.shown, (eventOf_data made).1, if_pos (.inl idle)]
    simp only [Option.bind_some, KnowledgeEvent.reached, considered_eq made, narrativeReached_eq made, hidden]
    cases row.everApproved <;> simp [KnowledgeEvent.tombstone]

theorem uncertainKey_tombstone (row : Record) : uncertainKey query point row =
    row.tombstone.bind fun tombstone =>
      if tombstone.considered query point && !tombstone.reached point && tombstone.uncertain point then some tombstone.key else none := by
  unfold uncertainKey Record.tombstone
  cases made : eventOf row with
  | none => simp
  | some event =>
    have apart : event.uncertain query point =
        (event.considered query point && !narrativeReached point event.row && event.tombstone.uncertain point) := by
      simp only [KnowledgeEvent.uncertain, Tombstone.uncertain, KnowledgeEvent.tombstone]
      cases named event.data.sceneId <;> rfl
    simp only [Option.bind_some, apart, considered_eq made, narrativeReached_eq made]
    cases row.everApproved <;> simp [KnowledgeEvent.tombstone]

/-- The turns of the events, sorted by their places. -/
def turns (records : Dict String Record) (query : Query) (point : Point) (active : Dict String Record) :
    List (Place × Key × Option KnowledgeEvent) :=
  (records.entries.filterMap fun entry => turnOf query point active entry.2).insertionSort fun left right => left.1 ≤ right.1

theorem filterMap_values {β : Type} (read : Record → Option β) :
    records.values.filterMap read = records.entries.filterMap fun entry => read entry.2 := by
  rw [Dict.values, List.filterMap_map]
  rfl

theorem turns_eq :
    (events records query point).map (fun event => (event.place, event.key, event.shown active)) = turns records query point active := by
  rw [events, List.map_insertionSort _ (fun left right : Place × Key × Option KnowledgeEvent => left.1 ≤ right.1) _ _ fun _ _ _ _ => Iff.rfl,
    turns]
  congr 1
  rw [allEvents, List.filter_filterMap, List.map_filterMap, filterMap_values]
  apply List.filterMap_congr
  intro entry _
  unfold turnOf
  cases eventOf entry.2 with
  | none => rfl
  | some event => cases reached : event.reached query point <;> simp [Option.filter, reached]

theorem uncertain_eq : (uncertainEvents records query point).map KnowledgeEvent.key =
    records.entries.filterMap fun entry => uncertainKey query point entry.2 := by
  rw [uncertainEvents, allEvents, List.filter_filterMap, List.map_filterMap, filterMap_values]
  apply List.filterMap_congr
  intro entry _
  unfold uncertainKey
  cases eventOf entry.2 with
  | none => rfl
  | some event => cases apart : event.uncertain query point <;> simp [Option.filter, apart]

theorem shownEvents_turns : shownEvents records query point active =
    (records.entries.filterMap fun entry => uncertainKey query point entry.2).foldl (fun shown key => shown.erase key)
      ((turns records query point active).foldl (fun shown turn => shown.write turn.2.1 turn.2.2) ∅) := by
  rw [← uncertain_eq, ← turns_eq, List.foldl_map, List.foldl_map]
  rfl

/-- A record takes the place of another with the same tombstone, or is new and has none; neither is approved. -/
structure Unseen (records : Dict String Record) (rid : String) (changed : Record) : Prop where
  id : changed.id = rid
  candidate : changed.status ≠ .approved
  replaced : ∀ {row}, records.get? rid = some row → row.id = rid ∧ row.status ≠ .approved ∧ changed.tombstone = row.tombstone
  added : records.get? rid = none → changed.tombstone = none

theorem Unseen.activeRecords (unseen : Unseen records rid changed) :
    activeRecords outside (records.set rid changed) query point = activeRecords outside records query point := by
  have same : SameApproved records (records.set rid changed) := sameApproved_set (fun found => (unseen.replaced found).2.1) unseen.candidate
  have idle : ∀ {row : Record}, row.status ≠ .approved → (row.kind.graph && current outside records query point row) = false := by
    intro row candidate
    simp [current, candidate]
  unfold World.activeRecords
  simp only [← current_congr same]
  exact Dict.filterValues_set _ (idle unseen.candidate) fun found => idle (unseen.replaced found).2.1

theorem Unseen.shownEvents (unseen : Unseen records rid changed) :
    shownEvents (records.set rid changed) query point (World.activeRecords outside records query point) =
      shownEvents records query point (World.activeRecords outside records query point) := by
  have idle : ∀ {row : Record}, row.id = rid → row.id ∉ (World.activeRecords outside records query point).keys := by
    intro row named member
    obtain ⟨found, there, _, holds⟩ := mem_activeRecords.mp member
    rw [named] at there
    simp [current, (unseen.replaced there).2.1] at holds
  have turned : ∀ {row : Record}, row.id = rid → row.tombstone = changed.tombstone →
      turnOf query point (World.activeRecords outside records query point) changed =
        turnOf query point (World.activeRecords outside records query point) row := by
    intro row named kept
    rw [turnOf_tombstone (idle named), turnOf_tombstone (idle unseen.id), kept]
  rw [shownEvents_turns, shownEvents_turns, turns, turns, Dict.filterMap_set, Dict.filterMap_set]
  · intro row found
    rw [uncertainKey_tombstone, uncertainKey_tombstone, (unseen.replaced found).2.2]
  · intro absent
    rw [uncertainKey_tombstone, unseen.added absent, Option.bind_none]
  · intro row found
    exact turned (unseen.replaced found).1 (unseen.replaced found).2.2.symm
  · intro absent
    rw [turnOf_tombstone (idle unseen.id), unseen.added absent, Option.bind_none]

theorem Unseen.projection (unseen : Unseen records rid changed)
    (room : rid ∉ records.keys → records.entries.length < MAX_RECORDS) :
    projection outside (records.set rid changed) query = World.projection outside records query := by
  have bounded : discard (rows outside (records.set rid changed)) = discard (rows outside records) := by
    have length := Dict.length_set records rid changed
    have same : (MAX_RECORDS < (records.set rid changed).entries.length) = (MAX_RECORDS < records.entries.length) := by
      split at length
      · rw [length, Nat.add_zero]
      · rename_i absent
        have := room absent
        exact propext ⟨fun _ => by omega, fun _ => by omega⟩
    unfold rows
    simp only [same]
    cases outside.novel with
    | error failure => rfl
    | ok =>
      cases full : reject (MAX_RECORDS < records.entries.length) (Failure.value "graph exceeds bounded query capacity") <;> rfl
  unfold World.projection
  rw [bounded]
  simp only [unseen.activeRecords, unseen.shownEvents]

theorem projection_unbounded (beyond : MAX_RECORDS < records.entries.length) : ∃ failure, projection outside records query = .error failure := by
  cases done : projection outside records query with
  | error failure => exact ⟨failure, rfl⟩
  | ok projected =>
    simp only [projection, bind_ok, discard_ok, rows, reject_ok] at done
    obtain ⟨_, _, _, _, _, ⟨_, _, _, _, bounded, _⟩, _⟩ := done
    simp [beyond] at bounded

theorem everApproved_edited (candidate : row.status ≠ .approved) (payload : Payload) (captured : Capture) :
    (row.edited payload captured).everApproved = row.everApproved := by
  simp [Record.everApproved, Record.edited, Record.change, candidate]

theorem tombstone_none (never : row.everApproved = false) : row.tombstone = none := by
  simp [Record.tombstone, never]

theorem tombstone_kind (other : row.kind ≠ .knowledgeEvent) : row.tombstone = none := by
  have none : eventOf row = Option.none := by
    rw [eventOf, Option.map_eq_none_iff]
    unfold Data.knowledge
    split
    · rename_i data same
      exact (other (by rw [Record.kind, same]; rfl)).elim
    · rfl
  simp [Record.tombstone, none]

theorem tombstone_reviewed (candidate : row.status ≠ .approved) (other : action ≠ .approve) :
    (row.reviewed action).tombstone = row.tombstone := by
  have status : (row.reviewed action).status ≠ .approved := by
    cases action <;> simp_all [Record.reviewed, Record.change, Action.target]
  have ever : (row.reviewed action).everApproved = row.everApproved := by
    have same : (row.reviewed action).everApproved = (decide ((row.reviewed action).status = .approved) ||
        (row.history ++ [row.toSnapshot]).any (·.status = .approved)) := rfl
    rw [same, Record.everApproved]
    simp [status, candidate]
  have place : (eventOf (row.reviewed action)).map KnowledgeEvent.tombstone = (eventOf row).map KnowledgeEvent.tombstone := by
    simp only [eventOf, Option.map_map]
    rfl
  rw [Record.tombstone, Record.tombstone, ever, place]

/-- Calls on candidates: a creation, an edit that leaves an event that was approved before in its
place, a rejection and a reopening. -/
def Quiet (store after : Store) : Call → Prop
  | .create .. | .draft .. => True
  | .edit _ rid _ _ => ∀ {row changed}, store.records.get? rid = some row → after.records.get? rid = some changed →
      row.everApproved = false ∨ row.kind ≠ .knowledgeEvent ∨ changed.tombstone = row.tombstone
  | .review _ _ action _ _ => action = .reject ∨ action = .reopen

theorem unseen_created {records : Dict String Record} (unused : rid ∉ records.keys) (id : changed.id = rid)
    (candidate : changed.status ≠ .approved) (none : changed.tombstone = none) : Unseen records rid changed where
  id := id
  candidate := candidate
  replaced found := (unused (Dict.mem_keys_iff.mpr ⟨_, found⟩)).elim
  added _ := none

theorem unseen_changed (mirrored : Mirrored store) (found : store.records.get? rid = some row)
    (candidate : row.status ≠ .approved) (id : changed.id = row.id) (changedStatus : changed.status ≠ .approved)
    (kept : changed.tombstone = row.tombstone) : Unseen store.records rid changed where
  id := id.trans (mirrored.ids found)
  candidate := changedStatus
  replaced there := by
    cases found.symm.trans there
    exact ⟨mirrored.ids found, candidate, kept⟩
  added absent := by cases absent.symm.trans found

theorem edited_tombstone (candidate : row.status ≠ .approved) (kind : row.kind = payload.data.kind)
    (quiet : row.everApproved = false ∨ row.kind ≠ .knowledgeEvent ∨ (row.edited payload captured).tombstone = row.tombstone) :
    (row.edited payload captured).tombstone = row.tombstone := by
  rcases quiet with never | other | kept
  · rw [tombstone_none never, tombstone_none ((everApproved_edited candidate payload captured).trans never)]
  · have edited : (row.edited payload captured).kind ≠ .knowledgeEvent := fun same => other (kind.trans same)
    rw [tombstone_kind other, tombstone_kind edited]
  · exact kept

theorem unseen_of_quiet (mirrored : Mirrored store) (unused : call.Unused store) (effect : Effect outside store call next)
    (quiet : Quiet store next call) : ∃ rid changed, next.records = store.records.set rid changed ∧ Unseen store.records rid changed := by
  cases effect with
  | create => exact ⟨_, _, rfl, unseen_created unused rfl (by rintro ⟨⟩) (tombstone_none rfl)⟩
  | draft => exact ⟨_, _, rfl, unseen_created unused rfl (by rintro ⟨⟩) (tombstone_none rfl)⟩
  | edit checked found kind candidate capturing =>
    refine ⟨_, _, rfl, unseen_changed mirrored found candidate rfl (by rintro ⟨⟩) (edited_tombstone candidate kind ?_)⟩
    exact quiet found (Dict.get?_set_self ..)
  | promote => rcases quiet with other | other <;> cases other
  | @demote rid row action after service fresh found status kept done =>
    have candidate : row.status ≠ .approved := by
      intro approved
      rcases quiet with rfl | rfl <;> simp [Action.source, approved] at status
    have changed : (row.reviewed action).status ≠ .approved := by rcases quiet with rfl | rfl <;> rintro ⟨⟩
    have other : action ≠ .approve := by rcases quiet with rfl | rfl <;> rintro ⟨⟩
    have kept := tombstone_reviewed candidate other
    exact ⟨rid, _, demote_records done, unseen_changed mirrored found candidate rfl changed kept⟩

/-- After any calls of both services, what a projection shows under a key is the latest event
reached for it, which still holds; and no call on a candidate changes a projection, unless it
takes the records beyond the bound within which there are projections. -/
theorem knowledge_projected (run : Run Step Store.empty calls store) :
    (∀ outside query projected, projection outside store.records query = .ok projected →
      ∃ number, outside.sequence query.chapterId = .ok number ∧
        ∀ {key event}, projected.shown.get? key = some event → event.key = key ∧
          Latest store.records query ⟨number, projected.scene⟩ event ∧ Holds outside store.records query ⟨number, projected.scene⟩ event) ∧
      ∀ outside guards call, call.Unused store → Quiet store (transact outside call guards store).1 call →
        ∀ reader query, projection reader (transact outside call guards store).1.records query = projection reader store.records query ∨
          MAX_RECORDS < (transact outside call guards store).1.records.entries.length ∧
            ∃ failure, projection reader (transact outside call guards store).1.records query = .error failure := by
  have mirrored := run_mirrored run
  refine ⟨fun outside query projected done => ?_, fun outside guards call unused quiet reader query => ?_⟩
  · simp only [projection, bind_ok, pure_ok] at done
    obtain ⟨_, _, number, counted, _, _, scene, _, rfl⟩ := done
    exact ⟨number, counted, fun found => shown_latest mirrored (run_checked run) found⟩
  · rcases transact_cases outside guards call store with ⟨_, done⟩ | ⟨next, done, effect⟩
    · rw [done]
      exact .inl rfl
    · rw [done] at quiet ⊢
      obtain ⟨rid, changed, records, unseen⟩ := unseen_of_quiet mirrored unused effect quiet
      rw [records]
      by_cases room : rid ∉ store.records.keys → store.records.entries.length < MAX_RECORDS
      · exact .inl (unseen.projection room)
      · obtain ⟨absent, full⟩ := Classical.not_imp.mp room
        have beyond : MAX_RECORDS < (store.records.set rid changed).entries.length := by
          rw [Dict.length_set, if_neg absent]
          omega
        exact .inr ⟨beyond, projection_unbounded beyond⟩

def sampleEvent (operation : Operation) (characterId : String) (eventOrder : Nat) (worldTime : Option Int) : Payload :=
  ⟨"Anna and Ben", some "c1", eventOrder,
    .knowledgeEvent ⟨untimed worldTime, characterId, operation, .knownFact, some "r", none, "", "current", .explicit⟩⟩

/-- A relation is approved, an event by which the character learns of it, and one by which she forgets it. -/
def learnedAndForgotten (worldTime : Option Int) : List Call :=
  sampleCalls ++ [.create .storyGraph "learned" "t" (sampleEvent .learn "anna" 0 (some 1)), .review .storyGraph "learned" .approve 1 "e1",
    .create .storyGraph "forgot" "t" (sampleEvent .forget "anna" 1 worldTime), .review .storyGraph "forgot" .approve 1 "e2"]

def sampleQuery : Query := ⟨"anna", "c1", some 5, "story", none⟩

def samplePoint : Point := ⟨1, none⟩

/-- The event that a projection shows of the relation. -/
def shownOf (projected : Projection) : Option KnowledgeEvent := projected.shown.get? (.knowledge (some "r"))

/-- The projection of what is learned before it is forgotten at a time that is not yet there. -/
theorem knowledge_projected_sample : ∃ (store : Store) (projected : Projection) (number : Nat), projection sampleOutside store.records sampleQuery = .ok projected ∧
    (shownOf projected).isSome = true ∧ ∀ {key event}, projected.shown.get? key = some event → event.key = key ∧
      Latest store.records sampleQuery ⟨number, projected.scene⟩ event ∧
        Holds sampleOutside store.records sampleQuery ⟨number, projected.scene⟩ event := by
  have ends : (afterCalls (learnedAndForgotten (some 9))).any (fun reached =>
      endsWith (fun projected => (shownOf projected).isSome) (projection sampleOutside reached.2.records sampleQuery)) = true := by
    decide +kernel
  obtain ⟨⟨calls, store⟩, executed, shown⟩ := Option.any_eq_true _ _ |>.mp ends
  obtain ⟨projected, done, some⟩ := ok_of_endsWith _ _ shown
  obtain ⟨number, _, latest⟩ := (knowledge_projected (run_of_attempts _ executed)).1 sampleOutside sampleQuery projected done
  exact ⟨store, projected, number, done, some, latest⟩

/-- A later event that forgets, reached in the narrative and approved, but of unknown time. -/
def forgets (store : Store) (shown : KnowledgeEvent) (later : KnowledgeEvent) : Prop :=
  store.records.get? later.row.id = some later.row ∧ later.row.status = .approved ∧ narrativeReached samplePoint later.row = true ∧
    later.key = shown.key ∧ shown.place < later.place ∧ later.data.operation = .forget

/-- The edit of an archived event, to be about another character. -/
def misdirect : Call := .edit .storyGraph "forgot" 3 (sampleEvent .forget "ben" 1 (some 2))

/-- Whether a projection shows something of the relation. -/
def remembers (store : Store) : Bool :=
  endsWith (fun projected => (shownOf projected).isSome) (projection sampleOutside store.records sampleQuery)

/-- Knowledge is shown although the latest event that the narrative has reached forgets it, at a
time that is not known; and the edit of an archived event that forgot it brings it back. -/
theorem shown_though_forgotten :
    (∃ calls store projected shown later, Run Step Store.empty calls store ∧
      projection sampleOutside store.records sampleQuery = .ok projected ∧ shownOf projected = some shown ∧ forgets store shown later) ∧
      ∃ calls store, Run Step Store.empty calls store ∧ (store.records.get? "forgot").any (fun row => row.status = .archived) = true ∧
        remembers store = false ∧ remembers (transact sampleOutside misdirect openGuards store).1 = true := by
  constructor
  · have ends : (afterCalls (learnedAndForgotten none)).any (fun reached =>
        endsWith (fun projected => (shownOf projected).any fun shown => ((reached.2.records.get? "forgot").bind eventOf).any fun later =>
          later.row.id = "forgot" && later.row.status = .approved && narrativeReached samplePoint later.row && later.key = shown.key &&
            shown.place < later.place && later.data.operation = .forget) (projection sampleOutside reached.2.records sampleQuery)) = true := by
      decide +kernel
    obtain ⟨⟨calls, store⟩, executed, tests⟩ := Option.any_eq_true _ _ |>.mp ends
    obtain ⟨projected, done, tests⟩ := ok_of_endsWith _ _ tests
    obtain ⟨shown, some, tests⟩ := Option.any_eq_true _ _ |>.mp tests
    obtain ⟨later, found, tests⟩ := Option.any_eq_true _ _ |>.mp tests
    obtain ⟨row, there, made⟩ := Option.bind_eq_some_iff.mp found
    simp only [Bool.and_eq_true, decide_eq_true_eq] at tests
    obtain ⟨⟨⟨⟨⟨id, approved⟩, reached⟩, same⟩, after⟩, forget⟩ := tests
    refine ⟨calls, store, projected, shown, later, run_of_attempts _ executed, done, some, ?_, approved, reached, same, after, forget⟩
    rw [id, (eventOf_data made).1]
    exact there
  · have ends : (afterCalls (learnedAndForgotten (some 2) ++ [.review .storyGraph "forgot" .archive 2 "e3"])).any (fun reached =>
        (reached.2.records.get? "forgot").any (fun row => row.status = .archived) && !remembers reached.2 &&
          remembers (transact sampleOutside misdirect openGuards reached.2).1) = true := by
      decide +kernel
    obtain ⟨⟨calls, store⟩, executed, tests⟩ := Option.any_eq_true _ _ |>.mp ends
    simp only [Bool.and_eq_true, Bool.not_eq_true'] at tests
    exact ⟨calls, store, run_of_attempts _ executed, tests.1.1, tests.1.2, tests.2⟩

end NovelStudio.World
