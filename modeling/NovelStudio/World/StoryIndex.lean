import NovelStudio.Library.Reaching
import NovelStudio.Library.Readings
import NovelStudio.World.Locality

/-! The index of the story graph (`story_graph.py`: `impact`, `_refresh_index`), which follows every change of a record. -/

namespace NovelStudio.World

open Library Experimental

inductive IndexStatus where
  | current | invalid
  deriving DecidableEq

/-- A row of the index; `version` is its own. -/
structure IndexEntry where
  version : Nat
  sourceRecordId : String
  sourceVersion : Nat
  stale : Bool
  status : IndexStatus
  dependencyIds : List String
  deriving DecidableEq

structure ImpactItem where
  id : String
  kind : Kind
  version : Nat
  stale : Bool
  deriving DecidableEq

section Definitions

variable (outside : Outside) (records : Dict String Record)

/-- `set(row.get('semantic_sources', {})) & {other}`. -/
def refersTo (rid other : String) : Bool := (records.get? rid).any fun row => other ∈ row.content.semanticSources.keys

/-- The `stale` that `_decorate` gives a row. -/
def stale (row : Record) : Bool := !isFresh outside records row

def impactItem (key : String) : Except Failure ImpactItem := do
  let row ← requireRow records key
  return ⟨key, row.kind, row.version, stale outside records row⟩

/-- `impact`; the loop over the frontiers is `spread`. -/
def impact (rid : String) : Except Failure (List ImpactItem) := do
  discard (rows outside records)
  discard (requireRow records rid)
  ((spread records.keys (refersTo records) rid).insertionSort (· ≤ ·)).mapM (impactItem outside records)

/-- The data of the index row of a record. -/
def indexEntry (version : Nat) (key : String) (source : Record) : IndexEntry where
  version := version
  sourceRecordId := key
  sourceVersion := source.version
  stale := stale outside records source
  status := if source.status ≠ .approved || stale outside records source then .invalid else .current
  dependencyIds := source.content.semanticSources.keys.insertionSort (· ≤ ·)

/-- One turn of the loop of `_refresh_index`: a row is new or gets its next version. -/
def refreshEntry (index : Dict String IndexEntry) (key : String) : Except Failure (Dict String IndexEntry) := do
  let source ← requireRow records key
  return index.set key (indexEntry outside records (((index.get? key).map IndexEntry.version).getD 0 + 1) key source)

def refreshIndex (rid : String) (index : Dict String IndexEntry) : Except Failure (Dict String IndexEntry) := do
  let affected ← impact outside records rid
  (rid :: affected.map ImpactItem.id).foldlM (refreshEntry outside records) index

end Definitions

/-- The calls of `StoryGraphService` that change a record. -/
inductive StoryCall where
  | create (rid stamp : String) (payload : Payload)
  | edit (rid : String) (expected : Nat) (payload : Payload)
  | review (rid : String) (action : Action) (expected : Nat) (fresh : String)

def StoryCall.call : StoryCall → Call
  | .create rid stamp payload => .create .storyGraph rid stamp payload
  | .edit rid expected payload => .edit .storyGraph rid expected payload
  | .review rid action expected fresh => .review .storyGraph rid action expected fresh

def StoryCall.recordId : StoryCall → String
  | .create rid _ _ | .edit rid _ _ | .review rid _ _ _ => rid

/-- The records and the canon with the index. -/
structure Indexed where
  store : Store
  index : Dict String IndexEntry

/-- A call with the refresh of the index, behind which nothing more is changed. -/
def performIndexed (outside : Outside) (call : StoryCall) (guards : Guards) (indexed : Indexed) : Except Failure Indexed := do
  let store ← perform outside call.call guards indexed.store
  let index ← refreshIndex outside store.records call.recordId indexed.index
  return ⟨store, index⟩

def transactIndexed (outside : Outside) (call : StoryCall) (guards : Guards) (indexed : Indexed) : Indexed :=
  match performIndexed outside call guards indexed with
  | .error _ => indexed
  | .ok next =>
    match guards.commit with
    | .error _ => indexed
    | .ok () => next

/-- A transaction while all that lies outside of the records stays as it is. -/
inductive IndexStep (outside : Outside) : Indexed → StoryCall → Indexed → Prop where
  | transact {indexed : Indexed} {call : StoryCall} (guards : Guards) (unused : call.call.Unused indexed.store) :
      IndexStep outside indexed call (transactIndexed outside call guards indexed)

variable {outside : Outside} {records : Dict String Record} {rid : String}

variable {key : String}

theorem leads_refers {other : String} : Leads records.keys (refersTo records) key other ↔ Refers records key other := by
  unfold Leads refersTo Refers
  rw [Option.any_eq_true]
  constructor
  · intro ⟨_, row, found, named⟩
    exact ⟨row, found, of_decide_eq_true named⟩
  · intro ⟨row, found, named⟩
    exact ⟨Dict.mem_keys_iff.mpr ⟨row, found⟩, row, found, decide_eq_true named⟩

theorem mem_spread_refers : key ∈ spread records.keys (refersTo records) rid ↔
    key ≠ rid ∧ Relation.TransGen (Refers records) key rid := by
  have same : Leads records.keys (refersTo records) = Refers records := by
    funext one other
    exact propext leads_refers
  rw [mem_spread, same]

theorem impact_ids {items : List ImpactItem} (done : impact outside records rid = .ok items) :
    ∀ key, key ∈ items.map ImpactItem.id ↔ key ≠ rid ∧ Relation.TransGen (Refers records) key rid := by
  obtain ⟨_, -, done⟩ := bind_ok.mp done
  obtain ⟨_, -, done⟩ := bind_ok.mp done
  have each := mapM_ok.mp done
  intro key
  rw [← mem_spread_refers, ← List.mem_insertionSort (· ≤ ·) (l := spread records.keys (refersTo records) rid), List.mem_map]
  constructor
  · intro ⟨item, member, same⟩
    obtain ⟨other, listed, made⟩ := exists_of_forall₂ each member
    obtain ⟨row, -, made⟩ := bind_ok.mp made
    rw [← pure_ok.mp made] at same
    exact same ▸ listed
  · intro member
    obtain ⟨item, listed, made⟩ := exists_result_of_forall₂ each member
    obtain ⟨row, -, made⟩ := bind_ok.mp made
    exact ⟨item, listed, by rw [← pure_ok.mp made]⟩

theorem impact_total (bounded : rows outside records = .ok listed) (found : records.get? rid = some row) :
    ∃ items, impact outside records rid = .ok items := by
  have present : ∀ key ∈ (spread records.keys (refersTo records) rid).insertionSort (· ≤ ·), ∃ row, records.get? key = some row := by
    intro key member
    have leading := (mem_spread_refers.mp ((List.mem_insertionSort (· ≤ ·)).mp member)).2
    obtain ⟨first, ⟨row, there, -⟩, -⟩ := Relation.TransGen.head'_iff.mp leading
    exact ⟨row, there⟩
  obtain ⟨items, made⟩ : ∃ items, ((spread records.keys (refersTo records) rid).insertionSort (· ≤ ·)).mapM (impactItem outside records) = .ok items := by
    apply mapM_total
    intro key member
    obtain ⟨row, there⟩ := present key member
    exact ⟨_, bind_ok.mpr ⟨row, requireRow_ok.mpr there, rfl⟩⟩
  refine ⟨items, ?_⟩
  unfold impact
  rw [bounded, requireRow, found]
  exact made

theorem indexEntry_current {version : Nat} {row : Record} : (indexEntry outside records version key row).status = .current ↔
    row.status = .approved ∧ isFresh outside records row = true := by
  show (if _ then IndexStatus.invalid else IndexStatus.current) = _ ↔ _
  split
  · rename_i invalid
    refine ⟨nofun, ?_⟩
    intro ⟨approved, fresh⟩
    simp [approved, stale, fresh] at invalid
  · rename_i valid
    simp only [stale, Bool.or_eq_true, decide_eq_true_eq, Bool.not_eq_true', not_or, not_not, Bool.not_eq_false] at valid
    exact ⟨fun _ => valid, fun _ => rfl⟩

/-- A row of the index that is up to date. -/
def Describes (outside : Outside) (records : Dict String Record) (key : String) (entry : IndexEntry) : Prop :=
  ∃ row, records.get? key = some row ∧ entry = indexEntry outside records entry.version key row

/-- Every row of the index is up to date. -/
def UpToDate (outside : Outside) (indexed : Indexed) : Prop :=
  ∀ key entry, indexed.index.get? key = some entry → Describes outside indexed.store.records key entry

theorem refreshLoop_ok {keys : List String} {index result : Dict String IndexEntry} (done : keys.foldlM (refreshEntry outside records) index = .ok result) :
    ∀ key entry, result.get? key = some entry →
      (key ∈ keys ∧ Describes outside records key entry) ∨ key ∉ keys ∧ index.get? key = some entry := by
  refine foldlM_invariant (motive := fun before (result : Dict String IndexEntry) => ∀ key entry, result.get? key = some entry →
    (key ∈ before ∧ Describes outside records key entry) ∨ key ∉ before ∧ index.get? key = some entry) ?_ ?_ done
  · intro before here result next _ holds turned key entry there
    obtain ⟨source, found, turned⟩ := bind_ok.mp turned
    rw [← pure_ok.mp turned, Dict.get?_set] at there
    split at there
    · rename_i same
      subst same
      cases there
      exact Or.inl ⟨List.mem_append_right _ (List.mem_singleton.mpr rfl), source, requireRow_ok.mp found, rfl⟩
    · rename_i apart
      cases holds key entry there with
      | inl written => exact Or.inl ⟨List.mem_append_left _ written.1, written.2⟩
      | inr kept =>
        refine Or.inr ⟨?_, kept.2⟩
        intro member
        cases List.mem_append.mp member with
        | inl old => exact kept.1 old
        | inr new => exact apart (List.mem_singleton.mp new)
  · exact fun key entry there => Or.inr ⟨List.not_mem_nil, there⟩

variable {call : StoryCall}

theorem storyEffect_records {store next : Store} (effect : Effect outside store call.call next) :
    ∃ changed, next.records = store.records.set call.recordId changed := by
  cases call with
  | create rid stamp payload =>
    cases effect with
    | create => exact ⟨_, rfl⟩
  | edit rid expected payload =>
    cases effect with
    | edit => exact ⟨_, rfl⟩
  | review rid action expected fresh =>
    generalize same : StoryCall.call (.review rid action expected fresh) = call at effect
    cases effect with
    | promote =>
      cases same
      exact ⟨_, rfl⟩
    | demote found status kept done =>
      cases same
      exact ⟨_, demote_records done⟩
    | create => cases same
    | draft => cases same
    | edit => cases same

theorem Describes.kept {changed : Record} {entry : IndexEntry} (describes : Describes outside records key entry) (apart : key ≠ rid)
    (clear : ¬ Relation.TransGen (Refers (records.set rid changed)) key rid) : Describes outside (records.set rid changed) key entry := by
  obtain ⟨row, found, made⟩ := describes
  have there : (records.set rid changed).get? key = some row := by rw [Dict.get?_set_ne _ _ apart, found]
  have same : isFresh outside records row = isFresh outside (records.set rid changed) row := by
    apply Eq.symm
    apply isFresh_local
    intro other behind
    apply Dict.get?_set_ne
    intro (here : other = rid)
    obtain ⟨first, named, path⟩ := behind
    have leading : Relation.TransGen (Refers (records.set rid changed)) key other := Relation.TransGen.head' ⟨row, there, named⟩ path
    exact clear (here ▸ leading)
  refine ⟨row, there, ?_⟩
  rw [made, indexEntry, indexEntry, stale, stale, same]

theorem UpToDate.perform {indexed next : Indexed} {guards : Guards} (before : UpToDate outside indexed)
    (done : performIndexed outside call guards indexed = .ok next) : UpToDate outside next := by
  obtain ⟨store, changed, done⟩ := bind_ok.mp done
  obtain ⟨index, refreshed, done⟩ := bind_ok.mp done
  rw [← pure_ok.mp done]
  obtain ⟨affected, impacted, looped⟩ := bind_ok.mp refreshed
  obtain ⟨record, records⟩ := storyEffect_records (perform_effect changed)
  intro key entry there
  cases refreshLoop_ok looped key entry there with
  | inl written => exact written.2
  | inr kept =>
    have described := before key entry kept.2
    rw [List.mem_cons, not_or, impact_ids impacted key] at kept
    obtain ⟨⟨apart, clear⟩, -⟩ := kept
    show Describes outside store.records key entry
    rw [records] at clear ⊢
    exact described.kept apart fun path => clear ⟨apart, path⟩

theorem UpToDate.step {indexed next : Indexed} (before : UpToDate outside indexed) (step : IndexStep outside indexed call next) :
    UpToDate outside next := by
  cases step with
  | transact guards unused =>
    unfold transactIndexed
    split
    · exact before
    · rename_i result done
      split
      · exact before
      · exact before.perform done

/-- What the index and an impact say of the records. -/
structure IndexExact (outside : Outside) (indexed : Indexed) : Prop where
  /-- A row of the index is current just for an approved and fresh record. -/
  current : ∀ key entry, indexed.index.get? key = some entry → ∃ row, indexed.store.records.get? key = some row ∧
    (entry.status = .current ↔ row.status = .approved ∧ isFresh outside indexed.store.records row = true)
  /-- The impact of a record are just the other records that refer to it, one through the other. -/
  impact : ∀ rid listed row, rows outside indexed.store.records = .ok listed → indexed.store.records.get? rid = some row →
    ∃ items, impact outside indexed.store.records rid = .ok items ∧
      ∀ key, key ∈ items.map ImpactItem.id ↔ key ≠ rid ∧ Relation.TransGen (Refers indexed.store.records) key rid
  /-- Its loop stops by itself, whatever rounds it is given. -/
  stops : ∀ rid more, indexed.store.records.keys.length < more → rounds indexed.store.records.keys (refersTo indexed.store.records) rid more [] [rid] =
    spread indexed.store.records.keys (refersTo indexed.store.records) rid

/-- After any calls through the story graph, over any records and an index without rows, the index and the impacts are exact. -/
theorem index_exact {start : Store} {indexed : Indexed} (run : Run (IndexStep outside) ⟨start, ∅⟩ calls indexed) : IndexExact outside indexed := by
  have upToDate : UpToDate outside indexed := run.invariant (fun key entry there => nomatch there) fun before last => before.step last
  constructor
  · intro key entry there
    obtain ⟨row, found, made⟩ := upToDate key entry there
    refine ⟨row, found, ?_⟩
    rw [made]
    exact indexEntry_current
  · intro rid listed row bounded found
    obtain ⟨items, done⟩ := impact_total bounded found
    exact ⟨items, done, impact_ids done⟩
  · intro rid more further
    exact rounds_stop (Nat.lt_succ_of_le (List.length_filter_le _ _)) further

/-- A call whose ids are not in use. -/
def attemptIndexed (outside : Outside) (indexed : Indexed) (call : StoryCall) : Option (Indexed × StoryCall) :=
  if call.call.Unused indexed.store then some (transactIndexed outside call openGuards indexed, call) else none

theorem run_of_indexed {start last : Indexed} (executed : execute (attemptIndexed outside) start calls = some (labels, last)) :
    Run (IndexStep outside) start labels last :=
  Run.of_execute (fun {state action after label} attempted => by
    unfold attemptIndexed at attempted
    split at attempted
    · rename_i unused
      cases attempted
      exact IndexStep.transact openGuards unused
    · cases attempted) calls executed

def sampleConcept : Payload := ⟨"Ring", some "c1", 0, .storyConcept ⟨untimed none, .object⟩⟩

/-- Someone owns what the concept stands for. -/
def sampleOwner : Payload :=
  ⟨"Owner", some "c1", 0, .storyRelation ⟨untimed none, ⟨.character, "anna"⟩, ⟨.concept .object, "o"⟩, .owns, .worldFact, "Anna owns the ring.", none⟩⟩

def ownedCalls : List StoryCall :=
  [.create "o" "t" sampleConcept, .review "o" .approve 1 "eo", .create "r" "t" sampleOwner, .review "r" .approve 1 "er"]

def statusIn (indexed : Indexed) (key : String) : Option IndexStatus := (indexed.index.get? key).map IndexEntry.status

/-- An approved relation is current in the index, and no longer when its concept is archived. -/
theorem index_exact_sample : ∃ indexed later : Indexed, statusIn indexed "r" = some .current ∧ statusIn later "r" = some .invalid ∧
    IndexExact sampleOutside later := by
  have ends : (execute (attemptIndexed sampleOutside) ⟨Store.empty, ∅⟩ ownedCalls).any (fun reached => statusIn reached.2 "r" = some .current) = true := by
    decide +kernel
  obtain ⟨⟨_, indexed⟩, -, current⟩ := Option.any_eq_true _ _ |>.mp ends
  have archived : (execute (attemptIndexed sampleOutside) ⟨Store.empty, ∅⟩ (ownedCalls ++ [.review "o" .archive 2 "x"])).any
      (fun reached => statusIn reached.2 "r" = some .invalid) = true := by
    decide +kernel
  obtain ⟨⟨_, later⟩, executed, invalid⟩ := Option.any_eq_true _ _ |>.mp archived
  exact ⟨indexed, later, of_decide_eq_true current, of_decide_eq_true invalid, index_exact (run_of_indexed executed)⟩

def sampleStorm (after : List String) : Payload := ⟨"Storm", none, 0, .history ⟨0, none, [], [], after⟩⟩

/-- An event is archived and edited to refer to the one that refers to it. -/
def cyclicCalls : List Call :=
  [.create .world "a" "t" (sampleStorm []), .review .world "a" .approve 1 "ea", .create .world "b" "t" (sampleStorm ["a"]),
    .review .world "b" .approve 1 "eb", .review .world "a" .archive 2 "x", .edit .world "a" 3 (sampleStorm ["b"])]

/-- Where references are cyclic, a record refers to itself through others and is not in its own impact. -/
theorem impact_without_itself : ∃ (start : Store) (before : List Call) (indexed : Indexed) (calls : List StoryCall),
    Run Step Store.empty before start ∧ Run (IndexStep sampleOutside) ⟨start, ∅⟩ calls indexed ∧
      Relation.TransGen (Refers indexed.store.records) "a" "a" ∧
      ∃ items, impact sampleOutside indexed.store.records "a" = .ok items ∧ "a" ∉ items.map ImpactItem.id := by
  have ends : (afterCalls cyclicCalls).any (fun reached =>
      (execute (attemptIndexed sampleOutside) ⟨reached.2, ∅⟩ [.create "o" "t" sampleConcept]).any fun last =>
        refersTo last.2.store.records "a" "b" && refersTo last.2.store.records "b" "a" &&
          endsWith (fun items => "a" ∉ items.map ImpactItem.id) (impact sampleOutside last.2.store.records "a")) = true := by
    decide +kernel
  obtain ⟨⟨before, start⟩, executed, ends⟩ := Option.any_eq_true _ _ |>.mp ends
  obtain ⟨⟨calls, indexed⟩, executed', ends⟩ := Option.any_eq_true _ _ |>.mp ends
  simp only [Bool.and_eq_true] at ends
  obtain ⟨⟨one, two⟩, listed⟩ := ends
  obtain ⟨items, done, apart⟩ := ok_of_endsWith _ _ listed
  have refers : ∀ {key other}, refersTo indexed.store.records key other = true → Refers indexed.store.records key other := by
    intro key other leads
    obtain ⟨row, found, named⟩ := Option.any_eq_true _ _ |>.mp leads
    exact ⟨row, found, of_decide_eq_true named⟩
  exact ⟨start, before, indexed, calls, run_of_attempts cyclicCalls executed, run_of_indexed executed',
    Relation.TransGen.head (refers one) (Relation.TransGen.single (refers two)), items, done, of_decide_eq_true apart⟩

end NovelStudio.World
