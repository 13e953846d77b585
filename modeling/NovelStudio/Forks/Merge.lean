import NovelStudio.Forks.Fields
import NovelStudio.Library.Json

/-! A comparison that can be applied is a three-way merge: what it desires of every
record, which choices it asked for, and that references lead to live records. -/

namespace NovelStudio.Forks

open Library Experimental

/-- How the value of a field comes from its three values and the choice for it. -/
structure FieldMerged (choice : Option Side) (base original fork result : Json) : Prop where
  onlyFork : original.eq base = true → fork.eq base = false → result = fork
  onlyOriginal : original.eq base = false → fork.eq base = true → result = original
  common : original.eq fork = true → fork.eq base = false → result = fork
  chosen : original.eq fork = false → original.eq base = false → fork.eq base = false →
    choice = some .fork ∧ result = fork ∨ choice = some .original ∧ result = original

/-- What a merge desires of a record that is archived or missing on a side. -/
inductive WholeMerged (original fork : Option Record) : Side → Option Record → Prop where
  | original : WholeMerged original fork .original original
  | fork {row result} (there : original = some row)
      (status : value result "status" = if live fork then (fork.bind (·.get? "status")).getD (.str "ACTIVE") else .str "ARCHIVED")
      (fields : ∀ field ∉ metadata, field ≠ "status" → value result field = (fork.bind (·.get? field)).getD (value row field)) :
      WholeMerged original fork .fork (some result)

/-- The three states of a selected record. -/
structure Selected (row : Fork) (original fork : Records) (key : String) (base : Record) (left right : Option Record) : Prop where
  base : row.baseline.get? key = some base
  left : original.get? key = some left
  right : fork.get? key = some right

/-- What is desired of the selected records, under the choices that were made. -/
structure Merged (runtime : Runtime) (choices : Dict String Side) (row : Fork) (original fork desired : Records) : Prop where
  same : desired.keys = row.baseline.keys
  fields : ∀ {key base left right}, Selected row original fork key base (some left) (some right) →
    bothLive (some left) (some right) = true → ∃ result, desired.get? key = some (some result) ∧ ∀ field ∉ metadata,
      FieldMerged (choices.get? (fieldId runtime key base field left right)) (value base field) (value left field)
        (value right field) (value result field)
  whole : ∀ {key base left right}, Selected row original fork key base left right → bothLive left right = false →
    ∃ side result, choices.get? (recordId' runtime key base left right) = some side ∧ desired.get? key = some result ∧
      WholeMerged left right side result

/-- A conflict is about a record that is not live on both sides, or a field that differs between them. -/
def Contested (row : Fork) (original fork : Records) (change : Change) : Prop :=
  ∃ key base left right, Selected row original fork key base left right ∧
    (bothLive left right = false ∨
      ∃ l r, left = some l ∧ right = some r ∧ (value l change.field).eq (value r change.field) = false)

/-- The references of live desired records lead to live desired records. -/
def Closed (runtime : Runtime) (desired : Records) : Prop :=
  ∀ {key row}, desired.get? key = some (some row) → active row = true → ∃ kind rid, split key = .ok (kind, rid) ∧
    ∀ reference ∈ references kind row, ∃ target, desired.get? (reference.target runtime) = some (some target) ∧ active target = true

/-- No live record outside the selection references a selected one that is archived. -/
def DependentsKept (runtime : Runtime) (project : Project) (desired : Records) : Prop :=
  ∀ {kind row}, row ∈ project kind → ownKey runtime kind row ∉ desired.keys → active row = true →
    ∀ reference ∈ references kind row, ∀ {target}, desired.get? (reference.target runtime) = some target → live target = true

section
variable {runtime : Runtime} {choices : Dict String Side} {row : Fork} {original fork desired : Records} {records : Dict String Compared}

theorem comparedRecords_ok (done : comparedRecords runtime row original fork choices = .ok records) :
    records.keys = row.baseline.keys ∧ ∀ {key base left right}, Selected row original fork key base left right →
      ∃ compared, records.get? key = some compared ∧ compareRecord runtime choices key base left right = .ok compared := by
  obtain ⟨keys, each⟩ := Dict.mapValuesM_ok done
  refine ⟨keys, fun {key base left right} selected => ?_⟩
  obtain ⟨compared, stored, computed⟩ := each selected.base
  simp only [bind_ok, fetch_ok, selected.left, selected.right, Option.some.injEq] at computed
  obtain ⟨_, rfl, _, rfl, computed⟩ := computed
  exact ⟨compared, stored, computed⟩

theorem selected_of_compared (done : comparedRecords runtime row original fork choices = .ok records)
    (stored : records.get? key = some compared) : ∃ base left right, Selected row original fork key base left right ∧
      compareRecord runtime choices key base left right = .ok compared := by
  obtain ⟨keys, each⟩ := Dict.mapValuesM_ok done
  obtain ⟨base, known⟩ := Dict.mem_keys_iff.mp (keys ▸ Dict.mem_keys_iff.mpr ⟨compared, stored⟩)
  obtain ⟨again, stored', computed⟩ := each known
  cases stored.symm.trans stored'
  simp only [bind_ok, fetch_ok] at computed
  obtain ⟨left, leftKnown, right, rightKnown, computed⟩ := computed
  exact ⟨base, left, right, ⟨known, leftKnown, rightKnown⟩, computed⟩

theorem mem_conflictsOf {change : Change} : change ∈ conflictsOf records ↔
    ∃ key compared, records.get? key = some compared ∧ change ∈ compared.changes ∧ change.kind = .conflict := by
  simp only [conflictsOf, changesOf, List.mem_filter, List.mem_flatMap, Dict.mem_values_iff, decide_eq_true_eq]
  constructor
  · rintro ⟨⟨compared, ⟨key, stored⟩, inside⟩, conflict⟩
    exact ⟨key, compared, stored, inside, conflict⟩
  · rintro ⟨key, compared, stored, inside, conflict⟩
    exact ⟨⟨compared, ⟨key, stored⟩, inside⟩, conflict⟩

variable {base left right : Record}

theorem difference_of_compareField (found : compareField runtime choices key base left right field = some change) :
    difference Json.eq (value base field) (value left field) (value right field) = some change.kind ∧ change.field = field ∧
      (change.kind = .conflict → change.choice = choices.get? (fieldId runtime key base field left right)) := by
  obtain ⟨kind, differs, rfl⟩ := Option.map_eq_some_iff.mp found
  exact ⟨differs, rfl, fun conflict => if_pos conflict⟩

theorem compareField_of_conflict
    (conflict : difference Json.eq (value base field) (value left field) (value right field) = some .conflict) :
    ∃ change, compareField runtime choices key base left right field = some change ∧ change.kind = .conflict := by
  simp [compareField, conflict]

theorem contested (done : comparedRecords runtime row original fork choices = .ok records) (conflict : change ∈ conflictsOf records) :
    Contested row original fork change := by
  obtain ⟨key, compared, stored, inside, conflict⟩ := mem_conflictsOf.mp conflict
  obtain ⟨base, left, right, selected, computed⟩ := selected_of_compared done stored
  obtain ⟨result, sides, _⟩ := compareRecord_ok computed
  refine ⟨key, base, left, right, selected, ?_⟩
  rcases compareSides_ok sides with ⟨l, r, rfl, rfl, _, fields⟩ | ⟨archived, _⟩
  · obtain ⟨names, _, changes, _⟩ := compareFields_ok fields
    rw [changes] at inside
    obtain ⟨field, _, found⟩ := List.mem_filterMap.mp inside
    obtain ⟨differs, named, _⟩ := difference_of_compareField found
    refine .inr ⟨l, r, rfl, rfl, ?_⟩
    rw [conflict] at differs
    rw [named]
    exact differ_of_conflict differs
  · exact .inl archived

/-- No conflict waits for a choice. -/
def Resolved (records : Dict String Compared) : Prop := ∀ change ∈ conflictsOf records, change.choice.isSome

theorem fieldMerged_of_resolved {result : Record}
    (resolved : difference Json.eq (value base field) (value left field) (value right field) = some .conflict →
      (choices.get? (fieldId runtime key base field left right)).isSome)
    (merged : value result field = mergedField runtime choices key base left right field) :
    FieldMerged (choices.get? (fieldId runtime key base field left right)) (value base field) (value left field)
      (value right field) (value result field) := by
  rw [merged, mergedField]
  refine ⟨merged_right, merged_left, merged_both, fun differ original fork => ?_⟩
  rw [merged_conflict differ original fork, takesFork]
  have conflict : difference Json.eq (value base field) (value left field) (value right field) = some .conflict := by
    simp [difference, differ, original, fork]
  obtain ⟨side, chosen⟩ := Option.isSome_iff_exists.mp (resolved conflict)
  cases side <;> simp [chosen]

theorem desired_fields (live : bothLive (some left) (some right) = true)
    (computed : compareRecord runtime choices key base (some left) (some right) = .ok compared) :
    ∃ result, compared.desired = some result ∧
      ∀ field ∉ metadata, value result field = mergedField runtime choices key base left right field := by
  obtain ⟨result, sides, desired, _⟩ := compareRecord_ok computed
  rcases compareSides_ok sides with ⟨_, _, leftIs, rightIs, _, fields⟩ | ⟨archived, _⟩
  · cases leftIs
    cases rightIs
    obtain ⟨names, merged, _, rfl, values⟩ := compareFields_ok fields
    obtain ⟨shown, restricted, kept⟩ := restricted_some base (some left) (some right) merged
    exact ⟨shown, desired.trans restricted, fun field own => (kept field own).trans (values field own).1⟩
  · rw [live] at archived
    cases archived

theorem conflict_changes (live : bothLive (some left) (some right) = true)
    (computed : compareRecord runtime choices key base (some left) (some right) = .ok compared) (own : field ∉ metadata)
    (conflict : difference Json.eq (value base field) (value left field) (value right field) = some .conflict) :
    ∃ change ∈ compared.changes, change.kind = .conflict ∧ change.choice = choices.get? (fieldId runtime key base field left right) := by
  obtain ⟨result, sides, _⟩ := compareRecord_ok computed
  rcases compareSides_ok sides with ⟨_, _, leftIs, rightIs, _, fields⟩ | ⟨archived, _⟩
  · cases leftIs
    cases rightIs
    obtain ⟨_, _, _, _, values⟩ := compareFields_ok fields
    obtain ⟨change, found, kind⟩ := compareField_of_conflict conflict
    exact ⟨change, (values field own).2 found, kind, (difference_of_compareField found).2.2 kind⟩
  · rw [live] at archived
    cases archived

theorem fields_of_resolved (resolved : ∀ change ∈ compared.changes, change.kind = .conflict → change.choice.isSome)
    (live : bothLive (some left) (some right) = true)
    (computed : compareRecord runtime choices key base (some left) (some right) = .ok compared) :
    ∃ result, compared.desired = some result ∧ ∀ field ∉ metadata,
      FieldMerged (choices.get? (fieldId runtime key base field left right)) (value base field) (value left field)
        (value right field) (value result field) := by
  obtain ⟨result, desired, values⟩ := desired_fields live computed
  refine ⟨result, desired, fun field own => fieldMerged_of_resolved (fun conflict => ?_) (values field own)⟩
  obtain ⟨change, inside, kind, choice⟩ := conflict_changes live computed own conflict
  exact choice ▸ resolved change inside kind

theorem whole_of_resolved {left right : Option Record} (plain : sameRecord (content left) (content left) = true)
    (resolved : ∀ change ∈ compared.changes, change.kind = .conflict → change.choice.isSome)
    (archived : bothLive left right = false) (computed : compareRecord runtime choices key base left right = .ok compared) :
    ∃ side, choices.get? (recordId' runtime key base left right) = some side ∧ WholeMerged left right side compared.desired := by
  obtain ⟨result, sides, desired, _⟩ := compareRecord_ok computed
  rcases compareSides_ok sides with ⟨_, _, _, _, live, _⟩ | ⟨_, whole⟩
  · rw [live] at archived
    cases archived
  · obtain ⟨⟨change, changes, _, conflict, choice⟩, taken⟩ := compareWhole_ok whole
    rcases taken with ⟨chosen, row, rfl, rfl⟩ | ⟨other, rfl⟩
    · obtain ⟨shown, restricted, kept⟩ := restricted_some base (some row) right (overlaid row right)
      refine ⟨.fork, chosen, ?_⟩
      rw [desired, restricted]
      refine .fork rfl ?_ fun field own other => ?_
      · rw [kept _ (by decide), value_overlaid row right (by decide), if_pos rfl]
      · rw [kept field own, value_overlaid row right own, if_neg other]
    · have made := resolved change (changes ▸ List.mem_singleton_self change) conflict
      rw [choice] at made
      obtain ⟨side, chosen⟩ := Option.isSome_iff_exists.mp made
      cases side with
      | original =>
        refine ⟨.original, chosen, ?_⟩
        rw [desired, sameRecord_self_of_restricted plain]
        exact .original
      | fork => exact (other chosen).elim

theorem sameRecord_self {left : Option Record} (plain : ∀ row, left = some row → ∀ entry ∈ row.entries, entry.2.eq entry.2 = true) :
    sameRecord (content left) (content left) = true := by
  cases shown : content left with
  | none => simp [sameRecord, optional, Json.eq]
  | some fields =>
    have inside : ∀ entry ∈ fields.entries, entry.2.eq entry.2 = true := by
      unfold content at shown
      split at shown
      · rename_i row
        split at shown
        · cases shown
        · cases shown
          exact fun entry member => plain row rfl entry (List.mem_of_mem_filter member)
      · cases shown
    simp only [sameRecord, optional, Option.elim_some, Json.eq, Bool.and_eq_true, List.all_eq_true]
    refine ⟨Json.eqFields_of_forall fun key x member => ⟨x, ?_, inside (key, x) member⟩, fun entry member => ?_⟩
    · exact Json.lookup_of_mem fields.distinct member
    · exact lookup_isSome_iff.mpr (List.mem_map.mpr ⟨entry, member, rfl⟩)

end

section
variable {runtime : Runtime} {world : World} {context : Context}

theorem current_ok (done : current runtime world context row targetAuthorize = .ok (original, fork)) :
    ∀ {key left}, key ∈ row.baseline.keys → original.get? key = some left →
      sameRecord (content left) (content left) = true := by
  simp only [current, bind_ok, pure_ok, Prod.mk.injEq, discard_ok] at done
  obtain ⟨_, _, _, _, _, _, original', _, _, _, fork', _, _, ⟨checks, checked'⟩, rfl, rfl⟩ := done
  intro key left _ known
  obtain ⟨_, each⟩ := Dict.mapValuesM_ok checked'
  obtain ⟨_, _, passed⟩ := each known
  refine sameRecord_self fun row there entry member => ?_
  subst there
  simp only [checked] at passed
  split at passed
  · rename_i nothing
    rw [List.isEmpty_iff.mp nothing] at member
    cases member
  · simp only [bind_ok, discard_ok, Prod.exists] at passed
    obtain ⟨kind, _, _, _, passed⟩ := passed
    exact supported_eq_self runtime passed member

theorem standing_iff {desired : Records} : standing desired target = true ↔ ∃ row, desired.get? target = some (some row) ∧ active row = true := by
  unfold standing
  cases desired.get? target with
  | none => simp
  | some stored => cases stored <;> simp [live]

theorem closed_of_unblocked {desired : Records} {blocked : Dict String (List Block)}
    (done : desired.mapValuesM (blockedReferences runtime desired) = .ok blocked) (none : blocked.values.flatten = []) :
    Closed runtime desired := by
  intro key row stored live
  obtain ⟨_, each⟩ := Dict.mapValuesM_ok done
  obtain ⟨blocks, listed, computed⟩ := each stored
  have empty : blocks = [] := List.flatten_eq_nil_iff.mp none blocks (Dict.mem_values_iff.mpr ⟨key, listed⟩)
  simp only [blockedReferences, live, if_true, bind_ok, pure_ok, Prod.exists] at computed
  obtain ⟨kind, rid, known, rfl⟩ := computed
  refine ⟨kind, rid, known, fun reference inside => ?_⟩
  rw [List.map_eq_nil_iff, List.filter_eq_nil_iff] at empty
  exact standing_iff.mp (by simpa using empty reference inside)

variable {project : Project}

theorem read_own (known : world.novels.get? novelId = some project) (member : row ∈ project kind)
    (done : read runtime world novelId (ownKey runtime kind row) = .ok item) : item = some row := by
  simp only [read, bind_ok, Prod.exists, ownKey, split_ok, Prod.mk.injEq] at done
  obtain ⟨kind', rid, ⟨valid, rfl, rfl⟩, rows, found, done⟩ := done
  simp only [dataSet, bind_ok, fetch_ok, known, Option.some.injEq, pure_ok] at found
  obtain ⟨_, rfl, rfl⟩ := found
  have named : str runtime (value row "id") = str runtime ((row.get? "id").getD (.str "")) := by
    cases present : row.get? "id" with
    | none =>
      rw [present] at valid
      simp [str, recordId] at valid
    | some id => simp [value, present]
  have inside : row ∈ (project kind').filter fun other => str runtime (value other "id") = str runtime ((row.get? "id").getD (.str "")) :=
    List.mem_filter.mpr ⟨member, by simpa using named⟩
  split at done
  · rename_i nothing
    rw [nothing] at inside
    cases inside
  · rename_i single one
    rw [one] at inside
    cases List.mem_singleton.mp inside
    simp only [bind_ok, pure_ok] at done
    obtain ⟨_, _, rfl⟩ := done
    rfl
  · simp [throw_ok] at done

/-- A record outside the selection that references a selected one. -/
def Dependent (runtime : Runtime) (selected : Records) (kind : Kind) (row : Record) : Prop :=
  ownKey runtime kind row ∉ selected.keys ∧ active row = true ∧
    ∃ reference ∈ references kind row, reference.target runtime ∈ selected.keys

/-- A dependent record is listed under its key, as it was read. -/
def Listed (runtime : Runtime) (world : World) (context : Context) (result : Records) (kind : Kind) (row : Record) : Prop :=
  ∃ item, result.get? (ownKey runtime kind row) = some item ∧ read runtime world context.novelId (ownKey runtime kind row) = .ok item

theorem dependencyTurn_ok (done : dependencyTurn runtime world context selected kind result row = .ok next) :
    (Dependent runtime selected kind row → Listed runtime world context next kind row) ∧
      ∀ other member, Listed runtime world context result other member → Listed runtime world context next other member := by
  simp only [dependencyTurn] at done
  split at done
  · rename_i skipped
    cases pure_ok.mp done
    refine ⟨fun dependent => ?_, fun _ _ listed => listed⟩
    simp [dependent.1, dependent.2.1] at skipped
  · split at done
    · simp only [bind_ok, pure_ok] at done
      obtain ⟨item, found, rfl⟩ := done
      refine ⟨fun _ => ⟨item, Dict.get?_set_self .., found⟩, fun other member listed => ?_⟩
      obtain ⟨old, stored, was⟩ := listed
      by_cases same : ownKey runtime other member = ownKey runtime kind row
      · exact ⟨item, by rw [same, Dict.get?_set_self], same ▸ found⟩
      · exact ⟨old, by rw [Dict.get?_set_ne _ _ same, stored], was⟩
    · rename_i unrelated
      cases pure_ok.mp done
      refine ⟨fun dependent => ?_, fun _ _ listed => listed⟩
      obtain ⟨reference, inside, selected⟩ := dependent.2.2
      exact (unrelated (List.any_eq_true.mpr ⟨reference, inside, Dict.contains_iff.mpr selected⟩)).elim

theorem dependencyRows_ok {rows : List Record} (done : rows.foldlM (dependencyTurn runtime world context selected kind) start = .ok result) :
    (∀ row ∈ rows, Dependent runtime selected kind row → Listed runtime world context result kind row) ∧
      ∀ other member, Listed runtime world context start other member → Listed runtime world context result other member := by
  induction rows generalizing start with
  | nil =>
    cases foldlM_nil_ok.mp done
    exact ⟨fun _ member => (List.not_mem_nil member).elim, fun _ _ listed => listed⟩
  | cons row rest ih =>
    obtain ⟨next, turned, done⟩ := foldlM_cons_ok.mp done
    obtain ⟨first, kept⟩ := dependencyTurn_ok turned
    obtain ⟨later, keptLater⟩ := ih done
    refine ⟨fun other member dependent => ?_, fun other member listed => keptLater _ _ (kept _ _ listed)⟩
    rcases List.mem_cons.mp member with rfl | member
    · exact keptLater _ _ (first dependent)
    · exact later other member dependent

theorem dependencies_ok (known : world.novels.get? context.novelId = some project)
    (done : dependencies runtime world context selected = .ok result) (member : row ∈ project kind)
    (dependent : Dependent runtime selected kind row) : Listed runtime world context result kind row := by
  have general : ∀ (list : List Kind) (start : Records),
      list.foldlM (fun result kind => do
        let rows ← dataSet world context.novelId kind
        rows.foldlM (dependencyTurn runtime world context selected kind) result) start = .ok result →
      (kind ∈ list → Listed runtime world context result kind row) ∧
        ∀ other member, Listed runtime world context start other member → Listed runtime world context result other member := by
    intro list
    induction list with
    | nil =>
      intro start done
      cases foldlM_nil_ok.mp done
      exact ⟨fun inside => (List.not_mem_nil inside).elim, fun _ _ listed => listed⟩
    | cons first rest ih =>
      intro start done
      obtain ⟨next, turned, done⟩ := foldlM_cons_ok.mp done
      simp only [dataSet, bind_ok, fetch_ok, known, Option.some.injEq, pure_ok] at turned
      obtain ⟨_, ⟨_, rfl, rfl⟩, turned⟩ := turned
      obtain ⟨own, kept⟩ := dependencyRows_ok turned
      obtain ⟨later, keptLater⟩ := ih next done
      refine ⟨fun inside => ?_, fun other member listed => keptLater _ _ (kept _ _ listed)⟩
      rcases List.mem_cons.mp inside with rfl | inside
      · exact keptLater _ _ (own row member dependent)
      · exact later inside
  exact (general kinds ∅ done).1 (by cases kind <;> decide)

theorem dependentsKept_of_unblocked {desired dependents : Records} (known : world.novels.get? context.novelId = some project)
    (listed : dependencies runtime world context desired = .ok dependents) (done : dependencyBlocks runtime dependents desired = .ok []) :
    DependentsKept runtime project desired := by
  intro kind row member outside live reference inside target stored
  have selected : reference.target runtime ∈ desired.keys := Dict.mem_keys_iff.mpr ⟨target, stored⟩
  obtain ⟨item, there, found⟩ := dependencies_ok known listed member ⟨outside, live, reference, inside, selected⟩
  cases read_own known member found
  simp only [dependencyBlocks, bind_ok, pure_ok] at done
  obtain ⟨blocked, computed, none⟩ := done
  obtain ⟨_, each⟩ := Dict.mapValuesM_ok computed
  obtain ⟨blocks, listed, computed⟩ := each there
  have empty : blocks = [] := List.flatten_eq_nil_iff.mp none blocks (Dict.mem_values_iff.mpr ⟨_, listed⟩)
  simp only [archivedReferences, bind_ok, pure_ok, Prod.exists, ownKey, split_ok, Prod.mk.injEq] at computed
  obtain ⟨kind', rid, ⟨_, rfl, rfl⟩, rfl⟩ := computed
  rw [List.map_eq_nil_iff, List.filter_eq_nil_iff] at empty
  have clear := empty reference inside
  simp only [Dict.contains_iff.mpr selected, Bool.true_and, Bool.not_eq_true', Bool.not_eq_false] at clear
  obtain ⟨row', stored', live'⟩ := standing_iff.mp clear
  cases stored.symm.trans stored'
  exact live'

end

end NovelStudio.Forks
