import NovelStudio.Forks.Merge

/-! What a whole comparison promises when it can be applied, and what another side for
one conflict changes in it. -/

namespace NovelStudio.Forks

open Library Experimental

/-- Two desired states that differ at most where one conflict is: in its record, or in
its field and the privacy of the record that holds it. -/
structure Swapped (runtime : Runtime) (conflict : String) (row : Fork) (original fork desired other : Records) : Prop where
  whole : ∀ {key base left right}, Selected row original fork key base left right → bothLive left right = false →
    recordId' runtime key base left right ≠ conflict → desired.get? key = other.get? key
  record : ∀ {key base left right}, Selected row original fork key base (some left) (some right) →
    bothLive (some left) (some right) = true → (∀ field ∉ metadata, fieldId runtime key base field left right ≠ conflict) →
    desired.get? key = other.get? key
  field : ∀ {key base left right field}, Selected row original fork key base (some left) (some right) →
    bothLive (some left) (some right) = true → field ∉ metadata → fieldId runtime key base field left right ≠ conflict →
    ∃ mine theirs, desired.get? key = some (some mine) ∧ other.get? key = some (some theirs) ∧ value mine field = value theirs field

/-- Two sets of choices that differ for one conflict at most. -/
def AgreeExcept (conflict : String) (choices other : Dict String Side) : Prop :=
  ∀ id, id ≠ conflict → choices.get? id = other.get? id

section
variable {runtime : Runtime} {choices other : Dict String Side} {key conflict : String}

variable {base : Record}

theorem compareWhole_congr {left right : Option Record} (agree : AgreeExcept conflict choices other)
    (apart : recordId' runtime key base left right ≠ conflict) :
    compareWhole runtime choices key base left right = compareWhole runtime other key base left right := by
  simp only [compareWhole, agree _ apart]

variable {left right : Record}

theorem compareField_congr (agree : AgreeExcept conflict choices other)
    (apart : fieldId runtime key base field left right ≠ conflict) :
    compareField runtime choices key base left right field = compareField runtime other key base left right field := by
  simp only [compareField, agree _ apart]

theorem own_of_content {row fields : Record} (shown : content (some row) = some fields) (inside : field ∈ fields.keys) :
    field ∉ metadata := by
  simp only [content] at shown
  split at shown
  · cases shown
  · cases shown
    intro known
    simp [Dict.mem_keys_iff, Dict.get?_filterKeys, known] at inside

theorem compareFields_congr (agree : AgreeExcept conflict choices other)
    (apart : ∀ field ∉ metadata, fieldId runtime key base field left right ≠ conflict) :
    compareFields runtime choices key base left right = compareFields runtime other key base left right := by
  unfold compareFields
  cases base' : content (some base) with
  | none => rfl
  | some baseFields =>
    cases left' : content (some left) with
    | none => rfl
    | some leftFields =>
      cases right' : content (some right) with
      | none => rfl
      | some rightFields =>
        have same : (fieldNames baseFields leftFields rightFields).filterMap (compareField runtime choices key base left right) =
            (fieldNames baseFields leftFields rightFields).filterMap (compareField runtime other key base left right) := by
          refine List.filterMap_congr fun field inside => compareField_congr agree (apart field ?_)
          rcases mem_fieldNames.mp inside with inside | inside | inside
          · exact own_of_content base' inside
          · exact own_of_content left' inside
          · exact own_of_content right' inside
        simp only [fetch, pure_bind, same]

variable {row : Fork} {original fork : Records} {records others : Dict String Compared}

theorem compareSides_live (live : bothLive (some left) (some right) = true) :
    compareSides runtime choices key base (some left) (some right) = compareFields runtime choices key base left right := by
  have both : (active left && active right) = true := live
  simp [compareSides, both]

theorem compareSides_whole {left right : Option Record} (archived : bothLive left right = false) :
    compareSides runtime choices key base left right = compareWhole runtime choices key base left right := by
  match left, right with
  | none, none | none, some _ | some _, none => rfl
  | some l, some r =>
    have both : (active l && active r) = false := archived
    simp [compareSides, both]

theorem swapped (first : comparedRecords runtime row original fork choices = .ok records)
    (second : comparedRecords runtime row original fork other = .ok others) (agree : AgreeExcept conflict choices other) :
    Swapped runtime conflict row original fork (records.mapValues fun _ compared => compared.desired)
      (others.mapValues fun _ compared => compared.desired) where
  whole {key base left right} selected archived apart := by
    obtain ⟨mine, stored, computed⟩ := (comparedRecords_ok first).2 selected
    obtain ⟨theirs, stored', computed'⟩ := (comparedRecords_ok second).2 selected
    have same : compareRecord runtime choices key base left right = compareRecord runtime other key base left right := by
      simp only [compareRecord, compareSides_whole archived, compareWhole_congr agree apart]
    cases computed.symm.trans (same.trans computed')
    simp [stored, stored']
  record {key base left right} selected live apart := by
    obtain ⟨mine, stored, computed⟩ := (comparedRecords_ok first).2 selected
    obtain ⟨theirs, stored', computed'⟩ := (comparedRecords_ok second).2 selected
    have same : compareRecord runtime choices key base (some left) (some right) =
        compareRecord runtime other key base (some left) (some right) := by
      simp only [compareRecord, compareSides_live live, compareFields_congr agree apart]
    cases computed.symm.trans (same.trans computed')
    simp [stored, stored']
  field {key base left right field} selected live own apart := by
    obtain ⟨mine, stored, computed⟩ := (comparedRecords_ok first).2 selected
    obtain ⟨theirs, stored', computed'⟩ := (comparedRecords_ok second).2 selected
    obtain ⟨result, desired, values⟩ := desired_fields live computed
    obtain ⟨result', desired', values'⟩ := desired_fields live computed'
    refine ⟨result, result', by simp [stored, desired], by simp [stored', desired'], ?_⟩
    rw [values field own, values' field own]
    simp only [mergedField, takesFork, agree _ apart]

end

section
variable {runtime : Runtime} {world : World} {context : Context} {choices : Dict String Side}

theorem compare_ok (done : compare runtime world context reauthorize targetAuthorize rid expectedVersion choices = .ok review) :
    ∃ row, world.forks.get? rid = some row ∧
      current runtime world context row.data targetAuthorize = .ok (review.original, review.fork) ∧
      comparedRecords runtime row.data review.original review.fork choices = .ok review.records ∧
      review.desired = review.records.mapValues (fun _ compared => compared.desired) ∧
      dependencies runtime world context review.desired = .ok review.dependents ∧
      (review.canApply = true → Resolved review.records ∧
        (∃ blocked, review.desired.mapValuesM (blockedReferences runtime review.desired) = .ok blocked ∧ blocked.values.flatten = []) ∧
        dependencyBlocks runtime review.dependents review.desired = .ok []) := by
  simp only [compare, comparison, owned, bind_ok, fetch_ok, reject_ok, pure_ok, Prod.exists, Prod.mk.injEq] at done
  obtain ⟨row, ⟨_, _, row', found, _, _, rfl⟩, _, _, _, _, _, _, original, fork, sides, records, desired, unresolved, blocked,
    ⟨records', compared, _, _, blocked', closed, rfl, rfl, rfl, rfl⟩, dependents, listed, dependentBlocks, kept, _, _, _, _, rfl⟩ := done
  refine ⟨row', found, sides, compared, rfl, listed, fun applies => ?_⟩
  simp only [Bool.and_eq_true, decide_eq_true_eq, List.isEmpty_iff, List.append_eq_nil_iff, List.length_eq_zero_iff,
    List.filter_eq_nil_iff] at applies
  obtain ⟨resolved, none, noneKept⟩ := applies
  refine ⟨fun change conflict => ?_, ⟨blocked', closed, none⟩, noneKept ▸ kept⟩
  have made := resolved change conflict
  cases choice : change.choice <;> simp_all

theorem project_of_dependencies (done : dependencies runtime world context selected = .ok result) :
    ∃ project, world.novels.get? context.novelId = some project := by
  obtain ⟨_, turned, _⟩ := foldlM_cons_ok.mp done
  simp only [dataSet, bind_ok, fetch_ok] at turned
  obtain ⟨_, ⟨project, known, _⟩, _⟩ := turned
  exact ⟨project, known⟩

theorem merged_of_resolved {row : Fork} {original fork : Records} {records : Dict String Compared}
    (plain : ∀ {key left}, key ∈ row.baseline.keys → original.get? key = some left → sameRecord (content left) (content left) = true)
    (compared : comparedRecords runtime row original fork choices = .ok records) (resolved : Resolved records) :
    Merged runtime choices row original fork (records.mapValues fun _ compared => compared.desired) where
  same := by
    rw [Dict.keys_mapValues]
    exact (comparedRecords_ok compared).1
  fields {key base left right} selected live := by
    obtain ⟨entry, stored, computed⟩ := (comparedRecords_ok compared).2 selected
    obtain ⟨result, desired, fields⟩ := fields_of_resolved
      (fun change inside conflict => resolved change (mem_conflictsOf.mpr ⟨key, entry, stored, inside, conflict⟩)) live computed
    exact ⟨result, by simp [stored, desired], fields⟩
  whole {key base left right} selected archived := by
    obtain ⟨entry, stored, computed⟩ := (comparedRecords_ok compared).2 selected
    obtain ⟨side, chosen, taken⟩ := whole_of_resolved (plain (Dict.mem_keys_iff.mpr ⟨base, selected.base⟩) selected.left)
      (fun change inside conflict => resolved change (mem_conflictsOf.mpr ⟨key, entry, stored, inside, conflict⟩)) archived computed
    exact ⟨side, entry.desired, chosen, by simp [stored], taken⟩

/-- A comparison that can be applied merges every field of two live records by itself and
takes every other record by the choice for it; it asked for choices only where that is
needed, its references are closed, and another side for one conflict changes nothing else. -/
theorem compare_merges (done : compare runtime world context reauthorize targetAuthorize rid expectedVersion choices = .ok review)
    (applies : review.canApply = true) :
    ∃ row project, world.forks.get? rid = some row ∧ world.novels.get? context.novelId = some project ∧
      current runtime world context row.data targetAuthorize = .ok (review.original, review.fork) ∧
      Merged runtime choices row.data review.original review.fork review.desired ∧
      (∀ change ∈ conflictsOf review.records, Contested row.data review.original review.fork change) ∧
      Closed runtime review.desired ∧ DependentsKept runtime project review.desired ∧
      ∀ {conflict other another}, AgreeExcept conflict choices other →
        compare runtime world context reauthorize targetAuthorize rid expectedVersion other = .ok another →
        Swapped runtime conflict row.data review.original review.fork review.desired another.desired := by
  obtain ⟨row, found, sides, compared, desired, listed, ready⟩ := compare_ok done
  obtain ⟨resolved, ⟨blocked, closed, none⟩, kept⟩ := ready applies
  obtain ⟨project, known⟩ := project_of_dependencies listed
  refine ⟨row, project, found, known, sides, ?_, fun change conflict => contested compared conflict, closed_of_unblocked closed none,
    dependentsKept_of_unblocked known listed kept, fun {conflict other another} agree done' => ?_⟩
  · rw [desired]
    exact merged_of_resolved (current_ok sides) compared resolved
  · obtain ⟨row', found', sides', compared', desired', _⟩ := compare_ok done'
    cases found.symm.trans found'
    have same := Prod.mk.inj (Except.ok.inj (sides.symm.trans sides'))
    rw [← same.1, ← same.2] at compared'
    rw [desired, desired']
    exact swapped compared compared' agree

end

/-- A runtime whose digests name the record and the field of a conflict. -/
def sampleRuntime : Runtime where
  repr _ := ""
  upper := id
  canonicalSize row := row.entries.length
  digest
    | .list (.str key :: .str field :: _) => key ++ "/" ++ field
    | _ => ""

def sampleRecord (id status name goal : String) : Record :=
  ((((∅ : Record).set "id" (.str id)).set "name" (.str name)).set "goal" (.str goal)).set "status" (.str status)

def sampleFork (base : Record) : Fork where
  status := "FORKED"
  targetId := "copy"
  activeMerge := none
  manuscriptFork := none
  baseline := (∅ : Dict String Record).set "characters:a" base
  idMap := (∅ : Dict String String).set "characters:a" "characters:b"
  covered := rfl

/-- The original holds one character, and so does its fork. -/
def sampleWorld (base original fork : Record) : World where
  novels := ((∅ : Dict String Project).set "book" fun kind => if kind = .characters then [original] else []).set "copy"
    fun kind => if kind = .characters then [fork] else []
  forks := (∅ : Dict String (Row Fork)).set "f" (newRow "author" (sampleFork base))
  merges := ∅
  manuscripts := ∅

def sampleCompare (base original fork : Record) (choices : Dict String Side) : Except Failure Review :=
  compare sampleRuntime (sampleWorld base original fork) ⟨"author", "book", true⟩ (pure ()) (fun _ => pure ()) "f" 1 choices

def chooseFork (conflict : String) : Dict String Side := (∅ : Dict String Side).set conflict .fork

/-- A merge of two goals for one character, decided for the fork. -/
theorem compare_merges_goal : ∃ review,
    sampleCompare (sampleRecord "a" "ACTIVE" "Ann" "peace") (sampleRecord "a" "ACTIVE" "Ann" "war") (sampleRecord "b" "ACTIVE" "Ann" "gold")
      (chooseFork "characters:a/goal") = .ok review ∧ review.canApply = true ∧ Closed sampleRuntime review.desired := by
  obtain ⟨review, done, applies⟩ := ok_of_endsWith Review.canApply
    (sampleCompare (sampleRecord "a" "ACTIVE" "Ann" "peace") (sampleRecord "a" "ACTIVE" "Ann" "war")
      (sampleRecord "b" "ACTIVE" "Ann" "gold") (chooseFork "characters:a/goal")) (by decide +kernel)
  obtain ⟨_, _, _, _, _, _, _, closed, _⟩ := compare_merges done applies
  exact ⟨review, done, applies, closed⟩

/-- The value of a field of the sample character, where it is there. -/
def sampleValue (records : Records) (field : String) : Option Json := (records.get? "characters:a").join.bind (·.get? field)

/-- An archived record that is decided for the fork keeps what only the original has; two
records that are alike ask for a choice once they are archived; and the side of a field
decides about the privacy of its record. -/
theorem overlaid_asked_restricted :
    (∃ review, sampleCompare (sampleRecord "a" "ACTIVE" "Ann" "peace") (sampleRecord "a" "ARCHIVED" "Ann" "war")
        ((sampleRecord "b" "ARCHIVED" "Ann" "gold").erase "goal") (chooseFork "characters:a/ARCHIVE_DELETE") = .ok review ∧
      review.canApply = true ∧ sampleValue review.fork "goal" = none ∧ sampleValue review.desired "goal" = some (.str "war")) ∧
    (∃ review, sampleCompare (sampleRecord "a" "ACTIVE" "Ann" "peace") (sampleRecord "a" "ARCHIVED" "Ann" "war")
        (sampleRecord "b" "ARCHIVED" "Ann" "war") ∅ = .ok review ∧ review.original = review.fork ∧ review.unresolved = 1) ∧
    (∃ review other, sampleCompare (sampleRecord "a" "ACTIVE" "Ann" "peace") (sampleRecord "a" "ACTIVE" "Ann" "war")
        (sampleRecord "b" "ACTIVE" "Ann" "gold") (chooseFork "characters:a/goal") = .ok review ∧
      sampleCompare (sampleRecord "a" "ACTIVE" "Ann" "peace") (sampleRecord "a" "ACTIVE" "Ann" "war")
        (sampleRecord "b" "ACTIVE" "Ann" "gold") ((∅ : Dict String Side).set "characters:a/goal" .original) = .ok other ∧
      review.canApply = true ∧ other.canApply = true ∧ sampleValue review.desired "privacy_level" = some (.str "LOCAL_ONLY") ∧
      sampleValue other.desired "privacy_level" = none) := by
  refine ⟨?_, ?_, ?_⟩
  · obtain ⟨review, done, found⟩ := ok_of_endsWith
      (fun review => review.canApply && sampleValue review.fork "goal" = none && sampleValue review.desired "goal" = some (.str "war"))
      (sampleCompare (sampleRecord "a" "ACTIVE" "Ann" "peace") (sampleRecord "a" "ARCHIVED" "Ann" "war")
        ((sampleRecord "b" "ARCHIVED" "Ann" "gold").erase "goal") (chooseFork "characters:a/ARCHIVE_DELETE")) (by decide +kernel)
    simp only [Bool.and_eq_true, decide_eq_true_eq] at found
    exact ⟨review, done, found.1.1, found.1.2, found.2⟩
  · obtain ⟨review, done, found⟩ := ok_of_endsWith (fun review => review.original = review.fork && review.unresolved = 1)
      (sampleCompare (sampleRecord "a" "ACTIVE" "Ann" "peace") (sampleRecord "a" "ARCHIVED" "Ann" "war")
        (sampleRecord "b" "ARCHIVED" "Ann" "war") ∅) (by decide +kernel)
    simp only [Bool.and_eq_true, decide_eq_true_eq] at found
    exact ⟨review, done, found.1, found.2⟩
  · obtain ⟨review, done, found⟩ := ok_of_endsWith
      (fun review => review.canApply && sampleValue review.desired "privacy_level" = some (.str "LOCAL_ONLY"))
      (sampleCompare (sampleRecord "a" "ACTIVE" "Ann" "peace") (sampleRecord "a" "ACTIVE" "Ann" "war")
        (sampleRecord "b" "ACTIVE" "Ann" "gold") (chooseFork "characters:a/goal")) (by decide +kernel)
    obtain ⟨other, done', found'⟩ := ok_of_endsWith
      (fun review => review.canApply && sampleValue review.desired "privacy_level" = none)
      (sampleCompare (sampleRecord "a" "ACTIVE" "Ann" "peace") (sampleRecord "a" "ACTIVE" "Ann" "war")
        (sampleRecord "b" "ACTIVE" "Ann" "gold") ((∅ : Dict String Side).set "characters:a/goal" .original)) (by decide +kernel)
    simp only [Bool.and_eq_true, decide_eq_true_eq] at found found'
    exact ⟨review, other, done, done', found.1, found'.1, found.2, found'.2⟩

end NovelStudio.Forks
