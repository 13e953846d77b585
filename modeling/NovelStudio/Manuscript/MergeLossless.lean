import NovelStudio.Manuscript.BlockMerge

/-! A merge loses nothing: the parts of its segments join to the base and to each side. -/

namespace NovelStudio.Manuscript.BlockMerge

open Library Library.SequenceMatcher

theorem Change.le_iff {left right : Change} : left.le right = true ↔
    left.a < right.a ∨ (left.a = right.a ∧ (left.b < right.b ∨ (left.b = right.b ∧ left.side.rank ≤ right.side.rank))) := by
  simp only [Change.le, Bool.or_eq_true, Bool.and_eq_true, decide_eq_true_eq]

theorem Change.le_trans (first second third : Change) (left : first.le second = true) (right : second.le third = true) :
    first.le third = true := by
  rw [Change.le_iff] at *
  omega

theorem Change.le_total (left right : Change) : (left.le right || right.le left) = true := by
  rw [Bool.or_eq_true, Change.le_iff, Change.le_iff]
  omega

section Sorted

variable {κ : Type*} {x : List κ} {y : Side → List κ} {opcodes : Side → List Opcode} {value : Side → List Node}

theorem sortedChanges_pairwise (opcodes : Side → List Opcode) (value : Side → List Node) :
    (sortedChanges opcodes value).Pairwise fun left right => left.le right = true :=
  List.pairwise_mergeSort Change.le_trans Change.le_total _

theorem own_sorted {side : Side} (gaps : Gaps x (y side) 0 0 (changes (opcodes side))) :
    ((changes (opcodes side)).map (toChange side (value side))).Pairwise fun left right => left.le right = true := by
  rw [List.pairwise_map]
  have bounds := gaps.bounds.2.2
  refine gaps.pairwise.imp_of_mem fun {earlier later} first second order => ?_
  have left := bounds earlier first
  have right := bounds later second
  rw [Change.le_iff]
  simp only [toChange]
  omega

theorem filter_sortedChanges (value : Side → List Node) (gaps : ∀ side, Gaps x (y side) 0 0 (changes (opcodes side))) (side : Side) :
    (sortedChanges opcodes value).filter (·.side = side) = (changes (opcodes side)).map (toChange side (value side)) := by
  have kept : ([Side.original, .fork].flatMap fun other => (changes (opcodes other)).map (toChange other (value other))).filter
      (·.side = side) = (changes (opcodes side)).map (toChange side (value side)) := by
    cases side <;> simp [List.filter_append, List.filter_map, Function.comp_def, toChange]
  have sublist : ((changes (opcodes side)).map (toChange side (value side))).Sublist (sortedChanges opcodes value) := by
    refine List.sublist_mergeSort Change.le_trans Change.le_total (own_sorted (gaps side)) ?_
    rw [← kept]
    exact List.filter_sublist
  have filtered := sublist.filter (·.side = side)
  have all : ((changes (opcodes side)).map (toChange side (value side))).filter (·.side = side) =
      (changes (opcodes side)).map (toChange side (value side)) := by
    simp [List.filter_map, Function.comp_def, toChange]
  rw [all] at filtered
  refine (filtered.eq_of_length ?_).symm
  rw [← kept]
  exact ((List.mergeSort_perm _ _).filter _).length_eq.symm

end Sorted

section Rebuild

variable {κ : Type*} (canonical : Node → κ) {base value : List Node} {side : Side}

theorem rebuild_slice (side : Side) {middle after : List Opcode}
    (gaps : Gaps (base.map canonical) (value.map canonical) i j (middle ++ after)) (start : i ≤ stop)
    (inside : stop ≤ base.length) (within : ∀ opcode ∈ middle, opcode.i2 ≤ stop)
    (ahead : ∀ opcode ∈ after, stop ≤ opcode.i1) :
    (rebuild base i (middle.map (toChange side value)) stop).map canonical =
      slice (value.map canonical) j (image i j middle stop) := by
  induction middle generalizing i j with
  | nil =>
    rw [List.map_nil, rebuild, map_slice]
    exact gaps.agree start (by simpa using inside) ahead
  | cons opcode middle ih =>
    have bounds := gaps.bounds.2.2 opcode (by simp)
    cases gaps with
    | change before diagonal agrees left right some rest =>
      have reached := within opcode (List.mem_cons_self ..)
      have kept : slice (base.map canonical) i opcode.i1 = slice (value.map canonical) j opcode.j1 := by
        rw [show opcode.i1 = i + (opcode.i1 - i) by omega, show opcode.j1 = j + (opcode.i1 - i) by omega]
        exact slice_ext i j (opcode.i1 - i) agrees
      have tail := ih rest reached fun other member => within other (List.mem_cons_of_mem _ member)
      obtain ⟨above, _⟩ := rest.le_image stop
      calc (slice base i opcode.i1 ++ slice value opcode.j1 opcode.j2 ++
            rebuild base opcode.i2 (middle.map (toChange side value)) stop).map canonical
          = slice (base.map canonical) i opcode.i1 ++ slice (value.map canonical) opcode.j1 opcode.j2 ++
            slice (value.map canonical) opcode.j2 (image opcode.i2 opcode.j2 middle stop) := by
            rw [List.map_append, List.map_append, tail, map_slice, map_slice]
        _ = slice (value.map canonical) j (image opcode.i2 opcode.j2 middle stop) := by
            rw [kept, slice_append _ (by omega) right, slice_append _ (by omega) above]

theorem first_parts {size : Nat} {opcodes : List Opcode} (well : first.Well) (rest : Layout size first.stop groups)
    (own : ((first :: groups).flatMap Group.changes).filter (·.side = side) = opcodes.map (toChange side value)) :
    ∃ here later, opcodes = here ++ later ∧
      first.changes.filter (·.side = side) = here.map (toChange side value) ∧
      (groups.flatMap Group.changes).filter (·.side = side) = later.map (toChange side value) ∧
      (∀ opcode ∈ here, first.start ≤ opcode.i1 ∧ opcode.i2 ≤ first.stop) ∧
      (∀ opcode ∈ later, first.stop ≤ opcode.i1) := by
  rw [List.flatMap_cons, List.filter_append, eq_comm, List.map_eq_append_iff] at own
  obtain ⟨here, later, whole, mine, others⟩ := own
  have changed {part : List Opcode} {kept : List Change} (same : part.map (toChange side value) = kept.filter (·.side = side))
      (opcode : Opcode) (found : opcode ∈ part) : toChange side value opcode ∈ kept := by
    apply List.mem_of_mem_filter (p := fun change => decide (change.side = side))
    rw [← same]
    exact List.mem_map_of_mem found
  refine ⟨here, later, whole, mine.symm, others.symm, fun opcode found => ?_, fun opcode found => ?_⟩
  · have inside := well.inside _ (changed mine opcode found)
    exact ⟨inside.1, inside.2.2⟩
  · obtain ⟨other, there, inside⟩ := List.mem_flatMap.mp (changed others opcode found)
    obtain ⟨behind, otherWell⟩ := rest.bounds other there
    exact Nat.le_trans behind (otherWell.inside _ inside).1

theorem group_parts {size : Nat} {opcodes : List Opcode} (layout : Layout size position groups) (member : group ∈ groups)
    (own : (groups.flatMap Group.changes).filter (·.side = side) = opcodes.map (toChange side value)) :
    ∃ before middle after, opcodes = before ++ middle ++ after ∧
      group.changes.filter (·.side = side) = middle.map (toChange side value) ∧
      (∀ opcode ∈ before, opcode.i2 ≤ group.start) ∧
      (∀ opcode ∈ middle, group.start ≤ opcode.i1 ∧ opcode.i2 ≤ group.stop) ∧
      (∀ opcode ∈ after, group.stop ≤ opcode.i1) := by
  induction layout generalizing opcodes with
  | done inside => cases member
  | @group position groups first ahead well rest ih =>
    obtain ⟨here, later, rfl, mine, others, inFirst, beyond⟩ := first_parts well rest own
    rcases List.mem_cons.mp member with rfl | member
    · exact ⟨[], here, later, by simp, mine, by simp, inFirst, beyond⟩
    · obtain ⟨before, middle, after, rfl, own, behind, within, beyond⟩ := ih member others
      refine ⟨here ++ before, middle, after, by simp, own, fun opcode found => ?_, within, beyond⟩
      rcases List.mem_append.mp found with found | found
      · exact Nat.le_trans (inFirst opcode found).2 (rest.bounds group member).1
      · exact behind opcode found

theorem value_eq {group : Group} (sorted : group.changes.Pairwise fun left right => left.a ≤ right.a) (side : Side) :
    group.value base side = rebuild base group.start (group.changes.filter (·.side = side)) group.stop := by
  have own := sorted.filter (·.side = side)
  rw [Group.value, List.mergeSort_of_pairwise (own.imp fun order => decide_eq_true order)]

theorem flatMap_unchanged (take : Segment → List Node) (plain : ∀ nodes, take (.unchanged nodes) = nodes)
    (order : position ≤ stop) : (unchanged base position stop).flatMap take = slice base position stop := by
  unfold unchanged
  split
  · simp [plain]
  · rw [show position = stop by omega]
    simp

theorem segments_base (layout : Layout base.length position groups) :
    (segments base position groups).flatMap Segment.base = slice base position base.length := by
  induction layout with
  | done inside => exact flatMap_unchanged _ (fun _ => rfl) inside
  | group before well rest ih =>
    obtain ⟨inside, _⟩ := rest.inside
    rw [segments, List.flatMap_append, List.flatMap_cons, flatMap_unchanged _ (fun _ => rfl) before, ih]
    simp only [Group.segment, Segment.base]
    rw [slice_append _ well.order inside, slice_append _ before (Nat.le_trans well.order inside)]

theorem segments_part {after : List Opcode} (layout : Layout base.length position groups)
    (sorted : (groups.flatMap Group.changes).Pairwise fun left right => left.a ≤ right.a)
    (gaps : Gaps (base.map canonical) (value.map canonical) position image' after)
    (own : (groups.flatMap Group.changes).filter (·.side = side) = after.map (toChange side value)) :
    ((segments base position groups).flatMap (Segment.part side)).map canonical =
      slice (value.map canonical) image' value.length := by
  induction layout generalizing after image' with
  | done inside =>
    have none : after = [] := by simpa using own
    subst none
    have kept := gaps.agree inside (by simp) (by simp)
    cases gaps with
    | done left right ends agrees =>
      simp only [List.length_map] at ends
      rw [segments, flatMap_unchanged _ (fun _ => rfl) inside, map_slice, kept,
        show image' + (base.length - _) = value.length by omega]
  | @group position groups first before well rest ih =>
    obtain ⟨here, later, rfl, mine, others, within, beyond⟩ := first_parts well rest own
    obtain ⟨inside, _⟩ := rest.inside
    have order := well.order
    have size : (base.map canonical).length = base.length := List.length_map ..
    have ahead : ∀ opcode ∈ here ++ later, first.start ≤ opcode.i1 := by
      intro opcode found
      rcases List.mem_append.mp found with found | found
      · exact (within opcode found).1
      · exact Nat.le_trans order (beyond opcode found)
    have whole : Gaps (base.map canonical) _ position _ ([] ++ (here ++ later)) := gaps
    have fromStart := whole.reroot before (by omega) (by simp) ahead
    have fromStop := fromStart.reroot order (by omega) (fun opcode found => (within opcode found).2) beyond
    have kept := gaps.agree before (by omega) ahead
    rw [List.flatMap_cons, List.pairwise_append] at sorted
    have rebuilt := rebuild_slice canonical side fromStart order inside
      (fun opcode found => (within opcode found).2) beyond
    rw [← mine, ← value_eq sorted.1] at rebuilt
    have tail := ih sorted.2.1 fromStop others
    obtain ⟨above, _⟩ := fromStart.le_image first.stop
    have final := fromStop.bounds.2.1
    simp only [image, List.length_map] at kept rebuilt tail above final
    have part : Segment.part side (first.segment base) = first.value base side := by cases side <;> rfl
    rw [segments, List.flatMap_append, List.flatMap_cons, flatMap_unchanged _ (fun _ => rfl) before, part,
      List.map_append, List.map_append, map_slice, kept, rebuilt, tail, slice_append _ above final,
      slice_append _ (by omega) (by omega)]

end Rebuild

section Merge

variable {κ : Type*} (canonical : Node → κ) {base : List Node} {value : Side → List Node} {opcodes : Side → List Opcode}

theorem sortedChanges_bounds
    (gaps : ∀ side, Gaps (base.map canonical) ((value side).map canonical) 0 0 (changes (opcodes side))) :
    ∀ change ∈ sortedChanges opcodes value, change.a ≤ change.b ∧ change.b ≤ base.length := by
  intro change member
  have own : change ∈ (sortedChanges opcodes value).filter (·.side = change.side) :=
    List.mem_filter.mpr ⟨member, by simp⟩
  rw [filter_sortedChanges _ gaps] at own
  obtain ⟨opcode, found, same⟩ := List.mem_map.mp own
  have inside := (gaps change.side).bounds.2.2 opcode found
  rw [List.length_map] at inside
  rw [← same]
  exact ⟨inside.2.1, inside.2.2.1⟩

/-- Under edit scripts for both sides the groups of their changes lie in the base, in
order, and hold every change once. -/
theorem merge_layout (value : Side → List Node)
    (gaps : ∀ side, Gaps (base.map canonical) ((value side).map canonical) 0 0 (changes (opcodes side))) :
    Layout base.length 0 (groupChanges (sortedChanges opcodes value)) ∧
      (groupChanges (sortedChanges opcodes value)).flatMap Group.changes = sortedChanges opcodes value ∧
      (sortedChanges opcodes value).Pairwise fun left right => left.a ≤ right.a := by
  have sorted : (sortedChanges opcodes value).Pairwise fun left right => left.a ≤ right.a :=
    (sortedChanges_pairwise opcodes value).imp fun order => by
      rw [Change.le_iff] at order
      omega
  obtain ⟨layout, whole⟩ := groupChanges_layout sorted (sortedChanges_bounds canonical gaps)
  exact ⟨layout, whole, sorted⟩

theorem group_sorted {groups : List Group}
    (sorted : (groups.flatMap Group.changes).Pairwise fun left right => left.a ≤ right.a) (member : group ∈ groups) :
    group.changes.Pairwise fun left right => left.a ≤ right.a :=
  sorted.sublist (List.sublist_flatten_of_mem (List.mem_map_of_mem member))

theorem mergeBy_base
    (gaps : ∀ side, Gaps (base.map canonical) ((value side).map canonical) 0 0 (changes (opcodes side))) :
    (mergeBy opcodes base value).flatMap Segment.base = base := by
  rw [mergeBy, segments_base (merge_layout canonical _ gaps).1, slice_all]

theorem mergeBy_part
    (gaps : ∀ side, Gaps (base.map canonical) ((value side).map canonical) 0 0 (changes (opcodes side))) (side : Side) :
    ((mergeBy opcodes base value).flatMap (Segment.part side)).map canonical = (value side).map canonical := by
  obtain ⟨layout, whole, sorted⟩ := merge_layout canonical _ gaps
  have own := filter_sortedChanges value gaps side
  rw [← whole] at sorted own
  rw [mergeBy, segments_part canonical layout sorted (gaps side) own]
  simpa using slice_all ((value side).map canonical)

end Merge

end NovelStudio.Manuscript.BlockMerge

/-! The kind of a segment says which sides differ from the base there. -/

namespace NovelStudio.Manuscript.BlockMerge

open Library Library.SequenceMatcher

theorem mem_segments {base : List Node} {segment : Segment} (member : segment ∈ segments base position groups) :
    (∃ nodes, segment = .unchanged nodes) ∨ ∃ group ∈ groups, segment = group.segment base := by
  have plain {start stop : Nat} (here : segment ∈ unchanged base start stop) : ∃ nodes, segment = .unchanged nodes := by
    unfold unchanged at here
    split at here
    · exact ⟨_, List.mem_singleton.mp here⟩
    · cases here
  induction groups generalizing position with
  | nil => exact .inl (plain member)
  | cons group groups ih =>
    rw [segments, List.mem_append, List.mem_cons] at member
    rcases member with here | here | later
    · exact .inl (plain here)
    · exact .inr ⟨group, List.mem_cons_self .., here⟩
    · rcases ih later with found | ⟨other, found, same⟩
      · exact .inl found
      · exact .inr ⟨other, List.mem_cons_of_mem _ found, same⟩

/-- Whether a side has changed anything in a group. -/
def Group.touches (group : Group) (side : Side) : Prop := group.changes.filter (·.side = side) ≠ []

variable {group : Group}

theorem Group.touches_iff {side : Side} :
    group.touches side ↔ group.changes.any (·.side = side) = true := by
  rw [Group.touches, ne_eq, List.filter_eq_nil_iff, List.any_eq_true]
  push Not
  rfl

theorem Group.both_iff : group.both = true ↔ group.touches .original ∧ group.touches .fork := by
  rw [Group.both, Bool.and_eq_true, touches_iff, touches_iff]

theorem Group.Well.touched (well : group.Well) : group.touches .original ∨ group.touches .fork := by
  obtain ⟨change, member, _⟩ := well.opened
  rw [touches_iff, touches_iff, List.any_eq_true, List.any_eq_true]
  cases same : change.side with
  | original => exact .inl ⟨change, member, by simp [same]⟩
  | fork => exact .inr ⟨change, member, by simp [same]⟩

theorem Group.Well.head_side (well : group.Well) (single : group.both = false) :
    group.changes.head?.map Change.side = some .original ↔ group.touches .original := by
  have one : ¬(group.touches .original ∧ group.touches .fork) := by
    rw [← Group.both_iff, single]
    simp
  obtain ⟨change, member, _⟩ := well.opened
  cases changes : group.changes with
  | nil => simp [changes] at member
  | cons first rest =>
    have touched : group.touches first.side := by
      rw [Group.touches_iff, changes]
      simp
    cases side : first.side with
    | original => simpa [side] using touched
    | fork =>
      rw [side] at touched
      simpa [side] using fun other => one ⟨other, touched⟩

theorem Group.Well.kind_cases (well : group.Well) (base : List Node) :
    (group.kind base = .conflict ∧ group.touches .original ∧ group.touches .fork ∧
      sameNodes (group.value base .original) (group.value base .fork) = false) ∨
    (group.kind base = .bothSame ∧ group.touches .original ∧ group.touches .fork ∧
      sameNodes (group.value base .original) (group.value base .fork) = true) ∨
    (group.kind base = .originalOnly ∧ group.touches .original ∧ ¬group.touches .fork) ∨
    (group.kind base = .forkOnly ∧ ¬group.touches .original ∧ group.touches .fork) := by
  have touched := well.touched
  unfold Group.kind
  cases both : group.both with
  | true =>
    obtain ⟨left, right⟩ := Group.both_iff.mp both
    cases same : sameNodes (group.value base .original) (group.value base .fork) <;> simp [left, right]
  | false =>
    have single := well.head_side both
    have one : ¬(group.touches .original ∧ group.touches .fork) := by
      rw [← Group.both_iff, both]
      simp
    by_cases left : group.touches .original
    · have right : ¬group.touches .fork := fun right => one ⟨left, right⟩
      simp [single.mpr left, left, right]
    · have right := touched.resolve_left left
      simp [single, left, right]

theorem untouched_value (base : List Node) {side : Side} (untouched : ¬group.touches side) :
    group.value base side = slice base group.start group.stop := by
  have none : group.changes.filter (·.side = side) = [] := not_not.mp untouched
  rw [Group.value, none, List.mergeSort_nil, rebuild]

variable {κ : Type*} [DecidableEq κ] (canonical : Node → κ)

/-- The opcodes a merge is made from. -/
abbrev sideOpcodes (base original fork : List Node) (side : Side) : List Opcode :=
  getOpcodes (base.map canonical) ((sides original fork side).map canonical)

theorem sideOpcodes_gaps (base original fork : List Node) (side : Side) :
    Gaps (base.map canonical) ((sides original fork side).map canonical) 0 0
      (changes (sideOpcodes canonical base original fork side)) :=
  (getOpcodes_script _ _).gaps

theorem touched_differs {base original fork : List Node} {side : Side}
    (member : group ∈ groupChanges (sortedChanges (sideOpcodes canonical base original fork) (sides original fork)))
    (touched : group.touches side) :
    (group.value base side).map canonical ≠ (slice base group.start group.stop).map canonical := by
  have gaps := sideOpcodes_gaps canonical base original fork
  obtain ⟨layout, whole, sorted⟩ := merge_layout canonical (sides original fork) gaps
  have own := filter_sortedChanges (sides original fork) gaps side
  rw [← whole] at sorted own
  obtain ⟨before, middle, after, parts, mine, behind, within, ahead⟩ := group_parts layout member own
  have order := (layout.bounds group member).2.order
  have inside := layout.inside.2 group member
  have size : (base.map canonical).length = base.length := List.length_map ..
  have changed : middle ≠ [] := by
    intro none
    rw [none] at mine
    exact touched mine
  have fromZero := gaps side
  rw [parts, List.append_assoc] at fromZero
  have beyond : ∀ opcode ∈ middle ++ after, group.start ≤ opcode.i1 := by
    intro opcode found
    rcases List.mem_append.mp found with found | found
    · exact (within opcode found).1
    · exact Nat.le_trans order (ahead opcode found)
  have fromStart := fromZero.reroot (Nat.zero_le _) (by omega) behind beyond
  have rebuilt := rebuild_slice canonical side fromStart order inside (fun opcode found => (within opcode found).2)
    ahead
  rw [← image_append before middle behind (Nat.zero_le _) order, ← mine, ← value_eq (group_sorted sorted member)] at rebuilt
  rw [rebuilt, map_slice]
  exact getOpcodes_tight parts changed order (by omega) behind within ahead

/-- A part differs from the base, up to the rendering of blocks. -/
def Segment.Differs (segment : Segment) (side : Side) : Prop :=
  (segment.part side).map canonical ≠ segment.base.map canonical

/-- What the kind of a segment says about its parts. -/
structure Segment.Classified (segment : Segment) : Prop where
  originalOnly : segment.kind? = some .originalOnly → segment.part .fork = segment.base
  forkOnly : segment.kind? = some .forkOnly → segment.part .original = segment.base
  conflict : segment.kind? = some .conflict ↔ segment.Differs canonical .original ∧ segment.Differs canonical .fork ∧
    sameNodes (segment.part .original) (segment.part .fork) = false
  /-- A segment without conflict resolves to the sides that differ, or to the base. -/
  resolved : segment.kind? ≠ some .conflict → ∀ choice,
    (segment.Differs canonical .fork → segment.resolve choice = segment.part .fork) ∧
    (segment.Differs canonical .original → segment.resolve choice = segment.part .original ∨
      sameNodes (segment.part .original) (segment.resolve choice) = true) ∧
    (¬segment.Differs canonical .original → ¬segment.Differs canonical .fork → segment.resolve choice = segment.base)

theorem blockMerge_classified (base original fork : List Node) :
    ∀ segment ∈ blockMerge canonical base original fork, segment.Classified canonical := by
  intro segment member
  rcases mem_segments member with ⟨nodes, rfl⟩ | ⟨group, found, rfl⟩
  · have same (side : Side) : ¬(Segment.unchanged nodes).Differs canonical side := fun differs => differs rfl
    refine ⟨nofun, nofun, by simp [Segment.kind?, same], fun _ choice => ⟨fun differs => absurd differs (same _),
      fun differs => absurd differs (same _), fun _ _ => rfl⟩⟩
  · have well := ((merge_layout canonical _ (sideOpcodes_gaps canonical base original fork)).1.bounds group found).2
    have differs (side : Side) : (group.segment base).Differs canonical side ↔ group.touches side := by
      constructor
      · intro differs
        by_contra untouched
        apply differs
        cases side <;> simp [Group.segment, Segment.part, Segment.base, sides, untouched_value base untouched]
      · intro touched
        have differs := touched_differs canonical found touched
        cases side <;> exact differs
    have kept {side : Side} (untouched : ¬group.touches side) := untouched_value base untouched
    rcases well.kind_cases base with ⟨kind, left, right, same⟩ | ⟨kind, left, right, same⟩ | ⟨kind, left, right⟩ |
      ⟨kind, left, right⟩
    all_goals
      refine ⟨?_, ?_, ?_, fun plain choice => ?_⟩
      all_goals try simp only [differs, left, right]
    all_goals simp only [Group.segment, kind, Segment.kind?, Segment.part, Segment.base, Segment.resolve, sides] at *
    · simp
    · simp
    · simp [same]
    · simp at plain
    · simp
    · simp
    · simp [same]
    · simp [same]
    · simp [kept right]
    · simp
    · simp
    · simp
    · simp
    · simp [kept left]
    · simp
    · simp

end NovelStudio.Manuscript.BlockMerge
