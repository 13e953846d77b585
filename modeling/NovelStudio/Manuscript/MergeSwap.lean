import NovelStudio.Manuscript.MergeLossless

/-! Exchanging the sides of a merge exchanges the sides of its segments. The sort puts
changes of one place in the order of their sides, so the groups of the exchanged merge
may hold such changes in the other order, but they are the same groups. -/

namespace NovelStudio.Manuscript.BlockMerge

open Library Library.SequenceMatcher

def Change.swap (change : Change) : Change := { change with side := change.side.swap }

/-- What the segment of a group depends on: its reach, and the changes of each side. -/
def Group.split (group : Group) : Nat × Nat × List Change × List Change :=
  (group.start, group.stop, group.changes.filter (·.side = .original), group.changes.filter (·.side = .fork))

def Group.swap (group : Group) : Group := { group with changes := group.changes.map Change.swap }

theorem Group.filter_of_split {left right : Group} (same : left.split = right.split) (side : Side) :
    left.changes.filter (·.side = side) = right.changes.filter (·.side = side) := by
  simp only [split, Prod.mk.injEq] at same
  cases side with
  | original => exact same.2.2.1
  | fork => exact same.2.2.2

theorem Group.mem_of_split {left right : Group} (same : left.split = right.split) (change : Change) :
    change ∈ left.changes ↔ change ∈ right.changes := by
  have kept (group : Group) : change ∈ group.changes ↔ change ∈ group.changes.filter (·.side = change.side) := by
    simp [List.mem_filter]
  rw [kept left, kept right, Group.filter_of_split same]

theorem separate_of_split {left right : Group} (same : left.split = right.split) (change : Change) :
    separate left change = separate right change := by
  have members : (left.changes.all fun other => other.a ≠ other.b) = right.changes.all fun other => other.a ≠ other.b := by
    rw [Bool.eq_iff_iff, List.all_eq_true, List.all_eq_true]
    exact forall_congr' fun other => by rw [Group.mem_of_split same]
  have stop : left.stop = right.stop := by
    simp only [Group.split, Prod.mk.injEq] at same
    exact same.2.1
  rw [separate, separate, stop, members]

theorem split_addChange {left right : List Group} (same : left.map Group.split = right.map Group.split) (change : Change) :
    (addChange left change).map Group.split = (addChange right change).map Group.split := by
  cases left with
  | nil =>
    cases right with
    | nil => rfl
    | cons other rest => simp at same
  | cons last earlier =>
    cases right with
    | nil => simp at same
    | cons other rest =>
      rw [List.map_cons, List.map_cons, List.cons.injEq] at same
      obtain ⟨head, tail⟩ := same
      have original := Group.filter_of_split head .original
      have fork := Group.filter_of_split head .fork
      have parts := head
      simp only [Group.split, Prod.mk.injEq] at parts
      simp only [addChange, separate_of_split head]
      split
      · rw [List.map_cons, List.map_cons, List.map_cons, List.map_cons, head, tail]
      · simp only [List.map_cons, tail, Group.split, List.filter_append, original, fork, parts.1, parts.2.1]

theorem split_foldl {left right : List Group} (same : left.map Group.split = right.map Group.split)
    (changes : List Change) :
    (changes.foldl addChange left).map Group.split = (changes.foldl addChange right).map Group.split := by
  induction changes generalizing left right with
  | nil => exact same
  | cons change rest ih => exact ih (split_addChange same change)

/-- Two changes of one place, from different sides. -/
structure SamePlace (left right : Change) : Prop where
  a : left.a = right.a
  b : left.b = right.b
  order : left.a ≤ left.b
  sides : left.side ≠ right.side

theorem SamePlace.filter {left right : Change} (place : SamePlace left right) (side : Side) :
    [left, right].filter (·.side = side) = [right, left].filter (·.side = side) := by
  by_cases first : left.side = side
  · have second : right.side ≠ side := fun second => place.sides (first.trans second.symm)
    simp [first, second]
  · by_cases second : right.side = side <;> simp [first, second]

theorem SamePlace.addChange {left right : Change} (place : SamePlace left right) (groups : List Group) :
    (addChange (addChange groups left) right).map Group.split =
      (addChange (addChange groups right) left).map Group.split := by
  have joins (group : Group) (change other : Change) (reach : other.b ≤ group.stop) (a : change.a = other.a)
      (b : change.b = other.b) (order : other.a ≤ other.b) : separate group change = false := by
    simp only [separate, Bool.or_eq_false_iff, decide_eq_false_iff_not, Bool.and_eq_false_iff]
    refine ⟨by omega, ?_⟩
    by_cases point : change.a = group.stop
    · exact .inl (.inr (by simp only [ne_eq, not_not]; omega))
    · exact .inl (.inl point)
  have both (side : Side) := place.filter side
  obtain ⟨a, b, order, sides⟩ := place
  cases groups with
  | nil =>
    simp only [BlockMerge.addChange]
    rw [joins _ right left (by simp) a.symm b.symm order, joins _ left right (by simp) a b (by omega)]
    simp only [Bool.false_eq_true, if_false, List.map_cons, Group.split, List.singleton_append, both, a, b]
  | cons last earlier =>
    have same : separate last left = separate last right := by rw [separate, separate, a, b]
    cases apart : separate last right with
    | true =>
      simp only [BlockMerge.addChange, same, apart, if_true]
      rw [joins _ right left (by simp) a.symm b.symm order, joins _ left right (by simp) a b (by omega)]
      simp only [Bool.false_eq_true, if_false, List.map_cons, Group.split, List.singleton_append, both, a, b]
    | false =>
      simp only [BlockMerge.addChange, same, apart, Bool.false_eq_true, if_false]
      rw [joins _ right left (Nat.le_max_right ..) a.symm b.symm order,
        joins _ left right (Nat.le_max_right ..) a b (by omega)]
      simp only [Bool.false_eq_true, if_false, List.map_cons, Group.split, List.append_assoc, List.singleton_append,
        List.filter_append, both, a, b]

/-- Lists of changes that differ in the order of changes of one place. -/
inductive Tied : List Change → List Change → Prop where
  | nil : Tied [] []
  | cons (change : Change) (rest : Tied left right) : Tied (change :: left) (change :: right)
  | swap (place : SamePlace first second) (rest : List Change) : Tied (first :: second :: rest) (second :: first :: rest)
  | trans (left : Tied first second) (right : Tied second third) : Tied first third

theorem Tied.foldl {left right : List Change} (tied : Tied left right) (groups : List Group) :
    (left.foldl BlockMerge.addChange groups).map Group.split = (right.foldl BlockMerge.addChange groups).map Group.split := by
  induction tied generalizing groups with
  | nil => rfl
  | cons change rest ih => exact ih _
  | swap place rest => exact split_foldl (place.addChange groups) rest
  | trans left right first second => exact (first groups).trans (second groups)

/-- The order of the places of changes. -/
def Before (left right : Change) : Prop := left.a < right.a ∨ (left.a = right.a ∧ left.b ≤ right.b)

theorem tied_bubble {pre : List Change} (places : ∀ other ∈ pre, SamePlace other change) (post : List Change) :
    Tied (pre ++ change :: post) (change :: (pre ++ post)) := by
  have refl (changes : List Change) : Tied changes changes := by
    induction changes with
    | nil => exact .nil
    | cons other rest ih => exact .cons other ih
  induction pre with
  | nil => exact refl _
  | cons other pre ih =>
    have moved := ih fun another member => places another (List.mem_cons_of_mem _ member)
    exact .trans (.cons other moved) (.swap (places other (List.mem_cons_self ..)) _)

theorem mem_of_filters {left right : List Change}
    (same : ∀ side, left.filter (·.side = side) = right.filter (·.side = side)) (change : Change) :
    change ∈ left ↔ change ∈ right := by
  have kept (changes : List Change) : change ∈ changes ↔ change ∈ changes.filter (·.side = change.side) := by
    simp [List.mem_filter]
  rw [kept left, kept right, same]

theorem tied_of_filters {left right : List Change} (first : left.Pairwise Before) (second : right.Pairwise Before)
    (order : ∀ change ∈ right, change.a ≤ change.b)
    (same : ∀ side, left.filter (·.side = side) = right.filter (·.side = side)) : Tied left right := by
  induction right generalizing left with
  | nil =>
    have empty : left = [] := List.eq_nil_iff_forall_not_mem.mpr fun change member =>
      nomatch (mem_of_filters same change).mp member
    rw [empty]
    exact .nil
  | cons change right ih =>
    have head := same change.side
    rw [List.filter_cons_of_pos (by simp), List.filter_eq_cons_iff] at head
    obtain ⟨pre, post, rfl, skipped, _, later⟩ := head
    rw [List.pairwise_cons] at second
    have places : ∀ other ∈ pre, SamePlace other change := by
      intro other member
      have differs : other.side ≠ change.side := by simpa using skipped other member
      have ahead := (List.pairwise_append.mp first).2.2 other member change (List.mem_cons_self ..)
      have there := (mem_of_filters same other).mp (List.mem_append_left _ member)
      rcases List.mem_cons.mp there with rfl | there
      · exact absurd rfl differs
      · have behind := second.1 other there
        have bounds := order change (List.mem_cons_self ..)
        unfold Before at ahead behind
        exact ⟨by omega, by omega, by omega, differs⟩
    refine .trans (tied_bubble places post) (.cons change (ih ?_ second.2 ?_ fun side => ?_))
    · exact first.sublist (List.Sublist.append_left (List.sublist_cons_self ..) pre)
    · exact fun other member => order other (List.mem_cons_of_mem _ member)
    · have whole := same side
      by_cases own : change.side = side
      · subst own
        have none : pre.filter (·.side = change.side) = [] := List.filter_eq_nil_iff.mpr skipped
        rw [List.filter_append, none, later, List.nil_append]
      · simpa [List.filter_append, own] using whole

theorem filter_swap (changes : List Change) (side : Side) :
    (changes.map Change.swap).filter (·.side = side) = (changes.filter (·.side = side.swap)).map Change.swap := by
  have swapped (change : Change) : (change.swap.side = side) = (change.side = side.swap) := by
    cases change with
    | mk own a b nodes => cases own <;> cases side <;> simp [Change.swap, Side.swap]
  simp only [List.filter_map, Function.comp_def, swapped]

theorem addChange_swap (groups : List Group) (change : Change) :
    addChange (groups.map Group.swap) change.swap = (addChange groups change).map Group.swap := by
  cases groups with
  | nil => rfl
  | cons last earlier =>
    have same : separate last.swap change.swap = separate last change := by
      rw [separate, separate]
      simp only [Group.swap, Change.swap, List.all_map, Function.comp_def]
      rfl
    simp only [List.map_cons, addChange, same]
    split
    · rfl
    · simp [Group.swap, Change.swap]

theorem groupChanges_swap (changes : List Change) :
    groupChanges (changes.map Change.swap) = (groupChanges changes).map Group.swap := by
  have run (groups : List Group) : (changes.map Change.swap).foldl addChange (groups.map Group.swap) =
      (changes.foldl addChange groups).map Group.swap := by
    induction changes generalizing groups with
    | nil => rfl
    | cons change rest ih =>
      rw [List.map_cons, List.foldl_cons, addChange_swap, ih, List.foldl_cons]
  rw [groupChanges, groupChanges, List.map_reverse, ← run []]
  rfl

theorem rebuild_swap (base : List Node) (cursor : Nat) (changes : List Change) (stop : Nat) :
    rebuild base cursor (changes.map Change.swap) stop = rebuild base cursor changes stop := by
  induction changes generalizing cursor with
  | nil => rfl
  | cons change rest ih =>
    rw [List.map_cons, rebuild, rebuild, ← ih]
    rfl

theorem sameNodes_symm (left right : List Node) : sameNodes left right = sameNodes right left := by
  rw [Bool.eq_iff_iff]
  exact ⟨Json.eqItems_symm _ _ (distinctItems_nodes left) (distinctItems_nodes right),
    Json.eqItems_symm _ _ (distinctItems_nodes right) (distinctItems_nodes left)⟩

section Exchange

variable {left right : Group}

/-- Two groups that hold the same changes with the sides exchanged. -/
structure Exchanged (left right : Group) : Prop where
  split : left.split = right.swap.split
  well : left.Well
  well' : right.Well
  sorted : left.changes.Pairwise fun first second => first.a ≤ second.a
  sorted' : right.changes.Pairwise fun first second => first.a ≤ second.a

theorem Exchanged.reach (exchanged : Exchanged left right) : left.start = right.start ∧ left.stop = right.stop := by
  have same := exchanged.split
  simp only [Group.split, Prod.mk.injEq] at same
  exact ⟨same.1, same.2.1⟩

theorem Exchanged.filter (exchanged : Exchanged left right) (side : Side) :
    left.changes.filter (·.side = side) = (right.changes.filter (·.side = side.swap)).map Change.swap := by
  rw [Group.filter_of_split exchanged.split, ← filter_swap]
  rfl

theorem Exchanged.value (exchanged : Exchanged left right) (base : List Node) (side : Side) :
    left.value base side = right.value base side.swap := by
  rw [value_eq exchanged.sorted, value_eq exchanged.sorted', exchanged.filter, rebuild_swap, exchanged.reach.1,
    exchanged.reach.2]

theorem Exchanged.touches (exchanged : Exchanged left right) (side : Side) :
    left.touches side ↔ right.touches side.swap := by
  rw [Group.touches, Group.touches, exchanged.filter, ne_eq, List.map_eq_nil_iff]

theorem Exchanged.kind (exchanged : Exchanged left right) (base : List Node) :
    left.kind base = (right.kind base).swap := by
  have original := exchanged.touches .original
  have fork := exchanged.touches .fork
  have same : sameNodes (left.value base .original) (left.value base .fork) =
      sameNodes (right.value base .original) (right.value base .fork) := by
    rw [exchanged.value, exchanged.value, sameNodes_symm]
    rfl
  simp only [Side.swap] at original fork
  rcases exchanged.well.kind_cases base with first | first | first | first <;>
    rcases exchanged.well'.kind_cases base with second | second | second | second <;>
    simp_all [Kind.swap]

theorem Exchanged.segment (exchanged : Exchanged left right) (base : List Node) :
    left.segment base = (right.segment base).swap := by
  rw [Group.segment, Group.segment, Segment.swap, exchanged.kind, exchanged.value, exchanged.value, exchanged.reach.1,
    exchanged.reach.2]
  rfl

theorem segments_exchanged {lefts rights : List Group} (exchanged : List.Forall₂ Exchanged lefts rights)
    (base : List Node) (position : Nat) :
    segments base position lefts = (segments base position rights).map Segment.swap := by
  have plain (start stop : Nat) : (unchanged base start stop).map Segment.swap = unchanged base start stop := by
    unfold unchanged
    split <;> rfl
  induction exchanged generalizing position with
  | nil => exact (plain ..).symm
  | cons head tail ih =>
    rw [segments, segments, List.map_append, List.map_cons, plain, head.segment, head.reach.1, head.reach.2, ih]

end Exchange

variable {κ : Type*} [DecidableEq κ] (canonical : Node → κ)

theorem sorted_before {changes : List Change} (sorted : changes.Pairwise fun left right => left.le right = true) :
    changes.Pairwise Before :=
  sorted.imp fun order => by
    rw [Change.le_iff] at order
    unfold Before
    omega

theorem exchanged_of_split {lefts rights : List Group} (same : lefts.map Group.split = rights.map (Group.split ∘ Group.swap))
    (first : ∀ group ∈ lefts, group.Well ∧ group.changes.Pairwise fun left right => left.a ≤ right.a)
    (second : ∀ group ∈ rights, group.Well ∧ group.changes.Pairwise fun left right => left.a ≤ right.a) :
    List.Forall₂ Exchanged lefts rights := by
  induction lefts generalizing rights with
  | nil =>
    cases rights with
    | nil => exact .nil
    | cons right rights => simp at same
  | cons left lefts ih =>
    cases rights with
    | nil => simp at same
    | cons right rights =>
      rw [List.map_cons, List.map_cons, List.cons.injEq] at same
      rw [List.forall_mem_cons] at first second
      exact .cons ⟨same.1, first.1.1, second.1.1, first.1.2, second.1.2⟩ (ih same.2 first.2 second.2)

theorem groups_well (base original fork : List Node) :
    ∀ group ∈ groupChanges (sortedChanges (sideOpcodes canonical base original fork) (sides original fork)),
      group.Well ∧ group.changes.Pairwise fun left right => left.a ≤ right.a := by
  obtain ⟨layout, whole, sorted⟩ :=
    merge_layout canonical (sides original fork) (sideOpcodes_gaps canonical base original fork)
  rw [← whole] at sorted
  exact fun group member => ⟨(layout.bounds group member).2, group_sorted sorted member⟩

theorem sortedChanges_swap (base original fork : List Node) :
    Tied (sortedChanges (sideOpcodes canonical base fork original) (sides fork original))
      ((sortedChanges (sideOpcodes canonical base original fork) (sides original fork)).map Change.swap) := by
  have first := sideOpcodes_gaps canonical base original fork
  have second := sideOpcodes_gaps canonical base fork original
  have order := (merge_layout canonical (sides original fork) first).2.2
  refine tied_of_filters (sorted_before (sortedChanges_pairwise ..)) ?_ ?_ fun side => ?_
  · rw [List.pairwise_map]
    exact sorted_before (sortedChanges_pairwise ..)
  · intro change member
    obtain ⟨own, there, rfl⟩ := List.mem_map.mp member
    exact (sortedChanges_bounds canonical first own there).1
  · rw [filter_swap, filter_sortedChanges _ first, filter_sortedChanges _ second, List.map_map]
    cases side <;> rfl

theorem groups_exchanged (base original fork : List Node) :
    List.Forall₂ Exchanged
      (groupChanges (sortedChanges (sideOpcodes canonical base fork original) (sides fork original)))
      (groupChanges (sortedChanges (sideOpcodes canonical base original fork) (sides original fork))) := by
  refine exchanged_of_split ?_ (groups_well canonical base fork original) (groups_well canonical base original fork)
  rw [← List.map_map, ← groupChanges_swap, groupChanges, groupChanges, List.map_reverse, List.map_reverse,
    (sortedChanges_swap canonical base original fork).foldl]

theorem blockMerge_swap (base original fork : List Node) :
    blockMerge canonical base fork original = (blockMerge canonical base original fork).map Segment.swap :=
  segments_exchanged (groups_exchanged canonical base original fork) base 0

theorem changed_base {base : List Node} (member : .changed kind start stop part original fork ∈ segments base position groups) :
    part = slice base start stop := by
  rcases mem_segments member with ⟨nodes, same⟩ | ⟨group, _, same⟩
  · cases same
  · cases same
    rfl

end NovelStudio.Manuscript.BlockMerge
