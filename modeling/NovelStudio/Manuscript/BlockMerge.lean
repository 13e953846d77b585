import NovelStudio.Library.Json
import NovelStudio.Library.Opcodes

/-! The three-way merge of rich blocks in `project_forks.block_merge`, and how a
comparison assembles a document from its segments. -/

namespace NovelStudio.Manuscript.BlockMerge

open Library Library.SequenceMatcher

inductive Side where
  | original | fork
  deriving DecidableEq

namespace Side

def swap : Side → Side
  | .original => .fork
  | .fork => .original

/-- Sides sort by their names, `FORK` before `ORIGINAL`. -/
def rank : Side → Nat
  | .fork => 0
  | .original => 1

end Side

structure Node where
  json : Json
  distinct : json.distinct = true

theorem distinctItems_nodes (nodes : List Node) : Json.distinctItems (nodes.map Node.json) = true := by
  induction nodes with
  | nil => rfl
  | cons node rest ih => rw [List.map_cons, Json.distinctItems, node.distinct, ih, Bool.and_self]

/-- `left == right` of two lists of blocks. -/
def sameNodes (left right : List Node) : Bool := Json.eqItems (left.map Node.json) (right.map Node.json)

structure Change where
  side : Side
  a : Nat
  b : Nat
  nodes : List Node

/-- The order of the sort key `(a, b, side)`. -/
def Change.le (left right : Change) : Bool :=
  left.a < right.a || (left.a = right.a && (left.b < right.b || (left.b = right.b && left.side.rank ≤ right.side.rank)))

structure Group where
  start : Nat
  stop : Nat
  changes : List Change

inductive Kind where
  | conflict | bothSame | originalOnly | forkOnly
  deriving DecidableEq

inductive Segment where
  | unchanged (nodes : List Node)
  | changed (kind : Kind) (start stop : Nat) (base original fork : List Node)

def toChange (side : Side) (value : List Node) (opcode : Opcode) : Change :=
  ⟨side, opcode.i1, opcode.i2, slice value opcode.j1 opcode.j2⟩

/-- Whether a change opens a group of its own behind the last one. -/
def separate (last : Group) (change : Change) : Bool :=
  last.stop < change.a ||
    (change.a = last.stop && change.a ≠ change.b && last.changes.all fun other => other.a ≠ other.b)

/-- One round of the grouping loop; the newest group comes first. -/
def addChange (groups : List Group) (change : Change) : List Group :=
  match groups with
  | [] => [⟨change.a, change.b, [change]⟩]
  | last :: earlier =>
    if separate last change then ⟨change.a, change.b, [change]⟩ :: last :: earlier
    else ⟨last.start, max last.stop change.b, last.changes ++ [change]⟩ :: earlier

def groupChanges (changes : List Change) : List Group := (changes.foldl addChange []).reverse

/-- The blocks of one side between two positions of the base. -/
def rebuild (base : List Node) (cursor : Nat) (changes : List Change) (stop : Nat) : List Node :=
  match changes with
  | [] => slice base cursor stop
  | change :: rest => slice base cursor change.a ++ change.nodes ++ rebuild base change.b rest stop

def Group.value (base : List Node) (group : Group) (side : Side) : List Node :=
  let own := (group.changes.filter (·.side = side)).mergeSort fun left right => left.a ≤ right.a
  rebuild base group.start own group.stop

def Group.both (group : Group) : Bool :=
  group.changes.any (·.side = .original) && group.changes.any (·.side = .fork)

def Group.kind (base : List Node) (group : Group) : Kind :=
  if group.both && !sameNodes (group.value base .original) (group.value base .fork) then .conflict
  else if group.both then .bothSame
  else if group.changes.head?.map Change.side = some .original then .originalOnly
  else .forkOnly

def Group.segment (base : List Node) (group : Group) : Segment :=
  .changed (group.kind base) group.start group.stop (slice base group.start group.stop)
    (group.value base .original) (group.value base .fork)

def unchanged (base : List Node) (position stop : Nat) : List Segment :=
  if position < stop then [.unchanged (slice base position stop)] else []

/-- The segments from a position of the base on. -/
def segments (base : List Node) (position : Nat) : List Group → List Segment
  | [] => unchanged base position base.length
  | group :: rest => unchanged base position group.start ++ group.segment base :: segments base group.stop rest

def sortedChanges (opcodes : Side → List Opcode) (value : Side → List Node) : List Change :=
  List.mergeSort ([Side.original, .fork].flatMap fun side => (changes (opcodes side)).map (toChange side (value side)))
    Change.le

/-- The merge under given opcodes for the two sides. -/
def mergeBy (opcodes : Side → List Opcode) (base : List Node) (value : Side → List Node) : List Segment :=
  segments base 0 (groupChanges (sortedChanges opcodes value))

def sides (original fork : List Node) : Side → List Node
  | .original => original
  | .fork => fork

variable {κ : Type*} [DecidableEq κ]

/-- `block_merge`, for any rendering `canonical` of a block. -/
def blockMerge (canonical : Node → κ) (base original fork : List Node) : List Segment :=
  mergeBy (fun side => getOpcodes (base.map canonical) ((sides original fork side).map canonical)) base
    (sides original fork)

namespace Segment

def base : Segment → List Node
  | .unchanged nodes => nodes
  | .changed _ _ _ base _ _ => base

def part (side : Side) : Segment → List Node
  | .unchanged nodes => nodes
  | .changed _ _ _ _ original fork => sides original fork side

def kind? : Segment → Option Kind
  | .unchanged _ => none
  | .changed kind .. => some kind

/-- What a comparison takes of a segment, given the choice for a conflict. -/
def resolve (choice : Option Side) : Segment → List Node
  | .unchanged nodes => nodes
  | .changed .conflict _ _ _ original fork => sides original fork (choice.getD .original)
  | .changed .bothSame _ _ _ _ fork | .changed .forkOnly _ _ _ _ fork => fork
  | .changed .originalOnly _ _ _ original _ => original

end Segment

def Kind.swap : Kind → Kind
  | .originalOnly => .forkOnly
  | .forkOnly => .originalOnly
  | kind => kind

/-- The same segment with the two sides and their labels exchanged. -/
def Segment.swap : Segment → Segment
  | .unchanged nodes => .unchanged nodes
  | .changed kind start stop base original fork => .changed kind.swap start stop base fork original

end NovelStudio.Manuscript.BlockMerge

/-! The groups of a merge: they hold every change once, in order, and lie apart. -/

namespace NovelStudio.Manuscript.BlockMerge

open Library Library.SequenceMatcher

/-- A group reaches exactly from its first change to the furthest end. -/
structure Group.Well (group : Group) : Prop where
  opened : ∃ change ∈ group.changes, change.a = group.start
  closed : ∃ change ∈ group.changes, change.b = group.stop
  inside : ∀ change ∈ group.changes, group.start ≤ change.a ∧ change.a ≤ change.b ∧ change.b ≤ group.stop

theorem Group.Well.order {group : Group} (well : group.Well) : group.start ≤ group.stop := by
  obtain ⟨change, member, opens⟩ := well.opened
  have bounds := well.inside change member
  omega

/-- What the grouping loop has made of the changes so far, newest group first. -/
structure Grouped (changes : List Change) (groups : List Group) : Prop where
  whole : groups.reverse.flatMap Group.changes = changes
  order : groups.Pairwise fun later earlier => earlier.stop ≤ later.start
  well : ∀ group ∈ groups, group.Well

theorem well_single (change : Change) (order : change.a ≤ change.b) : Group.Well ⟨change.a, change.b, [change]⟩ :=
  ⟨⟨change, List.mem_singleton_self _, rfl⟩, ⟨change, List.mem_singleton_self _, rfl⟩, by simpa using order⟩

theorem Group.Well.join {group : Group} (well : group.Well) (behind : ∀ other ∈ group.changes, other.a ≤ change.a)
    (order : change.a ≤ change.b) :
    Group.Well ⟨group.start, max group.stop change.b, group.changes ++ [change]⟩ := by
  obtain ⟨first, here, opens⟩ := well.opened
  obtain ⟨last, there, closes⟩ := well.closed
  refine ⟨⟨first, List.mem_append_left _ here, opens⟩, ?_, fun other member => ?_⟩
  · rcases Nat.le_total group.stop change.b with further | enough
    · exact ⟨change, by simp, by simp only; omega⟩
    · exact ⟨last, List.mem_append_left _ there, by simp only; omega⟩
  · rcases List.mem_append.mp member with member | member
    · have bounds := well.inside other member
      simp only
      omega
    · rw [List.mem_singleton] at member
      have first := behind first here
      simp only [member]
      omega

variable {changes : List Change}

theorem Grouped.mem (grouped : Grouped changes groups) :
    change ∈ changes ↔ ∃ group ∈ groups, change ∈ group.changes := by
  rw [← grouped.whole, List.mem_flatMap]
  simp only [List.mem_reverse]

theorem Grouped.addChange (grouped : Grouped changes groups)
    (behind : ∀ other ∈ changes, other.a ≤ change.a) (order : change.a ≤ change.b) :
    Grouped (changes ++ [change]) (addChange groups change) := by
  obtain ⟨whole, apart, well⟩ := grouped
  cases groups with
  | nil => exact ⟨by simpa [BlockMerge.addChange] using whole, List.pairwise_singleton .., by
      simpa [BlockMerge.addChange] using well_single change order⟩
  | cons last earlier =>
    have lastWell := well last (List.mem_cons_self ..)
    have before : ∀ other ∈ last.changes, other.a ≤ change.a := fun other member =>
      behind other (by rw [← whole]; simp [member])
    simp only [BlockMerge.addChange]
    split
    · rename_i split
      have past : last.stop ≤ change.a := by
        simp only [separate, Bool.or_eq_true, Bool.and_eq_true, decide_eq_true_eq] at split
        omega
      refine ⟨by simp [← whole], List.pairwise_cons.mpr ⟨fun group member => ?_, apart⟩, fun group member => ?_⟩
      · rcases List.mem_cons.mp member with rfl | member
        · exact past
        · have behind := List.rel_of_pairwise_cons apart member
          have order := lastWell.order
          simp only
          omega
      · rcases List.mem_cons.mp member with rfl | member
        · exact well_single change order
        · exact well group member
    · refine ⟨by simp [← whole], ?_, fun group member => ?_⟩
      · rw [List.pairwise_cons] at apart ⊢
        exact apart
      · rcases List.mem_cons.mp member with rfl | member
        · exact lastWell.join before order
        · exact well group (List.mem_cons_of_mem _ member)

theorem Grouped.run {rest done : List Change} (grouped : Grouped done groups)
    (sorted : (done ++ rest).Pairwise fun left right => left.a ≤ right.a) (order : ∀ change ∈ rest, change.a ≤ change.b) :
    Grouped (done ++ rest) (rest.foldl BlockMerge.addChange groups) := by
  induction rest generalizing done groups with
  | nil => simpa using grouped
  | cons change rest ih =>
    have behind : ∀ other ∈ done, other.a ≤ change.a := fun other member =>
      (List.pairwise_append.mp sorted).2.2 other member change (List.mem_cons_self ..)
    have step := grouped.addChange behind (order change (List.mem_cons_self ..))
    have whole : done ++ change :: rest = done ++ [change] ++ rest := by simp
    rw [whole] at sorted ⊢
    exact ih step sorted fun other member => order other (List.mem_cons_of_mem _ member)

/-- Groups in order, from a position of the base on. -/
inductive Layout (size : Nat) : Nat → List Group → Prop where
  | done (inside : position ≤ size) : Layout size position []
  | group (before : position ≤ group.start) (well : group.Well) (rest : Layout size group.stop groups) :
      Layout size position (group :: groups)

theorem Layout.bounds (layout : Layout size position groups) :
    ∀ group ∈ groups, position ≤ group.start ∧ group.Well := by
  induction layout with
  | done inside => simp
  | group before well rest ih =>
    intro other member
    rcases List.mem_cons.mp member with rfl | member
    · exact ⟨before, well⟩
    · have order := well.order
      obtain ⟨behind, otherWell⟩ := ih other member
      exact ⟨by omega, otherWell⟩

theorem Layout.inside (layout : Layout size position groups) :
    position ≤ size ∧ ∀ group ∈ groups, group.stop ≤ size := by
  induction layout with
  | done inside => exact ⟨inside, by simp⟩
  | group before well rest ih =>
    have order := well.order
    refine ⟨by omega, fun other member => ?_⟩
    rcases List.mem_cons.mp member with rfl | member
    · exact ih.1
    · exact ih.2 other member

theorem layout_of_pairwise {size : Nat} {groups : List Group} (start : position ≤ size)
    (before : ∀ group ∈ groups, position ≤ group.start) (inside : ∀ group ∈ groups, group.stop ≤ size)
    (apart : groups.Pairwise fun earlier later => earlier.stop ≤ later.start) (well : ∀ group ∈ groups, group.Well) :
    Layout size position groups := by
  induction groups generalizing position with
  | nil => exact .done start
  | cons group groups ih =>
    rw [List.pairwise_cons] at apart
    refine .group (before group (List.mem_cons_self ..)) (well group (List.mem_cons_self ..)) ?_
    exact ih (inside group (List.mem_cons_self ..)) apart.1 (fun other member => inside other (List.mem_cons_of_mem _ member))
      apart.2 fun other member => well other (List.mem_cons_of_mem _ member)

theorem groupChanges_layout (sorted : changes.Pairwise fun left right => left.a ≤ right.a)
    (order : ∀ change ∈ changes, change.a ≤ change.b ∧ change.b ≤ size) :
    Layout size 0 (groupChanges changes) ∧ (groupChanges changes).flatMap Group.changes = changes := by
  have empty : Grouped [] [] := ⟨rfl, .nil, by simp⟩
  have grouped := empty.run sorted fun change member => (order change member).1
  rw [List.nil_append] at grouped
  refine ⟨layout_of_pairwise (Nat.zero_le _) (fun _ _ => Nat.zero_le _) (fun group member => ?_) ?_ fun group member => ?_,
    grouped.whole⟩
  · have member := List.mem_reverse.mp member
    obtain ⟨change, here, closes⟩ := (grouped.well group member).closed
    rw [← closes]
    exact (order change (grouped.mem.mpr ⟨group, member, here⟩)).2
  · exact List.pairwise_reverse.mpr grouped.order
  · exact grouped.well group (List.mem_reverse.mp member)

end NovelStudio.Manuscript.BlockMerge
