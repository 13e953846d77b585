import Mathlib.Data.List.Nodup
import Mathlib.Logic.Relation
import NovelStudio.Library.Topological

/-! Searches of a graph with a stack: what was seen is skipped, what is new is seen and the nodes behind
it wait. A search that does not find its goal shows that an edge from there closes no cycle. -/

namespace NovelStudio.Library

variable {α : Type*} [DecidableEq α]

/-- The nodes right behind one, in the order of the edges. -/
def successors (edges : List (α × α)) (node : α) : List α := (edges.filter fun edge => edge.1 = node).map Prod.snd

variable {edges : List (α × α)}

theorem mem_successors {node next : α} : next ∈ successors edges node ↔ (node, next) ∈ edges := by
  rw [successors, List.mem_map]
  constructor
  · intro found
    obtain ⟨edge, member, same⟩ := found
    obtain ⟨listed, source⟩ := List.mem_filter.mp member
    rw [decide_eq_true_eq] at source
    rwa [← source, ← same]
  · intro edge
    exact ⟨(node, next), List.mem_filter.mpr ⟨edge, decide_eq_true rfl⟩, rfl⟩

/-- The edges whose sources were not seen. -/
def unseen (edges : List (α × α)) (seen : List α) : List (α × α) := edges.filter fun edge => edge.1 ∉ seen

theorem unseen_cons (edges : List (α × α)) {seen : List α} {node : α} (new : node ∉ seen) :
    (unseen edges (node :: seen)).length + (successors edges node).length = (unseen edges seen).length := by
  induction edges with
  | nil => rfl
  | cons edge edges ih =>
    unfold unseen successors at *
    rw [List.length_map] at *
    by_cases here : edge.1 = node
    · have left : edge.1 ∉ seen := here ▸ new
      rw [List.filter_cons_of_neg (by simp [here]), List.filter_cons_of_pos (by simp [here]), List.filter_cons_of_pos (by simp [left]),
        List.length_cons, List.length_cons]
      omega
    · rw [List.filter_cons_of_neg (p := fun edge : α × α => decide (edge.1 = node)) (by simp [here])]
      by_cases left : edge.1 ∈ seen
      · rw [List.filter_cons_of_neg (by simp [left]), List.filter_cons_of_neg (by simp [left]), ih]
      · rw [List.filter_cons_of_pos (by simp [here, left]), List.filter_cons_of_pos (by simp [left]), List.length_cons, List.length_cons]
        omega

/-- Whether a search from the waiting nodes, the top of the stack first, comes to its goal. -/
def reaches (edges : List (α × α)) (goal : α) (seen : List α) (pending : List α) : Bool :=
  match pending with
  | [] => false
  | node :: rest =>
    if node = goal then true
    else if node ∈ seen then reaches edges goal seen rest
    else reaches edges goal (node :: seen) ((successors edges node).reverse ++ rest)
termination_by (unseen edges seen).length + pending.length
decreasing_by
  · rw [List.length_cons]
    omega
  · rename_i new
    have fewer := unseen_cons edges new
    rw [List.length_append, List.length_reverse, List.length_cons]
    omega

theorem reaches_closed {goal : α} {seen pending : List α} (missed : reaches edges goal seen pending = false)
    (apart : goal ∉ seen) (known : ∀ node ∈ seen, ∀ next, (node, next) ∈ edges → next ∈ seen ∨ next ∈ pending) :
    ∃ held : List α, (∀ node ∈ pending, node ∈ held) ∧ (∀ node ∈ seen, node ∈ held) ∧ goal ∉ held ∧
      ∀ node ∈ held, ∀ next, (node, next) ∈ edges → next ∈ held := by
  fun_induction reaches edges goal seen pending with
  | case1 seen =>
    refine ⟨seen, nofun, fun node member => member, apart, ?_⟩
    intro node member next edge
    cases known node member next edge with
    | inl here => exact here
    | inr waits => cases waits
  | case2 => cases missed
  | case3 seen node rest other old ih =>
    obtain ⟨held, waits, here, none, closed⟩ := ih missed apart (by
      intro one member next edge
      cases known one member next edge with
      | inl inside => exact Or.inl inside
      | inr waits =>
        cases List.mem_cons.mp waits with
        | inl first => exact Or.inl (first ▸ old)
        | inr later => exact Or.inr later)
    refine ⟨held, ?_, here, none, closed⟩
    intro one member
    cases List.mem_cons.mp member with
    | inl first => exact first ▸ here node old
    | inr later => exact waits one later
  | case4 seen node rest other new ih =>
    obtain ⟨held, waits, here, none, closed⟩ := ih missed (by
        intro member
        cases List.mem_cons.mp member with
        | inl first => exact other first.symm
        | inr later => exact apart later) (by
      intro one member next edge
      cases List.mem_cons.mp member with
      | inl first =>
        subst first
        exact Or.inr (List.mem_append_left _ (List.mem_reverse.mpr (mem_successors.mpr edge)))
      | inr later =>
        cases known one later next edge with
        | inl inside => exact Or.inl (List.mem_cons_of_mem _ inside)
        | inr waits =>
          cases List.mem_cons.mp waits with
          | inl first => exact Or.inl (first ▸ List.mem_cons_self ..)
          | inr behind => exact Or.inr (List.mem_append_right _ behind))
    refine ⟨held, ?_, fun one member => here one (List.mem_cons_of_mem _ member), none, closed⟩
    intro one member
    cases List.mem_cons.mp member with
    | inl first => exact first ▸ here node (List.mem_cons_self ..)
    | inr later => exact waits one (List.mem_append_right _ later)

theorem not_reaches {start goal : α} (missed : reaches edges goal [] [start] = false) :
    ¬ Relation.ReflTransGen (Precedes edges) start goal := by
  obtain ⟨held, waits, -, none, closed⟩ := reaches_closed missed List.not_mem_nil nofun
  intro path
  have inside : ∀ {node}, Relation.ReflTransGen (Precedes edges) start node → node ∈ held := by
    intro node path
    induction path with
    | refl => exact waits start (List.mem_singleton.mpr rfl)
    | tail _ edge ih => exact closed _ ih _ edge
  exact none (inside path)

omit [DecidableEq α] in
theorem Acyclic.add {source target : α} (acyclic : Acyclic edges)
    (apart : ¬ Relation.ReflTransGen (Precedes edges) target source) : Acyclic (edges ++ [(source, target)]) := by
  have paths : ∀ {one two}, Relation.TransGen (Precedes (edges ++ [(source, target)])) one two →
      Relation.TransGen (Precedes edges) one two ∨
        (Relation.ReflTransGen (Precedes edges) one source ∧ Relation.ReflTransGen (Precedes edges) target two) := by
    intro one two path
    induction path with
    | single edge =>
      cases List.mem_append.mp edge with
      | inl old => exact Or.inl (.single old)
      | inr new =>
        obtain ⟨rfl, rfl⟩ := Prod.mk.inj (List.mem_singleton.mp new)
        exact Or.inr ⟨.refl, .refl⟩
    | tail _ edge ih =>
      cases List.mem_append.mp edge with
      | inl old =>
        cases ih with
        | inl before => exact Or.inl (before.tail old)
        | inr around => exact Or.inr ⟨around.1, around.2.tail old⟩
      | inr new =>
        obtain ⟨rfl, rfl⟩ := Prod.mk.inj (List.mem_singleton.mp new)
        cases ih with
        | inl before => exact Or.inr ⟨before.to_reflTransGen, .refl⟩
        | inr around => exact absurd around.2 apart
  intro node cycle
  cases paths cycle with
  | inl old => exact acyclic node old
  | inr around => exact apart (around.2.trans around.1)

end NovelStudio.Library

/-! The nodes from which a graph leads to some goals, found edge by edge with a stack of nodes that wait. -/

namespace NovelStudio.Library

variable {α : Type*} [DecidableEq α]

/-- What was reached, and what of it waits. -/
structure Climb (α : Type*) where
  waiting : List α
  reached : List α

/-- An edge into the node brings its source, unless that was reached. -/
def Climb.take (node : α) (state : Climb α) (edge : α × α) : Climb α :=
  if edge.2 = node ∧ edge.1 ∉ state.reached then ⟨edge.1 :: state.waiting, edge.1 :: state.reached⟩ else state

/-- What is reached after so many turns; each takes the first node that waits. -/
def climb (edges : List (α × α)) : Nat → Climb α → List α
  | 0, state => state.reached
  | turns + 1, state =>
    match state.waiting with
    | [] => state.reached
    | node :: waiting => climb edges turns (edges.foldl (Climb.take node) { state with waiting })

/-- An edge is taken at most once, which bounds the turns. -/
def ancestors (edges : List (α × α)) (goals : List α) : List α := climb edges (goals.length + edges.length) ⟨goals, goals⟩

/-- The turns that a loop still needs at most: one for each node that waits and for each edge whose source was not reached. -/
def Climb.turns (edges : List (α × α)) (state : Climb α) : Nat := state.waiting.length + (unseen edges state.reached).length

theorem Climb.turns_mk (edges : List (α × α)) (waiting reached : List α) :
    Climb.turns edges ⟨waiting, reached⟩ = waiting.length + (unseen edges reached).length := rfl

/-- All that waits was reached, and the edges into the other nodes reached were followed. -/
structure Climb.Followed (edges : List (α × α)) (state : Climb α) : Prop where
  waits : ∀ node ∈ state.waiting, node ∈ state.reached
  behind : ∀ edge ∈ edges, edge.2 ∈ state.reached → edge.2 ∈ state.waiting ∨ edge.1 ∈ state.reached

section Take

variable {node : α} {state : Climb α} {edge : α × α}

theorem Climb.take_new (into : edge.2 = node) (new : edge.1 ∉ state.reached) :
    state.take node edge = ⟨edge.1 :: state.waiting, edge.1 :: state.reached⟩ := if_pos ⟨into, new⟩

theorem Climb.take_cases (node : α) (state : Climb α) (edge : α × α) :
    (edge.2 = node ∧ edge.1 ∉ state.reached ∧ state.take node edge = ⟨edge.1 :: state.waiting, edge.1 :: state.reached⟩) ∨
      ((edge.2 = node → edge.1 ∈ state.reached) ∧ state.take node edge = state) := by
  by_cases into : edge.2 = node
  · by_cases new : edge.1 ∈ state.reached
    · exact Or.inr ⟨fun _ => new, if_neg fun both => both.2 new⟩
    · exact Or.inl ⟨into, new, take_new into new⟩
  · exact Or.inr ⟨fun here => absurd here into, if_neg fun both => into both.1⟩

theorem Climb.take_mono (node : α) (state : Climb α) (edge : α × α) :
    (∀ one ∈ state.reached, one ∈ (state.take node edge).reached) ∧ ∀ one ∈ state.waiting, one ∈ (state.take node edge).waiting := by
  obtain ⟨-, -, same⟩ | ⟨-, same⟩ := take_cases node state edge
  · rw [same]
    exact ⟨fun one member => List.mem_cons_of_mem _ member, fun one member => List.mem_cons_of_mem _ member⟩
  · rw [same]
    exact ⟨fun one member => member, fun one member => member⟩

end Take

section Turn

variable {node : α} {state : Climb α}

theorem Climb.turn_mono (edges : List (α × α)) (node : α) (state : Climb α) :
    (∀ one ∈ state.reached, one ∈ (edges.foldl (Climb.take node) state).reached) ∧
      ∀ one ∈ state.waiting, one ∈ (edges.foldl (Climb.take node) state).waiting := by
  induction edges generalizing state with
  | nil => exact ⟨fun one member => member, fun one member => member⟩
  | cons edge edges ih =>
    have first := Climb.take_mono node state edge
    have later := ih (state.take node edge)
    exact ⟨fun one member => later.1 one (first.1 one member), fun one member => later.2 one (first.2 one member)⟩

theorem Climb.turn_follows (edges : List (α × α)) (node : α) (state : Climb α) :
    ∀ edge ∈ edges, edge.2 = node → edge.1 ∈ (edges.foldl (Climb.take node) state).reached := by
  induction edges generalizing state with
  | nil => exact nofun
  | cons first edges ih =>
    intro edge member into
    cases List.mem_cons.mp member with
    | inr later => exact ih (state.take node first) edge later into
    | inl here =>
      subst here
      apply (Climb.turn_mono edges node (state.take node edge)).1
      obtain ⟨-, -, same⟩ | ⟨old, same⟩ := Climb.take_cases node state edge
      · rw [same]
        exact List.mem_cons_self ..
      · rw [same]
        exact old into

theorem Climb.turn_new (edges : List (α × α)) (node : α) (state : Climb α) :
    ∀ one ∈ (edges.foldl (Climb.take node) state).reached, one ∈ state.reached ∨
      (one, node) ∈ edges ∧ one ∈ (edges.foldl (Climb.take node) state).waiting := by
  induction edges generalizing state with
  | nil => exact fun one member => Or.inl member
  | cons edge edges ih =>
    intro one member
    cases ih (state.take node edge) one member with
    | inr later => exact Or.inr ⟨List.mem_cons_of_mem _ later.1, later.2⟩
    | inl before =>
      obtain ⟨into, -, same⟩ | ⟨-, same⟩ := Climb.take_cases node state edge
      · rw [same] at before
        cases List.mem_cons.mp before with
        | inr old => exact Or.inl old
        | inl here =>
          subst here
          right
          constructor
          · rw [← into]
            exact List.mem_cons_self ..
          · apply (Climb.turn_mono edges node (state.take node edge)).2
            rw [same]
            exact List.mem_cons_self ..
      · rw [same] at before
        exact Or.inl before

theorem Climb.turn_waits (edges : List (α × α)) (node : α) (waits : ∀ one ∈ state.waiting, one ∈ state.reached) :
    ∀ one ∈ (edges.foldl (Climb.take node) state).waiting, one ∈ (edges.foldl (Climb.take node) state).reached := by
  induction edges generalizing state with
  | nil => exact waits
  | cons edge edges ih =>
    apply ih
    obtain ⟨-, -, same⟩ | ⟨-, same⟩ := Climb.take_cases node state edge
    · rw [same]
      intro one member
      cases List.mem_cons.mp member with
      | inl here => exact here ▸ List.mem_cons_self ..
      | inr old => exact List.mem_cons_of_mem _ (waits one old)
    · rw [same]
      exact waits

theorem Climb.take_turns {edges : List (α × α)} (node : α) (state : Climb α) {edge : α × α} (member : edge ∈ edges) :
    (state.take node edge).turns edges ≤ state.turns edges := by
  obtain ⟨-, new, same⟩ | ⟨-, same⟩ := Climb.take_cases node state edge
  · have fewer := unseen_cons edges new
    have some : 0 < (successors edges edge.1).length := List.length_pos_of_mem (mem_successors.mpr member)
    rw [same, Climb.turns_mk, Climb.turns, List.length_cons]
    omega
  · rw [same]

theorem Climb.turn_turns {edges : List (α × α)} (followed : List (α × α)) (node : α) (state : Climb α) (within : ∀ edge ∈ followed, edge ∈ edges) :
    (followed.foldl (Climb.take node) state).turns edges ≤ state.turns edges := by
  induction followed generalizing state with
  | nil => exact Nat.le_refl _
  | cons edge followed ih =>
    have first := Climb.take_turns node state (within edge (List.mem_cons_self ..))
    have later := ih (state.take node edge) fun one member => within one (List.mem_cons_of_mem _ member)
    exact Nat.le_trans later first

end Turn

variable {edges : List (α × α)}

theorem Climb.Followed.turn {node : α} {waiting reached : List α} (followed : Followed edges ⟨node :: waiting, reached⟩) :
    Followed edges (edges.foldl (Climb.take node) ⟨waiting, reached⟩) := by
  constructor
  · apply Climb.turn_waits
    intro one member
    exact followed.waits one (List.mem_cons_of_mem _ member)
  · intro edge member there
    cases Climb.turn_new edges node ⟨waiting, reached⟩ edge.2 there with
    | inr new => exact Or.inl new.2
    | inl old =>
      cases followed.behind edge member old with
      | inr known => exact Or.inr ((Climb.turn_mono edges node ⟨waiting, reached⟩).1 _ known)
      | inl waits =>
        cases List.mem_cons.mp waits with
        | inl here => exact Or.inr (Climb.turn_follows edges node ⟨waiting, reached⟩ edge member here)
        | inr later => exact Or.inl ((Climb.turn_mono edges node ⟨waiting, reached⟩).2 _ later)

theorem climb_closed {state : Climb α} (followed : state.Followed edges) (enough : state.turns edges ≤ turns) :
    (∀ node ∈ state.reached, node ∈ climb edges turns state) ∧
      ∀ edge ∈ edges, edge.2 ∈ climb edges turns state → edge.1 ∈ climb edges turns state := by
  induction turns generalizing state with
  | zero =>
    obtain ⟨waiting, reached⟩ := state
    rw [Climb.turns_mk] at enough
    have none : waiting = [] := List.length_eq_zero_iff.mp (by omega)
    subst none
    refine ⟨fun node member => member, fun edge member there => ?_⟩
    exact (followed.behind edge member there).resolve_left List.not_mem_nil
  | succ turns ih =>
    obtain ⟨waiting, reached⟩ := state
    cases waiting with
    | nil =>
      refine ⟨fun node member => member, fun edge member there => ?_⟩
      exact (followed.behind edge member there).resolve_left List.not_mem_nil
    | cons node waiting =>
      have fewer := Climb.turn_turns edges node ⟨waiting, reached⟩ fun edge (member : edge ∈ edges) => member
      rw [Climb.turns_mk, List.length_cons] at enough
      rw [Climb.turns_mk edges waiting] at fewer
      obtain ⟨kept, closed⟩ := ih followed.turn (by omega)
      exact ⟨fun other member => kept other ((Climb.turn_mono edges node ⟨waiting, reached⟩).1 other member), closed⟩

theorem climb_holds {P : α → Prop} (passes : ∀ edge ∈ edges, P edge.2 → P edge.1) {state : Climb α}
    (waits : ∀ node ∈ state.waiting, node ∈ state.reached) (holds : ∀ node ∈ state.reached, P node) :
    ∀ node ∈ climb edges turns state, P node := by
  induction turns generalizing state with
  | zero => exact holds
  | succ turns ih =>
    obtain ⟨waiting, reached⟩ := state
    cases waiting with
    | nil => exact holds
    | cons node waiting =>
      apply ih
      · exact Climb.turn_waits edges node fun one member => waits one (List.mem_cons_of_mem _ member)
      · intro one member
        cases Climb.turn_new edges node ⟨waiting, reached⟩ one member with
        | inl old => exact holds one old
        | inr new => exact passes (one, node) new.1 (holds node (waits node (List.mem_cons_self ..)))

theorem mem_ancestors {goals : List α} {node : α} :
    node ∈ ancestors edges goals ↔ ∃ goal ∈ goals, Relation.ReflTransGen (Precedes edges) node goal := by
  constructor
  · apply climb_holds
    · intro edge member leads
      obtain ⟨goal, wanted, path⟩ := leads
      exact ⟨goal, wanted, Relation.ReflTransGen.head member path⟩
    · intro goal wanted
      exact wanted
    · intro goal wanted
      exact ⟨goal, wanted, Relation.ReflTransGen.refl⟩
  · intro ⟨goal, wanted, path⟩
    have within : Climb.turns edges ⟨goals, goals⟩ ≤ goals.length + edges.length := Nat.add_le_add_left (List.length_filter_le _ _) _
    have followed : Climb.Followed edges ⟨goals, goals⟩ := ⟨fun one member => member, fun edge _ there => Or.inl there⟩
    obtain ⟨kept, closed⟩ := climb_closed followed within
    induction path using Relation.ReflTransGen.head_induction_on with
    | refl => exact kept goal wanted
    | head edge _ ih => exact closed _ edge ih

end NovelStudio.Library

/-! What leads to a start, found in rounds: each takes what leads to the round before it. -/

namespace NovelStudio.Library

variable {α : Type*} [DecidableEq α]

/-- The items, apart from the start and from what was found, that lead to the frontier. -/
def nextRound (items : List α) (leads : α → α → Bool) (start : α) (found frontier : List α) : List α :=
  items.filter fun item => item ∉ found && item ≠ start && frontier.any (leads item)

/-- What so many rounds find, until one finds nothing. -/
def rounds (items : List α) (leads : α → α → Bool) (start : α) : Nat → List α → List α → List α
  | 0, found, _ => found
  | more + 1, found, frontier =>
    match nextRound items leads start found frontier with
    | [] => found
    | first :: rest => rounds items leads start more (found ++ first :: rest) (first :: rest)

def spread (items : List α) (leads : α → α → Bool) (start : α) : List α := rounds items leads start (items.length + 1) [] [start]

def Leads (items : List α) (leads : α → α → Bool) (item other : α) : Prop := item ∈ items ∧ leads item other = true

variable {items : List α} {leads : α → α → Bool} {start : α} {found frontier : List α}

theorem mem_nextRound {item : α} : item ∈ nextRound items leads start found frontier ↔
    item ∈ items ∧ item ∉ found ∧ item ≠ start ∧ ∃ other ∈ frontier, leads item other = true := by
  rw [nextRound, List.mem_filter, Bool.and_eq_true, Bool.and_eq_true, decide_eq_true_eq, decide_eq_true_eq, List.any_eq_true, and_assoc]

def missing (items found : List α) : List α := items.filter (· ∉ found)

theorem missing_lt {first : α} {rest : List α} (round : nextRound items leads start found frontier = first :: rest) :
    (missing items (found ++ first :: rest)).length < (missing items found).length := by
  have new : first ∈ nextRound items leads start found frontier := round ▸ List.mem_cons_self ..
  obtain ⟨listed, fresh, -⟩ := mem_nextRound.mp new
  have fewer : missing items (found ++ first :: rest) = (missing items found).filter (· ∉ first :: rest) := by
    unfold missing
    rw [List.filter_filter]
    apply List.filter_congr
    intro item _
    rw [← Bool.decide_and]
    apply decide_eq_decide.mpr
    rw [List.mem_append, not_or, and_comm]
  rw [fewer]
  apply List.length_filter_lt_length_iff_exists.mpr
  exact ⟨first, List.mem_filter.mpr ⟨listed, decide_eq_true fresh⟩, by simp⟩

/-- What leads to what was found, apart from the frontier, was found. -/
def Rounded (items : List α) (leads : α → α → Bool) (start : α) (found frontier : List α) : Prop :=
  ∀ item ∈ items, item ≠ start → ∀ other, other = start ∨ other ∈ found → leads item other = true → item ∈ found ∨ other ∈ frontier

theorem Rounded.next (rounded : Rounded items leads start found frontier) :
    Rounded items leads start (found ++ nextRound items leads start found frontier) (nextRound items leads start found frontier) := by
  intro item listed apart other place leading
  by_cases old : item ∈ found
  · exact Or.inl (List.mem_append_left _ old)
  by_cases before : other ∈ frontier
  · exact Or.inl (List.mem_append_right _ (mem_nextRound.mpr ⟨listed, old, apart, other, before, leading⟩))
  cases place with
  | inl first => exact absurd (rounded item listed apart other (Or.inl first) leading) (by simp [old, before])
  | inr inside =>
    cases List.mem_append.mp inside with
    | inl earlier => exact absurd (rounded item listed apart other (Or.inr earlier) leading) (by simp [old, before])
    | inr later => exact Or.inr later

/-- With rounds enough the loop stops by itself, whatever more it is given, and what leads to what it found was found. -/
theorem rounds_closed {more : Nat} (rounded : Rounded items leads start found frontier) (enough : (missing items found).length < more) :
    (∀ item ∈ found, item ∈ rounds items leads start more found frontier) ∧
      Rounded items leads start (rounds items leads start more found frontier) [] := by
  induction more generalizing found frontier with
  | zero => exact absurd enough (Nat.not_lt_zero _)
  | succ more ih =>
    rw [rounds]
    split
    · rename_i last
      have closed := rounded.next
      rw [last, List.append_nil] at closed
      exact ⟨fun item member => member, closed⟩
    · rename_i first rest round
      have closed := rounded.next
      rw [round] at closed
      have fewer := missing_lt round
      obtain ⟨kept, done⟩ := ih closed (by omega)
      exact ⟨fun item member => kept item (List.mem_append_left _ member), done⟩

theorem rounds_stop {more : Nat} (enough : (missing items found).length < more) (further : more ≤ later) :
    rounds items leads start later found frontier = rounds items leads start more found frontier := by
  induction more generalizing found frontier later with
  | zero => exact absurd enough (Nat.not_lt_zero _)
  | succ more ih =>
    obtain ⟨later, rfl⟩ : ∃ rest, later = rest + 1 := ⟨later - 1, by omega⟩
    rw [rounds, rounds]
    split
    · rfl
    · rename_i first rest round
      have fewer := missing_lt round
      exact ih (by omega) (by omega)

theorem rounds_holds {P : α → Prop} {more : Nat} (passes : ∀ item ∈ items, item ≠ start → ∀ other, other = start ∨ P other → leads item other = true → P item)
    (waits : ∀ item ∈ frontier, item = start ∨ P item) (holds : ∀ item ∈ found, P item) :
    ∀ item ∈ rounds items leads start more found frontier, P item := by
  induction more generalizing found frontier with
  | zero => exact holds
  | succ more ih =>
    rw [rounds]
    split
    · exact holds
    · rename_i first rest round
      have new : ∀ item ∈ first :: rest, P item := by
        intro item member
        rw [← round] at member
        obtain ⟨listed, -, apart, other, waiting, leading⟩ := mem_nextRound.mp member
        exact passes item listed apart other (waits other waiting) leading
      apply ih
      · intro item member
        exact Or.inr (new item member)
      · intro item member
        cases List.mem_append.mp member with
        | inl old => exact holds item old
        | inr here => exact new item here

theorem mem_spread {item : α} : item ∈ spread items leads start ↔ item ≠ start ∧ Relation.TransGen (Leads items leads) item start := by
  constructor
  · apply rounds_holds
    · intro one listed apart other place leading
      refine ⟨apart, ?_⟩
      cases place with
      | inl first => exact Relation.TransGen.single ⟨listed, first ▸ leading⟩
      | inr later => exact Relation.TransGen.head ⟨listed, leading⟩ later.2
    · intro one member
      exact Or.inl (List.mem_singleton.mp member)
    · exact nofun
  · intro ⟨apart, path⟩
    have first : Rounded items leads start [] [start] := by
      intro one _ _ other place _
      exact Or.inr (List.mem_singleton.mpr (place.resolve_right List.not_mem_nil))
    have enough : (missing items []).length < items.length + 1 := Nat.lt_succ_of_le (List.length_filter_le _ _)
    have closed := (rounds_closed first enough).2
    induction path using Relation.TransGen.head_induction_on with
    | single leading => exact (closed _ leading.1 apart start (Or.inl rfl) leading.2).resolve_right List.not_mem_nil
    | @head one other leading _ ih =>
      by_cases here : other = start
      · exact (closed one leading.1 apart other (Or.inl here) leading.2).resolve_right List.not_mem_nil
      · exact (closed one leading.1 apart other (Or.inr (ih here)) leading.2).resolve_right List.not_mem_nil

end NovelStudio.Library
