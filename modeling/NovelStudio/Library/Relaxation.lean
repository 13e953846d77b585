import NovelStudio.Library.Dict
import NovelStudio.Library.Topological

/-! Depths of the nodes of a graph, found by relaxing its edges in passes that change them in place. -/

namespace NovelStudio.Library

variable {α : Type*}

/-- A walk of so many edges ends at the node. -/
inductive Walk (edges : List (α × α)) : Nat → α → Prop where
  | start (node : α) : Walk edges 0 node
  | step (earlier : Walk edges length source) (edge : (source, target) ∈ edges) : Walk edges (length + 1) target

variable {edges : List (α × α)}

/-- The nodes of a graph without cycles have ranks, below their number, that grow along its edges. -/
theorem Acyclic.exists_rank [DecidableEq α] (acyclic : Acyclic edges) (nodes : List α) :
    ∃ rank : α → Nat, (∀ node ∈ nodes, rank node < nodes.length) ∧
      ∀ {source target}, (source, target) ∈ edges → source ∈ nodes → target ∈ nodes → rank source < rank target := by
  induction size : nodes.length using Nat.strong_induction_on generalizing nodes with
  | _ size ih =>
    subst size
    cases nodes with
    | nil => exact ⟨fun _ => 0, by simp, by simp⟩
    | cons node rest =>
      obtain ⟨first, member, least⟩ := acyclic.exists_first (List.mem_cons_self (a := node) (l := rest))
      have shorter : ((node :: rest).filter (· ≠ first)).length < (node :: rest).length :=
        List.length_filter_lt_length_iff_exists.mpr ⟨first, member, by simp⟩
      obtain ⟨rank, bounded, growing⟩ := ih _ shorter _ rfl
      refine ⟨fun other => if other = first then 0 else rank other + 1, ?_, ?_⟩
      · intro other there
        by_cases same : other = first
        · simp [same]
        · have kept := bounded other (List.mem_filter.mpr ⟨there, by simpa using same⟩)
          simp only [same, if_false]
          omega
      · intro source target edge there known
        have later : target ≠ first := by
          rintro rfl
          exact least source there edge
        by_cases same : source = first
        · simp [same, later]
        · have grows := growing edge (List.mem_filter.mpr ⟨there, by simpa using same⟩)
            (List.mem_filter.mpr ⟨known, by simpa using later⟩)
          simp only [same, later, if_false]
          omega

theorem Acyclic.walk_lt [DecidableEq α] {nodes : List α} (acyclic : Acyclic edges)
    (known : ∀ edge ∈ edges, edge.1 ∈ nodes ∧ edge.2 ∈ nodes) (walk : Walk edges length node) (member : node ∈ nodes) :
    length < nodes.length := by
  obtain ⟨rank, bounded, growing⟩ := acyclic.exists_rank nodes
  have below : length ≤ rank node := by
    clear bounded
    induction walk with
    | start => exact Nat.zero_le _
    | step earlier edge ih =>
      obtain ⟨first, second⟩ := known _ edge
      have there := ih first
      have grows := growing edge first second
      omega
  exact Nat.lt_of_le_of_lt below (bounded node member)

variable [DecidableEq α]

/-- The depth of a node, 0 for one that has none. -/
def depthOf (depths : Dict α Nat) (node : α) : Nat := (depths.get? node).getD 0

/-- Put the target of an edge one below its source unless it is there already; tell whether it moved. -/
def relax (reached : Dict α Nat × Bool) (edge : α × α) : Dict α Nat × Bool :=
  let next := depthOf reached.1 edge.1 + 1
  if depthOf reached.1 edge.2 < next then (reached.1.set edge.2 next, true) else reached

theorem depthOf_set (depths : Dict α Nat) (node : α) (depth : Nat) (other : α) :
    depthOf (depths.set node depth) other = if other = node then depth else depthOf depths other := by
  unfold depthOf
  rw [Dict.get?_set]
  split <;> rfl

theorem relax_cases (reached : Dict α Nat × Bool) (edge : α × α) :
    (depthOf reached.1 edge.2 ≤ depthOf reached.1 edge.1 ∧
        relax reached edge = (reached.1.set edge.2 (depthOf reached.1 edge.1 + 1), true)) ∨
      (depthOf reached.1 edge.1 < depthOf reached.1 edge.2 ∧ relax reached edge = reached) := by
  by_cases shallow : depthOf reached.1 edge.2 < depthOf reached.1 edge.1 + 1
  · left
    exact ⟨Nat.le_of_lt_succ shallow, if_pos shallow⟩
  · right
    exact ⟨by omega, if_neg shallow⟩

theorem le_relax (reached : Dict α Nat × Bool) (edge : α × α) (node : α) :
    depthOf reached.1 node ≤ depthOf (relax reached edge).1 node := by
  rcases relax_cases reached edge with ⟨shallow, moved⟩ | ⟨_, kept⟩
  · rw [moved, depthOf_set]
    split
    · rename_i same
      rw [same]
      omega
    · exact Nat.le_refl _
  · rw [kept]

theorem relax_target (reached : Dict α Nat × Bool) (edge : α × α) :
    depthOf reached.1 edge.1 < depthOf (relax reached edge).1 edge.2 := by
  rcases relax_cases reached edge with ⟨_, moved⟩ | ⟨deep, kept⟩
  · rw [moved, depthOf_set, if_pos rfl]
    exact Nat.lt_succ_self _
  · rw [kept]
    exact deep

variable {reached : Dict α Nat × Bool}

theorem relax_still {edge : α × α} (still : (relax reached edge).2 = false) :
    relax reached edge = reached ∧ depthOf reached.1 edge.1 < depthOf reached.1 edge.2 := by
  rcases relax_cases reached edge with ⟨_, moved⟩ | ⟨deep, kept⟩
  · simp [moved] at still
  · exact ⟨kept, deep⟩

/-- One pass over the edges in their order. -/
def relaxAll (edges : List (α × α)) (reached : Dict α Nat × Bool) : Dict α Nat × Bool := edges.foldl relax reached

theorem le_relaxAll (edges : List (α × α)) (reached : Dict α Nat × Bool) (node : α) :
    depthOf reached.1 node ≤ depthOf (relaxAll edges reached).1 node := by
  induction edges generalizing reached with
  | nil => exact Nat.le_refl _
  | cons edge rest ih => exact Nat.le_trans (le_relax reached edge node) (ih (relax reached edge))

theorem relaxAll_target (reached : Dict α Nat × Bool) (member : edge ∈ edges) :
    depthOf reached.1 edge.1 < depthOf (relaxAll edges reached).1 edge.2 := by
  induction edges generalizing reached with
  | nil => simp at member
  | cons first rest ih =>
    rcases List.mem_cons.mp member with rfl | later
    · exact Nat.lt_of_lt_of_le (relax_target reached edge) (le_relaxAll rest (relax reached edge) edge.2)
    · exact Nat.lt_of_le_of_lt (le_relax reached first edge.1) (ih (relax reached first) later)

theorem relaxAll_still (still : (relaxAll edges reached).2 = false) :
    relaxAll edges reached = reached ∧ ∀ edge ∈ edges, depthOf reached.1 edge.1 < depthOf reached.1 edge.2 := by
  induction edges generalizing reached with
  | nil => exact ⟨rfl, by simp⟩
  | cons first rest ih =>
    obtain ⟨same, placed⟩ := @ih (relax reached first) still
    have moved : (relax reached first).2 = false := by
      rw [← same]
      exact still
    obtain ⟨kept, deep⟩ := relax_still moved
    rw [kept] at same placed
    refine ⟨by rw [relaxAll, List.foldl_cons, kept]; exact same, ?_⟩
    intro edge member
    rcases List.mem_cons.mp member with rfl | later
    · exact deep
    · exact placed edge later

/-- Every depth is the length of a walk that ends at its node. -/
def Witnessed (edges : List (α × α)) (depths : Dict α Nat) : Prop := ∀ node, Walk edges (depthOf depths node) node

theorem Witnessed.relax (witnessed : Witnessed edges reached.1) (member : edge ∈ edges) :
    Witnessed edges (relax reached edge).1 := by
  intro node
  rcases relax_cases reached edge with ⟨_, moved⟩ | ⟨_, kept⟩
  · rw [moved, depthOf_set]
    split
    · rename_i same
      rw [same]
      exact .step (witnessed edge.1) member
    · exact witnessed node
  · rw [kept]
    exact witnessed node

theorem Witnessed.relaxAll {some : List (α × α)} (witnessed : Witnessed edges reached.1)
    (known : ∀ edge ∈ some, edge ∈ edges) : Witnessed edges (relaxAll some reached).1 := by
  induction some generalizing reached with
  | nil => exact witnessed
  | cons first rest ih =>
    apply ih
    · exact witnessed.relax (known first (List.mem_cons_self ..))
    · intro edge later
      exact known edge (List.mem_cons_of_mem first later)

/-- At most so many passes, fewer where one of them moves nothing. -/
def relaxUpTo (edges : List (α × α)) : Nat → Dict α Nat → Dict α Nat
  | 0, depths => depths
  | passes + 1, depths =>
    if (relaxAll edges (depths, false)).2 then relaxUpTo edges passes (relaxAll edges (depths, false)).1
    else (relaxAll edges (depths, false)).1

/-- The nodes are as deep as every walk of up to so many edges to them is long. -/
def Deep (edges : List (α × α)) (bound : Nat) (depths : Dict α Nat) : Prop :=
  ∀ {length node}, Walk edges length node → length ≤ bound → length ≤ depthOf depths node

variable {depths : Dict α Nat}

theorem Deep.relaxAll (deep : Deep edges bound depths) (moved : Bool) :
    Deep edges (bound + 1) (relaxAll edges (depths, moved)).1 := by
  intro length node walk short
  cases walk with
  | start => exact Nat.zero_le _
  | step earlier edge =>
    have before := deep earlier (by omega)
    have placed := relaxAll_target (depths, moved) edge
    exact Nat.lt_of_le_of_lt before placed

theorem Witnessed.relaxUpTo (witnessed : Witnessed edges depths) (passes : Nat) :
    Witnessed edges (relaxUpTo edges passes depths) := by
  induction passes generalizing depths with
  | zero => exact witnessed
  | succ passes ih =>
    have after : Witnessed edges (Library.relaxAll edges (depths, false)).1 := by
      apply Witnessed.relaxAll
      · exact witnessed
      · exact fun _ member => member
    unfold Library.relaxUpTo
    split
    · exact ih after
    · exact after

/-- After the passes every edge leads downwards, or the depths cover all walks of as many edges as there were passes. -/
theorem Deep.relaxUpTo (deep : Deep edges bound depths) (passes : Nat) :
    (∀ edge ∈ edges, depthOf (relaxUpTo edges passes depths) edge.1 < depthOf (relaxUpTo edges passes depths) edge.2) ∨
      Deep edges (bound + passes) (relaxUpTo edges passes depths) := by
  induction passes generalizing depths bound with
  | zero => exact .inr deep
  | succ passes ih =>
    unfold Library.relaxUpTo
    split
    · rw [Nat.add_comm passes, ← Nat.add_assoc]
      exact ih (deep.relaxAll false)
    · rename_i still
      obtain ⟨same, placed⟩ := relaxAll_still (Bool.not_eq_true _ ▸ still)
      rw [same]
      exact .inl placed

/-- In a graph without cycles as many passes as nodes put the target of every edge below its source. -/
theorem relaxUpTo_lt {nodes : List α} (acyclic : Acyclic edges)
    (known : ∀ edge ∈ edges, edge.1 ∈ nodes ∧ edge.2 ∈ nodes) (flat : ∀ node, depthOf depths node = 0) (member : edge ∈ edges) :
    depthOf (relaxUpTo edges nodes.length depths) edge.1 < depthOf (relaxUpTo edges nodes.length depths) edge.2 := by
  have witnessed : Witnessed edges depths := by
    intro node
    rw [flat]
    exact .start node
  have shallow : Deep edges 0 depths := by
    intro length node _ none
    omega
  rcases shallow.relaxUpTo nodes.length with placed | deep
  · exact placed edge member
  · have walk := (witnessed.relaxUpTo nodes.length edge.1).step member
    have short := acyclic.walk_lt known walk (known edge member).2
    exact deep walk (by omega)

end NovelStudio.Library
