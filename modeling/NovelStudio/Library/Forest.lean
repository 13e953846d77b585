import Mathlib.Data.List.Chain
import Mathlib.Data.List.Nodup
import Mathlib.Data.List.Perm.Subperm
import Mathlib.Logic.Function.Basic
import Mathlib.Logic.Relation

/-! Forests that are given by the children of their nodes: the listing of a forest from its roots down, and the peel
that takes a node when its parents were taken and so finds an order of the nodes, if there is one. -/

namespace NovelStudio.Library

variable {α : Type*} {children : α → List α}

/-- One node stands among the children of another. -/
def Below (children : α → List α) (parent child : α) : Prop := child ∈ children parent

/-- The listing of nodes from left to right, each with what it stands under and followed by what stands below it. -/
inductive Listing (children : α → List α) : List α → List α → List (List α × α) → Prop where
  | nil : Listing children above [] []
  | visit (below : Listing children (above ++ [node]) (children node) under) (beside : Listing children above rest outer) :
      Listing children above (node :: rest) ((above, node) :: (under ++ outer))

theorem Listing.exists_of_rank {rank : α → Nat} {bound : Nat} (grows : ∀ parent child, child ∈ children parent → rank parent < rank child)
    (bounded : ∀ parent child, child ∈ children parent → rank child < bound) (above nodes : List α) :
    ∃ order, Listing children above nodes order := by
  have general : ∀ room (above nodes : List α), (∀ node ∈ nodes, bound ≤ rank node + room) → ∃ order, Listing children above nodes order := by
    intro room
    induction room with
    | zero =>
      intro above nodes high
      induction nodes with
      | nil => exact ⟨[], .nil⟩
      | cons node rest ih =>
        obtain ⟨outer, beside⟩ := ih fun other member => high other (List.mem_cons_of_mem _ member)
        have none : children node = [] := by
          apply List.eq_nil_iff_forall_not_mem.mpr
          intro child member
          have here := high node (List.mem_cons_self ..)
          have more := grows node child member
          have less := bounded node child member
          omega
        have below : Listing children (above ++ [node]) (children node) [] := by
          rw [none]
          exact .nil
        exact ⟨_, .visit below beside⟩
    | succ room deeper =>
      intro above nodes high
      induction nodes with
      | nil => exact ⟨[], .nil⟩
      | cons node rest ih =>
        obtain ⟨outer, beside⟩ := ih fun other member => high other (List.mem_cons_of_mem _ member)
        obtain ⟨under, below⟩ := deeper (above ++ [node]) (children node) (by
          intro child member
          have here := high node (List.mem_cons_self ..)
          have more := grows node child member
          omega)
        exact ⟨_, .visit below beside⟩
  apply general bound
  intro node _
  omega

theorem Listing.mem_iff (listing : Listing children above nodes order) {node : α} :
    node ∈ order.map Prod.snd ↔ ∃ root ∈ nodes, Relation.ReflTransGen (Below children) root node := by
  induction listing with
  | nil =>
    constructor
    · intro member
      cases member
    · intro ⟨root, member, _⟩
      cases member
  | @visit above first under rest outer _ _ deep flat =>
    rw [List.map_cons, List.map_append, List.mem_cons, List.mem_append, deep, flat]
    constructor
    · intro listed
      cases listed with
      | inl here => exact ⟨first, List.mem_cons_self .., here ▸ .refl⟩
      | inr later =>
        cases later with
        | inl inside =>
          obtain ⟨child, member, path⟩ := inside
          exact ⟨first, List.mem_cons_self .., .head member path⟩
        | inr outside =>
          obtain ⟨root, member, path⟩ := outside
          exact ⟨root, List.mem_cons_of_mem _ member, path⟩
    · intro ⟨root, member, path⟩
      cases List.mem_cons.mp member with
      | inl here =>
        subst here
        cases Relation.ReflTransGen.cases_head path with
        | inl same => exact Or.inl same.symm
        | inr further =>
          obtain ⟨child, edge, path⟩ := further
          exact Or.inr (Or.inl ⟨child, edge, path⟩)
      | inr later => exact Or.inr (Or.inr ⟨root, later, path⟩)

theorem Listing.line (listing : Listing children above nodes order) (listed : (higher, node) ∈ order) :
    ∃ root ∈ nodes, ∃ path, higher ++ [node] = above ++ root :: path ∧ List.IsChain (Below children) (root :: path) := by
  induction listing with
  | nil => cases listed
  | @visit above first under rest outer _ _ deep flat =>
    cases List.mem_cons.mp listed with
    | inl here =>
      obtain ⟨rfl, rfl⟩ := Prod.mk.inj here
      exact ⟨_, List.mem_cons_self .., [], rfl, List.isChain_singleton _⟩
    | inr later =>
      cases List.mem_append.mp later with
      | inl inside =>
        obtain ⟨child, member, path, same, line⟩ := deep inside
        refine ⟨first, List.mem_cons_self .., child :: path, ?_, List.isChain_cons_cons.mpr ⟨member, line⟩⟩
        rw [same, List.append_assoc]
        rfl
      | inr outside =>
        obtain ⟨root, member, path, same, line⟩ := flat outside
        exact ⟨root, List.mem_cons_of_mem _ member, path, same, line⟩

/-- Every node has at most one parent, among whose children it stands once, and no node stands below itself. -/
structure Forest (children : α → List α) : Prop where
  parent : ∀ ⦃one other child⦄, child ∈ children one → child ∈ children other → one = other
  single : ∀ node, (children node).Nodup
  acyclic : ∀ node, ¬ Relation.TransGen (Below children) node node

/-- No node of the list leads to another. -/
def Apart (children : α → List α) (nodes : List α) : Prop :=
  nodes.Pairwise fun one other => ¬ Relation.ReflTransGen (Below children) one other ∧ ¬ Relation.ReflTransGen (Below children) other one

namespace Forest

theorem meet (forest : Forest children) (left : Relation.ReflTransGen (Below children) one node)
    (right : Relation.ReflTransGen (Below children) other node) :
    Relation.ReflTransGen (Below children) one other ∨ Relation.ReflTransGen (Below children) other one := by
  have unique : Relator.RightUnique (Function.swap (Below children)) := fun _ _ _ above below => forest.parent above below
  have up := Relation.ReflTransGen.total_of_right_unique unique (Relation.reflTransGen_swap.mpr left) (Relation.reflTransGen_swap.mpr right)
  exact up.symm.imp Relation.reflTransGen_swap.mp Relation.reflTransGen_swap.mp

theorem apart_children (forest : Forest children) (node : α) : Apart children (children node) := by
  have never : ∀ {one other}, one ∈ children node → other ∈ children node → one ≠ other → ¬ Relation.ReflTransGen (Below children) one other := by
    intro one other here there different path
    cases Relation.ReflTransGen.cases_tail path with
    | inl same => exact different same.symm
    | inr before =>
      obtain ⟨parent, path, edge⟩ := before
      cases forest.parent edge there
      exact forest.acyclic one (Relation.TransGen.tail' path here)
  have distinct : (children node).Pairwise fun one other => one ≠ other := forest.single node
  apply distinct.imp_of_mem
  intro one other here there different
  exact ⟨never here there different, never there here different.symm⟩

theorem apart_roots {roots : List α} (distinct : roots.Nodup) (free : ∀ root ∈ roots, ∀ node, root ∉ children node) : Apart children roots := by
  have never : ∀ {one other}, other ∈ roots → one ≠ other → ¬ Relation.ReflTransGen (Below children) one other := by
    intro one other member different path
    cases Relation.ReflTransGen.cases_tail path with
    | inl same => exact different same.symm
    | inr before =>
      obtain ⟨parent, -, edge⟩ := before
      exact free other member parent edge
  have apart : roots.Pairwise fun one other => one ≠ other := distinct
  apply apart.imp_of_mem
  intro one other here there different
  exact ⟨never there different, never here different.symm⟩

theorem nodup (forest : Forest children) (listing : Listing children above nodes order) (apart : Apart children nodes) : (order.map Prod.snd).Nodup := by
  induction listing with
  | nil => exact List.nodup_nil
  | @visit above first under rest outer below beside deep flat =>
    obtain ⟨alone, others⟩ := List.pairwise_cons.mp apart
    rw [List.map_cons, List.map_append]
    apply List.nodup_cons.mpr
    constructor
    · intro again
      cases List.mem_append.mp again with
      | inl inside =>
        obtain ⟨child, member, path⟩ := below.mem_iff.mp inside
        exact forest.acyclic first (Relation.TransGen.head' member path)
      | inr outside =>
        obtain ⟨root, member, path⟩ := beside.mem_iff.mp outside
        exact (alone root member).2 path
    · apply List.nodup_append.mpr
      refine ⟨deep (forest.apart_children first), flat others, ?_⟩
      intro one inside other outside same
      subst same
      obtain ⟨child, member, down⟩ := below.mem_iff.mp inside
      obtain ⟨root, listed, path⟩ := beside.mem_iff.mp outside
      cases forest.meet (.head member down) path with
      | inl left => exact (alone root listed).1 left
      | inr right => exact (alone root listed).2 right

end Forest

theorem acyclic_of_rank {rank : α → Nat} (grows : ∀ parent child, child ∈ children parent → rank parent < rank child) (node : α) :
    ¬ Relation.TransGen (Below children) node node := by
  have longer : ∀ {one other}, Relation.TransGen (Below children) one other → rank one < rank other := by
    intro one other path
    induction path with
    | single edge => exact grows _ _ edge
    | tail _ edge ih => exact ih.trans (grows _ _ edge)
  intro cycle
  exact Nat.lt_irrefl _ (longer cycle)

theorem behind_snoc {taken : List α} {current : α}
    (behind : ∀ before node after, taken = before ++ node :: after → ∀ parent, node ∈ children parent → parent ∈ before)
    (ready : ∀ parent, current ∈ children parent → parent ∈ taken) (before : List α) (node : α) (after : List α)
    (same : taken ++ [current] = before ++ node :: after) : ∀ parent, node ∈ children parent → parent ∈ before := by
  intro parent edge
  cases List.eq_nil_or_concat after with
  | inl last =>
    subst last
    obtain ⟨rfl, rfl⟩ : taken = before ∧ current = node := by
      obtain ⟨front, back⟩ := List.append_inj' same rfl
      exact ⟨front, List.singleton_injective back⟩
    exact ready parent edge
  | inr more =>
    obtain ⟨middle, final, rfl⟩ := more
    rw [List.concat_eq_append, ← List.cons_append, ← List.append_assoc] at same
    exact behind before node middle (List.append_inj' same rfl).1 parent edge

variable [DecidableEq α]

/-- One child of a node that was taken: it waits for a parent less, and waits no more when that was the last. -/
def release (state : (α → Int) × List α) (child : α) : (α → Int) × List α :=
  (Function.update state.1 child (state.1 child - 1), if state.1 child - 1 = 0 then child :: state.2 else state.2)

/-- How many nodes are taken from a stack of nodes that wait for nothing, with what is released on the way. -/
def peel (children : α → List α) : Nat → (α → Int) → List α → Nat → Option Nat
  | _, _, [], visited => some visited
  | 0, _, _ :: _, _ => none
  | fuel + 1, counts, current :: queue, visited =>
    peel children fuel ((children current).foldl release (counts, queue)).1 ((children current).foldl release (counts, queue)).2 (visited + 1)

theorem release_all {counts : α → Int} {nodes : List α} (queue : List α) (distinct : nodes.Nodup) (waiting : ∀ node ∈ nodes, counts node = 1) :
    (nodes.foldl release (counts, queue)).2 = nodes.reverse ++ queue ∧
      ∀ other, other ∉ nodes → (nodes.foldl release (counts, queue)).1 other = counts other := by
  induction nodes generalizing counts queue with
  | nil => exact ⟨rfl, fun _ _ => rfl⟩
  | cons node rest ih =>
    obtain ⟨new, distinct⟩ := List.nodup_cons.mp distinct
    have one : counts node = 1 := waiting node (List.mem_cons_self ..)
    have released : release (counts, queue) node = (Function.update counts node 0, node :: queue) := by
      show (Function.update counts node (counts node - 1), if counts node - 1 = 0 then node :: queue else queue) = _
      rw [one]
      rfl
    obtain ⟨queued, others⟩ := @ih (Function.update counts node 0) (node :: queue) distinct (by
      intro other member
      have apart : other ≠ node := by
        intro same
        exact new (same ▸ member)
      rw [Function.update_of_ne apart]
      exact waiting other (List.mem_cons_of_mem _ member))
    rw [List.foldl_cons, released]
    constructor
    · rw [queued, List.reverse_cons, List.append_assoc]
      rfl
    · intro other absent
      obtain ⟨apart, later⟩ := not_or.mp fun member => absent (List.mem_cons.mpr member)
      rw [others other later, Function.update_of_ne apart]

structure Peeled (children : α → List α) (nodes : List α) (counts : α → Int) (taken queue : List α) : Prop where
  distinct : (taken ++ queue).Nodup
  inside : ∀ node ∈ taken ++ queue, node ∈ nodes
  behind : ∀ before node after, taken = before ++ node :: after → ∀ parent, node ∈ children parent → parent ∈ before
  ready : ∀ node ∈ queue, ∀ parent, node ∈ children parent → parent ∈ taken
  waits : ∀ node parent, node ∈ children parent → parent ∉ taken → counts node = 1

variable {nodes : List α}

theorem Peeled.next (unique : ∀ ⦃one other child⦄, child ∈ children one → child ∈ children other → one = other)
    (single : ∀ node, (children node).Nodup) (known : ∀ parent child, child ∈ children parent → child ∈ nodes)
    (peeled : Peeled children nodes counts taken (current :: queue)) :
    Peeled children nodes ((children current).foldl release (counts, queue)).1 (taken ++ [current])
      ((children current).foldl release (counts, queue)).2 := by
  have fresh : current ∉ taken := fun member => (List.disjoint_of_nodup_append peeled.distinct) member (List.mem_cons_self ..)
  have waiting : ∀ child ∈ children current, counts child = 1 := fun child edge => peeled.waits child current edge fresh
  obtain ⟨queued, others⟩ := release_all queue (single current) waiting
  -- A child of the node now taken was neither taken nor ready, for then its only parent would have been taken before.
  have new : ∀ child ∈ children current, child ∉ taken ++ current :: queue := by
    intro child edge member
    cases List.mem_append.mp member with
    | inl old =>
      obtain ⟨before, after, split⟩ := List.append_of_mem old
      have there := peeled.behind before child after split current edge
      exact fresh (split ▸ List.mem_append_left _ there)
    | inr waits => exact fresh (peeled.ready child waits current edge)
  have moved : (taken ++ [current] ++ ((children current).reverse ++ queue)).Perm ((children current).reverse ++ (taken ++ current :: queue)) := by
    rw [List.append_cons taken current queue]
    exact List.perm_append_comm_assoc _ _ _
  rw [queued]
  refine ⟨?_, ?_, behind_snoc peeled.behind (peeled.ready current (List.mem_cons_self ..)), ?_, ?_⟩
  · apply moved.nodup_iff.mpr
    apply List.nodup_append.mpr
    refine ⟨List.nodup_reverse.mpr (single current), peeled.distinct, ?_⟩
    intro child edge other member same
    exact new child (List.mem_reverse.mp edge) (same ▸ member)
  · intro node member
    cases List.mem_append.mp (moved.mem_iff.mp member) with
    | inl edge => exact known current node (List.mem_reverse.mp edge)
    | inr old => exact peeled.inside node old
  · intro node member parent edge
    cases List.mem_append.mp member with
    | inl child =>
      cases unique edge (List.mem_reverse.mp child)
      exact List.mem_append_right _ (List.mem_singleton.mpr rfl)
    | inr waits => exact List.mem_append_left _ (peeled.ready node (List.mem_cons_of_mem _ waits) parent edge)
  · intro node parent edge absent
    obtain ⟨before, apart⟩ := not_or.mp fun member => absent (List.mem_append.mpr member)
    have other : node ∉ children current := by
      intro there
      exact apart (List.mem_singleton.mpr (unique edge there))
    rw [others node other]
    exact peeled.waits node parent edge before

/-- With a turn to spare for every node the peel ends, and it has counted nodes each behind its parents. -/
theorem Peeled.run (unique : ∀ ⦃one other child⦄, child ∈ children one → child ∈ children other → one = other)
    (single : ∀ node, (children node).Nodup) (known : ∀ parent child, child ∈ children parent → child ∈ nodes)
    (peeled : Peeled children nodes counts taken queue) (enough : nodes.length ≤ taken.length + fuel) :
    ∃ order, peel children fuel counts queue taken.length = some order.length ∧ ∃ counts, Peeled children nodes counts order [] := by
  induction fuel generalizing counts taken queue with
  | zero =>
    cases queue with
    | nil => exact ⟨taken, rfl, counts, peeled⟩
    | cons current queue =>
      have short := (List.subperm_of_subset peeled.distinct peeled.inside).length_le
      rw [List.length_append, List.length_cons] at short
      omega
  | succ fuel ih =>
    cases queue with
    | nil => exact ⟨taken, rfl, counts, peeled⟩
    | cons current queue =>
      have turn := peeled.next unique single known
      have longer : (taken ++ [current]).length = taken.length + 1 := List.length_append
      obtain ⟨order, ran, ended⟩ := ih turn (by omega)
      rw [longer] at ran
      exact ⟨order, ran, ended⟩

theorem peel_ends (unique : ∀ ⦃one other child⦄, child ∈ children one → child ∈ children other → one = other)
    (single : ∀ node, (children node).Nodup) (known : ∀ parent child, child ∈ children parent → child ∈ nodes) {counts : α → Int}
    (counted : ∀ parent child, child ∈ children parent → counts child = 1) {queue : List α} (distinct : queue.Nodup)
    (free : ∀ node ∈ queue, node ∈ nodes ∧ counts node = 0) (enough : nodes.length ≤ fuel) :
    ∃ order, peel children fuel counts queue 0 = some order.length ∧ ∃ counts, Peeled children nodes counts order [] := by
  have start : Peeled children nodes counts [] queue := by
    refine ⟨distinct, fun node member => (free node member).1, ?_, ?_, fun node parent edge _ => counted parent node edge⟩
    · intro before node after split
      cases before <;> cases split
    · intro node member parent edge
      have one := counted parent node edge
      have none := (free node member).2
      omega
  exact start.run unique single known (by rw [List.length_nil]; omega)

theorem Peeled.ranked (peeled : Peeled children nodes counts order []) (all : order.length = nodes.length)
    (known : ∀ parent child, child ∈ children parent → child ∈ nodes) :
    ∀ parent child, child ∈ children parent → order.idxOf parent < order.idxOf child ∧ order.idxOf child < nodes.length := by
  rw [← all]
  intro parent child edge
  have whole := peeled.distinct
  have inside := peeled.inside
  rw [List.append_nil] at whole inside
  have same : order.Perm nodes := (List.subperm_of_subset whole inside).perm_of_length_le (Nat.le_of_eq all.symm)
  have listed : child ∈ order := same.mem_iff.mpr (known parent child edge)
  obtain ⟨before, after, split, first⟩ := List.eq_append_cons_of_mem listed
  have earlier : parent ∈ before := peeled.behind before child after split parent edge
  refine ⟨?_, List.idxOf_lt_length_iff.mpr listed⟩
  rw [split, List.idxOf_append_of_mem earlier, List.idxOf_append_of_notMem first, List.idxOf_cons_self, Nat.add_zero]
  exact List.idxOf_lt_length_iff.mpr earlier

end NovelStudio.Library
