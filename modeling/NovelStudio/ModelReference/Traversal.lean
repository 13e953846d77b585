import NovelStudio.ModelReference.SceneTree

/-! A scene tree that is accepted is a forest, and its traversal lists what its roots lead to, each node once and in
the world of the line above it. -/

namespace NovelStudio.ModelReference

open Library

variable {μ ρ β τ : Type} {floats : Floats μ ρ β}

/-- The entry at a place of the children of a node of the document. -/
def ChildAt (document : List (String × Json)) (nodeId place child : Nat) : Prop :=
  ∃ nodes fields values, lookup "nodes" document = some (.list nodes) ∧ nodes[nodeId]? = some (.dict fields) ∧
    lookup "children" fields = some (.list values) ∧ values[place]? = some (.int child)

def Child (document : List (String × Json)) (nodeId child : Nat) : Prop := ∃ place, ChildAt document nodeId place child

/-- Two entries of the lists of children name one node. -/
def SharedChild (document : List (String × Json)) : Prop :=
  ∃ one place other further child, (one, place) ≠ (other, further) ∧ ChildAt document one place child ∧ ChildAt document other further child

def Cyclic (document : List (String × Json)) : Prop := ∃ node, Relation.TransGen (Child document) node node

theorem index_ok {value : Json} : index total value = .ok result ↔ value = .int result ∧ result < total := by
  unfold index
  split
  · rename_i number
    split
    · rename_i inside
      rw [Except.ok.injEq, Json.int.injEq]
      constructor
      · intro same
        subst same
        exact ⟨(Int.toNat_of_nonneg inside.1).symm, by omega⟩
      · intro same
        omega
    · rename_i outside
      rw [Json.int.injEq]
      constructor
      · intro bad
        cases bad
      · intro same
        exact absurd ⟨by omega, by omega⟩ outside
  · rename_i other
    constructor
    · intro bad
      cases bad
    · intro same
      exact absurd same.1 (other _)

theorem countChildren_ok {parents next : Nat → Int} {children counted : List Nat} (counts : ∀ child, parents child = counted.count child)
    (distinct : counted.Nodup) (done : children.foldlM countChild parents = .ok next) :
    (∀ child, next child = (counted ++ children).count child) ∧ (counted ++ children).Nodup := by
  induction children generalizing parents counted with
  | nil =>
    cases foldlM_nil_ok.mp done
    rw [List.append_nil]
    exact ⟨counts, distinct⟩
  | cons child rest ih =>
    obtain ⟨more, turned, done⟩ := foldlM_cons_ok.mp done
    unfold countChild at turned
    split at turned
    · cases turned
    · rename_i low
      cases turned
      have absent : child ∉ counted := by
        intro member
        have here := List.count_pos_iff.mpr member
        have count := counts child
        omega
      have longer : counted ++ child :: rest = counted ++ [child] ++ rest := by rw [List.append_assoc]; rfl
      rw [longer]
      apply ih _ _ done
      · intro other
        rw [List.count_append]
        by_cases same : other = child
        · subst same
          rw [Function.update_self, counts other, List.count_singleton_self]
          omega
        · rw [Function.update_of_ne same, counts other, List.count_singleton, if_neg (by simpa using Ne.symm same)]
          omega
      · apply List.nodup_append.mpr
        refine ⟨distinct, List.nodup_singleton _, ?_⟩
        intro one member other alone same
        cases List.mem_singleton.mp alone
        exact absent (same ▸ member)

theorem readChildren_ok (read : readChildren total fields = .ok children) :
    (∀ {place child : Nat}, children[place]? = some child ↔
      ∃ values, lookup "children" fields = some (.list values) ∧ values[place]? = some (Json.int child)) ∧
      (∀ child ∈ children, child < total) ∧ children.Nodup := by
  unfold readChildren at read
  split at read
  · rename_i values given
    obtain ⟨_, -, read⟩ := bind_ok.mp read
    obtain ⟨listed, indexed, read⟩ := bind_ok.mp read
    obtain ⟨_, distinct, same⟩ := bind_ok.mp read
    cases pure_ok.mp same
    rw [reject_ok, decide_eq_false_iff_not, not_not] at distinct
    have each := mapM_ok.mp indexed
    have places : ∀ {place child : Nat}, children[place]? = some child ↔ values[place]? = some (Json.int child) := by
      intro place child
      constructor
      · intro here
        obtain ⟨value, there, indexes⟩ := at_of_forall₂ each here
        rw [there, (index_ok.mp indexes).1]
      · intro there
        obtain ⟨other, here, indexes⟩ := at_of_forall₂ (List.Forall₂.flip each) there
        rw [here, Int.ofNat_inj.mp (Json.int.inj (index_ok.mp indexes).1)]
    refine ⟨?_, ?_, distinct⟩
    · intro place child
      rw [places]
      constructor
      · intro there
        cases found : lookup "children" fields with
        | none =>
          rw [found] at given
          cases given
          cases there
        | some value =>
          rw [found] at given
          cases given
          exact ⟨values, rfl, there⟩
      · intro ⟨others, found, there⟩
        rw [found] at given
        cases given
        exact there
    · intro child member
      obtain ⟨value, -, indexes⟩ := exists_of_forall₂ each member
      exact (index_ok.mp indexes).2
  · cases read

/-- What the loop over the nodes knows of those it has read. -/
structure Rows (floats : Floats μ ρ β) (total : Nat) (nodes : List Json) (counting : Counting μ) : Prop where
  each : List.Forall₂ (fun node row => node = .dict row.fields ∧ readChildren total row.fields = .ok row.children ∧
    localMatrix floats row.fields = .ok row.transform) nodes counting.rows
  counts : ∀ child, counting.parents child = (counting.rows.flatMap TreeNode.children).count child
  distinct : (counting.rows.flatMap TreeNode.children).Nodup

theorem Rows.next {state next : Counting μ} {node : Json} {before : List Json} (rows : Rows floats total before state) (read : Counting.read floats total state node = .ok next) :
    Rows floats total (before ++ [node]) next := by
  unfold Counting.read at read
  split at read
  · rename_i fields
    obtain ⟨_, -, read⟩ := bind_ok.mp read
    obtain ⟨children, listed, read⟩ := bind_ok.mp read
    obtain ⟨parents, counted, read⟩ := bind_ok.mp read
    obtain ⟨transform, made, same⟩ := bind_ok.mp read
    cases pure_ok.mp same
    obtain ⟨counts, distinct⟩ := countChildren_ok rows.counts rows.distinct counted
    have longer : (state.rows ++ [TreeNode.mk fields children transform]).flatMap TreeNode.children = state.rows.flatMap TreeNode.children ++ children := by
      rw [List.flatMap_append, List.flatMap_singleton]
    refine ⟨?_, ?_, ?_⟩
    · exact List.rel_append rows.each (.cons ⟨rfl, listed, made⟩ .nil)
    · show ∀ child, parents child = _
      rw [longer]
      exact counts
    · show (_ : List Nat).Nodup
      rw [longer]
      exact distinct
  · cases read

theorem countNodes_ok {counted : Counted μ} (read : countNodes floats document = .ok counted) :
    ∃ nodes, lookup "nodes" document = some (.list nodes) ∧ nodes.length ≤ 256 ∧ Rows floats nodes.length nodes counted.counting := by
  obtain ⟨⟨nodes, scenes⟩, listed, read⟩ := bind_ok.mp read
  obtain ⟨selected, -, read⟩ := bind_ok.mp read
  obtain ⟨counting, done, read⟩ := bind_ok.mp read
  obtain ⟨scene, -, same⟩ := bind_ok.mp read
  cases pure_ok.mp same
  unfold nodesAndScenes at listed
  split at listed
  · rename_i nodes' scenes' found _
    split at listed
    · rename_i bounds
      cases listed
      refine ⟨nodes, found, bounds.1.2, ?_⟩
      apply foldlM_invariant (motive := Rows floats nodes.length) _ _ done
      · intro before item state next _ holds turned
        exact holds.next turned
      · exact ⟨.nil, fun _ => rfl, List.nodup_nil⟩
    · cases listed
  · cases listed

theorem mem_childrenOf {rows : List (TreeNode μ)} : child ∈ childrenOf rows nodeId ↔ ∃ row, rows[nodeId]? = some row ∧ child ∈ row.children := by
  unfold childrenOf
  cases rows[nodeId]? with
  | none => simp
  | some row => simp

namespace Rows

variable {nodes : List Json} {counting : Counting μ}

theorem unique (rows : Rows floats total nodes counting) ⦃one other child : Nat⦄ (here : child ∈ childrenOf counting.rows one)
    (there : child ∈ childrenOf counting.rows other) : one = other := by
  obtain ⟨first, firstAt, here⟩ := mem_childrenOf.mp here
  obtain ⟨second, secondAt, there⟩ := mem_childrenOf.mp there
  obtain ⟨inside, rfl⟩ := List.getElem?_eq_some_iff.mp firstAt
  obtain ⟨within, rfl⟩ := List.getElem?_eq_some_iff.mp secondAt
  have apart := List.pairwise_iff_getElem.mp (List.nodup_flatMap.mp rows.distinct).2
  rcases Nat.lt_trichotomy one other with less | same | more
  · exact absurd there (apart one other inside within less here)
  · exact same
  · exact absurd here (apart other one within inside more there)

theorem single (rows : Rows floats total nodes counting) (nodeId : Nat) : (childrenOf counting.rows nodeId).Nodup := by
  unfold childrenOf
  cases found : counting.rows[nodeId]? with
  | none => exact List.nodup_nil
  | some row => exact (List.nodup_flatMap.mp rows.distinct).1 row (List.mem_of_getElem? found)

theorem known (rows : Rows floats total nodes counting) (parent child : Nat) (edge : child ∈ childrenOf counting.rows parent) : child < total := by
  obtain ⟨row, rowAt, member⟩ := mem_childrenOf.mp edge
  obtain ⟨node, -, -, read, -⟩ := at_of_forall₂ rows.each rowAt
  exact (readChildren_ok read).2.1 child member

theorem counted (rows : Rows floats total nodes counting) (parent child : Nat) (edge : child ∈ childrenOf counting.rows parent) :
    counting.parents child = 1 := by
  obtain ⟨row, rowAt, member⟩ := mem_childrenOf.mp edge
  have listed : child ∈ counting.rows.flatMap TreeNode.children := List.mem_flatMap.mpr ⟨row, List.mem_of_getElem? rowAt, member⟩
  rw [rows.counts, List.count_eq_one_of_mem rows.distinct listed]
  rfl

theorem childAt_iff (rows : Rows floats total nodes counting) (found : lookup "nodes" document = some (.list nodes)) {nodeId place child : Nat} :
    ChildAt document nodeId place child ↔ (childrenOf counting.rows nodeId)[place]? = some child := by
  constructor
  · intro ⟨others, fields, values, foundHere, nodeAt, valuesAt, childAt⟩
    rw [found] at foundHere
    cases foundHere
    obtain ⟨row, rowAt, same, read, -⟩ := at_of_forall₂ (List.Forall₂.flip rows.each) nodeAt
    cases same
    rw [childrenOf, rowAt]
    exact (readChildren_ok read).1.mpr ⟨values, valuesAt, childAt⟩
  · intro stands
    unfold childrenOf at stands
    cases rowAt : counting.rows[nodeId]? with
    | none =>
      rw [rowAt] at stands
      cases stands
    | some row =>
      rw [rowAt] at stands
      obtain ⟨node, nodeAt, same, read, -⟩ := at_of_forall₂ rows.each rowAt
      obtain ⟨values, valuesAt, childAt⟩ := (readChildren_ok read).1.mp stands
      exact ⟨nodes, row.fields, values, found, same ▸ nodeAt, valuesAt, childAt⟩

theorem child_iff (rows : Rows floats total nodes counting) (found : lookup "nodes" document = some (.list nodes)) :
    Child document nodeId child ↔ child ∈ childrenOf counting.rows nodeId := by
  rw [List.mem_iff_getElem?]
  exact exists_congr fun place => rows.childAt_iff found

end Rows

/-- The matrices from the root of a path down, multiplied. -/
def product (floats : Floats μ ρ β) (rows : List (TreeNode μ)) (path : List Nat) : Except String μ :=
  path.foldlM (fun world nodeId => do
    let row ← fetch rows[nodeId]? "IndexError"
    fetch (floats.multiply world row.transform) transformLimit) floats.identity

/-- What the traversal owes to a node that stands under others: its primitives, in the product of the line down to it. -/
def placeAt (floats : Floats μ ρ β) (rows : List (TreeNode μ)) (meshes : List (List (Primitive ρ τ))) (state : Placing ρ β τ)
    (entry : List Nat × Nat) : Except String (Placing ρ β τ) := do
  let world ← product floats rows (entry.1 ++ [entry.2])
  let row ← fetch rows[entry.2]? "IndexError"
  placeMesh floats meshes world entry.2 row.fields { state with traversed := state.traversed + 1 }

variable {rows : List (TreeNode μ)}

theorem product_snoc (above : product floats rows path = .ok parent) (nodeId : Nat) :
    product floats rows (path ++ [nodeId]) = (do
      let row ← fetch rows[nodeId]? "IndexError"
      fetch (floats.multiply parent row.transform) transformLimit) := by
  unfold product at above ⊢
  rw [List.foldlM_append, above]
  simp only [List.foldlM_cons, List.foldlM_nil, bind_pure]
  rfl

theorem visit_placeAt (meshes : List (List (Primitive ρ τ))) (state : Placing ρ β τ)
    (above : product floats rows path = .ok parent) (nodeId : Nat) :
    (∃ failure, visit floats rows meshes nodeId parent state = .error failure ∧ placeAt floats rows meshes state (path, nodeId) = .error failure) ∨
      ∃ world placed, visit floats rows meshes nodeId parent state = .ok (world, placed) ∧
        placeAt floats rows meshes state (path, nodeId) = .ok placed ∧ product floats rows (path ++ [nodeId]) = .ok world := by
  unfold visit placeAt
  rw [product_snoc above]
  cases rows[nodeId]? with
  | none => exact Or.inl ⟨_, rfl, rfl⟩
  | some row =>
    cases multiplied : floats.multiply parent row.transform with
    | none =>
      refine Or.inl ⟨transformLimit, ?_, ?_⟩
      · simp only [fetch, pure_bind, multiplied]
        rfl
      · simp only [fetch, pure_bind, multiplied]
        rfl
    | some world =>
      simp only [fetch, pure_bind, multiplied]
      cases placing : placeMesh floats meshes world nodeId row.fields { state with traversed := state.traversed + 1 } with
      | error failure => exact Or.inl ⟨failure, rfl, rfl⟩
      | ok placed => exact Or.inr ⟨world, placed, rfl, rfl, rfl⟩

theorem traverse_listing (meshes : List (List (Primitive ρ τ))) {above nodes : List Nat}
    (listing : Listing (childrenOf rows) above nodes order) (higher : product floats rows above = .ok parent) (stack : List (Nat × μ))
    (state : Placing ρ β τ) (fuel : Nat) :
    traverse floats rows meshes (order.length + fuel) (nodes.map (fun node => (node, parent)) ++ stack) state =
      match order.foldlM (placeAt floats rows meshes) state with
      | .error failure => some (.error failure)
      | .ok placed => traverse floats rows meshes fuel stack placed := by
  induction listing generalizing parent stack state fuel with
  | nil => rw [List.length_nil, Nat.zero_add]; rfl
  | @visit above node under rest outer _ _ deep flat =>
    have turns : ((above, node) :: (under ++ outer)).length + fuel = under.length + (outer.length + fuel) + 1 := by
      rw [List.length_cons, List.length_append]
      omega
    rw [turns, List.foldlM_cons, List.map_cons, List.cons_append, traverse]
    cases visit_placeAt meshes state higher node with
    | inl failed =>
      obtain ⟨failure, here, there⟩ := failed
      rw [here, there]
      rfl
    | inr done =>
      obtain ⟨world, placed, here, there, below⟩ := done
      rw [here, there]
      show traverse _ _ _ _ _ _ = match List.foldlM (placeAt floats rows meshes) placed (under ++ outer) with
        | .error failure => some (.error failure)
        | .ok placed => traverse floats rows meshes fuel stack placed
      rw [deep below, List.foldlM_append]
      cases under.foldlM (placeAt floats rows meshes) placed with
      | error failure => rfl
      | ok next => exact flat higher stack next fuel

theorem sceneRoots_ok (read : sceneRoots total parents scene = .ok roots) : roots.Nodup ∧ ∀ root ∈ roots, root < total ∧ parents root = 0 := by
  unfold sceneRoots at read
  split at read
  · split at read
    · obtain ⟨_, -, read⟩ := bind_ok.mp read
      obtain ⟨_, -, read⟩ := bind_ok.mp read
      obtain ⟨listed, indexed, read⟩ := bind_ok.mp read
      obtain ⟨_, checked, same⟩ := bind_ok.mp read
      cases pure_ok.mp same
      rw [reject_ok, Bool.or_eq_false_iff, Bool.or_eq_false_iff, decide_eq_false_iff_not, not_not, List.any_eq_false] at checked
      refine ⟨checked.1.2, ?_⟩
      intro root member
      obtain ⟨value, -, indexes⟩ := exists_of_forall₂ (mapM_ok.mp indexed) member
      refine ⟨(index_ok.mp indexes).2, ?_⟩
      by_contra other
      exact checked.2 root member (decide_eq_true other)
    · cases read
  · cases read

theorem peel_rows {counted : Counted μ} {nodes : List Json} (rows : Rows floats nodes.length nodes counted.counting) (fuel : Nat)
    (few : nodes.length ≤ fuel) : ∃ order, peel (childrenOf counted.counting.rows) fuel counted.counting.parents counted.queue 0 = some order.length ∧
      ∃ counts, Peeled (childrenOf counted.counting.rows) (List.range counted.total) counts order [] := by
  have size : nodes.length = counted.total := rows.each.length_eq
  apply peel_ends rows.unique rows.single
  · intro parent child edge
    rw [List.mem_range, ← size]
    exact rows.known parent child edge
  · exact rows.counted
  · exact List.nodup_reverse.mpr (List.nodup_range.filter _)
  · intro node member
    obtain ⟨inside, none⟩ := List.mem_filter.mp (List.mem_reverse.mp member)
    exact ⟨inside, of_decide_eq_true none⟩
  · rw [List.length_range, ← size]
    exact few

/-- A listing of an accepted tree, and what it has to do with the document. -/
structure Listed (floats : Floats μ ρ β) (document : List (String × Json)) (tree : SceneTree μ) (order : List (List Nat × Nat)) : Prop where
  children : ∀ nodeId place child, ChildAt document nodeId place child ↔ (childrenOf tree.rows nodeId)[place]? = some child
  matrices : ∀ (nodeId : Nat) (row : TreeNode μ), tree.rows[nodeId]? = some row → ∃ nodes, lookup "nodes" document = some (.list nodes) ∧
    nodes[nodeId]? = some (.dict row.fields) ∧ localMatrix floats row.fields = .ok row.transform
  preorder : Listing (childrenOf tree.rows) [] tree.roots order
  once : (order.map Prod.snd).Nodup
  reached : ∀ node, node ∈ order.map Prod.snd ↔ ∃ root ∈ tree.roots, Relation.ReflTransGen (Child document) root node
  lines : ∀ path node, (path, node) ∈ order → ∃ root ∈ tree.roots, ∃ rest, path ++ [node] = root :: rest ∧
    List.IsChain (Child document) (root :: rest)

variable {tree : SceneTree μ}

theorem Listed.edges (listed : Listed floats document tree order) : Child document = Below (childrenOf tree.rows) := by
  funext nodeId child
  exact propext ((exists_congr fun place => listed.children nodeId place child).trans List.mem_iff_getElem?.symm)

theorem Listed.length_le (listed : Listed floats document tree order) (roots : ∀ root ∈ tree.roots, root < tree.rows.length)
    (known : ∀ parent child, child ∈ childrenOf tree.rows parent → child < tree.rows.length) : order.length ≤ tree.rows.length := by
  have inside : ∀ node ∈ order.map Prod.snd, node ∈ List.range tree.rows.length := by
    intro node member
    obtain ⟨root, listedRoot, path⟩ := listed.preorder.mem_iff.mp member
    rw [List.mem_range]
    cases Relation.ReflTransGen.cases_tail path with
    | inl same => exact same ▸ roots root listedRoot
    | inr before =>
      obtain ⟨parent, -, edge⟩ := before
      exact known parent node edge
  have short := (List.subperm_of_subset listed.once inside).length_le
  rwa [List.length_map, List.length_range] at short

theorem listed_of_peeled {counted : Counted μ} {nodes : List Json} {taken : List Nat}
    (found : lookup "nodes" document = some (.list nodes)) (rows : Rows floats nodes.length nodes counted.counting)
    (peeled : Peeled (childrenOf counted.counting.rows) (List.range counted.total) counts taken [])
    (finished : counted.finish taken.length = .ok tree) :
    Forest (childrenOf tree.rows) ∧ (∀ root ∈ tree.roots, ∀ node, ¬ Child document node root) ∧
      ∃ order, Listed floats document tree order ∧ order.length ≤ nodes.length := by
  obtain ⟨_, all, finished⟩ := bind_ok.mp finished
  obtain ⟨roots, selected, same⟩ := bind_ok.mp finished
  cases pure_ok.mp same
  rw [reject_ok, decide_eq_false_iff_not, not_not] at all
  obtain ⟨distinct, free⟩ := sceneRoots_ok selected
  have size : nodes.length = counted.total := rows.each.length_eq
  have known : ∀ parent child, child ∈ childrenOf counted.counting.rows parent → child ∈ List.range counted.total := by
    intro parent child edge
    rw [List.mem_range, ← size]
    exact rows.known parent child edge
  have ranked := peeled.ranked (by rw [all, List.length_range]) known
  have grows := fun parent child edge => (ranked parent child edge).1
  have forest : Forest (childrenOf counted.counting.rows) := ⟨rows.unique, rows.single, acyclic_of_rank grows⟩
  have orphan : ∀ root ∈ roots, ∀ node, root ∉ childrenOf counted.counting.rows node := by
    intro root member node edge
    have none := (free root member).2
    have one := rows.counted node root edge
    omega
  have edges : Child document = Below (childrenOf counted.counting.rows) := funext fun _ => funext fun _ => propext (rows.child_iff found)
  obtain ⟨order, listing⟩ := Listing.exists_of_rank grows (fun parent child edge => (ranked parent child edge).2) [] roots
  have listed : Listed floats document ⟨counted.counting.rows, roots, counted.selected⟩ order := by
    refine ⟨fun _ _ _ => rows.childAt_iff found, ?_, listing, forest.nodup listing (Forest.apart_roots distinct orphan), ?_, ?_⟩
    · intro nodeId row rowAt
      obtain ⟨node, nodeAt, same, -, made⟩ := at_of_forall₂ rows.each rowAt
      exact ⟨nodes, found, same ▸ nodeAt, made⟩
    · intro node
      rw [edges]
      exact listing.mem_iff
    · intro path node member
      rw [edges]
      exact listing.line member
  refine ⟨forest, ?_, order, listed, ?_⟩
  · intro root member node edge
    exact orphan root member node ((rows.child_iff found).mp edge)
  · rw [size]
    exact listed.length_le (fun root member => (free root member).1) fun parent child edge => List.mem_range.mp (known parent child edge)


/-- `scene_tree` ends, with a tree only where the children of all nodes are a forest and the selected roots have no parent. The traversal
then places what the roots lead to and nothing else, each node once, in preorder and in the product of the line down to it. A child
that is shared, or a cycle, anywhere among the nodes is refused. -/
theorem sceneTree_exact (floats : Floats μ ρ β) (document : List (String × Json)) (extra : Nat) :
    ∃ outcome, sceneTree floats (256 + extra) document = some outcome ∧
      (∀ tree, outcome = .ok tree →
        (∀ one other child, Child document one child → Child document other child → one = other) ∧
        (∀ node, ¬ Relation.TransGen (Child document) node node) ∧
        (∀ root ∈ tree.roots, ∀ node, ¬ Child document node root) ∧
        ∃ order, Listed floats document tree order ∧
          ∀ {τ : Type} (meshes : List (List (Primitive ρ τ))), sceneGeometry floats (256 + extra) document meshes =
            some (order.foldlM (placeAt floats tree.rows meshes) (startPlacing floats) >>= preview document tree.selected)) ∧
      (SharedChild document ∨ Cyclic document → ∃ failure, outcome = .error failure) := by
  cases read : countNodes floats document with
  | error failure =>
    refine ⟨.error failure, by rw [sceneTree, read], ?_, fun _ => ⟨failure, rfl⟩⟩
    intro tree bad
    cases bad
  | ok counted =>
    obtain ⟨nodes, found, few, rows⟩ := countNodes_ok read
    obtain ⟨taken, peels, counts, peeled⟩ := peel_rows rows (256 + extra) (by omega)
    have ran : sceneTree floats (256 + extra) document = some (counted.finish taken.length) := by
      rw [sceneTree, read]
      show (peel _ _ _ _ _).map _ = _
      rw [peels]
      rfl
    refine ⟨_, ran, ?_, ?_⟩
    · intro tree accepted
      obtain ⟨forest, orphan, order, listed, short⟩ := listed_of_peeled found rows peeled accepted
      have edges := listed.edges
      refine ⟨?_, ?_, orphan, order, listed, ?_⟩
      · rw [edges]
        intro one other child here there
        exact forest.parent here there
      · rw [edges]
        exact forest.acyclic
      · intro τ meshes
        rw [sceneGeometry, ran, accepted]
        have fuel : 256 + extra = order.length + (256 + extra - order.length) := by omega
        have top : product floats tree.rows [] = .ok floats.identity := rfl
        have worked := traverse_listing meshes listed.preorder top [] (startPlacing floats) (256 + extra - order.length)
        rw [List.append_nil, ← fuel] at worked
        show (traverse _ _ _ _ _ _).map _ = _
        rw [worked]
        cases order.foldlM (placeAt floats tree.rows meshes) (startPlacing floats) with
        | error failure => rfl
        | ok placed => cases 256 + extra - order.length <;> rfl
    · intro bad
      cases accepted : counted.finish taken.length with
      | error failure => exact ⟨failure, rfl⟩
      | ok tree =>
        obtain ⟨forest, -, order, listed, -⟩ := listed_of_peeled found rows peeled accepted
        exfalso
        cases bad with
        | inl shared =>
          obtain ⟨one, place, other, further, child, apart, here, there⟩ := shared
          have here := (listed.children _ _ _).mp here
          have there := (listed.children _ _ _).mp there
          have same := forest.parent (List.mem_of_getElem? here) (List.mem_of_getElem? there)
          subst same
          have places := (List.getElem?_inj (List.getElem?_eq_some_iff.mp here).1 (forest.single one)).mp (here.trans there.symm)
          exact apart (by rw [places])
        | inr cyclic =>
          obtain ⟨node, cycle⟩ := cyclic
          rw [listed.edges] at cycle
          exact forest.acyclic node cycle

/-- A root over two nodes, the second of them with a mesh. -/
def smallScene : List (String × Json) :=
  [("nodes", .list [.dict [("children", .list [.int 2, .int 1])], .dict [], .dict [("mesh", .int 0)]]),
    ("scenes", .list [.dict [("nodes", .list [.int 0])]])]

example : (sceneTree (⟨(), fun _ => (), fun _ _ _ => some (), fun _ _ => some (), fun _ point => some point, (), fun _ _ => ()⟩ : Floats Unit Nat Unit)
    256 smallScene).map (endsWith fun tree => tree.roots = [0] ∧ childrenOf tree.rows 0 = [2, 1]) = some true := by decide +kernel

end NovelStudio.ModelReference
