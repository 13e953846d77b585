import NovelStudio.Canvas.Geometry
import NovelStudio.Library.Relaxation

/-! The automatic layout of a graph: layers by longest paths, the nodes of a layer in their order. -/

namespace NovelStudio.Canvas

open Library

variable {π ν : Type}

/-- The edges between two different nodes of the graph. -/
def usableEdges (nodes : List (Node π)) (edges : List Edge) : List (String × String) :=
  (edges.filter fun edge =>
    (nodes.any (·.id = edge.source_node_id)) && (nodes.any (·.id = edge.target_node_id)) && edge.source_node_id ≠ edge.target_node_id).map
      fun edge => (edge.source_node_id, edge.target_node_id)

def graphDepths (nodes : List (Node π)) (edges : List Edge) : Dict String Nat :=
  relaxUpTo (usableEdges nodes edges) nodes.length (Dict.ofList (nodes.map fun node => (node.id, 0)))

/-- `(layers[index] ??= []).push(id)`, with empty layers for the holes. -/
def pushLayer : List (List String) → Nat → String → List (List String)
  | [], 0, id => [[id]]
  | [], index + 1, id => [] :: pushLayer [] index id
  | ids :: layers, 0, id => (ids ++ [id]) :: layers
  | ids :: layers, index + 1, id => ids :: pushLayer layers index id

def layersOf (nodes : List (Node π)) (edges : List Edge) : List (List String) :=
  nodes.foldl (fun layers node => pushLayer layers (depthOf (graphDepths nodes edges) node.id) node.id) []

structure CanvasAutoLayoutOptions where
  origin : Option Position
  /-- None where the option is no number. -/
  column_gap : Option Layout.Num
  row_gap : Option Layout.Num
  definitions : Option (List NodeDefinition)

def CANVAS_LAYOUT_COLUMN_GAP : ℚ := 96

def CANVAS_LAYOUT_ROW_GAP : ℚ := 48

def boundedGap (value : Option Layout.Num) (fallback : ℚ) : ℚ :=
  match value with
  | some (.finite value) => min 2000 (max 0 value)
  | _ => fallback

variable (rounding : Rounding) (options : CanvasAutoLayoutOptions)

def columnGap : ℚ := boundedGap options.column_gap CANVAS_LAYOUT_COLUMN_GAP

def rowGap : ℚ := boundedGap options.row_gap CANVAS_LAYOUT_ROW_GAP

def originX : ℚ := clampGraphPosition (options.origin.elim (.finite 0) (·.x))

def originY : ℚ := clampGraphPosition (options.origin.elim (.finite 0) (·.y))

/-- Where the nodes of a layer lie across, before the clamp. -/
def columnX (layer : Nat) : ℚ :=
  rounding.round (originX options + rounding.round (layer * rounding.round (GRAPH_NODE_WIDTH + columnGap options)))

/-- Where the node of a rank lies down, before the clamp. -/
def rankY (rowHeight rank : Nat) : ℚ :=
  rounding.round (originY options + rounding.round (rank * rounding.round (rowHeight + rowGap options)))

def descriptorOf (nodes : List (Node π)) (id : String) : Option NodeDefinition :=
  (options.definitions.getD []).find? fun item => some item.id = (nodes.find? (·.id = id)).map (·.definition_id)

def rowHeightOf (nodes : List (Node π)) (ids : List String) : Nat :=
  ((ids.map fun id => graphNodeHeight (descriptorOf options nodes id)).max?).getD 0

def placeAt (rowHeight layer rank : Nat) : Position where
  x := .finite (clampGraphPosition (.finite (columnX rounding options layer)))
  y := .finite (clampGraphPosition (.finite (rankY rounding options rowHeight rank)))

/-- What one round of the loop over the layers sets. -/
def placeLayer (nodes : List (Node π)) (ids : List String) (layer : Nat) : List (String × Position) :=
  ids.zipIdx.map fun (id, rank) => (id, placeAt rounding options (rowHeightOf options nodes ids) layer rank)

def positionsOf (nodes : List (Node π)) (edges : List Edge) : Dict String Position :=
  Dict.ofList ((layersOf nodes edges).zipIdx.flatMap fun (ids, layer) => placeLayer rounding options nodes ids layer)

def autoLayout (definition : Definition π ν) : Definition π ν :=
  { definition with
    nodes := definition.nodes.map fun node =>
      { node with position := ((positionsOf rounding options definition.nodes definition.edges).get? node.id).getD node.position } }

theorem getElem?_pushLayer (layers : List (List String)) (index : Nat) (id : String) (layer : Nat) :
    ((pushLayer layers index id)[layer]?).getD [] = layers[layer]?.getD [] ++ if layer = index then [id] else [] := by
  induction layers, index, id using pushLayer.induct generalizing layer with
  | case1 id =>
    cases layer <;> simp [pushLayer]
  | case2 index id ih =>
    cases layer with
    | zero => simp [pushLayer]
    | succ layer => simpa [pushLayer] using ih layer
  | case3 id ids layers =>
    cases layer <;> simp [pushLayer]
  | case4 ids layers index id ih =>
    cases layer with
    | zero => simp [pushLayer]
    | succ layer => simpa [pushLayer] using ih layer

theorem getElem?_foldl_pushLayer (depth : String → Nat) (nodes : List (Node π)) (layers : List (List String)) (layer : Nat) :
    ((nodes.foldl (fun layers node => pushLayer layers (depth node.id) node.id) layers)[layer]?).getD [] =
      layers[layer]?.getD [] ++ (nodes.filter (depth ·.id = layer)).map (·.id) := by
  induction nodes generalizing layers with
  | nil => simp
  | cons node rest ih =>
    rw [List.foldl_cons, ih, getElem?_pushLayer, List.filter_cons, List.append_assoc]
    by_cases here : depth node.id = layer
    · simp [here]
    · simp [here, Ne.symm here]

variable {edges : List Edge} {id : String} {nodes : List (Node π)}

theorem mem_layer {layer : Nat} :
    id ∈ ((layersOf nodes edges)[layer]?).getD [] ↔ depthOf (graphDepths nodes edges) id = layer ∧ ∃ node ∈ nodes, node.id = id := by
  unfold layersOf
  rw [getElem?_foldl_pushLayer (depthOf (graphDepths nodes edges)) nodes]
  simp only [List.getElem?_nil, Option.getD_none, List.nil_append, List.mem_map, List.mem_filter, decide_eq_true_eq]
  constructor
  · rintro ⟨node, ⟨member, deep⟩, rfl⟩
    exact ⟨deep, node, member, rfl⟩
  · rintro ⟨deep, node, member, rfl⟩
    exact ⟨node, ⟨member, deep⟩, rfl⟩

def OnLayer (definition : Definition π ν) (id : String) (layer : Nat) : Prop :=
  ∃ ids, (layersOf definition.nodes definition.edges)[layer]? = some ids ∧ id ∈ ids

theorem onLayer_iff {definition : Definition π ν} {layer : Nat} :
    OnLayer definition id layer ↔
      depthOf (graphDepths definition.nodes definition.edges) id = layer ∧ ∃ node ∈ definition.nodes, node.id = id := by
  rw [← mem_layer, OnLayer]
  cases (layersOf definition.nodes definition.edges)[layer]? with
  | none => simp
  | some ids => simp

theorem mem_usableEdges {pair : String × String} (member : pair ∈ usableEdges nodes edges) :
    (∃ node ∈ nodes, node.id = pair.1) ∧ (∃ node ∈ nodes, node.id = pair.2) := by
  unfold usableEdges at member
  obtain ⟨edge, kept, rfl⟩ := List.mem_map.mp member
  have known := (List.mem_filter.mp kept).2
  simp only [Bool.and_eq_true, List.any_eq_true, decide_eq_true_eq] at known
  exact known.1

theorem graphDepths_lt (acyclic : Acyclic (usableEdges nodes edges))
    (member : pair ∈ usableEdges nodes edges) :
    depthOf (graphDepths nodes edges) pair.1 < depthOf (graphDepths nodes edges) pair.2 := by
  have known : ∀ pair ∈ usableEdges nodes edges, pair.1 ∈ nodes.map (·.id) ∧ pair.2 ∈ nodes.map (·.id) := by
    intro pair member
    obtain ⟨⟨source, first, here⟩, ⟨target, second, there⟩⟩ := mem_usableEdges member
    rw [← here, ← there]
    exact ⟨List.mem_map_of_mem first, List.mem_map_of_mem second⟩
  have flat : ∀ id, depthOf (Dict.ofList (nodes.map fun node => (node.id, 0))) id = 0 := by
    intro id
    unfold depthOf
    cases found : (Dict.ofList (nodes.map fun node => (node.id, 0))).get? id with
    | none => rfl
    | some depth =>
      obtain ⟨node, _, same⟩ := List.mem_map.mp (Dict.mem_of_get?_ofList found)
      exact (congrArg Prod.snd same).symm
  have lower := relaxUpTo_lt acyclic known flat member
  rwa [List.length_map] at lower

variable {rounding options}

theorem mem_positions {position : Position} :
    (id, position) ∈ ((layersOf nodes edges).zipIdx.flatMap fun (ids, layer) => placeLayer rounding options nodes ids layer) ↔
      ∃ layer rank ids, (layersOf nodes edges)[layer]? = some ids ∧ ids[rank]? = some id ∧
        position = placeAt rounding options (rowHeightOf options nodes ids) layer rank := by
  constructor
  · intro member
    obtain ⟨⟨ids, layer⟩, drawn, placed⟩ := List.mem_flatMap.mp member
    obtain ⟨⟨other, rank⟩, ranked, same⟩ := List.mem_map.mp placed
    obtain ⟨rfl, rfl⟩ := Prod.mk.inj same
    exact ⟨layer, rank, ids, List.mem_zipIdx_iff_getElem?.mp drawn, List.mem_zipIdx_iff_getElem?.mp ranked, rfl⟩
  · rintro ⟨layer, rank, ids, drawn, ranked, rfl⟩
    apply List.mem_flatMap.mpr
    refine ⟨(ids, layer), List.mem_zipIdx_iff_getElem?.mpr drawn, ?_⟩
    exact List.mem_map.mpr ⟨(id, rank), List.mem_zipIdx_iff_getElem?.mpr ranked, rfl⟩

theorem get?_positionsOf {position : Position}
    (found : (positionsOf rounding options nodes edges).get? id = some position) :
    ∃ layer rank ids, (layersOf nodes edges)[layer]? = some ids ∧ ids[rank]? = some id ∧
      position = placeAt rounding options (rowHeightOf options nodes ids) layer rank :=
  mem_positions.mp (Dict.mem_of_get?_ofList found)

variable (rounding options) in
theorem exists_position (edges : List Edge) (member : node ∈ nodes) :
    ∃ position, (positionsOf rounding options nodes edges).get? node.id = some position := by
  apply Dict.exists_get?_ofList
  have inside : node.id ∈ ((layersOf nodes edges)[depthOf (graphDepths nodes edges) node.id]?).getD [] := mem_layer.mpr ⟨rfl, node, member, rfl⟩
  cases drawn : (layersOf nodes edges)[depthOf (graphDepths nodes edges) node.id]? with
  | none => simp [drawn] at inside
  | some ids =>
    rw [drawn, Option.getD_some] at inside
    obtain ⟨rank, ranked⟩ := List.getElem?_of_mem inside
    exact List.mem_map.mpr ⟨(node.id, _), mem_positions.mpr ⟨_, rank, ids, drawn, ranked, rfl⟩, rfl⟩

theorem boundedGap_nonneg (value : Option Layout.Num) {fallback : ℚ} (positive : 0 ≤ fallback) : 0 ≤ boundedGap value fallback := by
  unfold boundedGap
  split
  · exact le_min (by norm_num) (le_max_left ..)
  · exact positive

def NoneClamped (rounding : Rounding) (options : CanvasAutoLayoutOptions) (definition : Definition π ν) : Prop :=
  ∀ layer rank ids, (layersOf definition.nodes definition.edges)[layer]? = some ids → rank < ids.length →
    Unclamped (columnX rounding options layer) ∧ Unclamped (rankY rounding options (rowHeightOf options definition.nodes ids) rank)

theorem columnX_ne {one other : Nat} (different : one ≠ other) (first : Unclamped (columnX rounding options one))
    (second : Unclamped (columnX rounding options other)) : columnX rounding options one ≠ columnX rounding options other := by
  have gap : 0 ≤ columnGap options := boundedGap_nonneg options.column_gap (by norm_num [CANVAS_LAYOUT_COLUMN_GAP])
  have wide : ((320 : Int) : ℚ) ≤ rounding.round (GRAPH_NODE_WIDTH + columnGap options) :=
    rounding.le_round 320 (by norm_num) (by norm_num [GRAPH_NODE_WIDTH, gap])
  push_cast at wide
  exact rounding.steps_ne (le_clampGraphPosition _) (clampGraphPosition_le _) (by linarith) different first second

theorem rankY_ne {rowHeight one other : Nat} (high : 112 ≤ rowHeight) (different : one ≠ other)
    (first : Unclamped (rankY rounding options rowHeight one)) (second : Unclamped (rankY rounding options rowHeight other)) :
    rankY rounding options rowHeight one ≠ rankY rounding options rowHeight other := by
  have gap : 0 ≤ rowGap options := boundedGap_nonneg options.row_gap (by norm_num [CANVAS_LAYOUT_ROW_GAP])
  have tall : (112 : ℚ) ≤ rowHeight := by exact_mod_cast high
  have wide : ((112 : Int) : ℚ) ≤ rounding.round (rowHeight + rowGap options) :=
    rounding.le_round 112 (by norm_num) (by push_cast; linarith)
  push_cast at wide
  exact rounding.steps_ne (le_clampGraphPosition _) (clampGraphPosition_le _) (by linarith) different first second

theorem rowHeightOf_ge (nodes : List (Node π)) {ids : List String} (nonempty : ids ≠ []) : 112 ≤ rowHeightOf options nodes ids := by
  unfold rowHeightOf
  cases highest : (ids.map fun id => graphNodeHeight (descriptorOf options nodes id)).max? with
  | none => exact absurd (List.map_eq_nil_iff.mp (List.max?_eq_none_iff.mp highest)) nonempty
  | some height =>
    obtain ⟨id, _, same⟩ := List.mem_map.mp (List.max?_mem highest)
    rw [Option.getD_some, ← same]
    exact graphNodeHeight_ge _

theorem positionsOf_inj {definition : Definition π ν} (free : NoneClamped rounding options definition)
    (first : (positionsOf rounding options definition.nodes definition.edges).get? one = some position)
    (second : (positionsOf rounding options definition.nodes definition.edges).get? other = some position) : one = other := by
  obtain ⟨layer, rank, ids, drawn, ranked, rfl⟩ := get?_positionsOf first
  obtain ⟨layer', rank', ids', drawn', ranked', same⟩ := get?_positionsOf second
  obtain ⟨x, y⟩ := free layer rank ids drawn (List.getElem?_eq_some_iff.mp ranked).1
  obtain ⟨x', y'⟩ := free layer' rank' ids' drawn' (List.getElem?_eq_some_iff.mp ranked').1
  simp only [placeAt, Position.mk.injEq, Layout.Num.finite.injEq] at same
  rw [x, x', y, y'] at same
  have column : layer = layer' := by
    by_contra different
    exact columnX_ne different x x' same.1
  subst column
  have whole : ids = ids' := Option.some.inj (drawn.symm.trans drawn')
  subst whole
  have nonempty : ids ≠ [] := List.ne_nil_of_mem (List.mem_of_getElem? ranked)
  have row : rank = rank' := by
    by_contra different
    exact rankY_ne (rowHeightOf_ge definition.nodes nonempty) different y y' same.2
  subst row
  exact Option.some.inj (ranked.symm.trans ranked')

end NovelStudio.Canvas

/-! The automatic layout is a layered drawing that changes positions only. -/

namespace NovelStudio.Canvas

open Library

variable {π ν : Type} {rounding : Rounding} {options : CanvasAutoLayoutOptions}

def SameButPlaces (nodes placed : List (Node π)) : Prop :=
  List.Forall₂ (fun node other => other = { node with position := other.position }) nodes placed

theorem sameButPlaces_map (nodes : List (Node π)) (place : Node π → Position) :
    SameButPlaces nodes (nodes.map fun node => { node with position := place node }) := by
  induction nodes with
  | nil => exact .nil
  | cons node rest ih => exact .cons rfl ih

variable {nodes placed : List (Node π)}

theorem SameButPlaces.any_id (same : SameButPlaces nodes placed) (id : String) :
    placed.any (·.id = id) = nodes.any (·.id = id) := by
  induction same with
  | nil => rfl
  | cons here _ ih =>
    rw [List.any_cons, List.any_cons, ih, here]

theorem SameButPlaces.length_eq (same : SameButPlaces nodes placed) : placed.length = nodes.length :=
  (List.Forall₂.length_eq same).symm

theorem SameButPlaces.map_id {β : Type} (same : SameButPlaces nodes placed) (read : String → β) :
    (placed.map fun node => read node.id) = nodes.map fun node => read node.id := by
  induction same with
  | nil => rfl
  | cons here _ ih =>
    rw [List.map_cons, List.map_cons, ih, here]

theorem SameButPlaces.foldl_id {β : Type} (same : SameButPlaces nodes placed) (step : β → String → β) (start : β) :
    placed.foldl (fun reached node => step reached node.id) start = nodes.foldl (fun reached node => step reached node.id) start := by
  induction same generalizing start with
  | nil => rfl
  | cons here _ ih =>
    rw [List.foldl_cons, List.foldl_cons, ih, here]

theorem SameButPlaces.kind_eq (same : SameButPlaces nodes placed) (id : String) :
    (placed.find? (·.id = id)).map (·.definition_id) = (nodes.find? (·.id = id)).map (·.definition_id) := by
  induction same with
  | nil => rfl
  | @cons node other _ _ here _ ih =>
    rw [List.find?_cons, List.find?_cons, here]
    cases decide (node.id = id) with
    | true => rfl
    | false => exact ih

theorem SameButPlaces.positionsOf (same : SameButPlaces nodes placed) (edges : List Edge) :
    positionsOf rounding options placed edges = positionsOf rounding options nodes edges := by
  have usable : usableEdges placed edges = usableEdges nodes edges := by
    simp only [usableEdges, same.any_id]
  have depths : graphDepths placed edges = graphDepths nodes edges := by
    simp only [graphDepths, usable, same.length_eq, same.map_id fun id => (id, 0)]
  have layers : layersOf placed edges = layersOf nodes edges := by
    simp only [layersOf, depths]
    exact same.foldl_id (fun layers id => pushLayer layers (depthOf (graphDepths nodes edges) id) id) []
  simp only [Canvas.positionsOf, placeLayer, rowHeightOf, descriptorOf, layers, same.kind_eq]

theorem sameButPlaces_autoLayout (definition : Definition π ν) :
    SameButPlaces definition.nodes (autoLayout rounding options definition).nodes :=
  sameButPlaces_map definition.nodes _

theorem autoLayout_autoLayout (definition : Definition π ν) :
    autoLayout rounding options (autoLayout rounding options definition) = autoLayout rounding options definition := by
  have positions : positionsOf rounding options (autoLayout rounding options definition).nodes definition.edges =
      positionsOf rounding options definition.nodes definition.edges := (sameButPlaces_autoLayout definition).positionsOf definition.edges
  show ({ autoLayout rounding options definition with nodes := _ } : Definition π ν) = _
  unfold autoLayout at positions ⊢
  simp only [positions, List.map_map, Function.comp_def]
  congr 2
  funext node
  cases (positionsOf rounding options definition.nodes definition.edges).get? node.id with
  | none => rfl
  | some position => rfl

theorem autoLayout_column {definition : Definition π ν} (member : node ∈ (autoLayout rounding options definition).nodes) :
    ∃ layer, OnLayer definition node.id layer ∧
      node.position.x = .finite (clampGraphPosition (.finite (columnX rounding options layer))) := by
  obtain ⟨former, before, rfl⟩ := List.mem_map.mp member
  obtain ⟨position, found⟩ := exists_position rounding options definition.edges before
  obtain ⟨layer, rank, ids, drawn, ranked, rfl⟩ := get?_positionsOf found
  exact ⟨layer, ⟨ids, drawn, List.mem_of_getElem? ranked⟩, by rw [found]; rfl⟩

theorem autoLayout_apart {definition : Definition π ν} (distinct : (definition.nodes.map (·.id)).Nodup)
    (free : NoneClamped rounding options definition) : ((autoLayout rounding options definition).nodes.map (·.position)).Nodup := by
  show ((definition.nodes.map _).map _).Nodup
  rw [List.map_map]
  apply List.Nodup.map_on
  · intro one first other second same
    obtain ⟨position, here⟩ := exists_position rounding options definition.edges first
    obtain ⟨place, there⟩ := exists_position rounding options definition.edges second
    have together : position = place := by simpa [here, there] using same
    subst together
    exact List.inj_on_of_nodup_map distinct first second (positionsOf_inj free here there)
  · exact List.Nodup.of_map _ distinct

/-- The layout of a graph with distinct ids changes positions only, and none that it gave itself. Every node lies in the column of its layer,
without cycles every edge leads to a later layer, and where nothing is clamped no two nodes lie at one place. -/
theorem autoLayout_layered (definition : Definition π ν) (distinct : (definition.nodes.map (·.id)).Nodup) :
    (autoLayout rounding options definition = { definition with nodes := (autoLayout rounding options definition).nodes } ∧
        SameButPlaces definition.nodes (autoLayout rounding options definition).nodes) ∧
      autoLayout rounding options (autoLayout rounding options definition) = autoLayout rounding options definition ∧
      (∀ node ∈ (autoLayout rounding options definition).nodes, ∃ layer, OnLayer definition node.id layer ∧
        node.position.x = .finite (clampGraphPosition (.finite (columnX rounding options layer)))) ∧
      (Acyclic (usableEdges definition.nodes definition.edges) → ∀ edge ∈ usableEdges definition.nodes definition.edges,
        ∀ early late, OnLayer definition edge.1 early → OnLayer definition edge.2 late → early < late) ∧
      (NoneClamped rounding options definition → ((autoLayout rounding options definition).nodes.map (·.position)).Nodup) := by
  refine ⟨⟨rfl, sameButPlaces_autoLayout definition⟩, autoLayout_autoLayout definition, fun _ member => autoLayout_column member, ?_,
    autoLayout_apart distinct⟩
  intro acyclic edge member early late first second
  rw [← (onLayer_iff.mp first).1, ← (onLayer_iff.mp second).1]
  exact graphDepths_lt acyclic member

/-- A text that is drafted twice and reviewed, with the edge to the review first. -/
def drafted : Definition Unit Unit where
  schema_version := 1
  title := "Draft"
  nodes := [("review", "human_review"), ("text", "text_input"), ("draft", "draft_prepare"), ("again", "draft_prepare")].map fun (id, kind) =>
    ⟨id, kind, 1, true, ⟨.nan, .infinite true⟩, ()⟩
  edges := [("draft", "review"), ("again", "review"), ("text", "draft"), ("text", "again")].map fun (source, target) =>
    ⟨source ++ target, source, "out", target, "in"⟩
  viewport := ⟨⟨.finite 0, .finite 0⟩, .finite 1⟩
  presentation := none

theorem drafted_laid :
    (autoLayout Rounding.none ⟨none, some .nan, some (.finite 28), none⟩ drafted).nodes.map (fun node => (node.id, node.position)) =
        [("review", ⟨.finite 832, .finite 0⟩), ("text", ⟨.finite 0, .finite 0⟩), ("draft", ⟨.finite 416, .finite 0⟩),
          ("again", ⟨.finite 416, .finite 140⟩)] ∧
      autoLayout Rounding.none ⟨none, some .nan, some (.finite 28), none⟩
          (autoLayout Rounding.none ⟨none, some .nan, some (.finite 28), none⟩ drafted) =
        autoLayout Rounding.none ⟨none, some .nan, some (.finite 28), none⟩ drafted :=
  ⟨by decide +kernel, (autoLayout_layered drafted (by decide)).2.1⟩

end NovelStudio.Canvas
