import Mathlib.Tactic.Linarith
import Mathlib.Tactic.Ring
import NovelStudio.Layout.Numbers

/-! The graph of the canvas, and the geometry of its nodes. -/

namespace NovelStudio.Canvas


structure Position where
  x : Layout.Num
  y : Layout.Num
  deriving DecidableEq

structure Viewport extends Position where
  zoom : Layout.Num
  deriving DecidableEq

structure Node (π : Type) where
  id : String
  definition_id : String
  definition_version : Nat
  enabled : Bool
  position : Position
  parameters : π
  deriving DecidableEq

structure Edge where
  id : String
  source_node_id : String
  source_port : String
  target_node_id : String
  target_port : String
  deriving DecidableEq

/-- `StudioGraphDefinition`, with what its parameters and its notes are. -/
structure Definition (π ν : Type) where
  schema_version : Nat
  title : String
  nodes : List (Node π)
  edges : List Edge
  viewport : Viewport
  presentation : Option ν
  deriving DecidableEq

structure Port where
  id : String
  type : String

/-- `GraphCanvasNodeDefinition`. -/
structure NodeDefinition where
  id : String
  inputs : List Port
  outputs : List Port

def GRAPH_NODE_WIDTH : ℚ := 320

def GRAPH_NODE_HEADER_HEIGHT : Nat := 64

def GRAPH_PORT_ROW_HEIGHT : Nat := 48

def GRAPH_POSITION_LIMIT : ℚ := 100000

def clampGraphPosition : Layout.Num → ℚ
  | .finite value => min GRAPH_POSITION_LIMIT (max (-GRAPH_POSITION_LIMIT) value)
  | _ => 0

def graphNodeHeight (descriptor : Option NodeDefinition) : Nat :=
  GRAPH_NODE_HEADER_HEIGHT +
    GRAPH_PORT_ROW_HEIGHT * max 1 (max (descriptor.elim 0 (·.inputs.length)) (descriptor.elim 0 (·.outputs.length)))

theorem graphNodeHeight_ge (descriptor : Option NodeDefinition) : 112 ≤ graphNodeHeight descriptor := by
  unfold graphNodeHeight GRAPH_NODE_HEADER_HEIGHT GRAPH_PORT_ROW_HEIGHT
  have one : 1 ≤ max 1 (max (descriptor.elim 0 (·.inputs.length)) (descriptor.elim 0 (·.outputs.length))) := Nat.le_max_left ..
  omega

/-- The coordinate lies where `clampGraphPosition` leaves it. -/
def Unclamped (value : ℚ) : Prop := clampGraphPosition (.finite value) = value

theorem unclamped_iff {value : ℚ} : Unclamped value ↔ -GRAPH_POSITION_LIMIT ≤ value ∧ value ≤ GRAPH_POSITION_LIMIT := by
  unfold Unclamped clampGraphPosition
  constructor
  · intro same
    have bounded : -GRAPH_POSITION_LIMIT ≤ GRAPH_POSITION_LIMIT := by norm_num [GRAPH_POSITION_LIMIT]
    rw [← same]
    exact ⟨le_min bounded (le_max_left ..), min_le_left ..⟩
  · intro bounds
    show min GRAPH_POSITION_LIMIT (max (-GRAPH_POSITION_LIMIT) value) = value
    rw [max_eq_right bounds.1, min_eq_right bounds.2]

theorem clampGraphPosition_le (value : Layout.Num) : clampGraphPosition value ≤ GRAPH_POSITION_LIMIT := by
  unfold clampGraphPosition
  split
  · exact min_le_left ..
  · norm_num [GRAPH_POSITION_LIMIT]

theorem le_clampGraphPosition (value : Layout.Num) : -GRAPH_POSITION_LIMIT ≤ clampGraphPosition value := by
  unfold clampGraphPosition
  split
  · exact le_min (by norm_num [GRAPH_POSITION_LIMIT]) (le_max_left ..)
  · norm_num [GRAPH_POSITION_LIMIT]

/-- The rounding of the language: it keeps the order, and the integers that its numbers hold. -/
structure Rounding where
  round : ℚ → ℚ
  monotone : Monotone round
  exact : ∀ number : Int, |number| ≤ 2 ^ 53 → round number = number

def Rounding.none : Rounding := ⟨id, monotone_id, fun _ _ => rfl⟩

theorem Rounding.near (rounding : Rounding) (value : ℚ) (small : |value| ≤ 2 ^ 52) :
    value - 1 < rounding.round value ∧ rounding.round value < value + 1 := by
  obtain ⟨least, most⟩ := abs_le.mp small
  have low : |⌊value⌋| ≤ 2 ^ 53 := by
    have below : (⌊value⌋ : ℚ) ≤ value := Int.floor_le value
    have above : value < ⌊value⌋ + 1 := Int.lt_floor_add_one value
    apply abs_le.mpr
    constructor
    · have bound : (-(2 ^ 53) : ℚ) ≤ ⌊value⌋ := by linarith
      exact_mod_cast bound
    · have bound : (⌊value⌋ : ℚ) ≤ 2 ^ 53 := by linarith
      exact_mod_cast bound
  have high : |⌈value⌉| ≤ 2 ^ 53 := by
    have below : value ≤ ⌈value⌉ := Int.le_ceil value
    have above : (⌈value⌉ : ℚ) < value + 1 := Int.ceil_lt_add_one value
    apply abs_le.mpr
    constructor
    · have bound : (-(2 ^ 53) : ℚ) ≤ ⌈value⌉ := by linarith
      exact_mod_cast bound
    · have bound : (⌈value⌉ : ℚ) ≤ 2 ^ 53 := by linarith
      exact_mod_cast bound
  constructor
  · calc value - 1 < ⌊value⌋ := Int.sub_one_lt_floor value
      _ = rounding.round ⌊value⌋ := (rounding.exact _ low).symm
      _ ≤ rounding.round value := rounding.monotone (Int.floor_le value)
  · calc rounding.round value ≤ rounding.round ⌈value⌉ := rounding.monotone (Int.le_ceil value)
      _ = ⌈value⌉ := rounding.exact _ high
      _ < value + 1 := Int.ceil_lt_add_one value

theorem Rounding.le_round (rounding : Rounding) (bound : Int) {value : ℚ} (small : |bound| ≤ 2 ^ 53) (below : bound ≤ value) :
    bound ≤ rounding.round value := by
  rw [← rounding.exact bound small]
  exact rounding.monotone below

theorem Rounding.further (rounding : Rounding) {origin near far : ℚ} (least : -GRAPH_POSITION_LIMIT ≤ origin)
    (most : origin ≤ GRAPH_POSITION_LIMIT) (positive : 0 ≤ near) (apart : near + 4 ≤ far)
    (inside : rounding.round (origin + rounding.round far) ≤ GRAPH_POSITION_LIMIT) :
    rounding.round (origin + rounding.round near) < rounding.round (origin + rounding.round far) := by
  unfold GRAPH_POSITION_LIMIT at least most inside
  have small : far ≤ 2 ^ 51 := by
    by_contra large
    have high := rounding.le_round (2 ^ 51) (by norm_num) (by push_cast; linarith : _ ≤ far)
    push_cast at high
    have there := rounding.le_round (2 ^ 51 - 100000) (by norm_num) (by push_cast; linarith : _ ≤ origin + rounding.round far)
    push_cast at there
    linarith
  obtain ⟨_, nearUp⟩ := rounding.near near (abs_le.mpr ⟨by linarith, by linarith⟩)
  obtain ⟨farDown, farUp⟩ := rounding.near far (abs_le.mpr ⟨by linarith, by linarith⟩)
  obtain ⟨nearDown, _⟩ := rounding.near near (abs_le.mpr ⟨by linarith, by linarith⟩)
  obtain ⟨_, lower⟩ := rounding.near (origin + rounding.round near) (abs_le.mpr ⟨by linarith, by linarith⟩)
  obtain ⟨upper, _⟩ := rounding.near (origin + rounding.round far) (abs_le.mpr ⟨by linarith, by linarith⟩)
  linarith

/-- Of equal steps from the origin the later gets the greater coordinate, as long as that is not clamped. -/
theorem Rounding.steps_lt (rounding : Rounding) {origin pitch : ℚ} {early late : Nat} (least : -GRAPH_POSITION_LIMIT ≤ origin)
    (most : origin ≤ GRAPH_POSITION_LIMIT) (wide : 4 ≤ pitch) (before : early < late)
    (inside : Unclamped (rounding.round (origin + rounding.round (late * pitch)))) :
    rounding.round (origin + rounding.round (early * pitch)) < rounding.round (origin + rounding.round (late * pitch)) := by
  have positive : (0 : ℚ) ≤ early * pitch := mul_nonneg (Nat.cast_nonneg early) (by linarith)
  have apart : early * pitch + 4 ≤ late * pitch := by
    have counted : (early : ℚ) + 1 ≤ late := by exact_mod_cast before
    calc early * pitch + 4 ≤ early * pitch + pitch := by linarith
      _ = (early + 1) * pitch := by ring
      _ ≤ late * pitch := mul_le_mul_of_nonneg_right counted (by linarith)
  exact rounding.further least most positive apart (unclamped_iff.mp inside).2

theorem Rounding.steps_ne (rounding : Rounding) {origin pitch : ℚ} {one other : Nat} (least : -GRAPH_POSITION_LIMIT ≤ origin)
    (most : origin ≤ GRAPH_POSITION_LIMIT) (wide : 4 ≤ pitch) (different : one ≠ other)
    (first : Unclamped (rounding.round (origin + rounding.round (one * pitch))))
    (second : Unclamped (rounding.round (origin + rounding.round (other * pitch)))) :
    rounding.round (origin + rounding.round (one * pitch)) ≠ rounding.round (origin + rounding.round (other * pitch)) := by
  rcases Nat.lt_or_gt_of_ne different with before | after
  · exact ne_of_lt (rounding.steps_lt least most wide before second)
  · exact ne_of_gt (rounding.steps_lt least most wide after first)

end NovelStudio.Canvas
