import NovelStudio.Library.Fallible
import NovelStudio.Library.Forest
import NovelStudio.Library.Json
import NovelStudio.Library.Readings

/-! The tree of nodes of a static scene and its traversal (`creative/model_reference_scene.py`). What is computed in
floats is left to `Floats`; matrices are of any type. -/

namespace NovelStudio.ModelReference

open Library

def sceneInvalid : String := "MODEL_REFERENCE_GLB_SCENE_INVALID"

def transformInvalid : String := "MODEL_REFERENCE_GLB_TRANSFORM_INVALID"

def transformLimit : String := "MODEL_REFERENCE_GLB_TRANSFORM_LIMIT"

def extensionUnsupported : String := "MODEL_REFERENCE_GLB_ANIMATION_OR_EXTENSION_UNSUPPORTED"

def notTree : String := "MODEL_REFERENCE_GLB_SCENE_NOT_TREE"

/-- The arithmetic of transforms; `none` where a number leaves its limits. -/
structure Floats (μ ρ β : Type) where
  identity : μ
  /-- A matrix that is given by its columns. -/
  given : List PyFloat → μ
  /-- `T * R * S` of a translation, a scale and a rotation, if that is of unit length. -/
  composed : List PyFloat → List PyFloat → List PyFloat → Option μ
  multiply : μ → μ → Option μ
  transform : μ → ρ → Option ρ
  noBounds : β
  widen : β → ρ → β

variable {μ ρ β τ : Type}

/-- A number of a vector, as a float. -/
def coordinate : Json → Option PyFloat
  | .int value => if value < -1000000000 ∨ 1000000000 < value then none else some (.finite value)
  | .float (.finite value) => if value < -1000000000 ∨ 1000000000 < value then none else some (.finite value)
  | .float .negZero => some .negZero
  | _ => none

def vector (value : Json) (length : Nat) : Except String (List PyFloat) :=
  match value with
  | .list items => if items.length ≠ length then .error transformInvalid else fetch (items.mapM coordinate) transformInvalid
  | _ => .error transformInvalid

def isZero (value : PyFloat) : Bool := value = .finite 0 || value = .negZero

/-- `[matrix[index] for index in (3, 7, 11, 15)] == [0, 0, 0, 1]`. -/
def affine (matrix : List PyFloat) : Bool :=
  [3, 7, 11].all (fun index => matrix[index]?.any isZero) && matrix[15]? = some (.finite 1)

/-- The default of a vector that is not given. -/
def vectorOf (fields : List (String × Json)) (key : String) (default : List Int) : Except String (List PyFloat) :=
  vector ((lookup key fields).getD (.list (default.map Json.int))) default.length

def localMatrix (floats : Floats μ ρ β) (fields : List (String × Json)) : Except String μ :=
  match lookup "matrix" fields with
  | some value => do
    reject (["translation", "rotation", "scale"].any fun key => (lookup key fields).isSome) transformInvalid
    let matrix ← vector value 16
    reject (!affine matrix) transformInvalid
    return floats.given matrix
  | none => do
    let translation ← vectorOf fields "translation" [0, 0, 0]
    let scale ← vectorOf fields "scale" [1, 1, 1]
    let rotation ← vectorOf fields "rotation" [0, 0, 0, 1]
    fetch (floats.composed translation scale rotation) "MODEL_REFERENCE_GLB_ROTATION_INVALID"

/-- The inner function `index` of `scene_tree`. -/
def index (total : Nat) : Json → Except String Nat
  | .int value => if 0 ≤ value ∧ value < total then .ok value.toNat else .error sceneInvalid
  | _ => .error sceneInvalid

/-- A node with its entries in `nodes`, `children` and `transforms`. -/
structure TreeNode (μ : Type) where
  fields : List (String × Json)
  children : List Nat
  transform : μ

/-- What the loop over the nodes has counted and read. -/
structure Counting (μ : Type) where
  parents : Nat → Int
  rows : List (TreeNode μ)

def countChild (parents : Nat → Int) (child : Nat) : Except String (Nat → Int) :=
  if 1 < parents child + 1 then .error notTree else .ok (Function.update parents child (parents child + 1))

def readChildren (total : Nat) (fields : List (String × Json)) : Except String (List Nat) :=
  match (lookup "children" fields).getD (.list []) with
  | .list values => do
    reject (total < values.length) sceneInvalid
    let children ← values.mapM (index total)
    reject (¬ children.Nodup) sceneInvalid
    return children
  | _ => .error sceneInvalid

def Counting.read (floats : Floats μ ρ β) (total : Nat) (state : Counting μ) : Json → Except String (Counting μ)
  | .dict fields => do
    reject ((lookup "extensions" fields).any Json.truthy) extensionUnsupported
    let children ← readChildren total fields
    let parents ← children.foldlM countChild state.parents
    let transform ← localMatrix floats fields
    return ⟨parents, state.rows ++ [⟨fields, children, transform⟩]⟩
  | _ => .error sceneInvalid

/-- `nodes` and `scenes`. -/
def nodesAndScenes (document : List (String × Json)) : Except String (List Json × List Json) :=
  match lookup "nodes" document, lookup "scenes" document with
  | some (.list nodes), some (.list scenes) =>
    if (1 ≤ nodes.length ∧ nodes.length ≤ 256) ∧ 1 ≤ scenes.length ∧ scenes.length ≤ 64 then .ok (nodes, scenes)
    else .error "MODEL_REFERENCE_GLB_SCENE_REQUIRED"
  | _, _ => .error "MODEL_REFERENCE_GLB_SCENE_REQUIRED"

/-- `selected`. -/
def selectedScene (document : List (String × Json)) (total : Nat) : Except String Nat :=
  match (lookup "scene" document).getD (if total = 1 then .int 0 else .null) with
  | .null => .error "MODEL_REFERENCE_GLB_SCENE_SELECTION_REQUIRED"
  | .int value => if 0 ≤ value ∧ value < total then .ok value.toNat else .error sceneInvalid
  | _ => .error sceneInvalid

def sceneRoots (total : Nat) (parents : Nat → Int) : Json → Except String (List Nat)
  | .dict fields =>
    match lookup "nodes" fields with
    | some (.list values) => do
      reject (total < values.length) sceneInvalid
      reject ((lookup "extensions" fields).any Json.truthy) extensionUnsupported
      let roots ← values.mapM (index total)
      reject (roots.isEmpty || ¬ roots.Nodup || roots.any fun root => parents root ≠ 0) sceneInvalid
      return roots
    | _ => .error sceneInvalid
  | _ => .error sceneInvalid

def childrenOf (rows : List (TreeNode μ)) (nodeId : Nat) : List Nat := (rows[nodeId]?.map TreeNode.children).getD []

/-- What `scene_tree` returns. -/
structure SceneTree (μ : Type) where
  rows : List (TreeNode μ)
  roots : List Nat
  selected : Nat

/-- What `scene_tree` has read before its loop that takes the nodes without parents. -/
structure Counted (μ : Type) where
  scene : Json
  selected : Nat
  counting : Counting μ

def countNodes (floats : Floats μ ρ β) (document : List (String × Json)) : Except String (Counted μ) := do
  let (nodes, scenes) ← nodesAndScenes document
  let selected ← selectedScene document scenes.length
  let counting ← nodes.foldlM (Counting.read floats nodes.length) ⟨fun _ => 0, []⟩
  let scene ← fetch scenes[selected]? "IndexError"
  return ⟨scene, selected, counting⟩

namespace Counted

def total (counted : Counted μ) : Nat := counted.counting.rows.length

/-- `queue`, its end first. -/
def queue (counted : Counted μ) : List Nat := ((List.range counted.total).filter fun nodeId => counted.counting.parents nodeId = 0).reverse

def finish (counted : Counted μ) (visited : Nat) : Except String (SceneTree μ) := do
  reject (visited ≠ counted.total) notTree
  let roots ← sceneRoots counted.total counted.counting.parents counted.scene
  return ⟨counted.counting.rows, roots, counted.selected⟩

end Counted

/-- `scene_tree`; `none` when its loop has not ended after so many turns. -/
def sceneTree (floats : Floats μ ρ β) (fuel : Nat) (document : List (String × Json)) : Option (Except String (SceneTree μ)) :=
  match countNodes floats document with
  | .error failure => some (.error failure)
  | .ok counted => (peel (childrenOf counted.counting.rows) fuel counted.counting.parents counted.queue 0).map counted.finish

structure Primitive (ρ τ : Type) where
  positions : List ρ
  triangles : List τ

/-- A primitive in the space of the scene. -/
structure Placed (ρ τ : Type) where
  nodeIndex : Nat
  meshIndex : Nat
  primitiveIndex : Nat
  positions : List ρ
  triangles : List τ

/-- The variables of the traversal besides its stack. -/
structure Placing (ρ β τ : Type) where
  primitives : List (Placed ρ τ)
  positions : Nat
  triangles : Nat
  instances : Nat
  traversed : Nat
  bounds : β

def placePrimitive (floats : Floats μ ρ β) (world : μ) (nodeId meshId : Nat) (state : Placing ρ β τ) (entry : Primitive ρ τ × Nat) :
    Except String (Placing ρ β τ) := do
  reject (4096 < state.positions + entry.1.positions.length || 2048 < state.triangles + entry.1.triangles.length || 128 ≤ state.primitives.length)
    "MODEL_REFERENCE_GLB_SCENE_PREVIEW_LIMIT"
  let transformed ← entry.1.positions.mapM fun point => fetch (floats.transform world point) transformLimit
  return { state with
    primitives := state.primitives ++ [⟨nodeId, meshId, entry.2, transformed, entry.1.triangles⟩]
    positions := state.positions + entry.1.positions.length
    triangles := state.triangles + entry.1.triangles.length
    bounds := transformed.foldl floats.widen state.bounds }

/-- The primitives of a node that has a mesh, in its world. -/
def placeMesh (floats : Floats μ ρ β) (meshes : List (List (Primitive ρ τ))) (world : μ) (nodeId : Nat) (fields : List (String × Json))
    (state : Placing ρ β τ) : Except String (Placing ρ β τ) :=
  match lookup "mesh" fields with
  | none => .ok state
  | some (.int meshId) => do
    reject (¬ (0 ≤ meshId ∧ meshId < meshes.length)) sceneInvalid
    let mesh ← fetch meshes[meshId.toNat]? "IndexError"
    mesh.zipIdx.foldlM (placePrimitive floats world nodeId meshId.toNat) { state with instances := state.instances + 1 }
  | some _ => .error sceneInvalid

/-- One turn: the node on top is placed; its world is what its children stand in. -/
def visit (floats : Floats μ ρ β) (rows : List (TreeNode μ)) (meshes : List (List (Primitive ρ τ))) (nodeId : Nat) (parent : μ)
    (state : Placing ρ β τ) : Except String (μ × Placing ρ β τ) := do
  let row ← fetch rows[nodeId]? "IndexError"
  let world ← fetch (floats.multiply parent row.transform) transformLimit
  let placed ← placeMesh floats meshes world nodeId row.fields { state with traversed := state.traversed + 1 }
  return (world, placed)

/-- The loop over the stack, its end first; `none` when it has not ended after so many turns. -/
def traverse (floats : Floats μ ρ β) (rows : List (TreeNode μ)) (meshes : List (List (Primitive ρ τ))) :
    Nat → List (Nat × μ) → Placing ρ β τ → Option (Except String (Placing ρ β τ))
  | _, [], state => some (.ok state)
  | 0, _ :: _, _ => none
  | fuel + 1, (nodeId, parent) :: stack, state =>
    match visit floats rows meshes nodeId parent state with
    | .error failure => some (.error failure)
    | .ok (world, placed) => traverse floats rows meshes fuel ((childrenOf rows nodeId).map (fun child => (child, world)) ++ stack) placed

/-- What `scene_geometry` returns, without its constants. -/
structure ScenePreview (ρ β τ : Type) where
  sceneIndex : Nat
  selection : String
  traversedNodes : Nat
  meshInstances : Nat
  positionCount : Nat
  triangleCount : Nat
  primitives : List (Placed ρ τ)
  bounds : β

def preview (document : List (String × Json)) (selected : Nat) (state : Placing ρ β τ) : Except String (ScenePreview ρ β τ) := do
  reject state.primitives.isEmpty "MODEL_REFERENCE_GLB_SCENE_EMPTY"
  return { sceneIndex := selected
           selection := if (lookup "scene" document).isSome then "DECLARED_DEFAULT" else "SOLE_SCENE"
           traversedNodes := state.traversed
           meshInstances := state.instances
           positionCount := state.positions
           triangleCount := state.triangles
           primitives := state.primitives
           bounds := state.bounds }

def startPlacing (floats : Floats μ ρ β) : Placing ρ β τ := ⟨[], 0, 0, 0, 0, floats.noBounds⟩

def sceneGeometry (floats : Floats μ ρ β) (fuel : Nat) (document : List (String × Json)) (meshes : List (List (Primitive ρ τ))) :
    Option (Except String (ScenePreview ρ β τ)) :=
  match sceneTree floats fuel document with
  | none => none
  | some (.error failure) => some (.error failure)
  | some (.ok tree) =>
    (traverse floats tree.rows meshes fuel (tree.roots.map fun root => (root, floats.identity)) (startPlacing floats)).map fun ended =>
      ended >>= preview document tree.selected

end NovelStudio.ModelReference
