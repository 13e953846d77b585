import Mathlib.Data.Rat.Floor
import NovelStudio.Library.Fallible
import NovelStudio.Library.Json
import NovelStudio.Library.JsonDecoder
import NovelStudio.Library.Notes
import NovelStudio.Library.Utf8

/-! The container of a binary model and the tables of its buffer (`creative/model_reference_glb.py`). -/

namespace NovelStudio.ModelReference

open Library

inductive Raised where
  | valueError (code : String)
  | typeError
  | structError
  | indexError
  deriving DecidableEq

def fail (code : String) : Except Raised α := .error (.valueError code)

/-- `if bad: _fail(code)`. -/
def refuse (bad : Bool) (code : String) : Except Raised Unit := reject bad (.valueError code)

def maxBytes : Nat := 8 * 1024 * 1024

def maxJsonBytes : Nat := 1024 * 1024

def maxVertices : Nat := 100000

def maxIndices : Nat := 300000

abbrev Fields := List (PyStr × Decoded)

/-- `fields.get(name)`. -/
def get (fields : Fields) (name : String) : Option Decoded := (fields.find? fun entry => entry.1 = pyStr name).map Prod.snd

/-- `value == name`, for a text. -/
def isText (value : Option Decoded) (name : String) : Bool :=
  match value with
  | some (.str text) => text = pyStr name
  | _ => false

/-- `bool(value)`, where `literal` says what `float` reads. -/
def truthy (literal : List Char → PyFloat) : Option Decoded → Bool
  | none | some .null => false
  | some (.bool value) => value
  | some (.int value) => value ≠ 0
  | some (.float text) => literal text ≠ .finite 0 && literal text ≠ .negZero
  | some (.str text) => !text.isEmpty
  | some (.list items) => !items.isEmpty
  | some (.dict fields) => !fields.isEmpty

/-- `_integer`, for bounds that are not negative. -/
def integer (value : Option Decoded) (minimum maximum : Nat) : Except Raised Nat :=
  match value with
  | some (.int number) => if minimum ≤ number ∧ number ≤ maximum then .ok number.toNat else fail "MODEL_REFERENCE_GLB_RANGE_INVALID"
  | _ => fail "MODEL_REFERENCE_GLB_RANGE_INVALID"

def object : Option Decoded → Except Raised Fields
  | some (.dict fields) => .ok fields
  | _ => fail "MODEL_REFERENCE_GLB_STRUCTURE_INVALID"

def array (value : Option Decoded) (maximum : Nat) (required : Bool) : Except Raised (List Decoded) :=
  match value with
  | some (.list items) =>
    if maximum < items.length ∨ required = true ∧ items = [] then fail "MODEL_REFERENCE_GLB_STRUCTURE_INVALID" else .ok items
  | _ => fail "MODEL_REFERENCE_GLB_STRUCTURE_INVALID"

/-- `_pairs` and the `parse_constant` beside it; what they raise themselves is not told apart from text that is no JSON. -/
def hooks : Hooks := ⟨fun items => if (items.map Prod.fst).Nodup then some items else none, fun _ => none⟩

/-- The loop of `_inspect_json` over its stack, its end first, with so many visits left. -/
def inspectJson (literal : List Char → PyFloat) : Nat → List (Decoded × Nat) → Except Raised Unit
  | _, [] => .ok ()
  | 0, _ :: _ => fail "MODEL_REFERENCE_GLB_JSON_LIMIT"
  | room + 1, (item, depth) :: pending =>
    if 48 < depth then fail "MODEL_REFERENCE_GLB_JSON_LIMIT"
    else
      match item with
      | .dict fields =>
        if (get fields "uri").isSome then fail "MODEL_REFERENCE_GLB_URI_UNSUPPORTED"
        else inspectJson literal room ((fields.map fun entry => (entry.2, depth + 1)).reverse ++ pending)
      | .list items => inspectJson literal room ((items.map fun child => (child, depth + 1)).reverse ++ pending)
      | .float text =>
        match literal text with
        | .inf _ | .nan => fail "MODEL_REFERENCE_GLB_NUMBER_INVALID"
        | _ => inspectJson literal room pending
      | _ => inspectJson literal room pending

/-- An unsigned number, its least byte first. -/
def word (bytes : List UInt8) : Nat := bytes.foldr (fun byte rest => byte.toNat + 256 * rest) 0

/-- The bytes that `struct.unpack_from` reads. -/
def unpackFrom (bytes : List UInt8) (offset size : Nat) : Except Raised (List UInt8) :=
  if offset + size ≤ bytes.length then .ok ((bytes.drop offset).take size) else .error .structError

/-- The loop over the chunks that are left, of which so many may still come. -/
def readChunks : Nat → List UInt8 → Except Raised (List (Nat × List UInt8))
  | _, [] => .ok []
  | 0, _ :: _ => fail "MODEL_REFERENCE_GLB_CHUNKS_INVALID"
  | room + 1, rest => do
    refuse (rest.length < 8) "MODEL_REFERENCE_GLB_CHUNKS_INVALID"
    let size := word (rest.take 4)
    refuse (size = 0 || size % 4 ≠ 0 || rest.length < 8 + size) "MODEL_REFERENCE_GLB_CHUNKS_INVALID"
    let later ← readChunks room (rest.drop (8 + size))
    return (word ((rest.drop 4).take 4), (rest.drop 8).take size) :: later

/-- The text and the binary of a file. -/
def readContainer (data : List UInt8) : Except Raised (List UInt8 × List UInt8) := do
  refuse (data.length < 28 || maxBytes < data.length) "MODEL_REFERENCE_GLB_SIZE_INVALID"
  refuse (word (data.take 4) ≠ 0x46546C67 || word ((data.drop 4).take 4) ≠ 2 || word ((data.drop 8).take 4) ≠ data.length)
    "MODEL_REFERENCE_GLB_HEADER_INVALID"
  match ← readChunks 2 (data.drop 12) with
  | [(first, text), (second, binary)] =>
    refuse (first ≠ 0x4E4F534A || second ≠ 0x004E4942) "MODEL_REFERENCE_GLB_EMBEDDED_BUFFER_REQUIRED"
    refuse (maxJsonBytes < text.length) "MODEL_REFERENCE_GLB_JSON_LIMIT"
    return (text, binary)
  | _ => fail "MODEL_REFERENCE_GLB_EMBEDDED_BUFFER_REQUIRED"

/-- `json.loads` of the text, where so many arrays and objects may be entered. -/
def loadDocument (depth : Nat) (text : List UInt8) : Except Raised Decoded :=
  match Utf8.decode 0 text with
  | .error _ => fail "MODEL_REFERENCE_GLB_JSON_INVALID"
  | .ok chars =>
    match loads hooks depth chars with
    | .error _ => fail "MODEL_REFERENCE_GLB_JSON_INVALID"
    | .ok document => .ok document

/-- A file whose document was looked through, with the size of its buffer. -/
structure Opened where
  document : Fields
  declared : Nat
  binary : List UInt8

/-- The function up to the length of the buffer. -/
def openGlb (literal : List Char → PyFloat) (depth : Nat) (data : List UInt8) : Except Raised Opened := do
  let (text, binary) ← readContainer data
  let loaded ← loadDocument depth text
  let document ← object (some loaded)
  inspectJson literal 40000 [(loaded, 0)]
  let asset ← object (get document "asset")
  refuse (!isText (get asset "version") "2.0" || (get asset "minVersion").any fun value => !isText (some value) "2.0")
    "MODEL_REFERENCE_GLB_VERSION_UNSUPPORTED"
  refuse (["extensionsUsed", "extensionsRequired", "animations", "skins"].any fun name => truthy literal (get document name))
    "MODEL_REFERENCE_GLB_ANIMATION_OR_EXTENSION_UNSUPPORTED"
  let buffers ← array (get document "buffers") 1 true
  let buffer ← object buffers.head?
  let declared ← integer (get buffer "byteLength") 1 maxBytes
  refuse (binary.length < declared || declared + 3 < binary.length || (binary.drop declared).any fun byte => byte ≠ 0)
    "MODEL_REFERENCE_GLB_BUFFER_LENGTH_INVALID"
  return ⟨document, declared, binary⟩

structure View where
  offset : Nat
  length : Nat
  stride : Option Nat
  deriving DecidableEq

/-- `value.get(name, 0)`. -/
def orZero (value : Option Decoded) : Option Decoded := some (value.getD (.int 0))

def readStride : Option Decoded → Except Raised (Option Nat)
  | none => .ok none
  | some value => do
    let stride ← integer (some value) 4 252
    refuse (stride % 4 ≠ 0) "MODEL_REFERENCE_GLB_STRIDE_INVALID"
    return some stride

def isTarget : Decoded → Bool
  | .int value => value = 34962 || value = 34963
  | _ => false

def readView (declared : Nat) (raw : Decoded) : Except Raised View := do
  let view ← object (some raw)
  match get view "buffer" with
  | some (.int 0) =>
    let start ← integer (orZero (get view "byteOffset")) 0 declared
    let size ← integer (get view "byteLength") 1 declared
    refuse (declared < start + size) "MODEL_REFERENCE_GLB_BUFFER_RANGE_INVALID"
    let stride ← readStride (get view "byteStride")
    refuse ((get view "target").any fun value => !isTarget value) "MODEL_REFERENCE_GLB_TARGET_INVALID"
    return ⟨start, size, stride⟩
  | _ => fail "MODEL_REFERENCE_GLB_BUFFER_INVALID"

/-- `sizes`, without the codes. -/
def componentSize : Option Decoded → Option Nat
  | some (.int 5120) | some (.int 5121) => some 1
  | some (.int 5122) | some (.int 5123) => some 2
  | some (.int 5125) | some (.int 5126) => some 4
  | _ => none

def widths (text : PyStr) : Option Nat :=
  if text = pyStr "SCALAR" then some 1
  else if text = pyStr "VEC2" then some 2
  else if text = pyStr "VEC3" then some 3
  else if text = pyStr "VEC4" then some 4
  else none

def accessorUnsupported : String := "MODEL_REFERENCE_GLB_ACCESSOR_UNSUPPORTED"

/-- `widths[value]`, where `value not in widths` asks for the hash of the value: lists and dictionaries have none. -/
def widthOf : Option Decoded → Except Raised Nat
  | some (.list _) | some (.dict _) => .error .typeError
  | some (.str text) => fetch (widths text) (.valueError accessorUnsupported)
  | _ => fail accessorUnsupported

def isBool : Decoded → Bool
  | .bool _ => true
  | _ => false

/-- An entry of `parsed`. -/
structure Parsed where
  item : Fields
  start : Nat
  stride : Nat
  count : Nat
  size : Nat
  width : Nat

def readAccessor (views : List View) (raw : Decoded) : Except Raised Parsed := do
  let item ← object (some raw)
  refuse (get item "sparse").isSome accessorUnsupported
  let width ← widthOf (get item "type")
  let size ← fetch (componentSize (get item "componentType")) (.valueError accessorUnsupported)
  refuse ((get item "normalized").any fun value => !isBool value) accessorUnsupported
  let place ← integer (get item "bufferView") 0 (views.length - 1)
  let view ← fetch views[place]? .indexError
  let count ← integer (get item "count") 1 maxIndices
  let within ← integer (orZero (get item "byteOffset")) 0 view.length
  let stride := view.stride.getD (size * width)
  refuse ((view.offset + within) % size ≠ 0 || within % size ≠ 0 || stride < size * width
    || view.length < within + (count - 1) * stride + size * width) "MODEL_REFERENCE_GLB_ACCESSOR_RANGE_INVALID"
  return ⟨item, view.offset + within, stride, count, size, width⟩

def readViews (opened : Opened) : Except Raised (List View) := do
  let views ← array (get opened.document "bufferViews") 1024 true
  views.mapM (readView opened.declared)

def accessorsOf (opened : Opened) : Except Raised (List Decoded) := array (get opened.document "accessors") 1024 true

end NovelStudio.ModelReference

/-! The positions and indices that the inspection reads, and what it reports of them (`creative/model_reference_glb.py`). -/

namespace NovelStudio.ModelReference

open Library

structure Read where
  offset : Nat
  size : Nat
  deriving DecidableEq

abbrev Reading := Noting Read Raised

/-- The magnitude of a single float that is no infinity and no NaN. -/
def magnitude (exponent fraction : Nat) : ℚ := if exponent = 0 then fraction / 2 ^ 149 else (2 ^ 23 + fraction) * 2 ^ exponent / 2 ^ 150

/-- The number of a single float, if it is finite. -/
def float32 (bits : Nat) : Option ℚ :=
  if bits / 2 ^ 23 % 256 = 255 then none
  else if bits / 2 ^ 31 % 2 = 1 then some (-magnitude (bits / 2 ^ 23 % 256) (bits % 2 ^ 23))
  else some (magnitude (bits / 2 ^ 23 % 256) (bits % 2 ^ 23))

/-- A coordinate that is finite and not too large. -/
def limited (bits : Nat) : Option ℚ := (float32 bits).filter fun number => |number| ≤ 1000000000

structure Point where
  x : ℚ
  y : ℚ
  z : ℚ
  deriving DecidableEq

def pointOf (bytes : List UInt8) : Option Point := do
  let x ← limited (word (bytes.take 4))
  let y ← limited (word ((bytes.drop 4).take 4))
  let z ← limited (word ((bytes.drop 8).take 4))
  return ⟨x, y, z⟩

/-- `struct.unpack_from` of the binary. -/
def unpack (binary : List UInt8) (offset size : Nat) : Reading (List UInt8) := do
  Noting.note ⟨offset, size⟩
  Noting.silent (unpackFrom binary offset size)

def readPoint (binary : List UInt8) (accessor : Parsed) (index : Nat) : Reading Point := do
  let bytes ← unpack binary (accessor.start + index * accessor.stride) 12
  Noting.silent (fetch (pointOf bytes) (.valueError "MODEL_REFERENCE_GLB_POSITION_INVALID"))

def readIndex (binary : List UInt8) (accessor : Parsed) (count index : Nat) : Reading Nat := do
  let bytes ← unpack binary (accessor.start + index * accessor.stride) accessor.size
  Noting.silent (refuse (count ≤ word bytes) "MODEL_REFERENCE_GLB_INDEX_OUT_OF_RANGE")
  return word bytes

/-- `minimum` and `maximum`; before any point they are infinite. -/
def widen (bounds : Option (Point × Point)) (point : Point) : Option (Point × Point) :=
  match bounds with
  | none => some (point, point)
  | some (least, greatest) =>
    some (⟨min least.x point.x, min least.y point.y, min least.z point.z⟩, ⟨max greatest.x point.x, max greatest.y point.y, max greatest.z point.z⟩)

structure Geometry where
  positions : List Point
  triangles : List (List Nat)
  deriving DecidableEq

/-- `[indices[index:index + 3] for index in range(0, len(indices), 3)]`, for a multiple of three. -/
def triples (indices : List Nat) : List (List Nat) := (List.range (indices.length / 3)).map fun triangle => (indices.drop (3 * triangle)).take 3

/-- The variables of the loops over the meshes and their primitives. -/
structure Tally where
  vertices : Nat
  indices : Nat
  primitives : Nat
  triangles : Nat
  bounds : Option (Point × Point)
  preview : List Geometry
  deriving DecidableEq

/-- `item["componentType"]`. -/
def componentType (item : Fields) : Option Int :=
  match get item "componentType" with
  | some (.int value) => some value
  | _ => none

/-- `mode` is absent or four. -/
def isTriangles (primitive : Fields) : Bool :=
  match get primitive "mode" with
  | none => true
  | some (.int value) => value = 4
  | _ => false

/-- The accessor at a place of `parsed`. -/
def accessorAt (parsed : List Parsed) (value : Option Decoded) : Except Raised Parsed := do
  let place ← integer value 0 (parsed.length - 1)
  fetch parsed[place]? .indexError

variable (literal : List Char → PyFloat) (includeGeometry : Bool)

/-- A primitive before its positions are read: its fields and the accessor of the positions. -/
def choosePositions (parsed : List Parsed) (tally : Tally) (raw : Decoded) : Except Raised (Fields × Parsed) := do
  let primitive ← object (some raw)
  refuse (128 < tally.primitives + 1 || !isTriangles primitive || truthy literal (get primitive "targets")
    || truthy literal (get primitive "extensions")) "MODEL_REFERENCE_GLB_PRIMITIVE_UNSUPPORTED"
  let attributes ← object (get primitive "attributes")
  attributes.forM fun entry => discard (integer (some entry.2) 0 (parsed.length - 1))
  let position ← accessorAt parsed (get attributes "POSITION")
  refuse (!isText (get position.item "type") "VEC3" || componentType position.item ≠ some 5126 || truthy literal (get position.item "normalized"))
    "MODEL_REFERENCE_GLB_POSITION_UNSUPPORTED"
  refuse (maxVertices < tally.vertices + position.count) "MODEL_REFERENCE_GLB_GEOMETRY_LIMIT"
  refuse (includeGeometry && 4096 < tally.vertices + position.count) "MODEL_REFERENCE_GLB_PREVIEW_LIMIT"
  return (primitive, position)

def chooseIndices (parsed : List Parsed) (tally : Tally) (value : Decoded) : Except Raised Parsed := do
  let accessor ← accessorAt parsed (some value)
  refuse (!isText (get accessor.item "type") "SCALAR" || componentType accessor.item ∉ [some 5121, some 5123, some 5125]
    || truthy literal (get accessor.item "normalized")) "MODEL_REFERENCE_GLB_INDICES_UNSUPPORTED"
  refuse (includeGeometry && 2048 < tally.triangles + accessor.count / 3) "MODEL_REFERENCE_GLB_PREVIEW_LIMIT"
  return accessor

/-- The indices of a primitive over so many positions; without an accessor they count up. -/
def readIndices (binary : List UInt8) (parsed : List Parsed) (tally : Tally) (primitive : Fields) (count : Nat) : Reading (List Nat) :=
  match get primitive "indices" with
  | none => pure (List.range count)
  | some value => do
    let accessor ← Noting.silent (chooseIndices literal includeGeometry parsed tally value)
    (List.range accessor.count).mapM (readIndex binary accessor count)

def Tally.add (tally : Tally) (positions : List Point) (indices : List Nat) : Tally where
  vertices := tally.vertices + positions.length
  indices := tally.indices + indices.length
  primitives := tally.primitives + 1
  triangles := tally.triangles + indices.length / 3
  bounds := positions.foldl widen tally.bounds
  preview := if includeGeometry then tally.preview ++ [⟨positions, triples indices⟩] else tally.preview

def readPrimitive (binary : List UInt8) (parsed : List Parsed) (tally : Tally) (raw : Decoded) : Reading Tally := do
  let (primitive, position) ← Noting.silent (choosePositions literal includeGeometry parsed tally raw)
  let positions ← (List.range position.count).mapM (readPoint binary position)
  let indices ← readIndices literal includeGeometry binary parsed tally primitive position.count
  Noting.silent (refuse (maxIndices < tally.indices + indices.length || indices.length % 3 ≠ 0) "MODEL_REFERENCE_GLB_TRIANGLES_INVALID")
  Noting.silent (refuse (includeGeometry && 2048 < tally.triangles + indices.length / 3) "MODEL_REFERENCE_GLB_PREVIEW_LIMIT")
  return tally.add includeGeometry positions indices

def primitivesOf (raw : Decoded) : Except Raised (List Decoded) := do
  let mesh ← object (some raw)
  refuse (truthy literal (get mesh "weights")) "MODEL_REFERENCE_GLB_MORPH_UNSUPPORTED"
  array (get mesh "primitives") 128 true

def readMesh (binary : List UInt8) (parsed : List Parsed) (tally : Tally) (raw : Decoded) : Reading Tally := do
  let primitives ← Noting.silent (primitivesOf literal raw)
  primitives.foldlM (readPrimitive literal includeGeometry binary parsed) tally

def checkNode (meshes : Nat) (raw : Decoded) : Except Raised Unit := do
  let node ← object (some raw)
  refuse ((get node "skin").isSome || truthy literal (get node "weights")) "MODEL_REFERENCE_GLB_ANIMATION_OR_EXTENSION_UNSUPPORTED"
  match get node "mesh" with
  | none => return ()
  | some value => discard (integer (some value) 0 (meshes - 1))

/-- The inspection, and with it the preview where geometry is included. -/
structure Inspection where
  byteCount : Nat
  meshCount : Nat
  nodeCount : Nat
  primitiveCount : Nat
  positionCount : Nat
  triangleCount : Nat
  bounds : Option (Point × Point)
  preview : List Geometry
  deriving DecidableEq

def readTables (opened : Opened) : Except Raised (List Parsed × List Decoded) := do
  let views ← readViews opened
  let accessors ← accessorsOf opened
  let parsed ← accessors.mapM (readAccessor views)
  let meshes ← array (get opened.document "meshes") 64 true
  return (parsed, meshes)

/-- `inspect_static_glb`, without scene, materials and cameras. -/
def inspectStaticGlb (depth : Nat) (data : List UInt8) : Reading Inspection := do
  let opened ← Noting.silent (openGlb literal depth data)
  let (parsed, meshes) ← Noting.silent (readTables opened)
  let tally ← meshes.foldlM (readMesh literal includeGeometry opened.binary parsed) ⟨0, 0, 0, 0, none, []⟩
  let nodes ← Noting.silent (array (some ((get opened.document "nodes").getD (.list []))) 256 false)
  Noting.silent (nodes.forM (checkNode literal meshes.length))
  return ⟨data.length, meshes.length, nodes.length, tally.primitives, tally.vertices, tally.triangles, tally.bounds, tally.preview⟩

end NovelStudio.ModelReference
