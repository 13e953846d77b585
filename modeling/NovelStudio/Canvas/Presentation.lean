import Mathlib.Data.List.Forall2
import NovelStudio.Canvas.Canonical

/-! How the difference of two graphs is classified: presentation only, or whatever may affect what is generated. -/

namespace NovelStudio.Canvas

open Library

inductive CanvasChangeReasonCode where
  | NO_CHANGE | POSITION_CHANGED | VIEWPORT_CHANGED
  | NODE_ADDED | NODE_REMOVED | NODE_REORDERED | NODE_DEFINITION_CHANGED | NODE_ENABLED_CHANGED | NODE_PARAMETERS_CHANGED | NODE_SHAPE_UNKNOWN
  | EDGE_ADDED | EDGE_REMOVED | EDGE_REORDERED | EDGE_ENDPOINT_CHANGED | EDGE_SHAPE_UNKNOWN
  | SCHEMA_CHANGED | TITLE_CHANGED | UNKNOWN_FIELD_CHANGED | NOT_COMPARABLE
  deriving DecidableEq

open CanvasChangeReasonCode

inductive CanvasChangeVerdict where
  | PRESENTATION | GENERATION_AFFECTING
  deriving DecidableEq

structure CanvasChangeClassification where
  verdict : CanvasChangeVerdict
  reasonCodes : List CanvasChangeReasonCode
  messages : List String
  deriving DecidableEq

def CANVAS_NODE_KEYS : List String := ["id", "definition_id", "definition_version", "enabled", "position", "parameters"]

def CANVAS_DEFINITION_KEYS : List String := ["schema_version", "title", "nodes", "edges", "viewport"]

def CANVAS_PRESENTATION_REASONS : List CanvasChangeReasonCode := [NO_CHANGE, POSITION_CHANGED, VIEWPORT_CHANGED]

def CANVAS_REASON_ORDER : List CanvasChangeReasonCode := [NO_CHANGE, POSITION_CHANGED, VIEWPORT_CHANGED,
  NODE_ADDED, NODE_REMOVED, NODE_REORDERED, NODE_DEFINITION_CHANGED, NODE_ENABLED_CHANGED, NODE_PARAMETERS_CHANGED,
  NODE_SHAPE_UNKNOWN, EDGE_ADDED, EDGE_REMOVED, EDGE_REORDERED, EDGE_ENDPOINT_CHANGED, EDGE_SHAPE_UNKNOWN,
  SCHEMA_CHANGED, TITLE_CHANGED, UNKNOWN_FIELD_CHANGED, NOT_COMPARABLE]

/-- `CANVAS_REASON_MESSAGES`. -/
def CanvasChangeReasonCode.message : CanvasChangeReasonCode → String
  | NO_CHANGE => "与比较基准一致，没有本地差异。"
  | POSITION_CHANGED => "只有节点位置发生变化，属于画布呈现。"
  | VIEWPORT_CHANGED => "只有画布视口（平移/缩放）发生变化，属于画布呈现。"
  | NODE_ADDED => "新增了节点。"
  | NODE_REMOVED => "移除了节点。"
  | NODE_REORDERED => "节点顺序发生变化；执行顺序可能随之变化，本地无法证明只影响呈现。"
  | NODE_DEFINITION_CHANGED => "节点的定义类型或定义版本发生变化。"
  | NODE_ENABLED_CHANGED => "节点的启用状态发生变化。"
  | NODE_PARAMETERS_CHANGED => "节点参数发生变化（含来源绑定：资产的 ID/版本/摘要、文档快照等）。"
  | NODE_SHAPE_UNKNOWN => "节点上出现了本工具不认识的字段，本地无法证明它只影响呈现。"
  | EDGE_ADDED => "新增了连接。"
  | EDGE_REMOVED => "移除了连接。"
  | EDGE_REORDERED => "连接顺序发生变化，本地无法证明只影响呈现。"
  | EDGE_ENDPOINT_CHANGED => "连接的两端或端口发生变化。"
  | EDGE_SHAPE_UNKNOWN => "连接上出现了本工具不认识的字段，本地无法证明它只影响呈现。"
  | SCHEMA_CHANGED => "图格式（schema_version）发生变化。"
  | TITLE_CHANGED => "图标题属于已保存的图内容，本地无法证明只影响呈现。"
  | UNKNOWN_FIELD_CHANGED => "图定义上出现了本工具不认识的顶层字段，本地无法证明它只影响呈现。"
  | NOT_COMPARABLE => "缺少可比较的已保存定义，或定义结构不符合原图契约，本地无法证明差异只影响呈现。"

namespace JsValue

/-- `left === right`. -/
def strictEquals : JsValue → JsValue → Bool
  | .undefined, .undefined => true
  | .null, .null => true
  | .bool left, .bool right => left = right
  | .number left, .number right => left = right && !left.isNan
  | .string left, .string right => left = right
  | .function left, .function right => left = right
  | .array left _, .array right _ => left = right
  | .object left _, .object right _ => left = right
  | _, _ => false

def isNan : JsValue → Bool
  | .number value => value.isNan
  | _ => false

/-- What a `Set` holds as one. -/
def sameValueZero (left right : JsValue) : Bool := strictEquals left right || left.isNan && right.isNan

def truthy : JsValue → Bool
  | .undefined | .null => false
  | .bool value => value
  | .number value => value ≠ .finite 0 && !value.isNan
  | .string text => text ≠ ""
  | _ => true

/-- `value[key]`, for a key that only objects have; a `TypeError` for `undefined` and `null`. -/
def get (value : JsValue) (key : String) : Option JsValue :=
  match value with
  | .undefined | .null => none
  | .object _ fields => some ((fieldOf fields key).getD .undefined)
  | _ => some .undefined

/-- The fields that `{ ...value }` takes over. -/
def ownFields : JsValue → List (String × JsValue)
  | .object _ fields => fields
  | .array _ items => items.zipIdx.map fun (item, index) => (toString index, item)
  | .string text => text.toList.zipIdx.map fun (char, index) => (toString index, .string char.toString)
  | _ => []

/-- `Object.keys(value)`. -/
def keys (value : JsValue) : List String := value.ownFields.map Prod.fst

/-- `value.id` of a value that has passed the reading of its id. -/
def id (value : JsValue) : JsValue := (value.get "id").getD .undefined

/-- `{ ...value, id: '' }`. -/
def withoutId (value : JsValue) : JsValue := .object 0 (setField "id" (.string "") value.ownFields)

end JsValue

def isDefinitionShaped (value : JsValue) : Bool :=
  match value with
  | .object _ fields =>
    (match fieldOf fields "nodes" with | some (.array _ _) => true | _ => false) &&
    (match fieldOf fields "edges" with | some (.array _ _) => true | _ => false) &&
    (match fieldOf fields "schema_version" with | some (.number _) => true | _ => false) &&
    (match fieldOf fields "title" with | some (.string _) => true | _ => false)
  | _ => false

/-- The keys of an object in order, joined by bars. -/
def nodeShape (node : JsValue) : List Char :=
  match node with
  | .object _ fields => ['|'].intercalate ((sortKeys fields).map fun field => field.1.toList)
  | _ => "¬NOT_OBJECT".toList

def reason (code : CanvasChangeReasonCode) (holds : Bool) : List CanvasChangeReasonCode := if holds then [code] else []

variable (shown : Shown)

/-- `canonical(left) !== canonical(right)`. -/
def differ (left right : JsValue) : Bool := canonical shown 0 left ≠ canonical shown 0 right

/-- The entry of a list with an id: `list.find(entry => entry.id === id)`, where it is not falsy. -/
def entryOf (entries : List JsValue) (id : JsValue) : Option JsValue := (entries.find? fun entry => entry.id.strictEquals id).filter (·.truthy)

/-- What is added, removed or moved, by the ids. -/
def classifyIds (added removed reordered : CanvasChangeReasonCode) (beforeIds afterIds : List JsValue) : List CanvasChangeReasonCode :=
  reason added (afterIds.any fun id => !beforeIds.any id.sameValueZero) ++
    reason removed (beforeIds.any fun id => !afterIds.any id.sameValueZero) ++
    reason reordered (beforeIds.length = afterIds.length && (beforeIds.zip afterIds).any fun (id, other) => !other.strictEquals id)

def compareNodes (left right : JsValue) : List CanvasChangeReasonCode :=
  if nodeShape left ≠ nodeShape right then [NODE_SHAPE_UNKNOWN]
  else if left.keys.any (· ∉ CANVAS_NODE_KEYS) then [NODE_SHAPE_UNKNOWN]
  else
    let at_ (value : JsValue) (key : String) : JsValue := (value.get key).getD .undefined
    reason NODE_DEFINITION_CHANGED (!(at_ left "definition_id").strictEquals (at_ right "definition_id") ||
        !(at_ left "definition_version").strictEquals (at_ right "definition_version")) ++
      reason NODE_ENABLED_CHANGED (!(at_ left "enabled").strictEquals (at_ right "enabled")) ++
      reason NODE_PARAMETERS_CHANGED (differ shown (at_ left "parameters") (at_ right "parameters")) ++
      reason POSITION_CHANGED (differ shown (at_ left "position") (at_ right "position"))

def compareEdges (left right : JsValue) : List CanvasChangeReasonCode :=
  if nodeShape left ≠ nodeShape right then [EDGE_SHAPE_UNKNOWN]
  else reason EDGE_ENDPOINT_CHANGED (differ shown left.withoutId right.withoutId)

/-- The loop over the ids of the later list. -/
def compareEntries (compare : JsValue → JsValue → List CanvasChangeReasonCode) (before after : List JsValue) : List CanvasChangeReasonCode :=
  (after.map (·.id)).flatMap fun id =>
    match entryOf before id, entryOf after id with
    | some left, some right => compare left right
    | _, _ => []

/-- A `TypeError` where an entry has no properties. -/
def idsOf (entries : List JsValue) : Option (List JsValue) := entries.mapM (·.get "id")

def classifyNodes (before after : List JsValue) : Option (List CanvasChangeReasonCode) := do
  let beforeIds ← idsOf before
  let afterIds ← idsOf after
  return classifyIds NODE_ADDED NODE_REMOVED NODE_REORDERED beforeIds afterIds ++ compareEntries (compareNodes shown) before after

def classifyEdges (before after : List JsValue) : Option (List CanvasChangeReasonCode) := do
  let beforeIds ← idsOf before
  let afterIds ← idsOf after
  return classifyIds EDGE_ADDED EDGE_REMOVED EDGE_REORDERED beforeIds afterIds ++ compareEntries (compareEdges shown) before after

/-- The items of an array under the key. -/
def entriesOf (definition : JsValue) (key : String) : List JsValue :=
  match definition.get key with
  | some (.array _ items) => items
  | _ => []

/-- The reasons why two definitions differ. -/
def changeReasons (before after : JsValue) : Option (List CanvasChangeReasonCode) := do
  let at_ (value : JsValue) (key : String) : JsValue := (value.get key).getD .undefined
  let fields :=
    reason UNKNOWN_FIELD_CHANGED ((before.keys ++ after.keys).any (· ∉ CANVAS_DEFINITION_KEYS)) ++
      reason SCHEMA_CHANGED (!(at_ before "schema_version").strictEquals (at_ after "schema_version")) ++
      reason TITLE_CHANGED (!(at_ before "title").strictEquals (at_ after "title")) ++
      reason VIEWPORT_CHANGED (differ shown (at_ before "viewport") (at_ after "viewport"))
  let nodes ← classifyNodes shown (entriesOf before "nodes") (entriesOf after "nodes")
  let edges ← classifyEdges shown (entriesOf before "edges") (entriesOf after "edges")
  let reasons := fields ++ nodes ++ edges
  return if reasons.isEmpty then [NO_CHANGE] else reasons

def classification (reasons : List CanvasChangeReasonCode) : CanvasChangeClassification :=
  let reasonCodes := CANVAS_REASON_ORDER.filter (· ∈ reasons)
  { verdict := if reasonCodes.all (· ∈ CANVAS_PRESENTATION_REASONS) then .PRESENTATION else .GENERATION_AFFECTING
    reasonCodes, messages := reasonCodes.map (·.message) }

/-- None where it throws. -/
def classifyGraphChange (before after : JsValue) : Option CanvasChangeClassification :=
  if !isDefinitionShaped before || !isDefinitionShaped after then some (classification [NOT_COMPARABLE])
  else if before.strictEquals after then some (classification [NO_CHANGE])
  else (changeReasons shown before after).map classification

end NovelStudio.Canvas

/-! Which changes the classification takes for presentation. -/

namespace NovelStudio.Canvas

open Library CanvasChangeReasonCode

mutual
/-- A reference stands for one value, and an object has each of its keys once. -/
def Held (heap : Nat → JsValue) : JsValue → Prop
  | .function reference => heap reference = .function reference
  | .array reference items => heap reference = .array reference items ∧ HeldItems heap items
  | .object reference fields => heap reference = .object reference fields ∧ (fields.map Prod.fst).Nodup ∧ HeldFields heap fields
  | _ => True

def HeldItems (heap : Nat → JsValue) : List JsValue → Prop
  | [] => True
  | item :: rest => Held heap item ∧ HeldItems heap rest

def HeldFields (heap : Nat → JsValue) : List (String × JsValue) → Prop
  | [] => True
  | (_, value) :: rest => Held heap value ∧ HeldFields heap rest
end

variable {heap : Nat → JsValue}

theorem HeldItems.mem {items : List JsValue} (held : HeldItems heap items) (member : item ∈ items) : Held heap item := by
  induction items with
  | nil => cases member
  | cons first rest ih =>
    rw [HeldItems] at held
    rcases List.mem_cons.mp member with rfl | later
    · exact held.1
    · exact ih held.2 later

theorem HeldFields.fieldOf {fields : List (String × JsValue)} (held : HeldFields heap fields) (key : String) :
    Held heap ((fieldOf fields key).getD .undefined) := by
  induction fields with
  | nil => exact trivial
  | cons first rest ih =>
    obtain ⟨name, value⟩ := first
    rw [HeldFields] at held
    rw [fieldOf_cons]
    split
    · exact held.1
    · exact ih held.2

theorem eq_of_strictEquals {left right : JsValue} (first : Held heap left) (second : Held heap right) (same : left.strictEquals right = true) :
    left = right := by
  cases left with
  | object reference fields =>
    cases right with
    | object reference' fields' =>
      simp only [JsValue.strictEquals, decide_eq_true_eq] at same
      rw [Held] at first second
      rw [← first.1, ← second.1, same]
    | _ => simp [JsValue.strictEquals] at same
  | array reference items =>
    cases right with
    | array reference' items' =>
      simp only [JsValue.strictEquals, decide_eq_true_eq] at same
      rw [Held] at first second
      rw [← first.1, ← second.1, same]
    | _ => simp [JsValue.strictEquals] at same
  | _ => cases right <;> simp_all [JsValue.strictEquals]

theorem strictEquals_self {value : JsValue} (number : value.isNan = false) : value.strictEquals value = true := by
  cases value <;> simp_all [JsValue.strictEquals, JsValue.isNan]

theorem Held.get {value : JsValue} (held : Held heap value) (key : String) : Held heap ((value.get key).getD .undefined) := by
  cases value with
  | object reference fields =>
    rw [Held] at held
    exact held.2.2.fieldOf key
  | _ => exact trivial

theorem held_entriesOf {definition : JsValue} (held : Held heap definition) (key : String) (member : entry ∈ entriesOf definition key) :
    Held heap entry := by
  have whole := held.get key
  unfold entriesOf at member
  split at member
  · rename_i reference items found
    rw [found, Option.getD_some, Held] at whole
    exact whole.2.mem member
  · cases member

/-- No reason says more than that the presentation changed. -/
def Quiet (reasons : List CanvasChangeReasonCode) : Prop := ∀ code ∈ reasons, code ∈ CANVAS_PRESENTATION_REASONS

theorem quiet_append {one other : List CanvasChangeReasonCode} : Quiet (one ++ other) ↔ Quiet one ∧ Quiet other := by
  unfold Quiet
  rw [List.forall_mem_append]

theorem quiet_reason {code : CanvasChangeReasonCode} (loud : code ∉ CANVAS_PRESENTATION_REASONS) {holds : Bool} :
    Quiet (reason code holds) ↔ holds = false := by
  unfold Quiet reason
  cases holds with
  | true => simpa using loud
  | false => simp

theorem classification_presentation {reasons : List CanvasChangeReasonCode} :
    (classification reasons).verdict = .PRESENTATION ↔ Quiet reasons := by
  have ordered : ∀ code, code ∈ CANVAS_REASON_ORDER := by
    intro code
    cases code <;> decide
  have all : (CANVAS_REASON_ORDER.filter (· ∈ reasons)).all (· ∈ CANVAS_PRESENTATION_REASONS) = true ↔ Quiet reasons := by
    simp only [List.all_eq_true, List.mem_filter, ordered, true_and, decide_eq_true_eq]
    exact Iff.rfl
  rw [← all]
  show (if (CANVAS_REASON_ORDER.filter (· ∈ reasons)).all (· ∈ CANVAS_PRESENTATION_REASONS) then CanvasChangeVerdict.PRESENTATION
    else .GENERATION_AFFECTING) = .PRESENTATION ↔ _
  split
  · rename_i quiet
    exact iff_of_true rfl quiet
  · rename_i loud
    exact iff_of_false (by decide) loud

/-- The entries are objects, each with an id of its own. -/
structure Listed (entries : List JsValue) : Prop where
  objects : ∀ entry ∈ entries, ∃ reference fields, entry = .object reference fields
  known : ∀ entry ∈ entries, entry.id.isNan = false
  distinct : (entries.map (·.id)).Nodup

theorem idsOf_eq {entries ids : List JsValue} (read : idsOf entries = some ids) : ids = entries.map (·.id) := by
  unfold idsOf at read
  induction entries generalizing ids with
  | nil => exact (Option.some.inj read).symm
  | cons entry rest ih =>
    rw [List.mapM_cons] at read
    obtain ⟨id, found, read⟩ := Option.bind_eq_some_iff.mp read
    obtain ⟨others, later, read⟩ := Option.bind_eq_some_iff.mp read
    rw [← Option.some.inj read, ih later, List.map_cons, JsValue.id, found, Option.getD_some]

theorem Listed.entryOf {entries : List JsValue} (listed : Listed entries) (held : ∀ entry ∈ entries, Held heap entry) (member : entry ∈ entries) :
    entryOf entries entry.id = some entry := by
  unfold Canvas.entryOf
  have found : entries.find? (fun other => other.id.strictEquals entry.id) = some entry := by
    cases first : entries.find? fun other => other.id.strictEquals entry.id with
    | none =>
      have never := List.find?_eq_none.mp first entry member
      exact absurd (strictEquals_self (listed.known entry member)) never
    | some other =>
      have there := List.mem_of_find?_eq_some first
      have equal : other.id.strictEquals entry.id = true := by
        have holds := List.find?_some first
        exact holds
      have same : other.id = entry.id := eq_of_strictEquals ((held other there).get "id") ((held entry member).get "id") equal
      rw [List.inj_on_of_nodup_map listed.distinct there member same]
  obtain ⟨reference, fields, rfl⟩ := listed.objects entry member
  rw [found]
  rfl

theorem Listed.subset {entries others : List JsValue} (first : ∀ entry ∈ entries, Held heap entry) (second : ∀ entry ∈ others, Held heap entry)
    (known : ∀ entry ∈ entries, entry.id.isNan = false)
    (none : ((entries.map (·.id)).any fun id => !(others.map (·.id)).any id.sameValueZero) = false) :
    ∀ id ∈ entries.map (·.id), id ∈ others.map (·.id) := by
  intro id member
  have there := List.any_eq_false.mp none id member
  rw [Bool.not_eq_true, Bool.not_eq_false', List.any_eq_true] at there
  obtain ⟨other, inside, same⟩ := there
  obtain ⟨entry, present, rfl⟩ := List.mem_map.mp member
  obtain ⟨next, present', rfl⟩ := List.mem_map.mp inside
  rw [JsValue.sameValueZero, known entry present, Bool.false_and, Bool.or_false] at same
  have equal : entry.id = next.id := eq_of_strictEquals ((first entry present).get "id") ((second next present').get "id") same
  rw [equal]
  exact List.mem_map_of_mem present'

theorem classifyIds_quiet {before after : List JsValue} {added removed reordered : CanvasChangeReasonCode} (first : Listed before) (second : Listed after)
    (held : ∀ entry ∈ before, Held heap entry) (held' : ∀ entry ∈ after, Held heap entry)
    (loud : added ∉ CANVAS_PRESENTATION_REASONS ∧ removed ∉ CANVAS_PRESENTATION_REASONS ∧ reordered ∉ CANVAS_PRESENTATION_REASONS)
    (quiet : Quiet (classifyIds added removed reordered (before.map (·.id)) (after.map (·.id)))) :
    before.map (·.id) = after.map (·.id) := by
  unfold classifyIds at quiet
  rw [quiet_append, quiet_append, quiet_reason loud.1, quiet_reason loud.2.1, quiet_reason loud.2.2] at quiet
  obtain ⟨⟨none, gone⟩, moved⟩ := quiet
  have perm : (before.map (·.id)).Perm (after.map (·.id)) := by
    apply (List.perm_ext_iff_of_nodup first.distinct second.distinct).mpr
    intro id
    constructor
    · exact Listed.subset held held' first.known gone id
    · exact Listed.subset held' held second.known none id
  rw [decide_eq_true perm.length_eq, Bool.true_and] at moved
  rw [← List.forall₂_eq_eq_eq, List.forall₂_iff_zip]
  refine ⟨perm.length_eq, ?_⟩
  intro id other member
  obtain ⟨here, there⟩ := List.of_mem_zip member
  have same := List.any_eq_false.mp moved (id, other) member
  rw [Bool.not_eq_true, Bool.not_eq_false'] at same
  obtain ⟨entry, present, rfl⟩ := List.mem_map.mp here
  obtain ⟨next, present', rfl⟩ := List.mem_map.mp there
  exact (eq_of_strictEquals ((held' next present').get "id") ((held entry present).get "id") same).symm

/-- Where no reason is loud the entries at one place have one id, and comparing them gave no loud reason. -/
theorem compareEntries_quiet {compare : JsValue → JsValue → List CanvasChangeReasonCode} {before after : List JsValue}
    {added removed reordered : CanvasChangeReasonCode} (first : Listed before) (second : Listed after)
    (held : ∀ entry ∈ before, Held heap entry) (held' : ∀ entry ∈ after, Held heap entry)
    (loud : added ∉ CANVAS_PRESENTATION_REASONS ∧ removed ∉ CANVAS_PRESENTATION_REASONS ∧ reordered ∉ CANVAS_PRESENTATION_REASONS)
    (quiet : Quiet (classifyIds added removed reordered (before.map (·.id)) (after.map (·.id)) ++ compareEntries compare before after)) :
    List.Forall₂ (fun left right => left ∈ before ∧ right ∈ after ∧ left.id = right.id ∧ Quiet (compare left right)) before after := by
  obtain ⟨ids, compared⟩ := quiet_append.mp quiet
  have same := classifyIds_quiet first second held held' loud ids
  have aligned : List.Forall₂ (fun left right => left.id = right.id) before after := by
    rwa [← List.forall₂_eq_eq_eq, List.forall₂_map_left_iff, List.forall₂_map_right_iff] at same
  rw [List.forall₂_iff_zip] at aligned ⊢
  refine ⟨aligned.1, ?_⟩
  intro left right member
  obtain ⟨here, there⟩ := List.of_mem_zip member
  have equal := aligned.2 member
  refine ⟨here, there, equal, ?_⟩
  intro code raised
  refine compared code (List.mem_flatMap.mpr ⟨right.id, List.mem_map_of_mem there, ?_⟩)
  rw [second.entryOf held' there, ← equal, first.entryOf held here]
  exact raised

end NovelStudio.Canvas
