import NovelStudio.Library.Dict
import NovelStudio.Library.Fallible
import NovelStudio.Library.Text

/-! Interactive stories (`interactive_story.py`): a graph of nodes whose choices are
guarded by conditions on typed variables. -/

namespace NovelStudio.Story

open Library

inductive Failure where
  | value (code : String)
  | key (name : String)
  deriving DecidableEq

def MAX_ANALYSIS_STATES : Nat := 4096

/-- The types of variables and of expressions. -/
inductive Kind where
  | bool | int
  deriving DecidableEq

inductive Scalar where
  | bool (value : Bool)
  | int (value : Int)
  deriving DecidableEq

namespace Scalar

/-- `type(value)`. -/
def kind : Scalar → Kind
  | .bool _ => .bool
  | .int _ => .int

/-- The number that a value compares as. -/
def number : Scalar → Int
  | .bool value => if value then 1 else 0
  | .int value => value

def truthy (value : Scalar) : Bool := value.number ≠ 0

theorem eq_bool_of_kind {value : Scalar} (isBool : value.kind = .bool) : ∃ truth, value = .bool truth := by
  cases value with
  | bool truth => exact ⟨truth, rfl⟩
  | int _ => cases isBool

end Scalar

/-- A variable whose initial value is of its type and, for an integer, within its bounds. -/
structure Variable where
  name : String
  kind : Kind
  initial : Scalar
  minimum : Int
  maximum : Int
  ordered : minimum ≤ maximum
  typed : initial.kind = kind
  bounded : kind = .int → minimum ≤ initial.number ∧ initial.number ≤ maximum

structure Choice where
  id : String
  label : String
  target : String
  condition : String
  assignments : Dict String Scalar

structure StoryNode where
  nodeId : String
  title : String
  dialogue : String
  ending : String
  choices : List Choice
  unique : (choices.map Choice.id).Nodup
  closed : ending ≠ "" → choices = []

/-- A specification that `StorySpec` accepts. -/
structure StorySpec where
  entryNodeId : String
  nodes : List StoryNode
  vars : List Variable
  maxSteps : Nat
  uniqueNodes : (nodes.map StoryNode.nodeId).Nodup
  entry : entryNodeId ∈ nodes.map StoryNode.nodeId
  uniqueVariables : (vars.map Variable.name).Nodup

abbrev Values := Dict String Scalar

structure Fits (var : Variable) (value : Scalar) : Prop where
  kind : value.kind = var.kind
  bounds : var.kind = .int → var.minimum ≤ value.number ∧ value.number ≤ var.maximum

/-- Every declared variable has a value that fits it. -/
def WellTyped (vars : Dict String Variable) (values : Values) : Prop :=
  ∀ ⦃name var⦄, vars.get? name = some var → ∃ value, values.get? name = some value ∧ Fits var value

/-- Values that every expression reads alike. -/
def SameValues (left right : Values) : Prop := ∀ name, left.get? name = right.get? name

/-- `{row['name']: value(row) for row in rows}`. -/
def keyed (name : α → String) (value : α → β) (rows : List α) : Dict String β :=
  rows.foldl (fun dict row => dict.set (name row) (value row)) ∅

theorem get?_foldl_keyed (name : α → String) (value : α → β) {rows : List α} (unique : (rows.map name).Nodup)
    (dict : Dict String β) (wanted : String) :
    (rows.foldl (fun dict row => dict.set (name row) (value row)) dict).get? wanted =
      ((rows.find? fun row => name row = wanted).map value).or (dict.get? wanted) := by
  induction rows generalizing dict with
  | nil => simp
  | cons row rest ih =>
    rw [List.map_cons, List.nodup_cons] at unique
    rw [List.foldl_cons, ih unique.2, List.find?_cons]
    by_cases same : name row = wanted
    · have absent : rest.find? (fun row => decide (name row = wanted)) = none := by
        rw [List.find?_eq_none]
        intro other member equal
        exact unique.1 (List.mem_map.mpr ⟨other, member, (of_decide_eq_true equal).trans same.symm⟩)
      simp [absent, same]
    · simp [same, Dict.get?_set_ne _ _ (Ne.symm same)]

theorem get?_keyed (name : α → String) (value : α → β) {rows : List α} (unique : (rows.map name).Nodup) (wanted : String) :
    (keyed name value rows).get? wanted = (rows.find? fun row => name row = wanted).map value := by
  rw [keyed, get?_foldl_keyed name value unique]
  simp

/-- `nodes[nid]`. -/
def StorySpec.nodeTable (spec : StorySpec) : Dict String StoryNode := keyed StoryNode.nodeId id spec.nodes

def StorySpec.variableTable (spec : StorySpec) : Dict String Variable := keyed Variable.name id spec.vars

def StorySpec.initial (spec : StorySpec) : Values := keyed Variable.name Variable.initial spec.vars

theorem nodeTable_found {spec : StorySpec} (found : spec.nodeTable.get? nid = some node) :
    node ∈ spec.nodes ∧ node.nodeId = nid := by
  rw [StorySpec.nodeTable, get?_keyed _ _ spec.uniqueNodes, Option.map_id, id] at found
  exact ⟨List.mem_of_find?_eq_some found, by simpa using List.find?_some found⟩

theorem nodeTable_mem {spec : StorySpec} (member : node ∈ spec.nodes) : ∃ stored, spec.nodeTable.get? node.nodeId = some stored := by
  rw [StorySpec.nodeTable, get?_keyed _ _ spec.uniqueNodes, Option.map_id, id]
  exact Option.isSome_iff_exists.mp (List.find?_isSome.mpr ⟨node, member, by simp⟩)

theorem initial_wellTyped (spec : StorySpec) : WellTyped spec.variableTable spec.initial := by
  intro name var found
  rw [StorySpec.variableTable, get?_keyed _ _ spec.uniqueVariables, Option.map_id, id] at found
  refine ⟨var.initial, ?_, var.typed, var.bounded⟩
  rw [StorySpec.initial, get?_keyed _ _ spec.uniqueVariables, found]
  rfl

end NovelStudio.Story

/-! Conditions: a tiny typed tree that is read off a parsed Python expression, its type
and its value. -/

namespace NovelStudio.Story

open Library

/-- The comparison operators of Python, as far as conditions know them. -/
inductive Compare where
  | eq | ne | lt | le | gt | ge
  deriving DecidableEq

/-- What `ast.parse` makes of a text; a constant is none here unless it is an integer or
a truth value, and so is an operator that conditions do not know. -/
inductive PyExpr where
  | constant (value : Option Scalar)
  | name (id : String)
  | negative (operand : PyExpr)
  | not (operand : PyExpr)
  | boolOp (conjunction : Bool) (values : List PyExpr)
  | compare (left : PyExpr) (ops : List (Option Compare)) (comparators : List PyExpr)
  | other

inductive Tree where
  | literal (value : Scalar)
  | var (name : String)
  | and (args : List Tree)
  | or (args : List Tree)
  | not (arg : Tree)
  | compare (op : Compare) (left right : Tree)

def MAX_DEPTH : Nat := 12
def MAX_LITERAL : Int := 10000

def unsupported : Failure :=
  .value "only bool/int names, literals, comparisons, and/or/not and parentheses are allowed"

/-- `re.fullmatch(r'[a-z][a-z0-9_]{0,31}', id)`. -/
def isName (id : String) : Bool :=
  match id.toList with
  | [] => false
  | first :: rest =>
    ('a' ≤ first && first ≤ 'z') && rest.length ≤ 31 &&
      rest.all fun char => ('a' ≤ char && char ≤ 'z') || ('0' ≤ char && char ≤ '9') || char = '_'

def literalOf : Option Scalar → Except Failure Tree
  | some (.bool value) => .ok (.literal (.bool value))
  | some (.int value) => if -MAX_LITERAL ≤ value ∧ value ≤ MAX_LITERAL then .ok (.literal (.int value)) else .error unsupported
  | none => .error unsupported

def negativeOf : PyExpr → Except Failure Tree
  | .constant (some (.int value)) =>
    if 0 ≤ value ∧ value ≤ MAX_LITERAL then .ok (.literal (.int (-value))) else .error unsupported
  | _ => .error unsupported

mutual
/-- `walk` of `parse_condition`. -/
def walk (depth : Nat) (expr : PyExpr) : Except Failure Tree :=
  if MAX_DEPTH < depth then .error (.value "condition nesting limit")
  else
    match expr with
    | .constant value => literalOf value
    | .negative operand => negativeOf operand
    | .name id => if isName id then .ok (.var id) else .error unsupported
    | .boolOp conjunction values =>
      match walkAll (depth + 1) values with
      | .ok args => .ok (if conjunction then .and args else .or args)
      | .error failure => .error failure
    | .not operand =>
      match walk (depth + 1) operand with
      | .ok arg => .ok (.not arg)
      | .error failure => .error failure
    | .compare left [some op] comparators =>
      match walk (depth + 1) left, walkAll (depth + 1) comparators with
      | .ok left, .ok (right :: _) => .ok (.compare op left right)
      | .error failure, _ => .error failure
      | _, .error failure => .error failure
      | _, _ => .error unsupported
    | _ => .error unsupported

def walkAll (depth : Nat) : List PyExpr → Except Failure (List Tree)
  | [] => .ok []
  | expr :: rest =>
    match walk depth expr, walkAll depth rest with
    | .ok first, .ok others => .ok (first :: others)
    | .error failure, _ => .error failure
    | _, .error failure => .error failure
end

def MAX_CONDITION : Nat := 240
def MAX_CONDITION_NODES : Nat := 64

/-- `ast.parse`: the expression of a text and how many nodes `ast.walk` visits, unless it
is no expression. -/
abbrev AstParse := String → Option (PyExpr × Nat)

def parseCondition (astParse : AstParse) (expression : String) : Except Failure Tree :=
  if strip expression = "" then .ok (.literal (.bool true))
  else if MAX_CONDITION < expression.length then .error (.value "condition too long")
  else
    match astParse (strip expression) with
    | none => .error (.value "invalid restricted condition")
    | some (root, count) =>
      if MAX_CONDITION_NODES < count then .error (.value "condition is too complex") else walk 0 root

def typeMismatch : Failure := .value "CONDITION_TYPE_MISMATCH"

mutual
def expressionType (vars : Dict String Variable) : Tree → Except Failure Kind
  | .literal value => .ok value.kind
  | .var name =>
    match vars.get? name with
    | none => .error (.value "UNDEFINED_VARIABLE")
    | some var => .ok var.kind
  | .and args | .or args =>
    match allBool vars args with
    | .ok _ => .ok .bool
    | .error failure => .error failure
  | .not arg =>
    match expressionType vars arg with
    | .ok .bool => .ok .bool
    | .ok .int => .error typeMismatch
    | .error failure => .error failure
  | .compare op left right =>
    match expressionType vars left, expressionType vars right with
    | .ok one, .ok other =>
      if one ≠ other ∨ (op ≠ .eq ∧ op ≠ .ne ∧ one ≠ .int) then .error typeMismatch else .ok .bool
    | .error failure, _ => .error failure
    | _, .error failure => .error failure

def allBool (vars : Dict String Variable) : List Tree → Except Failure Unit
  | [] => .ok ()
  | arg :: rest =>
    match expressionType vars arg with
    | .ok .bool => allBool vars rest
    | .ok .int => .error typeMismatch
    | .error failure => .error failure
end

def Compare.holds : Compare → Int → Int → Bool
  | .eq, a, b => a = b
  | .ne, a, b => a ≠ b
  | .lt, a, b => a < b
  | .le, a, b => a ≤ b
  | .gt, a, b => b < a
  | .ge, a, b => b ≤ a

mutual
def interpret (values : Values) : Tree → Except Failure Scalar
  | .literal value => .ok value
  | .var name =>
    match values.get? name with
    | some value => .ok value
    | none => .error (.key name)
  | .and args => interpretAll values args
  | .or args => interpretAny values args
  | .not arg =>
    match interpret values arg with
    | .ok value => .ok (.bool !value.truthy)
    | .error failure => .error failure
  | .compare op left right =>
    match interpret values left, interpret values right with
    | .ok a, .ok b => .ok (.bool (op.holds a.number b.number))
    | .error failure, _ => .error failure
    | _, .error failure => .error failure

/-- `all`, which stops at the first that is false. -/
def interpretAll (values : Values) : List Tree → Except Failure Scalar
  | [] => .ok (.bool true)
  | arg :: rest =>
    match interpret values arg with
    | .ok value => if value.truthy then interpretAll values rest else .ok (.bool false)
    | .error failure => .error failure

/-- `any`, which stops at the first that is true. -/
def interpretAny (values : Values) : List Tree → Except Failure Scalar
  | [] => .ok (.bool false)
  | arg :: rest =>
    match interpret values arg with
    | .ok value => if value.truthy then .ok (.bool true) else interpretAny values rest
    | .error failure => .error failure
end

section

variable {vars : Dict String Variable} {values : Values}

mutual
theorem interpret_typed (typed : WellTyped vars values) :
    ∀ {tree : Tree} {kind : Kind}, expressionType vars tree = .ok kind →
      ∃ value, interpret values tree = .ok value ∧ value.kind = kind
  | .literal value, kind, found => by
    simp only [expressionType, Except.ok.injEq] at found
    exact ⟨value, rfl, found⟩
  | .var name, kind, found => by
    simp only [expressionType] at found
    split at found
    · cases found
    · rename_i var declared
      cases found
      obtain ⟨value, there, fits⟩ := typed declared
      exact ⟨value, by simp [interpret, there], fits.kind⟩
  | .and args, kind, found => by
    simp only [expressionType] at found
    split at found
    · rename_i checked
      cases found
      exact interpretAll_typed typed checked
    · cases found
  | .or args, kind, found => by
    simp only [expressionType] at found
    split at found
    · rename_i checked
      cases found
      exact interpretAny_typed typed checked
    · cases found
  | .not arg, kind, found => by
    simp only [expressionType] at found
    split at found
    · rename_i isBool
      cases found
      obtain ⟨value, evaluated, _⟩ := interpret_typed typed isBool
      exact ⟨.bool !value.truthy, by simp [interpret, evaluated], rfl⟩
    · cases found
    · cases found
  | .compare op left right, kind, found => by
    simp only [expressionType] at found
    split at found
    · rename_i one other leftType rightType
      split at found
      · cases found
      · cases found
        obtain ⟨a, leftValue, _⟩ := interpret_typed typed leftType
        obtain ⟨b, rightValue, _⟩ := interpret_typed typed rightType
        exact ⟨.bool (op.holds a.number b.number), by simp [interpret, leftValue, rightValue], rfl⟩
    · cases found
    · cases found

theorem interpretAll_typed (typed : WellTyped vars values) :
    ∀ {args : List Tree}, allBool vars args = .ok () →
      ∃ value, interpretAll values args = .ok value ∧ value.kind = .bool
  | [], _ => ⟨.bool true, rfl, rfl⟩
  | arg :: rest, checked => by
    simp only [allBool] at checked
    split at checked
    · rename_i isBool
      obtain ⟨value, evaluated, _⟩ := interpret_typed typed isBool
      obtain ⟨others, later, kind⟩ := interpretAll_typed typed checked
      cases truth : value.truthy with
      | true => exact ⟨others, by simp [interpretAll, evaluated, truth, later], kind⟩
      | false => exact ⟨.bool false, by simp [interpretAll, evaluated, truth], rfl⟩
    · cases checked
    · cases checked

theorem interpretAny_typed (typed : WellTyped vars values) :
    ∀ {args : List Tree}, allBool vars args = .ok () →
      ∃ value, interpretAny values args = .ok value ∧ value.kind = .bool
  | [], _ => ⟨.bool false, rfl, rfl⟩
  | arg :: rest, checked => by
    simp only [allBool] at checked
    split at checked
    · rename_i isBool
      obtain ⟨value, evaluated, _⟩ := interpret_typed typed isBool
      obtain ⟨others, later, kind⟩ := interpretAny_typed typed checked
      cases truth : value.truthy with
      | true => exact ⟨.bool true, by simp [interpretAny, evaluated, truth], rfl⟩
      | false => exact ⟨others, by simp [interpretAny, evaluated, truth, later], kind⟩
    · cases checked
    · cases checked
end

end

mutual
theorem interpret_congr (same : SameValues left right) : ∀ tree : Tree, interpret left tree = interpret right tree
  | .literal value => rfl
  | .var name => by simp only [interpret, same name]
  | .and args => by simp only [interpret, interpretAll_congr same args]
  | .or args => by simp only [interpret, interpretAny_congr same args]
  | .not arg => by simp only [interpret, interpret_congr same arg]
  | .compare op first second => by simp only [interpret, interpret_congr same first, interpret_congr same second]

theorem interpretAll_congr (same : SameValues left right) :
    ∀ args : List Tree, interpretAll left args = interpretAll right args
  | [] => rfl
  | arg :: rest => by simp only [interpretAll, interpret_congr same arg, interpretAll_congr same rest]

theorem interpretAny_congr (same : SameValues left right) :
    ∀ args : List Tree, interpretAny left args = interpretAny right args
  | [] => rfl
  | arg :: rest => by simp only [interpretAny, interpret_congr same arg, interpretAny_congr same rest]
end

end NovelStudio.Story
