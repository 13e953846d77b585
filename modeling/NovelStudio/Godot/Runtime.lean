import Mathlib.Data.Rat.Floor
import NovelStudio.Library.Json
import NovelStudio.Story.Spec

/-! The Godot runtime of an interactive story (`story_runtime.gd`): a story as its loader returns it,
the state that a player is in, and the saves of it. -/

namespace NovelStudio.Godot

open Library
open Story (Kind Scalar Variable Values Compare Tree keyed)

structure Choice where
  id : String
  target : String
  condition : Tree
  assignments : Dict String Scalar

structure Node where
  nodeId : String
  ending : String
  choices : List Choice

def MAX_SCALAR : Int := 10000

/-- What `story_loader.gd` returns for a story that it accepts. -/
structure LoadedStory where
  storyId : String
  revision : Int
  specDigest : String
  sourceDigest : String
  reviewReceipt : String
  entryNodeId : String
  maxSteps : Nat
  definitions : List Variable
  nodes : List Node
  revised : 1 ≤ revision ∧ revision ≤ 1000000000
  steps : 1 ≤ maxSteps ∧ maxSteps ≤ 128
  scalars : ∀ definition ∈ definitions, -MAX_SCALAR ≤ definition.minimum ∧ definition.maximum ≤ MAX_SCALAR
  uniqueDefinitions : (definitions.map Variable.name).Nodup
  uniqueNodes : (nodes.map Node.nodeId).Nodup
  entry : entryNodeId ∈ nodes.map Node.nodeId
  targets : ∀ node ∈ nodes, ∀ choice ∈ node.choices, choice.target ∈ nodes.map Node.nodeId

/-- `nodes`, by their ids. -/
def LoadedStory.nodeTable (story : LoadedStory) : Dict String Node := keyed Node.nodeId id story.nodes

/-- `variable_defs`, by their names. -/
def LoadedStory.variableDefs (story : LoadedStory) : Dict String Variable := keyed Variable.name id story.definitions

/-- `left == right` and its like, of two values of one type. -/
def compareValues (op : Compare) : Scalar → Scalar → Option Scalar
  | .bool left, .bool right =>
    match op with
    | .eq => some (.bool (left == right))
    | .ne => some (.bool (left != right))
    | _ => none
  | .int left, .int right => some (.bool (op.holds left right))
  | _, _ => none

mutual
/-- `_eval`; there is no value where the script would stop with an error. -/
def eval (values : Values) : Tree → Option Scalar
  | .literal value => some value
  | .var name => values.get? name
  | .not arg => some (.bool (eval values arg != some (.bool true)))
  | .and args => some (.bool (evalAll values args))
  | .or args => some (.bool (evalAny values args))
  | .compare op left right =>
    match eval values left, eval values right with
    | some left, some right => compareValues op left right
    | _, _ => none

def evalAll (values : Values) : List Tree → Bool
  | [] => true
  | arg :: rest => if eval values arg != some (.bool true) then false else evalAll values rest

def evalAny (values : Values) : List Tree → Bool
  | [] => false
  | arg :: rest => if eval values arg == some (.bool true) then true else evalAny values rest
end

def evalBool (values : Values) (tree : Tree) : Bool := eval values tree == some (.bool true)

inductive Status where
  | INVALID | ENDING | STEP_CAP_REACHED | PLAYING | NO_EXIT
  deriving DecidableEq

/-- The fields of the runtime that change. -/
structure Runtime where
  vars : Values
  currentNodeId : String
  path : List String
  status : Status
  valid : Bool
  deriving DecidableEq

/-- `{"ok": …, "error": …}`. -/
inductive Answer where
  | ok
  | error (code : String)
  deriving DecidableEq

variable (story : LoadedStory)

def refreshStatus (runtime : Runtime) : Runtime :=
  match story.nodeTable.get? runtime.currentNodeId with
  | none => runtime
  | some node =>
    if node.ending ≠ "" then { runtime with status := .ENDING }
    else if story.maxSteps ≤ runtime.path.length then { runtime with status := .STEP_CAP_REACHED }
    else if node.choices.any fun choice => evalBool runtime.vars choice.condition then { runtime with status := .PLAYING }
    else { runtime with status := .NO_EXIT }

def reset (runtime : Runtime) : Runtime :=
  refreshStatus story { runtime with
    vars := story.variableDefs.mapValues fun _ definition => definition.initial, path := [], currentNodeId := story.entryNodeId }

def init : Runtime :=
  let fresh : Runtime := ⟨∅, "", [], .INVALID, false⟩
  if story.nodeTable.contains story.entryNodeId && decide (1 ≤ story.maxSteps) then reset story { fresh with valid := true } else fresh

def assignmentAllowed (definition : Variable) (raw : Scalar) : Bool :=
  match definition.kind, raw with
  | .bool, .bool _ => true
  | .int, .int value => definition.minimum ≤ value && value ≤ definition.maximum
  | _, _ => false

def advance (runtime : Runtime) (choiceId : String) : Answer × Runtime :=
  if !runtime.valid then (.error "RUNTIME_INVALID", runtime)
  else if story.maxSteps ≤ runtime.path.length then (.error "STEP_CAP_REACHED", runtime)
  else
    let runtime := refreshStatus story runtime
    if runtime.status ≠ .PLAYING then (.error "CHOICE_UNAVAILABLE", runtime)
    else
      match (story.nodeTable.get? runtime.currentNodeId).bind fun node => node.choices.find? fun choice => choice.id = choiceId with
      | none => (.error "CHOICE_UNAVAILABLE", runtime)
      | some selected =>
        if !evalBool runtime.vars selected.condition then (.error "CHOICE_DISABLED", runtime)
        else if !selected.assignments.entries.all fun entry => (story.variableDefs.get? entry.1).any fun definition => assignmentAllowed definition entry.2 then
          (.error "ASSIGNMENT_REJECTED", runtime)
        else
          (.ok, refreshStatus story { runtime with
            vars := selected.assignments.entries.foldl (fun values entry => values.set entry.1 entry.2) runtime.vars
            path := runtime.path ++ [choiceId]
            currentNodeId := selected.target })

/-- The values of the engine; `other` is one of a type that no save has. -/
inductive Variant where
  | nil
  | bool (value : Bool)
  | int (value : Int)
  | float (value : PyFloat)
  | string (value : String)
  | array (items : List Variant)
  | dictionary (entries : List (Variant × Variant))
  | other (which : Nat)

/-- The engine's `str`, which leaves a string as it is. -/
structure Engine where
  str : Variant → String
  str_string : ∀ text, str (.string text) = text

def Variant.isKey (name : String) : Variant → Bool
  | .string text => text = name
  | _ => false

/-- `entries.get(name, …)`. -/
def entryOf (name : String) (entries : List (Variant × Variant)) : Option Variant := (entries.find? fun entry => entry.1.isKey name).map Prod.snd

/-- `SaveInt.strict`. -/
def strict : Variant → Option Int
  | .int value => some value
  | .float .negZero => some 0
  | .float (.finite value) => if value = ⌊value⌋ ∧ -1000000000 ≤ value ∧ value ≤ 1000000000 then some ⌊value⌋ else none
  | _ => none

def coerceSavedScalar (definition : Variable) (raw : Variant) : Option Scalar :=
  match definition.kind, raw with
  | .bool, .bool value => some (.bool value)
  | .bool, _ => none
  | .int, raw => do
    let value ← strict raw
    guard (definition.minimum ≤ value ∧ value ≤ definition.maximum)
    return .int value

def Variant.ofScalar : Scalar → Variant
  | .bool value => .bool value
  | .int value => .int value

def SAVE_SCHEMA : String := "poemseed-godot-save/1"
def SAVE_SCHEMA_VERSION : Int := 1

def stringKeyed (fields : List (String × Variant)) : List (Variant × Variant) := fields.map fun field => (.string field.1, field.2)

def identityFields : List (String × Variant) :=
  [("id", .string story.storyId), ("revision", .int story.revision), ("spec_digest", .string story.specDigest),
    ("source_digest", .string story.sourceDigest), ("review_receipt", .string story.reviewReceipt)]

def snapshotFields (runtime : Runtime) : List (String × Variant) :=
  [("schema", .string SAVE_SCHEMA), ("save_schema_version", .int SAVE_SCHEMA_VERSION), ("story", .dictionary (stringKeyed (identityFields story))),
    ("current_node_id", .string runtime.currentNodeId), ("path", .array (runtime.path.map .string)),
    ("variables", .dictionary (stringKeyed (runtime.vars.entries.map fun entry => (entry.1, .ofScalar entry.2)))), ("steps", .int runtime.path.length)]

def snapshot (runtime : Runtime) : List (Variant × Variant) := stringKeyed (snapshotFields story runtime)

def fail (bad : Bool) (code : String) : Except String Unit := reject bad code

/-- What a save says of its path, its variables and its steps, once `restore` has checked everything that it checks before it resets. -/
structure Screened where
  path : List Variant
  coerced : List (String × Scalar)
  steps : Int

/-- The value of `identity.get(name, "")` as text. -/
def textOf (engine : Engine) (name : String) (entries : List (Variant × Variant)) : String := engine.str ((entryOf name entries).getD (.string ""))

def Variant.asArray : Option Variant → Option (List Variant)
  | some (.array items) => some items
  | _ => none

def Variant.asDictionary : Option Variant → Option (List (Variant × Variant))
  | some (.dictionary entries) => some entries
  | _ => none

/-- The checks of `restore`, up to its `_reset`. -/
def screen (engine : Engine) (runtime : Runtime) (save : List (Variant × Variant)) : Except String Screened := do
  fail (!runtime.valid) "RUNTIME_INVALID"
  let identity ← fetch (Variant.asDictionary (entryOf "story" save)) "SAVE_STORY_INVALID"
  fail (textOf engine "id" identity ≠ story.storyId) "SAVE_STORY_ID_MISMATCH"
  fail (strict ((entryOf "revision" identity).getD .nil) ≠ some story.revision) "SAVE_STORY_REVISION_MISMATCH"
  fail (textOf engine "spec_digest" identity ≠ story.specDigest) "SAVE_SPEC_DIGEST_MISMATCH"
  fail (textOf engine "source_digest" identity ≠ story.sourceDigest) "SAVE_SOURCE_DIGEST_MISMATCH"
  fail (textOf engine "review_receipt" identity ≠ story.reviewReceipt) "SAVE_REVIEW_RECEIPT_MISMATCH"
  let path ← fetch (Variant.asArray (entryOf "path" save)) "SAVE_PATH_INVALID"
  fail (story.maxSteps < path.length) "SAVE_PATH_INVALID"
  let saved ← fetch (Variant.asDictionary (entryOf "variables" save)) "SAVE_VARIABLES_INVALID"
  fail (saved.length ≠ story.variableDefs.entries.length) "SAVE_VARIABLES_INVALID"
  let coerced ← story.variableDefs.entries.mapM fun entry => do
    let value ← fetch ((entryOf entry.1 saved).bind (coerceSavedScalar entry.2)) "SAVE_VARIABLES_INVALID"
    return (entry.1, value)
  let steps ← fetch (strict ((entryOf "steps" save).getD .nil)) "SAVE_STEP_COUNT_MISMATCH"
  fail (steps ≠ path.length) "SAVE_STEP_COUNT_MISMATCH"
  return ⟨path, coerced, steps⟩

/-- The loop of `restore` over the saved path: the error that it stops with, if it does, and the state that it leaves. -/
def replayPath : Runtime → List Variant → Answer × Runtime
  | runtime, [] => (.ok, runtime)
  | runtime, .string choiceId :: rest =>
    match advance story runtime choiceId with
    | (.ok, next) => replayPath next rest
    | (.error _, next) => (.error "SAVE_REPLAY_REJECTED", next)
  | runtime, _ :: _ => (.error "SAVE_PATH_INVALID", runtime)

/-- `_same_typed_value` of every variable. -/
def sameValues (coerced : List (String × Scalar)) (values : Values) : Bool := coerced.all fun entry => values.get? entry.1 = some entry.2

def restore (engine : Engine) (runtime : Runtime) (save : List (Variant × Variant)) : Answer × Runtime :=
  match screen story engine runtime save with
  | .error code => (.error code, runtime)
  | .ok saved =>
    match replayPath story (reset story runtime) saved.path with
    | (.error code, left) => (.error code, left)
    | (.ok, final) =>
      if final.currentNodeId ≠ textOf engine "current_node_id" save then (.error "SAVE_STATE_MISMATCH", final)
      else if (final.path.length : Int) ≠ saved.steps then (.error "SAVE_STATE_MISMATCH", final)
      else if !sameValues saved.coerced final.vars then (.error "SAVE_STATE_MISMATCH", final)
      else (.ok, final)

mutual
/-- What `JSON.parse_string` makes of what `JSON.stringify` writes of a value, with its keys sorted: every number is a float. -/
def decoded (engine : Engine) : Variant → Variant
  | .int value => .float (.finite value)
  | .array items => .array (decodedItems engine items)
  | .dictionary entries => .dictionary ((decodedEntries engine entries).mergeSort fun one two => engine.str one.1 ≤ engine.str two.1)
  | value => value

def decodedItems (engine : Engine) : List Variant → List Variant
  | [] => []
  | item :: rest => decoded engine item :: decodedItems engine rest

def decodedEntries (engine : Engine) : List (Variant × Variant) → List (Variant × Variant)
  | [] => []
  | (key, value) :: rest => (.string (engine.str key), decoded engine value) :: decodedEntries engine rest
end

def decodedSave (engine : Engine) (save : List (Variant × Variant)) : List (Variant × Variant) :=
  (decodedEntries engine save).mergeSort fun one two => engine.str one.1 ≤ engine.str two.1

end NovelStudio.Godot
