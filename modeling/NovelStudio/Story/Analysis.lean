import Mathlib.Data.Prod.Lex
import NovelStudio.Library.Exploration
import NovelStudio.Story.Spec

/-! `compile_story`: the parsed conditions of a story and the issues they have, and what
a story without issues guarantees. -/

namespace NovelStudio.Story

open Library

structure Issue where
  code : String
  nodeId : Option String
  choiceId : Option String
  choices : Option (List String)
  deriving DecidableEq

def checkAssignment (vars : Dict String Variable) (name : String) (value : Scalar) : Except Failure Unit := do
  let var ← fetch (vars.get? name) (.value "UNDEFINED_VARIABLE")
  reject (value.kind ≠ var.kind) (.value "ASSIGNMENT_TYPE_MISMATCH")
  reject (var.kind = .int && !(var.minimum ≤ value.number && value.number ≤ var.maximum)) (.value "ASSIGNMENT_OUT_OF_BOUNDS")

/-- The checks of a choice whose target is there. -/
def checkChoice (vars : Dict String Variable) (tree : Tree) (choice : Choice) : Except Failure Unit := do
  let kind ← expressionType vars tree
  reject (kind ≠ .bool) typeMismatch
  forM choice.assignments.entries fun entry => checkAssignment vars entry.1 entry.2

structure Compiled where
  nodes : Dict String StoryNode
  compiled : Dict (String × String) Tree
  issues : List Issue

/-- The issue of a choice that fails its checks. -/
def issuesOf (nid : String) (choice : Choice) : Except Failure Unit → Except Failure (List Issue)
  | .ok _ => .ok []
  | .error (.value code) => .ok [⟨code, some nid, some choice.id, none⟩]
  | .error failure => .error failure

def compileChoice (astParse : AstParse) (vars : Dict String Variable) (node : StoryNode) (story : Compiled) (choice : Choice) :
    Except Failure Compiled := do
  let tree ← parseCondition astParse choice.condition
  let missing := if choice.target ∉ story.nodes.keys then
    [⟨"UNDEFINED_TARGET", some node.nodeId, some choice.id, none⟩] else []
  let failed ← issuesOf node.nodeId choice (checkChoice vars tree choice)
  return { story with
    compiled := story.compiled.set (node.nodeId, choice.id) tree
    issues := story.issues ++ missing ++ failed }

def noExit (node : StoryNode) : List Issue :=
  if node.ending = "" ∧ node.choices = [] then [⟨"NO_EXIT", some node.nodeId, none, none⟩] else []

def compileNode (astParse : AstParse) (vars : Dict String Variable) (story : Compiled) (node : StoryNode) :
    Except Failure Compiled :=
  node.choices.foldlM (compileChoice astParse vars node) { story with issues := story.issues ++ noExit node }

def compileStory (astParse : AstParse) (spec : StorySpec) : Except Failure Compiled :=
  spec.nodeTable.values.foldlM (compileNode astParse spec.variableTable) ⟨spec.nodeTable, ∅, []⟩

theorem checkAssignment_ok (checked : checkAssignment vars name value = .ok ()) :
    ∃ var, vars.get? name = some var ∧ Fits var value := by
  simp only [checkAssignment, bind_ok, fetch_ok, reject_ok] at checked
  obtain ⟨var, found, _, typed, bounds⟩ := checked
  refine ⟨var, found, by simpa using typed, fun isInt => ?_⟩
  simpa [isInt] using bounds

/-- What holds of a choice that has no issue. -/
structure ChoiceSound (vars : Dict String Variable) (nodes : Dict String StoryNode) (tree : Tree) (choice : Choice) : Prop where
  condition : expressionType vars tree = .ok .bool
  target : choice.target ∈ nodes.keys
  assignments : ∀ ⦃name value⦄, choice.assignments.get? name = some value → ∃ var, vars.get? name = some var ∧ Fits var value

theorem checkChoice_ok {choice : Choice} (checked : checkChoice vars tree choice = .ok ()) :
    expressionType vars tree = .ok .bool ∧
      ∀ ⦃name value⦄, choice.assignments.get? name = some value → ∃ var, vars.get? name = some var ∧ Fits var value := by
  simp only [checkChoice, bind_ok, reject_ok] at checked
  obtain ⟨kind, typed, _, isBool, assigned⟩ := checked
  have isBool : kind = .bool := by simpa using isBool
  refine ⟨isBool ▸ typed, fun name value found => ?_⟩
  exact checkAssignment_ok (forM_ok assigned (name, value) (Dict.get?_eq_some_iff.mp found))

/-- What is known while a story is compiled, of the choices that were compiled. -/
structure Progress (astParse : AstParse) (vars : Dict String Variable) (nodes : Dict String StoryNode)
    (choices : List (StoryNode × Choice)) (story : Compiled) : Prop where
  table : story.nodes = nodes
  stored : ∀ pair ∈ choices, ∃ tree, story.compiled.get? (pair.1.nodeId, pair.2.id) = some tree
  parsed : ∀ ⦃key tree⦄, story.compiled.get? key = some tree →
    ∃ pair ∈ choices, key = (pair.1.nodeId, pair.2.id) ∧ parseCondition astParse pair.2.condition = .ok tree
  sound : story.issues = [] → ∀ pair ∈ choices, ∀ tree, parseCondition astParse pair.2.condition = .ok tree →
    ChoiceSound vars nodes tree pair.2

theorem issuesOf_nil (done : issuesOf nid choice checked = .ok []) : checked = .ok () := by
  cases checked with
  | ok _ => rfl
  | error failure => cases failure <;> simp [issuesOf] at done

theorem Progress.addChoice {story next : Compiled} (progress : Progress astParse vars nodes choices story)
    (done : compileChoice astParse vars node story choice = .ok next) :
    Progress astParse vars nodes (choices ++ [(node, choice)]) next ∧ (next.issues = [] → story.issues = []) := by
  simp only [compileChoice, bind_ok, pure_ok] at done
  obtain ⟨tree, parsed, failed, checked, rfl⟩ := done
  refine ⟨⟨progress.table, fun pair member => ?_, fun key other found => ?_, fun none pair member other again => ?_⟩, ?_⟩
  · simp only [Dict.get?_set]
    split
    · exact ⟨tree, rfl⟩
    · rename_i different
      rw [List.mem_append, List.mem_singleton] at member
      rcases member with member | rfl
      · exact progress.stored pair member
      · exact absurd rfl different
  · simp only [Dict.get?_set] at found
    split at found
    · rename_i same
      cases found
      exact ⟨(node, choice), by simp, same, parsed⟩
    · obtain ⟨pair, member, same, again⟩ := progress.parsed found
      exact ⟨pair, List.mem_append_left _ member, same, again⟩
  · simp only [List.append_eq_nil_iff] at none
    obtain ⟨⟨earlier, present⟩, rfl⟩ := none
    rw [List.mem_append, List.mem_singleton] at member
    rcases member with member | rfl
    · exact progress.sound earlier pair member other again
    · cases parsed.symm.trans again
      obtain ⟨condition, assignments⟩ := checkChoice_ok (issuesOf_nil checked)
      refine ⟨condition, ?_, assignments⟩
      by_contra absent
      rw [← progress.table] at absent
      simp [absent] at present
  · intro none
    simp only [List.append_eq_nil_iff] at none
    exact none.1.1

theorem Progress.addNode {story next : Compiled} (progress : Progress astParse vars nodes choices story)
    (done : compileNode astParse vars story node = .ok next) :
    Progress astParse vars nodes (choices ++ node.choices.map fun choice => (node, choice)) next ∧
      (next.issues = [] → story.issues = [] ∧ noExit node = []) := by
  have started : Progress astParse vars nodes choices { story with issues := story.issues ++ noExit node } :=
    ⟨progress.table, progress.stored, progress.parsed, fun none => progress.sound (List.append_eq_nil_iff.mp none).1⟩
  have folded := foldlM_invariant
    (motive := fun before now => Progress astParse vars nodes (choices ++ before.map fun choice => (node, choice)) now ∧
      (now.issues = [] → story.issues = [] ∧ noExit node = []))
    (fun {before choice now after} _ ⟨sofar, clean⟩ turned => ?_) ⟨by simpa using started, List.append_eq_nil_iff.mp⟩ done
  · exact folded
  · obtain ⟨later, earlier⟩ := sofar.addChoice turned
    exact ⟨by simpa using later, fun none => clean (earlier none)⟩

/-- What holds of a story without issues. -/
structure Sound (vars : Dict String Variable) (story : Compiled) : Prop where
  exits : ∀ ⦃nid node⦄, story.nodes.get? nid = some node → node.ending = "" → node.choices ≠ []
  choices : ∀ ⦃nid node⦄, story.nodes.get? nid = some node → ∀ choice ∈ node.choices,
    ∃ tree, story.compiled.get? (nid, choice.id) = some tree ∧ ChoiceSound vars story.nodes tree choice

theorem choice_eq_of_id {node : StoryNode} (left : one ∈ node.choices) (right : other ∈ node.choices) (same : one.id = other.id) :
    one = other :=
  List.inj_on_of_nodup_map node.unique left right same

theorem compileStory_sound {spec : StorySpec} (done : compileStory astParse spec = .ok story) :
    story.nodes = spec.nodeTable ∧ (story.issues = [] → Sound spec.variableTable story) := by
  have folded := foldlM_invariant
    (motive := fun before now => Progress astParse spec.variableTable spec.nodeTable
        (before.flatMap fun node => node.choices.map fun choice => (node, choice)) now ∧
      (now.issues = [] → ∀ node ∈ before, noExit node = []))
    (fun {before node now after} _ ⟨sofar, clean⟩ turned => ?_) ⟨⟨rfl, by simp, by simp, by simp⟩, by simp⟩ done
  · obtain ⟨progress, exits⟩ := folded
    refine ⟨progress.table, fun none => ⟨fun nid node found open' empty => ?_, fun nid node found choice member => ?_⟩⟩
    · rw [progress.table] at found
      have clean := exits none node (Dict.mem_values_iff.mpr ⟨nid, found⟩)
      simp [noExit, open', empty] at clean
    · rw [progress.table] at found
      obtain ⟨_, rfl⟩ := nodeTable_found found
      have listed : (node, choice) ∈ spec.nodeTable.values.flatMap fun node => node.choices.map fun choice => (node, choice) :=
        List.mem_flatMap.mpr ⟨node, Dict.mem_values_iff.mpr ⟨_, found⟩, List.mem_map.mpr ⟨choice, member, rfl⟩⟩
      obtain ⟨tree, stored⟩ := progress.stored _ listed
      refine ⟨tree, stored, ?_⟩
      rw [progress.table]
      apply progress.sound none _ listed
      -- The tree under this key was parsed from this choice: ids are unique.
      obtain ⟨⟨owner, origin⟩, there, same, parsed⟩ := progress.parsed stored
      obtain ⟨holder, held, inside⟩ := List.mem_flatMap.mp there
      obtain ⟨given, isGiven, pair⟩ := List.mem_map.mp inside
      obtain ⟨rfl, rfl⟩ := Prod.mk.inj pair
      obtain ⟨key, place⟩ := Dict.mem_values_iff.mp held
      obtain ⟨sameNode, sameChoice⟩ := Prod.mk.inj same
      have unique : node = holder := by
        rw [← (nodeTable_found place).2, ← sameNode, found] at place
        exact Option.some.inj place
      rw [choice_eq_of_id member (unique ▸ isGiven) sameChoice]
      exact parsed
  · obtain ⟨later, exit⟩ := sofar.addNode turned
    refine ⟨by simpa using later, fun none other member => ?_⟩
    rw [List.mem_append, List.mem_singleton] at member
    rcases member with member | rfl
    · exact clean (exit none).1 other member
    · exact (exit none).2

end NovelStudio.Story

/-! `analyze` and `play`: a bounded search of the states of a story, and the replay of a
path of choices. -/

namespace NovelStudio.Story

open Library

structure Walk where
  reachable : List String
  active : List String
  cycles : List String

/-- `visit`; the fuel bounds the depth, which the nodes bound as well. -/
def visit (nodes : Dict String StoryNode) : Nat → Walk → String → Walk
  | 0, walk, _ => walk
  | fuel + 1, walk, nid =>
    if nid ∈ walk.active then { walk with cycles := walk.cycles.insert nid }
    else if nid ∈ walk.reachable then walk
    else
      match nodes.get? nid with
      | none => walk
      | some node =>
        let entered := { walk with reachable := nid :: walk.reachable, active := nid :: walk.active }
        let left := node.choices.foldl (fun walk choice => visit nodes fuel walk choice.target) entered
        { left with active := left.active.erase nid }

/-- How many nodes a walk has not reached. -/
def unreached (nodes : Dict String StoryNode) (walk : Walk) : Nat :=
  (nodes.keys.filter fun nid => nid ∉ walk.reachable).length

theorem foldl_reachable {turn : Walk → Choice → Walk} (grows : ∀ walk choice, walk.reachable ⊆ (turn walk choice).reachable)
    (choices : List Choice) (walk : Walk) : walk.reachable ⊆ (choices.foldl turn walk).reachable := by
  induction choices generalizing walk with
  | nil => exact List.Subset.refl _
  | cons choice rest ih => exact List.Subset.trans (grows walk choice) (ih _)

theorem visit_reachable (nodes : Dict String StoryNode) (fuel : Nat) (walk : Walk) (nid : String) :
    walk.reachable ⊆ (visit nodes fuel walk nid).reachable := by
  induction fuel generalizing walk nid with
  | zero => exact List.Subset.refl _
  | succ fuel ih =>
    simp only [visit]
    split
    · exact List.Subset.refl _
    · split
      · exact List.Subset.refl _
      · split
        · exact List.Subset.refl _
        · apply List.Subset.trans (List.subset_cons_self nid walk.reachable)
          exact foldl_reachable (fun walk choice => ih walk choice.target) _ ⟨nid :: walk.reachable, nid :: walk.active, walk.cycles⟩

variable {nodes : Dict String StoryNode} {walk : Walk}

theorem unreached_le {next : Walk} (grows : walk.reachable ⊆ next.reachable) :
    unreached nodes next ≤ unreached nodes walk := by
  apply List.Sublist.length_le
  apply List.monotone_filter_right
  intro nid missing
  simp only [decide_eq_true_eq] at missing ⊢
  exact fun there => missing (grows there)

theorem unreached_lt {next : Walk} (grows : walk.reachable ⊆ next.reachable)
    (known : nid ∈ nodes.keys) (before : nid ∉ walk.reachable) (after : nid ∈ next.reachable) :
    unreached nodes next < unreached nodes walk := by
  have sublist : (nodes.keys.filter fun nid => nid ∉ next.reachable).Sublist (nodes.keys.filter fun nid => nid ∉ walk.reachable) := by
    apply List.monotone_filter_right
    intro nid missing
    simp only [decide_eq_true_eq] at missing ⊢
    exact fun there => missing (grows there)
  refine Nat.lt_of_le_of_ne sublist.length_le fun same => ?_
  have equal := sublist.eq_of_length same
  have member : nid ∈ nodes.keys.filter fun nid => nid ∉ walk.reachable := by simp [known, before]
  rw [← equal] at member
  simp [after] at member

theorem visit_fuel (enough : unreached nodes walk < fuel) (nid : String) :
    visit nodes (fuel + 1) walk nid = visit nodes fuel walk nid := by
  induction fuel generalizing walk nid with
  | zero => omega
  | succ fuel ih =>
    rw [visit, visit]
    by_cases active : nid ∈ walk.active
    · simp [active]
    · by_cases reached : nid ∈ walk.reachable
      · simp [active, reached]
      · cases found : nodes.get? nid with
        | none => simp [active, reached]
        | some node =>
          have fewer : unreached nodes ⟨nid :: walk.reachable, nid :: walk.active, walk.cycles⟩ < unreached nodes walk :=
            unreached_lt (List.subset_cons_self ..) (Dict.mem_keys_iff.mpr ⟨node, found⟩) reached (List.mem_cons_self ..)
          have folded : ∀ (choices : List Choice) (now : Walk), unreached nodes now < fuel →
              choices.foldl (fun walk choice => visit nodes (fuel + 1) walk choice.target) now =
                choices.foldl (fun walk choice => visit nodes fuel walk choice.target) now := by
            intro choices
            induction choices with
            | nil => intros; rfl
            | cons choice rest again =>
              intro now less
              rw [List.foldl_cons, List.foldl_cons, ih less]
              exact again _ (Nat.lt_of_le_of_lt (unreached_le (visit_reachable nodes fuel now choice.target)) less)
          have children := folded node.choices ⟨nid :: walk.reachable, nid :: walk.active, walk.cycles⟩ (by omega)
          simp only [active, reached, if_false, children]

/-- The nodes that can be reached, and those at which a cycle closes. -/
def walkFrom (nodes : Dict String StoryNode) (entry : String) : Walk := visit nodes (nodes.keys.length + 1) ⟨[], [], []⟩ entry

theorem walkFrom_fuel (nodes : Dict String StoryNode) (entry : String) (more : Nat) :
    visit nodes (nodes.keys.length + 1 + more) ⟨[], [], []⟩ entry = walkFrom nodes entry := by
  have bound : unreached nodes ⟨[], [], []⟩ ≤ nodes.keys.length := List.length_filter_le ..
  induction more with
  | zero => rfl
  | succ more ih =>
    have enough : unreached nodes ⟨[], [], []⟩ < nodes.keys.length + 1 + more := by omega
    exact (visit_fuel enough entry).trans ih

/-- One round that adds the nodes with a choice that leads to an exit. -/
def extendExits (nodes : List StoryNode) (exits : List String) : List String :=
  nodes.foldl (fun exits node =>
    if node.nodeId ∉ exits ∧ (node.choices.any fun choice => choice.target ∈ exits) = true then exits ++ [node.nodeId] else exits) exits

/-- Rounds until one adds nothing. -/
def closeExits (nodes : List StoryNode) : Nat → List String → List String
  | 0, exits => exits
  | rounds + 1, exits =>
    let next := extendExits nodes exits
    if next = exits then exits else closeExits nodes rounds next

/-- `{**values, **assignments}`. -/
def update (values : Values) (assignments : Dict String Scalar) : Values :=
  assignments.entries.foldl (fun values entry => values.set entry.1 entry.2) values

/-- `interpret(compiled[(nid, choice['id'])], values)`. -/
def condition (story : Compiled) (nid : String) (values : Values) (choice : Choice) : Except Failure Scalar := do
  let tree ← fetch (story.compiled.get? (nid, choice.id)) (.key choice.id)
  interpret values tree

def enabledChoices (story : Compiled) (nid : String) (values : Values) : List Choice → Except Failure (List Choice)
  | [] => .ok []
  | choice :: rest => do
    let value ← condition story nid values choice
    let others ← enabledChoices story nid values rest
    return if value.truthy then choice :: others else others

structure Entry where
  nodeId : String
  values : Values
  path : List String

structure Witness where
  nodeId : String
  ending : String
  choices : List String

structure Search (Key : Type) where
  queue : List Entry
  /-- The digests of the states that were expanded. -/
  seen : List Key
  witnesses : Dict String Witness
  dead : List Issue
  truncated : Bool
  stepLimited : Bool

/-- The digest of a state, which is compared only. -/
abbrev StateDigest (Key : Type) := String → Values → Key

section

variable {Key : Type}

def Entry.follow (entry : Entry) (choice : Choice) : Entry :=
  ⟨choice.target, update entry.values choice.assignments, entry.path ++ [choice.id]⟩

/-- `witnesses.setdefault(nid, …)`. -/
def reachEnding (search : Search Key) (entry : Entry) (node : StoryNode) : Search Key :=
  if entry.nodeId ∈ search.witnesses.keys then search
  else { search with witnesses := search.witnesses.set entry.nodeId ⟨entry.nodeId, node.ending, entry.path⟩ }

/-- A state that is no ending, with its available choices. -/
def leave (maxSteps : Nat) (search : Search Key) (entry : Entry) (available : List Choice) : Search Key :=
  let dead := if available.isEmpty then
    search.dead ++ [⟨"CONDITIONAL_NO_EXIT", some entry.nodeId, none, some entry.path⟩] else search.dead
  if maxSteps ≤ entry.path.length then { search with dead, stepLimited := true }
  else { search with dead, queue := search.queue ++ available.map entry.follow }

def expandEntry (story : Compiled) (maxSteps : Nat) (search : Search Key) (entry : Entry) : Except Failure (Search Key) := do
  let node ← fetch (story.nodes.get? entry.nodeId) (.key entry.nodeId)
  if node.ending ≠ "" then return reachEnding search entry node
  else return leave maxSteps search entry (← enabledChoices story entry.nodeId entry.values node.choices)

theorem expandEntry_seen {search : Search Key} (done : expandEntry story maxSteps search entry = .ok next) :
    next.seen = search.seen := by
  simp only [expandEntry, bind_ok, fetch_ok] at done
  obtain ⟨node, _, done⟩ := done
  split at done
  · rw [pure_ok] at done
    subst done
    unfold reachEnding
    split <;> rfl
  · simp only [bind_ok, pure_ok] at done
    obtain ⟨available, _, rfl⟩ := done
    unfold leave
    simp only
    split <;> rfl

variable [DecidableEq Key]

/-- One turn of the search; `break` drops the queue. -/
def turn (story : Compiled) (digest : StateDigest Key) (maxSteps : Nat) (search : Search Key) : Except Failure (Option (Search Key)) :=
  match search.queue with
  | [] => .ok none
  | entry :: rest =>
    let key := digest entry.nodeId entry.values
    if key ∈ search.seen then .ok (some { search with queue := rest })
    else if MAX_ANALYSIS_STATES ≤ search.seen.length then .ok (some { search with queue := [], truncated := true })
    else (expandEntry story maxSteps { search with queue := rest, seen := search.seen ++ [key] } entry).map some

/-- The states that may still be expanded, and the queue. -/
def Search.rank (search : Search Key) : Nat ×ₗ Nat :=
  toLex (MAX_ANALYSIS_STATES - search.seen.length, search.queue.length)

theorem turn_descends (story : Compiled) (digest : StateDigest Key) (maxSteps : Nat) (search next : Search Key)
    (turned : turn story digest maxSteps search = .ok (some next)) : next.rank < search.rank := by
  unfold turn at turned
  split at turned
  · cases turned
  · rename_i entry rest waiting
    simp only at turned
    split at turned
    · cases turned
      exact Prod.Lex.toLex_lt_toLex.mpr (.inr ⟨rfl, by simp [waiting]⟩)
    · split at turned
      · cases turned
        exact Prod.Lex.toLex_lt_toLex.mpr (.inr ⟨rfl, by simp [waiting]⟩)
      · rename_i room
        cases expanded : expandEntry story maxSteps
            { search with queue := rest, seen := search.seen ++ [digest entry.nodeId entry.values] } entry with
        | error failure => simp [expanded, Except.map] at turned
        | ok after =>
          simp only [expanded, Except.map, Except.ok.injEq, Option.some.injEq] at turned
          subst turned
          have seen := expandEntry_seen expanded
          refine Prod.Lex.toLex_lt_toLex.mpr (.inl ?_)
          rw [seen, List.length_append, List.length_singleton]
          simp only
          omega

/-- The search from the entry of a story. -/
def explore (story : Compiled) (digest : StateDigest Key) (maxSteps : Nat) (search : Search Key) : Except Failure (Search Key) :=
  turnLoop (turn story digest maxSteps) Search.rank (turn_descends story digest maxSteps) search

structure Report where
  issues : List Issue
  warnings : List Issue
  endings : List Witness
  statesChecked : Nat
  stateLimitReached : Bool
  stepLimitReached : Bool
  canReview : Bool

def sorted (names : List String) : List String := names.mergeSort fun left right => left ≤ right

def atNode (code : String) (nid : String) : Issue := ⟨code, some nid, none, none⟩

/-- The search of `analyze`, which is left out where there are issues already. -/
def searchOf (story : Compiled) (digest : StateDigest Key) (spec : StorySpec) (issues : List Issue) : Except Failure (Search Key) :=
  if issues = [] then explore story digest spec.maxSteps ⟨[⟨spec.entryNodeId, spec.initial, []⟩], [], ∅, [], false, false⟩
  else .ok ⟨[], [], ∅, [], false, false⟩

def analyze (astParse : AstParse) (digest : StateDigest Key) (spec : StorySpec) : Except Failure Report := do
  let story ← compileStory astParse spec
  let nodes := story.nodes.values
  let walk := walkFrom story.nodes spec.entryNodeId
  let exits := (nodes.filter fun node => node.ending ≠ "").map StoryNode.nodeId
  let canExit := closeExits nodes nodes.length exits
  let warnings := (sorted (story.nodes.keys.filter fun nid => nid ∉ walk.reachable)).map (atNode "UNREACHABLE_NODE") ++
    (sorted walk.cycles).map (atNode "CYCLE_STEP_CAP_REQUIRED")
  let stuck := (sorted (walk.reachable.filter fun nid => nid ∉ canExit)).map (atNode "NO_ENDING_PATH")
  let before := story.issues ++ stuck
  let search ← searchOf story digest spec before
  let endless : List Issue := if before = [] ∧ search.witnesses.keys = [] then
    [⟨"NO_REACHABLE_ENDING_WITHIN_CAP", none, none, none⟩] else []
  let issues := before ++ search.dead.take 100 ++ endless
  return { issues, warnings, endings := search.witnesses.values, statesChecked := search.seen.length,
           stateLimitReached := search.truncated, stepLimitReached := search.stepLimited,
           canReview := issues = [] ∧ search.truncated = false ∧ search.stepLimited = false }

end

inductive Status where
  | ending | stepCapReached | playing | noExit
  deriving DecidableEq

structure Offer where
  id : String
  label : String
  enabled : Scalar

structure PlayState where
  node : StoryNode
  choices : List Offer
  vars : Values
  steps : Nat
  maxSteps : Nat
  status : Status
  path : List String

def unavailable : Failure := .value "CHOICE_UNAVAILABLE"

def playStep (story : Compiled) (state : String × Values) (cid : String) : Except Failure (String × Values) := do
  let node ← fetch (story.nodes.get? state.1) (.key state.1)
  reject (node.ending ≠ "") unavailable
  let choice ← fetch (node.choices.find? fun choice => choice.id = cid) unavailable
  let value ← condition story state.1 state.2 choice
  reject (!value.truthy) unavailable
  return (choice.target, update state.2 choice.assignments)

def playPath (story : Compiled) (spec : StorySpec) (path : List String) : Except Failure (String × Values) :=
  path.foldlM (playStep story) (spec.entryNodeId, spec.initial)

def offers (story : Compiled) (nid : String) (values : Values) : List Choice → Except Failure (List Offer)
  | [] => .ok []
  | choice :: rest => do
    let value ← condition story nid values choice
    return ⟨choice.id, choice.label, value⟩ :: (← offers story nid values rest)

def statusOf (spec : StorySpec) (node : StoryNode) (path : List String) (choices : List Offer) : Status :=
  if node.ending ≠ "" then .ending
  else if spec.maxSteps ≤ path.length then .stepCapReached
  else if choices.any fun offer => offer.enabled.truthy then .playing
  else .noExit

/-- The end of `play`: the state that the path leads to. -/
def present (story : Compiled) (spec : StorySpec) (path : List String) (state : String × Values) : Except Failure PlayState := do
  let node ← fetch (story.nodes.get? state.1) (.key state.1)
  let choices ← offers story state.1 state.2 node.choices
  return { node, choices, vars := state.2, steps := path.length, maxSteps := spec.maxSteps,
           status := statusOf spec node path choices, path }

def play (astParse : AstParse) (spec : StorySpec) (path : List String) : Except Failure PlayState := do
  let story ← compileStory astParse spec
  reject (story.issues ≠ []) (.value "fix path, variable and condition errors before playback")
  reject (spec.maxSteps < path.length) (.value "STEP_CAP_REACHED")
  present story spec path (← playPath story spec path)

end NovelStudio.Story
