import Mathlib.Data.List.Sort
import Mathlib.Data.String.Basic
import NovelStudio.Library.Dict
import NovelStudio.Library.Fallible

/-! Requests for a story simulation: routes of manual events, under hard constraints. -/

namespace NovelStudio.Simulator

open Library

structure SimulationEvent where
  id : String
  title : String
  at_ : Int
  requires : List String
  adds : List String
  removes : List String
  requires_knowledge : List String
  resource_delta : Dict String Int
  foreshadowing_links : List String
  question : String

structure SimulationRoute where
  id : String
  title : String
  motivation_hypothesis : String
  events : List SimulationEvent

structure HardConstraints where
  forbidden_facts : List String
  required_final_facts : List String
  resource_caps : Dict String Int

structure SimulationRunIn where
  chapter_ids : List String
  expected_versions : Dict String Int
  chapter_id : String
  world_time : Option Int
  assumptions : List String
  character_goal : String
  motivation_hypothesis : String
  knowledge_ids : List String
  resources : Dict String Int
  hard_constraints : HardConstraints
  max_steps : Nat
  max_branches : Nat
  routes : List SimulationRoute

def isSymbol (text : String) : Bool := 1 ≤ text.length && text.length ≤ 160

def isAmount (amount : Int) : Bool := -1000000 ≤ amount && amount ≤ 1000000

def isQuantity (amount : Int) : Bool := 0 ≤ amount && amount ≤ 1000000

/-- A list of symbols of at most so many items. -/
def symbols (items : List String) (most : Nat) : Bool := items.length ≤ most && items.all isSymbol

/-- A mapping of symbols of at most so many items. -/
def quantities (items : Dict String Int) (valid : Int → Bool) : Bool :=
  items.keys.length ≤ 32 && items.keys.all isSymbol && items.values.all valid

def SimulationEvent.valid (event : SimulationEvent) : Bool :=
  isSymbol event.id && 1 ≤ event.title.length && event.title.length ≤ 240 && symbols event.requires 32 && symbols event.adds 32 &&
    symbols event.removes 32 && symbols event.requires_knowledge 32 && quantities event.resource_delta isAmount &&
    symbols event.foreshadowing_links 20 && event.question.length ≤ 1000

def SimulationRoute.unique_events (route : SimulationRoute) : Bool := (route.events.map (·.id)).dedup.length = route.events.length

def SimulationRoute.valid (route : SimulationRoute) : Bool :=
  isSymbol route.id && 1 ≤ route.title.length && route.title.length ≤ 240 && route.motivation_hypothesis.length ≤ 2000 &&
    1 ≤ route.events.length && route.events.length ≤ 32 && route.events.all (·.valid) && route.unique_events

def HardConstraints.valid (constraints : HardConstraints) : Bool :=
  symbols constraints.forbidden_facts 32 && symbols constraints.required_final_facts 32 && quantities constraints.resource_caps isQuantity

def SimulationRunIn.valid (request : SimulationRunIn) : Bool :=
  1 ≤ request.chapter_ids.length && symbols request.chapter_ids 20 && 1 ≤ request.expected_versions.keys.length &&
    symbols request.expected_versions.keys 20 && isSymbol request.chapter_id && symbols request.assumptions 32 &&
    request.character_goal.length ≤ 2000 && request.motivation_hypothesis.length ≤ 2000 && symbols request.knowledge_ids 100 &&
    quantities request.resources isQuantity && request.hard_constraints.valid && 1 ≤ request.max_steps && request.max_steps ≤ 32 &&
    1 ≤ request.max_branches && request.max_branches ≤ 8 && 1 ≤ request.routes.length && request.routes.length ≤ 8 && request.routes.all (·.valid)

/-- The most that there may be of a resource. -/
def HardConstraints.cap (constraints : HardConstraints) (key : String) : Int := (constraints.resource_caps.get? key).getD 1000000

def SimulationRunIn.bounded (request : SimulationRunIn) : Except String Unit := do
  reject ((request.routes.map (·.id)).dedup.length ≠ request.routes.length) "route IDs must be unique"
  reject (request.max_branches < request.routes.length) "route count exceeds branch limit"
  reject (request.chapter_ids.dedup.length ≠ request.chapter_ids.length || request.expected_versions.keys.any (· ∉ request.chapter_ids) ||
    request.chapter_ids.any (· ∉ request.expected_versions.keys)) "provide exactly the selected unique chapter versions"
  reject (request.chapter_id ∉ request.chapter_ids) "viewpoint chapter must be selected"
  reject (request.assumptions.any (· ∈ request.hard_constraints.forbidden_facts)) "initial assumptions violate forbidden facts"
  reject (request.resources.entries.any fun (key, amount) => request.hard_constraints.cap key < amount) "initial resources exceed hard limits"

/-- The request passes its own validation. -/
def SimulationRunIn.Admitted (request : SimulationRunIn) : Prop := request.valid = true ∧ request.bounded = .ok ()

theorem SimulationRunIn.bounded_spec {request : SimulationRunIn} (ok : request.bounded = .ok ()) :
    (∀ fact ∈ request.assumptions, fact ∉ request.hard_constraints.forbidden_facts) ∧
      ∀ entry ∈ request.resources.entries, entry.2 ≤ request.hard_constraints.cap entry.1 := by
  unfold SimulationRunIn.bounded at ok
  simp only [bind_ok, reject_ok] at ok
  obtain ⟨_, _, _, _, _, _, _, _, _, facts, resources⟩ := ok
  constructor
  · intro fact member forbidden
    exact List.any_eq_false.mp facts fact member (decide_eq_true forbidden)
  · intro entry member
    by_contra more
    exact List.any_eq_false.mp resources entry member (decide_eq_true (Int.not_le.mp more))

end NovelStudio.Simulator

/-! The transitions of a route, and the rounds that advance all routes of a run. -/

namespace NovelStudio.Simulator

open Library

structure State where
  facts : List String
  resources : Dict String Int
  time : Option Int

inductive Code where
  | UNMET_PREREQUISITE | TEMPORAL_ORDER | INACCESSIBLE_KNOWLEDGE | UNAVAILABLE_FORESHADOWING | HARD_CONSTRAINT | RESOURCE_CONFLICT
  | CYCLE_STOPPED | FINAL_GOAL_UNMET
  deriving DecidableEq

structure Violation where
  code : Code
  message : String
  event_id : Option String
  deriving DecidableEq

def violation (code : Code) (message : String) : Violation := ⟨code, message, none⟩

/-- `{**error, 'event_id': id}`. -/
def Violation.ofEvent (error : Violation) (id : String) : Violation := { error with event_id := some id }

/-- `sorted(set(items))`. -/
def sortedSet (items : List String) : List String := items.dedup.insertionSort (· ≤ ·)

def State.resource (resources : Dict String Int) (key : String) : Int := (resources.get? key).getD 0

/-- One resource of the loop: its new amount, and a violation where that is out of bounds. -/
def changeResource (constraints : HardConstraints) (reached : Dict String Int × List Violation) (delta : String × Int) : Dict String Int × List Violation :=
  let amount := State.resource reached.1 delta.1 + delta.2
  (reached.1.set delta.1 amount, reached.2 ++
    if 0 ≤ amount ∧ amount ≤ constraints.cap delta.1 then [] else [violation .RESOURCE_CONFLICT s!"资源 {delta.1} 不足或超过上限。"])

def transition (state : State) (event : SimulationEvent) (knowledge_ids graph_ids : List String) (constraints : HardConstraints) : State × List Violation :=
  let facts := state.facts.filter (· ∉ event.removes) ++ event.adds
  let changed := event.resource_delta.entries.foldl (changeResource constraints) (state.resources, [])
  let errors :=
    (if event.requires.all (· ∈ state.facts) then [] else [violation .UNMET_PREREQUISITE "事件前提尚未满足。"]) ++
    (if state.time.any fun time => event.at_ < time then [violation .TEMPORAL_ORDER "事件时间早于当前路线状态。"] else []) ++
    (if event.requires_knowledge.all (· ∈ knowledge_ids) then []
      else [violation .INACCESSIBLE_KNOWLEDGE "此事件需要角色在所选知识边界内不可用的知识。"]) ++
    (if event.foreshadowing_links.all (· ∈ graph_ids) then []
      else [violation .UNAVAILABLE_FORESHADOWING "伏笔关联不在本次角色可见的已审核图谱中。"]) ++
    (if facts.any (· ∈ constraints.forbidden_facts) then [violation .HARD_CONSTRAINT "事件会产生被硬约束禁止的状态。"] else []) ++
    changed.2
  (if errors.isEmpty then ⟨sortedSet facts, changed.1, some event.at_⟩ else state, errors)

inductive RouteStatus where
  | PENDING | COMPLETED | LIMIT_REACHED
  deriving DecidableEq

structure ResourceChange where
  before : Int
  after : Int

structure RuleEffects where
  facts_added : List String
  facts_removed : List String
  resource_changes : List (String × ResourceChange)
  time_before : Option Int
  time_after : Option Int

structure Step where
  event_id : String
  title : String
  at_ : Int
  applied : Bool
  violations : List Violation
  rule_effects : RuleEffects
  question : String
  foreshadowing_links : List String

/-- A route of a run, with what stamps of states are. -/
structure Route (σ : Type) where
  id : String
  title : String
  cursor : Nat
  status : RouteStatus
  steps : List Step
  violations : List Violation
  unresolved_questions : List String
  motivation_hypothesis : String
  character_goal : String
  state : State
  seen_states : List σ

inductive RunStatus where
  | READY | RUNNING | COMPLETED
  deriving DecidableEq

structure Target (σ : Type) where
  routes : List (Route σ)
  expansions : Nat
  status : RunStatus

def MAX_EXPANSIONS : Nat := 256

variable {σ : Type} (digest : State → σ)

def initial (request : SimulationRunIn) : State := ⟨sortedSet request.assumptions, request.resources, request.world_time⟩

def initial_route (request : SimulationRunIn) (route : SimulationRoute) : Route σ where
  id := route.id
  title := route.title
  cursor := 0
  status := .PENDING
  steps := []
  violations := []
  unresolved_questions := []
  motivation_hypothesis := if route.motivation_hypothesis = "" then request.motivation_hypothesis else route.motivation_hypothesis
  character_goal := request.character_goal
  state := initial request
  seen_states := [digest (initial request)]

def initial_routes (request : SimulationRunIn) : List (Route σ) := request.routes.map (initial_route digest request)

def effects (before after : State) : RuleEffects where
  facts_added := sortedSet (after.facts.filter (· ∉ before.facts))
  facts_removed := sortedSet (before.facts.filter (· ∉ after.facts))
  resource_changes := (sortedSet (before.resources.keys ++ after.resources.keys)).filterMap fun key =>
    if State.resource before.resources key ≠ State.resource after.resources key
    then some (key, ⟨State.resource before.resources key, State.resource after.resources key⟩) else none
  time_before := before.time
  time_after := after.time

/-- Whether a required final fact is missing. -/
def HardConstraints.unmet (constraints : HardConstraints) (state : State) : Bool := constraints.required_final_facts.any (· ∉ state.facts)

/-- What is recorded of a route that has finished. -/
def finish (constraints : HardConstraints) (route : Route σ) : Route σ :=
  if route.status = .PENDING then route
  else
    { route with
      violations := route.violations ++
        if constraints.unmet route.state then [violation .FINAL_GOAL_UNMET "路线结束时尚未满足必需的终态条件。"] else []
      unresolved_questions := route.unresolved_questions ++
        if route.status = .LIMIT_REACHED then ["已到达步数或循环边界；未展开的事件没有被检查。"] else [] }

variable [DecidableEq σ]

/-- A transition of a route, which stops where the state was seen before. -/
def take (request : SimulationRunIn) (graph_ids : List String) (route : Route σ) (event : SimulationEvent) : Route σ × List Violation :=
  let (after, errors) := transition route.state event request.knowledge_ids graph_ids request.hard_constraints
  if errors.isEmpty then
    if digest after ∈ route.seen_states then
      ({ route with status := .LIMIT_REACHED }, [violation .CYCLE_STOPPED "路线重复已有状态，已停止此路线继续扩展。"])
    else ({ route with seen_states := route.seen_states ++ [digest after], state := after }, [])
  else (route, errors)

def expand (request : SimulationRunIn) (graph_ids : List String) (candidate : SimulationRoute) (route : Route σ) (event : SimulationEvent) : Route σ :=
  let (taken, errors) := take digest request graph_ids route event
  let cursor := route.cursor + 1
  finish request.hard_constraints
    { taken with
      cursor
      steps := taken.steps ++ [⟨event.id, event.title, event.at_, errors.isEmpty, errors, effects route.state taken.state, event.question,
        event.foreshadowing_links.filter (· ∈ graph_ids)⟩]
      violations := taken.violations ++ errors.map (·.ofEvent event.id)
      unresolved_questions := taken.unresolved_questions ++ if event.question = "" then [] else [event.question]
      status :=
        if taken.status = .PENDING then
          if candidate.events.length ≤ cursor then .COMPLETED else if request.max_steps ≤ cursor then .LIMIT_REACHED else .PENDING
        else taken.status }

/-- The body of the loop over the routes, with the expansions so far; none where a route has no further event. -/
def advance_route (request : SimulationRunIn) (graph_ids : List String) (candidate : SimulationRoute) (route : Route σ) (expansions : Nat) :
    Option (Route σ × Nat) :=
  if route.status ≠ .PENDING then some (route, expansions)
  else if request.max_steps ≤ route.cursor ∨ MAX_EXPANSIONS ≤ expansions then some ({ route with status := .LIMIT_REACHED }, expansions)
  else (candidate.events[route.cursor]?).map fun event => (expand digest request graph_ids candidate route event, expansions + 1)

/-- The loop over the routes, each with the route that was asked for. -/
def advance_routes (request : SimulationRunIn) (graph_ids : List String) : List SimulationRoute → List (Route σ) → Nat → Option (List (Route σ) × Nat)
  | candidate :: candidates, route :: routes, expansions => do
    let (advanced, expansions) ← advance_route digest request graph_ids candidate route expansions
    let (others, expansions) ← advance_routes request graph_ids candidates routes expansions
    return (advanced :: others, expansions)
  | _, routes, expansions => some (routes, expansions)

def advance_round (request : SimulationRunIn) (target : Target σ) (graph_ids : List String) : Option (Target σ) := do
  let (routes, expansions) ← advance_routes digest request graph_ids request.routes target.routes target.expansions
  return ⟨routes, expansions, if routes.all (·.status ≠ .PENDING) then .COMPLETED else .RUNNING⟩

def created (request : SimulationRunIn) : Target σ := ⟨initial_routes digest request, 0, .READY⟩

/-- A run after a round for each of the graphs. -/
def run (request : SimulationRunIn) (graphs : List (List String)) : Option (Target σ) := graphs.foldlM (advance_round digest request) (created digest request)

end NovelStudio.Simulator
