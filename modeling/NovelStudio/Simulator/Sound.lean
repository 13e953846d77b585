import Mathlib.Data.List.Dedup
import NovelStudio.Simulator.Rounds

/-! What a transition keeps, and what one event keeps of a route. -/

namespace NovelStudio.Simulator

open Library

structure Feasible (constraints : HardConstraints) (state : State) : Prop where
  facts : ∀ fact ∈ state.facts, fact ∉ constraints.forbidden_facts
  resources : ∀ key, 0 ≤ State.resource state.resources key ∧ State.resource state.resources key ≤ constraints.cap key

/-- Time goes on, once there is a time. -/
def TimeLe (before after : Option Int) : Prop := ∀ time, before = some time → ∃ later, after = some later ∧ time ≤ later

theorem TimeLe.refl (time : Option Int) : TimeLe time time := by
  intro now same
  exact ⟨now, same, Int.le_refl now⟩

theorem mem_sortedSet {items : List String} : item ∈ sortedSet items ↔ item ∈ items := by
  rw [sortedSet, List.mem_insertionSort, List.mem_dedup]

theorem resource_set (resources : Dict String Int) (key : String) (amount : Int) (other : String) :
    State.resource (resources.set key amount) other = if other = key then amount else State.resource resources other := by
  unfold State.resource
  rw [Dict.get?_set]
  split <;> rfl

variable {constraints : HardConstraints}

theorem foldl_changeResource {deltas : List (String × Int)} {resources : Dict String Int} {errors : List Violation}
    (bounded : ∀ key, 0 ≤ State.resource resources key ∧ State.resource resources key ≤ constraints.cap key)
    (none : (deltas.foldl (changeResource constraints) (resources, errors)).2 = []) :
    ∀ key, 0 ≤ State.resource (deltas.foldl (changeResource constraints) (resources, errors)).1 key ∧
      State.resource (deltas.foldl (changeResource constraints) (resources, errors)).1 key ≤ constraints.cap key := by
  have grows : ∀ (deltas : List (String × Int)) (reached : Dict String Int × List Violation),
      (deltas.foldl (changeResource constraints) reached).2 = [] → reached.2 = [] := by
    intro deltas
    induction deltas with
    | nil => exact fun _ empty => empty
    | cons delta rest ih => exact fun reached empty => (List.append_eq_nil_iff.mp (ih _ empty)).1
  induction deltas generalizing resources errors with
  | nil => exact bounded
  | cons delta rest ih =>
    rw [List.foldl_cons] at none ⊢
    have first := (List.append_eq_nil_iff.mp (grows rest _ none)).2
    apply ih
    · intro key
      rw [resource_set]
      split
      · rename_i same
        subst same
        split at first
        · assumption
        · cases first
      · exact bounded key
    · exact none

variable {event : SimulationEvent} {graph_ids : List String}

theorem transition_ok {state : State} {knowledge_ids : List String} (feasible : Feasible constraints state)
    (none : (transition state event knowledge_ids graph_ids constraints).2 = []) :
    Feasible constraints (transition state event knowledge_ids graph_ids constraints).1 ∧
      TimeLe state.time (transition state event knowledge_ids graph_ids constraints).1.time := by
  have checks := none
  unfold transition at none checks ⊢
  simp only [List.append_eq_nil_iff] at checks
  obtain ⟨⟨⟨⟨⟨_, order⟩, _⟩, _⟩, hard⟩, changed⟩ := checks
  simp only at none
  simp only [none, List.isEmpty_nil, if_true]
  refine ⟨⟨?_, foldl_changeResource feasible.resources changed⟩, ?_⟩
  · intro fact member forbidden
    split at hard
    · cases hard
    · rename_i avoided
      exact avoided (List.any_eq_true.mpr ⟨fact, mem_sortedSet.mp member, decide_eq_true forbidden⟩)
  · intro time same
    refine ⟨event.at_, rfl, ?_⟩
    split at order
    · cases order
    · rename_i late
      rw [same] at late
      simpa using late

theorem transition_codes {state : State} {knowledge_ids : List String} :
    ∀ error ∈ (transition state event knowledge_ids graph_ids constraints).2, error.code ≠ .FINAL_GOAL_UNMET := by
  have changed : ∀ (deltas : List (String × Int)) (reached : Dict String Int × List Violation),
      (∀ error ∈ reached.2, error.code ≠ .FINAL_GOAL_UNMET) →
      ∀ error ∈ (deltas.foldl (changeResource constraints) reached).2, error.code ≠ .FINAL_GOAL_UNMET := by
    intro deltas
    induction deltas with
    | nil => exact fun _ each => each
    | cons delta rest ih =>
      intro reached each
      apply ih
      intro error member
      rcases List.mem_append.mp member with old | new
      · exact each error old
      · split at new
        · cases new
        · rw [List.mem_singleton.mp new]
          simp [violation]
  unfold transition
  simp only [List.forall_mem_append]
  refine ⟨⟨⟨⟨⟨?_, ?_⟩, ?_⟩, ?_⟩, ?_⟩, changed _ _ fun _ none => nomatch none⟩
  all_goals
    split
    · simp [violation]
    · simp [violation]

variable {σ : Type} {digest : State → σ} {request : SimulationRunIn} {candidate : SimulationRoute}

/-- How often an unmet goal was recorded. -/
def goals (route : Route σ) : Nat := (route.violations.filter (·.code = .FINAL_GOAL_UNMET)).length

/-- What holds of a route of a run: it respects the constraints, has met no state twice and is within its bounds, and an unmet goal was recorded once
it has finished. -/
structure Route.Sound (digest : State → σ) (request : SimulationRunIn) (candidate : SimulationRoute) (route : Route σ) : Prop where
  feasible : Feasible request.hard_constraints route.state
  distinct : route.seen_states.Nodup
  seen : digest route.state ∈ route.seen_states
  steps : route.cursor ≤ request.max_steps
  events : route.cursor ≤ candidate.events.length
  pending : route.status = .PENDING → route.cursor < request.max_steps ∧ route.cursor < candidate.events.length
  goal : goals route = if route.status ≠ .PENDING ∧ request.hard_constraints.unmet route.state = true then 1 else 0

/-- What an event may do to a route. -/
structure Route.Advanced (before after : Route σ) : Prop where
  time : TimeLe before.state.time after.state.time
  kept : after = before ∨ ∃ step, after.steps = before.steps ++ [step] ∧ (step.violations ≠ [] → after.state = before.state)

theorem goals_map (route : Route σ) {errors : List Violation} (codes : ∀ error ∈ errors, error.code ≠ .FINAL_GOAL_UNMET) (id : String) :
    ((route.violations ++ errors.map (·.ofEvent id)).filter (·.code = .FINAL_GOAL_UNMET)).length = goals route := by
  have none : (errors.map (·.ofEvent id)).filter (·.code = .FINAL_GOAL_UNMET) = [] := by
    apply List.filter_eq_nil_iff.mpr
    intro error member
    obtain ⟨original, there, rfl⟩ := List.mem_map.mp member
    simp [Violation.ofEvent, codes original there]
  rw [List.filter_append, none, List.append_nil, goals]

variable {route : Route σ}

theorem goals_finish (fresh : goals route = 0) :
    goals (finish request.hard_constraints route) =
      if (finish request.hard_constraints route).status ≠ .PENDING ∧ request.hard_constraints.unmet (finish request.hard_constraints route).state = true
      then 1 else 0 := by
  unfold finish
  split
  · rename_i pending
    simp [pending, fresh]
  · rename_i over_
    by_cases unmet : request.hard_constraints.unmet route.state = true
    · simpa [goals, over_, unmet, violation] using fresh
    · simpa [goals, over_, unmet] using fresh

@[simp] theorem finish_state (constraints : HardConstraints) (route : Route σ) : (finish constraints route).state = route.state := by
  unfold finish
  split <;> rfl

@[simp] theorem finish_seen (constraints : HardConstraints) (route : Route σ) : (finish constraints route).seen_states = route.seen_states := by
  unfold finish
  split <;> rfl

@[simp] theorem finish_cursor (constraints : HardConstraints) (route : Route σ) : (finish constraints route).cursor = route.cursor := by
  unfold finish
  split <;> rfl

@[simp] theorem finish_steps (constraints : HardConstraints) (route : Route σ) : (finish constraints route).steps = route.steps := by
  unfold finish
  split <;> rfl

@[simp] theorem finish_status (constraints : HardConstraints) (route : Route σ) : (finish constraints route).status = route.status := by
  unfold finish
  split <;> rfl

variable [DecidableEq σ]

theorem take_cases (digest : State → σ) (request : SimulationRunIn) (graph_ids : List String) (route : Route σ) (event : SimulationEvent) :
    (∃ status errors, errors ≠ [] ∧ (∀ error ∈ errors, error.code ≠ .FINAL_GOAL_UNMET) ∧ (status = route.status ∨ status = .LIMIT_REACHED) ∧
        take digest request graph_ids route event = ({ route with status }, errors)) ∨
      ∃ after, transition route.state event request.knowledge_ids graph_ids request.hard_constraints = (after, []) ∧ digest after ∉ route.seen_states ∧
        take digest request graph_ids route event = ({ route with seen_states := route.seen_states ++ [digest after], state := after }, []) := by
  have codes : ∀ error ∈ (transition route.state event request.knowledge_ids graph_ids request.hard_constraints).2, error.code ≠ .FINAL_GOAL_UNMET :=
    transition_codes
  unfold take
  cases found : transition route.state event request.knowledge_ids graph_ids request.hard_constraints with
  | mk after errors =>
    rw [found] at codes
    cases errors with
    | nil =>
      by_cases again : digest after ∈ route.seen_states
      · left
        exact ⟨.LIMIT_REACHED, [violation .CYCLE_STOPPED "路线重复已有状态，已停止此路线继续扩展。"], List.cons_ne_nil _ _, by simp [violation], .inr rfl,
          by simp [again]⟩
      · right
        exact ⟨after, rfl, again, by simp [again]⟩
    | cons error errors =>
      left
      exact ⟨route.status, error :: errors, List.cons_ne_nil _ _, codes, .inl rfl, rfl⟩

@[simp] theorem expand_cursor (graph_ids : List String) (route : Route σ) (event : SimulationEvent) :
    (expand digest request graph_ids candidate route event).cursor = route.cursor + 1 := by
  simp [expand]

theorem expand_pending
    (pending : (expand digest request graph_ids candidate route event).status = .PENDING) :
    route.cursor + 1 < request.max_steps ∧ route.cursor + 1 < candidate.events.length := by
  simp only [expand, finish_status] at pending
  split at pending
  · split at pending
    · cases pending
    · split at pending
      · cases pending
      · omega
  · contradiction

theorem expand_sound (sound : route.Sound digest request candidate)
    (pending : route.status = .PENDING) : (expand digest request graph_ids candidate route event).Sound digest request candidate := by
  obtain ⟨near, more⟩ := sound.pending pending
  have none : goals route = 0 := by
    rw [sound.goal, if_neg]
    rintro ⟨finished, _⟩
    exact finished pending
  rcases take_cases digest request graph_ids route event with ⟨status, errors, _, codes, _, taken⟩ | ⟨after, moved, fresh, taken⟩
  · refine ⟨?_, ?_, ?_, ?_, ?_, ?_, ?_⟩
    · simpa [expand, taken] using sound.feasible
    · simpa [expand, taken] using sound.distinct
    · simpa [expand, taken] using sound.seen
    · rw [expand_cursor]
      exact near
    · rw [expand_cursor]
      exact more
    · rw [expand_cursor]
      exact expand_pending
    · simp only [expand, taken]
      apply goals_finish
      rw [← none, ← goals_map route codes event.id]
      rfl
  · have clean : (transition route.state event request.knowledge_ids graph_ids request.hard_constraints).2 = [] := by rw [moved]
    have kept := transition_ok sound.feasible clean
    rw [moved] at kept
    refine ⟨?_, ?_, ?_, ?_, ?_, ?_, ?_⟩
    · simpa [expand, taken] using kept.1
    · simpa [expand, taken, List.nodup_append] using ⟨sound.distinct, fun stamp member same => fresh (same ▸ member)⟩
    · simp [expand, taken]
    · rw [expand_cursor]
      exact near
    · rw [expand_cursor]
      exact more
    · rw [expand_cursor]
      exact expand_pending
    · simp only [expand, taken]
      apply goals_finish
      rw [← none, ← goals_map route (List.forall_mem_nil _) event.id]
      rfl

theorem expand_advanced (sound : route.Sound digest request candidate) :
    route.Advanced (expand digest request graph_ids candidate route event) := by
  rcases take_cases digest request graph_ids route event with ⟨status, errors, some, _, _, taken⟩ | ⟨after, moved, _, taken⟩
  · constructor
    · simpa [expand, taken] using TimeLe.refl route.state.time
    · right
      simp [expand, taken]
  · have kept : (transition route.state event request.knowledge_ids graph_ids request.hard_constraints).2 = [] := by rw [moved]
    have later := (transition_ok sound.feasible kept).2
    rw [moved] at later
    constructor
    · simpa [expand, taken] using later
    · right
      simp [expand, taken]

end NovelStudio.Simulator
