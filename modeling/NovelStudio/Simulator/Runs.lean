import Mathlib.Data.List.Forall2
import Mathlib.Tactic.Ring
import NovelStudio.Simulator.Sound

/-! Rounds never run out of the shared budget, so that every route runs as it would on its own. -/

namespace NovelStudio.Simulator

open Library

variable {σ : Type} [DecidableEq σ] {digest : State → σ} {request : SimulationRunIn}

def alone (digest : State → σ) (request : SimulationRunIn) (graph_ids : List String) (candidate : SimulationRoute) (route : Route σ) : Route σ :=
  if route.status ≠ .PENDING then route
  else (candidate.events[route.cursor]?).elim route (expand digest request graph_ids candidate route)

variable {candidate : SimulationRoute} {route : Route σ}

theorem alone_cases (digest : State → σ) (request : SimulationRunIn) (graph_ids : List String)
    (sound : route.Sound digest request candidate) :
    (route.status ≠ .PENDING ∧ alone digest request graph_ids candidate route = route) ∨
      (route.status = .PENDING ∧ ∃ event, candidate.events[route.cursor]? = some event ∧
        alone digest request graph_ids candidate route = expand digest request graph_ids candidate route event) := by
  unfold alone
  by_cases pending : route.status = .PENDING
  · right
    have more := (sound.pending pending).2
    refine ⟨pending, candidate.events[route.cursor], List.getElem?_eq_getElem more, ?_⟩
    rw [if_neg (not_not.mpr pending), List.getElem?_eq_getElem more]
    rfl
  · left
    exact ⟨pending, if_pos pending⟩

theorem alone_sound (graph_ids : List String) (sound : route.Sound digest request candidate) :
    (alone digest request graph_ids candidate route).Sound digest request candidate := by
  rcases alone_cases digest request graph_ids sound with ⟨_, same⟩ | ⟨pending, event, _, same⟩
  · rw [same]
    exact sound
  · rw [same]
    exact expand_sound sound pending

theorem alone_advanced (graph_ids : List String) (sound : route.Sound digest request candidate) :
    route.Advanced (alone digest request graph_ids candidate route) := by
  rcases alone_cases digest request graph_ids sound with ⟨_, same⟩ | ⟨pending, event, _, same⟩
  · rw [same]
    exact ⟨TimeLe.refl _, .inl rfl⟩
  · rw [same]
    exact expand_advanced sound

/-- The cursors of some routes, counted together. -/
def cursors (routes : List (Route σ)) : Nat := (routes.map (·.cursor)).sum

theorem advance_route_eq (graph_ids : List String) (sound : route.Sound digest request candidate)
    (room : route.status = .PENDING → expansions < MAX_EXPANSIONS) :
    ∃ more, advance_route digest request graph_ids candidate route expansions = some (alone digest request graph_ids candidate route, expansions + more) ∧
      (alone digest request graph_ids candidate route).cursor = route.cursor + more := by
  unfold advance_route
  rcases alone_cases digest request graph_ids sound with ⟨finished, same⟩ | ⟨pending, event, next, same⟩
  · refine ⟨0, ?_, ?_⟩
    · rw [if_pos finished, same]
      rfl
    · rw [same]
      rfl
  · obtain ⟨near, _⟩ := sound.pending pending
    have open_ : ¬(request.max_steps ≤ route.cursor ∨ MAX_EXPANSIONS ≤ expansions) := by
      have left := room pending
      omega
    refine ⟨1, ?_, ?_⟩
    · rw [if_neg (not_not.mpr pending), if_neg open_, next, same]
      rfl
    · rw [same, expand_cursor]

/-- Routes in step with what was asked for. -/
abbrev Routes (digest : State → σ) (request : SimulationRunIn) (candidates : List SimulationRoute) (routes : List (Route σ)) : Prop :=
  List.Forall₂ (fun candidate route => route.Sound digest request candidate) candidates routes

omit [DecidableEq σ] in
theorem Routes.cursors_le {candidates : List SimulationRoute} {routes : List (Route σ)} (sound : Routes digest request candidates routes) :
    cursors routes ≤ routes.length * request.max_steps := by
  induction sound with
  | nil => exact Nat.zero_le _
  | @cons candidate route candidates routes here _ ih =>
    have first := here.steps
    calc cursors (route :: routes) = route.cursor + cursors routes := List.sum_cons
      _ ≤ request.max_steps + routes.length * request.max_steps := Nat.add_le_add first ih
      _ = (route :: routes).length * request.max_steps := by rw [List.length_cons]; ring

/-- A round within the budget advances every route as on its own. `before` routes have had their turn. -/
theorem advance_routes_eq (graph_ids : List String) {candidates : List SimulationRoute} {routes : List (Route σ)}
    (sound : Routes digest request candidates routes) (before expansions : Nat) (spent : expansions ≤ before * request.max_steps + cursors routes)
    (bounded : (before + routes.length) * request.max_steps ≤ MAX_EXPANSIONS) :
    ∃ more, advance_routes digest request graph_ids candidates routes expansions =
        some (candidates.zipWith (Simulator.alone digest request graph_ids) routes, expansions + more) ∧
      cursors (candidates.zipWith (Simulator.alone digest request graph_ids) routes) = cursors routes + more := by
  induction sound generalizing before expansions with
  | nil => exact ⟨0, rfl, rfl⟩
  | @cons candidate route candidates routes here others ih =>
    have most := Routes.cursors_le others
    have total : cursors (route :: routes) = route.cursor + cursors routes := List.sum_cons
    have size : (before + (route :: routes).length) * request.max_steps =
        before * request.max_steps + request.max_steps + routes.length * request.max_steps := by
      rw [List.length_cons]
      ring
    have room : route.status = .PENDING → expansions < MAX_EXPANSIONS := by
      intro pending
      have near := (here.pending pending).1
      omega
    obtain ⟨more, advanced, cursor⟩ := advance_route_eq graph_ids here room
    have turn := (alone_sound graph_ids here).steps
    have next : (before + 1) * request.max_steps = before * request.max_steps + request.max_steps := by ring
    have rest : (before + 1 + routes.length) * request.max_steps = (before + (route :: routes).length) * request.max_steps := by
      rw [List.length_cons]
      ring
    obtain ⟨others', advanced', cursor'⟩ := ih (before + 1) (expansions + more) (by omega) (by omega)
    refine ⟨more + others', ?_, ?_⟩
    · simp only [advance_routes, advanced, advanced', Option.bind_eq_bind, Option.bind_some, List.zipWith_cons_cons, Nat.add_assoc]
      rfl
    · rw [List.zipWith_cons_cons, total]
      show (Simulator.alone digest request graph_ids candidate route).cursor + cursors _ = _
      omega

/-- A route after a round for each of the graphs, on its own. -/
def play (digest : State → σ) (request : SimulationRunIn) (graphs : List (List String)) (candidate : SimulationRoute) : Route σ :=
  graphs.foldl (fun route graph_ids => alone digest request graph_ids candidate route) (initial_route digest request candidate)

theorem play_snoc (digest : State → σ) (request : SimulationRunIn) (graphs : List (List String)) (graph_ids : List String) (candidate : SimulationRoute) :
    play digest request (graphs ++ [graph_ids]) candidate = alone digest request graph_ids candidate (play digest request graphs candidate) := by
  rw [play, List.foldl_append]
  rfl

theorem quantities_spec {items : Dict String Int} {valid : Int → Bool} (ok : quantities items valid = true) (found : items.get? key = some amount) :
    valid amount = true := by
  unfold quantities at ok
  rw [Bool.and_eq_true] at ok
  exact List.all_eq_true.mp ok.2 amount (Dict.mem_values_iff.mpr ⟨key, found⟩)

theorem admitted_spec (admitted : request.Admitted) :
    request.routes.length * request.max_steps ≤ MAX_EXPANSIONS ∧ 1 ≤ request.max_steps ∧
      (∀ candidate ∈ request.routes, 1 ≤ candidate.events.length) ∧ Feasible request.hard_constraints (initial request) := by
  obtain ⟨valid, bounded⟩ := admitted
  obtain ⟨facts, caps⟩ := SimulationRunIn.bounded_spec bounded
  simp only [SimulationRunIn.valid, Bool.and_eq_true, decide_eq_true_eq] at valid
  obtain ⟨⟨⟨⟨⟨⟨⟨⟨⟨_, resources⟩, constraints⟩, steps⟩, mostSteps⟩, _⟩, _⟩, _⟩, mostRoutes⟩, routes⟩ := valid
  simp only [HardConstraints.valid, Bool.and_eq_true] at constraints
  refine ⟨Nat.mul_le_mul mostRoutes mostSteps, steps, ?_, ⟨?_, ?_⟩⟩
  · intro candidate member
    have valid := List.all_eq_true.mp routes candidate member
    simp only [SimulationRoute.valid, Bool.and_eq_true, decide_eq_true_eq] at valid
    exact valid.1.1.1.2
  · intro fact member
    exact facts fact (mem_sortedSet.mp member)
  · intro key
    have positive : 0 ≤ request.hard_constraints.cap key := by
      unfold HardConstraints.cap
      cases found : request.hard_constraints.resource_caps.get? key with
      | none => decide
      | some cap =>
        have bounds := quantities_spec constraints.2 found
        simp only [isQuantity, Bool.and_eq_true, decide_eq_true_eq] at bounds
        exact bounds.1
    show 0 ≤ State.resource request.resources key ∧ State.resource request.resources key ≤ _
    unfold State.resource
    cases found : request.resources.get? key with
    | none => exact ⟨Int.le_refl 0, positive⟩
    | some amount =>
      have bounds := quantities_spec resources found
      simp only [isQuantity, Bool.and_eq_true, decide_eq_true_eq] at bounds
      exact ⟨bounds.1, caps (key, amount) (Dict.get?_eq_some_iff.mp found)⟩

omit [DecidableEq σ] in
theorem initial_route_sound (admitted : request.Admitted) (member : candidate ∈ request.routes) :
    (initial_route digest request candidate).Sound digest request candidate := by
  obtain ⟨_, steps, events, feasible⟩ := admitted_spec admitted
  refine ⟨feasible, List.nodup_singleton _, List.mem_singleton.mpr rfl, Nat.zero_le _, Nat.zero_le _, ?_, rfl⟩
  intro _
  exact ⟨steps, events candidate member⟩

theorem play_sound (admitted : request.Admitted) (member : candidate ∈ request.routes) (graphs : List (List String)) :
    (play digest request graphs candidate).Sound digest request candidate := by
  induction graphs using List.reverseRecOn with
  | nil => exact initial_route_sound admitted member
  | append_singleton graphs graph_ids ih =>
    rw [play_snoc]
    exact alone_sound graph_ids ih

theorem play_cursor (admitted : request.Admitted) (member : candidate ∈ request.routes) (graphs : List (List String))
    (pending : (play digest request graphs candidate).status = .PENDING) : (play digest request graphs candidate).cursor = graphs.length := by
  induction graphs using List.reverseRecOn with
  | nil => rfl
  | append_singleton graphs graph_ids ih =>
    rw [play_snoc] at pending ⊢
    rcases alone_cases digest request graph_ids (play_sound admitted member graphs) with ⟨finished, same⟩ | ⟨before, event, _, same⟩
    · rw [same] at pending
      exact absurd pending finished
    · rw [same, expand_cursor, ih before, List.length_append, List.length_singleton]

theorem run_snoc {graphs : List (List String)} {target : Target σ} (reached : run digest request graphs = some target) (graph_ids : List String) :
    run digest request (graphs ++ [graph_ids]) = advance_round digest request target graph_ids := by
  unfold run at reached ⊢
  rw [List.foldlM_append, reached]
  simp

variable (digest) in
theorem run_eq (admitted : request.Admitted) (graphs : List (List String)) :
    ∃ target, run digest request graphs = some target ∧ target.routes = request.routes.map (play digest request graphs) ∧
      target.expansions = cursors target.routes := by
  induction graphs using List.reverseRecOn with
  | nil => exact ⟨created digest request, rfl, rfl, by simp [created, initial_routes, cursors, initial_route, Function.comp_def]⟩
  | append_singleton graphs graph_ids ih =>
    obtain ⟨target, reached, routes, spent⟩ := ih
    have sound : Routes digest request request.routes target.routes := by
      rw [routes]
      unfold Routes
      rw [List.forall₂_map_right_iff]
      exact List.forall₂_same.mpr fun candidate member => play_sound admitted member graphs
    have bounded : (0 + target.routes.length) * request.max_steps ≤ MAX_EXPANSIONS := by
      rw [routes, List.length_map, Nat.zero_add]
      exact (admitted_spec admitted).1
    obtain ⟨more, advanced, counted⟩ := advance_routes_eq graph_ids sound 0 target.expansions (by omega) bounded
    have next : request.routes.zipWith (alone digest request graph_ids) target.routes = request.routes.map (play digest request (graphs ++ [graph_ids])) := by
      rw [routes, List.zipWith_map_right, List.zipWith_self]
      exact List.map_congr_left fun candidate _ => (play_snoc digest request graphs graph_ids candidate).symm
    rw [run_snoc reached, advance_round, advanced]
    refine ⟨_, rfl, next, ?_⟩
    show target.expansions + more = cursors (request.routes.zipWith _ target.routes)
    rw [counted, spent]

end NovelStudio.Simulator

/-! Every route of a run respects the constraints, and runs the same whatever other routes there are. -/

namespace NovelStudio.Simulator

open Library

variable {σ : Type} [DecidableEq σ]

/-- In a run of any number of rounds every route is sound, and none is left after as many rounds as there may be steps. A further round moves time on
and leaves the state of a route as it was where its event violates a rule. A route comes out the same whichever other routes are asked for. -/
theorem simulation_sound (digest : State → σ) (request : SimulationRunIn) (admitted : request.Admitted) (graphs : List (List String)) :
    ∃ target, run digest request graphs = some target ∧
      List.Forall₂ (fun candidate route => route.Sound digest request candidate) request.routes target.routes ∧
      (request.max_steps ≤ graphs.length → ∀ route ∈ target.routes, route.status ≠ .PENDING) ∧
      (∀ graph_ids, ∃ next, advance_round digest request target graph_ids = some next ∧ List.Forall₂ Route.Advanced target.routes next.routes) ∧
      ∀ routes max_branches, ({ request with routes, max_branches } : SimulationRunIn).Admitted →
        ∃ other, run digest { request with routes, max_branches } graphs = some other ∧
          ∀ (index place : Nat), request.routes[index]? = routes[place]? → target.routes[index]? = other.routes[place]? := by
  obtain ⟨target, reached, played, spent⟩ := run_eq digest admitted graphs
  refine ⟨target, reached, ?_, ?_, ?_, ?_⟩
  · rw [played, List.forall₂_map_right_iff]
    exact List.forall₂_same.mpr fun candidate member => play_sound admitted member graphs
  · intro enough route member pending
    rw [played] at member
    obtain ⟨candidate, inside, rfl⟩ := List.mem_map.mp member
    have taken := play_cursor admitted inside graphs pending
    have near := ((play_sound admitted inside graphs).pending pending).1
    omega
  · intro graph_ids
    obtain ⟨next, later, advanced, _⟩ := run_eq digest admitted (graphs ++ [graph_ids])
    refine ⟨next, by rw [← run_snoc reached, later], ?_⟩
    rw [played, advanced, List.forall₂_map_left_iff, List.forall₂_map_right_iff]
    refine List.forall₂_same.mpr fun candidate member => ?_
    rw [play_snoc]
    exact alone_advanced graph_ids (play_sound admitted member graphs)
  · intro routes max_branches admitted'
    obtain ⟨other, reached', played', _⟩ := run_eq digest admitted' graphs
    refine ⟨other, reached', ?_⟩
    intro index place same
    -- A route on its own reads nothing of the request that the two do not share.
    have alike : play digest { request with routes, max_branches } graphs = play digest request graphs := rfl
    rw [played, played', alike, List.getElem?_map, List.getElem?_map, same]

def stamp (state : State) : List String × List (String × Int) × Option Int := (state.facts, state.resources.entries, state.time)

def duel (id : String) (moment : Int) (cost : Int) : SimulationEvent :=
  ⟨id, "Duel", moment, ["armed"], ["won"], ["armed"], [], (∅ : Dict String Int).set "strength" cost, [], ""⟩

/-- A route that fights twice, and one whose hero is too weak. -/
def feud : SimulationRunIn where
  chapter_ids := ["one"]
  expected_versions := (∅ : Dict String Int).set "one" 1
  chapter_id := "one"
  world_time := none
  assumptions := ["armed"]
  character_goal := "peace"
  motivation_hypothesis := ""
  knowledge_ids := []
  resources := (∅ : Dict String Int).set "strength" 3
  hard_constraints := ⟨["dead"], ["won"], (∅ : Dict String Int).set "strength" 3⟩
  max_steps := 2
  max_branches := 2
  routes := [⟨"strong", "Strong", "", [duel "first" 1 (-1), duel "second" 2 (-1)]⟩, ⟨"weak", "Weak", "", [duel "only" 1 (-4)]⟩]

theorem feud_finishes : ∃ target, run stamp feud [[], []] = some target ∧
    List.Forall₂ (fun candidate route => route.Sound stamp feud candidate) feud.routes target.routes ∧ ∀ route ∈ target.routes, route.status ≠ .PENDING := by
  obtain ⟨target, reached, sound, finished, _⟩ := simulation_sound stamp feud ⟨by decide +kernel, rfl⟩ [[], []]
  exact ⟨target, reached, sound, finished (by decide)⟩

/-- The second duel lacks what the first used up, and the weak hero cannot pay for his. -/
example : (run stamp feud [[], []]).map (·.routes.map fun route => (route.status, route.violations.map (·.code))) =
    some [(.COMPLETED, [.UNMET_PREREQUISITE]), (.COMPLETED, [.RESOURCE_CONFLICT, .FINAL_GOAL_UNMET])] := by decide +kernel

end NovelStudio.Simulator
