import NovelStudio.Godot.Runtime
import NovelStudio.Library.Readings

/-! Restoring a save: what it takes for it to succeed, that a snapshot is restored, and when a save
that is refused leaves the state as it was. -/

namespace NovelStudio.Godot

open Library
open Story (Kind Scalar Variable Values keyed get?_keyed)

variable {story : LoadedStory} {engine : Engine} {runtime next : Runtime}

theorem nodeTable_some (member : nid ∈ story.nodes.map Node.nodeId) : ∃ node, story.nodeTable.get? nid = some node := by
  obtain ⟨node, inside, rfl⟩ := List.mem_map.mp member
  rw [LoadedStory.nodeTable, get?_keyed _ _ story.uniqueNodes, Option.map_id]
  exact Option.isSome_iff_exists.mp (List.find?_isSome.mpr ⟨node, inside, by simp⟩)

theorem nodeTable_mem {node : Node} (found : story.nodeTable.get? nid = some node) : node ∈ story.nodes := by
  rw [LoadedStory.nodeTable, get?_keyed _ _ story.uniqueNodes, Option.map_id] at found
  exact List.mem_of_find?_eq_some found

variable {definition : Variable}

theorem variableDefs_mem (found : story.variableDefs.get? name = some definition) : definition ∈ story.definitions := by
  rw [LoadedStory.variableDefs, get?_keyed _ _ story.uniqueDefinitions, Option.map_id] at found
  exact List.mem_of_find?_eq_some found

theorem refreshStatus_fields (story : LoadedStory) (runtime : Runtime) :
    ∃ status, refreshStatus story runtime = { runtime with status := status } := by
  unfold refreshStatus
  split
  · exact ⟨runtime.status, rfl⟩
  · split
    · exact ⟨_, rfl⟩
    · split
      · exact ⟨_, rfl⟩
      · split
        · exact ⟨_, rfl⟩
        · exact ⟨_, rfl⟩

@[simp] theorem refreshStatus_vars : (refreshStatus story runtime).vars = runtime.vars := by
  obtain ⟨status, same⟩ := refreshStatus_fields story runtime
  rw [same]

@[simp] theorem refreshStatus_currentNodeId : (refreshStatus story runtime).currentNodeId = runtime.currentNodeId := by
  obtain ⟨status, same⟩ := refreshStatus_fields story runtime
  rw [same]

@[simp] theorem refreshStatus_path : (refreshStatus story runtime).path = runtime.path := by
  obtain ⟨status, same⟩ := refreshStatus_fields story runtime
  rw [same]

@[simp] theorem refreshStatus_valid : (refreshStatus story runtime).valid = runtime.valid := by
  obtain ⟨status, same⟩ := refreshStatus_fields story runtime
  rw [same]

theorem refreshStatus_status (story : LoadedStory) (runtime : Runtime) (status : Status) (found : story.nodeTable.get? runtime.currentNodeId = some node) :
    refreshStatus story { runtime with status := status } = refreshStatus story runtime := by
  simp only [refreshStatus, found]

/-- What holds of every state that is played: its node is known, its status is fresh, and every variable has a value that it may be assigned. -/
structure Sound (story : LoadedStory) (runtime : Runtime) : Prop where
  valid : runtime.valid = true
  node : runtime.currentNodeId ∈ story.nodes.map Node.nodeId
  fresh : refreshStatus story runtime = runtime
  keys : runtime.vars.keys = story.variableDefs.keys
  fits : ∀ ⦃name definition⦄, story.variableDefs.get? name = some definition →
    ∃ value, runtime.vars.get? name = some value ∧ assignmentAllowed definition value = true
  few : runtime.path.length ≤ story.maxSteps

theorem fresh_of_node (node : runtime.currentNodeId ∈ story.nodes.map Node.nodeId) : refreshStatus story (refreshStatus story runtime) = refreshStatus story runtime := by
  obtain ⟨_, found⟩ := nodeTable_some node
  obtain ⟨status, same⟩ := refreshStatus_fields story runtime
  have again := refreshStatus_status story runtime status found
  rwa [← same] at again

theorem initial_allowed (definition : Variable) : assignmentAllowed definition definition.initial = true := by
  have typed := definition.typed
  have bounded := definition.bounded
  unfold assignmentAllowed
  cases kind : definition.kind with
  | bool =>
    rw [kind] at typed
    obtain ⟨truth, same⟩ := Scalar.eq_bool_of_kind typed
    rw [same]
  | int =>
    rw [kind] at typed
    cases initial : definition.initial with
    | bool =>
      rw [initial] at typed
      cases typed
    | int value =>
      rw [initial] at bounded
      simpa [Scalar.number] using bounded kind

theorem init_sound (story : LoadedStory) : Sound story (init story) := by
  obtain ⟨node, found⟩ := nodeTable_some story.entry
  have known : story.nodeTable.contains story.entryNodeId = true := Dict.contains_iff.mpr (Dict.mem_keys_iff.mpr ⟨node, found⟩)
  have whole : init story = reset story ⟨∅, "", [], .INVALID, true⟩ := by
    rw [init, known, decide_eq_true story.steps.1]
    rfl
  rw [whole, reset]
  constructor
  · simp
  · simpa using story.entry
  · exact fresh_of_node story.entry
  · simp
  · intro name definition found
    refine ⟨definition.initial, ?_, initial_allowed definition⟩
    simp [found]
  · simp

theorem reset_eq (valid : runtime.valid = true) : reset story runtime = init story := by
  obtain ⟨node, found⟩ := nodeTable_some story.entry
  have known : story.nodeTable.contains story.entryNodeId = true := Dict.contains_iff.mpr (Dict.mem_keys_iff.mpr ⟨node, found⟩)
  rw [init, known, decide_eq_true story.steps.1]
  simp only [Bool.and_self, if_true, reset, refreshStatus, found, valid]

theorem init_path (story : LoadedStory) : (init story).path = [] := by
  rw [← reset_eq (init_sound story).valid]
  simp [reset]

theorem get?_assign (assignments : List (String × Scalar)) (values : Values) (name : String) :
    (assignments.foldl (fun values entry => values.set entry.1 entry.2) values).get? name =
      values.get? name ∨ ∃ value, (name, value) ∈ assignments ∧
        (assignments.foldl (fun values entry => values.set entry.1 entry.2) values).get? name = some value := by
  induction assignments generalizing values with
  | nil => exact .inl rfl
  | cons entry rest ih =>
    rw [List.foldl_cons]
    rcases ih (values.set entry.1 entry.2) with same | ⟨value, member, found⟩
    · by_cases here : name = entry.1
      · subst here
        exact .inr ⟨entry.2, List.mem_cons_self .., same.trans (Dict.get?_set_self ..)⟩
      · exact .inl (same.trans (Dict.get?_set_ne _ _ here))
    · exact .inr ⟨value, List.mem_cons_of_mem _ member, found⟩

theorem keys_assign {assignments : List (String × Scalar)} {values : Values} (declared : ∀ entry ∈ assignments, entry.1 ∈ values.keys) :
    (assignments.foldl (fun values entry => values.set entry.1 entry.2) values).keys = values.keys := by
  induction assignments generalizing values with
  | nil => rfl
  | cons entry rest ih =>
    have kept : (values.set entry.1 entry.2).keys = values.keys := by rw [Dict.keys_set, if_pos (declared entry (List.mem_cons_self ..))]
    rw [List.foldl_cons, ih, kept]
    intro other member
    rw [kept]
    exact declared other (List.mem_cons_of_mem _ member)

theorem advance_ok (done : advance story runtime choiceId = (.ok, next)) :
    runtime.path.length < story.maxSteps ∧ ∃ node selected, story.nodeTable.get? runtime.currentNodeId = some node ∧ selected ∈ node.choices ∧
      (∀ entry ∈ selected.assignments.entries, ∃ definition, story.variableDefs.get? entry.1 = some definition ∧ assignmentAllowed definition entry.2 = true) ∧
      next = refreshStatus story { refreshStatus story runtime with
        vars := selected.assignments.entries.foldl (fun values entry => values.set entry.1 entry.2) runtime.vars
        path := runtime.path ++ [choiceId]
        currentNodeId := selected.target } := by
  simp only [advance] at done
  split at done
  · cases done
  · split at done
    · cases done
    · rename_i room
      split at done
      · cases done
      · split at done
        · cases done
        · rename_i selected found
          split at done
          · cases done
          · split at done
            · cases done
            · rename_i allowed
              obtain ⟨node, here, chosen⟩ := Option.bind_eq_some_iff.mp found
              rw [refreshStatus_currentNodeId] at here
              refine ⟨Nat.not_le.mp room, node, selected, here, List.mem_of_find?_eq_some chosen, ?_, ?_⟩
              · simpa [Option.any_eq_true] using allowed
              · simp only [Prod.mk.injEq, true_and] at done
                simp [← done]

theorem advance_error (sound : Sound story runtime) (refused : advance story runtime choiceId = (.error code, next)) : next = runtime := by
  simp only [advance, sound.fresh] at refused
  split at refused
  · cases refused
    rfl
  · split at refused
    · cases refused
      rfl
    · split at refused
      · cases refused
        rfl
      · split at refused
        · cases refused
          rfl
        · split at refused
          · cases refused
            rfl
          · split at refused
            · cases refused
              rfl
            · cases refused

theorem Sound.advance (sound : Sound story runtime) (done : advance story runtime choiceId = (.ok, next)) :
    Sound story next ∧ next.path = runtime.path ++ [choiceId] := by
  obtain ⟨room, node, selected, found, member, allowed, rfl⟩ := advance_ok done
  have target : selected.target ∈ story.nodes.map Node.nodeId := story.targets node (nodeTable_mem found) selected member
  refine ⟨?_, by simp⟩
  constructor
  · simpa using sound.valid
  · simpa using target
  · exact fresh_of_node target
  · rw [refreshStatus_vars, keys_assign, sound.keys]
    intro entry inside
    obtain ⟨definition, declared, _⟩ := allowed entry inside
    rw [sound.keys]
    exact Dict.mem_keys_iff.mpr ⟨definition, declared⟩
  · intro name definition declared
    rw [refreshStatus_vars]
    rcases get?_assign selected.assignments.entries runtime.vars name with same | ⟨value, inside, found⟩
    · simp only [same]
      exact sound.fits declared
    · obtain ⟨other, also, fits⟩ := allowed _ inside
      obtain rfl : other = definition := Option.some.inj (also.symm.trans declared)
      exact ⟨value, found, fits⟩
  · rw [refreshStatus_path, List.length_append, List.length_singleton]
    exact room

/-- The state after a step, if it succeeds. -/
def step (story : LoadedStory) (runtime : Runtime) (choiceId : String) : Option Runtime :=
  match advance story runtime choiceId with
  | (.ok, next) => some next
  | (.error _, _) => none

/-- The state that a path leads to from the start, if every step of it succeeds. -/
def replay (story : LoadedStory) (path : List String) : Option Runtime := path.foldlM (step story) (init story)

theorem step_eq_some : step story runtime choiceId = some next ↔ advance story runtime choiceId = (.ok, next) := by
  unfold step
  split <;> simp_all

theorem replay_snoc (path : List String) (choiceId : String) : replay story (path ++ [choiceId]) = (replay story path).bind fun runtime => step story runtime choiceId := by
  rw [replay, List.foldlM_append]
  congr 1
  funext runtime
  simp [List.foldlM_cons]

theorem replay_sound {path : List String} (played : replay story path = some runtime) : Sound story runtime ∧ runtime.path = path := by
  induction path using List.reverseRecOn generalizing runtime with
  | nil =>
    obtain rfl : init story = runtime := Option.some.inj played
    exact ⟨init_sound story, init_path story⟩
  | append_singleton path choiceId ih =>
    rw [replay_snoc] at played
    obtain ⟨before, first, stepped⟩ := Option.bind_eq_some_iff.mp played
    obtain ⟨sound, same⟩ := ih first
    obtain ⟨after, longer⟩ := sound.advance (step_eq_some.mp stepped)
    exact ⟨after, by rw [longer, same]⟩

/-- A state that its own path leads to. -/
def Played (story : LoadedStory) (runtime : Runtime) : Prop := replay story runtime.path = some runtime

theorem played_init (story : LoadedStory) : Played story (init story) := by
  rw [Played, init_path]
  rfl

theorem Played.sound (played : Played story runtime) : Sound story runtime := (replay_sound played).1

theorem Played.step (played : Played story runtime) (stepped : step story runtime choiceId = some next) :
    Played story next ∧ next.path = runtime.path ++ [choiceId] := by
  obtain ⟨_, longer⟩ := played.sound.advance (step_eq_some.mp stepped)
  refine ⟨?_, longer⟩
  rw [Played, longer, replay_snoc, played]
  exact stepped

theorem Played.eq (one : Played story runtime) (two : Played story next) (same : runtime.path = next.path) : runtime = next := by
  rw [Played, same] at one
  exact Option.some.inj (one.symm.trans two)

/-- The part of a saved path before the first choice that the story does not replay. -/
structure Stops (story : LoadedStory) (path : List Variant) (part : List String) : Prop where
  played : ∃ runtime, replay story part = some runtime
  before : ∃ left, path = part.map Variant.string ++ left ∧ ∀ choiceId rest, left = .string choiceId :: rest → replay story (part ++ [choiceId]) = none

variable {one two : List String}

theorem replay_part (played : replay story (one ++ two) = some next) : ∃ runtime, replay story one = some runtime := by
  rw [replay, List.foldlM_append] at played
  obtain ⟨runtime, first, _⟩ := Option.bind_eq_some_iff.mp played
  exact ⟨runtime, first⟩

theorem string_injective : Function.Injective Variant.string := fun _ _ same => Variant.string.inj same

variable {path : List Variant}

theorem Stops.reaches (stops : Stops story path one) (played : replay story (one ++ two) = some next)
    (within : ∃ left, path = (one ++ two).map Variant.string ++ left) : two = [] := by
  obtain ⟨left, whole, refused⟩ := stops.before
  obtain ⟨rest, longer⟩ := within
  cases two with
  | nil => rfl
  | cons choiceId two =>
    have behind : left = .string choiceId :: (two.map Variant.string ++ rest) := by
      rw [whole, List.map_append, List.append_assoc] at longer
      exact List.append_cancel_left longer
    have none := refused choiceId _ behind
    have shape : one ++ choiceId :: two = (one ++ [choiceId]) ++ two := by simp
    rw [shape] at played
    obtain ⟨runtime, some'⟩ := replay_part played
    rw [none] at some'
    cases some'

theorem Stops.eq (first : Stops story path one) (second : Stops story path two) : one = two := by
  obtain ⟨left, whole, _⟩ := first.before
  obtain ⟨left', whole', _⟩ := second.before
  obtain ⟨_, played⟩ := first.played
  obtain ⟨_, played'⟩ := second.played
  rcases List.append_eq_append_iff.mp (whole.symm.trans whole') with ⟨more, longer, _⟩ | ⟨more, longer, _⟩
  · obtain ⟨part, rest, rfl, same, _⟩ := List.map_eq_append_iff.mp longer
    obtain rfl := List.map_injective_iff.mpr string_injective same
    rw [first.reaches played' ⟨left', whole'⟩, List.append_nil]
  · obtain ⟨part, rest, rfl, same, _⟩ := List.map_eq_append_iff.mp longer
    obtain rfl := List.map_injective_iff.mpr string_injective same
    rw [second.reaches played ⟨left, whole⟩, List.append_nil]

theorem replayPath_stop {answer : Answer} {final : Runtime} (played : Played story runtime)
    (done : replayPath story runtime path = (answer, final)) :
    Played story final ∧ ∃ ids left, path = ids.map Variant.string ++ left ∧ final.path = runtime.path ++ ids ∧
      (answer = .ok ∧ left = [] ∨ answer ≠ .ok ∧ left ≠ [] ∧ ∀ choiceId rest, left = .string choiceId :: rest → step story final choiceId = none) := by
  fun_induction replayPath story runtime path with
  | case1 runtime =>
    cases done
    exact ⟨played, [], [], rfl, (List.append_nil _).symm, .inl ⟨rfl, rfl⟩⟩
  | case2 runtime choiceId rest after stepped ih =>
    obtain ⟨again, longer⟩ := played.step (step_eq_some.mpr stepped)
    obtain ⟨sound, ids, left, whole, path, stop⟩ := ih again done
    refine ⟨sound, choiceId :: ids, left, ?_, ?_, stop⟩
    · rw [whole]
      rfl
    · rw [path, longer, List.append_assoc]
      rfl
  | case3 runtime choiceId rest code after refused =>
    cases done
    obtain rfl := advance_error played.sound refused
    refine ⟨played, [], .string choiceId :: rest, rfl, (List.append_nil _).symm, .inr ⟨(nomatch ·), List.cons_ne_nil _ _, ?_⟩⟩
    intro other more same
    cases same
    rw [step, refused]
  | case4 runtime first rest other =>
    cases done
    refine ⟨played, [], first :: rest, rfl, (List.append_nil _).symm, .inr ⟨(nomatch ·), List.cons_ne_nil _ _, ?_⟩⟩
    intro choiceId more same
    cases same
    exact (other choiceId rfl).elim

/-- The loop of a restore goes as far as the story replays the saved path, and succeeds if that is the whole path. -/
theorem replayPath_init {answer : Answer} {final : Runtime} (done : replayPath story (init story) path = (answer, final)) :
    Played story final ∧ Stops story path final.path ∧ (answer = .ok ↔ path = final.path.map Variant.string) := by
  obtain ⟨played, ids, left, whole, same, stop⟩ := replayPath_stop (played_init story) done
  rw [init_path, List.nil_append] at same
  subst same
  refine ⟨played, ⟨⟨final, played⟩, left, whole, ?_⟩, ?_⟩
  · intro choiceId rest behind
    rcases stop with ⟨_, none⟩ | ⟨_, _, refused⟩
    · rw [none] at behind
      cases behind
    · rw [replay_snoc, played, Option.bind_some]
      exact refused choiceId rest behind
  · rcases stop with ⟨rfl, rfl⟩ | ⟨failed, some', _⟩
    · simpa using whole
    · refine iff_of_false failed fun all => some' ?_
      rw [all] at whole
      exact List.self_eq_append_right.mp whole

/-- A save describes a state: its node, its path, its number of steps and the values of its variables. -/
structure Saves (story : LoadedStory) (engine : Engine) (save : List (Variant × Variant)) (state : Runtime) : Prop where
  node : textOf engine "current_node_id" save = state.currentNodeId
  path : entryOf "path" save = some (.array (state.path.map .string))
  steps : strict ((entryOf "steps" save).getD .nil) = some (state.path.length : Int)
  vars : ∃ entries, entryOf "variables" save = some (.dictionary entries) ∧ entries.length = story.variableDefs.entries.length ∧
    ∀ name definition, story.variableDefs.get? name = some definition →
      ∃ value, (entryOf name entries).bind (coerceSavedScalar definition) = some value ∧ state.vars.get? name = some value

/-- What the checks before the reset find. -/
structure Passed (story : LoadedStory) (engine : Engine) (save : List (Variant × Variant)) (saved : Screened) : Prop where
  path : entryOf "path" save = some (.array saved.path)
  steps : strict ((entryOf "steps" save).getD .nil) = some saved.steps
  counted : saved.steps = saved.path.length
  vars : ∃ entries, entryOf "variables" save = some (.dictionary entries) ∧ entries.length = story.variableDefs.entries.length ∧
    List.Forall₂ (fun entry pair => ∃ value, (entryOf entry.1 entries).bind (coerceSavedScalar entry.2) = some value ∧ (entry.1, value) = pair)
      story.variableDefs.entries saved.coerced

theorem fail_ok {bad : Bool} {code : String} {result : Unit} : fail bad code = .ok result ↔ bad = false := reject_ok

theorem asArray_some {value : Option Variant} {items : List Variant} : Variant.asArray value = some items ↔ value = some (.array items) := by
  cases value with
  | none => simp [Variant.asArray]
  | some value => cases value <;> simp [Variant.asArray]

theorem asDictionary_some {value : Option Variant} {entries : List (Variant × Variant)} :
    Variant.asDictionary value = some entries ↔ value = some (.dictionary entries) := by
  cases value with
  | none => simp [Variant.asDictionary]
  | some value => cases value <;> simp [Variant.asDictionary]

variable {save : List (Variant × Variant)} {saved : Screened}

theorem screen_passed (done : screen story engine runtime save = .ok saved) :
    Passed story engine save saved := by
  simp only [screen, bind_ok, fail_ok, fetch_ok, pure_ok, mapM_ok, asArray_some, asDictionary_some, decide_eq_false_iff_not, not_not] at done
  obtain ⟨_, _, _, _, _, _, _, _, _, _, _, _, _, _, path, pathed, _, _, entries, valued, _, sized, coerced, each, steps, stepped, _, counted, rfl⟩ := done
  exact ⟨pathed, stepped, counted, entries, valued, sized, each⟩

theorem sameValues_iff (passed : Passed story engine save saved) (state : Runtime) :
    sameValues saved.coerced state.vars = true ↔ ∃ entries, entryOf "variables" save = some (.dictionary entries) ∧
      entries.length = story.variableDefs.entries.length ∧ ∀ name definition, story.variableDefs.get? name = some definition →
        ∃ value, (entryOf name entries).bind (coerceSavedScalar definition) = some value ∧ state.vars.get? name = some value := by
  obtain ⟨entries, valued, sized, each⟩ := passed.vars
  rw [sameValues, List.all_eq_true]
  constructor
  · intro same
    refine ⟨entries, valued, sized, ?_⟩
    intro name definition declared
    obtain ⟨pair, member, value, read, rfl⟩ := exists_of_forall₂ each.flip (Dict.get?_eq_some_iff.mp declared)
    exact ⟨value, read, by simpa using same _ member⟩
  · rintro ⟨other, also, _, agree⟩ pair member
    obtain rfl : entries = other := by simpa using valued.symm.trans also
    obtain ⟨⟨name, definition⟩, declared, value, read, rfl⟩ := exists_of_forall₂ each member
    obtain ⟨value', read', found⟩ := agree name definition (Dict.get?_eq_some_iff.mpr declared)
    rw [read] at read'
    obtain rfl := Option.some.inj read'
    exact decide_eq_true found

/-- Once a save passes the checks, the state follows its path as far as it goes, and the save is restored if it describes a state that is played. -/
theorem restore_passed (sound : Sound story runtime)
    (done : screen story engine runtime save = .ok saved) :
    ∃ final, Played story final ∧ Stops story saved.path final.path ∧
      ((restore story engine runtime save = (.ok, final) ∧ Saves story engine save final) ∨
        (∃ code, restore story engine runtime save = (.error code, final)) ∧ ∀ state, Played story state → ¬Saves story engine save state) := by
  have passed := screen_passed done
  rcases followed : replayPath story (init story) saved.path with ⟨answer, final⟩
  obtain ⟨played, stops, whole⟩ := replayPath_init followed
  refine ⟨final, played, stops, ?_⟩
  -- a state that the save describes is the one that its path leads to
  have only : ∀ state, Played story state → Saves story engine save state → saved.path = state.path.map .string ∧ state = final := by
    intro state other saves
    have path : saved.path = state.path.map .string := by
      have both := passed.path.symm.trans saves.path
      simpa using both
    have also : Stops story saved.path state.path := by
      refine ⟨⟨state, other⟩, [], by simpa using path, ?_⟩
      intro choiceId rest behind
      cases behind
    exact ⟨path, other.eq played (also.eq stops)⟩
  cases answer with
  | error code =>
    right
    have restored : restore story engine runtime save = (.error code, final) := by
      rw [restore, done]
      simp only [reset_eq sound.valid, followed]
    refine ⟨⟨code, restored⟩, ?_⟩
    intro state other saves
    obtain ⟨path, rfl⟩ := only state other saves
    cases whole.mpr path
  | ok =>
    have restored : restore story engine runtime save =
        if final.currentNodeId ≠ textOf engine "current_node_id" save then (.error "SAVE_STATE_MISMATCH", final)
        else if (final.path.length : Int) ≠ saved.steps then (.error "SAVE_STATE_MISMATCH", final)
        else if !sameValues saved.coerced final.vars then (.error "SAVE_STATE_MISMATCH", final)
        else (.ok, final) := by
      rw [restore, done]
      simp only [reset_eq sound.valid, followed] <;> rfl
    have path := whole.mp rfl
    by_cases matches' : final.currentNodeId = textOf engine "current_node_id" save ∧ sameValues saved.coerced final.vars = true
    · left
      have counted : (final.path.length : Int) = saved.steps := by
        rw [passed.counted, path, List.length_map]
      refine ⟨?_, matches'.1.symm, path ▸ passed.path, counted ▸ passed.steps, (sameValues_iff passed final).mp matches'.2⟩
      rw [restored]
      simp [matches'.1, matches'.2, counted]
    · right
      constructor
      · refine ⟨"SAVE_STATE_MISMATCH", ?_⟩
        rw [restored]
        split
        · rfl
        · split
          · rfl
          · split
            · rfl
            · rename_i node _ same
              exact absurd ⟨not_not.mp node, by simpa using same⟩ matches'
      · intro state other saves
        obtain ⟨_, rfl⟩ := only state other saves
        exact matches' ⟨saves.node.symm, (sameValues_iff passed state).mpr saves.vars⟩

/-- The states of a runtime that is asked for steps, restored from saves, and looked at. -/
inductive Reached (story : LoadedStory) (engine : Engine) : Runtime → Prop
  | init : Reached story engine (init story)
  | look {runtime : Runtime} (reached : Reached story engine runtime) : Reached story engine (refreshStatus story runtime)
  | advance {runtime : Runtime} (reached : Reached story engine runtime) (choiceId : String) : Reached story engine (advance story runtime choiceId).2
  | restore {runtime : Runtime} (reached : Reached story engine runtime) (save : List (Variant × Variant)) : Reached story engine (restore story engine runtime save).2

theorem Reached.played (reached : Reached story engine runtime) : Played story runtime := by
  induction reached with
  | init => exact played_init story
  | look _ ih =>
    rw [ih.sound.fresh]
    exact ih
  | @advance runtime _ choiceId ih =>
    rcases stepped : Godot.advance story runtime choiceId with ⟨answer, next⟩
    cases answer with
    | ok => exact (ih.step (step_eq_some.mpr stepped)).1
    | error code =>
      rw [advance_error ih.sound stepped]
      exact ih
  | @restore runtime _ save ih =>
    cases done : screen story engine runtime save with
    | error code =>
      rw [Godot.restore, done]
      exact ih
    | ok saved =>
      obtain ⟨final, played, _, ⟨restored, _⟩ | ⟨⟨code, restored⟩, _⟩⟩ := restore_passed ih.sound done
      · rw [restored]
        exact played
      · rw [restored]
        exact played

theorem entryOf_eq_some {entries : List (Variant × Variant)} {value : Variant} (distinct : (entries.map Prod.fst).Nodup) :
    entryOf name entries = some value ↔ (.string name, value) ∈ entries := by
  have isKey (key : Variant) : key.isKey name = true ↔ key = .string name := by
    cases key <;> simp [Variant.isKey]
  unfold entryOf
  induction entries with
  | nil => simp
  | cons entry rest ih =>
    rw [List.map_cons, List.nodup_cons] at distinct
    obtain ⟨key, stored⟩ := entry
    by_cases same : key = .string name
    · subst same
      have absent : (.string name, value) ∉ rest := fun member => distinct.1 (List.mem_map.mpr ⟨_, member, rfl⟩)
      simp [Variant.isKey, absent, eq_comm]
    · have other : key.isKey name = false := by
        rw [← Bool.not_eq_true, isKey]
        exact same
      have tail := ih distinct.2
      simp only [List.find?_cons, other, List.mem_cons, Prod.mk.injEq]
      constructor
      · intro found
        exact .inr (tail.mp found)
      · rintro (⟨equal, _⟩ | member)
        · exact absurd equal.symm same
        · exact tail.mpr member

def fieldOf (name : String) (fields : List (String × Variant)) : Option Variant := (fields.find? fun field => field.1 = name).map Prod.snd

theorem entryOf_stringKeyed (name : String) (fields : List (String × Variant)) : entryOf name (stringKeyed fields) = fieldOf name fields := by
  rw [entryOf, stringKeyed, List.find?_map, Option.map_map]
  rfl

theorem decodedEntries_stringKeyed (engine : Engine) (fields : List (String × Variant)) :
    decodedEntries engine (stringKeyed fields) = stringKeyed (fields.map fun field => (field.1, decoded engine field.2)) := by
  induction fields with
  | nil => rfl
  | cons field rest ih =>
    have tail : decodedEntries engine (stringKeyed rest) = stringKeyed (rest.map fun field => (field.1, decoded engine field.2)) := ih
    change (Variant.string (engine.str (.string field.1)), decoded engine field.2) :: decodedEntries engine (stringKeyed rest) = _
    rw [engine.str_string, tail]
    rfl

theorem entryOf_decodedSave (engine : Engine) {fields : List (String × Variant)} (distinct : (fields.map Prod.fst).Nodup) (name : String) :
    entryOf name (decodedSave engine (stringKeyed fields)) = (fieldOf name fields).map (decoded engine) := by
  have names : ((stringKeyed (fields.map fun field => (field.1, decoded engine field.2))).map Prod.fst).Nodup := by
    have same : (stringKeyed (fields.map fun field => (field.1, decoded engine field.2))).map Prod.fst = (fields.map Prod.fst).map Variant.string := by
      simp [stringKeyed, Function.comp_def]
    rw [same]
    exact distinct.map string_injective
  have order := List.mergeSort_perm (stringKeyed (fields.map fun field => (field.1, decoded engine field.2))) fun one two => engine.str one.1 ≤ engine.str two.1
  have sorted : entryOf name (decodedSave engine (stringKeyed fields)) = entryOf name (stringKeyed (fields.map fun field => (field.1, decoded engine field.2))) := by
    apply Option.ext
    intro value
    rw [decodedSave, decodedEntries_stringKeyed, entryOf_eq_some names, entryOf_eq_some ((order.map Prod.fst).nodup_iff.mpr names)]
    exact order.mem_iff
  rw [sorted, entryOf_stringKeyed, fieldOf, List.find?_map, Option.map_map, fieldOf, Option.map_map]
  rfl

theorem decodedItems_strings (engine : Engine) (texts : List String) : decodedItems engine (texts.map Variant.string) = texts.map Variant.string := by
  induction texts with
  | nil => rfl
  | cons text rest ih =>
    change Variant.string text :: decodedItems engine (rest.map Variant.string) = _
    rw [ih]
    rfl

theorem decoded_dictionary (engine : Engine) (entries : List (Variant × Variant)) : decoded engine (.dictionary entries) = .dictionary (decodedSave engine entries) := by
  rw [decoded, decodedSave]

theorem strict_decoded (engine : Engine) {number : Int} (low : -1000000000 ≤ number) (high : number ≤ 1000000000) :
    strict (decoded engine (.int number)) = some number := by
  have bounds : (-1000000000 : Rat) ≤ number ∧ (number : Rat) ≤ 1000000000 := ⟨by exact_mod_cast low, by exact_mod_cast high⟩
  have whole : (number : Rat) = (⌊(number : Rat)⌋ : Int) := by rw [Int.floor_intCast]
  rw [decoded, strict, if_pos ⟨whole, bounds⟩, Int.floor_intCast]

theorem coerceSavedScalar_decoded (engine : Engine) {value : Scalar}
    (scalars : -MAX_SCALAR ≤ definition.minimum ∧ definition.maximum ≤ MAX_SCALAR) (allowed : assignmentAllowed definition value = true) :
    coerceSavedScalar definition (decoded engine (.ofScalar value)) = some value := by
  unfold assignmentAllowed at allowed
  unfold MAX_SCALAR at scalars
  split at allowed
  · rename_i truth kind
    simp only [Variant.ofScalar, decoded, coerceSavedScalar, kind]
  · rename_i number kind
    rw [Bool.and_eq_true, decide_eq_true_eq, decide_eq_true_eq] at allowed
    have read : strict (decoded engine (.int number)) = some number := strict_decoded engine (by omega) (by omega)
    simp only [coerceSavedScalar, kind, Variant.ofScalar, read]
    simp [allowed]
  · cases allowed

variable {state : Runtime}

theorem snapshot_vars (engine : Engine) (sound : Sound story state)
    (declared : story.variableDefs.get? name = some definition) :
    ∃ value, (entryOf name (decodedSave engine (stringKeyed (state.vars.entries.map fun entry => (entry.1, Variant.ofScalar entry.2))))).bind
      (coerceSavedScalar definition) = some value ∧ state.vars.get? name = some value := by
  obtain ⟨value, found, allowed⟩ := sound.fits declared
  have distinct : ((state.vars.entries.map fun entry => (entry.1, Variant.ofScalar entry.2)).map Prod.fst).Nodup := by
    rw [List.map_map]
    exact state.vars.distinct
  have field : fieldOf name (state.vars.entries.map fun entry => (entry.1, Variant.ofScalar entry.2)) = some (.ofScalar value) := by
    rw [fieldOf, List.find?_map, Option.map_map]
    have entry := congrArg (Option.map Variant.ofScalar) found
    rw [Dict.get?, Option.map_map] at entry
    exact entry
  refine ⟨value, ?_, found⟩
  rw [entryOf_decodedSave engine distinct, field, Option.map_some, Option.bind_some]
  exact coerceSavedScalar_decoded engine (story.scalars definition (variableDefs_mem declared)) allowed

theorem snapshot_field (engine : Engine) (state : Runtime) (name : String) (value : Variant)
    (field : fieldOf name (snapshotFields story state) = some value) :
    entryOf name (decodedSave engine (snapshot story state)) = some (decoded engine value) := by
  have distinct : ((snapshotFields story state).map Prod.fst).Nodup := by
    change ["schema", "save_schema_version", "story", "current_node_id", "path", "variables", "steps"].Nodup
    decide
  rw [snapshot, entryOf_decodedSave engine distinct, field]
  rfl

theorem identity_field (engine : Engine) (name : String) (value : Variant) (field : fieldOf name (identityFields story) = some value) :
    entryOf name (decodedSave engine (stringKeyed (identityFields story))) = some (decoded engine value) := by
  have distinct : ((identityFields story).map Prod.fst).Nodup := by
    change ["id", "revision", "spec_digest", "source_digest", "review_receipt"].Nodup
    decide
  rw [entryOf_decodedSave engine distinct, field]
  rfl

theorem snapshot_saves (engine : Engine) (sound : Sound story state) :
    Saves story engine (decodedSave engine (snapshot story state)) state where
  node := by
    rw [textOf, snapshot_field engine state "current_node_id" _ rfl]
    exact engine.str_string _
  path := by
    rw [snapshot_field engine state "path" _ rfl, decoded, decodedItems_strings]
  steps := by
    have few := sound.few
    have cap := story.steps.2
    rw [snapshot_field engine state "steps" _ rfl, Option.getD_some]
    exact strict_decoded engine (by omega) (by omega)
  vars := by
    refine ⟨_, ?_, ?_, fun name definition declared => snapshot_vars engine sound declared⟩
    · rw [snapshot_field engine state "variables" _ rfl, decoded_dictionary]
    · have same := congrArg List.length sound.keys
      rw [Dict.keys, List.length_map, Dict.keys, List.length_map] at same
      rw [decodedSave, List.length_mergeSort, decodedEntries_stringKeyed, stringKeyed, List.length_map, List.length_map, List.length_map, same]

theorem snapshot_screened (engine : Engine) (here : Sound story runtime) (sound : Sound story state) :
    ∃ saved, screen story engine runtime (decodedSave engine (snapshot story state)) = .ok saved := by
  have saves := snapshot_saves engine sound
  obtain ⟨entries, valued, sized, agree⟩ := saves.vars
  have identity : entryOf "story" (decodedSave engine (snapshot story state)) = some (.dictionary (decodedSave engine (stringKeyed (identityFields story)))) := by
    rw [snapshot_field engine state "story" _ rfl, decoded_dictionary]
  have text (name value : String) (field : fieldOf name (identityFields story) = some (.string value)) :
      textOf engine name (decodedSave engine (stringKeyed (identityFields story))) = value := by
    rw [textOf, identity_field engine name _ field]
    exact engine.str_string _
  have revision : strict ((entryOf "revision" (decodedSave engine (stringKeyed (identityFields story)))).getD .nil) = some story.revision := by
    have revised := story.revised
    rw [identity_field engine "revision" _ rfl, Option.getD_some]
    exact strict_decoded engine (by omega) (by omega)
  have coerced : ∃ coerced, List.Forall₂ (fun entry pair => ∃ value, (entryOf entry.1 entries).bind (coerceSavedScalar entry.2) = some value ∧ (entry.1, value) = pair)
      story.variableDefs.entries coerced := by
    refine ⟨story.variableDefs.entries.map fun entry => (entry.1, (state.vars.get? entry.1).getD (.bool false)), ?_⟩
    rw [List.forall₂_map_right_iff, List.forall₂_same]
    intro entry member
    obtain ⟨value, read, found⟩ := agree entry.1 entry.2 (Dict.get?_eq_some_iff.mpr member)
    exact ⟨value, read, by rw [found, Option.getD_some]⟩
  obtain ⟨coerced, each⟩ := coerced
  refine ⟨⟨state.path.map .string, coerced, state.path.length⟩, ?_⟩
  have few := sound.few
  simp only [screen, bind_ok, fail_ok, fetch_ok, pure_ok, mapM_ok, asArray_some, asDictionary_some, decide_eq_false_iff_not, not_not,
    Bool.not_eq_false', Nat.not_lt]
  exact ⟨(), here.valid, _, identity, (), text "id" _ rfl, (), revision, (), text "spec_digest" _ rfl, (), text "source_digest" _ rfl, (),
    text "review_receipt" _ rfl, _, saves.path, (), by simpa using few, entries, valued, (), sized, coerced, each, _, saves.steps, (), by simp, rfl⟩

/-- The node, the path and the variables of two states are the same. -/
structure Same (one two : Runtime) : Prop where
  node : one.currentNodeId = two.currentNodeId
  path : one.path = two.path
  vars : one.vars = two.vars

/-- A restore that succeeds leaves the state that the save describes and that the story replays its path to; the round trip of a snapshot
is restored; and a save that is refused leaves the state as it was exactly if it fails a check before the reset, or would be restored, or stops on its
way in the state itself. -/
theorem restore_exact (story : LoadedStory) (engine : Engine) {runtime : Runtime} (reached : Reached story engine runtime)
    (save : List (Variant × Variant)) :
    ((restore story engine runtime save).1 = .ok → ∃ final, replay story final.path = some final ∧ Saves story engine save final ∧
      (restore story engine runtime save).2 = final) ∧
    (∀ state, Reached story engine state → restore story engine runtime (decodedSave engine (snapshot story state)) = (.ok, state)) ∧
    (((restore story engine runtime save).1 ≠ .ok → Same (restore story engine runtime save).2 runtime) ↔
      (∃ code, screen story engine runtime save = .error code) ∨ (∃ state, replay story state.path = some state ∧ Saves story engine save state) ∨
        ∃ path, entryOf "path" save = some (.array path) ∧ Stops story path runtime.path) := by
  have here := reached.played
  refine ⟨?_, ?_, ?_⟩
  · intro succeeds
    cases done : screen story engine runtime save with
    | error code =>
      rw [restore, done] at succeeds
      cases succeeds
    | ok saved =>
      obtain ⟨final, played, _, ⟨restored, saves⟩ | ⟨⟨code, restored⟩, _⟩⟩ := restore_passed here.sound done
      · exact ⟨final, played, saves, by rw [restored]⟩
      · rw [restored] at succeeds
        cases succeeds
  · intro state other
    have there := other.played
    have describes := snapshot_saves engine there.sound
    obtain ⟨saved, done⟩ := snapshot_screened engine here.sound there.sound
    obtain ⟨final, played, stops, ⟨restored, saves⟩ | ⟨_, none⟩⟩ := restore_passed here.sound done
    · have path : final.path = state.path := by
        have both := saves.path.symm.trans describes.path
        simpa [List.map_inj_right fun _ _ => string_injective.eq_iff.mp] using both
      rw [restored, played.eq there path]
    · exact absurd describes (none state there)
  · cases done : screen story engine runtime save with
    | error code =>
      have kept : restore story engine runtime save = (.error code, runtime) := by rw [restore, done]
      rw [kept]
      exact iff_of_true (fun _ => ⟨rfl, rfl, rfl⟩) (.inl ⟨code, rfl⟩)
    | ok saved =>
      have passed := screen_passed done
      obtain ⟨final, played, stops, ⟨restored, saves⟩ | ⟨⟨code, restored⟩, none⟩⟩ := restore_passed here.sound done
      · rw [restored]
        exact iff_of_true (fun failed => absurd rfl failed) (.inr (.inl ⟨final, played, saves⟩))
      · rw [restored]
        constructor
        · intro kept
          have same := kept (nomatch ·)
          exact .inr (.inr ⟨saved.path, passed.path, same.path ▸ stops⟩)
        · rintro (⟨code, failed⟩ | ⟨state, other, saves⟩ | ⟨path, found, also⟩)
          · cases failed
          · exact absurd saves (none state other)
          · intro _
            obtain rfl : saved.path = path := by simpa using passed.path.symm.trans found
            obtain rfl := played.eq here (stops.eq also)
            exact ⟨rfl, rfl, rfl⟩

/-- Only strings have a text. -/
def plainEngine : Engine where
  str
    | .string text => text
    | _ => ""
  str_string _ := rfl

/-- A hall whose door opens to a yard, where the story ends. -/
def doors : LoadedStory where
  storyId := "doors"
  revision := 1
  specDigest := "spec"
  sourceDigest := "source"
  reviewReceipt := "receipt"
  entryNodeId := "hall"
  maxSteps := 4
  definitions := [⟨"keys", .int, .int 0, 0, 3, by decide, by decide, by decide⟩]
  nodes := [⟨"hall", "", [⟨"open", "yard", .compare .lt (.var "keys") (.literal (.int 2)), .ofList [("keys", .int 1)]⟩]⟩, ⟨"yard", "Outside", []⟩]
  revised := by decide
  steps := by decide
  scalars := by
    intro definition member
    rw [List.mem_singleton.mp member]
    decide
  uniqueDefinitions := by decide
  uniqueNodes := by decide
  entry := by decide
  targets := by
    intro node inside choice member
    simp only [List.mem_cons, List.not_mem_nil, or_false] at inside
    rcases inside with rfl | rfl
    · rw [List.mem_singleton.mp member]
      decide
    · cases member

/-- The save of the yard, with another node written into it. -/
def tampered : List (Variant × Variant) :=
  stringKeyed
    [("schema", .string SAVE_SCHEMA), ("save_schema_version", .float (.finite 1)), ("story", .dictionary (stringKeyed (identityFields doors))),
      ("current_node_id", .string "hall"), ("path", .array [.string "open"]), ("variables", .dictionary (stringKeyed [("keys", .float (.finite 1))])),
      ("steps", .float (.finite 1))]

/-- The state of the yard is restored from its snapshot, with its numbers read as floats. -/
theorem restore_exact_yard : restore doors plainEngine (init doors) (decodedSave plainEngine (snapshot doors (advance doors (init doors) "open").2)) =
    (.ok, (advance doors (init doors) "open").2) :=
  (restore_exact doors plainEngine .init tampered).2.1 _ (.advance .init "open")

/-- A save that is refused has moved the state to its end. -/
theorem refused_save_applied : restore doors plainEngine (init doors) tampered = (.error "SAVE_STATE_MISMATCH", (advance doors (init doors) "open").2) ∧
    (init doors).currentNodeId = "hall" ∧ (advance doors (init doors) "open").2.currentNodeId = "yard" := by
  decide +kernel

end NovelStudio.Godot
