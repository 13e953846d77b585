import NovelStudio.Story.Analysis

/-! What the search of a story's states establishes: its paths can be replayed, and when
it ends within its limits, whatever can be reached was expanded. -/

namespace NovelStudio.Story

open Library

theorem get?_update_entries (entries : List (String × Scalar)) (values : Values) (name : String) :
    (entries.foldl (fun values entry => values.set entry.1 entry.2) values).get? name = values.get? name ∨
      ∃ value, (name, value) ∈ entries ∧
        (entries.foldl (fun values entry => values.set entry.1 entry.2) values).get? name = some value := by
  induction entries generalizing values with
  | nil => exact .inl rfl
  | cons entry rest ih =>
    rw [List.foldl_cons]
    rcases ih (values.set entry.1 entry.2) with same | ⟨value, member, found⟩
    · rw [same, Dict.get?_set]
      split
      · rename_i equal
        exact .inr ⟨entry.2, by rw [equal]; exact List.mem_cons_self .., rfl⟩
      · exact .inl rfl
    · exact .inr ⟨value, List.mem_cons_of_mem _ member, found⟩

theorem SameValues.update (same : SameValues left right) (assignments : Dict String Scalar) :
    SameValues (update left assignments) (update right assignments) := by
  unfold Story.update
  generalize assignments.entries = entries
  induction entries generalizing left right with
  | nil => exact same
  | cons entry rest ih =>
    apply ih
    intro name
    rw [Dict.get?_set, Dict.get?_set, same name]

theorem WellTyped.update (typed : WellTyped vars values)
    (assigned : ∀ ⦃name value⦄, assignments.get? name = some value → ∃ var, vars.get? name = some var ∧ Fits var value) :
    WellTyped vars (update values assignments) := by
  intro name var declared
  rcases get?_update_entries assignments.entries values name with same | ⟨value, member, found⟩
  · obtain ⟨value, there, fits⟩ := typed declared
    exact ⟨value, same.trans there, fits⟩
  · obtain ⟨other, again, fits⟩ := assigned (Dict.get?_eq_some_iff.mpr member)
    cases declared.symm.trans again
    exact ⟨value, found, fits⟩

/-- An available choice leads from one state to another. -/
inductive Moves (story : Compiled) : String × Values → String × Values → Prop where
  | choose (found : story.nodes.get? nid = some node) (open' : node.ending = "") (member : choice ∈ node.choices)
      (evaluated : condition story nid values choice = .ok value) (available : value.truthy = true) :
      Moves story (nid, values) (choice.target, update values choice.assignments)

/-- States that no condition tells apart. -/
def Alike (left right : String × Values) : Prop := left.1 = right.1 ∧ SameValues left.2 right.2

theorem Alike.refl (state : String × Values) : Alike state state := ⟨rfl, fun _ => rfl⟩

theorem Alike.trans (first : Alike left middle) (second : Alike middle right) : Alike left right :=
  ⟨first.1.trans second.1, fun name => (first.2 name).trans (second.2 name)⟩

theorem condition_congr (same : SameValues left right) (story : Compiled) (nid : String) (choice : Choice) :
    condition story nid left choice = condition story nid right choice := by
  unfold condition
  congr 1
  funext tree
  exact interpret_congr same tree

theorem Alike.moves (alike : Alike state other) (moves : Moves story state next) :
    ∃ after, Moves story other after ∧ Alike next after := by
  obtain ⟨nid, values⟩ := other
  cases moves with
  | choose found open' member evaluated available =>
    obtain ⟨rfl, same⟩ := alike
    refine ⟨_, .choose found open' member ((condition_congr same story _ _).symm.trans evaluated) available, rfl, ?_⟩
    exact same.update _

theorem enabledChoices_mem (done : enabledChoices story nid values choices = .ok available) :
    ∀ choice, choice ∈ available ↔
      choice ∈ choices ∧ ∃ value, condition story nid values choice = .ok value ∧ value.truthy = true := by
  induction choices generalizing available with
  | nil =>
    cases done
    simp
  | cons first rest ih =>
    simp only [enabledChoices, bind_ok, pure_ok] at done
    obtain ⟨value, evaluated, others, later, rfl⟩ := done
    intro choice
    have known := ih later choice
    split
    · rename_i truthy
      rw [List.mem_cons, List.mem_cons, known]
      constructor
      · rintro (rfl | ⟨member, more⟩)
        · exact ⟨.inl rfl, value, evaluated, truthy⟩
        · exact ⟨.inr member, more⟩
      · rintro ⟨rfl | member, more⟩
        · exact .inl rfl
        · exact .inr ⟨member, more⟩
    · rename_i falsy
      rw [List.mem_cons, known]
      constructor
      · rintro ⟨member, more⟩
        exact ⟨.inr member, more⟩
      · rintro ⟨rfl | member, other, again, truthy⟩
        · cases evaluated.symm.trans again
          exact absurd truthy falsy
        · exact ⟨member, other, again, truthy⟩

theorem playPath_snoc {path : List String} : playPath story spec (path ++ [cid]) = .ok next ↔
    ∃ state, playPath story spec path = .ok state ∧ playStep story state cid = .ok next := by
  simp only [playPath, List.foldlM_append, bind_ok, foldlM_cons_ok, foldlM_nil_ok]
  constructor
  · rintro ⟨state, before, _, step, rfl⟩
    exact ⟨state, before, step⟩
  · rintro ⟨state, before, step⟩
    exact ⟨state, before, next, step, rfl⟩

theorem find_choice {node : StoryNode} (member : choice ∈ node.choices) :
    (node.choices.find? fun other => other.id = choice.id) = some choice := by
  cases found : node.choices.find? fun other => decide (other.id = choice.id) with
  | none =>
    rw [List.find?_eq_none] at found
    exact absurd (decide_eq_true rfl) (found choice member)
  | some other =>
    have same : other.id = choice.id := by simpa using List.find?_some found
    rw [choice_eq_of_id (List.mem_of_find?_eq_some found) member same]

theorem playStep_moves {story : Compiled} (found : story.nodes.get? nid = some node) (open' : node.ending = "")
    (member : choice ∈ node.choices) (evaluated : condition story nid values choice = .ok value)
    (available : value.truthy = true) :
    playStep story (nid, values) choice.id = .ok (choice.target, update values choice.assignments) := by
  simp only [playStep, bind_ok, fetch_ok, reject_ok, pure_ok]
  exact ⟨node, found, (), by simp [open'], choice, find_choice member, value, evaluated, (), by simp [available], rfl⟩

section

variable {Key : Type} {digest : StateDigest Key}

def Entry.state (entry : Entry) : String × Values := (entry.nodeId, entry.values)

/-- A state that is an ending or has an available choice. -/
def Alive (story : Compiled) (state : String × Values) : Prop :=
  ∃ node, story.nodes.get? state.1 = some node ∧ (node.ending = "" →
    ∃ choice ∈ node.choices, ∃ value, condition story state.1 state.2 choice = .ok value ∧ value.truthy = true)

/-- What the search keeps: the states that were expanded, the path of every entry, and
the path of every witness. -/
structure Searching (story : Compiled) (spec : StorySpec) (digest : StateDigest Key) (expanded : List (String × Values))
    (search : Search Key) : Prop where
  seen : search.seen = expanded.map fun state => digest state.1 state.2
  closed : search.truncated = false → search.stepLimited = false →
    Closed (Moves story) Alike expanded (search.queue.map Entry.state)
  covered : search.truncated = false → Covered Alike expanded (search.queue.map Entry.state) (spec.entryNodeId, spec.initial)
  alive : search.dead = [] → ∀ state ∈ expanded, Alive story state
  paths : ∀ entry ∈ search.queue, entry.path.length ≤ spec.maxSteps ∧ playPath story spec entry.path = .ok entry.state
  witnesses : ∀ witness ∈ search.witnesses.values, witness.choices.length ≤ spec.maxSteps ∧
    ∃ values node, playPath story spec witness.choices = .ok (witness.nodeId, values) ∧
      story.nodes.get? witness.nodeId = some node ∧ node.ending = witness.ending ∧ node.ending ≠ ""

variable {search : Search Key}

theorem Searching.skip
    (injective : ∀ n v n' v', digest n v = digest n' v' → n = n' ∧ SameValues v v')
    (searching : Searching story spec digest expanded search) (waiting : search.queue = entry :: rest)
    (known : digest entry.nodeId entry.values ∈ search.seen) :
    Searching story spec digest expanded { search with queue := rest } := by
  rw [searching.seen] at known
  obtain ⟨other, member, same⟩ := List.mem_map.mp known
  have alike : Alike entry.state other := by
    obtain ⟨name, values⟩ := injective _ _ _ _ same
    exact ⟨name.symm, fun name => (values name).symm⟩
  refine ⟨searching.seen, fun whole within => ?_, fun whole => ?_, searching.alive,
    fun next inside => searching.paths next (waiting ▸ List.mem_cons_of_mem _ inside), searching.witnesses⟩
  · have closed := searching.closed whole within
    rw [waiting, List.map_cons] at closed
    exact closed.skip Alike.trans member alike
  · have covered := searching.covered whole
    rw [waiting, List.map_cons] at covered
    exact covered.skip Alike.trans member alike

theorem Searching.truncate (searching : Searching story spec digest expanded search) :
    Searching story spec digest expanded { search with queue := [], truncated := true } :=
  ⟨searching.seen, nofun, nofun, searching.alive, nofun, searching.witnesses⟩

theorem Searching.reach (searching : Searching story spec digest expanded search)
    (path : entry.path.length ≤ spec.maxSteps ∧ playPath story spec entry.path = .ok entry.state)
    (found : story.nodes.get? entry.nodeId = some node) (ending : node.ending ≠ "") :
    Searching story spec digest expanded (reachEnding search entry node) := by
  unfold reachEnding
  split
  · exact searching
  · refine ⟨searching.seen, searching.closed, searching.covered, searching.alive, searching.paths, fun witness member => ?_⟩
    rcases Dict.mem_values_set member with rfl | earlier
    · exact ⟨path.1, entry.values, node, path.2, found, rfl, ending⟩
    · exact searching.witnesses witness earlier

theorem Searching.expand {next : Search Key} (searching : Searching story spec digest expanded search)
    (waiting : search.queue = entry :: rest) (more : List Entry) (queue : next.queue = rest ++ more)
    (seen : next.seen = search.seen ++ [digest entry.nodeId entry.values]) (witnesses : next.witnesses = search.witnesses)
    (truncated : next.truncated = search.truncated) (within : next.stepLimited = false → search.stepLimited = false)
    (dead : next.dead = [] → search.dead = [] ∧ Alive story entry.state)
    (paths : ∀ after ∈ more, after.path.length ≤ spec.maxSteps ∧ playPath story spec after.path = .ok after.state)
    (follow : next.stepLimited = false → ∀ after, Moves story entry.state after → after ∈ more.map Entry.state) :
    Searching story spec digest (expanded ++ [entry.state]) next := by
  refine ⟨by simp [seen, searching.seen, Entry.state], fun whole free => ?_, fun whole => ?_, fun none state member => ?_,
    fun after member => ?_, witnesses ▸ searching.witnesses⟩
  · have closed := searching.closed (truncated ▸ whole) (within free)
    rw [waiting, List.map_cons] at closed
    rw [queue, List.map_append]
    exact closed.expand Alike.refl _ (follow free)
  · have covered := searching.covered (truncated ▸ whole)
    rw [waiting, List.map_cons] at covered
    rw [queue, List.map_append]
    exact covered.expand _
  · rw [List.mem_append, List.mem_singleton] at member
    rcases member with member | rfl
    · exact searching.alive (dead none).1 state member
    · exact (dead none).2
  · rw [queue, List.mem_append] at member
    rcases member with member | member
    · exact searching.paths after (waiting ▸ List.mem_cons_of_mem _ member)
    · exact paths after member

theorem Searching.ending (searching : Searching story spec digest expanded search)
    (waiting : search.queue = entry :: rest) (found : story.nodes.get? entry.nodeId = some node) (ending : node.ending ≠ "") :
    Searching story spec digest (expanded ++ [entry.state])
      (reachEnding { search with queue := rest, seen := search.seen ++ [digest entry.nodeId entry.values] } entry node) := by
  apply Searching.reach _ (searching.paths entry (waiting ▸ List.mem_cons_self ..)) found ending
  refine searching.expand waiting [] (List.append_nil rest).symm rfl rfl rfl id (fun none => ⟨none, node, found, ?_⟩) nofun ?_
  · exact fun open' => absurd open' ending
  · intro _ after moves
    generalize same : entry.state = state at moves
    cases moves with
    | choose there open' =>
      cases same
      cases there.symm.trans found
      exact absurd open' ending

theorem Searching.leave (searching : Searching story spec digest expanded search)
    (waiting : search.queue = entry :: rest) (found : story.nodes.get? entry.nodeId = some node) (open' : node.ending = "")
    (enabled : enabledChoices story entry.nodeId entry.values node.choices = .ok available) :
    Searching story spec digest (expanded ++ [entry.state]) (leave spec.maxSteps
      { search with queue := rest, seen := search.seen ++ [digest entry.nodeId entry.values] } entry available) := by
  obtain ⟨_, played⟩ := searching.paths entry (waiting ▸ List.mem_cons_self ..)
  have known := enabledChoices_mem enabled
  have dead (none : (if available.isEmpty then
      search.dead ++ [⟨"CONDITIONAL_NO_EXIT", some entry.nodeId, Option.none, some entry.path⟩] else search.dead) = []) :
      search.dead = [] ∧ Alive story entry.state := by
    cases available with
    | nil => simp at none
    | cons choice others =>
      obtain ⟨member, evaluated⟩ := (known choice).mp (List.mem_cons_self ..)
      exact ⟨by simpa using none, node, found, fun _ => ⟨choice, member, evaluated⟩⟩
  unfold Story.leave
  simp only
  split
  · exact searching.expand waiting [] (List.append_nil rest).symm rfl rfl rfl nofun dead nofun nofun
  · rename_i room
    refine searching.expand waiting (available.map entry.follow) rfl rfl rfl rfl id dead ?_ ?_
    · intro after member
      obtain ⟨choice, isAvailable, rfl⟩ := List.mem_map.mp member
      obtain ⟨member, value, evaluated, truthy⟩ := (known choice).mp isAvailable
      refine ⟨by simp [Entry.follow]; omega, playPath_snoc.mpr ⟨_, played, ?_⟩⟩
      exact playStep_moves found open' member evaluated truthy
    · intro _ after moves
      generalize same : entry.state = state at moves
      cases moves with
      | choose there _ member evaluated truthy =>
        cases same
        cases there.symm.trans found
        have isAvailable := (known _).mpr ⟨member, _, evaluated, truthy⟩
        exact List.mem_map.mpr ⟨_, List.mem_map.mpr ⟨_, isAvailable, rfl⟩, rfl⟩

variable [DecidableEq Key]

theorem Searching.turn {next : Search Key}
    (injective : ∀ n v n' v', digest n v = digest n' v' → n = n' ∧ SameValues v v')
    (searching : Searching story spec digest expanded search)
    (turned : turn story digest spec.maxSteps search = .ok (some next)) :
    ∃ expanded, Searching story spec digest expanded next := by
  unfold Story.turn at turned
  split at turned
  · cases turned
  · rename_i entry rest waiting
    simp only at turned
    split at turned
    · rename_i known
      cases turned
      exact ⟨expanded, searching.skip injective waiting known⟩
    · split at turned
      · cases turned
        exact ⟨expanded, searching.truncate⟩
      · cases done : expandEntry story spec.maxSteps
            { search with queue := rest, seen := search.seen ++ [digest entry.nodeId entry.values] } entry with
        | error failure => simp [done, Except.map] at turned
        | ok after =>
          simp only [done, Except.map, Except.ok.injEq, Option.some.injEq] at turned
          subst turned
          simp only [expandEntry, bind_ok, fetch_ok] at done
          obtain ⟨node, found, done⟩ := done
          refine ⟨expanded ++ [entry.state], ?_⟩
          split at done
          · rename_i ending
            cases pure_ok.mp done
            exact searching.ending waiting found ending
          · rename_i open'
            simp only [bind_ok, pure_ok] at done
            obtain ⟨available, enabled, rfl⟩ := done
            exact searching.leave waiting found (by simpa using open') enabled

theorem explore_searched (injective : ∀ n v n' v', digest n v = digest n' v' → n = n' ∧ SameValues v v')
    (done : explore story digest spec.maxSteps ⟨[⟨spec.entryNodeId, spec.initial, []⟩], [], ∅, [], false, false⟩ = .ok search) :
    search.queue = [] ∧ ∃ expanded, Searching story spec digest expanded search := by
  have start : Searching story spec digest [] ⟨[⟨spec.entryNodeId, spec.initial, []⟩], [], ∅, [], false, false⟩ := by
    refine ⟨rfl, fun _ _ => nofun, fun _ => ⟨_, List.mem_singleton.mpr rfl, Alike.refl _⟩, fun _ => nofun, ?_, nofun⟩
    intro entry member
    cases List.mem_singleton.mp member
    exact ⟨Nat.zero_le _, rfl⟩
  obtain ⟨searched, stops⟩ := loop_invariant
    (motive := fun search => ∃ expanded, Searching story spec digest expanded search)
    (fun ⟨_, searching⟩ turned => searching.turn injective turned) ⟨[], start⟩ done
  refine ⟨?_, searched⟩
  unfold Story.turn at stops
  split at stops
  · assumption
  · simp only at stops
    split at stops
    · cases stops
    · split at stops
      · cases stops
      · simp only [Except.map] at stops
        split at stops <;> cases stops

end

end NovelStudio.Story
