import NovelStudio.Story.Searched

/-! What `analyze` promises of a story that can be reviewed holds of every play of it. -/

namespace NovelStudio.Story

open Library

/-- A path whose choices are offered, as enabled, by the states that play shows before them. -/
inductive Offered (astParse : AstParse) (spec : StorySpec) : List String → Prop where
  | start : Offered astParse spec []
  | choose (before : Offered astParse spec path) (shown : play astParse spec path = .ok state)
      (offered : offer ∈ state.choices) (enabled : offer.enabled.truthy = true) : Offered astParse spec (path ++ [offer.id])

theorem variableTable_mem {spec : StorySpec} (member : var ∈ spec.vars) : spec.variableTable.get? var.name = some var := by
  rw [StorySpec.variableTable, get?_keyed _ _ spec.uniqueVariables, Option.map_id, id]
  cases found : spec.vars.find? fun other => decide (other.name = var.name) with
  | none =>
    rw [List.find?_eq_none] at found
    exact absurd (decide_eq_true rfl) (found var member)
  | some other =>
    have same : other.name = var.name := by simpa using List.find?_some found
    rw [List.inj_on_of_nodup_map spec.uniqueVariables (List.mem_of_find?_eq_some found) member same]

theorem Sound.condition_ok (sound : Sound vars story) (found : story.nodes.get? nid = some node) (typed : WellTyped vars values)
    (member : choice ∈ node.choices) : ∃ value, condition story nid values choice = .ok value := by
  obtain ⟨tree, stored, checked⟩ := sound.choices found choice member
  obtain ⟨value, evaluated, _⟩ := interpret_typed typed checked.condition
  refine ⟨value, ?_⟩
  simp only [condition, bind_ok, fetch_ok]
  exact ⟨tree, stored, evaluated⟩

theorem offers_ok (evaluates : ∀ choice ∈ choices, ∃ value, condition story nid values choice = .ok value) :
    ∃ shown, offers story nid values choices = .ok shown := by
  induction choices with
  | nil => exact ⟨[], rfl⟩
  | cons first rest ih =>
    obtain ⟨value, evaluated⟩ := evaluates first (List.mem_cons_self ..)
    obtain ⟨others, later⟩ := ih fun choice member => evaluates choice (List.mem_cons_of_mem _ member)
    exact ⟨⟨first.id, first.label, value⟩ :: others, by simp [offers, evaluated, later, bind, Except.bind, pure, Except.pure]⟩

theorem mem_offers (done : offers story nid values choices = .ok shown) :
    ∀ offer, offer ∈ shown ↔ ∃ choice ∈ choices, ∃ value,
      condition story nid values choice = .ok value ∧ offer = ⟨choice.id, choice.label, value⟩ := by
  induction choices generalizing shown with
  | nil =>
    cases done
    simp
  | cons first rest ih =>
    simp only [offers, bind_ok, pure_ok] at done
    obtain ⟨value, evaluated, others, later, rfl⟩ := done
    intro offer
    rw [List.mem_cons, ih later]
    constructor
    · rintro (rfl | ⟨choice, member, more⟩)
      · exact ⟨first, List.mem_cons_self .., value, evaluated, rfl⟩
      · exact ⟨choice, List.mem_cons_of_mem _ member, more⟩
    · rintro ⟨choice, member, other, again, rfl⟩
      rcases List.mem_cons.mp member with rfl | member
      · cases evaluated.symm.trans again
        exact .inl rfl
      · exact .inr ⟨choice, member, other, again, rfl⟩

theorem Sound.moves (sound : Sound vars story) (typed : WellTyped vars state.2) (moves : Moves story state next) :
    next.1 ∈ story.nodes.keys ∧ WellTyped vars next.2 := by
  cases moves with
  | choose found open' member evaluated available =>
    obtain ⟨tree, _, checked⟩ := sound.choices found _ member
    exact ⟨checked.target, typed.update checked.assignments⟩

theorem Alike.alive (alike : Alike state other) (alive : Alive story other) : Alive story state := by
  obtain ⟨nid, values⟩ := state
  obtain ⟨rfl, same⟩ := alike
  obtain ⟨node, found, available⟩ := alive
  refine ⟨node, found, fun open' => ?_⟩
  obtain ⟨choice, member, value, evaluated, truthy⟩ := available open'
  exact ⟨choice, member, value, (condition_congr same story other.1 choice).trans evaluated, truthy⟩

theorem play_ok (compiles : compileStory astParse spec = .ok story) : play astParse spec path = .ok shown ↔
    story.issues = [] ∧ path.length ≤ spec.maxSteps ∧
      ∃ state, playPath story spec path = .ok state ∧ present story spec path state = .ok shown := by
  simp only [play, compiles, bind_ok, reject_ok, Except.ok.injEq, decide_not, Bool.not_eq_false', decide_eq_true_eq,
    decide_eq_false_iff_not, Nat.not_lt]
  constructor
  · rintro ⟨_, rfl, _, none, _, within, state, played, shown⟩
    exact ⟨none, within, state, played, shown⟩
  · rintro ⟨none, within, state, played, shown⟩
    exact ⟨story, rfl, (), none, (), within, state, played, shown⟩

theorem present_ok (spec : StorySpec) (path : List String) {values : Values}
    (found : story.nodes.get? nid = some node)
    (evaluates : ∀ choice ∈ node.choices, ∃ value, condition story nid values choice = .ok value) :
    ∃ choices, offers story nid values node.choices = .ok choices ∧
      present story spec path (nid, values) = .ok ⟨node, choices, values, path.length, spec.maxSteps,
        statusOf spec node path choices, path⟩ := by
  obtain ⟨choices, shown⟩ := offers_ok evaluates
  refine ⟨choices, shown, ?_⟩
  simp only [present, bind_ok, fetch_ok, pure_ok]
  exact ⟨node, found, choices, shown, rfl⟩

theorem present_fields (shown : present story spec path state = .ok after) :
    ∃ node, story.nodes.get? state.1 = some node ∧ offers story state.1 state.2 node.choices = .ok after.choices := by
  simp only [present, bind_ok, fetch_ok, pure_ok] at shown
  obtain ⟨node, found, choices, offered, rfl⟩ := shown
  exact ⟨node, found, offered⟩

theorem Alive.statusOf (alive : Alive story (nid, values)) (found : story.nodes.get? nid = some node)
    (shown : offers story nid values node.choices = .ok choices) : statusOf spec node path choices ≠ .noExit := by
  obtain ⟨other, again, available⟩ := alive
  cases found.symm.trans again
  unfold Story.statusOf
  split
  · nofun
  · rename_i open'
    split
    · nofun
    · obtain ⟨choice, member, value, evaluated, truthy⟩ := available (by simpa using open')
      have offered := (mem_offers shown _).mpr ⟨choice, member, value, evaluated, rfl⟩
      have some : (choices.any fun offer => offer.enabled.truthy) = true := List.any_eq_true.mpr ⟨_, offered, truthy⟩
      simp [some]

/-- What is known of the state that an offered path leads to. -/
structure Known (story : Compiled) (spec : StorySpec) (expanded : List (String × Values)) (state : String × Values) : Prop where
  node : state.1 ∈ story.nodes.keys
  typed : WellTyped spec.variableTable state.2
  like : ∃ other ∈ expanded, Alike state other

section

variable {story : Compiled} {spec : StorySpec} {expanded : List (String × Values)}

theorem Known.start (table : story.nodes = spec.nodeTable) (covered : Covered Alike expanded [] (spec.entryNodeId, spec.initial)) :
    Known story spec expanded (spec.entryNodeId, spec.initial) := by
  refine ⟨?_, initial_wellTyped spec, by simpa [Covered] using covered⟩
  obtain ⟨node, member, same⟩ := List.mem_map.mp spec.entry
  obtain ⟨stored, found⟩ := nodeTable_mem member
  rw [table, Dict.mem_keys_iff]
  exact ⟨stored, same ▸ found⟩

theorem Known.moves (sound : Sound spec.variableTable story) (closed : Closed (Moves story) Alike expanded [])
    (known : Known story spec expanded state) (moves : Moves story state next) : Known story spec expanded next := by
  obtain ⟨node, typed⟩ := sound.moves known.typed moves
  exact ⟨node, typed, closed.follows Alike.trans Alike.moves known.like moves⟩

theorem Known.shown (path : List String) (sound : Sound spec.variableTable story) (alive : ∀ state ∈ expanded, Alive story state)
    (known : Known story spec expanded state) :
    ∃ after, present story spec path state = .ok after ∧ after.status ≠ .noExit ∧ after.vars = state.2 := by
  obtain ⟨nid, values⟩ := state
  obtain ⟨node, found⟩ := Dict.mem_keys_iff.mp known.node
  obtain ⟨choices, offered, shown⟩ :=
    present_ok spec path found fun choice member => sound.condition_ok found known.typed member
  obtain ⟨other, member, alike⟩ := known.like
  exact ⟨_, shown, (alike.alive (alive other member)).statusOf found offered, rfl⟩

theorem offered_step {offer : Offer} (shown : present story spec path state = .ok after) (offered : offer ∈ after.choices) (enabled : offer.enabled.truthy = true) :
    ∃ next, playStep story state offer.id = .ok next ∧ Moves story state next := by
  obtain ⟨node, found, offers⟩ := present_fields shown
  obtain ⟨choice, member, value, evaluated, rfl⟩ := (mem_offers offers offer).mp offered
  have open' : node.ending = "" := by
    by_contra ending
    rw [node.closed ending] at member
    cases member
  exact ⟨_, playStep_moves found open' member evaluated enabled, .choose found open' member evaluated enabled⟩

theorem Offered.known (compiles : compileStory astParse spec = .ok story) (sound : Sound spec.variableTable story)
    (start : Known story spec expanded (spec.entryNodeId, spec.initial)) (closed : Closed (Moves story) Alike expanded [])
    (offered : Offered astParse spec path) : ∃ state, playPath story spec path = .ok state ∧ Known story spec expanded state := by
  induction offered with
  | start => exact ⟨_, rfl, start⟩
  | choose _ shown member enabled ih =>
    obtain ⟨state, played, known⟩ := ih
    obtain ⟨_, _, other, again, presented⟩ := (play_ok compiles).mp shown
    cases played.symm.trans again
    obtain ⟨next, stepped, moves⟩ := offered_step presented member enabled
    exact ⟨next, playPath_snoc.mpr ⟨state, played, stepped⟩, known.moves sound closed moves⟩

end

section

variable {Key : Type} [DecidableEq Key] {astParse : AstParse} {digest : StateDigest Key} {spec : StorySpec}

theorem analyze_search (analyzed : analyze astParse digest spec = .ok report) :
    ∃ story before search, compileStory astParse spec = .ok story ∧ searchOf story digest spec before = .ok search ∧
      (before = [] → story.issues = []) ∧ report.endings = search.witnesses.values ∧
      (report.canReview = true → before = [] ∧ search.dead = [] ∧ search.truncated = false ∧ search.stepLimited = false) := by
  simp only [analyze, bind_ok, pure_ok] at analyzed
  obtain ⟨story, compiles, search, searched, rfl⟩ := analyzed
  refine ⟨story, _, search, compiles, searched, fun none => (List.append_eq_nil_iff.mp none).1, rfl, fun reviewable => ?_⟩
  simp only [decide_eq_true_eq, List.append_eq_nil_iff] at reviewable
  obtain ⟨⟨⟨before, dead⟩, _⟩, whole, within⟩ := reviewable
  refine ⟨List.append_eq_nil_iff.mpr before, ?_, whole, within⟩
  simpa using dead

/-- Every offered path of a story that can be reviewed is played, to a state with an exit
and with values that fit. -/
theorem reviewed_play (injective : ∀ n v n' v', digest n v = digest n' v' → n = n' ∧ SameValues v v')
    (analyzed : analyze astParse digest spec = .ok report) (reviewable : report.canReview = true)
    (offered : Offered astParse spec path) (short : path.length ≤ spec.maxSteps) :
    ∃ state, play astParse spec path = .ok state ∧ state.status ≠ .noExit ∧ WellTyped spec.variableTable state.vars := by
  obtain ⟨story, before, search, compiles, searched, clean, _, whole⟩ := analyze_search analyzed
  obtain ⟨none, dead, complete, within⟩ := whole reviewable
  rw [searchOf, if_pos none] at searched
  obtain ⟨empty, expanded, searching⟩ := explore_searched injective searched
  obtain ⟨table, sound⟩ := compileStory_sound compiles
  have closed := searching.closed complete within
  have covered := searching.covered complete
  rw [empty] at closed covered
  have sound := sound (clean none)
  obtain ⟨state, played, known⟩ := offered.known compiles sound (.start table covered) closed
  obtain ⟨after, shown, exits, same⟩ := known.shown path sound (searching.alive dead)
  exact ⟨after, (play_ok compiles).mpr ⟨clean none, short, state, played, shown⟩, exits, same ▸ known.typed⟩

theorem witness_play (injective : ∀ n v n' v', digest n v = digest n' v' → n = n' ∧ SameValues v v')
    (analyzed : analyze astParse digest spec = .ok report) (listed : witness ∈ report.endings) :
    ∃ state, play astParse spec witness.choices = .ok state ∧ state.status = .ending ∧
      state.node.nodeId = witness.nodeId ∧ state.node.ending = witness.ending := by
  obtain ⟨story, before, search, compiles, searched, clean, endings, _⟩ := analyze_search analyzed
  rw [endings] at listed
  unfold searchOf at searched
  split at searched
  · rename_i none
    obtain ⟨_, expanded, searching⟩ := explore_searched injective searched
    obtain ⟨short, values, node, played, found, same, ending⟩ := searching.witnesses witness listed
    obtain ⟨table, _⟩ := compileStory_sound compiles
    have evaluates : ∀ choice ∈ node.choices, ∃ value, condition story witness.nodeId values choice = .ok value :=
      fun choice member => by simp [node.closed ending] at member
    obtain ⟨choices, _, shown⟩ := present_ok spec witness.choices found evaluates
    refine ⟨_, (play_ok compiles).mpr ⟨clean none, short, _, played, shown⟩, ?_, ?_, same⟩
    · simp [statusOf, ending]
    · rw [table] at found
      exact (nodeTable_found found).2
  · cases searched
    cases listed

/-- Analysis is sound for play: a path that is offered step by step is accepted, never ends
without an exit, and leaves every variable with a value of its type, an integer within its
bounds; and every ending that is reported is reached by its choices. -/
theorem analysis_sound (injective : ∀ n v n' v', digest n v = digest n' v' → n = n' ∧ SameValues v v')
    (analyzed : analyze astParse digest spec = .ok report) :
    (report.canReview = true → ∀ path, Offered astParse spec path → path.length ≤ spec.maxSteps →
      ∃ state, play astParse spec path = .ok state ∧ state.status ≠ .noExit ∧
        ∀ var ∈ spec.vars, ∃ value, state.vars.get? var.name = some value ∧ value.kind = var.kind ∧
          (var.kind = .int → var.minimum ≤ value.number ∧ value.number ≤ var.maximum)) ∧
    ∀ witness ∈ report.endings, ∃ state, play astParse spec witness.choices = .ok state ∧ state.status = .ending ∧
      state.node.nodeId = witness.nodeId ∧ state.node.ending = witness.ending := by
  constructor
  · intro reviewable path offered short
    obtain ⟨state, played, exits, typed⟩ := reviewed_play injective analyzed reviewable offered short
    refine ⟨state, played, exits, fun var member => ?_⟩
    obtain ⟨value, found, fits⟩ := typed (variableTable_mem member)
    exact ⟨value, found, fits.kind, fits.bounds⟩
  · intro witness listed
    exact witness_play injective analyzed listed

end

def twoNodes : StorySpec where
  entryNodeId := "door"
  nodes := [⟨"door", "Door", "", "", [⟨"open", "Open", "hall", "", ⟨[("lit", .bool true)], by decide⟩⟩], by decide, by decide⟩,
    ⟨"hall", "Hall", "", "Home", [], by decide, by decide⟩]
  vars := [⟨"lit", .bool, .bool false, 5, 10, by decide, rfl, by decide⟩]
  maxSteps := 4
  uniqueNodes := by decide
  entry := by decide
  uniqueVariables := by decide

def noExpression : AstParse := fun _ => none

def twoNodesStory : Compiled :=
  ⟨twoNodes.nodeTable, (∅ : Dict (String × String) Tree).set ("door", "open") (.literal (.bool true)), []⟩

def lit (value : Bool) : Values := ⟨[("lit", .bool value)], by simp⟩

def hallEnding : Witness := ⟨"hall", "Home", ["open"]⟩

theorem twoNodes_searched : searchOf twoNodesStory Prod.mk twoNodes [] =
    .ok ⟨[], [("door", lit false), ("hall", lit true)], (∅ : Dict String Witness).set "hall" hallEnding, [], false, false⟩ := by
  have first : turn twoNodesStory Prod.mk 4 ⟨[⟨"door", lit false, []⟩], [], ∅, [], false, false⟩ =
      .ok (some ⟨[⟨"hall", lit true, ["open"]⟩], [("door", lit false)], ∅, [], false, false⟩) := rfl
  have second : turn twoNodesStory Prod.mk 4 ⟨[⟨"hall", lit true, ["open"]⟩], [("door", lit false)], ∅, [], false, false⟩ =
      .ok (some ⟨[], [("door", lit false), ("hall", lit true)], (∅ : Dict String Witness).set "hall" hallEnding, [], false, false⟩) := rfl
  rw [searchOf, if_pos rfl]
  exact (loop_turn first).trans ((loop_turn second).trans (loop_stop rfl))

theorem twoNodes_analyzed : ∃ report, analyze noExpression Prod.mk twoNodes = .ok report ∧ report.canReview = true := by
  have before : twoNodesStory.issues ++ (sorted ((walkFrom twoNodesStory.nodes "door").reachable.filter fun nid =>
      nid ∉ closeExits twoNodesStory.nodes.values twoNodesStory.nodes.values.length ["hall"])).map (atNode "NO_ENDING_PATH") = [] := by
    rw [show ((walkFrom twoNodesStory.nodes "door").reachable.filter fun nid =>
      nid ∉ closeExits twoNodesStory.nodes.values twoNodesStory.nodes.values.length ["hall"]) = [] from rfl]
    simp [sorted, twoNodesStory]
  simp only [analyze, bind_ok, pure_ok]
  refine ⟨_, ⟨twoNodesStory, rfl, _, (congrArg _ before).trans twoNodes_searched, rfl⟩, ?_⟩
  simp only [decide_eq_true_eq]
  refine ⟨?_, trivial, trivial⟩
  refine List.append_eq_nil_iff.mpr ⟨List.append_eq_nil_iff.mpr ⟨before, rfl⟩, if_neg ?_⟩
  exact fun empty => absurd empty.2 (by decide)

theorem mk_injective (n : String) (v : Values) (n' : String) (v' : Values) (same : (n, v) = (n', v')) : n = n' ∧ SameValues v v' := by
  obtain ⟨rfl, rfl⟩ := Prod.mk.inj same
  exact ⟨rfl, fun _ => rfl⟩

theorem open_offered : Offered noExpression twoNodes ["open"] := by
  have shown : ∃ state, play noExpression twoNodes [] = .ok state ∧ (⟨"open", "Open", .bool true⟩ : Offer) ∈ state.choices :=
    ⟨_, rfl, List.mem_singleton.mpr rfl⟩
  obtain ⟨state, shown, offered⟩ := shown
  exact .choose .start shown offered rfl

theorem open_played : ∃ report, analyze noExpression Prod.mk twoNodes = .ok report ∧ report.canReview = true ∧
    ∃ state, play noExpression twoNodes ["open"] = .ok state ∧ state.status ≠ .noExit ∧
      ∀ var ∈ twoNodes.vars, ∃ value, state.vars.get? var.name = some value ∧ value.kind = var.kind ∧
        (var.kind = .int → var.minimum ≤ value.number ∧ value.number ≤ var.maximum) := by
  obtain ⟨report, analyzed, reviewable⟩ := twoNodes_analyzed
  exact ⟨report, analyzed, reviewable, (analysis_sound mk_injective analyzed).1 reviewable _ open_offered (by decide)⟩

/-- The bounds of a truth value are not looked at. -/
theorem bool_bounds_ignored : ∃ report, analyze noExpression Prod.mk twoNodes = .ok report ∧ report.canReview = true ∧
    Offered noExpression twoNodes [] ∧ ∃ state, play noExpression twoNodes [] = .ok state ∧
      ∃ var ∈ twoNodes.vars, ∃ value, state.vars.get? var.name = some value ∧
        ¬(var.minimum ≤ value.number ∧ value.number ≤ var.maximum) := by
  obtain ⟨report, analyzed, reviewable⟩ := twoNodes_analyzed
  exact ⟨report, analyzed, reviewable, .start, _, rfl, _, List.mem_singleton.mpr rfl, .bool false, rfl, by decide⟩

end NovelStudio.Story
