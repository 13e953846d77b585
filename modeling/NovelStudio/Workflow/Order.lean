import NovelStudio.Library.Dict
import NovelStudio.Library.Topological

/-! The order in which the nodes of a workflow run (`V1CapabilityService._workflow_order`). -/

namespace NovelStudio.Workflow

open Library

/-- An edge names the node that must succeed first and the node that waits for it. -/
abbrev Edge := String × String

/-- The tables built from the edges: each distinct edge once, the targets of each
node in edge order, and the number of edges into each node. -/
structure Links where
  seen : List Edge
  outgoing : Dict String (List String)
  indegree : Dict String Int

def Links.init (ids : List String) : Links where
  seen := []
  outgoing := ids.foldl (fun table nodeId => table.set nodeId []) ∅
  indegree := ids.foldl (fun table nodeId => table.set nodeId 0) ∅

/-- One turn of the loop over the edges; a repeated edge is skipped. -/
def Links.add (ids : List String) (links : Links) (edge : Edge) : Except String Links :=
  if edge.1 ∉ ids ∨ edge.2 ∉ ids then .error "workflow edge references an unknown node"
  else if edge.1 = edge.2 then .error "workflow node cannot depend on itself"
  else if edge ∈ links.seen then .ok links
  else .ok {
    seen := links.seen ++ [edge]
    outgoing := links.outgoing.set edge.1 ((links.outgoing.get? edge.1).getD [] ++ [edge.2])
    indegree := links.indegree.set edge.2 ((links.indegree.get? edge.2).getD 0 + 1) }

/-- The inner loop: one edge less into each target; a target with none left is ready. -/
def release (indegree : Dict String Int) (ready : List String) : List String → Dict String Int × List String
  | [] => (indegree, ready)
  | target :: rest =>
    let degree := (indegree.get? target).getD 0 - 1
    release (indegree.set target degree) (if degree = 0 then ready ++ [target] else ready) rest

/-- The loop over the ready nodes. Every turn takes one node, so as many turns as
there are nodes empty the ready list. -/
def drain (outgoing : Dict String (List String)) : Nat → Dict String Int → List String → List String → List String
  | turns + 1, indegree, nodeId :: ready, order =>
    let (indegree, ready) := release indegree ready ((outgoing.get? nodeId).getD [])
    drain outgoing turns indegree ready (order ++ [nodeId])
  | _, _, _, order => order

def workflowOrder (ids : List String) (edges : List Edge) : Except String (List String) :=
  if ¬ ids.Nodup then .error "workflow node ids must be unique"
  else
    match edges.foldlM (Links.add ids) (Links.init ids) with
    | .error message => .error message
    | .ok links =>
      let ready := ids.filter fun nodeId => (links.indegree.get? nodeId).getD 0 = 0
      let order := drain links.outgoing ids.length links.indegree ready []
      if order.length ≠ ids.length then .error "workflow graph must be acyclic" else .ok order

/-- The tables count and list exactly the distinct edges seen. -/
structure Links.Sound (ids : List String) (links : Links) : Prop where
  distinct : links.seen.Nodup
  known : ∀ {edge}, edge ∈ links.seen → edge.1 ∈ ids ∧ edge.2 ∈ ids
  targets : ∀ {nodeId}, nodeId ∈ ids →
    links.outgoing.get? nodeId = some ((links.seen.filter fun edge => edge.1 = nodeId).map Prod.snd)
  degrees : ∀ {nodeId}, nodeId ∈ ids →
    links.indegree.get? nodeId = some ((links.seen.countP fun edge => edge.2 = nodeId : Nat) : Int)

theorem Links.sound_init (ids : List String) : (Links.init ids).Sound ids where
  distinct := List.nodup_nil
  known := by simp [Links.init]
  targets member := by
    have filled := Dict.get?_foldl_set (fun nodeId : String => nodeId) ([] : List String) ids ∅
    simp [Links.init, filled, member]
  degrees member := by
    have filled := Dict.get?_foldl_set (fun nodeId : String => nodeId) (0 : Int) ids ∅
    simp [Links.init, filled, member]

variable {links : Links}

theorem Links.Sound.add {next : Links} (sound : links.Sound ids) (added : links.add ids edge = .ok next) :
    next.Sound ids ∧ ∀ {other}, other ∈ next.seen ↔ other ∈ links.seen ∨ other = edge := by
  unfold Links.add at added
  split at added
  · cases added
  rename_i known
  rw [not_or, not_not, not_not] at known
  split at added
  · cases added
  split at added
  · rename_i repeated
    cases added
    refine ⟨sound, fun {other} => ⟨.inl, ?_⟩⟩
    rintro (seen | rfl)
    · exact seen
    · exact repeated
  rename_i fresh
  cases added
  refine ⟨⟨?_, ?_, ?_, ?_⟩, by simp⟩
  · exact List.nodup_append.mpr ⟨sound.distinct, List.nodup_singleton _, by
      rintro first seen second single rfl
      exact fresh (List.mem_singleton.mp single ▸ seen)⟩
  · intro other seen
    rcases List.mem_append.mp seen with old | new
    · exact sound.known old
    · exact List.mem_singleton.mp new ▸ known
  · intro nodeId member
    rw [Dict.get?_set, List.filter_append, List.map_append]
    by_cases same : nodeId = edge.1
    · subst same
      simp [sound.targets member]
    · rw [if_neg same, sound.targets member]
      simp [Ne.symm same]
  · intro nodeId member
    rw [Dict.get?_set, List.countP_append, List.countP_singleton]
    by_cases same : nodeId = edge.2
    · subst same
      simp [sound.degrees member]
    · rw [if_neg same, sound.degrees member]
      simp [Ne.symm same]

theorem Links.sound_of_edges {edges : List Edge} {final : Links} (sound : links.Sound ids)
    (built : edges.foldlM (Links.add ids) links = .ok final) :
    final.Sound ids ∧ ∀ {edge}, edge ∈ final.seen ↔ edge ∈ links.seen ∨ edge ∈ edges := by
  induction edges generalizing links with
  | nil =>
    cases built
    exact ⟨sound, by simp⟩
  | cons edge rest ih =>
    rw [List.foldlM_cons] at built
    cases added : links.add ids edge with
    | error message =>
      rw [added] at built
      cases built
    | ok next =>
      rw [added] at built
      obtain ⟨nextSound, nextSeen⟩ := sound.add added
      obtain ⟨finalSound, finalSeen⟩ := ih nextSound built
      refine ⟨finalSound, fun {other} => ?_⟩
      rw [finalSeen, nextSeen, List.mem_cons, or_assoc]

/-- What the inner loop does to distinct targets: it lowers each once and appends
those that had one edge left. -/
theorem release_spec {indegree : Dict String Int} (ready : List String) (distinct : targets.Nodup)
    (tracked : ∀ target ∈ targets, ∃ degree, indegree.get? target = some degree) :
    (∀ nodeId, (release indegree ready targets).1.get? nodeId =
      (indegree.get? nodeId).map fun degree => if nodeId ∈ targets then degree - 1 else degree) ∧
    (release indegree ready targets).2 = ready ++ targets.filter fun target => indegree.get? target = some 1 := by
  induction targets generalizing indegree ready with
  | nil => simp [release]
  | cons target rest ih =>
    obtain ⟨absent, restDistinct⟩ := List.nodup_cons.mp distinct
    obtain ⟨degree, found⟩ := tracked target (List.mem_cons_self ..)
    have restTracked : ∀ other ∈ rest, ∃ degree',
        (indegree.set target (degree - 1)).get? other = some degree' := by
      intro other member
      have different : other ≠ target := by rintro rfl; exact absent member
      obtain ⟨degree', found'⟩ := tracked other (List.mem_cons_of_mem _ member)
      exact ⟨degree', by rw [Dict.get?_set_ne _ _ different, found']⟩
    obtain ⟨degrees, appended⟩ :=
      ih (if degree - 1 = 0 then ready ++ [target] else ready) restDistinct restTracked
    simp only [release, found, Option.getD_some]
    refine ⟨fun nodeId => ?_, ?_⟩
    · rw [degrees, Dict.get?_set]
      by_cases same : nodeId = target
      · subst same
        simp [absent, found]
      · simp [same]
    · rw [appended, List.filter_cons]
      have unchanged : (rest.filter fun other => (indegree.set target (degree - 1)).get? other = some 1) =
          rest.filter fun other => indegree.get? other = some 1 := by
        refine List.filter_congr fun other member => ?_
        have different : other ≠ target := by rintro rfl; exact absent member
        rw [Dict.get?_set_ne _ _ different]
      rw [unchanged]
      by_cases last : degree = 1
      · simp [last, found]
      · have more : degree - 1 ≠ 0 := by omega
        simp [last, more, found]

/-- The edges into a node whose source is not yet in the order. -/
def waiting (seen : List Edge) (order : List String) (nodeId : String) : Nat :=
  seen.countP fun edge => edge.2 = nodeId ∧ edge.1 ∉ order

/-- What holds at the head of the loop over the ready nodes. -/
structure Draining (ids : List String) (seen : List Edge) (indegree : Dict String Int)
    (ready order : List String) : Prop where
  distinct : (order ++ ready).Nodup
  known : ∀ {nodeId}, nodeId ∈ order ++ ready → nodeId ∈ ids
  degrees : ∀ {nodeId}, nodeId ∈ ids → indegree.get? nodeId = some (waiting seen order nodeId : Int)
  free : ∀ {nodeId}, nodeId ∈ ids → (waiting seen order nodeId = 0 ↔ nodeId ∈ order ++ ready)
  respects : Respects seen order

theorem waiting_snoc {seen : List Edge} (distinct : seen.Nodup) (fresh : nodeId ∉ order) (target : String) :
    waiting seen order target =
      waiting seen (order ++ [nodeId]) target + if (nodeId, target) ∈ seen then 1 else 0 := by
  induction seen with
  | nil => simp [waiting]
  | cons edge rest ih =>
    obtain ⟨absent, restDistinct⟩ := List.nodup_cons.mp distinct
    have counted := ih restDistinct
    obtain ⟨source, last⟩ := edge
    simp only [waiting, List.countP_cons] at counted ⊢
    rw [counted]
    by_cases same : (nodeId, target) = (source, last)
    · cases same
      simp [absent, fresh]
    · have other : ((nodeId, target) ∈ (source, last) :: rest) = ((nodeId, target) ∈ rest) := by
        simp only [List.mem_cons, same, false_or]
      simp only [other]
      by_cases into : last = target
      · have different : source ≠ nodeId := by rintro rfl; exact same (by rw [into])
        simp [into, different]
        omega
      · simp [into]

theorem Draining.step (sound : links.Sound ids)
    (draining : Draining ids links.seen indegree (nodeId :: ready) order) :
    Draining ids links.seen (release indegree ready ((links.outgoing.get? nodeId).getD [])).1
      (release indegree ready ((links.outgoing.get? nodeId).getD [])).2 (order ++ [nodeId]) := by
  have here : nodeId ∈ ids := draining.known (by simp)
  have fresh : nodeId ∉ order := by
    intro member
    exact (List.nodup_append.mp draining.distinct).2.2 nodeId member nodeId (List.mem_cons_self ..) rfl
  have waits := waiting_snoc sound.distinct fresh
  rw [sound.targets here, Option.getD_some]
  generalize listed : (links.seen.filter fun edge => edge.1 = nodeId).map Prod.snd = targets
  have mem_targets {target} : target ∈ targets ↔ (nodeId, target) ∈ links.seen := by
    subst listed
    simp
  have distinct : targets.Nodup := by
    subst listed
    refine List.Nodup.map_on ?_ (sound.distinct.filter _)
    rintro ⟨source, target⟩ first ⟨source', target'⟩ second same
    simp only [List.mem_filter, decide_eq_true_eq] at first second
    rw [first.2, second.2, show target = target' from same]
  have tracked : ∀ target ∈ targets, ∃ degree, indegree.get? target = some degree :=
    fun target member => ⟨_, draining.degrees (sound.known (mem_targets.mp member)).2⟩
  obtain ⟨degrees, appended⟩ := release_spec ready distinct tracked
  rw [appended]
  have unlocked {target} : target ∈ targets.filter (fun target => indegree.get? target = some 1) ↔
      (nodeId, target) ∈ links.seen ∧ waiting links.seen order target = 1 := by
    rw [List.mem_filter, mem_targets]
    refine and_congr_right fun edge => ?_
    rw [draining.degrees (sound.known edge).2]
    simp only [Option.some.injEq, decide_eq_true_eq]
    omega
  constructor
  · rw [← List.append_assoc, List.append_assoc order]
    refine List.nodup_append.mpr ⟨by simpa using draining.distinct, distinct.filter _, ?_⟩
    rintro target old _ new rfl
    have blocked := (unlocked.mp new).2
    have none := (draining.free (draining.known (by simpa using old))).mpr (by simpa using old)
    omega
  · intro target member
    rw [← List.append_assoc, List.append_assoc order, List.mem_append] at member
    rcases member with old | new
    · exact draining.known (by simpa using old)
    · exact (sound.known (unlocked.mp new).1).2
  · intro target member
    rw [degrees, draining.degrees member, Option.map_some]
    have count := waits target
    simp only [mem_targets]
    split
    · rename_i edge
      rw [if_pos edge] at count
      rw [count]
      simp
    · rename_i noEdge
      rw [if_neg noEdge] at count
      rw [count]
      simp
  · intro target member
    rw [← List.append_assoc, List.append_assoc order, List.mem_append, unlocked]
    have before : target ∈ order ++ ([nodeId] ++ ready) ↔ waiting links.seen order target = 0 :=
      (draining.free member).symm
    rw [before]
    have count := waits target
    by_cases edge : (nodeId, target) ∈ links.seen
    · rw [if_pos edge] at count
      simp only [edge, true_and]
      omega
    · rw [if_neg edge] at count
      simp only [edge, false_and, or_false]
      omega
  · refine draining.respects.snoc fun {source} edge => ?_
    by_contra missing
    have none := (draining.free here).mpr (by simp)
    rw [waiting, List.countP_eq_zero] at none
    exact none _ edge (by simp [missing])

theorem drain_spec (sound : links.Sound ids) (turns : Nat)
    (draining : Draining ids links.seen indegree ready order) :
    (drain links.outgoing turns indegree ready order).Nodup ∧
    (∀ nodeId ∈ drain links.outgoing turns indegree ready order, nodeId ∈ ids) ∧
    Respects links.seen (drain links.outgoing turns indegree ready order) := by
  have stopped : order.Nodup ∧ (∀ nodeId ∈ order, nodeId ∈ ids) ∧ Respects links.seen order :=
    ⟨(List.nodup_append.mp draining.distinct).1, fun nodeId member =>
      draining.known (List.mem_append_left _ member), draining.respects⟩
  induction turns generalizing indegree ready order with
  | zero => exact stopped
  | succ turns ih =>
    cases ready with
    | nil => exact stopped
    | cons nodeId ready =>
      have next := draining.step sound
      exact ih next ⟨(List.nodup_append.mp next.distinct).1, fun nodeId member =>
        next.known (List.mem_append_left _ member), next.respects⟩

theorem drain_complete (sound : links.Sound ids) (turns : Nat)
    (draining : Draining ids links.seen indegree ready order) (enough : ids.length ≤ order.length + turns) :
    ∀ nodeId ∈ ids, waiting links.seen (drain links.outgoing turns indegree ready order) nodeId = 0 →
      nodeId ∈ drain links.outgoing turns indegree ready order := by
  induction turns generalizing indegree ready order with
  | zero =>
    have room : (order ++ ready).length ≤ ids.length :=
      (List.subperm_of_subset draining.distinct fun _ member => draining.known member).length_le
    have empty : ready = [] := List.length_eq_zero_iff.mp (by rw [List.length_append] at room; omega)
    intro nodeId member none
    have there := (draining.free member).mp none
    rwa [empty, List.append_nil] at there
  | succ turns ih =>
    cases ready with
    | nil =>
      intro nodeId member none
      have there := (draining.free member).mp none
      rwa [List.append_nil] at there
    | cons nodeId ready =>
      have longer : ids.length ≤ (order ++ [nodeId]).length + turns := by
        rw [List.length_append, List.length_singleton]
        omega
      exact ih (draining.step sound) longer

theorem draining_init (sound : links.Sound ids) (distinct : ids.Nodup) :
    Draining ids links.seen links.indegree (ids.filter fun nodeId => (links.indegree.get? nodeId).getD 0 = 0) [] := by
  have all (nodeId : String) : waiting links.seen [] nodeId = links.seen.countP fun edge => edge.2 = nodeId := by
    simp [waiting]
  refine ⟨by simpa using distinct.filter _, fun member => ?_, fun member => ?_, fun {nodeId} member => ?_,
    respects_nil _⟩
  · rw [List.nil_append] at member
    exact (List.mem_filter.mp member).1
  · rw [all, sound.degrees member]
  · rw [all, List.nil_append, List.mem_filter, sound.degrees member, Option.getD_some]
    simp [member]

theorem workflowOrder_spec (accepted : workflowOrder ids edges = .ok order) :
    ids.Nodup ∧ order.Perm ids ∧ Respects edges order ∧ ∀ edge ∈ edges, edge.1 ∈ ids ∧ edge.2 ∈ ids := by
  unfold workflowOrder at accepted
  split at accepted
  · cases accepted
  rename_i distinct
  rw [not_not] at distinct
  split at accepted
  · cases accepted
  rename_i links built
  obtain ⟨sound, seen⟩ := Links.sound_of_edges (Links.sound_init ids) built
  have inSeen : ∀ {edge}, edge ∈ edges → edge ∈ links.seen := fun member => seen.mpr (.inr member)
  obtain ⟨once, known, respects⟩ := drain_spec sound ids.length (draining_init sound distinct)
  simp only at accepted
  split at accepted
  · cases accepted
  rename_i complete
  cases accepted
  rw [not_not] at complete
  exact ⟨distinct, (List.subperm_of_subset once known).perm_of_length_le (Nat.le_of_eq complete.symm),
    respects.of_subset inSeen, fun edge member => sound.known (inSeen member)⟩

theorem links_built {edges : List Edge} (links : Links)
    (known : ∀ edge ∈ edges, edge.1 ∈ ids ∧ edge.2 ∈ ids ∧ edge.1 ≠ edge.2) :
    ∃ final, edges.foldlM (Links.add ids) links = .ok final := by
  induction edges generalizing links with
  | nil => exact ⟨links, rfl⟩
  | cons edge rest ih =>
    obtain ⟨source, target, different⟩ := known edge (List.mem_cons_self ..)
    have added : ∃ next, links.add ids edge = .ok next := by
      unfold Links.add
      rw [if_neg (by simp [source, target]), if_neg different]
      split
      · exact ⟨_, rfl⟩
      · exact ⟨_, rfl⟩
    obtain ⟨next, added⟩ := added
    obtain ⟨final, built⟩ := ih next fun other member => known other (List.mem_cons_of_mem _ member)
    refine ⟨final, ?_⟩
    rw [List.foldlM_cons, added]
    exact built

theorem drain_all (sound : links.Sound ids) (distinct : ids.Nodup) (acyclic : Acyclic links.seen) :
    ∀ nodeId ∈ ids, nodeId ∈ drain links.outgoing ids.length links.indegree
      (ids.filter fun nodeId => (links.indegree.get? nodeId).getD 0 = 0) [] := by
  have draining := draining_init sound distinct
  have complete := drain_complete sound ids.length draining (by simp)
  generalize drain links.outgoing ids.length links.indegree _ [] = order at complete ⊢
  intro nodeId member
  by_contra missing
  -- among the nodes left out there is one that waits for none of them, and so for nothing
  have left : nodeId ∈ ids.filter fun nodeId => nodeId ∉ order := List.mem_filter.mpr ⟨member, by simpa using missing⟩
  obtain ⟨first, out, least⟩ := acyclic.exists_first left
  obtain ⟨here, unordered⟩ := List.mem_filter.mp out
  refine absurd (complete first here ?_) (by simpa using unordered)
  rw [waiting, List.countP_eq_zero]
  intro edge seen waits
  obtain ⟨into, late⟩ := of_decide_eq_true waits
  have behind : edge.1 ∈ ids.filter fun nodeId => nodeId ∉ order :=
    List.mem_filter.mpr ⟨(sound.known seen).1, by simpa using late⟩
  exact least edge.1 behind (by rw [← into]; exact seen)

theorem workflowOrder_ok_iff : (∃ order, workflowOrder ids edges = .ok order) ↔
    ids.Nodup ∧ (∀ edge ∈ edges, edge.1 ∈ ids ∧ edge.2 ∈ ids) ∧ Acyclic edges := by
  constructor
  · intro ⟨order, accepted⟩
    obtain ⟨distinct, perm, respects, known⟩ := workflowOrder_spec accepted
    refine ⟨distinct, known, respects.acyclic (perm.nodup_iff.mpr distinct) ?_⟩
    intro edge member
    exact perm.mem_iff.mpr (known edge member).2
  · intro ⟨distinct, known, acyclic⟩
    have different : ∀ edge ∈ edges, edge.1 ∈ ids ∧ edge.2 ∈ ids ∧ edge.1 ≠ edge.2 := by
      intro edge member
      refine ⟨(known edge member).1, (known edge member).2, ?_⟩
      intro loop
      have self : (edge.1, edge.1) ∈ edges := by
        nth_rewrite 2 [loop]
        exact member
      exact acyclic edge.1 (.single self)
    obtain ⟨links, built⟩ := links_built (Links.init ids) different
    obtain ⟨sound, seen⟩ := Links.sound_of_edges (Links.sound_init ids) built
    have sub : ∀ {edge}, edge ∈ links.seen → edge ∈ edges := by
      intro edge member
      rcases seen.mp member with none | given
      · simp [Links.init] at none
      · exact given
    have all := drain_all sound distinct (acyclic.of_subset sub)
    have fits := (List.subperm_of_subset distinct all).length_le
    obtain ⟨once, inside, _⟩ := drain_spec sound ids.length (draining_init sound distinct)
    have few := (List.subperm_of_subset once inside).length_le
    unfold workflowOrder
    rw [if_neg (not_not.mpr distinct), built]
    exact ⟨_, if_neg (not_not.mpr (Nat.le_antisymm few fits))⟩

end NovelStudio.Workflow
