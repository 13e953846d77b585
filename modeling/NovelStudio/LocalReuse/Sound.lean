import NovelStudio.Library.Readings
import NovelStudio.LocalReuse.Proof

/-! A result that is reused is the one that the run itself would compute. -/

namespace NovelStudio.LocalReuse

open Library Graphs Workflow

variable {V D : Type} {outside : Outside V D} {state : State V D} {row : Run V D} {source : StoredRun V D} {actor nodeId : String}
  {outputs : Dict String (Ports V)} {output : Ports V}

/-- The graph that a run was checked against: the run is a selection of its valid definition. -/
structure Selected (outside : Outside V D) (definition : Definition V) (row : Run V D) : Prop where
  eligible : eligible definition = true
  valid : validateGraph outside.size definition.toInput = .ok ()
  nodes : sameNodes outside row.typedNodes (definition.nodes.filter fun node => node.id ∈ row.selectedClosure) = true
  edges : row.typedEdges.Sublist definition.edges

theorem sameNodes_forall₂ {nodes others : List (Node V)} (same : sameNodes outside nodes others = true) :
    List.Forall₂ (fun node other => node.id = other.id ∧ node.definitionId = other.definitionId) nodes others := by
  fun_induction sameNodes outside nodes others with
  | case1 => exact List.Forall₂.nil
  | case2 node nodes other others ih =>
    obtain ⟨first, later⟩ := Bool.and_eq_true_iff.mp same
    simp only [Node.alike, Bool.and_eq_true, decide_eq_true_eq] at first
    exact List.Forall₂.cons ⟨first.1.1.1.1.1, first.1.1.1.1.2⟩ (ih later)
  | case3 => cases same

namespace Selected

variable {definition : Definition V}

theorem nodup (selected : Selected outside definition row) : (row.typedNodes.map Node.id).Nodup := by
  have same : row.typedNodes.map Node.id = (definition.nodes.filter fun node => node.id ∈ row.selectedClosure).map Node.id := by
    apply List.forall₂_eq_eq_eq ▸ List.forall₂_map_left_iff.mpr (List.forall₂_map_right_iff.mpr ?_)
    exact (sameNodes_forall₂ selected.nodes).imp fun _ _ alike => alike.1
  have ids : (definition.nodes.map Node.id).Nodup := by
    have distinct := (validateGraph_nodup selected.valid).1
    rw [GraphInput.nodeIds, Definition.toInput, List.map_map] at distinct
    exact distinct
  rw [same]
  exact ids.sublist (List.filter_sublist.map _)

theorem review (selected : Selected outside definition row) {node : Node V} (member : node ∈ row.reviews) : node.definitionId = .humanReview := by
  obtain ⟨listed, other⟩ := List.mem_filter.mp member
  obtain ⟨twin, inside, -, kind⟩ := exists_result_of_forall₂ (sameNodes_forall₂ selected.nodes) listed
  have kinds := (Bool.and_eq_true_iff.mp selected.eligible).2
  have allowed := List.all_eq_true.mp kinds twin (List.mem_filter.mp inside).1
  rw [← kind] at allowed
  simp only [decide_not, Bool.not_eq_true', decide_eq_false_iff_not, Bool.or_eq_true, decide_eq_true_eq] at other allowed
  exact allowed.resolve_left other

theorem ports (selected : Selected outside definition row) (nodeId : String) : ((row.links nodeId).map Link.targetPort).Nodup := by
  have targets : (row.typedEdges.map TypedEdge.targetKey).Nodup :=
    (validateGraph_nodup selected.valid).2.sublist (selected.edges.map _)
  have into := targets.sublist ((List.filter_sublist (p := fun edge => decide (edge.targetNodeId = nodeId))).map TypedEdge.targetKey)
  apply List.Nodup.of_map (fun port => (nodeId, port))
  rw [Run.links, List.map_map, List.map_map]
  convert into using 1
  apply List.map_congr_left
  intro edge member
  have here := of_decide_eq_true (List.mem_filter.mp member).2
  show (nodeId, edge.targetPort) = (edge.targetNodeId, edge.targetPort)
  rw [here]

end Selected

variable [DecidableEq D]

theorem currentGraph_selected {graph : GraphSnapshot V D} (able : eligible graph.definition = true)
    (parsed : parseGraph outside graph.definition = .ok ()) (done : currentGraph outside graph row = .ok ()) :
    Selected outside graph.definition row := by
  have schema : graph.definition.schemaVersion = 1 := of_decide_eq_true (Bool.and_eq_true_iff.mp able).1
  obtain ⟨_, -, parsed⟩ := bind_ok.mp parsed
  have valid : validateGraph outside.size graph.definition.toInput = .ok () := by
    exact mapError_ok.mp (onlyIf_ok.mp parsed (by rw [schema]; rfl))
  obtain ⟨_, -, done⟩ := bind_ok.mp done
  obtain ⟨_, -, done⟩ := bind_ok.mp done
  obtain ⟨_, -, done⟩ := bind_ok.mp done
  obtain ⟨_, -, done⟩ := bind_ok.mp done
  obtain ⟨_, bound, -⟩ := bind_ok.mp done
  simp only [reject_ok, Bool.or_eq_false_iff, Bool.not_eq_false', decide_eq_false_iff_not, not_not] at bound
  refine ⟨able, valid, bound.1.1.1, ?_⟩
  rw [bound.2]
  exact List.filter_sublist

variable {target : Run V D}

/-- The graph of a run under proof is eligible, the historical one and the one that it stands for. -/
theorem historical_ok {graph : Graph V D} (done : historical outside state target source.toRun actor = .ok graph) :
    eligible graph.definition = true ∧ ∃ stored, state.graphs.get? target.graphId = some stored ∧ eligible stored.definition = true := by
  obtain ⟨stored, owned, done⟩ := bind_ok.mp done
  obtain ⟨found, present, owned⟩ := bind_ok.mp owned
  obtain ⟨_, -, owned⟩ := bind_ok.mp owned
  obtain ⟨_, -, owned⟩ := bind_ok.mp owned
  obtain ⟨_, -, owned⟩ := bind_ok.mp owned
  obtain ⟨_, -, owned⟩ := bind_ok.mp owned
  obtain ⟨_, -, owned⟩ := bind_ok.mp owned
  obtain ⟨_, able, done⟩ := bind_ok.mp done
  rw [reject_ok, Bool.or_eq_false_iff, Bool.not_eq_false'] at able
  split at done
  · obtain ⟨_, checked, done⟩ := bind_ok.mp done
    simp only [reject_ok, Bool.or_eq_false_iff, Bool.not_eq_false'] at checked
    rw [← pure_ok.mp done]
    exact ⟨checked.1.1.1.1.1.1.1, stored, pure_ok.mp owned ▸ fetch_ok.mp present, able.1⟩
  · cases done

theorem historical_schema {graph : Graph V D} (done : historical outside state target source.toRun actor = .ok graph) :
    source.graphSchemaVersion.getD 1 = 1 := by
  obtain ⟨_, -, done⟩ := bind_ok.mp done
  obtain ⟨_, -, done⟩ := bind_ok.mp done
  split at done
  · obtain ⟨_, checked, -⟩ := bind_ok.mp done
    simp only [reject_ok, Bool.or_eq_false_iff, decide_eq_false_iff_not, not_not] at checked
    exact checked.2
  · cases done

variable {graphs : Dict String (Graph V D)}

theorem current_selected (schema : row.graphSchemaVersion.getD 1 = 1)
    (able : ∀ graph, graphs.get? row.graphId = some graph → eligible graph.definition = true)
    (done : current outside graphs target actor row = .ok ()) : ∃ definition, Selected outside definition row := by
  unfold current at done
  split at done
  · rename_i phase
    simp only [List.mem_cons, List.not_mem_nil, or_false] at phase
    obtain same | same | same := phase
    all_goals
      rw [same] at schema
      cases schema
  · obtain ⟨graph, owned, done⟩ := bind_ok.mp done
    obtain ⟨found, present, owned⟩ := bind_ok.mp owned
    obtain ⟨_, -, owned⟩ := bind_ok.mp owned
    obtain ⟨_, -, owned⟩ := bind_ok.mp owned
    obtain ⟨_, parsed, owned⟩ := bind_ok.mp owned
    obtain ⟨_, -, owned⟩ := bind_ok.mp owned
    obtain ⟨_, -, owned⟩ := bind_ok.mp owned
    cases pure_ok.mp owned
    exact ⟨_, currentGraph_selected (able _ (fetch_ok.mp present)) parsed done⟩

/-- The actor approved the review, out of a state of the run that waited for it. -/
structure Approved (source : StoredRun V D) (actor : String) (review : Node V) : Prop where
  listed : review ∈ source.typedNodes
  kind : review.definitionId = .humanReview
  approval : ∃ stored evidence, source.nodeStates.get? review.id = some stored ∧ stored.output = some evidence ∧ evidence.approvedBy = some (strip actor)
  waited : ∃ item ∈ source.history, item.id = source.id ∧ item.version < source.version ∧ item.status = .waitingApproval ∧
    item.currentNodeId = some review.id ∧ item.updatedBy = actor

theorem waited_earlier {one item : Run V D} {review : String} (proven : waited outside one item actor review = .ok true) :
    earlier one item actor review = true := by
  unfold waited at proven
  split at proven
  · assumption
  · cases proven

theorem firstWaited_ok {one : Run V D} {review : String} {items : List (Run V D)}
    (done : firstWaited outside graphs target one actor review items = .ok ()) : ∃ item ∈ items, earlier one item actor review = true := by
  induction items with
  | nil => cases done
  | cons item items ih =>
    obtain ⟨proven, turned, done⟩ := bind_ok.mp done
    split at done
    · rename_i yes
      subst yes
      exact ⟨item, List.mem_cons_self .., waited_earlier turned⟩
    · obtain ⟨other, member, holds⟩ := ih done
      exact ⟨other, List.mem_cons_of_mem _ member, holds⟩

theorem approved_ok {review : Node V} (listed : review ∈ source.typedNodes)
    (kind : review.definitionId = .humanReview) (done : approved outside graphs target source actor review = .ok ()) :
    Approved source actor review := by
  obtain ⟨stored, present, done⟩ := bind_ok.mp done
  obtain ⟨_, signed, done⟩ := bind_ok.mp done
  obtain ⟨_, -, done⟩ := bind_ok.mp done
  obtain ⟨_, -, done⟩ := bind_ok.mp done
  rw [reject_ok, decide_eq_false_iff_not, not_not] at signed
  obtain ⟨evidence, there, by_⟩ := Option.bind_eq_some_iff.mp signed
  obtain ⟨item, member, before⟩ := firstWaited_ok done
  obtain ⟨inside, waiting⟩ := List.mem_filter.mp member
  simp only [earlier, Bool.and_eq_true, decide_eq_true_eq] at before waiting
  refine ⟨listed, kind, ⟨stored, evidence, fetch_ok.mp present, there, by_⟩, item, inside, ?_, ?_, waiting.1, waiting.2, ?_⟩
  · exact before.1.1.1.1.1.1.1.1.1.1.1.1.1.1.1.1
  · exact before.1.1.1.2
  · exact before.1.1.2

/-- What the proof of a source shows. -/
structure Proven (outside : Outside V D) (target : Run V D) (source : StoredRun V D) (actor : String) : Prop where
  owner : sameOwner target source.toRun actor = true
  selected : ∃ definition, Selected outside definition source.toRun
  complete : completed source = true
  replays : ∀ node ∈ source.locals, replay outside source.toRun node = .ok ()
  reviews : ∀ review ∈ source.reviews, Approved source actor review

theorem proof_ok {reviewed : List String} (done : proof outside state target source actor = .ok reviewed) :
    Proven outside target source actor ∧ reviewed = ancestors source.pairs (source.reviews.map Node.id) := by
  obtain ⟨_, owner, done⟩ := bind_ok.mp done
  obtain ⟨_, -, done⟩ := bind_ok.mp done
  obtain ⟨graph, past, done⟩ := bind_ok.mp done
  obtain ⟨_, checked, done⟩ := bind_ok.mp done
  obtain ⟨_, complete, done⟩ := bind_ok.mp done
  obtain ⟨_, replays, done⟩ := bind_ok.mp done
  obtain ⟨_, approvals, done⟩ := bind_ok.mp done
  rw [reject_ok, Bool.not_eq_false'] at owner complete
  obtain ⟨able, stored, present, ableStored⟩ := historical_ok past
  have graphId : source.graphId = target.graphId := by
    simp only [sameOwner, Bool.and_eq_true, decide_eq_true_eq] at owner
    exact owner.1.1.1.1.1.1.1.2
  have selected : ∃ definition, Selected outside definition source.toRun := by
    refine current_selected (historical_schema past) ?_ checked
    intro found there
    rw [Dict.get?_set] at there
    split at there
    · cases there
      exact able
    · rw [graphId, present] at there
      cases there
      exact ableStored
  refine ⟨⟨owner, selected, complete, forM_ok replays, ?_⟩, (pure_ok.mp done).symm⟩
  intro review member
  obtain ⟨_, chosen⟩ := selected
  exact approved_ok (List.mem_filter.mp member).1 (chosen.review member) (forM_ok approvals review member)

/-- Executed on what the run's outputs bring to it, a node returns this output. -/
def Reproduces (outside : Outside V D) (row : Run V D) (outputs : Dict String (Ports V)) (nodeId : String) (output : Ports V) : Prop :=
  ∃ node ports result, row.node? nodeId = some node ∧ inputs row nodeId outputs = .ok ports ∧
    outside.execute node.definitionId node.parameters ports = .ok result ∧ samePorts outside result output = true

omit [DecidableEq D] in
theorem replay_ok {node : Node V} (done : replay outside row node = .ok ()) : ∃ ports result stored,
    inputs row node.id row.typedOutputs = .ok ports ∧ outside.execute node.definitionId node.parameters ports = .ok result ∧
      row.typedOutputs.get? node.id = some stored ∧ samePorts outside result stored = true := by
  obtain ⟨_, -, done⟩ := bind_ok.mp done
  obtain ⟨_, -, done⟩ := bind_ok.mp done
  obtain ⟨ports, reads, done⟩ := bind_ok.mp done
  obtain ⟨result, executed, done⟩ := bind_ok.mp done
  obtain ⟨stored, present, done⟩ := bind_ok.mp done
  rw [reject_ok, Bool.not_eq_false'] at done
  exact ⟨ports, result, stored, reads, executed, fetch_ok.mp present, done⟩

omit [DecidableEq D] in
theorem Proven.reproduces (proven : Proven outside target source actor)
    (twin : Twin source.toRun source.typedOutputs row outputs nodeId) :
    ∃ output, outputs.get? nodeId = some output ∧ Reproduces outside row outputs nodeId output := by
  obtain ⟨definition, selected⟩ := proven.selected
  obtain ⟨output, theirs, ours⟩ := twin.returns
  obtain ⟨taken, reads, reads'⟩ := twin.reads
  obtain ⟨found, other, present, present', fields⟩ := twin.fields
  -- The node is a local one of the source, so it was replayed there.
  have complete := proven.complete
  simp only [completed, Bool.and_eq_true, List.all_eq_true, decide_eq_true_eq] at complete
  obtain ⟨node, local_, same⟩ := List.mem_map.mp (complete.1.1.1.2 nodeId (Dict.mem_keys_iff.mpr ⟨output, theirs⟩))
  obtain ⟨ports, result, stored, gathered, executed, kept, alike⟩ := replay_ok (proven.replays node local_)
  rw [same] at gathered kept
  rw [theirs] at kept
  cases kept
  have here : source.toRun.node? nodeId = some node := by
    rw [← same]
    exact find?_of_nodup selected.nodup (List.mem_filter.mp local_).1
  rw [here] at present
  cases present
  -- Both runs read the same, whatever the order of their edges.
  have distinct : ((incoming source.toRun nodeId).map Link.targetPort).Nodup :=
    ((perm_incoming source.toRun nodeId).map _).nodup_iff.mpr (selected.ports nodeId)
  have mine : inputs source.toRun nodeId source.typedOutputs = .ok taken := gather_perm (perm_incoming _ _) distinct reads
  rw [mine] at gathered
  cases gathered
  have yours : inputs row nodeId outputs = .ok taken := gather_perm (perm_incoming _ _) (twin.links ▸ distinct) reads'
  unfold Node.fields at fields
  injection fields with _ kind _ _ parameters
  exact ⟨output, ours, other, taken, result, present', yours, by rw [← kind, ← parameters]; exact executed, alike⟩

/-- A stored run that grants an output of a node. -/
structure Grants (row : Run V D) (actor nodeId : String) (output : Ports V) (source : StoredRun V D) : Prop where
  other : source.id ≠ row.id
  succeeded : source.status = .succeeded
  createdBy : source.createdBy = actor ∧ row.createdBy = actor
  project : source.novelId = row.novelId ∧ source.binding = row.binding
  scope : source.scope = row.scope
  graph : source.graphId = row.graphId
  node : ∃ node twin, source.toRun.node? nodeId = some node ∧ row.node? nodeId = some twin ∧ node.fields = twin.fields
  output : source.typedOutputs.get? nodeId = some output
  review : ∃ review, Approved source actor review ∧ Relation.ReflTransGen (Precedes source.pairs) nodeId review.id

theorem granted_ok (done : granted outside state row actor nodeId outputs source = .ok output) :
    Proven outside row source actor ∧ (∃ review ∈ source.reviews, Relation.ReflTransGen (Precedes source.pairs) nodeId review.id) ∧
      source.typedOutputs.get? nodeId = some output ∧ ∃ value, Signs outside source.toRun actor source.typedOutputs nodeId value ∧
        Signs outside row actor (outputs.set nodeId output) nodeId value := by
  obtain ⟨reviewed, shown, done⟩ := bind_ok.mp done
  obtain ⟨_, inside, done⟩ := bind_ok.mp done
  obtain ⟨stored, present, done⟩ := bind_ok.mp done
  obtain ⟨theirs, one, done⟩ := bind_ok.mp done
  obtain ⟨ours, two, done⟩ := bind_ok.mp done
  obtain ⟨_, equal, done⟩ := bind_ok.mp done
  cases pure_ok.mp done
  rw [reject_ok, decide_eq_false_iff_not, not_not] at inside equal
  obtain ⟨proven, upstream⟩ := proof_ok shown
  rw [upstream, mem_ancestors] at inside
  obtain ⟨goal, wanted, path⟩ := inside
  obtain ⟨review, member, rfl⟩ := List.mem_map.mp wanted
  have nothing : ∀ (row : Run V D) (outputs : Dict String (Ports V)), Known outside row actor outputs ∅ := fun _ _ _ _ held => nomatch held
  refine ⟨proven, ⟨review, member, path⟩, fetch_ok.mp present, theirs.1, (signature_signs (nothing _ _) one).1, ?_⟩
  rw [equal]
  exact (signature_signs (nothing _ _) two).1

omit [DecidableEq D] in
theorem orElse_ok {found : Except Refusal (Ports V)} {later : Except Refusal (Option (Ports V))} (done : orElse found later = .ok (some output)) :
    found = .ok output ∨ later = .ok (some output) := by
  unfold orElse at done
  split at done
  · cases done
    exact Or.inl rfl
  · exact Or.inr done
  · cases done

theorem firstGranted_ok {sources : List (StoredRun V D)} (done : firstGranted outside state row actor nodeId outputs sources = .ok (some output)) :
    ∃ source ∈ sources, granted outside state row actor nodeId outputs source = .ok output := by
  induction sources with
  | nil => cases done
  | cons source sources ih =>
    cases orElse_ok done with
    | inl here => exact ⟨source, List.mem_cons_self .., here⟩
    | inr later =>
      obtain ⟨other, member, here⟩ := ih later
      exact ⟨other, List.mem_cons_of_mem _ member, here⟩

/-- What is reused is what the node would return, as is what it was made from, and a run of the same owner that succeeded
has it upstream of a review that the actor approved. -/
theorem cached_sound (injective : outside.DigestsInjective) (hit : cached outside state row actor nodeId outputs = .ok (some output)) :
    Reproduces outside row outputs nodeId output ∧
      (∀ source, Relation.TransGen (Feeds row) source nodeId → ∃ given, outputs.get? source = some given ∧ Reproduces outside row outputs source given) ∧
      ∃ source ∈ state.runs.values, Grants row actor nodeId output source := by
  unfold cached at hit
  split at hit
  · cases hit
  obtain ⟨source, listed, grants⟩ := firstGranted_ok hit
  obtain ⟨proven, ⟨review, member, path⟩, stored, value, theirs, ours⟩ := granted_ok grants
  have acyclic := ours.acyclic
  -- The output that is granted is read by none of the nodes that it depends on.
  have unread : ∀ {one}, Relation.ReflTransGen (Feeds row) one nodeId → inputs row one (outputs.set nodeId output) = inputs row one outputs := by
    intro one below
    apply gather_congr
    intro link into
    have apart : link.source ≠ nodeId := by
      intro same
      exact acyclic (Relation.TransGen.head' ⟨link, into, same⟩ below)
    unfold output?
    rw [Dict.get?_set_ne _ _ apart]
  have again : ∀ {one}, Relation.ReflTransGen (Feeds row) one nodeId →
      ∃ given, (outputs.set nodeId output).get? one = some given ∧ Reproduces outside row outputs one given := by
    intro one below
    obtain ⟨given, held, node, ports, result, present, reads, executed, alike⟩ := proven.reproduces (theirs.twins injective ours below)
    exact ⟨given, held, node, ports, result, present, unread below ▸ reads, executed, alike⟩
  refine ⟨?_, ?_, source, listed, ?_⟩
  · obtain ⟨given, held, reproduced⟩ := again Relation.ReflTransGen.refl
    rw [Dict.get?_set, if_pos rfl] at held
    cases held
    exact reproduced
  · intro one below
    obtain ⟨given, held, reproduced⟩ := again below.to_reflTransGen
    have apart : one ≠ nodeId := fun same => acyclic (same ▸ below)
    rw [Dict.get?_set_ne _ _ apart] at held
    exact ⟨given, held, reproduced⟩
  · have owner := proven.owner
    simp only [sameOwner, Bool.and_eq_true, decide_eq_true_eq] at owner
    obtain ⟨⟨⟨⟨⟨⟨⟨⟨⟨⟨⟨⟨⟨⟨other, succeeded⟩, -⟩, -⟩, novel⟩, scope⟩, binding⟩, graph⟩, created⟩, by_⟩, -⟩, -⟩, -⟩, -⟩, -⟩ := owner
    exact ⟨other, succeeded, ⟨by_, created.symm.trans by_⟩, ⟨novel, binding⟩, scope, graph,
      (theirs.twins injective ours Relation.ReflTransGen.refl).fields, stored, review, proven.reviews review member, path⟩

/-! A draft that was reviewed in one run and is reused in the next, of a graph whose nodes were moved in between. -/

inductive Plain where
  | text (text : String)
  | object (fields : List (String × String))
  deriving DecidableEq

/-- Digests that are what they digest. -/
inductive Print where
  | ports (taken : Ports Plain)
  | graph (nodes : List (NodeFields Plain × Option Plain)) (edges : List TypedEdge)
  | nothing
  | linked (link : Link) (first rest : Print)
  | signed (owner : List String) (node : NodeFields Plain) (dependencies inputs output : Print)
  deriving DecidableEq

def chain : List (Link × Print) → Print
  | [] => .nothing
  | entry :: rest => .linked entry.1 entry.2 (chain rest)

theorem chain_injective : Function.Injective chain := by
  intro one
  induction one with
  | nil =>
    intro two same
    cases two with
    | nil => rfl
    | cons => cases same
  | cons entry rest ih =>
    intro two same
    cases two with
    | nil => cases same
    | cons other others =>
      injection same with link first later
      rw [ih later, Prod.ext link first]

def printOf (signed : Signed Plain Print) : Print :=
  .signed [signed.novelId, signed.binding, signed.scope, signed.actor, signed.graphId] signed.node (chain signed.dependencies) signed.inputs signed.output

theorem printOf_injective : Function.Injective printOf := by
  intro one two same
  obtain ⟨novel, binding, scope, actor, graph, node, dependencies, inputs, output⟩ := one
  obtain ⟨novel', binding', scope', actor', graph', node', dependencies', inputs', output'⟩ := two
  injection same with owner node dependencies inputs output
  injection owner with novel owner
  injection owner with binding owner
  injection owner with scope owner
  injection owner with actor owner
  injection owner with graph
  cases chain_injective dependencies
  simp_all

def Plain.get (key : String) : Plain → Option String
  | .text _ => none
  | .object fields => fields.lookup key

/-- The nodes of the local adapter that the sample has. -/
def sampleExecute (kind : DefinitionId) (parameters : Plain) (_ : Ports Plain) : Except Refusal (Ports Plain) :=
  match kind with
  | .textInput => do
    let text ← fetch (parameters.get "text") .evidence
    return Finmap.singleton "text" (.text text)
  | .manualTransform => do
    let result ← fetch (parameters.get "result") .evidence
    return Finmap.singleton "draft" (.object [("text", result), ("origin", "MANUAL")])
  | _ => .error .evidence

def graphPrint (placed : Bool) (definition : Definition Plain) : Print :=
  .graph (definition.nodes.map fun node => (node.fields, if placed then some node.position else none)) definition.edges

def sampleOutside : Outside Plain Print where
  alike value other := value = other
  definitionDigest := graphPrint true
  executionDigest := graphPrint false
  portsDigest := .ports
  signedDigest := printOf
  modelTakes _ := true
  size _ := 600
  modelAuthority _ := .ok ()
  requireExecution := .ok ()
  trimsAudio _ := false
  incarnation _ := "p1"
  inPhase _ := .ok ()
  fence _ _ := .ok ()
  execute := sampleExecute
  timestamp _ := .ok true
  depth := 900

def sampleDefinition (position : String) : Definition Plain where
  schemaVersion := 1
  title := "Drafts"
  nodes := [⟨"t", .textInput, 1, true, .object [("text", "Rain.")], .text position⟩, ⟨"m", .manualTransform, 1, true, .object [("result", "It rained.")], .text position⟩,
    ⟨"h", .humanReview, 1, true, .object [], .text position⟩]
  edges := [⟨"e1", "t", "text", "m", "text"⟩, ⟨"e2", "m", "draft", "h", "draft"⟩]
  groups := []

def sampleVersion (version : Int) (position : String) : GraphSnapshot Plain Print :=
  ⟨"g", "n", "main", "p1", "ada", version, sampleDefinition position, graphPrint true (sampleDefinition position), graphPrint false (sampleDefinition position)⟩

def sampleText : Ports Plain := Finmap.singleton "text" (.text "Rain.")

def sampleDraft : Ports Plain := Finmap.singleton "draft" (.object [("text", "It rained."), ("origin", "MANUAL")])

def sampleLocal : NodeState := ⟨.succeeded, some ⟨some ⟨some false, some false, some "LOCAL_RULES", some adapterVersion⟩, none, none⟩⟩

def sampleBefore : TraceEntry where
  action := "WORKFLOW_NODE_COMPLETED"
  status := .waitingApproval
  happenedAt := some "2025-01-01T00:00:00+00:00"
  nodeStatuses := Dict.ofList [("t", .succeeded), ("m", .succeeded), ("h", .waitingApproval)]
  rest := "m"

def sampleAfter : TraceEntry where
  action := "WORKFLOW_NODE_APPROVED"
  status := .running
  happenedAt := some "2025-01-01T00:01:00+00:00"
  nodeStatuses := Dict.ofList [("t", .succeeded), ("m", .succeeded), ("h", .succeeded)]
  rest := "h"

/-- The run of one version, as it waits for the review. -/
def sampleRun (id : String) (graph : GraphSnapshot Plain Print) : Run Plain Print where
  id := id
  novelId := "n"
  scope := "main"
  binding := "p1"
  createdBy := "ada"
  createdAt := "2025-01-01T00:00:00+00:00"
  updatedBy := "ada"
  version := 2
  status := .waitingApproval
  graphId := "g"
  graphVersion := graph.version
  graphDigest := graph.definitionDigest
  executionDigest := graph.executionDigest
  requestDigest := .nothing
  adapterVersion := adapterVersion
  graphSchemaVersion := none
  reviewed := false
  modelExecutionContract := none
  mediaExecutionContract := none
  externalCalls := some 0
  modelCalled := some false
  externalAiCalls := some false
  reuseReviewedLocalDependencies := true
  cacheMode := dependencyCacheMode
  currentNodeId := some "h"
  selectedClosure := ["t", "m", "h"]
  typedNodes := graph.definition.nodes
  typedEdges := graph.definition.edges
  nodeStates := Dict.ofList [("t", sampleLocal), ("m", sampleLocal), ("h", ⟨.waitingApproval, none⟩)]
  typedOutputs := Dict.ofList [("t", sampleText), ("m", sampleDraft)]
  trace := [sampleBefore]

def sampleSource : StoredRun Plain Print where
  toRun := { sampleRun "r1" (sampleVersion 1 "left") with
    version := 3
    status := .succeeded
    reviewed := true
    currentNodeId := none
    nodeStates := Dict.ofList [("t", sampleLocal), ("m", sampleLocal), ("h", ⟨.succeeded, some ⟨none, some "ada", some "2025-01-01T00:01:00+00:00"⟩⟩)]
    trace := [sampleBefore, sampleAfter] }
  history := [sampleRun "r1" (sampleVersion 1 "left")]

def sampleState : State Plain Print where
  graphs := Dict.ofList [("g", ⟨sampleVersion 2 "right", [sampleVersion 1 "left"]⟩)]
  runs := Dict.ofList [("r1", sampleSource)]

def sampleRow : Run Plain Print := sampleRun "r2" (sampleVersion 2 "right")

theorem sampleOutside_injective : sampleOutside.DigestsInjective := ⟨fun _ _ same => Print.ports.inj same, printOf_injective⟩

/-- The moved graph's run takes the draft over, and with it the text that the draft was made from. -/
theorem cached_sound_sample : ∃ source ∈ sampleState.runs.values, Grants sampleRow "ada" "m" sampleDraft source ∧
    Reproduces sampleOutside sampleRow (Dict.ofList [("t", sampleText)]) "m" sampleDraft := by
  obtain ⟨found, hit, same⟩ := ok_of_endsWith (fun found => found = some sampleDraft)
    (cached sampleOutside sampleState sampleRow "ada" "m" (Dict.ofList [("t", sampleText)])) (by decide +kernel)
  rw [of_decide_eq_true same] at hit
  obtain ⟨reproduced, -, source, listed, grants⟩ := cached_sound sampleOutside_injective hit
  exact ⟨source, listed, grants, reproduced⟩

end NovelStudio.LocalReuse
