import NovelStudio.World.Candidates

/-! Freshness is local: a record is captured from the records that it refers to, and it is fresh or stale by these alone,
by those that they refer to, and so on. -/

namespace NovelStudio.World

open Library Experimental

variable {outside : Outside} {records other : Dict String Record} {service : Service} {self : Option String}

/-- The record that a node is, if it is one. -/
def GraphNode.reads (ref : GraphNode) : List String :=
  match ref.kind with
  | .organization | .event | .rule | .concept _ => [ref.id]
  | .character | .location | .chapter | .scene => []

/-- The records that a world record depends on. -/
def referenceIds (data : Data) : List String :=
  match references data with
  | .ok refs => refs.dependencies.map Prod.fst
  | .error _ => []

/-- The records that a capture looks up. -/
def Data.reads : Data → List String
  | .storyConcept _ => []
  | .storyRelation data => data.subject.reads ++ data.object.reads
  | .knowledgeEvent data => (named data.relationId).toList ++ (named data.psychologyId).toList
  | data => referenceIds data

/-- The collections have the same records under these ids. -/
def AgreeOn (records other : Dict String Record) (ids : List String) : Prop := ∀ rid ∈ ids, records.get? rid = other.get? rid

theorem requireRow_congr (same : records.get? rid = other.get? rid) : requireRow records rid = requireRow other rid := by
  rw [requireRow, same, requireRow]

theorem semanticSources_congr {dependencies : List (String × Kind)} (same : AgreeOn records other (dependencies.map Prod.fst)) :
    semanticSources outside records service self dependencies = semanticSources outside other service self dependencies := by
  unfold semanticSources
  generalize (∅ : Dict String Source) = refs
  induction dependencies generalizing refs with
  | nil => rfl
  | cons dependency rest ih =>
    rw [List.foldlM_cons, List.foldlM_cons, referred, referred, requireRow_congr (same _ (List.mem_cons_self ..))]
    apply bind_congr
    intro next
    exact ih (fun rid member => same rid (List.mem_cons_of_mem _ member)) next

variable {data : Data}

theorem reads_of_references (temporal : data.temporal = none) (named : references data = .ok refs) :
    data.reads = refs.dependencies.map Prod.fst := by
  have reads : data.reads = referenceIds data := by
    cases data with
    | storyConcept | storyRelation | knowledgeEvent => cases temporal
    | history | geography | civilization | ability | abilityUse | psychology | relationship | characterEvent | characterVisual
    | sceneVisual => rfl
  rw [reads, referenceIds, named]

theorem checkPredecessor_congr (same : AgreeOn records other (refs.dependencies.map Prod.fst)) (named : references data = .ok refs) :
    checkPredecessor records data = checkPredecessor other data := by
  unfold checkPredecessor
  split
  · rfl
  · rename_i rid follows
    obtain ⟨kind, member⟩ := predecessor_dependency named follows
    rw [requireRow_congr (same rid (List.mem_map.mpr ⟨_, member, rfl⟩))]

variable {payload : Payload}

theorem captureWorld_congr (temporal : payload.data.temporal = none) (same : AgreeOn records other payload.data.reads) :
    captureWorld outside records service self payload = captureWorld outside other service self payload := by
  unfold captureWorld
  apply bind_congr
  intro sources
  apply bind_congr
  intro number
  cases named : references payload.data with
  | error failure => rfl
  | ok refs =>
    rw [reads_of_references temporal named] at same
    show (outside.entitySources _ >>= _) = (outside.entitySources _ >>= _)
    apply bind_congr
    intro entities
    rw [semanticSources_congr same, checkPredecessor_congr same named]

variable {gathered : Gathered}

theorem node_congr {ref : GraphNode} (same : AgreeOn records other ref.reads) :
    node outside records ref gathered = node outside other ref gathered := by
  obtain ⟨kind, id⟩ := ref
  cases kind with
  | character | location | chapter | scene => rfl
  | organization | event | rule =>
    show recordNode outside records id _ gathered = recordNode outside other id _ gathered
    rw [recordNode, recordNode, worldRef, worldRef, requireRow_congr (same id (List.mem_singleton.mpr rfl))]
  | concept conceptType =>
    show conceptNode outside records id conceptType gathered = conceptNode outside other id conceptType gathered
    rw [conceptNode, conceptNode, worldRef, worldRef, requireRow_congr (same id (List.mem_singleton.mpr rfl))]

theorem relationRef_congr {data : KnowledgeData} (same : AgreeOn records other (named data.relationId).toList) :
    relationRef outside records data gathered = relationRef outside other data gathered := by
  unfold relationRef
  split
  · rfl
  · rename_i rid present
    rw [worldRef, worldRef, requireRow_congr (same rid (by rw [present]; exact List.mem_singleton.mpr rfl))]

theorem psychologyRef_congr {data : KnowledgeData} (same : AgreeOn records other (named data.psychologyId).toList) :
    psychologyRef outside records data gathered = psychologyRef outside other data gathered := by
  unfold psychologyRef
  split
  · rfl
  · rename_i rid present
    rw [worldRef, worldRef, requireRow_congr (same rid (by rw [present]; exact List.mem_singleton.mpr rfl))]

theorem AgreeOn.left {ids more : List String} (same : AgreeOn records other (ids ++ more)) : AgreeOn records other ids :=
  fun rid member => same rid (List.mem_append_left _ member)

theorem AgreeOn.right {ids more : List String} (same : AgreeOn records other (ids ++ more)) : AgreeOn records other more :=
  fun rid member => same rid (List.mem_append_right _ member)

theorem gather_congr (same : AgreeOn records other data.reads) :
    gather outside records data gathered = gather outside other data gathered := by
  cases data with
  | storyRelation relation =>
    simp only [gather]
    rw [node_congr same.left]
    apply bind_congr
    intro first
    rw [node_congr same.right]
  | knowledgeEvent knowledge =>
    simp only [gather]
    rw [relationRef_congr same.left]
    apply bind_congr
    intro first
    exact psychologyRef_congr same.right
  | storyConcept | history | geography | civilization | ability | abilityUse | psychology | relationship | characterEvent | characterVisual
  | sceneVisual => rfl

theorem capture_congr (same : AgreeOn records other payload.data.reads) :
    capture outside records service self payload = capture outside other service self payload := by
  have gathers : ∀ gathered, gather outside records payload.data gathered = gather outside other payload.data gathered :=
    fun _ => gather_congr same
  unfold capture
  split
  · unfold captureGraph
    apply bind_congr
    intro chapterId
    apply bind_congr
    intro sources
    apply bind_congr
    intro start
    apply bind_congr
    intro stop
    apply bind_congr
    intro _
    apply bind_congr
    intro scene
    simp only [gathers]
  · rename_i temporal
    exact captureWorld_congr temporal same

theorem mem_keys_set_of_mem {refs : Dict String Source} {source : Source} (member : rid ∈ refs.keys) (key : String) : rid ∈ (refs.set key source).keys :=
  Dict.mem_keys_set.mpr (Or.inr member)

theorem semanticSources_names {dependencies : List (String × Kind)} (done : semanticSources outside records service self dependencies = .ok refs) :
    ∀ dependency ∈ dependencies, dependency.1 ∈ refs.keys := by
  rw [semanticSources_eq] at done
  refine foldlM_invariant (motive := fun before refs => ∀ dependency ∈ before, dependency.1 ∈ refs.keys) ?_ nofun done
  intro before dependency refs next _ holds turned
  obtain ⟨row, -, rfl⟩ := refer_ok turned
  intro earlier member
  cases List.mem_append.mp member with
  | inl old => exact mem_keys_set_of_mem (holds earlier old) _
  | inr here => exact Dict.mem_keys_set.mpr (Or.inl (by rw [List.mem_singleton.mp here]))

/-- A gathering names these records, and all that were named before. -/
def Names (ids : List String) (gathered result : Gathered) : Prop :=
  (∀ rid ∈ ids, rid ∈ result.semantic.keys) ∧ ∀ rid ∈ gathered.semantic.keys, rid ∈ result.semantic.keys

theorem Names.refl (gathered : Gathered) : Names [] gathered gathered := ⟨nofun, fun _ member => member⟩

theorem Names.trans {more : List String} {first second third : Gathered} (one : Names ids first second) (two : Names more second third) : Names (ids ++ more) first third := by
  refine ⟨?_, fun rid member => two.2 rid (one.2 rid member)⟩
  intro rid member
  cases List.mem_append.mp member with
  | inl left => exact two.2 rid (one.1 rid left)
  | inr right => exact two.1 rid right

theorem names_addRef (outside : Outside) (gathered : Gathered) (rid : String) (row : Record) : Names [rid] gathered (gathered.addRef outside rid row) := by
  refine ⟨?_, fun other member => mem_keys_set_of_mem member rid⟩
  intro other member
  rw [List.mem_singleton.mp member]
  exact Dict.mem_keys_set.mpr (Or.inl rfl)

theorem node_names {ref : GraphNode} (done : node outside records ref gathered = .ok result) :
    Names ref.reads gathered result := by
  obtain ⟨kind, id⟩ := ref
  cases kind with
  | character | location =>
    cases done
    exact Names.refl _
  | chapter =>
    obtain ⟨sources, -, done⟩ := bind_ok.mp done
    obtain ⟨_, -, done⟩ := bind_ok.mp done
    cases done
    exact Names.refl _
  | scene =>
    obtain ⟨found, -, done⟩ := bind_ok.mp done
    cases done
    exact Names.refl _
  | organization | event | rule =>
    obtain ⟨row, -, done⟩ := bind_ok.mp (show recordNode outside records id _ gathered = _ from done)
    cases done
    exact names_addRef outside gathered id row
  | concept conceptType =>
    obtain ⟨row, -, done⟩ := bind_ok.mp (show conceptNode outside records id conceptType gathered = _ from done)
    split at done
    · obtain ⟨_, -, done⟩ := bind_ok.mp done
      cases done
      exact names_addRef outside gathered id row
    · cases done

theorem relationRef_names {data : KnowledgeData} (done : relationRef outside records data gathered = .ok result) :
    Names (named data.relationId).toList gathered result := by
  unfold relationRef at done
  split at done
  · rename_i absent
    cases done
    rw [absent]
    exact Names.refl _
  · rename_i rid present
    obtain ⟨row, -, done⟩ := bind_ok.mp done
    obtain ⟨_, -, done⟩ := bind_ok.mp done
    cases done
    rw [present]
    exact names_addRef outside gathered rid row

theorem psychologyRef_names {data : KnowledgeData} (done : psychologyRef outside records data gathered = .ok result) :
    Names (named data.psychologyId).toList gathered result := by
  unfold psychologyRef at done
  split at done
  · rename_i absent
    cases done
    rw [absent]
    exact Names.refl _
  · rename_i rid present
    obtain ⟨row, -, done⟩ := bind_ok.mp done
    obtain ⟨_, -, done⟩ := bind_ok.mp done
    cases done
    rw [present]
    exact names_addRef outside gathered rid row

theorem gather_names (graph : data.temporal ≠ none) (done : gather outside records data gathered = .ok result) :
    ∀ rid ∈ data.reads, rid ∈ result.semantic.keys := by
  cases data with
  | storyConcept => exact nofun
  | storyRelation relation =>
    obtain ⟨first, subject, done⟩ := bind_ok.mp (show (node outside records relation.subject gathered >>= _) = _ from done)
    obtain ⟨second, object, done⟩ := bind_ok.mp done
    have both := (node_names subject).trans (node_names object)
    split at done
    · cases done
      exact both.1
    · cases done
      exact both.1
  | knowledgeEvent knowledge =>
    obtain ⟨first, related, felt⟩ := bind_ok.mp (show (relationRef outside records knowledge (gathered.addCharacter knowledge.characterId) >>= _) = _ from done)
    exact ((relationRef_names related).trans (psychologyRef_names felt)).1
  | history | geography | civilization | ability | abilityUse | psychology | relationship | characterEvent | characterVisual
  | sceneVisual => exact absurd rfl graph

theorem capture_names (done : capture outside records service self payload = .ok captured) :
    ∀ rid ∈ payload.data.reads, rid ∈ captured.semanticSources.keys := by
  unfold capture at done
  split at done
  · rename_i data temporal
    simp only [captureGraph, bind_ok] at done
    obtain ⟨cid, -, sources, -, start, -, stop, -, _, -, scene, -, gathered, gathering, entities, -, done⟩ := done
    cases pure_ok.mp done
    exact gather_names (by rw [temporal]; rintro ⟨⟩) gathering
  · rename_i temporal
    simp only [captureWorld, bind_ok] at done
    obtain ⟨sources, -, number, -, named, referring, entities, -, refs, looped, _, -, done⟩ := done
    cases pure_ok.mp done
    rw [reads_of_references temporal referring]
    intro rid member
    obtain ⟨dependency, inside, rfl⟩ := List.mem_map.mp member
    exact semanticSources_names looped dependency inside

def Refers (records : Dict String Record) (rid source : String) : Prop :=
  ∃ row, records.get? rid = some row ∧ source ∈ row.content.semanticSources.keys

/-- The records behind a row, one behind the other. -/
def Behind (records : Dict String Record) (row : Record) (rid : String) : Prop :=
  ∃ first ∈ row.content.semanticSources.keys, Relation.ReflTransGen (Refers records) first rid

structure Fresh (outside : Outside) (records : Dict String Record) (service : Service) (remaining : Nat) (seen : List String) (row : Record) : Prop where
  adopted : row.researchSources = false
  acyclic : row.id ∉ seen
  sourced : outside.assertSources row.content.sources = .ok ()
  captured : ∃ captured, capture outside records service (some row.id) row.content.toPayload = .ok captured ∧ unchanged row captured = true
  chain : ∀ rid ∈ row.content.semanticSources.keys, ∃ next, records.get? rid = some next ∧
    assertFreshBelow outside records service remaining (row.id :: seen) next = .ok ()

theorem forM_intro {α ε : Type} {check : α → Except ε PUnit} {items : List α} (each : ∀ item ∈ items, check item = .ok ()) : items.forM check = .ok () := by
  induction items with
  | nil => rfl
  | cons item items ih =>
    show (check item >>= fun _ => items.forM check) = .ok ()
    rw [each item (List.mem_cons_self ..)]
    exact ih fun other member => each other (List.mem_cons_of_mem _ member)

variable {row : Record}

theorem assertFreshBelow_succ : assertFreshBelow outside records service (remaining + 1) seen row = .ok () ↔
    Fresh outside records service remaining seen row := by
  simp only [assertFreshBelow, bind_ok, mapError_ok, reject_ok, decide_eq_false_iff_not, Bool.not_eq_false']
  constructor
  · rintro ⟨_, adopted, _, acyclic, _, sourced, captured, capturing, _, kept, chained⟩
    refine ⟨adopted, acyclic, sourced, ⟨captured, capturing, kept⟩, ?_⟩
    intro rid member
    have followed := forM_ok chained rid member
    simp only [bind_ok, requireRow_ok] at followed
    exact followed
  · intro fresh
    obtain ⟨captured, capturing, kept⟩ := fresh.captured
    refine ⟨(), fresh.adopted, (), fresh.acyclic, (), fresh.sourced, captured, capturing, (), kept, forM_intro ?_⟩
    intro rid member
    simp only [bind_ok, requireRow_ok]
    exact fresh.chain rid member

theorem Fresh.names (fresh : Fresh outside records service remaining seen row) :
    ∀ rid ∈ row.data.reads, rid ∈ row.content.semanticSources.keys := by
  obtain ⟨captured, capturing, kept⟩ := fresh.captured
  intro rid member
  simp only [unchanged, Bool.and_eq_true] at kept
  obtain ⟨source, there⟩ := Dict.mem_keys_iff.mp (capture_names capturing rid member)
  rw [Dict.agrees_iff.mp kept.1.2 rid] at there
  exact Dict.mem_keys_iff.mpr ⟨source, there⟩

theorem assertFreshBelow_local (same : ∀ rid, Behind records row rid → records.get? rid = other.get? rid)
    (done : assertFreshBelow outside records service remaining seen row = .ok ()) : assertFreshBelow outside other service remaining seen row = .ok () := by
  induction remaining generalizing seen row with
  | zero => cases done
  | succ remaining ih =>
    have fresh := assertFreshBelow_succ.mp done
    apply assertFreshBelow_succ.mpr
    have direct : ∀ rid ∈ row.content.semanticSources.keys, records.get? rid = other.get? rid :=
      fun rid member => same rid ⟨rid, member, Relation.ReflTransGen.refl⟩
    refine ⟨fresh.adopted, fresh.acyclic, fresh.sourced, ?_, ?_⟩
    · obtain ⟨captured, capturing, kept⟩ := fresh.captured
      refine ⟨captured, ?_, kept⟩
      rw [← capture_congr fun rid member => direct rid (fresh.names rid member)]
      exact capturing
    · intro rid member
      obtain ⟨next, found, below⟩ := fresh.chain rid member
      refine ⟨next, direct rid member ▸ found, ih ?_ below⟩
      intro last behind
      obtain ⟨first, inside, path⟩ := behind
      exact same last ⟨rid, member, Relation.ReflTransGen.head ⟨next, found, inside⟩ path⟩

/-- What is behind a row in one collection is so in every collection with the same records there. -/
theorem behind_congr (same : ∀ rid, Behind records row rid → records.get? rid = other.get? rid) (behind : Behind other row rid) :
    Behind records row rid := by
  obtain ⟨first, inside, path⟩ := behind
  induction path with
  | refl => exact ⟨first, inside, Relation.ReflTransGen.refl⟩
  | @tail middle last _ refers ih =>
    obtain ⟨source, found, named⟩ := refers
    obtain ⟨start, member, there⟩ := ih
    refine ⟨start, member, Relation.ReflTransGen.tail there ⟨source, ?_, named⟩⟩
    rw [same middle ⟨start, member, there⟩]
    exact found

theorem isFresh_iff : isFresh outside records row = true ↔ assertFresh outside records .storyGraph row = .ok () := by
  constructor
  · exact fresh_of_isFresh
  · intro done
    rw [isFresh, done]
    rfl

theorem isFresh_local (same : ∀ rid, Behind records row rid → records.get? rid = other.get? rid) :
    isFresh outside records row = isFresh outside other row := by
  apply Bool.eq_iff_iff.mpr
  rw [isFresh_iff, isFresh_iff]
  constructor
  · exact assertFreshBelow_local same
  · apply assertFreshBelow_local
    intro rid behind
    exact (same rid (behind_congr same behind)).symm

end NovelStudio.World
