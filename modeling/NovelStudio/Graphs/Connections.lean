import NovelStudio.Graphs.Validation
import NovelStudio.Library.Readings

/-! The connection check of the editor (`creative/graphDraft.ts`) and that the server takes what it lets pass. -/

namespace NovelStudio.Graphs

open Library

def productionGraphDefinitions : List DefinitionId := [.imageStyle, .imageUpscale, .directorPlan, .storyboardPlan, .storyboardPrompt]

def imageGraphDefinitions : List DefinitionId :=
  [.textInput, .textReference, .assetReference, .imageReference, .imagePrompt, .imageGenerate, .mediaReview] ++ productionGraphDefinitions

def videoGraphDefinitions : List DefinitionId :=
  [.textInput, .textReference, .assetReference, .directorPlan, .storyboardPlan, .storyboardShot, .videoGenerate, .mediaReview, .timelineExport]

def graphLocalSubgraphParentIds : List DefinitionId :=
  [.textInput, .textReference, .draftPrepare, .manualTransform, .directorNote, .humanReview, .localSubgraph]

def graphConditionsIds : List DefinitionId :=
  [.textInput, .localCondition, .textReference, .draftPrepare, .manualTransform, .humanReview]

/-- The filter of `graphCatalogForSchema`. -/
def offered (schema : Nat) (kind : DefinitionId) : Bool :=
  if schema = 7 then kind ∈ graphConditionsIds
  else kind ≠ .localCondition &&
    (if schema = 6 then kind ∈ graphLocalSubgraphParentIds
    else kind ≠ .localSubgraph &&
      (if schema = 5 then kind ∈ videoGraphDefinitions
      else if schema = 4 then kind ∈ imageGraphDefinitions
      else kind ∉ [DefinitionId.imageReference, .imagePrompt, .imageGenerate] ++ productionGraphDefinitions ++ [.storyboardShot, .videoGenerate]))

/-- What `graphCatalogForSchema` makes of a row. -/
def adapted (schema : Nat) (row : CatalogRow) : CatalogRow :=
  if row.id = .mediaReview ∧ schema = 5 then { row with inputs := [requiredPort "candidate" .videoCandidate] }
  else if row.id = .timelineExport ∧ schema = 5 then { row with outputs := [port "candidate" .videoCandidate] }
  else if row.id = .humanReview ∧ schema ≠ 3 then { row with outputs := [] }
  else row

def graphCatalogForSchema (catalog : List CatalogRow) (schema : Nat) : List CatalogRow :=
  (catalog.filter fun row => offered schema row.id).map (adapted schema)

def outputOf (descriptors : List CatalogRow) (source : NodeInstance) (sourcePort : String) : Option Port :=
  (descriptors.find? fun row => row.id = source.definitionId).bind fun row => row.outputs.find? fun port => port.id = sourcePort

def inputOf (descriptors : List CatalogRow) (target : NodeInstance) (targetPort : String) : Option Port :=
  (descriptors.find? fun row => row.id = target.definitionId).bind fun row => row.inputs.find? fun port => port.id = targetPort

def imageKinds : List DefinitionId := [.imageReference, .imagePrompt, .imageGenerate, .imageStyle, .imageUpscale, .storyboardPrompt]

def videoKinds : List DefinitionId := [.storyboardShot, .videoGenerate]

/-- The target is not the candidate of a media review. -/
def besidesReview (target : NodeInstance) (edge : TypedEdge) : Bool := target.definitionId ≠ .mediaReview || edge.targetPort ≠ "candidate"

/-- What the schemas of media and the reviews of candidates ask of an edge. -/
def mediaChecks (definition : GraphInput) (source target : NodeInstance) (edge : TypedEdge) : Except String Unit := do
  reject ((source.definitionId ∈ imageKinds || target.definitionId ∈ imageKinds) && definition.schemaVersion ≠ 4) "图片节点需要明确采用图片图 v4。"
  reject (source.definitionId ∈ [DefinitionId.imageGenerate, .imageUpscale] && besidesReview target edge)
    "图片候选须连接原媒体审核节点，审核后才输出正式素材。"
  reject ((source.definitionId ∈ videoKinds || target.definitionId ∈ videoKinds) && definition.schemaVersion ≠ 5) "视频节点需要明确采用视频图 v5。"
  reject (source.definitionId = .videoGenerate && besidesReview target edge) "视频候选必须通过原媒体审核节点。"
  reject (target.definitionId = .timelineExport && definition.schemaVersion ∉ ([3, 5] : List Nat)) "时间线剪辑与导出需要明确升级为媒体图 v3。"
  reject (source.definitionId = .timelineExport && besidesReview target edge)
    "时间线导出候选须连接原媒体审核节点，审核后才可作为正式视频素材。"

/-- The source is a review, in schema 3, of the draft of a text model. -/
def reviewedDraft (definition : GraphInput) (source : NodeInstance) (edge : TypedEdge) : Bool :=
  definition.schemaVersion = 3 && source.definitionId = .humanReview && edge.sourcePort = "reviewed_draft" &&
    (definition.edges.find? fun row => row.targetNodeId = source.id && row.targetPort = "draft").any fun parent =>
      parent.sourcePort = "draft" && (definition.node? parent.sourceNodeId).map NodeInstance.definitionId = some .textGenerate

/-- The two inputs of a media node exclude each other, and a draft is reviewed first. -/
def draftChecks (definition : GraphInput) (source target : NodeInstance) (edge : TypedEdge) : Except String Unit :=
  onlyIf (target.definitionId = .mediaGenerate && edge.targetPort ∈ ["text", "draft"]) do
    reject (definition.edges.any fun row => row.targetNodeId = target.id && row.targetPort = (if edge.targetPort = "draft" then "text" else "draft"))
      "媒体节点的文本与已审核草稿输入互斥，请先明确移除另一条输入连接。"
    onlyIf (edge.targetPort = "draft") (reject (!reviewedDraft definition source edge)
      "先连接原文字模型的 draft 到人工审核，再将该审核节点的 reviewed_draft 连接到媒体 draft；未审核模型提案不能直接进入媒体。")

/-- The checks of `connectionIssue`, with what it returns as the error. -/
def connectionChecks (definition : GraphInput) (catalog : List CatalogRow) (edge : TypedEdge) : Except String Unit := do
  let source ← fetch (definition.node? edge.sourceNodeId) "请选择当前图中的两个节点。"
  let target ← fetch (definition.node? edge.targetNodeId) "请选择当前图中的两个节点。"
  reject (source.id = target.id) "节点不能连接自身。"
  let output ← fetch (outputOf (graphCatalogForSchema catalog definition.schemaVersion) source edge.sourcePort) "请选择真实的输出端口和输入端口。"
  let input ← fetch (inputOf (graphCatalogForSchema catalog definition.schemaVersion) target edge.targetPort) "请选择真实的输出端口和输入端口。"
  reject (output.type ≠ input.type) ("端口类型不匹配：" ++ output.type.name ++ " → " ++ input.type.name ++ "。")
  mediaChecks definition source target edge
  draftChecks definition source target edge
  reject (definition.edges.any fun row => row.sourceNodeId = source.id && row.sourcePort = edge.sourcePort && row.targetNodeId = target.id
    && row.targetPort = edge.targetPort) "此连接已经存在。"
  reject (!input.multiple && definition.edges.any fun row => row.targetNodeId = target.id && row.targetPort = edge.targetPort)
    "该输入端口只接受一个连接。"
  reject (reaches definition.links source.id [] [target.id]) "此连接会形成循环，无法保存。"

def connectionIssue (definition : GraphInput) (catalog : List CatalogRow) (edge : TypedEdge) : Option String :=
  match connectionChecks definition catalog edge with
  | .ok () => none
  | .error issue => some issue

/-- The type that the graph's own schema gives to a port of any published row. -/
def settledType (schema : Nat) (type : PortType) : PortType := if schema ≠ 5 ∧ type = .videoCandidate then .mediaCandidate else type

def settled (schema : Nat) (port : Port) : Port := { port with type := settledType schema port.type }

/-- The ports an editor sees are ports of the server's own definition, one edge each. -/
def portsAgree (schema : Nat) (row : CatalogRow) : Except String Definition → Bool
  | .ok definition =>
    (row.outputs.all fun port => (definition.outputs.find? fun other => other.id = port.id) = some (settled schema port)) &&
      row.inputs.all fun port => !port.multiple && (definition.inputs.find? fun other => other.id = port.id) = some (settled schema port)
  | .error _ => false

/-- The schemas whose ports published rows have. -/
def catalogSchemas : List (Option Nat) := [some 6, some 5, some 3, none, some 7]

def rowAgrees (schema : Nat) (published : Option Nat) (kind : DefinitionId) : Bool :=
  match catalogRow published kind with
  | .ok row => !offered schema kind || portsAgree schema (adapted schema row) (definitionFor (some schema) kind)
  | .error _ => true

theorem rows_agree : ∀ schema ∈ supportedSchemaVersions, ∀ published ∈ catalogSchemas, ∀ kind ∈ definitionKeys,
    rowAgrees schema published kind = true := by decide +kernel

variable {row : CatalogRow}

theorem catalogRow_id {published : Option Nat} {key : DefinitionId} (made : catalogRow published key = .ok row) :
    row.id = key := by
  obtain ⟨value, -, same⟩ := bind_ok.mp made
  rw [← pure_ok.mp same]

theorem mem_catalogRows {published : Option Nat} {keys : List DefinitionId} {rows : List CatalogRow}
    (made : keys.mapM (catalogRow published) = .ok rows) (member : row ∈ rows) : catalogRow published row.id = .ok row := by
  obtain ⟨key, -, here⟩ := exists_of_forall₂ (mapM_ok.mp made) member
  rw [catalogRow_id here, here]

theorem mem_catalogDefinitions {flags : CatalogFlags} {rows : List CatalogRow} (made : catalogDefinitions flags = .ok rows)
    (member : row ∈ rows) : catalogRow flags.schemaVersion row.id = .ok row := by
  obtain ⟨all, listed, same⟩ := bind_ok.mp made
  rw [← pure_ok.mp same] at member
  exact mem_catalogRows listed (List.mem_filter.mp member).1

variable {catalog : List CatalogRow}

theorem published_row {owner : CatalogOwner} {request : CatalogRequest}
    (published : owner.catalog request = .ok catalog) (member : row ∈ catalog) :
    ∃ schema ∈ catalogSchemas, catalogRow schema row.id = .ok row := by
  unfold CatalogOwner.catalog at published
  split at published
  · obtain ⟨_, -, published⟩ := bind_ok.mp published
    obtain ⟨_, -, published⟩ := bind_ok.mp published
    exact ⟨some 7, by decide, mem_catalogRows published member⟩
  · split at published
    · obtain ⟨_, -, published⟩ := bind_ok.mp published
      exact ⟨some 6, by decide, mem_catalogDefinitions published member⟩
    · obtain ⟨_, -, published⟩ := bind_ok.mp published
      refine ⟨(owner.flags request).schemaVersion, ?_, mem_catalogDefinitions published member⟩
      unfold CatalogFlags.schemaVersion
      split
      · decide
      · split
        · decide
        · split <;> decide

theorem offered_row {owner : CatalogOwner} {request : CatalogRequest}
    (published : owner.catalog request = .ok catalog) (supported : schema ∈ supportedSchemaVersions)
    (member : row ∈ graphCatalogForSchema catalog schema) :
    ∃ definition, definitionFor (some schema) row.id = .ok definition ∧
      (∀ port ∈ row.outputs, (definition.outputs.find? fun other => other.id = port.id) = some (settled schema port)) ∧
      ∀ port ∈ row.inputs, port.multiple = false ∧ (definition.inputs.find? fun other => other.id = port.id) = some (settled schema port) := by
  obtain ⟨original, kept, rfl⟩ := List.mem_map.mp member
  obtain ⟨listed, shown⟩ := List.mem_filter.mp kept
  have same : (adapted schema original).id = original.id := by
    unfold adapted
    split
    · rfl
    · split
      · rfl
      · split <;> rfl
  obtain ⟨from_, of, made⟩ := published_row published listed
  have agrees := rows_agree schema supported from_ of original.id (mem_definitionKeys _)
  rw [rowAgrees, made] at agrees
  simp only [shown, Bool.not_true, Bool.false_or] at agrees
  rw [same]
  cases found : definitionFor (some schema) original.id with
  | error failure =>
    rw [found] at agrees
    cases agrees
  | ok definition =>
    rw [found, portsAgree, Bool.and_eq_true, List.all_eq_true, List.all_eq_true] at agrees
    refine ⟨definition, rfl, ?_, ?_⟩
    · intro port inside
      exact of_decide_eq_true (agrees.1 port inside)
    · intro port inside
      obtain ⟨single, there⟩ := Bool.and_eq_true_iff.mp (agrees.2 port inside)
      exact ⟨Bool.not_eq_true' _ |>.mp single, of_decide_eq_true there⟩

theorem connectionIssue_none {definition : GraphInput} {edge : TypedEdge} :
    connectionIssue definition catalog edge = none ↔ connectionChecks definition catalog edge = .ok () := by
  unfold connectionIssue
  cases connectionChecks definition catalog edge with
  | ok => exact iff_of_true rfl rfl
  | error issue => exact iff_of_false nofun nofun

/-- Whatever catalog was published, an edge the editor has nothing against keeps the rules of the edges of a definition
that was accepted; with a fresh id, only the size of what results is left to check. -/
theorem connection_sound {size : GraphInput → Nat} {owner : CatalogOwner} {request : CatalogRequest} {catalog : List CatalogRow}
    {definition : GraphInput} {edge : TypedEdge} (accepted : Accepted size definition) (published : owner.catalog request = .ok catalog)
    (fresh : ∀ other ∈ definition.edges, other.id ≠ edge.id) (quiet : connectionIssue definition catalog edge = none) :
    edgeRules (definition.addEdge edge) = .ok () ∧
      validateGraph size (definition.addEdge edge) =
        reject (maxDefinitionBytes < size (definition.addEdge edge)) "CREATIVE_GRAPH_DEFINITION_CAPACITY" := by
  have passed := connectionIssue_none.mp quiet
  simp only [connectionChecks, bind_ok, fetch_ok, reject_ok, decide_eq_false_iff_not, not_not] at passed
  obtain ⟨source, sourceAt, target, targetAt, _, apart, output, outputAt, input, inputAt, _, typed, -, -, -, -, _, new, _, single, searched⟩ := passed
  obtain ⟨sourceRow, sourceListed, outputAt⟩ := Option.bind_eq_some_iff.mp outputAt
  obtain ⟨targetRow, targetListed, inputAt⟩ := Option.bind_eq_some_iff.mp inputAt
  have sourceKind : sourceRow.id = source.definitionId := of_decide_eq_true (List.find?_some sourceListed :)
  have targetKind : targetRow.id = target.definitionId := of_decide_eq_true (List.find?_some targetListed :)
  have outputName : output.id = edge.sourcePort := of_decide_eq_true (List.find?_some outputAt :)
  have inputName : input.id = edge.targetPort := of_decide_eq_true (List.find?_some inputAt :)
  obtain ⟨outputs, outputsOf, outputsAgree, -⟩ := offered_row published accepted.supported (List.mem_of_find?_eq_some sourceListed)
  obtain ⟨inputs, inputsOf, -, inputsAgree⟩ := offered_row published accepted.supported (List.mem_of_find?_eq_some targetListed)
  have outputThere := outputsAgree output (List.mem_of_find?_eq_some outputAt)
  obtain ⟨alone, inputThere⟩ := inputsAgree input (List.mem_of_find?_eq_some inputAt)
  rw [sourceKind] at outputsOf
  rw [targetKind] at inputsOf
  rw [outputName] at outputThere
  rw [inputName] at inputThere
  have fits : Fits definition edge :=
    ⟨source, target, outputs, inputs, _, _, sourceAt, targetAt, outputsOf, inputsOf, outputThere, inputThere, congrArg (settledType _) typed⟩
  have sourceId : source.id = edge.sourceNodeId := of_decide_eq_true (List.find?_some sourceAt :)
  have targetId : target.id = edge.targetNodeId := of_decide_eq_true (List.find?_some targetAt :)
  have free : ∀ other ∈ definition.edges, other.targetKey ≠ edge.targetKey := by
    rw [alone, Bool.not_false, Bool.true_and, List.any_eq_false] at single
    intro other inside same
    obtain ⟨node, slot⟩ := Prod.mk.inj same
    apply single other inside
    rw [targetId, node, slot, decide_eq_true rfl, decide_eq_true rfl, Bool.and_self]
  have unlinked : ¬ Relation.ReflTransGen (Precedes definition.links) edge.targetNodeId edge.sourceNodeId := by
    rw [sourceId, targetId] at searched
    exact not_reaches searched
  obtain ⟨_, -, valid⟩ := bind_ok.mp accepted.valid
  obtain ⟨_, -, valid⟩ := bind_ok.mp valid
  obtain ⟨_, -, valid⟩ := bind_ok.mp valid
  obtain ⟨_, ruled, -⟩ := bind_ok.mp valid
  have rules : edgeRules (definition.addEdge edge) = .ok () := by
    apply edgeRules_add ruled fits _ free unlinked
    intro other inside same
    exact free other inside (congrArg (fun key => (key.2.2.1, key.2.2.2)) same)
  exact ⟨rules, validateGraph_add accepted.valid fresh rules⟩

/-- A draft of a text model that waits for its review and for the media made of it. -/
def draftedMedia : GraphInput where
  schemaVersion := 3
  title := "开场"
  nodes := [⟨"idea", .textInput⟩, ⟨"note", .textReference⟩, ⟨"model", .textGenerate⟩, ⟨"review", .humanReview⟩, ⟨"media", .mediaGenerate⟩]
  edges := [⟨"first", "idea", "text", "note", "text"⟩, ⟨"second", "note", "text", "model", "text"⟩, ⟨"third", "model", "draft", "review", "draft"⟩]
  groups := [⟨"words", none, ["idea", "note"]⟩]

def reviewedEdge : TypedEdge := ⟨"fourth", "review", "reviewed_draft", "media", "draft"⟩

def mediaOwner : CatalogOwner := ⟨true, true, true, .ok (), .error "CREATIVE_GRAPH_CONDITIONS_DISABLED"⟩

def plainRequest : CatalogRequest := ⟨false, false, false, false, false⟩

def plainCatalog : List CatalogRow :=
  match mediaOwner.catalog plainRequest with
  | .ok rows => rows
  | .error _ => []

theorem draftedMedia_sound : edgeRules (draftedMedia.addEdge reviewedEdge) = .ok () ∧
    validateGraph (fun definition => 600 + 200 * definition.nodes.length + 200 * definition.edges.length) (draftedMedia.addEdge reviewedEdge) =
      reject false "CREATIVE_GRAPH_DEFINITION_CAPACITY" := by
  have published : mediaOwner.catalog plainRequest = .ok plainCatalog := by decide +kernel
  have accepted : Accepted (fun definition => 600 + 200 * definition.nodes.length + 200 * definition.edges.length) draftedMedia := by
    refine ⟨by decide, by decide, ?_⟩
    decide +kernel
  exact connection_sound accepted published (by decide) (by decide +kernel)

end NovelStudio.Graphs
