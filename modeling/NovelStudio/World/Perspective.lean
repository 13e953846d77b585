import NovelStudio.World.Knowledge

/-! What a character is shown (`character_context`, `graph`): the lists of what they know and feel, and the
relations that they know of. -/

namespace NovelStudio.World

open Library Experimental

variable (outside : Outside) (records : Dict String Record) (query : Query)

/-- `scene_id` and `scene_boundary`, where a scene is asked for. -/
def sceneFields (scene : Option Boundary) : Option (String × Option Boundary) := (named query.sceneId).map (·, scene)

structure Context where
  characterId : String
  chapterId : String
  worldTime : Option Int
  calendar : String
  lists : Dict String (List ContextItem)
  scene : Option (String × Option Boundary)

def Category.listed : Category → String
  | .knownFact => "known_facts"
  | .belief => "beliefs"
  | .falseBelief => "false_beliefs"
  | .secret => "secrets"
  | .goal => "goals"
  | .fear => "fears"
  | .value => "values"
  | .emotion => "emotion"
  | .intent => "intent"
  | .relationshipState => "relationships"

def emptyLists : Dict String (List ContextItem) :=
  ["known_facts", "beliefs", "false_beliefs", "secrets", "goals", "fears", "values", "emotion", "intent"].foldl (fun lists name => lists.set name []) ∅

/-- `result.setdefault(categories[data['category']], []).append(item)`. -/
def addItem (lists : Dict String (List ContextItem)) (item : ContextItem) : Dict String (List ContextItem) :=
  lists.set item.category.listed ((lists.get? item.category.listed).getD [] ++ [item])

/-- The result of `character_context`, with its digest. -/
def characterContextResult (digest : Context → String) : Except Failure (Context × String) := do
  let projected ← projection outside records query
  let items ← characterContext outside records query
  let result : Context :=
    { characterId := query.characterId, chapterId := query.chapterId, worldTime := query.worldTime, calendar := query.calendar
      lists := items.foldl addItem emptyLists, scene := sceneFields query projected.scene }
  return (result, digest result)

/-- `_evidence`: where a record stands, never the passages that it quotes. -/
structure EvidenceOf where
  recordId : String
  recordVersion : Nat
  chapterId : Option String
  sourceVersions : Dict String Source

def evidence (row : Record) : EvidenceOf := ⟨row.id, row.version, row.content.chapterId, row.content.sources⟩

structure Edge where
  id : String
  version : Nat
  subject : GraphNode
  object : GraphNode
  relation : RelationName
  layer : Layer
  statement : String
  worldTime : Option Int
  timeState : String
  validFrom : Option Int
  validTo : Option Int
  calendar : String
  evidence : EvidenceOf

structure GraphView where
  characterId : Option String
  chapterId : String
  scene : Option (String × Option Boundary)
  nodes : List GraphNode
  edges : List Edge
  visibleCount : Nat

def edgeOf (row : Record) : Except Failure Edge :=
  match row.data with
  | .storyRelation data =>
    return {
      id := row.id
      version := row.version
      subject := data.subject
      object := data.object
      relation := data.relation
      layer := data.layer
      statement := data.statement
      worldTime := data.worldTime
      timeState := if data.worldTime.isNone then "UNKNOWN" else "KNOWN"
      validFrom := data.validFrom
      validTo := data.validTo
      calendar := data.calendar
      evidence := evidence row }
  | _ => throw (.other "KeyError")

def addNode (nodes : Dict (NodeKind × String) GraphNode) (ref : GraphNode) : Dict (NodeKind × String) GraphNode := nodes.set (ref.kind, ref.id) ref

/-- The result of `graph`, from its edges. -/
def graphView (characterId : Option String) (scene : Option Boundary) (edges : List Edge) : GraphView :=
  let nodes := edges.foldl (fun nodes edge => addNode (addNode nodes edge.subject) edge.object) ∅
  { characterId, chapterId := query.chapterId, scene := sceneFields query scene, nodes := nodes.values, edges, visibleCount := edges.length }

/-- The edge of an entry of the projection, if it is known as such and not just believed. -/
def revealedEdge (active : Dict String Record) (key : Key) (category : Category) : Option (Except Failure Edge) :=
  match key, category with
  | .knowledge rid, .knownFact | .knowledge rid, .secret => some (fetch (rid.bind active.get?) (.other "KeyError") >>= edgeOf)
  | _, _ => none

def characterEdges : Except Failure (List Edge × Option Boundary) := do
  let projected ← projection outside records query
  let revealed := projected.shown.entries.filterMap fun entry => revealedEdge projected.active entry.1 entry.2.data.category
  let edges ← revealed.mapM fun edge => edge
  return (edges, projected.scene)

/-- The edges of the current relations, in the perspective of the author. -/
def authorEdges : Except Failure (List Edge × Option Boundary) := do
  let number ← outside.sequence query.chapterId
  let rows ← rows outside records
  let scene ← sceneBoundary outside query.sceneId query.chapterId
  let edges ← (rows.filter fun row => row.kind = .storyRelation && current outside records query ⟨number, scene⟩ row).mapM edgeOf
  return (edges, scene)

def selectedEdges (characterId : Option String) : Except Failure (List Edge × Option Boundary) :=
  match named characterId with
  | some cid => characterEdges outside records { query with characterId := cid }
  | none => authorEdges outside records query

/-- `graph`, for a character, if any, and the point of a query. -/
def graph (characterId : Option String) : Except Failure GraphView := do
  discard (outside.sequence query.chapterId)
  let (edges, scene) ← selectedEdges outside records query characterId
  return graphView query characterId scene edges

end NovelStudio.World
