import NovelStudio.Library.Fallible
import NovelStudio.Library.Json
import NovelStudio.Library.Splitting

/-! Documents and their text (`document.py`): which documents are valid, and the text of one. -/

namespace NovelStudio.Documents

open Library

def TEXT_BLOCKS : List String := ["paragraph", "heading", "codeBlock"]
def CONTAINERS : List String := ["doc", "blockquote", "bulletList", "orderedList", "listItem"]
def MEDIA : List String := ["image", "audio", "video"]
def LEAVES : List String := ["text", "hardBreak", "horizontalRule"] ++ MEDIA
def MARKS : List String := ["bold", "italic", "strike", "code", "underline", "subscript", "superscript"]

/-- `value in names` for what a node has under a key; a list or an object has no hash. -/
def oneOf (names : List String) : Option Json → Except String Bool
  | some (.list _) | some (.dict _) => .error "unhashable type"
  | some (.str name) => .ok (names.contains name)
  | _ => .ok false

/-- The children of a node whose content is valid. -/
def childrenOf (node : Json) : List Json :=
  match node.get? "content" with
  | some (.list children) => children
  | _ => []

theorem sizeOf_childrenOf {node child : Json} (member : child ∈ childrenOf node) : sizeOf child < sizeOf node := by
  cases node with
  | dict fields =>
    rw [childrenOf, Json.get?] at member
    split at member
    · rename_i children found
      have listed := List.sizeOf_lt_of_mem member
      have held := List.sizeOf_lt_of_mem (mem_of_lookup found)
      simp only [Prod.mk.sizeOf_spec, Json.list.sizeOf_spec, Json.dict.sizeOf_spec] at held ⊢
      omega
    · exact nomatch member
  | _ => exact nomatch member

/-- `node.get("attrs") or {}`. -/
def attrsOf (node : Json) : Json :=
  match node.get? "attrs" with
  | some attrs => if attrs.truthy then attrs else .dict []
  | none => .dict []

/-- `[A-Za-z0-9][A-Za-z0-9_.:-]{0,239}`. -/
def isAssetId (text : String) : Bool :=
  match text.toList with
  | first :: rest => first.isAlphanum && rest.length ≤ 239 && rest.all fun char => char.isAlphanum || char ∈ ['_', '.', ':', '-']
  | [] => false

/-- `None`, or a string of at most 200 characters. -/
def isDescription : Json → Bool
  | .null => true
  | .str text => text.length ≤ 200
  | _ => false

def checkMedia (kind : String) (attrs : List (String × Json)) : Except String Unit := do
  let allowed := ["asset_id", "title"] ++ if kind = "image" then ["alt"] else []
  let asset := match lookup "asset_id" attrs with
    | some (.str asset) => isAssetId asset
    | _ => false
  reject (attrs.any (fun attr => !allowed.contains attr.1) || !asset) "unsupported media reference or attributes"
  reject (attrs.any fun attr => attr.1 ≠ "asset_id" && !isDescription attr.2) "unsupported media descriptive text"

/-- An integer, where the key is there. -/
def isInt (value : Option Json) (within : Int → Bool) : Bool :=
  match value with
  | some (.int value) => within value
  | some _ => false
  | none => true

def isLanguage : Option Json → Bool
  | some (.str _) => true
  | some value => !value.truthy
  | none => true

/-- `any(...)` over children or marks: the first that fails decides. -/
def anyFails (test : Json → Except String Bool) : List Json → Except String Bool
  | [] => .ok false
  | item :: rest => do
    let passes ← test item
    if passes then anyFails test rest else return true

def checkNode (node : Json) : Except String Unit := do
  let known ← oneOf (TEXT_BLOCKS ++ CONTAINERS ++ LEAVES) (node.get? "type")
  reject (!known) "unsupported document node"
  let kind := match node.get? "type" with
    | some (.str kind) => kind
    | _ => ""
  let listed := match node.get? "content" with
    | none => true
    | some (.list children) => children.all Json.isDict
    | some _ => false
  reject (!listed) "unsupported document content"
  let children := childrenOf node
  reject (LEAVES.contains kind && !children.isEmpty) "unsupported leaf content"
  let isText := match node.get? "text" with
    | some (.str _) => true
    | _ => false
  reject (kind = "text" && !isText) "unsupported document text"
  reject (kind ≠ "text" && (node.get? "text").isSome) "unsupported text outside a text node"
  let attrs := attrsOf node
  reject (!attrs.isDict) "unsupported document attributes"
  if MEDIA.contains kind then
    match attrs with
    | .dict attrs => checkMedia kind attrs
    | _ => pure ()
  reject (kind = "heading" && !isInt (attrs.get? "level") fun level => 1 ≤ level && level ≤ 6) "unsupported heading level"
  reject (kind = "orderedList" && !isInt (attrs.get? "start") fun _ => true) "unsupported ordered list start"
  reject (kind = "codeBlock" && !isLanguage (attrs.get? "language")) "unsupported code language"
  let marked ← match node.get? "marks" with
    | none => pure false
    | some (.list marks) => anyFails (fun mark => if mark.isDict then oneOf MARKS (mark.get? "type") else pure false) marks
    | some _ => pure true
  reject marked "unsupported document mark"
  if TEXT_BLOCKS.contains kind then
    let other ← anyFails (fun child => oneOf ["text", "hardBreak"] (child.get? "type")) children
    reject other "unsupported inline document node"
  if CONTAINERS.contains kind then
    let inline ← anyFails (fun child => do return !(← oneOf ["text", "hardBreak", "doc"] (child.get? "type"))) children
    reject inline "unsupported block document node"
  reject (["bulletList", "orderedList"].contains kind && children.any fun child => match child.get? "type" with
    | some (.str kind) => kind ≠ "listItem"
    | _ => true) "unsupported list child"

/-- A node and what is below it, the last children first. -/
def validateNode (node : Json) : Except String Unit := do
  checkNode node
  (childrenOf node).reverse.attach.forM fun child =>
    have : sizeOf child.val < sizeOf node := sizeOf_childrenOf (List.mem_reverse.mp child.property)
    validateNode child.val
termination_by sizeOf node

def validateDocument (doc : Json) : Except String Unit := do
  let rooted := match doc.get? "type" with
    | some (.str kind) => kind = "doc"
    | _ => false
  reject (!rooted) "unsupported document root"
  validateNode doc

def kindOf (node : Json) : String :=
  match node.get? "type" with
  | some (.str kind) => kind
  | _ => ""

def mediaPlaceholder (node : Json) : List Char :=
  let described := ["title", "alt"].filterMap fun key =>
    match (attrsOf node).get? key with
    | some (.str text) => some text.toList
    | _ => none
  ['\n'].intercalate (("[" ++ kindOf node ++ " media not embedded]").toList :: described)

def inlineText (mediaPlaceholders : Bool) (node : Json) : List Char :=
  if MEDIA.contains (kindOf node) then if mediaPlaceholders then mediaPlaceholder node else []
  else if kindOf node = "text" then
    match node.get? "text" with
    | some (.str text) => text.toList
    | _ => []
  else if kindOf node = "hardBreak" then ['\n']
  else
    (childrenOf node).attach.flatMap fun (child : { child // child ∈ childrenOf node }) =>
      have : sizeOf child.val < sizeOf node := sizeOf_childrenOf child.property
      inlineText mediaPlaceholders child.val
termination_by sizeOf node

def textBlocks (mediaPlaceholders : Bool) (node : Json) : List (List Char) :=
  if TEXT_BLOCKS.contains (kindOf node) then [inlineText mediaPlaceholders node]
  else if MEDIA.contains (kindOf node) && mediaPlaceholders then [mediaPlaceholder node]
  else
    (childrenOf node).attach.flatMap fun (child : { child // child ∈ childrenOf node }) =>
      have : sizeOf child.val < sizeOf node := sizeOf_childrenOf child.property
      textBlocks mediaPlaceholders child.val
termination_by sizeOf node

/-- `plain_text`, but for its warning about media. -/
def plainText (doc : Json) (mediaPlaceholders : Bool) : Except String (List Char) := do
  validateDocument doc
  return ['\n'].intercalate (textBlocks mediaPlaceholders doc)

end NovelStudio.Documents

/-! The import of Markdown (`markdown_to_document`), and which of its words are in the text of the
document that it gives. -/

namespace NovelStudio.Documents

open Library

/-- What is behind the last line feed of the white space that a text begins with: `\s*\n`. -/
def afterFeed : List Char → Option (List Char)
  | [] => none
  | char :: rest => (if isSpace char then afterFeed rest else none).or (if char = '\n' then some rest else none)

theorem isSpace_feed : isSpace '\n' = true := by decide

variable {later text : List Char}

theorem afterFeed_spaces (fed : afterFeed text = some later) :
    ∃ gap, text = gap ++ later ∧ gap ≠ [] ∧ ∀ char ∈ gap, isSpace char = true := by
  induction text generalizing later with
  | nil => cases fed
  | cons char rest ih =>
    rw [afterFeed, Option.or_eq_some_iff] at fed
    rcases fed with further | ⟨_, here⟩
    · split at further
      · rename_i space
        obtain ⟨gap, rfl, _, spaces⟩ := ih further
        exact ⟨char :: gap, rfl, List.cons_ne_nil _ _, List.forall_mem_cons.mpr ⟨space, spaces⟩⟩
      · cases further
    · split at here
      · rename_i feed
        obtain rfl := Option.some.inj here
        exact ⟨[char], rfl, List.cons_ne_nil _ _, List.forall_mem_singleton.mpr (feed ▸ isSpace_feed)⟩
      · cases here

variable {char : Char} {rest : List Char}

theorem afterFeed_length (fed : (if char = '\n' then afterFeed rest else none) = some later) :
    later.length < rest.length := by
  split at fed
  · obtain ⟨gap, rfl, some, _⟩ := afterFeed_spaces fed
    have longer := List.length_pos_iff.mpr some
    rw [List.length_append]
    omega
  · cases fed

/-- `re.split(r"\n\s*\n", text)`. -/
def splitBlocks : List Char → List (List Char)
  | [] => [[]]
  | char :: rest =>
    match fed : if char = '\n' then afterFeed rest else none with
    | some later => [] :: splitBlocks later
    | none => consHead char (splitBlocks rest)
termination_by text => text.length
decreasing_by
  · have shorter := afterFeed_length fed
    rw [List.length_cons]
    omega
  · simp

theorem splitBlocks_fed (fed : (if char = '\n' then afterFeed rest else none) = some later) :
    splitBlocks (char :: rest) = [] :: splitBlocks later := by
  rw [splitBlocks]
  split
  · rename_i found
    rw [Option.some.inj (fed.symm.trans found)]
  · rename_i none
    rw [fed] at none
    cases none

theorem splitBlocks_unfed (unfed : (if char = '\n' then afterFeed rest else none) = none) :
    splitBlocks (char :: rest) = consHead char (splitBlocks rest) := by
  rw [splitBlocks]
  split
  · rename_i found
    rw [unfed] at found
    cases found
  · rfl

theorem parted_splitBlocks (text : List Char) : Parted isSpace text (splitBlocks text) := by
  induction text using splitBlocks.induct with
  | case1 =>
    rw [splitBlocks]
    exact .last []
  | case2 char rest later fed ih =>
    rw [splitBlocks_fed fed]
    split at fed
    · rename_i feed
      obtain ⟨gap, rfl, _, spaces⟩ := afterFeed_spaces fed
      have parted : Parted isSpace ((char :: gap) ++ later) ([] :: splitBlocks later) :=
        ih.gap (List.cons_ne_nil _ _) (List.forall_mem_cons.mpr ⟨feed ▸ isSpace_feed, spaces⟩)
      exact parted
    · cases fed
  | case3 char rest unfed ih =>
    rw [splitBlocks_unfed unfed]
    exact ih.consHead char

/-- The marks of a heading and the text behind them: `^(#{1,6})\s+(.*)$`. -/
def headingOf (block : List Char) : Option (Nat × List Char) :=
  let marks := block.takeWhile (· = '#')
  let rest := block.dropWhile (· = '#')
  if (1 ≤ marks.length && marks.length ≤ 6) && rest.head?.any isSpace then some (marks.length, stripBy isSpace (rest.dropWhile isSpace)) else none

def fence : List Char := ['`', '`', '`']

def textNode (text : List Char) : Json := .dict [("type", .str "text"), ("text", .str (String.ofList text))]

def headingNode (level : Nat) (text : List Char) : Json :=
  .dict [("type", .str "heading"), ("attrs", .dict [("level", .int level)]), ("content", .list [textNode text])]

def codeNode (language : List Char) (lines : List (List Char)) : Json :=
  .dict [("type", .str "codeBlock"), ("attrs", .dict [("language", if language = [] then .null else .str (String.ofList language))]),
    ("content", .list [textNode (['\n'].intercalate lines)])]

def paragraphNode (text : List Char) : Json := .dict [("type", .str "paragraph"), ("content", .list [textNode text])]

/-- The node of a block. Of a block of code, the first and the last line are left out. -/
def nodeOf (block : List Char) : Json :=
  match headingOf block with
  | some (level, text) => headingNode level text
  | none =>
    if fence.isPrefixOf block then
      let lines := splitLines block
      codeNode ((lines.headD []).drop 3) lines.tail.dropLast
    else paragraphNode block

def blocksOf (markdown : List Char) : List (List Char) := (splitBlocks (stripBy isSpace markdown)).filter fun block => !block.isEmpty

def markdownToDocument (markdown : List Char) : Json :=
  .dict [("type", .str "doc"), ("content", .list ((blocksOf markdown).map nodeOf))]

variable {block markdown : List Char}

theorem headingOf_level {level : Nat} (heading : headingOf block = some (level, text)) : 1 ≤ level ∧ level ≤ 6 := by
  rw [headingOf] at heading
  split at heading
  · rename_i marked
    simp only [Bool.and_eq_true, decide_eq_true_eq] at marked
    cases heading
    exact marked.1
  · cases heading

variable {fields : List (String × Json)}

theorem childrenOf_list {children : List Json} (content : lookup "content" fields = some (.list children)) :
    childrenOf (.dict fields) = children := by
  rw [childrenOf, Json.get?, content]

theorem validateNode_ok {node : Json} (own : checkNode node = .ok ()) (below : ∀ child ∈ childrenOf node, validateNode child = .ok ()) :
    validateNode node = .ok () := by
  rw [validateNode, own]
  have all : ∀ children : List { child // child ∈ (childrenOf node).reverse }, children.forM (fun child => validateNode child.val) = .ok () := by
    intro children
    induction children with
    | nil => rfl
    | cons child rest ih =>
      rw [List.forM_eq_forM] at ih ⊢
      rw [List.forM_cons, below child.val (List.mem_reverse.mp child.property)]
      exact ih
  exact all _

theorem validate_textNode (text : List Char) : validateNode (textNode text) = .ok () := by
  apply validateNode_ok
  · rfl
  · intro child member
    cases member

theorem checkNode_heading {level : Nat} (bounds : 1 ≤ level ∧ level ≤ 6) (text : List Char) : checkNode (headingNode level text) = .ok () := by
  obtain rfl | rfl | rfl | rfl | rfl | rfl : level = 1 ∨ level = 2 ∨ level = 3 ∨ level = 4 ∨ level = 5 ∨ level = 6 := by omega
  all_goals rfl

theorem checkNode_code (language : List Char) (lines : List (List Char)) : checkNode (codeNode language lines) = .ok () := by
  rw [codeNode]
  split
  · rfl
  · rfl

theorem checkNode_paragraph (text : List Char) : checkNode (paragraphNode text) = .ok () := by
  rfl

theorem validate_block (content : lookup "content" fields = some (.list [textNode text]))
    (own : checkNode (.dict fields) = .ok ()) : validateNode (.dict fields) = .ok () := by
  apply validateNode_ok own
  intro child member
  rw [childrenOf_list content] at member
  rw [List.mem_singleton.mp member]
  exact validate_textNode text

theorem validate_nodeOf (block : List Char) : validateNode (nodeOf block) = .ok () := by
  rw [nodeOf]
  split
  · rename_i level text heading
    exact validate_block rfl (checkNode_heading (headingOf_level heading) text)
  · split
    · exact validate_block rfl (checkNode_code _ _)
    · exact validate_block rfl (checkNode_paragraph block)

theorem nodeOf_kind (block : List Char) : (nodeOf block).isDict = true ∧ ∃ kind ∈ TEXT_BLOCKS, (nodeOf block).get? "type" = some (.str kind) := by
  rw [nodeOf]
  split
  · exact ⟨rfl, "heading", by decide, rfl⟩
  · split
    · exact ⟨rfl, "codeBlock", by decide, rfl⟩
    · exact ⟨rfl, "paragraph", by decide, rfl⟩

theorem anyFails_none {test : Json → Except String Bool} {items : List Json} (passes : ∀ item ∈ items, test item = .ok true) :
    anyFails test items = .ok false := by
  induction items with
  | nil => rfl
  | cons item rest ih =>
    rw [List.forall_mem_cons] at passes
    rw [anyFails, passes.1]
    exact ih passes.2

theorem validate_markdown (markdown : List Char) : validateDocument (markdownToDocument markdown) = .ok () := by
  have kinds : ∀ child ∈ (blocksOf markdown).map nodeOf, child.isDict = true ∧ ∃ kind ∈ TEXT_BLOCKS, child.get? "type" = some (.str kind) := by
    intro child member
    obtain ⟨block, _, rfl⟩ := List.mem_map.mp member
    exact nodeOf_kind block
  have below : ∀ child ∈ (blocksOf markdown).map nodeOf, validateNode child = .ok () := by
    intro child member
    obtain ⟨block, _, rfl⟩ := List.mem_map.mp member
    exact validate_nodeOf block
  rw [validateDocument, markdownToDocument]
  generalize (blocksOf markdown).map nodeOf = children at kinds below
  have dicts : children.all Json.isDict = true := List.all_eq_true.mpr fun child member => (kinds child member).1
  have blocks : anyFails (fun child => do return !(← oneOf ["text", "hardBreak", "doc"] (child.get? "type"))) children = .ok false := by
    apply anyFails_none
    intro child member
    obtain ⟨_, kind, listed, found⟩ := kinds child member
    rw [found]
    simp only [TEXT_BLOCKS, List.mem_cons, List.not_mem_nil, or_false] at listed
    rcases listed with rfl | rfl | rfl <;> rfl
  have own : checkNode (.dict [("type", .str "doc"), ("content", .list children)]) = .ok () := by
    have listed : childrenOf (.dict [("type", .str "doc"), ("content", .list children)]) = children := childrenOf_list rfl
    have typed : (Json.dict [("type", .str "doc"), ("content", .list children)]).get? "type" = some (.str "doc") := rfl
    have content : (Json.dict [("type", .str "doc"), ("content", .list children)]).get? "content" = some (.list children) := rfl
    rw [checkNode]
    simp only [listed, typed, content, dicts, blocks]
    rfl
  exact validateNode_ok own fun child member => below child (by rwa [childrenOf_list rfl] at member)

/-- The text of a block in the text of the document. -/
def textOf (block : List Char) : List Char :=
  match headingOf block with
  | some (_, text) => text
  | none => if fence.isPrefixOf block then ['\n'].intercalate (splitLines block).tail.dropLast else block

theorem inlineText_textNode (text : List Char) : inlineText false (textNode text) = text := by
  rw [inlineText]
  exact String.toList_ofList

theorem attach_flatMap {α β : Type} (items : List α) (read : α → List β) : items.attach.flatMap (fun item => read item.val) = items.flatMap read := by
  rw [← List.flatMap_map, List.attach_map_subtype_val]

theorem textBlocks_block {kind : String} (typed : lookup "type" fields = some (.str kind))
    (listed : kind ∈ TEXT_BLOCKS) (content : lookup "content" fields = some (.list [textNode text])) : textBlocks false (.dict fields) = [text] := by
  have named : kindOf (.dict fields) = kind := by rw [kindOf, Json.get?, typed]
  have apart : MEDIA.contains kind = false ∧ kind ≠ "text" ∧ kind ≠ "hardBreak" := by
    simp only [TEXT_BLOCKS, List.mem_cons, List.not_mem_nil, or_false] at listed
    rcases listed with rfl | rfl | rfl <;> decide
  rw [textBlocks, named, if_pos (by simpa using listed), inlineText, named, apart.1, if_neg Bool.false_ne_true, if_neg apart.2.1, if_neg apart.2.2,
    attach_flatMap, childrenOf_list content, List.flatMap_singleton, inlineText_textNode]

theorem textBlocks_nodeOf (block : List Char) : textBlocks false (nodeOf block) = [textOf block] := by
  rw [nodeOf, textOf]
  split
  · exact textBlocks_block rfl (by decide) rfl
  · split
    · exact textBlocks_block rfl (by decide) rfl
    · exact textBlocks_block rfl (by decide) rfl

theorem plainText_markdown (markdown : List Char) :
    plainText (markdownToDocument markdown) false = .ok (['\n'].intercalate ((blocksOf markdown).map textOf)) := by
  have texts : textBlocks false (markdownToDocument markdown) = (blocksOf markdown).map textOf := by
    have listed : childrenOf (markdownToDocument markdown) = (blocksOf markdown).map nodeOf := childrenOf_list rfl
    have named : kindOf (markdownToDocument markdown) = "doc" := rfl
    rw [textBlocks, named, if_neg (by decide), if_neg (by decide), attach_flatMap, listed, List.flatMap_map]
    simp only [textBlocks_nodeOf]
    exact List.flatMap_pure_eq_map ..
  rw [plainText, validate_markdown, texts]
  rfl

end NovelStudio.Documents
