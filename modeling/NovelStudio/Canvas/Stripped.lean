import NovelStudio.Canvas.Presentation

/-! A change that is classified as presentation leaves the rest of the graph as it was, unless the comparison is blind to it. -/

namespace NovelStudio.Canvas

open Library CanvasChangeReasonCode

variable {heap : Nat → JsValue} {shown : Shown}

namespace JsValue

def without (key : String) : JsValue → JsValue
  | .object reference fields => .object reference (fields.filter (·.1 ≠ key))
  | value => value

def mapItems (change : JsValue → JsValue) : JsValue → JsValue
  | .array reference items => .array reference (items.map change)
  | value => value

/-- The definition without its viewport and the positions of its nodes. -/
def stripped : JsValue → JsValue
  | .object reference fields =>
    .object reference ((fields.filter (·.1 ≠ "viewport")).map fun field => (field.1, if field.1 = "nodes" then field.2.mapItems (·.without "position") else field.2))
  | value => value

end JsValue

theorem bind_json (found : Option JsValue) : found.bind json = json (found.getD .undefined) := by
  cases found with
  | none => rfl
  | some value => rfl

theorem json_array (reference reference' : Nat) {items items' : List JsValue} (same : List.Forall₂ (fun item other => json item = json other) items items') :
    json (.array reference items) = json (.array reference' items') := by
  rw [json, json, jsonItems_eq, jsonItems_eq]
  congr 2
  rw [← List.forall₂_eq_eq_eq, List.forall₂_map_left_iff, List.forall₂_map_right_iff]
  exact same.imp fun _ _ equal => congrArg (·.getD .null) equal

/-- The keys of an object can be read off its shape. -/
def Named (value : JsValue) : Prop := ∀ key ∈ value.keys, key ≠ "" ∧ '|' ∉ key.toList

theorem intercalate_bar {lefts rights : List (List Char)} (first : ∀ key ∈ lefts, key ≠ [] ∧ '|' ∉ key) (second : ∀ key ∈ rights, key ≠ [] ∧ '|' ∉ key)
    (same : ['|'].intercalate lefts = ['|'].intercalate rights) : lefts = rights := by
  have nonempty : ∀ {keys : List (List Char)}, (∀ key ∈ keys, key ≠ [] ∧ '|' ∉ key) → ['|'].intercalate keys = [] → keys = [] := by
    intro keys named none
    cases keys with
    | nil => rfl
    | cons key rest =>
      cases rest with
      | nil => exact absurd (by simpa using none) (named key (List.mem_cons_self ..)).1
      | cons next rest => simp [List.intercalate_cons_cons] at none
  by_cases empty : lefts = []
  · subst empty
    exact (nonempty second same.symm).symm
  · by_cases bare : rights = []
    · subst bare
      exact nonempty first same
    · have one := List.splitOn_intercalate '|' (fun key member => (first key member).2) empty
      have other := List.splitOn_intercalate '|' (fun key member => (second key member).2) bare
      rw [← one, ← other, same]

variable {fields : List (String × JsValue)}

theorem keys_of_shape {reference reference' : Nat} {fields' : List (String × JsValue)} (first : Named (.object reference fields))
    (second : Named (.object reference' fields')) (same : nodeShape (.object reference fields) = nodeShape (.object reference' fields')) :
    ∀ key, key ∈ fields.map Prod.fst ↔ key ∈ fields'.map Prod.fst := by
  have spelled : ∀ {reference : Nat} {fields : List (String × JsValue)}, Named (.object reference fields) →
      ∀ key ∈ (sortKeys fields).map (·.1.toList), key ≠ [] ∧ '|' ∉ key := by
    intro reference fields named key member
    obtain ⟨field, there, rfl⟩ := List.mem_map.mp member
    obtain ⟨nonempty, clean⟩ := named field.1 (List.mem_map_of_mem ((List.mem_insertionSort KeyLe).mp there))
    exact ⟨fun empty => nonempty (String.toList_inj.mp empty), clean⟩
  have lists := intercalate_bar (spelled first) (spelled second) same
  have sorted : ∀ {fields : List (String × JsValue)} {key}, key ∈ fields.map Prod.fst ↔ key.toList ∈ (sortKeys fields).map (·.1.toList) := by
    intro fields key
    constructor
    · intro member
      obtain ⟨field, there, rfl⟩ := List.mem_map.mp member
      exact List.mem_map.mpr ⟨field, (List.mem_insertionSort KeyLe).mpr there, rfl⟩
    · intro member
      obtain ⟨field, there, equal⟩ := List.mem_map.mp member
      rw [← String.toList_inj.mp equal]
      exact List.mem_map_of_mem ((List.mem_insertionSort KeyLe).mp there)
  intro key
  rw [sorted, sorted, lists]

theorem nodup_keys_filter (keep : String × JsValue → Bool) (distinct : (fields.map Prod.fst).Nodup) :
    ((fields.filter keep).map Prod.fst).Nodup := distinct.sublist (List.filter_sublist.map Prod.fst)

theorem nodup_keys_setField (key : String) (value : JsValue) (distinct : (fields.map Prod.fst).Nodup) :
    ((setField key value fields).map Prod.fst).Nodup := by
  rw [keys_setField]
  split
  · exact distinct
  · rename_i absent
    exact List.nodup_append.mpr ⟨distinct, List.nodup_singleton key, fun one member other there => by
      rw [List.mem_singleton.mp there]
      rintro rfl
      exact absent member⟩

variable {left right : JsValue}

/-- What `differ` does not tell apart is equal as JSON data, unless both lie too deep. -/
theorem json_of_differ (same : differ shown left right = false) (shallow : levels left ≤ CANONICAL_DEPTH ∨ levels right ≤ CANONICAL_DEPTH) :
    json left = json right := by
  unfold differ at same
  exact json_of_canonical shallow (by simpa using same)

/-- The property of a node that decides how deep it may be compared. -/
def parametersOf (node : JsValue) : JsValue := (node.get "parameters").getD .undefined

theorem node_of_quiet (held : Held heap left) (held' : Held heap right) (object : ∃ reference fields, left = .object reference fields)
    (object' : ∃ reference fields, right = .object reference fields) (ids : left.id = right.id) (named : Named right)
    (shallow : levels (parametersOf left) ≤ CANONICAL_DEPTH ∨ levels (parametersOf right) ≤ CANONICAL_DEPTH) (quiet : Quiet (compareNodes shown left right)) :
    json (left.without "position") = json (right.without "position") := by
  obtain ⟨reference, fields, rfl⟩ := object
  obtain ⟨reference', fields', rfl⟩ := object'
  unfold compareNodes at quiet
  split at quiet
  · exact absurd (quiet NODE_SHAPE_UNKNOWN (List.mem_singleton.mpr rfl)) (by decide)
  · rename_i shape
    split at quiet
    · exact absurd (quiet NODE_SHAPE_UNKNOWN (List.mem_singleton.mpr rfl)) (by decide)
    · rename_i known
      rw [quiet_append, quiet_append, quiet_append, quiet_reason (by decide), quiet_reason (by decide), quiet_reason (by decide)] at quiet
      obtain ⟨⟨⟨kind, enabled⟩, parameters⟩, _⟩ := quiet
      have listed : ∀ key ∈ fields.map Prod.fst, key ∈ CANVAS_NODE_KEYS := by
        intro key member
        by_contra unknown
        exact known (List.any_eq_true.mpr ⟨key, member, decide_eq_true unknown⟩)
      have clean : Named (.object reference fields) := by
        intro key member
        have spelled : ∀ key ∈ CANVAS_NODE_KEYS, key ≠ "" ∧ '|' ∉ key.toList := by decide
        exact spelled key (listed key member)
      have keys := keys_of_shape clean named (not_not.mp shape)
      rw [Bool.or_eq_false_iff, Bool.not_eq_false', Bool.not_eq_false'] at kind
      rw [Bool.not_eq_false'] at enabled
      have distinct : (fields.map Prod.fst).Nodup := held.2.1
      have distinct' : (fields'.map Prod.fst).Nodup := held'.2.1
      refine (json_object_iff (nodup_keys_filter _ distinct) (nodup_keys_filter _ distinct')).mpr fun key => ?_
      rw [fieldOf_filter (fun name => decide (name ≠ "position")), fieldOf_filter fun name => decide (name ≠ "position")]
      split
      · rename_i kept
        by_cases expected : key ∈ CANVAS_NODE_KEYS
        · rw [bind_json, bind_json]
          simp only [CANVAS_NODE_KEYS, List.mem_cons, List.not_mem_nil, or_false] at expected
          rcases expected with rfl | rfl | rfl | rfl | rfl | rfl
          · exact congrArg json ids
          · exact congrArg json (eq_of_strictEquals (held.get "definition_id") (held'.get "definition_id") kind.1)
          · exact congrArg json (eq_of_strictEquals (held.get "definition_version") (held'.get "definition_version") kind.2)
          · exact congrArg json (eq_of_strictEquals (held.get "enabled") (held'.get "enabled") enabled)
          · exact absurd rfl (of_decide_eq_true kept)
          · exact json_of_differ parameters shallow
        · have absent : key ∉ fields.map Prod.fst := fun member => expected (listed key member)
          rw [fieldOf_eq_none_iff.mpr absent, fieldOf_eq_none_iff.mpr (fun member => absent ((keys key).mpr member))]
      · rfl

theorem levelsFields_setField (key : String) (text : String) (fields : List (String × JsValue)) :
    levelsFields (setField key (.string text) fields) ≤ max 1 (levelsFields fields) := by
  induction fields with
  | nil => simp [setField, levelsFields, levels]
  | cons first rest ih =>
    obtain ⟨name, value⟩ := first
    rw [setField]
    split
    · simp only [levelsFields, levels]
      omega
    · simp only [levelsFields]
      omega

theorem edge_of_quiet (held : Held heap left) (held' : Held heap right) (object : ∃ reference fields, left = .object reference fields)
    (object' : ∃ reference fields, right = .object reference fields) (ids : left.id = right.id)
    (shallow : levels left ≤ CANONICAL_DEPTH ∨ levels right ≤ CANONICAL_DEPTH) (quiet : Quiet (compareEdges shown left right)) : json left = json right := by
  obtain ⟨reference, fields, rfl⟩ := object
  obtain ⟨reference', fields', rfl⟩ := object'
  unfold compareEdges at quiet
  split at quiet
  · exact absurd (quiet EDGE_SHAPE_UNKNOWN (List.mem_singleton.mpr rfl)) (by decide)
  · rw [quiet_reason (by decide)] at quiet
    have distinct : (fields.map Prod.fst).Nodup := held.2.1
    have distinct' : (fields'.map Prod.fst).Nodup := held'.2.1
    have near : ∀ fields : List (String × JsValue), levelsFields fields ≤ CANONICAL_DEPTH →
        levels (.object 0 (setField "id" (.string "") fields)) ≤ CANONICAL_DEPTH := by
      intro fields low
      have bound := levelsFields_setField "id" "" fields
      have positive : 1 ≤ CANONICAL_DEPTH := by decide
      rw [levels]
      omega
    have same : json (.object 0 (setField "id" (.string "") fields)) = json (.object 0 (setField "id" (.string "") fields')) :=
      json_of_differ quiet (shallow.imp (near fields) (near fields'))
    rw [json_object_iff (nodup_keys_setField _ _ distinct) (nodup_keys_setField _ _ distinct')] at same
    refine (json_object_iff distinct distinct').mpr fun key => ?_
    by_cases own : key = "id"
    · subst own
      rw [bind_json, bind_json]
      exact congrArg json ids
    · have here := same key
      rwa [fieldOf_setField, fieldOf_setField, if_neg own, if_neg own] at here

/-- The comparison of two definitions sees all of them. Ids are not repeated, what is listed are objects, the keys of the later nodes can be read off
their shapes, and of two values that are compared one lies within the depth that is read. -/
structure Seen (before after : JsValue) : Prop where
  beforeNodes : Listed (entriesOf before "nodes")
  afterNodes : Listed (entriesOf after "nodes")
  beforeEdges : Listed (entriesOf before "edges")
  afterEdges : Listed (entriesOf after "edges")
  named : ∀ node ∈ entriesOf after "nodes", Named node
  parameters : ∀ left ∈ entriesOf before "nodes", ∀ right ∈ entriesOf after "nodes", left.id = right.id →
    levels (parametersOf left) ≤ CANONICAL_DEPTH ∨ levels (parametersOf right) ≤ CANONICAL_DEPTH
  edges : ∀ left ∈ entriesOf before "edges", ∀ right ∈ entriesOf after "edges", left.id = right.id →
    levels left ≤ CANONICAL_DEPTH ∨ levels right ≤ CANONICAL_DEPTH

variable {after before : JsValue}

theorem nodes_of_quiet (held : Held heap before) (held' : Held heap after) (seen : Seen before after)
    (classified : classifyNodes shown (entriesOf before "nodes") (entriesOf after "nodes") = some reasons) (quiet : Quiet reasons) :
    List.Forall₂ (fun left right => json (left.without "position") = json (right.without "position")) (entriesOf before "nodes") (entriesOf after "nodes") := by
  unfold classifyNodes at classified
  obtain ⟨beforeIds, first, classified⟩ := Option.bind_eq_some_iff.mp classified
  obtain ⟨afterIds, second, classified⟩ := Option.bind_eq_some_iff.mp classified
  rw [← Option.some.inj classified, idsOf_eq first, idsOf_eq second] at quiet
  refine (compareEntries_quiet seen.beforeNodes seen.afterNodes (fun _ => held_entriesOf held "nodes") (fun _ => held_entriesOf held' "nodes")
    (by decide) quiet).imp ?_
  intro left right ⟨here, there, ids, compared⟩
  exact node_of_quiet (held_entriesOf held "nodes" here) (held_entriesOf held' "nodes" there) (seen.beforeNodes.objects left here)
    (seen.afterNodes.objects right there) ids (seen.named right there) (seen.parameters left here right there ids) compared

theorem edges_of_quiet (held : Held heap before) (held' : Held heap after) (seen : Seen before after)
    (classified : classifyEdges shown (entriesOf before "edges") (entriesOf after "edges") = some reasons) (quiet : Quiet reasons) :
    List.Forall₂ (fun left right => json left = json right) (entriesOf before "edges") (entriesOf after "edges") := by
  unfold classifyEdges at classified
  obtain ⟨beforeIds, first, classified⟩ := Option.bind_eq_some_iff.mp classified
  obtain ⟨afterIds, second, classified⟩ := Option.bind_eq_some_iff.mp classified
  rw [← Option.some.inj classified, idsOf_eq first, idsOf_eq second] at quiet
  refine (compareEntries_quiet seen.beforeEdges seen.afterEdges (fun _ => held_entriesOf held "edges") (fun _ => held_entriesOf held' "edges")
    (by decide) quiet).imp ?_
  intro left right ⟨here, there, ids, compared⟩
  exact edge_of_quiet (held_entriesOf held "edges" here) (held_entriesOf held' "edges" there) (seen.beforeEdges.objects left here)
    (seen.afterEdges.objects right there) ids (seen.edges left here right there ids) compared

theorem isDefinitionShaped_spec {definition : JsValue} (shaped : isDefinitionShaped definition = true) :
    ∃ reference fields nodes edges nodesAt edgesAt, definition = .object reference fields ∧ fieldOf fields "nodes" = some (.array nodesAt nodes) ∧
      fieldOf fields "edges" = some (.array edgesAt edges) ∧ entriesOf definition "nodes" = nodes ∧ entriesOf definition "edges" = edges := by
  cases definition with
  | object reference fields =>
    simp only [isDefinitionShaped, Bool.and_eq_true] at shaped
    obtain ⟨⟨⟨nodes, edges⟩, _⟩, _⟩ := shaped
    split at nodes
    · rename_i nodesAt items found
      split at edges
      · rename_i edgesAt others found'
        refine ⟨reference, fields, items, others, nodesAt, edgesAt, rfl, found, found', ?_, ?_⟩
        · simp [entriesOf, JsValue.get, found]
        · simp [entriesOf, JsValue.get, found']
      · cases edges
    · cases nodes
  | _ => cases shaped

theorem changeReasons_quiet (found : changeReasons shown before after = some reasons) (quiet : Quiet reasons) :
    (∀ key ∈ before.keys ++ after.keys, key ∈ CANVAS_DEFINITION_KEYS) ∧
      ((before.get "schema_version").getD .undefined).strictEquals ((after.get "schema_version").getD .undefined) = true ∧
      ((before.get "title").getD .undefined).strictEquals ((after.get "title").getD .undefined) = true ∧
      (∃ nodes, classifyNodes shown (entriesOf before "nodes") (entriesOf after "nodes") = some nodes ∧ Quiet nodes) ∧
      ∃ edges, classifyEdges shown (entriesOf before "edges") (entriesOf after "edges") = some edges ∧ Quiet edges := by
  unfold changeReasons at found
  obtain ⟨nodeReasons, nodes, found⟩ := Option.bind_eq_some_iff.mp found
  obtain ⟨edgeReasons, edges, found⟩ := Option.bind_eq_some_iff.mp found
  have raised : ∀ {all : List CanvasChangeReasonCode}, (if all.isEmpty then [NO_CHANGE] else all) = reasons → Quiet all := by
    intro all same
    split at same
    · rename_i empty
      rw [List.isEmpty_iff.mp empty]
      intro code member
      cases member
    · rwa [same]
  have whole := raised (Option.some.inj found)
  rw [quiet_append, quiet_append, quiet_append, quiet_append, quiet_append, quiet_reason (by decide), quiet_reason (by decide),
    quiet_reason (by decide)] at whole
  obtain ⟨⟨⟨⟨⟨unknown, schema⟩, title⟩, _⟩, quietNodes⟩, quietEdges⟩ := whole
  rw [Bool.not_eq_false'] at schema title
  refine ⟨?_, schema, title, ⟨nodeReasons, nodes, quietNodes⟩, ⟨edgeReasons, edges, quietEdges⟩⟩
  intro key member
  exact not_not.mp (of_decide_eq_false (Bool.not_eq_true _ ▸ List.any_eq_false.mp unknown key member))

theorem stripped_of_quiet (held : Held heap before) (held' : Held heap after) (seen : Seen before after)
    (shaped : isDefinitionShaped before = true) (shaped' : isDefinitionShaped after = true)
    (found : changeReasons shown before after = some reasons) (quiet : Quiet reasons) : json before.stripped = json after.stripped := by
  obtain ⟨known, schema, title, ⟨_, nodes, quietNodes⟩, ⟨_, edges, quietEdges⟩⟩ := changeReasons_quiet found quiet
  have sameNodes := nodes_of_quiet held held' seen nodes quietNodes
  have sameEdges := edges_of_quiet held held' seen edges quietEdges
  have sameSchema := eq_of_strictEquals (held.get "schema_version") (held'.get "schema_version") schema
  have sameTitle := eq_of_strictEquals (held.get "title") (held'.get "title") title
  obtain ⟨reference, fields, items, others, nodesAt, edgesAt, rfl, hasNodes, hasEdges, rfl, rfl⟩ := isDefinitionShaped_spec shaped
  obtain ⟨reference', fields', items', others', nodesAt', edgesAt', rfl, hasNodes', hasEdges', rfl, rfl⟩ := isDefinitionShaped_spec shaped'
  simp only [JsValue.get, Option.getD_some] at sameSchema sameTitle
  have distinct : (fields.map Prod.fst).Nodup := held.2.1
  have distinct' : (fields'.map Prod.fst).Nodup := held'.2.1
  have kept : ∀ {fields : List (String × JsValue)} (change : String × JsValue → JsValue), (fields.map Prod.fst).Nodup →
      (((fields.filter (·.1 ≠ "viewport")).map fun field => (field.1, change field)).map Prod.fst).Nodup := by
    intro fields change distinct
    rw [List.map_map]
    exact nodup_keys_filter _ distinct
  refine (json_object_iff (kept _ distinct) (kept _ distinct')).mpr fun key => ?_
  rw [fieldOf_map "nodes" (·.mapItems (·.without "position")), fieldOf_map "nodes" (·.mapItems (·.without "position")),
    fieldOf_filter (fun name => decide (name ≠ "viewport")), fieldOf_filter fun name => decide (name ≠ "viewport")]
  by_cases expected : key ∈ CANVAS_DEFINITION_KEYS
  · simp only [CANVAS_DEFINITION_KEYS, List.mem_cons, List.not_mem_nil, or_false] at expected
    rcases expected with rfl | rfl | rfl | rfl | rfl
    · simpa [bind_json] using congrArg json sameSchema
    · simpa [bind_json] using congrArg json sameTitle
    · simp only [hasNodes, hasNodes']
      refine json_array nodesAt nodesAt' ?_
      rw [List.forall₂_map_left_iff, List.forall₂_map_right_iff]
      exact sameNodes
    · simp only [hasEdges, hasEdges']
      exact json_array edgesAt edgesAt' sameEdges
    · rfl
  · have absent : key ∉ fields.map Prod.fst := fun member => expected (known key (List.mem_append_left _ member))
    have absent' : key ∉ fields'.map Prod.fst := fun member => expected (known key (List.mem_append_right _ member))
    rw [fieldOf_eq_none_iff.mpr absent, fieldOf_eq_none_iff.mpr absent']

/-- The text of whole numbers, and of other ones as fractions. -/
def fractionText (value : ℚ) : List Char :=
  encodeInt value.num ++ if value.den = 1 then [] else '/' :: Nat.toDigits 10 value.den

theorem digits_plain (member : char ∈ encodeInt value) : char = '-' ∨ isDigit char = true := by
  unfold encodeInt at member
  split at member
  · rcases List.mem_cons.mp member with rfl | digit
    · exact .inl rfl
    · exact .inr (isDigit_of_mem_toDigits digit)
  · exact .inr (isDigit_of_mem_toDigits member)

theorem encodeInt_injective {left right : Int} (same : encodeInt left = encodeInt right) : left = right := by
  have digits : ∀ {one other : Nat}, Nat.toDigits 10 one = Nat.toDigits 10 other → one = other := by
    intro one other equal
    rw [← digitsValue_toDigits one, ← digitsValue_toDigits other, equal]
  have unsigned : ∀ {number : Nat} {rest : List Char}, Nat.toDigits 10 number ≠ '-' :: rest := by
    intro number rest equal
    have digit : isDigit '-' = true := isDigit_of_mem_toDigits (by rw [equal]; exact List.mem_cons_self ..)
    exact absurd digit (by decide)
  unfold encodeInt at same
  split at same
  · split at same
    · have equal := digits (List.cons.inj same).2
      omega
    · exact absurd same.symm unsigned
  · split at same
    · exact absurd same unsigned
    · have equal := digits same
      omega

theorem fractionText_whole (value : ℚ) : (fractionText value).takeWhile (· ≠ '/') = encodeInt value.num := by
  have clean : ∀ char ∈ encodeInt value.num, decide (char ≠ '/') = true := by
    intro char member
    rcases digits_plain member with rfl | digit
    · decide
    · apply decide_eq_true
      rintro rfl
      exact absurd digit (by decide)
  unfold fractionText
  rw [List.takeWhile_append_of_pos clean]
  split
  · exact List.append_nil _
  · exact List.append_nil _

def fractions : Shown where
  text := fractionText
  injective := by
    intro left right same
    have numerators : left.num = right.num := by
      apply encodeInt_injective
      rw [← fractionText_whole, ← fractionText_whole, same]
    unfold fractionText at same
    rw [numerators] at same
    have denominators : left.den = right.den := by
      have tails := List.append_cancel_left same
      split at tails
      · rename_i one
        split at tails
        · rename_i other
          rw [one, other]
        · cases tails
      · split at tails
        · cases tails
        · rw [← digitsValue_toDigits left.den, ← digitsValue_toDigits right.den, (List.cons.inj tails).2]
    exact Rat.ext numerators denominators
  begins := by
    intro value
    obtain ⟨sign, first, rest, signed, text, digit⟩ := encodeInt_head value.num
    unfold fractionText
    rw [text]
    rcases signed with rfl | rfl
    · exact ⟨first, _, rfl, .inr digit⟩
    · exact ⟨'-', _, rfl, .inl rfl⟩
  plain := by
    intro value char member
    have numeric : char = '-' ∨ char = '/' ∨ isDigit char = true := by
      unfold fractionText at member
      rcases List.mem_append.mp member with whole | part
      · rcases digits_plain whole with minus | digit
        · exact .inl minus
        · exact .inr (.inr digit)
      · split at part
        · cases part
        · rcases List.mem_cons.mp part with slash | digit
          · exact .inr (.inl slash)
          · exact .inr (.inr (isDigit_of_mem_toDigits digit))
    refine ⟨?_, ?_, ?_⟩
    all_goals
      rintro rfl
      revert numeric
      decide

/-- A definition of one node, whose references begin at a number. -/
def drawn (start : Nat) (x : ℚ) : JsValue :=
  .object start [("schema_version", .number (.finite 1)), ("title", .string "Draft"),
    ("nodes", .array (start + 1) [.object (start + 2) [("id", .string "text"), ("definition_id", .string "text_input"),
      ("definition_version", .number (.finite 1)), ("enabled", .bool true),
      ("position", .object (start + 3) [("x", .number (.finite x)), ("y", .number .nan)]),
      ("parameters", .object (start + 4) [("text", .string "Once")])]]),
    ("edges", .array (start + 5) [])]

/-- The value at the reference of a definition. -/
def drawnAt (start : Nat) (x : ℚ) : Nat → JsValue
  | 0 => drawn start x
  | 1 => .array (start + 1) (entriesOf (drawn start x) "nodes")
  | 2 => (entriesOf (drawn start x) "nodes").headD .null
  | 3 => .object (start + 3) [("x", .number (.finite x)), ("y", .number .nan)]
  | 4 => .object (start + 4) [("text", .string "Once")]
  | _ => .array (start + 5) []

/-- Both definitions, the later after the earlier. -/
def drawnBoth (reference : Nat) : JsValue := if reference < 6 then drawnAt 0 0 reference else drawnAt 6 80 (reference - 6)

theorem drawn_held : Held drawnBoth (drawn 0 0) ∧ Held drawnBoth (drawn 6 80) := by
  constructor
  · simp [drawn, Held, HeldItems, HeldFields, drawnBoth, drawnAt, entriesOf, JsValue.get, fieldOf]
  · simp [drawn, Held, HeldItems, HeldFields, drawnBoth, drawnAt, entriesOf, JsValue.get, fieldOf]

theorem drawn_seen : Seen (drawn 0 0) (drawn 6 80) := by
  have nodes : ∀ start x, Listed (entriesOf (drawn start x) "nodes") := by
    intro start x
    constructor <;> simp [drawn, entriesOf, JsValue.get, fieldOf, JsValue.id, JsValue.isNan]
  have edges : ∀ start x, entriesOf (drawn start x) "edges" = [] := by
    intro start x
    simp [drawn, entriesOf, JsValue.get, fieldOf]
  refine ⟨nodes 0 0, nodes 6 80, ?_, ?_, ?_, ?_, ?_⟩
  · rw [edges]
    constructor <;> simp
  · rw [edges]
    constructor <;> simp
  · intro node member
    cases List.mem_singleton.mp member
    unfold Named
    decide
  · simp [drawn, entriesOf, JsValue.get, fieldOf, parametersOf, levels, levelsFields, CANONICAL_DEPTH]
  · rw [edges]
    simp

/-- A definition without nodes, whose references begin at a number. -/
def wired (start : Nat) (edges : List JsValue) : JsValue :=
  .object start [("schema_version", .number (.finite 1)), ("title", .string ""), ("nodes", .array (start + 1) []), ("edges", .array (start + 2) edges)]

def edgeTo (reference : Nat) (target : String) : JsValue :=
  .object reference [("id", .string "edge"), ("source_node_id", .string "text"), ("source_port", .string "text"),
    ("target_node_id", .string target), ("target_port", .string "source")]

end NovelStudio.Canvas
