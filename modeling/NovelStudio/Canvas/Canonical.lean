import NovelStudio.Canvas.Values
import NovelStudio.Library.Delimited

/-! The canonical text of a value, and that it tells values apart. -/

namespace NovelStudio.Canvas

open Library

/-- `String(value)` of finite numbers. -/
structure Shown where
  text : ℚ → List Char
  injective : ∀ {left right}, text left = text right → left = right
  begins : ∀ value, ∃ first rest, text value = first :: rest ∧ (first = '-' ∨ isDigit first = true)
  plain : ∀ value, Plain (text value)

def CANONICAL_DEPTH : Nat := 12

def unlessDeep (depth : Nat) (text : List Char) : List Char := if CANONICAL_DEPTH < depth then "¬DEPTH".toList else text

variable (shown : Shown)

mutual
def canonical (depth : Nat) : JsValue → List Char
  | .null => unlessDeep depth "null".toList
  | .array _ items => unlessDeep depth ('[' :: [','].intercalate (canonicalItems (depth + 1) items) ++ [']'])
  | .string text => unlessDeep depth (quote text)
  | .number (.finite value) => unlessDeep depth (shown.text value)
  | .number _ => unlessDeep depth "¬NUMBER".toList
  | .bool value => unlessDeep depth (if value then "true".toList else "false".toList)
  | .undefined => unlessDeep depth "¬UNDEFINED".toList
  | .object _ fields =>
    unlessDeep depth ('{' :: [','].intercalate ((sortKeys (canonicalFields (depth + 1) fields)).map fun field => quote field.1 ++ ':' :: field.2) ++ ['}'])
  | .function _ => unlessDeep depth "¬UNSERIALIZABLE".toList

def canonicalItems (depth : Nat) : List JsValue → List (List Char)
  | [] => []
  | item :: rest => canonical depth item :: canonicalItems depth rest

def canonicalFields (depth : Nat) : List (String × JsValue) → List (String × List Char)
  | [] => []
  | (key, value) :: rest => (key, canonical depth value) :: canonicalFields depth rest
end

mutual
/-- How far below the value its deepest part lies. -/
def levels : JsValue → Nat
  | .array _ items => levelsItems items
  | .object _ fields => levelsFields fields
  | _ => 0

def levelsItems : List JsValue → Nat
  | [] => 0
  | item :: rest => max (levels item + 1) (levelsItems rest)

def levelsFields : List (String × JsValue) → Nat
  | [] => 0
  | (_, value) :: rest => max (levels value + 1) (levelsFields rest)
end

theorem canonicalItems_eq (depth : Nat) (items : List JsValue) : canonicalItems shown depth items = items.map (canonical shown depth) := by
  induction items with
  | nil => rfl
  | cons item rest ih => rw [canonicalItems, ih, List.map_cons]

theorem canonicalFields_eq (depth : Nat) (fields : List (String × JsValue)) :
    canonicalFields shown depth fields = fields.map fun field => (field.1, canonical shown depth field.2) := by
  induction fields with
  | nil => rfl
  | cons field rest ih => rw [canonicalFields, ih, List.map_cons]

theorem levels_item {items : List JsValue} (member : item ∈ items) : levels item < levelsItems items := by
  induction items with
  | nil => cases member
  | cons first rest ih =>
    rw [levelsItems]
    rcases List.mem_cons.mp member with rfl | later
    · omega
    · have deeper := ih later
      omega

theorem levels_field {fields : List (String × JsValue)} (member : field ∈ fields) : levels field.2 < levelsFields fields := by
  induction fields with
  | nil => cases member
  | cons first rest ih =>
    obtain ⟨key, value⟩ := first
    rw [levelsFields]
    rcases List.mem_cons.mp member with rfl | later
    · show levels value < _
      omega
    · have deeper := ih later
      omega

theorem unlessDeep_eq {depth : Nat} (shallow : depth ≤ CANONICAL_DEPTH) (text : List Char) : unlessDeep depth text = text :=
  if_neg (Nat.not_lt.mpr shallow)

/-- The first character of what is no word or number. -/
def openerOf : JsValue → Option Char
  | .string _ => some '"'
  | .array _ _ => some '['
  | .object _ _ => some '\x7b'
  | _ => none

/-- What neither opens nor closes a string, a list or an object. -/
def Letter (char : Char) : Prop := char ≠ '"' ∧ char ≠ '[' ∧ char ≠ '\x7b' ∧ char ≠ ']' ∧ char ≠ '\x7d'

/-- The words among the canonical texts, with the data they stand for. -/
def words : List (List Char × Option Json) :=
  [("null".toList, some .null), ("¬NUMBER".toList, some .null), ("true".toList, some (.bool true)), ("false".toList, some (.bool false)),
    ("¬UNDEFINED".toList, none), ("¬UNSERIALIZABLE".toList, none)]

theorem words_distinct : (words.map Prod.fst).Nodup := by decide

theorem words_plain : ∀ word ∈ words, Plain word.1 := by
  have checked : words.all (fun word => word.1.all fun char => char ≠ ',' ∧ char ≠ ']' ∧ char ≠ '\x7d') = true := by decide
  intro word member char inside
  exact of_decide_eq_true (List.all_eq_true.mp (List.all_eq_true.mp checked word member) char inside)

theorem words_begin : ∀ word ∈ words, ∃ first rest, word.1 = first :: rest ∧ Letter first ∧ first ≠ '-' ∧ isDigit first = false := by
  intro word member
  simp only [words, List.mem_cons, List.not_mem_nil, or_false] at member
  rcases member with rfl | rfl | rfl | rfl | rfl | rfl
  all_goals exact ⟨_, _, rfl, ⟨by decide, by decide, by decide, by decide, by decide⟩, by decide, by decide⟩

variable {shown}

theorem letter_digit (digit : first = '-' ∨ isDigit first = true) : Letter first := by
  refine ⟨?_, ?_, ?_, ?_, ?_⟩
  all_goals
    rintro rfl
    revert digit
    decide

variable (shown) in
theorem atom_cases {value : JsValue} (atom : openerOf value = none) (shallow : depth ≤ CANONICAL_DEPTH) :
    (canonical shown depth value, json value) ∈ words ∨
      ∃ number, canonical shown depth value = shown.text number ∧ json value = some (.float (.finite number)) := by
  cases value with
  | undefined =>
    left
    rw [canonical, unlessDeep_eq shallow, json]
    simp [words]
  | null =>
    left
    rw [canonical, unlessDeep_eq shallow, json]
    simp [words]
  | bool value =>
    left
    rw [canonical, unlessDeep_eq shallow, json]
    cases value <;> simp [words]
  | function reference =>
    left
    rw [canonical, unlessDeep_eq shallow, json]
    simp [words]
  | number value =>
    cases value with
    | finite number =>
      right
      exact ⟨number, by rw [canonical, unlessDeep_eq shallow], rfl⟩
    | infinite negative =>
      left
      simp [canonical, unlessDeep_eq shallow, json, words]
    | nan =>
      left
      simp [canonical, unlessDeep_eq shallow, json, words]
  | string text => cases atom
  | array reference items => cases atom
  | object reference fields => cases atom

variable (shown) in
theorem canonical_atom {value : JsValue} (atom : openerOf value = none) (shallow : depth ≤ CANONICAL_DEPTH) :
    Plain (canonical shown depth value) ∧ ∃ first rest, canonical shown depth value = first :: rest ∧ Letter first := by
  rcases atom_cases shown atom shallow with word | ⟨number, text, _⟩
  · obtain ⟨first, rest, begins, letter, _⟩ := words_begin _ word
    exact ⟨words_plain _ word, first, rest, begins, letter⟩
  · obtain ⟨first, rest, begins, digit⟩ := shown.begins number
    rw [text]
    exact ⟨shown.plain number, first, rest, begins, letter_digit digit⟩

theorem word_ne_number (word : (text, data) ∈ words) (number : ℚ) : text ≠ shown.text number := by
  intro same
  obtain ⟨first, rest, begins, _, unsigned, undigit⟩ := words_begin _ word
  obtain ⟨other, others, begins', digit⟩ := shown.begins number
  have head : first = other := (List.cons.inj (begins.symm.trans (same.trans begins'))).1
  rcases digit with sign | digit
  · exact unsigned (head.trans sign)
  · rw [head, digit] at undigit
    cases undigit

theorem json_of_atom {left right : JsValue} (first : openerOf left = none) (second : openerOf right = none) (shallow : depth ≤ CANONICAL_DEPTH)
    (same : canonical shown depth left = canonical shown depth right) : json left = json right := by
  rcases atom_cases shown first shallow with word | ⟨number, text, data⟩
  · rcases atom_cases shown second shallow with other | ⟨number, text, _⟩
    · rw [same] at word
      exact congrArg Prod.snd (List.inj_on_of_nodup_map words_distinct word other rfl)
    · exact absurd (same.trans text) (word_ne_number word number)
  · rcases atom_cases shown second shallow with other | ⟨number', text', data'⟩
    · exact absurd (same.symm.trans text) (word_ne_number other number)
    · rw [data, data', shown.injective (text.symm.trans (same.trans text'))]

variable (shown) in
theorem canonical_opener {value : JsValue} (opener : openerOf value = some char) (shallow : depth ≤ CANONICAL_DEPTH) :
    ∃ rest, canonical shown depth value = char :: rest := by
  cases value with
  | string text =>
    cases opener
    rw [canonical, unlessDeep_eq shallow]
    exact ⟨_, rfl⟩
  | array reference items =>
    cases opener
    rw [canonical, unlessDeep_eq shallow]
    exact ⟨_, rfl⟩
  | object reference fields =>
    cases opener
    rw [canonical, unlessDeep_eq shallow]
    exact ⟨_, rfl⟩
  | _ => cases opener

theorem openerOf_cases {value : JsValue} (opener : openerOf value = some char) : char = '"' ∨ char = '[' ∨ char = '\x7b' := by
  cases value with
  | string text => exact .inl (Option.some.inj opener).symm
  | array reference items => exact .inr (.inl (Option.some.inj opener).symm)
  | object reference fields => exact .inr (.inr (Option.some.inj opener).symm)
  | _ => cases opener

theorem canonical_deep (value : JsValue) (deep : CANONICAL_DEPTH < depth) : canonical shown depth value = "¬DEPTH".toList := by
  cases value with
  | number value => cases value <;> rw [canonical, unlessDeep, if_pos deep] <;> simp
  | _ => rw [canonical, unlessDeep, if_pos deep]

variable (shown) in
theorem canonical_begins (value : JsValue) : ∃ first rest, canonical shown depth value = first :: rest ∧ first ≠ ']' := by
  rcases Nat.lt_or_ge CANONICAL_DEPTH depth with deep | shallow
  · exact ⟨_, _, canonical_deep value deep, by decide⟩
  · cases opener : openerOf value with
    | none =>
      obtain ⟨_, first, rest, begins, letter⟩ := canonical_atom shown opener shallow
      exact ⟨first, rest, begins, letter.2.2.2.1⟩
    | some char =>
      obtain ⟨rest, begins⟩ := canonical_opener shown opener shallow
      refine ⟨char, rest, begins, ?_⟩
      rcases openerOf_cases opener with rfl | rfl | rfl
      all_goals decide

theorem told_of_opener {left right : JsValue} (shallow : depth ≤ CANONICAL_DEPTH) (different : openerOf left ≠ openerOf right) (same : Prop) :
    Told (canonical shown depth left) (canonical shown depth right) same := by
  have letter_ne : ∀ {value : JsValue} {char first}, openerOf value = some char → Letter first → first ≠ char := by
    intro value char first opener letter
    rcases openerOf_cases opener with rfl | rfl | rfl
    · exact letter.1
    · exact letter.2.1
    · exact letter.2.2.1
  cases first : openerOf left with
  | none =>
    cases second : openerOf right with
    | none => exact absurd (first.trans second.symm) different
    | some char =>
      obtain ⟨_, head, _, begins, letter⟩ := canonical_atom shown first shallow
      obtain ⟨_, begins'⟩ := canonical_opener shown second shallow
      rw [begins, begins']
      exact told_of_head same (letter_ne second letter)
  | some char =>
    obtain ⟨_, begins⟩ := canonical_opener shown first shallow
    cases second : openerOf right with
    | none =>
      obtain ⟨_, head, _, begins', letter⟩ := canonical_atom shown second shallow
      rw [begins, begins']
      exact told_of_head same (letter_ne first letter).symm
    | some other =>
      obtain ⟨_, begins'⟩ := canonical_opener shown second shallow
      rw [begins, begins']
      apply told_of_head
      intro equal
      exact different (by rw [first, second, equal])

/-- Fields whose keys and data are the same. -/
def SameField (left right : String × JsValue) : Prop := left.1 = right.1 ∧ json left.2 = json right.2

theorem field_told {left right : String × JsValue}
    (told : Told (canonical shown depth left.2) (canonical shown depth right.2) (json left.2 = json right.2)) :
    Told (quote left.1 ++ ':' :: canonical shown depth left.2) (quote right.1 ++ ':' :: canonical shown depth right.2) (SameField left right) := by
  intro rest rest' ends ends' agree
  rw [List.append_assoc, List.append_assoc] at agree
  obtain ⟨keys, values⟩ := quote_told agree
  obtain ⟨same, after⟩ := told ends ends' (List.cons.inj values).2
  exact ⟨⟨keys, same⟩, after⟩

theorem array_told {reference reference' : Nat} {items items' : List JsValue}
    (each : ∀ item ∈ items, ∀ other ∈ items', Told (canonical shown (depth + 1) item) (canonical shown (depth + 1) other) (json item = json other))
    (near : depth ≤ CANONICAL_DEPTH) :
    Told (canonical shown depth (.array reference items)) (canonical shown depth (.array reference' items'))
      (json (.array reference items) = json (.array reference' items')) := by
  intro rest rest' _ _ agree
  rw [canonical, canonical, unlessDeep_eq near, unlessDeep_eq near, canonicalItems_eq, canonicalItems_eq] at agree
  simp only [List.cons_append, List.append_assoc, List.nil_append, List.cons.injEq, true_and] at agree
  obtain ⟨same, after⟩ := intercalate_told (.inl rfl) each (fun item _ => canonical_begins shown item) agree
  refine ⟨?_, after⟩
  rw [json, json, jsonItems_eq, jsonItems_eq]
  have data : (items.map fun item => (json item).getD .null) = items'.map fun item => (json item).getD .null := by
    rw [← List.forall₂_eq_eq_eq, List.forall₂_map_left_iff, List.forall₂_map_right_iff]
    exact same.imp fun _ _ equal => congrArg (·.getD .null) equal
  rw [data]

theorem object_told {reference reference' : Nat} {fields fields' : List (String × JsValue)}
    (each : ∀ field ∈ fields, ∀ other ∈ fields',
      Told (canonical shown (depth + 1) field.2) (canonical shown (depth + 1) other.2) (json field.2 = json other.2))
    (near : depth ≤ CANONICAL_DEPTH) :
    Told (canonical shown depth (.object reference fields)) (canonical shown depth (.object reference' fields'))
      (json (.object reference fields) = json (.object reference' fields')) := by
  intro rest rest' _ _ agree
  rw [canonical, canonical, unlessDeep_eq near, unlessDeep_eq near, canonicalFields_eq, canonicalFields_eq, sortKeys_map, sortKeys_map, List.map_map,
    List.map_map] at agree
  simp only [List.cons_append, List.append_assoc, List.nil_append, List.cons.injEq, true_and] at agree
  have inside : ∀ {fields : List (String × JsValue)} {field}, field ∈ sortKeys fields → field ∈ fields :=
    fun member => (List.mem_insertionSort KeyLe).mp member
  have apart : ∀ field ∈ sortKeys fields, ∀ other ∈ sortKeys fields', Told (quote field.1 ++ ':' :: canonical shown (depth + 1) field.2)
      (quote other.1 ++ ':' :: canonical shown (depth + 1) other.2) (SameField field other) :=
    fun field member other there => field_told (each field (inside member) other (inside there))
  obtain ⟨same, after⟩ := intercalate_told (.inr rfl) apart (fun _ _ => ⟨'"', _, rfl, by decide⟩) agree
  refine ⟨?_, after⟩
  rw [json_object, json_object]
  have data : ((sortKeys fields).map fun field => (field.1, json field.2)) = (sortKeys fields').map fun field => (field.1, json field.2) := by
    rw [← List.forall₂_eq_eq_eq, List.forall₂_map_left_iff, List.forall₂_map_right_iff]
    exact same.imp fun _ _ equal => Prod.ext equal.1 equal.2
  have read : ∀ fields : List (String × JsValue), fields.filterMap (fun field => (json field.2).map (field.1, ·)) =
      (fields.map fun field => (field.1, json field.2)).filterMap fun field => field.2.map (field.1, ·) := by
    intro fields
    rw [List.filterMap_map]
    rfl
  rw [read, read, data]

/-- Where one of two values lies within the bound of the depth their canonical texts agree only if their JSON data do. -/
theorem canonical_told (room : Nat) {depth : Nat} (bounded : depth + room ≤ CANONICAL_DEPTH) {left right : JsValue} (low : levels right ≤ room) :
    Told (canonical shown depth left) (canonical shown depth right) (json left = json right) := by
  induction room using Nat.strong_induction_on generalizing depth left right with
  | _ room ih =>
    have near : depth ≤ CANONICAL_DEPTH := by omega
    have inner : ∀ {item other}, levels other < room →
        Told (canonical shown (depth + 1) item) (canonical shown (depth + 1) other) (json item = json other) := by
      intro item other lower
      exact ih (room - 1) (by omega) (by omega) (by omega)
    by_cases same : openerOf left = openerOf right
    · cases left with
      | string text =>
        cases right with
        | string other =>
          intro rest rest' _ _ agree
          rw [canonical, canonical, unlessDeep_eq near, unlessDeep_eq near] at agree
          obtain ⟨rfl, after⟩ := quote_told agree
          exact ⟨rfl, after⟩
        | _ => simp [openerOf] at same
      | array reference items =>
        cases right with
        | array reference' items' =>
          rw [levels] at low
          exact array_told (fun item _ other there => inner (Nat.lt_of_lt_of_le (levels_item there) low)) near
        | _ => simp [openerOf] at same
      | object reference fields =>
        cases right with
        | object reference' fields' =>
          rw [levels] at low
          exact object_told (fun field _ other there => inner (Nat.lt_of_lt_of_le (levels_field there) low)) near
        | _ => simp [openerOf] at same
      | _ =>
        have atom' := same.symm
        intro rest rest' ends ends' agree
        obtain ⟨equal, after⟩ := (canonical_atom shown rfl near).1.told (canonical_atom shown atom' near).1 ends ends' agree
        exact ⟨json_of_atom rfl atom' near equal, after⟩
    · exact told_of_opener near same _

/-- Two values of one canonical text are equal as JSON data, unless both lie deeper than it reads. -/
theorem json_of_canonical {left right : JsValue} (shallow : levels left ≤ CANONICAL_DEPTH ∨ levels right ≤ CANONICAL_DEPTH)
    (same : canonical shown 0 left = canonical shown 0 right) : json left = json right := by
  have whole : 0 + CANONICAL_DEPTH ≤ CANONICAL_DEPTH := Nat.le_of_eq (Nat.zero_add _)
  rcases shallow with low | low
  · exact (canonical_told CANONICAL_DEPTH whole low ends_nil ends_nil (congrArg (· ++ []) same.symm)).1.symm
  · exact (canonical_told CANONICAL_DEPTH whole low ends_nil ends_nil (congrArg (· ++ []) same)).1

end NovelStudio.Canvas
