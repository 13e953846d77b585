import Mathlib.Data.List.Chain
import Mathlib.Data.List.TakeWhile
import NovelStudio.Library.Text

/-! Texts that are stripped and split as the Python string type defines it: at the ends, at
empty lines, and into lines. -/

namespace NovelStudio.Library

universe u
variable {α : Type u}

/-- `text.strip(characters)`: without the given items at both ends. -/
def stripBy (drops : α → Bool) (text : List α) : List α := ((text.dropWhile drops).reverse.dropWhile drops).reverse

theorem dropWhile_kept {drops : α → Bool} {text : List α} (kept : ∀ item, text.head? = some item → drops item = false) : text.dropWhile drops = text := by
  cases text with
  | nil => rfl
  | cons item rest => rw [List.dropWhile_cons_of_neg (by simp [kept item rfl])]

theorem stripBy_last {drops : α → Bool} {text : List α} (last : (stripBy drops text).getLast? = some item) : drops item = false := by
  rw [stripBy, List.getLast?_reverse] at last
  by_contra dropped
  rw [Bool.not_eq_false] at dropped
  have kept := List.head?_dropWhile_not drops (text.dropWhile drops).reverse
  rw [last] at kept
  simp [dropped] at kept

theorem stripBy_first {drops : α → Bool} {text : List α} (first : (stripBy drops text).head? = some item) : drops item = false := by
  obtain ⟨rest, whole⟩ : stripBy drops text <+: text.dropWhile drops := by
    rw [stripBy, ← List.reverse_suffix, List.reverse_reverse]
    exact List.dropWhile_suffix drops
  have some' : stripBy drops text ≠ [] := by
    intro none
    rw [none] at first
    cases first
  have kept := List.head?_dropWhile_not drops text
  rw [← whole, List.head?_append_of_ne_nil _ some', first] at kept
  simpa using kept

theorem stripBy_append {drops : α → Bool} {text tail : List α} (head : ∀ item, text.head? = some item → drops item = false)
    (last : ∀ item, text.getLast? = some item → drops item = false) (dropped : ∀ item ∈ tail, drops item = true) (some' : text ≠ []) :
    stripBy drops (text ++ tail) = text := by
  have front : (text ++ tail).dropWhile drops = text ++ tail := by
    apply dropWhile_kept
    intro item first
    rw [List.head?_append_of_ne_nil _ some'] at first
    exact head item first
  have back : text.reverse.dropWhile drops = text.reverse := by
    apply dropWhile_kept
    intro item first
    rw [List.head?_reverse] at first
    exact last item first
  rw [stripBy, front, List.reverse_append, List.dropWhile_append_of_pos (fun item member => dropped item (List.mem_reverse.mp member)), back,
    List.reverse_reverse]

/-- The first of some parts takes an item more; without parts it is the only one. -/
def consHead (item : α) : List (List α) → List (List α)
  | [] => [[item]]
  | part :: rest => (item :: part) :: rest

/-- No mark stands right before another one. -/
def Single (mark : α) (text : List α) : Prop := text.IsChain fun one two => ¬(one = mark ∧ two = mark)

section Double

variable [DecidableEq α] (mark : α)

/-- `text.split(mark + mark)`. -/
def splitDouble : List α → List (List α)
  | [] => [[]]
  | [item] => [[item]]
  | one :: two :: rest => if one = mark ∧ two = mark then [] :: splitDouble rest else consHead one (splitDouble (two :: rest))

variable {mark}

theorem splitDouble_ne_nil (text : List α) : splitDouble mark text ≠ [] := by
  fun_induction splitDouble mark text with
  | case1 => exact List.cons_ne_nil _ _
  | case2 => exact List.cons_ne_nil _ _
  | case3 => exact List.cons_ne_nil _ _
  | case4 one two rest apart ih =>
    unfold consHead
    split
    · exact List.cons_ne_nil _ _
    · exact List.cons_ne_nil _ _

theorem splitDouble_single {text : List α} (single : Single mark text) : splitDouble mark text = [text] := by
  fun_induction splitDouble mark text with
  | case1 => rfl
  | case2 => rfl
  | case3 one two rest both ih => exact absurd both (List.isChain_cons_cons.mp single).1
  | case4 one two rest apart ih =>
    rw [ih single.tail]
    rfl

theorem splitDouble_append {text rest : List α} (single : Single mark text) (last : text.getLast? ≠ some mark) :
    splitDouble mark (text ++ mark :: mark :: rest) = text :: splitDouble mark rest := by
  induction text with
  | nil => rw [List.nil_append, splitDouble, if_pos ⟨rfl, rfl⟩]
  | cons one text ih =>
    cases text with
    | nil =>
      have other : one ≠ mark := by
        rintro rfl
        exact last rfl
      rw [List.cons_append, List.nil_append, splitDouble, if_neg (fun both => other both.1), splitDouble, if_pos ⟨rfl, rfl⟩]
      rfl
    | cons two text =>
      have apart := (List.isChain_cons_cons.mp single).1
      have tail := ih single.tail (by rwa [List.getLast?_cons_cons] at last)
      rw [List.cons_append, List.cons_append, splitDouble, if_neg apart, ← List.cons_append, tail]
      rfl

theorem splitDouble_intercalate {parts : List (List α)} (some' : parts ≠ [])
    (each : ∀ part ∈ parts, Single mark part ∧ part.getLast? ≠ some mark) : splitDouble mark ([mark, mark].intercalate parts) = parts := by
  induction parts with
  | nil => exact absurd rfl some'
  | cons part rest ih =>
    obtain ⟨single, last⟩ := each part (List.mem_cons_self ..)
    cases rest with
    | nil => rw [List.intercalate_singleton, splitDouble_single single]
    | cons next rest =>
      rw [List.intercalate_cons_cons, List.append_assoc]
      change splitDouble mark (part ++ mark :: mark :: [mark, mark].intercalate (next :: rest)) = _
      rw [splitDouble_append single last, ih (List.cons_ne_nil _ _) fun part member => each part (List.mem_cons_of_mem _ member)]

end Double

theorem mem_intercalate {separator : List α} {parts : List (List α)} (member : item ∈ separator.intercalate parts) :
    item ∈ separator ∨ ∃ part ∈ parts, item ∈ part := by
  induction parts with
  | nil => cases member
  | cons part rest ih =>
    cases rest with
    | nil =>
      rw [List.intercalate_singleton] at member
      exact .inr ⟨part, List.mem_cons_self .., member⟩
    | cons next rest =>
      rw [List.intercalate_cons_cons] at member
      rcases List.mem_append.mp member with front | later
      · rcases List.mem_append.mp front with here | between
        · exact .inr ⟨part, List.mem_cons_self .., here⟩
        · exact .inl between
      · rcases ih later with between | ⟨other, there, here⟩
        · exact .inl between
        · exact .inr ⟨other, List.mem_cons_of_mem _ there, here⟩

theorem head?_intercalate {separator part : List α} (some' : part ≠ []) (rest : List (List α)) :
    (separator.intercalate (part :: rest)).head? = part.head? := by
  cases rest with
  | nil => rw [List.intercalate_singleton]
  | cons next rest => rw [List.intercalate_cons_cons, List.append_assoc, List.head?_append_of_ne_nil _ some']

theorem getLast?_intercalate {separator part : List α} {parts : List (List α)} (last : parts.getLast? = some part) (some' : part ≠ []) :
    (separator.intercalate parts).getLast? = part.getLast? := by
  induction parts with
  | nil => cases last
  | cons first rest ih =>
    cases rest with
    | nil =>
      obtain rfl : first = part := by simpa using last
      rw [List.intercalate_singleton]
    | cons next rest =>
      rw [List.getLast?_cons_cons] at last
      have inner := ih last
      have more : separator.intercalate (next :: rest) ≠ [] := by
        intro none
        rw [none] at inner
        exact some' (List.getLast?_eq_none_iff.mp inner.symm)
      rw [List.intercalate_cons_cons, List.getLast?_append_of_ne_nil _ more, inner]

theorem single_plain {mark : α} {text : List α} (plain : mark ∉ text) : Single mark text := by
  induction text with
  | nil => exact .nil
  | cons one text ih =>
    obtain ⟨other, later⟩ := not_or.mp (fun member => plain (List.mem_cons.mpr member))
    cases text with
    | nil => exact .singleton _
    | cons two text => exact List.isChain_cons_cons.mpr ⟨fun both => other both.1.symm, ih later⟩

theorem single_append {mark : α} {line rest : List α} (plain : mark ∉ line) (head : rest.head? ≠ some mark) (single : Single mark rest) :
    Single mark (line ++ mark :: rest) := by
  induction line with
  | nil =>
    cases rest with
    | nil => exact .singleton _
    | cons next rest =>
      refine List.isChain_cons_cons.mpr ⟨?_, single⟩
      intro ⟨_, same⟩
      rw [same] at head
      exact head rfl
  | cons item line ih =>
    obtain ⟨other, later⟩ := not_or.mp (fun member => plain (List.mem_cons.mpr member))
    have tail := ih later
    have apart (next : α) : ¬(item = mark ∧ next = mark) := fun both => other both.1.symm
    cases line with
    | nil => exact List.isChain_cons_cons.mpr ⟨apart _, tail⟩
    | cons next line => exact List.isChain_cons_cons.mpr ⟨apart _, tail⟩

theorem single_line {mark : α} {line rest : List α} (plain : mark ∉ line) (single : Single mark rest) : Single mark (line ++ rest) := by
  induction line with
  | nil => exact single
  | cons item line ih =>
    obtain ⟨other, later⟩ := not_or.mp (fun member => plain (List.mem_cons.mpr member))
    have tail := ih later
    rw [List.cons_append]
    cases whole : line ++ rest with
    | nil => exact .singleton _
    | cons next text =>
      rw [whole] at tail
      exact List.isChain_cons_cons.mpr ⟨fun both => other both.1.symm, tail⟩

theorem not_mem_splitOn [DecidableEq α] {mark : α} (text : List α) : ∀ part ∈ text.splitOn mark, mark ∉ part := by
  induction text with
  | nil =>
    intro part member
    rw [List.splitOn_nil, List.mem_singleton] at member
    rw [member]
    exact List.not_mem_nil
  | cons item text ih =>
    intro part member
    rw [List.splitOn_cons_eq_if_modifyHead] at member
    split at member
    · rcases List.mem_cons.mp member with rfl | later
      · exact List.not_mem_nil
      · exact ih part later
    · rename_i other
      cases parts : text.splitOn mark with
      | nil => exact absurd parts (List.splitOn_ne_nil _ _)
      | cons first rest =>
        rw [parts] at ih member
        rcases List.mem_cons.mp member with rfl | later
        · intro here
          rcases List.mem_cons.mp here with rfl | there
          · simp at other
          · exact ih first (List.mem_cons_self ..) there
        · exact ih part (List.mem_cons_of_mem _ later)

theorem splitOnP_length (ends : α → Bool) (text : List α) : ∀ run ∈ text.splitOnP ends, run.length ≤ text.length := by
  induction text with
  | nil =>
    intro run member
    rw [List.splitOnP_nil, List.mem_singleton] at member
    rw [member]
  | cons item text ih =>
    intro run member
    rw [List.splitOnP_cons_eq_if_modifyHead] at member
    rw [List.length_cons]
    split at member
    · rcases List.mem_cons.mp member with rfl | later
      · exact Nat.zero_le _
      · exact Nat.le_succ_of_le (ih run later)
    · obtain ⟨first, rest, runs⟩ := List.exists_cons_of_ne_nil (List.splitOnP_ne_nil ends text)
      rw [runs] at ih member
      rcases List.mem_cons.mp member with rfl | later
      · exact Nat.succ_le_succ (ih first (List.mem_cons_self ..))
      · exact Nat.le_succ_of_le (ih run (List.mem_cons_of_mem _ later))

theorem single_intercalate {mark : α} {parts : List (List α)} (each : ∀ part ∈ parts, part ≠ [] ∧ mark ∉ part) :
    Single mark ([mark].intercalate parts) ∧ ([mark].intercalate parts).head? ≠ some mark ∧ ([mark].intercalate parts).getLast? ≠ some mark := by
  induction parts with
  | nil => exact ⟨.nil, fun none => (nomatch none), fun none => (nomatch none)⟩
  | cons part rest ih =>
    obtain ⟨some', plain⟩ := each part (List.mem_cons_self ..)
    have first : part.head? ≠ some mark := fun same => plain (List.mem_of_mem_head? same)
    cases rest with
    | nil =>
      rw [List.intercalate_singleton]
      exact ⟨single_plain plain, first, fun same => plain (List.mem_of_getLast? same)⟩
    | cons next rest =>
      obtain ⟨single, head, last⟩ := ih fun part member => each part (List.mem_cons_of_mem _ member)
      have more : [mark].intercalate (next :: rest) ≠ [] := by
        have filled := (each next (by simp)).1
        cases rest with
        | nil => rwa [List.intercalate_singleton]
        | cons => simp [List.intercalate_cons_cons]
      rw [List.intercalate_cons_cons, List.append_assoc]
      refine ⟨single_append plain head single, ?_, ?_⟩
      · rwa [List.head?_append_of_ne_nil _ some']
      · rw [List.getLast?_append_of_ne_nil _ (by simp)]
        rwa [List.getLast?_append_of_ne_nil _ more]

/-- A character that ends a line for `str.splitlines`. -/
def isBoundary (char : Char) : Bool := char.toNat ∈ [0x0A, 0x0B, 0x0C, 0x0D, 0x1C, 0x1D, 0x1E, 0x85, 0x2028, 0x2029]

/-- `text.splitlines()`. -/
def splitLines : List Char → List (List Char)
  | [] => []
  | '\r' :: '\n' :: rest => [] :: splitLines rest
  | char :: rest => if isBoundary char then [] :: splitLines rest else consHead char (splitLines rest)

/-- Line feeds are the only ends of lines. -/
def Fed (text : List Char) : Prop := ∀ char ∈ text, isBoundary char = true → char = '\n'

instance : DecidablePred Fed := fun text => List.decidableBAll (fun char => isBoundary char = true → char = '\n') text

theorem splitLines_feed (rest : List Char) : splitLines ('\n' :: rest) = [] :: splitLines rest := rfl

theorem splitLines_plain {char : Char} (plain : isBoundary char = false) (rest : List Char) : splitLines (char :: rest) = consHead char (splitLines rest) := by
  rw [splitLines.eq_def]
  split
  · rename_i none
    cases none
  · rename_i same
    cases same
    exact absurd plain (by decide)
  · rename_i same
    cases same
    rw [plain, if_neg Bool.false_ne_true]

theorem splitLines_lines (text : List Char) : ∀ line ∈ splitLines text, ∀ char ∈ line, isBoundary char = false := by
  fun_induction splitLines text with
  | case1 => exact fun _ none => nomatch none
  | case2 rest ih =>
    intro line member
    rcases List.mem_cons.mp member with rfl | later
    · exact fun _ none => nomatch none
    · exact ih line later
  | case3 char rest _ ended ih =>
    intro line member
    rcases List.mem_cons.mp member with rfl | later
    · exact fun _ none => nomatch none
    · exact ih line later
  | case4 char rest _ plain ih =>
    intro line member
    cases lines : splitLines rest with
    | nil =>
      rw [lines, consHead] at member
      rw [List.mem_singleton.mp member]
      intro other here
      rw [List.mem_singleton.mp here]
      simpa using plain
    | cons first others =>
      rw [lines] at ih
      rw [lines, consHead] at member
      rcases List.mem_cons.mp member with rfl | later
      · intro other here
        rcases List.mem_cons.mp here with rfl | there
        · simpa using plain
        · exact ih first (List.mem_cons_self ..) other there
      · exact ih line (List.mem_cons_of_mem _ later)

theorem splitLines_append {line : List Char} (plain : ∀ char ∈ line, isBoundary char = false) (rest : List Char) :
    splitLines (line ++ '\n' :: rest) = line :: splitLines rest := by
  induction line with
  | nil => exact splitLines_feed rest
  | cons char line ih =>
    rw [List.cons_append, splitLines_plain (plain char (List.mem_cons_self ..)), ih fun other member => plain other (List.mem_cons_of_mem _ member)]
    rfl

theorem splitLines_ne_nil {text : List Char} (some' : text ≠ []) : splitLines text ≠ [] := by
  fun_cases splitLines text with
  | case1 => exact absurd rfl some'
  | case2 => exact List.cons_ne_nil _ _
  | case3 => exact List.cons_ne_nil _ _
  | case4 char rest =>
    unfold consHead
    split
    · exact List.cons_ne_nil _ _
    · exact List.cons_ne_nil _ _

theorem intercalate_splitLines {text : List Char} (fed : Fed text) (last : text.getLast? ≠ some '\n') : ['\n'].intercalate (splitLines text) = text := by
  induction text with
  | nil => rfl
  | cons char rest ih =>
    have later : rest.getLast? ≠ some '\n' := by
      cases rest with
      | nil => exact fun none => nomatch none
      | cons next rest => rwa [List.getLast?_cons_cons] at last
    have joined := ih (fun other member => fed other (List.mem_cons_of_mem _ member)) later
    cases ended : isBoundary char with
    | true =>
      obtain rfl := fed char (List.mem_cons_self ..) ended
      have more : rest ≠ [] := by
        rintro rfl
        exact last rfl
      cases lines : splitLines rest with
      | nil => exact absurd lines (splitLines_ne_nil more)
      | cons first others =>
        rw [splitLines_feed, lines, List.intercalate_cons_cons, ← lines, joined]
        rfl
    | false =>
      rw [splitLines_plain ended]
      cases lines : splitLines rest with
      | nil =>
        cases rest with
        | nil => rfl
        | cons next rest => exact absurd lines (splitLines_ne_nil (List.cons_ne_nil _ _))
      | cons first others =>
        rw [lines] at joined
        cases others with
        | nil =>
          rw [consHead, List.intercalate_singleton]
          rw [List.intercalate_singleton] at joined
          rw [joined]
        | cons next others =>
          rw [consHead, List.intercalate_cons_cons]
          rw [List.intercalate_cons_cons] at joined
          rw [← joined]
          rfl

/-- Each item that ends a part is written as itself, and the others as items that end none. -/
structure Spares (write : α → List α) (ends : α → Bool) : Prop where
  kept : ∀ item, ends item = true → write item = [item]
  other : ∀ item, ends item = false → write item ≠ [] ∧ ∀ image ∈ write item, ends image = false

theorem Spares.reverse {write : α → List α} {ends : α → Bool} (spares : Spares write ends) : Spares (fun item => (write item).reverse) ends where
  kept item ended := by rw [spares.kept item ended, List.reverse_singleton]
  other item plain := by
    obtain ⟨some', images⟩ := spares.other item plain
    exact ⟨by simpa using some', fun image member => images image (List.mem_reverse.mp member)⟩

theorem dropWhile_flatMap {write : α → List α} {drops : α → Bool} (spares : Spares write drops) (text : List α) :
    (text.flatMap write).dropWhile drops = (text.dropWhile drops).flatMap write := by
  induction text with
  | nil => rfl
  | cons item text ih =>
    cases dropped : drops item with
    | true => rw [List.flatMap_cons, spares.kept item dropped, List.singleton_append, List.dropWhile_cons_of_pos dropped, List.dropWhile_cons_of_pos dropped, ih]
    | false =>
      obtain ⟨some', images⟩ := spares.other item dropped
      rw [List.dropWhile_cons_of_neg (by simp [dropped]), List.flatMap_cons]
      apply dropWhile_kept
      intro first same
      rw [List.head?_append_of_ne_nil _ some'] at same
      exact images first (List.mem_of_mem_head? same)

theorem stripBy_flatMap {write : α → List α} {drops : α → Bool} (spares : Spares write drops) (text : List α) :
    stripBy drops (text.flatMap write) = (stripBy drops text).flatMap write := by
  rw [stripBy, dropWhile_flatMap spares, List.reverse_flatMap]
  change (((text.dropWhile drops).reverse.flatMap fun item => (write item).reverse).dropWhile drops).reverse = _
  rw [dropWhile_flatMap spares.reverse, List.reverse_flatMap, stripBy]
  congr 1
  funext item
  exact List.reverse_reverse _

theorem intercalate_flatMap (write : α → List α) (separator : List α) (parts : List (List α)) :
    (separator.intercalate parts).flatMap write = (separator.flatMap write).intercalate (parts.map fun part => part.flatMap write) := by
  induction parts with
  | nil => rfl
  | cons part rest ih =>
    cases rest with
    | nil => rw [List.map_cons, List.map_nil, List.intercalate_singleton, List.intercalate_singleton]
    | cons next rest =>
      rw [List.intercalate_cons_cons, List.flatMap_append, List.flatMap_append, ih]
      simp only [List.map_cons, List.intercalate_cons_cons]

theorem foldr_consHead (line part : List α) (rest : List (List α)) : line.foldr consHead (part :: rest) = (line ++ part) :: rest := by
  induction line with
  | nil => rfl
  | cons item line ih => rw [List.foldr_cons, ih, List.cons_append, consHead]

theorem splitDouble_plain [DecidableEq α] {mark item : α} (plain : item ≠ mark) (text : List α) :
    splitDouble mark (item :: text) = consHead item (splitDouble mark text) := by
  cases text with
  | nil => rfl
  | cons next text => rw [splitDouble, if_neg fun both => plain both.1]

theorem splitDouble_line [DecidableEq α] {mark : α} {line : List α} (plain : mark ∉ line) (text : List α) :
    splitDouble mark (line ++ text) = line.foldr consHead (splitDouble mark text) := by
  induction line with
  | nil => rfl
  | cons item line ih =>
    obtain ⟨other, later⟩ := not_or.mp (fun member => plain (List.mem_cons.mpr member))
    rw [List.cons_append, splitDouble_plain (Ne.symm other), ih later, List.foldr_cons]

theorem splitDouble_flatMap [DecidableEq α] {mark : α} {write : α → List α} (spares : Spares write fun item => decide (item = mark)) (text : List α) :
    splitDouble mark (text.flatMap write) = (splitDouble mark text).map fun part => part.flatMap write := by
  have marked : write mark = [mark] := spares.kept mark (decide_eq_true rfl)
  have images {item : α} (other : item ≠ mark) : write item ≠ [] ∧ mark ∉ write item := by
    obtain ⟨some', each⟩ := spares.other item (decide_eq_false other)
    exact ⟨some', fun member => of_decide_eq_false (each mark member) rfl⟩
  fun_induction splitDouble mark text with
  | case1 => rfl
  | case2 item =>
    rw [List.flatMap_singleton, List.map_singleton, List.flatMap_singleton]
    by_cases same : item = mark
    · rw [same, marked]
      rfl
    · exact splitDouble_single (single_plain (images same).2)
  | case3 one two rest both ih =>
    rw [both.1, both.2, List.flatMap_cons, List.flatMap_cons, marked, List.singleton_append, List.singleton_append, splitDouble, if_pos ⟨rfl, rfl⟩, ih]
    rfl
  | case4 one two rest apart ih =>
    obtain ⟨part, others, parts⟩ := List.exists_cons_of_ne_nil (splitDouble_ne_nil (two :: rest) : splitDouble mark (two :: rest) ≠ [])
    rw [List.flatMap_cons]
    by_cases same : one = mark
    · have different : two ≠ mark := fun also => apart ⟨same, also⟩
      obtain ⟨first, image, written⟩ := List.exists_cons_of_ne_nil (images different).1
      have plain : first ≠ mark := by
        rintro rfl
        exact (images different).2 (by rw [written]; exact List.mem_cons_self ..)
      have step : splitDouble mark (mark :: (two :: rest).flatMap write) = consHead mark (splitDouble mark ((two :: rest).flatMap write)) := by
        rw [List.flatMap_cons, written, List.cons_append, splitDouble, if_neg fun both => plain both.2]
      rw [same, marked, List.singleton_append, step, ih, parts, List.map_cons, consHead, consHead, List.map_cons, List.flatMap_cons, marked]
      rfl
    · rw [splitDouble_line (images same).2, ih, parts, List.map_cons, foldr_consHead, consHead, List.map_cons, List.flatMap_cons]

theorem splitLines_line {line : List Char} (plain : ∀ char ∈ line, isBoundary char = false) (text : List Char) :
    splitLines (line ++ text) = line.foldr consHead (splitLines text) := by
  induction line with
  | nil => rfl
  | cons char line ih =>
    rw [List.cons_append, splitLines_plain (plain char (List.mem_cons_self ..)), ih fun other member => plain other (List.mem_cons_of_mem _ member),
      List.foldr_cons]

theorem splitLines_ended {char : Char} {rest : List Char} (ended : isBoundary char = true) (apart : char = '\r' → rest.head? ≠ some '\n') :
    splitLines (char :: rest) = [] :: splitLines rest := by
  rw [splitLines.eq_def]
  split
  · rename_i none
    cases none
  · rename_i same
    cases same
    exact absurd rfl (apart rfl)
  · rename_i same
    cases same
    rw [if_pos ended]

theorem head?_flatMap_ended {write : Char → List Char} {ends : Char → Bool} (spares : Spares write ends) (ended : ends char = true) {text : List Char}
    (head : (text.flatMap write).head? = some char) : text.head? = some char := by
  cases text with
  | nil => exact head
  | cons first text =>
    rw [List.flatMap_cons] at head
    cases kept : ends first with
    | true =>
      rw [spares.kept first kept] at head
      exact head
    | false =>
      obtain ⟨some', images⟩ := spares.other first kept
      rw [List.head?_append_of_ne_nil _ some'] at head
      rw [images char (List.mem_of_mem_head? head)] at ended
      cases ended

theorem splitLines_flatMap {write : Char → List Char} (spares : Spares write isBoundary) (text : List Char) :
    splitLines (text.flatMap write) = (splitLines text).map fun line => line.flatMap write := by
  fun_induction splitLines text with
  | case1 => rfl
  | case2 rest ih =>
    rw [List.flatMap_cons, List.flatMap_cons, spares.kept '\r' (by decide), spares.kept '\n' (by decide), List.singleton_append, List.singleton_append,
      splitLines, ih]
    rfl
  | case3 char rest other ended ih =>
    rw [List.flatMap_cons, spares.kept char ended, List.singleton_append, splitLines_ended ended, ih]
    · rfl
    · intro same head
      have next := head?_flatMap_ended spares (by decide) head
      cases rest with
      | nil => cases next
      | cons first rest =>
        cases next
        exact other rest same rfl
  | case4 char rest other plain ih =>
    obtain ⟨some', images⟩ := spares.other char (by simpa using plain)
    rw [List.flatMap_cons, splitLines_line images, ih]
    cases lines : splitLines rest with
    | nil =>
      obtain ⟨first, image, written⟩ := List.exists_cons_of_ne_nil some'
      have alone (line : List Char) : line ≠ [] → line.foldr consHead [] = [line] := by
        intro filled
        induction line with
        | nil => exact absurd rfl filled
        | cons item line ih =>
          cases line with
          | nil => rfl
          | cons next line => rw [List.foldr_cons, ih (List.cons_ne_nil _ _), consHead]
      rw [List.map_nil, alone _ some', consHead, List.map_singleton, List.flatMap_singleton]
    | cons line others => rw [List.map_cons, foldr_consHead, consHead, List.map_cons, List.flatMap_cons]

end NovelStudio.Library

/-! The tokens of a text: the longest runs of it without a space. -/

namespace NovelStudio.Library

universe u
variable {α : Type u} {space : α → Bool}

def tokens (space : α → Bool) (text : List α) : List (List α) := (text.splitOnP space).filter fun run => !run.isEmpty

@[simp] theorem tokens_nil : tokens space ([] : List α) = [] := rfl

theorem tokens_append_cons (one other : List α) {item : α} (apart : space item = true) :
    tokens space (one ++ item :: other) = tokens space one ++ tokens space other := by
  rw [tokens, List.splitOnP_append_cons _ _ apart, List.filter_append]
  rfl

theorem tokens_cons_space {item : α} (apart : space item = true) (text : List α) : tokens space (item :: text) = tokens space text :=
  tokens_append_cons [] text apart

theorem tokens_token {token : List α} (some : token ≠ []) (plain : ∀ item ∈ token, space item = false) : tokens space token = [token] := by
  rw [tokens, List.splitOnP_eq_singleton plain]
  cases token with
  | nil => exact (some rfl).elim
  | cons => rfl

theorem tokens_gap {one gap : List α} (some : gap ≠ []) (spaces : ∀ item ∈ gap, space item = true) (other : List α) :
    tokens space (one ++ gap ++ other) = tokens space one ++ tokens space other := by
  induction gap generalizing one with
  | nil => exact (some rfl).elim
  | cons item gap ih =>
    rw [List.forall_mem_cons] at spaces
    rw [List.append_assoc, List.cons_append, tokens_append_cons _ _ spaces.1]
    cases gap with
    | nil => rfl
    | cons next gap =>
      have rest : tokens space ([] ++ (next :: gap) ++ other) = tokens space [] ++ tokens space other := ih (List.cons_ne_nil _ _) spaces.2
      rw [← List.nil_append (next :: gap), rest]
      rfl

theorem tokens_append_spaces (text : List α) {gap : List α} (spaces : ∀ item ∈ gap, space item = true) : tokens space (text ++ gap) = tokens space text := by
  cases gap with
  | nil => rw [List.append_nil]
  | cons item gap =>
    have parted : tokens space (text ++ item :: gap ++ []) = tokens space text ++ tokens space [] := tokens_gap (List.cons_ne_nil _ _) spaces []
    rwa [List.append_nil, tokens_nil, List.append_nil] at parted

theorem tokens_dropWhile (text : List α) : tokens space (text.dropWhile space) = tokens space text := by
  induction text with
  | nil => rfl
  | cons item text ih =>
    cases apart : space item with
    | true => rw [List.dropWhile_cons_of_pos apart, ih, tokens_cons_space apart]
    | false => rw [List.dropWhile_cons_of_neg (by simp [apart])]

theorem tokens_stripBy (text : List α) : tokens space (stripBy space text) = tokens space text := by
  have whole : stripBy space text ++ ((text.dropWhile space).reverse.takeWhile space).reverse = text.dropWhile space := by
    rw [stripBy, ← List.reverse_append, List.takeWhile_append_dropWhile, List.reverse_reverse]
  rw [← tokens_dropWhile text, ← whole, tokens_append_spaces]
  intro item member
  exact List.mem_takeWhile_imp (List.mem_reverse.mp member)

/-- A text that is cut into parts where it has spaces. -/
inductive Parted (space : α → Bool) : List α → List (List α) → Prop where
  | nil : Parted space [] []
  | last (part : List α) : Parted space part [part]
  | cons (part : List α) {gap rest : List α} {parts : List (List α)} (some : gap ≠ []) (spaces : ∀ item ∈ gap, space item = true)
      (later : Parted space rest parts) : Parted space (part ++ gap ++ rest) (part :: parts)

theorem Parted.tokens {text : List α} {parts : List (List α)} (parted : Parted space text parts) :
    tokens space text = parts.flatMap (tokens space) := by
  induction parted with
  | nil => rfl
  | last part => rw [List.flatMap_singleton]
  | cons part some spaces _ ih => rw [tokens_gap some spaces, ih, List.flatMap_cons]

theorem Parted.consHead {text : List α} {parts : List (List α)} (parted : Parted space text parts) (item : α) :
    Parted space (item :: text) (consHead item parts) := by
  cases parted with
  | nil => exact .last [item]
  | last => exact .last (item :: text)
  | cons first some spaces later => exact .cons (item :: first) some spaces later

theorem Parted.gap {rest : List α} {parts : List (List α)} {gap : List α} (some : gap ≠ []) (spaces : ∀ item ∈ gap, space item = true)
    (later : Parted space rest parts) : Parted space (gap ++ rest) ([] :: parts) := .cons [] some spaces later

theorem tokens_intercalate {mark : α} (apart : space mark = true) (parts : List (List α)) :
    tokens space ([mark].intercalate parts) = parts.flatMap (tokens space) := by
  induction parts with
  | nil => rfl
  | cons part rest ih =>
    cases rest with
    | nil => rw [List.intercalate_singleton, List.flatMap_singleton]
    | cons next rest =>
      rw [List.intercalate_cons_cons, tokens_gap (List.cons_ne_nil _ _) (fun item member => List.mem_singleton.mp member ▸ apart), ih]
      rfl

theorem isSpace_of_isBoundary {char : Char} (ended : isBoundary char = true) : isSpace char = true := by
  simp only [isBoundary, List.mem_cons, List.not_mem_nil, or_false, decide_eq_true_eq] at ended
  simp only [isSpace, Bool.or_eq_true, Bool.and_eq_true, decide_eq_true_eq, beq_iff_eq]
  omega

theorem parted_splitLines (text : List Char) : Parted isSpace text (splitLines text) := by
  fun_induction splitLines text with
  | case1 => exact .nil
  | case2 rest ih =>
    have gap : Parted isSpace (['\r', '\n'] ++ rest) ([] :: splitLines rest) := ih.gap (List.cons_ne_nil _ _) (List.all_eq_true.mp (by decide))
    exact gap
  | case3 char rest _ ended ih =>
    have gap : Parted isSpace ([char] ++ rest) ([] :: splitLines rest) :=
      ih.gap (List.cons_ne_nil _ _) (by simpa using isSpace_of_isBoundary ended)
    exact gap
  | case4 char rest _ _ ih => exact ih.consHead char

end NovelStudio.Library
