import Mathlib.Data.List.Flatten
import NovelStudio.Documents.Markdown

/-! The words of an imported text: which of them the text of the document has. -/

namespace NovelStudio.Documents

open Library

variable {block markdown : List Char}

def wordsOf (text : List Char) : List (List Char) := tokens isSpace text

def opensFence (line : List Char) : Bool := fence.isPrefixOf line

/-- The lines of a block of code behind its first one. -/
def codeLines (block : List Char) : List (List Char) := (splitLines block).tail

/-- The words of a block, but for the marks of a heading and the lines that open and close a block of code. -/
def authored (block : List Char) : List (List Char) :=
  if (headingOf block).isSome then wordsOf (block.dropWhile (· = '#'))
  else if opensFence block then
    (if (codeLines block).getLast?.any opensFence then (codeLines block).dropLast else codeLines block).flatMap wordsOf
  else wordsOf block

/-- A block of code ends with a line that closes it, or that has no words. -/
def closed (block : List Char) : Bool :=
  (headingOf block).isSome || !opensFence block || (codeLines block).getLast?.all fun last => opensFence last || (wordsOf last).isEmpty

/-- The first word of a block is a run of one to six marks. -/
def opensHeading (block : List Char) : Bool :=
  let marks := block.takeWhile (· = '#')
  (1 ≤ marks.length && marks.length ≤ 6) && (block.dropWhile (· = '#')).head?.all isSpace

/-- The words of a block, but for a run of marks that opens it and for the lines that start with three backquotes. -/
def kept (block : List Char) : List (List Char) :=
  let spared := ((splitLines block).filter fun line => !opensFence line).flatMap wordsOf
  if opensHeading block then spared.tail else spared

theorem wordsOf_lines (text : List Char) : (splitLines text).flatMap wordsOf = wordsOf text := (parted_splitLines text).tokens.symm

theorem wordsOf_blocks (markdown : List Char) : (blocksOf markdown).flatMap wordsOf = wordsOf markdown := by
  have parted := (parted_splitBlocks (stripBy isSpace markdown)).tokens
  rw [tokens_stripBy] at parted
  rw [wordsOf, parted, blocksOf]
  generalize splitBlocks (stripBy isSpace markdown) = blocks
  induction blocks with
  | nil => rfl
  | cons block rest ih =>
    cases block with
    | nil => exact ih
    | cons char block =>
      rw [List.filter_cons_of_pos rfl, List.flatMap_cons, List.flatMap_cons, ih]
      rfl

theorem textOf_heading (heading : (headingOf block).isSome = true) : wordsOf (textOf block) = wordsOf (block.dropWhile (· = '#')) := by
  obtain ⟨⟨level, text⟩, found⟩ := Option.isSome_iff_exists.mp heading
  have rest : text = stripBy isSpace ((block.dropWhile (· = '#')).dropWhile isSpace) := by
    have same := found
    rw [headingOf] at same
    split at same
    · cases same
      rfl
    · cases same
  rw [textOf, found, wordsOf, rest, tokens_stripBy, tokens_dropWhile]
  rfl

theorem textOf_code (plain : headingOf block = none) (code : opensFence block = true) : wordsOf (textOf block) = (codeLines block).dropLast.flatMap wordsOf := by
  have prefixed : fence.isPrefixOf block = true := code
  rw [textOf, plain]
  simp only [prefixed]
  exact tokens_intercalate isSpace_feed _

/-- The text of a block begins as its words do, and has all of them when it is closed, and only then. -/
theorem textOf_words (block : List Char) : wordsOf (textOf block) <+: authored block ∧ (wordsOf (textOf block) = authored block ↔ closed block = true) := by
  rw [authored, closed]
  cases heading : headingOf block with
  | some found =>
    rw [Option.isSome_some, if_pos rfl, textOf_heading (by rw [heading]; rfl)]
    exact ⟨List.prefix_refl _, by simp⟩
  | none =>
    rw [Option.isSome_none, if_neg Bool.false_ne_true]
    cases code : opensFence block with
    | false =>
      rw [if_neg Bool.false_ne_true, textOf, heading]
      have plain : fence.isPrefixOf block = false := code
      simp only [plain]
      exact ⟨List.prefix_refl _, by simp⟩
    | true =>
      rw [if_pos rfl, textOf_code heading code]
      generalize codeLines block = lines
      cases last : lines.getLast? with
      | none =>
        obtain rfl := List.getLast?_eq_none_iff.mp last
        exact ⟨List.prefix_refl _, by simp⟩
      | some line =>
        have split : lines = lines.dropLast ++ [line] := (List.dropLast_append_getLast? line last).symm
        cases fenced : opensFence line with
        | true => simp [fenced]
        | false =>
          have both : lines.flatMap wordsOf = lines.dropLast.flatMap wordsOf ++ wordsOf line := by
            rw [split, List.flatMap_append, List.dropLast_concat, List.flatMap_singleton]
          simp [fenced, both]

theorem flatMap_eq_iff {α β : Type} {one other : α → List β} (begins : ∀ item, one item <+: other item) (items : List α) :
    (items.flatMap one).Sublist (items.flatMap other) ∧ (items.flatMap one = items.flatMap other ↔ ∀ item ∈ items, one item = other item) := by
  induction items with
  | nil => simp
  | cons item rest ih =>
    obtain ⟨below, same⟩ := ih
    rw [List.flatMap_cons, List.flatMap_cons, List.forall_mem_cons]
    refine ⟨(begins item).sublist.append below, fun both => ?_, fun ⟨here, later⟩ => by rw [here, same.mpr later]⟩
    have lengths := congrArg List.length both
    rw [List.length_append, List.length_append] at lengths
    have short := (begins item).length_le
    have less := below.length_le
    have here : one item = other item := (begins item).eq_of_length (by omega)
    rw [here] at both
    exact ⟨here, same.mp (List.append_cancel_left both)⟩

theorem marks_words (heading : (headingOf block).isSome = true) :
    opensHeading block = true ∧ (wordsOf block).tail = wordsOf (block.dropWhile (· = '#')) := by
  rw [headingOf] at heading
  split at heading
  · rename_i marked
    rw [Bool.and_eq_true] at marked
    obtain ⟨count, behind⟩ := marked
    cases rest : block.dropWhile (· = '#') with
    | nil => simp [rest] at behind
    | cons char rest' =>
      have apart : isSpace char = true := by simpa [rest] using behind
      refine ⟨by simp [opensHeading, rest, apart, count], ?_⟩
      have marks : ∀ mark ∈ block.takeWhile (· = '#'), isSpace mark = false := by
        intro mark member
        have same : mark = '#' := by simpa using List.mem_takeWhile_imp member
        rw [same]
        decide
      have some : block.takeWhile (· = '#') ≠ [] := by
        intro none
        simp [none] at count
      have whole : block.takeWhile (· = '#') ++ char :: rest' = block := by
        rw [← rest]
        exact List.takeWhile_append_dropWhile
      have words : wordsOf block = block.takeWhile (· = '#') :: wordsOf rest' := by
        conv_lhs => rw [← whole]
        rw [wordsOf, tokens_append_cons _ _ apart, tokens_token some marks]
        rfl
      rw [words, List.tail_cons, wordsOf, wordsOf, tokens_cons_space apart]
  · cases heading

theorem spared_words (block : List Char) : (((splitLines block).filter fun line => !opensFence line).flatMap wordsOf).Sublist (wordsOf block) := by
  rw [← wordsOf_lines block]
  exact List.filter_sublist.flatMap wordsOf

theorem lines_code (code : opensFence block = true) : ∃ line, splitLines block = line :: codeLines block ∧ opensFence line = true := by
  obtain ⟨rest, rfl⟩ : fence <+: block := List.isPrefixOf_iff_prefix.mp code
  have plain : ∀ char ∈ fence, isBoundary char = false := by
    intro char member
    have same : char = '`' := by simpa [fence] using member
    rw [same]
    decide
  rw [codeLines, splitLines_line plain]
  cases splitLines rest with
  | nil => exact ⟨fence, rfl, rfl⟩
  | cons line others =>
    rw [foldr_consHead]
    exact ⟨_, rfl, List.isPrefixOf_iff_prefix.mpr (List.prefix_append ..)⟩

theorem kept_authored (block : List Char) : (kept block).Sublist (authored block) := by
  by_cases heading : (headingOf block).isSome = true
  · obtain ⟨opens, rest⟩ := marks_words heading
    rw [kept, authored, if_pos heading, opens, if_pos rfl, ← rest]
    exact (spared_words block).tail
  · have spared : (kept block).Sublist (((splitLines block).filter fun line => !opensFence line).flatMap wordsOf) := by
      rw [kept]
      split
      · exact List.tail_sublist _
      · exact List.Sublist.refl _
    refine spared.trans ?_
    rw [authored, if_neg heading]
    split
    · rename_i code
      obtain ⟨line, lines, opens⟩ := lines_code code
      rw [lines, List.filter_cons_of_neg (by simp [opens])]
      refine List.Sublist.flatMap ?_ wordsOf
      generalize codeLines block = inner
      split
      · rename_i closing
        cases found : inner.getLast? with
        | none => simp [found] at closing
        | some last =>
          have fenced : opensFence last = true := by simpa [found] using closing
          have split : inner.dropLast ++ [last] = inner := List.dropLast_append_getLast? last found
          conv_lhs => rw [← split]
          rw [List.filter_append, List.filter_cons_of_neg (by simp [fenced]), List.filter_nil, List.append_nil]
          exact List.filter_sublist
      · exact List.filter_sublist
    · exact spared_words block

theorem authored_words (block : List Char) : (authored block).Sublist (wordsOf block) := by
  rw [authored]
  split
  · rename_i heading
    rw [← (marks_words heading).2]
    exact List.tail_sublist _
  · split
    · rename_i code
      obtain ⟨line, lines, _⟩ := lines_code code
      rw [← wordsOf_lines block, lines, List.flatMap_cons]
      refine List.Sublist.trans ?_ (List.sublist_append_right ..)
      split
      · exact (List.dropLast_sublist _).flatMap wordsOf
      · exact List.Sublist.refl _
    · exact List.Sublist.refl _

/-- The document of an imported text is valid. Its text has the words that are written, but for the marks of headings and the lines around
blocks of code, when each block of code ends with a line that closes it or that has no words, and only then; and no other words. -/
theorem import_keeps_words (markdown : List Char) :
    validateDocument (markdownToDocument markdown) = .ok () ∧
      ∃ text, plainText (markdownToDocument markdown) false = .ok text ∧ (wordsOf text).Sublist (wordsOf markdown) ∧
        (wordsOf text = (blocksOf markdown).flatMap authored ↔ ∀ block ∈ blocksOf markdown, closed block = true) ∧
        ((∀ block ∈ blocksOf markdown, closed block = true) → ((blocksOf markdown).flatMap kept).Sublist (wordsOf text)) := by
  have words : wordsOf (['\n'].intercalate ((blocksOf markdown).map textOf)) = (blocksOf markdown).flatMap fun block => wordsOf (textOf block) := by
    rw [wordsOf, tokens_intercalate isSpace_feed, List.flatMap_map]
    rfl
  obtain ⟨below, same⟩ := flatMap_eq_iff (fun block => (textOf_words block).1) (blocksOf markdown)
  have closing : (∀ block ∈ blocksOf markdown, wordsOf (textOf block) = authored block) ↔ ∀ block ∈ blocksOf markdown, closed block = true :=
    forall₂_congr fun block _ => (textOf_words block).2
  refine ⟨validate_markdown markdown, _, plainText_markdown markdown, ?_, ?_, fun ends => ?_⟩
  · rw [words, ← wordsOf_blocks]
    exact below.trans (List.Sublist.flatMap_right _ fun block _ => authored_words block)
  · rw [words, same, closing]
  · rw [words, same.mpr (closing.mpr ends)]
    exact List.Sublist.flatMap_right _ fun block _ => kept_authored block

/-- A block of code with an empty line in it loses the word before that line. -/
theorem code_loses_word : ¬ ∀ markdown : List Char, ∃ text, plainText (markdownToDocument markdown) false = .ok text ∧
    ((blocksOf markdown).flatMap kept).Sublist (wordsOf text) := by
  intro keeps
  obtain ⟨text, given, words⟩ := keeps "```\nfirst\n\nsecond\n```".toList
  rw [plainText_markdown] at given
  cases given
  revert words
  decide +kernel

end NovelStudio.Documents
