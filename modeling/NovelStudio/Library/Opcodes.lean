import NovelStudio.Library.SequenceMatcher

/-! The opcodes of `get_opcodes` are an edit script, and it is tight: between two
positions that it aligns it never changes a stretch into itself. -/

namespace NovelStudio.Library.SequenceMatcher

variable {κ : Type*} [DecidableEq κ]

omit [DecidableEq κ] in
theorem Aligned.collapse (aligned : Aligned x y i j m n blocks) :
    Aligned x y i j m n (collapse blocks) := by
  induction blocks using SequenceMatcher.collapse.induct generalizing i j with
  | case1 first second rest adjacent ih =>
    rw [SequenceMatcher.collapse, if_pos adjacent]
    apply ih
    cases aligned with
    | block left right some agrees later =>
      cases later with
      | block left' right' some' agrees' later =>
        refine .block left right (by simp only; omega) (fun index less => ?_) ?_
        · by_cases early : index < first.size
          · exact agrees index early
          · have along := agrees' (index - first.size) (by simp only at less; omega)
            rwa [show second.a + (index - first.size) = first.a + index by omega,
              show second.b + (index - first.size) = first.b + index by omega] at along
        · simpa only [← Nat.add_assoc, adjacent] using later
  | case2 first second rest apart ih =>
    rw [SequenceMatcher.collapse, if_neg apart]
    cases aligned with
    | block left right some agrees later => exact .block left right some agrees (ih later)
  | case3 blocks short =>
    rw [SequenceMatcher.collapse]
    · exact aligned
    · exact short

theorem mem_collapse {block : Block} (member : block ∈ blocks) :
    ∃ whole ∈ collapse blocks, whole.a ≤ block.a ∧ block.a + block.size ≤ whole.a + whole.size ∧
      block.a + whole.b = whole.a + block.b := by
  induction blocks using collapse.induct generalizing block with
  | case1 first second rest adjacent ih =>
    rw [collapse, if_pos adjacent]
    simp only [List.mem_cons] at member
    rcases member with rfl | rfl | member
    · obtain ⟨whole, found, inside⟩ := ih (List.mem_cons_self ..)
      exact ⟨whole, found, by simp only at inside; omega⟩
    · obtain ⟨whole, found, inside⟩ := ih (List.mem_cons_self ..)
      exact ⟨whole, found, by simp only at inside; omega⟩
    · exact ih (List.mem_cons_of_mem _ member)
  | case2 first second rest apart ih =>
    rw [collapse, if_neg apart]
    rcases List.mem_cons.mp member with rfl | member
    · exact ⟨block, List.mem_cons_self .., by omega⟩
    · obtain ⟨whole, found, inside⟩ := ih member
      exact ⟨whole, List.mem_cons_of_mem _ found, inside⟩
  | case3 blocks short =>
    rw [collapse]
    · exact ⟨block, member, by omega⟩
    · exact short

omit [DecidableEq κ] in
theorem compatible_of_collapse (compatible : Compatible (collapse blocks) s t) : Compatible blocks s t := by
  intro block member
  obtain ⟨whole, found, inside⟩ := mem_collapse member
  have position := compatible whole found
  omega

omit [DecidableEq κ] in
theorem matched_collapse (matched : Matched blocks s t) : Matched (collapse blocks) s t := by
  obtain ⟨block, member, index, less, left, right⟩ := matched
  obtain ⟨whole, found, inside⟩ := mem_collapse member
  exact ⟨whole, found, s - whole.a, by omega, by omega, by omega⟩

def between (i j : Nat) (block : Block) : List Opcode :=
  if i < block.a ∧ j < block.b then [⟨.replace, i, block.a, j, block.b⟩]
  else if i < block.a then [⟨.delete, i, block.a, j, block.b⟩]
  else if j < block.b then [⟨.insert, i, block.a, j, block.b⟩]
  else []

theorem opcodesFrom_cons (i j : Nat) (block : Block) (rest : List Block) :
    opcodesFrom i j (block :: rest) = between i j block ++
      (if block.size = 0 then [] else [⟨.equal, block.a, block.a + block.size, block.b, block.b + block.size⟩]) ++
      opcodesFrom (block.a + block.size) (block.b + block.size) rest := rfl

theorem between_cases (left : i ≤ block.a) (right : j ≤ block.b) :
    (between i j block = [] ∧ i = block.a ∧ j = block.b) ∨
    ∃ tag, tag ≠ Tag.equal ∧ between i j block = [⟨tag, i, block.a, j, block.b⟩] ∧ (i < block.a ∨ j < block.b) := by
  unfold between
  split
  · exact .inr ⟨.replace, by decide, rfl, by omega⟩
  split
  · exact .inr ⟨.delete, by decide, rfl, by omega⟩
  split
  · exact .inr ⟨.insert, by decide, rfl, by omega⟩
  · exact .inl ⟨rfl, by omega, by omega⟩

omit [DecidableEq κ] in
theorem Script.between (block : Block) (left : i ≤ block.a) (right : j ≤ block.b)
    (script : Script x y block.a block.b opcodes) : Script x y i j (between i j block ++ opcodes) := by
  rcases between_cases left right with ⟨none, rfl, rfl⟩ | ⟨tag, changed, one, some⟩
  · simpa only [none, List.nil_append] using script
  · rw [one]
    exact .change changed left right some script

/-- The empty block behind both lists. -/
abbrev sentinel (x y : List κ) : Block := ⟨x.length, y.length, 0⟩

omit [DecidableEq κ] in
theorem opcodesFrom_script (aligned : Aligned x y i j x.length y.length blocks) :
    Script x y i j (opcodesFrom i j (blocks ++ [sentinel x y])) := by
  induction blocks generalizing i j with
  | nil =>
    obtain ⟨left, right, _⟩ := aligned.bounds
    rw [List.nil_append, opcodesFrom_cons]
    simpa [opcodesFrom] using Script.between (sentinel x y) left right Script.done
  | cons block blocks ih =>
    cases aligned with
    | block left right some agrees rest =>
      obtain ⟨endLeft, endRight, _⟩ := rest.bounds
      rw [List.cons_append, opcodesFrom_cons, if_neg (by omega), List.append_assoc]
      exact Script.between _ left right (.equal some endLeft endRight agrees (ih rest))

theorem getOpcodes_script (x y : List κ) : IsEditScript x y (getOpcodes x y) := by
  have tight := matchingBlocks_tight x y x y 0 0 (by simp) (by simp)
  rw [Nat.zero_add, Nat.zero_add] at tight
  exact opcodesFrom_script tight.aligned.collapse

theorem changes_cons (block : Block) (rest : List Block) (left : i ≤ block.a) (right : j ≤ block.b) :
    changes (opcodesFrom i j (block :: rest)) =
      between i j block ++ changes (opcodesFrom (block.a + block.size) (block.b + block.size) rest) := by
  have equal : changes (if block.size = 0 then [] else
      [⟨Tag.equal, block.a, block.a + block.size, block.b, block.b + block.size⟩]) = [] := by
    split <;> rfl
  have kept : changes (between i j block) = between i j block := by
    rcases between_cases left right with ⟨none, _⟩ | ⟨tag, changed, one, _⟩
    · rw [none]
      rfl
    · simp [one, changes, changed]
  rw [opcodesFrom_cons]
  simp only [changes, List.filter_append] at equal kept ⊢
  rw [equal, kept, List.append_nil]

variable {x y : List κ}

omit [DecidableEq κ] in
theorem gap_unmatched (opcode : Opcode) (aligned : Aligned x y i j x.length y.length blocks)
    (member : opcode ∈ changes (opcodesFrom i j (blocks ++ [sentinel x y]))) (block : Block) (found : block ∈ blocks) :
    (block.a + block.size ≤ opcode.i1 ∨ opcode.i2 ≤ block.a) ∧
      (block.b + block.size ≤ opcode.j1 ∨ opcode.j2 ≤ block.b) := by
  induction blocks generalizing i j with
  | nil => cases found
  | cons first blocks ih =>
    cases aligned with
    | block left right some agrees rest =>
      obtain ⟨_, _, bounds⟩ := rest.bounds
      rw [List.cons_append, changes_cons _ _ left right] at member
      rcases List.mem_append.mp member with here | later
      · have ends : opcode.i2 = first.a ∧ opcode.j2 = first.b := by
          rcases between_cases left right with ⟨none, _⟩ | ⟨tag, _, one, _⟩
          · simp [none] at here
          · simp [one] at here
            simp [here]
        rcases List.mem_cons.mp found with rfl | found
        · omega
        · have inside := bounds block found
          omega
      · rcases List.mem_cons.mp found with rfl | found
        · obtain ⟨_, _, inside⟩ := (opcodesFrom_script rest).gaps.bounds
          have ahead := inside opcode later
          omega
        · exact ih rest later found

omit [DecidableEq κ] in
/-- The image of a position behind the start of a block is aligned with it, if it is
aligned with the blocks that follow. -/
theorem compatible_behind {first : Block} (some : 0 < first.size)
    (rest : Aligned x y (first.a + first.size) (first.b + first.size) x.length y.length blocks)
    (parts : changes (opcodesFrom (first.a + first.size) (first.b + first.size) (blocks ++ [sentinel x y])) = before ++ after)
    (start : first.a ≤ position) (behind : ∀ opcode ∈ before, opcode.i2 ≤ position)
    (later : first.a + first.size ≤ position →
      Compatible blocks position (image (first.a + first.size) (first.b + first.size) before position)) :
    Compatible (first :: blocks) position (image first.a first.b before position) := by
  have gaps := (opcodesFrom_script rest).gaps
  rw [parts] at gaps
  obtain ⟨_, _, bounds⟩ := rest.bounds
  by_cases reach : first.a + first.size ≤ position
  · have moved : image first.a first.b before position =
        image (first.a + first.size) (first.b + first.size) before position := by
      cases before with
      | nil =>
        simp only [image]
        omega
      | cons opcode before => rfl
    obtain ⟨above, _⟩ := gaps.le_image position
    rw [moved]
    intro block found
    rcases List.mem_cons.mp found with rfl | found
    · exact .inr (.inl ⟨reach, above⟩)
    · exact later reach block found
  · -- Every change ahead lies behind the block, so none of them is behind the position.
    have none : before = [] := by
      apply List.eq_nil_iff_forall_not_mem.mpr
      intro opcode member
      have ahead := gaps.bounds.2.2 opcode (List.mem_append_left _ member)
      have past := behind opcode member
      omega
    rw [none]
    intro block found
    simp only [image]
    rcases List.mem_cons.mp found with rfl | found
    · omega
    · have inside := bounds block found
      omega

omit [DecidableEq κ] in
theorem compatible_image (aligned : Aligned x y i j x.length y.length blocks)
    (parts : changes (opcodesFrom i j (blocks ++ [sentinel x y])) = before ++ after) (start : i ≤ position)
    (behind : ∀ opcode ∈ before, opcode.i2 ≤ position) (ahead : ∀ opcode ∈ after, position ≤ opcode.i1) :
    Compatible blocks position (image i j before position) := by
  induction blocks generalizing i j before with
  | nil => exact fun block found => nomatch found
  | cons first blocks ih =>
    have inside := aligned.bounds.2.2
    cases aligned with
    | block left right some agrees rest =>
      rw [List.cons_append, changes_cons _ _ left right] at parts
      rcases between_cases left right with ⟨none, rfl, rfl⟩ | ⟨tag, _, one, _⟩
      · rw [none, List.nil_append] at parts
        exact compatible_behind some rest parts start behind fun reach => ih rest parts reach behind
      · rw [one, List.singleton_append] at parts
        cases before with
        | nil =>
          have here := ahead ⟨tag, i, first.a, j, first.b⟩ (by rw [← List.nil_append after, ← parts]; simp)
          intro block found
          have bounds := inside block found
          simp only [image] at here ⊢
          omega
        | cons opcode before =>
          rw [List.cons_append, List.cons.injEq] at parts
          obtain ⟨rfl, parts⟩ := parts
          have reached := behind _ (List.mem_cons_self ..)
          have rest' := fun other member => behind other (List.mem_cons_of_mem _ member)
          exact compatible_behind some rest parts reached rest' fun reach => ih rest parts reach rest'

theorem getOpcodes_tight (parts : changes (getOpcodes x y) = before ++ middle ++ after)
    (changed : middle ≠ []) (order : start ≤ stop) (inside : stop ≤ x.length)
    (behind : ∀ opcode ∈ before, opcode.i2 ≤ start)
    (within : ∀ opcode ∈ middle, start ≤ opcode.i1 ∧ opcode.i2 ≤ stop)
    (ahead : ∀ opcode ∈ after, stop ≤ opcode.i1) :
    slice y (image 0 0 before start) (image 0 0 (before ++ middle) stop) ≠ slice x start stop := by
  intro same
  have tight := matchingBlocks_tight x y x y 0 0 (by simp) (by simp)
  rw [Nat.zero_add, Nat.zero_add] at tight
  have gaps := (getOpcodes_script x y).gaps
  rw [parts, List.append_assoc] at gaps
  have beyond : ∀ opcode ∈ middle ++ after, start ≤ opcode.i1 := by
    intro opcode member
    rcases List.mem_append.mp member with member | member
    · exact (within opcode member).1
    · exact Nat.le_trans order (ahead opcode member)
  have fromStart := gaps.reroot (Nat.zero_le _) (Nat.le_trans order inside) behind beyond
  have moved := image_append (i := 0) (j := 0) before middle behind (Nat.zero_le _) order
  have fromStop := fromStart.reroot order inside (fun opcode member => (within opcode member).2) ahead
  obtain ⟨above, ends⟩ := fromStart.le_image stop
  obtain ⟨starts, _, bounds⟩ := fromStart.bounds
  have final := fromStop.bounds.2.1
  rw [moved] at same
  generalize imageStart : image 0 0 before start = first at *
  generalize imageStop : image start first middle stop = last at *
  -- The stretch and its image agree, so the blocks match every position of it.
  have size : last - first = stop - start := by
    have lengths := congrArg List.length same
    rwa [length_slice final, length_slice inside] at lengths
  have agrees : ∀ index < stop - start, x[start + index]? = y[first + index]? := by
    intro index less
    refine (getElem?_of_slice_eq (stop - start) ?_ less).symm
    rwa [show first + (stop - start) = last by omega, show start + (stop - start) = stop by omega]
  have aligned := tight.aligned.collapse
  have compatStart : Compatible (matchingBlocks x y 0 0) start first := by
    rw [List.append_assoc] at parts
    exact compatible_of_collapse (imageStart ▸ compatible_image aligned parts (Nat.zero_le _) behind beyond)
  have compatStop : Compatible (matchingBlocks x y 0 0) stop last := by
    refine compatible_of_collapse (moved ▸ compatible_image aligned parts (Nat.zero_le _) ?_ ahead)
    intro opcode member
    rcases List.mem_append.mp member with member | member
    · exact Nat.le_trans (behind opcode member) order
    · exact (within opcode member).2
  have matched (index : Nat) (less : index < stop - start) :
      Matched (collapse (matchingBlocks x y 0 0)) (start + index) (first + index) := by
    refine matched_collapse (tight.matched (Nat.zero_le _) (Nat.zero_le _) (by omega) (by omega) agrees compatStart ?_
      index less)
    rwa [show start + (stop - start) = stop by omega, show first + (stop - start) = last by omega]
  obtain ⟨opcode, member⟩ := List.exists_mem_of_ne_nil _ changed
  have free (block : Block) (found : block ∈ collapse (matchingBlocks x y 0 0)) := by
    refine gap_unmatched opcode aligned ?_ block found
    change opcode ∈ changes (getOpcodes x y)
    simp [parts, member]
  have place := within opcode member
  have ended := ends opcode member
  have bounds := bounds opcode (List.mem_append_left _ member)
  -- A change leaves a position of one of the lists without a block.
  rcases bounds.2.2.2.2.2.2 with left | right
  · obtain ⟨block, found, index, less, here, _⟩ := matched (opcode.i1 - start) (by omega)
    have unmatched := (free block found).1
    omega
  · obtain ⟨block, found, index, less, _, here⟩ := matched (opcode.j1 - first) (by omega)
    have unmatched := (free block found).2
    omega

end NovelStudio.Library.SequenceMatcher
