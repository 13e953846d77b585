import NovelStudio.Library.Slice

/-! `difflib.SequenceMatcher` without junk and without its popularity heuristic: the
longest match, the matching blocks around it, and the edit script they leave. -/

namespace NovelStudio.Library.SequenceMatcher

variable {κ : Type*} [DecidableEq κ]

/-- How long two lists agree from their heads. -/
def commonRun : List κ → List κ → Nat
  | x :: xs, y :: ys => if x = y then commonRun xs ys + 1 else 0
  | _, _ => 0

structure Block where
  a : Nat
  b : Nat
  size : Nat
  deriving DecidableEq

/-- The better of the best match so far and the match at a pair of positions. -/
def better (x y : List κ) (best : Block) (candidate : Nat × Nat) : Block :=
  let size := commonRun (x.drop candidate.1) (y.drop candidate.2)
  if best.size < size then ⟨candidate.1, candidate.2, size⟩ else best

def positions (x y : List κ) : List (Nat × Nat) :=
  (List.range x.length).flatMap fun i => (List.range y.length).map fun j => (i, j)

/-- `find_longest_match`: of the longest matches the one that starts earliest in the
first list, and of these the one that starts earliest in the second. -/
def findLongestMatch (x y : List κ) : Block := (positions x y).foldl (better x y) ⟨0, 0, 0⟩

theorem commonRun_agrees (x y : List κ) : commonRun x y ≤ x.length ∧ commonRun x y ≤ y.length ∧
    ∀ index < commonRun x y, x[index]? = y[index]? := by
  induction x generalizing y with
  | nil => simp [commonRun]
  | cons head xs ih =>
    cases y with
    | nil => simp [commonRun]
    | cons other ys =>
      simp only [commonRun]
      split
      · rename_i same
        obtain ⟨left, right, agrees⟩ := ih ys
        refine ⟨by simpa using left, by simpa using right, fun index inside => ?_⟩
        cases index with
        | zero => simp [same]
        | succ index => simpa using agrees index (by omega)
      · simp

theorem le_commonRun {x y : List κ} (left : size ≤ x.length) (right : size ≤ y.length)
    (agrees : ∀ index < size, x[index]? = y[index]?) : size ≤ commonRun x y := by
  induction x generalizing y size with
  | nil =>
    have empty : size = 0 := by simpa using left
    omega
  | cons head xs ih =>
    cases size with
    | zero => exact Nat.zero_le _
    | succ size =>
      cases y with
      | nil => simp at right
      | cons other ys =>
        have same : head = other := by simpa using agrees 0 (by omega)
        rw [commonRun, if_pos same]
        have rest := ih (y := ys) (by simpa using left) (by simpa using right) fun index inside => by
          simpa using agrees (index + 1) (by omega)
        omega

/-- A block of two lists that agree along it. -/
structure Block.Matches (block : Block) (x y : List κ) : Prop where
  left : block.a + block.size ≤ x.length
  right : block.b + block.size ≤ y.length
  agrees : ∀ index < block.size, x[block.a + index]? = y[block.b + index]?

theorem matches_commonRun (x y : List κ) {i j : Nat} (left : i ≤ x.length) (right : j ≤ y.length) :
    (Block.mk i j (commonRun (x.drop i) (y.drop j))).Matches x y := by
  obtain ⟨first, second, agrees⟩ := commonRun_agrees (x.drop i) (y.drop j)
  rw [List.length_drop] at first second
  refine ⟨by simp only; omega, by simp only; omega, fun index inside => ?_⟩
  simpa using agrees index inside

theorem foldl_better (x y : List κ) {candidates : List (Nat × Nat)} {best : Block}
    (inside : ∀ candidate ∈ candidates, candidate.1 ≤ x.length ∧ candidate.2 ≤ y.length) (valid : best.Matches x y) :
    (candidates.foldl (better x y) best).Matches x y ∧ best.size ≤ (candidates.foldl (better x y) best).size ∧
      ∀ candidate ∈ candidates, commonRun (x.drop candidate.1) (y.drop candidate.2) ≤
        (candidates.foldl (better x y) best).size := by
  induction candidates generalizing best with
  | nil => exact ⟨valid, Nat.le_refl _, by simp⟩
  | cons candidate rest ih =>
    obtain ⟨left, right⟩ := inside _ (List.mem_cons_self ..)
    have later : ∀ candidate ∈ rest, candidate.1 ≤ x.length ∧ candidate.2 ≤ y.length :=
      fun candidate member => inside candidate (List.mem_cons_of_mem _ member)
    have step : (better x y best candidate).Matches x y ∧ best.size ≤ (better x y best candidate).size ∧
        commonRun (x.drop candidate.1) (y.drop candidate.2) ≤ (better x y best candidate).size := by
      simp only [better]
      split
      · exact ⟨matches_commonRun x y left right, by simp only; omega, Nat.le_refl _⟩
      · exact ⟨valid, Nat.le_refl _, by omega⟩
    obtain ⟨final, above, all⟩ := ih later step.1
    simp only [List.foldl_cons, List.mem_cons, forall_eq_or_imp]
    exact ⟨final, by omega, by omega, all⟩

theorem findLongestMatch_spec (x y : List κ) : (findLongestMatch x y).Matches x y ∧
    ∀ block : Block, block.Matches x y → block.size ≤ (findLongestMatch x y).size := by
  have inside : ∀ candidate ∈ positions x y, candidate.1 ≤ x.length ∧ candidate.2 ≤ y.length := by
    intro candidate member
    simp only [positions, List.mem_flatMap, List.mem_range, List.mem_map] at member
    obtain ⟨i, left, j, right, rfl⟩ := member
    exact ⟨by simp only; omega, by simp only; omega⟩
  obtain ⟨valid, _, all⟩ := foldl_better x y inside (⟨by simp, by simp, by simp⟩ : (Block.mk 0 0 0).Matches x y)
  refine ⟨valid, fun block other => ?_⟩
  by_cases empty : block.size = 0
  · omega
  have left := other.left
  have right := other.right
  have candidate : (block.a, block.b) ∈ positions x y := by
    simp only [positions, List.mem_flatMap, List.mem_range, List.mem_map, Prod.mk.injEq]
    exact ⟨block.a, by omega, block.b, by omega, rfl, rfl⟩
  refine Nat.le_trans (le_commonRun ?_ ?_ fun index inside => ?_) (all _ candidate)
  · rw [List.length_drop]
    omega
  · rw [List.length_drop]
    omega
  · simpa using other.agrees index inside

/-- `get_matching_blocks` before its final touch: the longest match of a region, and
the blocks of the regions before and after it, in order. -/
def matchingBlocks (x y : List κ) (i j : Nat) : List Block :=
  let block := findLongestMatch x y
  if _found : 0 < (findLongestMatch x y).size then
    matchingBlocks (x.take block.a) (y.take block.b) i j ++ ⟨i + block.a, j + block.b, block.size⟩ ::
      matchingBlocks (x.drop (block.a + block.size)) (y.drop (block.b + block.size))
        (i + block.a + block.size) (j + block.b + block.size)
  else []
termination_by x.length
decreasing_by
  all_goals
    have valid := (findLongestMatch_spec x y).1.left
    simp only [List.length_take, List.length_drop]
    omega

/-- Adjacent blocks are collapsed into one. -/
def collapse : List Block → List Block
  | first :: second :: rest =>
    if first.a + first.size = second.a ∧ first.b + first.size = second.b then
      collapse (⟨first.a, first.b, first.size + second.size⟩ :: rest)
    else first :: collapse (second :: rest)
  | blocks => blocks
termination_by blocks => blocks.length

inductive Tag where
  | equal | replace | delete | insert
  deriving DecidableEq

/-- `a[i1:i2]` becomes `b[j1:j2]`. -/
structure Opcode where
  tag : Tag
  i1 : Nat
  i2 : Nat
  j1 : Nat
  j2 : Nat
  deriving DecidableEq

/-- The loop of `get_opcodes`: what stands between two blocks is changed. -/
def opcodesFrom (i j : Nat) : List Block → List Opcode
  | [] => []
  | block :: rest =>
    let change :=
      if i < block.a ∧ j < block.b then [⟨.replace, i, block.a, j, block.b⟩]
      else if i < block.a then [⟨.delete, i, block.a, j, block.b⟩]
      else if j < block.b then [⟨.insert, i, block.a, j, block.b⟩]
      else []
    let equal := if block.size = 0 then [] else
      [⟨Tag.equal, block.a, block.a + block.size, block.b, block.b + block.size⟩]
    change ++ equal ++ opcodesFrom (block.a + block.size) (block.b + block.size) rest

/-- `get_opcodes`; the last block is the empty one at both ends. -/
def getOpcodes (x y : List κ) : List Opcode :=
  opcodesFrom 0 0 (collapse (matchingBlocks x y 0 0) ++ [⟨x.length, y.length, 0⟩])

end NovelStudio.Library.SequenceMatcher

/-! Edit scripts: what it means that a list of opcodes turns one list into another, that
`get_opcodes` returns such a list, and that it never changes a stretch into itself. -/

namespace NovelStudio.Library.SequenceMatcher

variable {κ : Type*} [DecidableEq κ]

/-- From the two positions on, the opcodes cover both lists in order. -/
inductive Script (x y : List κ) : Nat → Nat → List Opcode → Prop where
  | done : Script x y x.length y.length []
  | equal (some : 0 < size) (left : i + size ≤ x.length) (right : j + size ≤ y.length)
      (agrees : ∀ index < size, x[i + index]? = y[j + index]?) (rest : Script x y (i + size) (j + size) opcodes) :
      Script x y i j (⟨.equal, i, i + size, j, j + size⟩ :: opcodes)
  | change (changed : tag ≠ .equal) (left : i ≤ i2) (right : j ≤ j2) (some : i < i2 ∨ j < j2)
      (rest : Script x y i2 j2 opcodes) : Script x y i j (⟨tag, i, i2, j, j2⟩ :: opcodes)

/-- A valid ordered edit script from one list to the other. -/
def IsEditScript (x y : List κ) (opcodes : List Opcode) : Prop := Script x y 0 0 opcodes

def changes (opcodes : List Opcode) : List Opcode := opcodes.filter fun opcode => opcode.tag ≠ .equal

/-- The changes of an edit script: between two of them the lists agree. -/
inductive Gaps (x y : List κ) : Nat → Nat → List Opcode → Prop where
  | done (left : i ≤ x.length) (right : j ≤ y.length) (ends : x.length + j = y.length + i)
      (agrees : ∀ index < x.length - i, x[i + index]? = y[j + index]?) : Gaps x y i j []
  | change (before : i ≤ opcode.i1) (diagonal : opcode.i1 + j = opcode.j1 + i)
      (agrees : ∀ index < opcode.i1 - i, x[i + index]? = y[j + index]?)
      (left : opcode.i1 ≤ opcode.i2) (right : opcode.j1 ≤ opcode.j2)
      (some : opcode.i1 < opcode.i2 ∨ opcode.j1 < opcode.j2) (rest : Gaps x y opcode.i2 opcode.j2 opcodes) :
      Gaps x y i j (opcode :: opcodes)

variable {x y : List κ}

omit [DecidableEq κ] in
theorem Gaps.extend (gaps : Gaps x y (i + size) (j + size) opcodes)
    (agrees : ∀ index < size, x[i + index]? = y[j + index]?) : Gaps x y i j opcodes := by
  have reach (bound : Nat) (later : ∀ index < bound - (i + size), x[i + size + index]? = y[j + size + index]?) :
      ∀ index < bound - i, x[i + index]? = y[j + index]? := by
    intro index inside
    by_cases early : index < size
    · exact agrees index early
    · have shifted := later (index - size) (by omega)
      rwa [show i + size + (index - size) = i + index by omega,
        show j + size + (index - size) = j + index by omega] at shifted
  cases gaps with
  | done left right ends later => exact .done (by omega) (by omega) (by omega) (reach _ later)
  | change before diagonal later left right some rest =>
    exact .change (by omega) (by omega) (reach _ later) left right some rest

omit [DecidableEq κ] in
theorem Script.gaps (script : Script x y i j opcodes) : Gaps x y i j (changes opcodes) := by
  induction script with
  | done => exact .done (Nat.le_refl _) (Nat.le_refl _) (by omega) (by simp)
  | equal some left right agrees rest ih => exact Gaps.extend (by simpa [changes] using ih) agrees
  | @change tag i i2 j j2 opcodes changed left right some rest ih =>
    have kept : changes (⟨tag, i, i2, j, j2⟩ :: opcodes) = ⟨tag, i, i2, j, j2⟩ :: changes opcodes := by
      simp [changes, changed]
    rw [kept]
    exact .change (Nat.le_refl _) (by simp only; omega) (by simp) left right some ih

omit [DecidableEq κ] in
theorem Gaps.bounds (gaps : Gaps x y i j opcodes) :
    i ≤ x.length ∧ j ≤ y.length ∧ ∀ opcode ∈ opcodes, i ≤ opcode.i1 ∧ opcode.i1 ≤ opcode.i2 ∧ opcode.i2 ≤ x.length ∧
      j ≤ opcode.j1 ∧ opcode.j1 ≤ opcode.j2 ∧ opcode.j2 ≤ y.length ∧
      (opcode.i1 < opcode.i2 ∨ opcode.j1 < opcode.j2) := by
  induction gaps with
  | done left right ends agrees => exact ⟨left, right, by simp⟩
  | change before diagonal agrees left right some rest ih =>
    obtain ⟨leftEnd, rightEnd, later⟩ := ih
    refine ⟨by omega, by omega, fun opcode member => ?_⟩
    rcases List.mem_cons.mp member with rfl | member
    · exact ⟨by omega, left, leftEnd, by omega, right, rightEnd, some⟩
    · have bounds := later opcode member
      omega

omit [DecidableEq κ] in
theorem Gaps.pairwise (gaps : Gaps x y i j opcodes) :
    opcodes.Pairwise fun earlier later => earlier.i2 ≤ later.i1 := by
  induction gaps with
  | done left right ends agrees => exact .nil
  | change before diagonal agrees left right some rest ih =>
    exact List.pairwise_cons.mpr ⟨fun opcode member => (rest.bounds.2.2 opcode member).1, ih⟩

omit [DecidableEq κ] in
theorem Gaps.agree (gaps : Gaps x y i j opcodes) (start : i ≤ stop) (inside : stop ≤ x.length)
    (ahead : ∀ opcode ∈ opcodes, stop ≤ opcode.i1) : slice x i stop = slice y j (j + (stop - i)) := by
  have agrees : ∀ index < stop - i, x[i + index]? = y[j + index]? := by
    cases gaps with
    | done left right ends agrees => exact fun index less => agrees index (by omega)
    | change before diagonal agrees left right some rest =>
      have first := ahead _ (List.mem_cons_self ..)
      exact fun index less => agrees index (by omega)
  rw [show stop = i + (stop - i) by omega, Nat.add_sub_cancel_left]
  exact slice_ext i j (stop - i) agrees

/-- Where a position of the first list stands in the second, behind the given changes. -/
def image (i j : Nat) (before : List Opcode) (position : Nat) : Nat :=
  match before with
  | [] => j + (position - i)
  | opcode :: rest => image opcode.i2 opcode.j2 rest position

omit [DecidableEq κ] in
theorem Gaps.reroot (gaps : Gaps x y i j (before ++ after)) (start : i ≤ position)
    (inside : position ≤ x.length) (behind : ∀ opcode ∈ before, opcode.i2 ≤ position)
    (ahead : ∀ opcode ∈ after, position ≤ opcode.i1) : Gaps x y position (image i j before position) after := by
  induction before generalizing i j with
  | nil =>
    have moved (bound : Nat) (agrees : ∀ index < bound - i, x[i + index]? = y[j + index]?) :
        ∀ index < bound - position, x[position + index]? = y[j + (position - i) + index]? := by
      intro index less
      have shifted := agrees (position - i + index) (by omega)
      rwa [show i + (position - i + index) = position + index by omega, ← Nat.add_assoc] at shifted
    simp only [image]
    cases gaps with
    | done left right ends agrees => exact .done inside (by omega) (by omega) (moved _ agrees)
    | change first diagonal agrees left right some rest =>
      have next := ahead _ (List.mem_cons_self ..)
      exact .change next (by omega) (moved _ agrees) left right some rest
  | cons opcode before ih =>
    cases gaps with
    | change first diagonal agrees left right some rest =>
      exact ih rest (behind opcode (List.mem_cons_self ..)) fun other member =>
        behind other (List.mem_cons_of_mem _ member)

omit [DecidableEq κ] in
theorem Gaps.le_image (gaps : Gaps x y i j (before ++ after)) (position : Nat) :
    j ≤ image i j before position ∧ ∀ opcode ∈ before, opcode.j2 ≤ image i j before position := by
  induction before generalizing i j with
  | nil => simp [image]
  | cons opcode before ih =>
    cases gaps with
    | change first diagonal agrees left right some rest =>
      obtain ⟨above, later⟩ := ih rest
      refine ⟨by simp only [image]; omega, fun other member => ?_⟩
      rcases List.mem_cons.mp member with rfl | member
      · exact above
      · exact later other member

omit [DecidableEq κ] in
theorem image_append (before between : List Opcode) (start : ∀ opcode ∈ before, opcode.i2 ≤ position)
    (first : i ≤ position) (later : position ≤ final) :
    image i j (before ++ between) final = image position (image i j before position) between final := by
  induction before generalizing i j with
  | nil =>
    cases between with
    | nil =>
      simp only [image, List.append_nil]
      omega
    | cons opcode rest => rfl
  | cons opcode before ih =>
    exact ih (fun other member => start other (List.mem_cons_of_mem _ member)) (start opcode (List.mem_cons_self ..))

end NovelStudio.Library.SequenceMatcher

/-! The matching blocks around the longest match: they are in order, and they match
every stretch on which the lists agree between two positions they align. -/

namespace NovelStudio.Library.SequenceMatcher

variable {κ : Type*} [DecidableEq κ]

/-- Blocks in order within a region of both lists. -/
inductive Aligned (x y : List κ) : Nat → Nat → Nat → Nat → List Block → Prop where
  | done (left : i ≤ m) (right : j ≤ n) : Aligned x y i j m n []
  | block (left : i ≤ first.a) (right : j ≤ first.b) (some : 0 < first.size)
      (agrees : ∀ index < first.size, x[first.a + index]? = y[first.b + index]?)
      (rest : Aligned x y (first.a + first.size) (first.b + first.size) m n blocks) :
      Aligned x y i j m n (first :: blocks)

omit [DecidableEq κ] in
theorem Aligned.bounds {x y : List κ} (aligned : Aligned x y i j m n blocks) :
    i ≤ m ∧ j ≤ n ∧ ∀ block ∈ blocks, i ≤ block.a ∧ block.a + block.size ≤ m ∧ j ≤ block.b ∧
      block.b + block.size ≤ n ∧ 0 < block.size := by
  induction aligned with
  | done left right => exact ⟨left, right, by simp⟩
  | block left right some agrees rest ih =>
    obtain ⟨endLeft, endRight, later⟩ := ih
    refine ⟨by omega, by omega, fun block member => ?_⟩
    rcases List.mem_cons.mp member with rfl | member
    · omega
    · have bounds := later block member
      omega

omit [DecidableEq κ] in
theorem Aligned.append {x y : List κ} {block : Block} (before : Aligned x y i j block.a block.b blocks)
    (some : 0 < block.size) (agrees : ∀ index < block.size, x[block.a + index]? = y[block.b + index]?)
    (after : Aligned x y (block.a + block.size) (block.b + block.size) m n rest) :
    Aligned x y i j m n (blocks ++ block :: rest) := by
  generalize endLeft : block.a = p at before
  generalize endRight : block.b = q at before
  induction before with
  | done left right => exact .block (by omega) (by omega) some agrees after
  | block left right some' agrees' _ ih => exact .block left right some' agrees' (ih endLeft endRight)

/-- The blocks do not cross the alignment of two positions: each lies after both,
before both, or on their diagonal. -/
def Compatible (blocks : List Block) (s t : Nat) : Prop :=
  ∀ block ∈ blocks, (s ≤ block.a ∧ t ≤ block.b) ∨ (block.a + block.size ≤ s ∧ block.b + block.size ≤ t) ∨
    (block.a ≤ s ∧ s ≤ block.a + block.size ∧ s + block.b = t + block.a)

/-- Two positions are matched by a block. -/
def Matched (blocks : List Block) (s t : Nat) : Prop :=
  ∃ block ∈ blocks, ∃ index < block.size, s = block.a + index ∧ t = block.b + index

omit [DecidableEq κ] in
theorem Compatible.subset {blocks fewer : List Block} (compatible : Compatible blocks s t)
    (subset : ∀ block ∈ fewer, block ∈ blocks) : Compatible fewer s t :=
  fun block member => compatible block (subset block member)

omit [DecidableEq κ] in
theorem Matched.superset {blocks more : List Block} (matched : Matched blocks s t)
    (subset : ∀ block ∈ blocks, block ∈ more) : Matched more s t := by
  obtain ⟨block, member, rest⟩ := matched
  exact ⟨block, subset block member, rest⟩

omit [DecidableEq κ] in
/-- The step of the recursion: where the longest block of a region does not already
match an agreeing stretch, the stretch lies wholly before it or wholly after it. -/
theorem longest_cases {x y : List κ} (block : Block) {s t size : Nat}
    (agrees : ∀ index < block.size, x[block.a + index]? = y[block.b + index]?)
    (longest : ∀ a b length : Nat, i ≤ a → j ≤ b → a + length ≤ m → b + length ≤ n →
      (∀ index < length, x[a + index]? = y[b + index]?) → length ≤ block.size)
    (region : i ≤ block.a ∧ j ≤ block.b ∧ block.a + block.size ≤ m ∧ block.b + block.size ≤ n)
    (inside : i ≤ s ∧ j ≤ t ∧ s + size ≤ m ∧ t + size ≤ n)
    (same : ∀ index < size, x[s + index]? = y[t + index]?) (start : Compatible [block] s t)
    (stop : Compatible [block] (s + size) (t + size)) :
    (∀ index < size, Matched [block] (s + index) (t + index)) ∨
    (s + size ≤ block.a ∧ t + size ≤ block.b) ∨ (block.a + block.size ≤ s ∧ block.b + block.size ≤ t) := by
  have covered (low : block.a ≤ s) (high : s + size ≤ block.a + block.size) (diagonal : s + block.b = t + block.a) :
      ∀ index < size, Matched [block] (s + index) (t + index) := by
    intro index less
    exact ⟨block, List.mem_singleton_self _, s + index - block.a, by omega, by omega, by omega⟩
  have first := start block (List.mem_singleton_self _)
  have last := stop block (List.mem_singleton_self _)
  rcases last with before | last
  · exact .inr (.inl before)
  rcases first with first | after | ⟨low, within, diagonal⟩
  · rcases last with ⟨left, right⟩ | ⟨low, high, diagonal⟩
    · -- The block lies inside the stretch, which is no longer than it.
      have bound := longest s t size inside.1 inside.2.1 inside.2.2.1 inside.2.2.2 same
      exact .inl (covered (by omega) (by omega) (by omega))
    · -- The block ends inside the stretch; it starts where the stretch does, or it could start earlier.
      by_cases starts : s = block.a
      · exact .inl (covered (by omega) (by omega) (by omega))
      exfalso
      have longer := longest (block.a - 1) (block.b - 1) (block.size + 1) (by omega) (by omega)
        (by omega) (by omega) fun index less => by
          cases index with
          | zero =>
            have earlier := same (block.a - 1 - s) (by omega)
            rwa [show s + (block.a - 1 - s) = block.a - 1 + 0 by omega,
              show t + (block.a - 1 - s) = block.b - 1 + 0 by omega] at earlier
          | succ index =>
            have along := agrees index (by omega)
            rwa [show block.a + index = block.a - 1 + (index + 1) by omega,
              show block.b + index = block.b - 1 + (index + 1) by omega] at along
      omega
  · exact .inr (.inr after)
  · -- The block starts before the stretch; it reaches the end of it, or it could reach further.
    by_cases reaches : s + size ≤ block.a + block.size
    · exact .inl (covered low reaches diagonal)
    exfalso
    have longer := longest block.a block.b (block.size + 1) (by omega) (by omega)
      (by omega) (by omega) fun index less => by
        by_cases old : index < block.size
        · exact agrees index old
        · have further := same (block.a + block.size - s) (by omega)
          rwa [show s + (block.a + block.size - s) = block.a + index by omega,
            show t + (block.a + block.size - s) = block.b + index by omega] at further
    omega

/-- What the blocks of a region have: their order, and that they match every agreeing
stretch between two positions they align. -/
structure Tight (x y : List κ) (i j m n : Nat) (blocks : List Block) : Prop where
  aligned : Aligned x y i j m n blocks
  matched : ∀ {s t size}, i ≤ s → j ≤ t → s + size ≤ m → t + size ≤ n →
    (∀ index < size, x[s + index]? = y[t + index]?) → Compatible blocks s t →
    Compatible blocks (s + size) (t + size) → ∀ index < size, Matched blocks (s + index) (t + index)

theorem matchingBlocks_tight (whole other x y : List κ) (i j : Nat)
    (left : ∀ index < x.length, x[index]? = whole[i + index]?)
    (right : ∀ index < y.length, y[index]? = other[j + index]?) :
    Tight whole other i j (i + x.length) (j + y.length) (matchingBlocks x y i j) := by
  induction x, y, i, j using matchingBlocks.induct with
  | case1 x y i j block found before after =>
    have unfolded : matchingBlocks x y i j = matchingBlocks (x.take block.a) (y.take block.b) i j ++
        ⟨i + block.a, j + block.b, block.size⟩ :: matchingBlocks (x.drop (block.a + block.size))
          (y.drop (block.b + block.size)) (i + block.a + block.size) (j + block.b + block.size) := by
      rw [matchingBlocks, dif_pos found]
    have spec : block.Matches x y ∧ ∀ other : Block, other.Matches x y → other.size ≤ block.size :=
      findLongestMatch_spec x y
    have some : 0 < block.size := found
    clear_value block
    obtain ⟨matching, longest⟩ := spec
    have endLeft := matching.left
    have endRight := matching.right
    have both {a b length : Nat} (first : a + length ≤ x.length) (second : b + length ≤ y.length) :
        (∀ index < length, x[a + index]? = y[b + index]?) ↔
          ∀ index < length, whole[i + a + index]? = other[j + b + index]? := by
      refine forall_congr' fun index => forall_congr' fun less => ?_
      rw [left (a + index) (by omega), right (b + index) (by omega), Nat.add_assoc, Nat.add_assoc]
    have beforeTight := before (fun index less => by
        rw [List.length_take] at less
        rw [List.getElem?_take_of_lt (Nat.lt_of_lt_of_le less (Nat.min_le_left ..))]
        exact left index (by omega)) fun index less => by
        rw [List.length_take] at less
        rw [List.getElem?_take_of_lt (Nat.lt_of_lt_of_le less (Nat.min_le_left ..))]
        exact right index (by omega)
    have afterTight := after (fun index less => by
        rw [List.length_drop] at less
        rw [List.getElem?_drop, left _ (by omega)]
        congr 1
        omega) fun index less => by
        rw [List.length_drop] at less
        rw [List.getElem?_drop, right _ (by omega)]
        congr 1
        omega
    rw [List.length_take_of_le (by omega), List.length_take_of_le (by omega)] at beforeTight
    rw [List.length_drop, List.length_drop, show i + block.a + block.size + (x.length - (block.a + block.size)) = i + x.length by omega,
      show j + block.b + block.size + (y.length - (block.b + block.size)) = j + y.length by omega] at afterTight
    have along := (both endLeft endRight).mp matching.agrees
    rw [unfolded]
    refine ⟨Aligned.append beforeTight.aligned some along afterTight.aligned,
      fun {s t size} start start' stop stop' same first last => ?_⟩
    have region : i ≤ i + block.a ∧ j ≤ j + block.b ∧ i + block.a + block.size ≤ i + x.length ∧
        j + block.b + block.size ≤ j + y.length := by omega
    have maximal (a b length : Nat) (low : i ≤ a) (low' : j ≤ b) (high : a + length ≤ i + x.length)
        (high' : b + length ≤ j + y.length) (same : ∀ index < length, whole[a + index]? = other[b + index]?) :
        length ≤ block.size := by
      have left : a - i + length ≤ x.length := by omega
      have right : b - j + length ≤ y.length := by omega
      refine longest ⟨a - i, b - j, length⟩ ⟨left, right, ?_⟩
      rw [both (by omega) (by omega), show i + (a - i) = a by omega, show j + (b - j) = b by omega]
      exact same
    let moved : Block := ⟨i + block.a, j + block.b, block.size⟩
    have single (other : Block) (member : other ∈ [moved]) : other ∈ matchingBlocks (x.take block.a) (y.take block.b) i j ++
        moved :: matchingBlocks (x.drop (block.a + block.size)) (y.drop (block.b + block.size))
          (i + block.a + block.size) (j + block.b + block.size) := by
      rw [List.mem_singleton] at member
      simp [member]
    have cases := longest_cases moved along maximal region ⟨start, start', stop, stop'⟩ same
      (first.subset single) (last.subset single)
    rcases cases with here | ⟨low, low'⟩ | ⟨high, high'⟩
    · exact fun index less => (here index less).superset single
    · intro index less
      refine (beforeTight.matched start start' low low' same (first.subset ?_) (last.subset ?_) index less).superset ?_
      all_goals exact fun other member => List.mem_append_left _ member
    · intro index less
      refine (afterTight.matched high high' stop stop' same (first.subset ?_) (last.subset ?_) index less).superset ?_
      all_goals exact fun other member => List.mem_append_right _ (List.mem_cons_of_mem _ member)
  | case2 x y i j found =>
    obtain ⟨matching, longest⟩ := findLongestMatch_spec x y
    rw [matchingBlocks, dif_neg found]
    refine ⟨.done (by omega) (by omega), fun {s t size} start start' stop stop' same _ _ index less => ?_⟩
    have none : size ≤ (findLongestMatch x y).size := by
      refine longest ⟨s - i, t - j, size⟩ ⟨by simp only; omega, by simp only; omega, fun index less => ?_⟩
      simp only at less ⊢
      rw [left _ (by omega), right _ (by omega), show i + (s - i + index) = s + index by omega, show j + (t - j + index) = t + index by omega]
      exact same index less
    omega

end NovelStudio.Library.SequenceMatcher
