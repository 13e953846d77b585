import Mathlib.Data.List.Basic

/-! Lines of a stream that arrives in chunks: what a bounded read returns, and how the
frames of a reader that reads on with a bound relate to the lines of the stream. -/

namespace NovelStudio.Library

universe u
variable {α : Type u} (ends : α → Bool)

/-- The lines of a stream, each with its end; the last one may lack it. -/
def lines : List α → List (List α)
  | [] => []
  | item :: rest =>
    if ends item then [item] :: lines rest
    else
      match lines rest with
      | [] => [[item]]
      | line :: more => (item :: line) :: more

/-- What a read of at most so many items takes, and what it leaves. -/
def takeLine : Nat → List α → List α × List α
  | 0, rest => ([], rest)
  | _ + 1, [] => ([], [])
  | room + 1, item :: rest =>
    if ends item then ([item], rest)
    else
      let (taken, left) := takeLine room rest
      (item :: taken, left)

/-- The frames of a stream that is read with a bound, where so much of the first is still free. -/
def framesFrom (limit : Nat) : Nat → List α → List (List α)
  | _, [] => []
  | room, item :: rest =>
    if ends item || room ≤ 1 then [item] :: framesFrom limit limit rest
    else
      match framesFrom limit (room - 1) rest with
      | [] => [[item]]
      | frame :: more => (item :: frame) :: more

/-- The frames that reads with a bound return of a stream. -/
def frames (limit : Nat) (stream : List α) : List (List α) := framesFrom ends limit limit stream

variable {ends}

theorem takeLine_append (room : Nat) (stream : List α) : (takeLine ends room stream).1 ++ (takeLine ends room stream).2 = stream := by
  induction room generalizing stream with
  | zero => rfl
  | succ room ih =>
    cases stream with
    | nil => rfl
    | cons item rest =>
      by_cases ended : ends item <;> simp [takeLine, ended, ih]

theorem takeLine_nil_iff {room : Nat} (free : 0 < room) {stream : List α} : (takeLine ends room stream).1 = [] ↔ stream = [] := by
  obtain ⟨room, rfl⟩ := Nat.exists_eq_add_of_lt free
  cases stream with
  | nil => simp [takeLine]
  | cons item rest =>
    rw [Nat.zero_add, takeLine]
    split <;> simp

theorem framesFrom_cons {limit room : Nat} (free : 0 < room) {stream : List α} (more : stream ≠ []) :
    framesFrom ends limit room stream =
      (takeLine ends room stream).1 :: framesFrom ends limit limit (takeLine ends room stream).2 := by
  induction stream generalizing room with
  | nil => exact (more rfl).elim
  | cons item rest ih =>
    obtain ⟨room, rfl⟩ := Nat.exists_eq_add_of_lt free
    rw [Nat.zero_add] at *
    rw [framesFrom, takeLine]
    by_cases ended : ends item
    · simp [ended]
    · cases room with
      | zero => simp [ended, takeLine]
      | succ room =>
        cases rest with
        | nil => simp [ended, takeLine, framesFrom]
        | cons next rest =>
          have later := @ih (room + 1) (by omega) (by simp)
          simp [ended, later]

/-- A stream that is being read: what is buffered, and the chunks that are still to come. -/
structure Source (α : Type u) where
  buffer : List α
  chunks : List (List α)

namespace Source

def rest (source : Source α) : List α := source.buffer ++ source.chunks.flatten

/-- `stream.readline(room)`: chunks are awaited until a line ends, the room is used up or
no more come. -/
def readLine (ends : α → Bool) (room : Nat) (buffer : List α) : List (List α) → List α × Source α
  | [] =>
    let read := takeLine ends room buffer
    (read.1, ⟨read.2, []⟩)
  | chunk :: chunks =>
    let read := takeLine ends room buffer
    if read.1.length = room || read.1.getLast?.any ends then (read.1, ⟨read.2, chunk :: chunks⟩)
    else
      let later := readLine ends (room - read.1.length) chunk chunks
      (read.1 ++ later.1, later.2)

theorem takeLine_append_of_full {room : Nat} {buffer : List α}
    (full : (takeLine ends room buffer).1.length = room ∨ (takeLine ends room buffer).1.getLast?.any ends = true) (later : List α) :
    takeLine ends room (buffer ++ later) = ((takeLine ends room buffer).1, (takeLine ends room buffer).2 ++ later) := by
  induction room generalizing buffer with
  | zero => simp [takeLine]
  | succ room ih =>
    cases buffer with
    | nil => simp [takeLine] at full
    | cons item rest =>
      by_cases ended : ends item
      · simp [takeLine, ended]
      · simp only [takeLine, ended, List.cons_append] at full ⊢
        have inner := @ih rest ?_
        · simp [inner]
        · rcases full with full | full
          · exact .inl (by simpa using full)
          · cases taken : (takeLine ends room rest).1 with
            | nil => simp [taken, ended] at full
            | cons first more => exact .inr (by simpa [taken] using full)

theorem takeLine_append_of_open {room : Nat} {buffer : List α} (short : (takeLine ends room buffer).1.length ≠ room)
    (unended : ¬ (takeLine ends room buffer).1.getLast?.any ends = true) (later : List α) :
    (takeLine ends room buffer).1 = buffer ∧
      takeLine ends room (buffer ++ later) =
        (buffer ++ (takeLine ends (room - buffer.length) later).1, (takeLine ends (room - buffer.length) later).2) := by
  induction room generalizing buffer with
  | zero => simp [takeLine] at short
  | succ room ih =>
    cases buffer with
    | nil => simp [takeLine]
    | cons item rest =>
      by_cases ended : ends item
      · simp [takeLine, ended] at unended
      · simp only [takeLine, ended] at short unended
        obtain ⟨taken, whole⟩ := @ih rest (by simpa using short) (fun full => unended (by
          cases taken : (takeLine ends room rest).1 with
          | nil => simp [taken] at full
          | cons first more => simpa [taken] using full))
        simp [takeLine, ended, taken, whole]

theorem readLine_eq (room : Nat) (buffer : List α) (chunks : List (List α)) :
    takeLine ends room (buffer ++ chunks.flatten) =
      ((readLine ends room buffer chunks).1, (readLine ends room buffer chunks).2.rest) := by
  induction chunks generalizing room buffer with
  | nil => simp [readLine, rest]
  | cons chunk chunks ih =>
    simp only [readLine]
    by_cases full : (takeLine ends room buffer).1.length = room ∨ (takeLine ends room buffer).1.getLast?.any ends = true
    · rw [if_pos (by simpa using full), takeLine_append_of_full full]
      simp [rest]
    · obtain ⟨short, unended⟩ := not_or.mp full
      obtain ⟨taken, whole⟩ := takeLine_append_of_open short unended (chunk ++ chunks.flatten)
      rw [if_neg (by simpa using full), List.flatten_cons, whole, ih, taken]

end Source

variable {stream : List α}

theorem lines_eq_nil_iff : lines ends stream = [] ↔ stream = [] := by
  cases stream with
  | nil => simp [lines]
  | cons item rest =>
    rw [lines]
    split
    · simp
    · split <;> simp

/-- A line: nothing but its last item ends it. -/
def IsLine (ends : α → Bool) (line : List α) : Prop := line ≠ [] ∧ ∀ item ∈ line.dropLast, ends item = false

theorem isLine_of_mem_lines : ∀ line ∈ lines ends stream, IsLine ends line := by
  induction stream with
  | nil => simp [lines]
  | cons item rest ih =>
    rw [lines]
    split
    · intro line member
      rcases List.mem_cons.mp member with rfl | member
      · exact ⟨by simp, by simp⟩
      · exact ih line member
    · rename_i unended
      split
      · intro line member
        cases List.mem_singleton.mp member
        exact ⟨by simp, by simp⟩
      · rename_i first more split
        intro line member
        rcases List.mem_cons.mp member with rfl | member
        · obtain ⟨some, inner⟩ := ih first (split ▸ List.mem_cons_self ..)
          refine ⟨by simp, fun other inside => ?_⟩
          rw [List.dropLast_cons_of_ne_nil some] at inside
          rcases List.mem_cons.mp inside with rfl | inside
          · simpa using unended
          · exact inner other inside
        · exact ih line (split ▸ List.mem_cons_of_mem _ member)

variable {line : List α}

theorem lines_of_isLine (whole : IsLine ends line) : lines ends line = [line] := by
  obtain ⟨some, inner⟩ := whole
  induction line with
  | nil => exact (some rfl).elim
  | cons item rest ih =>
    cases rest with
    | nil => by_cases ended : ends item <;> simp [lines, ended]
    | cons next rest =>
      have plain : ends item = false := inner item (by simp)
      have later := ih (by simp) fun other inside => inner other (by simpa using .inr inside)
      rw [lines, later]
      simp [plain]

theorem flatten_framesFrom (limit room : Nat) (stream : List α) : (framesFrom ends limit room stream).flatten = stream := by
  induction stream generalizing room with
  | nil => rfl
  | cons item rest ih =>
    rw [framesFrom]
    split
    · simp [ih]
    · have inner := ih (room - 1)
      split
      · rename_i none
        rw [none] at inner
        simp [← inner]
      · rename_i frame more split
        rw [split] at inner
        simpa using inner

theorem ne_nil_of_mem_framesFrom {limit room : Nat} : ∀ frame ∈ framesFrom ends limit room stream, frame ≠ [] := by
  induction stream generalizing room with
  | nil => simp [framesFrom]
  | cons item rest ih =>
    rw [framesFrom]
    split
    · intro frame member
      rcases List.mem_cons.mp member with rfl | member
      · simp
      · exact ih frame member
    · have inner := @ih (room - 1)
      split
      · simp
      · rename_i first more split
        intro frame member
        rcases List.mem_cons.mp member with rfl | member
        · simp
        · exact inner frame (split ▸ List.mem_cons_of_mem _ member)

theorem frames_eq (limit : Nat) (stream : List α) : frames ends limit stream = (lines ends stream).flatMap (frames ends limit) := by
  have general : ∀ (stream : List α) (room : Nat), framesFrom ends limit room stream =
      match lines ends stream with
      | [] => []
      | line :: others => framesFrom ends limit room line ++ others.flatMap (frames ends limit) := by
    intro stream
    induction stream with
    | nil => simp [lines, framesFrom]
    | cons item rest ih =>
      intro room
      have whole : ∀ room, framesFrom ends limit room rest = match lines ends rest with
          | [] => []
          | line :: others => framesFrom ends limit room line ++ others.flatMap (frames ends limit) := ih
      rw [framesFrom, lines]
      by_cases ended : ends item
      · have later := whole limit
        cases split : lines ends rest <;> rw [split] at later <;> simp [ended, framesFrom, later, frames]
      · cases split : lines ends rest with
        | nil =>
          cases lines_eq_nil_iff.mp split
          simp [ended, framesFrom]
        | cons line more =>
          by_cases last : room ≤ 1
          · have later := whole limit
            rw [split] at later
            simp [ended, framesFrom, last, later]
          · have later := whole (room - 1)
            rw [split] at later
            have some := (isLine_of_mem_lines line (split ▸ List.mem_cons_self ..)).1
            cases framed : framesFrom ends limit (room - 1) line with
            | nil =>
              have : (framesFrom ends limit (room - 1) line).flatten = line := flatten_framesFrom limit (room - 1) line
              rw [framed] at this
              exact (some this.symm).elim
            | cons frame frames =>
              simp [ended, framesFrom, last, later, framed]
  have whole := general stream limit
  cases split : lines ends stream <;> rw [split] at whole <;> simpa [frames] using whole

theorem takeLine_of_isLine (inner : ∀ item ∈ line.dropLast, ends item = false) (room : Nat) :
    takeLine ends room line = (line.take room, line.drop room) := by
  induction room generalizing line with
  | zero => rfl
  | succ room ih =>
    cases line with
    | nil => rfl
    | cons item rest =>
      cases rest with
      | nil => cases room <;> by_cases ended : ends item <;> simp [takeLine, ended]
      | cons next rest =>
        have plain : ends item = false := inner item (by simp)
        have later := @ih (next :: rest) fun other inside => inner other (by simpa using .inr inside)
        simp [takeLine, plain, later]

theorem frames_of_short (whole : IsLine ends line) (free : 0 < limit) (short : line.length ≤ limit) :
    frames ends limit line = [line] := by
  rw [frames, framesFrom_cons free whole.1, takeLine_of_isLine whole.2, List.take_of_length_le short, List.drop_of_length_le short,
    framesFrom]

theorem frames_of_long (whole : IsLine ends line) (free : 0 < limit) :
    frames ends limit line = line.take limit :: frames ends limit (line.drop limit) := by
  rw [frames, framesFrom_cons free whole.1, takeLine_of_isLine whole.2, frames]

end NovelStudio.Library
