import Mathlib.Data.List.Basic

/-! Computations that may fail and that leave notes of what they do, also where they fail; and the rules by which every
note is kept safe, every failure is one of those allowed and every result has a property. -/

namespace NovelStudio.Library

abbrev Noting (ω ε : Type) := ExceptT ε (StateM (List ω))

namespace Noting

variable {ω ε α β γ : Type}

/-- The result and the notes, from none on. -/
def start (program : Noting ω ε α) (notes : List ω) : Except ε α × List ω := StateT.run (ExceptT.run program) notes

def note (entry : ω) : Noting ω ε Unit := ExceptT.lift (modify fun notes => notes ++ [entry])

/-- A computation that leaves no notes. -/
def silent : Except ε α → Noting ω ε α
  | .ok value => pure value
  | .error raised => throw raised

/-- From safe notes on the program leaves safe notes, and ends with a result that has the property or with a failure that is allowed. -/
def Holds (safe : ω → Prop) (allowed : ε → Prop) (program : Noting ω ε α) (property : α → Prop) : Prop :=
  ∀ notes, (∀ entry ∈ notes, safe entry) →
    (∀ entry ∈ (start program notes).2, safe entry) ∧ (∀ value, (start program notes).1 = .ok value → property value) ∧
      ∀ raised, (start program notes).1 = .error raised → allowed raised

variable {safe : ω → Prop} {allowed : ε → Prop} {property : α → Prop}

theorem start_bind (program : Noting ω ε α) (next : α → Noting ω ε β) (notes : List ω) :
    start (program >>= next) notes =
      match start program notes with
      | (.ok value, after) => start (next value) after
      | (.error raised, after) => (.error raised, after) := by
  show StateT.run (StateT.bind (ExceptT.run program) (ExceptT.bindCont next)) notes = _
  show (match StateT.run (ExceptT.run program) notes with | (result, after) => StateT.run (ExceptT.bindCont next result) after) = _
  unfold start
  cases StateT.run (ExceptT.run program) notes with
  | mk result after => cases result <;> rfl

theorem Holds.result (value : α) (holds : property value) : Holds safe allowed (pure value : Noting ω ε α) property := by
  intro notes kept
  refine ⟨kept, ?_, nofun⟩
  intro other same
  cases same
  exact holds

theorem Holds.failure (raised : ε) (holds : allowed raised) : Holds safe allowed (throw raised : Noting ω ε α) property := by
  intro notes kept
  refine ⟨kept, nofun, ?_⟩
  intro other same
  cases same
  exact holds

theorem Holds.entry (entry : ω) (holds : safe entry) : Holds safe allowed (note entry : Noting ω ε Unit) fun _ => True := by
  intro notes kept
  refine ⟨?_, fun _ _ => trivial, nofun⟩
  intro other member
  cases List.mem_append.mp (show other ∈ notes ++ [entry] from member) with
  | inl old => exact kept other old
  | inr new => exact List.mem_singleton.mp new ▸ holds

theorem Holds.silent {computed : Except ε α} (result : ∀ value, computed = .ok value → property value)
    (failure : ∀ raised, computed = .error raised → allowed raised) : Holds safe allowed (Noting.silent computed) property := by
  cases computed with
  | ok value => exact Holds.result value (result value rfl)
  | error raised => exact Holds.failure raised (failure raised rfl)

theorem Holds.mono {weaker : α → Prop} {program : Noting ω ε α} (holds : Holds safe allowed program property)
    (implies : ∀ value, property value → weaker value) : Holds safe allowed program weaker := by
  intro notes kept
  obtain ⟨after, result, failure⟩ := holds notes kept
  exact ⟨after, fun value same => implies value (result value same), failure⟩

theorem Holds.bind {program : Noting ω ε α} {next : α → Noting ω ε β} {final : β → Prop} (first : Holds safe allowed program property)
    (rest : ∀ value, property value → Holds safe allowed (next value) final) : Holds safe allowed (program >>= next) final := by
  intro notes kept
  obtain ⟨after, result, failure⟩ := first notes kept
  rw [start_bind]
  cases ran : start program notes with
  | mk outcome left =>
    rw [ran] at after result failure
    cases outcome with
    | ok value => exact rest value (result value rfl) left after
    | error raised =>
      refine ⟨after, nofun, ?_⟩
      intro other same
      cases same
      exact failure raised rfl

theorem Holds.loop {turn : β → γ → Noting ω ε β} {motive : List γ → β → Prop} {items : List γ} {first : β}
    (turns : ∀ before item state, item ∈ items → motive before state → Holds safe allowed (turn state item) (motive (before ++ [item])))
    (initially : motive [] first) : Holds safe allowed (items.foldlM turn first) (motive items) := by
  have general : ∀ (rest before : List γ) (state : β), (∀ item ∈ rest, item ∈ items) → motive before state →
      Holds safe allowed (rest.foldlM turn state) (motive (before ++ rest)) := by
    intro rest
    induction rest with
    | nil =>
      intro before state _ holds
      rw [List.append_nil]
      exact Holds.result state holds
    | cons item rest ih =>
      intro before state inside holds
      rw [List.foldlM_cons]
      apply (turns before item state (inside item (List.mem_cons_self ..)) holds).bind
      intro value kept
      have later := ih (before ++ [item]) value (fun other member => inside other (List.mem_cons_of_mem _ member)) kept
      rwa [List.append_assoc] at later
  exact general items [] first (fun _ member => member) initially

theorem Holds.map {program : γ → Noting ω ε α} {items : List γ} {related : γ → α → Prop}
    (each : ∀ item ∈ items, Holds safe allowed (program item) (related item)) :
    Holds safe allowed (items.mapM program) (List.Forall₂ related items) := by
  induction items with
  | nil =>
    rw [List.mapM_nil]
    exact Holds.result [] .nil
  | cons item rest ih =>
    rw [List.mapM_cons]
    apply (each item (List.mem_cons_self ..)).bind
    intro read here
    apply (ih fun other member => each other (List.mem_cons_of_mem _ member)).bind
    intro results later
    exact Holds.result _ (.cons here later)

end Noting

end NovelStudio.Library
