

/-! Computations that end with a value or an error, and what it means that one ends
with a value. -/

namespace NovelStudio.Library

universe u v w
variable {ε : Type u} {α β : Type v}

/-- `if bad: raise failure`. -/
def reject (bad : Bool) (failure : ε) : Except ε Unit := if bad then throw failure else pure ()

/-- `if condition: check`. -/
def onlyIf (condition : Bool) (check : Except ε Unit) : Except ε Unit := if condition then check else pure ()

/-- `mapping[key]`. -/
def fetch (entry : Option α) (failure : ε) : Except ε α :=
  match entry with
  | some value => pure value
  | none => throw failure

/-- The computation ends with a value that passes a test. -/
def endsWith (test : α → Bool) : Except ε α → Bool
  | .ok value => test value
  | .error _ => false

theorem ok_of_endsWith (test : α → Bool) (computed : Except ε α) (passes : endsWith test computed = true) :
    ∃ value, computed = .ok value ∧ test value = true := by
  cases computed with
  | ok value => exact ⟨value, rfl, passes⟩
  | error => cases passes

theorem error_of_endsWith (computed : Except ε α) (fails : endsWith (fun _ => true) computed = false) :
    ∃ failure, computed = .error failure := by
  cases computed with
  | ok => cases fails
  | error failure => exact ⟨failure, rfl⟩

theorem bind_ok {first : Except ε α} {next : α → Except ε β} :
    (first >>= next) = .ok result ↔ ∃ value, first = .ok value ∧ next value = .ok result := by
  cases first with
  | ok value => simp [bind, Except.bind]
  | error failure => simp [bind, Except.bind]

theorem bind_error {first : Except ε α} {next : α → Except ε β} {failure : ε} :
    (first >>= next) = .error failure ↔ first = .error failure ∨ ∃ value, first = .ok value ∧ next value = .error failure := by
  cases first with
  | ok value => simp [bind, Except.bind]
  | error failure => simp [bind, Except.bind]

theorem pure_ok {value result : α} : (pure value : Except ε α) = .ok result ↔ value = result := by
  simp [pure, Except.pure]

theorem throw_ok {failure : ε} {result : α} : (throw failure : Except ε α) = .ok result ↔ False := by
  simp [throw, throwThe, MonadExceptOf.throw]

@[simp] theorem reject_ok {bad : Bool} {failure : ε} : reject bad failure = .ok result ↔ bad = false := by
  cases bad <;> simp [reject, pure_ok, throw_ok]

theorem reject_error {bad : Bool} {failure : ε} : reject bad failure = .error raised ↔ bad = true ∧ failure = raised := by
  cases bad <;> simp [reject, pure, Except.pure, throw, throwThe, MonadExceptOf.throw]

@[simp] theorem fetch_ok {entry : Option α} {failure : ε} : fetch entry failure = .ok result ↔ entry = some result := by
  cases entry with
  | none => simp [fetch, throw_ok]
  | some value => simp [fetch, pure_ok]

theorem fetch_error {entry : Option α} {failure : ε} : fetch entry failure = .error raised ↔ entry = none ∧ failure = raised := by
  cases entry <;> simp [fetch, pure, Except.pure, throw, throwThe, MonadExceptOf.throw]

@[simp] theorem onlyIf_ok {condition : Bool} {check : Except ε Unit} :
    onlyIf condition check = .ok result ↔ (condition = true → check = .ok result) := by
  cases condition <;> simp [onlyIf, pure_ok]

theorem discard_ok {first : Except ε α} {result : PUnit} : (discard first : Except ε PUnit) = .ok result ↔
    ∃ value, first = .ok value := by
  cases first with
  | ok value => simp [discard, Functor.mapConst, Except.map]
  | error failure => simp [discard, Functor.mapConst, Except.map]

theorem mapError_ok {ε' : Type u} {first : Except ε α} {change : ε → ε'} : first.mapError change = .ok result ↔ first = .ok result := by
  cases first with
  | ok value => exact ⟨by rintro ⟨⟩; rfl, by rintro ⟨⟩; rfl⟩
  | error failure => exact ⟨by rintro ⟨⟩, by rintro ⟨⟩⟩

theorem forM_ok {check : α → Except ε PUnit} {items : List α} (done : items.forM check = .ok ()) : ∀ item ∈ items, check item = .ok () := by
  induction items with
  | nil => simp
  | cons first rest ih =>
    simp only [List.forM_eq_forM, List.forM_cons, bind_ok] at done
    obtain ⟨_, here, later⟩ := done
    intro item member
    rcases List.mem_cons.mp member with rfl | member
    · exact here
    · exact ih later item member

theorem forM_mono {check other : α → Except ε PUnit} {items : List α}
    (each : ∀ item ∈ items, check item = .ok () → other item = .ok ()) (done : items.forM check = .ok ()) : items.forM other = .ok () := by
  induction items with
  | nil => rfl
  | cons item rest ih =>
    simp only [List.forM_eq_forM, List.forM_cons, bind_ok] at done ⊢
    obtain ⟨_, first, done⟩ := done
    exact ⟨_, each item (List.mem_cons_self ..) first, ih (fun next member => each next (List.mem_cons_of_mem _ member)) done⟩

theorem foldlM_nil_ok {turn : α → β → Except ε α} : ([] : List β).foldlM turn first = .ok result ↔ first = result := by
  rw [List.foldlM_nil, pure_ok]

theorem foldlM_cons_ok {turn : α → β → Except ε α} {item : β} {rest : List β} :
    (item :: rest).foldlM turn first = .ok result ↔ ∃ next, turn first item = .ok next ∧ rest.foldlM turn next = .ok result := by
  rw [List.foldlM_cons, bind_ok]

/-- What every turn of a loop over a list keeps holds at its end; the list is what was done so far. -/
theorem foldlM_invariant {turn : α → β → Except ε α} {motive : List β → α → Prop} {items : List β}
    (kept : ∀ {before item state next}, item ∈ items → motive before state → turn state item = .ok next →
      motive (before ++ [item]) next)
    (initially : motive [] start) (done : items.foldlM turn start = .ok result) : motive items result := by
  have general : ∀ (rest before : List β) (state : α), (∀ item ∈ rest, item ∈ items) → motive before state →
      rest.foldlM turn state = .ok result → motive (before ++ rest) result := by
    intro rest
    induction rest with
    | nil =>
      intro before state _ holds done
      cases foldlM_nil_ok.mp done
      simpa using holds
    | cons item rest ih =>
      intro before state inside holds done
      obtain ⟨next, turned, done⟩ := foldlM_cons_ok.mp done
      have later := ih (before ++ [item]) next (fun other member => inside other (List.mem_cons_of_mem _ member))
        (kept (inside item (List.mem_cons_self ..)) holds turned) done
      simpa using later
  exact general items [] start (fun _ member => member) initially done

end NovelStudio.Library
