import NovelStudio.Library.JsonValues

/-! Texts of values that stand between commas and brackets, and how they are told apart. -/

namespace NovelStudio.Library

variable {α : Type*}

/-- What may follow a value: a comma, a closing bracket or brace, or nothing. -/
def Ends (rest : List Char) : Prop := ∀ char, rest.head? = some char → char = ',' ∨ char = ']' ∨ char = '}'

theorem ends_nil : Ends [] := by
  intro char head
  cases head

theorem ends_comma (rest : List Char) : Ends (',' :: rest) := by
  intro char head
  exact .inl (Option.some.inj head).symm

theorem ends_bracket (rest : List Char) : Ends (']' :: rest) := by
  intro char head
  exact .inr (.inl (Option.some.inj head).symm)

theorem ends_brace (rest : List Char) : Ends ('}' :: rest) := by
  intro char head
  exact .inr (.inr (Option.some.inj head).symm)

/-- Where the two texts stand before an end, they agree only if `same` holds. -/
def Told (left right : List Char) (same : Prop) : Prop :=
  ∀ ⦃rest rest'⦄, Ends rest → Ends rest' → left ++ rest = right ++ rest' → same ∧ rest = rest'

theorem told_of_head {one other : Char} {left right : List Char} (same : Prop) (different : one ≠ other) :
    Told (one :: left) (other :: right) same := by
  intro rest rest' _ _ agree
  exact absurd (List.cons.inj agree).1 different

/-- The text holds nothing that ends a value. -/
def Plain (text : List Char) : Prop := ∀ char ∈ text, char ≠ ',' ∧ char ≠ ']' ∧ char ≠ '}'

theorem Plain.told {left right : List Char} (first : Plain left) (second : Plain right) : Told left right (left = right) := by
  intro rest rest' ends ends' agree
  induction left generalizing right with
  | nil =>
    cases right with
    | nil => exact ⟨rfl, agree⟩
    | cons char others =>
      obtain ⟨comma, bracket, brace⟩ := second char (List.mem_cons_self ..)
      have here := ends char (by rw [← List.nil_append rest, agree]; rfl)
      simp [comma, bracket, brace] at here
  | cons char others ih =>
    cases right with
    | nil =>
      obtain ⟨comma, bracket, brace⟩ := first char (List.mem_cons_self ..)
      have here := ends' char (by rw [← List.nil_append rest', ← agree]; rfl)
      simp [comma, bracket, brace] at here
    | cons next rights =>
      obtain ⟨same, later⟩ := List.cons.inj agree
      obtain ⟨whole, left⟩ := ih (fun item member => first item (List.mem_cons_of_mem _ member))
        (fun item member => second item (List.mem_cons_of_mem _ member)) later
      exact ⟨by rw [same, whole], left⟩

/-- What follows an item of a list. -/
def listTail (text : α → List Char) (close : Char) (rest : List Char) : List α → List Char
  | [] => close :: rest
  | item :: items => ',' :: text item ++ listTail text close rest items

theorem intercalate_close (text : α → List Char) (close : Char) (rest : List Char) (item : α) (items : List α) :
    [','].intercalate ((item :: items).map text) ++ close :: rest = text item ++ listTail text close rest items := by
  induction items generalizing item with
  | nil => simp [listTail]
  | cons next items ih =>
    rw [List.map_cons, List.map_cons, List.intercalate_cons_cons, List.append_assoc, List.append_assoc, ← List.map_cons, ih]
    rfl

variable {close : Char}

theorem ends_listTail (closes : close = ']' ∨ close = '}') (text : α → List Char) (rest : List Char) (items : List α) :
    Ends (listTail text close rest items) := by
  cases items with
  | nil =>
    rcases closes with rfl | rfl
    · exact ends_bracket rest
    · exact ends_brace rest
  | cons item items => exact ends_comma _

variable {rest rest' : List Char}

theorem listTail_told {text : α → List Char} {same : α → α → Prop} {lefts rights : List α}
    (closes : close = ']' ∨ close = '}') (each : ∀ left ∈ lefts, ∀ right ∈ rights, Told (text left) (text right) (same left right))
    (agree : listTail text close rest lefts = listTail text close rest' rights) : List.Forall₂ same lefts rights ∧ rest = rest' := by
  have apart : close ≠ ',' := by rcases closes with rfl | rfl <;> decide
  induction lefts generalizing rights with
  | nil =>
    cases rights with
    | nil => exact ⟨.nil, (List.cons.inj agree).2⟩
    | cons right rights => exact absurd (List.cons.inj agree).1 apart
  | cons left lefts ih =>
    cases rights with
    | nil => exact absurd (List.cons.inj agree).1.symm apart
    | cons right rights =>
      obtain ⟨here, later⟩ := each left (List.mem_cons_self ..) right (List.mem_cons_self ..)
        (ends_listTail closes text rest lefts) (ends_listTail closes text rest' rights) (List.cons.inj agree).2
      obtain ⟨others, after⟩ := ih (fun left member right there => each left (List.mem_cons_of_mem _ member) right (List.mem_cons_of_mem _ there)) later
      exact ⟨.cons here others, after⟩

theorem intercalate_told {text : α → List Char} {same : α → α → Prop} {lefts rights : List α}
    (closes : close = ']' ∨ close = '}') (each : ∀ left ∈ lefts, ∀ right ∈ rights, Told (text left) (text right) (same left right))
    (opens : ∀ item ∈ lefts ++ rights, ∃ first others, text item = first :: others ∧ first ≠ close)
    (agree : [','].intercalate (lefts.map text) ++ close :: rest = [','].intercalate (rights.map text) ++ close :: rest') :
    List.Forall₂ same lefts rights ∧ rest = rest' := by
  cases lefts with
  | nil =>
    cases rights with
    | nil => exact ⟨.nil, (List.cons.inj agree).2⟩
    | cons right rights =>
      obtain ⟨first, others, begins, apart⟩ := opens right (by simp)
      rw [intercalate_close, begins] at agree
      exact absurd (List.cons.inj agree).1.symm apart
  | cons left lefts =>
    cases rights with
    | nil =>
      obtain ⟨first, others, begins, apart⟩ := opens left (by simp)
      rw [intercalate_close, begins] at agree
      exact absurd (List.cons.inj agree).1 apart
    | cons right rights =>
      rw [intercalate_close, intercalate_close] at agree
      apply listTail_told closes each
      exact congrArg (',' :: ·) agree

/-- A character as `JSON.stringify` writes it in a string. -/
def quoteChar (char : Char) : List Char :=
  match shortEscape char.toNat with
  | some short => ['\\', short]
  | none => if char.toNat < 32 then unicodeEscape char.toNat else [char]

/-- `JSON.stringify` of a string. -/
def quote (text : String) : List Char := '"' :: text.toList.flatMap quoteChar ++ ['"']

theorem whole_toList (text : String) : Whole (text.toList.map Char.toNat) := by
  intro point member
  obtain ⟨char, _, rfl⟩ := List.mem_map.mp member
  have valid : char.toNat < 0xD800 ∨ 0xDFFF < char.toNat ∧ char.toNat < 0x110000 := char.valid
  simp only [isHighSurrogate, isLowSurrogate, Bool.and_eq_false_iff, decide_eq_false_iff_not]
  omega

theorem escapePlain_char (char : Char) : escapePlain char.toNat = some (quoteChar char) := by
  have whole := whole_toList (String.ofList [char]) char.toNat (by simp)
  unfold escapePlain quoteChar
  cases shortEscape char.toNat with
  | some short => rfl
  | none =>
    by_cases control : char.toNat < 32
    · simp [control]
    · simp [control, whole, Char.ofNat_toNat]

/-- How the characters of `JSON.stringify` are escaped. -/
def quoteStyle : Style := ⟨escapePlain, fun _ => none⟩

theorem escapeAll_chars (chars : List Char) : escapeAll quoteStyle (chars.map Char.toNat) = some (chars.flatMap quoteChar) := by
  induction chars with
  | nil => rfl
  | cons char rest ih =>
    have here : quoteStyle.escape char.toNat = some (quoteChar char) := escapePlain_char char
    rw [List.map_cons, escapeAll, ih, here]
    rfl

theorem scanString_quote (text : String) (rest : List Char) :
    scanString ((text.toList.flatMap quoteChar ++ '"' :: rest).length + 1) (text.toList.flatMap quoteChar ++ '"' :: rest) =
      .ok (text.toList.map Char.toNat, rest) := by
  have printable : PrintableText quoteStyle (text.toList.map Char.toNat) := by
    intro point member
    obtain ⟨char, _, rfl⟩ := List.mem_map.mp member
    exact escapePlain_lawful (fun _ => none) (toNat_lt char)
  have scanned := scanString_encodeString printable (escapeAll_chars text.toList) rest
  rwa [joined_whole (whole_toList text)] at scanned

theorem quote_told {left right : String} (agree : quote left ++ rest = quote right ++ rest') :
    left = right ∧ rest = rest' := by
  have inner : left.toList.flatMap quoteChar ++ '"' :: rest = right.toList.flatMap quoteChar ++ '"' :: rest' := by
    simpa [quote] using agree
  have first := scanString_quote left rest
  rw [inner, scanString_quote right rest'] at first
  obtain ⟨points, after⟩ := Prod.mk.inj (Except.ok.inj first)
  refine ⟨String.toList_inj.mp ?_, after.symm⟩
  exact (List.map_injective_iff.mpr (fun _ _ => Char.toNat_inj.mp) points).symm

end NovelStudio.Library
