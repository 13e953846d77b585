import NovelStudio.Library.JsonEncoder

/-! The values that Python can hold, which of them `json.dumps` without `ensure_ascii` and
without `allow_nan` takes, and that they are read back. -/

namespace NovelStudio.Library

def Points (text : PyStr) : Prop := ∀ point ∈ text, point < 0x110000

mutual
/-- Texts consist of code points, and no object has a key twice. -/
def Wellformed : Decoded → Prop
  | .str text => Points text
  | .list items => WellformedItems items
  | .dict fields => (fields.map Prod.fst).Nodup ∧ WellformedFields fields
  | _ => True

def WellformedItems : List Decoded → Prop
  | [] => True
  | item :: rest => Wellformed item ∧ WellformedItems rest

def WellformedFields : List (PyStr × Decoded) → Prop
  | [] => True
  | (key, value) :: rest => Points key ∧ Wellformed value ∧ WellformedFields rest
end

mutual
/-- No integer has more digits than `str` writes, and arrays and objects nest no deeper than the interpreter allows. -/
def dumpable (depth : Nat) : Decoded → Bool
  | .int value => (Nat.toDigits 10 value.natAbs).length ≤ MAX_STR_DIGITS
  | .list items => 0 < depth && dumpableItems (depth - 1) items
  | .dict fields => 0 < depth && dumpableFields (depth - 1) fields
  | _ => true

def dumpableItems (depth : Nat) : List Decoded → Bool
  | [] => true
  | item :: rest => dumpable depth item && dumpableItems depth rest

def dumpableFields (depth : Nat) : List (PyStr × Decoded) → Bool
  | [] => true
  | (_, value) :: rest => dumpable depth value && dumpableFields depth rest
end

theorem wellformedItems_iff {items : List Decoded} : WellformedItems items ↔ ∀ item ∈ items, Wellformed item := by
  induction items with
  | nil => simp [WellformedItems]
  | cons item rest ih => simp [WellformedItems, ih]

theorem wellformedFields_iff {fields : List (PyStr × Decoded)} :
    WellformedFields fields ↔ ∀ field ∈ fields, Points field.1 ∧ Wellformed field.2 := by
  induction fields with
  | nil => simp [WellformedFields]
  | cons field rest ih => simp [WellformedFields, ih, and_assoc]

theorem dumpableItems_iff {items : List Decoded} : dumpableItems depth items = true ↔ ∀ item ∈ items, dumpable depth item = true := by
  induction items with
  | nil => simp [dumpableItems]
  | cons item rest ih => simp [dumpableItems, ih]

theorem dumpableFields_iff {fields : List (PyStr × Decoded)} :
    dumpableFields depth fields = true ↔ ∀ field ∈ fields, dumpable depth field.2 = true := by
  induction fields with
  | nil => simp [dumpableFields]
  | cons field rest ih =>
    obtain ⟨key, value⟩ := field
    rw [dumpableFields, Bool.and_eq_true, ih, List.forall_mem_cons]

theorem hexDigit_lt (found : hexDigit char = some digit) : digit < 16 := by
  unfold hexDigit at found
  split at found
  · rename_i range
    cases found
    have below : char.toNat ≤ 57 := range.2
    omega
  · split at found
    · rename_i range
      cases found
      have below : char.toNat ≤ 102 := range.2
      omega
    · split at found
      · rename_i range
        cases found
        have below : char.toNat ≤ 70 := range.2
        omega
      · cases found

theorem hexFour_lt (found : hexFour a b c d = some code) : code < 0x10000 := by
  simp only [hexFour, Option.pure_def, Option.bind_eq_bind, Option.bind_eq_some_iff, Option.some.injEq] at found
  obtain ⟨first, one, second, two, third, three, fourth, four, rfl⟩ := found
  have := hexDigit_lt one
  have := hexDigit_lt two
  have := hexDigit_lt three
  have := hexDigit_lt four
  omega

theorem escapedPoint_lt (code : Nat) (rest : List Char) (bounded : code < 0x10000) : (escapedPoint code rest).1 < 0x110000 := by
  unfold escapedPoint
  split
  · rename_i high
    split
    · rename_i low left found
      unfold lowSurrogate at found
      split at found
      · split at found
        · split at found
          · rename_i range
            cases found
            simp only
            omega
          · cases found
        · cases found
      · cases found
    · exact Nat.lt_trans bounded (by decide)
  · exact Nat.lt_trans bounded (by decide)

theorem simpleEscape_lt (found : simpleEscape char = some point) : point < 0x110000 := by
  unfold simpleEscape at found
  split at found <;> cases found
  all_goals decide

theorem toNat_lt (char : Char) : char.toNat < 0x110000 := by
  have valid := char.valid
  change char.toNat < 0xD800 ∨ 0xDFFF < char.toNat ∧ char.toNat < 0x110000 at valid
  omega

theorem scanString_points (done : scanString fuel text = .ok (points, left)) : Points points := by
  induction fuel generalizing text points left with
  | zero => cases done
  | succ fuel ih =>
    have cons {point : Nat} {more : List Char} (bounded : point < 0x110000)
        (done : (scanThen (scanString fuel more) fun points left => .ok (point :: points, left)) = .ok (points, left)) : Points points := by
      obtain ⟨others, end', scanned, same⟩ := scanThen_ok.mp done
      cases same
      intro other member
      rcases List.mem_cons.mp member with rfl | later
      · exact bounded
      · exact ih scanned other later
    simp only [scanString] at done
    split at done
    · cases done
    · cases done
      exact List.forall_mem_nil _
    · split at done
      · cases done
      · rename_i code found
        exact cons (escapedPoint_lt code _ (hexFour_lt found)) done
    · split at done
      · cases done
      · rename_i point found
        exact cons (simpleEscape_lt found) done
    · split at done
      · cases done
      · exact cons (toNat_lt _) done

theorem digitsValue_lt {digits : List Char} (each : ∀ char ∈ digits, isDigit char = true) : digitsValue digits < 10 ^ digits.length := by
  have general : ∀ (digits : List Char) (value : Nat), (∀ char ∈ digits, isDigit char = true) →
      digits.foldl (fun value digit => value * 10 + (digit.toNat - 48)) value < (value + 1) * 10 ^ digits.length := by
    intro digits
    induction digits with
    | nil =>
      intro value _
      simp
    | cons digit rest ih =>
      intro value each
      have here : isDigit digit = true := each digit (List.mem_cons_self ..)
      simp only [isDigit, Bool.and_eq_true, decide_eq_true_eq] at here
      have below : digit.toNat ≤ 57 := here.2
      have later := ih (value * 10 + (digit.toNat - 48)) fun char member => each char (List.mem_cons_of_mem _ member)
      calc (digit :: rest).foldl (fun value digit => value * 10 + (digit.toNat - 48)) value
          < (value * 10 + (digit.toNat - 48) + 1) * 10 ^ rest.length := later
        _ ≤ ((value + 1) * 10) * 10 ^ rest.length := Nat.mul_le_mul_right _ (by omega)
        _ = (value + 1) * 10 ^ (digit :: rest).length := by rw [List.length_cons, Nat.pow_succ, Nat.mul_assoc, Nat.mul_comm 10]
  have bounded := general digits 0 each
  rwa [Nat.zero_add, Nat.one_mul] at bounded

theorem integerDigits_digits (found : integerDigits text = some (digits, rest)) :
    (∀ char ∈ digits, isDigit char = true) ∧ 0 < digits.length := by
  unfold integerDigits at found
  split at found
  · cases found
  · split at found
    · cases found
      exact ⟨by simp [isDigit], by decide⟩
    · split at found
      · rename_i first rest _ digit
        cases found
        refine ⟨?_, Nat.succ_pos _⟩
        intro char member
        rcases List.mem_cons.mp member with rfl | later
        · exact digit
        · exact List.all_eq_true.mp (List.all_takeWhile ..) char later
      · cases found

/-- A scanned number has no more digits than `int` reads. -/
theorem scanNumber_dumpable (done : scanNumber text = .ok (value, left)) : Wellformed value ∧ dumpable depth value = true := by
  unfold scanNumber at done
  simp only at done
  split at done
  · cases done
  · rename_i digits rest found
    obtain ⟨each, positive⟩ := integerDigits_digits found
    split at done
    · split at done
      · cases done
      · rename_i few
        cases done
        refine ⟨by simp only [Wellformed], ?_⟩
        have small : (Nat.toDigits 10 (digitsValue digits)).length ≤ digits.length :=
          (Nat.length_toDigits_le_iff (by decide) positive).mpr (digitsValue_lt each)
        have absolute : (if (takeSign ['-'] text).1 = [] then (digitsValue digits : Int) else -digitsValue digits).natAbs = digitsValue digits := by
          split <;> simp
        simp only [dumpable, absolute, decide_eq_true_eq]
        omega
    · cases done
      exact ⟨by simp only [Wellformed], rfl⟩

section

variable {scan : List Char → Scan Decoded} {Holds : Decoded → Prop}
  (sound : ∀ {text value left}, scan text = .ok (value, left) → Holds value)

include sound

theorem scanElements_all (done : scanElements scan fuel text = .ok (items, left)) : ∀ item ∈ items, Holds item := by
  induction fuel generalizing text items left with
  | zero => cases done
  | succ fuel ih =>
    obtain ⟨value, rest, scanned, done⟩ := scanThen_ok.mp done
    split at done
    · cases done
      intro item member
      rw [List.mem_singleton.mp member]
      exact sound scanned
    · obtain ⟨others, end', later, same⟩ := scanThen_ok.mp done
      cases same
      intro item member
      rcases List.mem_cons.mp member with rfl | last
      · exact sound scanned
      · exact ih later item last
    · cases done

theorem scanMembers_all (done : scanMembers scan fuel text = .ok (pairs, left)) : ∀ pair ∈ pairs, Points pair.1 ∧ Holds pair.2 := by
  induction fuel generalizing text pairs left with
  | zero => cases done
  | succ fuel ih =>
    simp only [scanMembers] at done
    split at done
    · obtain ⟨key, rest, named, done⟩ := scanThen_ok.mp done
      have points := scanString_points named
      split at done
      · obtain ⟨value, more, scanned, done⟩ := scanThen_ok.mp done
        split at done
        · cases done
          intro pair member
          rw [List.mem_singleton.mp member]
          exact ⟨points, sound scanned⟩
        · obtain ⟨others, end', later, same⟩ := scanThen_ok.mp done
          cases same
          intro pair member
          rcases List.mem_cons.mp member with rfl | last
          · exact ⟨points, sound scanned⟩
          · exact ih later pair last
        · cases done
      · cases done
    · cases done

end

theorem storeField_spec {fields : List (PyStr × Decoded)} (field : PyStr × Decoded) (distinct : (fields.map Prod.fst).Nodup) :
    ((storeField fields field).map Prod.fst).Nodup ∧ ∀ other ∈ storeField fields field, other = field ∨ other ∈ fields := by
  unfold storeField
  split
  · constructor
    · have keys : (fields.map fun old => if old.1 = field.1 then field else old).map Prod.fst = fields.map Prod.fst := by
        rw [List.map_map]
        apply List.map_congr_left
        intro old member
        simp only [Function.comp_apply]
        split
        · rename_i same
          exact same.symm
        · rfl
      rwa [keys]
    · intro other member
      obtain ⟨old, stored, rfl⟩ := List.mem_map.mp member
      split
      · exact .inl rfl
      · exact .inr stored
  · rename_i fresh
    constructor
    · rw [List.map_append, List.nodup_append]
      refine ⟨distinct, by simp, ?_⟩
      intro key member other last
      rw [List.map_cons, List.map_nil, List.mem_singleton] at last
      rw [last]
      intro same
      exact fresh (same ▸ member)
    · intro other member
      rcases List.mem_append.mp member with old | last
      · exact .inr old
      · exact .inl (List.mem_singleton.mp last)

theorem foldl_storeField_spec (pairs : List (PyStr × Decoded)) :
    ((pairs.foldl storeField []).map Prod.fst).Nodup ∧ ∀ field ∈ pairs.foldl storeField [], field ∈ pairs := by
  have general : ∀ (pairs before : List (PyStr × Decoded)), (before.map Prod.fst).Nodup →
      ((pairs.foldl storeField before).map Prod.fst).Nodup ∧ ∀ field ∈ pairs.foldl storeField before, field ∈ before ∨ field ∈ pairs := by
    intro pairs
    induction pairs with
    | nil => exact fun before distinct => ⟨distinct, fun field member => .inl member⟩
    | cons pair rest ih =>
      intro before distinct
      obtain ⟨apart, stored⟩ := storeField_spec pair distinct
      obtain ⟨still, from'⟩ := ih (storeField before pair) apart
      refine ⟨still, ?_⟩
      intro field member
      rcases from' field member with here | later
      · rcases stored field here with rfl | old
        · exact .inr (List.mem_cons_self ..)
        · exact .inl old
      · exact .inr (List.mem_cons_of_mem _ later)
  obtain ⟨distinct, stored⟩ := general pairs [] List.nodup_nil
  exact ⟨distinct, fun field member => (stored field member).resolve_left (List.not_mem_nil)⟩

/-- What may stand in an array or an object that is entered. -/
def Sound (depth : Nat) (value : Decoded) : Prop := Wellformed value ∧ dumpable depth value = true

theorem scanArray_sound {scan : List Char → Scan Decoded} (sound : ∀ {text value left}, scan text = .ok (value, left) → Sound depth value)
    (done : scanArray scan text = .ok (value, left)) : Sound (depth + 1) value := by
  unfold scanArray at done
  split at done
  · cases done
    exact ⟨by simp only [Wellformed, WellformedItems], rfl⟩
  · obtain ⟨items, end', scanned, same⟩ := scanThen_ok.mp done
    cases same
    have each := scanElements_all sound scanned
    refine ⟨?_, ?_⟩
    · rw [Wellformed]
      exact wellformedItems_iff.mpr fun item member => (each item member).1
    · rw [dumpable, Bool.and_eq_true]
      exact ⟨by simp, dumpableItems_iff.mpr fun item member => (each item member).2⟩

theorem scanObject_sound {scan : List Char → Scan Decoded} (sound : ∀ {text value left}, scan text = .ok (value, left) → Sound depth value)
    (done : scanObject scan text = .ok (value, left)) : Sound (depth + 1) value := by
  unfold scanObject at done
  split at done
  · cases done
    exact ⟨by simp [Wellformed, WellformedFields], rfl⟩
  · obtain ⟨pairs, end', scanned, same⟩ := scanThen_ok.mp done
    cases same
    have each := scanMembers_all sound scanned
    obtain ⟨distinct, stored⟩ := foldl_storeField_spec pairs
    refine ⟨?_, ?_⟩
    · rw [Wellformed]
      exact ⟨distinct, wellformedFields_iff.mpr fun field member => ⟨(each field (stored field member)).1, (each field (stored field member)).2.1⟩⟩
    · rw [dumpable, Bool.and_eq_true]
      exact ⟨by simp, dumpableFields_iff.mpr fun field member => (each field (stored field member)).2.2⟩

theorem scanOnce_sound (done : scanOnce depth text = .ok (value, left)) : Sound depth value := by
  induction depth generalizing text value left with
  | zero =>
    rw [scanOnce.eq_def] at done
    split at done
    · obtain ⟨points, end', scanned, same⟩ := scanThen_ok.mp done
      cases same
      exact ⟨by rw [Wellformed]; exact scanString_points scanned, rfl⟩
    all_goals first | exact scanNumber_dumpable done | (cases done; exact ⟨by simp only [Wellformed], rfl⟩) | cases done
  | succ depth ih =>
    rw [scanOnce.eq_def] at done
    split at done
    · obtain ⟨points, end', scanned, same⟩ := scanThen_ok.mp done
      cases same
      exact ⟨by rw [Wellformed]; exact scanString_points scanned, rfl⟩
    · exact scanObject_sound ih done
    · exact scanArray_sound ih done
    all_goals first | exact scanNumber_dumpable done | (cases done; exact ⟨by simp only [Wellformed], rfl⟩)

/-- How floats are printed, by `float.__repr__`: none for the literals of floats that are not finite. -/
structure Floats where
  text : List Char → Option (List Char)
  /-- The text of a float is a literal of a float. -/
  floating : ∀ {literal printed}, text literal = some printed → Floating printed
  /-- That literal denotes the same float again. -/
  again : ∀ {literal printed}, text literal = some printed → text printed = some printed
  nan : text ['N', 'a', 'N'] = none
  infinite : text ['I', 'n', 'f'] = none ∧ text ['-', 'I', 'n', 'f'] = none

/-- No character is half of a surrogate pair. -/
def Whole (text : PyStr) : Prop := ∀ point ∈ text, isHighSurrogate point = false ∧ isLowSurrogate point = false

variable (floats : Floats)

mutual
/-- Every float is finite, and every text is whole. -/
def Portable : Decoded → Prop
  | .float literal => (floats.text literal).isSome = true
  | .str text => Whole text
  | .list items => PortableItems items
  | .dict fields => PortableFields fields
  | _ => True

def PortableItems : List Decoded → Prop
  | [] => True
  | item :: rest => Portable item ∧ PortableItems rest

def PortableFields : List (PyStr × Decoded) → Prop
  | [] => True
  | (key, value) :: rest => Whole key ∧ Portable value ∧ PortableFields rest
end

mutual
/-- The value with every float as it is printed: two values are equal when these are the same. -/
def canonical : Decoded → Decoded
  | .float literal => .float ((floats.text literal).getD literal)
  | .list items => .list (canonicalItems items)
  | .dict fields => .dict (canonicalFields fields)
  | value => value

def canonicalItems : List Decoded → List Decoded
  | [] => []
  | item :: rest => canonical item :: canonicalItems rest

def canonicalFields : List (PyStr × Decoded) → List (PyStr × Decoded)
  | [] => []
  | (key, value) :: rest => (key, canonical value) :: canonicalFields rest
end

/-- `json.dumps` with `ensure_ascii=False`, `allow_nan=False` and no spaces, of which the UTF-8 is taken. -/
def plainStyle : Style := ⟨escapePlain, floats.text⟩

def dumps (depth : Nat) (value : Decoded) : Option (List Char) :=
  if dumpable depth value then encodeValue (plainStyle floats) value else none

variable {floats}

theorem canonicalFields_eq (fields : List (PyStr × Decoded)) : canonicalFields floats fields = fields.map fun field => (field.1, canonical floats field.2) := by
  induction fields with
  | nil => rfl
  | cons field rest ih => rw [canonicalFields, ih, List.map_cons]

theorem canonicalItems_eq (items : List Decoded) : canonicalItems floats items = items.map (canonical floats) := by
  induction items with
  | nil => rfl
  | cons item rest ih => rw [canonicalItems, ih, List.map_cons]

theorem escapePlain_isSome (point : Nat) : (escapePlain point).isSome = true ↔ isHighSurrogate point = false ∧ isLowSurrogate point = false := by
  unfold escapePlain
  split
  · rename_i named
    have whole := shortEscape_spec named
    have low : isLowSurrogate point = false := by
      unfold shortEscape at named
      split at named <;> cases named
      all_goals decide
    simp [whole.2.2, low]
  · split
    · rename_i control
      simp only [Option.isSome_some, true_iff, isHighSurrogate, isLowSurrogate, Bool.and_eq_false_iff, decide_eq_false_iff_not]
      omega
    · split
      · rename_i half
        rw [Bool.or_eq_true] at half
        simp only [Option.isSome_none, Bool.false_eq_true, false_iff, not_and_or, Bool.not_eq_false]
        exact half
      · rename_i whole
        simpa using whole

theorem escapeAll_isSome (text : PyStr) : (escapeAll (plainStyle floats) text).isSome = true ↔ Whole text := by
  induction text with
  | nil => simp [escapeAll, Whole]
  | cons point rest ih =>
    have first := escapePlain_isSome point
    simp only [Option.isSome_iff_exists] at first ih ⊢
    constructor
    · rintro ⟨text, encoded⟩
      obtain ⟨here, others, escaped, later, _⟩ := escapeAll_cons.mp encoded
      exact List.forall_mem_cons.mpr ⟨first.mp ⟨here, escaped⟩, ih.mp ⟨others, later⟩⟩
    · intro whole
      obtain ⟨here, escaped⟩ := first.mpr (List.forall_mem_cons.mp whole).1
      obtain ⟨others, later⟩ := ih.mpr (List.forall_mem_cons.mp whole).2
      exact ⟨_, escapeAll_cons.mpr ⟨here, others, escaped, later, rfl⟩⟩

theorem encodeString_isSome (text : PyStr) : (encodeString (plainStyle floats) text).isSome = true ↔ Whole text := by
  rw [← @escapeAll_isSome floats text]
  simp only [Option.isSome_iff_exists, encodeString_some]
  exact ⟨fun ⟨_, inner, escaped, _⟩ => ⟨inner, escaped⟩, fun ⟨inner, escaped⟩ => ⟨_, inner, escaped, rfl⟩⟩

theorem encodeItems_isSome {items : List Decoded}
    (each : ∀ item ∈ items, (encodeValue (plainStyle floats) item).isSome = true ↔ Portable floats item) :
    (encodeItems (plainStyle floats) items).isSome = true ↔ PortableItems floats items := by
  induction items with
  | nil => simp [encodeItems, PortableItems]
  | cons item rest ih =>
    have first := (List.forall_mem_cons.mp each).1
    have later := ih (List.forall_mem_cons.mp each).2
    rw [PortableItems, ← first, ← later]
    simp only [Option.isSome_iff_exists, encodeItems_cons]
    constructor
    · rintro ⟨text, here, encoded, tail⟩
      rcases tail with ⟨rfl, _⟩ | ⟨_, others, coded, _⟩
      · exact ⟨⟨here, encoded⟩, [], rfl⟩
      · exact ⟨⟨here, encoded⟩, others, coded⟩
    · rintro ⟨⟨here, encoded⟩, others, coded⟩
      by_cases last : rest = []
      · exact ⟨here, here, encoded, .inl ⟨last, rfl⟩⟩
      · exact ⟨_, here, encoded, .inr ⟨last, others, coded, rfl⟩⟩

theorem encodeFields_isSome {fields : List (PyStr × Decoded)}
    (each : ∀ field ∈ fields, (encodeValue (plainStyle floats) field.2).isSome = true ↔ Portable floats field.2) :
    (encodeFields (plainStyle floats) fields).isSome = true ↔ PortableFields floats fields := by
  induction fields with
  | nil => simp [encodeFields, PortableFields]
  | cons field rest ih =>
    obtain ⟨key, value⟩ := field
    have first := (List.forall_mem_cons.mp each).1
    have later := ih (List.forall_mem_cons.mp each).2
    rw [PortableFields, ← first, ← later, ← @encodeString_isSome floats]
    simp only [Option.isSome_iff_exists, encodeFields_cons]
    constructor
    · rintro ⟨text, name, here, named, encoded, tail⟩
      rcases tail with ⟨rfl, _⟩ | ⟨_, others, coded, _⟩
      · exact ⟨⟨name, named⟩, ⟨here, encoded⟩, [], rfl⟩
      · exact ⟨⟨name, named⟩, ⟨here, encoded⟩, others, coded⟩
    · rintro ⟨⟨name, named⟩, ⟨here, encoded⟩, others, coded⟩
      by_cases last : rest = []
      · exact ⟨_, name, here, named, encoded, .inl ⟨last, rfl⟩⟩
      · exact ⟨_, name, here, named, encoded, .inr ⟨last, others, coded, rfl⟩⟩

mutual
theorem encodeValue_isSome : ∀ value : Decoded, (encodeValue (plainStyle floats) value).isSome = true ↔ Portable floats value
  | .null => by simp [encodeValue, Portable]
  | .bool true => by simp [encodeValue, Portable]
  | .bool false => by simp [encodeValue, Portable]
  | .int value => by simp [encodeValue, Portable]
  | .float literal => by simp [encodeValue, Portable, plainStyle]
  | .str text => by rw [encodeValue, Portable, encodeString_isSome]
  | .list items => by
    rw [Portable, ← encodeItems_isSome (encodeValue_isSome_items items)]
    simp [encodeValue, Option.isSome_iff_exists, Option.bind_eq_some_iff]
  | .dict fields => by
    rw [Portable, ← encodeFields_isSome (encodeValue_isSome_fields fields)]
    simp [encodeValue, Option.isSome_iff_exists, Option.bind_eq_some_iff]

theorem encodeValue_isSome_items : ∀ items : List Decoded, ∀ item ∈ items,
    (encodeValue (plainStyle floats) item).isSome = true ↔ Portable floats item
  | [] => fun _ none => nomatch none
  | item :: rest => List.forall_mem_cons.mpr ⟨encodeValue_isSome item, encodeValue_isSome_items rest⟩

theorem encodeValue_isSome_fields : ∀ fields : List (PyStr × Decoded), ∀ field ∈ fields,
    (encodeValue (plainStyle floats) field.2).isSome = true ↔ Portable floats field.2
  | [] => fun _ none => nomatch none
  | (_, value) :: rest => List.forall_mem_cons.mpr ⟨encodeValue_isSome value, encodeValue_isSome_fields rest⟩
end

/-- Which values `json.dumps` takes. -/
theorem dumps_isSome (depth : Nat) (value : Decoded) : (dumps floats depth value).isSome = true ↔ dumpable depth value = true ∧ Portable floats value := by
  unfold dumps
  split
  · rename_i dumps
    simp [dumps, encodeValue_isSome]
  · rename_i refused
    simp [refused]

theorem joined_whole {text : PyStr} (whole : Whole text) : joined text = text := by
  apply joined_unpaired
  unfold Unpaired
  induction text with
  | nil => exact .nil
  | cons one rest ih =>
    cases rest with
    | nil => exact .singleton _
    | cons two rest =>
      rw [List.isChain_cons_cons]
      refine ⟨?_, ih fun point member => whole point (List.mem_cons_of_mem _ member)⟩
      intro paired
      rw [(whole one (List.mem_cons_self ..)).1] at paired
      exact Bool.false_ne_true paired.1

theorem printableText_points {text : PyStr} (points : Points text) : PrintableText (plainStyle floats) text :=
  fun point member => escapePlain_lawful floats.text (points point member)

theorem reprintItems_whole {items : List Decoded} (each : ∀ item ∈ items, reprint (plainStyle floats) item = canonical floats item) :
    reprintItems (plainStyle floats) items = canonicalItems floats items := by
  induction items with
  | nil => rfl
  | cons item rest ih =>
    rw [reprintItems, canonicalItems, (List.forall_mem_cons.mp each).1, ih (List.forall_mem_cons.mp each).2]

theorem keys_whole {fields : List (PyStr × Decoded)} (portable : PortableFields floats fields) :
    (fields.map fun field => joined field.1) = fields.map Prod.fst := by
  induction fields with
  | nil => rfl
  | cons field rest ih =>
    obtain ⟨key, value⟩ := field
    rw [PortableFields] at portable
    rw [List.map_cons, List.map_cons, ih portable.2.2, joined_whole portable.1]

theorem reprintFields_whole {fields : List (PyStr × Decoded)} (portable : PortableFields floats fields)
    (each : ∀ field ∈ fields, reprint (plainStyle floats) field.2 = canonical floats field.2) :
    reprintFields (plainStyle floats) fields = canonicalFields floats fields := by
  induction fields with
  | nil => rfl
  | cons field rest ih =>
    obtain ⟨key, value⟩ := field
    rw [PortableFields] at portable
    rw [reprintFields, canonicalFields, (List.forall_mem_cons.mp each).1, ih portable.2.2 (List.forall_mem_cons.mp each).2,
      joined_whole portable.1]

mutual
theorem reprint_portable : ∀ value : Decoded, Portable floats value → reprint (plainStyle floats) value = canonical floats value
  | .null => fun _ => rfl
  | .bool _ => fun _ => rfl
  | .int _ => fun _ => rfl
  | .float _ => fun _ => rfl
  | .str text => fun whole => by
    rw [Portable] at whole
    rw [reprint, joined_whole whole]
    rfl
  | .list items => fun portable => by
    rw [Portable] at portable
    rw [reprint, canonical, reprintItems_whole (reprint_portable_items items portable)]
  | .dict fields => fun portable => by
    rw [Portable] at portable
    rw [reprint, canonical, reprintFields_whole portable (reprint_portable_fields fields portable)]

theorem reprint_portable_items : ∀ items : List Decoded, PortableItems floats items →
    ∀ item ∈ items, reprint (plainStyle floats) item = canonical floats item
  | [] => fun _ _ none => nomatch none
  | item :: rest => fun portable => by
    rw [PortableItems] at portable
    exact List.forall_mem_cons.mpr ⟨reprint_portable item portable.1, reprint_portable_items rest portable.2⟩

theorem reprint_portable_fields : ∀ fields : List (PyStr × Decoded), PortableFields floats fields →
    ∀ field ∈ fields, reprint (plainStyle floats) field.2 = canonical floats field.2
  | [] => fun _ _ none => nomatch none
  | (_, value) :: rest => fun portable => by
    rw [PortableFields] at portable
    exact List.forall_mem_cons.mpr ⟨reprint_portable value portable.2.1, reprint_portable_fields rest portable.2.2⟩
end

mutual
theorem printable_portable : ∀ (value : Decoded) (depth : Nat), Sound depth value → Portable floats value → Printable (plainStyle floats) depth value
  | .null, _ => fun _ _ => by rw [Printable]; trivial
  | .bool _, _ => fun _ _ => by rw [Printable]; trivial
  | .int value, depth => fun sound _ => by
    have short := sound.2
    rw [dumpable, decide_eq_true_eq] at short
    rwa [Printable]
  | .float literal, _ => fun _ _ => by
    rw [Printable]
    exact fun text printed => floats.floating printed
  | .str text, _ => fun sound _ => by
    have points := sound.1
    rw [Wellformed] at points
    rw [Printable]
    exact printableText_points points
  | .list items, depth => fun sound portable => by
    have within := sound.2
    have wellformed := sound.1
    rw [dumpable, Bool.and_eq_true, decide_eq_true_eq] at within
    rw [Wellformed] at wellformed
    rw [Portable] at portable
    rw [Printable]
    exact ⟨within.1, printable_portable_items items _ wellformed within.2 portable⟩
  | .dict fields, depth => fun sound portable => by
    have within := sound.2
    have wellformed := sound.1
    rw [dumpable, Bool.and_eq_true, decide_eq_true_eq] at within
    rw [Wellformed] at wellformed
    rw [Portable] at portable
    rw [Printable, keys_whole portable]
    exact ⟨within.1, wellformed.1, printable_portable_fields fields _ wellformed.2 within.2 portable⟩

theorem printable_portable_items : ∀ (items : List Decoded) (depth : Nat), WellformedItems items → dumpableItems depth items = true →
    PortableItems floats items → PrintableItems (plainStyle floats) depth items
  | [], _ => fun _ _ _ => by rw [PrintableItems]; trivial
  | item :: rest, depth => fun wellformed within portable => by
    rw [dumpableItems, Bool.and_eq_true] at within
    rw [WellformedItems] at wellformed
    rw [PortableItems] at portable
    rw [PrintableItems]
    exact ⟨printable_portable item depth ⟨wellformed.1, within.1⟩ portable.1, printable_portable_items rest depth wellformed.2 within.2 portable.2⟩

theorem printable_portable_fields : ∀ (fields : List (PyStr × Decoded)) (depth : Nat), WellformedFields fields → dumpableFields depth fields = true →
    PortableFields floats fields → PrintableFields (plainStyle floats) depth fields
  | [], _ => fun _ _ _ => by rw [PrintableFields]; trivial
  | (key, value) :: rest, depth => fun wellformed within portable => by
    rw [dumpableFields, Bool.and_eq_true] at within
    rw [WellformedFields] at wellformed
    rw [PortableFields] at portable
    rw [PrintableFields]
    exact ⟨printableText_points wellformed.1, printable_portable value depth ⟨wellformed.2.1, within.1⟩ portable.2.1,
      printable_portable_fields rest depth wellformed.2.2 within.2 portable.2.2⟩
end

theorem rawDecode_dumps {value : Decoded} (wellformed : Wellformed value) (dumped : dumps floats depth value = some text) :
    scanOnce depth text = .ok (canonical floats value, []) := by
  obtain ⟨within, portable⟩ := (dumps_isSome depth value).mp (Option.isSome_of_mem dumped)
  rw [dumps, if_pos within] at dumped
  have scanned := scanHooked_encode Hooks.none_lawful value depth text [] (printable_portable value depth ⟨wellformed, within⟩ portable) dumped (by
    intro char none
    cases none)
  rw [List.append_nil, scanHooked_none, reprint_portable value portable] at scanned
  exact scanned

theorem float_again (literal : List Char) :
    (floats.text ((floats.text literal).getD literal)).getD ((floats.text literal).getD literal) = (floats.text literal).getD literal := by
  cases printed : floats.text literal with
  | none => simp [printed]
  | some text => simp [floats.again printed]

mutual
theorem canonical_again : ∀ value : Decoded, canonical floats (canonical floats value) = canonical floats value
  | .null => rfl
  | .bool _ => rfl
  | .int _ => rfl
  | .str _ => rfl
  | .float literal => by rw [canonical, canonical, float_again]
  | .list items => by rw [canonical, canonical, canonicalItems_again items]
  | .dict fields => by rw [canonical, canonical, canonicalFields_again fields]

theorem canonicalItems_again : ∀ items : List Decoded, canonicalItems floats (canonicalItems floats items) = canonicalItems floats items
  | [] => rfl
  | item :: rest => by rw [canonicalItems, canonicalItems, canonical_again item, canonicalItems_again rest]

theorem canonicalFields_again : ∀ fields : List (PyStr × Decoded), canonicalFields floats (canonicalFields floats fields) = canonicalFields floats fields
  | [] => rfl
  | (key, value) :: rest => by rw [canonicalFields, canonicalFields, canonical_again value, canonicalFields_again rest]
end

end NovelStudio.Library
