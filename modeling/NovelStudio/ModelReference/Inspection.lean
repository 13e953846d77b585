import Mathlib.Order.Bounds.Basic
import NovelStudio.Library.Readings
import NovelStudio.ModelReference.Primitives

/-! The inspection of a binary model reads nothing outside the buffer the file declares and reports what it has read;
it ends with a value error where it does not end with a report, but for an accessor whose `type` has no hash. -/

namespace NovelStudio.ModelReference

open Library

def IsValueError (raised : Raised) : Prop := ∃ code, raised = .valueError code

/-- Where it fails, it raises a value error. -/
def Closed (computed : Except Raised α) : Prop := ∀ raised, computed = .error raised → IsValueError raised

theorem closed_ok (value : α) : Closed (.ok value : Except Raised α) := nofun

theorem closed_fail (code : String) : Closed (fail code : Except Raised α) := by
  intro raised same
  cases same
  exact ⟨code, rfl⟩

theorem closed_refuse (bad : Bool) (code : String) : Closed (refuse bad code) := by
  intro raised same
  obtain ⟨-, rfl⟩ := reject_error.mp same
  exact ⟨code, rfl⟩

theorem closed_fetch (entry : Option α) (code : String) : Closed (fetch entry (.valueError code) : Except Raised α) := by
  intro raised same
  obtain ⟨-, rfl⟩ := fetch_error.mp same
  exact ⟨code, rfl⟩

theorem closed_some {entry : Option α} {other : Raised} (found : entry ≠ none) : Closed (fetch entry other : Except Raised α) := by
  intro raised same
  exact absurd (fetch_error.mp same).1 found

theorem Closed.bind {first : Except Raised α} {next : α → Except Raised β} (here : Closed first)
    (later : ∀ value, first = .ok value → Closed (next value)) : Closed (first >>= next) := by
  intro raised same
  cases done : first with
  | error failure =>
    rw [done] at same
    cases same
    exact here _ done
  | ok value =>
    rw [done] at same
    exact later value done raised same

theorem closed_integer (value : Option Decoded) (minimum maximum : Nat) : Closed (integer value minimum maximum) := by
  unfold integer
  split
  · split
    · exact closed_ok _
    · exact closed_fail _
  · exact closed_fail _

theorem closed_object (value : Option Decoded) : Closed (object value) := by
  unfold object
  split
  · exact closed_ok _
  · exact closed_fail _

theorem closed_array (value : Option Decoded) (maximum : Nat) (required : Bool) : Closed (array value maximum required) := by
  unfold array
  split
  · split
    · exact closed_fail _
    · exact closed_ok _
  · exact closed_fail _

theorem closed_discard {computed : Except Raised α} (closed : Closed computed) : Closed (discard computed : Except Raised PUnit) := by
  intro raised same
  cases done : computed with
  | ok value =>
    rw [done] at same
    cases same
  | error failure =>
    rw [done] at same
    cases same
    exact closed _ done

theorem closed_forM {check : α → Except Raised PUnit} {items : List α} (each : ∀ item ∈ items, Closed (check item)) :
    Closed (items.forM check) := by
  induction items with
  | nil => exact closed_ok _
  | cons item rest ih =>
    rw [List.forM_eq_forM, List.forM_cons]
    apply (each item (List.mem_cons_self ..)).bind
    intro _ _
    rw [← List.forM_eq_forM]
    exact ih fun other member => each other (List.mem_cons_of_mem _ member)

theorem mapM_error {read : α → Except ε β} {items : List α} {raised : ε} (failed : items.mapM read = .error raised) :
    ∃ before item after, items = before ++ item :: after ∧ (∀ earlier ∈ before, ∃ value, read earlier = .ok value) ∧
      read item = .error raised := by
  induction items with
  | nil =>
    rw [List.mapM_nil] at failed
    cases failed
  | cons item rest ih =>
    rw [List.mapM_cons] at failed
    cases done : read item with
    | error failure =>
      rw [done] at failed
      cases failed
      exact ⟨[], item, rest, rfl, nofun, done⟩
    | ok value =>
      rw [done] at failed
      cases more : rest.mapM read with
      | ok values =>
        simp only [more] at failed
        cases failed
      | error failure =>
        simp only [more] at failed
        cases failed
        obtain ⟨before, other, after, split, earlier, bad⟩ := ih more
        refine ⟨item :: before, other, after, by rw [split]; rfl, ?_, bad⟩
        intro one member
        cases List.mem_cons.mp member with
        | inl here => exact ⟨value, here ▸ done⟩
        | inr later => exact earlier one later

theorem mapM_fails {read : α → Except ε β} {before after : List α} {item : α} {raised : ε}
    (earlier : ∀ one ∈ before, ∃ value, read one = .ok value) (bad : read item = .error raised) :
    (before ++ item :: after).mapM read = .error raised := by
  induction before with
  | nil =>
    rw [List.nil_append, List.mapM_cons, bad]
    rfl
  | cons one rest ih =>
    obtain ⟨value, done⟩ := earlier one (List.mem_cons_self ..)
    rw [List.cons_append, List.mapM_cons, done]
    show (List.mapM read (rest ++ item :: after) >>= _) = _
    rw [ih fun other member => earlier other (List.mem_cons_of_mem _ member)]
    rfl

theorem closed_mapM {read : α → Except Raised β} {items : List α} (each : ∀ item ∈ items, Closed (read item)) : Closed (items.mapM read) := by
  intro raised failed
  obtain ⟨before, item, after, split, -, bad⟩ := mapM_error failed
  exact each item (split ▸ List.mem_append_right _ (List.mem_cons_self ..)) raised bad

theorem closed_inspectJson (literal : List Char → PyFloat) (room : Nat) (pending : List (Decoded × Nat)) :
    Closed (inspectJson literal room pending) := by
  induction room generalizing pending with
  | zero =>
    cases pending with
    | nil => exact closed_ok _
    | cons => exact closed_fail _
  | succ room ih =>
    cases pending with
    | nil => exact closed_ok _
    | cons entry pending =>
      obtain ⟨item, depth⟩ := entry
      unfold inspectJson
      split
      · exact closed_fail _
      · split
        · split
          · exact closed_fail _
          · exact ih _
        · exact ih _
        · split
          · exact closed_fail _
          · exact closed_fail _
          · exact ih _
        · exact ih _

theorem closed_readChunks (room : Nat) (rest : List UInt8) : Closed (readChunks room rest) := by
  induction room generalizing rest with
  | zero =>
    cases rest with
    | nil => exact closed_ok _
    | cons => exact closed_fail _
  | succ room ih =>
    cases rest with
    | nil => exact closed_ok _
    | cons byte rest =>
      unfold readChunks
      apply (closed_refuse _ _).bind
      intro _ _
      apply (closed_refuse _ _).bind
      intro _ _
      apply (ih _).bind
      intro _ _
      exact closed_ok _

theorem closed_readContainer (data : List UInt8) : Closed (readContainer data) := by
  unfold readContainer
  apply (closed_refuse _ _).bind
  intro _ _
  apply (closed_refuse _ _).bind
  intro _ _
  apply (closed_readChunks _ _).bind
  intro chunks _
  split
  · apply (closed_refuse _ _).bind
    intro _ _
    apply (closed_refuse _ _).bind
    intro _ _
    exact closed_ok _
  · exact closed_fail _

theorem closed_loadDocument (depth : Nat) (text : List UInt8) : Closed (loadDocument depth text) := by
  unfold loadDocument
  split
  · exact closed_fail _
  · split
    · exact closed_fail _
    · exact closed_ok _

theorem closed_openGlb (literal : List Char → PyFloat) (depth : Nat) (data : List UInt8) : Closed (openGlb literal depth data) := by
  unfold openGlb
  apply (closed_readContainer _).bind
  intro parts _
  apply (closed_loadDocument _ _).bind
  intro _ _
  apply (closed_object _).bind
  intro _ _
  apply (closed_inspectJson _ _ _).bind
  intro _ _
  apply (closed_object _).bind
  intro _ _
  apply (closed_refuse _ _).bind
  intro _ _
  apply (closed_refuse _ _).bind
  intro _ _
  apply (closed_array _ _ _).bind
  intro _ _
  apply (closed_object _).bind
  intro _ _
  apply (closed_integer _ _ _).bind
  intro _ _
  apply (closed_refuse _ _).bind
  intro _ _
  exact closed_ok _

theorem integer_ok (read : integer value minimum maximum = .ok number) : minimum ≤ number ∧ number ≤ maximum := by
  unfold integer at read
  split at read
  · split at read
    · rename_i inside
      cases read
      omega
    · cases read
  · cases read

theorem closed_readStride (value : Option Decoded) : Closed (readStride value) := by
  unfold readStride
  split
  · exact closed_ok _
  · apply (closed_integer _ _ _).bind
    intro _ _
    apply (closed_refuse _ _).bind
    intro _ _
    exact closed_ok _

theorem closed_readView (declared : Nat) (raw : Decoded) : Closed (readView declared raw) := by
  unfold readView
  apply (closed_object _).bind
  intro _ _
  split
  · apply (closed_integer _ _ _).bind
    intro _ _
    apply (closed_integer _ _ _).bind
    intro _ _
    apply (closed_refuse _ _).bind
    intro _ _
    apply (closed_readStride _).bind
    intro _ _
    apply (closed_refuse _ _).bind
    intro _ _
    exact closed_ok _
  · exact closed_fail _

theorem readView_ok {declared : Nat} {view : View} (read : readView declared raw = .ok view) : view.offset + view.length ≤ declared := by
  obtain ⟨_, -, read⟩ := bind_ok.mp read
  split at read
  · obtain ⟨start, -, read⟩ := bind_ok.mp read
    obtain ⟨size, -, read⟩ := bind_ok.mp read
    obtain ⟨_, inside, read⟩ := bind_ok.mp read
    obtain ⟨stride, -, read⟩ := bind_ok.mp read
    obtain ⟨_, -, same⟩ := bind_ok.mp read
    cases pure_ok.mp same
    rw [refuse, reject_ok, decide_eq_false_iff_not] at inside
    exact Nat.le_of_not_lt inside
  · cases read

theorem array_ok (read : array value maximum true = .ok items) : items ≠ [] := by
  unfold array at read
  split at read
  · split at read
    · cases read
    · rename_i bounds
      cases read
      intro empty
      exact bounds (Or.inr ⟨rfl, empty⟩)
  · cases read

theorem closed_readViews (opened : Opened) : Closed (readViews opened) := by
  apply (closed_array _ _ _).bind
  intro views _
  exact closed_mapM fun raw _ => closed_readView _ raw

theorem readViews_ok {opened : Opened} {views : List View} (read : readViews opened = .ok views) :
    views ≠ [] ∧ ∀ view ∈ views, view.offset + view.length ≤ opened.declared := by
  obtain ⟨raws, listed, read⟩ := bind_ok.mp read
  have each := mapM_ok.mp read
  constructor
  · intro empty
    subst empty
    exact array_ok listed (List.forall₂_nil_right_iff.mp each)
  · intro view member
    obtain ⟨raw, -, one⟩ := exists_of_forall₂ each member
    exact readView_ok one

/-- An accessor without `sparse` whose `type` is a list or an object. -/
def Unhashable (raw : Decoded) : Prop :=
  ∃ item, raw = .dict item ∧ get item "sparse" = none ∧ ((∃ items, get item "type" = some (.list items)) ∨ ∃ fields, get item "type" = some (.dict fields))

theorem readAccessor_typeError (views : List View) (unhashable : Unhashable raw) : readAccessor views raw = .error .typeError := by
  obtain ⟨item, rfl, dense, kind⟩ := unhashable
  have width : widthOf (get item "type") = .error .typeError := by
    cases kind with
    | inl list => rw [list.choose_spec]; rfl
    | inr dict => rw [dict.choose_spec]; rfl
  show (refuse (get item "sparse").isSome _ >>= fun _ => widthOf (get item "type") >>= _) = _
  rw [dense, width]
  rfl

theorem closed_widthOf {value : Option Decoded} (list : ∀ items, value ≠ some (.list items)) (dict : ∀ fields, value ≠ some (.dict fields)) :
    Closed (widthOf value) := by
  unfold widthOf
  split
  · exact absurd rfl (list _)
  · exact absurd rfl (dict _)
  · exact closed_fetch _ _
  · exact closed_fail _

theorem closed_readAccessor {views : List View} (filled : views ≠ []) (hashable : ¬ Unhashable raw) : Closed (readAccessor views raw) := by
  unfold readAccessor
  apply (closed_object _).bind
  intro item isObject
  apply (closed_refuse _ _).bind
  intro _ dense
  have shape : raw = .dict item := by
    cases raw <;> cases isObject
    rfl
  rw [refuse, reject_ok, Option.isSome_eq_false_iff, Option.isNone_iff_eq_none] at dense
  apply (closed_widthOf (fun items same => hashable ⟨item, shape, dense, Or.inl ⟨items, same⟩⟩)
    fun fields same => hashable ⟨item, shape, dense, Or.inr ⟨fields, same⟩⟩).bind
  intro width _
  apply (closed_fetch _ _).bind
  intro size _
  apply (closed_refuse _ _).bind
  intro _ _
  apply (closed_integer _ _ _).bind
  intro place inside
  have bounds := integer_ok inside
  have positive := List.length_pos_iff.mpr filled
  have there : views[place]? ≠ none := by
    rw [Ne, List.getElem?_eq_none_iff]
    omega
  apply (closed_some there).bind
  intro view _
  apply (closed_integer _ _ _).bind
  intro count _
  apply (closed_integer _ _ _).bind
  intro within _
  apply (closed_refuse _ _).bind
  intro _ _
  exact closed_ok _

/-- What is read with an accessor lies inside the buffer. -/
structure Parsed.Fits (declared : Nat) (accessor : Parsed) : Prop where
  counted : 1 ≤ accessor.count
  size : componentSize (get accessor.item "componentType") = some accessor.size
  width : widthOf (get accessor.item "type") = .ok accessor.width
  inside : accessor.start + (accessor.count - 1) * accessor.stride + accessor.size * accessor.width ≤ declared

theorem readAccessor_ok {views : List View} {accessor : Parsed} (fit : ∀ view ∈ views, view.offset + view.length ≤ declared)
    (read : readAccessor views raw = .ok accessor) : accessor.Fits declared := by
  obtain ⟨item, -, read⟩ := bind_ok.mp read
  obtain ⟨_, -, read⟩ := bind_ok.mp read
  obtain ⟨width, widthAt, read⟩ := bind_ok.mp read
  obtain ⟨size, sizeAt, read⟩ := bind_ok.mp read
  obtain ⟨_, -, read⟩ := bind_ok.mp read
  obtain ⟨place, -, read⟩ := bind_ok.mp read
  obtain ⟨view, viewAt, read⟩ := bind_ok.mp read
  obtain ⟨count, counted, read⟩ := bind_ok.mp read
  obtain ⟨within, -, read⟩ := bind_ok.mp read
  obtain ⟨_, inside, same⟩ := bind_ok.mp read
  cases pure_ok.mp same
  have whole := fit view (List.mem_of_getElem? (fetch_ok.mp viewAt))
  rw [refuse, reject_ok, Bool.or_eq_false_iff, decide_eq_false_iff_not] at inside
  refine ⟨(integer_ok counted).1, fetch_ok.mp sizeAt, widthAt, ?_⟩
  have last := inside.2
  show view.offset + within + (count - 1) * view.stride.getD (size * width) + size * width ≤ declared
  omega

/-- No accessor has a `type` without a hash when it is come to: the file opens, its views pass, and so do the accessors before. -/
def HashableTypes (literal : List Char → PyFloat) (depth : Nat) (data : List UInt8) : Prop :=
  ∀ opened views before raw after, openGlb literal depth data = .ok opened → readViews opened = .ok views →
    accessorsOf opened = .ok (before ++ raw :: after) → (∀ earlier ∈ before, ∃ accessor, readAccessor views earlier = .ok accessor) →
      ¬ Unhashable raw

theorem closed_readTables {opened : Opened} (found : openGlb literal depth data = .ok opened) (hashable : HashableTypes literal depth data) :
    Closed (readTables opened) := by
  apply (closed_readViews _).bind
  intro views viewed
  apply (closed_array _ _ _).bind
  intro accessors listed
  refine Closed.bind ?_ ?_
  · intro raised failed
    obtain ⟨before, raw, after, rfl, earlier, bad⟩ := mapM_error failed
    exact closed_readAccessor (readViews_ok viewed).1 (hashable opened views before raw after found viewed listed earlier) raised bad
  · intro parsed _
    apply (closed_array _ _ _).bind
    intro meshes _
    exact closed_ok _

theorem readTables_ok {opened : Opened} {parsed : List Parsed} {meshes : List Decoded} (read : readTables opened = .ok (parsed, meshes)) :
    parsed ≠ [] ∧ (∀ accessor ∈ parsed, accessor.Fits opened.declared) ∧ meshes ≠ [] := by
  obtain ⟨views, viewed, read⟩ := bind_ok.mp read
  obtain ⟨accessors, listed, read⟩ := bind_ok.mp read
  obtain ⟨entries, parsing, read⟩ := bind_ok.mp read
  obtain ⟨tables, meshed, same⟩ := bind_ok.mp read
  cases pure_ok.mp same
  have each := mapM_ok.mp parsing
  refine ⟨?_, ?_, array_ok meshed⟩
  · intro empty
    subst empty
    exact array_ok listed (List.forall₂_nil_right_iff.mp each)
  · intro accessor member
    obtain ⟨raw, -, one⟩ := exists_of_forall₂ each member
    exact readAccessor_ok (readViews_ok viewed).2 one

theorem openGlb_ok {opened : Opened} (found : openGlb literal depth data = .ok opened) : opened.declared ≤ opened.binary.length := by
  obtain ⟨parts, -, found⟩ := bind_ok.mp found
  obtain ⟨loaded, -, found⟩ := bind_ok.mp found
  obtain ⟨document, -, found⟩ := bind_ok.mp found
  obtain ⟨_, -, found⟩ := bind_ok.mp found
  obtain ⟨asset, -, found⟩ := bind_ok.mp found
  obtain ⟨_, -, found⟩ := bind_ok.mp found
  obtain ⟨_, -, found⟩ := bind_ok.mp found
  obtain ⟨buffers, -, found⟩ := bind_ok.mp found
  obtain ⟨buffer, -, found⟩ := bind_ok.mp found
  obtain ⟨declared, -, found⟩ := bind_ok.mp found
  obtain ⟨_, enough, same⟩ := bind_ok.mp found
  cases pure_ok.mp same
  rw [refuse, reject_ok, Bool.or_eq_false_iff, Bool.or_eq_false_iff, decide_eq_false_iff_not] at enough
  exact Nat.le_of_not_lt enough.1.1

/-- The program reads inside the buffer, raises value errors only, and its results have the property. -/
abbrev Safe (declared : Nat) (program : Reading α) (property : α → Prop) : Prop :=
  Noting.Holds (fun read : Read => read.offset + read.size ≤ declared) IsValueError program property

theorem Safe.silent {computed : Except Raised α} {property : α → Prop} (closed : Closed computed)
    (result : ∀ value, computed = .ok value → property value) : Safe declared (Noting.silent computed) property :=
  Noting.Holds.silent result closed

theorem safe_unpack {binary : List UInt8} (inside : offset + size ≤ declared) (held : declared ≤ binary.length) :
    Safe declared (unpack binary offset size) fun bytes => bytes = (binary.drop offset).take size := by
  have enough : unpackFrom binary offset size = .ok ((binary.drop offset).take size) := if_pos (by omega)
  have noted : Safe declared (Noting.note (Read.mk offset size)) fun _ => True := Noting.Holds.entry (Read.mk offset size) inside
  apply noted.bind
  intro _ _
  rw [enough]
  exact Noting.Holds.result _ rfl

/-- The point with an index, where the bytes hold one. -/
def pointAt (binary : List UInt8) (accessor : Parsed) (index : Nat) : Option Point :=
  pointOf ((binary.drop (accessor.start + index * accessor.stride)).take 12)

def indexAt (binary : List UInt8) (accessor : Parsed) (index : Nat) : Nat :=
  word ((binary.drop (accessor.start + index * accessor.stride)).take accessor.size)

theorem Parsed.Fits.within {accessor : Parsed} (fits : accessor.Fits declared) (below : index < accessor.count) :
    accessor.start + index * accessor.stride + accessor.size * accessor.width ≤ declared := by
  have inside := fits.inside
  have steps : index * accessor.stride ≤ (accessor.count - 1) * accessor.stride := Nat.mul_le_mul_right _ (by omega)
  omega

theorem safe_readPoint {binary : List UInt8} {accessor : Parsed} (fits : accessor.Fits declared) (held : declared ≤ binary.length)
    (vector : accessor.size * accessor.width = 12) (below : index < accessor.count) :
    Safe declared (readPoint binary accessor index) fun point => pointAt binary accessor index = some point := by
  have inside := fits.within below
  rw [vector] at inside
  apply (safe_unpack inside held).bind
  intro bytes same
  apply Safe.silent (closed_fetch _ _)
  intro point found
  rw [pointAt, ← same]
  exact fetch_ok.mp found

theorem safe_readIndex {binary : List UInt8} {accessor : Parsed} (fits : accessor.Fits declared) (held : declared ≤ binary.length)
    (scalar : accessor.width = 1) (below : index < accessor.count) :
    Safe declared (readIndex binary accessor count index) fun number => number = indexAt binary accessor index ∧ number < count := by
  have inside := fits.within below
  rw [scalar, Nat.mul_one] at inside
  apply (safe_unpack inside held).bind
  intro bytes same
  have checked : Safe declared (Noting.silent (refuse (count ≤ word bytes) "MODEL_REFERENCE_GLB_INDEX_OUT_OF_RANGE")) fun _ => word bytes < count := by
    apply Safe.silent (closed_refuse _ _)
    intro _ passed
    rw [refuse, reject_ok, decide_eq_false_iff_not] at passed
    exact Nat.lt_of_not_le passed
  apply checked.bind
  intro _ small
  apply Noting.Holds.result
  rw [indexAt, ← same]
  exact ⟨rfl, small⟩

theorem isText_iff : isText value name = true ↔ value = some (.str (pyStr name)) := by
  unfold isText
  split
  · rw [decide_eq_true_eq, Option.some.injEq, Decoded.str.injEq]
  · rename_i other
    constructor
    · intro bad
      cases bad
    · intro same
      exact absurd same (other _)

theorem componentType_ok (found : componentType item = some number) : get item "componentType" = some (.int number) := by
  unfold componentType at found
  split at found
  · rename_i value here
    cases found
    exact here
  · cases found

theorem Parsed.Fits.vector {accessor : Parsed} (fits : accessor.Fits declared) (kind : isText (get accessor.item "type") "VEC3" = true)
    (component : componentType accessor.item = some 5126) : accessor.size * accessor.width = 12 := by
  have width := fits.width
  have size := fits.size
  have four : componentSize (some (.int 5126)) = some 4 := rfl
  have three : widthOf (some (.str (pyStr "VEC3"))) = .ok 3 := rfl
  rw [isText_iff.mp kind, three, Except.ok.injEq] at width
  rw [componentType_ok component, four, Option.some.injEq] at size
  rw [← width, ← size]

theorem Parsed.Fits.scalar {accessor : Parsed} (fits : accessor.Fits declared) (kind : isText (get accessor.item "type") "SCALAR" = true) :
    accessor.width = 1 := by
  have width := fits.width
  have one : widthOf (some (.str (pyStr "SCALAR"))) = .ok 1 := rfl
  rw [isText_iff.mp kind, one, Except.ok.injEq] at width
  exact width.symm

structure Measured where
  positions : List Point
  indices : List Nat

/-- The indices of a primitive: those of its accessor, or all its positions in order. -/
def IndicesOf (binary : List UInt8) (parsed : List Parsed) (primitive : Fields) (count : Nat) (indices : List Nat) : Prop :=
  (get primitive "indices" = none ∧ indices = List.range count) ∨
    ∃ value accessor, get primitive "indices" = some value ∧ accessorAt parsed (some value) = .ok accessor ∧
      indices = (List.range accessor.count).map (indexAt binary accessor)

/-- The positions and indices of a primitive, as its accessors place them in the binary. -/
structure Measures (binary : List UInt8) (parsed : List Parsed) (raw : Decoded) (measured : Measured) : Prop where
  placed : ∃ primitive attributes position, raw = .dict primitive ∧ get primitive "attributes" = some (.dict attributes) ∧
    accessorAt parsed (get attributes "POSITION") = .ok position ∧
    List.Forall₂ (fun index point => pointAt binary position index = some point) (List.range position.count) measured.positions ∧
    IndicesOf binary parsed primitive position.count measured.indices
  filled : measured.positions ≠ []
  below : ∀ index ∈ measured.indices, index < measured.positions.length

variable {parsed : List Parsed} {binary : List UInt8} {literal : List Char → PyFloat} {includeGeometry : Bool}

theorem closed_accessorAt (filled : parsed ≠ []) (value : Option Decoded) : Closed (accessorAt parsed value) := by
  apply (closed_integer _ _ _).bind
  intro place inside
  have bounds := integer_ok inside
  have positive := List.length_pos_iff.mpr filled
  apply closed_some
  rw [Ne, List.getElem?_eq_none_iff]
  omega

theorem accessorAt_ok (found : accessorAt parsed value = .ok accessor) : accessor ∈ parsed := by
  obtain ⟨place, -, there⟩ := bind_ok.mp found
  exact List.mem_of_getElem? (fetch_ok.mp there)

theorem closed_choosePositions (filled : parsed ≠ []) (tally : Tally) (raw : Decoded) :
    Closed (choosePositions literal includeGeometry parsed tally raw) := by
  apply (closed_object _).bind
  intro _ _
  apply (closed_refuse _ _).bind
  intro _ _
  apply (closed_object _).bind
  intro _ _
  refine Closed.bind (closed_forM fun _ _ => closed_discard (closed_integer _ _ _)) ?_
  intro _ _
  apply (closed_accessorAt filled _).bind
  intro _ _
  apply (closed_refuse _ _).bind
  intro _ _
  apply (closed_refuse _ _).bind
  intro _ _
  apply (closed_refuse _ _).bind
  intro _ _
  exact closed_ok _

theorem choosePositions_ok {position : Parsed} (chosen : choosePositions literal includeGeometry parsed tally raw = .ok (primitive, position)) :
    raw = .dict primitive ∧ (∃ attributes, get primitive "attributes" = some (.dict attributes) ∧
      accessorAt parsed (get attributes "POSITION") = .ok position) ∧ isText (get position.item "type") "VEC3" = true ∧
      componentType position.item = some 5126 := by
  obtain ⟨fields, isObject, chosen⟩ := bind_ok.mp chosen
  obtain ⟨_, -, chosen⟩ := bind_ok.mp chosen
  obtain ⟨attributes, attributed, chosen⟩ := bind_ok.mp chosen
  obtain ⟨_, -, chosen⟩ := bind_ok.mp chosen
  obtain ⟨accessor, found, chosen⟩ := bind_ok.mp chosen
  obtain ⟨_, kinds, chosen⟩ := bind_ok.mp chosen
  obtain ⟨_, -, chosen⟩ := bind_ok.mp chosen
  obtain ⟨_, -, same⟩ := bind_ok.mp chosen
  cases pure_ok.mp same
  rw [refuse, reject_ok, Bool.or_eq_false_iff, Bool.or_eq_false_iff, Bool.not_eq_false', decide_eq_false_iff_not, not_not] at kinds
  refine ⟨?_, ⟨attributes, ?_, found⟩, kinds.1.1, kinds.1.2⟩
  · cases raw <;> cases isObject
    rfl
  · unfold object at attributed
    split at attributed
    · rename_i here
      cases attributed
      exact here
    · cases attributed

theorem closed_chooseIndices (filled : parsed ≠ []) (tally : Tally) (value : Decoded) :
    Closed (chooseIndices literal includeGeometry parsed tally value) := by
  apply (closed_accessorAt filled _).bind
  intro _ _
  apply (closed_refuse _ _).bind
  intro _ _
  apply (closed_refuse _ _).bind
  intro _ _
  exact closed_ok _

theorem chooseIndices_ok {accessor : Parsed} (chosen : chooseIndices literal includeGeometry parsed tally value = .ok accessor) :
    accessorAt parsed (some value) = .ok accessor ∧ isText (get accessor.item "type") "SCALAR" = true := by
  obtain ⟨entry, found, chosen⟩ := bind_ok.mp chosen
  obtain ⟨_, kinds, chosen⟩ := bind_ok.mp chosen
  obtain ⟨_, -, same⟩ := bind_ok.mp chosen
  cases pure_ok.mp same
  rw [refuse, reject_ok, Bool.or_eq_false_iff, Bool.or_eq_false_iff, Bool.not_eq_false'] at kinds
  exact ⟨found, kinds.1.1⟩

theorem forall₂_range {related : Nat → α → Prop} {results : List α} (each : List.Forall₂ related (List.range count) results) :
    results.length = count := by
  rw [← each.length_eq, List.length_range]

section

variable (filled : parsed ≠ []) (fit : ∀ accessor ∈ parsed, accessor.Fits declared) (held : declared ≤ binary.length)

include filled fit held

theorem safe_readIndices (tally : Tally) (primitive : Fields) (count : Nat) :
    Safe declared (readIndices literal includeGeometry binary parsed tally primitive count) fun indices =>
      IndicesOf binary parsed primitive count indices ∧ ∀ index ∈ indices, index < count := by
  unfold readIndices
  cases found : get primitive "indices" with
  | none =>
    apply Noting.Holds.result
    refine ⟨Or.inl ⟨found, rfl⟩, ?_⟩
    intro index member
    exact List.mem_range.mp member
  | some value =>
    have chosen : Safe declared (Noting.silent (chooseIndices literal includeGeometry parsed tally value)) fun accessor =>
        accessorAt parsed (some value) = .ok accessor ∧ isText (get accessor.item "type") "SCALAR" = true :=
      Safe.silent (closed_chooseIndices filled tally value) fun _ => chooseIndices_ok
    apply chosen.bind
    intro accessor ⟨there, kind⟩
    have fits := fit accessor (accessorAt_ok there)
    have read : Safe declared ((List.range accessor.count).mapM (readIndex binary accessor count)) (List.Forall₂
        (fun index number => number = indexAt binary accessor index ∧ number < count) (List.range accessor.count)) := by
      apply Noting.Holds.map
      intro index member
      exact safe_readIndex fits held (fits.scalar kind) (List.mem_range.mp member)
    apply read.mono
    intro numbers each
    constructor
    · refine Or.inr ⟨value, accessor, found, there, ?_⟩
      have same : List.Forall₂ (fun index number => indexAt binary accessor index = number) (List.range accessor.count) numbers :=
        each.imp fun _ _ read => read.1.symm
      have mapped := List.forall₂_map_left_iff.mpr same
      rw [List.forall₂_eq_eq_eq] at mapped
      exact mapped.symm
    · intro number member
      obtain ⟨index, -, -, small⟩ := exists_of_forall₂ each member
      exact small

theorem safe_readPrimitive (tally : Tally) (raw : Decoded) :
    Safe declared (readPrimitive literal includeGeometry binary parsed tally raw) fun next =>
      ∃ measured, Measures binary parsed raw measured ∧ next = tally.add includeGeometry measured.positions measured.indices := by
  have chosen : Safe declared (Noting.silent (choosePositions literal includeGeometry parsed tally raw)) fun entry =>
      choosePositions literal includeGeometry parsed tally raw = .ok entry :=
    Safe.silent (closed_choosePositions filled tally raw) fun _ same => same
  apply chosen.bind
  intro ⟨primitive, position⟩ choice
  obtain ⟨shape, ⟨attributes, attributed, there⟩, kind, component⟩ := choosePositions_ok choice
  have fits := fit position (accessorAt_ok there)
  have points : Safe declared ((List.range position.count).mapM (readPoint binary position)) (List.Forall₂
      (fun index point => pointAt binary position index = some point) (List.range position.count)) := by
    apply Noting.Holds.map
    intro index member
    exact safe_readPoint fits held (fits.vector kind component) (List.mem_range.mp member)
  apply points.bind
  intro positions each
  have count := forall₂_range each
  apply (safe_readIndices filled fit held tally primitive position.count).bind
  intro indices ⟨indexed, small⟩
  have counted : Safe declared (Noting.silent (refuse (maxIndices < tally.indices + indices.length || indices.length % 3 ≠ 0)
      "MODEL_REFERENCE_GLB_TRIANGLES_INVALID")) fun _ => True := Safe.silent (closed_refuse _ _) fun _ _ => trivial
  apply counted.bind
  intro _ _
  have bounded : Safe declared (Noting.silent (refuse (includeGeometry && 2048 < tally.triangles + indices.length / 3)
      "MODEL_REFERENCE_GLB_PREVIEW_LIMIT")) fun _ => True := Safe.silent (closed_refuse _ _) fun _ _ => trivial
  apply bounded.bind
  intro _ _
  apply Noting.Holds.result
  refine ⟨⟨positions, indices⟩, ⟨⟨primitive, attributes, position, shape, attributed, there, each, indexed⟩, ?_, ?_⟩, rfl⟩
  · intro empty
    have some_ := fits.counted
    have none : positions.length = 0 := by rw [show positions = [] from empty]; rfl
    omega
  · rw [count]
    exact small

theorem safe_readMesh (tally : Tally) (raw : Decoded) :
    Safe declared (readMesh literal includeGeometry binary parsed tally raw) fun next =>
      ∃ primitives measured, primitivesOf literal raw = .ok primitives ∧ primitives ≠ [] ∧ List.Forall₂ (Measures binary parsed) primitives measured ∧
        next = measured.foldl (fun tally one => tally.add includeGeometry one.positions one.indices) tally := by
  have closed : Closed (primitivesOf literal raw) := by
    apply (closed_object _).bind
    intro _ _
    apply (closed_refuse _ _).bind
    intro _ _
    exact closed_array _ _ _
  have listed : Safe declared (Noting.silent (primitivesOf literal raw)) fun primitives => primitivesOf literal raw = .ok primitives :=
    Safe.silent closed fun _ same => same
  apply listed.bind
  intro primitives found
  have some_ : primitives ≠ [] := by
    obtain ⟨mesh, -, found⟩ := bind_ok.mp found
    obtain ⟨_, -, found⟩ := bind_ok.mp found
    exact array_ok found
  have looped : Safe declared (primitives.foldlM (readPrimitive literal includeGeometry binary parsed) tally) fun next =>
      ∃ measured, List.Forall₂ (Measures binary parsed) primitives measured ∧
        next = measured.foldl (fun tally one => tally.add includeGeometry one.positions one.indices) tally := by
    apply Noting.Holds.loop (motive := fun before next => ∃ measured, List.Forall₂ (Measures binary parsed) before measured ∧
      next = measured.foldl (fun tally one => tally.add includeGeometry one.positions one.indices) tally)
    · intro before item state _ ⟨measured, each, same⟩
      apply (safe_readPrimitive filled fit held state item).mono
      intro next ⟨one, measures, added⟩
      refine ⟨measured ++ [one], List.rel_append each (.cons measures .nil), ?_⟩
      rw [List.foldl_append, ← same]
      exact added
    · exact ⟨[], .nil, rfl⟩
  apply looped.mono
  intro next ⟨measured, each, same⟩
  exact ⟨primitives, measured, found, some_, each, same⟩

theorem safe_readMeshes (meshes : List Decoded) (tally : Tally) :
    Safe declared (meshes.foldlM (readMesh literal includeGeometry binary parsed) tally) fun next =>
      ∃ primitives measured, List.Forall₂ (fun mesh listed => primitivesOf literal mesh = .ok listed ∧ listed ≠ []) meshes primitives ∧
        List.Forall₂ (Measures binary parsed) primitives.flatten measured ∧
        next = measured.foldl (fun tally one => tally.add includeGeometry one.positions one.indices) tally := by
  apply Noting.Holds.loop (motive := fun before next =>
    ∃ primitives measured, List.Forall₂ (fun mesh listed => primitivesOf literal mesh = .ok listed ∧ listed ≠ []) before primitives ∧
      List.Forall₂ (Measures binary parsed) primitives.flatten measured ∧
      next = measured.foldl (fun tally one => tally.add includeGeometry one.positions one.indices) tally)
  · intro before item state _ ⟨primitives, measured, meshes, each, same⟩
    apply (safe_readMesh filled fit held state item).mono
    intro next ⟨listed, more, found, some_, measures, added⟩
    refine ⟨primitives ++ [listed], measured ++ more, List.rel_append meshes (.cons ⟨found, some_⟩ .nil), ?_, ?_⟩
    · rw [List.flatten_append, List.flatten_singleton]
      exact List.rel_append each measures
    · rw [List.foldl_append, ← same]
      exact added
  · exact ⟨[], [], .nil, .nil, rfl⟩

end

theorem foldl_add (measured : List Measured) (tally : Tally) :
    measured.foldl (fun tally one => tally.add includeGeometry one.positions one.indices) tally =
      { vertices := tally.vertices + (measured.map fun one => one.positions.length).sum
        indices := tally.indices + (measured.map fun one => one.indices.length).sum
        primitives := tally.primitives + measured.length
        triangles := tally.triangles + (measured.map fun one => one.indices.length / 3).sum
        bounds := (measured.flatMap Measured.positions).foldl widen tally.bounds
        preview := if includeGeometry then tally.preview ++ measured.map fun one => ⟨one.positions, triples one.indices⟩ else tally.preview } := by
  induction measured generalizing tally with
  | nil => cases includeGeometry <;> simp
  | cons one rest ih =>
    rw [List.foldl_cons, ih]
    cases includeGeometry <;> simp [Tally.add, Nat.add_assoc, Nat.add_comm 1]

/-- The least and the greatest of a coordinate. -/
def Extent (coordinate : Point → ℚ) (points : List Point) (least greatest : ℚ) : Prop :=
  IsLeast {value | ∃ point ∈ points, coordinate point = value} least ∧ IsGreatest {value | ∃ point ∈ points, coordinate point = value} greatest

theorem extent_snoc {points : List Point} (extent : Extent coordinate points least greatest) (point : Point) :
    Extent coordinate (points ++ [point]) (min least (coordinate point)) (max greatest (coordinate point)) := by
  have more : {value | ∃ other ∈ points ++ [point], coordinate other = value} =
      insert (coordinate point) {value | ∃ other ∈ points, coordinate other = value} := by
    ext value
    simp only [List.mem_append, List.mem_singleton, Set.mem_ofPred_eq, Set.mem_insert_iff]
    constructor
    · intro ⟨other, member, same⟩
      cases member with
      | inl old => exact Or.inr ⟨other, old, same⟩
      | inr new => exact Or.inl (new ▸ same.symm)
    · intro member
      cases member with
      | inl new => exact ⟨point, Or.inr rfl, new.symm⟩
      | inr old =>
        obtain ⟨other, inside, same⟩ := old
        exact ⟨other, Or.inl inside, same⟩
  rw [Extent, more, min_comm, max_comm]
  exact ⟨extent.1.insert _, extent.2.insert _⟩

/-- The bounds are the least and the greatest coordinates on each axis. -/
def Tight (points : List Point) : Option (Point × Point) → Prop
  | none => points = []
  | some (least, greatest) => Extent Point.x points least.x greatest.x ∧ Extent Point.y points least.y greatest.y ∧
      Extent Point.z points least.z greatest.z

theorem extent_single (coordinate : Point → ℚ) (point : Point) : Extent coordinate [point] (coordinate point) (coordinate point) := by
  have alone : {value | ∃ other ∈ [point], coordinate other = value} = {coordinate point} := by
    ext value
    simp only [List.mem_singleton, exists_eq_left, Set.mem_ofPred_eq, Set.mem_singleton_iff]
    exact eq_comm
  rw [Extent, alone]
  exact ⟨isLeast_singleton, isGreatest_singleton⟩

theorem tight_foldl {before : List Point} {bounds : Option (Point × Point)} (tight : Tight before bounds) (points : List Point) :
    Tight (before ++ points) (points.foldl widen bounds) := by
  induction points generalizing before bounds with
  | nil => rwa [List.append_nil]
  | cons point rest ih =>
    rw [List.append_cons, List.foldl_cons]
    apply ih
    cases bounds with
    | none =>
      cases (tight : before = [])
      exact ⟨extent_single _ _, extent_single _ _, extent_single _ _⟩
    | some pair =>
      obtain ⟨least, greatest⟩ := pair
      exact ⟨extent_snoc tight.1 point, extent_snoc tight.2.1 point, extent_snoc tight.2.2 point⟩

/-- What a report says of the file: it is of the primitives of all meshes and of what they measure. -/
structure Reports (literal : List Char → PyFloat) (includeGeometry : Bool) (depth : Nat) (data : List UInt8) (inspection : Inspection)
    (opened : Opened) (parsed : List Parsed) (meshes : List Decoded) (primitives : List (List Decoded)) (measured : List Measured) : Prop where
  opens : openGlb literal depth data = .ok opened
  tables : readTables opened = .ok (parsed, meshes)
  listed : List.Forall₂ (fun mesh primitives => primitivesOf literal mesh = .ok primitives) meshes primitives
  measures : List.Forall₂ (Measures opened.binary parsed) primitives.flatten measured
  meshCount : inspection.meshCount = meshes.length
  primitiveCount : inspection.primitiveCount = measured.length
  positionCount : inspection.positionCount = (measured.map fun one => one.positions.length).sum
  triangleCount : inspection.triangleCount = (measured.map fun one => one.indices.length / 3).sum
  bounds : ∃ least greatest, inspection.bounds = some (least, greatest) ∧ Extent Point.x (measured.flatMap Measured.positions) least.x greatest.x ∧
    Extent Point.y (measured.flatMap Measured.positions) least.y greatest.y ∧ Extent Point.z (measured.flatMap Measured.positions) least.z greatest.z
  preview : inspection.preview = if includeGeometry then measured.map fun one => ⟨one.positions, triples one.indices⟩ else []
  triangles : ∀ geometry ∈ inspection.preview, ∀ triangle ∈ geometry.triangles, ∀ index ∈ triangle, index < geometry.positions.length

/-- The inspection of a file as it should be: no failure but a value error, no read outside the declared buffer, and a true report. -/
structure Sound (literal : List Char → PyFloat) (includeGeometry : Bool) (depth : Nat) (data : List UInt8) : Prop where
  closed : ∀ raised, (Noting.start (inspectStaticGlb literal includeGeometry depth data) []).1 = .error raised → IsValueError raised
  inside : ∀ read ∈ (Noting.start (inspectStaticGlb literal includeGeometry depth data) []).2,
    ∃ opened, openGlb literal depth data = .ok opened ∧ read.offset + read.size ≤ opened.declared
  reports : ∀ inspection, (Noting.start (inspectStaticGlb literal includeGeometry depth data) []).1 = .ok inspection →
    ∃ opened parsed meshes primitives measured, Reports literal includeGeometry depth data inspection opened parsed meshes primitives measured

theorem mem_triples {indices triangle : List Nat} (listed : triangle ∈ triples indices) (member : index ∈ triangle) : index ∈ indices := by
  obtain ⟨place, -, rfl⟩ := List.mem_map.mp listed
  exact List.mem_of_mem_drop (List.mem_of_mem_take member)

theorem closed_checkNode (literal : List Char → PyFloat) (meshes : Nat) (raw : Decoded) : Closed (checkNode literal meshes raw) := by
  apply (closed_object _).bind
  intro _ _
  apply (closed_refuse _ _).bind
  intro _ _
  split
  · exact closed_ok _
  · exact closed_discard (closed_integer _ _ _)

theorem safe_rest {opened : Opened} {parsed : List Parsed} {meshes : List Decoded} (found : openGlb literal depth data = .ok opened)
    (tables : readTables opened = .ok (parsed, meshes)) :
    Safe opened.declared (do
      let tally ← meshes.foldlM (readMesh literal includeGeometry opened.binary parsed) ⟨0, 0, 0, 0, none, []⟩
      let nodes ← Noting.silent (array (some ((get opened.document "nodes").getD (.list []))) 256 false)
      Noting.silent (nodes.forM (checkNode literal meshes.length))
      return (⟨data.length, meshes.length, nodes.length, tally.primitives, tally.vertices, tally.triangles, tally.bounds, tally.preview⟩ : Inspection))
      fun inspection => ∃ primitives measured, Reports literal includeGeometry depth data inspection opened parsed meshes primitives measured := by
  obtain ⟨filled, fit, some_⟩ := readTables_ok tables
  apply (safe_readMeshes filled fit (openGlb_ok found) meshes ⟨0, 0, 0, 0, none, []⟩).bind
  intro tally ⟨primitives, measured, listed, measures, added⟩
  have nodesListed : Safe opened.declared (Noting.silent (array (some ((get opened.document "nodes").getD (.list []))) 256 false)) fun _ => True :=
    Safe.silent (closed_array _ _ _) fun _ _ => trivial
  apply nodesListed.bind
  intro nodes _
  have checked : Safe opened.declared (Noting.silent (nodes.forM (checkNode literal meshes.length))) fun _ => True :=
    Safe.silent (closed_forM fun raw _ => closed_checkNode literal _ raw) fun _ _ => trivial
  apply checked.bind
  intro _ _
  apply Noting.Holds.result
  rw [foldl_add] at added
  refine ⟨primitives, measured, ?_⟩
  have positions : measured.flatMap Measured.positions ≠ [] := by
    obtain ⟨mesh, meshed⟩ := List.exists_mem_of_ne_nil meshes some_
    obtain ⟨listing, inside, -, more⟩ := exists_result_of_forall₂ listed meshed
    obtain ⟨raw, member⟩ := List.exists_mem_of_ne_nil listing more
    obtain ⟨one, there, measure⟩ := exists_result_of_forall₂ measures (List.mem_flatten.mpr ⟨listing, inside, member⟩)
    obtain ⟨point, within⟩ := List.exists_mem_of_ne_nil one.positions measure.filled
    exact List.ne_nil_of_mem (List.mem_flatMap.mpr ⟨one, there, within⟩)
  have tight : Tight (measured.flatMap Measured.positions) tally.bounds := by
    have empty : Tight [] none := rfl
    rw [added]
    exact tight_foldl empty _
  have shown : tally.preview = if includeGeometry then measured.map fun one => ⟨one.positions, triples one.indices⟩ else [] := by
    rw [added]
    rfl
  refine ⟨found, tables, listed.imp fun _ _ one => one.1, measures, rfl, ?_, ?_, ?_, ?_, shown, ?_⟩
  · rw [added]
    exact Nat.zero_add _
  · rw [added]
    exact Nat.zero_add _
  · rw [added]
    exact Nat.zero_add _
  · cases bounded : tally.bounds with
    | none =>
      rw [bounded] at tight
      exact absurd tight positions
    | some pair =>
      rw [bounded] at tight
      exact ⟨pair.1, pair.2, rfl, tight⟩
  · show ∀ geometry ∈ tally.preview, _
    rw [shown]
    cases includeGeometry with
    | false => exact nofun
    | true =>
      intro geometry member triangle listed index inside
      obtain ⟨one, there, rfl⟩ := List.mem_map.mp member
      obtain ⟨raw, -, measure⟩ := exists_of_forall₂ measures there
      exact measure.below index (mem_triples listed inside)

theorem start_silent {computed : Except Raised α} {next : α → Reading β} (failed : computed = .error raised) :
    Noting.start (Noting.silent computed >>= next) [] = (.error raised, []) := by
  rw [failed]
  rfl

/-- An accessor without a hashable `type` that is come to ends the inspection with a type error. -/
theorem typeError_of_unhashable {opened : Opened} {views : List View} {before after : List Decoded} {raw : Decoded}
    (found : openGlb literal depth data = .ok opened) (viewed : readViews opened = .ok views)
    (listed : accessorsOf opened = .ok (before ++ raw :: after)) (earlier : ∀ one ∈ before, ∃ accessor, readAccessor views one = .ok accessor)
    (unhashable : Unhashable raw) : (Noting.start (inspectStaticGlb literal includeGeometry depth data) []).1 = .error .typeError := by
  have failed : readTables opened = .error .typeError := by
    unfold readTables
    rw [viewed]
    show (accessorsOf opened >>= _) = _
    rw [listed]
    show ((before ++ raw :: after).mapM (readAccessor views) >>= _) = _
    rw [mapM_fails earlier (readAccessor_typeError views unhashable)]
    rfl
  unfold inspectStaticGlb
  rw [found]
  show (Noting.start (Noting.silent (readTables opened) >>= _) []).1 = _
  rw [start_silent failed]

/-- The inspection is sound exactly for the files in which no accessor that is come to has a list or an object as its `type`. -/
theorem inspection_sound_iff (literal : List Char → PyFloat) (includeGeometry : Bool) (depth : Nat) (data : List UInt8) :
    Sound literal includeGeometry depth data ↔ HashableTypes literal depth data := by
  constructor
  · intro sound opened views before raw after found viewed listed earlier unhashable
    obtain ⟨code, bad⟩ := sound.closed _ (typeError_of_unhashable found viewed listed earlier unhashable)
    cases bad
  · intro hashable
    cases found : openGlb literal depth data with
    | error raised =>
      have ran : Noting.start (inspectStaticGlb literal includeGeometry depth data) [] = (.error raised, []) := start_silent found
      have fine := closed_openGlb literal depth data raised found
      refine ⟨?_, ?_, ?_⟩
      · rw [ran]
        intro other same
        cases same
        exact fine
      · rw [ran]
        exact nofun
      · rw [ran]
        exact nofun
    | ok opened =>
      have safe : Safe opened.declared (inspectStaticGlb literal includeGeometry depth data) fun inspection =>
          ∃ parsed meshes primitives measured, Reports literal includeGeometry depth data inspection opened parsed meshes primitives measured := by
        unfold inspectStaticGlb
        rw [found]
        have read : Safe opened.declared (Noting.silent (readTables opened)) fun entry => readTables opened = .ok entry :=
          Safe.silent (closed_readTables found hashable) fun _ same => same
        apply read.bind
        intro ⟨parsed, meshes⟩ tables
        apply (safe_rest found tables).mono
        intro inspection ⟨primitives, measured, reports⟩
        exact ⟨parsed, meshes, primitives, measured, reports⟩
      obtain ⟨inside, reports, closed⟩ := safe [] nofun
      refine ⟨closed, ?_, ?_⟩
      · intro read member
        exact ⟨opened, found, inside read member⟩
      · intro inspection same
        obtain ⟨parsed, meshes, primitives, measured, report⟩ := reports inspection same
        exact ⟨opened, parsed, meshes, primitives, measured, report⟩

/-- A document whose only accessor has a list as its `type`. -/
def listTypedText : List Char :=
  "\x7b\"asset\":\x7b\"version\":\"2.0\"\x7d,\"buffers\":[\x7b\"byteLength\":4\x7d],\"bufferViews\":[\x7b\"buffer\":0,\"byteLength\":4\x7d],\"accessors\":[\x7b\"type\":[]\x7d]\x7d  ".toList

/-- The file of the document, with four bytes of buffer. -/
def listTyped : List UInt8 :=
  [0x67, 0x6C, 0x54, 0x46, 2, 0, 0, 0, 160, 0, 0, 0, 128, 0, 0, 0, 0x4A, 0x53, 0x4F, 0x4E] ++ Utf8.encode listTypedText
    ++ [4, 0, 0, 0, 0x42, 0x49, 0x4E, 0, 0, 0, 0, 0]

def listTypedDocument : Fields :=
  [(pyStr "asset", .dict [(pyStr "version", .str (pyStr "2.0"))]), (pyStr "buffers", .list [.dict [(pyStr "byteLength", .int 4)]]),
    (pyStr "bufferViews", .list [.dict [(pyStr "buffer", .int 0), (pyStr "byteLength", .int 4)]]),
    (pyStr "accessors", .list [.dict [(pyStr "type", .list [])]])]

set_option maxRecDepth 8000 in
theorem listTyped_opens : openGlb (fun _ => .finite 0) 900 listTyped = .ok ⟨listTypedDocument, 4, [0, 0, 0, 0]⟩ := by
  have parts : readContainer listTyped = .ok (Utf8.encode listTypedText, [0, 0, 0, 0]) := by decide +kernel
  have read : loads hooks 900 listTypedText = .ok (.dict listTypedDocument) := rfl
  have loaded : loadDocument 900 (Utf8.encode listTypedText) = .ok (.dict listTypedDocument) := by
    rw [loadDocument, Utf8.decode_ok.mpr rfl]
    dsimp only
    rw [read]
  rw [openGlb, parts]
  show (loadDocument 900 (Utf8.encode listTypedText) >>= _) = _
  rw [loaded]
  rfl

theorem listTyped_unsound : ¬ Sound (fun _ => .finite 0) false 900 listTyped := by
  intro sound
  have viewed : readViews ⟨listTypedDocument, 4, [0, 0, 0, 0]⟩ = .ok [⟨0, 4, none⟩] := by rfl
  have listed : accessorsOf ⟨listTypedDocument, 4, [0, 0, 0, 0]⟩ = .ok ([] ++ .dict [(pyStr "type", .list [])] :: []) := by rfl
  have unhashable : Unhashable (.dict [(pyStr "type", .list [])]) := ⟨_, rfl, rfl, Or.inl ⟨[], rfl⟩⟩
  obtain ⟨code, bad⟩ := sound.closed _ (typeError_of_unhashable listTyped_opens viewed listed nofun unhashable)
  cases bad

end NovelStudio.ModelReference
