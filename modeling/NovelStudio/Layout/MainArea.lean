import NovelStudio.Layout.Reached

/-! The main area between the docks: what is left of it by the columns and the strip at the bottom
when the arithmetic is exact and the least sizes are whole numbers of pixels. -/

namespace NovelStudio.Layout

open Library

/-- The numbers of the language, none of them rounded. -/
def precise (fraction : ℚ) : Numbers Num := numbers .finite fraction

namespace Num

def value : Num → ℚ
  | .finite value => value
  | _ => 0

@[simp] theorem value_finite (value : ℚ) : (Num.finite value).value = value := rfl

theorem max_finite (left right : ℚ) : Num.max (.finite left) (.finite right) = .finite (Max.max left right) := by
  by_cases less : left < right
  · simp [Num.max, Num.isNan, Num.lt, less, less.le]
  · simp [Num.max, Num.isNan, Num.lt, less, not_lt.mp less]

theorem min_finite (left right : ℚ) : Num.min (.finite left) (.finite right) = .finite (Min.min left right) := by
  by_cases less : right < left
  · simp [Num.min, Num.isNan, Num.lt, less, less.le]
  · simp [Num.min, Num.isNan, Num.lt, less, not_lt.mp less]

/-- A number that is not above every finite one. -/
def Bounded (number : Num) : Prop := number ≠ .nan ∧ number ≠ .infinite false

theorem min_bounded {left right : Num} (one : left ≠ .nan) (two : right ≠ .nan) (either : left ≠ .infinite false ∨ right ≠ .infinite false) :
    (Num.min left right).Bounded := by
  cases left with
  | nan => exact (one rfl).elim
  | infinite negative =>
    cases right with
    | nan => exact (two rfl).elim
    | infinite other => cases negative <;> cases other <;> simp_all [Num.min, Num.isNan, Num.lt, Bounded]
    | finite right => cases negative <;> simp [Num.min, Num.isNan, Num.lt, Bounded]
  | finite left =>
    cases right with
    | nan => exact (two rfl).elim
    | infinite other => cases other <;> simp [Num.min, Num.isNan, Num.lt, Bounded]
    | finite right => simp [min_finite, Bounded]

theorem max_bounded (least : ℚ) {number : Num} (bounded : number.Bounded) : ∃ value, least ≤ value ∧ Num.max (.finite least) number = .finite value := by
  obtain ⟨one, two⟩ := bounded
  cases number with
  | nan => exact (one rfl).elim
  | infinite negative =>
    cases negative with
    | false => exact (two rfl).elim
    | true => exact ⟨least, le_refl _, rfl⟩
  | finite number => exact ⟨_, le_max_left .., max_finite ..⟩

end Num

section
variable (fraction : ℚ) (left right : ℚ)

@[simp] theorem precise_ofInt (number : Int) : (precise fraction).ofInt number = .finite number := rfl
@[simp] theorem precise_add : (precise fraction).add (.finite left) (.finite right) = .finite (left + right) := rfl
@[simp] theorem precise_max : (precise fraction).max (.finite left) (.finite right) = .finite (max left right) := Num.max_finite ..
@[simp] theorem precise_min : (precise fraction).min (.finite left) (.finite right) = .finite (min left right) := Num.min_finite ..
@[simp] theorem precise_lt : (precise fraction).lt (.finite left) (.finite right) = decide (left < right) := rfl

@[simp] theorem precise_sub : (precise fraction).sub (.finite left) (.finite right) = .finite (left - right) := by
  rw [sub_eq_add_neg]
  rfl

@[simp] theorem precise_le : (precise fraction).le (.finite left) (.finite right) = decide (left ≤ right) := by
  rw [Bool.eq_iff_iff]
  simp [precise, numbers, Num.le, Num.isNan, Num.lt]

end

section
variable {ν : Type} (js : Numbers ν)

structure Area (ν : Type) where
  width : ν
  height : ν

def mainArea (frames : Frames ν) (viewport : Viewport ν) : Area ν where
  width := js.sub (js.sub (js.sub viewport.width (columnExtent js frames .left none)) (columnExtent js frames .right none))
    (js.ofInt (sideChrome frames))
  height := js.sub (js.sub (js.sub viewport.height (viewport.reserveTop.getD (js.ofInt 0))) (columnExtent js frames .bottom none))
    (js.ofInt (chrome frames .bottom))

end

/-- The least sizes of panels are whole, their other sizes are numbers, and the viewport is finite. -/
structure Measured (registry : Registry Num) (viewport : Viewport Num) : Prop where
  whole : ∀ spec ∈ registry.specs, ∃ least : Int, spec.minSize = .finite least
  default : ∀ spec ∈ registry.specs, spec.defaultSize ≠ .nan
  most : ∀ spec ∈ registry.specs, spec.maxSize ≠ some .nan
  width : ∃ width, viewport.width = .finite width
  height : ∃ height, viewport.height = .finite height
  top : ∀ top, viewport.reserveTop = some top → ∃ value, top = .finite value

def PanelFrame.px (frame : PanelFrame Num) : ℚ := frame.size.value

def PanelFrame.live {ν : Type} (frame : PanelFrame ν) : Bool := frame.isOpen && !frame.collapsed

def least (registry : Registry Num) (id : String) : ℚ := (minSizeOf (precise 1) registry.specs id).value

/-- Frames stand under their ids, with finite sizes that are not below those of their panels. -/
structure Sized (registry : Registry Num) (frames : Frames Num) : Prop where
  named : ∀ {pid frame}, frames.get? pid = some frame → frame.id = pid
  finite : ∀ {pid frame}, frames.get? pid = some frame → frame.size = .finite frame.px
  least : ∀ {pid frame}, frames.get? pid = some frame → pid ∈ registry.specs.map PanelSpec.id → Layout.least registry frame.id ≤ frame.px

/-- How far the frames of a column reach. -/
def extent (frames : Frames Num) (dock : DockZone) (keepId : Option String) : ℚ :=
  ((frames.values.filter (shrinkable dock keepId)).map PanelFrame.px).foldl max 0

def excess (frames : Frames Num) (viewport : Viewport Num) : ℚ :=
  extent frames .left none + extent frames .right none + sideChrome frames + MAIN_MIN_WIDTH - viewport.width.value

def stripLimit (frames : Frames Num) (viewport : Viewport Num) : ℚ :=
  viewport.height.value - (viewport.reserveTop.getD (.finite 0)).value - MAIN_MIN_HEIGHT - chrome frames .bottom

variable {fraction : ℚ} {registry : Registry Num} {viewport : Viewport Num} {frames other : Frames Num} {frame changed : PanelFrame Num}
variable {spec : PanelSpec Num} {state : LayoutState Num} {pid : String} {dock : DockZone} {keepId : Option String}

theorem foldl_max_le (values : List ℚ) (start bound : ℚ) : values.foldl max start ≤ bound ↔ start ≤ bound ∧ ∀ value ∈ values, value ≤ bound := by
  induction values generalizing start with
  | nil => simp
  | cons first rest ih =>
    rw [List.foldl_cons, ih, max_le_iff, List.forall_mem_cons, and_assoc]

theorem extent_le {bound : ℚ} : extent frames dock keepId ≤ bound ↔
    0 ≤ bound ∧ ∀ pid frame, frames.get? pid = some frame → shrinkable dock keepId frame = true → frame.px ≤ bound := by
  rw [extent, foldl_max_le]
  refine and_congr_right fun _ => ⟨fun below pid frame found live => ?_, fun below value member => ?_⟩
  · apply below
    exact List.mem_map_of_mem (List.mem_filter.mpr ⟨Dict.mem_values_iff.mpr ⟨pid, found⟩, live⟩)
  · obtain ⟨frame, kept, rfl⟩ := List.mem_map.mp member
    obtain ⟨inside, live⟩ := List.mem_filter.mp kept
    obtain ⟨pid, found⟩ := Dict.mem_values_iff.mp inside
    exact below pid frame found live

theorem extent_nonneg (frames : Frames Num) (dock : DockZone) (keepId : Option String) : 0 ≤ extent frames dock keepId :=
  (extent_le.mp (le_refl _)).1

theorem px_le_extent (found : frames.get? pid = some frame) (live : shrinkable dock keepId frame = true) : frame.px ≤ extent frames dock keepId :=
  (extent_le.mp (le_refl _)).2 pid frame found live

theorem columnExtent_eq (sized : Sized registry frames) : columnExtent (precise fraction) frames dock keepId = .finite (extent frames dock keepId) := by
  have finite : ∀ frame ∈ frames.values, frame.size = .finite frame.px := by
    intro frame member
    obtain ⟨pid, found⟩ := Dict.mem_values_iff.mp member
    exact sized.finite found
  rw [columnExtent, extent, precise_ofInt]
  generalize frames.values = values at finite ⊢
  rw [Int.cast_zero]
  generalize (0 : ℚ) = start
  induction values generalizing start with
  | nil => rfl
  | cons first rest ih =>
    rw [List.forall_mem_cons] at finite
    rw [List.foldl_cons]
    by_cases live : shrinkable dock keepId first = true
    · rw [List.filter_cons_of_pos live, List.map_cons, List.foldl_cons, ← ih finite.2, finite.1, precise_max]
      rw [if_pos (by simpa [shrinkable, Bool.and_assoc] using live)]
    · rw [List.filter_cons_of_neg live, ← ih finite.2]
      rw [if_neg (by simpa [shrinkable, Bool.and_assoc] using live)]

section
variable (measured : Measured registry viewport)
include measured

theorem minSizeOf_eq (id : String) : minSizeOf (precise fraction) registry.specs id = .finite (least registry id) := by
  rw [least, minSizeOf, minSizeOf]
  cases registered : specOf registry.specs id with
  | none => rfl
  | some spec =>
    obtain ⟨size, whole⟩ := measured.whole spec (specOf_some registered).1
    simp [whole]

theorem height_eq : viewport.height = .finite viewport.height.value := by
  obtain ⟨height, same⟩ := measured.height
  rw [same]
  rfl

theorem width_eq : viewport.width = .finite viewport.width.value := by
  obtain ⟨width, same⟩ := measured.width
  rw [same]
  rfl

theorem top_eq : viewport.reserveTop.getD (.finite 0) = .finite (viewport.reserveTop.getD (.finite 0)).value := by
  cases reserved : viewport.reserveTop with
  | none => rfl
  | some top =>
    obtain ⟨value, rfl⟩ := measured.top top reserved
    rfl

theorem bottomLimit_eq : bottomLimit (precise fraction) frames viewport = .finite (stripLimit frames viewport) := by
  rw [bottomLimit, stripLimit, height_eq measured, precise_ofInt, Int.cast_zero, top_eq measured]
  simp

theorem overflow_eq (sized : Sized registry frames) : overflow (precise fraction) frames viewport = .finite (excess frames viewport) := by
  rw [overflow, excess, columnExtent_eq sized, columnExtent_eq sized, width_eq measured]
  simp

end

theorem least_of_mem (inside : spec ∈ registry.specs) : least registry spec.id = spec.minSize.value := by
  rw [least, minSizeOf, specOf_of_mem inside]
  rfl

theorem least_of_absent (absent : pid ∉ registry.specs.map PanelSpec.id) : least registry pid = 0 := by
  rw [least, minSizeOf, specOf_none.mpr absent]
  simp

theorem Sized.least_le (sized : Sized registry frames) (found : frames.get? pid = some frame) : Layout.least registry frame.id ≤ max frame.px 0 := by
  by_cases known : pid ∈ registry.specs.map PanelSpec.id
  · exact (sized.least found known).trans (le_max_left ..)
  · rw [sized.named found, least_of_absent known]
    exact le_max_right ..

/-- A frame that shrinks as far as it may. -/
def shrunk (registry : Registry Num) (size : ℚ) (frame : PanelFrame Num) : PanelFrame Num :=
  { frame with size := .finite (max (least registry frame.id) size) }

@[simp] theorem shrunk_px (size : ℚ) (frame : PanelFrame Num) : (shrunk registry size frame).px = max (least registry frame.id) size := rfl

theorem shrink_get? (measured : Measured registry viewport) (sized : Sized registry frames) (chosen : PanelFrame Num → Bool) (size : ℚ) :
    (shrink (precise fraction) registry.specs chosen (.finite size) frames).get? pid =
      (frames.get? pid).map fun frame => if chosen frame then shrunk registry (frame.px - size) frame else frame := by
  rw [shrink, Dict.get?_mapValues]
  cases found : frames.get? pid with
  | none => rfl
  | some frame =>
    rw [Option.map_some, Option.map_some, shrunk, minSizeOf_eq measured, sized.finite found, precise_sub, precise_max]

theorem Sized.resized (sized : Sized registry frames)
    (kept : ∀ {pid there}, other.get? pid = some there → ∃ frame, frames.get? pid = some frame ∧ (there = frame ∨ ∃ size, there = shrunk registry size frame)) :
    Sized registry other where
  named found := by
    obtain ⟨frame, before, rfl | ⟨size, rfl⟩⟩ := kept found
    · exact sized.named before
    · have named := sized.named before
      exact named
  finite found := by
    obtain ⟨frame, before, rfl | ⟨size, rfl⟩⟩ := kept found
    · exact sized.finite before
    · rfl
  least found known := by
    obtain ⟨frame, before, rfl | ⟨size, rfl⟩⟩ := kept found
    · exact sized.least before known
    · exact le_max_left ..

section
variable (measured : Measured registry viewport) (sized : Sized registry frames) (chosen : PanelFrame Num → Bool) (size : ℚ)
include measured sized

theorem shrink_found (found : (shrink (precise fraction) registry.specs chosen (.finite size) frames).get? pid = some changed) :
    ∃ frame, frames.get? pid = some frame ∧ changed = if chosen frame then shrunk registry (frame.px - size) frame else frame := by
  rw [shrink_get? measured sized, Option.map_eq_some_iff] at found
  obtain ⟨frame, there, rfl⟩ := found
  exact ⟨frame, there, rfl⟩

theorem shrink_sized : Sized registry (shrink (precise fraction) registry.specs chosen (.finite size) frames) := by
  refine sized.resized fun found => ?_
  obtain ⟨frame, there, rfl⟩ := shrink_found measured sized chosen size found
  refine ⟨frame, there, ?_⟩
  split
  · exact .inr ⟨_, rfl⟩
  · exact .inl rfl

theorem extent_shrink_le (positive : 0 ≤ size) (dock : DockZone) :
    extent (shrink (precise fraction) registry.specs chosen (.finite size) frames) dock none ≤ extent frames dock none := by
  rw [extent_le]
  refine ⟨extent_nonneg .., fun pid changed found live => ?_⟩
  obtain ⟨frame, there, rfl⟩ := shrink_found measured sized chosen size found
  by_cases picked : chosen frame = true
  · rw [if_pos picked] at live ⊢
    have reach : frame.px ≤ extent frames dock none := px_le_extent there live
    have below := sized.least_le there
    have nonneg := extent_nonneg frames dock none
    rw [shrunk_px]
    apply max_le
    · exact below.trans (max_le reach nonneg)
    · linarith
  · rw [if_neg picked] at live ⊢
    exact px_le_extent there live

end

theorem hasLive_of_spots (same : spots frames = spots other) (dock : DockZone) : hasLive frames dock = hasLive other dock := by
  have read : ∀ frames : Frames Num, hasLive frames dock = (spots frames).values.any fun spot => spot.dock = dock && spot.isOpen := by
    intro frames
    simp [hasLive, spots, Dict.values, Dict.mapValues, Function.comp_def, PanelFrame.spot]
  rw [read, read, same]

theorem chrome_of_spots (same : spots frames = spots other) (dock : DockZone) : chrome frames dock = chrome other dock := by
  rw [chrome, chrome, hasLive_of_spots same]

theorem sideChrome_of_spots (same : spots frames = spots other) : sideChrome frames = sideChrome other := by
  rw [sideChrome, sideChrome, chrome_of_spots same, chrome_of_spots same]

/-- A dock beside the main area, and the one on its other side. -/
inductive Sides : DockZone → DockZone → Prop where
  | left : Sides .left .right
  | right : Sides .right .left

/-- Every panel of a side column is at its least size, or leaves the main area its least width. -/
def Beside (registry : Registry Num) (viewport : Viewport Num) (frames : Frames Num) : Prop :=
  ∀ pid frame opposite, frames.get? pid = some frame → Sides frame.dock opposite → frame.live = true →
    frame.px = least registry frame.id ∨ frame.px + extent frames opposite none + sideChrome frames + MAIN_MIN_WIDTH ≤ viewport.width.value

/-- Every panel of the bottom strip is at its least size, or leaves the main area its least height. -/
def Below (registry : Registry Num) (viewport : Viewport Num) (frames : Frames Num) : Prop :=
  ∀ pid frame, frames.get? pid = some frame → frame.dock = .bottom → frame.live = true →
    frame.px = least registry frame.id ∨ frame.px ≤ stripLimit frames viewport

structure Roomy (registry : Registry Num) (viewport : Viewport Num) (frames : Frames Num) : Prop where
  sized : Sized registry frames
  beside : Beside registry viewport frames
  below : Below registry viewport frames

theorem shrinkable_none {frame : PanelFrame Num} : shrinkable dock none frame = true ↔ frame.dock = dock ∧ frame.live = true := by
  simp [shrinkable, PanelFrame.live]

variable {opposite : DockZone}

theorem Sides.apart (sides : Sides dock opposite) : opposite ≠ dock := by
  cases sides <;> exact nofun

theorem Sides.swap (sides : Sides dock opposite) : Sides opposite dock := by
  cases sides
  · exact .right
  · exact .left

theorem Sides.unique {one two : DockZone} (sides : Sides dock one) (others : Sides dock two) : one = two := by
  cases sides <;> cases others <;> rfl

theorem excess_sides (sides : Sides dock opposite) (frames : Frames Num) (viewport : Viewport Num) :
    excess frames viewport = extent frames dock none + extent frames opposite none + sideChrome frames + MAIN_MIN_WIDTH - viewport.width.value := by
  cases sides
  · rfl
  · rw [excess, add_comm (extent frames .left none)]

theorem beside_of_fits (fits : excess frames viewport ≤ 0) : Beside registry viewport frames := by
  intro pid frame opposite found sides live
  right
  have reach : frame.px ≤ extent frames frame.dock none := px_le_extent found (shrinkable_none.mpr ⟨rfl, live⟩)
  rw [excess_sides sides] at fits
  linarith

theorem sideChrome_shrink (size : ℚ) (chosen : PanelFrame Num → Bool) :
    sideChrome (shrink (precise fraction) registry.specs chosen (.finite size) frames) = sideChrome frames :=
  sideChrome_of_spots (spots_shrink ..)

theorem Sides.either {first second : DockZone} (sides : Sides first second) (other : Sides dock opposite) :
    dock = first ∧ opposite = second ∨ dock = second ∧ opposite = first := by
  cases sides <;> cases other <;> simp

section
variable (measured : Measured registry viewport) (sized : Sized registry frames) {size : ℚ}
include measured sized

theorem shrink_column (found : (shrink (precise fraction) registry.specs (shrinkable dock none) (.finite size) frames).get? pid = some changed)
    (docked : changed.dock = dock) (live : changed.live = true) :
    changed.px = least registry changed.id ∨ changed.px ≤ extent frames dock none - size := by
  obtain ⟨frame, there, rfl⟩ := shrink_found measured sized (shrinkable dock none) size found
  by_cases picked : shrinkable dock none frame = true
  · have reach : frame.px ≤ extent frames dock none := px_le_extent there picked
    rw [if_pos picked, shrunk_px]
    rcases le_total (frame.px - size) (least registry frame.id) with small | large
    · exact .inl (max_eq_left small)
    · right
      rw [max_eq_right large]
      linarith
  · rw [if_neg picked] at docked live
    exact (picked (shrinkable_none.mpr ⟨docked, live⟩)).elim

theorem shrink_elsewhere (found : (shrink (precise fraction) registry.specs (shrinkable dock none) (.finite size) frames).get? pid = some changed)
    (elsewhere : changed.dock ≠ dock) : frames.get? pid = some changed := by
  obtain ⟨frame, there, rfl⟩ := shrink_found measured sized (shrinkable dock none) size found
  by_cases picked : shrinkable dock none frame = true
  · rw [if_pos picked] at elsewhere
    exact (elsewhere (shrinkable_none.mp picked).1).elim
  · rw [if_neg picked]
    exact there

end

theorem fitBoth_beside (measured : Measured registry viewport) (sized : Sized registry frames) {first second : DockZone} (sides : Sides first second)
    (exceeds : 0 < excess frames viewport) : Beside registry viewport (fitBoth (precise fraction) registry.specs viewport none first second frames) := by
  rw [fitBoth, overflow_eq measured sized]
  have sized' : Sized registry (shrink (precise fraction) registry.specs (shrinkable first none) (.finite (excess frames viewport)) frames) :=
    shrink_sized measured sized _ _
  have narrower : extent (shrink (precise fraction) registry.specs (shrinkable first none) (.finite (excess frames viewport)) frames) second none ≤
      extent frames second none := extent_shrink_le measured sized _ _ exceeds.le second
  have chromes : sideChrome (shrink (precise fraction) registry.specs (shrinkable first none) (.finite (excess frames viewport)) frames) =
      sideChrome frames := sideChrome_shrink _ _
  generalize shrunk : shrink (precise fraction) registry.specs (shrinkable first none) (.finite (excess frames viewport)) frames = after at *
  simp only [overflow_eq measured sized', precise_ofInt, precise_lt, Int.cast_zero]
  split
  · rename_i rest
    have rest := of_decide_eq_true rest
    intro pid frame opposite found other live
    have narrower' : ∀ dock, extent (shrink (precise fraction) registry.specs (shrinkable second none) (.finite (excess after viewport)) after) dock none ≤
        extent after dock none := extent_shrink_le measured sized' _ _ rest.le
    have chromes' : sideChrome (shrink (precise fraction) registry.specs (shrinkable second none) (.finite (excess after viewport)) after) =
        sideChrome after := sideChrome_shrink _ _
    rcases sides.either other with ⟨docked, rfl⟩ | ⟨docked, rfl⟩
    · -- The first column gave way by all that was missing.
      have before := shrink_elsewhere measured sized' found (docked ▸ sides.apart.symm)
      rw [← shrunk] at before
      refine (shrink_column measured sized before docked live).imp_right fun given => ?_
      have total := excess_sides sides frames viewport
      have second := narrower' opposite
      rw [chromes', chromes]
      linarith
    · -- The second one gave way by the rest.
      refine (shrink_column measured sized' found docked live).imp_right fun given => ?_
      have total := excess_sides sides after viewport
      have first := narrower' opposite
      rw [chromes']
      linarith
  · rename_i rest
    exact beside_of_fits (not_lt.mp (by simpa using rest))

section
variable (measured : Measured registry viewport) (sized : Sized registry frames)
include measured sized

theorem fitBoth_sized (keepId : Option String) (first second : DockZone) :
    Sized registry (fitBoth (precise fraction) registry.specs viewport keepId first second frames) := by
  rw [fitBoth, overflow_eq measured sized]
  have sized' : Sized registry (shrink (precise fraction) registry.specs (shrinkable first keepId) (.finite (excess frames viewport)) frames) :=
    shrink_sized measured sized _ _
  simp only [overflow_eq measured sized']
  split
  · exact shrink_sized measured sized' _ _
  · exact sized'

theorem fitColumns_sized (keepId : Option String) : Sized registry (fitColumns (precise fraction) registry.specs viewport keepId frames) := by
  rw [fitColumns]
  split
  · exact fitBoth_sized measured sized ..
  · exact fitBoth_sized measured sized ..

theorem fitColumns_beside (exceeds : 0 < excess frames viewport) :
    Beside registry viewport (fitColumns (precise fraction) registry.specs viewport none frames) := by
  rw [fitColumns]
  split
  · exact fitBoth_beside measured sized .left exceeds
  · exact fitBoth_beside measured sized .right exceeds

theorem fitBottom_found (found : (fitBottom (precise fraction) registry.specs viewport frames).get? pid = some changed) :
    ∃ frame, frames.get? pid = some frame ∧ changed =
      if frame.dock = .bottom ∧ stripLimit frames viewport < frame.px then shrunk registry (stripLimit frames viewport) frame else frame := by
  rw [fitBottom, Dict.get?_mapValues, Option.map_eq_some_iff] at found
  obtain ⟨frame, there, rfl⟩ := found
  refine ⟨frame, there, ?_⟩
  rw [bottomLimit_eq measured, minSizeOf_eq measured, sized.finite there, precise_lt, precise_max]
  simp only [Bool.and_eq_true, decide_eq_true_eq]
  rfl

end

/-- A frame of the same panel in the same dock, with the same size, that is not open where the other is closed. -/
structure Carried (before frame : PanelFrame Num) : Prop where
  named : frame.id = before.id
  dock : frame.dock = before.dock
  size : frame.size = before.size
  isOpen : frame.isOpen = true → before.isOpen = true
  live : frame.live = true → before.live = true

theorem Carried.refl (frame : PanelFrame Num) : Carried frame frame := ⟨rfl, rfl, rfl, id, id⟩

theorem Carried.px {before : PanelFrame Num} (carried : Carried before frame) : frame.px = before.px := congrArg Num.value carried.size

/-- The frames of a dock were there before. -/
def CarriedIn (dock : DockZone) (frames other : Frames Num) : Prop :=
  ∀ pid frame, other.get? pid = some frame → frame.dock = dock → ∃ before, frames.get? pid = some before ∧ Carried before frame

theorem extent_carried (carried : CarriedIn dock frames other) : extent other dock none ≤ extent frames dock none := by
  rw [extent_le]
  refine ⟨extent_nonneg .., fun pid frame found counted => ?_⟩
  obtain ⟨docked, live⟩ := shrinkable_none.mp counted
  obtain ⟨before, there, same⟩ := carried pid frame found docked
  rw [same.px]
  exact px_le_extent there (shrinkable_none.mpr ⟨same.dock.symm.trans docked, same.live live⟩)

theorem hasLive_iff : hasLive frames dock = true ↔ ∃ pid frame, frames.get? pid = some frame ∧ frame.dock = dock ∧ frame.isOpen = true := by
  rw [hasLive, List.any_eq_true]
  constructor
  · rintro ⟨frame, member, live⟩
    obtain ⟨pid, found⟩ := Dict.mem_values_iff.mp member
    exact ⟨pid, frame, found, by simpa using live⟩
  · rintro ⟨pid, frame, found, live⟩
    exact ⟨frame, Dict.mem_values_iff.mpr ⟨pid, found⟩, by simpa using live⟩

theorem chrome_carried (carried : CarriedIn dock frames other) : chrome other dock ≤ chrome frames dock := by
  have lives : hasLive other dock = true → hasLive frames dock = true := by
    simp only [hasLive_iff]
    rintro ⟨pid, frame, found, docked, isOpen⟩
    obtain ⟨before, there, same⟩ := carried pid frame found docked
    exact ⟨pid, before, there, same.dock.symm.trans docked, same.isOpen isOpen⟩
  rw [chrome, chrome]
  split
  · rename_i live
    rw [if_pos (lives live)]
  · split <;> decide

theorem sideChrome_carried (carried : ∀ {dock opposite}, Sides dock opposite → CarriedIn dock frames other) : sideChrome other ≤ sideChrome frames :=
  add_le_add (chrome_carried (carried .left)) (chrome_carried (carried .right))

theorem Beside.carried (beside : Beside registry viewport frames) (carried : ∀ {dock opposite}, Sides dock opposite → CarriedIn dock frames other) :
    Beside registry viewport other := by
  intro pid frame opposite found sides live
  obtain ⟨before, there, same⟩ := carried sides pid frame found rfl
  have sides' : Sides before.dock opposite := same.dock ▸ sides
  have reach : extent other opposite none ≤ extent frames opposite none := extent_carried (carried sides.swap)
  have chromes : (sideChrome other : ℚ) ≤ sideChrome frames := by exact_mod_cast sideChrome_carried carried
  rw [same.px, same.named]
  refine (beside pid before opposite there sides' (same.live live)).imp_right fun room => ?_
  linarith

theorem Below.carried (below : Below registry viewport frames) (carried : CarriedIn .bottom frames other) : Below registry viewport other := by
  intro pid frame found docked live
  obtain ⟨before, there, same⟩ := carried pid frame found docked
  have chromes : (chrome other .bottom : ℚ) ≤ chrome frames .bottom := by exact_mod_cast chrome_carried carried
  rw [same.px, same.named]
  refine (below pid before there (same.dock ▸ docked) (same.live live)).imp_right fun room => ?_
  rw [stripLimit] at room ⊢
  linarith

theorem Sized.carried (sized : Sized registry frames) (carried : ∀ dock, CarriedIn dock frames other) : Sized registry other where
  named {pid frame} found := by
    obtain ⟨before, there, same⟩ := carried frame.dock pid frame found rfl
    exact same.named.trans (sized.named there)
  finite {pid frame} found := by
    obtain ⟨before, there, same⟩ := carried frame.dock pid frame found rfl
    rw [same.size, same.px]
    exact sized.finite there
  least {pid frame} found known := by
    obtain ⟨before, there, same⟩ := carried frame.dock pid frame found rfl
    rw [same.named, same.px]
    exact sized.least there known

theorem Roomy.carried (roomy : Roomy registry viewport frames) (carried : ∀ dock, CarriedIn dock frames other) : Roomy registry viewport other where
  sized := roomy.sized.carried carried
  beside := roomy.beside.carried fun _ => carried _
  below := roomy.below.carried (carried .bottom)

theorem CarriedIn.set (found : frames.get? pid = some frame) (carried : Carried frame changed) (dock : DockZone) :
    CarriedIn dock frames (frames.set pid changed) := by
  intro id there found' docked
  rw [Dict.get?_set] at found'
  split at found'
  · rename_i same
    exact ⟨frame, same ▸ found, Option.some.inj found' ▸ carried⟩
  · exact ⟨there, found', .refl there⟩

theorem fitMain_roomy (measured : Measured registry viewport) (sized : Sized registry frames) (keepId : Option String) :
    Roomy registry viewport (fitMain (precise fraction) registry.specs viewport keepId frames) := by
  rw [fitMain]
  -- The columns: each pass is left out where they fit already.
  obtain ⟨columns, same, sized', beside⟩ : ∃ columns : Frames Num,
      (if (precise fraction).le (overflow (precise fraction) frames viewport) ((precise fraction).ofInt 0) then frames
        else if (precise fraction).le (overflow (precise fraction) (fitColumns (precise fraction) registry.specs viewport keepId frames) viewport)
          ((precise fraction).ofInt 0) then fitColumns (precise fraction) registry.specs viewport keepId frames
        else fitColumns (precise fraction) registry.specs viewport none (fitColumns (precise fraction) registry.specs viewport keepId frames)) = columns ∧
      Sized registry columns ∧ Beside registry viewport columns := by
    refine ⟨_, rfl, ?_⟩
    have first : Sized registry (fitColumns (precise fraction) registry.specs viewport keepId frames) := fitColumns_sized measured sized keepId
    simp only [overflow_eq measured sized, overflow_eq measured first, precise_ofInt, precise_le, Int.cast_zero, decide_eq_true_eq]
    split
    · rename_i fits
      exact ⟨sized, beside_of_fits fits⟩
    · split
      · rename_i fits
        exact ⟨first, beside_of_fits fits⟩
      · rename_i exceeds
        exact ⟨fitColumns_sized measured first none, fitColumns_beside measured first (not_le.mp exceeds)⟩
  simp only [same]
  have spotted : spots (fitBottom (precise fraction) registry.specs viewport columns) = spots columns := spots_fitBottom columns
  refine ⟨sized'.resized fun found => ?_, beside.carried fun sides pid frame found docked => ?_, fun pid frame found docked live => ?_⟩
  · obtain ⟨frame, there, rfl⟩ := fitBottom_found measured sized' found
    refine ⟨frame, there, ?_⟩
    split
    · exact .inr ⟨_, rfl⟩
    · exact .inl rfl
  · obtain ⟨before, there, rfl⟩ := fitBottom_found measured sized' found
    have outside : ¬ (before.dock = .bottom ∧ stripLimit columns viewport < before.px) := by
      rintro ⟨strip, above⟩
      rw [if_pos ⟨strip, above⟩] at docked
      cases sides <;> cases docked.symm.trans strip
    rw [if_neg outside]
    exact ⟨before, there, .refl before⟩
  · have limit : stripLimit (fitBottom (precise fraction) registry.specs viewport columns) viewport = stripLimit columns viewport := by
      rw [stripLimit, stripLimit, chrome_of_spots spotted]
    obtain ⟨before, there, rfl⟩ := fitBottom_found measured sized' found
    rw [limit]
    by_cases above : before.dock = .bottom ∧ stripLimit columns viewport < before.px
    · rw [if_pos above, shrunk_px]
      rcases le_total (stripLimit columns viewport) (least registry before.id) with small | large
      · exact .inl (max_eq_left small)
      · exact .inr (max_eq_right large).le
    · rw [if_neg above] at docked ⊢
      exact .inr (not_lt.mp fun higher => above ⟨docked, higher⟩)

end NovelStudio.Layout
