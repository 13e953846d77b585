import NovelStudio.Layout.MainArea

/-! Whatever actions follow on a fitted layout with one viewport, the main area stays usable. -/

namespace NovelStudio.Layout

open Library

variable {fraction : ℚ} {registry : Registry Num} {viewport : Viewport Num} {frames other : Frames Num} {frame changed : PanelFrame Num}
variable {spec : PanelSpec Num} {dock : DockZone} {state : LayoutState Num} {pid : String}

theorem maxSizeFor_bounded (measured : Measured registry viewport) (inside : spec ∈ registry.specs) (dock : DockZone) :
    (maxSizeFor (precise fraction) spec dock viewport).Bounded := by
  obtain ⟨least, whole⟩ := measured.whole spec inside
  obtain ⟨share, limited⟩ : ∃ share : ℚ, (if dock = .main ∨ dock = .float then
      (precise fraction).floor (if dock = .bottom then viewport.height else viewport.width)
      else (precise fraction).dockShare (if dock = .bottom then viewport.height else viewport.width)) = .finite share := by
    rw [height_eq measured, width_eq measured]
    split <;> split <;> exact ⟨_, rfl⟩
  simp only [maxSizeFor, limited, whole, precise_max]
  cases most : spec.maxSize with
  | none => exact ⟨nofun, nofun⟩
  | some size => exact Num.min_bounded (fun same => measured.most spec inside (most.trans (congrArg some same))) nofun (.inr nofun)

theorem clampSize_least (measured : Measured registry viewport) (inside : spec ∈ registry.specs) (dock : DockZone) (size : Num) :
    ∃ value, spec.minSize.value ≤ value ∧ clampSize (precise fraction) spec dock size viewport = .finite value := by
  obtain ⟨least, whole⟩ := measured.whole spec inside
  have number : (if (precise fraction).isFinite size then size else spec.defaultSize) ≠ .nan := by
    split
    · rename_i finite
      rintro rfl
      exact nomatch finite
    · exact measured.default spec inside
  have limit : (maxSizeFor (precise fraction) spec dock viewport).Bounded := maxSizeFor_bounded measured inside dock
  obtain ⟨value, above, clamped⟩ := Num.max_bounded least (Num.min_bounded limit.1 number (.inl limit.2))
  refine ⟨⌊value + 1 / 2⌋, ?_, ?_⟩
  · have whole' : least ≤ ⌊value + 1 / 2⌋ := by
      rw [Int.le_floor]
      linarith
    rw [whole, Num.value_finite]
    exact_mod_cast whole'
  · rw [clampSize, whole]
    exact congrArg Num.round clamped

theorem Sized.set (sized : Sized registry frames) (named : changed.id = pid) {size : ℚ} (sizes : changed.size = .finite size)
    (above : Layout.least registry pid ≤ size) : Sized registry (frames.set pid changed) where
  named found := by
    rw [Dict.get?_set] at found
    split at found
    · rename_i same
      exact Option.some.inj found ▸ named.trans same.symm
    · exact sized.named found
  finite found := by
    rw [Dict.get?_set] at found
    split at found
    · obtain rfl := Option.some.inj found
      rw [PanelFrame.px, sizes]
      rfl
    · exact sized.finite found
  least found known := by
    rw [Dict.get?_set] at found
    split at found
    · obtain rfl := Option.some.inj found
      rw [PanelFrame.px, sizes, named]
      exact above
    · exact sized.least found known

theorem Sized.set_same (sized : Sized registry frames) (found : frames.get? pid = some frame) (named : changed.id = frame.id)
    (size : changed.size = frame.size) (known : pid ∈ registry.specs.map PanelSpec.id) : Sized registry (frames.set pid changed) :=
  sized.set (named.trans (sized.named found)) (size.trans (sized.finite found)) (sized.named found ▸ sized.least found known)

theorem defaultFrames_sized (measured : Measured registry viewport) : Sized registry (defaultFrames (precise fraction) registry viewport) := by
  have default : ∀ {pid frame}, (defaultFrames (precise fraction) registry viewport).get? pid = some frame →
      ∃ spec ∈ registry.specs, spec.id = pid ∧ frame.id = pid ∧ ∃ value, spec.minSize.value ≤ value ∧ frame.size = .finite value := by
    intro pid frame found
    obtain ⟨index, spec, located, same, rfl⟩ := defaultFrames_found found
    have inside := List.mem_of_getElem? located
    exact ⟨spec, inside, same, same, clampSize_least measured inside _ _⟩
  refine ⟨fun found => ?_, fun found => ?_, fun found _ => ?_⟩
  · obtain ⟨_, _, _, named, _⟩ := default found
    exact named
  · obtain ⟨_, _, _, _, value, _, size⟩ := default found
    rw [PanelFrame.px, size]
    rfl
  · obtain ⟨spec, inside, same, named, value, above, size⟩ := default found
    rw [PanelFrame.px, size, named, ← same, least_of_mem inside]
    exact above

/-- Frames stand under their ids, and those of unknown panels have finite sizes. -/
structure Loose (registry : Registry Num) (frames : Frames Num) : Prop where
  named : ∀ {pid frame}, frames.get? pid = some frame → frame.id = pid
  finite : ∀ {pid frame}, frames.get? pid = some frame → pid ∉ registry.specs.map PanelSpec.id → ∃ size, frame.size = .finite size

theorem Sized.loose (sized : Sized registry frames) : Loose registry frames := ⟨sized.named, fun found _ => ⟨_, sized.finite found⟩⟩

theorem clampFrame_size (registered : specOf registry.specs frame.id = some spec) :
    ((clampFrame (precise fraction) registry viewport frame).getD frame).size = clampSize (precise fraction) spec frame.dock frame.size viewport := by
  rw [clampFrame, registered]
  simp only
  split
  · rfl
  · rename_i unchanged
    have same : (precise fraction).same (clampSize (precise fraction) spec frame.dock frame.size viewport) frame.size = true := by
      cases held : (precise fraction).same (clampSize (precise fraction) spec frame.dock frame.size viewport) frame.size with
      | true => rfl
      | false => simp [held] at unchanged
    exact ((numbers_lawful .finite fraction).eq_of_same same).symm

theorem clamped_sized (measured : Measured registry viewport) (loose : Loose registry frames) :
    Sized registry (frames.mapValues fun _ frame => (clampFrame (precise fraction) registry viewport frame).getD frame) := by
  have clamped : ∀ {pid frame}, (frames.mapValues fun _ frame => (clampFrame (precise fraction) registry viewport frame).getD frame).get? pid = some frame →
      frame.id = pid ∧ ∃ value, frame.size = .finite value ∧ (pid ∈ registry.specs.map PanelSpec.id → least registry pid ≤ value) := by
    intro pid frame found
    rw [Dict.get?_mapValues, Option.map_eq_some_iff] at found
    obtain ⟨before, there, rfl⟩ := found
    have named := loose.named there
    refine ⟨(congrArg Spot.id clampFrame_spot).trans named, ?_⟩
    cases registered : specOf registry.specs before.id with
    | none =>
      have unknown : pid ∉ registry.specs.map PanelSpec.id := named ▸ specOf_none.mp registered
      obtain ⟨size, finite⟩ := loose.finite there unknown
      refine ⟨size, ?_, fun known => (unknown known).elim⟩
      rw [clampFrame, registered]
      exact finite
    | some spec =>
      obtain ⟨inside, same⟩ := specOf_some registered
      obtain ⟨value, above, size⟩ := clampSize_least measured inside before.dock before.size
      refine ⟨value, (clampFrame_size registered).trans size, fun _ => ?_⟩
      rw [← named, ← same, least_of_mem inside]
      exact above
  refine ⟨fun found => (clamped found).1, fun found => ?_, fun found known => ?_⟩
  · obtain ⟨_, value, size, _⟩ := clamped found
    rw [PanelFrame.px, size]
    rfl
  · obtain ⟨named, value, size, above⟩ := clamped found
    rw [PanelFrame.px, size, named]
    exact above known

/-- The frames have other sizes at most. -/
def Resizes (frames other : Frames Num) : Prop := ∃ sizes : PanelFrame Num → Num, other = frames.mapValues fun _ frame => { frame with size := sizes frame }

theorem Resizes.refl (frames : Frames Num) : Resizes frames frames := by
  refine ⟨PanelFrame.size, ?_⟩
  simp [Dict.mapValues]

theorem Resizes.trans {first second third : Frames Num} (one : Resizes first second) (two : Resizes second third) : Resizes first third := by
  obtain ⟨sizes, rfl⟩ := one
  obtain ⟨sizes', rfl⟩ := two
  exact ⟨fun frame => sizes' { frame with size := sizes frame }, Dict.mapValues_mapValues ..⟩

theorem resizes_shrink (js : Numbers Num) (specs : List (PanelSpec Num)) (chosen : PanelFrame Num → Bool) (excess : Num) (frames : Frames Num) :
    Resizes frames (shrink js specs chosen excess frames) := by
  refine ⟨fun frame => if chosen frame then js.max (minSizeOf js specs frame.id) (js.sub frame.size excess) else frame.size, ?_⟩
  refine Dict.mapValues_congr fun entry _ => ?_
  by_cases picked : chosen entry.2 = true <;> simp [picked]

theorem resizes_fitColumns (js : Numbers Num) (specs : List (PanelSpec Num)) (keepId : Option String) (frames : Frames Num) :
    Resizes frames (fitColumns js specs viewport keepId frames) := by
  have both : ∀ first second, Resizes frames (fitBoth js specs viewport keepId first second frames) := by
    intro first second
    simp only [fitBoth]
    split
    · exact (resizes_shrink ..).trans (resizes_shrink ..)
    · exact resizes_shrink ..
  rw [fitColumns]
  split
  · exact both _ _
  · exact both _ _

theorem resizes_fitMain (js : Numbers Num) (specs : List (PanelSpec Num)) (keepId : Option String) (frames : Frames Num) :
    Resizes frames (fitMain js specs viewport keepId frames) := by
  have bottom : ∀ frames, Resizes frames (fitBottom js specs viewport frames) := by
    intro frames
    refine ⟨fun frame => if frame.dock = .bottom && js.lt (bottomLimit js frames viewport) frame.size then
      js.max (minSizeOf js specs frame.id) (bottomLimit js frames viewport) else frame.size, ?_⟩
    rw [fitBottom]
    refine Dict.mapValues_congr fun entry _ => ?_
    by_cases picked : (entry.2.dock = .bottom && js.lt (bottomLimit js frames viewport) entry.2.size) = true
    · simp only [picked, if_true]
    · simp only [if_neg picked]
  rw [fitMain]
  refine Resizes.trans ?_ (bottom _)
  split
  · exact .refl frames
  · simp only
    split
    · exact resizes_fitColumns ..
    · exact (resizes_fitColumns ..).trans (resizes_fitColumns ..)

theorem mapValues_eq_self {change : String → PanelFrame Num → PanelFrame Num} (same : ∀ entry ∈ frames.entries, change entry.1 entry.2 = entry.2) :
    frames.mapValues change = frames := by
  have unchanged : frames.mapValues change = frames.mapValues fun _ frame => frame := Dict.mapValues_congr same
  rw [unchanged]
  simp [Dict.mapValues]

theorem Resizes.eq_of_sameSizes (resizes : Resizes frames other) (finite : ∀ {pid frame}, frames.get? pid = some frame → ∃ size, frame.size = .finite size)
    (same : sameSizes (precise fraction) other frames = true) : other = frames := by
  obtain ⟨sizes, rfl⟩ := resizes
  have kept : ∀ entry ∈ frames.entries, sizes entry.2 = entry.2.size := by
    intro entry member
    obtain ⟨size, here⟩ := finite (Dict.get?_eq_some_iff.mpr member)
    rw [sameSizes, Dict.values, Dict.values, Dict.mapValues, List.map_map, List.zip_map', List.all_map, List.all_eq_true] at same
    have text : (precise fraction).sameText (sizes entry.2) entry.2.size = true := same entry member
    rw [here] at text ⊢
    simpa [precise, numbers, Num.isFinite] using text
  exact mapValues_eq_self fun entry member => by rw [kept entry member]

/-- The `viewport` action makes room. -/
theorem refit_roomy (measured : Measured registry viewport) (loose : Loose registry state.frames) :
    Roomy registry viewport (refit (precise fraction) registry viewport state).frames := by
  have sized : Sized registry (state.frames.mapValues fun _ frame => (clampFrame (precise fraction) registry viewport frame).getD frame) :=
    clamped_sized measured loose
  have roomy : Roomy registry viewport (fitMain (precise fraction) registry.specs viewport none
      (state.frames.mapValues fun _ frame => (clampFrame (precise fraction) registry viewport frame).getD frame)) := fitMain_roomy measured sized none
  rw [refit]
  split
  · exact roomy
  · rename_i unchanged
    simp only [Bool.or_eq_true, Bool.not_eq_true', not_or, Bool.not_eq_false, Bool.not_eq_true, List.any_eq_false] at unchanged
    obtain ⟨clamped, same⟩ := unchanged
    have alike : (state.frames.mapValues fun _ frame => (clampFrame (precise fraction) registry viewport frame).getD frame) = state.frames := by
      refine mapValues_eq_self fun entry member => ?_
      have unclamped := clamped entry.2 (List.mem_map_of_mem member)
      rw [Option.isSome_eq_false_iff, Option.isNone_iff_eq_none] at unclamped
      rw [unclamped]
      rfl
    rw [(resizes_fitMain ..).eq_of_sameSizes (fun found => ⟨_, sized.finite found⟩) same, alike] at roomy
    exact roomy

theorem reset_roomy (measured : Measured registry viewport) : Roomy registry viewport (reset (precise fraction) registry viewport state).frames :=
  fitMain_roomy measured (defaultFrames_sized measured) none

theorem bump_roomy (roomy : Roomy registry viewport frames) (found : frames.get? changed.id = some frame) :
    Roomy registry viewport (bump state changed frames).frames := by
  rw [bump_frames found]
  exact roomy.carried (CarriedIn.set found ⟨rfl, rfl, rfl, id, id⟩)

theorem bump_fitMain_roomy (measured : Measured registry viewport) (sized : Sized registry frames) (found : frames.get? changed.id = some frame)
    (keepId : Option String) :
    Roomy registry viewport (bump state changed (fitMain (precise fraction) registry.specs viewport keepId frames)).frames := by
  have spotted : spots (fitMain (precise fraction) registry.specs viewport keepId frames) = spots frames := spots_fitMain keepId frames
  obtain ⟨there, found', _⟩ := found_of_spots spotted.symm found
  exact bump_roomy (fitMain_roomy measured sized keepId) found'

section
variable (roomy : Roomy registry viewport state.frames) (found : state.frames.get? frame.id = some frame)
include roomy found

theorem closePanel_roomy : Roomy registry viewport (closePanel state frame).frames := by
  rw [closePanel]
  split
  · exact roomy
  · exact roomy.carried (CarriedIn.set found ⟨rfl, rfl, rfl, by rintro ⟨⟩, by rintro ⟨⟩⟩)

theorem focusPanel_roomy : Roomy registry viewport (focusPanel state frame).frames := by
  rw [focusPanel]
  split
  · exact roomy
  · exact bump_roomy roomy found

theorem changeFloat_roomy (change : Rect Num → Rect Num) :
    Roomy registry viewport (changeFloat (precise fraction) viewport state spec frame change).frames := by
  rw [changeFloat]
  split
  · rename_i rect _ _
    have moved : Roomy registry viewport (state.frames.set frame.id
        { frame with floatRect := some (clampRect (precise fraction) spec (change rect) viewport) }) :=
      roomy.carried (CarriedIn.set found ⟨rfl, rfl, rfl, id, id⟩)
    exact bump_roomy moved (Dict.get?_set_self ..)
  · exact roomy

section
variable (inside : spec ∈ registry.specs) (named : spec.id = frame.id)
include inside named

theorem set_sized (changed : PanelFrame Num) (same : changed.id = frame.id) (size : changed.size = frame.size) :
    Sized registry (state.frames.set frame.id changed) :=
  roomy.sized.set_same found same size (List.mem_map.mpr ⟨spec, inside, named⟩)

variable (measured : Measured registry viewport)
include measured

theorem collapsePanel_roomy (collapsed : Option Bool) :
    Roomy registry viewport (collapsePanel (precise fraction) registry viewport state frame collapsed).frames := by
  rw [collapsePanel]
  split
  · exact roomy
  · have sized := set_sized roomy found inside named { frame with collapsed := collapsed.getD !frame.collapsed } rfl rfl
    exact fitMain_roomy measured sized _

theorem reopenPanel_roomy : Roomy registry viewport (reopenPanel (precise fraction) registry viewport state frame).frames := by
  let next : PanelFrame Num := { frame with isOpen := true, collapsed := false }
  have sized : Sized registry (state.frames.set frame.id next) := set_sized roomy found inside named next rfl rfl
  have here : (state.frames.set frame.id next).get? next.id = some next := Dict.get?_set_self ..
  exact bump_fitMain_roomy measured sized here _

end

end

theorem Sized.ordered (sized : Sized registry frames)
    (kept : ∀ {pid there}, other.get? pid = some there → ∃ before order, frames.get? pid = some before ∧ there = { before with order }) :
    Sized registry other := by
  refine sized.carried fun dock pid there found docked => ?_
  obtain ⟨before, order, found', rfl⟩ := kept found
  exact ⟨before, found', rfl, rfl, rfl, id, id⟩

theorem reorder_sized (sized : Sized registry frames) (dock : DockZone) : Sized registry (reorder (precise fraction) frames dock) := by
  refine sized.ordered fun {pid there} found => ?_
  obtain ⟨before, found', moved⟩ := reorder_found (numbers_lawful .finite fraction) sized.named dock found
  rcases moved with ⟨_, rfl⟩ | ⟨_, _, _, rfl⟩
  · exact ⟨there, there.order, found', rfl⟩
  · exact ⟨before, _, found', rfl⟩

theorem docking_sized (sized : Sized registry frames) {next : PanelFrame Num} (same : next.id = frame.id) {size : ℚ} (sizes : next.size = .finite size)
    (above : least registry frame.id ≤ size) : Sized registry (docking (precise fraction) frames frame next) := by
  have placed : Sized registry (frames.set frame.id next) := sized.set same sizes above
  refine placed.ordered fun {pid there} found => ?_
  rcases docking_found (numbers_lawful .finite fraction) sized.named found with ⟨rfl, rfl⟩ | ⟨differs, before, found', moved⟩
  · exact ⟨there, there.order, Dict.get?_set_self .., rfl⟩
  · have kept : (frames.set frame.id next).get? pid = some before := (Dict.get?_set_ne _ _ differs).trans found'
    rcases moved with ⟨_, rfl⟩ | ⟨_, _, _, rfl⟩
    · exact ⟨there, there.order, kept, rfl⟩
    · exact ⟨before, _, kept, rfl⟩

theorem dockPanel_roomy (measured : Measured registry viewport) (roomy : Roomy registry viewport state.frames) (inside : spec ∈ registry.specs) (named : spec.id = frame.id) (dock : DockZone) (index : Option Num) :
    Roomy registry viewport (dockPanel (precise fraction) registry viewport state spec frame dock index).frames := by
  by_cases allowed : dock ∈ spec.docks
  · obtain ⟨next, ⟨same, rfl, _, _⟩, ⟨size, _⟩, docked⟩ := dockPanel_eq (precise fraction) registry viewport state spec frame index allowed
    obtain ⟨value, above, sizes⟩ : ∃ value, spec.minSize.value ≤ value ∧
        clampSize (precise fraction) spec next.dock frame.size viewport = .finite value := clampSize_least measured inside next.dock frame.size
    rw [← least_of_mem inside, named] at above
    have placed : Sized registry (docking (precise fraction) state.frames frame next) := docking_sized roomy.sized same (size.trans sizes) above
    have here : (docking (precise fraction) state.frames frame next).get? next.id = some next := same ▸ Dict.get?_set_self ..
    rw [docked]
    split
    · rcases (reorder_spec (numbers_lawful .finite fraction) placed.named frame.dock).2 here with ⟨_, there⟩ | ⟨_, _, _, there⟩
      · exact bump_fitMain_roomy measured (reorder_sized placed _) there _
      · exact bump_fitMain_roomy measured (reorder_sized placed _) there _
    · exact bump_fitMain_roomy measured placed here _
  · rw [dockPanel, if_pos allowed]
    exact roomy

theorem carriedIn_elsewhere (docked : changed.dock ≠ dock) (frames : Frames Num) (pid : String) : CarriedIn dock frames (frames.set pid changed) := by
  intro id there found at_dock
  rw [Dict.get?_set] at found
  split at found
  · exact (docked (Option.some.inj found ▸ at_dock)).elim
  · exact ⟨there, found, .refl there⟩

/-- A panel may have a size that is its least one, or that leaves the main area its room. -/
structure Allowed (registry : Registry Num) (viewport : Viewport Num) (frames : Frames Num) (frame : PanelFrame Num) (size : ℚ) : Prop where
  above : least registry frame.id ≤ size
  beside : ∀ opposite, Sides frame.dock opposite → size = least registry frame.id ∨
    size + extent frames opposite none + sideChrome frames + MAIN_MIN_WIDTH ≤ viewport.width.value
  below : frame.dock = .bottom → size = least registry frame.id ∨ size ≤ stripLimit frames viewport

theorem Roomy.resized (roomy : Roomy registry viewport frames) (found : frames.get? frame.id = some frame) {size : ℚ}
    (allowed : Allowed registry viewport frames frame size) : Roomy registry viewport (frames.set frame.id { frame with size := .finite size }) where
  sized := roomy.sized.set rfl rfl allowed.above
  beside := by
    have chromes : sideChrome (frames.set frame.id { frame with size := .finite size }) = sideChrome frames :=
      sideChrome_of_spots (spots_set_same found rfl)
    intro pid there opposite found' sides live
    rw [chromes]
    rw [Dict.get?_set] at found'
    split at found'
    · -- The panel itself; the column on the other side is as it was.
      obtain rfl := Option.some.inj found'
      have reach : extent (frames.set frame.id { frame with size := .finite size }) opposite none ≤ extent frames opposite none :=
        extent_carried (carriedIn_elsewhere sides.apart.symm frames frame.id)
      refine (allowed.beside opposite sides).imp_right fun room => ?_
      have px : ({ frame with size := .finite size } : PanelFrame Num).px = size := rfl
      rw [px]
      linarith
    · refine (roomy.beside pid there opposite found' sides live).imp_right fun room => ?_
      -- A panel on the other side: how far this column reaches now is the width before or the new size.
      have bounded : extent (frames.set frame.id { frame with size := .finite size }) opposite none ≤
          viewport.width.value - MAIN_MIN_WIDTH - sideChrome frames - there.px := by
        rw [extent_le]
        refine ⟨by linarith [extent_nonneg frames opposite none], fun id other found'' counted => ?_⟩
        rw [Dict.get?_set] at found''
        split at found''
        · obtain rfl := Option.some.inj found''
          obtain ⟨docked, lives⟩ := shrinkable_none.mp counted
          have reach : frame.px ≤ extent frames opposite none := px_le_extent found (shrinkable_none.mpr ⟨docked, lives⟩)
          have sides' : Sides frame.dock there.dock := by
            have swapped := sides.swap
            rwa [← docked] at swapped
          have px : ({ frame with size := .finite size } : PanelFrame Num).px = size := rfl
          rw [px]
          rcases allowed.beside _ sides' with least | wide
          · have small := roomy.sized.least_le found
            have nonneg := extent_nonneg frames opposite none
            have reach' : max frame.px 0 ≤ extent frames opposite none := max_le reach nonneg
            linarith
          · have reach' : there.px ≤ extent frames there.dock none := px_le_extent found' (shrinkable_none.mpr ⟨rfl, live⟩)
            linarith
        · have reach : other.px ≤ extent frames opposite none := px_le_extent found'' counted
          linarith
      linarith
  below := by
    have spotted : spots (frames.set frame.id { frame with size := .finite size }) = spots frames := spots_set_same found rfl
    have strip : stripLimit (frames.set frame.id { frame with size := .finite size }) viewport = stripLimit frames viewport := by
      rw [stripLimit, stripLimit, chrome_of_spots spotted]
    intro pid there found' docked live
    rw [strip]
    rw [Dict.get?_set] at found'
    split at found'
    · obtain rfl := Option.some.inj found'
      exact allowed.below docked
    · exact roomy.below pid there found' docked live

theorem crossLimit_sides (measured : Measured registry viewport) (sized : Sized registry frames) {opposite : DockZone} (sides : Sides dock opposite) :
    crossLimit (precise fraction) frames dock viewport =
      some (.finite (viewport.width.value - MAIN_MIN_WIDTH - extent frames opposite none - sideChrome frames)) := by
  cases sides <;> simp only [crossLimit] <;> rw [width_eq measured, columnExtent_eq sized] <;> simp

theorem capped (least size limit : ℚ) : max least (min size limit) = least ∨ max least (min size limit) ≤ limit := by
  rcases le_total (min size limit) least with small | large
  · exact .inl (max_eq_left small)
  · right
    rw [max_eq_right large]
    exact min_le_right ..

theorem resizePanel_roomy (measured : Measured registry viewport) (roomy : Roomy registry viewport state.frames)
    (found : state.frames.get? frame.id = some frame) (inside : spec ∈ registry.specs) (named : spec.id = frame.id) (size : Num) :
    Roomy registry viewport (resizePanel (precise fraction) viewport state spec frame size).frames := by
  obtain ⟨clamped, above, clamp⟩ : ∃ value, spec.minSize.value ≤ value ∧ clampSize (precise fraction) spec frame.dock size viewport = .finite value :=
    clampSize_least measured inside frame.dock size
  have minimum : spec.minSize = .finite (least registry frame.id) := by
    obtain ⟨value, whole⟩ := measured.whole spec inside
    rw [← named, least_of_mem inside, whole]
    rfl
  rw [minimum, Num.value_finite] at above
  have limits : ∃ given, (precise fraction).max spec.minSize (((crossLimit (precise fraction) state.frames frame.dock viewport).map
      ((precise fraction).min (clampSize (precise fraction) spec frame.dock size viewport))).getD (clampSize (precise fraction) spec frame.dock size viewport)) =
        .finite given ∧ Allowed registry viewport state.frames frame given := by
    have apart : ∀ {opposite}, ¬ Sides .main opposite ∧ ¬ Sides .float opposite ∧ ¬ Sides .bottom opposite := by
      intro opposite
      exact ⟨nofun, nofun, nofun⟩
    have column : ∀ opposite, Sides frame.dock opposite → ∃ given, (precise fraction).max spec.minSize
        (((crossLimit (precise fraction) state.frames frame.dock viewport).map ((precise fraction).min (.finite clamped))).getD (.finite clamped)) =
          .finite given ∧ Allowed registry viewport state.frames frame given := by
      intro opposite sides
      rw [crossLimit_sides measured roomy.sized sides, minimum]
      simp only [Option.map_some, Option.getD_some, precise_min, precise_max]
      refine ⟨_, rfl, le_max_left .., fun other sides' => ?_, fun strip => (apart.2.2 (strip ▸ sides)).elim⟩
      obtain rfl := sides.unique sides'
      refine (capped _ _ _).imp_right fun below => ?_
      linarith
    rw [clamp]
    cases docked : frame.dock with
    | left => exact docked ▸ column .right (docked ▸ .left)
    | right => exact docked ▸ column .left (docked ▸ .right)
    | bottom =>
      rw [crossLimit, bottomLimit_eq measured, minimum]
      simp only [Option.map_some, Option.getD_some, precise_min, precise_max]
      exact ⟨_, rfl, le_max_left .., fun _ sides => (apart.2.2 (docked ▸ sides)).elim, fun _ => capped _ _ _⟩
    | main =>
      rw [minimum]
      simp only [crossLimit, Option.map_none, Option.getD_none, precise_max]
      exact ⟨_, rfl, le_max_left .., fun _ sides => (apart.1 (docked ▸ sides)).elim, fun strip => nomatch docked.symm.trans strip⟩
    | float =>
      rw [minimum]
      simp only [crossLimit, Option.map_none, Option.getD_none, precise_max]
      exact ⟨_, rfl, le_max_left .., fun _ sides => (apart.2.1 (docked ▸ sides)).elim, fun strip => nomatch docked.symm.trans strip⟩
  obtain ⟨given, same, allowed⟩ := limits
  rw [resizePanel]
  simp only [same]
  split
  · exact roomy
  · exact roomy.resized found allowed

theorem panelAction_roomy (measured : Measured registry viewport) (roomy : Roomy registry viewport state.frames)
    (found : state.frames.get? frame.id = some frame) (inside : spec ∈ registry.specs) (named : spec.id = frame.id) (action : LayoutAction Num) :
    Roomy registry viewport (panelAction (precise fraction) registry viewport state spec frame action).frames := by
  cases action with
  | dock pid dock index => exact dockPanel_roomy measured roomy inside named dock index
  | resize pid size => exact resizePanel_roomy measured roomy found inside named size
  | moveFloat pid x y => exact changeFloat_roomy roomy found _
  | resizeFloat pid w h => exact changeFloat_roomy roomy found _
  | collapse pid collapsed => exact collapsePanel_roomy roomy found inside named measured collapsed
  | close pid => exact closePanel_roomy roomy found
  | reopen pid => exact reopenPanel_roomy roomy found inside named measured
  | focus pid => exact focusPanel_roomy roomy found
  | split mode => exact roomy
  | viewport => exact roomy
  | reset => exact roomy

theorem layoutReducer_roomy (measured : Measured registry viewport) (roomy : Roomy registry viewport state.frames) (action : LayoutAction Num) :
    Roomy registry viewport (layoutReducer (precise fraction) registry viewport state action).frames := by
  cases panel : action.panel with
  | some pid =>
    rw [layoutReducer_panel panel]
    split
    · rename_i spec frame registered found
      obtain ⟨inside, same⟩ := specOf_some registered
      obtain rfl := roomy.sized.named found
      exact panelAction_roomy measured roomy found inside same action
    · exact roomy
  | none =>
    cases action with
    | split mode => exact roomy
    | viewport => exact refit_roomy measured roomy.sized.loose
    | reset => exact reset_roomy measured
    | _ => exact nomatch panel

theorem run_roomy (measured : Measured registry viewport) (roomy : Roomy registry viewport state.frames) (actions : List (LayoutAction Num)) :
    Roomy registry viewport (run (precise fraction) registry state (actions.map (·, viewport))).frames := by
  induction actions generalizing state with
  | nil => exact roomy
  | cons action rest ih =>
    apply ih
    exact layoutReducer_roomy measured roomy action

/-- No open panel beside or below the main area is below its least size. The main area has its least width, or each panel
that determines how far a column reaches is at its least size; likewise with its height and the strip at the bottom. -/
structure Usable {ν : Type} (js : Numbers ν) (registry : Registry ν) (viewport : Viewport ν) (frames : Frames ν) : Prop where
  least : ∀ spec ∈ registry.specs, ∀ frame, frames.get? spec.id = some frame → frame.isOpen = true → frame.dock ∈ [.left, .right, .bottom] →
    js.le spec.minSize frame.size = true
  width : js.le (js.ofInt MAIN_MIN_WIDTH) (mainArea js frames viewport).width = true ∨ ∀ pid frame, frames.get? pid = some frame →
    frame.dock ∈ [.left, .right] → frame.live = true → frame.size = columnExtent js frames frame.dock none → frame.size = minSizeOf js registry.specs frame.id
  height : js.le (js.ofInt MAIN_MIN_HEIGHT) (mainArea js frames viewport).height = true ∨ ∀ pid frame, frames.get? pid = some frame →
    frame.dock = .bottom → frame.live = true → frame.size = columnExtent js frames .bottom none → frame.size = minSizeOf js registry.specs frame.id

theorem Roomy.usable (measured : Measured registry viewport) (roomy : Roomy registry viewport frames) : Usable (precise fraction) registry viewport frames where
  least := by
    intro spec inside frame found _ _
    have above := roomy.sized.least found (List.mem_map_of_mem inside)
    obtain ⟨value, whole⟩ := measured.whole spec inside
    rw [roomy.sized.named found, least_of_mem inside, whole] at above
    rw [roomy.sized.finite found, whole, precise_le]
    exact decide_eq_true above
  width := by
    have area : (mainArea (precise fraction) frames viewport).width = .finite (viewport.width.value - extent frames .left none -
        extent frames .right none - sideChrome frames) := by
      simp only [mainArea]
      rw [width_eq measured, columnExtent_eq roomy.sized, columnExtent_eq roomy.sized]
      simp
    rw [area, precise_ofInt, precise_le, decide_eq_true_eq]
    refine or_iff_not_imp_left.mpr fun narrow pid frame found docked live determines => ?_
    obtain ⟨opposite, sides⟩ : ∃ opposite, Sides frame.dock opposite := by
      simp only [List.mem_cons, List.not_mem_nil, or_false] at docked
      rcases docked with docked | docked
      · exact ⟨.right, docked ▸ .left⟩
      · exact ⟨.left, docked ▸ .right⟩
    have reach : frame.px = extent frames frame.dock none := by
      rw [PanelFrame.px, determines, columnExtent_eq roomy.sized, Num.value_finite]
    rw [minSizeOf_eq measured, roomy.sized.finite found]
    rcases roomy.beside pid frame opposite found sides live with least | room
    · rw [least]
    · have total := excess_sides sides frames viewport
      rw [excess] at total
      exact (narrow (by linarith)).elim
  height := by
    have area : (mainArea (precise fraction) frames viewport).height = .finite (viewport.height.value -
        (viewport.reserveTop.getD (.finite 0)).value - extent frames .bottom none - chrome frames .bottom) := by
      simp only [mainArea]
      rw [height_eq measured, columnExtent_eq roomy.sized, precise_ofInt, Int.cast_zero, top_eq measured]
      simp
    rw [area, precise_ofInt, precise_le, decide_eq_true_eq]
    refine or_iff_not_imp_left.mpr fun narrow pid frame found docked live determines => ?_
    have reach : frame.px = extent frames .bottom none := by
      rw [PanelFrame.px, determines, columnExtent_eq roomy.sized, Num.value_finite]
    rw [minSizeOf_eq measured, roomy.sized.finite found]
    rcases roomy.below pid frame found docked live with least | room
    · rw [least]
    · rw [stripLimit] at room
      exact (narrow (by linarith)).elim

/-- The actions that fit a layout, whatever it was before. -/
inductive Starts (registry : Registry Num) (state : LayoutState Num) : LayoutAction Num → Prop where
  | reset : Starts registry state .reset
  | viewport (loose : Loose registry state.frames) : Starts registry state .viewport

/-- Once a reset or a change of the viewport has fitted a layout, the main area stays usable, whatever actions follow: when the
arithmetic is exact and the least sizes of panels are whole numbers of pixels. -/
theorem main_area_usable (fraction : ℚ) (registry : Registry Num) (viewport : Viewport Num) (measured : Measured registry viewport)
    (state : LayoutState Num) (first : LayoutAction Num) (starts : Starts registry state first) (actions : List (LayoutAction Num)) :
    Usable (precise fraction) registry viewport (run (precise fraction) registry state ((first :: actions).map (·, viewport))).frames := by
  apply Roomy.usable measured
  have fitted : Roomy registry viewport (layoutReducer (precise fraction) registry viewport state first).frames := by
    cases starts with
    | reset => exact reset_roomy measured
    | viewport loose => exact refit_roomy measured loose
  exact run_roomy measured fitted actions

/-- A build with a panel whose least size is no whole number. -/
def fractionalOnly : Registry Num where
  specs := [⟨"notes", .left, [.left], .finite 100, .finite (502 / 5), none, none, none⟩]
  distinct := by decide
  docked := by decide

/-- Its panel is below its least size once the layout is reset. -/
theorem not_every_panel_at_least : ¬ ∀ actions : List (LayoutAction Num),
    Usable (precise (3 / 5)) fractionalOnly desktop (run (precise (3 / 5)) fractionalOnly (createDefaultLayout (precise (3 / 5)) fractionalOnly desktop ∅)
      ((.reset :: actions).map (·, desktop))).frames := by
  intro usable
  have small : ((run (precise (3 / 5)) fractionalOnly (createDefaultLayout (precise (3 / 5)) fractionalOnly desktop ∅)
      [(.reset, desktop)]).frames.get? "notes").map (fun frame => (frame.isOpen, frame.dock, frame.size)) = some (true, .left, .finite 100) := by
    decide +kernel
  obtain ⟨frame, found, same⟩ := Option.map_eq_some_iff.mp small
  obtain ⟨isOpen, docked, size⟩ : frame.isOpen = true ∧ frame.dock = .left ∧ frame.size = .finite 100 := by simpa using same
  have least := (usable []).least _ (List.mem_singleton_self _) frame found isOpen (docked ▸ List.mem_cons_self ..)
  rw [size] at least
  exact absurd least (by decide +kernel)

theorem inspector_measured : Measured inspectorOnly desktop where
  whole := by
    intro spec inside
    obtain rfl := List.mem_singleton.mp inside
    exact ⟨200, rfl⟩
  default := by
    intro spec inside
    obtain rfl := List.mem_singleton.mp inside
    exact nofun
  most := by
    intro spec inside
    obtain rfl := List.mem_singleton.mp inside
    exact nofun
  width := ⟨1280, rfl⟩
  height := ⟨800, rfl⟩
  top := nofun

/-- The main area beside a panel that is made as wide as it may be, closed and opened again. -/
theorem inspector_usable : Usable (precise (3 / 5)) inspectorOnly desktop (run (precise (3 / 5)) inspectorOnly
    (createDefaultLayout (precise (3 / 5)) inspectorOnly desktop ∅)
      ((.reset :: [.resize "inspector" (.infinite false), .resize "inspector" (.finite 5000), .close "inspector", .reopen "inspector"]).map (·, desktop))).frames :=
  main_area_usable (3 / 5) inspectorOnly desktop inspector_measured _ .reset .reset _

end NovelStudio.Layout
