import NovelStudio.Layout.Reached

/-! With one viewport, and integers only, every frame keeps a size and a rectangle that clamping leaves as they are. -/

namespace NovelStudio.Layout

open Library

variable {share : Int → Int} {registry : Registry Int} {viewport : Viewport Int}
variable {frames : Frames Int} {state : LayoutState Int} {frame changed : PanelFrame Int} {spec : PanelSpec Int}

theorem clampSize_integers (share : Int → Int) (spec : PanelSpec Int) (dock : DockZone) (size : Int) (viewport : Viewport Int) :
    clampSize (integers share) spec dock size viewport = max spec.minSize (min (maxSizeFor (integers share) spec dock viewport) size) := rfl

theorem clampSize_eq_self {dock : DockZone} {size : Int} : clampSize (integers share) spec dock size viewport = size ↔
    spec.minSize ≤ size ∧ (size ≤ maxSizeFor (integers share) spec dock viewport ∨ size = spec.minSize) := by
  rw [clampSize_integers]
  omega

theorem clampSize_clampSize (dock : DockZone) (size : Int) :
    clampSize (integers share) spec dock (clampSize (integers share) spec dock size viewport) viewport =
      clampSize (integers share) spec dock size viewport := by
  rw [clampSize_eq_self, clampSize_integers]
  omega

theorem clampRect_clampRect (rect : Rect Int) : clampRect (integers share) spec (clampRect (integers share) spec rect viewport) viewport =
    clampRect (integers share) spec rect viewport := by
  simp only [clampRect, integers, MIN_FLOAT_VISIBLE, Rect.mk.injEq]
  omega

/-- Clamping leaves the frame as it is, and it has a rectangle where it floats. -/
structure Fits (share : Int → Int) (viewport : Viewport Int) (spec : PanelSpec Int) (frame : PanelFrame Int) : Prop where
  size : clampSize (integers share) spec frame.dock frame.size viewport = frame.size
  rect : ∀ rect, frame.floatRect = some rect → clampRect (integers share) spec rect viewport = rect
  floats : frame.dock = .float → frame.floatRect.isSome = true

/-- The frame fits the panel that it is of. -/
def Settled (share : Int → Int) (registry : Registry Int) (viewport : Viewport Int) (frame : PanelFrame Int) : Prop :=
  ∀ spec ∈ registry.specs, spec.id = frame.id → Fits share viewport spec frame

theorem Settled.congr (settled : Settled share registry viewport frame) (named : changed.id = frame.id) (dock : changed.dock = frame.dock)
    (size : changed.size = frame.size) (rect : changed.floatRect = frame.floatRect) : Settled share registry viewport changed := by
  intro spec inside same
  obtain ⟨fits, clamped, floats⟩ := settled spec inside (same.trans named)
  exact ⟨by rw [dock, size, fits], by rw [rect]; exact clamped, by rw [dock, rect]; exact floats⟩

theorem Settled.shrunk (settled : Settled share registry viewport frame) {size : Int} (smaller : size ≤ frame.size) :
    Settled share registry viewport { frame with size := max (minSizeOf (integers share) registry.specs frame.id) size } := by
  intro spec inside same
  obtain ⟨fits, clamped, floats⟩ := settled spec inside same
  have registered : specOf registry.specs frame.id = some spec := same ▸ specOf_of_mem inside
  have least : minSizeOf (integers share) registry.specs frame.id = spec.minSize := by
    rw [minSizeOf, registered]
    rfl
  refine ⟨?_, clamped, floats⟩
  rw [clampSize_eq_self] at fits ⊢
  rw [least]
  simp only
  omega

def Every (holds : PanelFrame Int → Prop) (frames : Frames Int) : Prop := ∀ pid frame, frames.get? pid = some frame → holds frame

section
variable {holds : PanelFrame Int → Prop}

theorem Every.set (every : Every holds frames) (pid : String) (held : holds changed) : Every holds (frames.set pid changed) := by
  intro other frame found
  rw [Dict.get?_set] at found
  split at found
  · exact Option.some.inj found ▸ held
  · exact every other frame found

theorem Every.mapValues (every : Every holds frames) {change : String → PanelFrame Int → PanelFrame Int}
    (kept : ∀ pid frame, holds frame → holds (change pid frame)) : Every holds (frames.mapValues change) := by
  intro pid frame found
  rw [Dict.get?_mapValues, Option.map_eq_some_iff] at found
  obtain ⟨before, there, rfl⟩ := found
  exact kept _ _ (every _ _ there)

theorem Every.assignOrders (every : Every holds frames) (js : Numbers Int) (insensitive : ∀ frame order, holds frame → holds { frame with order })
    (place : Nat → Nat) (list : List (PanelFrame Int)) (start : Nat) (listed : ∀ frame ∈ list, holds frame) :
    Every holds ((list.zipIdx start).foldl (fun frames (frame, index) =>
      if js.same frame.order (js.ofInt (place index)) then frames
      else frames.set frame.id { frame with order := js.ofInt (place index) }) frames) := by
  induction list generalizing start frames with
  | nil => exact every
  | cons first rest ih =>
    rw [List.forall_mem_cons] at listed
    rw [List.zipIdx_cons, List.foldl_cons]
    refine ih ?_ (start + 1) listed.2
    simp only
    split
    · exact every
    · exact every.set _ (insensitive _ _ listed.1)

end

abbrev AllSettled (share : Int → Int) (registry : Registry Int) (viewport : Viewport Int) (frames : Frames Int) : Prop :=
  Every (Settled share registry viewport) frames

section
variable (settled : AllSettled share registry viewport frames)
include settled

theorem shrink_settled (chosen : PanelFrame Int → Bool) {excess : Int} (positive : 0 ≤ excess) :
    AllSettled share registry viewport (shrink (integers share) registry.specs chosen excess frames) := by
  refine settled.mapValues fun pid frame held => ?_
  split
  · refine held.shrunk ?_
    simp only [integers]
    omega
  · exact held

theorem fitBoth_settled (keepId : Option String) (first second : DockZone) (excess : 0 ≤ overflow (integers share) frames viewport) :
    AllSettled share registry viewport (fitBoth (integers share) registry.specs viewport keepId first second frames) := by
  have shrunk := shrink_settled settled (shrinkable first keepId) excess
  rw [fitBoth]
  split
  · rename_i rest
    exact shrink_settled shrunk _ (le_of_lt (of_decide_eq_true rest))
  · exact shrunk

theorem fitColumns_settled (keepId : Option String) (excess : 0 ≤ overflow (integers share) frames viewport) :
    AllSettled share registry viewport (fitColumns (integers share) registry.specs viewport keepId frames) := by
  rw [fitColumns]
  split
  · exact fitBoth_settled settled keepId .left .right excess
  · exact fitBoth_settled settled keepId .right .left excess

theorem fitBottom_settled : AllSettled share registry viewport (fitBottom (integers share) registry.specs viewport frames) := by
  refine settled.mapValues fun pid frame held => ?_
  split
  · rename_i above
    rw [Bool.and_eq_true] at above
    exact held.shrunk (le_of_lt (of_decide_eq_true above.2))
  · exact held

theorem fitMain_settled (keepId : Option String) :
    AllSettled share registry viewport (fitMain (integers share) registry.specs viewport keepId frames) := by
  have excess : ∀ {frames : Frames Int}, ¬ (integers share).le (overflow (integers share) frames viewport) ((integers share).ofInt 0) = true →
      0 ≤ overflow (integers share) frames viewport := by
    intro frames exceeds
    have exceeds := of_decide_eq_false (Bool.eq_false_iff.mpr exceeds)
    exact le_of_lt (not_le.mp exceeds)
  refine fitBottom_settled ?_
  split
  · exact settled
  · rename_i exceeds
    have first := fitColumns_settled settled keepId (excess exceeds)
    simp only
    split
    · exact first
    · rename_i still
      exact fitColumns_settled first none (excess still)

end

theorem defaultFrames_settled : AllSettled share registry viewport (defaultFrames (integers share) registry viewport) := by
  intro pid frame found spec inside same
  obtain ⟨index, own, located, _, rfl⟩ := defaultFrames_found found
  obtain rfl := List.inj_on_of_nodup_map registry.distinct inside (List.mem_of_getElem? located) same
  refine ⟨clampSize_clampSize _ _, fun rect held => ?_, fun floats => ?_⟩
  · rw [defaultFrame] at held
    simp only at held
    split at held
    · exact Option.some.inj held ▸ clampRect_clampRect _
    · cases held
  · rw [defaultFrame] at floats ⊢
    simp only at floats ⊢
    rw [if_pos floats]
    rfl

theorem bump_settled (settled : AllSettled share registry viewport frames) (held : Settled share registry viewport changed) :
    AllSettled share registry viewport (bump state changed frames).frames := by
  refine settled.set _ ?_
  cases there : frames.get? changed.id with
  | none => exact held.congr rfl rfl rfl rfl
  | some frame => exact (settled _ _ there).congr rfl rfl rfl rfl

theorem ordered_settled (settled : AllSettled share registry viewport frames) (place : Nat → Nat) (dock : DockZone) (exceptId : Option String) :
    AllSettled share registry viewport (assignOrders (integers share) place frames (ordered (integers share) frames dock exceptId)) := by
  refine settled.assignOrders _ (fun frame order held => held.congr rfl rfl rfl rfl) place _ 0 fun frame member => ?_
  obtain ⟨⟨pid, found⟩, _⟩ := mem_ordered.mp member
  exact settled _ _ found

theorem settled_of_fits (inside : spec ∈ registry.specs) (named : spec.id = frame.id) (fits : Fits share viewport spec frame) :
    Settled share registry viewport frame := by
  intro other inside' same
  exact List.inj_on_of_nodup_map registry.distinct inside inside' (named.trans same.symm) ▸ fits

section
variable (settled : AllSettled share registry viewport state.frames) (found : state.frames.get? frame.id = some frame)
include settled found

theorem dockPanel_settled (inside : spec ∈ registry.specs) (named : spec.id = frame.id) (dock : DockZone) (index : Option Int) :
    AllSettled share registry viewport (dockPanel (integers share) registry viewport state spec frame dock index).frames := by
  by_cases allowed : dock ∈ spec.docks
  · obtain ⟨next, ⟨same, rfl, _, _⟩, ⟨size, rect⟩, docked⟩ := dockPanel_eq (integers share) registry viewport state spec frame index allowed
    obtain ⟨fits, clamped, floats⟩ := settled _ _ found spec inside named
    have fitting : Settled share registry viewport next := by
      refine settled_of_fits inside (named.trans same.symm) ⟨?_, fun held there => ?_, fun float => ?_⟩
      · rw [size, clampSize_clampSize]
      · rw [rect] at there
        split at there
        · exact Option.some.inj there ▸ clampRect_clampRect _
        · exact clamped held there
      · rw [rect, if_pos float]
        rfl
    have placed : AllSettled share registry viewport (docking (integers share) state.frames frame next) :=
      (ordered_settled settled _ _ _).set _ fitting
    rw [docked]
    refine bump_settled (fitMain_settled ?_ _) fitting
    split
    · exact ordered_settled placed _ _ _
    · exact placed
  · rw [dockPanel, if_pos allowed]
    exact settled

theorem resizePanel_settled (inside : spec ∈ registry.specs) (named : spec.id = frame.id) (size : Int) :
    AllSettled share registry viewport (resizePanel (integers share) viewport state spec frame size).frames := by
  obtain ⟨fits, clamped, floats⟩ := settled _ _ found spec inside named
  rw [resizePanel]
  split
  · exact settled
  · refine settled.set _ (settled_of_fits inside named ⟨?_, clamped, floats⟩)
    rw [clampSize_eq_self] at fits ⊢
    have bounded := clampSize_integers share spec frame.dock size viewport
    cases crossLimit (integers share) state.frames frame.dock viewport with
    | none =>
      simp only [integers, Option.map_none, Option.getD_none] at bounded ⊢
      omega
    | some limit =>
      simp only [integers, Option.map_some, Option.getD_some] at bounded ⊢
      omega

theorem changeFloat_settled (inside : spec ∈ registry.specs) (named : spec.id = frame.id) (change : Rect Int → Rect Int) :
    AllSettled share registry viewport (changeFloat (integers share) viewport state spec frame change).frames := by
  obtain ⟨fits, _, _⟩ := settled _ _ found spec inside named
  rw [changeFloat]
  split
  · rename_i rect _ _
    have next : Settled share registry viewport { frame with floatRect := some (clampRect (integers share) spec (change rect) viewport) } := by
      refine settled_of_fits inside named ⟨fits, fun rect held => ?_, fun _ => rfl⟩
      exact Option.some.inj held ▸ clampRect_clampRect _
    exact bump_settled (settled.set _ next) next
  · exact settled

theorem collapsePanel_settled (collapsed : Option Bool) :
    AllSettled share registry viewport (collapsePanel (integers share) registry viewport state frame collapsed).frames := by
  have folded : Settled share registry viewport { frame with collapsed := collapsed.getD !frame.collapsed } :=
    (settled _ _ found).congr rfl rfl rfl rfl
  rw [collapsePanel]
  split
  · exact settled
  · exact fitMain_settled (settled.set _ folded) _

theorem closePanel_settled : AllSettled share registry viewport (closePanel state frame).frames := by
  have closed : Settled share registry viewport { frame with isOpen := false } := (settled _ _ found).congr rfl rfl rfl rfl
  rw [closePanel]
  split
  · exact settled
  · have changed := settled.set frame.id closed
    exact changed

theorem reopenPanel_settled : AllSettled share registry viewport (reopenPanel (integers share) registry viewport state frame).frames := by
  have next : Settled share registry viewport { frame with isOpen := true, collapsed := false } := (settled _ _ found).congr rfl rfl rfl rfl
  exact bump_settled (fitMain_settled (settled.set _ next) _) next

theorem focusPanel_settled : AllSettled share registry viewport (focusPanel state frame).frames := by
  rw [focusPanel]
  split
  · exact settled
  · exact bump_settled settled (settled _ _ found)

theorem panelAction_settled (inside : spec ∈ registry.specs) (named : spec.id = frame.id) (action : LayoutAction Int) :
    AllSettled share registry viewport (panelAction (integers share) registry viewport state spec frame action).frames := by
  cases action with
  | dock pid dock index => exact dockPanel_settled settled found inside named dock index
  | resize pid size => exact resizePanel_settled settled found inside named size
  | moveFloat pid x y => exact changeFloat_settled settled found inside named _
  | resizeFloat pid w h => exact changeFloat_settled settled found inside named _
  | collapse pid collapsed => exact collapsePanel_settled settled found collapsed
  | close pid => exact closePanel_settled settled found
  | reopen pid => exact reopenPanel_settled settled found
  | focus pid => exact focusPanel_settled settled found
  | split mode => exact settled
  | viewport => exact settled
  | reset => exact settled

end

theorem refit_settled (settled : AllSettled share registry viewport state.frames) :
    AllSettled share registry viewport (refit (integers share) registry viewport state).frames := by
  rw [refit]
  split
  · refine fitMain_settled (settled.mapValues fun pid frame held => ?_) none
    rw [clampFrame]
    split
    · exact held
    · rename_i spec registered
      obtain ⟨inside, same⟩ := specOf_some registered
      simp only
      split
      · refine settled_of_fits inside same ⟨clampSize_clampSize _ _, fun rect there => ?_, fun float => ?_⟩
        · obtain ⟨before, _, rfl⟩ := Option.map_eq_some_iff.mp there
          exact clampRect_clampRect _
        · exact Option.isSome_map.trans ((held spec inside same).floats float)
      · exact held
  · exact settled

theorem layoutReducer_settled (sound : Sound registry state) (settled : AllSettled share registry viewport state.frames) (action : LayoutAction Int) :
    AllSettled share registry viewport (layoutReducer (integers share) registry viewport state action).frames := by
  cases panel : action.panel with
  | some pid =>
    rw [layoutReducer_panel panel]
    split
    · rename_i spec frame registered found
      obtain ⟨inside, same⟩ := specOf_some registered
      obtain rfl := sound.arranged.named found
      exact panelAction_settled settled found inside same action
    · exact settled
  | none =>
    cases action with
    | split mode => exact settled
    | viewport => exact refit_settled settled
    | reset => exact fitMain_settled defaultFrames_settled none
    | _ => exact nomatch panel

theorem run_settled (sound : Sound registry state) (settled : AllSettled share registry viewport state.frames) (actions : List (LayoutAction Int)) :
    AllSettled share registry viewport (run (integers share) registry state (actions.map (·, viewport))).frames := by
  induction actions generalizing state with
  | nil => exact settled
  | cons action rest ih =>
    exact ih (layoutReducer_kept (integers_lawful share) sound action).sound (layoutReducer_settled sound settled action)

end NovelStudio.Layout
