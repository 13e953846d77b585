import Mathlib.Data.List.Sort
import NovelStudio.Layout.Numbers
import NovelStudio.Library.Dict
import NovelStudio.Library.Json

/-! The layout of a workspace (`model.ts`): panels with their frames, and the reducer. -/

namespace NovelStudio.Layout

open Library

inductive DockZone where
  | left | main | right | bottom | float
  deriving DecidableEq

inductive SplitMode where
  | single | splitH | splitV
  deriving DecidableEq

structure Rect (ν : Type) where
  x : ν
  y : ν
  w : ν
  h : ν
  deriving DecidableEq

structure Viewport (ν : Type) where
  width : ν
  height : ν
  reserveTop : Option ν

structure PanelSpec (ν : Type) where
  id : String
  defaultDock : DockZone
  docks : List DockZone
  defaultSize : ν
  minSize : ν
  maxSize : Option ν
  defaultOpen : Option Bool
  defaultCollapsed : Option Bool

/-- The panels of a build: their ids are distinct, and each may be where it is by default. -/
structure Registry (ν : Type) where
  specs : List (PanelSpec ν)
  distinct : (specs.map PanelSpec.id).Nodup
  docked : ∀ spec ∈ specs, spec.defaultDock ∈ spec.docks

structure PanelFrame (ν : Type) where
  id : String
  dock : DockZone
  order : ν
  size : ν
  collapsed : Bool
  isOpen : Bool
  z : Nat
  floatRect : Option (Rect ν)
  deriving DecidableEq

abbrev Frames (ν : Type) := Dict String (PanelFrame ν)

structure LayoutState (ν : Type) where
  split : SplitMode
  frames : Frames ν
  focusId : Option String
  zTop : Nat
  preserved : Dict String Json

variable {ν : Type} (js : Numbers ν)

def MIN_FLOAT_VISIBLE : Int := 48
def MAIN_MIN_WIDTH : Int := 320
def MAIN_MIN_HEIGHT : Int := 200
def DOCK_CHROME_PX : Int := 6

def maxSizeFor (spec : PanelSpec ν) (dock : DockZone) (viewport : Viewport ν) : ν :=
  let axis := if dock = .bottom then viewport.height else viewport.width
  let share := if dock = .main ∨ dock = .float then js.floor axis else js.dockShare axis
  let viewportMax := js.max spec.minSize share
  match spec.maxSize with
  | none => viewportMax
  | some maxSize => js.min maxSize viewportMax

def clampSize (spec : PanelSpec ν) (dock : DockZone) (size : ν) (viewport : Viewport ν) : ν :=
  let size := if js.isFinite size then size else spec.defaultSize
  js.round (js.max spec.minSize (js.min (maxSizeFor js spec dock viewport) size))

def clampRect (spec : PanelSpec ν) (rect : Rect ν) (viewport : Viewport ν) : Rect ν :=
  let visible := js.ofInt MIN_FLOAT_VISIBLE
  let w := js.max spec.minSize (js.min rect.w viewport.width)
  let h := js.max visible (js.min rect.h viewport.height)
  let x := js.max (js.sub visible w) (js.min rect.x (js.sub viewport.width visible))
  let y := js.max (js.ofInt 0) (js.min rect.y (js.sub viewport.height visible))
  ⟨js.round x, js.round y, js.round w, js.round h⟩

def hasLive (frames : Frames ν) (dock : DockZone) : Bool := frames.values.any fun frame => frame.dock = dock && frame.isOpen

def chrome (frames : Frames ν) (dock : DockZone) : Int := if hasLive frames dock then DOCK_CHROME_PX else 0

def sideChrome (frames : Frames ν) : Int := chrome frames .left + chrome frames .right

def bottomLimit (frames : Frames ν) (viewport : Viewport ν) : ν :=
  js.sub (js.sub (js.sub viewport.height (viewport.reserveTop.getD (js.ofInt 0))) (js.ofInt MAIN_MIN_HEIGHT)) (js.ofInt (chrome frames .bottom))

def columnExtent (frames : Frames ν) (dock : DockZone) (exceptId : Option String) : ν :=
  frames.values.foldl (fun w frame =>
    if frame.dock = dock && frame.isOpen && !frame.collapsed && some frame.id ≠ exceptId then js.max w frame.size else w) (js.ofInt 0)

/-- `crossLimit`, where it is no infinity. -/
def crossLimit (frames : Frames ν) (dock : DockZone) (viewport : Viewport ν) : Option ν :=
  let side (opposite : DockZone) : ν :=
    js.sub (js.sub (js.sub viewport.width (js.ofInt MAIN_MIN_WIDTH)) (columnExtent js frames opposite none)) (js.ofInt (sideChrome frames))
  match dock with
  | .left => some (side .right)
  | .right => some (side .left)
  | .bottom => some (bottomLimit js frames viewport)
  | _ => none

section Fitting
variable (specs : List (PanelSpec ν))

def specOf (id : String) : Option (PanelSpec ν) := specs.find? (·.id = id)

def minSizeOf (id : String) : ν := ((specOf specs id).map PanelSpec.minSize).getD (js.ofInt 0)

/-- `shrink`: every frame is kept under its own id. -/
def shrink (chosen : PanelFrame ν → Bool) (excess : ν) (frames : Frames ν) : Frames ν :=
  frames.mapValues fun _ frame =>
    if chosen frame then { frame with size := js.max (minSizeOf js specs frame.id) (js.sub frame.size excess) } else frame

/-- How far the side columns reach into the least width of the main area. -/
def overflow (frames : Frames ν) (viewport : Viewport ν) : ν :=
  let columns := js.add (columnExtent js frames .left none) (columnExtent js frames .right none)
  js.sub (js.add (js.add columns (js.ofInt (sideChrome frames))) (js.ofInt MAIN_MIN_WIDTH)) viewport.width

/-- The frames of a column that a pass may shrink; the first spares `keepId`. -/
def shrinkable (dock : DockZone) (keepId : Option String) (frame : PanelFrame ν) : Bool :=
  frame.dock = dock && (frame.isOpen && !frame.collapsed) && some frame.id ≠ keepId

/-- A pass over both columns, the second one only as far as the first does not make room. -/
def fitBoth (viewport : Viewport ν) (keepId : Option String) (first second : DockZone) (frames : Frames ν) : Frames ν :=
  let shrunk := shrink js specs (shrinkable first keepId) (overflow js frames viewport) frames
  let rest := overflow js shrunk viewport
  if js.lt (js.ofInt 0) rest then shrink js specs (shrinkable second keepId) rest shrunk else shrunk

/-- The wider column is the first. -/
def fitColumns (viewport : Viewport ν) (keepId : Option String) (frames : Frames ν) : Frames ν :=
  if js.le (columnExtent js frames .right keepId) (columnExtent js frames .left keepId) then
    fitBoth js specs viewport keepId .left .right frames
  else fitBoth js specs viewport keepId .right .left frames

def fitBottom (viewport : Viewport ν) (frames : Frames ν) : Frames ν :=
  let limit := bottomLimit js frames viewport
  frames.mapValues fun _ frame =>
    if frame.dock = .bottom && js.lt limit frame.size then { frame with size := js.max (minSizeOf js specs frame.id) limit } else frame

/-- A pass, unless the columns fit; then no pass follows. -/
def fitMain (viewport : Viewport ν) (keepId : Option String) (frames : Frames ν) : Frames ν :=
  let fits (frames : Frames ν) : Bool := js.le (overflow js frames viewport) (js.ofInt 0)
  let columns :=
    if fits frames then frames
    else
      let first := fitColumns js specs viewport keepId frames
      if fits first then first else fitColumns js specs viewport none first
  fitBottom js specs viewport columns

end Fitting

def defaultFrame (spec : PanelSpec ν) (order : Nat) (viewport : Viewport ν) : PanelFrame ν where
  id := spec.id
  dock := spec.defaultDock
  order := js.ofInt order
  size := clampSize js spec spec.defaultDock spec.defaultSize viewport
  collapsed := spec.defaultCollapsed.getD false
  isOpen := spec.defaultOpen.getD true
  z := 0
  floatRect :=
    if spec.defaultDock = .float then some (clampRect js spec ⟨js.ofInt 80, js.ofInt 80, spec.defaultSize, js.ofInt 320⟩ viewport) else none

/-- The default frames of a build, in the order of its panels. -/
def defaultFrames (registry : Registry ν) (viewport : Viewport ν) : Frames ν where
  entries := registry.specs.zipIdx.map fun (spec, index) => (spec.id, defaultFrame js spec index viewport)
  distinct := by
    have ids : (registry.specs.zipIdx.map fun (spec, index) => (spec.id, defaultFrame js spec index viewport)).map Prod.fst =
        registry.specs.map PanelSpec.id := by
      rw [List.map_map, show Prod.fst ∘ (fun (spec, index) => (spec.id, defaultFrame js spec index viewport)) =
        PanelSpec.id ∘ (Prod.fst : PanelSpec ν × Nat → PanelSpec ν) from rfl, ← List.map_map, List.zipIdx_map_fst]
    rw [ids]
    exact registry.distinct

def createDefaultLayout (registry : Registry ν) (viewport : Viewport ν) (preserved : Dict String Json) : LayoutState ν :=
  ⟨.single, defaultFrames js registry viewport, none, 0, preserved⟩

/-- The actions of the layout but `replace`. -/
inductive LayoutAction (ν : Type) where
  | dock (id : String) (dock : DockZone) (index : Option ν)
  | resize (id : String) (size : ν)
  | moveFloat (id : String) (x y : ν)
  | resizeFloat (id : String) (w h : ν)
  | collapse (id : String) (collapsed : Option Bool)
  | close (id : String)
  | reopen (id : String)
  | focus (id : String)
  | split (mode : SplitMode)
  | viewport
  | reset

/-- The frames of a dock but one, in their order; `NaN` stands anywhere. -/
def ordered (frames : Frames ν) (dock : DockZone) (exceptId : Option String) : List (PanelFrame ν) :=
  (frames.values.filter fun frame => frame.dock = dock && some frame.id ≠ exceptId).insertionSort fun left right =>
    js.lt right.order left.order = false

/-- The frames in a list are given the orders of their places. -/
def assignOrders (place : Nat → Nat) (frames : Frames ν) (list : List (PanelFrame ν)) : Frames ν :=
  list.zipIdx.foldl (fun frames (frame, index) =>
    if js.same frame.order (js.ofInt (place index)) then frames
    else frames.set frame.id { frame with order := js.ofInt (place index) }) frames

def reorder (frames : Frames ν) (dock : DockZone) : Frames ν := assignOrders js id frames (ordered js frames dock none)

/-- The frame of a panel on top, and in focus. -/
def bump (state : LayoutState ν) (frame : PanelFrame ν) (frames : Frames ν) : LayoutState ν :=
  { state with
    frames := frames.set frame.id { (frames.get? frame.id).getD frame with z := state.zTop + 1 }
    zTop := state.zTop + 1
    focusId := some frame.id }

section Reducer
variable (registry : Registry ν) (viewport : Viewport ν) (state : LayoutState ν)

def reset : LayoutState ν :=
  let layout := createDefaultLayout js registry viewport state.preserved
  { layout with frames := fitMain js registry.specs viewport none layout.frames }

def sameRect (left right : Rect ν) : Bool :=
  js.sameText left.x right.x && js.sameText left.y right.y && js.sameText left.w right.w && js.sameText left.h right.h

def sameRects : Option (Rect ν) → Option (Rect ν) → Bool
  | none, none => true
  | some left, some right => sameRect js left right
  | _, _ => false

/-- The frame clamped to the viewport, where that changes it. -/
def clampFrame (frame : PanelFrame ν) : Option (PanelFrame ν) :=
  match specOf registry.specs frame.id with
  | none => none
  | some spec =>
    let size := clampSize js spec frame.dock frame.size viewport
    let floatRect := frame.floatRect.map fun rect => clampRect js spec rect viewport
    if !js.same size frame.size || !sameRects js floatRect frame.floatRect then some { frame with size, floatRect } else none

/-- Frames that differ at most in their sizes have the same JSON text. -/
def sameSizes (left right : Frames ν) : Bool := (left.values.zip right.values).all fun (left, right) => js.sameText left.size right.size

/-- The `viewport` action. -/
def refit : LayoutState ν :=
  let clamped := state.frames.mapValues fun _ frame => (clampFrame js registry viewport frame).getD frame
  let fitted := fitMain js registry.specs viewport none clamped
  let changed := (state.frames.values.any fun frame => (clampFrame js registry viewport frame).isSome) || !sameSizes js fitted clamped
  if changed then { state with frames := fitted } else state

def dockPanel (spec : PanelSpec ν) (frame : PanelFrame ν) (dock : DockZone) (index : Option ν) : LayoutState ν :=
  if dock ∉ spec.docks then state
  else
    let others := ordered js state.frames dock (some frame.id)
    let count := js.ofInt others.length
    let index := js.max (js.ofInt 0) (js.min (index.getD count) count)
    let placed := assignOrders js (fun place => if js.lt (js.ofInt place) index then place else place + 1) state.frames others
    let floatRect :=
      if dock = .float then
        some (clampRect js spec (frame.floatRect.getD ⟨js.ofInt 80, js.ofInt 80, frame.size, js.ofInt 320⟩) viewport)
      else frame.floatRect
    let next : PanelFrame ν :=
      { frame with dock, order := index, size := clampSize js spec dock frame.size viewport, isOpen := true, floatRect }
    let frames := placed.set frame.id next
    let frames := if frame.dock ≠ dock then reorder js frames frame.dock else frames
    bump state next (fitMain js registry.specs viewport (some frame.id) frames)

def resizePanel (spec : PanelSpec ν) (frame : PanelFrame ν) (size : ν) : LayoutState ν :=
  let clamped := clampSize js spec frame.dock size viewport
  let size := js.max spec.minSize (((crossLimit js state.frames frame.dock viewport).map (js.min clamped)).getD clamped)
  if js.same size frame.size then state else { state with frames := state.frames.set frame.id { frame with size } }

def changeFloat (spec : PanelSpec ν) (frame : PanelFrame ν) (change : Rect ν → Rect ν) : LayoutState ν :=
  match frame.dock, frame.floatRect with
  | .float, some rect =>
    let next := { frame with floatRect := some (clampRect js spec (change rect) viewport) }
    bump state next (state.frames.set frame.id next)
  | _, _ => state

def collapsePanel (frame : PanelFrame ν) (collapsed : Option Bool) : LayoutState ν :=
  let collapsed := collapsed.getD !frame.collapsed
  if collapsed = frame.collapsed then state
  else { state with frames := fitMain js registry.specs viewport (some frame.id) (state.frames.set frame.id { frame with collapsed }) }

def closePanel (frame : PanelFrame ν) : LayoutState ν :=
  if !frame.isOpen then state
  else
    { state with
      frames := state.frames.set frame.id { frame with isOpen := false }
      focusId := if state.focusId = some frame.id then none else state.focusId }

def reopenPanel (frame : PanelFrame ν) : LayoutState ν :=
  let next := { frame with isOpen := true, collapsed := false }
  bump state next (fitMain js registry.specs viewport (some frame.id) (state.frames.set frame.id next))

def focusPanel (frame : PanelFrame ν) : LayoutState ν :=
  if state.focusId = some frame.id ∧ frame.z = state.zTop then state else bump state frame state.frames

def LayoutAction.panel : LayoutAction ν → Option String
  | .dock id .. | .resize id _ | .moveFloat id .. | .resizeFloat id .. | .collapse id _ | .close id | .reopen id | .focus id => some id
  | .split _ | .viewport | .reset => none

/-- What an action does with the panel that it names. -/
def panelAction (spec : PanelSpec ν) (frame : PanelFrame ν) : LayoutAction ν → LayoutState ν
  | .dock _ dock index => dockPanel js registry viewport state spec frame dock index
  | .resize _ size => resizePanel js viewport state spec frame size
  | .moveFloat _ x y => changeFloat js viewport state spec frame fun rect => { rect with x, y }
  | .resizeFloat _ w h => changeFloat js viewport state spec frame fun rect => { rect with w, h }
  | .collapse _ collapsed => collapsePanel js registry viewport state frame collapsed
  | .close _ => closePanel state frame
  | .reopen _ => reopenPanel js registry viewport state frame
  | .focus _ => focusPanel state frame
  | .split _ | .viewport | .reset => state

def layoutReducer (action : LayoutAction ν) : LayoutState ν :=
  match action with
  | .reset => reset js registry viewport state
  | .split mode => { state with split := mode }
  | .viewport => refit js registry viewport state
  | action =>
    -- An unknown panel is never invented.
    match action.panel.bind (specOf registry.specs), action.panel.bind state.frames.get? with
    | some spec, some frame => panelAction js registry viewport state spec frame action
    | _, _ => state

end Reducer

/-- The state after actions, each with the viewport that it finds. -/
def run (registry : Registry ν) (state : LayoutState ν) (actions : List (LayoutAction ν × Viewport ν)) : LayoutState ν :=
  actions.foldl (fun state action => layoutReducer js registry action.2 state action.1) state

end NovelStudio.Layout
