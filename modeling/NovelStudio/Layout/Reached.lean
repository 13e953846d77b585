import NovelStudio.Layout.Invariant

/-! Every layout that actions reach is sound; the panel in focus is open as long as no action
raises a panel that is closed. -/

namespace NovelStudio.Layout

open Library

variable {ν : Type} {js : Numbers ν} {registry : Registry ν} {viewport : Viewport ν}
variable {frames : Frames ν} {state after : LayoutState ν}

theorem defaultFrames_found {pid : String} {frame : PanelFrame ν} (found : (defaultFrames js registry viewport).get? pid = some frame) :
    ∃ (index : Nat) (spec : PanelSpec ν), registry.specs[index]? = some spec ∧ spec.id = pid ∧ frame = defaultFrame js spec index viewport := by
  obtain ⟨⟨spec, index⟩, member, same⟩ := List.mem_map.mp (Dict.get?_eq_some_iff.mp found)
  obtain ⟨rfl, rfl⟩ := Prod.mk.inj same
  exact ⟨index, spec, List.mk_mem_zipIdx_iff_getElem?.mp member, rfl, rfl⟩

theorem keys_defaultFrames : (defaultFrames js registry viewport).keys = registry.specs.map PanelSpec.id := by
  have ids : (registry.specs.zipIdx.map Prod.fst).map PanelSpec.id = registry.specs.map PanelSpec.id := by rw [List.zipIdx_map_fst]
  rw [List.map_map] at ids
  rw [defaultFrames, Dict.keys, List.map_map]
  exact ids

theorem default_arranged (lawful : js.Lawful) : Arranged registry (defaultFrames js registry viewport) where
  keys := keys_defaultFrames
  named found := by
    obtain ⟨_, _, _, same, rfl⟩ := defaultFrames_found found
    exact same
  docked found inside named := by
    obtain ⟨_, spec', located, same, rfl⟩ := defaultFrames_found found
    have one := List.inj_on_of_nodup_map registry.distinct inside (List.mem_of_getElem? located) (named.trans same.symm)
    exact one ▸ registry.docked _ inside
  apart found found' _ differ := by
    obtain ⟨index, spec, located, same, rfl⟩ := defaultFrames_found found
    obtain ⟨index', spec', located', same', rfl⟩ := defaultFrames_found found'
    refine orders_differ lawful ?_
    rintro rfl
    cases located.symm.trans located'
    exact differ (same.symm.trans same')

theorem default_sound (lawful : js.Lawful) (preserved : Dict String Json) : Sound registry (createDefaultLayout js registry viewport preserved) where
  arranged := default_arranged lawful
  below found := by
    obtain ⟨_, _, _, _, rfl⟩ := defaultFrames_found found
    exact le_refl _
  top := .inl rfl

theorem default_focused (preserved : Dict String Json) : Focused (createDefaultLayout js registry viewport preserved) := by
  intro pid named
  exact nomatch named

/-- An action brings a closed panel to the top: it focuses it, or moves or resizes it where it floats. -/
def raisesClosed (state : LayoutState ν) : LayoutAction ν → Bool
  | .focus id => (state.frames.get? id).any fun frame => !frame.isOpen
  | .moveFloat id .. | .resizeFloat id .. =>
    (state.frames.get? id).any fun frame => frame.dock = .float && frame.floatRect.isSome && !frame.isOpen
  | _ => false

/-- What an action keeps, and when it keeps the panel in focus an open one. -/
structure Kept (registry : Registry ν) (state after : LayoutState ν) (raised : Bool) : Prop where
  sound : Sound registry after
  preserved : after.preserved = state.preserved
  focused : Focused state → (Focused after ↔ raised = false)

theorem Kept.refl (sound : Sound registry state) : Kept registry state state false :=
  ⟨sound, rfl, fun focused => iff_of_true focused rfl⟩

theorem Kept.resized (sound : Sound registry state) (same : spots frames = spots state.frames) :
    Kept registry state { state with frames } false :=
  ⟨sound.resized same, rfl, fun focused => iff_of_true (focused.resized same) rfl⟩

section
variable {spec : PanelSpec ν} {frame changed there : PanelFrame ν}

/-- A panel is brought to the top, in frames with the spots of `frames`, where it may have been opened. -/
theorem Kept.bump {fitted : Frames ν} (arranged : Arranged registry frames) (below : ∀ {pid frame}, frames.get? pid = some frame → frame.z ≤ state.zTop)
    (found : frames.get? changed.id = some changed) (same : spots fitted = spots frames) :
    Kept registry state (bump state changed fitted) !changed.isOpen := by
  obtain ⟨there, found', spot⟩ := found_of_spots same.symm found
  refine ⟨bump_sound (arranged.congr same) (below_of_spots same below) found', rfl, fun _ => ?_⟩
  rw [bump_focused found', show there.isOpen = changed.isOpen from congrArg Spot.isOpen spot, Bool.not_eq_false']

theorem Kept.raise {fitted : Frames ν} (sound : Sound registry state) (found : state.frames.get? frame.id = some frame) (changed : PanelFrame ν)
    (same : changed.id = frame.id ∧ changed.dock = frame.dock ∧ changed.order = frame.order ∧ changed.z = frame.z)
    (refitted : spots fitted = spots (state.frames.set frame.id changed)) : Kept registry state (Layout.bump state changed fitted) !changed.isOpen := by
  obtain ⟨named, dock, order, z⟩ := same
  have changed_found : (state.frames.set frame.id changed).get? changed.id = some changed := named ▸ Dict.get?_set_self ..
  refine .bump (sound.arranged.set found named dock order) (fun {pid there} found' => ?_) changed_found refitted
  rw [Dict.get?_set] at found'
  split at found'
  · exact Option.some.inj found' ▸ z ▸ sound.below found
  · exact sound.below found'

theorem resizePanel_kept (sound : Sound registry state) (found : state.frames.get? frame.id = some frame) (size : ν) :
    Kept registry state (resizePanel js viewport state spec frame size) false := by
  rw [resizePanel]
  split
  · exact .refl sound
  · exact .resized sound (spots_set_same found rfl)

theorem changeFloat_kept (sound : Sound registry state) (found : state.frames.get? frame.id = some frame) (change : Rect ν → Rect ν) :
    Kept registry state (changeFloat js viewport state spec frame change) (frame.dock = .float && frame.floatRect.isSome && !frame.isOpen) := by
  rw [changeFloat]
  split
  · rename_i rect floats held
    have raised : (decide (frame.dock = .float) && frame.floatRect.isSome && !frame.isOpen) = !frame.isOpen := by simp [floats, held]
    rw [raised]
    exact .raise sound found { frame with floatRect := some (clampRect js spec (change rect) viewport) } ⟨rfl, rfl, rfl, rfl⟩ rfl
  · rename_i fixed
    have unmoved : (frame.dock = .float && frame.floatRect.isSome && !frame.isOpen) = false := by
      cases held : frame.floatRect with
      | none => simp
      | some rect =>
        have docked : frame.dock ≠ .float := fun floats => fixed rect floats held
        simp [docked]
    rw [unmoved]
    exact .refl sound

theorem collapsePanel_kept (sound : Sound registry state) (found : state.frames.get? frame.id = some frame) (collapsed : Option Bool) :
    Kept registry state (collapsePanel js registry viewport state frame collapsed) false := by
  rw [collapsePanel]
  split
  · exact .refl sound
  · refine .resized sound ?_
    rw [spots_fitMain]
    exact spots_set_same found rfl

theorem closePanel_kept (sound : Sound registry state) (found : state.frames.get? frame.id = some frame) :
    Kept registry state (closePanel state frame) false := by
  rw [closePanel]
  split
  · exact .refl sound
  · refine ⟨⟨sound.arranged.set found rfl rfl rfl, fun {pid there} found' => ?_, ?_⟩, rfl, fun focused => iff_of_true ?_ rfl⟩
    · rw [Dict.get?_set] at found'
      split at found'
      · cases found'
        have below := sound.below found
        exact below
      · exact sound.below found'
    · refine sound.top.imp_right ?_
      rintro ⟨pid, there, found', z⟩
      by_cases same : pid = frame.id
      · obtain rfl := same
        cases found.symm.trans found'
        exact ⟨_, _, Dict.get?_set_self .., z⟩
      · exact ⟨pid, there, (Dict.get?_set_ne _ _ same).trans found', z⟩
    · intro pid named
      simp only at named
      split at named
      · cases named
      · rename_i elsewhere
        obtain ⟨there, found', isOpen, z⟩ := focused named
        refine ⟨there, (Dict.get?_set_ne _ _ ?_).trans found', isOpen, z⟩
        rintro rfl
        exact elsewhere named

theorem reopenPanel_kept (sound : Sound registry state) (found : state.frames.get? frame.id = some frame) :
    Kept registry state (reopenPanel js registry viewport state frame) false :=
  .raise sound found { frame with isOpen := true, collapsed := false } ⟨rfl, rfl, rfl, rfl⟩ (spots_fitMain ..)

theorem focusPanel_kept (sound : Sound registry state) (found : state.frames.get? frame.id = some frame) :
    Kept registry state (focusPanel state frame) !frame.isOpen := by
  rw [focusPanel]
  split
  · rename_i already
    refine ⟨sound, rfl, fun focused => iff_of_true focused ?_⟩
    obtain ⟨there, found', isOpen, _⟩ := focused already.1
    cases found.symm.trans found'
    rw [isOpen]
    rfl
  · exact .bump sound.arranged sound.below found rfl

theorem dockPanel_kept (lawful : js.Lawful) (sound : Sound registry state) (found : state.frames.get? frame.id = some frame)
    (inside : spec ∈ registry.specs) (named : spec.id = frame.id) (dock : DockZone) (index : Option ν) :
    Kept registry state (dockPanel js registry viewport state spec frame dock index) false := by
  rcases dockPanel_spec lawful sound found inside named dock index with unchanged | ⟨docked, focused, preserved⟩
  · rw [unchanged]
    exact .refl sound
  · exact ⟨docked, preserved, fun _ => iff_of_true focused rfl⟩

theorem panelAction_kept (lawful : js.Lawful) (sound : Sound registry state) (found : state.frames.get? frame.id = some frame)
    (inside : spec ∈ registry.specs) (named : spec.id = frame.id) {action : LayoutAction ν} (panel : action.panel = some frame.id) :
    Kept registry state (panelAction js registry viewport state spec frame action) (raisesClosed state action) := by
  cases action with
  | dock pid dock index => exact dockPanel_kept lawful sound found inside named dock index
  | resize pid size => exact resizePanel_kept sound found size
  | moveFloat pid x y =>
    cases panel
    simpa [raisesClosed, found, panelAction] using changeFloat_kept sound found _
  | resizeFloat pid w h =>
    cases panel
    simpa [raisesClosed, found, panelAction] using changeFloat_kept sound found _
  | collapse pid collapsed => exact collapsePanel_kept sound found collapsed
  | close pid => exact closePanel_kept sound found
  | reopen pid => exact reopenPanel_kept sound found
  | focus pid =>
    cases panel
    simpa [raisesClosed, found, panelAction] using focusPanel_kept sound found
  | split mode => cases panel
  | viewport => cases panel
  | reset => cases panel

end

theorem reset_kept (lawful : js.Lawful) : Kept registry state (reset js registry viewport state) false :=
  ⟨(default_sound lawful state.preserved).resized (spots_fitMain ..), rfl,
    fun _ => iff_of_true (Focused.resized (default_focused state.preserved) (spots_fitMain ..)) rfl⟩

theorem clampFrame_spot {frame : PanelFrame ν} : ((clampFrame js registry viewport frame).getD frame).spot = frame.spot := by
  rw [clampFrame]
  split
  · rfl
  · simp only
    split <;> rfl

theorem refit_kept (sound : Sound registry state) : Kept registry state (refit js registry viewport state) false := by
  rw [refit]
  split
  · refine .resized sound ?_
    rw [spots_fitMain]
    exact spots_mapValues _ (fun _ _ => clampFrame_spot) _
  · exact .refl sound

variable {pid : String}

theorem specOf_some {spec : PanelSpec ν} (found : specOf registry.specs pid = some spec) : spec ∈ registry.specs ∧ spec.id = pid := by
  refine ⟨List.mem_of_find?_eq_some found, ?_⟩
  simpa using List.find?_some found

theorem specOf_none : specOf registry.specs pid = none ↔ pid ∉ registry.specs.map PanelSpec.id := by
  simp [specOf]

theorem specOf_of_mem {spec : PanelSpec ν} (inside : spec ∈ registry.specs) : specOf registry.specs spec.id = some spec := by
  obtain ⟨found, there⟩ := Option.ne_none_iff_exists'.mp (mt specOf_none.mp (not_not.mpr (List.mem_map.mpr ⟨spec, inside, rfl⟩)))
  obtain ⟨inside', same⟩ := specOf_some there
  rw [there, List.inj_on_of_nodup_map registry.distinct inside' inside same]

variable {action : LayoutAction ν}

theorem layoutReducer_panel (panel : action.panel = some pid) :
    layoutReducer js registry viewport state action =
      match specOf registry.specs pid, state.frames.get? pid with
      | some spec, some frame => panelAction js registry viewport state spec frame action
      | _, _ => state := by
  cases action <;> cases panel <;> rfl

theorem raisesClosed_absent (panel : action.panel = some pid) (absent : state.frames.get? pid = none) :
    raisesClosed state action = false := by
  cases action <;> cases panel <;> simp [raisesClosed, absent]

theorem layoutReducer_panel_kept (lawful : js.Lawful) (sound : Sound registry state)
    (panel : action.panel = some pid) : Kept registry state (layoutReducer js registry viewport state action) (raisesClosed state action) := by
  rw [layoutReducer_panel panel]
  cases found : state.frames.get? pid with
  | none =>
    rw [raisesClosed_absent panel found]
    cases specOf registry.specs pid <;> exact .refl sound
  | some frame =>
    have known : pid ∈ registry.specs.map PanelSpec.id := sound.arranged.keys ▸ Dict.mem_keys_iff.mpr ⟨frame, found⟩
    obtain ⟨spec, registered⟩ := Option.ne_none_iff_exists'.mp (mt specOf_none.mp (not_not.mpr known))
    obtain ⟨inside, same⟩ := specOf_some registered
    obtain rfl := sound.arranged.named found
    rw [registered]
    exact panelAction_kept lawful sound found inside same panel

theorem layoutReducer_kept (lawful : js.Lawful) (sound : Sound registry state) (action : LayoutAction ν) :
    Kept registry state (layoutReducer js registry viewport state action) (raisesClosed state action) := by
  cases panel : action.panel with
  | some pid => exact layoutReducer_panel_kept lawful sound panel
  | none =>
    cases action with
    | split mode => exact ⟨⟨sound.arranged, sound.below, sound.top⟩, rfl, fun focused => iff_of_true focused rfl⟩
    | viewport => exact refit_kept sound
    | reset => exact reset_kept lawful
    | _ => exact nomatch panel

/-- No action of a run raises a closed panel. -/
def raisesOnlyOpen (js : Numbers ν) (registry : Registry ν) : LayoutState ν → List (LayoutAction ν × Viewport ν) → Bool
  | _, [] => true
  | state, (action, viewport) :: rest =>
    !raisesClosed state action && raisesOnlyOpen js registry (layoutReducer js registry viewport state action) rest

theorem run_sound (lawful : js.Lawful) (sound : Sound registry state) (actions : List (LayoutAction ν × Viewport ν)) :
    Sound registry (run js registry state actions) ∧ (run js registry state actions).preserved = state.preserved := by
  induction actions generalizing state with
  | nil => exact ⟨sound, rfl⟩
  | cons first rest ih =>
    obtain ⟨action, viewport⟩ := first
    have kept : Kept registry state (layoutReducer js registry viewport state action) (raisesClosed state action) :=
      layoutReducer_kept lawful sound action
    obtain ⟨later, preserved⟩ := ih kept.sound
    exact ⟨later, preserved.trans kept.preserved⟩

/-- The panel in focus is open and on top throughout a run when no action raises a closed panel, and only then. -/
theorem run_focused (lawful : js.Lawful) (sound : Sound registry state) (focused : Focused state) (actions : List (LayoutAction ν × Viewport ν)) :
    (∀ count, Focused (run js registry state (actions.take count))) ↔ raisesOnlyOpen js registry state actions = true := by
  induction actions generalizing state with
  | nil => simp [run, raisesOnlyOpen, focused]
  | cons first rest ih =>
    obtain ⟨action, viewport⟩ := first
    have kept : Kept registry state (layoutReducer js registry viewport state action) (raisesClosed state action) :=
      layoutReducer_kept lawful sound action
    rw [raisesOnlyOpen, Bool.and_eq_true, Bool.not_eq_true', ← kept.focused focused]
    constructor
    · intro throughout
      have next : Focused (layoutReducer js registry viewport state action) := throughout 1
      exact ⟨next, (ih kept.sound next).mp fun count => throughout (count + 1)⟩
    · rintro ⟨next, later⟩ count
      cases count with
      | zero => exact focused
      | succ count => exact (ih kept.sound next).mpr later count

def inspectorOnly : Registry Num where
  specs := [⟨"inspector", .right, [.right], .finite 300, .finite 200, none, none, none⟩]
  distinct := by decide
  docked := by decide

def desktop : Viewport Num := ⟨.finite 1280, .finite 800, none⟩

end NovelStudio.Layout
