import NovelStudio.Layout.Model

/-! What holds of a layout after any actions: where its panels are, how they are stacked and
which one is in focus. -/

namespace NovelStudio.Layout

open Library

variable {ν : Type} {js : Numbers ν} {registry : Registry ν} {specs : List (PanelSpec ν)} {viewport : Viewport ν}
variable {frames other : Frames ν} {state : LayoutState ν}

/-- What a frame is besides its sizes: its place in a dock and in the stack. -/
structure Spot (ν : Type) where
  id : String
  dock : DockZone
  order : ν
  z : Nat
  isOpen : Bool

def PanelFrame.spot (frame : PanelFrame ν) : Spot ν := ⟨frame.id, frame.dock, frame.order, frame.z, frame.isOpen⟩

def spots (frames : Frames ν) : Dict String (Spot ν) := frames.mapValues fun _ frame => frame.spot

theorem spots_mapValues (change : String → PanelFrame ν → PanelFrame ν) (same : ∀ id frame, (change id frame).spot = frame.spot)
    (frames : Frames ν) : spots (frames.mapValues change) = spots frames := by
  rw [spots, spots, Dict.mapValues_mapValues]
  exact Dict.mapValues_congr fun _ _ => same _ _

theorem spots_set (frames : Frames ν) (id : String) (frame : PanelFrame ν) :
    spots (frames.set id frame) = (spots frames).set id frame.spot :=
  Dict.mapValues_set ..

variable {frame : PanelFrame ν}

theorem spots_set_same {changed : PanelFrame ν} (found : frames.get? pid = some frame) (same : changed.spot = frame.spot) :
    spots (frames.set pid changed) = spots frames := by
  rw [spots_set]
  apply Dict.set_eq_self
  simp [spots, found, same]

theorem found_of_spots (same : spots frames = spots other) (found : frames.get? pid = some frame) :
    ∃ there, other.get? pid = some there ∧ there.spot = frame.spot := by
  have spot : (spots other).get? pid = some frame.spot := by
    rw [← same]
    simp [spots, found]
  simp only [spots, Dict.get?_mapValues, Option.map_eq_some_iff] at spot
  exact spot

theorem spots_shrink (chosen : PanelFrame ν → Bool) (excess : ν) (frames : Frames ν) :
    spots (shrink js specs chosen excess frames) = spots frames := by
  refine spots_mapValues _ (fun _ frame => ?_) frames
  split <;> rfl

theorem spots_fitColumns (keepId : Option String) (frames : Frames ν) : spots (fitColumns js specs viewport keepId frames) = spots frames := by
  have both : ∀ first second, spots (fitBoth js specs viewport keepId first second frames) = spots frames := by
    intro first second
    simp only [fitBoth]
    split <;> simp only [spots_shrink]
  unfold fitColumns
  split <;> exact both _ _

theorem spots_fitBottom (frames : Frames ν) : spots (fitBottom js specs viewport frames) = spots frames := by
  refine spots_mapValues _ (fun _ frame => ?_) frames
  split <;> rfl

theorem spots_fitMain (keepId : Option String) (frames : Frames ν) : spots (fitMain js specs viewport keepId frames) = spots frames := by
  simp only [fitMain, spots_fitBottom]
  split
  · rfl
  · split <;> simp only [spots_fitColumns]

/-- There is one frame for each panel, in a dock where it may be, and no two have one place. -/
structure Arranged (registry : Registry ν) (frames : Frames ν) : Prop where
  keys : frames.keys = registry.specs.map PanelSpec.id
  named : ∀ {id frame}, frames.get? id = some frame → frame.id = id
  docked : ∀ {id frame spec}, frames.get? id = some frame → spec ∈ registry.specs → spec.id = id → frame.dock ∈ spec.docks
  apart : ∀ {id frame id' frame'}, frames.get? id = some frame → frames.get? id' = some frame' → frame.dock = frame'.dock → id ≠ id' →
    frame.order ≠ frame'.order

theorem keys_spots (frames : Frames ν) : (spots frames).keys = frames.keys := Dict.keys_mapValues ..

theorem Arranged.congr (arranged : Arranged registry frames) (same : spots other = spots frames) : Arranged registry other where
  keys := by rw [← keys_spots, same, keys_spots, arranged.keys]
  named found := by
    obtain ⟨there, found', spot⟩ := found_of_spots same found
    exact (congrArg Spot.id spot).symm.trans (arranged.named found')
  docked {_ frame _} found inside named := by
    obtain ⟨there, found', spot⟩ := found_of_spots same found
    have dock : there.dock = frame.dock := congrArg Spot.dock spot
    exact dock ▸ arranged.docked found' inside named
  apart {_ frame _ frame'} found found' dock differ := by
    obtain ⟨one, there, spot⟩ := found_of_spots same found
    obtain ⟨two, there', spot'⟩ := found_of_spots same found'
    have docks : one.dock = two.dock := (congrArg Spot.dock spot).trans (dock.trans (congrArg Spot.dock spot').symm)
    have order : one.order = frame.order := congrArg Spot.order spot
    have order' : two.order = frame'.order := congrArg Spot.order spot'
    exact order ▸ order' ▸ arranged.apart there there' docks differ

theorem Arranged.set {changed : PanelFrame ν} (arranged : Arranged registry frames) (found : frames.get? pid = some frame)
    (named : changed.id = frame.id) (dock : changed.dock = frame.dock) (order : changed.order = frame.order) :
    Arranged registry (frames.set pid changed) where
  keys := by rw [Dict.keys_set, if_pos (Dict.mem_keys_iff.mpr ⟨frame, found⟩), arranged.keys]
  named {other there} found' := by
    rw [Dict.get?_set] at found'
    split at found'
    · rename_i same
      cases found'
      rw [named, arranged.named found, same]
    · exact arranged.named found'
  docked {other there spec} found' inside named := by
    rw [Dict.get?_set] at found'
    split at found'
    · rename_i same
      cases found'
      rw [dock]
      exact arranged.docked found inside (named.trans same)
    · exact arranged.docked found' inside named
  apart {one frame₁ two frame₂} found₁ found₂ docks differ := by
    rw [Dict.get?_set] at found₁ found₂
    split at found₁ <;> split at found₂
    · rename_i same₁ same₂
      exact (differ (same₁.trans same₂.symm)).elim
    · rename_i same₁ _
      cases found₁
      rw [order]
      exact arranged.apart found found₂ (dock.symm.trans docks) (same₁ ▸ differ)
    · rename_i _ same₂
      cases found₂
      rw [order]
      exact arranged.apart found₁ found (docks.trans dock) (same₂ ▸ differ)
    · exact arranged.apart found₁ found₂ docks differ

theorem assignOrders_get? (lawful : js.Lawful) (place : Nat → Nat) (list : List (PanelFrame ν)) (start : Nat) (frames : Frames ν)
    (distinct : (list.map PanelFrame.id).Nodup) (stored : ∀ frame ∈ list, frames.get? frame.id = some frame) :
    let assigned := (list.zipIdx start).foldl (fun frames (frame, index) =>
      if js.same frame.order (js.ofInt (place index)) then frames
      else frames.set frame.id { frame with order := js.ofInt (place index) }) frames
    assigned.keys = frames.keys ∧ (∀ pid, pid ∉ list.map PanelFrame.id → assigned.get? pid = frames.get? pid) ∧
      ∀ index (frame : PanelFrame ν), list[index]? = some frame → assigned.get? frame.id = some { frame with order := js.ofInt (place (start + index)) } := by
  induction list generalizing start frames with
  | nil => exact ⟨rfl, fun _ _ => rfl, fun _ _ none => by simp at none⟩
  | cons first rest ih =>
    rw [List.map_cons, List.nodup_cons] at distinct
    have here := stored first (List.mem_cons_self ..)
    -- The first frame has its order after one turn, and the turns of the rest leave it alone.
    obtain ⟨next, turned, keys, elsewhere, ordered⟩ : ∃ next : Frames ν,
        (if js.same first.order (js.ofInt (place start)) then frames
          else frames.set first.id { first with order := js.ofInt (place start) }) = next ∧
        next.keys = frames.keys ∧ (∀ pid, pid ≠ first.id → next.get? pid = frames.get? pid) ∧
        next.get? first.id = some { first with order := js.ofInt (place start) } := by
      refine ⟨_, rfl, ?_⟩
      split
      · rename_i same
        refine ⟨rfl, fun _ _ => rfl, ?_⟩
        rw [← lawful.eq_of_same same]
        exact here
      · refine ⟨?_, fun pid differ => Dict.get?_set_ne _ _ differ, Dict.get?_set_self ..⟩
        rw [Dict.keys_set, if_pos (Dict.mem_keys_iff.mpr ⟨first, here⟩)]
    have kept : ∀ frame ∈ rest, next.get? frame.id = some frame := by
      intro frame member
      rw [elsewhere _ fun same => distinct.1 (List.mem_map.mpr ⟨frame, member, same⟩)]
      exact stored frame (List.mem_cons_of_mem _ member)
    obtain ⟨keys', elsewhere', ordered'⟩ := ih (start + 1) next distinct.2 kept
    simp only [List.zipIdx_cons, List.foldl_cons, turned]
    refine ⟨keys'.trans keys, fun pid absent => ?_, fun index frame found => ?_⟩
    · rw [List.map_cons, List.mem_cons, not_or] at absent
      exact (elsewhere' pid absent.2).trans (elsewhere pid absent.1)
    · cases index with
      | zero =>
        cases found
        exact (elsewhere' _ distinct.1).trans ordered
      | succ index =>
        have placed := ordered' index frame found
        rwa [show start + 1 + index = start + (index + 1) by omega] at placed

theorem mem_ordered {dock : DockZone} {exceptId : Option String} : frame ∈ ordered js frames dock exceptId ↔
    (∃ pid, frames.get? pid = some frame) ∧ frame.dock = dock ∧ some frame.id ≠ exceptId := by
  simp [ordered, Dict.mem_values_iff]

theorem ordered_distinct (named : ∀ {pid frame}, frames.get? pid = some frame → frame.id = pid) (dock : DockZone) (exceptId : Option String) :
    ((ordered js frames dock exceptId).map PanelFrame.id).Nodup := by
  have values : frames.values.map PanelFrame.id = frames.keys := by
    rw [Dict.values, List.map_map]
    exact List.map_congr_left fun entry member => named (Dict.get?_eq_some_iff.mpr member)
  have filtered : ((frames.values.filter fun frame => frame.dock = dock && some frame.id ≠ exceptId).map PanelFrame.id).Nodup :=
    (values ▸ frames.distinct : (frames.values.map PanelFrame.id).Nodup).sublist (List.filter_sublist.map _)
  exact ((List.perm_insertionSort _ _).map PanelFrame.id).nodup_iff.mpr filtered

theorem assigned_ordered (lawful : js.Lawful) (named : ∀ {pid frame}, frames.get? pid = some frame → frame.id = pid) (place : Nat → Nat)
    (dock : DockZone) (exceptId : Option String) :
    let assigned := assignOrders js place frames (ordered js frames dock exceptId)
    assigned.keys = frames.keys ∧ ∀ {pid frame}, frames.get? pid = some frame →
      (¬ (frame.dock = dock ∧ some pid ≠ exceptId) ∧ assigned.get? pid = some frame) ∨
        (frame.dock = dock ∧ some pid ≠ exceptId) ∧ ∃ index, (ordered js frames dock exceptId)[index]? = some frame ∧
          assigned.get? pid = some { frame with order := js.ofInt (place index) } := by
  have stored : ∀ frame ∈ ordered js frames dock exceptId, frames.get? frame.id = some frame := by
    intro frame member
    obtain ⟨⟨pid, found⟩, _⟩ := mem_ordered.mp member
    rw [named found]
    exact found
  obtain ⟨keys, elsewhere, placed⟩ := assignOrders_get? lawful place _ 0 frames (ordered_distinct named dock exceptId) stored
  refine ⟨keys, fun {pid frame} found => ?_⟩
  by_cases inside : frame.dock = dock ∧ some pid ≠ exceptId
  · have member : frame ∈ ordered js frames dock exceptId := by
      rw [mem_ordered, named found]
      exact ⟨⟨pid, found⟩, inside⟩
    obtain ⟨index, located⟩ := List.mem_iff_getElem?.mp member
    have there := placed index frame located
    obtain rfl := named found
    rw [Nat.zero_add] at there
    exact .inr ⟨inside, index, located, there⟩
  · refine .inl ⟨inside, (elsewhere pid fun member => ?_).trans found⟩
    obtain ⟨other, listed, same⟩ := List.mem_map.mp member
    obtain ⟨_, docked, kept⟩ := mem_ordered.mp listed
    have found' := stored other listed
    rw [same, found] at found'
    cases found'
    exact inside ⟨docked, same ▸ kept⟩

variable {one two : Nat}

theorem places_injective (lawful : js.Lawful) (bound : ν)
    (same : (if js.lt (js.ofInt one) bound then one else one + 1) = if js.lt (js.ofInt two) bound then two else two + 1) : one = two := by
  split at same <;> split at same
  · exact same
  · rename_i below beyond
    subst same
    exact (beyond (lawful.lt_of_lt_next (by exact_mod_cast below))).elim
  · rename_i beyond below
    subst same
    exact (beyond (lawful.lt_of_lt_next (by exact_mod_cast below))).elim
  · omega

theorem place_apart (lawful : js.Lawful) (bound : ν) (index : Nat) :
    js.ofInt ((if js.lt (js.ofInt index) bound then index else index + 1 : Nat) : Int) ≠ bound := by
  split
  · rename_i below
    exact lawful.ne_of_lt below
  · rename_i beyond
    push_cast
    exact lawful.next_ne (Bool.eq_false_iff.mpr beyond)

theorem orders_differ (lawful : js.Lawful) (differ : one ≠ two) : js.ofInt one ≠ js.ofInt two :=
  fun same => differ (by exact_mod_cast lawful.ofInt_inj same)

theorem index_differs {list : List (PanelFrame ν)} {frame' : PanelFrame ν} (first : list[one]? = some frame)
    (second : list[two]? = some frame') (differ : frame.id ≠ frame'.id) : one ≠ two := by
  rintro rfl
  cases first.symm.trans second
  exact differ rfl

theorem reorder_spec (lawful : js.Lawful) (named : ∀ {pid frame}, frames.get? pid = some frame → frame.id = pid) (dock : DockZone) :
    (reorder js frames dock).keys = frames.keys ∧ ∀ {pid frame}, frames.get? pid = some frame →
      (frame.dock ≠ dock ∧ (reorder js frames dock).get? pid = some frame) ∨
        frame.dock = dock ∧ ∃ index : Nat, (ordered js frames dock none)[index]? = some frame ∧
          (reorder js frames dock).get? pid = some { frame with order := js.ofInt index } := by
  obtain ⟨keys, moved⟩ := assigned_ordered lawful named id dock none
  refine ⟨keys, fun {pid frame} found => ?_⟩
  rcases moved found with ⟨outside, there⟩ | ⟨inside, index, located, there⟩
  · exact .inl ⟨fun same => outside ⟨same, nofun⟩, there⟩
  · exact .inr ⟨inside.1, index, located, there⟩

/-- What `reorder` finds is what was there, up to its order. -/
theorem reorder_found (lawful : js.Lawful) (named : ∀ {pid frame}, frames.get? pid = some frame → frame.id = pid) (dock : DockZone)
    (found : (reorder js frames dock).get? pid = some frame) : ∃ before, frames.get? pid = some before ∧
      ((before.dock ≠ dock ∧ frame = before) ∨ before.dock = dock ∧ ∃ index : Nat, (ordered js frames dock none)[index]? = some before ∧
        frame = { before with order := js.ofInt index }) := by
  obtain ⟨keys, moved⟩ := reorder_spec lawful named dock
  have present : pid ∈ frames.keys := keys ▸ Dict.mem_keys_iff.mpr ⟨frame, found⟩
  obtain ⟨before, there⟩ := Dict.mem_keys_iff.mp present
  refine ⟨before, there, ?_⟩
  rcases moved there with ⟨outside, same⟩ | ⟨inside, index, located, same⟩
  · exact .inl ⟨outside, Option.some.inj (found.symm.trans same)⟩
  · exact .inr ⟨inside, index, located, Option.some.inj (found.symm.trans same)⟩

theorem Arranged.reorder (lawful : js.Lawful) (arranged : Arranged registry frames) (dock : DockZone) :
    Arranged registry (reorder js frames dock) where
  keys := (reorder_spec lawful arranged.named dock).1.trans arranged.keys
  named found := by
    obtain ⟨before, there, moved⟩ := reorder_found lawful arranged.named dock found
    have same := arranged.named there
    rcases moved with ⟨_, rfl⟩ | ⟨_, _, _, rfl⟩ <;> exact same
  docked found inside same := by
    obtain ⟨before, there, moved⟩ := reorder_found lawful arranged.named dock found
    have allowed := arranged.docked there inside same
    rcases moved with ⟨_, rfl⟩ | ⟨_, _, _, rfl⟩ <;> exact allowed
  apart found found' docks differ := by
    obtain ⟨before, there, moved⟩ := reorder_found lawful arranged.named dock found
    obtain ⟨before', there', moved'⟩ := reorder_found lawful arranged.named dock found'
    rcases moved with ⟨outside, rfl⟩ | ⟨inside, index, located, rfl⟩ <;> rcases moved' with ⟨outside', rfl⟩ | ⟨inside', index', located', rfl⟩
    · exact arranged.apart there there' docks differ
    · exact (outside (docks.trans inside')).elim
    · exact (outside' (docks.symm.trans inside)).elim
    · refine orders_differ lawful (index_differs located located' ?_)
      rw [arranged.named there, arranged.named there']
      exact differ

/-- The frames once a panel has been put into a dock, at an index among the others there. -/
def docking (js : Numbers ν) (frames : Frames ν) (frame next : PanelFrame ν) : Frames ν :=
  (assignOrders js (fun place => if js.lt (js.ofInt place) next.order then place else place + 1) frames
    (ordered js frames next.dock (some frame.id))).set frame.id next

/-- What is found after docking: the panel, the others of its dock in their new order, and the rest. -/
theorem docking_found (lawful : js.Lawful) (named : ∀ {pid frame}, frames.get? pid = some frame → frame.id = pid) {next there : PanelFrame ν}
    (found : (docking js frames frame next).get? pid = some there) :
    (pid = frame.id ∧ there = next) ∨ pid ≠ frame.id ∧ ∃ before, frames.get? pid = some before ∧
      ((before.dock ≠ next.dock ∧ there = before) ∨ before.dock = next.dock ∧ ∃ index : Nat,
        (ordered js frames next.dock (some frame.id))[index]? = some before ∧
          there = { before with order := js.ofInt ((if js.lt (js.ofInt index) next.order then index else index + 1 : Nat) : Int) }) := by
  rw [docking, Dict.get?_set] at found
  split at found
  · rename_i same
    exact .inl ⟨same, (Option.some.inj found).symm⟩
  · rename_i differs
    obtain ⟨keys, moved⟩ := assigned_ordered lawful named
      (fun place => if js.lt (js.ofInt place) next.order then place else place + 1) next.dock (some frame.id)
    have present : pid ∈ frames.keys := keys ▸ Dict.mem_keys_iff.mpr ⟨there, found⟩
    obtain ⟨before, stored⟩ := Dict.mem_keys_iff.mp present
    refine .inr ⟨differs, before, stored, ?_⟩
    rcases moved stored with ⟨outside, same⟩ | ⟨inside, index, located, same⟩
    · refine .inl ⟨fun docked => outside ⟨docked, ?_⟩, Option.some.inj (found.symm.trans same)⟩
      exact fun named => differs (Option.some.inj named)
    · exact .inr ⟨inside.1, index, located, Option.some.inj (found.symm.trans same)⟩

theorem Arranged.docking (lawful : js.Lawful) (arranged : Arranged registry frames) {next : PanelFrame ν} {spec : PanelSpec ν}
    (found : frames.get? frame.id = some frame) (inside : spec ∈ registry.specs) (named : spec.id = frame.id) (same : next.id = frame.id)
    (allowed : next.dock ∈ spec.docks) : Arranged registry (docking js frames frame next) where
  keys := by
    obtain ⟨keys, _⟩ := assigned_ordered lawful arranged.named
      (fun place => if js.lt (js.ofInt place) next.order then place else place + 1) next.dock (some frame.id)
    rw [Layout.docking, Dict.keys_set, keys, if_pos (Dict.mem_keys_iff.mpr ⟨frame, found⟩), arranged.keys]
  named found' := by
    rcases docking_found lawful arranged.named found' with ⟨rfl, rfl⟩ | ⟨_, before, there, moved⟩
    · exact same
    · have id := arranged.named there
      rcases moved with ⟨_, rfl⟩ | ⟨_, _, _, rfl⟩ <;> exact id
  docked {pid there spec'} found' inside' named' := by
    rcases docking_found lawful arranged.named found' with ⟨rfl, rfl⟩ | ⟨_, before, there, moved⟩
    · have one : spec' = spec := List.inj_on_of_nodup_map registry.distinct inside' inside (named'.trans named.symm)
      exact one ▸ allowed
    · have dock := arranged.docked there inside' named'
      rcases moved with ⟨_, rfl⟩ | ⟨_, _, _, rfl⟩ <;> exact dock
  apart found₁ found₂ docks differ := by
    rcases docking_found lawful arranged.named found₁ with ⟨rfl, rfl⟩ | ⟨_, before, there, moved⟩ <;>
      rcases docking_found lawful arranged.named found₂ with ⟨rfl, rfl⟩ | ⟨_, before', there', moved'⟩
    · exact (differ rfl).elim
    · rcases moved' with ⟨outside, rfl⟩ | ⟨_, index, _, rfl⟩
      · exact (outside docks.symm).elim
      · exact (place_apart lawful _ index).symm
    · rcases moved with ⟨outside, rfl⟩ | ⟨_, index, _, rfl⟩
      · exact (outside docks).elim
      · exact place_apart lawful _ index
    · rcases moved with ⟨outside, rfl⟩ | ⟨inside, index, located, rfl⟩ <;>
        rcases moved' with ⟨outside', rfl⟩ | ⟨inside', index', located', rfl⟩
      · exact arranged.apart there there' docks differ
      · exact (outside (docks.trans inside')).elim
      · exact (outside' (docks.symm.trans inside)).elim
      · refine orders_differ lawful fun places => index_differs located located' ?_ (places_injective lawful next.order places)
        rw [arranged.named there, arranged.named there']
        exact differ

/-- Every frame is in its place and none is above the top of the stack, which is that of a panel or zero. -/
structure Sound (registry : Registry ν) (state : LayoutState ν) : Prop where
  arranged : Arranged registry state.frames
  below : ∀ {pid frame}, state.frames.get? pid = some frame → frame.z ≤ state.zTop
  top : state.zTop = 0 ∨ ∃ pid frame, state.frames.get? pid = some frame ∧ frame.z = state.zTop

/-- The panel in focus is open, and on top. -/
def Focused (state : LayoutState ν) : Prop :=
  ∀ {pid}, state.focusId = some pid → ∃ frame, state.frames.get? pid = some frame ∧ frame.isOpen = true ∧ frame.z = state.zTop

theorem below_of_spots {top : Nat} (same : spots other = spots frames) (below : ∀ {pid frame}, frames.get? pid = some frame → frame.z ≤ top) :
    ∀ {pid frame}, other.get? pid = some frame → frame.z ≤ top := by
  intro pid frame found
  obtain ⟨there, found', spot⟩ := found_of_spots same found
  have z : there.z = frame.z := congrArg Spot.z spot
  exact z ▸ below found'

theorem Sound.resized (sound : Sound registry state) (same : spots frames = spots state.frames) :
    Sound registry { state with frames } where
  arranged := sound.arranged.congr same
  below := below_of_spots same sound.below
  top := by
    refine sound.top.imp_right fun ⟨pid, frame, found, z⟩ => ?_
    obtain ⟨there, found', spot⟩ := found_of_spots same.symm found
    exact ⟨pid, there, found', (congrArg Spot.z spot).trans z⟩

theorem Focused.resized (focused : Focused state) (same : spots frames = spots state.frames) : Focused { state with frames } := by
  intro pid named
  obtain ⟨frame, found, isOpen, z⟩ := focused named
  obtain ⟨there, found', spot⟩ := found_of_spots same.symm found
  exact ⟨there, found', (congrArg Spot.isOpen spot).trans isOpen, (congrArg Spot.z spot).trans z⟩

section
variable {frame there : PanelFrame ν}

theorem bump_frames (found : frames.get? frame.id = some there) :
    (bump state frame frames).frames = frames.set frame.id { there with z := state.zTop + 1 } := by
  simp [bump, found]

theorem bump_sound (arranged : Arranged registry frames) (below : ∀ {pid frame}, frames.get? pid = some frame → frame.z ≤ state.zTop)
    (found : frames.get? frame.id = some there) : Sound registry (bump state frame frames) where
  arranged := by
    rw [bump_frames found]
    exact arranged.set found rfl rfl rfl
  below := by
    rw [bump_frames found]
    intro pid other found'
    rw [Dict.get?_set] at found'
    split at found'
    · cases found'
      exact le_refl _
    · exact (below found').trans (Nat.le_succ _)
  top := by
    refine .inr ⟨frame.id, { there with z := state.zTop + 1 }, ?_, rfl⟩
    rw [bump_frames found, Dict.get?_set_self]

theorem bump_focused (found : frames.get? frame.id = some there) : Focused (bump state frame frames) ↔ there.isOpen = true := by
  constructor
  · intro focused
    obtain ⟨top, found', isOpen, _⟩ := focused rfl
    rw [bump_frames found, Dict.get?_set_self] at found'
    cases found'
    exact isOpen
  · intro isOpen pid named
    cases named
    refine ⟨{ there with z := state.zTop + 1 }, ?_, isOpen, rfl⟩
    rw [bump_frames found, Dict.get?_set_self]

end

section
variable {spec : PanelSpec ν} {frame : PanelFrame ν}

/-- What `dock` leaves of the panel that it moves. -/
theorem docked_found (lawful : js.Lawful) (sound : Sound registry state) (found : state.frames.get? frame.id = some frame) (inside : spec ∈ registry.specs)
    (named : spec.id = frame.id) {next : PanelFrame ν} (same : next.id = frame.id) (allowed : next.dock ∈ spec.docks) (z : next.z = frame.z) :
    let frames := if frame.dock ≠ next.dock then reorder js (docking js state.frames frame next) frame.dock else docking js state.frames frame next
    Arranged registry frames ∧ (∀ {pid frame}, frames.get? pid = some frame → frame.z ≤ state.zTop) ∧
      ∃ there, frames.get? frame.id = some there ∧ there.isOpen = next.isOpen := by
  have arranged := sound.arranged.docking lawful found inside named same allowed
  have below : ∀ {pid there}, (docking js state.frames frame next).get? pid = some there → there.z ≤ state.zTop := by
    intro pid there found'
    rcases docking_found lawful sound.arranged.named found' with ⟨rfl, rfl⟩ | ⟨_, before, stored, moved⟩
    · exact z ▸ sound.below found
    · have := sound.below stored
      rcases moved with ⟨_, rfl⟩ | ⟨_, _, _, rfl⟩ <;> exact this
  have here : (docking js state.frames frame next).get? frame.id = some next := Dict.get?_set_self ..
  simp only
  split
  · refine ⟨arranged.reorder lawful frame.dock, fun found' => ?_, ?_⟩
    · obtain ⟨before, stored, moved⟩ := reorder_found lawful arranged.named frame.dock found'
      have := below stored
      rcases moved with ⟨_, rfl⟩ | ⟨_, _, _, rfl⟩ <;> exact this
    · rcases (reorder_spec lawful arranged.named frame.dock).2 here with ⟨_, there⟩ | ⟨_, _, _, there⟩ <;> exact ⟨_, there, rfl⟩
  · exact ⟨arranged, below, next, here, rfl⟩

/-- `dock` puts the panel into the dock, opens it and brings it to the top. -/
theorem dockPanel_eq (js : Numbers ν) (registry : Registry ν) (viewport : Viewport ν) (state : LayoutState ν) (spec : PanelSpec ν)
    (frame : PanelFrame ν) {dock : DockZone} (index : Option ν) (allowed : dock ∈ spec.docks) :
    ∃ next : PanelFrame ν, (next.id = frame.id ∧ next.dock = dock ∧ next.z = frame.z ∧ next.isOpen = true) ∧
      (next.size = clampSize js spec dock frame.size viewport ∧ next.floatRect =
        if dock = .float then some (clampRect js spec (frame.floatRect.getD ⟨js.ofInt 80, js.ofInt 80, frame.size, js.ofInt 320⟩) viewport)
        else frame.floatRect) ∧
      dockPanel js registry viewport state spec frame dock index = bump state next (fitMain js registry.specs viewport (some frame.id)
        (if frame.dock ≠ next.dock then reorder js (docking js state.frames frame next) frame.dock else docking js state.frames frame next)) := by
  let count := js.ofInt (ordered js state.frames dock (some frame.id)).length
  let next : PanelFrame ν :=
    { frame with
      dock
      order := js.max (js.ofInt 0) (js.min (index.getD count) count)
      size := clampSize js spec dock frame.size viewport
      isOpen := true
      floatRect :=
        if dock = .float then some (clampRect js spec (frame.floatRect.getD ⟨js.ofInt 80, js.ofInt 80, frame.size, js.ofInt 320⟩) viewport)
        else frame.floatRect }
  refine ⟨next, ⟨rfl, rfl, rfl, rfl⟩, ⟨rfl, rfl⟩, ?_⟩
  rw [dockPanel, if_neg (not_not.mpr allowed)]
  rfl

theorem dockPanel_spec (lawful : js.Lawful) (sound : Sound registry state) (found : state.frames.get? frame.id = some frame) (inside : spec ∈ registry.specs)
    (named : spec.id = frame.id) (dock : DockZone) (index : Option ν) :
    dockPanel js registry viewport state spec frame dock index = state ∨
      Sound registry (dockPanel js registry viewport state spec frame dock index) ∧
        Focused (dockPanel js registry viewport state spec frame dock index) ∧
        (dockPanel js registry viewport state spec frame dock index).preserved = state.preserved := by
  by_cases allowed : dock ∈ spec.docks
  · right
    obtain ⟨next, ⟨same, rfl, z, isOpen⟩, _, docked⟩ := dockPanel_eq js registry viewport state spec frame index allowed
    obtain ⟨arranged, below, there, here, isOpen'⟩ := docked_found lawful sound found inside named same allowed z
    rw [docked]
    generalize moved : (if frame.dock ≠ next.dock then reorder js (docking js state.frames frame next) frame.dock else
      docking js state.frames frame next) = frames at *
    have refitted : spots (fitMain js registry.specs viewport (some frame.id) frames) = spots frames := spots_fitMain ..
    generalize fitMain js registry.specs viewport _ _ = fitted at refitted ⊢
    obtain ⟨top, found', spot⟩ := found_of_spots refitted.symm here
    rw [← same] at found'
    exact ⟨bump_sound (arranged.congr refitted) (below_of_spots refitted below) found',
      (bump_focused found').mpr ((congrArg Spot.isOpen spot).trans (isOpen'.trans isOpen)), rfl⟩
  · left
    rw [dockPanel, if_pos allowed]

end

end NovelStudio.Layout
