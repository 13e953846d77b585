import NovelStudio.Layout.Restored
import NovelStudio.Layout.Settled

/-! When a saved layout is loaded as it was, and what later builds recover of a panel. -/

namespace NovelStudio.Layout

open Library

variable {share : Int → Int} {shown : Json → String} {localeCompare : String → String → Int}
variable {registry : Registry Int} {viewport : Viewport Int} {state : LayoutState Int} {frame : PanelFrame Int} {spec : PanelSpec Int}

theorem sortedFrames_distinct (arranged : Arranged registry state.frames) :
    ((sortedFrames localeCompare state.frames).map PanelFrame.id).Nodup := by
  have values : state.frames.values.map PanelFrame.id = state.frames.keys := by
    rw [Dict.values, List.map_map]
    exact List.map_congr_left fun entry member => arranged.named (Dict.get?_eq_some_iff.mpr member)
  rw [sortedFrames, ((List.perm_insertionSort _ _).map PanelFrame.id).nodup_iff, values]
  exact state.frames.distinct

theorem mem_sortedFrames : frame ∈ sortedFrames localeCompare state.frames ↔ ∃ pid, state.frames.get? pid = some frame := by
  rw [sortedFrames, List.mem_insertionSort, Dict.mem_values_iff]

theorem registered_of_found (arranged : Arranged registry state.frames) {pid : String} (found : state.frames.get? pid = some frame) :
    pid ∈ registry.specs.map PanelSpec.id :=
  arranged.keys ▸ Dict.mem_keys_iff.mpr ⟨frame, found⟩

theorem builtFrom_keys : (builtFrom share shown localeCompare registry viewport state).frames.keys = registry.specs.map PanelSpec.id := by
  rw [builtFrom, buildEntries_keys, keys_defaultFrames]
  intro spec inside
  rw [keys_defaultFrames]
  exact List.mem_map.mpr ⟨spec, inside, rfl⟩

theorem builtFrom_found (arranged : Arranged registry state.frames) {other : Registry Int} (found : state.frames.get? spec.id = some frame)
    (named : spec.id ≠ "") (inside : spec ∈ other.specs) :
    (builtFrom share shown localeCompare other viewport state).frames.get? spec.id = some (restored share viewport spec frame) := by
  have same := arranged.named found
  have registered : specOf other.specs frame.id = some spec := same ▸ specOf_of_mem inside
  have built : (builtFrom share shown localeCompare other viewport state).frames.get? frame.id = some (restored share viewport spec frame) :=
    buildEntries_found (sortedFrames_distinct arranged) (mem_sortedFrames.mpr ⟨_, found⟩) (same ▸ named) registered (List.not_mem_nil)
  rw [same] at built
  exact built

theorem builtFrom_absent {other : Registry Int} {pid : String} (absent : ∀ frame, state.frames.get? pid = some frame → pid = "")
    (named : ∀ pid frame, state.frames.get? pid = some frame → frame.id = pid) :
    (builtFrom share shown localeCompare other viewport state).frames.get? pid = (defaultFrames (integers share) other viewport).get? pid := by
  refine buildEntries_other fun entry member => ?_
  obtain ⟨frame, listed, rfl⟩ := List.mem_map.mp member
  obtain ⟨there, found⟩ := mem_sortedFrames.mp listed
  rw [entryId_fields, named _ _ found]
  by_cases same : there = pid
  · exact .inr (absent frame (same ▸ found))
  · exact .inl same

/-- A saved layout is loaded as it was. -/
structure Restorable (share : Int → Int) (localeCompare : String → String → Int) (registry : Registry Int) (viewport : Viewport Int)
    (state : LayoutState Int) : Prop where
  /-- The panel in focus is open. -/
  focus : ∀ pid, state.focusId = some pid → ∃ frame, state.frames.get? pid = some frame ∧ frame.isOpen = true
  /-- No panel has a rectangle but where it floats. -/
  rect : ∀ pid frame, state.frames.get? pid = some frame → pid ≠ "" → frame.dock ≠ .float → frame.floatRect = none
  /-- A size that is not positive is what the default size comes to. -/
  size : ∀ spec ∈ registry.specs, ∀ frame, state.frames.get? spec.id = some frame → spec.id ≠ "" → frame.size ≤ 0 →
    clampSize (integers share) spec frame.dock spec.defaultSize viewport = frame.size
  /-- A panel without an id is as it is by default, and the bag has its entry already. -/
  unnamed : ∀ (place : Nat) frame, (sortedFrames localeCompare state.frames)[place]? = some frame → frame.id = "" →
    (defaultFrames (integers share) registry viewport).get? "" = some frame ∧
      state.preserved.get? (invalidKey place) = some (.dict (frameFields frame))

theorem unchanged_iff (settled : AllSettled share registry viewport state.frames) (arranged : Arranged registry state.frames)
    (inside : spec ∈ registry.specs) (found : state.frames.get? spec.id = some frame) : Unchanged share viewport spec frame ↔
      (frame.dock ≠ .float → frame.floatRect = none) ∧
        (frame.size ≤ 0 → clampSize (integers share) spec frame.dock spec.defaultSize viewport = frame.size) := by
  have named := arranged.named found
  obtain ⟨fits, clamped, floats⟩ := settled _ _ found spec inside named.symm
  constructor
  · rintro ⟨_, size, _, elsewhere⟩
    refine ⟨elsewhere, fun nonpositive => ?_⟩
    rwa [if_neg (not_lt.mpr nonpositive)] at size
  · rintro ⟨elsewhere, size⟩
    refine ⟨arranged.docked found inside rfl, ?_, fun float => ?_, elsewhere⟩
    · split
      · exact fits
      · rename_i nonpositive
        exact size (not_lt.mp nonpositive)
    · obtain ⟨rect, held⟩ := Option.isSome_iff_exists.mp (floats float)
      exact ⟨rect, held, clamped rect held⟩

theorem foldl_max_eq {list : List Nat} {start top : Nat} (least : start ≤ top) (below : ∀ number ∈ list, number ≤ top)
    (reached : start = top ∨ top ∈ list) : list.foldl max start = top := by
  induction list generalizing start with
  | nil => exact reached.resolve_right List.not_mem_nil
  | cons first rest ih =>
    rw [List.forall_mem_cons] at below
    refine ih (max_le least below.1) below.2 ?_
    rcases reached with rfl | member
    · exact .inl (max_eq_left below.1)
    · rcases List.mem_cons.mp member with rfl | later
      · exact .inl (max_eq_right least)
      · exact .inr later

theorem Sound.top_eq (sound : Sound registry state) : (state.frames.values.map PanelFrame.z).foldl max 0 = state.zTop := by
  refine foldl_max_eq (Nat.zero_le _) (fun z member => ?_) ?_
  · obtain ⟨frame, there, rfl⟩ := List.mem_map.mp member
    obtain ⟨pid, found⟩ := Dict.mem_values_iff.mp there
    exact sound.below found
  · refine sound.top.imp Eq.symm fun ⟨pid, frame, found, same⟩ => ?_
    exact List.mem_map.mpr ⟨frame, Dict.mem_values_iff.mpr ⟨pid, found⟩, same⟩

theorem unnamed_preserved (arranged : Arranged registry state.frames) {place : Nat}
    (found : (sortedFrames localeCompare state.frames)[place]? = some frame) (unnamed : frame.id = "") :
    (builtFrom share shown localeCompare registry viewport state).preserved =
      state.preserved.set (invalidKey place) (.dict (frameFields frame)) := by
  have known : ∀ frame ∈ sortedFrames localeCompare state.frames, frame.id ∈ registry.specs.map PanelSpec.id := by
    intro frame member
    obtain ⟨pid, there⟩ := mem_sortedFrames.mp member
    exact arranged.named there ▸ registered_of_found arranged there
  rw [builtFrom, buildEntries_unnamed (sortedFrames_distinct arranged) known found unnamed, Nat.zero_add]

theorem builtFrom_frames_iff (sound : Sound registry state) : (builtFrom share shown localeCompare registry viewport state).frames = state.frames ↔
    (∀ spec ∈ registry.specs, ∀ frame, state.frames.get? spec.id = some frame → spec.id ≠ "" → Unchanged share viewport spec frame) ∧
      ∀ frame, state.frames.get? "" = some frame → (defaultFrames (integers share) registry viewport).get? "" = some frame := by
  have arranged := sound.arranged
  have unnamed : (builtFrom share shown localeCompare registry viewport state).frames.get? "" =
      (defaultFrames (integers share) registry viewport).get? "" := builtFrom_absent (fun _ _ => rfl) fun _ _ => arranged.named
  constructor
  · intro same
    refine ⟨fun spec inside frame found named => ?_, fun frame found => ?_⟩
    · rw [← restored_iff (arranged.named found).symm (registry.docked spec inside)]
      refine Option.some.inj ?_
      rw [← found, ← same]
      exact (builtFrom_found arranged found named inside).symm
    · rw [← unnamed, same, found]
  · rintro ⟨unchanged, default⟩
    refine Dict.eq_of_get? (builtFrom_keys.trans arranged.keys.symm) fun pid => ?_
    cases found : state.frames.get? pid with
    | none =>
      rw [Dict.get?_eq_none_iff, builtFrom_keys, ← arranged.keys]
      exact Dict.get?_eq_none_iff.mp found
    | some frame =>
      by_cases named : pid = ""
      · subst named
        rw [unnamed, default frame found]
      · obtain ⟨spec, inside, rfl⟩ := List.mem_map.mp (registered_of_found arranged found)
        rw [builtFrom_found arranged found named inside,
          (restored_iff (arranged.named found).symm (registry.docked spec inside)).mpr (unchanged spec inside frame found named)]

theorem restored_layout (sound : Sound registry state) (settled : AllSettled share registry viewport state.frames) (extra : Dict String Json) :
    (parseLayoutV3 share shown registry viewport (.dict (serializeLayout localeCompare state extra))).map Parsed.state = .ok state ↔
      Restorable share localeCompare registry viewport state := by
  have arranged := sound.arranged
  rw [parse_serialize]
  constructor
  · intro loaded
    have same : (builtFrom share shown localeCompare registry viewport state).frames = state.frames := congrArg LayoutState.frames (Except.ok.inj loaded)
    have focus : (state.focusId.filter fun id =>
        ((builtFrom share shown localeCompare registry viewport state).frames.get? id).any PanelFrame.isOpen) = state.focusId :=
      congrArg LayoutState.focusId (Except.ok.inj loaded)
    have kept : (builtFrom share shown localeCompare registry viewport state).preserved = state.preserved :=
      congrArg LayoutState.preserved (Except.ok.inj loaded)
    obtain ⟨unchanged, default⟩ := (builtFrom_frames_iff sound).mp same
    refine ⟨fun pid focused => ?_, fun pid frame found named elsewhere => ?_, fun spec inside frame found named nonpositive => ?_,
      fun place frame located unnamed => ?_⟩
    · rw [same, focused, Option.filter_eq_some_iff] at focus
      simpa [Option.any_eq_true] using focus.2
    · obtain ⟨spec, inside, rfl⟩ := List.mem_map.mp (registered_of_found arranged found)
      exact (unchanged spec inside frame found named).elsewhere elsewhere
    · exact ((unchanged_iff settled arranged inside found).mp (unchanged spec inside frame found named)).2 nonpositive
    · obtain ⟨pid, found⟩ := mem_sortedFrames.mp (List.mem_of_getElem? located)
      obtain rfl := (arranged.named found).symm.trans unnamed
      refine ⟨default frame found, ?_⟩
      rw [← kept, unnamed_preserved arranged located unnamed, Dict.get?_set_self]
  · rintro ⟨focus, rect, size, unnamed⟩
    have same : (builtFrom share shown localeCompare registry viewport state).frames = state.frames := by
      refine (builtFrom_frames_iff sound).mpr ⟨fun spec inside frame found named => ?_, fun frame found => ?_⟩
      · exact (unchanged_iff settled arranged inside found).mpr ⟨rect _ frame found named, size spec inside frame found named⟩
      · obtain ⟨place, located⟩ := List.mem_iff_getElem?.mp (mem_sortedFrames.mpr ⟨"", found⟩)
        exact (unnamed place frame located (arranged.named found)).1
    have kept : (builtFrom share shown localeCompare registry viewport state).preserved = state.preserved := by
      by_cases found : ∃ frame, state.frames.get? "" = some frame
      · obtain ⟨frame, found⟩ := found
        obtain ⟨place, located⟩ := List.mem_iff_getElem?.mp (mem_sortedFrames.mpr ⟨"", found⟩)
        rw [unnamed_preserved arranged located (arranged.named found)]
        exact Dict.set_eq_self (unnamed place frame located (arranged.named found)).2
      · refine buildEntries_kept (fun frame member => ?_) fun frame member unnamed => ?_
        · obtain ⟨pid, there⟩ := mem_sortedFrames.mp member
          exact arranged.named there ▸ registered_of_found arranged there
        · obtain ⟨pid, there⟩ := mem_sortedFrames.mp member
          obtain rfl := (arranged.named there).symm.trans unnamed
          exact found ⟨frame, there⟩
    have focused : (state.focusId.filter fun id => (state.frames.get? id).any PanelFrame.isOpen) = state.focusId := by
      cases named : state.focusId with
      | none => rfl
      | some pid =>
        obtain ⟨frame, found, isOpen⟩ := focus pid named
        exact Option.filter_eq_some_iff.mpr ⟨rfl, by rw [found]; exact isOpen⟩
    simp only [same, kept, focused, sound.top_eq]

/-- A build with its panels, where it runs, and what else it saves. -/
structure Build where
  registry : Registry Int
  viewport : Viewport Int
  extra : Dict String Json

section
variable (share : Int → Int) (shown : Json → String) (localeCompare : String → String → Int)

/-- A build loads a layout and saves it. -/
def pass (saved : Json) (build : Build) : Except String Json :=
  (parseLayoutV3 share shown build.registry build.viewport saved).map fun loaded =>
    .dict (serializeLayout localeCompare loaded.state build.extra)

/-- The frame of a panel in the last build, after passes by others. -/
def recovered (builds : List Build) (last : Build) (pid : String) (saved : Json) : Except String (Option (PanelFrame Int)) :=
  (builds.foldlM (pass share shown localeCompare) saved).bind fun saved =>
    (parseLayoutV3 share shown last.registry last.viewport saved).map fun loaded => loaded.state.frames.get? pid

end

/-- The frames of a build are under their own ids. -/
def Named (frames : Frames Int) : Prop := ∀ pid frame, frames.get? pid = some frame → frame.id = pid

theorem buildEntries_named {built : Built} {index : Nat} {entries : List (List (String × Json))} (named : Named built.frames) :
    Named (buildEntries share shown registry viewport built index entries).frames := by
  induction entries generalizing built index with
  | nil => exact named
  | cons entry rest ih =>
    refine ih fun pid frame found => ?_
    simp only [buildEntry] at found
    split at found
    · exact named pid frame found
    · split at found
      · exact named pid frame found
      · rename_i registered
        split at found
        · exact named pid frame found
        · rw [Dict.get?_set] at found
          split at found
          · rename_i same
            obtain rfl := Option.some.inj found
            exact (specOf_some registered).2.trans same.symm
          · exact named pid frame found

theorem parse_saved (share : Int → Int) (shown : Json → String) (localeCompare : String → String → Int) (build : Build) (state : LayoutState Int) (extra : Dict String Json) : ∃ loaded,
    parseLayoutV3 share shown build.registry build.viewport (.dict (serializeLayout localeCompare state extra)) = .ok loaded ∧
      loaded.state.frames = (builtFrom share shown localeCompare build.registry build.viewport state).frames ∧
      Named loaded.state.frames ∧ loaded.state.frames.keys = build.registry.specs.map PanelSpec.id := by
  have parsed := parse_serialize share shown localeCompare build.registry build.viewport state extra
  cases outcome : parseLayoutV3 share shown build.registry build.viewport (.dict (serializeLayout localeCompare state extra)) with
  | error code => exact nomatch outcome ▸ parsed
  | ok loaded =>
    rw [outcome] at parsed
    have same : loaded.state.frames = (builtFrom share shown localeCompare build.registry build.viewport state).frames :=
      congrArg LayoutState.frames (Except.ok.inj parsed)
    refine ⟨loaded, rfl, same, ?_, ?_⟩
    · rw [same]
      refine buildEntries_named fun pid frame found => ?_
      obtain ⟨_, _, _, named, rfl⟩ := defaultFrames_found found
      exact named
    · rw [same, builtFrom_keys]

/-- After passes by builds that do not know a panel, and at least one of them, the saved layout does not have its frame. -/
theorem passes_drop (share : Int → Int) (shown : Json → String) (localeCompare : String → String → Int) {builds : List Build} {pid : String} (named : Named state.frames) (extra : Dict String Json)
    (unknown : ∀ build ∈ builds, pid ∉ build.registry.specs.map PanelSpec.id) :
    ∃ after extra', builds.foldlM (pass share shown localeCompare) (.dict (serializeLayout localeCompare state extra)) =
        .ok (.dict (serializeLayout localeCompare after extra')) ∧ Named after.frames ∧
      (builds = [] ∧ after = state ∨ builds ≠ [] ∧ after.frames.get? pid = none) := by
  induction builds generalizing state extra with
  | nil => exact ⟨state, extra, rfl, named, .inl ⟨rfl, rfl⟩⟩
  | cons build rest ih =>
    rw [List.forall_mem_cons] at unknown
    obtain ⟨loaded, parsed, _, named', keys⟩ := parse_saved share shown localeCompare build state extra
    have absent : loaded.state.frames.get? pid = none := Dict.get?_eq_none_iff.mpr (keys ▸ unknown.1)
    obtain ⟨after, extra', passed, kept, dropped⟩ := ih named' build.extra unknown.2
    refine ⟨after, extra', ?_, kept, .inr ⟨List.cons_ne_nil _ _, ?_⟩⟩
    · rw [List.foldlM_cons, pass, parsed]
      exact passed
    · rcases dropped with ⟨_, rfl⟩ | ⟨_, absent⟩
      · exact absent
      · exact absent

/-- A panel has its frame back when no other build has loaded the layout and loading leaves the frame as it is. When
another build has, or the panel has no id, it has its default frame. -/
theorem recovered_iff (arranged : Arranged registry state.frames) {builds : List Build} {last : Build} {extra : Dict String Json}
    (found : state.frames.get? spec.id = some frame) (unknown : ∀ build ∈ builds, spec.id ∉ build.registry.specs.map PanelSpec.id)
    (inside : spec ∈ last.registry.specs) :
    recovered share shown localeCompare builds last spec.id (.dict (serializeLayout localeCompare state extra)) = .ok (some frame) ↔
      if builds = [] ∧ spec.id ≠ "" then Unchanged share last.viewport spec frame
      else (defaultFrames (integers share) last.registry last.viewport).get? spec.id = some frame := by
  have named : Named state.frames := fun _ _ => arranged.named
  obtain ⟨after, extra', passed, kept, dropped⟩ := passes_drop share shown localeCompare named extra unknown
  obtain ⟨loaded, parsed, same, _⟩ := parse_saved share shown localeCompare last after extra'
  have result : recovered share shown localeCompare builds last spec.id (.dict (serializeLayout localeCompare state extra)) =
      .ok ((builtFrom share shown localeCompare last.registry last.viewport after).frames.get? spec.id) := by
    rw [recovered, passed, Except.bind, parsed, Except.map, same]
  rw [result, Except.ok.injEq]
  rcases dropped with ⟨none, rfl⟩ | ⟨some, absent⟩
  · by_cases unnamed : spec.id = ""
    · rw [if_neg fun both => both.2 unnamed, builtFrom_absent (fun _ _ => unnamed) named]
    · rw [if_pos ⟨none, unnamed⟩, builtFrom_found arranged found unnamed inside, Option.some.injEq,
        restored_iff (arranged.named found).symm (last.registry.docked spec inside)]
  · rw [if_neg fun both => some both.1, builtFrom_absent (fun _ there => nomatch absent.symm.trans there) kept]

/-- A build with one panel, which may be on the left or float. -/
def notesOnly : Registry Int where
  specs := [⟨"notes", .left, [.left, .float], 300, 200, none, none, none⟩]
  distinct := by decide
  docked := by decide

def tablet : Viewport Int := ⟨1280, 800, none⟩

/-- A layout of `notesOnly` after actions. -/
def notesAfter (actions : List (LayoutAction Int)) : LayoutState Int :=
  run (integers fun axis => 3 * axis / 5) notesOnly (createDefaultLayout (integers fun axis => 3 * axis / 5) notesOnly tablet ∅) (actions.map (·, tablet))

end NovelStudio.Layout
