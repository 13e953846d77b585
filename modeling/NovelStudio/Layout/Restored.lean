import NovelStudio.Layout.Model
import NovelStudio.Layout.Reached

/-! Saved layouts, format v3 (`persistence.ts`). All numbers are integers here. -/

namespace NovelStudio.Layout

open Library

def DOCK_ZONES : List DockZone := [.left, .main, .right, .bottom, .float]

def SPLIT_MODES : List SplitMode := [.single, .splitH, .splitV]

def DockZone.text : DockZone → String
  | .left => "left"
  | .main => "main"
  | .right => "right"
  | .bottom => "bottom"
  | .float => "float"

def SplitMode.text : SplitMode → String
  | .single => "single"
  | .splitH => "split-h"
  | .splitV => "split-v"

def DockZone.read (text : String) : Option DockZone := DOCK_ZONES.find? (·.text = text)

def SplitMode.read (text : String) : Option SplitMode := SPLIT_MODES.find? (·.text = text)

@[simp] theorem DockZone.read_text (dock : DockZone) : DockZone.read dock.text = some dock := by cases dock <;> rfl

@[simp] theorem SplitMode.read_text (split : SplitMode) : SplitMode.read split.text = some split := by cases split <;> rfl

def rectFields (rect : Rect Int) : List (String × Json) := [("x", .int rect.x), ("y", .int rect.y), ("w", .int rect.w), ("h", .int rect.h)]

def frameFields (frame : PanelFrame Int) : List (String × Json) :=
  [("id", .str frame.id), ("dock", .str frame.dock.text), ("order", .int frame.order), ("size", .int frame.size),
    ("collapsed", .bool frame.collapsed), ("open", .bool frame.isOpen), ("z", .int frame.z)] ++
  (frame.floatRect.map fun rect => ("floatRect", Json.dict (rectFields rect))).toList

/-- The frames in the order of `localeCompare`. -/
def sortedFrames (localeCompare : String → String → Int) (frames : Frames Int) : List (PanelFrame Int) :=
  frames.values.insertionSort fun left right => localeCompare left.id right.id ≤ 0

def bagField (name : String) (bag : Dict String Json) : List (String × Json) := if bag.entries = [] then [] else [(name, .dict bag.entries)]

/-- `serializeLayout`: the value that is saved as JSON text; reading the text gives it back. -/
def serializeLayout (localeCompare : String → String → Int) (state : LayoutState Int) (extra : Dict String Json) : List (String × Json) :=
  [("version", .int 3), ("split", .str state.split.text), ("focusId", (state.focusId.map Json.str).getD .null),
    ("panels", .list ((sortedFrames localeCompare state.frames).map fun frame => .dict (frameFields frame)))] ++
  bagField "preserved" state.preserved ++ bagField "extra" extra

inductive DiagnosticCode where
  | invalidSize | invalidDock | invalidField | unknownPanelPreserved | missingPanelAdded

structure Diagnostic where
  code : DiagnosticCode
  panelId : Option String
  detail : Option String

def number : Option Json → Option Int
  | some (.int value) => some value
  | _ => none

def boolean : Option Json → Option Bool
  | some (.bool value) => some value
  | _ => none

def string : Option Json → Option String
  | some (.str value) => some value
  | _ => none

/-- The fields of an object, and none of any other value. -/
def object : Option Json → List (String × Json)
  | some (.dict fields) => fields
  | _ => []

def fields? : Json → Option (List (String × Json))
  | .dict fields => some fields
  | _ => none

/-- A diagnostic about a field that is there. -/
def complaint (shown : Json → String) (code : DiagnosticCode) (panelId : String) (field : Option Json) : List Diagnostic :=
  field.toList.map fun value => ⟨code, some panelId, some (shown value)⟩

section Loading
variable (share : Int → Int) (shown : Json → String) (registry : Registry Int) (viewport : Viewport Int)

/-- The dock that an entry names, if the panel may be there. -/
def namedDock (raw : List (String × Json)) (spec : PanelSpec Int) : Option DockZone :=
  ((string (lookup "dock" raw)).bind DockZone.read).filter fun dock => dock ∈ spec.docks

def normaliseFrame (raw : List (String × Json)) (spec : PanelSpec Int) (order : Nat) : PanelFrame Int × List Diagnostic :=
  let js := integers share
  let dock := (namedDock raw spec).getD spec.defaultDock
  let named := (number (lookup "size" raw)).filter fun size => 0 < size
  let size := named.getD spec.defaultSize
  let clamped := clampSize js spec dock size viewport
  let rect := object (lookup "floatRect" raw)
  let coordinate (name : String) (default : Int) : Int := (number (lookup name rect)).getD default
  let frame : PanelFrame Int :=
    { id := spec.id
      dock
      size := clamped
      order := (number (lookup "order" raw)).getD order
      collapsed := (boolean (lookup "collapsed" raw)).getD (spec.defaultCollapsed.getD false)
      isOpen := (boolean (lookup "open" raw)).getD (spec.defaultOpen.getD true)
      z := ((number (lookup "z" raw)).filter fun z => 0 ≤ z).elim 0 Int.toNat
      floatRect :=
        if dock = .float then
          some (clampRect js spec ⟨coordinate "x" 80, coordinate "y" 80, coordinate "w" clamped, coordinate "h" 320⟩ viewport)
        else none }
  (frame,
    (if (namedDock raw spec).isNone then complaint shown .invalidDock spec.id (lookup "dock" raw) else []) ++
    (if named.isNone then complaint shown .invalidSize spec.id (lookup "size" raw) else []) ++
    if clamped ≠ size then [⟨.invalidSize, some spec.id, some s!"{size}→{clamped}"⟩] else [])

/-- What has been built from the entries so far. -/
structure Built where
  frames : Frames Int
  preserved : Dict String Json
  seen : List String
  diagnostics : List Diagnostic

/-- Where an entry without an id is kept. -/
def invalidKey (index : Nat) : String := s!"__invalid_{index}"

/-- The panel that an entry names; the empty text is none. -/
def entryId (entry : List (String × Json)) : String := (string (lookup "id" entry)).getD ""

def buildEntry (built : Built) (index : Nat) (entry : List (String × Json)) : Built :=
  let id := entryId entry
  if id = "" then
    { built with
      preserved := built.preserved.set (invalidKey index) (.dict entry)
      diagnostics := built.diagnostics ++ [⟨.invalidField, none, some "panel without id"⟩] }
  else
    match specOf registry.specs id with
    | none =>
      { built with
        preserved := built.preserved.set id (.dict entry)
        diagnostics := built.diagnostics ++ [⟨.unknownPanelPreserved, some id, none⟩] }
    | some spec =>
      if id ∈ built.seen then
        { built with diagnostics := built.diagnostics ++ [⟨.invalidField, some id, some "duplicate entry ignored"⟩] }
      else
        let (frame, diagnostics) := normaliseFrame share shown viewport entry spec index
        { built with
          frames := built.frames.set id frame
          seen := built.seen ++ [id]
          diagnostics := built.diagnostics ++ diagnostics }

/-- The entries one after another, from an index on. -/
def buildEntries (built : Built) (index : Nat) : List (List (String × Json)) → Built
  | [] => built
  | entry :: rest => buildEntries (buildEntry share shown registry viewport built index entry) (index + 1) rest

def buildState (entries : List (List (String × Json))) (top : List (String × Json)) : LayoutState Int × List Diagnostic :=
  let base := createDefaultLayout (integers share) registry viewport ∅
  let preserved := Dict.ofList (object (lookup "preserved" top))
  let built := buildEntries share shown registry viewport ⟨base.frames, preserved, [], []⟩ 0 entries
  let missing := (registry.specs.filter fun spec => spec.id ∉ built.seen).map fun spec => ⟨.missingPanelAdded, some spec.id, none⟩
  let named := (string (lookup "split" top)).bind SplitMode.read
  let misread := match named, lookup "split" top with
    | none, some split => [⟨.invalidField, none, some s!"split={shown split}"⟩]
    | _, _ => []
  let state :=
    { base with
      split := named.getD .single
      frames := built.frames
      focusId := (string (lookup "focusId" top)).filter fun id => (built.frames.get? id).any PanelFrame.isOpen
      zTop := (built.frames.values.map PanelFrame.z).foldl max 0
      preserved := built.preserved }
  (state, built.diagnostics ++ missing ++ misread)

structure Parsed where
  state : LayoutState Int
  diagnostics : List Diagnostic
  extra : Dict String Json

def KNOWN_TOP : List String := ["version", "split", "focusId", "panels", "preserved", "extra"]

/-- `parseLayoutV3`; the errors are the codes that it throws. -/
def parseLayoutV3 (raw : Json) : Except String Parsed :=
  match raw with
  | .dict fields =>
    if number (lookup "version" fields) ≠ some 3 then .error "unsupported-version"
    else
      let extra := Dict.ofList (object (lookup "extra" fields) ++ fields.filter fun field => field.1 ∉ KNOWN_TOP)
      let panels : Option (List (List (String × Json))) := match lookup "panels" fields with
        | some (.list items) => some (items.filterMap fields?)
        | _ => none
      let missing := if panels.isNone then [⟨.invalidField, none, some "panels missing"⟩] else []
      let (state, diagnostics) := buildState share shown registry viewport (panels.getD []) fields
      .ok ⟨state, missing ++ diagnostics, extra⟩
  | _ => .error "not-object"

end Loading

end NovelStudio.Layout

/-! What loading gives back of a saved layout: a frame, the frames of a build, and those of
panels that a build does not know. -/

namespace NovelStudio.Layout

open Library

variable {share : Int → Int} {shown : Json → String} {localeCompare : String → String → Int}
variable {registry : Registry Int} {viewport : Viewport Int} {state : LayoutState Int} {frame : PanelFrame Int} {spec : PanelSpec Int}

def restored (share : Int → Int) (viewport : Viewport Int) (spec : PanelSpec Int) (frame : PanelFrame Int) : PanelFrame Int :=
  let dock := if frame.dock ∈ spec.docks then frame.dock else spec.defaultDock
  let size := clampSize (integers share) spec dock (if 0 < frame.size then frame.size else spec.defaultSize) viewport
  { frame with
    id := spec.id
    dock
    size
    floatRect := if dock = .float then some (clampRect (integers share) spec (frame.floatRect.getD ⟨80, 80, size, 320⟩) viewport) else none }

theorem namedDock_fields : namedDock (frameFields frame) spec = if frame.dock ∈ spec.docks then some frame.dock else none := by
  simp [namedDock, frameFields, lookup, string, Option.filter]

theorem rect_fields : object (lookup "floatRect" (frameFields frame)) = (frame.floatRect.map rectFields).getD [] := by
  cases rect : frame.floatRect <;> simp [frameFields, lookup, object, rect]

theorem normaliseFrame_fields (index : Nat) :
    (normaliseFrame share shown viewport (frameFields frame) spec index).1 = restored share viewport spec frame := by
  have dock : (if frame.dock ∈ spec.docks then some frame.dock else none).getD spec.defaultDock =
      if frame.dock ∈ spec.docks then frame.dock else spec.defaultDock := by split <;> rfl
  have size : (if 0 < frame.size then some frame.size else none).getD spec.defaultSize =
      if 0 < frame.size then frame.size else spec.defaultSize := by split <;> rfl
  simp only [normaliseFrame, namedDock_fields, rect_fields, dock, restored]
  cases rect : frame.floatRect <;> simp [frameFields, lookup, number, boolean, rectFields, size, Option.filter]

structure Unchanged (share : Int → Int) (viewport : Viewport Int) (spec : PanelSpec Int) (frame : PanelFrame Int) : Prop where
  dock : frame.dock ∈ spec.docks
  size : clampSize (integers share) spec frame.dock (if 0 < frame.size then frame.size else spec.defaultSize) viewport = frame.size
  floats : frame.dock = .float → ∃ rect, frame.floatRect = some rect ∧ clampRect (integers share) spec rect viewport = rect
  elsewhere : frame.dock ≠ .float → frame.floatRect = none

theorem restored_iff (same : spec.id = frame.id) (defaults : spec.defaultDock ∈ spec.docks) :
    restored share viewport spec frame = frame ↔ Unchanged share viewport spec frame := by
  constructor
  · intro back
    have dock : (if frame.dock ∈ spec.docks then frame.dock else spec.defaultDock) = frame.dock := congrArg PanelFrame.dock back
    have size := congrArg PanelFrame.size back
    have rect := congrArg PanelFrame.floatRect back
    simp only [restored, dock] at size rect
    refine ⟨?_, size, fun floats => ?_, fun elsewhere => ?_⟩
    · split at dock
      · assumption
      · exact dock ▸ defaults
    · rw [if_pos floats] at rect
      refine ⟨_, rect.symm, ?_⟩
      rw [← rect, Option.getD_some] at rect
      exact Option.some.inj rect
    · rw [← rect, if_neg elsewhere]
  · rintro ⟨dock, size, floats, elsewhere⟩
    have rect : (if frame.dock = .float then
        some (clampRect (integers share) spec (frame.floatRect.getD ⟨80, 80, frame.size, 320⟩) viewport) else none) = frame.floatRect := by
      split
      · rename_i float
        obtain ⟨rect, held, clamped⟩ := floats float
        rw [held, Option.getD_some, clamped]
      · rename_i docked
        exact (elsewhere docked).symm
    simp only [restored, if_pos dock, size, same, rect]

section
variable {built : Built} {pid : String}

@[simp] theorem entryId_fields (frame : PanelFrame Int) : entryId (frameFields frame) = frame.id := rfl

variable {entry : List (String × Json)} {index : Nat}

theorem buildEntry_other (other : entryId entry ≠ pid ∨ pid = "") :
    (buildEntry share shown registry viewport built index entry).frames.get? pid = built.frames.get? pid := by
  simp only [buildEntry]
  split
  · rfl
  · rename_i named
    split
    · rfl
    · split
      · rfl
      · refine Dict.get?_set_ne _ _ ?_
        rintro rfl
        rcases other with other | empty
        · exact other rfl
        · exact named empty

theorem buildEntries_other {entries : List (List (String × Json))} (other : ∀ entry ∈ entries, entryId entry ≠ pid ∨ pid = "") :
    (buildEntries share shown registry viewport built index entries).frames.get? pid = built.frames.get? pid := by
  induction entries generalizing built index with
  | nil => rfl
  | cons entry rest ih =>
    rw [buildEntries, ih fun entry member => other entry (List.mem_cons_of_mem _ member)]
    exact buildEntry_other (other entry (List.mem_cons_self ..))

theorem buildEntry_keys (known : ∀ spec ∈ registry.specs, spec.id ∈ built.frames.keys) :
    (buildEntry share shown registry viewport built index entry).frames.keys = built.frames.keys := by
  simp only [buildEntry]
  split
  · rfl
  · split
    · rfl
    · rename_i registered
      split
      · rfl
      · obtain ⟨inside, same⟩ := specOf_some registered
        rw [Dict.keys_set, if_pos (same ▸ known _ inside)]

theorem buildEntries_keys {entries : List (List (String × Json))} (known : ∀ spec ∈ registry.specs, spec.id ∈ built.frames.keys) :
    (buildEntries share shown registry viewport built index entries).frames.keys = built.frames.keys := by
  induction entries generalizing built index with
  | nil => rfl
  | cons entry rest ih =>
    have here : (buildEntry share shown registry viewport built index entry).frames.keys = built.frames.keys := buildEntry_keys known
    rw [buildEntries, ih (here ▸ known), here]

theorem buildEntry_new (entry : List (String × Json)) (named : entryId entry ≠ "")
    (registered : specOf registry.specs (entryId entry) = some spec) (unseen : entryId entry ∉ built.seen) :
    (buildEntry share shown registry viewport built index entry).frames =
      built.frames.set (entryId entry) (normaliseFrame share shown viewport entry spec index).1 := by
  simp only [buildEntry, if_neg named, registered, if_neg unseen]

theorem buildEntry_found (named : frame.id ≠ "") (registered : specOf registry.specs frame.id = some spec)
    (unseen : frame.id ∉ built.seen) :
    (buildEntry share shown registry viewport built index (frameFields frame)).frames.get? frame.id = some (restored share viewport spec frame) := by
  rw [buildEntry_new (frameFields frame) named registered unseen, entryId_fields, Dict.get?_set_self, normaliseFrame_fields]

theorem buildEntry_seen (other : entryId entry ≠ pid) (unseen : pid ∉ built.seen) :
    pid ∉ (buildEntry share shown registry viewport built index entry).seen := by
  simp only [buildEntry]
  split
  · exact unseen
  · split
    · exact unseen
    · split
      · exact unseen
      · simp [unseen, Ne.symm other]

variable {frames : List (PanelFrame Int)}

theorem buildEntries_found (distinct : (frames.map PanelFrame.id).Nodup) (member : frame ∈ frames)
    (named : frame.id ≠ "") (registered : specOf registry.specs frame.id = some spec) (unseen : frame.id ∉ built.seen) :
    (buildEntries share shown registry viewport built index (frames.map frameFields)).frames.get? frame.id =
      some (restored share viewport spec frame) := by
  induction frames generalizing built index with
  | nil => cases member
  | cons first rest ih =>
    rw [List.map_cons, List.nodup_cons] at distinct
    rw [List.map_cons, buildEntries]
    rcases List.mem_cons.mp member with rfl | later
    · rw [buildEntries_other ?_]
      · exact buildEntry_found named registered unseen
      · intro entry inside
        obtain ⟨other, listed, rfl⟩ := List.mem_map.mp inside
        exact .inl fun same => distinct.1 (List.mem_map.mpr ⟨other, listed, same⟩)
    · refine ih distinct.2 later (buildEntry_seen ?_ unseen)
      rw [entryId_fields]
      exact fun same => distinct.1 (List.mem_map.mpr ⟨frame, later, same.symm⟩)

theorem buildEntry_preserved (known : entryId entry ∈ registry.specs.map PanelSpec.id) :
    (buildEntry share shown registry viewport built index entry).preserved =
      if entryId entry = "" then built.preserved.set (invalidKey index) (.dict entry) else built.preserved := by
  simp only [buildEntry]
  split
  · rfl
  · split
    · rename_i unregistered
      exact (specOf_none.mp unregistered known).elim
    · split <;> rfl

theorem buildEntries_kept (known : ∀ frame ∈ frames, frame.id ∈ registry.specs.map PanelSpec.id)
    (named : ∀ frame ∈ frames, frame.id ≠ "") :
    (buildEntries share shown registry viewport built index (frames.map frameFields)).preserved = built.preserved := by
  induction frames generalizing built index with
  | nil => rfl
  | cons first rest ih =>
    rw [List.forall_mem_cons] at known named
    rw [List.map_cons, buildEntries, ih known.2 named.2, buildEntry_preserved known.1, entryId_fields, if_neg named.1]

theorem buildEntries_unnamed {place : Nat} (distinct : (frames.map PanelFrame.id).Nodup)
    (known : ∀ frame ∈ frames, frame.id ∈ registry.specs.map PanelSpec.id) (found : frames[place]? = some frame) (unnamed : frame.id = "") :
    (buildEntries share shown registry viewport built index (frames.map frameFields)).preserved =
      built.preserved.set (invalidKey (index + place)) (.dict (frameFields frame)) := by
  induction frames generalizing built index place with
  | nil => cases found
  | cons first rest ih =>
    rw [List.forall_mem_cons] at known
    rw [List.map_cons, List.nodup_cons] at distinct
    rw [List.map_cons, buildEntries]
    cases place with
    | zero =>
      cases found
      have others : ∀ other ∈ rest, other.id ≠ "" := fun other member same =>
        distinct.1 (List.mem_map.mpr ⟨other, member, same.trans unnamed.symm⟩)
      rw [buildEntries_kept known.2 others, buildEntry_preserved known.1, entryId_fields, if_pos unnamed, Nat.add_zero]
    | succ place =>
      have named : first.id ≠ "" := fun same =>
        distinct.1 (List.mem_map.mpr ⟨frame, List.mem_of_getElem? found, unnamed.trans same.symm⟩)
      rw [ih distinct.2 known.2 found, buildEntry_preserved known.1, entryId_fields, if_neg named, Nat.add_right_comm, Nat.add_assoc]

end

theorem lookup_bagField (name : String) (bag : Dict String Json) (rest : List (String × Json)) :
    lookup name (bagField name bag ++ rest) = if bag.entries = [] then lookup name rest else some (.dict bag.entries) := by
  unfold bagField
  split <;> simp [lookup]

theorem object_preserved (state : LayoutState Int) (extra : Dict String Json) :
    object (lookup "preserved" (serializeLayout localeCompare state extra)) = state.preserved.entries := by
  have own : lookup "preserved" (serializeLayout localeCompare state extra) =
      lookup "preserved" (bagField "preserved" state.preserved ++ bagField "extra" extra) := by
    simp [serializeLayout, lookup]
  have absent : lookup "preserved" (bagField "extra" extra) = none := by
    unfold bagField
    split <;> simp [lookup]
  rw [own, lookup_bagField, absent]
  split
  · rename_i empty
    rw [empty]
    rfl
  · rfl

/-- What loading builds from the entries of a saved layout. -/
def builtFrom (share : Int → Int) (shown : Json → String) (localeCompare : String → String → Int) (registry : Registry Int)
    (viewport : Viewport Int) (state : LayoutState Int) : Built :=
  buildEntries share shown registry viewport ⟨defaultFrames (integers share) registry viewport, state.preserved, [], []⟩ 0
    ((sortedFrames localeCompare state.frames).map frameFields)

theorem parse_serialize (share : Int → Int) (shown : Json → String) (localeCompare : String → String → Int) (registry : Registry Int)
    (viewport : Viewport Int) (state : LayoutState Int) (extra : Dict String Json) :
    let built := builtFrom share shown localeCompare registry viewport state
    (parseLayoutV3 share shown registry viewport (.dict (serializeLayout localeCompare state extra))).map Parsed.state =
      .ok ⟨state.split, built.frames, state.focusId.filter fun id => (built.frames.get? id).any PanelFrame.isOpen,
        (built.frames.values.map PanelFrame.z).foldl max 0, built.preserved⟩ := by
  have version : number (lookup "version" (serializeLayout localeCompare state extra)) = some 3 := rfl
  have panels : lookup "panels" (serializeLayout localeCompare state extra) =
      some (.list ((sortedFrames localeCompare state.frames).map fun frame => .dict (frameFields frame))) := by
    simp [serializeLayout, lookup]
  have split : string (lookup "split" (serializeLayout localeCompare state extra)) = some state.split.text := by
    simp [serializeLayout, lookup, string]
  have focus : string (lookup "focusId" (serializeLayout localeCompare state extra)) = state.focusId := by
    cases focused : state.focusId <;> simp [serializeLayout, lookup, focused, string]
  have entries : ((sortedFrames localeCompare state.frames).map fun frame => Json.dict (frameFields frame)).filterMap fields? =
      (sortedFrames localeCompare state.frames).map frameFields := by
    simp [List.filterMap_map, Function.comp_def, fields?]
  rw [parseLayoutV3, if_neg (by simp [version])]
  simp only [panels, Option.getD_some, buildState, object_preserved, Dict.ofList_entries, split, Option.bind_some,
    SplitMode.read_text, focus, createDefaultLayout, Except.map, builtFrom, entries]

end NovelStudio.Layout
