import NovelStudio.Manuscript.LockPaths

/-! What becomes of the locks of a document when an edit of it is saved. -/

namespace NovelStudio.Manuscript

open Library

variable {marker : Json}

theorem setLock_spec {target changed : Json} (set : setLock marker target = .ok changed)
    (present : marker ≠ .null) :
    changed.get? "content" = target.get? "content" ∧ typeOf changed = typeOf target ∧
      lockMarker changed = .ok (some marker) := by
  have marked (fields attrs : List (String × Json)) : lockMarker
      (.dict (store "attrs" (.dict (store LOCK_ATTRIBUTE marker attrs)) fields)) = .ok (some marker) := by
    have shown : (Json.dict (store LOCK_ATTRIBUTE marker attrs)).truthy = true := by
      cases attrs with
      | nil => rfl
      | cons field rest =>
        simp only [store, Json.truthy]
        split <;> rfl
    simp [lockMarker, shown, present]
  unfold setLock at set
  split at set
  swap
  · cases set
  rename_i fields
  split at set
  · cases set
    refine ⟨?_, ?_, marked fields []⟩
    · simp only [Json.get?]
      exact lookup_store_ne _ _ (by decide)
    · simp only [typeOf, Json.get?]
      rw [lookup_store_ne _ _ (by decide)]
  · rename_i attrs found
    cases set
    refine ⟨?_, ?_, marked fields attrs⟩
    · simp only [Json.get?]
      exact lookup_store_ne _ _ (by decide)
    · simp only [typeOf, Json.get?]
      rw [lookup_store_ne _ _ (by decide)]
  · cases set

variable {digests : Digests}

/-- A lock is kept: at its path stands a node of its type that carries its marker, or
an explicit tombstone under its id. -/
def Kept (digests : Digests) (result : Json) (row : LockRow) : Prop :=
  ∃ node carried, atPath result row.path = .ok node ∧ (typeOf node).eq (typeOf row.node) = true ∧
    lockMarker node = .ok (some carried) ∧
    (carried = row.marker ∨ unlockedUnder carried (markerId digests row.marker) = true)

theorem Kept.of_framed {document result : Json} (kept : Kept digests document row)
    (framed : Framed document result row.path) : Kept digests result row := by
  obtain ⟨node, carried, found, sameType, marked, carries⟩ := kept
  obtain ⟨later, there, alike⟩ := framed.there found
  exact ⟨later, carried, there, by rw [alike.typeOf]; exact sameType, alike.lockMarker.trans marked, carries⟩

theorem reattach_spec (present : row.marker ≠ .null) (attached : reattach digests document row = .ok result) :
    Kept digests result row ∧ ∀ other, other ≠ row.path → Framed document result other := by
  unfold reattach at attached
  split at attached
  · cases attached
  rename_i target found
  split at attached
  · cases attached
  split at attached
  · cases attached
  rename_i sameType
  rw [not_not] at sameType
  split at attached
  · cases attached
  rename_i provided marked
  split at attached
  · rename_i unlocked
    cases attached
    obtain ⟨carried, rfl, tombstone⟩ := (Option.any_eq_true _ _).mp unlocked
    exact ⟨⟨target, carried, found, sameType, marked, .inr tombstone⟩, fun other _ => .refl _ other⟩
  · obtain ⟨⟨node, changed, there, set, placed⟩, frame⟩ :=
      updateAt_spec (fun set => (setLock_spec set present).1) attached
    cases found.symm.trans there
    obtain ⟨_, typed, locked⟩ := setLock_spec set present
    exact ⟨⟨changed, row.marker, placed, by rw [typed]; exact sameType, locked, .inl rfl⟩, frame⟩

theorem reattach_all {rows : List LockRow} (present : ∀ row ∈ rows, row.marker ≠ .null)
    (single : ∀ row ∈ rows, ∀ row' ∈ rows, row.path = row'.path → row = row')
    (attached : rows.foldlM (reattach digests) document = .ok result) :
    (∀ row ∈ rows, Kept digests result row) ∧
      ∀ path, (∀ row ∈ rows, row.path ≠ path) → Framed document result path := by
  induction rows generalizing document with
  | nil =>
    cases attached
    exact ⟨by simp, fun path _ => .refl _ path⟩
  | cons row rest ih =>
    rw [List.foldlM_cons] at attached
    cases first : reattach digests document row with
    | error failure =>
      rw [first] at attached
      cases attached
    | ok middle =>
      rw [first] at attached
      obtain ⟨kept, frame⟩ := reattach_spec (present row (List.mem_cons_self ..)) first
      obtain ⟨keptRest, frameRest⟩ := ih (fun row member => present row (List.mem_cons_of_mem _ member))
        (fun row member row' member' => single row (List.mem_cons_of_mem _ member) row'
          (List.mem_cons_of_mem _ member')) attached
      refine ⟨fun other member => ?_, fun path apart => ?_⟩
      · rcases List.mem_cons.mp member with rfl | later
        · by_cases again : ∃ row' ∈ rest, row'.path = other.path
          · -- A path holds one row, so a later turn on the same path keeps this very lock.
            obtain ⟨row', member', same⟩ := again
            have equal := single other (List.mem_cons_self ..) row' (List.mem_cons_of_mem _ member') same.symm
            exact keptRest other (equal ▸ member')
          · exact kept.of_framed (frameRest other.path fun row' member' same => again ⟨row', member', same⟩)
        · exact keptRest other later
      · have outside := frame path (Ne.symm (apart row (List.mem_cons_self ..)))
        exact outside.trans (frameRest path fun row' member' => apart row' (List.mem_cons_of_mem _ member'))

theorem lockMarker_of_eq {node other : Json} (same : node.eq other = true)
    (marked : lockMarker other = .ok (some marker)) :
    ∃ carried, lockMarker node = .ok (some carried) ∧ carried.eq marker = true := by
  have present := lockMarker_ne_null marked
  unfold lockMarker at marked
  split at marked
  swap
  · cases marked
  rename_i fields
  obtain ⟨own, rfl⟩ := Json.dict_of_eq same
  split at marked
  · cases marked
  rename_i attrs found
  split at marked
  swap
  · cases marked
  split at marked
  swap
  · cases marked
  rename_i entries _
  have filtered := Except.ok.inj marked
  simp only [Option.filter_eq_some_iff] at filtered
  obtain ⟨value, ownFound, equal⟩ := Json.lookup_of_eq same found
  obtain ⟨ownAttrs, rfl⟩ := Json.dict_of_eq equal
  obtain ⟨carried, carriedFound, equalMarker⟩ := Json.lookup_of_eq equal filtered.1
  have notNull : carried ≠ .null := by
    rintro rfl
    cases marker <;> simp [Json.eq, Json.sameNumber, Json.number?] at equalMarker present
  have shown : (Json.dict ownAttrs).truthy = true := by
    cases ownAttrs with
    | nil => cases carriedFound
    | cons field rest => rfl
  exact ⟨carried, by simp [lockMarker, ownFound, shown, carriedFound, notNull], equalMarker⟩

theorem typeOf_of_eq {node other : Json} (same : node.eq other = true) (object : other.isDict = true) :
    (typeOf node).eq (typeOf other) = true := by
  cases other with
  | dict fields =>
    obtain ⟨own, rfl⟩ := Json.dict_of_eq same
    simp only [typeOf, Json.get?]
    cases found : lookup "type" fields with
    | some value =>
      obtain ⟨ownValue, ownFound, equal⟩ := Json.lookup_of_eq same found
      simpa [ownFound] using equal
    | none =>
      cases ownFound : lookup "type" own with
      | none => rfl
      | some value =>
        rw [Json.eq, Bool.and_eq_true] at same
        obtain ⟨_, there, _⟩ := Json.eq_of_mem_eqFields same.1 (mem_of_lookup ownFound)
        cases found.symm.trans there
  | _ => cases object

theorem get?_of_eq {value : Json} (same : value.eq marker = true)
    (found : marker.get? key = some (.str text)) : value.get? key = some (.str text) := by
  cases marker with
  | dict fields =>
    obtain ⟨own, rfl⟩ := Json.dict_of_eq same
    obtain ⟨x, ownFound, equal⟩ := Json.lookup_of_eq same found
    rw [Json.eq_str_iff.mp equal] at ownFound
    exact ownFound
  | _ => cases found

theorem hasState_iff : hasState marker state = true ↔ marker.get? "state" = some (.str state) := by
  unfold hasState
  cases found : marker.get? "state" with
  | none => simp
  | some value => simp [Json.eq_str_iff]

theorem assertAiLocks_spec (found : lockNodes before = .ok rows) (accepted : assertAiLocks digests before after = .ok ())
    (member : row ∈ rows) (active : activeLock row.marker = true) :
    hasState row.marker "LOCKED" = true ∧ (givenId row.marker).isSome = true ∧
      ∃ node, atPath after row.path = .ok node ∧ node.eq row.node = true := by
  simp only [assertAiLocks, found] at accepted
  have one : assertAiLock digests after row = .ok () := by
    clear found
    induction rows with
    | nil => cases member
    | cons first rest ih =>
      rw [List.forM_cons] at accepted
      cases checked : assertAiLock digests after first with
      | error failure =>
        rw [checked] at accepted
        cases accepted
      | ok result =>
        rw [checked] at accepted
        rcases List.mem_cons.mp member with rfl | later
        · exact checked
        · exact ih later accepted
  unfold assertAiLock at one
  rw [if_neg (by simp [active])] at one
  split at one
  · cases one
  rename_i locked
  rw [not_or, not_not] at locked
  split at one
  · cases one
  split at one
  · cases one
  split at one
  · cases one
  rename_i node there
  split at one
  · rename_i equal
    exact ⟨locked.1, Option.isSome_iff_ne_none.mpr locked.2, node, there, equal⟩
  · cases one

/-- No two paths of a document carry markers of the same id. -/
def UniqueIds (digests : Digests) (document : Json) : Prop :=
  ∀ {path path' marker marker'}, markerAt document path = .ok (some marker) →
    markerAt document path' = .ok (some marker') → markerId digests marker = markerId digests marker' → path = path'

/-- The edit carries no lock id away from its place: at the paths without an active
lock its own ids are unique, and none is the id of an active lock. -/
structure KeepsPlaces (digests : Digests) (rows : List LockRow) (after : Json) : Prop where
  named : ∀ row ∈ rows, activeLock row.marker = true → ∃ id, id ≠ "" ∧ markerId digests row.marker = .str id
  single : ∀ row ∈ rows, ∀ row' ∈ rows, markerId digests row.marker = markerId digests row'.marker → row = row'
  foreign : ∀ {path marker}, (∀ row ∈ rows, activeLock row.marker = true → row.path ≠ path) →
    markerAt after path = .ok (some marker) →
    ∀ row ∈ rows, activeLock row.marker = true → markerId digests marker ≠ markerId digests row.marker
  own : ∀ {path path' marker marker'}, (∀ row ∈ rows, activeLock row.marker = true → row.path ≠ path) →
    (∀ row ∈ rows, activeLock row.marker = true → row.path ≠ path') →
    markerAt after path = .ok (some marker) → markerAt after path' = .ok (some marker') →
    markerId digests marker = markerId digests marker' → path = path'

/-- A lock of the first document survives in the second: the marker, or a tombstone under its id. -/
def Survives (digests : Digests) (row : LockRow) (carried : Json) : Prop :=
  activeLock carried = true ∧
      (carried = row.marker ∨ (givenId row.marker).isSome = true ∧ carried.eq row.marker = true) ∨
    unlockedUnder carried (markerId digests row.marker) = true

theorem markerId_of_get? (found : marker.get? "id" = some (.str text)) (given : text ≠ "") :
    markerId digests marker = .str text := by
  simp [markerId, givenId, found, Json.truthy, given, Option.filter]

theorem Survives.markerId_eq {row : LockRow} (survives : Survives digests row carried)
    (named : ∃ id, id ≠ "" ∧ markerId digests row.marker = .str id) :
    markerId digests carried = markerId digests row.marker := by
  obtain ⟨text, given, same⟩ := named
  rcases survives with ⟨_, rfl | ⟨own, equal⟩⟩ | tombstone
  · rfl
  · obtain ⟨stored, found⟩ := Option.isSome_iff_exists.mp own
    rw [markerId, found, Option.getD_some] at same
    subst same
    have stated := (Option.filter_eq_some_iff.mp found).1
    rw [markerId_of_get? stated given, markerId_of_get? (get?_of_eq equal stated) given]
  · rw [unlockedUnder, Bool.and_eq_true, Option.any_eq_true, same] at tombstone
    obtain ⟨⟨stored, found, equal⟩, _⟩ := tombstone
    rw [Json.eq_str_iff.mp equal] at found
    rw [same, markerId_of_get? found given]

theorem activeLock_of_locked (locked : hasState marker "LOCKED" = true) : activeLock marker = true := by
  have other : hasState marker "UNLOCKED" = false := by
    rw [← Bool.not_eq_true, hasState_iff, hasState_iff.mp locked]
    decide
  simp [activeLock, other]

/-- A document of paragraphs, each with its text and the id of its lock. -/
def paragraphs (rows : List (String × Option String)) : Json :=
  .dict [("type", .str "doc"), ("content", .list (rows.map fun (text, lock) => .dict [
    ("type", .str "paragraph"),
    ("attrs", .dict (lock.elim [] fun id => [(LOCK_ATTRIBUTE, .dict [("id", .str id), ("state", .str "LOCKED")])])),
    ("content", .list [.dict [("type", .str "text"), ("text", .str text)]])]))]

/-- Digests of documents in which every marker carries an id. -/
def unread : Digests := ⟨fun _ => none, fun _ => "unread"⟩

end NovelStudio.Manuscript
