import NovelStudio.Manuscript.RevisionLock

/-! Where the nodes of a document stand, and what changing one of them does to the others. -/

namespace NovelStudio.Manuscript

open Library

/-- Two nodes with the same fields but for their content. -/
structure Alike (left right : Json) : Prop where
  object : left.isDict = right.isDict
  fields : ∀ key, key ≠ "content" → left.get? key = right.get? key

theorem Alike.refl (node : Json) : Alike node node := ⟨rfl, fun _ _ => rfl⟩

theorem Alike.trans {first second third : Json} (left : Alike first second) (right : Alike second third) :
    Alike first third :=
  ⟨left.object.trans right.object, fun key other => (left.fields key other).trans (right.fields key other)⟩

variable {left right : Json}

theorem Alike.lockMarker (alike : Alike left right) : lockMarker left = lockMarker right := by
  have object := alike.object
  have attrs := alike.fields "attrs" (by decide)
  cases left <;> cases right <;> simp_all [Json.isDict, Json.get?, Manuscript.lockMarker]

theorem Alike.typeOf (alike : Alike left right) : typeOf left = typeOf right := by
  unfold Manuscript.typeOf
  rw [alike.fields _ (by decide)]

/-- The node at a path is there still, changed at most below. -/
structure Framed (document result : Json) (path : List Nat) : Prop where
  there : ∀ {node}, atPath document path = .ok node → ∃ kept, atPath result path = .ok kept ∧ Alike kept node
  absent : ∀ {failure}, atPath document path = .error failure → atPath result path = .error failure

theorem Framed.refl (document : Json) (path : List Nat) : Framed document document path :=
  ⟨fun found => ⟨_, found, .refl _⟩, fun missing => missing⟩

theorem Framed.trans {first second third : Json} (left : Framed first second path)
    (right : Framed second third path) : Framed first third path := by
  refine ⟨fun found => ?_, fun missing => right.absent (left.absent missing)⟩
  obtain ⟨middle, foundMiddle, alike⟩ := left.there found
  obtain ⟨last, foundLast, alike'⟩ := right.there foundMiddle
  exact ⟨last, foundLast, alike'.trans alike⟩

def markerAt (document : Json) (path : List Nat) : Except Failure (Option Json) :=
  match atPath document path with
  | .error failure => .error failure
  | .ok node => lockMarker node

theorem Framed.markerAt {document result : Json} (framed : Framed document result path) :
    markerAt result path = markerAt document path := by
  unfold Manuscript.markerAt
  cases found : atPath document path with
  | error failure => rw [framed.absent found]
  | ok node =>
    obtain ⟨kept, there, alike⟩ := framed.there found
    rw [there]
    exact alike.lockMarker

theorem childAt_congr (same : left.get? "content" = right.get? "content") (index : Nat) :
    childAt left index = childAt right index := by
  simp [childAt, same]

theorem framed_of_content (same : left.get? "content" = right.get? "content") (index : Nat)
    (path : List Nat) : Framed left right (index :: path) := by
  have equal : atPath right (index :: path) = atPath left (index :: path) := by
    simp [atPath, childAt_congr same]
  exact ⟨fun found => ⟨_, equal.trans found, .refl _⟩, fun missing => equal.trans missing⟩

section
variable {change : Json → Except Failure Json}

/-- What an in-place change does: it runs on the node at the path, and it leaves all
nodes at other paths alike when it keeps the content of the node it changes. -/
theorem updateAt_spec (kept : ∀ {node changed}, change node = .ok changed → changed.get? "content" = node.get? "content")
    (updated : updateAt change path document = .ok result) :
    (∃ node changed, atPath document path = .ok node ∧ change node = .ok changed ∧ atPath result path = .ok changed) ∧
    ∀ other, other ≠ path → Framed document result other := by
  induction path generalizing document result with
  | nil =>
    simp only [updateAt] at updated
    refine ⟨⟨document, result, rfl, updated, rfl⟩, fun other different => ?_⟩
    cases other with
    | nil => exact absurd rfl different
    | cons index rest => exact framed_of_content (kept updated).symm index rest
  | cons index path ih =>
    simp only [updateAt] at updated
    split at updated
    swap
    · cases updated
    rename_i fields
    split at updated
    swap
    · cases updated
    rename_i items content
    split at updated
    · cases updated
    rename_i child there
    split at updated
    · cases updated
    rename_i changed below
    cases updated
    obtain ⟨⟨node, changedNode, found, changing, placed⟩, frame⟩ := ih below
    have bound : index < items.length := (List.getElem?_eq_some_iff.mp there).1
    have before (position : Nat) : childAt (.dict fields) position = items[position]? := by
      simp [childAt, Json.get?, content]
    have after (position : Nat) :
        childAt (.dict (store "content" (.list (items.set index changed)) fields)) position =
          if position = index then some changed else items[position]? := by
      by_cases same : position = index
      · subst same
        simp [childAt, Json.get?, bound]
      · simp [childAt, Json.get?, Ne.symm same, same]
    refine ⟨⟨node, changedNode, ?_, changing, ?_⟩, fun other different => ?_⟩
    · simp [atPath, before, there, found]
    · simp [atPath, after, placed]
    · cases other with
      | nil =>
        refine ⟨fun found => ?_, fun missing => by cases missing⟩
        cases found
        refine ⟨_, rfl, rfl, fun {key} outside => ?_⟩
        simp only [Json.get?]
        exact lookup_store_ne _ _ outside
      | cons position rest =>
        by_cases same : position = index
        · subst same
          have deeper := frame rest (fun equal => different (by rw [equal]))
          constructor
          · intro node found
            simp only [atPath, before, there] at found
            simpa [atPath, after] using deeper.there found
          · intro failure missing
            simp only [atPath, before, there] at missing
            simpa [atPath, after] using deeper.absent missing
        · have equal : atPath (.dict (store "content" (.list (items.set index changed)) fields)) (position :: rest) =
              atPath (.dict fields) (position :: rest) := by
            simp [atPath, before, after, same]
          exact ⟨fun found => ⟨_, equal.trans found, .refl _⟩, fun missing => equal.trans missing⟩

end

/-- A marker that `lock_nodes` finds is not null. -/
theorem lockMarker_ne_null {node : Json} (found : lockMarker node = .ok (some marker)) : marker ≠ .null := by
  unfold lockMarker at found
  repeat' split at found
  all_goals try cases found
  rename_i attrs _ _ _
  have filtered := Except.ok.inj found
  simp only [Option.filter_eq_some_iff, decide_eq_true_eq] at filtered
  exact filtered.2

/-- A row stands for the node at its path below the start, and carries its marker. -/
structure LockRow.Sound (start : List Nat) (document : Json) (row : LockRow) (sub : List Nat) : Prop where
  path : row.path = start ++ sub
  node : atPath document sub = .ok row.node
  marker : lockMarker row.node = .ok (some row.marker)

theorem ownRow_sound (found : ownRow path node = .ok rows) (member : row ∈ rows) : row.Sound path node [] := by
  unfold ownRow at found
  split at found
  · cases found
  · cases found
    cases member
  · rename_i marker marked
    cases found
    cases List.mem_singleton.mp member
    exact ⟨(List.append_nil _).symm, rfl, marked⟩

mutual
theorem visit_sound (path : List Nat) (node : Json) (visited : visit path node = .ok rows) (member : row ∈ rows) :
    ∃ sub, row.Sound path node sub := by
  match node with
  | .dict fields =>
    simp only [visit] at visited
    split at visited
    · rename_i own below ownFound belowFound
      cases visited
      rcases List.mem_append.mp member with here | deeper
      · exact ⟨[], ownRow_sound ownFound here⟩
      · obtain ⟨items, content, index, sub, child, there, same, sound⟩ :=
          visitContent_sound path fields belowFound deeper
        refine ⟨index :: sub, same, ?_, sound.marker⟩
        simp [atPath, childAt, Json.get?, content, there, sound.node]
    · cases visited
    · cases visited
  | .null | .bool _ | .int _ | .float _ | .str _ | .list _ => cases visited

theorem visitContent_sound (path : List Nat) (fields : List (String × Json))
    (visited : visitContent path fields = .ok rows) (member : row ∈ rows) :
    ∃ items, lookup "content" fields = some (.list items) ∧ ∃ index sub child, items[index]? = some child ∧
      row.path = path ++ index :: sub ∧ row.Sound (path ++ [index]) child sub := by
  match fields with
  | [] =>
    cases visited
    cases member
  | (key, value) :: rest =>
    simp only [visitContent] at visited
    split at visited
    · rename_i content
      obtain ⟨items, rfl, index, sub, child, found⟩ := visitChildren_sound path value visited member
      exact ⟨items, by simp [lookup, content], index, sub, child, found⟩
    · rename_i other
      obtain ⟨items, found, index, sub, child, rows⟩ := visitContent_sound path rest visited member
      exact ⟨items, by simp [lookup, other, found], index, sub, child, rows⟩

theorem visitChildren_sound (path : List Nat) (value : Json) (visited : visitChildren path value = .ok rows)
    (member : row ∈ rows) :
    ∃ items, value = .list items ∧ ∃ index sub child, items[index]? = some child ∧
      row.path = path ++ index :: sub ∧ row.Sound (path ++ [index]) child sub := by
  match value with
  | .list items =>
    obtain ⟨index, sub, child, found, same, sound⟩ := visitItems_sound path 0 items visited member
    rw [Nat.zero_add] at same sound
    exact ⟨items, rfl, index, sub, child, found, same, sound⟩
  | .str text | .dict fields =>
    simp only [visitChildren] at visited
    split at visited
    · cases visited
      cases member
    · cases visited
  | .null | .bool _ | .int _ | .float _ => cases visited

theorem visitItems_sound (path : List Nat) (start : Nat) (items : List Json)
    (visited : visitItems path start items = .ok rows) (member : row ∈ rows) :
    ∃ index sub child, items[index]? = some child ∧ row.path = path ++ (start + index) :: sub ∧
      row.Sound (path ++ [start + index]) child sub := by
  match items with
  | [] =>
    cases visited
    cases member
  | child :: rest =>
    simp only [visitItems] at visited
    split at visited
    · rename_i first others firstFound othersFound
      cases visited
      rcases List.mem_append.mp member with here | later
      · obtain ⟨sub, sound⟩ := visit_sound (path ++ [start]) child firstFound here
        exact ⟨0, sub, child, rfl, by simp [sound.path], sound⟩
      · obtain ⟨index, sub, found, there, same, sound⟩ := visitItems_sound path (start + 1) rest othersFound later
        have moved : start + 1 + index = start + (index + 1) := by omega
        rw [moved] at same sound
        exact ⟨index + 1, sub, found, there, same, sound⟩
    · cases visited
    · cases visited
end

/-- Every row of `lock_nodes` is the node at its path, with its marker. -/
theorem lockNodes_sound (found : lockNodes document = .ok rows) (member : row ∈ rows) :
    atPath document row.path = .ok row.node ∧ lockMarker row.node = .ok (some row.marker) := by
  obtain ⟨sub, sound⟩ := visit_sound [] document found member
  rw [sound.path, List.nil_append]
  exact ⟨sound.node, sound.marker⟩

theorem row_of_path (found : lockNodes document = .ok rows) (member : row ∈ rows) (other : row' ∈ rows)
    (same : row.path = row'.path) : row = row' := by
  obtain ⟨node, marker⟩ := lockNodes_sound found member
  obtain ⟨node', marker'⟩ := lockNodes_sound found other
  rw [same, node'] at node
  cases row
  cases row'
  cases node
  cases marker'.symm.trans marker
  cases same
  rfl

end NovelStudio.Manuscript
