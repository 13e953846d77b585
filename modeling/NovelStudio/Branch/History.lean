import NovelStudio.Branch.Effects

/-! The invariant of a branch manuscript: complete linear histories, numbers and orders that
are never shared, and receipts that still name the document they saved. -/

namespace NovelStudio.Branch

open Library Experimental

variable {δ : Type} (documents : Documents δ) (scope : BranchScope)

/-- The document of a chapter at a version: the present one, or the one of its checkpoint. -/
def Chapter.documentAt (row : Chapter δ) (version : Nat) : Option δ :=
  if version = row.version then some row.document else (row.history.find? (·.version = version)).map Checkpoint.document

structure ChapterSound (nextNumber : Nat) (cid : String) (row : Chapter δ) : Prop where
  identity : identityValid scope cid row = true
  /-- One checkpoint for each version before the present one, in order. -/
  versions : row.history.map Checkpoint.version = List.range' 1 (row.version - 1)
  within : ∀ kept ∈ row.history, kept.scope = scope
  digest : row.documentDigest = documents.digest row.document
  number : row.number < nextNumber

structure ReceiptSound (manuscript : Manuscript δ) (operation : String) (receipt : Receipt δ) : Prop where
  scope : receipt.scope = scope
  operation : receipt.operationId = operation
  document : ∃ row saved, manuscript.chapters.get? receipt.chapterId = some row ∧ row.documentAt receipt.afterVersion = some saved ∧
    receipt.documentDigest = documents.digest saved

structure Sound (manuscript : Manuscript δ) : Prop where
  owner : manuscript.owner = OWNER ∧ manuscript.scope = scope
  allocated : 1 ≤ manuscript.nextNumber
  chapters : ∀ {cid row}, manuscript.chapters.get? cid = some row → ChapterSound documents scope manuscript.nextNumber cid row
  numbers : ∀ {cid row cid' row'}, manuscript.chapters.get? cid = some row → manuscript.chapters.get? cid' = some row' →
    row.number = row'.number → cid = cid'
  orders : ∀ {cid row cid' row'}, manuscript.chapters.get? cid = some row → manuscript.chapters.get? cid' = some row' →
    row.deleted = false → row'.deleted = false → row.sortOrder = row'.sortOrder → cid = cid'
  receipts : ∀ {operation receipt}, manuscript.receipts.get? operation = some receipt →
    ReceiptSound documents scope manuscript operation receipt

/-- What later manuscripts keep of a chapter. -/
structure Continues (row later : Chapter δ) : Prop where
  number : later.number = row.number
  version : row.version ≤ later.version
  documents : ∀ {version document}, row.documentAt version = some document → later.documentAt version = some document
  deleted : row.deleted = true → later = row

/-- What later manuscripts keep: every chapter goes on, and every receipt stays. -/
structure Extends (manuscript later : Manuscript δ) : Prop where
  chapters : ∀ {cid row}, manuscript.chapters.get? cid = some row → ∃ next, later.chapters.get? cid = some next ∧ Continues row next
  receipts : ∀ {operation receipt}, manuscript.receipts.get? operation = some receipt → later.receipts.get? operation = some receipt

variable {documents scope} {manuscript next : Manuscript δ}

theorem Continues.refl (row : Chapter δ) : Continues row row := ⟨rfl, le_refl _, id, fun _ => rfl⟩

variable {row : Chapter δ}

theorem Continues.trans {mid later : Chapter δ} (first : Continues row mid) (second : Continues mid later) : Continues row later where
  number := second.number.trans first.number
  version := first.version.trans second.version
  documents found := second.documents (first.documents found)
  deleted gone := by
    cases first.deleted gone
    exact second.deleted gone

theorem Extends.refl (manuscript : Manuscript δ) : Extends manuscript manuscript :=
  ⟨fun found => ⟨_, found, .refl _⟩, id⟩

theorem Extends.trans {manuscript mid later : Manuscript δ} (first : Extends manuscript mid) (second : Extends mid later) :
    Extends manuscript later where
  chapters found := by
    obtain ⟨_, there, one⟩ := first.chapters found
    obtain ⟨last, found, two⟩ := second.chapters there
    exact ⟨last, found, one.trans two⟩
  receipts found := second.receipts (first.receipts found)

theorem find_checkpoint (versions : row.history.map Checkpoint.version = List.range' 1 (row.version - 1))
    (found : row.history.find? (·.version = version) = some kept) : version < row.version := by
  have member : kept.version ∈ row.history.map Checkpoint.version := List.mem_map.mpr ⟨kept, List.mem_of_find?_eq_some found, rfl⟩
  have same : kept.version = version := by simpa using List.find?_some found
  rw [versions, List.mem_range'_1, same] at member
  omega

theorem Advance.continues {changed : Chapter δ} (advance : Advance documents row changed)
    (versions : row.history.map Checkpoint.version = List.range' 1 (row.version - 1)) (kept : row.deleted = false) :
    Continues row changed where
  number := advance.number
  version := by
    rw [advance.version]
    exact Nat.le_succ _
  documents {version document} found := by
    obtain ⟨entry, history, at', same, _⟩ := advance.history
    unfold Chapter.documentAt at found ⊢
    rw [advance.version, history, List.find?_append]
    split at found
    · rename_i here
      have later : ¬ version = row.version + 1 := by omega
      have before : row.history.find? (·.version = version) = none := by
        cases earlier : row.history.find? (·.version = version) with
        | none => rfl
        | some kept =>
          have := find_checkpoint versions earlier
          omega
      rw [if_neg later, before]
      simp [at', here, same, ← found]
    · obtain ⟨kept, earlier, rfl⟩ := Option.map_eq_some_iff.mp found
      have := find_checkpoint versions earlier
      rw [if_neg (by omega), earlier]
      rfl
  deleted gone := by
    rw [kept] at gone
    cases gone

theorem Advance.sound {changed : Chapter δ} {nextNumber : Nat} (advance : Advance documents row changed)
    (sound : ChapterSound documents scope nextNumber cid row) : ChapterSound documents scope nextNumber cid changed := by
  obtain ⟨entry, history, at', _, where'⟩ := advance.history
  have identity := sound.identity
  simp only [identityValid, Bool.and_eq_true, decide_eq_true_eq] at identity
  obtain ⟨⟨⟨⟨⟨⟨⟨id, uuid⟩, inScope⟩, novel⟩, branch⟩, version⟩, number⟩, authority⟩ := identity
  refine ⟨?_, ?_, ?_, advance.digest sound.digest, ?_⟩
  · simp only [identityValid, advance.id, advance.scope, advance.novelId, advance.branchId, advance.version, advance.number,
      advance.authority, Bool.and_eq_true, decide_eq_true_eq]
    exact ⟨⟨⟨⟨⟨⟨⟨id, uuid⟩, inScope⟩, novel⟩, branch⟩, Nat.le_add_left ..⟩, number⟩, authority⟩
  · have one := @List.range'_1_concat 1 (row.version - 1)
    rw [Nat.sub_add_cancel version] at one
    rw [history, List.map_append, sound.versions, advance.version, Nat.add_sub_cancel, one, List.map_singleton, at',
      Nat.add_sub_cancel' version]
  · intro kept member
    rw [history] at member
    rcases List.mem_append.mp member with member | member
    · exact sound.within kept member
    · rw [List.mem_singleton.mp member, where']
      exact inScope
  · rw [advance.number]
    exact sound.number

theorem isBranchChapterId_chapterId (scope : BranchScope) (token : Uuid) :
    isBranchChapterId scope.novelId (chapterId scope.novelId token.text) = true := by
  have whole : (chapterId scope.novelId token.text).toList = (scope.novelId ++ ":~b").toList ++ token.text.toList := by
    simp [chapterId]
  simp only [isBranchChapterId, whole, Bool.and_eq_true, decide_eq_true_eq, List.drop_left]
  exact ⟨⟨scope.named.1, List.isPrefixOf_iff_prefix.mpr (List.prefix_append ..)⟩, token.canonical⟩

theorem le_foldl_max (orders : List Nat) (first : Nat) : first ≤ orders.foldl max first ∧ ∀ order ∈ orders, order ≤ orders.foldl max first := by
  induction orders generalizing first with
  | nil => simp
  | cons next rest ih =>
    obtain ⟨start, others⟩ := ih (max first next)
    rw [List.foldl_cons]
    refine ⟨(le_max_left ..).trans start, fun order member => ?_⟩
    rcases List.mem_cons.mp member with rfl | member
    · exact (le_max_right ..).trans start
    · exact others order member

theorem sortOrder_lt_nextOrder (found : manuscript.chapters.get? cid = some row) : row.sortOrder < nextOrder manuscript :=
  Nat.lt_succ_of_le ((le_foldl_max _ 0).2 _ (List.mem_map.mpr ⟨row, Dict.mem_values_iff.mpr ⟨cid, found⟩, rfl⟩))

theorem Created.sound (made : Created documents scope manuscript cid row) (allocated : 1 ≤ manuscript.nextNumber) :
    ChapterSound documents scope (manuscript.nextNumber + 1) cid row := by
  obtain ⟨token, rfl⟩ := made.id
  obtain ⟨id, novel, inScope, branch, authority⟩ := made.named
  refine ⟨?_, ?_, ?_, made.digest, ?_⟩
  · simp [identityValid, id, novel, inScope, branch, authority, made.version, made.number, allocated, isBranchChapterId_chapterId]
  · simp [made.history, made.version]
  · simp [made.history]
  · rw [made.number]
    exact Nat.lt_succ_self _

theorem Sound.named (sound : Sound documents scope manuscript) (found : manuscript.chapters.get? cid = some row) : row.id = cid := by
  have identity := (sound.chapters found).identity
  simp only [identityValid, Bool.and_eq_true, decide_eq_true_eq] at identity
  exact identity.1.1.1.1.1.1.1

theorem mem_order (sound : Sound documents scope manuscript) :
    cid ∈ order manuscript ↔ ∃ row, manuscript.chapters.get? cid = some row ∧ row.deleted = false := by
  simp only [order, List.mem_map, List.mem_insertionSort, List.mem_filter, Dict.mem_values_iff, Bool.not_eq_eq_eq_not, Bool.not_true]
  constructor
  · rintro ⟨row, ⟨⟨key, found⟩, kept⟩, named⟩
    cases (sound.named found).symm.trans named
    exact ⟨row, found, kept⟩
  · rintro ⟨row, found, kept⟩
    exact ⟨row, ⟨⟨cid, found⟩, kept⟩, sound.named found⟩

theorem renumbered_get? (places : List String) (chapters : Dict String (Chapter δ)) (cid : String) :
    (renumbered places chapters).get? cid =
      (chapters.get? cid).map fun row => if cid ∈ places then { row with sortOrder := places.idxOf cid + 1 } else row := by
  simp [renumbered]

theorem renumbered_some {places : List String} {chapters : Dict String (Chapter δ)} (found : (renumbered places chapters).get? cid = some row) :
    ∃ before, chapters.get? cid = some before ∧ row = { before with sortOrder := row.sortOrder } ∧
      (cid ∈ places → row.sortOrder = places.idxOf cid + 1) := by
  rw [renumbered_get?] at found
  obtain ⟨before, there, rfl⟩ := Option.map_eq_some_iff.mp found
  refine ⟨before, there, ?_⟩
  by_cases inside : cid ∈ places <;> simp [inside]

theorem ChapterSound.moved (sound : ChapterSound documents scope nextNumber cid row) (place : Nat) :
    ChapterSound documents scope nextNumber cid { row with sortOrder := place } :=
  ⟨sound.identity, sound.versions, sound.within, sound.digest, sound.number⟩

theorem ChapterSound.later {number later : Nat} (sound : ChapterSound documents scope number cid row)
    (le : number ≤ later) : ChapterSound documents scope later cid row :=
  ⟨sound.identity, sound.versions, sound.within, sound.digest, sound.number.trans_le le⟩

theorem Continues.moved (row : Chapter δ) (place : Nat) (kept : row.deleted = false) : Continues row { row with sortOrder := place } where
  number := rfl
  version := le_refl _
  documents := id
  deleted gone := by
    rw [kept] at gone
    cases gone

theorem Effect.chapters_extend (sound : Sound documents scope manuscript) (effect : Effect documents scope manuscript next)
    (found : manuscript.chapters.get? cid = some row) :
    ∃ later, next.chapters.get? cid = some later ∧ Continues row later ∧ later.version ≤ row.version + 1 := by
  cases effect with
  | same => exact ⟨row, found, .refl row, Nat.le_succ _⟩
  | @created new made _ fresh chapters _ _ =>
    refine ⟨row, ?_, .refl row, Nat.le_succ _⟩
    rw [chapters, Dict.get?_set_ne, found]
    rintro rfl
    rw [fresh.absent] at found
    cases found
  | @advanced changedId before changed _ there kept advance chapters _ _ =>
    by_cases here : cid = changedId
    · subst here
      cases found.symm.trans there
      exact ⟨changed, by rw [chapters, Dict.get?_set_self], advance.continues (sound.chapters found).versions kept, advance.version.le⟩
    · exact ⟨row, by rw [chapters, Dict.get?_set_ne _ _ here, found], .refl row, Nat.le_succ _⟩
  | @moved places _ perm chapters _ _ =>
    rw [chapters, renumbered_get?, found]
    by_cases inside : cid ∈ places
    · obtain ⟨row', found', kept⟩ := (mem_order sound).mp (perm.mem_iff.mp inside)
      cases found.symm.trans found'
      exact ⟨{ row with sortOrder := places.idxOf cid + 1 }, by simp [inside], .moved row _ kept, Nat.le_succ _⟩
    · exact ⟨row, by simp [inside], .refl row, Nat.le_succ _⟩

theorem Effect.receipts_cases (effect : Effect documents scope manuscript next) : next.receipts = manuscript.receipts ∨
    ∃ request operation changed, next.chapters.get? request.chapterId = some changed ∧ manuscript.receipts.get? operation = none ∧
      next.receipts = manuscript.receipts.set operation (receiptOf documents scope request changed operation) := by
  cases effect with
  | same => exact .inl rfl
  | created _ _ _ receipts => exact .inl receipts
  | moved _ _ _ receipts => exact .inl receipts
  | advanced there kept advance chapters fields receipts =>
    rcases receipts with same | ⟨request, operation, rfl, absent, added⟩
    · exact .inl same
    · exact .inr ⟨request, operation, _, by rw [chapters, Dict.get?_set_self], absent, added⟩

theorem Effect.extends (sound : Sound documents scope manuscript) (effect : Effect documents scope manuscript next) :
    Extends manuscript next where
  chapters found := by
    obtain ⟨later, there, continues, _⟩ := effect.chapters_extend sound found
    exact ⟨later, there, continues⟩
  receipts {operation receipt} found := by
    rcases effect.receipts_cases with same | ⟨request, added, changed, _, absent, receipts⟩
    · rw [same, found]
    · rw [receipts, Dict.get?_set_ne, found]
      rintro rfl
      rw [absent] at found
      cases found

theorem Effect.sound_chapters (sound : Sound documents scope manuscript) (effect : Effect documents scope manuscript next)
    (found : next.chapters.get? cid = some row) : ChapterSound documents scope next.nextNumber cid row := by
  cases effect with
  | same => exact sound.chapters found
  | @created new made _ fresh chapters fields _ =>
    rw [fields.2.2]
    rw [chapters, Dict.get?_set] at found
    split at found
    · rename_i here
      cases found
      exact here ▸ fresh.sound sound.allocated
    · exact (sound.chapters found).later (Nat.le_succ _)
  | @advanced changedId before changed _ there kept advance chapters fields _ =>
    rw [fields.2.2]
    rw [chapters, Dict.get?_set] at found
    split at found
    · rename_i here
      cases found
      exact here ▸ advance.sound (sound.chapters there)
    · exact sound.chapters found
  | moved perm chapters fields _ =>
    rw [fields.2.2]
    rw [chapters] at found
    obtain ⟨before, there, same, _⟩ := renumbered_some found
    rw [same]
    exact (sound.chapters there).moved _

theorem Effect.sound_numbers (sound : Sound documents scope manuscript) (effect : Effect documents scope manuscript next)
    (found : next.chapters.get? cid = some row) (found' : next.chapters.get? cid' = some row') (same : row.number = row'.number) :
    cid = cid' := by
  cases effect with
  | same => exact sound.numbers found found' same
  | @created new made _ fresh chapters fields _ =>
    rw [chapters, Dict.get?_set] at found found'
    split at found <;> split at found'
    · rename_i here there
      exact here.trans there.symm
    · cases found
      have := (sound.chapters found').number
      rw [fresh.number] at same
      omega
    · cases found'
      have := (sound.chapters found).number
      rw [fresh.number] at same
      omega
    · exact sound.numbers found found' same
  | @advanced changedId before changed _ there kept advance chapters fields _ =>
    rw [chapters, Dict.get?_set] at found found'
    split at found <;> split at found'
    · rename_i here there
      exact here.trans there.symm
    · rename_i here _
      cases found
      exact here ▸ sound.numbers there found' (advance.number.symm.trans same)
    · rename_i _ here
      cases found'
      exact here ▸ sound.numbers found there (same.trans advance.number)
    · exact sound.numbers found found' same
  | moved perm chapters fields _ =>
    rw [chapters] at found found'
    obtain ⟨before, there, own, _⟩ := renumbered_some found
    obtain ⟨before', there', own', _⟩ := renumbered_some found'
    rw [own, own'] at same
    exact sound.numbers there there' same

theorem Effect.sound_orders (sound : Sound documents scope manuscript) (effect : Effect documents scope manuscript next)
    (found : next.chapters.get? cid = some row) (found' : next.chapters.get? cid' = some row') (kept : row.deleted = false)
    (kept' : row'.deleted = false) (same : row.sortOrder = row'.sortOrder) : cid = cid' := by
  cases effect with
  | same => exact sound.orders found found' kept kept' same
  | @created new made _ fresh chapters fields _ =>
    rw [chapters, Dict.get?_set] at found found'
    split at found <;> split at found'
    · rename_i here there
      exact here.trans there.symm
    · cases found
      have := sortOrder_lt_nextOrder found'
      rw [fresh.sortOrder] at same
      omega
    · cases found'
      have := sortOrder_lt_nextOrder found
      rw [fresh.sortOrder] at same
      omega
    · exact sound.orders found found' kept kept' same
  | @advanced changedId before changed _ there live advance chapters fields _ =>
    rw [chapters, Dict.get?_set] at found found'
    split at found <;> split at found'
    · rename_i here there
      exact here.trans there.symm
    · rename_i here _
      cases found
      exact here ▸ sound.orders there found' live kept' (advance.sortOrder.symm.trans same)
    · rename_i _ here
      cases found'
      exact here ▸ sound.orders found there kept live (same.trans advance.sortOrder)
    · exact sound.orders found found' kept kept' same
  | @moved places _ perm chapters fields _ =>
    rw [chapters] at found found'
    obtain ⟨before, there, own, place⟩ := renumbered_some found
    obtain ⟨before', there', own', place'⟩ := renumbered_some found'
    rw [own] at kept
    rw [own'] at kept'
    have inside := perm.mem_iff.mpr ((mem_order sound).mpr ⟨before, there, kept⟩)
    have inside' := perm.mem_iff.mpr ((mem_order sound).mpr ⟨before', there', kept'⟩)
    rw [place inside, place' inside'] at same
    exact (List.idxOf_inj inside).mp (Nat.succ.inj same)

theorem Effect.sound_receipts (sound : Sound documents scope manuscript) (effect : Effect documents scope manuscript next)
    (found : next.receipts.get? operation = some receipt) : ReceiptSound documents scope next operation receipt := by
  have old : manuscript.receipts.get? operation = some receipt → ReceiptSound documents scope next operation receipt := by
    intro found
    obtain ⟨inScope, named, row, saved, there, at', digest⟩ := sound.receipts found
    obtain ⟨later, there', continues, _⟩ := effect.chapters_extend sound there
    exact ⟨inScope, named, later, saved, there', continues.documents at', digest⟩
  rcases effect.receipts_cases with same | ⟨request, added, changed, there, absent, receipts⟩
  · exact old (same ▸ found)
  · rw [receipts, Dict.get?_set] at found
    split at found
    · rename_i here
      cases found
      subst here
      exact ⟨rfl, rfl, changed, changed.document, there, by simp [Chapter.documentAt, receiptOf],
        (effect.sound_chapters sound there).digest⟩
    · exact old found

theorem Effect.sound (sound : Sound documents scope manuscript) (effect : Effect documents scope manuscript next) :
    Sound documents scope next where
  owner := by
    cases effect with
    | same => exact sound.owner
    | created _ _ fields _ => exact ⟨fields.1.trans sound.owner.1, fields.2.1.trans sound.owner.2⟩
    | advanced _ _ _ _ fields _ => exact ⟨fields.1.trans sound.owner.1, fields.2.1.trans sound.owner.2⟩
    | moved _ _ fields _ => exact ⟨fields.1.trans sound.owner.1, fields.2.1.trans sound.owner.2⟩
  allocated := by
    have allocated := sound.allocated
    cases effect with
    | same => exact allocated
    | created _ _ fields _ => exact fields.2.2 ▸ Nat.le_succ_of_le allocated
    | advanced _ _ _ _ fields _ => exact fields.2.2 ▸ allocated
    | moved _ _ fields _ => exact fields.2.2 ▸ allocated
  chapters := effect.sound_chapters sound
  numbers := effect.sound_numbers sound
  orders := effect.sound_orders sound
  receipts := effect.sound_receipts sound

end NovelStudio.Branch
