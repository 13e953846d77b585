import Mathlib.Data.List.Dedup
import NovelStudio.Sync.AtMostOnce

/-! What holds of the selection of a channel: its chapters, their baseline, the bindings of the peer's chapters, and what was withdrawn. -/

namespace NovelStudio.Sync

open Library Experimental

/-- The invariant of the selection. That what was withdrawn is in the baseline is what keeps a chapter that is created out of it. -/
structure Selection (channel : Channel) : Prop where
  injective : ∀ (source other : String) (binding binding' : Binding), channel.bindings.get? source = some binding →
    channel.bindings.get? other = some binding' → binding.chapterId = binding'.chapterId → source = other
  bound : ∀ (source : String) (binding : Binding), channel.bindings.get? source = some binding → binding.chapterId ∈ channel.baseline.keys
  distinct : channel.chapterIds.Nodup
  selected : ∀ cid ∈ channel.chapterIds, cid ∈ channel.baseline.keys
  limit : channel.baseline.keys.length ≤ 20
  disjoint : ∀ cid ∈ channel.withdrawnChapterIds, cid ∉ channel.chapterIds
  withdrawn : ∀ cid ∈ channel.withdrawnChapterIds, cid ∈ channel.baseline.keys

structure ChannelStep (channel next : Channel) : Prop where
  selection : Selection channel → Selection next
  withdrawn : ∀ cid ∈ channel.withdrawnChapterIds, cid ∈ next.withdrawnChapterIds

namespace ChannelStep
variable {channel middle next : Channel}

theorem frame (bindings : next.bindings = channel.bindings) (chapters : next.chapterIds = channel.chapterIds)
    (baseline : next.baseline = channel.baseline) (withdrawn : next.withdrawnChapterIds = channel.withdrawnChapterIds) :
    ChannelStep channel next := by
  constructor
  · intro sound
    constructor
    · rw [bindings]
      exact sound.injective
    · rw [bindings, baseline]
      exact sound.bound
    · rw [chapters]
      exact sound.distinct
    · rw [chapters, baseline]
      exact sound.selected
    · rw [baseline]
      exact sound.limit
    · rw [withdrawn, chapters]
      exact sound.disjoint
    · rw [withdrawn, baseline]
      exact sound.withdrawn
  · rw [withdrawn]
    exact fun _ member => member

theorem bind {remote : String} {binding : Binding} (unbound : ∀ (other : String) (old : Binding),
    channel.bindings.get? other = some old → old.chapterId ≠ binding.chapterId) (there : binding.chapterId ∈ channel.baseline.keys)
    (bindings : next.bindings = channel.bindings.set remote binding) (chapters : next.chapterIds = channel.chapterIds)
    (baseline : next.baseline = channel.baseline) (withdrawn : next.withdrawnChapterIds = channel.withdrawnChapterIds) :
    ChannelStep channel next := by
  constructor
  · intro sound
    constructor
    · intro source other one two found found' same
      rw [bindings, Dict.get?_set] at found found'
      split at found
      · rename_i here
        split at found'
        · rename_i here'
          exact here.trans here'.symm
        · obtain rfl := Option.some.inj found
          exact absurd same.symm (unbound other two found')
      · split at found'
        · obtain rfl := Option.some.inj found'
          exact absurd same (unbound source one found)
        · exact sound.injective source other one two found found' same
    · intro source one found
      rw [baseline]
      rw [bindings, Dict.get?_set] at found
      split at found
      · obtain rfl := Option.some.inj found
        exact there
      · exact sound.bound source one found
    · rw [chapters]
      exact sound.distinct
    · rw [chapters, baseline]
      exact sound.selected
    · rw [baseline]
      exact sound.limit
    · rw [withdrawn, chapters]
      exact sound.disjoint
    · rw [withdrawn, baseline]
      exact sound.withdrawn
  · rw [withdrawn]
    exact fun _ member => member

theorem create {cid : String} {base : Snapshot} (absent : cid ∉ channel.baseline.keys) (room : channel.baseline.keys.length < 20)
    (bindings : next.bindings = channel.bindings) (chapters : next.chapterIds = channel.chapterIds ++ [cid])
    (baseline : next.baseline = channel.baseline.set cid base) (withdrawn : next.withdrawnChapterIds = channel.withdrawnChapterIds) :
    ChannelStep channel next := by
  have kept : ∀ other ∈ channel.baseline.keys, other ∈ next.baseline.keys := by
    intro other member
    rw [baseline, Dict.mem_keys_set]
    exact .inr member
  constructor
  · intro sound
    constructor
    · rw [bindings]
      exact sound.injective
    · intro source binding found
      rw [bindings] at found
      exact kept _ (sound.bound source binding found)
    · rw [chapters]
      refine List.nodup_append.mpr ⟨sound.distinct, List.nodup_singleton cid, ?_⟩
      intro one member other single same
      rw [List.mem_singleton.mp single] at same
      exact absent (same ▸ sound.selected one member)
    · intro other member
      rw [chapters, List.mem_append] at member
      rcases member with member | member
      · exact kept other (sound.selected other member)
      · rw [baseline, Dict.mem_keys_set]
        exact .inl (List.mem_singleton.mp member)
    · rw [baseline, Dict.keys_set, if_neg absent, List.length_append]
      exact room
    · intro other member
      rw [withdrawn] at member
      rw [chapters, List.mem_append, List.mem_singleton, not_or]
      refine ⟨sound.disjoint other member, ?_⟩
      intro same
      exact absent (same ▸ sound.withdrawn other member)
    · intro other member
      rw [withdrawn] at member
      exact kept other (sound.withdrawn other member)
  · rw [withdrawn]
    exact fun _ member => member

end ChannelStep

abbrev ChannelsStep := RowsStep (fun row next : Row Channel => ChannelStep row.data next.data) fun next => Selection next.data

theorem readChapter_id {chapter : Chapter} (read : readChapter outside caller book cid = .ok chapter) : chapter.id = cid := by
  simp only [readChapter, bind_ok, pure_ok] at read
  obtain ⟨_, _, row, _, snapshot, _, rfl⟩ := read
  rfl

theorem baseline_opened {chapterIds : List String} {baseline : Dict String Snapshot}
    (read : chapterIds.foldlM (fun (baseline : Dict String Snapshot) cid => do
      let chapter ← readChapter outside caller book cid
      reject chapter.archived (.value "SYNC_ARCHIVED_SOURCE_UNAVAILABLE")
      return baseline.set cid chapter.snapshot) ∅ = .ok baseline) :
    (∀ cid ∈ chapterIds, cid ∈ baseline.keys) ∧ baseline.keys.length ≤ chapterIds.length := by
  refine foldlM_invariant (motive := fun before (baseline : Dict String Snapshot) =>
    (∀ cid ∈ before, cid ∈ baseline.keys) ∧ baseline.keys.length ≤ before.length) ?_ ⟨nofun, le_refl _⟩ read
  intro before cid state next _ known turned
  simp only [bind_ok, pure_ok] at turned
  obtain ⟨chapter, _, _, _, rfl⟩ := turned
  constructor
  · intro other member
    rw [Dict.mem_keys_set]
    rcases List.mem_append.mp member with member | member
    · exact .inr (known.1 other member)
    · exact .inl (List.mem_singleton.mp member)
  · rw [Dict.keys_set, List.length_append, List.length_singleton]
    split
    · exact known.2.trans (Nat.le_succ _)
    · rw [List.length_append, List.length_singleton]
      exact Nat.succ_le_succ known.2

variable {store : Store}

theorem openChannel_channels (unused : fresh ∉ store.channels.keys)
    (done : openChannel outside caller value reauthorize fresh book store = .ok (next, row)) :
    ChannelsStep store.channels next.channels := by
  simp only [openChannel, bind_ok, pure_ok, reject_ok, Prod.mk.injEq] at done
  obtain ⟨_, _, _, pair, _, _, baseline, read, _, _, _, _, _, _, _, _, _, _, rfl, _⟩ := done
  obtain ⟨selected, length⟩ := baseline_opened read
  have distinct : value.chapterIds.Nodup := by
    simp only [Bool.or_eq_false_iff, Bool.not_eq_false', decide_eq_true_eq] at pair
    exact pair.2
  refine (RowsStep.refl store.channels).insert (Dict.get?_eq_none_iff.mpr unused) ?_
  constructor
  · exact nofun
  · exact nofun
  · exact distinct
  · exact selected
  · exact length.trans value.bounded
  · exact nofun
  · exact nofun

theorem revoke_channels (done : revoke caller rid version reauthorize seen store = .ok (next, row)) :
    ChannelsStep store.channels next.channels := by
  simp only [revoke, bind_ok, discard_ok, pure_ok, stored_ok, advance_ok, Prod.mk.injEq] at done
  obtain ⟨_, _, _, _, channel, found, changed, ⟨_, rfl⟩, _, _, rfl, _⟩ := done
  exact .set found (.frame rfl rfl rfl rfl)

theorem queue_channels
    (done : queue outside caller rid value reauthorize fresh seen store book = .ok (next, row)) :
    ChannelsStep store.channels next.channels := by
  simp only [queue, bind_ok, stored_ok] at done
  obtain ⟨_, _, _, _, current, _, _, _, _, _, channel, found, _, _, done⟩ := done
  split at done
  · simp only [bind_ok, pure_ok, Prod.mk.injEq] at done
    obtain ⟨_, _, rfl, _⟩ := done
    exact .refl _
  · simp only [bind_ok, pure_ok, advance_ok, Prod.mk.injEq] at done
    obtain ⟨_, _, _, _, _, _, _, _, again, _, _, _, base, _, changed, ⟨_, rfl⟩, _, _, _, _, rfl, _⟩ := done
    exact .set found (.frame rfl rfl rfl rfl)

theorem readChapters_ids {cids : List String} {chapters : List Chapter} (read : cids.mapM (readChapter outside caller book) = .ok chapters) :
    chapters.map Chapter.id = cids := by
  induction cids generalizing chapters with
  | nil =>
    rw [List.mapM_nil, pure_ok] at read
    rw [← read]
    rfl
  | cons cid rest ih =>
    simp only [List.mapM_cons, bind_ok, pure_ok] at read
    obtain ⟨chapter, here, later, read, rfl⟩ := read
    rw [List.map_cons, readChapter_id here, ih read]

theorem selectionPlan_ok (done : selectionPlan outside caller rid channel value view = .ok (additions, digest)) :
    additions.map Chapter.id = value.addChapterIds ∧ value.addChapterIds.Nodup ∧
    (∀ cid ∈ value.addChapterIds, cid ∉ value.withdrawChapterIds ∧ cid ∉ channel.data.withdrawnChapterIds ∧ cid ∉ channel.data.baseline.keys) ∧
    (∀ cid ∈ value.withdrawChapterIds, cid ∈ channel.data.chapterIds) ∧
    channel.data.baseline.keys.length + value.addChapterIds.length ≤ 20 := by
  simp only [selectionPlan, bind_ok, pure_ok, reject_ok, Prod.mk.injEq] at done
  obtain ⟨_, _, _, change, _, chosen, _, unrevoked, _, unregistered, _, room, chapters, read, _, _, rfl, _⟩ := done
  simp only [Bool.or_eq_false_iff, Bool.not_eq_false', decide_eq_true_eq, List.any_eq_false] at change
  simp only [List.any_eq_false, decide_eq_true_eq] at chosen unrevoked unregistered
  refine ⟨readChapters_ids read, change.1.1.2, ?_, ?_, ?_⟩
  · intro cid member
    exact ⟨change.2 cid member, unrevoked cid member, unregistered cid member⟩
  · intro cid member
    exact not_not.mp (chosen cid member)
  · rw [decide_eq_false_iff_not, not_lt, Dict.values, List.length_map, Dict.length_entries] at room
    omega

theorem mem_sortedUnion {left right : List String} {text : String} : text ∈ sortedUnion left right ↔ text ∈ left ∨ text ∈ right := by
  rw [sortedUnion, List.mem_mergeSort, List.mem_dedup, List.mem_append]

theorem baseline_added (additions : List Chapter) (baseline : Dict String Snapshot) :
    (∀ cid, cid ∈ (additions.foldl (fun baseline chapter => baseline.set chapter.id chapter.snapshot) baseline).keys ↔
      cid ∈ additions.map Chapter.id ∨ cid ∈ baseline.keys) ∧
    (additions.foldl (fun baseline chapter => baseline.set chapter.id chapter.snapshot) baseline).keys.length ≤
      baseline.keys.length + additions.length := by
  induction additions generalizing baseline with
  | nil => simp
  | cons chapter rest ih =>
    obtain ⟨keys, length⟩ := ih (baseline.set chapter.id chapter.snapshot)
    constructor
    · intro cid
      rw [List.foldl_cons, keys, Dict.mem_keys_set, List.map_cons, List.mem_cons]
      tauto
    · rw [List.foldl_cons, List.length_cons]
      refine length.trans ?_
      rw [Dict.keys_set]
      split
      · omega
      · rw [List.length_append, List.length_singleton]
        omega

theorem changeSelected_step {channel : Row Channel} (done : selectionPlan outside caller rid channel value view = .ok (additions, digest)) (remoteIds : List String) :
    ChannelStep channel.data (changeSelected channel.data value remoteIds additions) := by
  obtain ⟨ids, added, apart, withdrawn, room⟩ := selectionPlan_ok done
  obtain ⟨keys, length⟩ := baseline_added additions channel.data.baseline
  rw [ids] at keys
  constructor
  · intro sound
    constructor
    · exact sound.injective
    · intro source binding found
      exact (keys _).mpr (.inr (sound.bound source binding found))
    · refine List.nodup_append.mpr ⟨sound.distinct.filter _, added, ?_⟩
      intro one member other new same
      subst same
      exact (apart one new).2.2 (sound.selected one (List.mem_of_mem_filter member))
    · intro cid member
      rw [changeSelected, List.mem_append] at member
      rcases member with member | member
      · exact (keys cid).mpr (.inr (sound.selected cid (List.mem_of_mem_filter member)))
      · exact (keys cid).mpr (.inl member)
    · have same : additions.length = value.addChapterIds.length := by rw [← ids, List.length_map]
      exact length.trans (same ▸ room)
    · intro cid gone selected
      rw [changeSelected, mem_sortedUnion] at gone
      rw [changeSelected, List.mem_append, List.mem_filter, decide_eq_true_eq] at selected
      rcases selected with ⟨selected, kept⟩ | new
      · rcases gone with gone | gone
        · exact sound.disjoint cid gone selected
        · exact kept gone
      · rcases gone with gone | gone
        · exact (apart cid new).2.1 gone
        · exact (apart cid new).1 gone
    · intro cid gone
      rw [changeSelected, mem_sortedUnion] at gone
      rcases gone with gone | gone
      · exact (keys cid).mpr (.inr (sound.withdrawn cid gone))
      · exact (keys cid).mpr (.inr (sound.selected cid (withdrawn cid gone)))
  · intro cid gone
    exact mem_sortedUnion.mpr (.inl gone)

theorem changeSelection_channels
    (done : changeSelection outside caller rid value digest reauthorize seen store book = .ok (next, row)) :
    ChannelsStep store.channels next.channels := by
  simp only [changeSelection, bind_ok, discard_ok, pure_ok, stored_ok, advance_ok, Prod.mk.injEq] at done
  obtain ⟨_, _, _, _, channel, found, _, _, plan, planned, _, _, changed, ⟨_, rfl⟩, _, _, _, _, rfl, _⟩ := done
  exact .set found (changeSelected_step planned _)

theorem chooseTarget_binding {channel : Channel} {binding : Binding}
    (done : chooseTarget outside caller rid channel value envelope store book = .ok (target, some binding)) :
    binding.chapterId ∈ channel.baseline.keys ∧
    ∀ (other : String) (old : Binding), channel.bindings.get? other = some old → old.chapterId ≠ binding.chapterId := by
  simp only [chooseTarget] at done
  split at done
  · simp only [bind_ok, pure_ok, Prod.mk.injEq, reduceCtorEq, and_false, exists_false] at done
  · split at done
    · simp only [bind_ok, pure_ok, Prod.mk.injEq, reduceCtorEq, and_false, exists_false] at done
    · simp only [bind_ok, pure_ok, fetch_ok, reject_ok, Prod.mk.injEq, Option.some.injEq] at done
      obtain ⟨_, _, cid, _, base, there, _, _, _, _, _, unbound, _, rfl⟩ := done
      refine ⟨Dict.mem_keys_iff.mpr ⟨base, there⟩, ?_⟩
      intro other old found same
      have checked := List.any_eq_false.mp unbound old (Dict.mem_values_iff.mpr ⟨other, found⟩)
      exact checked (decide_eq_true same)

theorem receive_channels
    (done : receive outside caller rid value reauthorize seen store book = .ok (next, received)) :
    ChannelsStep store.channels next.channels := by
  simp only [receive, bind_ok, stored_ok] at done
  obtain ⟨_, _, envelope, checked, _, _, channel, found, _, _, done⟩ := done
  split at done
  · simp only [bind_ok, pure_ok, Prod.mk.injEq] at done
    obtain ⟨_, _, _, _, rfl, rfl⟩ := done
    exact .refl _
  · simp only [bind_ok, pure_ok, reject_ok, advance_ok, Prod.mk.injEq] at done
    obtain ⟨_, _, _, _, _, _, _, _, _, _, ⟨target, binding⟩, chosen, changed, ⟨_, rfl⟩, _, _, _, _, rfl, rfl⟩ := done
    cases binding with
    | none => exact RowsStep.set found (.frame rfl rfl rfl rfl)
    | some binding =>
      obtain ⟨there, unbound⟩ := chooseTarget_binding chosen
      exact RowsStep.set found (.bind unbound there rfl rfl rfl rfl)

theorem finishRow_channels {row : Row InboxRow}
    (done : finishRow outside caller store mid cid row version confirmed expected reauthorize first book = .ok (next, result)) :
    ChannelsStep store.channels next.channels := by
  simp only [finishRow, bind_ok, pure_ok, stored_ok, Prod.mk.injEq] at done
  obtain ⟨channel, found, _, _, _, _, _, _, actual, _, _, _, _, _, channels, made, _, _, _, _, rfl, _⟩ := done
  unfold selectCreated at made
  split at made
  · obtain rfl := pure_ok.mp made
    exact .refl _
  · simp only [bind_ok, pure_ok, reject_ok, Bool.or_eq_false_iff, decide_eq_false_iff_not] at made
    obtain ⟨_, ⟨⟨absent, _⟩, room⟩, rfl⟩ := made
    rw [not_le, Dict.values, List.length_map, Dict.length_entries] at room
    refine .set found ?_
    -- the chapter joins the selection, and then it is bound
    let created : Channel := { channel.data with
      chapterIds := channel.data.chapterIds ++ [cid], baseline := channel.data.baseline.set cid row.data.envelope.base }
    have joins : ChannelStep channel.data created := .create absent room rfl rfl rfl rfl
    refine ⟨?_, joins.withdrawn⟩
    intro sound
    have there : cid ∈ created.baseline.keys := Dict.mem_keys_set.mpr (.inl rfl)
    have unbound : ∀ (other : String) (old : Binding), created.bindings.get? other = some old → old.chapterId ≠ cid := by
      intro other old found same
      exact absent (same ▸ sound.bound other old found)
    have bound : ∀ binding : Binding, binding.chapterId = cid →
        ChannelStep created { created with bindings := created.bindings.set row.data.envelope.sourceChapterId binding } := by
      intro binding same
      subst same
      exact .bind unbound there rfl rfl rfl rfl
    exact (bound ⟨cid, _⟩ rfl).selection (joins.selection sound)

/-- An operation that changes channels is accepted: its transaction ends with the store that is committed. -/
inductive Accepts (outside : Outside) (store next : Store) : Prop where
  | openChannel (done : openChannel outside caller value reauthorize fresh book store = .ok (next, row))
  | revoke (done : revoke caller rid version reauthorize seen store = .ok (next, row))
  | changeSelection (done : changeSelection outside caller rid value digest reauthorize seen store book = .ok (next, row))
  | queue (done : queue outside caller rid value reauthorize fresh view store book = .ok (next, message))
  | receive (done : receive outside caller rid value reauthorize seen store book = .ok (next, received))
  | apply (done : finish outside call reauthorize store book writer = .committed request next message)
  | recover (done : recover outside caller mid value reauthorize view store book = .ok (.adopted next message))

variable {outside : Outside} {system next : System} {label : Label}

theorem Step.channels (step : Step outside system label next) : ChannelsStep system.store.channels next.store.channels ∧
    (next.store.channels = system.store.channels ∨ Accepts outside system.store next.store) := by
  cases step with
  | idle => exact ⟨.refl _, .inl rfl⟩
  | openChannel unused done => exact ⟨openChannel_channels unused done, .inr (.openChannel done)⟩
  | revoke _ done => exact ⟨revoke_channels done, .inr (.revoke done)⟩
  | changeSelection _ done => exact ⟨changeSelection_channels done, .inr (.changeSelection done)⟩
  | queue _ done => exact ⟨queue_channels done, .inr (.queue done)⟩
  | exportMessage _ done =>
    simp only [Sync.exportMessage, bind_ok, pure_ok, Prod.mk.injEq] at done
    obtain ⟨_, _, _, _, _, _, _, _, row, _, _, _, _, _, _, _, _, _, changed, _, rfl, _⟩ := done
    exact ⟨.refl _, .inl rfl⟩
  | delivery _ done =>
    simp only [Sync.delivery, bind_ok, discard_ok, pure_ok, Prod.mk.injEq] at done
    obtain ⟨_, _, _, _, _, _, row, _, _, _, _, _, changed, _, _, _, rfl, _⟩ := done
    exact ⟨.refl _, .inl rfl⟩
  | receive _ done => exact ⟨receive_channels done, .inr (.receive done)⟩
  | reserve _ done =>
    simp only [Sync.reserve, bind_ok, pure_ok, Prod.mk.injEq] at done
    obtain ⟨_, _, _, _, _, _, plan, _, _, _, _, _, _, _, _, _, row, _, _, _, again, _, _, _, created, _, claimed, _, _, _, _, _, rfl, rfl⟩ := done
    exact ⟨.refl _, .inl rfl⟩
  | refuse _ _ => exact ⟨.refl _, .inl rfl⟩
  | fail _ _ => exact ⟨.refl _, .inl rfl⟩
  | apply _ done =>
    refine ⟨?_, .inr (.apply done)⟩
    simp only [finish] at done
    split at done
    · cases done
    · split at done
      · cases done
      · split at done
        · cases done
        · split at done
          · cases done
          · rename_i written
            cases done
            simp only [afterWrite, bind_ok] at written
            obtain ⟨_, _, _, _, _, _, _, _, finished⟩ := written
            exact finishRow_channels finished
  | die _ _ _ => exact ⟨.refl _, .inl rfl⟩
  | crash _ => exact ⟨.refl _, .inl rfl⟩
  | markUnknown _ done =>
    simp only [Sync.markUnknown, bind_ok, stored_ok] at done
    obtain ⟨row, found, done⟩ := done
    split at done
    · cases pure_ok.mp done
      exact ⟨.refl _, .inl rfl⟩
    · simp only [bind_ok, pure_ok] at done
      obtain ⟨_, _, rfl⟩ := done
      exact ⟨.refl _, .inl rfl⟩
  | close _ done =>
    obtain ⟨_, _, _, _, _, _, same⟩ := recover_closed done
    rw [System.commit, same]
    exact ⟨.refl _, .inl rfl⟩
  | adopt _ done =>
    refine ⟨?_, .inr (.recover done)⟩
    simp only [recover, bind_ok] at done
    obtain ⟨result, observed, _, _, _, _, done⟩ := done
    split at done
    · simp only [bind_ok, pure_ok, reduceCtorEq, and_false, exists_false] at done
    · split at done
      · simp only [bind_ok] at done
        obtain ⟨_, _, done⟩ := done
        split at done
        · simp [throw_ok] at done
        · simp only [bind_ok, pure_ok, Recovered.adopted.injEq] at done
          obtain ⟨current, _, result, finished, rfl, _⟩ := done
          exact finishRow_channels finished
      · simp [pure_ok] at done

def System.Selected (system : System) : Prop := ∀ rid channel, system.store.channels.get? rid = some channel → Selection channel.data

theorem System.Selected.step (selected : system.Selected) (step : Step outside system label next) : next.Selected := by
  intro rid channel found
  cases before : system.store.channels.get? rid with
  | none => exact step.channels.1.added before found
  | some row =>
    obtain ⟨later, found', kept⟩ := step.channels.1.kept before
    obtain rfl := Option.some.inj (found.symm.trans found')
    rcases kept with rfl | changed
    · exact selected rid channel before
    · exact changed.selection (selected rid row before)

theorem reached_selected {labels : List Label} (run : Run (Step outside) System.initial labels system) : system.Selected :=
  run.invariant (fun _ _ found => nomatch found) fun selected step => selected.step step

theorem withdrawn_later {more : List Label} {later : System} {rid : String} {channel : Row Channel} (run : Run (Step outside) system more later)
    (found : system.store.channels.get? rid = some channel) : ∃ next, later.store.channels.get? rid = some next ∧
      ∀ cid ∈ channel.data.withdrawnChapterIds, cid ∈ next.data.withdrawnChapterIds := by
  induction run with
  | done => exact ⟨channel, found, fun _ member => member⟩
  | snoc _ last ih =>
    obtain ⟨between, there, kept⟩ := ih
    obtain ⟨next, found', step⟩ := last.channels.1.kept there
    refine ⟨next, found', ?_⟩
    intro cid member
    rcases step with rfl | step
    · exact kept cid member
    · exact step.withdrawn cid (kept cid member)

/-- In every run: the selection of every channel is well formed, what was withdrawn is never selected again, and a channel changes
only through an operation that is accepted. -/
theorem channel_selection {labels : List Label} (run : Run (Step outside) System.initial labels system) :
    (∀ rid channel, system.store.channels.get? rid = some channel → Selection channel.data) ∧
    (∀ {more : List Label} {later : System}, Run (Step outside) system more later →
      ∀ rid channel, system.store.channels.get? rid = some channel → ∃ next, later.store.channels.get? rid = some next ∧
        ∀ cid ∈ channel.data.withdrawnChapterIds, cid ∈ next.data.withdrawnChapterIds ∧ cid ∉ next.data.chapterIds) ∧
    ∀ {label : Label} {next : System}, Step outside system label next →
      next.store.channels = system.store.channels ∨ Accepts outside system.store next.store := by
  refine ⟨reached_selected run, ?_, fun step => step.channels.2⟩
  intro more later further rid channel found
  obtain ⟨next, found', kept⟩ := withdrawn_later further found
  have sound := reached_selected (run.append further) rid next found'
  refine ⟨next, found', ?_⟩
  intro cid member
  exact ⟨kept cid member, sound.disjoint cid (kept cid member)⟩

/-- The channel on which a new chapter was received and applied. -/
theorem channel_selection_applied : ∃ labels system, Run (Step plainOutside) System.initial labels system ∧
    ∀ rid channel, system.store.channels.get? rid = some channel → Selection channel.data := by
  obtain ⟨system, _, run, _, _⟩ := applied_run
  exact ⟨_, system, run, (channel_selection run).1⟩

end NovelStudio.Sync
