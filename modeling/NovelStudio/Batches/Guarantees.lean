import NovelStudio.Batches.Soundness

/-! What holds of safe batches over every run: only what was confirmed runs, and nothing whose outcome is unknown runs again. -/

namespace NovelStudio.Batches

open Library Experimental

variable {state next : State} {claim rid index : Nat} {dispatch : Dispatch} {row : Row Batch} {item : Item} {label : Label}

theorem reached_sound {labels : List Label} (run : Run Step .initial labels state) : Sound state :=
  run.invariant .initial fun sound step => (step.sound sound).1

theorem reached_kept {labels more : List Label} {later : State} (run : Run Step .initial labels state) (further : Run Step state more later) :
    RowsKept state later := by
  have kept : Sound later ∧ RowsKept state later := by
    refine further.invariant (motive := fun later => Sound later ∧ RowsKept state later) ⟨reached_sound run, .refl state⟩ ?_
    intro between label last known step
    obtain ⟨sound, kept⟩ := step.sound known.1
    exact ⟨sound, known.2.trans kept⟩
  exact kept.2

theorem Step.task {task : Nat} {original : Row Task} (sound : Sound state) (step : Step state label next) (stored : state.tasks.get? task = some original) :
    ∃ later, next.tasks.get? task = some later ∧ later.data.safeBatch = original.data.safeBatch ∧ (later = original ∨
      original.data.safeBatch = none ∨ ∃ claim dispatch, state.dispatches.get? claim = some dispatch ∧ dispatch.phase.holds task) := by
  -- a task that is stored is not the one that is drawn
  have fresh : ∀ {drawn : Row Task}, (state.tasks.set state.drawn drawn).get? task = some original := by
    intro drawn
    rw [Dict.get?_set_ne]
    · exact stored
    · exact (sound.tasks task original stored).1.ne
  have changes : ∀ {other : Nat} {before after : Row Task}, state.tasks.get? other = some before → after.data.safeBatch = before.data.safeBatch →
      (before.data.safeBatch = none ∨ ∃ claim dispatch, state.dispatches.get? claim = some dispatch ∧ dispatch.phase.holds other) →
      ∃ later, (state.tasks.set other after).get? task = some later ∧ later.data.safeBatch = original.data.safeBatch ∧ (later = original ∨
        original.data.safeBatch = none ∨ ∃ claim dispatch, state.dispatches.get? claim = some dispatch ∧ dispatch.phase.holds task) := by
    intro other before after there same owned
    by_cases here : task = other
    · subst here
      obtain rfl := Option.some.inj (stored.symm.trans there)
      exact ⟨after, Dict.get?_set_self .., same, .inr owned⟩
    · exact ⟨original, (Dict.get?_set_ne _ _ here).trans stored, rfl, .inl rfl⟩
  cases step with
  | bindTask called phase kind found done => exact ⟨original, fresh, rfl, .inl rfl⟩
  | claimTask called phase found reads done =>
    exact changes (mediaGet_ok reads).1 (claimTask_ok done).1 (.inr ⟨_, _, called, by rw [phase]; rfl⟩)
  | succeedTask called phase reads running own =>
    exact changes reads (settleTask_safeBatch ..) (.inr ⟨_, _, called, by rw [phase]; rfl⟩)
  | failTask called phase reads => exact changes reads (settleTask_safeBatch ..) (.inr ⟨_, _, called, by rw [phase]; rfl⟩)
  | queueTask => exact ⟨original, fresh, rfl, .inl rfl⟩
  | controlTask reads done => exact changes reads (transitionTask_ok done).1 (.inl (transitionTask_ok done).2)
  | executeTask reads done =>
    exact changes reads ((settleTask_safeBatch ..).trans (claimTask_ok done).1) (.inl ((claimTask_ok done).2 rfl))
  | _ => exact ⟨original, stored, rfl, .inl rfl⟩

theorem Step.holds {task : Nat} {later : Dispatch} (step : Step state label next) (called : next.dispatches.get? claim = some later)
    (holds : later.phase.holds task) : (∃ before, state.dispatches.get? claim = some before ∧ before.phase.holds task) ∨ task = state.drawn := by
  have goes : ∀ {other : Nat} {dispatch : Dispatch}, (state.dispatches.set other dispatch).get? claim = some later →
      (other = claim ∧ later = dispatch) ∨ state.dispatches.get? claim = some later := by
    intro other dispatch called
    rw [Dict.get?_set] at called
    split at called
    · rename_i same
      exact .inl ⟨same.symm, (Option.some.inj called).symm⟩
    · exact .inr called
  have idle : ∀ {other : Nat} {dispatch : Dispatch}, ¬dispatch.phase.holds task → (state.dispatches.set other dispatch).get? claim = some later →
      (∃ before, state.dispatches.get? claim = some before ∧ before.phase.holds task) ∨ task = state.drawn := by
    intro other dispatch none called
    rcases goes called with ⟨_, rfl⟩ | before
    · exact absurd holds none
    · exact .inl ⟨later, before, holds⟩
  have left : ∀ {other : Nat}, (state.dispatches.erase other).get? claim = some later → state.dispatches.get? claim = some later := by
    intro other called
    rw [Dict.get?_erase] at called
    split at called
    · cases called
    · exact called
  cases step with
  | bindTask called' phase kind found done =>
    rcases goes called with ⟨rfl, rfl⟩ | before
    · exact .inr holds.symm
    · exact .inl ⟨later, before, holds⟩
  | claimTask called' phase found reads done =>
    rcases goes called with ⟨rfl, rfl⟩ | before
    · exact .inl ⟨_, called', by rw [phase]; exact holds⟩
    · exact .inl ⟨later, before, holds⟩
  | finish _ _ _ _ => exact .inl ⟨later, left called, holds⟩
  | fail _ _ _ _ => exact .inl ⟨later, left called, holds⟩
  | leave _ _ => exact .inl ⟨later, left called, holds⟩
  | crash => cases called
  | enter _ _ => exact idle id called
  | start _ _ _ _ => exact idle id called
  | guard _ _ _ _ => exact idle id called
  | produce _ _ _ => exact idle id called
  | succeedTask _ _ _ _ _ => exact idle id called
  | failTask _ _ _ => exact idle id called
  | intendImage _ _ _ _ _ => exact idle id called
  | bindImage _ _ _ _ => exact idle id called
  | executeImage _ _ => exact idle id called
  | raises _ _ => exact idle id called
  | _ => exact .inl ⟨later, called, holds⟩

theorem Step.dead {task : Nat} (sound : Sound state) (step : Step state label next) (dead : Dead state.tasks state.dispatches task) :
    Dead next.tasks next.dispatches task := by
  obtain ⟨original, stored, own, status⟩ := dead.stopped
  obtain ⟨later, stored', same, kept⟩ := step.task sound stored
  have unchanged : later = original := by
    rcases kept with same | none | ⟨claim, dispatch, called, holds⟩
    · exact same
    · exact absurd none own
    · exact absurd holds (dead.unheld claim dispatch called)
  subst unchanged
  refine ⟨⟨later, stored', own, status⟩, ?_⟩
  intro claim dispatch called holds
  rcases step.holds called holds with ⟨before, called', holds'⟩ | drawn
  · exact dead.unheld claim before called' holds'
  · exact absurd (sound.tasks task later stored).1 (drawn ▸ lt_irrefl _)

/-- A batch was confirmed with a digest, and was not reset by a retry since. -/
def ConfirmedSince (labels : List Label) (rid : Nat) (digest : String) : Prop :=
  ∃ before after, labels = before ++ .confirmed rid digest :: after ∧ .retried rid ∉ after

theorem Step.confirmed {later : Row Batch} (sound : Sound state) (step : Step state label next) (found : next.batches.get? rid = some later)
    (confirmed : later.data.confirmed = true) : label = .confirmed rid later.data.snapshotDigest ∨
    (label ≠ .retried rid ∧ ∃ row, state.batches.get? rid = some row ∧ row.data.confirmed = true ∧
      row.data.snapshotDigest = later.data.snapshotDigest) := by
  have same : ∀ {other : Nat} {row stored : Row Batch}, state.batches.get? other = some row →
      (state.batches.set other stored).get? rid = some later → stored.data.confirmed = row.data.confirmed →
      stored.data.snapshotDigest = row.data.snapshotDigest →
      ∃ row, state.batches.get? rid = some row ∧ row.data.confirmed = true ∧ row.data.snapshotDigest = later.data.snapshotDigest := by
    intro other row stored there found' confirmed' digest
    rw [Dict.get?_set] at found'
    split at found'
    · rename_i here
      subst here
      obtain rfl := Option.some.inj found'
      exact ⟨row, there, confirmed'.symm.trans confirmed, digest.symm⟩
    · exact ⟨later, found', confirmed, rfl⟩
  cases step with
  | preflight frozen =>
    rw [State.store, Dict.get?_set] at found
    split at found
    · obtain rfl := Option.some.inj found
      simp only [Batches.preflight, bind_ok, pure_ok] at frozen
      obtain ⟨_, _, rfl⟩ := frozen
      cases confirmed
    · exact .inr ⟨by rintro ⟨⟩, later, found, confirmed, rfl⟩
  | @commit admitted row stored owner admits there done =>
    obtain ⟨row', there', _, checked⟩ := sound.calls _ admits
    obtain rfl := Option.some.inj (there.symm.trans there')
    obtain ⟨request, other, expected⟩ := admitted
    rw [State.store, Dict.get?_set] at found
    split at found
    · rename_i here
      subst here
      obtain rfl := Option.some.inj found
      cases request with
      | confirm digest =>
        left
        obtain ⟨version, _, same, _⟩ := confirm_ok done
        rw [same, ← (checked version).2]
        rfl
      | stop =>
        rw [(stop_ok done).2.2.2.2.1] at confirmed
        cases confirmed
      | retryFailed =>
        rw [(retryFailed_ok done).2.2.2.2.1] at confirmed
        cases confirmed
    · rename_i different
      refine .inr ⟨?_, later, found, confirmed, rfl⟩
      intro resets
      cases request with
      | confirm digest => cases resets
      | stop => cases resets
      | retryFailed => exact different (Label.retried.inj resets).symm
  | reconcileCommit _ _ there done =>
    obtain ⟨_, _, _, digest, confirmed', _⟩ := reconcile_ok done
    exact .inr ⟨by rintro ⟨⟩, same there found confirmed' digest⟩
  | start _ _ there done =>
    obtain ⟨_, _, digest, _, confirmed', _⟩ := start_ok done
    exact .inr ⟨by rintro ⟨⟩, same there found confirmed' digest⟩
  | bindTask _ _ _ there done =>
    obtain ⟨_, noted⟩ := bindTask_ok done
    exact .inr ⟨by rintro ⟨⟩, same there found noted.confirmed noted.digest⟩
  | intendImage _ _ _ there done =>
    obtain ⟨_, noted⟩ := intendImage_ok done
    exact .inr ⟨by rintro ⟨⟩, same there found noted.confirmed noted.digest⟩
  | bindImage _ _ there done =>
    obtain ⟨_, noted⟩ := bindImage_ok done
    exact .inr ⟨by rintro ⟨⟩, same there found noted.confirmed noted.digest⟩
  | finish _ _ there done =>
    obtain ⟨_, _, digest, confirmed', _⟩ := finish_ok done
    exact .inr ⟨by rintro ⟨⟩, same there found confirmed' digest⟩
  | fail _ _ there done =>
    rcases fail_ok done with rfl | ⟨_, _, _, _, failed⟩
    · exact .inr ⟨by rintro ⟨⟩, same there found rfl rfl⟩
    · exact .inr ⟨by rintro ⟨⟩, same there found failed.confirmed failed.digest⟩
  | _ => exact .inr ⟨by rintro ⟨⟩, later, found, confirmed, rfl⟩

/-- What the labels so far tell of a state. -/
structure Told (labels : List Label) (state : State) : Prop where
  confirmed : ∀ rid row, state.batches.get? rid = some row → row.data.confirmed = true → ConfirmedSince labels rid row.data.snapshotDigest
  started : ∀ rid index claim, .started rid index claim ∈ labels → ∃ row item, state.batches.get? rid = some row ∧
    row.data.items[index]? = some item ∧ 0 < item.attempts
  bound : ∀ rid index task, .bound rid index task ∈ labels → ∃ original, state.tasks.get? task = some original ∧
    original.data.safeBatch = some (rid, index)

theorem Step.started (sound : Sound state) (step : Step state (.started rid index claim) next) : ∃ row item,
    state.batches.get? rid = some row ∧ row.data.items[index]? = some item ∧ item.status = .pending ∧ row.data.confirmed = true ∧
    ∃ later item', next.batches.get? rid = some later ∧ later.data.items[index]? = some item' ∧ 0 < item'.attempts := by
  generalize same : Label.started rid index claim = label at step
  cases step with
  | start called phase found done =>
    obtain ⟨rfl, rfl, rfl⟩ := Label.started.inj same
    obtain ⟨item, known⟩ := sound.standing called found
    obtain ⟨version, _, _, _, _, items⟩ := start_ok done
    obtain ⟨pending, _, confirmed⟩ := (known.entered phase).2 version
    obtain ⟨item', there', move⟩ := items.there known.there
    rw [if_pos rfl] at move
    refine ⟨_, item, found, known.there, pending, confirmed, _, item', Dict.get?_set_self .., there', ?_⟩
    rw [move]
    exact Nat.succ_pos _
  | @commit admitted =>
    obtain ⟨request, _, _⟩ := admitted
    cases request <;> cases same
  | _ => cases same

theorem Step.bound {task : Nat} (step : Step state (.bound rid index task) next) :
    ∃ original, next.tasks.get? task = some original ∧ original.data.safeBatch = some (rid, index) := by
  generalize same : Label.bound rid index task = label at step
  cases step with
  | bindTask called phase kind found done =>
    obtain ⟨rfl, rfl, rfl⟩ := Label.bound.inj same
    exact ⟨_, Dict.get?_set_self .., rfl⟩
  | @commit admitted =>
    obtain ⟨request, _, _⟩ := admitted
    cases request <;> cases same
  | _ => cases same

theorem ConfirmedSince.more {labels : List Label} {digest : String} (confirmed : ConfirmedSince labels rid digest) (kept : label ≠ .retried rid) :
    ConfirmedSince (labels ++ [label]) rid digest := by
  obtain ⟨before, after, rfl, unreset⟩ := confirmed
  refine ⟨before, after ++ [label], by simp, ?_⟩
  intro member
  rcases List.mem_append.mp member with member | member
  · exact unreset member
  · exact kept (List.mem_singleton.mp member).symm

theorem Told.step {labels : List Label} (told : Told labels state) (sound : Sound state) (step : Step state label next) :
    Told (labels ++ [label]) next := by
  constructor
  · intro rid later found confirmed
    rcases step.confirmed sound found confirmed with rfl | ⟨kept, row, found', confirmed', digest⟩
    · exact ⟨labels, [], rfl, List.not_mem_nil⟩
    · rw [← digest]
      exact (told.confirmed rid row found' confirmed').more kept
  · intro rid index claim member
    rcases List.mem_append.mp member with member | member
    · obtain ⟨row, item, found, there, begun⟩ := told.started rid index claim member
      obtain ⟨later, found', kept⟩ := (step.sound sound).2 rid row found
      obtain ⟨item', there', _, attempts, _⟩ := kept.items.there there
      exact ⟨later, item', found', there', begun.trans_le attempts⟩
    · obtain rfl := List.mem_singleton.mp member
      obtain ⟨_, _, _, _, _, _, later⟩ := step.started sound
      exact later
  · intro rid index task member
    rcases List.mem_append.mp member with member | member
    · obtain ⟨original, stored, own⟩ := told.bound rid index task member
      obtain ⟨later, stored', same, _⟩ := step.task sound stored
      exact ⟨later, stored', same.trans own⟩
    · obtain rfl := List.mem_singleton.mp member
      exact step.bound

theorem reached_told {labels : List Label} (run : Run Step .initial labels state) : Told labels state := by
  refine run.history (motive := Told) ⟨nofun, fun _ _ _ member => absurd member List.not_mem_nil, fun _ _ _ member => absurd member List.not_mem_nil⟩ ?_
  intro labels state label next before told step
  exact told.step (reached_sound before) step

/-- What the statuses of a batch promise. -/
structure Orderly (batch : Batch) : Prop where
  once : ∀ (place other : Nat) (item item' : Item), batch.items[place]? = some item → batch.items[other]? = some item' →
    item.status = .running → item'.status = .running → place = other
  runs : ∀ item ∈ batch.items, item.status = .running → batch.status = .running
  settled : batch.status = .ready ∨ batch.status = .partially → ∀ item ∈ batch.items, item.status ≠ .running ∧ item.status ≠ .unknown

theorem Shape.orderly {drawn : Nat} {batch : Batch} (shape : Shape drawn batch) : Orderly batch := by
  constructor
  · exact shape.once
  · intro item member running
    obtain ⟨place, there⟩ := List.getElem?_of_mem member
    exact shape.runs place item there running
  · intro settled item member
    obtain ⟨place, there⟩ := List.getElem?_of_mem member
    constructor
    · intro running
      rw [shape.runs place item there running] at settled
      rcases settled with settled | settled
      · cases settled
      · cases settled
    · intro unknown
      rcases shape.unknown place item there unknown with status | status
      · rw [status] at settled
        rcases settled with settled | settled
        · cases settled
        · cases settled
      · rw [status] at settled
        rcases settled with settled | settled
        · cases settled
        · cases settled

theorem Step.restarted {labels : List Label} {before : Nat} (sound : Sound state) (told : Told labels state)
    (step : Step state (.started rid index claim) next) (again : .started rid index before ∈ labels) :
    (∃ row item, state.batches.get? rid = some row ∧ row.data.items[index]? = some item ∧ item.kind ≠ .studioImage) ∧
    ∀ task, .bound rid index task ∈ labels → Dead state.tasks state.dispatches task := by
  obtain ⟨row, item, found, there, pending, _⟩ := step.started sound
  obtain ⟨row', item', found', there', begun⟩ := told.started rid index before again
  obtain rfl := Option.some.inj (found.symm.trans found')
  obtain rfl := Option.some.inj (there.symm.trans there')
  constructor
  · refine ⟨row, item, found, there, ?_⟩
    intro image
    have none := ((sound.batches rid row found).2.fresh index item there pending).2 image
    omega
  · intro task bound
    obtain ⟨original, stored, own⟩ := told.bound rid index task bound
    obtain ⟨row', item', found', there', _, accounted⟩ := (sound.tasks task original stored).2 rid index own
    obtain rfl := Option.some.inj (found.symm.trans found')
    obtain rfl := Option.some.inj (there.symm.trans there')
    cases accounted with
    | cancelled cancelled => exact absurd (pending.symm.trans cancelled) nofun
    | dead dead => exact dead
    | own _ _ begun => exact absurd pending begun

theorem dead_later {labels : List Label} {later : State} {task : Nat} (run : Run Step state labels later) (sound : Sound state)
    (dead : Dead state.tasks state.dispatches task) : Dead later.tasks later.dispatches task := by
  have kept : Sound later ∧ Dead later.tasks later.dispatches task := by
    refine run.invariant (motive := fun later => Sound later ∧ Dead later.tasks later.dispatches task) ⟨sound, dead⟩ ?_
    intro between label last known step
    exact ⟨(step.sound known.1).1, step.dead known.1 known.2⟩
  exact kept.2

/-- In every run the batches are orderly, what is final stays, what starts was confirmed since the last retry, and what starts again is no image
and has left only tasks behind that never succeed. -/
theorem safe_batches {labels : List Label} (run : Run Step .initial labels state) :
    (∀ rid row, state.batches.get? rid = some row → Orderly row.data) ∧
    (∀ {more : List Label} {later : State}, Run Step state more later → RowsKept state later) ∧
    ∀ {before after : List Label} {rid index claim : Nat}, labels = before ++ .started rid index claim :: after →
      ∃ row item, state.batches.get? rid = some row ∧ row.data.items[index]? = some item ∧ ConfirmedSince before rid row.data.snapshotDigest ∧
        ∀ earlier, .started rid index earlier ∈ before →
          item.kind ≠ .studioImage ∧ ∀ task, .bound rid index task ∈ before → Dead state.tasks state.dispatches task := by
  refine ⟨?_, fun further => reached_kept run further, ?_⟩
  · intro rid row found
    exact ((reached_sound run).batches rid row found).2.orderly
  · intro before after rid index claim same
    obtain ⟨middle, behind, earlier, step, rest⟩ := run.around same
    have sound := reached_sound earlier
    have told := reached_told earlier
    have later := (step.sound sound).1
    have kept : RowsKept middle state := (step.sound sound).2.trans (reached_kept (earlier.snoc step) rest)
    obtain ⟨row, item, found, there, _, confirmed, _⟩ := step.started sound
    obtain ⟨last, found', rowKept⟩ := kept rid row found
    obtain ⟨item', there', kind, _⟩ := rowKept.items.there there
    refine ⟨last, item', found', there', ?_, ?_⟩
    · rw [rowKept.digest]
      exact told.confirmed rid row found confirmed
    · intro before' again
      constructor
      · obtain ⟨row', item'', stored, here, image⟩ := (step.restarted sound told again).1
        obtain rfl := Option.some.inj (found.symm.trans stored)
        obtain rfl := Option.some.inj (there.symm.trans here)
        rwa [kind]
      · intro task bound
        exact dead_later rest later (step.dead sound ((step.restarted sound told again).2 task bound))

theorem safe_batches_start : ∃ state, Run Step .initial [.preflight 0, .silent, .confirmed 0 "frozen", .silent, .started 0 0 1] state ∧
    ∀ rid row, state.batches.get? rid = some row → Orderly row.data := by
  have preflight := Run.one (@Step.preflight .initial "author" "frozen" [(.proof, none)] _ rfl)
  have admission := preflight.snoc (@Step.admits _ 0 1 _ (.confirm "frozen") rfl rfl)
  have confirm := admission.snoc (@Step.commit _ ⟨.confirm "frozen", 0, 1⟩ _ _ (.ok ()) (List.mem_singleton_self _) rfl rfl)
  have enter := confirm.snoc (@Step.enter _ 0 2 0 _ _ rfl rfl)
  have start := enter.snoc (@Step.start _ 1 _ _ _ rfl rfl rfl rfl)
  exact ⟨_, start, (safe_batches start).1⟩

end NovelStudio.Batches
