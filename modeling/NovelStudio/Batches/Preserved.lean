import NovelStudio.Batches.Moves

/-! The invariant through the parts of a step: a row that is stored, a task that changes, a call that goes on or ends. -/

namespace NovelStudio.Batches

open Library Experimental

/-- What no step takes back of a batch. -/
structure RowKept (row next : Row Batch) : Prop where
  digest : next.data.snapshotDigest = row.data.snapshotDigest
  cancelled : row.data.status = .cancelled → next.data.status = .cancelled
  items : Pointwise (fun _ item next => next.kind = item.kind ∧ item.attempts ≤ next.attempts ∧ (item.status.isFinal → next.status = item.status))
    row.data.items next.data.items

theorem RowKept.refl (row : Row Batch) : RowKept row row :=
  ⟨rfl, id, .refl fun _ _ => ⟨rfl, le_refl _, fun _ => rfl⟩⟩

theorem RowKept.trans {row middle next : Row Batch} (first : RowKept row middle) (second : RowKept middle next) : RowKept row next := by
  refine ⟨second.digest.trans first.digest, second.cancelled ∘ first.cancelled, second.items.length.trans first.items.length, ?_⟩
  intro place item last found found'
  obtain ⟨between, there, kind, attempts, final⟩ := first.items.there found
  obtain ⟨kind', attempts', final'⟩ := second.items.related place between last there found'
  refine ⟨kind'.trans kind, attempts.trans attempts', ?_⟩
  intro isFinal
  refine (final' ?_).trans (final isFinal)
  rwa [final isFinal]

/-- What a transaction may do to the item in a place while other calls run. -/
structure ItemMoved (state : State) (rid place : Nat) (item next : Item) : Prop where
  kind : next.kind = item.kind
  attempts : item.attempts ≤ next.attempts
  final : item.status.isFinal → next.status = item.status
  working : ∀ claim dispatch, state.dispatches.get? claim = some dispatch → dispatch.batch = rid → dispatch.index = place →
    Working claim dispatch.phase item → next.status = .cancelled ∨ Working claim dispatch.phase next
  task : ∀ task original, state.tasks.get? task = some original → original.data.safeBatch = some (rid, place) → item.kind.isMedia = true →
    Accounted state.tasks state.dispatches task item → Accounted state.tasks state.dispatches task next

theorem ItemMoved.refl (state : State) (rid place : Nat) (item : Item) : ItemMoved state rid place item item :=
  ⟨rfl, le_refl _, fun _ => rfl, fun _ _ _ _ _ working => .inr working, fun _ _ _ _ _ known => known⟩

/-- What a transaction may do to a row while other calls run. -/
structure Moved (state : State) (rid : Nat) (row next : Row Batch) : Prop where
  digest : next.data.snapshotDigest = row.data.snapshotDigest
  cancelled : row.data.status = .cancelled → next.data.status = .cancelled
  shape : Shape state.drawn next.data
  version : row.version ≤ next.version
  items : Pointwise (ItemMoved state rid) row.data.items next.data.items
  unbumped : next.version = row.version → next.data.status = row.data.status ∧ next.data.confirmed = row.data.confirmed ∧
    Pointwise (fun _ item next => next = item ∨ next.status = item.status ∧ next.claim = item.claim ∧ next.kind = item.kind ∧ ¬Quiet state.dispatches item)
      row.data.items next.data.items

theorem Moved.kept {state : State} {rid : Nat} {row next : Row Batch} (moved : Moved state rid row next) : RowKept row next :=
  ⟨moved.digest, moved.cancelled, moved.items.mono fun _ _ _ _ item => ⟨item.kind, item.attempts, item.final⟩⟩

/-- How the batches of a step are related to the ones before. -/
def RowsKept (state next : State) : Prop :=
  ∀ rid row, state.batches.get? rid = some row → ∃ later, next.batches.get? rid = some later ∧ RowKept row later

theorem RowsKept.refl (state : State) : RowsKept state state := fun _ row found => ⟨row, found, .refl row⟩

theorem RowsKept.trans {first second third : State} (before : RowsKept first second) (after : RowsKept second third) : RowsKept first third := by
  intro rid row found
  obtain ⟨middle, there, kept⟩ := before rid row found
  obtain ⟨last, found', kept'⟩ := after rid middle there
  exact ⟨last, found', kept.trans kept'⟩

variable {state : State} {claim task rid : Nat} {dispatch : Dispatch} {row next : Row Batch} {item : Item}

theorem Moved.rows (moved : Moved state rid row next) (found : state.batches.get? rid = some row) : RowsKept state (state.store rid next) := by
  intro other row' found'
  rw [State.store, Dict.get?_set]
  by_cases same : other = rid
  · subst same
    obtain rfl := Option.some.inj (found.symm.trans found')
    exact ⟨next, if_pos rfl, moved.kept⟩
  · exact ⟨row', (if_neg same).trans found', .refl row'⟩

theorem Sound.store (sound : Sound state) (found : state.batches.get? rid = some row) (moved : Moved state rid row next) :
    Sound (state.store rid next) := by
  have stays : ∀ {other : Nat} {row' : Row Batch}, state.batches.get? other = some row' → other ≠ rid →
      (state.store rid next).batches.get? other = some row' := by
    intro other row' found' different
    rw [State.store, Dict.get?_set_ne _ _ different]
    exact found'
  have here : (state.store rid next).batches.get? rid = some next := by
    rw [State.store]
    exact Dict.get?_set_self ..
  -- a version that was read is the row's only while the row is unchanged
  have reads : ∀ {version : Nat}, version ≤ row.version → next.version = version → row.version = version ∧ next.version = row.version := by
    intro version older same
    have := moved.version
    omega
  constructor
  · intro other row' found'
    by_cases same : other = rid
    · subst same
      obtain rfl := Option.some.inj (here.symm.trans found')
      exact ⟨(sound.batches other row found).1, moved.shape⟩
    · rw [State.store, Dict.get?_set_ne _ _ same] at found'
      exact sound.batches other row' found'
  · intro task original stored
    obtain ⟨drawn, owned⟩ := sound.tasks task original stored
    refine ⟨drawn, ?_⟩
    intro owner index own
    obtain ⟨row', item, found', there, media, known⟩ := owned owner index own
    by_cases same : owner = rid
    · subst same
      obtain rfl := Option.some.inj (found.symm.trans found')
      obtain ⟨item', there', itemMoved⟩ := moved.items.there there
      exact ⟨next, item', here, there', by rwa [itemMoved.kind], itemMoved.task task original stored own media known⟩
    · exact ⟨row', item, stays found' same, there, media, known⟩
  · intro claim dispatch called
    obtain ⟨row', item, known⟩ := sound.dispatches claim dispatch called
    by_cases same : dispatch.batch = rid
    · subst same
      obtain rfl := Option.some.inj (found.symm.trans known.found)
      obtain ⟨item', there', itemMoved⟩ := moved.items.there known.there
      refine ⟨next, item', here, there', itemMoved.kind.trans known.kind, known.active, known.drawn, known.image, ?_, ?_, known.task⟩
      · intro entered
        obtain ⟨older, checked⟩ := known.entered entered
        refine ⟨older.trans moved.version, ?_⟩
        intro version
        obtain ⟨same, unbumped⟩ := reads older version
        obtain ⟨pending, status, confirmed⟩ := checked same
        obtain ⟨status', confirmed', items⟩ := moved.unbumped unbumped
        refine ⟨?_, by rwa [status'], by rwa [confirmed']⟩
        rcases items.related _ _ _ known.there there' with rfl | ⟨stays, _⟩
        · exact pending
        · exact stays.trans pending
      · intro late
        rcases known.working late with cancelled | working
        · exact .inl ((itemMoved.final (.inr (.inr cancelled))).trans cancelled)
        · exact itemMoved.working claim dispatch called rfl rfl working
    · exact ⟨row', item, stays known.found same, known.there, known.kind, known.active, known.drawn, known.image, known.entered, known.working, known.task⟩
  · intro call member
    obtain ⟨row', found', older, checked⟩ := sound.calls call member
    by_cases same : call.batch = rid
    · rw [same] at found' ⊢
      obtain rfl := Option.some.inj (found.symm.trans found')
      refine ⟨next, here, older.trans moved.version, ?_⟩
      intro version
      obtain ⟨same, unbumped⟩ := reads older version
      have holds := checked same
      obtain ⟨status, _, _⟩ := moved.unbumped unbumped
      unfold Checked at holds ⊢
      rw [status, moved.digest]
      exact holds
    · exact ⟨row', stays found' same, older, checked⟩
  · intro call member
    obtain ⟨row', found', older, reading⟩ := sound.reconciles call member
    by_cases same : call.batch = rid
    · have found'' := found'
      rw [same] at found''
      obtain rfl := Option.some.inj (found.symm.trans found'')
      refine ⟨next, same ▸ here, older.trans moved.version, ?_⟩
      intro version
      obtain ⟨same', unbumped⟩ := reads older version
      obtain ⟨agrees, cleared, changed⟩ := reading same'
      obtain ⟨_, _, items⟩ := moved.unbumped unbumped
      constructor
      · refine ⟨items.length.trans agrees.length, ?_⟩
        intro place item last found found'
        obtain ⟨middle, there, status, claim, kind⟩ := agrees.there found
        rcases items.related _ _ _ there found' with rfl | ⟨status', claim', kind', _⟩
        · exact ⟨status, claim, kind⟩
        · exact ⟨status'.trans status, claim'.trans claim, kind'.trans kind⟩
      · intro clear item there claim own
        obtain ⟨before, there', related⟩ := items.back there
        refine cleared clear before there' claim ?_
        rcases related with rfl | ⟨_, same, _⟩
        · exact own
        · rwa [← same]
      · intro change listed
        obtain ⟨item, known⟩ := changed change listed
        obtain ⟨last, there, related⟩ := items.there known.there
        rcases related with rfl | ⟨_, _, _, loud⟩
        · exact ⟨last, there, known.unsettled, known.quiet, known.image, known.failed⟩
        · exact absurd known.quiet loud
    · exact ⟨row', stays found' same, older, reading⟩

variable {after before : Dict Nat Dispatch} {tasks : Dict Nat (Row Task)}

theorem Dead.mono (dead : Dead tasks before task)
    (fewer : ∀ claim dispatch, after.get? claim = some dispatch → dispatch.phase.holds task →
      ∃ old, before.get? claim = some old ∧ old.phase.holds task) : Dead tasks after task := by
  refine ⟨dead.stopped, ?_⟩
  intro claim dispatch called holds
  obtain ⟨old, called', holds'⟩ := fewer claim dispatch called holds
  exact dead.unheld claim old called' holds'

theorem Accounted.mono {tasks' : Dict Nat (Row Task)} (known : Accounted tasks before task item)
    (dead : Dead tasks before task → Dead tasks' after task) : Accounted tasks' after task item := by
  cases known with
  | cancelled cancelled => exact .cancelled cancelled
  | dead known => exact .dead (dead known)
  | own own unfailed begun => exact .own own unfailed begun

theorem ReadingSound.mono {call : Reconciling}
    (reading : ReadingSound tasks before call row) (quiet : ∀ (place : Nat) (item : Item), row.data.items[place]? = some item →
      Quiet before item → Quiet after item) : ReadingSound tasks after call row := by
  refine ⟨reading.agrees, fun cleared item there => quiet _ _ there (reading.cleared cleared item there), ?_⟩
  intro change listed
  obtain ⟨item, known⟩ := reading.changed change listed
  exact ⟨item, known.there, known.unsettled, quiet _ _ known.there known.quiet, known.image, known.failed⟩

theorem Shape.draw {batch : Batch} {drawn : Nat} (shape : Shape drawn batch) : Shape (drawn + 1) batch :=
  ⟨shape.once, shape.runs, shape.unknown, fun place item claim there own =>
    ⟨(shape.claims place item claim there own).1, Nat.lt_succ_of_lt (shape.claims place item claim there own).2⟩, shape.fresh⟩

theorem Sound.draw (sound : Sound state) : Sound { state with drawn := state.drawn + 1 } where
  batches := fun rid row found => ⟨Nat.lt_succ_of_lt (sound.batches rid row found).1, (sound.batches rid row found).2.draw⟩
  tasks := fun task original stored => ⟨Nat.lt_succ_of_lt (sound.tasks task original stored).1, (sound.tasks task original stored).2⟩
  dispatches := by
    intro claim dispatch called
    obtain ⟨row, item, known⟩ := sound.dispatches claim dispatch called
    exact ⟨row, item, known.found, known.there, known.kind, known.active, Nat.lt_succ_of_lt known.drawn, known.image, known.entered,
      known.working, known.task⟩
  calls := sound.calls
  reconciles := sound.reconciles

/-- A call of `dispatch` begins or goes on. -/
theorem Sound.setDispatch (sound : Sound state) (claim : Nat) (dispatch : Dispatch) (row : Row Batch) (item : Item)
    (known : DispatchSound state claim dispatch row item)
    (holds : ∀ task, dispatch.phase.holds task → (∃ old, state.dispatches.get? claim = some old ∧ old.phase.holds task) ∨
      (item.status = .running ∧ item.taskId = some task))
    (quiet : state.dispatches.get? claim = none → ∀ (rid : Nat) (row : Row Batch) (place : Nat) (item : Item), state.batches.get? rid = some row →
      row.data.items[place]? = some item → item.claim ≠ some claim) : Sound { state with dispatches := state.dispatches.set claim dispatch } := by
  constructor
  · exact sound.batches
  · intro task original stored
    obtain ⟨drawn, owned⟩ := sound.tasks task original stored
    refine ⟨drawn, ?_⟩
    intro rid index own
    obtain ⟨row', item', found, there, media, before⟩ := owned rid index own
    refine ⟨row', item', found, there, media, ?_⟩
    by_cases takes : dispatch.phase.holds task ∧ ¬∃ old, state.dispatches.get? claim = some old ∧ old.phase.holds task
    · obtain ⟨running, own'⟩ := (holds task takes.1).resolve_left takes.2
      obtain ⟨original', stored', safeBatch⟩ := known.task task takes.1
      obtain rfl := Option.some.inj (stored.symm.trans stored')
      obtain ⟨rfl, rfl⟩ := Prod.mk.inj (Option.some.inj (own.symm.trans safeBatch))
      obtain rfl := Option.some.inj (found.symm.trans known.found)
      obtain rfl := Option.some.inj (there.symm.trans known.there)
      refine .own own' ?_ ?_
      · rw [running]
        decide
      · rw [running]
        decide
    · refine before.mono fun dead => dead.mono ?_
      intro other later called holds'
      rw [Dict.get?_set] at called
      split at called
      · rename_i same
        subst same
        obtain rfl := Option.some.inj called
        by_contra none
        exact takes ⟨holds', none⟩
      · exact ⟨later, called, holds'⟩
  · intro other later called
    rw [Dict.get?_set] at called
    split at called
    · rename_i same
      subst same
      obtain rfl := Option.some.inj called
      exact ⟨row, item, known.found, known.there, known.kind, known.active, known.drawn, known.image, known.entered, known.working, known.task⟩
    · obtain ⟨row, item, known⟩ := sound.dispatches other later called
      exact ⟨row, item, known.found, known.there, known.kind, known.active, known.drawn, known.image, known.entered, known.working, known.task⟩
  · exact sound.calls
  · intro call member
    obtain ⟨row, found, older, reading⟩ := sound.reconciles call member
    refine ⟨row, found, older, fun version => (reading version).mono ?_⟩
    intro place item there before other own
    have absent := before other own
    rw [Dict.get?_set]
    split
    · rename_i same
      subst same
      exact absurd own (quiet absent call.batch row place item found there)
    · exact absent

/-- A call of `dispatch` goes on; it holds no task that it did not hold. -/
theorem Sound.proceed {phase : Phase} (sound : Sound state) (called : state.dispatches.get? claim = some dispatch)
    (known : DispatchSound state claim { dispatch with phase } row item) (holds : ∀ task, phase.holds task → dispatch.phase.holds task) :
    Sound (state.proceed claim dispatch phase) := by
  refine sound.setDispatch claim _ row item known (fun task held => .inl ⟨dispatch, called, holds task held⟩) ?_
  intro absent
  rw [called] at absent
  cases absent

/-- A call of `dispatch` ends. -/
theorem Sound.leave (sound : Sound state) (claim : Nat) : Sound (state.leave claim) := by
  have before : ∀ {other : Nat} {dispatch : Dispatch}, (state.leave claim).dispatches.get? other = some dispatch →
      other ≠ claim ∧ state.dispatches.get? other = some dispatch := by
    intro other dispatch called
    rw [State.leave, Dict.get?_erase] at called
    split at called
    · cases called
    · rename_i different
      exact ⟨different, called⟩
  constructor
  · exact sound.batches
  · intro task original stored
    obtain ⟨drawn, owned⟩ := sound.tasks task original stored
    refine ⟨drawn, ?_⟩
    intro rid index own
    obtain ⟨row, item, found, there, media, known⟩ := owned rid index own
    exact ⟨row, item, found, there, media, known.mono fun dead => dead.mono fun other later called holds => ⟨later, (before called).2, holds⟩⟩
  · intro other later called
    obtain ⟨different, called'⟩ := before called
    obtain ⟨row, item, known⟩ := sound.dispatches other later called'
    exact ⟨row, item, known.found, known.there, known.kind, (List.mem_erase_of_ne different).mpr known.active, known.drawn, known.image,
      known.entered, known.working, known.task⟩
  · exact sound.calls
  · intro call member
    obtain ⟨row, found, older, reading⟩ := sound.reconciles call member
    refine ⟨row, found, older, fun version => (reading version).mono ?_⟩
    intro place item there quiet other own
    rw [State.leave, Dict.get?_erase]
    split
    · rfl
    · exact quiet other own

theorem Sound.crash (sound : Sound state) : Sound { state with active := [], dispatches := ∅, calls := [], reconciles := [] } where
  batches := sound.batches
  tasks := by
    intro task original stored
    obtain ⟨drawn, owned⟩ := sound.tasks task original stored
    refine ⟨drawn, ?_⟩
    intro rid index own
    obtain ⟨row, item, found, there, media, known⟩ := owned rid index own
    exact ⟨row, item, found, there, media, known.mono fun dead => dead.mono nofun⟩
  dispatches := nofun
  calls := nofun
  reconciles := nofun

/-- A task is stored: it is one of no batch, or held by a call of `dispatch`, or new and the one of its item. -/
theorem Sound.setTask (sound : Sound state) (task : Nat) (stored : Row Task) (drawn : task < state.drawn)
    (kept : ∀ original, state.tasks.get? task = some original → stored.data.safeBatch = original.data.safeBatch)
    (held : ∀ rid index, stored.data.safeBatch = some (rid, index) →
      (∃ original claim dispatch, state.tasks.get? task = some original ∧ state.dispatches.get? claim = some dispatch ∧ dispatch.phase.holds task) ∨
      (state.tasks.get? task = none ∧ ∃ row item, state.batches.get? rid = some row ∧ row.data.items[index]? = some item ∧
        item.kind.isMedia = true ∧ item.taskId = some task ∧ item.status = .running)) :
    Sound { state with tasks := state.tasks.set task stored } := by
  have others : ∀ {other : Nat} {original : Row Task}, other ≠ task → state.tasks.get? other = some original →
      (state.tasks.set task stored).get? other = some original := by
    intro other original different there
    rwa [Dict.get?_set_ne _ _ different]
  constructor
  · exact sound.batches
  · intro other original there
    rw [Dict.get?_set] at there
    split at there
    · rename_i same
      subst same
      obtain rfl := Option.some.inj there
      refine ⟨drawn, ?_⟩
      intro rid index own
      rcases held rid index own with ⟨original, claim, dispatch, before, called, holds⟩ | ⟨_, row, item, found, there, media, taskId, running⟩
      · obtain ⟨row, item, found, there, media, known⟩ := (sound.tasks other original before).2 rid index ((kept original before).symm.trans own)
        refine ⟨row, item, found, there, media, ?_⟩
        cases known with
        | cancelled cancelled => exact .cancelled cancelled
        | dead dead => exact absurd holds (dead.unheld claim dispatch called)
        | own own unfailed begun => exact .own own unfailed begun
      · refine ⟨row, item, found, there, media, .own taskId ?_ ?_⟩
        · rw [running]
          decide
        · rw [running]
          decide
    · rename_i different
      obtain ⟨drawn, owned⟩ := sound.tasks other original there
      refine ⟨drawn, ?_⟩
      intro rid index own
      obtain ⟨row, item, found, there', media, known⟩ := owned rid index own
      refine ⟨row, item, found, there', media, known.mono ?_⟩
      intro dead
      obtain ⟨original', before, rest⟩ := dead.stopped
      exact ⟨⟨original', others different before, rest⟩, dead.unheld⟩
  · intro claim dispatch called
    obtain ⟨row, item, known⟩ := sound.dispatches claim dispatch called
    refine ⟨row, item, known.found, known.there, known.kind, known.active, known.drawn, known.image, known.entered, known.working, ?_⟩
    intro other holds
    obtain ⟨original, there, own⟩ := known.task other holds
    by_cases same : other = task
    · subst same
      exact ⟨stored, Dict.get?_set_self .., (kept original there).trans own⟩
    · exact ⟨original, others same there, own⟩
  · exact sound.calls
  · intro call member
    obtain ⟨row, found, older, reading⟩ := sound.reconciles call member
    refine ⟨row, found, older, ?_⟩
    intro version
    obtain ⟨agrees, cleared, changed⟩ := reading version
    refine ⟨agrees, cleared, ?_⟩
    intro change listed
    obtain ⟨item, known⟩ := changed change listed
    refine ⟨item, known.there, known.unsettled, known.quiet, known.image, ?_⟩
    intro media failed other own
    obtain ⟨original, there, safeBatch, rest⟩ := known.failed media failed other own
    by_cases same : other = task
    · subst same
      rcases held _ _ ((kept original there).trans safeBatch) with ⟨_, claim, dispatch, _, called, holds⟩ | ⟨absent, _⟩
      · rcases sound.holder called holds there safeBatch found known.there with cancelled | ⟨claimed, _⟩
        · have open' := known.unsettled
          simp [unsettled, cancelled] at open'
        · rw [known.quiet claim claimed] at called
          cases called
      · rw [there] at absent
        cases absent
    · exact ⟨original, others same there, safeBatch, rest⟩

end NovelStudio.Batches
