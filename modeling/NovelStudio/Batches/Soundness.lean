import NovelStudio.Batches.Transactions

/-! Every step keeps the invariant, and takes back nothing of a batch. -/

namespace NovelStudio.Batches

open Library Experimental

variable {state next : State} {claim rid expected index : Nat} {dispatch : Dispatch} {row : Row Batch} {item : Item} {label : Label}

theorem newItem_fresh (step : Kind × Option Result) : (newItem step).claim = none ∧ (newItem step).taskId = none ∧ (newItem step).attempts = 0 ∧
    (newItem step).status ≠ .running ∧ (newItem step).status ≠ .unknown := by
  unfold newItem
  split
  · exact ⟨rfl, rfl, rfl, nofun, nofun⟩
  · exact ⟨rfl, rfl, rfl, nofun, nofun⟩

theorem preflight_shape {digest : String} {steps : List (Kind × Option Result)} {batch : Batch} (frozen : preflight digest steps = .ok batch)
    (drawn : Nat) : Shape drawn batch := by
  simp only [preflight, bind_ok, pure_ok] at frozen
  obtain ⟨_, _, rfl⟩ := frozen
  have fresh : ∀ {place : Nat} {item : Item}, (steps.map newItem)[place]? = some item → ∃ step, item = newItem step := by
    intro place item there
    obtain ⟨step, _, rfl⟩ := List.mem_map.mp (List.mem_of_getElem? there)
    exact ⟨step, rfl⟩
  constructor
  · intro place other item item' there _ runs
    obtain ⟨step, rfl⟩ := fresh there
    exact absurd runs (newItem_fresh step).2.2.2.1
  · intro place item there runs
    obtain ⟨step, rfl⟩ := fresh there
    exact absurd runs (newItem_fresh step).2.2.2.1
  · intro place item there open'
    obtain ⟨step, rfl⟩ := fresh there
    exact absurd open' (newItem_fresh step).2.2.2.2
  · intro place item claim there own
    obtain ⟨step, rfl⟩ := fresh there
    rw [(newItem_fresh step).1] at own
    cases own
  · intro place item there _
    obtain ⟨step, rfl⟩ := fresh there
    exact ⟨(newItem_fresh step).2.1, fun _ => (newItem_fresh step).2.2.1⟩

theorem Sound.newBatch (sound : Sound state) (shape : Shape (state.drawn + 1) row.data) :
    Sound { state.store state.drawn row with drawn := state.drawn + 1 } ∧
      RowsKept state { state.store state.drawn row with drawn := state.drawn + 1 } := by
  have stays : ∀ {other : Nat} {row' : Row Batch}, state.batches.get? other = some row' →
      (state.batches.set state.drawn row).get? other = some row' := by
    intro other row' found
    rw [Dict.get?_set_ne]
    · exact found
    · exact (sound.batches other row' found).1.ne
  refine ⟨⟨?_, ?_, ?_, ?_, ?_⟩, fun other row' found => ⟨row', stays found, .refl row'⟩⟩
  · intro other row' found
    rw [State.store, Dict.get?_set] at found
    split at found
    · rename_i same
      subst same
      obtain rfl := Option.some.inj found
      exact ⟨Nat.lt_succ_self _, shape⟩
    · exact sound.draw.batches other row' found
  · intro task original stored
    obtain ⟨drawn, owned⟩ := sound.draw.tasks task original stored
    refine ⟨drawn, ?_⟩
    intro owner index own
    obtain ⟨row', item, found, rest⟩ := owned owner index own
    exact ⟨row', item, stays found, rest⟩
  · intro claim dispatch called
    obtain ⟨row', item, known⟩ := sound.draw.dispatches claim dispatch called
    exact ⟨row', item, stays known.found, known.there, known.kind, known.active, known.drawn, known.image, known.entered, known.working, known.task⟩
  · intro call member
    obtain ⟨row', found, rest⟩ := sound.calls call member
    exact ⟨row', stays found, rest⟩
  · intro call member
    obtain ⟨row', found, rest⟩ := sound.reconciles call member
    exact ⟨row', stays found, rest⟩

theorem Sound.withCalls (sound : Sound state) (calls : List Admitted) (known : ∀ call ∈ calls, call ∈ state.calls ∨
    ∃ row, state.batches.get? call.batch = some row ∧ call.expected ≤ row.version ∧ (row.version = call.expected → Checked row.data call.request)) :
    Sound { state with calls } where
  batches := sound.batches
  tasks := sound.tasks
  dispatches := by
    intro claim dispatch called
    obtain ⟨row, item, known⟩ := sound.dispatches claim dispatch called
    exact ⟨row, item, known.found, known.there, known.kind, known.active, known.drawn, known.image, known.entered, known.working, known.task⟩
  calls := fun call member => (known call member).elim (sound.calls call) id
  reconciles := sound.reconciles

theorem checkRequest_ok {request : Request} (checked : checkRequest row expected request = .ok ()) :
    expected = row.version ∧ Checked row.data request := by
  cases request with
  | confirm digest =>
    simp only [checkRequest, checkConfirm, bind_ok, checkVersion_ok, reject_ok, Bool.or_eq_false_iff, decide_eq_false_iff_not, not_not] at checked
    obtain ⟨_, same, _, ⟨status, digest⟩, _⟩ := checked
    exact ⟨same, status, digest⟩
  | stop =>
    simp only [checkRequest, checkStop, bind_ok, checkVersion_ok, reject_ok, Bool.or_eq_false_iff, decide_eq_false_iff_not] at checked
    obtain ⟨_, same, completed, cancelled⟩ := checked
    exact ⟨same, completed, cancelled⟩
  | retryFailed =>
    simp only [checkRequest, checkRetryFailed, bind_ok, checkVersion_ok, reject_ok, Bool.or_eq_false_iff, decide_eq_false_iff_not, not_not] at checked
    obtain ⟨_, same, _, ⟨⟨status, _⟩, _⟩, _⟩ := checked
    exact ⟨same, status⟩

theorem moved_request {request : Request} {owner : Except Failure Unit} {later : Row Batch} (sound : Sound state)
    (found : state.batches.get? rid = some row) (checked : row.version = expected → Checked row.data request)
    (done : commitRequest row expected owner request = .ok later) : Moved state rid row later := by
  cases request with
  | confirm digest => exact moved_confirm sound found checked done
  | stop => exact moved_stop sound found done
  | retryFailed => exact moved_retryFailed sound found checked done

theorem Sound.withReconciles {reconciles : List Reconciling} (sound : Sound state) (known : ∀ call ∈ reconciles, call ∈ state.reconciles ∨
    ∃ row, state.batches.get? call.batch = some row ∧ call.row.version ≤ row.version ∧
      (row.version = call.row.version → ReadingSound state.tasks state.dispatches call row)) : Sound { state with reconciles } where
  batches := sound.batches
  tasks := sound.tasks
  dispatches := by
    intro claim dispatch called
    obtain ⟨row, item, known⟩ := sound.dispatches claim dispatch called
    exact ⟨row, item, known.found, known.there, known.kind, known.active, known.drawn, known.image, known.entered, known.working, known.task⟩
  calls := sound.calls
  reconciles := fun call member => (known call member).elim (sound.reconciles call) id

/-- A call of `reconcile` goes on. -/
theorem Sound.onReconcile {before after : List Reconciling} {call later : Reconciling} (sound : Sound state)
    (calls : state.reconciles = before ++ call :: after) (same : later.batch = call.batch ∧ later.row = call.row)
    (known : ∀ row, state.batches.get? call.batch = some row → ReadingSound state.tasks state.dispatches call row →
      ReadingSound state.tasks state.dispatches later row) : Sound { state with reconciles := before ++ later :: after } := by
  apply sound.withReconciles
  intro other member
  rcases List.mem_append.mp member with member | member
  · left
    rw [calls]
    exact List.mem_append_left _ member
  · rcases List.mem_cons.mp member with rfl | member
    · right
      obtain ⟨row, found, older, reading⟩ := sound.reconciles call (calls ▸ List.mem_append_right _ (List.mem_cons_self ..))
      rw [same.1, same.2]
      exact ⟨row, found, older, fun version => known row found (reading version)⟩
    · left
      rw [calls]
      exact List.mem_append_right _ (List.mem_cons_of_mem _ member)

theorem reconcileImage_ok {receipt : Receipt} {change : Change} (found : reconcileImage index receipt = some change) : change.index = index := by
  unfold reconcileImage at found
  split at found <;> cases found <;> rfl

theorem reconcileTask_ok {bytes : Nat} {task : Task} {ledger : Option Ledger} {change : Change} (found : reconcileTask index bytes task ledger = some change) :
    change.index = index ∧ change.result.bind Result.imageJob = none ∧
      (change.completed = false → task.status ≠ .running ∧ task.status ≠ .succeeded) := by
  unfold reconcileTask at found
  split at found
  · obtain rfl := Option.some.inj found
    exact ⟨rfl, rfl, nofun⟩
  · rename_i status
    obtain rfl := Option.some.inj found
    rw [status]
    exact ⟨rfl, rfl, fun _ => ⟨nofun, nofun⟩⟩
  · rename_i status
    obtain rfl := Option.some.inj found
    rw [status]
    exact ⟨rfl, rfl, fun _ => ⟨nofun, nofun⟩⟩
  · rename_i status
    split at found
    · obtain rfl := Option.some.inj found
      rw [status]
      exact ⟨rfl, rfl, fun _ => ⟨nofun, nofun⟩⟩
    · cases found
  · cases found

theorem reconcileItem_ok {actor : String} {receipt : Receipt} {change : Change}
    (inspected : reconcileItem actor rid row index item receipt = .ok (some change)) : change.index = index ∧
    (item.kind.isMedia = true → change.result.bind Result.imageJob = none ∧ ∃ taskId task, item.taskId = some taskId ∧ receipt.task = .ok task ∧
      task.safeBatch = some (rid, index) ∧ (change.completed = false → task.status ≠ .running ∧ task.status ≠ .succeeded)) := by
  unfold reconcileItem at inspected
  split at inspected
  · rename_i image
    refine ⟨reconcileImage_ok (pure_ok.mp inspected), ?_⟩
    intro media
    rw [image] at media
    cases media
  · split at inspected
    · cases inspected
    · rename_i taskId own
      simp only [bind_ok, reject_ok, decide_eq_false_iff_not, not_not] at inspected
      obtain ⟨task, reads, _, safeBatch, inspected⟩ := inspected
      have settles : ∃ ledger, reconcileTask index receipt.bytes task ledger = some change := by
        split at inspected
        · exact ⟨none, pure_ok.mp inspected⟩
        · obtain ⟨ledger, _, inspected⟩ := bind_ok.mp inspected
          obtain ⟨settled, _, inspected⟩ := bind_ok.mp inspected
          split at inspected
          · exact ⟨some ledger, pure_ok.mp inspected⟩
          · cases inspected
      obtain ⟨ledger, settles⟩ := settles
      obtain ⟨place, image, status⟩ := reconcileTask_ok settles
      exact ⟨place, fun _ => ⟨image, taskId, task, own, reads, safeBatch, status⟩⟩

theorem mediaGet_ok {taskId : Nat} {tasks : Nat → Option (Row Task)} {task : Row Task} (reads : mediaGet row rid taskId tasks = .ok task) :
    tasks taskId = some task ∧ ∀ owner place, task.data.safeBatch = some (owner, place) →
      owner = rid ∧ ∃ item, row.data.items[place]? = some item ∧ item.taskId = some taskId := by
  simp only [mediaGet, bind_ok, fetch_ok] at reads
  obtain ⟨found, stored, reads⟩ := reads
  split at reads
  · rename_i none
    obtain rfl := pure_ok.mp reads
    refine ⟨stored, ?_⟩
    intro owner place own
    rw [none] at own
    cases own
  · rename_i owner place own
    simp only [bind_ok, reject_ok, Bool.or_eq_false_iff, decide_eq_false_iff_not, not_not, pure_ok] at reads
    obtain ⟨_, ⟨⟨same, _⟩, visible⟩, rfl⟩ := reads
    refine ⟨stored, ?_⟩
    intro owner' place' own'
    obtain ⟨rfl, rfl⟩ := Prod.mk.inj (Option.some.inj (own.symm.trans own'))
    exact ⟨same, Option.bind_eq_some_iff.mp visible⟩

/-- What a reconciliation has inspected holds of the item, while the row is the one that it read. -/
theorem reconcileItem_sound {call : Reconciling} {actor : String} {bytes : Nat} {imageJob : Option (Nat × ImageStatus)} {ledger : Option Ledger}
    {change : Change} (reading : ReadingSound state.tasks state.dispatches call row)
    (there : call.row.data.items[call.index]? = some item) (open' : unsettled item = true) (cleared : call.cleared = true)
    (inspected : reconcileItem actor call.batch call.row call.index item
      ⟨imageJob, bytes, (fetch item.taskId (.other "KeyError") >>= fun task => Row.data <$> mediaGet row call.batch task state.tasks.get?), ledger⟩ =
        .ok (some change)) : ∃ now, ChangeSound state.tasks state.dispatches call.batch row.data change now := by
  obtain ⟨now, there', status, _, kind⟩ := reading.agrees.there there
  obtain ⟨place, media⟩ := reconcileItem_ok inspected
  refine ⟨now, place ▸ there', ?_, reading.cleared cleared now there', ?_, ?_⟩
  · unfold unsettled at open' ⊢
    rw [status]
    exact open'
  · intro isMedia
    exact (media (kind ▸ isMedia)).1
  · intro isMedia failed task own
    obtain ⟨_, taskId, read, ownRead, reads, safeBatch, notDone⟩ := media (kind ▸ isMedia)
    obtain ⟨taskId', ownRead', reads⟩ := bind_ok.mp reads
    obtain rfl := Option.some.inj (ownRead.symm.trans (fetch_ok.mp ownRead'))
    cases got : mediaGet row call.batch taskId state.tasks.get? with
    | error failure =>
      rw [got] at reads
      cases reads
    | ok original =>
      rw [got] at reads
      obtain rfl : original.data = read := Except.ok.inj reads
      obtain ⟨stored, visible⟩ := mediaGet_ok got
      obtain ⟨_, now', again, own'⟩ := visible _ _ safeBatch
      obtain rfl := Option.some.inj (there'.symm.trans again)
      obtain rfl := Option.some.inj (own.symm.trans own')
      exact ⟨original, stored, place ▸ safeBatch, notDone failed⟩

theorem checkDispatch_ok (checked : checkDispatch row expected = .ok (index, item)) : expected = row.version ∧
    (row.data.status = .ready ∨ row.data.status = .partially) ∧ row.data.confirmed = true ∧ row.data.items[index]? = some item ∧
    item.status = .pending := by
  simp only [checkDispatch, bind_ok, checkVersion_ok, reject_ok, fetch_ok, pure_ok, Bool.or_eq_false_iff, Bool.not_eq_false',
    Bool.and_eq_false_iff, decide_eq_false_iff_not, not_not] at checked
  obtain ⟨_, same, _, ⟨status, confirmed⟩, first, there, _, _, pair⟩ := checked
  obtain ⟨rfl, rfl⟩ := Prod.mk.inj pair
  refine ⟨same, status, confirmed, there, ?_⟩
  obtain ⟨bound, rfl⟩ := List.getElem?_eq_some_iff.mp there
  simpa using List.findIdx_getElem (w := bound)

/-- A call of `dispatch` stands in its item. -/
theorem Sound.standing (sound : Sound state) (called : state.dispatches.get? claim = some dispatch)
    (found : state.batches.get? dispatch.batch = some row) : ∃ item, DispatchSound state claim dispatch row item := by
  obtain ⟨row', item, known⟩ := sound.dispatches claim dispatch called
  obtain rfl := Option.some.inj (found.symm.trans known.found)
  exact ⟨item, known⟩

theorem DispatchSound.works (known : DispatchSound state claim dispatch row item) (late : dispatch.phase ≠ .entered)
    (passed : checkGuard row dispatch.index claim = .ok ()) : Working claim dispatch.phase item := by
  obtain ⟨_, item', there, own, runs⟩ := checkGuard_ok passed
  obtain rfl := Option.some.inj (known.there.symm.trans there)
  rcases known.working late with cancelled | working
  · rw [cancelled] at runs
    cases runs
  · exact working

theorem DispatchSound.later {phase : Phase} (known : DispatchSound state claim dispatch row item) (late : dispatch.phase ≠ .entered)
    (late' : phase ≠ .entered) (image : phase = .intended → dispatch.kind = .studioImage)
    (early : phase = .started ∨ phase = .guarded → dispatch.phase = .started ∨ dispatch.phase = .guarded)
    (holds : ∀ task, phase.holds task → dispatch.phase.holds task) : DispatchSound state claim { dispatch with phase } row item where
  found := known.found
  there := known.there
  kind := known.kind
  active := known.active
  drawn := known.drawn
  image := image
  entered := fun entered => absurd entered late'
  working := fun _ => (known.working late).imp_right fun working =>
    ⟨working.running, working.own, fun before => working.early (early before), fun task held => working.held task (holds task held)⟩
  task := fun task held => known.task task (holds task held)

theorem Sound.later {phase : Phase} (sound : Sound state) (called : state.dispatches.get? claim = some dispatch)
    (late : dispatch.phase ≠ .entered) (late' : phase ≠ .entered) (image : phase = .intended → dispatch.kind = .studioImage)
    (early : phase = .started ∨ phase = .guarded → dispatch.phase = .started ∨ dispatch.phase = .guarded)
    (holds : ∀ task, phase.holds task → dispatch.phase.holds task) : Sound (state.proceed claim dispatch phase) := by
  obtain ⟨row, item, known⟩ := sound.dispatches claim dispatch called
  exact sound.proceed called (known.later late late' image early holds) holds

theorem called_proceed (state : State) (claim : Nat) (dispatch : Dispatch) (phase : Phase) :
    (state.proceed claim dispatch phase).dispatches.get? claim = some { dispatch with phase } := Dict.get?_set_self ..

/-- A row that is stored by a call of `dispatch` that goes on. -/
theorem Sound.store_proceed {later : Row Batch} {phase : Phase} (sound : Sound state) (called : state.dispatches.get? claim = some dispatch)
    (found : state.batches.get? dispatch.batch = some row) (moved : Moved state dispatch.batch row later)
    (known : ∀ item', later.data.items[dispatch.index]? = some item' → DispatchSound (state.store dispatch.batch later) claim dispatch later item' →
      DispatchSound (state.store dispatch.batch later) claim { dispatch with phase } later item')
    (holds : ∀ task, phase.holds task → dispatch.phase.holds task) :
    Sound ((state.store dispatch.batch later).proceed claim dispatch phase) ∧
      RowsKept state ((state.store dispatch.batch later).proceed claim dispatch phase) := by
  have stored := sound.store found moved
  have here : (state.store dispatch.batch later).batches.get? dispatch.batch = some later := Dict.get?_set_self ..
  have called' : (state.store dispatch.batch later).dispatches.get? claim = some dispatch := called
  obtain ⟨item', known'⟩ := stored.standing called' here
  exact ⟨stored.proceed called' (known item' known'.there known') holds, moved.rows found⟩

theorem start_sound {later : Row Batch} (sound : Sound state) (called : state.dispatches.get? claim = some dispatch) (phase : dispatch.phase = .entered)
    (found : state.batches.get? dispatch.batch = some row) (done : start row dispatch.expected dispatch.index claim = .ok later) :
    Sound ((state.store dispatch.batch later).proceed claim dispatch .started) ∧
      RowsKept state ((state.store dispatch.batch later).proceed claim dispatch .started) := by
  obtain ⟨item, known⟩ := sound.standing called found
  have checked := (known.entered phase).2
  obtain ⟨version, _, _, _, _, items⟩ := start_ok done
  obtain ⟨item', there', move⟩ := items.there known.there
  rw [if_pos rfl] at move
  refine sound.store_proceed called found (moved_start sound found known.there known.drawn checked done) ?_ nofun
  intro other there known'
  obtain rfl := Option.some.inj (there'.symm.trans there)
  refine ⟨known'.found, there', known'.kind, known.active, known.drawn, nofun, nofun, ?_, nofun⟩
  intro _
  subst move
  exact .inr ⟨rfl, rfl, fun _ => ((sound.batches _ _ found).2.fresh _ _ known.there (checked version).1).1, nofun⟩

theorem bindTask_sound {later : Row Batch} {actor : String} (sound : Sound state) (called : state.dispatches.get? claim = some dispatch)
    (phase : dispatch.phase = .guarded) (kind : dispatch.kind.isMedia = true) (found : state.batches.get? dispatch.batch = some row)
    (done : bindTask row dispatch.index claim state.drawn (reservationOf dispatch) = .ok later) :
    Sound { (state.store dispatch.batch later).proceed claim dispatch (.bound state.drawn) with
      tasks := state.tasks.set state.drawn (newRow actor ⟨some (dispatch.batch, dispatch.index), .queued, none⟩)
      drawn := state.drawn + 1 } ∧ RowsKept state (state.store dispatch.batch later) := by
  obtain ⟨passed, noted⟩ := bindTask_ok done
  obtain ⟨item, known⟩ := sound.standing called found
  have late : dispatch.phase ≠ .entered := by
    rw [phase]
    decide
  have working := known.works late passed
  have unbound := working.early (.inr phase)
  have same : ((state.proceed claim dispatch .raised).dispatches.set claim { dispatch with phase := .bound state.drawn }) =
      state.dispatches.set claim { dispatch with phase := .bound state.drawn } := Dict.set_set ..
  have fresh : state.tasks.get? state.drawn = none := by
    cases stored : state.tasks.get? state.drawn with
    | none => rfl
    | some original => exact absurd (sound.tasks _ _ stored).1 (lt_irrefl _)
  -- the item takes its task while its call holds none, and only then is the task stored and held
  have raised : Sound (state.proceed claim dispatch .raised) := sound.later called late nofun nofun nofun nofun
  have called' := called_proceed state claim dispatch .raised
  have moved : Moved (state.proceed claim dispatch .raised) dispatch.batch row later := by
    apply moved_noted raised found called' passed noted
    · exact fun _ => ⟨rfl, rfl, rfl, rfl⟩
    · exact fun item works => ⟨works.running, works.own, nofun, nofun⟩
    · intro item' task there' _ runs before
      obtain rfl := Option.some.inj (known.there.symm.trans there')
      cases before with
      | cancelled cancelled =>
        rw [runs] at cancelled
        cases cancelled
      | dead dead => exact .dead dead
      | own own _ _ =>
        rw [unbound] at own
        cases own
  refine ⟨?_, moved.rows found⟩
  have stored := (raised.store found moved).draw
  have here : (state.batches.set dispatch.batch later).get? dispatch.batch = some later := Dict.get?_set_self ..
  obtain ⟨item', known'⟩ := stored.standing called' here
  obtain ⟨item'', there'', move⟩ := noted.items.there known.there
  obtain rfl := Option.some.inj (known'.there.symm.trans there'')
  rw [if_pos rfl] at move
  have running : item'.status = .running := by
    rw [move]
    exact working.running
  have taken : item'.taskId = some state.drawn := by rw [move]
  have queued := stored.setTask state.drawn (newRow actor ⟨some (dispatch.batch, dispatch.index), .queued, none⟩) (Nat.lt_succ_self state.drawn)
    (fun original there => by cases fresh.symm.trans there)
    (fun rid index own => by
      obtain ⟨rfl, rfl⟩ := Prod.mk.inj (Option.some.inj own)
      exact .inr ⟨fresh, later, item', here, there'', by rw [known'.kind]; exact kind, taken, running⟩)
  have held := queued.setDispatch claim { dispatch with phase := .bound state.drawn } later item'
    ⟨here, there'', known'.kind, known'.active, known'.drawn, nofun, nofun,
      fun _ => .inr ⟨running, by rw [move]; exact working.own, nofun, fun task holds => holds ▸ taken⟩,
      fun task holds => by
        obtain rfl : state.drawn = task := holds
        exact ⟨_, Dict.get?_set_self .., rfl⟩⟩
    (fun task holds => .inr ⟨running, holds ▸ taken⟩)
    (fun absent => by cases called'.symm.trans absent)
  dsimp only [State.proceed, State.store] at same held ⊢
  rw [same] at held
  exact held

theorem intendImage_sound {later : Row Batch} (sound : Sound state) (called : state.dispatches.get? claim = some dispatch)
    (phase : dispatch.phase = .guarded) (kind : dispatch.kind = .studioImage) (found : state.batches.get? dispatch.batch = some row)
    (done : intendImage row dispatch.index claim = .ok later) :
    Sound ((state.store dispatch.batch later).proceed claim dispatch .intended) ∧
      RowsKept state ((state.store dispatch.batch later).proceed claim dispatch .intended) := by
  obtain ⟨passed, noted⟩ := intendImage_ok done
  have late : dispatch.phase ≠ .entered := by
    rw [phase]
    decide
  refine sound.store_proceed called found ?_ (fun item _ known => known.later late nofun (fun _ => kind) nofun nofun) nofun
  apply moved_noted sound found called passed noted
  · exact fun _ => ⟨rfl, rfl, rfl, rfl⟩
  · exact fun item working => ⟨working.running, working.own, working.early, working.held⟩
  · intro item task _ _ _ before
    cases before with
    | cancelled cancelled => exact .cancelled cancelled
    | dead dead => exact .dead dead
    | own own unfailed begun => exact .own own unfailed begun

theorem bindImage_sound {later : Row Batch} {job : Nat} (sound : Sound state) (called : state.dispatches.get? claim = some dispatch)
    (phase : dispatch.phase = .intended) (found : state.batches.get? dispatch.batch = some row)
    (done : bindImage row dispatch.index claim job = .ok later) :
    Sound ((state.store dispatch.batch later).proceed claim dispatch (.created job)) ∧
      RowsKept state ((state.store dispatch.batch later).proceed claim dispatch (.created job)) := by
  obtain ⟨passed, noted⟩ := bindImage_ok done
  obtain ⟨item, known⟩ := sound.standing called found
  have late : dispatch.phase ≠ .entered := by
    rw [phase]
    decide
  refine sound.store_proceed called found ?_ (fun item _ known => known.later late nofun nofun nofun nofun) nofun
  apply moved_noted sound found called passed noted
  · exact fun _ => ⟨rfl, rfl, rfl, rfl⟩
  · intro item working
    rw [phase] at working ⊢
    exact ⟨working.running, working.own, nofun, nofun⟩
  · intro item' task there' media _ _
    obtain rfl := Option.some.inj (known.there.symm.trans there')
    rw [known.kind, known.image phase] at media
    cases media

theorem finish_sound {later : Row Batch} {result : Result} (sound : Sound state)
    (found : state.batches.get? dispatch.batch = some row) (done : finish row state.ledger dispatch.index claim result = .ok later) :
    Sound ((state.store dispatch.batch later).leave claim) ∧ RowsKept state ((state.store dispatch.batch later).leave claim) := by
  obtain ⟨passed, version, digest, _, status, items⟩ := finish_ok done
  obtain ⟨_, item, there, own, _⟩ := checkGuard_ok passed
  have moved : Moved (state.leave claim) dispatch.batch row later := by
    refine moved_settled (sound.leave claim) found there own (Dict.get?_erase_self ..) version digest items ?_ ?_ ?_
    · rintro status (rfl | rfl)
      · exact ⟨nofun, nofun⟩
      · exact ⟨nofun, nofun⟩
    · intro after there' open'
      rw [status, settledStatus, if_pos]
      exact List.any_eq_true.mpr ⟨after, List.mem_of_getElem? there', decide_eq_true open'⟩
    · rintro _ _ _ _ _ (failed | failed) <;> cases failed
  exact ⟨(sound.leave claim).store found moved, moved.rows found⟩

theorem fail_sound {later : Row Batch} (sound : Sound state)
    (found : state.batches.get? dispatch.batch = some row)
    (done : fail row (taskStatus state.tasks) (fun reservation => (state.ledger reservation).map Ledger.status) dispatch.kind dispatch.index claim =
      .ok later) :
    Sound ((state.store dispatch.batch later).leave claim) ∧ RowsKept state ((state.store dispatch.batch later).leave claim) := by
  rcases fail_ok done with rfl | ⟨item, there, running, own, failed⟩
  · have same : state.store dispatch.batch later = state := by
      rw [State.store, Dict.set_eq_self found]
    rw [same]
    exact ⟨sound.leave claim, RowsKept.refl state⟩
  · have moved : Moved (state.leave claim) dispatch.batch row later := by
      refine moved_settled (sound.leave claim) found there own (Dict.get?_erase_self ..) failed.version failed.digest failed.items ?_ ?_ ?_
      · rintro status rfl
        split
        · exact ⟨by rintro ⟨⟩, by rintro ⟨⟩⟩
        · exact ⟨by rintro ⟨⟩, by rintro ⟨⟩⟩
      · intro after there' open'
        obtain ⟨_, again, move⟩ := failed.items.back there'
        rw [if_pos rfl] at move
        have status := move.status
        rw [open'] at status
        split at status
        · rename_i unknown
          rw [failed.status, if_pos unknown]
        · cases status
      · intro task original stored media taskId fails
        split at fails
        · cases fails
        · rename_i known
          rw [taskId] at known
          have status : taskStatus state.tasks task = some original.data.status := by
            rw [taskStatus, show state.tasks.get? task = some original from stored]
            rfl
          simp only [outcomeUnknown, Option.bind_some, status, Bool.or_eq_true, decide_eq_true_eq, Option.some.injEq, not_or] at known
          exact ⟨known.1.1.1.2, known.1.1.2⟩
    exact ⟨(sound.leave claim).store found moved, moved.rows found⟩

/-- A call of `dispatch` enters `ACTIVE`. -/
theorem enter_sound (sound : Sound state) (found : state.batches.get? rid = some row) (checked : checkDispatch row expected = .ok (index, item)) :
    Sound { state with
      active := state.drawn :: state.active
      dispatches := state.dispatches.set state.drawn ⟨rid, expected, index, item.kind, item.attempts, .entered⟩
      drawn := state.drawn + 1 } := by
  obtain ⟨same, status, confirmed, there, pending⟩ := checkDispatch_ok checked
  have drawn := sound.draw
  have listed : Sound { state with active := state.drawn :: state.active, drawn := state.drawn + 1 } := by
    refine ⟨drawn.batches, drawn.tasks, ?_, drawn.calls, drawn.reconciles⟩
    intro claim dispatch called
    obtain ⟨row, item, known⟩ := drawn.dispatches claim dispatch called
    exact ⟨row, item, known.found, known.there, known.kind, List.mem_cons_of_mem _ known.active, known.drawn, known.image, known.entered,
      known.working, known.task⟩
  refine listed.setDispatch state.drawn ⟨rid, expected, index, item.kind, item.attempts, .entered⟩ row item
    ⟨found, there, rfl, List.mem_cons_self .., Nat.lt_succ_self _, nofun, fun _ => ⟨same.le, fun _ => ⟨pending, status, confirmed⟩⟩,
      fun late => absurd rfl late, nofun⟩ nofun ?_
  intro _ other row' place item' found' there' own
  exact absurd ((sound.batches other row' found').2.claims place item' _ there' own).2 (lt_irrefl _)

theorem claimTask_ok {original stored : Row Task} {expected token : Nat} {guarded : Bool} (done : claimTask original expected token guarded = .ok stored) :
    stored.data.safeBatch = original.data.safeBatch ∧ (guarded = false → original.data.safeBatch = none) := by
  simp only [claimTask, bind_ok, reject_ok, advance_ok] at done
  obtain ⟨_, own, _, _, rfl, rfl⟩ := done
  refine ⟨rfl, ?_⟩
  rintro rfl
  simpa using own

@[simp] theorem settleTask_safeBatch (original : Row Task) (token : Nat) (status : TaskStatus) :
    (settleTask original token status).data.safeBatch = original.data.safeBatch := by
  unfold settleTask
  split <;> rfl

theorem transitionTask_ok {original stored : Row Task} {expected : Nat} {action : TaskAction} {live : List Nat}
    (done : transitionTask original expected action live = .ok stored) :
    stored.data.safeBatch = original.data.safeBatch ∧ original.data.safeBatch = none := by
  obtain ⟨_, own, done⟩ := bind_ok.mp done
  have none : original.data.safeBatch = none := by simpa using reject_ok.mp own
  cases action with
  | cancel =>
    simp only [bind_ok, advance_ok] at done
    obtain ⟨_, _, rfl, rfl⟩ := done
    exact ⟨rfl, none⟩
  | retry =>
    simp only [bind_ok, advance_ok] at done
    obtain ⟨_, _, rfl, rfl⟩ := done
    exact ⟨rfl, none⟩

/-- A task that a call of `dispatch` holds changes. -/
theorem Sound.heldTask {task : Nat} {original stored : Row Task} (sound : Sound state) (called : state.dispatches.get? claim = some dispatch)
    (holds : dispatch.phase.holds task) (reads : state.tasks.get? task = some original) (same : stored.data.safeBatch = original.data.safeBatch) :
    Sound { state with tasks := state.tasks.set task stored } := by
  refine sound.setTask task stored (sound.tasks task original reads).1 ?_ fun _ _ _ => .inl ⟨original, claim, dispatch, reads, called, holds⟩
  intro other there
  obtain rfl := Option.some.inj (reads.symm.trans there)
  exact same

/-- A task that `media.execute` has claimed for a call of `dispatch` settles. -/
theorem settle_sound {task token : Nat} {original : Row Task} (sound : Sound state) (called : state.dispatches.get? claim = some dispatch)
    (phase : dispatch.phase = .executing task token) (reads : state.tasks.get? task = some original) (status : TaskStatus) :
    Sound { state with tasks := state.tasks.set task (settleTask original token status) } := by
  refine sound.heldTask called ?_ reads (settleTask_safeBatch ..)
  rw [phase]
  rfl

theorem Sound.ordinaryTask {task : Nat} {original stored : Row Task} (sound : Sound state) (reads : state.tasks.get? task = some original)
    (same : stored.data.safeBatch = original.data.safeBatch) (none : original.data.safeBatch = none) :
    Sound { state with tasks := state.tasks.set task stored } := by
  refine sound.setTask task stored (sound.tasks task original reads).1 ?_ ?_
  · intro other there
    obtain rfl := Option.some.inj (reads.symm.trans there)
    exact same
  · intro rid index own
    rw [same, none] at own
    cases own

theorem commit_sound {admitted : Admitted} {later : Row Batch} {owner : Except Failure Unit} (sound : Sound state) (admits : admitted ∈ state.calls)
    (found : state.batches.get? admitted.batch = some row) (done : commitRequest row admitted.expected owner admitted.request = .ok later) :
    Sound { state.store admitted.batch later with calls := state.calls.erase admitted } ∧
      RowsKept state { state.store admitted.batch later with calls := state.calls.erase admitted } := by
  have fewer := sound.withCalls (state.calls.erase admitted) fun call member => .inl (List.mem_of_mem_erase member)
  obtain ⟨row, found', _, checked⟩ := sound.calls admitted admits
  obtain rfl := Option.some.inj (found.symm.trans found')
  have moved := moved_request fewer found checked done
  exact ⟨fewer.store found moved, moved.rows found⟩

/-- A claim that is not in `ACTIVE` is the one of no call. -/
theorem cleared_quiet {call : Reconciling} (sound : Sound state) (reading : ReadingSound state.tasks state.dispatches call row)
    (there : call.row.data.items[call.index]? = some item) (inactive : ∀ claim, item.claim = some claim → claim ∉ state.active) (now : Item)
    (there' : row.data.items[call.index]? = some now) : Quiet state.dispatches now := by
  intro claim own
  have same := (reading.agrees.related _ _ _ there there').2.1
  cases called : state.dispatches.get? claim with
  | none => rfl
  | some dispatch =>
    obtain ⟨_, _, known⟩ := sound.dispatches claim dispatch called
    exact absurd known.active (inactive claim (same.symm.trans own))

theorem reconcileCommit_sound {before after : List Reconciling} {call : Reconciling} {later : Row Batch} (sound : Sound state)
    (calls : state.reconciles = before ++ call :: after) (found : state.batches.get? call.batch = some row)
    (done : reconcile row call.row.version call.changed = .ok later) :
    Sound { state.store call.batch later with reconciles := before ++ after } ∧
      RowsKept state { state.store call.batch later with reconciles := before ++ after } := by
  have fewer : Sound { state with reconciles := before ++ after } := by
    apply sound.withReconciles
    intro other member
    left
    rw [calls]
    rcases List.mem_append.mp member with member | member
    · exact List.mem_append_left _ member
    · exact List.mem_append_right _ (List.mem_cons_of_mem _ member)
  obtain ⟨row', found', _, reading⟩ := sound.reconciles call (calls ▸ List.mem_append_right _ (List.mem_cons_self ..))
  obtain rfl := Option.some.inj (found.symm.trans found')
  have moved := moved_reconcile fewer found (fun version => (reading version).changed) done
  exact ⟨fewer.store found moved, moved.rows found⟩

theorem late_of_eq {phase other : Phase} (same : phase = other) (late : other ≠ .entered) : phase ≠ .entered := same ▸ late

theorem Step.sound (sound : Sound state) (step : Step state label next) : Sound next ∧ RowsKept state next := by
  cases step with
  | preflight frozen => exact sound.newBatch (preflight_shape frozen _)
  | admits found checked =>
    refine ⟨sound.withCalls _ ?_, RowsKept.refl state⟩
    intro call member
    rcases List.mem_cons.mp member with rfl | member
    · obtain ⟨same, checks⟩ := checkRequest_ok checked
      exact .inr ⟨_, found, same.le, fun _ => checks⟩
    · exact .inl member
  | commit admits found done => exact commit_sound sound admits found done
  | reconcileRead found checked =>
    refine ⟨sound.withReconciles ?_, RowsKept.refl state⟩
    intro call member
    rcases List.mem_cons.mp member with rfl | member
    · refine .inr ⟨_, found, le_refl _, fun _ => ⟨.refl fun _ _ => ⟨rfl, rfl, rfl⟩, nofun, nofun⟩⟩
    · exact .inl member
  | reconcilePass calls there settled =>
    refine ⟨sound.onReconcile calls ⟨rfl, rfl⟩ ?_, RowsKept.refl state⟩
    exact fun row found reading => ⟨reading.agrees, nofun, reading.changed⟩
  | reconcileClear calls there open' inactive =>
    refine ⟨sound.onReconcile calls ⟨rfl, rfl⟩ ?_, RowsKept.refl state⟩
    intro row found reading
    have quiet := cleared_quiet sound reading there inactive
    exact ⟨reading.agrees, fun _ => quiet, reading.changed⟩
  | reconcileItem calls there open' cleared found inspected =>
    refine ⟨sound.onReconcile calls ⟨rfl, rfl⟩ ?_, RowsKept.refl state⟩
    intro row found' reading
    obtain rfl := Option.some.inj (found.symm.trans found')
    refine ⟨reading.agrees, nofun, ?_⟩
    intro change listed
    rcases List.mem_append.mp listed with listed | new
    · exact reading.changed change listed
    · obtain rfl := Option.mem_toList.mp new
      obtain ⟨now, known⟩ := reconcileItem_sound reading there open' cleared inspected
      exact ⟨now, known⟩
  | reconcileCommit calls ended found done => exact reconcileCommit_sound sound calls found done
  | enter found checked => exact ⟨enter_sound sound found checked, RowsKept.refl state⟩
  | start called phase found done => exact start_sound sound called phase found done
  | guard called phase found passed =>
    exact ⟨sound.later called (late_of_eq phase nofun) nofun nofun (fun _ => .inl phase) nofun, RowsKept.refl state⟩
  | produce called phase kind => exact ⟨sound.later called (late_of_eq phase nofun) nofun nofun nofun nofun, RowsKept.refl state⟩
  | bindTask called phase kind found done => exact bindTask_sound sound called phase kind found done
  | claimTask called phase found reads done =>
    have kept := (sound.heldTask called (by rw [phase]; rfl) (mediaGet_ok reads).1 (claimTask_ok done).1).draw
    exact ⟨kept.later called (late_of_eq phase nofun) nofun nofun nofun (fun task holds => by rw [phase]; exact holds), RowsKept.refl state⟩
  | succeedTask called phase reads running own =>
    exact ⟨(settle_sound sound called phase reads _).later called (late_of_eq phase nofun) nofun nofun nofun nofun, RowsKept.refl state⟩
  | failTask called phase reads =>
    exact ⟨(settle_sound sound called phase reads _).later called (late_of_eq phase nofun) nofun nofun nofun nofun, RowsKept.refl state⟩
  | intendImage called phase kind found done => exact intendImage_sound sound called phase kind found done
  | bindImage called phase found done => exact bindImage_sound sound called phase found done
  | executeImage called phase => exact ⟨sound.later called (late_of_eq phase nofun) nofun nofun nofun nofun, RowsKept.refl state⟩
  | raises called stage =>
    refine ⟨sound.later called ?_ nofun nofun nofun nofun, RowsKept.refl state⟩
    intro entered
    rw [entered] at stage
    cases stage
  | finish called phase found done => exact finish_sound sound found done
  | fail called phase found done => exact fail_sound sound found done
  | leave called outside => exact ⟨sound.leave _, RowsKept.refl state⟩
  | broker ledger =>
    refine ⟨⟨sound.batches, sound.tasks, ?_, sound.calls, sound.reconciles⟩, RowsKept.refl state⟩
    intro claim dispatch called
    obtain ⟨row, item, known⟩ := sound.dispatches claim dispatch called
    exact ⟨row, item, known.found, known.there, known.kind, known.active, known.drawn, known.image, known.entered, known.working, known.task⟩
  | queueTask =>
    refine ⟨sound.draw.setTask state.drawn _ (Nat.lt_succ_self _) ?_ nofun, RowsKept.refl state⟩
    intro original there
    exact absurd (sound.tasks _ _ there).1 (lt_irrefl _)
  | controlTask reads done => exact ⟨sound.ordinaryTask reads (transitionTask_ok done).1 (transitionTask_ok done).2, RowsKept.refl state⟩
  | executeTask reads done =>
    refine ⟨sound.ordinaryTask reads ?_ ((claimTask_ok done).2 rfl), RowsKept.refl state⟩
    rw [settleTask_safeBatch]
    exact (claimTask_ok done).1
  | crash => exact ⟨sound.crash, RowsKept.refl state⟩

end NovelStudio.Batches
