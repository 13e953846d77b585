import NovelStudio.Batches.Dispatches

/-! What each transaction makes of a batch and its items. -/

namespace NovelStudio.Batches

open Library Experimental

/-- Two lists of items of one length, related place by place. -/
structure Pointwise (relation : Nat → Item → Item → Prop) (before after : List Item) : Prop where
  length : after.length = before.length
  related : ∀ place item next, before[place]? = some item → after[place]? = some next → relation place item next

namespace Pointwise
variable {relation weaker : Nat → Item → Item → Prop} {before middle after : List Item} {place : Nat} {item next : Item}

theorem there (pointwise : Pointwise relation before after) (found : before[place]? = some item) :
    ∃ next, after[place]? = some next ∧ relation place item next := by
  have bound := (List.getElem?_eq_some_iff.mp found).1
  rw [← pointwise.length] at bound
  exact ⟨after[place], List.getElem?_eq_getElem bound, pointwise.related _ _ _ found (List.getElem?_eq_getElem bound)⟩

theorem back (pointwise : Pointwise relation before after) (found : after[place]? = some next) :
    ∃ item, before[place]? = some item ∧ relation place item next := by
  have bound := (List.getElem?_eq_some_iff.mp found).1
  rw [pointwise.length] at bound
  exact ⟨before[place], List.getElem?_eq_getElem bound, pointwise.related _ _ _ (List.getElem?_eq_getElem bound) found⟩

theorem mono (pointwise : Pointwise relation before after)
    (weaken : ∀ place item next, before[place]? = some item → relation place item next → weaker place item next) : Pointwise weaker before after :=
  ⟨pointwise.length, fun place item next found found' => weaken _ _ _ found (pointwise.related place item next found found')⟩

theorem refl (same : ∀ place item, relation place item item) : Pointwise relation before before := by
  refine ⟨rfl, ?_⟩
  intro place item next found found'
  obtain rfl := Option.some.inj (found.symm.trans found')
  exact same place item

variable {change : Item → Item}

theorem map (changes : ∀ place item, relation place item (change item)) :
    Pointwise relation before (before.map change) := by
  refine ⟨List.length_map _, ?_⟩
  intro place item next found found'
  rw [List.getElem?_map, found] at found'
  obtain rfl := Option.some.inj found'
  exact changes place item

theorem modify_there {index : Nat} (found : before[place]? = some item)
    (found' : (before.modify index change)[place]? = some next) : next = if index = place then change item else item := by
  rw [List.getElem?_modify, found] at found'
  exact (Option.some.inj found').symm

theorem modify {index : Nat} (changes : ∀ item, before[index]? = some item → relation index item (change item))
    (keeps : ∀ place item, place ≠ index → relation place item item) : Pointwise relation before (before.modify index change) := by
  refine ⟨List.length_modify _ _ _, ?_⟩
  intro place item next found found'
  obtain rfl := modify_there found found'
  by_cases same : index = place
  · subst same
    rw [if_pos rfl]
    exact changes item found
  · rw [if_neg same]
    exact keeps place item (Ne.symm same)

end Pointwise

variable {row next : Row Batch} {expected index claim : Nat}

@[simp] theorem item_ok {batch : Batch} {item : Item} : batch.item index = .ok item ↔ batch.items[index]? = some item := by
  simp [Batch.item]

theorem confirm_ok (done : confirm row expected = .ok next) : row.version = expected ∧ next.version = expected + 1 ∧
    next.data.snapshotDigest = row.data.snapshotDigest ∧ next.data.items = row.data.items ∧
    (next.data.status = .ready ∨ next.data.status = .completed) := by
  simp only [confirm, bind_ok, checkVersion_ok, advance_ok] at done
  obtain ⟨_, _, _, _, rfl, rfl⟩ := done
  refine ⟨rfl, rfl, rfl, rfl, ?_⟩
  dsimp only [bump]
  split
  · exact .inl rfl
  · exact .inr rfl

theorem start_ok (done : start row expected index claim = .ok next) : row.version = expected ∧ next.version = expected + 1 ∧
    next.data.snapshotDigest = row.data.snapshotDigest ∧ next.data.status = .running ∧ next.data.confirmed = row.data.confirmed ∧
    Pointwise (fun place item next => if place = index then
        next = { item with status := .running, claim := some claim, attempts := item.attempts + 1 } else next = item)
      row.data.items next.data.items := by
  simp only [start, bind_ok, checkVersion_ok, advance_ok] at done
  obtain ⟨_, _, _, _, _, _, rfl, rfl⟩ := done
  refine ⟨rfl, rfl, rfl, rfl, rfl, ?_⟩
  apply Pointwise.modify
  · intro item _
    rw [if_pos rfl]
  · intro place item other
    rw [if_neg other]

theorem checkGuard_ok (passed : checkGuard row index claim = .ok ()) :
    row.data.status = .running ∧ ∃ item, row.data.items[index]? = some item ∧ item.claim = some claim ∧ item.status = .running := by
  simp only [checkGuard, bind_ok, item_ok, reject_ok, Bool.or_eq_false_iff, decide_eq_false_iff_not, not_not] at passed
  obtain ⟨item, found, ⟨running, own⟩, runs⟩ := passed
  exact ⟨running, item, found, own, runs⟩

/-- The transactions in the middle of a stage: no new version, and only what an item knows of its original task changes. -/
structure Noted (index : Nat) (change : Item → Item) (row next : Row Batch) : Prop where
  version : next.version = row.version
  digest : next.data.snapshotDigest = row.data.snapshotDigest
  status : next.data.status = row.data.status
  confirmed : next.data.confirmed = row.data.confirmed
  items : Pointwise (fun place item next => if place = index then next = change item else next = item) row.data.items next.data.items

theorem noted_change (row : Row Batch) (index : Nat) (change : Item → Item) :
    Noted index change row { row with data := row.data.change index change } := by
  refine ⟨rfl, rfl, rfl, rfl, ?_⟩
  apply Pointwise.modify
  · intro item _
    rw [if_pos rfl]
  · intro place item other
    rw [if_neg other]

theorem bindTask_ok {task : Nat} {reservation : Option ReservationId} (done : bindTask row index claim task reservation = .ok next) :
    checkGuard row index claim = .ok () ∧ Noted index (fun item => { item with taskId := some task, reservationId := reservation }) row next := by
  simp only [bindTask, bind_ok, pure_ok] at done
  obtain ⟨_, passed, rfl⟩ := done
  exact ⟨passed, noted_change ..⟩

theorem intendImage_ok (done : intendImage row index claim = .ok next) :
    checkGuard row index claim = .ok () ∧ Noted index (fun item => { item with imageCreateIntent := true }) row next := by
  simp only [intendImage, bind_ok, pure_ok] at done
  obtain ⟨_, passed, _, _, _, _, rfl⟩ := done
  exact ⟨passed, noted_change ..⟩

theorem bindImage_ok {job : Nat} (done : bindImage row index claim job = .ok next) :
    checkGuard row index claim = .ok () ∧ Noted index (fun item => { item with imageJobId := some job, taskId := some job }) row next := by
  simp only [bindImage, bind_ok, pure_ok] at done
  obtain ⟨_, passed, rfl⟩ := done
  exact ⟨passed, noted_change ..⟩

structure Settled (status : ItemStatus → Prop) (item next : Item) : Prop where
  kind : next.kind = item.kind
  attempts : next.attempts = item.attempts
  taskId : next.taskId = item.taskId
  claim : next.claim = none
  status : status next.status

theorem finish_ok {ledgers : ReservationId → Option Ledger} {result : Result} (done : finish row ledgers index claim result = .ok next) :
    checkGuard row index claim = .ok () ∧ next.version = row.version + 1 ∧ next.data.snapshotDigest = row.data.snapshotDigest ∧
    next.data.confirmed = row.data.confirmed ∧ next.data.status = settledStatus next.data.items ∧
    Pointwise (fun place item next => if place = index then Settled (fun status => status = .completed ∨ status = .unknown) item next else next = item)
      row.data.items next.data.items := by
  simp only [finish, bind_ok, pure_ok] at done
  obtain ⟨_, _, _, passed, _, _, _, _, ledger, _, rfl⟩ := done
  refine ⟨passed, rfl, rfl, rfl, rfl, ?_⟩
  apply Pointwise.modify
  · intro item _
    rw [if_pos rfl]
    unfold finished
    dsimp only
    split
    · exact ⟨rfl, rfl, rfl, rfl, .inr rfl⟩
    · exact ⟨rfl, rfl, rfl, rfl, .inl rfl⟩
  · intro place item other
    rw [if_neg other]

/-- What `fail` writes, where the item is still the one of the dispatch. -/
structure Failed (unknown : Bool) (index : Nat) (row next : Row Batch) : Prop where
  version : next.version = row.version + 1
  digest : next.data.snapshotDigest = row.data.snapshotDigest
  confirmed : next.data.confirmed = row.data.confirmed
  status : next.data.status = if unknown then .unknown else .partially
  items : Pointwise (fun place item next => if place = index then Settled (· = if unknown then .unknown else .failed) item next else next = item)
    row.data.items next.data.items

theorem fail_ok {tasks : Nat → Option TaskStatus} {ledgers : ReservationId → Option LedgerStatus} {kind : Kind}
    (done : fail row tasks ledgers kind index claim = .ok next) : next = row ∨
    ∃ item, row.data.items[index]? = some item ∧ row.data.status = .running ∧ item.claim = some claim ∧
      Failed (outcomeUnknown kind (item.taskId.bind tasks) (item.reservationId.bind ledgers)) index row next := by
  simp only [fail, bind_ok, item_ok] at done
  obtain ⟨item, found, done⟩ := done
  split at done
  · rename_i own
    simp only [Bool.and_eq_true, decide_eq_true_eq] at own
    obtain rfl := pure_ok.mp done
    refine .inr ⟨item, found, own.1, own.2, rfl, rfl, rfl, rfl, ?_⟩
    apply Pointwise.modify
    · intro item _
      rw [if_pos rfl]
      exact ⟨rfl, rfl, rfl, rfl, rfl⟩
    · intro place item other
      rw [if_neg other]
  · exact .inl (pure_ok.mp done).symm

theorem stop_ok {owner : Except Failure Unit} (done : stop row expected owner = .ok next) : row.version = expected ∧ next.version = expected + 1 ∧
    next.data.snapshotDigest = row.data.snapshotDigest ∧ next.data.status = .cancelled ∧ next.data.confirmed = false ∧
    Pointwise (fun _ item next => if item.status = .pending ∨ item.status = .running then next = { item with status := .cancelled, claim := none }
      else next = item) row.data.items next.data.items := by
  simp only [stop, bind_ok, checkVersion_ok, advance_ok] at done
  obtain ⟨_, _, _, _, rfl, rfl⟩ := done
  refine ⟨rfl, rfl, rfl, rfl, rfl, ?_⟩
  apply Pointwise.map
  intro place item
  by_cases held : item.status = .pending ∨ item.status = .running
  · rw [if_pos held, if_pos (by simpa using held)]
  · rw [if_neg held, if_neg (by simpa using held)]

theorem retryFailed_ok (done : retryFailed row expected = .ok next) : row.version = expected ∧ next.version = expected + 1 ∧
    next.data.snapshotDigest = row.data.snapshotDigest ∧ next.data.status = .preflight ∧ next.data.confirmed = false ∧
    Pointwise (fun _ item next => if retried item then
        next = { item with status := .pending, claim := none, errorCode := none, taskId := none, reservationId := none } else next = item)
      row.data.items next.data.items := by
  simp only [retryFailed, advance_ok] at done
  obtain ⟨rfl, rfl⟩ := done
  refine ⟨rfl, rfl, rfl, rfl, rfl, ?_⟩
  apply Pointwise.map
  intro place item
  by_cases resets : retried item = true
  · rw [if_pos resets, if_pos resets]
  · rw [if_neg resets, if_neg resets]

/-- What a reconciliation makes of the item in a place. -/
inductive Reconciled (changed : List Change) (place : Nat) (item : Item) : Item → Prop where
  | kept (untouched : ∀ change ∈ changed, change.index ≠ place) : Reconciled changed place item item
  | changed {next : Item} {change : Change} (member : change ∈ changed) (same : change.index = place) (kind : next.kind = item.kind)
      (attempts : next.attempts = item.attempts) (claim : next.claim = none)
      (status : next.status = if change.completed then .completed else .failed)
      (taskId : next.taskId = item.taskId ∨ ∃ other ∈ changed, other.index = place ∧ other.result.bind Result.imageJob ≠ none) :
      Reconciled changed place item next

variable {changed : List Change}

theorem Reconciled.step {change : Change} {item next : Item} (before : Reconciled changed change.index item next) :
    Reconciled (changed ++ [change]) change.index item (reconciled change next) := by
  have here : change ∈ changed ++ [change] := List.mem_append_right _ (List.mem_singleton_self _)
  have kept : next.kind = item.kind ∧ next.attempts = item.attempts ∧
      (next.taskId = item.taskId ∨ ∃ other ∈ changed ++ [change], other.index = change.index ∧ other.result.bind Result.imageJob ≠ none) := by
    cases before with
    | kept _ => exact ⟨rfl, rfl, .inl rfl⟩
    | changed member same kind attempts claim status taskId =>
      refine ⟨kind, attempts, taskId.imp_right ?_⟩
      rintro ⟨other, member, same, image⟩
      exact ⟨other, List.mem_append_left _ member, same, image⟩
  cases image : change.result.bind Result.imageJob with
  | some job =>
    simp only [reconciled, image]
    refine .changed here rfl kept.1 kept.2.1 rfl rfl (.inr ⟨change, here, rfl, ?_⟩)
    rw [image]
    exact Option.some_ne_none _
  | none =>
    simp only [reconciled, image]
    exact .changed here rfl kept.1 kept.2.1 rfl rfl kept.2.2

theorem Reconciled.more {place : Nat} {item next : Item} (before : Reconciled changed place item next) {change : Change}
    (elsewhere : change.index ≠ place) : Reconciled (changed ++ [change]) place item next := by
  cases before with
  | kept untouched =>
    refine .kept ?_
    intro other member
    rcases List.mem_append.mp member with earlier | last
    · exact untouched other earlier
    · rwa [List.mem_singleton.mp last]
  | changed member same kind attempts claim status taskId =>
    refine .changed (List.mem_append_left _ member) same kind attempts claim status (taskId.imp_right ?_)
    rintro ⟨other, member, same, image⟩
    exact ⟨other, List.mem_append_left _ member, same, image⟩

theorem foldl_reconciled (changed : List Change) (items : List Item) :
    Pointwise (Reconciled changed) items (changed.foldl (fun items change => items.modify change.index (reconciled change)) items) := by
  induction changed using List.reverseRecOn with
  | nil => exact .refl fun _ _ => .kept nofun
  | append_singleton changed change ih =>
    rw [List.foldl_append, List.foldl_cons, List.foldl_nil]
    refine ⟨(List.length_modify _ _ _).trans ih.length, ?_⟩
    intro place item next found found'
    obtain ⟨middle, there, before⟩ := ih.there found
    obtain rfl := Pointwise.modify_there there found'
    by_cases same : change.index = place
    · subst same
      rw [if_pos rfl]
      exact before.step
    · rw [if_neg same]
      exact before.more same

theorem reconcile_ok (done : reconcile row expected changed = .ok next) : changed ≠ [] ∧ row.version = expected ∧
    next.version = expected + 1 ∧ next.data.snapshotDigest = row.data.snapshotDigest ∧ next.data.confirmed = row.data.confirmed ∧
    next.data.status = reconciledStatus row.data.status next.data.items ∧ Pointwise (Reconciled changed) row.data.items next.data.items := by
  simp only [reconcile, bind_ok, reject_ok, advance_ok] at done
  obtain ⟨_, some', rfl, rfl⟩ := done
  exact ⟨by simpa using some', rfl, rfl, rfl, rfl, rfl, foldl_reconciled ..⟩

end NovelStudio.Batches

/-! What holds of the batches, their tasks and the calls on them in every state that is reached. -/

namespace NovelStudio.Batches

open Library Experimental

/-- A call of `dispatch` that may still execute a task. -/
def Phase.holds (task : Nat) : Phase → Prop
  | .bound own | .executing own _ => own = task
  | _ => False

/-- Statuses of items that are never left. -/
def ItemStatus.isFinal (status : ItemStatus) : Prop := status = .completed ∨ status = .skipped ∨ status = .cancelled

/-- The statuses of a batch and its items. -/
structure Shape (drawn : Nat) (batch : Batch) : Prop where
  once : ∀ (place other : Nat) (item item' : Item), batch.items[place]? = some item → batch.items[other]? = some item' → item.status = .running →
    item'.status = .running → place = other
  runs : ∀ (place : Nat) (item : Item), batch.items[place]? = some item → item.status = .running → batch.status = .running
  unknown : ∀ (place : Nat) (item : Item), batch.items[place]? = some item → item.status = .unknown → batch.status = .unknown ∨ batch.status = .cancelled
  claims : ∀ (place : Nat) (item : Item) (claim : Nat), batch.items[place]? = some item → item.claim = some claim → item.status = .running ∧ claim < drawn
  fresh : ∀ (place : Nat) (item : Item), batch.items[place]? = some item → item.status = .pending →
    item.taskId = none ∧ (item.kind = .studioImage → item.attempts = 0)

/-- A batch's task that did not succeed, and that nothing executes any more. -/
structure Dead (tasks : Dict Nat (Row Task)) (dispatches : Dict Nat Dispatch) (task : Nat) : Prop where
  stopped : ∃ row, tasks.get? task = some row ∧ row.data.safeBatch ≠ none ∧ row.data.status ≠ .running ∧ row.data.status ≠ .succeeded
  unheld : ∀ claim dispatch, dispatches.get? claim = some dispatch → ¬dispatch.phase.holds task

/-- What is known of a task of an item. -/
inductive Accounted (tasks : Dict Nat (Row Task)) (dispatches : Dict Nat Dispatch) (task : Nat) (item : Item) : Prop where
  | cancelled (cancelled : item.status = .cancelled)
  | dead (dead : Dead tasks dispatches task)
  | own (own : item.taskId = some task) (unfailed : item.status ≠ .failed) (begun : item.status ≠ .pending)

structure Working (claim : Nat) (phase : Phase) (item : Item) : Prop where
  running : item.status = .running
  own : item.claim = some claim
  early : phase = .started ∨ phase = .guarded → item.taskId = none
  held : ∀ task, phase.holds task → item.taskId = some task

/-- What is known of a call of `dispatch`, with the row and the item that it is about. -/
structure DispatchSound (state : State) (claim : Nat) (dispatch : Dispatch) (row : Row Batch) (item : Item) : Prop where
  found : state.batches.get? dispatch.batch = some row
  there : row.data.items[dispatch.index]? = some item
  kind : item.kind = dispatch.kind
  active : claim ∈ state.active
  drawn : claim < state.drawn
  image : dispatch.phase = .intended → dispatch.kind = .studioImage
  entered : dispatch.phase = .entered → dispatch.expected ≤ row.version ∧ (row.version = dispatch.expected →
    item.status = .pending ∧ (row.data.status = .ready ∨ row.data.status = .partially) ∧ row.data.confirmed = true)
  working : dispatch.phase ≠ .entered → item.status = .cancelled ∨ Working claim dispatch.phase item
  task : ∀ task, dispatch.phase.holds task → ∃ original, state.tasks.get? task = some original ∧
    original.data.safeBatch = some (dispatch.batch, dispatch.index)

def Checked (batch : Batch) : Request → Prop
  | .confirm digest => batch.status = .preflight ∧ digest = batch.snapshotDigest
  | .stop => batch.status ≠ .completed ∧ batch.status ≠ .cancelled
  | .retryFailed => batch.status = .partially

/-- The claim of an item is the one of no call that runs. -/
def Quiet (dispatches : Dict Nat Dispatch) (item : Item) : Prop := ∀ claim, item.claim = some claim → dispatches.get? claim = none

/-- What a reconciliation found of an item still holds of it. -/
structure ChangeSound (tasks : Dict Nat (Row Task)) (dispatches : Dict Nat Dispatch) (rid : Nat) (batch : Batch) (change : Change) (item : Item) : Prop where
  there : batch.items[change.index]? = some item
  unsettled : unsettled item = true
  quiet : Quiet dispatches item
  image : item.kind.isMedia = true → change.result.bind Result.imageJob = none
  failed : item.kind.isMedia = true → change.completed = false → ∀ task, item.taskId = some task → ∃ row, tasks.get? task = some row ∧
    row.data.safeBatch = some (rid, change.index) ∧ row.data.status ≠ .running ∧ row.data.status ≠ .succeeded

/-- What a call of `reconcile` knows of the row that it read, while that has its version. -/
structure ReadingSound (tasks : Dict Nat (Row Task)) (dispatches : Dict Nat Dispatch) (call : Reconciling) (row : Row Batch) : Prop where
  agrees : Pointwise (fun _ item now => now.status = item.status ∧ now.claim = item.claim ∧ now.kind = item.kind)
    call.row.data.items row.data.items
  cleared : call.cleared = true → ∀ item, row.data.items[call.index]? = some item → Quiet dispatches item
  changed : ∀ change ∈ call.changed, ∃ item, ChangeSound tasks dispatches call.batch row.data change item

/-- The invariant. -/
structure Sound (state : State) : Prop where
  batches : ∀ rid row, state.batches.get? rid = some row → rid < state.drawn ∧ Shape state.drawn row.data
  tasks : ∀ task original, state.tasks.get? task = some original → task < state.drawn ∧
    ∀ rid index, original.data.safeBatch = some (rid, index) → ∃ row item, state.batches.get? rid = some row ∧
      row.data.items[index]? = some item ∧ item.kind.isMedia = true ∧ Accounted state.tasks state.dispatches task item
  dispatches : ∀ claim dispatch, state.dispatches.get? claim = some dispatch → ∃ row item, DispatchSound state claim dispatch row item
  calls : ∀ call ∈ state.calls, ∃ row, state.batches.get? call.batch = some row ∧ call.expected ≤ row.version ∧
    (row.version = call.expected → Checked row.data call.request)
  reconciles : ∀ call ∈ state.reconciles, ∃ row, state.batches.get? call.batch = some row ∧ call.row.version ≤ row.version ∧
    (row.version = call.row.version → ReadingSound state.tasks state.dispatches call row)

theorem Sound.initial : Sound State.initial where
  batches := nofun
  tasks := nofun
  dispatches := nofun
  calls := nofun
  reconciles := nofun

variable {state : State} {claim task rid : Nat} {dispatch : Dispatch} {row next : Row Batch} {item : Item}

theorem Sound.holder (sound : Sound state) {original : Row Task} {index : Nat} (called : state.dispatches.get? claim = some dispatch)
    (holds : dispatch.phase.holds task) (stored : state.tasks.get? task = some original) (own : original.data.safeBatch = some (rid, index))
    (found : state.batches.get? rid = some row) (there : row.data.items[index]? = some item) :
    item.status = .cancelled ∨ item.claim = some claim ∧ item.taskId = some task := by
  obtain ⟨row', item', known⟩ := sound.dispatches claim dispatch called
  obtain ⟨original', stored', own'⟩ := known.task task holds
  obtain rfl := Option.some.inj (stored.symm.trans stored')
  obtain ⟨rfl, rfl⟩ := Prod.mk.inj (Option.some.inj (own.symm.trans own'))
  obtain rfl := Option.some.inj (found.symm.trans known.found)
  obtain rfl := Option.some.inj (there.symm.trans known.there)
  have late : dispatch.phase ≠ .entered := by
    intro entered
    rw [entered] at holds
    exact holds
  exact (known.working late).imp_right fun working => ⟨working.own, working.held task holds⟩

end NovelStudio.Batches
