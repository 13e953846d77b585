import NovelStudio.Batches.Preserved

/-! Each transaction moves a row as other calls allow. -/

namespace NovelStudio.Batches

open Library Experimental

variable {state : State} {claim rid expected : Nat} {dispatch : Dispatch} {row next : Row Batch} {item : Item}

theorem Shape.settled {drawn : Nat} {batch : Batch} (shape : Shape drawn batch) (running : batch.status ≠ .running) (unknown : batch.status ≠ .unknown)
    (cancelled : batch.status ≠ .cancelled) {place : Nat} (there : batch.items[place]? = some item) :
    item.status ≠ .running ∧ item.status ≠ .unknown :=
  ⟨fun runs => running (shape.runs place item there runs), fun open' => (shape.unknown place item there open').elim unknown cancelled⟩

theorem moved_confirm {digest : String} (sound : Sound state) (found : state.batches.get? rid = some row)
    (checked : row.version = expected → Checked row.data (.confirm digest)) (done : confirm row expected = .ok next) : Moved state rid row next := by
  obtain ⟨version, later, same, items, status⟩ := confirm_ok done
  obtain ⟨preflight, _⟩ := checked version
  obtain ⟨_, shape⟩ := sound.batches rid row found
  have settled : ∀ {place : Nat} {item : Item}, row.data.items[place]? = some item → item.status ≠ .running ∧ item.status ≠ .unknown := by
    intro place item
    apply shape.settled <;> rw [preflight] <;> decide
  refine ⟨same, ?_, ?_, by omega, ?_, fun _ => by omega⟩
  · intro cancelled
    rw [preflight] at cancelled
    cases cancelled
  · constructor
    · rw [items]
      exact shape.once
    · rw [items]
      exact fun place item there runs => absurd runs (settled there).1
    · rw [items]
      exact fun place item there open' => absurd open' (settled there).2
    · rw [items]
      exact shape.claims
    · rw [items]
      exact shape.fresh
  · rw [items]
    exact .refl fun place item => .refl state rid place item

theorem moved_stop {owner : Except Failure Unit} (sound : Sound state) (found : state.batches.get? rid = some row)
    (done : stop row expected owner = .ok next) : Moved state rid row next := by
  obtain ⟨version, later, same, status, _, items⟩ := stop_ok done
  obtain ⟨_, shape⟩ := sound.batches rid row found
  have moves : ∀ {place : Nat} {after : Item}, next.data.items[place]? = some after → ∃ item, row.data.items[place]? = some item ∧
      ((after = { item with status := .cancelled, claim := none } ∧ (item.status = .pending ∨ item.status = .running)) ∨
        after = item ∧ item.status ≠ .pending ∧ item.status ≠ .running) := by
    intro place after there'
    obtain ⟨item, there, move⟩ := items.back there'
    refine ⟨item, there, ?_⟩
    split at move
    · rename_i held
      exact .inl ⟨move, held⟩
    · rename_i held
      exact .inr ⟨move, not_or.mp held⟩
  refine ⟨same, fun _ => status, ?_, by omega, ?_, fun _ => by omega⟩
  · have idle : ∀ {place : Nat} {after : Item}, next.data.items[place]? = some after → after.status ≠ .running ∧ after.status ≠ .pending := by
      intro place after there'
      obtain ⟨item, _, ⟨rfl, _⟩ | ⟨rfl, pending, running⟩⟩ := moves there'
      · exact ⟨nofun, nofun⟩
      · exact ⟨running, pending⟩
    constructor
    · exact fun _ _ _ _ there _ runs _ => absurd runs (idle there).1
    · exact fun _ _ there runs => absurd runs (idle there).1
    · exact fun _ _ _ _ => .inr status
    · intro place after claim there' own
      obtain ⟨item, there, ⟨rfl, _⟩ | ⟨rfl, _, running⟩⟩ := moves there'
      · cases own
      · exact absurd (shape.claims place after claim there own).1 running
    · exact fun _ _ there pending => absurd pending (idle there).2
  · refine items.mono ?_
    intro place item after _ move
    split at move
    · rename_i held
      subst move
      refine ⟨rfl, le_refl _, ?_, fun _ _ _ _ _ _ => .inl rfl, fun _ _ _ _ _ _ => .cancelled rfl⟩
      intro final
      rcases held with held | held <;> rcases final with final | final | final <;> rw [held] at final <;> cases final
    · subst move
      exact .refl state rid place after

theorem moved_retryFailed (sound : Sound state) (found : state.batches.get? rid = some row)
    (checked : row.version = expected → Checked row.data .retryFailed) (done : retryFailed row expected = .ok next) : Moved state rid row next := by
  obtain ⟨version, later, same, status, _, items⟩ := retryFailed_ok done
  have partially : row.data.status = .partially := checked version
  obtain ⟨_, shape⟩ := sound.batches rid row found
  have settled : ∀ {place : Nat} {item : Item}, row.data.items[place]? = some item → item.status ≠ .running ∧ item.status ≠ .unknown := by
    intro place item
    apply shape.settled <;> rw [partially] <;> decide
  have moves : ∀ {place : Nat} {after : Item}, next.data.items[place]? = some after → ∃ item, row.data.items[place]? = some item ∧
      ((after = { item with status := .pending, claim := none, errorCode := none, taskId := none, reservationId := none } ∧
        item.status = .failed ∧ item.kind ≠ .studioImage) ∨ after = item) := by
    intro place after there'
    obtain ⟨item, there, move⟩ := items.back there'
    refine ⟨item, there, ?_⟩
    split at move
    · rename_i resets
      exact .inl ⟨move, by simpa [retried] using resets⟩
    · exact .inr move
  refine ⟨same, ?_, ?_, by omega, ?_, fun _ => by omega⟩
  · intro cancelled
    rw [partially] at cancelled
    cases cancelled
  · have idle : ∀ {place : Nat} {after : Item}, next.data.items[place]? = some after → after.status ≠ .running ∧ after.status ≠ .unknown := by
      intro place after there'
      obtain ⟨item, there, ⟨rfl, _⟩ | rfl⟩ := moves there'
      · exact ⟨nofun, nofun⟩
      · exact settled there
    constructor
    · exact fun _ _ _ _ there _ runs _ => absurd runs (idle there).1
    · exact fun _ _ there runs => absurd runs (idle there).1
    · exact fun _ _ there open' => absurd open' (idle there).2
    · intro place after claim there' own
      obtain ⟨item, there, ⟨rfl, _⟩ | rfl⟩ := moves there'
      · cases own
      · exact shape.claims place after claim there own
    · intro place after there' pending
      obtain ⟨item, there, ⟨rfl, _, kind⟩ | rfl⟩ := moves there'
      · exact ⟨rfl, fun image => absurd image kind⟩
      · exact shape.fresh place after there pending
  · refine ⟨items.length, ?_⟩
    intro place item after there there'
    obtain ⟨item', again, move⟩ := moves there'
    obtain rfl := Option.some.inj (there.symm.trans again)
    rcases move with ⟨rfl, failed, _⟩ | rfl
    · refine ⟨rfl, le_refl _, ?_, ?_, ?_⟩
      · intro final
        rcases final with final | final | final <;> rw [failed] at final <;> cases final
      · intro claim dispatch _ _ _ working
        exact absurd working.running (settled there).1
      · intro task original _ _ _ known
        cases known with
        | cancelled cancelled =>
          rw [failed] at cancelled
          cases cancelled
        | dead dead => exact .dead dead
        | own own unfailed begun => exact absurd failed unfailed
    · exact .refl state rid place after

theorem Quiet.idle (quiet : Quiet state.dispatches item) (called : state.dispatches.get? claim = some dispatch)
    (working : Working claim dispatch.phase item) : False := by
  rw [quiet claim working.own] at called
  cases called

theorem Sound.unheld {place task : Nat} {original : Row Task} (sound : Sound state) (found : state.batches.get? rid = some row)
    (there : row.data.items[place]? = some item) (quiet : Quiet state.dispatches item) (uncancelled : item.status ≠ .cancelled)
    (stored : state.tasks.get? task = some original) (own : original.data.safeBatch = some (rid, place)) :
    ∀ claim dispatch, state.dispatches.get? claim = some dispatch → ¬dispatch.phase.holds task := by
  intro claim dispatch called holds
  rcases sound.holder called holds stored own found there with cancelled | ⟨claimed, _⟩
  · exact uncancelled cancelled
  · rw [quiet claim claimed] at called
    cases called

theorem moved_start {index : Nat} (sound : Sound state) (found : state.batches.get? rid = some row) (there : row.data.items[index]? = some item)
    (drawn : claim < state.drawn) (checked : row.version = expected →
      item.status = .pending ∧ (row.data.status = .ready ∨ row.data.status = .partially) ∧ row.data.confirmed = true)
    (done : start row expected index claim = .ok next) : Moved state rid row next := by
  obtain ⟨version, later, same, status, _, items⟩ := start_ok done
  obtain ⟨pending, before, _⟩ := checked version
  obtain ⟨_, shape⟩ := sound.batches rid row found
  have settled : ∀ {place : Nat} {item : Item}, row.data.items[place]? = some item → item.status ≠ .running ∧ item.status ≠ .unknown := by
    intro place item
    apply shape.settled <;> rcases before with before | before <;> rw [before] <;> decide
  have moves : ∀ {place : Nat} {after : Item}, next.data.items[place]? = some after → (place = index ∧
      after = { item with status := .running, claim := some claim, attempts := item.attempts + 1 }) ∨
      place ≠ index ∧ row.data.items[place]? = some after := by
    intro place after there'
    obtain ⟨item', again, move⟩ := items.back there'
    split at move
    · rename_i same
      subst same
      obtain rfl := Option.some.inj (there.symm.trans again)
      exact .inl ⟨rfl, move⟩
    · rename_i different
      exact .inr ⟨different, move ▸ again⟩
  refine ⟨same, ?_, ?_, by omega, ?_, fun _ => by omega⟩
  · intro cancelled
    rcases before with before | before <;> rw [before] at cancelled <;> cases cancelled
  · have only : ∀ {place : Nat} {after : Item}, next.data.items[place]? = some after → after.status = .running → place = index := by
      intro place after there' runs
      rcases moves there' with ⟨same, _⟩ | ⟨_, kept⟩
      · exact same
      · exact absurd runs (settled kept).1
    constructor
    · exact fun _ _ _ _ there' there'' runs runs' => (only there' runs).trans (only there'' runs').symm
    · exact fun _ _ _ _ => status
    · intro place after there' open'
      rcases moves there' with ⟨_, rfl⟩ | ⟨_, kept⟩
      · cases open'
      · exact absurd open' (settled kept).2
    · intro place after own there' claimed
      rcases moves there' with ⟨_, rfl⟩ | ⟨_, kept⟩
      · obtain rfl := Option.some.inj claimed
        exact ⟨rfl, drawn⟩
      · exact shape.claims place after own kept claimed
    · intro place after there' pending
      rcases moves there' with ⟨_, rfl⟩ | ⟨_, kept⟩
      · cases pending
      · exact shape.fresh place after kept pending
  · refine items.mono ?_
    intro place item' after again move
    split at move
    · rename_i same
      subst same move
      obtain rfl := Option.some.inj (there.symm.trans again)
      refine ⟨rfl, Nat.le_succ _, ?_, ?_, ?_⟩
      · intro final
        rcases final with final | final | final <;> rw [pending] at final <;> cases final
      · intro other dispatch _ _ _ working
        exact absurd working.running (settled there).1
      · intro task original _ _ _ known
        cases known with
        | cancelled cancelled =>
          rw [pending] at cancelled
          cases cancelled
        | dead dead => exact .dead dead
        | own own unfailed begun => exact absurd pending begun
    · subst move
      exact .refl state rid place after

theorem moved_noted {index : Nat} {change : Item → Item} (sound : Sound state) (found : state.batches.get? rid = some row)
    (called : state.dispatches.get? claim = some dispatch) (passed : checkGuard row index claim = .ok ()) (noted : Noted index change row next)
    (keeps : ∀ item, (change item).kind = item.kind ∧ (change item).attempts = item.attempts ∧ (change item).status = item.status ∧
      (change item).claim = item.claim)
    (working : ∀ item, Working claim dispatch.phase item → Working claim dispatch.phase (change item))
    (known : ∀ item task, row.data.items[index]? = some item → item.kind.isMedia = true → item.status = .running →
      Accounted state.tasks state.dispatches task item → Accounted state.tasks state.dispatches task (change item)) : Moved state rid row next := by
  obtain ⟨running, item, there, own, runs⟩ := checkGuard_ok passed
  obtain ⟨_, shape⟩ := sound.batches rid row found
  have loud : ¬Quiet state.dispatches item := by
    intro quiet
    rw [quiet claim own] at called
    cases called
  have moves : ∀ {place : Nat} {after : Item}, next.data.items[place]? = some after → ∃ before, row.data.items[place]? = some before ∧
      after.status = before.status ∧ after.claim = before.claim ∧ (after = before ∨ before.status = .running) := by
    intro place after there'
    obtain ⟨before, again, move⟩ := noted.items.back there'
    refine ⟨before, again, ?_⟩
    split at move
    · rename_i same
      subst same move
      obtain rfl := Option.some.inj (there.symm.trans again)
      exact ⟨(keeps item).2.2.1, (keeps item).2.2.2, .inr runs⟩
    · subst move
      exact ⟨rfl, rfl, .inl rfl⟩
  refine ⟨noted.digest, fun cancelled => noted.status.trans cancelled, ?_, noted.version.ge, ?_, ?_⟩
  · constructor
    · intro place other after after' there' there'' runs runs'
      obtain ⟨before, again, status, _⟩ := moves there'
      obtain ⟨before', again', status', _⟩ := moves there''
      exact shape.once place other before before' again again' (status ▸ runs) (status' ▸ runs')
    · exact fun _ _ _ _ => noted.status.trans running
    · intro place after there' open'
      obtain ⟨before, again, status, _⟩ := moves there'
      rw [noted.status]
      exact shape.unknown place before again (status ▸ open')
    · intro place after claim there' claimed
      obtain ⟨before, again, status, same, _⟩ := moves there'
      rw [status]
      exact shape.claims place before claim again (same ▸ claimed)
    · intro place after there' pending
      obtain ⟨before, again, status, _, rfl | runs⟩ := moves there'
      · exact shape.fresh place after again pending
      · rw [status, runs] at pending
        cases pending
  · refine noted.items.mono ?_
    intro place before after again move
    split at move
    · rename_i same
      subst same move
      obtain rfl := Option.some.inj (there.symm.trans again)
      obtain ⟨kind, attempts, status, claimed⟩ := keeps item
      refine ⟨kind, attempts.ge, fun _ => status, ?_, ?_⟩
      · intro other dispatch' called' _ _ working'
        obtain rfl := Option.some.inj (own.symm.trans working'.own)
        obtain rfl := Option.some.inj (called.symm.trans called')
        exact .inr (working item working')
      · exact fun task _ _ _ media => known item task there media runs
    · subst move
      exact .refl state rid place after
  · intro _
    refine ⟨noted.status, noted.confirmed, noted.items.mono ?_⟩
    intro place before after again move
    split at move
    · rename_i same
      subst same move
      obtain rfl := Option.some.inj (there.symm.trans again)
      exact .inr ⟨(keeps item).2.2.1, (keeps item).2.2.2, (keeps item).1, loud⟩
    · exact .inl move

theorem moved_settled {index : Nat} {status : ItemStatus → Prop} (sound : Sound state) (found : state.batches.get? rid = some row)
    (there : row.data.items[index]? = some item) (own : item.claim = some claim) (gone : state.dispatches.get? claim = none)
    (version : next.version = row.version + 1) (digest : next.data.snapshotDigest = row.data.snapshotDigest)
    (items : Pointwise (fun place item next => if place = index then Settled status item next else next = item) row.data.items next.data.items)
    (statuses : ∀ next, status next → next ≠ .running ∧ next ≠ .pending)
    (unknown : ∀ after, next.data.items[index]? = some after → after.status = .unknown → next.data.status = .unknown)
    (failed : ∀ task original, state.tasks.get? task = some original → item.kind.isMedia = true → item.taskId = some task → status .failed →
      original.data.status ≠ .running ∧ original.data.status ≠ .succeeded) : Moved state rid row next := by
  obtain ⟨_, shape⟩ := sound.batches rid row found
  obtain ⟨runs, _⟩ := shape.claims index item claim there own
  have running := shape.runs index item there runs
  have quiet : Quiet state.dispatches item := by
    intro other claimed
    obtain rfl := Option.some.inj (own.symm.trans claimed)
    exact gone
  have moves : ∀ {place : Nat} {after : Item}, next.data.items[place]? = some after →
      (place = index ∧ Settled status item after) ∨ place ≠ index ∧ row.data.items[place]? = some after := by
    intro place after there'
    obtain ⟨before, again, move⟩ := items.back there'
    split at move
    · rename_i same
      subst same
      obtain rfl := Option.some.inj (there.symm.trans again)
      exact .inl ⟨rfl, move⟩
    · rename_i different
      exact .inr ⟨different, move ▸ again⟩
  have idle : ∀ {place : Nat} {after : Item}, next.data.items[place]? = some after → after.status ≠ .running := by
    intro place after there' runs'
    rcases moves there' with ⟨_, settled⟩ | ⟨different, kept⟩
    · exact (statuses _ settled.status).1 runs'
    · exact different (shape.once place index after item kept there runs' runs)
  refine ⟨digest, ?_, ?_, by omega, ?_, fun _ => by omega⟩
  · intro cancelled
    rw [running] at cancelled
    cases cancelled
  · constructor
    · exact fun _ _ _ _ there' _ runs' _ => absurd runs' (idle there')
    · exact fun _ _ there' runs' => absurd runs' (idle there')
    · intro place after there' open'
      rcases moves there' with ⟨rfl, _⟩ | ⟨_, kept⟩
      · exact .inl (unknown after there' open')
      · rcases shape.unknown place after kept open' with other | other <;> rw [running] at other <;> cases other
    · intro place after other there' claimed
      rcases moves there' with ⟨_, settled⟩ | ⟨_, kept⟩
      · rw [settled.claim] at claimed
        cases claimed
      · exact shape.claims place after other kept claimed
    · intro place after there' pending
      rcases moves there' with ⟨_, settled⟩ | ⟨_, kept⟩
      · exact absurd pending (statuses _ settled.status).2
      · exact shape.fresh place after kept pending
  · refine items.mono ?_
    intro place before after again move
    split at move
    · rename_i same
      subst same
      obtain rfl := Option.some.inj (there.symm.trans again)
      refine ⟨move.kind, move.attempts.ge, ?_, ?_, ?_⟩
      · intro final
        rcases final with final | final | final <;> rw [runs] at final <;> cases final
      · exact fun _ _ called _ _ working => (quiet.idle called working).elim
      · intro task original stored safeBatch media known
        cases known with
        | cancelled cancelled =>
          rw [runs] at cancelled
          cases cancelled
        | dead dead => exact .dead dead
        | own own _ _ =>
          by_cases fails : after.status = .failed
          · refine .dead ⟨⟨original, stored, ?_, failed task original stored media own (fails ▸ move.status)⟩, ?_⟩
            · rw [safeBatch]
              exact Option.some_ne_none _
            · refine sound.unheld found there quiet ?_ stored safeBatch
              rw [runs]
              decide
          · exact .own (move.taskId.trans own) fails (statuses _ move.status).2
    · subst move
      exact .refl state rid place after

theorem moved_reconcile {changed : List Change} (sound : Sound state) (found : state.batches.get? rid = some row)
    (known : row.version = expected → ∀ change ∈ changed, ∃ item, ChangeSound state.tasks state.dispatches rid row.data change item)
    (done : reconcile row expected changed = .ok next) : Moved state rid row next := by
  obtain ⟨nonempty, version, later, same, _, status, items⟩ := reconcile_ok done
  replace known := known version
  obtain ⟨_, shape⟩ := sound.batches rid row found
  have moves : ∀ {place : Nat} {after : Item}, next.data.items[place]? = some after → ∃ item, row.data.items[place]? = some item ∧
      Reconciled changed place item after := fun there' => items.back there'
  -- a running item that stays is the one of no change, but every change is of the running item
  have idle : ∀ {place : Nat} {after : Item}, next.data.items[place]? = some after → after.status ≠ .running := by
    intro place after there' runs
    obtain ⟨item, there, move⟩ := moves there'
    cases move with
    | kept untouched =>
      obtain ⟨change, listed⟩ := List.exists_mem_of_ne_nil changed nonempty
      obtain ⟨item, about⟩ := known change listed
      have running := shape.runs place after there runs
      have open' := about.unsettled
      simp only [unsettled, Bool.or_eq_true, decide_eq_true_eq] at open'
      rcases open' with runs' | open'
      · exact untouched change listed (shape.once change.index place item after about.there there runs' runs)
      · rcases shape.unknown change.index item about.there open' with other | other <;> rw [running] at other <;> cases other
    | changed _ _ _ _ _ settled _ =>
      rw [settled] at runs
      split at runs <;> cases runs
  refine ⟨same, ?_, ?_, by omega, ?_, fun _ => by omega⟩
  · intro cancelled
    rw [status, reconciledStatus, if_pos cancelled]
  · constructor
    · exact fun _ _ _ _ there' _ runs _ => absurd runs (idle there')
    · exact fun _ _ there' runs => absurd runs (idle there')
    · intro place after there' open'
      have some' : next.data.items.any unsettled = true :=
        List.any_eq_true.mpr ⟨after, List.mem_of_getElem? there', by simp [unsettled, open']⟩
      rw [status, reconciledStatus]
      split
      · exact .inr rfl
      · exact .inl rfl
    · intro place after claim there' claimed
      obtain ⟨item, there, move⟩ := moves there'
      cases move with
      | kept _ => exact shape.claims place after claim there claimed
      | changed _ _ _ _ none _ _ =>
        rw [none] at claimed
        cases claimed
    · intro place after there' pending
      obtain ⟨item, there, move⟩ := moves there'
      cases move with
      | kept _ => exact shape.fresh place after there pending
      | changed _ _ _ _ _ settled _ =>
        rw [settled] at pending
        split at pending <;> cases pending
  · refine items.mono ?_
    intro place item after there move
    cases move with
    | kept _ => exact .refl state rid place item
    | @changed _ change listed same kind attempts claim settled taskId =>
      subst same
      obtain ⟨item', about⟩ := known change listed
      obtain rfl := Option.some.inj (there.symm.trans about.there)
      have open' := about.unsettled
      simp only [unsettled, Bool.or_eq_true, decide_eq_true_eq] at open'
      refine ⟨kind, attempts.ge, ?_, ?_, ?_⟩
      · intro final
        rcases open' with open' | open' <;> rcases final with final | final | final <;> rw [open'] at final <;> cases final
      · exact fun _ _ called _ _ working => (about.quiet.idle called working).elim
      · intro task original stored safeBatch media before
        cases before with
        | cancelled cancelled => rcases open' with open' | open' <;> rw [cancelled] at open' <;> cases open'
        | dead dead => exact .dead dead
        | own own _ _ =>
          cases completes : change.completed with
          | true =>
            rw [completes, if_pos rfl] at settled
            refine .own ?_ ?_ ?_
            · rcases taskId with same | ⟨other, listed', place, image⟩
              · exact same.trans own
              · obtain ⟨item', about'⟩ := known other listed'
                have there' := about'.there
                rw [place, there] at there'
                obtain rfl := Option.some.inj there'
                exact absurd (about'.image media) image
            · rw [settled]
              decide
            · rw [settled]
              decide
          | false =>
            obtain ⟨original', stored', _, failed⟩ := about.failed media completes task own
            obtain rfl := Option.some.inj (stored.symm.trans stored')
            refine .dead ⟨⟨original, stored, ?_, failed⟩, ?_⟩
            · rw [safeBatch]
              exact Option.some_ne_none _
            · refine sound.unheld found there about.quiet ?_ stored safeBatch
              rcases open' with open' | open' <;> rw [open'] <;> decide

end NovelStudio.Batches
