import NovelStudio.Identity.Calls

/-! The identities of the store are unique and stable over every sequence of calls. -/

namespace NovelStudio.Identity

open Library

/-- The file, and the identities that were drawn and supplied so far. -/
structure State where
  file : File
  drawn : List Uuid
  supplied : List Uuid

def State.initial : State := ⟨none, [], []⟩

def State.rows (state : State) : Entities := contents state.file

structure Label where
  call : Call
  outcome : Except Failure Outcome

/-- A call; what it draws is fresh. -/
inductive Step : State → Label → State → Prop where
  | call {state : State} {host : Host} {draw : Nat → Uuid} {call : Call}
      (fresh : ∀ id ∈ call.drawn draw, id ∉ state.drawn ∧ id ∉ state.supplied) :
      Step state ⟨call, (perform host draw state.file call).1⟩
        ⟨(perform host draw state.file call).2, call.drawn draw ++ state.drawn, call.supplied host ++ state.supplied⟩

/-- The invariant: what is stored is well formed, every identity was drawn or supplied, and rows of two kinds share only what was supplied. -/
structure Sound (state : State) : Prop where
  formed : Formed state.file
  origin : ∀ kind, ∀ row ∈ state.rows kind, row.identityId ∈ state.drawn ∨ row.identityId ∈ state.supplied
  apart : ∀ kind other, ∀ row ∈ state.rows kind, ∀ row' ∈ state.rows other, kind ≠ other → row.identityId = row'.identityId →
    row.identityId ∈ state.supplied

theorem Sound.initial : Sound .initial := ⟨fun _ => .nil, nofun, nofun⟩

/-- Where the rows of one kind change so that each new identity is fresh or supplied, the invariant is kept. -/
theorem Sound.edit {state : State} (sound : Sound state) {drawn supplied : List Uuid} {kind : Kind} {rows : List Row} (formed : WellFormed rows)
    (fresh : ∀ id ∈ drawn, id ∉ state.drawn ∧ id ∉ state.supplied)
    (each : ∀ row ∈ rows, (∃ old ∈ state.rows kind, old.identityId = row.identityId) ∨ row.identityId ∈ drawn ∨ row.identityId ∈ supplied) :
    Sound ⟨some (replaced (contents state.file) kind rows), drawn ++ state.drawn, supplied ++ state.supplied⟩ := by
  -- a row is of the kind that changes, or was there before
  have where_ : ∀ other, ∀ row ∈ replaced (contents state.file) kind rows other,
      (other = kind ∧ row ∈ rows) ∨ (other ≠ kind ∧ row ∈ state.rows other) := by
    intro other row member
    rw [replaced, Function.update_apply] at member
    split at member
    · rename_i same
      exact .inl ⟨same, member⟩
    · rename_i different
      exact .inr ⟨different, member⟩
  have known : ∀ other, ∀ row ∈ state.rows other, row.identityId ∉ drawn := by
    intro other row member here
    rcases sound.origin other row member with old | old
    · exact (fresh _ here).1 old
    · exact (fresh _ here).2 old
  -- a row of the kind that changes has an identity of a row of another kind only if that was supplied
  have shared : ∀ row ∈ rows, ∀ other, ∀ row' ∈ state.rows other, other ≠ kind → row.identityId = row'.identityId →
      row.identityId ∈ supplied ++ state.supplied := by
    intro row member other row' member' different same
    rcases each row member with ⟨old, before, same'⟩ | here | here
    · rw [← same']
      exact List.mem_append.mpr (.inr (sound.apart kind other old before row' member' different.symm (same'.trans same)))
    · exact absurd (same ▸ here) (known other row' member')
    · exact List.mem_append.mpr (.inl here)
  constructor
  · exact fun other => replaced_formed sound.formed formed other
  · intro other row member
    simp only [List.mem_append]
    rcases where_ other row member with ⟨rfl, here⟩ | ⟨_, here⟩
    · rcases each row here with ⟨old, before, same⟩ | here | here
      · rw [← same]
        exact (sound.origin _ old before).imp .inr .inr
      · exact .inl (.inl here)
      · exact .inr (.inl here)
    · exact (sound.origin other row here).imp .inr .inr
  · intro one other row member row' member' different same
    rcases where_ one row member with ⟨rfl, here⟩ | ⟨away, here⟩
    · rcases where_ other row' member' with ⟨rfl, _⟩ | ⟨away, here'⟩
      · exact absurd rfl different
      · exact shared row here other row' here' away same
    · rcases where_ other row' member' with ⟨rfl, here'⟩ | ⟨away', here'⟩
      · rw [same]
        exact shared row' here' one row here away same.symm
      · exact List.mem_append.mpr (.inr (sound.apart one other row here row' here' different same))

variable {state next : State} {label : Label}

theorem Step.change (step : Step state label next) : ∃ drawn supplied, (∀ id ∈ drawn, id ∉ state.drawn ∧ id ∉ state.supplied) ∧
    Change drawn supplied state.file label.outcome next.file ∧ next.drawn = drawn ++ state.drawn ∧ next.supplied = supplied ++ state.supplied := by
  cases step with
  | @call host draw call fresh => exact ⟨_, _, fresh, perform_change host draw state.file call, rfl, rfl⟩

theorem Sound.step (sound : Sound state) (step : Step state label next) : Sound next := by
  obtain ⟨drawn, supplied, fresh, change, same, same'⟩ := step.change
  obtain ⟨call, outcome⟩ := label
  obtain ⟨file, _, _⟩ := next
  obtain rfl : _ = drawn ++ state.drawn := same
  obtain rfl : _ = supplied ++ state.supplied := same'
  cases change with
  | kept =>
    constructor
    · exact sound.formed
    · intro kind row member
      simp only [List.mem_append]
      exact (sound.origin kind row member).imp .inr .inr
    · intro kind other row member row' member' different same
      exact List.mem_append.mpr (.inr (sound.apart kind other row member row' member' different same))
  | edited formed edit =>
    refine sound.edit formed fresh ?_
    intro row member
    cases edit with
    | grow origin =>
      rcases List.mem_append.mp member with member | member
      · exact .inl ⟨row, member, rfl⟩
      · exact .inr (origin row member)
    | annotate =>
      obtain ⟨old, before, same⟩ := List.mem_map.mp member
      refine .inl ⟨old, before, ?_⟩
      rw [← same]
      split
      · rfl
      · rfl
  | dropped =>
    refine sound.edit ((sound.formed _).sublist List.filter_sublist) fresh ?_
    intro row member
    exact .inl ⟨row, List.mem_of_mem_filter member, rfl⟩

theorem reached_sound {labels : List Label} (run : Run Step .initial labels state) : Sound state :=
  run.invariant .initial fun sound step => sound.step step

theorem Step.live {kind : Kind} {row : Row} (step : Step state label next) (member : row ∈ state.rows kind) :
    (∃ key, label.outcome = .ok (.deleted kind key) ∧ key = row.key) ∨
    ∃ later ∈ next.rows kind, later.key = row.key ∧ later.identityId = row.identityId := by
  obtain ⟨drawn, supplied, _, change, _, _⟩ := step.change
  obtain ⟨call, outcome⟩ := label
  obtain ⟨file, _, _⟩ := next
  cases change with
  | kept => exact .inr ⟨row, member, rfl, rfl⟩
  | @edited _ kind' rows _ edit =>
    right
    rw [State.rows, contents, Option.getD_some, replaced, Function.update_apply]
    split
    · rename_i same
      subst same
      cases edit with
      | grow _ => exact ⟨row, List.mem_append_left _ member, rfl, rfl⟩
      | annotate =>
        refine ⟨_, List.mem_map.mpr ⟨row, member, rfl⟩, ?_⟩
        split
        · exact ⟨rfl, rfl⟩
        · exact ⟨rfl, rfl⟩
    · exact ⟨row, member, rfl, rfl⟩
  | @dropped kind' key =>
    by_cases here : kind = kind' ∧ key = row.key
    · obtain ⟨rfl, same⟩ := here
      exact .inl ⟨key, rfl, same⟩
    · right
      rw [State.rows, contents, Option.getD_some, replaced, Function.update_apply]
      split
      · rename_i same
        refine ⟨row, ?_, rfl, rfl⟩
        subst same
        refine List.mem_filter.mpr ⟨member, decide_eq_true ?_⟩
        intro key'
        exact here ⟨rfl, key'.symm⟩
      · exact ⟨row, member, rfl, rfl⟩

/-- `get_or_create` with a key that lives returns its identity, and changes nothing. -/
theorem getOrCreate_live {host : Host} {draw : Nat → Uuid} {kind : Kind} {row : Row} {metadata : Option Metadata} (sound : Sound state)
    (member : row ∈ state.rows kind) (held : host.lock = .ok ()) :
    perform host draw state.file (.getOrCreate kind.name row.key metadata) = (.ok (.identity row.identityId), state.file) := by
  have formed := sound.formed kind
  have known : required kind.name row.key = .ok kind := by
    have name : knownKind kind.name (.value "identity key is required") = .ok kind := by cases kind <;> rfl
    have blank := (formed.each row member).1
    rw [required, name, blank]
    rfl
  have reads : read state.file = .ok (contents state.file) := read_ok.mpr ⟨rfl, sound.formed⟩
  have found : (contents state.file kind).find? (·.key = row.key) = some row := by
    have some' : ((contents state.file kind).find? (·.key = row.key)).isSome := by
      rw [List.find?_isSome]
      exact ⟨row, member, decide_eq_true rfl⟩
    obtain ⟨first, here⟩ := Option.isSome_iff_exists.mp some'
    have same : first.key = row.key := by simpa using List.find?_some here
    rw [here, List.inj_on_of_nodup_map formed.keys (List.mem_of_find?_eq_some here) member same]
  have planned : getOrCreate kind row.key metadata (draw 0) (contents state.file) = .ok (row.identityId, none) := by
    rw [getOrCreate, found]
    rfl
  simp only [perform, checked, known, mutate, held, reads]
  rw [show ((Except.ok () : Except Failure Unit) >>= fun _ => (Except.ok (contents state.file) : Except Failure Entities) >>=
    getOrCreate kind row.key metadata (draw 0)) = getOrCreate kind row.key metadata (draw 0) (contents state.file) from rfl, planned]
  rfl

theorem perform_raises {host : Host} {draw : Nat → Uuid} {file : File} {call : Call} {failure : Failure}
    (raises : (perform host draw file call).1 = .error failure) : (perform host draw file call).2 = file := by
  have change := perform_change host draw file call
  rw [raises] at change
  generalize (perform host draw file call).2 = later at change
  cases change with
  | kept => rfl

/-- The lock is free, the disk writes, and a text is read as one identity. -/
def plainHost : Host := ⟨.ok (), .ok (), fun _ => some 7, 1000⟩

theorem shared_run : ∃ labels state, Run Step .initial labels state ∧
    state.rows .provider = [⟨"a", 1, []⟩] ∧ state.rows .model = [⟨"b", 1, []⟩] := by
  have created := Run.one (@Step.call .initial plainHost (fun _ => 1) (.create "provider" "a" none)
    fun _ _ => ⟨List.not_mem_nil, List.not_mem_nil⟩)
  have migrated := created.snoc (@Step.call _ plainHost (fun _ => 2) (.migrate "model" (some [.mapping (some "b") (some (.uuid 1)) (.fields [])]))
    (by simp [Call.drawn, Call.draws, Call.supplied, State.initial]))
  exact ⟨_, _, migrated, rfl, rfl⟩

/-- A turn whose row is there already only reads it. -/
theorem migrateEntry_again {so next : Migrated} {turn : Entry × Uuid} {later : List Row} (done : migrateEntry host kind so turn = .ok next)
    (distinct : (later.map Row.key).Nodup) (there : next.rows ⊆ later) (drawn : Uuid) :
    migrateEntry host kind ⟨later, so.input, so.result⟩ (turn.1, drawn) = .ok ⟨later, next.input, next.result⟩ := by
  have stored : ∀ row ∈ later, later.find? (·.key = row.key) = some row := by
    intro row member
    obtain ⟨first, found⟩ : ∃ first, later.find? (·.key = row.key) = some first := by
      rw [← Option.isSome_iff_exists, List.find?_isSome]
      exact ⟨row, member, decide_eq_true rfl⟩
    rw [found, List.inj_on_of_nodup_map distinct (List.mem_of_find?_eq_some found) member (by simpa using List.find?_some found)]
  obtain ⟨entry, first⟩ := turn
  cases entry with
  | other => cases done
  | mapping key raw metadata =>
    simp only [migrateEntry, bind_ok, fetch_ok] at done
    obtain ⟨key, rfl, _, blank, _, fresh, done⟩ := done
    have read : ∀ row ∈ later, row.key = key → keepsIdentity host kind raw row.identityId = .ok () →
        migrateEntry host kind ⟨later, so.input, so.result⟩ (.mapping (some key) raw metadata, drawn) =
          .ok ⟨later, so.input ++ [key], so.result ++ [(key, row.identityId)]⟩ := by
      rintro row member rfl keeps
      simp only [migrateEntry, bind_ok, fetch_ok]
      refine ⟨_, rfl, _, blank, _, fresh, ?_⟩
      rw [stored row member]
      exact bind_ok.mpr ⟨_, keeps, rfl⟩
    split at done
    · rename_i existing found
      simp only [bind_ok, pure_ok] at done
      obtain ⟨_, keeps, rfl⟩ := done
      exact read existing (there (List.mem_of_find?_eq_some found)) (by simpa using List.find?_some found) keeps
    · simp only [bind_ok, pure_ok] at done
      obtain ⟨identity, chosen, _, _, fields, _, rfl⟩ := done
      refine read ⟨key, identity, fields⟩ (there (by simp)) rfl ?_
      cases raw with
      | none => rfl
      | some raw =>
        have given : validateUuid host kind raw = .ok identity := chosen
        exact bind_ok.mpr ⟨_, given, reject_ok.mpr (by simp)⟩

/-- A migration that is run again, on what it has left, returns the same identities whatever it may draw, and writes nothing. -/
theorem migrate_again {host : Host} {kind : Kind} {data : Entities} {candidate : Option Entities} {turns again : List (Entry × Uuid)} {result : List (String × Uuid)}
    (done : migrate host kind turns data = .ok (result, candidate)) (same : again.map Prod.fst = turns.map Prod.fst) :
    migrate host kind again (candidate.getD data) = .ok (result, none) := by
  simp only [migrate, bind_ok, pure_ok, Prod.mk.injEq] at done
  obtain ⟨so, turned, rows, checked, rfl, rfl⟩ := done
  obtain ⟨rfl, formed⟩ := validateRows_ok.mp checked
  have settled : ∀ (turns again : List (Entry × Uuid)) (start : Migrated), again.map Prod.fst = turns.map Prod.fst →
      turns.foldlM (migrateEntry host kind) start = .ok so → start.rows ⊆ so.rows ∧
        again.foldlM (migrateEntry host kind) ⟨so.rows, start.input, start.result⟩ = .ok so := by
    intro turns
    induction turns with
    | nil =>
      intro again start same done
      cases foldlM_nil_ok.mp done
      rw [List.map_eq_nil_iff.mp same]
      exact ⟨List.Subset.refl _, rfl⟩
    | cons turn turns ih =>
      intro again start same done
      obtain ⟨⟨entry, drawn⟩, again, rfl, first, later⟩ := List.map_eq_cons_iff.mp same
      obtain ⟨next, turned, done⟩ := foldlM_cons_ok.mp done
      obtain ⟨kept, finished⟩ := ih again next later done
      obtain ⟨news, grown, _⟩ := migrateEntry_ok turned
      refine ⟨fun row member => kept (grown ▸ List.mem_append_left _ member), foldlM_cons_ok.mpr ⟨_, ?_, finished⟩⟩
      have entry' : entry = turn.1 := first
      rw [entry']
      exact migrateEntry_again turned formed.keys kept drawn
  have stored : ((if so.rows ≠ data kind then some (replaced data kind so.rows) else none).getD data) kind = so.rows := by
    split
    · simp [replaced]
    · rename_i unchanged
      exact (not_not.mp unchanged).symm
  simp only [migrate, stored, (settled turns again _ same turned).2, bind_ok, pure_ok]
  exact ⟨_, rfl, _, checked, by simp⟩

theorem migrate_again_sample : migrate plainHost .model [(.mapping (some "b") none (.fields []), 3)]
    ((some (replaced (fun _ => []) .model [⟨"b", 2, []⟩])).getD fun _ => []) = .ok ([("b", 2)], none) :=
  migrate_again (show migrate _ _ [(.mapping (some "b") none (.fields []), 2)] _ = _ from rfl) rfl

end NovelStudio.Identity
