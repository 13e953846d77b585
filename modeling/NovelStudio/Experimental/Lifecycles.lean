import NovelStudio.Experimental.Store
import NovelStudio.Library.Transition

/-! Transactions of the experimental store are atomic, and a row keeps its nonce exactly while its content stays. -/

namespace NovelStudio.Experimental

open Library

variable {nonces before after kept : List (String × Json)} {draw : Nat → String} {rid : String} {row : Json}

/-- The turns of the loop: a row that is not among them has the nonce that it had, one that is the same too, and any other draws one. -/
theorem lookup_advanceRow (before : List (String × Json)) (draw : Nat → String) (rid : String) (kept : List (String × Json))
    {rows : List ((String × Json) × Nat)} (unique : (rows.map fun row => row.1.1).Nodup) :
    (rid ∉ rows.map (fun row => row.1.1) → lookup rid (rows.foldl (advanceRow before draw) kept) = lookup rid kept) ∧
    ∀ row place, ((rid, row), place) ∈ rows →
      ((lookup rid before).any (Json.sameText · row) = true → lookup rid (rows.foldl (advanceRow before draw) kept) = lookup rid kept) ∧
      ((lookup rid before).any (Json.sameText · row) = false →
        lookup rid (rows.foldl (advanceRow before draw) kept) = some (.str (draw place))) := by
  induction rows generalizing kept with
  | nil => exact ⟨fun _ => rfl, nofun⟩
  | cons first rest ih =>
    obtain ⟨⟨key, content⟩, place⟩ := first
    rw [List.map_cons, List.nodup_cons] at unique
    have away : ∀ other, other ≠ key → lookup other (advanceRow before draw kept ((key, content), place)) = lookup other kept := by
      intro other different
      unfold advanceRow
      split
      · rfl
      · exact lookup_store_ne _ _ different
    obtain ⟨absent, present⟩ := ih (advanceRow before draw kept ((key, content), place)) unique.2
    rw [List.foldl_cons]
    constructor
    · intro missing
      rw [List.map_cons, List.mem_cons, not_or] at missing
      rw [absent missing.2, away rid missing.1]
    · intro row place' member
      rcases List.mem_cons.mp member with here | later
      · cases here
        rw [absent unique.1]
        constructor
        · intro same
          rw [advanceRow, if_pos same]
        · intro changed
          rw [advanceRow, if_neg (by rw [changed]; decide)]
          exact lookup_store_self ..
      · have different : rid ≠ key := by
          rintro rfl
          exact unique.1 (List.mem_map.mpr ⟨_, later, rfl⟩)
        rw [← away rid different]
        exact present row place' later

theorem lookup_advanceRows (nonces before : List (String × Json)) (draw : Nat → String) (unique : (Json.dict after).distinct = true)
    (found : lookup rid after = some row) :
    ((lookup rid before).any (Json.sameText · row) = true → lookup rid (advanceRows nonces before after draw) = lookup rid nonces) ∧
    ((lookup rid before).any (Json.sameText · row) = false →
      ∃ place, after[place]? = some (rid, row) ∧ lookup rid (advanceRows nonces before after draw) = some (.str (draw place))) := by
  rw [Json.distinct, Bool.and_eq_true, decide_eq_true_eq] at unique
  have names : after.zipIdx.map (fun row => row.1.1) = after.map Prod.fst := by
    rw [show (fun row : (String × Json) × Nat => row.1.1) = Prod.fst ∘ Prod.fst from rfl, ← List.map_map, List.zipIdx_map_fst]
  obtain ⟨place, bound, there⟩ := List.getElem_of_mem (mem_of_lookup found)
  have member : ((rid, row), place) ∈ after.zipIdx := by
    rw [List.mem_zipIdx_iff_getElem?, List.getElem?_eq_getElem bound, there]
  obtain ⟨same, changed⟩ := (lookup_advanceRow before draw rid (nonces.filter fun field => (lookup field.1 after).isSome) (names ▸ unique.1)).2
    row place member
  constructor
  · intro here
    rw [advanceRows, same here, Json.lookup_filter fun key => (lookup key after).isSome, found]
    rfl
  · intro here
    exact ⟨place, by rw [List.getElem?_eq_getElem bound, there], changed here⟩

variable {scope : Scope} {document original next : Document} {identity : Option String}

theorem Document.get?_set_ne {key other : String} {value : Json} {distinct : value.distinct = true} (different : other ≠ key) :
    (document.set key value distinct).get? other = document.get? other := lookup_store_ne _ _ different

theorem Document.rows_distinct (document : Document) (collection : String) : (Json.dict (document.rows collection)).distinct = true := by
  cases found : (document.get? "collections").bind (Json.get? collection) with
  | none =>
    rw [Document.rows, found]
    rfl
  | some stored =>
    rw [Document.rows, found]
    obtain ⟨collections, there, found⟩ := Option.bind_eq_some_iff.mp found
    have distinct := Json.distinct_lookup document.distinct there
    cases collections with
    | dict fields => exact Json.distinct_fields (Json.distinct_lookup distinct found)
    | _ => cases found

theorem lifecycle_mem (scope : Scope) : scope.lifecycle ∈ LIFECYCLE_MODES := by
  unfold Scope.lifecycle
  split
  · exact List.mem_cons_self ..
  · exact List.mem_cons_of_mem _ (List.mem_singleton_self _)

theorem lifecycle_key (scope : Scope) : "collections" ≠ scope.lifecycle.key := by
  unfold Scope.lifecycle
  split
  · decide
  · decide

theorem validate_keys (valid : validate scope document = .ok ()) (present : (document.get? scope.lifecycle.key).isSome) (rid : String) :
    (lookup rid (document.rows scope.lifecycle.collection)).isSome = (lookup rid (document.nonces scope.lifecycle)).isSome := by
  obtain ⟨metadata, found⟩ := Option.isSome_iff_exists.mp present
  simp only [validate, bind_ok] at valid
  obtain ⟨_, _, _, checked, _⟩ := valid
  have here := forM_ok checked _ (lifecycle_mem scope)
  rw [reject_ok, found, Option.any_some, Bool.not_eq_false'] at here
  cases metadata with
  | dict metadata =>
    simp only [validMetadata, Bool.and_eq_true] at here
    obtain ⟨_, rows⟩ := here
    cases stored : lookup "rows" metadata with
    | none => simp [stored] at rows
    | some nonces =>
      rw [stored, Option.any_some] at rows
      simp only [Bool.and_eq_true, sameKeys, List.all_eq_true] at rows
      have same : document.nonces scope.lifecycle = nonces.fields := by
        rw [Document.nonces, found, Option.bind_some, Json.get?, stored]
        rfl
      rw [same, Bool.eq_iff_iff]
      constructor
      · intro row
        obtain ⟨value, there⟩ := Option.isSome_iff_exists.mp row
        exact rows.2.1 _ (mem_of_lookup there)
      · intro nonce
        obtain ⟨value, there⟩ := Option.isSome_iff_exists.mp nonce
        exact rows.2.2 _ (mem_of_lookup there)
  | _ => cases here

/-- Where the metadata of a document advances: its rows stay, and its nonces are advanced from those of the previous document. -/
theorem advanceLifecycles_nonces (document : Document) (draw : Nat → String) {metadata : {metadata : List (String × Json) // (Json.dict metadata).distinct = true}}
    (starts : startMetadata original scope.lifecycle identity draw = some metadata) :
    (advanceLifecycles scope document original identity draw).rows scope.lifecycle.collection = document.rows scope.lifecycle.collection ∧
    (advanceLifecycles scope document original identity draw).nonces scope.lifecycle =
      advanceRows ((lookup "rows" metadata.1).getD (.dict [])).fields (original.rows scope.lifecycle.collection)
        (document.rows scope.lifecycle.collection) fun place => draw (place + 1) := by
  simp only [advanceLifecycles, starts]
  constructor
  · rw [Document.rows, Document.get?_set_ne (lifecycle_key scope)]
    rfl
  · rw [Document.nonces, Document.get?, Document.set, lookup_store_self, Option.bind_some, Json.get?, lookup_store_self]
    rfl

/-- How the nonces of a committed document follow those of the previous one; `seen` are the nonces of all documents before. A nonce is kept
exactly for a row that was there with the same content; any other is in no document before, and of no other row. -/
structure Exact (scope : Scope) (seen : List Json) (previous next : Document) : Prop where
  same : ∀ rid nonce, lookup rid (next.nonces scope.lifecycle) = some nonce → (lookup rid (previous.nonces scope.lifecycle) = some nonce ↔
    ∃ row row', lookup rid (previous.rows scope.lifecycle.collection) = some row ∧ lookup rid (next.rows scope.lifecycle.collection) = some row' ∧
      Json.sameText row row' = true)
  fresh : ∀ rid nonce, lookup rid (next.nonces scope.lifecycle) = some nonce → lookup rid (previous.nonces scope.lifecycle) ≠ some nonce →
    nonce ∉ seen ∧ ∀ other, lookup other (next.nonces scope.lifecycle) = some nonce → other = rid

theorem startMetadata_nonces {draw : Nat → String} {metadata : {metadata : List (String × Json) // (Json.dict metadata).distinct = true}}
    (starts : startMetadata original scope.lifecycle identity draw = some metadata) :
    ((lookup "rows" metadata.1).getD (.dict [])).fields = original.nonces scope.lifecycle := by
  unfold startMetadata at starts
  split at starts
  · rename_i stored found
    obtain rfl := Option.some.inj starts
    have same : original.nonces scope.lifecycle = ((stored.get? "rows").getD (.dict [])).fields := by
      rw [Document.nonces, found]
      rfl
    rw [same]
    cases stored with
    | dict fields => rfl
    | _ => rfl
  · rename_i found
    obtain ⟨identity, _, rfl⟩ := Option.map_eq_some_iff.mp starts
    have same : original.nonces scope.lifecycle = [] := by
      rw [Document.nonces, found]
      rfl
    rw [same]
    rfl

theorem keepsMetadata_none (kept : keepsMetadata document original = true) (absent : original.get? scope.lifecycle.key = none) :
    document.get? scope.lifecycle.key = none := by
  have here := List.all_eq_true.mp kept _ (lifecycle_mem scope)
  rw [absent] at here
  cases found : document.get? scope.lifecycle.key with
  | none => rfl
  | some _ => simp [found] at here


/-- The values of `uuid4` are unique, and none was seen before. -/
structure Fresh (draw : Nat → String) (seen : List Json) : Prop where
  unique : ∀ place other, draw place = draw other → place = other
  unseen : ∀ place, Json.str (draw place) ∉ seen

/-- A nonce behind a change is the one of a row that is as it was, or is drawn at the place of its row. -/
theorem advanced_nonce {draw : Nat → String} {metadata : {metadata : List (String × Json) // (Json.dict metadata).distinct = true}} {nonce row : Json}
    (starts : startMetadata original scope.lifecycle identity draw = some metadata)
    (found : lookup rid ((advanceLifecycles scope document original identity draw).nonces scope.lifecycle) = some nonce)
    (stored : lookup rid (document.rows scope.lifecycle.collection) = some row) :
    (lookup rid (original.nonces scope.lifecycle) = some nonce ∧
      (lookup rid (original.rows scope.lifecycle.collection)).any (Json.sameText · row) = true) ∨
    ((lookup rid (original.rows scope.lifecycle.collection)).any (Json.sameText · row) = false ∧
      ∃ place, (document.rows scope.lifecycle.collection)[place]? = some (rid, row) ∧ nonce = .str (draw (place + 1))) := by
  obtain ⟨_, nonces⟩ := advanceLifecycles_nonces document draw starts
  rw [nonces, startMetadata_nonces starts] at found
  obtain ⟨stays, draws⟩ := lookup_advanceRows (original.nonces scope.lifecycle) (original.rows scope.lifecycle.collection)
    (fun place => draw (place + 1)) (document.rows_distinct _) stored
  by_cases same : (lookup rid (original.rows scope.lifecycle.collection)).any (Json.sameText · row) = true
  · exact .inl ⟨(stays same).symm.trans found, same⟩
  · rw [Bool.not_eq_true] at same
    obtain ⟨place, there, drawn⟩ := draws same
    exact .inr ⟨same, place, there, Option.some.inj (found.symm.trans drawn)⟩

variable {seen : List Json}

theorem advanceLifecycles_exact {draw : Nat → String}
    {metadata : {metadata : List (String × Json) // (Json.dict metadata).distinct = true}}
    (starts : startMetadata original scope.lifecycle identity draw = some metadata) (fresh : Fresh draw seen)
    (known : ∀ rid nonce, lookup rid (original.nonces scope.lifecycle) = some nonce → nonce ∈ seen)
    (keys : ∀ rid, (lookup rid ((advanceLifecycles scope document original identity draw).rows scope.lifecycle.collection)).isSome =
      (lookup rid ((advanceLifecycles scope document original identity draw).nonces scope.lifecycle)).isSome) :
    Exact scope seen original (advanceLifecycles scope document original identity draw) := by
  obtain ⟨rows, _⟩ := advanceLifecycles_nonces document draw starts
  have each : ∀ rid nonce, lookup rid ((advanceLifecycles scope document original identity draw).nonces scope.lifecycle) = some nonce →
      ∃ row, lookup rid (document.rows scope.lifecycle.collection) = some row := by
    intro rid nonce found
    have there := keys rid
    rw [found, rows] at there
    exact Option.isSome_iff_exists.mp there
  constructor
  · intro rid nonce found
    obtain ⟨row', stored⟩ := each rid nonce found
    rw [rows]
    rcases advanced_nonce starts found stored with ⟨before, same⟩ | ⟨changed, place, _, drawn⟩
    · cases there : lookup rid (original.rows scope.lifecycle.collection) with
      | none =>
        rw [there] at same
        cases same
      | some row =>
        rw [there, Option.any_some] at same
        exact ⟨fun _ => ⟨row, row', rfl, stored, same⟩, fun _ => before⟩
    · constructor
      · intro before
        exact absurd (drawn ▸ known rid nonce before) (fresh.unseen _)
      · intro ⟨row, other, there, stored', text⟩
        obtain rfl := Option.some.inj (stored.symm.trans stored')
        rw [there, Option.any_some, text] at changed
        cases changed
  · intro rid nonce found changed
    obtain ⟨row', stored⟩ := each rid nonce found
    rcases advanced_nonce starts found stored with ⟨before, _⟩ | ⟨_, place, there, drawn⟩
    · exact absurd before changed
    · subst drawn
      refine ⟨fresh.unseen _, ?_⟩
      intro other elsewhere
      obtain ⟨row'', stored'⟩ := each other _ elsewhere
      rcases advanced_nonce starts elsewhere stored' with ⟨before, _⟩ | ⟨_, place', there', drawn⟩
      · exact absurd (known other _ before) (fresh.unseen _)
      · -- one value is drawn at one place, and at a place there is one row
        have here := fresh.unique _ _ (Json.str.inj drawn)
        obtain rfl : place = place' := Nat.succ.inj here
        exact congrArg Prod.fst (Option.some.inj (there'.symm.trans there))

variable {around : Surroundings}

theorem replacement_exact (done : replacement around scope document original identity = .ok next)
    (kept : keepsMetadata document original = true) (fresh : Fresh around.draw seen)
    (known : ∀ rid nonce, lookup rid (original.nonces scope.lifecycle) = some nonce → nonce ∈ seen) :
    validate scope next = .ok () ∧ ((next.get? scope.lifecycle.key).isSome → Exact scope seen original next) := by
  simp only [replacement, bind_ok, pure_ok] at done
  obtain ⟨_, _, _, valid, _, _, rfl⟩ := done
  refine ⟨valid, ?_⟩
  intro present
  cases starts : startMetadata original scope.lifecycle identity around.draw with
  | none =>
    -- no metadata, no identity: the document stays without
    have absent : original.get? scope.lifecycle.key = none := by
      unfold startMetadata at starts
      split at starts
      · cases starts
      · rename_i found
        exact found
    simp only [advanceLifecycles, starts] at present
    rw [keepsMetadata_none kept absent] at present
    cases present
  | some metadata => exact advanceLifecycles_exact starts fresh known (validate_keys valid present)

theorem Exact.refl (keys : ∀ rid, (lookup rid (document.rows scope.lifecycle.collection)).isSome =
    (lookup rid (document.nonces scope.lifecycle)).isSome) : Exact scope seen document document := by
  constructor
  · intro rid nonce found
    have there := keys rid
    rw [found] at there
    obtain ⟨row, stored⟩ := Option.isSome_iff_exists.mp there
    have text := Json.sameText_refl row (Json.distinct_lookup (document.rows_distinct _) stored)
    exact ⟨fun _ => ⟨row, row, stored, stored, text⟩, fun _ => found⟩
  · intro rid nonce found changed
    exact absurd found changed

variable {body : Body} {observation : Bool}

theorem fileTransaction_ok {file : Option Document}
    (done : fileTransaction around scope observation body file = .ok (some next)) : ∃ original document identity,
    snapshot scope file = .ok original ∧ keepsMetadata document original = true ∧ replacement around scope document original identity = .ok next := by
  simp only [fileTransaction, bind_ok, reject_ok, Bool.not_eq_false'] at done
  obtain ⟨_, _, _, _, original, reads, document, _, _, _, _, kept, _, _, done⟩ := done
  split at done
  · cases pure_ok.mp done
  · refine ⟨original, document, if file.isNone then around.owner else none, reads, kept, ?_⟩
    cases replaced : replacement around scope document original (if file.isNone then around.owner else none) with
    | error failure =>
      rw [replaced] at done
      cases done
    | ok committed =>
      rw [replaced] at done
      cases done
      rfl

theorem postgresTransaction_ok {row : Option Document}
    (done : postgresTransaction scope observation body row = .ok next) : validate scope next = .ok () := by
  simp only [postgresTransaction, bind_ok, pure_ok] at done
  obtain ⟨_, _, _, before, document, _, _, _, _, after, same⟩ := done
  split at same
  · rw [← same]
    exact before
  · rw [← same]
    exact after

theorem snapshot_ok {file : Option Document} (reads : snapshot scope file = .ok original) : original = file.getD scope.empty := by
  cases file with
  | none => exact (pure_ok.mp reads).symm
  | some document =>
    simp only [snapshot, bind_ok, pure_ok] at reads
    obtain ⟨_, _, rfl⟩ := reads
    rfl

theorem empty_nonces (scope : Scope) : scope.empty.nonces scope.lifecycle = [] := by
  unfold Scope.lifecycle
  split
  · rfl
  · rfl

theorem putInPlace_cases (disk : Disk) (content : Document) (file : Option Document) (place left : Nat) :
    (∃ failure, putInPlace disk content file place left = (.error failure, file)) ∨
    putInPlace disk content file place left = (.ok (), some content) := by
  induction left generalizing place with
  | zero =>
    rw [putInPlace]
    cases disk.attempt place with
    | replaced => exact .inr rfl
    | denied failure => exact .inl ⟨failure, rfl⟩
    | failed failure => exact .inl ⟨failure, rfl⟩
  | succ left ih =>
    rw [putInPlace]
    cases disk.attempt place with
    | replaced => exact .inr rfl
    | denied failure => exact ih (place + 1)
    | failed failure => exact .inl ⟨failure, rfl⟩

theorem atomicWrite_cases (disk : Disk) (content : Document) (file : Option Document) :
    (∃ failure, atomicWrite disk content file = (.error failure, file)) ∨ atomicWrite disk content file = (.ok (), some content) := by
  rw [atomicWrite]
  cases disk.written with
  | error failure => exact .inl ⟨failure, rfl⟩
  | ok => exact putInPlace_cases disk content file 0 4

theorem transaction_cases (backend : Backend) (around : Surroundings) (scope : Scope) (observation : Bool) (body : Body)
    (committed : Option Document) :
    (transaction backend around scope observation body committed).2 = committed ∨
    (transaction backend around scope observation body committed).1 = .ok () ∧ ∃ next,
      (transaction backend around scope observation body committed).2 = some next ∧
      (backend = .file ∧ fileTransaction around scope observation body committed = .ok (some next) ∨
        backend = .postgres ∧ postgresTransaction scope observation body committed = .ok next) := by
  cases backend with
  | file =>
    cases done : fileTransaction around scope observation body committed with
    | error failure =>
      rw [transaction, done]
      exact .inl rfl
    | ok written =>
      cases written with
      | none =>
        rw [transaction, done]
        exact .inl rfl
      | some next =>
        rw [transaction, done]
        dsimp only
        rcases atomicWrite_cases around.disk next committed with ⟨failure, same⟩ | same
        · rw [same]
          exact .inl rfl
        · rw [same]
          exact .inr ⟨rfl, next, rfl, .inl ⟨rfl, rfl⟩⟩
  | postgres =>
    cases done : postgresTransaction scope observation body committed with
    | error failure =>
      rw [transaction, done]
      exact .inl rfl
    | ok next =>
      rw [transaction, done]
      cases around.commit with
      | error failure => exact .inl rfl
      | ok => exact .inr ⟨rfl, next, rfl, .inr ⟨rfl, rfl⟩⟩

/-- What is committed, and the nonces of everything that was committed so far. -/
structure Committed where
  document : Option Document
  seen : List Json

def noncesOf (scope : Scope) (document : Option Document) : List Json :=
  match document with
  | none => []
  | some document => (document.nonces scope.lifecycle).map Prod.snd

def Committed.start (scope : Scope) (document : Option Document) : Committed := ⟨document, noncesOf scope document⟩

/-- What is committed behind a transaction, and the nonces seen then. -/
def Committed.behind (state : Committed) (scope : Scope) (document : Option Document) : Committed :=
  ⟨document, noncesOf scope document ++ state.seen⟩

/-- A transaction with any body; the nonces that it may draw are fresh. -/
inductive Transacts (backend : Backend) (scope : Scope) : Committed → Except Failure Unit → Committed → Prop where
  | transact {state : Committed} {around : Surroundings} (observation : Bool) (body : Body) (fresh : Fresh around.draw state.seen) :
      Transacts backend scope state (transaction backend around scope observation body state.document).1
        (state.behind scope (transaction backend around scope observation body state.document).2)

variable {backend : Backend} {state later : Committed} {outcome : Except Failure Unit}

theorem Transacts.of_eq {document : Option Document}
    (fresh : Fresh around.draw state.seen) (done : transaction backend around scope observation body state.document = (outcome, document)) :
    Transacts backend scope state outcome (state.behind scope document) := by
  have step : Transacts backend scope state _ _ := .transact observation body fresh
  rw [done] at step
  exact step

/-- What is committed is valid, and its nonces were seen. -/
structure Kept (scope : Scope) (state : Committed) : Prop where
  valid : ∀ document, state.document = some document → validate scope document = .ok ()
  seen : ∀ nonce ∈ noncesOf scope state.document, nonce ∈ state.seen

theorem Kept.start {document : Option Document} (valid : ∀ stored, document = some stored → validate scope stored = .ok ()) :
    Kept scope (.start scope document) := ⟨valid, fun _ member => member⟩

theorem Kept.known (kept : Kept scope state) {nonce : Json}
    (found : lookup rid ((state.document.getD scope.empty).nonces scope.lifecycle) = some nonce) : nonce ∈ state.seen := by
  cases there : state.document with
  | none =>
    rw [there, Option.getD_none, empty_nonces] at found
    cases found
  | some previous =>
    rw [there, Option.getD_some] at found
    refine kept.seen nonce ?_
    rw [there]
    exact List.mem_map.mpr ⟨_, mem_of_lookup found, rfl⟩

theorem Kept.written (kept : Kept scope state) (fresh : Fresh around.draw state.seen)
    (done : fileTransaction around scope observation body state.document = .ok (some next)) :
    validate scope next = .ok () ∧ ((next.get? scope.lifecycle.key).isSome → Exact scope state.seen (state.document.getD scope.empty) next) := by
  obtain ⟨original, document, identity, reads, metadata, done⟩ := fileTransaction_ok done
  obtain rfl := snapshot_ok reads
  exact replacement_exact done metadata fresh fun rid nonce found => kept.known found

theorem Kept.step (kept : Kept scope state) (step : Transacts backend scope state outcome later) : Kept scope later := by
  cases step with
  | @transact around observation body fresh =>
    constructor
    · intro document found
      rcases transaction_cases backend around scope observation body state.document with same | ⟨_, next, same, ⟨_, done⟩ | ⟨_, done⟩⟩
      · exact kept.valid document (same ▸ found)
      · obtain rfl := Option.some.inj (same.symm.trans found)
        exact (kept.written fresh done).1
      · obtain rfl := Option.some.inj (same.symm.trans found)
        exact postgresTransaction_ok done
    · intro nonce member
      exact List.mem_append_left _ member

/-- A transaction that raises leaves what is committed; the metadata of what is committed has the keys of the rows; and in the file backend
the nonces follow the rows exactly. -/
theorem transactions_exact {committed : Option Document} {labels : List (Except Failure Unit)}
    (valid : ∀ document, committed = some document → validate scope document = .ok ())
    (run : Run (Transacts backend scope) (.start scope committed) labels state) (step : Transacts backend scope state outcome later) :
    (∀ failure, outcome = .error failure → later.document = state.document) ∧
    ∀ next, later.document = some next → (next.get? scope.lifecycle.key).isSome →
      (∀ rid, (lookup rid (next.rows scope.lifecycle.collection)).isSome = (lookup rid (next.nonces scope.lifecycle)).isSome) ∧
      (backend = .file → Exact scope state.seen (state.document.getD scope.empty) next) := by
  have kept : Kept scope state := run.invariant (Kept.start valid) Kept.step
  have followed := kept.step step
  cases step with
  | @transact around observation body fresh =>
    have cases_of := transaction_cases backend around scope observation body state.document
    constructor
    · intro failure raised
      rcases cases_of with same | ⟨ended, _⟩
      · exact same
      · rw [ended] at raised
        cases raised
    · intro next found present
      have keys := validate_keys (followed.valid next found) present
      refine ⟨keys, ?_⟩
      intro file
      rcases cases_of with same | ⟨_, written, same, ⟨_, done⟩ | ⟨other, _⟩⟩
      · have before : state.document = some next := same ▸ found
        rw [before]
        exact Exact.refl keys
      · obtain rfl := Option.some.inj (same.symm.trans found)
        exact (kept.written fresh done).2 present
      · rw [file] at other
        cases other

def localScope : Scope := ⟨"n", [("novel_id", .str "n"), ("mode", .str "local")], rfl⟩

def firstNonce : String := "11111111-1111-4111-8111-111111111111"
def secondNonce : String := "22222222-2222-4222-8222-222222222222"
def thirdNonce : String := "33333333-3333-4333-8333-333333333333"

/-- A document with one row; with a nonce for it, where one is given. -/
def oneRow (content : String) (nonce : Option String) : Document :=
  ⟨[("schema_version", .int 1), ("novel_id", .str "n"), ("scope", .dict localScope.fields),
      ("collections", .dict [(OBSERVED_COLLECTION, .dict [("r", .dict [("text", .str content)])])])] ++
      (nonce.map fun nonce => (LIFECYCLE, Json.dict [("schema_version", .int 1), ("project_identity", .str ("file:" ++ firstNonce)),
        ("document_incarnation", .str firstNonce), ("rows", .dict [("r", .str nonce)])])).toList, by
    cases nonce with
    | none => rfl
    | some nonce => rfl⟩

/-- The surroundings of a transaction in which nothing fails: the first value of `uuid4`, and the one behind it. -/
def calm (first second : String) : Surroundings where
  residue := .ok ()
  owner := some ("file:" ++ firstNonce)
  residueAgain := .ok ()
  ownerAgain := .ok ("file:" ++ firstNonce)
  disk := ⟨.ok (), fun _ => .replaced⟩
  commit := .ok ()
  draw
    | 0 => first
    | 1 => second
    | place + 2 => String.ofList (List.replicate (place + 40) 'x')

theorem calm_fresh {first second : String} (different : first ≠ second)
    (short : ∀ text ∈ [first, second], text.toList.length = 36 ∧ Json.str text ∉ seen)
    (shorts : ∀ text, Json.str text ∈ seen → text.toList.length = 36) : Fresh (calm first second).draw seen := by
  have long : ∀ place, (String.ofList (List.replicate (place + 40) 'x')).toList.length = place + 40 := by
    intro place
    rw [String.toList_ofList, List.length_replicate]
  obtain ⟨one, two⟩ : first.toList.length = 36 ∧ second.toList.length = 36 := ⟨(short _ (by simp)).1, (short _ (by simp)).1⟩
  constructor
  · intro place other same
    match place, other with
    | 0, 0 | 1, 1 => rfl
    | 0, 1 => exact absurd same different
    | 1, 0 => exact absurd same.symm different
    | place + 2, other + 2 =>
      have lengths := congrArg (fun text : String => text.toList.length) same
      simp only [calm, long] at lengths
      omega
    | 0, place + 2 | 1, place + 2 | place + 2, 0 | place + 2, 1 =>
      have lengths := congrArg (fun text : String => text.toList.length) same
      simp only [calm, long] at lengths
      omega
  · intro place member
    match place with
    | 0 => exact (short first (by simp)).2 member
    | 1 => exact (short second (by simp)).2 member
    | place + 2 =>
      have length := shorts _ member
      simp only [calm, long] at length
      omega

def writesRow (content : String) : Body := fun document =>
  .ok (document.set "collections" (.dict [(OBSERVED_COLLECTION, .dict [("r", .dict [("text", .str content)])])]) rfl)

theorem row_created : transaction .file (calm firstNonce secondNonce) localScope false (writesRow "a") none =
    (.ok (), some (oneRow "a" (some secondNonce))) := by
  rfl

theorem row_changed : transaction .file (calm firstNonce thirdNonce) localScope false (writesRow "b") (some (oneRow "a" (some secondNonce))) =
    (.ok (), some (oneRow "b" (some thirdNonce))) := by
  rfl

theorem first_fresh : Fresh (calm firstNonce secondNonce).draw [] :=
  calm_fresh (by decide) (by decide) nofun

theorem changed_fresh : Fresh (calm firstNonce thirdNonce).draw [.str secondNonce] := by
  refine calm_fresh (by decide) (by decide) ?_
  intro text member
  obtain rfl := Json.str.inj (List.mem_singleton.mp member)
  decide

/-- The nonce of a row whose text changes. -/
theorem transactions_exact_changed :
    Exact localScope [.str secondNonce] (oneRow "a" (some secondNonce)) (oneRow "b" (some thirdNonce)) := by
  have created : Transacts .file localScope (.start localScope none) (.ok ()) ((Committed.start localScope none).behind localScope
      (some (oneRow "a" (some secondNonce)))) := .of_eq first_fresh row_created
  have changed : Transacts .file localScope ⟨some (oneRow "a" (some secondNonce)), [.str secondNonce]⟩ (.ok ())
      ((Committed.mk (some (oneRow "a" (some secondNonce))) [.str secondNonce]).behind localScope (some (oneRow "b" (some thirdNonce)))) :=
    .of_eq changed_fresh row_changed
  have valid : ∀ document, (none : Option Document) = some document → validate localScope document = .ok () := nofun
  exact ((transactions_exact valid (Run.one created) changed).2 _ rfl rfl).2 rfl

theorem row_injected : transaction .postgres (calm firstNonce thirdNonce) localScope false (fun _ => .ok (oneRow "a" (some secondNonce))) none =
    (.ok (), some (oneRow "a" (some secondNonce))) := by
  rfl

theorem row_edited : transaction .postgres (calm firstNonce thirdNonce) localScope false (fun _ => .ok (oneRow "b" (some secondNonce)))
    (some (oneRow "a" (some secondNonce))) = (.ok (), some (oneRow "b" (some secondNonce))) := by
  rfl

/-- The PostgreSQL backend does not advance lifecycles: a nonce that a body writes stays with the row when its text changes. -/
theorem injected_nonce_stays : ∃ labels state later next, Run (Transacts .postgres localScope) (.start localScope none) labels state ∧
    Transacts .postgres localScope state (.ok ()) later ∧ later.document = some next ∧ (next.get? localScope.lifecycle.key).isSome ∧
    ¬ Exact localScope state.seen (state.document.getD localScope.empty) next := by
  have injected : Transacts .postgres localScope (.start localScope none) (.ok ()) ⟨some (oneRow "a" (some secondNonce)), [.str secondNonce]⟩ :=
    .of_eq (calm_fresh (by decide) (by decide) nofun) row_injected
  have edited : Transacts .postgres localScope ⟨some (oneRow "a" (some secondNonce)), [.str secondNonce]⟩ (.ok ())
      ((Committed.mk (some (oneRow "a" (some secondNonce))) [.str secondNonce]).behind localScope (some (oneRow "b" (some secondNonce)))) :=
    .of_eq changed_fresh row_edited
  refine ⟨_, _, _, _, Run.one injected, edited, rfl, rfl, ?_⟩
  intro follows
  obtain ⟨row, row', there, stored, text⟩ := (follows.same "r" (.str secondNonce) rfl).mp rfl
  obtain rfl := Option.some.inj there
  obtain rfl := Option.some.inj stored
  simp [Json.sameText, Json.sameFields, lookup] at text

end NovelStudio.Experimental
