import Mathlib.Data.List.Nodup
import Mathlib.Logic.Function.Basic
import NovelStudio.Identity.Registry
import NovelStudio.Library.Transition

/-! What the calls of the identity store do to the rows of their kind. -/

namespace NovelStudio.Identity

open Library

/-- Rows that `_validate_rows` takes. -/
structure WellFormed (rows : List Row) : Prop where
  keys : (rows.map Row.key).Nodup
  ids : (rows.map Row.identityId).Nodup
  each : ∀ row ∈ rows, isBlank row.key = false ∧ row.identityId ≠ 0 ∧ Json.finiteFields row.metadata = true

theorem WellFormed.nil : WellFormed [] := ⟨List.nodup_nil, List.nodup_nil, nofun⟩

theorem WellFormed.sublist {rows kept : List Row} (formed : WellFormed rows) (sublist : kept.Sublist rows) : WellFormed kept :=
  ⟨formed.keys.sublist (sublist.map _), formed.ids.sublist (sublist.map _), fun row member => formed.each row (sublist.subset member)⟩

theorem wellFormed_snoc {rows : List Row} {row : Row} : WellFormed (rows ++ [row]) ↔ WellFormed rows ∧ row.key ∉ rows.map Row.key ∧
    row.identityId ∉ rows.map Row.identityId ∧ isBlank row.key = false ∧ row.identityId ≠ 0 ∧ Json.finiteFields row.metadata = true := by
  constructor
  · intro formed
    have keys := formed.keys
    have ids := formed.ids
    rw [List.map_append, List.nodup_append] at keys ids
    refine ⟨formed.sublist (List.sublist_append_left ..), ?_, ?_, formed.each row (by simp)⟩
    · intro member
      exact keys.2.2 _ member row.key (List.mem_singleton_self _) rfl
    · intro member
      exact ids.2.2 _ member row.identityId (List.mem_singleton_self _) rfl
  · intro ⟨formed, key, id, valid⟩
    constructor
    · rw [List.map_append, List.nodup_append]
      refine ⟨formed.keys, List.nodup_singleton _, ?_⟩
      intro one member other single same
      exact key (List.mem_singleton.mp single ▸ same ▸ member)
    · rw [List.map_append, List.nodup_append]
      refine ⟨formed.ids, List.nodup_singleton _, ?_⟩
      intro one member other single same
      exact id (List.mem_singleton.mp single ▸ same ▸ member)
    · intro other member
      rcases List.mem_append.mp member with member | member
      · exact formed.each other member
      · rw [List.mem_singleton.mp member]
        exact valid

theorem validateRow_ok {kind : Kind} {validated next : List Row} {row : Row} (formed : WellFormed validated) :
    validateRow kind validated row = .ok next ↔ next = validated ++ [row] ∧ WellFormed (validated ++ [row]) := by
  rw [wellFormed_snoc]
  simp only [validateRow, bind_ok, pure_ok, reject_ok, decide_eq_false_iff_not, Bool.not_eq_false']
  constructor
  · rintro ⟨_, blank, _, key, _, zero, _, id, _, finite, rfl⟩
    exact ⟨rfl, formed, key, id, blank, zero, finite⟩
  · rintro ⟨rfl, _, key, id, blank, zero, finite⟩
    exact ⟨(), blank, (), key, (), zero, (), id, (), finite, rfl⟩

theorem validateRows_ok {kind : Kind} {rows result : List Row} : validateRows kind rows = .ok result ↔ result = rows ∧ WellFormed rows := by
  have general : ∀ (rest validated : List Row), WellFormed validated →
      (rest.foldlM (validateRow kind) validated = .ok result ↔ result = validated ++ rest ∧ WellFormed (validated ++ rest)) := by
    intro rest
    induction rest with
    | nil =>
      intro validated formed
      rw [foldlM_nil_ok, List.append_nil]
      exact ⟨fun same => ⟨same.symm, formed⟩, fun same => same.1.symm⟩
    | cons row rest ih =>
      intro validated formed
      rw [foldlM_cons_ok]
      constructor
      · intro ⟨next, turned, done⟩
        obtain ⟨rfl, formed'⟩ := (validateRow_ok formed).mp turned
        simpa using (ih _ formed').mp done
      · intro ⟨same, all⟩
        have formed' : WellFormed (validated ++ [row]) := by
          refine all.sublist ?_
          rw [show validated ++ row :: rest = (validated ++ [row]) ++ rest by simp]
          exact List.sublist_append_left ..
        refine ⟨_, (validateRow_ok formed).mpr ⟨rfl, formed'⟩, (ih _ formed').mpr ?_⟩
        simpa using ⟨same, all⟩
  exact general rows [] .nil

def contents (file : File) : Entities := file.getD fun _ => []

theorem read_ok {file : File} {data : Entities} : read file = .ok data ↔ data = contents file ∧ ∀ kind, WellFormed (contents file kind) := by
  cases file with
  | none =>
    simp only [read, pure_ok, contents, Option.getD_none]
    exact ⟨fun same => ⟨same.symm, fun _ => .nil⟩, fun known => known.1.symm⟩
  | some entities =>
    simp only [read, bind_ok, pure_ok, contents, Option.getD_some]
    constructor
    · intro ⟨_, checked, same⟩
      refine ⟨same.symm, ?_⟩
      intro kind
      have here : kind ∈ Kind.all := by cases kind <;> decide
      obtain ⟨rows, done⟩ := discard_ok.mp (forM_ok checked kind here)
      exact (validateRows_ok.mp done).2
    · intro ⟨same, formed⟩
      have each : ∀ kind, discard (validateRows kind (entities kind)) = .ok () :=
        fun kind => discard_ok.mpr ⟨_, validateRows_ok.mpr ⟨rfl, formed kind⟩⟩
      refine ⟨(), ?_, same.symm⟩
      simp only [Kind.all, List.forM_eq_forM, List.forM_cons, List.forM_nil, bind_ok, pure_ok]
      exact ⟨_, each .provider, _, each .model, _, each .runtime, _, each .executionNode, trivial⟩

/-- How a call changes the rows of its kind; the identities of its new rows are drawn or supplied. -/
inductive Edit (drawn supplied : List Uuid) (rows : List Row) : List Row → Prop where
  | grow {news : List Row} (origin : ∀ row ∈ news, row.identityId ∈ drawn ∨ row.identityId ∈ supplied) : Edit drawn supplied rows (rows ++ news)
  | annotate {key : String} {metadata : List (String × Json)} : Edit drawn supplied rows (withMetadata key metadata rows)

variable {host : Host} {kind : Kind} {key : String} {metadata : Option Metadata} {drawn : Uuid} {data : Entities} {candidate : Option Entities}

theorem append_ok {result : Uuid} (done : append kind key metadata drawn data = .ok (result, candidate)) : result = drawn ∧
    ∃ fields, candidate = some (replaced data kind (data kind ++ [⟨key, drawn, fields⟩])) ∧ WellFormed (data kind ++ [⟨key, drawn, fields⟩]) := by
  simp only [append, bind_ok, pure_ok, Prod.mk.injEq] at done
  obtain ⟨fields, _, rows, checked, rfl, rfl⟩ := done
  obtain ⟨rfl, formed⟩ := validateRows_ok.mp checked
  exact ⟨rfl, fields, rfl, formed⟩

theorem update_ok {identityId : Option RawId} {result : Uuid} (done : update host kind key identityId metadata data = .ok (result, candidate)) :
    candidate = none ∨ ∃ fields, candidate = some (replaced data kind (withMetadata key fields (data kind))) ∧
      WellFormed (withMetadata key fields (data kind)) := by
  simp only [update, bind_ok] at done
  obtain ⟨row, _, _, _, done⟩ := done
  cases metadata with
  | none =>
    obtain ⟨_, rfl⟩ := Prod.mk.inj (pure_ok.mp done)
    exact .inl rfl
  | some metadata =>
    simp only [bind_ok, pure_ok, Prod.mk.injEq] at done
    obtain ⟨fields, _, rows, checked, _, rfl⟩ := done
    obtain ⟨rfl, formed⟩ := validateRows_ok.mp checked
    exact .inr ⟨fields, rfl, formed⟩

theorem delete_ok {gone : String} (done : delete host kind key data = .ok (gone, candidate)) :
    candidate = some (replaced data kind ((data kind).filter (·.key ≠ gone))) := by
  simp only [delete, bind_ok, pure_ok, Prod.mk.injEq] at done
  obtain ⟨found, _, _, _, rfl, rfl⟩ := done
  rfl

/-- The identities that the entries of a legacy source supply. -/
def supplied (host : Host) (kind : Kind) (entries : List Entry) : List Uuid :=
  entries.filterMap fun entry =>
    match entry with
    | .mapping _ (some raw) _ => (validateUuid host kind raw).toOption
    | _ => none

/-- Each turn of `migrate` keeps the rows so far, and adds at most one whose identity is drawn or supplied. -/
theorem migrateEntry_ok {so next : Migrated} {turn : Entry × Uuid} (done : migrateEntry host kind so turn = .ok next) :
    ∃ news, next.rows = so.rows ++ news ∧ ∀ row ∈ news, row.identityId = turn.2 ∨ row.identityId ∈ supplied host kind [turn.1] := by
  obtain ⟨entry, drawn⟩ := turn
  cases entry with
  | other => cases done
  | mapping key raw metadata =>
    simp only [migrateEntry, bind_ok, fetch_ok] at done
    obtain ⟨key, rfl, _, _, _, _, done⟩ := done
    split at done
    · simp only [bind_ok, pure_ok] at done
      obtain ⟨_, _, rfl⟩ := done
      exact ⟨[], (List.append_nil _).symm, List.forall_mem_nil _⟩
    · simp only [bind_ok, pure_ok] at done
      obtain ⟨identity, chosen, _, _, fields, _, rfl⟩ := done
      refine ⟨[_], rfl, ?_⟩
      intro row member
      rw [List.mem_singleton.mp member]
      cases raw with
      | none => exact .inl (pure_ok.mp chosen).symm
      | some raw =>
        right
        have given : validateUuid host kind raw = .ok identity := chosen
        simp [supplied, given, Except.toOption]

theorem migrate_ok {entries : List Entry} {draws : List Uuid} {result : List (String × Uuid)}
    (done : migrate host kind (entries.zip draws) data = .ok (result, candidate)) :
    candidate = none ∨ ∃ rows, candidate = some (replaced data kind rows) ∧ WellFormed rows ∧ Edit draws (supplied host kind entries) (data kind) rows := by
  simp only [migrate, bind_ok, pure_ok, Prod.mk.injEq] at done
  obtain ⟨so, turned, rows, checked, _, rfl⟩ := done
  obtain ⟨rfl, formed⟩ := validateRows_ok.mp checked
  have grown : ∃ news, so.rows = data kind ++ news ∧ ∀ row ∈ news, row.identityId ∈ draws ∨ row.identityId ∈ supplied host kind entries := by
    refine foldlM_invariant (motive := fun _ so => ∃ news, so.rows = data kind ++ news ∧
      ∀ row ∈ news, row.identityId ∈ draws ∨ row.identityId ∈ supplied host kind entries) ?_ ⟨[], (List.append_nil _).symm, nofun⟩ turned
    intro before turn so next member known done
    obtain ⟨news, same, origin⟩ := known
    obtain ⟨more, same', origin'⟩ := migrateEntry_ok done
    refine ⟨news ++ more, by rw [same', same, List.append_assoc], ?_⟩
    intro row new
    rcases List.mem_append.mp new with new | new
    · exact origin row new
    · rcases origin' row new with drawn | given
      · exact .inl (drawn ▸ (List.of_mem_zip member).2)
      · refine .inr (List.mem_filterMap.mpr ?_)
        obtain ⟨entry, here, found⟩ := List.mem_filterMap.mp given
        rw [List.mem_singleton.mp here] at found
        exact ⟨turn.1, (List.of_mem_zip member).1, found⟩
  obtain ⟨news, same, origin⟩ := grown
  by_cases changed : so.rows ≠ data kind
  · rw [if_pos changed]
    refine .inr ⟨_, rfl, formed, ?_⟩
    rw [same]
    exact .grow origin
  · rw [if_neg changed]
    exact .inl rfl

end NovelStudio.Identity

/-! The calls of the identity store one after the other, and what each does to the file. -/

namespace NovelStudio.Identity

open Library

/-- A call; the entries of `migrate` are those of its trusted source, if it has one. -/
inductive Call where
  | create (kind key : String) (metadata : Option Metadata)
  | getOrCreate (kind key : String) (metadata : Option Metadata)
  | update (kind key : String) (identityId : Option RawId) (metadata : Option Metadata)
  | delete (kind key : String)
  | migrate (kind : String) (entries : Option (List Entry))

inductive Outcome where
  | identity (identity : Uuid)
  | deleted (kind : Kind) (key : String)
  | identities (result : List (String × Uuid))

/-- A call that is refused before it takes the lock, or goes on with its kind. -/
def checked (file : File) (check : Except Failure Kind) (go : Kind → Except Failure Outcome × File) : Except Failure Outcome × File :=
  match check with
  | .error failure => (.error failure, file)
  | .ok kind => go kind

def telling (tell : α → Outcome) (done : Except Failure α × File) : Except Failure Outcome × File := (done.1.map tell, done.2)

/-- The kind and the entries of `migrate`. -/
def trusted (kind : String) (entries : Option (List Entry)) : Except Failure (Kind × List Entry) := do
  let kind ← knownKind kind (.value ("unknown identity kind: " ++ kind))
  let entries ← fetch entries (.integrity "IDENTITY_MIGRATION_TRUST_REQUIRED")
  return (kind, entries)

def Call.draws : Call → Nat
  | .create .. | .getOrCreate .. => 1
  | .migrate _ (some entries) => entries.length
  | _ => 0

/-- What a call returns or raises, and the file behind it; `draw` are the values of `uuid4`. -/
def perform (host : Host) (draw : Nat → Uuid) (file : File) : Call → Except Failure Outcome × File
  | .create kind key metadata => checked file (required kind key) fun kind =>
    telling .identity (mutate host file (create kind key metadata (draw 0)))
  | .getOrCreate kind key metadata => checked file (required kind key) fun kind =>
    telling .identity (mutate host file (getOrCreate kind key metadata (draw 0)))
  | .update kind key identityId metadata => checked file (knownKind kind (.key kind)) fun kind =>
    telling .identity (mutate host file (update host kind key identityId metadata))
  | .delete kind key => checked file (knownKind kind (.value ("unknown identity kind: " ++ kind))) fun kind =>
    telling (.deleted kind) (mutate host file (delete host kind key))
  | .migrate kind entries =>
    match trusted kind entries with
    | .error failure => (.error failure, file)
    | .ok (kind, entries) =>
      telling .identities (mutate host file (migrate host kind (entries.zip ((List.range entries.length).map draw))))

def Call.drawn (draw : Nat → Uuid) (call : Call) : List Uuid := (List.range call.draws).map draw

def Call.supplied (host : Host) : Call → List Uuid
  | .migrate kind (some entries) => (Kind.all.filter (·.name = kind)).flatMap fun kind => Identity.supplied host kind entries
  | _ => []

def Formed (file : File) : Prop := ∀ kind, WellFormed (contents file kind)

/-- How a call changes a file: not at all, or the rows of one kind. -/
inductive Change (drawn supplied : List Uuid) (file : File) : Except Failure Outcome → File → Prop where
  | kept {outcome : Except Failure Outcome} : Change drawn supplied file outcome file
  | edited {outcome : Outcome} {kind : Kind} {rows : List Row} (formed : WellFormed rows) (edit : Edit drawn supplied (contents file kind) rows) :
      Change drawn supplied file (.ok outcome) (some (replaced (contents file) kind rows))
  | dropped {kind : Kind} {key : String} : Change drawn supplied file (.ok (.deleted kind key))
      (some (replaced (contents file) kind ((contents file kind).filter (·.key ≠ key))))

variable {host : Host} {file : File} {drawn supplied : List Uuid} {kind : Kind}

theorem replaced_formed {data : Entities} {rows : List Row} (before : ∀ kind, WellFormed (data kind)) (formed : WellFormed rows) (other : Kind) :
    WellFormed (replaced data kind rows other) := by
  rw [replaced, Function.update_apply]
  split
  · exact formed
  · exact before other

theorem write_ok {data : Entities} (formed : ∀ kind, WellFormed (data kind)) : write host data file = match host.disk with
    | .error failure => (.error failure, file)
    | .ok _ => (.ok (), some data) := by
  have again : read (some data) = .ok data := read_ok.mpr ⟨rfl, formed⟩
  rw [write, again]
  rfl

theorem mutate_change {plan : Entities → Except Failure (α × Option Entities)} {tell : α → Outcome}
    (planned : Formed file → ∀ result candidate, plan (contents file) = .ok (result, some candidate) →
      (∀ kind, WellFormed (candidate kind)) ∧ Change drawn supplied file (.ok (tell result)) (some candidate)) :
    Change drawn supplied file (telling tell (mutate host file plan)).1 (telling tell (mutate host file plan)).2 := by
  unfold telling mutate
  split
  · exact .kept
  · exact .kept
  · rename_i result candidate done
    simp only [bind_ok] at done
    obtain ⟨_, _, data, reads, done⟩ := done
    obtain ⟨rfl, formed⟩ := read_ok.mp reads
    obtain ⟨formed', change⟩ := planned formed result candidate done
    rw [write_ok formed']
    split
    · rename_i fails
      split at fails
      · obtain ⟨_, rfl⟩ := Prod.mk.inj fails
        exact .kept
      · cases (Prod.mk.inj fails).1
    · rename_i writes
      split at writes
      · cases (Prod.mk.inj writes).1
      · obtain ⟨_, rfl⟩ := Prod.mk.inj writes
        exact change

theorem append_change {key : String} {metadata : Option Metadata} {draw result : Uuid} {candidate : Entities} (formed : Formed file) (here : draw ∈ drawn)
    (done : append kind key metadata draw (contents file) = .ok (result, some candidate)) :
    (∀ kind, WellFormed (candidate kind)) ∧ Change drawn supplied file (.ok (.identity result)) (some candidate) := by
  obtain ⟨_, fields, same, formed'⟩ := append_ok done
  obtain rfl := Option.some.inj same
  refine ⟨fun other => replaced_formed formed formed' other, .edited formed' (.grow ?_)⟩
  intro row member
  rw [List.mem_singleton.mp member]
  exact .inl here

theorem perform_change (host : Host) (draw : Nat → Uuid) (file : File) (call : Call) :
    Change (call.drawn draw) (call.supplied host) file (perform host draw file call).1 (perform host draw file call).2 := by
  cases call with
  | create kind key metadata =>
    simp only [perform, checked]
    split
    · exact .kept
    · refine mutate_change ?_
      intro formed result candidate done
      simp only [create, bind_ok] at done
      obtain ⟨_, _, done⟩ := done
      exact append_change formed (List.mem_map.mpr ⟨0, List.mem_range.mpr Nat.zero_lt_one, rfl⟩) done
  | getOrCreate kind key metadata =>
    simp only [perform, checked]
    split
    · exact .kept
    · refine mutate_change ?_
      intro formed result candidate done
      simp only [getOrCreate] at done
      split at done
      · cases done
      · exact append_change formed (List.mem_map.mpr ⟨0, List.mem_range.mpr Nat.zero_lt_one, rfl⟩) done
  | update kind key identityId metadata =>
    simp only [perform, checked]
    split
    · exact .kept
    · refine mutate_change ?_
      intro formed result candidate done
      rcases update_ok done with none | ⟨fields, same, formed'⟩
      · cases none
      · obtain rfl := Option.some.inj same
        exact ⟨fun other => replaced_formed formed formed' other, .edited formed' .annotate⟩
  | delete kind key =>
    simp only [perform, checked]
    split
    · exact .kept
    · refine mutate_change ?_
      intro formed result candidate done
      obtain rfl := Option.some.inj (delete_ok done)
      exact ⟨fun other => replaced_formed formed ((formed _).sublist List.filter_sublist) other, .dropped⟩
  | migrate name entries =>
    simp only [perform]
    split
    · exact .kept
    · rename_i known
      simp only [trusted, knownKind, bind_ok, pure_ok, fetch_ok, Prod.mk.injEq] at known
      obtain ⟨kind, here, given, rfl, rfl, rfl⟩ := known
      refine mutate_change ?_
      intro formed result candidate done
      rcases migrate_ok done with none | ⟨rows, same, formed', edit⟩
      · cases none
      · obtain rfl := Option.some.inj same
        refine ⟨fun other => replaced_formed formed formed' other, .edited formed' ?_⟩
        have inside : ∀ id ∈ Identity.supplied host kind given, id ∈ (Call.migrate name (some given)).supplied host := by
          intro id member
          refine List.mem_flatMap.mpr ⟨kind, List.mem_filter.mpr ⟨List.mem_of_find?_eq_some here, ?_⟩, member⟩
          simpa using List.find?_some here
        cases edit with
        | grow origin => exact .grow fun row member => (origin row member).imp_right (inside _)
        | annotate => exact .annotate

end NovelStudio.Identity
