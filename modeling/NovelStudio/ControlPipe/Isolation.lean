import NovelStudio.ControlPipe.Reader

/-! When the control pipe keeps its lines apart: the commands it applies are those of its
lines within the limit as long as no exception leaves the loop and what is left of an
oversized line reads as no command. -/

namespace NovelStudio.ControlPipe

open Library

variable {σ : Type} (backend : Backend σ) (interpreter : Interpreter) (runtimeInstanceId : PyStr)

/-- What the lines of a stream do from a place on: each one within the limit by itself, where
a failing line does nothing. -/
def meant (state : State σ) (position : Nat) : List (List UInt8) → State σ × List (Nat × Command)
  | [] => (state, [])
  | line :: rest =>
    let next := position + line.length
    if line.length > MAX_FRAME_BYTES then meant state next rest
    else
      match handle backend interpreter runtimeInstanceId state line with
      | .applied command changed =>
        let later := meant changed next rest
        (later.1, (position, command) :: later.2)
      | .rejected | .raised _ => meant state next rest

def opened (state : State σ) : Progress σ := ⟨state, ⟨true, 0, 0, 0, 0⟩, 0, []⟩

/-- The reader comes to the end of the stream, and did what its lines mean. -/
def Isolated (state : State σ) (source : Source UInt8) : Prop :=
  ∃ progress, read backend interpreter runtimeInstanceId (opened state) source = .closed progress ∧
    (progress.state, progress.log) = meant backend interpreter runtimeInstanceId state 0 (lines isNewline source.rest)

/-- The vault raises on a command: a backend that fails with no memory to fall back to, one that
fails in another way, or a `clear` of a vault that has degraded. -/
def Vault.fails (vault : Vault σ) : Command → Bool
  | .ping => false
  | .set provider credential =>
    match vault.active with
    | .inr _ => false
    | .inl store =>
      match backend.set store provider credential with
      | .ok _ | .error .value => false
      | .error (.unavailable _) => vault.profileV2 || !vault.allowMemoryFallback
      | .error _ => true
  | .clear provider =>
    vault.degraded.isSome ||
      match vault.active with
      | .inr _ => false
      | .inl store =>
        match backend.clear store provider with
        | .ok _ => false
        | .error _ => true

/-- The vault refuses a command with a `ValueError` of its backend. -/
def Vault.refuses (vault : Vault σ) : Command → Bool
  | .set provider credential =>
    match vault.active with
    | .inl store =>
      match backend.set store provider credential with
      | .error .value => true
      | _ => false
    | .inr _ => false
  | _ => false

/-- A frame within the limit that is handled: reading it raises nothing, and neither does the vault on its command. -/
def Handled (state : State σ) (frame : List UInt8) : Prop :=
  ∃ command, denoted interpreter runtimeInstanceId frame = .ok command ∧ ∀ asked, command = some asked → state.vault.fails backend asked = false

/-- What is left of an oversized line, read as a frame: it denotes no command, or one the vault refuses. -/
def Inert (state : State σ) (piece : List UInt8) : Prop :=
  piece.length ≤ MAX_FRAME_BYTES → ∃ command, denoted interpreter runtimeInstanceId piece = .ok command ∧
    ∀ asked, command = some asked → state.vault.refuses backend asked = true

/-- The state after a line: that of its command, where it is applied. -/
def after (state : State σ) (line : List UInt8) : State σ :=
  match handle backend interpreter runtimeInstanceId state line with
  | .applied _ changed => changed
  | .rejected | .raised _ => state

/-- Every line within the limit is handled in the state the lines before it lead to, and every
piece of an oversized line after its first is inert there. -/
def Contained (state : State σ) : List (List UInt8) → Prop
  | [] => True
  | line :: rest =>
    if line.length > MAX_FRAME_BYTES then
      (∀ piece ∈ frames isNewline (MAX_FRAME_BYTES + 1) (line.drop (MAX_FRAME_BYTES + 1)),
        Inert backend interpreter runtimeInstanceId state piece) ∧ Contained state rest
    else
      Handled backend interpreter runtimeInstanceId state line ∧ Contained (after backend interpreter runtimeInstanceId state line) rest

/-- A command names a supported provider, and a credential that the vault takes. -/
def Command.Valid : Command → Prop
  | .ping => True
  | .set provider credential => provider ∈ SUPPORTED_PROVIDERS ∧ credential ≠ [] ∧ broken credential = false ∧
      ∃ length, encodedLength credential = some length ∧ length ≤ 1024
  | .clear provider => provider ∈ SUPPORTED_PROVIDERS

theorem canonical_of_supported : ∀ provider ∈ SUPPORTED_PROVIDERS, isCanonicalProviderId provider = true := by decide

theorem supportedProvider_ok (found : supportedProvider value = .ok (some provider)) : provider ∈ SUPPORTED_PROVIDERS := by
  unfold supportedProvider at found
  split at found
  · exact List.mem_of_find?_eq_some (Except.ok.inj found)
  · cases found
  · cases found
  · cases found

theorem checkedCredential_ok (found : checkedCredential value = .ok (some credential)) :
    credential ≠ [] ∧ broken credential = false ∧ ∃ length, encodedLength credential = some length ∧ length ≤ 1024 := by
  unfold checkedCredential at found
  split at found
  · split at found
    · cases found
    · rename_i text filled
      split at found
      · cases found
      · rename_i length encoded
        split at found
        · cases found
        · rename_i accepted
          cases found
          simp only [Bool.or_eq_true, decide_eq_true_eq, not_or, not_lt] at accepted
          exact ⟨by simpa using filled, by simpa using accepted.2, length, encoded, accepted.1⟩
  · cases found

variable {backend interpreter runtimeInstanceId}

theorem denoted_valid (found : denoted interpreter runtimeInstanceId frame = .ok (some command)) : command.Valid := by
  unfold denoted at found
  split at found
  · cases found
  · cases found
  · split at found
    · cases found
    · split at found
      · cases found
        trivial
      · unfold credentialCommand at found
        split at found
        · cases found
        · split at found
          · cases found
          · cases found
          · rename_i supported
            have member := supportedProvider_ok supported
            simp only at found
            split at found
            · split at found
              · cases found
                exact member
              · cases found
            · split at found
              · cases found
              · split at found
                · cases found
                · cases found
                · rename_i checked
                  cases found
                  exact ⟨member, checkedCredential_ok checked⟩

variable {vault : Vault σ}

theorem validateProvider_ok (supported : provider ∈ SUPPORTED_PROVIDERS) : validateProvider vault provider = .ok () := by
  simp [validateProvider, canonical_of_supported provider supported, supported]

theorem Vault.set_eq {credential : PyStr} (valid : (Command.set provider credential).Valid) :
    vault.set backend provider credential = vault.store backend provider credential := by
  obtain ⟨supported, filled, plain, length, encoded, short⟩ := valid
  have small : ¬ length > 4096 := by omega
  simp [Vault.set, validateProvider_ok supported, encoded, filled, plain, small, fetch, reject, bind, Except.bind, pure, Except.pure]

theorem Vault.clear_eq (supported : provider ∈ SUPPORTED_PROVIDERS) :
    vault.clear backend provider =
      match vault.degraded with
      | some reason => .error (.unavailable reason)
      | none => vault.forget backend provider := by
  cases degraded : vault.degraded <;>
    simp [Vault.clear, validateProvider_ok supported, degraded, reject, bind, Except.bind, pure, Except.pure, throw, throwThe,
      MonadExceptOf.throw]

theorem degradeAfterFailure_eq (vault : Vault σ) (code : String) :
    degradeAfterFailure vault code =
      if vault.profileV2 || !vault.allowMemoryFallback then .error (.unavailable code)
      else .ok { vault with active := .inr ∅, degraded := some code } := by
  unfold degradeAfterFailure
  cases vault.profileV2 || !vault.allowMemoryFallback <;> rfl

/-- How a command that a frame denotes ends: the vault fails, it refuses, or the command is applied. -/
theorem perform_cases (backend : Backend σ) {command : Command} (valid : command.Valid) (state : State σ) :
    (∃ failure, perform backend state command = .error failure ∧ state.vault.fails backend command = true ∧
        state.vault.refuses backend command = false) ∨
      (perform backend state command = .ok none ∧ state.vault.fails backend command = false ∧
        state.vault.refuses backend command = true) ∨
      ∃ next, perform backend state command = .ok (some next) ∧ state.vault.fails backend command = false ∧
        state.vault.refuses backend command = false := by
  cases command with
  | ping => exact .inr (.inr ⟨_, rfl, rfl, rfl⟩)
  | set provider credential =>
    simp only [perform, Vault.set_eq valid, Vault.store, Vault.fails, Vault.refuses]
    cases state.vault.active with
    | inr memory => simp
    | inl store =>
      cases computed : backend.set store provider credential with
      | ok store => simp [computed]
      | error failure =>
        cases failure with
        | value | type | recursion | other => simp [computed]
        | unavailable code =>
          simp only [computed, degradeAfterFailure_eq]
          cases state.vault.profileV2 || !state.vault.allowMemoryFallback <;> simp
  | clear provider =>
    simp only [perform, Vault.clear_eq valid, Vault.forget, Vault.fails, Vault.refuses]
    cases state.vault.degraded with
    | some reason => simp
    | none =>
      cases state.vault.active with
      | inr memory => simp
      | inl store => cases computed : backend.clear store provider <;> simp [computed]

variable {state : State σ}

theorem handled_iff : Handled backend interpreter runtimeInstanceId state frame ↔
    ∀ failure, handle backend interpreter runtimeInstanceId state frame ≠ .raised failure := by
  unfold Handled handle
  cases found : denoted interpreter runtimeInstanceId frame with
  | error failure => simp
  | ok command =>
    cases command with
    | none => simp
    | some command =>
      rcases perform_cases backend (denoted_valid found) state with ⟨_, done, fails, _⟩ | ⟨done, fails, _⟩ | ⟨_, done, fails, _⟩ <;>
        simp [done, fails]

theorem inert_iff : Inert backend interpreter runtimeInstanceId state piece ↔
    (piece.length ≤ MAX_FRAME_BYTES → handle backend interpreter runtimeInstanceId state piece = .rejected) := by
  unfold Inert handle
  refine imp_congr_right fun _ => ?_
  cases found : denoted interpreter runtimeInstanceId piece with
  | error failure => simp
  | ok command =>
    cases command with
    | none => simp
    | some command =>
      rcases perform_cases backend (denoted_valid found) state with ⟨_, done, _, refuses⟩ | ⟨done, _, refuses⟩ | ⟨_, done, _, refuses⟩ <;>
        simp [done, refuses]

/-- The turns for frames that were read. -/
def process (backend : Backend σ) (interpreter : Interpreter) (runtimeInstanceId : PyStr) (progress : Progress σ) :
    List (List UInt8) → Ended σ
  | [] => .closed { progress with status := { progress.status with alive := false } }
  | frame :: rest =>
    match turn backend interpreter runtimeInstanceId progress frame with
    | none => .died progress
    | some next => process backend interpreter runtimeInstanceId next rest

theorem read_eq (progress : Progress σ) (source : Source UInt8) :
    read backend interpreter runtimeInstanceId progress source =
      process backend interpreter runtimeInstanceId progress (frames isNewline (MAX_FRAME_BYTES + 1) source.rest) := by
  rw [read]
  split
  · rename_i more
    have some : source.rest ≠ [] := by
      intro none
      have taken := nextFrame_eq source
      rw [none] at taken
      exact more (Prod.mk.inj taken).1.symm
    have first : frames isNewline (MAX_FRAME_BYTES + 1) source.rest =
        (nextFrame source).1 :: frames isNewline (MAX_FRAME_BYTES + 1) (nextFrame source).2.rest := by
      have read := @framesFrom_cons _ isNewline (MAX_FRAME_BYTES + 1) _ (Nat.succ_pos MAX_FRAME_BYTES) _ some
      rwa [nextFrame_eq] at read
    rw [first, process]
    cases taken : turn backend interpreter runtimeInstanceId progress (nextFrame source).1 with
    | none => rfl
    | some next => exact read_eq next (nextFrame source).2
  · rename_i none
    have taken := nextFrame_eq source
    rw [not_not.mp none] at taken
    have ended := (takeLine_nil_iff (Nat.succ_pos MAX_FRAME_BYTES)).mp (congrArg Prod.fst taken)
    rw [ended]
    rfl
termination_by source.rest.length
decreasing_by exact nextFrame_shorter ‹_›

variable {progress : Progress σ}

theorem turn_rejected (inert : frame.length ≤ MAX_FRAME_BYTES →
      handle backend interpreter runtimeInstanceId progress.state frame = .rejected) :
    ∃ next, turn backend interpreter runtimeInstanceId progress frame = some next ∧ next.state = progress.state ∧
      next.log = progress.log ∧ next.position = progress.position + frame.length := by
  unfold turn
  by_cases long : frame.length > MAX_FRAME_BYTES
  · simp [long]
  · simp [long, inert (by omega)]

theorem log_of_turn {next : Progress σ} (done : turn backend interpreter runtimeInstanceId progress frame = some next) :
    (next.log = progress.log ∧ next.state = progress.state ∨ ∃ command, next.log = progress.log ++ [(progress.position, command)]) ∧
      next.position = progress.position + frame.length := by
  unfold turn at done
  simp only at done
  split at done
  · cases done
    exact ⟨.inl ⟨rfl, rfl⟩, rfl⟩
  · split at done
    · cases done
      exact ⟨.inl ⟨rfl, rfl⟩, rfl⟩
    · cases done
      exact ⟨.inr ⟨_, rfl⟩, rfl⟩
    · cases done

theorem handle_of_unlogged {next : Progress σ} (done : turn backend interpreter runtimeInstanceId progress frame = some next)
    (same : next.log = progress.log) (short : frame.length ≤ MAX_FRAME_BYTES) :
    handle backend interpreter runtimeInstanceId progress.state frame = .rejected := by
  have fits : ¬ frame.length > MAX_FRAME_BYTES := by omega
  simp only [turn, if_neg fits] at done
  split at done
  · assumption
  · cases done
    simp at same
  · cases done

variable {last : Progress σ}

theorem log_of_process (done : process backend interpreter runtimeInstanceId progress rest = .closed last) :
    ∃ more, last.log = progress.log ++ more := by
  induction rest generalizing progress with
  | nil =>
    cases done
    exact ⟨[], by simp⟩
  | cons frame rest ih =>
    rw [process] at done
    split at done
    · cases done
    · rename_i next taken
      obtain ⟨more, grown⟩ := ih done
      rcases (log_of_turn taken).1 with ⟨same, _⟩ | ⟨command, added⟩
      · exact ⟨more, by rw [grown, same]⟩
      · exact ⟨_, by rw [grown, added, List.append_assoc]⟩

theorem process_inert (rest : List (List UInt8))
    (inert : ∀ piece ∈ pieces, piece.length ≤ MAX_FRAME_BYTES →
      handle backend interpreter runtimeInstanceId progress.state piece = .rejected) :
    ∃ next, process backend interpreter runtimeInstanceId progress (pieces ++ rest) =
        process backend interpreter runtimeInstanceId next rest ∧
      next.state = progress.state ∧ next.log = progress.log ∧ next.position = progress.position + pieces.flatten.length := by
  induction pieces generalizing progress with
  | nil => exact ⟨progress, rfl, rfl, rfl, by simp⟩
  | cons piece pieces ih =>
    obtain ⟨next, taken, state, log, position⟩ := turn_rejected (inert piece (List.mem_cons_self ..))
    obtain ⟨last, done, state', log', position'⟩ := @ih next (fun other member short => by
      rw [state]
      exact inert other (List.mem_cons_of_mem _ member) short)
    refine ⟨last, by rw [List.cons_append, process, taken]; exact done, state'.trans state, log'.trans log, ?_⟩
    rw [position', position, List.flatten_cons, List.length_append, Nat.add_assoc]

theorem process_pieces (filled : ∀ piece ∈ pieces, piece ≠ [])
    (done : process backend interpreter runtimeInstanceId progress (pieces ++ rest) = .closed last) :
    (∀ piece ∈ pieces, piece.length ≤ MAX_FRAME_BYTES → handle backend interpreter runtimeInstanceId progress.state piece = .rejected) ∨
      ∃ position command more, last.log = progress.log ++ (position, command) :: more ∧ progress.position ≤ position ∧
        position < progress.position + pieces.flatten.length := by
  induction pieces generalizing progress with
  | nil => exact .inl nofun
  | cons piece pieces ih =>
    rw [List.cons_append, process] at done
    split at done
    · cases done
    · rename_i next taken
      have some := List.length_pos_iff.mpr (filled piece (List.mem_cons_self ..))
      obtain ⟨grown, position⟩ := log_of_turn taken
      rw [List.flatten_cons, List.length_append]
      rcases grown with ⟨same, state⟩ | ⟨command, added⟩
      · rcases @ih next (fun other member => filled other (List.mem_cons_of_mem _ member)) done with inert | ⟨place, command, more, log, low, high⟩
        · refine .inl fun other member short => ?_
          rcases List.mem_cons.mp member with rfl | member
          · exact handle_of_unlogged taken same short
          · exact state ▸ inert other member short
        · exact .inr ⟨place, command, more, by rw [log, same], by omega, by omega⟩
      · obtain ⟨more, log⟩ := log_of_process done
        exact .inr ⟨progress.position, command, more, by rw [log, added, List.append_assoc]; rfl, le_refl _, by omega⟩

theorem position_le_meant {position : Nat} {rest : List (List UInt8)} :
    ∀ entry ∈ (meant backend interpreter runtimeInstanceId state position rest).2, position ≤ entry.1 := by
  induction rest generalizing state position with
  | nil => simp [meant]
  | cons line rest ih =>
    intro entry member
    simp only [meant] at member
    split at member
    · exact (Nat.le_add_right ..).trans (ih entry member)
    · split at member
      · rcases List.mem_cons.mp member with rfl | member
        · exact le_refl _
        · exact (Nat.le_add_right ..).trans (ih entry member)
      all_goals exact (Nat.le_add_right ..).trans (ih entry member)

theorem frames_of_oversized (whole : IsLine isNewline line) (long : line.length > MAX_FRAME_BYTES) :
    ∃ first, frames isNewline (MAX_FRAME_BYTES + 1) line =
        first :: frames isNewline (MAX_FRAME_BYTES + 1) (line.drop (MAX_FRAME_BYTES + 1)) ∧ first.length = MAX_FRAME_BYTES + 1 ∧
      (first :: frames isNewline (MAX_FRAME_BYTES + 1) (line.drop (MAX_FRAME_BYTES + 1))).flatten = line := by
  refine ⟨line.take (MAX_FRAME_BYTES + 1), frames_of_long whole (Nat.succ_pos _), ?_, ?_⟩
  · rw [List.length_take]
    omega
  · rw [List.flatten_cons, frames, flatten_framesFrom, List.take_append_drop]

theorem process_of_contained {lines : List (List UInt8)} (whole : ∀ line ∈ lines, IsLine isNewline line)
    (contained : Contained backend interpreter runtimeInstanceId progress.state lines) :
    ∃ last, process backend interpreter runtimeInstanceId progress (lines.flatMap (frames isNewline (MAX_FRAME_BYTES + 1))) = .closed last ∧
      last.state = (meant backend interpreter runtimeInstanceId progress.state progress.position lines).1 ∧
      last.log = progress.log ++ (meant backend interpreter runtimeInstanceId progress.state progress.position lines).2 := by
  induction lines generalizing progress with
  | nil => exact ⟨_, rfl, rfl, by simp [meant]⟩
  | cons line lines ih =>
    have here := whole line (List.mem_cons_self ..)
    have others := fun line member => whole line (List.mem_cons_of_mem _ member)
    rw [List.flatMap_cons, meant]
    rw [Contained] at contained
    by_cases long : line.length > MAX_FRAME_BYTES
    · rw [if_pos long] at contained ⊢
      obtain ⟨first, framed, exceeds, parts⟩ := frames_of_oversized here long
      have inert : ∀ piece ∈ first :: frames isNewline (MAX_FRAME_BYTES + 1) (line.drop (MAX_FRAME_BYTES + 1)),
          piece.length ≤ MAX_FRAME_BYTES → handle backend interpreter runtimeInstanceId progress.state piece = .rejected := by
        intro piece member
        rcases List.mem_cons.mp member with rfl | member
        · omega
        · exact inert_iff.mp (contained.1 piece member)
      obtain ⟨next, done, state, log, position⟩ := process_inert (lines.flatMap (frames isNewline (MAX_FRAME_BYTES + 1))) inert
      obtain ⟨last, closed, state', log'⟩ := @ih next others (state ▸ contained.2)
      rw [framed, done]
      refine ⟨last, closed, ?_, ?_⟩
      · rw [state', state, position, parts]
      · rw [log', state, log, position, parts]
    · rw [if_neg long] at contained ⊢
      rw [frames_of_short here (Nat.succ_pos _) (by omega), List.singleton_append, process, turn, if_neg long]
      have handled := handled_iff.mp contained.1
      have rest := contained.2
      unfold after at rest
      cases outcome : handle backend interpreter runtimeInstanceId progress.state line with
      | rejected =>
        rw [outcome] at rest
        exact @ih { progress with status := progress.status.rejected, position := progress.position + line.length } others rest
      | applied command changed =>
        rw [outcome] at rest
        obtain ⟨last, closed, state, log⟩ := @ih ⟨changed, progress.status.applied, progress.position + line.length,
          progress.log ++ [(progress.position, command)]⟩ others rest
        exact ⟨last, closed, state, by rw [log, List.append_assoc]; rfl⟩
      | raised failure => exact (handled failure outcome).elim

theorem contained_of_process {lines : List (List UInt8)} (whole : ∀ line ∈ lines, IsLine isNewline line)
    (done : process backend interpreter runtimeInstanceId progress (lines.flatMap (frames isNewline (MAX_FRAME_BYTES + 1))) = .closed last)
    (log : last.log = progress.log ++ (meant backend interpreter runtimeInstanceId progress.state progress.position lines).2) :
    Contained backend interpreter runtimeInstanceId progress.state lines := by
  induction lines generalizing progress with
  | nil => trivial
  | cons line lines ih =>
    have here := whole line (List.mem_cons_self ..)
    have others := fun line member => whole line (List.mem_cons_of_mem _ member)
    rw [List.flatMap_cons] at done
    rw [meant] at log
    rw [Contained]
    by_cases long : line.length > MAX_FRAME_BYTES
    · rw [if_pos long] at log ⊢
      obtain ⟨first, framed, exceeds, parts⟩ := frames_of_oversized here long
      rw [framed] at done
      rcases process_pieces (framed ▸ ne_nil_of_mem_framesFrom) done with inert | ⟨place, command, more, logged, low, high⟩
      · obtain ⟨next, same, state, log', position⟩ := process_inert (lines.flatMap (frames isNewline (MAX_FRAME_BYTES + 1))) inert
        rw [same] at done
        refine ⟨fun piece member => inert_iff.mpr (inert piece (List.mem_cons_of_mem _ member)), state ▸ ih others done ?_⟩
        rw [log, log', state, position, parts]
      · rw [parts] at high
        have entries := List.append_cancel_left (logged.symm.trans log)
        have later := position_le_meant (place, command) (entries ▸ List.mem_cons_self ..)
        omega
    · rw [if_neg long] at log ⊢
      rw [frames_of_short here (Nat.succ_pos _) (by omega), List.singleton_append, process, turn, if_neg long] at done
      unfold after
      cases outcome : handle backend interpreter runtimeInstanceId progress.state line with
      | rejected =>
        rw [outcome] at done log
        refine ⟨handled_iff.mpr fun failure raised => ?_,
          @ih { progress with status := progress.status.rejected, position := progress.position + line.length } others done log⟩
        rw [outcome] at raised
        cases raised
      | applied command changed =>
        rw [outcome] at done log
        refine ⟨handled_iff.mpr fun failure raised => ?_, @ih ⟨changed, progress.status.applied, progress.position + line.length,
          progress.log ++ [(progress.position, command)]⟩ others done (by rw [log, List.append_assoc]; rfl)⟩
        rw [outcome] at raised
        cases raised
      | raised failure =>
        rw [outcome] at done
        cases done

theorem contained_of_isolated {source : Source UInt8}
    (isolated : Isolated backend interpreter runtimeInstanceId state source) :
    Contained backend interpreter runtimeInstanceId state (lines isNewline source.rest) := by
  obtain ⟨last, done, effects⟩ := isolated
  rw [read_eq, frames_eq] at done
  exact @contained_of_process _ _ _ _ (opened state) last _ isLine_of_mem_lines done (Prod.mk.inj effects).2

theorem isolated_of_contained {source : Source UInt8}
    (contained : Contained backend interpreter runtimeInstanceId state (lines isNewline source.rest)) :
    Isolated backend interpreter runtimeInstanceId state source := by
  obtain ⟨last, done, state', log⟩ := @process_of_contained _ _ _ _ (opened state) _ isLine_of_mem_lines contained
  refine ⟨last, ?_, Prod.ext state' log⟩
  rw [read_eq, frames_eq]
  exact done

/-- The reader keeps the lines of its stream apart just when they are contained: none within
the limit makes an exception leave the loop, and what is left of an oversized one is inert. -/
theorem isolated_iff_contained (backend : Backend σ) (interpreter : Interpreter) (runtimeInstanceId : PyStr) (state : State σ)
    (source : Source UInt8) :
    Isolated backend interpreter runtimeInstanceId state source ↔
      Contained backend interpreter runtimeInstanceId state (lines isNewline source.rest) :=
  ⟨contained_of_isolated, isolated_of_contained⟩

def memoryBackend : Backend (Dict String PyStr) where
  set store provider secret := .ok (store.set provider secret)
  clear store provider := .ok (store.erase provider)

def sampleInterpreter : Interpreter where
  depth := 900
  repr _ := []

def sampleState : State (Dict String PyStr) := ⟨0, ⟨.inl ∅, none, false, false, []⟩, ∅⟩

def bytes (text : String) : List UInt8 := text.toUTF8.toList

def pingLine : List UInt8 := bytes "\x7b\"protocol\":\"packaged-control/v1\",\"type\":\"ping\",\"runtime_instance_id\":\"r\"\x7d\n"

/-- A frame whose provider can not be hashed. -/
def listedProvider : List UInt8 :=
  bytes "\x7b\"protocol\":\"packaged-credential/v1\",\"type\":\"\",\"runtime_instance_id\":\"r\",\"provider\":[]\x7d\n"

theorem pingLine_isLine : IsLine isNewline pingLine := ⟨by decide +kernel, by decide +kernel⟩

/-- So many blanks that the reader takes them for a frame, and a ping on the same line. -/
def paddedPing : List UInt8 := List.replicate (MAX_FRAME_BYTES + 1) 32 ++ pingLine

theorem paddedPing_isLine : IsLine isNewline paddedPing := by
  obtain ⟨some, inner⟩ := pingLine_isLine
  refine ⟨fun none => some (List.append_eq_nil_iff.mp none).2, fun item inside => ?_⟩
  rw [paddedPing, List.dropLast_append_of_ne_nil some] at inside
  rcases List.mem_append.mp inside with blank | inside
  · rw [List.eq_of_mem_replicate blank]
    rfl
  · exact inner item inside

theorem paddedPing_drop : MAX_FRAME_BYTES + 1 ≤ paddedPing.length ∧ paddedPing.drop (MAX_FRAME_BYTES + 1) = pingLine := by
  constructor
  · rw [paddedPing, List.length_append, List.length_replicate]
    exact Nat.le_add_right ..
  · rw [paddedPing, List.drop_append, List.length_replicate, Nat.sub_self, List.drop_zero, List.drop_of_length_le (by simp),
      List.nil_append]

theorem not_isolated_of_ping {line : List UInt8} (whole : IsLine isNewline line) (long : MAX_FRAME_BYTES + 1 ≤ line.length)
    (left : line.drop (MAX_FRAME_BYTES + 1) = pingLine) :
    ¬ Isolated memoryBackend sampleInterpreter (pyStr "r") sampleState ⟨[], [line]⟩ := by
  intro isolated
  have contained := contained_of_isolated isolated
  have one : lines isNewline (Source.rest ⟨[], [line]⟩) = [line] := by
    simpa [Source.rest] using lines_of_isLine whole
  rw [one, Contained, if_pos (by omega), left, frames_of_short pingLine_isLine (Nat.succ_pos _) (by decide +kernel)] at contained
  obtain ⟨command, found, refused⟩ := contained.1 pingLine (List.mem_singleton_self _) (by decide +kernel)
  have ping : denoted sampleInterpreter (pyStr "r") pingLine = .ok (some .ping) := by decide +kernel
  cases found.symm.trans ping
  cases refused .ping rfl

/-- The end of an oversized line is taken for a ping, and a provider that can not be hashed
ends the reader before the ping of the next line. -/
theorem not_isolated :
    ¬ Isolated memoryBackend sampleInterpreter (pyStr "r") sampleState ⟨[], [paddedPing]⟩ ∧
      ¬ Isolated memoryBackend sampleInterpreter (pyStr "r") sampleState ⟨[], [listedProvider, pingLine]⟩ := by
  refine ⟨not_isolated_of_ping paddedPing_isLine paddedPing_drop.1 paddedPing_drop.2, ?_⟩
  intro isolated
  have contained := contained_of_isolated isolated
  have two : lines isNewline (Source.rest ⟨[], [listedProvider, pingLine]⟩) = [listedProvider, pingLine] := by decide +kernel
  rw [two, Contained, if_neg (by decide +kernel)] at contained
  obtain ⟨_, found, _⟩ := contained.1
  have raises : denoted sampleInterpreter (pyStr "r") listedProvider = .error .type := by decide +kernel
  cases found.symm.trans raises

end NovelStudio.ControlPipe
