import NovelStudio.Library.Dict
import NovelStudio.Library.Lines
import NovelStudio.PluginWorker.Protocol

/-! The control pipe of packaged runtimes (`control_pipe.py`) and the credential vault it
writes to (`credential_vault.py`, `provider_support.py`). -/

namespace NovelStudio.ControlPipe

open Library
open PluginWorker (Fields field asDict)

def MAX_FRAME_BYTES : Nat := 4096
def PROTOCOL : String := "packaged-control/v1"
def CREDENTIAL_PROTOCOL : String := "packaged-credential/v1"

/-- `STATIC_CREDENTIAL_PROVIDERS`. -/
def SUPPORTED_PROVIDERS : List String :=
  ["deepseek", "openai", "claude", "gemini", "ddshub", "siliconflow",
    "aliyun-bailian", "runway", "kling", "minimax", "seedance", "custom"]

inductive Raised where
  | value
  | type
  /-- `VaultUnavailableError` with its code. -/
  | unavailable (code : String)
  | recursion
  | other
  deriving DecidableEq

/-- `len(text.encode())`, which a lone surrogate has none of. -/
def encodedLength : PyStr → Option Nat
  | [] => some 0
  | point :: rest =>
    if 0xD800 ≤ point && point ≤ 0xDFFF then none
    else
      (encodedLength rest).map fun length =>
        length + if point < 0x80 then 1 else if point < 0x800 then 2 else if point < 0x10000 then 3 else 4

/-- `any(c in text for c in "\0\r\n")`. -/
def broken (text : PyStr) : Bool := text.any fun point => point = 0 || point = 13 || point = 10

/-- A backend of the vault; a call that raises stores nothing. -/
structure Backend (σ : Type) where
  set : σ → String → PyStr → Except Raised σ
  clear : σ → String → Except Raised σ

/-- `CredentialVault`, whose memory backend takes over when it degrades. -/
structure Vault (σ : Type) where
  active : σ ⊕ Dict String PyStr
  degraded : Option String
  profileV2 : Bool
  allowMemoryFallback : Bool
  /-- The provider ids of the registry's sources. -/
  registered : List String

section
variable {σ : Type} (backend : Backend σ)

def isProviderChar (char : Char) : Bool :=
  ('a' ≤ char && char ≤ 'z') || ('0' ≤ char && char ≤ '9') || char = '_' || char = '-'

def isCanonicalProviderId (provider : String) : Bool :=
  provider.toList ≠ [] && provider.toList.length ≤ 64 && provider.toList.all isProviderChar

def validateProvider (vault : Vault σ) (provider : String) : Except Raised Unit :=
  reject (!(isCanonicalProviderId provider && (provider ∈ SUPPORTED_PROVIDERS || provider ∈ vault.registered))) .value

def degradeAfterFailure (vault : Vault σ) (code : String) : Except Raised (Vault σ) := do
  reject (vault.profileV2 || !vault.allowMemoryFallback) (.unavailable code)
  return { vault with active := .inr ∅, degraded := some code }

/-- The memory backend stores under any provider. -/
def memorySet (vault : Vault σ) (memory : Dict String PyStr) (provider : String) (secret : PyStr) : Vault σ :=
  { vault with active := .inr (memory.set provider secret) }

/-- The active backend stores a secret; one that is unavailable gives way to memory. -/
def Vault.store (vault : Vault σ) (provider : String) (secret : PyStr) : Except Raised (Vault σ) :=
  match vault.active with
  | .inr memory => .ok (memorySet vault memory provider secret)
  | .inl store =>
    match backend.set store provider secret with
    | .ok store => .ok { vault with active := .inl store }
    | .error (.unavailable code) =>
      match degradeAfterFailure vault code with
      | .ok fallen => .ok (memorySet fallen ∅ provider secret)
      | .error failure => .error failure
    | .error failure => .error failure

def Vault.set (vault : Vault σ) (provider : String) (secret : PyStr) : Except Raised (Vault σ) := do
  validateProvider vault provider
  reject (secret.isEmpty) .value
  let length ← fetch (encodedLength secret) .value
  reject (length > 4096 || broken secret) .value
  vault.store backend provider secret

/-- The active backend forgets a secret. -/
def Vault.forget (vault : Vault σ) (provider : String) : Except Raised (Vault σ) :=
  match vault.active with
  | .inr memory => .ok { vault with active := .inr (memory.erase provider) }
  | .inl store =>
    match backend.clear store provider with
    | .ok store => .ok { vault with active := .inl store }
    | .error failure => .error failure

def Vault.clear (vault : Vault σ) (provider : String) : Except Raised (Vault σ) := do
  validateProvider vault provider
  reject (vault.degraded ≠ none) (.unavailable (vault.degraded.getD ""))
  vault.forget backend provider

inductive Command where
  | ping
  | set (provider : String) (credential : PyStr)
  | clear (provider : String)
  deriving DecidableEq

/-- What commands act on: the pings, the vault and the `ProcessCredentialStore`. -/
structure State (σ : Type) where
  pingCount : Nat
  vault : Vault σ
  values : Dict String PyStr

/-- The interpreter that decodes the frames. -/
structure Interpreter where
  /-- How deep arrays and objects may nest. -/
  depth : Nat
  /-- `str(value)` of anything but a string. -/
  repr : Decoded → PyStr

variable (interpreter : Interpreter) (runtimeInstanceId : PyStr)

/-- A command takes its effect; a credential the vault refuses with a `ValueError` takes none. -/
def perform (state : State σ) : Command → Except Raised (Option (State σ))
  | .ping => .ok (some { state with pingCount := state.pingCount + 1 })
  | .set provider credential =>
    match state.vault.set backend provider credential with
    | .ok vault => .ok (some { state with vault := vault, values := state.values.set provider credential })
    | .error .value => .ok none
    | .error failure => .error failure
  | .clear provider =>
    match state.vault.clear backend provider with
    | .ok vault => .ok (some { state with vault := vault, values := state.values.erase provider })
    | .error failure => .error failure

/-- `str(value)`. -/
def str : Decoded → PyStr
  | .str text => text
  | other => interpreter.repr other

structure ControlMessage where
  protocol : PyStr
  type : PyStr
  runtimeInstanceId : PyStr

/-- `json.loads(frame.decode("utf-8"))`: nothing for the errors the loop expects of it. -/
def decodeFrame (frame : List UInt8) : Except Raised (Option Decoded) :=
  match String.fromUTF8? ⟨frame.toArray⟩ with
  | none => .ok none
  | some text =>
    match scanOnce interpreter.depth (skipSpace text.toList) with
    | .ok (value, rest) => if skipSpace rest = [] then .ok (some value) else .ok none
    | .error .recursion => .error .recursion
    | .error _ => .ok none

/-- `ControlMessage(str(value["protocol"]), ...)`: nothing when the value is no object or lacks a field. -/
def controlMessage (value : Decoded) : Option (Fields × ControlMessage) := do
  let fields ← asDict value
  let protocol ← field fields "protocol"
  let type ← field fields "type"
  let instanceId ← field fields "runtime_instance_id"
  return (fields, ⟨str interpreter protocol, str interpreter type, str interpreter instanceId⟩)

/-- `set(value) == names`. -/
def hasFields (fields : Fields) (names : List String) : Bool :=
  fields.all (fun entry => names.any fun name => entry.1 = pyStr name) && names.all fun name => (field fields name).isSome

/-- The supported provider that a value names; asking for a list or an object raises. -/
def supportedProvider (value : Option Decoded) : Except Raised (Option String) :=
  match value with
  | some (.str text) => .ok (SUPPORTED_PROVIDERS.find? fun provider => pyStr provider = text)
  | some (.list _) | some (.dict _) => .error .type
  | _ => .ok none

def isText (value : Option Decoded) (expected : String) : Bool :=
  match value with
  | some (.str text) => text = pyStr expected
  | _ => false

/-- The credential of a frame; one that can not be encoded raises. -/
def checkedCredential (value : Option Decoded) : Except Raised (Option PyStr) :=
  match value with
  | some (.str credential) =>
    if credential.isEmpty then .ok none
    else
      match encodedLength credential with
      | none => .error .value
      | some length => if length > 1024 || broken credential then .ok none else .ok (some credential)
  | _ => .ok none

/-- The checks of `_credential`. -/
def credentialCommand (fields : Fields) (message : ControlMessage) : Except Raised (Option Command) :=
  if message.protocol ≠ pyStr CREDENTIAL_PROTOCOL || message.runtimeInstanceId ≠ runtimeInstanceId then .ok none
  else
    match supportedProvider (field fields "provider") with
    | .error failure => .error failure
    | .ok none => .ok none
    | .ok (some provider) =>
      let names := ["protocol", "type", "runtime_instance_id", "provider"]
      if isText (field fields "type") "CLEAR_PROVIDER_CREDENTIAL" then
        if hasFields fields names then .ok (some (.clear provider)) else .ok none
      else if !isText (field fields "type") "SET_PROVIDER_CREDENTIAL" || !hasFields fields (names ++ ["credential"]) then .ok none
      else
        match checkedCredential (field fields "credential") with
        | .error failure => .error failure
        | .ok none => .ok none
        | .ok (some credential) => .ok (some (.set provider credential))

/-- The command that a frame denotes by itself. -/
def denoted (frame : List UInt8) : Except Raised (Option Command) :=
  match decodeFrame interpreter frame with
  | .error failure => .error failure
  | .ok none => .ok none
  | .ok (some value) =>
    match controlMessage interpreter value with
    | none => .ok none
    | some (fields, message) =>
      if message.protocol = pyStr PROTOCOL && message.type = pyStr "ping" && message.runtimeInstanceId = runtimeInstanceId then
        .ok (some .ping)
      else credentialCommand runtimeInstanceId fields message

/-- What the loop makes of a frame. -/
inductive Outcome (σ : Type) where
  | rejected
  | applied (command : Command) (state : State σ)
  /-- An exception leaves the loop. -/
  | raised (failure : Raised)

/-- The body of the loop for a frame that is not over the limit. -/
def handle (state : State σ) (frame : List UInt8) : Outcome σ :=
  match denoted interpreter runtimeInstanceId frame with
  | .error failure => .raised failure
  | .ok none => .rejected
  | .ok (some command) =>
    match perform backend state command with
    | .error failure => .raised failure
    | .ok none => .rejected
    | .ok (some state) => .applied command state

/-- The counters of `ControlReaderStatus`. -/
structure Status where
  alive : Bool
  framesRead : Nat
  framesDispatched : Nat
  framesRejected : Nat
  framesApplied : Nat
  deriving DecidableEq

def Status.rejected (status : Status) : Status :=
  { status with framesRead := status.framesRead + 1, framesRejected := status.framesRejected + 1 }

def Status.applied (status : Status) : Status :=
  { status with
    framesRead := status.framesRead + 1, framesDispatched := status.framesDispatched + 1, framesApplied := status.framesApplied + 1 }

/-- What a reader has come to: its state, where the next frame starts, and the commands it
applied, each with the place of its frame. -/
structure Progress (σ : Type) where
  state : State σ
  status : Status
  position : Nat
  log : List (Nat × Command)

def isNewline (byte : UInt8) : Bool := byte = 10

/-- The turn of `_read` for a frame; nothing when an exception ends the thread. -/
def turn (progress : Progress σ) (frame : List UInt8) : Option (Progress σ) :=
  let position := progress.position + frame.length
  if frame.length > MAX_FRAME_BYTES then some { progress with status := progress.status.rejected, position := position }
  else
    match handle backend interpreter runtimeInstanceId progress.state frame with
    | .rejected => some { progress with status := progress.status.rejected, position := position }
    | .applied command state =>
      some ⟨state, progress.status.applied, position, progress.log ++ [(progress.position, command)]⟩
    | .raised _ => none

/-- How a reader ends: at the end of its stream, or by an exception after what it had done. -/
inductive Ended (σ : Type) where
  | closed (progress : Progress σ)
  | died (progress : Progress σ)

/-- `readline(MAX_FRAME_BYTES + 1)`. -/
def nextFrame (source : Source UInt8) : List UInt8 × Source UInt8 :=
  Source.readLine isNewline (MAX_FRAME_BYTES + 1) source.buffer source.chunks

theorem nextFrame_eq (source : Source UInt8) :
    takeLine isNewline (MAX_FRAME_BYTES + 1) source.rest = ((nextFrame source).1, (nextFrame source).2.rest) :=
  Source.readLine_eq (MAX_FRAME_BYTES + 1) source.buffer source.chunks

theorem nextFrame_shorter {source : Source UInt8} (more : (nextFrame source).1 ≠ []) :
    (nextFrame source).2.rest.length < source.rest.length := by
  have parts : (nextFrame source).1 ++ (nextFrame source).2.rest = source.rest := by
    have whole := @takeLine_append _ isNewline (MAX_FRAME_BYTES + 1) source.rest
    rwa [nextFrame_eq] at whole
  rw [← parts, List.length_append]
  have := List.length_pos_iff.mpr more
  omega

def read (progress : Progress σ) (source : Source UInt8) : Ended σ :=
  if _more : (nextFrame source).1 ≠ [] then
    match turn backend interpreter runtimeInstanceId progress (nextFrame source).1 with
    | none => .died progress
    | some next => read next (nextFrame source).2
  else .closed { progress with status := { progress.status with alive := false } }
termination_by source.rest.length
decreasing_by exact nextFrame_shorter _more

end

end NovelStudio.ControlPipe
