import NovelStudio.Library.Transition

/-! The draft of a prompt: what the user edits, the snapshot that was submitted, and the request that
carries it until the server's answer is known. -/

namespace NovelStudio.Prompts

inductive DraftState where
  | dirty
  | submitting
  | saved
  | unknown
  | conflict
  | rejected
  | clean
deriving DecidableEq

inductive Purpose where
  | image
  | video
  | audio
  | text
deriving DecidableEq

structure DraftContent where
  text : String
  negativePrompt : String
  purpose : Purpose
  modelReference : String
  parameters : String
  seed : String
  characterIds : List String
  sceneIds : List String
  shotIds : List String
  referenceAssetIds : List String
  changeNote : String
  changeReason : String
deriving DecidableEq

structure Draft where
  key : String
  familyId : Option String
  baseAssetId : Option String
  baseRevision : Option Nat
  content : DraftContent
  /-- The snapshot that was submitted. -/
  pending : Option DraftContent
  state : DraftState
  requestId : Option String
  conflictCode : Option String
  rejectionCode : Option String
  message : Option String
deriving DecidableEq

def emptyContent : DraftContent where
  text := ""
  negativePrompt := ""
  purpose := .image
  modelReference := ""
  parameters := ""
  seed := ""
  characterIds := []
  sceneIds := []
  shotIds := []
  referenceAssetIds := []
  changeNote := ""
  changeReason := ""

def newDraft (key : String) : Draft where
  key
  familyId := none
  baseAssetId := none
  baseRevision := none
  content := emptyContent
  pending := none
  state := .clean
  requestId := none
  conflictCode := none
  rejectionCode := none
  message := none

def isInputLocked (draft : Draft) : Bool := draft.state == .submitting || draft.state == .unknown

/-- Whether the snapshot and the content agree: all twelve fields are compared, the lists item by item. -/
def pendingMatchesContent (draft : Draft) : Bool := draft.pending == some draft.content

def canSubmit (draft : Draft) : Bool :=
  (draft.state == .clean || draft.state == .dirty || draft.state == .rejected) && draft.conflictCode.isNone && draft.requestId.isNone

/-- The fields of a content that an edit changes. -/
structure ContentPatch where
  text : Option String
  negativePrompt : Option String
  purpose : Option Purpose
  modelReference : Option String
  parameters : Option String
  seed : Option String
  characterIds : Option (List String)
  sceneIds : Option (List String)
  shotIds : Option (List String)
  referenceAssetIds : Option (List String)
  changeNote : Option String
  changeReason : Option String

/-- `{ ...content, ...patch }`. -/
def ContentPatch.apply (patch : ContentPatch) (content : DraftContent) : DraftContent where
  text := patch.text.getD content.text
  negativePrompt := patch.negativePrompt.getD content.negativePrompt
  purpose := patch.purpose.getD content.purpose
  modelReference := patch.modelReference.getD content.modelReference
  parameters := patch.parameters.getD content.parameters
  seed := patch.seed.getD content.seed
  characterIds := patch.characterIds.getD content.characterIds
  sceneIds := patch.sceneIds.getD content.sceneIds
  shotIds := patch.shotIds.getD content.shotIds
  referenceAssetIds := patch.referenceAssetIds.getD content.referenceAssetIds
  changeNote := patch.changeNote.getD content.changeNote
  changeReason := patch.changeReason.getD content.changeReason

def editDraft (draft : Draft) (patch : ContentPatch) : Draft :=
  if isInputLocked draft then draft
  else
    { draft with
      content := patch.apply draft.content
      state := .dirty
      conflictCode := if draft.state = .conflict then draft.conflictCode else none
      rejectionCode := none
      message := none }

/-- Whether `beginSubmit` calls its allocator. -/
def allocates (draft : Draft) : Bool := draft.state != .submitting && canSubmit draft

def beginSubmit (draft : Draft) (allocated : String) : Draft :=
  if draft.state = .submitting then draft
  else if !canSubmit draft then draft
  else { draft with state := .submitting, pending := some draft.content, requestId := some allocated, conflictCode := none, message := none }

/-- The server's receipt of a saved revision. -/
structure Receipt where
  familyId : String
  assetId : String
  revision : Nat
  idempotentReplay : Bool

def confirmSaved (draft : Draft) (saved : Receipt) : Draft :=
  { draft with
    key := if draft.familyId = none then saved.familyId else draft.key
    familyId := some saved.familyId
    baseAssetId := some saved.assetId
    baseRevision := some saved.revision
    requestId := none
    conflictCode := none
    rejectionCode := none
    pending := none
    state := if pendingMatchesContent draft then .saved else .dirty
    message :=
      if !pendingMatchesContent draft then some "服务器已保存的是提交时的内容；此后的改动仍未保存。"
      else if saved.idempotentReplay then some "这次提交与服务器上已有的修订一致，没有重复创建。"
      else none }

def markConflict (draft : Draft) (code message : String) : Draft :=
  { draft with state := .conflict, conflictCode := some code, rejectionCode := none, message := some message, requestId := none, pending := none }

def markRejected (draft : Draft) (code message : String) : Draft :=
  { draft with state := .rejected, conflictCode := none, rejectionCode := some code, message := some message, requestId := none, pending := none }

def markUnknown (draft : Draft) (message : String) : Draft := { draft with state := .unknown, message := some message }

/-- The empty identifier counts as none. -/
def retryUnknown (draft : Draft) : Draft :=
  if draft.state ≠ .unknown ∨ draft.requestId.getD "" = "" then draft
  else if !pendingMatchesContent draft then draft
  else { draft with state := .submitting, message := none }

/-- The revision a draft is brought to; `none` for what the caller leaves out. -/
structure RebaseTarget where
  assetId : String
  revision : Nat
  content : Option DraftContent
  familyId : Option (Option String)

def rebaseDraft (draft : Draft) (base : RebaseTarget) : Draft :=
  { draft with
    familyId := base.familyId.getD draft.familyId
    baseAssetId := some base.assetId
    baseRevision := some base.revision
    content := base.content.getD draft.content
    state := .dirty
    pending := none
    requestId := none
    conflictCode := none
    message := some "已重新基准到服务器上的最新修订。请核对后再次保存。" }

def discardDraft (draft : Draft) : Draft :=
  { draft with
    content := emptyContent, pending := none, state := .clean, requestId := none, conflictCode := none, rejectionCode := none, message := none }

def reconcileStashed (draft : Draft) : Draft :=
  if draft.state ≠ .submitting then draft
  else
    { draft with
      state := .unknown
      message := some "上一次提交的结果尚未核对（页面曾在你保存时离开）。请先核对服务器上的修订；确有必要时可用同一请求标识显式重试。" }

/-- A call on the draft; `beginSubmit` takes the identifier from its allocator. -/
inductive Operation where
  | editDraft (patch : ContentPatch)
  | beginSubmit
  | confirmSaved (saved : Receipt)
  | markConflict (code message : String)
  | markRejected (code message : String)
  | markUnknown (message : String)
  | retryUnknown
  | reconcileStashed
  | rebaseDraft (base : RebaseTarget)
  | discardDraft

/-- The answer to the outstanding request. -/
def Operation.settles : Operation → Bool
  | confirmSaved _ | markConflict .. | markRejected .. | markUnknown _ => true
  | _ => false

/-- An operation that ends the request: a known outcome, a rebase, or giving the draft up. -/
def Operation.ends : Operation → Bool
  | confirmSaved _ | markConflict .. | markRejected .. | rebaseDraft _ | discardDraft => true
  | _ => false

/-- A draft with what happened to it: every identifier allocated so far with the snapshot it was allocated for, whether a conflict waits for
a rebase, and the snapshot of the last confirmed request. -/
structure Session where
  draft : Draft
  submitted : List (String × DraftContent)
  conflicted : Bool
  confirmed : Option DraftContent

variable (allocate : Nat → String)

/-- What an operation makes of the draft, where `allocate` gives the identifiers in their order. -/
def Session.apply (session : Session) : Operation → Draft
  | .editDraft patch => Prompts.editDraft session.draft patch
  | .beginSubmit => Prompts.beginSubmit session.draft (allocate session.submitted.length)
  | .confirmSaved saved => Prompts.confirmSaved session.draft saved
  | .markConflict code message => Prompts.markConflict session.draft code message
  | .markRejected code message => Prompts.markRejected session.draft code message
  | .markUnknown message => Prompts.markUnknown session.draft message
  | .retryUnknown => Prompts.retryUnknown session.draft
  | .reconcileStashed => Prompts.reconcileStashed session.draft
  | .rebaseDraft base => Prompts.rebaseDraft session.draft base
  | .discardDraft => Prompts.discardDraft session.draft

def Session.allocatesBy (session : Session) : Operation → Bool
  | .beginSubmit => allocates session.draft
  | _ => false

def Session.next (session : Session) (operation : Operation) : Session where
  draft := session.apply allocate operation
  submitted :=
    if session.allocatesBy operation then session.submitted ++ [(allocate session.submitted.length, session.draft.content)] else session.submitted
  conflicted := match operation with
    | .markConflict .. => true
    | .rebaseDraft _ | .discardDraft => false
    | _ => session.conflicted
  confirmed := match operation with
    | .confirmSaved _ => session.draft.pending
    | _ => session.confirmed

/-- One call; answers come for an outstanding request only. -/
def Called (session : Session) (operation : Operation) (after : Session) : Prop :=
  (operation.settles = true → session.draft.requestId ≠ none) ∧ after = session.next allocate operation

def Session.start (key : String) : Session where
  draft := newDraft key
  submitted := []
  conflicted := false
  confirmed := none

end NovelStudio.Prompts
