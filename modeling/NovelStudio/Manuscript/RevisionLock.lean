import NovelStudio.Library.Json

/-! Opt-in paragraph locks (`revision_constraints.py`). A document is the tree of its
nodes; a node is locked by a marker among its attributes. -/

namespace NovelStudio.Manuscript

open Library

def LOCK_ATTRIBUTE : String := "aiRevisionLock"

/-- The exceptions these functions raise: their own, or Python's on a malformed document. -/
inductive Failure where
  | constraint (message : String)
  | attribute
  | type
  deriving DecidableEq

def lockedOrStale : Failure :=
  .constraint "A paragraph is AI-locked or its lock has drifted. Review and explicitly unlock it before AI acceptance."

/-- The digests of a node and of a marker that carries no id; `none` is a value that
`json.dumps` refuses. -/
structure Digests where
  node : Json → Option String
  marker : Json → String

/-- `(node.get('attrs') or {}).get(LOCK_ATTRIBUTE)`, where null stands for absent. -/
def lockMarker : Json → Except Failure (Option Json)
  | .dict fields =>
    match lookup "attrs" fields with
    | none => .ok none
    | some attrs =>
      if attrs.truthy then
        match attrs with
        | .dict attrs => .ok ((lookup LOCK_ATTRIBUTE attrs).filter fun marker => marker ≠ .null)
        | _ => .error .attribute
      else .ok none
  | _ => .error .attribute

/-- A locked node with where it stands. -/
structure LockRow where
  path : List Nat
  node : Json
  marker : Json
  deriving DecidableEq

def ownRow (path : List Nat) (node : Json) : Except Failure (List LockRow) :=
  match lockMarker node with
  | .error failure => .error failure
  | .ok none => .ok []
  | .ok (some marker) => .ok [⟨path, node, marker⟩]

mutual
/-- `visit` of `lock_nodes`. -/
def visit (path : List Nat) : Json → Except Failure (List LockRow)
  | .dict fields =>
    match ownRow path (.dict fields), visitContent path fields with
    | .ok own, .ok below => .ok (own ++ below)
    | .error failure, _ => .error failure
    | _, .error failure => .error failure
  | _ => .error .attribute

/-- The loop over `node.get('content', [])`. -/
def visitContent (path : List Nat) : List (String × Json) → Except Failure (List LockRow)
  | [] => .ok []
  | (key, value) :: rest => if key = "content" then visitChildren path value else visitContent path rest

def visitChildren (path : List Nat) : Json → Except Failure (List LockRow)
  | .list items => visitItems path 0 items
  | .str text => if text = "" then .ok [] else .error .attribute
  | .dict fields => if fields = [] then .ok [] else .error .attribute
  | _ => .error .type

def visitItems (path : List Nat) (index : Nat) : List Json → Except Failure (List LockRow)
  | [] => .ok []
  | child :: rest =>
    match visit (path ++ [index]) child, visitItems path (index + 1) rest with
    | .ok first, .ok others => .ok (first ++ others)
    | .error failure, _ => .error failure
    | _, .error failure => .error failure
end

def lockNodes (document : Json) : Except Failure (List LockRow) := visit [] document

def movedOrRemoved : Failure :=
  .constraint "A locked paragraph was moved or removed. Explicitly unlock before changing its structure."

/-- `node['content'][index]`. -/
def childAt (node : Json) (index : Nat) : Option Json :=
  match node.get? "content" with
  | some (.list items) => items[index]?
  | some (.str text) => text.toList[index]?.map fun char => .str (String.ofList [char])
  | _ => none

def atPath (document : Json) : List Nat → Except Failure Json
  | [] => .ok document
  | index :: path =>
    match childAt document index with
    | none => .error movedOrRemoved
    | some child => atPath child path

/-- The id of an object marker, when it is there and not empty. -/
def givenId (marker : Json) : Option Json :=
  (marker.get? "id").filter Json.truthy

def markerId (digests : Digests) (marker : Json) : Json :=
  (givenId marker).getD (.str (digests.marker marker))

/-- `marker.get('state') == state`. -/
def hasState (marker : Json) (state : String) : Bool :=
  match marker.get? "state" with
  | none => false
  | some found => found.eq (.str state)

/-- A marker that is not an explicit tombstone locks, whatever else it is. -/
def activeLock (marker : Json) : Bool :=
  !(hasState marker "UNLOCKED" && (givenId marker).isSome)

def assertAiLock (digests : Digests) (after : Json) (row : LockRow) : Except Failure Unit :=
  if ¬ activeLock row.marker then .ok ()
  else if ¬ hasState row.marker "LOCKED" ∨ givenId row.marker = none then .error lockedOrStale
  else
    match digests.node row.node with
    | none => .error .type
    | some digest =>
      if ¬ (row.marker.get? "digest").any (fun stored => stored.eq (.str digest)) then .error lockedOrStale
      else
        match atPath after row.path with
        | .error failure => .error failure
        | .ok node => if node.eq row.node then .ok () else .error lockedOrStale

def assertAiLocks (digests : Digests) (before after : Json) : Except Failure Unit :=
  match lockNodes before with
  | .error failure => .error failure
  | .ok rows => forM rows (assertAiLock digests after)

/-- An explicit tombstone that carries the given id. -/
def unlockedUnder (provided id : Json) : Bool :=
  (provided.get? "id").any (fun given => given.eq id) && hasState provided "UNLOCKED"

/-- `target.setdefault('attrs', {})[LOCK_ATTRIBUTE] = marker`. -/
def setLock (marker target : Json) : Except Failure Json :=
  match target with
  | .dict fields =>
    match lookup "attrs" fields with
    | none => .ok (.dict (store "attrs" (.dict [(LOCK_ATTRIBUTE, marker)]) fields))
    | some (.dict attrs) => .ok (.dict (store "attrs" (.dict (store LOCK_ATTRIBUTE marker attrs)) fields))
    | some _ => .error .type
  | _ => .error .attribute

/-- The document in which the node at a path is changed in place. -/
def updateAt (change : Json → Except Failure Json) : List Nat → Json → Except Failure Json
  | [], node => change node
  | index :: path, node =>
    match node with
    | .dict fields =>
      match lookup "content" fields with
      | some (.list items) =>
        match items[index]? with
        | none => .error movedOrRemoved
        | some child =>
          match updateAt change path child with
          | .error failure => .error failure
          | .ok changed => .ok (.dict (store "content" (.list (items.set index changed)) fields))
      | _ => .error .type
    | _ => .error .type

/-- `node.get('type')`. -/
def typeOf (node : Json) : Json := (node.get? "type").getD .null

/-- One turn of the loop that keeps the locks of a manual save. -/
def reattach (digests : Digests) (result : Json) (row : LockRow) : Except Failure Json :=
  match atPath result row.path with
  | .error failure => .error failure
  | .ok target =>
    if ¬ target.isDict then .error .attribute
    else if ¬ (typeOf target).eq (typeOf row.node) then
      .error (.constraint "Explicitly unlock a paragraph before changing its block type.")
    else
      match lockMarker target with
      | .error failure => .error failure
      | .ok provided =>
        if provided.any fun provided => unlockedUnder provided (markerId digests row.marker) then .ok result
        else updateAt (setLock row.marker) row.path result

def preserveRevisionConstraints (digests : Digests) (before after : Json) (source : String) : Except Failure Json :=
  match lockNodes before with
  | .error failure => .error failure
  | .ok rows =>
    let rows := rows.filter fun row => activeLock row.marker
    if rows = [] then .ok after
    else if source = "AI_ACCEPT" then
      match assertAiLocks digests before after with
      | .error failure => .error failure
      | .ok () => .ok after
    else rows.foldlM (reattach digests) after

end NovelStudio.Manuscript
