import AwesomeAgent.Changes.Journal
import AwesomeAgent.Changes.Merge

/-!
# Undo and redo

An operation binds every merged path, announces every restore by a pending row,
restores the paths one after the other, saves the new lifecycle and deletes the
rows. A failure before the save rolls the restored paths back.
-/

namespace AwesomeAgent

/-- What a completed operation reports. -/
structure ChangeOperationResult where
  changeSetId : String
  lifecycle : ChangeLifecycle
  restoredPaths : List RelativePath
  unmanagedEffectsRestored : Bool
  warning : Option String
  deriving DecidableEq, Repr

/-- One bound path of an operation with its desired state and its pending row. -/
structure PreparedRestore where
  change : FileChange
  target : BoundWorkspaceNode
  desired : Option NodeSnapshot
  pending : PendingMutation
  deriving DecidableEq

namespace ChangeOperations

/-- The kind of a change between two states. -/
def kindOf (before after : Option NodeSnapshot) : FileChangeKind :=
  match before, after with
  | none, _ => .created
  | some _, none => .deleted
  | some _, some _ => .updated

/-- The ChangeSet of an operation. -/
def getChangeSet (w : WorkspaceIdentity) (changeSetId : String) : ChangeProc ChangeSet :=
  reading fun s =>
    match s.store.get changeSetId with
    | none => .error (.changeSetNotFound changeSetId)
    | some changeSet =>
        if changeSet.workspaceKey ≠ w.key then
          .error (.changeLifecycleError "ChangeSet belongs to another workspace.")
        else .ok changeSet

/-- The faults of a change whose snapshots cannot be rebuilt. -/
def changeFaults (path : RelativePath) : RecordFaults where
  missingType := .changeBlobCorrupt ("Change node type is missing for " ++ path.asPosix ++ ".")
  missingBlob := .changeBlobCorrupt
    ("Change blob reference is missing for " ++ path.asPosix ++ ".")
  unreadable := fun fault =>
    match fault with
    | .osError _ => .changeBlobCorrupt
        ("Change blob could not be read for " ++ path.asPosix ++ ".")
    | fault => fault
  corrupt := .changeBlobCorrupt
    ("Change blob content does not match the record for " ++ path.asPosix ++ ".")

section Contents

variable [ContentHash]

/-- The recorded state before or after a change. -/
def changeSnapshot (blobs : BlobStore) (change : FileChange) (before : Bool) :
    Except Fault (Option NodeSnapshot) :=
  if before then
    recordedSnapshot (changeFaults change.path) blobs change.beforeHash change.beforeBlob
      change.beforeMode change.resolvedBeforeNodeType
  else
    recordedSnapshot (changeFaults change.path) blobs change.afterHash change.afterBlob
      change.afterMode change.resolvedAfterNodeType

/-- The pending row of one item of an operation. -/
def operationPending (pendingId : PendingId) (changeSet : ChangeSet) (change : FileChange)
    (current desired : Option NodeSnapshot) : ChangeProc PendingMutation := do
  let beforeBlob ← putContent current
  let intendedAfterBlob ← putContent desired
  let createdAt ← now
  return {
    id := pendingId
    changeSetId := changeSet.id
    workspaceKey := changeSet.workspaceKey
    relativePath := change.path
    kind := kindOf current desired
    nodeType := ((desired.map (·.nodeType)).or (current.map (·.nodeType))).getD change.nodeType
    beforeNodeType := current.map (·.nodeType)
    intendedAfterNodeType := desired.map (·.nodeType)
    beforeHash := snapshotDigest current
    beforeBlob := beforeBlob
    beforeMode := current.bind (·.mode)
    intendedAfterHash := snapshotDigest desired
    intendedAfterBlob := intendedAfterBlob
    intendedAfterMode := desired.bind (·.mode)
    createdAt := createdAt }

/-- Bind the changed paths; the second part lists the paths that changed since. -/
def bindTargets (undo : Bool) : List FileChange →
    ChangeProc (List (FileChange × BoundWorkspaceNode) × List RelativePath)
  | [] => return ([], [])
  | change :: changes => do
      let target ← Proc.volatile (onTree (WorkspaceTreeTransaction.bind change.path))
      let expected ← reading fun s => changeSnapshot s.blobs change (!undo)
      let (targets, conflicts) ← bindTargets undo changes
      if snapshotsMatch target.snapshot expected then
        return ((change, target) :: targets, conflicts)
      else return ((change, target) :: targets, change.path :: conflicts)

/-- Announce the bound paths in the order in which they are to be restored. -/
def prepareItems (action : Action) (operationId : Nat) (changeSet : ChangeSet) :
    Nat → List (FileChange × BoundWorkspaceNode) → ChangeProc (List PreparedRestore)
  | _, [] => return []
  | index, (change, target) :: rest => do
      let desired ← reading fun s =>
        changeSnapshot s.blobs change (decide (action = .undo))
      let pending ← operationPending (.operation action operationId index) changeSet change
        target.snapshot desired
      let prepared ← prepareItems action operationId changeSet (index + 1) rest
      return ⟨change, target, desired, pending⟩ :: prepared

/-- The text of a conflict, with the paths in order. -/
def conflictMessage (conflicts : List RelativePath) : String :=
  "Workspace changed after the recorded operation: " ++
    ", ".intercalate ((conflicts.map RelativePath.asPosix).insertionSort (· ≤ ·))

/-- Bind every path and announce every restore of an operation. -/
def prepare (changeSet : ChangeSet) (changes : List FileChange) (undo : Bool) :
    ChangeProc (List PreparedRestore) := do
  let (targets, conflicts) ← bindTargets undo changes
  if conflicts ≠ [] then throw (.changeConflict (conflictMessage conflicts))
  let operationId ← newIdentifier
  prepareItems (if undo then .undo else .redo) operationId changeSet 0
    (if undo then targets.reverse else targets)

/-- Restore the applied items backwards; false when one of them is not as it was left. -/
def rollbackApplied : List PreparedRestore → ChangeProc Bool
  | [] => return true
  | item :: rest => do
      let current ← Proc.volatile (onTree (WorkspaceTreeTransaction.bind item.pending.relativePath))
      if snapshotsMatch current.snapshot item.desired = false then return false
      let restored ← Proc.durable
        (onTree (WorkspaceTreeTransaction.restore current item.target.snapshot))
      if snapshotsMatch restored item.target.snapshot = false then return false
      rollbackApplied rest

/-- Whether every prepared path is back in its original state. -/
def rolledBack : List PreparedRestore → ChangeProc Bool
  | [] => return true
  | item :: rest => do
      let current ← Proc.volatile (onTree (WorkspaceTreeTransaction.bind item.pending.relativePath))
      if snapshotsMatch current.snapshot item.target.snapshot = false then return false
      rolledBack rest

/-- Delete the pending rows of an operation. -/
def deletePendings (prepared : List PreparedRestore) : ChangeProc PUnit :=
  prepared.forM fun item => onStore fun s => s.deletePending item.pending.id

/-- Roll an operation back inside its own transaction. -/
def rollback (prepared applied : List PreparedRestore) : ChangeProc Bool := do
  match ← Proc.attempt (do
      if ← rollbackApplied applied.reverse then rolledBack prepared else return false) with
  | .error fault => if fault.isTreeFault then return false else throw fault
  | .ok false => return false
  | .ok true =>
      match ← Proc.attempt (deletePendings prepared) with
      | .error _ => return false
      | .ok () => return true

/-- Restore the prepared items; the applied ones with the fault that stopped the rest. -/
def restoreItems : List PreparedRestore → List PreparedRestore →
    ChangeProc (List PreparedRestore × Option Fault)
  | applied, [] => return (applied, none)
  | applied, item :: rest => do
      match ← Proc.attempt (Proc.durable
          (onTree (WorkspaceTreeTransaction.restore item.target item.desired))) with
      | .error fault => return (applied, some fault)
      | .ok actual =>
          if snapshotsMatch actual item.desired then restoreItems (applied ++ [item]) rest
          else return (applied, some (.changeConflict
            ("Could not restore " ++ item.pending.relativePath.asPosix ++ " exactly.")))

/-- Handle a fault of an operation: roll back unless the operation is already committed. -/
def handleFault (changeSetId : String) (expectedLifecycle : ChangeLifecycle)
    (prepared applied : List PreparedRestore) (fault : Fault) : ChangeProc Unit := do
  if prepared ≠ [] then
    let persisted ← reading fun s => .ok (s.store.get changeSetId)
    if persisted.any fun c => decide (c.lifecycle = expectedLifecycle) then
      let _ ← rollback prepared applied
  throw fault

/-- The part of an operation that runs inside the tree transaction. -/
def operateInTree (changeSet : ChangeSet) (changes : List FileChange) (undo : Bool)
    (expectedLifecycle targetLifecycle : ChangeLifecycle) :
    ChangeProc (List PreparedRestore) := do
  let prepared ← prepare changeSet changes undo
  match ← Proc.attempt (prepared.forM fun item => onStore fun s => s.savePending item.pending) with
  | .error fault => handleFault changeSet.id expectedLifecycle prepared [] fault
  | .ok () => pure ()
  let (applied, failure) ← restoreItems [] prepared
  match failure with
  | some fault => handleFault changeSet.id expectedLifecycle prepared applied fault
  | none => pure ()
  match ← Proc.attempt (onStore fun s =>
      s.save { changeSet with lifecycle := targetLifecycle }) with
  | .error fault => handleFault changeSet.id expectedLifecycle prepared applied fault
  | .ok () => pure ()
  deletePendings prepared
  return prepared

/-- Faults of the tree are reported as a conflict. -/
def treeFaultAsConflict (fault : Fault) : Fault :=
  if fault.isTreeFault then
    .changeConflict "Workspace changed while the change operation was in progress."
  else fault

/-- Undo or redo a sealed ChangeSet. -/
def operate (w : WorkspaceIdentity) (changeSetId : String) (undo : Bool) :
    ChangeProc ChangeOperationResult := do
  let changeSet ← getChangeSet w changeSetId
  let expectedLifecycle : ChangeLifecycle := if undo then .applied else .undone
  let targetLifecycle : ChangeLifecycle := if undo then .undone else .applied
  if changeSet.lifecycle ≠ expectedLifecycle then
    throw (.changeLifecycleError
      ("ChangeSet must be " ++ expectedLifecycle.value ++ " for this operation."))
  if changeSet.reversibility = .none then
    throw (.changeNotReversible "ChangeSet contains only unmanaged effects.")
  let changes ← liftExcept (mergeFileChanges changeSet.files)
  let prepared ← Proc.mapFault treeFaultAsConflict (do
    Proc.volatile (onTree (WorkspaceTreeTransaction.enter w.rootIdentity))
    operateInTree changeSet changes undo expectedLifecycle targetLifecycle)
  return {
    changeSetId := changeSetId
    lifecycle := targetLifecycle
    restoredPaths := prepared.map (·.pending.relativePath)
    unmanagedEffectsRestored := false
    warning :=
      if changeSet.reversibility = .partly then
        some "Unmanaged execute effects were not restored."
      else none }

/-- Return the workspace to the state before a ChangeSet. -/
def undo (w : WorkspaceIdentity) (changeSetId : String) : ChangeProc ChangeOperationResult :=
  operate w changeSetId true

/-- Bring an undone ChangeSet back. -/
def redo (w : WorkspaceIdentity) (changeSetId : String) : ChangeProc ChangeOperationResult :=
  operate w changeSetId false

end Contents

end ChangeOperations

end AwesomeAgent
