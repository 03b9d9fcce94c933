import AwesomeAgent.Changes.Journal
import AwesomeAgent.Changes.Operations

/-!
# Recovery of interrupted changes

Rows that a crash left behind are reconciled with the workspace. An ordinary
mutation is dropped, recorded or already recorded; an operation is completed when
its ChangeSet was saved and rolled back otherwise.
-/

namespace AwesomeAgent

/-- A row of an interrupted operation with its bound node and its two states. -/
structure RecoveryRow where
  pending : PendingMutation
  target : BoundWorkspaceNode
  before : Option NodeSnapshot
  intended : Option NodeSnapshot

namespace ChangeJournal

/-- Faults of the ownership check during recovery. -/
def ownershipFault (message : String) (fault : Fault) : Fault :=
  match fault with
  | .changeLifecycleError _ | .changeSetNotFound _ => .pendingMutationConflict message
  | fault => fault

/-- Faults of the tree during recovery. -/
def recoveryFault (fault : Fault) : Fault :=
  if fault.isTreeFault then
    .pendingMutationConflict
      "Pending mutation could not be inspected safely and was preserved."
  else fault

/-- Whether a record is that of a pending mutation. -/
def changeMatchesPending (change : FileChange) (pending : PendingMutation) : Bool :=
  decide (change.path = pending.relativePath) &&
    decide (change.kind = pending.kind) &&
    decide (change.resolvedBeforeNodeType = pending.resolvedBeforeNodeType) &&
    decide (change.resolvedAfterNodeType = pending.resolvedIntendedAfterNodeType) &&
    decide (change.beforeHash = pending.beforeHash) &&
    decide (change.beforeBlob = pending.beforeBlob) &&
    (decide (pending.beforeMode = none) || decide (change.beforeMode = pending.beforeMode)) &&
    decide (change.afterHash = pending.intendedAfterHash) &&
    decide (change.afterBlob = pending.intendedAfterBlob) &&
    (decide (pending.intendedAfterMode = none) ||
      decide (change.afterMode = pending.intendedAfterMode))

/-- The records of a ChangeSet that carry the identifier of a pending mutation. -/
def committedChanges (changeSet : ChangeSet) (pendingId : PendingId) : List FileChange :=
  changeSet.files.filter fun change =>
    change.mutationId.any fun identifier => decide (PendingId.mutation identifier = pendingId)

section Contents

variable [ContentHash]

/-- Reconcile a pending mutation that is recorded already. -/
def reconcileCommitted (pending : PendingMutation) (current : Option NodeSnapshot) :
    List FileChange → ChangeProc Unit
  | [change] =>
      if changeMatchesPending change pending = true ∧
          snapshotMatchesRecord current change.afterHash change.afterMode
            (change.resolvedAfterNodeType.getD change.nodeType) = true then
        onStore fun s => s.deletePending pending.id
      else throw (.pendingMutationConflict "Pending state conflicts with a committed mutation.")
  | _ => throw (.pendingMutationConflict "Pending state conflicts with a committed mutation.")

/-- Record a pending mutation that was carried out but not recorded. -/
def recordPending (changeSet : ChangeSet) (pending : PendingMutation) (identifier : String)
    (current : Option NodeSnapshot) : ChangeProc Unit := do
  let before ← reading fun s => pendingSnapshot s.blobs pending true
  let intendedAfter ← reading fun s => pendingSnapshot s.blobs pending false
  reading fun s => preflight s.blobs changeSet before intendedAfter
  let change ← fileChange pending identifier current
  let updated : ChangeSet := { changeSet with files := changeSet.files ++ [change] }
  onStore fun s => s.save
    (if updated.lifecycle = .applied then
      { updated with reversibility := reversibility updated }
    else updated)
  onStore fun s => s.deletePending pending.id

/-- Decide from the records and the observed node how far a mutation came. -/
def reconcileObserved (changeSet : ChangeSet) (pending : PendingMutation) (identifier : String)
    (current : Option NodeSnapshot) : ChangeProc Unit :=
  if committedChanges changeSet pending.id ≠ [] then
    reconcileCommitted pending current (committedChanges changeSet pending.id)
  else if changeSet.files.any (fun change =>
      decide (change.mutationId = none) && changeMatchesPending change pending) = true then
    throw (.pendingMutationConflict
      "Pending state has an ambiguous legacy mutation identity.")
  else if snapshotMatchesRecord current pending.beforeHash pending.beforeMode
      (pending.resolvedBeforeNodeType.getD pending.nodeType) = true then
    onStore fun s => s.deletePending pending.id
  else if snapshotMatchesRecord current pending.intendedAfterHash pending.intendedAfterMode
      (pending.resolvedIntendedAfterNodeType.getD pending.nodeType) = true then
    recordPending changeSet pending identifier current
  else
    throw (.pendingMutationConflict
      ("Pending mutation for " ++ pending.relativePath.asPosix ++ " conflicts."))

/-- Reconcile one ordinary mutation with the workspace. -/
def reconcileMutation (w : WorkspaceIdentity) (pending : PendingMutation) (identifier : String) :
    ChangeProc Unit := do
  let changeSet ← Proc.mapFault (ownershipFault "Pending mutation lifecycle is inconsistent.")
    (owned w pending.changeSetId)
  if changeSet.lifecycle = .undone then
    throw (.pendingMutationConflict "Pending mutation lifecycle is inconsistent.")
  let target ← Proc.volatile (onTree (WorkspaceTreeTransaction.bind pending.relativePath))
  let current ← Proc.volatile (onTree (WorkspaceTreeTransaction.capture target))
  reconcileObserved changeSet pending identifier current

/-- Bind the rows of an interrupted operation; each path is in one of its two states. -/
def bindRows : List PendingMutation → ChangeProc (List RecoveryRow)
  | [] => return []
  | pending :: rest => do
      let target ← Proc.volatile (onTree (WorkspaceTreeTransaction.bind pending.relativePath))
      let before ← reading fun s => pendingSnapshot s.blobs pending true
      let intended ← reading fun s => pendingSnapshot s.blobs pending false
      if snapshotsMatch target.snapshot before || snapshotsMatch target.snapshot intended then
        let rows ← bindRows rest
        return ⟨pending, target, before, intended⟩ :: rows
      else
        throw (.pendingMutationConflict ("Interrupted change operation for " ++
          pending.relativePath.asPosix ++ " conflicts."))

/-- A path of a committed operation must be in its intended state. -/
def checkCommitted (row : RecoveryRow) : ChangeProc PUnit := do
  let current ← Proc.volatile (onTree (WorkspaceTreeTransaction.capture row.target))
  if snapshotsMatch current row.intended = false then
    throw (.pendingMutationConflict
      "Committed change operation does not match its filesystem state.")

/-- Roll one path of an interrupted operation back. -/
def rollbackRow (row : RecoveryRow) : ChangeProc PUnit := do
  let current ← Proc.volatile (onTree (WorkspaceTreeTransaction.capture row.target))
  if snapshotsMatch current row.before = true then return ()
  else if snapshotsMatch current row.intended = false then throw .assertionError
  else
    let restored ← Proc.durable
      (onTree (WorkspaceTreeTransaction.restore row.target row.before))
    if snapshotsMatch restored row.before = false then
      throw (.pendingMutationConflict ("Interrupted change operation for " ++
        row.pending.relativePath.asPosix ++ " could not be rolled back."))

/-- A rolled back path must be in its original state. -/
def checkRolledBack (row : RecoveryRow) : ChangeProc PUnit := do
  let current ← Proc.volatile
    (onTree (WorkspaceTreeTransaction.bind row.pending.relativePath))
  if snapshotsMatch current.snapshot row.before = false then
    throw (.pendingMutationConflict "Interrupted change operation remains partially applied.")

/-- Lifecycle that an operation starts from. -/
def sourceLifecycle : Action → ChangeLifecycle
  | .undo => .applied
  | .redo => .undone

/-- Lifecycle that a committed operation leaves. -/
def committedLifecycle : Action → ChangeLifecycle
  | .undo => .undone
  | .redo => .applied

/-- Reconcile the rows of one interrupted operation. -/
def reconcileOperation (w : WorkspaceIdentity) (action : Action)
    (items : List PendingMutation) : ChangeProc Unit := do
  match (items.map (·.changeSetId)).dedup with
  | [changeSetId] =>
      let changeSet ← Proc.mapFault
        (ownershipFault "Interrupted change operation has inconsistent ownership.")
        (owned w changeSetId)
      if changeSet.lifecycle ≠ sourceLifecycle action ∧
          changeSet.lifecycle ≠ committedLifecycle action then
        throw (.pendingMutationConflict "Interrupted change operation has an invalid lifecycle.")
      let bound ← bindRows (items.insertionSort fun a b => a.id.le b.id = true)
      if changeSet.lifecycle = committedLifecycle action then bound.forM checkCommitted
      else
        bound.reverse.forM rollbackRow
        bound.forM checkRolledBack
      bound.forM fun row => onStore fun s => s.deletePending row.pending.id
  | _ => throw (.pendingMutationConflict
      "Interrupted change operation has inconsistent ownership.")

/-- Reconcile the ordinary mutations of one ChangeSet and close it. -/
def reconcileChangeSet (w : WorkspaceIdentity) (operationChangeSets : List String)
    (changeSetId : String) (items : List (String × PendingMutation)) : ChangeProc PUnit := do
  items.forM fun item => reconcileMutation w item.2 item.1
  let changeSet ← owned w changeSetId
  if changeSet.lifecycle = .open ∧ changeSetId ∉ operationChangeSets then
    let _ ← sealChangeSet w changeSetId

/-- The rows that a recovery looks at. -/
def recoveredRows (w : WorkspaceIdentity) (changeSetId : Option String) (s : ChangeSetStore) :
    List PendingMutation :=
  s.listPending.filter fun pending =>
    decide (pending.workspaceKey = w.key) &&
      changeSetId.all fun identifier => decide (pending.changeSetId = identifier)

/-- The ordinary mutation of a row, with its identifier. -/
def ordinaryRow (pending : PendingMutation) : Option (String × PendingMutation) :=
  match pending.id with
  | .mutation identifier => some (identifier, pending)
  | .operation _ _ _ => none

/-- The operation item of a row, with the action. -/
def operationRow (pending : PendingMutation) : Option (Action × PendingMutation) :=
  pending.id.operationAction.map fun action => (action, pending)

/-- Reconcile the rows that a crash left behind. -/
def reconcilePending (w : WorkspaceIdentity) (changeSetId : Option String) :
    ChangeProc Unit := do
  let rows ← reading fun s => .ok (recoveredRows w changeSetId s.store)
  let ordinary := Dict.groupBy (fun row => row.2.changeSetId) (rows.filterMap ordinaryRow)
  let operations := Dict.groupBy (fun row => (row.2.changeSetId, row.1))
    (rows.filterMap operationRow)
  Proc.mapFault recoveryFault (do
    Proc.volatile (onTree (WorkspaceTreeTransaction.enter w.rootIdentity))
    ordinary.entries.forM fun group =>
      reconcileChangeSet w (operations.keys.map Prod.fst) group.1 group.2
    operations.entries.forM fun group =>
      reconcileOperation w group.1.2 (group.2.map Prod.snd))

end Contents

end ChangeJournal

end AwesomeAgent
