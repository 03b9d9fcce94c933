import AwesomeAgent.Changes.Store
import Mathlib.Algebra.GroupWithZero.Nat

/-!
# The change journal

A mutation is announced by a pending row, carried out, recorded in its open
ChangeSet, and the row is deleted. Recovery reads the rows that a crash left
behind and decides from the workspace and the ChangeSet how far each one came.
-/

namespace AwesomeAgent

/-- Largest number of changes in a ChangeSet. -/
def maxChangesetFiles : Nat := 1000

/-- A mutation that a tool has bound to a workspace path. -/
structure BoundFileMutation where
  relativePath : RelativePath
  before : Option NodeSnapshot
  mutate : EStateM Fault Disk Unit
  captureAfter : Disk → Except Fault (Option NodeSnapshot)

/-- How a recorded snapshot that cannot be rebuilt is reported. -/
structure RecordFaults where
  missingType : Fault
  missingBlob : Fault
  unreadable : Fault → Fault
  corrupt : Fault

section Records

variable [ContentHash]

/-- Read the content that a record refers to. -/
def recordedContent (faults : RecordFaults) (blobs : BlobStore) (digest : String)
    (blob : Option String) : Except Fault Bytes :=
  match blob with
  | none => .error faults.missingBlob
  | some blob =>
      match blobs.read blob with
      | .error fault => .error (faults.unreadable fault)
      | .ok content =>
          if ContentHash.sha256 content ≠ digest then .error faults.corrupt else .ok content

/-- Rebuild a recorded snapshot; a digest of none records absence. -/
def recordedSnapshot (faults : RecordFaults) (blobs : BlobStore) (digest blob : Option String)
    (mode : Option Nat) (nodeType : Option FileNodeType) :
    Except Fault (Option NodeSnapshot) :=
  match digest with
  | none => .ok none
  | some digest =>
      match nodeType with
      | none => .error faults.missingType
      | some .directory => .ok (some ⟨.directory, none, mode⟩)
      | some nodeType =>
          (recordedContent faults blobs digest blob).map fun content =>
            some ⟨nodeType, some content, mode⟩

/-- The faults of a pending row whose snapshots cannot be rebuilt. -/
def pendingFaults : RecordFaults where
  missingType := .pendingMutationConflict
    "Pending mutation node type is incomplete and was preserved."
  missingBlob := .pendingMutationConflict
    "Pending mutation data is incomplete and was preserved."
  unreadable := fun _ => .pendingMutationConflict
    "Pending mutation data could not be read and was preserved."
  corrupt := .pendingMutationConflict "Pending mutation data is corrupt and was preserved."

/-- The announced state before or after a pending mutation. -/
def pendingSnapshot (blobs : BlobStore) (pending : PendingMutation) (before : Bool) :
    Except Fault (Option NodeSnapshot) :=
  if before then
    recordedSnapshot pendingFaults blobs pending.beforeHash pending.beforeBlob
      pending.beforeMode pending.resolvedBeforeNodeType
  else
    recordedSnapshot pendingFaults blobs pending.intendedAfterHash pending.intendedAfterBlob
      pending.intendedAfterMode pending.resolvedIntendedAfterNodeType

end Records

namespace ChangeJournal

/-- Create an open ChangeSet. -/
def begin (w : WorkspaceIdentity) (identifier : String) : ChangeProc ChangeSet := do
  let createdAt ← now
  let changeSet : ChangeSet :=
    { id := identifier
      workspaceKey := w.key
      lifecycle := .open
      reversibility := .full
      files := []
      execute := []
      createdAt := createdAt
      sealedAt := none }
  onStore fun s => s.save changeSet
  return changeSet

/-- A ChangeSet of this workspace. -/
def owned (w : WorkspaceIdentity) (changeSetId : String) : ChangeProc ChangeSet :=
  reading fun s =>
    match s.store.get changeSetId with
    | none => .error (.changeSetNotFound changeSetId)
    | some changeSet =>
        if changeSet.workspaceKey ≠ w.key then
          .error (.changeLifecycleError "ChangeSet belongs to another workspace.")
        else .ok changeSet

/-- An open ChangeSet of this workspace. -/
def openChangeSet (w : WorkspaceIdentity) (changeSetId : String) : ChangeProc ChangeSet := do
  let changeSet ← owned w changeSetId
  if changeSet.lifecycle ≠ .open then
    throw (.changeLifecycleError "ChangeSet is not open.")
  return changeSet

/-- Refuse while the ChangeSet has a pending row. -/
def ensureNoPending (changeSetId : String) (message : String) : ChangeProc Unit :=
  reading fun s =>
    if s.store.listPending.any fun pending => decide (pending.changeSetId = changeSetId) then
      .error (.pendingMutationConflict message)
    else .ok ()

section Contents

variable [ContentHash]

/-- Bytes of the distinct blobs that a ChangeSet refers to. -/
def storedBytes (blobs : BlobStore) (changeSet : ChangeSet) : Except Fault Nat := do
  let digests := (changeSet.files.flatMap fun change =>
    change.beforeBlob.toList ++ change.afterBlob.toList).dedup
  let contents ← digests.mapM blobs.read
  return (contents.map List.length).sum

/-- Capacity of a ChangeSet for one more change. -/
def preflight (blobs : BlobStore) (changeSet : ChangeSet)
    (before intendedAfter : Option NodeSnapshot) : Except Fault Unit := do
  if changeSet.files.length + 1 > maxChangesetFiles then
    throw (.changeCapacityExceeded "ChangeSet file limit exceeded.")
  let additions := ((before.bind (·.content)).toList ++
    (intendedAfter.bind (·.content)).toList).dedup
  let stored ← storedBytes blobs changeSet
  if stored + (additions.map List.length).sum > maxChangesetBytes then
    throw (.changeCapacityExceeded "ChangeSet byte limit exceeded.")

/-- Capacity of an open ChangeSet for a whole batch of mutations. Additions are never negative. -/
def preflightBatch (w : WorkspaceIdentity) (changeSetId : String)
    (additionalNodes additionalBytes : Nat) : ChangeProc Unit := do
  let changeSet ← openChangeSet w changeSetId
  ensureNoPending changeSetId "ChangeSet has an unresolved pending mutation."
  if changeSet.files.length + additionalNodes > maxChangesetFiles then
    throw (.changeCapacityExceeded "ChangeSet file limit exceeded.")
  let stored ← reading fun s => storedBytes s.blobs changeSet
  if stored + additionalBytes > maxChangesetBytes then
    throw (.changeCapacityExceeded "ChangeSet byte limit exceeded.")

/-- The record of a completed mutation. -/
def recordOf (pending : PendingMutation) (identifier : String)
    (actualAfter : Option NodeSnapshot) (afterBlob : Option String)
    (h : pending.relativePath.asPosix.length ≤ maxChangePath) : FileChange where
  mutationId := some identifier
  path := pending.relativePath
  kind := pending.kind
  nodeType := ((actualAfter.map (·.nodeType)).or pending.resolvedBeforeNodeType).getD
    pending.nodeType
  beforeNodeType := pending.resolvedBeforeNodeType
  afterNodeType := actualAfter.map (·.nodeType)
  beforeHash := pending.beforeHash
  afterHash := snapshotDigest actualAfter
  beforeBlob := pending.beforeBlob
  afterBlob := afterBlob
  beforeMode := pending.beforeMode
  afterMode := actualAfter.bind (·.mode)
  path_length := h

/-- Record a completed mutation; the text of its path is limited. -/
def fileChange (pending : PendingMutation) (identifier : String)
    (actualAfter : Option NodeSnapshot) : ChangeProc FileChange := do
  let afterBlob ← putContent actualAfter
  if h : pending.relativePath.asPosix.length ≤ maxChangePath then
    return recordOf pending identifier actualAfter afterBlob h
  else throw (.validationError "path")

/-- The pending row of an ordinary mutation. -/
def mutationPending (changeSet : ChangeSet) (identifier : String) (path : RelativePath)
    (kind : FileChangeKind) (nodeType : FileNodeType) (before intendedAfter : Option NodeSnapshot)
    (beforeBlob intendedAfterBlob : Option String) (createdAt : Nat) : PendingMutation where
  id := .mutation identifier
  changeSetId := changeSet.id
  workspaceKey := changeSet.workspaceKey
  relativePath := path
  kind := kind
  nodeType := nodeType
  beforeNodeType := before.map (·.nodeType)
  intendedAfterNodeType := intendedAfter.map (·.nodeType)
  beforeHash := snapshotDigest before
  beforeBlob := beforeBlob
  beforeMode := before.bind (·.mode)
  intendedAfterHash := snapshotDigest intendedAfter
  intendedAfterBlob := intendedAfterBlob
  intendedAfterMode := intendedAfter.bind (·.mode)
  createdAt := createdAt

/-- Carry out the mutation of a bound target. -/
def runMutation (target : BoundFileMutation) : EStateM Fault ChangeState Unit := fun s =>
  match target.mutate s.disk with
  | .ok _ d => .ok () { s with tree := { s.tree with disk := d } }
  | .error fault d => .error fault { s with tree := { s.tree with disk := d } }

/-- Announce, carry out and record one mutation of an open ChangeSet. -/
def applyFileMutation (w : WorkspaceIdentity) (changeSetId : String) (kind : FileChangeKind)
    (intendedAfter : Option NodeSnapshot) (target : BoundFileMutation) (identifier : String) :
    ChangeProc FileChange := do
  let changeSet ← openChangeSet w changeSetId
  ensureNoPending changeSetId "ChangeSet has an unresolved pending mutation."
  match (intendedAfter.map (·.nodeType)).or (target.before.map (·.nodeType)) with
  | none => throw (.changeLifecycleError "Mutation has no before or after state.")
  | some nodeType =>
      reading fun s => preflight s.blobs changeSet target.before intendedAfter
      let beforeBlob ← putContent target.before
      let intendedAfterBlob ← putContent intendedAfter
      let createdAt ← now
      let pending := mutationPending changeSet identifier target.relativePath kind nodeType
        target.before intendedAfter beforeBlob intendedAfterBlob createdAt
      onStore fun s => s.savePending pending
      match ← Proc.attempt (Proc.durable (runMutation target)) with
      | .error (.mutationTargetChanged message) =>
          onStore fun s => s.deletePending pending.id
          throw (.mutationTargetChanged message)
      | .error fault => throw fault
      | .ok () =>
          let actualAfter ← reading fun s => target.captureAfter s.disk
          if snapshotMatchesRecord actualAfter pending.intendedAfterHash
              pending.intendedAfterMode
              (pending.resolvedIntendedAfterNodeType.getD pending.nodeType) = false then
            throw (.pendingMutationConflict ("Mutation result for " ++
              target.relativePath.asPosix ++ " did not match its intended state."))
          let change ← fileChange pending identifier actualAfter
          onStore fun s => s.save { changeSet with files := changeSet.files ++ [change] }
          onStore fun s => s.deletePending pending.id
          return change

end Contents

/-- Record a command whose effects are not managed. -/
def recordExecute (w : WorkspaceIdentity) (changeSetId command : String)
    (observedPaths : List String) : ChangeProc ChangeSet := do
  let changeSet ← openChangeSet w changeSetId
  ensureNoPending changeSetId "ChangeSet has an unresolved pending mutation."
  let updated : ChangeSet :=
    { changeSet with execute := changeSet.execute ++ [⟨command, observedPaths⟩] }
  onStore fun s => s.save updated
  return updated

/-- Reversibility of a ChangeSet with its observed commands. -/
def reversibility (changeSet : ChangeSet) : ChangeReversibility :=
  if changeSet.files ≠ [] ∧ changeSet.execute ≠ [] then .partly
  else if changeSet.execute ≠ [] then .none
  else .full

/-- Close an open ChangeSet without pending rows. -/
def sealChangeSet (w : WorkspaceIdentity) (changeSetId : String) : ChangeProc ChangeSet := do
  let changeSet ← openChangeSet w changeSetId
  ensureNoPending changeSetId
    "ChangeSet has unresolved pending mutations and cannot be sealed."
  let sealedAt ← now
  let sealed : ChangeSet :=
    { changeSet with
      lifecycle := .applied
      reversibility := reversibility changeSet
      sealedAt := some sealedAt }
  onStore fun s => s.save sealed
  return sealed

end ChangeJournal

end AwesomeAgent
