import AwesomeAgent.Library.Content
import AwesomeAgent.Library.Dict
import Mathlib.Data.List.Sort

/-!
# Records of recoverable workspace changes

Snapshots of workspace nodes, the recorded file changes with their ChangeSet,
and the pending rows that announce a mutation before it happens. Paths are
already normalised: a path is never empty and has no dot components.
-/

namespace AwesomeAgent

/-- Names from a node up to the workspace root, which is the empty path. -/
abbrev NodePath := List String

/-- A normalised workspace-relative path: its last name and its parent. -/
structure RelativePath where
  name : String
  parent : NodePath
  deriving DecidableEq, Repr

/-- The path with its own name. -/
def RelativePath.parts (p : RelativePath) : NodePath := p.name :: p.parent

/-- The slash-separated text of a path. -/
def RelativePath.asPosix (p : RelativePath) : String :=
  p.parent.foldl (fun text name => name ++ "/" ++ text) p.name

/-- A path is what its parts say. -/
theorem RelativePath.parts_injective {p q : RelativePath} (h : p.parts = q.parts) : p = q := by
  cases p
  cases q
  simpa [RelativePath.parts] using h

/-- Failures raised by the change subsystem, with the message they carry. -/
inductive Fault
  | mutationTargetChanged (message : String)
  | unsafeWorkspacePath (message : String)
  | osError (name : String)
  | changeBlobCorrupt (message : String)
  | changeCapacityExceeded (message : String)
  | changeConflict (message : String)
  | changeLifecycleError (message : String)
  | changeNotReversible (message : String)
  | changeSetNotFound (changeSetId : String)
  | pendingMutationConflict (message : String)
  | validationError (field : String)
  | expectedToolFailure (message : String)
  | assertionError
  deriving DecidableEq, Repr

/-- The faults that the change services translate when a tree cannot be accessed. -/
def Fault.isTreeFault : Fault → Bool
  | .mutationTargetChanged _ | .unsafeWorkspacePath _ | .osError _ => true
  | _ => false

/-- Life of a ChangeSet. -/
inductive ChangeLifecycle
  | open
  | applied
  | undone
  deriving DecidableEq, Repr

/-- The stored text of a lifecycle. -/
def ChangeLifecycle.value : ChangeLifecycle → String
  | .open => "open"
  | .applied => "applied"
  | .undone => "undone"

/-- How much of a ChangeSet can be reverted. -/
inductive ChangeReversibility
  | full
  | partly
  | none
  deriving DecidableEq, Repr

/-- What a change did to its path. -/
inductive FileChangeKind
  | created
  | updated
  | deleted
  deriving DecidableEq, Repr

/-- Node types that a change can record. -/
inductive FileNodeType
  | file
  | directory
  | symlink
  deriving DecidableEq, Repr

/-- Observed or desired state of one existing node. -/
structure NodeSnapshot where
  nodeType : FileNodeType
  content : Option Bytes
  mode : Option Nat
  deriving DecidableEq, Repr

/-- Nodes other than directories have content. -/
def NodeSnapshot.Formed (s : NodeSnapshot) : Prop := s.content = none ↔ s.nodeType = .directory

/-- Captured snapshots have a mode, and content exactly when they are not directories. -/
structure NodeSnapshot.Captured (s : NodeSnapshot) : Prop where
  mode : s.mode.isSome
  content : s.Formed

section Digest

variable [ContentHash]

/-- Digest of a node; absence has none and a directory has that of no bytes. -/
def snapshotDigest (snapshot : Option NodeSnapshot) : Option String :=
  snapshot.map fun s => ContentHash.sha256 (s.content.getD [])

/-- Whether a node is the recorded one; a recorded digest of none means absence. -/
def snapshotMatchesRecord (snapshot : Option NodeSnapshot) (digest : Option String)
    (mode : Option Nat) (nodeType : FileNodeType) : Bool :=
  match digest, snapshot with
  | none, snapshot => snapshot.isNone
  | some _, none => false
  | some digest, some s =>
      decide (s.nodeType = nodeType) && decide (snapshotDigest (some s) = some digest) &&
        (decide (mode = none) || decide (s.mode = mode))

/-- Whether a node is the expected one, mode included. -/
def snapshotsMatch (snapshot expected : Option NodeSnapshot) : Bool :=
  match expected, snapshot with
  | none, snapshot => snapshot.isNone
  | some _, none => false
  | some e, some s =>
      decide (s.nodeType = e.nodeType) &&
        decide (snapshotDigest (some s) = snapshotDigest (some e)) && decide (s.mode = e.mode)

/-- A snapshot matches itself. -/
@[simp] theorem snapshotsMatch_self (s : Option NodeSnapshot) : snapshotsMatch s s = true := by
  cases s <;> simp [snapshotsMatch]

/-- Captured snapshots match only when they are equal. -/
theorem snapshotsMatch_iff {s t : Option NodeSnapshot} (hs : ∀ u ∈ s, u.Captured)
    (ht : ∀ u ∈ t, u.Captured) : snapshotsMatch s t = true ↔ s = t := by
  constructor
  · intro h
    cases t with
    | none => simpa [snapshotsMatch] using h
    | some e =>
      cases s with
      | none => simp [snapshotsMatch] at h
      | some u =>
        simp only [snapshotsMatch, snapshotDigest, Option.map_some, Bool.and_eq_true,
          decide_eq_true_eq, Option.some.injEq] at h
        obtain ⟨⟨htype, hdigest⟩, hmode⟩ := h
        have hcontent := ContentHash.sha256_injective hdigest
        have hu := (hs u rfl).content
        have he := (ht e rfl).content
        obtain ⟨ut, uc, um⟩ := u
        obtain ⟨et, ec, em⟩ := e
        simp only [NodeSnapshot.Formed] at htype hmode hcontent hu he
        subst htype hmode
        cases uc <;> cases ec <;> simp_all
  · rintro rfl
    exact snapshotsMatch_self s

/-- Against a record with a mode, matching is equality with the recorded snapshot. -/
theorem snapshotMatchesRecord_iff {s t : Option NodeSnapshot} {nodeType : FileNodeType}
    (hs : ∀ u ∈ s, u.Captured) (ht : ∀ u ∈ t, u.Captured)
    (htype : ∀ u ∈ t, u.nodeType = nodeType) :
    snapshotMatchesRecord s (snapshotDigest t) (t.bind (·.mode)) nodeType = true ↔ s = t := by
  rw [← snapshotsMatch_iff hs ht]
  cases t with
  | none => cases s <;> simp [snapshotMatchesRecord, snapshotsMatch, snapshotDigest]
  | some e =>
    have hmode := (ht e rfl).mode
    have hne : e.mode ≠ none := by
      intro h
      simp [h] at hmode
    have ht' := htype e rfl
    cases s with
    | none => simp [snapshotMatchesRecord, snapshotsMatch, snapshotDigest]
    | some u => simp [snapshotMatchesRecord, snapshotsMatch, snapshotDigest, hne, ht']

end Digest

/-- Longest path text that a recorded change accepts. -/
def maxChangePath : Nat := 1000

/-- One recorded change of a path. The node type is the legacy and display type. -/
structure FileChange where
  mutationId : Option String
  path : RelativePath
  kind : FileChangeKind
  nodeType : FileNodeType
  beforeNodeType : Option FileNodeType
  afterNodeType : Option FileNodeType
  beforeHash : Option String
  afterHash : Option String
  beforeBlob : Option String
  afterBlob : Option String
  beforeMode : Option Nat
  afterMode : Option Nat
  path_length : path.asPosix.length ≤ maxChangePath
  deriving DecidableEq

/-- Node type before the change; legacy rows fall back to the display type. -/
def FileChange.resolvedBeforeNodeType (c : FileChange) : Option FileNodeType :=
  c.beforeHash.bind fun _ => some (c.beforeNodeType.getD c.nodeType)

/-- Node type after the change; legacy rows fall back to the display type. -/
def FileChange.resolvedAfterNodeType (c : FileChange) : Option FileNodeType :=
  c.afterHash.bind fun _ => some (c.afterNodeType.getD c.nodeType)

/-- A command whose effects are observed and not managed. -/
structure ExecuteObservation where
  command : String
  observedPaths : List String
  deriving DecidableEq, Repr

/-- The recorded changes of one mutation-capable step. -/
structure ChangeSet where
  id : String
  workspaceKey : String
  lifecycle : ChangeLifecycle
  reversibility : ChangeReversibility
  files : List FileChange
  execute : List ExecuteObservation
  createdAt : Nat
  sealedAt : Option Nat
  deriving DecidableEq

/-- Direction of a change operation. -/
inductive Action
  | undo
  | redo
  deriving DecidableEq, Repr

/-- Identifier of a pending row: an ordinary mutation, or one item of a change operation.
The rendered text starts with the action and ends with the index in four digits. -/
inductive PendingId
  | mutation (identifier : String)
  | operation (action : Action) (operationId : Nat) (index : Nat)
  deriving DecidableEq, Repr

/-- The action a pending row belongs to, if it is not an ordinary mutation. -/
def PendingId.operationAction : PendingId → Option Action
  | .mutation _ => none
  | .operation action _ _ => some action

/-- Text order of rendered identifiers of operation items. -/
def PendingId.le : PendingId → PendingId → Bool
  | .mutation a, .mutation b => decide (a ≤ b)
  | .mutation _, .operation _ _ _ => true
  | .operation _ _ _, .mutation _ => false
  | .operation a i m, .operation b j n =>
      if a = b then decide (i < j ∨ i = j ∧ m ≤ n) else decide (a = .redo)

/-- A mutation announced before it happens. -/
structure PendingMutation where
  id : PendingId
  changeSetId : String
  workspaceKey : String
  relativePath : RelativePath
  kind : FileChangeKind
  nodeType : FileNodeType
  beforeNodeType : Option FileNodeType
  intendedAfterNodeType : Option FileNodeType
  beforeHash : Option String
  beforeBlob : Option String
  beforeMode : Option Nat
  intendedAfterHash : Option String
  intendedAfterBlob : Option String
  intendedAfterMode : Option Nat
  createdAt : Nat
  deriving DecidableEq, Repr

/-- Node type before the announced mutation. -/
def PendingMutation.resolvedBeforeNodeType (p : PendingMutation) : Option FileNodeType :=
  p.beforeHash.bind fun _ => some (p.beforeNodeType.getD p.nodeType)

/-- Node type after the announced mutation. -/
def PendingMutation.resolvedIntendedAfterNodeType (p : PendingMutation) : Option FileNodeType :=
  p.intendedAfterHash.bind fun _ => some (p.intendedAfterNodeType.getD p.nodeType)

end AwesomeAgent
