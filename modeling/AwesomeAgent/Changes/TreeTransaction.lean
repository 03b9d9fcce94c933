import AwesomeAgent.Changes.Filesystem

/-!
# Workspace tree transactions

A transaction pins the directories it walks through. A bound node keeps what was
seen under its path, and a restore first checks that this is still what is there.
-/

namespace AwesomeAgent

/-- The disk with the pins of the running transaction. The descriptors that were
closed are kept, because a closed pin can still be the parent of an open one. -/
structure TreeState where
  disk : Disk
  pins : Dict NodePath DirectoryPin
  created : List NodePath
  closed : List Nat
  opened : Nat

namespace TreeState

/-- Close and forget the pins from a path downwards, with what was created there. -/
def release (s : TreeState) (parts : NodePath) : TreeState :=
  { s with
    pins := s.pins.filterKeys fun p => !parts.isSuffixOf p
    closed := ((s.pins.filterKeys fun p => parts.isSuffixOf p).values.map
      DirectoryPin.descriptor) ++ s.closed
    created := s.created.filter fun p => !parts.isSuffixOf p }

/-- Releasing pins leaves the disk. -/
@[simp] theorem release_disk (s : TreeState) (parts : NodePath) :
    (s.release parts).disk = s.disk := rfl

/-- Replace the pin of a path and close the old one. -/
def repin (s : TreeState) (parts : NodePath) (directory : DirectoryPin) : TreeState :=
  { s with
    closed := ((s.pins.get? parts).map DirectoryPin.descriptor).toList ++ s.closed
    pins := (s.pins.erase parts).set parts directory }

/-- Replacing a pin leaves the disk. -/
@[simp] theorem repin_disk (s : TreeState) (parts : NodePath) (directory : DirectoryPin) :
    (s.repin parts directory).disk = s.disk := rfl

end TreeState

/-- A tree step; a raised fault keeps the state it was raised in. -/
abbrev TreeM (α : Type) := EStateM Fault TreeState α

/-- A tree step that only reads. -/
def inspect {α : Type} (f : TreeState → Except Fault α) : TreeM α := fun s =>
  match f s with
  | .ok a => .ok a s
  | .error fault => .error fault s

/-- A step that changes the disk only. -/
def onDisk (f : Disk → Except Fault Disk) : TreeM Unit := fun s =>
  match f s.disk with
  | .ok d => .ok () { s with disk := d }
  | .error fault => .error fault s

/-- What a bind saw: the node, or the first missing directory above it. -/
structure BoundWorkspaceNode where
  relative : RelativePath
  observed : Option (NodeSnapshot × FileIdentity)
  missingAncestor : Option NodePath
  deriving DecidableEq, Repr

/-- The snapshot seen when the node was bound. -/
def BoundWorkspaceNode.snapshot (target : BoundWorkspaceNode) : Option NodeSnapshot :=
  target.observed.map Prod.fst

/-- The identity seen when the node was bound. -/
def BoundWorkspaceNode.identity (target : BoundWorkspaceNode) : Option FileIdentity :=
  target.observed.map Prod.snd

/-- Only a bound symbolic link may be a link when it is checked again. -/
def BoundWorkspaceNode.allowReparse (target : BoundWorkspaceNode) : Bool :=
  target.snapshot.any fun s => decide (s.nodeType = .symlink)

namespace WorkspaceTreeTransaction

/-- Check the reachability of a pin in the current state. -/
def verifyReachable (pin : DirectoryPin) : TreeM Unit :=
  inspect fun s => pin.verifyReachable s.disk s.closed

/-- Open the workspace root of a new transaction. -/
def enter (rootIdentity : FileIdentity) : TreeM Unit := do
  let identity ← inspect fun s => directoryIdentity (s.disk.lstat []) (some rootIdentity)
  modify fun s => { s with
    pins := Dict.empty.set [] (.root 0 identity)
    created := []
    closed := []
    opened := 1 }

/-- Open a child directory under a fresh descriptor. -/
def openDirectory (parent : DirectoryPin) (name : String) : TreeM DirectoryPin := do
  let identity ← inspect fun s => directoryIdentity (lstatChild s.disk parent name) none
  let s ← get
  set { s with opened := s.opened + 1 }
  return .child s.opened identity parent name

/-- The pin under which the root was opened. -/
def root : TreeM DirectoryPin :=
  inspect fun s =>
    match s.pins.get? [] with
    | some pin => .ok pin
    | none => .error (.osError "RuntimeError")

/-- One component of the walk to a parent: reuse its pin, or open and pin it. The second
part of the result is the first missing directory. -/
def openComponent (current : DirectoryPin) (part : String) (parts : NodePath) :
    TreeM (Option DirectoryPin × Option NodePath) := do
  let s ← get
  match s.pins.get? (part :: parts) with
  | some existing =>
      verifyReachable existing
      return (some existing, none)
  | none =>
      verifyReachable current
      match lstatChild s.disk current part with
      | none => return (none, some (part :: parts))
      | some info =>
          if info.isLinkOrReparse = true ∨ info.isDirectory = false then
            throw (.unsafeWorkspacePath
              "Workspace parent links and non-directories are not allowed.")
          else
            let opened ← openDirectory current part
            modify fun s => { s with pins := s.pins.set (part :: parts) opened }
            return (some opened, none)

/-- Walk from the root to a directory; stop at the first missing one. -/
def openParent : NodePath → TreeM (Option DirectoryPin × Option NodePath)
  | [] => do
      let pin ← root
      return (some pin, none)
  | part :: parts => do
      let (current, missing) ← openParent parts
      match current with
      | none => return (none, missing)
      | some current => openComponent current part parts

/-- Capture the child of a reachable pin. -/
def captureChild (parent : DirectoryPin) (name : String) :
    TreeM (Option (NodeSnapshot × FileIdentity)) := do
  verifyReachable parent
  inspect fun s => captureNode s.disk.linkMode (lstatChild s.disk parent name)

/-- Bind a path to the node that is under it now. -/
def bind (relative : RelativePath) : TreeM BoundWorkspaceNode := do
  let (parent, missing) ← openParent relative.parent
  match parent with
  | none => return ⟨relative, none, missing⟩
  | some parent =>
      let observed ← captureChild parent relative.name
      return ⟨relative, observed, none⟩

/-- A directory that was missing at bind time must have been created by this transaction. -/
def verifyMissingAncestor (target : BoundWorkspaceNode) : TreeM Unit :=
  inspect fun s =>
    match target.missingAncestor with
    | none => .ok ()
    | some missing =>
        if missing ∈ s.created then .ok ()
        else .error (.mutationTargetChanged
          "A missing workspace parent was replaced before restoration.")

/-- The bound object must still be under its path. -/
def assertBound (parent : DirectoryPin) (target : BoundWorkspaceNode) : TreeM Unit :=
  inspect fun s =>
    assertChildIdentity s.disk parent target.relative.name target.identity target.allowReparse

/-- Capture a bound node again. -/
def capture (target : BoundWorkspaceNode) : TreeM (Option NodeSnapshot) := do
  let (parent, _) ← openParent target.relative.parent
  match parent with
  | none =>
      if target.identity.isSome then
        throw (.mutationTargetChanged
          "A workspace parent directory disappeared after binding.")
      else return none
  | some parent =>
      verifyMissingAncestor target
      assertBound parent target
      let observed ← captureChild parent target.relative.name
      return observed.map Prod.fst

/-- Close and forget every pin from a path downwards. -/
def releaseSubtree (parts : NodePath) : TreeM Unit :=
  modify fun s => s.release parts

/-- Whether a restore has to remove the current node before it can place the desired one. -/
def mustRemove (current : NodeSnapshot) (desired : Option NodeSnapshot) : Bool :=
  match desired with
  | none => true
  | some desired =>
      decide (current.nodeType ≠ desired.nodeType) || decide (desired.nodeType = .symlink)

/-- Remove the bound node where it is in the way; the snapshot of what is left. -/
def removeObstacle (parent : DirectoryPin) (target : BoundWorkspaceNode)
    (desired : Option NodeSnapshot) : TreeM (Option NodeSnapshot) := do
  match target.snapshot with
  | none => return none
  | some current =>
      if mustRemove current desired then
        if current.nodeType = .directory then releaseSubtree target.relative.parts
        onDisk fun d =>
          d.removeChild parent target.relative.name (decide (current.nodeType = .directory))
        return none
      else return some current

/-- Pin a restored directory afresh and close the pin it had before. -/
def repin (parts : NodePath) (directory : DirectoryPin) : TreeM Unit :=
  modify fun s => s.repin parts directory

/-- Place the desired node where `current` is left. -/
def placeDesired (parent : DirectoryPin) (relative : RelativePath)
    (current : Option NodeSnapshot) : Option NodeSnapshot → TreeM Unit
  | none => return ()
  | some desired =>
      match desired.nodeType with
      | .file =>
          onDisk fun d =>
            d.atomicReplaceChild parent relative.name (desired.content.getD []) desired.mode
      | .directory => do
          if current.isNone then
            onDisk fun d => d.makeDirectoryChild parent relative.name desired.mode
            modify fun s => { s with created := relative.parts :: s.created }
          let directory ← openDirectory parent relative.name
          repin relative.parts directory
          match desired.mode with
          | none => return ()
          | some mode => onDisk fun d => d.changeDirectoryMode directory mode
      | .symlink =>
          onDisk fun d => d.makeSymlinkChild parent relative.name (desired.content.getD [])

/-- Bring a bound node into the desired state and capture the result. -/
def restore (target : BoundWorkspaceNode) (desired : Option NodeSnapshot) :
    TreeM (Option NodeSnapshot) := do
  let (parent, _) ← openParent target.relative.parent
  match parent with
  | none =>
      if desired.isNone && target.snapshot.isNone then return none
      else throw (.mutationTargetChanged
        "A workspace parent directory changed before restoration.")
  | some parent =>
      verifyMissingAncestor target
      verifyReachable parent
      assertBound parent target
      let current ← removeObstacle parent target desired
      placeDesired parent target.relative current desired
      let observed ← captureChild parent target.relative.name
      return observed.map Prod.fst

end WorkspaceTreeTransaction

end AwesomeAgent
