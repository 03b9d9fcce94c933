import AwesomeAgent.Changes.Records
import AwesomeAgent.Library.Hierarchy

/-!
# Workspace filesystem access

Nodes of one workspace tree and the no-follow operations on the children of a
pinned directory. A descriptor is read through the path of its pin: nothing
renames a directory, and the pins of a removed directory are closed before the
removal. Every operation here is one step; nothing else writes in between.
-/

namespace AwesomeAgent

/-- Largest content that a ChangeSet recovers. -/
def maxChangesetBytes : Nat := 50 * 1024 * 1024

/-- The type bits of a node. -/
inductive FileType
  | regular
  | directory
  | symlink
  | other
  deriving DecidableEq, Repr

/-- A node with the data that lstat, read and readlink report. Links have no mode of
their own: the platform reports one mode for all of them. -/
inductive Node
  | file (content : Bytes) (mode : Nat) (links : Nat)
  | directory (mode : Nat)
  | symlink (target : Bytes)
  | special (mode : Nat)
  deriving DecidableEq, Repr

/-- The type bits lstat reports. -/
def Node.fileType : Node → FileType
  | .file _ _ _ => .regular
  | .directory _ => .directory
  | .symlink _ => .symlink
  | .special _ => .other

/-- The type bits of a recordable node type. -/
def FileNodeType.fileType : FileNodeType → FileType
  | .file => .regular
  | .directory => .directory
  | .symlink => .symlink

/-- Node types are different file types. -/
theorem FileNodeType.fileType_injective : Function.Injective FileNodeType.fileType := by
  intro a b h
  cases a <;> cases b <;> first | rfl | cases h

/-- A node under its inode number. -/
structure Entry where
  node : Node
  device : Nat
  inode : Nat
  deriving DecidableEq, Repr

/-- What identifies a filesystem object across two observations. -/
structure FileIdentity where
  device : Nat
  inode : Nat
  fileType : FileType
  reparse : Bool
  deriving DecidableEq, Repr

/-- Links are the only reparse points of the modelled platform. -/
def Entry.isLinkOrReparse (e : Entry) : Bool := decide (e.node.fileType = .symlink)

/-- Whether lstat reports a directory. -/
def Entry.isDirectory (e : Entry) : Bool := decide (e.node.fileType = .directory)

/-- The identity of an observed object. -/
def Entry.identity (e : Entry) : FileIdentity :=
  ⟨e.device, e.inode, e.node.fileType, e.isLinkOrReparse⟩

variable {e : Entry} {linkMode : Nat} {s : NodeSnapshot}

/-- The identity of a directory is its device and its inode. -/
theorem Entry.identity_of_directory (h : e.isDirectory = true) :
    e.identity = ⟨e.device, e.inode, .directory, false⟩ := by
  have hft : e.node.fileType = .directory := by simpa [Entry.isDirectory] using h
  simp [Entry.identity, Entry.isLinkOrReparse, hft]

/-- A workspace tree with the platform values that new nodes receive. Inode numbers
come from an arbitrary supply and may repeat. -/
structure Disk where
  tree : Hierarchy String Entry Entry.isDirectory
  inodes : Nat → Nat
  made : Nat
  linkMode : Nat
  creationMode : Nat → Nat

/-- The node at a path. -/
def Disk.lstat (d : Disk) (p : NodePath) : Option Entry := d.tree.get? p

/-- A path at which a plain directory lies. -/
def Disk.IsDirectory (d : Disk) (p : NodePath) : Prop := d.tree.IsBranch p

instance (d : Disk) (p : NodePath) : Decidable (d.IsDirectory p) :=
  inferInstanceAs (Decidable (d.tree.IsBranch p))

/-- An opened directory. A descriptor names the pin object, so a pin that is closed
stays closed for everyone who refers to it. -/
inductive DirectoryPin
  | root (descriptor : Nat) (identity : FileIdentity)
  | child (descriptor : Nat) (identity : FileIdentity) (parent : DirectoryPin) (name : String)
  deriving DecidableEq, Repr

/-- The descriptor of a pin. -/
def DirectoryPin.descriptor : DirectoryPin → Nat
  | .root descriptor _ => descriptor
  | .child descriptor _ _ _ => descriptor

/-- The identity seen when the directory was opened. -/
def DirectoryPin.identity : DirectoryPin → FileIdentity
  | .root _ identity => identity
  | .child _ identity _ _ => identity

/-- The path under which the directory was opened. -/
def DirectoryPin.path : DirectoryPin → NodePath
  | .root _ _ => []
  | .child _ _ parent name => name :: parent.path

/-- The identity check of a pinned directory against the node now at its path. -/
def checkPinned (d : Disk) (p : NodePath) (expected : FileIdentity) : Except Fault Unit :=
  match d.lstat p with
  | none => .error (.osError "FileNotFoundError")
  | some info =>
      if info.isLinkOrReparse ∨ info.identity ≠ expected then
        .error (.mutationTargetChanged "A workspace directory changed after path validation.")
      else .ok ()

/-- A pin is reachable when it and every pin it was opened through are open and unchanged. -/
def DirectoryPin.verifyReachable (d : Disk) (closed : List Nat) :
    DirectoryPin → Except Fault Unit
  | .root descriptor identity =>
      if descriptor ∈ closed then
        .error (.mutationTargetChanged "A bound workspace directory was closed.")
      else checkPinned d [] identity
  | .child descriptor identity parent name =>
      if descriptor ∈ closed then
        .error (.mutationTargetChanged "A bound workspace directory was closed.")
      else
        match parent.verifyReachable d closed with
        | .error fault => .error fault
        | .ok () => checkPinned d (name :: parent.path) identity

/-- The node under a name of a pinned directory. -/
def lstatChild (d : Disk) (parent : DirectoryPin) (name : String) : Option Entry :=
  d.lstat (name :: parent.path)

/-- The checks before a directory is opened; the identity of the directory on success. -/
def directoryIdentity (before : Option Entry) (expected : Option FileIdentity) :
    Except Fault FileIdentity :=
  match before with
  | none =>
      if expected.isSome then
        .error (.mutationTargetChanged
          "A bound workspace directory disappeared before it was opened.")
      else .error (.osError "FileNotFoundError")
  | some info =>
      if info.isLinkOrReparse then
        .error (.unsafeWorkspacePath "Directory links and reparse points are not allowed.")
      else if info.isDirectory = false then
        .error (.unsafeWorkspacePath "A workspace path component is not a directory.")
      else if expected.any (· ≠ info.identity) then
        .error (.mutationTargetChanged
          "A bound workspace directory was replaced before it was opened.")
      else .ok info.identity

/-- Read a regular file of a pinned directory together with its identity. -/
def openRegularFile (info : Entry) : Except Fault (Bytes × Nat × FileIdentity) :=
  match info.node with
  | .file content mode links =>
      if links ≠ 1 then
        .error (.unsafeWorkspacePath "Hard-linked files cannot be opened safely.")
      else .ok (content, mode, info.identity)
  | .symlink _ =>
      .error (.unsafeWorkspacePath "File links and reparse points cannot be opened.")
  | _ => .error (.unsafeWorkspacePath "A workspace path is not a regular file.")

/-- The child of a pinned directory must still be the expected object. -/
def assertChildIdentity (d : Disk) (parent : DirectoryPin) (name : String)
    (expected : Option FileIdentity) (allowReparse : Bool) : Except Fault Unit :=
  match lstatChild d parent name, expected with
  | none, none => .ok ()
  | none, some _ =>
      .error (.mutationTargetChanged "A workspace file disappeared before mutation.")
  | some _, none => .error (.mutationTargetChanged "A workspace file changed before mutation.")
  | some current, some expected =>
      if current.identity ≠ expected then
        .error (.mutationTargetChanged "A workspace file changed before mutation.")
      else if current.isLinkOrReparse ∧ allowReparse = false then
        .error (.mutationTargetChanged "A workspace file changed before mutation.")
      else .ok ()

namespace Disk

/-- Create or overwrite a name of a directory; a directory is not overwritten by a leaf. -/
def write (d : Disk) (parent : NodePath) (name : String) (entry : Entry) : Except Fault Disk :=
  if hp : d.tree.IsBranch parent then
    if hv : entry.isDirectory = true ∨ ¬d.tree.IsBranch (name :: parent) then
      .ok { d with tree := d.tree.put name parent entry hp hv }
    else .error (.osError "IsADirectoryError")
  else .error (.osError "FileNotFoundError")

/-- The next inode of the supply. -/
def nextInode (d : Disk) : Nat := d.inodes d.made

/-- A new object under a name. -/
def create (d : Disk) (parent : NodePath) (name : String) (device : Nat) (node : Node) :
    Except Fault Disk :=
  (d.write parent name ⟨node, device, d.nextInode⟩).map fun d => { d with made := d.made + 1 }

/-- A write that finds a directory to write in changes exactly the written path. -/
theorem write_ok (d : Disk) {parent : NodePath} (name : String) (entry : Entry)
    (hp : d.IsDirectory parent)
    (hv : entry.isDirectory = true ∨ ¬d.IsDirectory (name :: parent)) :
    ∃ d', d.write parent name entry = .ok d' ∧ d'.linkMode = d.linkMode ∧
      ∀ q, d'.lstat q = if q = name :: parent then some entry else d.lstat q :=
  ⟨{ d with tree := d.tree.put name parent entry hp hv },
    (dif_pos hp).trans (dif_pos hv), rfl, d.tree.get?_put name parent entry hp hv⟩

/-- A node is created in a directory unless one is there. -/
theorem create_ok (d : Disk) {parent : NodePath} (name : String) (device : Nat) (node : Node)
    (hp : d.IsDirectory parent)
    (hv : node.fileType = .directory ∨ ¬d.IsDirectory (name :: parent)) :
    ∃ d', d.create parent name device node = .ok d' ∧ d'.linkMode = d.linkMode ∧
      ∀ q, d'.lstat q =
        if q = name :: parent then some ⟨node, device, d.nextInode⟩ else d.lstat q := by
  obtain ⟨d', hw, hlink, hget⟩ := d.write_ok name ⟨node, device, d.nextInode⟩ hp
    (hv.imp_left fun h => by simp [Entry.isDirectory, h])
  refine ⟨{ d' with made := d'.made + 1 }, ?_, hlink, hget⟩
  simp [create, hw, Except.map]

/-- Rename a completed temporary file over a child. Without a mode the creation mode stays. -/
def atomicReplaceChild (d : Disk) (parent : DirectoryPin) (name : String) (content : Bytes)
    (mode : Option Nat) : Except Fault Disk :=
  d.create parent.path name parent.identity.device
    (.file content (mode.getD (d.creationMode 0o600)) 1)

/-- Unlink a child, or remove it as an empty directory. -/
def removeChild (d : Disk) (parent : DirectoryPin) (name : String) (directory : Bool) :
    Except Fault Disk :=
  match lstatChild d parent name with
  | none => .error (.osError "FileNotFoundError")
  | some info =>
      if info.isDirectory ≠ directory then
        .error (.osError (if directory then "NotADirectoryError" else "IsADirectoryError"))
      else if h : d.tree.HasChild (name :: parent.path) then .error (.osError "OSError")
      else .ok { d with tree := d.tree.remove name parent.path h }

/-- Create a directory; the platform masks the requested mode. -/
def makeDirectoryChild (d : Disk) (parent : DirectoryPin) (name : String) (mode : Option Nat) :
    Except Fault Disk :=
  match lstatChild d parent name with
  | some _ => .error (.osError "FileExistsError")
  | none =>
      d.create parent.path name parent.identity.device
        (.directory (d.creationMode (mode.getD 0o777)))

/-- Create a symbolic link. -/
def makeSymlinkChild (d : Disk) (parent : DirectoryPin) (name : String) (target : Bytes) :
    Except Fault Disk :=
  match lstatChild d parent name with
  | some _ => .error (.osError "FileExistsError")
  | none => d.create parent.path name parent.identity.device (.symlink target)

/-- Set the mode of an opened directory. -/
def changeDirectoryMode (d : Disk) (directory : DirectoryPin) (mode : Nat) :
    Except Fault Disk :=
  match directory, d.lstat directory.path with
  | .child _ _ parent name, some info =>
      d.write parent.path name { info with node := .directory mode }
  | _, _ => .error (.osError "OSError")

end Disk

/-- The snapshot of a node that the change subsystem can record. -/
def Entry.snapshot? (linkMode : Nat) (e : Entry) : Option NodeSnapshot :=
  match e.node with
  | .file content mode _ => some ⟨.file, some content, some mode⟩
  | .directory mode => some ⟨.directory, none, some mode⟩
  | .symlink target => some ⟨.symlink, some target, some linkMode⟩
  | .special _ => none

/-- Nodes that can be captured: no special files, no hard links, no oversized files. -/
def Entry.Capturable (e : Entry) : Prop :=
  match e.node with
  | .file content _ links => links = 1 ∧ content.length ≤ maxChangesetBytes
  | .special _ => False
  | _ => True

instance (e : Entry) : Decidable e.Capturable := by
  unfold Entry.Capturable
  split <;> infer_instance

/-- Capture a node without following it. -/
def captureNode (linkMode : Nat) (observed : Option Entry) :
    Except Fault (Option (NodeSnapshot × FileIdentity)) :=
  match observed with
  | none => .ok none
  | some info =>
      match info.node with
      | .symlink target => .ok (some (⟨.symlink, some target, some linkMode⟩, info.identity))
      | .directory mode => .ok (some (⟨.directory, none, some mode⟩, info.identity))
      | .special _ => .error (.unsafeWorkspacePath "Unsupported filesystem node.")
      | .file _ _ _ =>
          match openRegularFile info with
          | .error fault => .error fault
          | .ok (content, mode, opened) =>
              if content.length > maxChangesetBytes then
                .error (.unsafeWorkspacePath "A recovery file exceeds the ChangeSet byte limit.")
              else .ok (some (⟨.file, some content, some mode⟩, opened))

/-- The recordable snapshot of the node at a path. -/
def Disk.snapshot (d : Disk) (p : NodePath) : Option NodeSnapshot :=
  (d.lstat p).bind (Entry.snapshot? d.linkMode)

/-- Capturing a capturable node reports its snapshot and identity. -/
theorem captureNode_of_capturable (linkMode : Nat) (h : e.Capturable) :
    ∃ s, e.snapshot? linkMode = some s ∧
      captureNode linkMode (some e) = .ok (some (s, e.identity)) := by
  obtain ⟨node, device, inode⟩ := e
  cases node with
  | file content mode links =>
    obtain ⟨rfl, hlen⟩ := h
    refine ⟨_, rfl, ?_⟩
    simp [captureNode, openRegularFile, hlen]
  | directory mode => exact ⟨_, rfl, rfl⟩
  | symlink target => exact ⟨_, rfl, rfl⟩
  | special mode => exact h.elim

/-- A capture that succeeds saw a capturable node and reports its snapshot and identity. -/
theorem captureNode_ok {observed : Option Entry}
    {r : Option (NodeSnapshot × FileIdentity)} (h : captureNode linkMode observed = .ok r) :
    (∀ e ∈ observed, e.Capturable) ∧
      r.map Prod.fst = observed.bind (Entry.snapshot? linkMode) ∧
      r.map Prod.snd = observed.map Entry.identity := by
  cases observed with
  | none =>
    cases h
    simp
  | some e =>
    have hc : e.Capturable := by
      obtain ⟨node, device, inode⟩ := e
      cases node with
      | file content mode links =>
        by_cases hl : links = 1
        · by_cases hs : content.length ≤ maxChangesetBytes
          · exact ⟨hl, hs⟩
          · simp [captureNode, openRegularFile, hl, Nat.lt_of_not_le hs] at h
        · simp [captureNode, openRegularFile, hl] at h
      | directory mode => trivial
      | symlink target => trivial
      | special mode => simp [captureNode] at h
    obtain ⟨s, hs, hr⟩ := captureNode_of_capturable linkMode hc
    rw [hr] at h
    cases h
    simpa [hs] using hc

private theorem Entry.snapshot?_captured (h : e.snapshot? linkMode = some s) : s.Captured := by
  obtain ⟨node, device, inode⟩ := e
  cases node <;> simp only [Entry.snapshot?, Option.some.injEq, reduceCtorEq] at h
  all_goals
    subst h
    exact ⟨rfl, by simp [NodeSnapshot.Formed]⟩

/-- A snapshot of a node was captured. -/
theorem Disk.snapshot_captured {d : Disk} {p : NodePath}
    (h : d.snapshot p = some s) : s.Captured := by
  obtain ⟨e, _, he⟩ := Option.bind_eq_some_iff.mp h
  exact Entry.snapshot?_captured he

/-- The type of a snapshot tells whether the node is a directory. -/
theorem Entry.snapshot?_directory
    (h : e.snapshot? linkMode = some s) : e.isDirectory = decide (s.nodeType = .directory) := by
  obtain ⟨node, device, inode⟩ := e
  cases node <;> simp only [Entry.snapshot?, Option.some.injEq, reduceCtorEq] at h
  all_goals
    subst h
    rfl

/-- Snapshots of one type belong to nodes of one type. -/
theorem Entry.snapshot?_fileType (h : e.snapshot? linkMode = some s) :
    e.node.fileType = s.nodeType.fileType := by
  obtain ⟨node, device, inode⟩ := e
  cases node <;> simp only [Entry.snapshot?, Option.some.injEq, reduceCtorEq] at h
  all_goals
    subst h
    rfl

end AwesomeAgent
