import AwesomeAgent.Changes.Journal

/-!
# Mutations of the file tools

Writing a file replaces the child of a pinned directory, and deleting a tree
removes its nodes one by one, children first. Both check the node they captured
before they change it.
-/

namespace AwesomeAgent

/-- A mutation as the tools carry it out: it captured the node it found, changes only
its own path and reports the node it left. -/
structure OrdinaryMutation (d : Disk) (target : BoundFileMutation) : Prop where
  before : target.before = d.snapshot target.relativePath.parts
  capturable : ∀ e, d.lstat target.relativePath.parts = some e → e.Capturable
  elsewhere : ∀ d', target.mutate d = .ok () d' → ∀ q, q ≠ target.relativePath.parts →
    d'.lstat q = d.lstat q
  linkMode : ∀ d', target.mutate d = .ok () d' → d'.linkMode = d.linkMode
  captured : ∀ d' u, target.mutate d = .ok () d' → target.captureAfter d' = .ok u →
    u = d'.snapshot target.relativePath.parts ∧
      ∀ e, d'.lstat target.relativePath.parts = some e → e.Capturable

/-- A step of the disk as the mutation of a target. -/
def diskMutation (f : Disk → Except Fault Disk) : EStateM Fault Disk Unit := fun d =>
  match f d with
  | .ok d' => .ok () d'
  | .error fault => .error fault d

variable {f : Disk → Except Fault Disk} {d : Disk} {parent : DirectoryPin} {relative : RelativePath}
  {before : Option (NodeSnapshot × FileIdentity)} {content : Bytes} {mode : Option Nat}
  {identity : FileIdentity} {snapshot : NodeSnapshot}

private theorem diskMutation_ok {d' : Disk}
    (h : (diskMutation f : EStateM Fault Disk Unit) d = .ok () d') : f d = .ok d' := by
  simp only [diskMutation] at h
  split at h
  · cases h
    assumption
  · cases h

/-- A failed step leaves the disk as it was. -/
theorem diskMutation_error {fault : Fault} {d' : Disk}
    (h : (diskMutation f : EStateM Fault Disk Unit) d = .error fault d') : d' = d := by
  simp only [diskMutation] at h
  split at h
  · cases h
  · cases h
    rfl

/-- The failure of a tool that cannot open a file. -/
def openFailure : Fault := .expectedToolFailure "File could not be opened safely."

/-- Capture the regular file that a write left. -/
def captureCurrentRegular (parent : DirectoryPin) (name : String) (d : Disk) :
    Except Fault (Option NodeSnapshot) :=
  match parent.verifyReachable d [] with
  | .error fault => .error fault
  | .ok () =>
      match lstatChild d parent name with
      | none => .ok none
      | some info =>
          match openRegularFile info with
          | .error _ => .error openFailure
          | .ok (content, mode, _) => .ok (some ⟨.file, some content, some mode⟩)

/-- The disk step of a write. -/
def replaceChild (parent : DirectoryPin) (name : String) (expected : Option FileIdentity)
    (content : Bytes) (mode : Option Nat) (d : Disk) : Except Fault Disk := do
  parent.verifyReachable d []
  assertChildIdentity d parent name expected false
  d.atomicReplaceChild parent name content mode

/-- Write a file over what was read before. -/
def replaceMutation (parent : DirectoryPin) (relative : RelativePath)
    (before : Option (NodeSnapshot × FileIdentity)) (content : Bytes) (mode : Option Nat) :
    BoundFileMutation where
  relativePath := relative
  before := before.map Prod.fst
  mutate := diskMutation
    (replaceChild parent relative.name (before.map Prod.snd) content mode)
  captureAfter := captureCurrentRegular parent relative.name

/-- Capture what a deletion left under the name. -/
def captureDeleted (parent : DirectoryPin) (name : String) (d : Disk) :
    Except Fault (Option NodeSnapshot) :=
  match lstatChild d parent name with
  | none => .ok none
  | some info =>
      match info.node with
      | .symlink _ => .ok (some ⟨.symlink, some [], none⟩)
      | .directory mode => .ok (some ⟨.directory, none, some mode⟩)
      | _ =>
          match openRegularFile info with
          | .error fault => .error fault
          | .ok (content, mode, _) => .ok (some ⟨.file, some content, some mode⟩)

/-- The disk step of a deletion. -/
def deleteChild (parent : DirectoryPin) (name : String) (identity : FileIdentity)
    (nodeType : FileNodeType) (d : Disk) : Except Fault Disk := do
  parent.verifyReachable d []
  assertChildIdentity d parent name (some identity) (decide (nodeType = .symlink))
  d.removeChild parent name (decide (nodeType = .directory))

/-- Delete a node that was inventoried before. -/
def deleteMutation (parent : DirectoryPin) (relative : RelativePath) (identity : FileIdentity)
    (snapshot : NodeSnapshot) : BoundFileMutation where
  relativePath := relative
  before := some snapshot
  mutate := diskMutation (deleteChild parent relative.name identity snapshot.nodeType)
  captureAfter := captureDeleted parent relative.name

/-- A write that is carried out replaces the child. -/
theorem replaceMutation_ok {d' : Disk}
    (h : (replaceMutation parent relative before content mode).mutate d = .ok () d') :
    d.atomicReplaceChild parent relative.name content mode = .ok d' := by
  have h' := diskMutation_ok h
  simp only [replaceChild, Bind.bind, Except.bind] at h'
  split at h'
  · cases h'
  · split at h'
    · cases h'
    · exact h'

/-- A deletion that is carried out removes the child. -/
theorem deleteMutation_ok {d' : Disk}
    (h : (deleteMutation parent relative identity snapshot).mutate d = .ok () d') :
    d.removeChild parent relative.name (decide (snapshot.nodeType = .directory)) = .ok d' := by
  have h' := diskMutation_ok h
  simp only [deleteChild, Bind.bind, Except.bind] at h'
  split at h'
  · cases h'
  · split at h'
    · cases h'
    · exact h'

/-- Replacing a file changes its own path only. -/
theorem atomicReplaceChild_lstat {d' : Disk} {name : String}
    (h : d.atomicReplaceChild parent name content mode = .ok d') :
    d'.linkMode = d.linkMode ∧ ∀ q, d'.lstat q = if q = name :: parent.path then
      some ⟨.file content (mode.getD (d.creationMode 0o600)) 1, parent.identity.device,
        d.nextInode⟩ else d.lstat q := by
  have hparent : d.IsDirectory parent.path := by
    by_contra hp
    have hp' : ¬d.tree.IsBranch parent.path := hp
    simp [Disk.atomicReplaceChild, Disk.create, Disk.write, hp', Except.map] at h
  have hv : ¬d.IsDirectory (name :: parent.path) := by
    intro hv
    have hp' : d.tree.IsBranch parent.path := hparent
    have hv' : d.tree.IsBranch (name :: parent.path) := hv
    simp [Disk.atomicReplaceChild, Disk.create, Disk.write, hp', hv', Except.map,
      Entry.isDirectory, Node.fileType] at h
  obtain ⟨d'', hw, hlink, hget⟩ := d.create_ok name parent.identity.device
    (.file content (mode.getD (d.creationMode 0o600)) 1) hparent (Or.inr hv)
  have he : d'' = d' := Except.ok.inj (hw.symm.trans h)
  exact ⟨he ▸ hlink, he ▸ hget⟩

/-- Removing a child changes its own path only. -/
theorem removeChild_lstat {d' : Disk} {name : String}
    {directory : Bool} (h : d.removeChild parent name directory = .ok d') :
    d'.linkMode = d.linkMode ∧
      ∀ q, d'.lstat q = if q = name :: parent.path then none else d.lstat q := by
  simp only [Disk.removeChild] at h
  split at h
  · cases h
  · split at h
    · cases h
    · split at h
      · cases h
      · next hchild =>
        cases h
        exact ⟨rfl, d.tree.get?_remove name parent.path hchild⟩

/-- Writing a file is an ordinary mutation of its path. -/
theorem replaceMutation_ordinary (hpath : parent.path = relative.parent)
    (hbefore : before.map Prod.fst = d.snapshot relative.parts)
    (hcap : ∀ e, d.lstat relative.parts = some e → e.Capturable)
    (hsize : content.length ≤ maxChangesetBytes) :
    OrdinaryMutation d (replaceMutation parent relative before content mode) := by
  have hparts : relative.name :: parent.path = relative.parts := by rw [hpath]; rfl
  refine ⟨hbefore, hcap, fun d' h q hq => ?_,
    fun d' h => (atomicReplaceChild_lstat (replaceMutation_ok h)).1,
    fun d' u h hu => ?_⟩
  · rw [(atomicReplaceChild_lstat (replaceMutation_ok h)).2, if_neg (hparts ▸ hq)]
  · have hget := (atomicReplaceChild_lstat (replaceMutation_ok h)).2 relative.parts
    rw [if_pos hparts.symm] at hget
    refine ⟨?_, fun e he => ?_⟩
    · simp only [replaceMutation, captureCurrentRegular, lstatChild, hparts, hget] at hu
      split at hu
      · cases hu
      · simp only [openRegularFile, ne_eq, not_true_eq_false, if_false, Except.ok.injEq] at hu
        rw [← hu]
        simp [Disk.snapshot, replaceMutation, hget, Entry.snapshot?]
    · have he' : d'.lstat relative.parts = some e := he
      rw [hget] at he'
      cases he'
      exact ⟨rfl, hsize⟩

/-- Deleting a node is an ordinary mutation of its path. -/
theorem deleteMutation_ordinary (hpath : parent.path = relative.parent)
    (hbefore : some snapshot = d.snapshot relative.parts)
    (hcap : ∀ e, d.lstat relative.parts = some e → e.Capturable) :
    OrdinaryMutation d (deleteMutation parent relative identity snapshot) := by
  have hparts : relative.name :: parent.path = relative.parts := by rw [hpath]; rfl
  refine ⟨hbefore, hcap, fun d' h q hq => ?_,
    fun d' h => (removeChild_lstat (deleteMutation_ok h)).1,
    fun d' u h hu => ?_⟩
  · rw [(removeChild_lstat (deleteMutation_ok h)).2, if_neg (hparts ▸ hq)]
  · have hget := (removeChild_lstat (deleteMutation_ok h)).2 relative.parts
    rw [if_pos hparts.symm] at hget
    refine ⟨?_, fun e he => ?_⟩
    · simp only [deleteMutation, captureDeleted, lstatChild, hparts, hget,
        Except.ok.injEq] at hu
      rw [← hu]
      simp [Disk.snapshot, deleteMutation, hget]
    · have he' : d'.lstat relative.parts = some e := he
      rw [hget] at he'
      cases he'

/-- A node can be captured when the node that is known to be there can. -/
theorem capturable_of_lstat {p : NodePath} {e : Entry}
    (h : d.lstat p = some e) (hc : e.Capturable) :
    ∀ e', d.lstat p = some e' → e'.Capturable := by
  intro e' he'
  rw [h] at he'
  cases he'
  exact hc

/-- The nodes of a workspace with a directory `d` that holds one file `x`. -/
def sampleNodes : Dict NodePath Entry :=
  ((Dict.empty.set [] ⟨.directory 0o755, 1, 1⟩).set ["d"] ⟨.directory 0o755, 1, 2⟩).set
    ["x", "d"] ⟨.file [1] 0o644 1, 1, 3⟩

/-- A workspace with a directory `d` that holds one file `x`. -/
def sampleDisk : Disk where
  tree :=
    { nodes := sampleNodes
      root := ⟨⟨.directory 0o755, 1, 1⟩, by decide, by decide⟩
      rooted := by
        intro n p v h
        simp only [sampleNodes, Dict.get?_set, Dict.get?_empty] at h ⊢
        split at h
        · next he =>
          cases he
          exact ⟨⟨.directory 0o755, 1, 2⟩, by simp, rfl⟩
        · split at h
          · next he =>
            cases he
            exact ⟨⟨.directory 0o755, 1, 1⟩, by simp, rfl⟩
          · simp at h }
  inodes := fun n => n + 10
  made := 0
  linkMode := 0o777
  creationMode := id

/-- The workspace of the sample disk. -/
def sampleWorkspace : WorkspaceIdentity := ⟨"workspace", ⟨1, 1, .directory, false⟩⟩

/-- A service that starts on the sample disk. -/
def sampleState : ChangeState where
  tree := ⟨sampleDisk, Dict.empty, [], [], 0⟩
  store := ⟨Table.empty, Table.empty⟩
  blobs := Dict.empty
  clock := 0
  supply := 0

/-- The root of the sample disk as a tool pins it. -/
def samplePin : DirectoryPin := .root 0 ⟨1, 1, .directory, false⟩

/-- Deletion of the file of the sample disk. -/
def deleteFile : BoundFileMutation :=
  deleteMutation (.child 1 ⟨1, 2, .directory, false⟩ samplePin "d") ⟨"x", ["d"]⟩
    ⟨1, 3, .regular, false⟩ ⟨.file, some [1], some 0o644⟩

/-- The sample path is short. -/
theorem samplePath_length : (⟨"x", ["d"]⟩ : RelativePath).asPosix.length ≤ maxChangePath := by
  decide

/-- Deletion of the directory of the sample disk. -/
def deleteDirectory : BoundFileMutation :=
  deleteMutation samplePin ⟨"d", []⟩ ⟨1, 2, .directory, false⟩
    ⟨.directory, none, some 0o755⟩

/-- A file in the place of the deleted directory. -/
def writeOver : BoundFileMutation := replaceMutation samplePin ⟨"d", []⟩ none [2] none

/-- A new ChangeSet on the sample disk. -/
def openedSample := ChangeJournal.begin sampleWorkspace "changes" ⟨sampleState, []⟩

end AwesomeAgent
