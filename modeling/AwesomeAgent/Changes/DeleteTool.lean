import AwesomeAgent.Changes.ToolMutations
import AwesomeAgent.Library.FaultySteps

/-!
# The delete tool

A deletion lists the nodes of its tree, children before their directory, and reads the
content of each. The whole batch is checked against the capacity of the ChangeSet before the
first node is removed; then every node is removed by a mutation of its own.
-/

namespace AwesomeAgent

/-- A listed node of a deletion with its bound mutation. -/
structure SecureDeleteNode where
  relative : RelativePath
  nodeType : FileNodeType
  contentBytes : Nat
  mutation : BoundFileMutation

/-- The names in a directory, in no order. -/
def Disk.listdir (d : Disk) (p : NodePath) : List String :=
  d.tree.nodes.keys.filterMap fun
    | name :: parent => if parent = p then some name else none
    | [] => none

/-- Order of the names of a listing: without case first, then as they are. -/
def listingOrder (casefold : String → String) (a b : String) : Prop :=
  casefold a < casefold b ∨ casefold a = casefold b ∧ a ≤ b

instance (casefold : String → String) : DecidableRel (listingOrder casefold) :=
  fun a b => inferInstanceAs (Decidable (casefold a < casefold b ∨ _ ∧ _))

/-- What a running inventory has listed and reserved, with its next descriptor. -/
structure Inventory where
  nodes : List SecureDeleteNode
  inventoryNodes : Nat
  inventoryBytes : Nat
  opened : Nat

/-- A deletion that is bound to the pinned parent of its target. -/
structure WorkspaceDeleteTransaction where
  parent : DirectoryPin
  relative : RelativePath
  targetIdentity : FileIdentity
  maxInventoryNodes : Nat
  maxInventoryBytes : Nat

namespace WorkspaceDeleteTransaction

/-- Reserve room for one more node. -/
def reserveInventory (t : WorkspaceDeleteTransaction) (contentBytes : Nat) (v : Inventory) :
    Except Fault Inventory :=
  if v.inventoryNodes + 1 > t.maxInventoryNodes then
    .error (.expectedToolFailure "ChangeSet file limit exceeded.")
  else if v.inventoryBytes + contentBytes > t.maxInventoryBytes then
    .error (.expectedToolFailure "ChangeSet byte limit exceeded.")
  else .ok { v with
    inventoryNodes := v.inventoryNodes + 1
    inventoryBytes := v.inventoryBytes + contentBytes }

/-- The listed node of a captured snapshot. -/
def deleteNode (parent : DirectoryPin) (relative : RelativePath) (identity : FileIdentity)
    (snapshot : NodeSnapshot) : SecureDeleteNode where
  relative := relative
  nodeType := snapshot.nodeType
  contentBytes := (snapshot.content.getD []).length
  mutation := deleteMutation parent relative identity snapshot

/-- The node a walk step found, or the fault that stops it. -/
def inspectChild (t : WorkspaceDeleteTransaction) (d : Disk)
    (validateRelative : RelativePath → Except Fault Unit) (parent : DirectoryPin)
    (relative : RelativePath) (root : Bool) : Except Fault Entry := do
  validateRelative relative
  parent.verifyReachable d []
  match lstatChild d parent relative.name with
  | none =>
      if root then
        .error (.mutationTargetChanged "The deletion target disappeared after path validation.")
      else .error (.expectedToolFailure "Path was not found.")
  | some info =>
      if root ∧ info.identity ≠ t.targetIdentity then
        .error (.mutationTargetChanged
          "The deletion target generation changed after path validation.")
      else if info.isLinkOrReparse ∧ root = false then
        .error (.expectedToolFailure "Links and reparse points cannot be deleted recursively.")
      else .ok info

/-- Add the node of a file or of a link to the inventory. -/
def inventoryLeaf (t : WorkspaceDeleteTransaction) (d : Disk) (parent : DirectoryPin)
    (relative : RelativePath) (info : Entry) (v : Inventory) : Except Fault Inventory :=
  match info.node with
  | .symlink target => do
      let v ← t.reserveInventory target.length v
      return { v with nodes := v.nodes ++
        [deleteNode parent relative info.identity ⟨.symlink, some target, some d.linkMode⟩] }
  | .file content _ _ => do
      let v ← t.reserveInventory content.length v
      parent.verifyReachable d []
      let (data, mode, _) ← openRegularFile info
      return { v with nodes := v.nodes ++
        [deleteNode parent relative info.identity ⟨.file, some data, some mode⟩] }
  | _ => .error (.expectedToolFailure "Unsupported filesystem node.")

/-- List a node and everything below it. A walk never goes deeper than its node budget. -/
def inventoryChild (t : WorkspaceDeleteTransaction) (d : Disk)
    (validateRelative : RelativePath → Except Fault Unit) (casefold : String → String) :
    Nat → DirectoryPin → RelativePath → Bool → Inventory → Except Fault Inventory
  | depth, parent, relative, root, v => do
      let info ← t.inspectChild d validateRelative parent relative root
      match info.node with
      | .directory mode =>
          let v ← t.reserveInventory 0 v
          let identity ← directoryIdentity (some info) (some info.identity)
          let directory := DirectoryPin.child v.opened identity parent relative.name
          let names := (d.listdir relative.parts).insertionSort (listingOrder casefold)
          let v ← match depth with
            | 0 => .error (.osError "RecursionError")
            | depth + 1 => names.foldlM (fun v name => t.inventoryChild d validateRelative casefold
                depth directory ⟨name, relative.parts⟩ false v) { v with opened := v.opened + 1 }
          return { v with nodes := v.nodes ++
            [deleteNode parent relative info.identity ⟨.directory, none, some mode⟩] }
      | _ => t.inventoryLeaf d parent relative info v

/-- How the faults of an inventory reach the tool. -/
def inventoryFault : Fault → Fault
  | .unsafeWorkspacePath _ =>
      .expectedToolFailure "Workspace path could not be inventoried safely."
  | fault => fault

/-- List the tree below the target. -/
def inventory (t : WorkspaceDeleteTransaction) (d : Disk)
    (validateRelative : RelativePath → Except Fault Unit) (casefold : String → String) :
    Except Fault (List SecureDeleteNode) :=
  match t.inventoryChild d validateRelative casefold t.maxInventoryNodes t.parent t.relative true
      ⟨[], 0, 0, t.parent.descriptor + 1⟩ with
  | .ok v => .ok v.nodes
  | .error fault => .error (inventoryFault fault)

section Listed

variable {t : WorkspaceDeleteTransaction} {d : Disk}
  {validateRelative : RelativePath → Except Fault Unit} {casefold : String → String}

/-- A node that a deletion lists holds the content it was read with. -/
def Listed (node : SecureDeleteNode) : Prop :=
  ∃ parent relative identity, ∃ snapshot : NodeSnapshot, snapshot.Formed ∧
    node = deleteNode parent relative identity snapshot

variable {contentBytes : Nat} {v : Inventory} {f : Inventory → String → Except Fault Inventory}
  {parent : DirectoryPin} {relative : RelativePath}

private theorem nodes_reserveInventory {v' : Inventory}
    (h : t.reserveInventory contentBytes v = .ok v') : v'.nodes = v.nodes := by
  unfold reserveInventory at h
  split_ifs at h
  cases h
  rfl

/-- What a walk adds are listed nodes. -/
def Inventory.Grows (v v' : Inventory) : Prop :=
  ∀ node ∈ v'.nodes, node ∈ v.nodes ∨ Listed node

private theorem foldlM_grows
    (hf : ∀ v name v', f v name = .ok v' → Inventory.Grows v v') (names : List String) :
    ∀ v v', names.foldlM f v = .ok v' → Inventory.Grows v v' := by
  induction names with
  | nil =>
    intro v v' h
    cases h
    exact fun _ hn => Or.inl hn
  | cons name names ih =>
    intro v v' h
    rw [List.foldlM_cons] at h
    obtain ⟨u, hstep, h⟩ := except_bind_ok h
    exact fun node hn => (ih u v' h node hn).elim (hf v name u hstep node) Or.inr

private theorem grows_append {u : Inventory} {node : SecureDeleteNode}
    (hgrows : Inventory.Grows v u) (hn : Listed node) :
    Inventory.Grows v { u with nodes := u.nodes ++ [node] } := by
  intro n hmem
  rw [List.mem_append, List.mem_singleton] at hmem
  rcases hmem with hmem | rfl
  · exact hgrows n hmem
  · exact Or.inr hn

private theorem grows_reserve {u : Inventory} (hr : t.reserveInventory contentBytes v = .ok u) :
    Inventory.Grows v u := fun _ hn => Or.inl (nodes_reserveInventory hr ▸ hn)

private theorem inventoryLeaf_grows {info : Entry}
    {v' : Inventory} (h : t.inventoryLeaf d parent relative info v = .ok v') :
    Inventory.Grows v v' := by
  unfold inventoryLeaf at h
  split at h
  · obtain ⟨u, hr, h⟩ := except_bind_ok h
    cases h
    exact grows_append (grows_reserve hr) ⟨_, _, _, _, by simp [NodeSnapshot.Formed], rfl⟩
  · obtain ⟨u, hr, h⟩ := except_bind_ok h
    obtain ⟨-, -, h⟩ := except_bind_ok h
    obtain ⟨opened, -, h⟩ := except_bind_ok h
    cases h
    exact grows_append (grows_reserve hr) ⟨_, _, _, _, by simp [NodeSnapshot.Formed], rfl⟩
  · cases h

private theorem inventoryChild_grows (depth : Nat) : ∀ (parent : DirectoryPin)
    (relative : RelativePath) (root : Bool) (v v' : Inventory),
    t.inventoryChild d validateRelative casefold depth parent relative root v = .ok v' →
      Inventory.Grows v v' := by
  induction depth with
  | zero =>
    intro parent relative root v v' h
    unfold inventoryChild at h
    obtain ⟨info, -, h⟩ := except_bind_ok h
    split at h
    · obtain ⟨u, hr, h⟩ := except_bind_ok h
      obtain ⟨identity, -, h⟩ := except_bind_ok h
      obtain ⟨u', hrest, h⟩ := except_bind_ok h
      cases hrest
    · exact inventoryLeaf_grows h
  | succ depth ih =>
    intro parent relative root v v' h
    unfold inventoryChild at h
    obtain ⟨info, -, h⟩ := except_bind_ok h
    split at h
    · obtain ⟨u, hr, h⟩ := except_bind_ok h
      obtain ⟨identity, -, h⟩ := except_bind_ok h
      obtain ⟨u', hrest, h⟩ := except_bind_ok h
      cases h
      have hbelow := foldlM_grows (fun v name v' hstep => ih _ _ _ _ _ hstep) _ _ _ hrest
      refine grows_append (fun n hmem => ?_) ⟨_, _, _, _, by simp [NodeSnapshot.Formed], rfl⟩
      exact (hbelow n hmem).imp_left fun hn => nodes_reserveInventory hr ▸ hn
    · exact inventoryLeaf_grows h

/-- Every node of an inventory was captured with its content. -/
theorem inventory_listed {nodes : List SecureDeleteNode}
    (h : t.inventory d validateRelative casefold = .ok nodes) : ∀ node ∈ nodes, Listed node := by
  unfold inventory at h
  split at h
  · next v hv =>
    cases h
    intro node hnode
    exact (inventoryChild_grows _ _ _ _ _ _ hv node hnode).resolve_left List.not_mem_nil
  · cases h

end Listed

end WorkspaceDeleteTransaction

/-- A target that changed is reported as a conflict of the tool. -/
def deleteConflict : Fault → Fault
  | .mutationTargetChanged _ =>
      .expectedToolFailure "Workspace path changed before deletion could complete."
  | fault => fault

/-- A batch that does not fit is reported as a failure of the tool. -/
def capacityFailure : Fault → Fault
  | .changeCapacityExceeded message => .expectedToolFailure message
  | fault => fault

section Tool

variable [ContentHash]

/-- Remove the listed nodes one after the other. -/
def deleteNodes (w : WorkspaceIdentity) (changeSetId : String) (identifier : Nat → String) :
    Nat → List SecureDeleteNode → ChangeProc Unit
  | _, [] => return ()
  | index, node :: rest => do
      let _ ← ChangeJournal.applyFileMutation w changeSetId .deleted none node.mutation
        (identifier index)
      deleteNodes w changeSetId identifier (index + 1) rest

/-- Delete a file, a link or a whole directory; the number of removed nodes. -/
def deleteHandler (w : WorkspaceIdentity) (changeSetId : String) (t : WorkspaceDeleteTransaction)
    (denyProtected : RelativePath → Except Fault Unit) (casefold : String → String)
    (identifier : Nat → String) : ChangeProc Nat :=
  Proc.mapFault deleteConflict (do
    let nodes ← reading fun s => WorkspaceDeleteTransaction.inventory
      { t with maxInventoryNodes := maxChangesetFiles, maxInventoryBytes := maxChangesetBytes }
      s.disk denyProtected casefold
    Proc.mapFault capacityFailure (ChangeJournal.preflightBatch w changeSetId nodes.length
      (nodes.map (·.contentBytes)).sum)
    deleteNodes w changeSetId identifier 0 nodes
    return nodes.length)

end Tool

end AwesomeAgent
