import AwesomeAgent.Changes.TreeTransaction
import AwesomeAgent.Library.CrashLogic
import AwesomeAgent.Library.Table

/-!
# Stores of the change subsystem

The content-addressed blob store, the tables of ChangeSets and pending rows, and
the state a change service works on. Identifiers and times come from supplies.
-/

namespace AwesomeAgent

/-- A workspace with the identity of its root directory. -/
structure WorkspaceIdentity where
  key : String
  rootIdentity : FileIdentity
  deriving DecidableEq, Repr

/-- The tables of ChangeSets and pending mutations. -/
structure ChangeSetStore where
  changeSets : Table String ChangeSet ChangeSet.id
  pendings : Table PendingId PendingMutation PendingMutation.id

/-- Files of the blob directory by digest. -/
abbrev BlobStore := Dict String Bytes

/-- The state of one change service. Times and identifiers are supplied in order. -/
structure ChangeState where
  tree : TreeState
  store : ChangeSetStore
  blobs : BlobStore
  clock : Nat
  supply : Nat

/-- A procedure of a change service. -/
abbrev ChangeProc (α : Type) := Proc Fault ChangeState α

namespace ChangeSetStore

/-- The stored ChangeSet of an identifier. -/
def get (s : ChangeSetStore) (changeSetId : String) : Option ChangeSet :=
  s.changeSets.get? changeSetId

/-- Insert or overwrite a ChangeSet. -/
def save (s : ChangeSetStore) (changeSet : ChangeSet) : ChangeSetStore :=
  { s with changeSets := s.changeSets.put changeSet }

/-- Insert or overwrite a pending row. -/
def savePending (s : ChangeSetStore) (pending : PendingMutation) : ChangeSetStore :=
  { s with pendings := s.pendings.put pending }

/-- Delete a pending row. -/
def deletePending (s : ChangeSetStore) (pendingId : PendingId) : ChangeSetStore :=
  { s with pendings := s.pendings.remove pendingId }

/-- Order of the pending query: creation time, then identifier. -/
def pendingOrder (a b : PendingMutation) : Prop :=
  a.createdAt < b.createdAt ∨ a.createdAt = b.createdAt ∧ a.id.le b.id = true

instance : DecidableRel pendingOrder :=
  fun a b => inferInstanceAs (Decidable (a.createdAt < b.createdAt ∨ _ ∧ _))

/-- Pending rows with the workspace of their ChangeSet, in creation order. -/
def listPending (s : ChangeSetStore) : List PendingMutation :=
  (s.pendings.rows.filterMap fun pending =>
    (s.get pending.changeSetId).map fun changeSet =>
      { pending with workspaceKey := changeSet.workspaceKey }).insertionSort pendingOrder

/-- A saved change set is stored. -/
@[simp] theorem get_save (s : ChangeSetStore) (c : ChangeSet) : (s.save c).get c.id = some c :=
  s.changeSets.get?_put_self c

/-- What is stored after a change set was saved. -/
theorem get_save_eq (s : ChangeSetStore) (c : ChangeSet) (changeSetId : String) :
    (s.save c).get changeSetId = if changeSetId = c.id then some c else s.get changeSetId :=
  s.changeSets.get?_put c changeSetId

/-- A ChangeSet is stored under its own identifier. -/
theorem id_of_get {s : ChangeSetStore} {c : ChangeSet} {changeSetId : String}
    (h : s.get changeSetId = some c) : c.id = changeSetId :=
  (s.changeSets.get?_eq_some_iff.mp h).2

/-- A row is listed with the workspace of its ChangeSet. -/
theorem mem_listPending {s : ChangeSetStore} {p : PendingMutation} :
    p ∈ s.listPending ↔ ∃ row ∈ s.pendings.rows, ∃ c, s.get row.changeSetId = some c ∧
      p = { row with workspaceKey := c.workspaceKey } := by
  rw [listPending, List.mem_insertionSort, List.mem_filterMap]
  refine exists_congr fun row => and_congr_right fun _ => ?_
  rw [Option.map_eq_some_iff]
  exact exists_congr fun c => and_congr_right fun _ => eq_comm

/-- No identifier is listed twice. -/
theorem nodup_listPending (s : ChangeSetStore) : (s.listPending.map (·.id)).Nodup := by
  rw [listPending, ((List.perm_insertionSort _ _).map _).nodup_iff, List.Nodup, List.pairwise_map]
  refine (List.pairwise_map.mp s.pendings.nodup).filterMap _ fun a a' hne b hb b' hb' => ?_
  obtain ⟨c, _, rfl⟩ := Option.map_eq_some_iff.mp hb
  obtain ⟨c', _, rfl⟩ := Option.map_eq_some_iff.mp hb'
  exact hne

end ChangeSetStore

section Blobs

variable [ContentHash]

/-- Read a blob and verify it. -/
def BlobStore.read (blobs : BlobStore) (digest : String) : Except Fault Bytes :=
  match blobs.get? digest with
  | none => .error (.changeBlobCorrupt ("Change blob " ++ digest ++ " is unavailable."))
  | some content =>
      if ContentHash.sha256 content ≠ digest then
        .error (.changeBlobCorrupt ("Change blob " ++ digest ++ " failed integrity validation."))
      else .ok content

/-- Store content under its digest; an existing blob is verified instead. -/
def putBlob (content : Bytes) : EStateM Fault ChangeState String := fun s =>
  let digest := ContentHash.sha256 content
  match s.blobs.get? digest with
  | some _ =>
      match BlobStore.read s.blobs digest with
      | .ok _ => .ok digest s
      | .error fault => .error fault s
  | none => .ok digest { s with blobs := s.blobs.set digest content }

/-- Store the content of a node, if it has one. -/
def putContent (snapshot : Option NodeSnapshot) : ChangeProc (Option String) :=
  match snapshot.bind (·.content) with
  | none => return none
  | some content => do
      let digest ← Proc.durable (putBlob content)
      return some digest

end Blobs

namespace ChangeState

/-- The workspace tree of a service state. -/
def disk (s : ChangeState) : Disk := s.tree.disk

end ChangeState

/-- A step of the running tree transaction. -/
def onTree {α : Type} (x : TreeM α) : EStateM Fault ChangeState α := fun s =>
  match x s.tree with
  | .ok a t => .ok a { s with tree := t }
  | .error fault t => .error fault { s with tree := t }

/-- A step that only reads the service state. -/
def reading {α : Type} (f : ChangeState → Except Fault α) : ChangeProc α :=
  Proc.volatile fun s =>
    match f s with
    | .ok a => .ok a s
    | .error fault => .error fault s

/-- Raise the fault of a failed computation. -/
def liftExcept {α : Type} (r : Except Fault α) : ChangeProc α :=
  reading fun _ => r

/-- A statement of the ChangeSet database. -/
def onStore (f : ChangeSetStore → ChangeSetStore) : ChangeProc Unit :=
  Proc.durable (modify fun s => { s with store := f s.store })

/-- The current time. -/
def now : ChangeProc Nat := reading fun s => .ok s.clock

/-- The next unused identifier number. -/
def newIdentifier : ChangeProc Nat :=
  Proc.volatile (modifyGet fun s => (s.supply, { s with supply := s.supply + 1 }))

end AwesomeAgent
