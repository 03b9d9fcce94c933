import AwesomeAgent.Changes.Capacity
import AwesomeAgent.Library.Runs

/-!
# Batches that were accepted

A batch that was accepted has room for every one of its mutations, so a deletion is not
stopped half way for capacity. In every run of the journal the stored ChangeSets stay within
their limits.
-/

namespace AwesomeAgent

open ChangeJournal

section Contents

variable [ContentHash]

/-- The ChangeSet has room for so many records and bytes. -/
def HasRoom (changeSetId : String) (nodes bytes : Nat) (s : ChangeState) : Prop :=
  ∃ c, s.store.get changeSetId = some c ∧ c.Fits nodes bytes

/-- A target whose own steps raise no fault about capacity. -/
structure BoundFileMutation.Spares (target : BoundFileMutation) : Prop where
  mutate : ∀ d fault d', target.mutate d = .error fault d' → fault.Spares
  captureAfter : ∀ d fault, target.captureAfter d = .error fault → fault.Spares

section Batch

variable {w : WorkspaceIdentity} {changeSetId : String}

/-- A procedure that raises no fault about capacity. -/
def Sparing {α : Type} (p : ChangeProc α) : Prop :=
  Triple (fun _ => True) p (fun _ _ => True) (fun fault _ => fault.Spares) fun _ => True

omit [ContentHash] in
private theorem Sparing.bind {α β : Type} {p : ChangeProc α} {f : α → ChangeProc β} (hp : Sparing p)
    (hf : ∀ a, Sparing (f a)) : Sparing (p >>= f) :=
  Triple.bind hp hf

omit [ContentHash] in
private theorem Sparing.onStore (f : ChangeSetStore → ChangeSetStore) : Sparing
    (AwesomeAgent.onStore f) :=
  Triple.onStore (fun _ _ => trivial) fun _ _ => trivial

private theorem putContent_sparing (u : Option NodeSnapshot) : Sparing (putContent u) := by
  unfold putContent
  split
  · exact Triple.pure fun _ _ => trivial
  · refine Sparing.bind (Triple.durable (fun s _ => ?_) (fun _ _ _ => trivial)
      fun _ _ _ => trivial) fun _ => Triple.pure fun _ _ => trivial
    simp only [putBlob]
    split
    · split
      · trivial
      · next hread => exact read_spares hread
    · trivial

private theorem fileChange_sparing (pending : PendingMutation) (identifier : String)
    (actualAfter : Option NodeSnapshot) : Sparing (fileChange pending identifier actualAfter) := by
  refine Sparing.bind (putContent_sparing actualAfter) fun _ => ?_
  split
  · exact Triple.pure fun _ _ => trivial
  · exact Triple.throw fun _ _ => Fault.spares_of rfl

omit [ContentHash] in
private theorem openChangeSet_stored {P C : ChangeState → Prop} :
    Triple P (openChangeSet w changeSetId)
      (fun c s => P s ∧ s.store.get changeSetId = some c) (fun fault s => P s ∧ fault.Spares)
      C := by
  refine Triple.bind (R := fun c s => P s ∧ s.store.get changeSetId = some c)
    (Triple.reading ?_ ?_) fun c => ?_
  · intro s c hs hc
    split at hc
    · cases hc
    · next hget =>
      split_ifs at hc
      cases hc
      exact ⟨hs, hget⟩
  · intro s fault hs hf
    split at hf
    · cases hf
      exact ⟨hs, Fault.spares_of rfl⟩
    · split_ifs at hf
      cases hf
      exact ⟨hs, Fault.spares_of rfl⟩
  · split
    · exact Triple.bind (R := fun _ _ => False)
        (Triple.throw fun _ hs => ⟨hs.1, Fault.spares_of rfl⟩) fun _ _ h => h.elim
    · exact Triple.pure fun _ h => h

private theorem HasRoom.fits {nodes bytes : Nat} {s : ChangeState} {c : ChangeSet}
    (h : HasRoom changeSetId nodes bytes s) (hc : s.store.get changeSetId = some c) :
    c.Fits nodes bytes := by
  obtain ⟨c', hc', hfits⟩ := h
  rw [hc] at hc'
  cases hc'
  exact hfits

private theorem HasRoom.mono {nodes bytes nodes' bytes' : Nat} {s : ChangeState}
    (h : HasRoom changeSetId nodes' bytes' s) (hn : nodes ≤ nodes') (hb : bytes ≤ bytes') :
    HasRoom changeSetId nodes bytes s := by
  obtain ⟨c, hc, hfits⟩ := h
  have hfiles := hfits.files
  have hbytes := hfits.bytes
  exact ⟨c, hc, by omega, by omega⟩

variable {kind : FileChangeKind} {intendedAfter : Option NodeSnapshot} {target : BoundFileMutation}

/-- A mutation for which there is room is not refused for capacity. -/
theorem applyFileMutation_sparing {identifier : String} (htarget : target.Spares) :
    Triple (HasRoom changeSetId 1 (additionBytes target.before intendedAfter))
      (applyFileMutation w changeSetId kind intendedAfter target identifier)
      (fun _ _ => True) (fun fault _ => fault.Spares) fun _ => True := by
  refine Triple.bind (openChangeSet_stored.fault fun _ _ hf => hf.2) fun c => ?_
  refine Triple.assume (fun _ hs => hs.1.fits hs.2) fun hfits => ?_
  suffices hrest : Sparing _ from hrest.pre fun _ _ => trivial
  refine Sparing.bind (Triple.reading (fun _ _ _ _ => trivial) fun s fault _ hf => ?_) fun _ => ?_
  · split_ifs at hf
    cases hf
    exact Fault.spares_of rfl
  split
  · exact Triple.throw fun _ _ => Fault.spares_of rfl
  · refine Sparing.bind (Triple.reading (fun _ _ _ _ => trivial) fun s fault _ hf =>
      preflight_spares hfits hf) fun _ => ?_
    refine Sparing.bind (putContent_sparing _) fun _ => ?_
    refine Sparing.bind (putContent_sparing _) fun _ => ?_
    refine Sparing.bind (Triple.now fun _ _ => trivial) fun _ => Sparing.bind (Sparing.onStore _)
      fun _ => ?_
    have hrun : Triple (fun _ => True) (Proc.durable (runMutation target)) (fun _ _ => True)
        (fun fault _ => fault.Spares) fun _ => True := by
      refine Triple.durable (fun s _ => ?_) (fun _ _ _ => trivial) fun _ _ _ => trivial
      simp only [runMutation]
      split
      · trivial
      · next hm => exact htarget.mutate _ _ _ hm
    refine Triple.bind (R := fun r _ => ∀ fault : Fault, r = .error fault → fault.Spares)
      (Triple.attempt (hrun.conseq (fun _ h => h)
        (fun _ _ _ _ hf => by cases hf) (fun fault _ hf => ?_)
        fun _ h => h)) fun r => ?_
    · rintro _ ⟨⟩
      exact hf
    refine Triple.assume (fun _ hs => hs) fun hr => ?_
    suffices hrest : Sparing _ from hrest.pre fun _ _ => trivial
    split
    · exact Sparing.bind (Sparing.onStore _) fun _ => Triple.throw fun _ _ => Fault.spares_of rfl
    · exact Triple.throw fun _ _ => hr _ rfl
    · refine Sparing.bind (Triple.reading (fun _ _ _ _ => trivial) fun s fault _ hf =>
        htarget.captureAfter _ _ hf) fun after => ?_
      dsimp only
      split
      · exact Triple.bind (R := fun _ _ => False) (Triple.throw fun _ _ => Fault.spares_of rfl)
          fun _ _ h => h.elim
      · exact Sparing.bind (fileChange_sparing _ _ _) fun _ => Sparing.bind (Sparing.onStore _)
          fun _ => Sparing.bind (Sparing.onStore _) fun _ => Triple.pure fun _ _ => trivial

private theorem applyFileMutation_room {identifier : String} {nodes bytes : Nat}
    (htarget : target.Spares) :
    Triple (HasRoom changeSetId (nodes + 1) (additionBytes target.before intendedAfter + bytes))
      (applyFileMutation w changeSetId kind intendedAfter target identifier)
      (fun _ => HasRoom changeSetId nodes bytes) (fun fault _ => fault.Spares) fun _ => True := by
  have hkeeps : Triple
      (HasRoom changeSetId (nodes + 1) (additionBytes target.before intendedAfter + bytes))
      (applyFileMutation w changeSetId kind intendedAfter target identifier)
      (fun _ => HasRoom changeSetId nodes bytes) (fun _ _ => True) fun _ => True := by
    refine Triple.conseq (applyFileMutation_preserves
      (P := HasRoom changeSetId (nodes + 1) (additionBytes target.before intendedAfter + bytes))
      (I := fun t => ∃ c, t.get changeSetId = some c ∧ c.Fits nodes bytes)
      (S := fun c => c.id = changeSetId ∧
        c.Fits (nodes + 1) (additionBytes target.before intendedAfter + bytes))
      (fun _ _ ht => ht) ?_ (fun _ _ _ _ _ ht => ht) ?_)
      (fun _ hs => hs) (fun _ _ hs => hs) (fun _ _ _ => trivial) fun _ _ => trivial
    · have hless := fun s (hs : HasRoom changeSetId (nodes + 1)
          (additionBytes target.before intendedAfter + bytes) s) =>
        (hs.mono (Nat.le_add_right _ _) (Nat.le_add_left _ _) : HasRoom changeSetId nodes bytes s)
      exact openChangeSet_stored.conseq (fun _ hs => hs)
        (fun c s hs => ⟨hless s hs.1, ChangeSetStore.id_of_get hs.2, hs.1.fits hs.2⟩)
        (fun _ s hs => hless s hs.1) hless
    · rintro c t blobs after change ⟨rfl, hfits⟩ _ _ hdigest hbefore hafter
      exact ⟨_, t.get_save _, fits_append (adds_of_mutation hdigest hbefore hafter) hfits⟩
  have hspares : Triple
      (HasRoom changeSetId (nodes + 1) (additionBytes target.before intendedAfter + bytes))
      (applyFileMutation w changeSetId kind intendedAfter target identifier)
      (fun _ _ => True) (fun fault _ => fault.Spares) fun _ => True :=
    (applyFileMutation_sparing htarget).pre
      fun _ hs => hs.mono (Nat.le_add_left _ _) (Nat.le_add_right _ _)
  exact (hkeeps.conj hspares).conseq (fun _ hs => hs) (fun _ _ hs => hs.1) (fun _ _ hs => hs.2)
    fun _ hs => hs

private theorem preflightBatch_room {additionalNodes additionalBytes : Nat} :
    Triple (fun _ => True) (preflightBatch w changeSetId additionalNodes additionalBytes)
      (fun _ => HasRoom changeSetId additionalNodes additionalBytes) (fun _ _ => True)
      fun _ => True := by
  refine Triple.bind (openChangeSet_stored.fault fun _ _ _ => trivial) fun c => ?_
  refine Triple.bind (R := fun _ s => s.store.get changeSetId = some c)
    (Triple.reading (fun _ _ hs _ => hs.2) fun _ _ _ _ => trivial) fun _ => ?_
  dsimp only
  split
  · exact Triple.bind (R := fun _ _ => False) (Triple.throw fun _ _ => trivial) fun _ _ h => h.elim
  · next hfiles =>
    refine Triple.bind (R := fun n s => s.store.get changeSetId = some c ∧ n = c.snapshotBytes)
      (Triple.reading (fun _ _ hs hn => ⟨hs, storedBytes_eq hn⟩) fun _ _ _ _ => trivial)
      fun n => ?_
    split
    · exact Triple.throw fun _ _ => trivial
    · next hbytes =>
      refine Triple.pure fun s hs => ⟨c, hs.1, Nat.le_of_not_lt hfiles, ?_⟩
      rw [← hs.2]
      exact Nat.le_of_not_lt hbytes

omit [ContentHash] in
private theorem verifyReachable_spares {d : Disk} {closed : List Nat} {fault : Fault}
    (pin : DirectoryPin) (h : pin.verifyReachable d closed = .error fault) : fault.Spares := by
  have hcheck : ∀ p identity, checkPinned d p identity = .error fault → fault.Spares := by
    intro p identity h
    unfold checkPinned at h
    split at h
    · cases h
      exact Fault.spares_of rfl
    · split_ifs at h
      cases h
      exact Fault.spares_of rfl
  induction pin with
  | root descriptor identity =>
    unfold DirectoryPin.verifyReachable at h
    split_ifs at h
    · cases h
      exact Fault.spares_of rfl
    · exact hcheck _ _ h
  | child descriptor identity parent name ih =>
    unfold DirectoryPin.verifyReachable at h
    split_ifs at h
    · cases h
      exact Fault.spares_of rfl
    · split at h
      · next hparent =>
        cases h
        exact ih hparent
      · exact hcheck _ _ h

omit [ContentHash] in
/-- The steps of a deletion fail for other reasons than capacity. -/
theorem deleteNode_spares (parent : DirectoryPin) (relative : RelativePath)
    (identity : FileIdentity) (snapshot : NodeSnapshot) :
    (WorkspaceDeleteTransaction.deleteNode parent relative identity snapshot).mutation.Spares where
  mutate := by
    intro d fault d' h
    have hstep : deleteChild parent relative.name identity snapshot.nodeType d = .error fault := by
      simp only [WorkspaceDeleteTransaction.deleteNode, deleteMutation, diskMutation] at h
      split at h
      · cases h
      · cases h
        assumption
    rcases except_bind_error hstep with h | ⟨-, -, h⟩
    · exact verifyReachable_spares parent h
    · rcases except_bind_error h with h | ⟨-, -, h⟩
      · unfold assertChildIdentity at h
        split at h
        · cases h
        · cases h
          exact Fault.spares_of rfl
        · cases h
          exact Fault.spares_of rfl
        · split_ifs at h <;> cases h <;> exact Fault.spares_of rfl
      · unfold Disk.removeChild at h
        split at h
        · cases h
          exact Fault.spares_of rfl
        · split_ifs at h <;> cases h <;> exact Fault.spares_of rfl
  captureAfter := by
    intro d fault h
    simp only [WorkspaceDeleteTransaction.deleteNode, deleteMutation, captureDeleted] at h
    split at h
    · cases h
    · split at h
      · cases h
      · cases h
      · split at h
        · next hopen =>
          cases h
          unfold openRegularFile at hopen
          split at hopen
          · split_ifs at hopen
            cases hopen
            exact Fault.spares_of rfl
          · cases hopen
            exact Fault.spares_of rfl
          · cases hopen
            exact Fault.spares_of rfl
        · cases h

private theorem deleteNodes_spares (identifier : Nat → String) (nodes : List SecureDeleteNode)
    (hnodes : ∀ node ∈ nodes, WorkspaceDeleteTransaction.Listed node) : ∀ index,
    Triple (HasRoom changeSetId nodes.length (nodes.map (·.contentBytes)).sum)
      (deleteNodes w changeSetId identifier index nodes) (fun _ _ => True)
      (fun fault _ => fault.Spares) fun _ => True := by
  induction nodes with
  | nil => exact fun _ => Triple.pure fun _ _ => trivial
  | cons node rest ih =>
    intro index
    obtain ⟨parent, relative, nodeIdentity, snapshot, hformed, rfl⟩ :=
      hnodes node List.mem_cons_self
    have hbytes : (WorkspaceDeleteTransaction.deleteNode parent relative nodeIdentity
        snapshot).contentBytes = additionBytes (some snapshot) none := by
      cases hcontent : snapshot.content <;>
        simp [WorkspaceDeleteTransaction.deleteNode, additionBytes, additions, hcontent]
    refine Triple.bind ((applyFileMutation_room (deleteNode_spares _ _ _ _)).pre fun s hs => ?_)
      fun _ => ih (fun node hnode => hnodes node (List.mem_cons_of_mem _ hnode)) (index + 1)
    rw [List.length_cons, List.map_cons, List.sum_cons, hbytes] at hs
    exact hs

end Batch

/-- The calls of the journal, its tools and its operations. -/
inductive JournalCall
  | begin (identifier : String)
  | mutate (changeSetId : String) (mutation : ToolMutation) (identifier : String)
  | delete (changeSetId : String) (t : WorkspaceDeleteTransaction)
      (denyProtected : RelativePath → Except Fault Unit) (casefold : String → String)
      (identifier : Nat → String)
  | execute (changeSetId command : String) (observedPaths : List String)
  | sealChanges (changeSetId : String)
  | operate (changeSetId : String) (undo : Bool)
  | reconcile (changeSetId : Option String)

/-- A call that runs to its end or stops at a durable point, or anything else that changes
the workspace, the clock and the supply. -/
inductive JournalEvent
  | call (call : JournalCall) (outcome : JournalOutcome)
  | elsewhere (tree : TreeState) (clock supply : Nat)

/-- What a call leaves behind. -/
def JournalCall.run (w : WorkspaceIdentity) (call : JournalCall) (outcome : JournalOutcome)
    (s : ChangeState) : ChangeState :=
  match call with
  | .begin identifier => (runJournal outcome (ChangeJournal.begin w identifier) s).2
  | .mutate changeSetId m identifier => (runJournal outcome (applyFileMutation w changeSetId
      m.kind m.intendedAfter m.target identifier) s).2
  | .delete changeSetId t denyProtected casefold identifier =>
      (runJournal outcome (deleteHandler w changeSetId t denyProtected casefold identifier) s).2
  | .execute changeSetId command observedPaths =>
      (runJournal outcome (recordExecute w changeSetId command observedPaths) s).2
  | .sealChanges changeSetId => (runJournal outcome (sealChangeSet w changeSetId) s).2
  | .operate changeSetId undo =>
      (runJournal outcome (ChangeOperations.operate w changeSetId undo) s).2
  | .reconcile changeSetId => (runJournal outcome (reconcilePending w changeSetId) s).2

/-- The steps of a journal in its environment. -/
def journalStep (w : WorkspaceIdentity) (s : ChangeState) : JournalEvent → Option ChangeState
  | .call call outcome => some (call.run w outcome s)
  | .elsewhere tree clock supply => some { s with tree := tree, clock := clock, supply := supply }

/-- A service without ChangeSets and rows. -/
def ChangeState.Empty (s : ChangeState) : Prop := s.store = ⟨Table.empty, Table.empty⟩

private theorem ChangeState.Empty.bounded {s : ChangeState} (h : s.Empty) : s.store.Bounded := by
  rw [h]
  exact ⟨fun _ _ hc => (nomatch hc), fun _ hp => absurd hp List.not_mem_nil⟩

private theorem journalStep_bounded {w : WorkspaceIdentity} {s s' : ChangeState}
    {event : JournalEvent}
    (hs : s.store.Bounded) (h : journalStep w s event = some s') : s'.store.Bounded := by
  cases event with
  | elsewhere tree clock supply =>
    cases h
    exact hs
  | call call outcome =>
    cases h
    cases call with
    | begin identifier => exact runJournal_preserves (begin_bounded _) hs outcome
    | mutate changeSetId m identifier =>
      exact runJournal_preserves (applyFileMutation_bounded _ m _) hs outcome
    | delete changeSetId t denyProtected casefold identifier =>
      exact runJournal_preserves (deleteHandler_bounded _ _ _ _ _) hs outcome
    | execute changeSetId command observedPaths =>
      exact runJournal_preserves (recordExecute_bounded _ _ _) hs outcome
    | sealChanges changeSetId => exact runJournal_preserves (sealChangeSet_bounded _) hs outcome
    | operate changeSetId undo => exact runJournal_preserves (operate_bounded _ undo) hs outcome
    | reconcile changeSetId =>
      exact runJournal_preserves (reconcilePending_bounded _) hs outcome

/-- The mutations of a listed and accepted deletion are never refused for capacity, and in
every run every stored ChangeSet is within the limits for records and bytes. -/
theorem delete_batch_capacity (w : WorkspaceIdentity) :
    (∀ (t : WorkspaceDeleteTransaction) (d : Disk)
        (denyProtected : RelativePath → Except Fault Unit) (casefold : String → String)
        (nodes : List SecureDeleteNode) (changeSetId : String) (identifier : Nat → String)
        (s s' s'' : Traced ChangeState) (fault : Fault),
      t.inventory d denyProtected casefold = .ok nodes →
      preflightBatch w changeSetId nodes.length (nodes.map (·.contentBytes)).sum s = .ok () s' →
      deleteNodes w changeSetId identifier 0 nodes s' = .error fault s'' →
      ∀ message, fault ≠ .changeCapacityExceeded message) ∧
    ∀ s s' : ChangeState, s.Empty → Run (journalStep w) (fun _ _ => True) s s' →
      ∀ i c, s'.store.get i = some c → c.files.length ≤ maxChangesetFiles ∧
        c.snapshotBytes ≤ maxChangesetBytes ∧
        ∀ n, storedBytes s'.blobs c = .ok n → n ≤ maxChangesetBytes := by
  refine ⟨?_, fun s s' hempty hrun i c hc => ?_⟩
  · intro t d denyProtected casefold nodes changeSetId identifier s s' s'' fault hnodes hbatch hloop
    have hroom : HasRoom changeSetId nodes.length (nodes.map (·.contentBytes)).sum s'.now := by
      have hspec : Triple (fun _ => True) (preflightBatch w changeSetId nodes.length
          (nodes.map (·.contentBytes)).sum) (fun _ => HasRoom changeSetId nodes.length
          (nodes.map (·.contentBytes)).sum) (fun _ _ => True) fun _ => True :=
        preflightBatch_room
      have h := hspec s trivial
      rw [hbatch] at h
      exact h.1
    have h := deleteNodes_spares (w := w) identifier nodes
      (WorkspaceDeleteTransaction.inventory_listed hnodes) 0 s' hroom
    rw [hloop] at h
    exact h.1
  · have hbounded := hrun.invariant (I := fun s => s.store.Bounded) hempty.bounded
      fun _ _ _ hs _ ha => journalStep_bounded hs ha
    have hfits := hbounded.stored i c hc
    exact ⟨hfits.files, hfits.bytes, fun n hn => storedBytes_eq hn ▸ hfits.bytes⟩

end Contents

section Sample

attribute [local instance] spelledHash

/-- Deletion of the directory of the sample disk. -/
def sampleDeletion : WorkspaceDeleteTransaction :=
  ⟨samplePin, ⟨"d", []⟩, ⟨1, 2, .directory, false⟩, maxChangesetFiles, maxChangesetBytes⟩

/-- Nothing of the sample workspace is protected. -/
def denyNothing (_ : RelativePath) : Except Fault Unit := .ok ()

/-- Identifiers of the mutations of a sample deletion. -/
def sampleIdentifier (index : Nat) : String := if index = 0 then "m0" else "m1"

/-- The directory of the sample disk is deleted in a new ChangeSet. -/
def deletingEvents : List JournalEvent :=
  [.call (.begin "changes") .runs,
    .call (.delete "changes" sampleDeletion denyNothing id sampleIdentifier) .runs]

/-- The fault of a deletion that is repeated from the listing of the sample disk. -/
def repeatedDeletion (s : ChangeState) : Option Fault :=
  match sampleDeletion.inventory sampleDisk denyNothing id with
  | .error _ => none
  | .ok nodes =>
      match preflightBatch sampleWorkspace "changes" nodes.length
          (nodes.map (·.contentBytes)).sum ⟨s, []⟩ with
      | .error _ _ => none
      | .ok () s' =>
          match deleteNodes sampleWorkspace "changes" sampleIdentifier 0 nodes s' with
          | .ok _ _ => none
          | .error fault _ => some fault

/-- A deletion from a stale listing is accepted and stopped, and its ChangeSet is within the
limits. -/
theorem delete_batch_capacity_sample :
    ∃ s c fault, deletingEvents.foldlM (journalStep sampleWorkspace) sampleState = some s ∧
      repeatedDeletion s = some fault ∧ (∀ message, fault ≠ .changeCapacityExceeded message) ∧
      s.store.get "changes" = some c ∧ c.files.length = 2 ∧
      c.files.length ≤ maxChangesetFiles ∧ c.snapshotBytes ≤ maxChangesetBytes := by
  obtain ⟨s, hs, hfacts⟩ : ∃ s, deletingEvents.foldlM (journalStep sampleWorkspace)
      sampleState = some s ∧ ((s.store.get "changes").map (·.files.length), repeatedDeletion s) =
        (some 2, some (.osError "FileNotFoundError")) :=
    Option.map_eq_some_iff.mp (by decide +kernel)
  simp only [Prod.mk.injEq] at hfacts
  obtain ⟨c, hc, hcount⟩ := Option.map_eq_some_iff.mp hfacts.1
  obtain ⟨hcapacity, hlimits⟩ := delete_batch_capacity sampleWorkspace
  have hbounded := hlimits sampleState s rfl (Run.of_actions hs fun _ _ _ => trivial) "changes" c hc
  refine ⟨s, c, _, hs, hfacts.2, ?_, hc, hcount, hbounded.1, hbounded.2.1⟩
  have hrepeated := hfacts.2
  unfold repeatedDeletion at hrepeated
  split at hrepeated
  · cases hrepeated
  · next nodes hnodes =>
    split at hrepeated
    · cases hrepeated
    · next s' hbatch =>
      split at hrepeated
      · cases hrepeated
      · next fault s'' hloop =>
        cases hrepeated
        exact hcapacity _ _ _ _ _ _ _ _ _ _ _ hnodes hbatch hloop

end Sample

end AwesomeAgent
