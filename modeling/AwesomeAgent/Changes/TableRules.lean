import AwesomeAgent.Changes.Recovery
import AwesomeAgent.Changes.StoreRules

/-!
# Properties of the tables that a procedure preserves

A property of the tables that holds wherever a procedure stops. Only the statements of a
procedure matter for it: the tree, the blobs, the clock and the supply are free.
-/

namespace AwesomeAgent

/-- A procedure that preserves a property of the tables wherever it stops and returns such
values. -/
def Preserves {α : Type} (I : ChangeSetStore → Prop) (p : ChangeProc α)
    (Q : α → Prop := fun _ => True) : Prop :=
  Triple (fun s => I s.store) p (fun a s => I s.store ∧ Q a) (fun _ s => I s.store)
    (fun s => I s.store)

/-- A property of the tables that does not need any pending row. -/
def ChangeSetStore.Rowless (I : ChangeSetStore → Prop) : Prop :=
  ∀ t i, I t → I (t.deletePending i)

namespace Preserves

variable {α β : Type} {I : ChangeSetStore → Prop} {Q : α → Prop} {R : β → Prop}

/-- A result keeps every invariant. -/
theorem pure {a : α} (h : Q a) : Preserves I (Pure.pure a) Q :=
  Triple.pure fun _ hs => ⟨hs, h⟩

/-- A fault keeps every invariant. -/
theorem throw {fault : Fault} : Preserves I (MonadExcept.throw fault : ChangeProc α) Q :=
  Triple.throw fun _ hs => hs

/-- The invariant is kept by steps one after another. -/
theorem bind {p : ChangeProc α} {f : α → ChangeProc β} (hp : Preserves I p Q)
    (hf : ∀ a, Q a → Preserves I (f a) R) : Preserves I (p >>= f) R :=
  Triple.bind hp fun a => Triple.assume (fun _ hs => hs.2) fun ha =>
    (hf a ha).pre fun _ hs => hs.1

/-- A refusal before the rest of a procedure. -/
theorem guarded {c : Prop} [Decidable c] {fault : Fault} {p : ChangeProc β}
    (hp : ¬c → Preserves I p R) :
    Preserves I (do
      if c then MonadExcept.throw fault
      p : ChangeProc β) R := by
  by_cases hc : c
  · simp only [hc, if_true]
    exact bind (Q := fun _ => False) throw fun _ h => h.elim
  · simp only [hc, if_false]
    exact hp hc

/-- Reading keeps every invariant. -/
theorem reading {f : ChangeState → Except Fault α}
    (h : ∀ s a, I s.store → f s = .ok a → Q a) : Preserves I (AwesomeAgent.reading f) Q :=
  Triple.reading (fun s a hs ha => ⟨hs, h s a hs ha⟩) fun _ _ hs _ => hs

private theorem hoare {x : EStateM Fault ChangeState α}
    (h : ∀ s, Settles (fun a t => t.store = s.store ∧ Q a) (fun _ t => t.store = s.store) (x s)) :
    Hoare (fun s => I s.store) x (fun a t => I t.store ∧ Q a) (fun _ t => I t.store) :=
  fun s hs => (h s).mono (fun _ t ht => ⟨by rw [ht.1]; exact hs, ht.2⟩)
    fun _ t ht => by rw [ht]; exact hs

private theorem volatile {x : EStateM Fault ChangeState α}
    (h : ∀ s, Settles (fun a t => t.store = s.store ∧ Q a) (fun _ t => t.store = s.store) (x s)) :
    Preserves I (Proc.volatile x) Q :=
  Triple.volatile (hoare h)

private theorem durable {x : EStateM Fault ChangeState α}
    (h : ∀ s, Settles (fun a t => t.store = s.store ∧ Q a) (fun _ t => t.store = s.store) (x s)) :
    Preserves I (Proc.durable x) Q :=
  Triple.durable (hoare h) (fun _ _ hs => hs.1) fun _ _ hs => hs

private theorem onTree {x : TreeM α} (s : ChangeState) :
    Settles (fun _ t => t.store = s.store ∧ True) (fun _ t => t.store = s.store)
      (AwesomeAgent.onTree x s) := by
  unfold AwesomeAgent.onTree
  cases x s.tree with
  | ok a t => exact ⟨rfl, trivial⟩
  | error fault t => rfl

/-- A write keeps the invariant when its function does. -/
theorem onStore {f : ChangeSetStore → ChangeSetStore} (h : ∀ t, I t → I (f t)) :
    Preserves I (AwesomeAgent.onStore f) :=
  (Triple.onStore (Q := fun s => I s.store) (fun s hs => h s.store hs)
    fun _ hs => hs).post fun _ _ hs => ⟨hs, trivial⟩

/-- A renamed fault makes no difference. -/
theorem mapFault {f : Fault → Fault} {p : ChangeProc α} (hp : Preserves I p Q) :
    Preserves I (Proc.mapFault f p) Q :=
  Triple.mapFault hp

private theorem attempt {p : ChangeProc α} (hp : Preserves I p Q) :
    Preserves I (Proc.attempt p) fun r => ∀ a, r = .ok a → Q a :=
  Triple.attempt (hp.conseq (fun _ hs => hs)
    (fun a _ hs => ⟨hs.1, fun b hb => by cases hb; exact hs.2⟩)
    (fun _ _ hs => ⟨hs, fun _ hb => by cases hb⟩) fun _ hs => hs)

private theorem forM {f : β → ChangeProc PUnit} (xs : List β) (hf : ∀ b ∈ xs, Preserves I (f b)) :
    Preserves I (xs.forM f) := by
  induction xs with
  | nil => exact pure trivial
  | cons x xs ih =>
    exact bind (hf x List.mem_cons_self) fun _ _ => ih fun b hb => hf b (List.mem_cons_of_mem x hb)

/-- The clock is read. -/
theorem now : Preserves I AwesomeAgent.now := reading fun _ _ _ _ => trivial

private theorem newIdentifier : Preserves I AwesomeAgent.newIdentifier
    := volatile fun _ => ⟨rfl, trivial⟩

private theorem deletePending (hI : ChangeSetStore.Rowless I) (i : PendingId) :
    Preserves I (AwesomeAgent.onStore fun s => s.deletePending i) :=
  onStore fun t ht => hI t i ht

private theorem deletePendings (hI : ChangeSetStore.Rowless I) (xs : List α)
    (row : α → PendingMutation) :
    Preserves I (xs.forM fun x => AwesomeAgent.onStore fun s => s.deletePending (row x).id) :=
  forM xs fun _ _ => deletePending hI _

end Preserves

/-- A ChangeSet that was stored while a property of the tables held. -/
def ChangeSetStore.StoredUnder (I : ChangeSetStore → Prop) (changeSetId : String)
    (c : ChangeSet) : Prop :=
  ∃ t, I t ∧ t.get changeSetId = some c

/-- A change set is stored under its identifier. -/
theorem ChangeSetStore.StoredUnder.id_eq {I : ChangeSetStore → Prop} {changeSetId : String}
    {c : ChangeSet} (h : StoredUnder I changeSetId c) : c.id = changeSetId :=
  h.elim fun _ ht => ChangeSetStore.id_of_get ht.2

open ChangeSetStore (Rowless StoredUnder)

section Reading

variable {I : ChangeSetStore → Prop} {w : WorkspaceIdentity}

namespace ChangeJournal

private theorem owned_preserves (changeSetId : String) :
    Preserves I (owned w changeSetId) (StoredUnder I changeSetId) := by
  refine Preserves.reading fun s c hs hc => ?_
  split at hc
  · cases hc
  · next c' hc' =>
    split_ifs at hc
    cases hc
    exact ⟨s.store, hs, hc'⟩

/-- An open change set is one that is stored. -/
theorem openChangeSet_preserves (changeSetId : String) :
    Preserves I (openChangeSet w changeSetId) (StoredUnder I changeSetId) :=
  Preserves.bind (owned_preserves changeSetId) fun _ hc =>
    Preserves.guarded fun _ => Preserves.pure hc

/-- Looking for pending rows keeps every invariant. -/
theorem ensureNoPending_preserves (changeSetId message : String) :
    Preserves I (ensureNoPending changeSetId message) :=
  Preserves.reading fun _ _ _ _ => trivial

/-- Closing a ChangeSet saves what was stored, closed. -/
theorem sealChangeSet_preserves (changeSetId : String)
    (hsave : ∀ c t r sealedAt, StoredUnder I changeSetId c → I t →
      I (t.save { c with lifecycle := .applied, reversibility := r, sealedAt := sealedAt })) :
    Preserves I (sealChangeSet w changeSetId) :=
  Preserves.bind (openChangeSet_preserves changeSetId) fun c hc =>
    Preserves.bind (ensureNoPending_preserves _ _) fun _ _ =>
      Preserves.bind Preserves.now fun _ _ =>
        Preserves.bind (Preserves.onStore fun t ht => hsave c t _ _ hc ht) fun _ _ =>
          Preserves.pure trivial

/-- Recording a command saves what was stored with one more command. -/
theorem recordExecute_preserves (changeSetId command : String) (observedPaths : List String)
    (hsave : ∀ c t execute, StoredUnder I changeSetId c → I t →
      I (t.save { c with execute := execute })) :
    Preserves I (recordExecute w changeSetId command observedPaths) :=
  Preserves.bind (openChangeSet_preserves changeSetId) fun c hc =>
    Preserves.bind (ensureNoPending_preserves _ _) fun _ _ =>
      Preserves.bind (Preserves.onStore fun t ht => hsave c t _ hc ht) fun _ _ =>
        Preserves.pure trivial

end ChangeJournal

end Reading

section Contents

variable [ContentHash] {I : ChangeSetStore → Prop} {w : WorkspaceIdentity}

private theorem snapshotDigest_of_matches {u : Option NodeSnapshot} {digest : Option String}
    {mode : Option Nat} {nodeType : FileNodeType}
    (h : snapshotMatchesRecord u digest mode nodeType = true) : snapshotDigest u = digest := by
  unfold snapshotMatchesRecord at h
  split at h
  · rw [Option.isNone_iff_eq_none.mp h]
    rfl
  · cases h
  · simp only [Bool.and_eq_true, decide_eq_true_eq] at h
    exact h.1.2

private theorem putContent_preserves (u : Option NodeSnapshot) :
    Preserves I (putContent u) fun blob => blob = blobOf u := by
  unfold putContent
  split
  · next hu => exact Preserves.pure (by rw [blobOf, hu]; rfl)
  · next content hu =>
    refine Preserves.bind (Q := fun digest => digest = ContentHash.sha256 content)
      (Preserves.durable fun s => ?_) fun digest hd => Preserves.pure (by rw [blobOf, hu, hd]; rfl)
    simp only [putBlob]
    split
    · split
      · exact ⟨rfl, rfl⟩
      · rfl
    · exact ⟨rfl, rfl⟩

namespace ChangeJournal

private theorem fileChange_preserves (pending : PendingMutation) (identifier : String)
    (actualAfter : Option NodeSnapshot) :
    Preserves I (fileChange pending identifier actualAfter) fun change =>
      change.beforeBlob = pending.beforeBlob ∧ change.afterBlob = blobOf actualAfter := by
  refine Preserves.bind (putContent_preserves actualAfter) fun _ hblob => ?_
  split
  · exact Preserves.pure ⟨rfl, hblob⟩
  · exact Preserves.throw

variable {identifier : String} {pending : PendingMutation} {current : Option NodeSnapshot}

/-- What a mutation saves: a row that announces it, and its ChangeSet with one more record. -/
theorem applyFileMutation_preserves {P : ChangeState → Prop} {S : ChangeSet → Prop}
    {changeSetId : String} {kind : FileChangeKind} {intendedAfter : Option NodeSnapshot}
    {target : BoundFileMutation} (hI : Rowless I)
    (hopen : Triple P (openChangeSet w changeSetId) (fun c s => I s.store ∧ S c)
      (fun _ s => I s.store) fun s => I s.store)
    (hpending : ∀ c t nodeType createdAt, S c → I t →
      I (t.savePending (mutationPending c identifier target.relativePath kind nodeType
        target.before intendedAfter (blobOf target.before) (blobOf intendedAfter) createdAt)))
    (hsave : ∀ c t blobs after change, S c → I t →
      preflight blobs c target.before intendedAfter = .ok () →
      snapshotDigest after = snapshotDigest intendedAfter →
      change.beforeBlob = blobOf target.before → change.afterBlob = blobOf after →
      I (t.save { c with files := c.files ++ [change] })) :
    Triple P (applyFileMutation w changeSetId kind intendedAfter target identifier)
      (fun _ s => I s.store) (fun _ s => I s.store) fun s => I s.store := by
  refine Triple.bind hopen fun c => Triple.assume (fun _ hs => hs.2) fun hc => ?_
  suffices hrest : Preserves I _ from
    hrest.conseq (fun _ hs => hs.1) (fun _ _ hs => hs.1) (fun _ _ hs => hs) fun _ hs => hs
  refine Preserves.bind (ensureNoPending_preserves _ _) fun _ _ => ?_
  split
  · exact Preserves.throw
  · next nodeType _ =>
    refine Preserves.bind (Q := fun _ => ∃ blobs,
      preflight blobs c target.before intendedAfter = .ok ())
      (Preserves.reading fun s _ _ hs => ⟨s.blobs, hs⟩) fun _ hfits => ?_
    refine Preserves.bind (putContent_preserves _) fun beforeBlob hbefore => ?_
    refine Preserves.bind (putContent_preserves _) fun intendedBlob hintended => ?_
    subst hbefore hintended
    refine Preserves.bind Preserves.now fun createdAt _ => ?_
    refine Preserves.bind (Preserves.onStore fun t ht => hpending c t _ createdAt hc ht)
      fun _ _ => ?_
    refine Preserves.bind (Preserves.attempt (Q := fun _ => True) (Preserves.durable fun s => ?_))
      fun r _ => ?_
    · unfold runMutation
      split
      · exact ⟨rfl, trivial⟩
      · rfl
    · split
      · exact Preserves.bind (Preserves.deletePending hI _) fun _ _ => Preserves.throw
      · exact Preserves.throw
      · refine Preserves.bind (Preserves.reading fun _ _ _ _ => trivial) fun after _ => ?_
        refine Preserves.guarded fun hmatch => ?_
        have hdigest := snapshotDigest_of_matches (Bool.eq_true_of_not_eq_false hmatch)
        refine Preserves.bind (fileChange_preserves _ _ _) fun change hchange => ?_
        obtain ⟨blobs, hfits⟩ := hfits
        refine Preserves.bind (Preserves.onStore fun t ht =>
          hsave c t blobs after change hc ht hfits hdigest hchange.1 hchange.2) fun _ _ => ?_
        exact Preserves.bind (Preserves.deletePending hI _) fun _ _ => Preserves.pure trivial

/-- What recovery saves for a mutation that was carried out. -/
theorem recordPending_preserves (hI : Rowless I) {c : ChangeSet}
    (hsave : ∀ t blobs before intendedAfter change r, I t →
      pendingSnapshot blobs pending true = .ok before →
      pendingSnapshot blobs pending false = .ok intendedAfter →
      preflight blobs c before intendedAfter = .ok () →
      change.beforeBlob = pending.beforeBlob → change.afterBlob = blobOf current →
      I (t.save { c with files := c.files ++ [change], reversibility := r })) :
    Preserves I (recordPending c pending identifier current) := by
  refine Triple.bind (R := fun before s => I s.store ∧
    pendingSnapshot s.blobs pending true = .ok before)
    (Triple.reading (fun s a hs ha => ⟨hs, ha⟩) fun _ _ hs _ => hs) fun before => ?_
  refine Triple.bind (R := fun intendedAfter s => I s.store ∧
    pendingSnapshot s.blobs pending true = .ok before ∧
    pendingSnapshot s.blobs pending false = .ok intendedAfter)
    (Triple.reading (fun s a hs ha => ⟨hs.1, hs.2, ha⟩) fun _ _ hs _ => hs.1)
    fun intendedAfter => ?_
  refine Triple.bind (R := fun _ s => I s.store ∧ ∃ blobs,
    pendingSnapshot blobs pending true = .ok before ∧
    pendingSnapshot blobs pending false = .ok intendedAfter ∧
    preflight blobs c before intendedAfter = .ok ())
    (Triple.reading (fun s a hs ha => ⟨hs.1, s.blobs, hs.2.1, hs.2.2, ha⟩) fun _ _ hs _ => hs.1)
    fun _ => ?_
  refine Triple.assume (fun _ hs => hs.2) fun ⟨blobs, hbefore, hintended, hfits⟩ => ?_
  suffices hrest : Preserves I _ from hrest.pre fun _ hs => hs.1
  refine Preserves.bind (fileChange_preserves pending identifier current) fun change hchange => ?_
  refine Preserves.bind (Preserves.onStore fun t ht => ?_) fun _ _ =>
    Preserves.deletePending hI _
  have hsaved := fun r => hsave t blobs before intendedAfter change r ht hbefore hintended hfits
    hchange.1 hchange.2
  split
  · exact hsaved _
  · exact hsaved c.reversibility

private theorem reconcileCommitted_preserves (hI : Rowless I) (pending : PendingMutation)
    (current : Option NodeSnapshot) (committed : List FileChange) :
    Preserves I (reconcileCommitted pending current committed) := by
  unfold reconcileCommitted
  split
  · split
    · exact Preserves.deletePending hI _
    · exact Preserves.throw
  · exact Preserves.throw

private theorem reconcileObserved_preserves (hI : Rowless I) {c : ChangeSet}
    (hrecord : snapshotDigest current = pending.intendedAfterHash →
      Preserves I (recordPending c pending identifier current)) :
    Preserves I (reconcileObserved c pending identifier current) := by
  unfold reconcileObserved
  split
  · exact reconcileCommitted_preserves hI pending current _
  · split
    · exact Preserves.throw
    · split
      · exact Preserves.deletePending hI _
      · split
        · next hmatch => exact hrecord (snapshotDigest_of_matches hmatch)
        · exact Preserves.throw

/-- What recovery may record for a row. -/
def RecordsUnder (I : ChangeSetStore → Prop) (pending : PendingMutation) (identifier : String) :
    Prop :=
  ∀ c current, StoredUnder I pending.changeSetId c →
    snapshotDigest current = pending.intendedAfterHash →
    Preserves I (recordPending c pending identifier current)

private theorem reconcileMutation_preserves (hI : Rowless I)
    (hrecord : RecordsUnder I pending identifier) :
    Preserves I (reconcileMutation w pending identifier) := by
  refine Preserves.bind (Preserves.mapFault (owned_preserves pending.changeSetId)) fun c hc => ?_
  refine Preserves.guarded fun _ => ?_
  refine Preserves.bind (Preserves.volatile Preserves.onTree) fun _ _ => ?_
  refine Preserves.bind (Preserves.volatile Preserves.onTree) fun current _ => ?_
  exact reconcileObserved_preserves hI (hrecord c current hc)

private theorem bindRows_preserves (rows : List PendingMutation) : Preserves I (bindRows rows) := by
  induction rows with
  | nil => exact Preserves.pure trivial
  | cons pending rest ih =>
    refine Preserves.bind (Preserves.volatile Preserves.onTree) fun _ _ => ?_
    refine Preserves.bind (Preserves.reading fun _ _ _ _ => trivial) fun _ _ => ?_
    refine Preserves.bind (Preserves.reading fun _ _ _ _ => trivial) fun _ _ => ?_
    split
    · exact Preserves.bind ih fun _ _ => Preserves.pure trivial
    · exact Preserves.throw

private theorem checkCommitted_preserves (row : RecoveryRow) : Preserves I (checkCommitted row)
    := by
  refine Preserves.bind (Preserves.volatile Preserves.onTree) fun _ _ => ?_
  split
  · exact Preserves.throw
  · exact Preserves.pure trivial

private theorem rollbackRow_preserves (row : RecoveryRow) : Preserves I (rollbackRow row) := by
  refine Preserves.bind (Preserves.volatile Preserves.onTree) fun _ _ => ?_
  split
  · exact Preserves.pure trivial
  · split
    · exact Preserves.throw
    · refine Preserves.bind (Preserves.durable Preserves.onTree) fun _ _ => ?_
      split
      · exact Preserves.throw
      · exact Preserves.pure trivial

private theorem checkRolledBack_preserves (row : RecoveryRow) : Preserves I (checkRolledBack row)
    := by
  refine Preserves.bind (Preserves.volatile Preserves.onTree) fun _ _ => ?_
  split
  · exact Preserves.throw
  · exact Preserves.pure trivial

private theorem reconcileOperation_preserves (hI : Rowless I) (action : Action)
    (items : List PendingMutation) : Preserves I (reconcileOperation w action items) := by
  unfold reconcileOperation
  split
  · refine Preserves.bind (Preserves.mapFault (owned_preserves _)) fun c _ => ?_
    refine Preserves.guarded fun _ => ?_
    refine Preserves.bind (bindRows_preserves _) fun bound _ => ?_
    have hdelete := Preserves.deletePendings hI bound fun row => row.pending
    split
    · exact Preserves.bind (Preserves.forM bound fun row _ => checkCommitted_preserves row)
        fun _ _ => hdelete
    · exact Preserves.bind (Preserves.forM bound.reverse fun row _ => rollbackRow_preserves row)
        fun _ _ => Preserves.bind (Preserves.forM bound fun row _ => checkRolledBack_preserves row)
          fun _ _ => hdelete
  · exact Preserves.throw

private theorem reconcileChangeSet_preserves (hI : Rowless I) (operationChangeSets : List String)
    (changeSetId : String) (items : List (String × PendingMutation))
    (hrecord : ∀ item ∈ items, RecordsUnder I item.2 item.1)
    (hseal : Preserves I (sealChangeSet w changeSetId)) :
    Preserves I (reconcileChangeSet w operationChangeSets changeSetId items) := by
  refine Preserves.bind (Q := fun _ => True) (Preserves.forM items fun item hitem =>
    reconcileMutation_preserves hI (hrecord item hitem)) fun _ _ => ?_
  refine Preserves.bind (owned_preserves changeSetId) fun c _ => ?_
  split
  · exact Preserves.bind hseal fun _ _ => Preserves.pure trivial
  · exact Preserves.pure trivial

/-- Recovery records rows that were listed, and closes ChangeSets. -/
theorem reconcilePending_preserves (hI : Rowless I) (changeSetId : Option String)
    (hrecord : ∀ t, I t → ∀ row ∈ t.listPending, ∀ identifier, row.id = .mutation identifier →
      RecordsUnder I row identifier)
    (hseal : ∀ i, Preserves I (sealChangeSet w i)) :
    Preserves I (reconcilePending w changeSetId) := by
  refine Preserves.bind (Q := fun rows => ∃ t, I t ∧ rows ⊆ t.listPending)
    (Preserves.reading fun s rows hs hr => ?_) fun rows hrows => Preserves.mapFault ?_
  · cases hr
    exact ⟨s.store, hs, fun row hrow => (List.mem_filter.mp hrow).1⟩
  · refine Preserves.bind (Preserves.volatile Preserves.onTree) fun _ _ => ?_
    refine Preserves.bind (Q := fun _ => True) (Preserves.forM _ fun group hgroup => ?_)
      fun _ _ => Preserves.forM _ fun group _ => reconcileOperation_preserves hI group.1.2 _
    refine reconcileChangeSet_preserves hI _ group.1 group.2 (fun item hitem => ?_) (hseal _)
    obtain ⟨row, hrow, hordinary⟩ := List.mem_filterMap.mp (Dict.mem_of_mem_groupBy hgroup hitem)
    obtain ⟨t, ht, hlisted⟩ := hrows
    unfold ordinaryRow at hordinary
    split at hordinary
    · next identifier hid =>
      cases hordinary
      exact hrecord t ht row (hlisted hrow) identifier hid
    · cases hordinary

end ChangeJournal

namespace ChangeOperations

/-- The row of an item of an operation. -/
def IsOperationRow (p : PendingMutation) : Prop := p.id.operationAction.isSome

private theorem operationPending_preserves (action : Action) (operationId index : Nat)
    (changeSet : ChangeSet) (change : FileChange) (current desired : Option NodeSnapshot) :
    Preserves I (operationPending (.operation action operationId index) changeSet change current
      desired) IsOperationRow :=
  Preserves.bind (putContent_preserves _) fun _ _ =>
    Preserves.bind (putContent_preserves _) fun _ _ =>
      Preserves.bind Preserves.now fun _ _ => Preserves.pure rfl

private theorem bindTargets_preserves (undo : Bool) (changes : List FileChange) :
    Preserves I (bindTargets undo changes) := by
  induction changes with
  | nil => exact Preserves.pure trivial
  | cons change changes ih =>
    refine Preserves.bind (Preserves.volatile Preserves.onTree) fun _ _ => ?_
    refine Preserves.bind (Preserves.reading fun _ _ _ _ => trivial) fun _ _ => ?_
    refine Preserves.bind ih fun rest _ => ?_
    obtain ⟨targets, conflicts⟩ := rest
    dsimp only
    split <;> exact Preserves.pure trivial

private theorem prepareItems_preserves (action : Action) (operationId : Nat) (changeSet : ChangeSet)
    (targets : List (FileChange × BoundWorkspaceNode)) : ∀ index,
    Preserves I (prepareItems action operationId changeSet index targets)
      fun prepared => ∀ item ∈ prepared, IsOperationRow item.pending := by
  induction targets with
  | nil => exact fun _ => Preserves.pure fun _ h => absurd h List.not_mem_nil
  | cons target rest ih =>
    intro index
    obtain ⟨change, bound⟩ := target
    refine Preserves.bind (Preserves.reading fun _ _ _ _ => trivial) fun desired _ => ?_
    refine Preserves.bind (operationPending_preserves _ _ _ _ _ _ _) fun pending hpending => ?_
    refine Preserves.bind (ih (index + 1)) fun prepared hprepared => Preserves.pure ?_
    intro item hitem
    rcases List.mem_cons.mp hitem with rfl | hitem
    · exact hpending
    · exact hprepared item hitem

private theorem prepare_preserves (changeSet : ChangeSet) (changes : List FileChange) (undo : Bool)
    :
    Preserves I (prepare changeSet changes undo)
      fun prepared => ∀ item ∈ prepared, IsOperationRow item.pending := by
  refine Preserves.bind (bindTargets_preserves undo changes) fun bound _ => ?_
  exact Preserves.guarded fun _ => Preserves.bind Preserves.newIdentifier fun _ _ =>
    prepareItems_preserves _ _ _ _ _

private theorem rollbackApplied_preserves (items : List PreparedRestore) :
    Preserves I (rollbackApplied items) := by
  induction items with
  | nil => exact Preserves.pure trivial
  | cons item rest ih =>
    refine Preserves.bind (Preserves.volatile Preserves.onTree) fun _ _ => ?_
    split
    · exact Preserves.pure trivial
    · refine Preserves.bind (Preserves.durable Preserves.onTree) fun _ _ => ?_
      split
      · exact Preserves.pure trivial
      · exact ih

private theorem rolledBack_preserves (items : List PreparedRestore) : Preserves I (rolledBack items)
    := by
  induction items with
  | nil => exact Preserves.pure trivial
  | cons item rest ih =>
    refine Preserves.bind (Preserves.volatile Preserves.onTree) fun _ _ => ?_
    split
    · exact Preserves.pure trivial
    · exact ih

private theorem rollback_preserves (hI : Rowless I) (prepared applied : List PreparedRestore) :
    Preserves I (rollback prepared applied) := by
  refine Preserves.bind (Preserves.attempt (Q := fun _ => True) ?_) fun r _ => ?_
  · refine Preserves.bind (rollbackApplied_preserves _) fun ok _ => ?_
    split
    · exact rolledBack_preserves prepared
    · exact Preserves.pure trivial
  · split
    · split
      · exact Preserves.pure trivial
      · exact Preserves.throw
    · exact Preserves.pure trivial
    · refine Preserves.bind (Preserves.attempt (Q := fun _ => True)
        (Preserves.deletePendings hI prepared fun item => item.pending)) fun r _ => ?_
      split <;> exact Preserves.pure trivial

private theorem restoreItems_preserves (rest : List PreparedRestore) : ∀ applied,
    Preserves I (restoreItems applied rest) := by
  induction rest with
  | nil => exact fun _ => Preserves.pure trivial
  | cons item rest ih =>
    intro applied
    refine Preserves.bind (Preserves.attempt (Q := fun _ => True)
      (Preserves.durable Preserves.onTree)) fun r _ => ?_
    split
    · exact Preserves.pure trivial
    · split
      · exact ih _
      · exact Preserves.pure trivial

private theorem handleFault_preserves (hI : Rowless I) (changeSetId : String)
    (expectedLifecycle : ChangeLifecycle) (prepared applied : List PreparedRestore)
    (fault : Fault) :
    Preserves I (handleFault changeSetId expectedLifecycle prepared applied fault)
      fun _ => False := by
  unfold handleFault
  split
  · refine Preserves.bind (Preserves.reading fun _ _ _ _ => trivial) fun persisted _ => ?_
    split
    · exact Preserves.bind (rollback_preserves hI prepared applied) fun _ _ => Preserves.throw
    · exact Preserves.throw
  · exact Preserves.throw

private theorem operateInTree_preserves (hI : Rowless I) {c : ChangeSet} (changes : List FileChange)
    (undo : Bool) (expectedLifecycle targetLifecycle : ChangeLifecycle)
    (hrow : ∀ t p, IsOperationRow p → I t → I (t.savePending p))
    (hsave : ∀ t, I t → I (t.save { c with lifecycle := targetLifecycle })) :
    Preserves I (operateInTree c changes undo expectedLifecycle targetLifecycle) := by
  refine Preserves.bind (prepare_preserves c changes undo) fun prepared hprepared => ?_
  refine Preserves.bind (Preserves.attempt (Q := fun _ => True) (Preserves.forM prepared
    fun item hitem => Preserves.onStore fun t ht => hrow t _ (hprepared item hitem) ht))
    fun r _ => ?_
  split
  · exact Preserves.bind (handleFault_preserves hI _ _ _ _ _) fun _ h => h.elim
  refine Preserves.bind (restoreItems_preserves prepared []) fun r _ => ?_
  obtain ⟨applied, failure⟩ := r
  cases failure with
  | some fault => exact Preserves.bind (handleFault_preserves hI _ _ _ _ _) fun _ h => h.elim
  | none =>
    refine Preserves.bind (Preserves.attempt (Q := fun _ => True)
      (Preserves.onStore hsave)) fun r _ => ?_
    split
    · exact Preserves.bind (handleFault_preserves hI _ _ _ _ _) fun _ h => h.elim
    · exact Preserves.bind (Preserves.deletePendings hI prepared fun item => item.pending)
        fun _ _ => Preserves.pure trivial

/-- Undo and redo announce their items and save the ChangeSet with another lifecycle. -/
theorem operate_preserves (hI : Rowless I) (changeSetId : String) (undo : Bool)
    (hrow : ∀ t p, IsOperationRow p → I t → I (t.savePending p))
    (hsave : ∀ c t lifecycle, StoredUnder I changeSetId c → I t →
      I (t.save { c with lifecycle := lifecycle })) :
    Preserves I (operate w changeSetId undo) := by
  refine Preserves.bind (Q := StoredUnder I changeSetId) (Preserves.reading fun s c hs hc => ?_)
    fun c hc => ?_
  · split at hc
    · cases hc
    · next c' hc' =>
      split_ifs at hc
      cases hc
      exact ⟨s.store, hs, hc'⟩
  · refine Preserves.guarded fun _ => Preserves.guarded fun _ => ?_
    refine Preserves.bind (Preserves.reading fun _ _ _ _ => trivial) fun changes _ => ?_
    refine Preserves.bind (Q := fun _ => True) (Preserves.mapFault ?_) fun _ _ =>
      Preserves.pure trivial
    exact Preserves.bind (Preserves.volatile Preserves.onTree) fun _ _ =>
      operateInTree_preserves hI changes undo _ _ hrow fun t ht => hsave c t _ hc ht

end ChangeOperations

end Contents

end AwesomeAgent
