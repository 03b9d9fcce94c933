import AwesomeAgent.Changes.Operations
import AwesomeAgent.Changes.RestorePass
import AwesomeAgent.Changes.StoreRules

/-!
# The phases of a change operation

Binding and announcing leave the workspace and the ChangeSets alone. The restores
of the announced items are a pass over the workspace.
-/

namespace AwesomeAgent

open ChangeOperations

variable [ContentHash]

/-- An operation that has announced nothing yet. -/
structure Idle (s₀ s : ChangeState) : Prop where
  store : s.store = s₀.store
  blobs : s₀.blobs.Extends s.blobs
  sound : s.blobs.Sound
  pass : PassState s₀.disk [] s.tree
  pins : PassPins s₀.disk [] s.tree
  supply : s₀.supply ≤ s.supply

private theorem Idle.grows (s₀ : ChangeState) : GrowsWithBlobs (Idle s₀) where
  sound := fun _ h => h.sound
  grow := fun _ _ h he hs => ⟨h.store, h.blobs.trans he, hs, h.pass, h.pins, h.supply⟩

/-- A snapshot of a change stays what it is in a larger blob store. -/
theorem changeSnapshot_mono {b b' : BlobStore} {c : FileChange} {side : Bool}
    {u : Option NodeSnapshot} (he : b.Extends b') (h : changeSnapshot b c side = .ok u) :
    changeSnapshot b' c side = .ok u := by
  cases side <;> exact recordedSnapshot_mono he h

/-- Every recorded snapshot of the changes can be restored. -/
def RecordsRestorable (linkMode : Nat) (changes : List FileChange) : Prop :=
  ∀ c ∈ changes, ∀ b side u, changeSnapshot b c side = .ok (some u) → u.Restorable linkMode

/-- The workspace holds the state that a change starts from. -/
def Matches (b : BlobStore) (d : Disk) (undo : Bool) (c : FileChange) : Prop :=
  ∃ u, changeSnapshot b c (!undo) = .ok u ∧ snapshotsMatch (d.snapshot c.path.parts) u = true

/-- A changed path that can be bound and compared. -/
structure Inspectable (b : BlobStore) (d : Disk) (undo : Bool) (c : FileChange) : Prop where
  free : PathFree d.outline [] c.path
  capturable : ∀ e, d.lstat c.path.parts = some e → e.Capturable
  readable : ∃ u, changeSnapshot b c (!undo) = .ok u

variable {s₀ : ChangeState} {C : ChangeState → Prop} {changeSet : ChangeSet}
  {E : Fault → ChangeState → Prop} {undo : Bool} {changes : List FileChange}
  {store : ChangeSetStore} {done : List PassItem}

private theorem bind_idle (b : BlobStore) (undo : Bool) (c : FileChange) :
    Triple (fun s => Idle s₀ s ∧ s.blobs = b)
      (Proc.volatile (onTree (WorkspaceTreeTransaction.bind c.path)))
      (fun t s => (Idle s₀ s ∧ s.blobs = b) ∧ Bound s₀.disk c.path t ∧
        ∀ q, q <:+ c.path.parent → s₀.disk.outline q ≠ some false)
      (fun _ s => (Idle s₀ s ∧ s.blobs = b) ∧ ¬Inspectable b s₀.disk undo c) C := by
  refine Triple.volatile (Hoare.onTree fun s hs => ?_)
  obtain ⟨hs, hb⟩ := hs
  have hdisk : ∀ p, s₀.disk.lstat p = s.tree.disk.lstat p :=
    fun p => (hs.pass.untouched p fun x hx => by cases hx).symm
  refine (bind_pass hs.pass hs.pins List.nodup_nil c.path).mono ?_ ?_
  · rintro t u ⟨hbound, _, hpass, hpins, hclear⟩
    exact ⟨⟨⟨hs.store, hs.blobs, hs.sound, hpass, hpins, hs.supply⟩, hb⟩,
      hbound.congr hdisk hs.pass.linkMode.symm, hclear⟩
  · rintro fault u ⟨⟨_, hpass, hpins⟩, hfail⟩
    refine ⟨⟨⟨hs.store, hs.blobs, hs.sound, hpass, hpins, hs.supply⟩, hb⟩, fun hi => ?_⟩
    rcases hfail with hfree | ⟨e, he, hc⟩
    · exact hfree hi.free
    · exact hc (hi.capturable e ((hdisk _).trans he))

/-- Binding the paths of an operation reports which of them changed. -/
theorem bindTargets_spec (b : BlobStore) (undo : Bool) (changes : List FileChange) :
    Triple (fun s => Idle s₀ s ∧ s.blobs = b) (bindTargets undo changes)
      (fun r s => (Idle s₀ s ∧ s.blobs = b) ∧ r.1.map Prod.fst = changes ∧
        (∀ t ∈ r.1, Bound s₀.disk t.1.path t.2) ∧
        (∀ c ∈ changes, ∀ q, q <:+ c.path.parent → s₀.disk.outline q ≠ some false) ∧
        (r.2 = [] ↔ ∀ c ∈ changes, Matches b s₀.disk undo c))
      (fun _ s => (Idle s₀ s ∧ s.blobs = b) ∧ ¬∀ c ∈ changes, Inspectable b s₀.disk undo c) C := by
  induction changes with
  | nil => exact Triple.pure fun s hs => ⟨hs, rfl, by simp, by simp, by simp⟩
  | cons c changes ih =>
    refine Triple.bind ((bind_idle b undo c).fault
      fun _ _ ⟨hs, hn⟩ => ⟨hs, fun ha => hn (ha c (by simp))⟩) fun target => ?_
    refine Triple.assume (fun _ hs => hs.2) fun ⟨hbound, hclear⟩ => ?_
    refine Triple.bind (R := fun expected s => (Idle s₀ s ∧ s.blobs = b) ∧
      changeSnapshot b c (!undo) = .ok expected) ?_ fun expected => ?_
    · refine Triple.reading (fun s u ⟨⟨hs, hb⟩, _⟩ hu => ⟨⟨hs, hb⟩, hb ▸ hu⟩) ?_
      rintro s fault ⟨⟨hs, hb⟩, _⟩ hf
      refine ⟨⟨hs, hb⟩, fun ha => ?_⟩
      obtain ⟨u, hu⟩ := (ha c (by simp)).readable
      rw [hb, hu] at hf
      cases hf
    refine Triple.assume (fun _ hs => hs.2) fun hexpected => ?_
    refine Triple.bind ((ih.pre fun _ hs => hs.1).fault
      fun _ _ ⟨hs, hn⟩ => ⟨hs, fun ha => hn fun d hd => ha d (by simp [hd])⟩) ?_
    rintro ⟨targets, conflicts⟩
    refine Triple.assume (fun _ hs => hs.2) fun ⟨hmap, hbounds, hclears, hconf⟩ => ?_
    have hclear' := List.forall_mem_cons.mpr ⟨hclear, hclears⟩
    have hmatch : Matches b s₀.disk undo c ↔
        snapshotsMatch target.snapshot expected = true := by
      rw [hbound.snapshot]
      constructor
      · rintro ⟨u, hu, hm⟩
        rw [hexpected] at hu
        cases hu
        exact hm
      · exact fun hm => ⟨expected, hexpected, hm⟩
    have hall : ∀ t ∈ (c, target) :: targets, Bound s₀.disk t.1.path t.2 := by
      intro t ht
      rcases List.mem_cons.mp ht with rfl | ht
      · exact hbound
      · exact hbounds t ht
    by_cases hm : snapshotsMatch target.snapshot expected = true
    · simp only [hm, if_true]
      refine Triple.pure fun s hs => ⟨hs.1, by simp [hmap], hall, hclear', ?_⟩
      simp only [hconf, List.forall_mem_cons, hmatch, hm, true_and]
    · simp only [hm]
      refine Triple.pure fun s hs => ⟨hs.1, by simp [hmap], hall, hclear', ?_⟩
      simp [hmatch, hm]

/-- A pending row that announces a transition of one path. -/
structure RowFor (b : BlobStore) (changeSet : ChangeSet) (path : RelativePath)
    (pendingId : PendingId) (before after : Option NodeSnapshot) (p : PendingMutation) :
    Prop where
  id : p.id = pendingId
  changeSetId : p.changeSetId = changeSet.id
  workspaceKey : p.workspaceKey = changeSet.workspaceKey
  relativePath : p.relativePath = path
  before : pendingSnapshot b p true = .ok before
  after : pendingSnapshot b p false = .ok after

private theorem RowFor.mono {b b' : BlobStore} {path : RelativePath}
    {pendingId : PendingId} {before after : Option NodeSnapshot} {p : PendingMutation}
    (h : RowFor b changeSet path pendingId before after p) (he : b.Extends b') :
    RowFor b' changeSet path pendingId before after p :=
  ⟨h.id, h.changeSetId, h.workspaceKey, h.relativePath, recordedSnapshot_mono he h.before,
    recordedSnapshot_mono he h.after⟩

/-- The type that a row or a change falls back to is not needed for recorded snapshots. -/
theorem resolved_type (u : Option NodeSnapshot) (fallback : FileNodeType) :
    ((snapshotDigest u).bind fun _ => some ((u.map (·.nodeType)).getD fallback)) =
      u.map (·.nodeType) := by
  cases u <;> rfl

private theorem operationPending_spec {I : ChangeState → Prop} (hI : GrowsWithBlobs I)
    (hC : ∀ s, I s → C s) (pendingId : PendingId) (changeSet : ChangeSet)
    (change : FileChange) {current desired : Option NodeSnapshot}
    (hcur : ∀ u, current = some u → u.Captured) (hdes : ∀ u, desired = some u → u.Captured)
    :
    Triple I (operationPending pendingId changeSet change current desired)
      (fun p s => I s ∧ RowFor s.blobs changeSet change.path pendingId current desired p) E C := by
  refine Triple.bind (putContent_spec hI hC current) fun beforeBlob => ?_
  refine Triple.assume (fun _ hs => hs.2.2) fun hbefore => ?_
  have hgrow : GrowsWithBlobs fun s => I s ∧ s.blobs.Holds current :=
    ⟨fun s hs => hI.sound s hs.1, fun s b hs he hb =>
      ⟨hI.grow s b hs.1 he hb, hs.2.mono he⟩⟩
  refine Triple.bind ((putContent_spec hgrow (fun s hs => hC s hs.1) desired).pre
    fun s hs => ⟨hs.1, hs.2.1⟩) fun afterBlob => ?_
  refine Triple.assume (fun _ hs => hs.2.2) fun hafter => ?_
  refine Triple.bind (R := fun _ s => (I s ∧ s.blobs.Holds current) ∧
    s.blobs.Holds desired) (Triple.now fun s hs => ⟨hs.1, hs.2.1⟩) fun createdAt => ?_
  refine Triple.pure fun s ⟨⟨hs, hcurrent⟩, hdesired⟩ => ⟨hs, rfl, rfl, rfl, rfl, ?_, ?_⟩
  · simp only [pendingSnapshot, if_true, PendingMutation.resolvedBeforeNodeType,
      resolved_type, hbefore]
    exact recordedSnapshot_of_formed _ (fun v hv => (hcur v hv).content) hcurrent
  · simp only [pendingSnapshot, PendingMutation.resolvedIntendedAfterNodeType,
      resolved_type, hafter]
    exact recordedSnapshot_of_formed _ (fun v hv => (hdes v hv).content) hdesired

/-- The item of a pass that a prepared restore carries out. -/
def PreparedRestore.item (p : PreparedRestore) : PassItem :=
  ⟨p.change.path, p.target.snapshot, p.desired, true⟩

/-- A prepared restore was bound on the disk `d` and is announced by its row. -/
structure PreparedFor (d : Disk) (b : BlobStore) (changeSet : ChangeSet) (undo : Bool)
    (p : PreparedRestore) : Prop where
  bound : ItemBound d p.item p.target
  desired : changeSnapshot b p.change undo = .ok p.desired
  row : RowFor b changeSet p.change.path p.pending.id p.target.snapshot p.desired p.pending

private theorem PreparedFor.mono {d : Disk} {b b' : BlobStore}
    {p : PreparedRestore} (h : PreparedFor d b changeSet undo p) (he : b.Extends b') :
    PreparedFor d b' changeSet undo p :=
  ⟨h.bound, changeSnapshot_mono he h.desired, h.row.mono he⟩

/-- Announcing the bound paths gives one row to each of them. -/
theorem prepareItems_spec {I : ChangeState → Prop} (hI : GrowsWithBlobs I)
    (hidle : ∀ s, I s → Idle s₀ s) (hC : ∀ s, I s → C s) (action : Action) (operationId : Nat)
    (changeSet : ChangeSet) (targets : List (FileChange × BoundWorkspaceNode))
    (hrec : RecordsRestorable s₀.disk.linkMode (targets.map Prod.fst))
    (hbound : ∀ t ∈ targets, Bound s₀.disk t.1.path t.2) (index : Nat) :
    Triple I (prepareItems action operationId changeSet index targets)
      (fun prepared s => I s ∧ prepared.map (·.change) = targets.map Prod.fst ∧
        prepared.map (·.pending.id) =
          (List.range' index targets.length).map (.operation action operationId) ∧
        ∀ p ∈ prepared, PreparedFor s₀.disk s.blobs changeSet (decide (action = .undo)) p)
      (fun _ s => I s ∧ ¬∀ t ∈ targets, ∃ u,
        changeSnapshot s₀.blobs t.1 (decide (action = .undo)) = .ok u) C := by
  induction targets generalizing index I with
  | nil => exact Triple.pure fun s hs => ⟨hs, rfl, rfl, by simp⟩
  | cons t rest ih =>
    obtain ⟨change, target⟩ := t
    have hb := hbound _ (List.mem_cons_self)
    refine Triple.bind (R := fun desired s => I s ∧
      changeSnapshot s.blobs change (decide (action = .undo)) = .ok desired) ?_ fun desired => ?_
    · refine Triple.reading (fun s u hs hu => ⟨hs, hu⟩) fun s fault hs hf => ⟨hs, fun ha => ?_⟩
      obtain ⟨u, hu⟩ := ha _ (List.mem_cons_self)
      rw [changeSnapshot_mono (hidle s hs).blobs hu] at hf
      cases hf
    have hI' : GrowsWithBlobs fun s => I s ∧
        changeSnapshot s.blobs change (decide (action = .undo)) = .ok desired :=
      ⟨fun s hs => hI.sound s hs.1, fun s b hs he hs' =>
        ⟨hI.grow s b hs.1 he hs', changeSnapshot_mono he hs.2⟩⟩
    refine Triple.assume (F := ∀ u, desired = some u → u.Restorable s₀.disk.linkMode)
      (fun s hs u hu => hrec change (by simp) _ _ u (hu ▸ hs.2)) fun hdesired => ?_
    have hcurrent : ∀ u, target.snapshot = some u → u.Captured := by
      intro u hu
      rw [hb.snapshot] at hu
      exact Disk.snapshot_captured hu
    refine Triple.bind (operationPending_spec hI' (fun s hs => hC s hs.1)
      (.operation action operationId index) changeSet change hcurrent
      fun u hu => (hdesired u hu).captured) fun pending => ?_
    refine Triple.assume (fun s hs => hs.2.id) fun hid => ?_
    have hI'' : GrowsWithBlobs fun s => I s ∧
        PreparedFor s₀.disk s.blobs changeSet (decide (action = .undo))
          ⟨change, target, desired, pending⟩ :=
      ⟨fun s hs => hI.sound s hs.1, fun s b hs he hs' =>
        ⟨hI.grow s b hs.1 he hs', hs.2.mono he⟩⟩
    refine Triple.bind (((ih hI'' (fun s hs => hidle s hs.1) (fun s hs => hC s hs.1)
      (fun c hc => hrec c (by simp at hc ⊢; exact Or.inr hc))
      (fun t ht => hbound t (List.mem_cons_of_mem _ ht)) (index + 1)).pre ?_).fault
      fun _ s ⟨hs, hn⟩ => ⟨hs.1, fun ha => hn fun t ht => ha t (List.mem_cons_of_mem _ ht)⟩)
      fun prepared => ?_
    · rintro s ⟨⟨hs, hdes⟩, hrow⟩
      refine ⟨hs, ⟨?_, hb.snapshot, hdesired⟩, hdes, ?_⟩
      · exact hb
      · exact hid ▸ hrow
    · refine Triple.pure fun s ⟨⟨hs, hfirst⟩, hmap, hids, hall⟩ => ⟨hs, ?_, ?_, ?_⟩
      · simp [hmap]
      · simp [hids, hid, List.range'_succ]
      · intro p hp
        rcases List.mem_cons.mp hp with rfl | hp
        · exact hfirst
        · exact hall p hp

/-- The direction of an operation. -/
def actionOf (undo : Bool) : Action := if undo then .undo else .redo

/-- The merged changes in the order in which an operation restores them. -/
def restoreOrder (undo : Bool) (changes : List FileChange) : List FileChange :=
  if undo then changes.reverse else changes

omit [ContentHash] in
/-- Ordering the changes keeps them. -/
theorem mem_restoreOrder {c : FileChange} :
    c ∈ restoreOrder undo changes ↔ c ∈ changes := by
  cases undo <;> simp [restoreOrder]

/-- What an operation has prepared. -/
structure Prepared (s₀ : ChangeState) (b : BlobStore) (changeSet : ChangeSet) (undo : Bool)
    (changes : List FileChange) (prepared : List PreparedRestore) : Prop where
  order : prepared.map (·.change) = restoreOrder undo changes
  ids : ∃ operationId, s₀.supply ≤ operationId ∧ prepared.map (·.pending.id) =
    (List.range' 0 changes.length).map (.operation (actionOf undo) operationId)
  items : ∀ p ∈ prepared, PreparedFor s₀.disk b changeSet undo p
  clear : ∀ c ∈ changes, ∀ q, q <:+ c.path.parent → s₀.disk.outline q ≠ some false
  matching : ∀ c ∈ changes, Matches s₀.blobs s₀.disk undo c

/-- Prepared items stay so in a larger blob store. -/
theorem Prepared.mono {b b' : BlobStore} {prepared : List PreparedRestore}
    (h : Prepared s₀ b changeSet undo changes prepared) (he : b.Extends b') :
    Prepared s₀ b' changeSet undo changes prepared :=
  ⟨h.order, h.ids, fun p hp => (h.items p hp).mono he, h.clear, h.matching⟩

/-- A changed path for which an operation can be prepared. -/
structure Preparable (b : BlobStore) (d : Disk) (undo : Bool) (c : FileChange) : Prop where
  inspectable : Inspectable b d undo c
  matching : Matches b d undo c
  desired : ∃ u, changeSnapshot b c undo = .ok u

/-- Preparing an operation only adds blobs; it fails where a path cannot be prepared. -/
theorem prepare_spec (hC : ∀ s, Idle s₀ s → C s)
    (changeSet : ChangeSet) (changes : List FileChange) (undo : Bool)
    (hrec : RecordsRestorable s₀.disk.linkMode changes) :
    Triple (fun s => Idle s₀ s ∧ s.blobs = s₀.blobs) (prepare changeSet changes undo)
      (fun prepared s => Idle s₀ s ∧ Prepared s₀ s.blobs changeSet undo changes prepared)
      (fun _ s => Idle s₀ s ∧ ¬∀ c ∈ changes, Preparable s₀.blobs s₀.disk undo c) C := by
  refine Triple.bind ((bindTargets_spec s₀.blobs undo changes).fault fun _ s ⟨hs, hn⟩ =>
    ⟨hs.1, fun ha => hn fun c hc => (ha c hc).inspectable⟩) ?_
  rintro ⟨targets, conflicts⟩
  refine Triple.assume (fun _ hs => hs.2) fun ⟨hmap, hbound, hclear, hconf⟩ => ?_
  by_cases hc : conflicts = []
  · have hmatch := hconf.mp hc
    have hflag : decide ((if undo = true then Action.undo else Action.redo) = Action.undo) =
        undo := by
      cases undo <;> rfl
    have horder : ((if undo = true then targets.reverse else targets).map Prod.fst) =
        restoreOrder undo changes := by
      cases undo <;> simp [restoreOrder, ← hmap]
    have hmem : ∀ t, t ∈ (if undo = true then targets.reverse else targets) ↔ t ∈ targets := by
      cases undo <;> simp
    have hlen : (if undo = true then targets.reverse else targets).length = changes.length := by
      rw [← hmap]
      cases undo <;> simp
    subst hc
    simp only [ne_eq, not_true_eq_false, if_false]
    refine Triple.bind (R := fun n s => s₀.supply ≤ n ∧ Idle s₀ s)
      (Triple.newIdentifier fun s ⟨⟨hs, _⟩, _⟩ => ⟨hs.supply, hs.store, hs.blobs, hs.sound,
        hs.pass, hs.pins, Nat.le_succ_of_le hs.supply⟩) fun operationId => ?_
    refine Triple.assume (fun _ hs => hs.1) fun hfresh => ?_
    refine (prepareItems_spec (Idle.grows s₀) (fun _ h => h) hC _ operationId changeSet _
      (horder ▸ fun c hc => hrec c (mem_restoreOrder.1 hc))
      (fun t ht => hbound t ((hmem t).mp ht)) 0).conseq (fun _ h => h.2) ?_ ?_ (fun _ h => h)
    · rintro prepared s ⟨hs, hch, hids, hall⟩
      rw [hflag] at hall
      rw [hlen] at hids
      exact ⟨hs, hch.trans horder, ⟨operationId, hfresh, hids⟩, hall, hclear, hmatch⟩
    · rintro _ s ⟨hs, hn⟩
      refine ⟨hs, fun ha => hn fun t ht => ?_⟩
      rw [hflag]
      refine (ha t.1 ?_).desired
      rw [← hmap]
      exact List.mem_map_of_mem ((hmem t).mp ht)
  · simp only [ne_eq, hc, not_false_eq_true, if_true]
    refine Triple.bind (R := fun _ _ => False) (Triple.throw fun s hs => ⟨hs.1.1, fun ha => ?_⟩)
      fun _ s hs => hs.elim
    exact hc (hconf.mpr fun c hc => (ha c hc).matching)

/-- An operation that has restored some of its items. -/
structure Restoring (s₀ : ChangeState) (store : ChangeSetStore) (done : List PassItem)
    (s : ChangeState) : Prop where
  store : s.store = store
  blobs : s₀.blobs.Extends s.blobs
  sound : s.blobs.Sound
  pass : PassState s₀.disk done s.tree

/-- One prepared item is restored, or nothing happens and a fault is reported. -/
theorem restoreItem_mixed {p : PreparedRestore}
    (hx : p.item.path ∉ done.map PassItem.path) (hb : ItemBound s₀.disk p.item p.target)
    (hC : ∀ s, Restoring s₀ store done s ∨ Restoring s₀ store (done ++ [p.item]) s → C s)
    :
    Triple (Restoring s₀ store done)
      (Proc.attempt (Proc.durable
        (onTree (WorkspaceTreeTransaction.restore p.target p.desired))))
      (fun r s => (r = .ok p.desired ∧ Restoring s₀ store (done ++ [p.item]) s) ∨
        (∃ fault, r = .error fault) ∧ Restoring s₀ store done s) E C := by
  refine Triple.attempt (Triple.durable (Q := fun r s => r = p.desired ∧
    Restoring s₀ store (done ++ [p.item]) s) (E := fun _ s => Restoring s₀ store done s)
    (Hoare.onTree fun s hs => ?_) (fun _ s h => hC s (Or.inr h.2)) (fun _ s h => hC s (Or.inl h))
    |>.conseq (fun _ h => h) ?_ ?_ (fun _ h => h))
  · exact (restore_mixed hs.pass hx hb).mono
      (fun r t ⟨hr, ht⟩ => ⟨hr, hs.store, hs.blobs, hs.sound, ht⟩)
      (fun _ t ht => ⟨hs.store, hs.blobs, hs.sound, ht⟩)
  · rintro r s ⟨rfl, hs⟩
    exact Or.inl ⟨rfl, hs⟩
  · exact fun fault s hs => Or.inr ⟨⟨fault, rfl⟩, hs⟩

/-- Restoring the items of a safe pass never fails. -/
theorem restoreItems_safe {rest : List PreparedRestore} {applied : List PreparedRestore}
    (hb : ∀ p ∈ rest, ItemBound s₀.disk p.item p.target)
    (hn : ((done ++ rest.map PreparedRestore.item).map PassItem.path).Nodup)
    (hsafe : ∀ before x after, rest.map PreparedRestore.item = before ++ x :: after →
      StepSafe s₀.disk.outline ((done ++ before).map PassItem.step) x.step)
    (hC : ∀ before s, before <+: rest.map PreparedRestore.item →
      Restoring s₀ store (done ++ before) s → C s) :
    Triple (fun s => Restoring s₀ store done s ∧ PassPins s₀.disk done s.tree)
      (restoreItems applied rest)
      (fun r s => r = (applied ++ rest, none) ∧
        Restoring s₀ store (done ++ rest.map PreparedRestore.item) s) E C := by
  induction rest generalizing done applied with
  | nil => exact Triple.pure fun s hs => by simpa using hs.1
  | cons p rest ih =>
    have hp := hb p (List.mem_cons_self)
    have hstep := hsafe [] p.item (rest.map PreparedRestore.item) rfl
    rw [List.append_nil] at hstep
    simp only [List.map_append, List.map_cons, List.nodup_append, List.nodup_cons] at hn
    have hx : p.item.path ∉ done.map PassItem.path := by
      intro hmem
      exact hn.2.2 _ hmem _ (List.mem_cons_self) rfl
    refine Triple.bind (R := fun r s => r = .ok p.desired ∧
      Restoring s₀ store (done ++ [p.item]) s ∧ PassPins s₀.disk (done ++ [p.item]) s.tree) ?_
      fun r => ?_
    · refine Triple.attempt ((Triple.durable (Q := fun r s => r = p.desired ∧
        Restoring s₀ store (done ++ [p.item]) s ∧ PassPins s₀.disk (done ++ [p.item]) s.tree)
        (E := fun _ _ => False) (Hoare.onTree fun s hs => ?_) ?_ (fun _ _ h => h.elim)).conseq
        (fun _ h => h) (fun _ s h => ⟨congrArg _ h.1, h.2⟩) (fun _ _ h => h.elim)
        (fun _ h => h))
      · obtain ⟨t, hrun, hpass, hpins⟩ :=
          restore_safe hs.1.pass hs.2 hn.1 hx hp hstep rfl
        have hrun' : WorkspaceTreeTransaction.restore p.target p.desired s.tree =
            .ok p.desired t := hrun
        rw [hrun']
        exact ⟨rfl, ⟨hs.1.store, hs.1.blobs, hs.1.sound, hpass⟩, hpins⟩
      · rintro _ s ⟨_, hs, _⟩
        exact hC [p.item] s ⟨_, rfl⟩ hs
    · refine Triple.assume (fun _ hs => hs.1) ?_
      rintro rfl
      simp only [snapshotsMatch_self, if_true]
      have happ : ∀ l, done ++ p.item :: l = done ++ [p.item] ++ l := by simp
      refine ((@ih (done ++ [p.item]) (applied ++ [p])
        (fun q hq => hb q (List.mem_cons_of_mem _ hq)) ?_ ?_ ?_).pre fun s hs => hs.2).post ?_
      · simp only [List.map_append, List.map_cons, List.append_assoc,
          List.cons_append, List.nil_append, List.nodup_append, List.nodup_cons]
        exact hn
      · intro before x after hsplit
        have := hsafe (p.item :: before) x after (by simp [hsplit])
        rwa [happ] at this
      · intro before s hprefix hs
        refine hC (p.item :: before) s ?_ (by rwa [happ])
        simpa using hprefix
      · rintro r s ⟨rfl, hs⟩
        refine ⟨by simp, ?_⟩
        simpa using hs

/-- The store with the rows of some prepared items. -/
def savedRows (store : ChangeSetStore) (prepared : List PreparedRestore) : ChangeSetStore :=
  prepared.foldl (fun store p => store.savePending p.pending) store

/-- The store without the rows of some prepared items. -/
def deletedRows (store : ChangeSetStore) (prepared : List PreparedRestore) : ChangeSetStore :=
  prepared.foldl (fun store p => store.deletePending p.pending.id) store

omit [ContentHash] in
private theorem savedRows_snoc (store : ChangeSetStore) (done : List PreparedRestore)
    (p : PreparedRestore) :
    savedRows store (done ++ [p]) = (savedRows store done).savePending p.pending := by
  simp [savedRows]

omit [ContentHash] in
private theorem deletedRows_snoc (store : ChangeSetStore) (done : List PreparedRestore)
    (p : PreparedRestore) :
    deletedRows store (done ++ [p]) = (deletedRows store done).deletePending p.pending.id := by
  simp [deletedRows]

omit [ContentHash] in
/-- Saving rows leaves the change sets. -/
@[simp] theorem savedRows_changeSets (store : ChangeSetStore) (done : List PreparedRestore) :
    (savedRows store done).changeSets = store.changeSets := by
  induction done using List.reverseRecOn with
  | nil => rfl
  | append_singleton done p ih => rw [savedRows_snoc]; exact ih

omit [ContentHash] in
/-- Deleting rows leaves the change sets. -/
@[simp] theorem deletedRows_changeSets (store : ChangeSetStore) (done : List PreparedRestore) :
    (deletedRows store done).changeSets = store.changeSets := by
  induction done using List.reverseRecOn with
  | nil => rfl
  | append_singleton done p ih => rw [deletedRows_snoc]; exact ih

/-- Saving the rows leaves everything else as it is. -/
theorem savePendings_spec (prepared : List PreparedRestore)
    (hC : ∀ done s, done <+: prepared → Restoring s₀ (savedRows s₀.store done) [] s → C s)
    :
    Triple (Idle s₀) (prepared.forM fun item => onStore fun s => s.savePending item.pending)
      (fun _ s => Restoring s₀ (savedRows s₀.store prepared) [] s ∧
        PassPins s₀.disk [] s.tree) E C := by
  refine (Triple.forM (fun done todo s => done ++ todo = prepared ∧
    Restoring s₀ (savedRows s₀.store done) [] s ∧ PassPins s₀.disk [] s.tree) ?_ prepared).conseq
    ?_ ?_ (fun _ _ h => h) (fun _ h => h)
  · intro done p todo
    refine Triple.onStore (Q := fun s => done ++ [p] ++ todo = prepared ∧
      Restoring s₀ (savedRows s₀.store (done ++ [p])) [] s ∧ PassPins s₀.disk [] s.tree) ?_ ?_
    · rintro s ⟨hsplit, hs, hpins⟩
      refine ⟨by simpa using hsplit, ⟨?_, hs.blobs, hs.sound, hs.pass⟩, hpins⟩
      rw [savedRows_snoc, ← hs.store]
    · rintro s ⟨hsplit, hs, _⟩
      exact hC _ s ⟨todo, hsplit⟩ hs
  · exact fun s hs => ⟨rfl, ⟨hs.store, hs.blobs, hs.sound, hs.pass⟩, hs.pins⟩
  · rintro _ s ⟨hsplit, hs⟩
    rw [List.append_nil] at hsplit
    exact hs

omit [ContentHash] in
/-- Deleting the rows leaves everything else as it is. -/
theorem deletePendings_spec {I : ChangeSetStore → ChangeState → Prop}
    (hI : ∀ st s (f : ChangeSetStore → ChangeSetStore), I st s →
      I (f st) { s with store := f s.store })
    (store : ChangeSetStore) (prepared : List PreparedRestore)
    (hC : ∀ done s, done <+: prepared → I (deletedRows store done) s → C s)
    :
    Triple (I store) (deletePendings prepared)
      (fun _ s => I (deletedRows store prepared) s) E C := by
  refine (Triple.forM (fun done todo s => done ++ todo = prepared ∧
    I (deletedRows store done) s) ?_ prepared).conseq ?_ ?_ (fun _ _ h => h) (fun _ h => h)
  · intro done p todo
    refine Triple.onStore (Q := fun s => done ++ [p] ++ todo = prepared ∧
      I (deletedRows store (done ++ [p])) s) ?_ ?_
    · rintro s ⟨hsplit, hs⟩
      refine ⟨by simpa using hsplit, ?_⟩
      rw [deletedRows_snoc]
      exact hI _ s (fun st => st.deletePending p.pending.id) hs
    · rintro s ⟨hsplit, hs⟩
      exact hC _ s ⟨todo, hsplit⟩ hs
  · exact fun s hs => ⟨rfl, hs⟩
  · rintro _ s ⟨hsplit, hs⟩
    rw [List.append_nil] at hsplit
    exact hs

end AwesomeAgent
