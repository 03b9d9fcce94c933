import AwesomeAgent.Changes.OperationPoints
import AwesomeAgent.Changes.RecoveryRules
import Mathlib.Data.List.Dedup

/-!
# Recovery of an interrupted operation

Recovery finds the rows of one operation. It rolls the restored paths back when the
ChangeSet still has its old lifecycle, and only checks them when it was committed.
-/

namespace AwesomeAgent

open ChangeJournal ChangeOperations

/-- The rows of some prepared items. -/
def rowsOf (prepared : List PreparedRestore) : List PendingMutation :=
  prepared.map (·.pending)

/-- Saving the rows of prepared items adds them. -/
theorem Added.savedRows {base store : ChangeSetStore} {rows : List PendingMutation}
    {prepared : List PreparedRestore} (h : Added base rows store)
    (hn : ((rows ++ rowsOf prepared).map (·.id)).Nodup)
    (hbase : ∀ p ∈ prepared, ∀ q ∈ base.pendings.rows, q.id ≠ p.pending.id) :
    Added base (rows ++ rowsOf prepared) (savedRows store prepared) := by
  induction prepared generalizing rows store with
  | nil => simpa [rowsOf, AwesomeAgent.savedRows] using h
  | cons p prepared ih =>
    have hsplit : rows ++ rowsOf (p :: prepared) = (rows ++ [p.pending]) ++ rowsOf prepared := by
      simp [rowsOf]
    have hrow : ∀ q ∈ rows, q.id ≠ p.pending.id := by
      intro q hq he
      rw [List.map_append, List.nodup_append] at hn
      exact hn.2.2 _ (List.mem_map_of_mem hq) _ (by simp [rowsOf]) he
    rw [hsplit] at hn ⊢
    exact ih (h.savePending hrow (hbase p (by simp))) hn fun q hq => hbase q (by simp [hq])

/-- Deleting the rows of the first items leaves those of the others. -/
theorem Added.deletedRows {base store : ChangeSetStore} {done rest : List PreparedRestore}
    (h : Added base (rowsOf (done ++ rest)) store)
    (hn : ((rowsOf (done ++ rest)).map (·.id)).Nodup)
    (hbase : ∀ p ∈ done, ∀ q ∈ base.pendings.rows, q.id ≠ p.pending.id) :
    Added base (rowsOf rest) (deletedRows store done) := by
  induction done generalizing store with
  | nil => exact h
  | cons p done ih =>
    rw [List.cons_append, rowsOf, List.map_cons, List.map_cons, List.nodup_cons] at hn
    have hrow : ∀ q ∈ rowsOf (done ++ rest), q.id ≠ p.pending.id :=
      fun q hq he => hn.1 (he ▸ List.mem_map_of_mem hq)
    exact ih (h.deletePending hrow (hbase p (by simp))) hn.2 fun q hq => hbase q (by simp [hq])

private theorem insertionSort_operation {items rows : List PendingMutation} {action : Action}
    {operationId : Nat} {index : PendingMutation → Nat}
    (hids : ∀ p ∈ rows, p.id = .operation action operationId (index p))
    (hsorted : (rows.map index).Pairwise (· < ·)) (hperm : items.Perm rows) :
    items.insertionSort (fun a b => a.id.le b.id = true) = rows := by
  have hle : ∀ a ∈ rows, ∀ b ∈ rows, a.id.le b.id = true ↔ index a ≤ index b := by
    intro a ha b hb
    rw [hids a ha, hids b hb]
    simp [PendingId.le]
  have hpairwise : (items.insertionSort fun a b => a.id.le b.id = true).Pairwise
      fun a b => index a ≤ index b := by
    rw [← List.pairwise_map (f := index) (R := (· ≤ ·)), List.map_insertionSort _ (· ≤ ·)]
    · exact List.pairwise_insertionSort _ _
    · exact fun a ha b hb => hle a (hperm.mem_iff.mp ha) b (hperm.mem_iff.mp hb)
  have hrows : rows.Pairwise fun a b => index a < index b := List.pairwise_map.mp hsorted
  have hperm' := (List.perm_insertionSort (fun a b : PendingMutation => a.id.le b.id = true)
    items).trans hperm
  refine hperm'.eq_of_pairwise (fun a b ha hb hab hba => ?_) hpairwise
    (hrows.imp fun h => Nat.le_of_lt h)
  have hinj : ∀ a ∈ rows, ∀ b ∈ rows, index a = index b → a = b := by
    have hnodup : (rows.map index).Nodup := hsorted.imp fun h => Nat.ne_of_lt h
    exact fun a ha b hb => List.inj_on_of_nodup_map hnodup ha hb
  exact hinj a (hperm'.mem_iff.mp ha) b hb (Nat.le_antisymm hab hba)

variable [ContentHash]

/-- A row whose path can be inspected and is in one of its two announced states. -/
structure RowReady (b : BlobStore) (d : Disk) (p : PendingMutation)
    (before intended : Option NodeSnapshot) : Prop where
  clear : ∀ q, q <:+ p.relativePath.parent → d.outline q ≠ some false
  capturable : ∀ e, d.lstat p.relativePath.parts = some e → e.Capturable
  reached : d.snapshot p.relativePath.parts = before ∨
    d.snapshot p.relativePath.parts = intended
  restorable : ∀ u, before = some u → u.Restorable d.linkMode
  original : pendingSnapshot b p true = .ok before
  announced : pendingSnapshot b p false = .ok intended

/-- A row that recovery has bound. -/
structure RowBound (b : BlobStore) (d : Disk) (r : RecoveryRow) : Prop
    extends RowReady b d r.pending r.before r.intended where
  bound : Bound d r.pending.relativePath r.target

/-- What recovery does to the path of a row. -/
def RecoveryRow.item (d : Disk) (r : RecoveryRow) : PassItem :=
  let current := d.snapshot r.pending.relativePath.parts
  ⟨r.pending.relativePath, current, r.before, decide (current ≠ r.before)⟩

private theorem RowBound.itemBound {b : BlobStore} {d : Disk} {r : RecoveryRow} (h : RowBound b d r)
    :
    ItemBound d (r.item d) r.target :=
  ⟨h.bound, rfl, h.restorable⟩

section Rows

variable {store : ChangeSetStore} {b : BlobStore} {d : Disk} {C : ChangeState → Prop}
  {E : Fault → ChangeState → Prop}

private theorem bindRows_spec (items : List PendingMutation)
    (hready : ∀ p ∈ items, ∃ before intended, RowReady b d p before intended) :
    Triple (Within store b d []) (bindRows items)
      (fun rows s => (rows.map (·.pending) = items ∧ ∀ r ∈ rows, RowBound b d r) ∧
        Within store b d [] s) E C := by
  induction items with
  | nil => exact Triple.pure fun s hs => ⟨⟨rfl, by simp⟩, hs⟩
  | cons p items ih =>
    obtain ⟨before, intended, hp⟩ := hready p (by simp)
    have hn : (([] : List PassItem).map PassItem.path).Nodup := List.nodup_nil
    refine Triple.bind (Within.bind hn ⟨hp.clear, fun _ _ hs => hs⟩
      fun s hs e he => hp.capturable e ((hs.lstat _).symm.trans he)) fun target => ?_
    refine Triple.assume (fun s hs => hs.1.bound hs.2) fun hb => ?_
    refine Triple.bind ((Within.read (a := before) fun s hs => hs.blobs ▸ hp.original).pre
      fun _ hs => hs.1) fun r => ?_
    refine Triple.assume (fun _ hs => hs.1) ?_
    rintro rfl
    refine Triple.bind ((Within.read (a := intended) fun s hs => hs.blobs ▸ hp.announced).pre
      fun _ hs => hs.2) fun r' => ?_
    refine Triple.assume (fun _ hs => hs.1) ?_
    rintro rfl
    have hmatch : (snapshotsMatch target.snapshot r || snapshotsMatch target.snapshot r') =
        true := by
      rw [hb.snapshot]
      rcases hp.reached with h | h <;> simp [h]
    rw [if_pos hmatch]
    refine Triple.bind ((ih fun q hq => hready q (by simp [hq])).pre fun _ hs => hs.2)
      fun rows => Triple.pure ?_
    rintro s ⟨⟨hmap, hall⟩, hs⟩
    exact ⟨⟨by simp [hmap], List.forall_mem_cons.mpr ⟨⟨hp, hb⟩, hall⟩⟩, hs⟩

variable {rows : List RecoveryRow} {done : List PassItem}

/-- Rolling the rows of a safe pass back restores every path that was changed. -/
theorem rollbackRows_spec (hb : ∀ r ∈ rows, RowBound b d r)
    (hn : ((rows.map (RecoveryRow.item d)).map PassItem.path).Nodup)
    (hsafe : SafePass d.outline ((rows.map (RecoveryRow.item d)).map PassItem.step))
    (hC : ∀ s, C s) :
    Triple (Within store b d []) (rows.forM rollbackRow)
      (fun _ => Within store b d (rows.map (RecoveryRow.item d))) E C := by
  refine (Triple.forM (fun done todo s => done ++ todo = rows ∧
    Within store b d (done.map (RecoveryRow.item d)) s) ?_ rows).conseq
    (fun s hs => ⟨rfl, hs⟩) (fun _ s hs => ?_) (fun _ _ h => h) (fun _ h => h)
  · intro done r todo
    refine Triple.assume (fun _ hs => hs.1) fun hsplit => ?_
    have hr := hb r (by simp [← hsplit])
    have hmap : rows.map (RecoveryRow.item d) = done.map (RecoveryRow.item d) ++
        r.item d :: todo.map (RecoveryRow.item d) := by simp [← hsplit]
    have hstep := hsafe.step ((done.map (RecoveryRow.item d)).map PassItem.step) (r.item d).step
      ((todo.map (RecoveryRow.item d)).map PassItem.step) (by simp [hmap])
    rw [hmap, List.map_append, List.nodup_append] at hn
    have hx : (r.item d).path ∉ (done.map (RecoveryRow.item d)).map PassItem.path :=
      fun hmem => hn.2.2 _ hmem _ (by simp) rfl
    have hnext : (done ++ [r]).map (RecoveryRow.item d) =
        done.map (RecoveryRow.item d) ++ [r.item d] := by simp
    refine Triple.bind ((Within.capture hn.1 hx hr.itemBound hstep).pre fun _ hs => hs.2)
      fun current => ?_
    refine Triple.assume (fun _ hs => hs.1) ?_
    rintro rfl
    have hcaptured : ∀ u ∈ (r.item d).start, u.Captured := fun u hu => Disk.snapshot_captured hu
    by_cases hsame : (r.item d).start = r.before
    · rw [if_pos (by rw [hsame]; exact snapshotsMatch_self _)]
      refine Triple.pure fun s hs => ⟨by simpa using hsplit, ?_⟩
      rw [hnext]
      exact hs.2.skip hx hr.itemBound (decide_eq_false (not_not_intro hsame)) hsame
    · have hintended : (r.item d).start = r.intended := hr.reached.resolve_left hsame
      have hne : snapshotsMatch (r.item d).start r.before ≠ true := fun hm =>
        hsame ((snapshotsMatch_iff hcaptured fun u hu => (hr.restorable u hu).captured).mp hm)
      rw [if_neg hne, if_neg (by rw [hintended, snapshotsMatch_self]; simp)]
      refine Triple.bind ((Within.restore hn.1 hx hr.itemBound hstep
        (decide_eq_true hsame) hC).pre fun _ hs => hs.2) fun restored => ?_
      refine Triple.assume (fun _ hs => hs.1) ?_
      rintro rfl
      rw [if_neg (by
        change ¬snapshotsMatch r.before r.before = false
        rw [snapshotsMatch_self]
        simp)]
      refine Triple.pure fun s hs => ⟨by simpa using hsplit, ?_⟩
      rw [hnext]
      exact hs.2
  · exact hs.2

private theorem checkRolledBack_spec
    (hn : (done.map PassItem.path).Nodup) (hdone : ∀ r ∈ rows, r.item d ∈ done)
    (hfree : ∀ r ∈ rows, PathFree d.outline (done.map PassItem.step) r.pending.relativePath) :
    Triple (Within store b d done) (rows.forM checkRolledBack) (fun _ => Within store b d done)
      E C := by
  induction rows with
  | nil => exact Triple.pure fun _ hs => hs
  | cons r rows ih =>
    refine Triple.bind (R := fun _ => Within store b d done) ?_ fun _ =>
      ih (fun q hq => hdone q (by simp [hq])) fun q hq => hfree q (by simp [hq])
    refine Triple.bind (Within.bind hn (hfree r (by simp)) fun s hs =>
      (hs.pass.settled _ (hdone r (by simp))).2) fun current => ?_
    refine Triple.assume (F := current.snapshot = r.before) ?_ fun hcurrent => ?_
    · rintro s ⟨hs, hb⟩
      exact hb.snapshot.trans (hs.pass.settled _ (hdone r (by simp))).1
    rw [if_neg (by rw [hcurrent, snapshotsMatch_self]; simp)]
    exact Triple.pure fun _ hs => hs.1

private theorem checkCommitted_spec (hb : ∀ r ∈ rows, RowBound b d r)
    (hreached : ∀ r ∈ rows, d.snapshot r.pending.relativePath.parts = r.intended) :
    Triple (Within store b d []) (rows.forM checkCommitted) (fun _ => Within store b d [])
      E C := by
  induction rows with
  | nil => exact Triple.pure fun _ hs => hs
  | cons r rows ih =>
    refine Triple.bind (R := fun _ => Within store b d []) ?_ fun _ =>
      ih (fun q hq => hb q (by simp [hq])) fun q hq => hreached q (by simp [hq])
    have hr := hb r (by simp)
    refine Triple.bind (Within.captureBound hr.clear hr.bound) fun current => ?_
    refine Triple.assume (fun _ hs => hs.1) ?_
    rintro rfl
    rw [if_neg (by rw [hreached r (by simp), snapshotsMatch_self]; simp)]
    exact Triple.pure fun _ hs => hs.2

omit [ContentHash] in
private theorem deleteRows_spec
    {prepared : List PreparedRestore} (hrows : rows.map (·.pending) = rowsOf prepared)
    (hC : ∀ s, C s) :
    Triple (Within store b d done)
      (rows.forM fun row => onStore fun s => s.deletePending row.pending.id)
      (fun _ => Within (deletedRows store prepared) b d done) E C := by
  induction rows generalizing store prepared with
  | nil =>
    obtain rfl : prepared = [] := by simpa [rowsOf] using hrows.symm
    exact Triple.pure fun _ hs => hs
  | cons r rows ih =>
    cases prepared with
    | nil => simp [rowsOf] at hrows
    | cons p prepared =>
      simp only [rowsOf, List.map_cons, List.cons.injEq] at hrows
      refine Triple.bind (Within.statement hC) fun _ => ?_
      rw [hrows.1]
      exact ih hrows.2

end Rows

/-- What recovery does to the path of a prepared item. -/
def PreparedRestore.recovered (d : Disk) (p : PreparedRestore) : PassItem :=
  let current := d.snapshot p.change.path.parts
  ⟨p.change.path, current, p.target.snapshot, decide (current ≠ p.target.snapshot)⟩

/-- The rows of one operation with everything that recovery needs of them. -/
structure Interrupted (w : WorkspaceIdentity) (changeSet : ChangeSet) (action : Action)
    (b : BlobStore) (d : Disk) (prepared : List PreparedRestore) : Prop where
  rows : prepared ≠ []
  workspace : changeSet.workspaceKey = w.key
  owned : ∀ p ∈ prepared, p.pending.changeSetId = changeSet.id
  ids : ∃ operationId index, (prepared.map index).Pairwise (· < ·) ∧
    ∀ p ∈ prepared, p.pending.id = .operation action operationId (index p)
  paths : (prepared.map (·.change.path)).Nodup
  path : ∀ p ∈ prepared, p.pending.relativePath = p.change.path
  ready : ∀ p ∈ prepared, RowReady b d p.pending p.target.snapshot p.desired

namespace Interrupted

variable {w : WorkspaceIdentity} {changeSet : ChangeSet} {action : Action} {b : BlobStore}
  {d : Disk} {prepared : List PreparedRestore} {store : ChangeSetStore}
  {items : List PendingMutation} {E : Fault → ChangeState → Prop} {C : ChangeState → Prop}

private theorem sorted (h : Interrupted w changeSet action b d prepared)
    (hperm : items.Perm (rowsOf prepared)) :
    items.insertionSort (fun a b => a.id.le b.id = true) = rowsOf prepared := by
  obtain ⟨operationId, index, hsorted, hids⟩ := h.ids
  let number : PendingMutation → Nat := fun p =>
    match p.id with
    | .operation _ _ n => n
    | .mutation _ => 0
  have hnumber : ∀ p ∈ prepared, number p.pending = index p := by
    intro p hp
    simp [number, hids p hp]
  have hrows : ∀ q ∈ rowsOf prepared, q.id = .operation action operationId (number q) := by
    intro q hq
    obtain ⟨p, hp, rfl⟩ := List.mem_map.mp hq
    rw [hnumber p hp]
    exact hids p hp
  refine insertionSort_operation hrows ?_ hperm
  have hmap : (rowsOf prepared).map number = prepared.map index := by
    rw [rowsOf, List.map_map]
    exact List.map_congr_left hnumber
  rw [hmap]
  exact hsorted

private theorem changeSetIds (h : Interrupted w changeSet action b d prepared)
    (hperm : items.Perm (rowsOf prepared)) :
    (items.map (·.changeSetId)).dedup = [changeSet.id] := by
  have hmem : ∀ q ∈ items, q.changeSetId = changeSet.id := by
    intro q hq
    obtain ⟨p, hp, rfl⟩ := List.mem_map.mp (hperm.mem_iff.mp hq)
    exact h.owned p hp
  have hne : items ≠ [] := by
    rintro rfl
    exact h.rows (by simpa [rowsOf] using hperm.nil_eq.symm)
  have hmap : items.map (·.changeSetId) = List.replicate items.length changeSet.id :=
    List.eq_replicate_iff.mpr ⟨by simp, fun i hi => by
      obtain ⟨q, hq, rfl⟩ := List.mem_map.mp hi
      exact hmem q hq⟩
  rw [hmap]
  exact List.replicate_dedup fun hlen => hne (List.length_eq_zero_iff.mp hlen)

private theorem items_eq (h : Interrupted w changeSet action b d prepared) {rows : List RecoveryRow}
    (hrows : rows.map (·.pending) = rowsOf prepared) (hb : ∀ r ∈ rows, RowBound b d r) :
    rows.map (RecoveryRow.item d) = prepared.map (PreparedRestore.recovered d) := by
  let before : PendingMutation → Option NodeSnapshot := fun p =>
    match pendingSnapshot b p true with
    | .ok u => u
    | .error _ => none
  let item : PendingMutation → PassItem := fun p =>
    let current := d.snapshot p.relativePath.parts
    ⟨p.relativePath, current, before p, decide (current ≠ before p)⟩
  have hrow : ∀ r ∈ rows, r.item d = item r.pending := by
    intro r hr
    simp [RecoveryRow.item, item, before, (hb r hr).original]
  have hprepared : ∀ p ∈ prepared, p.recovered d = item p.pending := by
    intro p hp
    simp [PreparedRestore.recovered, item, before, (h.ready p hp).original, h.path p hp]
  rw [List.map_congr_left hrow, List.map_congr_left hprepared]
  calc rows.map (fun r => item r.pending) = (rows.map (·.pending)).map item := by
        rw [List.map_map]
        rfl
    _ = prepared.map (fun p => item p.pending) := by
        rw [hrows, rowsOf, List.map_map]
        rfl

variable {c : ChangeSet}

private theorem bound_spec (h : Interrupted w changeSet action b d prepared)
    (hperm : items.Perm (rowsOf prepared))
    (hstored : store.get changeSet.id = some c) (hw : c.workspaceKey = w.key)
    (hlife : c.lifecycle = sourceLifecycle action ∨ c.lifecycle = committedLifecycle action)
    {Q : Unit → ChangeState → Prop}
    (hk : ∀ rows : List RecoveryRow, rows.map (·.pending) = rowsOf prepared →
      (∀ r ∈ rows, RowBound b d r) → Triple (Within store b d []) (do
        if c.lifecycle = committedLifecycle action then rows.forM checkCommitted
        else
          rows.reverse.forM rollbackRow
          rows.forM checkRolledBack
        rows.forM fun row => onStore fun s => s.deletePending row.pending.id) Q E C) :
    Triple (Within store b d []) (reconcileOperation w action items) Q E C := by
  rw [reconcileOperation, h.changeSetIds hperm]
  refine Triple.bind (Triple.mapFault (Within.read (a := c) fun s hs => ?_)) fun r => ?_
  · simp [hs.store, hstored, hw]
  refine Triple.assume (fun _ hs => hs.1) ?_
  rintro rfl
  have hvalid : ¬(r.lifecycle ≠ sourceLifecycle action ∧
      r.lifecycle ≠ committedLifecycle action) := by tauto
  dsimp only
  rw [if_neg hvalid, h.sorted hperm]
  refine Triple.bind ((bindRows_spec (rowsOf prepared) ?_).pre fun _ hs => hs.2) fun rows =>
    Triple.assume (fun _ hs => hs.1) fun ⟨hrows, hb⟩ => (hk rows hrows hb).pre fun _ hs => hs.2
  intro q hq
  obtain ⟨p, hp, rfl⟩ := List.mem_map.mp hq
  exact ⟨_, _, h.ready p hp⟩

/-- An operation that was not committed is rolled back by a safe pass. -/
theorem back (h : Interrupted w changeSet action b d prepared)
    (hperm : items.Perm (rowsOf prepared))
    (hstored : store.get changeSet.id = some c) (hw : c.workspaceKey = w.key)
    (hlife : c.lifecycle = sourceLifecycle action)
    (hsafe : SafePass d.outline
      ((prepared.reverse.map (PreparedRestore.recovered d)).map PassItem.step))
    (hfree : ∀ p ∈ prepared, PathFree d.outline
      ((prepared.reverse.map (PreparedRestore.recovered d)).map PassItem.step) p.change.path) :
    Triple (Within store b d []) (reconcileOperation w action items)
      (fun _ => Within (deletedRows store prepared) b d
        (prepared.reverse.map (PreparedRestore.recovered d))) E (fun _ => True) := by
  refine h.bound_spec hperm hstored hw (Or.inl hlife) fun rows hrows hb => ?_
  have hne : c.lifecycle ≠ committedLifecycle action := by
    rw [hlife]
    cases action <;> exact ChangeLifecycle.noConfusion
  have hitems : rows.reverse.map (RecoveryRow.item d) =
      prepared.reverse.map (PreparedRestore.recovered d) := by
    rw [List.map_reverse, List.map_reverse, h.items_eq hrows hb]
  have hn : ((prepared.reverse.map (PreparedRestore.recovered d)).map PassItem.path).Nodup := by
    rw [List.map_map, List.map_reverse]
    exact List.nodup_reverse.mpr h.paths
  rw [if_neg hne]
  rw [← hitems] at hn hsafe hfree ⊢
  refine Triple.bind (rollbackRows_spec (fun r hr => hb r (List.mem_reverse.mp hr)) hn hsafe
    fun _ => trivial) fun _ => ?_
  refine Triple.bind (checkRolledBack_spec hn
    (fun r hr => List.mem_map_of_mem (List.mem_reverse.mpr hr)) fun r hr => ?_) fun _ =>
    deleteRows_spec hrows fun _ => trivial
  have hmem : r.pending ∈ rowsOf prepared := hrows ▸ List.mem_map_of_mem hr
  obtain ⟨p, hp, hpending⟩ := List.mem_map.mp hmem
  rw [← hpending, h.path p hp]
  exact hfree p hp

/-- An operation that was committed is only checked. -/
theorem forth (h : Interrupted w changeSet action b d prepared)
    (hperm : items.Perm (rowsOf prepared))
    (hstored : store.get changeSet.id = some c) (hw : c.workspaceKey = w.key)
    (hlife : c.lifecycle = committedLifecycle action)
    (hreached : ∀ p ∈ prepared, d.snapshot p.change.path.parts = p.desired) :
    Triple (Within store b d []) (reconcileOperation w action items)
      (fun _ => Within (deletedRows store prepared) b d []) E (fun _ => True) := by
  refine h.bound_spec hperm hstored hw (Or.inr hlife) fun rows hrows hb => ?_
  rw [if_pos hlife]
  refine Triple.bind (checkCommitted_spec hb fun r hr => ?_) fun _ =>
    deleteRows_spec hrows fun _ => trivial
  have hmem : r.pending ∈ rowsOf prepared := hrows ▸ List.mem_map_of_mem hr
  obtain ⟨p, hp, hpending⟩ := List.mem_map.mp hmem
  have hannounced := (hb r hr).announced
  rw [← hpending, (h.ready p hp).announced] at hannounced
  rw [← hpending, h.path p hp, ← Except.ok.inj hannounced]
  exact hreached p hp

end Interrupted

/-- With the rows of one operation, a recovery reconciles that operation. -/
theorem reconcilePending_operation {w : WorkspaceIdentity} {only : Option String}
    {u : ChangeState} {changeSetId : String} {action : Action} {rows : List PendingMutation}
    {R : ChangeState → Prop} (hperm : (recoveredRows w only u.store).Perm rows) (hne : rows ≠ [])
    (hown : ∀ p ∈ rows, p.changeSetId = changeSetId)
    (haction : ∀ p ∈ rows, p.id.operationAction = some action)
    (hroot : (u.disk.lstat []).map Entry.identity = some w.rootIdentity)
    (hrec : ∀ items, items.Perm rows → Triple (Within u.store u.blobs u.disk [])
      (reconcileOperation w action items) (fun _ => R) (fun _ _ => False) (fun _ => True)) :
    Triple (fun s => s = u) (reconcilePending w only) (fun _ => R) (fun _ _ => False)
      (fun _ => True) := by
  refine Triple.bind (R := fun r s => r = recoveredRows w only u.store ∧ s = u)
    (Triple.reading ?_ ?_) fun found => ?_
  · rintro s r rfl hr
    cases hr
    exact ⟨rfl, rfl⟩
  · rintro s fault _ hr
    cases hr
  refine Triple.assume (fun _ hs => hs.1) fun hfound => ?_
  rw [← hfound] at hperm
  have hid : ∀ p ∈ found, p.id.operationAction = some action :=
    fun p hp => haction p (hperm.mem_iff.mp hp)
  have hordinary : found.filterMap ordinaryRow = [] := by
    refine List.filterMap_eq_nil_iff.mpr fun p hp => ?_
    have := hid p hp
    cases hpid : p.id with
    | mutation identifier => simp [hpid, PendingId.operationAction] at this
    | operation a o n => simp [ordinaryRow, hpid]
  have hoperation : found.filterMap operationRow = found.map fun p => (action, p) := by
    rw [← List.filterMap_eq_map]
    exact List.filterMap_congr fun p hp => by simp [operationRow, hid p hp]
  have hgroup : (Dict.groupBy (fun row : Action × PendingMutation => (row.2.changeSetId, row.1))
      (found.filterMap operationRow)).entries =
      [((changeSetId, action), found.map fun p => (action, p))] := by
    rw [hoperation]
    refine Dict.groupBy_entries (fun hnil => hne ?_) fun x hx => ?_
    · rw [List.map_eq_nil_iff] at hnil
      exact (hnil ▸ hperm).nil_eq.symm
    · obtain ⟨p, hp, rfl⟩ := List.mem_map.mp hx
      rw [hown p (hperm.mem_iff.mp hp)]
  dsimp only
  rw [hordinary, hgroup]
  refine Triple.mapFault (Triple.bind ((Within.enter hroot).pre fun _ hs => hs.2) fun _ => ?_)
  refine Triple.bind (R := fun _ => Within u.store u.blobs u.disk [])
    (Triple.pure fun _ hs => hs) fun _ => ?_
  refine Triple.bind (R := fun _ => R) ?_ fun _ => Triple.pure fun _ hs => hs
  have hitems : (found.map fun p => (action, p)).map Prod.snd = found := by
    rw [List.map_map]
    exact List.map_id found
  dsimp only
  rw [hitems]
  exact hrec found hperm

end AwesomeAgent
