import AwesomeAgent.Changes.Recovery
import AwesomeAgent.Changes.RestorePass
import AwesomeAgent.Changes.StoreRules

/-!
# Rules for the steps of a recovery

A recovery works on known tables and blobs inside one tree transaction. Binding,
capturing and restoring go through where the pass they belong to is safe.
-/

namespace AwesomeAgent

open ChangeJournal

/-- A service with known tables and blobs inside a pass over the disk `d`. -/
structure Within (store : ChangeSetStore) (blobs : BlobStore) (d : Disk) (done : List PassItem)
    (s : ChangeState) : Prop where
  store : s.store = store
  blobs : s.blobs = blobs
  pass : PassState d done s.tree
  pins : PassPins d done s.tree

namespace Within

variable {store : ChangeSetStore} {blobs : BlobStore} {d : Disk} {done : List PassItem}
  {E : Fault → ChangeState → Prop} {C : ChangeState → Prop}

/-- Entering the transaction of a recovery. -/
theorem enter {s₀ : ChangeState} {rootIdentity : FileIdentity}
    (hroot : (s₀.disk.lstat []).map Entry.identity = some rootIdentity) :
    Triple (fun s => s = s₀)
      (Proc.volatile (onTree (WorkspaceTreeTransaction.enter rootIdentity)))
      (fun _ => Within s₀.store s₀.blobs s₀.disk []) E C := by
  refine Triple.volatile (Hoare.onTree ?_)
  rintro s rfl
  obtain ⟨e, he, hid⟩ := Option.map_eq_some_iff.mp hroot
  obtain ⟨t, hrun, _, hpass, hpins⟩ := enter_spec (s := s.tree) he hid
  rw [hrun]
  exact ⟨rfl, rfl, hpass, hpins⟩

/-- A read of the tables and blobs. -/
theorem read {α : Type} {f : ChangeState → Except Fault α} {a : α}
    (hf : ∀ s, Within store blobs d done s → f s = .ok a) :
    Triple (Within store blobs d done) (reading f)
      (fun r s => r = a ∧ Within store blobs d done s) E C := by
  refine Triple.reading (fun s r hs hr => ?_) fun s fault hs hr => ?_
  · rw [hf s hs] at hr
    cases hr
    exact ⟨rfl, hs⟩
  · rw [hf s hs] at hr
    cases hr

/-- A statement changes the tables. -/
theorem statement {f : ChangeSetStore → ChangeSetStore} (hC : ∀ s, C s) :
    Triple (Within store blobs d done) (onStore f)
      (fun _ => Within (f store) blobs d done) E C :=
  Triple.onStore (fun _ hs => ⟨congrArg f hs.store, hs.blobs, hs.pass, hs.pins⟩) fun s _ => hC s

/-- Binding a free path reports the node that is there. -/
theorem bind {path : RelativePath} (hn : (done.map PassItem.path).Nodup)
    (hfree : PathFree d.outline (done.map PassItem.step) path)
    (hcap : ∀ s, Within store blobs d done s →
      ∀ e, s.disk.lstat path.parts = some e → e.Capturable) :
    Triple (Within store blobs d done)
      (Proc.volatile (onTree (WorkspaceTreeTransaction.bind path)))
      (fun b s => Within store blobs d done s ∧ Bound s.disk path b) E C := by
  refine Triple.volatile (Hoare.onTree fun s hs => ?_)
  refine (bind_pass hs.pass hs.pins hn path).mono ?_ ?_
  · rintro b t ⟨hb, hd, hpass, hpins, _⟩
    refine ⟨⟨hs.store, hs.blobs, hpass, hpins⟩, ?_⟩
    change Bound t.disk path b
    rwa [hd]
  · rintro fault t ⟨_, hfail | ⟨e, he, hc⟩⟩
    · exact absurd hfree hfail
    · exact absurd (hcap s hs e he) hc

/-- At the beginning of a pass the nodes are those of its disk. -/
theorem lstat {s : ChangeState} (h : Within store blobs d [] s) (p : NodePath) :
    s.disk.lstat p = d.lstat p :=
  h.pass.untouched p fun x hx => by cases hx

variable {path : RelativePath} {b : BoundWorkspaceNode}

/-- What was bound at the beginning of a pass was bound on its disk. -/
theorem bound {s : ChangeState} (h : Within store blobs d [] s)
    (hb : Bound s.disk path b) : Bound d path b :=
  hb.congr (fun p => (h.lstat p).symm) h.pass.linkMode.symm

/-- Capturing an item that is not done reports its start. -/
theorem capture {x : PassItem} {b : BoundWorkspaceNode} (hn : (done.map PassItem.path).Nodup)
    (hx : x.path ∉ done.map PassItem.path) (hb : ItemBound d x b)
    (hs : StepSafe d.outline (done.map PassItem.step) x.step) :
    Triple (Within store blobs d done)
      (Proc.volatile (onTree (WorkspaceTreeTransaction.capture b)))
      (fun r s => r = x.start ∧ Within store blobs d done s) E C := by
  refine Triple.volatile (Hoare.onTree fun s h => ?_)
  obtain ⟨t, hrun, hpass, hpins⟩ := capture_safe h.pass h.pins hn hx hb hs
  rw [hrun]
  exact ⟨rfl, h.store, h.blobs, hpass, hpins⟩

/-- Capturing a bound path at the beginning of a pass reports its node. -/
theorem captureBound
    (hfree : ∀ q, q <:+ path.parent → d.outline q ≠ some false) (hb : Bound d path b) :
    Triple (Within store blobs d [])
      (Proc.volatile (onTree (WorkspaceTreeTransaction.capture b)))
      (fun r s => r = d.snapshot path.parts ∧ Within store blobs d [] s) E C := by
  let x : PassItem := ⟨path, d.snapshot path.parts, d.snapshot path.parts, false⟩
  have hx : ItemBound d x b := ⟨hb, rfl, fun u hu => Disk.snapshot_restorable hb.capturable hu⟩
  have hsafe : StepSafe d.outline [] x.step := by
    refine ⟨hfree, ?_, fun _ _ hs => hs⟩
    rw [outlineAfter_snoc]
    change Outline.Rooted (Function.update d.outline path.parts
      (outlineOf (d.snapshot path.parts)))
    rw [← Disk.outline_of_capturable hb.capturable, Function.update_eq_self]
    exact d.tree.outline_rooted
  have hn : (([] : List PassItem).map PassItem.path).Nodup := List.nodup_nil
  exact capture hn List.not_mem_nil hx hsafe

/-- What follows binding and capturing a path at the beginning of a pass sees its node. -/
theorem observe {α : Type} {k : Option NodeSnapshot → ChangeProc α}
    {Q : α → ChangeState → Prop} (hfree : ∀ q, q <:+ path.parent → d.outline q ≠ some false)
    (hcap : ∀ e, d.lstat path.parts = some e → e.Capturable)
    (hk : Triple (Within store blobs d []) (k (d.snapshot path.parts)) Q E C) :
    Triple (Within store blobs d [])
      (do
        let target ← Proc.volatile (onTree (WorkspaceTreeTransaction.bind path))
        let current ← Proc.volatile (onTree (WorkspaceTreeTransaction.capture target))
        k current) Q E C := by
  have hpath : PathFree d.outline [] path := ⟨hfree, fun _ _ hs => hs⟩
  have hn : (([] : List PassItem).map PassItem.path).Nodup := List.nodup_nil
  refine Triple.bind (bind hn hpath fun s hs e he =>
    hcap e ((hs.lstat _).symm.trans he)) fun b => ?_
  refine Triple.assume (fun s hs => hs.1.bound hs.2) fun hb => ?_
  refine Triple.bind ((captureBound hfree hb).pre fun _ hs => hs.1) fun r => ?_
  refine Triple.assume (fun _ hs => hs.1) ?_
  rintro rfl
  exact hk.pre fun _ hs => hs.2

/-- A safe step restores its item. -/
theorem restore {x : PassItem} {b : BoundWorkspaceNode} (hn : (done.map PassItem.path).Nodup)
    (hx : x.path ∉ done.map PassItem.path) (hb : ItemBound d x b)
    (hs : StepSafe d.outline (done.map PassItem.step) x.step) (hrestored : x.restored = true)
    (hC : ∀ s, C s) :
    Triple (Within store blobs d done)
      (Proc.durable (onTree (WorkspaceTreeTransaction.restore b x.target)))
      (fun r s => r = x.target ∧ Within store blobs d (done ++ [x]) s) E C := by
  refine (Triple.durable (E := fun _ _ => False) (Hoare.onTree fun s h => ?_) (fun _ s _ => hC s)
    (fun _ _ h => h.elim)).fault fun _ _ h => h.elim
  obtain ⟨t, hrun, hpass, hpins⟩ := restore_safe h.pass h.pins hn hx hb hs hrestored
  rw [hrun]
  exact ⟨rfl, h.store, h.blobs, hpass, hpins⟩

/-- An item that stays as it is can be skipped. -/
theorem skip {x : PassItem} {s : ChangeState}
    (h : Within store blobs d done s) (hx : x.path ∉ done.map PassItem.path)
    (hb : ItemBound d x b) (hskip : x.restored = false) (hsame : x.start = x.target) :
    Within store blobs d (done ++ [x]) s :=
  let ⟨hpass, hpins⟩ := skip_safe h.pass h.pins hx hb hskip hsame
  ⟨h.store, h.blobs, hpass, hpins⟩

end Within

/-- Tables to which some rows were added. -/
structure Added (base : ChangeSetStore) (rows : List PendingMutation) (store : ChangeSetStore) :
    Prop where
  rows : ∀ p, p ∈ store.pendings.rows ↔ p ∈ rows ∨ p ∈ base.pendings.rows
  workspaces : ∀ i, (store.get i).map (·.workspaceKey) = (base.get i).map (·.workspaceKey)

namespace Added

variable {base store : ChangeSetStore} {rows : List PendingMutation}

/-- Nothing was added at first. -/
theorem refl (base : ChangeSetStore) : Added base [] base := ⟨by simp, fun _ => rfl⟩

/-- Announcing a row under a new identifier. -/
theorem savePending (h : Added base rows store) {p : PendingMutation}
    (hrow : ∀ q ∈ rows, q.id ≠ p.id) (hbase : ∀ q ∈ base.pendings.rows, q.id ≠ p.id) :
    Added base (rows ++ [p]) (store.savePending p) := by
  refine ⟨fun q => ?_, h.workspaces⟩
  rw [ChangeSetStore.savePending, Table.mem_put, h.rows, List.mem_append, List.mem_singleton]
  constructor
  · rintro (rfl | ⟨hq | hq, _⟩)
    · exact Or.inl (Or.inr rfl)
    · exact Or.inl (Or.inl hq)
    · exact Or.inr hq
  · rintro ((hq | rfl) | hq)
    · exact Or.inr ⟨Or.inl hq, hrow q hq⟩
    · exact Or.inl rfl
    · exact Or.inr ⟨Or.inr hq, hbase q hq⟩

/-- Deleting the first of the added rows. -/
theorem deletePending {p : PendingMutation} (h : Added base (p :: rows) store)
    (hrow : ∀ q ∈ rows, q.id ≠ p.id) (hbase : ∀ q ∈ base.pendings.rows, q.id ≠ p.id) :
    Added base rows (store.deletePending p.id) := by
  refine ⟨fun q => ?_, h.workspaces⟩
  rw [ChangeSetStore.deletePending, Table.mem_remove, h.rows, List.mem_cons]
  constructor
  · rintro ⟨(rfl | hq) | hq, hne⟩
    · exact absurd rfl hne
    · exact Or.inl hq
    · exact Or.inr hq
  · rintro (hq | hq)
    · exact ⟨Or.inl (Or.inr hq), hrow q hq⟩
    · exact ⟨Or.inr hq, hbase q hq⟩

/-- Saving a ChangeSet of the same workspace. -/
theorem save (h : Added base rows store) {c c' : ChangeSet} (hc : store.get c'.id = some c)
    (hw : c'.workspaceKey = c.workspaceKey) : Added base rows (store.save c') := by
  refine ⟨h.rows, fun i => ?_⟩
  rw [ChangeSetStore.get_save_eq]
  split
  · next he => rw [he, ← h.workspaces, hc, Option.map_some, Option.map_some, hw]
  · exact h.workspaces i

/-- A recovery looks at the added rows when there was nothing to recover before. -/
theorem recoveredRows (h : Added base rows store) {w : WorkspaceIdentity} {only : Option String}
    (hn : (rows.map (·.id)).Nodup) (hquiet : ChangeJournal.recoveredRows w only base = [])
    (hown : ∀ p ∈ rows, p.workspaceKey = w.key ∧
      (base.get p.changeSetId).map (·.workspaceKey) = some w.key ∧
      ∀ i ∈ only, p.changeSetId = i) : (recoveredRows w only store).Perm rows := by
  refine (List.perm_ext_iff_of_nodup ?_ (List.Nodup.of_map _ hn)).mpr fun p => ?_
  · exact (List.Nodup.of_map _ store.nodup_listPending).filter _
  have hfilter : ∀ s : ChangeSetStore, p ∈ ChangeJournal.recoveredRows w only s ↔
      p ∈ s.listPending ∧ p.workspaceKey = w.key ∧ ∀ i ∈ only, p.changeSetId = i := by
    intro s
    rw [ChangeJournal.recoveredRows, List.mem_filter]
    cases only <;> simp
  rw [hfilter, ChangeSetStore.mem_listPending]
  constructor
  · rintro ⟨⟨row, hrow, c, hc, rfl⟩, hw, honly⟩
    rcases (h.rows row).mp hrow with hrow | hrow
    · have hkey : c.workspaceKey = row.workspaceKey := hw.trans (hown row hrow).1.symm
      rwa [hkey]
    · have hmap := h.workspaces row.changeSetId
      rw [hc, Option.map_some] at hmap
      obtain ⟨c', hc', hkey⟩ := Option.map_eq_some_iff.mp hmap.symm
      have hlisted : { row with workspaceKey := c.workspaceKey } ∈ base.listPending :=
        ChangeSetStore.mem_listPending.2 ⟨row, hrow, c', hc', by rw [hkey]⟩
      have hmem := (hfilter base).mpr ⟨hlisted, hw, honly⟩
      rw [hquiet] at hmem
      cases hmem
  · intro hp
    obtain ⟨hw, hbase, honly⟩ := hown p hp
    rw [← h.workspaces] at hbase
    obtain ⟨c, hc, hkey⟩ := Option.map_eq_some_iff.mp hbase
    refine ⟨⟨p, (h.rows p).mpr (Or.inl hp), c, hc, ?_⟩, hw, honly⟩
    rw [hkey, ← hw]

/-- A ChangeSet without listed rows stays so when no row is added. -/
theorem unlisted (h : Added base [] store) {i : String}
    (hi : ∀ p ∈ base.listPending, p.changeSetId ≠ i) :
    ∀ p ∈ store.listPending, p.changeSetId ≠ i := by
  intro p hp
  obtain ⟨row, hrow, c, hc, rfl⟩ := ChangeSetStore.mem_listPending.1 hp
  have hmap := h.workspaces row.changeSetId
  rw [hc, Option.map_some] at hmap
  obtain ⟨c', hc', _⟩ := Option.map_eq_some_iff.mp hmap.symm
  exact hi { row with workspaceKey := c'.workspaceKey } (ChangeSetStore.mem_listPending.2
    ⟨row, ((h.rows row).mp hrow).resolve_left List.not_mem_nil, c', hc', rfl⟩)

/-- The rows that are not added belong to the base. -/
theorem get? (h : Added base [] store) (i : PendingId) :
    store.pendings.get? i = base.pendings.get? i := by
  ext p
  rw [Table.get?_eq_some_iff, Table.get?_eq_some_iff, h.rows]
  simp

end Added

/-- Without rows, a recovery changes nothing. -/
theorem reconcilePending_nothing [ContentHash] {w : WorkspaceIdentity} {only : Option String}
    {u : ChangeState}
    (hrows : recoveredRows w only u.store = [])
    (hroot : (u.disk.lstat []).map Entry.identity = some w.rootIdentity) :
    Triple (fun s => s = u) (reconcilePending w only)
      (fun _ => Within u.store u.blobs u.disk []) (fun _ _ => False) (fun _ => True) := by
  refine Triple.bind (R := fun r s => r = [] ∧ s = u) (Triple.reading ?_ ?_) fun rows => ?_
  · rintro s r rfl hr
    cases hr
    exact ⟨hrows, rfl⟩
  · rintro s fault _ hr
    cases hr
  refine Triple.assume (fun _ hs => hs.1) ?_
  rintro rfl
  refine Triple.mapFault (Triple.bind ((Within.enter hroot).pre fun _ hs => hs.2) fun _ => ?_)
  exact Triple.bind (R := fun _ => Within u.store u.blobs u.disk [])
    (Triple.pure fun _ hs => hs) fun _ => Triple.pure fun _ hs => hs

end AwesomeAgent
