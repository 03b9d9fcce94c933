import AwesomeAgent.Changes.OperationPhases

/-!
# Crash points of an operation

An operation announces its items, restores them one after the other, saves the new
lifecycle and withdraws its rows; a failure rolls the restored items back. A crash
finds some items in their target state and the others as they were.
-/

namespace AwesomeAgent

open ChangeOperations

/-- The kinds of nodes a change leads between, in the direction of an operation. -/
def FileChange.step (undo : Bool) (c : FileChange) : PathStep where
  path := c.path
  start := (if undo then c.resolvedAfterNodeType else c.resolvedBeforeNodeType).map
    fun type => decide (type = .directory)
  target := (if undo then c.resolvedBeforeNodeType else c.resolvedAfterNodeType).map
    fun type => decide (type = .directory)
  restored := true

/-- The steps of an operation over merged changes. -/
def operationSteps (undo : Bool) (changes : List FileChange) : List PathStep :=
  (restoreOrder undo changes).map (FileChange.step undo)

variable [ContentHash]
variable {b : BlobStore} {changeSet : ChangeSet} {undo : Bool} {changes : List FileChange}
  {prepared : List PreparedRestore} {s₀ : ChangeState} {w : WorkspaceIdentity}
  {E : Fault → ChangeState → Prop} {C : ChangeState → Prop}

/-- A rebuilt snapshot has the recorded type. -/
theorem changeSnapshot_type {c : FileChange} {side : Bool}
    {u : Option NodeSnapshot} (h : changeSnapshot b c side = .ok u) :
    u.map (·.nodeType) =
      if side then c.resolvedBeforeNodeType else c.resolvedAfterNodeType := by
  cases side with
  | true =>
    rcases recordedSnapshot_eq h with ⟨hd, rfl⟩ | ⟨_, _, _, _, ht, rfl, _⟩
    · simp [FileChange.resolvedBeforeNodeType, hd]
    · exact ht.symm
  | false =>
    rcases recordedSnapshot_eq h with ⟨hd, rfl⟩ | ⟨_, _, _, _, ht, rfl, _⟩
    · simp [FileChange.resolvedAfterNodeType, hd]
    · exact ht.symm

private theorem snapshotsMatch_type {u v : Option NodeSnapshot} (h : snapshotsMatch u v = true) :
    u.map (·.nodeType) = v.map (·.nodeType) := by
  cases v with
  | none => simpa [snapshotsMatch] using h
  | some v =>
    cases u with
    | none => simp [snapshotsMatch] at h
    | some u =>
      simp only [snapshotsMatch, Bool.and_eq_true, decide_eq_true_eq] at h
      simp [h.1.1]

/-- The result of a completed operation. -/
structure Operated (changeSet : ChangeSet) (changes : List FileChange) (undo : Bool)
    (s t : ChangeState) : Prop where
  stored : t.store.get changeSet.id =
    some { changeSet with lifecycle := if undo then .undone else .applied }
  restored : ∀ c ∈ changes, changeSnapshot t.blobs c undo = .ok (t.disk.snapshot c.path.parts)
  capturable : ∀ c ∈ changes, ∀ e, t.disk.lstat c.path.parts = some e → e.Capturable
  elsewhere : ∀ q, (∀ c ∈ changes, c.path.parts ≠ q) → t.disk.lstat q = s.disk.lstat q
  linkMode : t.disk.linkMode = s.disk.linkMode
  grown : s.blobs.Extends t.blobs
  blobs : t.blobs.Sound

/-- A prepared item has the kinds of its change. -/
theorem PreparedFor.step {s : ChangeState} {b : BlobStore} {changeSet : ChangeSet} {undo : Bool}
    {p : PreparedRestore} (h : PreparedFor s.disk b changeSet undo p)
    (hm : Matches s.blobs s.disk undo p.change) : p.item.step = p.change.step undo := by
  obtain ⟨u, hu, hmatch⟩ := hm
  have hstart : p.item.start.map (·.nodeType) = (if undo then p.change.resolvedAfterNodeType
      else p.change.resolvedBeforeNodeType) := by
    have hbound : p.item.start = s.disk.snapshot p.change.path.parts := h.bound.start
    rw [hbound, snapshotsMatch_type hmatch, changeSnapshot_type hu]
    cases undo <;> rfl
  have htarget : p.item.target.map (·.nodeType) = (if undo then p.change.resolvedBeforeNodeType
      else p.change.resolvedAfterNodeType) := changeSnapshot_type h.desired
  have hkind : ∀ v : Option NodeSnapshot, outlineOf v =
      (v.map (·.nodeType)).map fun type => decide (type = .directory) := by
    intro v
    rw [Option.map_map]
    rfl
  simp only [PassItem.step, FileChange.step, hkind, hstart, htarget]
  rfl

/-- The steps of prepared items are those of their changes. -/
theorem Prepared.steps {s : ChangeState} (h : Prepared s b changeSet undo changes prepared)
    (hm : ∀ c ∈ changes, Matches s.blobs s.disk undo c) :
    (prepared.map PreparedRestore.item).map PassItem.step = operationSteps undo changes := by
  have hmem : ∀ p ∈ prepared, p.change ∈ changes := by
    intro p hp
    have := List.mem_map_of_mem (f := (·.change)) hp
    rw [h.order] at this
    exact mem_restoreOrder.1 this
  rw [operationSteps, ← h.order, List.map_map, List.map_map]
  exact List.map_congr_left fun p hp => (h.items p hp).step (hm _ (hmem p hp))

/-- Prepared items have different paths. -/
theorem Prepared.nodup (h : Prepared s₀ b changeSet undo changes prepared)
    (hn : (changes.map FileChange.path).Nodup) :
    ((prepared.map PreparedRestore.item).map PassItem.path).Nodup := by
  have hpaths : (prepared.map PreparedRestore.item).map PassItem.path =
      (restoreOrder undo changes).map FileChange.path := by
    rw [← h.order, List.map_map, List.map_map]
    rfl
  rw [hpaths]
  cases undo
  · exact hn
  · simpa [restoreOrder] using hn

/-- Entering the transaction of an operation. -/
theorem enter_idle (hb : s₀.blobs.Sound)
    (hroot : ∃ e, s₀.disk.lstat [] = some e ∧ e.identity = w.rootIdentity)
    :
    Triple (fun s => s = s₀)
      (Proc.volatile (onTree (WorkspaceTreeTransaction.enter w.rootIdentity)))
      (fun _ s => Idle s₀ s ∧ s.blobs = s₀.blobs) E C := by
  refine Triple.volatile (Hoare.onTree ?_)
  rintro s rfl
  obtain ⟨e, he, hid⟩ := hroot
  obtain ⟨t, hrun, _, hpass, hpins⟩ := enter_spec (s := s.tree) he hid
  rw [hrun]
  exact ⟨⟨rfl, BlobStore.Extends.refl _, hb, hpass, hpins, le_refl _⟩, rfl⟩

/-- Every outline on the way of a pass belongs to a tree. -/
def Reached (o : Outline String) (done : List PathStep) : Prop :=
  ∀ before, before <+: done → (outlineAfter o before).Rooted

omit [ContentHash] in
private theorem Reached.snoc {o : Outline String} {done : List PathStep} {x : PathStep}
    (h : Reached o done) (hx : (outlineAfter o (done ++ [x])).Rooted) :
    Reached o (done ++ [x]) := by
  intro before hbefore
  rcases List.prefix_concat_iff.mp (by simpa using hbefore) with rfl | hbefore
  · simpa using hx
  · exact h before hbefore

omit [ContentHash] in
private theorem Reached.of_prefix {o : Outline String} {before done : List PathStep}
    (h : Reached o done) (hp : before <+: done) : Reached o before :=
  fun _ hb => h _ (hb.trans hp)

omit [ContentHash] in
private theorem PassState.rooted {d : Disk} {done : List PassItem} {s : TreeState}
    (h : PassState d done s) (hn : (done.map PassItem.path).Nodup) :
    (outlineAfter d.outline (done.map PassItem.step)).Rooted := by
  rw [← h.outline hn]
  exact s.disk.tree.outline_rooted

/-- A disk on which some items of a pass are in their target state and the others as they
were. -/
structure Stage (d : Disk) (done todo : List PassItem) (d' : Disk) : Prop where
  linkMode : d'.linkMode = d.linkMode
  elsewhere : ∀ q, (∀ x ∈ done ++ todo, x.path.parts ≠ q) → d'.lstat q = d.lstat q
  settled : ∀ x ∈ done, d'.snapshot x.path.parts = x.target
  kept : ∀ x ∈ todo, d'.snapshot x.path.parts = x.start
  capturable : ∀ x ∈ done ++ todo, ∀ e, d'.lstat x.path.parts = some e → e.Capturable

omit [ContentHash] in
private theorem PassState.stage {d : Disk} {done todo : List PassItem} {s : TreeState}
    (h : PassState d done s) (hn : ((done ++ todo).map PassItem.path).Nodup)
    (hb : ∀ x ∈ todo, ∃ b, ItemBound d x b) : Stage d done todo s.disk := by
  have hsame : ∀ x ∈ todo, s.disk.lstat x.path.parts = d.lstat x.path.parts := by
    intro x hx
    refine h.untouched _ fun y hy he => ?_
    rw [List.map_append, List.nodup_append] at hn
    exact hn.2.2 _ (List.mem_map_of_mem hy) _ (List.mem_map_of_mem hx)
      (RelativePath.parts_injective he)
  refine ⟨h.linkMode, fun q hq => h.untouched q fun x hx => hq x (by simp [hx]),
    fun x hx => (h.settled x hx).1, fun x hx => ?_, fun x hx => ?_⟩
  · obtain ⟨b, hb⟩ := hb x hx
    rw [hb.start, Disk.snapshot, Disk.snapshot, hsame x hx, h.linkMode]
  · rcases List.mem_append.mp hx with hx | hx
    · exact (h.settled x hx).2
    · obtain ⟨b, hb⟩ := hb x hx
      rw [hsame x hx]
      exact hb.bound.capturable

omit [ContentHash] in
private theorem Stage.back {d d' d'' : Disk} {done todo : List PassItem} {x : PassItem}
    (h : Stage d (done ++ [x]) todo d')
    (hn : ((done ++ x :: todo).map PassItem.path).Nodup)
    (hlink : d''.linkMode = d'.linkMode)
    (helse : ∀ q, q ≠ x.path.parts → d''.lstat q = d'.lstat q)
    (hsnap : d''.snapshot x.path.parts = x.start)
    (hcap : ∀ e, d''.lstat x.path.parts = some e → e.Capturable) :
    Stage d done (x :: todo) d'' := by
  rw [List.map_append, List.map_cons, List.nodup_append, List.nodup_cons] at hn
  have hkeep : ∀ y : PassItem, y.path ≠ x.path → d''.lstat y.path.parts = d'.lstat y.path.parts :=
    fun y hy => helse _ fun he => hy (RelativePath.parts_injective he)
  have hdone : ∀ y ∈ done, y.path ≠ x.path := fun y hy he =>
    hn.2.2 _ (List.mem_map_of_mem hy) _ (List.mem_cons_self) he
  have htodo : ∀ y ∈ todo, y.path ≠ x.path := fun y hy he =>
    hn.2.1.1 (he ▸ List.mem_map_of_mem hy)
  have hsame : ∀ y : PassItem, y.path ≠ x.path →
      d''.snapshot y.path.parts = d'.snapshot y.path.parts :=
    fun y hy => by rw [Disk.snapshot, Disk.snapshot, hkeep y hy, hlink]
  refine ⟨hlink.trans h.linkMode, fun q hq => ?_, fun y hy => ?_, fun y hy => ?_,
    fun y hy e he => ?_⟩
  · rw [helse q fun he => hq x (by simp) he.symm]
    exact h.elsewhere q fun y hy => hq y (by simpa using hy)
  · rw [hsame y (hdone y hy)]
    exact h.settled y (by simp [hy])
  · rcases List.mem_cons.mp hy with rfl | hy
    · exact hsnap
    · rw [hsame y (htodo y hy)]
      exact h.kept y hy
  · by_cases hyx : y.path = x.path
    · exact hcap e (hyx ▸ he)
    · refine h.capturable y ?_ e (hkeep y hyx ▸ he)
      simpa using hy

/-- A running operation whose applied items are in their target state. -/
structure Operating (s₀ : ChangeState) (changeSet : ChangeSet) (undo : Bool)
    (changes : List FileChange) (applied rest : List PreparedRestore) (store : ChangeSetStore)
    (s : ChangeState) : Prop where
  prepared : Prepared s₀ s.blobs changeSet undo changes (applied ++ rest)
  store : s.store = store
  blobs : s₀.blobs.Extends s.blobs
  sound : s.blobs.Sound
  stage : Stage s₀.disk (applied.map PreparedRestore.item) (rest.map PreparedRestore.item) s.disk
  reached : Reached s₀.disk.outline
    ((applied.map PreparedRestore.item).map PassItem.step)

/-- The points at which a crash can find an operation. -/
inductive OperationPoint (s₀ : ChangeState) (changeSet : ChangeSet) (undo : Bool)
    (changes : List FileChange) (s : ChangeState) : Prop
  | quiet (h : Restoring s₀ s₀.store [] s)
  | announcing (done rest : List PreparedRestore)
      (h : Operating s₀ changeSet undo changes [] (done ++ rest) (savedRows s₀.store done) s)
  | restoring (applied rest : List PreparedRestore)
      (h : Operating s₀ changeSet undo changes applied rest
        (savedRows s₀.store (applied ++ rest)) s)
  | withdrawing (done rest : List PreparedRestore)
      (h : Operating s₀ changeSet undo changes [] (done ++ rest)
        (deletedRows (savedRows s₀.store (done ++ rest)) done) s)
  | committed (done rest : List PreparedRestore)
      (h : Operating s₀ changeSet undo changes (done ++ rest) []
        (deletedRows ((savedRows s₀.store (done ++ rest)).save
          { changeSet with lifecycle := if undo then .undone else .applied }) done) s)

private theorem Restoring.operating {s : ChangeState}
    {applied rest : List PreparedRestore} {store : ChangeSetStore}
    (h : Restoring s₀ store (applied.map PreparedRestore.item) s)
    (hp : Prepared s₀ s.blobs changeSet undo changes (applied ++ rest))
    (hn : (changes.map FileChange.path).Nodup)
    (hr : Reached s₀.disk.outline ((applied.map PreparedRestore.item).map PassItem.step)) :
    Operating s₀ changeSet undo changes applied rest store s := by
  refine ⟨hp, h.store, h.blobs, h.sound, h.pass.stage ?_ ?_, hr⟩
  · simpa using hp.nodup hn
  · intro x hx
    obtain ⟨p, hmem, rfl⟩ := List.mem_map.mp hx
    exact ⟨p.target, (hp.items p (by simp [hmem])).bound⟩

/-- Restoring the items brings some of them, and without a fault all of them, into their
target state. -/
theorem restoreItems_mixed (s₀ : ChangeState) (store : ChangeSetStore)
    (applied rest : List PreparedRestore)
    (hb : ∀ p ∈ rest, ItemBound s₀.disk p.item p.target)
    (hn : (((applied ++ rest).map PreparedRestore.item).map PassItem.path).Nodup)
    (hC : ∀ before after s, before ++ after = applied ++ rest →
      Restoring s₀ store (before.map PreparedRestore.item) s →
      Reached s₀.disk.outline ((before.map PreparedRestore.item).map PassItem.step) → C s)
    :
    Triple (fun s => Restoring s₀ store (applied.map PreparedRestore.item) s ∧
        Reached s₀.disk.outline ((applied.map PreparedRestore.item).map PassItem.step))
      (restoreItems applied rest)
      (fun r s => ∃ before after, before ++ after = applied ++ rest ∧ r.1 = before ∧
        (r.2 = none → after = []) ∧
        Restoring s₀ store (before.map PreparedRestore.item) s ∧
        Reached s₀.disk.outline ((before.map PreparedRestore.item).map PassItem.step)) E C := by
  induction rest generalizing applied with
  | nil => exact Triple.pure fun s hs => ⟨applied, [], rfl, rfl, fun _ => rfl, hs⟩
  | cons p rest ih =>
    refine Triple.assume (fun _ hs => hs.2) fun hreached => ?_
    have hnext : (applied ++ [p]).map PreparedRestore.item =
        applied.map PreparedRestore.item ++ [p.item] := by simp
    have hx : p.item.path ∉ (applied.map PreparedRestore.item).map PassItem.path := by
      intro hmem
      rw [List.map_append, List.map_append, List.nodup_append] at hn
      exact hn.2.2 _ hmem _ (by simp) rfl
    have hn' : ((applied.map PreparedRestore.item ++ [p.item]).map PassItem.path).Nodup := by
      have hsub : (applied.map PreparedRestore.item ++ [p.item]).Sublist
          ((applied ++ p :: rest).map PreparedRestore.item) := by
        rw [List.map_append, List.map_cons]
        exact (List.Sublist.refl _).append (List.singleton_sublist.mpr (by simp))
      exact hn.sublist (hsub.map _)
    have hafter : ∀ s, Restoring s₀ store (applied.map PreparedRestore.item ++ [p.item]) s →
        Reached s₀.disk.outline
          (((applied ++ [p]).map PreparedRestore.item).map PassItem.step) := by
      intro s hs
      have hrooted := hs.pass.rooted hn'
      rw [hnext, List.map_append, List.map_singleton] at *
      exact hreached.snoc (by simpa using hrooted)
    refine Triple.bind ((restoreItem_mixed (E := fun _ _ => False) hx
      (hb p (List.mem_cons_self)) ?_).conseq (fun _ hs => hs.1) (fun _ _ h => h)
      (fun _ _ h => h.elim) fun _ h => h) fun r => ?_
    · rintro s (hs | hs)
      · exact hC applied (p :: rest) s rfl hs hreached
      · exact hC (applied ++ [p]) rest s (by simp) (hnext ▸ hs) (hafter s hs)
    · cases r with
      | error fault =>
        refine Triple.pure fun s hs => ?_
        rcases hs with ⟨hr, _⟩ | ⟨_, hs⟩
        · cases hr
        · exact ⟨applied, p :: rest, rfl, rfl, fun h => by simp at h, hs, hreached⟩
      | ok actual =>
        have hpre : ∀ s, ((.ok actual : Except Fault (Option NodeSnapshot)) = .ok p.desired ∧
            Restoring s₀ store (applied.map PreparedRestore.item ++ [p.item]) s ∨
            (∃ fault : Fault, (.ok actual : Except Fault _) = .error fault) ∧
              Restoring s₀ store (applied.map PreparedRestore.item) s) →
            actual = p.desired ∧
              Restoring s₀ store (applied.map PreparedRestore.item ++ [p.item]) s := by
          rintro s (⟨hr, hs⟩ | ⟨⟨_, hr⟩, _⟩)
          · exact ⟨Except.ok.inj hr, hs⟩
          · cases hr
        refine Triple.assume (fun s hs => (hpre s hs).1) ?_
        rintro rfl
        refine Triple.pre ?_ fun s hs => (hpre s hs).2
        simp only [snapshotsMatch_self, if_true]
        refine ((ih (applied ++ [p]) (fun q hq => hb q (List.mem_cons_of_mem _ hq))
          (by simpa using hn) fun before after s hsplit => hC before after s
            (by simpa using hsplit)).pre fun s hs => ?_).post ?_
        · exact ⟨hnext ▸ hs, hafter s hs⟩
        · rintro r s ⟨before, after, hsplit, h⟩
          exact ⟨before, after, by simpa using hsplit, h⟩

section Rollback

variable {s₀ : ChangeState} {changeSet : ChangeSet} {undo : Bool} {changes : List FileChange}
  {applied rest : List PreparedRestore} {store : ChangeSetStore} {s : ChangeState}

private theorem Operating.of_tree (h : Operating s₀ changeSet undo changes applied rest store s)
    {t : TreeState} (hd : t.disk = s.disk) :
    Operating s₀ changeSet undo changes applied rest store { s with tree := t } := by
  refine ⟨h.prepared, h.store, h.blobs, h.sound, ?_, h.reached⟩
  change Stage _ _ _ t.disk
  rw [hd]
  exact h.stage

/-- A running operation with sound pins. -/
private def Rolling (s₀ : ChangeState) (changeSet : ChangeSet) (undo : Bool)
    (changes : List FileChange) (store : ChangeSetStore) (applied rest : List PreparedRestore)
    (s : ChangeState) : Prop :=
  Operating s₀ changeSet undo changes applied rest store s ∧ s.tree.Sound

variable {C : ChangeState → Prop}

private theorem bind_rolling (path : RelativePath) :
    Triple (Rolling s₀ changeSet undo changes store applied rest)
      (Proc.volatile (onTree (WorkspaceTreeTransaction.bind path)))
      (fun b s => Rolling s₀ changeSet undo changes store applied rest s ∧
        Bound s.disk path b)
      (fun _ s => Rolling s₀ changeSet undo changes store applied rest s) C := by
  refine Triple.volatile (Hoare.onTree fun s hs => ?_)
  refine (WorkspaceTreeTransaction.bind_spec hs.2 path).mono ?_ ?_
  · rintro b t ⟨ht, hext, _, hb⟩
    refine ⟨⟨hs.1.of_tree hext.disk, ht⟩, ?_⟩
    change Bound t.disk path b
    rw [hext.disk]
    exact hb
  · rintro fault t ⟨ht, hext, _⟩
    exact ⟨hs.1.of_tree hext.disk, ht⟩

private theorem start_restorable {p : PreparedRestore}
    (h : Operating s₀ changeSet undo changes applied rest store s)
    (hp : p ∈ applied ++ rest) :
    ∀ u, p.target.snapshot = some u → u.Restorable s.disk.linkMode := by
  intro u hu
  have hb := (h.prepared.items p hp).bound
  rw [h.stage.linkMode]
  refine Disk.snapshot_restorable hb.bound.capturable ?_
  rw [← hb.bound.snapshot]
  exact hu

private theorem restoreBack_rolling {p : PreparedRestore} {b : BoundWorkspaceNode}
    (hn : (changes.map FileChange.path).Nodup)
    (hC : ∀ s, Operating s₀ changeSet undo changes applied (p :: rest) store s ∨
      Operating s₀ changeSet undo changes (applied ++ [p]) rest store s → C s) :
    Triple (fun s => Rolling s₀ changeSet undo changes store (applied ++ [p]) rest s ∧
        Bound s.disk p.change.path b)
      (Proc.durable (onTree (WorkspaceTreeTransaction.restore b p.target.snapshot)))
      (fun _ s => Rolling s₀ changeSet undo changes store applied (p :: rest) s)
      (fun _ s => Rolling s₀ changeSet undo changes store (applied ++ [p]) rest s) C := by
  refine Triple.durable (Hoare.onTree fun s hs => ?_) (fun _ s h => hC s (Or.inl h.1))
    fun _ s h => hC s (Or.inr h.1)
  obtain ⟨⟨h, hsound⟩, hb⟩ := hs
  have hmem : p ∈ applied ++ [p] ++ rest := by simp
  refine (WorkspaceTreeTransaction.restore_spec hb hsound (start_restorable h hmem)).mono ?_ ?_
  · rintro r t ⟨rfl, hr⟩
    have hprep := h.prepared
    rw [List.append_assoc, List.singleton_append] at hprep
    have hstage := h.stage
    rw [List.map_append, List.map_singleton] at hstage
    refine ⟨⟨hprep, h.store, h.blobs, h.sound, ?_, ?_⟩, hr.sound⟩
    · exact hstage.back (by simpa using hprep.nodup hn) hr.linkMode hr.elsewhere hr.snapshot
        hr.capturable
    · refine h.reached.of_prefix ?_
      rw [List.map_append, List.map_append]
      exact List.prefix_append _ _
  · rintro fault t ⟨⟨ht, hd⟩, _⟩
    exact ⟨h.of_tree hd, ht⟩

/-- Some split of the items into applied ones and others. -/
private def SomeStage (s₀ : ChangeState) (changeSet : ChangeSet) (undo : Bool)
    (changes : List FileChange) (store : ChangeSetStore) (prepared : List PreparedRestore)
    (s : ChangeState) : Prop :=
  ∃ before after, before ++ after = prepared ∧
    Rolling s₀ changeSet undo changes store before after s

private theorem rollbackApplied_spec {prepared : List PreparedRestore}
    (hn : (changes.map FileChange.path).Nodup)
    (hC : ∀ before after s, before ++ after = prepared →
      Operating s₀ changeSet undo changes before after store s → C s)
    (hsplit : applied ++ rest = prepared) :
    Triple (Rolling s₀ changeSet undo changes store applied rest)
      (rollbackApplied applied.reverse)
      (fun ok s => SomeStage s₀ changeSet undo changes store prepared s ∧
        (ok = true → Rolling s₀ changeSet undo changes store [] prepared s))
      (fun _ s => SomeStage s₀ changeSet undo changes store prepared s) C := by
  induction applied using List.reverseRecOn generalizing rest with
  | nil =>
    refine Triple.pure fun s hs => ⟨⟨[], rest, hsplit, hs⟩, fun _ => ?_⟩
    rw [← hsplit]
    exact hs
  | append_singleton applied p ih =>
    have hsplit' : applied ++ p :: rest = prepared := by simpa using hsplit
    rw [List.reverse_append, List.reverse_singleton, List.singleton_append]
    refine Triple.bind ((bind_rolling p.pending.relativePath).fault
      fun _ s hs => ⟨_, _, hsplit, hs⟩) fun b => ?_
    split
    · exact Triple.pure fun s hs => ⟨⟨_, _, hsplit, hs.1⟩, fun h => by simp at h⟩
    · refine Triple.bind (((restoreBack_rolling (p := p) hn ?_).pre fun s hs =>
        ⟨hs.1, (hs.1.1.prepared.items p (by simp)).row.relativePath ▸ hs.2⟩).fault
        fun _ s hs => ⟨_, _, hsplit, hs⟩) fun restored => ?_
      · rintro s (hs | hs)
        · exact hC _ _ s hsplit' hs
        · exact hC _ _ s hsplit hs
      split
      · exact Triple.pure fun s hs => ⟨⟨_, _, hsplit', hs⟩, fun h => by simp at h⟩
      · exact ih hsplit'

private theorem rolledBack_spec (items : List PreparedRestore) :
    Triple (Rolling s₀ changeSet undo changes store applied rest) (rolledBack items)
      (fun _ s => Rolling s₀ changeSet undo changes store applied rest s)
      (fun _ _ => True) C := by
  induction items with
  | nil => exact Triple.pure fun s hs => hs
  | cons item items ih =>
    refine Triple.bind ((bind_rolling item.pending.relativePath).fault fun _ _ _ => trivial)
      fun b => ?_
    split
    · exact Triple.pure fun s hs => hs.1
    · exact ih.pre fun s hs => hs.1

private theorem Operating.onStore (h : Operating s₀ changeSet undo changes applied rest store s)
    (f : ChangeSetStore → ChangeSetStore) :
    Operating s₀ changeSet undo changes applied rest (f store) { s with store := f s.store } :=
  ⟨h.prepared, congrArg f h.store, h.blobs, h.sound, h.stage, h.reached⟩

private theorem rollback_spec (hn : (changes.map FileChange.path).Nodup) :
    Triple (Rolling s₀ changeSet undo changes (savedRows s₀.store (applied ++ rest)) applied rest)
      (rollback (applied ++ rest) applied) (fun _ _ => True) (fun _ _ => True)
      (OperationPoint s₀ changeSet undo changes) := by
  let saved := savedRows s₀.store (applied ++ rest)
  refine Triple.bind (R := fun r s => r = .ok true →
    Rolling s₀ changeSet undo changes saved [] (applied ++ rest) s) ?_ fun r => ?_
  · refine Triple.attempt ((Triple.bind (R := fun ok s => ok = true →
      Rolling s₀ changeSet undo changes saved [] (applied ++ rest) s)
      ((rollbackApplied_spec hn ?_ rfl).conseq (fun _ h => h) (fun _ _ h => h.2)
        (fun _ _ _ => trivial) fun _ h => h) fun ok => ?_).fault (E := fun _ _ => True)
      fun fault s _ h => by cases h)
    · intro before after s hsplit hs
      have hsaved : saved = savedRows s₀.store (before ++ after) := by rw [hsplit]
      exact .restoring before after (hsaved ▸ hs)
    · cases ok with
      | false => exact Triple.pure fun _ _ h => by simp at h
      | true =>
        exact ((rolledBack_spec (applied ++ rest)).pre fun s hs => hs rfl).post
          fun ok s hs _ => hs
  · match r with
    | .error fault =>
      dsimp only
      split
      · exact Triple.pure fun _ _ => trivial
      · exact Triple.throw fun _ _ => trivial
    | .ok false => exact Triple.pure fun _ _ => trivial
    | .ok true =>
      refine Triple.bind (R := fun _ _ => True) (Triple.attempt (((deletePendings_spec
        (I := fun store s => Operating s₀ changeSet undo changes [] (applied ++ rest) store s)
        (fun _ _ f hs => hs.onStore f) saved (applied ++ rest) ?_).pre
        fun s hs => (hs rfl).1).conseq (fun _ h => h) (fun _ _ _ => trivial)
        (E := fun _ _ => True) (fun _ _ _ => trivial) fun _ h => h)) fun r => ?_
      · rintro done s ⟨todo, hsplit⟩ hs
        rw [← hsplit] at hs
        refine .withdrawing done todo ?_
        have hsaved : saved = savedRows s₀.store (done ++ todo) := by rw [hsplit]
        rwa [hsaved] at hs
      · cases r <;> exact Triple.pure fun _ _ => trivial

private theorem handleFault_spec (hn : (changes.map FileChange.path).Nodup)
    (expected : ChangeLifecycle) (fault : Fault) {Q : Unit → ChangeState → Prop} :
    Triple (Rolling s₀ changeSet undo changes (savedRows s₀.store (applied ++ rest)) applied rest)
      (handleFault changeSet.id expected (applied ++ rest) applied fault) Q (fun _ _ => True)
      (OperationPoint s₀ changeSet undo changes) := by
  have hthrow : ∀ P : ChangeState → Prop, Triple P (throw fault : ChangeProc Unit) Q
      (fun _ _ => True) (OperationPoint s₀ changeSet undo changes) :=
    fun P => Triple.throw fun _ _ => trivial
  simp only [handleFault]
  split
  · refine Triple.bind (R := fun _ => Rolling s₀ changeSet undo changes
      (savedRows s₀.store (applied ++ rest)) applied rest)
      (Triple.reading (fun s _ hs _ => hs) fun _ _ _ _ => trivial) fun persisted => ?_
    split
    · exact Triple.bind (rollback_spec hn) fun _ => hthrow _
    · exact hthrow _
  · exact hthrow _

end Rollback

/-- The part of an operation inside its transaction passes crash points only. -/
theorem operateInTree_spec (expected : ChangeLifecycle) (hn : (changes.map FileChange.path).Nodup)
    (hrec : RecordsRestorable s₀.disk.linkMode changes) :
    Triple (fun s => Idle s₀ s ∧ s.blobs = s₀.blobs)
      (operateInTree changeSet changes undo expected (if undo then .undone else .applied))
      (fun prepared s => Operating s₀ changeSet undo changes prepared []
        (deletedRows ((savedRows s₀.store prepared).save
          { changeSet with lifecycle := if undo then .undone else .applied }) prepared) s)
      (fun _ _ => True) (OperationPoint s₀ changeSet undo changes) := by
  have hidle : ∀ s, Idle s₀ s → OperationPoint s₀ changeSet undo changes s :=
    fun s hs => .quiet ⟨hs.store, hs.blobs, hs.sound, hs.pass⟩
  have hroot : Reached s₀.disk.outline [] := by
    intro before hb
    rw [List.prefix_nil.mp hb]
    exact s₀.disk.tree.outline_rooted
  refine Triple.bind ((prepare_spec hidle changeSet changes undo hrec).fault
    fun _ _ _ => trivial) fun prepared => ?_
  refine Triple.pre (P := fun s => ∃ b, (s₀.blobs.Extends b ∧
    Prepared s₀ b changeSet undo changes prepared) ∧ Idle { s₀ with blobs := b } s)
    (Triple.named fun b => Triple.assume (fun _ hs => hs.1) fun ⟨hgrown, hprepared⟩ => ?_)
    fun s hs => ⟨s.blobs, ⟨hs.1.blobs, hs.2⟩, hs.1.store, BlobStore.Extends.refl _, hs.1.sound,
      hs.1.pass, hs.1.pins, hs.1.supply⟩
  let s₁ : ChangeState := { s₀ with blobs := b }
  have hnodup := hprepared.nodup hn
  have hoperating : ∀ applied rest store s, applied ++ rest = prepared →
      Restoring s₁ store (applied.map PreparedRestore.item) s →
      Reached s₀.disk.outline ((applied.map PreparedRestore.item).map PassItem.step) →
      Operating s₀ changeSet undo changes applied rest store s := by
    intro applied rest store s hsplit hs hr
    refine Restoring.operating ⟨hs.store, hgrown.trans hs.blobs, hs.sound, hs.pass⟩ ?_ hn hr
    rw [hsplit]
    exact hprepared.mono hs.blobs
  let saved := savedRows s₀.store prepared
  refine Triple.bind (R := fun r s => r = .ok () ∧ Restoring s₁ saved [] s) ?_ fun r => ?_
  · refine Triple.attempt (((savePendings_spec prepared (E := fun _ _ => False) ?_).pre
      fun s hs => hs.2).conseq (fun _ h => h) (fun _ _ h => ⟨rfl, h.1⟩) (fun _ _ h => h.elim)
      (fun _ h => h))
    rintro done s ⟨todo, hsplit⟩ hs
    exact .announcing done todo (hoperating [] _ _ _ hsplit hs hroot)
  refine Triple.assume (fun _ hs => hs.1) ?_
  rintro rfl
  refine Triple.bind ((restoreItems_mixed s₁ saved [] prepared
    (fun p hp => (hprepared.items p hp).bound) (by simpa using hnodup) ?_).pre
    fun _ hs => ⟨hs.2, hroot⟩) ?_
  · intro before after s hsplit hs hr
    have hsaved : saved = savedRows s₀.store (before ++ after) := by rw [hsplit]; rfl
    exact .restoring before after (hoperating _ _ _ _ hsplit (hsaved ▸ hs) hr)
  rintro ⟨applied, failure⟩
  refine Triple.pre (P := fun s => ∃ rest, (applied ++ rest = prepared ∧
    (failure = none → rest = []) ∧
    Reached s₀.disk.outline ((applied.map PreparedRestore.item).map PassItem.step)) ∧
    Restoring s₁ saved (applied.map PreparedRestore.item) s)
    (Triple.named fun rest => Triple.assume (fun _ hs => hs.1) fun ⟨hsplit, hall, hr⟩ => ?_) ?_
  · have hsaved : saved = savedRows s₀.store (applied ++ rest) := by rw [hsplit]
    have hrolling : ∀ s, Restoring s₁ saved (applied.map PreparedRestore.item) s →
        Rolling s₀ changeSet undo changes (savedRows s₀.store (applied ++ rest)) applied rest s :=
      fun s hs => ⟨hoperating _ _ _ _ hsplit (hsaved ▸ hs) hr, hs.pass.sound⟩
    cases failure with
    | some fault =>
      rw [← hsplit]
      exact Triple.bind (R := fun _ _ => False)
        ((handleFault_spec hn expected fault).pre fun s hs => hrolling s hs.2)
        fun _ _ hs => hs.elim
    | none =>
      obtain rfl : rest = [] := hall rfl
      obtain rfl : applied = prepared := by simpa using hsplit
      let target : ChangeLifecycle := if undo then .undone else .applied
      let committed := saved.save { changeSet with lifecycle := target }
      refine Triple.bind (R := fun r s => r = .ok () ∧
        Operating s₀ changeSet undo changes applied [] committed s) ?_ fun r => ?_
      · refine Triple.attempt ((Triple.onStore (E := fun _ _ => False)
          (Q := Operating s₀ changeSet undo changes applied [] committed) ?_ ?_).conseq
          (fun _ h => h) (fun _ _ h => ⟨rfl, h⟩) (fun _ _ h => h.elim) (fun _ h => h))
        · rintro s ⟨_, hs⟩
          exact (hoperating _ _ _ _ hsplit hs hr).onStore fun st =>
            st.save { changeSet with lifecycle := target }
        · exact fun s hs => .committed [] applied hs
      refine Triple.assume (fun _ hs => hs.1) ?_
      rintro rfl
      refine Triple.bind ((deletePendings_spec
        (I := fun store s => Operating s₀ changeSet undo changes applied [] store s)
        (fun _ _ f hs => hs.onStore f) committed applied ?_).pre fun _ hs => hs.2) fun _ =>
        Triple.pure fun _ hs => hs
      rintro done s ⟨todo, htodo⟩ hs
      have hcommitted : committed = (savedRows s₀.store (done ++ todo)).save
          { changeSet with lifecycle := target } := by rw [htodo]
      refine .committed done todo ?_
      rw [hcommitted, ← htodo] at hs
      exact hs
  · rintro s ⟨before, after, hsplit, hb, hall, hs, hr⟩
    cases hb
    exact ⟨after, ⟨by simpa using hsplit, hall, hr⟩, hs⟩

private theorem Operating.operated {s : ChangeState} {done : List PreparedRestore}
    (h : Operating s₀ changeSet undo changes prepared []
      (deletedRows ((savedRows s₀.store prepared).save
        { changeSet with lifecycle := if undo then .undone else .applied }) done) s) :
    Operated changeSet changes undo s₀ s := by
  have hmem : ∀ c ∈ changes, ∃ p ∈ prepared, p.change = c := by
    intro c hc
    have horder := h.prepared.order
    rw [List.append_nil] at horder
    exact List.mem_map.mp (horder ▸ mem_restoreOrder.2 hc)
  have hitems := h.prepared.items
  simp only [List.append_nil] at hitems
  refine ⟨?_, fun c hc => ?_, fun c hc => ?_, fun q hq => ?_, h.stage.linkMode, h.blobs, h.sound⟩
  · rw [h.store, ChangeSetStore.get, deletedRows_changeSets]
    exact Table.get?_put_self _ _
  · obtain ⟨p, hp, rfl⟩ := hmem c hc
    rw [(hitems p hp).desired]
    exact congrArg Except.ok (h.stage.settled p.item (List.mem_map_of_mem hp)).symm
  · obtain ⟨p, hp, rfl⟩ := hmem c hc
    exact h.stage.capturable p.item (by simpa using ⟨p, hp, rfl⟩)
  · refine h.stage.elsewhere q fun x hx => ?_
    simp only [List.map_nil, List.append_nil, List.mem_map] at hx
    obtain ⟨p, hp, rfl⟩ := hx
    refine hq p.change ?_
    have horder := h.prepared.order
    rw [List.append_nil] at horder
    exact mem_restoreOrder.1 (horder ▸ List.mem_map_of_mem hp)

/-- A crash finds an operation at one of its points, and a completed one is complete. -/
theorem operate_spec (undo : Bool) (hstored : s₀.store.get changeSet.id = some changeSet)
    (hmerge : mergeFileChanges changeSet.files = .ok changes)
    (hroot : ∃ e, s₀.disk.lstat [] = some e ∧ e.identity = w.rootIdentity)
    (hblobs : s₀.blobs.Sound) (hrec : RecordsRestorable s₀.disk.linkMode changes) :
    Triple (fun s => s = s₀) (operate w changeSet.id undo)
      (fun r s => Operated changeSet changes undo s₀ s ∧
        r.lifecycle = if undo then .undone else .applied)
      (fun _ _ => True) (OperationPoint s₀ changeSet undo changes) := by
  have hfail : ∀ {α : Type} {P : ChangeState → Prop} {R : α → ChangeState → Prop} {fault : Fault},
      Triple P (throw fault : ChangeProc α) R (fun _ _ => True)
        (OperationPoint s₀ changeSet undo changes) := Triple.throw fun _ _ => trivial
  refine Triple.bind (R := fun c s => c = changeSet ∧ s = s₀)
    (Triple.reading ?_ fun _ _ _ _ => trivial) fun c => ?_
  · rintro s c rfl hc
    rw [hstored] at hc
    by_cases hw : changeSet.workspaceKey = w.key
    · simp only [hw, ne_eq, not_true_eq_false, if_false, Except.ok.injEq] at hc
      exact ⟨hc.symm, rfl⟩
    · simp [hw] at hc
  refine Triple.assume (fun _ hs => hs.1) ?_
  rintro rfl
  dsimp only
  by_cases hl : c.lifecycle ≠ if undo then .applied else .undone
  · rw [if_pos hl]
    exact Triple.bind (R := fun _ _ => False) hfail fun _ _ hs => hs.elim
  rw [if_neg hl]
  by_cases hrev : c.reversibility = .none
  · rw [if_pos hrev]
    exact Triple.bind (R := fun _ _ => False) hfail fun _ _ hs => hs.elim
  rw [if_neg hrev]
  refine Triple.bind (R := fun r s => r = changes ∧ s = s₀)
    (Triple.liftExcept ?_ fun _ _ _ _ => trivial) fun r => ?_
  · rintro s r ⟨_, rfl⟩ hr
    rw [hmerge] at hr
    cases hr
    exact ⟨rfl, rfl⟩
  refine Triple.assume (fun _ hs => hs.1) ?_
  rintro rfl
  refine Triple.bind (Triple.mapFault (Triple.bind ((enter_idle hblobs hroot).pre
    fun _ hs => hs.2) fun _ => operateInTree_spec _ (mergeFileChanges_nodup hmerge) hrec))
    fun prepared => ?_
  exact Triple.pure fun s hs => ⟨hs.operated, rfl⟩

end AwesomeAgent
