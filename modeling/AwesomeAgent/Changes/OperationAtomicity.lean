import AwesomeAgent.Changes.History
import AwesomeAgent.Changes.OperationRecovery

/-!
# Crash atomicity of undo and redo

A crash finds some restores of an operation done. Recovery completes a committed
operation and rolls any other back, provided that the way back is a safe pass
again.
-/

namespace AwesomeAgent

open ChangeJournal ChangeOperations

/-- Both sides of a change are the same node. -/
def FileChange.unchanged (c : FileChange) : Bool :=
  decide (c.resolvedBeforeNodeType = c.resolvedAfterNodeType) &&
    match c.resolvedBeforeNodeType with
    | none => true
    | some .directory => decide (c.beforeMode = c.afterMode)
    | some _ => decide (c.beforeMode = c.afterMode) && decide (c.beforeHash = c.afterHash)

/-- Rolling a restored change back; a node that did not change is not touched again. -/
def FileChange.rollbackStep (undo : Bool) (c : FileChange) : PathStep where
  path := c.path
  start := (c.step undo).target
  target := (c.step undo).start
  restored := !c.unchanged

/-- Inspecting a change that was not restored yet. -/
def FileChange.keepStep (undo : Bool) (c : FileChange) : PathStep where
  path := c.path
  start := (c.step undo).start
  target := (c.step undo).start
  restored := false

/-- What recovery does after some of the restores of an operation. -/
def recoverySteps (undo : Bool) (applied rest : List FileChange) : List PathStep :=
  (applied.map (FileChange.rollbackStep undo) ++ rest.map (FileChange.keepStep undo)).reverse

private theorem exists_recoveryStep (undo : Bool) (applied rest : List FileChange) {c : FileChange}
    (hc : c ∈ applied ++ rest) : ∃ x ∈ recoverySteps undo applied rest, x.path = c.path := by
  rcases List.mem_append.mp hc with hc | hc
  · exact ⟨c.rollbackStep undo, by
      simpa [recoverySteps] using Or.inr ⟨c, hc, rfl⟩, rfl⟩
  · exact ⟨c.keepStep undo, by simpa [recoverySteps] using Or.inl ⟨c, hc, rfl⟩, rfl⟩

/-- From every state that the restores of an operation pass through, rolling back is a safe
pass that leaves every path in reach. -/
def Recoverable (o : Outline String) (undo : Bool) (changes : List FileChange) : Prop :=
  Bindable o (operationSteps undo changes) →
    ∀ applied rest, restoreOrder undo changes = applied ++ rest → applied ≠ [] →
      Reached o (applied.map (FileChange.step undo)) →
      let o' := outlineAfter o (applied.map (FileChange.step undo))
      SafePass o' (recoverySteps undo applied rest) ∧
        ∀ c ∈ changes, PathFree o' (recoverySteps undo applied rest) c.path

/-- A tree in which the changed paths are leaves below directories. -/
structure LeavesOf (changes : List FileChange) (o : Outline String) : Prop where
  rooted : o.Rooted
  parent : ∀ c ∈ changes, o c.path.parent = some true
  leaf : ∀ c ∈ changes, o c.path.parts ≠ some true

/-- A step that puts a leaf or nothing in the place of a leaf or nothing. -/
structure LeafStep (changes : List FileChange) (x : PathStep) : Prop where
  path : ∃ c ∈ changes, x.path = c.path
  start : x.start ≠ some true
  target : x.target ≠ some true

variable {changes : List FileChange} {o : Outline String} {done steps : List PathStep}

private theorem LeavesOf.after (h : LeavesOf changes o) (hd : ∀ x ∈ done, LeafStep changes x) :
    LeavesOf changes (outlineAfter o done) := by
  induction done using List.reverseRecOn with
  | nil => exact h
  | append_singleton done x ih =>
    have hi := ih fun y hy => hd y (by simp [hy])
    obtain ⟨⟨c, hc, hpath⟩, _, htarget⟩ := hd x (by simp)
    rw [outlineAfter_snoc, hpath]
    have hchild : ∀ m, outlineAfter o done (m :: c.path.parts) = none := fun m =>
      hi.rooted.below_eq_none (hi.leaf c hc) (List.suffix_cons _ _) List.ne_cons_self
    refine ⟨hi.rooted.update (fun _ => hi.parent c hc) (Or.inr hchild), fun c' hc' => ?_,
      fun c' hc' => ?_⟩
    · have hne : c'.path.parent ≠ c.path.parts := by
        intro he
        exact hi.leaf c hc (he ▸ hi.parent c' hc')
      rw [Function.update_of_ne hne]
      exact hi.parent c' hc'
    · by_cases he : c'.path.parts = c.path.parts
      · rw [he, Function.update_self]
        exact htarget
      · rw [Function.update_of_ne he]
        exact hi.leaf c' hc'

private theorem not_severed_of_leaves
    (hd : ∀ x ∈ done, LeafStep changes x) (q : NodePath) : ¬Severed done q := by
  induction done using List.reverseRecOn with
  | nil => exact fun hq => hq
  | append_singleton done x ih =>
    have hi := ih fun y hy => hd y (by simp [hy])
    intro hq
    rw [severed_snoc, PathStep.sever] at hq
    split at hq
    · rcases hq.2 with hq | ⟨hrepins, _⟩
      · exact hi hq
      · exact (hd x (by simp)).start hrepins.1
    · exact hi hq

private theorem safePass_of_leaves (h : LeavesOf changes o) (hs : ∀ x ∈ steps, LeafStep changes x) :
    SafePass o steps ∧ ∀ c ∈ changes, PathFree o steps c.path := by
  have hclear : ∀ done, (∀ x ∈ done, LeafStep changes x) → ∀ c ∈ changes, ∀ q,
      q <:+ c.path.parent → outlineAfter o done q ≠ some false := by
    intro done hd c hc q hq ho
    have ho' := h.after hd
    by_cases he : q = c.path.parent
    · rw [he, ho'.parent c hc] at ho
      cases ho
    · rw [ho'.rooted _ q hq he (by simp [ho'.parent c hc])] at ho
      cases ho
  refine ⟨⟨fun x hx => ?_, fun done x todo hsplit => ?_⟩, fun c hc => ?_⟩
  · obtain ⟨c, hc, hpath⟩ := (hs x hx).path
    rw [hpath]
    exact hclear [] (by simp) c hc
  · have hd : ∀ y ∈ done, LeafStep changes y := fun y hy => hs y (by simp [hsplit, hy])
    have hx := hs x (by simp [hsplit])
    obtain ⟨c, hc, hpath⟩ := hx.path
    refine ⟨hpath ▸ hclear done hd c hc, ?_, fun q _ => not_severed_of_leaves hd q⟩
    refine (h.after fun y hy => ?_).rooted
    rcases List.mem_append.mp hy with hy | hy
    · exact hd y hy
    · exact List.mem_singleton.mp hy ▸ hx
  · exact ⟨hclear steps hs c hc, fun q _ => not_severed_of_leaves hs q⟩

private theorem recoverable_of_leaves {undo : Bool}
    (h : LeavesOf changes o) (hleaf : ∀ c ∈ changes, (c.step undo).start ≠ some true ∧
      (c.step undo).target ≠ some true) : Recoverable o undo changes := by
  intro _ applied rest horder _ _ o'
  have hmem : ∀ c ∈ applied ++ rest, c ∈ changes := by
    intro c hc
    rw [← horder] at hc
    cases undo with
    | true => exact List.mem_reverse.mp hc
    | false => exact hc
  have hforward : ∀ x ∈ applied.map (FileChange.step undo), LeafStep changes x := by
    intro x hx
    obtain ⟨c, hc, rfl⟩ := List.mem_map.mp hx
    have hc' := hmem c (by simp [hc])
    exact ⟨⟨c, hc', rfl⟩, (hleaf c hc').1, (hleaf c hc').2⟩
  refine safePass_of_leaves (h.after hforward) fun x hx => ?_
  rw [recoverySteps, List.mem_reverse, List.mem_append] at hx
  rcases hx with hx | hx
  · obtain ⟨c, hc, rfl⟩ := List.mem_map.mp hx
    have hc' := hmem c (by simp [hc])
    exact ⟨⟨c, hc', rfl⟩, (hleaf c hc').2, (hleaf c hc').1⟩
  · obtain ⟨c, hc, rfl⟩ := List.mem_map.mp hx
    have hc' := hmem c (by simp [hc])
    exact ⟨⟨c, hc', rfl⟩, (hleaf c hc').1, (hleaf c hc').1⟩

private theorem safePass_of_kept (hr : o.Rooted)
    (hkeep : ∀ x ∈ steps, x.restored = false ∧ x.target = o x.path.parts)
    (hb : Bindable o steps) :
    SafePass o steps ∧ ∀ x ∈ steps, PathFree o steps x.path := by
  have hsame : ∀ done, (∀ x ∈ done, x ∈ steps) → outlineAfter o done = o ∧
      ∀ q, ¬Severed done q := by
    intro done
    induction done using List.reverseRecOn with
    | nil => exact fun _ => ⟨rfl, fun _ hq => hq⟩
    | append_singleton done x ih =>
      intro hsub
      obtain ⟨ho, hs⟩ := ih fun y hy => hsub y (by simp [hy])
      obtain ⟨hskip, htarget⟩ := hkeep x (hsub x (by simp))
      refine ⟨?_, fun q hq => ?_⟩
      · rw [outlineAfter_snoc, ho, htarget, Function.update_eq_self]
      · rw [severed_snoc, PathStep.sever, hskip, if_neg Bool.false_ne_true] at hq
        exact hs q hq
  refine ⟨⟨hb, fun done x todo hsplit => ?_⟩, fun x hx => ?_⟩
  · have hsub : ∀ y ∈ done, y ∈ steps := fun y hy => by simp [hsplit, hy]
    obtain ⟨ho, hs⟩ := hsame done hsub
    have hnext := (hsame (done ++ [x]) fun y hy => by
      rcases List.mem_append.mp hy with hy | hy
      · exact hsub y hy
      · simp [hsplit, List.mem_singleton.mp hy]).1
    refine ⟨?_, ?_, fun q _ => hs q⟩
    · rw [ho]
      exact hb x (by simp [hsplit])
    · rw [hnext]
      exact hr
  · obtain ⟨ho, hs⟩ := hsame steps fun _ h => h
    refine ⟨?_, fun q _ => hs q⟩
    rw [ho]
    exact hb x hx

private theorem Stage.outline {d d' : Disk} {done todo : List PassItem} (h : Stage d done todo d')
    (hn : ((done ++ todo).map PassItem.path).Nodup)
    (hstart : ∀ x ∈ todo, outlineOf x.start = d.outline x.path.parts) :
    d'.outline = outlineAfter d.outline (done.map PassItem.step) := by
  have hnodup : (((done.map PassItem.step).map PathStep.change).map Prod.fst).Nodup := by
    rw [List.map_append] at hn
    have hmap : ((done.map PassItem.step).map PathStep.change).map Prod.fst =
        (done.map PassItem.path).map RelativePath.parts := by
      simp [PassItem.step, PathStep.change]
    rw [hmap]
    exact (List.Nodup.of_append_left hn).map fun _ _ => RelativePath.parts_injective
  funext q
  by_cases hq : ∃ x ∈ done ++ todo, x.path.parts = q
  · obtain ⟨x, hx, rfl⟩ := hq
    have hcap := Disk.outline_of_capturable (h.capturable x hx)
    rcases List.mem_append.mp hx with hx | hx
    · rw [hcap, h.settled x hx]
      exact (Outline.overlay_of_mem d.outline hnodup
        (List.mem_map_of_mem (List.mem_map_of_mem hx))).symm
    · rw [hcap, h.kept x hx, hstart x hx, outlineAfter, Outline.overlay_of_not_mem]
      intro c hc he
      obtain ⟨y, hy, rfl⟩ := List.mem_map.mp hc
      obtain ⟨z, hz, rfl⟩ := List.mem_map.mp hy
      rw [List.map_append, List.nodup_append] at hn
      exact hn.2.2 _ (List.mem_map_of_mem hz) _ (List.mem_map_of_mem hx)
        (RelativePath.parts_injective he)
  · have hq' : ∀ x ∈ done ++ todo, x.path.parts ≠ q := fun x hx he => hq ⟨x, hx, he⟩
    rw [outlineAfter, Outline.overlay_of_not_mem]
    · simp only [Disk.outline, Hierarchy.outline]
      exact congrArg (Option.map Entry.isDirectory) (h.elsewhere q hq')
    · intro c hc
      obtain ⟨y, hy, rfl⟩ := List.mem_map.mp hc
      obtain ⟨z, hz, rfl⟩ := List.mem_map.mp hy
      exact hq' z (by simp [hz])

section Contents

variable [ContentHash]

private theorem unchanged_iff {b : BlobStore} {c : FileChange} {u v : Option NodeSnapshot}
    (hu : changeSnapshot b c true = .ok u) (hv : changeSnapshot b c false = .ok v) :
    c.unchanged = true ↔ u = v := by
  rcases recordedSnapshot_eq hu with ⟨hb, rfl⟩ | ⟨d, t, x, hb, ht, rfl, hx⟩
  · have hbefore : c.resolvedBeforeNodeType = none := by
      rw [FileChange.resolvedBeforeNodeType, hb]
      rfl
    rcases recordedSnapshot_eq hv with ⟨ha, rfl⟩ | ⟨d', t', y, _, ht', rfl, _⟩
    · have hafter : c.resolvedAfterNodeType = none := by
        rw [FileChange.resolvedAfterNodeType, ha]
        rfl
      simp [FileChange.unchanged, hbefore, hafter]
    · simp [FileChange.unchanged, hbefore, ht']
  · rcases recordedSnapshot_eq hv with ⟨ha, rfl⟩ | ⟨d', t', y, ha, ht', rfl, hy⟩
    · have hafter : c.resolvedAfterNodeType = none := by
        rw [FileChange.resolvedAfterNodeType, ha]
        rfl
      simp [FileChange.unchanged, ht, hafter]
    · by_cases hne : t = t'
      · subst hne
        rcases hx with ⟨rfl, rfl⟩ | ⟨htd, bytes, rfl, rfl⟩
        · obtain rfl : y = none := (hy.resolve_right fun h => h.1 rfl).2
          simp [FileChange.unchanged, ht, ht']
        · obtain ⟨bytes', rfl, rfl⟩ := (hy.resolve_left fun h => htd h.1).2
          cases t with
          | directory => exact absurd rfl htd
          | file =>
            simp [FileChange.unchanged, ht, ht', hb, ha, ContentHash.sha256_injective.eq_iff,
              and_comm]
          | symlink =>
            simp [FileChange.unchanged, ht, ht', hb, ha, ContentHash.sha256_injective.eq_iff,
              and_comm]
      · simp [FileChange.unchanged, ht, ht', hne]

section Points

variable {s₀ u : ChangeState} {changeSet : ChangeSet} {changes : List FileChange} {undo : Bool}
  {applied rest : List PreparedRestore} {store : ChangeSetStore}

namespace Operating

variable {p : PreparedRestore} {part : List PreparedRestore}

private theorem change_mem (h : Operating s₀ changeSet undo changes applied rest store u)
    (hp : p ∈ applied ++ rest) : p.change ∈ changes := by
  have hmem := List.mem_map_of_mem (f := (·.change)) hp
  rw [h.prepared.order] at hmem
  exact mem_restoreOrder.1 hmem

private theorem exists_item (h : Operating s₀ changeSet undo changes applied rest store u)
    {c : FileChange} (hc : c ∈ changes) : ∃ p ∈ applied ++ rest, p.change = c :=
  List.mem_map.mp (h.prepared.order ▸ mem_restoreOrder.2 hc)

private theorem paths (h : Operating s₀ changeSet undo changes applied rest store u)
    (hn : (changes.map FileChange.path).Nodup) :
    ((applied ++ rest).map (·.change.path)).Nodup := by
  have := h.prepared.nodup hn
  rwa [List.map_map] at this

private theorem found (h : Operating s₀ changeSet undo changes applied rest store u)
    (hp : p ∈ applied ++ rest) :
    p.target.snapshot = s₀.disk.snapshot p.change.path.parts :=
  (h.prepared.items p hp).bound.start

private theorem source (h : Operating s₀ changeSet undo changes applied rest store u)
    (hrec : RecordsRestorable s₀.disk.linkMode changes)
    (hp : p ∈ applied ++ rest) :
    changeSnapshot u.blobs p.change (!undo) = .ok p.target.snapshot := by
  obtain ⟨v, hv, hmatch⟩ := h.prepared.matching _ (h.change_mem hp)
  have hv' : ∀ x ∈ v, x.Captured := by
    rintro x rfl
    exact (hrec _ (h.change_mem hp) _ _ x hv).captured
  rw [snapshotsMatch_iff (fun x hx => Disk.snapshot_captured hx) hv'] at hmatch
  rw [h.found hp, hmatch]
  exact changeSnapshot_mono h.blobs hv

private theorem current_applied (h : Operating s₀ changeSet undo changes applied rest store u)
    (hp : p ∈ applied) :
    u.disk.snapshot p.change.path.parts = p.desired :=
  h.stage.settled p.item (List.mem_map_of_mem hp)

private theorem current_rest (h : Operating s₀ changeSet undo changes applied rest store u)
    (hp : p ∈ rest) :
    u.disk.snapshot p.change.path.parts = p.target.snapshot :=
  h.stage.kept p.item (List.mem_map_of_mem hp)

private theorem capturable (h : Operating s₀ changeSet undo changes applied rest store u)
    {p : PreparedRestore} (hp : p ∈ applied ++ rest) :
    ∀ e, u.disk.lstat p.change.path.parts = some e → e.Capturable :=
  h.stage.capturable p.item (by
    rw [← List.map_append]
    exact List.mem_map_of_mem hp)

private theorem recovered_steps (h : Operating s₀ changeSet undo changes applied rest store u)
    (hrec : RecordsRestorable s₀.disk.linkMode changes)
    (hpart : part.Sublist rest) :
    ((applied ++ part).reverse.map (PreparedRestore.recovered u.disk)).map PassItem.step =
      recoverySteps undo (applied.map (·.change)) (part.map (·.change)) := by
  have hstep : ∀ p ∈ applied ++ rest, p.item.step = p.change.step undo := fun p hp =>
    (h.prepared.items p hp).step (h.prepared.matching _ (h.change_mem hp))
  have hback : ∀ p ∈ applied, (p.recovered u.disk).step = p.change.rollbackStep undo := by
    intro p hp
    have hmem : p ∈ applied ++ rest := by simp [hp]
    have hsource := h.source hrec hmem
    have hdesired := (h.prepared.items p hmem).desired
    have hsame : p.change.unchanged = true ↔ p.desired = p.target.snapshot := by
      cases undo with
      | true => exact unchanged_iff hdesired hsource
      | false => exact (unchanged_iff hsource hdesired).trans eq_comm
    have hflag : decide (p.desired ≠ p.target.snapshot) = !p.change.unchanged := by
      cases hu : p.change.unchanged <;> simp [← hsame, hu]
    rw [FileChange.rollbackStep, ← hstep p hmem, PreparedRestore.recovered, PassItem.step,
      h.current_applied hp, hflag]
    rfl
  have hkeep : ∀ p ∈ part, (p.recovered u.disk).step = p.change.keepStep undo := by
    intro p hp
    have hrest := hpart.subset hp
    rw [FileChange.keepStep, ← hstep p (by simp [hrest]), PreparedRestore.recovered,
      PassItem.step, h.current_rest hrest]
    simp [PassItem.step, PreparedRestore.item]
  rw [recoverySteps, List.map_map, List.map_reverse, List.map_append, List.map_map, List.map_map]
  exact congrArg List.reverse (congrArg₂ (· ++ ·) (List.map_congr_left hback)
    (List.map_congr_left hkeep))

private theorem outline (h : Operating s₀ changeSet undo changes applied rest store u)
    (hn : (changes.map FileChange.path).Nodup) :
    u.disk.outline = outlineAfter s₀.disk.outline
      ((applied.map (·.change)).map (FileChange.step undo)) := by
  have hsteps : (applied.map PreparedRestore.item).map PassItem.step =
      (applied.map (·.change)).map (FileChange.step undo) := by
    rw [List.map_map, List.map_map]
    exact List.map_congr_left fun p hp => (h.prepared.items p (by simp [hp])).step
      (h.prepared.matching _ (h.change_mem (by simp [hp])))
  rw [← hsteps]
  refine h.stage.outline ?_ fun x hx => ?_
  · rw [← List.map_append]
    exact h.prepared.nodup hn
  · obtain ⟨p, hp, rfl⟩ := List.mem_map.mp hx
    have hb := (h.prepared.items p (by simp [hp])).bound
    rw [hb.start, Disk.outline_of_capturable hb.bound.capturable]

/-- The rows of an interrupted operation are ready where their paths can be inspected. -/
theorem interrupted (h : Operating s₀ changeSet undo changes applied rest store u)
    {w : WorkspaceIdentity} (hw : changeSet.workspaceKey = w.key)
    (hn : (changes.map FileChange.path).Nodup)
    (hpart : part.Sublist (applied ++ rest)) (hne : part ≠ [])
    (hclear : ∀ p ∈ part, ∀ q, q <:+ p.change.path.parent → u.disk.outline q ≠ some false) :
    Interrupted w changeSet (actionOf undo) u.blobs u.disk part := by
  obtain ⟨operationId, _, hids⟩ := h.prepared.ids
  have hmem : ∀ p ∈ part, p ∈ applied ++ rest := fun p hp => hpart.subset hp
  have hitem := fun p hp => h.prepared.items p (hmem p hp)
  refine ⟨hne, hw, fun p hp => (hitem p hp).row.changeSetId, ?_, ?_,
    fun p hp => (hitem p hp).row.relativePath, fun p hp => ?_⟩
  · let index : PreparedRestore → Nat := fun p =>
      match p.pending.id with
      | .operation _ _ n => n
      | .mutation _ => 0
    have hindex : (applied ++ rest).map index = List.range' 0 changes.length := by
      let number : PendingId → Nat := fun i =>
        match i with
        | .operation _ _ n => n
        | .mutation _ => 0
      calc (applied ++ rest).map index
          = ((applied ++ rest).map (·.pending.id)).map number := by
            rw [List.map_map]
            rfl
        _ = List.range' 0 changes.length := by
            rw [hids, List.map_map]
            exact List.map_id _
    refine ⟨operationId, index, ?_, fun p hp => ?_⟩
    · refine List.Pairwise.sublist (hpart.map index) ?_
      rw [hindex]
      exact List.pairwise_lt_range'
    · have hid := List.mem_map_of_mem (f := (·.pending.id)) (hmem p hp)
      rw [hids] at hid
      obtain ⟨n, _, hid⟩ := List.mem_map.mp hid
      have hp' : p.pending.id = .operation (actionOf undo) operationId n := hid.symm
      simp [index, hp']
  · exact (h.paths hn).sublist (hpart.map _)
  · have hrow := (hitem p hp).row
    have hb := (hitem p hp).bound
    refine ⟨?_, ?_, ?_, ?_, hrow.before, hrow.after⟩
    · rw [hrow.relativePath]
      exact hclear p hp
    · rw [hrow.relativePath]
      exact h.capturable (hmem p hp)
    · rw [hrow.relativePath]
      rcases List.mem_append.mp (hmem p hp) with hp | hp
      · exact Or.inr (h.current_applied hp)
      · exact Or.inl (h.current_rest hp)
    · intro v hv
      rw [h.stage.linkMode]
      rw [h.found (hmem p hp)] at hv
      exact Disk.snapshot_restorable hb.bound.capturable hv

private theorem row_ids (h : Operating s₀ changeSet undo changes applied rest store u) :
    ((rowsOf (applied ++ rest)).map (·.id)).Nodup := by
  obtain ⟨operationId, _, hids⟩ := h.prepared.ids
  have hmap : (rowsOf (applied ++ rest)).map (·.id) =
      (applied ++ rest).map (·.pending.id) := by
    rw [rowsOf, List.map_map]
    rfl
  rw [hmap, hids]
  refine (List.nodup_range' 1).map fun m n hmn => ?_
  cases hmn
  rfl

private theorem row_fresh (h : Operating s₀ changeSet undo changes applied rest store u)
    (hfresh : ∀ q ∈ s₀.store.pendings.rows, ∀ action operationId n,
      q.id = .operation action operationId n → operationId < s₀.supply) :
    ∀ p ∈ applied ++ rest, ∀ q ∈ s₀.store.pendings.rows, q.id ≠ p.pending.id := by
  intro p hp q hq he
  obtain ⟨operationId, hsupply, hids⟩ := h.prepared.ids
  have hid := List.mem_map_of_mem (f := (·.pending.id)) hp
  rw [hids] at hid
  obtain ⟨n, _, hid⟩ := List.mem_map.mp hid
  have := hfresh q hq _ operationId n (he.trans hid.symm)
  omega

end Operating

end Points

/-- What a recovery leaves of an operation: its rows are gone, and every changed path and the
ChangeSet are as they were before it, or as it was to leave them. -/
structure OperationSettled (s₀ v : ChangeState) (changeSet : ChangeSet)
    (changes : List FileChange) (undo : Bool) : Prop where
  rows : ∀ i, v.store.pendings.get? i = s₀.store.pendings.get? i
  elsewhere : ∀ q, (∀ c ∈ changes, c.path.parts ≠ q) → v.disk.lstat q = s₀.disk.lstat q
  outcome : (v.store.get changeSet.id = some changeSet ∧
      ∀ c ∈ changes, v.disk.snapshot c.path.parts = s₀.disk.snapshot c.path.parts) ∨
    (v.store.get changeSet.id =
        some { changeSet with lifecycle := if undo then .undone else .applied } ∧
      ∀ c ∈ changes, changeSnapshot v.blobs c undo = .ok (v.disk.snapshot c.path.parts))

section Recovery

variable {w : WorkspaceIdentity} {only : Option String} {s₀ u : ChangeState}
  {changeSet : ChangeSet} {changes : List FileChange} {undo : Bool}
  {applied rest : List PreparedRestore} {store : ChangeSetStore}

variable {part : List PreparedRestore}

/-- Rolling all rows back leads to the state before the operation. -/
theorem Operating.settled_back {v : ChangeState}
    (h : Operating s₀ changeSet undo changes applied rest store u)
    (hn : (changes.map FileChange.path).Nodup) (hpart : part.Sublist rest)
    (hrows : Added s₀.store [] (deletedRows store (applied ++ part)))
    (hstored : store.get changeSet.id = some changeSet)
    (hv : Within (deletedRows store (applied ++ part)) u.blobs u.disk
      ((applied ++ part).reverse.map (PreparedRestore.recovered u.disk)) v) :
    OperationSettled s₀ v changeSet changes undo := by
  have hlink : v.disk.linkMode = u.disk.linkMode := hv.pass.linkMode
  have hmem : ∀ x ∈ (applied ++ part).reverse.map (PreparedRestore.recovered u.disk),
      ∃ p ∈ applied ++ part, p.recovered u.disk = x := by
    intro x hx
    rw [List.map_reverse] at hx
    exact List.mem_map.mp (List.mem_reverse.mp hx)
  have hsub : ∀ p ∈ applied ++ part, p ∈ applied ++ rest := by
    intro p hp
    rcases List.mem_append.mp hp with hp | hp
    · simp [hp]
    · simp [hpart.subset hp]
  have hsame : ∀ q, (∀ p ∈ applied ++ part, p.change.path.parts ≠ q) →
      v.disk.lstat q = u.disk.lstat q := by
    intro q hq
    refine hv.pass.untouched q fun x hx => ?_
    obtain ⟨p, hp, rfl⟩ := hmem x hx
    exact hq p hp
  refine ⟨?_, fun q hq => ?_, Or.inl ⟨?_, fun c hc => ?_⟩⟩
  · rw [hv.store]
    exact hrows.get?
  · rw [hsame q fun p hp => hq _ (h.change_mem (hsub p hp))]
    refine h.stage.elsewhere q fun x hx => ?_
    rw [← List.map_append] at hx
    obtain ⟨p, hp, rfl⟩ := List.mem_map.mp hx
    exact hq _ (h.change_mem hp)
  · rw [hv.store, ChangeSetStore.get, deletedRows_changeSets]
    exact hstored
  · obtain ⟨p, hp, rfl⟩ := h.exists_item hc
    rw [← h.found hp]
    by_cases hin : p ∈ applied ++ part
    · have hitem : p.recovered u.disk ∈
          (applied ++ part).reverse.map (PreparedRestore.recovered u.disk) :=
        List.mem_map_of_mem (List.mem_reverse.mpr hin)
      exact (hv.pass.settled _ hitem).1
    · have hrest : p ∈ rest := by
        rcases List.mem_append.mp hp with hp | hp
        · exact absurd (List.mem_append_left _ hp) hin
        · exact hp
      have hkeep : v.disk.lstat p.change.path.parts = u.disk.lstat p.change.path.parts := by
        refine hsame _ fun p' hp' he => hin ?_
        have hinj := List.inj_on_of_nodup_map (h.paths hn) (hsub p' hp') hp
          (RelativePath.parts_injective he)
        exact hinj ▸ hp'
      rw [Disk.snapshot, hkeep, hlink]
      exact h.current_rest hrest

private theorem Operating.rows_found (h : Operating s₀ changeSet undo changes applied rest store u)
    (hstored : s₀.store.get changeSet.id = some changeSet) (hw : changeSet.workspaceKey = w.key)
    (hquiet : recoveredRows w only s₀.store = []) (honly : ∀ i ∈ only, changeSet.id = i)
    (hpart : part.Sublist (applied ++ rest)) (hadded : Added s₀.store (rowsOf part) store) :
    (recoveredRows w only store).Perm (rowsOf part) := by
  refine hadded.recoveredRows (h.row_ids.sublist ((hpart.map _).map _)) hquiet fun q hq => ?_
  obtain ⟨p, hp, rfl⟩ := List.mem_map.mp hq
  have hrow := (h.prepared.items p (hpart.subset hp)).row
  refine ⟨hrow.workspaceKey.trans hw, ?_, fun i hi => hrow.changeSetId.trans (honly i hi)⟩
  rw [hrow.changeSetId, hstored, Option.map_some, hw]

private theorem Operating.rows_owned (h : Operating s₀ changeSet undo changes applied rest store u)
    (hpart : part.Sublist (applied ++ rest)) :
    ∀ q ∈ rowsOf part, q.changeSetId = changeSet.id ∧
      q.id.operationAction = some (actionOf undo) := by
  intro q hq
  obtain ⟨p, hp, rfl⟩ := List.mem_map.mp hq
  refine ⟨(h.prepared.items p (hpart.subset hp)).row.changeSetId, ?_⟩
  obtain ⟨operationId, _, hids⟩ := h.prepared.ids
  have hid := List.mem_map_of_mem (f := (·.pending.id)) (hpart.subset hp)
  rw [hids] at hid
  obtain ⟨n, _, hid⟩ := List.mem_map.mp hid
  rw [← hid]
  rfl

private theorem Operating.root_kept
    (h : Operating s₀ changeSet undo changes applied rest store u)
    (hroot : (s₀.disk.lstat []).map Entry.identity = some w.rootIdentity) :
    (u.disk.lstat []).map Entry.identity = some w.rootIdentity := by
  rw [h.stage.elsewhere [] fun x _ => List.cons_ne_nil _ _]
  exact hroot

/-- An operation that was not committed is rolled back where the way back is safe. -/
theorem Operating.recover_back (h : Operating s₀ changeSet undo changes applied rest store u)
    (hstored : s₀.store.get changeSet.id = some changeSet) (hw : changeSet.workspaceKey = w.key)
    (hlife : changeSet.lifecycle = if undo then .applied else .undone)
    (hn : (changes.map FileChange.path).Nodup)
    (hroot : (s₀.disk.lstat []).map Entry.identity = some w.rootIdentity)
    (hrec : RecordsRestorable s₀.disk.linkMode changes)
    (hquiet : recoveredRows w only s₀.store = []) (honly : ∀ i ∈ only, changeSet.id = i)
    (hfresh : ∀ q ∈ s₀.store.pendings.rows, ∀ action operationId n,
      q.id = .operation action operationId n → operationId < s₀.supply)
    (hpart : part.Sublist rest) (hadded : Added s₀.store (rowsOf (applied ++ part)) store)
    (hget : store.get changeSet.id = some changeSet)
    (hsafe : SafePass u.disk.outline
      (recoverySteps undo (applied.map (·.change)) (part.map (·.change))))
    (hfree : ∀ p ∈ applied ++ part, PathFree u.disk.outline
      (recoverySteps undo (applied.map (·.change)) (part.map (·.change))) p.change.path) :
    Triple (fun s => s = u) (reconcilePending w only)
      (fun _ v => OperationSettled s₀ v changeSet changes undo) (fun _ _ => False)
      (fun _ => True) := by
  have hsub : (applied ++ part).Sublist (applied ++ rest) := (List.Sublist.refl _).append hpart
  have hfound := h.rows_found hstored hw hquiet honly hsub hadded
  have hadded' : Added s₀.store (rowsOf (applied ++ part ++ [])) store := by simpa using hadded
  have hrows : Added s₀.store [] (deletedRows store (applied ++ part)) := by
    refine hadded'.deletedRows ?_ fun p hp => h.row_fresh hfresh p (hsub.subset hp)
    rw [List.append_nil]
    exact h.row_ids.sublist ((hsub.map _).map _)
  refine Triple.post ?_ fun _ v hv => h.settled_back hn hpart hrows hget hv
  rw [← h.store] at hfound ⊢
  by_cases hne : applied ++ part = []
  · rw [hne] at hfound ⊢
    exact reconcilePending_nothing (List.perm_nil.mp hfound) (h.root_kept hroot)
  · have hclear : ∀ p ∈ applied ++ part, ∀ q, q <:+ p.change.path.parent →
        u.disk.outline q ≠ some false := by
      intro p hp
      obtain ⟨x, hx, hpath⟩ := exists_recoveryStep undo (applied.map (·.change))
        (part.map (·.change)) (c := p.change)
        (by rw [← List.map_append]; exact List.mem_map_of_mem hp)
      rw [← hpath]
      exact hsafe.bindable x hx
    have hint := h.interrupted hw hn hsub hne hclear
    refine reconcilePending_operation hfound (by simpa [rowsOf] using hne)
      (fun q hq => (h.rows_owned hsub q hq).1) (fun q hq => (h.rows_owned hsub q hq).2)
      (h.root_kept hroot) fun items hperm => ?_
    rw [← h.recovered_steps hrec hpart] at hsafe hfree
    refine hint.back hperm (h.store ▸ hget) hw ?_ hsafe hfree
    rw [hlife]
    cases undo <;> rfl

/-- A committed operation is completed where its paths can be inspected. -/
theorem Operating.recover_forth (h : Operating s₀ changeSet undo changes applied [] store u)
    (hstored : s₀.store.get changeSet.id = some changeSet) (hw : changeSet.workspaceKey = w.key)
    (hn : (changes.map FileChange.path).Nodup)
    (hroot : (s₀.disk.lstat []).map Entry.identity = some w.rootIdentity)
    (hquiet : recoveredRows w only s₀.store = []) (honly : ∀ i ∈ only, changeSet.id = i)
    (hfresh : ∀ q ∈ s₀.store.pendings.rows, ∀ action operationId n,
      q.id = .operation action operationId n → operationId < s₀.supply)
    (hpart : part.Sublist applied) (hadded : Added s₀.store (rowsOf part) store)
    (hget : store.get changeSet.id =
      some { changeSet with lifecycle := if undo then .undone else .applied })
    (hclear : ∀ p ∈ part, ∀ q, q <:+ p.change.path.parent → u.disk.outline q ≠ some false) :
    Triple (fun s => s = u) (reconcilePending w only)
      (fun _ v => OperationSettled s₀ v changeSet changes undo) (fun _ _ => False)
      (fun _ => True) := by
  have hsub : part.Sublist (applied ++ []) := by rwa [List.append_nil]
  have hfound := h.rows_found hstored hw hquiet honly hsub hadded
  have hrows : Added s₀.store [] (deletedRows store part) := by
    have hadded' : Added s₀.store (rowsOf (part ++ [])) store := by rwa [List.append_nil]
    refine hadded'.deletedRows ?_ fun p hp => h.row_fresh hfresh p (hsub.subset hp)
    rw [List.append_nil]
    exact h.row_ids.sublist ((hsub.map _).map _)
  have hdone : ∀ p ∈ applied, u.disk.snapshot p.change.path.parts = p.desired :=
    fun p hp => h.current_applied hp
  refine Triple.post (Q := fun _ => Within (deletedRows store part) u.blobs u.disk []) ?_ ?_
  · rw [← h.store] at hfound ⊢
    by_cases hne : part = []
    · rw [hne] at hfound ⊢
      exact reconcilePending_nothing (List.perm_nil.mp hfound) (h.root_kept hroot)
    · refine reconcilePending_operation hfound (by simpa [rowsOf] using hne)
        (fun q hq => (h.rows_owned hsub q hq).1) (fun q hq => (h.rows_owned hsub q hq).2)
        (h.root_kept hroot) fun items hperm => ?_
      rw [← h.store] at hget
      have hlife : (if undo then ChangeLifecycle.undone else .applied) =
          committedLifecycle (actionOf undo) := by
        cases undo <;> rfl
      exact (h.interrupted hw hn hsub hne hclear).forth hperm hget hw hlife
        fun p hp => hdone p (hpart.subset hp)
  · intro _ v hv
    have hsame : ∀ q, v.disk.lstat q = u.disk.lstat q := fun q => hv.lstat q
    have hsnap : ∀ q, v.disk.snapshot q = u.disk.snapshot q := by
      intro q
      rw [Disk.snapshot, Disk.snapshot, hsame, show v.disk.linkMode = u.disk.linkMode from
        hv.pass.linkMode]
    refine ⟨?_, fun q hq => ?_, Or.inr ⟨?_, fun c hc => ?_⟩⟩
    · rw [hv.store]
      exact hrows.get?
    · rw [hsame]
      refine h.stage.elsewhere q fun x hx => ?_
      rw [← List.map_append] at hx
      obtain ⟨p, hp, rfl⟩ := List.mem_map.mp hx
      exact hq _ (h.change_mem hp)
    · rw [hv.store, ChangeSetStore.get, deletedRows_changeSets]
      exact hget
    · obtain ⟨p, hp, rfl⟩ := h.exists_item hc
      rw [hsnap, hdone p (by simpa using hp), hv.blobs]
      exact (h.prepared.items p hp).desired

private theorem Operating.start_safe (h : Operating s₀ changeSet undo changes [] rest store u)
    (hn : (changes.map FileChange.path).Nodup) (hpart : part.Sublist rest) :
    SafePass u.disk.outline (recoverySteps undo [] (part.map (·.change))) ∧
      ∀ p ∈ part, PathFree u.disk.outline (recoverySteps undo [] (part.map (·.change)))
        p.change.path := by
  have ho : u.disk.outline = s₀.disk.outline := h.outline hn
  have hmem : ∀ x ∈ recoverySteps undo [] (part.map (·.change)),
      ∃ p ∈ part, p.change.keepStep undo = x := by
    intro x hx
    simpa [recoverySteps] using hx
  have hclear : ∀ p ∈ part, ∀ q, q <:+ p.change.path.parent → u.disk.outline q ≠ some false := by
    intro p hp
    rw [ho]
    exact h.prepared.clear _ (h.change_mem (by simp [hpart.subset hp]))
  have hkeep : ∀ x ∈ recoverySteps undo [] (part.map (·.change)),
      x.restored = false ∧ x.target = u.disk.outline x.path.parts := by
    intro x hx
    obtain ⟨p, hp, rfl⟩ := hmem x hx
    have hin : p ∈ [] ++ rest := by simp [hpart.subset hp]
    have hstep := (h.prepared.items p hin).step (h.prepared.matching _ (h.change_mem hin))
    refine ⟨rfl, ?_⟩
    change (p.change.step undo).start = u.disk.outline p.change.path.parts
    have hb := (h.prepared.items p hin).bound
    have hcap := Disk.outline_of_capturable hb.bound.capturable
    rw [← hstep, ho]
    exact (congrArg outlineOf hb.start).trans hcap.symm
  have hbindable : Bindable u.disk.outline (recoverySteps undo [] (part.map (·.change))) := by
    intro x hx
    obtain ⟨p, hp, rfl⟩ := hmem x hx
    exact hclear p hp
  obtain ⟨hsafe, hfree⟩ := safePass_of_kept u.disk.tree.outline_rooted hkeep hbindable
  refine ⟨hsafe, fun p hp => ?_⟩
  exact hfree (p.change.keepStep undo) (by simpa [recoverySteps] using ⟨p, hp, rfl⟩)

private theorem Operating.back_safe
    (h : Operating s₀ changeSet undo changes applied rest store u)
    (hn : (changes.map FileChange.path).Nodup)
    (hsafe : Recoverable s₀.disk.outline undo changes) (hne : applied ≠ []) :
    SafePass u.disk.outline
        (recoverySteps undo (applied.map (·.change)) (rest.map (·.change))) ∧
      ∀ c ∈ changes, PathFree u.disk.outline
        (recoverySteps undo (applied.map (·.change)) (rest.map (·.change))) c.path := by
  have hbindable : Bindable s₀.disk.outline (operationSteps undo changes) := by
    intro x hx
    obtain ⟨c, hc, rfl⟩ := List.mem_map.mp hx
    exact h.prepared.clear c (mem_restoreOrder.1 hc)
  have horder : restoreOrder undo changes = applied.map (·.change) ++ rest.map (·.change) := by
    rw [← h.prepared.order, List.map_append]
  have hsteps : (applied.map PreparedRestore.item).map PassItem.step =
      (applied.map (·.change)).map (FileChange.step undo) := by
    rw [List.map_map, List.map_map]
    exact List.map_congr_left fun p hp => (h.prepared.items p (by simp [hp])).step
      (h.prepared.matching _ (h.change_mem (by simp [hp])))
  rw [h.outline hn]
  exact hsafe hbindable _ _ horder (by simpa using hne) (hsteps ▸ h.reached)

private theorem settled_untouched (hstored : s₀.store.get changeSet.id = some changeSet)
    (hroot : (s₀.disk.lstat []).map Entry.identity = some w.rootIdentity)
    (hquiet : recoveredRows w only s₀.store = []) (hstore : u.store = s₀.store)
    (hdisk : ∀ q, u.disk.lstat q = s₀.disk.lstat q)
    (hlink : u.disk.linkMode = s₀.disk.linkMode) :
    Triple (fun s => s = u) (reconcilePending w only)
      (fun _ v => OperationSettled s₀ v changeSet changes undo) (fun _ _ => False)
      (fun _ => True) := by
  have hrows : recoveredRows w only u.store = [] := by rw [hstore]; exact hquiet
  refine (reconcilePending_nothing hrows (hdisk [] ▸ hroot)).post fun _ v hv => ?_
  have hsame : ∀ q, v.disk.lstat q = s₀.disk.lstat q := fun q => (hv.lstat q).trans (hdisk q)
  refine ⟨fun i => by rw [hv.store, hstore], fun q _ => hsame q, Or.inl ⟨?_, fun c _ => ?_⟩⟩
  · rw [hv.store, hstore]
    exact hstored
  · rw [Disk.snapshot, Disk.snapshot, hsame, show v.disk.linkMode = s₀.disk.linkMode from
      hv.pass.linkMode.trans hlink]

/-- Recovery settles an operation from every point at which a crash can find it. -/
theorem OperationPoint.settled (hstored : s₀.store.get changeSet.id = some changeSet)
    (hw : changeSet.workspaceKey = w.key)
    (hlife : changeSet.lifecycle = if undo then .applied else .undone)
    (hn : (changes.map FileChange.path).Nodup)
    (hroot : (s₀.disk.lstat []).map Entry.identity = some w.rootIdentity)
    (hrec : RecordsRestorable s₀.disk.linkMode changes)
    (hquiet : recoveredRows w only s₀.store = []) (honly : ∀ i ∈ only, changeSet.id = i)
    (hfresh : ∀ q ∈ s₀.store.pendings.rows, ∀ action operationId n,
      q.id = .operation action operationId n → operationId < s₀.supply)
    (hsafe : Recoverable s₀.disk.outline undo changes)
    (h : OperationPoint s₀ changeSet undo changes u) :
    Triple (fun s => s = u) (reconcilePending w only)
      (fun _ v => OperationSettled s₀ v changeSet changes undo) (fun _ _ => False)
      (fun _ => True) := by
  have hsaved : ∀ {applied rest : List PreparedRestore} {store : ChangeSetStore},
      Operating s₀ changeSet undo changes applied rest store u → ∀ part : List PreparedRestore,
      part.Sublist (applied ++ rest) → Added s₀.store (rowsOf part) (savedRows s₀.store part) := by
    intro applied rest store h part hpart
    refine (Added.refl s₀.store).savedRows ?_ fun p hp => h.row_fresh hfresh p (hpart.subset hp)
    rw [List.nil_append]
    exact h.row_ids.sublist ((hpart.map _).map _)
  have hget : ∀ part, (savedRows s₀.store part).get changeSet.id = some changeSet := by
    intro part
    rw [ChangeSetStore.get, savedRows_changeSets]
    exact hstored
  cases h with
  | quiet h =>
    exact settled_untouched hstored hroot hquiet h.store
      (fun q => h.pass.untouched q fun x hx => by cases hx) h.pass.linkMode
  | announcing done rest h =>
    have hpart : done.Sublist (done ++ rest) := List.sublist_append_left _ _
    obtain ⟨hback, hfree⟩ := h.start_safe hn hpart
    exact h.recover_back hstored hw hlife hn hroot hrec hquiet honly hfresh hpart
      (hsaved h done hpart) (hget done) hback hfree
  | restoring applied rest h =>
    have hadded := hsaved h (applied ++ rest) (List.Sublist.refl _)
    by_cases hne : applied = []
    · subst hne
      obtain ⟨hback, hfree⟩ := h.start_safe hn (List.Sublist.refl _)
      exact h.recover_back hstored hw hlife hn hroot hrec hquiet honly hfresh
        (List.Sublist.refl _) hadded (hget _) hback hfree
    · obtain ⟨hback, hfree⟩ := h.back_safe hn hsafe hne
      exact h.recover_back hstored hw hlife hn hroot hrec hquiet honly hfresh
        (List.Sublist.refl _) hadded (hget _) hback fun p hp => hfree _ (h.change_mem hp)
  | withdrawing done rest h =>
    have hpart : rest.Sublist (done ++ rest) := List.sublist_append_right _ _
    obtain ⟨hback, hfree⟩ := h.start_safe hn hpart
    refine h.recover_back hstored hw hlife hn hroot hrec hquiet honly hfresh hpart
      ((hsaved h (done ++ rest) (List.Sublist.refl _)).deletedRows h.row_ids fun p hp =>
        h.row_fresh hfresh p (by simp [hp])) ?_ hback hfree
    rw [ChangeSetStore.get, deletedRows_changeSets]
    exact hget _
  | committed done rest h =>
    have hpart : rest.Sublist (done ++ rest) := List.sublist_append_right _ _
    let committed : ChangeSet :=
      { changeSet with lifecycle := if undo then .undone else .applied }
    have hadded : Added s₀.store (rowsOf (done ++ rest))
        ((savedRows s₀.store (done ++ rest)).save committed) :=
      (hsaved h (done ++ rest) (by rw [List.append_nil])).save (hget _) rfl
    have hids := h.row_ids
    rw [List.append_nil] at hids
    refine h.recover_forth hstored hw hn hroot hquiet honly hfresh hpart
      (hadded.deletedRows hids fun p hp => h.row_fresh hfresh p (by simp [hp])) ?_ fun p hp => ?_
    · rw [ChangeSetStore.get, deletedRows_changeSets]
      exact ChangeSetStore.get_save _ _
    · have hne : done ++ rest ≠ [] := List.ne_nil_of_mem (List.mem_append_right _ hp)
      obtain ⟨x, hx, hpath⟩ := exists_recoveryStep undo ((done ++ rest).map (·.change)) []
        (c := p.change) (by simpa using Or.inr ⟨p, hp, rfl⟩)
      rw [← hpath]
      exact (h.back_safe hn hsafe hne).1.bindable x hx

private theorem operate_refused (hstored : s₀.store.get changeSet.id = some changeSet)
    (hlife : changeSet.lifecycle ≠ if undo then .applied else .undone) :
    Triple (fun s => s = s₀) (operate w changeSet.id undo) (fun _ _ => False) (fun _ _ => True)
      (fun _ => False) := by
  refine Triple.bind (R := fun c s => c = changeSet ∧ s = s₀)
    (Triple.reading ?_ fun _ _ _ _ => trivial) fun c => ?_
  · rintro s c rfl hc
    rw [hstored] at hc
    by_cases hw : changeSet.workspaceKey = w.key
    · simp only [hw, ne_eq, not_true_eq_false, if_false, Except.ok.injEq] at hc
      exact ⟨hc.symm, rfl⟩
    · simp [hw] at hc
  refine Triple.assume (fun _ hs => hs.1) ?_
  rintro rfl
  dsimp only
  rw [if_pos hlife]
  exact Triple.bind (R := fun _ _ => False) (Triple.throw fun _ _ => trivial) fun _ _ hs => hs.elim

/-- **Crash atomicity of undo and redo.** Wherever a crash finds an operation whose way back
is safe, recovery succeeds, deletes its rows and leaves all of the old or all of the new. -/
theorem operation_crash_atomic (hstored : s₀.store.get changeSet.id = some changeSet)
    (hw : changeSet.workspaceKey = w.key)
    (hmerge : mergeFileChanges changeSet.files = .ok changes)
    (hroot : (s₀.disk.lstat []).map Entry.identity = some w.rootIdentity)
    (hblobs : s₀.blobs.Sound) (hrec : RecordsRestorable s₀.disk.linkMode changes)
    (hquiet : recoveredRows w only s₀.store = []) (honly : ∀ i ∈ only, changeSet.id = i)
    (hfresh : ∀ q ∈ s₀.store.pendings.rows, ∀ action operationId n,
      q.id = .operation action operationId n → operationId < s₀.supply)
    (hsafe : Recoverable s₀.disk.outline undo changes)
    (hu : u ∈ Proc.crashStates (operate w changeSet.id undo) s₀) :
    ∃ v trace, reconcilePending w only ⟨u, []⟩ = .ok () ⟨v, trace⟩ ∧
      OperationSettled s₀ v changeSet changes undo := by
  have hsettled : Triple (fun s => s = u) (reconcilePending w only)
      (fun _ v => OperationSettled s₀ v changeSet changes undo) (fun _ _ => False)
      (fun _ => True) := by
    have hstart : u = s₀ → Triple (fun s => s = u) (reconcilePending w only)
        (fun _ v => OperationSettled s₀ v changeSet changes undo) (fun _ _ => False)
        (fun _ => True) := by
      rintro rfl
      exact settled_untouched hstored hroot hquiet rfl (fun _ => rfl) rfl
    by_cases hlife : changeSet.lifecycle = if undo then .applied else .undone
    · have hspec := operate_spec undo hstored hmerge (Option.map_eq_some_iff.mp hroot) hblobs hrec
        (w := w)
      rcases hspec.crashStates rfl hu with hu | hpoint
      · exact hstart hu
      · exact hpoint.settled hstored hw hlife (mergeFileChanges_nodup hmerge) hroot hrec hquiet
          honly hfresh hsafe
    · rcases (operate_refused hstored hlife).crashStates rfl hu with hu | hfalse
      · exact hstart hu
      · exact hfalse.elim
  obtain ⟨_, ⟨v, trace⟩, hrun, hv⟩ := hsettled.returns rfl
  exact ⟨v, trace, hrun, hv⟩

end Recovery

end Contents

section Sample

attribute [local instance] spelledHash

/-- A file that became the directory `d`. -/
def retypedChange : FileChange :=
  ⟨some "m1", ⟨"d", []⟩, .updated, .directory, some .file, some .directory,
    some (ContentHash.sha256 [9]), some (ContentHash.sha256 []), some (ContentHash.sha256 [9]),
    none, some 0o644, some 0o755, by decide⟩

/-- The creation of the file in `d`. -/
def createdChange : FileChange :=
  ⟨some "m2", ⟨"x", ["d"]⟩, .created, .file, none, some .file, none,
    some (ContentHash.sha256 [1]), none, some (ContentHash.sha256 [1]), none, some 0o644,
    samplePath_length⟩

/-- A sealed ChangeSet with some of these changes. -/
def sealedChanges (files : List FileChange) : ChangeSet :=
  ⟨"changes", "workspace", .applied, .full, files, [], 0, some 0⟩

/-- A service whose workspace is as the changes left it. -/
def changedState (files : List FileChange) : ChangeState :=
  { sampleState with
    store := ⟨Table.empty.put (sealedChanges files), Table.empty⟩
    blobs := (Dict.empty.set (ContentHash.sha256 [1]) [1]).set (ContentHash.sha256 [9]) [9] }

private theorem changedState_sound (files : List FileChange) :
    (changedState files).blobs.Sound := by
  intro digest content hd
  simp only [changedState, Dict.get?_set] at hd
  split at hd
  · next he =>
    cases hd
    exact he.symm
  · split at hd
    · next he =>
      cases hd
      exact he.symm
    · cases hd

private theorem sample_restorable (files : List FileChange) :
    RecordsRestorable (changedState files).disk.linkMode [retypedChange, createdChange] := by
  have hread : ∀ c ∈ [retypedChange, createdChange], ∀ side, ∃ v,
      changeSnapshot (changedState files).blobs c side = .ok v ∧
        ∀ u, v = some u → u.Restorable (changedState files).disk.linkMode := by
    intro c hc side
    simp only [List.mem_cons, List.not_mem_nil, or_false] at hc
    rcases hc with rfl | rfl <;> cases side
    · refine ⟨some ⟨.directory, none, some 0o755⟩, by rfl, ?_⟩
      rintro u ⟨⟩
      exact ⟨⟨rfl, by simp [NodeSnapshot.Formed]⟩, by simp, by simp⟩
    · refine ⟨some ⟨.file, some [9], some 0o644⟩, by rfl, ?_⟩
      rintro u ⟨⟩
      exact ⟨⟨rfl, by simp [NodeSnapshot.Formed]⟩, by simp [maxChangesetBytes], by simp⟩
    · refine ⟨some ⟨.file, some [1], some 0o644⟩, by rfl, ?_⟩
      rintro u ⟨⟩
      exact ⟨⟨rfl, by simp [NodeSnapshot.Formed]⟩, by simp [maxChangesetBytes], by simp⟩
    · exact ⟨none, by rfl, fun u hu => by cases hu⟩
  intro c hc b side u hu
  obtain ⟨v, hv, hrest⟩ := hread c hc side
  exact hrest u (changeSnapshot_unique hv hu)

/-- An undo that a crash interrupts after it has removed the created file is rolled back. -/
theorem operation_crash_atomic_created :
    ∃ u v trace, u ∈ Proc.crashStates (operate sampleWorkspace "changes" true)
        (changedState [createdChange]) ∧
      u.disk.lstat ["x", "d"] = none ∧
      u.store.get "changes" = some (sealedChanges [createdChange]) ∧
      reconcilePending sampleWorkspace none ⟨u, []⟩ = .ok () ⟨v, trace⟩ ∧
      OperationSettled (changedState [createdChange]) v (sealedChanges [createdChange])
        [createdChange] true := by
  obtain ⟨u, hu, hgone, hkept⟩ : ∃ u ∈ Proc.crashStates (operate sampleWorkspace "changes" true)
      (changedState [createdChange]), u.disk.lstat ["x", "d"] = none ∧
        u.store.get "changes" = some (sealedChanges [createdChange]) := by
    decide +kernel
  have hleaves : LeavesOf [createdChange] (changedState [createdChange]).disk.outline :=
    ⟨sampleDisk.tree.outline_rooted, by decide, by decide⟩
  obtain ⟨v, trace, hrun, hv⟩ := @operation_crash_atomic _ sampleWorkspace none _ u
    (sealedChanges [createdChange]) [createdChange] true (by decide) rfl (by rfl) (by decide)
    (changedState_sound _) (fun c hc => sample_restorable _ c (by simp at hc ⊢; exact Or.inr hc))
    (by decide) (by simp) (fun q hq => by cases hq) (recoverable_of_leaves hleaves (by decide)) hu
  exact ⟨u, v, trace, hu, hgone, hkept, hrun, hv⟩

/-- When a file became a directory with a file in it, an undo that a crash interrupts before its
commit can be neither rolled back nor completed, because the path in the directory cannot be
bound below the restored file. -/
theorem operation_not_crash_atomic :
    ¬∀ {_ : ContentHash} {w : WorkspaceIdentity} {only : Option String} {s₀ u : ChangeState}
      {changeSet : ChangeSet} {changes : List FileChange} {undo : Bool},
      s₀.store.get changeSet.id = some changeSet → changeSet.workspaceKey = w.key →
      mergeFileChanges changeSet.files = .ok changes →
      (s₀.disk.lstat []).map Entry.identity = some w.rootIdentity → s₀.blobs.Sound →
      RecordsRestorable s₀.disk.linkMode changes → recoveredRows w only s₀.store = [] →
      (∀ i ∈ only, changeSet.id = i) →
      (∀ q ∈ s₀.store.pendings.rows, ∀ action operationId n,
        q.id = .operation action operationId n → operationId < s₀.supply) →
      u ∈ Proc.crashStates (operate w changeSet.id undo) s₀ →
      ∃ v trace, reconcilePending w only ⟨u, []⟩ = .ok () ⟨v, trace⟩ ∧
        OperationSettled s₀ v changeSet changes undo := by
  intro h
  let files := [retypedChange, createdChange]
  obtain ⟨u, hu, hstuck⟩ : ∃ u ∈ Proc.crashStates (operate sampleWorkspace "changes" true)
      (changedState files),
      Proc.value (reconcilePending sampleWorkspace none ⟨u, []⟩) = none := by
    decide +kernel
  obtain ⟨v, trace, hrun, _⟩ := @h _ sampleWorkspace none (changedState files) u
    (sealedChanges files) files true (by decide) rfl (by rfl) (by decide) (changedState_sound _)
    (sample_restorable _) (by decide) (by simp) (fun q hq => by cases hq) hu
  rw [hrun] at hstuck
  cases hstuck

end Sample

end AwesomeAgent
