import AwesomeAgent.Changes.OperationPoints

/-!
# Undo and redo go through

An operation whose merged changes form a safe pass completes: every changed path
ends in its recorded state and the ChangeSet has the new lifecycle.
-/

namespace AwesomeAgent

open ChangeOperations

variable [ContentHash]

/-- An operation that can be started on a state. -/
structure Operable (w : WorkspaceIdentity) (changeSet : ChangeSet) (changes : List FileChange)
    (undo : Bool) (s : ChangeState) : Prop where
  stored : s.store.get changeSet.id = some changeSet
  workspace : changeSet.workspaceKey = w.key
  lifecycle : changeSet.lifecycle = if undo then .applied else .undone
  reversible : changeSet.reversibility ≠ .none
  merged : mergeFileChanges changeSet.files = .ok changes
  root : ∃ e, s.disk.lstat [] = some e ∧ e.identity = w.rootIdentity
  blobs : s.blobs.Sound
  restorable : RecordsRestorable s.disk.linkMode changes
  matching : ∀ c ∈ changes, Matches s.blobs s.disk undo c
  capturable : ∀ c ∈ changes, ∀ e, s.disk.lstat c.path.parts = some e → e.Capturable
  desired : ∀ c ∈ changes, ∃ u, changeSnapshot s.blobs c undo = .ok u

variable {s₀ : ChangeState} {changeSet : ChangeSet} {changes : List FileChange} {undo : Bool}
  {w : WorkspaceIdentity}

/-- The restores of a safe pass go through and are committed. -/
theorem operateInTree_safe {expected target : ChangeLifecycle}
    (hn : (changes.map FileChange.path).Nodup)
    (hrec : RecordsRestorable s₀.disk.linkMode changes)
    (hprep : ∀ c ∈ changes, Preparable s₀.blobs s₀.disk undo c)
    (hsafe : SafePass s₀.disk.outline (operationSteps undo changes))
    {E : Fault → ChangeState → Prop} :
    Triple (fun s => Idle s₀ s ∧ s.blobs = s₀.blobs)
      (operateInTree changeSet changes undo expected target) (fun _ _ => True) E
      fun _ => True := by
  refine Triple.bind ((prepare_spec (fun _ _ => trivial) changeSet changes undo hrec).fault
    fun _ _ ⟨_, hne⟩ => absurd hprep hne) fun prepared => ?_
  refine Triple.assume (F := ∃ b, Prepared s₀ b changeSet undo changes prepared)
    (fun s hs => ⟨s.blobs, hs.2⟩) fun ⟨b, hprepared⟩ => ?_
  have hsteps := hprepared.steps hprepared.matching
  have hnodup := hprepared.nodup hn
  refine Triple.bind (R := fun r s => r = .ok () ∧
    Restoring s₀ (savedRows s₀.store prepared) [] s ∧ PassPins s₀.disk [] s.tree) ?_ fun r => ?_
  · exact Triple.attempt (((savePendings_spec prepared (E := fun _ _ => False)
      (fun _ _ _ _ => trivial)).pre fun s hs => hs.1).conseq (fun _ h => h)
      (fun _ _ h => ⟨rfl, h⟩) (fun _ _ h => h.elim) (fun _ h => h))
  refine Triple.assume (fun _ hs => hs.1) ?_
  rintro rfl
  refine Triple.bind ((restoreItems_safe (fun p hp => (hprepared.items p hp).bound)
    (by simpa using hnodup) ?_ (fun _ _ _ _ => trivial)).pre fun _ hs => hs.2) ?_
  · intro before x after hsplit
    have hsplit' : operationSteps undo changes =
        before.map PassItem.step ++ x.step :: after.map PassItem.step := by
      rw [← hsteps, hsplit]
      simp
    simpa using hsafe.step _ _ _ hsplit'
  rintro ⟨applied, failure⟩
  refine Triple.assume (fun _ hs => hs.1) ?_
  intro hr
  cases hr
  refine Triple.bind (R := fun r _ => r = .ok ()) (Triple.attempt
    ((Triple.onStore (E := fun _ _ => False) (Q := fun _ => True) (fun _ _ => trivial)
      (fun _ _ => trivial)).conseq (fun _ h => h) (fun _ _ _ => rfl) (fun _ _ h => h.elim)
      (fun _ h => h))) fun r => ?_
  refine Triple.assume (fun _ hs => hs) ?_
  rintro rfl
  exact Triple.bind ((deletePendings_spec (I := fun _ _ => True) (fun _ _ _ _ => trivial)
    s₀.store prepared (fun _ _ _ _ => trivial)).pre fun _ _ => trivial) fun _ =>
      Triple.pure fun _ _ => trivial

private theorem Operable.preparable {s : ChangeState} (h : Operable w changeSet changes undo s)
    (hb : Bindable s.disk.outline (operationSteps undo changes)) :
    ∀ c ∈ changes, Preparable s.blobs s.disk undo c := by
  intro c hc
  have hstep : c.step undo ∈ operationSteps undo changes :=
    List.mem_map_of_mem (mem_restoreOrder.2 hc)
  obtain ⟨u, hu, hm⟩ := h.matching c hc
  refine ⟨⟨⟨hb _ hstep, fun _ _ => id⟩, h.capturable c hc, ⟨u, hu⟩⟩, ⟨u, hu, hm⟩, h.desired c hc⟩

/-- An operation over a safe pass completes. -/
theorem operate_safe (h : Operable w changeSet changes undo s₀)
    (hsafe : SafePass s₀.disk.outline (operationSteps undo changes)) :
    Triple (fun s => s = s₀) (operate w changeSet.id undo)
      (fun r s => Operated changeSet changes undo s₀ s ∧
        r.lifecycle = if undo then .undone else .applied)
      (fun _ _ => False) (OperationPoint s₀ changeSet undo changes) := by
  suffices hreturn : Triple (fun s => s = s₀) (operate w changeSet.id undo) (fun _ _ => True)
      (fun _ _ => False) fun _ => True from
    ((operate_spec undo h.stored h.merged h.root h.blobs h.restorable).conj hreturn).conseq
      (fun _ hs => hs) (fun _ _ hs => hs.1) (fun _ _ hs => hs.2) (fun _ hs => hs)
  refine Triple.bind (R := fun c s => c = changeSet ∧ s = s₀) ?_ fun c => ?_
  · refine Triple.reading ?_ ?_
    · rintro s c rfl hc
      simp only [h.stored, h.workspace, ne_eq, not_true_eq_false, if_false,
        Except.ok.injEq] at hc
      exact ⟨hc.symm, rfl⟩
    · rintro s fault rfl hf
      simp [h.stored, h.workspace] at hf
  refine Triple.assume (fun _ hs => hs.1) ?_
  rintro rfl
  simp only [h.lifecycle, ne_eq, not_true_eq_false, if_false, h.reversible]
  refine Triple.bind (R := fun r s => r = changes ∧ s = s₀) ?_ fun r => ?_
  · refine Triple.liftExcept ?_ ?_
    · rintro s r ⟨_, rfl⟩ hr
      rw [h.merged] at hr
      cases hr
      exact ⟨rfl, rfl⟩
    · rintro s fault ⟨_, rfl⟩ hf
      rw [h.merged] at hf
      cases hf
  refine Triple.assume (fun _ hs => hs.1) ?_
  rintro rfl
  have hprep := h.preparable hsafe.bindable
  refine Triple.bind (Triple.mapFault (Triple.bind ((enter_idle h.blobs h.root).pre
    fun _ hs => hs.2) fun _ => operateInTree_safe (mergeFileChanges_nodup h.merged)
      h.restorable hprep hsafe)) fun prepared => Triple.pure fun _ _ => trivial

end AwesomeAgent
