import AwesomeAgent.Changes.History

/-!
# Undo and redo are inverse

A sealed history stands at one of its two ends. An operation whose restores are a
safe pass leads to the other end, so undo and redo can follow each other in any
run that leaves the touched paths alone.
-/

namespace AwesomeAgent

open ChangeJournal ChangeOperations

/-- Lifecycle of a sealed ChangeSet on which the operation is next. -/
def nextLifecycle (undo : Bool) : ChangeLifecycle := if undo then .applied else .undone

/-- Other writers left the ChangeSet, its blobs and the touched paths alone. -/
structure Undisturbed [ContentHash] (changeSet : ChangeSet) (s t : ChangeState) : Prop where
  stored : t.store.get changeSet.id = s.store.get changeSet.id
  blobs : s.blobs.Extends t.blobs
  sound : t.blobs.Sound
  linkMode : t.disk.linkMode = s.disk.linkMode
  root : (t.disk.lstat []).map Entry.identity = (s.disk.lstat []).map Entry.identity
  touched : ∀ c ∈ changeSet.files, t.disk.lstat c.path.parts = s.disk.lstat c.path.parts

section Runs

variable [ContentHash]

/-- Undo and redo by turns; the flag tells which of them is next. -/
inductive OperationRun (w : WorkspaceIdentity) (changeSet : ChangeSet) (s : ChangeState) :
    Bool → ChangeState → Prop
  | start : OperationRun w changeSet s true s
  | others {undo : Bool} {t u : ChangeState} : OperationRun w changeSet s undo t →
      Undisturbed changeSet t u → OperationRun w changeSet s undo u
  | operate {undo : Bool} {t u : ChangeState} {r : ChangeOperationResult}
      {trace : List ChangeState} : OperationRun w changeSet s undo t →
      operate w changeSet.id undo ⟨t, []⟩ = .ok r ⟨u, trace⟩ →
      OperationRun w changeSet s (!undo) u

/-- The operation succeeds from `t` and leaves every touched path as it is on `d`. -/
def LeadsTo (w : WorkspaceIdentity) (changeSet : ChangeSet) (undo : Bool) (d : Disk)
    (t : ChangeState) : Prop :=
  ∃ r u trace, operate w changeSet.id undo ⟨t, []⟩ = .ok r ⟨u, trace⟩ ∧
    r.lifecycle = nextLifecycle (!undo) ∧
    (u.store.get changeSet.id).map (·.lifecycle) = some (nextLifecycle (!undo)) ∧
    ∀ c ∈ changeSet.files, u.disk.snapshot c.path.parts = d.snapshot c.path.parts

/-- A sealed history of which the disk shows the end that the next operation leaves. -/
structure Standing (w : WorkspaceIdentity) (d₀ d₁ : Disk) (changeSet : ChangeSet)
    (merged : Dict RelativePath FileChange) (undo : Bool) (s : ChangeState) : Prop where
  stored : s.store.get changeSet.id = some { changeSet with lifecycle := nextLifecycle undo }
  workspace : changeSet.workspaceKey = w.key
  reversible : changeSet.reversibility ≠ .none
  merges : mergedChanges changeSet.files = .ok merged
  history : MergedHistory s.blobs d₀ d₁ merged
  touched : ∀ c ∈ changeSet.files,
    s.disk.snapshot c.path.parts = (if undo then d₁ else d₀).snapshot c.path.parts
  capturable : ∀ p c, merged.get? p = some c →
    ∀ e, s.disk.lstat p.parts = some e → e.Capturable
  linkMode : s.disk.linkMode = d₀.linkMode
  root : (s.disk.lstat []).map Entry.identity = some w.rootIdentity
  blobs : s.blobs.Sound

variable {w : WorkspaceIdentity} {merged : Dict RelativePath FileChange} {changeSet : ChangeSet}
  {undo : Bool} {s : ChangeState}

private theorem sealChangeSet_spec {d : Disk} {changeSetId : String} {c : ChangeSet}
    {s₀ : ChangeState}
    (h : Journaled w d changeSetId c merged s₀)
    (hroot : (s₀.disk.lstat []).map Entry.identity = some w.rootIdentity) :
    Triple (fun s => s = s₀) (sealChangeSet w changeSetId)
      (fun sealed s => s.disk = s₀.disk ∧ Standing w d s₀.disk sealed merged true s)
      (fun _ _ => True) fun _ => True := by
  refine Triple.bind (R := fun x s => x = c ∧ s = s₀) ?_ fun x => ?_
  · refine Triple.bind (R := fun x s => x = c ∧ s = s₀) ?_ fun x => ?_
    · refine Triple.reading ?_ fun _ _ _ _ => trivial
      rintro s x rfl hx
      simp only [h.stored, h.workspace, ne_eq, not_true_eq_false, if_false,
        Except.ok.injEq] at hx
      exact ⟨hx.symm, rfl⟩
    · refine Triple.assume (fun _ hs => hs.1) ?_
      rintro rfl
      simp only [h.opened, ne_eq, not_true_eq_false, if_false]
      exact Triple.pure fun s hs => ⟨rfl, hs.2⟩
  refine Triple.assume (fun _ hs => hs.1) ?_
  rintro rfl
  refine Triple.bind (R := fun _ s => s = s₀)
    (Triple.reading (fun s _ hs _ => hs.2) fun _ _ _ _ => trivial) fun _ => ?_
  refine Triple.bind (R := fun _ s => s = s₀) (Triple.now fun _ hs => hs) fun sealedAt => ?_
  have hfull : reversibility x = .full := by simp [reversibility, h.execute]
  let sealed : ChangeSet :=
    { x with lifecycle := .applied, reversibility := reversibility x, sealedAt := some sealedAt }
  refine Triple.bind (Triple.onStore (Q := fun s => s.disk = s₀.disk ∧
    Standing w d s₀.disk sealed merged true s) ?_ fun _ _ => trivial) fun _ =>
      Triple.pure fun s hs => hs
  rintro s rfl
  refine ⟨rfl, ⟨Table.get?_put_self _ _, h.workspace, ?_, h.merges, h.history, ?_, ?_,
    h.history.linkMode, hroot, h.blobs⟩⟩
  · change reversibility x ≠ .none
    rw [hfull]
    simp
  · exact fun _ _ => rfl
  · exact fun p y hy => (h.history.leads p y hy).left

private theorem Standing.undisturbed {d₀ d₁ : Disk} {t : ChangeState}
    (h : Standing w d₀ d₁ changeSet merged undo s) (hu : Undisturbed changeSet s t) :
    Standing w d₀ d₁ changeSet merged undo t := by
  have hfiles : ∀ p c, merged.get? p = some c → t.disk.lstat p.parts = s.disk.lstat p.parts := by
    intro p c hc
    obtain ⟨x, hx, rfl⟩ := (mergedChanges_path h.merges hc).2
    exact hu.touched x hx
  refine ⟨hu.stored.trans h.stored, h.workspace, h.reversible, h.merges,
    ⟨fun p c hc => (h.history.leads p c hc).mono hu.blobs, h.history.elsewhere,
      h.history.linkMode⟩, fun c hc => ?_, fun p c hc e he => ?_, hu.linkMode.trans h.linkMode,
    hu.root.trans h.root, hu.sound⟩
  · rw [← h.touched c hc, Disk.snapshot, Disk.snapshot, hu.touched c hc, hu.linkMode]
  · exact h.capturable p c hc e (hfiles p c hc ▸ he)

private theorem Standing.operable {d₀ d₁ : Disk} (h : Standing w d₀ d₁ changeSet merged undo s) :
    Operable w { changeSet with lifecycle := nextLifecycle undo } merged.values undo s := by
  have hlead : ∀ c ∈ merged.values, c.Leads s.blobs d₀ d₁ c.path := by
    intro c hc
    obtain ⟨p, hp⟩ := (merged.mem_values_iff c).mp hc
    have := h.history.leads p c hp
    exact this.path ▸ this
  have hget : ∀ c ∈ merged.values, merged.get? c.path = some c := by
    intro c hc
    obtain ⟨p, hp⟩ := (merged.mem_values_iff c).mp hc
    exact (h.history.leads p c hp).path ▸ hp
  have hside : ∀ c ∈ merged.values, ∀ side, changeSnapshot s.blobs c side =
      .ok ((if side then d₀ else d₁).snapshot c.path.parts) := by
    intro c hc side
    cases side
    · exact (hlead c hc).after
    · exact (hlead c hc).before
  refine ⟨h.stored, h.workspace, rfl, h.reversible, ?_, ?_, h.blobs, ?_, ?_, ?_, ?_⟩
  · simp [mergeFileChanges, h.merges, Except.map]
  · exact Option.map_eq_some_iff.mp h.root
  · intro c hc b side u hu
    have heq := changeSnapshot_unique hu (hside c hc side)
    rw [h.linkMode]
    cases side with
    | true => exact Disk.snapshot_restorable (hlead c hc).found heq.symm
    | false =>
      rw [← h.history.linkMode]
      exact Disk.snapshot_restorable (hlead c hc).left heq.symm
  · intro c hc
    obtain ⟨x, hx, hpath⟩ := (mergedChanges_path h.merges (hget c hc)).2
    refine ⟨_, hside c hc (!undo), ?_⟩
    rw [← hpath, h.touched x hx]
    cases undo <;> simp
  · exact fun c hc e he => h.capturable c.path c (hget c hc) e he
  · exact fun c hc => ⟨_, hside c hc undo⟩

/-- A completed operation leads to the other end of the history. -/
theorem Standing.operated {d₀ d₁ : Disk} {t : ChangeState}
    (h : Standing w d₀ d₁ changeSet merged undo s)
    (ho : Operated { changeSet with lifecycle := nextLifecycle undo } merged.values undo s t) :
    Standing w d₀ d₁ changeSet merged (!undo) t := by
  have hvalue : ∀ p c, merged.get? p = some c → c ∈ merged.values ∧ c.path = p :=
    fun p c hc => ⟨(merged.mem_values_iff c).mpr ⟨p, hc⟩, (h.history.leads p c hc).path⟩
  have helse : ∀ q, (∀ p : RelativePath, p.parts = q → merged.get? p = none) →
      t.disk.lstat q = s.disk.lstat q := by
    intro q hq
    refine ho.elsewhere q fun c hc he => ?_
    obtain ⟨p, hp⟩ := (merged.mem_values_iff c).mp hc
    rw [hq p ((hvalue p c hp).2 ▸ he)] at hp
    cases hp
  have hlink : t.disk.linkMode = d₀.linkMode := ho.linkMode.trans h.linkMode
  refine ⟨?_, h.workspace, h.reversible, h.merges, ⟨fun p c hc =>
    (h.history.leads p c hc).mono ho.grown, h.history.elsewhere, h.history.linkMode⟩, ?_, ?_,
    hlink, ?_, ho.blobs⟩
  · rw [ho.stored]
    cases undo <;> rfl
  · intro x hx
    cases hg : merged.get? x.path with
    | none =>
      have hnone : ∀ p : RelativePath, p.parts = x.path.parts → merged.get? p = none :=
        fun p hp => RelativePath.parts_injective hp ▸ hg
      have hends : d₁.snapshot x.path.parts = d₀.snapshot x.path.parts := by
        rw [Disk.snapshot, Disk.snapshot, h.history.elsewhere _ hnone, h.history.linkMode]
      have hsame : t.disk.snapshot x.path.parts = s.disk.snapshot x.path.parts := by
        rw [Disk.snapshot, Disk.snapshot, helse _ hnone, ho.linkMode]
      rw [hsame, h.touched x hx]
      cases undo <;> simp [hends]
    | some c =>
      obtain ⟨hc, hpath⟩ := hvalue _ _ hg
      have hlead := h.history.leads _ _ hg
      have hr := ho.restored c hc
      rw [hpath] at hr
      cases undo with
      | true => exact Except.ok.inj (hr.symm.trans (changeSnapshot_mono ho.grown hlead.before))
      | false => exact Except.ok.inj (hr.symm.trans (changeSnapshot_mono ho.grown hlead.after))
  · intro p c hc e he
    obtain ⟨hmem, rfl⟩ := hvalue p c hc
    exact ho.capturable c hmem e he
  · rw [helse [] fun p hp => absurd hp (List.cons_ne_nil _ _)]
    exact h.root

private theorem OperationRun.standing {d₀ d₁ : Disk} {t : ChangeState}
    (hrun : OperationRun w changeSet s undo t) (h : Standing w d₀ d₁ changeSet merged true s) :
    Standing w d₀ d₁ changeSet merged undo t := by
  induction hrun with
  | start => exact h
  | others _ hu ih => exact ih.undisturbed hu
  | @operate undo t u r trace _ hop ih =>
    have ho := ih.operable
    have hspec := operate_spec undo ho.stored ho.merged ho.root ho.blobs ho.restorable ⟨t, []⟩ rfl
    have hop' : ChangeOperations.operate w { changeSet with lifecycle := nextLifecycle undo }.id
        undo ⟨t, []⟩ = .ok r ⟨u, trace⟩ := hop
    rw [hop'] at hspec
    exact ih.operated hspec.1.1

private theorem Standing.leadsTo {d₀ d₁ : Disk} (h : Standing w d₀ d₁ changeSet merged undo s)
    (hsafe : SafePass s.disk.outline (operationSteps undo merged.values)) :
    LeadsTo w changeSet undo (if undo then d₀ else d₁) s := by
  obtain ⟨r, u, hrun, ho, hr⟩ := (operate_safe h.operable hsafe).returns rfl
  have hend := h.operated ho
  have hlife : nextLifecycle (!undo) = if undo then .undone else .applied := by
    cases undo <;> rfl
  refine ⟨r, u.now, u.trace, hrun, hr.trans hlife.symm, ?_, fun c hc => ?_⟩
  · rw [hend.stored]
    rfl
  · rw [hend.touched c hc]
    cases undo <;> rfl

/-- Undo and redo lead between the two ends of every recorded history, as often as one
likes, wherever the restores that are next form a safe pass. -/
theorem undo_redo_inverse {w : WorkspaceIdentity} {changeSetId : String}
    {s₀ s₁ s₂ s₃ : ChangeState} {opened sealed : ChangeSet} {trace trace' : List ChangeState}
    (hblobs : s₀.blobs.Sound)
    (hroot : (s₀.disk.lstat []).map Entry.identity = some w.rootIdentity)
    (hbegin : begin w changeSetId ⟨s₀, []⟩ = .ok opened ⟨s₁, trace⟩)
    (hrecorded : Recorded w changeSetId s₁ s₂)
    (hseal : sealChangeSet w changeSetId ⟨s₂, []⟩ = .ok sealed ⟨s₃, trace'⟩) :
    ∃ changes, mergeFileChanges sealed.files = .ok changes ∧
      ∀ undo t, OperationRun w sealed s₃ undo t →
        SafePass t.disk.outline (operationSteps undo changes) →
        LeadsTo w sealed undo (if undo then s₀.disk else s₂.disk) t := by
  have hb := begin_spec w changeSetId hblobs (E := fun _ _ => True) (C := fun _ => True)
    (fun _ => trivial) ⟨s₀, []⟩ rfl
  rw [hbegin] at hb
  obtain ⟨⟨htree, hj⟩, _⟩ := hb
  obtain ⟨c, merged, hj'⟩ := hrecorded.journaled hj
  have hroot' : (s₂.disk.lstat []).map Entry.identity = some w.rootIdentity := by
    rw [hj'.history.elsewhere [] fun p hp => absurd hp (List.cons_ne_nil _ _)]
    exact hroot
  have hs := sealChangeSet_spec hj' hroot' ⟨s₂, []⟩ rfl
  rw [hseal] at hs
  obtain ⟨⟨hdisk, hstanding⟩, _⟩ := hs
  refine ⟨merged.values, by simp [mergeFileChanges, hstanding.merges, Except.map],
    fun undo t hrun hsafe => ?_⟩
  exact (hrun.standing hstanding).leadsTo hsafe

end Runs

section Sample

attribute [local instance] spelledHash

/-- The run that deletes the file. -/
def fileRun := applyFileMutation sampleWorkspace "changes" .deleted none deleteFile "m1"
  ⟨Proc.final openedSample, []⟩

/-- The run that deletes the directory after its file. -/
def directoryRun := applyFileMutation sampleWorkspace "changes" .deleted none deleteDirectory "m2"
  ⟨Proc.final fileRun, []⟩

/-- The run that writes a file in the place of the directory. -/
def overRun := applyFileMutation sampleWorkspace "changes" .created
  (some ⟨.file, some [2], none⟩) writeOver "m3" ⟨Proc.final directoryRun, []⟩

/-- The ChangeSet that deletes the directory. -/
def deletedSample := sealChangeSet sampleWorkspace "changes" ⟨Proc.final directoryRun, []⟩

/-- The ChangeSet that puts a file in the place of the directory. -/
def replacedSample := sealChangeSet sampleWorkspace "changes" ⟨Proc.final overRun, []⟩

private theorem recorded_deletions :
    Recorded sampleWorkspace "changes" (Proc.final openedSample) (Proc.final directoryRun) := by
  obtain ⟨c, hc⟩ : ∃ c, Proc.value fileRun = some c :=
    Option.isSome_iff_exists.mp (by decide)
  obtain ⟨c', hc'⟩ : ∃ c, Proc.value directoryRun = some c :=
    Option.isSome_iff_exists.mp (by decide)
  obtain ⟨trace, hfile⟩ := Proc.eq_ok_of_value hc
  obtain ⟨trace', hdirectory⟩ := Proc.eq_ok_of_value hc'
  refine .step (.step (.refl _) (deleteMutation_ordinary rfl ?_ ?_) hfile)
    (deleteMutation_ordinary rfl ?_ ?_) hdirectory
  · decide
  · exact capturable_of_lstat (e := ⟨.file [1] 0o644 1, 1, 3⟩) (by decide) (by decide)
  · decide
  · exact capturable_of_lstat (e := ⟨.directory 0o755, 1, 2⟩) (by decide) trivial

private theorem recorded_replacement :
    Recorded sampleWorkspace "changes" (Proc.final openedSample) (Proc.final overRun) := by
  obtain ⟨c, hc⟩ : ∃ c, Proc.value overRun = some c :=
    Option.isSome_iff_exists.mp (by decide)
  obtain ⟨trace, hover⟩ := Proc.eq_ok_of_value hc
  refine .step recorded_deletions (replaceMutation_ordinary rfl ?_ ?_ (by decide)) hover
  · decide
  · have hnone : (Proc.final directoryRun).disk.lstat ["d"] = none := by decide
    intro e he
    have he' : (Proc.final directoryRun).disk.lstat ["d"] = some e := he
    rw [hnone] at he'
    cases he'

/-- Restoring the deleted directory and then its file is a safe pass. -/
private theorem deletedSample_safe :
    SafePass (Proc.final deletedSample).disk.outline
      [⟨⟨"d", []⟩, none, some true, true⟩, ⟨⟨"x", ["d"]⟩, none, some false, true⟩] := by
  set o := (Proc.final deletedSample).disk.outline with ho
  have hroot : o [] = some true := by decide
  have hd : o ["d"] = none := by decide
  have hrooted : o.Rooted := (Proc.final deletedSample).disk.tree.outline_rooted
  have hbelow : ∀ m, o [m, "d"] = none := fun m =>
    hrooted.below_eq_none (q := ["d"]) (by simp [hd]) (List.suffix_cons _ _) (by simp)
  have hrooted' : Outline.Rooted (Function.update o ["d"] (some true)) :=
    hrooted.update (fun _ => hroot) (Or.inl rfl)
  have hbelow' : ∀ m, Function.update o ["d"] (some true) [m, "x", "d"] = none := by
    intro m
    rw [Function.update_of_ne (by simp)]
    exact hrooted.below_eq_none (q := ["x", "d"]) (by simp [hbelow])
      (List.suffix_cons _ _) (by simp)
  constructor
  · intro x hx q hq
    simp only [List.mem_cons, List.not_mem_nil, or_false] at hx
    rcases hx with rfl | rfl
    · rw [List.suffix_nil.mp hq, hroot]
      simp
    · rcases List.suffix_cons_iff.mp hq with rfl | hq
      · simp [hd]
      · rw [List.suffix_nil.mp hq, hroot]
        simp
  · intro done x todo hsplit
    rcases done with _ | ⟨y, _ | ⟨z, done⟩⟩
    · simp only [List.nil_append, List.cons.injEq] at hsplit
      obtain ⟨rfl, _⟩ := hsplit
      refine ⟨fun q hq => ?_, hrooted', fun q hq => by simp⟩
      rw [List.suffix_nil.mp hq]
      exact fun h => by simp [outlineAfter, hroot] at h
    · simp only [List.cons_append, List.nil_append, List.cons.injEq] at hsplit
      obtain ⟨rfl, rfl, _⟩ := hsplit
      refine ⟨fun q hq => ?_, hrooted'.update (fun _ => by simp) (Or.inr hbelow'), fun q hq => ?_⟩
      · rcases List.suffix_cons_iff.mp hq with rfl | hq
        · exact fun h => by simp [outlineAfter, Outline.overlay, PathStep.change,
            RelativePath.parts] at h
        · rw [List.suffix_nil.mp hq]
          exact fun h => by simp [outlineAfter, Outline.overlay, PathStep.change,
            RelativePath.parts, hroot] at h
      · simp [Severed, PathStep.sever, PathStep.repins]
    · simp at hsplit

/-- The deletion of a directory with a file can be undone. -/
theorem undo_redo_inverse_deletions :
    ∃ sealed, Proc.value deletedSample = some sealed ∧
      LeadsTo sampleWorkspace sealed true sampleDisk (Proc.final deletedSample) := by
  obtain ⟨opened, hopened⟩ : ∃ c, Proc.value openedSample = some c :=
    Option.isSome_iff_exists.mp (by decide)
  obtain ⟨sealed, hsealed, hsteps⟩ : ∃ c, Proc.value deletedSample = some c ∧
      (mergeFileChanges c.files).toOption.map (operationSteps true) =
        some [⟨⟨"d", []⟩, none, some true, true⟩, ⟨⟨"x", ["d"]⟩, none, some false, true⟩] :=
    Option.map_eq_some_iff.mp (by decide)
  obtain ⟨trace, hbegin⟩ := Proc.eq_ok_of_value hopened
  obtain ⟨trace', hseal⟩ := Proc.eq_ok_of_value hsealed
  obtain ⟨changes, hmerge, hruns⟩ := undo_redo_inverse (w := sampleWorkspace)
    (fun digest content hd => by cases hd) (by decide) hbegin recorded_deletions hseal
  rw [hmerge] at hsteps
  refine ⟨sealed, hsealed, hruns true _ .start ?_⟩
  rw [Option.some.inj hsteps]
  exact deletedSample_safe

/-- A file in the place of a deleted directory cannot be undone, because the children of the
directory cannot be bound below the file. -/
theorem undo_redo_not_inverse :
    ¬∀ {_ : ContentHash} {w : WorkspaceIdentity} {changeSetId : String}
      {s₀ s₁ s₂ s₃ : ChangeState} {opened sealed : ChangeSet} {trace trace' : List ChangeState},
      s₀.blobs.Sound → (s₀.disk.lstat []).map Entry.identity = some w.rootIdentity →
      begin w changeSetId ⟨s₀, []⟩ = .ok opened ⟨s₁, trace⟩ →
      Recorded w changeSetId s₁ s₂ →
      sealChangeSet w changeSetId ⟨s₂, []⟩ = .ok sealed ⟨s₃, trace'⟩ →
      ∀ undo t, OperationRun w sealed s₃ undo t →
        LeadsTo w sealed undo (if undo then s₀.disk else s₂.disk) t := by
  intro h
  obtain ⟨opened, hopened⟩ : ∃ c, Proc.value openedSample = some c :=
    Option.isSome_iff_exists.mp (by decide)
  obtain ⟨sealed, hsealed, hid⟩ : ∃ c, Proc.value replacedSample = some c ∧ c.id = "changes" :=
    Option.map_eq_some_iff.mp (by decide)
  obtain ⟨trace, hbegin⟩ := Proc.eq_ok_of_value hopened
  obtain ⟨trace', hseal⟩ := Proc.eq_ok_of_value hsealed
  obtain ⟨r, u, utrace, hrun, _⟩ := h (fun digest content hd => by cases hd) (by decide) hbegin
    recorded_replacement hseal true _ .start
  have hnone : Proc.value (operate sampleWorkspace "changes" true
      ⟨Proc.final replacedSample, []⟩) = none := by decide
  rw [hid] at hrun
  rw [hrun] at hnone
  cases hnone

end Sample

end AwesomeAgent
