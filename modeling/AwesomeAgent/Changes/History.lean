import AwesomeAgent.Changes.JournalPhases
import AwesomeAgent.Changes.ToolMutations
import AwesomeAgent.Changes.UndoRedo

/-!
# Histories of recorded mutations

A ChangeSet is filled by mutations that a tool carries out on one path each. The
merged changes lead from the nodes before the first mutation of a path to the
nodes after the last one.
-/

namespace AwesomeAgent

open ChangeJournal ChangeOperations

variable [ContentHash]

/-- Time passes and other ChangeSets change; the workspace and one ChangeSet stay. -/
structure Elapsed (changeSetId : String) (s t : ChangeState) : Prop where
  stored : t.store.get changeSetId = s.store.get changeSetId
  disk : t.disk = s.disk
  blobs : s.blobs.Extends t.blobs
  sound : t.blobs.Sound

/-- A run of the journal that records one mutation after the other. -/
inductive Recorded (w : WorkspaceIdentity) (changeSetId : String) :
    ChangeState → ChangeState → Prop
  | refl (s : ChangeState) : Recorded w changeSetId s s
  | elapse {s t u : ChangeState} : Recorded w changeSetId s t → Elapsed changeSetId t u →
      Recorded w changeSetId s u
  | step {s t u : ChangeState} {kind : FileChangeKind} {intended : Option NodeSnapshot}
      {target : BoundFileMutation} {identifier : String} {change : FileChange}
      {trace : List ChangeState} : Recorded w changeSetId s t → OrdinaryMutation t.disk target →
      applyFileMutation w changeSetId kind intended target identifier ⟨t, []⟩ =
        .ok change ⟨u, trace⟩ →
      Recorded w changeSetId s u

private theorem recordedSnapshot_unique {faults : RecordFaults} {b b' : BlobStore}
    {digest blob : Option String} {mode : Option Nat} {type : Option FileNodeType}
    {u v : Option NodeSnapshot} (hu : recordedSnapshot faults b digest blob mode type = .ok u)
    (hv : recordedSnapshot faults b' digest blob mode type = .ok v) : u = v := by
  rcases recordedSnapshot_eq hu with ⟨rfl, rfl⟩ | ⟨d, t, x, rfl, rfl, rfl, hx⟩
  · rcases recordedSnapshot_eq hv with ⟨_, rfl⟩ | ⟨_, _, _, hd, _⟩
    · rfl
    · cases hd
  · rcases recordedSnapshot_eq hv with ⟨hd, _⟩ | ⟨_, _, y, hd, ht, rfl, hy⟩
    · cases hd
    · cases hd
      cases ht
      rcases hx with ⟨rfl, rfl⟩ | ⟨hne, bytes, rfl, hbytes⟩
      · rw [(hy.resolve_right fun h => h.1 rfl).2]
      · obtain ⟨bytes', rfl, hbytes'⟩ := (hy.resolve_left fun h => hne h.1).2
        rw [ContentHash.sha256_injective (hbytes.trans hbytes'.symm)]

variable {c : FileChange} {d : Disk} {merged : Dict RelativePath FileChange} {w : WorkspaceIdentity}
  {changeSetId : String}

/-- A recorded snapshot is found in every blob store alike. -/
theorem changeSnapshot_unique {b b' : BlobStore} {side : Bool}
    {u v : Option NodeSnapshot} (hu : changeSnapshot b c side = .ok u)
    (hv : changeSnapshot b' c side = .ok v) : u = v := by
  cases side <;> exact recordedSnapshot_unique hu hv

/-- Both sides of the record of a completed mutation are rebuilt as they were seen. -/
theorem recordOf_snapshots (s₀ : ChangeState) (c : ChangeSet) (kind : FileChangeKind)
    (intended : Option NodeSnapshot) {after : Option NodeSnapshot} {target : BoundFileMutation}
    (identifier : String) (type : FileNodeType) {b : BlobStore}
    (hp : target.relativePath.asPosix.length ≤ maxChangePath)
    (hbefore : ∀ u, target.before = some u → u.Formed) (hafter : ∀ u, after = some u → u.Formed)
    (hb : b.Holds target.before) (ha : b.Holds after) :
    let change := recordOf (announcement s₀ c kind intended target identifier type) identifier
      after (blobOf after) hp
    changeSnapshot b change true = .ok target.before ∧
      changeSnapshot b change false = .ok after := by
  refine ⟨?_, ?_⟩
  · have htype : (snapshotDigest target.before).bind (fun _ => some
        (((snapshotDigest target.before).bind fun _ => some
          ((target.before.map (·.nodeType)).getD type)).getD
          (((after.map (·.nodeType)).or ((snapshotDigest target.before).bind fun _ => some
            ((target.before.map (·.nodeType)).getD type))).getD type))) =
        target.before.map (·.nodeType) := by
      cases target.before <;> rfl
    have := recordedSnapshot_of_formed (changeFaults target.relativePath) hbefore hb
    rw [← htype] at this
    exact this
  · have := recordedSnapshot_of_formed (changeFaults target.relativePath) hafter ha
    rw [← resolved_type after _] at this
    exact this

/-- A change whose records lead from the node on one disk to the node on another. -/
structure FileChange.Leads (b : BlobStore) (d d' : Disk) (p : RelativePath) (c : FileChange) :
    Prop where
  path : c.path = p
  before : changeSnapshot b c true = .ok (d.snapshot p.parts)
  after : changeSnapshot b c false = .ok (d'.snapshot p.parts)
  found : ∀ e, d.lstat p.parts = some e → e.Capturable
  left : ∀ e, d'.lstat p.parts = some e → e.Capturable

/-- A change leads on in a larger blob store. -/
theorem FileChange.Leads.mono {b b' : BlobStore} {d' : Disk} {path : RelativePath}
    (h : c.Leads b d d' path) (he : b.Extends b') : c.Leads b' d d' path :=
  ⟨h.path, changeSnapshot_mono he h.before, changeSnapshot_mono he h.after, h.found, h.left⟩

/-- The records of a merged history. -/
structure MergedHistory (b : BlobStore) (d d' : Disk) (merged : Dict RelativePath FileChange) :
    Prop where
  leads : ∀ p c, merged.get? p = some c → c.Leads b d d' p
  elsewhere : ∀ q, (∀ p : RelativePath, p.parts = q → merged.get? p = none) →
    d'.lstat q = d.lstat q
  linkMode : d'.linkMode = d.linkMode

private theorem changeSnapshot_isSome {b : BlobStore} {side : Bool}
    {u : Option NodeSnapshot} (h : changeSnapshot b c side = .ok u) :
    (if side then c.beforeHash else c.afterHash).isSome = u.isSome := by
  have htype := congrArg Option.isSome (changeSnapshot_type h)
  cases side with
  | true => cases hc : c.beforeHash <;> simp [FileChange.resolvedBeforeNodeType, hc] at htype ⊢ <;>
      simp [htype]
  | false => cases hc : c.afterHash <;> simp [FileChange.resolvedAfterNodeType, hc] at htype ⊢ <;>
      simp [htype]

omit [ContentHash] in
private theorem Disk.lstat_eq_none {p : NodePath}
    (hc : ∀ e, d.lstat p = some e → e.Capturable) (h : d.snapshot p = none) :
    d.lstat p = none := by
  cases he : d.lstat p with
  | none => rfl
  | some e =>
    obtain ⟨u, hu, _⟩ := captureNode_of_capturable d.linkMode (hc e he)
    simp [Disk.snapshot, he, hu] at h

omit [ContentHash] in
private theorem resolved_again (digest : Option String) (type fallback : FileNodeType) :
    (digest.bind fun _ => some ((digest.bind fun _ => some type).getD fallback)) =
      digest.bind fun _ => some type := by
  cases digest <;> rfl

omit [ContentHash] in
private theorem elsewhere_set {path : RelativePath} {q : NodePath}
    (h : ∀ p : RelativePath, p.parts = q → (merged.set path c).get? p = none) :
    q ≠ path.parts ∧ ∀ p : RelativePath, p.parts = q → merged.get? p = none := by
  have hne : q ≠ path.parts := by
    rintro rfl
    simpa using h path rfl
  refine ⟨hne, fun p hp => ?_⟩
  have hpath : p ≠ path := fun he => hne (he ▸ hp.symm)
  rw [← h p hp, Dict.get?_set_of_ne _ _ hpath]

/-- Merging one more change continues the history. -/
theorem MergedHistory.mergeFileChange {b : BlobStore} {d d₁ d₂ : Disk}
    {merged : Dict RelativePath FileChange} {c : FileChange}
    (h : MergedHistory b d d₁ merged) (hc : c.Leads b d₁ d₂ c.path)
    (helse : ∀ q, q ≠ c.path.parts → d₂.lstat q = d₁.lstat q)
    (hlink : d₂.linkMode = d₁.linkMode) :
    ∃ merged', mergeFileChange merged c = .ok merged' ∧ MergedHistory b d d₂ merged' := by
  have hkeep : ∀ p (e : FileChange), p ≠ c.path → e.Leads b d d₁ p → e.Leads b d d₂ p := by
    intro p e hne he
    have hl := helse p.parts fun hp => hne (RelativePath.parts_injective hp)
    refine ⟨he.path, he.before, ?_, he.found, fun n hn => he.left n (hl ▸ hn)⟩
    rw [he.after, Disk.snapshot, Disk.snapshot, hl, hlink]
  have hset : ∀ e : FileChange, e.Leads b d d₂ c.path →
      MergedHistory b d d₂ (merged.set c.path e) := by
    intro e he
    refine ⟨fun p x hx => ?_, fun q hq => ?_, hlink.trans h.linkMode⟩
    · by_cases hp : p = c.path
      · subst hp
        rw [Dict.get?_set_self] at hx
        cases hx
        exact he
      · rw [Dict.get?_set_of_ne _ _ hp] at hx
        exact hkeep p x hp (h.leads p x hx)
    · obtain ⟨hne, hnone⟩ := elsewhere_set hq
      rw [helse q hne, h.elsewhere q hnone]
  cases hg : merged.get? c.path with
  | none =>
    have hsame : d₁.lstat c.path.parts = d.lstat c.path.parts :=
      h.elsewhere _ fun p hp => RelativePath.parts_injective hp ▸ hg
    refine ⟨_, by simp only [AwesomeAgent.mergeFileChange, hg]; rfl, ?_⟩
    refine hset _ ⟨rfl, ?_, ?_, ?_, hc.left⟩
    · have hb := hc.before
      rw [Disk.snapshot, hsame, h.linkMode] at hb
      rw [Disk.snapshot, ← hb]
      simp only [changeSnapshot, FileChange.resolvedBeforeNodeType, resolved_again]
      rfl
    · rw [← hc.after]
      simp only [changeSnapshot, FileChange.resolvedAfterNodeType, resolved_again]
      rfl
    · exact fun e he => hc.found e (hsame ▸ he)
  | some x =>
    have hx := h.leads _ _ hg
    have hbefore := changeSnapshot_isSome hx.before
    have hafter := changeSnapshot_isSome hc.after
    by_cases hgone : x.beforeHash.isSome = false ∧ c.afterHash.isSome = false
    · refine ⟨merged.erase c.path, by simp [AwesomeAgent.mergeFileChange, hg, hgone],
        fun p y hy => ?_, fun q hq => ?_, hlink.trans h.linkMode⟩
      · by_cases hp : p = c.path
        · subst hp
          simp at hy
        · rw [Dict.get?_erase_of_ne _ hp] at hy
          exact hkeep p y hp (h.leads p y hy)
      · by_cases hq' : q = c.path.parts
        · subst hq'
          rw [Disk.lstat_eq_none hx.found (by simpa [hgone.1] using hbefore.symm),
            Disk.lstat_eq_none hc.left (by simpa [hgone.2] using hafter.symm)]
        · rw [helse q hq']
          refine h.elsewhere q fun p hp => ?_
          have hpath : p ≠ c.path := fun he => hq' (he ▸ hp.symm)
          rw [← hq p hp, Dict.get?_erase_of_ne _ hpath]
    · obtain ⟨type, htype⟩ : ∃ type,
          c.resolvedAfterNodeType.or x.resolvedBeforeNodeType = some type := by
        cases ha : c.afterHash with
        | some digest => simp [FileChange.resolvedAfterNodeType, ha]
        | none =>
          cases hb : x.beforeHash with
          | none => simp [ha, hb] at hgone
          | some digest => simp [FileChange.resolvedAfterNodeType, ha,
              FileChange.resolvedBeforeNodeType, hb]
      refine ⟨_, by simp only [AwesomeAgent.mergeFileChange, hg, hgone, htype, if_false]; rfl, ?_⟩
      refine hset _ ⟨hx.path, ?_, ?_, hx.found, hc.left⟩
      · rw [← hx.before]
        simp only [changeSnapshot, FileChange.resolvedBeforeNodeType, resolved_again]
        rfl
      · rw [← hc.after]
        simp only [changeSnapshot, FileChange.resolvedAfterNodeType, resolved_again, hx.path]
        rfl

/-- An open ChangeSet whose records merge to the way from the disk `d` to the current one. -/
structure Journaled (w : WorkspaceIdentity) (d : Disk) (changeSetId : String) (c : ChangeSet)
    (merged : Dict RelativePath FileChange) (s : ChangeState) : Prop where
  stored : s.store.get changeSetId = some c
  workspace : c.workspaceKey = w.key
  opened : c.lifecycle = .open
  execute : c.execute = []
  merges : mergedChanges c.files = .ok merged
  history : MergedHistory s.blobs d s.disk merged
  blobs : s.blobs.Sound

/-- A new ChangeSet records nothing. -/
theorem begin_spec (w : WorkspaceIdentity) {s₀ : ChangeState} (identifier : String)
    (hb : s₀.blobs.Sound) {E : Fault → ChangeState → Prop} {C : ChangeState → Prop}
    (hC : ∀ s, C s) :
    Triple (fun s => s = s₀) (begin w identifier)
      (fun c s => s.tree = s₀.tree ∧ Journaled w s₀.disk identifier c Dict.empty s) E C := by
  refine Triple.bind (R := fun _ s => s = s₀) (Triple.now fun _ hs => hs) fun createdAt => ?_
  refine Triple.bind (Triple.onStore (Q := fun s => s.tree = s₀.tree ∧ Journaled w s₀.disk
    identifier ⟨identifier, w.key, .open, .full, [], [], createdAt, none⟩ Dict.empty s) ?_
    fun s _ => hC s) fun _ => Triple.pure fun s hs => hs
  rintro s rfl
  refine ⟨rfl, ChangeSetStore.get_save _ _, rfl, rfl, rfl, rfl, ⟨fun p c hc => ?_,
    fun q _ => rfl, rfl⟩, hb⟩
  simp at hc

private theorem Journaled.step {w : WorkspaceIdentity} {d : Disk} {changeSetId : String}
    {c : ChangeSet}
    {merged : Dict RelativePath FileChange} {s t : ChangeState} {kind : FileChangeKind}
    {intended : Option NodeSnapshot} {target : BoundFileMutation} {identifier : String}
    {change : FileChange} (h : Journaled w d changeSetId c merged s)
    (ho : OrdinaryMutation s.disk target)
    (hd : MutationDone w s changeSetId kind intended target identifier change t) :
    ∃ c' merged', Journaled w d changeSetId c' merged' t := by
  obtain ⟨c', type, d', after, hp, hc, ha, hm, hafter, _, rfl, ⟨⟨hbefore, _⟩, hholds⟩, hs⟩ :=
    hd.outcome
  rw [h.stored] at hc
  cases hc
  obtain ⟨rfl, hcap⟩ := ho.captured d' after hm hafter
  set change := recordOf (announcement s c kind intended target identifier type) identifier
    (d'.snapshot target.relativePath.parts) (blobOf (d'.snapshot target.relativePath.parts)) hp
    with hchange
  have hsnap := recordOf_snapshots s c kind intended identifier type hp
    (fun u hu => (Disk.snapshot_captured (ho.before ▸ hu)).content)
    (fun u hu => (Disk.snapshot_captured hu).content) hbefore hholds
  have hleads : change.Leads t.blobs s.disk d' target.relativePath :=
    ⟨rfl, ho.before ▸ hsnap.1, hsnap.2, ho.capturable, hcap⟩
  have hgrown : MergedHistory t.blobs d s.disk merged :=
    ⟨fun p c hc => (h.history.leads p c hc).mono hs.blobs, h.history.elsewhere,
      h.history.linkMode⟩
  obtain ⟨merged', hmerge, hhist⟩ := hgrown.mergeFileChange (c := change) hleads
    (ho.elsewhere d' hm) (ho.linkMode d' hm)
  refine ⟨{ c with files := c.files ++ [change] }, merged', ?_, h.workspace, h.opened,
    h.execute, ?_, hs.disk ▸ hhist, hs.sound⟩
  · rw [hs.store, ChangeSetStore.get]
    change (s.store.changeSets.put { c with files := c.files ++ [change] }).get? changeSetId = _
    rw [← ChangeSetStore.id_of_get h.stored]
    exact Table.get?_put_self _ _
  · have hmerges := h.merges
    simp only [mergedChanges] at hmerges ⊢
    rw [List.foldlM_append, hmerges]
    change List.foldlM AwesomeAgent.mergeFileChange merged [change] = _
    rw [List.foldlM_cons, hmerge]
    rfl

private theorem Journaled.elapsed {c : ChangeSet} {s t : ChangeState}
    (h : Journaled w d changeSetId c merged s) (he : Elapsed changeSetId s t) :
    Journaled w d changeSetId c merged t := by
  refine ⟨he.stored.trans h.stored, h.workspace, h.opened, h.execute, h.merges, ?_,
    he.sound⟩
  rw [he.disk]
  exact ⟨fun p x hx => (h.history.leads p x hx).mono he.blobs, h.history.elsewhere,
    h.history.linkMode⟩

/-- A run of recorded mutations keeps a journaled history. -/
theorem Recorded.journaled {s t : ChangeState} (h : Recorded w changeSetId s t) {c : ChangeSet}
    (hj : Journaled w d changeSetId c merged s) :
    ∃ c' merged', Journaled w d changeSetId c' merged' t := by
  induction h with
  | refl => exact ⟨c, merged, hj⟩
  | elapse _ he ih =>
    obtain ⟨c', merged', hj'⟩ := ih
    exact ⟨c', merged', hj'.elapsed he⟩
  | @step t u kind intended target identifier change trace _ ho hrun ih =>
    obtain ⟨c', merged', hj'⟩ := ih
    have hspec := applyFileMutation_spec w changeSetId kind intended target identifier hj'.blobs
      ⟨t, []⟩ rfl
    rw [hrun] at hspec
    exact hj'.step ho hspec.1

end AwesomeAgent
