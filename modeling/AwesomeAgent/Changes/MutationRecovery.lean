import AwesomeAgent.Changes.History
import AwesomeAgent.Changes.RecoveryRules

/-!
# Recovery of an interrupted mutation

Whatever point of a mutation a crash finds, recovery removes its row and leaves one
record of it when the path has changed and none when it has not.
-/

namespace AwesomeAgent

open ChangeJournal ChangeOperations

/-- The node that was intended, a missing mode leaving the mode open. -/
def Meets (intended after : Option NodeSnapshot) : Prop :=
  match intended with
  | none => after = none
  | some i => ∃ a, after = some a ∧ a.nodeType = i.nodeType ∧ a.content = i.content ∧
      (i.mode = none ∨ a.mode = i.mode)

/-- A disk on which only the path of a mutation changed, to its intended node. -/
structure LeavesIntended (d : Disk) (intended : Option NodeSnapshot) (target : BoundFileMutation)
    (d' : Disk) : Prop where
  linkMode : d'.linkMode = d.linkMode
  elsewhere : ∀ q, q ≠ target.relativePath.parts → d'.lstat q = d.lstat q
  meets : Meets intended (d'.snapshot target.relativePath.parts)
  capturable : ∀ e, d'.lstat target.relativePath.parts = some e → e.Capturable

/-- A mutation on a reachable path that leaves its intended node. When it raises a fault it
has changed nothing, or everything it intended and is not withdrawn. -/
structure RecoverableMutation (d : Disk) (intended : Option NodeSnapshot)
    (target : BoundFileMutation) : Prop extends OrdinaryMutation d target where
  clear : ∀ q, q <:+ target.relativePath.parent → d.outline q ≠ some false
  formed : ∀ u, intended = some u → u.Formed
  done : ∀ d', target.mutate d = .ok () d' → LeavesIntended d intended target d'
  failed : ∀ fault d', target.mutate d = .error fault d' →
    (d'.linkMode = d.linkMode ∧ ∀ q, d'.lstat q = d.lstat q) ∨
      (∀ message, fault ≠ .mutationTargetChanged message) ∧ LeavesIntended d intended target d'

section Recovery

variable [ContentHash]
variable {s₀ : ChangeState} {c : ChangeSet} {kind : FileChangeKind} {intended : Option NodeSnapshot}
  {target : BoundFileMutation} {identifier : String} {type : FileNodeType} {w : WorkspaceIdentity}

private theorem asIntended_iff {after : Option NodeSnapshot}
    (hi : ∀ u, intended = some u → u.Formed)
    (ha : ∀ u, after = some u → u.Formed) :
    AsIntended (announcement s₀ c kind intended target identifier type) after ↔
      Meets intended after := by
  cases intended with
  | none =>
    simp [AsIntended, announcement, mutationPending, snapshotMatchesRecord, snapshotDigest, Meets]
  | some i =>
    cases after with
    | none =>
      simp [AsIntended, announcement, mutationPending, snapshotMatchesRecord, snapshotDigest,
        Meets]
    | some a =>
      have hdigest : ∀ h : a.nodeType = i.nodeType,
          ContentHash.sha256 (a.content.getD []) = ContentHash.sha256 (i.content.getD []) ↔
            a.content = i.content := by
        intro h
        constructor
        · intro hd
          have hc := ContentHash.sha256_injective hd
          have hia := hi i rfl
          have haa := ha a rfl
          rw [NodeSnapshot.Formed] at hia haa
          rw [h, ← hia] at haa
          cases ha' : a.content <;> cases hi' : i.content <;> simp_all
        · exact fun hc => by rw [hc]
      change (decide (a.nodeType = i.nodeType) &&
        decide (some (ContentHash.sha256 (a.content.getD [])) =
          some (ContentHash.sha256 (i.content.getD []))) &&
        (decide (i.mode = none) || decide (a.mode = i.mode))) = true ↔ _
      simp only [Bool.and_eq_true, Bool.or_eq_true, decide_eq_true_eq, Option.some.injEq, Meets,
        exists_eq_left', and_assoc]
      constructor
      · rintro ⟨ht, hd, hm⟩
        exact ⟨ht, (hdigest ht).mp hd, hm⟩
      · rintro ⟨ht, hc, hm⟩
        exact ⟨ht, (hdigest ht).mpr hc, hm⟩

private theorem storedBytes_mono {b b' : BlobStore} {n : Nat} (he : b.Extends b')
    (h : storedBytes b c = .ok n) : storedBytes b' c = .ok n := by
  have hmap : ∀ (digests : List String) (contents : List Bytes),
      digests.mapM b.read = .ok contents → digests.mapM b'.read = .ok contents := by
    intro digests
    induction digests with
    | nil => exact fun contents hc => hc
    | cons digest digests ih =>
      intro contents hc
      rw [List.mapM_cons] at hc ⊢
      cases hr : b.read digest with
      | error fault => simp [hr, Bind.bind, Except.bind] at hc
      | ok content =>
        cases hrest : digests.mapM b.read with
        | error fault => simp [hr, hrest, Bind.bind, Except.bind] at hc
        | ok rest =>
          rw [BlobStore.read_mono he hr, ih rest hrest]
          simpa [hr, hrest, Bind.bind, Except.bind] using hc
  simp only [storedBytes] at h ⊢
  generalize (c.files.flatMap fun change =>
    change.beforeBlob.toList ++ change.afterBlob.toList).dedup = digests at h ⊢
  cases hr : digests.mapM b.read with
  | error fault => simp [hr, Bind.bind, Except.bind] at h
  | ok contents =>
    rw [hmap _ _ hr]
    simpa [hr] using h

private theorem preflight_mono {b b' : BlobStore} {before : Option NodeSnapshot}
    (he : b.Extends b') (h : preflight b c before intended = .ok ()) :
    preflight b' c before intended = .ok () := by
  cases hn : storedBytes b c with
  | error fault =>
    by_cases hlen : c.files.length + 1 > maxChangesetFiles <;>
      simp [preflight, hn, hlen, Bind.bind, Except.bind] at h
  | ok n =>
    simpa only [preflight, storedBytes_mono he hn, hn] using h

/-- The identifier of a mutation is new, and no record without one can be taken for it. -/
structure Identified (s₀ : ChangeState) (changeSet : ChangeSet) (kind : FileChangeKind)
    (intended : Option NodeSnapshot) (target : BoundFileMutation) (identifier : String) :
    Prop where
  row : ∀ p ∈ s₀.store.pendings.rows, p.id ≠ .mutation identifier
  record : ∀ x ∈ changeSet.files, x.mutationId ≠ some identifier
  legacy : ∀ x ∈ changeSet.files, x.mutationId = none → ∀ type, changeMatchesPending x
    (announcement s₀ changeSet kind intended target identifier type) = false

private theorem Identified.committedChanges {s₀ : ChangeState} {c : ChangeSet}
    {kind : FileChangeKind}
    {intended : Option NodeSnapshot} {target : BoundFileMutation} {identifier : String}
    (h : Identified s₀ c kind intended target identifier) :
    committedChanges c (.mutation identifier) = [] := by
  refine List.filter_eq_nil_iff.mpr fun x hx hm => ?_
  cases hxid : x.mutationId with
  | none => simp [hxid] at hm
  | some i =>
    simp only [hxid, Option.any_some, decide_eq_true_eq, PendingId.mutation.injEq] at hm
    exact h.record x hx (hm ▸ hxid)

private theorem Identified.recorded {s₀ : ChangeState} {c : ChangeSet} {kind : FileChangeKind}
    {intended : Option NodeSnapshot} {target : BoundFileMutation} {identifier : String}
    (h : Identified s₀ c kind intended target identifier) (hc : s₀.store.get c.id = some c)
    (type : FileNodeType) (change : FileChange) :
    let p := announcement s₀ c kind intended target identifier type
    Added s₀.store [p] (recordedStore s₀ c p change) :=
  ((Added.refl s₀.store).savePending (by simp) h.row).save hc rfl

/-- A record describes one mutation with the nodes before and after it. -/
structure RecordsMutation (b : BlobStore) (identifier : String) (kind : FileChangeKind)
    (path : RelativePath) (before after : Option NodeSnapshot) (x : FileChange) : Prop where
  mutationId : x.mutationId = some identifier
  path : x.path = path
  kind : x.kind = kind
  beforeType : x.resolvedBeforeNodeType = before.map (·.nodeType)
  afterType : x.resolvedAfterNodeType = after.map (·.nodeType)
  before : changeSnapshot b x true = .ok before
  after : changeSnapshot b x false = .ok after

/-- How many records a mutation may have, given the node that is there now. -/
structure RecordedOnce (before intended now : Option NodeSnapshot) (added : List FileChange) :
    Prop where
  atMost : added.length ≤ 1
  done : Meets intended now → now ≠ before → added.length = 1
  undone : now = before → ¬Meets intended now → added = []

/-- The records that a recovery on the disk `d` leaves in the ChangeSet of a mutation. -/
structure Reconciled (s₀ : ChangeState) (changeSet : ChangeSet) (kind : FileChangeKind)
    (target : BoundFileMutation) (identifier : String) (d : Disk) (added : List FileChange)
    (s : ChangeState) : Prop where
  rows : Added s₀.store [] s.store
  stored : ∃ c, s.store.get changeSet.id = some c ∧ c.files = changeSet.files ++ added
  pass : PassState d [] s.tree
  records : ∀ x ∈ added, RecordsMutation s.blobs identifier kind target.relativePath
    target.before (d.snapshot target.relativePath.parts) x

private theorem recordOf_records {after : Option NodeSnapshot} {b : BlobStore}
    (hp : target.relativePath.asPosix.length ≤ maxChangePath)
    (hbefore : ∀ u, target.before = some u → u.Formed) (hafter : ∀ u, after = some u → u.Formed)
    (hb : b.Holds target.before) (ha : b.Holds after) :
    RecordsMutation b identifier kind target.relativePath target.before after
      (recordOf (announcement s₀ c kind intended target identifier type) identifier after
        (blobOf after) hp) := by
  obtain ⟨hx, hy⟩ := recordOf_snapshots s₀ c kind intended identifier type hp hbefore hafter hb ha
  exact ⟨rfl, rfl, rfl, (changeSnapshot_type hx).symm, (changeSnapshot_type hy).symm, hx, hy⟩

private theorem changeMatchesPending_recordOf {after : Option NodeSnapshot}
    (hp : target.relativePath.asPosix.length ≤ maxChangePath)
    (hm : Meets intended after) :
    changeMatchesPending (recordOf (announcement s₀ c kind intended target identifier type)
      identifier after (blobOf after) hp)
      (announcement s₀ c kind intended target identifier type) = true := by
  have hbefore : FileChange.resolvedBeforeNodeType (recordOf
      (announcement s₀ c kind intended target identifier type) identifier after (blobOf after)
      hp) = (announcement s₀ c kind intended target identifier type).resolvedBeforeNodeType := by
    cases hb : target.before <;>
      simp [FileChange.resolvedBeforeNodeType, PendingMutation.resolvedBeforeNodeType, recordOf,
        announcement, mutationPending, snapshotDigest, hb]
  cases intended with
  | none =>
    obtain rfl : after = none := hm
    simp [changeMatchesPending, hbefore, FileChange.resolvedAfterNodeType,
      PendingMutation.resolvedIntendedAfterNodeType]
    simp [recordOf, announcement, mutationPending, snapshotDigest, blobOf]
  | some i =>
    obtain ⟨a, rfl, ht, hc, hmode⟩ := hm
    simp [changeMatchesPending, hbefore, FileChange.resolvedAfterNodeType,
      PendingMutation.resolvedIntendedAfterNodeType]
    simp [recordOf, announcement, mutationPending, snapshotDigest, blobOf, ht, hc, hmode]

section Observed

variable {w : WorkspaceIdentity} {s₀ : ChangeState} {c : ChangeSet} {kind : FileChangeKind}
  {intended : Option NodeSnapshot} {target : BoundFileMutation} {identifier : String}
  {type : FileNodeType} {b : BlobStore} {d : Disk}

private theorem announcement_snapshots {store : BlobStore}
    (hbefore : ∀ u, target.before = some u → u.Formed)
    (hintended : ∀ u, intended = some u → u.Formed)
    (hb : store.Holds target.before) (hi : store.Holds intended) :
    let p := announcement s₀ c kind intended target identifier type
    pendingSnapshot store p true = .ok target.before ∧
      pendingSnapshot store p false = .ok intended := by
  refine ⟨?_, ?_⟩
  · have := recordedSnapshot_of_formed pendingFaults hbefore hb
    rw [← resolved_type target.before type] at this
    exact this
  · have := recordedSnapshot_of_formed pendingFaults hintended hi
    rw [← resolved_type intended type] at this
    exact this

/-- Recording a mutation that was carried out. -/
private theorem recordPending_spec (hc : s₀.store.get c.id = some c)
    (ha : Accepted w s₀ c intended target type)
    (hid : Identified s₀ c kind intended target identifier)
    (hp : target.relativePath.asPosix.length ≤ maxChangePath)
    (hext : s₀.blobs.Extends b) (hsound : b.Sound) (hb : b.Holds target.before)
    (hi : b.Holds intended) (hbefore : ∀ u, target.before = some u → u.Formed)
    (hintended : ∀ u, intended = some u → u.Formed) :
    let p := announcement s₀ c kind intended target identifier type
    Triple (Within (announcedStore s₀ p) b d [])
      (recordPending c p identifier (d.snapshot target.relativePath.parts))
      (fun _ s => ∃ change, Reconciled s₀ c kind target identifier d [change] s)
      (fun _ _ => False) (fun _ => True) := by
  intro p
  obtain ⟨hpb, hpi⟩ : pendingSnapshot b p true = .ok target.before ∧
      pendingSnapshot b p false = .ok intended :=
    announcement_snapshots hbefore hintended hb hi
  refine Triple.bind (Within.read (a := target.before) fun s hs => hs.blobs ▸ hpb) fun r => ?_
  refine Triple.assume (fun _ hs => hs.1) ?_
  rintro rfl
  refine Triple.bind ((Within.read (a := intended) fun s hs => hs.blobs ▸ hpi).pre
    fun _ hs => hs.2) fun r => ?_
  refine Triple.assume (fun _ hs => hs.1) ?_
  rintro rfl
  refine Triple.bind ((Within.read (a := ()) fun s hs => hs.blobs ▸
    preflight_mono hext ha.capacity).pre fun _ hs => hs.2) fun _ => ?_
  let I : ChangeState → Prop := fun s => s.store = announcedStore s₀ p ∧ b.Extends s.blobs ∧
    s.blobs.Sound ∧ PassState d [] s.tree
  have hgrows : GrowsWithBlobs I :=
    ⟨fun s hs => hs.2.2.1, fun s b' hs he hb' => ⟨hs.1, hs.2.1.trans he, hb', hs.2.2.2⟩⟩
  let now := d.snapshot target.relativePath.parts
  let change := recordOf p identifier now (blobOf now) hp
  refine Triple.bind (R := fun r s => r = change ∧ s.blobs.Holds now ∧ I s) ?_ fun r => ?_
  · refine Triple.bind ((putContent_spec hgrows (fun _ _ => trivial) now).pre
      fun s hs => ⟨hs.2.store, hs.2.blobs ▸ BlobStore.Extends.refl _, hs.2.blobs ▸ hsound,
        hs.2.pass⟩) fun blob => ?_
    have hp' : p.relativePath.asPosix.length ≤ maxChangePath := hp
    simp only [hp', dite_true]
    refine Triple.pure ?_
    rintro s ⟨hs, hh, hblob⟩
    exact ⟨by rw [hblob], hh, hs⟩
  refine Triple.assume (fun _ hs => hs.1) ?_
  rintro rfl
  dsimp only
  rw [if_neg (by rw [ha.opened]; exact ChangeLifecycle.noConfusion)]
  let saved := (announcedStore s₀ p).save { c with files := c.files ++ [change] }
  refine Triple.bind (R := fun _ s => s.store = saved ∧ b.Extends s.blobs ∧
    s.blobs.Holds now ∧ PassState d [] s.tree) (Triple.onStore ?_ fun _ _ => trivial) fun _ => ?_
  · rintro s ⟨_, hh, hs, he, _, ht⟩
    exact ⟨by rw [hs], he, hh, ht⟩
  refine Triple.onStore ?_ fun _ _ => trivial
  rintro s ⟨hs, he, hh, ht⟩
  refine ⟨change, ?_, ⟨{ c with files := c.files ++ [change] }, ?_, rfl⟩, ht,
    List.forall_mem_singleton.mpr ?_⟩
  · change Added s₀.store [] (s.store.deletePending p.id)
    rw [hs]
    exact (hid.recorded hc type change).deletePending (by simp) hid.row
  · change s.store.get c.id = _
    rw [hs]
    exact ChangeSetStore.get_save _ _
  · exact recordOf_records hp hbefore (fun u hu => (Disk.snapshot_captured hu).content)
      (hb.mono he) hh

/-- A mutation without a record is dropped when it finds its old node and recorded when it
finds the intended one. -/
theorem reconcileObserved_unrecorded (hc : s₀.store.get c.id = some c)
    (ha : Accepted w s₀ c intended target type)
    (hid : Identified s₀ c kind intended target identifier)
    (hp : target.relativePath.asPosix.length ≤ maxChangePath)
    (hext : s₀.blobs.Extends b) (hsound : b.Sound) (hb : b.Holds target.before)
    (hi : b.Holds intended) (hbefore : ∀ u, target.before = some u → u.Captured)
    (hintended : ∀ u, intended = some u → u.Formed)
    (hnow : d.snapshot target.relativePath.parts = target.before ∨
      Meets intended (d.snapshot target.relativePath.parts)) :
    let p := announcement s₀ c kind intended target identifier type
    Triple (Within (announcedStore s₀ p) b d [])
      (reconcileObserved c p identifier (d.snapshot target.relativePath.parts))
      (fun _ s => ∃ added, RecordedOnce target.before intended
          (d.snapshot target.relativePath.parts) added ∧
        Reconciled s₀ c kind target identifier d added s)
      (fun _ _ => False) (fun _ => True) := by
  intro p
  have hcommitted : committedChanges c p.id = [] := hid.committedChanges
  have hlegacy : c.files.any (fun change => decide (change.mutationId = none) &&
      changeMatchesPending change p) ≠ true := by
    intro hany
    obtain ⟨x, hx, hm⟩ := List.any_eq_true.mp hany
    simp only [Bool.and_eq_true, decide_eq_true_eq] at hm
    rw [hid.legacy x hx hm.1 type] at hm
    cases hm.2
  have hcap : ∀ u, d.snapshot target.relativePath.parts = some u → u.Captured :=
    fun u hu => Disk.snapshot_captured hu
  have hmatch : snapshotMatchesRecord (d.snapshot target.relativePath.parts) p.beforeHash
      p.beforeMode (p.resolvedBeforeNodeType.getD p.nodeType) = true ↔
      d.snapshot target.relativePath.parts = target.before := by
    refine snapshotMatchesRecord_iff hcap hbefore fun u hu => ?_
    have hu : target.before = some u := hu
    simp [p, announcement, mutationPending, PendingMutation.resolvedBeforeNodeType,
      snapshotDigest, hu]
  rw [reconcileObserved, if_neg (not_not_intro hcommitted), if_neg hlegacy]
  by_cases hold : d.snapshot target.relativePath.parts = target.before
  · rw [if_pos (hmatch.mpr hold)]
    refine (Within.statement fun _ => trivial).post fun _ s hs => ⟨[], ⟨by simp,
      fun _ hne => absurd hold hne, fun _ _ => rfl⟩, ?_, ⟨c, ?_, by simp⟩,
      hs.pass, by simp⟩
    · rw [hs.store]
      exact ((Added.refl s₀.store).savePending (by simp) hid.row).deletePending (by simp) hid.row
    · rw [hs.store]
      exact hc
  · have hmeets := hnow.resolve_left hold
    have hintends : AsIntended p (d.snapshot target.relativePath.parts) :=
      (asIntended_iff hintended fun u hu => (hcap u hu).content).mpr hmeets
    rw [if_neg (fun hm => hold (hmatch.mp hm)), if_pos (show _ = true from hintends)]
    refine (recordPending_spec hc ha hid hp hext hsound hb hi
      (fun u hu => (hbefore u hu).content) hintended).post ?_
    rintro _ s ⟨change, hs⟩
    exact ⟨[change], ⟨le_refl _, fun _ _ => rfl, fun h => absurd h hold⟩, hs⟩

private theorem reconcileObserved_recorded (hc : s₀.store.get c.id = some c)
    (hid : Identified s₀ c kind intended target identifier)
    (hp : target.relativePath.asPosix.length ≤ maxChangePath)
    (hb : b.Holds target.before) (hn : b.Holds (d.snapshot target.relativePath.parts))
    (hbefore : ∀ u, target.before = some u → u.Captured)
    (hmeets : Meets intended (d.snapshot target.relativePath.parts)) :
    let p := announcement s₀ c kind intended target identifier type
    let now := d.snapshot target.relativePath.parts
    let change := recordOf p identifier now (blobOf now) hp
    Triple (Within (recordedStore s₀ c p change) b d [])
      (reconcileObserved { c with files := c.files ++ [change] } p identifier now)
      (fun _ s => ∃ added, RecordedOnce target.before intended now added ∧
        Reconciled s₀ c kind target identifier d added s)
      (fun _ _ => False) (fun _ => True) := by
  intro p now change
  have hcap : ∀ u, now = some u → u.Captured := fun u hu => Disk.snapshot_captured hu
  have hcommitted : committedChanges { c with files := c.files ++ [change] } p.id = [change] := by
    rw [committedChanges, List.filter_append]
    change committedChanges c (.mutation identifier) ++ _ = _
    rw [hid.committedChanges]
    simp [change, recordOf, p, announcement, mutationPending]
  have hmatch : snapshotMatchesRecord now change.afterHash change.afterMode
      (change.resolvedAfterNodeType.getD change.nodeType) = true := by
    refine (snapshotMatchesRecord_iff hcap hcap fun u hu => ?_).mpr rfl
    have hu : now = some u := hu
    simp [change, recordOf, FileChange.resolvedAfterNodeType, snapshotDigest, hu]
  rw [reconcileObserved, hcommitted, if_pos (by simp)]
  change Triple _ (if changeMatchesPending change p = true ∧ _ then _ else _) _ _ _
  rw [if_pos ⟨changeMatchesPending_recordOf hp hmeets, hmatch⟩]
  refine (Within.statement fun _ => trivial).post fun _ s hs => ⟨[change], ⟨le_refl _,
    fun _ _ => rfl, fun _ h => absurd hmeets h⟩, ?_,
    ⟨{ c with files := c.files ++ [change] }, ?_, rfl⟩, hs.pass,
    List.forall_mem_singleton.mpr ?_⟩
  · rw [hs.store]
    exact (hid.recorded hc type change).deletePending (by simp) hid.row
  · rw [hs.store]
    exact ChangeSetStore.get_save _ _
  · rw [hs.blobs]
    exact recordOf_records hp (fun u hu => (hbefore u hu).content)
      (fun u hu => (hcap u hu).content) hb hn

end Observed

/-- Closing the ChangeSet of a reconciled mutation keeps its records. -/
private theorem close_spec {d : Disk}
    {added : List FileChange} (hc : s₀.store.get c.id = some c) (hw : c.workspaceKey = w.key)
    (hlisted : ∀ p ∈ s₀.store.listPending, p.changeSetId ≠ c.id) :
    Triple (Reconciled s₀ c kind target identifier d added) (reconcileChangeSet w [] c.id [])
      (fun _ => Reconciled s₀ c kind target identifier d added) (fun _ _ => False)
      (fun _ => True) := by
  let I := Reconciled s₀ c kind target identifier d added
  let J : ChangeSet → ChangeState → Prop := fun r s => I s ∧ s.store.get c.id = some r
  have howned : ∀ r, Triple (J r) (owned w c.id) (fun r' s => r' = r ∧ J r s) (fun _ _ => False)
      (fun _ => True) := by
    intro r
    refine Triple.reading (fun s r' hs hr => ?_) fun s fault hs hr => ?_
    all_goals
      have hkey := hs.1.rows.workspaces c.id
      rw [hs.2, hc, Option.map_some, Option.map_some, hw, Option.some.injEq] at hkey
      simp only [hs.2, hkey, ne_eq, not_true_eq_false, if_false] at hr
      cases hr
    exact ⟨rfl, hs⟩
  refine Triple.bind (R := fun _ => I) (Triple.pure fun _ hs => hs) fun _ => ?_
  refine Triple.pre (P := fun s => ∃ r, J r s) (Triple.named fun r => ?_) fun s hs =>
    let ⟨r, hr, _⟩ := hs.stored
    ⟨r, hs, hr⟩
  refine Triple.bind (howned r) fun r' => Triple.assume (fun _ hs => hs.1) ?_
  rintro rfl
  split
  · next hopen =>
    refine Triple.bind (R := fun _ => I) ?_ fun _ => Triple.pure fun _ hs => hs
    refine Triple.bind (R := fun r s => r = r' ∧ J r' s) ?_ fun r => ?_
    · refine Triple.bind ((howned r').pre fun _ hs => hs.2) fun r => ?_
      refine Triple.assume (fun _ hs => hs.1) ?_
      rintro rfl
      rw [if_neg (not_not_intro hopen.1)]
      exact Triple.pure fun _ hs => hs
    refine Triple.assume (fun _ hs => hs.1) ?_
    rintro rfl
    refine Triple.bind (R := fun _ => J r) (Triple.reading ?_ ?_) fun _ => ?_
    · exact fun s _ hs _ => hs.2
    · rintro s fault ⟨_, hs⟩ hf
      have hany : (s.store.listPending.any fun p => decide (p.changeSetId = c.id)) = false := by
        refine List.any_eq_false.mpr fun p hp => ?_
        simpa using hs.1.rows.unlisted hlisted p hp
      simp [hany] at hf
    refine Triple.bind (R := fun _ => J r) (Triple.now fun s hs => hs) fun sealedAt => ?_
    refine Triple.bind (R := fun _ => I) (Triple.onStore ?_ fun _ _ => trivial) fun _ =>
      Triple.pure fun _ hs => hs
    rintro s ⟨hs, hr⟩
    obtain ⟨c', hc', hf⟩ := hs.stored
    rw [hr] at hc'
    cases hc'
    have hrid : r.id = c.id := ChangeSetStore.id_of_get hr
    let closed : ChangeSet := { r with
      lifecycle := .applied
      reversibility := reversibility r
      sealedAt := some sealedAt }
    have hsaved : Added s₀.store [] (s.store.save closed) :=
      hs.rows.save (c := r) (by change s.store.get r.id = some r; rw [hrid, hr]) rfl
    refine ⟨hsaved, ⟨closed, ?_, hf⟩, hs.pass, hs.records⟩
    · rw [← hrid]
      exact s.store.get_save closed
  · exact Triple.pure fun _ hs => hs.2.1

/-- With one ordinary row, a recovery looks at its path, decides and closes the ChangeSet. -/
theorem reconcilePending_row {only : Option String} {u : ChangeState}
    {p : PendingMutation} {R : ChangeState → Prop}
    (hrows : recoveredRows w only u.store = [p]) (hid : p.id = .mutation identifier)
    (hroot : (u.disk.lstat []).map Entry.identity = some w.rootIdentity)
    (hc : u.store.get p.changeSetId = some c) (hw : c.workspaceKey = w.key)
    (hl : c.lifecycle ≠ .undone)
    (hclear : ∀ q, q <:+ p.relativePath.parent → u.disk.outline q ≠ some false)
    (hcap : ∀ e, u.disk.lstat p.relativePath.parts = some e → e.Capturable)
    (hobserved : Triple (Within u.store u.blobs u.disk [])
      (reconcileObserved c p identifier (u.disk.snapshot p.relativePath.parts)) (fun _ => R)
      (fun _ _ => False) (fun _ => True))
    (hclose : Triple R (reconcileChangeSet w [] p.changeSetId []) (fun _ => R)
      (fun _ _ => False) (fun _ => True)) :
    Triple (fun s => s = u) (reconcilePending w only) (fun _ => R) (fun _ _ => False)
      (fun _ => True) := by
  refine Triple.bind (R := fun r s => r = [p] ∧ s = u) (Triple.reading ?_ ?_) fun rows => ?_
  · rintro s r rfl hr
    cases hr
    exact ⟨hrows, rfl⟩
  · rintro s fault _ hr
    cases hr
  refine Triple.assume (fun _ hs => hs.1) ?_
  rintro rfl
  have hordinary : (Dict.groupBy (fun row : String × PendingMutation => row.2.changeSetId)
      ([p].filterMap ordinaryRow)).entries = [(p.changeSetId, [(identifier, p)])] := by
    simp only [List.filterMap_cons, List.filterMap_nil, ordinaryRow, hid]
    exact Dict.groupBy_entries (by simp) (by simp)
  have hoperations : Dict.groupBy (fun row : Action × PendingMutation =>
      (row.2.changeSetId, row.1)) ([p].filterMap operationRow) = Dict.empty := by
    simp [operationRow, hid, PendingId.operationAction]
  dsimp only
  rw [hordinary, hoperations]
  refine Triple.mapFault (Triple.bind ((Within.enter hroot).pre fun _ hs => hs.2) fun _ => ?_)
  refine Triple.bind (R := fun _ => R) ?_ fun _ => Triple.pure fun _ hs => hs
  refine Triple.bind (R := fun _ => R) ?_ fun _ => Triple.pure fun _ hs => hs
  refine Triple.bind (R := fun _ => R) ?_ fun _ => hclose
  refine Triple.bind (R := fun _ => R) ?_ fun _ => Triple.pure fun _ hs => hs
  refine Triple.bind (Triple.mapFault (Within.read (a := c) fun s hs => ?_)) fun r => ?_
  · simp [hs.store, hc, hw]
  refine Triple.assume (fun _ hs => hs.1) ?_
  rintro rfl
  rw [if_neg hl]
  exact (Within.observe hclear hcap hobserved).pre fun _ hs => hs.2

/-- What a recovery leaves of a mutation: its row is gone, the earlier records stay, and
the mutation is recorded once if it was carried out. -/
structure MutationSettled (s₀ u v : ChangeState) (changeSet : ChangeSet) (kind : FileChangeKind)
    (intended : Option NodeSnapshot) (target : BoundFileMutation) (identifier : String) :
    Prop where
  row : v.store.pendings.get? (.mutation identifier) = none
  rows : ∀ i, v.store.pendings.get? i = s₀.store.pendings.get? i
  disk : ∀ q, v.disk.lstat q = u.disk.lstat q
  reached : v.disk.snapshot target.relativePath.parts = target.before ∨
    Meets intended (v.disk.snapshot target.relativePath.parts)
  records : ∃ c added, v.store.get changeSet.id = some c ∧ c.files = changeSet.files ++ added ∧
    RecordedOnce target.before intended (v.disk.snapshot target.relativePath.parts) added ∧
    ∀ x ∈ added, RecordsMutation v.blobs identifier kind target.relativePath target.before
      (v.disk.snapshot target.relativePath.parts) x

/-- A disk on which a mutation has happened or not. -/
structure MutationDisk (d : Disk) (intended : Option NodeSnapshot) (target : BoundFileMutation)
    (d' : Disk) : Prop where
  root : d'.lstat [] = d.lstat []
  clear : ∀ q, q <:+ target.relativePath.parent → d'.outline q ≠ some false
  capturable : ∀ e, d'.lstat target.relativePath.parts = some e → e.Capturable
  reached : d'.snapshot target.relativePath.parts = target.before ∨
    Meets intended (d'.snapshot target.relativePath.parts)

omit [ContentHash] in
private theorem RecoverableMutation.kept {d d' : Disk} (h : RecoverableMutation d intended target)
    (hlink : d'.linkMode = d.linkMode) (hsame : ∀ q, d'.lstat q = d.lstat q) :
    MutationDisk d intended target d' := by
  refine ⟨hsame [], fun q hq ho => h.clear q hq ?_, fun e he => h.capturable e (hsame _ ▸ he),
    Or.inl ?_⟩
  · obtain ⟨e, he, hd⟩ := Option.map_eq_some_iff.mp ho
    rw [← hd]
    exact Disk.outline_of_lstat ((hsame q).symm.trans he)
  · rw [h.before, Disk.snapshot, Disk.snapshot, hsame, hlink]

omit [ContentHash] in
private theorem RecoverableMutation.mutated {d d' : Disk} {intended : Option NodeSnapshot}
    {target : BoundFileMutation} (h : RecoverableMutation d intended target)
    (hm : LeavesIntended d intended target d') : MutationDisk d intended target d' := by
  have hparent : ∀ q, q <:+ target.relativePath.parent → q ≠ target.relativePath.parts := by
    intro q hq he
    have := hq.length_le
    rw [he, RelativePath.parts, List.length_cons] at this
    omega
  refine ⟨hm.elsewhere [] (List.cons_ne_nil _ _).symm, fun q hq ho => h.clear q hq ?_,
    hm.capturable, Or.inr hm.meets⟩
  obtain ⟨e, he, hd⟩ := Option.map_eq_some_iff.mp ho
  rw [← hd]
  exact Disk.outline_of_lstat ((hm.elsewhere q (hparent q hq)).symm.trans he)

section Points

variable {w : WorkspaceIdentity} {only : Option String} {s₀ u : ChangeState} {c : ChangeSet}
  {kind : FileChangeKind} {intended : Option NodeSnapshot} {target : BoundFileMutation}
  {identifier : String}

private theorem Reconciled.settled {v : ChangeState} {added : List FileChange}
    (hid : Identified s₀ c kind intended target identifier)
    (hd : MutationDisk s₀.disk intended target u.disk)
    (h : Reconciled s₀ c kind target identifier u.disk added v)
    (hadded : RecordedOnce target.before intended
      (u.disk.snapshot target.relativePath.parts) added) :
    MutationSettled s₀ u v c kind intended target identifier := by
  have hdisk : ∀ q, v.disk.lstat q = u.disk.lstat q :=
    fun q => h.pass.untouched q fun x hx => by cases hx
  have hlink : v.disk.linkMode = u.disk.linkMode := h.pass.linkMode
  have hsnap : v.disk.snapshot target.relativePath.parts =
      u.disk.snapshot target.relativePath.parts := by
    rw [Disk.snapshot, Disk.snapshot, hdisk, hlink]
  obtain ⟨c', hc', hfiles⟩ := h.stored
  refine ⟨?_, h.rows.get?, hdisk, hsnap ▸ hd.reached, c', added, hc', hfiles, hsnap ▸ hadded,
    hsnap ▸ h.records⟩
  rw [h.rows.get?]
  cases hp : s₀.store.pendings.get? (.mutation identifier) with
  | none => rfl
  | some p =>
    obtain ⟨hmem, hkey⟩ := s₀.store.pendings.get?_eq_some_iff.mp hp
    exact absurd hkey (hid.row p hmem)

private theorem settled_of_nothing (added : List FileChange)
    (hid : Identified s₀ c kind intended target identifier)
    (hroot : (s₀.disk.lstat []).map Entry.identity = some w.rootIdentity)
    (hquiet : recoveredRows w only s₀.store = [])
    (hd : MutationDisk s₀.disk intended target u.disk) (hrows : Added s₀.store [] u.store)
    (hstored : ∃ c', u.store.get c.id = some c' ∧ c'.files = c.files ++ added)
    (hadded : RecordedOnce target.before intended
      (u.disk.snapshot target.relativePath.parts) added)
    (hrecords : ∀ x ∈ added, RecordsMutation u.blobs identifier kind target.relativePath
      target.before (u.disk.snapshot target.relativePath.parts) x) :
    Triple (fun s => s = u) (reconcilePending w only)
      (fun _ v => MutationSettled s₀ u v c kind intended target identifier) (fun _ _ => False)
      (fun _ => True) := by
  have hnone : recoveredRows w only u.store = [] :=
    List.perm_nil.mp (hrows.recoveredRows List.nodup_nil hquiet (by simp))
  refine (reconcilePending_nothing hnone (hd.root ▸ hroot)).post fun _ v hv => ?_
  have hrec : Reconciled s₀ c kind target identifier u.disk added v :=
    ⟨hv.store ▸ hrows, hv.store ▸ hstored, hv.pass, hv.blobs ▸ hrecords⟩
  exact hrec.settled hid hd hadded

variable {store : ChangeSetStore}

omit [ContentHash] in
private theorem announced_rows {p : PendingMutation}
    (hc : s₀.store.get p.changeSetId = some c) (hw : c.workspaceKey = w.key)
    (hkey : p.workspaceKey = c.workspaceKey) (hquiet : recoveredRows w only s₀.store = [])
    (honly : ∀ i ∈ only, p.changeSetId = i)
    (h : Added s₀.store [p] store) : recoveredRows w only store = [p] := by
  refine List.perm_singleton.mp (h.recoveredRows (List.nodup_singleton _) hquiet ?_)
  refine List.forall_mem_singleton.mpr ⟨hkey.trans hw, ?_, honly⟩
  rw [hc, Option.map_some, hw]

private theorem announced_settled {type : FileNodeType} {c' : ChangeSet}
    (hc : s₀.store.get c.id = some c) (ha : Accepted w s₀ c intended target type)
    (hroot : (s₀.disk.lstat []).map Entry.identity = some w.rootIdentity)
    (hquiet : recoveredRows w only s₀.store = []) (honly : ∀ i ∈ only, c.id = i)
    (hid : Identified s₀ c kind intended target identifier)
    (hd : MutationDisk s₀.disk intended target u.disk) (hstore : u.store = store)
    (hadded : Added s₀.store [announcement s₀ c kind intended target identifier type] store)
    (hc' : store.get c.id = some c') (hopen : c'.lifecycle = .open)
    (hobserved : Triple (Within store u.blobs u.disk [])
      (reconcileObserved c' (announcement s₀ c kind intended target identifier type) identifier
        (u.disk.snapshot target.relativePath.parts))
      (fun _ s => ∃ added, RecordedOnce target.before intended
          (u.disk.snapshot target.relativePath.parts) added ∧
        Reconciled s₀ c kind target identifier u.disk added s)
      (fun _ _ => False) (fun _ => True)) :
    Triple (fun s => s = u) (reconcilePending w only)
      (fun _ v => MutationSettled s₀ u v c kind intended target identifier) (fun _ _ => False)
      (fun _ => True) := by
  subst hstore
  have hrows := announced_rows hc ha.workspace rfl hquiet honly hadded
  have hkey := hadded.workspaces c.id
  rw [hc', hc, Option.map_some, Option.map_some, ha.workspace, Option.some.injEq] at hkey
  have hlisted : ∀ p ∈ s₀.store.listPending, p.changeSetId ≠ c.id := by
    obtain ⟨i, hi, hany⟩ := ha.stored
    intro p hp
    simpa [ChangeSetStore.id_of_get hi] using List.any_eq_false.mp hany p hp
  refine (reconcilePending_row hrows rfl (hd.root ▸ hroot) hc' hkey (by simp [hopen]) hd.clear
    hd.capturable hobserved (Triple.named fun added => ?_)).post ?_
  · refine Triple.assume (fun _ hs => hs.1) fun honce => ?_
    exact ((close_spec hc ha.workspace hlisted).pre fun _ hs => hs.2).post
      fun _ _ hs => ⟨added, honce, hs⟩
  · rintro _ v ⟨added, honce, hv⟩
    exact hv.settled hid hd honce

/-- Recovery settles a mutation from every point at which a crash can find it. -/
theorem MutationPoint.settled (hstored : s₀.store.get c.id = some c)
    (hroot : (s₀.disk.lstat []).map Entry.identity = some w.rootIdentity)
    (hquiet : recoveredRows w only s₀.store = []) (honly : ∀ i ∈ only, c.id = i)
    (hid : Identified s₀ c kind intended target identifier)
    (hp : target.relativePath.asPosix.length ≤ maxChangePath)
    (hm : RecoverableMutation s₀.disk intended target)
    (h : MutationPoint w s₀ c.id kind intended target identifier u) :
    Triple (fun s => s = u) (reconcilePending w only)
      (fun _ v => MutationSettled s₀ u v c kind intended target identifier) (fun _ _ => False)
      (fun _ => True) := by
  have hbefore : ∀ v, target.before = some v → v.Captured := by
    intro v hv
    rw [hm.before] at hv
    exact Disk.snapshot_captured hv
  have hkeep : MutationDisk s₀.disk intended target s₀.disk := hm.kept rfl fun _ => rfl
  have hnil : s₀.disk.snapshot target.relativePath.parts = target.before →
      RecordedOnce target.before intended
        (s₀.disk.snapshot target.relativePath.parts) [] := fun hb =>
    ⟨by simp, fun _ hne => absurd hb hne, fun _ _ => rfl⟩
  have hopen : ∀ {type : FileNodeType} {d : Disk}, Accepted w s₀ c intended target type →
      HoldsBoth intended target u →
      Phase s₀ (announcedStore s₀ (announcement s₀ c kind intended target identifier type)) d u →
      MutationDisk s₀.disk intended target d →
      Triple (fun s => s = u) (reconcilePending w only)
        (fun _ v => MutationSettled s₀ u v c kind intended target identifier) (fun _ _ => False)
        (fun _ => True) := by
    intro type d ha hb h hd
    rw [← h.disk] at hd
    exact announced_settled hstored ha hroot hquiet honly hid hd h.store
      ((Added.refl s₀.store).savePending (by simp) hid.row) hstored ha.opened
      (reconcileObserved_unrecorded hstored ha hid hp h.blobs h.sound hb.1 hb.2 hbefore hm.formed
        hd.reached)
  cases h with
  | quiet h =>
    exact settled_of_nothing [] hid hroot hquiet (h.disk ▸ hkeep) (h.store ▸ Added.refl _)
      ⟨c, h.store ▸ hstored, (List.append_nil _).symm⟩ (h.disk ▸ hnil hm.before.symm) (by simp)
  | @announced c' type hc ha hb h =>
    obtain rfl : c = c' := Option.some.inj (hstored.symm.trans hc)
    exact hopen ha hb h hkeep
  | @failed c' type fault d hc ha hb hf h =>
    obtain rfl : c = c' := Option.some.inj (hstored.symm.trans hc)
    rcases hm.failed fault d hf with ⟨hlink, hsame⟩ | ⟨_, hleaves⟩
    · exact hopen ha hb h (hm.kept hlink hsame)
    · exact hopen ha hb h (hm.mutated hleaves)
  | @withdrawn c' type message d hc ha hf h =>
    obtain rfl : c = c' := Option.some.inj (hstored.symm.trans hc)
    obtain ⟨hlink, hsame⟩ := (hm.failed _ d hf).resolve_right fun ⟨hne, _⟩ => hne message rfl
    have hd := hm.kept hlink hsame
    have hnow : d.snapshot target.relativePath.parts = target.before := by
      rw [hm.before, Disk.snapshot, Disk.snapshot, hsame, hlink]
    refine settled_of_nothing [] hid hroot hquiet (h.disk ▸ hd) ?_ ⟨c, ?_, by simp⟩
      (h.disk ▸ ⟨by simp, fun _ hne => absurd hnow hne, fun _ _ => rfl⟩) (by simp)
    · rw [h.store]
      exact ((Added.refl s₀.store).savePending (by simp) hid.row).deletePending (by simp) hid.row
    · rw [h.store]
      exact hstored
  | @mutated c' type d hc ha hb hok h =>
    obtain rfl : c = c' := Option.some.inj (hstored.symm.trans hc)
    exact hopen ha hb h (hm.mutated (hm.done d hok))
  | @recorded c' type d after hc ha hok hafter hi hp' hb h =>
    obtain rfl : c = c' := Option.some.inj (hstored.symm.trans hc)
    obtain ⟨rfl, _⟩ := hm.captured d after hok hafter
    have hd := hm.mutated (hm.done d hok)
    obtain ⟨hstore, rfl, _, _, _⟩ := h
    have hmeets := (asIntended_iff hm.formed fun u hu => (Disk.snapshot_captured hu).content).mp hi
    exact announced_settled hstored ha hroot hquiet honly hid hd hstore
      (hid.recorded hstored type _) (ChangeSetStore.get_save _ _) ha.opened
      (reconcileObserved_recorded hstored hid hp hb.1.1 hb.2 hbefore hmeets)
  | @done c' type d after hc ha hok hafter hi hp' hb h =>
    obtain rfl : c = c' := Option.some.inj (hstored.symm.trans hc)
    obtain ⟨rfl, _⟩ := hm.captured d after hok hafter
    have hd := hm.mutated (hm.done d hok)
    obtain ⟨hstore, rfl, _, _, _⟩ := h
    have hmeets := (asIntended_iff hm.formed fun u hu => (Disk.snapshot_captured hu).content).mp hi
    let now := u.disk.snapshot target.relativePath.parts
    let change := recordOf (announcement s₀ c kind intended target identifier type) identifier now
      (blobOf now) hp
    refine settled_of_nothing [change] hid hroot hquiet hd ?_
      ⟨{ c with files := c.files ++ [change] }, ?_, rfl⟩
      ⟨le_refl _, fun _ _ => rfl, fun _ h => absurd hmeets h⟩
      (List.forall_mem_singleton.mpr (recordOf_records hp (fun u hu => (hbefore u hu).content)
        (fun u hu => (Disk.snapshot_captured hu).content) hb.1.1 hb.2))
    · rw [hstore]
      exact (hid.recorded hstored type _).deletePending (by simp) hid.row
    · rw [hstore]
      exact ChangeSetStore.get_save _ _

/-- **Crash atomicity of a mutation.** Wherever a crash finds a mutation, recovery succeeds,
removes its row and leaves exactly the records that the workspace calls for. -/
theorem mutation_crash_atomic (hstored : s₀.store.get c.id = some c) (hsound : s₀.blobs.Sound)
    (hroot : (s₀.disk.lstat []).map Entry.identity = some w.rootIdentity)
    (hquiet : recoveredRows w only s₀.store = []) (honly : ∀ i ∈ only, c.id = i)
    (hid : Identified s₀ c kind intended target identifier)
    (hp : target.relativePath.asPosix.length ≤ maxChangePath)
    (hm : RecoverableMutation s₀.disk intended target)
    (hu : u ∈ Proc.crashStates (applyFileMutation w c.id kind intended target identifier) s₀) :
    ∃ v trace, reconcilePending w only ⟨u, []⟩ = .ok () ⟨v, trace⟩ ∧
      MutationSettled s₀ u v c kind intended target identifier := by
  have hpoint : MutationPoint w s₀ c.id kind intended target identifier u := by
    rcases (applyFileMutation_spec w c.id kind intended target identifier hsound).crashStates
      rfl hu with rfl | hpoint
    · exact .quiet ⟨rfl, rfl, rfl, BlobStore.Extends.refl _, hsound⟩
    · exact hpoint
  obtain ⟨_, ⟨v, trace⟩, hrun, hv⟩ :=
    (hpoint.settled hstored hroot hquiet honly hid hp hm).returns rfl
  exact ⟨v, trace, hrun, hv⟩

end Points

section Tools

variable {d : Disk} {parent : DirectoryPin} {relative : RelativePath}

omit [ContentHash] in
private theorem clear_of_directory (hparent : d.IsDirectory relative.parent) :
    ∀ q, q <:+ relative.parent → d.outline q ≠ some false := by
  intro q hq ho
  have hbranch : d.outline q = some true := by
    by_cases he : q = relative.parent
    · rw [he]
      exact Disk.outline_eq_true.2 hparent
    · obtain ⟨e, hget, _⟩ := hparent
      exact Disk.outline_eq_true.2 (d.tree.isBranch_of_suffix hget hq he)
  rw [hbranch] at ho
  cases ho

omit [ContentHash] in
private theorem replaceMutation_recoverable {before : Option (NodeSnapshot × FileIdentity)}
    {content : Bytes} {mode : Option Nat} (hpath : parent.path = relative.parent)
    (hparent : d.IsDirectory relative.parent)
    (hbefore : before.map Prod.fst = d.snapshot relative.parts)
    (hcap : ∀ e, d.lstat relative.parts = some e → e.Capturable)
    (hsize : content.length ≤ maxChangesetBytes) :
    RecoverableMutation d (some ⟨.file, some content, mode⟩)
      (replaceMutation parent relative before content mode) := by
  have hord : OrdinaryMutation d (replaceMutation parent relative before content mode) :=
    replaceMutation_ordinary hpath hbefore hcap hsize
  have hparts : relative.name :: parent.path = relative.parts := by rw [hpath]; rfl
  refine ⟨hord, clear_of_directory hparent, ?_, fun d' h => ?_, fun fault d' h => Or.inl ?_⟩
  · rintro u hu
    cases hu
    simp [NodeSnapshot.Formed]
  · have hget := (atomicReplaceChild_lstat (replaceMutation_ok h)).2 relative.parts
    rw [if_pos hparts.symm] at hget
    refine ⟨hord.linkMode d' h, hord.elsewhere d' h, ?_, fun e he => ?_⟩
    · refine ⟨⟨.file, some content, some (mode.getD (d.creationMode 0o600))⟩, ?_, rfl, rfl, ?_⟩
      · simp [Disk.snapshot, replaceMutation, hget, Entry.snapshot?]
      · cases mode <;> simp
    · have he' : d'.lstat relative.parts = some e := he
      rw [hget] at he'
      cases he'
      exact ⟨rfl, hsize⟩
  · rw [diskMutation_error h]
    exact ⟨rfl, fun _ => rfl⟩

omit [ContentHash] in
private theorem deleteMutation_recoverable {identity : FileIdentity} {snapshot : NodeSnapshot}
    (hpath : parent.path = relative.parent) (hparent : d.IsDirectory relative.parent)
    (hbefore : some snapshot = d.snapshot relative.parts)
    (hcap : ∀ e, d.lstat relative.parts = some e → e.Capturable) :
    RecoverableMutation d none (deleteMutation parent relative identity snapshot) := by
  have hord : OrdinaryMutation d (deleteMutation parent relative identity snapshot) :=
    deleteMutation_ordinary hpath hbefore hcap
  have hparts : relative.name :: parent.path = relative.parts := by rw [hpath]; rfl
  refine ⟨hord, clear_of_directory hparent, ?_, fun d' h => ?_, fun fault d' h => Or.inl ?_⟩
  · rintro u hu
    cases hu
  · have hget := (removeChild_lstat (deleteMutation_ok h)).2 relative.parts
    rw [if_pos hparts.symm] at hget
    refine ⟨hord.linkMode d' h, hord.elsewhere d' h, ?_, fun e he => ?_⟩
    · simp [Meets, Disk.snapshot, deleteMutation, hget]
    · have he' : d'.lstat relative.parts = some e := he
      rw [hget] at he'
      cases he'
  · rw [diskMutation_error h]
    exact ⟨rfl, fun _ => rfl⟩

end Tools

end Recovery

section Sample

attribute [local instance] spelledHash

/-- The record of an earlier deletion of the sample file, without an identifier. -/
def legacyRecord : FileChange where
  mutationId := none
  path := ⟨"x", ["d"]⟩
  kind := .deleted
  nodeType := .file
  beforeNodeType := some .file
  afterNodeType := none
  beforeHash := some (ContentHash.sha256 [1])
  afterHash := none
  beforeBlob := some (ContentHash.sha256 [1])
  afterBlob := none
  beforeMode := some 0o644
  afterMode := none
  path_length := samplePath_length

/-- An open ChangeSet with the legacy record. -/
def legacyChangeSet : ChangeSet :=
  ⟨"changes", "workspace", .open, .full, [legacyRecord], [], 0, none⟩

/-- A service whose open ChangeSet has the legacy record. -/
def legacyState : ChangeState :=
  { sampleState with
    store := ⟨Table.empty.put legacyChangeSet, Table.empty⟩
    blobs := Dict.empty.set (ContentHash.sha256 [1]) [1] }

/-- A deletion that a crash interrupts is recovered from the state between the change of
the workspace and its record. -/
theorem mutation_crash_atomic_deletion :
    ∃ c u v trace, (Proc.final openedSample).store.get "changes" = some c ∧
      u.disk.lstat ["x", "d"] = none ∧ u.store.get "changes" = some c ∧
      reconcilePending sampleWorkspace none ⟨u, []⟩ = .ok () ⟨v, trace⟩ ∧
      MutationSettled (Proc.final openedSample) u v c .deleted none deleteFile "m1" := by
  obtain ⟨c, hc, hempty⟩ : ∃ c, (Proc.final openedSample).store.get "changes" = some c ∧
      c.files = [] := Option.map_eq_some_iff.mp (by decide)
  have hcid : c.id = "changes" := ChangeSetStore.id_of_get hc
  obtain ⟨u, hu, hgone⟩ : ∃ u ∈ Proc.crashStates (applyFileMutation sampleWorkspace "changes"
      .deleted none deleteFile "m1") (Proc.final openedSample),
      u.disk.lstat ["x", "d"] = none ∧
        (u.store.get "changes") = (Proc.final openedSample).store.get "changes" := by
    decide
  have hm : RecoverableMutation (Proc.final openedSample).disk none deleteFile :=
    deleteMutation_recoverable rfl (by decide) (by decide)
      (capturable_of_lstat (e := ⟨.file [1] 0o644 1, 1, 3⟩) (by decide) (by decide))
  have hid : Identified (Proc.final openedSample) c .deleted none deleteFile "m1" :=
    ⟨by decide, by simp [hempty], by simp [hempty]⟩
  obtain ⟨v, trace, hrun, hv⟩ := @mutation_crash_atomic _ sampleWorkspace none _ u _ _ _ _ _
    (hcid ▸ hc) (fun digest content hd => by cases hd) (by decide) (by decide)
    (by simp) hid (by decide) hm (hcid ▸ hu)
  exact ⟨c, u, v, trace, hc, hgone.1, hgone.2.trans hc, hrun, hv⟩

/-- A record without an identifier that agrees with the announced mutation makes recovery
refuse. -/
theorem mutation_not_crash_atomic :
    ¬∀ {_ : ContentHash} {w : WorkspaceIdentity} {only : Option String} {s₀ u : ChangeState}
      {c : ChangeSet} {kind : FileChangeKind} {intended : Option NodeSnapshot}
      {target : BoundFileMutation} {identifier : String},
      s₀.store.get c.id = some c → s₀.blobs.Sound →
      (s₀.disk.lstat []).map Entry.identity = some w.rootIdentity →
      recoveredRows w only s₀.store = [] → (∀ i ∈ only, c.id = i) →
      (∀ p ∈ s₀.store.pendings.rows, p.id ≠ .mutation identifier) →
      (∀ x ∈ c.files, x.mutationId ≠ some identifier) →
      target.relativePath.asPosix.length ≤ maxChangePath →
      RecoverableMutation s₀.disk intended target →
      u ∈ Proc.crashStates (applyFileMutation w c.id kind intended target identifier) s₀ →
      ∃ v trace, reconcilePending w only ⟨u, []⟩ = .ok () ⟨v, trace⟩ ∧
        MutationSettled s₀ u v c kind intended target identifier := by
  intro h
  have hsound : legacyState.blobs.Sound := by
    intro digest content hd
    rw [legacyState, Dict.get?_set] at hd
    split at hd
    · next he =>
      cases hd
      exact he.symm
    · cases hd
  obtain ⟨u, hu, hstuck⟩ : ∃ u ∈ Proc.crashStates (applyFileMutation sampleWorkspace "changes"
      .deleted none deleteFile "m1") legacyState,
      Proc.value (reconcilePending sampleWorkspace none ⟨u, []⟩) = none := by
    decide +kernel
  have hm : RecoverableMutation legacyState.disk none deleteFile :=
    deleteMutation_recoverable rfl (by decide) (by decide)
      (capturable_of_lstat (e := ⟨.file [1] 0o644 1, 1, 3⟩) (by decide) (by decide))
  obtain ⟨v, trace, hrun, _⟩ := @h _ sampleWorkspace none legacyState u legacyChangeSet .deleted
    none deleteFile "m1" (by decide) hsound (by decide) (by decide) (by simp) (by decide)
    (by decide) (by decide) hm hu
  rw [hrun] at hstuck
  cases hstuck

end Sample

end AwesomeAgent
