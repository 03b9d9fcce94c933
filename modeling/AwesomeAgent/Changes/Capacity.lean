import AwesomeAgent.Changes.DeleteTool
import AwesomeAgent.Changes.Scope
import AwesomeAgent.Changes.TableRules
import Mathlib.Algebra.BigOperators.Group.Finset.Basic
import Mathlib.Algebra.Order.BigOperators.Group.Finset

/-!
# Capacity of a ChangeSet

The bytes of a ChangeSet are those of the distinct contents that its records refer to. One
digest stands for one content, so they do not depend on the blobs that happen to be stored.
Every procedure that adds a record checks the capacity first, and a batch that was accepted
has room for each of its mutations.
-/

namespace AwesomeAgent

open ChangeJournal
open ChangeSetStore (StoredUnder)

/-- The digests a record refers to. -/
def FileChange.digests (change : FileChange) : List String :=
  change.beforeBlob.toList ++ change.afterBlob.toList

/-- The distinct contents that a mutation adds. -/
def additions (before intendedAfter : Option NodeSnapshot) : List Bytes :=
  ((before.bind (·.content)).toList ++ (intendedAfter.bind (·.content)).toList).dedup

/-- The bytes that a mutation adds. -/
def additionBytes (before intendedAfter : Option NodeSnapshot) : Nat :=
  ((additions before intendedAfter).map List.length).sum

section Contents

variable [ContentHash]

/-- Length of the content that has a digest. -/
noncomputable def digestLength (digest : String) : Nat :=
  (Function.invFun ContentHash.sha256 digest).length

/-- A digest tells the length of its content. -/
@[simp] theorem digestLength_sha256 (content : Bytes) :
    digestLength (ContentHash.sha256 content) = content.length :=
  congrArg List.length (Function.leftInverse_invFun ContentHash.sha256_injective content)

/-- Bytes of the distinct contents that a ChangeSet refers to. -/
noncomputable def ChangeSet.snapshotBytes (c : ChangeSet) : Nat :=
  ∑ digest ∈ (c.files.flatMap FileChange.digests).toFinset, digestLength digest

/-- A ChangeSet has room for so many records and bytes. -/
structure ChangeSet.Fits (c : ChangeSet) (nodes bytes : Nat) : Prop where
  files : c.files.length + nodes ≤ maxChangesetFiles
  bytes : c.snapshotBytes + bytes ≤ maxChangesetBytes

variable {b : BlobStore} {digest : String} {content : Bytes} {c : ChangeSet} {fault : Fault}
  {intendedAfter : Option NodeSnapshot} {change : FileChange}

private theorem digestLength_of_read
    (h : b.read digest = .ok content) : digestLength digest = content.length := by
  unfold BlobStore.read at h
  split at h
  · cases h
  · next stored _ =>
    split_ifs at h with hd
    cases h
    rw [← not_not.mp hd, digestLength_sha256]

private theorem sum_lengths_of_mapM (digests : List String) :
    ∀ contents, digests.mapM b.read = .ok contents →
      (contents.map List.length).sum = (digests.map digestLength).sum := by
  induction digests with
  | nil =>
    intro contents h
    cases h
    rfl
  | cons digest digests ih =>
    intro contents h
    rw [List.mapM_cons] at h
    obtain ⟨content, hread, h⟩ := except_bind_ok h
    obtain ⟨rest, hrest, h⟩ := except_bind_ok h
    cases h
    rw [List.map_cons, List.map_cons, List.sum_cons, List.sum_cons, ih rest hrest,
      digestLength_of_read hread]

/-- The measured bytes of a ChangeSet are those of its contents. -/
theorem storedBytes_eq {n : Nat} (h : storedBytes b c = .ok n) :
    n = c.snapshotBytes := by
  obtain ⟨contents, hread, h⟩ := except_bind_ok h
  cases h
  have hset : (c.files.flatMap FileChange.digests).toFinset =
      (c.files.flatMap FileChange.digests).dedup.toFinset := by
    ext digest
    simp
  rw [sum_lengths_of_mapM _ _ hread, ChangeSet.snapshotBytes, hset]
  exact (List.sum_toFinset digestLength (List.nodup_dedup _)).symm

/-- A fault that is not about capacity. -/
def Fault.Spares (fault : Fault) : Prop := ∀ message, fault ≠ .changeCapacityExceeded message

/-- A refusal for capacity. -/
def Fault.isCapacity : Fault → Bool
  | .changeCapacityExceeded _ => true
  | _ => false

omit [ContentHash] in
/-- A fault that is not about capacity spares it. -/
theorem Fault.spares_of (h : fault.isCapacity = false) : fault.Spares := by
  rintro message rfl
  cases h

/-- A blob that cannot be read is no fault of the capacity. -/
theorem read_spares (h : b.read digest = .error fault) : fault.Spares := by
  unfold BlobStore.read at h
  split at h
  · cases h
    exact fun _ => nofun
  · split_ifs at h
    cases h
    exact fun _ => nofun

private theorem storedBytes_spares (h : storedBytes b c = .error fault) : fault.Spares := by
  have hmap : ∀ digests : List String, digests.mapM b.read = .error fault → fault.Spares := by
    intro digests
    induction digests with
    | nil => exact nofun
    | cons digest digests ih =>
      intro h
      rw [List.mapM_cons] at h
      rcases except_bind_error h with h | ⟨content, -, h⟩
      · exact read_spares h
      · rcases except_bind_error h with h | ⟨rest, -, h⟩
        · exact ih h
        · cases h
  rcases except_bind_error h with h | ⟨contents, -, h⟩
  · exact hmap _ h
  · cases h

private theorem preflight_fits {before : Option NodeSnapshot}
    (h : preflight b c before intendedAfter = .ok ()) :
    c.Fits 1 (additionBytes before intendedAfter) := by
  unfold preflight at h
  split at h
  · cases h
  · next hfiles =>
    obtain ⟨n, hn, h⟩ := except_bind_ok h
    split at h
    · cases h
    · next hbytes =>
      rw [storedBytes_eq hn] at hbytes
      exact ⟨Nat.le_of_not_lt hfiles, Nat.le_of_not_lt hbytes⟩

/-- A mutation for which there is room is not refused for capacity. -/
theorem preflight_spares {before : Option NodeSnapshot}
    (hfits : c.Fits 1 (additionBytes before intendedAfter))
    (h : preflight b c before intendedAfter = .error fault) : fault.Spares := by
  unfold preflight at h
  rw [if_neg (Nat.not_lt_of_le hfits.files)] at h
  rcases except_bind_error h with h | ⟨n, hn, h⟩
  · exact storedBytes_spares h
  · rw [storedBytes_eq hn] at h
    split at h
    · next hbytes => exact absurd hbytes (Nat.not_lt_of_le hfits.bytes)
    · cases h

/-- The contents that a record brings into its ChangeSet are those of the mutation. -/
def FileChange.Adds (change : FileChange) (before intendedAfter : Option NodeSnapshot) : Prop :=
  ∀ digest ∈ change.digests, digestLength digest ≠ 0 →
    ∃ content ∈ additions before intendedAfter, ContentHash.sha256 content = digest

private theorem snapshotBytes_append {before : Option NodeSnapshot}
    (h : change.Adds before intendedAfter) :
    ({ c with files := c.files ++ [change] } : ChangeSet).snapshotBytes ≤
      c.snapshotBytes + additionBytes before intendedAfter := by
  have hnew : ∑ digest ∈ change.digests.toFinset, digestLength digest ≤
      additionBytes before intendedAfter := by
    have himage : ∑ digest ∈ change.digests.toFinset, digestLength digest ≤
        ∑ digest ∈ (additions before intendedAfter).toFinset.image ContentHash.sha256,
          digestLength digest := by
      refine Finset.sum_le_sum_of_ne_zero fun digest hd hne => ?_
      obtain ⟨content, hc, heq⟩ := h digest (List.mem_toFinset.mp hd) hne
      exact Finset.mem_image.mpr ⟨content, List.mem_toFinset.mpr hc, heq⟩
    rw [Finset.sum_image fun x _ y _ hxy => ContentHash.sha256_injective hxy] at himage
    simp only [digestLength_sha256] at himage
    exact himage.trans (List.sum_toFinset List.length (List.nodup_dedup _)).le
  unfold ChangeSet.snapshotBytes
  rw [List.flatMap_append, List.flatMap_singleton, List.toFinset_append]
  exact (Nat.le_add_right _ _).trans
    (Finset.sum_union_inter.le.trans (Nat.add_le_add_left hnew _))

omit [ContentHash] in
private theorem mem_additions {before : Option NodeSnapshot} :
    content ∈ additions before intendedAfter ↔
      before.bind (·.content) = some content ∨ intendedAfter.bind (·.content) = some content := by
  rw [additions, List.mem_dedup, List.mem_append, Option.mem_toList, Option.mem_toList]

private theorem mem_blobOf {u : Option NodeSnapshot} (h : blobOf u = some digest) :
    ∃ content, u.bind (·.content) = some content ∧ ContentHash.sha256 content = digest :=
  Option.map_eq_some_iff.mp h

private theorem content_of_digest {u v : Option NodeSnapshot}
    (h : snapshotDigest u = snapshotDigest v) (hu : u.bind (·.content) = some content)
    (hne : content.length ≠ 0) : v.bind (·.content) = some content := by
  obtain ⟨s, rfl, hs⟩ := Option.bind_eq_some_iff.mp hu
  cases v with
  | none => cases h
  | some t =>
    have hcontent : s.content.getD [] = t.content.getD [] :=
      ContentHash.sha256_injective (Option.some.inj h)
    rw [hs, Option.getD_some] at hcontent
    cases ht : t.content with
    | none =>
      rw [ht] at hcontent
      exact absurd (by rw [hcontent]; rfl) hne
    | some other =>
      rw [ht, Option.getD_some] at hcontent
      rw [Option.bind_some, ht, hcontent]

/-- The record of a mutation that did what was intended. -/
theorem adds_of_mutation {before after : Option NodeSnapshot}
    (hdigest : snapshotDigest after = snapshotDigest intendedAfter)
    (hbefore : change.beforeBlob = blobOf before) (hafter : change.afterBlob = blobOf after) :
    change.Adds before intendedAfter := by
  intro digest hd hne
  rw [FileChange.digests, List.mem_append, Option.mem_toList, Option.mem_toList, hbefore,
    hafter] at hd
  rcases hd with hd | hd
  · obtain ⟨content, hc, hsha⟩ := mem_blobOf hd
    exact ⟨content, mem_additions.2 (Or.inl hc), hsha⟩
  · obtain ⟨content, hc, rfl⟩ := mem_blobOf hd
    rw [digestLength_sha256] at hne
    exact ⟨content, mem_additions.2 (Or.inr (content_of_digest hdigest hc hne)), rfl⟩

/-- Fields of a row that announce a well-formed node. -/
def Announces (hash blob : Option String) (nodeType : Option FileNodeType)
    (u : Option NodeSnapshot) : Prop :=
  hash = snapshotDigest u ∧ blob = blobOf u ∧ nodeType = u.map (·.nodeType) ∧
    ∀ v ∈ u, v.Formed

/-- A row that announces two well-formed nodes. -/
structure PendingMutation.Announced (p : PendingMutation) : Prop where
  before : ∃ u, Announces p.beforeHash p.beforeBlob p.beforeNodeType u
  intended : ∃ u, Announces p.intendedAfterHash p.intendedAfterBlob p.intendedAfterNodeType u

private theorem recordedSnapshot_content {faults : RecordFaults}
    {hash blob : Option String} {mode : Option Nat} {nodeType : Option FileNodeType}
    {displayType : FileNodeType} {u v : Option NodeSnapshot}
    (ha : Announces hash blob nodeType u)
    (h : recordedSnapshot faults b hash blob mode
      (hash.bind fun _ => some (nodeType.getD displayType)) = .ok v)
    (hu : u.bind (·.content) = some content) : v.bind (·.content) = some content := by
  obtain ⟨rfl, rfl, rfl, hformed⟩ := ha
  obtain ⟨s, rfl, hs⟩ := Option.bind_eq_some_iff.mp hu
  rcases recordedSnapshot_eq h with ⟨hnone, -⟩ | ⟨digest, type, found, hdigest, htype, rfl, hfound⟩
  · cases hnone
  · cases hdigest
    cases htype
    rcases hfound with ⟨hdirectory, -⟩ | ⟨-, bytes, rfl, hsha⟩
    · rw [(hformed s rfl).mpr hdirectory] at hs
      cases hs
    · change ContentHash.sha256 bytes = ContentHash.sha256 (s.content.getD []) at hsha
      rw [hs] at hsha
      rw [Option.bind_some, ContentHash.sha256_injective hsha, Option.getD_some]

private theorem adds_of_pending {p : PendingMutation}
    {before current : Option NodeSnapshot} (hp : p.Announced)
    (hb : pendingSnapshot b p true = .ok before)
    (hi : pendingSnapshot b p false = .ok intendedAfter)
    (hdigest : snapshotDigest current = p.intendedAfterHash)
    (hbefore : change.beforeBlob = p.beforeBlob) (hafter : change.afterBlob = blobOf current) :
    change.Adds before intendedAfter := by
  intro digest hd hne
  rw [FileChange.digests, List.mem_append, Option.mem_toList, Option.mem_toList, hbefore,
    hafter] at hd
  rcases hd with hd | hd
  · obtain ⟨u, hu⟩ := hp.before
    rw [hu.2.1] at hd
    obtain ⟨content, hc, hsha⟩ := mem_blobOf hd
    exact ⟨content, mem_additions.2 (Or.inl (recordedSnapshot_content hu hb hc)), hsha⟩
  · obtain ⟨u, hu⟩ := hp.intended
    obtain ⟨content, hc, rfl⟩ := mem_blobOf hd
    rw [digestLength_sha256] at hne
    have hcontent := content_of_digest (hdigest.trans hu.1) hc hne
    exact ⟨content, mem_additions.2 (Or.inr (recordedSnapshot_content hu hi hcontent)), rfl⟩

/-- Every stored ChangeSet is within the limits, and the rows of mutations announce nodes. -/
structure ChangeSetStore.Bounded (t : ChangeSetStore) : Prop where
  stored : ∀ i c, t.get i = some c → c.Fits 0 0
  announced : ∀ p ∈ t.pendings.rows, ∀ identifier, p.id = .mutation identifier → p.Announced

namespace ChangeSetStore.Bounded

variable {t : ChangeSetStore}

private theorem save (h : t.Bounded) {c : ChangeSet} (hc : c.Fits 0 0) : (t.save c).Bounded where
  stored := fun i c' hc' => by
    rw [get_save_eq] at hc'
    split at hc'
    · cases hc'
      exact hc
    · exact h.stored i c' hc'
  announced := h.announced

private theorem savePending (h : t.Bounded) {p : PendingMutation}
    (hp : ∀ identifier, p.id = .mutation identifier → p.Announced) :
    (t.savePending p).Bounded where
  stored := h.stored
  announced := fun q hq => by
    rcases t.pendings.mem_put.1 hq with rfl | ⟨hq, -⟩
    · exact hp
    · exact h.announced q hq

private theorem rowless : ChangeSetStore.Rowless Bounded := fun _ _ h =>
  ⟨h.stored, fun p hp => h.announced p (List.mem_filter.mp hp).1⟩

private theorem of_stored {changeSetId : String} {c : ChangeSet}
    (h : StoredUnder Bounded changeSetId c) : c.Fits 0 0 :=
  h.elim fun _ ht => ht.1.stored _ _ ht.2

private theorem of_listed (h : t.Bounded) {p : PendingMutation} {identifier : String}
    (hp : p ∈ t.listPending) (hid : p.id = .mutation identifier) : p.Announced := by
  obtain ⟨row, hrow, c, -, rfl⟩ := ChangeSetStore.mem_listPending.1 hp
  have hannounced := h.announced row hrow identifier hid
  exact ⟨hannounced.before, hannounced.intended⟩

end ChangeSetStore.Bounded

/-- A ChangeSet with one more record that was checked is within the limits. -/
theorem fits_append {before : Option NodeSnapshot} {nodes bytes : Nat}
    (hadds : change.Adds before intendedAfter)
    (hfits : c.Fits (nodes + 1) (additionBytes before intendedAfter + bytes)) :
    ({ c with files := c.files ++ [change] } : ChangeSet).Fits nodes bytes := by
  have hfiles := hfits.files
  have hbytes := hfits.bytes
  have happend := snapshotBytes_append (c := c) hadds
  refine ⟨?_, by omega⟩
  change (c.files ++ [change]).length + nodes ≤ maxChangesetFiles
  rw [List.length_append, List.length_singleton]
  omega

/-- A mutation of a tool: the nodes it announces are well formed. -/
structure ToolMutation where
  kind : FileChangeKind
  intendedAfter : Option NodeSnapshot
  target : BoundFileMutation
  before_formed : ∀ u ∈ target.before, u.Formed
  intended_formed : ∀ u ∈ intendedAfter, u.Formed

section Procedures

variable {w : WorkspaceIdentity}

/-- A new change set keeps the bounds. -/
theorem begin_bounded (identifier : String) :
    Preserves ChangeSetStore.Bounded (begin w identifier) :=
  Preserves.bind Preserves.now fun _ _ =>
    Preserves.bind (Preserves.onStore fun _ ht => ht.save
      ⟨Nat.zero_le _, by simp [ChangeSet.snapshotBytes]⟩) fun _ _ => Preserves.pure trivial

/-- Sealing a change set keeps the bounds. -/
theorem sealChangeSet_bounded (changeSetId : String) :
    Preserves ChangeSetStore.Bounded (sealChangeSet w changeSetId) :=
  sealChangeSet_preserves changeSetId fun _ _ _ _ hc ht =>
    have hfits := ChangeSetStore.Bounded.of_stored hc
    ht.save ⟨hfits.files, hfits.bytes⟩

/-- The record of a command keeps the bounds. -/
theorem recordExecute_bounded (changeSetId command : String) (observedPaths : List String) :
    Preserves ChangeSetStore.Bounded (recordExecute w changeSetId command observedPaths) :=
  recordExecute_preserves changeSetId command observedPaths fun _ _ _ hc ht =>
    have hfits := ChangeSetStore.Bounded.of_stored hc
    ht.save ⟨hfits.files, hfits.bytes⟩

/-- An undo or redo keeps the bounds. -/
theorem operate_bounded (changeSetId : String) (undo : Bool) :
    Preserves ChangeSetStore.Bounded (ChangeOperations.operate w changeSetId undo) :=
  ChangeOperations.operate_preserves ChangeSetStore.Bounded.rowless changeSetId undo
    (fun _ p hp ht => ht.savePending fun identifier hid => by
      rw [ChangeOperations.IsOperationRow, hid] at hp
      cases hp)
    fun _ _ _ hc ht =>
      have hfits := ChangeSetStore.Bounded.of_stored hc
      ht.save ⟨hfits.files, hfits.bytes⟩

/-- A reconciliation keeps the bounds. -/
theorem reconcilePending_bounded (changeSetId : Option String) :
    Preserves ChangeSetStore.Bounded (reconcilePending w changeSetId) := by
  refine reconcilePending_preserves ChangeSetStore.Bounded.rowless changeSetId
    (fun t ht row hrow identifier hid c current _ hdigest => ?_) sealChangeSet_bounded
  refine recordPending_preserves ChangeSetStore.Bounded.rowless
    fun t' blobs before intendedAfter change r ht' hb hi hfits hbefore hafter => ht'.save ?_
  have hadds := adds_of_pending (ht.of_listed hrow hid) hb hi hdigest hbefore hafter
  have happended : ({ c with files := c.files ++ [change] } : ChangeSet).Fits 0 0 :=
    fits_append hadds (preflight_fits hfits)
  exact ⟨happended.files, happended.bytes⟩

/-- A mutation of a file keeps the bounds. -/
theorem applyFileMutation_bounded (changeSetId : String) (m : ToolMutation) (identifier : String) :
    Preserves ChangeSetStore.Bounded
      (applyFileMutation w changeSetId m.kind m.intendedAfter m.target identifier) := by
  refine (applyFileMutation_preserves ChangeSetStore.Bounded.rowless
    (openChangeSet_preserves changeSetId) (fun c t nodeType createdAt _ ht => ?_)
    fun c t blobs after change _ ht hfits hdigest hbefore hafter => ?_).post
    fun _ _ hs => ⟨hs, trivial⟩
  · exact ht.savePending fun _ _ => ⟨⟨_, rfl, rfl, rfl, m.before_formed⟩,
      _, rfl, rfl, rfl, m.intended_formed⟩
  · exact ht.save (fits_append (adds_of_mutation hdigest hbefore hafter) (preflight_fits hfits))

private theorem deleteNodes_bounded (changeSetId : String) (identifier : Nat → String)
    (nodes : List SecureDeleteNode)
    (hnodes : ∀ node ∈ nodes, WorkspaceDeleteTransaction.Listed node) : ∀ index,
    Preserves ChangeSetStore.Bounded (deleteNodes w changeSetId identifier index nodes) := by
  induction nodes with
  | nil => exact fun _ => Preserves.pure trivial
  | cons node rest ih =>
    intro index
    obtain ⟨parent, relative, nodeIdentity, snapshot, hformed, rfl⟩ :=
      hnodes node List.mem_cons_self
    refine Preserves.bind (applyFileMutation_bounded changeSetId
      ⟨.deleted, none, _, fun u hu => ?_, fun _ hu => nomatch hu⟩ _) fun _ _ =>
        ih (fun node hnode => hnodes node (List.mem_cons_of_mem _ hnode)) _
    cases hu
    exact hformed

/-- The delete tool keeps the bounds. -/
theorem deleteHandler_bounded (changeSetId : String) (t : WorkspaceDeleteTransaction)
    (denyProtected : RelativePath → Except Fault Unit) (casefold : String → String)
    (identifier : Nat → String) : Preserves ChangeSetStore.Bounded
      (deleteHandler w changeSetId t denyProtected casefold identifier) := by
  refine Preserves.mapFault (Preserves.bind (Q := fun nodes =>
    ∀ node ∈ nodes, WorkspaceDeleteTransaction.Listed node) (Preserves.reading fun s nodes _ hn =>
      WorkspaceDeleteTransaction.inventory_listed hn) fun nodes hnodes => ?_)
  refine Preserves.bind (Q := fun _ => True) (Preserves.mapFault ?_) fun _ _ =>
    Preserves.bind (deleteNodes_bounded changeSetId identifier nodes hnodes 0) fun _ _ =>
      Preserves.pure trivial
  refine Preserves.bind (openChangeSet_preserves changeSetId) fun c _ => ?_
  refine Preserves.bind (ensureNoPending_preserves _ _) fun _ _ => Preserves.guarded fun _ => ?_
  refine Preserves.bind (Preserves.reading fun _ _ _ _ => trivial) fun stored _ => ?_
  split
  · exact Preserves.throw
  · exact Preserves.pure trivial

end Procedures

end Contents

end AwesomeAgent
