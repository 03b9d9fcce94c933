import AwesomeAgent.Changes.StoreRules

/-!
# The phases of a recorded mutation

A mutation passes four durable points: its row is announced, the workspace is
changed, the record is saved and the row is deleted. Every state in which a crash
can find it is one of these points, up to blobs that were added.
-/

namespace AwesomeAgent

open ChangeJournal

variable [ContentHash]

/-- A service state with the given tables and workspace; blobs were only added. -/
structure Phase (s₀ : ChangeState) (store : ChangeSetStore) (d : Disk) (s : ChangeState) :
    Prop where
  store : s.store = store
  disk : s.disk = d
  clock : s.clock = s₀.clock
  blobs : s₀.blobs.Extends s.blobs
  sound : s.blobs.Sound

private theorem Phase.grows (s₀ : ChangeState) (store : ChangeSetStore) (d : Disk) :
    GrowsWithBlobs (Phase s₀ store d) where
  sound := fun _ h => h.sound
  grow := fun _ _ h he hs => ⟨h.store, h.disk, h.clock, h.blobs.trans he, hs⟩

variable {s₀ : ChangeState} {w : WorkspaceIdentity} {changeSetId : String} {C : ChangeState → Prop}
  {target : BoundFileMutation}

private theorem Phase.onStore {s : ChangeState} {store : ChangeSetStore} {d : Disk}
    (h : Phase s₀ store d s) (f : ChangeSetStore → ChangeSetStore) :
    Phase s₀ (f store) d { s with store := f s.store } :=
  ⟨congrArg f h.store, h.disk, h.clock, h.blobs, h.sound⟩

/-- The conditions under which a mutation is announced. -/
structure Accepted (w : WorkspaceIdentity) (s₀ : ChangeState) (changeSet : ChangeSet)
    (intended : Option NodeSnapshot) (target : BoundFileMutation) (nodeType : FileNodeType) :
    Prop where
  stored : ∃ changeSetId, s₀.store.get changeSetId = some changeSet ∧
    s₀.store.listPending.any (fun p => decide (p.changeSetId = changeSetId)) = false
  workspace : changeSet.workspaceKey = w.key
  opened : changeSet.lifecycle = .open
  type : (intended.map (·.nodeType)).or (target.before.map (·.nodeType)) = some nodeType
  capacity : preflight s₀.blobs changeSet target.before intended = .ok ()

/-- The row that announces a mutation. -/
def announcement (s₀ : ChangeState) (changeSet : ChangeSet) (kind : FileChangeKind)
    (intended : Option NodeSnapshot) (target : BoundFileMutation) (identifier : String)
    (nodeType : FileNodeType) : PendingMutation :=
  mutationPending changeSet identifier target.relativePath kind nodeType target.before intended
    (blobOf target.before) (blobOf intended) s₀.clock

/-- The outcome of a mutation agrees with its announcement. -/
def AsIntended (p : PendingMutation) (after : Option NodeSnapshot) : Prop :=
  snapshotMatchesRecord after p.intendedAfterHash p.intendedAfterMode
    (p.resolvedIntendedAfterNodeType.getD p.nodeType) = true

/-- The tables after the announcement. -/
def announcedStore (s₀ : ChangeState) (p : PendingMutation) : ChangeSetStore :=
  s₀.store.savePending p

/-- The tables after the record was saved. -/
def recordedStore (s₀ : ChangeState) (changeSet : ChangeSet) (p : PendingMutation)
    (change : FileChange) : ChangeSetStore :=
  (announcedStore s₀ p).save { changeSet with files := changeSet.files ++ [change] }

/-- Both announced contents are stored. -/
def HoldsBoth (intended : Option NodeSnapshot) (target : BoundFileMutation) (s : ChangeState) :
    Prop :=
  s.blobs.Holds target.before ∧ s.blobs.Holds intended

/-- The points at which a crash can find a mutation of `target`. -/
inductive MutationPoint (w : WorkspaceIdentity) (s₀ : ChangeState) (changeSetId : String)
    (kind : FileChangeKind) (intended : Option NodeSnapshot) (target : BoundFileMutation)
    (identifier : String) (s : ChangeState) : Prop
  | quiet (h : Phase s₀ s₀.store s₀.disk s)
  | announced {c : ChangeSet} {type : FileNodeType} (hc : s₀.store.get changeSetId = some c)
      (ha : Accepted w s₀ c intended target type) (hb : HoldsBoth intended target s)
      (h : Phase s₀ (announcedStore s₀ (announcement s₀ c kind intended target identifier type))
        s₀.disk s)
  | failed {c : ChangeSet} {type : FileNodeType} {fault : Fault} {d : Disk}
      (hc : s₀.store.get changeSetId = some c) (ha : Accepted w s₀ c intended target type)
      (hb : HoldsBoth intended target s) (hm : target.mutate s₀.disk = .error fault d)
      (h : Phase s₀ (announcedStore s₀ (announcement s₀ c kind intended target identifier type))
        d s)
  | withdrawn {c : ChangeSet} {type : FileNodeType} {message : String} {d : Disk}
      (hc : s₀.store.get changeSetId = some c) (ha : Accepted w s₀ c intended target type)
      (hm : target.mutate s₀.disk = .error (.mutationTargetChanged message) d)
      (h : Phase s₀ ((announcedStore s₀
        (announcement s₀ c kind intended target identifier type)).deletePending
          (.mutation identifier)) d s)
  | mutated {c : ChangeSet} {type : FileNodeType} {d : Disk}
      (hc : s₀.store.get changeSetId = some c) (ha : Accepted w s₀ c intended target type)
      (hb : HoldsBoth intended target s) (hm : target.mutate s₀.disk = .ok () d)
      (h : Phase s₀ (announcedStore s₀ (announcement s₀ c kind intended target identifier type))
        d s)
  | recorded {c : ChangeSet} {type : FileNodeType} {d : Disk} {after : Option NodeSnapshot}
      (hc : s₀.store.get changeSetId = some c) (ha : Accepted w s₀ c intended target type)
      (hm : target.mutate s₀.disk = .ok () d) (hafter : target.captureAfter d = .ok after)
      (hi : AsIntended (announcement s₀ c kind intended target identifier type) after)
      (hp : target.relativePath.asPosix.length ≤ maxChangePath)
      (hb : HoldsBoth intended target s ∧ s.blobs.Holds after)
      (h : Phase s₀ (recordedStore s₀ c (announcement s₀ c kind intended target identifier type)
        (recordOf (announcement s₀ c kind intended target identifier type) identifier after
          (blobOf after) hp)) d s)
  | done {c : ChangeSet} {type : FileNodeType} {d : Disk} {after : Option NodeSnapshot}
      (hc : s₀.store.get changeSetId = some c) (ha : Accepted w s₀ c intended target type)
      (hm : target.mutate s₀.disk = .ok () d) (hafter : target.captureAfter d = .ok after)
      (hi : AsIntended (announcement s₀ c kind intended target identifier type) after)
      (hp : target.relativePath.asPosix.length ≤ maxChangePath)
      (hb : HoldsBoth intended target s ∧ s.blobs.Holds after)
      (h : Phase s₀ ((recordedStore s₀ c
        (announcement s₀ c kind intended target identifier type)
        (recordOf (announcement s₀ c kind intended target identifier type) identifier after
          (blobOf after) hp)).deletePending (.mutation identifier)) d s)

/-- What a completed mutation left behind. -/
structure MutationDone (w : WorkspaceIdentity) (s₀ : ChangeState) (changeSetId : String)
    (kind : FileChangeKind) (intended : Option NodeSnapshot) (target : BoundFileMutation)
    (identifier : String) (change : FileChange) (s : ChangeState) : Prop where
  outcome : ∃ (c : ChangeSet) (type : FileNodeType) (d : Disk) (after : Option NodeSnapshot)
    (hp : target.relativePath.asPosix.length ≤ maxChangePath),
    s₀.store.get changeSetId = some c ∧ Accepted w s₀ c intended target type ∧
    target.mutate s₀.disk = .ok () d ∧ target.captureAfter d = .ok after ∧
    AsIntended (announcement s₀ c kind intended target identifier type) after ∧
    change = recordOf (announcement s₀ c kind intended target identifier type) identifier after
      (blobOf after) hp ∧
    (HoldsBoth intended target s ∧ s.blobs.Holds after) ∧
    Phase s₀ ((recordedStore s₀ c (announcement s₀ c kind intended target identifier type)
      change).deletePending (.mutation identifier)) d s

omit [ContentHash] in
private theorem openChangeSet_spec :
    Triple (fun s => s = s₀) (openChangeSet w changeSetId)
      (fun c s => s = s₀ ∧ s₀.store.get changeSetId = some c ∧ c.workspaceKey = w.key ∧
        c.lifecycle = .open) (fun _ _ => True) C := by
  refine Triple.bind (R := fun c s => s = s₀ ∧ s₀.store.get changeSetId = some c ∧
    c.workspaceKey = w.key) ?_ fun c => ?_
  · refine Triple.reading ?_ fun _ _ _ _ => trivial
    rintro s c rfl hc
    cases hg : s.store.get changeSetId with
    | none => simp [hg] at hc
    | some c' =>
      by_cases hw : c'.workspaceKey = w.key
      · simp only [hg, hw, ne_eq, not_true_eq_false, if_false, Except.ok.injEq] at hc
        subst hc
        exact ⟨rfl, rfl, hw⟩
      · simp [hg, hw] at hc
  · by_cases hl : c.lifecycle = .open
    · simp only [hl, ne_eq, not_true_eq_false, if_false]
      exact Triple.pure fun s ⟨hs, hg, hw⟩ => ⟨hs, hg, hw, hl⟩
    · simp only [hl, ne_eq, not_false_eq_true, if_true]
      exact Triple.bind (R := fun _ _ => False) (Triple.throw fun _ _ => trivial)
        fun _ _ hs => hs.elim

omit [ContentHash] in
private theorem accept_spec {message : String} (c : ChangeSet) :
    Triple (fun s => s = s₀ ∧ s₀.store.get changeSetId = some c ∧ c.workspaceKey = w.key ∧
        c.lifecycle = .open) (ensureNoPending changeSetId message)
      (fun _ s => s = s₀ ∧ s₀.store.get changeSetId = some c ∧ c.workspaceKey = w.key ∧
        c.lifecycle = .open ∧
        s₀.store.listPending.any (fun p => decide (p.changeSetId = changeSetId)) = false)
      (fun _ _ => True) C := by
  refine Triple.reading ?_ fun _ _ _ _ => trivial
  rintro s _ ⟨rfl, hc⟩ hp
  cases hany : s.store.listPending.any (fun p => decide (p.changeSetId = changeSetId)) with
  | true => simp [hany] at hp
  | false => exact ⟨rfl, hc.1, hc.2.1, hc.2.2, rfl⟩

private theorem runMutation_spec (store : ChangeSetStore) {I : BlobStore → Prop}
    (hok : ∀ s d, target.mutate s₀.disk = .ok () d → I s.blobs → Phase s₀ store d s → C s)
    (herr : ∀ s fault d, target.mutate s₀.disk = .error fault d → I s.blobs →
      Phase s₀ store d s → C s) {E : Fault → ChangeState → Prop} :
    Triple (fun s => I s.blobs ∧ Phase s₀ store s₀.disk s)
      (Proc.attempt (Proc.durable (runMutation target)))
      (fun r s => I s.blobs ∧ ∃ d, Phase s₀ store d s ∧
        ((r = .ok () ∧ target.mutate s₀.disk = .ok () d) ∨
          ∃ fault, r = .error fault ∧ target.mutate s₀.disk = .error fault d)) E C := by
  refine Triple.attempt ((Triple.durable (Q := fun _ s => I s.blobs ∧ ∃ d, Phase s₀ store d s ∧
      target.mutate s₀.disk = .ok () d) (E := fun fault s => I s.blobs ∧ ∃ d, Phase s₀ store d s ∧
      target.mutate s₀.disk = .error fault d) ?_ ?_ ?_).conseq (fun _ h => h) ?_ ?_ fun _ h => h)
  · rintro s ⟨hI, hs⟩
    cases hm : target.mutate s.disk with
    | ok u d =>
      simp only [runMutation, hm, settles_ok]
      exact ⟨hI, d, ⟨hs.store, rfl, hs.clock, hs.blobs, hs.sound⟩, hs.disk ▸ hm⟩
    | error fault d =>
      simp only [runMutation, hm, settles_error]
      exact ⟨hI, d, ⟨hs.store, rfl, hs.clock, hs.blobs, hs.sound⟩, hs.disk ▸ hm⟩
  · rintro _ s ⟨hI, d, hs, hm⟩
    exact hok s d hm hI hs
  · rintro fault s ⟨hI, d, hs, hm⟩
    exact herr s fault d hm hI hs
  · rintro _ s ⟨hI, d, hs, hm⟩
    exact ⟨hI, d, hs, Or.inl ⟨rfl, hm⟩⟩
  · rintro fault s ⟨hI, d, hs, hm⟩
    exact ⟨hI, d, hs, Or.inr ⟨fault, rfl, hm⟩⟩

/-- The recording half of a mutation: the record is saved and its row is deleted. -/
private theorem record_spec {kind : FileChangeKind} {intended after : Option NodeSnapshot}
    {identifier : String} {c : ChangeSet} {type : FileNodeType} {d : Disk}
    {p : PendingMutation} (hpending : p = announcement s₀ c kind intended target identifier type)
    (hc : s₀.store.get changeSetId = some c) (ha : Accepted w s₀ c intended target type)
    (hm : target.mutate s₀.disk = .ok () d) (hafter : target.captureAfter d = .ok after)
    (hi : AsIntended p after) :
    Triple (fun s => HoldsBoth intended target s ∧ Phase s₀ (announcedStore s₀ p) d s)
      (do
        let change ← fileChange p identifier after
        onStore fun s => s.save { c with files := c.files ++ [change] }
        onStore fun s => s.deletePending p.id
        return change)
      (MutationDone w s₀ changeSetId kind intended target identifier) (fun _ _ => True)
      (MutationPoint w s₀ changeSetId kind intended target identifier) := by
  subst hpending
  set p := announcement s₀ c kind intended target identifier type with hpdef
  have hgrows : GrowsWithBlobs fun s => HoldsBoth intended target s ∧
      Phase s₀ (announcedStore s₀ p) d s :=
    ⟨fun s hs => hs.2.sound, fun s b hs he hb =>
      ⟨⟨hs.1.1.mono he, hs.1.2.mono he⟩, (Phase.grows s₀ _ d).grow s b hs.2 he hb⟩⟩
  refine Triple.bind (R := fun change s =>
    ∃ hp : target.relativePath.asPosix.length ≤ maxChangePath,
    change = recordOf p identifier after (blobOf after) hp ∧
    (HoldsBoth intended target s ∧ s.blobs.Holds after) ∧ Phase s₀ (announcedStore s₀ p) d s)
    ?_ fun change => ?_
  · refine Triple.bind (putContent_spec hgrows
      (fun s hs => .mutated hc ha hs.1 hm hs.2) after) fun blob => ?_
    by_cases hp : p.relativePath.asPosix.length ≤ maxChangePath
    · simp only [hp, dite_true]
      exact Triple.pure fun s ⟨hs, hb, hblob⟩ => ⟨hp, by rw [hblob], ⟨hs.1, hb⟩, hs.2⟩
    · simp only [hp, dite_false]
      exact Triple.throw fun _ _ => trivial
  refine Triple.assume (fun _ ⟨hp, hch, _⟩ => (⟨hp, hch⟩ : ∃ hp, change = _)) ?_
  rintro ⟨hp, rfl⟩
  let change := recordOf p identifier after (blobOf after) hp
  refine Triple.bind (R := fun _ s => (HoldsBoth intended target s ∧ s.blobs.Holds after) ∧
    Phase s₀ (recordedStore s₀ c p change) d s) (Triple.onStore ?_ ?_) fun _ => ?_
  · rintro s ⟨_, _, hb, hs⟩
    exact ⟨hb, hs.onStore fun st => st.save { c with files := c.files ++ [change] }⟩
  · rintro s ⟨hb, hs⟩
    exact .recorded hc ha hm hafter hi hp hb hs
  refine Triple.bind (R := fun _ s => (HoldsBoth intended target s ∧ s.blobs.Holds after) ∧
    Phase s₀ ((recordedStore s₀ c p change).deletePending (.mutation identifier)) d s)
    (Triple.onStore ?_ ?_) fun _ => ?_
  · rintro s ⟨hb, hs⟩
    exact ⟨hb, hs.onStore fun st => st.deletePending (.mutation identifier)⟩
  · rintro s ⟨hb, hs⟩
    exact .done hc ha hm hafter hi hp hb hs
  · exact Triple.pure fun s ⟨hb, hs⟩ =>
      ⟨c, type, d, after, hp, hc, ha, hm, hafter, hi, rfl, hb, hs⟩

/-- A mutation completes or raises, and a crash finds it at one of its points. -/
theorem applyFileMutation_spec (w : WorkspaceIdentity) (changeSetId : String)
    (kind : FileChangeKind) (intended : Option NodeSnapshot) (target : BoundFileMutation)
    (identifier : String) (hsound : s₀.blobs.Sound) :
    Triple (fun s => s = s₀) (applyFileMutation w changeSetId kind intended target identifier)
      (MutationDone w s₀ changeSetId kind intended target identifier) (fun _ _ => True)
      (MutationPoint w s₀ changeSetId kind intended target identifier) := by
  refine Triple.bind openChangeSet_spec fun c => ?_
  refine Triple.bind (accept_spec c) fun _ => ?_
  cases htype : (intended.map (·.nodeType)).or (target.before.map (·.nodeType)) with
  | none => exact Triple.throw fun _ _ => trivial
  | some type =>
    have hquiet : ∀ s, Phase s₀ s₀.store s₀.disk s →
        MutationPoint w s₀ changeSetId kind intended target identifier s := fun s => .quiet
    refine Triple.bind (R := fun _ s => s = s₀ ∧ s₀.store.get changeSetId = some c ∧
      Accepted w s₀ c intended target type) (Triple.reading ?_ fun _ _ _ _ => trivial) fun _ => ?_
    · rintro s _ ⟨rfl, hc, hw, hl, hp⟩ hcap
      exact ⟨rfl, hc, ⟨changeSetId, hc, hp⟩, hw, hl, htype, hcap⟩
    refine Triple.assume (fun _ hs => hs.2) fun ⟨hc, ha⟩ => ?_
    refine Triple.bind ((putContent_spec (Phase.grows s₀ s₀.store s₀.disk) hquiet
      target.before).pre ?_) fun beforeBlob => ?_
    · rintro s ⟨rfl, _⟩
      exact ⟨rfl, rfl, rfl, BlobStore.Extends.refl _, hsound⟩
    refine Triple.assume (fun _ hs => hs.2.2) ?_
    rintro rfl
    have hgrows : GrowsWithBlobs fun s => s.blobs.Holds target.before ∧
        Phase s₀ s₀.store s₀.disk s :=
      ⟨fun s hs => hs.2.sound, fun s b hs he hb =>
        ⟨hs.1.mono he, (Phase.grows s₀ _ _).grow s b hs.2 he hb⟩⟩
    refine Triple.bind ((putContent_spec hgrows (fun s hs => hquiet s hs.2) intended).pre
      fun s hs => ⟨hs.2.1, hs.1⟩) fun intendedBlob => ?_
    refine Triple.assume (fun _ hs => hs.2.2) ?_
    rintro rfl
    refine Triple.bind (R := fun t s => t = s₀.clock ∧ HoldsBoth intended target s ∧
      Phase s₀ s₀.store s₀.disk s) (Triple.now ?_) fun createdAt => ?_
    · rintro s ⟨⟨hb, hs⟩, hi, _⟩
      exact ⟨hs.clock, ⟨hb, hi⟩, hs⟩
    refine Triple.assume (fun _ hs => hs.1) ?_
    rintro rfl
    let p := announcement s₀ c kind intended target identifier type
    refine Triple.bind (R := fun _ s => HoldsBoth intended target s ∧
      Phase s₀ (announcedStore s₀ p) s₀.disk s) (Triple.onStore ?_ ?_) fun _ => ?_
    · rintro s ⟨_, hb, hs⟩
      exact ⟨hb, hs.onStore fun st => st.savePending p⟩
    · rintro s ⟨hb, hs⟩
      exact .announced hc ha hb hs
    refine Triple.bind (runMutation_spec (announcedStore s₀ p)
      (I := fun b => b.Holds target.before ∧ b.Holds intended) ?_ ?_) fun r => ?_
    · exact fun s d hm hb hs => .mutated hc ha hb hm hs
    · exact fun s fault d hm hb hs => .failed hc ha hb hm hs
    cases r with
    | ok u =>
      refine Triple.assume (F := ∃ d, target.mutate s₀.disk = .ok () d) ?_ fun ⟨d, hm⟩ => ?_
      · rintro s ⟨_, d, _, ⟨_, hm⟩ | ⟨fault, hr, _⟩⟩
        · exact ⟨d, hm⟩
        · cases hr
      refine Triple.bind (R := fun after s => target.captureAfter d = .ok after ∧
        HoldsBoth intended target s ∧ Phase s₀ (announcedStore s₀ p) d s)
        (Triple.reading ?_ fun _ _ _ _ => trivial) fun after => ?_
      · rintro s after ⟨hb, d', hs, ⟨_, hm'⟩ | ⟨fault, hr, _⟩⟩ hafter
        · rw [hm] at hm'
          cases hm'
          exact ⟨hs.disk ▸ hafter, hb, hs⟩
        · cases hr
      refine Triple.assume (fun _ hs => hs.1) fun hafter => ?_
      dsimp only
      split
      · exact Triple.bind (R := fun _ _ => False) (Triple.throw fun _ _ => trivial)
          fun _ _ hs => hs.elim
      · next hmatch =>
        exact (record_spec (p := p) rfl hc ha hm hafter
          (Bool.eq_true_of_not_eq_false hmatch)).pre fun s hs => hs.2
    | error fault =>
      refine Triple.assume (F := ∃ d, target.mutate s₀.disk = .error fault d) ?_ fun ⟨d, hm⟩ => ?_
      · rintro s ⟨_, d, _, ⟨hr, _⟩ | ⟨_, hr, hm⟩⟩
        · cases hr
        · cases hr
          exact ⟨d, hm⟩
      cases fault
      case mutationTargetChanged message =>
        refine Triple.bind (R := fun _ s => Phase s₀ ((announcedStore s₀ p).deletePending
          (.mutation identifier)) d s) (Triple.onStore ?_ ?_) fun _ =>
            Triple.throw fun _ _ => trivial
        · rintro s ⟨_, d', hs, ⟨hr, _⟩ | ⟨_, hr, hm'⟩⟩
          · cases hr
          · cases hr
            rw [hm] at hm'
            cases hm'
            exact hs.onStore fun st => st.deletePending (.mutation identifier)
        · exact fun s hs => .withdrawn hc ha hm hs
      all_goals exact Triple.throw fun _ _ => trivial

end AwesomeAgent
