import AwesomeAgent.Changes.Journal

/-!
# Rules for the steps of a change service

How the reading, storing and blob steps of a service act on its state. Blobs only
ever grow, so a recorded snapshot stays readable.
-/

namespace AwesomeAgent

/-- Blobs of the first store are blobs of the second. -/
def BlobStore.Extends (b b' : BlobStore) : Prop :=
  ∀ digest content, b.get? digest = some content → b'.get? digest = some content

/-- A blob store extends itself. -/
theorem BlobStore.Extends.refl (b : BlobStore) : b.Extends b := fun _ _ h => h

/-- Blob stores extend one another. -/
theorem BlobStore.Extends.trans {b b' b'' : BlobStore} (h : b.Extends b') (h' : b'.Extends b'') :
    b.Extends b'' :=
  fun digest content hc => h' digest content (h digest content hc)

namespace Triple

variable {α : Type} {P : ChangeState → Prop} {Q : α → ChangeState → Prop}
  {E : Fault → ChangeState → Prop} {C : ChangeState → Prop}

/-- A reading leaves the state. -/
theorem reading {f : ChangeState → Except Fault α} (hok : ∀ s a, P s → f s = .ok a → Q a s)
    (herr : ∀ s fault, P s → f s = .error fault → E fault s) :
    Triple P (AwesomeAgent.reading f) Q E C := by
  refine Triple.volatile fun s hs => ?_
  cases hf : f s with
  | ok a => simpa [hf] using hok s a hs hf
  | error fault => simpa [hf] using herr s fault hs hf

/-- A result that is known leaves the state. -/
theorem liftExcept {r : Except Fault α} (hok : ∀ s a, P s → r = .ok a → Q a s)
    (herr : ∀ s fault, P s → r = .error fault → E fault s) :
    Triple P (AwesomeAgent.liftExcept r) Q E C :=
  reading hok herr

/-- A write changes the store alone. -/
theorem onStore {Q : ChangeState → Prop} {f : ChangeSetStore → ChangeSetStore}
    (hQ : ∀ s, P s → Q { s with store := f s.store }) (hC : ∀ s, Q s → C s) :
    Triple P (AwesomeAgent.onStore f) (fun _ => Q) E C := by
  have hstep : Hoare P (modify fun s : ChangeState => { s with store := f s.store } :
      EStateM Fault ChangeState PUnit) (fun _ => Q) (fun _ _ => False) :=
    fun s hs => hQ s hs
  exact (Triple.durable hstep (fun _ => hC) (fun _ _ h => h.elim)).conseq (fun _ h => h)
    (fun _ _ h => h) (fun _ _ h => h.elim) (fun _ h => h)

/-- The clock leaves the state. -/
theorem now {Q : Nat → ChangeState → Prop} (h : ∀ s, P s → Q s.clock s) :
    Triple P AwesomeAgent.now Q E C :=
  reading (fun s a hs ha => by cases ha; exact h s hs) (fun s fault _ hf => by cases hf)

/-- A new identifier is taken from the supply. -/
theorem newIdentifier {Q : Nat → ChangeState → Prop}
    (h : ∀ s, P s → Q s.supply { s with supply := s.supply + 1 }) :
    Triple P AwesomeAgent.newIdentifier Q E C :=
  Triple.volatile fun s hs => h s hs

end Triple

/-- A tree step inside a service state. -/
theorem Hoare.onTree {α : Type} {x : TreeM α} {P : ChangeState → Prop}
    {Q : α → ChangeState → Prop} {E : Fault → ChangeState → Prop}
    (h : ∀ s, P s → Settles (fun a t => Q a { s with tree := t })
      (fun fault t => E fault { s with tree := t }) (x s.tree)) :
    Hoare P (onTree x) Q E := by
  intro s hs
  have hx := h s hs
  cases hr : x s.tree with
  | ok a t =>
      rw [hr] at hx
      simpa [AwesomeAgent.onTree, hr] using hx
  | error fault t =>
      rw [hr] at hx
      simpa [AwesomeAgent.onTree, hr] using hx

section Contents

variable [ContentHash]

/-- Every blob is stored under its own digest. -/
def BlobStore.Sound (b : BlobStore) : Prop :=
  ∀ digest content, b.get? digest = some content → ContentHash.sha256 content = digest

variable {b : BlobStore} {content : Bytes} {digest : String} {faults : RecordFaults}
  {blob : Option String} {nodeType : Option FileNodeType} {u : Option NodeSnapshot}

private theorem BlobStore.read_of_get? (h : b.get? (ContentHash.sha256 content) = some content) :
    b.read (ContentHash.sha256 content) = .ok content := by
  simp [BlobStore.read, h]

/-- The content of a node is stored under its digest. -/
def BlobStore.Holds (b : BlobStore) (snapshot : Option NodeSnapshot) : Prop :=
  ∀ content, snapshot.bind (·.content) = some content →
    b.get? (ContentHash.sha256 content) = some content

/-- A larger blob store holds what a smaller one does. -/
theorem BlobStore.Holds.mono {b' : BlobStore} {snapshot : Option NodeSnapshot}
    (h : b.Holds snapshot) (he : b.Extends b') : b'.Holds snapshot :=
  fun content hc => he _ _ (h content hc)

/-- The digest under which the content of a node is stored. -/
def blobOf (snapshot : Option NodeSnapshot) : Option String :=
  (snapshot.bind (·.content)).map ContentHash.sha256

/-- A larger blob store reads what a smaller one does. -/
theorem BlobStore.read_mono {b' : BlobStore}
    (he : b.Extends b') (h : b.read digest = .ok content) : b'.read digest = .ok content := by
  cases hg : b.get? digest with
  | none => simp [BlobStore.read, hg] at h
  | some c =>
    by_cases hc : ContentHash.sha256 c = digest
    · simp only [BlobStore.read, hg, ne_eq, hc, not_true_eq_false, if_false] at h
      simp [BlobStore.read, he _ _ hg, hc, h]
    · simp [BlobStore.read, hg, hc] at h

private theorem recordedContent_mono {b' : BlobStore} (he : b.Extends b')
    (h : recordedContent faults b digest blob = .ok content) :
    recordedContent faults b' digest blob = .ok content := by
  cases blob with
  | none => cases h
  | some blob =>
    cases hr : b.read blob with
    | error fault => simp [recordedContent, hr] at h
    | ok c =>
      simp only [recordedContent, hr] at h
      simp only [recordedContent, BlobStore.read_mono he hr]
      exact h

/-- A recorded snapshot stays what it is in a larger blob store. -/
theorem recordedSnapshot_mono {b' : BlobStore} {digest : Option String} {mode : Option Nat}
    (he : b.Extends b')
    (h : recordedSnapshot faults b digest blob mode nodeType = .ok u) :
    recordedSnapshot faults b' digest blob mode nodeType = .ok u := by
  have hleaf : ∀ d (f : Bytes → Option NodeSnapshot),
      (recordedContent faults b d blob).map f = .ok u →
      (recordedContent faults b' d blob).map f = .ok u := by
    intro d f hd
    cases hr : recordedContent faults b d blob with
    | error fault => simp [hr, Except.map] at hd
    | ok content =>
      rw [recordedContent_mono he hr, ← hr]
      exact hd
  cases digest with
  | none => exact h
  | some digest =>
    cases nodeType with
    | none => exact h
    | some type =>
      cases type with
      | directory => exact h
      | file => exact hleaf digest _ h
      | symlink => exact hleaf digest _ h

private theorem recordedContent_digest (h : recordedContent faults b digest blob = .ok content) :
    ContentHash.sha256 content = digest := by
  cases blob with
  | none => cases h
  | some blob =>
    cases hr : b.read blob with
    | error fault => simp [recordedContent, hr] at h
    | ok c =>
      by_cases hc : ContentHash.sha256 c = digest
      · simp only [recordedContent, hr, hc, ne_eq, not_true_eq_false, if_false,
          Except.ok.injEq] at h
        exact h ▸ hc
      · simp [recordedContent, hr, hc] at h

/-- A rebuilt node has the recorded type, mode and digest. -/
theorem recordedSnapshot_eq {digest : Option String} {mode : Option Nat}
    (h : recordedSnapshot faults b digest blob mode nodeType = .ok u) :
    digest = none ∧ u = none ∨
      ∃ d type content, digest = some d ∧ nodeType = some type ∧
        u = some ⟨type, content, mode⟩ ∧
        (type = .directory ∧ content = none ∨
          type ≠ .directory ∧ ∃ bytes, content = some bytes ∧ ContentHash.sha256 bytes = d) := by
  cases digest with
  | none =>
    cases h
    exact Or.inl ⟨rfl, rfl⟩
  | some d =>
    refine Or.inr ?_
    have hleaf : ∀ type, type ≠ .directory →
        (recordedContent faults b d blob).map (fun content =>
          some (⟨type, some content, mode⟩ : NodeSnapshot)) = .ok u →
        ∃ bytes, u = some ⟨type, some bytes, mode⟩ ∧ ContentHash.sha256 bytes = d := by
      intro type _ hu
      cases hr : recordedContent faults b d blob with
      | error fault => simp [hr, Except.map] at hu
      | ok bytes =>
        simp only [hr, Except.map, Except.ok.injEq] at hu
        exact ⟨bytes, hu.symm, recordedContent_digest hr⟩
    cases nodeType with
    | none => cases h
    | some type =>
      cases type with
      | directory =>
        cases h
        exact ⟨d, .directory, none, rfl, rfl, rfl, Or.inl ⟨rfl, rfl⟩⟩
      | file =>
        obtain ⟨bytes, hu, hd⟩ := hleaf .file (by simp) h
        exact ⟨d, .file, some bytes, rfl, rfl, hu, Or.inr ⟨by simp, bytes, rfl, hd⟩⟩
      | symlink =>
        obtain ⟨bytes, hu, hd⟩ := hleaf .symlink (by simp) h
        exact ⟨d, .symlink, some bytes, rfl, rfl, hu, Or.inr ⟨by simp, bytes, rfl, hd⟩⟩

/-- A well-formed snapshot is rebuilt from the fields that record it. -/
theorem recordedSnapshot_of_formed (faults : RecordFaults)
    (hu : ∀ v, u = some v → v.Formed) (hb : b.Holds u) :
    recordedSnapshot faults b (snapshotDigest u) (blobOf u) (u.bind (·.mode))
      (u.map (·.nodeType)) = .ok u := by
  cases u with
  | none => rfl
  | some v =>
    have hc := hu v rfl
    obtain ⟨type, content, mode⟩ := v
    cases content with
    | none =>
      have : type = .directory := hc.mp rfl
      subst this
      rfl
    | some bytes =>
      have hget := hb bytes rfl
      have hne : type ≠ .directory := fun ht => absurd (hc.mpr ht) (by simp)
      cases type with
      | directory => exact absurd rfl hne
      | file =>
        simp [recordedSnapshot, recordedContent, snapshotDigest, blobOf,
          BlobStore.read_of_get? hget, Except.map]
      | symlink =>
        simp [recordedSnapshot, recordedContent, snapshotDigest, blobOf,
          BlobStore.read_of_get? hget, Except.map]

/-- A property that survives the growth of the blob store. -/
structure GrowsWithBlobs (I : ChangeState → Prop) : Prop where
  sound : ∀ s, I s → s.blobs.Sound
  grow : ∀ s b, I s → s.blobs.Extends b → b.Sound → I { s with blobs := b }

/-- Storing the content of a node keeps such a property. -/
theorem putContent_spec {I C : ChangeState → Prop} (hI : GrowsWithBlobs I)
    (hC : ∀ s, I s → C s) {E : Fault → ChangeState → Prop} (u : Option NodeSnapshot) :
    Triple I (putContent u) (fun r s => I s ∧ s.blobs.Holds u ∧ r = blobOf u) E C := by
  cases hu : u.bind (·.content) with
  | none =>
    simp only [putContent, hu]
    refine Triple.pure fun s hs => ⟨hs, fun content hc => ?_, by simp [blobOf, hu]⟩
    rw [hu] at hc
    cases hc
  | some content =>
    simp only [putContent, hu]
    refine Triple.bind (R := fun r s => I s ∧ s.blobs.Holds u ∧
      r = ContentHash.sha256 content) ?_ ?_
    · refine (Triple.durable (E := fun _ _ => False) (Q := fun r s => I s ∧ s.blobs.Holds u ∧
        r = ContentHash.sha256 content) ?_ (fun _ s h => hC s h.1)
        (fun _ _ h => h.elim)).conseq (fun _ h => h) (fun _ _ h => h) (fun _ _ h => h.elim)
        (fun _ h => h)
      intro s hs
      cases hg : s.blobs.get? (ContentHash.sha256 content) with
      | some old =>
        have hold : old = content :=
          ContentHash.sha256_injective (hI.sound s hs _ _ hg)
        subst hold
        have hread := BlobStore.read_of_get? hg
        simp only [putBlob, hg, hread, Settles]
        refine ⟨hs, fun c hc => ?_, trivial⟩
        rw [hu] at hc
        cases hc
        exact hg
      | none =>
        simp only [putBlob, hg, Settles]
        have hext : s.blobs.Extends (s.blobs.set (ContentHash.sha256 content) content) := by
          intro digest c hc
          have hne : digest ≠ ContentHash.sha256 content := by
            rintro rfl
            rw [hg] at hc
            cases hc
          rw [Dict.get?_set_of_ne _ _ hne]
          exact hc
        refine ⟨hI.grow s _ hs hext ?_, fun c hc => ?_, trivial⟩
        · intro digest c hc
          rw [Dict.get?_set] at hc
          split at hc
          · next he =>
            cases hc
            exact he.symm
          · exact hI.sound s hs _ _ hc
        · rw [hu] at hc
          cases hc
          exact Dict.get?_set_self _ _ _
    · intro digest
      exact Triple.pure fun s ⟨hs, hb, hd⟩ => ⟨hs, hb, by simp [blobOf, hu, hd]⟩

end Contents

end AwesomeAgent
