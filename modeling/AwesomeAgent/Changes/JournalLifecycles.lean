import AwesomeAgent.Changes.TableRules

/-!
# What the journal does to lifecycles

However far a procedure of the journal comes, it deletes and creates no ChangeSet and
opens none again that was closed. What it reads may be saved again with more records
or a later lifecycle.
-/

namespace AwesomeAgent

/-- The same ChangeSets are stored, and those that are open now were open before. -/
structure ChangeSetStore.Tended (s t : ChangeSetStore) : Prop where
  stored : ∀ i, (t.get i).isSome = (s.get i).isSome
  open_of_open : ∀ i c', t.get i = some c' → c'.lifecycle = .open →
    ∃ c, s.get i = some c ∧ c.lifecycle = .open

/-- A ChangeSet that may be saved: it is stored, and it is open only if the stored one is. -/
def ChangeSetStore.Admits (s : ChangeSetStore) (c : ChangeSet) : Prop :=
  ∃ c', s.get c.id = some c' ∧ (c.lifecycle = .open → c'.lifecycle = .open)

namespace ChangeSetStore.Tended

variable {s t : ChangeSetStore}

/-- A store that is left alone was tended. -/
theorem refl (s : ChangeSetStore) : s.Tended s where
  stored := fun _ => rfl
  open_of_open := fun _ c hc hopen => ⟨c, hc, hopen⟩

variable {i : String}

/-- A stored change set stays stored. -/
theorem get_isSome (h : s.Tended t) {c : ChangeSet} (hc : s.get i = some c) :
    ∃ c', t.get i = some c' :=
  Option.isSome_iff_exists.mp (by rw [h.stored, hc]; rfl)

/-- A change set that is not stored was not before. -/
theorem get_eq_none (h : s.Tended t) (hi : s.get i = none) : t.get i = none := by
  have hstored := h.stored i
  rw [hi] at hstored
  exact Option.not_isSome_iff_eq_none.mp (by rw [hstored]; decide)

private theorem admits (h : s.Tended t) {c : ChangeSet} (hc : t.get i = some c) :
    s.Admits c := by
  obtain rfl := ChangeSetStore.id_of_get hc
  have hstored := h.stored c.id
  rw [hc] at hstored
  obtain ⟨c', hc'⟩ := Option.isSome_iff_exists.mp hstored.symm
  refine ⟨c', hc', fun hopen => ?_⟩
  obtain ⟨c'', hc'', hopen'⟩ := h.open_of_open c.id c hc hopen
  obtain rfl := Option.some.inj (hc'.symm.trans hc'')
  exact hopen'

private theorem save (h : s.Tended t) {c : ChangeSet} (hc : s.Admits c) : s.Tended (t.save c) := by
  obtain ⟨c', hc', hopen⟩ := hc
  constructor
  · intro i
    rw [get_save_eq]
    split
    · next hi => rw [hi, hc']; rfl
    · exact h.stored i
  · intro i d hd hdopen
    rw [get_save_eq] at hd
    split at hd
    · next hi =>
      cases hd
      exact ⟨c', hi ▸ hc', hopen hdopen⟩
    · exact h.open_of_open i d hd hdopen

end ChangeSetStore.Tended

/-- A procedure that tends the stored ChangeSets wherever it stops and returns such values. -/
def Tends {α : Type} (s₀ : ChangeSetStore) (p : ChangeProc α)
    (Q : α → Prop := fun _ => True) : Prop :=
  Triple (fun s => s₀.Tended s.store) p (fun a s => s₀.Tended s.store ∧ Q a)
    (fun _ s => s₀.Tended s.store) (fun s => s₀.Tended s.store)

private theorem ChangeSetStore.Tended.rowless (s₀ : ChangeSetStore) :
    ChangeSetStore.Rowless s₀.Tended :=
  fun _ _ ht => ⟨ht.stored, ht.open_of_open⟩

private theorem ChangeSetStore.StoredUnder.admits {s₀ : ChangeSetStore} {changeSetId : String}
    {c : ChangeSet} (h : StoredUnder s₀.Tended changeSetId c) : s₀.Admits c :=
  h.elim fun _ ht => ht.1.admits ht.2

namespace ChangeJournal

variable {s₀ : ChangeSetStore} {w : WorkspaceIdentity}

/-- Sealing a change set tends the store. -/
theorem sealChangeSet_tends (changeSetId : String) : Tends s₀ (sealChangeSet w changeSetId) :=
  sealChangeSet_preserves changeSetId fun c _ _ _ hc ht =>
    ht.save (hc.admits.imp fun _ h => ⟨h.1, fun hopen => by cases hopen⟩)

/-- The record of a command tends the store. -/
theorem recordExecute_tends (changeSetId command : String) (observedPaths : List String) :
    Tends s₀ (recordExecute w changeSetId command observedPaths) :=
  recordExecute_preserves changeSetId command observedPaths fun _ _ _ hc ht => ht.save hc.admits

section Contents

variable [ContentHash]

/-- Recovery deletes and creates no ChangeSet and opens none again. -/
theorem reconcilePending_tends (changeSetId : Option String) :
    Tends s₀ (reconcilePending w changeSetId) :=
  reconcilePending_preserves (ChangeSetStore.Tended.rowless s₀) changeSetId
    (fun _ _ _ _ _ _ _ _ hc _ => recordPending_preserves (ChangeSetStore.Tended.rowless s₀)
      fun _ _ _ _ _ _ ht _ _ _ _ _ => ht.save hc.admits)
    sealChangeSet_tends

/-- A mutation of an open ChangeSet deletes and creates none and opens none again. -/
theorem applyFileMutation_tends (changeSetId : String) (kind : FileChangeKind)
    (intendedAfter : Option NodeSnapshot) (target : BoundFileMutation) (identifier : String) :
    Tends s₀ (applyFileMutation w changeSetId kind intendedAfter target identifier) :=
  (applyFileMutation_preserves (ChangeSetStore.Tended.rowless s₀)
    (openChangeSet_preserves changeSetId)
    (fun _ _ _ _ _ ht => ⟨ht.stored, ht.open_of_open⟩)
    (fun _ _ _ _ _ hc ht _ _ _ _ => ht.save hc.admits)).post fun _ _ hs => ⟨hs, trivial⟩

end Contents

/-- A ChangeSet that was sealed is applied. -/
theorem sealChangeSet_applied (changeSetId : String) :
    Triple (fun s => s₀.Tended s.store) (sealChangeSet w changeSetId)
      (fun _ s => ∃ c, s.store.get changeSetId = some c ∧ c.lifecycle = .applied)
      (fun _ _ => True) (fun _ => True) := by
  have weak : ∀ {α : Type} {p : ChangeProc α} {Q : α → Prop}, Preserves s₀.Tended p Q →
      Triple (fun s => s₀.Tended s.store) p (fun a s => s₀.Tended s.store ∧ Q a)
        (fun _ _ => True) (fun _ => True) := fun hp =>
    hp.conseq (fun _ hs => hs) (fun _ _ hs => hs) (fun _ _ _ => trivial) fun _ _ => trivial
  refine Triple.bind (weak (openChangeSet_preserves changeSetId)) fun c => ?_
  refine Triple.assume (fun _ hs => hs.2.id_eq) fun hid => ?_
  refine Triple.bind ((weak (ensureNoPending_preserves _ _)).pre fun _ hs => hs.1) fun _ => ?_
  refine Triple.bind ((weak Preserves.now).pre fun _ hs => hs.1) fun _ => ?_
  refine Triple.bind (R := fun _ s => ∃ c', s.store.get changeSetId = some c' ∧
    c'.lifecycle = .applied) (Triple.onStore (fun s _ => ?_) fun _ _ => trivial) fun _ =>
    Triple.pure fun _ hs => hs
  rw [← hid]
  exact ⟨_, ChangeSetStore.get_save s.store _, rfl⟩

end ChangeJournal

end AwesomeAgent
