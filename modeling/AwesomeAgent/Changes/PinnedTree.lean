import AwesomeAgent.Changes.TreeTransaction
import AwesomeAgent.Library.CrashLogic

/-!
# What the pins of a transaction guarantee

The pins of a transaction are open, lie on existing directories and are opened
through the pin of their parent. A restore of a directory over a directory
replaces its pin and closes the old one, so a child that was pinned before stays
attached to a closed pin. Such detached pins and non-directories are exactly what
stops the walk to a parent.
-/

namespace AwesomeAgent

namespace TreeState

/-- Invariant of the pins of a running transaction. -/
structure Sound (s : TreeState) : Prop where
  root : ∃ pin, s.pins.get? [] = some pin
  path : ∀ p pin, s.pins.get? p = some pin → pin.path = p
  opened : ∀ p pin, s.pins.get? p = some pin → pin.descriptor ∉ s.closed
  fresh : ∀ p pin, s.pins.get? p = some pin → pin.descriptor < s.opened
  closed : ∀ n ∈ s.closed, n < s.opened
  distinct : ∀ p q pin pin', s.pins.get? p = some pin → s.pins.get? q = some pin' →
    pin.descriptor = pin'.descriptor → p = q
  identity : ∀ p pin, s.pins.get? p = some pin →
    ∃ e, s.disk.lstat p = some e ∧ e.isDirectory = true ∧ e.identity = pin.identity
  parent : ∀ p fd identity par name, s.pins.get? p = some (.child fd identity par name) →
    s.pins.get? p.tail = some par ∨ par.descriptor ∈ s.closed
  rooted : ∀ part p pin, s.pins.get? (part :: p) = some pin → ∃ par, s.pins.get? p = some par

/-- A pin whose parent pin has been closed. -/
def Detached (s : TreeState) (p : NodePath) : Prop :=
  ∃ fd identity par name, s.pins.get? p = some (.child fd identity par name) ∧
    par.descriptor ∈ s.closed

/-- What stops the walk to a directory: a detached pin or a non-directory on the way. -/
def Obstructed (s : TreeState) (p : NodePath) : Prop :=
  ∃ q, q <:+ p ∧ (s.Detached q ∨ ∃ e, s.disk.lstat q = some e ∧ e.isDirectory = false)

/-- Walking only adds pins. -/
structure Extends (s t : TreeState) : Prop where
  disk : t.disk = s.disk
  created : t.created = s.created
  detached : ∀ p, t.Detached p ↔ s.Detached p

private theorem Extends.refl (s : TreeState) : s.Extends s := ⟨rfl, rfl, fun _ => Iff.rfl⟩

variable {s : TreeState} {p : NodePath}

private theorem Extends.trans {t u : TreeState} (h : s.Extends t) (h' : t.Extends u) :
    s.Extends u :=
  ⟨h'.disk.trans h.disk, h'.created.trans h.created,
    fun p => (h'.detached p).trans (h.detached p)⟩

/-- An extension obstructs nothing else. -/
theorem Extends.obstructed {t : TreeState} (h : s.Extends t) (p : NodePath) :
    t.Obstructed p ↔ s.Obstructed p := by
  simp only [Obstructed, h.detached, h.disk]

private theorem Obstructed.cons {s : TreeState} {p : NodePath} (part : String) (h : s.Obstructed p)
    :
    s.Obstructed (part :: p) := by
  obtain ⟨q, hq, hs⟩ := h
  exact ⟨q, hq.trans (List.suffix_cons _ _), hs⟩

private theorem obstructed_cons_iff {part : String} :
    s.Obstructed (part :: p) ↔ s.Obstructed p ∨ s.Detached (part :: p) ∨
      ∃ e, s.disk.lstat (part :: p) = some e ∧ e.isDirectory = false := by
  constructor
  · rintro ⟨q, hq, hs⟩
    rcases List.suffix_cons_iff.mp hq with rfl | hq
    · exact Or.inr hs
    · exact Or.inl ⟨q, hq, hs⟩
  · rintro (h | h)
    · exact h.cons part
    · exact ⟨_, List.suffix_rfl, h⟩

private theorem Sound.child_of_cons (h : s.Sound) {part : String}
    {pin : DirectoryPin} (hp : s.pins.get? (part :: p) = some pin) :
    ∃ fd identity par, pin = .child fd identity par part ∧ par.path = p := by
  have hpath := h.path _ _ hp
  cases pin with
  | root fd identity => cases hpath
  | child fd identity par name =>
    simp only [DirectoryPin.path, List.cons.injEq] at hpath
    obtain ⟨rfl, hpath⟩ := hpath
    exact ⟨fd, identity, par, rfl, hpath⟩

private theorem Sound.not_detached_nil (h : s.Sound) : ¬s.Detached [] := by
  rintro ⟨fd, identity, par, name, hp, _⟩
  have := h.path _ _ hp
  cases this

/-- A pinned path holds a directory. -/
theorem Sound.isDirectory (h : s.Sound) {pin : DirectoryPin}
    (hp : s.pins.get? p = some pin) : s.disk.IsDirectory p := by
  obtain ⟨e, he, hd, _⟩ := h.identity p pin hp
  exact ⟨e, he, hd⟩

/-- A detached pin is at a directory. -/
theorem Detached.isDirectory (h : s.Sound) (hd : s.Detached p) : s.disk.IsDirectory p := by
  obtain ⟨fd, identity, par, name, hp, _⟩ := hd
  exact h.isDirectory hp

end TreeState

open TreeState

variable {e : Entry} {pin par : DirectoryPin} {s : TreeState} {p : NodePath} {part : String}

private theorem directory_not_link (h : e.isDirectory = true) :
    e.isLinkOrReparse = false := by
  simp only [Entry.isDirectory, decide_eq_true_eq] at h
  simp [Entry.isLinkOrReparse, h]

private theorem DirectoryPin.verifyReachable_of_closed (d : Disk) {closed : List Nat}
    (h : pin.descriptor ∈ closed) :
    pin.verifyReachable d closed =
      .error (.mutationTargetChanged "A bound workspace directory was closed.") := by
  cases pin with
  | root fd identity => exact if_pos h
  | child fd identity par name => exact if_pos h

private theorem TreeState.Sound.checkPinned {s : TreeState} (h : s.Sound) {p : NodePath}
    {pin : DirectoryPin} (hp : s.pins.get? p = some pin) :
    checkPinned s.disk p pin.identity = .ok () := by
  obtain ⟨e, he, hd, hid⟩ := h.identity p pin hp
  simp [AwesomeAgent.checkPinned, he, directory_not_link hd, hid]

/-- Checking a pin succeeds exactly when no pin on its way is detached. -/
theorem TreeState.Sound.verifyReachable_iff (h : s.Sound) (hp : s.pins.get? p = some pin) :
    pin.verifyReachable s.disk s.closed = .ok () ↔ ∀ q, q <:+ p → ¬s.Detached q := by
  induction p generalizing pin with
  | nil =>
    have hpath := h.path _ _ hp
    cases pin with
    | child fd identity par name => cases hpath
    | root fd identity =>
      have hopen := h.opened _ _ hp
      have hcheck := h.checkPinned hp
      simp only [DirectoryPin.descriptor, DirectoryPin.identity] at hopen hcheck
      simp only [DirectoryPin.verifyReachable, if_neg hopen, hcheck, true_iff]
      intro q hq
      rw [List.suffix_nil.mp hq]
      exact h.not_detached_nil
  | cons part p ih =>
    obtain ⟨fd, identity, par, rfl, hpar⟩ := h.child_of_cons hp
    have hopen := h.opened _ _ hp
    have hcheck := h.checkPinned hp
    simp only [DirectoryPin.descriptor, DirectoryPin.identity] at hopen hcheck
    simp only [DirectoryPin.verifyReachable, if_neg hopen, hpar, hcheck]
    rcases h.parent _ _ _ _ _ hp with hget | hclosed
    · have hiff := ih hget
      constructor
      · intro hv q hq
        have hok : par.verifyReachable s.disk s.closed = .ok () := by
          cases hr : par.verifyReachable s.disk s.closed with
          | error fault => simp [hr] at hv
          | ok u => rfl
        rcases List.suffix_cons_iff.mp hq with rfl | hq
        · rintro ⟨fd', identity', par', name', hp', hc⟩
          rw [hp] at hp'
          cases hp'
          exact h.opened _ _ hget hc
        · exact hiff.mp hok q hq
      · intro hq
        rw [hiff.mpr fun q hs => hq q (hs.trans (List.suffix_cons _ _))]
    · have hfault := DirectoryPin.verifyReachable_of_closed s.disk hclosed
      simp only [hfault, reduceCtorEq, false_iff]
      intro hq
      exact hq _ List.suffix_rfl ⟨fd, identity, par, part, hp, hclosed⟩

/-- A reachable state of the walk: the pin of the last component can be used. -/
theorem TreeState.Sound.verifyReachable_ok (h : s.Sound)
    (hp : s.pins.get? p = some pin) (hn : ¬s.Obstructed p) :
    pin.verifyReachable s.disk s.closed = .ok () :=
  (h.verifyReachable_iff hp).mpr fun q hq hd => hn ⟨q, hq, Or.inl hd⟩

/-- Pinning a directory afresh through the pin of its parent, closing the pin it had. -/
structure TreeState.Repinned (s t : TreeState) (part : String) (p : NodePath)
    (par : DirectoryPin) (e : Entry) : Prop where
  disk : t.disk = s.disk
  opened : t.opened = s.opened + 1
  closed : t.closed =
    ((s.pins.get? (part :: p)).map DirectoryPin.descriptor).toList ++ s.closed
  pins : ∀ q, t.pins.get? q =
    if q = part :: p then some (.child s.opened e.identity par part) else s.pins.get? q

private theorem TreeState.Repinned.mem_closed {t : TreeState}
    (hr : s.Repinned t part p par e) (n : Nat) :
    n ∈ t.closed ↔ n ∈ s.closed ∨ ∃ pin, s.pins.get? (part :: p) = some pin ∧
      pin.descriptor = n := by
  rw [hr.closed]
  cases s.pins.get? (part :: p) <;> simp [or_comm, eq_comm]

/-- A directory may be pinned afresh. -/
theorem TreeState.Sound.repinned {t : TreeState} (h : s.Sound) (hr : s.Repinned t part p par e)
    (hpar : s.pins.get? p = some par) (he : s.disk.lstat (part :: p) = some e)
    (hd : e.isDirectory = true) : t.Sound := by
  have hparNe : p ≠ part :: p := List.ne_cons_self
  have hkept : ∀ q pin, s.pins.get? q = some pin → q ≠ part :: p →
      pin.descriptor ∉ t.closed := by
    intro q pin hq hne hc
    rcases (hr.mem_closed _).mp hc with hc | ⟨old, hold, hdesc⟩
    · exact h.opened _ _ hq hc
    · exact hne (h.distinct _ _ _ _ hq hold hdesc.symm)
  constructor
  · obtain ⟨pin, hpin⟩ := h.root
    exact ⟨pin, by rw [hr.pins, if_neg (List.cons_ne_nil _ _).symm]; exact hpin⟩
  · intro q pin hq
    rw [hr.pins] at hq
    split at hq
    · next heq =>
      cases hq
      rw [heq, DirectoryPin.path, h.path _ _ hpar]
    · exact h.path _ _ hq
  · intro q pin hq
    rw [hr.pins] at hq
    split at hq
    · cases hq
      intro hc
      rcases (hr.mem_closed _).mp hc with hc | ⟨old, hold, hdesc⟩
      · exact Nat.lt_irrefl _ (h.closed _ hc)
      · exact absurd hdesc (Nat.ne_of_lt (h.fresh _ _ hold))
    · next hne => exact hkept _ _ hq hne
  · intro q pin hq
    rw [hr.pins] at hq
    rw [hr.opened]
    split at hq
    · cases hq
      exact Nat.lt_succ_self _
    · exact Nat.lt_succ_of_lt (h.fresh _ _ hq)
  · intro n hn
    rw [hr.opened]
    rcases (hr.mem_closed n).mp hn with hn | ⟨old, hold, rfl⟩
    · exact Nat.lt_succ_of_lt (h.closed n hn)
    · exact Nat.lt_succ_of_lt (h.fresh _ _ hold)
  · intro q r pin pin' hq hr' heq
    rw [hr.pins] at hq hr'
    split at hq <;> split at hr'
    · next h1 h2 => rw [h1, h2]
    · cases hq
      exact absurd heq.symm (Nat.ne_of_lt (h.fresh _ _ hr'))
    · cases hr'
      exact absurd heq (Nat.ne_of_lt (h.fresh _ _ hq))
    · exact h.distinct _ _ _ _ hq hr' heq
  · intro q pin hq
    rw [hr.pins] at hq
    rw [hr.disk]
    split at hq
    · next heq =>
      cases hq
      exact ⟨e, heq ▸ he, hd, rfl⟩
    · exact h.identity _ _ hq
  · intro q fd identity par' name hq
    rw [hr.pins] at hq
    split at hq
    · next heq =>
      cases hq
      refine Or.inl ?_
      rw [hr.pins, heq, List.tail_cons, if_neg hparNe]
      exact hpar
    · rcases h.parent _ _ _ _ _ hq with hp | hc
      · by_cases htail : q.tail = part :: p
        · rw [htail] at hp
          exact Or.inr ((hr.mem_closed _).mpr (Or.inr ⟨par', hp, rfl⟩))
        · exact Or.inl (by rw [hr.pins, if_neg htail]; exact hp)
      · exact Or.inr ((hr.mem_closed _).mpr (Or.inl hc))
  · intro n q pin hq
    rw [hr.pins] at hq
    rw [hr.pins]
    split at hq
    · next heq =>
      cases heq
      exact ⟨par, by rw [if_neg hparNe]; exact hpar⟩
    · split
      · exact ⟨_, rfl⟩
      · exact h.rooted _ _ _ hq

/-- Repinning attaches the directory and detaches the pinned children of its old pin. -/
theorem TreeState.Sound.repinned_detached_iff {t : TreeState} (h : s.Sound)
    (hr : s.Repinned t part p par e)
    (hpar : s.pins.get? p = some par) (q : NodePath) :
    t.Detached q ↔ q ≠ part :: p ∧ (s.Detached q ∨
      (∃ pin, s.pins.get? (part :: p) = some pin) ∧ (∃ pin, s.pins.get? q = some pin) ∧
        q ≠ [] ∧ q.tail = part :: p) := by
  constructor
  · rintro ⟨fd, identity, par', name, hq, hc⟩
    rw [hr.pins] at hq
    split at hq
    · cases hq
      rcases (hr.mem_closed _).mp hc with hc | ⟨old, hold, hdesc⟩
      · exact absurd hc (h.opened _ _ hpar)
      · exact absurd (h.distinct _ _ _ _ hold hpar hdesc).symm List.ne_cons_self
    · next hne =>
      refine ⟨hne, ?_⟩
      rcases (hr.mem_closed _).mp hc with hc | ⟨old, hold, hdesc⟩
      · exact Or.inl ⟨fd, identity, par', name, hq, hc⟩
      · rcases h.parent _ _ _ _ _ hq with hp | hc'
        · refine Or.inr ⟨⟨old, hold⟩, ⟨_, hq⟩, ?_, h.distinct _ _ _ _ hp hold hdesc.symm⟩
          rintro rfl
          cases h.path _ _ hq
        · exact Or.inl ⟨fd, identity, par', name, hq, hc'⟩
  · rintro ⟨hne, ⟨fd, identity, par', name, hq, hc⟩ | ⟨⟨old, hold⟩, ⟨pin, hq⟩, hnil, htail⟩⟩
    · exact ⟨fd, identity, par', name, by rw [hr.pins, if_neg hne]; exact hq,
        (hr.mem_closed _).mpr (Or.inl hc)⟩
    · obtain ⟨n, q, rfl⟩ := List.exists_cons_of_ne_nil hnil
      rw [List.tail_cons] at htail
      subst htail
      obtain ⟨fd, identity, par', rfl, _⟩ := h.child_of_cons hq
      refine ⟨fd, identity, par', n, by rw [hr.pins, if_neg hne]; exact hq, ?_⟩
      rcases h.parent _ _ _ _ _ hq with hp | hc
      · exact (hr.mem_closed _).mpr (Or.inr ⟨par', hp, rfl⟩)
      · exact (hr.mem_closed _).mpr (Or.inl hc)

private theorem TreeState.Sound.extends_of_repinned {t : TreeState} (h : s.Sound)
    (hr : s.Repinned t part p par e)
    (hcreated : t.created = s.created) (hpar : s.pins.get? p = some par)
    (hnone : s.pins.get? (part :: p) = none) : s.Extends t := by
  refine ⟨hr.disk, hcreated, fun q => ?_⟩
  rw [h.repinned_detached_iff hr hpar]
  constructor
  · rintro ⟨_, hd | ⟨⟨pin, hp⟩, _⟩⟩
    · exact hd
    · rw [hnone] at hp
      cases hp
  · intro hd
    refine ⟨?_, Or.inl hd⟩
    rintro rfl
    obtain ⟨fd, identity, par', name, hq, _⟩ := hd
    rw [hnone] at hq
    cases hq

/-- A disk change that keeps the pinned directories keeps the pins sound. -/
theorem TreeState.Sound.withDisk (h : s.Sound) {d : Disk}
    (hd : ∀ p pin e, s.pins.get? p = some pin → s.disk.lstat p = some e →
      ∃ e', d.lstat p = some e' ∧ e'.isDirectory = true ∧ e'.identity = e.identity) :
    Sound { s with disk := d } := by
  refine ⟨h.root, h.path, h.opened, h.fresh, h.closed, h.distinct, ?_, h.parent, h.rooted⟩
  intro p pin hp
  obtain ⟨e, he, _, hid⟩ := h.identity p pin hp
  obtain ⟨e', he', hdir, hid'⟩ := hd p pin e hp he
  exact ⟨e', he', hdir, hid'.trans hid⟩

/-- Directories that were created do not matter to the pins. -/
theorem TreeState.Sound.withCreated (h : s.Sound) (created : List NodePath) :
    Sound { s with created := created } :=
  ⟨h.root, h.path, h.opened, h.fresh, h.closed, h.distinct, h.identity, h.parent, h.rooted⟩

/-- Released pins are gone. -/
theorem TreeState.get?_release (s : TreeState) (parts p : NodePath) :
    (s.release parts).pins.get? p = if parts <:+ p then none else s.pins.get? p := by
  by_cases h : parts <:+ p
  · have hb : parts.isSuffixOf p = true := by simpa using h
    simp [release, Dict.get?_filterKeys, h, hb]
  · have hb : parts.isSuffixOf p = false :=
      Bool.eq_false_iff.mpr fun hb => h (by simpa using hb)
    simp [release, Dict.get?_filterKeys, h, hb]

private theorem TreeState.mem_closed_release (s : TreeState) (parts : NodePath) (n : Nat) :
    n ∈ (s.release parts).closed ↔ n ∈ s.closed ∨
      ∃ p pin, parts <:+ p ∧ s.pins.get? p = some pin ∧ pin.descriptor = n := by
  simp only [release, List.mem_append, List.mem_map, Dict.mem_values_iff, Dict.get?_filterKeys]
  constructor
  · rintro (⟨pin, ⟨p, hp⟩, rfl⟩ | hc)
    · split at hp
      · next hs => exact Or.inr ⟨p, pin, by simpa using hs, hp, rfl⟩
      · cases hp
    · exact Or.inl hc
  · rintro (hc | ⟨p, pin, hs, hp, rfl⟩)
    · exact Or.inr hc
    · have hb : parts.isSuffixOf p = true := by simpa using hs
      exact Or.inl ⟨pin, ⟨p, by rw [if_pos hb]; exact hp⟩, rfl⟩

/-- Releasing a subtree keeps the other pins sound. -/
theorem TreeState.Sound.release (h : s.Sound) (parts : NodePath)
    (hne : parts ≠ []) : (s.release parts).Sound := by
  have hget : ∀ {p pin}, (s.release parts).pins.get? p = some pin →
      ¬parts <:+ p ∧ s.pins.get? p = some pin := by
    intro p pin hp
    rw [get?_release] at hp
    split at hp
    · cases hp
    · next hs => exact ⟨hs, hp⟩
  have hkeep : ∀ {p pin}, ¬parts <:+ p → s.pins.get? p = some pin →
      (s.release parts).pins.get? p = some pin := by
    intro p pin hs hp
    rw [get?_release, if_neg hs]
    exact hp
  constructor
  · obtain ⟨pin, hpin⟩ := h.root
    exact ⟨pin, hkeep (fun hs => hne (List.suffix_nil.mp hs)) hpin⟩
  · exact fun p pin hp => h.path _ _ (hget hp).2
  · intro p pin hp hc
    obtain ⟨hs, hp⟩ := hget hp
    rcases (s.mem_closed_release parts _).mp hc with hc | ⟨q, pin', hq, hq', hdesc⟩
    · exact h.opened _ _ hp hc
    · exact hs (h.distinct _ _ _ _ hq' hp hdesc ▸ hq)
  · exact fun p pin hp => h.fresh _ _ (hget hp).2
  · intro n hn
    rcases (s.mem_closed_release parts n).mp hn with hn | ⟨q, pin, _, hq, rfl⟩
    · exact h.closed n hn
    · exact h.fresh _ _ hq
  · exact fun p q pin pin' hp hq => h.distinct _ _ _ _ (hget hp).2 (hget hq).2
  · exact fun p pin hp => h.identity _ _ (hget hp).2
  · intro p fd identity par name hp
    obtain ⟨hs, hp⟩ := hget hp
    rcases h.parent _ _ _ _ _ hp with hpar | hc
    · exact Or.inl (hkeep (fun ht => hs (ht.trans (List.tail_suffix p))) hpar)
    · exact Or.inr ((s.mem_closed_release parts _).mpr (Or.inl hc))
  · intro part p pin hp
    obtain ⟨hs, hp⟩ := hget hp
    obtain ⟨par, hpar⟩ := h.rooted _ _ _ hp
    exact ⟨par, hkeep (fun ht => hs (ht.trans (List.suffix_cons _ _))) hpar⟩

/-- Releasing a subtree detaches nothing that stays. -/
theorem TreeState.Sound.release_detached_iff (h : s.Sound) (parts p : NodePath) :
    (s.release parts).Detached p ↔ ¬parts <:+ p ∧ s.Detached p := by
  constructor
  · rintro ⟨fd, identity, par, name, hp, hc⟩
    rw [get?_release] at hp
    split at hp
    · cases hp
    · next hs =>
      refine ⟨hs, fd, identity, par, name, hp, ?_⟩
      rcases (s.mem_closed_release parts _).mp hc with hc | ⟨q, pin, hq, hq', hdesc⟩
      · exact hc
      · rcases h.parent _ _ _ _ _ hp with hpar | hc
        · have := h.distinct _ _ _ _ hq' hpar hdesc
          exact absurd ((this ▸ hq).trans (List.tail_suffix p)) hs
        · exact hc
  · rintro ⟨hs, fd, identity, par, name, hp, hc⟩
    exact ⟨fd, identity, par, name, by rw [get?_release, if_neg hs]; exact hp,
      (s.mem_closed_release parts _).mpr (Or.inl hc)⟩

namespace WorkspaceTreeTransaction

/-- Result of a walk from a sound state: it fails exactly at an obstruction. -/
def Walked (s : TreeState) (p : NodePath) (r : Option DirectoryPin × Option NodePath)
    (t : TreeState) : Prop :=
  t.Sound ∧ s.Extends t ∧ ¬s.Obstructed p ∧
    match r.1 with
    | some pin => t.pins.get? p = some pin
    | none => s.disk.lstat p = none ∧ ∃ m, r.2 = some m ∧ m <:+ p ∧ s.disk.lstat m = none

/-- A walk that fails met an obstruction. -/
def Stopped (s : TreeState) (p : NodePath) (t : TreeState) : Prop :=
  t.Sound ∧ s.Extends t ∧ s.Obstructed p

private theorem openComponent_spec {s : TreeState} (h : s.Sound) (part : String)
    {p : NodePath} {current : DirectoryPin} (hcur : s.pins.get? p = some current)
    (hn : ¬s.Obstructed p) :
    Settles (Walked s (part :: p)) (fun _ => Stopped s (part :: p))
      (openComponent current part p s) := by
  cases hget : s.pins.get? (part :: p) with
  | some existing =>
    have hdir := h.isDirectory hget
    cases hv : existing.verifyReachable s.disk s.closed with
    | error fault =>
      have hrun : openComponent current part p s = .error fault s := by
        simp [openComponent, hget, verifyReachable, inspect, hv, Bind.bind, EStateM.bind,
          get, getThe, MonadStateOf.get, run_get]
      rw [hrun]
      refine ⟨h, Extends.refl s, ?_⟩
      by_contra hno
      have := h.verifyReachable_ok hget hno
      rw [hv] at this
      cases this
    | ok u =>
      have hrun : openComponent current part p s = .ok (some existing, none) s := by
        simp [openComponent, hget, verifyReachable, inspect, hv, Bind.bind, EStateM.bind,
          get, getThe, MonadStateOf.get, run_get, Pure.pure, EStateM.pure]
      rw [hrun]
      refine ⟨h, Extends.refl s, ?_, hget⟩
      rw [obstructed_cons_iff]
      rintro (ho | hd | ⟨e, he, hed⟩)
      · exact hn ho
      · exact (h.verifyReachable_iff hget).mp hv _ List.suffix_rfl hd
      · obtain ⟨e', he', hed'⟩ := hdir
        have : e = e' := Option.some.inj (he.symm.trans he')
        rw [this, hed'] at hed
        cases hed
  | none =>
    have hv := h.verifyReachable_ok hcur hn
    have hpath := h.path _ _ hcur
    have hnd : ¬s.Detached (part :: p) := by
      rintro ⟨fd, identity, par, name, hp, _⟩
      rw [hget] at hp
      cases hp
    cases he : s.disk.lstat (part :: p) with
    | none =>
      have hrun : openComponent current part p s = .ok (none, some (part :: p)) s := by
        simp [openComponent, hget, verifyReachable, inspect, hv, lstatChild, hpath, he,
          Bind.bind, EStateM.bind, get, getThe, MonadStateOf.get, run_get, Pure.pure,
          EStateM.pure]
      rw [hrun]
      refine ⟨h, Extends.refl s, ?_, he, _, rfl, List.suffix_rfl, he⟩
      rw [obstructed_cons_iff]
      rintro (ho | hd | ⟨e, he', _⟩)
      · exact hn ho
      · exact hnd hd
      · rw [he] at he'
        cases he'
    | some e =>
      by_cases hd : e.isDirectory = true
      · have hlink := directory_not_link hd
        have hrun : openComponent current part p s =
            .ok (some (.child s.opened e.identity current part), none) { s with
              opened := s.opened + 1
              pins := s.pins.set (part :: p) (.child s.opened e.identity current part) } := by
          simp [openComponent, openDirectory, directoryIdentity, hget, verifyReachable, inspect,
            hv, lstatChild, hpath, he, hd, hlink, Bind.bind, EStateM.bind, get, getThe,
            MonadStateOf.get, run_get, Pure.pure, EStateM.pure, set, run_set, modify,
            modifyGet, MonadStateOf.modifyGet, run_modifyGet]
        rw [hrun]
        have hrep : s.Repinned { s with
            opened := s.opened + 1
            pins := s.pins.set (part :: p) (.child s.opened e.identity current part) }
            part p current e :=
          ⟨rfl, rfl, by simp [hget], fun q => Dict.get?_set _ _ _ _⟩
        refine ⟨h.repinned hrep hcur he hd, h.extends_of_repinned hrep rfl hcur hget, ?_,
          Dict.get?_set_self _ _ _⟩
        rw [obstructed_cons_iff]
        rintro (ho | hdet | ⟨e', he', hed⟩)
        · exact hn ho
        · exact hnd hdet
        · rw [he] at he'
          cases he'
          rw [hd] at hed
          cases hed
      · have hd' : e.isDirectory = false := by simpa using hd
        have hrun : openComponent current part p s = .error (.unsafeWorkspacePath
            "Workspace parent links and non-directories are not allowed.") s := by
          simp [openComponent, hget, verifyReachable, inspect, hv, lstatChild, hpath, he, hd',
            Bind.bind, EStateM.bind, get, getThe, MonadStateOf.get, run_get, throw,
            throwThe, MonadExceptOf.throw, run_throw]
        rw [hrun]
        exact ⟨h, Extends.refl s, obstructed_cons_iff.2 (Or.inr (Or.inr ⟨e, he, hd'⟩))⟩

/-- The walk to a parent succeeds exactly when nothing obstructs it. -/
theorem openParent_spec {s : TreeState} (h : s.Sound) (p : NodePath) :
    Settles (Walked s p) (fun _ => Stopped s p) (openParent p s) := by
  induction p with
  | nil =>
    obtain ⟨pin, hpin⟩ := h.root
    have hrun : openParent [] s = .ok (some pin, none) s := by
      simp [openParent, root, inspect, hpin, Bind.bind, EStateM.bind, Pure.pure, EStateM.pure]
    rw [hrun]
    refine ⟨h, Extends.refl s, ?_, hpin⟩
    rintro ⟨q, hq, hs⟩
    rw [List.suffix_nil.mp hq] at hs
    rcases hs with hd | ⟨e, he, hd⟩
    · exact h.not_detached_nil hd
    · obtain ⟨e', he', hd'⟩ := h.isDirectory hpin
      have : e = e' := Option.some.inj (he.symm.trans he')
      rw [this, hd'] at hd
      cases hd
  | cons part p ih =>
    cases hr : openParent p s with
    | error fault t =>
      rw [hr] at ih
      obtain ⟨ht, hext, ho⟩ := ih
      have hrun : openParent (part :: p) s = .error fault t := by
        simp [openParent, hr, Bind.bind, EStateM.bind]
      rw [hrun]
      exact ⟨ht, hext, ho.cons part⟩
    | ok r t =>
      rw [hr] at ih
      obtain ⟨current, missing⟩ := r
      obtain ⟨ht, hext, hn, hres⟩ := ih
      cases current with
      | none =>
        obtain ⟨habsent, m, hm, hsuffix, hmissing⟩ := hres
        have hrun : openParent (part :: p) s = .ok (none, missing) t := by
          simp [openParent, hr, Bind.bind, EStateM.bind, Pure.pure, EStateM.pure]
        rw [hrun]
        have hbelow : s.disk.lstat (part :: p) = none := by
          refine s.disk.tree.get?_below_eq_none (q := p) ?_ (List.suffix_cons _ _)
            (List.ne_cons_self)
          rintro ⟨e, he, _⟩
          have : s.disk.lstat p = some e := he
          rw [habsent] at this
          cases this
        refine ⟨ht, hext, ?_, hbelow, m, hm, hsuffix.trans (List.suffix_cons _ _), hmissing⟩
        rw [obstructed_cons_iff, ← hext.detached]
        rintro (ho | hd | ⟨e, he, _⟩)
        · exact hn ho
        · obtain ⟨e, he, _⟩ := hd.isDirectory ht
          rw [hext.disk] at he
          have he' : s.disk.lstat (part :: p) = some e := he
          rw [hbelow] at he'
          cases he'
        · rw [hbelow] at he
          cases he
      | some current =>
        have hrun : openParent (part :: p) s = openComponent current part p t := by
          simp [openParent, hr, Bind.bind, EStateM.bind]
        rw [hrun]
        have hspec := openComponent_spec ht part hres
          (by rwa [hext.obstructed])
        cases hc : openComponent current part p t with
        | ok r' u =>
          rw [hc] at hspec
          obtain ⟨hu, hext', hn', hres'⟩ := hspec
          rw [hext.obstructed] at hn'
          refine ⟨hu, hext.trans hext', hn', ?_⟩
          rw [hext.disk] at hres'
          exact hres'
        | error fault u =>
          rw [hc] at hspec
          obtain ⟨hu, hext', ho⟩ := hspec
          exact ⟨hu, hext.trans hext', (hext.obstructed _).mp ho⟩

end WorkspaceTreeTransaction

end AwesomeAgent
