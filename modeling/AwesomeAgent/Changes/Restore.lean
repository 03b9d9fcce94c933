import AwesomeAgent.Changes.PinnedTree

/-!
# What binding, capturing and restoring do

Each operation of a tree transaction either raises a fault and leaves the disk as
it was, or does what its name says. The faults of a restore are characterised by
the conditions under which the restore is ready.
-/

namespace AwesomeAgent

open TreeState

/-- Restorable snapshots are those that capture can return again after a restore. -/
structure NodeSnapshot.Restorable (linkMode : Nat) (s : NodeSnapshot) : Prop where
  captured : s.Captured
  size : s.nodeType = .file → (s.content.getD []).length ≤ maxChangesetBytes
  link : s.nodeType = .symlink → s.mode = some linkMode

/-- What capture can return can also be restored. -/
theorem Disk.snapshot_restorable {d : Disk} {p : NodePath}
    (hc : ∀ e, d.lstat p = some e → e.Capturable) {s : NodeSnapshot}
    (h : d.snapshot p = some s) : s.Restorable d.linkMode := by
  refine ⟨Disk.snapshot_captured h, ?_, ?_⟩
  all_goals
    obtain ⟨e, he, hs⟩ := Option.bind_eq_some_iff.mp h
    have hcap := hc e he
    obtain ⟨node, device, inode⟩ := e
    cases node <;> simp only [Entry.snapshot?, Option.some.injEq, reduceCtorEq] at hs
    all_goals
      subst hs
      intro ht
      first
        | exact hcap.2
        | rfl
        | cases ht

private theorem captureNode_error {linkMode : Nat} {observed : Option Entry} {fault : Fault}
    (h : captureNode linkMode observed = .error fault) :
    ∃ e, observed = some e ∧ ¬e.Capturable := by
  cases observed with
  | none => cases h
  | some e =>
    refine ⟨e, rfl, fun hc => ?_⟩
    obtain ⟨s, _, hr⟩ := captureNode_of_capturable linkMode hc
    rw [hr] at h
    cases h

/-- What a bound node says about the disk it was bound on. -/
structure Bound (d : Disk) (path : RelativePath) (b : BoundWorkspaceNode) : Prop where
  relative : b.relative = path
  snapshot : b.snapshot = d.snapshot path.parts
  identity : b.identity = (d.lstat path.parts).map Entry.identity
  capturable : ∀ e, d.lstat path.parts = some e → e.Capturable
  missing : ∀ m, b.missingAncestor = some m → m <:+ path.parent ∧ d.lstat m = none

variable {b : BoundWorkspaceNode}

/-- Only the node under the path and the missing directories above it matter to a bind. -/
theorem Bound.congr {d d' : Disk} {path : RelativePath}
    (h : Bound d path b) (hl : ∀ p, d'.lstat p = d.lstat p) (hlink : d'.linkMode = d.linkMode) :
    Bound d' path b := by
  refine ⟨h.relative, ?_, ?_, ?_, ?_⟩
  · rw [h.snapshot, Disk.snapshot, Disk.snapshot, hl, hlink]
  · rw [h.identity, hl]
  · rw [hl]
    exact h.capturable
  · intro m hm
    rw [hl]
    exact h.missing m hm

private theorem Bound.observed {d : Disk} {path : RelativePath} (h : Bound d path b) :
    (b.observed = none ∧ d.lstat path.parts = none) ∨
      ∃ e s, d.lstat path.parts = some e ∧ e.snapshot? d.linkMode = some s ∧
        b.observed = some (s, e.identity) := by
  have hsnap := h.snapshot
  have hid := h.identity
  simp only [BoundWorkspaceNode.snapshot, BoundWorkspaceNode.identity, Disk.snapshot] at hsnap hid
  cases hl : d.lstat path.parts with
  | none =>
    simp only [hl, Option.map_none, Option.map_eq_none_iff] at hid
    exact Or.inl ⟨hid, rfl⟩
  | some e =>
    cases ho : b.observed with
    | none => simp [hl, ho] at hid
    | some x =>
      obtain ⟨s, i⟩ := x
      simp only [hl, ho, Option.map_some, Option.some.injEq, Option.bind_some] at hsnap hid
      exact Or.inr ⟨e, s, rfl, hsnap.symm, by rw [hid]⟩

namespace WorkspaceTreeTransaction

variable {s : TreeState} {parent : DirectoryPin} {d : Disk} {path : RelativePath}
  {b : BoundWorkspaceNode} {desired : Option NodeSnapshot} {e : Entry}

private theorem captureChild_spec (h : s.Sound) {p : NodePath}
    (hp : s.pins.get? p = some parent) (hn : ¬s.Obstructed p) (name : String) :
    Settles
      (fun r t => t = s ∧ (∀ e, s.disk.lstat (name :: p) = some e → e.Capturable) ∧
        r.map Prod.fst = s.disk.snapshot (name :: p) ∧
        r.map Prod.snd = (s.disk.lstat (name :: p)).map Entry.identity)
      (fun _ t => t = s ∧ ∃ e, s.disk.lstat (name :: p) = some e ∧ ¬e.Capturable)
      (captureChild parent name s) := by
  have hv := h.verifyReachable_ok hp hn
  have hpath := h.path _ _ hp
  cases hc : captureNode s.disk.linkMode (s.disk.lstat (name :: p)) with
  | ok r =>
    have hrun : captureChild parent name s = .ok r s := by
      simp [captureChild, verifyReachable, inspect, hv, lstatChild, hpath, hc, Bind.bind,
        EStateM.bind]
    rw [hrun]
    exact ⟨rfl, captureNode_ok hc⟩
  | error fault =>
    have hrun : captureChild parent name s = .error fault s := by
      simp [captureChild, verifyReachable, inspect, hv, lstatChild, hpath, hc, Bind.bind,
        EStateM.bind]
    rw [hrun]
    exact ⟨rfl, captureNode_error hc⟩

private theorem lstat_below_missing {p : NodePath} (h : d.lstat p = none)
    (name : String) : d.lstat (name :: p) = none := by
  refine d.tree.get?_below_eq_none (q := p) ?_ (List.suffix_cons _ _) List.ne_cons_self
  rintro ⟨e, he, _⟩
  have : d.lstat p = some e := he
  rw [h] at this
  cases this

/-- A bind reports the node under the path, or fails at an obstruction. -/
theorem bind_spec (h : s.Sound) (path : RelativePath) :
    Settles (fun b t => t.Sound ∧ s.Extends t ∧ ¬s.Obstructed path.parent ∧
        Bound s.disk path b)
      (fun _ t => t.Sound ∧ s.Extends t ∧ (s.Obstructed path.parent ∨
        ∃ e, s.disk.lstat path.parts = some e ∧ ¬e.Capturable))
      (bind path s) := by
  refine Settles.bind (R := Walked s path.parent) ?_ ?_
  · exact (openParent_spec h path.parent).mono (fun _ _ hr => hr)
      (fun _ _ ⟨ht, hext, ho⟩ => ⟨ht, hext, Or.inl ho⟩)
  · rintro ⟨parent, missing⟩ t ⟨ht, hext, hn, hres⟩
    cases parent with
    | none =>
      obtain ⟨habsent, m, hm, hsuffix, hmissing⟩ := hres
      have hnone := lstat_below_missing habsent path.name
      refine ⟨ht, hext, hn, rfl, ?_, ?_, ?_, ?_⟩
      · simp [BoundWorkspaceNode.snapshot, Disk.snapshot, RelativePath.parts, hnone]
      · simp [BoundWorkspaceNode.identity, RelativePath.parts, hnone]
      · intro e he
        rw [RelativePath.parts, hnone] at he
        cases he
      · intro m' hm'
        cases hm.symm.trans hm'
        exact ⟨hsuffix, hmissing⟩
    | some parent =>
      have hn' : ¬t.Obstructed path.parent := by rwa [hext.obstructed]
      refine Settles.bind ((captureChild_spec ht hres hn' path.name).mono
        (fun _ _ hr => hr) ?_) ?_
      · rintro fault u ⟨rfl, e, he, hc⟩
        rw [hext.disk] at he
        exact ⟨ht, hext, Or.inr ⟨e, he, hc⟩⟩
      · rintro observed u ⟨rfl, hcap, hsnap, hid⟩
        rw [hext.disk] at hcap hsnap hid
        exact ⟨ht, hext, hn, rfl, hsnap, hid, hcap, fun m hm => by cases hm⟩

private theorem assertBound_spec (hb : Bound d path b) (h : s.Sound)
    (hp : s.pins.get? path.parent = some parent) :
    Settles
      (fun _ t => t = s ∧ b.identity = (s.disk.lstat path.parts).map Entry.identity)
      (fun _ t => t = s ∧ b.identity ≠ (s.disk.lstat path.parts).map Entry.identity)
      (assertBound parent b s) := by
  have hpath := h.path _ _ hp
  have hchild : lstatChild s.disk parent b.relative.name = s.disk.lstat path.parts := by
    rw [lstatChild, hpath, hb.relative, RelativePath.parts]
  cases hl : s.disk.lstat path.parts with
  | none =>
    rcases hb.observed with ⟨ho, _⟩ | ⟨e, u, _, _, ho⟩
    · simp [assertBound, inspect, assertChildIdentity, hchild, hl, BoundWorkspaceNode.identity,
        ho, Settles]
    · simp [assertBound, inspect, assertChildIdentity, hchild, hl, BoundWorkspaceNode.identity,
        ho, Settles]
  | some current =>
    rcases hb.observed with ⟨ho, _⟩ | ⟨e, u, _, hu, ho⟩
    · simp [assertBound, inspect, assertChildIdentity, hchild, hl, BoundWorkspaceNode.identity,
        ho, Settles]
    · by_cases hid : current.identity = e.identity
      · have hlink : current.isLinkOrReparse = true → b.allowReparse = true := by
          intro hcur
          have he : e.isLinkOrReparse = true := by
            have := congrArg FileIdentity.reparse hid
            simpa [Entry.identity, hcur] using this.symm
          simp only [Entry.isLinkOrReparse, decide_eq_true_eq,
            Entry.snapshot?_fileType hu] at he
          cases ht : u.nodeType <;> simp [ht, FileNodeType.fileType] at he
          simp [BoundWorkspaceNode.allowReparse, BoundWorkspaceNode.snapshot, ho, ht]
        cases hcur : current.isLinkOrReparse with
        | true =>
          simp [assertBound, inspect, assertChildIdentity, hchild, hl,
            BoundWorkspaceNode.identity, ho, hid, hcur, hlink hcur, Settles]
        | false =>
          simp [assertBound, inspect, assertChildIdentity, hchild, hl,
            BoundWorkspaceNode.identity, ho, hid, hcur, Settles]
      · simp [assertBound, inspect, assertChildIdentity, hchild, hl,
          BoundWorkspaceNode.identity, ho, hid, Ne.symm hid, Settles]

/-- The bound obstacle is gone, or a node of the desired type is left in place. -/
structure Cleared (s t : TreeState) (path : RelativePath)
    (desired current : Option NodeSnapshot) : Prop where
  sound : t.Sound
  pins : ∀ q, ¬path.parts <:+ q → t.pins.get? q = s.pins.get? q
  linkMode : t.disk.linkMode = s.disk.linkMode
  elsewhere : ∀ q, q ≠ path.parts → t.disk.lstat q = s.disk.lstat q
  created : ∀ q, q ∈ s.created → ¬path.parts <:+ q → q ∈ t.created
  detached : ∀ q, t.Detached q → s.Detached q
  outcome : match current with
    | none => t.disk.lstat path.parts = none
    | some c => t = s ∧ mustRemove c desired = false ∧
        ∃ e, s.disk.lstat path.parts = some e ∧ e.node.fileType = c.nodeType.fileType

private theorem sound_remove (h : s.Sound) (hc : ¬s.disk.tree.HasChild (path.name :: path.parent))
    (hfree : s.pins.get? path.parts = none) :
    Sound { s with disk := { s.disk with
      tree := s.disk.tree.remove path.name path.parent hc } } := by
  refine h.withDisk fun p pin e hp he => ⟨e, ?_, ?_, rfl⟩
  · have hne : p ≠ path.parts := by
      rintro rfl
      rw [hfree] at hp
      cases hp
    exact ((s.disk.tree.get?_remove _ _ hc p).trans (if_neg hne)).trans he
  · obtain ⟨e', he', hd, _⟩ := h.identity p pin hp
    exact (Option.some.inj (he.symm.trans he')) ▸ hd

private theorem cleared_remove {t : TreeState} (ht : t.Sound) (hdisk : t.disk = s.disk)
    (hc : ¬s.disk.tree.HasChild (path.name :: path.parent))
    (hfree : t.pins.get? path.parts = none)
    (hpins : ∀ q, ¬path.parts <:+ q → t.pins.get? q = s.pins.get? q)
    (hcreated : ∀ q, q ∈ s.created → ¬path.parts <:+ q → q ∈ t.created)
    (hdetached : ∀ q, t.Detached q → s.Detached q) :
    Cleared s { t with disk := { s.disk with
      tree := s.disk.tree.remove path.name path.parent hc } } path desired none := by
  have hsound := sound_remove (s := { t with disk := s.disk }) (hdisk ▸ ht) hc hfree
  refine ⟨hsound, hpins, rfl, ?_, hcreated, hdetached, ?_⟩
  · intro q hq
    exact (s.disk.tree.get?_remove _ _ hc q).trans (if_neg hq)
  · exact (s.disk.tree.get?_remove _ _ hc _).trans (if_pos rfl)

/-- Clearing the way for a restore fails only at a directory that is not empty. -/
theorem removeObstacle_spec (hb : Bound d path b) (h : s.Sound)
    (hp : s.pins.get? path.parent = some parent)
    (hid : b.identity = (s.disk.lstat path.parts).map Entry.identity)
    (desired : Option NodeSnapshot) :
    Settles (fun current t => Cleared s t path desired current)
      (fun _ t => t.Sound ∧ t.disk = s.disk ∧ s.disk.tree.HasChild path.parts ∧
        ∀ u, desired = some u → u.nodeType ≠ .directory)
      (removeObstacle parent b desired s) := by
  have hpath := h.path _ _ hp
  rcases hb.observed with ⟨ho, _⟩ | ⟨e₀, u, _, hu, ho⟩
  · have hrun : removeObstacle parent b desired s = .ok none s := by
      simp [removeObstacle, BoundWorkspaceNode.snapshot, ho, Pure.pure, EStateM.pure]
    rw [hrun]
    refine ⟨h, fun _ _ => rfl, rfl, fun _ _ => rfl, fun _ hq _ => hq, fun _ hq => hq, ?_⟩
    simpa [BoundWorkspaceNode.identity, ho, eq_comm] using hid
  · cases hl : s.disk.lstat path.parts with
    | none => simp [BoundWorkspaceNode.identity, ho, hl] at hid
    | some e =>
      simp only [BoundWorkspaceNode.identity, ho, hl, Option.map_some, Option.some.injEq] at hid
      have htype : e.node.fileType = u.nodeType.fileType := by
        rw [← Entry.snapshot?_fileType hu]
        exact (congrArg FileIdentity.fileType hid).symm
      have hdir : e.isDirectory = decide (u.nodeType = .directory) := by
        rw [Entry.isDirectory, htype]
        cases u.nodeType <;> rfl
      by_cases hmust : mustRemove u desired = true
      · have hch : lstatChild s.disk parent path.name = some e := by
          rw [lstatChild, hpath]
          exact hl
        by_cases hdirectory : u.nodeType = .directory
        · have hnotdir : ∀ v, desired = some v → v.nodeType ≠ .directory := by
            rintro v rfl hv
            simp [mustRemove, hdirectory, hv] at hmust
          have hrel := h.release path.parts (List.cons_ne_nil _ _)
          have hdet := h.release_detached_iff path.parts
          have hgone : (s.release path.parts).pins.get? path.parts = none := by
            rw [get?_release, if_pos List.suffix_rfl]
          by_cases hc : s.disk.tree.HasChild (path.name :: path.parent)
          · have hrun : removeObstacle parent b desired s =
                .error (.osError "OSError") (s.release path.parts) := by
              simp [removeObstacle, BoundWorkspaceNode.snapshot, ho, hmust, hdirectory,
                releaseSubtree, onDisk, Disk.removeChild, hb.relative, hch, hdir, hpath, hc,
                Bind.bind, EStateM.bind, modify, modifyGet, MonadStateOf.modifyGet,
                run_modifyGet]
            rw [hrun]
            exact ⟨hrel, rfl, hc, hnotdir⟩
          · have hrun : removeObstacle parent b desired s =
                .ok none { s.release path.parts with disk := { s.disk with
                  tree := s.disk.tree.remove path.name path.parent hc } } := by
              simp [removeObstacle, BoundWorkspaceNode.snapshot, ho, hmust, hdirectory,
                releaseSubtree, onDisk, Disk.removeChild, hb.relative, hch, hdir, hpath, hc,
                Bind.bind, EStateM.bind, modify, modifyGet, MonadStateOf.modifyGet,
                run_modifyGet, Pure.pure, EStateM.pure]
            rw [hrun]
            refine cleared_remove (s := s) hrel rfl hc hgone ?_ ?_ (fun q hq => ((hdet q).mp hq).2)
            · intro q hq
              rw [get?_release, if_neg hq]
            · intro q hq hs
              have hb' : path.parts.isSuffixOf q = false :=
                Bool.eq_false_iff.mpr fun hb => hs (by simpa using hb)
              simp [release, hq, hb']
        · have hleaf : e.isDirectory = false := by simp [hdir, hdirectory]
          have hc : ¬s.disk.tree.HasChild (path.name :: path.parent) := by
            intro hc
            obtain ⟨n, v, hv⟩ := (s.disk.tree.hasChild_iff _).mp hc
            obtain ⟨w, hw, hwd⟩ := s.disk.tree.isBranch_parent hv
            have : w = e := Option.some.inj (hw.symm.trans hl)
            rw [this, hleaf] at hwd
            cases hwd
          have hrun : removeObstacle parent b desired s =
              .ok none { s with disk := { s.disk with
                tree := s.disk.tree.remove path.name path.parent hc } } := by
            simp [removeObstacle, BoundWorkspaceNode.snapshot, ho, hmust, hdirectory, onDisk,
              Disk.removeChild, hb.relative, hch, hleaf, hpath, hc, Bind.bind, EStateM.bind,
              Pure.pure, EStateM.pure]
          rw [hrun]
          refine cleared_remove h rfl hc ?_ (fun _ _ => rfl) (fun _ hq _ => hq)
            (fun _ hq => hq)
          cases hpin : s.pins.get? path.parts with
          | none => rfl
          | some pin =>
            obtain ⟨e', he', hd', _⟩ := h.identity _ _ hpin
            have : e' = e := Option.some.inj (he'.symm.trans hl)
            rw [this, hleaf] at hd'
            cases hd'
      · have hrun : removeObstacle parent b desired s = .ok (some u) s := by
          simp [removeObstacle, BoundWorkspaceNode.snapshot, ho, hmust, Pure.pure, EStateM.pure]
        rw [hrun]
        exact ⟨h, fun _ _ => rfl, rfl, fun _ _ => rfl, fun _ hq _ => hq, fun _ hq => hq, rfl,
          by simpa using hmust, e, hl, htype⟩

/-- The desired node is in place. -/
structure Placed (s t : TreeState) (path : RelativePath)
    (desired current : Option NodeSnapshot) : Prop where
  sound : t.Sound
  pins : ∀ q, q ≠ path.parts → t.pins.get? q = s.pins.get? q
  linkMode : t.disk.linkMode = s.disk.linkMode
  elsewhere : ∀ q, q ≠ path.parts → t.disk.lstat q = s.disk.lstat q
  placed : match desired with
    | none => t.disk.lstat path.parts = s.disk.lstat path.parts
    | some u => ∃ e, t.disk.lstat path.parts = some e ∧
        e.snapshot? t.disk.linkMode = some u ∧ e.Capturable
  created : ∀ q, q ∈ s.created → q ∈ t.created
  added : current = none → t.disk.IsDirectory path.parts → path.parts ∈ t.created ∨
    s.disk.IsDirectory path.parts
  detached : ∀ q, t.Detached q → s.Detached q ∨ (∃ c u, current = some c ∧ desired = some u ∧
    u.nodeType = .directory) ∧ q ≠ [] ∧ q.tail = path.parts
  attached : (∃ u, desired = some u ∧ u.nodeType = .directory) → ¬t.Detached path.parts

private theorem sound_leaf (h : s.Sound) (hleaf : ¬s.disk.IsDirectory path.parts)
    (hget : ∀ q, d.lstat q = if q = path.parts then some e else s.disk.lstat q) :
    Sound { s with disk := d } := by
  refine h.withDisk fun p pin e' hp he => ?_
  have hdir := h.isDirectory hp
  have hne : p ≠ path.parts := by
    rintro rfl
    exact hleaf hdir
  obtain ⟨e'', he'', hd⟩ := hdir
  have : e' = e'' := Option.some.inj (he.symm.trans he'')
  exact ⟨e', by rw [hget, if_neg hne, he], this ▸ hd, rfl⟩

private theorem placed_leaf (h : s.Sound) {u : NodeSnapshot} {current : Option NodeSnapshot}
    (hleaf : ¬s.disk.IsDirectory path.parts) (hlink : d.linkMode = s.disk.linkMode)
    (hget : ∀ q, d.lstat q = if q = path.parts then some e else s.disk.lstat q)
    (hu : e.snapshot? s.disk.linkMode = some u) (hc : e.Capturable)
    (hne : u.nodeType ≠ .directory) :
    Placed s { s with disk := d } path (some u) current := by
  have hself : d.lstat path.parts = some e := by rw [hget, if_pos rfl]
  refine ⟨sound_leaf h hleaf hget, fun _ _ => rfl, hlink, ?_, ⟨e, hself, hlink ▸ hu, hc⟩,
    fun _ hq => hq, ?_, fun _ hq => Or.inl hq, ?_⟩
  · intro q hq
    change d.lstat q = _
    rw [hget, if_neg hq]
  · rintro _ ⟨e', he', hd⟩
    have : e' = e := Option.some.inj (he'.symm.trans hself)
    rw [this, Entry.snapshot?_directory hu] at hd
    exact absurd (of_decide_eq_true hd) hne
  · rintro ⟨v, hv, ht⟩
    cases hv
    exact absurd ht hne

/-- Opening, pinning and changing the mode of a directory that is in place. -/
private theorem settle_directory (h : s.Sound) (hp : s.pins.get? path.parent = some parent)
    (he : s.disk.lstat path.parts = some e) (hd : e.isDirectory = true) (mode : Nat) :
    ∃ t : TreeState, (do
        let directory ← openDirectory parent path.name
        repin path.parts directory
        onDisk fun d => d.changeDirectoryMode directory mode : TreeM Unit) s = .ok () t ∧
      t.Sound ∧ t.created = s.created ∧ t.disk.linkMode = s.disk.linkMode ∧
      (∀ q, q ≠ path.parts → t.pins.get? q = s.pins.get? q) ∧
      (∀ q, t.disk.lstat q =
        if q = path.parts then some { e with node := .directory mode } else s.disk.lstat q) ∧
      ∀ q, t.Detached q ↔ q ≠ path.parts ∧ (s.Detached q ∨
        (∃ pin, s.pins.get? path.parts = some pin) ∧ (∃ pin, s.pins.get? q = some pin) ∧
          q ≠ [] ∧ q.tail = path.parts) := by
  have hpath := h.path _ _ hp
  let t : TreeState := TreeState.repin { s with opened := s.opened + 1 } path.parts
    (.child s.opened e.identity parent path.name)
  have hrep : s.Repinned t path.name path.parent parent e := by
    refine ⟨rfl, rfl, rfl, fun q => ?_⟩
    by_cases hq : q = path.name :: path.parent
    · subst hq
      exact (Dict.get?_set_self _ _ _).trans (if_pos rfl).symm
    · rw [if_neg hq]
      exact (Dict.get?_set_of_ne _ _ hq).trans (Dict.get?_erase_of_ne _ hq)
  have hsound := h.repinned hrep hp he hd
  have hdet := h.repinned_detached_iff hrep hp
  have hparent : s.disk.IsDirectory path.parent := h.isDirectory hp
  obtain ⟨d, hw, hlink, hget⟩ := s.disk.write_ok path.name
    { e with node := .directory mode } hparent (Or.inl rfl)
  have hid : Entry.identity { e with node := .directory mode } = e.identity :=
    (Entry.identity_of_directory rfl).trans (Entry.identity_of_directory hd).symm
  refine ⟨{ t with disk := d }, ?_, ?_, rfl, hlink, ?_, hget, hdet⟩
  · have hl : lstatChild s.disk parent path.name = some e := by
      rw [lstatChild, hpath]
      exact he
    have hmode : Disk.changeDirectoryMode s.disk (.child s.opened e.identity parent path.name)
        mode = .ok d := by
      have hpin : s.disk.lstat (path.name :: path.parent) = some e := he
      simp [Disk.changeDirectoryMode, DirectoryPin.path, hpath, hpin, hw]
    have hopen : directoryIdentity (some e) none = .ok e.identity := by
      have hft : e.node.fileType = .directory := by simpa [Entry.isDirectory] using hd
      simp [directoryIdentity, Entry.isLinkOrReparse, hft, hd]
    simp [openDirectory, repin, inspect, hl, hopen, onDisk, hmode, t, Bind.bind, EStateM.bind,
      get, getThe, MonadStateOf.get, run_get, set, run_set, modify, modifyGet,
      MonadStateOf.modifyGet, run_modifyGet, Pure.pure, EStateM.pure]
  · refine hsound.withDisk fun q pin e' hq he' => ?_
    obtain ⟨e'', he'', hd'', _⟩ := hsound.identity _ _ hq
    have : e' = e'' := Option.some.inj (he'.symm.trans he'')
    by_cases hqp : q = path.parts
    · subst hqp
      have : e' = e := Option.some.inj (he'.symm.trans he)
      exact ⟨_, (hget _).trans (if_pos rfl), rfl, this ▸ hid⟩
    · exact ⟨e', ((hget q).trans (if_neg hqp)).trans he', this ▸ hd'', rfl⟩
  · intro q hq
    exact (hrep.pins q).trans (if_neg hq)

/-- The way to a place is clear: nothing is there, or a node of the desired type was left. -/
def WayClear (s : TreeState) (path : RelativePath) (desired : Option NodeSnapshot) :
    Option NodeSnapshot → Prop
  | none => s.disk.lstat path.parts = none
  | some c => mustRemove c desired = false ∧
      ∃ e, s.disk.lstat path.parts = some e ∧ e.node.fileType = c.nodeType.fileType

section Placing

variable {s : TreeState} {path : RelativePath} {parent : DirectoryPin} {u : NodeSnapshot}
  {current : Option NodeSnapshot}

private theorem WayClear.not_isDirectory (h : WayClear s path (some u) current)
    (hne : u.nodeType ≠ .directory) : ¬s.disk.IsDirectory path.parts := by
  rintro ⟨e, he, hd⟩
  cases current with
  | none =>
    have hnone : s.disk.tree.get? path.parts = none := h
    rw [hnone] at he
    cases he
  | some c =>
    obtain ⟨hkeep, e', he', hft⟩ := h
    have : e = e' := Option.some.inj (he.symm.trans he')
    subst this
    have hcu : c.nodeType = u.nodeType := by
      simp only [mustRemove, Bool.or_eq_false_iff, decide_eq_false_iff_not, not_not] at hkeep
      exact hkeep.1
    rw [hcu] at hft
    have : FileNodeType.directory.fileType = u.nodeType.fileType :=
      (of_decide_eq_true hd).symm.trans hft
    exact hne (FileNodeType.fileType_injective this).symm

private theorem create_leaf (h : s.Sound) (hp : s.pins.get? path.parent = some parent)
    (hclear : WayClear s path (some u) current) (hne : u.nodeType ≠ .directory) (node : Node)
    (hsnap : Entry.snapshot? s.disk.linkMode
      ⟨node, parent.identity.device, s.disk.nextInode⟩ = some u)
    (hcap : Entry.Capturable ⟨node, parent.identity.device, s.disk.nextInode⟩) :
    ∃ d, s.disk.create parent.path path.name parent.identity.device node = .ok d ∧
      Placed s { s with disk := d } path (some u) current := by
  have hpath := h.path _ _ hp
  have hparent : s.disk.IsDirectory parent.path := hpath ▸ h.isDirectory hp
  have hl := hclear.not_isDirectory hne
  obtain ⟨d, hd, hlink, hget⟩ := s.disk.create_ok path.name
    parent.identity.device node hparent (Or.inr (by rw [hpath]; exact hl))
  rw [hpath] at hget
  exact ⟨d, hd, placed_leaf h hl hlink hget hsnap hcap hne⟩

variable {mode : Nat}

private theorem place_file (h : s.Sound) (hp : s.pins.get? path.parent = some parent)
    {bytes : Bytes}
    (hr : NodeSnapshot.Restorable s.disk.linkMode ⟨.file, some bytes, some mode⟩)
    (hclear : WayClear s path (some ⟨.file, some bytes, some mode⟩) current) :
    ∃ t, placeDesired parent path current (some ⟨.file, some bytes, some mode⟩) s = .ok () t ∧
      Placed s t path (some ⟨.file, some bytes, some mode⟩) current := by
  obtain ⟨d, hd, hplaced⟩ := create_leaf h hp hclear (by simp) (.file bytes mode 1) rfl
    ⟨rfl, hr.size rfl⟩
  refine ⟨_, ?_, hplaced⟩
  simp [placeDesired, onDisk, Disk.atomicReplaceChild, hd]

private theorem place_symlink (h : s.Sound) (hp : s.pins.get? path.parent = some parent)
    {bytes : Bytes}
    (hr : NodeSnapshot.Restorable s.disk.linkMode ⟨.symlink, some bytes, some mode⟩)
    (hclear : WayClear s path (some ⟨.symlink, some bytes, some mode⟩) current) :
    ∃ t, placeDesired parent path current (some ⟨.symlink, some bytes, some mode⟩) s = .ok () t ∧
      Placed s t path (some ⟨.symlink, some bytes, some mode⟩) current := by
  have hlink := hr.link rfl
  simp only at hlink
  obtain ⟨d, hd, hplaced⟩ := create_leaf h hp hclear (by simp) (.symlink bytes)
    (by simp [Entry.snapshot?, hlink]) trivial
  refine ⟨_, ?_, hplaced⟩
  have hnone : lstatChild s.disk parent path.name = none := by
    cases current with
    | none =>
      rw [lstatChild, h.path _ _ hp]
      exact hclear
    | some c => simp [WayClear, mustRemove] at hclear
  simp [placeDesired, onDisk, Disk.makeSymlinkChild, hnone, hd]

private theorem keep_directory (h : s.Sound) (hp : s.pins.get? path.parent = some parent)
    {c : NodeSnapshot}
    (hclear : WayClear s path (some ⟨.directory, none, some mode⟩) (some c)) :
    ∃ t, placeDesired parent path (some c) (some ⟨.directory, none, some mode⟩) s = .ok () t ∧
      Placed s t path (some ⟨.directory, none, some mode⟩) (some c) := by
  obtain ⟨hkeep, e, he, hft⟩ := hclear
  have hc : c.nodeType = .directory := by simpa [mustRemove] using hkeep
  have hd : e.isDirectory = true := by
    simp [Entry.isDirectory, hft, hc, FileNodeType.fileType]
  obtain ⟨t, hrun, ht, hcreated, hlink, hpins, hget, hdet⟩ := settle_directory h hp he hd mode
  refine ⟨t, ?_, ht, hpins, hlink, fun q hq => (hget q).trans (if_neg hq),
    ⟨_, (hget _).trans (if_pos rfl), rfl, trivial⟩, fun q hq => hcreated ▸ hq, ?_, ?_, ?_⟩
  · simpa [placeDesired] using hrun
  · rintro hn
    cases hn
  · intro q hq
    rcases ((hdet q).mp hq).2 with hd | ⟨_, _, hne, htail⟩
    · exact Or.inl hd
    · exact Or.inr ⟨⟨c, _, rfl, rfl, rfl⟩, hne, htail⟩
  · exact fun _ hq => ((hdet _).mp hq).1 rfl

/-- A directory that was not there is made, opened and gets the mode. -/
private theorem make_directory (h : s.Sound) (hp : s.pins.get? path.parent = some parent)
    (habsent : s.disk.lstat path.parts = none) :
    ∃ t, placeDesired parent path none (some ⟨.directory, none, some mode⟩) s = .ok () t ∧
      Placed s t path (some ⟨.directory, none, some mode⟩) none := by
  have hpath := h.path _ _ hp
  have hparent : s.disk.IsDirectory parent.path := hpath ▸ h.isDirectory hp
  have hnone : lstatChild s.disk parent path.name = none := by
    rw [lstatChild, hpath]
    exact habsent
  have hunpinned : ∀ pin, s.pins.get? path.parts ≠ some pin := by
    intro pin hpin
    obtain ⟨e, he, _⟩ := h.isDirectory hpin
    exact absurd (he.symm.trans habsent) (by simp)
  obtain ⟨d, hd, hlink, hget⟩ := s.disk.create_ok path.name parent.identity.device
    (.directory (s.disk.creationMode mode)) hparent (Or.inl rfl)
  rw [hpath] at hget
  let made : TreeState := { s with disk := d, created := path.parts :: s.created }
  have hmade : made.Sound := by
    refine (h.withDisk fun q pin e hq he => ?_).withCreated _
    have hne : q ≠ path.parts := by
      rintro rfl
      exact hunpinned _ hq
    obtain ⟨e', he', hd', _⟩ := h.identity _ _ hq
    have : e = e' := Option.some.inj (he.symm.trans he')
    exact ⟨e, ((hget q).trans (if_neg hne)).trans he, this ▸ hd', rfl⟩
  obtain ⟨t, hrun, ht, hcreated, hlink', hpins, hget', hdet⟩ :=
    settle_directory hmade hp ((hget path.parts).trans (if_pos rfl)) rfl mode
  refine ⟨t, ?_, ht, hpins, hlink'.trans hlink, ?_, ⟨_, (hget' _).trans (if_pos rfl),
    rfl, trivial⟩, ?_, ?_, ?_, ?_⟩
  · have hmkdir : Disk.makeDirectoryChild s.disk parent path.name (some mode) = .ok d := by
      simp [Disk.makeDirectoryChild, hnone, hd]
    simpa [placeDesired, onDisk, hmkdir, Bind.bind, EStateM.bind, modify, modifyGet,
      MonadStateOf.modifyGet, run_modifyGet] using hrun
  · intro q hq
    rw [hget', if_neg hq]
    exact (hget q).trans (if_neg hq)
  · exact fun q hq => hcreated ▸ List.mem_cons_of_mem _ hq
  · exact fun _ _ => Or.inl (hcreated ▸ List.mem_cons_self)
  · intro q hq
    rcases ((hdet q).mp hq).2 with hd | ⟨⟨pin, hpin⟩, _⟩
    · exact Or.inl hd
    · exact absurd hpin (hunpinned pin)
  · exact fun _ hq => ((hdet _).mp hq).1 rfl

private theorem content_of_leaf {content : Option Bytes} {type : FileNodeType} {mode : Option Nat}
    (h : NodeSnapshot.Formed ⟨type, content, mode⟩) (hne : type ≠ .directory) :
    ∃ bytes, content = some bytes := by
  cases content with
  | none => exact absurd (h.mp rfl) hne
  | some bytes => exact ⟨bytes, rfl⟩

end Placing

private theorem placeDesired_spec (desired current : Option NodeSnapshot) (h : s.Sound)
    (hp : s.pins.get? path.parent = some parent)
    (hu : ∀ u, desired = some u → u.Restorable s.disk.linkMode)
    (hclear : WayClear s path desired current) :
    ∃ t, placeDesired parent path current desired s = .ok () t ∧
      Placed s t path desired current := by
  cases desired with
  | none =>
    refine ⟨s, rfl, h, fun _ _ => rfl, rfl, fun _ _ => rfl, rfl, fun _ hq => hq,
      fun _ hd => Or.inr hd, fun _ hq => Or.inl hq, ?_⟩
    rintro ⟨u, hn, _⟩
    cases hn
  | some u =>
    have hr := hu u rfl
    obtain ⟨type, content, mode⟩ := u
    obtain ⟨mode, rfl⟩ := Option.isSome_iff_exists.mp hr.captured.mode
    cases type with
    | file =>
      obtain ⟨bytes, rfl⟩ := content_of_leaf hr.captured.content (by simp)
      exact place_file h hp hr hclear
    | symlink =>
      obtain ⟨bytes, rfl⟩ := content_of_leaf hr.captured.content (by simp)
      exact place_symlink h hp hr hclear
    | directory =>
      obtain rfl : content = none := hr.captured.content.mpr rfl
      cases current with
      | none => exact make_directory h hp hclear
      | some c => exact keep_directory h hp hclear

/-- Outcome of a completed restore. -/
structure Restored (s t : TreeState) (path : RelativePath) (desired : Option NodeSnapshot) :
    Prop where
  sound : t.Sound
  linkMode : t.disk.linkMode = s.disk.linkMode
  elsewhere : ∀ q, q ≠ path.parts → t.disk.lstat q = s.disk.lstat q
  absent : desired = none → t.disk.lstat path.parts = none
  snapshot : t.disk.snapshot path.parts = desired
  capturable : ∀ e, t.disk.lstat path.parts = some e → e.Capturable
  created : ∀ q, q ∈ s.created → t.disk.IsDirectory q → q ∈ t.created
  added : t.disk.IsDirectory path.parts → s.disk.IsDirectory path.parts ∨
    path.parts ∈ t.created
  detached : ∀ q, t.Detached q → q ≠ path.parts ∧ (s.Detached q ∨
    s.disk.IsDirectory path.parts ∧ (∃ u, desired = some u ∧ u.nodeType = .directory) ∧
      q ≠ [] ∧ q.tail = path.parts)

private theorem Restored.of_extends {t u : TreeState} (h : Restored t u path desired)
    (hext : s.Extends t) :
    Restored s u path desired := by
  refine ⟨h.sound, ?_, ?_, h.absent, h.snapshot, h.capturable, ?_, ?_, ?_⟩
  · rw [h.linkMode, hext.disk]
  · intro q hq
    rw [h.elsewhere q hq, hext.disk]
  · exact fun q hq => h.created q (hext.created ▸ hq)
  · exact fun hd => hext.disk ▸ h.added hd
  · intro q hq
    rw [← hext.detached, ← hext.disk]
    exact h.detached q hq

/-- Conditions under which a restore of a bound node goes through. -/
structure Ready (s : TreeState) (path : RelativePath) (b : BoundWorkspaceNode)
    (desired : Option NodeSnapshot) : Prop where
  walk : ¬s.Obstructed path.parent
  identity : b.identity = (s.disk.lstat path.parts).map Entry.identity
  missing : s.disk.IsDirectory path.parent → ∀ m, b.missingAncestor = some m → m ∈ s.created
  parent : s.disk.IsDirectory path.parent ∨ desired = none ∧ b.snapshot = none
  empty : (∃ u, desired = some u ∧ u.nodeType = .directory) ∨
    ¬s.disk.tree.HasChild path.parts

/-- A failed tree step leaves the disk as it was. -/
def Kept (s t : TreeState) : Prop := t.Sound ∧ t.disk = s.disk

private theorem verifyMissingAncestor_spec (b : BoundWorkspaceNode) (s : TreeState) :
    Settles (fun _ t => t = s ∧ ∀ m, b.missingAncestor = some m → m ∈ s.created)
      (fun _ t => t = s ∧ ¬∀ m, b.missingAncestor = some m → m ∈ s.created)
      (verifyMissingAncestor b s) := by
  cases hm : b.missingAncestor with
  | none => simp [verifyMissingAncestor, inspect, hm, Settles]
  | some m =>
    by_cases hc : m ∈ s.created <;> simp [verifyMissingAncestor, inspect, hm, hc, Settles]

private theorem Placed.restored {u v : TreeState} {current : Option NodeSnapshot} (hs : s.Sound)
    (hc : Cleared s u path desired current) (hp : Placed u v path desired current) :
    Restored s v path desired := by
  have habsent : desired = none → v.disk.lstat path.parts = none := by
    rintro rfl
    have hplaced := hp.placed
    have hout := hc.outcome
    cases current with
    | none => exact hplaced.trans hout
    | some c => simp [mustRemove] at hout
  have hsnap : v.disk.snapshot path.parts = desired := by
    cases desired with
    | none => simp [Disk.snapshot, habsent rfl]
    | some w =>
      obtain ⟨e, he, hw, _⟩ := hp.placed
      simp [Disk.snapshot, he, hw]
  have hdirectory : v.disk.IsDirectory path.parts →
      ∃ w, desired = some w ∧ w.nodeType = .directory := by
    rintro ⟨e, he, hd⟩
    have he' : v.disk.lstat path.parts = some e := he
    cases desired with
    | none =>
      rw [habsent rfl] at he'
      cases he'
    | some w =>
      obtain ⟨e', he'', hw, _⟩ := hp.placed
      have : e = e' := Option.some.inj (he'.symm.trans he'')
      rw [this, Entry.snapshot?_directory hw] at hd
      exact ⟨w, rfl, of_decide_eq_true hd⟩
  refine ⟨hp.sound, hp.linkMode.trans hc.linkMode,
    fun q hq => (hp.elsewhere q hq).trans (hc.elsewhere q hq), habsent, hsnap, ?_, ?_, ?_, ?_⟩
  · intro e he
    cases desired with
    | none =>
      rw [habsent rfl] at he
      cases he
    | some w =>
      obtain ⟨e', he', _, hcap⟩ := hp.placed
      exact Option.some.inj (he'.symm.trans he) ▸ hcap
  · intro q hq hdir
    cases current with
    | some c =>
      obtain ⟨rfl, _⟩ := hc.outcome
      exact hp.created q hq
    | none =>
      by_cases hsuffix : path.parts <:+ q
      · by_cases hqp : q = path.parts
        · subst hqp
          rcases hp.added rfl hdir with ha | ⟨e, he, _⟩
          · exact ha
          · have hout : u.disk.lstat path.parts = none := hc.outcome
            exact absurd (he.symm.trans hout) (by simp)
        · have hout : u.disk.lstat path.parts = none := hc.outcome
          have hbelow : u.disk.tree.get? q = none := by
            refine u.disk.tree.get?_below_eq_none ?_ hsuffix (Ne.symm hqp)
            rintro ⟨e, he, _⟩
            exact absurd (he.symm.trans hout) (by simp)
          obtain ⟨e, he, _⟩ := hdir
          exact absurd (he.symm.trans ((hp.elsewhere q hqp).trans hbelow)) (by simp)
      · exact hp.created q (hc.created q hq hsuffix)
  · intro hdir
    cases current with
    | none =>
      rcases hp.added rfl hdir with ha | ⟨e, he, _⟩
      · exact Or.inr ha
      · have hout : u.disk.lstat path.parts = none := hc.outcome
        exact absurd (he.symm.trans hout) (by simp)
    | some c =>
      obtain ⟨_, hkeep, e, he, hft⟩ := hc.outcome
      obtain ⟨w, rfl, hw⟩ := hdirectory hdir
      refine Or.inl ⟨e, he, ?_⟩
      have hcw : c.nodeType = .directory := by
        simp only [mustRemove, Bool.or_eq_false_iff, decide_eq_false_iff_not, not_not] at hkeep
        exact hkeep.1.trans hw
      rw [Entry.isDirectory, hft, hcw]
      rfl
  · intro q hq
    constructor
    · rintro rfl
      exact hp.attached (hdirectory (hq.isDirectory hp.sound)) hq
    · rcases hp.detached q hq with hd | ⟨⟨c, w, rfl, hdes, hw⟩, hne, htail⟩
      · exact Or.inl (hc.detached q hd)
      · obtain ⟨_, hkeep, e, he, hft⟩ := hc.outcome
        refine Or.inr ⟨⟨e, he, ?_⟩, ⟨w, hdes, hw⟩, hne, htail⟩
        have hcw : c.nodeType = .directory := by
          simp only [hdes, mustRemove, Bool.or_eq_false_iff, decide_eq_false_iff_not, not_not]
            at hkeep
          exact hkeep.1.trans hw
        rw [Entry.isDirectory, hft, hcw]
        rfl

private theorem not_obstructed_after {u v : TreeState}
    {current : Option NodeSnapshot} (hn : ¬s.Obstructed path.parent)
    (hc : Cleared s u path desired current) (hp : Placed u v path desired current) :
    ¬v.Obstructed path.parent := by
  rintro ⟨q, hq, hs⟩
  have hlen := hq.length_le
  have hshort : q ≠ path.parts := by
    rintro rfl
    simp only [RelativePath.parts, List.length_cons] at hlen
    omega
  rcases hs with hd | ⟨e, he, hleaf⟩
  · rcases hp.detached q hd with hd | ⟨_, _, htail⟩
    · exact hn ⟨q, hq, Or.inl (hc.detached q hd)⟩
    · have := congrArg List.length htail
      simp [RelativePath.parts] at this
      omega
  · rw [hp.elsewhere q hshort, hc.elsewhere q hshort] at he
    exact hn ⟨q, hq, Or.inr ⟨e, he, hleaf⟩⟩

/-- A restore either completes, or fails without touching the disk because it is not ready. -/
theorem restore_spec (hb : Bound d path b) (h : s.Sound)
    (hu : ∀ u, desired = some u → u.Restorable s.disk.linkMode) :
    Settles (fun r t => r = desired ∧ Restored s t path desired)
      (fun _ t => Kept s t ∧ ¬Ready s path b desired) (restore b desired s) := by
  refine Settles.bind (R := Walked s path.parent) ?_ ?_
  · rw [hb.relative]
    exact (openParent_spec h path.parent).mono (fun _ _ hr => hr)
      (fun _ _ ⟨ht, hext, ho⟩ => ⟨⟨ht, hext.disk⟩, fun hr => hr.walk ho⟩)
  rintro ⟨parent, missing⟩ t ⟨ht, hext, hn, hres⟩
  cases parent with
  | none =>
    obtain ⟨habsent, _⟩ := hres
    have hnone := lstat_below_missing habsent path.name
    by_cases hboth : desired = none ∧ b.snapshot = none
    · obtain ⟨rfl, hsnap⟩ := hboth
      have hrestored : Restored s t path none := by
        have hl : t.disk.lstat path.parts = none := by
          rw [hext.disk]
          exact hnone
        refine ⟨ht, by rw [hext.disk], fun q _ => by rw [hext.disk], fun _ => hl, ?_, ?_, ?_, ?_,
          ?_⟩
        · simp [Disk.snapshot, hl]
        · intro e he
          rw [hl] at he
          cases he
        · exact fun q hq _ => hext.created ▸ hq
        · exact fun hd => Or.inl (hext.disk ▸ hd)
        · intro q hq
          refine ⟨?_, Or.inl ((hext.detached q).mp hq)⟩
          rintro rfl
          obtain ⟨e, he, _⟩ := hq.isDirectory ht
          exact absurd (he.symm.trans hl) (by simp)
      simpa [hsnap, Pure.pure, EStateM.pure, Settles] using hrestored
    · have hthrow : (desired.isNone && b.snapshot.isNone) = false := by
        cases desired <;> cases hs : b.snapshot <;> simp_all
      have herr : Kept s t ∧ ¬Ready s path b desired := by
        refine ⟨⟨ht, hext.disk⟩, fun hr => ?_⟩
        rcases hr.parent with ⟨e, he, _⟩ | hd
        · exact absurd (he.symm.trans habsent) (by simp)
        · exact hboth hd
      simpa [hthrow, throw, throwThe, MonadExceptOf.throw, run_throw, Settles] using herr
  | some parent =>
    have hn' : ¬t.Obstructed path.parent := by rwa [hext.obstructed]
    have hdir : s.disk.IsDirectory path.parent := hext.disk ▸ ht.isDirectory hres
    refine Settles.bind ((verifyMissingAncestor_spec b t).mono (fun _ _ hr => hr) ?_) ?_
    · rintro _ _ ⟨rfl, hm⟩
      exact ⟨⟨ht, hext.disk⟩, fun hr => hm (hext.created ▸ hr.missing hdir)⟩
    rintro _ t ⟨rfl, hmissing⟩
    have hv := ht.verifyReachable_ok hres hn'
    refine Settles.bind (R := fun _ u => u = t) ?_ ?_
    · simp [verifyReachable, inspect, hv, Settles]
    rintro _ t rfl
    refine Settles.bind ((assertBound_spec hb ht hres).mono (fun _ _ hr => hr) ?_) ?_
    · rintro _ t ⟨rfl, hid⟩
      refine ⟨⟨ht, hext.disk⟩, fun hr => hid ?_⟩
      rw [hext.disk]
      exact hr.identity
    rintro _ t ⟨rfl, hid⟩
    refine Settles.bind ((removeObstacle_spec hb ht hres hid desired).mono
      (fun _ _ hr => hr) ?_) ?_
    · rintro _ u ⟨hu', hdisk, hchild, hnotdir⟩
      refine ⟨⟨hu', hdisk.trans hext.disk⟩, fun hr => ?_⟩
      rcases hr.empty with ⟨w, hw, hwd⟩ | hempty
      · exact hnotdir w hw hwd
      · exact hempty (hext.disk ▸ hchild)
    intro current u hcleared
    have hnotbelow : ¬path.parts <:+ path.parent := by
      intro hs
      have hlen := hs.length_le
      simp only [RelativePath.parts, List.length_cons] at hlen
      omega
    have hpin : u.pins.get? path.parent = some parent :=
      (hcleared.pins _ hnotbelow).trans hres
    obtain ⟨v, hrun, hplaced⟩ := placeDesired_spec desired current hcleared.sound hpin
      (by rw [hcleared.linkMode, hext.disk]; exact hu) (by
        have hout := hcleared.outcome
        cases current with
        | none => exact hout
        | some c =>
          obtain ⟨rfl, hout⟩ := hout
          exact hout)
    refine Settles.bind (R := fun _ w => w = v) ?_ ?_
    · rw [hb.relative, hrun]
      rfl
    rintro _ v rfl
    have hv' := not_obstructed_after hn' hcleared hplaced
    have hpin' : v.pins.get? path.parent = some parent :=
      (hplaced.pins _ fun he => hnotbelow (he ▸ List.suffix_rfl)).trans hpin
    have hrestored := (hplaced.restored ht hcleared).of_extends hext
    rw [hb.relative]
    refine Settles.bind ((captureChild_spec hplaced.sound hpin' hv' path.name).mono
      (fun _ _ hr => hr) ?_) ?_
    · rintro _ v ⟨rfl, e, he, hc⟩
      exact absurd (hrestored.capturable e he) hc
    · rintro observed v ⟨rfl, _, hsnap, _⟩
      exact ⟨hsnap.trans hrestored.snapshot, hrestored⟩

/-- Conditions under which a bound node can be captured again. -/
structure Recheckable (s : TreeState) (path : RelativePath) (b : BoundWorkspaceNode) : Prop where
  walk : ¬s.Obstructed path.parent
  identity : b.identity = (s.disk.lstat path.parts).map Entry.identity
  missing : s.disk.IsDirectory path.parent → ∀ m, b.missingAncestor = some m → m ∈ s.created
  capturable : ∀ e, s.disk.lstat path.parts = some e → e.Capturable

/-- A second capture reports the node that is there, or fails because it was replaced. -/
theorem capture_spec (hb : Bound d path b) (h : s.Sound) :
    Settles (fun r t => t.Sound ∧ s.Extends t ∧ r = s.disk.snapshot path.parts)
      (fun _ t => t.Sound ∧ s.Extends t ∧ ¬Recheckable s path b) (capture b s) := by
  refine Settles.bind (R := Walked s path.parent) ?_ ?_
  · rw [hb.relative]
    exact (openParent_spec h path.parent).mono (fun _ _ hr => hr)
      (fun _ _ ⟨ht, hext, ho⟩ => ⟨ht, hext, fun hr => hr.walk ho⟩)
  rintro ⟨parent, missing⟩ t ⟨ht, hext, hn, hres⟩
  cases parent with
  | none =>
    obtain ⟨habsent, _⟩ := hres
    have hnone : s.disk.lstat path.parts = none := lstat_below_missing habsent path.name
    cases hid : b.identity with
    | none =>
      simpa [hid, Pure.pure, EStateM.pure, Settles, Disk.snapshot, hnone] using
        And.intro ht hext
    | some i =>
      have herr : t.Sound ∧ s.Extends t ∧ ¬Recheckable s path b := by
        refine ⟨ht, hext, fun hr => ?_⟩
        have := hr.identity
        simp [hid, hnone] at this
      simpa [hid, throw, throwThe, MonadExceptOf.throw, run_throw, Settles] using herr
  | some parent =>
    have hn' : ¬t.Obstructed path.parent := by rwa [hext.obstructed]
    have hdir : s.disk.IsDirectory path.parent := hext.disk ▸ ht.isDirectory hres
    refine Settles.bind ((verifyMissingAncestor_spec b t).mono (fun _ _ hr => hr) ?_) ?_
    · rintro _ _ ⟨rfl, hm⟩
      exact ⟨ht, hext, fun hr => hm (hext.created ▸ hr.missing hdir)⟩
    rintro _ t ⟨rfl, hmissing⟩
    refine Settles.bind ((assertBound_spec hb ht hres).mono (fun _ _ hr => hr) ?_) ?_
    · rintro _ t ⟨rfl, hid⟩
      refine ⟨ht, hext, fun hr => hid ?_⟩
      rw [hext.disk]
      exact hr.identity
    rintro _ t ⟨rfl, hid⟩
    rw [hb.relative]
    refine Settles.bind ((captureChild_spec ht hres hn' path.name).mono (fun _ _ hr => hr) ?_) ?_
    · rintro _ t ⟨rfl, e, he, hc⟩
      exact ⟨ht, hext, fun hr => hc (hr.capturable e (hext.disk ▸ he))⟩
    · rintro observed t ⟨rfl, _, hsnap, _⟩
      exact ⟨ht, hext, hext.disk ▸ hsnap⟩

end WorkspaceTreeTransaction

end AwesomeAgent
