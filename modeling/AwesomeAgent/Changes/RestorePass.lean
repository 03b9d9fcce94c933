import AwesomeAgent.Changes.Restore

/-!
# Passes of restores

A pass binds a list of paths and then brings them into their target state one
after the other. Whether a pass goes through depends on the paths and the types
of the nodes only: the workspace has to be a tree after every step, and no step
may need a directory whose parent was restored over itself since it was pinned.
-/

namespace AwesomeAgent

open TreeState WorkspaceTreeTransaction

/-- One step of a pass: the kind of the node before and after. A path that is only
captured is not restored. -/
structure PathStep where
  path : RelativePath
  start : Option Bool
  target : Option Bool
  restored : Bool
  deriving DecidableEq, Repr

/-- What a step does to the outline of the workspace. -/
def PathStep.change (x : PathStep) : NodePath × Option Bool := (x.path.parts, x.target)

/-- The outline after some steps of a pass. -/
def outlineAfter (o : Outline String) (done : List PathStep) : Outline String :=
  o.overlay (done.map PathStep.change)

/-- One more step changes the outline at its path. -/
theorem outlineAfter_snoc (o : Outline String) (done : List PathStep) (x : PathStep) :
    outlineAfter o (done ++ [x]) =
      Function.update (outlineAfter o done) x.path.parts x.target := by
  rw [outlineAfter, List.map_append, List.map_singleton, Outline.overlay_snoc]
  rfl

/-- Directories that a step restores over themselves get a new pin. -/
def PathStep.repins (x : PathStep) : Prop := x.start = some true ∧ x.target = some true

instance (x : PathStep) : Decidable x.repins :=
  inferInstanceAs (Decidable (_ ∧ _))

/-- A step attaches its own directory and severs the children of a directory it repins. -/
def PathStep.sever (x : PathStep) (severed : NodePath → Prop) (e : NodePath) : Prop :=
  if x.restored = true then
    e ≠ x.path.parts ∧ (severed e ∨ x.repins ∧ e ≠ [] ∧ e.tail = x.path.parts)
  else severed e

/-- Directories whose parent got a new pin after they were pinned themselves. -/
def Severed (done : List PathStep) : NodePath → Prop :=
  done.foldl (fun severed x => x.sever severed) fun _ => False

/-- Nothing is severed before the first step. -/
@[simp] theorem severed_nil (e : NodePath) : Severed [] e ↔ False := Iff.rfl

/-- The last step severs on top of the others. -/
theorem severed_snoc (done : List PathStep) (x : PathStep) (e : NodePath) :
    Severed (done ++ [x]) e ↔ x.sever (Severed done) e := by
  simp [Severed]

/-- Conditions under which one step of a pass goes through. -/
structure StepSafe (o : Outline String) (done : List PathStep) (x : PathStep) : Prop where
  clear : ∀ q, q <:+ x.path.parent → outlineAfter o done q ≠ some false
  rooted : (outlineAfter o (done ++ [x])).Rooted
  attached : ∀ q, q <:+ x.path.parent → ¬Severed done q

/-- No path of the pass lies below a node that is not a directory. -/
def Bindable (o : Outline String) (steps : List PathStep) : Prop :=
  ∀ x ∈ steps, ∀ q, q <:+ x.path.parent → o q ≠ some false

/-- Conditions under which a whole pass goes through. -/
structure SafePass (o : Outline String) (steps : List PathStep) : Prop where
  bindable : Bindable o steps
  step : ∀ done x todo, steps = done ++ x :: todo → StepSafe o done x

/-- The kind of a node state in an outline. -/
def outlineOf (state : Option NodeSnapshot) : Option Bool :=
  state.map fun u => decide (u.nodeType = .directory)

/-- One path of a pass with its state before and after. -/
structure PassItem where
  path : RelativePath
  start : Option NodeSnapshot
  target : Option NodeSnapshot
  restored : Bool
  deriving DecidableEq, Repr

/-- The kinds of an item. -/
def PassItem.step (x : PassItem) : PathStep :=
  ⟨x.path, outlineOf x.start, outlineOf x.target, x.restored⟩

/-- The outline of a disk. -/
def Disk.outline (d : Disk) : Outline String := d.tree.outline

variable {d : Disk} {p : NodePath} {done : List PassItem} {s : TreeState} {x : PassItem}
  {b : BoundWorkspaceNode}

/-- The outline of a node tells whether it is a directory. -/
theorem Disk.outline_of_lstat {e : Entry} (h : d.lstat p = some e) :
    d.outline p = some e.isDirectory := by
  have h' : d.tree.get? p = some e := h
  simp [outline, Hierarchy.outline, h']

private theorem Disk.outline_eq_none :
    d.outline p = none ↔ d.lstat p = none :=
  d.tree.outline_eq_none_iff p

/-- The outline tells the directories. -/
theorem Disk.outline_eq_true :
    d.outline p = some true ↔ d.IsDirectory p :=
  d.tree.outline_eq_true_iff p

/-- A captured path has the outline of its snapshot. -/
theorem Disk.outline_of_capturable
    (h : ∀ e, d.lstat p = some e → e.Capturable) : d.outline p = outlineOf (d.snapshot p) := by
  cases he : d.lstat p with
  | none => simp [Disk.outline_eq_none.2 he, Disk.snapshot, he, outlineOf]
  | some e =>
    obtain ⟨s, hs, _⟩ := captureNode_of_capturable d.linkMode (h e he)
    simp [Disk.outline_of_lstat he, Disk.snapshot, he, hs, outlineOf,
      Entry.snapshot?_directory hs]

/-- The state of a pass after some of its items, started from the disk `d`. -/
structure PassState (d : Disk) (done : List PassItem) (s : TreeState) : Prop where
  sound : s.Sound
  linkMode : s.disk.linkMode = d.linkMode
  untouched : ∀ q, (∀ x ∈ done, x.path.parts ≠ q) → s.disk.lstat q = d.lstat q
  settled : ∀ x ∈ done, s.disk.snapshot x.path.parts = x.target ∧
    ∀ e, s.disk.lstat x.path.parts = some e → e.Capturable

/-- The outline of the disk follows the items that are done. -/
theorem PassState.outline (h : PassState d done s) (hn : (done.map PassItem.path).Nodup) :
    s.disk.outline = outlineAfter d.outline (done.map PassItem.step) := by
  have hnodup : (((done.map PassItem.step).map PathStep.change).map Prod.fst).Nodup := by
    have hmap : ((done.map PassItem.step).map PathStep.change).map Prod.fst =
        (done.map PassItem.path).map RelativePath.parts := by
      simp [PassItem.step, PathStep.change]
    rw [hmap]
    exact hn.map fun _ _ => RelativePath.parts_injective
  funext q
  by_cases hq : ∃ x ∈ done, x.path.parts = q
  · obtain ⟨x, hx, rfl⟩ := hq
    obtain ⟨hsnap, hcap⟩ := h.settled x hx
    rw [Disk.outline_of_capturable hcap, hsnap]
    exact (Outline.overlay_of_mem d.outline hnodup
      (List.mem_map_of_mem (List.mem_map_of_mem hx))).symm
  · have hq' : ∀ x ∈ done, x.path.parts ≠ q := fun x hx he => hq ⟨x, hx, he⟩
    have houtside : ∀ c ∈ (done.map PassItem.step).map PathStep.change, c.1 ≠ q := by
      intro c hc
      obtain ⟨x, hx, rfl⟩ := List.mem_map.mp hc
      obtain ⟨y, hy, rfl⟩ := List.mem_map.mp hx
      exact hq' y hy
    rw [outlineAfter, Outline.overlay_of_not_mem _ houtside]
    simp only [Disk.outline, Hierarchy.outline]
    exact congrArg (Option.map Entry.isDirectory) (h.untouched q hq')

/-- The transaction-side facts that a safe pass keeps besides the disk. -/
structure PassPins (d : Disk) (done : List PassItem) (s : TreeState) : Prop where
  created : ∀ q, d.lstat q = none → s.disk.IsDirectory q → q ∈ s.created
  detached : ∀ q, s.Detached q → Severed (done.map PassItem.step) q

/-- Item `x` was bound on the disk `d` to the node `b`. -/
structure ItemBound (d : Disk) (x : PassItem) (b : BoundWorkspaceNode) : Prop where
  bound : Bound d x.path b
  start : x.start = d.snapshot x.path.parts
  target : ∀ u, x.target = some u → u.Restorable d.linkMode

private theorem PassState.of_extends {t : TreeState}
    (h : PassState d done s) (ht : t.Sound) (hdisk : t.disk = s.disk) : PassState d done t :=
  ⟨ht, hdisk ▸ h.linkMode, hdisk ▸ h.untouched, hdisk ▸ h.settled⟩

private theorem PassPins.of_extends {t : TreeState}
    (h : PassPins d done s) (hext : s.Extends t) : PassPins d done t :=
  ⟨fun q hq hd => hext.created ▸ h.created q hq (hext.disk ▸ hd),
    fun q hq => h.detached q ((hext.detached q).mp hq)⟩

private theorem parts_ne_of_not_mem
    (hx : x.path ∉ done.map PassItem.path) : ∀ y ∈ done, y.path.parts ≠ x.path.parts :=
  fun _ hy he => hx (RelativePath.parts_injective he ▸ List.mem_map_of_mem hy)

private theorem PassState.snoc {t : TreeState}
    (h : PassState d done s) (hx : x.path ∉ done.map PassItem.path)
    (hr : Restored s t x.path x.target) : PassState d (done ++ [x]) t := by
  refine ⟨hr.sound, hr.linkMode.trans h.linkMode, ?_, ?_⟩
  · intro q hq
    have hne : q ≠ x.path.parts := fun he => hq x (by simp) he.symm
    rw [hr.elsewhere q hne]
    exact h.untouched q fun y hy => hq y (by simp [hy])
  · intro y hy
    rcases List.mem_append.mp hy with hy | hy
    · have hne : y.path.parts ≠ x.path.parts := parts_ne_of_not_mem hx y hy
      have hl := hr.elsewhere _ hne
      obtain ⟨hsnap, hcap⟩ := h.settled y hy
      refine ⟨?_, fun e he => hcap e (hl ▸ he)⟩
      rw [Disk.snapshot, hl, hr.linkMode]
      exact hsnap
    · rw [List.mem_singleton.mp hy]
      exact ⟨hr.snapshot, hr.capturable⟩

/-- One restore of a pass either completes its item or leaves the pass where it was. -/
theorem restore_mixed (h : PassState d done s) (hx : x.path ∉ done.map PassItem.path)
    (hb : ItemBound d x b) :
    Settles (fun r t => r = x.target ∧ PassState d (done ++ [x]) t)
      (fun _ t => PassState d done t) (restore b x.target s) :=
  (restore_spec hb.bound h.sound (h.linkMode ▸ hb.target)).mono
    (fun _ _ ⟨hr, ht⟩ => ⟨hr, h.snoc hx ht⟩) (fun _ _ ⟨hk, _⟩ => h.of_extends hk.1 hk.2)

private theorem identity_kept (h : PassState d done s)
    (hx : x.path ∉ done.map PassItem.path) (hb : ItemBound d x b) :
    s.disk.lstat x.path.parts = d.lstat x.path.parts ∧
      b.identity = (s.disk.lstat x.path.parts).map Entry.identity := by
  have hl := h.untouched _ (parts_ne_of_not_mem hx)
  exact ⟨hl, hl ▸ hb.bound.identity⟩

private theorem walk_free
    (h : PassState d done s) (hp : PassPins d done s) (hn : (done.map PassItem.path).Nodup)
    (hs : StepSafe d.outline (done.map PassItem.step) x.step) : ¬s.Obstructed x.path.parent := by
  rintro ⟨q, hq, hd | ⟨e, he, hleaf⟩⟩
  · exact hs.attached q hq (hp.detached q hd)
  · refine hs.clear q hq ?_
    rw [← h.outline hn, Disk.outline_of_lstat he, hleaf]

private theorem missing_created (hp : PassPins d done s) (hb : ItemBound d x b)
    (hdir : s.disk.IsDirectory x.path.parent) :
    ∀ m, b.missingAncestor = some m → m ∈ s.created := by
  intro m hm
  obtain ⟨hsuffix, hnone⟩ := hb.bound.missing m hm
  refine hp.created m hnone ?_
  by_cases he : m = x.path.parent
  · exact he ▸ hdir
  · obtain ⟨e, he', _⟩ := hdir
    exact s.disk.tree.isBranch_of_suffix he' hsuffix he

/-- Capturing an item that is not done reports its start. -/
theorem capture_safe (h : PassState d done s) (hp : PassPins d done s)
    (hn : (done.map PassItem.path).Nodup) (hx : x.path ∉ done.map PassItem.path)
    (hb : ItemBound d x b) (hs : StepSafe d.outline (done.map PassItem.step) x.step) :
    ∃ t, capture b s = .ok x.start t ∧ PassState d done t ∧ PassPins d done t := by
  obtain ⟨hl, hid⟩ := identity_kept h hx hb
  have hready : Recheckable s x.path b :=
    ⟨walk_free h hp hn hs, hid, fun hdir => missing_created hp hb hdir,
      fun e he => hb.bound.capturable e (hl ▸ he)⟩
  have hspec := capture_spec hb.bound h.sound
  cases hr : capture b s with
  | error fault t =>
    rw [hr] at hspec
    exact absurd hready hspec.2.2
  | ok r t =>
    rw [hr] at hspec
    obtain ⟨ht, hext, rfl⟩ := hspec
    have hsnap : s.disk.snapshot x.path.parts = x.start := by
      rw [hb.start, Disk.snapshot, Disk.snapshot, hl, h.linkMode]
    exact ⟨t, by rw [hsnap], h.of_extends ht hext.disk, hp.of_extends hext⟩

/-- An item that stays as it is can be skipped. -/
theorem skip_safe (h : PassState d done s) (hp : PassPins d done s)
    (hx : x.path ∉ done.map PassItem.path) (hb : ItemBound d x b)
    (hskip : x.restored = false) (hsame : x.start = x.target) :
    PassState d (done ++ [x]) s ∧ PassPins d (done ++ [x]) s := by
  obtain ⟨hl, _⟩ := identity_kept h hx hb
  refine ⟨⟨h.sound, h.linkMode, fun q hq => h.untouched q fun y hy => hq y (by simp [hy]), ?_⟩,
    hp.created, ?_⟩
  · intro y hy
    rcases List.mem_append.mp hy with hy | hy
    · exact h.settled y hy
    · rw [List.mem_singleton.mp hy, Disk.snapshot, hl, h.linkMode]
      exact ⟨hb.start.symm.trans hsame, hb.bound.capturable⟩
  · intro q hq
    rw [List.map_append, List.map_singleton, severed_snoc]
    simpa [PathStep.sever, PassItem.step, hskip] using hp.detached q hq

/-- A safe step restores its item. -/
theorem restore_safe (h : PassState d done s) (hp : PassPins d done s)
    (hn : (done.map PassItem.path).Nodup) (hx : x.path ∉ done.map PassItem.path)
    (hb : ItemBound d x b) (hs : StepSafe d.outline (done.map PassItem.step) x.step)
    (hrestored : x.restored = true) :
    ∃ t, restore b x.target s = .ok x.target t ∧ PassState d (done ++ [x]) t ∧
      PassPins d (done ++ [x]) t := by
  obtain ⟨hl, hid⟩ := identity_kept h hx hb
  have hout := h.outline hn
  have hself : x.path.parent ≠ x.path.parts := List.ne_cons_self
  have hrooted := hs.rooted
  rw [outlineAfter_snoc, ← hout] at hrooted
  change Outline.Rooted (Function.update s.disk.outline x.path.parts (outlineOf x.target))
    at hrooted
  have hready : Ready s x.path b x.target := by
    refine ⟨walk_free h hp hn hs, hid, fun hdir => missing_created hp hb hdir, ?_, ?_⟩
    · by_cases htarget : x.target = none
      · cases hstart : s.disk.lstat x.path.parts with
        | some e => exact Or.inl (s.disk.tree.isBranch_parent hstart)
        | none =>
          refine Or.inr ⟨htarget, ?_⟩
          rw [hb.bound.snapshot, Disk.snapshot, ← hl, hstart]
          rfl
      · have hsome : (outlineOf x.target).isSome := by
          simpa [outlineOf, Option.isSome_iff_ne_none] using htarget
        have := hrooted x.path.parts x.path.parent (List.suffix_cons _ _) hself
          (by rwa [Function.update_self])
        rw [Function.update_of_ne hself] at this
        exact Or.inl (Disk.outline_eq_true.1 this)
    · by_cases hdir : outlineOf x.target = some true
      · obtain ⟨u, hu, hd⟩ := Option.map_eq_some_iff.mp hdir
        exact Or.inl ⟨u, hu, of_decide_eq_true hd⟩
      · refine Or.inr fun hchild => ?_
        obtain ⟨n, v, hv⟩ := (s.disk.tree.hasChild_iff _).mp hchild
        have hne : n :: x.path.parts ≠ x.path.parts := (List.ne_cons_self).symm
        have hnone := hrooted.below_eq_none (p := n :: x.path.parts) (q := x.path.parts)
          (by rwa [Function.update_self]) (List.suffix_cons _ _) hne.symm
        rw [Function.update_of_ne hne, Disk.outline_eq_none] at hnone
        exact absurd (hv.symm.trans hnone) (by simp)
  have hspec := restore_spec hb.bound h.sound (h.linkMode ▸ hb.target)
  cases hr : restore b x.target s with
  | error fault t =>
    rw [hr] at hspec
    exact absurd hready hspec.2
  | ok r t =>
    rw [hr] at hspec
    obtain ⟨rfl, hres⟩ := hspec
    refine ⟨t, rfl, h.snoc hx hres, ?_, ?_⟩
    · intro q hq hd
      by_cases hqx : q = x.path.parts
      · subst hqx
        rcases hres.added hd with hd' | hc
        · exact hres.created _ (hp.created _ hq hd') hd
        · exact hc
      · refine hres.created q (hp.created q hq ?_) hd
        obtain ⟨e, he, hed⟩ := hd
        exact ⟨e, (hres.elsewhere q hqx).symm.trans he, hed⟩
    · intro q hq
      obtain ⟨hne, hdet⟩ := hres.detached q hq
      rw [List.map_append, List.map_singleton, severed_snoc, PathStep.sever]
      rw [if_pos (show x.step.restored = true from hrestored)]
      refine ⟨hne, hdet.imp (hp.detached q) ?_⟩
      rintro ⟨⟨e, he, hed⟩, ⟨u, hu, hud⟩, hnil, htail⟩
      refine ⟨⟨?_, ?_⟩, hnil, htail⟩
      · have hcap : ∀ e, d.lstat x.path.parts = some e → e.Capturable := hb.bound.capturable
        change outlineOf x.start = some true
        rw [hb.start, ← Disk.outline_of_capturable hcap]
        exact (Disk.outline_of_lstat (hl.symm.trans he)).trans (congrArg some hed)
      · simp [PassItem.step, outlineOf, hu, hud]

/-- Entering a transaction pins the root of an unchanged workspace. -/
theorem enter_spec {rootIdentity : FileIdentity} {e : Entry}
    (hroot : s.disk.lstat [] = some e) (hid : e.identity = rootIdentity) :
    ∃ t, enter rootIdentity s = .ok () t ∧ t.disk = s.disk ∧ PassState s.disk [] t ∧
      PassPins s.disk [] t := by
  have hd : e.isDirectory = true := by
    obtain ⟨e', he', hd⟩ := s.disk.tree.isBranch_root
    exact (Option.some.inj (hroot.symm.trans he')) ▸ hd
  let t : TreeState := { s with
    pins := Dict.empty.set [] (.root 0 e.identity)
    created := []
    closed := []
    opened := 1 }
  have hget : ∀ p, t.pins.get? p = if p = [] then some (.root 0 e.identity) else none := by
    intro p
    exact (Dict.get?_set _ _ _ _).trans (by simp)
  have hpin : ∀ p pin, t.pins.get? p = some pin → p = [] ∧ pin = .root 0 e.identity := by
    intro p pin hp
    rw [hget] at hp
    split at hp
    · next he => exact ⟨he, (Option.some.inj hp).symm⟩
    · cases hp
  have hsound : t.Sound := by
    refine ⟨⟨_, (hget []).trans (if_pos rfl)⟩, ?_, fun _ _ _ => List.not_mem_nil, ?_, ?_, ?_, ?_,
      ?_, ?_⟩
    · intro p pin hp
      obtain ⟨rfl, rfl⟩ := hpin p pin hp
      rfl
    · intro p pin hp
      obtain ⟨rfl, rfl⟩ := hpin p pin hp
      exact Nat.zero_lt_one
    · exact fun n hn => absurd hn List.not_mem_nil
    · intro p q pin pin' hp hq _
      exact (hpin p pin hp).1.trans (hpin q pin' hq).1.symm
    · intro p pin hp
      obtain ⟨rfl, rfl⟩ := hpin p pin hp
      exact ⟨e, hroot, hd, rfl⟩
    · intro p fd identity par name hp
      cases (hpin _ _ hp).2
    · intro part p pin hp
      cases (hpin _ _ hp).1
  have hrun : enter rootIdentity s = .ok () t := by
    have hft : e.node.fileType = .directory := by simpa [Entry.isDirectory] using hd
    simp [enter, inspect, directoryIdentity, hroot, hd, Entry.isLinkOrReparse, hft, hid,
      Bind.bind, EStateM.bind, modify, modifyGet, MonadStateOf.modifyGet, run_modifyGet, t]
  refine ⟨t, hrun, rfl, ⟨hsound, rfl, fun _ _ => rfl, fun x hx => by cases hx⟩, ?_, ?_⟩
  · intro q hq hdir
    obtain ⟨e', he', _⟩ := hdir
    exact absurd (hq.symm.trans he') (by simp)
  · rintro q ⟨fd, identity, par, name, hp, _⟩
    cases (hpin _ _ hp).2

/-- A path can be bound in a pass when nothing is in its way. -/
structure PathFree (o : Outline String) (done : List PathStep) (path : RelativePath) : Prop where
  clear : ∀ q, q <:+ path.parent → outlineAfter o done q ≠ some false
  attached : ∀ q, q <:+ path.parent → ¬Severed done q

/-- Binding during a pass reports the node under a free path. -/
theorem bind_pass (h : PassState d done s)
    (hp : PassPins d done s) (hn : (done.map PassItem.path).Nodup) (path : RelativePath) :
    Settles (fun b t => Bound s.disk path b ∧ t.disk = s.disk ∧ PassState d done t ∧
        PassPins d done t ∧
        ∀ q, q <:+ path.parent → outlineAfter d.outline (done.map PassItem.step) q ≠ some false)
      (fun _ t => (t.disk = s.disk ∧ PassState d done t ∧ PassPins d done t) ∧
        (¬PathFree d.outline (done.map PassItem.step) path ∨
          ∃ e, s.disk.lstat path.parts = some e ∧ ¬e.Capturable))
      (WorkspaceTreeTransaction.bind path s) := by
  refine (bind_spec h.sound path).mono ?_ ?_
  · rintro b t ⟨ht, hext, hwalk, hb⟩
    refine ⟨hb, hext.disk, h.of_extends ht hext.disk, hp.of_extends hext, fun q hq ho => ?_⟩
    rw [← h.outline hn] at ho
    obtain ⟨e, he, hd⟩ := Option.map_eq_some_iff.mp ho
    exact hwalk ⟨q, hq, Or.inr ⟨e, he, hd⟩⟩
  · rintro fault t ⟨ht, hext, hfail⟩
    refine ⟨⟨hext.disk, h.of_extends ht hext.disk, hp.of_extends hext⟩, hfail.imp_left ?_⟩
    rintro ⟨q, hq, hd | ⟨e, he, hleaf⟩⟩ hfree
    · exact hfree.attached q hq (hp.detached q hd)
    · refine hfree.clear q hq ?_
      rw [← h.outline hn, Disk.outline_of_lstat he, hleaf]

end AwesomeAgent
