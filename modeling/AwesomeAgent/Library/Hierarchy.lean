import AwesomeAgent.Library.Dict
import Mathlib.Data.List.Induction
import Mathlib.Logic.Function.Basic

/-!
# Finite hierarchies

A node is addressed by the names from it up to the root, so that a parent is a
tail and an ancestor is a suffix. Every node of a hierarchy other than the root
sits in a branch node, and the root is a branch node itself.
-/

namespace AwesomeAgent

/-- A finite tree whose inner nodes satisfy `branch`. -/
structure Hierarchy (α ν : Type) [DecidableEq α] (branch : ν → Bool) where
  nodes : Dict (List α) ν
  root : ∃ v, nodes.get? [] = some v ∧ branch v
  rooted : ∀ n p v, nodes.get? (n :: p) = some v → ∃ u, nodes.get? p = some u ∧ branch u

namespace Hierarchy

variable {α ν : Type} [DecidableEq α] {branch : ν → Bool}

/-- The node at an address. -/
def get? (t : Hierarchy α ν branch) (p : List α) : Option ν := t.nodes.get? p

/-- An address at which children may be placed. -/
def IsBranch (t : Hierarchy α ν branch) (p : List α) : Prop :=
  ∃ v, t.get? p = some v ∧ branch v = true

instance (t : Hierarchy α ν branch) (p : List α) : Decidable (t.IsBranch p) :=
  match h : t.get? p with
  | none => isFalse fun ⟨_, hv, _⟩ => by rw [h] at hv; cases hv
  | some v =>
    if hb : branch v = true then isTrue ⟨v, h, hb⟩
    else isFalse fun ⟨_, hw, hbw⟩ => by
      rw [h] at hw
      cases hw
      exact hb hbw

/-- A node with at least one child. -/
def HasChild (t : Hierarchy α ν branch) (p : List α) : Prop :=
  ∃ q ∈ t.nodes.keys, q ≠ [] ∧ q.tail = p

instance (t : Hierarchy α ν branch) (p : List α) : Decidable (t.HasChild p) :=
  inferInstanceAs (Decidable (∃ q ∈ t.nodes.keys, _))

/-- The root is a branch. -/
theorem isBranch_root (t : Hierarchy α ν branch) : t.IsBranch [] := t.root

/-- What is above a node is a branch. -/
theorem isBranch_parent (t : Hierarchy α ν branch) {n : α} {p : List α} {v : ν}
    (h : t.get? (n :: p) = some v) : t.IsBranch p :=
  t.rooted n p v h

/-- A path has a child when there is a node below it. -/
theorem hasChild_iff (t : Hierarchy α ν branch) (p : List α) :
    t.HasChild p ↔ ∃ n v, t.get? (n :: p) = some v := by
  constructor
  · rintro ⟨q, hq, hne, rfl⟩
    obtain ⟨v, hv⟩ := (t.nodes.mem_keys_iff q).mp hq
    cases q with
    | nil => exact absurd rfl hne
    | cons n p => exact ⟨n, v, hv⟩
  · rintro ⟨n, v, hv⟩
    exact ⟨n :: p, (t.nodes.mem_keys_iff _).mpr ⟨v, hv⟩, List.cons_ne_nil _ _, rfl⟩

/-- Every proper ancestor of a node is a branch node. -/
theorem isBranch_of_suffix (t : Hierarchy α ν branch) {p q : List α} {v : ν}
    (h : t.get? p = some v) (hq : q <:+ p) (hne : q ≠ p) : t.IsBranch q := by
  induction p generalizing v with
  | nil => exact absurd (List.suffix_nil.mp hq) hne
  | cons n p ih =>
    have hp := t.isBranch_parent h
    rcases List.suffix_cons_iff.mp hq with rfl | hq
    · exact absurd rfl hne
    · by_cases he : q = p
      · exact he ▸ hp
      · obtain ⟨u, hu, _⟩ := hp
        exact ih hu hq he

/-- Nothing lies below an address that is not a branch node. -/
theorem get?_below_eq_none (t : Hierarchy α ν branch) {p q : List α} (h : ¬t.IsBranch q)
    (hq : q <:+ p) (hne : q ≠ p) : t.get? p = none := by
  cases hp : t.get? p with
  | none => rfl
  | some v => exact absurd (t.isBranch_of_suffix hp hq hne) h

/-- Place a node in a branch node; a branch node is only overwritten by a branch node. -/
def put (t : Hierarchy α ν branch) (n : α) (p : List α) (v : ν) (hp : t.IsBranch p)
    (hv : branch v = true ∨ ¬t.IsBranch (n :: p)) : Hierarchy α ν branch where
  nodes := t.nodes.set (n :: p) v
  root := by simpa [Dict.get?_set] using t.root
  rooted := by
    intro m q w hw
    rw [Dict.get?_set] at hw ⊢
    split at hw
    · next h =>
      cases h
      rw [if_neg (List.ne_cons_self)]
      exact hp
    · have hq := t.rooted m q w hw
      split
      · next h =>
        subst h
        refine ⟨v, rfl, hv.resolve_right ?_⟩
        exact not_not_intro hq
      · exact hq

/-- Remove a node without children. -/
def remove (t : Hierarchy α ν branch) (n : α) (p : List α) (h : ¬t.HasChild (n :: p)) :
    Hierarchy α ν branch where
  nodes := t.nodes.erase (n :: p)
  root := by simpa [Dict.get?_erase_of_ne] using t.root
  rooted := by
    intro m q w hw
    have hne : m :: q ≠ n :: p := by
      intro he
      rw [he, Dict.get?_erase_self] at hw
      cases hw
    rw [Dict.get?_erase_of_ne _ hne] at hw
    have hq : q ≠ n :: p := by
      rintro rfl
      exact h ((t.hasChild_iff _).mpr ⟨m, w, hw⟩)
    rw [Dict.get?_erase_of_ne _ hq]
    exact t.rooted m q w hw

/-- A node is found where it was put. -/
theorem get?_put (t : Hierarchy α ν branch) (n : α) (p : List α) (v : ν) (hp) (hv)
    (q : List α) : (t.put n p v hp hv).get? q = if q = n :: p then some v else t.get? q :=
  t.nodes.get?_set (n :: p) v q

/-- A removed node is gone. -/
theorem get?_remove (t : Hierarchy α ν branch) (n : α) (p : List α) (h) (q : List α) :
    (t.remove n p h).get? q = if q = n :: p then none else t.get? q := by
  by_cases hq : q = n :: p
  · subst hq
    simp [remove, get?]
  · simp [remove, get?, Dict.get?_erase_of_ne _ hq, hq]

end Hierarchy

/-- Which addresses hold a node, and whether it is a branch node. -/
abbrev Outline (α : Type) := List α → Option Bool

/-- The outline of a hierarchy. -/
def Hierarchy.outline {α ν : Type} [DecidableEq α] {branch : ν → Bool}
    (t : Hierarchy α ν branch) : Outline α :=
  fun p => (t.get? p).map branch

namespace Outline

variable {α : Type}

/-- Every proper ancestor of a node is a branch node. -/
def Rooted (o : Outline α) : Prop :=
  ∀ p q, q <:+ p → q ≠ p → (o p).isSome → o q = some true

variable {o : Outline α} {changes : List (List α × Option Bool)}

private theorem rooted_of_parent (h : ∀ n p, (o (n :: p)).isSome → o p = some true) :
    o.Rooted := by
  intro p
  induction p with
  | nil => exact fun q hq hne => absurd (List.suffix_nil.mp hq) hne
  | cons n p ih =>
    intro q hq hne hp
    have hpar := h n p hp
    rcases List.suffix_cons_iff.mp hq with rfl | hq
    · exact absurd rfl hne
    · by_cases he : q = p
      · exact he ▸ hpar
      · exact ih q hq he (by simp [hpar])

/-- Nothing is below what is no branch. -/
theorem Rooted.below_eq_none (h : o.Rooted) {p q : List α}
    (hq : o q ≠ some true) (hs : q <:+ p) (hne : q ≠ p) : o p = none := by
  cases hp : o p with
  | none => rfl
  | some b => exact absurd (h p q hs hne (by simp [hp])) hq

/-- A node can be replaced when its parent is a branch, unless it is removed, and when it
stays a branch, unless nothing lies below it. -/
theorem Rooted.update [DecidableEq α] (h : o.Rooted) {n : α} {p : List α}
    {v : Option Bool} (hp : v ≠ none → o p = some true)
    (hc : v = some true ∨ ∀ m, o (m :: n :: p) = none) :
    Rooted (Function.update o (n :: p) v) := by
  refine rooted_of_parent fun m q hm => ?_
  have hself : q ≠ m :: q := List.ne_cons_self
  by_cases hq : q = n :: p
  · subst hq
    rw [Function.update_of_ne hself.symm] at hm
    rw [Function.update_self]
    refine hc.resolve_right fun hnone => ?_
    rw [hnone m] at hm
    cases hm
  · rw [Function.update_of_ne hq]
    by_cases hmq : m :: q = n :: p
    · rw [hmq, Function.update_self] at hm
      cases hmq
      exact hp (Option.isSome_iff_ne_none.mp hm)
    · rw [Function.update_of_ne hmq] at hm
      exact h _ _ (List.suffix_cons m q) hself hm

/-- Replace the nodes at some addresses, the last replacement of an address counting. -/
def overlay [DecidableEq α] (o : Outline α) (changes : List (List α × Option Bool)) :
    Outline α :=
  changes.foldl (fun o c => Function.update o c.1 c.2) o

variable [DecidableEq α]

/-- No changes leave the outline. -/
@[simp] theorem overlay_nil (o : Outline α) : o.overlay [] = o := rfl

/-- The last change is made on top of the others. -/
theorem overlay_snoc (o : Outline α) (changes : List (List α × Option Bool))
    (c : List α × Option Bool) :
    o.overlay (changes ++ [c]) = Function.update (o.overlay changes) c.1 c.2 := by
  simp [overlay]

/-- Changes elsewhere leave a path. -/
theorem overlay_of_not_mem (o : Outline α) {p : List α}
    (h : ∀ c ∈ changes, c.1 ≠ p) : o.overlay changes p = o p := by
  induction changes using List.reverseRecOn with
  | nil => rfl
  | append_singleton changes c ih =>
    rw [overlay_snoc, Function.update_of_ne (h c (by simp)).symm]
    exact ih fun d hd => h d (by simp [hd])

/-- Replacing nodes of different addresses leaves each replacement in place. -/
theorem overlay_of_mem (o : Outline α)
    (hn : (changes.map Prod.fst).Nodup) {c : List α × Option Bool} (hc : c ∈ changes) :
    o.overlay changes c.1 = c.2 := by
  induction changes using List.reverseRecOn with
  | nil => cases hc
  | append_singleton changes d ih =>
    simp only [List.map_append, List.map_cons, List.map_nil, List.nodup_append,
      List.mem_singleton] at hn
    rw [overlay_snoc]
    rcases List.mem_append.mp hc with hc | hc
    · have hne : c.1 ≠ d.1 := fun he => hn.2.2 _ (List.mem_map_of_mem hc) _ rfl he
      rw [Function.update_of_ne hne]
      exact ih hn.1 hc
    · rw [List.mem_singleton.mp hc, Function.update_self]

end Outline

namespace Hierarchy

variable {α ν : Type} [DecidableEq α] {branch : ν → Bool}

/-- The outline of a tree is rooted. -/
theorem outline_rooted (t : Hierarchy α ν branch) : t.outline.Rooted := by
  intro p q hq hne hp
  obtain ⟨v, hv⟩ : ∃ v, t.get? p = some v := by
    simpa [outline, Option.isSome_iff_exists] using hp
  obtain ⟨u, hu, hb⟩ := t.isBranch_of_suffix hv hq hne
  simp [outline, hu, hb]

/-- The outline has the branches of a tree. -/
theorem outline_eq_true_iff (t : Hierarchy α ν branch) (p : List α) :
    t.outline p = some true ↔ t.IsBranch p := by
  simp [outline, IsBranch]

/-- The outline is empty where a tree has no node. -/
theorem outline_eq_none_iff (t : Hierarchy α ν branch) (p : List α) :
    t.outline p = none ↔ t.get? p = none := by
  simp [outline]

end Hierarchy

end AwesomeAgent
