import Mathlib.Data.List.Basic

/-!
# Items that are attached to owners

Each owner takes the items that it is asked for. If no item is taken twice, what the owners take
one after another is a rearrangement of the items that some owner takes.
-/

namespace AwesomeAgent.Attachments

variable {κ α β : Type}

private theorem filter_or_perm (items : List α) {p q : α → Bool}
    (h : ∀ a ∈ items, p a = true → q a = false) :
    (items.filter p ++ items.filter q).Perm (items.filter fun a => p a || q a) := by
  induction items with
  | nil => exact .refl _
  | cons a items ih =>
    have hrest := ih fun b hb => h b (List.mem_cons_of_mem _ hb)
    cases hp : p a with
    | true =>
      have hq := h a List.mem_cons_self hp
      rw [List.filter_cons_of_pos hp,
        List.filter_cons_of_neg (by rw [hq]; exact Bool.false_ne_true),
        List.filter_cons_of_pos (by rw [hp, Bool.true_or]), List.cons_append]
      exact hrest.cons a
    | false =>
      rw [List.filter_cons_of_neg (by rw [hp]; exact Bool.false_ne_true)]
      cases hq : q a with
      | true =>
        rw [List.filter_cons_of_pos hq, List.filter_cons_of_pos (by rw [hp, hq]; rfl)]
        exact List.perm_middle.trans (hrest.cons a)
      | false =>
        rw [List.filter_cons_of_neg (by rw [hq]; exact Bool.false_ne_true),
          List.filter_cons_of_neg (by rw [hp, hq]; exact Bool.false_ne_true)]
        exact hrest

variable {takes : κ → α → Bool}

/-- What the owners take is what some owner takes. -/
theorem flatMap_filter_perm (owners : List κ) (items : List α)
    (h : owners.Pairwise fun j k => ∀ a ∈ items, takes j a = true → takes k a = false) :
    (owners.flatMap fun k => items.filter (takes k)).Perm
      (items.filter fun a => owners.any fun k => takes k a) := by
  induction owners with
  | nil => simp
  | cons k owners ih =>
    obtain ⟨hk, howners⟩ := List.pairwise_cons.mp h
    have hdisjoint : ∀ a ∈ items, takes k a = true → (owners.any fun j => takes j a) = false := by
      intro a ha htakes
      rw [List.any_eq_false]
      intro j hj
      rw [hk j hj a ha htakes]
      exact Bool.false_ne_true
    rw [List.flatMap_cons]
    exact ((ih howners).append_left _).trans (filter_or_perm items hdisjoint)

/-- If only items of `q` are in `p`, both show the same exactly if all of `q` are in `p`. -/
theorem filter_map_perm_iff {items : List α} {p q : α → Bool} (f : α → β)
    (h : ∀ a ∈ items, p a = true → q a = true) :
    ((items.filter p).map f).Perm ((items.filter q).map f) ↔
      ∀ a ∈ items, q a = true → p a = true := by
  constructor
  · intro hperm a ha hq
    by_contra hp
    have hlength := hperm.length_eq
    rw [List.length_map, List.length_map, ← List.countP_eq_length_filter,
      ← List.countP_eq_length_filter] at hlength
    have hlt : items.countP p < items.countP q := by
      obtain ⟨front, back, rfl⟩ := List.append_of_mem ha
      have hfront : front.countP p ≤ front.countP q :=
        List.countP_mono_left fun b hb => h b (List.mem_append_left _ hb)
      have hback : back.countP p ≤ back.countP q :=
        List.countP_mono_left fun b hb =>
          h b (List.mem_append_right _ (List.mem_cons_of_mem _ hb))
      rw [List.countP_append, List.countP_append, List.countP_cons_of_neg hp,
        List.countP_cons_of_pos hq]
      omega
    omega
  · intro hall
    have hsame : items.filter p = items.filter q := by
      apply List.filter_congr
      intro a ha
      rw [Bool.eq_iff_iff]
      exact ⟨h a ha, hall a ha⟩
    rw [hsame]

/-- All that is owned is taken exactly if the owners show it as it is, in some order. -/
theorem shown_perm_iff (owners : List κ) {items : List α} (owned : α → Bool) (f : α → β)
    (hdisjoint : owners.Pairwise fun j k => ∀ a ∈ items, takes j a = true → takes k a = false)
    (hsub : ∀ k ∈ owners, ∀ a ∈ items, takes k a = true → owned a = true) :
    (owners.flatMap fun k => (items.filter (takes k)).map f).Perm ((items.filter owned).map f) ↔
      ∀ a ∈ items, owned a = true → ∃ k ∈ owners, takes k a = true := by
  have hmap : (owners.flatMap fun k => (items.filter (takes k)).map f) =
      (owners.flatMap fun k => items.filter (takes k)).map f := by
    rw [List.map_flatMap]
  have hshown := (flatMap_filter_perm owners items hdisjoint).map f
  have hall : ∀ a ∈ items, (owners.any fun k => takes k a) = true → owned a = true := by
    intro a ha hany
    obtain ⟨k, hk, htakes⟩ := List.any_eq_true.mp hany
    exact hsub k hk a ha htakes
  have hiff := filter_map_perm_iff f hall
  simp only [List.any_eq_true] at hiff
  rw [hmap, ← hiff]
  constructor
  · exact hshown.symm.trans
  · exact hshown.trans

end AwesomeAgent.Attachments
