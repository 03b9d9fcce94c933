import Mathlib.Data.List.Basic
import Mathlib.Data.List.Induction

/-!
# Runs of a system of labelled steps

A step is a partial function of a state and an action, so that the actions of a
run resolve every choice of the environment. A run may be restricted to steps
that meet a condition on their state and action.
-/

namespace AwesomeAgent

variable {σ α : Type} {step : σ → α → Option σ} {meets : σ → α → Prop} {s t u : σ}

/-- The states that a run reaches whose steps all meet a condition. -/
inductive Run (step : σ → α → Option σ) (meets : σ → α → Prop) (s : σ) : σ → Prop
  | start : Run step meets s s
  | next {t u : σ} {a : α} : Run step meets s t → meets t a → step t a = some u →
      Run step meets s u

namespace Run

/-- What holds at the start and is preserved by every step holds in every state reached. -/
theorem invariant {I : σ → Prop} (h : Run step meets s t) (hs : I s)
    (hstep : ∀ t a u, I t → meets t a → step t a = some u → I u) : I t := by
  induction h with
  | start => exact hs
  | next _ hm ha ih => exact hstep _ _ _ ih hm ha

/-- A run goes on with another. -/
theorem trans (h : Run step meets s t) (h' : Run step meets t u) : Run step meets s u := by
  induction h' with
  | start => exact h
  | next _ hm ha ih => exact ih.next hm ha

variable {actions : List α}

/-- A rank that no step raises and every tick lowers bounds the ticks until something is done. -/
theorem done_of_rank (I done : σ → Prop) (rank : σ → Nat) (tick : α → Bool)
    (hI : ∀ s a t, I s → step s a = some t → I t)
    (hdone : ∀ s a t, I s → done s → step s a = some t → done t)
    (hrank : ∀ s a t, I s → ¬ done s → step s a = some t →
      done t ∨ rank t + (tick a).toNat ≤ rank s)
    (hs : I s) (h : actions.foldlM step s = some t)
    (hticks : done s ∨ rank s < actions.countP tick) : done t := by
  induction actions generalizing s with
  | nil =>
    cases h
    simpa using hticks
  | cons a rest ih =>
    rw [List.foldlM_cons] at h
    obtain ⟨u, ha, hrest⟩ := Option.bind_eq_some_iff.mp h
    refine ih (hI s a u hs ha) hrest ?_
    by_cases hd : done s
    · exact .inl (hdone s a u hs hd ha)
    · refine (hrank s a u hs hd ha).imp_right fun hle => ?_
      have hlt := hticks.resolve_left hd
      rw [List.countP_cons] at hlt
      cases htick : tick a <;> simp [htick] at hlt hle <;> omega

/-- One step is a run. -/
theorem single {a : α} (hm : meets s a) (ha : step s a = some t) : Run step meets s t :=
  .next .start hm ha

/-- A list of actions whose steps are enabled and meet the condition is a run. -/
theorem of_actions (h : actions.foldlM step s = some t)
    (hm : ∀ t a, a ∈ actions → meets t a) : Run step meets s t := by
  induction actions generalizing s with
  | nil =>
    cases h
    exact .start
  | cons a rest ih =>
    rw [List.foldlM_cons] at h
    obtain ⟨u, ha, hrest⟩ := Option.bind_eq_some_iff.mp h
    exact (single (hm s a List.mem_cons_self) ha).trans
      (ih hrest fun t b hb => hm t b (List.mem_cons_of_mem _ hb))

/-- A step that is taken only if it meets the condition. -/
def checked (step : σ → α → Option σ) (meets : σ → α → Prop) [∀ s a, Decidable (meets s a)]
    (s : σ) (a : α) : Option σ :=
  if meets s a then step s a else none

/-- A list of checked actions is a run. -/
theorem of_checked [∀ s a, Decidable (meets s a)]
    (h : actions.foldlM (checked step meets) s = some t) : Run step meets s t := by
  induction actions generalizing s with
  | nil =>
    cases h
    exact .start
  | cons a rest ih =>
    rw [List.foldlM_cons] at h
    obtain ⟨u, ha, hrest⟩ := Option.bind_eq_some_iff.mp h
    unfold checked at ha
    split at ha
    · next hm => exact (single hm ha).trans (ih hrest)
    · cases ha

end Run

/-- A law of every item of a history, given what came before it. -/
def Throughout (law : List α → α → Prop) (history : List α) : Prop :=
  ∀ earlier item later, history = earlier ++ item :: later → law earlier item

variable {law : List α → α → Prop}

/-- A law holds throughout nothing. -/
theorem throughout_nil : Throughout law [] := by
  intro earlier item later h
  cases earlier <;> cases h

/-- A history that grows keeps a law of its items if the new item meets it. -/
theorem Throughout.concat {law : List α → α → Prop} {history : List α}
    (h : Throughout law history) {item : α} (hitem : law history item) :
    Throughout law (history ++ [item]) := by
  intro earlier x later hsplit
  rcases List.eq_nil_or_concat later with rfl | ⟨front, last, rfl⟩
  · obtain ⟨rfl, hx⟩ := List.append_inj' hsplit rfl
    obtain rfl := (List.cons.inj hx).1
    exact hitem
  · refine h earlier x front ?_
    rw [List.concat_eq_append, ← List.cons_append, ← List.append_assoc] at hsplit
    exact (List.append_inj' hsplit rfl).1

/-- A law holds throughout a history and at its next item. -/
theorem throughout_concat_iff {history : List α} {item : α} :
    Throughout law (history ++ [item]) ↔ Throughout law history ∧ law history item := by
  constructor
  · intro h
    refine ⟨?_, h history item [] rfl⟩
    rintro earlier x later rfl
    exact h earlier x (later ++ [item]) (by rw [List.append_assoc, List.cons_append])
  · rintro ⟨h, hitem⟩
    exact h.concat hitem

/-- Items that meet a law in any history may be added. -/
theorem throughout_append_iff {history items : List α}
    (hitems : ∀ item ∈ items, ∀ earlier, law earlier item) :
    Throughout law (history ++ items) ↔ Throughout law history := by
  induction items using List.reverseRecOn with
  | nil => rw [List.append_nil]
  | append_singleton items item ih =>
    rw [← List.append_assoc, throughout_concat_iff,
      ih fun x hx => hitems x (List.mem_append_left _ hx)]
    exact and_iff_left (hitems item (by simp) _)

end AwesomeAgent
