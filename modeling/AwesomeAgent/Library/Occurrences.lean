import AwesomeAgent.Library.Separators

/-!
# Occurrences of a part

A part is counted and replaced from the left, each time behind the last place, so that
occurrences that overlap a counted one are not counted. It is counted once exactly when it
occurs and all places where it occurs overlap.
-/

namespace AwesomeAgent.Occurrences

open Separators (First breakOn splitMax)

variable {α : Type} {sep text before after : List α}

/-- A part occurs at a place of a list. -/
def OccursAt (sep text : List α) (place : Nat) : Prop :=
  ∃ front back, text = front ++ sep ++ back ∧ front.length = place

variable {place : Nat}

/-- What stands at a place where a part occurs. -/
theorem OccursAt.take_drop (h : OccursAt sep text place) :
    (text.drop place).take sep.length = sep := by
  obtain ⟨front, back, rfl, rfl⟩ := h
  rw [List.append_assoc, List.drop_left, List.take_left]

/-- A separator occurs inside the text. -/
theorem OccursAt.add_length_le (h : OccursAt sep text place) :
    place + sep.length ≤ text.length := by
  obtain ⟨front, back, rfl, rfl⟩ := h
  rw [List.length_append, List.length_append]
  exact Nat.le_add_right _ _

/-- A part that occurs first somewhere occurs there. -/
theorem occursAt_first (h : First sep text before after) : OccursAt sep text before.length :=
  ⟨before, after, h.split, rfl⟩

private theorem first_le (h : First sep text before after) (hplace : OccursAt sep text place) :
    before.length ≤ place := by
  obtain ⟨front, back, hsplit, rfl⟩ := hplace
  exact h.first front back hsplit

private theorem OccursAt.behind {front back : List α} (h : OccursAt sep back place) :
    OccursAt sep (front ++ back) (front.length + place) := by
  obtain ⟨front', back', rfl, rfl⟩ := h
  exact ⟨front ++ front', back', by simp only [List.append_assoc], List.length_append⟩

private theorem OccursAt.of_append {front back : List α}
    (h : OccursAt sep (front ++ back) place) (hle : front.length ≤ place) :
    OccursAt sep back (place - front.length) := by
  obtain ⟨front', back', hsplit, rfl⟩ := h
  rw [List.append_assoc] at hsplit
  obtain ⟨middle, rfl⟩ : front <+: front' :=
    List.prefix_of_prefix_length_le (List.prefix_append front back)
      ⟨sep ++ back', hsplit.symm⟩ hle
  rw [List.append_assoc] at hsplit
  refine ⟨middle, back', ?_, ?_⟩
  · rw [List.append_cancel_left hsplit, List.append_assoc]
  · rw [List.length_append, Nat.add_sub_cancel_left]

private theorem length_behind_lt (h : First sep text before after) (hsep : sep ≠ []) :
    after.length < text.length := by
  have hpositive := List.length_pos_iff.mpr hsep
  rw [h.split, List.length_append, List.length_append]
  omega

section Counting

variable [DecidableEq α]

/-- How often a part is found, each time behind the last place. -/
def count (sep text : List α) : Nat := (splitMax sep text.length text).length - 1

/-- Replace a part where it is found, at most so many times. -/
def replaceMax (sep new : List α) (times : Nat) (text : List α) : List α :=
  new.intercalate (splitMax sep times text)

private theorem splitMax_of_first (h : First sep text before after) (cuts : Nat) :
    splitMax sep (cuts + 1) text = before :: splitMax sep cuts after := by
  rw [splitMax, Separators.breakOn_eq_some_iff.2 h]

private theorem splitMax_of_none (h : breakOn sep text = none) (cuts : Nat) :
    splitMax sep cuts text = [text] := by
  cases cuts with
  | zero => rfl
  | succ cuts => rw [splitMax, h]

private theorem splitMax_ne_nil (sep : List α) (cuts : Nat) (text : List α) :
    splitMax sep cuts text ≠ [] := by
  cases cuts with
  | zero => exact List.cons_ne_nil _ _
  | succ cuts =>
    rw [splitMax]
    split <;> exact List.cons_ne_nil _ _

private theorem splitMax_of_le (hsep : sep ≠ []) {cuts : Nat} (h : text.length ≤ cuts) :
    splitMax sep cuts text = splitMax sep text.length text := by
  induction cuts using Nat.strongRecOn generalizing text with
  | ind cuts ih =>
    cases hbreak : breakOn sep text with
    | none => rw [splitMax_of_none hbreak, splitMax_of_none hbreak]
    | some parts =>
      have hfirst := Separators.first_of_breakOn hbreak
      have hlt := length_behind_lt hfirst hsep
      obtain ⟨cuts, rfl⟩ : ∃ rest, cuts = rest + 1 := ⟨cuts - 1, by omega⟩
      obtain ⟨length, hlength⟩ : ∃ rest, text.length = rest + 1 := ⟨text.length - 1, by omega⟩
      rw [hlength, splitMax_of_first hfirst, splitMax_of_first hfirst,
        ih cuts (Nat.lt_succ_self _) (by omega), ih length (by omega) (by omega)]

private theorem count_of_none (h : breakOn sep text = none) : count sep text = 0 := by
  rw [count, splitMax_of_none h]
  rfl

private theorem count_of_first (hsep : sep ≠ []) (h : First sep text before after) :
    count sep text = count sep after + 1 := by
  have hlt := length_behind_lt h hsep
  obtain ⟨length, hlength⟩ : ∃ rest, text.length = rest + 1 := ⟨text.length - 1, by omega⟩
  have hpositive : 0 < (splitMax sep after.length after).length :=
    List.length_pos_iff.mpr (splitMax_ne_nil sep after.length after)
  rw [count, count, hlength, splitMax_of_first h, splitMax_of_le hsep (by omega),
    List.length_cons]
  omega

/-- A part is counted exactly when it occurs. -/
theorem count_eq_zero_iff (hsep : sep ≠ []) : count sep text = 0 ↔ breakOn sep text = none := by
  constructor
  · intro hcount
    cases hbreak : breakOn sep text with
    | none => rfl
    | some parts =>
      rw [count_of_first hsep (Separators.first_of_breakOn hbreak)] at hcount
      cases hcount
  · exact count_of_none

/-- A part that occurs nowhere has no place. -/
theorem not_occursAt (h : breakOn sep text = none) (place : Nat) : ¬ OccursAt sep text place := by
  rintro ⟨front, back, hsplit, -⟩
  exact Separators.breakOn_eq_none h front back hsplit

/-- A part is counted once exactly when it occurs first somewhere and nowhere behind that. -/
theorem count_eq_one_iff (hsep : sep ≠ []) : count sep text = 1 ↔
    ∃ before after, First sep text before after ∧ breakOn sep after = none := by
  constructor
  · intro hcount
    cases hbreak : breakOn sep text with
    | none =>
      rw [count_of_none hbreak] at hcount
      cases hcount
    | some parts =>
      have hfirst := Separators.first_of_breakOn hbreak
      rw [count_of_first hsep hfirst] at hcount
      exact ⟨parts.1, parts.2, hfirst, (count_eq_zero_iff hsep).mp (by omega)⟩
  · rintro ⟨before, after, hfirst, hnone⟩
    rw [count_of_first hsep hfirst, count_of_none hnone]

/-- A part that is counted once is replaced at its first place. -/
theorem replaceMax_one (h : First sep text before after) (new : List α) :
    replaceMax sep new 1 text = before ++ new ++ after := by
  rw [replaceMax, splitMax_of_first h]
  simp [splitMax, List.intercalate, List.intersperse]

/-- The places of a part that is counted once overlap: they lie within the length of the part. -/
theorem overlapping_of_last {place : Nat} (hlast : breakOn sep after = none)
    (h : First sep text before after) (hplace : OccursAt sep text place) :
    before.length ≤ place ∧ place < before.length + sep.length := by
  refine ⟨first_le h hplace, ?_⟩
  by_contra hfar
  rw [h.split] at hplace
  have hbehind := hplace.of_append (by rw [List.length_append]; omega)
  exact not_occursAt hlast _ hbehind

/-- A part is counted more than once exactly when two of its places do not overlap. -/
theorem two_le_count_iff (hsep : sep ≠ []) : 2 ≤ count sep text ↔
    ∃ place later, OccursAt sep text place ∧ OccursAt sep text later ∧
      place + sep.length ≤ later := by
  cases hbreak : breakOn sep text with
  | none =>
    rw [count_of_none hbreak]
    refine iff_of_false (by omega) ?_
    rintro ⟨place, later, hplace, -⟩
    exact not_occursAt hbreak place hplace
  | some parts =>
    obtain ⟨before, after⟩ := parts
    have hfirst := Separators.first_of_breakOn hbreak
    rw [count_of_first hsep hfirst]
    cases hmore : breakOn sep after with
    | none =>
      rw [count_of_none hmore]
      refine iff_of_false (by omega) ?_
      rintro ⟨place, later, hplace, hlater, hfar⟩
      have hp := overlapping_of_last hmore hfirst hplace
      have hl := overlapping_of_last hmore hfirst hlater
      omega
    | some more =>
      have hsecond := Separators.first_of_breakOn hmore
      rw [count_of_first hsep hsecond]
      refine iff_of_true (by omega) ⟨before.length, (before ++ sep).length + more.1.length,
        occursAt_first hfirst, ?_, ?_⟩
      · rw [hfirst.split]
        exact (occursAt_first hsecond).behind
      · rw [List.length_append]
        exact Nat.le_add_right _ _

end Counting

end AwesomeAgent.Occurrences
