import Mathlib.Data.List.Basic

/-!
# Splitting at a separator

A list is split at the first place where a separator occurs, at most a given number of times.
-/

namespace AwesomeAgent.Separators

variable {α : Type} {sep text before after : List α}

section Splitting

variable [DecidableEq α]

/-- What stands before and after the first occurrence of a separator. -/
def breakOn (sep : List α) : List α → Option (List α × List α)
  | [] => if sep = [] then some ([], []) else none
  | c :: rest =>
      if sep <+: c :: rest then some ([], (c :: rest).drop sep.length)
      else (breakOn sep rest).map fun parts => (c :: parts.1, parts.2)

/-- The parts between separators, from the left, with at most so many cuts. -/
def splitMax (sep : List α) : Nat → List α → List (List α)
  | 0, text => [text]
  | cuts + 1, text =>
      match breakOn sep text with
      | none => [text]
      | some parts => parts.1 :: splitMax sep cuts parts.2

end Splitting

/-- Nothing occurs before the first occurrence. -/
structure First (sep text before after : List α) : Prop where
  split : text = before ++ sep ++ after
  first : ∀ front back, text = front ++ sep ++ back → before.length ≤ front.length

private theorem First.unique {before' after' : List α} (h : First sep text before after)
    (h' : First sep text before' after') : before = before' ∧ after = after' := by
  have hlength := Nat.le_antisymm (h.first _ _ h'.split) (h'.first _ _ h.split)
  have heq := h.split.symm.trans h'.split
  rw [List.append_assoc, List.append_assoc] at heq
  obtain ⟨hbefore, hrest⟩ := List.append_inj heq hlength
  exact ⟨hbefore, List.append_cancel_left hrest⟩

private theorem occurs_later {c : α} {rest front back : List α} (hfront : ¬sep <+: c :: rest)
    (h : c :: rest = front ++ sep ++ back) :
    ∃ later, front = c :: later ∧ rest = later ++ sep ++ back := by
  cases front with
  | nil => exact absurd ⟨back, h.symm⟩ hfront
  | cons d later =>
    obtain ⟨rfl, hrest⟩ := List.cons.inj h
    exact ⟨later, rfl, hrest⟩

variable [DecidableEq α]

/-- A text is broken at its first separator. -/
theorem first_of_breakOn (h : breakOn sep text = some (before, after)) :
    First sep text before after := by
  induction text generalizing before with
  | nil =>
    rw [breakOn] at h
    split at h
    · rename_i hsep
      cases h
      exact ⟨by rw [hsep]; rfl, fun _ _ _ => Nat.zero_le _⟩
    · cases h
  | cons c rest ih =>
    rw [breakOn] at h
    split at h
    · rename_i hfront
      cases h
      refine ⟨?_, fun _ _ _ => Nat.zero_le _⟩
      rw [List.nil_append]
      exact (List.prefix_iff_eq_append.mp hfront).symm
    · rename_i hfront
      obtain ⟨parts, hparts, heq⟩ := Option.map_eq_some_iff.mp h
      cases heq
      have hrest := ih hparts
      constructor
      · exact congrArg (c :: ·) hrest.split
      · intro front back hsplit
        obtain ⟨later, rfl, hlater⟩ := occurs_later hfront hsplit
        exact Nat.succ_le_succ (hrest.first later back hlater)

/-- A text that is not broken has no separator. -/
theorem breakOn_eq_none (h : breakOn sep text = none) (front back : List α) :
    text ≠ front ++ sep ++ back := by
  induction text generalizing front with
  | nil =>
    rw [breakOn] at h
    split at h
    · cases h
    · rename_i hsep
      intro hsplit
      rw [List.append_assoc] at hsplit
      exact hsep (List.append_eq_nil_iff.mp (List.append_eq_nil_iff.mp hsplit.symm).2).1
  | cons c rest ih =>
    rw [breakOn] at h
    split at h
    · cases h
    · rename_i hfront
      intro hsplit
      obtain ⟨later, -, hlater⟩ := occurs_later hfront hsplit
      exact ih (Option.map_eq_none_iff.mp h) later hlater

/-- The separator is found exactly where it occurs first. -/
theorem breakOn_eq_some_iff :
    breakOn sep text = some (before, after) ↔ First sep text before after := by
  constructor
  · exact first_of_breakOn
  · intro h
    cases hbreak : breakOn sep text with
    | none => exact absurd h.split (breakOn_eq_none hbreak before after)
    | some parts =>
      obtain ⟨before', after'⟩ := parts
      obtain ⟨rfl, rfl⟩ := (first_of_breakOn hbreak).unique h
      rfl

/-- A separator in front is cut off first. -/
theorem splitMax_append (sep : List α) (cuts : Nat) (rest : List α) :
    splitMax sep (cuts + 1) (sep ++ rest) = [] :: splitMax sep cuts rest := by
  have hbreak : breakOn sep (sep ++ rest) = some ([], rest) :=
    breakOn_eq_some_iff.2 ⟨rfl, fun _ _ _ => Nat.zero_le _⟩
  rw [splitMax, hbreak]

end AwesomeAgent.Separators
