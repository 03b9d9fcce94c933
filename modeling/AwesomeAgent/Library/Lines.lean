import Mathlib.Data.List.Basic
import Mathlib.Data.List.Infix

/-!
# Lines of a sequence

A sequence is cut at a terminator into complete lines and a pending rest. Cutting a
concatenation continues with the pending rest of the first part.
-/

namespace AwesomeAgent

namespace Lines

variable {α : Type} [DecidableEq α]

/-- The first line and what follows its terminator. -/
def first (nl : α) : List α → Option (List α × List α)
  | [] => none
  | c :: cs => if c = nl then some ([], cs) else (first nl cs).map fun p => (c :: p.1, p.2)

/-- The complete lines and the rest after the last terminator. -/
def split (nl : α) : List α → List (List α) × List α
  | [] => ([], [])
  | c :: cs =>
      if c = nl then ([] :: (split nl cs).1, (split nl cs).2)
      else match (split nl cs).1 with
        | [] => ([], c :: (split nl cs).2)
        | line :: lines => ((c :: line) :: lines, (split nl cs).2)

/-- The complete lines. -/
def complete (nl : α) (cs : List α) : List (List α) := (split nl cs).1

/-- The rest after the last terminator. -/
def pending (nl : α) (cs : List α) : List α := (split nl cs).2

/-- All lines; the rest counts as a line unless it is empty. -/
def all (nl : α) (cs : List α) : List (List α) :=
  complete nl cs ++ if pending nl cs = [] then [] else [pending nl cs]

variable {nl c : α} {cs ds line rest : List α}

/-- There is no first line without a line end. -/
theorem first_eq_none_iff : first nl cs = none ↔ nl ∉ cs := by
  induction cs with
  | nil => simp [first]
  | cons c cs ih =>
    by_cases h : c = nl
    · simp [first, h]
    · simp [first, h, ih, Ne.symm h]

/-- The first line stands before the first line end. -/
theorem first_line (h : nl ∉ line) (rest : List α) :
    first nl (line ++ nl :: rest) = some (line, rest) := by
  induction line with
  | nil => rw [List.nil_append, first, if_pos rfl]
  | cons c line ih =>
    obtain ⟨hc, hline⟩ := not_or.mp (mt List.mem_cons.mpr h)
    rw [List.cons_append, first, if_neg (Ne.symm hc), ih hline]
    rfl

private theorem first_eq_some (h : first nl cs = some (line, rest)) :
    nl ∉ line ∧ cs = line ++ nl :: rest := by
  induction cs generalizing line with
  | nil => cases h
  | cons c cs ih =>
    rw [first] at h
    split at h
    · next hc =>
      cases h
      exact ⟨List.not_mem_nil, by rw [hc, List.nil_append]⟩
    · next hc =>
      obtain ⟨⟨l, r⟩, hp, he⟩ := Option.map_eq_some_iff.mp h
      cases he
      obtain ⟨hl, rfl⟩ := ih hp
      exact ⟨by simp [Ne.symm hc, hl], rfl⟩

private theorem split_of_free (h : nl ∉ cs) : split nl cs = ([], cs) := by
  induction cs with
  | nil => rfl
  | cons c cs ih =>
    obtain ⟨hc, hcs⟩ := not_or.mp (mt List.mem_cons.mpr h)
    rw [split, if_neg (Ne.symm hc), ih hcs]

private theorem split_line (h : nl ∉ line) (cs : List α) :
    split nl (line ++ nl :: cs) = (line :: complete nl cs, pending nl cs) := by
  induction line with
  | nil => rw [List.nil_append, split, if_pos rfl]; rfl
  | cons c line ih =>
    obtain ⟨hc, hline⟩ := not_or.mp (mt List.mem_cons.mpr h)
    rw [List.cons_append, split, if_neg (Ne.symm hc), ih hline]

/-- A sequence has no terminator, or a first line before the others. -/
theorem free_or_line (nl : α) (cs : List α) :
    nl ∉ cs ∨ ∃ line rest, nl ∉ line ∧ cs = line ++ nl :: rest := by
  cases h : first nl cs with
  | none => exact .inl (first_eq_none_iff.1 h)
  | some p => exact .inr ⟨p.1, p.2, first_eq_some h⟩

/-- Text without a line end is pending. -/
theorem pending_of_free (h : nl ∉ cs) : pending nl cs = cs := by rw [pending, split_of_free h]

/-- Text without a line end has no complete line. -/
theorem complete_of_free (h : nl ∉ cs) : complete nl cs = [] := by rw [complete, split_of_free h]

/-- A line with its end is complete. -/
theorem complete_line (h : nl ∉ line) (cs : List α) :
    complete nl (line ++ nl :: cs) = line :: complete nl cs := by rw [complete, split_line h]

/-- What is pending follows the line end. -/
theorem pending_line (h : nl ∉ line) (cs : List α) :
    pending nl (line ++ nl :: cs) = pending nl cs := by rw [pending, split_line h]

/-- A line with its end is a line. -/
theorem all_line (h : nl ∉ line) (cs : List α) :
    all nl (line ++ nl :: cs) = line :: all nl cs := by
  rw [all, all, complete_line h, pending_line h, List.cons_append]

/-- Text without a line end is one line unless it is empty. -/
theorem all_of_free (h : nl ∉ cs) : all nl cs = if cs = [] then [] else [cs] := by
  rw [all, complete_of_free h, pending_of_free h, List.nil_append]

/-- Induction over the lines of a sequence. -/
theorem lineInduction {P : List α → Prop} (nl : α) (hfree : ∀ cs, nl ∉ cs → P cs)
    (hline : ∀ line rest, nl ∉ line → P rest → P (line ++ nl :: rest)) (cs : List α) : P cs := by
  induction hn : cs.length using Nat.strong_induction_on generalizing cs with
  | _ n ih =>
    obtain h | ⟨line, rest, hl, rfl⟩ := free_or_line nl cs
    · exact hfree cs h
    · refine hline line rest hl (ih rest.length ?_ rest rfl)
      rw [← hn, List.length_append, List.length_cons]
      omega

/-- What is pending has no line end. -/
theorem free_pending (nl : α) (cs : List α) : nl ∉ pending nl cs := by
  induction cs using lineInduction nl with
  | hfree cs h => rwa [pending_of_free h]
  | hline line rest h ih => rwa [pending_line h]

/-- Complete lines are found part by part. -/
theorem complete_append (nl : α) (cs ds : List α) :
    complete nl (cs ++ ds) = complete nl cs ++ complete nl (pending nl cs ++ ds) := by
  induction cs using lineInduction nl with
  | hfree cs h => rw [complete_of_free h, pending_of_free h, List.nil_append]
  | hline line rest h ih =>
    rw [List.append_assoc, List.cons_append, complete_line h, complete_line h, pending_line h, ih,
      List.cons_append]

/-- What is pending goes on. -/
theorem pending_append (nl : α) (cs ds : List α) :
    pending nl (cs ++ ds) = pending nl (pending nl cs ++ ds) := by
  induction cs using lineInduction nl with
  | hfree cs h => rw [pending_of_free h]
  | hline line rest h ih =>
    rw [List.append_assoc, List.cons_append, pending_line h, pending_line h, ih]

/-- The lines of a concatenation continue with the pending rest of the first part. -/
theorem all_append (nl : α) (cs ds : List α) :
    all nl (cs ++ ds) = complete nl cs ++ all nl (pending nl cs ++ ds) := by
  rw [all, all, complete_append, pending_append, List.append_assoc]

/-- A free start of a sequence is the start of a complete line or of the rest. -/
theorem prefix_line (h : nl ∉ cs) (ds : List α) :
    (∃ line ∈ complete nl (cs ++ ds), cs <+: line) ∨ cs <+: pending nl (cs ++ ds) := by
  obtain hds | ⟨line, rest, hl, rfl⟩ := free_or_line nl ds
  · right
    rw [pending_of_free (by simp [h, hds])]
    exact List.prefix_append _ _
  · left
    refine ⟨cs ++ line, ?_, List.prefix_append _ _⟩
    rw [← List.append_assoc, complete_line (by simp [h, hl])]
    exact List.mem_cons_self

end Lines

end AwesomeAgent
