import AwesomeAgent.Agent.Citations

/-!
# Source markers of a text

A marker is the identifier of a source in double brackets. No two markers overlap, and no marker
reaches over a character that is neither a bracket nor part of an identifier.
-/

namespace AwesomeAgent.Agent

/-- The marker that a text begins with: its identifier and what follows. -/
def markerAt : Text → Option (Text × Text)
  | '[' :: '[' :: 'S' :: rest =>
      if rest.takeWhile Char.isDigit = [] then none
      else
        match rest.dropWhile Char.isDigit with
        | ']' :: ']' :: after => some ('S' :: rest.takeWhile Char.isDigit, after)
        | _ => none
  | _ => none

/-- The identifiers of the markers of a text, from left to right. -/
def findMarkers : Text → List Text
  | [] => []
  | c :: rest =>
      match markerAt (c :: rest) with
      | some (id, _) => id :: findMarkers rest
      | none => findMarkers rest

/-- Characters that a marker may have. -/
def isMarkerChar (c : Char) : Bool := c = '[' || c = ']' || c = 'S' || c.isDigit

variable {c : Char} {text : Text}

/-- The markers of a text that goes on. -/
theorem findMarkers_cons (c : Char) (rest : Text) : findMarkers (c :: rest) =
    match markerAt (c :: rest) with
    | some (id, _) => id :: findMarkers rest
    | none => findMarkers rest := rfl

private theorem markerAt_eq_some_iff {id after : Text} : markerAt text = some (id, after) ↔
    ∃ digits, digits ≠ [] ∧ (∀ d ∈ digits, d.isDigit = true) ∧ id = 'S' :: digits ∧
      text = '[' :: '[' :: 'S' :: digits ++ ']' :: ']' :: after := by
  constructor
  · intro h
    unfold markerAt at h
    split at h
    · next rest =>
      split_ifs at h with hdigits
      split at h
      · next tail hrest =>
        cases h
        refine ⟨_, hdigits, ?_, rfl, ?_⟩
        · intro d hd
          exact List.all_eq_true.mp List.all_takeWhile d hd
        · rw [List.cons_append, List.cons_append, List.cons_append, ← hrest,
            List.takeWhile_append_dropWhile]
      · cases h
    · cases h
  · rintro ⟨digits, hne, hall, rfl, rfl⟩
    have htake : (digits ++ ']' :: ']' :: after).takeWhile Char.isDigit = digits := by
      rw [List.takeWhile_append_of_pos hall]
      simp
    have hdrop : (digits ++ ']' :: ']' :: after).dropWhile Char.isDigit = ']' :: ']' :: after := by
      rw [List.dropWhile_append_of_pos hall]
      simp
    simp only [List.cons_append, markerAt, htake, hdrop, if_neg hne]

private theorem markerAt_of_ne (h : c ≠ '[') (rest : Text) : markerAt (c :: rest) = none := by
  refine Option.eq_none_iff_forall_ne_some.mpr fun m hm => ?_
  obtain ⟨digits, -, -, -, hsplit⟩ := markerAt_eq_some_iff.1 hm
  exact h (List.cons.inj hsplit).1

private theorem markerAt_bracket_of_ne (h : c ≠ '[') (rest : Text) :
    markerAt ('[' :: c :: rest) = none := by
  refine Option.eq_none_iff_forall_ne_some.mpr fun m hm => ?_
  obtain ⟨digits, -, -, -, hsplit⟩ := markerAt_eq_some_iff.1 hm
  exact h (List.cons.inj (List.cons.inj hsplit).2).1

/-- Markers are found behind a character that begins none. -/
theorem findMarkers_of_ne (h : c ≠ '[') (rest : Text) :
    findMarkers (c :: rest) = findMarkers rest := by
  rw [findMarkers_cons, markerAt_of_ne h]

/-- Markers are found behind a text without a bracket. -/
theorem findMarkers_of_all_ne (h : ∀ c ∈ text, c ≠ '[') (rest : Text) :
    findMarkers (text ++ rest) = findMarkers rest := by
  induction text with
  | nil => rfl
  | cons c text ih =>
    rw [List.cons_append, findMarkers_of_ne (h c List.mem_cons_self)]
    exact ih fun d hd => h d (List.mem_cons_of_mem _ hd)

/-- A text without two opening brackets in a row has no markers. -/
theorem findMarkers_of_not_infix (h : ¬['[', '['] <:+: text) :
    findMarkers text = [] := by
  induction text with
  | nil => rfl
  | cons c rest ih =>
    have hrest : findMarkers rest = [] := ih fun hinfix => h (List.infix_cons hinfix)
    rw [findMarkers_cons]
    split
    · next id after hmarker =>
      obtain ⟨digits, -, -, -, hsplit⟩ := markerAt_eq_some_iff.1 hmarker
      exact absurd ⟨[], 'S' :: digits ++ ']' :: ']' :: after, by rw [hsplit]; rfl⟩ h
    · exact hrest

private theorem findMarkers_of_markerAt {id after : Text} (h : markerAt text = some (id, after)) :
    findMarkers text = id :: findMarkers after := by
  have hstart := h
  obtain ⟨digits, -, hall, rfl, rfl⟩ := markerAt_eq_some_iff.1 h
  rw [List.cons_append] at hstart ⊢
  rw [findMarkers_cons, hstart]
  dsimp only
  rw [List.cons_append, List.cons_append, findMarkers_cons,
    markerAt_bracket_of_ne (by decide), findMarkers_of_ne (by decide)]
  dsimp only
  rw [findMarkers_of_all_ne, findMarkers_of_ne (by decide), findMarkers_of_ne (by decide)]
  intro d hd
  rintro rfl
  exact absurd (hall _ hd) (by decide)

/-- A marker does not reach over another character. -/
theorem markerAt_append (hc : isMarkerChar c = false) (a b : Text) :
    markerAt (a ++ c :: b) = (markerAt a).map fun m => (m.1, m.2 ++ c :: b) := by
  cases ha : markerAt a with
  | some m =>
    obtain ⟨id, after⟩ := m
    obtain ⟨digits, hne, hall, hid, rfl⟩ := markerAt_eq_some_iff.1 ha
    exact markerAt_eq_some_iff.2 ⟨digits, hne, hall, hid, by simp⟩
  | none =>
    cases hab : markerAt (a ++ c :: b) with
    | none => rfl
    | some m =>
      obtain ⟨id, after⟩ := m
      obtain ⟨digits, hne, hall, hid, hsplit⟩ := markerAt_eq_some_iff.1 hab
      have hmarker : ('[' :: '[' :: 'S' :: digits ++ ']' :: ']' :: after : Text) =
          ('[' :: '[' :: 'S' :: digits ++ [']', ']']) ++ after := by simp
      have hinside : ∀ d ∈ ('[' :: '[' :: 'S' :: digits ++ [']', ']'] : Text), d ≠ c := by
        rintro d hd rfl
        simp only [List.cons_append, List.mem_cons, List.mem_append, List.not_mem_nil,
          or_false] at hd
        simp only [isMarkerChar, Bool.or_eq_false_iff, decide_eq_false_iff_not] at hc
        obtain ⟨⟨⟨hopen, hclose⟩, hletter⟩, hdigit⟩ := hc
        rcases hd with rfl | rfl | rfl | hd | rfl | rfl
        · exact hopen rfl
        · exact hopen rfl
        · exact hletter rfl
        · rw [hall d hd] at hdigit
          cases hdigit
        · exact hclose rfl
        · exact hclose rfl
      rw [hmarker] at hsplit
      have hwhole : ∀ rest, a = ('[' :: '[' :: 'S' :: digits ++ [']', ']']) ++ rest → False := by
        intro rest he
        have hsome : markerAt a = some ('S' :: digits, rest) :=
          markerAt_eq_some_iff.2 ⟨digits, hne, hall, rfl, by simpa using he⟩
        cases ha.symm.trans hsome
      rcases List.append_eq_append_iff.mp hsplit with ⟨rest, hM, hrest⟩ | ⟨rest, hA, -⟩
      · cases rest with
        | nil => exact (hwhole [] (by rw [hM]; simp)).elim
        | cons d rest =>
          rw [List.cons_append] at hrest
          have hd : d ∈ ('[' :: '[' :: 'S' :: digits ++ [']', ']'] : Text) := by
            rw [hM]
            exact List.mem_append_right _ List.mem_cons_self
          exact absurd (List.cons.inj hrest).1.symm (hinside d hd)
      · exact (hwhole rest hA).elim

/-- The markers of a text are those before and those after such a character. -/
theorem findMarkers_append (hc : isMarkerChar c = false) (a b : Text) :
    findMarkers (a ++ c :: b) = findMarkers a ++ findMarkers b := by
  induction a with
  | nil =>
    refine findMarkers_of_ne ?_ b
    rintro rfl
    cases hc
  | cons x a ih =>
    have happend := markerAt_append hc (x :: a) b
    rw [List.cons_append] at happend ⊢
    rw [findMarkers_cons, findMarkers_cons, happend, ih]
    cases markerAt (x :: a) <;> rfl

/-- A character that is in no marker ends none. -/
theorem findMarkers_concat (hc : isMarkerChar c = false) (a : Text) :
    findMarkers (a ++ [c]) = findMarkers a := by
  rw [findMarkers_append hc]
  exact List.append_nil _

/-- A marker needs two closing brackets. -/
theorem findMarkers_of_count (h : text.count ']' < 2) : findMarkers text = [] := by
  induction text with
  | nil => rfl
  | cons c text ih =>
    have hrest : text.count ']' < 2 := by
      rw [List.count_cons] at h
      omega
    rw [findMarkers_cons]
    cases hm : markerAt (c :: text) with
    | none => exact ih hrest
    | some m =>
      obtain ⟨digits, -, -, -, hsplit⟩ :=
        markerAt_eq_some_iff.1 (show markerAt (c :: text) = some (m.1, m.2) from hm)
      rw [hsplit] at h
      simp only [List.count_cons, List.count_append, beq_self_eq_true, if_true] at h
      omega

/-- The marker of an identifier. -/
def marker (id : Text) : Text := '[' :: '[' :: id ++ [']', ']']

/-- A source identifier is the letter and digits. -/
theorem isSourceId_eq {id : Text} (h : isSourceId id = true) :
    ∃ digits, digits ≠ [] ∧ (∀ d ∈ digits, d.isDigit = true) ∧ id = 'S' :: digits := by
  unfold isSourceId at h
  split at h
  · next d rest =>
    simp only [Bool.and_eq_true, decide_eq_true_eq, List.all_eq_true] at h
    refine ⟨d :: rest, List.cons_ne_nil _ _, ?_, rfl⟩
    intro x hx
    rcases List.mem_cons.mp hx with rfl | hx
    · exact h.1.1.1
    · exact h.2 x hx
  · cases h

/-- A marker is found in itself. -/
theorem findMarkers_marker {id : Text} (h : isSourceId id = true) :
    findMarkers (marker id) = [id] := by
  obtain ⟨digits, hne, hall, rfl⟩ := isSourceId_eq h
  have hat : markerAt (marker ('S' :: digits)) = some ('S' :: digits, []) :=
    markerAt_eq_some_iff.2 ⟨digits, hne, hall, rfl, by simp [marker]⟩
  rw [findMarkers_of_markerAt hat]
  rfl

/-- Backslashes and the characters of Markdown. -/
def isEscaped (c : Char) : Bool := decide (c ∈ "\\`*_[]<>#".toList)

/-- A character of an escaped title. -/
def escapeChar (c : Char) : Text := if isEscaped c then ['\\', c] else [c]

/-- An escaped text has no markers. -/
theorem findMarkers_flatMap_escapeChar (text : Text) :
    findMarkers (text.flatMap escapeChar) = [] := by
  induction text with
  | nil => rfl
  | cons c text ih =>
    rw [List.flatMap_cons, escapeChar]
    split
    · rw [List.cons_append, List.singleton_append, findMarkers_of_ne (by decide), findMarkers]
      have hnone : markerAt (c :: text.flatMap escapeChar) = none := by
        by_cases hc : c = '['
        · subst hc
          cases text with
          | nil => rfl
          | cons d text =>
            rw [List.flatMap_cons, escapeChar]
            split
            · exact markerAt_bracket_of_ne (by decide) _
            · next hd =>
              refine markerAt_bracket_of_ne ?_ _
              rintro rfl
              exact hd (by decide)
        · exact markerAt_of_ne hc _
      rw [hnone]
      exact ih
    · next hc =>
      rw [List.singleton_append, findMarkers_of_ne]
      · exact ih
      · rintro rfl
        exact hc (by decide)

end AwesomeAgent.Agent
