import AwesomeAgent.Library.Text
import Mathlib.Algebra.GroupWithZero.Nat
import Mathlib.Algebra.Order.BigOperators.Group.List

/-!
# Bytes of texts

The bytes that a text takes in UTF-8 are those of its parts. Lines that are joined take one byte
more for each newline between them.
-/

namespace AwesomeAgent

/-- The bytes of a text in UTF-8. -/
def byteLength (text : Text) : Nat := (encodeUtf8 text).length

/-- No text has no bytes. -/
@[simp] theorem byteLength_nil : byteLength [] = 0 := rfl

/-- Texts one after another have the bytes of both. -/
@[simp] theorem byteLength_append (front back : Text) :
    byteLength (front ++ back) = byteLength front + byteLength back := by
  rw [byteLength, encodeUtf8_append, List.length_append]
  rfl

/-- A character has the bytes of its encoding. -/
theorem byteLength_singleton (c : Char) : byteLength [c] = c.utf8Size := by
  rw [byteLength, encodeUtf8, List.flatMap_singleton, String.length_utf8EncodeChar]

/-- A character adds the bytes of its encoding. -/
theorem byteLength_cons (c : Char) (text : Text) :
    byteLength (c :: text) = c.utf8Size + byteLength text := by
  rw [← List.singleton_append, byteLength_append, byteLength_singleton]

/-- A text has at least as many bytes as characters. -/
theorem length_le_byteLength (text : Text) : text.length ≤ byteLength text := by
  induction text with
  | nil => exact Nat.le_refl 0
  | cons c text ih =>
    have hc := c.utf8Size_pos
    rw [List.length_cons, byteLength_cons]
    omega

/-- A text has at most four bytes for each character. -/
theorem byteLength_le (text : Text) : byteLength text ≤ 4 * text.length := by
  induction text with
  | nil => exact Nat.le_refl 0
  | cons c text ih =>
    have hc := c.utf8Size_le_four
    rw [List.length_cons, byteLength_cons]
    omega

/-- An ASCII character has one byte. -/
theorem utf8Size_of_ascii {c : Char} (h : c.toNat < 0x80) : c.utf8Size = 1 := by
  apply Char.utf8Size_eq_one_iff.mpr
  rw [UInt32.le_iff_toNat_le]
  exact Nat.le_of_lt_succ h

/-- Characters that are replaced by texts of at least their bytes leave no fewer bytes. -/
theorem byteLength_le_flatMap {f : Char → Text} (h : ∀ c, c.utf8Size ≤ byteLength (f c))
    (text : Text) : byteLength text ≤ byteLength (text.flatMap f) := by
  induction text with
  | nil => exact Nat.le_refl 0
  | cons c text ih =>
    have hc := h c
    rw [byteLength_cons, List.flatMap_cons, byteLength_append]
    omega

/-! ## Joined texts -/

/-- The bytes of the parts are among those of the joined text. -/
theorem sum_byteLength_le_intercalate (between : Text) (parts : List Text) :
    (parts.map byteLength).sum ≤ byteLength (between.intercalate parts) := by
  induction parts with
  | nil => exact Nat.le_refl 0
  | cons part parts ih =>
    cases parts with
    | nil => simp
    | cons next parts =>
      rw [List.intercalate_cons_cons, byteLength_append, byteLength_append, List.map_cons,
        List.sum_cons]
      omega

/-- The bytes of lines, each with a newline. -/
def lineBytes (lines : List Text) : Nat := (lines.map fun line => byteLength line + 1).sum

/-- No lines have no bytes. -/
@[simp] theorem lineBytes_nil : lineBytes [] = 0 := rfl

/-- A line adds its bytes and those of its end. -/
@[simp] theorem lineBytes_cons (line : Text) (lines : List Text) :
    lineBytes (line :: lines) = byteLength line + 1 + lineBytes lines := by
  rw [lineBytes, List.map_cons, List.sum_cons]
  rfl

/-- Lines one after another have the bytes of both. -/
@[simp] theorem lineBytes_append (front back : List Text) :
    lineBytes (front ++ back) = lineBytes front + lineBytes back := by
  rw [lineBytes, List.map_append, List.sum_append]
  rfl

/-- The lines of items have the bytes of each. -/
theorem lineBytes_flatMap {α : Type} (f : α → List Text) (items : List α) :
    lineBytes (items.flatMap f) = (items.map fun item => lineBytes (f item)).sum := by
  induction items with
  | nil => rfl
  | cons item items ih =>
    rw [List.flatMap_cons, lineBytes_append, ih, List.map_cons, List.sum_cons]

/-- Joined lines have a newline between them. -/
theorem byteLength_joinLines {lines : List Text} (h : lines ≠ []) :
    byteLength (joinLines lines) + 1 = lineBytes lines := by
  unfold joinLines
  induction lines with
  | nil => exact absurd rfl h
  | cons line lines ih =>
    cases lines with
    | nil => simp
    | cons next lines =>
      have hrest := ih (List.cons_ne_nil _ _)
      have hnewline : byteLength ['\n'] = 1 := by decide
      rw [List.intercalate_cons_cons, byteLength_append, byteLength_append, lineBytes_cons]
      omega

/-- Lines before others are joined to them by a newline. -/
theorem joinLines_append {front back : List Text} (hfront : front ≠ []) (hback : back ≠ []) :
    joinLines (front ++ back) = joinLines front ++ '\n' :: joinLines back := by
  unfold joinLines
  induction front with
  | nil => exact absurd rfl hfront
  | cons line front ih =>
    cases front with
    | nil =>
      obtain ⟨next, back, rfl⟩ := List.exists_cons_of_ne_nil hback
      simp [List.intercalate_cons_cons]
    | cons next front =>
      rw [List.cons_append, List.cons_append, List.intercalate_cons_cons,
        List.intercalate_cons_cons, ← List.cons_append, ih (List.cons_ne_nil _ _)]
      simp

/-! ## The end of a text -/

/-- A text is what is left when its end is stripped, and that end. -/
theorem byteLength_rdropWhile (p : Char → Bool) (text : Text) :
    byteLength (text.rdropWhile p) + byteLength (text.rtakeWhile p) = byteLength text := by
  rw [← byteLength_append, List.rdropWhile_append_rtakeWhile]

variable {p : Char → Bool}

/-- Behind a character that is not stripped, the end is that of what follows. -/
theorem rtakeWhile_append_of_exists {front back : Text}
    (h : ∃ c ∈ back, p c = false) : (front ++ back).rtakeWhile p = back.rtakeWhile p := by
  unfold List.rtakeWhile
  obtain ⟨c, hc, hp⟩ := h
  rw [List.reverse_append, List.takeWhile_append, if_neg]
  intro hlength
  have hall := List.takeWhile_eq_self_iff.mp
    ((List.takeWhile_prefix (p := p) (l := back.reverse)).eq_of_length hlength)
  rw [hall c (List.mem_reverse.mpr hc)] at hp
  cases hp

/-- A text that is stripped whole belongs to the end of what is before it. -/
theorem rtakeWhile_append_of_forall {front back : Text} (h : ∀ c ∈ back, p c = true) :
    (front ++ back).rtakeWhile p = front.rtakeWhile p ++ back := by
  unfold List.rtakeWhile
  have hall : ∀ c ∈ back.reverse, p c = true := fun c hc => h c (List.mem_reverse.mp hc)
  rw [List.reverse_append, List.takeWhile_append_of_pos hall, List.reverse_append,
    List.reverse_reverse]

/-- A text that ends with a word keeps its end. -/
theorem rtakeWhile_word (front : Text) {word : Text} (hword : word ≠ [])
    (h : ∀ c ∈ word, p c = false) : (front ++ word).rtakeWhile p = [] := by
  apply List.rtakeWhile_eq_nil_iff.mpr
  intro hne
  rw [List.getLast_append_of_ne_nil hne hword, h _ (List.getLast_mem hword)]
  exact Bool.false_ne_true

/-! ## Characters that are replaced -/

/-- Replace a character by a text. -/
def replaceChar (c : Char) (new text : Text) : Text :=
  text.flatMap fun d => if d = c then new else [d]

/-- A mark before each occurrence of a character takes a byte for each. -/
theorem byteLength_replaceChar {c mark : Char} (hmark : mark.utf8Size = 1) (text : Text) :
    byteLength (replaceChar c [mark, c] text) = byteLength text + text.count c := by
  unfold replaceChar
  induction text with
  | nil => rfl
  | cons d text ih =>
    rw [List.flatMap_cons, byteLength_append, ih, byteLength_cons, List.count_cons]
    by_cases h : d = c
    · subst h
      rw [if_pos rfl, byteLength_cons, byteLength_singleton, hmark, if_pos (beq_self_eq_true d)]
      omega
    · rw [if_neg h, byteLength_singleton, if_neg (fun hbeq => h (eq_of_beq hbeq))]
      omega

/-- Replacing one character by others than a second one keeps the occurrences of that. -/
theorem count_replaceChar {c other : Char} {new : Text} (hne : other ≠ c) (hnew : other ∉ new)
    (text : Text) : (replaceChar c new text).count other = text.count other := by
  unfold replaceChar
  induction text with
  | nil => rfl
  | cons d text ih =>
    rw [List.flatMap_cons, List.count_append, ih, List.count_cons]
    by_cases h : d = c
    · subst h
      rw [if_pos rfl, List.count_eq_zero_of_not_mem hnew,
        if_neg (fun hbeq => hne (eq_of_beq hbeq).symm), Nat.zero_add, Nat.add_zero]
    · rw [if_neg h, List.count_singleton, Nat.add_comm]

end AwesomeAgent
