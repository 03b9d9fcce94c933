import AwesomeAgent.Conversations.Titles
import Mathlib.Data.List.Basic

/-!
# Graphemes of the composer

A segmenter cuts a text into graphemes. Characters behind a text can only extend its last
grapheme, so a boundary in front of a grapheme depends on nothing behind it.
-/

namespace AwesomeAgent.Composer

/-- The segmenter of the platform. -/
class Segmenter where
  graphemes : Text → List Text
  /-- The graphemes make up the text. -/
  flatten_graphemes (value : Text) : (graphemes value).flatten = value
  /-- No grapheme is empty. -/
  ne_nil_of_mem_graphemes {value part : Text} (h : part ∈ graphemes value) : part ≠ []
  /-- Characters behind a text at most extend its last grapheme. -/
  graphemes_append {value : Text} (hne : value ≠ []) (rest : Text) :
    ∃ front last longer later, graphemes value = front ++ [last] ∧
      graphemes (value ++ rest) = front ++ longer :: later ∧ last <+: longer

/-- What the Unicode database tells of a character. -/
class CharacterData where
  /-- The general category of the character is one of the marks. -/
  isMark : Char → Bool
  /-- The character is an extended pictographic. -/
  isPictographic : Char → Bool

open Segmenter

variable [Segmenter] {value rest : Text}

/-- The number of graphemes. -/
def graphemeCount (value : Text) : Nat := (graphemes value).length

/-- The number of characters. -/
def codePointCount (value : Text) : Nat := value.length

/-- The place of a grapheme in a text. -/
def codeUnitOffset (value : Text) (grapheme : Nat) : Nat :=
  if grapheme = 0 then 0
  else if graphemeCount value ≤ grapheme then value.length
  else ((graphemes value).take grapheme).flatten.length

/-- The text in front of a grapheme. -/
def textBefore (value : Text) (grapheme : Nat) : Text :=
  ((graphemes value).take grapheme).flatten

/-- The text from a grapheme on. -/
def textBehind (value : Text) (grapheme : Nat) : Text :=
  ((graphemes value).drop grapheme).flatten

/-- What is before and behind a grapheme is the value. -/
theorem textBefore_append_textBehind (value : Text) (grapheme : Nat) :
    textBefore value grapheme ++ textBehind value grapheme = value := by
  rw [textBefore, textBehind, ← List.flatten_append, List.take_append_drop, flatten_graphemes]

private theorem codeUnitOffset_eq (value : Text) (grapheme : Nat) :
    codeUnitOffset value grapheme = (textBefore value grapheme).length := by
  unfold codeUnitOffset textBefore
  split
  · next h => rw [h, List.take_zero, List.flatten_nil, List.length_nil]
  split
  · next h => rw [List.take_of_length_le h, flatten_graphemes]
  · rfl

/-- What is taken up to an offset is what is before it. -/
theorem take_codeUnitOffset (value : Text) (grapheme : Nat) :
    value.take (codeUnitOffset value grapheme) = textBefore value grapheme := by
  have hsplit := textBefore_append_textBehind value grapheme
  calc value.take (codeUnitOffset value grapheme)
    _ = (textBefore value grapheme ++ textBehind value grapheme).take
          (textBefore value grapheme).length := by rw [hsplit, codeUnitOffset_eq]
    _ = textBefore value grapheme := List.take_left

/-- What is dropped up to an offset is what is behind it. -/
theorem drop_codeUnitOffset (value : Text) (grapheme : Nat) :
    value.drop (codeUnitOffset value grapheme) = textBehind value grapheme := by
  have hsplit := textBefore_append_textBehind value grapheme
  calc value.drop (codeUnitOffset value grapheme)
    _ = (textBefore value grapheme ++ textBehind value grapheme).drop
          (textBefore value grapheme).length := by rw [hsplit, codeUnitOffset_eq]
    _ = textBehind value grapheme := List.drop_left

/-- No text has no graphemes. -/
@[simp] theorem graphemes_nil : graphemes [] = [] := by
  cases h : graphemes [] with
  | nil => rfl
  | cons first more =>
    have hflat := flatten_graphemes []
    rw [h, List.flatten_cons, List.append_eq_nil_iff] at hflat
    exact absurd hflat.1 (ne_nil_of_mem_graphemes (h ▸ List.mem_cons_self))

omit [Segmenter] in
private theorem eq_nil_of_flatten {parts : List Text} (h : ∀ part ∈ parts, part ≠ [])
    (hflat : parts.flatten = []) : parts = [] := by
  cases parts with
  | nil => rfl
  | cons first more =>
    rw [List.flatten_cons, List.append_eq_nil_iff] at hflat
    exact absurd hflat.1 (h first List.mem_cons_self)

private theorem ne_nil_of_mem_take {count : Nat} {part : Text}
    (h : part ∈ (graphemes value).take count) : part ≠ [] :=
  ne_nil_of_mem_graphemes (List.mem_of_mem_take h)

/-- The first graphemes of a text are the graphemes of the text that they make up. -/
theorem graphemes_textBefore (value : Text) (count : Nat) :
    graphemes (textBefore value count) = (graphemes value).take count := by
  by_cases hnil : textBefore value count = []
  · rw [hnil, graphemes_nil]
    exact (eq_nil_of_flatten (fun _ => ne_nil_of_mem_take) hnil).symm
  · obtain ⟨front, last, longer, later, hbefore, hwhole, hprefix⟩ :=
      graphemes_append hnil (textBehind value count)
    rw [textBefore_append_textBehind] at hwhole
    have hlast : last ≠ [] := ne_nil_of_mem_graphemes (by rw [hbefore]; simp)
    have hflat : textBefore value count = front.flatten ++ last := by
      rw [← flatten_graphemes (textBefore value count), hbefore, List.flatten_concat]
    have hpos := List.length_pos_of_ne_nil hlast
    have hcount : front.length < count := by
      by_contra hle
      rw [textBefore, hwhole, List.take_append_of_le_length (Nat.not_lt.mp hle)] at hflat
      have hlength := congrArg List.length hflat
      have hfront := congrArg (fun parts : List Text => parts.flatten.length)
        (List.take_append_drop count front)
      rw [List.flatten_append, List.length_append] at hfront
      rw [List.length_append] at hlength
      omega
    obtain ⟨more, rfl⟩ := Nat.exists_eq_add_of_lt hcount
    have htake : (graphemes value).take (front.length + more + 1) =
        front ++ longer :: later.take more := by
      rw [hwhole, Nat.add_assoc, List.take_length_add_append, List.take_succ_cons]
    rw [textBefore, htake, List.flatten_append, List.flatten_cons] at hflat
    have hlonger := List.append_cancel_left hflat
    have hlength := congrArg List.length hlonger
    rw [List.length_append] at hlength
    have hrest : (later.take more).flatten = [] := by
      apply List.eq_nil_of_length_eq_zero
      have hle := hprefix.length_le
      omega
    have hnone : later.take more = [] := eq_nil_of_flatten (fun part hpart =>
      ne_nil_of_mem_take (htake ▸ List.mem_append_right _ (List.mem_cons_of_mem _ hpart))) hrest
    rw [hrest, List.append_nil] at hlonger
    rw [hbefore, htake, hnone, hlonger]

/-- There are as many graphemes before one as its number says. -/
theorem graphemeCount_textBefore {count : Nat} (h : count ≤ graphemeCount value) :
    graphemeCount (textBefore value count) = count := by
  rw [graphemeCount, graphemes_textBefore]
  exact List.length_take_of_le h

/-- Characters behind a text do not take graphemes away. -/
theorem graphemeCount_le_append (value rest : Text) :
    graphemeCount value ≤ graphemeCount (value ++ rest) := by
  by_cases hnil : value = []
  · rw [hnil, graphemeCount, graphemes_nil]
    exact Nat.zero_le _
  · obtain ⟨front, last, longer, later, hvalue, hwhole, -⟩ := graphemes_append hnil rest
    rw [graphemeCount, graphemeCount, hvalue, hwhole, List.length_append, List.length_append,
      List.length_singleton, List.length_cons]
    omega

/-! ## A segmenter -/

omit [Segmenter] in
private theorem ne_nil_of_mem_graphemesFrom [UnicodeData] {current part : Text}
    (h : part ∈ graphemesFrom current value) : part ≠ [] := by
  induction value generalizing current with
  | nil =>
    rw [graphemesFrom] at h
    split at h
    · cases h
    · next hne => rwa [List.mem_singleton.mp h]
  | cons c value ih =>
    rw [graphemesFrom] at h
    split at h
    · exact ih h
    · next hne =>
      split at h
      · exact ih h
      · obtain rfl | h := List.mem_cons.mp h
        · exact hne
        · exact ih h

/-- The combining diacritical marks. -/
def isDiacritical (c : Char) : Bool := decide (0x300 ≤ c.toNat ∧ c.toNat ≤ 0x36F)

/-- A database that knows the combining diacritical marks. -/
@[reducible] def diacriticalData : CharacterData where
  isMark := isDiacritical
  isPictographic _ := false

/-- A segmenter that keeps marks and joined characters together. -/
@[reducible] def markSegmenter : Segmenter :=
  let _ : UnicodeData := ⟨isDiacritical⟩
  { graphemes := visibleGraphemes
    flatten_graphemes := graphemesFrom_flatten []
    ne_nil_of_mem_graphemes := ne_nil_of_mem_graphemesFrom
    graphemes_append := fun {value} hne rest => by
      obtain ⟨front, last, hvalue, hlast, hwhole⟩ :=
        graphemesFrom_append (show [] ++ value ≠ [] from hne) rest
      obtain ⟨longer, later, hcons, hprefix⟩ := graphemesFrom_eq_cons hlast rest
      exact ⟨front, last, longer, later, hvalue, by rw [← hcons]; exact hwhole, hprefix⟩ }

end AwesomeAgent.Composer
