import AwesomeAgent.Library.JsonText
import AwesomeAgent.Library.Text
import Mathlib.Algebra.GroupWithZero.Nat

/-!
# Text of code points

A string of the runtime is a sequence of code points, among which surrogates may stand alone.
Strict UTF-8 encoding refuses them.
-/

namespace AwesomeAgent

/-- A code point, surrogates included. -/
abbrev CodePoint := Fin 0x110000

/-- A string as a sequence of code points. -/
abbrev PointText := List CodePoint

namespace CodePoint

/-- Half of a surrogate pair. -/
def isSurrogate (c : CodePoint) : Bool := decide (0xD800 ≤ c.val ∧ c.val ≤ 0xDFFF)

/-- The code point of a character. -/
def ofChar (c : Char) : CodePoint := Fin.ofNat 0x110000 c.toNat

/-- The bytes of a code point. -/
def encode (c : CodePoint) : Option Bytes :=
  if c.isSurrogate then none else some (String.utf8EncodeChar (Char.ofNat c.val))

/-- How many bytes a code point takes. -/
def width (c : CodePoint) : Nat :=
  if c.val ≤ 0x7F then 1 else if c.val ≤ 0x7FF then 2 else if c.val ≤ 0xFFFF then 3 else 4

private theorem isValidChar {c : CodePoint} (h : c.isSurrogate = false) : c.val.isValidChar := by
  unfold isSurrogate at h
  rw [decide_eq_false_iff_not] at h
  have hbound := c.isLt
  unfold Nat.isValidChar
  omega

private theorem length_encode {c : CodePoint} {bytes : Bytes} (h : c.encode = some bytes) :
    bytes.length = c.width := by
  unfold encode at h
  split at h
  · cases h
  · next hsurrogate =>
    cases h
    have hvalid := isValidChar (Bool.eq_false_iff.mpr hsurrogate)
    have hval : (Char.ofNat c.val).val.toNat = c.val := JsonText.toNat_ofNat hvalid
    rw [String.length_utf8EncodeChar]
    unfold Char.utf8Size width
    simp only [UInt32.le_iff_toNat_le, hval]
    rfl

end CodePoint

/-- The string of a text. -/
def pointsOf (text : Text) : PointText := text.map CodePoint.ofChar

/-- Strict UTF-8 encoding of a string. -/
def encodePoints : PointText → Option Bytes
  | [] => some []
  | c :: rest =>
      match c.encode, encodePoints rest with
      | some bytes, some more => some (bytes ++ more)
      | _, _ => none

/-- How many bytes a string takes. -/
def pointsWidth (text : PointText) : Nat := (text.map CodePoint.width).sum

/-- No points have no width. -/
@[simp]
theorem pointsWidth_nil : pointsWidth [] = 0 := rfl

/-- A point adds its width. -/
@[simp]
theorem pointsWidth_cons (c : CodePoint) (text : PointText) :
    pointsWidth (c :: text) = c.width + pointsWidth text := by
  rw [pointsWidth, List.map_cons, List.sum_cons]
  rfl

/-- Points one after another have the width of both. -/
@[simp]
theorem pointsWidth_append (front text : PointText) :
    pointsWidth (front ++ text) = pointsWidth front + pointsWidth text := by
  rw [pointsWidth, List.map_append, List.sum_append]
  rfl

/-- A string without surrogates has an encoding, whose length is the sum of the widths. -/
theorem encodePoints_eq_some {text : PointText} (h : ∀ c ∈ text, c.isSurrogate = false) :
    ∃ bytes, encodePoints text = some bytes ∧ bytes.length = pointsWidth text := by
  induction text with
  | nil => exact ⟨[], rfl, rfl⟩
  | cons c text ih =>
    obtain ⟨more, hmore, hlength⟩ := ih fun d hd => h d (List.mem_cons_of_mem _ hd)
    have hencode : c.encode = some (String.utf8EncodeChar (Char.ofNat c.val)) := by
      rw [CodePoint.encode, h c List.mem_cons_self, if_neg Bool.false_ne_true]
    refine ⟨String.utf8EncodeChar (Char.ofNat c.val) ++ more, ?_, ?_⟩
    · rw [encodePoints, hencode, hmore]
    · rw [List.length_append, CodePoint.length_encode hencode, hlength, pointsWidth_cons]

end AwesomeAgent
