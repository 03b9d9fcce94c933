import AwesomeAgent.Library.Content

/-!
# Base64 text

Three bytes are written as four digits of six bits each, in the alphabet for URLs and without
padding.
-/

namespace AwesomeAgent.Base64

/-- The digits in the order of their values. -/
def alphabet : List Char :=
  "ABCDEFGHIJKLMNOPQRSTUVWXYZabcdefghijklmnopqrstuvwxyz0123456789-_".toList

/-- The digit of a value below 64. -/
def digit (value : Nat) : Char := alphabet.getD value 'A'

/-- The value of a digit. -/
def digitValue (c : Char) : Option Nat := alphabet.idxOf? c

/-- The digits of a sequence of bytes. -/
def encode : Bytes → List Char
  | a :: b :: c :: rest =>
      digit (a.toNat / 4) :: digit (a.toNat % 4 * 16 + b.toNat / 16) ::
        digit (b.toNat % 16 * 4 + c.toNat / 64) :: digit (c.toNat % 64) :: encode rest
  | [a, b] =>
      [digit (a.toNat / 4), digit (a.toNat % 4 * 16 + b.toNat / 16), digit (b.toNat % 16 * 4)]
  | [a] => [digit (a.toNat / 4), digit (a.toNat % 4 * 16)]
  | [] => []

/-- The bytes of four, three or two digits; bits that fill no byte are dropped. -/
def bytesOf : List Nat → Option Bytes
  | w :: x :: y :: z :: rest => (bytesOf rest).map fun bytes =>
      UInt8.ofNat (w * 4 + x / 16) :: UInt8.ofNat (x % 16 * 16 + y / 4) ::
        UInt8.ofNat (y % 4 * 64 + z) :: bytes
  | [w, x, y] => some [UInt8.ofNat (w * 4 + x / 16), UInt8.ofNat (x % 16 * 16 + y / 4)]
  | [w, x] => some [UInt8.ofNat (w * 4 + x / 16)]
  | [_] => none
  | [] => some []

/-- The bytes of a text of digits. -/
def decode (text : List Char) : Option Bytes := (text.mapM digitValue).bind bytesOf

private theorem digitValue_digit {value : Nat} (h : value < 64) :
    digitValue (digit value) = some value := by
  revert value
  decide

private theorem toByte {n : Nat} (b : UInt8) (h : n = b.toNat) : UInt8.ofNat n = b := by
  rw [h, UInt8.ofNat_toNat]

/-- Decoding inverts encoding. -/
theorem decode_encode (bytes : Bytes) : decode (encode bytes) = some bytes := by
  unfold decode
  fun_induction encode bytes with
  | case1 a b c rest ih =>
    have ha := a.toNat_lt
    have hb := b.toNat_lt
    have hc := c.toNat_lt
    obtain ⟨values, hvalues, hbytes⟩ := Option.bind_eq_some_iff.mp ih
    simp only [List.mapM_cons, digitValue_digit (show a.toNat / 4 < 64 by omega),
      digitValue_digit (show a.toNat % 4 * 16 + b.toNat / 16 < 64 by omega),
      digitValue_digit (show b.toNat % 16 * 4 + c.toNat / 64 < 64 by omega),
      digitValue_digit (show c.toNat % 64 < 64 by omega), hvalues, Option.pure_def,
      Option.bind_eq_bind, Option.bind_some, bytesOf, hbytes, Option.map_some]
    rw [toByte a (by omega), toByte b (by omega), toByte c (by omega)]
  | case2 a b =>
    have ha := a.toNat_lt
    have hb := b.toNat_lt
    simp only [List.mapM_cons, List.mapM_nil, digitValue_digit (show a.toNat / 4 < 64 by omega),
      digitValue_digit (show a.toNat % 4 * 16 + b.toNat / 16 < 64 by omega),
      digitValue_digit (show b.toNat % 16 * 4 < 64 by omega), Option.pure_def,
      Option.bind_eq_bind, Option.bind_some, bytesOf]
    rw [toByte a (by omega), toByte b (by omega)]
  | case3 a =>
    have ha := a.toNat_lt
    simp only [List.mapM_cons, List.mapM_nil, digitValue_digit (show a.toNat / 4 < 64 by omega),
      digitValue_digit (show a.toNat % 4 * 16 < 64 by omega), Option.pure_def,
      Option.bind_eq_bind, Option.bind_some, bytesOf]
    rw [toByte a (by omega)]
  | case4 => rfl

/-- Every three bytes are encoded by four digits. -/
theorem length_encode (bytes : Bytes) : (encode bytes).length = (4 * bytes.length + 2) / 3 := by
  fun_induction encode bytes with
  | case1 a b c rest ih =>
    simp only [List.length_cons, ih]
    omega
  | case2 a b => simp
  | case3 a => simp
  | case4 => rfl

private theorem digit_mem (value : Nat) : digit value ∈ alphabet := by
  unfold digit
  rw [List.getD_eq_getElem?_getD]
  cases h : alphabet[value]? with
  | none => decide
  | some c => exact List.mem_of_getElem? h

/-- Encoded bytes are digits. -/
theorem mem_encode {bytes : Bytes} {c : Char} (h : c ∈ encode bytes) : c ∈ alphabet := by
  fun_induction encode bytes with
  | case1 a b d rest ih =>
    simp only [List.mem_cons] at h
    obtain rfl | rfl | rfl | rfl | h := h
    · exact digit_mem _
    · exact digit_mem _
    · exact digit_mem _
    · exact digit_mem _
    · exact ih h
  | case2 a b =>
    simp only [List.mem_cons, List.not_mem_nil, or_false] at h
    obtain rfl | rfl | rfl := h <;> exact digit_mem _
  | case3 a =>
    simp only [List.mem_cons, List.not_mem_nil, or_false] at h
    obtain rfl | rfl := h <;> exact digit_mem _
  | case4 => cases h

end AwesomeAgent.Base64
