import AwesomeAgent.Library.Json
import Mathlib.Data.List.TakeWhile

/-!
# Numerals of natural numbers

The decimal digits of a natural number are a numeral of the JSON grammar.
-/

namespace AwesomeAgent.Numeral

private theorem all_isDigit_toDigits (n : Nat) : ∀ c ∈ Nat.toDigits 10 n, c.isDigit = true :=
  fun _ hc => Nat.isDigit_of_mem_toDigits (by decide : 0 < 10) (by decide) hc

/-- A number that is not zero does not start with a zero. -/
theorem head_toDigits_ne {n : Nat} (hn : 0 < n) : (Nat.toDigits 10 n).head? ≠ some '0' := by
  induction n using Nat.strongRecOn with
  | ind n ih =>
    rcases Nat.lt_or_ge n 10 with hlt | hge
    · rw [Nat.toDigits_of_lt_base hlt]
      simp only [List.head?_cons, ne_eq, Option.some.injEq, Nat.digitChar_eq_zero]
      omega
    · have hpos : 0 < n / 10 := Nat.div_pos hge (by decide)
      rw [Nat.toDigits_of_base_le (by decide) hge, List.head?_append]
      cases hhead : (Nat.toDigits 10 (n / 10)).head? with
      | none =>
        rw [List.head?_eq_none_iff] at hhead
        exact absurd hhead Nat.toDigits_ne_nil
      | some c =>
        have hrest := ih (n / 10) (Nat.div_lt_self hn (by decide)) hpos
        rw [hhead] at hrest
        exact hrest

/-- Digits that do not start with a zero are a numeral. -/
theorem isNumeral_of_digits {cs : List Char} (hdigits : ∀ c ∈ cs, c.isDigit = true)
    (hnil : cs ≠ []) (hhead : cs = ['0'] ∨ cs.head? ≠ some '0') : isNumeral cs = true := by
  have htake : cs.takeWhile Char.isDigit = cs := List.takeWhile_eq_self_iff.mpr hdigits
  have hdrop : cs.dropWhile Char.isDigit = [] := List.dropWhile_eq_nil_iff.mpr hdigits
  have hall : cs.all isNumeralChar = true := by
    rw [List.all_eq_true]
    intro c hc
    unfold isNumeralChar
    rw [hdigits c hc]
    rfl
  unfold isNumeral
  dsimp only
  split
  · exact absurd (hdigits '-' List.mem_cons_self) (by decide)
  · rw [htake, hdrop, hall, List.isEmpty_eq_false_iff.mpr hnil]
    simpa [isFraction, isExponent] using hhead

/-- The numeral of a number. -/
def ofNat (n : Nat) : Numeral where
  chars := Nat.toDigits 10 n
  valid := by
    refine isNumeral_of_digits (all_isDigit_toDigits n) Nat.toDigits_ne_nil ?_
    rcases Nat.eq_zero_or_pos n with rfl | hn
    · exact .inl rfl
    · exact .inr (head_toDigits_ne hn)

end AwesomeAgent.Numeral
