import AwesomeAgent.Library.Text
import Mathlib.Algebra.GroupWithZero.Nat
import Mathlib.Data.Char
import Mathlib.Data.List.Lex
import Mathlib.Order.Lattice

/-!
# Points in time and their ISO texts

A point in time is given by its calendar fields in UTC. Its ISO text has fields of fixed width,
and a fraction unless the microseconds are zero; the texts are in the order of the points.
-/

namespace AwesomeAgent

/-- The days of a month. -/
def daysInMonth (year month : Nat) : Nat :=
  if month = 2 then if year % 4 = 0 ∧ (year % 100 ≠ 0 ∨ year % 400 = 0) then 29 else 28
  else if month ∈ [4, 6, 9, 11] then 30 else 31

/-- A point in time, by its fields in UTC. -/
@[ext] structure Datetime where
  year : Nat
  month : Nat
  day : Nat
  hour : Nat
  minute : Nat
  second : Nat
  microsecond : Nat
  dated : (1 ≤ year ∧ year ≤ 9999) ∧ (1 ≤ month ∧ month ≤ 12) ∧
    1 ≤ day ∧ day ≤ daysInMonth year month
  timed : hour < 24 ∧ minute < 60 ∧ second < 60 ∧ microsecond < 1000000
  deriving DecidableEq

namespace Datetime

/-- The fields, the longest span of time first. -/
def fields (t : Datetime) : List Nat :=
  [t.year, t.month, t.day, t.hour, t.minute, t.second, t.microsecond]

private theorem fields_injective : Function.Injective fields := by
  intro a b h
  simp only [fields, List.cons.injEq, and_true] at h
  obtain ⟨hyear, hmonth, hday, hhour, hminute, hsecond, hmicrosecond⟩ := h
  exact Datetime.ext hyear hmonth hday hhour hminute hsecond hmicrosecond

instance : LinearOrder Datetime := LinearOrder.lift' fields fields_injective

private theorem lt_iff_fields (a b : Datetime) : a < b ↔ a.fields < b.fields := Iff.rfl

/-- The last decimal digits of a number, with zeros before it. -/
def digits : Nat → Nat → Text
  | 0, _ => []
  | width + 1, n => digits width (n / 10) ++ [Nat.digitChar (n % 10)]

/-- The fraction of a second, if there is one, and the offset of UTC. -/
def fraction (microsecond : Nat) : Text :=
  (if microsecond = 0 then [] else '.' :: digits 6 microsecond) ++ "+00:00".toList

/-- The ISO text. -/
def isoformat (t : Datetime) : Text :=
  digits 4 t.year ++ '-' :: (digits 2 t.month ++ '-' :: (digits 2 t.day ++ 'T' ::
    (digits 2 t.hour ++ ':' :: (digits 2 t.minute ++ ':' :: (digits 2 t.second ++
      fraction t.microsecond)))))

/-! ## The order of the texts -/

private theorem digitChar_lt {d e : Nat} (he : e < 10) (h : d < e) :
    Nat.digitChar d < Nat.digitChar e := by
  have hall : ∀ e < 10, ∀ d < e, Nat.digitChar d < Nat.digitChar e := by decide
  exact hall e he d h

private theorem digits_lt {width n m : Nat} (hm : m < 10 ^ width) (h : n < m) (x y : Text) :
    digits width n ++ x < digits width m ++ y := by
  induction width generalizing n m x y with
  | zero => omega
  | succ width ih =>
    rw [digits, digits, List.append_assoc, List.append_assoc]
    by_cases hlead : n / 10 < m / 10
    · exact ih (Nat.div_lt_of_lt_mul (by rw [Nat.mul_comm, ← Nat.pow_succ]; exact hm)) hlead _ _
    · have hsame : n / 10 = m / 10 := by omega
      rw [hsame]
      apply List.append_left_lt
      apply List.cons_lt_cons_iff.mpr
      exact .inl (digitChar_lt (by omega) (by omega))

private theorem field_lt {width n m : Nat} {x y : Text} (hm : m < 10 ^ width)
    (h : n < m ∨ n = m ∧ x < y) : digits width n ++ x < digits width m ++ y := by
  obtain h | ⟨rfl, h⟩ := h
  · exact digits_lt hm h x y
  · exact List.append_left_lt h

variable {c : Char}

private theorem mark_lt {x y : Text} (h : x < y) : c :: x < c :: y :=
  List.cons_lt_cons_iff.mpr (.inr ⟨rfl, h⟩)

private theorem fraction_lt {n m : Nat} (hm : m < 1000000) (h : n < m) :
    fraction n < fraction m := by
  unfold fraction
  rw [if_neg (show m ≠ 0 by omega)]
  split
  · exact List.cons_lt_cons_iff.mpr (.inl (by decide))
  · exact mark_lt (digits_lt hm h _ _)

private theorem bound_of_day (t : Datetime) : t.day < 100 := by
  have hday := t.dated.2.2.2
  unfold daysInMonth at hday
  split at hday
  · split at hday <;> omega
  · split at hday <;> omega

private theorem isoformat_lt {a b : Datetime} (h : a < b) : a.isoformat < b.isoformat := by
  rw [lt_iff_fields, fields, fields] at h
  simp only [List.cons_lt_cons_iff, List.not_lt_nil, and_false, or_false] at h
  obtain ⟨⟨⟨-, hyear⟩, ⟨-, hmonth⟩, -⟩, hhour, hminute, hsecond, hmicrosecond⟩ :=
    And.intro b.dated b.timed
  have hday := bound_of_day b
  refine field_lt (by omega) (h.imp_right fun h => ⟨h.1, mark_lt ?_⟩)
  refine field_lt (by omega) (h.2.imp_right fun h => ⟨h.1, mark_lt ?_⟩)
  refine field_lt (by omega) (h.2.imp_right fun h => ⟨h.1, mark_lt ?_⟩)
  refine field_lt (by omega) (h.2.imp_right fun h => ⟨h.1, mark_lt ?_⟩)
  refine field_lt (by omega) (h.2.imp_right fun h => ⟨h.1, mark_lt ?_⟩)
  refine field_lt (by omega) (h.2.imp_right fun h => ⟨h.1, ?_⟩)
  exact fraction_lt hmicrosecond h.2

private theorem isoformat_strictMono : StrictMono isoformat := fun _ _ => isoformat_lt

/-- The texts are in the order of the points. -/
theorem isoformat_lt_iff {a b : Datetime} : a.isoformat < b.isoformat ↔ a < b :=
  isoformat_strictMono.lt_iff_lt

/-- Different times have different formats. -/
theorem isoformat_injective : Function.Injective isoformat := isoformat_strictMono.injective

/-! ## The shape of the texts -/

private theorem mem_digits {width n : Nat} (h : c ∈ digits width n) :
    0x20 ≤ c.toNat ∧ c.toNat < 0x80 := by
  induction width generalizing n with
  | zero => cases h
  | succ width ih =>
    have hchar : ∀ d < 10, 0x20 ≤ (Nat.digitChar d).toNat ∧ (Nat.digitChar d).toNat < 0x80 := by
      decide
    obtain h | h := List.mem_append.mp h
    · exact ih h
    · rw [List.mem_singleton.mp h]
      exact hchar _ (Nat.mod_lt _ (by decide))

private theorem length_digits (width n : Nat) : (digits width n).length = width := by
  induction width generalizing n with
  | zero => rfl
  | succ width ih => rw [digits, List.length_append, ih, List.length_singleton]

private theorem mem_fraction {microsecond : Nat} (h : c ∈ fraction microsecond) :
    0x20 ≤ c.toNat ∧ c.toNat < 0x80 := by
  have hoffset :
      ("+00:00".toList.all fun c => decide (0x20 ≤ c.toNat ∧ c.toNat < 0x80)) = true := by
    decide
  obtain h | h := List.mem_append.mp h
  · split at h
    · cases h
    · obtain rfl | h := List.mem_cons.mp h
      · decide
      · exact mem_digits h
  · exact of_decide_eq_true (List.all_eq_true.mp hoffset c h)

/-- The text is printable ASCII. -/
theorem ascii_isoformat {t : Datetime} (h : c ∈ t.isoformat) :
    0x20 ≤ c.toNat ∧ c.toNat < 0x80 := by
  simp only [isoformat, List.mem_append, List.mem_cons] at h
  obtain h | rfl | h | rfl | h | rfl | h | rfl | h | rfl | h | h := h
  · exact mem_digits h
  · decide
  · exact mem_digits h
  · decide
  · exact mem_digits h
  · decide
  · exact mem_digits h
  · decide
  · exact mem_digits h
  · decide
  · exact mem_digits h
  · exact mem_fraction h

/-- A formatted time has at most 32 characters. -/
theorem length_isoformat_le (t : Datetime) : t.isoformat.length ≤ 32 := by
  have hoffset : "+00:00".toList.length = 6 := rfl
  have hfraction : (fraction t.microsecond).length ≤ 13 := by
    unfold fraction
    split
    · simp
    · simp [length_digits]
  simp only [isoformat, List.length_append, List.length_cons, length_digits]
  omega

/-! ## Reading the texts -/

/-- A number of digits, and what follows. -/
def readDigits : Nat → Text → Option (Nat × Text)
  | 0, text => some (0, text)
  | width + 1, text => do
      let (n, rest) ← readDigits width text
      match rest with
      | c :: rest => if c.isDigit then some (n * 10 + (c.toNat - 48), rest) else none
      | [] => none

/-- What follows a mark. -/
def readMark (mark : Char) : Text → Option Text
  | c :: rest => if c = mark then some rest else none
  | [] => none

/-- The microseconds, if there is a fraction, and what follows. -/
def readFraction (text : Text) : Option (Nat × Text) :=
  match readMark '.' text with
  | some rest => readDigits 6 rest
  | none => some (0, text)

/-- The point with an ISO text of the spelling above. -/
def ofIsoformat (text : Text) : Option Datetime := do
  let (year, text) ← readDigits 4 text
  let (month, text) ← readDigits 2 (← readMark '-' text)
  let (day, text) ← readDigits 2 (← readMark '-' text)
  let (hour, text) ← readDigits 2 (← readMark 'T' text)
  let (minute, text) ← readDigits 2 (← readMark ':' text)
  let (second, text) ← readDigits 2 (← readMark ':' text)
  let (microsecond, text) ← readFraction text
  if h : ((1 ≤ year ∧ year ≤ 9999) ∧ (1 ≤ month ∧ month ≤ 12) ∧
      1 ≤ day ∧ day ≤ daysInMonth year month) ∧
      (hour < 24 ∧ minute < 60 ∧ second < 60 ∧ microsecond < 1000000) ∧
      text = "+00:00".toList then
    some ⟨year, month, day, hour, minute, second, microsecond, h.1, h.2.1⟩
  else none

private theorem readDigits_digits {width n : Nat} (h : n < 10 ^ width) (rest : Text) :
    readDigits width (digits width n ++ rest) = some (n, rest) := by
  induction width generalizing n rest with
  | zero =>
    obtain rfl : n = 0 := by simpa using h
    rfl
  | succ width ih =>
    have hchar : ∀ d < 10, (Nat.digitChar d).isDigit = true ∧ (Nat.digitChar d).toNat - 48 = d := by
      decide
    obtain ⟨hdigit, hvalue⟩ := hchar (n % 10) (Nat.mod_lt _ (by decide))
    rw [digits, List.append_assoc, readDigits,
      ih (Nat.div_lt_of_lt_mul (by rw [Nat.mul_comm, ← Nat.pow_succ]; exact h))]
    simp only [Option.bind_eq_bind, Option.bind_some, List.singleton_append, hdigit, if_true,
      hvalue]
    rw [Nat.div_add_mod' n 10]

/-- The text of a point is read as the point. -/
theorem ofIsoformat_isoformat (t : Datetime) : ofIsoformat t.isoformat = some t := by
  obtain ⟨⟨⟨-, hyear⟩, ⟨-, hmonth⟩, -⟩, hhour, hminute, hsecond, hmicrosecond⟩ :=
    And.intro t.dated t.timed
  have hday := bound_of_day t
  have hfraction : readFraction (fraction t.microsecond) =
      some (t.microsecond, "+00:00".toList) := by
    unfold fraction readFraction
    by_cases hzero : t.microsecond = 0
    · rw [if_pos hzero, hzero]
      rfl
    · rw [if_neg hzero, List.cons_append, readMark, if_pos rfl]
      exact readDigits_digits hmicrosecond _
  unfold ofIsoformat isoformat
  simp only [readDigits_digits (show t.year < 10 ^ 4 by omega),
    readDigits_digits (show t.month < 10 ^ 2 by omega),
    readDigits_digits (show t.day < 10 ^ 2 by omega),
    readDigits_digits (show t.hour < 10 ^ 2 by omega),
    readDigits_digits (show t.minute < 10 ^ 2 by omega),
    readDigits_digits (show t.second < 10 ^ 2 by omega), hfraction, readMark, if_true,
    Option.bind_eq_bind, Option.bind_some]
  rw [dif_pos ⟨t.dated, t.timed, trivial⟩]

end Datetime

end AwesomeAgent
