import Mathlib.Data.List.Basic
import Mathlib.Data.List.Infix

/-!
# The texts of JSON strings

A string is a list of UTF-16 code units. The text of a string writes a surrogate pair as
one character and escapes control characters, quotes, backslashes and lone surrogates;
reading a text gives back the code units.
-/

namespace AwesomeAgent

/-- A property of the elements of a closed list, by evaluation. -/
theorem forall_of_all {α : Type} {P : α → Prop} [DecidablePred P] {xs : List α}
    (h : (xs.all fun x => decide (P x)) = true) : ∀ x ∈ xs, P x :=
  fun x hx => of_decide_eq_true (List.all_eq_true.mp h x hx)

namespace JsonText

/-- The first half of a surrogate pair. -/
def isHigh (u : UInt16) : Bool := decide (0xD800 ≤ u.toNat ∧ u.toNat < 0xDC00)

/-- The second half of a surrogate pair. -/
def isLow (u : UInt16) : Bool := decide (0xDC00 ≤ u.toNat ∧ u.toNat < 0xE000)

/-- The character of a surrogate pair. -/
def pairChar (high low : UInt16) : Char :=
  Char.ofNat (0x10000 + (high.toNat - 0xD800) * 1024 + (low.toNat - 0xDC00))

/-- The code units of a character. -/
def unitsOf (c : Char) : List UInt16 :=
  if c.toNat < 0x10000 then [UInt16.ofNat c.toNat]
  else [UInt16.ofNat (0xD800 + (c.toNat - 0x10000) / 1024),
    UInt16.ofNat (0xDC00 + (c.toNat - 0x10000) % 1024)]

/-- The code units with an escape of two characters. -/
def shortEscapes : List (UInt16 × Char) :=
  [(0x22, '"'), (0x5c, '\\'), (0x08, 'b'), (0x0c, 'f'), (0x0a, 'n'), (0x0d, 'r'), (0x09, 't')]

/-- The code unit of an escape of two characters. -/
def unescape (e : Char) : Option UInt16 :=
  if e = '/' then some 0x2f
  else (shortEscapes.find? fun p => decide (p.2 = e)).map Prod.fst

/-- A hexadecimal digit, in lower case. -/
def hexDigit (d : Nat) : Char := "0123456789abcdef".toList.getD d '0'

/-- The value of a hexadecimal digit of either case. -/
def hexValue (c : Char) : Option Nat :=
  if '0' ≤ c ∧ c ≤ '9' then some (c.toNat - 48)
  else if 'a' ≤ c ∧ c ≤ 'f' then some (c.toNat - 87)
  else if 'A' ≤ c ∧ c ≤ 'F' then some (c.toNat - 55)
  else none

/-- The escape of a code unit by its four hexadecimal digits. -/
def hexEscape (u : UInt16) : List Char :=
  ['\\', 'u', hexDigit (u.toNat / 4096), hexDigit (u.toNat / 256 % 16),
    hexDigit (u.toNat / 16 % 16), hexDigit (u.toNat % 16)]

/-- The code unit of four hexadecimal digits. -/
def hexUnit (digits : List Nat) : UInt16 :=
  UInt16.ofNat (digits.foldl (fun n d => n * 16 + d) 0)

/-- The text of a code unit that is not part of a surrogate pair. -/
def renderUnit (u : UInt16) : List Char :=
  match shortEscapes.lookup u with
  | some e => ['\\', e]
  | none =>
      if u.toNat < 0x20 ∨ isHigh u ∨ isLow u then hexEscape u else [Char.ofNat u.toNat]

/-- The text of a string without its quotes. -/
def render : List UInt16 → List Char
  | [] => []
  | [u] => renderUnit u
  | u :: v :: rest =>
      if isHigh u ∧ isLow v then pairChar u v :: render rest
      else renderUnit u ++ render (v :: rest)

/-- Where a reader is in a string: between characters, after a backslash, or in the digits
of an escape. -/
inductive Mode
  | plain
  | escaped
  | hex (digits : List Nat)

/-- Put code units before those that were read from the rest. -/
def push (units : List UInt16) (p : List UInt16 × List Char) : List UInt16 × List Char :=
  (units ++ p.1, p.2)

/-- Read a string after its opening quote; returns what follows the closing quote. -/
def scan : Mode → List Char → Option (List UInt16 × List Char)
  | _, [] => none
  | .plain, c :: rest =>
      if c = '"' then some ([], rest)
      else if c = '\\' then scan .escaped rest
      else if c.toNat < 0x20 then none
      else (scan .plain rest).map (push (unitsOf c))
  | .escaped, c :: rest =>
      if c = 'u' then scan (.hex []) rest
      else match unescape c with
        | none => none
        | some u => (scan .plain rest).map (push [u])
  | .hex digits, c :: rest =>
      match hexValue c with
      | none => none
      | some d =>
          if digits.length = 3 then (scan .plain rest).map (push [hexUnit (digits ++ [d])])
          else scan (.hex (digits ++ [d])) rest

/-- Read a string after its opening quote. -/
def parse (cs : List Char) : Option (List UInt16 × List Char) := scan .plain cs

private theorem hexValue_hexDigit : ∀ d < 16, hexValue (hexDigit d) = some d := by decide

private theorem hexDigit_mem {d : Nat} (h : d < 16) : 0x20 ≤ (hexDigit d).toNat := by
  revert d
  decide

/-- A valid number is that of its character. -/
theorem toNat_ofNat {n : Nat} (h : n.isValidChar) : (Char.ofNat n).toNat = n := by
  unfold Char.ofNat
  rw [dif_pos h]
  rfl

variable {u : UInt16}

private theorem isValidChar_of_unit (hhigh : isHigh u = false)
    (hlow : isLow u = false) : u.toNat.isValidChar := by
  have hu := u.toNat_lt
  simp only [isHigh, isLow, decide_eq_false_iff_not] at hhigh hlow
  by_cases h : u.toNat < 0xD800
  · exact .inl h
  · exact .inr ⟨by omega, by omega⟩

private theorem mem_of_lookup {e : Char} (h : shortEscapes.lookup u = some e) :
    (u, e) ∈ shortEscapes := by
  obtain ⟨l₁, l₂, hl, -⟩ := List.lookup_eq_some_iff.mp h
  rw [hl]
  simp

private theorem scan_shortEscape {e : Char}
    (h : shortEscapes.lookup u = some e) (rest : List Char) :
    scan .plain ('\\' :: e :: rest) = (scan .plain rest).map (push [u]) := by
  have hall : ∀ p ∈ shortEscapes, p.2 ≠ 'u' ∧ unescape p.2 = some p.1 := forall_of_all (by decide)
  obtain ⟨hne, hunit⟩ := hall _ (mem_of_lookup h)
  rw [scan, if_neg (by decide), if_pos rfl, scan, if_neg hne, hunit]

private theorem scan_hexEscape (u : UInt16) (rest : List Char) :
    scan .plain (hexEscape u ++ rest) = (scan .plain rest).map (push [u]) := by
  have hu := u.toNat_lt
  have hunit : hexUnit [u.toNat / 4096, u.toNat / 256 % 16, u.toNat / 16 % 16, u.toNat % 16] =
      u := by
    refine (congrArg UInt16.ofNat ?_).trans UInt16.ofNat_toNat
    simp only [List.foldl_cons, List.foldl_nil]
    omega
  simp only [hexEscape, List.cons_append, List.nil_append]
  rw [scan, if_neg (by decide), if_pos rfl, scan, if_pos rfl]
  simp only [scan, hexValue_hexDigit (u.toNat / 4096) (by omega),
    hexValue_hexDigit (u.toNat / 256 % 16) (by omega),
    hexValue_hexDigit (u.toNat / 16 % 16) (by omega),
    hexValue_hexDigit (u.toNat % 16) (by omega)]
  simp only [List.length_nil, List.length_cons, List.nil_append,
    List.cons_append, Nat.reduceAdd, Nat.reduceEqDiff, if_false, if_true, hunit]

private theorem scan_plain {c : Char} (hquote : c ≠ '"') (hslash : c ≠ '\\')
    (hcontrol : 0x20 ≤ c.toNat) (rest : List Char) :
    scan .plain (c :: rest) = (scan .plain rest).map (push (unitsOf c)) := by
  rw [scan, if_neg hquote, if_neg hslash, if_neg (by omega)]

/-- A rendered unit is read back. -/
theorem scan_renderUnit (u : UInt16) (rest : List Char) :
    scan .plain (renderUnit u ++ rest) = (scan .plain rest).map (push [u]) := by
  unfold renderUnit
  split
  · next e he => exact scan_shortEscape he rest
  · next hnone =>
    split
    · exact scan_hexEscape u rest
    · next hplain =>
      simp only [not_or, Bool.not_eq_true] at hplain
      obtain ⟨hcontrol, hhigh, hlow⟩ := hplain
      have hnat := toNat_ofNat (isValidChar_of_unit hhigh hlow)
      have hchar : ∀ p ∈ shortEscapes, u ≠ p.1 := by
        rintro p hp rfl
        have hsome : ∀ p ∈ shortEscapes, (shortEscapes.lookup p.1).isSome :=
          forall_of_all (by decide)
        have := hsome p hp
        rw [hnone] at this
        cases this
      have hquote : Char.ofNat u.toNat ≠ '"' := by
        intro he
        refine hchar (0x22, '"') (by decide) (UInt16.toNat_inj.mp ?_)
        rw [← hnat, he]
        rfl
      have hslash : Char.ofNat u.toNat ≠ '\\' := by
        intro he
        refine hchar (0x5c, '\\') (by decide) (UInt16.toNat_inj.mp ?_)
        rw [← hnat, he]
        rfl
      rw [List.singleton_append, scan_plain hquote hslash (by omega), unitsOf, hnat,
        if_pos u.toNat_lt, UInt16.ofNat_toNat]

private theorem toNat_pairChar {v : UInt16} (hu : isHigh u = true) (hv : isLow v = true) :
    (pairChar u v).toNat = 0x10000 + (u.toNat - 0xD800) * 1024 + (v.toNat - 0xDC00) := by
  simp only [isHigh, isLow, decide_eq_true_eq] at hu hv
  exact toNat_ofNat (.inr ⟨by omega, by omega⟩)

private theorem unitsOf_pairChar {v : UInt16} (hu : isHigh u = true) (hv : isLow v = true) :
    unitsOf (pairChar u v) = [u, v] := by
  have hpair := toNat_pairChar hu hv
  simp only [isHigh, isLow, decide_eq_true_eq] at hu hv
  have hhigh : 0xD800 + ((pairChar u v).toNat - 0x10000) / 1024 = u.toNat := by omega
  have hlow : 0xDC00 + ((pairChar u v).toNat - 0x10000) % 1024 = v.toNat := by omega
  rw [unitsOf, if_neg (by omega), hhigh, hlow, UInt16.ofNat_toNat, UInt16.ofNat_toNat]

private theorem pairChar_plain {v : UInt16} (hu : isHigh u = true) (hv : isLow v = true)
    {c : Char} (hc : c.toNat < 0x10000) : pairChar u v ≠ c := by
  have hpair := toNat_pairChar hu hv
  rintro rfl
  omega

/-- Reading the text of a string gives back the string. -/
theorem parse_render (units : List UInt16) (rest : List Char) :
    parse (render units ++ '"' :: rest) = some (units, rest) := by
  unfold parse
  induction units using render.induct with
  | case1 => rw [render, List.nil_append, scan, if_pos rfl]
  | case2 u =>
    rw [render, scan_renderUnit, scan, if_pos rfl]
    rfl
  | case3 u v units hpair ih =>
    have hnat := toNat_pairChar hpair.1 hpair.2
    rw [render, if_pos hpair, List.cons_append,
      scan_plain (pairChar_plain hpair.1 hpair.2 (by decide))
        (pairChar_plain hpair.1 hpair.2 (by decide)) (by omega), ih,
      unitsOf_pairChar hpair.1 hpair.2]
    rfl
  | case4 u v units hpair ih =>
    rw [render, if_neg hpair, List.append_assoc, scan_renderUnit, ih]
    rfl

private theorem le_toNat_of_mem_renderUnit (u : UInt16) : ∀ c ∈ renderUnit u, 0x20 ≤ c.toNat := by
  intro c hc
  unfold renderUnit at hc
  split at hc
  · next e he =>
    have hall : ∀ p ∈ shortEscapes, 0x20 ≤ p.2.toNat := forall_of_all (by decide)
    simp only [List.mem_cons, List.not_mem_nil, or_false] at hc
    obtain rfl | rfl := hc
    · decide
    · exact hall _ (mem_of_lookup he)
  · split at hc
    · have hu := u.toNat_lt
      simp only [hexEscape, List.mem_cons, List.not_mem_nil, or_false] at hc
      obtain rfl | rfl | rfl | rfl | rfl | rfl := hc
      · decide
      · decide
      all_goals exact hexDigit_mem (by omega)
    · next hplain =>
      simp only [not_or, Bool.not_eq_true] at hplain
      obtain rfl := List.mem_singleton.mp hc
      rw [toNat_ofNat (isValidChar_of_unit hplain.2.1 hplain.2.2)]
      omega

/-- The text of a string has no control character. -/
theorem le_toNat_of_mem_render (units : List UInt16) : ∀ c ∈ render units, 0x20 ≤ c.toNat := by
  induction units using render.induct with
  | case1 => exact fun c hc => by cases hc
  | case2 u => exact le_toNat_of_mem_renderUnit u
  | case3 u v units hpair ih =>
    rw [render, if_pos hpair]
    have hnat := toNat_pairChar hpair.1 hpair.2
    refine List.forall_mem_cons.mpr ⟨?_, ih⟩
    rw [hnat]
    omega
  | case4 u v units hpair ih =>
    rw [render, if_neg hpair]
    intro c hc
    obtain hc | hc := List.mem_append.mp hc
    · exact le_toNat_of_mem_renderUnit u c hc
    · exact ih c hc

end JsonText

end AwesomeAgent
