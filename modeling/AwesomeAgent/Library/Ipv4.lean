import AwesomeAgent.Library.FaultySteps
import Mathlib.Algebra.GroupWithZero.Nat
import Mathlib.Data.List.Basic

/-!
# Spellings of IPv4 addresses

An address literal has four decimal parts. Resolvers read more: one to four parts, each decimal,
octal with a leading zero, or hexadecimal with a leading `0x`, of which the last fills the rest.
-/

namespace AwesomeAgent.Ipv4

/-- The value of a digit. -/
def digitValue (c : Char) : Option Nat :=
  if '0' ≤ c ∧ c ≤ '9' then some (c.toNat - '0'.toNat)
  else if 'a' ≤ c ∧ c ≤ 'f' then some (c.toNat - 'a'.toNat + 10)
  else if 'A' ≤ c ∧ c ≤ 'F' then some (c.toNat - 'A'.toNat + 10)
  else none

/-- The value of digits of a base, behind those that were read. -/
def valueFrom (base : Nat) : Nat → List Char → Option Nat
  | value, [] => some value
  | value, c :: rest =>
      match digitValue c with
      | none => none
      | some digit => if digit < base then valueFrom base (value * base + digit) rest else none

/-- The number of some digits. -/
def numeral (base : Nat) (digits : List Char) : Option Nat :=
  if digits = [] then none else valueFrom base 0 digits

/-- A part is written in hexadecimal digits. -/
def isHexPart : List Char → Bool
  | '0' :: x :: _ => x == 'x' || x == 'X'
  | _ => false

/-- The number of a part as resolvers read it. -/
def resolverPart (part : List Char) : Option Nat :=
  if isHexPart part then numeral 16 (part.drop 2)
  else if part.head? = some '0' then numeral 8 part
  else numeral 10 part

/-- The address of the numbers of the parts. -/
def resolverAddress : List Nat → Option Nat
  | [a] => if a < 2 ^ 32 then some a else none
  | [a, b] => if a < 2 ^ 8 ∧ b < 2 ^ 24 then some (a * 2 ^ 24 + b) else none
  | [a, b, c] =>
      if a < 2 ^ 8 ∧ b < 2 ^ 8 ∧ c < 2 ^ 16 then some (a * 2 ^ 24 + b * 2 ^ 16 + c) else none
  | [a, b, c, d] =>
      if a < 2 ^ 8 ∧ b < 2 ^ 8 ∧ c < 2 ^ 8 ∧ d < 2 ^ 8 then
        some (a * 2 ^ 24 + b * 2 ^ 16 + c * 2 ^ 8 + d)
      else none
  | _ => none

/-- The address that resolvers read in a text. -/
def inetAton (text : List Char) : Option Nat :=
  ((text.splitOn '.').mapM resolverPart).bind resolverAddress

/-- The number of a part of a literal. -/
def parseOctet (part : List Char) : Option Nat :=
  if 3 < part.length ∨ (part.head? = some '0' ∧ 1 < part.length) then none
  else (numeral 10 part).filter fun n => decide (n ≤ 255)

/-- The address of a literal. -/
def parseLiteral (text : List Char) : Option Nat :=
  match (text.splitOn '.').mapM parseOctet with
  | some [a, b, c, d] => some (a * 2 ^ 24 + b * 2 ^ 16 + c * 2 ^ 8 + d)
  | _ => none

/-- A network: its address and the length of its prefix. -/
abbrev Network := Nat × Nat

/-- An address lies in a network. -/
def isIn (address : Nat) (network : Network) : Bool :=
  address / 2 ^ (32 - network.2) == network.1 / 2 ^ (32 - network.2)

/-- The address of four octets. -/
def dotted (a b c d : Nat) : Nat := a * 2 ^ 24 + b * 2 ^ 16 + c * 2 ^ 8 + d

/-- Networks that are not public. -/
def privateNetworks : List Network :=
  [(dotted 0 0 0 0, 8), (dotted 10 0 0 0, 8), (dotted 127 0 0 0, 8), (dotted 169 254 0 0, 16),
    (dotted 172 16 0 0, 12), (dotted 192 0 0 0, 24), (dotted 192 0 0 170, 31),
    (dotted 192 0 2 0, 24), (dotted 192 168 0 0, 16), (dotted 198 18 0 0, 15),
    (dotted 198 51 100 0, 24), (dotted 203 0 113 0, 24), (dotted 240 0 0 0, 4),
    (dotted 255 255 255 255, 32)]

/-- Addresses of those networks that are public all the same. -/
def privateExceptions : List Network := [(dotted 192 0 0 9, 32), (dotted 192 0 0 10, 32)]

/-- The network that providers share. -/
def sharedNetwork : Network := (dotted 100 64 0 0, 10)

/-- An address is not public. -/
def isPrivate (address : Nat) : Bool :=
  privateNetworks.any (isIn address) && !privateExceptions.any (isIn address)

/-- An address is routed globally. -/
def isGlobal (address : Nat) : Bool := !isIn address sharedNetwork && !isPrivate address

/-! ## Digits -/

/-- A decimal digit. -/
def IsDecimal (c : Char) : Prop := '0' ≤ c ∧ c ≤ '9'

private theorem isDecimal_of_digitValue {c : Char} {digit : Nat} (h : digitValue c = some digit)
    (hdigit : digit < 10) : IsDecimal c := by
  unfold digitValue at h
  split_ifs at h with hdecimal
  · exact hdecimal
  · cases h
    omega
  · cases h
    omega

private theorem isDecimal_of_valueFrom {base value n : Nat} {digits : List Char} (hbase : base ≤ 10)
    (h : valueFrom base value digits = some n) : ∀ c ∈ digits, IsDecimal c := by
  induction digits generalizing value with
  | nil => exact nofun
  | cons c digits ih =>
    rw [valueFrom] at h
    split at h
    · cases h
    · next digit hdigit =>
      split at h
      · next hlt =>
        rw [List.forall_mem_cons]
        exact ⟨isDecimal_of_digitValue hdigit (by omega), ih h⟩
      · cases h

private theorem isDecimal_of_numeral {base n : Nat} {digits : List Char} (hbase : base ≤ 10)
    (h : numeral base digits = some n) : ∀ c ∈ digits, IsDecimal c := by
  unfold numeral at h
  split at h
  · cases h
  · exact isDecimal_of_valueFrom hbase h

private theorem isDecimal_of_resolverPart {part : List Char} {n : Nat}
    (h : resolverPart part = some n) (hhex : isHexPart part = false) :
    ∀ c ∈ part, IsDecimal c := by
  rw [resolverPart, hhex, if_neg Bool.false_ne_true] at h
  split at h
  · exact isDecimal_of_numeral (by decide) h
  · exact isDecimal_of_numeral (by decide) h

private theorem isDecimal_of_parseOctet {part : List Char} {n : Nat}
    (h : parseOctet part = some n) : ∀ c ∈ part, IsDecimal c := by
  unfold parseOctet at h
  split at h
  · cases h
  · exact isDecimal_of_numeral (by decide) (Option.filter_eq_some_iff.mp h).1

/-- A character that does not separate lies in a part. -/
theorem mem_splitOnP {α : Type} {p : α → Bool} {c : α} {text : List α} (h : c ∈ text)
    (hc : p c = false) : ∃ part ∈ text.splitOnP p, c ∈ part := by
  induction text with
  | nil => cases h
  | cons d text ih =>
    rw [List.splitOnP_cons_eq_if_modifyHead]
    obtain ⟨first, more, hsplit⟩ := List.exists_cons_of_ne_nil (List.splitOnP_ne_nil p text)
    rw [hsplit] at ih ⊢
    obtain rfl | h := List.mem_cons.mp h
    · rw [if_neg (Bool.eq_false_iff.mp hc)]
      exact ⟨c :: first, List.mem_cons_self, List.mem_cons_self⟩
    · obtain ⟨part, hpart, hmem⟩ := ih h
      split
      · exact ⟨part, List.mem_cons_of_mem _ hpart, hmem⟩
      · obtain rfl | hpart := List.mem_cons.mp hpart
        · exact ⟨d :: part, List.mem_cons_self, List.mem_cons_of_mem _ hmem⟩
        · exact ⟨part, List.mem_cons_of_mem _ hpart, hmem⟩

variable {text : List Char}

private theorem isDecimal_or_dot (h : ∀ part ∈ text.splitOn '.', ∀ c ∈ part, IsDecimal c) :
    ∀ c ∈ text, IsDecimal c ∨ c = '.' := by
  intro c hc
  by_cases hdot : c = '.'
  · exact .inr hdot
  · obtain ⟨part, hpart, hmem⟩ := mem_splitOnP (p := (· == '.')) hc (beq_eq_false_iff_ne.mpr hdot)
    exact .inl (h part hpart c hmem)

/-- What resolvers read without hexadecimal parts is digits and dots. -/
theorem decimal_of_inetAton {address : Nat} (h : inetAton text = some address)
    (hhex : ∀ part ∈ text.splitOn '.', isHexPart part = false) :
    ∀ c ∈ text, IsDecimal c ∨ c = '.' := by
  obtain ⟨numbers, hnumbers, -⟩ := Option.bind_eq_some_iff.mp h
  apply isDecimal_or_dot
  intro part hpart
  obtain ⟨n, -, hn⟩ := exists_of_mapM hnumbers part hpart
  exact isDecimal_of_resolverPart hn (hhex part hpart)

/-- A literal is digits and dots. -/
theorem decimal_of_parseLiteral {address : Nat}
    (h : parseLiteral text = some address) : ∀ c ∈ text, IsDecimal c ∨ c = '.' := by
  unfold parseLiteral at h
  split at h
  · next hnumbers =>
    apply isDecimal_or_dot
    intro part hpart
    obtain ⟨n, -, hn⟩ := exists_of_mapM hnumbers part hpart
    exact isDecimal_of_parseOctet hn
  · cases h

example : inetAton "0x7f.1".toList = some (dotted 127 0 0 1) := by decide

end AwesomeAgent.Ipv4
