import Mathlib.Data.List.Basic

/-!
# Shell patterns

A pattern of one path component: `*` stands for any characters, `?` for one, and brackets for a
set of characters or, with `!`, for all others. A bracket that is not closed stands for itself.
-/

namespace AwesomeAgent.Fnmatch

/-- The items of a set: single characters and ranges. -/
inductive ClassItem
  | single (c : Char)
  | range (first last : Char)
  deriving DecidableEq, Repr

/-- A character is one of an item. -/
def ClassItem.has (c : Char) : ClassItem → Bool
  | .single d => c == d
  | .range first last => decide (first.toNat ≤ c.toNat ∧ c.toNat ≤ last.toNat)

/-- The parts of a pattern. -/
inductive Token
  | literal (c : Char)
  | anyChar
  | anyText
  | oneOf (negated : Bool) (items : List ClassItem)
  deriving DecidableEq, Repr

/-- The items of a set between its brackets. -/
def classItems : List Char → List ClassItem
  | first :: '-' :: last :: rest => .range first last :: classItems rest
  | c :: rest => .single c :: classItems rest
  | [] => []

/-- The text of a set and what stands behind its closing bracket, which is not the first
character. -/
def closing : List Char → Option (List Char × List Char)
  | [] => none
  | first :: rest =>
      match rest.span (· ≠ ']') with
      | (_, []) => none
      | (body, _ :: later) => some (first :: body, later)

/-- A set behind its opening bracket, and what stands behind it. -/
def bracket (rest : List Char) : Option (Token × List Char) :=
  match rest with
  | '!' :: behind =>
      (closing behind).map fun parts => (.oneOf true (classItems parts.1), parts.2)
  | _ => (closing rest).map fun parts => (.oneOf false (classItems parts.1), parts.2)

/-- Read a pattern of at most so many characters. -/
def tokensUpTo : Nat → List Char → List Token
  | 0, _ => []
  | _ + 1, [] => []
  | fuel + 1, '*' :: rest => .anyText :: tokensUpTo fuel rest
  | fuel + 1, '?' :: rest => .anyChar :: tokensUpTo fuel rest
  | fuel + 1, '[' :: rest =>
      match bracket rest with
      | some (token, later) => token :: tokensUpTo fuel later
      | none => .literal '[' :: tokensUpTo fuel rest
  | fuel + 1, c :: rest => .literal c :: tokensUpTo fuel rest

/-- Read a pattern. -/
def tokens (pattern : List Char) : List Token := tokensUpTo pattern.length pattern

/-- A text reads as the parts of a pattern. -/
def matchesTokens : List Token → List Char → Bool
  | [], text => text.isEmpty
  | .anyText :: rest, text => text.tails.any (matchesTokens rest)
  | .anyChar :: rest, text => !text.isEmpty && matchesTokens rest text.tail
  | .literal c :: rest, text => decide (text.head? = some c) && matchesTokens rest text.tail
  | .oneOf negated items :: rest, text =>
      text.head?.any (fun c => items.any (ClassItem.has c) != negated) &&
        matchesTokens rest text.tail

/-- A name matches a pattern. -/
def fnmatch (name pattern : List Char) : Bool := matchesTokens (tokens pattern) name

example : fnmatch "ab.py".toList "*.p[w-z]".toList = true := by decide

end AwesomeAgent.Fnmatch
