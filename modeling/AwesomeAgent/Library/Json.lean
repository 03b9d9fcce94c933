import AwesomeAgent.Library.JsonText
import Mathlib.Algebra.GroupWithZero.Nat

/-!
# JSON documents

Values, their compact text and a reader of texts. A number is its numeral: how numerals
and floating point numbers correspond is left to the runtimes. The reader takes fuel for
its nesting; fuel in proportion to the text is enough for every text.
-/

namespace AwesomeAgent

/-- The characters that occur in numerals. -/
def isNumeralChar (c : Char) : Bool :=
  c.isDigit || decide (c ∈ ['+', '-', '.', 'e', 'E'])

/-- An exponent, or nothing. -/
def isExponent : List Char → Bool
  | [] => true
  | c :: rest =>
      let digits := match rest with
        | '+' :: rest => rest
        | '-' :: rest => rest
        | rest => rest
      decide (c = 'e' ∨ c = 'E') && !digits.isEmpty && digits.all Char.isDigit

/-- A fraction and an exponent, each of which may be missing. -/
def isFraction : List Char → Bool
  | '.' :: rest =>
      !(rest.takeWhile Char.isDigit).isEmpty && isExponent (rest.dropWhile Char.isDigit)
  | rest => isExponent rest

/-- The grammar of JSON numbers. -/
def isNumeral (cs : List Char) : Bool :=
  let unsigned := match cs with
    | '-' :: rest => rest
    | rest => rest
  let digits := unsigned.takeWhile Char.isDigit
  cs.all isNumeralChar && !digits.isEmpty &&
    (decide (digits = ['0']) || decide (digits.head? ≠ some '0')) &&
      isFraction (unsigned.dropWhile Char.isDigit)

/-- A numeral of the JSON grammar. -/
structure Numeral where
  chars : List Char
  valid : isNumeral chars = true

/-- JSON values. The members of an object are in the order of its text. -/
inductive Json
  | null
  | bool (b : Bool)
  | number (n : Numeral)
  | string (units : List UInt16)
  | array (items : List Json)
  | object (members : List (List UInt16 × Json))

/-- White space between tokens. -/
def isJsonSpace (c : Char) : Bool := decide (c ∈ [' ', '\t', '\n', '\r'])

/-- A string with its quotes. -/
def quoted (units : List UInt16) : List Char := '"' :: JsonText.render units ++ ['"']

namespace Json

mutual

/-- The compact text of a value. -/
def render : Json → List Char
  | .null => ['n', 'u', 'l', 'l']
  | .bool true => ['t', 'r', 'u', 'e']
  | .bool false => ['f', 'a', 'l', 's', 'e']
  | .number n => n.chars
  | .string units => quoted units
  | .array [] => ['[', ']']
  | .array (v :: items) => '[' :: render v ++ renderItems items
  | .object [] => ['{', '}']
  | .object ((key, v) :: members) =>
      '{' :: quoted key ++ ':' :: render v ++ renderMembers members

/-- The items after the first one, and the end of the array. -/
def renderItems : List Json → List Char
  | [] => [']']
  | v :: items => ',' :: render v ++ renderItems items

/-- The members after the first one, and the end of the object. -/
def renderMembers : List (List UInt16 × Json) → List Char
  | [] => ['}']
  | (key, v) :: members => ',' :: quoted key ++ ':' :: render v ++ renderMembers members

end

/-- Give a key its value: an old key keeps its place. -/
def setMember (members : List (List UInt16 × Json)) (key : List UInt16) (v : Json) :
    List (List UInt16 × Json) :=
  match members with
  | [] => [(key, v)]
  | (k, w) :: rest => if k = key then (k, v) :: rest else (k, w) :: setMember rest key v

/-- The last value of a repeated key counts. -/
def collapse (members : List (List UInt16 × Json)) : List (List UInt16 × Json) :=
  members.foldl (fun ms m => setMember ms m.1 m.2) []

/-- Skip white space. -/
def skipSpace (cs : List Char) : List Char := cs.dropWhile isJsonSpace

/-- Read a literal name. -/
def literal (name : List Char) (v : Json) (cs : List Char) : Option (Json × List Char) :=
  if name.isPrefixOf cs then some (v, cs.drop name.length) else none

/-- Read a numeral. -/
def parseNumber (cs : List Char) : Option (Json × List Char) :=
  if h : isNumeral (cs.takeWhile isNumeralChar) then
    some (.number ⟨cs.takeWhile isNumeralChar, h⟩, cs.dropWhile isNumeralChar)
  else none

/-- Read a key and its colon. -/
def parseKey (cs : List Char) : Option (List UInt16 × List Char) :=
  match skipSpace cs with
  | [] => none
  | c :: rest =>
      if c = '"' then
        (JsonText.parse rest).bind fun p =>
          match skipSpace p.2 with
          | [] => none
          | d :: rest => if d = ':' then some (p.1, rest) else none
      else none

/-- Read what follows an element: whether there is another one, and the rest. -/
def separator (close : Char) (cs : List Char) : Option (Bool × List Char) :=
  match skipSpace cs with
  | [] => none
  | c :: rest =>
      if c = ',' then some (true, rest) else if c = close then some (false, rest) else none

/-- The rest of an empty array or object after its opening bracket. -/
def emptyRest (close : Char) (cs : List Char) : Option (List Char) :=
  match skipSpace cs with
  | [] => none
  | c :: rest => if c = close then some rest else none

mutual

/-- Read a value after white space. -/
def parseValue : Nat → List Char → Option (Json × List Char)
  | 0, _ => none
  | n + 1, cs =>
      match skipSpace cs with
      | [] => none
      | c :: rest =>
          if c = '"' then (JsonText.parse rest).map fun p => (.string p.1, p.2)
          else if c = '[' then
            match emptyRest ']' rest with
            | some rest => some (.array [], rest)
            | none => (parseItems n rest).map fun p => (.array p.1, p.2)
          else if c = '{' then
            match emptyRest '}' rest with
            | some rest => some (.object [], rest)
            | none => (parseMembers n rest).map fun p => (.object (collapse p.1), p.2)
          else if c = 'n' then literal ['n', 'u', 'l', 'l'] .null (c :: rest)
          else if c = 't' then literal ['t', 'r', 'u', 'e'] (.bool true) (c :: rest)
          else if c = 'f' then literal ['f', 'a', 'l', 's', 'e'] (.bool false) (c :: rest)
          else parseNumber (c :: rest)

/-- Read the items up to the end of the array. -/
def parseItems : Nat → List Char → Option (List Json × List Char)
  | 0, _ => none
  | n + 1, cs =>
      (parseValue n cs).bind fun p =>
        (separator ']' p.2).bind fun q =>
          if q.1 then (parseItems n q.2).map fun r => (p.1 :: r.1, r.2)
          else some ([p.1], q.2)

/-- Read the members up to the end of the object. -/
def parseMembers : Nat → List Char → Option (List (List UInt16 × Json) × List Char)
  | 0, _ => none
  | n + 1, cs =>
      (parseKey cs).bind fun k =>
        (parseValue n k.2).bind fun p =>
          (separator '}' p.2).bind fun q =>
            if q.1 then (parseMembers n q.2).map fun r => ((k.1, p.1) :: r.1, r.2)
            else some ([(k.1, p.1)], q.2)

end

/-- Read a whole text. -/
def parse (cs : List Char) : Option Json :=
  (parseValue (2 * cs.length + 1) cs).bind fun p =>
    if skipSpace p.2 = [] then some p.1 else none

end Json

end AwesomeAgent
