import AwesomeAgent.Library.Text

/-!
# The text of the secret file

The secret file is UTF-8 text with one assignment per line. Setting a name
replaces its first assignment and drops the others; deleting a name drops all.
-/

namespace AwesomeAgent

/-- Replace the first line that assigns the name and drop the later ones. -/
def replaceFrom (name : Text) (replacement : Option Text) :
    Bool → List Text → List Text × Bool
  | found, [] => ([], found)
  | found, line :: lines =>
      if (name ++ ['=']).isPrefixOf (line.dropWhile isSpace) then
        let (updated, _) := replaceFrom name replacement true lines
        (if found then updated else replacement.toList ++ updated, true)
      else
        let (updated, found) := replaceFrom name replacement found lines
        (line :: updated, found)

/-- The lines with the name replaced, and whether it was there. -/
def replaceLines (lines : List Text) (name : Text) (replacement : Option Text) :
    List Text × Bool :=
  replaceFrom name replacement false lines

/-- A quoted value. -/
def quote (value : Text) : Text :=
  ['\''] ++ value.flatMap (fun c => if c = '\'' then ['\\', '\''] else [c]) ++ ['\'']

/-- Whether text ends with a newline or a carriage return. -/
def endsLine (line : Text) : Bool := line.getLast? = some '\n' || line.getLast? = some '\r'

/-- Lines to which a line can be appended. -/
def closeLastLine (lines : List Text) : List Text :=
  match lines.getLast? with
  | none => lines
  | some line => if endsLine line then lines else lines.dropLast ++ [line ++ ['\n']]

/-- The lines with the name set to a value. -/
def setLines (lines : List Text) (name value : Text) : List Text :=
  let replacement := name ++ ['='] ++ quote value ++ ['\n']
  match replaceLines lines name (some replacement) with
  | (updated, true) => updated
  | (updated, false) => closeLastLine updated ++ [replacement]

example : setLines [['A', '=', '1']] ['B'] ['x', '\''] =
    [['A', '=', '1', '\n'], ['B', '=', '\'', 'x', '\\', '\'', '\'', '\n']] := by decide

end AwesomeAgent
