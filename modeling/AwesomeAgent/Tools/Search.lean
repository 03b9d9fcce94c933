import AwesomeAgent.Library.Fnmatch
import AwesomeAgent.Tools.WorkspaceFiles

/-!
# The glob tool

A glob keeps the files of a scan whose path matches the pattern. The scan starts at the fixed
directories in front of the pattern.
-/

namespace AwesomeAgent.WorkspaceFiles

open Fnmatch (fnmatch)

/-- Arguments of the tool. -/
structure GlobArguments where
  pattern : Text
  path : Text
  maxResults : Nat
  pattern_bounded : 1 ≤ pattern.length ∧ pattern.length ≤ 500
  max_bounded : 1 ≤ maxResults ∧ maxResults ≤ 1000

/-- What the tool found. -/
structure GlobOutput where
  found : List FilePath
  truncated : Bool
  content : Text
  verb : String
  target : Text
  outcome : String
  summary : Text
  detail : Option Text
  deriving DecidableEq, Repr

/-- A part of a pattern that is no plain name. -/
def hasMagic (part : Text) : Bool := part.any fun c => ['*', '?', '['].contains c

/-- The directories in front of a pattern that are plain names. -/
def fixedParts (pattern : Text) : List Text :=
  (parsePath pattern).parts.dropLast.takeWhile fun part => !hasMagic part

/-- A name matches a part of a pattern. -/
def matchesPart (name part : Text) : Bool :=
  if part = ['*'] then !name.isEmpty else fnmatch name part

/-- The last names of a path match the parts of a pattern. -/
def matchesFromRight (path pattern : FilePath) : Bool :=
  decide (pattern.length ≤ path.length) &&
    ((path.drop (path.length - pattern.length)).zip pattern).all fun names =>
      matchesPart names.1 names.2

/-- `PurePath.match` -/
def pathMatch (path : FilePath) (pattern : Text) : Except ToolFault Bool :=
  if (parsePath pattern).parts = [] then .error (.value "empty pattern")
  else .ok (matchesFromRight path (parsePath pattern).parts)

/-- Refuse patterns that leave the workspace. -/
def validateGlobPattern (pattern : Text) : Except ToolFault Unit :=
  if (parsePath pattern).absolute || (parsePath pattern).parts.contains ['.', '.'] then
    .error (.expected .workspaceEscape "Search pattern escapes the workspace boundary." none)
  else .ok ()

section Globbing

variable [Casefold] (tree : WorkspaceTree)

/-- The directory that is searched. -/
def searchRoot (requested : Text) : Except ToolFault FilePath :=
  tree.resolve requested .directory

/-- The directory that is scanned, if it is there. -/
def globScanRoot (root : FilePath) (pattern : Text) : Except ToolFault (Option FilePath) :=
  if fixedParts pattern = [] then .ok (some root)
  else
    match tree.resolve (posix (root ++ fixedParts pattern)) .directory with
    | .ok path => .ok (some path)
    | .error (.expected .notFound _ _) => .ok none
    | .error fault => .error fault

/-- Keep the files that match, and stop when there are too many. -/
def collectMatches (root : FilePath) (pattern : Text) (maxResults : Nat)
    (found : List FilePath) : List FilePath → Except ToolFault (List FilePath)
  | [] => .ok found
  | item :: rest => do
      if ← pathMatch (item.drop root.length) pattern then
        if maxResults < (found ++ [item]).length then pure (found ++ [item])
        else collectMatches root pattern maxResults (found ++ [item]) rest
      else collectMatches root pattern maxResults found rest

/-- Scan a directory. -/
def scanFiles (root : FilePath) (pattern : Text) (maxResults : Nat) (scanRoot : Option FilePath) :
    Except ToolFault (List FilePath × Bool) :=
  match scanRoot with
  | none => .ok ([], false)
  | some scanRoot => do
      let found ← collectMatches root pattern maxResults [] (tree.enumerateFiles scanRoot)
      pure (found.take maxResults, decide (maxResults < found.length))

/-- The output of a scan. -/
def globOutput (pattern : Text) (bounded : List FilePath) (truncated : Bool) : GlobOutput :=
  let content := ['\n'].intercalate (bounded.map posix)
  { found := bounded
    truncated := truncated
    content := content
    verb := "Glob"
    target := pattern
    outcome := "Found"
    summary := Nat.toDigits 10 bounded.length ++ " matches".toList
    detail := if content.take 4000 = [] then none else some (content.take 4000) }

/-- Find the files that match a pattern. -/
def globFiles (arguments : GlobArguments) : Except ToolFault GlobOutput := do
  validateGlobPattern arguments.pattern
  let root ← searchRoot tree arguments.path
  let scanRoot ← globScanRoot tree root arguments.pattern
  let found ← scanFiles tree root arguments.pattern arguments.maxResults scanRoot
  pure (globOutput arguments.pattern found.1 found.2)

end Globbing

end AwesomeAgent.WorkspaceFiles
