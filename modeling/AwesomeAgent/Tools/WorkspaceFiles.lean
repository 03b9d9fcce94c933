import AwesomeAgent.Library.Dict
import AwesomeAgent.Library.Text
import Mathlib.Data.List.Sort

/-!
# Files of a workspace

Tools see the tree of a workspace by paths that are relative to its root. Sensitive names, links
and files with more than one link are left out; so are directories that are pruned by default.
The tree does not change while a tool looks at it. What is in the tree can be inspected and
opened; where nothing is, the system may refuse to look, as for a name that is too long.
-/

namespace AwesomeAgent.WorkspaceFiles

/-- A path from the root of the workspace, the outermost name first. -/
abbrev FilePath := List Text

/-- What lies at a path. -/
inductive NodeKind
  | file
  | linkedFile
  | directory
  | link
  | special
  deriving DecidableEq, Repr

/-- The names that a directory can hold. -/
structure IsName (name : Text) : Prop where
  ne_nil : name ≠ []
  ne_dot : name ≠ ['.']
  ne_dots : name ≠ ['.', '.']
  no_slash : '/' ∉ name
  no_nul : Char.ofNat 0 ∉ name

/-- The tree of a workspace: every node lies in a directory and has a proper name. At some of the
paths without a node the system refuses to look. -/
structure WorkspaceTree where
  nodes : Dict FilePath NodeKind
  refused : FilePath → Bool
  root : nodes.get? [] = some .directory
  parent : ∀ path name, path ++ [name] ∈ nodes.keys → nodes.get? path = some .directory
  named : ∀ path name, path ++ [name] ∈ nodes.keys → IsName name

/-- The codes of the failures of tools. -/
inductive ToolErrorCode
  | invalidArguments
  | notFound
  | workspaceEscape
  | permissionDenied
  deriving DecidableEq, Repr

/-- Why a tool stops. -/
inductive ToolFault
  | expected (code : ToolErrorCode) (message : String) (path : Option Text)
  | value (message : String)
  deriving DecidableEq, Repr

/-! ## Paths -/

/-- A path as it is written. -/
structure PurePath where
  absolute : Bool
  parts : FilePath
  deriving DecidableEq, Repr

/-- Read a path; empty parts and dots do not count. -/
def parsePath (text : Text) : PurePath where
  absolute := decide (text.head? = some '/')
  parts := (text.splitOn '/').filter fun part => decide (part ≠ [] ∧ part ≠ ['.'])

/-- A relative path as text. -/
def posix (path : FilePath) : Text := if path = [] then ['.'] else ['/'].intercalate path

/-- A text occurs in a name. -/
def occursIn (part name : Text) : Bool := name.tails.any part.isPrefixOf

/-- A folded name is sensitive, given the folded name behind it. -/
def isSensitivePart (part : Text) (next : Option Text) : Bool :=
  part == ".ssh".toList ||
  (part == ".env".toList ||
    (".env.".toList.isPrefixOf part && part != ".env.example".toList)) ||
  (part == "id_rsa".toList || part == "id_ed25519".toList) ||
  (".pem".toList.isSuffixOf part || ".key".toList.isSuffixOf part) ||
  (occursIn "credentials".toList part || occursIn "secrets".toList part) ||
  (part == ".aws".toList && next == some "credentials".toList)

/-- A path of folded names is sensitive. -/
def anySensitive : FilePath → Bool
  | [] => false
  | part :: rest => isSensitivePart part rest.head? || anySensitive rest

/-- The directories that are pruned by default. -/
def defaultPrunedDirectories : List Text :=
  [".git", ".mypy_cache", ".pytest_cache", ".ruff_cache", ".venv", "__pycache__", "build", "dist",
    "node_modules", "venv"].map String.toList

/-- Folding of the case of a text. -/
class Casefold where
  casefold : Text → Text

open Casefold

section Files

variable [Casefold]

/-- A path is sensitive. -/
def isSensitive (path : FilePath) : Bool := anySensitive (path.map casefold)

/-- A directory of a name is pruned. -/
def isPruned (name : Text) : Bool := defaultPrunedDirectories.contains (casefold name)

/-- Order of the names of a listing: without case first, then as they are. -/
def namesBefore (a b : Text) : Prop :=
  casefold a < casefold b ∨ casefold a = casefold b ∧ ¬b < a

instance : DecidableRel namesBefore := fun a b => inferInstanceAs (Decidable (_ ∨ _ ∧ ¬b < a))

namespace WorkspaceTree

variable (tree : WorkspaceTree)

/-! ## Resolving -/

/-- There is no node at a path, as far as the system tells. -/
def missing (requested : Text) (path : FilePath) : ToolFault :=
  if tree.refused path then
    .expected .permissionDenied "Path could not be inspected safely." requested
  else .expected .notFound "Path was not found." requested

/-- Look at the components of a path from the outermost on. -/
def inspect (requested : Text) (expected : NodeKind) (above : FilePath) :
    FilePath → Except ToolFault Unit
  | [] =>
      match tree.nodes.get? above with
      | none => .error (tree.missing requested above)
      | some .link =>
          .error (.expected .permissionDenied
            "Links and reparse points are not allowed in workspace paths." requested)
      | some kind =>
          if expected = .directory then
            if kind = .directory then .ok ()
            else .error (.expected .invalidArguments "Path is not a directory." requested)
          else if kind = .file ∨ kind = .linkedFile then .ok ()
          else .error (.expected .invalidArguments "Path is not a file." requested)
  | name :: rest =>
      match tree.nodes.get? above with
      | none => .error (tree.missing requested above)
      | some .link =>
          .error (.expected .permissionDenied
            "Links and reparse points are not allowed in workspace paths." requested)
      | some .directory => inspect requested expected (above ++ [name]) rest
      | some _ =>
          .error (.expected .invalidArguments "Path component is not a directory." requested)

/-- Resolve a path that must exist. -/
def resolve (requested : Text) (expected : NodeKind) : Except ToolFault FilePath :=
  let parsed := parsePath requested
  if requested.contains (Char.ofNat 0) then
    .error (.expected .invalidArguments "Path contains an ambiguous filesystem component."
      requested)
  else if parsed.absolute || parsed.parts.contains ['.', '.'] then
    .error (.expected .workspaceEscape "Path is outside the workspace boundary." none)
  else if isSensitive parsed.parts then
    .error (.expected .permissionDenied "Sensitive paths are not available to tools." requested)
  else do
    tree.inspect requested expected [] parsed.parts
    pure parsed.parts

/-! ## Enumerating -/

/-- The names in a directory, in no order. -/
def listdir (directory : FilePath) : List Text :=
  tree.nodes.keys.filterMap fun path =>
    if path.dropLast = directory then path.getLast? else none

/-- The files and directories in a directory, in order. Everything else is left out. -/
def iterEntries (directory : FilePath) : List (Text × NodeKind) :=
  ((tree.listdir directory).insertionSort namesBefore).filterMap fun name =>
    match tree.nodes.get? (directory ++ [name]) with
    | some .file => some (name, .file)
    | some .directory => some (name, .directory)
    | _ => none

/-- A path may be used as what it is. -/
def admits (path : FilePath) (expected : NodeKind) : Bool :=
  !isSensitive path && (tree.resolve (posix path) expected).isOk

/-- The files below a directory that are at most so many levels down: first those in it, then
those of the directories in it that are not pruned. -/
def enumerateDirectory : Nat → FilePath → List FilePath
  | 0, _ => []
  | levels + 1, directory =>
      let entries := tree.iterEntries directory
      let files := entries.filter fun entry => decide (entry.2 = .file)
      let directories := entries.filter fun entry => decide (entry.2 = .directory)
      ((files.map fun entry => directory ++ [entry.1]).filter fun path =>
        tree.admits path .file) ++
      directories.flatMap fun entry =>
        if isPruned entry.1 then []
        else if tree.admits (directory ++ [entry.1]) .directory then
          enumerateDirectory levels (directory ++ [entry.1])
        else []

/-- The levels of the tree. -/
def height : Nat := (tree.nodes.keys.map List.length).foldr max 0

/-- The files below a directory. -/
def enumerateFiles (directory : FilePath) : List FilePath :=
  tree.enumerateDirectory tree.height directory

end WorkspaceTree

end Files

end AwesomeAgent.WorkspaceFiles
