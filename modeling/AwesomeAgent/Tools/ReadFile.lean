import AwesomeAgent.Library.Text
import AwesomeAgent.Library.FaultySteps

/-!
# The read tool

A file is read whole, refused when it is not text, and shown as numbered lines. A page ends at
the requested line, after 500 lines, or at 30,000 characters.
-/

namespace AwesomeAgent.ReadFile

/-- Most bytes of a file that is read. -/
def maxFileBytes : Nat := 1024 * 1024

/-- Most lines of a page. -/
def maxReadLines : Nat := 500

/-- Most characters of a page. -/
def maxContentChars : Nat := 30000

/-- Arguments of the tool. Lines are counted from one. -/
structure ReadFileArguments where
  path : Text
  startLine : Nat
  endLine : Option Nat
  start_pos : 1 ≤ startLine
  end_pos : ∀ line ∈ endLine, 1 ≤ line

/-- The codes of the failures of the tool. -/
inductive ToolErrorCode
  | notFound
  | permissionDenied
  | conflict
  | executionFailed
  deriving DecidableEq, Repr

/-- A failure that is told to the model. -/
structure ExpectedToolFailure where
  code : ToolErrorCode
  message : String
  path : Text
  deriving DecidableEq, Repr

/-- What can go wrong while a file is read. -/
inductive FileFault
  | workspaceFileTooLarge
  | mutationTargetChanged
  | expected (failure : ExpectedToolFailure)

/-- A file behind a pinned path: its content, or the fault of reading it. -/
inductive WorkspaceFile
  | regular (content : Bytes)
  | faulty (fault : FileFault)

/-- Read a file up to a size. -/
def WorkspaceFile.readRegular (maxBytes : Nat) : WorkspaceFile → Except FileFault Bytes
  | .regular content =>
      if maxBytes < content.length then .error .workspaceFileTooLarge else .ok content
  | .faulty fault => .error fault

/-- The failure of a fault. -/
def FileFault.failure (path : Text) : FileFault → ExpectedToolFailure
  | .workspaceFileTooLarge => ⟨.executionFailed, "File exceeds the 1 MiB read limit.", path⟩
  | .mutationTargetChanged =>
      ⟨.conflict, "Workspace path changed while the file was being read.", path⟩
  | .expected failure => failure

/-- What a page says about itself. -/
structure ReadFileMetadata where
  path : Text
  startLine : Nat
  endLine : Nat
  totalLines : Nat
  truncated : Bool
  deriving DecidableEq, Repr

/-- How a page is presented. -/
structure ToolPresentation where
  verb : String
  target : Text
  outcome : String
  summary : Text
  detail : Option Text
  deriving DecidableEq, Repr

/-- A page. -/
structure ReadFileOutput where
  content : Text
  metadata : ReadFileMetadata
  presentation : ToolPresentation
  deriving DecidableEq, Repr

/-- A line with its number. -/
def numbered (lines : List Text) (index : Nat) : Text :=
  Nat.toDigits 10 (index + 1) ++ ": ".toList ++ lines.getD index []

/-- A page under way. -/
structure Rendering where
  rendered : List Text
  renderedChars : Nat
  lastLine : Nat
  contentTruncated : Bool

/-- Render lines until the characters are used up. -/
def renderLines (lines : List Text) : List Nat → Rendering → Rendering
  | [], r => r
  | index :: rest, r =>
      let separator := if r.rendered = [] then [] else ['\n']
      let remaining := maxContentChars - r.renderedChars
      let addition := separator ++ numbered lines index
      if remaining < addition.length then
        if 0 < remaining then
          ⟨r.rendered ++ [addition.take remaining], r.renderedChars + remaining, index + 1, true⟩
        else { r with contentTruncated := true }
      else
        renderLines lines rest
          { r with
            rendered := r.rendered ++ [addition]
            renderedChars := r.renderedChars + addition.length
            lastLine := index + 1 }

/-- The number of lines before a page. -/
def startIndex (lines : List Text) (arguments : ReadFileArguments) : Nat :=
  min (arguments.startLine - 1) lines.length

/-- The number of the last line of a page, if there is room for it. -/
def endIndex (lines : List Text) (arguments : ReadFileArguments) : Nat :=
  min (min (arguments.endLine.getD lines.length) (startIndex lines arguments + maxReadLines))
    lines.length

/-- The lines that may be on a page. -/
def pageRange (lines : List Text) (arguments : ReadFileArguments) : List Nat :=
  List.range' (startIndex lines arguments)
    (endIndex lines arguments - startIndex lines arguments)

/-- The page of some lines. -/
def page (path : Text) (arguments : ReadFileArguments) (lines : List Text) : ReadFileOutput :=
  let start := startIndex lines arguments
  let r := renderLines lines (pageRange lines arguments) ⟨[], 0, start, false⟩
  let content := r.rendered.flatten
  let lineCount := r.lastLine - start
  { content := content
    metadata := {
      path := path
      startLine := arguments.startLine
      endLine := r.lastLine
      totalLines := lines.length
      truncated := r.contentTruncated || decide (endIndex lines arguments < lines.length) }
    presentation := {
      verb := "Read"
      target := path
      outcome := "Read"
      summary := Nat.toDigits 10 lineCount ++
        (if lineCount = 1 then " line" else " lines").toList
      detail := if content.take 4000 = [] then none else some (content.take 4000) } }

/-- Read a page of a file at a resolved path. -/
def readFile (path : Text) (arguments : ReadFileArguments) (file : WorkspaceFile) :
    Except ExpectedToolFailure ReadFileOutput := do
  let data ← (file.readRegular maxFileBytes).mapError (FileFault.failure path)
  if data.contains 0 then
    .error ⟨.executionFailed, "Binary files cannot be read as text.", path⟩
  else
    match decodeUtf8 data with
    | none => .error ⟨.executionFailed, "File is not valid UTF-8 text.", path⟩
    | some text => .ok (page path arguments (splitlines text))

end AwesomeAgent.ReadFile
