import AwesomeAgent.Composer.Viewport

/-!
# The composer

The composer edits a value at a cursor that counts graphemes. Every edit lays the value out
again; a value that is too long is refused.
-/

namespace AwesomeAgent.Composer

open Segmenter

/-- Most characters of a value. -/
def maxComposerCodePoints : Nat := 200000

/-- Most entries of the history. -/
def maxHistoryEntries : Nat := 50

/-- Most bytes of the history. -/
def maxHistoryBytes : Nat := 1024 * 1024

/-- Why an edit is refused. -/
inductive ComposerError
  | inputTooLarge
  deriving DecidableEq, Repr

/-- The state of the composer. -/
structure ComposerState where
  value : Text
  cursorGrapheme : Nat
  viewport : ComposerViewport
  history : List Text
  historyIndex : Option Nat
  draft : Text
  error : Option ComposerError
  deriving DecidableEq, Repr

/-- What the composer is told to do. -/
inductive ComposerAction
  | insert (text : Text)
  | backspace
  | delete
  | left
  | right
  | home
  | bufferHome
  | bufferEnd
  | lineEnd
  | deleteLineStart
  | deleteLineEnd
  | deleteWord
  | replace (value : Text)
  | resize (width : Int)
  | submitHistory (value : Text)
  | historyPrevious
  | historyNext
  deriving DecidableEq, Repr

/-- The composer at its start. -/
def initialComposerState : ComposerState where
  value := []
  cursorGrapheme := 0
  viewport := {
    width := 80
    startRow := 0
    rows := [[]]
    cursorRow := 0
    cursorColumn := 0
    hiddenAbove := false
    hiddenBelow := false }
  history := []
  historyIndex := none
  draft := []
  error := none

/-! ## History -/

/-- The bytes of a history. -/
def historyBytes (history : List Text) : Nat :=
  (history.map fun entry => (encodeUtf8 entry).length).sum

/-- Drop the oldest entries until the history is small enough. -/
def shiftHistory : List Text → List Text
  | [] => []
  | entry :: rest =>
      if maxHistoryEntries < (entry :: rest).length ∨
          maxHistoryBytes < historyBytes (entry :: rest) then
        shiftHistory rest
      else entry :: rest

/-- Append an entry that is neither empty nor the last one again. -/
def appendHistory (history : List Text) (value : Text) : List Text :=
  if value = [] ∨ history.getLast? = some value then history
  else shiftHistory (history ++ [value])

/-! ## Editing -/

/-- White space of regular expressions. -/
def isWhiteSpace (c : Char) : Bool :=
  let n := c.toNat
  decide ((0x09 ≤ n ∧ n ≤ 0x0D) ∨ n = 0x20 ∨ n = 0xA0 ∨ n = 0x1680 ∨ (0x2000 ≤ n ∧ n ≤ 0x200A) ∨
    n = 0x2028 ∨ n = 0x2029 ∨ n = 0x202F ∨ n = 0x205F ∨ n = 0x3000 ∨ n = 0xFEFF)

/-- `/^\s$/u` -/
def isBlank : Text → Bool
  | [c] => isWhiteSpace c
  | _ => false

/-- Forget the error of an edit before. -/
def clearError (state : ComposerState) : ComposerState := { state with error := none }

/-- Step back over graphemes of a kind. -/
def skipBack (parts : List Text) (blank : Bool) : Nat → Nat
  | 0 => 0
  | start + 1 =>
      if isBlank (parts.getD start []) = blank then skipBack parts blank start else start + 1

section Reducing

variable [Segmenter] [CharacterData]

/-- Lay out the value with a width. -/
def withWidth (state : ComposerState) (width : Int) : ComposerState :=
  { state with viewport := computeViewport state.value state.cursorGrapheme width }

/-- Lay out the value again. -/
def withViewport (state : ComposerState) : ComposerState := withWidth state state.viewport.width

/-- Remove graphemes. -/
def removeRange (state : ComposerState) (start stop : Nat) : ComposerState :=
  let parts := graphemes state.value
  let boundedStart := min parts.length start
  let boundedEnd := max boundedStart (min parts.length stop)
  withViewport (clearError
    { state with
      value := (parts.take boundedStart ++ parts.drop boundedEnd).flatten
      cursorGrapheme := boundedStart })

/-- The start of the line of the cursor. -/
def lineStart (state : ComposerState) : Nat :=
  let before := (graphemes state.value).take state.cursorGrapheme
  before.length - (before.reverse.takeWhile fun part => decide (part ≠ lineFeed)).length

/-- The end of the line of the cursor. -/
def lineEnd (state : ComposerState) : Nat :=
  let parts := graphemes state.value
  match (parts.drop state.cursorGrapheme).findIdx? fun part => decide (part = lineFeed) with
  | none => parts.length
  | some relative => state.cursorGrapheme + relative

/-- Show an entry of the history. -/
def replaceFromHistory (state : ComposerState) (historyIndex : Nat) (draft : Text) :
    ComposerState :=
  let value := state.history.getD historyIndex []
  withViewport
    { state with
      value := value
      cursorGrapheme := graphemeCount value
      historyIndex := some historyIndex
      draft := draft }

/-- Move the cursor. -/
def moveTo (state : ComposerState) (cursorGrapheme : Nat) : ComposerState :=
  withViewport (clearError { state with cursorGrapheme := cursorGrapheme })

/-- The value with a text inserted at the cursor. -/
def insertedValue (state : ComposerState) (text : Text) : Text :=
  let offset := codeUnitOffset state.value state.cursorGrapheme
  state.value.take offset ++ text ++ state.value.drop offset

/-- One action of the composer. -/
def composerReducer (state : ComposerState) : ComposerAction → ComposerState
  | .resize width => withWidth state width
  | .submitHistory value =>
      { state with
        history := appendHistory state.history value
        historyIndex := none
        draft := [] }
  | .historyPrevious =>
      if state.history = [] then state
      else
        match state.historyIndex with
        | none => replaceFromHistory state (state.history.length - 1) state.value
        | some index => replaceFromHistory state (index - 1) state.draft
  | .historyNext =>
      match state.historyIndex with
      | none => state
      | some index =>
          if index + 1 = state.history.length then
            withViewport
              { state with
                value := state.draft
                cursorGrapheme := graphemeCount state.draft
                historyIndex := none }
          else replaceFromHistory state (index + 1) state.draft
  | .insert text =>
      let value := insertedValue state text
      if maxComposerCodePoints < codePointCount value then
        { state with error := some .inputTooLarge }
      else
        withViewport (clearError
          { state with
            value := value
            cursorGrapheme := state.cursorGrapheme + graphemeCount text })
  | .replace value =>
      if maxComposerCodePoints < codePointCount value then
        { state with error := some .inputTooLarge }
      else
        withViewport (clearError
          { state with value := value, cursorGrapheme := graphemeCount value })
  | .left => moveTo state (state.cursorGrapheme - 1)
  | .right => moveTo state (min (graphemeCount state.value) (state.cursorGrapheme + 1))
  | .backspace => removeRange state (state.cursorGrapheme - 1) state.cursorGrapheme
  | .delete => removeRange state state.cursorGrapheme (state.cursorGrapheme + 1)
  | .bufferHome => moveTo state 0
  | .bufferEnd => moveTo state (graphemeCount state.value)
  | .home => moveTo state (lineStart state)
  | .lineEnd => moveTo state (lineEnd state)
  | .deleteLineStart => removeRange state (lineStart state) state.cursorGrapheme
  | .deleteLineEnd => removeRange state state.cursorGrapheme (lineEnd state)
  | .deleteWord =>
      let parts := graphemes state.value
      let start := skipBack parts false (skipBack parts true state.cursorGrapheme)
      removeRange state start state.cursorGrapheme

end Reducing

end AwesomeAgent.Composer
