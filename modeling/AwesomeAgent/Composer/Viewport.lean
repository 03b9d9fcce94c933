import AwesomeAgent.Composer.Graphemes
import Mathlib.Algebra.BigOperators.Group.List.Basic
import Mathlib.Algebra.GroupWithZero.Nat

/-!
# Viewport of the composer

The graphemes of a value are laid out in rows, with a new row at a newline and where the width
is used up. Eight rows around the cursor are shown.
-/

namespace AwesomeAgent.Composer

open Segmenter

/-- Most rows that are shown. -/
def maxComposerRows : Nat := 8

/-- A row, as the graphemes appended to it. -/
abbrev Row := List Text

/-- Characters that take two columns. -/
def isWideCodePoint (codePoint : Nat) : Bool :=
  decide (0x1100 ≤ codePoint ∧
    (codePoint ≤ 0x115F ∨ codePoint = 0x2329 ∨ codePoint = 0x232A ∨
      (0x2E80 ≤ codePoint ∧ codePoint ≤ 0xA4CF ∧ codePoint ≠ 0x303F) ∨
      (0xAC00 ≤ codePoint ∧ codePoint ≤ 0xD7A3) ∨
      (0xF900 ≤ codePoint ∧ codePoint ≤ 0xFAFF) ∨
      (0xFE10 ≤ codePoint ∧ codePoint ≤ 0xFE19) ∨
      (0xFE30 ≤ codePoint ∧ codePoint ≤ 0xFE6F) ∨
      (0xFF00 ≤ codePoint ∧ codePoint ≤ 0xFF60) ∨
      (0xFFE0 ≤ codePoint ∧ codePoint ≤ 0xFFE6) ∨
      (0x20000 ≤ codePoint ∧ codePoint ≤ 0x3FFFD)))

/-- The columns of a grapheme. -/
def displayWidth [CharacterData] : Text → Nat
  | [] => 0
  | first :: rest =>
      if (first :: rest).all CharacterData.isMark then 0
      else if (first :: rest).any CharacterData.isPictographic then 2
      else if isWideCodePoint first.toNat then 2
      else 1

/-- The grapheme that ends a line. -/
def lineFeed : Text := ['\n']

/-- Rows under way: the finished ones, the last one and the column behind it. -/
structure Sheet where
  finished : List Row
  last : Row
  column : Nat

/-- The rows so far. -/
def Sheet.rows (s : Sheet) : List Row := s.finished ++ [s.last]

/-- Start a new row. -/
def Sheet.push (s : Sheet) : Sheet := ⟨s.finished ++ [s.last], [], 0⟩

/-- Append a grapheme to the last row. -/
def Sheet.append [CharacterData] (s : Sheet) (part : Text) : Sheet :=
  { s with last := s.last ++ [part], column := s.column + displayWidth part }

/-- A grapheme goes over the width of a row that has something in it. -/
def Sheet.wraps [CharacterData] (width : Nat) (s : Sheet) (part : Text) : Bool :=
  decide (0 < s.column ∧ width < s.column + displayWidth part)

/-- A layout under way. -/
structure Layout where
  sheet : Sheet
  cursorRow : Nat
  cursorColumn : Nat

/-- Note the place of the cursor. -/
def Layout.mark (cursor index : Nat) (l : Layout) : Layout :=
  if index = cursor then
    { l with cursorRow := l.sheet.finished.length, cursorColumn := l.sheet.column }
  else l

/-- Lay out one more grapheme. -/
def Layout.step [CharacterData] (width cursor : Nat) (l : Layout) (item : Text × Nat) : Layout :=
  let l := l.mark cursor item.2
  if item.1 = lineFeed then { l with sheet := l.sheet.push }
  else if l.sheet.wraps width item.1 then
    { l with
      sheet := l.sheet.push.append item.1
      cursorRow := if item.2 = cursor then l.sheet.push.finished.length else l.cursorRow }
  else { l with sheet := l.sheet.append item.1 }

/-- Lay out the graphemes of a value. -/
def layout [CharacterData] (parts : List Text) (width cursor : Nat) : Layout :=
  (parts.zipIdx.foldl (Layout.step width cursor) ⟨⟨[], [], 0⟩, 0, 0⟩).mark cursor parts.length

/-- What is shown of a value. -/
structure ComposerViewport where
  width : Nat
  startRow : Nat
  rows : List Text
  cursorRow : Nat
  cursorColumn : Nat
  hiddenAbove : Bool
  hiddenBelow : Bool
  deriving DecidableEq, Repr

/-- The width that is laid out for a requested one. -/
def clampWidth (requestedWidth : Int) : Nat := (max 1 requestedWidth).toNat

/-- The grapheme that the cursor stands at. -/
def clampCursor (count : Nat) (cursorGrapheme : Int) : Nat :=
  (max 0 (min (count : Int) cursorGrapheme)).toNat

/-- The rows of a layout that are shown. -/
def window (width : Nat) (l : Layout) : ComposerViewport :=
  let rows := l.sheet.rows.map List.flatten
  let maxStart := rows.length - maxComposerRows
  let startRow := min maxStart (l.cursorRow + 1 - maxComposerRows)
  { width := width
    startRow := startRow
    rows := (rows.drop startRow).take maxComposerRows
    cursorRow := l.cursorRow - startRow
    cursorColumn := l.cursorColumn
    hiddenAbove := decide (0 < startRow)
    hiddenBelow := decide (startRow + maxComposerRows < rows.length) }

/-- Lay out a value and show the rows around the cursor. -/
def computeViewport [Segmenter] [CharacterData] (value : Text)
    (cursorGrapheme requestedWidth : Int) : ComposerViewport :=
  let parts := graphemes value
  let width := clampWidth requestedWidth
  window width (layout parts width (clampCursor parts.length cursorGrapheme))

end AwesomeAgent.Composer
