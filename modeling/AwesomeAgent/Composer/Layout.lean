import AwesomeAgent.Composer.Viewport

/-!
# Where graphemes are drawn

Rows hold the graphemes of a value between its newlines. The cursor is noted before a row is
started for the grapheme behind it, and only its row is noted again.
-/

namespace AwesomeAgent.Composer

open Segmenter

section Drawing

variable [CharacterData] {width cursor : Nat} {parts : List Text} {part : Text} {s : Sheet}

/-- The columns of a row. -/
def rowWidth (row : Row) : Nat := (row.map displayWidth).sum

/-- Lay out a grapheme, without the cursor. -/
def Sheet.put (width : Nat) (s : Sheet) (part : Text) : Sheet :=
  if part = lineFeed then s.push
  else if s.wraps width part then s.push.append part
  else s.append part

/-- The rows of some graphemes. -/
def sheetOf (width : Nat) (parts : List Text) : Sheet := parts.foldl (Sheet.put width) ⟨[], [], 0⟩

private theorem sheetOf_concat (width : Nat) (parts : List Text) (part : Text) :
    sheetOf width (parts ++ [part]) = (sheetOf width parts).put width part :=
  List.foldl_concat ..

/-- A row is started for a grapheme. -/
def StartsRow (width : Nat) (s : Sheet) (part : Text) : Prop :=
  part ≠ lineFeed ∧ s.wraps width part = true

instance (width : Nat) (s : Sheet) (part : Text) : Decidable (StartsRow width s part) :=
  inferInstanceAs (Decidable (_ ∧ _))

/-! ## The loop -/

omit [CharacterData] in
private theorem mark_sheet (l : Layout) (index : Nat) : (l.mark cursor index).sheet = l.sheet := by
  unfold Layout.mark
  split <;> rfl

private theorem step_sheet (l : Layout) (item : Text × Nat) :
    (l.step width cursor item).sheet = l.sheet.put width item.1 := by
  unfold Layout.step Sheet.put
  simp only [mark_sheet]
  split
  · rfl
  split <;> rfl

omit [CharacterData] in
private theorem mark_of_ne {l : Layout} {index : Nat} (h : index ≠ cursor) :
    l.mark cursor index = l := if_neg h

private theorem step_of_ne (width : Nat) (l : Layout) (item : Text × Nat) (h : item.2 ≠ cursor) :
    (l.step width cursor item).cursorRow = l.cursorRow ∧
      (l.step width cursor item).cursorColumn = l.cursorColumn := by
  unfold Layout.step
  rw [mark_of_ne h]
  dsimp only
  rw [if_neg h]
  split
  · exact ⟨rfl, rfl⟩
  split <;> exact ⟨rfl, rfl⟩

private theorem step_at_cursor (l : Layout) (part : Text) :
    (l.step width cursor (part, cursor)).cursorRow =
        l.sheet.finished.length + (if StartsRow width l.sheet part then 1 else 0) ∧
      (l.step width cursor (part, cursor)).cursorColumn = l.sheet.column := by
  have hmark : l.mark cursor cursor =
      { l with cursorRow := l.sheet.finished.length, cursorColumn := l.sheet.column } := if_pos rfl
  unfold Layout.step
  rw [hmark]
  by_cases hfeed : part = lineFeed
  · rw [if_pos hfeed, if_neg (fun h : StartsRow width l.sheet part => h.1 hfeed)]
    exact ⟨rfl, rfl⟩
  · rw [if_neg hfeed]
    by_cases hwraps : l.sheet.wraps width part = true
    · rw [if_pos hwraps, if_pos (show StartsRow width l.sheet part from ⟨hfeed, hwraps⟩)]
      refine ⟨?_, rfl⟩
      rw [if_pos rfl, Sheet.push, List.length_append, List.length_singleton]
    · rw [if_neg hwraps, if_neg (fun h : StartsRow width l.sheet part => hwraps h.2)]
      exact ⟨rfl, rfl⟩

/-- The rows in front of the cursor. -/
def sheetBefore (width : Nat) (parts : List Text) (cursor : Nat) : Sheet :=
  sheetOf width (parts.take cursor)

/-- A row is started for the grapheme behind the cursor. -/
def WrapsAtCursor (parts : List Text) (width cursor : Nat) : Prop :=
  ∃ part ∈ parts[cursor]?, StartsRow width (sheetBefore width parts cursor) part

private theorem loop_spec (parts : List Text) (width cursor : Nat) :
    (parts.zipIdx.foldl (Layout.step width cursor) ⟨⟨[], [], 0⟩, 0, 0⟩).sheet =
        sheetOf width parts ∧
      ∀ part ∈ parts[cursor]?,
        (parts.zipIdx.foldl (Layout.step width cursor) ⟨⟨[], [], 0⟩, 0, 0⟩).cursorRow =
            (sheetBefore width parts cursor).finished.length +
              (if StartsRow width (sheetBefore width parts cursor) part then 1 else 0) ∧
          (parts.zipIdx.foldl (Layout.step width cursor) ⟨⟨[], [], 0⟩, 0, 0⟩).cursorColumn =
            (sheetBefore width parts cursor).column := by
  induction parts using List.reverseRecOn with
  | nil => exact ⟨rfl, nofun⟩
  | append_singleton front last ih =>
    obtain ⟨hsheet, hcursor⟩ := ih
    rw [List.zipIdx_append, List.foldl_append, List.zipIdx_singleton, List.foldl_cons,
      List.foldl_nil, Nat.zero_add]
    refine ⟨by rw [step_sheet, hsheet, sheetOf_concat], fun part hpart => ?_⟩
    by_cases hlast : front.length = cursor
    · subst hlast
      rw [List.getElem?_concat_length] at hpart
      cases hpart
      have hbefore : sheetBefore width (front ++ [last]) front.length = sheetOf width front := by
        rw [sheetBefore, List.take_left]
      rw [hbefore, ← hsheet]
      exact step_at_cursor _ last
    · have hlt : cursor < front.length := by
        have hlength := (List.getElem?_eq_some_iff.mp hpart).1
        rw [List.length_append, List.length_singleton] at hlength
        omega
      have hbefore : sheetBefore width (front ++ [last]) cursor =
          sheetBefore width front cursor := by
        rw [sheetBefore, sheetBefore, List.take_append_of_le_length hlt.le]
      rw [List.getElem?_append_left hlt] at hpart
      obtain ⟨hrow, hcolumn⟩ := hcursor part hpart
      have hkeeps := step_of_ne width
        (front.zipIdx.foldl (Layout.step width cursor) ⟨⟨[], [], 0⟩, 0, 0⟩)
        (last, front.length) hlast
      rw [hbefore]
      exact ⟨hkeeps.1.trans hrow, hkeeps.2.trans hcolumn⟩

private theorem layout_sheet (parts : List Text) (width cursor : Nat) :
    (layout parts width cursor).sheet = sheetOf width parts := by
  rw [layout, mark_sheet]
  exact (loop_spec parts width cursor).1

private theorem layout_cursor (width : Nat) (h : cursor ≤ parts.length) :
    (layout parts width cursor).cursorColumn = (sheetBefore width parts cursor).column ∧
      (WrapsAtCursor parts width cursor → (layout parts width cursor).cursorRow =
        (sheetBefore width parts cursor).finished.length + 1) ∧
      (¬WrapsAtCursor parts width cursor → (layout parts width cursor).cursorRow =
        (sheetBefore width parts cursor).finished.length) := by
  obtain ⟨hsheet, hcursor⟩ := loop_spec parts width cursor
  obtain rfl | hlt := h.eq_or_lt
  · have hbefore : sheetBefore width parts parts.length = sheetOf width parts := by
      rw [sheetBefore, List.take_length]
    have hnone : ¬WrapsAtCursor parts width parts.length := by
      rintro ⟨part, hpart, -⟩
      rw [List.getElem?_eq_none le_rfl] at hpart
      cases hpart
    rw [hbefore, ← hsheet, layout, Layout.mark, if_pos rfl]
    exact ⟨rfl, fun h => absurd h hnone, fun _ => rfl⟩
  · rw [layout, mark_of_ne (Nat.ne_of_gt hlt)]
    have hpart : parts[cursor]? = some parts[cursor] := List.getElem?_eq_getElem hlt
    obtain ⟨hrow, hcolumn⟩ := hcursor _ hpart
    refine ⟨hcolumn, fun hwraps => ?_, fun hwraps => ?_⟩
    · obtain ⟨part, hmem, hstarts⟩ := hwraps
      rw [hpart] at hmem
      cases hmem
      rw [hrow, if_pos hstarts]
    · rw [hrow, if_neg fun hstarts => hwraps ⟨_, hpart, hstarts⟩, Nat.add_zero]

/-! ## Rows -/

private theorem Sheet.put_cases (width : Nat) (s : Sheet) (part : Text) :
    (part = lineFeed ∧ s.put width part = s.push) ∨
      (StartsRow width s part ∧ s.put width part = s.push.append part) ∨
      (part ≠ lineFeed ∧ ¬s.wraps width part = true ∧ s.put width part = s.append part) := by
  unfold Sheet.put StartsRow
  by_cases hfeed : part = lineFeed
  · exact .inl ⟨hfeed, if_pos hfeed⟩
  rw [if_neg hfeed]
  by_cases hwraps : s.wraps width part = true
  · exact .inr (.inl ⟨⟨hfeed, hwraps⟩, if_pos hwraps⟩)
  · exact .inr (.inr ⟨hfeed, hwraps, if_neg hwraps⟩)

private theorem rowWidth_concat (row : Row) (part : Text) :
    rowWidth (row ++ [part]) = rowWidth row + displayWidth part := by
  rw [rowWidth, List.map_append, List.map_singleton, List.sum_append, List.sum_singleton]
  rfl

private theorem sheetOf_column (width : Nat) (parts : List Text) :
    (sheetOf width parts).column = rowWidth (sheetOf width parts).last := by
  induction parts using List.reverseRecOn with
  | nil => rfl
  | append_singleton front part ih =>
    rw [sheetOf_concat]
    obtain ⟨-, h⟩ | ⟨-, h⟩ | ⟨-, -, h⟩ := (sheetOf width front).put_cases width part
    · rw [h]
      rfl
    · rw [h]
      change 0 + displayWidth part = rowWidth ([] ++ [part])
      rw [rowWidth_concat]
      rfl
    · rw [h]
      change _ + displayWidth part = rowWidth (_ ++ [part])
      rw [rowWidth_concat, ih]

private theorem flatten_rows (width : Nat) (parts : List Text) :
    (sheetOf width parts).rows.flatten = parts.filter fun part => decide (part ≠ lineFeed) := by
  induction parts using List.reverseRecOn with
  | nil => rfl
  | append_singleton front part ih =>
    rw [sheetOf_concat, List.filter_append, ← ih]
    obtain ⟨hfeed, h⟩ | ⟨⟨hfeed, -⟩, h⟩ | ⟨hfeed, -, h⟩ :=
      (sheetOf width front).put_cases width part
    · rw [h, hfeed]
      simp [Sheet.rows, Sheet.push]
    · rw [h, List.filter_singleton, decide_eq_true hfeed]
      simp [Sheet.rows, Sheet.push, Sheet.append]
    · rw [h, List.filter_singleton, decide_eq_true hfeed]
      simp [Sheet.rows, Sheet.append]

private theorem rows_append (width : Nat) (parts rest : List Text) : ∃ more later,
    (sheetOf width (parts ++ rest)).rows =
      (sheetOf width parts).finished ++ ((sheetOf width parts).last ++ more) :: later := by
  induction rest using List.reverseRecOn with
  | nil => exact ⟨[], [], by rw [List.append_nil, List.append_nil]; rfl⟩
  | append_singleton front part ih =>
    obtain ⟨more, later, ih⟩ := ih
    rw [← List.append_assoc, sheetOf_concat]
    have hnew (row : Row) : ∃ more later, (sheetOf width (parts ++ front)).rows ++ [row] =
        (sheetOf width parts).finished ++ ((sheetOf width parts).last ++ more) :: later :=
      ⟨more, later ++ [row], by rw [ih, List.append_assoc, List.cons_append]⟩
    obtain ⟨-, h⟩ | ⟨-, h⟩ | ⟨-, -, h⟩ :=
      (sheetOf width (parts ++ front)).put_cases width part
    · rw [h]
      exact hnew []
    · rw [h]
      exact hnew [part]
    · rw [h]
      change ∃ more later, (sheetOf width (parts ++ front)).finished ++
        [(sheetOf width (parts ++ front)).last ++ [part]] = _
      change (sheetOf width (parts ++ front)).finished ++
        [(sheetOf width (parts ++ front)).last] = _ at ih
      obtain rfl | ⟨others, last, rfl⟩ := List.eq_nil_or_concat later
      · obtain ⟨hfinished, hlast⟩ := List.append_inj' ih rfl
        refine ⟨more ++ [part], [], ?_⟩
        rw [hfinished, (List.cons.inj hlast).1, List.append_assoc]
      · rw [List.concat_eq_append, ← List.cons_append, ← List.append_assoc] at ih
        obtain ⟨hfinished, hlast⟩ := List.append_inj' ih rfl
        refine ⟨more, others ++ [last ++ [part]], ?_⟩
        rw [hfinished, (List.cons.inj hlast).1, List.append_assoc, List.cons_append]

/-! ## The text of the rows -/

/-- Newlines are graphemes of their own. -/
def LineFeedsAlone (parts : List Text) : Prop := ∀ part ∈ parts, '\n' ∈ part → part = lineFeed

omit [CharacterData] in
private theorem filter_eq_self {part : Text} (h : '\n' ∉ part) :
    (part.filter fun c => decide (c ≠ '\n')) = part := by
  apply List.filter_eq_self.2
  intro c hc
  rw [decide_eq_true_iff]
  rintro rfl
  exact h hc

private theorem rows_text_iff (width : Nat) (parts : List Text) :
    ((sheetOf width parts).rows.map List.flatten).flatten =
      (parts.flatten.filter fun c => decide (c ≠ '\n')) ↔ LineFeedsAlone parts := by
  rw [← List.flatten_flatten, flatten_rows]
  constructor
  · intro h part hpart hfeed
    by_contra hne
    have hmem : '\n' ∈ (parts.filter fun part => decide (part ≠ lineFeed)).flatten :=
      List.mem_flatten.mpr ⟨part, List.mem_filter.mpr ⟨hpart, decide_eq_true hne⟩, hfeed⟩
    rw [h, List.mem_filter, decide_eq_true_iff] at hmem
    exact hmem.2 rfl
  · intro h
    induction parts with
    | nil => rfl
    | cons part parts ih =>
      obtain ⟨hpart, hparts⟩ := List.forall_mem_cons.mp h
      rw [List.flatten_cons, List.filter_append, ← ih hparts]
      by_cases hfeed : part = lineFeed
      · rw [hfeed, List.filter_cons_of_neg (by simp)]
        rfl
      · rw [List.filter_cons_of_pos (by simpa using hfeed), List.flatten_cons,
          filter_eq_self fun hmem => hfeed (hpart hmem)]

/-! ## The width of the rows -/

/-- A row is no wider than the width, or it is a single grapheme. -/
def FitsRow (width : Nat) (row : Row) : Prop := rowWidth row ≤ width ∨ ∃ part, row = [part]

/-- No grapheme that is wider than the width follows graphemes without width in its row. -/
def NoOverhang (parts : List Text) (width : Nat) : Prop :=
  ∀ before part next rest, parts = before ++ part :: next :: rest → part ≠ lineFeed →
    next ≠ lineFeed → (sheetOf width (before ++ [part])).column = 0 → displayWidth next ≤ width

private theorem NoOverhang.of_append {rest : List Text} (h : NoOverhang (parts ++ rest) width) :
    NoOverhang parts width := by
  intro before part next later hparts
  apply h before part next (later ++ rest)
  rw [hparts, List.append_assoc, List.cons_append, List.cons_append]

private theorem exists_last (h : (sheetOf width parts).last ≠ []) :
    ∃ before part, parts = before ++ [part] ∧ part ≠ lineFeed := by
  obtain rfl | ⟨before, part, rfl⟩ := List.eq_nil_or_concat parts
  · exact absurd rfl h
  · rw [List.concat_eq_append] at h ⊢
    refine ⟨before, part, rfl, fun hfeed => h ?_⟩
    rw [sheetOf_concat, Sheet.put, if_pos hfeed]
    rfl

private theorem last_concat (width : Nat) (parts : List Text) (hfeed : part ≠ lineFeed) :
    ∃ before, (sheetOf width (parts ++ [part])).last = before ++ [part] := by
  rw [sheetOf_concat]
  obtain ⟨hbad, -⟩ | ⟨-, h⟩ | ⟨-, -, h⟩ := (sheetOf width parts).put_cases width part
  · exact absurd hbad hfeed
  · exact ⟨[], by rw [h]; rfl⟩
  · exact ⟨_, by rw [h]; rfl⟩

private theorem NoOverhang.fitsRow (h : NoOverhang parts width) :
    ∀ row ∈ (sheetOf width parts).rows, FitsRow width row := by
  induction parts using List.reverseRecOn with
  | nil => exact List.forall_mem_singleton.mpr (.inl (Nat.zero_le _))
  | append_singleton front next ih =>
    have hfront := ih h.of_append
    have hlast := hfront _ (List.mem_append_right _ (List.mem_singleton.mpr rfl))
    have hfinished := fun row (hrow : row ∈ (sheetOf width front).finished) =>
      hfront row (List.mem_append_left _ hrow)
    have hnew {row : Row} (hrow : FitsRow width row) :
        ∀ other ∈ (sheetOf width front).rows ++ [row], FitsRow width other := by
      intro other hother
      obtain hother | hother := List.mem_append.mp hother
      · exact hfront other hother
      · rwa [List.mem_singleton.mp hother]
    rw [sheetOf_concat]
    obtain ⟨-, hput⟩ | ⟨-, hput⟩ | ⟨hfeed, hroom, hput⟩ :=
      (sheetOf width front).put_cases width next
    · rw [hput]
      exact hnew (.inl (Nat.zero_le _))
    · rw [hput]
      exact hnew (.inr ⟨next, rfl⟩)
    · rw [hput]
      intro row hrow
      obtain hrow | hrow := List.mem_append.mp hrow
      · exact hfinished row hrow
      · obtain rfl := List.mem_singleton.mp hrow
        change FitsRow width ((sheetOf width front).last ++ [next])
        have hcolumn := sheetOf_column width front
        rw [Sheet.wraps, decide_eq_true_iff, not_and] at hroom
        by_cases hempty : (sheetOf width front).last = []
        · exact .inr ⟨next, by rw [hempty]; rfl⟩
        · left
          rw [rowWidth_concat, ← hcolumn]
          by_cases hzero : (sheetOf width front).column = 0
          · obtain ⟨before, part, rfl, hpart⟩ := exists_last hempty
            have hle := h before part next [] (List.append_assoc _ _ _) hpart hfeed hzero
            omega
          · have hle := hroom (Nat.pos_of_ne_zero hzero)
            omega

private theorem noOverhang_of_fitsRow (h : ∀ row ∈ (sheetOf width parts).rows, FitsRow width row) :
    NoOverhang parts width := by
  intro before part next rest hparts hpart hnext hzero
  by_contra hwide
  have hstay : (sheetOf width (before ++ [part])).put width next =
      (sheetOf width (before ++ [part])).append next := by
    rw [Sheet.put, if_neg hnext, if_neg]
    rw [Sheet.wraps, decide_eq_true_iff, hzero]
    omega
  obtain ⟨row, hrow⟩ := last_concat width before hpart
  obtain ⟨more, later, hrows⟩ := rows_append width (before ++ [part] ++ [next]) rest
  have hall : before ++ [part] ++ [next] ++ rest = parts := by
    rw [hparts, List.append_assoc, List.append_assoc]
    rfl
  rw [hall, sheetOf_concat, hstay] at hrows
  have hmem : row ++ [part] ++ [next] ++ more ∈ (sheetOf width parts).rows := by
    rw [hrows, ← hrow]
    exact List.mem_append_right _ List.mem_cons_self
  obtain hfits | ⟨single, hsingle⟩ := h _ hmem
  · have hle : displayWidth next ≤ rowWidth (row ++ [part] ++ [next] ++ more) := by
      rw [rowWidth, List.map_append, List.sum_append]
      change _ ≤ rowWidth (row ++ [part] ++ [next]) + _
      rw [rowWidth_concat]
      omega
    omega
  · have hlength := congrArg List.length hsingle
    simp only [List.length_append, List.length_singleton] at hlength
    omega

/-! ## The cursor -/

/-- The place in the rows in front of the next grapheme, given the rows of the text before it.
The grapheme goes on with the row or starts it; a newline and the end stand behind the row. -/
def DrawnAt (rows before : List Row) (next : Option Text) (row column : Nat) : Prop :=
  ∃ front left right later, rows = front ++ (left ++ right) :: later ∧
    row = front.length ∧ column = rowWidth left ∧
    (before = front ++ [left] ∨ before = front ∧ left = []) ∧
    (∀ part ∈ next, part ≠ lineFeed → right.head? = some part) ∧
    ((∀ part ∈ next, part = lineFeed) → right = [] ∧ before = front ++ [left])

omit [CharacterData] in
private theorem drop_eq_cons (h : parts[cursor]? = some part) :
    parts = parts.take cursor ++ part :: parts.drop (cursor + 1) := by
  obtain ⟨hlt, rfl⟩ := List.getElem?_eq_some_iff.mp h
  rw [← List.drop_eq_getElem_cons hlt, List.take_append_drop]

/-- Without a new row, the grapheme behind the cursor goes on with the row. -/
private theorem drawnAt_of_not_wraps (hwraps : ¬WrapsAtCursor parts width cursor) :
    DrawnAt (sheetOf width parts).rows (sheetBefore width parts cursor).rows parts[cursor]?
      (sheetBefore width parts cursor).finished.length
      (sheetBefore width parts cursor).column := by
  have hcolumn := sheetOf_column width (parts.take cursor)
  cases hnext : parts[cursor]? with
  | none =>
    have hall : parts.take cursor = parts :=
      List.take_of_length_le (List.getElem?_eq_none_iff.mp hnext)
    unfold sheetBefore
    rw [hall] at hcolumn ⊢
    refine ⟨_, _, [], [], ?_, rfl, hcolumn, .inl rfl, nofun, fun _ => ⟨rfl, rfl⟩⟩
    rw [List.append_nil]
    rfl
  | some part =>
    have hparts := drop_eq_cons hnext
    obtain ⟨more, later, hrows⟩ := rows_append width (parts.take cursor ++ [part])
      (parts.drop (cursor + 1))
    rw [List.append_assoc, List.singleton_append, ← hparts, sheetOf_concat] at hrows
    obtain ⟨hfeed, hput⟩ | ⟨hstarts, -⟩ | ⟨hfeed, -, hput⟩ :=
      (sheetOf width (parts.take cursor)).put_cases width part
    · rw [hput] at hrows
      change _ = ((_ ++ [_]) ++ ([] ++ more) :: later) at hrows
      refine ⟨_, _, [], ([] ++ more) :: later, ?_, rfl, hcolumn, .inl rfl, ?_,
        fun _ => ⟨rfl, rfl⟩⟩
      · rw [hrows, List.append_assoc, List.append_nil]
        rfl
      · rintro other hother hne
        cases hother
        exact absurd hfeed hne
    · exact absurd ⟨part, hnext, hstarts⟩ hwraps
    · rw [hput] at hrows
      refine ⟨_, _, part :: more, later, ?_, rfl, hcolumn, .inl rfl, ?_, ?_⟩
      · rw [hrows]
        change _ ++ ((_ ++ [part]) ++ more) :: later = _
        rw [List.append_assoc]
        rfl
      · rintro other hother -
        cases hother
        rfl
      · intro hall
        exact absurd (hall part rfl) hfeed

private theorem drawnAt_iff (width : Nat) (h : cursor ≤ parts.length) :
    DrawnAt (sheetOf width parts).rows (sheetBefore width parts cursor).rows parts[cursor]?
        (layout parts width cursor).cursorRow (layout parts width cursor).cursorColumn ↔
      ¬WrapsAtCursor parts width cursor := by
  obtain ⟨hcolumn, hwrapped, hplain⟩ := layout_cursor width h
  by_cases hwraps : WrapsAtCursor parts width cursor
  · refine iff_of_false ?_ (not_not.mpr hwraps)
    rw [hcolumn, hwrapped hwraps]
    -- the row is the new one, but the column is the one behind the row before it
    rintro ⟨front, left, right, later, -, hrow, hleft, hbefore, -, -⟩
    obtain ⟨part, hpart, -, hstarts⟩ := hwraps
    rw [Sheet.wraps, decide_eq_true_iff] at hstarts
    obtain hbefore | ⟨-, rfl⟩ := hbefore
    · have hlength := congrArg List.length hbefore
      rw [Sheet.rows, List.length_append, List.length_append, List.length_singleton,
        List.length_singleton] at hlength
      omega
    · rw [hleft] at hstarts
      exact absurd hstarts.1 (lt_irrefl _)
  · refine iff_of_true ?_ hwraps
    rw [hcolumn, hplain hwraps]
    exact drawnAt_of_not_wraps hwraps

/-! ## The viewport -/

private theorem cursorRow_lt (width : Nat) (h : cursor ≤ parts.length) :
    (layout parts width cursor).cursorRow < (sheetOf width parts).rows.length := by
  obtain ⟨-, hwrapped, hplain⟩ := layout_cursor width h
  by_cases hwraps : WrapsAtCursor parts width cursor
  · rw [hwrapped hwraps]
    obtain ⟨part, hpart, hfeed, hstarts⟩ := hwraps
    change (sheetOf width (parts.take cursor)).wraps width part = true at hstarts
    obtain ⟨more, later, hrows⟩ := rows_append width (parts.take cursor ++ [part])
      (parts.drop (cursor + 1))
    rw [List.append_assoc, List.singleton_append, ← drop_eq_cons hpart, sheetOf_concat,
      Sheet.put, if_neg hfeed, if_pos hstarts] at hrows
    have hlength := congrArg List.length hrows
    rw [List.length_append, List.length_cons] at hlength
    change _ = ((sheetBefore width parts cursor).finished ++ [_]).length + _ at hlength
    rw [List.length_append, List.length_singleton] at hlength
    omega
  · rw [hplain hwraps]
    obtain ⟨more, later, hrows⟩ := rows_append width (parts.take cursor) (parts.drop cursor)
    rw [List.take_append_drop] at hrows
    have hlength := congrArg List.length hrows
    rw [List.length_append, List.length_cons] at hlength
    change _ = (sheetBefore width parts cursor).finished.length + _ at hlength
    omega

omit [CharacterData] in
private theorem window_cursorRow (width : Nat) {l : Layout} (h : l.cursorRow < l.sheet.rows.length)
    :
    (window width l).startRow + (window width l).cursorRow = l.cursorRow ∧
      (window width l).cursorRow < (window width l).rows.length := by
  unfold window maxComposerRows
  simp only [List.length_map, List.length_take, List.length_drop]
  omega

section Segmented

variable [Segmenter]

/-- The rows of a value, before the window is cut out. -/
def rowsOf (value : Text) (requestedWidth : Int) : List Row :=
  (sheetOf (clampWidth requestedWidth) (graphemes value)).rows

/-- The rows of the text in front of the cursor. -/
def rowsBefore (value : Text) (cursorGrapheme requestedWidth : Int) : List Row :=
  (sheetBefore (clampWidth requestedWidth) (graphemes value)
    (clampCursor (graphemeCount value) cursorGrapheme)).rows

/-- A viewport shows a value and its cursor where they are drawn. -/
structure ShowsValue (value : Text) (cursorGrapheme requestedWidth : Int) (v : ComposerViewport) :
    Prop where
  window : v.rows = (((rowsOf value requestedWidth).map List.flatten).drop v.startRow).take
    maxComposerRows
  text : ((rowsOf value requestedWidth).map List.flatten).flatten =
    value.filter fun c => decide (c ≠ '\n')
  fits : ∀ row ∈ rowsOf value requestedWidth, FitsRow (clampWidth requestedWidth) row
  visible : v.cursorRow < v.rows.length
  cursor : DrawnAt (rowsOf value requestedWidth) (rowsBefore value cursorGrapheme requestedWidth)
    (graphemes value)[clampCursor (graphemeCount value) cursorGrapheme]?
    (v.startRow + v.cursorRow) v.cursorColumn

/-- A value is shown correctly exactly when newlines are graphemes of their own, no grapheme
hangs over the width, and no row is started at the cursor. -/
theorem computeViewport_showsValue_iff (value : Text) (cursorGrapheme requestedWidth : Int) :
    ShowsValue value cursorGrapheme requestedWidth
        (computeViewport value cursorGrapheme requestedWidth) ↔
      LineFeedsAlone (graphemes value) ∧
        NoOverhang (graphemes value) (clampWidth requestedWidth) ∧
        ¬WrapsAtCursor (graphemes value) (clampWidth requestedWidth)
          (clampCursor (graphemeCount value) cursorGrapheme) := by
  have hcursor : clampCursor (graphemeCount value) cursorGrapheme ≤ (graphemes value).length := by
    unfold clampCursor graphemeCount
    omega
  have hdrawn := drawnAt_iff (clampWidth requestedWidth) hcursor
  have htext := rows_text_iff (clampWidth requestedWidth) (graphemes value)
  rw [Segmenter.flatten_graphemes] at htext
  have hsheet := layout_sheet (graphemes value) (clampWidth requestedWidth)
    (clampCursor (graphemeCount value) cursorGrapheme)
  have hrow := cursorRow_lt (clampWidth requestedWidth) hcursor
  rw [← hsheet] at hrow
  obtain ⟨hstart, hvisible⟩ := window_cursorRow (clampWidth requestedWidth) hrow
  constructor
  · intro h
    refine ⟨htext.mp h.text, noOverhang_of_fitsRow h.fits, hdrawn.mp ?_⟩
    rw [← hstart]
    exact h.cursor
  · rintro ⟨halone, hoverhang, hwraps⟩
    refine ⟨?_, htext.mpr halone, hoverhang.fitsRow, hvisible, ?_⟩
    · rw [rowsOf, ← hsheet]
      rfl
    · have hplace := hdrawn.mpr hwraps
      rw [← hstart] at hplace
      exact hplace

end Segmented

end Drawing

attribute [local instance] markSegmenter diacriticalData in
/-- Two letters in rows of one column, with the cursor between them: the row is the second one,
the column the one behind the first letter. -/
theorem computeViewport_stale_column :
    ¬∀ (value : Text) (cursorGrapheme requestedWidth : Int),
      ShowsValue value cursorGrapheme requestedWidth
        (computeViewport value cursorGrapheme requestedWidth) := by
  intro hall
  have h := (computeViewport_showsValue_iff ['a', 'b'] 1 1).mp (hall ['a', 'b'] 1 1)
  exact h.2.2 ⟨['b'], by decide, by decide, by decide⟩

end AwesomeAgent.Composer
