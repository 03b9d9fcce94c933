import AwesomeAgent.Tools.ReadFile
import Mathlib.Order.Monotone.Basic
import Mathlib.Data.Nat.Basic

/-!
# Reading a file in pages

A page is exact unless the limit on characters falls inside a line: the line is then cut and
still counted as read. Pages that cut no line join to the whole file.
-/

namespace AwesomeAgent.ReadFile

variable {lines : List Text} {start count : Nat} {path : Text} {arguments : ReadFileArguments}

/-- The text of numbered lines. -/
def pageText (lines : List Text) (start count : Nat) : Text :=
  joinLines ((List.range' start count).map (numbered lines))

/-- What stands between two parts of a page. -/
def separator (count : Nat) : Text := if count = 0 then [] else ['\n']

private theorem joinLines_concat (front : List Text) (line : Text) :
    joinLines (front ++ [line]) = joinLines front ++ separator front.length ++ line := by
  induction front with
  | nil => exact List.intercalate_singleton
  | cons first rest ih =>
    cases rest with
    | nil =>
      simp only [joinLines, separator, List.cons_append, List.nil_append,
        List.intercalate_cons_cons, List.intercalate_singleton, List.length_singleton,
        if_neg Nat.one_ne_zero]
    | cons second more =>
      simp only [joinLines, separator, List.cons_append, List.intercalate_cons_cons,
        List.length_cons] at ih ⊢
      rw [ih, if_neg (Nat.succ_ne_zero _), if_neg (Nat.succ_ne_zero _)]
      simp only [List.append_assoc]

/-- No lines make no text. -/
@[simp] theorem pageText_zero : pageText lines start 0 = [] := rfl

private theorem pageText_succ : pageText lines start (count + 1) =
    pageText lines start count ++ (separator count ++ numbered lines (start + count)) := by
  unfold pageText
  rw [List.range'_1_concat, List.map_append, List.map_singleton, joinLines_concat,
    List.length_map, List.length_range', List.append_assoc]

private theorem numbered_ne_nil (lines : List Text) (index : Nat) : numbered lines index ≠ [] := by
  unfold numbered
  apply List.append_ne_nil_of_left_ne_nil
  exact List.append_ne_nil_of_right_ne_nil _ (List.cons_ne_nil _ _)

private theorem length_pageText_lt : (pageText lines start count).length <
    (pageText lines start (count + 1)).length := by
  have hline := List.length_pos_of_ne_nil (numbered_ne_nil lines (start + count))
  rw [pageText_succ, List.length_append, List.length_append]
  omega

private theorem strictMono_length_pageText (lines : List Text) (start : Nat) :
    StrictMono fun count => (pageText lines start count).length :=
  strictMono_nat_of_lt_succ fun _ => length_pageText_lt

private theorem length_pageText_le {bound : Nat}
    (h : ∀ index < start + count, (numbered lines index).length ≤ bound) :
    (pageText lines start count).length ≤ (bound + 1) * count := by
  induction count with
  | zero => exact le_rfl
  | succ count ih =>
    have hfront := ih fun index hindex => h index (by omega)
    have hline := h (start + count) (by omega)
    have hseparator : (separator count).length ≤ 1 := by
      unfold separator
      split <;> simp
    rw [pageText_succ, List.length_append, List.length_append, Nat.mul_succ]
    omega

/-! ## The loop -/

/-- The first lines of a page are rendered. -/
structure Shows (lines : List Text) (start count : Nat) (r : Rendering) : Prop where
  text : r.rendered.flatten = pageText lines start count
  chars : r.renderedChars = (pageText lines start count).length
  last : r.lastLine = start + count
  first : r.rendered = [] ↔ count = 0
  whole : r.contentTruncated = false
  fits : (pageText lines start count).length ≤ maxContentChars

/-- The characters are used up at a line of a page. -/
structure Stops (lines : List Text) (start count : Nat) (r : Rendering) : Prop where
  fits : (pageText lines start count).length ≤ maxContentChars
  full : maxContentChars < (pageText lines start (count + 1)).length
  text : r.rendered.flatten = (pageText lines start (count + 1)).take maxContentChars
  last : r.lastLine =
    start + count + if (pageText lines start count).length < maxContentChars then 1 else 0
  truncated : r.contentTruncated = true

/-- Rendering goes through all lines or stops at one of them. -/
theorem renderLines_cases (n : Nat) {r : Rendering} (h : Shows lines start count r) :
    Shows lines start (count + n) (renderLines lines (List.range' (start + count) n) r) ∨
      ∃ k, k < count + n ∧
        Stops lines start k (renderLines lines (List.range' (start + count) n) r) := by
  induction n generalizing count r with
  | zero => exact .inl h
  | succ n ih =>
    have hseparator : (if r.rendered = [] then [] else ['\n'] : Text) = separator count :=
      if_congr h.first rfl rfl
    have hlength := congrArg List.length
      (show pageText lines start (count + 1) = _ from pageText_succ)
    rw [List.length_append] at hlength
    have hfits := h.fits
    rw [List.range'_succ, renderLines, hseparator, h.chars]
    split
    · right
      refine ⟨count, by omega, ?_⟩
      split
      · rename_i hfull hroom
        have htext : (pageText lines start (count + 1)).take maxContentChars =
            pageText lines start count ++ (separator count ++ numbered lines (start + count)).take
              (maxContentChars - (pageText lines start count).length) := by
          rw [pageText_succ, List.take_append, List.take_of_length_le hfits]
        apply Stops.mk hfits (by omega) _ _ rfl
        · rw [htext, List.flatten_concat, h.text]
        · rw [if_pos (by omega)]
      · rename_i hfull hroom
        apply Stops.mk hfits (by omega) _ _ rfl
        · rw [pageText_succ, List.take_append_of_le_length (by omega),
            List.take_of_length_le hfits, h.text]
        · rw [if_neg (by omega), h.last, Nat.add_zero]
    · rename_i hroom
      have hnext : Shows lines start (count + 1)
          { r with
            rendered := r.rendered ++ [separator count ++ numbered lines (start + count)]
            renderedChars := (pageText lines start count).length +
              (separator count ++ numbered lines (start + count)).length
            lastLine := start + count + 1 } := by
        refine ⟨?_, hlength.symm, Nat.add_assoc _ _ _, ?_, h.whole, by omega⟩
        · rw [List.flatten_concat, h.text, pageText_succ]
        · exact iff_of_false (List.append_ne_nil_of_right_ne_nil _ (List.cons_ne_nil _ _))
            (Nat.succ_ne_zero _)
      have hrest := ih hnext
      rw [show count + 1 + n = count + (n + 1) by omega] at hrest
      exact hrest

/-! ## One page -/

/-- The limit on characters falls inside a line of the page. -/
def CutsLine (lines : List Text) (arguments : ReadFileArguments) : Prop :=
  ∃ count, startIndex lines arguments + count < endIndex lines arguments ∧
    (pageText lines (startIndex lines arguments) count).length < maxContentChars ∧
    maxContentChars < (pageText lines (startIndex lines arguments) (count + 1)).length

/-- The page starts behind the file and is asked to end inside it. -/
def PastEnd (lines : List Text) (arguments : ReadFileArguments) : Prop :=
  lines.length < arguments.startLine ∧ ∃ line ∈ arguments.endLine, line < lines.length

/-- The page holds its lines completely and says what is left. -/
structure ExactPage (lines : List Text) (arguments : ReadFileArguments) (out : ReadFileOutput) :
    Prop where
  content : out.content = pageText lines (arguments.startLine - 1)
    (out.metadata.endLine - (arguments.startLine - 1))
  inFile : out.metadata.endLine ≤ lines.length
  truncated : out.metadata.truncated = true ↔ out.metadata.endLine < lines.length

/-- What a page shows. -/
inductive PageCase (lines : List Text) (arguments : ReadFileArguments) (out : ReadFileOutput) :
    Prop
  | full
      (content : out.content = pageText lines (startIndex lines arguments)
        (endIndex lines arguments - startIndex lines arguments))
      (fits : out.content.length ≤ maxContentChars)
      (last : out.metadata.endLine = max (startIndex lines arguments) (endIndex lines arguments))
      (truncated : out.metadata.truncated = true ↔ endIndex lines arguments < lines.length)
  | stopped (count : Nat)
      (inside : startIndex lines arguments + count < endIndex lines arguments)
      (fits : (pageText lines (startIndex lines arguments) count).length ≤ maxContentChars)
      (exceeds : maxContentChars < (pageText lines (startIndex lines arguments) (count + 1)).length)
      (content : out.content =
        (pageText lines (startIndex lines arguments) (count + 1)).take maxContentChars)
      (last : out.metadata.endLine = startIndex lines arguments + count +
        if (pageText lines (startIndex lines arguments) count).length < maxContentChars then 1
        else 0)
      (truncated : out.metadata.truncated = true)

private theorem page_cases (path : Text) (arguments : ReadFileArguments) (lines : List Text) :
    PageCase lines arguments (page path arguments lines) := by
  have hempty : Shows lines (startIndex lines arguments) 0
      ⟨[], 0, startIndex lines arguments, false⟩ :=
    ⟨rfl, rfl, rfl, iff_of_true rfl rfl, rfl, Nat.zero_le _⟩
  obtain h | ⟨count, hcount, h⟩ := renderLines_cases
    (endIndex lines arguments - startIndex lines arguments) hempty
  · rw [Nat.zero_add, Nat.add_zero] at h
    apply PageCase.full h.text
    · exact (congrArg List.length h.text).trans_le h.fits
    · have hlast : (page path arguments lines).metadata.endLine = _ := h.last
      rw [hlast]
      omega
    · change (_ || _) = true ↔ _
      rw [pageRange, h.whole, Bool.false_or, decide_eq_true_iff]
  · rw [Nat.zero_add] at hcount
    rw [Nat.add_zero] at h
    apply PageCase.stopped count (by omega) h.fits h.full h.text h.last
    change (_ || _) = true
    rw [pageRange, h.truncated, Bool.true_or]

private theorem startIndex_of_le (h : arguments.startLine ≤ lines.length) :
    startIndex lines arguments = arguments.startLine - 1 := by
  unfold startIndex
  omega

private theorem endIndex_le (lines : List Text) (arguments : ReadFileArguments) :
    endIndex lines arguments ≤ lines.length := Nat.min_le_right _ _

private theorem cutsLine_iff
    (inside : startIndex lines arguments + count < endIndex lines arguments)
    (fits : (pageText lines (startIndex lines arguments) count).length ≤ maxContentChars)
    (exceeds : maxContentChars < (pageText lines (startIndex lines arguments) (count + 1)).length) :
    CutsLine lines arguments ↔
      (pageText lines (startIndex lines arguments) count).length < maxContentChars := by
  have hmono := strictMono_length_pageText lines (startIndex lines arguments)
  constructor
  · rintro ⟨other, -, hother, hlater⟩
    have hle : count < other + 1 := hmono.lt_iff_lt.mp (fits.trans_lt hlater)
    have hge : other < count + 1 := hmono.lt_iff_lt.mp (hother.trans exceeds)
    obtain rfl : other = count := by omega
    exact hother
  · exact fun h => ⟨count, inside, h, exceeds⟩

/-- A page is exact when no line is cut and it does not start behind the file. -/
def WholeLines (lines : List Text) (arguments : ReadFileArguments) : Prop :=
  ¬CutsLine lines arguments ∧ ¬PastEnd lines arguments

private theorem startIndex_of_not_pastEnd (h : startIndex lines arguments < lines.length) :
    arguments.startLine - 1 = startIndex lines arguments := by
  unfold startIndex at h ⊢
  omega

private theorem pastEnd_iff (h : startIndex lines arguments = lines.length) :
    PastEnd lines arguments ↔ endIndex lines arguments < lines.length := by
  have hstart := arguments.start_pos
  have hbehind : lines.length < arguments.startLine := by
    unfold startIndex at h
    omega
  unfold PastEnd endIndex
  rw [h, and_iff_right hbehind]
  cases arguments.endLine with
  | none => exact iff_of_false nofun (by rw [Option.getD_none]; omega)
  | some line =>
    simp only [Option.mem_some_iff, exists_eq_left', Option.getD_some]
    omega

private theorem not_pastEnd (h : startIndex lines arguments < lines.length) :
    ¬PastEnd lines arguments := by
  rintro ⟨hbehind, -⟩
  unfold startIndex at h
  omega

/-- A page is exact when it holds whole lines and does not start behind the file. -/
theorem exactPage_iff (path : Text) (arguments : ReadFileArguments) (lines : List Text) :
    ExactPage lines arguments (page path arguments lines) ↔ WholeLines lines arguments := by
  have hend := endIndex_le lines arguments
  have hstart : startIndex lines arguments ≤ lines.length := Nat.min_le_right _ _
  have hmono := strictMono_length_pageText lines (startIndex lines arguments)
  cases page_cases path arguments lines with
  | full content fits last truncated =>
    have hwhole : ¬CutsLine lines arguments := by
      rintro ⟨count, hcount, -, hover⟩
      have hle := hmono.monotone
        (show count + 1 ≤ endIndex lines arguments - startIndex lines arguments by omega)
      rw [content] at fits
      exact absurd (hover.trans_le (hle.trans fits)) (lt_irrefl _)
    obtain hbehind | hinside := hstart.eq_or_lt
    · have hnothing : endIndex lines arguments - startIndex lines arguments = 0 := by omega
      have hlast : (page path arguments lines).metadata.endLine = lines.length := by omega
      rw [hnothing, pageText_zero] at content
      constructor
      · intro h
        refine ⟨hwhole, fun hpast => ?_⟩
        have hleft := h.truncated.mp (truncated.mpr ((pastEnd_iff hbehind).mp hpast))
        omega
      · rintro ⟨-, hpast⟩
        refine ⟨?_, hlast.le, ?_⟩
        · have hnone : lines.length - (arguments.startLine - 1) = 0 := by
            unfold startIndex at hbehind
            omega
          rw [content, hlast, hnone, pageText_zero]
        · rw [truncated, ← pastEnd_iff hbehind]
          exact iff_of_false hpast (by omega)
    · refine iff_of_true ⟨?_, by omega, ?_⟩ ⟨hwhole, not_pastEnd hinside⟩
      · rw [content, last, startIndex_of_not_pastEnd hinside]
        congr 1
        omega
      · rw [truncated, last]
        omega
  | stopped count inside fits exceeds content last truncated =>
    have hinside : startIndex lines arguments < lines.length := by omega
    have hcut := cutsLine_iff inside fits exceeds
    constructor
    · intro h
      refine ⟨fun hbad => ?_, not_pastEnd hinside⟩
      rw [if_pos (hcut.mp hbad)] at last
      have hlength := congrArg List.length h.content
      rw [content, last, startIndex_of_not_pastEnd hinside, List.length_take,
        show startIndex lines arguments + count + 1 - startIndex lines arguments = count + 1 by
          omega] at hlength
      omega
    · rintro ⟨hwhole, -⟩
      have hroom := fun h => hwhole (hcut.mpr h)
      have hexact := le_antisymm fits (Nat.not_lt.mp hroom)
      rw [if_neg hroom, Nat.add_zero] at last
      have hleft : (page path arguments lines).metadata.endLine < lines.length := by omega
      refine ⟨?_, hleft.le, iff_of_true truncated hleft⟩
      rw [content, last, startIndex_of_not_pastEnd hinside, Nat.add_sub_cancel_left, pageText_succ,
        ← hexact, List.take_left]

private theorem startLine_le_endLine (path : Text) (hstart : arguments.startLine ≤ lines.length)
    (hend : ∀ line ∈ arguments.endLine, arguments.startLine ≤ line) :
    arguments.startLine ≤ (page path arguments lines).metadata.endLine := by
  have hpos := arguments.start_pos
  have hindex := startIndex_of_le hstart
  have hlast : arguments.startLine ≤ endIndex lines arguments := by
    have hasked : arguments.startLine ≤ arguments.endLine.getD lines.length := by
      cases hline : arguments.endLine with
      | none => exact hstart
      | some line => exact hend line hline
    unfold endIndex maxReadLines
    omega
  cases page_cases path arguments lines with
  | full content fits last truncated => omega
  | stopped count inside fits exceeds content last truncated =>
    rw [last, hindex]
    cases count with
    | zero =>
      have hroom : 0 < maxContentChars := by decide
      rw [pageText_zero, List.length_nil, if_pos hroom]
      omega
    | succ count => omega

private theorem startIndex_le_endLine (path : Text) (arguments : ReadFileArguments)
    (lines : List Text) :
    startIndex lines arguments ≤ (page path arguments lines).metadata.endLine := by
  cases page_cases path arguments lines with
  | full content fits last truncated => omega
  | stopped count inside fits exceeds content last truncated => omega

private theorem startLine_le_of_truncated (hnone : arguments.endLine = none)
    (h : (page path arguments lines).metadata.truncated = true) :
    arguments.startLine ≤ lines.length := by
  by_contra hbehind
  have hstart : startIndex lines arguments = lines.length := by
    unfold startIndex
    omega
  have hend : ¬endIndex lines arguments < lines.length := by
    rw [← pastEnd_iff hstart]
    rintro ⟨-, line, hline, -⟩
    rw [hnone] at hline
    cases hline
  cases page_cases path arguments lines with
  | full content fits last truncated => exact hend (truncated.mp h)
  | stopped count inside fits exceeds content last truncated =>
    have hle := endIndex_le lines arguments
    omega

/-! ## Reading on -/

/-- The bytes of a text file within the size limit. -/
structure TextFile (raw : Bytes) (text : Text) : Prop where
  small : raw.length ≤ maxFileBytes
  noNul : raw.contains 0 = false
  decodes : decodeUtf8 raw = some text

private theorem TextFile.readFile {raw : Bytes} {text : Text} (h : TextFile raw text) (path : Text)
    (arguments : ReadFileArguments) :
    readFile path arguments (.regular raw) = .ok (page path arguments (splitlines text)) := by
  have hread : (WorkspaceFile.regular raw).readRegular maxFileBytes = .ok raw :=
    if_neg (Nat.not_lt.mpr h.small)
  unfold ReadFile.readFile
  rw [hread]
  change (if raw.contains 0 = true then _ else _) = _
  rw [h.noNul, if_neg Bool.false_ne_true, h.decodes]

/-- A request and the page it returned. -/
abbrev PageRead := ReadFileArguments × ReadFileOutput

/-- Pages read on from a line while something is left. -/
inductive Reading (path : Text) (file : WorkspaceFile) : Nat → List PageRead → Prop
  | last {arguments : ReadFileArguments} {out : ReadFileOutput}
      (read : readFile path arguments file = .ok out) (done : out.metadata.truncated = false) :
      Reading path file arguments.startLine [(arguments, out)]
  | more {arguments : ReadFileArguments} {out : ReadFileOutput} {pages : List PageRead}
      (read : readFile path arguments file = .ok out) (left : out.metadata.truncated = true)
      (rest : Reading path file (out.metadata.endLine + 1) pages) :
      Reading path file arguments.startLine ((arguments, out) :: pages)

/-- The numbers of the lines that a page says it holds. -/
def visited (read : PageRead) : List Nat :=
  List.range' read.1.startLine (read.2.metadata.endLine + 1 - read.1.startLine)

/-- The numbers of the lines of a file from a line on. -/
def linesFrom (lines : List Text) (start : Nat) : List Nat :=
  List.range' start (lines.length + 1 - start)

/-- Every page of a reading is exact, and the reading visits every line once. -/
structure LosesNothing (lines : List Text) (start : Nat) (pages : List PageRead) : Prop where
  exact : ∀ read ∈ pages, ExactPage lines read.1 read.2
  visits : pages.flatMap visited = linesFrom lines start

section Reading

variable {raw : Bytes} {text : Text} {pages : List PageRead}

private theorem Reading.page (h : TextFile raw text)
    (hreading : Reading path (.regular raw) start pages) :
    ∀ read ∈ pages, read.2 = page path read.1 (splitlines text) := by
  induction hreading with
  | last read done =>
    rw [h.readFile] at read
    exact List.forall_mem_singleton.mpr (Except.ok.inj read).symm
  | more read left rest ih =>
    rw [h.readFile] at read
    exact List.forall_mem_cons.mpr ⟨(Except.ok.inj read).symm, ih⟩

private theorem startLine_le_of_left (hleft : (page path arguments lines).metadata.endLine <
    lines.length) :
    arguments.startLine ≤ (page path arguments lines).metadata.endLine + 1 := by
  have hindex := startIndex_le_endLine path arguments lines
  have hstart := startIndex_of_not_pastEnd (hindex.trans_lt hleft)
  omega

private theorem Reading.visits (h : TextFile raw text)
    (hreading : Reading path (.regular raw) start pages)
    (hexact : ∀ read ∈ pages, ExactPage (splitlines text) read.1 read.2) :
    pages.flatMap visited = linesFrom (splitlines text) start := by
  induction hreading with
  | @last arguments out read done =>
    have hpage := hexact _ List.mem_cons_self
    have hdone : ¬out.metadata.endLine < (splitlines text).length := fun hleft => by
      rw [hpage.truncated.mpr hleft] at done
      cases done
    have hlast : out.metadata.endLine = (splitlines text).length :=
      Nat.le_antisymm hpage.inFile (Nat.not_lt.mp hdone)
    rw [List.flatMap_singleton, visited, hlast]
    rfl
  | @more arguments out pages read left rest ih =>
    obtain ⟨hpage, hpages⟩ := List.forall_mem_cons.mp hexact
    have hleft := hpage.truncated.mp left
    rw [h.readFile] at read
    obtain rfl := Except.ok.inj read
    have hstart := startLine_le_of_left hleft
    rw [List.flatMap_cons, ih hpages]
    unfold visited linesFrom
    dsimp only
    generalize (ReadFile.page path arguments (splitlines text)).metadata.endLine = last at *
    have hsplit : (splitlines text).length + 1 - arguments.startLine =
        last + 1 - arguments.startLine + ((splitlines text).length + 1 - (last + 1)) := by omega
    rw [hsplit, ← List.range'_append_1, Nat.add_sub_cancel' hstart]

private theorem exists_reading (h : TextFile raw text) (path : Text) (hstart : 1 ≤ start) :
    ∃ pages, Reading path (.regular raw) start pages ∧
      ∀ read ∈ pages, read.1.endLine = none := by
  induction hleft : (splitlines text).length + 1 - start using Nat.strong_induction_on
    generalizing start with
  | _ left ih =>
    obtain ⟨arguments, rfl, hnone⟩ : ∃ arguments : ReadFileArguments,
        arguments.startLine = start ∧ arguments.endLine = none :=
      ⟨⟨path, start, none, hstart, fun _ h => (by cases h)⟩, rfl, rfl⟩
    have hread := h.readFile path arguments
    cases hmore : (ReadFile.page path arguments (splitlines text)).metadata.truncated with
    | false => exact ⟨_, .last hread hmore, List.forall_mem_singleton.mpr hnone⟩
    | true =>
      have hinside := startLine_le_of_truncated hnone hmore
      have hprogress := startLine_le_endLine path hinside (by rw [hnone]; exact nofun)
      obtain ⟨pages, hpages, hrest⟩ := ih _ (by omega) (Nat.le_add_left 1
        (ReadFile.page path arguments (splitlines text)).metadata.endLine) rfl
      exact ⟨_, .more hread hmore hpages, List.forall_mem_cons.mpr ⟨hnone, hrest⟩⟩

private theorem Reading.pages_pos {file : WorkspaceFile} (hreading : Reading path file start pages)
    :
    0 < pages.length := by
  cases hreading with
  | last => exact Nat.one_pos
  | more => exact Nat.succ_pos _

private theorem Reading.two_pages (h : TextFile raw text)
    (hreading : Reading path (.regular raw) start pages)
    (hlong : start + maxReadLines ≤ (splitlines text).length) : 1 < pages.length := by
  cases hreading with
  | @last arguments out read done =>
    rw [h.readFile] at read
    cases Except.ok.inj read
    have hstart : startIndex (splitlines text) arguments ≤ arguments.startLine - 1 :=
      Nat.min_le_left _ _
    have hpos := arguments.start_pos
    have hend : endIndex (splitlines text) arguments < (splitlines text).length := by
      unfold endIndex
      omega
    cases page_cases path arguments (splitlines text) with
    | full content fits last truncated =>
      rw [truncated.mpr hend] at done
      cases done
    | stopped count inside fits exceeds content last truncated =>
      rw [truncated] at done
      cases done
  | more read left rest => exact Nat.succ_lt_succ rest.pages_pos

private theorem Reading.losesNothing_iff (h : TextFile raw text)
    (hreading : Reading path (.regular raw) start pages) :
    LosesNothing (splitlines text) start pages ↔
      ∀ read ∈ pages, WholeLines (splitlines text) read.1 := by
  have hpage := hreading.page h
  have hexact : (∀ read ∈ pages, ExactPage (splitlines text) read.1 read.2) ↔
      ∀ read ∈ pages, WholeLines (splitlines text) read.1 := by
    apply forall₂_congr
    intro read hread
    rw [hpage read hread]
    exact exactPage_iff path read.1 (splitlines text)
  constructor
  · exact fun hall => hexact.mp hall.exact
  · intro hwhole
    exact ⟨hexact.mpr hwhole, hreading.visits h (hexact.mpr hwhole)⟩

end Reading

/-- A text file is read without loss exactly when no page cuts a line or starts behind the file
with an end inside it. Every page goes on, and the pages come to an end. -/
theorem readFile_losesNothing_iff (path : Text) {raw : Bytes} {text : Text}
    (h : TextFile raw text) :
    (∀ arguments, ∃ out, readFile path arguments (.regular raw) = .ok out ∧
      (ExactPage (splitlines text) arguments out ↔ WholeLines (splitlines text) arguments) ∧
      (arguments.startLine ≤ (splitlines text).length →
        (∀ line ∈ arguments.endLine, arguments.startLine ≤ line) →
        arguments.startLine ≤ out.metadata.endLine)) ∧
    (∀ start pages, Reading path (.regular raw) start pages →
      (LosesNothing (splitlines text) start pages ↔
        ∀ read ∈ pages, WholeLines (splitlines text) read.1)) ∧
    (∀ start, 1 ≤ start → ∃ pages, Reading path (.regular raw) start pages ∧
      ∀ read ∈ pages, read.1.endLine = none) := by
  refine ⟨fun arguments => ?_, fun start pages hreading => hreading.losesNothing_iff h,
    fun start hstart => exists_reading h path hstart⟩
  exact ⟨_, h.readFile path arguments, exactPage_iff path arguments (splitlines text),
    fun hstart hend => startLine_le_endLine path hstart hend⟩

/-- One line more than a page has room for. -/
def manyLines : Text := List.replicate (maxReadLines + 1) '\n'

private theorem encodeUtf8_replicate (n : Nat) (c : Char) (b : UInt8)
    (h : String.utf8EncodeChar c = [b]) :
    encodeUtf8 (List.replicate n c) = List.replicate n b := by
  rw [encodeUtf8, List.flatMap_replicate, h, List.flatten_replicate_singleton]

private theorem textFile_manyLines : TextFile (encodeUtf8 manyLines) manyLines := by
  have hbytes : encodeUtf8 manyLines = List.replicate (maxReadLines + 1) 0x0A :=
    encodeUtf8_replicate _ '\n' 0x0A (by decide)
  refine ⟨?_, ?_, decodeUtf8_encodeUtf8 manyLines⟩
  · rw [hbytes, List.length_replicate]
    decide
  · rw [hbytes, Bool.eq_false_iff, ne_eq, List.contains_iff_mem, List.mem_replicate]
    decide

private theorem splitlines_replicate (n : Nat) :
    splitlines (List.replicate n '\n') = List.replicate n [] := by
  induction n with
  | zero => rfl
  | succ n ih =>
    have hline := @splitlines_newline [] nofun (List.replicate n '\n')
    rw [List.replicate_succ, List.replicate_succ, ← ih]
    exact hline

private theorem splitlines_manyLines :
    splitlines manyLines = List.replicate (maxReadLines + 1) [] := splitlines_replicate _

private theorem not_cutsLine_manyLines (arguments : ReadFileArguments) :
    ¬CutsLine (splitlines manyLines) arguments := by
  rintro ⟨count, hcount, -, hover⟩
  have hend := endIndex_le (splitlines manyLines) arguments
  have hlines : (splitlines manyLines).length = 501 := by
    rw [splitlines_manyLines, List.length_replicate]
    rfl
  have hlength : ∀ index < startIndex (splitlines manyLines) arguments + (count + 1),
      (numbered (splitlines manyLines) index).length ≤ 5 := by
    intro index hindex
    have hdigits : (Nat.toDigits 10 (index + 1)).length ≤ 3 :=
      (Nat.length_toDigits_le_iff (by decide) (by decide)).mpr (by omega)
    have hempty : (splitlines manyLines).getD index [] = [] := by
      rw [splitlines_manyLines, List.getD_eq_getElem?_getD, List.getElem?_replicate]
      split <;> rfl
    rw [numbered, hempty, List.append_nil, List.length_append]
    exact Nat.add_le_add_right hdigits 2
  have hshort := length_pageText_le hlength
  unfold maxContentChars at hover
  omega

/-- A file that needs two pages is read without loss. -/
theorem readFile_losesNothing_iff_sample :
    TextFile (encodeUtf8 manyLines) manyLines ∧
    ∃ pages, Reading ['f'] (.regular (encodeUtf8 manyLines)) 1 pages ∧ 1 < pages.length ∧
      LosesNothing (splitlines manyLines) 1 pages := by
  have h := readFile_losesNothing_iff ['f'] textFile_manyLines
  obtain ⟨pages, hreading, hopen⟩ := h.2.2 1 (le_refl 1)
  have hwhole : ∀ read ∈ pages, WholeLines (splitlines manyLines) read.1 := by
    refine fun read hread => ⟨not_cutsLine_manyLines read.1, ?_⟩
    rintro ⟨-, line, hline, -⟩
    rw [hopen read hread] at hline
    cases hline
  refine ⟨textFile_manyLines, pages, hreading, ?_, (h.2.1 1 pages hreading).mpr hwhole⟩
  apply hreading.two_pages textFile_manyLines
  rw [splitlines_manyLines, List.length_replicate]
  decide

/-- Two lines that fit on a page, but not together. -/
def longFile : Text := List.replicate 20000 'a' ++ '\n' :: List.replicate 20000 'b'

private theorem encodeUtf8_longFile : encodeUtf8 longFile =
    List.replicate 20000 0x61 ++ 0x0A :: List.replicate 20000 0x62 := by
  rw [longFile, ← List.singleton_append, encodeUtf8_append, encodeUtf8_append,
    encodeUtf8_replicate _ 'a' 0x61 (by decide), encodeUtf8_replicate _ 'b' 0x62 (by decide)]
  rfl

private theorem textFile_longFile : TextFile (encodeUtf8 longFile) longFile := by
  refine ⟨?_, ?_, decodeUtf8_encodeUtf8 longFile⟩
  · rw [encodeUtf8_longFile, List.length_append, List.length_cons, List.length_replicate,
      List.length_replicate]
    decide
  · rw [encodeUtf8_longFile, Bool.eq_false_iff, ne_eq, List.contains_iff_mem]
    simp only [List.mem_append, List.mem_cons, List.mem_replicate]
    decide

private theorem inside_replicate (n : Nat) {c : Char} (h : isLineBoundary c = false) :
    ∀ d ∈ List.replicate n c, isLineBoundary d = false := by
  intro d hd
  rw [List.eq_of_mem_replicate hd, h]

private theorem splitlines_longFile :
    splitlines longFile = [List.replicate 20000 'a', List.replicate 20000 'b'] := by
  rw [longFile, splitlines_newline (inside_replicate _ rfl),
    splitlines_line (List.ne_nil_of_length_pos (by rw [List.length_replicate]; decide))
      (inside_replicate _ rfl)]

private theorem length_numbered_pair {first second : Text} {n index : Nat}
    (hfirst : first.length = n) (hsecond : second.length = n) (h : index < 2) :
    (numbered [first, second] index).length = n + 3 := by
  have hcolon : ": ".toList.length = 2 := rfl
  rw [numbered, List.length_append, List.length_append, hcolon]
  obtain rfl | rfl : index = 0 ∨ index = 1 := by omega
  · have hdigits : (Nat.toDigits 10 (0 + 1)).length = 1 := by decide
    rw [List.getD_cons_zero, hfirst, hdigits]
    omega
  · have hdigits : (Nat.toDigits 10 (1 + 1)).length = 1 := by decide
    rw [List.getD_cons_succ, List.getD_cons_zero, hsecond, hdigits]
    omega

private theorem length_numbered_longFile (index : Nat) (h : index < 2) :
    (numbered (splitlines longFile) index).length = 20003 := by
  rw [splitlines_longFile, length_numbered_pair List.length_replicate List.length_replicate h]

/-- The second line is cut where the first 30,000 characters end. -/
theorem longFile_cut : ¬∀ (raw : Bytes) (text : Text) (arguments : ReadFileArguments)
    (out : ReadFileOutput), TextFile raw text →
      readFile ['f'] arguments (.regular raw) = .ok out →
      ExactPage (splitlines text) arguments out := by
  intro hall
  obtain ⟨arguments, hstart, hend⟩ : ∃ arguments : ReadFileArguments,
      arguments.startLine = 1 ∧ arguments.endLine = none :=
    ⟨⟨['f'], 1, none, by decide, fun _ h => (by cases h)⟩, rfl, rfl⟩
  have hexact := hall _ _ arguments _ textFile_longFile
    (textFile_longFile.readFile ['f'] arguments)
  have hwhole := (exactPage_iff ['f'] arguments (splitlines longFile)).mp hexact
  apply hwhole.1
  have hindex : startIndex (splitlines longFile) arguments = 0 := by
    rw [startIndex, hstart]
    exact Nat.zero_min _
  have hlast : endIndex (splitlines longFile) arguments = 2 := by
    rw [endIndex, hindex, hend, splitlines_longFile]
    rfl
  have hfirst := length_numbered_longFile (0 + 0) (by decide)
  have hsecond := length_numbered_longFile (0 + 1) (by decide)
  refine ⟨1, ?_, ?_, ?_⟩
  · rw [hindex, hlast]
    decide
  · rw [hindex, pageText_succ, pageText_zero, List.length_append, List.length_append, hfirst]
    decide
  · rw [hindex, pageText_succ, pageText_succ, pageText_zero, List.length_append,
      List.length_append, List.length_append, List.length_append, hfirst, hsecond]
    decide

end AwesomeAgent.ReadFile
