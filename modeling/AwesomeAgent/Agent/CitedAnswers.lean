import AwesomeAgent.Agent.SourceMarkers
import Mathlib.Data.List.DropRight

/-!
# Cited answers stay cited

An answer that cites no source of its Turn gets a list of the sources, as far as the greatest
length of an answer leaves room for it. Titles are escaped in the list, URLs are not.
-/

namespace AwesomeAgent.Agent

/-- Characters of a final answer. -/
def maxFinalAnswer : Nat := 200000

/-- What the finalization of an answer reports. -/
structure PostAnswerDiagnostic where
  code : String
  message : String
  deriving DecidableEq, Repr

/-- The answer has a marker of no source. -/
def invalidIdDiagnostic : PostAnswerDiagnostic :=
  ⟨"citation_invalid_id", "The answer contains a citation ID with no matching source."⟩

/-- The sources were appended. -/
def appendedDiagnostic : PostAnswerDiagnostic :=
  ⟨"citation_sources_appended", "Web sources were appended because the answer cited none."⟩

/-- Some of the sources were left out. -/
def truncatedDiagnostic : PostAnswerDiagnostic :=
  ⟨"citation_sources_truncated", "The appended Web source list was bounded by the answer limit."⟩

/-- A text without the spaces at its end. -/
def rstrip (text : Text) : Text := text.rdropWhile isSpace

/-- Put a backslash before a character. -/
def escapeEach (character : Char) (text : Text) : Text :=
  text.flatMap fun c => if c = character then ['\\', character] else [c]

/-- Escape the characters of Markdown in a title. -/
def escapeSourceTitle (value : Text) : Text :=
  "`*_[]<>#".toList.foldl (fun escaped character => escapeEach character escaped)
    (escapeEach '\\' value)

private theorem escapeEach_flatMap (characters : Text) {character : Char}
    (hslash : character ≠ '\\') (hnew : character ∉ characters) (text : Text) :
    escapeEach character (text.flatMap fun c => if c ∈ characters then ['\\', c] else [c]) =
      text.flatMap fun c => if c ∈ characters ++ [character] then ['\\', c] else [c] := by
  rw [escapeEach, List.flatMap_assoc]
  congr 1
  funext c
  by_cases hc : c ∈ characters
  · have hne : c ≠ character := fun h => hnew (h ▸ hc)
    simp [hc, hne, hslash.symm]
  · by_cases hcharacter : c = character
    · subst hcharacter
      simp [hc]
    · simp [hc, hcharacter]

private theorem escapeSourceTitle_eq (value : Text) :
    escapeSourceTitle value = value.flatMap escapeChar := by
  have hslash : escapeEach '\\' value =
      value.flatMap fun c => if c ∈ ['\\'] then ['\\', c] else [c] := by
    rw [escapeEach]
    congr 1
    funext c
    by_cases hc : c = '\\'
    · subst hc
      rfl
    · simp [hc]
  have hall : ∀ (characters done : Text), '\\' ∉ characters → (done ++ characters).Nodup →
      characters.foldl (fun escaped character => escapeEach character escaped)
        (value.flatMap fun c => if c ∈ done then ['\\', c] else [c]) =
        value.flatMap fun c => if c ∈ done ++ characters then ['\\', c] else [c] := by
    intro characters
    induction characters with
    | nil =>
      intro done _ _
      rw [List.append_nil]
      rfl
    | cons character characters ih =>
      intro done hin hnodup
      have hnew : character ∉ done := by
        intro hmem
        have := (List.nodup_append.mp hnodup).2.2 character hmem character List.mem_cons_self
        exact this rfl
      rw [List.foldl_cons, escapeEach_flatMap done (fun h => hin (h ▸ List.mem_cons_self)) hnew,
        ih (done ++ [character]) (fun h => hin (List.mem_cons_of_mem _ h))]
      · rw [List.append_assoc]
        rfl
      · rw [List.append_assoc]
        exact hnodup
  rw [escapeSourceTitle, hslash, hall _ _ (by decide) (by decide)]
  congr 1
  funext c
  simp only [escapeChar, isEscaped, decide_eq_true_eq]
  rfl

private theorem isMarkerChar_of_isSpace {c : Char} (h : isSpace c = true) : isMarkerChar c = false
    := by
  have hne : ∀ d : Char, isSpace d = false → c ≠ d := by
    rintro d hd rfl
    cases h.symm.trans hd
  have hdigit : c.isDigit = false := by
    cases hc : c.isDigit with
    | false => rfl
    | true =>
      simp only [Char.isDigit, Bool.and_eq_true, decide_eq_true_eq] at hc
      have hlow : 48 ≤ c.toNat := hc.1
      have hhigh : c.toNat ≤ 57 := hc.2
      simp only [isSpace, isLineBoundary, List.contains_eq_mem, List.mem_cons, List.not_mem_nil,
        Bool.or_eq_true, decide_eq_true_eq, or_false] at h
      omega
  simp [isMarkerChar, hne '[' (by decide), hne ']' (by decide), hne 'S' (by decide), hdigit]

private theorem findMarkers_rstrip (text : Text) : findMarkers (rstrip text) = findMarkers text
    := by
  induction text using List.reverseRecOn with
  | nil => rfl
  | append_singleton text c ih =>
    rw [rstrip, List.rdropWhile_concat]
    split
    · next hc => rw [findMarkers_concat (isMarkerChar_of_isSpace hc), ← ih, rstrip]
    · rfl

private theorem rstrip_concat {c : Char} (h : isSpace c = false) (text : Text) :
    rstrip (text ++ [c]) = text ++ [c] := by
  rw [rstrip, List.rdropWhile_concat_neg]
  rw [h]
  exact Bool.false_ne_true

private theorem rstrip_append {a b : Text} (hne : b ≠ []) (h : ∀ c ∈ b, isSpace c = false) :
    rstrip (a ++ b) = a ++ b := by
  obtain ⟨front, last, rfl⟩ := List.eq_nil_or_concat b |>.resolve_left hne
  rw [List.concat_eq_append] at h ⊢
  rw [← List.append_assoc]
  exact rstrip_concat (h last (List.mem_append_right _ List.mem_cons_self)) _

private theorem rstrip_length_le (text : Text) : (rstrip text).length ≤ text.length :=
  (List.rdropWhile_prefix isSpace text).length_le

/-- The line before the sources. -/
def sourcesHeader : Text := "\n\nSources:\n".toList

private theorem findMarkers_header (answer body : Text) :
    findMarkers (answer ++ sourcesHeader ++ body) = findMarkers answer ++ findMarkers body := by
  have hsplit : answer ++ sourcesHeader ++ body =
      answer ++ '\n' :: ("\nSources:\n".toList ++ body) := by
    rw [List.append_assoc]
    rfl
  have hplain : "\nSources:\n".toList.all (fun c => decide (c ≠ '[')) = true := by decide
  have hnone : ∀ c ∈ "\nSources:\n".toList, c ≠ '[' :=
    fun c hc => of_decide_eq_true (List.all_eq_true.mp hplain c hc)
  rw [hsplit, findMarkers_append (by decide), findMarkers_of_all_ne hnone]

private theorem findMarkers_intercalate (lines : List Text) :
    findMarkers (['\n'].intercalate lines) = lines.flatMap findMarkers := by
  induction lines with
  | nil => rfl
  | cons line lines ih =>
    cases lines with
    | nil => simp
    | cons next others =>
      rw [List.intercalate_cons_cons, List.append_assoc, List.singleton_append,
        findMarkers_append (by decide), ih, ← List.flatMap_cons]

section Sources

variable [UrlGrammar]

/-- The least that is appended of a source. -/
def fallback (citation : Citation) : Text := '-' :: ' ' :: marker citation.id

/-- The entry of a source. -/
def sourceEntry (citation : Citation) : Text :=
  fallback citation ++ ' ' :: escapeSourceTitle citation.title ++ " — ".toList ++ citation.url

/-- The line of a source. -/
def sourceLine (citation : Citation) : Text := sourceEntry citation ++ ['\n']

/-- The first lines that fit, whether others are left out, and the room that is left. -/
def sourceLines (available : Nat) : List Citation → List Text × Bool × Nat
  | [] => ([], false, available)
  | citation :: rest =>
      if available < (sourceLine citation).length then ([], true, available)
      else
        let (lines, truncated, left) := sourceLines (available - (sourceLine citation).length) rest
        (sourceLine citation :: lines, truncated, left)

/-- The answer before the sources, cut if there is no room for any. -/
def keptAnswer (finalAnswer : Text) (first : Citation) : Text :=
  let answer := rstrip finalAnswer
  if maxFinalAnswer ≤ answer.length + sourcesHeader.length then
    rstrip (answer.take (max 1 (maxFinalAnswer -
      (sourcesHeader.length + (fallback first).length))))
  else answer

/-- Append the sources to an answer. -/
def appendSources (finalAnswer : Text) (first : Citation) (rest : List Citation) : Text × Bool :=
  let answer := keptAnswer finalAnswer first
  let available := maxFinalAnswer - (answer.length + sourcesHeader.length)
  match sourceLines available (first :: rest) with
  | ([], _, left) => (answer ++ sourcesHeader ++ rstrip ((fallback first).take left), true)
  | (lines, truncated, _) => (answer ++ sourcesHeader ++ rstrip lines.flatten, truncated)

/-- Validate the markers of an answer, and append the sources if it cites none. -/
def validateAnswerCitations (finalAnswer : Text) (citations : List Citation) :
    Text × List PostAnswerDiagnostic :=
  let known := citations.map (·.id)
  let markers := findMarkers finalAnswer
  let diagnostics := if markers.any (· ∉ known) then [invalidIdDiagnostic] else []
  match citations, markers.filter (· ∈ known) with
  | first :: rest, [] =>
      let (answer, truncated) := appendSources finalAnswer first rest
      (answer, diagnostics ++ [appendedDiagnostic] ++
        if truncated then [truncatedDiagnostic] else [])
  | _, _ => (finalAnswer, diagnostics)

/-- The answer cites one of the sources. -/
def Cites (answer : Text) (citations : List Citation) : Prop :=
  ∃ id ∈ findMarkers answer, id ∈ citations.map (·.id)

/-- What a validated answer should be. -/
structure CitedAnswer (answer : Text) (first : Citation) (rest : List Citation)
    (result : Text × List PostAnswerDiagnostic) : Prop where
  short : result.1.length ≤ maxFinalAnswer
  cited : Cites result.1 (first :: rest)
  /-- The answer is cut only if there is no room for the header and one marker. -/
  kept : rstrip answer <+: result.1 ∨
    maxFinalAnswer < (rstrip answer ++ sourcesHeader ++ fallback first).length ∧
      rstrip (answer.take (maxFinalAnswer - (sourcesHeader ++ fallback first).length)) <+: result.1
  reported : invalidIdDiagnostic ∈ result.2 ↔
    ∃ id ∈ findMarkers answer, id ∉ (first :: rest).map (·.id)
  idempotent : (validateAnswerCitations result.1 (first :: rest)).1 = result.1
  /-- In the appended lines, only the identifier of each source is a marker. -/
  ownMarkers : ¬ Cites answer (first :: rest) →
    ∀ line ∈ (result.1.drop ((keptAnswer answer first).length + sourcesHeader.length)).splitOn '\n',
      (findMarkers line).length = 1

/-- Characters of the lines of sources. -/
def linesLength (citations : List Citation) : Nat :=
  (citations.map fun citation => (sourceLine citation).length).sum

/-- The answer cites a source, or there is room for the first marker or for none of the header. -/
def Citable (answer : Text) (first : Citation) (rest : List Citation) : Prop :=
  Cites answer (first :: rest) ∨
    maxFinalAnswer ≤ (rstrip answer).length + sourcesHeader.length ∨
      (rstrip answer ++ sourcesHeader ++ fallback first).length ≤ maxFinalAnswer

private theorem linesLength_cons (citation : Citation) (rest : List Citation) :
    linesLength (citation :: rest) = (sourceLine citation).length + linesLength rest := by
  rw [linesLength, List.map_cons, List.sum_cons]
  rfl

/-- The sources whose lines are shown, and those left out. -/
structure Shown (available : Nat) (citations shown tail : List Citation) : Prop where
  split : citations = shown ++ tail
  fit : linesLength shown ≤ available
  next : ∀ citation rest, tail = citation :: rest →
    available < linesLength shown + (sourceLine citation).length

private theorem sourceLines_eq (available : Nat) (citations : List Citation) :
    ∃ shown tail, Shown available citations shown tail ∧
      sourceLines available citations =
        (shown.map sourceLine, decide (tail ≠ []), available - linesLength shown) := by
  induction citations generalizing available with
  | nil => exact ⟨[], [], ⟨rfl, Nat.zero_le _, fun _ _ h => by cases h⟩, rfl⟩
  | cons citation rest ih =>
    rw [sourceLines]
    split
    · next hlong =>
      refine ⟨[], citation :: rest, ⟨rfl, Nat.zero_le _, ?_⟩, by simp [linesLength]⟩
      intro next others he
      cases he
      rw [linesLength, List.map_nil, List.sum_nil]
      omega
    · next hfits =>
      obtain ⟨shown, tail, hshown, heq⟩ := ih (available - (sourceLine citation).length)
      have hfit := hshown.fit
      refine ⟨citation :: shown, tail, ⟨?_, ?_, ?_⟩, ?_⟩
      · rw [List.cons_append, ← hshown.split]
      · rw [linesLength_cons]
        omega
      · intro next others he
        have hnext := hshown.next next others he
        rw [linesLength_cons]
        omega
      · rw [heq, linesLength_cons]
        simp only [List.map_cons, Prod.mk.injEq, true_and]
        omega

private theorem fallback_length (citation : Citation) :
    (fallback citation).length = citation.id.length + 6 := by
  simp only [fallback, marker, List.length_cons, List.length_append, List.length_nil]

private theorem id_length_le (citation : Citation) : citation.id.length ≤ 7 := by
  have h := citation.identified
  unfold isSourceId at h
  split at h
  · next d rest heq =>
    simp only [Bool.and_eq_true, decide_eq_true_eq] at h
    rw [heq, List.length_cons, List.length_cons]
    omega
  · cases h

private theorem keptAnswer_room (answer : Text) (first : Citation) :
    (keptAnswer answer first).length + sourcesHeader.length < maxFinalAnswer ∧
      (maxFinalAnswer ≤ (rstrip answer).length + sourcesHeader.length ∨
        (rstrip answer ++ sourcesHeader ++ fallback first).length ≤ maxFinalAnswer ↔
      (keptAnswer answer first).length + sourcesHeader.length + (fallback first).length ≤
        maxFinalAnswer) := by
  have hheader : sourcesHeader.length = 11 := by decide
  have hid := id_length_le first
  rw [List.length_append, List.length_append, fallback_length, hheader, keptAnswer, fallback_length,
    hheader]
  split
  · next hfull =>
    have hcut := rstrip_length_le ((rstrip answer).take (max 1 (maxFinalAnswer -
      (11 + (first.id.length + 6)))))
    rw [List.length_take] at hcut
    unfold maxFinalAnswer at *
    refine ⟨by omega, ?_⟩
    constructor
    · intro _
      omega
    · intro _
      exact Or.inl hfull
  · next hroom =>
    refine ⟨by omega, ?_⟩
    constructor
    · intro h
      rcases h with h | h
      · exact (hroom h).elim
      · exact h
    · exact Or.inr

private theorem findMarkers_fallback (citation : Citation) :
    findMarkers (fallback citation) = [citation.id] := by
  rw [fallback, findMarkers_of_ne (by decide), findMarkers_of_ne (by decide),
    findMarkers_marker citation.identified]

private theorem findMarkers_sourceEntry (citation : Citation) :
    findMarkers (sourceEntry citation) = citation.id :: findMarkers citation.url := by
  have hsplit : sourceEntry citation = fallback citation ++
      ' ' :: (citation.title.flatMap escapeChar ++ ' ' :: '—' :: ' ' :: citation.url) := by
    rw [sourceEntry, escapeSourceTitle_eq, List.append_assoc, List.append_assoc]
    rfl
  rw [hsplit, findMarkers_append (by decide), findMarkers_append (by decide),
    findMarkers_fallback, findMarkers_flatMap_escapeChar, findMarkers_of_ne (by decide),
    findMarkers_of_ne (by decide)]
  rfl

private theorem not_isSpace_of_mem_url {citation : Citation} {c : Char}
    (h : c ∈ citation.url) : isSpace c = false := by
  have hlocated := citation.located
  simp only [isSourceUrl, Bool.and_eq_true, List.all_eq_true, Bool.not_eq_true'] at hlocated
  exact (hlocated.2 c h).1.2

private theorem url_ne_nil (citation : Citation) : citation.url ≠ [] := by
  have hlocated := citation.located
  simp only [isSourceUrl, Bool.and_eq_true, decide_eq_true_eq] at hlocated
  exact List.ne_nil_of_length_pos hlocated.1.1

private theorem newline_notMem_fallback (citation : Citation) : '\n' ∉ fallback citation := by
  obtain ⟨digits, -, hdigits, hid⟩ := isSourceId_eq citation.identified
  intro h
  simp only [fallback, marker, hid, List.mem_cons, List.mem_append, List.not_mem_nil,
    or_false] at h
  have hdigit : '\n' ∉ digits := by
    intro hmem
    exact absurd (hdigits _ hmem) (by decide)
  simp [hdigit] at h

private theorem newline_notMem_sourceEntry (citation : Citation) : '\n' ∉ sourceEntry citation := by
  have htitled := citation.titled
  simp only [isSourceTitle, Bool.and_eq_true, List.all_eq_true] at htitled
  intro h
  rw [sourceEntry, escapeSourceTitle_eq] at h
  simp only [List.mem_append, List.mem_cons, List.mem_flatMap] at h
  rcases h with ((h | h | ⟨c, hc, h⟩) | h) | h
  · exact newline_notMem_fallback citation h
  · cases h
  · rw [escapeChar] at h
    split at h
    · rcases List.mem_pair.mp h with h | rfl
      · cases h
      · exact absurd (htitled.2 _ hc) (by decide)
    · rw [List.mem_singleton] at h
      subst h
      exact absurd (htitled.2 _ hc) (by decide)
  · exact absurd h (by decide)
  · exact absurd (not_isSpace_of_mem_url h) (by decide)

private theorem rstrip_fallback (citation : Citation) :
    rstrip (fallback citation) = fallback citation := by
  have hsplit : fallback citation = ('-' :: ' ' :: '[' :: '[' :: citation.id) ++ [']', ']'] := rfl
  rw [hsplit]
  refine rstrip_append (List.cons_ne_nil _ _) ?_
  intro c hc
  rcases List.mem_pair.mp hc with rfl | rfl <;> rfl

private theorem rstrip_flatten_sourceLine (first : Citation) (rest : List Citation) :
    rstrip ((first :: rest).map sourceLine).flatten =
      ['\n'].intercalate ((first :: rest).map sourceEntry) := by
  have hlines : ∀ citation others, ∃ front, ((citation :: others).map sourceLine).flatten =
      ['\n'].intercalate ((citation :: others).map sourceEntry) ++ ['\n'] ∧
      ['\n'].intercalate ((citation :: others).map sourceEntry) =
        front ++ ((citation :: others).getLast (List.cons_ne_nil _ _)).url := by
    intro citation others
    induction others generalizing citation with
    | nil =>
      refine ⟨fallback citation ++ ' ' :: escapeSourceTitle citation.title ++ " — ".toList, ?_, ?_⟩
      · simp [sourceLine]
      · simp [sourceEntry]
    | cons next others ih =>
      obtain ⟨front, hflat, hlast⟩ := ih next
      refine ⟨sourceEntry citation ++ ['\n'] ++ front, ?_, ?_⟩
      · rw [List.map_cons, List.flatten_cons, hflat, List.map_cons, List.map_cons, List.map_cons,
          List.intercalate_cons_cons, sourceLine]
        simp only [List.append_assoc]
      · rw [List.map_cons, List.map_cons, List.intercalate_cons_cons, ← List.map_cons, hlast,
          List.getLast_cons (List.cons_ne_nil _ _)]
        simp only [List.append_assoc]
  obtain ⟨front, hflat, hlast⟩ := hlines first rest
  have hstripped := rstrip_append (a := front) (url_ne_nil
    ((first :: rest).getLast (List.cons_ne_nil _ _))) fun c hc => not_isSpace_of_mem_url hc
  rw [hflat, hlast, rstrip, List.rdropWhile_concat_pos _ _ _ rfl]
  exact hstripped

private theorem findMarkers_take_fallback {citation : Citation} {n : Nat}
    (h : n < (fallback citation).length) :
    findMarkers (rstrip ((fallback citation).take n)) = [] := by
  obtain ⟨digits, -, hdigits, hid⟩ := isSourceId_eq citation.identified
  rw [findMarkers_rstrip]
  apply findMarkers_of_count
  have hsplit : fallback citation = ('-' :: ' ' :: '[' :: '[' :: 'S' :: digits ++ [']']) ++
      [']'] := by
    simp [fallback, marker, hid]
  have hcount : ('-' :: ' ' :: '[' :: '[' :: 'S' :: digits ++ [']'] : Text).count ']' = 1 := by
    have hnone : digits.count ']' = 0 := by
      apply List.count_eq_zero_of_not_mem
      intro hmem
      exact absurd (hdigits _ hmem) (by decide)
    simp [List.count_append, hnone]
  rw [hsplit, List.length_append, List.length_singleton] at h
  rw [hsplit, List.take_append_of_le_length (by omega)]
  have hle := (List.take_sublist n ('-' :: ' ' :: '[' :: '[' :: 'S' :: digits ++ [']'])).count_le
    ']'
  omega

variable {available : Nat} {first : Citation} {rest : List Citation} {answer : Text}

private theorem appendSources_eq (answer : Text) (first : Citation) (rest : List Citation)
    (h : maxFinalAnswer - ((keptAnswer answer first).length + sourcesHeader.length) = available) :
    ∃ shown tail, Shown available (first :: rest) shown tail ∧
      (appendSources answer first rest).1 = keptAnswer answer first ++ sourcesHeader ++
        if shown = [] then rstrip ((fallback first).take available)
        else ['\n'].intercalate (shown.map sourceEntry) := by
  obtain ⟨shown, tail, hshown, heq⟩ := sourceLines_eq available (first :: rest)
  refine ⟨shown, tail, hshown, ?_⟩
  unfold appendSources
  simp only [h, heq]
  cases shown with
  | nil => simp [linesLength]
  | cons citation others =>
    rw [if_neg (List.cons_ne_nil _ _), ← rstrip_flatten_sourceLine]
    rfl

/-- The lines of the shown sources, or the first marker if none is shown. -/
def shownLines (first : Citation) (shown : List Citation) : List Text :=
  if shown = [] then [fallback first] else shown.map sourceEntry

private theorem shownLines_ne_nil (first : Citation) (shown : List Citation) :
    shownLines first shown ≠ [] := by
  rw [shownLines]
  split
  · exact List.cons_ne_nil _ _
  · next h =>
    intro hmap
    exact h (List.map_eq_nil_iff.mp hmap)

private theorem newline_notMem_shownLines {shown : List Citation} :
    ∀ line ∈ shownLines first shown, '\n' ∉ line := by
  intro line hline
  rw [shownLines] at hline
  split at hline
  · rw [List.mem_singleton.mp hline]
    exact newline_notMem_fallback first
  · obtain ⟨citation, -, rfl⟩ := List.mem_map.mp hline
    exact newline_notMem_sourceEntry citation

private theorem findMarkers_url [StrictUrls] (citation : Citation) : findMarkers citation.url = []
    := by
  apply findMarkers_of_not_infix
  intro hbrackets
  have hparsed := citation.parsed
  rw [StrictUrls.refuses citation.url hbrackets, Bool.and_false] at hparsed
  cases hparsed

private theorem shownLines_ownMarker [StrictUrls] (first : Citation) (shown : List Citation) :
    ∀ line ∈ shownLines first shown, (findMarkers line).length = 1 := by
  intro line hline
  rw [shownLines] at hline
  split at hline
  · rw [List.mem_singleton.mp hline, findMarkers_fallback]
    rfl
  · obtain ⟨citation, -, rfl⟩ := List.mem_map.mp hline
    rw [findMarkers_sourceEntry, findMarkers_url]
    rfl

private theorem id_mem_shownLines {shown tail : List Citation}
    (h : Shown available (first :: rest) shown tail) :
    first.id ∈ (shownLines first shown).flatMap findMarkers := by
  rw [shownLines]
  cases shown with
  | nil =>
    rw [if_pos rfl, List.flatMap_singleton, findMarkers_fallback]
    exact List.mem_cons_self
  | cons citation others =>
    rw [if_neg (List.cons_ne_nil _ _), List.map_cons, List.flatMap_cons, findMarkers_sourceEntry,
      ← (List.cons.inj h.split).1]
    exact List.mem_append_left _ List.mem_cons_self

private theorem shownLines_length_le
    {shown tail : List Citation} (h : Shown available (first :: rest) shown tail)
    (hroom : (fallback first).length ≤ available) :
    (['\n'].intercalate (shownLines first shown)).length ≤ available := by
  rw [shownLines]
  cases shown with
  | nil =>
    rw [if_pos rfl, List.intercalate_singleton]
    exact hroom
  | cons citation others =>
    rw [if_neg (List.cons_ne_nil _ _), ← rstrip_flatten_sourceLine]
    refine (rstrip_length_le _).trans ?_
    rw [List.length_flatten, List.map_map]
    exact h.fit

private theorem appendSources_lines (answer : Text) (first : Citation) (rest : List Citation)
    (h : maxFinalAnswer - ((keptAnswer answer first).length + sourcesHeader.length) = available)
    (hroom : (fallback first).length ≤ available) :
    ∃ shown tail, Shown available (first :: rest) shown tail ∧
      (appendSources answer first rest).1 = keptAnswer answer first ++ sourcesHeader ++
        ['\n'].intercalate (shownLines first shown) := by
  obtain ⟨shown, tail, hshown, heq⟩ := appendSources_eq answer first rest h
  refine ⟨shown, tail, hshown, ?_⟩
  rw [heq, shownLines]
  split
  · rw [List.take_of_length_le hroom, rstrip_fallback, List.intercalate_singleton]
  · rfl

private theorem validateAnswerCitations_of_cites {citations : List Citation}
    (h : Cites answer citations) : (validateAnswerCitations answer citations).1 = answer := by
  obtain ⟨id, hmarker, hknown⟩ := h
  have hmem : id ∈ (findMarkers answer).filter (· ∈ citations.map (·.id)) :=
    List.mem_filter.mpr ⟨hmarker, decide_eq_true hknown⟩
  unfold validateAnswerCitations
  dsimp only
  split
  · next hnone =>
    rw [hnone] at hmem
    exact absurd hmem List.not_mem_nil
  · rfl

private theorem validateAnswerCitations_of_not_cites (h : ¬ Cites answer (first :: rest)) :
    (validateAnswerCitations answer (first :: rest)).1 = (appendSources answer first rest).1 := by
  have hnone : (findMarkers answer).filter (· ∈ (first :: rest).map (·.id)) = [] := by
    rw [List.filter_eq_nil_iff]
    intro id hmarker hknown
    exact h ⟨id, hmarker, of_decide_eq_true hknown⟩
  unfold validateAnswerCitations
  dsimp only
  rw [hnone]

private theorem validateAnswerCitations_reported (answer : Text) (citations : List Citation) :
    invalidIdDiagnostic ∈ (validateAnswerCitations answer citations).2 ↔
      ∃ id ∈ findMarkers answer, id ∉ citations.map (·.id) := by
  have hunknown : invalidIdDiagnostic ∈ (if (findMarkers answer).any
      (· ∉ citations.map (·.id)) then [invalidIdDiagnostic] else []) ↔
      ∃ id ∈ findMarkers answer, id ∉ citations.map (·.id) := by
    split
    · next h =>
      simp only [List.any_eq_true, decide_eq_true_eq] at h
      exact iff_of_true List.mem_cons_self h
    · next h =>
      simp only [List.any_eq_true, decide_eq_true_eq] at h
      exact iff_of_false List.not_mem_nil h
  have happended : invalidIdDiagnostic ≠ appendedDiagnostic := by decide
  have htruncated : invalidIdDiagnostic ≠ truncatedDiagnostic := by decide
  unfold validateAnswerCitations
  dsimp only
  split
  · rw [List.mem_append, List.mem_append, hunknown]
    split <;> simp [happended, htruncated]
  · exact hunknown

private theorem rstrip_prefix_keptAnswer (answer : Text) (first : Citation) :
    rstrip answer <+: keptAnswer answer first ∨
      maxFinalAnswer < (rstrip answer ++ sourcesHeader ++ fallback first).length ∧
        rstrip (answer.take (maxFinalAnswer - (sourcesHeader ++ fallback first).length)) <+:
          keptAnswer answer first := by
  have hheader : sourcesHeader.length = 11 := by decide
  have hid := id_length_le first
  rw [keptAnswer]
  split
  · next hfull =>
    right
    rw [List.length_append, List.length_append, List.length_append, fallback_length, hheader]
    rw [hheader] at hfull
    obtain ⟨spaces, hspaces⟩ := List.rdropWhile_prefix isSpace answer
    change rstrip answer ++ spaces = answer at hspaces
    unfold maxFinalAnswer at *
    have hmax : max 1 (200000 - (11 + (first.id.length + 6))) =
        200000 - (11 + (first.id.length + 6)) := by omega
    have htake : answer.take (200000 - (11 + (first.id.length + 6))) =
        (rstrip answer).take (200000 - (11 + (first.id.length + 6))) := by
      rw [← hspaces, List.take_append_of_le_length (by omega), hspaces]
    refine ⟨by omega, ?_⟩
    rw [hmax, htake]
  · exact Or.inl List.prefix_rfl

private theorem not_cites_appendSources (h : ¬ Cites answer (first :: rest))
    (hroom : ¬ (maxFinalAnswer ≤ (rstrip answer).length + sourcesHeader.length ∨
      (rstrip answer ++ sourcesHeader ++ fallback first).length ≤ maxFinalAnswer)) :
    ¬ Cites (appendSources answer first rest).1 (first :: rest) := by
  obtain ⟨shown, tail, hshown, heq⟩ := appendSources_eq answer first rest rfl
  have hcut : ¬ (keptAnswer answer first).length + sourcesHeader.length +
      (fallback first).length ≤ maxFinalAnswer :=
    fun hle => hroom ((keptAnswer_room answer first).2.mpr hle)
  have hkept : keptAnswer answer first = rstrip answer := if_neg fun hfull => hroom (Or.inl hfull)
  rw [hkept] at heq hshown hcut
  have hnone : shown = [] := by
    cases hshown' : shown with
    | nil => rfl
    | cons citation others =>
      have hfit := hshown.fit
      have hsplit := hshown.split
      rw [hshown', List.cons_append, List.cons.injEq] at hsplit
      rw [hshown', linesLength_cons, ← hsplit.1] at hfit
      have hline : (fallback first).length ≤ (sourceLine first).length := by
        simp only [sourceLine, sourceEntry, List.length_append]
        omega
      exact (hcut (by omega)).elim
  have hshort : maxFinalAnswer - ((rstrip answer).length + sourcesHeader.length) <
      (fallback first).length := by omega
  rw [if_pos hnone] at heq
  rintro ⟨id, hmarker, hknown⟩
  rw [heq, findMarkers_header, findMarkers_take_fallback hshort, List.append_nil,
    findMarkers_rstrip] at hmarker
  exact h ⟨id, hmarker, hknown⟩

/-- The answer is cited as it should be exactly if it cites a source already, or there is room
for the first marker or for none of the header. -/
theorem validate_answer_citations_iff [StrictUrls] (answer : Text)
    (h : answer.length ≤ maxFinalAnswer) (first : Citation) (rest : List Citation) :
    CitedAnswer answer first rest (validateAnswerCitations answer (first :: rest)) ↔
      Citable answer first rest := by
  have hreported := validateAnswerCitations_reported answer (first :: rest)
  by_cases hcites : Cites answer (first :: rest)
  · have hsame := validateAnswerCitations_of_cites hcites
    refine iff_of_true ⟨?_, ?_, ?_, hreported, ?_, fun hnot => (hnot hcites).elim⟩
      (Or.inl hcites)
    · rwa [hsame]
    · rwa [hsame]
    · rw [hsame]
      exact Or.inl (List.rdropWhile_prefix isSpace answer)
    · rw [hsame, hsame]
  rw [Citable, or_iff_right hcites]
  by_cases hroom : maxFinalAnswer ≤ (rstrip answer).length + sourcesHeader.length ∨
      (rstrip answer ++ sourcesHeader ++ fallback first).length ≤ maxFinalAnswer
  · refine iff_of_true ?_ hroom
    have hle := (keptAnswer_room answer first).2.mp hroom
    have hbelow := (keptAnswer_room answer first).1
    obtain ⟨shown, tail, hshown, heq⟩ := appendSources_lines answer first rest rfl (by omega)
    have hlength := shownLines_length_le hshown (by omega)
    rw [← validateAnswerCitations_of_not_cites hcites] at heq
    have hcited : Cites (validateAnswerCitations answer (first :: rest)).1 (first :: rest) := by
      refine ⟨first.id, ?_, List.mem_cons_self⟩
      rw [heq, findMarkers_header, findMarkers_intercalate]
      exact List.mem_append_right _ (id_mem_shownLines hshown)
    refine ⟨?_, hcited, ?_, hreported, ?_, fun _ => ?_⟩
    · rw [heq, List.length_append, List.length_append]
      omega
    · rw [heq, List.append_assoc]
      rcases rstrip_prefix_keptAnswer answer first with hkept | hkept
      · exact Or.inl (hkept.trans (List.prefix_append _ _))
      · exact Or.inr ⟨hkept.1, hkept.2.trans (List.prefix_append _ _)⟩
    · exact validateAnswerCitations_of_cites hcited
    · rw [heq, List.drop_left' List.length_append,
        List.splitOn_intercalate _ newline_notMem_shownLines (shownLines_ne_nil first shown)]
      exact shownLines_ownMarker first shown
  · refine iff_of_false (fun hanswer => ?_) hroom
    have hcited := hanswer.cited
    rw [validateAnswerCitations_of_not_cites hcites] at hcited
    exact not_cites_appendSources hcites hroom hcited

end Sources

section Sample

/-- URLs of a single page. -/
@[reducible] def singlePage : UrlGrammar where
  splits := fun url => decide (url = "https://example.com/".toList)
  anyUrl := fun url => decide (url = "https://example.com/".toList)
  canonicalHostname := fun _ => some "example.com".toList

attribute [local instance] singlePage

private theorem strictUrls_singlePage : StrictUrls where
  refuses := by
    intro url hbrackets
    refine decide_eq_false ?_
    rintro rfl
    exact absurd hbrackets (by decide)

/-- The source of the page. -/
def pageCitation : Citation where
  id := "S1".toList
  title := "A *page*".toList
  url := "https://example.com/".toList
  identified := by decide
  titled := by decide
  located := by decide
  parsed := by decide

/-- A source list after a short answer with an unknown marker. -/
theorem validate_answer_citations_iff_sample :
    CitedAnswer "See [[S2]]. ".toList pageCitation []
        (validateAnswerCitations "See [[S2]]. ".toList [pageCitation]) ↔
      Citable "See [[S2]]. ".toList pageCitation [] :=
  have := strictUrls_singlePage
  validate_answer_citations_iff _ (by decide) pageCitation []

/-- An answer that leaves room for four characters after the header. -/
def nearlyFull : Text := List.replicate 199985 'a'

private theorem nearlyFull_length : nearlyFull.length = 199985 := List.length_replicate

private theorem findMarkers_nearlyFull : findMarkers nearlyFull = [] := by
  have hall : ∀ c ∈ nearlyFull, c ≠ '[' := by
    intro c hc
    rw [List.eq_of_mem_replicate hc]
    decide
  have hnone := findMarkers_of_all_ne hall []
  rwa [List.append_nil] at hnone

private theorem rstrip_nearlyFull : rstrip nearlyFull = nearlyFull := by
  have hlast : nearlyFull = List.replicate 199984 'a' ++ ['a'] := List.replicate_succ'
  rw [hlast]
  exact rstrip_concat (by decide) _

/-- The part of the marker that fits after the answer cites nothing. -/
theorem validate_answer_citations_fragment :
    nearlyFull.length ≤ maxFinalAnswer ∧ ¬ Cites nearlyFull [pageCitation] ∧
      ¬ Cites (validateAnswerCitations nearlyFull [pageCitation]).1 [pageCitation] ∧
      ¬ CitedAnswer nearlyFull pageCitation []
        (validateAnswerCitations nearlyFull [pageCitation]) := by
  have hnot : ¬ Cites nearlyFull [pageCitation] := by
    rintro ⟨id, hmarker, -⟩
    rw [findMarkers_nearlyFull] at hmarker
    exact absurd hmarker List.not_mem_nil
  have hheader : sourcesHeader.length = 11 := by decide
  have hmarker : (fallback pageCitation).length = 8 := by decide
  have huncited : ¬ Cites (validateAnswerCitations nearlyFull [pageCitation]).1
      [pageCitation] := by
    rw [validateAnswerCitations_of_not_cites hnot]
    apply not_cites_appendSources hnot
    rw [List.length_append, List.length_append, rstrip_nearlyFull, nearlyFull_length, hheader,
      hmarker]
    unfold maxFinalAnswer
    omega
  refine ⟨?_, hnot, huncited, fun h => huncited h.cited⟩
  rw [nearlyFull_length]
  unfold maxFinalAnswer
  omega

end Sample

end AwesomeAgent.Agent
