import AwesomeAgent.Application.ThreadExport
import Mathlib.Algebra.Group.Action.Defs

/-!
# The sizes of exports

Markdown leaves out the identifiers, the kinds and the times of the entries, which are counted
before an export. It adds headings, empty lines and the marks of sources. The check refuses what is
too large only as long as it adds no less than it leaves out.
-/

namespace AwesomeAgent.ThreadExport

open Agent (Citation UrlGrammar)
open Context (entryKindValue)
open Datetime (isoformatOf)

section Exports

variable [UrlGrammar] {Json : Type} [EntryMetadata Json]

/-! ## Markdown -/

/-- The bytes that Markdown adds to the sources of an entry: their heading, the marks of a list
and the escapes in the titles. -/
def sourceMarkBytes (sources : List Citation) : Nat :=
  if sources = [] then 0
  else 15 + (sources.map fun source =>
    13 + source.title.count '\\' + source.title.count '`').sum

/-- The bytes that Markdown adds to an entry: a heading, empty lines, the marks of its sources. -/
def addedBytes (entry : ThreadEntry Json) : Nat :=
  12 + byteLength (kindLabel entry.kind) + sourceMarkBytes (citations entry)

/-- The bytes of an entry that are counted and that Markdown does not write. -/
def leftOutBytes (entry : ThreadEntry Json) : Nat :=
  byteLength entry.id.toList + byteLength (entryKindValue entry.kind).toList +
    byteLength (isoformatOf entry.createdAt)

/-- The bytes of white space at the end of the last entry, and of the empty lines around it. -/
def strippedBytes (view : ThreadView Json) : Nat :=
  match (orderedEntries view).getLast? with
  | none => 1
  | some entry =>
      if citations entry ≠ [] then 1
      else if entry.content.toList.all isSpace then byteLength entry.content.toList + 3
      else byteLength (entry.content.toList.rtakeWhile isSpace) + 1

omit [UrlGrammar] in
private theorem title_inside {title : Text} (h : Agent.isSourceTitle title = true) :
    title ≠ [] ∧ ∀ c ∈ title, isLineBoundary c = false := by
  simp only [Agent.isSourceTitle, Bool.and_eq_true, List.any_eq_true, List.all_eq_true,
    Agent.isControl] at h
  obtain ⟨⟨-, c, hc, -⟩, hall⟩ := h
  refine ⟨List.ne_nil_of_mem hc, fun d hd => ?_⟩
  have hd := hall d hd
  simp only [Bool.not_eq_true', Bool.or_eq_false_iff, decide_eq_false_iff_not,
    Bool.and_eq_false_iff, decide_eq_true_eq] at hd
  apply Bool.eq_false_iff.mpr
  intro hboundary
  simp only [isLineBoundary, List.contains_iff_mem, List.mem_cons, List.not_mem_nil,
    or_false] at hboundary
  omega

private theorem byteLength_markdownInline (citation : Citation) :
    byteLength (markdownInline citation.title) = byteLength citation.title +
      citation.title.count '\\' + citation.title.count '`' := by
  obtain ⟨hne, hline⟩ := title_inside citation.titled
  rw [markdownInline, splitlines_line hne hline, List.intercalate_singleton,
    byteLength_replaceChar rfl, byteLength_replaceChar rfl,
    count_replaceChar (by decide) (by decide)]

private theorem byteLength_markdownCitation (citation : Citation) :
    byteLength (markdownCitation citation) + 1 =
      ((citationValues citation).map byteLength).sum +
        (13 + citation.title.count '\\' + citation.title.count '`') := by
  have hopening : byteLength "- [[".toList = 4 := by decide
  have hclosing : byteLength "]] ".toList = 3 := by decide
  have hdash : byteLength " — ".toList = 5 := by decide
  simp only [markdownCitation, List.flatten_cons, List.flatten_nil, byteLength_append,
    byteLength_nil, byteLength_markdownInline, hopening, hclosing, hdash, citationValues,
    List.map_cons, List.map_nil, List.sum_cons, List.sum_nil]
  omega

private theorem lineBytes_sourceLines (sources : List Citation) :
    lineBytes (sourceLines sources) =
      ((sources.flatMap citationValues).map byteLength).sum + sourceMarkBytes sources := by
  have hlines : ∀ sources : List Citation, lineBytes (sources.map markdownCitation) =
      ((sources.flatMap citationValues).map byteLength).sum + (sources.map fun source =>
        13 + source.title.count '\\' + source.title.count '`').sum := by
    intro sources
    induction sources with
    | nil => rfl
    | cons source sources ih =>
      rw [List.map_cons, lineBytes_cons, ih, byteLength_markdownCitation, List.flatMap_cons,
        List.map_append, List.sum_append, List.map_cons, List.sum_cons]
      omega
  have hheading : byteLength "#### Sources".toList = 12 := by decide
  unfold sourceLines sourceMarkBytes
  by_cases h : sources = []
  · rw [if_pos h, if_pos h, h]
    rfl
  · rw [if_neg h, if_neg h, lineBytes_append, lineBytes_append, hlines, lineBytes_cons,
      lineBytes_cons, lineBytes_nil, hheading, byteLength_nil]
    omega

private theorem lineBytes_markdownEntry (entry : ThreadEntry Json) :
    lineBytes (markdownEntry entry) + leftOutBytes entry =
      entryBytes entry + addedBytes entry := by
  have hopening : byteLength "### ".toList = 4 := by decide
  have hdot : byteLength " · ".toList = 4 := by decide
  simp only [markdownEntry, lineBytes_append, lineBytes_cons, lineBytes_nil, byteLength_nil,
    lineBytes_sourceLines, entryHeading, List.flatten_cons, List.flatten_nil, byteLength_append,
    hopening, hdot, entryBytes, exportedValues, addedBytes, leftOutBytes, List.map_cons,
    List.map_nil, List.sum_cons,
    List.sum_nil]
  omega

omit [UrlGrammar] in
private theorem sum_add_sum {α : Type} {f g h k : α → Nat}
    (hpoint : ∀ x, f x + g x = h x + k x) (items : List α) :
    (items.map f).sum + (items.map g).sum = (items.map h).sum + (items.map k).sum := by
  induction items with
  | nil => rfl
  | cons x items ih =>
    have hx := hpoint x
    simp only [List.map_cons, List.sum_cons]
    omega

private theorem lineBytes_markdownLines (view : ThreadView Json) :
    lineBytes (markdownLines view) + (view.entries.map leftOutBytes).sum =
      lineBytes (frontMatter view.thread) + (view.entries.map entryBytes).sum +
        (view.entries.map addedBytes).sum := by
  have hentries := sum_add_sum lineBytes_markdownEntry view.entries
  have horder := sum_orderedEntries view fun entry => lineBytes (markdownEntry entry)
  rw [markdownLines, lineBytes_append, lineBytes_flatMap, horder]
  omega

/-! ## The end of an export -/

variable {front : List Text}

omit [UrlGrammar] in
private theorem end_of_line (hfront : front ≠ []) (start : Text) {word : Text}
    (hword : word ≠ []) (hsolid : ∀ c ∈ word, isSpace c = false) :
    (joinLines (front ++ [start ++ word, []])).rtakeWhile isSpace = ['\n'] := by
  have hnewline : ∀ c ∈ ['\n'], isSpace c = true := forall_of_all (by decide)
  have htext : joinLines (front ++ [start ++ word, []]) =
      (joinLines front ++ '\n' :: start ++ word) ++ ['\n'] := by
    rw [joinLines_append hfront (List.cons_ne_nil _ _)]
    simp [joinLines]
  rw [htext, rtakeWhile_append_of_forall hnewline, rtakeWhile_word _ hword hsolid]
  rfl

omit [UrlGrammar] [EntryMetadata Json] in
private theorem solid_sequenceText (entry : ThreadEntry Json) :
    ∀ c ∈ sequenceText entry, isSpace c = false := by
  have hdigits : ∀ n < 10, isSpace (Char.ofNat (48 + n)) = false := by decide
  intro c hc
  have hdigit := Nat.isDigit_of_mem_toDigits (by decide) (by decide) hc
  rw [Char.isDigit_iff_toNat] at hdigit
  change 48 ≤ c.toNat ∧ c.toNat ≤ 57 at hdigit
  have hsame := hdigits (c.toNat - 48) (by omega)
  rwa [Nat.add_sub_cancel' hdigit.1, Char.ofNat_toNat] at hsame

omit [UrlGrammar] [EntryMetadata Json] in
private theorem sequenceText_ne_nil (entry : ThreadEntry Json) : sequenceText entry ≠ [] :=
  Nat.toDigits_ne_nil

omit [UrlGrammar] in
private theorem solid_url {url : Text} (h : Agent.isSourceUrl url = true) :
    url ≠ [] ∧ ∀ c ∈ url, isSpace c = false := by
  simp only [Agent.isSourceUrl, Bool.and_eq_true, decide_eq_true_eq, List.all_eq_true,
    Bool.not_eq_true'] at h
  exact ⟨List.length_pos_iff.mp h.1.1, fun c hc => (h.2 c hc).1.2⟩

private theorem joinLines_entry (hfront : front ≠ []) {entry : ThreadEntry Json}
    (hnone : citations entry = []) :
    joinLines (front ++ markdownEntry entry) =
      (joinLines front ++ '\n' :: (("### ".toList ++ kindLabel entry.kind ++ " · ".toList) ++
        sequenceText entry)) ++ ['\n', '\n'] ++ entry.content.toList ++ ['\n'] := by
  have hlines : markdownEntry entry =
      [entryHeading entry, [], entry.content.toList, []] := by
    rw [markdownEntry, hnone]
    rfl
  rw [hlines, joinLines_append hfront (List.cons_ne_nil _ _)]
  simp [joinLines, entryHeading]

private theorem end_of_entry (hfront : front ≠ []) (entry : ThreadEntry Json) :
    byteLength ((joinLines (front ++ markdownEntry entry)).rtakeWhile isSpace) =
      if citations entry ≠ [] then 1
      else if entry.content.toList.all isSpace then byteLength entry.content.toList + 3
      else byteLength (entry.content.toList.rtakeWhile isSpace) + 1 := by
  have hnewline : ∀ c ∈ ['\n'], isSpace c = true := forall_of_all (by decide)
  have hone : byteLength ['\n'] = 1 := by decide
  have htwo : byteLength ['\n', '\n'] = 2 := by decide
  by_cases hsources : citations entry = []
  · rw [if_neg (not_not.mpr hsources), joinLines_entry hfront hsources]
    split
    · next hblank =>
      have hall : ∀ c ∈ entry.content.toList, isSpace c = true := List.all_eq_true.mp hblank
      have hlines : ∀ c ∈ ['\n', '\n'], isSpace c = true := forall_of_all (by decide)
      rw [rtakeWhile_append_of_forall hnewline, rtakeWhile_append_of_forall hall,
        rtakeWhile_append_of_forall hlines, ← List.cons_append, ← List.append_assoc,
        rtakeWhile_word _ (sequenceText_ne_nil entry) (solid_sequenceText entry)]
      simp only [byteLength_append, byteLength_nil, hone, htwo]
      omega
    · next hblank =>
      have hsolid : ∃ c ∈ entry.content.toList, isSpace c = false := by
        rw [List.all_eq_true] at hblank
        obtain ⟨c, hmissing⟩ := not_forall.mp hblank
        obtain ⟨hc, hspace⟩ := Classical.not_imp.mp hmissing
        exact ⟨c, hc, Bool.eq_false_of_not_eq_true hspace⟩
      rw [rtakeWhile_append_of_forall hnewline, rtakeWhile_append_of_exists hsolid,
        byteLength_append, hone]
  · rw [if_pos hsources]
    obtain ⟨sources, source, hlast⟩ := List.eq_nil_or_concat (citations entry) |>.resolve_left
      hsources
    rw [List.concat_eq_append] at hlast
    obtain ⟨hurl, hsolid⟩ := solid_url source.located
    have hlines : front ++ markdownEntry entry =
        (front ++ ([entryHeading entry, [], entry.content.toList, [], "#### Sources".toList, []] ++
          sources.map markdownCitation)) ++
        [("- [[".toList ++ source.id ++ "]] ".toList ++ markdownInline source.title ++
          " — ".toList) ++ source.url, []] := by
      rw [markdownEntry, sourceLines, if_neg hsources, hlast]
      simp [markdownCitation]
    rw [hlines, end_of_line (List.append_ne_nil_of_left_ne_nil hfront _) _ hurl hsolid, hone]

omit [UrlGrammar] in
private theorem frontMatter_ne_nil (thread : Thread) : frontMatter thread ≠ [] :=
  List.cons_ne_nil _ _

private theorem byteLength_end (view : ThreadView Json) :
    byteLength ((joinLines (markdownLines view)).rtakeWhile isSpace) = strippedBytes view := by
  unfold strippedBytes
  cases hlast : (orderedEntries view).getLast? with
  | none =>
    have hnone := List.getLast?_eq_none_iff.mp hlast
    have hsolid : ∀ c ∈ "Transcript".toList, isSpace c = false := forall_of_all (by decide)
    have hlines : markdownLines view = (frontMatter view.thread).take 12 ++
        ["## ".toList ++ "Transcript".toList, []] := by
      rw [markdownLines, hnone]
      rfl
    rw [hlines, end_of_line (by exact List.cons_ne_nil _ _) _ (by decide) hsolid]
    rfl
  | some entry =>
    obtain ⟨entries, hentries⟩ := List.getLast?_eq_some_iff.mp hlast
    have hlines : markdownLines view =
        (frontMatter view.thread ++ entries.flatMap markdownEntry) ++ markdownEntry entry := by
      rw [markdownLines, hentries, List.flatMap_append, List.flatMap_singleton,
        List.append_assoc]
    rw [hlines, end_of_entry (List.append_ne_nil_of_left_ne_nil (frontMatter_ne_nil _) _)]

private theorem byteLength_renderMarkdown (view : ThreadView Json) :
    byteLength (renderMarkdown view) + strippedBytes view = lineBytes (markdownLines view) := by
  have hlines : markdownLines view ≠ [] :=
    List.append_ne_nil_of_left_ne_nil (frontMatter_ne_nil _) _
  have hjoined := byteLength_joinLines hlines
  have hsplit := byteLength_rdropWhile isSpace (joinLines (markdownLines view))
  have hend := byteLength_end view
  have hone : byteLength ['\n'] = 1 := by decide
  rw [renderMarkdown, byteLength_append, hone]
  omega

/-- Markdown makes up for what it leaves out: the values of the entries that it does not write
take no more bytes than what it adds and the entries at which the check does not arrive. -/
def MarkdownCovers (view : ThreadView Json) : Prop :=
  (view.entries.map leftOutBytes).sum + strippedBytes view ≤
    lineBytes (frontMatter view.thread) + (view.entries.map addedBytes).sum +
      ((uncountedEntries view.entries).map entryBytes).sum

/-- The check counts no more bytes than an export has, and only an export that is too large is
refused as such. -/
def RefusesTooLargeOnly (view : ThreadView Json) (format : ThreadExportFormat) : Prop :=
  countedBytes view.entries ≤ (renderExportBytes view format).length ∧
    ∀ workspaceKey, exportContent workspaceKey view format = .error exportTooLarge →
      maxThreadExportBytes < (renderExportBytes view format).length

private theorem exportContent_too_large {workspaceKey : String} {view : ThreadView Json}
    {format : ThreadExportFormat}
    (h : exportContent workspaceKey view format = .error exportTooLarge) :
    maxThreadExportBytes < countedBytes view.entries ∨
      maxThreadExportBytes < (renderExportBytes view format).length := by
  unfold exportContent at h
  split at h
  · have hcode : exportTooLarge.code ≠ "thread_not_found" := by decide
    rw [← Except.error.inj h] at hcode
    exact absurd rfl hcode
  split at h
  · next hexceeds => exact Or.inl (of_decide_eq_true hexceeds)
  dsimp only at h
  split at h
  · next hlarge => exact Or.inr hlarge
  · cases h

/-- The check refuses only what is too large exactly for JSON and for Markdown that makes up for
what it leaves out. -/
theorem refusesTooLargeOnly_iff (view : ThreadView Json) (format : ThreadExportFormat) :
    RefusesTooLargeOnly view format ↔ format = .json ∨ MarkdownCovers view := by
  have hcounted := countedBytes_add view.entries
  have hrefused : RefusesTooLargeOnly view format ↔
      countedBytes view.entries ≤ (renderExportBytes view format).length := by
    constructor
    · exact fun h => h.1
    · intro hle
      refine ⟨hle, fun workspaceKey herror => ?_⟩
      rcases exportContent_too_large herror with hlarge | hlarge
      · exact hlarge.trans_le hle
      · exact hlarge
  rw [hrefused]
  cases format with
  | json =>
    have hjson := entryBytes_le_renderJson view
    change countedBytes view.entries ≤ byteLength (renderJson view) ↔ _
    constructor
    · exact fun _ => Or.inl rfl
    · intro _
      omega
  | markdown =>
    have hrendered := byteLength_renderMarkdown view
    have hlines := lineBytes_markdownLines view
    change countedBytes view.entries ≤ byteLength (renderMarkdown view) ↔ _
    rw [or_iff_right (fun h => ThreadExportFormat.noConfusion h), MarkdownCovers]
    constructor
    · intro hle
      omega
    · intro hcovers
      omega

end Exports

section Sample

/-- URLs of one host. -/
@[reducible] def exampleHost : UrlGrammar where
  splits := fun url => "https://example.com/".toList.isPrefixOf url
  anyUrl := fun url => "https://example.com/".toList.isPrefixOf url
  canonicalHostname := fun _ => some "example.com".toList

attribute [local instance] exampleHost

/-- Entries without sources. -/
@[reducible] def withoutSources : EntryMetadata Unit where
  modelValidate := fun _ => ⟨[], Nat.zero_le _, _, rfl⟩

attribute [local instance] withoutSources

/-- A Thread of a workspace. -/
def sampleThread : Thread where
  id := "thread_1"
  workspaceKey := "workspace"
  title := "Notes"
  titleSource := .automatic
  currentModel := none
  thinkingEnabled := true
  skillMode := "auto"
  lineage := none
  createdAt := 0
  updatedAt := 0
  valid := by decide

private theorem length_sampleDigits (width n : Nat) : (Datetime.digits width n).length = width := by
  induction width generalizing n with
  | zero => rfl
  | succ width ih => rw [Datetime.digits, List.length_append, ih, List.length_singleton]

/-- The fields of a direct command of one letter. -/
def sampleFields (index : Nat) : ThreadEntryFields Unit where
  id := String.ofList ("entry_".toList ++ Datetime.digits 32 index)
  threadId := "thread_1"
  sequence := index % 100000 + 1
  kind := .directCommand
  content := "x"
  clientMessageId := none
  metadata := ()
  createdAt := 0

private theorem length_sampleId (index : Nat) : (sampleFields index).id.length = 38 := by
  change (String.ofList ("entry_".toList ++ Datetime.digits 32 index)).length = 38
  rw [String.length_ofList, List.length_append, length_sampleDigits]
  decide

private theorem valid_sampleFields (index : Nat) : (sampleFields index).Valid := by
  have hid := length_sampleId index
  have hthread : Bounded "thread_1" 1 128 := by decide
  have hsequence : index % 100000 + 1 ≤ 9007199254740991 := by omega
  have hcontent : "x".length ≤ 200000 ∧ "x".length ≤ 30000 := by decide
  exact ⟨⟨by omega, by omega⟩, hthread, ⟨Nat.succ_pos _, hsequence⟩, hcontent.1,
    ⟨nofun, nofun⟩, nofun, fun _ => hcontent.2⟩

/-- A direct command of one letter. -/
def sampleEntry (index : Nat) : ThreadEntry Unit :=
  ⟨sampleFields index, valid_sampleFields index⟩

/-- A Thread with so many short commands. -/
def sampleView (count : Nat) : ThreadView Unit where
  thread := sampleThread
  entries := (List.range count).map sampleEntry
  turns := []
  summary := none

private theorem citations_sample (index : Nat) : citations (sampleEntry index) = [] := rfl

private theorem bytes_sampleEntry (index : Nat) : 79 ≤ entryBytes (sampleEntry index) := by
  have hid := length_le_byteLength (sampleEntry index).id.toList
  have hlength : (sampleEntry index).id.toList.length = 38 := length_sampleId index
  have hkind : byteLength (entryKindValue .directCommand).toList = 14 := by decide
  have hsequence := length_le_byteLength (sequenceText (sampleEntry index))
  have hdigits : 0 < (sequenceText (sampleEntry index)).length := Nat.length_toDigits_pos
  have htime : byteLength (isoformatOf 0) = 25 := by decide
  have hcontent : byteLength "x".toList = 1 := by decide
  change 79 ≤ byteLength (sampleEntry index).id.toList +
    (byteLength (entryKindValue .directCommand).toList +
      (byteLength (sequenceText (sampleEntry index)) +
        (byteLength (isoformatOf 0) + (byteLength "x".toList + 0)))) + 0
  omega

private theorem lineBytes_sampleEntry (index : Nat) :
    lineBytes (markdownEntry (sampleEntry index)) ≤ 51 := by
  have hascii := byteLength_le (sequenceText (sampleEntry index))
  have hdigits : (sequenceText (sampleEntry index)).length ≤ 6 := by
    apply (Nat.length_toDigits_le_iff (by decide) (by decide)).mpr
    change index % 100000 + 1 < 10 ^ 6
    omega
  have hopening : byteLength ("### ".toList ++ kindLabel .directCommand ++ " · ".toList) = 22 := by
    decide
  have hcontent : byteLength "x".toList = 1 := by decide
  have hheading : byteLength (entryHeading (sampleEntry index)) =
      22 + byteLength (sequenceText (sampleEntry index)) := by
    rw [← hopening, ← byteLength_append, entryHeading]
    simp only [List.flatten_cons, List.flatten_nil, List.append_nil, List.append_assoc]
    rfl
  rw [markdownEntry, citations_sample, lineBytes_append]
  change lineBytes [entryHeading (sampleEntry index), [], "x".toList, []] + 0 ≤ 51
  simp only [lineBytes_cons, lineBytes_nil, byteLength_nil, hheading, hcontent]
  omega

private theorem sampleView_counted (count : Nat) :
    count * 79 ≤ ((sampleView count).entries.map entryBytes).sum := by
  have hsum := List.card_nsmul_le_sum ((sampleView count).entries.map entryBytes) 79
    fun bytes hbytes => by
      obtain ⟨entry, hentry, rfl⟩ := List.mem_map.mp hbytes
      obtain ⟨index, -, rfl⟩ := List.mem_map.mp hentry
      exact bytes_sampleEntry index
  have hlength : (sampleView count).entries.length = count := by
    rw [sampleView, List.length_map, List.length_range]
  rwa [List.length_map, hlength, smul_eq_mul] at hsum

private theorem sampleView_rendered (count : Nat) :
    (renderExportBytes (sampleView count) .markdown).length ≤ 300 + count * 51 := by
  have hrendered := byteLength_renderMarkdown (sampleView count)
  have hfront : lineBytes (frontMatter sampleThread) ≤ 300 := by decide
  have horder := sum_orderedEntries (sampleView count) fun entry => lineBytes (markdownEntry entry)
  have hsum := List.sum_le_card_nsmul
    ((sampleView count).entries.map fun entry => lineBytes (markdownEntry entry)) 51
    fun bytes hbytes => by
      obtain ⟨entry, hentry, rfl⟩ := List.mem_map.mp hbytes
      obtain ⟨index, -, rfl⟩ := List.mem_map.mp hentry
      exact lineBytes_sampleEntry index
  have hlength : (sampleView count).entries.length = count := by
    rw [sampleView, List.length_map, List.length_range]
  rw [List.length_map, hlength, smul_eq_mul] at hsum
  rw [markdownLines, lineBytes_append, lineBytes_flatMap, horder] at hrendered
  change byteLength (renderMarkdown (sampleView count)) ≤ _
  change _ = lineBytes (frontMatter sampleThread) + _ at hrendered
  omega

/-- An export is refused as too large that has less than half of the bytes it may have. -/
theorem small_export_refused :
    ¬ ∀ (view : ThreadView Unit) format, RefusesTooLargeOnly view format := by
  intro h
  have hlong : maxThreadExportBytes < 67000 * 79 := by decide
  have hshort : 300 + 67000 * 51 ≤ maxThreadExportBytes := by decide
  have hexceeds := exceedsLimit_of_sum (hlong.trans_le (sampleView_counted 67000))
  have hkey : ¬ (sampleView 67000).thread.workspaceKey ≠ "workspace" := fun hne => hne rfl
  have hrefused : exportContent "workspace" (sampleView 67000) .markdown =
      .error exportTooLarge := by
    rw [exportContent, if_neg hkey, if_pos hexceeds]
  have hlarge := (h (sampleView 67000) .markdown).2 "workspace" hrefused
  exact absurd ((sampleView_rendered 67000).trans hshort) (Nat.not_le_of_lt hlarge)

end Sample

end AwesomeAgent.ThreadExport
