import AwesomeAgent.Conversations.Export

/-!
# The size check of an export

The bytes of the entries are counted before an export is rendered; an export whose entries take
too many is refused. The count holds values that Markdown does not write, so that it is a lower
bound of the size of the JSON text only.
-/

namespace AwesomeAgent.ThreadExport

open Agent (Citation UrlGrammar)
open Context (entryKindValue)
open Datetime (isoformatOf)

/-- Most bytes of an export. -/
def maxThreadExportBytes : Nat := 5 * 1024 * 1024

/-- How a command is refused. -/
structure CommandError where
  code : String
  message : String
  deriving DecidableEq, Repr

/-- An export is too large. -/
def exportTooLarge : CommandError :=
  ⟨"export_too_large", "Thread export exceeds the 5 MiB output limit."⟩

section Exports

variable [UrlGrammar] {Json : Type} [EntryMetadata Json]

/-- The values of an entry that are counted, apart from its sources. -/
def exportedValues (entry : ThreadEntry Json) : List Text :=
  [entry.id.toList, (entryKindValue entry.kind).toList, sequenceText entry,
    isoformatOf entry.createdAt, entry.content.toList]

/-- The values of a source. -/
def citationValues (citation : Citation) : List Text :=
  [citation.id, citation.title, citation.url]

/-- The bytes of an entry that are counted. -/
def entryBytes (entry : ThreadEntry Json) : Nat :=
  ((exportedValues entry).map byteLength).sum +
    (((citations entry).flatMap citationValues).map byteLength).sum

/-- Count entries until the total is beyond the limit: the total, and the entries that are left. -/
def countEntries : List (ThreadEntry Json) → Nat → Nat × List (ThreadEntry Json)
  | [], total => (total, [])
  | entry :: rest, total =>
      if maxThreadExportBytes < total + entryBytes entry then (total + entryBytes entry, rest)
      else countEntries rest (total + entryBytes entry)

/-- The bytes that the check has counted when it ends. -/
def countedBytes (entries : List (ThreadEntry Json)) : Nat := (countEntries entries 0).1

/-- The entries take more bytes than an export may have. -/
def entryContentExceedsLimit (entries : List (ThreadEntry Json)) : Bool :=
  decide (maxThreadExportBytes < countedBytes entries)

/-- The bytes of an export. -/
def renderExportBytes (view : ThreadView Json) (format : ThreadExportFormat) : Bytes :=
  encodeUtf8 (renderThreadExport view format)

/-- The bytes that an export writes for a Thread of a workspace. -/
def exportContent (workspaceKey : String) (view : ThreadView Json) (format : ThreadExportFormat) :
    Except CommandError Bytes :=
  if view.thread.workspaceKey ≠ workspaceKey then
    .error ⟨"thread_not_found", "Selected Thread was not found."⟩
  else if entryContentExceedsLimit view.entries then .error exportTooLarge
  else
    let content := renderExportBytes view format
    if maxThreadExportBytes < content.length then .error exportTooLarge else .ok content

/-! ## What is counted -/

/-- The entries at which the check does not arrive. -/
def uncountedEntries (entries : List (ThreadEntry Json)) : List (ThreadEntry Json) :=
  (countEntries entries 0).2

private theorem countEntries_total (entries : List (ThreadEntry Json)) (total : Nat) :
    (countEntries entries total).1 + ((countEntries entries total).2.map entryBytes).sum =
      total + (entries.map entryBytes).sum := by
  induction entries generalizing total with
  | nil => rfl
  | cons entry rest ih =>
    rw [countEntries, List.map_cons, List.sum_cons]
    split
    · dsimp only
      omega
    · rw [ih]
      omega

/-- What is counted and what is left are the bytes of all entries. -/
theorem countedBytes_add (entries : List (ThreadEntry Json)) :
    countedBytes entries + ((uncountedEntries entries).map entryBytes).sum =
      (entries.map entryBytes).sum := by
  have htotal := countEntries_total entries 0
  rw [countedBytes, uncountedEntries]
  omega

private theorem countEntries_end (entries : List (ThreadEntry Json)) (total : Nat) :
    maxThreadExportBytes < (countEntries entries total).1 ∨
      (countEntries entries total).2 = [] := by
  induction entries generalizing total with
  | nil => exact Or.inr rfl
  | cons entry rest ih =>
    rw [countEntries]
    split
    · next hlarge => exact Or.inl hlarge
    · exact ih _

/-- The check refuses entries that take too many bytes together. -/
theorem exceedsLimit_of_sum {entries : List (ThreadEntry Json)}
    (h : maxThreadExportBytes < (entries.map entryBytes).sum) :
    entryContentExceedsLimit entries = true := by
  have htotal := countedBytes_add entries
  apply decide_eq_true
  rcases countEntries_end entries 0 with hlarge | hnone
  · exact hlarge
  · rw [uncountedEntries, hnone, List.map_nil, List.sum_nil] at htotal
    omega

omit [UrlGrammar] [EntryMetadata Json] in
/-- The entries are in the export in some order. -/
theorem sum_orderedEntries (view : ThreadView Json) (f : ThreadEntry Json → Nat) :
    ((orderedEntries view).map f).sum = (view.entries.map f).sum :=
  ((List.perm_insertionSort _ _).map f).sum_eq

/-! ## JSON -/

omit [EntryMetadata Json] in
private theorem dataBytes_citations (sources : List Citation) :
    IndentedJson.dataBytesOfItems (sources.map jsonCitation) =
      ((sources.flatMap citationValues).map byteLength).sum := by
  induction sources with
  | nil => rfl
  | cons source sources ih =>
    rw [List.map_cons, IndentedJson.dataBytesOfItems, ih, List.flatMap_cons, List.map_append,
      List.sum_append]
    rfl

private theorem dataBytes_jsonEntry (entry : ThreadEntry Json) :
    (jsonEntry entry).dataBytes = entryBytes entry := by
  have hsequence : IndentedJson.intText entry.sequence = sequenceText entry := rfl
  unfold jsonEntry
  by_cases hkind : entry.kind = .assistantMessage
  · rw [if_pos hkind]
    simp only [IndentedJson.dataBytes, IndentedJson.dataBytesOfMembers, List.cons_append,
      List.nil_append, dataBytes_citations, hsequence, entryBytes, exportedValues, List.map_cons,
      List.map_nil, List.sum_cons, List.sum_nil]
    omega
  · have hnone : citations entry = [] := if_neg hkind
    rw [if_neg hkind]
    simp only [IndentedJson.dataBytes, IndentedJson.dataBytesOfMembers, List.append_nil,
      hsequence, entryBytes, exportedValues, hnone, List.flatMap_nil, List.map_cons,
      List.map_nil, List.sum_cons, List.sum_nil]
    omega

private theorem dataBytes_entries (entries : List (ThreadEntry Json)) :
    IndentedJson.dataBytesOfItems (entries.map jsonEntry) = (entries.map entryBytes).sum := by
  induction entries with
  | nil => rfl
  | cons entry entries ih =>
    rw [List.map_cons, IndentedJson.dataBytesOfItems, dataBytes_jsonEntry, ih, List.map_cons,
      List.sum_cons]

/-- The JSON text has no fewer bytes than are counted. -/
theorem entryBytes_le_renderJson (view : ThreadView Json) :
    (view.entries.map entryBytes).sum ≤ byteLength (renderJson view) := by
  have hdata := IndentedJson.dataBytes_le_dumps 0 (IndentedJson.object
    [("entries".toList, .array ((orderedEntries view).map jsonEntry)),
      ("schema".toList, .string threadExportJsonSchema),
      ("thread".toList, jsonThread view.thread),
      ("version".toList, .int threadExportVersion)])
  have hentries := dataBytes_entries (orderedEntries view)
  rw [sum_orderedEntries] at hentries
  rw [IndentedJson.dataBytes, IndentedJson.dataBytesOfMembers, IndentedJson.dataBytes,
    hentries] at hdata
  rw [renderJson, byteLength_append]
  omega

end Exports

end AwesomeAgent.ThreadExport
