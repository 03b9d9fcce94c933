import AwesomeAgent.Agent.Citations
import AwesomeAgent.Context.Compression
import AwesomeAgent.Library.Calendar
import AwesomeAgent.Library.IndentedJson
import AwesomeAgent.Library.TextSize

/-!
# Exports of a Thread

A Thread is written as Markdown or as JSON. Both list the entries in their order with the sources
of the answers; JSON also writes the identifiers, the kinds and the times of the entries.
-/

namespace AwesomeAgent.ThreadExport

open Agent (Citation CitationAllocator UrlGrammar maxTurnCitations)
open Context (entryKindValue)
open Datetime (isoformatOf)

/-- The name of the JSON format. -/
def threadExportJsonSchema : Text := "awesome.thread-export".toList

/-- The version of both formats. -/
def threadExportVersion : Nat := 1

/-- The formats of an export. -/
inductive ThreadExportFormat
  | markdown
  | json
  deriving DecidableEq, Repr

variable [UrlGrammar]

/-- The metadata of an entry of the assistant: its sources, numbered one after another. -/
structure AssistantEntryMetadata where
  citations : List Citation
  few : citations.length ≤ maxTurnCitations
  sequenced : ∃ allocator, CitationAllocator.start citations = .ok allocator

/-- How the metadata of an entry of the assistant is read. -/
class EntryMetadata (Json : Type) where
  modelValidate : Json → AssistantEntryMetadata

variable {Json : Type} [EntryMetadata Json]

/-- The sources of an entry; only those of the assistant have any. -/
def citations (entry : ThreadEntry Json) : List Citation :=
  if entry.kind = .assistantMessage then (EntryMetadata.modelValidate entry.metadata).citations
  else []

/-- The number of an entry. -/
def sequenceText (entry : ThreadEntry Json) : Text := Nat.toDigits 10 entry.sequence

/-- Entries in the order of their numbers. -/
def orderedEntries (view : ThreadView Json) : List (ThreadEntry Json) :=
  view.entries.insertionSort fun e f =>
    e.sequence < f.sequence ∨ e.sequence = f.sequence ∧ e.id ≤ f.id

/-! ## JSON -/

/-- A source as JSON. -/
def jsonCitation (citation : Citation) : IndentedJson :=
  .object [("id".toList, .string citation.id), ("title".toList, .string citation.title),
    ("url".toList, .string citation.url)]

/-- An entry as JSON. -/
def jsonEntry (entry : ThreadEntry Json) : IndentedJson :=
  .object ([("content".toList, .string entry.content.toList),
      ("created_at".toList, .string (isoformatOf entry.createdAt)),
      ("id".toList, .string entry.id.toList),
      ("kind".toList, .string (entryKindValue entry.kind).toList),
      ("sequence".toList, .int entry.sequence)] ++
    if entry.kind = .assistantMessage then
      [("citations".toList, .array ((citations entry).map jsonCitation))]
    else [])

/-- How a Thread was made. -/
def lineageKindValue : LineageKind → Text
  | .fork => "fork".toList
  | .retry => "retry".toList

/-- The lineage of a Thread as JSON. -/
def jsonLineage : Option ThreadLineage → IndentedJson
  | none => .null
  | some lineage =>
      .object [("kind".toList, .string (lineageKindValue lineage.kind)),
        ("source_thread_id".toList, .string lineage.sourceThreadId.toList),
        ("source_turn_id".toList, .string lineage.sourceTurnId.toList)]

/-- Where a title came from. -/
def titleSourceValue : ThreadTitleSource → Text
  | .automatic => "automatic".toList
  | .manual => "manual".toList

/-- The model of a Thread as JSON. -/
def jsonModel : Option String → IndentedJson
  | none => .null
  | some model => .string model.toList

/-- A Thread as JSON. -/
def jsonThread (thread : Thread) : IndentedJson :=
  .object [("created_at".toList, .string (isoformatOf thread.createdAt)),
    ("current_model".toList, jsonModel thread.currentModel),
    ("id".toList, .string thread.id.toList),
    ("lineage".toList, jsonLineage thread.lineage),
    ("skill_mode".toList, .string thread.skillMode.toList),
    ("thinking_enabled".toList, .bool thread.thinkingEnabled),
    ("title".toList, .string thread.title.toList),
    ("title_source".toList, .string (titleSourceValue thread.titleSource)),
    ("updated_at".toList, .string (isoformatOf thread.updatedAt))]

/-- An export as JSON. -/
def renderJson (view : ThreadView Json) : Text :=
  (IndentedJson.object [("entries".toList, .array ((orderedEntries view).map jsonEntry)),
    ("schema".toList, .string threadExportJsonSchema),
    ("thread".toList, jsonThread view.thread),
    ("version".toList, .int threadExportVersion)]).dumps 0 ++ ['\n']

/-! ## Markdown -/

/-- A value on one line, with backslashes and backticks escaped. -/
def markdownInline (value : Text) : Text :=
  replaceChar '`' ['\\', '`'] (replaceChar '\\' ['\\', '\\'] ([' '].intercalate (splitlines value)))

/-- A value between backticks. -/
def markdownCode (value : Text) : Text := replaceChar '`' ['\\', '`'] value

/-- The line of a source. -/
def markdownCitation (citation : Citation) : Text :=
  ["- [[".toList, citation.id, "]] ".toList, markdownInline citation.title, " — ".toList,
    citation.url].flatten

/-- The line of the lineage. -/
def markdownLineage : Option ThreadLineage → Text
  | none => "- Lineage: none".toList
  | some lineage =>
      "- Lineage: `".toList ++ lineageKindValue lineage.kind ++ "` from Thread `".toList ++
        markdownCode lineage.sourceThreadId.toList ++ "`, Turn `".toList ++
        markdownCode lineage.sourceTurnId.toList ++ ['`']

/-- The name of a kind in a heading. -/
def kindLabel : ThreadEntryKind → Text
  | .userMessage => "User".toList
  | .assistantMessage => "Assistant".toList
  | .directCommand => "Direct command".toList

/-- The heading of an entry. -/
def entryHeading (entry : ThreadEntry Json) : Text :=
  ["### ".toList, kindLabel entry.kind, " · ".toList, sequenceText entry].flatten

/-- The lines of the sources of an entry. -/
def sourceLines (sources : List Citation) : List Text :=
  if sources = [] then []
  else ["#### Sources".toList, []] ++ sources.map markdownCitation ++ [[]]

/-- The lines of an entry. -/
def markdownEntry (entry : ThreadEntry Json) : List Text :=
  [entryHeading entry, [], entry.content.toList, []] ++ sourceLines (citations entry)

/-- The lines before the entries. -/
def frontMatter (thread : Thread) : List Text :=
  ["# ".toList ++ markdownInline thread.title.toList, [],
    "<!-- awesome-thread-export:v".toList ++ Nat.toDigits 10 threadExportVersion ++ " -->".toList,
    [],
    "- Thread ID: `".toList ++ markdownCode thread.id.toList ++ ['`'],
    "- Created: `".toList ++ isoformatOf thread.createdAt ++ ['`'],
    "- Updated: `".toList ++ isoformatOf thread.updatedAt ++ ['`'],
    "- Model: `".toList ++
      markdownCode (if thread.currentModel.getD "" = "" then "not selected".toList
        else (thread.currentModel.getD "").toList) ++ ['`'],
    "- Thinking: `".toList ++ (if thread.thinkingEnabled then "on" else "off").toList ++ ['`'],
    "- Skill mode: `".toList ++ markdownCode thread.skillMode.toList ++ ['`'],
    markdownLineage thread.lineage, [], "## Transcript".toList, []]

/-- The lines of an export. -/
def markdownLines (view : ThreadView Json) : List Text :=
  frontMatter view.thread ++ (orderedEntries view).flatMap markdownEntry

/-- An export as Markdown. -/
def renderMarkdown (view : ThreadView Json) : Text :=
  (joinLines (markdownLines view)).rdropWhile isSpace ++ ['\n']

/-- Write a Thread in a format. -/
def renderThreadExport (view : ThreadView Json) : ThreadExportFormat → Text
  | .markdown => renderMarkdown view
  | .json => renderJson view

end AwesomeAgent.ThreadExport
