import AwesomeAgent.Library.Text

/-!
# Local memory documents

A Markdown file may have one managed section of memory entries between two marker lines. Every
change parses the whole file, renders all entries again and replaces the file.
-/

namespace AwesomeAgent.Memory

/-- Why an operation on a memory document fails. -/
inductive LocalMemoryError where
  | documentInvalid (code : String)
  | validation
  deriving DecidableEq

/-! ## Entries -/

/-- The name of an entry and 32 lower-case hexadecimal digits. -/
def isMemoryId (id : Text) : Bool :=
  "memory_".toList.isPrefixOf id && decide (id.length = 39) &&
    (id.drop 7).all fun c => c.isDigit || (decide ('a' ≤ c) && decide (c ≤ 'f'))

/-- A memory entry, valid by construction. -/
structure MemoryEntry where
  id : Text
  content : Text
  identified : isMemoryId id = true
  sized : 1 ≤ content.length ∧ content.length ≤ 2000
  deriving DecidableEq

/-- Validate an entry. -/
def MemoryEntry.make (id content : Text) : Except LocalMemoryError MemoryEntry :=
  if h : isMemoryId id = true ∧ 1 ≤ content.length ∧ content.length ≤ 2000 then
    .ok ⟨id, content, h.1, h.2⟩
  else .error .validation

/-- What a document says of its entries, in order. -/
def listed (entries : List MemoryEntry) : List (Text × Text) :=
  entries.map fun entry => (entry.id, entry.content)

/-! ## Reading -/

/-- The line before the section. -/
def startMarker : Text := "<!-- awesome-agent:managed-memory:start -->".toList

/-- The line after the section. -/
def endMarker : Text := "<!-- awesome-agent:managed-memory:end -->".toList

/-- How the line of an identifier begins. -/
def idOpening : Text := "<!-- memory:id=".toList

/-- How the line of an identifier ends. -/
def idClosing : Text := " -->".toList

/-- The comment line of an identifier. -/
def idComment (id : Text) : Text := idOpening ++ id ++ idClosing

/-- The identifier of a line that is an identifier comment. -/
def matchedId (body : Text) : Option Text :=
  let id := (body.drop idOpening.length).take 39
  if isMemoryId id = true ∧ body = idComment id then some id else none

/-- A line without newlines and carriage returns at its end. -/
def stripNewlines (line : Text) : Text := line.rdropWhile fun c => c = '\r' || c = '\n'

/-- Occurrences of a marker in a text, none inside another. -/
def countMarker (marker : Text) : Nat → Text → Nat
  | _, [] => 0
  | skip + 1, _ :: rest => countMarker marker skip rest
  | 0, c :: rest =>
      if marker.isPrefixOf (c :: rest) then 1 + countMarker marker (marker.length - 1) rest
      else countMarker marker 0 rest

/-- The numbers of the lines that are a marker; it stands nowhere else. -/
def markerLines (lines : List Text) (marker text : Text) : Except LocalMemoryError (List Nat) :=
  let exact := (List.range lines.length).filter fun i =>
    stripNewlines (lines.getD i []) = marker
  if countMarker marker 0 text ≠ exact.length then .error (.documentInvalid "managed_marker_line")
  else .ok exact

/-- Entries read so far, and the entry that is being read. -/
structure EntryReader where
  entries : List MemoryEntry
  currentId : Option Text
  contentLines : List Text

namespace EntryReader

/-- The content of an entry whose lines are given. -/
def joinContent (first : Text) (rest : List Text) : Text :=
  (['\n'].intercalate (first.drop 2 :: rest)).rdropWhile isSpace

/-- End the current entry. -/
def finish (r : EntryReader) : Except LocalMemoryError EntryReader :=
  match r.currentId with
  | none =>
      if r.contentLines.any fun line => line.any fun c => !isSpace c then
        .error (.documentInvalid "managed_content_without_id")
      else .ok { r with contentLines := [] }
  | some id =>
      match r.contentLines.map stripNewlines with
      | [] => .error (.documentInvalid "entry_content_missing")
      | first :: rest =>
          if !("- ".toList.isPrefixOf first) then .error (.documentInvalid "entry_bullet_missing")
          else
            match MemoryEntry.make id (joinContent first rest) with
            | .error _ => .error (.documentInvalid "entry_invalid")
            | .ok entry =>
                if r.entries.any fun item => item.id = entry.id then
                  .error (.documentInvalid "duplicate_entry_id")
                else .ok ⟨r.entries ++ [entry], none, []⟩

/-- Read a line of the section. -/
def parseLine (r : EntryReader) (line : Text) : Except LocalMemoryError EntryReader :=
  match matchedId (stripNewlines line) with
  | some id => do
      let r ← r.finish
      return { r with currentId := some id }
  | none =>
      if idOpening.isPrefixOf (stripNewlines line) then .error (.documentInvalid "entry_id_invalid")
      else .ok { r with contentLines := r.contentLines ++ [line] }

end EntryReader

/-- The entries in the lines of a section. -/
def parseEntries (lines : List Text) : Except LocalMemoryError (List MemoryEntry) := do
  let r ← lines.foldlM EntryReader.parseLine ⟨[], none, []⟩
  let r ← r.finish
  return r.entries

/-- The end of the line of the start marker. -/
def lineEnding (line : Text) : Text :=
  if ['\r', '\n'] <:+ line then ['\r', '\n'] else if ['\n'] <:+ line then ['\n'] else []

/-- The kind of newline that a text has. -/
def preferredNewline (text : Text) : Text :=
  if countMarker ['\r', '\n'] 0 text ≠ 0 then ['\r', '\n'] else ['\n']

/-- A document as it is shown. -/
structure MemoryDocument where
  contentHash : String
  markdown : Text
  entries : List MemoryEntry
  deriving DecidableEq

/-- A document and the text around its section. -/
structure ParsedDocument where
  document : MemoryDocument
  before : Text
  after : Text
  newline : Text
  hasSection : Bool
  deriving DecidableEq

/-- A memory file: its size limit and the digest of its content. -/
structure LocalMemoryFile where
  maxDocumentBytes : Nat
  sha256 : Bytes → String

namespace LocalMemoryFile

variable (file : LocalMemoryFile)

/-- A document of at most a million characters. -/
def document (raw : Bytes) (text : Text) (entries : List MemoryEntry) :
    Except LocalMemoryError MemoryDocument :=
  if 1000000 < text.length then .error .validation else .ok ⟨file.sha256 raw, text, entries⟩

/-- Parse the content of the file. -/
def parse (raw : Bytes) : Except LocalMemoryError ParsedDocument :=
  if file.maxDocumentBytes < raw.length then .error (.documentInvalid "document_too_large")
  else
    match decodeUtf8 raw with
    | none => .error (.documentInvalid "invalid_utf8")
    | some text => do
        let lines := splitLines text
        let starts ← markerLines lines startMarker text
        let ends ← markerLines lines endMarker text
        match starts, ends with
        | [], [] =>
            let document ← file.document raw text []
            return ⟨document, text, [], preferredNewline text, false⟩
        | [start], [stop] =>
            if stop ≤ start then .error (.documentInvalid "managed_markers")
            else
              let entries ← parseEntries ((lines.take stop).drop (start + 1))
              let ending := lineEnding (lines.getD start [])
              let document ← file.document raw text entries
              return ⟨document, (lines.take start).flatten, (lines.drop (stop + 1)).flatten,
                if ending = [] then preferredNewline text else ending, true⟩
        | _, _ => .error (.documentInvalid "managed_markers")

end LocalMemoryFile

/-! ## Changes -/

/-- The result of a change. -/
inductive MemoryMutationStatus where
  | added | replaced | removed | conflict | notFound | rejected | disabled
  deriving DecidableEq

namespace MemoryMutationStatus

/-- The text of a status. -/
def value : MemoryMutationStatus → String
  | added => "added"
  | replaced => "replaced"
  | removed => "removed"
  | conflict => "memory_conflict"
  | notFound => "memory_not_found"
  | rejected => "memory_rejected"
  | disabled => "memory_disabled"

/-- The document was changed as asked. -/
def isDone (status : MemoryMutationStatus) : Bool :=
  status = added || status = replaced || status = removed

end MemoryMutationStatus

/-- What is reported of a change. -/
structure MemoryMutationResult where
  status : MemoryMutationStatus
  entryId : Option Text
  contentHash : String
  document : Option MemoryDocument
  errorCode : Option String
  deriving DecidableEq

/-- The lines of an entry. -/
def entryLines (entry : MemoryEntry) : List Text :=
  idComment entry.id ::
    match entry.content.splitOn '\n' with
    | [] => []
    | first :: rest => ("- ".toList ++ first) :: rest

/-- The text of the managed section. -/
def renderSection (entries : List MemoryEntry) (newline : Text) : Text :=
  newline.intercalate ([startMarker] ++ entries.flatMap entryLines ++ [endMarker]) ++ newline

/-- The text before the section, with an end for its last line. -/
def closedBefore (parsed : ParsedDocument) : Text :=
  if !parsed.hasSection ∧ parsed.before ≠ [] ∧ ¬(['\n'] <:+ parsed.before) ∧
      ¬(['\r'] <:+ parsed.before) then
    parsed.before ++ parsed.newline
  else parsed.before

/-- The file as an operation finds it or leaves it. -/
abbrev Stored := Option Bytes

namespace LocalMemoryFile

variable (file : LocalMemoryFile)

/-- The change was made to another content of the file. -/
def conflicting (contentHash : String) : MemoryMutationResult :=
  ⟨.conflict, none, contentHash, none, some MemoryMutationStatus.conflict.value⟩

/-- There is no entry to change. -/
def notFoundResult (parsed : ParsedDocument) (entryId : Text) : MemoryMutationResult :=
  ⟨.notFound, some entryId, parsed.document.contentHash, some parsed.document,
    some MemoryMutationStatus.notFound.value⟩

/-- Write the entries between what stands around the section. -/
def writeEntries (stored : Stored) (parsed : ParsedDocument) (entries : List MemoryEntry)
    (status : MemoryMutationStatus) (entryId : Text) :
    Except LocalMemoryError (MemoryMutationResult × Stored) := do
  let raw := encodeUtf8
    (closedBefore parsed ++ renderSection entries parsed.newline ++ parsed.after)
  if file.maxDocumentBytes < raw.length then .error (.documentInvalid "document_too_large")
  else
    let written ← file.parse raw
    let currentHash := file.sha256 (stored.getD [])
    if currentHash ≠ parsed.document.contentHash then return (conflicting currentHash, stored)
    else
      return (⟨status, some entryId, written.document.contentHash, some written.document, none⟩,
        some raw)

/-- Parse the file for a change, if it has the content that the change expects. -/
def readForMutation (stored : Stored) (expectedHash : String)
    (change : ParsedDocument → Except LocalMemoryError (MemoryMutationResult × Stored)) :
    Except LocalMemoryError (MemoryMutationResult × Stored) := do
  let currentHash := file.sha256 (stored.getD [])
  if currentHash ≠ expectedHash then return (conflicting currentHash, stored)
  else change (← file.parse (stored.getD []))

/-- Add an entry under a new identifier. -/
def add (stored : Stored) (newId content : Text) (expectedHash : String) :
    Except LocalMemoryError (MemoryMutationResult × Stored) :=
  file.readForMutation stored expectedHash fun parsed => do
    let entry ← MemoryEntry.make newId content
    if parsed.document.entries.any fun item => item.id = entry.id then
      .error (.documentInvalid "duplicate_generated_id")
    else
      file.writeEntries stored parsed (parsed.document.entries ++ [entry]) .added entry.id

/-- Replace the content of an entry. -/
def replace (stored : Stored) (entryId content : Text) (expectedHash : String) :
    Except LocalMemoryError (MemoryMutationResult × Stored) :=
  file.readForMutation stored expectedHash fun parsed =>
    if parsed.document.entries.all fun item => item.id ≠ entryId then
      return (notFoundResult parsed entryId, stored)
    else do
      let replacement ← MemoryEntry.make entryId content
      file.writeEntries stored parsed
        (parsed.document.entries.map fun item => if item.id = entryId then replacement else item)
        .replaced entryId

/-- Remove an entry. -/
def remove (stored : Stored) (entryId : Text) (expectedHash : String) :
    Except LocalMemoryError (MemoryMutationResult × Stored) :=
  file.readForMutation stored expectedHash fun parsed =>
    if parsed.document.entries.all fun item => item.id ≠ entryId then
      return (notFoundResult parsed entryId, stored)
    else
      file.writeEntries stored parsed
        (parsed.document.entries.filter fun item => item.id ≠ entryId) .removed entryId

end LocalMemoryFile

/-! ## Policy -/

/-- A text without the spaces at its ends. -/
def strip (text : Text) : Text := (text.dropWhile isSpace).rdropWhile isSpace

/-- The content that the policy judges and, if it is eligible, passes on. -/
def normalized (content : Text) : Text := strip (normalizeNewlines content)

/-- Control characters other than newlines and tabs. -/
def hasControlCharacter (content : Text) : Bool :=
  content.any fun c => !(c = '\n' || c = '\t') &&
    (decide (c.toNat < 32) || decide (127 ≤ c.toNat ∧ c.toNat ≤ 159))

/-- What the policy says of a content. -/
inductive MemoryPolicyResult where
  | eligible (content : Text)
  | rejected (code : String)
  deriving DecidableEq

/-- The policy: its length limit and what its regular expressions find. -/
structure LocalMemoryPolicy where
  maxEntryChars : Nat
  redacted : Text → Bool
  unredactedSecret : Text → Bool
  credentialPath : Text → Bool
  absolutePrivatePath : Text → Bool
  rawCodeOrOutput : Text → Bool
  executableInstruction : Text → Bool

/-- Judge a content. -/
def LocalMemoryPolicy.evaluate (policy : LocalMemoryPolicy) (content : Text) :
    Except LocalMemoryError MemoryPolicyResult :=
  let content := normalized content
  if content = [] then .ok (.rejected "empty")
  else if policy.maxEntryChars < content.length then .ok (.rejected "too_large")
  else if hasControlCharacter content then .ok (.rejected "control_character")
  else if policy.redacted content || policy.unredactedSecret content then
    .ok (.rejected "secret_like_content")
  else if policy.credentialPath content then .ok (.rejected "credential_path")
  else if policy.absolutePrivatePath content then .ok (.rejected "absolute_private_path")
  else if policy.rawCodeOrOutput content then .ok (.rejected "raw_code_or_output")
  else if policy.executableInstruction content then .ok (.rejected "executable_instruction")
  else if 2000 < content.length then .error .validation
  else .ok (.eligible content)

/-! ## The service -/

/-- A change that is asked for; a new entry comes with the identifier generated for it. -/
inductive MemoryOperation where
  | add (newId content : Text) (expectedHash : String)
  | replace (entryId content : Text) (expectedHash : String)
  | remove (entryId : Text) (expectedHash : String)
  deriving DecidableEq

/-- The local memory of a scope. -/
structure LocalMemoryService where
  enabled : Bool
  policy : LocalMemoryPolicy
  file : LocalMemoryFile

namespace LocalMemoryService

variable (service : LocalMemoryService)

/-- The answer while the memory is disabled. -/
def disabledResult (stored : Stored) :
    Except LocalMemoryError (MemoryMutationResult × Stored) := do
  let parsed ← service.file.parse (stored.getD [])
  return (⟨.disabled, none, parsed.document.contentHash, some parsed.document,
    some MemoryMutationStatus.disabled.value⟩, stored)

/-- The answer to a content that the policy rejects. -/
def rejectedResult (stored : Stored) (expectedHash code : String) :
    Except LocalMemoryError (MemoryMutationResult × Stored) := do
  let parsed ← service.file.parse (stored.getD [])
  if parsed.document.contentHash ≠ expectedHash then
    return (LocalMemoryFile.conflicting parsed.document.contentHash, stored)
  else
    return (⟨.rejected, none, parsed.document.contentHash, some parsed.document, some code⟩, stored)

/-- Pass a content on if it is eligible. -/
def screened (stored : Stored) (content : Text) (expectedHash : String)
    (change : Text → Except LocalMemoryError (MemoryMutationResult × Stored)) :
    Except LocalMemoryError (MemoryMutationResult × Stored) := do
  match ← service.policy.evaluate content with
  | .rejected code => service.rejectedResult stored expectedHash code
  | .eligible content => change content

/-- Carry out a change. -/
def apply (stored : Stored) (op : MemoryOperation) :
    Except LocalMemoryError (MemoryMutationResult × Stored) :=
  if !service.enabled then service.disabledResult stored
  else
    match op with
    | .add newId content expectedHash =>
        service.screened stored content expectedHash fun content =>
          service.file.add stored newId content expectedHash
    | .replace entryId content expectedHash =>
        service.screened stored content expectedHash fun content =>
          service.file.replace stored entryId content expectedHash
    | .remove entryId expectedHash => service.file.remove stored entryId expectedHash

end LocalMemoryService

end AwesomeAgent.Memory
