import AwesomeAgent.Library.Dict
import AwesomeAgent.Modeling.Turns
import AwesomeAgent.Providers.Secrets

/-!
# Sources of a Turn

Web tools allocate a citation for each source they report. A tool call works with an allocator
of its own, which starts from the citations that the state of the Turn collected; the state
collects them again from the results of all calls.
-/

namespace AwesomeAgent.Agent

/-- What the URL parsers tell of a text. -/
class UrlGrammar where
  /-- `urlsplit` finds an HTTPS URL with a host, a possible port and no user information. -/
  splits : Text → Bool
  /-- `AnyUrl` accepts the URL, without user information. -/
  anyUrl : Text → Bool
  /-- The canonical name of the host, if it has one. -/
  canonicalHostname : Text → Option Text

/-- `AnyUrl` is strict: it refuses brackets that do not enclose an address, and so two opening
brackets in a row. -/
class StrictUrls [UrlGrammar] : Prop where
  refuses : ∀ url, ['[', '['] <:+: url → UrlGrammar.anyUrl url = false

/-- Control characters. -/
def isControl (c : Char) : Bool := c.toNat < 32 || (127 ≤ c.toNat && c.toNat ≤ 159)

/-- A title is a line of at most 500 characters that is not blank. -/
def isSourceTitle (title : Text) : Bool :=
  decide (title.length ≤ 500) && title.any (fun c => !isSpace c) &&
    title.all fun c => !isControl c && c.toNat ≠ 0x2028 && c.toNat ≠ 0x2029

/-- A URL has no white space, control characters or backslashes. -/
def isSourceUrl (url : Text) : Bool :=
  decide (0 < url.length ∧ url.length ≤ 8000) &&
    url.all fun c => !isControl c && !isSpace c && c ≠ '\\'

/-- An identifier is an S and a number of at most six digits. -/
def isSourceId : Text → Bool
  | 'S' :: d :: rest => d.isDigit && d ≠ '0' && decide (rest.length ≤ 5) && rest.all Char.isDigit
  | _ => false

variable [UrlGrammar]

/-- A source under the identifier that answers cite. -/
structure Citation where
  id : Text
  title : Text
  url : Text
  identified : isSourceId id = true
  titled : isSourceTitle title = true
  located : isSourceUrl url = true
  parsed : (UrlGrammar.splits url && UrlGrammar.anyUrl url) = true
  deriving DecidableEq

/-- Make a citation from checked values. -/
def Citation.make (id title url : Text) : Except String Citation :=
  if h : isSourceId id = true ∧ isSourceTitle title = true ∧ isSourceUrl url = true ∧
      (UrlGrammar.splits url && UrlGrammar.anyUrl url) = true then
    .ok ⟨id, title, url, h.1, h.2.1, h.2.2.1, h.2.2.2⟩
  else .error "citation is malformed"

/-- Sources that a Turn may cite. -/
def maxTurnCitations : Nat := 128

/-- The identifier of the source with a number. -/
def sourceId (index : Nat) : Text := 'S' :: Nat.toDigits 10 index

/-- Citations that have been allocated. -/
structure CitationAllocator where
  ordered : List Citation
  byUrl : Dict Text Citation

namespace CitationAllocator

/-- Take over one more citation of the state. -/
def adopt (a : CitationAllocator) (citation : Citation) : Except String CitationAllocator :=
  if citation.id ≠ sourceId (a.ordered.length + 1) then
    .error "Turn citation identities must be contiguous."
  else if (a.byUrl.get? citation.url).isSome then .error "Turn citation URLs must be unique."
  else .ok ⟨a.ordered ++ [citation], a.byUrl.set citation.url citation⟩

/-- An allocator that goes on from the citations of the state. -/
def start (existing : List Citation) : Except String CitationAllocator :=
  existing.foldlM adopt ⟨[], Dict.empty⟩

/-- The citation of a URL. -/
def allocate (a : CitationAllocator) (title url : Text) :
    Except String (Citation × CitationAllocator) :=
  match a.byUrl.get? url with
  | some previous => .ok (previous, a)
  | none =>
      if maxTurnCitations ≤ a.ordered.length then
        .error "Turn citations exceed the 128-source limit."
      else do
        let citation ← Citation.make (sourceId (a.ordered.length + 1)) title url
        return (citation, ⟨a.ordered ++ [citation], a.byUrl.set citation.url citation⟩)

/-- The citations of several sources, one after another. -/
def allocateAll (a : CitationAllocator) : List (Text × Text) →
    Except String (List Citation × CitationAllocator)
  | [] => .ok ([], a)
  | (title, url) :: rest => do
      let (citation, a) ← a.allocate title url
      let (citations, a) ← allocateAll a rest
      return (citation :: citations, a)

end CitationAllocator

/-- A source that a web search found. -/
structure WebSearchResult where
  title : Text
  url : Text
  snippet : Text
  titled : isSourceTitle title = true
  located : isSourceUrl url = true
  split : UrlGrammar.splits url = true
  short : snippet.length ≤ 4000

/-- A character of a JSON string. -/
def escapeJson (c : Char) : Text :=
  if c = '"' then ['\\', '"']
  else if c = '\\' then ['\\', '\\']
  else if c = '\n' then ['\\', 'n']
  else if c = '\r' then ['\\', 'r']
  else if c = '\t' then ['\\', 't']
  else if c.toNat = 8 then ['\\', 'b']
  else if c.toNat = 12 then ['\\', 'f']
  else if c.toNat < 32 then
    ['\\', 'u', '0', '0', Nat.digitChar (c.toNat / 16), Nat.digitChar (c.toNat % 16)]
  else [c]

/-- A JSON string. -/
def dumpsString (text : Text) : Text := '"' :: text.flatMap escapeJson ++ ['"']

/-- A member of a JSON object. -/
def dumpsMember (name : String) (value : Text) : Text :=
  dumpsString name.toList ++ ':' :: value

/-- A JSON object. -/
def dumpsObject (members : List Text) : Text :=
  "\x7b".toList ++ [','].intercalate members ++ "\x7d".toList

/-- A truth value in JSON. -/
def dumpsBool (b : Bool) : Text := if b then "true".toList else "false".toList

/-- The results of a search under their identifiers. -/
def renderResults (results : List (Text × WebSearchResult)) : Text :=
  dumpsObject [dumpsMember "results" ('[' :: [','].intercalate (results.map fun result =>
    dumpsObject [dumpsMember "source_id" (dumpsString result.1),
      dumpsMember "title" (dumpsString result.2.title),
      dumpsMember "url" (dumpsString result.2.url),
      dumpsMember "snippet" (dumpsString result.2.snippet)]) ++ [']'])]

/-- Characters that a search may answer. -/
def maxWebSearchOutput : Nat := 28000

/-- The first results that fit, and whether others are left out. -/
def selectResults (selected : List WebSearchResult) :
    List WebSearchResult → List WebSearchResult × Bool
  | [] => (selected, false)
  | result :: rest =>
      if maxWebSearchOutput <
          (renderResults ((selected ++ [result]).map ("S128".toList, ·))).length then
        (selected, true)
      else selectResults (selected ++ [result]) rest

/-- What is known of an output beside its content. -/
inductive OutputMetadata
  | search (resultCount : Nat) (truncated : Bool)
  | fetch (contentChars : Nat) (truncated : Bool)
  | other
  deriving DecidableEq

/-- What a tool hands out. -/
structure ToolOutput where
  content : Text
  metadata : OutputMetadata
  citations : List Citation
  few : citations.length ≤ maxTurnCitations

/-- An output with checked citations. -/
def ToolOutput.make (content : Text) (metadata : OutputMetadata) (citations : List Citation) :
    Except String ToolOutput :=
  if h : citations.length ≤ maxTurnCitations then .ok ⟨content, metadata, citations, h⟩
  else .error "Tool handler returned an invalid citation contract."

/-- The handler of `web_search`, once the provider has answered. -/
def webSearch (a : CitationAllocator) (results : List WebSearchResult) (truncated : Bool) :
    Except String ToolOutput := do
  let selected := selectResults [] results
  let (allocated, _) ← a.allocateAll (selected.1.map fun result => (result.title, result.url))
  ToolOutput.make (renderResults ((allocated.map (·.id)).zip selected.1))
    (.search selected.1.length (truncated || selected.2)) allocated.eraseDups

/-- Characters of a fetched document, and of the answer with it. -/
def maxWebFetchContent : Nat := 24000
def maxWebFetchOutput : Nat := 28000

/-- A fetched document. -/
def renderFetched (id url body : Text) (truncated : Bool) : Text :=
  dumpsObject [dumpsMember "source_id" (dumpsString id), dumpsMember "url" (dumpsString url),
    dumpsMember "content" (dumpsString body), dumpsMember "truncated" (dumpsBool truncated)]

/-- The longest beginning found to fit between two lengths. -/
def fitBody (fits : Nat → Bool) (lower upper : Nat) : Nat :=
  if h : lower < upper then
    if fits ((lower + upper + 1) / 2) then fitBody fits ((lower + upper + 1) / 2) upper
    else fitBody fits lower ((lower + upper + 1) / 2 - 1)
  else lower
termination_by upper - lower

/-- The beginning of a document that fits, the answer with it, and whether it was cut. -/
def renderBounded (id url body : Text) (providerTruncated : Bool) : Text × Text × Bool :=
  let bounded := body.take maxWebFetchContent
  let truncated := providerTruncated || decide (bounded.length < body.length)
  let rendered := renderFetched id url bounded truncated
  if rendered.length ≤ maxWebFetchOutput then (bounded, rendered, truncated)
  else
    let length := fitBody (fun n =>
      (renderFetched id url (bounded.take n) true).length ≤ maxWebFetchOutput) 0 bounded.length
    (bounded.take length, renderFetched id url (bounded.take length) true, true)

/-- The handler of `web_fetch`, once the provider has answered. -/
def webFetch (a : CitationAllocator) (url body : Text) (truncated : Bool) :
    Except String ToolOutput :=
  match UrlGrammar.canonicalHostname url with
  | none => .error "Validated Web URL has no hostname"
  | some hostname => do
      let (citation, _) ← a.allocate ("Fetched content from ".toList ++ hostname) url
      let (body, content, truncated) := renderBounded citation.id url body truncated
      ToolOutput.make content (.fetch body.length truncated) [citation]

/-- How a tool call ends. -/
inductive ToolStatus
  | success
  | error
  deriving DecidableEq, Repr

/-- Characters of a tool result. -/
def maxResultContent : Nat := 30000

/-- The result of a tool call. -/
structure ToolResult where
  callId : Text
  toolName : Text
  status : ToolStatus
  content : Text
  metadata : OutputMetadata
  /-- Message of an error. -/
  error : Option Text
  citations : List Citation
  bounded : content.length ≤ maxResultContent
  few : citations.length ≤ maxTurnCitations
  matched : status = .error ↔ error.isSome = true
  uncited : status = .error → citations = []

/-- What becomes of a tool call that does not end the Turn. -/
inductive ToolExecution
  | search (results : List WebSearchResult) (truncated : Bool)
  | fetch (url body : Text) (truncated : Bool)
  /-- Another tool succeeds; only web tools report sources. -/
  | other (content : Text)
  /-- The call is refused, fails or times out. -/
  | failure (message : Text) (short : message.length ≤ 2000)

/-- The result of a success. -/
def ToolOutput.result (output : ToolOutput) (callId toolName : Text) : ToolResult where
  callId := callId
  toolName := toolName
  status := .success
  content := output.content.take maxResultContent
  metadata := output.metadata
  error := none
  citations := output.citations
  bounded := by
    rw [List.length_take]
    exact Nat.min_le_left _ _
  few := output.few
  matched := iff_of_false (fun h => by cases h) fun h => by cases h
  uncited := fun h => by cases h

/-- The result of a failure. -/
def failureResult (callId toolName message : Text) (short : message.length ≤ 2000) :
    ToolResult where
  callId := callId
  toolName := toolName
  status := .error
  content := message
  metadata := .other
  error := some message
  citations := []
  bounded := by
    unfold maxResultContent
    omega
  few := Nat.zero_le _
  matched := ⟨fun _ => rfl, fun _ => rfl⟩
  uncited := fun _ => rfl

/-- Execute a tool call with an allocator; a handler that raises ends the Turn. -/
def execute (a : CitationAllocator) (callId toolName : Text) :
    ToolExecution → Except String ToolResult
  | .search results truncated => do
      let output ← webSearch a results truncated
      return output.result callId toolName
  | .fetch url body truncated => do
      let output ← webFetch a url body truncated
      return output.result callId toolName
  | .other content => do
      let output ← ToolOutput.make content .other []
      return output.result callId toolName
  | .failure message short => .ok (failureResult callId toolName message short)

/-- The citations collected so far, by identifier and by URL. -/
structure Collected where
  ordered : List Citation
  byId : Dict Text Citation
  byUrl : Dict Text Citation

namespace Collected

/-- Nothing is collected. -/
def empty : Collected := ⟨[], Dict.empty, Dict.empty⟩

/-- Collect one citation. -/
def add (c : Collected) (citation : Citation) : Except String Collected :=
  match c.byId.get? citation.id with
  | none =>
      if (c.byUrl.get? citation.url).any (·.id ≠ citation.id) then
        .error "One source URL cannot have multiple citation IDs."
      else if maxTurnCitations ≤ c.ordered.length then
        .error "Turn citations exceed the 128-source limit."
      else .ok ⟨c.ordered ++ [citation], c.byId.set citation.id citation,
        c.byUrl.set citation.url citation⟩
  | some previous =>
      if previous ≠ citation then
        .error ("Citation " ++ String.ofList citation.id ++ " has conflicting values.")
      else .ok c

/-- Collect the citations of a result; an error has none that count. -/
def addResult (c : Collected) (result : ToolResult) : Except String Collected :=
  if result.status = .success then result.citations.foldlM add c else .ok c

end Collected

/-- Every citation has the identifier of its place. -/
def isContiguous (citations : List Citation) : Bool :=
  citations.zipIdx.all fun citation => citation.1.id = sourceId (citation.2 + 1)

/-- Collect the citations of all results of a Turn. -/
def collectToolCitations (results : List ToolResult) : Except String (List Citation) := do
  let collected ← results.foldlM Collected.addResult .empty
  if isContiguous collected.ordered then return collected.ordered
  else throw "Turn citation identities must be contiguous."

/-- What the state of a Turn keeps of its tool calls. -/
structure AgentState where
  toolResults : List ToolResult
  citations : List Citation

/-- Why a Turn ends at a tool call. -/
inductive TurnFault
  /-- The allocator or the handler raised. -/
  | toolInvariant (message : String)
  /-- The collection of the citations raised. -/
  | citationAggregation (message : String)
  deriving DecidableEq, Repr

/-- A state before the first tool call. -/
def AgentState.initial : AgentState := ⟨[], []⟩

/-- Execute one tool call and collect the citations again. -/
def executeOneTool (s : AgentState) (callId toolName : Text) (execution : ToolExecution) :
    Except TurnFault AgentState :=
  match CitationAllocator.start s.citations with
  | .error message => .error (.toolInvariant message)
  | .ok a =>
      match execute a callId toolName execution with
      | .error message => .error (.toolInvariant message)
      | .ok result =>
          match collectToolCitations (s.toolResults ++ [result]) with
          | .error message => .error (.citationAggregation message)
          | .ok citations => .ok ⟨s.toolResults ++ [result], citations⟩

end AwesomeAgent.Agent
