import AwesomeAgent.Library.Dict
import AwesomeAgent.Modeling.Turns
import AwesomeAgent.Modeling.ToolNames

/-!
# Assembling a turn from the chunks of a stream

A provider sends a turn in chunks: pieces of text and reasoning, and for every tool call its
identifier, its name and pieces of its arguments in any chunks. The adapter tells of each
piece as it arrives and assembles the turn at the end.
-/

namespace AwesomeAgent.Modeling

/-- Token counts that a provider reports. -/
structure RawUsage where
  promptTokens : Int
  completionTokens : Int
  reasoningTokens : Int
  cachedTokens : Int
  deriving DecidableEq

/-- Whether a token count can be carried. -/
def RawUsage.fits (count : Int) : Prop := 0 ≤ count ∧ count ≤ maxJsonSafeInteger

instance (count : Int) : Decidable (RawUsage.fits count) := inferInstanceAs (Decidable (_ ∧ _))

/-- The usage of a turn, unless a count does not fit. -/
def usageOf (raw : RawUsage) : Option ModelUsage :=
  if h : RawUsage.fits raw.promptTokens ∧ RawUsage.fits raw.completionTokens ∧
      RawUsage.fits raw.reasoningTokens ∧ RawUsage.fits raw.cachedTokens then
    some ⟨raw.promptTokens.toNat, raw.completionTokens.toNat, raw.reasoningTokens.toNat,
      raw.cachedTokens.toNat, 0, 0, by
        obtain ⟨⟨-, h₁⟩, ⟨-, h₂⟩, ⟨-, h₃⟩, -, h₄⟩ := h
        omega⟩
  else none

/-- What a chunk tells of a tool call. -/
structure RawCall where
  index : Nat
  id : Option Text
  name : Option Text
  arguments : Option Text
  deriving DecidableEq

/-- The first choice of a chunk. -/
structure RawChoice where
  finishReason : Option String
  reasoning : Option Text
  content : Option Text
  toolCalls : List RawCall
  deriving DecidableEq

/-- A chunk of a stream; the response identifier may be missing or null. -/
structure Chunk where
  id : Option (Option Text)
  usage : Option RawUsage
  choice : Option RawChoice
  deriving DecidableEq

/-- What is read of a chunk at a time. -/
inductive Piece
  | responseId (id : Option Text)
  | usage (raw : RawUsage)
  | finishReason (reason : String)
  | reasoning (text : Text)
  | content (text : Text)
  | call (raw : RawCall)
  deriving DecidableEq

/-- The pieces of a chunk, in the order in which they are read. -/
def Chunk.pieces (chunk : Chunk) : List Piece :=
  chunk.id.toList.map Piece.responseId ++ chunk.usage.toList.map Piece.usage ++
    chunk.choice.toList.flatMap fun choice =>
      choice.finishReason.toList.map Piece.finishReason ++
        choice.reasoning.toList.map Piece.reasoning ++ choice.content.toList.map Piece.content ++
        choice.toolCalls.map Piece.call

/-- A tool call that is being assembled. -/
structure ToolAssembly where
  callId : Text
  name : Text
  arguments : Text
  started : Bool
  deriving DecidableEq

/-- A tool call of which nothing is known. -/
def ToolAssembly.empty : ToolAssembly := ⟨[], [], [], false⟩

/-- A turn that is being assembled. -/
structure Assembly where
  text : Text
  reasoning : Text
  reasoningStarted : Bool
  calls : Dict Nat ToolAssembly
  responseId : Option Text
  finishReason : Option String
  usage : ModelUsage

/-- A turn of which nothing is known. -/
def Assembly.empty : Assembly := ⟨[], [], false, .empty, none, none, .zero⟩

/-- The texts that an event may carry. -/
def fitsText (text : Text) : Prop := text.length ≤ maxTextLength

instance (text : Text) : Decidable (fitsText text) := inferInstanceAs (Decidable (_ ≤ _))

/-- Characters of a tool name in an event. -/
def maxToolNameLength : Nat := 200

namespace ToolAssembly

/-- Learn the identifier and the name of a call. -/
def learn (a : ToolAssembly) (names : ToolNames) (raw : RawCall) : ToolAssembly :=
  let callId := raw.id.getD []
  let name := raw.name.getD []
  { a with
    callId := if callId = [] then a.callId else callId
    name := if name = [] then a.name else names.decode name }

/-- Whether a call starts: its identifier and its name are known for the first time. -/
def starts (a : ToolAssembly) : Bool := !a.started && decide (a.callId ≠ [] ∧ a.name ≠ [])

/-- The events of a call with what was learned of it, and what is assembled of it then; nothing
if an event cannot be built. -/
def start (a : ToolAssembly) (index : Nat) : List ModelStreamEvent × Option ToolAssembly :=
  if a.starts then
    if a.callId.length ≤ maxCallIdLength ∧ a.name.length ≤ maxToolNameLength then
      ([.toolCallStarted index a.callId a.name], some { a with started := true })
    else ([], none)
  else ([], some a)

/-- Add a piece of the arguments. -/
def extend (a : ToolAssembly) (index : Nat) (arguments : Text) :
    List ModelStreamEvent × Option ToolAssembly :=
  if arguments = [] then ([], some a)
  else if fitsText arguments then
    ([.toolArgumentsDelta index arguments], some { a with arguments := a.arguments ++ arguments })
  else ([], none)

/-- Read what a chunk tells of a call. -/
def read (a : ToolAssembly) (names : ToolNames) (raw : RawCall) :
    List ModelStreamEvent × Option ToolAssembly :=
  match (a.learn names raw).start raw.index with
  | (events, none) => (events, none)
  | (events, some b) =>
      let (more, c) := b.extend raw.index (raw.arguments.getD [])
      (events ++ more, c)

end ToolAssembly

namespace Assembly

/-- Read a piece: its events, and what is assembled then unless it cannot be told or used. -/
def readPiece (names : ToolNames) (s : Assembly) :
    Piece → List ModelStreamEvent × Option Assembly
  | .responseId id => ([], some { s with responseId := id })
  | .usage raw => ([], (usageOf raw).map fun usage => { s with usage := usage })
  | .finishReason reason => ([], some { s with finishReason := some reason })
  | .reasoning text =>
      if text = [] then ([], some s)
      else
        let started := if s.reasoningStarted then [] else [.reasoningStarted]
        if fitsText text then
          (started ++ [.reasoningDelta text],
            some { s with reasoningStarted := true, reasoning := s.reasoning ++ text })
        else (started, none)
  | .content text =>
      if text = [] then ([], some s)
      else if fitsText text then
        ([.textDelta text], some { s with text := s.text ++ text })
      else ([], none)
  | .call raw =>
      let (events, a) := ((s.calls.get? raw.index).getD .empty).read names raw
      (events, a.map fun a => { s with calls := s.calls.set raw.index a })

end Assembly

/-- What was told of a stream so far, and what is assembled unless an exception was raised. -/
structure StreamReading where
  events : List ModelStreamEvent
  state : Option Assembly

/-- Read one more piece. -/
def StreamReading.step (names : ToolNames) (r : StreamReading) (piece : Piece) : StreamReading :=
  match r.state with
  | none => r
  | some s => ⟨r.events ++ (s.readPiece names piece).1, (s.readPiece names piece).2⟩

/-- Read pieces. -/
def readPieces (names : ToolNames) (pieces : List Piece) : StreamReading :=
  pieces.foldl (StreamReading.step names) ⟨[], some .empty⟩

/-- The stop reason of a finish reason. -/
def stopReason (reason : String) : StopReason :=
  if reason = "stop" then .completed
  else if reason = "tool_calls" then .toolCalls
  else if reason = "length" then .maxTokens
  else if reason = "content_filter" then .contentFilter
  else .unknown

/-- What any exception but an error of a provider is told as. -/
def unexpectedResponse : String := "Provider returned an unexpected response."

/-- The call that was assembled, or why there is none. -/
def completedCall (loads : Text → Option Json) (a : ToolAssembly) : Except String ToolCall :=
  if a.callId = [] ∨ a.name = [] ∨ a.started = false then
    .error "Provider returned an incomplete tool call."
  else
    match loads a.arguments with
    | none => .error "Provider returned malformed tool arguments."
    | some (.object _) =>
        if h : isToolCall a.callId a.name a.arguments = true then .ok ⟨_, _, _, h⟩
        else .error unexpectedResponse
    | some _ => .error "Provider tool arguments must be a JSON object."

/-- The calls that were assembled, in the order of their indexes. -/
def completedCalls (loads : Text → Option Json) (calls : Dict Nat ToolAssembly) :
    Except String (List ToolCall) :=
  (calls.entries.mergeSort fun a b => decide (a.1 ≤ b.1)).mapM fun e => completedCall loads e.2

/-- Characters of a response identifier. -/
def maxResponseIdLength : Nat := 512

/-- Whether a turn may have a response identifier. -/
def fitsResponseId (id : Option Text) : Prop := ∀ text ∈ id, text.length ≤ maxResponseIdLength

instance (id : Option Text) : Decidable (fitsResponseId id) :=
  match id with
  | none => isTrue nofun
  | some text => decidable_of_iff (text.length ≤ maxResponseIdLength) (by simp [fitsResponseId])

/-- The turn that was assembled, or why there is none. -/
def Assembly.turn (provider : ProviderId) (model : String) (loads : Text → Option Json)
    (s : Assembly) : Except String ModelTurn :=
  match s.finishReason with
  | none => .error "Provider stream ended without a finish reason."
  | some reason => do
      let calls ← completedCalls loads s.calls
      if fitsText s.text ∧ fitsResponseId s.responseId then
        return ⟨provider, model, s.text, calls, stopReason reason, s.usage, s.responseId,
          if s.reasoning ≠ [] ∧ calls ≠ [] then
            some ⟨provider, "chat.reasoning_content", s.reasoning⟩
          else none⟩
      else .error unexpectedResponse

/-- How a stream of a provider ends: it is exhausted, or raises an error that was classified. -/
inductive ChunksEnd
  | exhausted
  | raised (error : ModelErrorInfo)
  deriving DecidableEq

/-- What a stream ends with: a turn, or the error that is told. -/
def streamOutcome (provider : ProviderId) (model : String) (loads : Text → Option Json)
    (r : StreamReading) (ending : ChunksEnd) : Except ModelErrorInfo ModelTurn :=
  match r.state with
  | none => .error (providerProtocolError unexpectedResponse provider)
  | some s =>
      match ending with
      | .raised error => .error error
      | .exhausted =>
          match s.turn provider model loads with
          | .error message => .error (providerProtocolError message provider)
          | .ok turn => .ok turn

/-- The last event of a stream. -/
def lastEvent : Except ModelErrorInfo ModelTurn → ModelStreamEvent
  | .ok turn => .turnCompleted turn
  | .error error => .turnFailed error

/-- Stream a request: the events of the pieces, and then the turn or the failure. -/
def streamChunks (provider : ProviderId) (model : String) (names : ToolNames)
    (loads : Text → Option Json) (chunks : List Chunk) (ending : ChunksEnd) :
    List ModelStreamEvent :=
  let r := readPieces names (chunks.flatMap Chunk.pieces)
  r.events ++ [lastEvent (streamOutcome provider model loads r ending)]

end AwesomeAgent.Modeling
