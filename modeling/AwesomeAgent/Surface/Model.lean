import AwesomeAgent.Library.JsonText
import AwesomeAgent.Events.Emitter

/-!
# What the terminal client shows

Events as the client receives them, durable Threads as it reads them, the blocks of a
transcript, and the state that the user sees. Texts that streams build are UTF-16 code
units; identifiers and messages, which are only compared, are strings.
-/

namespace AwesomeAgent.Surface

/-- A text by its UTF-16 code units. -/
abbrev Text := List UInt16

/-- How an Operation, a Turn or a tool call ends. -/
inductive Outcome
  | completed
  | failed
  | cancelled
  deriving DecidableEq, Repr

/-- The token counts of a usage event. -/
structure Usage where
  inputTokens : Nat
  outputTokens : Nat
  reasoningTokens : Nat
  cacheReadTokens : Nat
  cacheWriteTokens : Nat
  webRequests : Nat
  deriving DecidableEq, Repr

/-- What a terminal tool event reports. -/
structure ToolResult where
  callId : String
  verb : String
  target : Option String
  outcome : String
  summary : String
  detail : Option String
  detailTruncatedCount : Option Nat
  durationMs : Nat
  errorCode : Option String
  deriving DecidableEq, Repr

/-- One choice of an interaction. -/
structure Choice where
  decision : String
  label : String
  description : Option String
  deriving DecidableEq, Repr

/-- What an interaction asks for. -/
structure InteractionRequest where
  interactionId : String
  interactionKind : String
  prompt : String
  operation : String
  target : String
  capability : Option String
  choices : List Choice
  deriving DecidableEq, Repr

/-- The payload of an event; a terminal payload carries the outcome that its type names. -/
inductive EventPayload
  | operationStarted
  | operationTerminal (outcome : Outcome)
  | turnStarted
  | turnTerminal (outcome : Outcome) (durationMs : Nat)
  | assistantTextDelta (text : Text)
  | assistantReasoningDelta (text : Text)
  | providerRetrying
  | toolStarted (callId toolName verb : String) (target : Option String)
  | toolTerminal (outcome : Outcome) (result : ToolResult)
  | contextPrepared
  | contextCompressed
  | usageUpdated (usage : Usage)
  | memoryStatus
  | interactionRequired (request : InteractionRequest)
  | interactionResolved (interactionId : String)
  | warning (code message : String)
  deriving DecidableEq, Repr

/-- Operation events name their Operation, Turn events their Thread and Turn. -/
def EventPayload.identified (payload : EventPayload)
    (threadId turnId operationId : Option String) : Bool :=
  match payload with
  | .operationStarted | .operationTerminal _ => operationId.isSome
  | .turnStarted | .turnTerminal _ _ => threadId.isSome && turnId.isSome
  | _ => true

/-- An event that passed the schema of the client, which takes no empty identifier. -/
structure EventEnvelope where
  sequence : Nat
  sessionId : String
  threadId : Option String
  turnId : Option String
  operationId : Option String
  clientMessageId : Option String
  timestamp : String
  payload : EventPayload
  identified : payload.identified threadId turnId operationId = true
  nonempty : some "" ∉ [threadId, turnId, operationId, clientMessageId]
  deriving DecidableEq

/-- Adjacent deltas of one Turn, or one delta alone. -/
structure CoalescedDelta where
  sessionId : String
  threadId : Option String
  turnId : Option String
  operationId : Option String
  reasoning : Bool
  text : Text
  firstTimestamp : String
  lastTimestamp : String
  firstSequence : Nat
  lastSequence : Nat
  deriving DecidableEq, Repr

/-- What the batcher emits. -/
inductive BatchedEvent
  | event (event : EventEnvelope)
  | delta (delta : CoalescedDelta)
  deriving DecidableEq

/-- The Operation that a batched event names. -/
def BatchedEvent.operationId : BatchedEvent → Option String
  | .event e => e.operationId
  | .delta d => d.operationId

/-- A source that an answer cites. -/
structure Citation where
  id : String
  title : String
  url : String
  deriving DecidableEq, Repr

/-- One change of a file, a directory or a link. -/
inductive ChangeDelta
  | textFile (path changeKind : String) (additions deletions : Nat)
  | binaryFile (path changeKind : String) (beforeBytes afterBytes : Nat)
  | directory (path changeKind : String)
  | symlink (path changeKind : String)
  deriving DecidableEq, Repr

/-- Where a user message stands. -/
inductive UserStatus
  | pending
  | accepted
  | failed
  | persisted
  deriving DecidableEq, Repr

/-- The outcome of a tool call in a transcript. -/
inductive ToolOutcome
  | running
  | success
  | error
  | cancelled
  deriving DecidableEq, Repr

/-- One call in a group of tools. -/
structure ToolItem where
  callId : String
  name : String
  verb : String
  target : Option String
  outcome : ToolOutcome
  startedAt : Option String
  presentationOutcome : Option String
  summary : String
  detail : Option String
  detailTruncatedCount : Option Nat
  durationMs : Option Nat
  errorCode : Option String
  deriving DecidableEq, Repr

/-- What a block of a transcript shows. The presentation of a command result is its JSON text. -/
inductive BlockContent
  | user (clientMessageId : String) (status : UserStatus) (text : Text)
      (errorMessage : Option String)
  | commandInput (submissionId text : String)
  | assistant (text : Text) (citations : Option (List Citation))
  | directCommand (command : Text)
  | tools (items : List ToolItem)
  | change (changeSetId lifecycle : String) (changes : List ChangeDelta)
  | thinking (startedAt : String) (text : Text) (durationMs : Option Nat)
  | worked (durationMs : Nat)
  | status (message : String)
  | commandResult (command presentation : String)
  | warning (code message : String) (count : Nat)
  | error (code message : String)
  | omittedHistory (message : String)
  deriving DecidableEq, Repr

/-- A block of a transcript. -/
structure TranscriptBlock where
  key : String
  content : BlockContent
  deriving DecidableEq, Repr

/-- The kinds of durable entries, with what only some of them have. -/
inductive EntryKind
  | userMessage (clientMessageId : String)
  | assistantMessage (citations : List Citation)
  | directCommand (operationId : Option String)
  deriving DecidableEq, Repr

/-- A durable entry of a Thread. -/
structure ThreadEntry where
  id : String
  sequence : Nat
  content : Text
  kind : EntryKind
  deriving DecidableEq, Repr

/-- The status of a durable Turn. -/
inductive TurnStatus
  | inProgress
  | ended (outcome : Outcome)
  deriving DecidableEq, Repr

/-- A durable Turn. -/
structure DurableTurn where
  id : String
  status : TurnStatus
  assistantEntryId : Option String
  terminationReason : Option String
  errorCode : Option String
  deriving DecidableEq, Repr

/-- A durable tool call. -/
structure ToolActivity where
  turnId : Option String
  operationId : String
  callId : String
  sequence : Nat
  toolName : String
  outcome : Outcome
  resultSummary : String
  errorCode : Option String
  durationMs : Nat
  createdAt : String
  deriving DecidableEq, Repr

/-- The summary of a change set. -/
structure ChangeSetSummary where
  changeSetId : String
  turnId : Option String
  operationId : Option String
  lifecycle : String
  changes : List ChangeDelta
  deriving DecidableEq, Repr

/-- The metadata of a Thread that the client compares. -/
structure ThreadRecord where
  id : String
  title : String
  deriving DecidableEq, Repr

/-- A page of a Thread: the answer of `thread.read`. -/
structure ThreadPage where
  thread : ThreadRecord
  entries : List ThreadEntry
  turns : List DurableTurn
  toolActivities : List ToolActivity
  changeSets : List ChangeSetSummary
  hasMore : Bool
  deriving DecidableEq, Repr

/-- The application as far as the client compares it. -/
structure ApplicationState where
  currentThreadId : Option String
  deriving DecidableEq, Repr

/-- The state of the connection. -/
inductive ConnectionState
  | idle
  | starting
  | handshaking
  | trustRequired
  | ready
  | fatal
  | closed
  deriving DecidableEq, Repr

/-- A warning and how often it came. -/
structure SurfaceWarning where
  id : String
  code : String
  message : String
  count : Nat
  operationId : Option String
  deriving DecidableEq, Repr

/-- The status of an Operation, a Turn or a tool call. -/
inductive Status
  | active
  | ended (outcome : Outcome)
  deriving DecidableEq, Repr

/-- A tool call of a live Turn; a running tool is active. -/
structure ToolProjection where
  callId : String
  toolName : String
  status : Status
  startedAt : String
  verb : String
  target : Option String
  outcome : Option String
  summary : String
  detail : Option String
  detailTruncatedCount : Option Nat
  durationMs : Option Nat
  errorCode : Option String
  deriving DecidableEq, Repr

/-- An interval of reasoning; it is open until it has a duration. -/
structure ThinkingProjection where
  id : String
  startedAt : String
  text : Text
  durationMs : Option Nat
  deriving DecidableEq, Repr

/-- A segment of the answer. -/
structure AssistantProjection where
  id : String
  text : Text
  deriving DecidableEq, Repr

/-- An item of a live Turn. -/
inductive TimelineProjection
  | thinking (item : ThinkingProjection)
  | tool (item : ToolProjection)
  | assistant (item : AssistantProjection)
  deriving DecidableEq, Repr

/-- A live Turn. -/
structure TurnProjection where
  id : String
  status : Status
  startedAt : String
  timeline : List TimelineProjection
  thinkingSequence : Nat
  durationMs : Option Nat
  deriving DecidableEq, Repr

/-- A live Operation. -/
structure OperationProjection where
  id : String
  status : Status
  turn : Option TurnProjection
  deriving DecidableEq, Repr

/-- Why the connection is lost. -/
structure FatalState where
  code : String
  message : String
  deriving DecidableEq, Repr

/-- An interaction that waits for the user. -/
structure PendingInteraction where
  request : InteractionRequest
  threadId : Option String
  turnId : Option String
  operationId : Option String
  deriving DecidableEq, Repr

/-- How the core process ended. -/
structure CoreExit where
  code : Option Int
  signal : Option String
  deriving DecidableEq, Repr

/-- The state that the user sees. -/
structure SurfaceState where
  connection : ConnectionState
  threadGeneration : Nat
  application : Option ApplicationState
  thread : Option ThreadPage
  activeOperation : Option OperationProjection
  eventSequence : Nat
  usage : Option Usage
  pendingInteraction : Option PendingInteraction
  warnings : List SurfaceWarning
  committedTranscript : Option (List TranscriptBlock)
  fatal : Option FatalState
  coreExit : Option CoreExit
  deriving DecidableEq, Repr

/-- The state before the connection starts. -/
def initialSurfaceState : SurfaceState where
  connection := .idle
  threadGeneration := 0
  application := none
  thread := none
  activeOperation := none
  eventSequence := 0
  usage := none
  pendingInteraction := none
  warnings := []
  committedTranscript := none
  fatal := none
  coreExit := none

end AwesomeAgent.Surface
