import AwesomeAgent.Library.Json

/-!
# Model requests, turns and stream events

What is sent to a provider and what comes back: messages with tool calls, a completed turn
with its usage, the errors of a provider and the events of a stream.
-/

namespace AwesomeAgent.Modeling

/-- Text as code points. -/
abbrev Text := List Char

instance : LawfulBEq Text := inferInstance

/-- The curated providers. -/
inductive ProviderId
  | deepseek
  | kimi
  deriving DecidableEq, Repr

/-- Characters of a tool name after the first. -/
def isToolNameChar (c : Char) : Bool :=
  c.isLower || c.isDigit || decide (c ∈ ['_', '.', '-'])

/-- The names that a tool may have. -/
def isToolName : Text → Bool
  | [] => false
  | c :: rest => c.isLower && decide (rest.length ≤ 199) && rest.all isToolNameChar

/-- A tool that is offered to a model. -/
structure ToolDefinition where
  name : Text
  description : Text
  inputSchema : Json
  named : isToolName name = true

/-- Characters of a call identifier. -/
def maxCallIdLength : Nat := 256

/-- Characters of a text that a turn, a message or an event may hold. -/
def maxTextLength : Nat := 1000000

/-- Whether a tool call may have these values. -/
def isToolCall (callId name argumentsJson : Text) : Bool :=
  decide (callId ≠ []) && decide (callId.length ≤ maxCallIdLength) && isToolName name &&
    decide (argumentsJson.length ≤ maxTextLength)

/-- A call of a tool. -/
structure ToolCall where
  callId : Text
  name : Text
  argumentsJson : Text
  valid : isToolCall callId name argumentsJson = true
  deriving DecidableEq

/-- A message to or from a model. -/
inductive ModelMessage
  | system (content : Text)
  | user (content : Text)
  | assistant (content : Text) (toolCalls : List ToolCall)
  | toolResult (callId content : Text) (isError : Bool) (artifactRefs : List Text)
  deriving DecidableEq

/-- Why a model stopped. -/
inductive StopReason
  | completed
  | toolCalls
  | maxTokens
  | contentFilter
  | unknown
  deriving DecidableEq, Repr

/-- Largest integer that JSON carries exactly. -/
def maxJsonSafeInteger : Nat := 9007199254740991

/-- Tokens of a turn, and the retries it took. The retries are counted after the usage was
validated. -/
structure ModelUsage where
  inputTokens : Nat
  outputTokens : Nat
  reasoningTokens : Nat
  cacheReadTokens : Nat
  cacheWriteTokens : Nat
  providerRetries : Nat
  safe : max (max inputTokens outputTokens)
    (max reasoningTokens (max cacheReadTokens cacheWriteTokens)) ≤ maxJsonSafeInteger
  deriving DecidableEq, Repr

/-- Most retries that a usage may report. -/
def maxProviderRetries : Nat := 6

/-- No tokens and no retries. -/
def ModelUsage.zero : ModelUsage := ⟨0, 0, 0, 0, 0, 0, by decide⟩

/-- What a provider needs to continue a turn: its reasoning. -/
structure ContinuationState where
  provider : ProviderId
  kind : String
  reasoningContent : Text
  deriving DecidableEq

/-- A completed turn of a model. -/
structure ModelTurn where
  provider : ProviderId
  model : String
  content : Text
  toolCalls : List ToolCall
  stopReason : StopReason
  usage : ModelUsage
  responseId : Option Text
  continuation : Option ContinuationState
  deriving DecidableEq

/-- The provider and the model that are selected. -/
structure SelectedModel where
  provider : ProviderId
  model : String
  deriving DecidableEq, Repr

/-- Kinds of provider errors. -/
inductive ModelErrorCode
  | connection
  | timeout
  | authentication
  | rateLimit
  | transient
  | invalidRequest
  | contextLength
  | providerProtocol
  deriving DecidableEq, Repr

/-- The text of an error code. -/
def ModelErrorCode.value : ModelErrorCode → String
  | .connection => "connection"
  | .timeout => "timeout"
  | .authentication => "authentication"
  | .rateLimit => "rate_limit"
  | .transient => "transient"
  | .invalidRequest => "invalid_request"
  | .contextLength => "context_length"
  | .providerProtocol => "provider_protocol"

/-- A provider error; its code tells whether another attempt may help. -/
structure ModelErrorInfo where
  code : ModelErrorCode
  message : String
  provider : ProviderId
  statusCode : Option Nat
  deriving DecidableEq, Repr

/-- Whether another attempt may help. -/
def ModelErrorInfo.retryable (info : ModelErrorInfo) : Bool :=
  decide (info.code ∈ [.connection, .timeout, .rateLimit, .transient])

/-- An error of the protocol with a provider. -/
def providerProtocolError (message : String) (provider : ProviderId) : ModelErrorInfo :=
  ⟨.providerProtocol, message, provider, none⟩

/-- The events of a stream. -/
inductive ModelStreamEvent
  | reasoningStarted
  | reasoningDelta (text : Text)
  | textDelta (text : Text)
  | toolCallStarted (index : Nat) (callId name : Text)
  | toolArgumentsDelta (index : Nat) (text : Text)
  | turnCompleted (turn : ModelTurn)
  | turnFailed (error : ModelErrorInfo)
  deriving DecidableEq

/-- Events that a user sees. -/
def ModelStreamEvent.visible : ModelStreamEvent → Bool
  | .turnCompleted _ | .turnFailed _ => false
  | _ => true

/-- The turn that an event completes. -/
def ModelStreamEvent.completed : ModelStreamEvent → Option ModelTurn
  | .turnCompleted turn => some turn
  | _ => none

end AwesomeAgent.Modeling
