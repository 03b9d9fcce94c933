import AwesomeAgent.Agent.CitedAnswers
import AwesomeAgent.Context.Builder
import AwesomeAgent.Modeling.Gateway

/-!
# The graph of the agent

A Turn runs through the nodes of a graph: its context is prepared, a model is called, its tool
calls are executed one by one, the context is compressed when it is too long, and the answer is
finalized. Each node takes the state of the Turn and an answer of the world, and the state that
it leaves decides which node follows.
-/

namespace AwesomeAgent.AgentGraph

open Agent (UrlGrammar Citation CitationAllocator ToolResult ToolExecution failureResult
  collectToolCitations validateAnswerCitations maxFinalAnswer)
open Context (ContextManifestItem ContextRequest ContextError PreparedContext estimateMessages)
open Modeling (Text ModelMessage ToolCall ToolDefinition StopReason ContinuationState ModelTurn
  GatewayEvent CallState)
open Modeling.ModelGateway (StreamRun)

/-- The budgets of a Turn. -/
structure TurnBudget where
  modelCalls : Nat
  toolCalls : Nat
  providerRetries : Nat
  compressions : Nat
  activeExecutionSeconds : Rat
  bounded : (1 ≤ modelCalls ∧ modelCalls ≤ 256) ∧ (1 ≤ toolCalls ∧ toolCalls ≤ 512) ∧
    providerRetries ≤ 6 ∧ compressions ≤ 10 ∧
    0 < activeExecutionSeconds ∧ activeExecutionSeconds ≤ 21600

/-- The budgets that the stream of a model call is charged to. -/
def TurnBudget.call (budget : TurnBudget) : Modeling.TurnBudget :=
  ⟨budget.modelCalls, budget.providerRetries⟩

/-- Why a context is compressed. -/
inductive CompressionReason
  | automatic
  | contextLength
  deriving DecidableEq, Repr

variable [UrlGrammar]

/-- The state of a Turn. -/
structure AgentState where
  contextManifest : List ContextManifestItem
  contextEstimatedTokens : Nat
  contextEffectiveLimit : Nat
  compressionRequested : Bool
  compressionReason : Option CompressionReason
  messages : List ModelMessage
  continuation : Option ContinuationState
  pendingToolCalls : List ToolCall
  nextToolIndex : Nat
  toolResults : List ToolResult
  citations : List Citation
  modelCalls : Nat
  toolCalls : Nat
  webRequests : Nat
  providerRetries : Nat
  compressions : Nat
  activeExecutionSeconds : Rat
  finalAnswer : Option Text
  terminationReason : Option String

/-- The state of a new Turn. -/
def newAgentState : AgentState where
  contextManifest := []
  contextEstimatedTokens := 0
  contextEffectiveLimit := 0
  compressionRequested := false
  compressionReason := none
  messages := []
  continuation := none
  pendingToolCalls := []
  nextToolIndex := 0
  toolResults := []
  citations := []
  modelCalls := 0
  toolCalls := 0
  webRequests := 0
  providerRetries := 0
  compressions := 0
  activeExecutionSeconds := 0
  finalAnswer := none
  terminationReason := none

/-! ## Budgets -/

/-- The limits that end the ordinary loop of model and tools. -/
inductive LoopLimit
  | model
  | tool
  | activeTime
  deriving DecidableEq, Repr

/-- The text of a limit. -/
def LoopLimit.value : LoopLimit → String
  | .model => "model_budget_exhausted"
  | .tool => "tool_budget_exhausted"
  | .activeTime => "active_time_budget_exhausted"

/-- The limit of the loop that is reached. -/
def loopExhaustion (s : AgentState) (budget : TurnBudget) : Option LoopLimit :=
  if budget.modelCalls ≤ s.modelCalls then some .model
  else if budget.toolCalls ≤ s.toolCalls then some .tool
  else if budget.activeExecutionSeconds ≤ s.activeExecutionSeconds then some .activeTime
  else none

/-- Whether a model may be called, and how. -/
inductive BudgetDecision
  | refused (terminationReason : String)
  | allowed (toolsEnabled reservedFinal : Bool)
  deriving DecidableEq, Repr

/-- Decide about a model call. -/
def modelCallDecision (s : AgentState) (budget : TurnBudget) (toolsRequested : Bool) :
    BudgetDecision :=
  if budget.modelCalls ≤ s.modelCalls then .refused "model_budget_exhausted"
  else
    let reserved := decide (budget.activeExecutionSeconds ≤ s.activeExecutionSeconds) ||
      decide (s.modelCalls = budget.modelCalls - 1)
    .allowed (toolsRequested && !reserved) reserved

/-- The decision of the model node: an exhausted loop has its last call without tools. -/
def nodeDecision (s : AgentState) (budget : TurnBudget) (toolsRequested : Bool) :
    BudgetDecision :=
  if (loopExhaustion s budget).isSome ∧ s.modelCalls < budget.modelCalls then
    .allowed false true
  else modelCallDecision s budget toolsRequested

/-- Charge an attempt at a model with its retries. -/
def chargeModelAttempt (s : AgentState) (providerRetries : Nat) : AgentState :=
  { s with
    modelCalls := s.modelCalls + (1 + providerRetries)
    providerRetries := s.providerRetries + providerRetries }

/-- Add a segment of active time; the clock never runs backwards. -/
def addActiveSegment (s : AgentState) (elapsed : Rat) : Option AgentState :=
  if elapsed < 0 then none
  else some { s with activeExecutionSeconds := s.activeExecutionSeconds + elapsed }

/-! ## The tool tail -/

/-- What reading a tool tail has found. -/
structure TailScan where
  outstanding : List ToolCall
  latestCalls : List ToolCall
  seenCallIds : List Text
  observedResults : List (Text × Text × Bool)

/-- Note the calls of an answer; no identifier comes back. -/
def noteCalls (seen : List Text) : List ToolCall → Option (List Text)
  | [] => some seen
  | call :: rest => if call.callId ∈ seen then none else noteCalls (call.callId :: seen) rest

/-- Read a message of a tool tail. -/
def TailScan.read (t : TailScan) (isLast : Bool) : ModelMessage → Option TailScan
  | .assistant _ calls =>
      if t.outstanding ≠ [] ∨ (calls = [] ∧ isLast = false) then none
      else (noteCalls t.seenCallIds calls).map fun seen =>
        { t with outstanding := calls, latestCalls := calls, seenCallIds := seen }
  | .toolResult callId content isError artifactRefs =>
      match t.outstanding with
      | [] => none
      | expected :: outstanding =>
          if callId ≠ expected.callId ∨ artifactRefs ≠ [] then none
          else some { t with
            outstanding := outstanding
            observedResults := t.observedResults ++ [(callId, content, isError)] }
  | _ => none

/-- Read the messages of a tool tail. -/
def TailScan.readAll (t : TailScan) : List ModelMessage → Option TailScan
  | [] => some t
  | message :: rest => (t.read rest.isEmpty message).bind fun t => t.readAll rest

/-- What an observation shows of a result. -/
def shownResult (result : ToolResult) : Text × Text × Bool :=
  (result.callId, result.content, result.status = .error)

/-- A tool tail agrees with the calls that are pending and with the results. -/
def frozenMessageTailIsValid (messages : List ModelMessage) (pending : List ToolCall)
    (nextToolIndex : Nat) (results : List ToolResult) : Bool :=
  if messages = [] then decide (pending = [] ∧ nextToolIndex = 0) && results.isEmpty
  else
    match (TailScan.mk [] [] [] []).readAll messages with
    | none => false
    | some t => decide (pending = t.latestCalls ∧
        nextToolIndex = t.latestCalls.length - t.outstanding.length ∧
        results.map shownResult = t.observedResults)

/-- The messages behind the context of a Turn. -/
def activeTurnToolTail (s : AgentState) : Option (List ModelMessage) :=
  let tail := s.messages.drop s.contextManifest.length
  if s.contextManifest.length ≤ s.messages.length ∧
      frozenMessageTailIsValid tail s.pendingToolCalls s.nextToolIndex s.toolResults = true then
    some tail
  else none

/-! ## Answers of the world -/

/-- How the compaction of a Thread ends. -/
inductive CompactionAnswer
  /-- There is a summary, which is stored unless another one was; the context is packed from
  the sources of the request. -/
  | completed (providerRetries : Nat) (stored : Bool) (request : ContextRequest)
  | unfinished (noop : Bool) (providerRetries : Nat) (errorCode : Option String)

/-- The retries that a compaction reports. -/
def CompactionAnswer.providerRetries : CompactionAnswer → Nat
  | .completed providerRetries _ _ | .unfinished _ providerRetries _ => providerRetries

/-- How the finalizer of an answer ends. -/
inductive FinalizerAnswer
  | failed
  | finished (finalAnswer : Text) (modelCalls providerRetries : Nat)

/-- What the world answers to a node. -/
inductive Answer
  | context (request : ContextRequest)
  | compaction (answer : CompactionAnswer)
  | stream (toolCatalog : List ToolDefinition) (run : StreamRun) (elapsed : Rat)
  | tool (execution : ToolExecution) (webRequests : Nat) (elapsed : Rat)
  | finalizer (answer : FinalizerAnswer)

/-- What the nodes use: the JSON text of messages, and which texts are JSON objects. -/
structure Runtime where
  dump : ModelMessage → Text
  isJsonObject : Text → Bool
  budget : TurnBudget

/-! ## Preparing and compressing a context -/

variable [ContentHash] (runtime : Runtime)

/-- Take over a context. -/
def withContext (s : AgentState) (prepared : PreparedContext) : AgentState :=
  { s with
    messages := prepared.messages
    contextManifest := prepared.manifest
    contextEstimatedTokens := prepared.estimatedInputTokens
    contextEffectiveLimit := prepared.effectiveInputLimit }

/-- Prepare the context of a Turn that has none. -/
def prepareContext (s : AgentState) (request : ContextRequest) : Option AgentState :=
  if s.messages ≠ [] then some s
  else
    match Context.prepare runtime.dump request with
    | .error _ => none
    | .ok prepared => some { withContext s prepared with
        compressionRequested := prepared.compressionRecommended
        compressionReason := if prepared.compressionRecommended then some .automatic else none }

/-- The result of a compression. -/
structure AgentCompressionResult where
  completed : Bool
  attempted : Bool
  prepared : Option PreparedContext
  providerRetries : Nat
  errorCode : Option String

/-- Put the tool tail behind a context. -/
def appendToolTail (prepared : PreparedContext) (toolTail : List ModelMessage) :
    Except ContextError PreparedContext :=
  let estimated := prepared.estimatedInputTokens + estimateMessages runtime.dump toolTail
  if prepared.effectiveInputLimit < estimated then
    .error (.overflow
      "Prepared context and active Turn tool tail exceed the effective input limit.")
  else
    .ok { prepared with
      messages := prepared.messages ++ toolTail
      estimatedInputTokens := estimated }

/-- Build the context behind a new summary. -/
def rebuiltContext (request : ContextRequest) (toolTail : List ModelMessage) :
    Except ContextError PreparedContext := do
  let base ← Context.prepare runtime.dump
    { request with reservedInputTokens := estimateMessages runtime.dump toolTail }
  appendToolTail runtime base toolTail

/-- Compress the context of a state; other faults than overflows are raised. -/
def compress (s : AgentState) (answer : CompactionAnswer) : Option AgentCompressionResult :=
  match activeTurnToolTail s with
  | none => some ⟨false, false, none, 0, some "context_unrecoverable"⟩
  | some toolTail =>
      match answer with
      | .unfinished noop retries errorCode => some ⟨false, !noop, none, retries, errorCode⟩
      | .completed retries false _ =>
          some ⟨false, true, none, retries, some "compression_conflict"⟩
      | .completed retries true request =>
          match rebuiltContext runtime request toolTail with
          | .ok prepared => some ⟨true, true, some prepared, retries, none⟩
          | .error (.overflow _) =>
              some ⟨false, true, none, retries, some "context_unrecoverable"⟩
          | .error _ => none

/-- The retries that a compression may take. -/
def maxCompressionRetries (s : AgentState) : Nat :=
  min (runtime.budget.providerRetries - s.providerRetries)
    (runtime.budget.modelCalls - s.modelCalls - 2)

/-- The request for a compression is settled. -/
def settleRequest (s : AgentState) : AgentState :=
  { s with compressionRequested := false, compressionReason := none }

/-- Charge a compression that was attempted. -/
def chargeCompression (s : AgentState) (result : AgentCompressionResult) : AgentState :=
  if result.attempted then
    chargeModelAttempt { s with compressions := s.compressions + 1 } result.providerRetries
  else s

/-- The budgets leave a compression out. -/
def skipsCompression (s : AgentState) : Bool :=
  decide (runtime.budget.modelCalls - 1 ≤ s.modelCalls) ||
    decide (runtime.budget.compressions ≤ s.compressions)

/-- What a compression leaves. -/
def applyCompression (s : AgentState) (result : AgentCompressionResult) : AgentState :=
  let reason := s.compressionReason.getD .automatic
  let charged := settleRequest (chargeCompression s result)
  match result.completed, result.prepared with
  | true, some prepared => withContext charged prepared
  | _, _ =>
      if result.errorCode.getD "compression_unavailable" = "context_unrecoverable" ∨
          reason = .contextLength ∨ (0 < charged.contextEffectiveLimit ∧
            charged.contextEffectiveLimit < charged.contextEstimatedTokens) then
        { charged with terminationReason := some "context_unrecoverable" }
      else charged

/-- Compress the context. -/
def compressContext (s : AgentState) (answer : CompactionAnswer) : Option AgentState :=
  if skipsCompression runtime s then
    if s.compressionReason.getD .automatic = .contextLength then
      some { settleRequest s with terminationReason := some "context_unrecoverable" }
    else some (settleRequest s)
  else (compress runtime s answer).map (applyCompression s)

/-! ## Calling a model -/

/-- Calls that are all executed are forgotten. -/
def forgetExecuted (s : AgentState) : AgentState :=
  if s.pendingToolCalls.length ≤ s.nextToolIndex then
    { s with pendingToolCalls := [], nextToolIndex := 0 }
  else s

/-- What is sent to a model. -/
structure ModelRequest where
  messages : List ModelMessage
  tools : List ToolDefinition
  toolChoiceAuto : Bool
  continuation : Option ContinuationState

/-- The request of the model node, if the budgets allow a call. -/
def modelRequest (s : AgentState) (toolCatalog : List ToolDefinition) : Option ModelRequest :=
  match nodeDecision (forgetExecuted s) runtime.budget (!toolCatalog.isEmpty) with
  | .refused _ => none
  | .allowed toolsEnabled _ =>
      let tools := if toolsEnabled then toolCatalog else []
      some ⟨(forgetExecuted s).messages, tools, !tools.isEmpty, (forgetExecuted s).continuation⟩

/-- The counters that the stream of a model call reads. -/
def callState (s : AgentState) : CallState :=
  ⟨s.modelCalls, s.providerRetries, s.toolResults.map (·.callId)⟩

/-- The text that a stream shows before it is blocked. -/
def visibleText (budget : Modeling.TurnBudget) (calls : CallState) : List GatewayEvent → Text
  | [] => []
  | .retrying .. :: rest =>
      if budget.modelCalls ≤ calls.modelCalls ∨ budget.providerRetries ≤ calls.providerRetries then
        []
      else visibleText budget calls.chargeProviderRetry rest
  | .model (.textDelta text) :: rest => text ++ visibleText budget calls rest
  | .model _ :: rest => visibleText budget calls rest

/-- One text, or another if it is empty. -/
def orText (text other : Text) : Text := if text = [] then other else text

/-- Stop at a model call. -/
def stopAtModel (s : AgentState) (visible : Text) (reason : String) : AgentState :=
  { s with
    finalAnswer := if visible = [] then s.finalAnswer else some visible
    terminationReason := some reason }

/-- The text of a stop reason. -/
def stopReasonValue : StopReason → String
  | .completed => "completed"
  | .toolCalls => "tool_calls"
  | .maxTokens => "max_tokens"
  | .contentFilter => "content_filter"
  | .unknown => "unknown"

/-- Take over a turn of a model. -/
def acceptTurn (s : AgentState) (reservedFinal : Bool) (visible : Text) (turn : ModelTurn) :
    AgentState :=
  let message := ModelMessage.assistant turn.content turn.toolCalls
  let answered := { s with
    continuation := turn.continuation
    messages := s.messages ++ [message]
    contextEstimatedTokens :=
      s.contextEstimatedTokens + estimateMessages runtime.dump [message] }
  let answer := orText turn.content visible
  if reservedFinal then
    { answered with pendingToolCalls := [], nextToolIndex := 0, finalAnswer := some answer }
  else if turn.toolCalls = [] then
    { answered with
      pendingToolCalls := []
      nextToolIndex := 0
      finalAnswer := some answer
      terminationReason := some (stopReasonValue turn.stopReason) }
  else { answered with pendingToolCalls := turn.toolCalls, nextToolIndex := 0 }

/-- The state behind the stream of a model call. -/
def settleCall (s : AgentState) (reservedFinal : Bool) (visible : Text) :
    Except Modeling.CallFault ModelTurn → Option AgentState
  | .ok turn => some (acceptTurn runtime s reservedFinal visible turn)
  | .error (.blocked reason) => some (stopAtModel s visible reason)
  | .error (.failed error) =>
      if error.code = .contextLength then
        some { s with
          compressionRequested := true
          compressionReason := some .contextLength
          terminationReason := none }
      else some (stopAtModel s visible ("model_" ++ error.code.value))
  | .error .protocol => some (stopAtModel s visible "model_provider_protocol")
  | .error .cancelled | .error .exception => none

/-- The last call of an exhausted loop is marked. -/
def markReserved (s : AgentState) (budget : TurnBudget) (reservedFinal : Bool) : AgentState :=
  let reason := ((loopExhaustion s budget).map LoopLimit.value).getD "budget_final_response"
  if reservedFinal then { s with terminationReason := some reason } else s

/-- Take over the counters of a model call. -/
def withCounters (s : AgentState) (calls : CallState) : AgentState :=
  { s with modelCalls := calls.modelCalls, providerRetries := calls.providerRetries }

/-- Call a model. -/
def callModel (s : AgentState) (toolCatalog : List ToolDefinition) (run : StreamRun)
    (elapsed : Rat) : Option AgentState :=
  let s := forgetExecuted s
  match nodeDecision s runtime.budget (!toolCatalog.isEmpty) with
  | .refused reason => some { s with terminationReason := some reason }
  | .allowed _ reservedFinal =>
      let marked := markReserved s runtime.budget reservedFinal
      let called := Modeling.callModel runtime.budget.call (callState s) run
      let visible := visibleText runtime.budget.call ((callState s).chargeModelAttempt 0) run.events
      (addActiveSegment (withCounters marked called.1) elapsed).bind fun timed =>
        settleCall runtime timed reservedFinal visible called.2

/-! ## Executing a tool call -/

/-- What is said of a call that is not executed. -/
def notExecutedMessage (limit : LoopLimit) : Text :=
  "Tool call was not executed: ".toList ++ limit.value.toList ++ ['.']

omit [UrlGrammar] [ContentHash] in
/-- The message of a call that was not executed is short. -/
theorem notExecutedMessage_short (limit : LoopLimit) :
    (notExecutedMessage limit).length ≤ 2000 := by
  cases limit <;> decide

/-- What is said of arguments that are no object. -/
def invalidArgumentsMessage : Text := "Tool arguments must be a JSON object.".toList

omit [UrlGrammar] [ContentHash] in
/-- The message of invalid arguments is short. -/
theorem invalidArgumentsMessage_short : invalidArgumentsMessage.length ≤ 2000 := by decide

/-- Record the result of a call with its observation. -/
def recordResult (s : AgentState) (result : ToolResult) : Option AgentState :=
  let observation := ModelMessage.toolResult result.callId result.content
    (result.status = .error) []
  (collectToolCitations (s.toolResults ++ [result])).toOption.map fun citations => { s with
    toolResults := s.toolResults ++ [result]
    citations := citations
    messages := s.messages ++ [observation]
    contextEstimatedTokens :=
      s.contextEstimatedTokens + estimateMessages runtime.dump [observation]
    nextToolIndex := s.nextToolIndex + 1 }

/-- Execute a call with the sources of the Turn. -/
def executeCall (s : AgentState) (call : ToolCall) (execution : ToolExecution) :
    Option ToolResult :=
  (CitationAllocator.start s.citations).toOption.bind fun allocator =>
    (Agent.execute allocator call.callId call.name execution).toOption

/-- Execute the next tool call. -/
def executeOneTool (s : AgentState) (execution : ToolExecution) (webRequests : Nat)
    (elapsed : Rat) : Option AgentState :=
  match s.pendingToolCalls[s.nextToolIndex]? with
  | none => some s
  | some call =>
      match loopExhaustion s runtime.budget with
      | some limit =>
          recordResult runtime { s with terminationReason := some limit.value }
            (failureResult call.callId call.name (notExecutedMessage limit)
              (notExecutedMessage_short limit))
      | none =>
          let charged := { s with toolCalls := s.toolCalls + 1 }
          if runtime.isJsonObject call.argumentsJson then
            (executeCall charged call execution).bind fun result =>
              (addActiveSegment { charged with webRequests := webRequests } elapsed).bind
                fun timed => recordResult runtime timed result
          else
            recordResult runtime charged (failureResult call.callId call.name
              invalidArgumentsMessage invalidArgumentsMessage_short)

/-! ## Finalizing an answer -/

/-- A termination that no answer is finalized for. -/
def failedTermination (s : AgentState) : Bool :=
  (s.terminationReason.getD "").startsWith "model_" ||
    s.terminationReason == some "context_unrecoverable"

/-- A result of the finalizer keeps its contract and the budgets that are left. -/
def acceptsFinalization (s : AgentState) (finalAnswer : Text) (modelCalls providerRetries : Nat) :
    Bool :=
  let remainingCalls :=
    if runtime.budget.activeExecutionSeconds ≤ s.activeExecutionSeconds then 0
    else runtime.budget.modelCalls - s.modelCalls
  finalAnswer.any (fun c => !isSpace c) && decide (finalAnswer.length ≤ maxFinalAnswer) &&
    decide (modelCalls ≤ 1) && (decide (modelCalls ≠ 0) || decide (providerRetries = 0)) &&
    decide (providerRetries ≤ runtime.budget.providerRetries - s.providerRetries) &&
    decide (modelCalls + providerRetries ≤ remainingCalls)

/-- Take over a result of the finalizer. -/
def applyFinalization (s : AgentState) : FinalizerAnswer → AgentState
  | .failed => s
  | .finished finalAnswer modelCalls providerRetries =>
      if acceptsFinalization runtime s finalAnswer modelCalls providerRetries then
        let s := { s with finalAnswer := some finalAnswer }
        if modelCalls = 0 then s else chargeModelAttempt s providerRetries
      else s

/-- A reason is always given. -/
def withReason (s : AgentState) : AgentState :=
  { s with terminationReason := some (s.terminationReason.getD "completed") }

/-- Finalize the answer of a Turn. -/
def finalize (s : AgentState) (answer : FinalizerAnswer) : Option AgentState :=
  if s.finalAnswer.getD [] ≠ [] ∧ failedTermination s = false then
    (collectToolCitations s.toolResults).toOption.map fun citations =>
      let finalized := applyFinalization runtime { s with citations := citations } answer
      withReason { finalized with
        finalAnswer := finalized.finalAnswer.map fun answer =>
          (validateAnswerCitations answer citations).1 }
  else some (withReason s)

/-! ## The graph -/

/-- The nodes of the graph; `ended` is its end. -/
inductive Node
  | prepareContext
  | compressContext
  | callModel
  | executeOneTool
  | finalize
  | ended
  deriving DecidableEq, Repr

/-- Where to go behind the model. -/
def routeAfterModel (s : AgentState) : Node :=
  if s.compressionRequested then .compressContext
  else if s.terminationReason.isSome ∧ s.pendingToolCalls = [] then .finalize
  else if s.pendingToolCalls ≠ [] then .executeOneTool
  else .finalize

/-- Where to go with a prepared context. -/
def routeAfterPrepare (s : AgentState) : Node :=
  if s.compressionRequested then .compressContext else .callModel

/-- Where to go behind a compression. -/
def routeAfterCompression (s : AgentState) : Node :=
  if s.terminationReason.isSome then .finalize else .callModel

/-- Where to go behind a tool call. -/
def routeAfterTool (s : AgentState) : Node :=
  if s.nextToolIndex < s.pendingToolCalls.length then .executeOneTool else .callModel

/-- A state before a node. -/
structure Position where
  node : Node
  state : AgentState

/-- Go to the node that a state leads to. -/
def goto (route : AgentState → Node) (s : Option AgentState) : Option Position :=
  s.map fun s => ⟨route s, s⟩

/-- One node of the graph; nothing when the node raises or the answer is for another one. -/
def step (p : Position) (answer : Answer) : Option Position :=
  match p.node, answer with
  | .prepareContext, .context request =>
      goto routeAfterPrepare (prepareContext runtime p.state request)
  | .compressContext, .compaction answer =>
      goto routeAfterCompression (compressContext runtime p.state answer)
  | .callModel, .stream toolCatalog run elapsed =>
      goto routeAfterModel (callModel runtime p.state toolCatalog run elapsed)
  | .executeOneTool, .tool execution webRequests elapsed =>
      goto routeAfterTool (executeOneTool runtime p.state execution webRequests elapsed)
  | .finalize, .finalizer answer => goto (fun _ => .ended) (finalize runtime p.state answer)
  | _, _ => none

/-- The nodes that a Turn runs through with given answers. -/
def run (p : Position) (answers : List Answer) : Option Position :=
  answers.foldlM (step runtime) p

/-- Where a Turn starts. -/
def start : Position := ⟨.prepareContext, newAgentState⟩

end AwesomeAgent.AgentGraph
