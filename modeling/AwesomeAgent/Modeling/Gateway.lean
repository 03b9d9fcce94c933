import AwesomeAgent.Modeling.Turns

/-!
# The model gateway and its consumers

A gateway asks a provider again after an error that may pass, as long as the attempt showed
and completed nothing. Three consumers read its events: one completes a request, one is the
model call of the agent, which charges its budgets, and one distils memories.
-/

namespace AwesomeAgent.Modeling

/-- How often a gateway asks again. -/
structure RetryPolicy where
  maxRetries : Nat
  bounded : maxRetries ≤ 6

/-- What a gateway yields: an event of the provider, or that it will ask again. -/
inductive GatewayEvent
  | model (event : ModelStreamEvent)
  | retrying (attempt maximum : Nat) (errorCode : ModelErrorCode)
  deriving DecidableEq

/-- How the stream of an attempt ends: it is exhausted, or it raises. -/
inductive AttemptEnd
  | exhausted
  | providerError (error : ModelErrorInfo)
  | exception
  | cancelled
  deriving DecidableEq

/-- What a provider does in one attempt. -/
structure Attempt where
  events : List ModelStreamEvent
  ending : AttemptEnd

/-- How a gateway leaves an attempt. -/
inductive AttemptOutcome
  | finished
  | retry (error : ModelErrorInfo)
  | cancelled
  deriving DecidableEq

/-- What a gateway read of an attempt, what it yielded and how it left it. -/
structure AttemptRun where
  read : List ModelStreamEvent
  yielded : List GatewayEvent
  outcome : AttemptOutcome
  deriving DecidableEq

/-- The retries of a turn, told with its usage. -/
def withRetryUsage (turn : ModelTurn) (retries : Nat) : ModelTurn :=
  if retries = 0 then turn
  else { turn with usage := { turn.usage with
      providerRetries := turn.usage.providerRetries + retries } }

namespace ModelGateway

/-- The failure that a gateway yields itself. -/
def failure (message : String) (provider : ProviderId) : GatewayEvent :=
  .model (.turnFailed (providerProtocolError message provider))

/-- Leave an attempt whose stream ended. -/
def leaveAttempt (selected : SelectedModel) (mayRetry visible completedSeen : Bool) :
    AttemptEnd → AttemptRun
  | .exhausted => ⟨[], [], .finished⟩
  | .cancelled => ⟨[], [], .cancelled⟩
  | .providerError error =>
      if error.retryable ∧ ¬ visible ∧ ¬ completedSeen ∧ mayRetry then ⟨[], [], .retry error⟩
      else ⟨[], [.model (.turnFailed error)], .finished⟩
  | .exception =>
      ⟨[], [failure "Provider stream raised an unexpected exception." selected.provider],
        .finished⟩

/-- Read one attempt. -/
def readAttempt (selected : SelectedModel) (retries : Nat) (mayRetry : Bool)
    (visible completedSeen : Bool) (ending : AttemptEnd) : List ModelStreamEvent → AttemptRun
  | [] => leaveAttempt selected mayRetry visible completedSeen ending
  | .turnCompleted turn :: rest =>
      if turn.provider ≠ selected.provider ∨ turn.model ≠ selected.model then
        ⟨[.turnCompleted turn],
          [failure "Provider completed a different frozen model." selected.provider], .finished⟩
      else
        let run := readAttempt selected retries mayRetry visible true ending rest
        ⟨.turnCompleted turn :: run.read,
          .model (.turnCompleted (withRetryUsage turn retries)) :: run.yielded, run.outcome⟩
  | .turnFailed error :: _ =>
      if error.retryable ∧ ¬ visible ∧ ¬ completedSeen ∧ mayRetry then
        ⟨[.turnFailed error], [], .retry error⟩
      else ⟨[.turnFailed error], [.model (.turnFailed error)], .finished⟩
  | event :: rest =>
      let run := readAttempt selected retries mayRetry true completedSeen ending rest
      ⟨event :: run.read, .model event :: run.yielded, run.outcome⟩

/-- How a stream of the gateway ends for its consumer. -/
inductive StreamEnd
  | exhausted
  | providerError (error : ModelErrorInfo)
  | exception
  | cancelled
  deriving DecidableEq

/-- The events of a gateway, how they end, and what was read of each attempt. -/
structure StreamRun where
  events : List GatewayEvent
  ending : StreamEnd
  attempts : List (List ModelStreamEvent)
  deriving DecidableEq

/-- A provider: what each attempt does. -/
abbrev Provider := Nat → Attempt

/-- How the delay before an attempt ends. -/
inductive SleepEnd
  | slept
  | exception
  | cancelled
  deriving DecidableEq

/-- The attempts from one on, with a number of retries left. -/
def streamFrom (policy : RetryPolicy) (selected : SelectedModel) (provider : Provider)
    (sleeper : Nat → SleepEnd) : Nat → StreamRun
  | 0 =>
      let retries := policy.maxRetries
      let run := readAttempt selected retries false false false (provider retries).ending
        (provider retries).events
      ⟨run.yielded, if run.outcome = .cancelled then .cancelled else .exhausted, [run.read]⟩
  | left + 1 =>
      let retries := policy.maxRetries - (left + 1)
      let run := readAttempt selected retries true false false (provider retries).ending
        (provider retries).events
      match run.outcome with
      | .finished => ⟨run.yielded, .exhausted, [run.read]⟩
      | .cancelled => ⟨run.yielded, .cancelled, [run.read]⟩
      | .retry error =>
          let retrying := .retrying (retries + 2) (policy.maxRetries + 1) error.code
          match sleeper retries with
          | .slept =>
              let next := streamFrom policy selected provider sleeper left
              ⟨run.yielded ++ retrying :: next.events, next.ending, run.read :: next.attempts⟩
          | .exception => ⟨run.yielded ++ [retrying], .exception, [run.read]⟩
          | .cancelled => ⟨run.yielded ++ [retrying], .cancelled, [run.read]⟩

/-- Stream a request to the selected model. -/
def stream (policy : RetryPolicy) (providers : ProviderId → Option Provider)
    (sleeper : Nat → SleepEnd) (selected : SelectedModel) : StreamRun :=
  match providers selected.provider with
  | none => ⟨[], .providerError (providerProtocolError
      "Selected Provider is not available in this Gateway." selected.provider), []⟩
  | some provider => streamFrom policy selected provider sleeper policy.maxRetries

/-- What ends a completion without a turn. -/
inductive CompletionFault
  | modelError (error : ModelErrorInfo)
  | exception
  | cancelled
  deriving DecidableEq

/-- Read the completed turns; a failure ends the reading. -/
def collectCompleted : List GatewayEvent → Except ModelErrorInfo (List ModelTurn)
  | [] => .ok []
  | .model (.turnFailed error) :: _ => .error error
  | .model (.turnCompleted turn) :: rest => (collectCompleted rest).map (turn :: ·)
  | _ :: rest => collectCompleted rest

/-- Complete a request with exactly one turn. -/
def complete (selected : SelectedModel) (run : StreamRun) : Except CompletionFault ModelTurn :=
  match collectCompleted run.events with
  | .error error => .error (.modelError error)
  | .ok completed =>
      match run.ending with
      | .providerError error => .error (.modelError error)
      | .exception => .error .exception
      | .cancelled => .error .cancelled
      | .exhausted =>
          match completed with
          | [turn] => .ok turn
          | _ => .error (.modelError (providerProtocolError
              "Gateway requires exactly one completed model turn." selected.provider))

end ModelGateway

/-- Budgets of a turn of the agent that its model call reads. -/
structure TurnBudget where
  modelCalls : Nat
  providerRetries : Nat
  deriving DecidableEq, Repr

/-- The counters of a turn of the agent, and the calls that have a result. -/
structure CallState where
  modelCalls : Nat
  providerRetries : Nat
  completedCalls : List Text
  deriving DecidableEq

/-- Why a model call accepts no turn. -/
inductive CallFault
  | blocked (reason : String)
  | failed (error : ModelErrorInfo)
  | protocol
  | cancelled
  | exception
  deriving DecidableEq

/-- What a model call has read so far. -/
structure CallReading where
  state : CallState
  observedRetries : Nat
  completed : List ModelTurn
  failure : Option ModelErrorInfo
  blocked : Option String
  deriving DecidableEq

/-- Charge an attempt. -/
def CallState.chargeModelAttempt (s : CallState) (retries : Nat) : CallState :=
  { s with
    modelCalls := s.modelCalls + 1 + retries
    providerRetries := s.providerRetries + retries }

/-- Charge a retry. -/
def CallState.chargeProviderRetry (s : CallState) : CallState :=
  { s with modelCalls := s.modelCalls + 1, providerRetries := s.providerRetries + 1 }

/-- Read the events of a stream; a retry beyond a budget ends the reading. -/
def readCall (budget : TurnBudget) (r : CallReading) : List GatewayEvent → CallReading
  | [] => r
  | .retrying .. :: rest =>
      if budget.modelCalls ≤ r.state.modelCalls then
        { r with blocked := some "model_budget_exhausted" }
      else if budget.providerRetries ≤ r.state.providerRetries then
        { r with blocked := some "provider_retry_budget_exhausted" }
      else
        readCall budget { r with
          state := r.state.chargeProviderRetry
          observedRetries := r.observedRetries + 1 } rest
  | .model (.turnCompleted turn) :: rest =>
      readCall budget { r with completed := r.completed ++ [turn] } rest
  | .model (.turnFailed error) :: rest => readCall budget { r with failure := some error } rest
  | .model _ :: rest => readCall budget r rest

/-- Characters of a call identifier that can be dispatched. -/
def maxDispatchCallId : Nat := 128

/-- Lower letters, digits and underscores after a letter, and hyphens if they are allowed. -/
def isDispatchSegment (hyphens : Bool) : Text → Bool
  | [] => false
  | c :: rest => c.isLower &&
      rest.all fun d => d.isLower || d.isDigit || d == '_' || (hyphens && d == '-')

/-- The names that a request for a tool may have: its own, or one of a server or a user. -/
def isDispatchName (name : Text) : Bool :=
  isDispatchSegment false name ||
    match name.splitOn '.' with
    | [root, namespaceName, tool] =>
        decide (root = "mcp".toList ∨ root = "user".toList) &&
          isDispatchSegment true namespaceName && isDispatchSegment true tool
    | _ => false

/-- Whether tool calls can be dispatched, have distinct identifiers and no result yet. -/
def toolCallsAreDispatchableAndFresh (calls : List ToolCall) (completedCalls : List Text) : Bool :=
  (calls.all fun call =>
    decide (call.callId.length ≤ maxDispatchCallId) && isDispatchName call.name) &&
    decide (calls.map ToolCall.callId).Nodup &&
    calls.all fun call => decide (call.callId ∉ completedCalls)

/-- The model call of the agent: the counters it leaves, and the turn it accepts. -/
def callModel (budget : TurnBudget) (state : CallState) (run : ModelGateway.StreamRun) :
    CallState × Except CallFault ModelTurn :=
  let r := readCall budget ⟨state.chargeModelAttempt 0, 0, [], none, none⟩ run.events
  match r.blocked with
  | some reason => (r.state, .error (.blocked reason))
  | none =>
      match run.ending with
      | .cancelled => (r.state, .error .cancelled)
      | .exception => (r.state, .error .exception)
      | .providerError error => (r.state, .error (.failed error))
      | .exhausted =>
          match r.failure with
          | some error => (r.state, .error (.failed error))
          | none =>
              match r.completed with
              | [turn] =>
                  if turn.usage.providerRetries = r.observedRetries ∧
                      toolCallsAreDispatchableAndFresh turn.toolCalls state.completedCalls then
                    (r.state, .ok turn)
                  else (r.state, .error .protocol)
              | _ => (r.state, .error .protocol)

/-- Why a distillation accepts no turn. -/
inductive DistillationFault
  | budgetExceeded (retries : Nat)
  | failed (retries : Nat)
  | cancelled
  deriving DecidableEq

/-- Read the events of a distillation: its completed turns and its retries. -/
def readDistillation (remainingModelCalls remainingProviderRetries : Nat) (retries : Nat)
    (completed : List ModelTurn) :
    List GatewayEvent → Except DistillationFault (List ModelTurn × Nat)
  | [] => .ok (completed, retries)
  | .retrying .. :: rest =>
      if remainingProviderRetries ≤ retries ∨ remainingModelCalls ≤ 1 + retries then
        .error (.budgetExceeded retries)
      else
        readDistillation remainingModelCalls remainingProviderRetries (retries + 1) completed rest
  | .model (.turnCompleted turn) :: rest =>
      readDistillation remainingModelCalls remainingProviderRetries retries
        (completed ++ [turn]) rest
  | .model (.turnFailed _) :: _ => .error (.failed retries)
  | .model _ :: rest =>
      readDistillation remainingModelCalls remainingProviderRetries retries completed rest

/-- Validate a turn again from what it dumps; the continuation is not dumped. -/
def revalidate (turn : ModelTurn) : Option ModelTurn :=
  if turn.usage.providerRetries ≤ maxProviderRetries then some { turn with continuation := none }
  else none

/-- Complete a distillation within its budgets. -/
def completeBounded (remainingModelCalls remainingProviderRetries : Nat)
    (run : ModelGateway.StreamRun) : Except DistillationFault ModelTurn :=
  match readDistillation remainingModelCalls remainingProviderRetries 0 [] run.events with
  | .error fault => .error fault
  | .ok (completed, retries) =>
      match run.ending with
      | .cancelled => .error .cancelled
      | .exception | .providerError _ => .error (.failed retries)
      | .exhausted =>
          match completed with
          | [turn] =>
              match revalidate turn with
              | some validated =>
                  if validated.usage.providerRetries = retries then .ok validated
                  else .error (.failed retries)
              | none => .error (.failed retries)
          | _ => .error (.failed retries)

end AwesomeAgent.Modeling
