import AwesomeAgent.Agent.Citations
import AwesomeAgent.Events.Emitter
import AwesomeAgent.Library.CallLogs
import AwesomeAgent.Tools.Permissions
import AwesomeAgent.Tools.Registry

/-!
# The executor of tools

A call of a tool is admitted and described, the policy or the user lets it run, and the handler runs
under a deadline. Whatever the outcome, the activity is written and then the terminal event is
emitted. Every wait may fail, may be cancelled and lets others change the permissions.
-/

namespace AwesomeAgent.ToolExecution

open Permissions
open Agent (Citation UrlGrammar)
open Registry (Seconds)

/-! ## Contracts -/

/-- The codes of tool failures. -/
inductive ToolErrorCode
  | invalidArguments
  | notFound
  | workspaceNotTrusted
  | workspaceEscape
  | permissionDenied
  | conflict
  | timeout
  | stateUnavailable
  | executionFailed
  | uncertainOutcome
  | memoryDisabled
  | memoryConflict
  | memoryRejected
  | webRequestBudgetExhausted
  | webRequestRejected
  | webCredentialRejected
  | webRateLimited
  | webQuotaExhausted
  | webProviderUnavailable
  | webTimeout
  | webConnectionFailed
  | webMalformedResponse
  | cancelled
  deriving DecidableEq, Repr

/-- The text of a code. -/
def ToolErrorCode.value : ToolErrorCode → Text
  | .invalidArguments => "invalid_arguments".toList
  | .notFound => "not_found".toList
  | .workspaceNotTrusted => "workspace_not_trusted".toList
  | .workspaceEscape => "workspace_escape".toList
  | .permissionDenied => "permission_denied".toList
  | .conflict => "conflict".toList
  | .timeout => "timeout".toList
  | .stateUnavailable => "state_unavailable".toList
  | .executionFailed => "execution_failed".toList
  | .uncertainOutcome => "uncertain_outcome".toList
  | .memoryDisabled => "memory_disabled".toList
  | .memoryConflict => "memory_conflict".toList
  | .memoryRejected => "memory_rejected".toList
  | .webRequestBudgetExhausted => "web_request_budget_exhausted".toList
  | .webRequestRejected => "web_request_rejected".toList
  | .webCredentialRejected => "web_credential_rejected".toList
  | .webRateLimited => "web_rate_limited".toList
  | .webQuotaExhausted => "web_quota_exhausted".toList
  | .webProviderUnavailable => "web_provider_unavailable".toList
  | .webTimeout => "web_timeout".toList
  | .webConnectionFailed => "web_connection_failed".toList
  | .webMalformedResponse => "web_malformed_response".toList
  | .cancelled => "cancelled".toList

/-- The members of the metadata of a result. -/
abbrev Metadata : Type := List (Text × Json)

/-- A failure that a tool reports; an attribute that no longer has its type is missing. -/
structure ExpectedToolFailure where
  code : Option ToolErrorCode
  message : Option Text
  retryable : Option Bool
  metadata : Option Metadata

/-- The details of a failure that keeps its contract. -/
structure ExpectedToolFailureDetails where
  code : ToolErrorCode
  message : Text
  retryable : Bool
  metadata : Metadata

/-- A failure that the executor reports. -/
def ExpectedToolFailure.of (code : ToolErrorCode) (message : Text) : ExpectedToolFailure :=
  ⟨some code, some message, some false, some []⟩

/-- The details of a failure, unless it was changed into something else. -/
def validateExpectedToolFailure : ExpectedToolFailure → Option ExpectedToolFailureDetails
  | ⟨some code, some message, some retryable, some metadata⟩ =>
      if 1 ≤ message.length ∧ message.length ≤ 2000 then some ⟨code, message, retryable, metadata⟩
      else none
  | _ => none

/-- What can be raised. -/
inductive Raised
  | cancelled
  | validation
  | timeout
  | expectedFailure (failure : ExpectedToolFailure)
  | invariant (message : Text)
  | other (message : Text)
  | exit

/-- What a clause for every exception catches. -/
def Raised.isException : Raised → Bool
  | .cancelled => false
  | .exit => false
  | _ => true

/-- What a callback returns: a value of its contract, or some other object. -/
inductive Returned (α : Type)
  | proper (value : α)
  | improper
  deriving DecidableEq, Repr

/-- Who calls a tool. -/
inductive ToolExecutionOrigin
  | agent
  | direct
  deriving DecidableEq, Repr

/-- A length is within bounds. -/
def within (low high : Nat) (text : Text) : Bool :=
  decide (low ≤ text.length ∧ text.length ≤ high)

/-- A call of a tool. -/
structure ToolRequest where
  callId : Text
  toolName : Text
  arguments : List (Text × Json)

/-- How a call is shown. -/
structure ToolPresentation where
  verb : Text
  target : Option Text
  outcome : Option Text
  summary : Text
  detail : Option Text
  detailTruncatedCount : Option Nat
  durationMs : Option Nat
  deriving DecidableEq, Repr

/-- The checks of the model of a presentation. -/
def ToolPresentation.isValid (p : ToolPresentation) : Bool :=
  within 1 64 p.verb && p.target.all (within 0 2000) && p.outcome.all (within 0 128) &&
    within 0 2000 p.summary && p.detail.all (within 0 4000)

/-- How a call is described before it runs. -/
structure ToolInvocationDescription where
  verb : Text
  displayTarget : Option Text
  approvalOperation : Text
  approvalTarget : Text
  deriving DecidableEq, Repr

/-- The checks of the model of a description. -/
def ToolInvocationDescription.isValid (d : ToolInvocationDescription) : Bool :=
  within 1 64 d.verb && d.displayTarget.all (within 0 2000) && within 1 128 d.approvalOperation &&
    within 1 8000 d.approvalTarget

/-- How a call ended. -/
inductive ToolOutcome
  | success
  | error
  | cancelled
  deriving DecidableEq, Repr

/-- The words of an outcome. -/
def ToolOutcome.title : ToolOutcome → Text
  | .success => "Success".toList
  | .error => "Error".toList
  | .cancelled => "Cancelled".toList

/-- The audit of a call. -/
structure ToolActivityDraft where
  threadId : Text
  turnId : Option Text
  operationId : Text
  callId : Text
  origin : ToolExecutionOrigin
  toolName : Text
  outcome : ToolOutcome
  inputSummary : Text
  resultSummary : Text
  errorCode : Option Text
  durationMs : Nat
  changeSetId : Option Text
  deriving DecidableEq, Repr

/-- The checks of the model of an audit. -/
def ToolActivityDraft.isValid (a : ToolActivityDraft) : Bool :=
  within 1 128 a.threadId && a.turnId.all (within 0 128) && within 1 128 a.operationId &&
    within 1 128 a.callId && within 1 200 a.toolName && within 0 2000 a.inputSummary &&
    within 0 4000 a.resultSummary && a.errorCode.all (within 0 128) &&
    a.changeSetId.all (within 0 128) &&
    (match a.origin with
      | .agent => a.turnId.isSome
      | .direct => a.turnId.isNone)

/-- The event of a call that starts. -/
structure ToolStartedPayload where
  callId : Text
  toolName : Text
  verb : Text
  target : Option Text
  deriving DecidableEq, Repr

/-- The checks of the model of the event. -/
def ToolStartedPayload.isValid (p : ToolStartedPayload) : Bool :=
  within 1 128 p.callId && within 1 200 p.toolName && within 1 64 p.verb &&
    p.target.all (within 0 2000)

/-- The largest integer that the client reads exactly. -/
def maxJsonSafeInteger : Nat := 2 ^ 53 - 1

/-- The event of a call that ended. -/
structure ToolResultPayload where
  kind : EventType
  callId : Text
  toolName : Text
  verb : Text
  target : Option Text
  outcome : Text
  summary : Text
  detail : Option Text
  detailTruncatedCount : Option Nat
  durationMs : Nat
  errorCode : Option Text
  deriving DecidableEq, Repr

/-- The checks of the model of the event. -/
def ToolResultPayload.isValid (p : ToolResultPayload) : Bool :=
  within 1 128 p.callId && within 1 200 p.toolName && within 1 64 p.verb &&
    p.target.all (within 0 2000) && within 1 128 p.outcome && within 0 2000 p.summary &&
    p.detail.all (within 0 4000) &&
    p.detailTruncatedCount.all (fun count => decide (count ≤ maxJsonSafeInteger)) &&
    decide (p.durationMs ≤ maxJsonSafeInteger) && p.errorCode.all (within 0 128)

/-- A value in the display metadata of a tool. -/
inductive DisplayValue
  | text (value : Text)
  | other
  deriving DecidableEq, Repr

/-- What the executor reads of the specification of a tool. -/
structure ToolSpec where
  name : Text
  capability : Text
  displayMetadata : List (Text × DisplayValue)

/-- What surrounds a call. -/
structure ToolExecutionContext where
  threadId : Text
  operationId : Text
  turnId : Option Text
  origin : ToolExecutionOrigin
  changeSetId : Option Text
  hasApprovalResolver : Bool

/-- What a handler returns; every part may be some other object. -/
structure ToolOutput where
  content : Returned Text
  metadata : Returned Metadata
  presentation : Option (Returned ToolPresentation)
  citations : Returned (List (Returned (Text × Text × Text)))

section Executor

variable {A : Type}

/-- The output of a handler that keeps its contract. -/
structure CheckedOutput [UrlGrammar] where
  content : Text
  metadata : Metadata
  presentation : Option ToolPresentation
  citations : List Citation

/-- The error of a result. -/
structure ToolError where
  code : ToolErrorCode
  message : Text
  retryable : Bool

/-- What the caller gets; a result without an error is a success. -/
structure ToolResult [UrlGrammar] where
  callId : Text
  toolName : Text
  content : Text
  metadata : Metadata
  error : Option ToolError
  presentation : ToolPresentation
  citations : List Citation

/-- A tool: its callbacks are functions of its checked arguments. -/
structure RegisteredTool (A : Type) where
  spec : ToolSpec
  parse : List (Text × Json) → Except Raised A
  admitter : A → ToolExecutionContext → Except Raised (Returned Unit)
  describe : A → Except Raised (Returned ToolInvocationDescription)
  timeoutResolver : Option (A → Except Raised (Returned Seconds))

/-- An executor. -/
structure ToolExecutor (A : Type) where
  resolve : Text → Option (RegisteredTool A)
  timeoutSeconds : Seconds
  maxContentChars : Nat
  permissionPolicy : PolicyRequest → Except Raised (Returned PolicyDecision)

/-! ## Grants -/

/-- What is granted beyond one call. -/
inductive Grant
  | writes
  | network (threadId : Text)
  deriving DecidableEq, Repr

/-- Record a grant in a session. -/
def Grant.apply (grant : Grant) (session : PermissionSession) : Except Raised PermissionSession :=
  match grant with
  | .writes => .ok session.grantThreadWrites
  | .network threadId =>
      match session.grantThreadNetwork threadId with
      | some session => .ok session
      | none => .error (.other "thread_id must not be empty".toList)

/-- The grant of an answer, for a call of a capability in a Thread. -/
def grantOf (capability threadId : Text) : ToolApprovalDecision → Except Raised (Option Grant)
  | .deny => .error (.expectedFailure
      (.of .permissionDenied "Tool operation was denied.".toList))
  | .allowThreadWrites =>
      if capability ≠ ToolCapability.workspaceWrite.value then
        .error (.invariant "Thread write approval cannot grant another capability.".toList)
      else .ok (some .writes)
  | .allowThreadNetwork =>
      if capability ≠ ToolCapability.networkRead.value then
        .error (.invariant "Thread network approval cannot grant another capability.".toList)
      else .ok (some (.network threadId))
  | .allowOnce => .ok none

/-- What others do with the permissions while a call waits, or between calls. -/
inductive SessionOp
  | setMode (mode : PermissionMode)
  | reset
  | revokeThreadNetwork (threadId : Option Text)
  | approval (capability threadId : Text) (answer : ToolApprovalDecision)
  deriving DecidableEq, Repr

/-- The session after an operation. -/
def SessionOp.apply (session : PermissionSession) : SessionOp → PermissionSession
  | .setMode mode => session.setMode mode
  | .reset => session.reset
  | .revokeThreadNetwork threadId => session.revokeThreadNetwork threadId
  | .approval capability threadId answer =>
      match grantOf capability threadId answer with
      | .ok (some grant) => (grant.apply session).toOption.getD session
      | _ => session

/-! ## The world around a call -/

/-- What a call does and finds. -/
inductive Call (A : Type)
  | started (payload : ToolStartedPayload)
  | admitted (arguments : A)
  | described (arguments : A) (description : ToolInvocationDescription)
  | decided (request : PolicyRequest) (decision : PolicyDecision)
  | approved (question : ToolApprovalRequest) (answer : ToolApprovalDecision)
  | granted (question : ToolApprovalRequest) (grant : Grant)
  | invoked (arguments : A)
  | cancelled
  | finalizing (activity : ToolActivityDraft)
  | finalized (activity : ToolActivityDraft)
  | auditFailed (activity : ToolActivityDraft)
  | terminal (payload : ToolResultPayload)
  | elsewhere (op : SessionOp)
  deriving DecidableEq

/-- How the task of a handler meets its deadline. -/
inductive HandlerRun
  | interrupted (invoked : Bool)
  | late (invoked : Bool)
  | returned (output : Returned ToolOutput)
  | raised (fault : Raised)

/-- What one wait finds: what others do with the permissions, whether the caller is cancelled,
how the awaited call fails, the answer of the user, the run of the handler, whether the task of the
terminal event gets to run, and the milliseconds since the call was started. -/
structure Choice where
  others : List SessionOp
  cancelled : Bool
  failure : Option Raised
  answer : Returned ToolApprovalDecision
  handler : HandlerRun
  runs : Bool
  elapsed : Int

/-- A wait at which nothing happens. -/
def Choice.quiet : Choice := ⟨[], false, none, .improper, .interrupted false, true, 0⟩

/-- A procedure of the executor. -/
abbrev Exec (A α : Type) : Type := EStateM Raised (Logged PermissionSession (Call A) Choice) α

/-- What others do is logged. -/
def act (session : PermissionSession) : Call A → PermissionSession
  | .elsewhere op => op.apply session
  | _ => session

/-- Wait. -/
def wait : Exec A Choice :=
  Logged.wait .quiet act fun choice => choice.others.map .elsewhere

/-- Wait for a call that may fail. -/
def await : Exec A Unit := do
  match (← wait).failure with
  | none => pure ()
  | some fault => throw fault

/-- Log that the caller is cancelled. -/
def logCancelled (cancelled : Bool) : Exec A Unit :=
  if cancelled then Logged.record .cancelled else pure ()

/-- Observe an action of the caller's own before a cancellation is exposed. -/
def finishCancellationSafe {α : Type} (operation : Exec A α) : Exec A (α × Bool) := do
  let result ← Logged.attempt operation
  let choice ← wait
  logCancelled choice.cancelled
  match result with
  | .ok value => pure (value, choice.cancelled)
  | .error fault => throw (if choice.cancelled then .cancelled else fault)

/-! ## Presentation and audit -/

/-- The title case of a text: letters after letters are small. -/
def titleFrom : Bool → Text → Text
  | _, [] => []
  | afterLetter, c :: rest =>
      (if afterLetter then c.toLower else c.toUpper) :: titleFrom c.isAlpha rest

/-- A presentation that passes its checks. -/
def checkedPresentation (presentation : ToolPresentation) : Except Raised ToolPresentation :=
  if presentation.isValid then .ok presentation else .error .validation

/-- The presentation of a call before it is described. -/
def staticPresentation (request : ToolRequest) (registered : Option (RegisteredTool A)) :
    Except Raised ToolPresentation :=
  let configured := registered.bind fun tool =>
    (tool.spec.displayMetadata.find? fun entry => entry.1 == "verb".toList).map Prod.snd
  let named := titleFrom false (request.toolName.map fun c => if c = '_' then ' ' else c)
  let verb := match configured with
    | some (.text value) => if value = [] then named else value
    | _ => named
  checkedPresentation ⟨verb.take 64, none, none, [], none, none, none⟩

/-- Emit an event, if its payload passes its checks. -/
def emit (call : Call A) (valid : Bool) : Exec A Unit :=
  if valid then do
    Logged.record call
    await
  else throw .validation

/-- The event of the start of a call. -/
def startedPayload (request : ToolRequest) (presentation : ToolPresentation) :
    ToolStartedPayload :=
  ⟨request.callId, request.toolName, presentation.verb, presentation.target⟩

/-- Emit the start of a call. -/
def emitStarted (request : ToolRequest) (presentation : ToolPresentation) : Exec A Unit :=
  emit (.started (startedPayload request presentation))
    (startedPayload request presentation).isValid

/-- The names of arguments in the order of their code points. -/
def sortedNames (arguments : List (Text × Json)) : List Text :=
  (arguments.map Prod.fst).insertionSort fun a b => Registry.notAfter a b = true

/-- The names of the arguments, for the audit. -/
def inputSummary (request : ToolRequest) : Text :=
  let argumentNames :=
    ", ".toList.intercalate (((sortedNames request.arguments).take 16).map (List.take 100))
  if argumentNames = [] then "arguments: none".toList else "arguments: ".toList ++ argumentNames

/-- The presentation with its duration, and the audit. -/
def terminalArtifacts (request : ToolRequest) (context : ToolExecutionContext)
    (outcome : ToolOutcome) (presentation : ToolPresentation) (errorCode : Option Text) :
    Exec A (ToolPresentation × ToolActivityDraft) := do
  let durationMs := (max 0 (← Logged.foresee .quiet Choice.elapsed)).toNat
  let measured := { presentation with durationMs := some durationMs }
  let activity : ToolActivityDraft := {
    threadId := context.threadId
    turnId := context.turnId
    operationId := context.operationId
    callId := request.callId
    origin := context.origin
    toolName := request.toolName
    outcome := outcome
    inputSummary := inputSummary request
    resultSummary := measured.summary
    errorCode := errorCode
    durationMs := durationMs
    changeSetId := context.changeSetId }
  if activity.isValid then pure (measured, activity) else throw .validation

/-- Have the activity written. -/
def finalize (activity : ToolActivityDraft) : Exec A Unit := do
  Logged.record (.finalizing activity)
  match ← Logged.attempt await with
  | .ok _ => Logged.record (.finalized activity)
  | .error fault =>
      Logged.record (.auditFailed activity)
      throw fault

/-- The event of the end of a call. -/
def terminalPayload (request : ToolRequest) (presentation : ToolPresentation)
    (activity : ToolActivityDraft) (eventType : EventType) : ToolResultPayload where
  kind := eventType
  callId := request.callId
  toolName := request.toolName
  verb := presentation.verb
  target := presentation.target
  outcome := match presentation.outcome with
    | some outcome => if outcome = [] then activity.outcome.title else outcome
    | none => activity.outcome.title
  summary := presentation.summary
  detail := presentation.detail
  detailTruncatedCount := presentation.detailTruncatedCount
  durationMs := activity.durationMs
  errorCode := activity.errorCode

/-- The task that emits the end of a call. -/
def emitTerminal (request : ToolRequest) (presentation : ToolPresentation)
    (activity : ToolActivityDraft) (eventType : EventType) : Exec A Unit :=
  emit (.terminal (terminalPayload request presentation activity eventType))
    (terminalPayload request presentation activity eventType).isValid

/-- Wait for the task of the terminal event within bounds; its failures are reported only. -/
def finishTerminalEvent (task : Exec A Unit) : Exec A Unit := do
  if (← wait).runs then
    let _ ← Logged.attempt task
    pure ()
  else pure ()

/-- Write an activity; its failures are handed back. -/
def captureActivityError (activity : ToolActivityDraft) : Exec A (Option Raised) := do
  match ← Logged.attempt (finalize activity) with
  | .ok _ => pure none
  | .error fault => if fault.isException then pure (some fault) else throw fault

/-- Write an activity after a cancellation; its failures are reported only. -/
def persistActivityAfterCancellation (activity : ToolActivityDraft) : Exec A Unit := do
  match ← Logged.attempt (finalize activity) with
  | .ok _ => pure ()
  | .error fault => match fault with
    | .exit => throw fault
    | _ => pure ()

/-- End a cancelled call. -/
def finalizeCancellation (request : ToolRequest) (context : ToolExecutionContext)
    (presentation : ToolPresentation) : Exec A Unit := do
  Logged.record .cancelled
  let (measured, activity) ← terminalArtifacts request context .cancelled
    { presentation with
      outcome := some "Cancelled".toList
      summary := "Cancelled".toList }
    (some ToolErrorCode.cancelled.value)
  let _ ← finishCancellationSafe (persistActivityAfterCancellation activity)
  finishTerminalEvent (emitTerminal request measured activity .toolCancelled)

/-- End a call that ran to an outcome. -/
def finalizeHandlerOutcome (request : ToolRequest) (context : ToolExecutionContext)
    (outcome : ToolOutcome) (presentation : ToolPresentation) (errorCode : Option Text)
    (eventType : EventType) : Exec A ToolPresentation := do
  let (measured, activity) ← terminalArtifacts request context outcome presentation errorCode
  let (auditError, auditCancelled) ← finishCancellationSafe (captureActivityError activity)
  if auditCancelled then
    finishTerminalEvent (emitTerminal request measured activity eventType)
    throw .cancelled
  else if auditError.isSome then
    throw (.invariant "Tool audit finalization failed.".toList)
  else if (← wait).cancelled then
    finishTerminalEvent (emitTerminal request measured activity eventType)
    throw .cancelled
  else
    emitTerminal request measured activity eventType
    pure measured

/-- End a call that failed unexpectedly. -/
def finalizeUnexpectedFailure (request : ToolRequest) (context : ToolExecutionContext)
    (presentation : ToolPresentation) : Exec A Unit := do
  let _ ← finalizeHandlerOutcome request context .error
    { presentation with
      outcome := some "Failed".toList
      summary := ToolErrorCode.executionFailed.value
      detail := some "Tool execution failed.".toList }
    (some ToolErrorCode.executionFailed.value) .toolFailed

/-- End a call that failed as tools may fail. -/
def errorResult [UrlGrammar] (request : ToolRequest) (context : ToolExecutionContext)
    (failure : ExpectedToolFailureDetails) (presentation : ToolPresentation) :
    Exec A ToolResult := do
  let bounded := failure.message.take 2000
  if bounded = [] then throw .validation
  else
    let presentation ← finalizeHandlerOutcome request context .error
      { presentation with
        outcome := some "Failed".toList
        summary := failure.code.value
        detail := some bounded }
      (some failure.code.value) .toolFailed
    pure {
      callId := request.callId
      toolName := request.toolName
      content := bounded
      metadata := failure.metadata
      error := some ⟨failure.code, bounded, failure.retryable⟩
      presentation := presentation
      citations := [] }

/-- Emit the start of a call; a call that is cancelled meanwhile is ended. -/
def emitStartedWithCancellation (request : ToolRequest) (context : ToolExecutionContext)
    (presentation : ToolPresentation) : Exec A Unit := do
  match ← Logged.attempt (emitStarted request presentation) with
  | .ok _ => pure ()
  | .error fault => match fault with
    | .cancelled =>
        finalizeCancellation request context presentation
        throw .cancelled
    | _ => throw fault

/-! ## The call -/

/-- Admit the arguments and describe the call. -/
def admitAndDescribe (tool : RegisteredTool A) (context : ToolExecutionContext) (arguments : A) :
    Exec A ToolInvocationDescription := do
  match ← Logged.lift (tool.admitter arguments context) with
  | .improper => throw (.other "Tool admitter returned an invalid contract".toList)
  | .proper _ =>
      Logged.record (.admitted arguments)
      match ← Logged.lift (tool.describe arguments) with
      | .improper => throw (.other "Tool describer returned an invalid contract".toList)
      | .proper description =>
          if description.isValid then
            Logged.record (.described arguments description)
            pure description
          else throw .validation

/-- What the user is asked about a call. -/
def approvalRequest (capability : Text) (description : ToolInvocationDescription) :
    ToolApprovalRequest :=
  let fullPrompt := "Do you want to ".toList ++ description.approvalOperation ++ [' '] ++
    description.approvalTarget ++ ['?']
  { capability := capability
    operation := description.approvalOperation
    target := description.approvalTarget
    prompt := if fullPrompt.length ≤ 2000 then fullPrompt else fullPrompt.take 1999 ++ ['…'] }

/-- Ask the user about a call, and record what the answer grants. -/
def askApproval (tool : RegisteredTool A) (context : ToolExecutionContext)
    (description : ToolInvocationDescription) : Exec A Unit := do
  if context.hasApprovalResolver then
    let question := approvalRequest tool.spec.capability description
    let choice ← wait
    match choice.failure, choice.answer with
    | some fault, _ => throw fault
    | none, .improper =>
        throw (.invariant "Approval resolver returned an invalid decision.".toList)
    | none, .proper answer =>
        Logged.record (.approved question answer)
        match ← Logged.lift (grantOf tool.spec.capability context.threadId answer) with
        | none => pure ()
        | some grant => Logged.adjust grant.apply (.granted question grant)
  else
    throw (.expectedFailure
      (.of .permissionDenied "This tool operation requires approval.".toList))

/-- Have the policy decide on a call, and the user where the policy asks. -/
def obtainPermission (executor : ToolExecutor A) (tool : RegisteredTool A)
    (context : ToolExecutionContext) (description : ToolInvocationDescription) :
    Exec A Unit := do
  let session ← Logged.look id
  let request : PolicyRequest := {
    capability := tool.spec.capability
    mode := session.mode
    grantedCapabilities := session.grantedCapabilities
    threadId := some context.threadId
    grantedThreadCapabilities := session.threadGrantedCapabilities }
  match ← Logged.lift (executor.permissionPolicy request) with
  | .improper => throw (.invariant "Permission policy returned an invalid decision.".toList)
  | .proper decision =>
      if within 1 2000 decision.reason then
        Logged.record (.decided request decision)
        match decision.action with
        | .deny => throw (.expectedFailure (.of .permissionDenied decision.reason))
        | .ask => askApproval tool context description
        | .allow => pure ()
      else throw (.invariant "Permission policy returned an invalid decision.".toList)

/-- The seconds that a call may take. -/
def checkedTimeout (executor : ToolExecutor A) (tool : RegisteredTool A) (arguments : A) :
    Except Raised Seconds := do
  let timeout ← match tool.timeoutResolver with
    | some resolver => resolver arguments
    | none => .ok (.proper executor.timeoutSeconds)
  match timeout with
  | .proper seconds =>
      if seconds.isPositive then .ok seconds
      else .error (.invariant "Tool timeout must be positive.".toList)
  | .improper => .error (.invariant "Tool timeout must be positive.".toList)

/-- Log that a handler runs. -/
def logInvoked (arguments : A) (invoked : Bool) : Exec A Unit :=
  if invoked then Logged.record (.invoked arguments) else pure ()

/-- Run the handler as a task until its deadline. A task that is late or interrupted is cancelled:
if it has not begun, it never does. -/
def invokeWithDeadline (arguments : A) : Exec A (Returned ToolOutput) := do
  match (← wait).handler with
  | .interrupted invoked =>
      logInvoked arguments invoked
      let _ ← wait
      throw .cancelled
  | .late invoked =>
      logInvoked arguments invoked
      throw (if (← wait).cancelled then .cancelled else .timeout)
  | .returned output =>
      logInvoked arguments true
      pure output
  | .raised fault =>
      logInvoked arguments true
      throw fault

/-- A citation that keeps its contract. -/
def checkedCitation [UrlGrammar] : Returned (Text × Text × Text) → Except Raised Citation
  | .improper =>
      .error (.invariant "Tool handler returned an invalid citation contract.".toList)
  | .proper (id, title, url) =>
      match Citation.make id title url with
      | .ok citation => .ok citation
      | .error _ => .error .validation

/-- The output of a handler, checked. -/
def checkedOutput [UrlGrammar] : Returned ToolOutput → Except Raised CheckedOutput
  | .improper => .error (.invariant "Tool handler returned an invalid output contract.".toList)
  | .proper output => do
      let presentation ← match output.presentation with
        | none => .ok none
        | some .improper =>
            .error (.invariant "Tool handler returned an invalid presentation contract.".toList)
        | some (.proper presentation) => (checkedPresentation presentation).map some
      let citations ← match output.citations with
        | .improper =>
            .error (.invariant "Tool handler returned an invalid citation contract.".toList)
        | .proper citations => citations.mapM checkedCitation
      match output.content, output.metadata with
      | .proper content, .proper metadata =>
          if citations.length ≤ 128 then .ok ⟨content, metadata, presentation, citations⟩
          else .error .validation
      | _, _ => .error .validation

/-- Obtain the permission, run the handler and check its output. -/
def runHandler [UrlGrammar] (executor : ToolExecutor A) (tool : RegisteredTool A)
    (context : ToolExecutionContext) (arguments : A) (description : ToolInvocationDescription) :
    Exec A CheckedOutput := do
  obtainPermission executor tool context description
  let _ ← Logged.lift (checkedTimeout executor tool arguments)
  let output ← invokeWithDeadline arguments
  Logged.lift (checkedOutput output)

/-- Execute a described call. -/
def executeDescribed [UrlGrammar] (executor : ToolExecutor A) (tool : RegisteredTool A)
    (request : ToolRequest) (context : ToolExecutionContext) (arguments : A)
    (description : ToolInvocationDescription) : Exec A ToolResult := do
  let presentation ← Logged.lift (checkedPresentation
    ⟨description.verb, description.displayTarget, none, [], none, none, none⟩)
  emitStartedWithCancellation request context presentation
  match ← Logged.attempt (runHandler executor tool context arguments description) with
  | .ok output =>
      let presentation := output.presentation.getD { presentation with
        outcome := some "Completed".toList
        summary := "Completed".toList
        detail := if output.content = [] then none else some (output.content.take 4000) }
      let presentation ← finalizeHandlerOutcome request context .success presentation none
        .toolCompleted
      let content := output.content.take executor.maxContentChars
      if content.length ≤ 30000 then
        pure {
          callId := request.callId
          toolName := request.toolName
          content := content
          metadata := output.metadata
          error := none
          presentation := presentation
          citations := output.citations }
      else throw .validation
  | .error fault => match fault with
    | .cancelled =>
        finalizeCancellation request context presentation
        throw .cancelled
    | .timeout =>
        errorResult request context
          ⟨.timeout, "Tool execution timed out.".toList, false, []⟩ presentation
    | .expectedFailure failure => match validateExpectedToolFailure failure with
      | some details => errorResult request context details presentation
      | none =>
          finalizeUnexpectedFailure request context presentation
          throw (.invariant "Unexpected tool handler failure.".toList)
    | .exit => throw .exit
    | _ =>
        finalizeUnexpectedFailure request context presentation
        throw (.invariant "Unexpected tool handler failure.".toList)

/-- Emit the start of a call and end it as one that failed unexpectedly. -/
def failUnexpectedly {α : Type} (request : ToolRequest) (context : ToolExecutionContext)
    (presentation : ToolPresentation) (message : Text) : Exec A α := do
  emitStartedWithCancellation request context presentation
  finalizeUnexpectedFailure request context presentation
  throw (.invariant message)

/-- Emit the start of a call and end it as a cancelled one. -/
def failCancelled {α : Type} (request : ToolRequest) (context : ToolExecutionContext)
    (presentation : ToolPresentation) : Exec A α := do
  let _ ← finishCancellationSafe (emitStarted request presentation)
  finalizeCancellation request context presentation
  throw .cancelled

/-- Emit the start of a call and end it as one that failed as tools may fail. -/
def failExpectedly [UrlGrammar] (request : ToolRequest) (context : ToolExecutionContext)
    (failure : ExpectedToolFailureDetails) (presentation : ToolPresentation) :
    Exec A ToolResult := do
  emitStartedWithCancellation request context presentation
  errorResult request context failure presentation

/-- Execute a call with checked arguments. -/
def executeArguments [UrlGrammar] (executor : ToolExecutor A) (tool : RegisteredTool A)
    (request : ToolRequest) (context : ToolExecutionContext) (presentation : ToolPresentation)
    (arguments : A) : Exec A ToolResult := do
  match ← Logged.attempt (admitAndDescribe tool context arguments) with
  | .ok description => executeDescribed executor tool request context arguments description
  | .error fault => match fault with
    | .cancelled => failCancelled request context presentation
    | .expectedFailure failure => match validateExpectedToolFailure failure with
      | some details => failExpectedly request context details presentation
      | none =>
          failUnexpectedly request context presentation
            "Unexpected tool invocation policy failure.".toList
    | .exit => throw .exit
    | _ =>
        failUnexpectedly request context presentation
          "Unexpected tool invocation policy failure.".toList

/-- Execute a call. -/
def execute [UrlGrammar] (executor : ToolExecutor A) (request : ToolRequest)
    (context : ToolExecutionContext) : Exec A ToolResult := do
  let registered := executor.resolve request.toolName
  let presentation ← Logged.lift (staticPresentation request registered)
  match registered with
  | none =>
      failExpectedly request context ⟨.notFound, "Unknown tool.".toList, false, []⟩ presentation
  | some tool => match tool.parse request.arguments with
    | .ok arguments => executeArguments executor tool request context presentation arguments
    | .error fault => match fault with
      | .cancelled => failCancelled request context presentation
      | .validation =>
          failExpectedly request context
            ⟨.invalidArguments, "Tool arguments did not match the schema.".toList, false, []⟩
            presentation
      | .exit => throw .exit
      | _ =>
          failUnexpectedly request context presentation
            "Unexpected tool input validation failure.".toList

end Executor

end AwesomeAgent.ToolExecution
