import AwesomeAgent.Surface.Transcript

/-!
# The reducer of the Surface

Every change of the Surface state is an action: an event or a delta of the stream, a
replaced Thread, a reconciled Turn, a message of the user. An action that carries a Thread
generation counts only for the Thread of that generation.
-/

namespace AwesomeAgent.Surface

/-- Lose the connection. -/
def fatal (state : SurfaceState) (code message : String) : SurfaceState :=
  { state with connection := .fatal, fatal := some ⟨code, message⟩ }

/-- Change the live Turn. -/
def updateTurn (state : SurfaceState) (update : TurnProjection → TurnProjection) : SurfaceState :=
  match state.activeOperation with
  | some operation =>
      match operation.turn with
      | some turn =>
          { state with activeOperation := some { operation with turn := some (update turn) } }
      | none => fatal state "surface_invariant" "Turn projection is missing"
  | none => fatal state "surface_invariant" "Turn projection is missing"

/-- Whether an item is an interval of reasoning that has not ended. -/
def TimelineProjection.isOpen : TimelineProjection → Bool
  | .thinking item => item.durationMs.isNone
  | _ => false

/-- Whether an item is the call of a tool. -/
def TimelineProjection.isCall (callId : String) : TimelineProjection → Bool
  | .tool item => item.callId = callId
  | _ => false

/-- Whether an item is a segment of the answer. -/
def TimelineProjection.isAssistant : TimelineProjection → Bool
  | .assistant _ => true
  | _ => false

/-- Append reasoning to an interval that has not ended. -/
def TimelineProjection.appendReasoning (text : Text) : TimelineProjection → TimelineProjection
  | .thinking item =>
      if item.durationMs.isNone then
        .thinking { item with text := appendReasoningTail item.text text }
      else .thinking item
  | item => item

/-- `Date.parse`, in milliseconds. -/
abbrev DateParse := String → Int

/-- End an interval of reasoning. -/
def TimelineProjection.close (parse : DateParse) (endedAt : String) :
    TimelineProjection → TimelineProjection
  | .thinking item =>
      .thinking { item with durationMs := some (parse endedAt - parse item.startedAt).toNat }
  | item => item

/-- End the last interval of reasoning that is open. -/
def closeThinking (parse : DateParse) (timeline : List TimelineProjection) (endedAt : String) :
    List TimelineProjection :=
  match timeline with
  | [] => []
  | item :: rest =>
      if rest.any TimelineProjection.isOpen then item :: closeThinking parse rest endedAt
      else if item.isOpen then item.close parse endedAt :: rest
      else item :: rest

/-- Project reasoning onto a live Turn. -/
def projectReasoning (turn : TurnProjection) (delta : CoalescedDelta) : TurnProjection :=
  if turn.timeline.any TimelineProjection.isOpen then
    { turn with
      timeline := turn.timeline.map (TimelineProjection.appendReasoning delta.text) }
  else
    { turn with
      timeline := turn.timeline ++ [.thinking
        { id := "thinking:" ++ turn.id ++ ":" ++ toString (turn.thinkingSequence + 1)
          startedAt := delta.firstTimestamp
          text := appendReasoningTail [] delta.text
          durationMs := none }]
      thinkingSequence := turn.thinkingSequence + 1 }

/-- Append answer text to the last segment, or start a segment. -/
def appendAnswer (turnId : String) (timeline : List TimelineProjection) (text : Text) :
    List TimelineProjection :=
  match timeline.getLast? with
  | some (.assistant last) =>
      timeline.dropLast ++ [.assistant { last with text := last.text ++ text }]
  | _ =>
      timeline ++ [.assistant
        { id := "assistant:" ++ turnId ++ ":" ++
            toString (timeline.countP TimelineProjection.isAssistant + 1)
          text := text }]

/-- Project a delta onto a live Turn. -/
def projectDelta (parse : DateParse) (turn : TurnProjection) (delta : CoalescedDelta) :
    TurnProjection :=
  if delta.reasoning then projectReasoning turn delta
  else
    { turn with
      timeline := appendAnswer turn.id (closeThinking parse turn.timeline delta.firstTimestamp)
        delta.text }

/-- White space of regular expressions and of `trim`. -/
def isSpace (c : Char) : Bool :=
  let n := c.toNat
  decide ((0x09 ≤ n ∧ n ≤ 0x0d) ∨ n = 0x20 ∨ n = 0xa0 ∨ n = 0x1680 ∨ (0x2000 ≤ n ∧ n ≤ 0x200a) ∨
    n = 0x2028 ∨ n = 0x2029 ∨ n = 0x202f ∨ n = 0x205f ∨ n = 0x3000 ∨ n = 0xfeff)

/-- `message.trim().replace(/\s+/gu, " ")`. -/
def normalizeWarningMessage (message : String) : String :=
  let words := (message.toList.splitOnP isSpace).filter fun word => !word.isEmpty
  " ".intercalate (words.map String.ofList)

/-- The Turn that is live. -/
def SurfaceState.turn (state : SurfaceState) : Option TurnProjection :=
  state.activeOperation.bind OperationProjection.turn

/-- The result of a tool call. -/
def ToolProjection.finish (tool : ToolProjection) (outcome : Outcome) (result : ToolResult) :
    ToolProjection :=
  { tool with
    status := .ended outcome
    verb := result.verb
    target := result.target.or tool.target
    outcome := some result.outcome
    summary := result.summary
    detail := result.detail.or tool.detail
    detailTruncatedCount := result.detailTruncatedCount.or tool.detailTruncatedCount
    durationMs := some result.durationMs
    errorCode := result.errorCode.or tool.errorCode }

/-- Finish a call of a tool in place. -/
def TimelineProjection.finishCall (outcome : Outcome) (result : ToolResult) :
    TimelineProjection → TimelineProjection
  | .tool item =>
      if item.callId = result.callId then .tool (item.finish outcome result) else .tool item
  | item => item

/-- Whether the first item of a call is running. -/
def callRuns (callId : String) (timeline : List TimelineProjection) : Bool :=
  match timeline.find? (TimelineProjection.isCall callId) with
  | some (.tool item) => item.status = .active
  | _ => false

/-- Count a warning, under its own entry if it is new. -/
def addWarning (warnings : List SurfaceWarning) (operationId : Option String)
    (code message : String) : List SurfaceWarning :=
  let normalized := normalizeWarningMessage message
  match warnings.findIdx? fun warning => warning.code = code ∧
      warning.operationId = operationId ∧ normalizeWarningMessage warning.message = normalized with
  | some index => warnings.modify index fun warning => { warning with count := warning.count + 1 }
  | none => warnings ++ [{
      id := "warning:" ++ code ++ ":" ++ toString (warnings.length + 1)
      code := code
      message := message
      count := 1
      operationId := operationId }]

/-- Apply an event to the state of its own Thread. -/
def reduceEvent (parse : DateParse) (state : SurfaceState) (event : EventEnvelope) :
    SurfaceState :=
  let next := { state with eventSequence := event.sequence }
  match event.payload with
  | .operationStarted =>
      if state.activeOperation.any fun operation => operation.status = .active then
        fatal next "operation_overlap" "Operation started while another is active"
      else
        { next with activeOperation := some ⟨event.operationId.getD "", .active, none⟩ }
  | .operationTerminal outcome =>
      match state.activeOperation with
      | some operation =>
          if some operation.id = event.operationId ∧ operation.status = .active then
            { next with activeOperation := some { operation with status := .ended outcome } }
          else
            fatal next "operation_terminal_invalid" "Operation terminal has no active start"
      | none => fatal next "operation_terminal_invalid" "Operation terminal has no active start"
  | .turnStarted =>
      match state.activeOperation with
      | some operation =>
          if operation.status = .active ∧
              ¬ operation.turn.any (fun turn => turn.status = .active) then
            { next with activeOperation := some { operation with
              turn := some {
                id := event.turnId.getD ""
                status := .active
                startedAt := event.timestamp
                timeline := []
                thinkingSequence := 0
                durationMs := none } } }
          else fatal next "turn_start_invalid" "Turn start requires one active Operation"
      | none => fatal next "turn_start_invalid" "Turn start requires one active Operation"
  | .turnTerminal outcome durationMs =>
      match state.turn with
      | some turn =>
          if some turn.id = event.turnId ∧ turn.status = .active then
            updateTurn next fun turn => { turn with
              status := .ended outcome
              timeline := closeThinking parse turn.timeline event.timestamp
              durationMs := some durationMs }
          else fatal next "turn_terminal_invalid" "Turn terminal has no active start"
      | none => fatal next "turn_terminal_invalid" "Turn terminal has no active start"
  | .toolStarted callId toolName verb target =>
      match state.turn with
      | some turn =>
          if turn.timeline.any (TimelineProjection.isCall callId) then
            fatal next "tool_start_invalid" "Tool start is missing or duplicated"
          else
            updateTurn next fun turn => { turn with
              timeline := closeThinking parse turn.timeline event.timestamp ++ [.tool {
                callId := callId
                toolName := toolName
                status := .active
                startedAt := event.timestamp
                verb := verb
                target := target
                outcome := none
                summary := ""
                detail := none
                detailTruncatedCount := none
                durationMs := none
                errorCode := none }] }
      | none => fatal next "tool_start_invalid" "Tool start is missing or duplicated"
  | .toolTerminal outcome result =>
      if state.turn.any fun turn => callRuns result.callId turn.timeline then
        updateTurn next fun turn => { turn with
          timeline := turn.timeline.map (TimelineProjection.finishCall outcome result) }
      else fatal next "tool_terminal_invalid" "Tool terminal has no active start"
  | .usageUpdated usage => { next with usage := some usage }
  | .interactionRequired request =>
      { next with
        pendingInteraction := some ⟨request, event.threadId, event.turnId, event.operationId⟩ }
  | .interactionResolved interactionId =>
      if state.pendingInteraction.any fun p => p.request.interactionId = interactionId then
        { next with pendingInteraction := none }
      else next
  | .warning code message =>
      { next with warnings := addWarning state.warnings event.operationId code message }
  | _ => next

/-- Apply a delta to the state of its own Thread. -/
def reduceDelta (parse : DateParse) (state : SurfaceState) (delta : CoalescedDelta) :
    SurfaceState :=
  match state.activeOperation with
  | some operation =>
      if operation.status = .active ∧ some operation.id = delta.operationId ∧
          operation.turn.any (fun turn => turn.status = .active ∧ some turn.id = delta.turnId) then
        updateTurn { state with eventSequence := delta.lastSequence }
          fun turn => projectDelta parse turn delta
      else fatal state "delta_identity_invalid" "Delta identity has no active Turn"
  | none => fatal state "delta_identity_invalid" "Delta identity has no active Turn"

/-- Apply what the batcher emits: what belongs to another generation only counts. -/
def receive (parse : DateParse) (state : SurfaceState) (value : BatchedEvent) (generation : Nat) :
    SurfaceState :=
  match value with
  | .event event =>
      if generation = state.threadGeneration then reduceEvent parse state event
      else { state with eventSequence := max state.eventSequence event.sequence }
  | .delta delta =>
      if generation = state.threadGeneration then reduceDelta parse state delta
      else { state with eventSequence := max state.eventSequence delta.lastSequence }

/-- What changes the Surface state. -/
inductive SurfaceAction
  | connectionStart
  | connectionHandshaking
  | handshakeTrustRequired
  | handshakeReady
  | hydrateApplication (application : ApplicationState)
  | hydrateThread (thread : ThreadPage)
  | threadReplaced (application : ApplicationState) (thread : ThreadPage)
      (transcript : List TranscriptBlock)
  | threadMetadataUpdated (thread : ThreadRecord)
  | received (value : BatchedEvent) (generation : Nat)
  | transcriptReconciled (generation : Nat) (operationId turnId : String)
      (blocks : List TranscriptBlock) (thread : Option ThreadPage)
  | commandResult (block : TranscriptBlock) (generation : Nat)
  | commandSubmitted (submissionId text : String) (generation : Nat)
  | commandResultReplace (block : TranscriptBlock) (generation : Nat)
  | userPending (clientMessageId : String) (text : Text) (generation : Nat)
  | userAccepted (clientMessageId : String) (generation : Nat)
  | userFailed (clientMessageId message : String) (generation : Nat)
  | protocolFatal (code message : String)
  | coreExited (exit : CoreExit)
  | reconnectReset
  | surfaceClosed
  deriving DecidableEq

/-- Merge blocks into the committed transcript. -/
def commitBlocks (state : SurfaceState) (blocks : List TranscriptBlock) :
    Except TranscriptIdentityError SurfaceState := do
  let merged ← mergeTranscriptBlocks (state.committedTranscript.getD []) blocks
  return { state with committedTranscript := some merged }

/-- Install the blocks of a Turn that ended, in the place of its projection. -/
def reconcileTranscript (state : SurfaceState) (operationId turnId : String)
    (blocks : List TranscriptBlock) (thread : Option ThreadPage) :
    Except TranscriptIdentityError SurfaceState :=
  let base :=
    if state.activeOperation.any (fun operation => operation.id = operationId ∧
        operation.turn.any fun turn => turn.id = turnId) then
      { state with activeOperation := none }
    else state
  let currentThreadId := base.thread.map fun page => page.thread.id
  let reconciledThread :=
    if thread.map (fun page => page.thread.id) = currentThreadId then thread else base.thread
  commitBlocks { base with
    thread := reconciledThread.or base.thread
    warnings := base.warnings.filter fun warning => warning.operationId ≠ some operationId } blocks

/-- Change the status of a user message. -/
def BlockContent.updateUser (clientMessageId : String) (status : UserStatus)
    (errorMessage : Option String) : BlockContent → BlockContent
  | .user id current text old =>
      if id = clientMessageId then .user id status text (errorMessage.or old)
      else .user id current text old
  | content => content

/-- Change the status of a user message of the committed transcript. -/
def updateUserMessage (state : SurfaceState) (clientMessageId : String) (status : UserStatus)
    (errorMessage : Option String) : SurfaceState :=
  { state with committedTranscript := state.committedTranscript.map fun blocks =>
      blocks.map fun block => { block with
        content := block.content.updateUser clientMessageId status errorMessage } }

/-- Replace the block of a key. -/
def replaceBlock (state : SurfaceState) (block : TranscriptBlock) : SurfaceState :=
  { state with committedTranscript := some ((state.committedTranscript.getD []).map fun current =>
      if current.key = block.key then block else current) }

/-- Apply an action to the Surface state. -/
def surfaceReducer (parse : DateParse) (state : SurfaceState) (action : SurfaceAction) :
    Except TranscriptIdentityError SurfaceState :=
  match action with
  | .connectionStart => .ok { state with connection := .starting }
  | .connectionHandshaking => .ok { state with connection := .handshaking }
  | .handshakeTrustRequired => .ok { state with connection := .trustRequired }
  | .handshakeReady => .ok { state with connection := .ready }
  | .hydrateApplication application => .ok { state with application := some application }
  | .hydrateThread thread => .ok { state with thread := some thread }
  | .threadReplaced application thread transcript =>
      .ok { initialSurfaceState with
        connection := state.connection
        eventSequence := state.eventSequence
        threadGeneration := state.threadGeneration + 1
        application := some application
        thread := some thread
        committedTranscript := some transcript }
  | .threadMetadataUpdated record =>
      match state.thread with
      | some page =>
          if page.thread.id = record.id then
            .ok { state with thread := some { page with thread := record } }
          else .ok state
      | none => .ok state
  | .received value generation => .ok (receive parse state value generation)
  | .transcriptReconciled generation operationId turnId blocks thread =>
      if generation = state.threadGeneration then
        reconcileTranscript state operationId turnId blocks thread
      else .ok state
  | .commandResult block generation =>
      if generation = state.threadGeneration then commitBlocks state [block] else .ok state
  | .commandSubmitted submissionId text generation =>
      if generation = state.threadGeneration then
        commitBlocks state [⟨"command:" ++ submissionId, .commandInput submissionId text⟩]
      else .ok state
  | .commandResultReplace block generation =>
      if generation = state.threadGeneration then .ok (replaceBlock state block) else .ok state
  | .userPending clientMessageId text generation =>
      if generation = state.threadGeneration then
        commitBlocks state
          [⟨"user:" ++ clientMessageId, .user clientMessageId .pending text none⟩]
      else .ok state
  | .userAccepted clientMessageId generation =>
      if generation = state.threadGeneration then
        .ok (updateUserMessage state clientMessageId .accepted none)
      else .ok state
  | .userFailed clientMessageId message generation =>
      if generation = state.threadGeneration then
        .ok (updateUserMessage state clientMessageId .failed (some message))
      else .ok state
  | .protocolFatal code message => .ok (fatal state code message)
  | .coreExited exit => .ok { state with coreExit := some exit }
  | .reconnectReset => .ok initialSurfaceState
  | .surfaceClosed => .ok { state with connection := .closed }

end AwesomeAgent.Surface
