import AwesomeAgent.Surface.DeltaBatcher
import AwesomeAgent.Surface.Reconcile

/-!
# The Surface controller

One consumer takes the events of a connection and gives them to the batcher, or holds them
while the retry of a Thread is not decided. The end of an Operation reads the durable Thread
and reconciles its Turn. The application dispatches its own actions, replaces the Thread
and activates or rejects a retry. The history records what was dispatched and which
retries were activated; no code reads it.
-/

namespace AwesomeAgent.Surface

/-- The identities of the Operation that retries a Thread. -/
structure ThreadRetryOperation where
  operationId : String
  threadId : String
  turnId : String
  clientMessageId : String
  deriving DecidableEq, Repr

/-- Whether an event names another identity than a retry. -/
def ThreadRetryOperation.disagrees (operation : ThreadRetryOperation) (event : EventEnvelope) :
    Bool :=
  (event.operationId.isSome ∧ event.operationId ≠ some operation.operationId) ∨
    (event.threadId.isSome ∧ event.threadId ≠ some operation.threadId) ∨
    (event.turnId.isSome ∧ event.turnId ≠ some operation.turnId) ∨
    (event.clientMessageId.isSome ∧ event.clientMessageId ≠ some operation.clientMessageId)

/-- Events that wait for the decision on a retry request. -/
structure ThreadRetryGate where
  request : Nat
  events : List EventEnvelope
  bytes : Nat
  expected : Option ThreadRetryOperation
  deriving DecidableEq

/-- Events that a gate may hold. -/
def threadRetryEventLimit : Nat := 1024

/-- Bytes that a gate may hold. -/
def threadRetryByteLimit : Nat := 4 * 1024 * 1024

/-- A terminal Operation whose durable Thread is being read. -/
structure Reconciliation where
  key : String
  threadId : String
  generation : Nat
  operationId : String
  turnId : String
  live : LiveTranscriptProjection
  deriving DecidableEq

/-- Whether an event ends an Operation. -/
def EventPayload.endsOperation : EventPayload → Bool
  | .operationTerminal _ => true
  | _ => false

/-- Where the consumer of events is. -/
inductive ConsumerState
  | running
  | ending
  | ended
  deriving DecidableEq, Repr

/-- What happened: a dispatch to the store, or the activation of a retry. -/
inductive HistoryItem
  | dispatched (action : SurfaceAction)
  | activated (operation : ThreadRetryOperation) (generation : Nat)
  deriving DecidableEq

/-- The state of a controller, and what happened so far: for each retry that was requested, what
had been accepted before. -/
structure SurfaceController where
  dispatcher : Dispatcher
  batcher : DeltaBatcher
  retryGate : Option ThreadRetryGate
  requests : List (List EventEnvelope)
  awaiting : List Nat
  activeRetryBinding : Option ThreadRetryOperation
  replaying : List EventEnvelope
  fatalFault : Option String
  closed : Bool
  consumer : ConsumerState
  reconciledTerminals : List String
  reconciliations : List Reconciliation
  arrived : List EventEnvelope
  accepted : List EventEnvelope
  history : List HistoryItem

/-- The answer to `thread.read`: a page, a product error, or a request that failed. -/
inductive ThreadReadAnswer
  | page (page : ThreadPage)
  | error (message : String)
  | failed (message : String) (closed : Bool)
  deriving DecidableEq, Repr

/-- What may happen next. A response without an Operation refuses the retry. -/
inductive ControllerAction
  | event (event : EventEnvelope)
  | tick
  | endEvents (failure : Option String)
  | requestRetry
  | respond (request : Nat) (answer : Option ThreadRetryOperation)
  | rejectRequest (request : Nat)
  | activate (operation : ThreadRetryOperation) (generation : Nat)
  | reject (message : String)
  | replay
  | dispatch (action : SurfaceAction)
  | readThread (index : Nat) (answer : ThreadReadAnswer)
  | close
  | finishClose
  deriving DecidableEq

/-- The actions that the application dispatches itself. -/
def SurfaceAction.ofApplication : SurfaceAction → Bool
  | .received .. | .transcriptReconciled .. | .protocolFatal .. | .reconnectReset
  | .surfaceClosed => false
  | _ => true

namespace SurfaceController

variable (parse : DateParse) (eventBytes : EventEnvelope → Nat)

/-- The Surface state. -/
def state (c : SurfaceController) : SurfaceState := c.dispatcher.state

/-- The store after an action that did not throw. -/
def record (c : SurfaceController) (action : SurfaceAction) (state : SurfaceState) :
    SurfaceController :=
  { c with
    dispatcher := { c.dispatcher with state }
    history := c.history ++ [.dispatched action] }

/-- Dispatch one value of the batcher under its generation. -/
def emit (c : SurfaceController) (value : BatchedEvent) : SurfaceController :=
  { c with
    dispatcher := c.dispatcher.dispatchBatched parse value
    history := c.history ++ [.dispatched (.received value (c.dispatcher.eventGeneration value).1)] }

/-- Lose the connection; the first fault stays. -/
def failProtocol (c : SurfaceController) (code message : String) : SurfaceController :=
  if c.fatalFault.isSome then c
  else
    { c.record (.protocolFatal code message) (fatal c.state code message) with
      fatalFault := some message }

/-- Start to reconcile the Turn of a terminal Operation, once. -/
def beginReconciliation (c : SurfaceController) (threadId operationId turnId : String)
    (generation : Nat) : SurfaceController :=
  let key := "operation:" ++ operationId
  if key ∈ c.reconciledTerminals then c
  else
    { c with
      reconciledTerminals := c.reconciledTerminals ++ [key]
      reconciliations := c.reconciliations ++
        [⟨key, threadId, generation, operationId, turnId, projectLiveTurn c.state⟩] }

/-- The Thread of a terminal event: its own, or the current one. -/
def terminalThread (c : SurfaceController) (event : EventEnvelope) : Option String :=
  present (event.threadId.or (c.state.application.bind ApplicationState.currentThreadId))

/-- The Turn of a terminal event: its own, or the live one. -/
def terminalTurn (c : SurfaceController) (event : EventEnvelope) : Option String :=
  present (event.turnId.or (c.state.turn.map TurnProjection.id))

/-- Reconcile after the terminal event of an Operation, and end the binding of its retry. -/
def finishTerminal (c : SurfaceController) (event : EventEnvelope) : SurfaceController :=
  match event.payload with
  | .operationTerminal _ =>
      match c.terminalThread event, present event.operationId, c.terminalTurn event with
      | some threadId, some operationId, some turnId =>
          let begun := c.beginReconciliation threadId operationId turnId
            (c.dispatcher.generationOf event.operationId)
          if c.activeRetryBinding.any fun binding => binding.operationId = operationId then
            { begun with activeRetryBinding := none }
          else begun
      | _, _, _ => c
  | _ => c

/-- The code and the message of a failed acceptance. -/
abbrev EventAcceptanceFailure := String × String

/-- Accept an event. -/
def acceptEvent (c : SurfaceController) (event : EventEnvelope) :
    SurfaceController × Option EventAcceptanceFailure :=
  if c.activeRetryBinding.any fun binding => binding.disagrees event then
    (c, some ("thread_retry_identity_mismatch",
      "Retry Event identity does not match its accepted Operation"))
  else
    let (batcher, values) := c.batcher.accept event
    let emitted := values.foldl (emit parse) { c with batcher }
    match batcher.guard.fault with
    | some fault => (emitted, some ("protocol_desynchronized", fault))
    | none => ({ emitted with accepted := emitted.accepted ++ [event] }.finishTerminal event, none)

/-- Hold an event; a gate that is full fails. -/
def bufferRetryEvent (c : SurfaceController) (gate : ThreadRetryGate) (event : EventEnvelope) :
    SurfaceController :=
  if threadRetryEventLimit ≤ gate.events.length ∨
      threadRetryByteLimit < gate.bytes + eventBytes event then
    { { c with retryGate := none }.failProtocol "thread_retry_buffer_limit"
        "Thread retry Event buffer exceeded its bounded capacity" with consumer := .ending }
  else
    { c with retryGate := some { gate with
        events := gate.events ++ [event], bytes := gate.bytes + eventBytes event } }

/-- An event arrives. -/
def take (c : SurfaceController) (event : EventEnvelope) : SurfaceController :=
  { c with arrived := c.arrived ++ [event] }

/-- The consumer takes an event. -/
def consume (c : SurfaceController) (event : EventEnvelope) : SurfaceController :=
  if c.fatalFault.isSome then { c.take event with consumer := .ending }
  else
    match c.retryGate with
    | some gate => (c.take event).bufferRetryEvent eventBytes gate event
    | none =>
        match (c.take event).acceptEvent parse event with
        | (next, some failure) =>
            { next.failProtocol failure.1 failure.2 with consumer := .ending }
        | (next, none) => next

/-- Why the held events do not fit the decision. -/
def validateBufferedRetryEvents (c : SurfaceController) (gate : ThreadRetryGate)
    (expected : Option ThreadRetryOperation) : Option String :=
  match expected with
  | some operation =>
      if gate.events.any fun event => operation.disagrees event then
        some "Buffered retry Event identity does not match its accepted Operation"
      else none
  | none =>
      let currentThreadId := c.state.application.bind ApplicationState.currentThreadId
      if gate.events.any fun event =>
          event.threadId.isSome ∧ event.threadId ≠ currentThreadId then
        some "A rejected retry emitted an Event for another Thread"
      else none

/-- Open the gate: bind an accepted retry, and replay what was held. -/
def releaseRetryGate (c : SurfaceController) (gate : ThreadRetryGate) (generation : Nat)
    (expected : Option ThreadRetryOperation) : SurfaceController :=
  let opened := { c with retryGate := none }
  match c.validateBufferedRetryEvents gate expected with
  | some fault => opened.failProtocol "thread_retry_identity_mismatch" fault
  | none =>
      match expected with
      | some operation => { opened with
          dispatcher := { opened.dispatcher with
            operationGenerations :=
              opened.dispatcher.operationGenerations.set operation.operationId generation }
          activeRetryBinding := some operation
          history := opened.history ++ [.activated operation generation]
          replaying := gate.events }
      | none => { opened with replaying := gate.events }

/-- Accept the next of the released events; a failure drops the rest. -/
def replayNext (c : SurfaceController) (event : EventEnvelope) (rest : List EventEnvelope) :
    SurfaceController :=
  match { c with replaying := rest }.acceptEvent parse event with
  | (next, some failure) =>
      { next with activeRetryBinding := none, replaying := [] }.failProtocol failure.1 failure.2
  | (next, none) => next

/-- The response to a retry request opens the gate or names the Operation that may open it. -/
def respondRetry (c : SurfaceController) (request : Nat)
    (answer : Option ThreadRetryOperation) : SurfaceController :=
  match c.retryGate with
  | some gate =>
      if gate.request = request then
        match answer with
        | some operation => { c with retryGate := some { gate with expected := some operation } }
        | none => c.releaseRetryGate gate c.state.threadGeneration none
      else c
  | none => c

/-- Activate an accepted retry in the Thread that the transition installed. -/
def activateThreadRetry (c : SurfaceController) (operation : ThreadRetryOperation)
    (generation : Nat) : SurfaceController :=
  match c.retryGate with
  | some gate =>
      match gate.expected with
      | some expected =>
          if expected = operation ∧ c.state.threadGeneration = generation ∧
              c.state.application.bind ApplicationState.currentThreadId =
                some operation.threadId then
            c.releaseRetryGate gate generation (some operation)
          else
            { c with retryGate := none }.failProtocol "thread_retry_identity_mismatch"
              "Thread retry activation identity does not match the installed transition"
      | none => c.failProtocol "thread_retry_gate_missing"
          "Thread retry response has no pending Event gate"
  | none => c.failProtocol "thread_retry_gate_missing"
      "Thread retry response has no pending Event gate"

/-- Dispatch an action; an action that throws changes nothing. -/
def dispatch (c : SurfaceController) (action : SurfaceAction) :
    SurfaceController × Option TranscriptIdentityError :=
  match surfaceReducer parse c.state action with
  | .ok state => (c.record action state, none)
  | .error error => (c, some error)

/-- Install the reconciled Turn, or fail. -/
def installReconciled (c : SurfaceController) (r : Reconciliation)
    (result : TerminalTurnReconciliation) (thread : Option ThreadPage) : SurfaceController :=
  match c.dispatch parse (.transcriptReconciled r.generation result.operationId result.turnId
      result.blocks thread) with
  | (next, none) => next
  | (next, some error) => next.failProtocol "terminal_reconciliation_failed"
      ("Transcript key " ++ error.key ++ " identifies different blocks.")

/-- The answer to a read of the durable Thread. -/
def readAnswered (c : SurfaceController) (r : Reconciliation) (answer : ThreadReadAnswer) :
    SurfaceController :=
  match answer with
  | .page page =>
      match reconcileTerminalTurn r.live page with
      | .ok result => c.installReconciled parse r result (some page)
      | .error error => c.failProtocol "terminal_reconciliation_failed" error.message
  | .error message =>
      c.installReconciled parse r ⟨r.operationId, r.turnId, r.live.blocks ++
        [⟨"reconcile:error:" ++ r.key, .error "thread_read_failed" message⟩]⟩ none
  | .failed message closed =>
      if c.closed ∧ closed then c
      else c.failProtocol "terminal_reconciliation_failed" message

/-- The stream of events ends; what waits is emitted and nothing more is accepted. -/
def endEvents (c : SurfaceController) (failure : Option String) : SurfaceController :=
  let failed :=
    match c.consumer, failure with
    | .running, some message => c.failProtocol "event_consumer_failed" message
    | _, _ => c
  let (batcher, values) := failed.batcher.close
  { values.foldl (emit parse) { failed with batcher } with consumer := .ended }

/-- Emit what waits. -/
def tick (c : SurfaceController) : SurfaceController :=
  let (batcher, values) := c.batcher.flush
  values.foldl (emit parse) { c with batcher }

/-- One step while no gate is released. -/
def act (c : SurfaceController) (action : ControllerAction) : Option SurfaceController :=
  match action with
  | .replay => none
  | .event event =>
      if c.consumer = .running then some (c.consume parse eventBytes event) else none
  | .tick => some (c.tick parse)
  | .endEvents failure =>
      if c.consumer = .ended then none else some (c.endEvents parse failure)
  | .requestRetry =>
      if c.closed ∨ c.retryGate.isSome then some c
      else some { c with
        retryGate := some ⟨c.requests.length, [], 0, none⟩
        requests := c.requests ++ [c.accepted]
        awaiting := c.awaiting ++ [c.requests.length] }
  | .respond request answer =>
      if request ∈ c.awaiting then
        some ({ c with awaiting := c.awaiting.erase request }.respondRetry request answer)
      else none
  | .rejectRequest request =>
      if request ∈ c.awaiting then
        some ({ c with awaiting := c.awaiting.erase request }.respondRetry request none)
      else none
  | .activate operation generation => some (c.activateThreadRetry operation generation)
  | .reject message =>
      some ({ c with retryGate := none }.failProtocol "thread_retry_transition_rejected" message)
  | .dispatch action =>
      if action.ofApplication then some (c.dispatch parse action).1 else none
  | .readThread index answer =>
      match c.reconciliations[index]? with
      | some r => some ({ c with
          reconciliations := c.reconciliations.eraseIdx index }.readAnswered parse r answer)
      | none => none
  | .close =>
      if c.closed then some c
      else some { c with closed := true, retryGate := none, activeRetryBinding := none }
  | .finishClose =>
      if c.closed ∧ c.consumer = .ended ∧ c.reconciliations = [] then
        some (c.dispatch parse .surfaceClosed).1
      else none

/-- One step. The release of a gate is not interrupted. -/
def step (c : SurfaceController) (action : ControllerAction) : Option SurfaceController :=
  match c.replaying with
  | [] => c.act parse eventBytes action
  | event :: rest => if action = .replay then some (c.replayNext parse event rest) else none

/-- A controller before the first event. -/
def connected : SurfaceController where
  dispatcher := ⟨{ initialSurfaceState with connection := .starting }, .empty⟩
  batcher := .initial
  retryGate := none
  requests := []
  awaiting := []
  activeRetryBinding := none
  replaying := []
  fatalFault := none
  closed := false
  consumer := .running
  reconciledTerminals := []
  reconciliations := []
  arrived := []
  accepted := []
  history := []

end SurfaceController

end AwesomeAgent.Surface
