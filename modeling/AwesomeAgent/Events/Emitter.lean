import AwesomeAgent.Library.Runs

/-!
# The event stream

The emitter numbers the events of a session, follows the lifecycle of Operations
and Turns, and hands one event at a time to a sink. The client accepts a stream
of events only if their numbers have no gap.
-/

namespace AwesomeAgent

/-- Event types. -/
inductive EventType
  | operationStarted
  | operationCompleted
  | operationFailed
  | operationCancelled
  | turnStarted
  | turnCompleted
  | turnFailed
  | turnCancelled
  | assistantTextDelta
  | assistantReasoningDelta
  | providerRetrying
  | toolStarted
  | toolCompleted
  | toolFailed
  | toolCancelled
  | contextPrepared
  | contextCompressed
  | usageUpdated
  | memoryStatus
  | interactionRequired
  | interactionResolved
  | warning
  deriving DecidableEq, Repr

/-- What has a lifecycle. -/
inductive LifecycleKind
  | operation
  | turn
  deriving DecidableEq, Repr

/-- The stages of a lifecycle. -/
inductive LifecycleStage
  | started
  | terminal
  deriving DecidableEq, Repr

/-- The name of a kind in messages. -/
def LifecycleKind.name : LifecycleKind → String
  | .operation => "operation"
  | .turn => "turn"

/-- The stage that an event type announces. -/
def EventType.stage : EventType → Option (LifecycleKind × LifecycleStage)
  | .operationStarted => some (.operation, .started)
  | .operationCompleted | .operationFailed | .operationCancelled => some (.operation, .terminal)
  | .turnStarted => some (.turn, .started)
  | .turnCompleted | .turnFailed | .turnCancelled => some (.turn, .terminal)
  | _ => none

/-- The largest integer that a JSON number carries exactly. -/
def maxJsonSafeInteger : Nat := 9007199254740991

/-- Terminal identifiers that the emitter remembers. -/
def maxLifecycleHistory : Nat := 4096

/-- Arguments of one call of the emitter; the payload gives the event type. -/
structure EmitRequest where
  eventType : EventType
  threadId : Option String
  turnId : Option String
  operationId : Option String
  clientMessageId : Option String
  deriving DecidableEq, Repr

/-- The identifier of a kind. -/
def EmitRequest.identifier (r : EmitRequest) : LifecycleKind → Option String
  | .operation => r.operationId
  | .turn => r.turnId

/-- The stage of an identifier that a request announces. -/
def EmitRequest.stageOf (r : EmitRequest) (kind : LifecycleKind) (identifier : String) :
    Option LifecycleStage :=
  match r.eventType.stage with
  | none => none
  | some (k, stage) =>
      if k = kind ∧ r.identifier kind = some identifier then some stage else none

/-- Operation events name their Operation, Turn events their Thread and Turn. -/
def EmitRequest.hasIdentity (r : EmitRequest) : Bool :=
  match r.eventType.stage with
  | some (.operation, _) => r.operationId.isSome
  | some (.turn, _) => r.threadId.isSome && r.turnId.isSome
  | none => true

/-- Identifiers of client messages: `client_` and letters, digits, `_` or `-`. -/
def isClientMessageId (text : String) : Bool :=
  let rest := text.toList.drop 7
  text.toList.take 7 = "client_".toList ∧ rest ≠ [] ∧
    rest.all fun c => c.isAlphanum || c = '_' || c = '-'

/-- The fields of an event before they are validated. -/
structure EventFields extends EmitRequest where
  sequence : Nat
  sessionId : String
  workspaceKey : String
  deriving DecidableEq, Repr

/-- What the envelope validators accept. -/
def EventFields.Valid (e : EventFields) : Prop :=
  (1 ≤ e.sequence ∧ e.sequence ≤ maxJsonSafeInteger) ∧
  (1 ≤ e.sessionId.length ∧ e.sessionId.length ≤ 128) ∧
  (1 ≤ e.workspaceKey.length ∧ e.workspaceKey.length ≤ 512) ∧
  (∀ i ∈ e.threadId, i.length ≤ 128) ∧ (∀ i ∈ e.turnId, i.length ≤ 128) ∧
  (∀ i ∈ e.operationId, i.length ≤ 128) ∧
  (∀ i ∈ e.clientMessageId, isClientMessageId i = true ∧ i.length ≤ 128) ∧
  e.hasIdentity = true

instance EventFields.decidableValid (e : EventFields) : Decidable e.Valid := by
  unfold EventFields.Valid
  infer_instance

/-- An event as it is sent; only valid fields make one. -/
structure EventEnvelope extends EventFields where
  valid : toEventFields.Valid
  deriving DecidableEq

/-- The lifecycle of one kind: what started and what ended, oldest first. -/
structure Lifecycle where
  started : List String
  terminal : List String
  deriving DecidableEq, Repr

namespace Lifecycle

/-- Check that an identifier may take a stage. -/
def validate (l : Lifecycle) (kind : LifecycleKind) (stage : LifecycleStage)
    (identifier : Option String) : Except String Unit :=
  match identifier with
  | none => .error (kind.name ++ " events require " ++ kind.name ++ "_id")
  | some i =>
      match stage with
      | .started =>
          if i ∈ l.started ∨ i ∈ l.terminal then .error (kind.name ++ " already started")
          else .ok ()
      | .terminal =>
          if i ∈ l.terminal then .error (kind.name ++ " already has a terminal event")
          else if i ∉ l.started then .error (kind.name ++ " terminal requires a start")
          else .ok ()

/-- Remember a terminal identifier and forget the oldest beyond the bound. -/
def recordTerminal (history : List String) (identifier : String) : List String :=
  let updated := if identifier ∈ history then history else history ++ [identifier]
  updated.drop (updated.length - maxLifecycleHistory)

/-- Record a stage. -/
def record (l : Lifecycle) (stage : LifecycleStage) (identifier : String) : Lifecycle :=
  match stage with
  | .started => { l with started := if identifier ∈ l.started then l.started
      else identifier :: l.started }
  | .terminal =>
      { started := l.started.filter (· ≠ identifier)
        terminal := recordTerminal l.terminal identifier }

end Lifecycle

/-- The state of an emitter. -/
structure EventEmitter where
  sessionId : String
  workspaceKey : String
  sequence : Nat
  operations : Lifecycle
  turns : Lifecycle
  deriving DecidableEq, Repr

namespace EventEmitter

/-- The lifecycle of a kind. -/
def lifecycle (m : EventEmitter) : LifecycleKind → Lifecycle
  | .operation => m.operations
  | .turn => m.turns

/-- Replace the lifecycle of a kind. -/
def setLifecycle (m : EventEmitter) (kind : LifecycleKind) (l : Lifecycle) : EventEmitter :=
  match kind with
  | .operation => { m with operations := l }
  | .turn => { m with turns := l }

/-- Check that a request follows the lifecycle. -/
def validateTransition (m : EventEmitter) (r : EmitRequest) : Except String Unit :=
  match r.eventType.stage with
  | none => .ok ()
  | some (kind, stage) => (m.lifecycle kind).validate kind stage (r.identifier kind)

/-- Record the stage of a request. -/
def recordTransition (m : EventEmitter) (r : EmitRequest) : EventEmitter :=
  match r.eventType.stage with
  | none => m
  | some (kind, stage) =>
      match r.identifier kind with
      | none => m
      | some i => m.setLifecycle kind ((m.lifecycle kind).record stage i)

/-- Whether a request announces the end of a lifecycle. -/
def isTerminal (r : EmitRequest) : Bool :=
  match r.eventType.stage with
  | some (_, .terminal) => true
  | _ => false

/-- A terminal stage is recorded before its event goes to the sink. -/
def announce (m : EventEmitter) (r : EmitRequest) : EventEmitter :=
  if isTerminal r then m.recordTransition r else m

/-- Any other stage is recorded after the sink took its event. -/
def finish (m : EventEmitter) (r : EmitRequest) : EventEmitter :=
  if isTerminal r then m else m.recordTransition r

/-- The fields of the next event. -/
def fields (m : EventEmitter) (r : EmitRequest) : EventFields :=
  { r with
    sequence := m.sequence + 1
    sessionId := m.sessionId
    workspaceKey := m.workspaceKey }

/-- The critical section up to the sink: check, take a number, build the envelope. A number that
was taken stays taken when the envelope is refused. -/
def begin (m : EventEmitter) (r : EmitRequest) : EventEmitter × Except String EventEnvelope :=
  match m.validateTransition r with
  | .error message => (m, .error message)
  | .ok () =>
      let numbered := { m with sequence := m.sequence + 1 }
      if h : (m.fields r).Valid then (numbered.announce r, .ok ⟨m.fields r, h⟩)
      else (numbered, .error "validation error")

end EventEmitter

/-- How the sink ends: the event is sent; it is not sent and a fault is raised; or it is sent
although a fault or a cancellation is raised. -/
inductive SinkOutcome
  | sent
  | refused
  | lost
  deriving DecidableEq, Repr

/-- A session: the emitter, the calls that wait for its lock, the event that the holder of the
lock hands to the sink, and the events that reached the client. -/
structure EventSession where
  emitter : EventEmitter
  waiting : List EmitRequest
  sending : Option EventEnvelope
  delivered : List EventEnvelope
  deriving DecidableEq

/-- Steps of concurrent calls of the emitter. -/
inductive EmitAction
  | call (request : EmitRequest)
  | cancelWaiting (index : Nat)
  | enter (index : Nat)
  | sink (outcome : SinkOutcome)
  deriving DecidableEq, Repr

namespace EventSession

/-- One step of a session. -/
def step (s : EventSession) : EmitAction → Option EventSession
  | .call r => some { s with waiting := s.waiting ++ [r] }
  | .cancelWaiting i =>
      if i < s.waiting.length then some { s with waiting := s.waiting.eraseIdx i } else none
  | .enter i =>
      match s.sending, s.waiting[i]? with
      | none, some r =>
          let (m, result) := s.emitter.begin r
          some { s with
            emitter := m
            waiting := s.waiting.eraseIdx i
            sending := result.toOption }
      | _, _ => none
  | .sink outcome =>
      match s.sending with
      | none => none
      | some e =>
          match outcome with
          | .sent => some { s with
              emitter := s.emitter.finish e.toEmitRequest
              sending := none
              delivered := s.delivered ++ [e] }
          | .refused => some { s with sending := none }
          | .lost => some { s with sending := none, delivered := s.delivered ++ [e] }

/-- A new session. -/
def initial (sessionId workspaceKey : String) : EventSession where
  emitter := ⟨sessionId, workspaceKey, 0, ⟨[], []⟩, ⟨[], []⟩⟩
  waiting := []
  sending := none
  delivered := []

end EventSession

/-- The acceptance state of the client. -/
structure EventStreamGuard where
  sessionId : Option String
  lastSequence : Nat
  fault : Option String
  deriving DecidableEq, Repr

namespace EventStreamGuard

/-- The guard before the first event. -/
def initial : EventStreamGuard := ⟨none, 0, none⟩

/-- Fail for good. -/
def fail (g : EventStreamGuard) (message : String) : EventStreamGuard :=
  { g with fault := some message }

/-- Accept the next event by its session and its number, or fail. -/
def acceptNumbered (g : EventStreamGuard) (session : String) (sequence : Nat) :
    EventStreamGuard :=
  if g.fault.isSome then g
  else if maxJsonSafeInteger < sequence then g.fail "Event sequence is unsafe"
  else
    match g.sessionId with
    | none =>
        if sequence ≠ 1 then g.fail "Event Session must begin at sequence 1"
        else { g with sessionId := some session, lastSequence := 1 }
    | some sessionId =>
        if session ≠ sessionId then g.fail "Event Session changed without reset"
        else if sequence ≠ g.lastSequence + 1 then g.fail "Event sequence is not contiguous"
        else { g with lastSequence := sequence }

/-- Accept one event, or fail. -/
def accept (g : EventStreamGuard) (e : EventEnvelope) : EventStreamGuard :=
  g.acceptNumbered e.sessionId e.sequence

/-- Close the stream. -/
def close (g : EventStreamGuard) : EventStreamGuard :=
  if g.fault.isSome then g else g.fail "Event stream is closed"

/-- Accept the events of a stream, one after the other. -/
def acceptAll (events : List EventEnvelope) : EventStreamGuard := events.foldl accept initial

end EventStreamGuard

end AwesomeAgent
