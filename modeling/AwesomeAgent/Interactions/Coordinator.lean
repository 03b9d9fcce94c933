import AwesomeAgent.Library.Runs

/-!
# The interaction coordinator

One interaction is pending at a time. Its waiters share one future, which the decision
resolves. A call of `wait` runs until it returns or suspends on the future; the event loop
resumes it once the future is done, and its task may be cancelled while it is suspended.
-/

namespace AwesomeAgent

/-- The kinds of an interaction. -/
inductive InteractionKind
  | workspaceTrust
  | stateReset
  | toolApproval
  | fullAccessConfirmation
  | recoveryDecision
  deriving DecidableEq, Repr

/-- The decisions of the user. -/
inductive InteractionDecision
  | trust
  | resetState
  | allowOnce
  | allowThreadWrites
  | allowThreadNetwork
  | enableFullAccess
  | retry
  | abort
  | deny
  deriving DecidableEq, Repr

/-- A choice that an interaction offers. -/
structure InteractionChoice where
  decision : InteractionDecision
  label : String
  description : Option String
  deriving DecidableEq, Repr

/-- What is asked of the user, and on whose authority. -/
structure InteractionRequest where
  kind : InteractionKind
  prompt : String
  operation : String
  target : String
  capability : Option String
  choices : List InteractionChoice
  threadId : Option String
  turnId : Option String
  operationId : Option String
  permissionGeneration : Option Int
  deriving DecidableEq, Repr

namespace InteractionRequest

/-- Characters of an identifier in a request. -/
def maxIdentifierLength : Nat := 128

/-- The fields outside of their bounds. -/
def invalidFields (r : InteractionRequest) : List String :=
  [("thread_id", r.threadId.all (·.length ≤ maxIdentifierLength)),
    ("turn_id", r.turnId.all (·.length ≤ maxIdentifierLength)),
    ("operation_id", r.operationId.all (·.length ≤ maxIdentifierLength)),
    ("permission_generation", r.permissionGeneration.all (0 ≤ ·))].filterMap
      fun field => if field.2 then none else some field.1

/-- What a request of its kind lacks. -/
def validateAuthorityBinding (r : InteractionRequest) : Option String :=
  if r.kind = .fullAccessConfirmation ∧ (r.threadId = none ∨ r.permissionGeneration = none) then
    some "Full access confirmation requires thread authority."
  else if r.kind = .toolApproval ∧
      (r.threadId = none ∨ r.turnId = none ∨ r.operationId = none) then
    some "Tool approval requires operation authority."
  else if r.kind = .recoveryDecision ∧ (r.threadId = none ∨ r.turnId = none) then
    some "Recovery decision requires Turn authority."
  else none

end InteractionRequest

/-- A request that was accepted, under an identifier of its own. -/
structure PendingInteraction extends InteractionRequest where
  id : String
  generation : Nat
  positive : 1 ≤ generation
  bounded : toInteractionRequest.invalidFields = []
  bound : toInteractionRequest.validateAuthorityBinding = none
  deriving DecidableEq

/-- Why a request is refused. -/
inductive InteractionFault
  | interactionBusy (message : String)
  | invalidFields (fields : List String)
  | invalid (message : String)
  deriving DecidableEq, Repr

/-- The fields of the coordinator; a future is known by its number. -/
structure InteractionCoordinator where
  pending : Option PendingInteraction
  future : Option Nat
  resolved : Option InteractionDecision
  generation : Nat
  deriving DecidableEq

namespace InteractionCoordinator

/-- A coordinator at the start. -/
def initial : InteractionCoordinator := ⟨none, none, none, 0⟩

/-- Accept a request unless another one is pending. -/
def create (c : InteractionCoordinator) (hex : String) (request : InteractionRequest) :
    Except InteractionFault InteractionCoordinator :=
  if c.pending.isSome then .error (.interactionBusy "Another interaction is pending.")
  else if hbounded : request.invalidFields = [] then
    match hbound : request.validateAuthorityBinding with
    | some message => .error (.invalid message)
    | none => .ok {
        pending := some {
          request with
          id := "interaction_" ++ hex
          generation := c.generation + 1
          positive := Nat.le_add_left 1 c.generation
          bounded := hbounded
          bound := hbound }
        future := none
        resolved := none
        generation := c.generation + 1 }
  else .error (.invalidFields request.invalidFields)

/-- The pending interaction, if it has this identifier. -/
def awaits (c : InteractionCoordinator) (interactionId : String) : Bool :=
  c.pending.any (·.id = interactionId)

/-- The pending interaction has this identifier and offers this decision. -/
def allows (c : InteractionCoordinator) (interactionId : String)
    (decision : InteractionDecision) : Bool :=
  c.pending.any fun pending =>
    pending.id = interactionId && decision ∈ pending.choices.map (·.decision)

/-- Empty the slot. -/
def clear (c : InteractionCoordinator) : InteractionCoordinator :=
  { c with pending := none, future := none, resolved := none }

/-- The end of a `wait`: the slot is emptied if it still holds the interaction. -/
def release (c : InteractionCoordinator) (interactionId : String) : InteractionCoordinator :=
  if c.awaits interactionId then c.clear else c

end InteractionCoordinator

/-- A future of the event loop. -/
inductive InteractionFuture
  | waiting
  | result (decision : InteractionDecision)
  | cancelled
  deriving DecidableEq, Repr

/-- A call of `wait` that is suspended on a future; its task may have been cancelled since. -/
structure InteractionWaiter where
  interactionId : String
  future : Nat
  mustCancel : Bool
  deriving DecidableEq, Repr

/-- How a call of `wait` ends. -/
inductive WaitOutcome
  | decision (decision : InteractionDecision)
  | cancelledError
  | lookupError
  deriving DecidableEq, Repr

/-- The coordinator among its callers, and the history of what they were told. -/
structure InteractionSystem where
  coordinator : InteractionCoordinator
  futures : List InteractionFuture
  waiters : List InteractionWaiter
  requests : List PendingInteraction
  /-- Decisions that `resolve` accepted. -/
  answers : List (String × InteractionDecision)
  /-- Ends of the calls of `wait`. -/
  obtained : List (String × WaitOutcome)
  /-- Interactions that were dropped, or of which a task that waits was cancelled. -/
  cancellations : List String
  deriving DecidableEq

namespace InteractionSystem

/-- The system at the start. -/
def initial : InteractionSystem := ⟨.initial, [], [], [], [], [], []⟩

/-- Ask for an interaction under an identifier of hexadecimal digits. -/
def create (hex : String) (request : InteractionRequest) (s : InteractionSystem) :
    Except InteractionFault Unit × InteractionSystem :=
  match s.coordinator.create hex request with
  | .error fault => (.error fault, s)
  | .ok coordinator =>
      (.ok (), { s with
        coordinator := coordinator
        requests := s.requests ++ coordinator.pending.toList })

/-- There is a future, and it is done. -/
def futureDone (s : InteractionSystem) : Bool :=
  s.coordinator.future.any fun future => s.futures[future]? ≠ some .waiting

/-- The futures after the coordinator has set its own, if it has one. -/
def settle (s : InteractionSystem) (value : InteractionFuture) : List InteractionFuture :=
  match s.coordinator.future with
  | none => s.futures
  | some future => s.futures.set future value

/-- Resolve the pending interaction. -/
def resolve (interactionId : String) (decision : InteractionDecision) (s : InteractionSystem) :
    Bool × InteractionSystem :=
  if !s.coordinator.allows interactionId decision || s.coordinator.resolved.isSome then (false, s)
  else if s.futureDone then (false, s)
  else (true, { s with
    coordinator := { s.coordinator with resolved := some decision }
    futures := s.settle (.result decision)
    answers := s.answers ++ [(interactionId, decision)] })

/-- Deny the pending interaction. -/
def cancelPending (s : InteractionSystem) : Bool × InteractionSystem :=
  match s.coordinator.pending with
  | none => (false, s)
  | some pending => resolve pending.id .deny s

/-- Drop the pending interaction and cancel its future. -/
def discard (interactionId : String) (s : InteractionSystem) : Bool × InteractionSystem :=
  if s.coordinator.awaits interactionId then
    (true, { s with
      coordinator := s.coordinator.clear
      futures := if s.futureDone then s.futures else s.settle .cancelled
      cancellations := s.cancellations ++ [interactionId] })
  else (false, s)

/-- A call of `wait` ends. -/
def endWait (s : InteractionSystem) (interactionId : String) (outcome : WaitOutcome) :
    InteractionSystem :=
  { s with
    coordinator := s.coordinator.release interactionId
    obtained := s.obtained ++ [(interactionId, outcome)] }

/-- Await a future: a call goes on at once if the future is done, and is suspended otherwise. -/
def await (s : InteractionSystem) (interactionId : String) (future : Nat) : InteractionSystem :=
  match s.futures[future]? with
  | some (.result decision) => s.endWait interactionId (.decision decision)
  | some .cancelled => s.endWait interactionId .cancelledError
  | _ => { s with waiters := s.waiters ++ [⟨interactionId, future, false⟩] }

/-- A call of `wait` runs until it ends or is suspended. -/
def wait (interactionId : String) (s : InteractionSystem) : InteractionSystem :=
  if s.coordinator.awaits interactionId then
    match s.coordinator.resolved with
    | some decision => s.endWait interactionId (.decision decision)
    | none =>
        match s.coordinator.future with
        | some future => s.await interactionId future
        | none =>
            await { s with
              coordinator := { s.coordinator with future := some s.futures.length }
              futures := s.futures ++ [.waiting] } interactionId s.futures.length
  else { s with obtained := s.obtained ++ [(interactionId, .lookupError)] }

/-- Cancel the task of a suspended call: its future is cancelled, or else the call itself. -/
def cancelTask (index : Nat) (waiter : InteractionWaiter) (s : InteractionSystem) :
    InteractionSystem :=
  let s' := { s with cancellations := s.cancellations ++ [waiter.interactionId] }
  if s.futures[waiter.future]? = some .waiting then
    { s' with futures := s.futures.set waiter.future .cancelled }
  else { s' with waiters := s.waiters.set index { waiter with mustCancel := true } }

/-- A suspended call goes on, once its future is done. -/
def resume (index : Nat) (waiter : InteractionWaiter) (s : InteractionSystem) :
    Option InteractionSystem :=
  let s' := { s with waiters := s.waiters.eraseIdx index }
  match s.futures[waiter.future]? with
  | some (.result decision) => some (s'.endWait waiter.interactionId
      (if waiter.mustCancel then .cancelledError else .decision decision))
  | some .cancelled => some (s'.endWait waiter.interactionId .cancelledError)
  | _ => none

/-- Calls of the coordinator and moves of the event loop. -/
inductive Action
  | create (hex : String) (request : InteractionRequest)
  | wait (interactionId : String)
  | resolve (interactionId : String) (decision : InteractionDecision)
  | cancelPending
  | discard (interactionId : String)
  | cancelTask (index : Nat)
  | resume (index : Nat)

/-- One step of the system. -/
def step (s : InteractionSystem) : Action → Option InteractionSystem
  | .create hex request => some (s.create hex request).2
  | .wait interactionId => some (s.wait interactionId)
  | .resolve interactionId decision => some (s.resolve interactionId decision).2
  | .cancelPending => some s.cancelPending.2
  | .discard interactionId => some (s.discard interactionId).2
  | .cancelTask index => (s.waiters[index]?).map fun waiter => s.cancelTask index waiter
  | .resume index => (s.waiters[index]?).bind fun waiter => s.resume index waiter

/-- `uuid4` gives no identifier twice. -/
def Fresh (s : InteractionSystem) : Action → Prop
  | .create hex _ => ∀ request ∈ s.requests, request.id ≠ "interaction_" ++ hex
  | _ => True

/-- The states that some order of steps reaches. -/
def Reached (s : InteractionSystem) : Prop := Run step Fresh initial s

end InteractionSystem

end AwesomeAgent
