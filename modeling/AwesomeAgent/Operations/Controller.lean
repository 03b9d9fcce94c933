import Mathlib.Data.List.Basic

/-!
# The operation controller

One Operation is active at a time. Its starter reserves it, announces it and waits
for its task; the task runs the factory, commits an outcome and publishes the terminal
event. Each step runs from one suspension of the event loop to the next, so that all
interleavings of starters, tasks, cancellations and shutdowns are sequences of steps.
-/

namespace AwesomeAgent

/-- Who holds the foreground lease. -/
inductive ForegroundHolder
  | operation (operationId : Nat)
  | exclusive (owner : Nat)
  deriving DecidableEq, Repr

/-- The authority over the foreground of a session. -/
structure ForegroundArbiter where
  lease : Option ForegroundHolder
  closing : Bool
  deriving DecidableEq, Repr

namespace ForegroundArbiter

/-- Hand out the lease unless it is held or the session closes. -/
def acquire (f : ForegroundArbiter) (holder : ForegroundHolder) : Option ForegroundArbiter :=
  if f.closing ∨ f.lease.isSome then none else some { f with lease := some holder }

/-- Take the lease back from its holder. -/
def release (f : ForegroundArbiter) (holder : ForegroundHolder) : ForegroundArbiter :=
  if f.lease = some holder then { f with lease := none } else f

/-- Hand out no lease from now on. -/
def beginClosing (f : ForegroundArbiter) : ForegroundArbiter := { f with closing := true }

end ForegroundArbiter

/-- The phases of the active Operation. -/
inductive OperationPhase
  | reserved
  | starting
  | running
  | cancelling
  | committing
  | committed
  deriving DecidableEq, Repr

/-- The outcomes that can be committed. -/
inductive CommittedOutcome
  | completed
  | failed
  deriving DecidableEq, Repr

/-- The terminal events of an Operation. -/
inductive TerminalEventType
  | operationCompleted
  | operationFailed
  | operationCancelled
  deriving DecidableEq, Repr

/-- The terminal event that matches what was committed. -/
def TerminalEventType.ofOutcome : Option CommittedOutcome → TerminalEventType
  | some .completed => .operationCompleted
  | some .failed => .operationFailed
  | none => .operationCancelled

/-- Where the starter of an Operation is suspended. -/
inductive StarterPoint
  | reserved
  | announcing
  | waiting
  | joining
  | shielding
  | publishing
  | finished
  deriving DecidableEq, Repr

/-- Where the task of an Operation is suspended. -/
inductive TaskPoint
  | absent
  | created
  | preempted
  | working
  | committing
  | publishing (event : TerminalEventType)
  | finished
  deriving DecidableEq, Repr

/-- An Operation with its reservation, starter and task, and what it has done so far. -/
structure Operation where
  consumed : Bool
  starter : StarterPoint
  interrupted : Bool
  task : TaskPoint
  cancelRequested : Bool
  ready : Bool
  released : Bool
  releases : Nat
  outcome : Option CommittedOutcome
  events : List TerminalEventType
  deriving DecidableEq, Repr

namespace Operation

/-- A new reservation. -/
def reservation : Operation where
  consumed := false
  starter := .reserved
  interrupted := false
  task := .absent
  cancelRequested := false
  ready := false
  released := false
  releases := 0
  outcome := none
  events := []

/-- Cancel the task: before its first step this keeps the body from running. -/
def cancelTask (o : Operation) : Operation :=
  if o.task = .created then { o with cancelRequested := true } else o

/-- Cancel the starter: while it awaits the task, the task is cancelled. -/
def interrupt (o : Operation) : Operation :=
  match o.starter with
  | .finished => o
  | .joining => o.cancelTask
  | _ => { o with interrupted := true }

/-- End the publication of a terminal event; the emitter accepts one for an Operation. -/
def deliver (o : Operation) (event : TerminalEventType) (delivered : Bool) : Operation :=
  if delivered ∧ o.events = [] then { o with events := [event] } else o

end Operation

/-- Where a call of `shutdown` is suspended. -/
inductive ShutdownPoint
  | awaitingStarter (operationId : Nat)
  | awaitingTask (operationId : Nat)
  | finished
  deriving DecidableEq, Repr

/-- How the factory of an Operation ends. -/
inductive FactoryResult
  | returned
  | raised
  | cancelled
  deriving DecidableEq, Repr

/-- The controller, with every Operation reserved so far and every call of `shutdown`. -/
structure OperationController where
  foreground : ForegroundArbiter
  activeId : Option Nat
  phase : Option OperationPhase
  committedTerminal : Option CommittedOutcome
  activeTask : Option Nat
  activeReservation : Option Nat
  starterTask : Option Nat
  operations : List Operation
  shutdowns : List ShutdownPoint
  deriving DecidableEq, Repr

namespace OperationController

/-- A controller without Operations. -/
def idle : OperationController where
  foreground := ⟨none, false⟩
  activeId := none
  phase := none
  committedTerminal := none
  activeTask := none
  activeReservation := none
  starterTask := none
  operations := []
  shutdowns := []

/-- Record the new state of an Operation. -/
def put (s : OperationController) (i : Nat) (o : Operation) : OperationController :=
  { s with operations := s.operations.set i o }

/-- Release the lease of a reservation once. -/
def release (s : OperationController) (i : Nat) (o : Operation) : OperationController :=
  if o.released then s.put i o
  else if s.foreground.lease = some (.operation i) then
    { s.put i { o with released := true, releases := o.releases + 1 } with
      foreground := s.foreground.release (.operation i) }
  else s.put i { o with released := true }

/-- Reserve the next Operation, if the foreground and the admission gate allow it. -/
def reserve (s : OperationController) (admitted : Bool) : OperationController :=
  if s.activeId.isSome then s
  else
    match s.foreground.acquire (.operation s.operations.length) with
    | none => s
    | some foreground =>
        if admitted then
          { s with
            foreground := foreground
            activeId := some s.operations.length
            phase := some .reserved
            activeReservation := some s.operations.length
            starterTask := some s.operations.length
            operations := s.operations ++ [.reservation] }
        else s

/-- Forget the active Operation before it has a task. -/
def forgetReservation (s : OperationController) : OperationController :=
  { s with
    activeId := none
    phase := none
    committedTerminal := none
    activeReservation := none
    starterTask := none }

/-- Forget the active Operation and its task. -/
def forgetTask (s : OperationController) : OperationController :=
  { s with activeId := none, phase := none, committedTerminal := none, activeTask := none }

/-- Give a reservation up that was not consumed. -/
def abort (s : OperationController) (i : Nat) : OperationController :=
  match s.operations[i]? with
  | none => s
  | some o =>
      if o.consumed then s
      else
        let s := if s.activeId = some i then s.forgetReservation else s
        s.release i { o with consumed := true }

/-- Consume a reservation and start to announce the Operation. -/
def startReserved (s : OperationController) (i : Nat) : Option OperationController := do
  let o ← s.operations[i]?
  if o.starter ≠ .reserved then none
  else if o.consumed ∨ s.activeId ≠ some i then some (s.put i { o with starter := .finished })
  else
    some { s.put i { o with consumed := true, starter := .announcing } with
      phase := some .starting }

/-- End the announcement: create the task, or give the Operation up. -/
def announced (s : OperationController) (i : Nat) (emitted : Bool) :
    Option OperationController := do
  let o ← s.operations[i]?
  if o.starter ≠ .announcing then none
  else if emitted then
    some { s.put i { o with starter := .waiting, task := .created } with
      phase := if s.phase = some .starting then some .running else s.phase
      activeTask := some i
      activeReservation := none }
  else some (s.forgetReservation.release i { o with starter := .finished })

/-- Run the task up to its factory; an Operation that is being cancelled ends here. -/
def firstStep (s : OperationController) (i : Nat) : Option OperationController := do
  let o ← s.operations[i]?
  if o.task ≠ .created then none
  else if o.cancelRequested then some (s.put i { o with task := .finished })
  else if s.phase = some .cancelling then
    if s.activeId = some i then some (s.put i { o with ready := true, task := .preempted })
    else some (s.put i { o with ready := true, task := .finished })
  else some (s.put i { o with ready := true, task := .working })

/-- Commit the outcome of an Operation. -/
def commitTerminal (s : OperationController) (i : Nat) (o : Operation)
    (outcome : CommittedOutcome) : OperationController × Operation :=
  let o := { o with outcome := some outcome }
  ({ s.put i o with phase := some .committed, committedTerminal := some outcome }, o)

/-- Begin to commit; the factory sees an error if its Operation is not running. -/
def beginCommit (s : OperationController) (i : Nat) : Option OperationController := do
  let o ← s.operations[i]?
  if o.task ≠ .working then none
  else if s.activeId = some i ∧ s.phase = some .running then
    some { s.put i { o with task := .committing } with phase := some .committing }
  else some s

/-- End to commit; the starter was woken before the task runs again. -/
def endCommit (s : OperationController) (i : Nat) (outcome : CommittedOutcome) :
    Option OperationController := do
  let o ← s.operations[i]?
  if o.task ≠ .committing ∨ o.starter = .waiting then none
  else some (s.commitTerminal i { o with task := .working } outcome).1

/-- Clean up after the factory, whatever happened. -/
def cleanUp (s : OperationController) (i : Nat) (o : Operation) : OperationController :=
  s.forgetTask.release i { o with task := .finished }

/-- Start to publish that the Operation was cancelled. -/
def publishCancelling (s : OperationController) (i : Nat) (o : Operation) : OperationController :=
  if s.activeId = some i ∧ s.phase = some .cancelling then
    s.put i { o with task := .publishing .operationCancelled }
  else s.cleanUp i o

/-- Start to publish the committed outcome. -/
def publishCommittedTerminal (s : OperationController) (i : Nat) (o : Operation) :
    OperationController :=
  match s.committedTerminal with
  | none => s.cleanUp i o
  | some outcome =>
      if s.activeId = some i ∧ s.phase = some .committed then
        s.put i { o with task := .publishing (.ofOutcome (some outcome)) }
      else s.cleanUp i o

/-- Publish how the factory ended, after committing it if nothing was committed before. -/
def settle (s : OperationController) (i : Nat) (o : Operation) (outcome : CommittedOutcome) :
    OperationController :=
  if s.phase = some .cancelling then s.publishCancelling i o
  else if s.phase = some .running then
    let (s, o) := s.commitTerminal i o outcome
    s.publishCommittedTerminal i o
  else s.publishCommittedTerminal i o

/-- End the factory. -/
def conclude (s : OperationController) (i : Nat) (result : FactoryResult) :
    Option OperationController := do
  let o ← s.operations[i]?
  if o.task ≠ .working then none
  else
    match result with
    | .returned => some (s.settle i o .completed)
    | .raised => some (s.settle i o .failed)
    | .cancelled =>
        if s.phase = some .committed then some (s.publishCommittedTerminal i o)
        else some ({ s with phase := some .cancelling }.publishCancelling i o)

/-- End a publication of the task; only the factory is followed by a cleanup. -/
def published (s : OperationController) (i : Nat) (delivered : Bool) :
    Option OperationController := do
  let o ← s.operations[i]?
  if o.starter = .waiting then none
  else
    match o.task with
    | .preempted =>
        some (s.put i { o.deliver .operationCancelled delivered with task := .finished })
    | .publishing event => some (s.cleanUp i (o.deliver event delivered))
    | _ => none

/-- Resume the starter that waits for its task to be ready. -/
def resume (s : OperationController) (i : Nat) : Option OperationController := do
  let o ← s.operations[i]?
  if o.starter ≠ .waiting then none
  else if o.interrupted then
    let o := { o with interrupted := false }
    if s.phase = some .running then
      some { s.put i { o.cancelTask with starter := .joining } with phase := some .cancelling }
    else if s.phase = some .cancelling then some (s.put i { o with starter := .joining })
    else some (s.put i { o with starter := .shielding })
  else if o.ready then some { s.put i { o with starter := .finished } with starterTask := none }
  else none

/-- End the cleanup of the starter. -/
def finishStarter (s : OperationController) (i : Nat) (o : Operation) : OperationController :=
  { s.forgetTask.release i { o with starter := .finished } with starterTask := none }

/-- Resume the cancelled starter after its task, or when it is cancelled again. -/
def joined (s : OperationController) (i : Nat) : Option OperationController := do
  let o ← s.operations[i]?
  if (o.starter = .joining ∧ o.task = .finished) ∨
      (o.starter = .shielding ∧ (o.task = .finished ∨ o.interrupted)) then
    if s.activeId ≠ some i then
      some { s.put i { o with starter := .finished } with starterTask := none }
    else if s.phase = some .cancelling then some (s.put i { o with starter := .publishing })
    else some (s.finishStarter i o)
  else none

/-- End the publication of the starter. -/
def starterPublished (s : OperationController) (i : Nat) (delivered : Bool) :
    Option OperationController := do
  let o ← s.operations[i]?
  if o.starter ≠ .publishing then none
  else some (s.finishStarter i (o.deliver .operationCancelled delivered))

/-- Cancel the starter of an Operation. -/
def interrupt (s : OperationController) (i : Nat) : OperationController :=
  { s with operations := s.operations.modify i Operation.interrupt }

/-- Cancel the task of an Operation. -/
def cancelTask (s : OperationController) (i : Nat) : OperationController :=
  { s with operations := s.operations.modify i Operation.cancelTask }

/-- Cancel an Operation by its identifier. -/
def cancel (s : OperationController) (i : Nat) : OperationController :=
  if s.activeId = some i ∧ s.phase = some .starting then { s with phase := some .cancelling }
  else
    match s.activeTask with
    | none => s
    | some task =>
        if s.activeId ≠ some i ∨ s.phase ≠ some .running then s
        else { s with phase := some .cancelling }.cancelTask task

/-- Cancel the task of the active Operation if it is running. -/
def cancelRunning (s : OperationController) (task : Nat) : OperationController :=
  if s.phase = some .running then { s with phase := some .cancelling }.cancelTask task else s

/-- Give the active reservation up. -/
def abortActive (s : OperationController) : OperationController :=
  match s.activeReservation with
  | none => s
  | some i => s.abort i

/-- The part of `shutdown` after the starter: cancel and await the task, if there is one. -/
def shutDownTask (s : OperationController) : OperationController × ShutdownPoint :=
  match s.activeTask with
  | none => (s.abortActive, .finished)
  | some task => (s.cancelRunning task, .awaitingTask task)

/-- Note where a call of `shutdown` is suspended. -/
def suspend (s : OperationController × ShutdownPoint) : OperationController :=
  { s.1 with shutdowns := s.1.shutdowns ++ [s.2] }

/-- Call `shutdown` from the starter of an Operation or from elsewhere. -/
def shutdown (s : OperationController) (caller : Option Nat) : OperationController :=
  let s := { s with foreground := s.foreground.beginClosing }
  match s.starterTask with
  | none => suspend s.shutDownTask
  | some starter =>
      if caller = some starter then suspend s.abortActive.shutDownTask
      else suspend (s.interrupt starter, .awaitingStarter starter)

/-- The starter of an Operation is done. -/
def starterDone (s : OperationController) (i : Nat) : Bool :=
  match s.operations[i]? with
  | none => true
  | some o => o.starter = .finished

/-- The task of an Operation is done. -/
def taskDone (s : OperationController) (i : Nat) : Bool :=
  match s.operations[i]? with
  | none => true
  | some o => o.task = .finished

/-- Move a call of `shutdown` on. -/
def moveShutdown (s : OperationController × ShutdownPoint) (k : Nat) : OperationController :=
  { s.1 with shutdowns := s.1.shutdowns.set k s.2 }

/-- Resume a call of `shutdown` whose await is over, or that was itself cancelled. -/
def resumeShutdown (s : OperationController) (k : Nat) (cancelled : Bool) :
    Option OperationController := do
  match ← s.shutdowns[k]? with
  | .awaitingStarter i =>
      if s.starterDone i then some (moveShutdown s.shutDownTask k)
      else if cancelled then some (s.interrupt i)
      else none
  | .awaitingTask i =>
      if s.taskDone i ∨ cancelled then some (moveShutdown (s.abortActive, .finished) k)
      else none
  | .finished => none

/-- Take the foreground for something other than an Operation. -/
def acquireExclusive (s : OperationController) (owner : Nat) : OperationController :=
  match s.foreground.acquire (.exclusive owner) with
  | none => s
  | some foreground => { s with foreground := foreground }

/-- Give the foreground back. -/
def releaseExclusive (s : OperationController) (owner : Nat) : OperationController :=
  { s with foreground := s.foreground.release (.exclusive owner) }

end OperationController

/-- The steps of starters, tasks, cancellations and shutdowns. -/
inductive OperationAction
  | reserve (admitted : Bool)
  | abort (operationId : Nat)
  | startReserved (operationId : Nat)
  | announced (operationId : Nat) (emitted : Bool)
  | firstStep (operationId : Nat)
  | beginCommit (operationId : Nat)
  | endCommit (operationId : Nat) (outcome : CommittedOutcome)
  | conclude (operationId : Nat) (result : FactoryResult)
  | published (operationId : Nat) (delivered : Bool)
  | resume (operationId : Nat)
  | joined (operationId : Nat)
  | starterPublished (operationId : Nat) (delivered : Bool)
  | interrupt (operationId : Nat)
  | cancel (operationId : Nat)
  | shutdown (caller : Option Nat)
  | resumeShutdown (call : Nat) (cancelled : Bool)
  | acquireExclusive (owner : Nat)
  | releaseExclusive (owner : Nat)
  deriving DecidableEq, Repr

/-- One step of the system, if it is enabled. -/
def OperationController.step (s : OperationController) :
    OperationAction → Option OperationController
  | .reserve admitted => some (s.reserve admitted)
  | .abort i => some (s.abort i)
  | .startReserved i => s.startReserved i
  | .announced i emitted => s.announced i emitted
  | .firstStep i => s.firstStep i
  | .beginCommit i => s.beginCommit i
  | .endCommit i outcome => s.endCommit i outcome
  | .conclude i result => s.conclude i result
  | .published i delivered => s.published i delivered
  | .resume i => s.resume i
  | .joined i => s.joined i
  | .starterPublished i delivered => s.starterPublished i delivered
  | .interrupt i => some (s.interrupt i)
  | .cancel i => some (s.cancel i)
  | .shutdown caller => some (s.shutdown caller)
  | .resumeShutdown k cancelled => s.resumeShutdown k cancelled
  | .acquireExclusive owner => some (s.acquireExclusive owner)
  | .releaseExclusive owner => some (s.releaseExclusive owner)

end AwesomeAgent
