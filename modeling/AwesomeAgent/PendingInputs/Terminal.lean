import AwesomeAgent.Library.Runs
import AwesomeAgent.PendingInputs.Queue

/-!
# The terminal around the queue

The terminal renders its state and then runs the effects of the render. An effect starts to drain
the queue: it takes the head of the last render out and promotes it. Callbacks see what was
rendered last, while the references and the store change at once.
-/

namespace AwesomeAgent.PendingInputs

/-- The identity of an Operation. -/
abbrev OperationId : Type := Text

/-- The Operation that the store shows. -/
structure OperationView where
  id : OperationId
  isActive : Bool
  deriving DecidableEq, Repr

/-- What the store and the terminal show apart from the queue. -/
structure Surroundings where
  activeOperation : Option OperationView
  pendingInteraction : Bool
  composerMode : Bool
  composerSubmitting : Bool
  cancelling : Bool
  threadGeneration : Nat
  deriving DecidableEq, Repr

/-- An Operation is active. -/
def Surroundings.isActive (surroundings : Surroundings) : Bool :=
  surroundings.activeOperation.any OperationView.isActive

/-- A state hook: the value of the last render, and the values set since then. -/
structure StateHook (α : Type) where
  shown : α
  updates : List α
  deriving DecidableEq, Repr

namespace StateHook

variable {α : Type}

/-- The value that the next render shows. -/
def latest (hook : StateHook α) : α := hook.updates.getLast?.getD hook.shown

/-- Set the value. -/
def set (hook : StateHook α) (value : α) : StateHook α :=
  { hook with updates := hook.updates ++ [value] }

/-- Render the hook. -/
def render (hook : StateHook α) : StateHook α := ⟨hook.latest, []⟩

/-- What was set is the latest. -/
@[simp] theorem latest_set (hook : StateHook α) (value : α) : (hook.set value).latest = value := by
  simp [latest, set]

end StateHook

/-- The promotion of an input: under way, settled, and with its outcome handled. -/
inductive Promotion
  | pending (item : PendingInput)
  | consumed
  | requeue (item : PendingInput)
  | handled
  deriving DecidableEq, Repr

/-- What the effects of a render see. -/
structure Frame where
  blocked : Bool
  activeOperation : Option OperationId
  deriving DecidableEq, Repr

/-- What has happened: how many inputs were accepted, what became of them, which Operations have
ended, and in which generation of the Thread an Operation was accepted. -/
structure History where
  accepted : Nat
  promoted : List Nat
  consumed : List Nat
  recalled : List Nat
  ended : List OperationId
  origins : List (OperationId × Nat)
  deriving DecidableEq, Repr

/-- The terminal. -/
structure Terminal where
  queue : PendingInputQueue
  inFlight : StateHook (Option PendingInput)
  awaitingOperationId : StateHook (Option OperationId)
  running : Bool
  promotion : Option Promotion
  surroundings : Surroundings
  frame : Frame
  effects : Bool
  history : History
  deriving DecidableEq, Repr

/-- What can happen. -/
inductive TerminalAction
  | submitOrQueue (raw : Text)
  | recallInput
  | render
  | runEffects
  | consume (accepted : Option (OperationId × Nat))
  | refuse (clientMessageId : Option Text)
  | fail
  | settle
  | finish
  | operationStarted (id : OperationId)
  | operationEnded (id : OperationId)
  | reconciled
  | threadReplaced
  | changed (pendingInteraction composerMode composerSubmitting cancelling : Bool)
  deriving DecidableEq, Repr

namespace Terminal

/-- A terminal with an empty queue. -/
def initial (surroundings : Surroundings) : Terminal where
  queue := .empty
  inFlight := ⟨none, []⟩
  awaitingOperationId := ⟨none, []⟩
  running := false
  promotion := none
  surroundings := surroundings
  frame := ⟨true, none⟩
  effects := false
  history := ⟨0, [], [], [], [], []⟩

/-- An input has to wait. -/
def queueingRequired (s : Terminal) : Bool :=
  s.surroundings.isActive || s.inFlight.shown.isSome || s.awaitingOperationId.shown.isSome ||
    !s.queue.current.isEmpty

/-- Receive an input under what the last render shows of the input in flight. -/
def enqueue (s : Terminal) (raw : Text) : EnqueueResult × PendingInputQueue :=
  s.queue.enqueue s.history.accepted raw (if s.inFlight.shown.isSome then 1 else 0)
    (s.inFlight.shown.any PendingInput.terminalBarrier)

/-- Submit an input, or put it into the queue. -/
def submitOrQueue (s : Terminal) (raw : Text) : Terminal :=
  if s.queueingRequired then
    match s.enqueue raw with
    | (.accepted _, queue) =>
        { s with
          queue := queue
          history := { s.history with accepted := s.history.accepted + 1 } }
    | _ => s
  else s

/-- Recall the last input into the composer. -/
def recallInput (s : Terminal) : Terminal :=
  match s.queue.recallTail with
  | (some item, queue) =>
      { s with
        queue := queue
        history := { s.history with recalled := s.history.recalled ++ [item.id] } }
  | (none, _) => s

/-- What blocks the drain. -/
def blocked (s : Terminal) : Bool :=
  s.surroundings.isActive || s.surroundings.pendingInteraction || !s.surroundings.composerMode ||
    s.surroundings.composerSubmitting || s.surroundings.cancelling ||
    s.awaitingOperationId.latest.isSome

/-- Render: the effects of the render are due. -/
def render (s : Terminal) : Terminal :=
  { s with
    queue := s.queue.render
    inFlight := s.inFlight.render
    awaitingOperationId := s.awaitingOperationId.render
    frame := ⟨s.blocked, s.surroundings.activeOperation.map OperationView.id⟩
    effects := true }

/-- The effect that stops waiting for an Operation that is shown. -/
def stopAwaiting (s : Terminal) : Terminal :=
  if s.awaitingOperationId.shown.isSome ∧
      s.frame.activeOperation = s.awaitingOperationId.shown then
    { s with awaitingOperationId := s.awaitingOperationId.set none }
  else s

/-- The input that the effect of a render would promote. -/
def drainHead (s : Terminal) : Option PendingInput :=
  if s.frame.blocked || s.inFlight.shown.isSome || s.running then none else s.queue.items.head?

/-- The effect that drains the queue. -/
def drain (s : Terminal) : Terminal :=
  match s.drainHead with
  | some head =>
      { s with
        running := true
        queue := s.queue.acceptHead head.id
        inFlight := s.inFlight.set (some head)
        promotion := some (.pending head)
        history := { s.history with promoted := s.history.promoted ++ [head.id] } }
  | none => s

/-- The effects of a render. -/
def runEffects (s : Terminal) : Terminal := { s.stopAwaiting.drain with effects := false }

/-- The promotion is settled: the input was consumed, perhaps by an Operation that was accepted. -/
def consume (s : Terminal) (item : PendingInput) (accepted : Option (OperationId × Nat)) :
    Terminal :=
  let history := { s.history with consumed := s.history.consumed ++ [item.id] }
  match accepted with
  | some (operation, generation) =>
      { s with
        promotion := some .consumed
        awaitingOperationId := s.awaitingOperationId.set (some operation)
        history := { history with origins := history.origins ++ [(operation, generation)] } }
  | none =>
      { s with
        promotion := some .consumed
        history := history }

/-- The Operation that the store shows has ended. -/
def endOperation (s : Terminal) (id : OperationId) : Terminal :=
  { s with
    surroundings := { s.surroundings with
      activeOperation := s.surroundings.activeOperation.map fun operation =>
        if operation.id = id then { operation with isActive := false } else operation }
    history := { s.history with ended := s.history.ended ++ [id] } }

/-- One step. -/
def step (s : Terminal) : TerminalAction → Option Terminal
  | .submitOrQueue raw => some (s.submitOrQueue raw)
  | .recallInput => some s.recallInput
  | .render => if s.effects then none else some s.render
  | .runEffects => if s.effects then some s.runEffects else none
  | .consume accepted =>
      match s.promotion with
      | some (.pending item) => some (s.consume item accepted)
      | _ => none
  | .refuse clientMessageId =>
      match s.promotion with
      | some (.pending item) => some { s with
          promotion := some (.requeue { item with
            clientMessageId := item.clientMessageId.or clientMessageId }) }
      | _ => none
  | .fail =>
      match s.promotion with
      | some (.pending item) => some { s with promotion := some (.requeue item) }
      | _ => none
  | .settle =>
      match s.promotion with
      | some .consumed => some { s with promotion := some .handled }
      | some (.requeue item) => some { s with
          queue := s.queue.requeueHead item
          promotion := some .handled }
      | _ => none
  | .finish =>
      match s.promotion with
      | some .handled => some { s with
          running := false
          inFlight := s.inFlight.set none
          promotion := none }
      | _ => none
  | .operationStarted id =>
      if s.surroundings.isActive then some s
      else some { s with
        surroundings := { s.surroundings with activeOperation := some ⟨id, true⟩ } }
  | .operationEnded id => some (s.endOperation id)
  | .reconciled =>
      if s.surroundings.isActive then some s
      else some { s with surroundings := { s.surroundings with activeOperation := none } }
  | .threadReplaced => some { s with
      surroundings := { s.surroundings with
        activeOperation := none
        threadGeneration := s.surroundings.threadGeneration + 1 } }
  | .changed pendingInteraction composerMode composerSubmitting cancelling => some { s with
      surroundings := { s.surroundings with
        pendingInteraction := pendingInteraction
        composerMode := composerMode
        composerSubmitting := composerSubmitting
        cancelling := cancelling } }

/-! ## What is asked of a terminal -/

/-- The input in flight. -/
def heldItem (s : Terminal) : Option PendingInput :=
  match s.promotion with
  | some (.pending item) => some item
  | some (.requeue item) => some item
  | _ => none

/-- The inputs in flight and in the queue. -/
def waiting (s : Terminal) : List PendingInput := s.heldItem.toList ++ s.queue.current

/-- An Operation has ended, or its Thread was replaced. -/
def IsOver (s : Terminal) (operation : OperationId) : Prop :=
  operation ∈ s.history.ended ∨
    ∃ origin ∈ s.history.origins,
      origin.1 = operation ∧ origin.2 ≠ s.surroundings.threadGeneration

/-- Nothing is left to be rendered, and the effects of the last render have run. -/
structure AtRest (s : Terminal) : Prop where
  effects : s.effects = false
  queue : s.queue.updates = []
  inFlight : s.inFlight.updates = []
  awaiting : s.awaitingOperationId.updates = []
  frame : s.frame = ⟨s.blocked, s.surroundings.activeOperation.map OperationView.id⟩

/-- The state after what is due was rendered. -/
def refresh (s : Terminal) : Terminal :=
  (if s.effects then s.runEffects else s).render.runEffects

/-- Pending inputs are neither lost, duplicated, reordered nor stuck. -/
structure KeepsInputs (s : Terminal) : Prop where
  /-- Every accepted input is consumed, in flight, queued or recalled, and only one of these. -/
  accounted : (s.history.consumed ++ s.waiting.map PendingInput.id ++ s.history.recalled).Perm
    (List.range s.history.accepted)
  /-- What was consumed, is in flight and is queued is in the order of acceptance. -/
  ordered : (s.history.consumed ++ s.waiting.map PendingInput.id).Pairwise (· < ·)
  /-- Inputs are promoted in the order of acceptance. -/
  promoted : s.history.promoted.Pairwise (· ≤ ·)
  /-- Nothing is behind an input that quits. -/
  barrier : ∀ earlier item later, s.waiting = earlier ++ item :: later →
    item.terminalBarrier = true → later = []
  /-- An input is put back in front of the queue. -/
  requeued : ∀ item t, s.promotion = some (.requeue item) → s.step .settle = some t →
    t.queue.current = item :: s.queue.current
  /-- At rest no Operation that is over is awaited. -/
  unblocked : s.AtRest → ∀ operation, s.awaitingOperationId.shown = some operation →
    ¬ s.IsOver operation
  /-- An Operation that is over is no longer awaited once what is due was rendered. -/
  cleared : ∀ operation, s.awaitingOperationId.latest = some operation → s.IsOver operation →
    s.refresh.awaitingOperationId.latest = none

/-! ## The condition -/

/-- The effect that is due will stop waiting for an Operation. -/
def Clearing (s : Terminal) (operation : OperationId) : Prop :=
  s.effects = true ∧ s.awaitingOperationId.shown = some operation ∧
    s.frame.activeOperation = some operation ∧ s.awaitingOperationId.updates = []

/-- The store shows an Operation. -/
def Shows (s : Terminal) (operation : OperationId) : Prop :=
  s.surroundings.activeOperation.map OperationView.id = some operation

/-- The last render shows the input in flight, up to the identifier that a refusal gave it. -/
def ShowsHeld (s : Terminal) (held : PendingInput) : Prop :=
  ∃ shown ∈ s.inFlight.shown, { held with clientMessageId := shown.clientMessageId } = shown

/-- The condition on a step: an input that is accepted while another one is in flight is submitted
under a render that shows the other one, or there is room for both and the other one does not
quit; the head that a render shows is not recalled before it is taken out; and no awaited Operation
disappears before it was rendered. -/
def Meets (s : Terminal) : TerminalAction → Prop
  | .submitOrQueue raw => ∀ held ∈ s.heldItem, (s.enqueue raw).1.isAccepted = true →
      s.ShowsHeld held ∨
        (held.terminalBarrier = false ∧ s.queue.current.length + 1 < maxPendingInputs)
  | .runEffects => ∀ head ∈ s.drainHead, s.queue.current.head? = some head
  | .consume (some (operation, generation)) => s.Shows operation ∨
      (operation ∉ s.history.ended ∧ generation = s.surroundings.threadGeneration ∧
        ∀ origin ∈ s.history.origins, origin.1 ≠ operation)
  | .operationStarted _ => ∀ operation ∈ s.awaitingOperationId.latest, s.IsOver operation →
      s.surroundings.isActive = true ∨ s.Clearing operation
  | .operationEnded id => s.awaitingOperationId.latest = some id → s.Shows id ∨ s.Clearing id
  | .reconciled => ∀ operation ∈ s.awaitingOperationId.latest, s.IsOver operation →
      s.surroundings.isActive = true ∨ s.Clearing operation
  | .threadReplaced => ∀ operation ∈ s.awaitingOperationId.latest, s.Clearing operation
  | _ => True

end Terminal

end AwesomeAgent.PendingInputs
