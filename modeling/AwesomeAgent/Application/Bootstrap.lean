import AwesomeAgent.Interactions.Coordinator
import AwesomeAgent.Library.Text

/-!
# Bootstrap of the application

An application becomes ready by an initialize attempt, or by the trust of the user that an
attempt asked for. A caller holds a token from the beginning of a transition until it completes
or aborts it, and other callers may come in between.
-/

namespace AwesomeAgent

/-- How far the application is. -/
inductive BootstrapPhase
  | uninitialized
  | initializing
  | trustRequired
  | stateResetRequired
  | ready
  deriving DecidableEq, Repr

/-- The operations that a surface may ask for. -/
inductive ApplicationOperation
  | initializeOp
  | skillList
  | skillInstall
  | skillRemove
  | getState
  | listThreads
  | searchThreads
  | readThread
  | submitTurn
  | executeDirect
  | executeCommand
  | setProviderCredential
  | respondInteraction
  | cancelOperation
  | shutdown
  deriving DecidableEq, Repr

/-- Why a request is not admitted yet. -/
structure BootstrapRejection where
  message : String
  diagnosticCode : String
  deriving DecidableEq, Repr

/-- Why a transition is refused. -/
inductive BootstrapError
  | runtimeError (message : String)
  | typeError (message : String)
  | valueError (message : String)
  deriving DecidableEq, Repr

/-- A phase without a running attempt, and the interaction that is pending in it. -/
structure StableBootstrapState where
  phase : BootstrapPhase
  interactionId : Option String
  deriving DecidableEq, Repr

/-- The token of an attempt; a repeated one of a ready application has no number. -/
structure InitializeTransition where
  generation : Option Nat
  origin : StableBootstrapState
  deriving DecidableEq, Repr

/-- The token of an answer. -/
structure InteractionTransition where
  phase : BootstrapPhase
  interactionId : String
  decision : InteractionDecision
  deriving DecidableEq

/-- The token of an operation before the first attempt. -/
structure PreInitializeTransition where
  generation : Nat
  operation : ApplicationOperation
  deriving DecidableEq, Repr

/-- Another attempt runs. -/
def initializationInProgress : BootstrapRejection :=
  ⟨"Server initialization is in progress", "initialization_in_progress"⟩

/-- There was no attempt yet. -/
def serverNotInitialized : BootstrapRejection :=
  ⟨"Server not initialized", "server_not_initialized"⟩

/-- The attempt did not make the application ready. -/
def serverNotReady : BootstrapRejection := ⟨"Server not ready", "server_not_ready"⟩

/-- Skill packages are being changed. -/
def preinitializeOperationInProgress : BootstrapRejection :=
  ⟨"A pre-initialize operation is in progress", "preinitialize_operation_in_progress"⟩

/-- Skill packages may not be changed any more. -/
def skillManagementRequiresUninitialized : BootstrapRejection :=
  ⟨"Skill package management is only available before initialization",
    "skill_management_requires_uninitialized"⟩

/-- The operations before the first attempt. -/
def skillManagementOperations : List ApplicationOperation :=
  [.skillList, .skillInstall, .skillRemove]

/-- The operations that are always admitted. -/
def urgentOperations : List ApplicationOperation := [.cancelOperation, .shutdown]

/-- The phases with a pending interaction. -/
def interactionPhases : List BootstrapPhase := [.trustRequired, .stateResetRequired]

/-! ## Results of the backend -/

/-- A field of a result: absent, of the right type, or of another one. -/
inductive ResultValue (α : Type)
  | none
  | typed (value : α)
  | other
  deriving DecidableEq

/-- What the backend gave back; a flag that is no truth value is none. -/
inductive ApplicationResult (α : Type)
  | result (ok : Option Bool) (value : ResultValue α) (hasError : Bool)
  | other

/-- How an attempt ended. -/
inductive InitializeStatus
  | ready
  | trustRequired
  | stateResetRequired
  deriving DecidableEq, Repr

/-- The result of an attempt; a status that is unknown is none. -/
structure InitializeResult where
  status : Option InitializeStatus
  interactionId : ResultValue String

/-- The result of an answer. -/
structure InteractionResult where
  accepted : Bool
  status : String
  hasError : Bool

/-- The phase with an interaction that a result asks for. -/
def pendingState (phase : BootstrapPhase) :
    ResultValue String → Except BootstrapError StableBootstrapState
  | .typed interactionId =>
      if interactionId.toList.all isSpace ∨ 128 < interactionId.length then
        .error (.valueError "Bootstrap interaction requires an interaction ID.")
      else .ok ⟨phase, some interactionId⟩
  | _ => .error (.valueError "Bootstrap interaction requires an interaction ID.")

/-- The phase that the value of a result asks for. -/
def stateFromInitializeResult :
    ResultValue InitializeResult → Except BootstrapError StableBootstrapState
  | .typed value =>
      match value.status with
      | none => .error (.valueError "Initialize returned an unknown bootstrap status.")
      | some .ready =>
          match value.interactionId with
          | .none => .ok ⟨.ready, none⟩
          | _ => .error (.valueError "Ready initialize result forbids an interaction ID.")
      | some .trustRequired => pendingState .trustRequired value.interactionId
      | some .stateResetRequired => pendingState .stateResetRequired value.interactionId
  | _ => .error (.typeError "Initialize returned an invalid result contract.")

/-- The phase that a result asks for; a failure asks for none. -/
def stateFromInitializeOutcome :
    ApplicationResult InitializeResult → Except BootstrapError (Option StableBootstrapState)
  | .result (some true) value false => (stateFromInitializeResult value).map some
  | .result (some true) _ true =>
      .error (.valueError "Successful initialize result forbids an error.")
  | .result (some false) .none true => .ok none
  | .result (some false) _ _ =>
      .error (.valueError "Initialize failure has an invalid result branch.")
  | .result none _ _ | .other =>
      .error (.typeError "Initialize returned an invalid application result.")

/-! ## The state machine -/

/-- The bootstrap of an application. -/
structure ApplicationBootstrap where
  phase : BootstrapPhase := .uninitialized
  interactionId : Option String := none
  nextInitializeGeneration : Nat := 0
  activeInitializeGeneration : Option Nat := none
  nextPreinitializeGeneration : Nat := 0
  activePreinitialize : Option PreInitializeTransition := none
  deriving DecidableEq

namespace ApplicationBootstrap

/-- Why an operation is not admitted, if it is not. -/
def rejection (b : ApplicationBootstrap) (operation : Option ApplicationOperation) :
    Option BootstrapRejection :=
  if operation.any (skillManagementOperations.contains ·) then
    if b.phase ≠ .uninitialized then some skillManagementRequiresUninitialized
    else if b.activePreinitialize.isSome then some preinitializeOperationInProgress
    else none
  else if operation = some .initializeOp ∧ b.activePreinitialize.isSome then
    some preinitializeOperationInProgress
  else if operation.any (urgentOperations.contains ·) ∨ b.phase = .ready then none
  else if operation = some .initializeOp then
    if b.phase = .initializing then some initializationInProgress else none
  else if operation = some .respondInteraction ∧ b.phase ∈ interactionPhases then none
  else if b.phase = .uninitialized then some serverNotInitialized
  else some serverNotReady

/-- Begin an attempt. -/
def beginInitialize (b : ApplicationBootstrap) :
    Except BootstrapError (InitializeTransition × ApplicationBootstrap) :=
  if b.activePreinitialize.isSome then
    .error (.runtimeError "A pre-initialize operation is already in progress.")
  else if b.phase = .initializing then
    .error (.runtimeError "Application initialization is already in progress.")
  else
    let origin : StableBootstrapState := ⟨b.phase, b.interactionId⟩
    if b.phase = .ready then .ok (⟨none, origin⟩, b)
    else
      let generation := b.nextInitializeGeneration + 1
      .ok (⟨some generation, origin⟩,
        { b with
          nextInitializeGeneration := generation
          activeInitializeGeneration := some generation
          phase := .initializing
          interactionId := none })

/-- Begin an operation before the first attempt. -/
def preinitializeBegin (b : ApplicationBootstrap) (operation : ApplicationOperation) :
    Except BootstrapError (PreInitializeTransition × ApplicationBootstrap) :=
  if operation ∉ skillManagementOperations then
    .error (.valueError "Operation is not available before initialization.")
  else
    match b.rejection (some operation) with
    | some rejection => .error (.runtimeError rejection.message)
    | none =>
        let generation := b.nextPreinitializeGeneration + 1
        let transition : PreInitializeTransition := ⟨generation, operation⟩
        .ok (transition,
          { b with
            nextPreinitializeGeneration := generation
            activePreinitialize := some transition })

/-- End an operation before the first attempt. -/
def preinitializeComplete (b : ApplicationBootstrap) (transition : PreInitializeTransition) :
    Except BootstrapError Unit × ApplicationBootstrap :=
  if b.activePreinitialize ≠ some transition then
    (.error (.runtimeError "Pre-initialize transition is no longer active."), b)
  else (.ok (), { b with activePreinitialize := none })

/-- The token belongs to the running attempt, or to a repeated one. -/
def requireInitializeTransition (b : ApplicationBootstrap) (transition : InitializeTransition) :
    Except BootstrapError Unit :=
  match transition.generation with
  | none =>
      if transition.origin.phase ≠ .ready then
        .error (.runtimeError "Invalid ready initialize transition.")
      else .ok ()
  | some generation =>
      if b.phase ≠ .initializing ∨ b.activeInitializeGeneration ≠ some generation then
        .error (.runtimeError "Initialize transition is no longer active.")
      else .ok ()

/-- Go back to the phase before an attempt. -/
def restoreInitialize (b : ApplicationBootstrap) (transition : InitializeTransition) :
    ApplicationBootstrap :=
  match transition.generation with
  | none => { b with phase := .ready, interactionId := none }
  | some _ =>
      { b with
        activeInitializeGeneration := none
        phase := transition.origin.phase
        interactionId := transition.origin.interactionId }

/-- End an attempt with its result. -/
def completeInitialize (b : ApplicationBootstrap) (transition : InitializeTransition)
    (result : ApplicationResult InitializeResult) :
    Except BootstrapError Unit × ApplicationBootstrap :=
  match b.requireInitializeTransition transition with
  | .error e => (.error e, b)
  | .ok () =>
      match stateFromInitializeOutcome result with
      | .error e => (.error e, b.restoreInitialize transition)
      | .ok none => (.ok (), b.restoreInitialize transition)
      | .ok (some state) =>
          if transition.origin.phase = .ready ∧ state.phase ≠ .ready then
            (.error (.runtimeError "A ready application cannot regress during initialize."),
              b.restoreInitialize transition)
          else
            (.ok (),
              { b with
                activeInitializeGeneration := none
                phase := state.phase
                interactionId := state.interactionId })

/-- End an attempt that raised or was cancelled. -/
def abortInitialize (b : ApplicationBootstrap) (transition : InitializeTransition) :
    Except BootstrapError Unit × ApplicationBootstrap :=
  match b.requireInitializeTransition transition with
  | .error e => (.error e, b)
  | .ok () => (.ok (), b.restoreInitialize transition)

/-- The decision of a text. -/
def parseDecision (decision : String) : Option InteractionDecision :=
  [("trust", InteractionDecision.trust), ("reset_state", .resetState),
    ("allow_once", .allowOnce), ("allow_thread_writes", .allowThreadWrites),
    ("allow_thread_network", .allowThreadNetwork), ("enable_full_access", .enableFullAccess),
    ("retry", .retry), ("abort", .abort), ("deny", .deny)].lookup decision

/-- Begin an answer to the pending interaction. -/
def beginInteraction (b : ApplicationBootstrap) (interactionId decision : String) :
    Option InteractionTransition :=
  if b.phase ∉ interactionPhases ∨ b.interactionId ≠ some interactionId then none
  else (parseDecision decision).map fun parsed => ⟨b.phase, interactionId, parsed⟩

/-- The backend accepted and resolved the interaction. -/
def isResolved : ResultValue InteractionResult → Bool
  | .typed value => value.accepted && decide (value.status = "resolved") && !value.hasError
  | _ => false

/-- End an answer with its result. -/
def completeInteraction (b : ApplicationBootstrap) (transition : InteractionTransition)
    (result : ApplicationResult InteractionResult) :
    Except BootstrapError Unit × ApplicationBootstrap :=
  if b.phase ≠ transition.phase ∨ b.interactionId ≠ some transition.interactionId then
    (.ok (), b)
  else
    match result with
    | .other => (.error (.typeError "Interaction returned an invalid result contract."), b)
    | .result ok value hasError =>
        if ok ≠ some true then (.ok (), b)
        else if hasError then
          (.error (.valueError "Successful interaction result forbids an error."), b)
        else if isResolved value = false then (.ok (), b)
        else if transition.phase = .trustRequired ∧ transition.decision = .trust then
          (.ok (), { b with phase := .ready, interactionId := none })
        else (.ok (), b)

end ApplicationBootstrap

/-! ## Callers -/

/-- The bootstrap, the tokens that callers ever got, and the attempts without an end yet. -/
structure BootstrapSystem where
  bootstrap : ApplicationBootstrap := {}
  issued : List InitializeTransition := []
  initializing : List InitializeTransition := []
  preinitializing : List PreInitializeTransition := []
  answering : List InteractionTransition := []

/-- What a caller does. -/
inductive BootstrapAction
  | beginInitialize
  | completeInitialize (transition : InitializeTransition)
      (result : ApplicationResult InitializeResult)
  | abortInitialize (transition : InitializeTransition)
  | preinitializeBegin (operation : ApplicationOperation)
  | preinitializeComplete (transition : PreInitializeTransition)
  | beginInteraction (interactionId decision : String)
  | completeInteraction (transition : InteractionTransition)
      (result : ApplicationResult InteractionResult)

/-- A step of a caller; only tokens that callers got can be completed or aborted, at any time and
any number of times. A refused step changes nothing but the open attempts. -/
def BootstrapSystem.step (s : BootstrapSystem) : BootstrapAction → Option BootstrapSystem
  | .beginInitialize =>
      match s.bootstrap.beginInitialize with
      | .error _ => some s
      | .ok (transition, b) =>
          some { s with
            bootstrap := b
            issued := transition :: s.issued
            initializing := transition :: s.initializing }
  | .completeInitialize transition result =>
      if transition ∈ s.issued then
        some { s with
          bootstrap := (s.bootstrap.completeInitialize transition result).2
          initializing := s.initializing.erase transition }
      else none
  | .abortInitialize transition =>
      if transition ∈ s.issued then
        some { s with
          bootstrap := (s.bootstrap.abortInitialize transition).2
          initializing := s.initializing.erase transition }
      else none
  | .preinitializeBegin operation =>
      match s.bootstrap.preinitializeBegin operation with
      | .error _ => some s
      | .ok (transition, b) =>
          some { s with bootstrap := b, preinitializing := transition :: s.preinitializing }
  | .preinitializeComplete transition =>
      if transition ∈ s.preinitializing then
        some { s with bootstrap := (s.bootstrap.preinitializeComplete transition).2 }
      else none
  | .beginInteraction interactionId decision =>
      some { s with
        answering := (s.bootstrap.beginInteraction interactionId decision).toList ++ s.answering }
  | .completeInteraction transition result =>
      if transition ∈ s.answering then
        some { s with bootstrap := (s.bootstrap.completeInteraction transition result).2 }
      else none

end AwesomeAgent
