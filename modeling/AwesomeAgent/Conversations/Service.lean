import AwesomeAgent.Conversations.Store
import AwesomeAgent.Providers.Secrets

/-!
# The conversation service

A call of the service reads a view of a Thread and decides from it what to ask of the
store. The view may be stale when the store executes the request.
-/

namespace AwesomeAgent

variable {Json : Type}

/-- Check the fields of a Thread entry. -/
def ThreadEntryFields.validate (e : ThreadEntryFields Json) :
    Except ConversationError (ThreadEntry Json) :=
  if h : e.Valid then .ok ⟨e, h⟩ else .error .validationError

/-- Check the fields of a Turn. -/
def TurnFields.validate (t : TurnFields Json) : Except ConversationError (Turn Json) :=
  if h : t.Valid then .ok ⟨t, h⟩ else .error .validationError

/-- The settings that a Turn starts with. -/
structure TurnConfig (Json : Type) where
  provider : String
  model : String
  thinkingEnabled : Bool
  skillMode : String
  budgets : Json
  noUsage : Json

namespace ThreadView

/-- The number of the next entry as the view shows it. -/
def nextSequence (view : ThreadView Json) : Nat :=
  match view.entries.getLast? with
  | none => 1
  | some e => e.sequence + 1

/-- A Turn of the view. -/
def turn (view : ThreadView Json) (turnId : String) : Except ConversationError (Turn Json) :=
  match view.turns.find? fun t => decide (t.id = turnId) with
  | none => .error (.turnNotFound turnId)
  | some t => .ok t

/-- An entry of the view. -/
def entryById (view : ThreadView Json) (entryId : Option String) : Option (ThreadEntry Json) :=
  entryId.bind fun i => view.entries.find? fun e => decide (e.id = i)

end ThreadView

/-- How a Turn ends. -/
structure Finalization (Json : Type) where
  usage : Json
  contextManifest : List Json
  now : Int

/-- The manifest that a finalization records. -/
def Finalization.recordedManifest (f : Finalization Json) (current : Turn Json) : List Json :=
  if f.contextManifest.isEmpty then current.contextManifest else f.contextManifest

/-- A Turn with the outcome of a finalization. -/
def Finalization.apply (f : Finalization Json) (current : Turn Json) (status : TurnStatus) :
    TurnFields Json :=
  { current.toTurnFields with
    status := status
    usage := f.usage
    contextManifest := f.recordedManifest current
    updatedAt := f.now
    completedAt := some f.now }

/-- A Turn that already has the outcome of a finalization. -/
def Finalization.matches [BEq Json] (f : Finalization Json) (current : Turn Json) : Bool :=
  current.usage == f.usage && current.contextManifest == f.recordedManifest current

/-- What a call asks of the store; a repeated finalization asks for nothing. -/
abbrev Requested (Json : Type) := Option (StoreOperation Json)

namespace ConversationService

/-- Open a Turn with a message of the user. -/
def beginTurn (view : ThreadView Json) (entryId turnId userContent : String)
    (config : TurnConfig Json) (noMetadata : Json) (clientMessageId automaticTitle : String)
    (now : Int) : Except ConversationError (Requested Json) := do
  if userContent.toList.all isSpace then
    .error (.valueError "User message cannot be empty.")
  else
    let entry ← ThreadEntryFields.validate
      { id := entryId
        threadId := view.thread.id
        sequence := view.nextSequence
        kind := .userMessage
        content := userContent
        clientMessageId := some clientMessageId
        metadata := noMetadata
        createdAt := now }
    let turn ← TurnFields.validate
      { id := turnId
        threadId := view.thread.id
        checkpointKey := turnId
        status := .inProgress
        provider := config.provider
        model := config.model
        thinkingEnabled := config.thinkingEnabled
        skillMode := config.skillMode
        budgets := config.budgets
        userEntryId := entryId
        assistantEntryId := none
        usage := config.noUsage
        terminationReason := none
        errorCode := none
        contextManifest := []
        createdAt := now
        updatedAt := now
        completedAt := none }
    let suggestedTitle :=
      if view.thread.titleSource = .automatic ∧ view.entries.isEmpty then some automaticTitle
      else none
    .ok (some (.beginTurn entry turn suggestedTitle now))

/-- Complete a Turn with the answer of the assistant. -/
def completeTurn [BEq Json] (view : ThreadView Json) (turnId entryId assistantContent : String)
    (metadata : Json) (terminationReason : String) (f : Finalization Json) :
    Except ConversationError (Requested Json) := do
  let current ← view.turn turnId
  if current.status = .completed then
    match view.entryById current.assistantEntryId with
    | some entry =>
        if entry.content = assistantContent && entry.metadata == metadata && f.matches current &&
            current.terminationReason = some terminationReason then
          .ok none
        else .error (.conversationConflict "Completed Turn finalization differs.")
    | none => .error (.conversationConflict "Completed Turn finalization differs.")
  else
    requireTurnTransition current.status .completed
    let assistant ← ThreadEntryFields.validate
      { id := entryId
        threadId := current.threadId
        sequence := view.nextSequence
        kind := .assistantMessage
        content := assistantContent
        clientMessageId := none
        metadata := metadata
        createdAt := f.now }
    let completed ← TurnFields.validate
      { f.apply current .completed with
        assistantEntryId := some assistant.id
        terminationReason := some terminationReason }
    .ok (some (.completeTurn assistant completed))

/-- Fail a Turn. -/
def failTurn [BEq Json] (view : ThreadView Json) (turnId errorCode : String)
    (f : Finalization Json) : Except ConversationError (Requested Json) := do
  if errorCode.toList.all isSpace then
    .error (.valueError "error_code cannot be empty.")
  else
    let current ← view.turn turnId
    if current.status = .failed then
      if current.errorCode = some errorCode && f.matches current then .ok none
      else .error (.conversationConflict "Failed Turn finalization differs.")
    else
      requireTurnTransition current.status .failed
      let failed ← TurnFields.validate
        { f.apply current .failed with errorCode := some errorCode }
      .ok (some (.updateTerminalTurn failed))

/-- Cancel a Turn. -/
def cancelTurn [BEq Json] (view : ThreadView Json) (turnId : String) (f : Finalization Json) :
    Except ConversationError (Requested Json) := do
  let current ← view.turn turnId
  if current.status = .cancelled then
    if f.matches current then .ok none
    else .error (.conversationConflict "Cancelled Turn finalization differs.")
  else
    requireTurnTransition current.status .cancelled
    let cancelled ← TurnFields.validate
      { f.apply current .cancelled with terminationReason := some "cancelled" }
    .ok (some (.updateTerminalTurn cancelled))

/-- A Turn with a new context manifest, which needs no other check. -/
def withContextManifest (current : Turn Json) (contextManifest : List Json) (now : Int) :
    Turn Json :=
  ⟨_, current.valid.withContextManifest contextManifest now⟩

/-- Record the context manifest of a Turn. -/
def storeContextManifest [BEq Json] (view : ThreadView Json) (turnId : String)
    (contextManifest : List Json) (now : Int) : Except ConversationError (Requested Json) := do
  let current ← view.turn turnId
  if current.status ≠ .inProgress then
    .error (.conversationConflict "Only an in-progress Turn can record a context snapshot.")
  else if current.contextManifest == contextManifest then .ok none
  else
    .ok (some (.updateInProgressTurn (withContextManifest current contextManifest now)
      current.contextManifest))

/-- Replace the context manifest of a Turn if it is still the expected one. -/
def compareAndSwapContextManifest [BEq Json] (view : ThreadView Json) (turnId : String)
    (contextManifest expectedContextManifest : List Json) (now : Int) :
    Except ConversationError (Requested Json) := do
  let current ← view.turn turnId
  if current.status ≠ .inProgress then
    .error (.conversationConflict "Only an in-progress Turn can reconcile a context snapshot.")
  else if !(current.contextManifest == expectedContextManifest) then
    .error (.conversationConflict "Turn context changed before the snapshot was reconciled.")
  else if current.contextManifest == contextManifest then .ok none
  else
    .ok (some (.updateInProgressTurn (withContextManifest current contextManifest now)
      expectedContextManifest))

/-- Record a command that the user ran without the agent. -/
def appendDirectCommand (view : ThreadView Json) (entryId content : String) (metadata : Json)
    (now : Int) : Except ConversationError (Requested Json) := do
  let entry ← ThreadEntryFields.validate
    { id := entryId
      threadId := view.thread.id
      sequence := view.nextSequence
      kind := .directCommand
      content := content
      clientMessageId := none
      metadata := metadata
      createdAt := now }
  .ok (some (.appendDirectCommand entry))

end ConversationService

/-- The calls of the service that read a view first. -/
inductive ServiceCall (Json : Type)
  | beginTurn (entryId turnId userContent : String) (config : TurnConfig Json)
      (noMetadata : Json) (clientMessageId automaticTitle : String) (now : Int)
  | completeTurn (turnId entryId assistantContent : String) (metadata : Json)
      (terminationReason : String) (f : Finalization Json)
  | failTurn (turnId errorCode : String) (f : Finalization Json)
  | cancelTurn (turnId : String) (f : Finalization Json)
  | storeContextManifest (turnId : String) (contextManifest : List Json) (now : Int)
  | compareAndSwapContextManifest (turnId : String)
      (contextManifest expectedContextManifest : List Json) (now : Int)
  | appendDirectCommand (entryId content : String) (metadata : Json) (now : Int)

/-- What a call decides from the view that it read. -/
def ServiceCall.decide [BEq Json] (view : ThreadView Json) :
    ServiceCall Json → Except ConversationError (Requested Json)
  | .beginTurn entryId turnId userContent config noMetadata clientMessageId automaticTitle now =>
      ConversationService.beginTurn view entryId turnId userContent config noMetadata
        clientMessageId automaticTitle now
  | .completeTurn turnId entryId assistantContent metadata terminationReason f =>
      ConversationService.completeTurn view turnId entryId assistantContent metadata
        terminationReason f
  | .failTurn turnId errorCode f => ConversationService.failTurn view turnId errorCode f
  | .cancelTurn turnId f => ConversationService.cancelTurn view turnId f
  | .storeContextManifest turnId contextManifest now =>
      ConversationService.storeContextManifest view turnId contextManifest now
  | .compareAndSwapContextManifest turnId contextManifest expected now =>
      ConversationService.compareAndSwapContextManifest view turnId contextManifest expected now
  | .appendDirectCommand entryId content metadata now =>
      ConversationService.appendDirectCommand view entryId content metadata now

end AwesomeAgent
