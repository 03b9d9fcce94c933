import AwesomeAgent.Conversations.Records
import AwesomeAgent.Library.Table
import AwesomeAgent.Library.Transactions
import Mathlib.Tactic.MkIffOfInductiveProp

/-!
# The conversation store

One connection executes the write transactions of all callers one after the other.
A statement that breaks a constraint of the schema changes nothing and fails.
-/

namespace AwesomeAgent

/-- Why the store or its service rejects a request. -/
inductive ConversationError
  | threadNotFound (threadId : String)
  | turnNotFound (turnId : String)
  | turnBusy (threadId : String)
  | invalidTurnTransition (message : String)
  | conversationConflict (message : String)
  | valueError (message : String)
  | validationError
  | integrityError
  deriving DecidableEq, Repr

/-- The rows of the conversation tables. -/
structure ConversationRows (Json : Type) where
  threads : Table String Thread fun t => t.id
  threadEntries : Table String (ThreadEntry Json) fun e => e.id
  turns : Table String (Turn Json) fun t => t.id
  threadSummaries : Table String ThreadSummary fun s => s.threadId

/-- The constraints of the schema besides the primary keys. -/
@[mk_iff]
structure ConversationRows.Constraints {Json : Type} (r : ConversationRows Json) : Prop where
  entryThread : ∀ e ∈ r.threadEntries.rows, (r.threads.get? e.threadId).isSome
  clientMessages : ∀ e ∈ r.threadEntries.rows, ∀ f ∈ r.threadEntries.rows,
    e.threadId = f.threadId → e.clientMessageId.isSome →
      e.clientMessageId = f.clientMessageId → e.id = f.id
  entrySequence : ∀ e ∈ r.threadEntries.rows, ∀ f ∈ r.threadEntries.rows,
    e.threadId = f.threadId → e.sequence = f.sequence → e.id = f.id
  turnThread : ∀ t ∈ r.turns.rows, (r.threads.get? t.threadId).isSome
  userEntry : ∀ t ∈ r.turns.rows, ∃ e ∈ r.threadEntries.rows,
    e.threadId = t.threadId ∧ e.id = t.userEntryId
  assistantEntry : ∀ t ∈ r.turns.rows, t.assistantEntryId = none ∨
    ∃ e ∈ r.threadEntries.rows, e.threadId = t.threadId ∧ some e.id = t.assistantEntryId
  oneInProgress : ∀ t ∈ r.turns.rows, ∀ u ∈ r.turns.rows, t.threadId = u.threadId →
    t.status = .inProgress → u.status = .inProgress → t.id = u.id
  summaryThread : ∀ s ∈ r.threadSummaries.rows, (r.threads.get? s.threadId).isSome

instance {Json : Type} (r : ConversationRows Json) : Decidable r.Constraints :=
  decidable_of_iff _ (ConversationRows.constraints_iff r).symm

/-- The conversation tables. -/
structure ConversationDatabase (Json : Type) extends ConversationRows Json where
  constraints : toConversationRows.Constraints

/-- The database after its schema was created. -/
def ConversationDatabase.empty (Json : Type) : ConversationDatabase Json where
  threads := .empty
  threadEntries := .empty
  turns := .empty
  threadSummaries := .empty
  constraints := by
    constructor <;> simp [Table.empty]

/-- A write transaction of the store. -/
abbrev ConversationTransaction (Json α : Type) :=
  Transaction (ConversationDatabase Json) ConversationError α

section Statements

variable {Json : Type}

/-- Write rows if they meet the constraints. -/
def writeRows (rows : ConversationRows Json)
    (onIntegrityError : ConversationTransaction Json Unit) : ConversationTransaction Json Unit :=
  if h : rows.Constraints then set (⟨rows, h⟩ : ConversationDatabase Json) else onIntegrityError

/-- Insert a Thread. -/
def SQLiteThreadRepository.create (thread : Thread) : ConversationTransaction Json Unit := do
  let s ← get
  let conflict : ConversationTransaction Json Unit :=
    throw (.conversationConflict "Thread already exists or is invalid.")
  if (s.threads.get? thread.id).isSome then conflict
  else writeRows { s.toConversationRows with threads := s.threads.put thread } conflict

/-- The stored row of a Thread after an update. -/
def Thread.stored (row thread : Thread) : Thread :=
  ⟨{ thread.toThreadFields with createdAt := row.createdAt }, thread.valid⟩

/-- Overwrite the row of a Thread. -/
def SQLiteThreadRepository.update (thread : Thread) : ConversationTransaction Json Unit := do
  let s ← get
  match s.threads.get? thread.id with
  | none => throw (.threadNotFound thread.id)
  | some row =>
      writeRows { s.toConversationRows with threads := s.threads.put (row.stored thread) }
        (throw .integrityError)

/-- Insert an entry. -/
def SQLiteThreadEntryRepository.append (entry : ThreadEntry Json) :
    ConversationTransaction Json Unit := do
  let s ← get
  let conflict : ConversationTransaction Json Unit :=
    throw (.conversationConflict "Thread Entry conflicts with stored state.")
  if (s.threadEntries.get? entry.id).isSome then conflict
  else
    writeRows { s.toConversationRows with threadEntries := s.threadEntries.put entry } conflict

/-- The Turn in progress of a Thread. -/
def ConversationRows.inProgress (r : ConversationRows Json) (threadId : String) :
    Option (Turn Json) :=
  r.turns.rows.find? fun t => decide (t.threadId = threadId ∧ t.status = .inProgress)

/-- Insert a Turn. -/
def SQLiteTurnRepository.create (turn : Turn Json) : ConversationTransaction Json Unit := do
  let s ← get
  let conflict : ConversationTransaction Json Unit :=
    if (s.inProgress turn.threadId).isSome then throw (.turnBusy turn.threadId)
    else throw (.conversationConflict "Turn conflicts with stored state.")
  if (s.turns.get? turn.id).isSome then conflict
  else writeRows { s.toConversationRows with turns := s.turns.put turn } conflict

/-- The stored row of a Turn after an update. -/
def Turn.stored (row turn : Turn Json) : Turn Json :=
  ⟨row.toTurnFields.advancedTo turn.toTurnFields, row.valid.advancedTo turn.valid⟩

/-- Overwrite how far a Turn has come. -/
def SQLiteTurnRepository.update (turn : Turn Json) : ConversationTransaction Json Unit := do
  let s ← get
  match s.turns.get? turn.id with
  | none => throw (.turnNotFound turn.id)
  | some row =>
      writeRows { s.toConversationRows with turns := s.turns.put (row.stored turn) }
        (throw .integrityError)

/-- Insert the summary of a Thread, or overwrite it. -/
def SQLiteThreadSummaryRepository.upsert (summary : ThreadSummary) :
    ConversationTransaction Json Unit := do
  let s ← get
  writeRows { s.toConversationRows with threadSummaries := s.threadSummaries.put summary }
    (throw (.conversationConflict "Thread Summary is invalid."))

/-- Replace the summary of a Thread if it is still the expected one. -/
def SQLiteThreadSummaryRepository.compareAndSwap (summary : ThreadSummary)
    (expected : Option ThreadSummary) : ConversationTransaction Json Unit := do
  let s ← get
  if s.threadSummaries.get? summary.threadId ≠ expected then
    throw (.conversationConflict "Thread Summary changed concurrently.")
  else upsert summary

end Statements

section Operations

variable {Json : Type}

/-- The row of a Thread. -/
def readThreadRow (threadId : String) : ConversationTransaction Json Thread := do
  match (← get).threads.get? threadId with
  | none => throw (.threadNotFound threadId)
  | some thread => pure thread

/-- The row of a Turn. -/
def readTurnRow (turnId : String) : ConversationTransaction Json (Turn Json) := do
  match (← get).turns.get? turnId with
  | none => throw (.turnNotFound turnId)
  | some turn => pure turn

/-- The fields of a Thread that a mutation sets. -/
structure ThreadUpdate where
  title : Option String := none
  titleSource : Option ThreadTitleSource := none
  currentModel : Option (Option String) := none
  thinkingEnabled : Option Bool := none
  skillMode : Option String := none
  updatedAt : Int

/-- A copy of a Thread with the fields of a mutation. -/
def ThreadFields.copyWith (t : ThreadFields) (update : ThreadUpdate) : ThreadFields :=
  { t with
    title := update.title.getD t.title
    titleSource := update.titleSource.getD t.titleSource
    currentModel := update.currentModel.getD t.currentModel
    thinkingEnabled := update.thinkingEnabled.getD t.thinkingEnabled
    skillMode := update.skillMode.getD t.skillMode
    updatedAt := update.updatedAt }

/-- Revalidate an updated Thread whose time of update does not go back. -/
def monotonicThreadUpdate (current : Thread) (update : ThreadUpdate) :
    Except ConversationError Thread :=
  let boundedUpdate := { update with updatedAt := max current.updatedAt update.updatedAt }
  if h : (current.toThreadFields.copyWith boundedUpdate).Valid then .ok ⟨_, h⟩
  else .error .validationError

/-- Apply a field-level mutation to the current state of a Thread. -/
def patchThread (threadId : String) (update : ThreadUpdate) :
    ConversationTransaction Json Unit := do
  let current ← readThreadRow threadId
  let updated ← monotonicThreadUpdate current update
  SQLiteThreadRepository.update updated

/-- Move the time of update of a Thread forward. -/
def touchThread (threadId : String) (updatedAt : Int) : ConversationTransaction Json Unit := do
  let thread ← readThreadRow threadId
  let updated ← monotonicThreadUpdate thread { updatedAt := updatedAt }
  SQLiteThreadRepository.update updated

/-- The sequence numbers of a Thread. -/
def ConversationRows.sequences (r : ConversationRows Json) (threadId : String) : List Nat :=
  (r.threadEntries.rows.filter fun e => decide (e.threadId = threadId)).map fun e => e.sequence

/-- The sequence number of the next entry, which an appended entry must have. -/
def requireNextSequence (entry : ThreadEntry Json) : ConversationTransaction Json Nat := do
  let s ← get
  let expected := (s.sequences entry.threadId).max?.getD 0 + 1
  Transaction.require (entry.sequence = expected)
    (.conversationConflict "Thread Entry sequence changed concurrently.")
  pure expected

/-- Only a Turn in progress ends. -/
def requireTurnTransition (current target : TurnStatus) : Except ConversationError Unit :=
  if current ≠ .inProgress ∨ target ∉ [.completed, .failed, .cancelled] then
    .error (.invalidTurnTransition
      ("Cannot transition Turn from " ++ current.value ++ " to " ++ target.value ++ "."))
  else .ok ()

/-- A Turn without a context manifest, or with the same one. -/
def keepsContextManifest [BEq Json] (current turn : Turn Json) : Bool :=
  current.contextManifest.isEmpty || current.contextManifest == turn.contextManifest

/-- Append the user's message and open its Turn. -/
def beginTurn (userEntry : ThreadEntry Json) (turn : Turn Json) (automaticTitle : Option String)
    (updatedAt : Int) : ConversationTransaction Json Unit := do
  let thread ← readThreadRow turn.threadId
  let s ← get
  Transaction.require ((s.inProgress turn.threadId).isNone) (.turnBusy turn.threadId)
  let nextSequence ← requireNextSequence userEntry
  SQLiteThreadEntryRepository.append userEntry
  SQLiteTurnRepository.create turn
  let title :=
    if thread.titleSource = .automatic ∧ nextSequence = 1 then automaticTitle else none
  let updated ← monotonicThreadUpdate thread { title := title, updatedAt := updatedAt }
  SQLiteThreadRepository.update updated

/-- Append the answer and complete its Turn. -/
def completeTurn [BEq Json] (assistantEntry : ThreadEntry Json) (turn : Turn Json) :
    ConversationTransaction Json Unit := do
  let current ← readTurnRow turn.id
  requireTurnTransition current.status .completed
  Transaction.require (keepsContextManifest current turn)
    (.conversationConflict "Turn context changed before completion was committed.")
  Transaction.require (current.threadId = assistantEntry.threadId)
    (.conversationConflict "Assistant Entry belongs to another Thread.")
  let _ ← requireNextSequence assistantEntry
  SQLiteThreadEntryRepository.append assistantEntry
  SQLiteTurnRepository.update turn
  touchThread turn.threadId turn.updatedAt

/-- Record the context manifest of a Turn in progress. -/
def updateInProgressTurn [BEq Json] (turn : Turn Json) (expectedContextManifest : List Json) :
    ConversationTransaction Json Unit := do
  let current ← readTurnRow turn.id
  Transaction.require
    (current.status = .inProgress ∧ turn.status = .inProgress ∧
      current.contextManifest == expectedContextManifest ∧
      turn.toTurnFields ==
        current.toTurnFields.withContextManifest turn.contextManifest turn.updatedAt)
    (.conversationConflict "In-progress Turn context update conflicts with stored state.")
  SQLiteTurnRepository.update turn

/-- End a Turn that failed or was cancelled. -/
def updateTerminalTurn [BEq Json] (turn : Turn Json) : ConversationTransaction Json Unit := do
  let current ← readTurnRow turn.id
  requireTurnTransition current.status turn.status
  Transaction.require (keepsContextManifest current turn)
    (.conversationConflict "Turn context changed before terminal state was committed.")
  SQLiteTurnRepository.update turn
  touchThread turn.threadId turn.updatedAt

/-- Append a command that the user ran without the agent. -/
def appendDirectCommand (entry : ThreadEntry Json) : ConversationTransaction Json Unit := do
  let thread ← readThreadRow entry.threadId
  let _ ← requireNextSequence entry
  SQLiteThreadEntryRepository.append entry
  let updated ← monotonicThreadUpdate thread { updatedAt := entry.createdAt }
  SQLiteThreadRepository.update updated

end Operations

/-- The write operations of the store with their arguments. -/
inductive StoreOperation (Json : Type)
  | createThread (thread : Thread)
  | renameThread (threadId title : String) (updatedAt : Int)
  | setThreadModel (threadId : String) (model : Option String) (updatedAt : Int)
  | setThreadThinking (threadId : String) (enabled : Bool) (updatedAt : Int)
  | setThreadSkillMode (threadId skillMode : String) (updatedAt : Int)
  | beginTurn (userEntry : ThreadEntry Json) (turn : Turn Json) (automaticTitle : Option String)
      (updatedAt : Int)
  | completeTurn (assistantEntry : ThreadEntry Json) (turn : Turn Json)
  | updateInProgressTurn (turn : Turn Json) (expectedContextManifest : List Json)
  | updateTerminalTurn (turn : Turn Json)
  | appendDirectCommand (entry : ThreadEntry Json)
  | compareAndSwapSummary (summary : ThreadSummary) (expected : Option ThreadSummary)

/-- The transaction of an operation. -/
def StoreOperation.transaction {Json : Type} [BEq Json] :
    StoreOperation Json → ConversationTransaction Json Unit
  | .createThread thread => SQLiteThreadRepository.create thread
  | .renameThread threadId title updatedAt =>
      patchThread threadId
        { title := some title, titleSource := some .manual, updatedAt := updatedAt }
  | .setThreadModel threadId model updatedAt =>
      patchThread threadId { currentModel := some model, updatedAt := updatedAt }
  | .setThreadThinking threadId enabled updatedAt =>
      patchThread threadId { thinkingEnabled := some enabled, updatedAt := updatedAt }
  | .setThreadSkillMode threadId skillMode updatedAt =>
      patchThread threadId { skillMode := some skillMode, updatedAt := updatedAt }
  | .beginTurn userEntry turn automaticTitle updatedAt =>
      AwesomeAgent.beginTurn userEntry turn automaticTitle updatedAt
  | .completeTurn assistantEntry turn => AwesomeAgent.completeTurn assistantEntry turn
  | .updateInProgressTurn turn expected => AwesomeAgent.updateInProgressTurn turn expected
  | .updateTerminalTurn turn => AwesomeAgent.updateTerminalTurn turn
  | .appendDirectCommand entry => AwesomeAgent.appendDirectCommand entry
  | .compareAndSwapSummary summary expected =>
      SQLiteThreadSummaryRepository.compareAndSwap summary expected

end AwesomeAgent
