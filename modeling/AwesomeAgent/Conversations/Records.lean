import Mathlib.Data.Int.Order.Basic

/-!
# Threads, their entries and their Turns

The records that the conversation store keeps. A record carries the proof that its
fields pass the checks of its model. JSON data is a type with the equality that the
program compares it by; points in time are microseconds.
-/

namespace AwesomeAgent

/-- The kinds of Thread entries. -/
inductive ThreadEntryKind
  | userMessage
  | assistantMessage
  | directCommand
  deriving DecidableEq, Repr

/-- Where a Thread title came from. -/
inductive ThreadTitleSource
  | automatic
  | manual
  deriving DecidableEq, Repr

/-- The states of a Turn. -/
inductive TurnStatus
  | inProgress
  | completed
  | failed
  | cancelled
  deriving DecidableEq, Repr

/-- The name of a status in messages. -/
def TurnStatus.value : TurnStatus → String
  | .inProgress => "in_progress"
  | .completed => "completed"
  | .failed => "failed"
  | .cancelled => "cancelled"

/-- How a Thread was made from another one. -/
inductive LineageKind
  | fork
  | retry
  deriving DecidableEq, Repr

/-- The Turn that a Thread was made from. -/
structure ThreadLineage where
  kind : LineageKind
  sourceThreadId : String
  sourceTurnId : String
  deriving DecidableEq, Repr

/-- The largest integer that JSON readers keep exactly. -/
def ThreadEntryFields.maxJsonSafeInteger : Nat := 9007199254740991

/-- A text within the length bounds of its field. -/
def Bounded (text : String) (low high : Nat) : Prop := low ≤ text.length ∧ text.length ≤ high

instance (text : String) (low high : Nat) : Decidable (Bounded text low high) :=
  inferInstanceAs (Decidable (_ ∧ _))

/-- An optional text within the length bound of its field. -/
def BoundedOption (text : Option String) (high : Nat) : Prop := ∀ t ∈ text, t.length ≤ high

instance (text : Option String) (high : Nat) : Decidable (BoundedOption text high) :=
  inferInstanceAs (Decidable (∀ t ∈ text, _))

/-- The fields of a Thread. -/
structure ThreadFields where
  id : String
  workspaceKey : String
  title : String
  titleSource : ThreadTitleSource
  currentModel : Option String
  thinkingEnabled : Bool
  skillMode : String
  lineage : Option ThreadLineage
  createdAt : Int
  updatedAt : Int
  deriving DecidableEq, Repr

/-- The checks of the Thread model. -/
def ThreadFields.Valid (t : ThreadFields) : Prop :=
  Bounded t.id 1 128 ∧ Bounded t.workspaceKey 1 128 ∧ Bounded t.title 1 500 ∧
    BoundedOption t.currentModel 200 ∧ Bounded t.skillMode 1 64 ∧
    ∀ l ∈ t.lineage, Bounded l.sourceThreadId 1 128 ∧ Bounded l.sourceTurnId 1 128

instance (t : ThreadFields) : Decidable t.Valid := by
  unfold ThreadFields.Valid
  infer_instance

/-- A Thread. -/
structure Thread extends ThreadFields where
  valid : toThreadFields.Valid
  deriving DecidableEq

/-- The characters of a client message identifier. -/
def isClientCharacter (c : Char) : Bool :=
  c.isAlphanum || c = '_' || c = '-'

/-- Identifiers that a client gives to its messages: `^client_[A-Za-z0-9_-]+$`. -/
def IsClientMessageId (id : String) : Prop :=
  id.length ≤ 128 ∧ "client_".toList.isPrefixOf id.toList ∧ 7 < id.length ∧
    (id.toList.drop 7).all isClientCharacter

instance (id : String) : Decidable (IsClientMessageId id) := by
  unfold IsClientMessageId
  infer_instance

/-- The fields of a Thread entry. -/
structure ThreadEntryFields (Json : Type) where
  id : String
  threadId : String
  sequence : Nat
  kind : ThreadEntryKind
  content : String
  clientMessageId : Option String
  metadata : Json
  createdAt : Int

/-- The checks of the Thread entry model. -/
def ThreadEntryFields.Valid {Json : Type} (e : ThreadEntryFields Json) : Prop :=
  Bounded e.id 1 128 ∧ Bounded e.threadId 1 128 ∧
    (1 ≤ e.sequence ∧ e.sequence ≤ ThreadEntryFields.maxJsonSafeInteger) ∧
    e.content.length ≤ 200000 ∧
    (e.kind = .userMessage ↔ e.clientMessageId.isSome) ∧
    (∀ i ∈ e.clientMessageId, IsClientMessageId i) ∧
    (e.kind = .directCommand → e.content.length ≤ 30000)

instance {Json : Type} (e : ThreadEntryFields Json) : Decidable e.Valid := by
  unfold ThreadEntryFields.Valid
  infer_instance

/-- An entry of a Thread. -/
structure ThreadEntry (Json : Type) extends ThreadEntryFields Json where
  valid : toThreadEntryFields.Valid

/-- The fields of a Turn. -/
structure TurnFields (Json : Type) where
  id : String
  threadId : String
  checkpointKey : String
  status : TurnStatus
  provider : String
  model : String
  thinkingEnabled : Bool
  skillMode : String
  budgets : Json
  userEntryId : String
  assistantEntryId : Option String
  usage : Json
  terminationReason : Option String
  errorCode : Option String
  contextManifest : List Json
  createdAt : Int
  updatedAt : Int
  completedAt : Option Int
  deriving BEq

namespace TurnFields

variable {Json : Type}

/-- The checks of the fields that a Turn keeps for life. -/
def Identified (t : TurnFields Json) : Prop :=
  Bounded t.id 1 128 ∧ Bounded t.threadId 1 128 ∧ t.checkpointKey = t.id ∧
    Bounded t.provider 1 64 ∧ Bounded t.model 1 200 ∧ Bounded t.skillMode 1 64 ∧
    Bounded t.userEntryId 1 128

/-- The checks of the fields that describe how far a Turn has come. -/
def Shaped (t : TurnFields Json) : Prop :=
  BoundedOption t.assistantEntryId 128 ∧ BoundedOption t.terminationReason 128 ∧
    BoundedOption t.errorCode 128 ∧
    match t.status with
    | .inProgress =>
        t.completedAt = none ∧ t.assistantEntryId = none ∧ t.errorCode = none
    | .completed =>
        t.completedAt.isSome ∧ t.assistantEntryId.isSome ∧ t.errorCode = none
    | .failed => t.completedAt.isSome ∧ t.errorCode.isSome
    | .cancelled => t.completedAt.isSome

/-- The checks of the Turn model. -/
def Valid (t : TurnFields Json) : Prop := t.Identified ∧ t.Shaped

instance (t : TurnFields Json) : Decidable t.Identified := by
  unfold Identified
  infer_instance

instance (t : TurnFields Json) : Decidable t.Shaped := by
  unfold Shaped
  cases t.status <;> infer_instance

instance (t : TurnFields Json) : Decidable t.Valid :=
  inferInstanceAs (Decidable (_ ∧ _))

/-- A stored row after an update: it takes over how far the given Turn has come. -/
def advancedTo (row turn : TurnFields Json) : TurnFields Json :=
  { row with
    status := turn.status
    assistantEntryId := turn.assistantEntryId
    usage := turn.usage
    terminationReason := turn.terminationReason
    errorCode := turn.errorCode
    contextManifest := turn.contextManifest
    updatedAt := turn.updatedAt
    completedAt := turn.completedAt }

/-- A Turn with a new context manifest. -/
def withContextManifest (turn : TurnFields Json) (contextManifest : List Json)
    (updatedAt : Int) : TurnFields Json :=
  { turn with contextManifest := contextManifest, updatedAt := updatedAt }

/-- A valid row may be advanced to a valid Turn. -/
theorem Valid.advancedTo {row turn : TurnFields Json} (hrow : row.Valid) (hturn : turn.Valid) :
    (row.advancedTo turn).Valid :=
  ⟨hrow.1, hturn.2⟩

/-- A valid Turn stays so with another manifest. -/
theorem Valid.withContextManifest {turn : TurnFields Json} (h : turn.Valid)
    (contextManifest : List Json) (updatedAt : Int) :
    (turn.withContextManifest contextManifest updatedAt).Valid :=
  ⟨h.1, h.2⟩

end TurnFields

/-- A Turn: one request of the user and its answer. -/
structure Turn (Json : Type) extends TurnFields Json where
  valid : toTurnFields.Valid

/-- The summary of the beginning of a Thread. -/
structure ThreadSummary where
  threadId : String
  content : String
  contentHash : String
  coveredEntrySequence : Nat
  coveredTurnCount : Nat
  estimatedTokens : Nat
  provider : String
  model : String
  updatedAt : Int
  deriving DecidableEq, Repr

/-- What a reader sees of a Thread. -/
structure ThreadView (Json : Type) where
  thread : Thread
  entries : List (ThreadEntry Json)
  turns : List (Turn Json)
  summary : Option ThreadSummary

end AwesomeAgent
