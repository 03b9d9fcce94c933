import AwesomeAgent.Library.BoundedTail
import AwesomeAgent.Library.Dict
import AwesomeAgent.Surface.Model

/-!
# Transcripts

Blocks are merged by their keys and user messages by their client identity; reasoning keeps
a bounded tail.
-/

namespace AwesomeAgent.Surface

/-- Code units of reasoning that the live view keeps. -/
def maxReasoningUnits : Nat := 32000

/-- What stands for the reasoning that was dropped. -/
def reasoningOmittedMarker : Text :=
  "… earlier reasoning omitted from live view\n".toList.flatMap JsonText.unitsOf

/-- Whether two adjacent code units are a surrogate pair. -/
def surrogatePair (u v : UInt16) : Bool := JsonText.isLow v && JsonText.isHigh u

/-- Append a delta to reasoning and keep its tail. -/
def appendReasoningTail (current delta : Text) : Text :=
  let omitted := reasoningOmittedMarker.isPrefixOf current
  let tail := if omitted then current.drop reasoningOmittedMarker.length else current
  let combined := tail ++ delta
  if !omitted && decide (combined.length ≤ maxReasoningUnits) then combined
  else
    let tailBudget := maxReasoningUnits - reasoningOmittedMarker.length
    let start := combined.length - tailBudget
    reasoningOmittedMarker ++ BoundedTail.cut surrogatePair start combined

/-- A transcript key that two different blocks claim. -/
structure TranscriptIdentityError where
  key : String
  deriving DecidableEq, Repr

/-- The order in which a user message may change its status. -/
def userStatusRank : UserStatus → Nat
  | .pending => 0
  | .accepted => 1
  | .failed => 2
  | .persisted => 3

/-- The client identity and the status of a user message. -/
def BlockContent.userMessage : BlockContent → Option (String × UserStatus)
  | .user clientMessageId rank _ _ => some (clientMessageId, rank)
  | _ => none

/-- Blocks that are merged so far, and where keys and user messages are among them. -/
structure MergeState where
  positions : Dict String Nat
  userPositions : Dict String Nat
  merged : List TranscriptBlock

namespace MergeState

/-- Nothing is merged. -/
def empty : MergeState := ⟨.empty, .empty, []⟩

/-- Replace a user message unless its status would go back. -/
def replaceUser (s : MergeState) (position : Nat) (status : UserStatus) (block : TranscriptBlock) :
    MergeState :=
  match s.merged[position]?.bind fun current => current.content.userMessage with
  | some (_, currentStatus) =>
      if userStatusRank currentStatus ≤ userStatusRank status then
        { s with merged := s.merged.set position block }
      else s
  | none => s

/-- Add a block under its key, unless the same block is there. -/
def insert (s : MergeState) (block : TranscriptBlock) :
    Except TranscriptIdentityError MergeState :=
  match s.positions.get? block.key with
  | some existing =>
      if s.merged[existing]? = some block then .ok s else .error ⟨block.key⟩
  | none => .ok { s with
      positions := s.positions.set block.key s.merged.length
      merged := s.merged ++ [block] }

/-- Merge one block. -/
def add (s : MergeState) (block : TranscriptBlock) : Except TranscriptIdentityError MergeState :=
  match block.content.userMessage with
  | some (clientMessageId, status) =>
      match s.userPositions.get? clientMessageId with
      | some position => .ok (s.replaceUser position status block)
      | none =>
          { s with userPositions := s.userPositions.set clientMessageId s.merged.length }.insert
            block
  | none => s.insert block

end MergeState

/-- Merge two groups of blocks. -/
def mergeTranscriptBlocks (first second : List TranscriptBlock) :
    Except TranscriptIdentityError (List TranscriptBlock) :=
  ((first ++ second).foldlM MergeState.add .empty).map MergeState.merged

end AwesomeAgent.Surface
