import AwesomeAgent.Surface.Reducer

/-!
# The delta batcher

Adjacent deltas of one Turn wait for a tick and leave as one; any other event flushes what
waits. What the batcher emits is dispatched under the Thread generation in which its
Operation started.
-/

namespace AwesomeAgent.Surface

/-- Code units that one batch may hold. -/
def maxBatchCharacters : Nat := 8192

/-- The delta of an event. -/
def EventEnvelope.projectDelta (event : EventEnvelope) : Option CoalescedDelta :=
  let delta (reasoning : Bool) (text : Text) : CoalescedDelta :=
    { sessionId := event.sessionId
      threadId := event.threadId
      turnId := event.turnId
      operationId := event.operationId
      reasoning := reasoning
      text := text
      firstTimestamp := event.timestamp
      lastTimestamp := event.timestamp
      firstSequence := event.sequence
      lastSequence := event.sequence }
  match event.payload with
  | .assistantTextDelta text => some (delta false text)
  | .assistantReasoningDelta text => some (delta true text)
  | _ => none

/-- Whether two deltas belong to one batch. -/
def CoalescedDelta.matches (left right : CoalescedDelta) : Bool :=
  left.sessionId = right.sessionId ∧ left.threadId = right.threadId ∧
    left.turnId = right.turnId ∧ left.operationId = right.operationId ∧
    left.reasoning = right.reasoning

/-- One delta after the other. -/
def CoalescedDelta.join (left right : CoalescedDelta) : CoalescedDelta :=
  { left with
    text := left.text ++ right.text
    lastSequence := right.lastSequence
    lastTimestamp := right.lastTimestamp }

/-- The batcher: the guard of the stream and the delta that waits. -/
structure DeltaBatcher where
  guard : EventStreamGuard
  pending : Option CoalescedDelta
  deriving DecidableEq, Repr

namespace DeltaBatcher

/-- A batcher of a new connection. -/
def initial : DeltaBatcher := ⟨.initial, none⟩

/-- Emit what waits. -/
def flush (b : DeltaBatcher) : DeltaBatcher × List BatchedEvent :=
  ({ b with pending := none }, b.pending.toList.map .delta)

/-- Accept an event; a fault of the guard emits nothing. -/
def accept (b : DeltaBatcher) (event : EventEnvelope) : DeltaBatcher × List BatchedEvent :=
  let guard := b.guard.acceptNumbered event.sessionId event.sequence
  if guard.fault.isSome then ({ b with guard }, [])
  else
    match event.projectDelta with
    | none => (⟨guard, none⟩, b.flush.2 ++ [.event event])
    | some delta =>
        match b.pending with
        | some pending =>
            if pending.matches delta ∧
                pending.text.length + delta.text.length ≤ maxBatchCharacters then
              (⟨guard, some (pending.join delta)⟩, [])
            else (⟨guard, some delta⟩, b.flush.2)
        | none => (⟨guard, some delta⟩, [])

/-- Emit what waits and accept nothing more. -/
def close (b : DeltaBatcher) : DeltaBatcher × List BatchedEvent :=
  (⟨b.guard.close, none⟩, b.flush.2)

end DeltaBatcher

/-- The Surface state and the Thread generations in which Operations started. -/
structure Dispatcher where
  state : SurfaceState
  operationGenerations : Dict String Nat

namespace Dispatcher

/-- The generation of an Operation; what is not known to have started counts as current. -/
def generationOf (d : Dispatcher) (operationId : Option String) : Nat :=
  (operationId.bind d.operationGenerations.get?).getD d.state.threadGeneration

/-- The generation of what is emitted; the start of an Operation takes the current one. -/
def eventGeneration (d : Dispatcher) (value : BatchedEvent) : Nat × Dict String Nat :=
  match value with
  | .event event =>
      if event.payload = .operationStarted then
        (d.state.threadGeneration,
          match event.operationId with
          | some operationId => d.operationGenerations.set operationId d.state.threadGeneration
          | none => d.operationGenerations)
      else (d.generationOf event.operationId, d.operationGenerations)
  | .delta delta => (d.generationOf delta.operationId, d.operationGenerations)

/-- Dispatch what the batcher emits. -/
def dispatchBatched (parse : DateParse) (d : Dispatcher) (value : BatchedEvent) : Dispatcher :=
  let (generation, generations) := d.eventGeneration value
  ⟨receive parse d.state value generation, generations⟩

/-- Dispatch several values, one after the other. -/
def dispatchAll (parse : DateParse) (d : Dispatcher) (values : List BatchedEvent) : Dispatcher :=
  values.foldl (dispatchBatched parse) d

end Dispatcher

/-- A step of the batcher: an event arrives, or the timer fires. -/
inductive BatchStep
  | accept (event : EventEnvelope)
  | tick
  deriving DecidableEq

namespace DeltaBatcher

/-- One step and what it emits. -/
def step (b : DeltaBatcher) : BatchStep → DeltaBatcher × List BatchedEvent
  | .accept event => b.accept event
  | .tick => b.flush

/-- A schedule of steps and what they emit. -/
def run (b : DeltaBatcher) : List BatchStep → DeltaBatcher × List BatchedEvent
  | [] => (b, [])
  | s :: rest =>
      let next := (b.step s).1.run rest
      (next.1, (b.step s).2 ++ next.2)

/-- The events of a schedule that the guard accepts. -/
def accepted (b : DeltaBatcher) : List BatchStep → List EventEnvelope
  | [] => []
  | s :: rest =>
      let next := (b.step s).1
      match s with
      | .accept event =>
          (if next.guard.fault.isSome then [] else [event]) ++ next.accepted rest
      | .tick => next.accepted rest

end DeltaBatcher

/-- An event as it would be dispatched without a batcher. -/
def EventEnvelope.alone (event : EventEnvelope) : BatchedEvent :=
  match event.projectDelta with
  | some delta => .delta delta
  | none => .event event

end AwesomeAgent.Surface
