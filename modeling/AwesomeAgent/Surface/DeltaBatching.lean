import AwesomeAgent.Surface.DeltaBatcher
import AwesomeAgent.Surface.Frames

/-!
# Batching cannot be seen

What the batcher emits for a stream is the stream with some adjacent deltas joined. Two
deltas of one batch change the Surface state like the joined delta: reasoning keeps the
same tail, and an answer closes the same interval and grows the same segment. Every
schedule of the timer therefore ends in the state of a stream without a batcher.
-/

namespace AwesomeAgent.Surface

variable {parse : DateParse}

private theorem surrogatePair_overlap (u v w : UInt16) (h : surrogatePair u v = true) :
    surrogatePair v w = false := by
  simp only [surrogatePair, JsonText.isLow, JsonText.isHigh, Bool.and_eq_true, decide_eq_true_eq,
    Bool.and_eq_false_iff, decide_eq_false_iff_not] at h ⊢
  omega

private theorem length_reasoningOmittedMarker : reasoningOmittedMarker.length = 43 := by decide

private theorem appendReasoningTail_eq (current delta : Text) :
    appendReasoningTail current delta =
      BoundedTail.keep surrogatePair maxReasoningUnits reasoningOmittedMarker
        (current ++ delta) := by
  have hmarker : reasoningOmittedMarker.length < maxReasoningUnits := by
    rw [length_reasoningOmittedMarker]
    decide
  unfold appendReasoningTail
  cases h : reasoningOmittedMarker.isPrefixOf current with
  | false => simp [BoundedTail.keep]
  | true =>
    obtain ⟨tail, rfl⟩ := List.isPrefixOf_iff_prefix.mp h
    rw [List.append_assoc, BoundedTail.keep_marker_append hmarker]
    simp only [Bool.not_true, Bool.false_and, Bool.false_eq_true, if_false, if_true,
      List.drop_left]
    refine congrArg _ ?_
    split
    · next hle =>
      rw [Nat.sub_eq_zero_of_le hle]
      rfl
    · rfl

private theorem appendReasoningTail_append (current a b : Text) :
    appendReasoningTail (appendReasoningTail current a) b =
      appendReasoningTail current (a ++ b) := by
  have hmarker : reasoningOmittedMarker.length < maxReasoningUnits := by
    rw [length_reasoningOmittedMarker]
    decide
  simp only [appendReasoningTail_eq]
  rw [BoundedTail.keep_append surrogatePair_overlap hmarker, List.append_assoc]

namespace TimelineProjection

/-- Reasoning does not close an interval. -/
@[simp] theorem isOpen_appendReasoning (text : Text) (item : TimelineProjection) :
    (item.appendReasoning text).isOpen = item.isOpen := by
  cases item with
  | thinking t => cases h : t.durationMs <;> simp [appendReasoning, isOpen, h]
  | tool t => rfl
  | assistant t => rfl

private theorem appendReasoning_append (a b : Text) (item : TimelineProjection) :
    (item.appendReasoning a).appendReasoning b = item.appendReasoning (a ++ b) := by
  cases item with
  | thinking t =>
    cases h : t.durationMs <;> simp [appendReasoning, h, appendReasoningTail_append]
  | tool t => rfl
  | assistant t => rfl

private theorem appendReasoning_of_not_open {item : TimelineProjection} (h : item.isOpen = false)
    (text : Text) : item.appendReasoning text = item := by
  cases item with
  | thinking t =>
    simp only [isOpen] at h
    simp [appendReasoning, h]
  | tool t => rfl
  | assistant t => rfl

private theorem isOpen_close (endedAt : String) (item : TimelineProjection) :
    (item.close parse endedAt).isOpen = false := by
  cases item <;> rfl

private theorem isOpen_finishCall (outcome : Outcome) (result : ToolResult)
    (item : TimelineProjection) :
    (item.finishCall outcome result).isOpen = item.isOpen := by
  cases item with
  | thinking t => rfl
  | tool t =>
    simp only [finishCall]
    split <;> rfl
  | assistant t => rfl

end TimelineProjection

/-- Intervals of reasoning that are open. -/
def openIntervals (timeline : List TimelineProjection) : Nat :=
  timeline.countP TimelineProjection.isOpen

private theorem any_isOpen_iff (timeline : List TimelineProjection) :
    timeline.any TimelineProjection.isOpen = true ↔ 0 < openIntervals timeline := by
  rw [openIntervals, List.countP_pos_iff, List.any_eq_true]

private theorem closeThinking_of_closed (endedAt : String) {timeline : List TimelineProjection}
    (h : openIntervals timeline = 0) : closeThinking parse timeline endedAt = timeline := by
  cases timeline with
  | nil => rfl
  | cons item rest =>
    have hall := List.countP_eq_zero.mp h
    have hrest : rest.any TimelineProjection.isOpen = false :=
      List.any_eq_false.mpr fun x hx => hall x (List.mem_cons_of_mem _ hx)
    simp [closeThinking, hrest, hall item List.mem_cons_self]

private theorem openIntervals_closeThinking (endedAt : String) (timeline : List TimelineProjection)
    :
    openIntervals (closeThinking parse timeline endedAt) = openIntervals timeline - 1 := by
  induction timeline with
  | nil => rfl
  | cons item rest ih =>
    unfold closeThinking
    unfold openIntervals at ih ⊢
    split
    · next hany =>
      have hpos := (any_isOpen_iff rest).mp hany
      unfold openIntervals at hpos
      rw [List.countP_cons, List.countP_cons, ih]
      omega
    · next hany =>
      have hzero : List.countP TimelineProjection.isOpen rest = 0 := by
        have hpos := mt (any_isOpen_iff rest).mpr hany
        unfold openIntervals at hpos
        omega
      split
      · next hopen => simp [TimelineProjection.isOpen_close, hopen, hzero]
      · next hopen => simp [hopen, hzero]

private theorem appendAnswer_append (turnId : String) (timeline : List TimelineProjection)
    (a b : Text) :
    appendAnswer turnId (appendAnswer turnId timeline a) b =
      appendAnswer turnId timeline (a ++ b) := by
  unfold appendAnswer
  cases h : timeline.getLast? with
  | none => simp
  | some last => cases last <;> simp [List.append_assoc]

private theorem openIntervals_append (xs ys : List TimelineProjection) :
    openIntervals (xs ++ ys) = openIntervals xs + openIntervals ys := List.countP_append

private theorem openIntervals_appendAnswer (turnId : String) (timeline : List TimelineProjection)
    (text : Text) :
    openIntervals (appendAnswer turnId timeline text) = openIntervals timeline := by
  unfold appendAnswer
  split
  · next last h =>
    obtain ⟨front, rfl⟩ := List.getLast?_eq_some_iff.mp h
    rw [List.dropLast_concat, openIntervals_append, openIntervals_append]
    rfl
  · rw [openIntervals_append]
    rfl

private theorem projectReasoning_join (turn : TurnProjection) (p d : CoalescedDelta) :
    projectReasoning (projectReasoning turn p) d = projectReasoning turn (p.join d) := by
  unfold projectReasoning
  cases hopen : turn.timeline.any TimelineProjection.isOpen with
  | true =>
    have hstill : (turn.timeline.map (TimelineProjection.appendReasoning p.text)).any
        TimelineProjection.isOpen = true := by
      rw [List.any_map]
      simpa only [Function.comp_def, TimelineProjection.isOpen_appendReasoning] using hopen
    simp only [if_true, hstill, List.map_map, Function.comp_def,
      TimelineProjection.appendReasoning_append, CoalescedDelta.join]
  | false =>
    have hsame : turn.timeline.map (TimelineProjection.appendReasoning d.text) =
        turn.timeline := by
      refine (List.map_congr_left fun item hitem => ?_).trans (List.map_id _)
      exact TimelineProjection.appendReasoning_of_not_open
        (by simpa using List.any_eq_false.mp hopen item hitem) _
    simp [TimelineProjection.isOpen, TimelineProjection.appendReasoning, hsame,
      CoalescedDelta.join, appendReasoningTail_append]

variable {turn : TurnProjection} {s : SurfaceState} {g : EventStreamGuard}

private theorem projectDelta_join (hcalm : openIntervals turn.timeline ≤ 1)
    {p d : CoalescedDelta} (hkind : p.reasoning = d.reasoning) :
    projectDelta parse (projectDelta parse turn p) d = projectDelta parse turn (p.join d) := by
  have hjoin : (p.join d).reasoning = p.reasoning := rfl
  cases hp : p.reasoning with
  | true => simp only [projectDelta, ← hkind, hp, hjoin, if_true, projectReasoning_join]
  | false =>
    have hclosed : openIntervals (appendAnswer turn.id
        (closeThinking parse turn.timeline p.firstTimestamp) p.text) = 0 := by
      rw [openIntervals_appendAnswer, openIntervals_closeThinking]
      omega
    simp only [projectDelta, ← hkind, hp, hjoin, Bool.false_eq_true, if_false]
    rw [closeThinking_of_closed d.firstTimestamp hclosed, appendAnswer_append]
    rfl

/-- At most one interval of the live Turn is open. -/
def SurfaceState.Calm (state : SurfaceState) : Prop :=
  ∀ turn ∈ state.turn, openIntervals turn.timeline ≤ 1

namespace SurfaceState.Calm

private theorem of_turn_eq {s t : SurfaceState} (h : s.Calm) (ht : t.turn = s.turn) : t.Calm :=
  fun turn hturn => h turn (ht ▸ hturn)

private theorem of_activeOperation_eq {s t : SurfaceState} (h : s.Calm)
    (ht : t.activeOperation = s.activeOperation) : t.Calm :=
  h.of_turn_eq (by rw [SurfaceState.turn, ht, SurfaceState.turn])

private theorem of_no_turn {s : SurfaceState} (h : s.turn = none) : s.Calm :=
  fun turn hturn => by simp [h] at hturn

private theorem updateTurn {s : SurfaceState} (h : s.Calm)
    {update : TurnProjection → TurnProjection}
    (hupdate : ∀ turn, openIntervals turn.timeline ≤ 1 →
      openIntervals (update turn).timeline ≤ 1) : (updateTurn s update).Calm := by
  unfold Surface.updateTurn
  split
  · next operation hoperation =>
    split
    · next turn hturn =>
      intro updated hupdated
      obtain rfl : update turn = updated := by simpa [SurfaceState.turn] using hupdated
      exact hupdate turn (h turn (by simp [SurfaceState.turn, hoperation, hturn]))
    · exact h.of_activeOperation_eq rfl
  · exact h.of_activeOperation_eq rfl

end SurfaceState.Calm

private theorem openIntervals_projectDelta (delta : CoalescedDelta)
    (h : openIntervals turn.timeline ≤ 1) :
    openIntervals (projectDelta parse turn delta).timeline ≤ 1 := by
  unfold projectDelta
  split
  · unfold projectReasoning
    split
    · have hsame : openIntervals
          (turn.timeline.map (TimelineProjection.appendReasoning delta.text)) =
            openIntervals turn.timeline := by
        unfold openIntervals
        rw [List.countP_map]
        exact List.countP_congr fun item _ => by simp
      simpa only [hsame] using h
    · next hany =>
      have hzero := mt (any_isOpen_iff turn.timeline).mpr hany
      rw [openIntervals_append]
      simp only [openIntervals, List.countP_singleton] at hzero ⊢
      split <;> omega
  · rw [openIntervals_appendAnswer, openIntervals_closeThinking]
    omega

/-- An event of the Thread keeps its state calm. -/
theorem SurfaceState.Calm.reduceEvent {s : SurfaceState} (h : s.Calm) (event : EventEnvelope) :
    (reduceEvent parse s event).Calm := by
  have hnumbered : ({ s with eventSequence := event.sequence } : SurfaceState).Calm :=
    h.of_activeOperation_eq rfl
  unfold Surface.reduceEvent
  cases event.payload with
  | operationStarted =>
    dsimp only
    split
    · exact h.of_activeOperation_eq rfl
    · exact .of_no_turn rfl
  | operationTerminal outcome =>
    dsimp only
    split
    · next operation hoperation =>
      split
      · exact h.of_turn_eq (by simp [SurfaceState.turn, hoperation])
      · exact h.of_activeOperation_eq rfl
    · exact h.of_activeOperation_eq rfl
  | turnStarted =>
    dsimp only
    split
    · split
      · intro turn hturn
        simp only [SurfaceState.turn, Option.bind_some, Option.mem_some_iff] at hturn
        subst hturn
        exact Nat.zero_le 1
      · exact h.of_activeOperation_eq rfl
    · exact h.of_activeOperation_eq rfl
  | turnTerminal outcome durationMs =>
    dsimp only
    split
    · split
      · refine hnumbered.updateTurn fun turn hturn => ?_
        rw [openIntervals_closeThinking]
        omega
      · exact h.of_activeOperation_eq rfl
    · exact h.of_activeOperation_eq rfl
  | toolStarted callId toolName verb target =>
    dsimp only
    split
    · split
      · exact h.of_activeOperation_eq rfl
      · refine hnumbered.updateTurn fun turn hturn => ?_
        rw [openIntervals_append, openIntervals_closeThinking]
        simp only [openIntervals, List.countP_singleton, TimelineProjection.isOpen,
          Bool.false_eq_true, if_false] at hturn ⊢
        omega
    · exact h.of_activeOperation_eq rfl
  | toolTerminal outcome result =>
    dsimp only
    split
    · refine hnumbered.updateTurn fun turn hturn => ?_
      unfold openIntervals at hturn ⊢
      rw [List.countP_map]
      simpa only [Function.comp_def, TimelineProjection.isOpen_finishCall] using hturn
    · exact h.of_activeOperation_eq rfl
  | interactionResolved interactionId =>
    dsimp only
    split <;> exact h.of_activeOperation_eq rfl
  | usageUpdated usage => exact h.of_activeOperation_eq rfl
  | interactionRequired request => exact h.of_activeOperation_eq rfl
  | warning code message => exact h.of_activeOperation_eq rfl
  | _ => exact h.of_activeOperation_eq rfl

private theorem SurfaceState.Calm.reduceDelta {s : SurfaceState} (h : s.Calm)
    (delta : CoalescedDelta) :
    (reduceDelta parse s delta).Calm := by
  have hnumbered : ({ s with eventSequence := delta.lastSequence } : SurfaceState).Calm :=
    h.of_activeOperation_eq rfl
  unfold Surface.reduceDelta
  split
  · split
    · exact hnumbered.updateTurn fun turn hturn => openIntervals_projectDelta delta hturn
    · exact h.of_activeOperation_eq rfl
  · exact h.of_activeOperation_eq rfl

private theorem SurfaceState.Calm.receive {s : SurfaceState} (h : s.Calm) (value : BatchedEvent)
    (generation : Nat) : (receive parse s value generation).Calm := by
  cases value with
  | event event =>
    simp only [Surface.receive]
    split
    · exact h.reduceEvent event
    · exact h.of_activeOperation_eq rfl
  | delta delta =>
    simp only [Surface.receive]
    split
    · exact h.reduceDelta delta
    · exact h.of_activeOperation_eq rfl

/-- The state after the live Turn took a delta. -/
private def taken (parse : DateParse) (s : SurfaceState) (operation : OperationProjection)
    (turn : TurnProjection) (delta : CoalescedDelta) : SurfaceState :=
  { s with
    eventSequence := delta.lastSequence
    activeOperation := some { operation with turn := some (projectDelta parse turn delta) } }

private theorem reduceDelta_of_valid {delta : CoalescedDelta} {operation : OperationProjection}
    (hoperation : s.activeOperation = some operation) (hturn : operation.turn = some turn)
    (h : operation.status = .active ∧ some operation.id = delta.operationId ∧
      turn.status = .active ∧ some turn.id = delta.turnId) :
    reduceDelta parse s delta = taken parse s operation turn delta := by
  simp [reduceDelta, updateTurn, hoperation, hturn, h, taken]

/-- Two deltas of one batch change the state of their Thread like the joined delta. -/
theorem reduceDelta_join (hcalm : s.Calm) {p d : CoalescedDelta} (hmatch : p.matches d = true) :
    reduceDelta parse (reduceDelta parse s p) d = reduceDelta parse s (p.join d) := by
  obtain ⟨-, -, hturnId, hoperationId, hkind⟩ := of_decide_eq_true hmatch
  cases hoperation : s.activeOperation with
  | none => simp [reduceDelta, hoperation, fatal]
  | some operation =>
    by_cases hvalid : operation.status = .active ∧ some operation.id = p.operationId ∧
        operation.turn.any (fun turn => turn.status = .active ∧ some turn.id = p.turnId) = true
    · obtain ⟨hactive, hid, hany⟩ := hvalid
      obtain ⟨turn, hturn, hok⟩ := (Option.any_eq_true _ _).mp hany
      obtain ⟨hstatus, hturnIds⟩ := of_decide_eq_true hok
      have hkept : (projectDelta parse turn p).status = turn.status ∧
          (projectDelta parse turn p).id = turn.id := by
        unfold projectDelta projectReasoning
        split
        · split <;> exact ⟨rfl, rfl⟩
        · exact ⟨rfl, rfl⟩
      have hopen := hcalm turn (by simp [SurfaceState.turn, hoperation, hturn])
      have hfirst : reduceDelta parse s p = taken parse s operation turn p :=
        reduceDelta_of_valid hoperation hturn ⟨hactive, hid, hstatus, hturnIds⟩
      have hsecond : reduceDelta parse (taken parse s operation turn p) d =
          taken parse (taken parse s operation turn p)
            { operation with turn := some (projectDelta parse turn p) }
            (projectDelta parse turn p) d :=
        reduceDelta_of_valid rfl rfl
          ⟨hactive, hoperationId ▸ hid, hkept.1 ▸ hstatus, hkept.2 ▸ hturnId ▸ hturnIds⟩
      have hjoined : reduceDelta parse s (p.join d) = taken parse s operation turn (p.join d) :=
        reduceDelta_of_valid hoperation hturn ⟨hactive, hid, hstatus, hturnIds⟩
      rw [hfirst, hsecond, hjoined, taken, projectDelta_join hopen hkind]
      rfl
    · have hsecond := hvalid
      rw [hoperationId, hturnId] at hsecond
      have hp : reduceDelta parse s p = fatal s "delta_identity_invalid"
          "Delta identity has no active Turn" := by
        simp only [reduceDelta, hoperation]
        exact if_neg hvalid
      have hjoined : reduceDelta parse s (p.join d) = fatal s "delta_identity_invalid"
          "Delta identity has no active Turn" := by
        simp only [reduceDelta, hoperation]
        exact if_neg hvalid
      rw [hp, hjoined]
      simp only [reduceDelta, fatal, hoperation]
      exact if_neg hsecond

namespace Dispatcher

private theorem dispatchBatched_join {s : Dispatcher} (hcalm : s.state.Calm) {p d : CoalescedDelta}
    (hmatch : p.matches d = true) (hseq : p.lastSequence ≤ d.lastSequence) :
    (s.dispatchBatched parse (.delta p)).dispatchBatched parse (.delta d) =
      s.dispatchBatched parse (.delta (p.join d)) := by
  have hoperationId : p.operationId = d.operationId := (of_decide_eq_true hmatch).2.2.2.1
  have hsame (t : SurfaceState) (ht : t.threadGeneration = s.state.threadGeneration) :
      Dispatcher.generationOf ⟨t, s.operationGenerations⟩ d.operationId =
        s.generationOf p.operationId := by
    rw [generationOf, generationOf, ht, hoperationId]
  have hjoined : (p.join d).operationId = p.operationId := rfl
  simp only [dispatchBatched, eventGeneration, hjoined]
  rw [hsame _ (sameThread_receive _ _ _).threadGeneration]
  generalize s.generationOf p.operationId = generation
  have hstate : receive parse (receive parse s.state (.delta p) generation) (.delta d)
      generation = receive parse s.state (.delta (p.join d)) generation := by
    by_cases hg : generation = s.state.threadGeneration
    · have hkept : (reduceDelta parse s.state p).threadGeneration = s.state.threadGeneration :=
        (sameThread_reduceDelta s.state p).threadGeneration
      simp only [receive, hg, if_true, hkept]
      exact reduceDelta_join hcalm hmatch
    · simp only [receive, hg, if_false]
      simp only [CoalescedDelta.join, Nat.max_assoc, Nat.max_eq_right hseq]
  rw [hstate]

private theorem calm_dispatchAll {d : Dispatcher} (h : d.state.Calm) (values : List BatchedEvent) :
    (d.dispatchAll parse values).state.Calm := by
  induction values generalizing d with
  | nil => exact h
  | cons value rest ih => exact ih (h.receive value _)

private theorem dispatchAll_append (d : Dispatcher) (xs ys : List BatchedEvent) :
    d.dispatchAll parse (xs ++ ys) = (d.dispatchAll parse xs).dispatchAll parse ys :=
  List.foldl_append

end Dispatcher

/-- Values that are a stream of events in which some adjacent deltas are joined. -/
inductive Coalesces : List EventEnvelope → List BatchedEvent → Prop
  | nil : Coalesces [] []
  | alone {events : List EventEnvelope} {values : List BatchedEvent} (event : EventEnvelope) :
      Coalesces events values → Coalesces (events ++ [event]) (values ++ [event.alone])
  | join {events : List EventEnvelope} {values : List BatchedEvent} {p d : CoalescedDelta}
      (event : EventEnvelope) : Coalesces events (values ++ [.delta p]) →
      event.projectDelta = some d → p.matches d = true → d.firstSequence = p.lastSequence + 1 →
      Coalesces (events ++ [event]) (values ++ [.delta (p.join d)])

private theorem EventEnvelope.lastSequence_projectDelta {event : EventEnvelope} {d : CoalescedDelta}
    (h : event.projectDelta = some d) :
    d.firstSequence = event.sequence ∧ d.lastSequence = event.sequence := by
  unfold EventEnvelope.projectDelta at h
  dsimp only at h
  split at h
  · exact Option.some.inj h ▸ ⟨rfl, rfl⟩
  · exact Option.some.inj h ▸ ⟨rfl, rfl⟩
  · cases h

private theorem Coalesces.dispatchAll_eq {events : List EventEnvelope} {values : List BatchedEvent}
    (h : Coalesces events values) {d : Dispatcher} (hcalm : d.state.Calm) :
    d.dispatchAll parse values = d.dispatchAll parse (events.map EventEnvelope.alone) := by
  induction h with
  | nil => rfl
  | alone event _ ih =>
    rw [List.map_append, Dispatcher.dispatchAll_append, Dispatcher.dispatchAll_append, ih]
    rfl
  | @join events values p delta event _ hd hm hseq ih =>
    obtain ⟨hfirst, hlast⟩ := EventEnvelope.lastSequence_projectDelta hd
    have halone : event.alone = .delta delta := by simp [EventEnvelope.alone, hd]
    rw [List.map_append, Dispatcher.dispatchAll_append, Dispatcher.dispatchAll_append, ← ih,
      Dispatcher.dispatchAll_append, List.map_singleton, halone]
    exact (Dispatcher.dispatchBatched_join (Dispatcher.calm_dispatchAll hcalm values) hm
      (by omega)).symm

private theorem acceptNumbered_of_no_fault {session : String} {sequence : Nat}
    (h : (g.acceptNumbered session sequence).fault.isSome = false) :
    (g.acceptNumbered session sequence).lastSequence = sequence ∧
      (g.acceptNumbered session sequence).sessionId.isSome = true ∧
      (g.sessionId.isSome = true → sequence = g.lastSequence + 1) := by
  revert h
  unfold EventStreamGuard.acceptNumbered
  split
  · next hfault => simp [hfault]
  · split
    · simp [EventStreamGuard.fail]
    · cases hsession : g.sessionId with
      | none =>
        dsimp only
        split
        · simp [EventStreamGuard.fail]
        · next hone => simp_all
      | some sessionId =>
        dsimp only
        split
        · simp [EventStreamGuard.fail]
        · split
          · simp [EventStreamGuard.fail]
          · next hnext => simp_all

private theorem acceptNumbered_of_fault {session : String} {sequence : Nat}
    (h : (g.acceptNumbered session sequence).fault.isSome = true) :
    (g.acceptNumbered session sequence).lastSequence = g.lastSequence ∧
      (g.acceptNumbered session sequence).sessionId = g.sessionId := by
  revert h
  unfold EventStreamGuard.acceptNumbered
  split
  · exact fun _ => ⟨rfl, rfl⟩
  · next hfault =>
    split
    · exact fun _ => ⟨rfl, rfl⟩
    · cases hsession : g.sessionId with
      | none =>
        dsimp only
        split
        · simp [EventStreamGuard.fail, hsession]
        · simp [hfault]
      | some sessionId =>
        dsimp only
        split
        · simp [EventStreamGuard.fail, hsession]
        · split
          · simp [EventStreamGuard.fail, hsession]
          · simp [hfault]

namespace DeltaBatcher

/-- What was accepted is what was emitted and what waits, and the guard stands at the delta
that waits. -/
structure Batched (b : DeltaBatcher) (events : List EventEnvelope)
    (values : List BatchedEvent) : Prop where
  coalesces : Coalesces events (values ++ b.flush.2)
  numbered : ∀ p ∈ b.pending,
    b.guard.sessionId.isSome = true ∧ b.guard.lastSequence = p.lastSequence

variable {b : DeltaBatcher} {event : EventEnvelope} {events : List EventEnvelope}
  {values : List BatchedEvent}

/-- An event that the guard refuses is dropped. -/
theorem accept_of_fault
    (h : (b.guard.acceptNumbered event.sessionId event.sequence).fault.isSome = true) :
    b.accept event =
      (⟨b.guard.acceptNumbered event.sessionId event.sequence, b.pending⟩, []) := by
  simp [DeltaBatcher.accept, h]

/-- What an accepted event emits, and what waits after it. -/
theorem accept_of_no_fault
    (h : (b.guard.acceptNumbered event.sessionId event.sequence).fault.isSome = false) :
    (event.projectDelta = none ∧ b.accept event =
      (⟨b.guard.acceptNumbered event.sessionId event.sequence, none⟩,
        b.flush.2 ++ [.event event])) ∨
    (∃ delta, event.projectDelta = some delta ∧
      ((b.accept event =
        (⟨b.guard.acceptNumbered event.sessionId event.sequence, some delta⟩, b.flush.2)) ∨
      ∃ pending, b.pending = some pending ∧ pending.matches delta = true ∧ b.accept event =
        (⟨b.guard.acceptNumbered event.sessionId event.sequence, some (pending.join delta)⟩,
          []))) := by
  cases hdelta : event.projectDelta with
  | none => exact .inl ⟨rfl, by simp [DeltaBatcher.accept, h, hdelta]⟩
  | some delta =>
    refine .inr ⟨delta, rfl, ?_⟩
    cases hpending : b.pending with
    | none => exact .inl (by simp [DeltaBatcher.accept, h, hdelta, hpending, flush])
    | some pending =>
      by_cases hjoin : pending.matches delta ∧
          pending.text.length + delta.text.length ≤ maxBatchCharacters
      · refine .inr ⟨pending, rfl, hjoin.1, ?_⟩
        simp [DeltaBatcher.accept, h, hdelta, hpending, hjoin]
      · refine .inl ?_
        simp only [DeltaBatcher.accept, h, hdelta, hpending, Bool.false_eq_true, if_false]
        exact if_neg hjoin

/-- The guard sees every event. -/
theorem guard_accept (b : DeltaBatcher) (event : EventEnvelope) :
    (b.accept event).1.guard = b.guard.acceptNumbered event.sessionId event.sequence := by
  cases h : (b.guard.acceptNumbered event.sessionId event.sequence).fault.isSome with
  | true => rw [accept_of_fault h]
  | false =>
    rcases accept_of_no_fault h with ⟨-, he⟩ | ⟨delta, -, he | ⟨pending, -, -, he⟩⟩ <;> rw [he]

/-- An accepted event is batched. -/
theorem Batched.accept (h : b.Batched events values) (event : EventEnvelope) :
    (b.accept event).1.Batched
      (events ++ if (b.accept event).1.guard.fault.isSome then [] else [event])
      (values ++ (b.accept event).2) := by
  cases hfault : (b.guard.acceptNumbered event.sessionId event.sequence).fault.isSome with
  | true =>
    obtain ⟨hlast, hsession⟩ := acceptNumbered_of_fault hfault
    rw [accept_of_fault hfault]
    refine ⟨by simpa [hfault, flush] using h.coalesces, fun p hp => ?_⟩
    rw [hlast, hsession]
    exact h.numbered p hp
  | false =>
    obtain ⟨hlast, hsession, hgap⟩ := acceptNumbered_of_no_fault hfault
    have hsplit := h.coalesces.alone event
    rcases accept_of_no_fault hfault with
      ⟨hdelta, haccept⟩ | ⟨delta, hdelta, haccept | ⟨pending, hpending, hmatch, haccept⟩⟩
    · rw [haccept]
      rw [EventEnvelope.alone, hdelta] at hsplit
      exact ⟨by simpa [hfault, flush] using hsplit, nofun⟩
    · obtain ⟨-, hlastSeq⟩ := EventEnvelope.lastSequence_projectDelta hdelta
      rw [EventEnvelope.alone, hdelta] at hsplit
      rw [haccept]
      refine ⟨by simpa [hfault, flush] using hsplit, fun p hp => ?_⟩
      obtain rfl := Option.some.inj hp
      exact ⟨hsession, by rw [hlast, hlastSeq]⟩
    · obtain ⟨hfirstSeq, hlastSeq⟩ := EventEnvelope.lastSequence_projectDelta hdelta
      obtain ⟨hsome, hat⟩ := h.numbered pending hpending
      have hwaits : Coalesces events (values ++ [.delta pending]) := by
        simpa [flush, hpending] using h.coalesces
      have hjoin := hwaits.join event hdelta hmatch (by rw [hfirstSeq, hgap hsome, hat])
      rw [haccept]
      refine ⟨by simpa [hfault, flush] using hjoin, fun p hp => ?_⟩
      obtain rfl := Option.some.inj hp
      exact ⟨hsession, by rw [hlast]; exact hlastSeq.symm⟩

/-- A flush hands over what was pending. -/
theorem Batched.flush (h : b.Batched events values) :
    b.flush.1.Batched events (values ++ b.flush.2) :=
  ⟨by simpa [DeltaBatcher.flush] using h.coalesces, by simp [DeltaBatcher.flush]⟩

/-- A close hands over what was pending. -/
theorem Batched.close (h : b.Batched events values) :
    b.close.1.Batched events (values ++ b.close.2) :=
  ⟨by simpa [DeltaBatcher.close, DeltaBatcher.flush] using h.coalesces,
    by simp [DeltaBatcher.close]⟩

private theorem Batched.run {b : DeltaBatcher} {events : List EventEnvelope}
    {values : List BatchedEvent}
    (h : b.Batched events values) (steps : List BatchStep) :
    (b.run steps).1.Batched (events ++ b.accepted steps) (values ++ (b.run steps).2) := by
  induction steps generalizing b events values with
  | nil => simpa [DeltaBatcher.run, accepted] using h
  | cons s rest ih =>
    cases s with
    | accept event =>
      have hrest := ih (h.accept event)
      simp only [List.append_assoc] at hrest
      exact hrest
    | tick =>
      have hrest := ih h.flush
      simpa [DeltaBatcher.run, accepted, step, List.append_assoc] using hrest

end DeltaBatcher

/-- The states that actions reach from a new connection. -/
inductive SurfaceState.Reachable (parse : DateParse) : SurfaceState → Prop
  | initial : Reachable parse initialSurfaceState
  | next {s t : SurfaceState} {action : SurfaceAction} : Reachable parse s →
      surfaceReducer parse s action = .ok t → Reachable parse t

private theorem SurfaceState.Calm.surfaceReducer {s t : SurfaceState} (h : s.Calm)
    {action : SurfaceAction} (ht : surfaceReducer parse s action = .ok t) : t.Calm := by
  rcases surfaceReducer_keeps ht with
    ⟨value, generation, rfl⟩ | ⟨application, thread, transcript, rfl⟩ | rfl |
      ⟨-, hsame | hnone⟩
  · exact Except.ok.inj ht ▸ h.receive value generation
  · exact Except.ok.inj ht ▸ .of_no_turn rfl
  · exact Except.ok.inj ht ▸ .of_no_turn rfl
  · exact h.of_activeOperation_eq hsame
  · exact .of_no_turn (by rw [SurfaceState.turn, hnone]; rfl)

private theorem SurfaceState.Reachable.calm (h : s.Reachable parse) : s.Calm := by
  induction h with
  | initial => exact .of_no_turn rfl
  | next _ ht ih => exact ih.surfaceReducer ht

/-- For every schedule of the timer, what the batcher emits is the accepted stream with some
adjacent deltas joined, and it leads to the state of the stream without a batcher. -/
theorem delta_batching_is_invisible (parse : DateParse) {start : SurfaceState}
    (hstart : start.Reachable parse) (generations : Dict String Nat) (guard : EventStreamGuard)
    (steps : List BatchStep) :
    let batcher : DeltaBatcher := ⟨guard, none⟩
    let events := batcher.accepted steps
    let values := (batcher.run steps).2 ++ (batcher.run steps).1.flush.2
    Coalesces events values ∧
      Dispatcher.dispatchAll parse ⟨start, generations⟩ values =
        Dispatcher.dispatchAll parse ⟨start, generations⟩ (events.map EventEnvelope.alone) := by
  intro batcher events values
  have hempty : batcher.Batched [] [] := ⟨.nil, nofun⟩
  have hcoalesces : Coalesces events values := by
    simpa only [List.nil_append] using (hempty.run steps).coalesces
  exact ⟨hcoalesces, hcoalesces.dispatchAll_eq hstart.calm⟩

/-- An event of one Turn of one Operation. -/
def sampleEvent (sequence : Nat) (payload : EventPayload) : EventEnvelope where
  sequence := sequence
  sessionId := "session_1"
  threadId := some "thread_1"
  turnId := some "turn_1"
  operationId := some "operation_1"
  clientMessageId := none
  timestamp := "2026-07-11T08:00:00Z"
  payload := payload
  identified := by cases payload <;> rfl
  nonempty := by decide

/-- Deltas that meet inside a surrogate pair, the second of which is refused a place in the
stream when it comes again. -/
def splitPairSteps : List BatchStep :=
  [.accept (sampleEvent 1 .operationStarted), .accept (sampleEvent 2 .turnStarted),
    .accept (sampleEvent 3 (.assistantReasoningDelta [0xd83d])),
    .accept (sampleEvent 4 (.assistantReasoningDelta [0xde00])), .tick,
    .accept (sampleEvent 5 (.assistantTextDelta [0x61])),
    .accept (sampleEvent 5 (.assistantTextDelta [0x62]))]

/-- Both halves of a pair leave in one delta and the state is that of two deltas. -/
theorem delta_batching_is_invisible_split_pair :
    (DeltaBatcher.initial.run splitPairSteps).2.length = 3 ∧
      DeltaBatcher.initial.accepted splitPairSteps =
        [sampleEvent 1 .operationStarted, sampleEvent 2 .turnStarted,
          sampleEvent 3 (.assistantReasoningDelta [0xd83d]),
          sampleEvent 4 (.assistantReasoningDelta [0xde00]),
          sampleEvent 5 (.assistantTextDelta [0x61])] ∧
      Dispatcher.dispatchAll (fun _ => 0) ⟨initialSurfaceState, .empty⟩
          ((DeltaBatcher.initial.run splitPairSteps).2 ++
            (DeltaBatcher.initial.run splitPairSteps).1.flush.2) =
        Dispatcher.dispatchAll (fun _ => 0) ⟨initialSurfaceState, .empty⟩
          ((DeltaBatcher.initial.accepted splitPairSteps).map EventEnvelope.alone) :=
  ⟨by decide, by decide,
    (delta_batching_is_invisible (fun _ => 0) .initial .empty .initial splitPairSteps).2⟩

end AwesomeAgent.Surface
