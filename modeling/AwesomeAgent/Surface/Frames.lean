import AwesomeAgent.Surface.Reducer

/-!
# What events leave alone

An event or a delta changes neither the Thread and its generation nor the committed
transcript, and an event sets the sequence number without reading it.
-/

namespace AwesomeAgent.Surface

variable {parse : DateParse}

/-- Two states of one Thread with one committed transcript. -/
structure SurfaceState.SameThread (s t : SurfaceState) : Prop where
  threadGeneration : t.threadGeneration = s.threadGeneration
  application : t.application = s.application
  thread : t.thread = s.thread
  committedTranscript : t.committedTranscript = s.committedTranscript

private theorem SurfaceState.SameThread.updateTurn {s t : SurfaceState} (h : s.SameThread t)
    (update : TurnProjection → TurnProjection) : s.SameThread (updateTurn t update) := by
  unfold Surface.updateTurn
  split
  · split <;> exact ⟨h.1, h.2, h.3, h.4⟩
  · exact ⟨h.1, h.2, h.3, h.4⟩

private theorem sameThread_reduceEvent (s : SurfaceState) (event : EventEnvelope) :
    s.SameThread (reduceEvent parse s event) := by
  have hnumbered : s.SameThread { s with eventSequence := event.sequence } :=
    ⟨rfl, rfl, rfl, rfl⟩
  unfold reduceEvent
  cases event.payload with
  | operationStarted => dsimp only; split <;> exact ⟨rfl, rfl, rfl, rfl⟩
  | operationTerminal outcome =>
    dsimp only
    split
    · split <;> exact ⟨rfl, rfl, rfl, rfl⟩
    · exact ⟨rfl, rfl, rfl, rfl⟩
  | turnStarted =>
    dsimp only
    split
    · split <;> exact ⟨rfl, rfl, rfl, rfl⟩
    · exact ⟨rfl, rfl, rfl, rfl⟩
  | turnTerminal outcome durationMs =>
    dsimp only
    split
    · split
      · exact hnumbered.updateTurn _
      · exact ⟨rfl, rfl, rfl, rfl⟩
    · exact ⟨rfl, rfl, rfl, rfl⟩
  | toolStarted callId toolName verb target =>
    dsimp only
    split
    · split
      · exact ⟨rfl, rfl, rfl, rfl⟩
      · exact hnumbered.updateTurn _
    · exact ⟨rfl, rfl, rfl, rfl⟩
  | toolTerminal outcome result =>
    dsimp only
    split
    · exact hnumbered.updateTurn _
    · exact ⟨rfl, rfl, rfl, rfl⟩
  | interactionResolved interactionId => dsimp only; split <;> exact ⟨rfl, rfl, rfl, rfl⟩
  | _ => exact ⟨rfl, rfl, rfl, rfl⟩

/-- A delta keeps the Thread. -/
theorem sameThread_reduceDelta (s : SurfaceState) (delta : CoalescedDelta) :
    s.SameThread (reduceDelta parse s delta) := by
  have hnumbered : s.SameThread { s with eventSequence := delta.lastSequence } :=
    ⟨rfl, rfl, rfl, rfl⟩
  unfold reduceDelta
  split
  · split
    · exact hnumbered.updateTurn _
    · exact ⟨rfl, rfl, rfl, rfl⟩
  · exact ⟨rfl, rfl, rfl, rfl⟩

/-- What the batcher emits leaves the Thread alone. -/
theorem sameThread_receive (s : SurfaceState) (value : BatchedEvent) (generation : Nat) :
    s.SameThread (receive parse s value generation) := by
  cases value with
  | event event =>
    simp only [receive]
    split
    · exact sameThread_reduceEvent s event
    · exact ⟨rfl, rfl, rfl, rfl⟩
  | delta delta =>
    simp only [receive]
    split
    · exact sameThread_reduceDelta s delta
    · exact ⟨rfl, rfl, rfl, rfl⟩

/-- The identity of the live Turn. -/
def SurfaceState.turnId (s : SurfaceState) : Option String := s.turn.map TurnProjection.id

private theorem turnId_updateTurn (s : SurfaceState) {update : TurnProjection → TurnProjection}
    (h : ∀ turn, (update turn).id = turn.id) : (updateTurn s update).turnId = s.turnId := by
  unfold updateTurn
  split
  · next operation hoperation =>
    split
    · next turn hturn =>
      simp [SurfaceState.turnId, SurfaceState.turn, hoperation, hturn, h]
    · rfl
  · rfl

private theorem turnId_reduceDelta (s : SurfaceState) (delta : CoalescedDelta) :
    (reduceDelta parse s delta).turnId = s.turnId := by
  have hproject (turn : TurnProjection) : (projectDelta parse turn delta).id = turn.id := by
    unfold projectDelta projectReasoning
    split
    · split <;> rfl
    · rfl
  unfold reduceDelta
  split
  · split
    · rw [turnId_updateTurn _ hproject]
      rfl
    · rfl
  · rfl

variable {s : SurfaceState}

private theorem turnId_reduceEvent_terminal {event : EventEnvelope}
    {outcome : Outcome} (h : event.payload = .operationTerminal outcome) :
    (reduceEvent parse s event).turnId = s.turnId := by
  simp only [reduceEvent, h]
  split
  · next operation hoperation =>
    split
    · simp [SurfaceState.turnId, SurfaceState.turn, hoperation]
    · rfl
  · rfl

/-- A delta or the end of an Operation leaves the identity of the live Turn. -/
theorem turnId_receive {value : BatchedEvent} (generation : Nat)
    (h : ∀ event, value = .event event → ∃ outcome, event.payload = .operationTerminal outcome) :
    (receive parse s value generation).turnId = s.turnId := by
  cases value with
  | event event =>
    obtain ⟨outcome, houtcome⟩ := h event rfl
    simp only [receive]
    split
    · exact turnId_reduceEvent_terminal houtcome
    · rfl
  | delta delta =>
    simp only [receive]
    split
    · exact turnId_reduceDelta s delta
    · rfl

/-- Committing blocks changes the transcript alone. -/
theorem commitBlocks_eq_ok {t : SurfaceState} {blocks : List TranscriptBlock}
    (h : commitBlocks s blocks = .ok t) :
    ∃ merged, mergeTranscriptBlocks (s.committedTranscript.getD []) blocks = .ok merged ∧
      t = { s with committedTranscript := some merged } := by
  unfold commitBlocks at h
  cases hmerge : mergeTranscriptBlocks (s.committedTranscript.getD []) blocks with
  | error e => simp [hmerge, bind, Except.bind] at h
  | ok merged =>
    refine ⟨merged, rfl, ?_⟩
    simpa [hmerge, bind, Except.bind, pure, Except.pure, eq_comm] using h

/-- An action that is no event and that neither replaces the Thread nor resets the state
keeps the generation and keeps or forgets the live Operation. -/
theorem surfaceReducer_keeps {t : SurfaceState} {action : SurfaceAction}
    (h : surfaceReducer parse s action = .ok t) :
    (∃ value generation, action = .received value generation) ∨
    (∃ application thread transcript, action = .threadReplaced application thread transcript) ∨
    action = .reconnectReset ∨
    (t.threadGeneration = s.threadGeneration ∧
      (t.activeOperation = s.activeOperation ∨ t.activeOperation = none)) := by
  have hsame : ∀ u : SurfaceState, u = t → u.threadGeneration = s.threadGeneration →
      (u.activeOperation = s.activeOperation ∨ u.activeOperation = none) →
      (t.threadGeneration = s.threadGeneration ∧
        (t.activeOperation = s.activeOperation ∨ t.activeOperation = none)) := by
    rintro u rfl hgeneration hoperation
    exact ⟨hgeneration, hoperation⟩
  have hcommit {u : SurfaceState} {blocks : List TranscriptBlock}
      (hc : commitBlocks u blocks = .ok t) (hgeneration : u.threadGeneration = s.threadGeneration)
      (hoperation : u.activeOperation = s.activeOperation ∨ u.activeOperation = none) :
      t.threadGeneration = s.threadGeneration ∧
        (t.activeOperation = s.activeOperation ∨ t.activeOperation = none) := by
    obtain ⟨merged, -, rfl⟩ := commitBlocks_eq_ok hc
    exact ⟨hgeneration, hoperation⟩
  cases action with
  | received value generation => exact .inl ⟨value, generation, rfl⟩
  | threadReplaced application thread transcript =>
    exact .inr (.inl ⟨application, thread, transcript, rfl⟩)
  | reconnectReset => exact .inr (.inr (.inl rfl))
  | threadMetadataUpdated record =>
    refine .inr (.inr (.inr ?_))
    simp only [surfaceReducer] at h
    split at h
    · split at h <;> exact hsame _ (Except.ok.inj h) rfl (.inl rfl)
    · exact hsame _ (Except.ok.inj h) rfl (.inl rfl)
  | transcriptReconciled generation operationId turnId blocks thread =>
    refine .inr (.inr (.inr ?_))
    simp only [surfaceReducer, reconcileTranscript] at h
    split at h
    · split at h
      · exact hcommit h rfl (.inr rfl)
      · exact hcommit h rfl (.inl rfl)
    · exact hsame _ (Except.ok.inj h) rfl (.inl rfl)
  | commandResult block generation =>
    refine .inr (.inr (.inr ?_))
    simp only [surfaceReducer] at h
    split at h
    · exact hcommit h rfl (.inl rfl)
    · exact hsame _ (Except.ok.inj h) rfl (.inl rfl)
  | commandSubmitted submissionId text generation =>
    refine .inr (.inr (.inr ?_))
    simp only [surfaceReducer] at h
    split at h
    · exact hcommit h rfl (.inl rfl)
    · exact hsame _ (Except.ok.inj h) rfl (.inl rfl)
  | userPending clientMessageId text generation =>
    refine .inr (.inr (.inr ?_))
    simp only [surfaceReducer] at h
    split at h
    · exact hcommit h rfl (.inl rfl)
    · exact hsame _ (Except.ok.inj h) rfl (.inl rfl)
  | commandResultReplace block generation =>
    refine .inr (.inr (.inr ?_))
    simp only [surfaceReducer] at h
    split at h <;> exact hsame _ (Except.ok.inj h) rfl (.inl rfl)
  | userAccepted clientMessageId generation =>
    refine .inr (.inr (.inr ?_))
    simp only [surfaceReducer] at h
    split at h <;> exact hsame _ (Except.ok.inj h) rfl (.inl rfl)
  | userFailed clientMessageId message generation =>
    refine .inr (.inr (.inr ?_))
    simp only [surfaceReducer] at h
    split at h <;> exact hsame _ (Except.ok.inj h) rfl (.inl rfl)
  | _ => exact .inr (.inr (.inr (hsame _ (Except.ok.inj h) rfl (.inl rfl))))

end AwesomeAgent.Surface
