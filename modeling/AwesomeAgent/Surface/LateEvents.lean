import AwesomeAgent.Surface.ControllerMoves

/-!
# Late events of a replaced Thread

An event of an Operation that started before the Thread was replaced is dispatched under its old
generation, and so is the reconciliation of its Turn. Both move the sequence number alone: the
state is the one that the other items of the history lead to.
-/

namespace AwesomeAgent.Surface

variable {parse : DateParse}

/-! ## The sequence number -/

/-- A state with another sequence number. -/
def SurfaceState.numbered (s : SurfaceState) (sequence : Nat) : SurfaceState :=
  { s with eventSequence := sequence }

/-- A state that differs from another one by a later sequence number alone. -/
def SurfaceState.AdvancedTo (s t : SurfaceState) : Prop :=
  ∃ sequence, s.eventSequence ≤ sequence ∧ t = s.numbered sequence

/-- What a reconciliation changes before its blocks are committed. -/
def withoutTurn (operationId turnId : String) (thread : Option ThreadPage) (s : SurfaceState) :
    SurfaceState :=
  let base :=
    if s.activeOperation.any fun operation => operation.id = operationId ∧
        operation.turn.any fun turn => turn.id = turnId then
      { s with activeOperation := none }
    else s
  let currentThreadId := base.thread.map fun page => page.thread.id
  let reconciledThread :=
    if thread.map (fun page => page.thread.id) = currentThreadId then thread else base.thread
  { base with
    thread := reconciledThread.or base.thread
    warnings := base.warnings.filter fun warning => warning.operationId ≠ some operationId }

namespace SurfaceState.AdvancedTo

variable {s t : SurfaceState}

/-- A state is advanced to itself. -/
theorem refl (s : SurfaceState) : s.AdvancedTo s := ⟨s.eventSequence, le_rfl, rfl⟩

private theorem trans {u : SurfaceState} (hst : s.AdvancedTo t) (htu : t.AdvancedTo u) :
    s.AdvancedTo u := by
  obtain ⟨middle, hmiddle, rfl⟩ := hst
  obtain ⟨last, hlast, rfl⟩ := htu
  exact ⟨last, hmiddle.trans hlast, rfl⟩

private theorem update {f : SurfaceState → SurfaceState} (h : s.AdvancedTo t)
    (hf : ∀ u sequence, f (u.numbered sequence) = (f u).numbered sequence) :
    (f s).AdvancedTo (f t) := by
  obtain ⟨sequence, hle, rfl⟩ := h
  have hsame : f s = (f s).numbered s.eventSequence := hf s s.eventSequence
  have hkept : (f s).eventSequence = s.eventSequence := by
    rw [hsame]
    rfl
  exact ⟨sequence, hkept.trans_le hle, hf s sequence⟩

private theorem guarded {after : SurfaceState} {c : Prop} [Decidable c]
    {f : SurfaceState → Except TranscriptIdentityError SurfaceState} (h : s.AdvancedTo t)
    (hf : f t = .ok after → ∃ before, f s = .ok before ∧ before.AdvancedTo after)
    (ht : (if c then f t else .ok t) = .ok after) :
    ∃ before, (if c then f s else .ok s) = .ok before ∧ before.AdvancedTo after := by
  by_cases hc : c
  · rw [if_pos hc] at ht ⊢
    exact hf ht
  · rw [if_neg hc] at ht ⊢
    cases ht
    exact ⟨s, rfl, h⟩

private theorem reduceDelta (h : s.AdvancedTo t) (delta : CoalescedDelta) :
    (reduceDelta parse s delta).AdvancedTo (reduceDelta parse t delta) := by
  have hlost :
      (Surface.fatal s "delta_identity_invalid" "Delta identity has no active Turn").AdvancedTo
        (Surface.fatal t "delta_identity_invalid" "Delta identity has no active Turn") :=
    h.update (f := fun u => Surface.fatal u _ _) fun _ _ => rfl
  obtain ⟨sequence, hle, rfl⟩ := h
  cases hoperation : s.activeOperation with
  | none =>
    simp only [numbered, hoperation] at hlost
    simpa only [Surface.reduceDelta, numbered, hoperation] using hlost
  | some operation =>
    simp only [Surface.reduceDelta, numbered, hoperation] at hlost ⊢
    split
    · exact refl _
    · exact hlost

private theorem receive (h : s.AdvancedTo t) (value : BatchedEvent) (generation : Nat) :
    (receive parse s value generation).AdvancedTo (receive parse t value generation) := by
  have hgeneration : t.threadGeneration = s.threadGeneration := by
    obtain ⟨sequence, -, rfl⟩ := h
    rfl
  cases value with
  | event event =>
    simp only [Surface.receive, hgeneration]
    split
    · obtain ⟨sequence, hle, rfl⟩ := h
      exact refl _
    · obtain ⟨sequence, hle, rfl⟩ := h
      have hmax : max s.eventSequence event.sequence ≤ max sequence event.sequence := by omega
      exact ⟨max sequence event.sequence, hmax, rfl⟩
  | delta delta =>
    simp only [Surface.receive, hgeneration]
    split
    · exact h.reduceDelta delta
    · obtain ⟨sequence, hle, rfl⟩ := h
      have hmax : max s.eventSequence delta.lastSequence ≤ max sequence delta.lastSequence := by
        omega
      exact ⟨max sequence delta.lastSequence, hmax, rfl⟩

private theorem commitBlocks {after : SurfaceState} {blocks : List TranscriptBlock}
    (h : s.AdvancedTo t) (ht : commitBlocks t blocks = .ok after) :
    ∃ before, commitBlocks s blocks = .ok before ∧ before.AdvancedTo after := by
  obtain ⟨sequence, hle, rfl⟩ := h
  obtain ⟨merged, hmerged, rfl⟩ := commitBlocks_eq_ok ht
  change mergeTranscriptBlocks (s.committedTranscript.getD []) blocks = .ok merged at hmerged
  refine ⟨{ s with committedTranscript := some merged }, ?_, ⟨sequence, hle, rfl⟩⟩
  rw [Surface.commitBlocks, hmerged]
  rfl

private theorem reconcileTranscript {after : SurfaceState} {operationId turnId : String}
    {blocks : List TranscriptBlock} {thread : Option ThreadPage} (h : s.AdvancedTo t)
    (ht : reconcileTranscript t operationId turnId blocks thread = .ok after) :
    ∃ before, reconcileTranscript s operationId turnId blocks thread = .ok before ∧
      before.AdvancedTo after := by
  have hwithout (u : SurfaceState) (sequence : Nat) :
      withoutTurn operationId turnId thread (u.numbered sequence) =
        (withoutTurn operationId turnId thread u).numbered sequence := by
    have hsame : (u.numbered sequence).activeOperation = u.activeOperation := rfl
    unfold withoutTurn
    rw [hsame]
    cases u.activeOperation.any fun operation => operation.id = operationId ∧
        operation.turn.any fun turn => turn.id = turnId with
    | true => rfl
    | false => rfl
  exact (h.update hwithout).commitBlocks ht

/-- An action is applied alike. -/
theorem surfaceReducer {after : SurfaceState} {action : SurfaceAction} (h : s.AdvancedTo t)
    (ht : surfaceReducer parse t action = .ok after) :
    ∃ before, surfaceReducer parse s action = .ok before ∧ before.AdvancedTo after := by
  have hgeneration : t.threadGeneration = s.threadGeneration := by
    obtain ⟨sequence, -, rfl⟩ := h
    rfl
  cases action with
  | received value generation =>
    cases ht
    exact ⟨_, rfl, h.receive value generation⟩
  | reconnectReset =>
    cases ht
    exact ⟨_, rfl, refl _⟩
  | threadMetadataUpdated record =>
    have hthread : t.thread = s.thread := by
      obtain ⟨sequence, -, rfl⟩ := h
      rfl
    simp only [Surface.surfaceReducer, hthread] at ht ⊢
    cases hpage : s.thread with
    | none =>
      rw [hpage] at ht
      cases ht
      exact ⟨s, rfl, h⟩
    | some page =>
      rw [hpage] at ht
      refine h.guarded (f := fun u => .ok { u with thread := some { page with thread := record } })
        (fun hok => ?_) ht
      cases hok
      exact ⟨_, rfl, h.update (f := fun u => { u with thread := _ }) fun _ _ => rfl⟩
  | transcriptReconciled generation operationId turnId blocks thread =>
    simp only [Surface.surfaceReducer, hgeneration] at ht ⊢
    exact h.guarded (f := fun u => Surface.reconcileTranscript u operationId turnId blocks thread)
      h.reconcileTranscript ht
  | commandResult block generation =>
    simp only [Surface.surfaceReducer, hgeneration] at ht ⊢
    exact h.guarded (f := fun u => Surface.commitBlocks u _) h.commitBlocks ht
  | commandSubmitted submissionId text generation =>
    simp only [Surface.surfaceReducer, hgeneration] at ht ⊢
    exact h.guarded (f := fun u => Surface.commitBlocks u _) h.commitBlocks ht
  | userPending clientMessageId text generation =>
    simp only [Surface.surfaceReducer, hgeneration] at ht ⊢
    exact h.guarded (f := fun u => Surface.commitBlocks u _) h.commitBlocks ht
  | commandResultReplace block generation =>
    simp only [Surface.surfaceReducer, hgeneration] at ht ⊢
    refine h.guarded (f := fun u => .ok (replaceBlock u block)) (fun hok => ?_) ht
    cases hok
    exact ⟨_, rfl, h.update (f := fun u => replaceBlock u block) fun _ _ => rfl⟩
  | userAccepted clientMessageId generation =>
    simp only [Surface.surfaceReducer, hgeneration] at ht ⊢
    refine h.guarded (f := fun u => .ok (updateUserMessage u clientMessageId .accepted none))
      (fun hok => ?_) ht
    cases hok
    exact ⟨_, rfl, h.update (f := fun u => updateUserMessage u _ _ _) fun _ _ => rfl⟩
  | userFailed clientMessageId message generation =>
    simp only [Surface.surfaceReducer, hgeneration] at ht ⊢
    refine h.guarded
      (f := fun u => .ok (updateUserMessage u clientMessageId .failed (some message)))
      (fun hok => ?_) ht
    cases hok
    exact ⟨_, rfl, h.update (f := fun u => updateUserMessage u _ _ _) fun _ _ => rfl⟩
  | _ =>
    obtain ⟨sequence, hle, rfl⟩ := h
    cases ht
    exact ⟨_, rfl, sequence, hle, rfl⟩

end SurfaceState.AdvancedTo

/-! ## What a history leads to without late items -/

/-- Whether an item belongs to an earlier Thread: what was received of an Operation of another
generation, or the reconciliation of its Turn. -/
def HistoryItem.late (g : Generations) : HistoryItem → Bool
  | .dispatched (.received value _) => g.due value ≠ g.current
  | .dispatched (.transcriptReconciled generation ..) => generation ≠ g.current
  | _ => false

/-- The items of a history that are not late. -/
def timely (g : Generations) : List HistoryItem → List HistoryItem
  | [] => []
  | item :: rest => if item.late g then timely (g.track item) rest
      else item :: timely (g.track item) rest

/-- Apply an item of the history to a state. -/
def HistoryItem.apply (parse : DateParse) (s : SurfaceState) :
    HistoryItem → Except TranscriptIdentityError SurfaceState
  | .dispatched action => surfaceReducer parse s action
  | .activated .. => .ok s

/-- The state before the first event. -/
def startingState : SurfaceState := { initialSurfaceState with connection := .starting }

/-- The state that the items of a history lead to that are not late. -/
def timelyState (parse : DateParse) (history : List HistoryItem) :
    Except TranscriptIdentityError SurfaceState :=
  (timely ⟨0, .empty⟩ history).foldlM (HistoryItem.apply parse) startingState

private theorem timely_append (g : Generations) (front back : List HistoryItem) :
    timely g (front ++ back) = timely g front ++ timely (front.foldl Generations.track g) back := by
  induction front generalizing g with
  | nil => rfl
  | cons item front ih =>
    rw [List.cons_append, timely, timely, List.foldl_cons]
    split
    · exact ih _
    · rw [ih, List.cons_append]

variable {history : List HistoryItem}

private theorem timelyState_late {item : HistoryItem}
    (h : item.late (generationsAfter history) = true) :
    timelyState parse (history ++ [item]) = timelyState parse history := by
  have hnone : timely (generationsAfter history) [item] = [] := by
    rw [timely, h]
    rfl
  rw [timelyState, timely_append]
  change (timely ⟨0, .empty⟩ history ++ timely (generationsAfter history) [item]).foldlM _ _ = _
  rw [hnone, List.append_nil, timelyState]

private theorem timelyState_timely {item : HistoryItem}
    (h : item.late (generationsAfter history) = false) :
    timelyState parse (history ++ [item]) =
      (timelyState parse history).bind fun s => item.apply parse s := by
  have hone : timely (generationsAfter history) [item] = [item] := by
    rw [timely, h]
    rfl
  rw [timelyState, timely_append]
  change (timely ⟨0, .empty⟩ history ++ timely (generationsAfter history) [item]).foldlM _ _ = _
  rw [hone, List.foldlM_append, timelyState]
  refine congrArg _ (funext fun s => ?_)
  rw [List.foldlM_cons]
  cases item.apply parse s with
  | ok t => rfl
  | error e => rfl

/-! ## The state without late items -/

/-- A dispatcher whose state is the one without late items, but for the sequence number. -/
structure Replayed (parse : DateParse) (d : Dispatcher) (history : List HistoryItem) : Prop where
  tracked : generationsAfter history = ⟨d.state.threadGeneration, d.operationGenerations⟩
  state : ∃ s, timelyState parse history = .ok s ∧ s.AdvancedTo d.state

namespace Replayed

variable {d : Dispatcher} {history : List HistoryItem}

private theorem receive_late {s : SurfaceState} {value : BatchedEvent} {generation : Nat}
    (h : generation ≠ s.threadGeneration) : s.AdvancedTo (receive parse s value generation) := by
  cases value with
  | event event =>
    simp only [receive, if_neg h]
    exact ⟨max s.eventSequence event.sequence, Nat.le_max_left _ _, rfl⟩
  | delta delta =>
    simp only [receive, if_neg h]
    exact ⟨max s.eventSequence delta.lastSequence, Nat.le_max_left _ _, rfl⟩

private theorem emit (h : Replayed parse d history) (value : BatchedEvent) :
    Replayed parse (d.dispatchBatched parse value)
      (history ++ [.dispatched (.received value (d.eventGeneration value).1)]) := by
  have hdue := due_eq_of_tracked h.tracked value
  refine ⟨tracked_emit h.tracked value, ?_⟩
  obtain ⟨s, hs, hadvanced⟩ := h.state
  have hcurrent : (generationsAfter history).current = d.state.threadGeneration :=
    congrArg Generations.current h.tracked
  by_cases hlate : (d.eventGeneration value).1 = d.state.threadGeneration
  · refine ⟨_, ?_, hadvanced.receive value (d.eventGeneration value).1⟩
    rw [timelyState_timely, hs]
    · rfl
    · simp [HistoryItem.late, hdue, hcurrent, hlate]
  · refine ⟨s, ?_, hadvanced.trans (receive_late hlate)⟩
    rw [timelyState_late, hs]
    simp [HistoryItem.late, hdue, hcurrent, hlate]

private theorem reduce (h : Replayed parse d history) {action : SurfaceAction}
    {state : SurfaceState}
    (haction : (HistoryItem.dispatched action).received = none)
    (hreset : action ≠ .reconnectReset)
    (hstate : surfaceReducer parse d.state action = .ok state) :
    Replayed parse ⟨state, d.operationGenerations⟩ (history ++ [.dispatched action]) := by
  have hgeneration := SurfaceController.threadGeneration_surfaceReducer hstate haction hreset
    d.operationGenerations
  refine ⟨tracked_record (d := d) h.tracked haction hgeneration, ?_⟩
  obtain ⟨s, hs, hadvanced⟩ := h.state
  have hcurrent : (generationsAfter history).current = d.state.threadGeneration :=
    congrArg Generations.current h.tracked
  cases hlate : (HistoryItem.dispatched action).late (generationsAfter history) with
  | false =>
    obtain ⟨t, ht, hafter⟩ := hadvanced.surfaceReducer hstate
    refine ⟨t, ?_, hafter⟩
    rw [timelyState_timely hlate, hs]
    exact ht
  | true =>
    refine ⟨s, by rw [timelyState_late hlate, hs], ?_⟩
    cases action with
    | received value generation => cases haction
    | transcriptReconciled generation operationId turnId blocks thread =>
      have hother : generation ≠ d.state.threadGeneration := by
        simpa [HistoryItem.late, hcurrent] using hlate
      simp only [surfaceReducer, if_neg hother] at hstate
      cases hstate
      exact hadvanced
    | _ => cases hlate

private theorem activate (h : Replayed parse d history) (operation : ThreadRetryOperation)
    (generation : Nat) :
    Replayed parse ⟨d.state, d.operationGenerations.set operation.operationId generation⟩
      (history ++ [.activated operation generation]) := by
  refine ⟨?_, ?_⟩
  · rw [generationsAfter_concat, h.tracked]
    rfl
  · obtain ⟨s, hs, hadvanced⟩ := h.state
    refine ⟨s, ?_, hadvanced⟩
    rw [timelyState_timely rfl, hs]
    rfl

/-- Whatever the controller does keeps the state the one without late items. -/
theorem moved (h : Replayed parse d history) {e : Dispatcher} {later : List HistoryItem}
    (hmoved : Moved parse d history e later) : Replayed parse e later := by
  induction hmoved with
  | refl => exact h
  | emit _ value ih => exact ih.emit value
  | reduce _ haction hreset hstate ih => exact ih.reduce haction hreset hstate
  | activate _ operation generation ih => exact ih.activate operation generation

end Replayed

end AwesomeAgent.Surface
