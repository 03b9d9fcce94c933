import AwesomeAgent.Surface.RetryGate

/-!
# Moves of the Surface controller

Whatever a step of the controller does, its store receives values of the batcher under the
generation of their Operation and actions that do not throw, and retries are activated. What holds
of the store and of the history is proved over these moves.
-/

namespace AwesomeAgent.Surface

variable {parse : DateParse} {eventBytes : EventEnvelope → Nat}

/-- A dispatcher and a history, and what they come to by values of the batcher, by actions that do
not throw, and by activations of retries. -/
inductive Moved (parse : DateParse) (d : Dispatcher) (history : List HistoryItem) :
    Dispatcher → List HistoryItem → Prop
  | refl : Moved parse d history d history
  | emit {e : Dispatcher} {later : List HistoryItem} (h : Moved parse d history e later)
      (value : BatchedEvent) : Moved parse d history (e.dispatchBatched parse value)
        (later ++ [.dispatched (.received value (e.eventGeneration value).1)])
  | reduce {e : Dispatcher} {later : List HistoryItem} {action : SurfaceAction}
      {state : SurfaceState} (h : Moved parse d history e later)
      (haction : (HistoryItem.dispatched action).received = none)
      (hreset : action ≠ .reconnectReset)
      (hstate : surfaceReducer parse e.state action = .ok state) :
      Moved parse d history ⟨state, e.operationGenerations⟩ (later ++ [.dispatched action])
  | activate {e : Dispatcher} {later : List HistoryItem} (h : Moved parse d history e later)
      (operation : ThreadRetryOperation) (generation : Nat) :
      Moved parse d history
        ⟨e.state, e.operationGenerations.set operation.operationId generation⟩
        (later ++ [.activated operation generation])

namespace Moved

variable {d e : Dispatcher} {history later : List HistoryItem}

private theorem emissions (h : Moved parse d history e later) (values : List BatchedEvent) :
    Moved parse d history (e.dispatchAll parse values)
      (later ++ e.emissions parse values) := by
  induction values generalizing e later with
  | nil => simpa [Dispatcher.emissions, Dispatcher.dispatchAll] using h
  | cons value rest ih =>
    have hrest := ih (h.emit value)
    rwa [List.append_assoc] at hrest

end Moved

namespace SurfaceController

variable {c : SurfaceController} {d : Dispatcher} {history : List HistoryItem}

/-- A controller has come from a dispatcher and a history. -/
def From (parse : DateParse) (d : Dispatcher) (history : List HistoryItem)
    (c : SurfaceController) : Prop :=
  Moved parse d history c.dispatcher c.history

private theorem From.failProtocol (h : c.From parse d history) (code message : String) :
    (c.failProtocol code message).From parse d history := by
  unfold SurfaceController.failProtocol
  split
  · exact h
  · exact Moved.reduce h rfl nofun rfl

private theorem From.dispatch (h : c.From parse d history) {action : SurfaceAction}
    (haction : (HistoryItem.dispatched action).received = none)
    (hreset : action ≠ .reconnectReset) : (c.dispatch parse action).1.From parse d history := by
  unfold SurfaceController.dispatch
  split
  · next state hstate => exact Moved.reduce h haction hreset hstate
  · exact h

private theorem From.emit (h : c.From parse d history) (batcher : DeltaBatcher)
    (values : List BatchedEvent) :
    (values.foldl (SurfaceController.emit parse) { c with batcher }).From parse d history := by
  rw [foldl_emit]
  exact Moved.emissions h values

private theorem From.acceptEvent (h : c.From parse d history) (event : EventEnvelope) :
    (c.acceptEvent parse event).1.From parse d history := by
  rcases c.acceptEvent_cases event with
    ⟨failure, haccept, -⟩ | ⟨fault, -, -, haccept⟩ | ⟨-, -, haccept⟩
  · rw [haccept]
    exact h
  · rw [haccept]
    exact h
  · obtain ⟨terminals, reconciliations, binding, hfinish, -⟩ :=
      (c.afterBatcher parse event).finishTerminal_cases event
    rw [haccept, hfinish]
    exact Moved.emissions h _

private theorem From.consume (h : c.From parse d history) (event : EventEnvelope) :
    (c.consume parse eventBytes event).From parse d history := by
  unfold SurfaceController.consume
  split
  · exact h
  · split
    · unfold SurfaceController.bufferRetryEvent
      split
      · exact From.failProtocol (c := { c.take event with retryGate := none }) h _ _
      · exact h
    · have haccept := From.acceptEvent (c := c.take event) h event
      split
      · next heq =>
        rw [heq] at haccept
        exact haccept.failProtocol _ _
      · next heq =>
        rw [heq] at haccept
        exact haccept

private theorem From.replayNext (h : c.From parse d history) (event : EventEnvelope)
    (rest : List EventEnvelope) : (c.replayNext parse event rest).From parse d history := by
  have haccept := From.acceptEvent (c := { c with replaying := rest }) h event
  unfold SurfaceController.replayNext
  split
  · next next failure heq =>
    rw [heq] at haccept
    exact From.failProtocol (c := { next with activeRetryBinding := none, replaying := [] })
      haccept _ _
  · next heq =>
    rw [heq] at haccept
    exact haccept

private theorem From.releaseRetryGate (h : c.From parse d history) (gate : ThreadRetryGate)
    (generation : Nat) (expected : Option ThreadRetryOperation) :
    (c.releaseRetryGate gate generation expected).From parse d history := by
  unfold SurfaceController.releaseRetryGate
  dsimp only
  split
  · exact From.failProtocol (c := { c with retryGate := none }) h _ _
  · cases expected with
    | none => exact h
    | some operation => exact Moved.activate h operation generation

private theorem From.respondRetry (h : c.From parse d history) (request : Nat)
    (answer : Option ThreadRetryOperation) :
    (c.respondRetry request answer).From parse d history := by
  unfold SurfaceController.respondRetry
  split
  · next gate _ =>
    split
    · cases answer with
      | none => exact h.releaseRetryGate gate _ none
      | some operation => exact h
    · exact h
  · exact h

private theorem From.activateThreadRetry (h : c.From parse d history)
    (operation : ThreadRetryOperation)
    (generation : Nat) : (c.activateThreadRetry operation generation).From parse d history := by
  unfold SurfaceController.activateThreadRetry
  split
  · next gate _ =>
    split
    · split
      · exact h.releaseRetryGate gate _ _
      · exact From.failProtocol (c := { c with retryGate := none }) h _ _
    · exact h.failProtocol _ _
  · exact h.failProtocol _ _

private theorem From.installReconciled (h : c.From parse d history) (r : Reconciliation)
    (result : TerminalTurnReconciliation) (thread : Option ThreadPage) :
    (c.installReconciled parse r result thread).From parse d history := by
  have hdispatch : (c.dispatch parse (.transcriptReconciled r.generation result.operationId
      result.turnId result.blocks thread)).1.From parse d history := h.dispatch rfl nofun
  unfold SurfaceController.installReconciled
  split
  · next heq =>
    rw [heq] at hdispatch
    exact hdispatch
  · next heq =>
    rw [heq] at hdispatch
    exact hdispatch.failProtocol _ _

private theorem From.readAnswered (h : c.From parse d history) (r : Reconciliation)
    (answer : ThreadReadAnswer) : (c.readAnswered parse r answer).From parse d history := by
  unfold SurfaceController.readAnswered
  split
  · split
    · exact h.installReconciled r _ _
    · exact h.failProtocol _ _
  · exact h.installReconciled r _ _
  · split
    · exact h
    · exact h.failProtocol _ _

private theorem From.endEvents (h : c.From parse d history) (failure : Option String) :
    (c.endEvents parse failure).From parse d history := by
  unfold SurfaceController.endEvents
  dsimp only
  split
  · exact (h.failProtocol _ _).emit _ _
  · exact h.emit _ _

variable {action : ControllerAction} {next : SurfaceController}

/-- Every action moves on from where the controller was. -/
theorem from_act (hstep : c.act parse eventBytes action = some next) :
    next.From parse c.dispatcher c.history := by
  have h : c.From parse c.dispatcher c.history := Moved.refl
  cases acts_of_act hstep with
  | event event => exact h.consume event
  | tick => exact h.emit _ _
  | endEvents failure => exact h.endEvents failure
  | respond request answer =>
    exact From.respondRetry (c := { c with awaiting := c.awaiting.erase request }) h _ _
  | rejectRequest request =>
    exact From.respondRetry (c := { c with awaiting := c.awaiting.erase request }) h _ _
  | activate operation generation => exact h.activateThreadRetry operation generation
  | reject message => exact From.failProtocol (c := { c with retryGate := none }) h _ _
  | dispatch action happlication =>
    refine h.dispatch ?_ fun hreset => ?_
    · cases action <;> first | rfl | cases happlication
    · rw [hreset] at happlication
      cases happlication
  | readThread index answer r =>
    exact From.readAnswered
      (c := { c with reconciliations := c.reconciliations.eraseIdx index }) h r answer
  | finishClose => exact h.dispatch rfl (by simp)
  | requestNothing | requestRetry | closeAgain | close => exact h

/-- What a step does to the dispatcher and to the history. -/
theorem from_step (hstep : c.step parse eventBytes action = some next) :
    next.From parse c.dispatcher c.history := by
  have h : c.From parse c.dispatcher c.history := Moved.refl
  unfold SurfaceController.step at hstep
  split at hstep
  · exact from_act hstep
  · next event rest _ =>
    obtain ⟨-, hnext⟩ := Option.ite_none_right_eq_some.mp hstep
    exact Option.some.inj hnext ▸ h.replayNext event rest

end SurfaceController

end AwesomeAgent.Surface
