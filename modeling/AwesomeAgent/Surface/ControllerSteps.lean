import AwesomeAgent.Surface.Controller
import AwesomeAgent.Surface.DeltaBatching

/-!
# Steps of the Surface controller

What an emission, the end of an Operation and the acceptance of an event change, and what
they leave alone. A connection that is lost stays lost for its first reason.
-/

namespace AwesomeAgent.Surface

variable {parse : DateParse}

namespace Dispatcher

/-- The history of dispatching several values. -/
def emissions (parse : DateParse) (d : Dispatcher) : List BatchedEvent → List HistoryItem
  | [] => []
  | value :: rest =>
      .dispatched (.received value (d.eventGeneration value).1) ::
        (d.dispatchBatched parse value).emissions parse rest

private theorem sameThread_dispatchAll (d : Dispatcher) (values : List BatchedEvent) :
    d.state.SameThread (d.dispatchAll parse values).state := by
  induction values generalizing d with
  | nil => exact ⟨rfl, rfl, rfl, rfl⟩
  | cons value rest ih =>
    have hfirst : d.state.SameThread (d.dispatchBatched parse value).state :=
      sameThread_receive d.state value (d.eventGeneration value).1
    have hrest := ih (d.dispatchBatched parse value)
    exact ⟨hrest.1.trans hfirst.1, hrest.2.trans hfirst.2, hrest.3.trans hfirst.3,
      hrest.4.trans hfirst.4⟩

private theorem turnId_dispatchAll (d : Dispatcher) {values : List BatchedEvent}
    (h : ∀ value ∈ values, ∀ event, value = .event event →
      ∃ outcome, event.payload = .operationTerminal outcome) :
    (d.dispatchAll parse values).state.turnId = d.state.turnId := by
  induction values generalizing d with
  | nil => rfl
  | cons value rest ih =>
    have hrest := ih (d.dispatchBatched parse value) fun v hv =>
      h v (List.mem_cons_of_mem _ hv)
    exact hrest.trans (turnId_receive _ (h value List.mem_cons_self))

end Dispatcher

private theorem DeltaBatcher.event_of_mem_accept {b : DeltaBatcher} {event other : EventEnvelope}
    (h : .event other ∈ (b.accept event).2) : other = event := by
  cases hfault : (b.guard.acceptNumbered event.sessionId event.sequence).fault.isSome with
  | true => simp [DeltaBatcher.accept_of_fault hfault] at h
  | false =>
    rcases DeltaBatcher.accept_of_no_fault hfault with
      ⟨-, haccept⟩ | ⟨delta, -, haccept | ⟨pending, -, -, haccept⟩⟩
    · simpa [haccept, flush] using h
    · simp [haccept, flush] at h
    · simp [haccept] at h

namespace SurfaceController

/-- Dispatching several values changes the dispatcher and the history alone. -/
theorem foldl_emit (c : SurfaceController) (values : List BatchedEvent) :
    values.foldl (emit parse) c = { c with
      dispatcher := c.dispatcher.dispatchAll parse values
      history := c.history ++ c.dispatcher.emissions parse values } := by
  induction values generalizing c with
  | nil => simp [Dispatcher.dispatchAll, Dispatcher.emissions]
  | cons value rest ih =>
    rw [List.foldl_cons, ih]
    simp [emit, Dispatcher.dispatchAll, Dispatcher.emissions]

/-- The end of an Operation changes what is reconciled and bound alone: the binding of its
retry is gone if its Thread and its Turn are known. -/
theorem finishTerminal_cases (c : SurfaceController) (event : EventEnvelope) :
    ∃ terminals reconciliations binding, c.finishTerminal event = { c with
        reconciledTerminals := terminals
        reconciliations := reconciliations
        activeRetryBinding := binding } ∧
      (binding = none ∨ binding = c.activeRetryBinding) ∧
      (event.payload.endsOperation = true → (c.terminalThread event).isSome = true →
        (c.terminalTurn event).isSome = true →
        ∀ operation ∈ binding, event.operationId ≠ some operation.operationId) := by
  unfold finishTerminal
  split
  · split
    · next threadId operationId turnId _ hoperation _ =>
      obtain ⟨hnamed, -⟩ := Option.filter_eq_some_iff.mp hoperation
      have hbegun (binding : Option ThreadRetryOperation) :
          ∃ terminals reconciliations,
            { c.beginReconciliation threadId operationId turnId
                (c.dispatcher.generationOf event.operationId) with
              activeRetryBinding := binding } = { c with
              reconciledTerminals := terminals
              reconciliations := reconciliations
              activeRetryBinding := binding } := by
        unfold beginReconciliation
        dsimp only
        split <;> exact ⟨_, _, rfl⟩
      dsimp only
      split
      · obtain ⟨terminals, reconciliations, he⟩ := hbegun none
        exact ⟨terminals, reconciliations, none, he, .inl rfl, fun _ _ _ => nofun⟩
      · next hbinding =>
        obtain ⟨terminals, reconciliations, he⟩ := hbegun c.activeRetryBinding
        have hkept : (c.beginReconciliation threadId operationId turnId
            (c.dispatcher.generationOf event.operationId)).activeRetryBinding =
              c.activeRetryBinding := by
          unfold beginReconciliation
          dsimp only
          split <;> rfl
        refine ⟨terminals, reconciliations, c.activeRetryBinding, ?_, .inr rfl, ?_⟩
        · rw [← he, ← hkept]
        · intro _ _ _ operation hmem hname
          obtain rfl : operationId = operation.operationId :=
            Option.some.inj (hnamed.symm.trans hname)
          exact hbinding (Option.any_eq_true _ _ |>.mpr ⟨operation, hmem, by simp⟩)
    · next hunknown =>
      refine ⟨_, _, _, rfl, .inr rfl, fun hends hthread hturn operation _ hname => ?_⟩
      obtain ⟨threadId, hthread⟩ := Option.isSome_iff_exists.mp hthread
      obtain ⟨turnId, hturn⟩ := Option.isSome_iff_exists.mp hturn
      have hpresent : present event.operationId = some operation.operationId := by
        have hne := event.nonempty
        simp only [List.mem_cons, not_or] at hne
        rw [present, Option.filter_eq_some_iff]
        refine ⟨hname, ?_⟩
        simp only [ne_eq, decide_not, Bool.not_eq_true', decide_eq_false_iff_not]
        exact fun hempty => hne.2.2.1 (by rw [hname, hempty])
      exact hunknown threadId operation.operationId turnId hthread hpresent hturn
  · next hother =>
    refine ⟨_, _, _, rfl, .inr rfl, fun hends => ?_⟩
    unfold EventPayload.endsOperation at hends
    split at hends
    · next outcome he => exact absurd he (hother outcome)
    · cases hends

/-- The controller after the batcher accepted an event. -/
def afterBatcher (parse : DateParse) (c : SurfaceController) (event : EventEnvelope) :
    SurfaceController :=
  { c with
    batcher := (c.batcher.accept event).1
    dispatcher := c.dispatcher.dispatchAll parse (c.batcher.accept event).2
    history := c.history ++ c.dispatcher.emissions parse (c.batcher.accept event).2
    accepted := c.accepted ++ [event] }

/-- An event names another identity than the bound retry, or the guard refuses it, or the
batcher accepts it. -/
theorem acceptEvent_cases (c : SurfaceController) (event : EventEnvelope) :
    (∃ failure, c.acceptEvent parse event = (c, some failure) ∧
      ∃ binding ∈ c.activeRetryBinding, binding.disagrees event = true) ∨
    (∃ fault, (c.batcher.accept event).1.guard.fault = some fault ∧
      (c.batcher.accept event).2 = [] ∧ c.acceptEvent parse event =
        ({ c with batcher := (c.batcher.accept event).1 },
          some ("protocol_desynchronized", fault))) ∨
    ((c.batcher.accept event).1.guard.fault = none ∧
      (∀ binding ∈ c.activeRetryBinding, binding.disagrees event = false) ∧
      c.acceptEvent parse event = ((c.afterBatcher parse event).finishTerminal event, none)) := by
  by_cases hbinding : c.activeRetryBinding.any fun binding => binding.disagrees event
  · obtain ⟨binding, hmem, hdisagrees⟩ := (Option.any_eq_true _ _).mp hbinding
    exact .inl ⟨_, if_pos hbinding, binding, hmem, hdisagrees⟩
  refine .inr ?_
  cases hfault : (c.batcher.accept event).1.guard.fault with
  | some fault =>
    have hvalues : (c.batcher.accept event).2 = [] := by
      rw [DeltaBatcher.accept_of_fault (by rw [← DeltaBatcher.guard_accept, hfault]; rfl)]
    exact .inl ⟨fault, rfl, hvalues, by simp [acceptEvent, hbinding, hfault, hvalues]⟩
  | none =>
    refine .inr ⟨rfl, fun binding hmem => ?_, ?_⟩
    · by_contra hdisagrees
      exact hbinding ((Option.any_eq_true _ _).mpr ⟨binding, hmem, by simpa using hdisagrees⟩)
    · simp [acceptEvent, hbinding, hfault, foldl_emit, afterBatcher]

/-- The Thread of a terminal event does not depend on the batcher. -/
theorem terminalThread_afterBatcher (c : SurfaceController) (event : EventEnvelope) :
    (c.afterBatcher parse event).terminalThread event = c.terminalThread event := by
  have hsame : (c.afterBatcher parse event).state.application = c.state.application :=
    (Dispatcher.sameThread_dispatchAll c.dispatcher _).application
  simp only [terminalThread, hsame]

/-- The Turn of a terminal event does not depend on the batcher. -/
theorem terminalTurn_afterBatcher (c : SurfaceController) {event : EventEnvelope}
    (h : event.payload.endsOperation = true) :
    (c.afterBatcher parse event).terminalTurn event = c.terminalTurn event := by
  have hsame : (c.afterBatcher parse event).state.turnId = c.state.turnId := by
    refine Dispatcher.turnId_dispatchAll c.dispatcher fun value hvalue other hother => ?_
    obtain rfl := DeltaBatcher.event_of_mem_accept (hother ▸ hvalue)
    unfold EventPayload.endsOperation at h
    split at h
    · next outcome houtcome => exact ⟨outcome, houtcome⟩
    · cases h
  unfold SurfaceState.turnId at hsame
  simp only [terminalTurn, hsame]

/-! ## What stays lost -/

variable {c : SurfaceController} {eventBytes : EventEnvelope → Nat} {fault : String}

private theorem lost_failProtocol (h : c.fatalFault = some fault) (code message : String) :
    (c.failProtocol code message).fatalFault = some fault := by
  simp [failProtocol, h]

private theorem lost_emit (h : c.fatalFault = some fault) (batcher : DeltaBatcher)
    (values : List BatchedEvent) :
    (values.foldl (emit parse) { c with batcher }).fatalFault = some fault := by
  rw [foldl_emit]
  exact h

private theorem lost_acceptEvent (h : c.fatalFault = some fault) (event : EventEnvelope) :
    (c.acceptEvent parse event).1.fatalFault = some fault := by
  rcases c.acceptEvent_cases event with
    ⟨failure, haccept, -⟩ | ⟨refused, -, -, haccept⟩ | ⟨-, -, haccept⟩
  · rw [haccept]
    exact h
  · rw [haccept]
    exact h
  · obtain ⟨terminals, reconciliations, binding, hfinish, -⟩ :=
      (c.afterBatcher parse event).finishTerminal_cases event
    rw [haccept, hfinish]
    exact h

private theorem lost_consume (h : c.fatalFault = some fault) (event : EventEnvelope) :
    (c.consume parse eventBytes event).fatalFault = some fault := by
  rw [consume, if_pos (by simp [h])]
  exact h

private theorem lost_replayNext (h : c.fatalFault = some fault) (event : EventEnvelope)
    (rest : List EventEnvelope) : (c.replayNext parse event rest).fatalFault = some fault := by
  have haccept : ({ c with replaying := rest }.acceptEvent parse event).1.fatalFault = some fault :=
    lost_acceptEvent (c := { c with replaying := rest }) h event
  unfold replayNext
  split
  · next next failure heq =>
    rw [heq] at haccept
    exact lost_failProtocol (c := { next with activeRetryBinding := none, replaying := [] })
      haccept _ _
  · next heq =>
    rw [heq] at haccept
    exact haccept

private theorem lost_releaseRetryGate (h : c.fatalFault = some fault) (gate : ThreadRetryGate)
    (generation : Nat) (expected : Option ThreadRetryOperation) :
    (c.releaseRetryGate gate generation expected).fatalFault = some fault := by
  unfold releaseRetryGate
  dsimp only
  split
  · exact lost_failProtocol (c := { c with retryGate := none }) h _ _
  · cases expected with
    | none => exact h
    | some operation => exact h

private theorem lost_respondRetry (h : c.fatalFault = some fault) (request : Nat)
    (answer : Option ThreadRetryOperation) :
    (c.respondRetry request answer).fatalFault = some fault := by
  unfold respondRetry
  split
  · next gate _ =>
    split
    · cases answer with
      | none => exact lost_releaseRetryGate h gate _ none
      | some operation => exact h
    · exact h
  · exact h

private theorem lost_activateThreadRetry (h : c.fatalFault = some fault)
    (operation : ThreadRetryOperation) (generation : Nat) :
    (c.activateThreadRetry operation generation).fatalFault = some fault := by
  unfold activateThreadRetry
  split
  · next gate _ =>
    split
    · split
      · exact lost_releaseRetryGate h gate _ _
      · exact lost_failProtocol (c := { c with retryGate := none }) h _ _
    · exact lost_failProtocol h _ _
  · exact lost_failProtocol h _ _

private theorem lost_dispatch (h : c.fatalFault = some fault) (action : SurfaceAction) :
    (c.dispatch parse action).1.fatalFault = some fault := by
  unfold dispatch
  split
  · exact h
  · exact h

private theorem lost_installReconciled (h : c.fatalFault = some fault) (r : Reconciliation)
    (result : TerminalTurnReconciliation) (thread : Option ThreadPage) :
    (c.installReconciled parse r result thread).fatalFault = some fault := by
  have hdispatch : (c.dispatch parse (.transcriptReconciled r.generation result.operationId
      result.turnId result.blocks thread)).1.fatalFault = some fault := lost_dispatch h _
  unfold installReconciled
  split
  · next heq =>
    rw [heq] at hdispatch
    exact hdispatch
  · next heq =>
    rw [heq] at hdispatch
    exact lost_failProtocol hdispatch _ _

private theorem lost_readAnswered (h : c.fatalFault = some fault) (r : Reconciliation)
    (answer : ThreadReadAnswer) : (c.readAnswered parse r answer).fatalFault = some fault := by
  unfold readAnswered
  split
  · split
    · exact lost_installReconciled h r _ _
    · exact lost_failProtocol h _ _
  · exact lost_installReconciled h r _ _
  · split
    · exact h
    · exact lost_failProtocol h _ _

private theorem lost_endEvents (h : c.fatalFault = some fault) (failure : Option String) :
    (c.endEvents parse failure).fatalFault = some fault := by
  unfold endEvents
  dsimp only
  split
  · exact lost_emit (lost_failProtocol h _ _) _ _
  · exact lost_emit h _ _

/-- What an action leads to, while no gate is released. -/
inductive Acts (parse : DateParse) (eventBytes : EventEnvelope → Nat) (c : SurfaceController) :
    ControllerAction → SurfaceController → Prop
  | event (event : EventEnvelope) : Acts parse eventBytes c (.event event)
      (c.consume parse eventBytes event)
  | tick : Acts parse eventBytes c .tick (c.tick parse)
  | endEvents (failure : Option String) :
      Acts parse eventBytes c (.endEvents failure) (c.endEvents parse failure)
  | requestNothing : Acts parse eventBytes c .requestRetry c
  | requestRetry (hclosed : c.closed = false) (hgate : c.retryGate = none) :
      Acts parse eventBytes c .requestRetry { c with
        retryGate := some ⟨c.requests.length, [], 0, none⟩
        requests := c.requests ++ [c.accepted]
        awaiting := c.awaiting ++ [c.requests.length] }
  | respond (request : Nat) (answer : Option ThreadRetryOperation) :
      Acts parse eventBytes c (.respond request answer)
        ({ c with awaiting := c.awaiting.erase request }.respondRetry request answer)
  | rejectRequest (request : Nat) : Acts parse eventBytes c (.rejectRequest request)
      ({ c with awaiting := c.awaiting.erase request }.respondRetry request none)
  | activate (operation : ThreadRetryOperation) (generation : Nat) :
      Acts parse eventBytes c (.activate operation generation)
        (c.activateThreadRetry operation generation)
  | reject (message : String) : Acts parse eventBytes c (.reject message)
      ({ c with retryGate := none }.failProtocol "thread_retry_transition_rejected" message)
  | dispatch (action : SurfaceAction) (happlication : action.ofApplication = true) :
      Acts parse eventBytes c (.dispatch action) (c.dispatch parse action).1
  | readThread (index : Nat) (answer : ThreadReadAnswer) (r : Reconciliation)
      (hr : c.reconciliations[index]? = some r) :
      Acts parse eventBytes c (.readThread index answer)
        ({ c with reconciliations := c.reconciliations.eraseIdx index }.readAnswered parse r answer)
  | closeAgain : Acts parse eventBytes c .close c
  | close : Acts parse eventBytes c .close
      { c with closed := true, retryGate := none, activeRetryBinding := none }
  | finishClose : Acts parse eventBytes c .finishClose (c.dispatch parse .surfaceClosed).1

variable {next : SurfaceController} {action : ControllerAction}

/-- An action that is taken leads to one of these states. -/
theorem acts_of_act (hstep : c.act parse eventBytes action = some next) :
    Acts parse eventBytes c action next := by
  cases action <;>
    simp only [act, Option.some.injEq, Option.ite_none_right_eq_some,
      Option.ite_none_left_eq_some] at hstep
  case replay => cases hstep
  case event event => exact hstep.2 ▸ .event event
  case tick => exact hstep ▸ .tick
  case endEvents failure => exact hstep.2 ▸ .endEvents failure
  case requestRetry =>
    split at hstep
    · exact Option.some.inj hstep ▸ .requestNothing
    · next hopen =>
      obtain ⟨hclosed, hgate⟩ := not_or.mp hopen
      exact Option.some.inj hstep ▸ .requestRetry (by simpa using hclosed) (by simpa using hgate)
  case respond request answer => exact hstep.2 ▸ .respond request answer
  case rejectRequest request => exact hstep.2 ▸ .rejectRequest request
  case activate operation generation => exact hstep ▸ .activate operation generation
  case reject message => exact hstep ▸ .reject message
  case dispatch action => exact hstep.2 ▸ .dispatch action hstep.1
  case readThread index answer =>
    split at hstep
    · next r hr => exact Option.some.inj hstep ▸ .readThread index answer r hr
    · cases hstep
  case close =>
    split at hstep
    · exact Option.some.inj hstep ▸ .closeAgain
    · exact Option.some.inj hstep ▸ .close
  case finishClose => exact hstep.2 ▸ .finishClose

/-- No action of a controller restores its connection. -/
theorem lost_act (h : c.fatalFault = some fault) (hstep : c.act parse eventBytes action = some next) :
    next.fatalFault = some fault := by
  cases acts_of_act hstep with
  | event event => exact lost_consume h event
  | tick => exact lost_emit h _ _
  | endEvents failure => exact lost_endEvents h failure
  | respond request answer =>
    exact lost_respondRetry (c := { c with awaiting := c.awaiting.erase request }) h request answer
  | rejectRequest request =>
    exact lost_respondRetry (c := { c with awaiting := c.awaiting.erase request }) h request none
  | activate operation generation => exact lost_activateThreadRetry h operation generation
  | reject message => exact lost_failProtocol (c := { c with retryGate := none }) h _ _
  | dispatch action => exact lost_dispatch h action
  | readThread index answer r =>
    exact lost_readAnswered
      (c := { c with reconciliations := c.reconciliations.eraseIdx index }) h r answer
  | finishClose => exact lost_dispatch h _
  | requestNothing | requestRetry | closeAgain | close => exact h

/-- No step restores a connection. -/
theorem lost_step
    (h : c.fatalFault = some fault) (hstep : c.step parse eventBytes action = some next) :
    next.fatalFault = some fault := by
  unfold step at hstep
  split at hstep
  · exact lost_act h hstep
  · next event rest _ =>
    obtain ⟨-, hnext⟩ := Option.ite_none_right_eq_some.mp hstep
    exact Option.some.inj hnext ▸ lost_replayNext h event rest

end SurfaceController

end AwesomeAgent.Surface
