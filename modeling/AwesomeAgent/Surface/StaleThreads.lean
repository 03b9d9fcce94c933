import AwesomeAgent.Surface.LateEvents

/-!
# Replaced Threads and their Operations

An Operation may go on after its Thread was replaced. Its events and the reconciliation of its Turn
leave the new Thread alone. They lose the connection when a retry of another Operation is bound or
decided, and when the projection that was taken for the reconciliation names no Operation and no
Turn: then the answer cannot be reconciled.
-/

namespace AwesomeAgent.Surface

namespace SurfaceController

/-! ## What belongs to an earlier Thread -/

/-- Whether an event belongs to an Operation of an earlier Thread. -/
def isLate (c : SurfaceController) (event : EventEnvelope) : Bool :=
  (c.dispatcher.eventGeneration (.event event)).1 ≠ c.state.threadGeneration

/-- The event that a step accepts or holds. -/
def handled (c : SurfaceController) (action : ControllerAction) : Option EventEnvelope :=
  match c.replaying, action with
  | event :: _, .replay => some event
  | [], .event event => some event
  | _, _ => none

/-- The reconciliation that a step reads the durable Thread for, with the answer. -/
def readFor (c : SurfaceController) (action : ControllerAction) :
    Option (Reconciliation × ThreadReadAnswer) :=
  match action with
  | .readThread index answer => c.reconciliations[index]?.map fun r => (r, answer)
  | _ => none

/-- The gate that a step opens, with the decision. -/
def opened (c : SurfaceController) (action : ControllerAction) :
    Option (ThreadRetryGate × Option ThreadRetryOperation) :=
  match c.retryGate, action with
  | some gate, .respond request none => if gate.request = request then some (gate, none) else none
  | some gate, .rejectRequest request => if gate.request = request then some (gate, none) else none
  | some gate, .activate operation generation =>
      if gate.expected = some operation ∧ c.state.threadGeneration = generation ∧
          c.state.application.bind ApplicationState.currentThreadId = some operation.threadId then
        some (gate, some operation)
      else none
  | _, _ => none

/-- Whether a held event does not fit the decision on a retry. -/
def misfits (c : SurfaceController) (expected : Option ThreadRetryOperation)
    (event : EventEnvelope) : Bool :=
  match expected with
  | some operation => operation.disagrees event
  | none => event.threadId.isSome ∧
      event.threadId ≠ c.state.application.bind ApplicationState.currentThreadId

/-! ## The condition -/

/-- An event can be taken: a gate has room for it, or the stream is in order and the retry that is
bound does not disagree. -/
def Takes (eventBytes : EventEnvelope → Nat) (c : SurfaceController) (event : EventEnvelope) :
    Prop :=
  match c.replaying, c.retryGate with
  | [], some gate => gate.events.length < threadRetryEventLimit ∧
      gate.bytes + eventBytes event ≤ threadRetryByteLimit
  | _, _ => (c.batcher.accept event).1.guard.fault = none ∧
      ∀ binding ∈ c.activeRetryBinding, binding.disagrees event = false

/-- An answer can be reconciled: the projection of a Turn that a page is merged into names the
Operation and the Turn, and a request fails only when both sides are closed. -/
def Reconcilable (r : Reconciliation) (surfaceClosed : Bool) : ThreadReadAnswer → Prop
  | .page _ => (present r.live.operationId).isSome = true ∧ (present r.live.turnId).isSome = true
  | .error _ => True
  | .failed _ closed => surfaceClosed = true ∧ closed = true

/-- The condition on what belongs to an earlier Thread, as long as the connection is not lost. -/
def LateFits (eventBytes : EventEnvelope → Nat) (c : SurfaceController)
    (action : ControllerAction) : Prop :=
  c.fatalFault = none →
  (∀ event ∈ c.handled action, c.isLate event = true → c.Takes eventBytes event) ∧
  (∀ read ∈ c.readFor action, read.1.generation ≠ c.state.threadGeneration →
    Reconcilable read.1 c.closed read.2) ∧
  (∀ opening ∈ c.opened action, ∀ event ∈ opening.1.events, c.isLate event = true →
    c.misfits opening.2 event = false)

instance (eventBytes : EventEnvelope → Nat) (c : SurfaceController) (event : EventEnvelope) :
    Decidable (c.Takes eventBytes event) := by
  unfold Takes
  exact match c.replaying, c.retryGate with
    | [], some _ => inferInstanceAs (Decidable (_ ∧ _))
    | [], none => inferInstanceAs (Decidable (_ ∧ _))
    | _ :: _, _ => inferInstanceAs (Decidable (_ ∧ _))

instance (r : Reconciliation) (surfaceClosed : Bool) (answer : ThreadReadAnswer) :
    Decidable (Reconcilable r surfaceClosed answer) := by
  unfold Reconcilable
  cases answer with
  | page _ => exact inferInstanceAs (Decidable (_ ∧ _))
  | error _ => exact inferInstanceAs (Decidable True)
  | failed _ _ => exact inferInstanceAs (Decidable (_ ∧ _))

instance (eventBytes : EventEnvelope → Nat) (c : SurfaceController) (action : ControllerAction) :
    Decidable (c.LateFits eventBytes action) := by
  unfold LateFits
  exact inferInstanceAs (Decidable (_ → _ ∧ _ ∧ _))

/-- What a step that handles something of an earlier Thread does not do: lose the connection. A
gate is opened without a loss unless an event of the current Thread does not fit. -/
structure Blameless (c : SurfaceController) (action : ControllerAction)
    (next : SurfaceController) : Prop where
  event : ∀ event ∈ c.handled action, c.isLate event = true → next.fatalFault = c.fatalFault
  read : ∀ read ∈ c.readFor action, read.1.generation ≠ c.state.threadGeneration →
    next.fatalFault = c.fatalFault
  opening : ∀ opening ∈ c.opened action, next.fatalFault = c.fatalFault ∨
    ∃ event ∈ opening.1.events, c.isLate event = false ∧ c.misfits opening.2 event = true

variable {parse : DateParse} {eventBytes : EventEnvelope → Nat} {c : SurfaceController}

/-! ## Steps -/

variable {event : EventEnvelope} {r : Reconciliation} {answer : ThreadReadAnswer}
  {gate : ThreadRetryGate} {expected : Option ThreadRetryOperation} {action : ControllerAction}
  {next : SurfaceController}

private theorem fatalFault_acceptEvent (hguard : (c.batcher.accept event).1.guard.fault = none)
    (hbinding : ∀ binding ∈ c.activeRetryBinding, binding.disagrees event = false) :
    ∃ next, c.acceptEvent parse event = (next, none) ∧ next.fatalFault = c.fatalFault := by
  rcases c.acceptEvent_cases event with
    ⟨failure, -, binding, hmem, hdisagrees⟩ | ⟨fault, hfault, -, -⟩ | ⟨-, -, haccept⟩
  · rw [hbinding binding hmem] at hdisagrees
    cases hdisagrees
  · rw [hguard] at hfault
    cases hfault
  · obtain ⟨terminals, reconciliations, binding, hfinish, -⟩ :=
      (c.afterBatcher parse event).finishTerminal_cases event
    exact ⟨_, haccept, by rw [hfinish]; rfl⟩

private theorem fatalFault_consume (hidle : c.replaying = []) (h : c.Takes eventBytes event) :
    (c.consume parse eventBytes event).fatalFault = c.fatalFault := by
  unfold SurfaceController.consume
  split
  · rfl
  · cases hgate : c.retryGate with
    | some gate =>
      simp only [Takes, hidle, hgate] at h
      have hroom : ¬(threadRetryEventLimit ≤ gate.events.length ∨
          threadRetryByteLimit < gate.bytes + eventBytes event) := by omega
      simp only [bufferRetryEvent, if_neg hroom]
      rfl
    | none =>
      simp only [Takes, hidle, hgate] at h
      obtain ⟨next, haccept, hfault⟩ := fatalFault_acceptEvent (c := c.take event) h.1 h.2
      rw [haccept]
      exact hfault

private theorem fatalFault_replayNext {rest : List EventEnvelope}
    (hreplaying : c.replaying = event :: rest) (h : c.Takes eventBytes event) :
    (c.replayNext parse event rest).fatalFault = c.fatalFault := by
  simp only [Takes, hreplaying] at h
  obtain ⟨next, haccept, hfault⟩ := fatalFault_acceptEvent (c := { c with replaying := rest })
    h.1 h.2
  rw [replayNext, haccept]
  exact hfault

private theorem fatalFault_installReconciled
    (hlate : r.generation ≠ c.state.threadGeneration) (result : TerminalTurnReconciliation)
    (thread : Option ThreadPage) :
    (c.installReconciled parse r result thread).fatalFault = c.fatalFault := by
  simp only [installReconciled, dispatch, surfaceReducer, if_neg hlate]
  rfl

private theorem fatalFault_readAnswered
    (hlate : r.generation ≠ c.state.threadGeneration) (h : Reconcilable r c.closed answer) :
    (c.readAnswered parse r answer).fatalFault = c.fatalFault := by
  cases answer with
  | page page =>
    obtain ⟨operationId, hoperation⟩ := Option.isSome_iff_exists.mp h.1
    obtain ⟨turnId, hturn⟩ := Option.isSome_iff_exists.mp h.2
    have hresult : ∃ result, reconcileTerminalTurn r.live page = .ok result := by
      simp only [reconcileTerminalTurn, hoperation, hturn]
      cases validateDurableTurn r.live page turnId with
      | ok turn => exact ⟨_, rfl⟩
      | error failure => exact ⟨_, rfl⟩
    obtain ⟨result, hresult⟩ := hresult
    simp only [readAnswered, hresult]
    exact fatalFault_installReconciled hlate result _
  | error message => exact fatalFault_installReconciled hlate _ _
  | failed message closed => simp [readAnswered, h.1, h.2]

private theorem fatalFault_releaseRetryGate {generation : Nat}
    (h : ∀ event ∈ gate.events, c.misfits expected event = false) :
    (c.releaseRetryGate gate generation expected).fatalFault = c.fatalFault := by
  have hvalid : c.validateBufferedRetryEvents gate expected = none := by
    have hany : gate.events.any (c.misfits expected) = false := by
      simpa using h
    cases expected with
    | some operation =>
      have hagree : gate.events.any (fun event => operation.disagrees event) = false := hany
      simp [validateBufferedRetryEvents, hagree]
    | none =>
      have hagree : (gate.events.any fun event => decide (event.threadId.isSome ∧
          event.threadId ≠ c.state.application.bind ApplicationState.currentThreadId)) = false :=
        hany
      simp only [validateBufferedRetryEvents, hagree, Bool.false_eq_true, if_false]
  simp only [releaseRetryGate, hvalid]
  cases expected with
  | some operation => rfl
  | none => rfl

private theorem opening_of_fits {generation : Nat}
    (h : ∀ event ∈ gate.events, c.isLate event = true → c.misfits expected event = false) :
    (c.releaseRetryGate gate generation expected).fatalFault = c.fatalFault ∨
      ∃ event ∈ gate.events, c.isLate event = false ∧ c.misfits expected event = true := by
  by_cases hmisfit : ∃ event ∈ gate.events, c.misfits expected event = true
  · obtain ⟨event, hevent, hmisfits⟩ := hmisfit
    refine .inr ⟨event, hevent, ?_, hmisfits⟩
    cases hlate : c.isLate event with
    | false => rfl
    | true => exact absurd (h event hevent hlate) (by simp [hmisfits])
  · refine .inl (fatalFault_releaseRetryGate fun event hevent => ?_)
    simpa using fun hmisfits => hmisfit ⟨event, hevent, hmisfits⟩

private theorem blameless_event (hhandled : c.handled action = some event)
    (hread : c.readFor action = none) (hopened : c.opened action = none)
    (h : c.isLate event = true → next.fatalFault = c.fatalFault) : Blameless c action next where
  event := by
    rintro other hother hlate
    rw [hhandled] at hother
    cases hother
    exact h hlate
  read := by
    intro read hmem
    rw [hread] at hmem
    cases hmem
  opening := by
    intro opening hmem
    rw [hopened] at hmem
    cases hmem

private theorem blameless_read (hhandled : c.handled action = none)
    (hread : c.readFor action = some (r, answer)) (hopened : c.opened action = none)
    (h : r.generation ≠ c.state.threadGeneration → next.fatalFault = c.fatalFault) :
    Blameless c action next where
  event := by
    intro event hevent
    rw [hhandled] at hevent
    cases hevent
  read := by
    rintro read hread' hlate
    rw [hread] at hread'
    cases hread'
    exact h hlate
  opening := by
    intro opening hmem
    rw [hopened] at hmem
    cases hmem

private theorem blameless_opening (hhandled : c.handled action = none)
    (hread : c.readFor action = none)
    (h : ∀ opening ∈ c.opened action, next.fatalFault = c.fatalFault ∨
      ∃ event ∈ opening.1.events, c.isLate event = false ∧ c.misfits opening.2 event = true) :
    Blameless c action next where
  event := by
    intro event hevent
    rw [hhandled] at hevent
    cases hevent
  read := by
    intro read hmem
    rw [hread] at hmem
    cases hmem
  opening := h

private theorem gate_of_opened {opening : ThreadRetryGate × Option ThreadRetryOperation}
    (hopening : opening ∈ c.opened action) : c.retryGate = some opening.1 := by
  unfold opened at hopening
  split at hopening
  · next hgate =>
    cases (Option.ite_none_right_eq_some.mp hopening).2
    exact hgate
  · next hgate =>
    cases (Option.ite_none_right_eq_some.mp hopening).2
    exact hgate
  · next hgate =>
    cases (Option.ite_none_right_eq_some.mp hopening).2
    exact hgate
  · cases hopening

private theorem opening_respondRetry {request : Nat} (awaiting : List Nat)
    {opening : ThreadRetryGate × Option ThreadRetryOperation}
    (hopening : opening ∈ c.opened (.rejectRequest request))
    (h : ∀ event ∈ opening.1.events, c.isLate event = true → c.misfits opening.2 event = false) :
    ({ c with awaiting := awaiting }.respondRetry request none).fatalFault = c.fatalFault ∨
      ∃ event ∈ opening.1.events, c.isLate event = false ∧ c.misfits opening.2 event = true := by
  obtain ⟨gate, expected⟩ := opening
  have hgate : c.retryGate = some gate := gate_of_opened hopening
  simp only [opened, hgate] at hopening
  obtain ⟨hrequest, hpair⟩ := Option.ite_none_right_eq_some.mp hopening
  cases hpair
  have hfits : ({ c with awaiting := awaiting }.releaseRetryGate gate c.state.threadGeneration
      none).fatalFault = c.fatalFault ∨
        ∃ event ∈ gate.events, c.isLate event = false ∧ c.misfits none event = true :=
    opening_of_fits (c := { c with awaiting := awaiting }) h
  simp only [respondRetry, hgate, hrequest, if_true]
  exact hfits

private theorem opening_activate {operation : ThreadRetryOperation} {generation : Nat}
    {opening : ThreadRetryGate × Option ThreadRetryOperation}
    (hopening : opening ∈ c.opened (.activate operation generation))
    (h : ∀ event ∈ opening.1.events, c.isLate event = true → c.misfits opening.2 event = false) :
    (c.activateThreadRetry operation generation).fatalFault = c.fatalFault ∨
      ∃ event ∈ opening.1.events, c.isLate event = false ∧ c.misfits opening.2 event = true := by
  obtain ⟨gate, expected⟩ := opening
  have hgate : c.retryGate = some gate := gate_of_opened hopening
  simp only [opened, hgate] at hopening
  obtain ⟨⟨hexpected, hgeneration, hthread⟩, hpair⟩ := Option.ite_none_right_eq_some.mp hopening
  cases hpair
  simp only [activateThreadRetry, hgate, hexpected, hgeneration, hthread, and_self, if_true]
  exact opening_of_fits h

private theorem opened_none (h : (∀ request, action ≠ .respond request none) ∧
      (∀ request, action ≠ .rejectRequest request) ∧
      ∀ operation generation, action ≠ .activate operation generation) :
    c.opened action = none := by
  unfold opened
  split
  · next request _ => exact absurd rfl (h.1 request)
  · next request _ => exact absurd rfl (h.2.1 request)
  · next operation generation _ => exact absurd rfl (h.2.2 operation generation)
  · rfl

/-- A step whose condition holds loses no connection for an earlier Thread. -/
theorem blameless_act (hidle : c.replaying = []) (hconnected : c.fatalFault = none)
    (hfits : c.LateFits eventBytes action)
    (hstep : c.act parse eventBytes action = some next) : Blameless c action next := by
  have h := hfits hconnected
  have hhandled (hevent : ∀ event, action ≠ .event event) : c.handled action = none := by
    cases action with
    | event event => exact absurd rfl (hevent event)
    | _ => simp [handled, hidle]
  have hquiet (hevent : ∀ event, action ≠ .event event)
      (hread : ∀ index answer, action ≠ .readThread index answer)
      (hopen : c.opened action = none) : Blameless c action next := by
    refine blameless_opening (hhandled hevent) ?_ fun opening hmem => ?_
    · unfold readFor
      split
      · next index answer => exact absurd rfl (hread index answer)
      · rfl
    · rw [hopen] at hmem
      cases hmem
  cases acts_of_act hstep with
  | event event =>
    have htaken : c.handled (.event event) = some event := by
      simp [handled, hidle]
    refine blameless_event htaken rfl (opened_none ⟨by simp, by simp, by simp⟩) fun hlate => ?_
    exact fatalFault_consume hidle (h.1 event htaken hlate)
  | readThread index answer r hr =>
    have hread : c.readFor (.readThread index answer) = some (r, answer) := by
      rw [readFor, hr]
      rfl
    refine blameless_read (hhandled (by simp)) hread (opened_none ⟨by simp, by simp, by simp⟩)
      fun hlate => ?_
    exact fatalFault_readAnswered
      (c := { c with reconciliations := c.reconciliations.eraseIdx index }) hlate
      (h.2.1 (r, answer) hread hlate)
  | respond request answer =>
    refine blameless_opening (hhandled (by simp)) (by simp [readFor]) fun opening hopening => ?_
    cases answer with
    | some operation =>
      rw [opened_none ⟨by simp, by simp, by simp⟩] at hopening
      cases hopening
    | none =>
      have hrefused : c.opened (.respond request none) = c.opened (.rejectRequest request) := by
        unfold opened
        cases c.retryGate <;> rfl
      exact opening_respondRetry _ (hrefused ▸ hopening) (h.2.2 opening hopening)
  | rejectRequest request =>
    exact blameless_opening (hhandled (by simp)) (by simp [readFor]) fun opening hopening =>
      opening_respondRetry _ hopening (h.2.2 opening hopening)
  | activate operation generation =>
    exact blameless_opening (hhandled (by simp)) (by simp [readFor]) fun opening hopening =>
      opening_activate hopening (h.2.2 opening hopening)
  | _ => exact hquiet (by simp) (by simp) (opened_none ⟨by simp, by simp, by simp⟩)

private theorem blameless_of_kept (h : next.fatalFault = c.fatalFault) : Blameless c action next :=
  ⟨fun _ _ _ => h, fun _ _ _ => h, fun _ _ => .inl h⟩

private theorem blameless_step
    (h : c.LateFits eventBytes action) (hstep : c.step parse eventBytes action = some next) :
    Blameless c action next := by
  cases hconnected : c.fatalFault with
  | some fault => exact blameless_of_kept (by rw [hconnected, lost_step hconnected hstep])
  | none =>
    unfold SurfaceController.step at hstep
    cases hreplaying : c.replaying with
    | nil =>
      rw [hreplaying] at hstep
      exact blameless_act hreplaying hconnected h hstep
    | cons event rest =>
      rw [hreplaying] at hstep
      obtain ⟨rfl, hnext⟩ := Option.ite_none_right_eq_some.mp hstep
      have htaken : c.handled .replay = some event := by
        simp [handled, hreplaying]
      refine blameless_event htaken rfl (opened_none ⟨by simp, by simp, by simp⟩) fun hlate => ?_
      rw [← Option.some.inj hnext]
      exact fatalFault_replayNext hreplaying ((h hconnected).1 event htaken hlate)

private theorem replayed_connected : Replayed parse connected.dispatcher connected.history :=
  ⟨rfl, _, rfl, .refl _⟩

end SurfaceController

open SurfaceController in
/-- In every state that a run reaches, the state of the Surface is the one that the history leads to
without what was received of Operations of earlier Threads and without their reconciliations, but
for a later sequence number; and no step that handles something of an earlier Thread loses the
connection, if it can be taken. -/
theorem late_events_harmless (parse : DateParse) (eventBytes : EventEnvelope → Nat)
    {c : SurfaceController} (hrun : Run (step parse eventBytes) (LateFits eventBytes) connected c) :
    (∃ s, timelyState parse c.history = .ok s ∧ s.AdvancedTo c.state) ∧
    ∀ action next, c.LateFits eventBytes action →
      c.step parse eventBytes action = some next → Blameless c action next := by
  have hreplayed : Replayed parse c.dispatcher c.history := by
    refine hrun.invariant (I := fun c => Replayed parse c.dispatcher c.history) replayed_connected
      fun t action u h _ hstep => ?_
    have hmoved : Moved parse t.dispatcher t.history u.dispatcher u.history := from_step hstep
    exact h.moved hmoved
  exact ⟨hreplayed.state, fun action next h hstep => blameless_step h hstep⟩

/-- An event of an Operation in a Thread. -/
def threadEvent (name : String) (sequence : Nat) (payload : EventPayload) : EventEnvelope where
  sequence := sequence
  sessionId := "session_1"
  threadId := some ("thread_" ++ name)
  turnId := some ("turn_" ++ name)
  operationId := some ("operation_" ++ name)
  clientMessageId := none
  timestamp := "2026-07-11T08:00:00Z"
  payload := payload
  identified := by cases payload <;> rfl
  nonempty := by simp [String.ext_iff]

/-- A Thread with one cancelled Turn. -/
def threadPage (name : String) : ThreadPage :=
  ⟨⟨"thread_" ++ name, "Thread"⟩, [],
    [⟨"turn_" ++ name, .ended .cancelled, none, some "Turn cancelled", none⟩], [], [], false⟩

/-- An Operation starts, its Thread is replaced, something happens in the new Thread, and the
Operation ends. -/
def replacedActions (between : List ControllerAction) : List ControllerAction :=
  [.event (threadEvent "old" 1 .operationStarted), .event (threadEvent "old" 2 .turnStarted),
    .dispatch (.threadReplaced ⟨some "thread_new"⟩ (threadPage "new") [])] ++ between ++
  [.event (threadEvent "old" (between.length + 3) (.operationTerminal .cancelled))]

/-- The answer to the read of the old Thread. -/
def oldThreadRead : ControllerAction := .readThread 0 (.page (threadPage "old"))

open SurfaceController in
/-- An Operation of an old Thread ends while an Operation of the new Thread runs. -/
theorem late_events_harmless_beside_operation : ∃ c,
    (replacedActions [.event (threadEvent "new" 3 .operationStarted),
      .event (threadEvent "new" 4 .turnStarted)] ++ [oldThreadRead]).foldlM
      (Run.checked (step (fun _ => 0) fun _ => 0) (LateFits fun _ => 0)) connected = some c ∧
    c.state.activeOperation.map OperationProjection.id = some "operation_new" ∧
    c.fatalFault = none ∧
    ∃ s, timelyState (fun _ => 0) c.history = .ok s ∧ s.AdvancedTo c.state := by
  have h : ((replacedActions [.event (threadEvent "new" 3 .operationStarted),
      .event (threadEvent "new" 4 .turnStarted)] ++ [oldThreadRead]).foldlM
      (Run.checked (step (fun _ => 0) fun _ => 0) (LateFits fun _ => 0)) connected).map
      (fun c => (c.state.activeOperation.map OperationProjection.id, c.fatalFault)) =
        some (some "operation_new", none) := by decide
  obtain ⟨c, hc, hfields⟩ := Option.map_eq_some_iff.mp h
  obtain ⟨hoperation, hfault⟩ := Prod.mk.inj hfields
  exact ⟨c, hc, hoperation, hfault,
    (late_events_harmless (fun _ => 0) (fun _ => 0) (Run.of_checked hc)).1⟩

open SurfaceController in
/-- The end of an Operation whose Thread was replaced loses the connection when nothing runs in the
new Thread: the projection for its reconciliation names no Operation. -/
theorem late_terminal_loses_connection : ∃ c next,
    (replacedActions []).foldlM (step (fun _ => 0) fun _ => 0) connected = some c ∧
    c.fatalFault = none ∧ c.step (fun _ => 0) (fun _ => 0) oldThreadRead = some next ∧
    next.fatalFault = some "Terminal reconciliation requires Operation and Turn identities." ∧
    ¬c.Blameless oldThreadRead next := by
  have h : ((replacedActions []).foldlM (step (fun _ => 0) fun _ => 0) connected).map
      (fun c => (c.fatalFault, c.state.threadGeneration, c.reconciliations.map (·.generation),
        (c.step (fun _ => 0) (fun _ => 0) oldThreadRead).map (·.fatalFault))) =
      some (none, 1, [0],
        some (some "Terminal reconciliation requires Operation and Turn identities.")) := by
    decide
  obtain ⟨c, hc, hfields⟩ := Option.map_eq_some_iff.mp h
  simp only [Prod.mk.injEq] at hfields
  obtain ⟨hfault, hcurrent, hgenerations, hnext⟩ := hfields
  obtain ⟨next, hstep, hlost⟩ := Option.map_eq_some_iff.mp hnext
  refine ⟨c, next, hc, hfault, hstep, hlost, fun hblameless => ?_⟩
  obtain ⟨r, hr, hgeneration⟩ := List.map_eq_singleton_iff.mp hgenerations
  have hread : c.readFor oldThreadRead = some (r, .page (threadPage "old")) := by
    simp [readFor, oldThreadRead, hr]
  have hkept := hblameless.read _ hread (by rw [hgeneration, hcurrent]; decide)
  rw [hlost, hfault] at hkept
  cases hkept

end AwesomeAgent.Surface
