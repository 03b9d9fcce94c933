import AwesomeAgent.Surface.ControllerSteps

/-!
# The retry gate

While a retry is not decided its events are held, and afterwards they are accepted in the
order of their arrival. What is dispatched takes the generation in which its Operation
started or was activated. A retry that was activated stays bound until its terminal event,
if that event tells its Thread and its Turn.
-/

namespace AwesomeAgent.Surface

variable {parse : DateParse} {eventBytes : EventEnvelope → Nat}

/-- What a dispatch received from the batcher, and under which generation. -/
def HistoryItem.received : HistoryItem → Option (BatchedEvent × Nat)
  | .dispatched (.received value generation) => some (value, generation)
  | _ => none

/-- What was applied, with its generation. -/
def applied (history : List HistoryItem) : List (BatchedEvent × Nat) :=
  history.filterMap HistoryItem.received

/-- The current generation, and the generations of the Operations. -/
structure Generations where
  current : Nat
  operations : Dict String Nat

/-- What an item of the history does to the generations: a Thread is replaced, an Operation
starts in the current generation, or a retry is activated in its own. -/
def Generations.track (g : Generations) : HistoryItem → Generations
  | .dispatched (.threadReplaced ..) => { g with current := g.current + 1 }
  | .dispatched (.received (.event event) _) =>
      if event.payload = .operationStarted then
        { g with operations :=
            match event.operationId with
            | some operationId => g.operations.set operationId g.current
            | none => g.operations }
      else g
  | .activated operation generation =>
      { g with operations := g.operations.set operation.operationId generation }
  | _ => g

/-- The generations after a history. -/
def generationsAfter (history : List HistoryItem) : Generations :=
  history.foldl Generations.track ⟨0, .empty⟩

/-- The generation of a value: the current one for a start, and that of its Operation. -/
def Generations.due (g : Generations) (value : BatchedEvent) : Nat :=
  match value with
  | .event event =>
      if event.payload = .operationStarted then g.current
      else (event.operationId.bind g.operations.get?).getD g.current
  | .delta delta => (delta.operationId.bind g.operations.get?).getD g.current

/-- What is applied has the generation of its Operation, and nothing of an activated retry
was applied before. -/
def HistoryLaw (earlier : List HistoryItem) : HistoryItem → Prop
  | .dispatched (.received value generation) => generation = (generationsAfter earlier).due value
  | .activated operation _ =>
      ∀ value ∈ (applied earlier).map Prod.fst, value.operationId ≠ some operation.operationId
  | _ => True

/-- The dispatcher stands where the history leads, and every item is lawful. -/
structure Logged (d : Dispatcher) (history : List HistoryItem) : Prop where
  tracked : generationsAfter history = ⟨d.state.threadGeneration, d.operationGenerations⟩
  lawful : Throughout HistoryLaw history

/-- Generations are tracked item by item. -/
theorem generationsAfter_concat (history : List HistoryItem) (item : HistoryItem) :
    generationsAfter (history ++ [item]) = (generationsAfter history).track item := by
  simp [generationsAfter]

variable {d : Dispatcher} {history : List HistoryItem}

/-- An event is due when the dispatcher lets it through. -/
theorem due_eq_of_tracked
    (h : generationsAfter history = ⟨d.state.threadGeneration, d.operationGenerations⟩)
    (value : BatchedEvent) :
    (generationsAfter history).due value = (d.eventGeneration value).1 := by
  rw [h]
  cases value with
  | event event =>
    simp only [Generations.due, Dispatcher.eventGeneration, Dispatcher.generationOf]
    split <;> rfl
  | delta delta => rfl

/-- What the dispatcher emits is tracked. -/
theorem tracked_emit
    (h : generationsAfter history = ⟨d.state.threadGeneration, d.operationGenerations⟩)
    (value : BatchedEvent) :
    generationsAfter (history ++ [.dispatched (.received value (d.eventGeneration value).1)]) =
      ⟨(d.dispatchBatched parse value).state.threadGeneration,
        (d.dispatchBatched parse value).operationGenerations⟩ := by
  have hsame : (d.dispatchBatched parse value).state.threadGeneration =
      d.state.threadGeneration := (sameThread_receive d.state value _).threadGeneration
  rw [generationsAfter_concat, h, hsame]
  cases value with
  | delta delta => rfl
  | event event =>
    by_cases hstart : event.payload = .operationStarted
    · cases hoperation : event.operationId <;>
        simp [Generations.track, Dispatcher.dispatchBatched, Dispatcher.eventGeneration, hstart,
          hoperation]
    · simp [Generations.track, Dispatcher.dispatchBatched, Dispatcher.eventGeneration, hstart]

/-- What the dispatcher records is tracked. -/
theorem tracked_record {action : SurfaceAction} {state : SurfaceState}
    (h : generationsAfter history = ⟨d.state.threadGeneration, d.operationGenerations⟩)
    (haction : (HistoryItem.dispatched action).received = none)
    (hstate : state.threadGeneration =
      ((⟨d.state.threadGeneration, d.operationGenerations⟩ : Generations).track
        (.dispatched action)).current) :
    generationsAfter (history ++ [.dispatched action]) =
      ⟨state.threadGeneration, d.operationGenerations⟩ := by
  rw [generationsAfter_concat, h, hstate]
  cases action with
  | received => cases haction
  | _ => rfl

namespace Logged

variable {d : Dispatcher} {history : List HistoryItem}

private theorem emit (h : Logged d history) (value : BatchedEvent) :
    Logged (d.dispatchBatched parse value)
      (history ++ [.dispatched (.received value (d.eventGeneration value).1)]) :=
  ⟨tracked_emit h.tracked value,
    h.lawful.concat (due_eq_of_tracked h.tracked value).symm⟩

private theorem emissions (h : Logged d history) (values : List BatchedEvent) :
    Logged (d.dispatchAll parse values) (history ++ d.emissions parse values) := by
  induction values generalizing d history with
  | nil => simpa [Dispatcher.emissions, Dispatcher.dispatchAll] using h
  | cons value rest ih =>
    have hfirst : Logged (d.dispatchBatched parse value) _ := h.emit value
    have hrest := ih hfirst
    rwa [List.append_assoc] at hrest

private theorem record (h : Logged d history) {action : SurfaceAction} {state : SurfaceState}
    (haction : (HistoryItem.dispatched action).received = none)
    (hstate : state.threadGeneration =
      ((⟨d.state.threadGeneration, d.operationGenerations⟩ : Generations).track
        (.dispatched action)).current) :
    Logged { d with state } (history ++ [.dispatched action]) := by
  refine ⟨tracked_record (d := d) h.tracked haction hstate, h.lawful.concat ?_⟩
  cases action with
  | received => cases haction
  | _ => trivial

private theorem activate (h : Logged d history) (operation : ThreadRetryOperation)
    (generation : Nat)
    (hfresh : ∀ value ∈ (applied history).map Prod.fst,
      value.operationId ≠ some operation.operationId) :
    Logged { d with operationGenerations :=
        d.operationGenerations.set operation.operationId generation }
      (history ++ [.activated operation generation]) := by
  refine ⟨?_, h.lawful.concat hfresh⟩
  rw [generationsAfter_concat, h.tracked]
  rfl

end Logged

private theorem applied_append (xs ys : List HistoryItem) : applied
    (xs ++ ys) = applied xs ++ applied ys :=
  List.filterMap_append

private theorem applied_emissions (d : Dispatcher) (values : List BatchedEvent) :
    (applied (d.emissions parse values)).map Prod.fst = values := by
  induction values generalizing d with
  | nil => rfl
  | cons value rest ih =>
    change value :: (applied ((d.dispatchBatched parse value).emissions parse rest)).map Prod.fst =
      value :: rest
    rw [ih]

private theorem Coalesces.operationId_mem {events : List EventEnvelope} {values : List BatchedEvent}
    (h : Coalesces events values) :
    ∀ value ∈ values, ∃ event ∈ events, event.operationId = value.operationId := by
  have halone (event : EventEnvelope) : event.alone.operationId = event.operationId := by
    unfold EventEnvelope.alone EventEnvelope.projectDelta
    dsimp only
    cases event.payload <;> rfl
  induction h with
  | nil => exact fun _ h => absurd h List.not_mem_nil
  | alone event _ ih =>
    intro value hvalue
    rcases List.mem_append.mp hvalue with hv | hv
    · obtain ⟨e, he, hid⟩ := ih value hv
      exact ⟨e, List.mem_append_left _ he, hid⟩
    · obtain rfl := List.mem_singleton.mp hv
      exact ⟨event, List.mem_append_right _ (List.mem_singleton_self _), (halone event).symm⟩
  | @join events values p d event _ _ _ _ ih =>
    intro value hvalue
    have hearlier : ∃ e ∈ events, e.operationId = value.operationId := by
      rcases List.mem_append.mp hvalue with hv | hv
      · exact ih value (List.mem_append_left _ hv)
      · obtain ⟨e, he, hid⟩ := ih (.delta p) (List.mem_append_right _ (List.mem_singleton_self _))
        have hjoined : value.operationId = p.operationId := by rw [List.mem_singleton.mp hv]; rfl
        exact ⟨e, he, by rw [hjoined]; exact hid⟩
    obtain ⟨e, he, hid⟩ := hearlier
    exact ⟨e, List.mem_append_left _ he, hid⟩

namespace SurfaceController

/-- Events that a gate holds. -/
def held (c : SurfaceController) : List EventEnvelope :=
  (c.retryGate.map ThreadRetryGate.events).getD []

/-- What holds of a controller whatever its gate has done; some events are owed that were
taken and are neither accepted nor held. -/
structure Orderly (c : SurfaceController) (owed : List EventEnvelope) : Prop where
  logged : Logged c.dispatcher c.history
  batched : c.batcher.Batched c.accepted ((applied c.history).map Prod.fst)
  kept : c.fatalFault.isSome = true ∨ c.closed = true ∨
    c.arrived = c.accepted ++ owed ++ c.replaying ++ c.held
  gated : ∀ gate ∈ c.retryGate, c.replaying = [] ∧ c.requests[gate.request]? = some c.accepted ∧
    ∀ operation ∈ gate.expected, ∀ event ∈ c.accepted,
      event.operationId ≠ some operation.operationId
  bound : ∀ operation ∈ c.activeRetryBinding,
    (∃ generation, .activated operation generation ∈ c.history) ∧
    ∀ event ∈ c.accepted, event.payload.endsOperation = true →
      event.operationId ≠ some operation.operationId

/-- The terminal event of a bound retry tells its Thread and its Turn, or the state does. -/
def TerminalKnown (c : SurfaceController) (event : EventEnvelope) : Prop :=
  ∀ operation ∈ c.activeRetryBinding, event.payload.endsOperation = true →
    event.operationId = some operation.operationId →
    (c.terminalThread event).isSome = true ∧ (c.terminalTurn event).isSome = true

instance (c : SurfaceController) (event : EventEnvelope) : Decidable (c.TerminalKnown event) :=
  inferInstanceAs (Decidable (∀ operation ∈ c.activeRetryBinding,
    event.payload.endsOperation = true → event.operationId = some operation.operationId →
      (c.terminalThread event).isSome = true ∧ (c.terminalTurn event).isSome = true))

/-- The condition on the events that a step accepts. -/
def TerminalsKnown (c : SurfaceController) (action : ControllerAction) : Prop :=
  match c.replaying, action with
  | event :: _, .replay => c.TerminalKnown event
  | [], .event event => c.fatalFault = none → c.retryGate = none → c.TerminalKnown event
  | _, _ => True

instance (c : SurfaceController) (action : ControllerAction) :
    Decidable (c.TerminalsKnown action) := by
  unfold TerminalsKnown
  split <;> infer_instance

/-- The core creates the Operation of a retry for its request: what was accepted before the request
does not name it. -/
def RespondsFresh (c : SurfaceController) (action : ControllerAction) : Prop :=
  match action with
  | .respond request (some operation) => ∀ accepted ∈ c.requests[request]?, ∀ event ∈ accepted,
      event.operationId ≠ some operation.operationId
  | _ => True

instance (c : SurfaceController) (action : ControllerAction) :
    Decidable (c.RespondsFresh action) := by
  unfold RespondsFresh
  split <;> infer_instance

namespace Orderly

variable {c : SurfaceController} {owed : List EventEnvelope}

private theorem record (h : Orderly c owed) {action : SurfaceAction} {state : SurfaceState}
    (haction : (HistoryItem.dispatched action).received = none)
    (hstate : state.threadGeneration =
      ((⟨c.state.threadGeneration, c.dispatcher.operationGenerations⟩ : Generations).track
        (.dispatched action)).current) : Orderly (c.record action state) owed := by
  have happlied : applied (c.record action state).history = applied c.history := by
    change applied (c.history ++ [.dispatched action]) = _
    rw [applied_append]
    simp [applied, haction]
  refine ⟨h.logged.record haction hstate, ?_, h.kept, h.gated, fun operation hop => ?_⟩
  · rw [happlied]
    exact h.batched
  · obtain ⟨⟨generation, hmem⟩, hterminal⟩ := h.bound operation hop
    exact ⟨⟨generation, List.mem_append_left _ hmem⟩, hterminal⟩

private theorem lost (h : Orderly c owed) {arrived : List EventEnvelope}
    {gate : Option ThreadRetryGate}
    {binding : Option ThreadRetryOperation} {replaying rest : List EventEnvelope}
    (hgate : gate = none ∨ gate = c.retryGate ∧ (replaying = [] ∨ replaying = c.replaying))
    (hbinding : binding = none ∨ binding = c.activeRetryBinding) {code message : String} :
    Orderly ({ c with
      arrived := arrived
      retryGate := gate
      activeRetryBinding := binding
      replaying := replaying }.failProtocol code message) rest := by
  have hgated : ∀ g ∈ gate, replaying = [] ∧ c.requests[g.request]? = some c.accepted ∧
      ∀ operation ∈ g.expected, ∀ event ∈ c.accepted,
        event.operationId ≠ some operation.operationId := by
    rcases hgate with rfl | ⟨rfl, rfl | rfl⟩
    · nofun
    · exact fun g hg => ⟨rfl, (h.gated g hg).2⟩
    · exact h.gated
  have hbound : ∀ operation ∈ binding,
      (∃ generation, .activated operation generation ∈ c.history) ∧
      ∀ event ∈ c.accepted, event.payload.endsOperation = true →
        event.operationId ≠ some operation.operationId := by
    rcases hbinding with rfl | rfl
    · nofun
    · exact h.bound
  unfold SurfaceController.failProtocol
  split
  · next hfatal => exact ⟨h.logged, h.batched, .inl hfatal, hgated, hbound⟩
  · have hrecorded : Orderly (c.record (.protocolFatal code message)
        (fatal c.state code message)) owed := h.record rfl rfl
    refine ⟨hrecorded.logged, hrecorded.batched, .inl rfl, hgated, fun operation hop => ?_⟩
    obtain ⟨⟨generation, hmem⟩, hterminal⟩ := hbound operation hop
    exact ⟨⟨generation, List.mem_append_left _ hmem⟩, hterminal⟩

private theorem failProtocol (h : Orderly c owed) (code message : String)
    (rest : List EventEnvelope) :
    Orderly (c.failProtocol code message) rest :=
  h.lost (.inr ⟨rfl, .inr rfl⟩) (.inr rfl)

private theorem withConsumer (h : Orderly c owed) (consumer : ConsumerState) :
    Orderly { c with consumer } owed :=
  ⟨h.logged, h.batched, h.kept, h.gated, h.bound⟩

private theorem emit (h : Orderly c owed) {batcher : DeltaBatcher} {values : List BatchedEvent}
    (hbatched : batcher.Batched c.accepted ((applied c.history).map Prod.fst ++ values)) :
    Orderly (values.foldl (SurfaceController.emit parse) { c with batcher }) owed := by
  rw [foldl_emit]
  refine ⟨h.logged.emissions values, ?_, h.kept, h.gated, fun operation hop => ?_⟩
  · change batcher.Batched c.accepted
      ((applied (c.history ++ c.dispatcher.emissions parse values)).map Prod.fst)
    rwa [applied_append, List.map_append, applied_emissions]
  · obtain ⟨⟨generation, hmem⟩, hterminal⟩ := h.bound operation hop
    exact ⟨⟨generation, List.mem_append_left _ hmem⟩, hterminal⟩

end Orderly

variable {c : SurfaceController} {event : EventEnvelope} {gate : ThreadRetryGate}
  {action : SurfaceAction}

private theorem Orderly.acceptEvent (parse : DateParse)
    {owed : List EventEnvelope} (h : Orderly c (event :: owed)) (hgate : c.retryGate = none)
    (hknown : c.TerminalKnown event) :
    (∃ next, c.acceptEvent parse event = (next, none) ∧ Orderly next owed) ∨
      ∃ next failure, c.acceptEvent parse event = (next, some failure) ∧
        Orderly next (event :: owed) := by
  have hbatched := h.batched.accept event
  rcases c.acceptEvent_cases event with
    ⟨failure, haccept, -⟩ | ⟨fault, hfault, hvalues, haccept⟩ | ⟨hfault, -, haccept⟩
  · exact .inr ⟨c, failure, haccept, h⟩
  · refine .inr ⟨_, _, haccept, h.logged, ?_, h.kept, h.gated, h.bound⟩
    simpa [hfault, hvalues] using hbatched
  · obtain ⟨terminals, reconciliations, binding, hfinish, hbinding, hgone⟩ :=
      (c.afterBatcher parse event).finishTerminal_cases event
    refine .inl ⟨_, haccept, ?_⟩
    rw [hfinish]
    refine ⟨h.logged.emissions _, ?_, ?_, fun gate hgate' => ?_, fun operation hop => ?_⟩
    · change (c.batcher.accept event).1.Batched (c.accepted ++ [event])
        ((applied (c.history ++ c.dispatcher.emissions parse _)).map Prod.fst)
      rw [applied_append, List.map_append, applied_emissions]
      simpa [hfault] using hbatched
    · refine h.kept.imp_right fun hk => hk.imp_right fun hk => ?_
      change c.arrived = c.accepted ++ [event] ++ owed ++ c.replaying ++ c.held
      simpa only [List.append_assoc, List.cons_append, List.nil_append] using hk
    · exact absurd (hgate.symm.trans hgate') nofun
    · have hmem : operation ∈ c.activeRetryBinding := by
        rcases hbinding with rfl | rfl
        · cases hop
        · exact hop
      obtain ⟨⟨generation, hactivated⟩, hterminal⟩ := h.bound operation hmem
      refine ⟨⟨generation, List.mem_append_left _ hactivated⟩, fun e he hends hname => ?_⟩
      rcases List.mem_append.mp he with he | he
      · exact hterminal e he hends hname
      · obtain rfl := List.mem_singleton.mp he
        obtain ⟨hthread, hturn⟩ := hknown operation hmem hends hname
        exact hgone hends (by rwa [terminalThread_afterBatcher])
          (by rwa [terminalTurn_afterBatcher c hends]) operation hop hname

private theorem Orderly.bufferRetryEvent (h : Orderly c []) (hgate : c.retryGate = some gate) :
    Orderly ((c.take event).bufferRetryEvent eventBytes gate event) [] := by
  unfold SurfaceController.bufferRetryEvent
  split
  · exact (h.lost (.inl rfl) (.inr rfl)).withConsumer .ending
  · obtain ⟨hidle, hfresh⟩ := h.gated gate hgate
    refine ⟨h.logged, h.batched, ?_, fun g hg => ?_, h.bound⟩
    · refine h.kept.imp_right fun hk => hk.imp_right fun hk => ?_
      have hearlier : c.arrived = c.accepted ++ gate.events := by
        simpa [held, hgate, hidle] using hk
      change c.arrived ++ [event] = c.accepted ++ [] ++ c.replaying ++ (gate.events ++ [event])
      rw [hearlier, hidle, List.append_nil, List.append_nil, List.append_assoc]
    · obtain rfl := Option.some.inj hg
      exact ⟨hidle, hfresh⟩

private theorem Orderly.consume (h : Orderly c []) (hidle : c.replaying = [])
    (hknown : c.fatalFault = none → c.retryGate = none → c.TerminalKnown event) :
    Orderly (c.consume parse eventBytes event) [] := by
  unfold SurfaceController.consume
  split
  · next hfatal => exact ⟨h.logged, h.batched, .inl hfatal, h.gated, h.bound⟩
  · next hfatal =>
    split
    · next gate hgate => exact h.bufferRetryEvent hgate
    · next hgate =>
      have htaken : Orderly (c.take event) [event] := by
        refine ⟨h.logged, h.batched, ?_, h.gated, h.bound⟩
        refine h.kept.imp_right fun hk => hk.imp_right fun hk => ?_
        simpa [held, take, hgate, hidle] using hk
      rcases htaken.acceptEvent parse hgate (hknown (by simpa using hfatal) hgate) with
        ⟨next, haccept, hnext⟩ | ⟨next, failure, haccept, hnext⟩
      · rw [haccept]
        exact hnext
      · rw [haccept]
        exact (hnext.failProtocol failure.1 failure.2 []).withConsumer .ending

private theorem Orderly.releaseRetryGate
    (h : Orderly c []) (hgate : c.retryGate = some gate) (generation : Nat)
    {expected : Option ThreadRetryOperation}
    (hexpected : expected = none ∨ expected = gate.expected) :
    Orderly (c.releaseRetryGate gate generation expected) [] := by
  obtain ⟨hidle, -, hfresh⟩ := h.gated gate hgate
  have hkept : c.fatalFault.isSome = true ∨ c.closed = true ∨
      c.arrived = c.accepted ++ [] ++ gate.events ++ [] := by
    refine h.kept.imp_right fun hk => hk.imp_right fun hk => ?_
    simpa [held, hgate, hidle] using hk
  unfold SurfaceController.releaseRetryGate
  dsimp only
  split
  · exact h.lost (.inl rfl) (.inr rfl)
  · cases expected with
    | none => exact ⟨h.logged, h.batched, hkept, nofun, h.bound⟩
    | some operation =>
      have hnamed : some operation = gate.expected := hexpected.resolve_left nofun
      have hunnamed := hfresh operation hnamed.symm
      have hunapplied : ∀ value ∈ (applied c.history).map Prod.fst,
          value.operationId ≠ some operation.operationId := by
        intro value hvalue hname
        obtain ⟨event, hevent, hid⟩ := h.batched.coalesces.operationId_mem value
          (List.mem_append_left _ hvalue)
        exact hunnamed event hevent (hid.trans hname)
      refine ⟨h.logged.activate operation generation hunapplied, ?_, hkept, nofun,
        fun op hop => ?_⟩
      · change c.batcher.Batched c.accepted
          ((applied (c.history ++ [.activated operation generation])).map Prod.fst)
        have hnone : applied [HistoryItem.activated operation generation] = [] := rfl
        rw [applied_append, hnone, List.append_nil]
        exact h.batched
      · obtain rfl := Option.some.inj hop
        exact ⟨⟨generation, List.mem_append_right _ (List.mem_singleton_self _)⟩,
          fun event hevent _ => hunnamed event hevent⟩

private theorem Orderly.replayNext
    {rest : List EventEnvelope} (h : Orderly c []) (hreplaying : c.replaying = event :: rest)
    (hknown : c.TerminalKnown event) : Orderly (c.replayNext parse event rest) [] := by
  have hgate : c.retryGate = none := by
    cases hsome : c.retryGate with
    | none => rfl
    | some gate => exact absurd (hreplaying.symm.trans (h.gated gate hsome).1) nofun
  have howed : Orderly { c with replaying := rest } [event] := by
    refine ⟨h.logged, h.batched, ?_, fun gate hg => ?_, h.bound⟩
    · refine h.kept.imp_right fun hk => hk.imp_right fun hk => ?_
      simpa [held, hreplaying] using hk
    · exact absurd (hgate.symm.trans hg) nofun
  unfold SurfaceController.replayNext
  rcases howed.acceptEvent parse hgate hknown with
    ⟨next, haccept, hnext⟩ | ⟨next, failure, haccept, hnext⟩
  · rw [haccept]
    exact hnext
  · rw [haccept]
    exact hnext.lost (.inr ⟨rfl, .inl rfl⟩) (.inl rfl)

private theorem Orderly.respondRetry (h : Orderly c []) (request : Nat)
    {answer : Option ThreadRetryOperation} (hfresh : ∀ operation ∈ answer,
      ∀ accepted ∈ c.requests[request]?, ∀ event ∈ accepted,
        event.operationId ≠ some operation.operationId) :
    Orderly (c.respondRetry request answer) [] := by
  unfold SurfaceController.respondRetry
  split
  · next gate hgate =>
    split
    · next hrequest =>
      cases answer with
      | none => exact h.releaseRetryGate hgate _ (.inl rfl)
      | some operation =>
        obtain ⟨hidle, haccepted, -⟩ := h.gated gate hgate
        refine ⟨h.logged, h.batched, ?_, fun g hg => ?_, h.bound⟩
        · simpa [held, hgate] using h.kept
        · obtain rfl := Option.some.inj hg
          refine ⟨hidle, haccepted, fun op hop => ?_⟩
          obtain rfl := Option.some.inj hop
          exact hfresh operation rfl c.accepted (hrequest ▸ haccepted)
    · exact h
  · exact h

private theorem Orderly.activateThreadRetry (h : Orderly c [])
    (operation : ThreadRetryOperation) (generation : Nat) :
    Orderly (c.activateThreadRetry operation generation) [] := by
  unfold SurfaceController.activateThreadRetry
  split
  · next gate hgate =>
    split
    · next expected hexpected =>
      split
      · next hsame => exact h.releaseRetryGate hgate _ (.inr (by rw [hexpected, hsame.1]))
      · exact h.lost (.inl rfl) (.inr rfl)
    · exact h.failProtocol _ _ []
  · exact h.failProtocol _ _ []

/-- How an action of the controller or of the application changes the generation. -/
theorem threadGeneration_surfaceReducer {s t : SurfaceState}
    (h : surfaceReducer parse s action = .ok t)
    (haction : (HistoryItem.dispatched action).received = none)
    (hreset : action ≠ .reconnectReset) (operations : Dict String Nat) :
    t.threadGeneration =
      ((⟨s.threadGeneration, operations⟩ : Generations).track (.dispatched action)).current := by
  rcases surfaceReducer_keeps h with
    ⟨value, generation, rfl⟩ | ⟨application, thread, transcript, rfl⟩ | rfl | ⟨hsame, -⟩
  · cases haction
  · exact (congrArg SurfaceState.threadGeneration (Except.ok.inj h)).symm
  · exact absurd rfl hreset
  · cases action with
    | received value generation => cases haction
    | threadReplaced application thread transcript =>
      exact (congrArg SurfaceState.threadGeneration (Except.ok.inj h)).symm
    | _ => exact hsame

private theorem Orderly.dispatch (h : Orderly c [])
    (haction : (HistoryItem.dispatched action).received = none)
    (hreset : action ≠ .reconnectReset) : Orderly (c.dispatch parse action).1 [] := by
  unfold SurfaceController.dispatch
  split
  · next state hstate =>
    exact h.record haction (threadGeneration_surfaceReducer hstate haction hreset _)
  · exact h

private theorem Orderly.installReconciled (h : Orderly c []) (r : Reconciliation)
    (result : TerminalTurnReconciliation) (thread : Option ThreadPage) :
    Orderly (c.installReconciled parse r result thread) [] := by
  have hdispatch : Orderly (c.dispatch parse (.transcriptReconciled r.generation
      result.operationId result.turnId result.blocks thread)).1 [] := h.dispatch rfl nofun
  unfold SurfaceController.installReconciled
  split
  · next next heq => simpa only [heq] using hdispatch
  · next next error heq =>
    rw [heq] at hdispatch
    exact hdispatch.failProtocol _ _ []

private theorem Orderly.readAnswered (h : Orderly c []) (r : Reconciliation)
    (answer : ThreadReadAnswer) : Orderly (c.readAnswered parse r answer) [] := by
  unfold SurfaceController.readAnswered
  split
  · split
    · exact h.installReconciled r _ _
    · exact h.failProtocol _ _ []
  · exact h.installReconciled r _ _
  · split
    · exact h
    · exact h.failProtocol _ _ []

private theorem Orderly.tick (h : Orderly c []) :
    Orderly (c.tick parse) [] := h.emit h.batched.flush

private theorem Orderly.endEvents (h : Orderly c []) (failure : Option String) :
    Orderly (c.endEvents parse failure) [] := by
  unfold SurfaceController.endEvents
  dsimp only
  split
  · next message _ =>
    have hfailed := h.failProtocol "event_consumer_failed" message []
    exact (hfailed.emit hfailed.batched.close).withConsumer .ended
  · exact (h.emit h.batched.close).withConsumer .ended

/-- A step while no gate is released keeps a controller orderly. -/
theorem Orderly.act {next : SurfaceController} {action : ControllerAction} (h : Orderly c [])
    (hidle : c.replaying = []) (hfresh : c.RespondsFresh action) (hknown : c.TerminalsKnown action)
    (hstep : c.act parse eventBytes action = some next) : Orderly next [] := by
  have hquiet {request : Nat} : Orderly { c with awaiting := c.awaiting.erase request } [] :=
    ⟨h.logged, h.batched, h.kept, h.gated, h.bound⟩
  cases acts_of_act hstep with
  | event event =>
    simp only [TerminalsKnown, hidle] at hknown
    exact h.consume hidle hknown
  | tick => exact h.tick
  | endEvents failure => exact h.endEvents failure
  | requestNothing | closeAgain => exact h
  | requestRetry hclosed hgate =>
    refine ⟨h.logged, h.batched, by simpa [held, hgate] using h.kept, fun gate hg => ?_, h.bound⟩
    obtain rfl := Option.some.inj hg
    exact ⟨hidle, List.getElem?_concat_length, nofun⟩
  | respond request answer =>
    refine hquiet.respondRetry request fun operation hanswer => ?_
    obtain rfl := hanswer
    exact hfresh
  | rejectRequest request => exact hquiet.respondRetry request fun _ hnone => absurd hnone nofun
  | activate operation generation => exact h.activateThreadRetry operation generation
  | reject message => exact h.lost (.inl rfl) (.inr rfl)
  | dispatch action happlication =>
    refine h.dispatch ?_ fun hreset => ?_
    · cases action <;> first | rfl | cases happlication
    · rw [hreset] at happlication
      cases happlication
  | readThread index answer r =>
    have hread : Orderly { c with reconciliations := c.reconciliations.eraseIdx index } [] :=
      ⟨h.logged, h.batched, h.kept, h.gated, h.bound⟩
    exact hread.readAnswered r answer
  | close => exact ⟨h.logged, h.batched, .inr (.inl rfl), nofun, nofun⟩
  | finishClose => exact h.dispatch rfl nofun

private theorem Orderly.step {c next : SurfaceController} {action : ControllerAction}
    (h : Orderly c [])
    (hfresh : c.RespondsFresh action) (hknown : c.TerminalsKnown action)
    (hstep : c.step parse eventBytes action = some next) :
    Orderly next [] := by
  unfold SurfaceController.step at hstep
  cases hreplaying : c.replaying with
  | nil =>
    rw [hreplaying] at hstep
    exact h.act hreplaying hfresh hknown hstep
  | cons event rest =>
    rw [hreplaying] at hstep
    obtain ⟨rfl, hnext⟩ := Option.ite_none_right_eq_some.mp hstep
    simp only [TerminalsKnown, hreplaying] at hknown
    exact Option.some.inj hnext ▸ h.replayNext hreplaying hknown

private theorem orderly_connected : Orderly connected [] :=
  ⟨⟨rfl, throughout_nil⟩, ⟨.nil, nofun⟩, .inr (.inr rfl), nofun, nofun⟩

end SurfaceController

open SurfaceController in
/-- Every event that arrives is applied exactly once, in the order of arrival and under the
generation of its Operation, or is held by the gate, or the connection is lost or closed.
Nothing is accepted while a gate is closed, so that nothing of a retried Operation is applied
before its activation, and only an activated retry whose terminal event was not accepted is
bound, if every terminal event of a bound retry tells its Thread and its Turn. -/
theorem retry_gate_keeps_events (parse : DateParse) (eventBytes : EventEnvelope → Nat)
    {c : SurfaceController} (hrun : Run (step parse eventBytes)
      (fun c action => c.RespondsFresh action ∧ c.TerminalsKnown action) connected c) :
    (c.fatalFault.isSome = true ∨ c.closed = true ∨
      c.arrived = c.accepted ++ c.replaying ++ c.held) ∧
    Coalesces c.accepted ((applied c.history).map Prod.fst ++ c.batcher.flush.2) ∧
    Throughout HistoryLaw c.history ∧
    (∀ gate ∈ c.retryGate, c.requests[gate.request]? = some c.accepted ∧
      ∀ operation ∈ gate.expected, ∀ value ∈ (applied c.history).map Prod.fst,
        value.operationId ≠ some operation.operationId) ∧
    (∀ operation ∈ c.activeRetryBinding,
      (∃ generation, .activated operation generation ∈ c.history) ∧
      ∀ event ∈ c.accepted, event.payload.endsOperation = true →
        event.operationId ≠ some operation.operationId) := by
  have h : Orderly c [] := hrun.invariant (I := fun c => Orderly c []) orderly_connected
    fun _ _ _ ht hmeets hstep => ht.step hmeets.1 hmeets.2 hstep
  refine ⟨by simpa using h.kept, h.batched.coalesces, h.logged.lawful, fun gate hgate => ?_,
    h.bound⟩
  obtain ⟨-, haccepted, hfresh⟩ := h.gated gate hgate
  refine ⟨haccepted, fun operation hop value hvalue hname => ?_⟩
  obtain ⟨event, hevent, hid⟩ := h.batched.coalesces.operationId_mem value
    (List.mem_append_left _ hvalue)
  exact hfresh operation hop event hevent (hid.trans hname)

/-- A retry that the core accepted. -/
def sampleRetry : ThreadRetryOperation :=
  ⟨"operation_retry", "thread_retry", "turn_retry", "client_1"⟩

/-- An event of the retry. -/
def retryEvent (sequence : Nat) (payload : EventPayload) : EventEnvelope where
  sequence := sequence
  sessionId := "session_1"
  threadId := some sampleRetry.threadId
  turnId := some sampleRetry.turnId
  operationId := some sampleRetry.operationId
  clientMessageId := some sampleRetry.clientMessageId
  timestamp := "2026-07-11T08:00:00Z"
  payload := payload
  identified := by cases payload <;> rfl
  nonempty := by decide

/-- The end of the retry before its Turn started, without a Turn. -/
def earlyFailure : EventEnvelope :=
  ⟨2, "session_1", none, none, some "operation_retry", none, "2026-07-11T08:00:01Z",
    .operationTerminal .failed, rfl, by decide⟩

/-- The start of a later Operation. -/
def laterStart : EventEnvelope :=
  ⟨3, "session_1", some "thread_retry", none, some "operation_later", none,
    "2026-07-11T08:00:02Z", .operationStarted, rfl, by decide⟩

/-- A retry whose start arrives before its activation, its end, and a later Operation. -/
def retryActions (ended : EventEnvelope) : List ControllerAction :=
  [.requestRetry, .respond 0 (some sampleRetry), .event (retryEvent 1 .operationStarted),
    .dispatch (.threadReplaced ⟨some "thread_retry"⟩
      ⟨⟨"thread_retry", "Retry"⟩, [], [], [], [], false⟩ []),
    .activate sampleRetry 1, .replay, .event ended, .event laterStart]

/-- The end of the retry with its Turn. -/
def namedFailure : EventEnvelope := retryEvent 2 (.operationTerminal .failed)

open SurfaceController in
/-- A retry that ends within its Turn is unbound, and the next Operation starts. -/
theorem retry_gate_keeps_events_of_next : ∃ c,
    (retryActions namedFailure).foldlM
      (Run.checked (step (fun _ => 0) fun _ => 0)
        fun c action => c.RespondsFresh action ∧ c.TerminalsKnown action) connected = some c ∧
    c.activeRetryBinding = none ∧ c.fatalFault = none ∧ c.retryGate = none ∧
    (applied c.history).map Prod.snd = [1, 1, 1] ∧
    (c.fatalFault.isSome = true ∨ c.closed = true ∨
      c.arrived = c.accepted ++ c.replaying ++ c.held) := by
  have h : ((retryActions namedFailure).foldlM
      (Run.checked (step (fun _ => 0) fun _ => 0)
        fun c action => c.RespondsFresh action ∧ c.TerminalsKnown action) connected).map
      (fun c => (c.activeRetryBinding, c.fatalFault, c.retryGate,
        (applied c.history).map Prod.snd)) = some (none, none, none, [1, 1, 1]) := by decide
  obtain ⟨c, hc, hfields⟩ := Option.map_eq_some_iff.mp h
  simp only [Prod.mk.injEq] at hfields
  obtain ⟨hbinding, hfatal, hgate, happlied⟩ := hfields
  exact ⟨c, hc, hbinding, hfatal, hgate, happlied,
    (retry_gate_keeps_events (fun _ => 0) (fun _ => 0) (Run.of_checked hc)).1⟩

open SurfaceController in
/-- A retry that ends before its Turn started, without naming the Turn, stays bound, and the
start of the next Operation loses the connection. -/
theorem retry_binding_outlives_operation : ∃ c,
    (retryActions earlyFailure).foldlM
      (step (fun _ => 0) fun _ => 0) connected = some c ∧
    c.activeRetryBinding = some sampleRetry ∧ earlyFailure ∈ c.accepted ∧
    earlyFailure.payload.endsOperation = true ∧
    earlyFailure.operationId = some sampleRetry.operationId ∧ laterStart ∉ c.accepted ∧
    c.fatalFault = some "Retry Event identity does not match its accepted Operation" := by
  have h : ((retryActions earlyFailure).foldlM
      (step (fun _ => 0) fun _ => 0) connected).map
      (fun c => (c.activeRetryBinding, c.accepted, c.fatalFault)) =
        some (some sampleRetry, [retryEvent 1 .operationStarted, earlyFailure],
          some "Retry Event identity does not match its accepted Operation") := by decide
  obtain ⟨c, hc, hfields⟩ := Option.map_eq_some_iff.mp h
  simp only [Prod.mk.injEq] at hfields
  obtain ⟨hbinding, haccepted, hfatal⟩ := hfields
  refine ⟨c, hc, hbinding, ?_, rfl, rfl, ?_, hfatal⟩
  · rw [haccepted]
    decide
  · rw [haccepted]
    decide

end AwesomeAgent.Surface
