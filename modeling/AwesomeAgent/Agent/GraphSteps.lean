import AwesomeAgent.Agent.Graph
import AwesomeAgent.Modeling.RetryAccounting

/-!
# What the nodes of the graph do

Each node of the graph has one lemma on what it can leave. At every node it is known which calls
are pending and whether a compression is requested, since the state decided about the node.
-/

namespace AwesomeAgent.AgentGraph

open Agent (UrlGrammar ToolResult ToolExecution)
open Modeling (Text ModelMessage ToolCall ToolDefinition ModelTurn GatewayEvent CallState
  CallReading readCall toolCallsAreDispatchableAndFresh)
open Modeling.ModelGateway (StreamRun)
open Context (ContextRequest PreparedContext)

private theorem readCall_within {budget : Modeling.TurnBudget} {events : List GatewayEvent}
    {r : CallReading} (hcalls : r.state.modelCalls ≤ budget.modelCalls) :
    r.state.modelCalls ≤ (readCall budget r events).state.modelCalls ∧
      (readCall budget r events).state.modelCalls ≤ budget.modelCalls ∧
      (r.state.providerRetries ≤ budget.providerRetries →
        (readCall budget r events).state.providerRetries ≤ budget.providerRetries) := by
  induction events generalizing r with
  | nil => exact ⟨le_rfl, hcalls, id⟩
  | cons event rest ih =>
    cases event with
    | retrying attempt maximum code =>
      unfold readCall
      split
      · exact ⟨le_rfl, hcalls, id⟩
      · next hleft =>
        split
        · exact ⟨le_rfl, hcalls, id⟩
        · next hretry =>
          have hread := ih (r := { r with
            state := r.state.chargeProviderRetry
            observedRetries := r.observedRetries + 1 })
            (by simp only [CallState.chargeProviderRetry]; omega)
          refine ⟨(Nat.le_succ _).trans hread.1, hread.2.1, fun _ => hread.2.2 ?_⟩
          simp only [CallState.chargeProviderRetry]
          omega
    | model event =>
      cases event with
      | turnCompleted turn =>
        exact ih (r := { r with completed := r.completed ++ [turn] }) hcalls
      | turnFailed error => exact ih (r := { r with failure := some error }) hcalls
      | _ => exact ih hcalls

variable {run : StreamRun}

private theorem callModel_ok {budget : Modeling.TurnBudget} {state calls : CallState}
    {turn : ModelTurn} (h : Modeling.callModel budget state run = (calls, .ok turn)) :
    turn ∈ run.events.filterMap GatewayEvent.completed ∧
      toolCallsAreDispatchableAndFresh turn.toolCalls state.completedCalls = true := by
  obtain ⟨-, -, hcompleted, -, -, hfresh, -⟩ := Modeling.callModel_eq_ok.1 h
  exact ⟨hcompleted ▸ List.mem_singleton_self turn, hfresh⟩

private theorem callModel_counters {budget : Modeling.TurnBudget} {state : CallState}
    {run : StreamRun}
    (hcalls : state.modelCalls < budget.modelCalls) :
    state.modelCalls < (Modeling.callModel budget state run).1.modelCalls ∧
      (Modeling.callModel budget state run).1.modelCalls ≤ budget.modelCalls ∧
      (state.providerRetries ≤ budget.providerRetries →
        (Modeling.callModel budget state run).1.providerRetries ≤ budget.providerRetries) := by
  have hread := @readCall_within budget run.events
    ⟨state.chargeModelAttempt 0, 0, [], none, none⟩ hcalls
  have hstate : (Modeling.callModel budget state run).1 =
      (readCall budget ⟨state.chargeModelAttempt 0, 0, [], none, none⟩ run.events).state := by
    unfold Modeling.callModel
    dsimp only
    repeat' split
    all_goals rfl
  rw [hstate]
  exact hread

variable [UrlGrammar] [ContentHash] {runtime : Runtime} {s s' : AgentState}

/-! ## The model node -/

/-- What no call of a model changes, and how it is charged. -/
structure Charged (budget : TurnBudget) (s s' : AgentState) : Prop where
  before : s.modelCalls < budget.modelCalls
  charged : s.modelCalls < s'.modelCalls
  modelCalls : s'.modelCalls ≤ budget.modelCalls
  providerRetries : s.providerRetries ≤ budget.providerRetries →
    s'.providerRetries ≤ budget.providerRetries
  toolCalls : s'.toolCalls = s.toolCalls
  compressions : s'.compressions = s.compressions
  toolResults : s'.toolResults = s.toolResults
  contextManifest : s'.contextManifest = s.contextManifest

/-- No call is pending. -/
def Idle (s : AgentState) : Prop := s.pendingToolCalls = [] ∧ s.nextToolIndex = 0

/-- How a call of a model ends: the budgets refuse it, it is given up or answered, the context
is too long, or tools are asked for. -/
inductive ModelOutcome (budget : TurnBudget) (run : StreamRun) (s s' : AgentState) : Prop
  | refused (hidle : Idle s') (hmodelCalls : s'.modelCalls = s.modelCalls)
      (hproviderRetries : s'.providerRetries = s.providerRetries)
      (htoolCalls : s'.toolCalls = s.toolCalls) (hcompressions : s'.compressions = s.compressions)
      (hrequested : s'.compressionRequested = s.compressionRequested)
  | settled (hcharged : Charged budget s s') (hidle : Idle s')
      (hrequested : s'.compressionRequested = s.compressionRequested)
  | overflowed (hcharged : Charged budget s s') (hidle : Idle s')
      (hmessages : s'.messages = s.messages) (hrequested : s'.compressionRequested = true)
  | asked (turn : ModelTurn) (hcharged : Charged budget s s')
      (hmessages : s'.messages = s.messages ++ [.assistant turn.content turn.toolCalls])
      (hpending : s'.pendingToolCalls = turn.toolCalls) (hnext : s'.nextToolIndex = 0)
      (hcalls : turn.toolCalls ≠ [])
      (hrequested : s'.compressionRequested = s.compressionRequested)
      (hcompleted : turn ∈ run.events.filterMap GatewayEvent.completed)
      (hfresh : toolCallsAreDispatchableAndFresh turn.toolCalls
        (s.toolResults.map (·.callId)) = true)

omit [ContentHash] in
/-- Forgetting executed calls leaves no pending ones. -/
theorem forgetExecuted_eq (h : s.pendingToolCalls.length ≤ s.nextToolIndex) :
    forgetExecuted s = { s with pendingToolCalls := [], nextToolIndex := 0 } := if_pos h

variable {budget : TurnBudget} {reserved : Bool}

omit [ContentHash] in
private theorem nodeDecision_allowed {requested tools : Bool}
    (h : nodeDecision s budget requested = .allowed tools reserved) :
    s.modelCalls < budget.modelCalls := by
  unfold nodeDecision at h
  split at h
  · next hlast => exact hlast.2
  · unfold modelCallDecision at h
    split at h
    · cases h
    · omega

variable {elapsed : Rat}

omit [ContentHash] in
private theorem marked_spec {calls : CallState} {timed : AgentState} (hidle : Idle s)
    (h : addActiveSegment (withCounters (markReserved s budget reserved) calls) elapsed =
      some timed) :
    Idle timed ∧ timed.modelCalls = calls.modelCalls ∧
      timed.providerRetries = calls.providerRetries ∧ timed.toolCalls = s.toolCalls ∧
      timed.compressions = s.compressions ∧ timed.toolResults = s.toolResults ∧
      timed.contextManifest = s.contextManifest ∧ timed.messages = s.messages ∧
      timed.compressionRequested = s.compressionRequested := by
  unfold addActiveSegment at h
  split at h
  · cases h
  · cases h
    cases reserved with
    | false => exact ⟨hidle, rfl, rfl, rfl, rfl, rfl, rfl, rfl, rfl⟩
    | true => exact ⟨hidle, rfl, rfl, rfl, rfl, rfl, rfl, rfl, rfl⟩

omit [ContentHash] in
private theorem settleCall_outcome {timed : AgentState}
    {visible : Text} {result : Except Modeling.CallFault ModelTurn}
    (hcharged : Charged budget s timed) (hidle : Idle timed)
    (hmessages : timed.messages = s.messages)
    (hrequested : timed.compressionRequested = s.compressionRequested)
    (hturn : ∀ turn, result = .ok turn →
      turn ∈ run.events.filterMap GatewayEvent.completed ∧
        toolCallsAreDispatchableAndFresh turn.toolCalls (s.toolResults.map (·.callId)) = true)
    (h : settleCall runtime timed reserved visible result = some s') :
    ModelOutcome budget run s s' := by
  obtain ⟨h1, h2, h3, h4, h5, h6, h7, h8⟩ := hcharged
  match result, h with
  | .ok turn, h =>
    simp only [settleCall, acceptTurn, Option.some.injEq] at h
    split at h
    · cases h
      exact .settled ⟨h1, h2, h3, h4, h5, h6, h7, h8⟩ ⟨rfl, rfl⟩ hrequested
    · split at h
      · cases h
        exact .settled ⟨h1, h2, h3, h4, h5, h6, h7, h8⟩ ⟨rfl, rfl⟩ hrequested
      · next hcalls =>
        cases h
        obtain ⟨hcompleted, hfresh⟩ := hturn turn rfl
        refine .asked turn ⟨h1, h2, h3, h4, h5, h6, h7, h8⟩ ?_ rfl rfl hcalls hrequested
          hcompleted hfresh
        simp only [hmessages]
  | .error (.blocked reason), h =>
    cases h
    exact .settled ⟨h1, h2, h3, h4, h5, h6, h7, h8⟩ hidle hrequested
  | .error (.failed error), h =>
    simp only [settleCall] at h
    split at h
    · cases h
      exact .overflowed ⟨h1, h2, h3, h4, h5, h6, h7, h8⟩ hidle hmessages rfl
    · cases h
      exact .settled ⟨h1, h2, h3, h4, h5, h6, h7, h8⟩ hidle hrequested
  | .error .protocol, h =>
    cases h
    exact .settled ⟨h1, h2, h3, h4, h5, h6, h7, h8⟩ hidle hrequested

omit [ContentHash] in
private theorem callModel_outcome {catalog : List ToolDefinition}
    (hpending : s.pendingToolCalls.length ≤ s.nextToolIndex)
    (h : callModel runtime s catalog run elapsed = some s') :
    ModelOutcome runtime.budget run s s' := by
  unfold callModel at h
  rw [forgetExecuted_eq hpending] at h
  dsimp only at h
  cases hdecision : nodeDecision { s with pendingToolCalls := [], nextToolIndex := 0 }
      runtime.budget (!catalog.isEmpty) with
  | refused reason =>
    simp only [hdecision, Option.some.injEq] at h
    cases h
    exact .refused ⟨rfl, rfl⟩ rfl rfl rfl rfl rfl
  | allowed tools reserved =>
    simp only [hdecision] at h
    have hleft : s.modelCalls < runtime.budget.modelCalls := nodeDecision_allowed hdecision
    obtain ⟨timed, htimed, h⟩ := Option.bind_eq_some_iff.mp h
    obtain ⟨hidle, hcalls, hretries, htools, hcompressions, hresults, hmanifest, hmessages,
      hrequested⟩ := marked_spec ⟨rfl, rfl⟩ htimed
    obtain ⟨hmore, hwithin, hwithinRetries⟩ := @callModel_counters runtime.budget.call
      (callState s) run hleft
    refine settleCall_outcome ⟨hleft, ?_, ?_, ?_, htools, hcompressions, hresults, hmanifest⟩
      hidle hmessages hrequested (fun turn hturn => ?_) h
    · rw [hcalls]
      exact hmore
    · rw [hcalls]
      exact hwithin
    · rw [hretries]
      exact hwithinRetries
    · exact callModel_ok (Prod.ext rfl hturn)

/-! ## The other nodes -/

/-- A compression that keeps to the retries it may take. -/
def HonoursRetries (runtime : Runtime) (s : AgentState) (answer : CompactionAnswer) : Prop :=
  answer.providerRetries ≤ maxCompressionRetries runtime s

/-- What a compression leaves alone, what it charges, and what becomes of the messages. -/
structure Compressed (runtime : Runtime) (answer : CompactionAnswer) (s s' : AgentState) :
    Prop where
  requested : s'.compressionRequested = false
  pendingToolCalls : s'.pendingToolCalls = s.pendingToolCalls
  nextToolIndex : s'.nextToolIndex = s.nextToolIndex
  toolCalls : s'.toolCalls = s.toolCalls
  toolResults : s'.toolResults = s.toolResults
  charged : s.modelCalls ≤ s'.modelCalls
  modelCalls : HonoursRetries runtime s answer → s'.modelCalls = s.modelCalls ∨
    s'.modelCalls < runtime.budget.modelCalls
  reserved : HonoursRetries runtime s answer → s.compressions < s'.compressions →
    s'.modelCalls < runtime.budget.modelCalls
  providerRetries : HonoursRetries runtime s answer →
    s.providerRetries ≤ runtime.budget.providerRetries →
    s'.providerRetries ≤ runtime.budget.providerRetries
  compressions : s.compressions ≤ runtime.budget.compressions →
    s'.compressions ≤ runtime.budget.compressions
  messages : (s'.messages = s.messages ∧ s'.contextManifest = s.contextManifest) ∨
    ∃ toolTail prepared request, activeTurnToolTail s = some toolTail ∧
      Context.prepare runtime.dump request = .ok prepared ∧
      s'.messages = prepared.messages ++ toolTail ∧ s'.contextManifest = prepared.manifest

variable {request : ContextRequest}

omit [UrlGrammar] in
private theorem rebuiltContext_eq_ok {toolTail : List ModelMessage}
    {prepared : PreparedContext} (h : rebuiltContext runtime request toolTail = .ok prepared) :
    ∃ request base, Context.prepare runtime.dump request = .ok base ∧
      prepared.messages = base.messages ++ toolTail ∧ prepared.manifest = base.manifest := by
  obtain ⟨base, hbase, h⟩ := except_bind_ok h
  unfold appendToolTail at h
  dsimp only at h
  split at h
  · cases h
  · cases h
    exact ⟨_, base, hbase, rfl, rfl⟩

variable {answer : CompactionAnswer}

/-- The result of a compression: its charge is that of the answer, and a context is a packed one
with the tool tail. -/
theorem compress_spec {result : AgentCompressionResult}
    (h : compress runtime s answer = some result) :
    (result.attempted = true → result.providerRetries = answer.providerRetries) ∧
      ∀ prepared, result.prepared = some prepared →
        ∃ toolTail base request, activeTurnToolTail s = some toolTail ∧
          Context.prepare runtime.dump request = .ok base ∧
          prepared.messages = base.messages ++ toolTail ∧ prepared.manifest = base.manifest := by
  unfold compress at h
  split at h
  · cases h
    exact ⟨nofun, nofun⟩
  · next toolTail htail =>
    split at h
    · cases h
      exact ⟨fun _ => rfl, nofun⟩
    · cases h
      exact ⟨fun _ => rfl, nofun⟩
    · split at h
      · next prepared hprepared =>
        cases h
        refine ⟨fun _ => rfl, ?_⟩
        rintro _ ⟨⟩
        obtain ⟨request, base, hbase, hmessages, hmanifest⟩ := rebuiltContext_eq_ok hprepared
        exact ⟨toolTail, base, request, htail, hbase, hmessages, hmanifest⟩
      · cases h
        exact ⟨fun _ => rfl, nofun⟩
      · cases h

omit [ContentHash] in
private theorem chargeCompression_spec {result : AgentCompressionResult}
    (hretries : result.attempted = true → result.providerRetries = answer.providerRetries)
    (hbudget : skipsCompression runtime s = false) :
    s.modelCalls ≤ (chargeCompression s result).modelCalls ∧
      (HonoursRetries runtime s answer →
        (chargeCompression s result).modelCalls < runtime.budget.modelCalls ∧
        (s.providerRetries ≤ runtime.budget.providerRetries →
          (chargeCompression s result).providerRetries ≤ runtime.budget.providerRetries)) ∧
      (chargeCompression s result).compressions ≤ runtime.budget.compressions := by
  simp only [skipsCompression, Bool.or_eq_false_iff, decide_eq_false_iff_not, not_le] at hbudget
  unfold chargeCompression
  split
  · next hattempted =>
    have hequal := hretries hattempted
    simp only [chargeModelAttempt, HonoursRetries, maxCompressionRetries]
    omega
  · exact ⟨le_rfl, fun _ => ⟨by omega, id⟩, by omega⟩

omit [ContentHash] in
private theorem applyCompression_spec (s : AgentState) (result : AgentCompressionResult) :
    (applyCompression s result).compressionRequested = false ∧
      (applyCompression s result).pendingToolCalls = s.pendingToolCalls ∧
      (applyCompression s result).nextToolIndex = s.nextToolIndex ∧
      (applyCompression s result).toolCalls = s.toolCalls ∧
      (applyCompression s result).toolResults = s.toolResults ∧
      (applyCompression s result).modelCalls = (chargeCompression s result).modelCalls ∧
      (applyCompression s result).providerRetries = (chargeCompression s result).providerRetries ∧
      (applyCompression s result).compressions = (chargeCompression s result).compressions ∧
      ((applyCompression s result).messages = s.messages ∧
          (applyCompression s result).contextManifest = s.contextManifest ∨
        ∃ prepared, result.prepared = some prepared ∧
          (applyCompression s result).messages = prepared.messages ∧
          (applyCompression s result).contextManifest = prepared.manifest) := by
  have hframe : (chargeCompression s result).pendingToolCalls = s.pendingToolCalls ∧
      (chargeCompression s result).nextToolIndex = s.nextToolIndex ∧
      (chargeCompression s result).toolCalls = s.toolCalls ∧
      (chargeCompression s result).toolResults = s.toolResults ∧
      (chargeCompression s result).messages = s.messages ∧
      (chargeCompression s result).contextManifest = s.contextManifest := by
    unfold chargeCompression
    split <;> exact ⟨rfl, rfl, rfl, rfl, rfl, rfl⟩
  obtain ⟨h1, h2, h3, h4, h5, h6⟩ := hframe
  unfold applyCompression
  dsimp only
  split
  · next prepared hcompleted hprepared =>
    exact ⟨rfl, h1, h2, h3, h4, rfl, rfl, rfl, Or.inr ⟨prepared, hprepared, rfl, rfl⟩⟩
  · split
    · exact ⟨rfl, h1, h2, h3, h4, rfl, rfl, rfl, Or.inl ⟨h5, h6⟩⟩
    · exact ⟨rfl, h1, h2, h3, h4, rfl, rfl, rfl, Or.inl ⟨h5, h6⟩⟩

/-- What the compression node leaves. -/
theorem compressContext_spec
    (h : compressContext runtime s answer = some s') : Compressed runtime answer s s' := by
  unfold compressContext at h
  split at h
  · have hs : s'.compressionRequested = false ∧ s'.pendingToolCalls = s.pendingToolCalls ∧
        s'.nextToolIndex = s.nextToolIndex ∧ s'.toolCalls = s.toolCalls ∧
        s'.toolResults = s.toolResults ∧ s'.modelCalls = s.modelCalls ∧
        s'.providerRetries = s.providerRetries ∧ s'.compressions = s.compressions ∧
        s'.messages = s.messages ∧ s'.contextManifest = s.contextManifest := by
      split at h <;> cases h <;> exact ⟨rfl, rfl, rfl, rfl, rfl, rfl, rfl, rfl, rfl, rfl⟩
    obtain ⟨h1, h2, h3, h4, h5, h6, h7, h8, h9, h10⟩ := hs
    exact {
      requested := h1
      pendingToolCalls := h2
      nextToolIndex := h3
      toolCalls := h4
      toolResults := h5
      charged := h6.ge
      modelCalls := fun _ => Or.inl h6
      reserved := fun _ hmore => absurd h8 hmore.ne'
      providerRetries := fun _ => h7 ▸ id
      compressions := h8 ▸ id
      messages := Or.inl ⟨h9, h10⟩ }
  · next hbudget =>
    obtain ⟨result, hresult, rfl⟩ := Option.map_eq_some_iff.mp h
    obtain ⟨hretries, hprepared⟩ := compress_spec hresult
    obtain ⟨hcharged, hhonours, hcompressions⟩ :=
      chargeCompression_spec hretries (Bool.eq_false_iff.mpr hbudget)
    obtain ⟨h1, h2, h3, h4, h5, h6, h7, h8, h9⟩ := applyCompression_spec s result
    exact {
      requested := h1
      pendingToolCalls := h2
      nextToolIndex := h3
      toolCalls := h4
      toolResults := h5
      charged := h6 ▸ hcharged
      modelCalls := fun hh => Or.inr (h6 ▸ (hhonours hh).1)
      reserved := fun hh _ => h6 ▸ (hhonours hh).1
      providerRetries := fun hh => h7 ▸ (hhonours hh).2
      compressions := fun _ => h8 ▸ hcompressions
      messages := by
        rcases h9 with hsame | ⟨prepared, hsome, hmessages, hmanifest⟩
        · exact Or.inl hsame
        · obtain ⟨toolTail, base, request, htail, hbase, hm, hman⟩ := hprepared prepared hsome
          exact Or.inr ⟨toolTail, base, request, htail, hbase, hmessages.trans hm,
            hmanifest.trans hman⟩ }

private theorem prepareContext_spec (hnew : s.messages = [])
    (h : prepareContext runtime s request = some s') :
    ∃ prepared, Context.prepare runtime.dump request = .ok prepared ∧
      s' = { withContext s prepared with
        compressionRequested := prepared.compressionRecommended
        compressionReason :=
          if prepared.compressionRecommended then some .automatic else none } := by
  unfold prepareContext at h
  rw [if_neg (not_not.mpr hnew)] at h
  cases hprepared : Context.prepare runtime.dump request with
  | error fault => simp [hprepared] at h
  | ok prepared =>
    simp only [hprepared, Option.some.injEq] at h
    exact ⟨prepared, rfl, h.symm⟩

variable {execution : ToolExecution}

omit [ContentHash] in
private theorem executeCall_callId {call : ToolCall} {result : ToolResult}
    (h : executeCall s call execution = some result) : result.callId = call.callId := by
  obtain ⟨allocator, -, h⟩ := Option.bind_eq_some_iff.mp h
  have h := except_ok_of_toOption h
  cases execution with
  | search results truncated =>
    obtain ⟨output, -, h⟩ := except_bind_ok h
    cases h
    rfl
  | fetch url body truncated =>
    obtain ⟨output, -, h⟩ := except_bind_ok h
    cases h
    rfl
  | other content =>
    obtain ⟨output, -, h⟩ := except_bind_ok h
    cases h
    rfl
  | failure message short =>
    cases h
    rfl

/-- The observation of a result. -/
def observation (result : ToolResult) : ModelMessage :=
  .toolResult result.callId result.content (result.status = .error) []

/-- A call is executed or skipped: it has one result and one observation more. -/
structure Executed (budget : TurnBudget) (call : ToolCall) (s s' : AgentState) : Prop where
  result : ∃ result : ToolResult, result.callId = call.callId ∧
    s'.toolResults = s.toolResults ++ [result] ∧ s'.messages = s.messages ++ [observation result]
  contextManifest : s'.contextManifest = s.contextManifest
  pendingToolCalls : s'.pendingToolCalls = s.pendingToolCalls
  nextToolIndex : s'.nextToolIndex = s.nextToolIndex + 1
  requested : s'.compressionRequested = s.compressionRequested
  modelCalls : s'.modelCalls = s.modelCalls
  providerRetries : s'.providerRetries = s.providerRetries
  compressions : s'.compressions = s.compressions
  toolCalls : s.toolCalls ≤ budget.toolCalls → s'.toolCalls ≤ budget.toolCalls

omit [ContentHash] in
private theorem recordResult_eq_some {result : ToolResult}
    (h : recordResult runtime s result = some s') :
    ∃ citations, s' = { s with
      toolResults := s.toolResults ++ [result]
      citations := citations
      messages := s.messages ++ [observation result]
      contextEstimatedTokens :=
        s.contextEstimatedTokens + Context.estimateMessages runtime.dump [observation result]
      nextToolIndex := s.nextToolIndex + 1 } := by
  obtain ⟨citations, -, h⟩ := Option.map_eq_some_iff.mp h
  exact ⟨citations, h.symm⟩

omit [ContentHash] in
private theorem executeOneTool_spec {webRequests : Nat}
    {call : ToolCall} (hcall : s.pendingToolCalls[s.nextToolIndex]? = some call)
    (h : executeOneTool runtime s execution webRequests elapsed = some s') :
    Executed runtime.budget call s s' := by
  unfold executeOneTool at h
  simp only [hcall] at h
  cases hlimit : loopExhaustion s runtime.budget with
  | some limit =>
    simp only [hlimit] at h
    obtain ⟨citations, rfl⟩ := recordResult_eq_some h
    exact ⟨⟨_, rfl, rfl, rfl⟩, rfl, rfl, rfl, rfl, rfl, rfl, rfl, id⟩
  | none =>
    have hleft : s.toolCalls + 1 ≤ runtime.budget.toolCalls := by
      unfold loopExhaustion at hlimit
      split at hlimit
      · cases hlimit
      · split at hlimit
        · cases hlimit
        · omega
    simp only [hlimit] at h
    split at h
    · obtain ⟨result, hresult, h⟩ := Option.bind_eq_some_iff.mp h
      obtain ⟨timed, htimed, h⟩ := Option.bind_eq_some_iff.mp h
      obtain ⟨citations, rfl⟩ := recordResult_eq_some h
      unfold addActiveSegment at htimed
      split at htimed
      · cases htimed
      · cases htimed
        exact ⟨⟨_, executeCall_callId hresult, rfl, rfl⟩, rfl, rfl, rfl, rfl, rfl, rfl, rfl,
          fun _ => hleft⟩
    · obtain ⟨citations, rfl⟩ := recordResult_eq_some h
      exact ⟨⟨_, rfl, rfl, rfl⟩, rfl, rfl, rfl, rfl, rfl, rfl, rfl, fun _ => hleft⟩

omit [ContentHash] in
/-- What the finalizer is charged. -/
theorem finalize_spec {answer : FinalizerAnswer} (h : finalize runtime s answer = some s') :
    s'.toolCalls = s.toolCalls ∧ s'.compressions = s.compressions ∧
      (s.modelCalls ≤ runtime.budget.modelCalls → s'.modelCalls ≤ runtime.budget.modelCalls) ∧
      (s.providerRetries ≤ runtime.budget.providerRetries →
        s'.providerRetries ≤ runtime.budget.providerRetries) := by
  unfold finalize at h
  split at h
  · obtain ⟨citations, -, rfl⟩ := Option.map_eq_some_iff.mp h
    unfold applyFinalization
    cases answer with
    | failed => exact ⟨rfl, rfl, id, id⟩
    | finished finalAnswer modelCalls providerRetries =>
      dsimp only
      split
      · next haccepted =>
        simp only [acceptsFinalization, Bool.and_eq_true, decide_eq_true_eq] at haccepted
        split
        · exact ⟨rfl, rfl, id, id⟩
        · next hcalled =>
          refine ⟨rfl, rfl, fun hcalls => ?_, fun hretries => ?_⟩
          · have hleft := haccepted.2
            simp only [withReason, chargeModelAttempt]
            split at hleft <;> omega
          · have hleft := haccepted.1.2
            simp only [withReason, chargeModelAttempt]
            omega
      · exact ⟨rfl, rfl, id, id⟩
  · cases h
    exact ⟨rfl, rfl, id, id⟩

/-! ## Steps of the graph -/

/-- What is known of a state at a node. -/
def Placed (p : Position) : Prop :=
  match p.node with
  | .prepareContext => p.state = newAgentState
  | .compressContext => Idle p.state
  | .callModel => p.state.compressionRequested = false ∧
      p.state.pendingToolCalls.length ≤ p.state.nextToolIndex
  | .executeOneTool => p.state.compressionRequested = false ∧
      p.state.nextToolIndex < p.state.pendingToolCalls.length
  | .finalize | .ended => True

omit [ContentHash] in
/-- A Turn starts in its place. -/
theorem start_placed : Placed start := rfl

/-- What a step of the graph does. -/
inductive GraphStep (runtime : Runtime) (s s' : AgentState) : Node → Answer → Node → Prop
  | prepare {request : ContextRequest} {prepared : PreparedContext} {node : Node}
      (hnew : s = newAgentState) (hprepared : Context.prepare runtime.dump request = .ok prepared)
      (hstate : s' = { withContext s prepared with
        compressionRequested := prepared.compressionRecommended
        compressionReason :=
          if prepared.compressionRecommended then some .automatic else none })
      (hnode : node = routeAfterPrepare s') :
      GraphStep runtime s s' .prepareContext (.context request) node
  | compress {answer : CompactionAnswer} {node : Node} (hidle : Idle s)
      (hcompressed : Compressed runtime answer s s') (hnode : node = routeAfterCompression s') :
      GraphStep runtime s s' .compressContext (.compaction answer) node
  | call {catalog : List ToolDefinition} {run : StreamRun} {elapsed : Rat} {node : Node}
      (hrequested : s.compressionRequested = false)
      (houtcome : ModelOutcome runtime.budget run s s') (hnode : node = routeAfterModel s') :
      GraphStep runtime s s' .callModel (.stream catalog run elapsed) node
  | execute {execution : ToolExecution} {webRequests : Nat} {elapsed : Rat} {node : Node}
      {call : ToolCall} (hrequested : s.compressionRequested = false)
      (hcall : s.pendingToolCalls[s.nextToolIndex]? = some call)
      (hexecuted : Executed runtime.budget call s s') (hnode : node = routeAfterTool s') :
      GraphStep runtime s s' .executeOneTool (.tool execution webRequests elapsed) node
  | finish {answer : FinalizerAnswer} (hfinal : finalize runtime s answer = some s') :
      GraphStep runtime s s' .finalize (.finalizer answer) .ended

/-- Every step of the graph is one of these. -/
theorem step_cases {p q : Position} {answer : Answer} (hp : Placed p)
    (h : step runtime p answer = some q) :
    GraphStep runtime p.state q.state p.node answer q.node := by
  obtain ⟨node, s⟩ := p
  unfold step at h
  cases node with
  | prepareContext =>
    cases answer with
    | context request =>
      obtain ⟨s', hs', rfl⟩ := Option.map_eq_some_iff.mp h
      have hnew : s = newAgentState := hp
      obtain ⟨prepared, hprepared, hstate⟩ := prepareContext_spec (by rw [hnew]; rfl) hs'
      exact .prepare hnew hprepared hstate rfl
    | _ => cases h
  | compressContext =>
    cases answer with
    | compaction answer =>
      obtain ⟨s', hs', rfl⟩ := Option.map_eq_some_iff.mp h
      exact .compress hp (compressContext_spec hs') rfl
    | _ => cases h
  | callModel =>
    cases answer with
    | stream catalog run elapsed =>
      obtain ⟨s', hs', rfl⟩ := Option.map_eq_some_iff.mp h
      exact .call hp.1 (callModel_outcome hp.2 hs') rfl
    | _ => cases h
  | executeOneTool =>
    cases answer with
    | tool execution webRequests elapsed =>
      obtain ⟨s', hs', rfl⟩ := Option.map_eq_some_iff.mp h
      have hcall := List.getElem?_eq_getElem hp.2
      exact .execute hp.1 hcall (executeOneTool_spec hcall hs') rfl
    | _ => cases h
  | finalize =>
    cases answer with
    | finalizer answer =>
      obtain ⟨s', hs', rfl⟩ := Option.map_eq_some_iff.mp h
      exact .finish hs'
    | _ => cases h
  | ended => cases h

omit [ContentHash] in
/-- An idle Turn is finalized. -/
theorem routeAfterModel_idle (hidle : Idle s) (hrequested : s.compressionRequested = false) :
    routeAfterModel s = .finalize := by
  simp [routeAfterModel, hidle.1, hrequested]

/-- Every step keeps what is known of a state at its node. -/
theorem Placed.step {p q : Position} {answer : Answer} (hp : Placed p)
    (h : AgentGraph.step runtime p answer = some q) : Placed q := by
  obtain ⟨node, s'⟩ := q
  have hstep : GraphStep runtime p.state s' p.node answer node := step_cases hp h
  generalize p.state = s, p.node = source at hstep
  cases hstep with
  | prepare hnew hprepared hstate hnode =>
    subst hnew hnode hstate
    unfold routeAfterPrepare
    split
    · exact ⟨rfl, rfl⟩
    · next hrequested => exact ⟨Bool.eq_false_iff.mpr hrequested, Nat.le_refl 0⟩
  | compress hidle hcompressed hnode =>
    subst hnode
    unfold routeAfterCompression
    split
    · trivial
    · refine ⟨hcompressed.requested, ?_⟩
      change s'.pendingToolCalls.length ≤ s'.nextToolIndex
      rw [hcompressed.pendingToolCalls, hidle.1]
      exact Nat.zero_le _
  | call hrequested houtcome hnode =>
    subst hnode
    cases houtcome with
    | refused hidle _ _ _ _ hsame =>
      rw [routeAfterModel_idle hidle (hsame.trans hrequested)]
      trivial
    | settled _ hidle hsame =>
      rw [routeAfterModel_idle hidle (hsame.trans hrequested)]
      trivial
    | overflowed _ hidle _ hcompress =>
      rw [routeAfterModel, if_pos hcompress]
      exact hidle
    | asked turn _ _ hpending hnext hcalls hsame _ _ =>
      have hcalm := hsame.trans hrequested
      have hnode : routeAfterModel s' = .executeOneTool := by
        simp [routeAfterModel, hcalm, hpending, hcalls]
      rw [hnode]
      refine ⟨hcalm, ?_⟩
      change s'.nextToolIndex < s'.pendingToolCalls.length
      rw [hnext, hpending]
      exact List.length_pos_iff.mpr hcalls
  | execute hrequested hcall hexecuted hnode =>
    subst hnode
    have hcalm := hexecuted.requested.trans hrequested
    unfold routeAfterTool
    split
    · next hmore => exact ⟨hcalm, hmore⟩
    · next hdone => exact ⟨hcalm, Nat.le_of_not_lt hdone⟩
  | finish hfinal => trivial

end AwesomeAgent.AgentGraph
