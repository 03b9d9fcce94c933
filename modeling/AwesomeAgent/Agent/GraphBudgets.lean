import AwesomeAgent.Agent.CitationCollection
import AwesomeAgent.Agent.GraphSteps
import AwesomeAgent.Context.Packing
import Mathlib.Data.List.FinRange

/-!
# Budgets of the graph

Every node that charges a budget looks at it first, so no counter passes its budget. A run has
at most so many nodes: each model call has one node for itself and one for a compression behind
it, and each tool call has one. A response may carry more calls than any budget allows, and the
calls that are skipped have their nodes too.
-/

namespace AwesomeAgent.AgentGraph

open Agent (UrlGrammar)
open Modeling (GatewayEvent)

section Runs

variable [UrlGrammar] [ContentHash] {runtime : Runtime}

/-- The tool calls that the completed turns of an answer carry. -/
def Answer.toolCalls : Answer → Nat
  | .stream _ run _ =>
      ((run.events.filterMap GatewayEvent.completed).map fun turn => turn.toolCalls.length).sum
  | _ => 0

/-- A compression keeps to the retries it may take. -/
def Answer.Honours (runtime : Runtime) (s : AgentState) : Answer → Prop
  | .compaction answer => HonoursRetries runtime s answer
  | _ => True

variable (runtime) in
/-- A run of the graph whose compressions keep to their retries, with the number of its nodes and
the tool calls that its model calls carried. -/
inductive BudgetedRun : Nat → Nat → Position → Prop
  | start : BudgetedRun 0 0 start
  | step {nodes calls : Nat} {p q : Position} {answer : Answer} (h : BudgetedRun nodes calls p)
      (hhonours : answer.Honours runtime p.state) (hstep : step runtime p answer = some q) :
      BudgetedRun (nodes + 1) (calls + answer.toolCalls) q

/-- No counter has passed its budget. -/
structure Within (budget : TurnBudget) (s : AgentState) : Prop where
  modelCalls : s.modelCalls ≤ budget.modelCalls
  toolCalls : s.toolCalls ≤ budget.toolCalls
  providerRetries : s.providerRetries ≤ budget.providerRetries
  compressions : s.compressions ≤ budget.compressions

omit [ContentHash] in
private theorem Charged.within {budget : TurnBudget} {s s' : AgentState} (h : Charged budget s s')
    (hs : Within budget s) : Within budget s' where
  modelCalls := h.modelCalls
  toolCalls := h.toolCalls ▸ hs.toolCalls
  providerRetries := h.providerRetries hs.providerRetries
  compressions := h.compressions ▸ hs.compressions

private theorem Within.step {p q : Position} {answer : Answer} (hp : Placed p)
    (hs : Within runtime.budget p.state) (hhonours : answer.Honours runtime p.state)
    (h : AgentGraph.step runtime p answer = some q) : Within runtime.budget q.state := by
  have hstep := step_cases hp h
  generalize p.state = s, q.state = s', p.node = source, q.node = target at *
  cases hstep with
  | prepare _ _ hstate _ =>
    subst hstate
    exact ⟨hs.modelCalls, hs.toolCalls, hs.providerRetries, hs.compressions⟩
  | compress _ hcompressed _ =>
    constructor
    · rcases hcompressed.modelCalls hhonours with hsame | hless
      · exact hsame ▸ hs.modelCalls
      · exact hless.le
    · exact hcompressed.toolCalls ▸ hs.toolCalls
    · exact hcompressed.providerRetries hhonours hs.providerRetries
    · exact hcompressed.compressions hs.compressions
  | call _ houtcome _ =>
    cases houtcome with
    | refused _ hcalls hretries htools hcompressions _ =>
      exact ⟨hcalls ▸ hs.modelCalls, htools ▸ hs.toolCalls, hretries ▸ hs.providerRetries,
        hcompressions ▸ hs.compressions⟩
    | settled hcharged _ _ => exact hcharged.within hs
    | overflowed hcharged _ _ _ => exact hcharged.within hs
    | asked _ hcharged _ _ _ _ _ _ _ => exact hcharged.within hs
  | execute _ _ hexecuted _ =>
    exact ⟨hexecuted.modelCalls ▸ hs.modelCalls, hexecuted.toolCalls hs.toolCalls,
      hexecuted.providerRetries ▸ hs.providerRetries, hexecuted.compressions ▸ hs.compressions⟩
  | finish hfinal =>
    obtain ⟨htools, hcompressions, hcalls, hretries⟩ := finalize_spec hfinal
    exact ⟨hcalls hs.modelCalls, htools ▸ hs.toolCalls, hretries hs.providerRetries,
      hcompressions ▸ hs.compressions⟩

/-- The nodes that a run can still have, without the calls of answers to come. -/
def nodesLeft (budget : TurnBudget) (p : Position) : Nat :=
  match p.node with
  | .prepareContext => 2 * budget.modelCalls + 4
  | .compressContext => 2 * (budget.modelCalls - p.state.modelCalls) + 3
  | .callModel => 2 * (budget.modelCalls - p.state.modelCalls) + 2
  | .executeOneTool => 2 * (budget.modelCalls - p.state.modelCalls) + 2 +
      (p.state.pendingToolCalls.length - p.state.nextToolIndex)
  | .finalize => 1
  | .ended => 0

omit [UrlGrammar] [ContentHash] in
private theorem le_sum_of_mem {n : Nat} {ns : List Nat} (h : n ∈ ns) : n ≤ ns.sum := by
  induction ns with
  | nil => cases h
  | cons m rest ih =>
    rw [List.sum_cons]
    rcases List.mem_cons.mp h with rfl | hrest
    · omega
    · have hle := ih hrest
      omega

omit [ContentHash] in
private theorem le_toolCalls {catalog : List Modeling.ToolDefinition}
    {run : Modeling.ModelGateway.StreamRun} {elapsed : Rat} {turn : Modeling.ModelTurn}
    (h : turn ∈ run.events.filterMap GatewayEvent.completed) :
    turn.toolCalls.length ≤ (Answer.stream catalog run elapsed).toolCalls :=
  le_sum_of_mem (List.mem_map_of_mem h)

/-- Every step takes one of the nodes that are left. -/
theorem nodesLeft_step {p q : Position} {answer : Answer} (hp : Placed p)
    (h : AgentGraph.step runtime p answer = some q) :
    nodesLeft runtime.budget q + 1 ≤ nodesLeft runtime.budget p + answer.toolCalls := by
  obtain ⟨source, s⟩ := p
  obtain ⟨target, s'⟩ := q
  have hstep : GraphStep runtime s s' source answer target := step_cases hp h
  cases hstep with
  | prepare hnew _ hstate hnode =>
    subst hnode
    unfold routeAfterPrepare
    split <;> simp only [nodesLeft] <;> omega
  | compress _ hcompressed hnode =>
    subst hnode
    have hcharged := hcompressed.charged
    unfold routeAfterCompression
    split <;> simp only [nodesLeft] <;> omega
  | @call catalog run elapsed node hrequested houtcome hnode =>
    subst hnode
    cases houtcome with
    | refused hidle _ _ _ _ hsame =>
      rw [routeAfterModel_idle hidle (hsame.trans hrequested)]
      simp only [nodesLeft]
      omega
    | settled _ hidle hsame =>
      rw [routeAfterModel_idle hidle (hsame.trans hrequested)]
      simp only [nodesLeft]
      omega
    | overflowed hcharged _ _ hcompress =>
      have hbefore := hcharged.before
      have hmore := hcharged.charged
      rw [routeAfterModel, if_pos hcompress]
      simp only [nodesLeft]
      omega
    | asked turn hcharged _ hpending hnext hcalls hsame hcompleted _ =>
      have hbefore := hcharged.before
      have hmore := hcharged.charged
      have hcarried := @le_toolCalls _ catalog run elapsed turn hcompleted
      have hnode : routeAfterModel s' = .executeOneTool := by
        simp [routeAfterModel, hsame.trans hrequested, hpending, hcalls]
      rw [hnode]
      simp only [nodesLeft, hpending, hnext]
      omega
  | execute _ hcall hexecuted hnode =>
    subst hnode
    have hmore : s.nextToolIndex < s.pendingToolCalls.length :=
      (List.getElem?_eq_some_iff.mp hcall).1
    have hcalls := hexecuted.modelCalls
    have hpending := hexecuted.pendingToolCalls
    have hnext := hexecuted.nextToolIndex
    unfold routeAfterTool
    split <;> simp only [nodesLeft, hpending, hnext, hcalls] <;> omega
  | finish hfinal => simp [nodesLeft]

private theorem BudgetedRun.keeps {nodes calls : Nat} {p : Position}
    (h : BudgetedRun runtime nodes calls p) :
    Placed p ∧ Within runtime.budget p.state ∧
      nodes + nodesLeft runtime.budget p ≤ 2 * runtime.budget.modelCalls + 4 + calls := by
  induction h with
  | start =>
    exact ⟨start_placed, ⟨Nat.zero_le _, Nat.zero_le _, Nat.zero_le _, Nat.zero_le _⟩,
      by change 0 + (2 * _ + 4) ≤ 2 * _ + 4 + 0; omega⟩
  | step h hhonours hstep ih =>
    obtain ⟨hplaced, hwithin, hleft⟩ := ih
    have hnodes := nodesLeft_step hplaced hstep
    exact ⟨hplaced.step hstep, hwithin.step hplaced hhonours hstep, by omega⟩

omit [ContentHash] in
private theorem collectToolCitations_failed {results : List Agent.ToolResult}
    (h : ∀ result ∈ results, result.status = .error) :
    Agent.collectToolCitations results = .ok [] := by
  have hfold : results.foldlM Agent.Collected.addResult .empty = .ok .empty := by
    induction results with
    | nil => rfl
    | cons result rest ih =>
      have hstatus := h result List.mem_cons_self
      have hsame : Agent.Collected.empty.addResult result = .ok .empty := by
        simp [Agent.Collected.addResult, hstatus]
      rw [List.foldlM_cons, hsame]
      exact ih fun result hmem => h result (List.mem_cons_of_mem _ hmem)
  unfold Agent.collectToolCitations
  rw [hfold]
  rfl

/-- Calls have failed so far, and no pending one has arguments that are an object. -/
structure Failing (runtime : Runtime) (s : AgentState) : Prop where
  results : ∀ result ∈ s.toolResults, result.status = .error
  calls : ∀ call ∈ s.pendingToolCalls, runtime.isJsonObject call.argumentsJson = false

omit [ContentHash] in
private theorem Failing.recordResult {s : AgentState} (h : Failing runtime s)
    {result : Agent.ToolResult} (hresult : result.status = .error) :
    ∃ s', AgentGraph.recordResult runtime s result = some s' ∧ Failing runtime s' ∧
      s'.pendingToolCalls = s.pendingToolCalls ∧ s'.nextToolIndex = s.nextToolIndex + 1 := by
  have hresults : ∀ other ∈ s.toolResults ++ [result], other.status = .error := by
    intro other hother
    rcases List.mem_append.mp hother with hold | hnew
    · exact h.results other hold
    · rw [List.mem_singleton.mp hnew]
      exact hresult
  unfold AgentGraph.recordResult
  rw [collectToolCitations_failed hresults]
  exact ⟨_, rfl, ⟨hresults, h.calls⟩, rfl, rfl⟩

omit [ContentHash] in
private theorem Failing.executeOneTool {s : AgentState} (h : Failing runtime s)
    (hnext : s.nextToolIndex < s.pendingToolCalls.length) (execution : Agent.ToolExecution)
    (webRequests : Nat) (elapsed : Rat) :
    ∃ s', AgentGraph.executeOneTool runtime s execution webRequests elapsed = some s' ∧
      Failing runtime s' ∧ s'.pendingToolCalls = s.pendingToolCalls ∧
      s'.nextToolIndex = s.nextToolIndex + 1 := by
  have hcall := List.getElem?_eq_getElem hnext
  have hobject := h.calls _ (List.getElem_mem hnext)
  unfold AgentGraph.executeOneTool
  rw [hcall]
  cases hlimit : loopExhaustion s runtime.budget with
  | some limit =>
    apply Failing.recordResult
    · exact ⟨h.results, h.calls⟩
    · rfl
  | none =>
    simp only [hobject, Bool.false_eq_true, if_false]
    apply Failing.recordResult
    · exact ⟨h.results, h.calls⟩
    · rfl

private theorem Failing.run {nodes calls : Nat} {s : AgentState} (h : Failing runtime s)
    (hrun : BudgetedRun runtime nodes calls ⟨.executeOneTool, s⟩) {more : Nat}
    (hmore : s.nextToolIndex + more < s.pendingToolCalls.length) :
    ∃ s', BudgetedRun runtime (nodes + more) calls ⟨.executeOneTool, s'⟩ := by
  induction more generalizing nodes s with
  | zero => exact ⟨s, hrun⟩
  | succ more ih =>
    obtain ⟨s', hs', hfailing, hpending, hnext⟩ :=
      h.executeOneTool (by omega) (.other []) 0 0
    have hleft : s'.nextToolIndex + more < s'.pendingToolCalls.length := by
      rw [hpending, hnext]
      omega
    have hnode : routeAfterTool s' = .executeOneTool := if_pos (by omega)
    have hstep : AgentGraph.step runtime ⟨.executeOneTool, s⟩ (.tool (.other []) 0 0) =
        some ⟨.executeOneTool, s'⟩ := by
      simp only [AgentGraph.step, hs', goto, Option.map_some, hnode]
    have hone : BudgetedRun runtime (nodes + 1) calls ⟨.executeOneTool, s'⟩ := by
      apply BudgetedRun.step hrun ?_ hstep
      trivial
    obtain ⟨last, hlast⟩ := ih hfailing hone hleft
    refine ⟨last, ?_⟩
    rwa [Nat.add_assoc, Nat.add_comm 1 more] at hlast

end Runs

section Sample

attribute [local instance] spelledHash Agent.sampleGrammar

/-- The budgets of a Turn unless others are configured. -/
def sampleRuntime : Runtime where
  dump := Context.plainDump
  isJsonObject := fun text => decide (text = "\x7b\x7d".toList)
  budget := ⟨32, 64, 2, 2, 1800, by decide⟩

/-- A tool that reads files. -/
def sampleTool : Modeling.ToolDefinition :=
  ⟨"read_file".toList, "Read a file.".toList, .object [], by decide⟩

/-- How many decimal numbers are identifiers of calls. -/
def callNumbers : Nat := 10 ^ Modeling.maxDispatchCallId

/-- There are such numbers. -/
theorem callNumbers_pos : 0 < callNumbers := Nat.pow_pos (by decide)

private theorem toDigits_short {index : Nat} (h : index < callNumbers) :
    (Nat.toDigits 10 index).length ≤ Modeling.maxDispatchCallId :=
  (Nat.length_toDigits_le_iff (by decide) (by decide)).mpr h

/-- A call whose arguments are a list. -/
def listCall (index : Fin callNumbers) : Modeling.ToolCall where
  callId := Nat.toDigits 10 index
  name := "read_file".toList
  argumentsJson := "[]".toList
  valid := by
    have hshort : (Nat.toDigits 10 index).length ≤ Modeling.maxCallIdLength :=
      (toDigits_short index.isLt).trans (by decide)
    simp only [Modeling.isToolCall, Bool.and_eq_true, decide_eq_true_eq]
    exact ⟨⟨⟨Nat.toDigits_ne_nil, hshort⟩, by decide⟩, by decide⟩

/-- A turn with calls. -/
def listCalls (indices : List (Fin callNumbers)) : Modeling.ModelTurn :=
  Modeling.sampleTurn (indices.map listCall)

/-- A stream that completes a turn. -/
def completedRun (turn : Modeling.ModelTurn) : Modeling.ModelGateway.StreamRun :=
  ⟨[.model (.turnCompleted turn)], .exhausted, [[.turnCompleted turn]]⟩

variable {indices : List (Fin callNumbers)}

/-- Nothing but the context of a Turn is there. -/
structure Fresh (s : AgentState) : Prop where
  pendingToolCalls : s.pendingToolCalls = []
  nextToolIndex : s.nextToolIndex = 0
  toolResults : s.toolResults = []
  modelCalls : s.modelCalls = 0
  toolCalls : s.toolCalls = 0
  activeExecutionSeconds : s.activeExecutionSeconds = 0
  compressionRequested : s.compressionRequested = false

end Sample

end AwesomeAgent.AgentGraph
