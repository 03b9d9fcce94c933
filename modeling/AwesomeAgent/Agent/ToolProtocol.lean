import AwesomeAgent.Agent.GraphBudgets

/-!
# The tool protocol of a Turn

Behind the context of a Turn its messages are rounds: an answer with calls, and the observations
of their results. Before a model is called every round is complete, so a provider is sent one
observation for each call, in the order of the calls. A compression keeps the rounds, but it
rejects them unless their last calls are pending.
-/

namespace AwesomeAgent.AgentGraph

open Agent (UrlGrammar ToolResult)
open Context (ContextRequest PreparedContext)
open Modeling (Text ModelMessage ToolCall ToolDefinition GatewayEvent
  toolCallsAreDispatchableAndFresh)

/-! ## Messages in which calls are answered -/

/-- The calls of a message. -/
def callsOf : ModelMessage → List ToolCall
  | .assistant _ calls => calls
  | _ => []

/-- Every call is followed at once by its observations, in the order of the calls, and every
observation is that of a call. -/
def AnswersCalls : List ToolCall → List ModelMessage → Prop
  | outstanding, [] => outstanding = []
  | outstanding, .toolResult callId _ _ _ :: rest =>
      match outstanding with
      | [] => False
      | call :: later => callId = call.callId ∧ AnswersCalls later rest
  | outstanding, message :: rest => outstanding = [] ∧ AnswersCalls (callsOf message) rest

/-- The identifiers of the calls of messages. -/
def callIds (messages : List ModelMessage) : List Text :=
  (messages.flatMap callsOf).map ToolCall.callId

/-- Messages of a context have no calls and are no observations. -/
def isPlain : ModelMessage → Bool
  | .system _ | .user _ => true
  | .assistant _ calls => calls.isEmpty
  | .toolResult .. => false

private theorem answersCalls_plain {plain rest : List ModelMessage}
    (h : ∀ message ∈ plain, isPlain message = true) :
    AnswersCalls [] (plain ++ rest) ↔ AnswersCalls [] rest := by
  induction plain with
  | nil => rfl
  | cons message plain ih =>
    have hplain := h message List.mem_cons_self
    have hrest := ih fun other hother => h other (List.mem_cons_of_mem _ hother)
    cases message with
    | system content => simpa [AnswersCalls, callsOf] using hrest
    | user content => simpa [AnswersCalls, callsOf] using hrest
    | assistant content calls =>
      cases List.isEmpty_iff.mp hplain
      simpa [AnswersCalls, callsOf] using hrest
    | toolResult => cases hplain

private theorem callsOf_plain {plain : List ModelMessage}
    (h : ∀ message ∈ plain, isPlain message = true) :
    plain.flatMap callsOf = [] := by
  rw [List.flatMap_eq_nil_iff]
  intro message hmessage
  have hplain := h message hmessage
  cases message with
  | assistant content calls => exact List.isEmpty_iff.mp hplain
  | _ => rfl

section Rounds

variable [UrlGrammar]

/-- A round of the tool loop: an answer with calls, and the results of its first calls. -/
structure Round where
  content : Text
  calls : List ToolCall
  results : List ToolResult
  asked : calls ≠ []
  answered : results.map (·.callId) <+: calls.map (·.callId)

namespace Round

/-- The messages of a round. -/
def messages (round : Round) : List ModelMessage :=
  .assistant round.content round.calls :: round.results.map observation

/-- Every call of a round has its result. -/
def Complete (round : Round) : Prop := round.results.length = round.calls.length

private theorem Complete.answered {round : Round} (h : round.Complete) :
    round.results.map (·.callId) = round.calls.map (·.callId) :=
  round.answered.eq_of_length (by rw [List.length_map, List.length_map]; exact h)

private theorem answersCalls_observations {calls : List ToolCall} {results : List ToolResult}
    {rest : List ModelMessage}
    (h : results.map (·.callId) = calls.map (·.callId)) (hrest : AnswersCalls [] rest) :
    AnswersCalls calls (results.map observation ++ rest) := by
  induction results generalizing calls with
  | nil =>
    have hnil : calls = [] := List.map_eq_nil_iff.mp h.symm
    rwa [hnil]
  | cons result results ih =>
    cases calls with
    | nil => cases h
    | cons call calls =>
      obtain ⟨hid, hlater⟩ := List.cons.inj h
      exact ⟨hid, ih hlater⟩

private theorem answersCalls_messages {rounds : List Round} (h : ∀ round ∈ rounds, round.Complete) :
    AnswersCalls [] (rounds.flatMap messages) := by
  induction rounds with
  | nil => rfl
  | cons round rounds ih =>
    have hround := (h round List.mem_cons_self).answered
    have hrest := ih fun other hother => h other (List.mem_cons_of_mem _ hother)
    exact ⟨rfl, answersCalls_observations hround hrest⟩

private theorem callsOf_messages (rounds : List Round) :
    (rounds.flatMap messages).flatMap callsOf = rounds.flatMap Round.calls := by
  induction rounds with
  | nil => rfl
  | cons round rounds ih =>
    have hobservations : (round.results.map observation).flatMap callsOf = [] := by
      simp [List.flatMap_eq_nil_iff, observation, callsOf]
    rw [List.flatMap_cons, List.flatMap_append, ih, List.flatMap_cons, messages,
      List.flatMap_cons, hobservations, List.append_nil]
    rfl

private theorem results_of_complete {rounds : List Round} (h : ∀ round ∈ rounds, round.Complete) :
    (rounds.flatMap Round.results).map (·.callId) =
      (rounds.flatMap Round.calls).map (·.callId) := by
  induction rounds with
  | nil => rfl
  | cons round rounds ih =>
    have hround := (h round List.mem_cons_self).answered
    have hrest := ih fun other hother => h other (List.mem_cons_of_mem _ hother)
    rw [List.flatMap_cons, List.flatMap_cons, List.map_append, List.map_append, hround, hrest]

end Round

/-! ## The rounds of a state -/

/-- The messages of a state are those of a context and of rounds. -/
structure ToolLoop (s : AgentState) (context : List ModelMessage) (rounds : List Round) :
    Prop where
  plain : ∀ message ∈ context, isPlain message = true
  manifest : s.contextManifest.length = context.length
  messages : s.messages = context ++ rounds.flatMap Round.messages
  results : s.toolResults = rounds.flatMap Round.results
  fresh : ((rounds.flatMap Round.calls).map ToolCall.callId).Nodup

/-- Every round is complete, or the calls of the last one are pending. -/
def KeepsProtocol (p : Position) : Prop :=
  match p.node with
  | .compressContext | .callModel =>
      ∃ context rounds, ToolLoop p.state context rounds ∧ ∀ round ∈ rounds, round.Complete
  | .executeOneTool => ∃ context rounds current, ToolLoop p.state context (rounds ++ [current]) ∧
      (∀ round ∈ rounds, round.Complete) ∧ current.calls = p.state.pendingToolCalls ∧
        current.results.length = p.state.nextToolIndex
  | .prepareContext | .finalize | .ended => True

variable {context : List ModelMessage} {rounds : List Round} {calls : List ToolCall}

private theorem ToolLoop.congr {s s' : AgentState}
    (h : ToolLoop s context rounds) (hmessages : s'.messages = s.messages)
    (hresults : s'.toolResults = s.toolResults)
    (hmanifest : s'.contextManifest = s.contextManifest) : ToolLoop s' context rounds where
  plain := h.plain
  manifest := hmanifest ▸ h.manifest
  messages := hmessages.trans h.messages
  results := hresults.trans h.results
  fresh := h.fresh

private theorem ToolLoop.tail {s : AgentState} (h : ToolLoop s context rounds) :
    s.messages.drop s.contextManifest.length = rounds.flatMap Round.messages := by
  rw [h.messages, h.manifest, List.drop_left]

private theorem activeTurnToolTail_eq_some {s : AgentState} {toolTail : List ModelMessage}
    (h : activeTurnToolTail s = some toolTail) :
    toolTail = s.messages.drop s.contextManifest.length := by
  unfold activeTurnToolTail at h
  dsimp only at h
  split at h
  · exact (Option.some.inj h).symm
  · cases h

omit [UrlGrammar] in
private theorem dispatchable_fresh {completed : List Text}
    (h : toolCallsAreDispatchableAndFresh calls completed = true) :
    (calls.map ToolCall.callId).Nodup ∧ ∀ call ∈ calls, call.callId ∉ completed := by
  simp only [toolCallsAreDispatchableAndFresh, Bool.and_eq_true, List.all_eq_true,
    decide_eq_true_eq] at h
  exact ⟨h.1.2, h.2⟩

private theorem ToolLoop.ask {s s' : AgentState} {content : Text} (h : ToolLoop s context rounds)
    (hcomplete : ∀ round ∈ rounds, round.Complete) (hcalls : calls ≠ [])
    (hfresh : toolCallsAreDispatchableAndFresh calls (s.toolResults.map (·.callId)) = true)
    (hmessages : s'.messages = s.messages ++ [.assistant content calls])
    (hresults : s'.toolResults = s.toolResults)
    (hmanifest : s'.contextManifest = s.contextManifest) :
    ToolLoop s' context (rounds ++ [⟨content, calls, [], hcalls, List.nil_prefix⟩]) where
  plain := h.plain
  manifest := hmanifest ▸ h.manifest
  messages := by
    rw [hmessages, h.messages, List.flatMap_append, List.append_assoc]
    rfl
  results := by
    rw [hresults, h.results, List.flatMap_append]
    exact (List.append_nil _).symm
  fresh := by
    obtain ⟨hnodup, hnew⟩ := dispatchable_fresh hfresh
    rw [h.results, Round.results_of_complete hcomplete] at hnew
    rw [List.flatMap_append, List.map_append]
    refine h.fresh.append ?_ ?_
    · simpa using hnodup
    · intro callId hold hlatest
      obtain ⟨call, hcall, rfl⟩ := List.mem_map.mp hlatest
      exact hnew call (by simpa using hcall) hold

private theorem ToolLoop.execute {s s' : AgentState} {context : List ModelMessage}
    {rounds : List Round}
    {current : Round} {result : ToolResult} {call : ToolCall}
    (h : ToolLoop s context (rounds ++ [current]))
    (hcall : current.calls[current.results.length]? = some call)
    (hid : result.callId = call.callId)
    (hmessages : s'.messages = s.messages ++ [observation result])
    (hresults : s'.toolResults = s.toolResults ++ [result])
    (hmanifest : s'.contextManifest = s.contextManifest) :
    ∃ next : Round, ToolLoop s' context (rounds ++ [next]) ∧ next.calls = current.calls ∧
      next.results = current.results ++ [result] := by
  have hanswered : (current.results ++ [result]).map (·.callId) <+:
      current.calls.map (·.callId) := by
    obtain ⟨later, hlater⟩ := current.answered
    have hnext : later[0]? = some result.callId := by
      have hmapped : (current.calls.map (·.callId))[current.results.length]? =
          some result.callId := by rw [List.getElem?_map, hcall, hid, Option.map_some]
      rw [← hlater, List.getElem?_append_right (by simp)] at hmapped
      simpa using hmapped
    cases later with
    | nil => cases hnext
    | cons callId later =>
      cases hnext
      exact ⟨later, by rw [← hlater, List.map_append, List.append_assoc]; rfl⟩
  refine ⟨⟨current.content, current.calls, current.results ++ [result], current.asked, hanswered⟩,
    ⟨h.plain, hmanifest ▸ h.manifest, ?_, ?_, ?_⟩, rfl, rfl⟩
  · rw [hmessages, h.messages]
    simp [List.flatMap_append, Round.messages]
  · rw [hresults, h.results]
    simp [List.flatMap_append]
  · have hsame := h.fresh
    rw [List.flatMap_append] at hsame ⊢
    exact hsame

section Steps

variable [ContentHash] {runtime : Runtime}

omit [UrlGrammar] in
private theorem prepared_plain {dump : ModelMessage → Text} {request : ContextRequest}
    {prepared : PreparedContext} (h : Context.prepare dump request = .ok prepared) :
    (∀ message ∈ prepared.messages, isPlain message = true) ∧
      prepared.manifest.length = prepared.messages.length := by
  obtain ⟨budget, hbudget, -⟩ := except_bind_ok h
  rcases Context.prepare_cases dump hbudget with ⟨⟨text, herror⟩, -⟩ | ⟨herror, -⟩ |
    ⟨other, ordered, entries, hother, -, hpacks⟩
  · rw [h] at herror
    cases herror
  · rw [h] at herror
    cases herror
  · rw [h] at hother
    cases hother
    constructor
    · intro message hmessage
      rw [hpacks.messages] at hmessage
      obtain ⟨entry, -, rfl⟩ := List.mem_map.mp hmessage
      unfold Context.messageOf
      split
      · rfl
      · split <;> rfl
    · simp [hpacks.messages, hpacks.manifest]

variable {rounds : List Round}

private theorem ToolLoop.compress {s s' : AgentState} {answer : CompactionAnswer}
    {context : List ModelMessage} (h : ToolLoop s context rounds)
    (hcompressed : Compressed runtime answer s s') : ∃ context', ToolLoop s' context' rounds := by
  rcases hcompressed.messages with ⟨hmessages, hmanifest⟩ |
    ⟨toolTail, prepared, request, htail, hprepared, hmessages, hmanifest⟩
  · exact ⟨context, h.congr hmessages hcompressed.toolResults hmanifest⟩
  · obtain ⟨hplain, hlength⟩ := prepared_plain hprepared
    refine ⟨prepared.messages, hplain, hmanifest ▸ hlength, ?_,
      hcompressed.toolResults.trans h.results, h.fresh⟩
    rw [hmessages, activeTurnToolTail_eq_some htail, h.tail]

/-- Every step keeps the protocol. -/
theorem KeepsProtocol.step {p q : Position} {answer : Answer} (hp : Placed p)
    (hkeeps : KeepsProtocol p) (h : AgentGraph.step runtime p answer = some q) :
    KeepsProtocol q := by
  obtain ⟨source, s⟩ := p
  obtain ⟨target, s'⟩ := q
  have hstep : GraphStep runtime s s' source answer target := step_cases hp h
  cases hstep with
  | prepare hnew hprepared hstate hnode =>
    subst hnode
    obtain ⟨hplain, hlength⟩ := prepared_plain hprepared
    obtain ⟨context, hloop⟩ : ∃ context, ToolLoop s' context [] := by
      subst hstate
      exact ⟨_, hplain, hlength, (List.append_nil _).symm, by rw [hnew]; rfl, List.nodup_nil⟩
    unfold routeAfterPrepare
    split
    · exact ⟨context, [], hloop, nofun⟩
    · exact ⟨context, [], hloop, nofun⟩
  | compress hidle hcompressed hnode =>
    subst hnode
    obtain ⟨context, rounds, hloop, hcomplete⟩ := hkeeps
    obtain ⟨context', hloop'⟩ := hloop.compress hcompressed
    unfold routeAfterCompression
    split
    · trivial
    · exact ⟨context', rounds, hloop', hcomplete⟩
  | call hrequested houtcome hnode =>
    subst hnode
    obtain ⟨context, rounds, hloop, hcomplete⟩ := hkeeps
    cases houtcome with
    | refused hidle _ _ _ _ hsame =>
      rw [routeAfterModel_idle hidle (hsame.trans hrequested)]
      trivial
    | settled _ hidle hsame =>
      rw [routeAfterModel_idle hidle (hsame.trans hrequested)]
      trivial
    | overflowed hcharged _ hmessages hcompress =>
      rw [routeAfterModel, if_pos hcompress]
      exact ⟨context, rounds, hloop.congr hmessages hcharged.toolResults hcharged.contextManifest,
        hcomplete⟩
    | asked turn hcharged hmessages hpending hnext hcalls hsame _ hfresh =>
      have hnode : routeAfterModel s' = .executeOneTool := by
        simp [routeAfterModel, hsame.trans hrequested, hpending, hcalls]
      rw [hnode]
      exact ⟨context, rounds, _, hloop.ask hcomplete hcalls hfresh hmessages hcharged.toolResults
        hcharged.contextManifest, hcomplete, hpending.symm, hnext.symm⟩
  | execute _ hcall hexecuted hnode =>
    subst hnode
    obtain ⟨context, rounds, current, hloop, hcomplete, hcalls, hresults⟩ := hkeeps
    obtain ⟨result, hid, hrecorded, hmessages⟩ := hexecuted.result
    obtain ⟨next, hloop', hcalls', hresults'⟩ := hloop.execute
      (by rw [hcalls, hresults]; exact hcall) hid hmessages hrecorded hexecuted.contextManifest
    have hpending : next.calls = s'.pendingToolCalls :=
      hcalls'.trans (hcalls.trans hexecuted.pendingToolCalls.symm)
    have hlength : next.results.length = s'.nextToolIndex := by
      rw [hresults', List.length_append, hresults, hexecuted.nextToolIndex]
      rfl
    unfold routeAfterTool
    split
    · exact ⟨context, rounds, next, hloop', hcomplete, hpending, hlength⟩
    · next hdone =>
      refine ⟨context, rounds ++ [next], hloop', fun round hround => ?_⟩
      rcases List.mem_append.mp hround with hold | hnew
      · exact hcomplete round hold
      · rw [List.mem_singleton.mp hnew]
        have hle := next.answered.length_le
        rw [List.length_map, List.length_map] at hle
        unfold Round.Complete
        rw [hpending] at hle ⊢
        omega
  | finish hfinal => trivial

private theorem run_keepsProtocol {p q : Position} {answers : List Answer} (hp : Placed p)
    (hkeeps : KeepsProtocol p) (h : run runtime p answers = some q) :
    Placed q ∧ KeepsProtocol q := by
  induction answers generalizing p with
  | nil =>
    cases h
    exact ⟨hp, hkeeps⟩
  | cons answer answers ih =>
    obtain ⟨next, hstep, hrest⟩ := Option.bind_eq_some_iff.mp h
    exact ih (hp.step hstep) (hkeeps.step hp hstep) hrest

/-- What a provider is sent keeps the protocol: every call is answered at once and in order,
every observation has its call, and the identifiers are those of the results, each once. -/
structure SentProtocol (s : AgentState) (request : ModelRequest) : Prop where
  answered : AnswersCalls [] request.messages
  executed : callIds request.messages = s.toolResults.map (·.callId)
  fresh : (callIds request.messages).Nodup

omit [ContentHash] in
private theorem modelRequest_messages {s : AgentState} {toolCatalog : List ToolDefinition}
    {request : ModelRequest} (h : modelRequest runtime s toolCatalog = some request) :
    request.messages = s.messages := by
  unfold modelRequest at h
  split at h
  · cases h
  · cases h
    unfold forgetExecuted
    split <;> rfl

/-- In every run a model is sent messages that keep the protocol. -/
theorem model_requests_keep_protocol {answers : List Answer} {p : Position}
    {toolCatalog : List ToolDefinition} {request : ModelRequest}
    (h : run runtime start answers = some p) (hnode : p.node = .callModel)
    (hrequest : modelRequest runtime p.state toolCatalog = some request) :
    SentProtocol p.state request := by
  obtain ⟨-, hkeeps⟩ := run_keepsProtocol start_placed trivial h
  obtain ⟨node, s⟩ := p
  subst hnode
  obtain ⟨context, rounds, hloop, hcomplete⟩ := hkeeps
  have hmessages : request.messages = s.messages := modelRequest_messages hrequest
  have hcalls : callIds request.messages = (rounds.flatMap Round.calls).map ToolCall.callId := by
    rw [callIds, hmessages, hloop.messages, List.flatMap_append, callsOf_plain hloop.plain,
      List.nil_append, Round.callsOf_messages]
  constructor
  · rw [hmessages, hloop.messages]
    exact (answersCalls_plain hloop.plain).mpr (Round.answersCalls_messages hcomplete)
  · rw [hcalls, hloop.results, Round.results_of_complete hcomplete]
  · rw [hcalls]
    exact hloop.fresh

/-! ## The tool tail of a compression -/

/-- A compression accepts the tool tail of a state, and leaves it unchanged behind the messages
of every context that it builds. -/
structure KeepsToolTail (runtime : Runtime) (s : AgentState) : Prop where
  accepted : activeTurnToolTail s = some (s.messages.drop s.contextManifest.length)
  rebuilt : ∀ answer result prepared, AgentGraph.compress runtime s answer = some result →
    result.prepared = some prepared → ∃ context,
      (∀ message ∈ context, isPlain message = true) ∧
        prepared.messages = context ++ s.messages.drop s.contextManifest.length

omit [ContentHash] in
private theorem results_eq_nil_iff (h : ∀ round ∈ rounds, round.Complete) :
    rounds.flatMap Round.results = [] ↔ rounds = [] := by
  constructor
  · intro hresults
    cases rounds with
    | nil => rfl
    | cons round rounds =>
      have hround : round.results = [] := (List.append_eq_nil_iff.mp hresults).1
      have hlength := h round List.mem_cons_self
      unfold Round.Complete at hlength
      rw [hround] at hlength
      exact absurd (List.eq_nil_of_length_eq_zero hlength.symm) round.asked
  · rintro rfl
    rfl

omit [UrlGrammar] [ContentHash] in
private theorem TailScan.readAll_latestCalls {messages : List ModelMessage} {t t' : TailScan}
    (hcalls : ∀ content calls, ModelMessage.assistant content calls ∈ messages → calls ≠ [])
    (h : t.readAll messages = some t')
    (hlatest : t.latestCalls ≠ [] ∨ ∃ content calls, .assistant content calls ∈ messages) :
    t'.latestCalls ≠ [] := by
  induction messages generalizing t with
  | nil =>
    cases h
    rcases hlatest with hlatest | ⟨_, _, hmem⟩
    · exact hlatest
    · cases hmem
  | cons message rest ih =>
    obtain ⟨next, hread, hrest⟩ := Option.bind_eq_some_iff.mp h
    have hlater : ∀ content calls, ModelMessage.assistant content calls ∈ rest → calls ≠ [] :=
      fun content calls hmem => hcalls content calls (List.mem_cons_of_mem _ hmem)
    apply ih hlater hrest
    cases message with
    | system content => cases hread
    | user content => cases hread
    | assistant content calls =>
      left
      simp only [TailScan.read] at hread
      split at hread
      · cases hread
      · obtain ⟨seen, -, rfl⟩ := Option.map_eq_some_iff.mp hread
        exact hcalls content calls List.mem_cons_self
    | toolResult callId content isError artifactRefs =>
      have hsame : next.latestCalls = t.latestCalls := by
        simp only [TailScan.read] at hread
        split at hread
        · cases hread
        · split at hread
          · cases hread
          · cases hread
            rfl
      rw [hsame]
      refine hlatest.imp_right fun ⟨content', calls, hmem⟩ => ?_
      rcases List.mem_cons.mp hmem with heq | hmem
      · cases heq
      · exact ⟨content', calls, hmem⟩

omit [ContentHash] in
private theorem Round.asked_of_mem {content : Text} {calls : List ToolCall}
    (h : .assistant content calls ∈ rounds.flatMap Round.messages) : calls ≠ [] := by
  obtain ⟨round, -, hround⟩ := List.mem_flatMap.mp h
  rcases List.mem_cons.mp hround with heq | hobservation
  · cases heq
    exact round.asked
  · obtain ⟨result, -, heq⟩ := List.mem_map.mp hobservation
    cases heq

omit [ContentHash] in
private theorem rounds_eq_nil_of_valid {results : List ToolResult}
    (h : frozenMessageTailIsValid (rounds.flatMap Round.messages) [] 0 results = true) :
    rounds = [] := by
  cases rounds with
  | nil => rfl
  | cons round rounds =>
    have hmem : .assistant round.content round.calls ∈
        (round :: rounds).flatMap Round.messages := List.mem_cons_self
    unfold frozenMessageTailIsValid at h
    rw [if_neg (List.ne_nil_of_mem hmem)] at h
    split at h
    · cases h
    · next t hread =>
      have hpending : [] = t.latestCalls := (of_decide_eq_true h).1
      exact absurd hpending.symm (TailScan.readAll_latestCalls
        (fun _ _ => Round.asked_of_mem) hread (Or.inr ⟨_, _, hmem⟩))

/-- A compression keeps the tool tail exactly when no call of the Turn has been executed. -/
theorem compression_keeps_tool_tail_iff {answers : List Answer} {p : Position}
    (h : run runtime start answers = some p) (hnode : p.node = .compressContext) :
    KeepsToolTail runtime p.state ↔ p.state.toolResults = [] := by
  obtain ⟨hplaced, hkeeps⟩ := run_keepsProtocol start_placed trivial h
  obtain ⟨node, s⟩ := p
  subst hnode
  obtain ⟨context, rounds, hloop, hcomplete⟩ := hkeeps
  have hidle : Idle s := hplaced
  change KeepsToolTail runtime s ↔ s.toolResults = []
  constructor
  · intro hkept
    have haccepted := hkept.accepted
    unfold activeTurnToolTail at haccepted
    dsimp only at haccepted
    split at haccepted
    · next hvalid =>
      rw [hidle.1, hidle.2, hloop.tail] at hvalid
      rw [hloop.results, rounds_eq_nil_of_valid hvalid.2]
      rfl
    · cases haccepted
  · intro hresults
    have hrounds : rounds = [] :=
      (results_eq_nil_iff hcomplete).mp (hloop.results ▸ hresults)
    have htail : s.messages.drop s.contextManifest.length = [] := by
      rw [hloop.tail, hrounds]
      rfl
    constructor
    · have hlength : s.contextManifest.length ≤ s.messages.length := by
        rw [hloop.manifest, hloop.messages, List.length_append]
        exact Nat.le_add_right _ _
      have hvalid : frozenMessageTailIsValid (s.messages.drop s.contextManifest.length)
          s.pendingToolCalls s.nextToolIndex s.toolResults = true := by
        rw [htail, hidle.1, hidle.2, hresults]
        rfl
      exact if_pos ⟨hlength, hvalid⟩
    · intro answer result prepared hresult hprepared
      obtain ⟨toolTail, base, request, haccepted, hbase, hmessages, -⟩ :=
        (compress_spec hresult).2 prepared hprepared
      refine ⟨base.messages, (prepared_plain hbase).1, ?_⟩
      rw [hmessages, activeTurnToolTail_eq_some haccepted]

end Steps

end Rounds

section Sample

attribute [local instance] spelledHash Agent.sampleGrammar

/-- A stream that reports a context that is too long. -/
def overflowedRun : Modeling.ModelGateway.StreamRun :=
  ⟨[.model (.turnFailed ⟨.contextLength, "Context is too long.", .deepseek, none⟩)], .exhausted, []⟩

/-- A run to a model call behind a tool call. -/
def behindTool : List Answer :=
  [.context Context.inputFirst,
    .stream [sampleTool] (completedRun (listCalls [⟨0, callNumbers_pos⟩])) 0,
    .tool (.other []) 0 0]

/-- The second request of a Turn with a tool call keeps the protocol. -/
theorem model_requests_keep_protocol_sample : ∃ (p : Position) (request : ModelRequest),
    request.messages.length = 4 ∧ SentProtocol p.state request := by
  have hrun : (run sampleRuntime start behindTool).bind (fun p =>
      (modelRequest sampleRuntime p.state [sampleTool]).map fun request =>
        (p.node, request.messages.length)) = some (.callModel, 4) := by
    decide +kernel
  obtain ⟨p, hp, hrequest⟩ := Option.bind_eq_some_iff.mp hrun
  obtain ⟨request, hrequest, hsame⟩ := Option.map_eq_some_iff.mp hrequest
  obtain ⟨hnode, hlength⟩ := Prod.mk.inj hsame
  exact ⟨p, request, hlength, model_requests_keep_protocol hp hnode hrequest⟩

/-- A context that is too long behind a tool call: the tool tail is rejected. -/
theorem overflow_behind_tool_rejected :
    ¬ ∀ answers p, run sampleRuntime start answers = some p → p.node = .compressContext →
      KeepsToolTail sampleRuntime p.state := by
  intro h
  have hrun : (run sampleRuntime start
      (behindTool ++ [.stream [sampleTool] overflowedRun 0])).map
        (fun p => (p.node, (activeTurnToolTail p.state).isSome)) =
          some (.compressContext, false) := by
    decide +kernel
  obtain ⟨p, hp, hsame⟩ := Option.map_eq_some_iff.mp hrun
  obtain ⟨hnode, htail⟩ := Prod.mk.inj hsame
  rw [(h _ p hp hnode).accepted] at htail
  cases htail

/-- A compression before any round keeps the tail. -/
theorem compression_keeps_tool_tail_iff_sample : ∃ p : Position,
    p.node = .compressContext ∧ KeepsToolTail sampleRuntime p.state := by
  have hrun : (run sampleRuntime start [.context Context.inputFirst,
      .stream [sampleTool] overflowedRun 0]).map (fun p => (p.node, p.state.toolResults.length)) =
        some (.compressContext, 0) := by
    decide
  obtain ⟨p, hp, hsame⟩ := Option.map_eq_some_iff.mp hrun
  obtain ⟨hnode, hresults⟩ := Prod.mk.inj hsame
  exact ⟨p, hnode, (compression_keeps_tool_tail_iff hp hnode).mpr
    (List.eq_nil_of_length_eq_zero hresults)⟩

end Sample

end AwesomeAgent.AgentGraph
