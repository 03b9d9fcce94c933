import AwesomeAgent.Library.Dict
import AwesomeAgent.Library.Runs
import AwesomeAgent.Modeling.Turns

/-!
# Tool names on the wire

A provider rewrites tool names to the characters that its interface allows. Two tools whose
rewritten names are the same are told apart by a digest; a tool call of the history is sent
under the name of its tool in the request, or rewritten plainly when the tool is not offered.
-/

namespace AwesomeAgent.Modeling

/-- Which tool a model may call. -/
inductive ToolChoice
  | auto
  | none
  | required
  | tool (name : Text)
  deriving DecidableEq

/-- Whether a choice fits the names of the tools. -/
def ToolChoice.fits (choice : ToolChoice) (names : List Text) : Bool :=
  match choice with
  | .tool name => decide (name ∈ names)
  | .required => decide (names ≠ [])
  | _ => true

/-- A request to a model: its messages, and tools with distinct names. -/
structure ModelRequest where
  messages : List ModelMessage
  tools : List ToolDefinition
  toolChoice : ToolChoice
  maxOutputTokens : Nat
  thinkingEnabled : Bool
  continuation : Option ContinuationState
  asked : messages ≠ []
  distinct : (tools.map ToolDefinition.name).Nodup
  chosen : toolChoice.fits (tools.map ToolDefinition.name) = true

/-- The tool calls of a message. -/
def ModelMessage.calls : ModelMessage → List ToolCall
  | .assistant _ calls => calls
  | _ => []

namespace ModelRequest

/-- Names of the tools that a request offers. -/
def toolNames (request : ModelRequest) : List Text := request.tools.map ToolDefinition.name

/-- Names of the tools that were called before a request. -/
def historyNames (request : ModelRequest) : List Text :=
  (request.messages.flatMap ModelMessage.calls).map ToolCall.name

/-- All tool names of a request. -/
def names (request : ModelRequest) : List Text := request.toolNames ++ request.historyNames

end ModelRequest

/-- Characters that a wire name may have. -/
def isWireChar (c : Char) : Bool := c.isAlphanum || c == '_'

/-- The plain rewrite of a name. -/
def wireName (name : Text) : Text :=
  match name.map fun c => if isWireChar c then c else '_' with
  | [] => "tool".toList
  | root => root

/-- The names of the tools of a request, in both directions. -/
structure ToolNames where
  modelToWire : Dict Text Text
  wireToModel : Dict Text Text

/-- The plain rewrite of a name, or another if a different tool has it. -/
def uniqueWireName (digest : Text → Text) (name : Text) (wireToModel : Dict Text Text) :
    Except String Text :=
  let root := wireName name
  if wireToModel.get? root = none ∨ wireToModel.get? root = some name then .ok root
  else
    let candidate := root ++ '_' :: (digest name).take 8
    if wireToModel.get? candidate = none ∨ wireToModel.get? candidate = some name then
      .ok candidate
    else .error "Tool names collide after Provider encoding."

/-- Name one more tool. -/
def ToolNames.add (digest : Text → Text) (names : ToolNames) (name : Text) :
    Except String ToolNames := do
  let wire ← uniqueWireName digest name names.wireToModel
  return ⟨names.modelToWire.set name wire, names.wireToModel.set wire name⟩

/-- Name tools in their order. -/
def toolNames (digest : Text → Text) (tools : List Text) : Except String ToolNames :=
  tools.foldlM (ToolNames.add digest) ⟨.empty, .empty⟩

namespace ToolNames

/-- The wire name of a call of the history. -/
def ofCall (names : ToolNames) (name : Text) : Text :=
  (names.modelToWire.get? name).getD (wireName name)

/-- The tool that a streamed call names. -/
def decode (names : ToolNames) (wire : Text) : Text := (names.wireToModel.get? wire).getD wire

end ToolNames

/-- A tool call on the wire. -/
structure WireCall where
  id : Text
  name : Text
  arguments : Text
  deriving DecidableEq

/-- A message on the wire. -/
inductive WireMessage
  | system (content : Text)
  | user (content : Text)
  | assistant (content : Option Text) (toolCalls : List WireCall) (reasoning : Option Text)
  | tool (callId content : Text)
  deriving DecidableEq

/-- The reasoning that a request continues, if it is one of the provider. -/
def continuationReasoning (provider : ProviderId) (request : ModelRequest) : Option Text :=
  request.continuation.bind fun c =>
    if c.provider = provider ∧ c.kind = "chat.reasoning_content" then some c.reasoningContent
    else none

/-- A message on the wire; the last assistant message carries the reasoning. -/
def wireMessage (names : ToolNames) (reasoning : Option Text) (last : Bool) :
    ModelMessage → WireMessage
  | .system content => .system content
  | .user content => .user content
  | .assistant content calls =>
      .assistant (if content = [] then none else some content)
        (calls.map fun call => ⟨call.callId, names.ofCall call.name, call.argumentsJson⟩)
        (if last then reasoning else none)
  | .toolResult callId content _ _ => .tool callId content

/-- Whether a message is one of the assistant. -/
def ModelMessage.isAssistant : ModelMessage → Bool
  | .assistant .. => true
  | _ => false

/-- The messages of a request on the wire. -/
def wireMessages (names : ToolNames) (reasoning : Option Text) :
    List ModelMessage → List WireMessage
  | [] => []
  | message :: rest =>
      wireMessage names reasoning (!rest.any ModelMessage.isAssistant) message ::
        wireMessages names reasoning rest

/-- The tool calls of a message on the wire. -/
def WireMessage.calls : WireMessage → List WireCall
  | .assistant _ calls _ => calls
  | _ => []

private theorem calls_wireMessages (names : ToolNames) (reasoning : Option Text)
    (messages : List ModelMessage) :
    (wireMessages names reasoning messages).flatMap WireMessage.calls =
      (messages.flatMap ModelMessage.calls).map fun call =>
        ⟨call.callId, names.ofCall call.name, call.argumentsJson⟩ := by
  induction messages with
  | nil => rfl
  | cons message rest ih =>
    rw [wireMessages, List.flatMap_cons, List.flatMap_cons, List.map_append, ih]
    congr 1
    cases message <;> rfl

/-- A tool on the wire. -/
structure WireTool where
  name : Option Text
  description : Text
  parameters : Json

/-- The tools of a request on the wire. -/
def wireTools (request : ModelRequest) (names : ToolNames) : Option (List WireTool) :=
  if request.tools = [] then none
  else some (request.tools.map fun tool =>
    ⟨names.modelToWire.get? tool.name, tool.description, tool.inputSchema⟩)

/-- The tool choice of a request on the wire. -/
inductive WireChoice
  | mode (value : String)
  | function (name : Option Text)
  deriving DecidableEq

/-- The choice of a request on the wire, if it offers tools. -/
def wireChoice (request : ModelRequest) (names : ToolNames) : Option WireChoice :=
  if request.tools = [] then none
  else some <| match request.toolChoice with
    | .auto => .mode "auto"
    | .none => .mode "none"
    | .required => .mode "required"
    | .tool name => .function (names.modelToWire.get? name)

/-- What is sent to a provider. -/
structure WireRequest where
  messages : List WireMessage
  tools : Option (List WireTool)
  toolChoice : Option WireChoice
  maxTokens : Nat
  thinking : String

/-- Encode a request. -/
def encodeRequest (digest : Text → Text) (provider : ProviderId) (request : ModelRequest) :
    Except String WireRequest := do
  let names ← toolNames digest request.toolNames
  return ⟨wireMessages names (continuationReasoning provider request) request.messages,
    wireTools request names, wireChoice request names, request.maxOutputTokens,
    if request.thinkingEnabled then "enabled" else "disabled"⟩

/-! ## Names in both directions -/

namespace ToolNames

/-- The two directions agree, and only the given tools have a name. -/
structure Named (names : ToolNames) (tools : List Text) : Prop where
  inverse : ∀ name wire,
    names.modelToWire.get? name = some wire ↔ names.wireToModel.get? wire = some name
  named : ∀ name, (∃ wire, names.modelToWire.get? name = some wire) ↔ name ∈ tools

private theorem named_empty : Named ⟨.empty, .empty⟩ [] := by
  refine ⟨fun name wire => ?_, fun name => ?_⟩
  · simp
  · simp

variable {digest : Text → Text} {names : ToolNames} {name : Text} {tools : List Text}

private theorem add_eq_ok {names' : ToolNames} :
    names.add digest name = .ok names' ↔ ∃ wire,
      uniqueWireName digest name names.wireToModel = .ok wire ∧
        names' = ⟨names.modelToWire.set name wire, names.wireToModel.set wire name⟩ := by
  unfold add
  cases uniqueWireName digest name names.wireToModel with
  | error message => simp [bind, Except.bind]
  | ok wire => simp [bind, Except.bind, pure, Except.pure, eq_comm]

private theorem uniqueWireName_free {wire : Text} {known : Dict Text Text}
    (h : uniqueWireName digest name known = .ok wire) :
    known.get? wire = none ∨ known.get? wire = some name := by
  unfold uniqueWireName at h
  dsimp only at h
  split at h
  · next hroot =>
    cases h
    exact hroot
  · split at h
    · next hcandidate =>
      cases h
      exact hcandidate
    · cases h

private theorem Named.add {names' : ToolNames} (h : Named names tools) (hnew : name ∉ tools)
    (hadd : names.add digest name = .ok names') : Named names' (tools ++ [name]) := by
  obtain ⟨wire, hwire, rfl⟩ := add_eq_ok.1 hadd
  have hunnamed : ∀ w, names.modelToWire.get? name ≠ some w := fun w hw =>
    hnew ((h.named name).mp ⟨w, hw⟩)
  have hfree : names.wireToModel.get? wire = none := by
    rcases uniqueWireName_free hwire with hnone | hsome
    · exact hnone
    · exact absurd ((h.inverse name wire).mpr hsome) (hunnamed wire)
  have hunused : ∀ other, names.modelToWire.get? other ≠ some wire := fun other hother =>
    absurd (hfree.symm.trans ((h.inverse other wire).mp hother)) nofun
  constructor
  · intro other w
    simp only [Dict.get?_set]
    by_cases hname : other = name
    · by_cases hw : w = wire
      · simp [hname, hw]
      · have hno : names.wireToModel.get? w ≠ some name := fun hs =>
          hunnamed w ((h.inverse name w).mpr hs)
        simp [hname, hw, hno, Ne.symm hw]
    · by_cases hw : w = wire
      · subst hw
        simp [hname, Ne.symm hname, hunused other]
      · simp [hname, hw, h.inverse other w]
  · intro other
    simp only [Dict.get?_set, List.mem_append, List.mem_singleton]
    by_cases hname : other = name
    · simp [hname]
    · simp [hname, h.named other]

private theorem Named.foldlM {names' : ToolNames}
    {before : List Text} (h : Named names before) (hnodup : (before ++ tools).Nodup)
    (hfold : tools.foldlM (ToolNames.add digest) names = .ok names') :
    Named names' (before ++ tools) := by
  induction tools generalizing names before with
  | nil =>
    cases hfold
    rwa [List.append_nil]
  | cons name rest ih =>
    rw [List.foldlM_cons] at hfold
    cases hadd : names.add digest name with
    | error message =>
      rw [hadd] at hfold
      cases hfold
    | ok next =>
      rw [hadd] at hfold
      have hnew : name ∉ before := fun hmem =>
        (List.nodup_append.mp hnodup).2.2 name hmem name List.mem_cons_self rfl
      have hstep := h.add hnew hadd
      have hrest := ih hstep (by rwa [List.append_assoc, List.singleton_append]) hfold
      rwa [List.append_assoc, List.singleton_append] at hrest

private theorem Named.decode_ofCall
    (h : Named names tools) (hmem : name ∈ tools) : names.decode (names.ofCall name) = name := by
  obtain ⟨wire, hwire⟩ := (h.named name).mpr hmem
  rw [ofCall, hwire, Option.getD_some, decode, (h.inverse name wire).mp hwire, Option.getD_some]

private theorem Named.ofCall_of_not_mem
    (h : Named names tools) (hmem : name ∉ tools) : names.ofCall name = wireName name := by
  cases hname : names.modelToWire.get? name with
  | none => rw [ofCall, hname, Option.getD_none]
  | some wire => exact absurd ((h.named name).mp ⟨wire, hname⟩) hmem

private theorem foldlM_keeps {names' : ToolNames} (hname : name ∉ tools)
    (h : tools.foldlM (ToolNames.add digest) names = .ok names') :
    names'.modelToWire.get? name = names.modelToWire.get? name := by
  induction tools generalizing names with
  | nil =>
    cases h
    rfl
  | cons tool rest ih =>
    rw [List.foldlM_cons] at h
    cases hadd : names.add digest tool with
    | error message =>
      rw [hadd] at h
      cases h
    | ok next =>
      rw [hadd] at h
      obtain ⟨wire, -, rfl⟩ := add_eq_ok.1 hadd
      rw [ih (fun hmem => hname (List.mem_cons_of_mem _ hmem)) h]
      exact names.modelToWire.get?_set_of_ne wire fun he => hname (he ▸ List.mem_cons_self)

private theorem foldlM_roots {before : List Text}
    (h : Named names before) (hnodup : (before ++ tools).Nodup)
    (hbefore : ∀ name ∈ before, names.modelToWire.get? name = some (wireName name))
    (hroots : ∀ a ∈ before ++ tools, ∀ b ∈ before ++ tools, wireName a = wireName b → a = b) :
    ∃ names', tools.foldlM (ToolNames.add digest) names = .ok names' ∧
      ∀ name ∈ before ++ tools, names'.modelToWire.get? name = some (wireName name) := by
  induction tools generalizing names before with
  | nil => exact ⟨names, rfl, by simpa using hbefore⟩
  | cons tool rest ih =>
    have hnew : tool ∉ before := fun hmem =>
      (List.nodup_append.mp hnodup).2.2 tool hmem tool List.mem_cons_self rfl
    have hfree : names.wireToModel.get? (wireName tool) = none := by
      rw [Option.eq_none_iff_forall_ne_some]
      intro other hother
      have hwire := (h.inverse other (wireName tool)).mpr hother
      have hmem := (h.named other).mp ⟨_, hwire⟩
      have hsame : wireName other = wireName tool :=
        Option.some.inj ((hbefore other hmem).symm.trans hwire)
      exact hnew (hroots other (List.mem_append_left _ hmem) tool
        (List.mem_append_right _ List.mem_cons_self) hsame ▸ hmem)
    have hadd : names.add digest tool = .ok ⟨names.modelToWire.set tool (wireName tool),
        names.wireToModel.set (wireName tool) tool⟩ := by
      refine add_eq_ok.2 ⟨wireName tool, ?_, rfl⟩
      rw [uniqueWireName, if_pos (Or.inl hfree)]
    have hknown : ∀ name ∈ before ++ [tool],
        (names.modelToWire.set tool (wireName tool)).get? name = some (wireName name) := by
      intro name hname
      rw [Dict.get?_set]
      split
      · next he => rw [he]
      · next he =>
        rcases List.mem_append.mp hname with hmem | hmem
        · exact hbefore name hmem
        · exact absurd (List.mem_singleton.mp hmem) he
    have happend : before ++ tool :: rest = before ++ [tool] ++ rest := by
      rw [List.append_assoc, List.singleton_append]
    rw [happend] at hnodup hroots ⊢
    rw [List.foldlM_cons, hadd]
    exact ih (h.add hnew hadd) hnodup hknown hroots

end ToolNames

open ToolNames

variable {digest : Text → Text} {earlier : List ModelRequest} {request : ModelRequest}

private theorem named_toolNames {tools : List Text} {names : ToolNames}
    (hnodup : tools.Nodup) (h : toolNames digest tools = .ok names) : names.Named tools :=
  named_empty.foldlM hnodup h

private theorem toolNames_first {name : Text} {rest : List Text}
    {names : ToolNames} (hnew : name ∉ rest) (h : toolNames digest (name :: rest) = .ok names) :
    names.modelToWire.get? name = some (wireName name) := by
  have hadd : ToolNames.add digest ⟨.empty, .empty⟩ name =
      .ok ⟨Dict.empty.set name (wireName name), Dict.empty.set (wireName name) name⟩ := by
    refine add_eq_ok.2 ⟨wireName name, ?_, rfl⟩
    rw [uniqueWireName, if_pos (Or.inl (Dict.get?_empty _))]
  rw [toolNames, List.foldlM_cons, hadd] at h
  rw [foldlM_keeps hnew h]
  exact Dict.get?_set_self _ _ _

private theorem toolNames_roots (digest : Text → Text) {tools : List Text} (hnodup : tools.Nodup)
    (hroots : ∀ a ∈ tools, ∀ b ∈ tools, wireName a = wireName b → a = b) :
    ∃ names, toolNames digest tools = .ok names ∧
      ∀ name ∈ tools, names.modelToWire.get? name = some (wireName name) :=
  foldlM_roots named_empty hnodup (fun _ h => absurd h List.not_mem_nil) hroots

/-! ## Names across a Turn -/

/-- Two encodings call every tool the same, or both fail. -/
def SameNames : Except String ToolNames → Except String ToolNames → Prop
  | .ok names, .ok names' => ∀ name, names.modelToWire.get? name = names'.modelToWire.get? name
  | .error _, .error _ => True
  | _, _ => False

/-- The tool names of a request survive its encoding, after earlier requests of its Turn. -/
def NamesSurvive (digest : Text → Text) (earlier : List ModelRequest) (request : ModelRequest) :
    Prop :=
  (∀ names, toolNames digest request.toolNames = .ok names →
    (∀ a ∈ request.names, ∀ b ∈ request.names, names.ofCall a = names.ofCall b → a = b) ∧
    (∀ name ∈ request.toolNames, ∀ wire, names.modelToWire.get? name = some wire →
      names.decode wire = name) ∧
    ∀ previous ∈ earlier, ∀ before, toolNames digest previous.toolNames = .ok before →
      ∀ name ∈ request.historyNames, ∀ wire, before.modelToWire.get? name = some wire →
        names.ofCall name = wire) ∧
  ∀ tools, tools.Perm request.toolNames →
    SameNames (toolNames digest tools) (toolNames digest request.toolNames)

/-- The tools of a request can be encoded in some order. -/
def Encodable (digest : Text → Text) (request : ModelRequest) : Prop :=
  ∃ tools, tools.Perm request.toolNames ∧ ∃ names, toolNames digest tools = .ok names

/-- The plain rewrites of all tool names of a request are distinct. -/
def RootsDistinct (request : ModelRequest) : Prop :=
  ∀ a ∈ request.names, ∀ b ∈ request.names, wireName a = wireName b → a = b

private theorem rootsDistinct_of_survive (h : NamesSurvive digest earlier request)
    (hencodable : Encodable digest request) : RootsDistinct request := by
  obtain ⟨hnames, horder⟩ := h
  obtain ⟨tools, hperm, names', hnames'⟩ := hencodable
  have hsame := horder tools hperm
  rw [hnames'] at hsame
  cases hencode : toolNames digest request.toolNames with
  | error message =>
    rw [hencode] at hsame
    exact absurd hsame id
  | ok names =>
    obtain ⟨hinjective, -, -⟩ := hnames names hencode
    have hnamed := named_toolNames request.distinct hencode
    -- a tool could be named first, a call of another tool is rewritten plainly
    have hroot : ∀ name, names.ofCall name = wireName name := by
      intro name
      by_cases hmem : name ∈ request.toolNames
      · have hfirst : (name :: request.toolNames.erase name).Perm request.toolNames :=
          (List.perm_cons_erase hmem).symm
        have hagree := horder _ hfirst
        rw [hencode] at hagree
        cases hreordered : toolNames digest (name :: request.toolNames.erase name) with
        | error message =>
          rw [hreordered] at hagree
          exact absurd hagree id
        | ok reordered =>
          rw [hreordered] at hagree
          have hnew : name ∉ request.toolNames.erase name :=
            (List.nodup_cons.mp (hfirst.nodup_iff.mpr request.distinct)).1
          rw [ofCall, ← hagree name, toolNames_first hnew hreordered, Option.getD_some]
      · exact hnamed.ofCall_of_not_mem hmem
    intro a ha b hb hab
    exact hinjective a ha b hb (by rw [hroot a, hroot b, hab])

/-- Names with different roots survive. -/
theorem survive_of_rootsDistinct (hrequest : Encodable digest request → RootsDistinct request)
    (hearlier : ∀ previous ∈ earlier, Encodable digest previous → RootsDistinct previous) :
    NamesSurvive digest earlier request := by
  have htools : ∀ {r : ModelRequest}, RootsDistinct r → ∀ a ∈ r.toolNames, ∀ b ∈ r.toolNames,
      wireName a = wireName b → a = b := fun h a ha b hb =>
    h a (List.mem_append_left _ ha) b (List.mem_append_left _ hb)
  have hnamed : ∀ {r : ModelRequest} {names : ToolNames}, RootsDistinct r →
      toolNames digest r.toolNames = .ok names → ∀ name ∈ r.toolNames,
        names.modelToWire.get? name = some (wireName name) := by
    intro r names hroots hencode name hmem
    obtain ⟨names', hencode', hwire⟩ := toolNames_roots digest r.distinct (htools hroots)
    cases Except.ok.inj (hencode.symm.trans hencode')
    exact hwire name hmem
  have hofCall : ∀ {r : ModelRequest} {names : ToolNames}, RootsDistinct r →
      toolNames digest r.toolNames = .ok names → ∀ name, names.ofCall name = wireName name := by
    intro r names hroots hencode name
    by_cases hmem : name ∈ r.toolNames
    · rw [ofCall, hnamed hroots hencode name hmem, Option.getD_some]
    · exact (named_toolNames r.distinct hencode).ofCall_of_not_mem hmem
  constructor
  · intro names hencode
    have hroots := hrequest ⟨_, List.Perm.refl _, names, hencode⟩
    refine ⟨fun a ha b hb hab => ?_, fun name hmem wire hwire => ?_, ?_⟩
    · rw [hofCall hroots hencode, hofCall hroots hencode] at hab
      exact hroots a ha b hb hab
    · have hdecoded := (named_toolNames request.distinct hencode).decode_ofCall hmem
      rwa [ofCall, hwire, Option.getD_some] at hdecoded
    · intro previous hprevious before hbefore name _ wire hwire
      have hrootsBefore := hearlier previous hprevious ⟨_, List.Perm.refl _, before, hbefore⟩
      have hmem := ((named_toolNames previous.distinct hbefore).named name).mp ⟨wire, hwire⟩
      rw [hofCall hroots hencode]
      exact Option.some.inj ((hnamed hrootsBefore hbefore name hmem).symm.trans hwire)
  · intro tools hperm
    by_cases hencodable : Encodable digest request
    · have hroots := hrequest hencodable
      have hordered : ∀ {order : List Text}, order.Perm request.toolNames →
          ∃ names, toolNames digest order = .ok names ∧ ∀ name ∈ request.toolNames,
            names.modelToWire.get? name = some (wireName name) := by
        intro order horder
        obtain ⟨names, hnames, hwire⟩ := toolNames_roots digest
          (horder.nodup_iff.mpr request.distinct)
          fun a ha b hb => htools hroots a (horder.mem_iff.mp ha) b (horder.mem_iff.mp hb)
        exact ⟨names, hnames, fun name hname => hwire name (horder.mem_iff.mpr hname)⟩
      obtain ⟨names, hnames, hwire⟩ := hordered (List.Perm.refl _)
      obtain ⟨names', hnames', hwire'⟩ := hordered hperm
      rw [hnames, hnames']
      intro name
      by_cases hmem : name ∈ request.toolNames
      · rw [hwire name hmem, hwire' name hmem]
      · have hnone : ∀ {order : List Text} {found : ToolNames}, order.Perm request.toolNames →
            toolNames digest order = .ok found → found.modelToWire.get? name = none := by
          intro order found horder hfound
          rw [Option.eq_none_iff_forall_ne_some]
          intro wire hsome
          exact hmem (horder.mem_iff.mp (((named_toolNames
            (horder.nodup_iff.mpr request.distinct) hfound).named name).mp ⟨wire, hsome⟩))
        rw [hnone hperm hnames', hnone (List.Perm.refl _) hnames]
    · have hfails : ∀ {order : List Text}, order.Perm request.toolNames →
          ∃ message, toolNames digest order = .error message := by
        intro order horder
        cases hnames : toolNames digest order with
        | error message => exact ⟨message, rfl⟩
        | ok names => exact absurd ⟨order, horder, names, hnames⟩ hencodable
      obtain ⟨message, hmessage⟩ := hfails (List.Perm.refl _)
      obtain ⟨message', hmessage'⟩ := hfails hperm
      rw [hmessage, hmessage']
      trivial

private theorem encodeRequest_eq_ok {provider : ProviderId} {wire : WireRequest}
    (h : encodeRequest digest provider request = .ok wire) :
    ∃ names, toolNames digest request.toolNames = .ok names ∧
      wire.messages.flatMap WireMessage.calls =
        (request.messages.flatMap ModelMessage.calls).map (fun call =>
          ⟨call.callId, names.ofCall call.name, call.argumentsJson⟩) := by
  unfold encodeRequest at h
  cases hnames : toolNames digest request.toolNames with
  | error message =>
    rw [hnames] at h
    cases h
  | ok names =>
    rw [hnames] at h
    cases h
    exact ⟨names, rfl, calls_wireMessages names _ request.messages⟩

/-- In a Turn the tool names survive the encoding exactly if the plain rewrites of the names in
each of its requests that can be encoded are distinct. -/
theorem names_survive_encoding (digest : Text → Text) (turn : List ModelRequest) :
    Throughout (NamesSurvive digest) turn ↔
      ∀ request ∈ turn, Encodable digest request → RootsDistinct request := by
  constructor
  · intro h request hmem
    obtain ⟨earlier, later, rfl⟩ := List.append_of_mem hmem
    exact rootsDistinct_of_survive (h earlier request later rfl)
  · rintro h earlier request later rfl
    refine survive_of_rootsDistinct (h request (by simp)) fun previous hprevious => ?_
    exact h previous (List.mem_append_left _ hprevious)

/-- A tool of the sample Turn. -/
def sampleTool (name : Text) (named : isToolName name = true) : ToolDefinition :=
  ⟨name, [], .object [], named⟩

/-- A call of a tool of the sample Turn. -/
def sampleCall (callId name : Text) (valid : isToolCall callId name ['{', '}'] = true) :
    ToolCall :=
  ⟨callId, name, ['{', '}'], valid⟩

/-- A request that offers two tools with one plain rewrite. -/
def offeringRequest : ModelRequest where
  messages := [.user ['h']]
  tools := [sampleTool ['a', '.', 'b'] (by decide), sampleTool ['a', '-', 'b'] (by decide)]
  toolChoice := .auto
  maxOutputTokens := 6000
  thinkingEnabled := false
  continuation := none
  asked := List.cons_ne_nil _ _
  distinct := by decide
  chosen := by decide

/-- The final call of that Turn, without tools and after a call of each. -/
def finalRequest : ModelRequest where
  messages := [.user ['h'], .assistant []
    [sampleCall ['c'] ['a', '.', 'b'] (by decide), sampleCall ['d'] ['a', '-', 'b'] (by decide)]]
  tools := []
  toolChoice := .none
  maxOutputTokens := 6000
  thinkingEnabled := false
  continuation := none
  asked := List.cons_ne_nil _ _
  distinct := List.nodup_nil
  chosen := by decide

/-- Without tools, the calls of both tools are sent under one name, whatever the digest. -/
theorem names_merged_without_tools :
    ¬ ∃ digest, Throughout (NamesSurvive digest) [offeringRequest, finalRequest] := by
  rintro ⟨digest, h⟩
  obtain ⟨hnames, -⟩ := h [offeringRequest] finalRequest [] rfl
  obtain ⟨hinjective, -⟩ := hnames ⟨.empty, .empty⟩ rfl
  have hsame : (['a', '.', 'b'] : Text) = ['a', '-', 'b'] :=
    hinjective _ (by decide) _ (by decide) (by decide)
  exact absurd hsame (by decide)

end AwesomeAgent.Modeling
