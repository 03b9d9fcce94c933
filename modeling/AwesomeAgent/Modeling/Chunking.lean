import AwesomeAgent.Library.Runs
import AwesomeAgent.Modeling.StreamAssembly

/-!
# Cuts of a completion

A completion says what a provider answers, whatever the chunks in which it arrives. The turn
that the adapter assembles is the one of the completion for every cut, and what it told
before is too, as long as no piece of the reasoning is too long for an event and every call
has its identifier and its name before its arguments.
-/

namespace AwesomeAgent.Modeling

/-- What a provider answers about a call; its name is the one on the wire. -/
structure CallSpec where
  id : Text
  name : Text
  arguments : Text
  deriving DecidableEq

/-- What a provider answers; the calls are in the order of their indexes. -/
structure Completion where
  text : Text
  reasoning : Text
  calls : Dict Nat CallSpec
  finishReason : Option String
  usage : Option RawUsage
  responseId : Option Text
  ordered : calls.keys.Pairwise (· < ·)

/-- The tool call of a turn, unless it is refused. -/
def CallSpec.toolCall (names : ToolNames) (loads : Text → Option Json) (spec : CallSpec) :
    Option ToolCall :=
  if spec.name = [] then none
  else
    match loads spec.arguments with
    | some (.object _) =>
        if h : isToolCall spec.id (names.decode spec.name) spec.arguments = true then
          some ⟨_, _, _, h⟩
        else none
    | _ => none

/-- The usage of a completion, unless it is refused. -/
def Completion.modelUsage (c : Completion) : Option ModelUsage :=
  match c.usage with
  | none => some .zero
  | some raw => usageOf raw

/-- The turn of a completion, unless it is refused. -/
def Completion.turn (provider : ProviderId) (model : String) (names : ToolNames)
    (loads : Text → Option Json) (c : Completion) : Option ModelTurn := do
  let reason ← c.finishReason
  let usage ← c.modelUsage
  let calls ← c.calls.values.mapM (CallSpec.toolCall names loads)
  if fitsText c.text ∧ fitsResponseId c.responseId then
    some ⟨provider, model, c.text, calls, stopReason reason, usage, c.responseId,
      if c.reasoning ≠ [] ∧ calls ≠ [] then
        some ⟨provider, "chat.reasoning_content", c.reasoning⟩
      else none⟩
  else none

namespace RawCall

/-- The identifier that a chunk tells, or nothing. -/
def idText (raw : RawCall) : Text := raw.id.getD []

/-- The name that a chunk tells, or nothing. -/
def nameText (raw : RawCall) : Text := raw.name.getD []

/-- The arguments that a chunk tells, or nothing. -/
def argumentText (raw : RawCall) : Text := raw.arguments.getD []

end RawCall

namespace Piece

/-- The text of a piece. -/
def contentText : Piece → Text
  | .content text => text
  | _ => []

/-- The reasoning of a piece. -/
def reasoningText : Piece → Text
  | .reasoning text => text
  | _ => []

/-- The arguments of a piece for the call of an index. -/
def argumentText (index : Nat) : Piece → Text
  | .call raw => if raw.index = index then raw.argumentText else []
  | _ => []

/-- Whether a piece is about the call of an index. -/
def isAt (index : Nat) : Piece → Bool
  | .call raw => decide (raw.index = index)
  | _ => false

/-- Whether a piece tells the identifier of the call of an index. -/
def tellsId (index : Nat) : Piece → Bool
  | .call raw => decide (raw.index = index ∧ raw.idText ≠ [])
  | _ => false

/-- Whether a piece tells the name of the call of an index. -/
def tellsName (index : Nat) : Piece → Bool
  | .call raw => decide (raw.index = index ∧ raw.nameText ≠ [])
  | _ => false

/-- Whether a piece tells why the model stopped. -/
def tellsFinish : Piece → Bool
  | .finishReason _ => true
  | _ => false

/-- Whether a piece tells the usage. -/
def tellsUsage : Piece → Bool
  | .usage _ => true
  | _ => false

/-- Whether a piece tells the response identifier. -/
def tellsResponse : Piece → Bool
  | .responseId _ => true
  | _ => false

/-- Whether a piece says what a completion says. -/
def Agrees (c : Completion) : Piece → Prop
  | .responseId id => id = c.responseId
  | .usage raw => c.usage = some raw
  | .finishReason reason => c.finishReason = some reason
  | .call raw => ∃ spec, c.calls.get? raw.index = some spec ∧
      (raw.idText ≠ [] → raw.idText = spec.id) ∧ (raw.nameText ≠ [] → raw.nameText = spec.name)
  | _ => True

end Piece

/-- The pieces are a cut of a completion: they agree with it and leave nothing out. -/
structure CutOf (c : Completion) (pieces : List Piece) : Prop where
  agrees : ∀ piece ∈ pieces, piece.Agrees c
  text : pieces.flatMap Piece.contentText = c.text
  reasoning : pieces.flatMap Piece.reasoningText = c.reasoning
  called : ∀ index spec, c.calls.get? index = some spec → pieces.any (Piece.isAt index) = true
  identified : ∀ index spec, c.calls.get? index = some spec → spec.id ≠ [] →
    pieces.any (Piece.tellsId index) = true
  named : ∀ index spec, c.calls.get? index = some spec → spec.name ≠ [] →
    pieces.any (Piece.tellsName index) = true
  arguments : ∀ index spec, c.calls.get? index = some spec →
    pieces.flatMap (Piece.argumentText index) = spec.arguments
  finished : c.finishReason ≠ none → pieces.any Piece.tellsFinish = true
  used : c.usage ≠ none → pieces.any Piece.tellsUsage = true
  answered : c.responseId ≠ none → pieces.any Piece.tellsResponse = true

namespace ModelStreamEvent

/-- The text of an event. -/
def textPart : ModelStreamEvent → Text
  | .textDelta text => text
  | _ => []

/-- The reasoning of an event. -/
def reasoningPart : ModelStreamEvent → Text
  | .reasoningDelta text => text
  | _ => []

/-- The arguments of an event for the call of an index. -/
def argumentPart (index : Nat) : ModelStreamEvent → Text
  | .toolArgumentsDelta i text => if i = index then text else []
  | _ => []

/-- The start of the call of an index. -/
def startAt (index : Nat) : ModelStreamEvent → Option (Text × Text)
  | .toolCallStarted i callId name => if i = index then some (callId, name) else none
  | _ => none

end ModelStreamEvent

/-- Arguments are told after the start of their call. -/
def TellsAfterStart (earlier : List ModelStreamEvent) (event : ModelStreamEvent) : Prop :=
  ∀ index text, event = .toolArgumentsDelta index text →
    earlier.filterMap (ModelStreamEvent.startAt index) ≠ []

/-- Arguments arrive no earlier than the identifier and the name of their call. -/
def Announced (earlier : List Piece) (piece : Piece) : Prop :=
  ∀ raw, piece = .call raw → raw.argumentText ≠ [] →
    (earlier ++ [piece]).any (Piece.tellsId raw.index) = true ∧
      (earlier ++ [piece]).any (Piece.tellsName raw.index) = true

/-! ## One call -/

/-- What is assembled of a call whose identifier, name and arguments arrived so far. -/
def CallSpec.seen (names : ToolNames) (spec : CallSpec) (id name : Bool) (arguments : Text) :
    ToolAssembly :=
  let callId := if id then spec.id else []
  let decoded := if name then names.decode spec.name else []
  ⟨callId, decoded, arguments, decide (callId ≠ [] ∧ decoded ≠ [])⟩

/-- The events of a call that may start now, and whose arguments grow. -/
def callEvents (index : Nat) (started : Bool) (after : ToolAssembly) (arguments : Text) :
    List ModelStreamEvent :=
  (if started = false ∧ after.started = true then
    [.toolCallStarted index after.callId after.name] else []) ++
    if arguments = [] then [] else [.toolArgumentsDelta index arguments]

/-- Whether the identifier and the name of a call fit an event. -/
def fitsEvent (callId name : Text) : Prop :=
  callId.length ≤ maxCallIdLength ∧ name.length ≤ maxToolNameLength

private theorem ToolAssembly.start_eq {callId name : Text} (arguments : Text)
    {started complete : Bool}
    (index : Nat) (hcomplete : decide (callId ≠ [] ∧ name ≠ []) = complete)
    (h : started = true → complete = true) :
    ToolAssembly.start ⟨callId, name, arguments, started⟩ index =
        (callEvents index started ⟨callId, name, arguments, complete⟩ [],
          some ⟨callId, name, arguments, complete⟩) ∨
      (ToolAssembly.start ⟨callId, name, arguments, started⟩ index).2 = none ∧
        ¬ fitsEvent callId name := by
  simp only [ToolAssembly.start, ToolAssembly.starts, hcomplete]
  cases started with
  | true =>
    obtain rfl := h rfl
    left
    rfl
  | false =>
    cases complete with
    | false =>
      left
      rfl
    | true =>
      have hstarts : (!false && true) = true := rfl
      rw [if_pos hstarts]
      by_cases hfits : callId.length ≤ maxCallIdLength ∧ name.length ≤ maxToolNameLength
      · left
        rw [if_pos hfits]
        rfl
      · right
        rw [if_neg hfits]
        exact ⟨rfl, hfits⟩

variable {names : ToolNames} {raw : RawCall} {spec : CallSpec} {arguments : Text} {c : Completion}
  {pieces : List Piece} {index : Nat} {piece : Piece} {s : Assembly} {r : StreamReading}
  {loads : Text → Option Json} {provider : ProviderId} {model : String}

private theorem ToolAssembly.read_eq {a : ToolAssembly} {callId name : Text} {complete : Bool}
    (hlearn : a.learn names raw = ⟨callId, name, a.arguments, a.started⟩)
    (hcomplete : decide (callId ≠ [] ∧ name ≠ []) = complete)
    (h : a.started = true → complete = true) :
    let after : ToolAssembly := ⟨callId, name, a.arguments ++ raw.argumentText, complete⟩
    a.read names raw = (callEvents raw.index a.started after raw.argumentText, some after) ∨
      (a.read names raw).2 = none ∧ ¬ (fitsEvent callId name ∧ fitsText raw.argumentText) := by
  intro after
  unfold ToolAssembly.read
  rw [hlearn]
  rcases ToolAssembly.start_eq a.arguments raw.index hcomplete h with
    hstart | ⟨hnone, hlong⟩
  · rw [hstart]
    change (_ ++ (ToolAssembly.extend _ raw.index raw.argumentText).1,
      (ToolAssembly.extend _ raw.index raw.argumentText).2) = _ ∨
      (ToolAssembly.extend _ raw.index raw.argumentText).2 = none ∧ _
    by_cases hempty : raw.argumentText = []
    · left
      simp [ToolAssembly.extend, callEvents, hempty, after]
    · by_cases hfits : fitsText raw.argumentText
      · left
        simp [ToolAssembly.extend, callEvents, hempty, hfits, after]
      · right
        simp [ToolAssembly.extend, hempty, hfits]
  · right
    rw [← Prod.eta (ToolAssembly.start _ _), hnone]
    exact ⟨rfl, fun hfits => hlong hfits.1⟩

private theorem CallSpec.learn_seen {id name : Bool} (hid : raw.idText ≠ [] → raw.idText = spec.id)
    (hname : raw.nameText ≠ [] → raw.nameText = spec.name) :
    (spec.seen names id name arguments).learn names raw =
      { spec.seen names (id || decide (raw.idText ≠ [])) (name || decide (raw.nameText ≠ []))
          arguments with started := (spec.seen names id name arguments).started } := by
  have hcallId : (if raw.idText = [] then (if id then spec.id else []) else raw.idText) =
      if (id || decide (raw.idText ≠ [])) then spec.id else [] := by
    by_cases h : raw.idText = []
    · simp [h]
    · rw [if_neg h, decide_eq_true h, Bool.or_true, if_pos rfl, hid h]
  have hdecoded : (if raw.nameText = [] then (if name then names.decode spec.name else [])
      else names.decode raw.nameText) =
      if (name || decide (raw.nameText ≠ [])) then names.decode spec.name else [] := by
    by_cases h : raw.nameText = []
    · simp [h]
    · rw [if_neg h, decide_eq_true h, Bool.or_true, if_pos rfl, hname h]
  change ToolAssembly.mk _ _ _ _ = ToolAssembly.mk _ _ _ _
  exact congrArg₂ (fun x y => ToolAssembly.mk x y arguments _) hcallId hdecoded

private theorem CallSpec.started_mono {id name : Bool} (id' name' : Bool) (more : Text)
    (h : (spec.seen names id name arguments).started = true) :
    (spec.seen names (id || id') (name || name') more).started = true := by
  cases id <;> cases name <;> simp_all [CallSpec.seen]

private theorem CallSpec.started_keeps {id name : Bool} (id' name' : Bool) (more : Text)
    (h : (spec.seen names id name arguments).started = true) :
    (spec.seen names (id || id') (name || name') more).callId =
        (spec.seen names id name arguments).callId ∧
      (spec.seen names (id || id') (name || name') more).name =
        (spec.seen names id name arguments).name := by
  cases id <;> cases name <;> simp_all [CallSpec.seen]

private theorem CallSpec.read_seen {names : ToolNames} {spec : CallSpec} {id name : Bool}
    {arguments : Text} {raw : RawCall} (hid : raw.idText ≠ [] → raw.idText = spec.id)
    (hname : raw.nameText ≠ [] → raw.nameText = spec.name) :
    let before := spec.seen names id name arguments
    let after := spec.seen names (id || decide (raw.idText ≠ []))
      (name || decide (raw.nameText ≠ [])) (arguments ++ raw.argumentText)
    before.read names raw =
        (callEvents raw.index before.started after raw.argumentText, some after) ∨
      (before.read names raw).2 = none ∧
        ¬ (fitsEvent after.callId after.name ∧ fitsText raw.argumentText) :=
  ToolAssembly.read_eq (learn_seen hid hname) rfl (started_mono _ _ arguments)

/-! ## What was told and assembled so far -/

/-- What is assembled of the call of an index after some pieces. -/
def seenAt (c : Completion) (names : ToolNames) (pieces : List Piece) (index : Nat) :
    Option ToolAssembly :=
  if pieces.any (Piece.isAt index) then
    (c.calls.get? index).map fun spec =>
      spec.seen names (pieces.any (Piece.tellsId index)) (pieces.any (Piece.tellsName index))
        (pieces.flatMap (Piece.argumentText index))
  else none

/-- The starts that a call was told with. -/
def startsOf : Option ToolAssembly → List (Text × Text)
  | some a => if a.started then [(a.callId, a.name)] else []
  | none => []

/-- The events and the assembly after pieces that agree with a completion. -/
structure Told (c : Completion) (names : ToolNames) (pieces : List Piece)
    (events : List ModelStreamEvent) (s : Assembly) : Prop where
  text : s.text = pieces.flatMap Piece.contentText
  reasoning : s.reasoning = pieces.flatMap Piece.reasoningText
  calls : ∀ index, s.calls.get? index = seenAt c names pieces index
  responseId : s.responseId = if pieces.any Piece.tellsResponse then c.responseId else none
  finishReason : s.finishReason = if pieces.any Piece.tellsFinish then c.finishReason else none
  usage : some s.usage =
    if pieces.any Piece.tellsUsage then c.usage.bind usageOf else some .zero
  texts : events.flatMap ModelStreamEvent.textPart = pieces.flatMap Piece.contentText
  reasonings : events.flatMap ModelStreamEvent.reasoningPart =
    pieces.flatMap Piece.reasoningText
  arguments : ∀ index, events.flatMap (ModelStreamEvent.argumentPart index) =
    pieces.flatMap (Piece.argumentText index)
  starts : ∀ index, events.filterMap (ModelStreamEvent.startAt index) =
    startsOf (seenAt c names pieces index)

private theorem told_nothing (c : Completion) (names : ToolNames) : Told c names [] [] .empty :=
  ⟨rfl, rfl, fun _ => rfl, rfl, rfl, rfl, rfl, rfl, fun _ => rfl, fun _ => rfl⟩

private theorem seenAt_getD (hspec : c.calls.get? index = some spec) :
    (seenAt c names pieces index).getD .empty =
      spec.seen names (pieces.any (Piece.tellsId index)) (pieces.any (Piece.tellsName index))
        (pieces.flatMap (Piece.argumentText index)) := by
  unfold seenAt
  split
  · rw [hspec]
    rfl
  · next hnone =>
    have habsent : ∀ piece ∈ pieces, piece.isAt index = false := by simpa using hnone
    have hid : pieces.any (Piece.tellsId index) = false := by
      refine List.any_eq_false.mpr fun piece hpiece => ?_
      have hat := habsent piece hpiece
      cases piece <;> simp_all [Piece.isAt, Piece.tellsId]
    have hname : pieces.any (Piece.tellsName index) = false := by
      refine List.any_eq_false.mpr fun piece hpiece => ?_
      have hat := habsent piece hpiece
      cases piece <;> simp_all [Piece.isAt, Piece.tellsName]
    have harguments : pieces.flatMap (Piece.argumentText index) = [] := by
      refine List.flatMap_eq_nil_iff.mpr fun piece hpiece => ?_
      have hat := habsent piece hpiece
      cases piece <;> simp_all [Piece.isAt, Piece.argumentText]
    rw [hid, hname, harguments]
    rfl

private theorem seenAt_other (h : piece.isAt index = false) :
    seenAt c names (pieces ++ [piece]) index = seenAt c names pieces index := by
  have hid : piece.tellsId index = false := by
    cases piece <;> simp_all [Piece.isAt, Piece.tellsId]
  have hname : piece.tellsName index = false := by
    cases piece <;> simp_all [Piece.isAt, Piece.tellsName]
  have harguments : piece.argumentText index = [] := by
    cases piece <;> simp_all [Piece.isAt, Piece.argumentText]
  simp [seenAt, h, hid, hname, harguments]

private theorem seenAt_call (hspec : c.calls.get? raw.index = some spec) :
    seenAt c names (pieces ++ [.call raw]) raw.index =
      some (spec.seen names
        (pieces.any (Piece.tellsId raw.index) || decide (raw.idText ≠ []))
        (pieces.any (Piece.tellsName raw.index) || decide (raw.nameText ≠ []))
        (pieces.flatMap (Piece.argumentText raw.index) ++ raw.argumentText)) := by
  have hat : Piece.isAt raw.index (.call raw) = true := decide_eq_true rfl
  have hany : (pieces ++ [Piece.call raw]).any (Piece.isAt raw.index) = true := by
    rw [List.any_append]
    simp [hat]
  rw [seenAt, if_pos hany, hspec, Option.map_some]
  simp [Piece.tellsId, Piece.tellsName, Piece.argumentText]

private theorem any_concat (pieces : List Piece) (piece : Piece) (f : Piece → Bool) :
    (pieces ++ [piece]).any f = (pieces.any f || f piece) := by
  simp

private theorem Told.plain
    {events more : List ModelStreamEvent} {t : Assembly} (h : Told c names pieces events s)
    (hplain : ∀ index, piece.isAt index = false)
    (hcalls : t.calls = s.calls)
    (hquiet : ∀ event ∈ more, ∀ index, event.startAt index = none ∧
      event.argumentPart index = [])
    (htext : t.text = s.text ++ piece.contentText)
    (hreasoning : t.reasoning = s.reasoning ++ piece.reasoningText)
    (htexts : more.flatMap ModelStreamEvent.textPart = piece.contentText)
    (hreasonings : more.flatMap ModelStreamEvent.reasoningPart = piece.reasoningText)
    (hresponse : t.responseId = if piece.tellsResponse then c.responseId else s.responseId)
    (hfinish : t.finishReason = if piece.tellsFinish then c.finishReason else s.finishReason)
    (husage : some t.usage = if piece.tellsUsage then c.usage.bind usageOf else some s.usage) :
    Told c names (pieces ++ [piece]) (events ++ more) t := by
  have hnone : ∀ index, piece.argumentText index = [] := by
    intro index
    have hat := hplain index
    cases piece <;> simp_all [Piece.isAt, Piece.argumentText]
  constructor
  · rw [htext, h.text, List.flatMap_append, List.flatMap_singleton]
  · rw [hreasoning, h.reasoning, List.flatMap_append, List.flatMap_singleton]
  · intro index
    rw [hcalls, h.calls, seenAt_other (hplain index)]
  · rw [hresponse, h.responseId, any_concat]
    cases pieces.any Piece.tellsResponse <;> cases piece.tellsResponse <;> rfl
  · rw [hfinish, h.finishReason, any_concat]
    cases pieces.any Piece.tellsFinish <;> cases piece.tellsFinish <;> rfl
  · rw [husage, h.usage, any_concat]
    cases pieces.any Piece.tellsUsage <;> cases piece.tellsUsage <;> rfl
  · rw [List.flatMap_append, List.flatMap_append, h.texts, htexts, List.flatMap_singleton]
  · rw [List.flatMap_append, List.flatMap_append, h.reasonings, hreasonings,
      List.flatMap_singleton]
  · intro index
    rw [List.flatMap_append, List.flatMap_append, h.arguments, List.flatMap_singleton,
      hnone index, List.flatMap_eq_nil_iff.mpr fun event he => (hquiet event he index).2]
  · intro index
    rw [List.filterMap_append, h.starts, seenAt_other (hplain index),
      List.filterMap_eq_nil_iff.mpr fun event he => (hquiet event he index).1, List.append_nil]

private theorem startAt_callEvents (i index : Nat) (started : Bool) (after : ToolAssembly)
    (arguments : Text) :
    (callEvents i started after arguments).filterMap (ModelStreamEvent.startAt index) =
      if i = index ∧ started = false ∧ after.started = true then
        [(after.callId, after.name)] else [] := by
  unfold callEvents
  by_cases hi : i = index <;> by_cases hs : started = false ∧ after.started = true <;>
    by_cases ha : arguments = [] <;> simp [hi, hs, ha, ModelStreamEvent.startAt]

private theorem argumentPart_callEvents (i index : Nat) (started : Bool) (after : ToolAssembly)
    (arguments : Text) :
    (callEvents i started after arguments).flatMap (ModelStreamEvent.argumentPart index) =
      if i = index then arguments else [] := by
  unfold callEvents
  by_cases hi : i = index <;> by_cases hs : started = false ∧ after.started = true <;>
    by_cases ha : arguments = [] <;> simp [hi, hs, ha, ModelStreamEvent.argumentPart]

private theorem textPart_callEvents (i : Nat) (started : Bool) (after : ToolAssembly)
    (arguments : Text) :
    (callEvents i started after arguments).flatMap ModelStreamEvent.textPart = [] ∧
      (callEvents i started after arguments).flatMap ModelStreamEvent.reasoningPart = [] := by
  unfold callEvents
  by_cases hs : started = false ∧ after.started = true <;> by_cases ha : arguments = [] <;>
    simp [hs, ha, ModelStreamEvent.textPart, ModelStreamEvent.reasoningPart]

/-- Whether a piece can be told and used. -/
def Piece.Fits (names : ToolNames) (c : Completion) : Piece → Prop
  | .usage raw => usageOf raw ≠ none
  | .reasoning text => fitsText text
  | .content text => fitsText text
  | .call raw => fitsText raw.argumentText ∧ ∀ spec ∈ c.calls.get? raw.index,
      fitsEvent spec.id (names.decode spec.name)
  | _ => True

private theorem fitsEvent_seen {id name : Bool} (h : fitsEvent spec.id (names.decode spec.name)) :
    fitsEvent (spec.seen names id name arguments).callId
      (spec.seen names id name arguments).name := by
  obtain ⟨hid, hname⟩ := h
  cases id <;> cases name <;> simp_all [fitsEvent, CallSpec.seen]

section ReadingOn

variable {c : Completion} {names : ToolNames} {pieces : List Piece} {events : List ModelStreamEvent}
  {s t : Assembly} {piece : Piece}

/-- One more piece is read and told as the completion has it, unless it cannot be told or used. -/
def ReadsOn (c : Completion) (names : ToolNames) (pieces : List Piece)
    (events : List ModelStreamEvent) (s : Assembly) (piece : Piece) : Prop :=
  (∃ t, (s.readPiece names piece).2 = some t ∧
    Told c names (pieces ++ [piece]) (events ++ (s.readPiece names piece).1) t) ∨
  (s.readPiece names piece).2 = none ∧ ¬ piece.Fits names c

private theorem Told.silent (h : Told c names pieces events s)
    (hplain : ∀ index, piece.isAt index = false)
    (hcontent : piece.contentText = []) (hthought : piece.reasoningText = [])
    (hcalls : t.calls = s.calls) (htext : t.text = s.text) (hreasoning : t.reasoning = s.reasoning)
    (hresponse : t.responseId = if piece.tellsResponse then c.responseId else s.responseId)
    (hfinish : t.finishReason = if piece.tellsFinish then c.finishReason else s.finishReason)
    (husage : some t.usage = if piece.tellsUsage then c.usage.bind usageOf else some s.usage) :
    Told c names (pieces ++ [piece]) (events ++ []) t := by
  refine h.plain hplain hcalls (fun _ he => absurd he List.not_mem_nil) ?_ ?_ ?_ ?_ hresponse
    hfinish husage
  · rw [htext, hcontent, List.append_nil]
  · rw [hreasoning, hthought, List.append_nil]
  · rw [hcontent, List.flatMap_nil]
  · rw [hthought, List.flatMap_nil]

private theorem Told.readUsage (h : Told c names pieces events s) {raw : RawUsage}
    (hagrees : (Piece.usage raw).Agrees c) : ReadsOn c names pieces events s (.usage raw) := by
  cases husage : usageOf raw with
  | none =>
    right
    exact ⟨by simp [Assembly.readPiece, husage], fun hfits => hfits husage⟩
  | some usage =>
    left
    have hraw : c.usage = some raw := hagrees
    have hread : s.readPiece names (.usage raw) = ([], some { s with usage := usage }) := by
      simp [Assembly.readPiece, husage]
    rw [hread]
    refine ⟨_, rfl, h.silent (fun _ => rfl) rfl rfl rfl rfl rfl rfl rfl ?_⟩
    change some usage = c.usage.bind usageOf
    rw [hraw]
    exact husage.symm

private theorem Told.readReasoning (h : Told c names pieces events s) (text : Text) :
    ReadsOn c names pieces events s (.reasoning text) := by
  by_cases hempty : text = []
  · subst hempty
    exact Or.inl ⟨_, rfl, h.silent (fun _ => rfl) rfl rfl rfl rfl rfl rfl rfl rfl⟩
  by_cases hfits : fitsText text
  · left
    have hread : s.readPiece names (.reasoning text) =
        ((if s.reasoningStarted then [] else [.reasoningStarted]) ++ [.reasoningDelta text],
          some { s with reasoningStarted := true, reasoning := s.reasoning ++ text }) := by
      simp only [Assembly.readPiece, if_neg hempty, if_pos hfits]
    rw [hread]
    refine ⟨_, rfl, h.plain (fun _ => rfl) rfl ?_ ?_ rfl ?_ ?_ rfl rfl rfl⟩
    · cases s.reasoningStarted <;>
        simp [ModelStreamEvent.startAt, ModelStreamEvent.argumentPart]
    · exact (List.append_nil _).symm
    · cases s.reasoningStarted <;> simp [ModelStreamEvent.textPart, Piece.contentText]
    · cases s.reasoningStarted <;>
        simp [ModelStreamEvent.reasoningPart, Piece.reasoningText]
  · right
    refine ⟨?_, hfits⟩
    simp only [Assembly.readPiece, if_neg hempty, if_neg hfits]

private theorem Told.readContent (h : Told c names pieces events s) (text : Text) :
    ReadsOn c names pieces events s (.content text) := by
  by_cases hempty : text = []
  · subst hempty
    exact Or.inl ⟨_, rfl, h.silent (fun _ => rfl) rfl rfl rfl rfl rfl rfl rfl rfl⟩
  by_cases hfits : fitsText text
  · left
    have hread : s.readPiece names (.content text) =
        ([.textDelta text], some { s with text := s.text ++ text }) := by
      simp only [Assembly.readPiece, if_neg hempty, if_pos hfits]
    rw [hread]
    refine ⟨_, rfl, h.plain (fun _ => rfl) rfl ?_ rfl ?_ ?_ rfl rfl rfl rfl⟩
    · simp [ModelStreamEvent.startAt, ModelStreamEvent.argumentPart]
    · exact (List.append_nil _).symm
    · simp [ModelStreamEvent.textPart, Piece.contentText]
  · right
    refine ⟨?_, hfits⟩
    simp only [Assembly.readPiece, if_neg hempty, if_neg hfits]

variable {after : ToolAssembly} {raw : RawCall}

private theorem startsOf_next {known : Option ToolAssembly}
    (hkeeps : (known.getD .empty).started = true → after.started = true ∧
      after.callId = (known.getD .empty).callId ∧ after.name = (known.getD .empty).name) :
    (startsOf known ++
      if (known.getD .empty).started = false ∧ after.started = true then
        [(after.callId, after.name)] else []) = startsOf (some after) := by
  cases known with
  | none => simp [startsOf, ToolAssembly.empty]
  | some before =>
    rw [Option.getD_some] at hkeeps ⊢
    cases hs : before.started with
    | true =>
      obtain ⟨hstarted, hcallId, hname⟩ := hkeeps hs
      simp [startsOf, hs, hstarted, hcallId, hname]
    | false => simp [startsOf, hs]

/-- A call goes on: its events are told, and everything else is left alone. -/
theorem Told.tellCall (h : Told c names pieces events s)
    {before : ToolAssembly} (hbefore : (s.calls.get? raw.index).getD .empty = before)
    (hafter : seenAt c names (pieces ++ [.call raw]) raw.index = some after)
    (hkeeps : before.started = true → after.started = true ∧
      after.callId = before.callId ∧ after.name = before.name) :
    Told c names (pieces ++ [.call raw])
      (events ++ callEvents raw.index before.started after raw.argumentText)
      { s with calls := s.calls.set raw.index after } := by
  obtain ⟨htexts, hreasonings⟩ := textPart_callEvents raw.index before.started after
    raw.argumentText
  constructor
  · rw [List.flatMap_append, ← h.text]
    exact (List.append_nil _).symm
  · rw [List.flatMap_append, ← h.reasoning]
    exact (List.append_nil _).symm
  · intro index
    change (s.calls.set raw.index after).get? index = _
    rw [Dict.get?_set]
    split
    · next he => rw [he, hafter]
    · next he =>
      rw [h.calls, seenAt_other]
      exact decide_eq_false fun hat => he hat.symm
  · rw [any_concat]
    exact h.responseId.trans (by simp [Piece.tellsResponse])
  · rw [any_concat]
    exact h.finishReason.trans (by simp [Piece.tellsFinish])
  · rw [any_concat]
    exact h.usage.trans (by simp [Piece.tellsUsage])
  · rw [List.flatMap_append, List.flatMap_append, h.texts, htexts]
    rfl
  · rw [List.flatMap_append, List.flatMap_append, h.reasonings, hreasonings]
    rfl
  · intro index
    rw [List.flatMap_append, List.flatMap_append, h.arguments, argumentPart_callEvents,
      List.flatMap_singleton]
    rfl
  · intro index
    rw [List.filterMap_append, h.starts, startAt_callEvents]
    by_cases he : raw.index = index
    · subst he hbefore
      rw [hafter, ← h.calls, ← startsOf_next hkeeps]
      simp
    · have hat : Piece.isAt index (.call raw) = false := decide_eq_false he
      rw [seenAt_other hat, if_neg fun hi => he hi.1, List.append_nil]

private theorem Assembly.readPiece_call {told : List ModelStreamEvent}
    (h : ((s.calls.get? raw.index).getD .empty).read names raw = (told, some after)) :
    s.readPiece names (.call raw) =
      (told, some { s with calls := s.calls.set raw.index after }) := by
  simp only [Assembly.readPiece, h, Option.map_some]

private theorem Told.readCall (h : Told c names pieces events s)
    (hagrees : (Piece.call raw).Agrees c) : ReadsOn c names pieces events s (.call raw) := by
  obtain ⟨spec, hspec, hid, hname⟩ := hagrees
  have hbefore : (s.calls.get? raw.index).getD .empty =
      spec.seen names (pieces.any (Piece.tellsId raw.index))
        (pieces.any (Piece.tellsName raw.index))
        (pieces.flatMap (Piece.argumentText raw.index)) := by
    rw [h.calls, seenAt_getD hspec]
  rcases @CallSpec.read_seen names spec (pieces.any (Piece.tellsId raw.index))
      (pieces.any (Piece.tellsName raw.index)) (pieces.flatMap (Piece.argumentText raw.index)) raw
      hid hname with hread | ⟨hnone, hlong⟩
  · left
    rw [← hbefore] at hread
    rw [Assembly.readPiece_call hread, hbefore]
    refine ⟨_, rfl, h.tellCall hbefore (seenAt_call hspec) fun hs => ?_⟩
    exact ⟨CallSpec.started_mono _ _ _ hs, CallSpec.started_keeps _ _ _ hs⟩
  · right
    constructor
    · simp only [Assembly.readPiece, hbefore, hnone, Option.map_none]
    · rintro ⟨htext, hevent⟩
      exact hlong ⟨fitsEvent_seen (hevent spec hspec), htext⟩

private theorem Told.read (h : Told c names pieces events s) (hagrees : piece.Agrees c) :
    ReadsOn c names pieces events s piece := by
  cases piece with
  | responseId id =>
    exact Or.inl ⟨_, rfl, h.silent (fun _ => rfl) rfl rfl rfl rfl rfl hagrees rfl rfl⟩
  | usage raw => exact h.readUsage hagrees
  | finishReason reason =>
    exact Or.inl ⟨_, rfl, h.silent (fun _ => rfl) rfl rfl rfl rfl rfl rfl hagrees.symm rfl⟩
  | reasoning text => exact h.readReasoning text
  | content text => exact h.readContent text
  | call raw => exact h.readCall hagrees

end ReadingOn

private theorem readPieces_concat (names : ToolNames) (pieces : List Piece) (piece : Piece) :
    readPieces names (pieces ++ [piece]) = (readPieces names pieces).step names piece := by
  rw [readPieces, List.foldl_append]
  rfl

private theorem StreamReading.step_none (h : r.state = none) : r.step names piece = r := by
  unfold StreamReading.step
  rw [h]

private theorem StreamReading.step_some (h : r.state = some s) :
    r.step names piece =
      ⟨r.events ++ (s.readPiece names piece).1, (s.readPiece names piece).2⟩ := by
  unfold StreamReading.step
  rw [h]

private theorem told_readPieces (names : ToolNames) (hagrees : ∀ piece ∈ pieces, piece.Agrees c) :
    (∃ s, (readPieces names pieces).state = some s ∧
      Told c names pieces (readPieces names pieces).events s) ∨
    (readPieces names pieces).state = none ∧ ∃ piece ∈ pieces, ¬ piece.Fits names c := by
  induction pieces using List.reverseRecOn with
  | nil => exact Or.inl ⟨_, rfl, told_nothing c names⟩
  | append_singleton pieces piece ih =>
    rw [readPieces_concat]
    rcases ih fun p hp => hagrees p (List.mem_append_left _ hp) with ⟨s, hs, htold⟩ | ⟨hnone, hp⟩
    · rw [StreamReading.step_some hs]
      rcases htold.read (hagrees piece (by simp)) with hread | ⟨hnone, hfits⟩
      · exact Or.inl hread
      · exact Or.inr ⟨hnone, piece, by simp, hfits⟩
    · rw [StreamReading.step_none hnone]
      obtain ⟨p, hmem, hfits⟩ := hp
      exact Or.inr ⟨hnone, p, List.mem_append_left _ hmem, hfits⟩

private theorem readPieces_prefix
    {t : Assembly} (h : (readPieces names (pieces ++ [piece])).state = some t) :
    ∃ s, (readPieces names pieces).state = some s ∧ (s.readPiece names piece).2 = some t ∧
      (readPieces names (pieces ++ [piece])).events =
        (readPieces names pieces).events ++ (s.readPiece names piece).1 := by
  rw [readPieces_concat] at h ⊢
  cases hs : (readPieces names pieces).state with
  | none =>
    rw [StreamReading.step_none hs, hs] at h
    cases h
  | some s =>
    rw [StreamReading.step_some hs] at h ⊢
    exact ⟨s, rfl, h, rfl⟩

private theorem reasoning_fits (h : (readPieces names pieces).state = some s) {text : Text}
    (hmem : .reasoning text ∈ pieces) : fitsText text := by
  induction pieces using List.reverseRecOn generalizing s with
  | nil => cases hmem
  | append_singleton pieces piece ih =>
    obtain ⟨t, ht, hread, -⟩ := readPieces_prefix h
    rcases List.mem_append.mp hmem with hearlier | hlast
    · exact ih ht hearlier
    · obtain rfl := List.mem_singleton.mp hlast
      by_contra hlong
      have hempty : text ≠ [] := fun he => hlong (he ▸ Nat.zero_le _)
      simp only [Assembly.readPiece, if_neg hempty, if_neg hlong] at hread
      cases hread

/-! ## Starts before arguments -/

/-- The calls of a completion that are all complete. -/
def Completion.Complete (names : ToolNames) (c : Completion) : Prop :=
  ∀ index spec, c.calls.get? index = some spec →
    spec.id ≠ [] ∧ spec.name ≠ [] ∧ names.decode spec.name ≠ []

private theorem startsOf_seenAt (hcomplete : c.Complete names)
    (hspec : c.calls.get? index = some spec) (hat : pieces.any (Piece.isAt index) = true) :
    startsOf (seenAt c names pieces index) =
      if pieces.any (Piece.tellsId index) = true ∧ pieces.any (Piece.tellsName index) = true then
        [(spec.id, names.decode spec.name)] else [] := by
  obtain ⟨hid, -, hname⟩ := hcomplete index spec hspec
  rw [seenAt, if_pos hat, hspec, Option.map_some]
  cases pieces.any (Piece.tellsId index) <;> cases pieces.any (Piece.tellsName index) <;>
    simp [startsOf, CallSpec.seen, hid, hname]

private theorem ToolAssembly.read_events {a b : ToolAssembly} (h : (a.read names raw).2 = some b) :
    ∃ starts : List ModelStreamEvent, (∀ event ∈ starts, ∀ index text,
        event ≠ .toolArgumentsDelta index text) ∧
      (a.read names raw).1 = starts ++ if raw.argumentText = [] then []
        else [.toolArgumentsDelta raw.index raw.argumentText] := by
  have hstarts : ∀ event ∈ ((a.learn names raw).start raw.index).1, ∀ index text,
      event ≠ .toolArgumentsDelta index text := by
    intro event hevent index text he
    subst he
    unfold ToolAssembly.start at hevent
    split at hevent
    · split at hevent <;> simp at hevent
    · cases hevent
  unfold ToolAssembly.read at h ⊢
  generalize (a.learn names raw).start raw.index = r at h hstarts ⊢
  obtain ⟨events, next⟩ := r
  cases next with
  | none => cases h
  | some next =>
    refine ⟨events, hstarts, ?_⟩
    change (ToolAssembly.extend next raw.index raw.argumentText).2 = some b at h
    change events ++ (ToolAssembly.extend next raw.index raw.argumentText).1 = _
    congr 1
    unfold ToolAssembly.extend at h ⊢
    split
    · rfl
    · next hempty =>
      rw [if_neg hempty] at h
      split
      · rfl
      · next hlong =>
        rw [if_neg hlong] at h
        cases h

private theorem Assembly.readPiece_quiet (h : ∀ raw, piece ≠ .call raw) :
    ∀ event ∈ (s.readPiece names piece).1, ∀ index text,
      event ≠ .toolArgumentsDelta index text := by
  intro event hevent index text he
  subst he
  cases piece with
  | responseId id => cases hevent
  | usage raw => cases hevent
  | finishReason reason => cases hevent
  | reasoning told =>
    simp only [Assembly.readPiece] at hevent
    split at hevent
    · cases hevent
    · cases s.reasoningStarted <;> split at hevent <;> simp at hevent
  | content told =>
    simp only [Assembly.readPiece] at hevent
    split at hevent
    · cases hevent
    · split at hevent <;> simp at hevent
  | call raw => exact h raw rfl

/-- Arguments are told after the start of their call exactly if they arrive no earlier than its
identifier and its name. -/
theorem tellsAfterStart_iff (hcomplete : c.Complete names)
    (hagrees : ∀ piece ∈ pieces, piece.Agrees c)
    (hread : (readPieces names pieces).state = some s) :
    Throughout TellsAfterStart (readPieces names pieces).events ↔
      Throughout Announced pieces := by
  induction pieces using List.reverseRecOn generalizing s with
  | nil => exact ⟨fun _ => throughout_nil, fun _ => throughout_nil⟩
  | append_singleton pieces piece ih =>
    obtain ⟨t, ht, hpiece, hevents⟩ := readPieces_prefix hread
    have hbefore : ∀ p ∈ pieces, p.Agrees c := fun p hp => hagrees p (List.mem_append_left _ hp)
    have htold : Told c names (pieces ++ [piece])
        (readPieces names (pieces ++ [piece])).events s := by
      rcases told_readPieces names hagrees with ⟨s', hs', htold⟩ | ⟨hnone, -⟩
      · cases Option.some.inj (hread.symm.trans hs')
        exact htold
      · exact absurd (hread.symm.trans hnone) nofun
    rw [throughout_concat_iff, ← ih hbefore ht, hevents]
    by_cases hcall : ∃ raw, piece = .call raw
    · obtain ⟨raw, rfl⟩ := hcall
      obtain ⟨spec, hspec, -, -⟩ := hagrees (.call raw) (by simp)
      have hassembled :
          ∃ b, (((t.calls.get? raw.index).getD .empty).read names raw).2 = some b := by
        obtain ⟨b, hb, -⟩ := Option.map_eq_some_iff.mp hpiece
        exact ⟨b, hb⟩
      obtain ⟨b, hb⟩ := hassembled
      obtain ⟨starts, hstarts, hnew⟩ := ToolAssembly.read_events hb
      have hnew : (t.readPiece names (.call raw)).1 = starts ++ if raw.argumentText = [] then []
          else [.toolArgumentsDelta raw.index raw.argumentText] := hnew
      have hquiet : ∀ event ∈ starts, ∀ earlier, TellsAfterStart earlier event :=
        fun event hevent _ index text he => absurd he (hstarts event hevent index text)
      rw [hnew]
      by_cases hempty : raw.argumentText = []
      · rw [if_pos hempty, List.append_nil, throughout_append_iff hquiet]
        refine (and_iff_left ?_).symm
        intro raw' he hne
        cases he
        exact absurd hempty hne
      · have hat : (pieces ++ [Piece.call raw]).any (Piece.isAt raw.index) = true := by
          have hself : Piece.isAt raw.index (.call raw) = true := decide_eq_true rfl
          rw [any_concat, hself, Bool.or_true]
        have hfound := htold.starts raw.index
        rw [hevents, hnew, if_neg hempty, startsOf_seenAt hcomplete hspec hat] at hfound
        rw [if_neg hempty, ← List.append_assoc, throughout_concat_iff,
          throughout_append_iff hquiet]
        refine and_congr_right fun _ => ?_
        have hdelta : TellsAfterStart ((readPieces names pieces).events ++ starts)
            (.toolArgumentsDelta raw.index raw.argumentText) ↔
            ((readPieces names pieces).events ++ starts).filterMap
              (ModelStreamEvent.startAt raw.index) ≠ [] := by
          constructor
          · exact fun h => h raw.index raw.argumentText rfl
          · rintro h index text he
            cases he
            exact h
        have hannounced : Announced pieces (.call raw) ↔
            (pieces ++ [Piece.call raw]).any (Piece.tellsId raw.index) = true ∧
              (pieces ++ [Piece.call raw]).any (Piece.tellsName raw.index) = true := by
          constructor
          · exact fun h => h raw rfl hempty
          · rintro h raw' he -
            cases he
            exact h
        rw [hdelta, hannounced]
        rw [← List.append_assoc, List.filterMap_append] at hfound
        have hlast : [ModelStreamEvent.toolArgumentsDelta raw.index raw.argumentText].filterMap
            (ModelStreamEvent.startAt raw.index) = [] := rfl
        rw [hlast, List.append_nil] at hfound
        rw [hfound]
        split
        · next h => exact iff_of_true (List.cons_ne_nil _ _) h
        · next h => exact iff_of_false (fun hne => hne rfl) h
    · have hother : ∀ raw, piece ≠ .call raw := fun raw he => hcall ⟨raw, he⟩
      rw [throughout_append_iff fun event hevent _ index text he =>
        absurd he (t.readPiece_quiet hother event hevent index text)]
      refine (and_iff_left ?_).symm
      exact fun raw he => absurd he (hother raw)

/-! ## The turn at the end -/

private theorem mapM_toOption {f : α → Except ε β} {g : γ → Option β} {arg : γ → α}
    (items : List γ) (h : ∀ x ∈ items, (f (arg x)).toOption = g x) :
    ((items.map arg).mapM f).toOption = items.mapM g := by
  induction items with
  | nil => rfl
  | cons x rest ih =>
    have hx := h x List.mem_cons_self
    have hrest := ih fun y hy => h y (List.mem_cons_of_mem _ hy)
    rw [List.map_cons, List.mapM_cons, List.mapM_cons, ← hx, ← hrest]
    cases f (arg x) with
    | error e => rfl
    | ok y =>
      cases (rest.map arg).mapM f with
      | error e => rfl
      | ok ys => rfl

/-- A call whose pieces all arrived is completed as it was specified. -/
theorem completedCall_seen
    {id name : Bool} (hid : spec.id ≠ [] → id = true) (hname : spec.name ≠ [] ↔ name = true) :
    (completedCall loads (spec.seen names id name spec.arguments)).toOption =
      spec.toolCall names loads := by
  have hcallId : (spec.seen names id name spec.arguments).callId = spec.id := by
    cases id with
    | true => rfl
    | false =>
      by_contra hne
      exact absurd (hid fun he => hne he.symm) nofun
  have hunnamed : ¬ isToolCall spec.id (names.decode spec.name) spec.arguments = true →
      spec.toolCall names loads = none := by
    intro hrefused
    unfold CallSpec.toolCall
    by_cases hempty : spec.name = []
    · rw [if_pos hempty]
    · rw [if_neg hempty]
      cases loads spec.arguments with
      | none => rfl
      | some json =>
        cases json with
        | object members => exact dif_neg hrefused
        | _ => rfl
  by_cases hempty : spec.name = []
  · have hfalse : name = false := Bool.eq_false_iff.mpr fun ht => (hname.mpr ht) hempty
    subst hfalse
    have hnone : (spec.seen names id false spec.arguments).name = [] := rfl
    rw [completedCall, if_pos (Or.inr (Or.inl hnone)), CallSpec.toolCall, if_pos hempty]
    rfl
  · obtain rfl := hname.mp hempty
    have hdecoded : (spec.seen names id true spec.arguments).name = names.decode spec.name := rfl
    have harguments : (spec.seen names id true spec.arguments).arguments = spec.arguments := rfl
    have hstarted : (spec.seen names id true spec.arguments).started =
        decide (spec.id ≠ [] ∧ names.decode spec.name ≠ []) := by
      rw [← hcallId]
      rfl
    unfold completedCall
    rw [hstarted, hdecoded]
    simp only [hcallId, harguments]
    by_cases hknown : spec.id ≠ [] ∧ names.decode spec.name ≠ []
    · rw [if_neg (by simp [hknown.1, hknown.2]), CallSpec.toolCall, if_neg hempty]
      cases hloads : loads spec.arguments with
      | none => rfl
      | some json =>
        cases json with
        | object members =>
          dsimp only
          split
          · rfl
          · rfl
        | _ => rfl
    · rw [if_pos (Or.inr (Or.inr (decide_eq_false hknown))), hunnamed]
      · rfl
      · intro hvalid
        apply hknown
        simp only [isToolCall, Bool.and_eq_true, decide_eq_true_eq] at hvalid
        refine ⟨hvalid.1.1.1, fun he => ?_⟩
        rw [he] at hvalid
        exact absurd hvalid.1.2 nofun

private theorem seenAt_cut (h : CutOf c pieces) (index : Nat) :
    seenAt c names pieces index = (c.calls.get? index).map fun spec =>
      spec.seen names (pieces.any (Piece.tellsId index)) (pieces.any (Piece.tellsName index))
        spec.arguments := by
  cases hspec : c.calls.get? index with
  | none =>
    unfold seenAt
    rw [hspec]
    split <;> rfl
  | some spec =>
    rw [seenAt, if_pos (h.called index spec hspec), hspec, Option.map_some,
      h.arguments index spec hspec]
    rfl

private theorem CutOf.named_iff (h : CutOf c pieces) (hspec : c.calls.get? index = some spec) :
    spec.name ≠ [] ↔ pieces.any (Piece.tellsName index) = true := by
  refine ⟨h.named index spec hspec, fun hany => ?_⟩
  obtain ⟨piece, hmem, htells⟩ := List.any_eq_true.mp hany
  have hagrees := h.agrees piece hmem
  cases piece with
  | call raw =>
    obtain ⟨rfl, hne⟩ := of_decide_eq_true htells
    obtain ⟨spec', hspec', -, hname⟩ := hagrees
    cases Option.some.inj (hspec.symm.trans hspec')
    rwa [← hname hne]
  | _ => cases htells

private theorem sorted_entries {calls : Dict Nat ToolAssembly}
    {final : Nat → CallSpec → ToolAssembly}
    (h : ∀ index, calls.get? index = (c.calls.get? index).map (final index)) :
    (calls.entries.mergeSort fun a b => decide (a.1 ≤ b.1)) =
      c.calls.entries.map fun e => (e.1, final e.1 e.2) := by
  have hperm : calls.entries.Perm (c.calls.entries.map fun e => (e.1, final e.1 e.2)) := by
    have hkeys : ((c.calls.entries.map fun e => (e.1, final e.1 e.2)).map Prod.fst).Nodup := by
      rw [List.map_map]
      exact c.calls.nodup
    refine (List.perm_ext_iff_of_nodup calls.nodup.of_map hkeys.of_map).mpr ?_
    rintro ⟨index, a⟩
    rw [← calls.get?_eq_some_iff, h, Option.map_eq_some_iff, List.mem_map]
    constructor
    · rintro ⟨spec, hspec, rfl⟩
      exact ⟨(index, spec), (c.calls.get?_eq_some_iff _ _).mp hspec, rfl⟩
    · rintro ⟨⟨index', spec⟩, hmem, he⟩
      cases he
      exact ⟨spec, (c.calls.get?_eq_some_iff _ _).mpr hmem, rfl⟩
  have hsorted : (calls.entries.mergeSort fun a b => decide (a.1 ≤ b.1)).Pairwise
      fun a b => a.1 ≤ b.1 := by
    refine (List.pairwise_mergeSort ?_ ?_ calls.entries).imp fun hle => of_decide_eq_true hle
    · intro a b d hab hbd
      exact decide_eq_true ((of_decide_eq_true hab).trans (of_decide_eq_true hbd))
    · intro a b
      have htotal := Nat.le_total a.1 b.1
      simpa using htotal
  have hordered : (c.calls.entries.map fun e => (e.1, final e.1 e.2)).Pairwise
      fun a b => a.1 ≤ b.1 := by
    refine List.pairwise_map.mpr ?_
    exact (List.pairwise_map.mp c.ordered).imp fun hlt => Nat.le_of_lt hlt
  refine List.Perm.eq_of_pairwise ?_ hsorted hordered ((List.mergeSort_perm _ _).trans hperm)
  rintro ⟨i, a⟩ ⟨j, b⟩ ha hb hij hji
  obtain rfl : i = j := Nat.le_antisymm hij hji
  have ha : (i, a) ∈ calls.entries := (List.mergeSort_perm _ _).mem_iff.mp ha
  have hb : (i, b) ∈ calls.entries := hperm.mem_iff.mpr hb
  rw [← calls.get?_eq_some_iff] at ha hb
  rw [Option.some.inj (ha.symm.trans hb)]

/-- What was assembled of a cut is the turn of its completion. -/
theorem turn_of_told {events : List ModelStreamEvent} (hcut : CutOf c pieces)
    (h : Told c names pieces events s) :
    (s.turn provider model loads).toOption = c.turn provider model names loads := by
  have hfinish : s.finishReason = c.finishReason := by
    rw [h.finishReason]
    by_cases hnone : c.finishReason = none
    · rw [hnone, ite_self]
    · rw [if_pos (hcut.finished hnone)]
  have hresponse : s.responseId = c.responseId := by
    rw [h.responseId]
    by_cases hnone : c.responseId = none
    · rw [hnone, ite_self]
    · rw [if_pos (hcut.answered hnone)]
  have husage : c.modelUsage = some s.usage := by
    rw [h.usage, Completion.modelUsage]
    cases hused : c.usage with
    | none =>
      have hno : pieces.any Piece.tellsUsage = false := by
        refine List.any_eq_false.mpr fun piece hmem htells => ?_
        have hagrees := hcut.agrees piece hmem
        cases piece with
        | usage raw => exact absurd (hused.symm.trans hagrees) nofun
        | _ => cases htells
      rw [hno]
      rfl
    | some raw =>
      rw [hcut.used (hused ▸ Option.some_ne_none raw)]
      rfl
  have hcalls : (completedCalls loads s.calls).toOption =
      c.calls.values.mapM (CallSpec.toolCall names loads) := by
    have hget : ∀ index, s.calls.get? index = (c.calls.get? index).map fun spec =>
        spec.seen names (pieces.any (Piece.tellsId index)) (pieces.any (Piece.tellsName index))
          spec.arguments := fun index => (h.calls index).trans (seenAt_cut hcut index)
    unfold completedCalls
    rw [sorted_entries hget, mapM_toOption (g := fun e => e.2.toolCall names loads)]
    · unfold Dict.values
      rw [List.mapM_map]
      rfl
    · rintro ⟨index, spec⟩ hmem
      have hspec := (c.calls.get?_eq_some_iff _ _).mpr hmem
      exact completedCall_seen (hcut.identified index spec hspec) (hcut.named_iff hspec)
  unfold Assembly.turn Completion.turn
  rw [hfinish, husage, ← hcalls, h.text, hcut.text, h.reasoning, hcut.reasoning, hresponse]
  cases c.finishReason with
  | none => rfl
  | some reason =>
    cases completedCalls loads s.calls with
    | error message => rfl
    | ok calls =>
      by_cases hfits : fitsText c.text ∧ fitsResponseId c.responseId
      · simp [bind, Except.bind, pure, Except.pure, Except.toOption, hfits]
      · simp [bind, Except.bind, Except.toOption, hfits]

private theorem mapM_eq_some {f : α → Option β} {g : β → γ} {g' : α → γ}
    (hg : ∀ x y, f x = some y → g y = g' x) {items : List α} {results : List β}
    (h : items.mapM f = some results) :
    results.map g = items.map g' ∧ ∀ x ∈ items, ∃ y, f x = some y := by
  induction items generalizing results with
  | nil =>
    cases h
    exact ⟨rfl, fun _ hx => absurd hx List.not_mem_nil⟩
  | cons x rest ih =>
    rw [List.mapM_cons] at h
    obtain ⟨y, hy, h⟩ := Option.bind_eq_some_iff.mp h
    obtain ⟨ys, hys, h⟩ := Option.bind_eq_some_iff.mp h
    cases h
    obtain ⟨hmap, hrest⟩ := ih hys
    refine ⟨?_, fun z hz => ?_⟩
    · rw [List.map_cons, List.map_cons, hmap, hg x y hy]
    · rcases List.mem_cons.mp hz with rfl | hz
      · exact ⟨y, hy⟩
      · exact hrest z hz

private theorem CallSpec.toolCall_eq_some {call : ToolCall}
    (h : spec.toolCall names loads = some call) :
    spec.name ≠ [] ∧ (call.callId, call.name, call.argumentsJson) =
      (spec.id, names.decode spec.name, spec.arguments) := by
  unfold CallSpec.toolCall at h
  split at h
  · cases h
  · next hne =>
    split at h
    · split at h
      · cases h
        exact ⟨hne, rfl⟩
      · cases h
    · cases h

private theorem ToolCall.bounds (call : ToolCall) : call.callId ≠ [] ∧ call.name ≠ [] ∧
    fitsEvent call.callId call.name ∧ fitsText call.argumentsJson := by
  have hvalid := call.valid
  simp only [isToolCall, Bool.and_eq_true, decide_eq_true_eq] at hvalid
  obtain ⟨⟨⟨hne, hid⟩, hname⟩, harguments⟩ := hvalid
  cases hcase : call.name with
  | nil =>
    rw [hcase] at hname
    cases hname
  | cons first rest =>
    rw [hcase] at hname
    simp only [isToolName, Bool.and_eq_true, decide_eq_true_eq] at hname
    exact ⟨hne, List.cons_ne_nil _ _, ⟨hid, Nat.succ_le_succ hname.1.2⟩, harguments⟩

private theorem Completion.turn_eq_some {turn : ModelTurn}
    (h : c.turn provider model names loads = some turn) :
    fitsText c.text ∧ turn.content = c.text ∧ c.modelUsage ≠ none ∧
      (∀ continuation ∈ turn.continuation, continuation.reasoningContent = c.reasoning) ∧
      turn.toolCalls.map (fun call => (call.callId, call.name, call.argumentsJson)) =
        c.calls.values.map (fun spec => (spec.id, names.decode spec.name, spec.arguments)) ∧
      ∀ index spec, c.calls.get? index = some spec → spec.id ≠ [] ∧ spec.name ≠ [] ∧
        names.decode spec.name ≠ [] ∧ fitsEvent spec.id (names.decode spec.name) ∧
          fitsText spec.arguments := by
  unfold Completion.turn at h
  obtain ⟨reason, -, h⟩ := Option.bind_eq_some_iff.mp h
  obtain ⟨usage, husage, h⟩ := Option.bind_eq_some_iff.mp h
  obtain ⟨calls, hcalls, h⟩ := Option.bind_eq_some_iff.mp h
  split at h
  · next hfits =>
    cases h
    obtain ⟨hmap, hall⟩ := mapM_eq_some (fun _ _ hcall => (CallSpec.toolCall_eq_some hcall).2)
      hcalls
    refine ⟨hfits.1, rfl, by simp [husage], ?_, hmap, ?_⟩
    · intro continuation hcontinuation
      dsimp only at hcontinuation
      split at hcontinuation
      · cases hcontinuation
        rfl
      · cases hcontinuation
    · intro index spec hspec
      obtain ⟨call, hcall⟩ := hall spec ((c.calls.mem_values_iff spec).mpr ⟨index, hspec⟩)
      obtain ⟨hname, hsame⟩ := CallSpec.toolCall_eq_some hcall
      obtain ⟨hid, hdecoded, hevent, htext⟩ := call.bounds
      simp only [Prod.mk.injEq] at hsame
      rw [hsame.1, hsame.2.1] at hevent
      exact ⟨hsame.1 ▸ hid, hname, hsame.2.1 ▸ hdecoded, hevent, hsame.2.2 ▸ htext⟩
  · cases h

/-- The events of the pieces of the chunks, and what is assembled of them. -/
def readChunks (names : ToolNames) (chunks : List Chunk) : StreamReading :=
  readPieces names (chunks.flatMap Chunk.pieces)

/-- The adapter makes of the chunks the turn of the completion, and told it as it came: its text
and reasoning, and each call by one start before its arguments. -/
structure Assembles (provider : ProviderId) (model : String) (names : ToolNames)
    (loads : Text → Option Json) (c : Completion) (chunks : List Chunk) : Prop where
  outcome : (streamOutcome provider model loads (readChunks names chunks) .exhausted).toOption =
    c.turn provider model names loads
  text : ∀ turn ∈ c.turn provider model names loads,
    (readChunks names chunks).events.flatMap ModelStreamEvent.textPart = turn.content
  reasoning : ∀ turn ∈ c.turn provider model names loads,
    (readChunks names chunks).events.flatMap ModelStreamEvent.reasoningPart = c.reasoning ∧
      ∀ continuation ∈ turn.continuation, continuation.reasoningContent = c.reasoning
  calls : ∀ turn ∈ c.turn provider model names loads,
    turn.toolCalls.map (fun call => (call.callId, call.name, call.argumentsJson)) =
      c.calls.values.map fun spec => (spec.id, names.decode spec.name, spec.arguments)
  started : ∀ turn ∈ c.turn provider model names loads, ∀ index spec,
    c.calls.get? index = some spec →
      (readChunks names chunks).events.filterMap (ModelStreamEvent.startAt index) =
          [(spec.id, names.decode spec.name)] ∧
        (readChunks names chunks).events.flatMap (ModelStreamEvent.argumentPart index) =
          spec.arguments
  before : ∀ turn ∈ c.turn provider model names loads,
    Throughout TellsAfterStart (readChunks names chunks).events

/-- The chunks of a completion that can be told: their reasoning fits events, and their calls
have an identifier and a name before arguments. -/
def Tellable (pieces : List Piece) : Prop :=
  (∀ text, .reasoning text ∈ pieces → fitsText text) ∧ Throughout Announced pieces

/-- The same turn of another provider. -/
def ModelTurn.ofProvider (turn : ModelTurn) (provider : ProviderId) (model : String) : ModelTurn :=
  { turn with
    provider := provider
    model := model
    continuation := turn.continuation.map fun c => { c with provider := provider } }

private theorem fitsText_of_mem {f : Piece → Text}
    (hmem : piece ∈ pieces) (h : fitsText (pieces.flatMap f)) : fitsText (f piece) := by
  obtain ⟨earlier, later, rfl⟩ := List.append_of_mem hmem
  unfold fitsText at h ⊢
  rw [List.flatMap_append, List.flatMap_cons, List.length_append, List.length_append] at h
  omega

private theorem fits_of_turn {turn : ModelTurn}
    (hturn : c.turn provider model names loads = some turn) (hcut : CutOf c pieces)
    (hreasoning : ∀ text, .reasoning text ∈ pieces → fitsText text)
    (hmem : piece ∈ pieces) : piece.Fits names c := by
  obtain ⟨htext, -, husage, -, -, hcalls⟩ := Completion.turn_eq_some hturn
  have hagrees := hcut.agrees piece hmem
  cases piece with
  | responseId id => trivial
  | finishReason reason => trivial
  | usage raw =>
    have hraw : c.usage = some raw := hagrees
    intro hnone
    apply husage
    rw [Completion.modelUsage, hraw]
    exact hnone
  | reasoning text => exact hreasoning text hmem
  | content text =>
    exact fitsText_of_mem (f := Piece.contentText) hmem (hcut.text ▸ htext)
  | call raw =>
    obtain ⟨spec, hspec, -, -⟩ := hagrees
    obtain ⟨-, -, -, hevent, harguments⟩ := hcalls raw.index spec hspec
    constructor
    · have hpart := fitsText_of_mem (f := Piece.argumentText raw.index) hmem
        ((hcut.arguments raw.index spec hspec).symm ▸ harguments)
      simpa [Piece.argumentText] using hpart
    · intro spec' hspec'
      cases Option.some.inj (hspec.symm.trans hspec')
      exact hevent

private theorem streamOutcome_of_state (h : r.state = some s) :
    (streamOutcome provider model loads r .exhausted).toOption =
      (s.turn provider model loads).toOption := by
  unfold streamOutcome
  rw [h]
  dsimp only
  cases s.turn provider model loads <;> rfl

private theorem Completion.turn_ofProvider (provider other : ProviderId) (model otherModel : String)
    (names : ToolNames) (loads : Text → Option Json) (c : Completion) :
    c.turn other otherModel names loads =
      (c.turn provider model names loads).map fun turn => turn.ofProvider other otherModel := by
  unfold Completion.turn
  cases c.finishReason with
  | none => rfl
  | some reason =>
    cases c.modelUsage with
    | none => rfl
    | some usage =>
      cases c.calls.values.mapM (CallSpec.toolCall names loads) with
      | none => rfl
      | some calls =>
        by_cases hfits : fitsText c.text ∧ fitsResponseId c.responseId
        · by_cases hcontinues : c.reasoning ≠ [] ∧ calls ≠ []
          · simp only [bind, Option.bind_some, if_pos hfits, if_pos hcontinues]
            rfl
          · simp only [bind, Option.bind_some, if_pos hfits, if_neg hcontinues]
            rfl
        · simp only [bind, Option.bind_some, if_neg hfits]
          rfl

/-- The chunks of a completion are assembled to its turn, told as it came, exactly if it is
refused anyway or can be told; and the two providers make the same turn of it. -/
theorem assembles_iff_tellable (provider : ProviderId) (model : String) (names : ToolNames)
    (loads : Text → Option Json) (c : Completion) (chunks : List Chunk)
    (hcut : CutOf c (chunks.flatMap Chunk.pieces)) :
    (Assembles provider model names loads c chunks ↔
      c.turn provider model names loads = none ∨ Tellable (chunks.flatMap Chunk.pieces)) ∧
    ∀ other otherModel, c.turn other otherModel names loads =
      (c.turn provider model names loads).map fun turn => turn.ofProvider other otherModel := by
  refine ⟨?_, fun other otherModel => c.turn_ofProvider provider other model otherModel names loads⟩
  have houtcome : ∀ s, (readChunks names chunks).state = some s →
      Told c names (chunks.flatMap Chunk.pieces) (readChunks names chunks).events s →
      (streamOutcome provider model loads (readChunks names chunks) .exhausted).toOption =
        c.turn provider model names loads := fun s hs htold =>
    (streamOutcome_of_state hs).trans (turn_of_told hcut htold)
  have hraised : (readChunks names chunks).state = none →
      (streamOutcome provider model loads (readChunks names chunks) .exhausted).toOption =
        none := by
    intro hnone
    unfold streamOutcome
    rw [hnone]
    rfl
  have hread := told_readPieces names hcut.agrees
  constructor
  · intro h
    cases hturn : c.turn provider model names loads with
    | none => exact Or.inl rfl
    | some turn =>
      right
      obtain ⟨-, -, -, -, -, hcalls⟩ := Completion.turn_eq_some hturn
      rcases hread with ⟨s, hs, -⟩ | ⟨hnone, -⟩
      · refine ⟨fun text hmem => reasoning_fits hs hmem, ?_⟩
        refine (tellsAfterStart_iff ?_ hcut.agrees hs).mp (h.before turn hturn)
        intro index spec hspec
        obtain ⟨hid, hname, hdecoded, -⟩ := hcalls index spec hspec
        exact ⟨hid, hname, hdecoded⟩
      · have hsame := h.outcome
        rw [hraised hnone, hturn] at hsame
        cases hsame
  · intro h
    cases hturn : c.turn provider model names loads with
    | none =>
      have hvacuous : ∀ {p : ModelTurn → Prop}, ∀ turn ∈ c.turn provider model names loads,
          p turn := by
        intro p turn hmem
        rw [hturn] at hmem
        cases hmem
      refine ⟨?_, hvacuous, hvacuous, hvacuous, hvacuous, hvacuous⟩
      rcases hread with ⟨s, hs, htold⟩ | ⟨hnone, -⟩
      · exact houtcome s hs htold
      · rw [hraised hnone, hturn]
    | some turn =>
      obtain ⟨hreasoning, hannounced⟩ := h.resolve_left (by rw [hturn]; exact Option.some_ne_none _)
      obtain ⟨-, hcontent, -, hcontinuation, hmap, hcalls⟩ := Completion.turn_eq_some hturn
      rcases hread with ⟨s, hs, htold⟩ | ⟨-, piece, hmem, hlong⟩
      · have honly : ∀ {p : ModelTurn → Prop}, p turn →
            ∀ turn' ∈ c.turn provider model names loads, p turn' := by
          intro p hp turn' hmem
          rw [hturn] at hmem
          cases hmem
          exact hp
        refine ⟨houtcome s hs htold, honly ?_, honly ⟨?_, hcontinuation⟩, honly hmap, honly ?_,
          honly ?_⟩
        · rw [hcontent, ← hcut.text]
          exact htold.texts
        · rw [← hcut.reasoning]
          exact htold.reasonings
        · intro index spec hspec
          obtain ⟨hid, hname, -⟩ := hcalls index spec hspec
          have hcomplete : c.Complete names := fun i spec' hspec' =>
            ⟨(hcalls i spec' hspec').1, (hcalls i spec' hspec').2.1, (hcalls i spec' hspec').2.2.1⟩
          constructor
          · refine (htold.starts index).trans ?_
            rw [startsOf_seenAt hcomplete hspec (hcut.called index spec hspec),
              if_pos ⟨hcut.identified index spec hspec hid, hcut.named index spec hspec hname⟩]
          · exact (htold.arguments index).trans (hcut.arguments index spec hspec)
        · refine (tellsAfterStart_iff ?_ hcut.agrees hs).mpr hannounced
          intro index spec hspec
          obtain ⟨hid, hname, hdecoded, -⟩ := hcalls index spec hspec
          exact ⟨hid, hname, hdecoded⟩
      · exact absurd (fits_of_turn hturn hcut hreasoning hmem) hlong

/-- A completion with one tool call. -/
def sampleCompletion : Completion where
  text := ['a']
  reasoning := []
  calls := ⟨[(0, ⟨['c'], ['t'], ['{', '}']⟩)], by decide⟩
  finishReason := some "tool_calls"
  usage := none
  responseId := some ['r']
  ordered := by decide

private theorem sampleCompletion_calls (h : sampleCompletion.calls.get? index = some spec) :
    index = 0 ∧ spec = ⟨['c'], ['t'], ['{', '}']⟩ := by
  have hmem := (sampleCompletion.calls.get?_eq_some_iff index spec).mp h
  cases List.mem_singleton.mp hmem
  exact ⟨rfl, rfl⟩

/-- A cut that tells the identifier and the name first. -/
def announcedChunks : List Chunk :=
  [⟨some (some ['r']), none, some ⟨none, none, some ['a'], [⟨0, some ['c'], some ['t'], none⟩]⟩⟩,
    ⟨none, none, some ⟨none, none, none, [⟨0, none, none, some ['{']⟩]⟩⟩,
    ⟨none, none, some ⟨some "tool_calls", none, none, [⟨0, none, none, some ['}']⟩]⟩⟩]

/-- A cut that tells part of the arguments first. -/
def unannouncedChunks : List Chunk :=
  [⟨some (some ['r']), none, some ⟨none, none, some ['a'], [⟨0, none, none, some ['{']⟩]⟩⟩,
    ⟨none, none, some ⟨some "tool_calls", none, none,
      [⟨0, some ['c'], some ['t'], some ['}']⟩]⟩⟩]

private theorem sampleCompletion_cut (hagrees : ∀ piece ∈ pieces, piece.Agrees sampleCompletion)
    (htext : pieces.flatMap Piece.contentText = ['a'])
    (hreasoning : pieces.flatMap Piece.reasoningText = [])
    (harguments : pieces.flatMap (Piece.argumentText 0) = ['{', '}'])
    (hany : pieces.any (Piece.isAt 0) ∧ pieces.any (Piece.tellsId 0) ∧
      pieces.any (Piece.tellsName 0) ∧ pieces.any Piece.tellsFinish ∧
      pieces.any Piece.tellsResponse) : CutOf sampleCompletion pieces := by
  obtain ⟨hcalled, hid, hname, hfinish, hresponse⟩ := hany
  refine ⟨hagrees, htext, hreasoning, ?_, ?_, ?_, ?_, fun _ => hfinish, ?_, fun _ => hresponse⟩
  · intro index spec hspec
    obtain ⟨rfl, -⟩ := sampleCompletion_calls hspec
    exact hcalled
  · intro index spec hspec _
    obtain ⟨rfl, -⟩ := sampleCompletion_calls hspec
    exact hid
  · intro index spec hspec _
    obtain ⟨rfl, -⟩ := sampleCompletion_calls hspec
    exact hname
  · intro index spec hspec
    obtain ⟨rfl, rfl⟩ := sampleCompletion_calls hspec
    exact harguments
  · exact fun hne => absurd rfl hne

private theorem announcedChunks_cut : CutOf sampleCompletion (announcedChunks.flatMap Chunk.pieces)
    := by
  refine sampleCompletion_cut ?_ (by decide) (by decide) (by decide) (by decide)
  intro piece hmem
  simp only [announcedChunks, List.flatMap_cons, List.flatMap_nil, Chunk.pieces] at hmem
  simp at hmem
  rcases hmem with rfl | rfl | rfl | rfl | rfl | rfl
  · rfl
  · trivial
  · exact ⟨_, rfl, by decide, by decide⟩
  · exact ⟨_, rfl, by decide, by decide⟩
  · rfl
  · exact ⟨_, rfl, by decide, by decide⟩

private theorem announcedChunks_tellable : Tellable (announcedChunks.flatMap Chunk.pieces) := by
  constructor
  · intro text hmem
    simp [announcedChunks, Chunk.pieces] at hmem
  · have hother : ∀ {earlier : List Piece} {piece : Piece}, (∀ raw, piece ≠ .call raw) →
        Announced earlier piece := fun h raw he => absurd he (h raw)
    refine (((((throughout_nil.concat ?_).concat ?_).concat ?_).concat ?_).concat ?_).concat ?_
    · exact hother (by simp)
    · exact hother (by simp)
    · rintro raw he -
      cases he
      decide
    · rintro raw he -
      cases he
      decide
    · exact hother (by simp)
    · rintro raw he -
      cases he
      decide

/-- The sample completion is assembled from chunks that tell the identifier and the name first. -/
theorem assembles_announced :
    sampleCompletion.turn .deepseek "deepseek-chat" ⟨.empty, .empty⟩
        (fun _ => some (.object [])) ≠ none ∧
      Assembles .deepseek "deepseek-chat" ⟨.empty, .empty⟩ (fun _ => some (.object []))
        sampleCompletion announcedChunks := by
  refine ⟨by decide, ?_⟩
  exact (assembles_iff_tellable .deepseek "deepseek-chat" ⟨.empty, .empty⟩
    (fun _ => some (.object [])) sampleCompletion announcedChunks announcedChunks_cut).1.mpr
    (Or.inr announcedChunks_tellable)

private theorem unannouncedChunks_cut :
    CutOf sampleCompletion (unannouncedChunks.flatMap Chunk.pieces) := by
  refine sampleCompletion_cut ?_ (by decide) (by decide) (by decide) (by decide)
  intro piece hmem
  simp only [unannouncedChunks, List.flatMap_cons, List.flatMap_nil, Chunk.pieces] at hmem
  simp at hmem
  rcases hmem with rfl | rfl | rfl | rfl | rfl
  · rfl
  · trivial
  · exact ⟨_, rfl, by decide, by decide⟩
  · rfl
  · exact ⟨_, rfl, by decide, by decide⟩

/-- A call is told to start only after the first of its arguments. -/
theorem arguments_before_start :
    ¬ ∀ (provider : ProviderId) (model : String) (names : ToolNames) (loads : Text → Option Json)
      (c : Completion) (chunks : List Chunk), CutOf c (chunks.flatMap Chunk.pieces) →
      Assembles provider model names loads c chunks := by
  intro h
  have hassembles := h .deepseek "deepseek-chat" ⟨.empty, .empty⟩ (fun _ => some (.object []))
    sampleCompletion unannouncedChunks unannouncedChunks_cut
  cases hturn : sampleCompletion.turn .deepseek "deepseek-chat" ⟨.empty, .empty⟩
      (fun _ => some (.object [])) with
  | none =>
    revert hturn
    decide
  | some turn =>
    have hbefore := hassembles.before turn hturn
    have hevents : (readChunks ⟨.empty, .empty⟩ unannouncedChunks).events =
        [.textDelta ['a']] ++ .toolArgumentsDelta 0 ['{'] ::
          [.toolCallStarted 0 ['c'] ['t'], .toolArgumentsDelta 0 ['}']] := by decide
    exact hbefore _ _ _ hevents 0 ['{'] rfl rfl

end AwesomeAgent.Modeling
