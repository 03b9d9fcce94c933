import AwesomeAgent.Library.Numerals
import AwesomeAgent.Protocol.Client
import AwesomeAgent.Protocol.ServerAnswers
import Mathlib.Data.List.Nodup

/-!
# A client and its server

The frames that the client writes reach the server in their order, and what the server puts into
its output reaches the client in its order. Everything else may happen at any time.
-/

namespace AwesomeAgent

variable {Payload Value : Type}

/-- What the runtimes make of values on both sides. -/
structure SessionWire (Payload Value : Type) where
  wire : Wire Payload
  schemas : MethodSchemas Value
  /-- What a response says to the client. -/
  content : ResponseBody Payload → ResponseContent Value

/-- The code units of a name. -/
def nameUnits (name : String) : List UInt16 := name.toList.flatMap JsonText.unitsOf

/-- The members of a request. -/
def frameMembers (id : Json) (method : List UInt16) (params : Json) : List (List UInt16 × Json) :=
  [(nameUnits "jsonrpc", .string (nameUnits "2.0")), (nameUnits "id", id),
    (nameUnits "method", .string method), (nameUnits "params", params)]

/-- The value of a frame. -/
def RequestFrame.value (frame : RequestFrame) : Json :=
  .object (frameMembers (.number (Numeral.ofNat frame.id)) (nameUnits frame.method) frame.params)

/-- A client, its server, and how much of the output has reached the client. -/
structure Session (Payload Value : Type) where
  client : RpcClient Value
  server : Server Payload
  delivered : Nat

/-- What can happen. -/
inductive SessionAction (Payload Value : Type)
  | client (action : ClientAction Value)
  | server (action : ServerAction Payload)
  | toServer (rejection : Option BootstrapRejection)
  | toClient

namespace Session

/-- A session that has just begun. -/
def initial : Session Payload Value := ⟨.initial, .initial, 0⟩

/-- An action of the client that is not a response. -/
def isOwn : ClientAction Value → Bool
  | .message (.response _ _) => false
  | _ => true

/-- An action of the server that receives no value. -/
def isInternal : ServerAction Payload → Bool
  | .receive (.value _) _ => false
  | _ => true

/-- The message of a response. -/
def messageOf (w : SessionWire Payload Value) (response : Response Payload) :
    ClientMessage Value :=
  match response.id with
  | some id => .response id (w.content response.body)
  | none => .invalid

/-- One step. -/
def step (w : SessionWire Payload Value) (s : Session Payload Value) :
    SessionAction Payload Value → Option (Session Payload Value)
  | .client action =>
      if isOwn action then (s.client.step w.schemas action).map fun c => { s with client := c }
      else none
  | .server action =>
      if isInternal action then (s.server.step w.wire action).map fun t => { s with server := t }
      else none
  | .toServer rejection =>
      match s.client.written[s.server.log.received.length]? with
      | some frame =>
          (s.server.step w.wire (.receive (.value frame.value) rejection)).map fun t =>
            { s with server := t }
      | none => none
  | .toClient =>
      match s.server.log.output[s.delivered]? with
      | some output =>
          (s.client.step w.schemas (.message (messageOf w output.2))).map fun c =>
            { s with client := c, delivered := s.delivered + 1 }
      | none => none

end Session

/-! ## What a step of the server leaves -/

namespace Server

variable {wire : Wire Payload} {s t : Server Payload}

/-- The values received and the output of a server that did not receive a value. -/
structure Extends (s t : Server Payload) (values : List Json) : Prop where
  received : t.log.received = s.log.received ++ values
  output : s.log.output <+: t.log.output

private theorem extends_leave (s : Server Payload) : Extends s s.leave [] :=
  ⟨(List.append_nil _).symm, List.prefix_refl _⟩

private theorem Extends.trans {u : Server Payload} {values more : List Json}
    (h : Extends s t values)
    (h' : Extends t u more) : Extends s u (values ++ more) :=
  ⟨by rw [h'.received, h.received, List.append_assoc], h.output.trans h'.output⟩

private theorem extends_reply (s : Server Payload) (serial : Option Nat) (value : Json)
    (completes : Option RequestId) (response : Response Payload) :
    Extends s (s.reply wire serial value completes response) [] := by
  unfold reply
  split <;> exact ⟨(List.append_nil _).symm, List.prefix_refl _⟩

private theorem extends_dispatchValue (s : Server Payload) (n : Nat) (value : Json) :
    Extends s (s.dispatchValue wire n value) [] := by
  unfold dispatchValue
  split
  · split <;> exact ⟨(List.append_nil _).symm, List.prefix_refl _⟩
  · split
    · split
      · exact extends_reply _ _ _ _ _
      · exact ⟨(List.append_nil _).symm, List.prefix_refl _⟩
    · exact ⟨(List.append_nil _).symm, List.prefix_refl _⟩

private theorem extends_receiveValue (s : Server Payload) (value : Json)
    (rejection : Option BootstrapRejection) :
    Extends s (s.receiveValue wire value rejection) [value] := by
  have hreceived : Extends s (s.received value) [value] := ⟨rfl, List.prefix_refl _⟩
  have htracking : ∀ tracker, Extends s ((s.received value).tracking tracker) [value] := fun _ =>
    ⟨rfl, List.prefix_refl _⟩
  unfold receiveValue
  dsimp only
  split
  · exact hreceived.trans (extends_reply _ _ _ _ _)
  · split
    · split
      · exact (htracking _).trans (extends_reply _ _ _ _ _)
      · exact htracking _
    · exact (htracking _).trans (extends_dispatchValue _ _ _)

private theorem extends_proceed (s : Server Payload) (job : Job Payload) :
    Extends s (s.proceed wire job) [] := by
  unfold proceed
  split
  · split
    · exact ⟨(List.append_nil _).symm, List.prefix_refl _⟩
    · split
      · exact extends_leave s
      · exact ⟨(List.append_nil _).symm, List.prefix_refl _⟩
  · exact extends_leave s
  · exact ⟨(List.append_nil _).symm, List.prefix_refl _⟩

/-- The value that an action receives. -/
def receives : ServerAction Payload → List Json
  | .receive (.value value) _ => [value]
  | _ => []

private theorem extends_step {a : ServerAction Payload} (ht : Stepped wire s a t) :
    Extends s t (receives a) := by
  cases ht with
  | unreadable _ => exact extends_reply _ _ _ _ _
  | blank => exact ⟨(List.append_nil _).symm, List.prefix_refl _⟩
  | value _ => exact extends_receiveValue _ _ _
  | endOfInput _ => exact extends_leave s
  | notice _ => exact extends_leave s
  | @loop event job moved output invoked _ _ =>
    have hnote : Extends s ((s.invoke invoked).note moved output) [] :=
      ⟨(List.append_nil _).symm, List.prefix_append _ _⟩
    exact hnote.trans (extends_proceed _ moved)
  | task _ _ => exact ⟨(List.append_nil _).symm, List.prefix_append _ _⟩
  | discard _ _ _ => exact ⟨(List.append_nil _).symm, List.prefix_refl _⟩
  | drained _ => exact ⟨(List.append_nil _).symm, List.prefix_refl _⟩
  | closed _ => exact ⟨(List.append_nil _).symm, List.prefix_refl _⟩

end Server

/-! ## Answers reach the promises of their requests -/

namespace Session

variable {w : SessionWire Payload Value} {s t : Session Payload Value}

/-- What holds of a session. -/
structure Sound (w : SessionWire Payload Value) (s : Session Payload Value) : Prop where
  client : s.client.Sound w.schemas
  server : s.server.Accounted w.wire
  received : s.server.log.received <+: s.client.written.map RequestFrame.value
  responses : ∀ id content, (id, content) ∈ s.client.responses → ∃ serial response,
    (serial, response) ∈ s.server.log.output ∧ response.id = some id ∧
      w.content response.body = content

private theorem sound_initial : (initial : Session Payload Value).Sound w where
  client := RpcClient.sound_initial
  server := Ledger.empty
  received := List.prefix_refl _
  responses _ _ h := by cases h

private theorem Sound.responses_mono (h : s.Sound w) {server : Server Payload}
    (houtput : s.server.log.output <+: server.log.output) : ∀ id content,
    (id, content) ∈ s.client.responses → ∃ serial response,
      (serial, response) ∈ server.log.output ∧ response.id = some id ∧
        w.content response.body = content := by
  intro id content hmem
  obtain ⟨serial, response, hresponse, hrest⟩ := h.responses id content hmem
  exact ⟨serial, response, houtput.subset hresponse, hrest⟩

/-- Every step keeps a session sound. -/
theorem Sound.step (h : s.Sound w) {a : SessionAction Payload Value}
    (ht : s.step w a = some t) : t.Sound w := by
  cases a with
  | client action =>
    simp only [Session.step] at ht
    split at ht
    · next hown =>
      obtain ⟨c, hc, rfl⟩ := Option.map_eq_some_iff.mp ht
      obtain ⟨hclient, hgrows⟩ := h.client.step hc
      refine ⟨hclient, h.server, h.received.trans (hgrows.written.map _), ?_⟩
      intro id content hmem
      refine h.responses id content ?_
      have hnone : RpcClient.answered action = [] := by
        unfold RpcClient.answered
        split
        · cases hown
        · rfl
      have hresponses := hgrows.responses
      rw [hnone, List.append_nil] at hresponses
      exact hresponses ▸ hmem
    · cases ht
  | server action =>
    simp only [Session.step] at ht
    split at ht
    · next hinternal =>
      obtain ⟨server, hserver, rfl⟩ := Option.map_eq_some_iff.mp ht
      have hstepped := Server.step_stepped hserver
      have hextends := Server.extends_step hstepped
      refine ⟨h.client, h.server.step hstepped, ?_, h.responses_mono hextends.output⟩
      have hnone : Server.receives action = [] := by
        unfold Server.receives
        split
        · cases hinternal
        · rfl
      rw [hextends.received, hnone, List.append_nil]
      exact h.received
    · cases ht
  | toServer rejection =>
    simp only [Session.step] at ht
    split at ht
    · next frame hframe =>
      obtain ⟨server, hserver, rfl⟩ := Option.map_eq_some_iff.mp ht
      have hstepped := Server.step_stepped hserver
      have hextends := Server.extends_step hstepped
      refine ⟨h.client, h.server.step hstepped, ?_, h.responses_mono hextends.output⟩
      rw [hextends.received]
      obtain ⟨rest, hrest⟩ := h.received
      have hnext : (s.client.written.map RequestFrame.value)[s.server.log.received.length]? =
          some frame.value := by
        rw [List.getElem?_map, hframe]
        rfl
      rw [← hrest, List.getElem?_append_right (Nat.le_refl _), Nat.sub_self] at hnext
      cases rest with
      | nil => cases hnext
      | cons value rest =>
        cases hnext
        rw [← hrest]
        exact ⟨rest, (List.append_cons _ _ _).symm⟩
    · cases ht
  | toClient =>
    simp only [Session.step] at ht
    split at ht
    · next output houtput =>
      obtain ⟨c, hc, rfl⟩ := Option.map_eq_some_iff.mp ht
      obtain ⟨hclient, hgrows⟩ := h.client.step hc
      refine ⟨hclient, h.server, h.received.trans (hgrows.written.map _), ?_⟩
      intro id content hmem
      rw [hgrows.responses] at hmem
      rcases List.mem_append.mp hmem with hmem | hmem
      · exact h.responses id content hmem
      · unfold RpcClient.answered messageOf at hmem
        cases hid : output.2.id with
        | none =>
          rw [hid] at hmem
          cases hmem
        | some own =>
          rw [hid] at hmem
          obtain ⟨rfl, rfl⟩ := Prod.mk.inj (List.mem_singleton.mp hmem)
          exact ⟨output.1, output.2, List.mem_of_getElem? houtput, hid, rfl⟩
    · cases ht

private theorem nameUnits_ne_nil {name : String} (h : name ≠ "") : nameUnits name ≠ [] := by
  intro hnil
  unfold nameUnits at hnil
  cases hchars : name.toList with
  | nil => exact h (String.toList_eq_nil_iff.mp hchars)
  | cons c rest =>
    rw [hchars, List.flatMap_cons, List.append_eq_nil_iff] at hnil
    unfold JsonText.unitsOf at hnil
    split at hnil <;> cases hnil.1

variable {frame : RequestFrame}

private theorem parse_value (hmethod : frame.method ≠ "")
    (hid : w.wire.safeInteger (Numeral.ofNat frame.id) = some (frame.id : Int)) :
    ∃ request, parseJsonrpcRequest w.wire frame.value = some request ∧
      request.id = some (.number frame.id) ∧ request.hasId = true := by
  obtain ⟨first, rest, hunits⟩ := List.exists_cons_of_ne_nil (nameUnits_ne_nil hmethod)
  refine ⟨⟨some (.number frame.id), true, first :: rest, frame.params⟩, ?_, rfl, rfl⟩
  have hid' : requestIdOf w.wire frame.value = some (.number frame.id) := by
    change (w.wire.safeInteger (Numeral.ofNat frame.id)).map RequestId.number = _
    rw [hid]
    rfl
  have hkeys : (frameMembers (.number (Numeral.ofNat frame.id)) (first :: rest) frame.params).any
      (fun m => !requestMembers.any fun name =>
        decide (m.1 = name.toList.flatMap JsonText.unitsOf)) = false := rfl
  have hversion : (Json.member (frameMembers (.number (Numeral.ofNat frame.id)) (first :: rest)
      frame.params) "jsonrpc").any (Json.isText "2.0") = true := rfl
  have hmember : Json.member (frameMembers (.number (Numeral.ofNat frame.id)) (first :: rest)
      frame.params) "method" = some (.string (first :: rest)) := rfl
  unfold RequestFrame.value at hid' ⊢
  rw [hunits] at hid' ⊢
  unfold parseJsonrpcRequest
  dsimp only
  rw [hkeys, if_neg Bool.false_ne_true, hversion, if_neg (by simp), hmember]
  dsimp only
  rw [hid']
  rfl

/-- Numbers that identify requests are read as they were written. -/
def ReadsIdentifiers (w : SessionWire Payload Value) : Prop :=
  ∀ n ≤ maxSafeInteger, w.wire.safeInteger (Numeral.ofNat n) = some (n : Int)

/-- What holds of the promises of a client that talks to a server. -/
structure DeliversAnswers (w : SessionWire Payload Value) (s : Session Payload Value) : Prop where
  /-- A promise waits or is settled, once. -/
  accounted : (s.client.settled.map Prod.fst ++
    s.client.pending.map PendingRequest.promise).Perm (List.range s.client.promises)
  /-- A promise that is settled by a response is settled by what the server answered to the frame
  of its own request, which is the only answer to this frame. -/
  answered : ∀ promise settlement, (promise, settlement) ∈ s.client.settled →
    s.client.IsLocal settlement ∨ ∃ p frame n response, (p, frame) ∈ s.client.issued ∧
      p.promise = promise ∧ s.client.written[n]? = some frame ∧
        s.server.log.received[n]? = some frame.value ∧ (some n, response) ∈ s.server.log.output ∧
          (∀ other, (some n, other) ∈ s.server.log.output → other = response) ∧
            RpcClient.settlementOf w.schemas p.method (w.content response.body) = some settlement

private theorem Sound.frame_of_received (h : s.Sound w) {n : Nat} {value : Json}
    (hvalue : s.server.log.received[n]? = some value) :
    ∃ p frame, (p, frame) ∈ s.client.issued ∧ s.client.written[n]? = some frame ∧
      value = frame.value := by
  obtain ⟨rest, hrest⟩ := h.received
  have hmapped : (s.client.written.map RequestFrame.value)[n]? = some value := by
    rw [← hrest, List.getElem?_append_left (List.getElem?_eq_some_iff.mp hvalue).1]
    exact hvalue
  rw [List.getElem?_map] at hmapped
  obtain ⟨frame, hframe, rfl⟩ := Option.map_eq_some_iff.mp hmapped
  have hissued : frame ∈ s.client.issued.map Prod.snd :=
    h.client.written.subset (List.mem_of_getElem? hframe)
  obtain ⟨⟨p, _⟩, hp, rfl⟩ := List.mem_map.mp hissued
  exact ⟨p, _, hp, hframe, rfl⟩

private theorem issued_unique {issued : List (PendingRequest × RequestFrame)}
    (hidentifiers : (issued.map fun i => i.1.id).Pairwise (· < ·))
    {i j : PendingRequest × RequestFrame} (hi : i ∈ issued) (hj : j ∈ issued)
    (heq : i.1.id = j.1.id) : i = j := by
  have hnodup : (issued.map fun i => i.1.id).Nodup := hidentifiers.imp fun hlt => hlt.ne
  exact List.inj_on_of_nodup_map hnodup hi hj heq

private theorem output_unique {output : List (Option Nat × Response Payload)} {n : Nat}
    (honce : (output.filterMap Prod.fst).Nodup) {response other : Response Payload}
    (hresponse : (some n, response) ∈ output) (hother : (some n, other) ∈ output) :
    other = response := by
  obtain ⟨front, back, rfl⟩ := List.append_of_mem hresponse
  have hcons : ((some n, response) :: back).filterMap Prod.fst = n :: back.filterMap Prod.fst :=
    List.filterMap_cons_some rfl
  rw [List.filterMap_append, hcons] at honce
  have hfresh := (List.nodup_cons.mp (List.perm_middle.nodup_iff.mp honce)).1
  rw [← List.filterMap_append] at hfresh
  have hout : (some n, other) ∉ front ++ back := fun hmem =>
    hfresh (List.mem_filterMap.mpr ⟨_, hmem, rfl⟩)
  rcases List.mem_append.mp hother with hmem | hmem
  · exact absurd (List.mem_append_left _ hmem) hout
  · rcases List.mem_cons.mp hmem with heq | hmem
    · exact (Prod.mk.inj heq).2
    · exact absurd (List.mem_append_right _ hmem) hout

private theorem Sound.answer_of_id (h : s.Sound w) (hread : ReadsIdentifiers w) {p : PendingRequest}
    (hissued : (p, frame) ∈ s.client.issued) {serial : Option Nat}
    {response : Response Payload} (houtput : (serial, response) ∈ s.server.log.output)
    (hid : response.id = some (.number p.id)) :
    ∃ n, serial = some n ∧ s.client.written[n]? = some frame ∧
      s.server.log.received[n]? = some frame.value := by
  cases serial with
  | none =>
    have hstray := h.server.stray response houtput
    rw [hid] at hstray
    cases hstray
  | some n =>
    obtain ⟨value, hvalue, hanswers⟩ := h.server.own n response houtput
    obtain ⟨q, other, hq, hwritten, rfl⟩ := h.frame_of_received hvalue
    obtain ⟨hbound, hmethod⟩ := h.client.formed _ hq
    obtain ⟨request, hparse, hrequest, -⟩ := parse_value hmethod (hread _ hbound)
    have hown : response.id = some (.number other.id) :=
      ((hanswers request hparse).2).trans hrequest
    have hqid : other.id = q.id := (h.client.frames _ _ hq).1
    have hsame : p.id = q.id := by
      rw [hid, hqid] at hown
      have hcast : (p.id : Int) = (q.id : Int) := by injection hown with hnum; injection hnum
      exact Int.ofNat_inj.mp hcast
    obtain ⟨rfl, rfl⟩ := Prod.mk.inj (issued_unique h.client.identifiers hissued hq hsame)
    exact ⟨n, rfl, hwritten, hvalue⟩

/-- In every run the answers of the server settle the promises of their requests. -/
theorem run_deliversAnswers (hread : ReadsIdentifiers w)
    (h : Run (step w) (fun _ _ => True) (initial : Session Payload Value) s) :
    s.DeliversAnswers w := by
  have hsound : s.Sound w :=
    h.invariant (I := Sound w) sound_initial fun _ _ _ hsound _ hstep => hsound.step hstep
  refine ⟨hsound.client.accounted, fun promise settlement hmem => ?_⟩
  rcases hsound.client.justified promise settlement hmem with hlocal | hanswered
  · exact .inl hlocal
  · obtain ⟨p, frame, content, hissued, hpromise, hresponse, hsettlement⟩ := hanswered
    obtain ⟨serial, response, houtput, hid, rfl⟩ := hsound.responses _ _ hresponse
    obtain ⟨n, rfl, hwritten, hreceived⟩ := hsound.answer_of_id hread hissued houtput hid
    exact .inr ⟨p, frame, n, response, hissued, hpromise, hwritten, hreceived, houtput,
      fun other hother => output_unique hsound.server.once houtput hother, hsettlement⟩

/-- A wire that reads decimal digits, and schemas that accept everything that has a name. -/
def plainSession : SessionWire Nat Nat where
  wire :=
    { safeInteger := fun numeral => some (Nat.ofDigitChars 10 numeral.chars 0 : Int)
      refusal := fun _ => none
      isOk := fun _ => true }
  schemas := RpcClient.plainSchemas
  content
    | .result value => .result value
    | .error error _ => .error error
    | .resultTooLarge => .error internalError
    | .invalidResult => .error internalError

/-- The second of two requests is answered first, and the client closes after both answers. -/
def answeredSession : List (SessionAction Nat Nat) :=
  [.client (.request "thread.list" (.object [])), .client (.request "thread.search" (.object [])),
    .client .write, .client .write, .toServer none, .toServer none,
    .server (.task 1 (.handled (.completed (some 7)))), .server (.task 1 .put), .toClient,
    .server (.task 0 (.handled (.completed (some 3)))), .server (.task 0 .put), .toClient,
    .client (.close "done")]

/-- Two answers arrive in the other order, each with its own request. -/
theorem run_deliversAnswers_swapped : ∃ s : Session Nat Nat,
    s.client.settled = [(1, .resolved 7), (0, .resolved 3)] ∧
      s.DeliversAnswers plainSession := by
  have hread : ReadsIdentifiers plainSession := fun n _ => by
    change some (Nat.ofDigitChars 10 (Nat.toDigits 10 n) 0 : Int) = _
    rw [Nat.ofDigitChars_toDigits (by decide) (by decide)]
  cases hrun : answeredSession.foldlM (step plainSession) initial with
  | none => exact absurd hrun (by decide)
  | some s =>
    have hend : (answeredSession.foldlM (step plainSession) initial).map (fun s =>
        s.client.settled) = some [(1, .resolved 7), (0, .resolved 3)] := by decide
    rw [hrun] at hend
    exact ⟨s, Option.some.inj hend,
      run_deliversAnswers hread (Run.of_actions hrun fun _ _ _ => trivial)⟩

end Session

end AwesomeAgent
