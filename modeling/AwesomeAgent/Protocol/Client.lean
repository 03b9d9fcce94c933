import AwesomeAgent.Library.Runs
import AwesomeAgent.Protocol.JsonRpc

/-!
# The client of the core

Every request makes a promise. A promise waits under the identifier of its request until a message
with this identifier answers it, or until the client closes and rejects all promises that wait.
-/

namespace AwesomeAgent

/-- The greatest identifier of a request. -/
def maxSafeInteger : Nat := 2 ^ 53 - 1

/-- Why a client is closed. -/
inductive CloseReason
  | requested (message : String)
  | writeFailed
  | endOfFile
  | invalidFrame
  | invalidEvent
  | invalidMessage
  | invalidResult (method : String)
  | unknownResponse (id : RequestId)
  deriving DecidableEq

/-- Why a promise is rejected. -/
inductive RejectReason
  | validation (method : String)
  | exhausted
  | protocol (error : JsonRpcError)
  | closed (reason : CloseReason)
  deriving DecidableEq

/-- How a promise is settled. -/
inductive Settlement (Value : Type)
  | resolved (value : Value)
  | rejected (reason : RejectReason)
  deriving DecidableEq

/-- The frame of a request. -/
structure RequestFrame where
  id : Nat
  method : String
  params : Json

/-- A promise that waits. -/
structure PendingRequest where
  promise : Nat
  id : Nat
  method : String
  deriving DecidableEq

/-- What a response says. -/
inductive ResponseContent (Value : Type)
  | error (error : JsonRpcError)
  | result (value : Value)
  deriving DecidableEq

/-- A message of the core, or what cannot be read as one. -/
inductive ClientMessage (Value : Type)
  | event (isValid : Bool)
  | response (id : RequestId) (content : ResponseContent Value)
  | invalid
  deriving DecidableEq

/-- What the schemas of the methods say. -/
structure MethodSchemas (Value : Type) where
  /-- The parameters of a method as they are sent. -/
  params : String → Json → Option Json
  /-- A frame can be encoded. -/
  encodes : RequestFrame → Bool
  /-- The result of a method as it is given to the caller. -/
  result : String → Value → Option Value
  /-- Methods have names. -/
  named : ∀ parameters, params "" parameters = none

/-- The client, and what has happened: how many promises were made, how they were settled, the
frames that were issued for them, the frames that were written, and the responses received. -/
structure RpcClient (Value : Type) where
  nextRequestId : Nat
  pending : List PendingRequest
  writeChain : List RequestFrame
  closed : Option CloseReason
  reading : Bool
  promises : Nat
  settled : List (Nat × Settlement Value)
  issued : List (PendingRequest × RequestFrame)
  written : List RequestFrame
  responses : List (RequestId × ResponseContent Value)

/-- What can happen. -/
inductive ClientAction (Value : Type)
  | request (method : String) (params : Json)
  | write
  | writeFails
  | message (message : ClientMessage Value)
  | endOfFile
  | invalidFrame
  | close (message : String)

namespace RpcClient

variable {Value : Type}

/-- A client that has just connected. -/
def initial : RpcClient Value where
  nextRequestId := 1
  pending := []
  writeChain := []
  closed := none
  reading := true
  promises := 0
  settled := []
  issued := []
  written := []
  responses := []

/-- A promise that is rejected at once. -/
def rejectAtOnce (c : RpcClient Value) (reason : RejectReason) : RpcClient Value :=
  { c with
    promises := c.promises + 1
    settled := c.settled ++ [(c.promises, .rejected reason)] }

/-- A promise that waits, and the frame that is to be written for it. -/
def issue (c : RpcClient Value) (frame : RequestFrame) : RpcClient Value :=
  { c with
    nextRequestId := c.nextRequestId + 1
    promises := c.promises + 1
    pending := c.pending ++ [⟨c.promises, frame.id, frame.method⟩]
    issued := c.issued ++ [(⟨c.promises, frame.id, frame.method⟩, frame)]
    writeChain := c.writeChain ++ [frame] }

/-- Call a method. -/
def request (schemas : MethodSchemas Value) (c : RpcClient Value) (method : String)
    (params : Json) : RpcClient Value :=
  match c.closed with
  | some reason => c.rejectAtOnce (.closed reason)
  | none =>
      match schemas.params method params with
      | none => c.rejectAtOnce (.validation method)
      | some parsed =>
          if maxSafeInteger < c.nextRequestId then c.rejectAtOnce .exhausted
          else if schemas.encodes ⟨c.nextRequestId, method, parsed⟩ then
            c.issue ⟨c.nextRequestId, method, parsed⟩
          else { c.rejectAtOnce (.validation method) with nextRequestId := c.nextRequestId + 1 }

/-- Close the client: all promises that wait are rejected. -/
def closeInternal (c : RpcClient Value) (reason : CloseReason) : RpcClient Value :=
  match c.closed with
  | some _ => c
  | none =>
      { c with
        closed := some reason
        settled := c.settled ++ c.pending.map fun p => (p.promise, .rejected (.closed reason))
        pending := [] }

/-- The loop that reads stops at an error, which closes the client. -/
def failReading (c : RpcClient Value) (reason : CloseReason) : RpcClient Value :=
  { c.closeInternal reason with reading := false }

/-- Settle the promise of an identifier. -/
def settle (c : RpcClient Value) (pending : PendingRequest) (settlement : Settlement Value) :
    RpcClient Value :=
  { c with
    pending := c.pending.filter fun p => decide (p.id ≠ pending.id)
    settled := c.settled ++ [(pending.promise, settlement)] }

/-- The promise that waits under an identifier. -/
def waitsUnder (c : RpcClient Value) : RequestId → Option PendingRequest
  | .text _ => none
  | .number n => c.pending.find? fun p => decide ((p.id : Int) = n)

/-- Handle a message. -/
def handleMessage (schemas : MethodSchemas Value) (c : RpcClient Value) :
    ClientMessage Value → RpcClient Value
  | .event isValid => if isValid then c else c.failReading .invalidEvent
  | .invalid => c.failReading .invalidMessage
  | .response id content =>
      let c := { c with responses := c.responses ++ [(id, content)] }
      match c.waitsUnder id with
      | none => c.failReading (.unknownResponse id)
      | some pending =>
          match content with
          | .error error => c.settle pending (.rejected (.protocol error))
          | .result value =>
              match schemas.result pending.method value with
              | some parsed => c.settle pending (.resolved parsed)
              | none => c.failReading (.invalidResult pending.method)

/-- One step. -/
def step (schemas : MethodSchemas Value) (c : RpcClient Value) :
    ClientAction Value → Option (RpcClient Value)
  | .request method params => some (c.request schemas method params)
  | .write =>
      match c.writeChain with
      | frame :: rest => some { c with
          writeChain := rest
          written := if c.closed = none then c.written ++ [frame] else c.written }
      | [] => none
  | .writeFails =>
      match c.writeChain with
      | _ :: rest => some
          { (if c.closed = none then c.closeInternal .writeFailed else c) with writeChain := rest }
      | [] => none
  | .message message => if c.reading then some (c.handleMessage schemas message) else none
  | .endOfFile => if c.reading then some (c.failReading .endOfFile) else none
  | .invalidFrame => if c.reading then some (c.failReading .invalidFrame) else none
  | .close message => some (c.closeInternal (.requested message))

/-! ## What holds of promises -/

/-- How the content of a response settles the promise of a method. -/
def settlementOf (schemas : MethodSchemas Value) (method : String) :
    ResponseContent Value → Option (Settlement Value)
  | .error error => some (.rejected (.protocol error))
  | .result value => (schemas.result method value).map .resolved

/-- A settlement that needs no response. -/
def IsLocal (c : RpcClient Value) : Settlement Value → Prop
  | .resolved _ => False
  | .rejected (.validation _) => True
  | .rejected .exhausted => True
  | .rejected (.protocol _) => False
  | .rejected (.closed reason) => c.closed = some reason

/-- What holds of the promises of a client. -/
structure SettlesPromises (schemas : MethodSchemas Value) (c : RpcClient Value) : Prop where
  /-- A promise waits or is settled, once. -/
  accounted : (c.settled.map Prod.fst ++ c.pending.map PendingRequest.promise).Perm
    (List.range c.promises)
  /-- Nothing waits at a client that is closed. -/
  closed : c.closed.isSome = true → c.pending = []
  /-- A promise is settled by a response to its request, or without one. -/
  justified : ∀ promise settlement, (promise, settlement) ∈ c.settled →
    c.IsLocal settlement ∨ ∃ p frame content, (p, frame) ∈ c.issued ∧ p.promise = promise ∧
      (RequestId.number p.id, content) ∈ c.responses ∧
        settlementOf schemas p.method content = some settlement
  /-- Identifiers are used once, and in order. -/
  identifiers : (c.issued.map fun i => i.1.id).Pairwise (· < ·)
  /-- The frame of a request has its identifier and its method. -/
  frames : ∀ p frame, (p, frame) ∈ c.issued → frame.id = p.id ∧ frame.method = p.method
  /-- What was written are the first frames that were issued. -/
  written : c.written <+: c.issued.map Prod.snd

/-- What holds of the promises of a client, with what keeps it. -/
structure Sound (schemas : MethodSchemas Value) (c : RpcClient Value) : Prop
    extends SettlesPromises schemas c where
  known : ∀ i ∈ c.issued, i.1.id < c.nextRequestId
  waiting : ∀ p ∈ c.pending, p ∈ c.issued.map Prod.fst
  distinct : (c.pending.map PendingRequest.id).Nodup
  chain : c.closed = none → c.written ++ c.writeChain = c.issued.map Prod.snd
  formed : ∀ i ∈ c.issued, i.2.id ≤ maxSafeInteger ∧ i.2.method ≠ ""

variable {schemas : MethodSchemas Value} {c d : RpcClient Value}

/-- A new client is sound. -/
theorem sound_initial : (initial : RpcClient Value).Sound schemas where
  accounted := List.Perm.refl _
  closed h := by cases h
  justified _ _ h := by cases h
  identifiers := List.Pairwise.nil
  frames _ _ h := by cases h
  written := List.prefix_refl _
  known _ h := by cases h
  waiting _ h := by cases h
  distinct := List.nodup_nil
  chain _ := rfl
  formed _ h := by cases h

variable {settlement : Settlement Value} {p : PendingRequest}

private theorem IsLocal.mono (h : c.IsLocal settlement)
    (hclosed : ∀ reason, c.closed = some reason → d.closed = some reason) :
    d.IsLocal settlement := by
  cases settlement with
  | resolved value => exact h
  | rejected reason =>
    cases reason with
    | validation method => exact h
    | exhausted => exact h
    | protocol error => exact h
    | closed reason => exact hclosed reason h

private theorem SettlesPromises.justified_mono (h : c.SettlesPromises schemas)
    (hclosed : ∀ reason, c.closed = some reason → d.closed = some reason)
    (hissued : c.issued ⊆ d.issued) (hresponses : c.responses ⊆ d.responses) :
    ∀ promise settlement, (promise, settlement) ∈ c.settled →
      d.IsLocal settlement ∨ ∃ p frame content, (p, frame) ∈ d.issued ∧ p.promise = promise ∧
        (RequestId.number p.id, content) ∈ d.responses ∧
          settlementOf schemas p.method content = some settlement := by
  intro promise settlement hmem
  rcases h.justified promise settlement hmem with hlocal | ⟨p, frame, content, hp, hrest⟩
  · exact .inl (hlocal.mono hclosed)
  · obtain ⟨hpromise, hresponse, hsettlement⟩ := hrest
    exact .inr ⟨p, frame, content, hissued hp, hpromise, hresponses hresponse, hsettlement⟩

private theorem Sound.rejectAtOnce (h : c.Sound schemas) {reason : RejectReason}
    (hlocal : c.IsLocal (.rejected reason)) : (c.rejectAtOnce reason).Sound schemas :=
  { h with
    accounted := by
      change ((c.settled ++ [(c.promises, _)]).map Prod.fst ++ _).Perm
        (List.range (c.promises + 1))
      rw [List.range_succ, List.map_append, List.append_assoc]
      refine List.Perm.trans ?_ (h.accounted.append_right [c.promises])
      rw [List.append_assoc]
      exact List.perm_append_comm.append_left _
    justified := fun promise settlement hmem => by
      rcases List.mem_append.mp hmem with hmem | hmem
      · exact h.justified promise settlement hmem
      · obtain ⟨-, rfl⟩ := Prod.mk.inj (List.mem_singleton.mp hmem)
        exact .inl hlocal }

/-- A promise waits for the frame that is issued for it. -/
theorem Sound.issue (h : c.Sound schemas) {frame : RequestFrame} (hid : frame.id = c.nextRequestId)
    (hopen : c.closed = none) (hformed : frame.id ≤ maxSafeInteger ∧ frame.method ≠ "") :
    (c.issue frame).Sound schemas where
  accounted := by
    change (_ ++ (c.pending ++ [_]).map PendingRequest.promise).Perm (List.range (c.promises + 1))
    rw [List.range_succ, List.map_append, ← List.append_assoc]
    exact h.accounted.append_right [c.promises]
  closed hclosed := by
    change c.closed.isSome = true at hclosed
    rw [hopen] at hclosed
    cases hclosed
  justified := by
    refine h.toSettlesPromises.justified_mono (d := c.issue frame) (fun _ hreason => hreason) ?_
      (List.Subset.refl _)
    exact List.subset_append_left _ _
  identifiers := by
    change ((c.issued ++ [_]).map _).Pairwise (· < ·)
    rw [List.map_append, List.pairwise_append]
    refine ⟨h.identifiers, List.pairwise_singleton _ _, fun id hmem other hother => ?_⟩
    obtain ⟨i, hi, rfl⟩ := List.mem_map.mp hmem
    rw [List.mem_singleton.mp hother]
    exact hid ▸ h.known i hi
  frames p other hmem := by
    rcases List.mem_append.mp hmem with hmem | hmem
    · exact h.frames p other hmem
    · obtain ⟨rfl, rfl⟩ := Prod.mk.inj (List.mem_singleton.mp hmem)
      exact ⟨rfl, rfl⟩
  written := by
    change c.written <+: (c.issued ++ [_]).map Prod.snd
    rw [List.map_append]
    exact h.written.trans (List.prefix_append _ _)
  known i hi := by
    change i.1.id < c.nextRequestId + 1
    rcases List.mem_append.mp hi with hi | hi
    · exact Nat.lt_succ_of_lt (h.known i hi)
    · rw [List.mem_singleton.mp hi]
      exact Nat.lt_succ_of_le hid.le
  waiting p hp := by
    change p ∈ (c.issued ++ [_]).map Prod.fst
    rw [List.map_append]
    rcases List.mem_append.mp hp with hp | hp
    · exact List.mem_append_left _ (h.waiting p hp)
    · rw [List.mem_singleton.mp hp]
      exact List.mem_append_right _ List.mem_cons_self
  distinct := by
    change ((c.pending ++ [_]).map PendingRequest.id).Nodup
    rw [List.map_append]
    refine List.nodup_append.mpr ⟨h.distinct, List.pairwise_singleton _ _, ?_⟩
    intro id hmem other hother
    obtain ⟨p, hp, rfl⟩ := List.mem_map.mp hmem
    obtain ⟨i, hi, rfl⟩ := List.mem_map.mp (h.waiting p hp)
    have hlt := h.known i hi
    rw [List.mem_singleton.mp hother]
    exact fun heq => absurd (heq.trans hid) hlt.ne
  chain _ := by
    change c.written ++ (c.writeChain ++ [frame]) = (c.issued ++ [_]).map Prod.snd
    rw [← List.append_assoc, h.chain hopen, List.map_append]
    rfl
  formed i hi := by
    rcases List.mem_append.mp hi with hi | hi
    · exact h.formed i hi
    · rw [List.mem_singleton.mp hi]
      exact hformed

private theorem Sound.skip (h : c.Sound schemas) :
    Sound schemas { c with nextRequestId := c.nextRequestId + 1 } :=
  { h with known := fun i hi => Nat.lt_succ_of_lt (h.known i hi) }

private theorem Sound.closeInternal (h : c.Sound schemas) (reason : CloseReason) :
    (c.closeInternal reason).Sound schemas := by
  unfold RpcClient.closeInternal
  split
  · exact h
  · next hopen =>
    refine ⟨⟨?_, fun _ => rfl, ?_, h.identifiers, h.frames, h.written⟩, h.known, ?_,
      List.nodup_nil, ?_, h.formed⟩
    · change ((c.settled ++ _).map Prod.fst ++ []).Perm _
      rw [List.append_nil, List.map_append, List.map_map]
      exact h.accounted
    · intro promise settlement hmem
      rcases List.mem_append.mp hmem with hmem | hmem
      · rcases h.justified promise settlement hmem with hlocal | hanswered
        · refine .inl (hlocal.mono fun other hother => ?_)
          rw [hopen] at hother
          cases hother
        · exact .inr hanswered
      · obtain ⟨p, -, hpair⟩ := List.mem_map.mp hmem
        obtain ⟨-, rfl⟩ := Prod.mk.inj hpair
        exact .inl rfl
    · intro p hp
      cases hp
    · intro hclosed
      cases hclosed

private theorem Sound.stopReading (h : c.Sound schemas) : Sound schemas { c with reading := false }
    :=
  { h with }

private theorem Sound.failReading (h : c.Sound schemas) (reason : CloseReason) :
    (c.failReading reason).Sound schemas :=
  (h.closeInternal reason).stopReading

private theorem filter_pending {pending : List PendingRequest} (hp : p ∈ pending)
    (hdistinct : (pending.map PendingRequest.id).Nodup) :
    pending.Perm (p :: pending.filter fun q => decide (q.id ≠ p.id)) := by
  obtain ⟨before, after, rfl⟩ := List.append_of_mem hp
  rw [List.map_append, List.map_cons] at hdistinct
  have hfresh := (List.nodup_cons.mp (List.perm_middle.nodup_iff.mp hdistinct)).1
  rw [← List.map_append] at hfresh
  have hkeep : (before ++ after).filter (fun q => decide (q.id ≠ p.id)) = before ++ after := by
    rw [List.filter_eq_self]
    exact fun q hq => decide_eq_true fun heq => hfresh (heq ▸ List.mem_map_of_mem hq)
  have hfilter : (before ++ p :: after).filter (fun q => decide (q.id ≠ p.id)) =
      before ++ after := by
    rw [List.filter_append, List.filter_cons_of_neg (by simp), ← List.filter_append]
    exact hkeep
  rw [hfilter]
  exact List.perm_middle

private theorem Sound.settle (h : c.Sound schemas) (hp : p ∈ c.pending)
    {content : ResponseContent Value} (hresponse : (RequestId.number p.id, content) ∈ c.responses)
    (hsettlement : settlementOf schemas p.method content = some settlement) :
    (c.settle p settlement).Sound schemas := by
  have hperm := filter_pending hp h.distinct
  have hsub : (c.pending.filter fun q => decide (q.id ≠ p.id)).Sublist c.pending :=
    List.filter_sublist
  refine ⟨⟨?_, fun hclosed => ?_, ?_, h.identifiers, h.frames, h.written⟩, h.known,
    fun q hq => h.waiting q (hsub.subset hq), h.distinct.sublist (hsub.map _), h.chain,
    h.formed⟩
  · change ((c.settled ++ [(p.promise, settlement)]).map Prod.fst ++
      (c.pending.filter _).map PendingRequest.promise).Perm _
    rw [List.map_append, List.append_assoc]
    refine List.Perm.trans ?_ h.accounted
    exact (hperm.map PendingRequest.promise).symm.append_left _
  · change c.pending.filter _ = []
    rw [h.closed hclosed]
    rfl
  · intro promise other hmem
    rcases List.mem_append.mp hmem with hmem | hmem
    · exact h.justified promise other hmem
    · obtain ⟨rfl, rfl⟩ := Prod.mk.inj (List.mem_singleton.mp hmem)
      obtain ⟨⟨q, frame⟩, hissued, rfl⟩ := List.mem_map.mp (h.waiting p hp)
      exact .inr ⟨q, frame, content, hissued, rfl, hresponse, hsettlement⟩

private theorem Sound.respond (h : c.Sound schemas) (id : RequestId)
    (content : ResponseContent Value) :
    Sound schemas { c with responses := c.responses ++ [(id, content)] } :=
  { h with
    justified := h.toSettlesPromises.justified_mono
      (d := { c with responses := c.responses ++ [(id, content)] }) (fun _ hreason => hreason)
      (List.Subset.refl _) (List.subset_append_left _ _) }

private theorem waitsUnder_eq_some {id : RequestId} (h : c.waitsUnder id = some p) :
    p ∈ c.pending ∧ id = .number p.id := by
  cases id with
  | text units => cases h
  | number n =>
    have hid := List.find?_some h
    refine ⟨List.mem_of_find?_eq_some h, ?_⟩
    rw [of_decide_eq_true hid]

/-- The frames written and the responses received of a client. -/
structure Grows (c d : RpcClient Value) (responses : List (RequestId × ResponseContent Value)) :
    Prop where
  written : c.written <+: d.written
  responses : d.responses = c.responses ++ responses

private theorem Grows.same (hwritten : d.written = c.written)
    (hresponses : d.responses = c.responses) :
    Grows c d [] :=
  ⟨hwritten ▸ List.prefix_refl _, by rw [hresponses, List.append_nil]⟩

/-- The response that an action receives. -/
def answered : ClientAction Value → List (RequestId × ResponseContent Value)
  | .message (.response id content) => [(id, content)]
  | _ => []

private theorem closeInternal_frame (c : RpcClient Value) (reason : CloseReason) :
    (c.closeInternal reason).written = c.written ∧
      (c.closeInternal reason).responses = c.responses := by
  unfold RpcClient.closeInternal
  split <;> exact ⟨rfl, rfl⟩

private theorem Sound.close_step (h : c.Sound schemas) (reason : CloseReason) :
    (c.closeInternal reason).Sound schemas ∧ Grows c (c.closeInternal reason) [] := by
  obtain ⟨hwritten, hresponses⟩ := closeInternal_frame c reason
  exact ⟨h.closeInternal reason, .same hwritten hresponses⟩

private theorem Sound.fail_step (h : c.Sound schemas) (reason : CloseReason) :
    (c.failReading reason).Sound schemas ∧ Grows c (c.failReading reason) [] := by
  obtain ⟨hwritten, hresponses⟩ := closeInternal_frame c reason
  exact ⟨h.failReading reason, .same hwritten hresponses⟩

private theorem Sound.request_step (h : c.Sound schemas) (method : String) (params : Json) :
    (c.request schemas method params).Sound schemas ∧
      Grows c (c.request schemas method params) [] := by
  unfold RpcClient.request
  split
  · next reason hclosed => exact ⟨h.rejectAtOnce hclosed, .same rfl rfl⟩
  · next hopen =>
    split
    · exact ⟨h.rejectAtOnce trivial, .same rfl rfl⟩
    · next parsed hparsed =>
      split
      · exact ⟨h.rejectAtOnce trivial, .same rfl rfl⟩
      · next hroom =>
        split
        · refine ⟨h.issue rfl hopen ⟨Nat.le_of_not_lt hroom, ?_⟩, .same rfl rfl⟩
          rintro rfl
          rw [schemas.named] at hparsed
          cases hparsed
        · have hreject : (c.rejectAtOnce (.validation method)).Sound schemas :=
            h.rejectAtOnce trivial
          exact ⟨hreject.skip, .same rfl rfl⟩

private theorem Sound.response_step (h : c.Sound schemas) (id : RequestId)
    (content : ResponseContent Value) :
    (c.handleMessage schemas (.response id content)).Sound schemas ∧
      Grows c (c.handleMessage schemas (.response id content)) [(id, content)] := by
  have hrespond := h.respond id content
  have hfail : ∀ reason,
      Sound schemas
        (RpcClient.failReading { c with responses := c.responses ++ [(id, content)] } reason) ∧
      Grows c (RpcClient.failReading { c with responses := c.responses ++ [(id, content)] } reason)
        [(id, content)] := by
    intro reason
    obtain ⟨hsound, hgrows⟩ := hrespond.fail_step reason
    exact ⟨hsound, hgrows.written, hgrows.responses.trans (List.append_nil _)⟩
  unfold RpcClient.handleMessage
  dsimp only
  split
  · exact hfail _
  · next p hwaits =>
    obtain ⟨hp, rfl⟩ := waitsUnder_eq_some hwaits
    have hmem : (RequestId.number p.id, content) ∈
        c.responses ++ [(RequestId.number p.id, content)] :=
      List.mem_append_right _ List.mem_cons_self
    split
    · exact ⟨hrespond.settle hp hmem rfl, List.prefix_refl _, rfl⟩
    · next value =>
      split
      · next parsed hparsed =>
        refine ⟨hrespond.settle hp hmem ?_, List.prefix_refl _, rfl⟩
        change (schemas.result p.method value).map _ = _
        rw [hparsed]
        rfl
      · exact hfail _

/-- Every step keeps what holds of the promises, and what was written and received. -/
theorem Sound.step (h : c.Sound schemas) {a : ClientAction Value}
    (hd : c.step schemas a = some d) : d.Sound schemas ∧ Grows c d (answered a) := by
  cases a with
  | request method params =>
    cases hd
    exact h.request_step method params
  | write =>
    simp only [RpcClient.step] at hd
    split at hd <;> cases hd
    next frame rest hchain =>
    refine ⟨{ h with written := ?_, chain := fun hopen => ?_ }, ?_, (List.append_nil _).symm⟩
    · dsimp only
      split
      · next hopen =>
        rw [← h.chain hopen, hchain]
        exact ⟨rest, (List.append_cons _ _ _).symm⟩
      · exact h.written
    · have hopen' : c.closed = none := hopen
      dsimp only
      rw [if_pos hopen', ← h.chain hopen', hchain, ← List.append_cons]
    · dsimp only
      split
      · exact List.prefix_append _ _
      · exact List.prefix_refl _
  | writeFails =>
    simp only [RpcClient.step] at hd
    split at hd <;> cases hd
    next frame rest hchain =>
    split
    · next hopen =>
      obtain ⟨hclose, hgrows⟩ := h.close_step .writeFailed
      refine ⟨{ hclose with chain := fun hnone => ?_ }, hgrows.written, hgrows.responses⟩
      change (c.closeInternal .writeFailed).closed = none at hnone
      unfold RpcClient.closeInternal at hnone
      rw [hopen] at hnone
      cases hnone
    · next hclosed =>
      exact ⟨{ h with chain := fun hopen => absurd hopen hclosed }, .same rfl rfl⟩
  | message message =>
    simp only [RpcClient.step] at hd
    split at hd <;> cases hd
    cases message with
    | event isValid =>
      cases isValid with
      | true => exact ⟨h, .same rfl rfl⟩
      | false => exact h.fail_step _
    | response id content => exact h.response_step id content
    | invalid => exact h.fail_step _
  | endOfFile =>
    simp only [RpcClient.step] at hd
    split at hd <;> cases hd
    exact h.fail_step _
  | invalidFrame =>
    simp only [RpcClient.step] at hd
    split at hd <;> cases hd
    exact h.fail_step _
  | close message =>
    cases hd
    exact h.close_step _

/-- In every run the promises of a client are settled. -/
theorem run_settlesPromises
    (h : Run (step schemas) (fun _ _ => True) (initial : RpcClient Value) c) :
    c.SettlesPromises schemas := by
  have hsound : c.Sound schemas :=
    h.invariant (I := Sound schemas) sound_initial fun _ _ _ hsound _ hstep =>
      (hsound.step hstep).1
  exact hsound.toSettlesPromises

/-- Schemas that accept everything that has a name. -/
def plainSchemas : MethodSchemas Nat where
  params method params := if method = "" then none else some params
  encodes _ := true
  result _ := some
  named _ := rfl

/-- The first of two requests is answered, the other one is rejected when the client closes. -/
def settledActions : List (ClientAction Nat) :=
  [.request "thread.list" .null, .request "shutdown" .null, .write, .message (.response (.number 1)
    (.result 7)), .write, .endOfFile]

/-- One promise is answered, and the other ends with the connection. -/
theorem run_settlesPromises_closed : ∃ c : RpcClient Nat,
    c.settled = [(0, .resolved 7), (1, .rejected (.closed .endOfFile))] ∧
      c.SettlesPromises plainSchemas := by
  cases hrun : settledActions.foldlM (step plainSchemas) initial with
  | none => exact absurd hrun (by decide)
  | some c =>
    have hend : (settledActions.foldlM (step plainSchemas) initial).map settled =
        some [(0, .resolved 7), (1, .rejected (.closed .endOfFile))] := by decide
    rw [hrun] at hend
    exact ⟨c, Option.some.inj hend,
      run_settlesPromises (Run.of_actions hrun fun _ _ _ => trivial)⟩

end RpcClient

end AwesomeAgent
