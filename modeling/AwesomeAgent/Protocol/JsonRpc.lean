import AwesomeAgent.Application.Bootstrap
import AwesomeAgent.Protocol.Ndjson

/-!
# JSON-RPC requests

The core reads a request out of a JSON value, dispatches it to the method that it names and makes
the response. What a method does is the choice of its handler.
-/

namespace AwesomeAgent

/-- The identifier of a request. -/
inductive RequestId
  | text (units : List UInt16)
  | number (n : Int)
  deriving DecidableEq

/-- A response: the identifier of its request and what it says. -/
inductive ResponseBody (Payload : Type)
  | error (error : JsonRpcError) (diagnosticCode : Option String)
  | result (value : Payload)
  | resultTooLarge
  | invalidResult
  deriving DecidableEq

/-- A response. -/
structure Response (Payload : Type) where
  id : Option RequestId
  body : ResponseBody Payload
  deriving DecidableEq

/-- What the runtime makes of numerals and of results. -/
structure Wire (Payload : Type) where
  /-- The safe integer that a numeral reads as. -/
  safeInteger : Numeral → Option Int
  /-- Why a response is no frame. -/
  refusal : Response Payload → Option FrameError
  /-- A result reports success. -/
  isOk : Payload → Bool

/-- A request that is well formed. -/
structure JsonRpcRequest where
  id : Option RequestId
  hasId : Bool
  method : List UInt16
  params : Json

namespace Json

/-- The members of an object. -/
def members? : Json → Option (List (List UInt16 × Json))
  | .object members => some members
  | _ => none

/-- The value of a member. -/
def member (members : List (List UInt16 × Json)) (name : String) : Option Json :=
  (members.find? fun m => decide (m.1 = name.toList.flatMap JsonText.unitsOf)).map Prod.snd

/-- A value is the string of a name. -/
def isText (name : String) : Json → Bool
  | .string units => decide (units = name.toList.flatMap JsonText.unitsOf)
  | _ => false

end Json

variable {Payload : Type}

/-- Most code points of an identifier. -/
def maxRequestIdLength : Nat := 128

/-- The identifier that a value is. -/
def normalizeJsonrpcRequestId (wire : Wire Payload) : Json → Option RequestId
  | .string units =>
      let length := (units.filter fun u => !JsonText.isLow u).length
      if validUnicode units = true ∧ 1 ≤ length ∧ length ≤ maxRequestIdLength then
        some (.text units)
      else none
  | .number n => (wire.safeInteger n).map .number
  | _ => none

/-- The identifier of a value, even if it is not well formed otherwise. -/
def requestIdOf (wire : Wire Payload) (value : Json) : Option RequestId :=
  (value.members?.bind fun members => Json.member members "id").bind
    (normalizeJsonrpcRequestId wire)

/-- The members that a request may have. -/
def requestMembers : List String := ["jsonrpc", "id", "method", "params"]

/-- The request that a value is. -/
def parseJsonrpcRequest (wire : Wire Payload) (value : Json) : Option JsonRpcRequest :=
  match value with
  | .object members =>
      if members.any (fun m =>
          !requestMembers.any fun name => decide (m.1 = name.toList.flatMap JsonText.unitsOf)) then
        none
      else if ((Json.member members "jsonrpc").any (Json.isText "2.0")) = false then none
      else match Json.member members "method" with
        | some (.string (first :: rest)) =>
            if (Json.member members "id").isSome = true ∧
                requestIdOf wire (.object members) = none then
              none
            else some
              { id := requestIdOf wire (.object members)
                hasId := (Json.member members "id").isSome
                method := first :: rest
                params := (Json.member members "params").getD (.object []) }
        | _ => none
  | _ => none

/-- The method of a value, even if it is not well formed otherwise. -/
def methodOf (value : Json) : Option (List UInt16) :=
  match value.members?.bind fun members => Json.member members "method" with
  | some (.string units) => some units
  | _ => none

/-- The methods of the dispatcher. -/
def dispatcherMethods : List String :=
  ["initialize", "skill.list", "skill.install", "skill.remove", "application.getState",
    "thread.list", "thread.search", "thread.read", "turn.submit", "direct.execute",
    "command.execute", "provider.credential.set", "interaction.respond", "operation.cancel",
    "shutdown"]

/-- A name in a list of methods. -/
def isMethodOf (names : List String) (method : List UInt16) : Bool :=
  names.any fun name => decide (method = name.toList.flatMap JsonText.unitsOf)

/-- What a handler does. -/
inductive HandlerOutcome (Payload : Type)
  | invalid
  | failed
  | completed (value : Option Payload)
  deriving DecidableEq

def invalidRequest : JsonRpcError := ⟨-32600, "Invalid Request"⟩

def methodNotFound : JsonRpcError := ⟨-32601, "Method not found"⟩

def invalidParams : JsonRpcError := ⟨-32602, "Invalid params"⟩

def internalError : JsonRpcError := ⟨-32603, "Internal error"⟩

def serverBusy : JsonRpcError := ⟨-32000, "Server busy"⟩

/-- The response of an error. -/
def jsonrpcError (id : Option RequestId) (error : JsonRpcError) (diagnosticCode : Option String) :
    Response Payload := ⟨id, .error error diagnosticCode⟩

/-- The end of a dispatch: a response or none, or a result that cannot be serialised. -/
inductive Dispatched (Payload : Type)
  | response (response : Option (Response Payload))
  | unserializable
  deriving DecidableEq

/-- A response, if the request has an identifier. -/
def JsonRpcRequest.respond (request : JsonRpcRequest) (body : ResponseBody Payload) :
    Dispatched Payload :=
  .response (if request.hasId then some ⟨request.id, body⟩ else none)

/-- A request names a method that has a handler, and its parameters are an object. -/
def JsonRpcRequest.isHandled (request : JsonRpcRequest) : Bool :=
  isMethodOf dispatcherMethods request.method && request.params.members?.isSome

/-- Dispatch a value whose handler does something. -/
def dispatch (wire : Wire Payload) (value : Json) (outcome : HandlerOutcome Payload) :
    Dispatched Payload :=
  match parseJsonrpcRequest wire value with
  | none => .response (some (jsonrpcError none invalidRequest none))
  | some request =>
      if isMethodOf dispatcherMethods request.method = false then
        request.respond (.error methodNotFound none)
      else if request.params.members?.isSome = false then
        request.respond (.error invalidParams none)
      else match outcome with
        | .invalid => request.respond (.error invalidParams none)
        | .failed => request.respond (.error internalError (some "core_request_failed"))
        | .completed (some value) => request.respond (.result value)
        | .completed none => if request.hasId then .unserializable else .response none

/-- A handler that completes reports its method. -/
def methodCompleted (wire : Wire Payload) (value : Json) (outcome : HandlerOutcome Payload) :
    Option (List UInt16) :=
  match parseJsonrpcRequest wire value, outcome with
  | some request, .completed _ => if request.isHandled then some request.method else none
  | _, _ => none

/-- A value asks for a shutdown. -/
def validShutdownRequest (wire : Wire Payload) (value : Json) : Bool :=
  (parseJsonrpcRequest wire value).any fun request =>
    isMethodOf ["shutdown"] request.method && request.params.members?.any List.isEmpty

/-- A shutdown is complete. -/
def shutdownCompleted (wire : Wire Payload) (value : Json) (response : Option (Response Payload)) :
    Bool :=
  validShutdownRequest wire value &&
    (!(parseJsonrpcRequest wire value).any JsonRpcRequest.hasId ||
      response.any fun r => match r.body with
        | .result payload => wire.isOk payload
        | _ => false)

/-! ## Responses name their requests -/

variable {request : JsonRpcRequest}

/-- The identifier of a request is the identifier of its value. -/
theorem id_of_parse {wire : Wire Payload} {value : Json}
    (h : parseJsonrpcRequest wire value = some request) :
    request.id = requestIdOf wire value ∧ request.hasId = request.id.isSome := by
  unfold parseJsonrpcRequest at h
  split at h
  · next members =>
    split at h
    · cases h
    · split at h
      · cases h
      · split at h
        · split at h
          · cases h
          · next hid =>
            cases h
            refine ⟨rfl, ?_⟩
            dsimp only
            cases hmember : Json.member members "id" with
            | none =>
              unfold requestIdOf Json.members?
              rw [Option.bind_some, hmember]
              rfl
            | some member =>
              rw [hmember, not_and] at hid
              exact (Option.isSome_iff_ne_none.mpr (hid rfl)).symm
        · cases h
  · cases h

/-- A dispatch answers requests with an identifier, with it, and no notification. -/
theorem dispatch_response {wire : Wire Payload} {value : Json} {outcome : HandlerOutcome Payload}
    (h : parseJsonrpcRequest wire value = some request)
    {response : Option (Response Payload)} (hdispatch : dispatch wire value outcome =
      .response response) :
    response.isSome = request.hasId ∧ ∀ r ∈ response, r.id = request.id := by
  have hrespond : ∀ body : ResponseBody Payload, request.respond body = .response response →
      response.isSome = request.hasId ∧ ∀ r ∈ response, r.id = request.id := by
    intro body hbody
    unfold JsonRpcRequest.respond at hbody
    injection hbody with hbody
    subst hbody
    cases request.hasId with
    | true =>
      refine ⟨rfl, fun r hr => ?_⟩
      cases hr
      rfl
    | false => exact ⟨rfl, fun r hr => by cases hr⟩
  unfold dispatch at hdispatch
  rw [h] at hdispatch
  dsimp only at hdispatch
  split at hdispatch
  · exact hrespond _ hdispatch
  · split at hdispatch
    · exact hrespond _ hdispatch
    · split at hdispatch
      · exact hrespond _ hdispatch
      · exact hrespond _ hdispatch
      · exact hrespond _ hdispatch
      · split at hdispatch
        · cases hdispatch
        · next hid =>
          cases hdispatch
          rw [Bool.not_eq_true] at hid
          rw [hid]
          exact ⟨rfl, fun r hr => by cases hr⟩

end AwesomeAgent
