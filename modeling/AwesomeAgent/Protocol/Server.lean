import AwesomeAgent.Library.Runs
import AwesomeAgent.Protocol.JsonRpc

/-!
# The server of the standard streams

One loop reads frames. It answers some of them itself, runs urgent requests in line and starts the
others in the background, where they proceed in any order. Every answer waits for the writer.
-/

namespace AwesomeAgent

variable {Payload : Type}

/-! ## Identifiers in use -/

/-- Most identifiers of ended requests that are remembered. -/
def maxRecentRequestIds : Nat := 4096

/-- The identifiers in use, and those of the requests that ended last. -/
structure RequestIdTracker where
  active : List RequestId
  recent : List RequestId
  deriving DecidableEq

namespace RequestIdTracker

/-- Take an identifier in use, unless it is in use or was until recently. -/
def accept (tracker : RequestIdTracker) :
    Option RequestId → Option RequestId × RequestIdTracker
  | none => (none, tracker)
  | some id =>
      if tracker.active.contains id || tracker.recent.contains id then (some id, tracker)
      else (none, { tracker with active := tracker.active ++ [id] })

/-- Remember an identifier and forget the oldest ones. -/
def remember (recent : List RequestId) (id : RequestId) : List RequestId :=
  let recent := if recent.contains id then recent else recent ++ [id]
  recent.drop (recent.length - maxRecentRequestIds)

/-- An identifier is no longer in use. -/
def complete (tracker : RequestIdTracker) : Option RequestId → RequestIdTracker
  | none => tracker
  | some id =>
      if tracker.active.contains id then ⟨tracker.active.erase id, remember tracker.recent id⟩
      else tracker

end RequestIdTracker

/-! ## Jobs -/

/-- Who answers: the loop itself, the loop by a dispatch, or a task in the background. -/
inductive Lane
  | reply
  | urgent
  | control
  | ordinary
  deriving DecidableEq

/-- How a job ends. -/
inductive JobEnd (Payload : Type)
  | done (response : Option (Response Payload))
  | failed
  | cancelled
  deriving DecidableEq

/-- How far a job is. A response that is being flushed is in the output. -/
inductive JobPhase (Payload : Type)
  | handling
  | sending (response : Response Payload)
  | flushing (response : Response Payload)
  | finished (outcome : JobEnd Payload)
  deriving DecidableEq

/-- A job: the number of its value, the identifier that it completes, and how far it is. -/
structure Job (Payload : Type) where
  lane : Lane
  serial : Option Nat
  value : Json
  completes : Option RequestId
  phase : JobPhase Payload
  cancelling : Bool

/-- What happens to a job. -/
inductive JobEvent (Payload : Type)
  | handled (outcome : HandlerOutcome Payload)
  | raised
  | put
  | refused
  | flushed
  | unflushed

/-- Why a request stays without an answer. -/
inductive Loss
  | failed
  | interrupted
  | raised
  deriving DecidableEq

/-- The response that is sent, which replaces one that is no frame. -/
def Wire.framed (wire : Wire Payload) (id : Option RequestId) (response : Response Payload) :
    Option (Response Payload) :=
  match wire.refusal response with
  | none => some response
  | some .frameTooLarge => some ⟨id, .resultTooLarge⟩
      |>.filter fun r => decide (wire.refusal r = none)
  | some .frameInvalid => some ⟨id, .invalidResult⟩
      |>.filter fun r => decide (wire.refusal r = none)

/-- The phase after a dispatch. -/
def Wire.afterDispatch (wire : Wire Payload) (id : Option RequestId) :
    Dispatched Payload → JobPhase Payload
  | .unserializable => .finished .failed
  | .response none => .finished (.done none)
  | .response (some response) =>
      match wire.framed id response with
      | some framed => .sending framed
      | none => .finished .failed

namespace Job

/-- A job with another phase. -/
def goto (job : Job Payload) (phase : JobPhase Payload) : Job Payload := { job with phase := phase }

/-- A job is over. -/
def isFinished (job : Job Payload) : Bool :=
  match job.phase with
  | .finished _ => true
  | _ => false

/-- A job after an event, and what it puts into the output. -/
def step (wire : Wire Payload) (job : Job Payload) (event : JobEvent Payload) :
    Option (Job Payload × Option (Response Payload)) :=
  match event, job.phase with
  | .handled outcome, .handling =>
      some (job.goto (wire.afterDispatch (requestIdOf wire job.value)
        (dispatch wire job.value outcome)), none)
  | .raised, .handling => some (job.goto (.finished .cancelled), none)
  | .raised, .sending _ =>
      if job.cancelling then some (job.goto (.finished .cancelled), none) else none
  | .raised, .flushing _ =>
      if job.cancelling then some (job.goto (.finished .cancelled), none) else none
  | .put, .sending response => some (job.goto (.flushing response), some response)
  | .refused, .sending _ => some (job.goto (.finished .failed), none)
  | .flushed, .flushing response => some (job.goto (.finished (.done (some response))), none)
  | .unflushed, .flushing _ => some (job.goto (.finished .failed), none)
  | _, _ => none

/-- The identifier that a job completes when it is over. The loop completes the identifier of its
own reply after the reply is sent. -/
def released (job : Job Payload) : Option RequestId :=
  match job.lane, job.phase with
  | .reply, .finished (.done _) => job.completes
  | .reply, _ => none
  | _, .finished _ => job.completes
  | _, _ => none

/-- The request that a job leaves without an answer. -/
def losses (job : Job Payload) : List (Nat × Loss) :=
  match job.phase with
  | .finished .failed => job.serial.toList.map fun n => (n, .failed)
  | .finished .cancelled =>
      job.serial.toList.map fun n => (n, if job.cancelling then .interrupted else .raised)
  | _ => []

/-- Ask a job to stop. -/
def cancel (job : Job Payload) : Job Payload :=
  { job with cancelling := job.cancelling || !job.isFinished }

end Job

/-! ## The server -/

/-- The most background requests of a lane. -/
def Lane.maximum : Lane → Nat
  | .control => 16
  | _ => 128

/-- Where the loop is. -/
inductive MainPhase (Payload : Type)
  | reading
  | replying (job : Job Payload)
  | draining (job : Job Payload)
  | urgent (job : Job Payload)
  | ending
  | ended

/-- What has happened: the values received, the output, the requests left without an answer, and
whether background requests were cancelled. -/
structure ServerLog (Payload : Type) where
  received : List Json
  output : List (Option Nat × Response Payload)
  lost : List (Nat × Loss)
  interrupted : Bool

/-- The server. -/
structure Server (Payload : Type) where
  main : MainPhase Payload
  tracker : RequestIdTracker
  tasks : List (Job Payload)
  requestFailed : Bool
  shutdownInvoked : Bool
  log : ServerLog Payload

/-- What is read. -/
inductive Frame
  | unreadable
  | blank
  | value (value : Json)

/-- What can happen. -/
inductive ServerAction (Payload : Type)
  | receive (frame : Frame) (rejection : Option BootstrapRejection)
  | endOfInput
  | notice
  | loop (event : JobEvent Payload)
  | task (i : Nat) (event : JobEvent Payload)
  | discard (i : Nat)
  | drained
  | closed

namespace Server

/-- A server that has not read anything. -/
def initial : Server Payload where
  main := .reading
  tracker := ⟨[], []⟩
  tasks := []
  requestFailed := false
  shutdownInvoked := false
  log := ⟨[], [], [], false⟩

/-- Cancel what runs in the background. -/
def cancelBackgroundRequests (s : Server Payload) : Server Payload :=
  { s with
    tasks := s.tasks.map Job.cancel
    log := { s.log with interrupted := true } }

/-- Leave the loop. -/
def leave (s : Server Payload) : Server Payload :=
  { s.cancelBackgroundRequests with main := .ending }

/-- The loop answers by itself. -/
def reply (s : Server Payload) (wire : Wire Payload) (serial : Option Nat) (value : Json)
    (completes : Option RequestId) (response : Response Payload) : Server Payload :=
  if wire.refusal response = none then
    { s with main := .replying ⟨.reply, serial, value, completes, .sending response, false⟩ }
  else
    { s with log := { s.log with
        lost := s.log.lost ++ serial.toList.map fun n => (n, Loss.failed) } }.leave

/-- The methods that are dispatched in line. -/
def urgentControlMethods : List String := ["operation.cancel", "shutdown"]

/-- The methods with a lane of their own. -/
def backgroundControlMethods : List String := ["initialize", "interaction.respond"]

/-- The lane of a value. -/
def laneOf (value : Json) : Lane :=
  if (methodOf value).any (isMethodOf urgentControlMethods) then .urgent
  else if (methodOf value).any (isMethodOf backgroundControlMethods) then .control
  else .ordinary

/-- The job that dispatches a value. -/
def dispatchJob (wire : Wire Payload) (serial : Nat) (value : Json) : Job Payload :=
  ⟨laneOf value, some serial, value, requestIdOf wire value, .handling, false⟩

/-- The background requests of a lane. -/
def pending (s : Server Payload) (lane : Lane) : Nat :=
  s.tasks.countP fun task => decide (task.lane = lane)

/-- Dispatch a value whose identifier was accepted. -/
def dispatchValue (s : Server Payload) (wire : Wire Payload) (serial : Nat) (value : Json) :
    Server Payload :=
  if laneOf value = .urgent then
    if validShutdownRequest wire value then
      { s.cancelBackgroundRequests with main := .draining (dispatchJob wire serial value) }
    else { s with main := .urgent (dispatchJob wire serial value) }
  else if (laneOf value).maximum ≤ s.pending (laneOf value) then
    if (requestIdOf wire value).isSome then
      s.reply wire (some serial) value (requestIdOf wire value)
        (jsonrpcError (requestIdOf wire value) serverBusy none)
    else s
  else { s with tasks := s.tasks ++ [dispatchJob wire serial value] }

/-- The error of a rejection. -/
def rejectionError (rejection : BootstrapRejection) : JsonRpcError := ⟨-32002, rejection.message⟩

/-- A value is received. -/
def received (s : Server Payload) (value : Json) : Server Payload :=
  { s with log := { s.log with received := s.log.received ++ [value] } }

/-- Keep track of the identifiers in use. -/
def tracking (s : Server Payload) (tracker : RequestIdTracker) : Server Payload :=
  { s with tracker := tracker }

/-- Receive a value: a repeated identifier is refused, a request that the application does not
admit yet is rejected, and others are dispatched. -/
def receiveValue (s : Server Payload) (wire : Wire Payload) (value : Json)
    (rejection : Option BootstrapRejection) : Server Payload :=
  let serial := s.log.received.length
  match s.tracker.accept (requestIdOf wire value) with
  | (some repeated, _) =>
      (s.received value).reply wire (some serial) value none
        (jsonrpcError (some repeated) invalidRequest none)
  | (none, tracker) =>
      match parseJsonrpcRequest wire value, rejection with
      | some request, some rejection =>
          if request.hasId then
            ((s.received value).tracking tracker).reply wire (some serial) value
              (requestIdOf wire value) (jsonrpcError request.id (rejectionError rejection)
                (some rejection.diagnosticCode))
          else (s.received value).tracking (tracker.complete (requestIdOf wire value))
      | _, _ => ((s.received value).tracking tracker).dispatchValue wire serial value

/-- Take note of a job that moved. -/
def note (s : Server Payload) (job : Job Payload) (output : Option (Response Payload)) :
    Server Payload :=
  { s with
    tracker := s.tracker.complete job.released
    log := { s.log with
      output := s.log.output ++ output.toList.map fun response => (job.serial, response)
      lost := s.log.lost ++ job.losses } }

/-- A handler that completed has shut the application down. -/
def noteShutdown (s : Server Payload) (wire : Wire Payload) (job : Job Payload)
    (event : JobEvent Payload) : Server Payload :=
  match event with
  | .handled outcome =>
      { s with shutdownInvoked := s.shutdownInvoked ||
          (methodCompleted wire job.value outcome).any (isMethodOf ["shutdown"]) }
  | _ => s

/-- The loop goes on after its job moved. -/
def proceed (s : Server Payload) (wire : Wire Payload) (job : Job Payload) : Server Payload :=
  match job.phase with
  | .finished (.done response) =>
      if job.lane = .reply then { s with main := .reading }
      else if shutdownCompleted wire job.value response then s.leave
      else { s with main := .reading }
  | .finished _ => s.leave
  | _ => { s with main := if job.lane = .reply then .replying job else .urgent job }

/-- The job of the loop that moves. -/
def current (s : Server Payload) : Option (Job Payload) :=
  match s.main with
  | .replying job => some job
  | .urgent job => some job
  | _ => none

/-- One step. A line that was read as a failure came in is still received. -/
def step (wire : Wire Payload) (s : Server Payload) : ServerAction Payload → Option (Server Payload)
  | .receive frame rejection =>
      match s.main, frame with
      | .reading, .unreadable =>
          some (s.reply wire none .null none (jsonrpcError none parseError none))
      | .reading, .blank => some s
      | .reading, .value value => some (s.receiveValue wire value rejection)
      | _, _ => none
  | .endOfInput =>
      match s.main with
      | .reading => some s.leave
      | _ => none
  | .notice =>
      match s.main with
      | .reading => if s.requestFailed then some s.leave else none
      | _ => none
  | .loop event =>
      match s.current with
      | some job =>
          (job.step wire event).map fun moved =>
            ((s.noteShutdown wire job event).note moved.1 moved.2).proceed wire moved.1
      | none => none
  | .task i event =>
      match s.tasks[i]? with
      | some job =>
          (job.step wire event).map fun moved =>
            { (s.noteShutdown wire job event).note moved.1 moved.2 with
              tasks := s.tasks.set i moved.1 }
      | none => none
  | .discard i =>
      match s.tasks[i]? with
      | some job =>
          match job.phase with
          | .finished outcome => some { s with
              tasks := s.tasks.eraseIdx i
              requestFailed := s.requestFailed || match outcome with
                | .failed => true
                | _ => false }
          | _ => none
      | none => none
  | .drained =>
      match s.main with
      | .draining job =>
          if s.tasks.all Job.isFinished then
            some { s with main := .urgent job }
          else none
      | _ => none
  | .closed =>
      match s.main with
      | .ending =>
          if s.tasks.all Job.isFinished then some { s with main := .ended, shutdownInvoked := true }
          else none
      | _ => none

end Server

end AwesomeAgent
