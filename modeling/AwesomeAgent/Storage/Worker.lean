import AwesomeAgent.Storage.Transaction

/-!
# The SQLite worker

Callers put their operations into a bounded queue under the state lock; one worker
thread takes them out, executes them and settles their futures. The steps are those of
the lock, the queue, the semaphore and the futures, so that every interleaving of the
callers with the worker is a sequence of them.
-/

namespace AwesomeAgent.Storage

/-- The states of the worker. -/
inductive WorkerState
  | opened
  | closing
  | closed
  | failed
  deriving DecidableEq, Repr

/-- What the queue holds: the admitted operations by number and the close sentinel. -/
inductive QueueItem
  | work (item : Nat)
  | close
  deriving DecidableEq, Repr

/-- What a future is settled with. -/
abbrev Report := Except ApplicationError Value

/-- What a failed execution reports: after a fatal one the worker is unavailable. -/
def report : Except Failure Value → Report
  | .ok value => .ok value
  | .error failure => .error (if failure.fatal then .unavailable else failure.error)

/-- Where the worker thread is. From `closing` on it knows whether it took the close sentinel
and whether an error ended its loop. -/
inductive WorkerPoint
  | waiting
  | taken (item : Nat)
  | executing (item : Nat)
  | executed (item : Nat) (result : Except Failure Value)
  | closing (close failed : Bool)
  | publishing (close failed : Bool)
  | answering (close failed : Bool)
  | draining
  | drained (item : Nat)
  | releasing (item : Nat)
  | drainedClose
  | ended

/-- How a call ends. -/
inductive CallOutcome
  | returned (value : Value)
  | raised (error : ApplicationError)
  | cancelled

/-- A call of the event loop: it awaits a future, or it has ended. -/
inductive Call
  | waiting (target : QueueItem) (cancelled : Bool)
  | finished (target : Option QueueItem) (outcome : CallOutcome)

/-- The worker with its callers, and what it has done so far: the operations it has started,
those that committed, the contents before and after each, the settled futures and the
permits given back. -/
structure ApplicationSQLite (δ : Type) where
  home : Nat
  queueCapacity : Nat
  state : WorkerState
  capacity : Nat
  queue : List QueueItem
  items : List (Operation δ)
  futures : List (Option Report)
  closeFuture : Option (Option Report)
  point : WorkerPoint
  database : Database δ
  calls : List Call
  started : List Nat
  commits : List Nat
  contents : List δ
  settlements : List (Nat × Report)
  releases : List Nat

/-- The steps of the callers and of the worker thread. -/
inductive WorkerAction (δ : Type)
  | submit (operation : Operation δ)
  | aclose
  | cancel (call : Nat)
  | resume (call : Nat)
  | work (faults : Faults δ)

/-- Is this a step of the worker thread? -/
def WorkerAction.isWork {δ : Type} : WorkerAction δ → Bool
  | .work _ => true
  | _ => false

namespace ApplicationSQLite

variable {δ : Type}

/-- A worker whose thread has started; the queue must admit at least one operation. -/
def create (home queueCapacity : Nat) (contents : δ) : Option (ApplicationSQLite δ) :=
  if queueCapacity < 1 then none
  else some {
    home := home
    queueCapacity := queueCapacity
    state := .opened
    capacity := queueCapacity
    queue := []
    items := []
    futures := []
    closeFuture := none
    point := .waiting
    database := ⟨contents, none⟩
    calls := []
    started := []
    commits := []
    contents := [contents]
    settlements := []
    releases := [] }

/-- A call that ends at once. -/
def answer (s : ApplicationSQLite δ) (outcome : CallOutcome) : ApplicationSQLite δ :=
  { s with calls := s.calls ++ [.finished none outcome] }

/-- A call that waits for a future. -/
def await (s : ApplicationSQLite δ) (target : QueueItem) : ApplicationSQLite δ :=
  { s with calls := s.calls ++ [.waiting target false] }

/-- Put an operation into the queue, with a permit of its own. -/
def enqueue (s : ApplicationSQLite δ) (operation : Operation δ) : ApplicationSQLite δ :=
  { s with
    capacity := s.capacity - 1
    queue := s.queue ++ [.work s.items.length]
    items := s.items ++ [operation]
    futures := s.futures ++ [none] }

/-- Hand an operation to the worker, under the state lock. -/
def submit (s : ApplicationSQLite δ) (operation : Operation δ) : ApplicationSQLite δ :=
  match operation.refusal s.home with
  | some error => s.answer (.raised error)
  | none =>
    if s.state = .failed then s.answer (.raised .unavailable)
    else if s.state ≠ .opened then s.answer (.raised .closed)
    else if s.capacity = 0 then s.answer (.raised .busy)
    else if s.queueCapacity + 1 ≤ s.queue.length then s.answer (.raised .full)
    else (s.enqueue operation).await (.work s.items.length)

/-- Close the worker: the first call leaves the sentinel, later ones await the same future. -/
def aclose (s : ApplicationSQLite δ) : ApplicationSQLite δ :=
  if s.closeFuture.isSome then s.await .close
  else match s.state with
    | .opened =>
      if s.queueCapacity + 1 ≤ s.queue.length then
        answer { s with closeFuture := some none, state := .closing } (.raised .full)
      else
        await { s with
          closeFuture := some none
          state := .closing
          queue := s.queue ++ [.close] } .close
    | .closing => await { s with closeFuture := some (some (.error .unavailable)) } .close
    | .closed | .failed => s.answer (.returned (.scalar 0))

/-- Settle the future of an operation unless it is done. -/
def settle (s : ApplicationSQLite δ) (i : Nat) (r : Report) : ApplicationSQLite δ :=
  match s.futures[i]? with
  | some none =>
    { s with
      futures := s.futures.set i (some r)
      settlements := s.settlements ++ [(i, r)] }
  | _ => s

/-- Settle the close future unless it is done. -/
def settleClose (s : ApplicationSQLite δ) (r : Report) : ApplicationSQLite δ :=
  match s.closeFuture with
  | some none => { s with closeFuture := some (some r) }
  | _ => s

/-- Give a permit back and go on; the semaphore refuses one permit too many. -/
def release (s : ApplicationSQLite δ) (i : Nat) (next refused : WorkerPoint) :
    ApplicationSQLite δ :=
  if s.capacity < s.queueCapacity then
    { s with capacity := s.capacity + 1, releases := s.releases ++ [i], point := next }
  else { s with point := refused }

/-- Go on at a point. -/
def goto (s : ApplicationSQLite δ) (point : WorkerPoint) : ApplicationSQLite δ :=
  { s with point := point }

/-- Take the next item from the queue, if there is one. -/
def take (s : ApplicationSQLite δ) (work : Nat → WorkerPoint) (close : WorkerPoint) :
    Option (ApplicationSQLite δ) :=
  match s.queue with
  | [] => none
  | .work i :: rest => some { s with queue := rest, point := work i }
  | .close :: rest => some { s with queue := rest, point := close }

/-- Execute an operation. -/
def execute (s : ApplicationSQLite δ) (faults : Faults δ) (i : Nat) (operation : Operation δ) :
    ApplicationSQLite δ :=
  { s with
    database := (operation.run faults s.database).database
    started := s.started ++ [i]
    commits := if (operation.run faults s.database).committed then s.commits ++ [i] else s.commits
    contents := s.contents ++ [(operation.run faults s.database).database.contents]
    point := .executed i (operation.run faults s.database).result }

/-- The point after an execution: a fatal error ends the loop. -/
def afterExecution : Except Failure Value → WorkerPoint
  | .ok _ => .waiting
  | .error failure => if failure.fatal then .closing false true else .waiting

/-- The next step of the worker thread. -/
def work (s : ApplicationSQLite δ) (faults : Faults δ) : Option (ApplicationSQLite δ) :=
  match s.point with
  | .waiting => s.take .taken (.closing true false)
  | .taken i => some (s.release i (.executing i) (.closing false true))
  | .executing i => s.items[i]?.map (s.execute faults i)
  | .executed i result => some ((s.settle i (report result)).goto (afterExecution result))
  | .closing close failed =>
    match (s.database.closeConnectionOnWorker faults).result with
    | .ok _ => some { s with
        database := (s.database.closeConnectionOnWorker faults).database
        point := .publishing close failed }
    | .error _ => some { s with
        database := (s.database.closeConnectionOnWorker faults).database
        point := .publishing close true }
  | .publishing close failed => some { s with
      state := if failed then .failed else .closed
      point := .answering close failed }
  | .answering close failed =>
    if failed then
      some ((if close then s.settleClose (.error .unavailable) else s).goto .draining)
    else some ((if close then s.settleClose (.ok (.scalar 0)) else s).goto .ended)
  | .draining => some ((s.take .drained .drainedClose).getD (s.goto .ended))
  | .drained i => some ((s.settle i (.error .unavailable)).goto (.releasing i))
  | .releasing i => some (s.release i .draining .ended)
  | .drainedClose => some ((s.settleClose (.error .unavailable)).goto .draining)
  | .ended => none

/-- The report of an awaited future once it is done. -/
def reportOf (s : ApplicationSQLite δ) : QueueItem → Option Report
  | .work i => s.futures[i]?.join
  | .close => s.closeFuture.join

/-- Does a call for this item wait for the outcome even when it is cancelled? -/
def awaitsOutcome (s : ApplicationSQLite δ) : QueueItem → Bool
  | .work i => s.items[i]?.any Operation.durable
  | .close => true

/-- Cancel a call: one that awaits the outcome only remembers it. -/
def cancel (s : ApplicationSQLite δ) (c : Nat) : Option (ApplicationSQLite δ) :=
  match s.calls[c]? with
  | some (.waiting target _) =>
    if s.awaitsOutcome target then some { s with calls := s.calls.set c (.waiting target true) }
    else some { s with calls := s.calls.set c (.finished (some target) .cancelled) }
  | _ => none

/-- How a call ends that sees an error: closing a failed worker is no error. -/
def raisedBy (s : ApplicationSQLite δ) (target : QueueItem) (error : ApplicationError) :
    CallOutcome :=
  if target = .close ∧ error = .unavailable ∧ s.state = .failed then .returned (.scalar 0)
  else .raised error

/-- What a call does when its future is done. A call that awaits the outcome takes a reported
cancellation for one of its own and awaits the future again. -/
def woken (s : ApplicationSQLite δ) (target : QueueItem) (cancelled : Bool) : Report → Call
  | .ok value => .finished target (if cancelled then .cancelled else .returned value)
  | .error error =>
    if s.awaitsOutcome target ∧ error = .cancelled then .waiting target true
    else .finished target (if cancelled then .cancelled else s.raisedBy target error)

/-- Let a call go on whose future is done. -/
def resume (s : ApplicationSQLite δ) (c : Nat) : Option (ApplicationSQLite δ) :=
  match s.calls[c]? with
  | some (.waiting target cancelled) =>
    (s.reportOf target).map fun r => { s with calls := s.calls.set c (s.woken target cancelled r) }
  | _ => none

/-- One step of a caller or of the worker thread. -/
def step (s : ApplicationSQLite δ) : WorkerAction δ → Option (ApplicationSQLite δ)
  | .submit operation => some (s.submit operation)
  | .aclose => some s.aclose
  | .cancel c => s.cancel c
  | .resume c => s.resume c
  | .work faults => s.work faults

end ApplicationSQLite

end AwesomeAgent.Storage
