import Mathlib.Data.List.Basic

/-!
# Transactions of the Application database

The worker thread owns the connection. An operation runs in a transaction of its own
and its value is published after the commit; the worker goes on only if it can tell
what became of the transaction.
-/

namespace AwesomeAgent.Storage

/-- What an operation returns. A container lists its items, a mapping its keys and values. -/
inductive Value
  | sqliteOwned
  | container (items : List Value)
  | scalar (value : Nat)
  deriving Repr

mutual

/-- Does a value hold a connection, a cursor or a row? -/
def Value.containsSQLiteOwned : Value → Bool
  | .sqliteOwned => true
  | .container items => Value.anySQLiteOwned items
  | .scalar _ => false

/-- Does an item hold a connection, a cursor or a row? -/
def Value.anySQLiteOwned : List Value → Bool
  | [] => false
  | value :: rest => value.containsSQLiteOwned || Value.anySQLiteOwned rest

end

example : (Value.container [.scalar 1, .container [.sqliteOwned]]).containsSQLiteOwned = true := rfl

/-- The exceptions of the Application database and of the operations it runs. -/
inductive ApplicationError
  | raised (code : Nat)
  | cancelled
  | sqlite
  | storage
  | resultOwned
  | unavailable
  | closed
  | busy
  | full
  | leaseRequired
  | foreignLease
  deriving DecidableEq, Repr

/-- An exception; after a fatal one the outcome of the transaction is unknown. -/
structure Failure where
  error : ApplicationError
  fatal : Bool
  deriving DecidableEq, Repr

/-- An owned connection: no transaction is open, or one holds these contents, or an operation has
closed it. -/
inductive Connection (δ : Type)
  | idle
  | holding (contents : δ)
  | closed

/-- The database file and the owned connection. -/
structure Database (δ : Type) where
  contents : δ
  connection : Option (Connection δ)

/-- What an operation did: the contents that it left in the database outside its transaction, by a
commit of its own or by statements behind the end of the transaction, and the connection. -/
structure OperationRun (δ : Type) where
  contents : δ
  connection : Connection δ
  result : Except ApplicationError Value

/-- The ways a COMMIT can end. -/
inductive CommitOutcome
  | succeeds
  | failsOpen
  | failsEnded
  deriving DecidableEq, Repr

/-- What SQLite and the file system answer while the worker takes one step. -/
structure Faults (δ : Type) where
  beginFails : Bool
  commit : CommitOutcome
  rollbackFails : Bool
  closeFails : Bool
  openFails : Bool
  storageFails : Bool
  replaced : Option δ

/-- Nothing fails. -/
def Faults.absent {δ : Type} : Faults δ where
  beginFails := false
  commit := .succeeds
  rollbackFails := false
  closeFails := false
  openFails := false
  storageFails := false
  replaced := none

/-- The result of an operation of the worker, the database after it, and whether it committed. -/
structure Execution (δ : Type) where
  result : Except Failure Value
  database : Database δ
  committed : Bool

variable {δ : Type}

namespace Database

/-- An operation that raises without touching the database. -/
def refuse (d : Database δ) (error : ApplicationError) : Execution δ :=
  ⟨.error ⟨error, false⟩, d, false⟩

/-- The database with this connection. -/
def connected (d : Database δ) (connection : Connection δ) : Database δ :=
  { d with connection := some connection }

/-- Can a transaction begin on the connection? -/
def canBegin (d : Database δ) : Bool :=
  match d.connection with
  | some .idle => true
  | _ => false

/-- Roll back what is left of a failed transaction and raise its error. A connection that is closed
cannot tell whether a transaction is open, and raises an error of its own. -/
def rollBack (d : Database δ) (faults : Faults δ) (error : ApplicationError) : Execution δ :=
  match d.connection with
  | some (.holding _) =>
    if faults.rollbackFails then ⟨.error ⟨error, true⟩, d, false⟩
    else (d.connected .idle).refuse error
  | some .closed => d.refuse .sqlite
  | _ => d.refuse error

/-- The database that an operation leaves. -/
def leftBy (run : OperationRun δ) : Database δ := ⟨run.contents, some run.connection⟩

/-- Commit the transaction and publish the value; without a transaction COMMIT fails. -/
def commit (faults : Faults δ) (run : OperationRun δ) (value : Value) : Execution δ :=
  match run.connection, faults.commit with
  | .holding contents, .succeeds => ⟨.ok value, ⟨contents, some .idle⟩, true⟩
  | .holding _, .failsEnded => ((leftBy run).connected .idle).rollBack faults .sqlite
  | _, _ => (leftBy run).rollBack faults .sqlite

/-- Run an operation in a transaction of its own. -/
def runTransaction (d : Database δ) (faults : Faults δ) (operation : δ → OperationRun δ) :
    Execution δ :=
  match d.connection with
  | none => d.refuse .unavailable
  | some _ =>
    if faults.beginFails ∨ d.canBegin = false then d.refuse .sqlite
    else match (operation d.contents).result with
      | .error error => (leftBy (operation d.contents)).rollBack faults error
      | .ok value =>
        if value.containsSQLiteOwned then
          (leftBy (operation d.contents)).rollBack faults .resultOwned
        else commit faults (operation d.contents) value

/-- The database without its connection; SQLite rolls back what it left open. -/
def disconnected (d : Database δ) : Database δ := { d with connection := none }

/-- Open a connection unless one is open. -/
def openConnectionOnWorker (d : Database δ) (faults : Faults δ) : Execution δ :=
  if d.connection.isSome ∨ faults.openFails then d.refuse .storage
  else ⟨.ok (.scalar 0), d.connected .idle, false⟩

/-- Close the owned connection; it is forgotten also when closing raises. -/
def closeConnectionOnWorker (d : Database δ) (faults : Faults δ) : Execution δ :=
  match d.connection with
  | none => ⟨.ok (.scalar 0), d, false⟩
  | some _ =>
    if faults.closeFails then d.disconnected.refuse .storage
    else ⟨.ok (.scalar 0), d.disconnected, false⟩

/-- The database after the state directory was created, replaced or put back. -/
def replaced (d : Database δ) (faults : Faults δ) : Database δ :=
  { d with contents := faults.replaced.getD d.contents }

/-- Create the schema when it is new and open the connection. -/
def initializeOnWorker (d : Database δ) (faults : Faults δ) : Execution δ :=
  match d.connection with
  | some _ => ⟨.ok (.scalar 0), d, false⟩
  | none =>
    if faults.storageFails then (d.replaced faults).refuse .storage
    else (d.replaced faults).openConnectionOnWorker faults

/-- Close the connection, replace the local state and open a new connection. -/
def resetOnWorker (d : Database δ) (faults : Faults δ) : Execution δ :=
  match (d.closeConnectionOnWorker faults).result with
  | .error _ => d.closeConnectionOnWorker faults
  | .ok _ =>
    if faults.storageFails then (d.disconnected.replaced faults).refuse .storage
    else (d.disconnected.replaced faults).openConnectionOnWorker faults

end Database

/-- The modes in which a process holds the state. -/
inductive StateLeaseMode
  | shared
  | exclusive
  deriving DecidableEq, Repr

/-- A lease of the state under one home. -/
structure StateLease where
  home : Nat
  mode : StateLeaseMode
  active : Bool
  deriving DecidableEq, Repr

/-- The operations that callers hand to the worker. -/
inductive Operation (δ : Type)
  | read (operation : δ → OperationRun δ)
  | write (operation : δ → OperationRun δ)
  | initializeState
  | suspend
  | reset (lease : StateLease)

namespace Operation

/-- Does the caller wait for the outcome even when it is cancelled? -/
def durable : Operation δ → Bool
  | .read _ => false
  | _ => true

/-- What the caller finds wrong before it hands the operation over. -/
def refusal (home : Nat) : Operation δ → Option ApplicationError
  | .reset lease =>
    if ¬ lease.active ∨ lease.mode ≠ .exclusive then some .leaseRequired
    else if lease.home ≠ home then some .foreignLease
    else none
  | _ => none

/-- Run an operation on the worker thread. -/
def run (faults : Faults δ) (d : Database δ) : Operation δ → Execution δ
  | .read operation => d.runTransaction faults operation
  | .write operation => d.runTransaction faults operation
  | .initializeState => d.initializeOnWorker faults
  | .suspend => d.closeConnectionOnWorker faults
  | .reset _ => d.resetOnWorker faults

end Operation

/-- A write keeps to its transaction: it leaves nothing in the database outside of it, and raises no
cancellation of its own. -/
def Operation.KeepsToTransaction (contents : δ) : Operation δ → Prop
  | .write operation =>
    (operation contents).contents = contents ∧ (operation contents).result ≠ .error .cancelled
  | _ => True

/-- An execution reports a value exactly if it committed. If it raised, the database has what it had
or what the operation left outside its transaction. -/
structure Execution.Exact (e : Execution δ) (d : Database δ)
    (operation : δ → OperationRun δ) : Prop where
  committed : (∃ value, e.result = .ok value) ↔ e.committed = true
  value : ∀ value, e.result = .ok value → (operation d.contents).result = .ok value ∧
    (operation d.contents).connection = .holding e.database.contents
  error : ∀ failure, e.result = .error failure → e.database.contents = d.contents ∨
    e.database.contents = (operation d.contents).contents

variable {d u : Database δ} {faults : Faults δ} {operation : δ → OperationRun δ}
  {failure : Failure}

private theorem Execution.Exact.refused
    (h : u.contents = d.contents ∨ u.contents = (operation d.contents).contents) :
    Execution.Exact ⟨.error failure, u, false⟩ d operation where
  committed := by simp
  value := by simp
  error := fun _ _ => h

namespace Database

private theorem rollBack_exact (error : ApplicationError)
    (h : u.contents = d.contents ∨ u.contents = (operation d.contents).contents) :
    (u.rollBack faults error).Exact d operation := by
  unfold rollBack
  split
  · split
    · exact .refused h
    · exact .refused h
  · exact .refused h
  · exact .refused h

private theorem commit_exact {value : Value} (h : (operation d.contents).result = .ok value) :
    (commit faults (operation d.contents) value).Exact d operation := by
  unfold commit
  split
  · next contents hconnection _ =>
    refine ⟨by simp, fun v hv => ?_, by simp⟩
    cases hv
    exact ⟨h, hconnection⟩
  all_goals exact rollBack_exact _ (.inr rfl)

/-- A transaction publishes a value exactly if it commits, and takes back what it held otherwise. -/
theorem runTransaction_exact (d : Database δ) (faults : Faults δ)
    (operation : δ → OperationRun δ) :
    (d.runTransaction faults operation).Exact d operation := by
  unfold runTransaction
  split
  · exact .refused (.inl rfl)
  · split
    · exact .refused (.inl rfl)
    · split
      · exact rollBack_exact _ (.inr rfl)
      · next value hvalue =>
        split
        · exact rollBack_exact _ (.inr rfl)
        · exact commit_exact hvalue

private theorem rollBack_error {error : ApplicationError}
    (h : (u.rollBack faults error).result = .error failure) :
    failure.error = error ∨ failure.error = .sqlite := by
  unfold rollBack at h
  split at h
  · split at h <;> (cases h; exact .inl rfl)
  · cases h
    exact .inr rfl
  · cases h
    exact .inl rfl

private theorem commit_error {run : OperationRun δ} {value : Value}
    (h : (commit faults run value).result = .error failure) : failure.error = .sqlite := by
  unfold commit at h
  split at h
  · cases h
  all_goals exact (rollBack_error h).elim id id

private theorem runTransaction_cancelled
    (h : (d.runTransaction faults operation).result = .error failure)
    (hcancelled : failure.error = .cancelled) :
    (operation d.contents).result = .error .cancelled := by
  have hother {error : ApplicationError} {v : Database δ} (hne : error ≠ .cancelled)
      (hrolled : (v.rollBack faults error).result = .error failure) : False := by
    rcases rollBack_error hrolled with hsame | hsame
    · exact hne (hsame.symm.trans hcancelled)
    · rw [hsame] at hcancelled
      cases hcancelled
  unfold runTransaction at h
  split at h
  · cases h
    cases hcancelled
  · split at h
    · cases h
      cases hcancelled
    · split at h
      · next error herror =>
        rw [herror]
        by_contra hne
        exact hother (fun hsame => hne (by rw [hsame])) h
      · split at h
        · exact (hother ApplicationError.noConfusion h).elim
        · rw [commit_error h] at hcancelled
          cases hcancelled

private theorem openConnectionOnWorker_error
    (h : (d.openConnectionOnWorker faults).result = .error failure) :
    failure.error = .storage := by
  unfold openConnectionOnWorker at h
  split at h
  · cases h
    rfl
  · cases h

private theorem closeConnectionOnWorker_error
    (h : (d.closeConnectionOnWorker faults).result = .error failure) :
    failure.error = .storage := by
  unfold closeConnectionOnWorker at h
  split at h
  · cases h
  · split at h
    · cases h
      rfl
    · cases h

private theorem initializeOnWorker_error
    (h : (d.initializeOnWorker faults).result = .error failure) : failure.error = .storage := by
  unfold initializeOnWorker at h
  split at h
  · cases h
  · split at h
    · cases h
      rfl
    · exact openConnectionOnWorker_error h

private theorem resetOnWorker_error
    (h : (d.resetOnWorker faults).result = .error failure) : failure.error = .storage := by
  unfold resetOnWorker at h
  split at h
  · exact closeConnectionOnWorker_error h
  · split at h
    · cases h
      rfl
    · exact openConnectionOnWorker_error h

end Database

/-- Unless a write raises a cancellation of its own, no report of a durable call is one. -/
theorem Operation.run_not_cancelled {operation : Operation δ}
    (hdurable : operation.durable = true) (hkeeps : operation.KeepsToTransaction d.contents)
    (h : (operation.run faults d).result = .error failure) : failure.error ≠ .cancelled := by
  intro hcancelled
  cases operation with
  | read operation => cases hdurable
  | write operation => exact hkeeps.2 (Database.runTransaction_cancelled h hcancelled)
  | initializeState =>
    rw [Database.initializeOnWorker_error h] at hcancelled
    cases hcancelled
  | suspend =>
    rw [Database.closeConnectionOnWorker_error h] at hcancelled
    cases hcancelled
  | reset _ =>
    rw [Database.resetOnWorker_error h] at hcancelled
    cases hcancelled

end AwesomeAgent.Storage
