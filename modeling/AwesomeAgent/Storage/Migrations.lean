import AwesomeAgent.Library.CrashLogic
import Mathlib.Data.List.Basic

/-!
# Migrations of the application database

A migration chain runs in one transaction, after a backup of the database was published. An
operation executes statements on a connection that refuses those which begin or end a transaction,
and sees what each of them reports. A statement may still end the transaction: by a conflict that
it resolves by a rollback, or when the engine cannot go on.
-/

namespace AwesomeAgent.Migrations

/-- What a statement does to the content that it is executed on. -/
inductive StatementEffect (Content Answer : Type)
  | done (content : Content) (answer : Answer)
  | failed (content : Content)
  | rolledBack

/-- A database engine. -/
class Sqlite (Content : Type) where
  Statement : Type
  Answer : Type
  /-- Statements that begin or end a transaction or a savepoint, or attach another database. -/
  controlsTransaction : Statement → Bool
  effect : Statement → Content → StatementEffect Content Answer
  userVersion : Content → Int
  setUserVersion : Nat → Content → Content
  quickCheck : Content → Bool

/-- What an operation sees of a statement. -/
inductive StatementResult (Answer : Type)
  | answered (answer : Answer)
  | notAuthorized
  | failed
  | rolledBack

/-- An operation: the statements that it executes, each chosen by what the ones before reported. -/
inductive MigrationOperation (Statement Answer : Type)
  | returned
  | raised
  | execute (statement : Statement)
      (next : StatementResult Answer → MigrationOperation Statement Answer)

/-- How a step on the connection ends: without effect, with the transaction rolled back, or with
its effect but reported as failed. -/
inductive StepOutcome
  | done
  | failed
  | rolledBack
  | lost
  deriving DecidableEq, Repr

/-- Why a migration raises. -/
inductive MigrationFault
  | application (message : String)
  | unavailable (found : Int) (expected : Nat)
  | backup (message : String)
  | step (fromSchema toSchema : Nat)
  | outcomeUnknown (fromSchema toSchema : Nat)
  | sqlite
  | operation
  deriving DecidableEq, Repr

/-- The database, the transaction that is open on its connection, and the backup. -/
structure Connection (Content : Type) where
  content : Content
  transaction : Option Content
  backup : Option Content
  deriving DecidableEq

/-- A connection with the outcomes of its next steps; steps beyond them are done. -/
structure Session (Content : Type) where
  connection : Connection Content
  outcomes : List StepOutcome

/-- What a migration does in a session. -/
abbrev Migration (Content α : Type) : Type := Proc MigrationFault (Session Content) α

namespace Connection

variable {Content : Type}

/-- What a statement reads. -/
def view (c : Connection Content) : Content := c.transaction.getD c.content

/-- What a statement writes: to the transaction, or to the database when none is open. -/
def write (c : Connection Content) (content : Content) : Connection Content :=
  match c.transaction with
  | some _ => { c with transaction := some content }
  | none => { c with content := content }

/-- The connection without a transaction. -/
def closed (c : Connection Content) : Connection Content := { c with transaction := none }

end Connection

section Steps

variable {Content α : Type}

/-- One step on the connection. -/
def access (f : Connection Content → Except MigrationFault (α × Connection Content)) :
    EStateM MigrationFault (Session Content) α := fun s =>
  match s.outcomes.headD .done, f s.connection with
  | .failed, _ => .error .sqlite ⟨s.connection, s.outcomes.tail⟩
  | .rolledBack, _ => .error .sqlite ⟨s.connection.closed, s.outcomes.tail⟩
  | _, .error e => .error e ⟨s.connection, s.outcomes.tail⟩
  | .done, .ok (a, c) => .ok a ⟨c, s.outcomes.tail⟩
  | .lost, .ok (_, c) => .error .sqlite ⟨c, s.outcomes.tail⟩

/-- A step of the migration; a crash may find what it left. -/
def perform (f : Connection Content → Except MigrationFault (α × Connection Content)) :
    Migration Content α := Proc.durable (access f)

/-- Raise a fault unless something holds. -/
def require (holds : Bool) (fault : MigrationFault) : Migration Content Unit :=
  if holds then pure () else throw fault

end Steps

variable {Content : Type} [Sqlite Content]

/-- One adjacent schema transition. -/
structure ApplicationMigration (Content : Type) [Sqlite Content] where
  fromSchema : Nat
  toSchema : Nat
  apply : MigrationOperation (Sqlite.Statement Content) (Sqlite.Answer Content)
  adjacent : 1 ≤ fromSchema ∧ toSchema = fromSchema + 1

/-- A complete chain of migrations. -/
structure ApplicationMigrationRegistry (Content : Type) [Sqlite Content] where
  floor : Nat
  current : Nat
  migrations : List (ApplicationMigration Content)
  supported : 1 ≤ floor ∧ floor ≤ current
  linear : migrations.map (·.fromSchema) = List.range' floor (current - floor)

/-- So many migrations from a schema on. -/
def climb (migrations : List (ApplicationMigration Content)) :
    Nat → Nat → Option (List (ApplicationMigration Content))
  | 0, _ => some []
  | left + 1, version =>
      match migrations.find? fun migration => decide (migration.fromSchema = version) with
      | none => none
      | some migration => (climb migrations left migration.toSchema).map (migration :: ·)

/-- The chain of migrations from a schema, if there is one. -/
def pathFrom (registry : ApplicationMigrationRegistry Content) (found : Int) :
    Option (List (ApplicationMigration Content)) :=
  if found = registry.current then some []
  else if found < registry.floor ∨ registry.current < found then none
  else climb registry.migrations (registry.current - found.toNat) found.toNat

/-! ## Steps on the connection -/

/-- The schema of the database. -/
def schemaVersion : Migration Content Int :=
  perform fun c => .ok (Sqlite.userVersion c.view, c)

/-- Check the database. -/
def requireQuickCheck (fault : MigrationFault) : Migration Content Unit :=
  perform fun c => if Sqlite.quickCheck c.view then .ok ((), c) else .error fault

/-- Execute a statement of an operation. -/
def executeStatement (statement : Sqlite.Statement Content) (s : Session Content) :
    StatementResult (Sqlite.Answer Content) × Session Content :=
  if Sqlite.controlsTransaction statement then (.notAuthorized, s)
  else
    let rest := s.outcomes.tail
    match s.outcomes.headD .done with
    | .failed | .lost => (.failed, ⟨s.connection, rest⟩)
    | .rolledBack => (.rolledBack, ⟨s.connection.closed, rest⟩)
    | .done =>
        match Sqlite.effect statement s.connection.view with
        | .done content answer => (.answered answer, ⟨s.connection.write content, rest⟩)
        | .failed content => (.failed, ⟨s.connection.write content, rest⟩)
        | .rolledBack => (.rolledBack, ⟨s.connection.closed, rest⟩)

/-- Run an operation on the guarded connection. -/
def runOperation : MigrationOperation (Sqlite.Statement Content) (Sqlite.Answer Content) →
    Migration Content Unit
  | .returned => pure ()
  | .raised => throw .operation
  | .execute statement next => do
      let result ← Proc.durable (EStateM.modifyGet (executeStatement statement))
      runOperation (next result)

/-! ## The backup -/

/-- Inspect the place of the backup; the step fails where anything but one private regular file
stands there. -/
def inspectBackupPath : Migration Content Unit :=
  Proc.mapFault
    (fun _ => .backup "Existing pre-migration backup is not one private regular file.")
    (perform fun c => .ok ((), c))

/-- Publish a validated copy of the database at the place of the backup. -/
def createBackup : Migration Content Unit := do
  requireQuickCheck (.backup "source Application database failed SQLite quick_check.")
  inspectBackupPath
  -- the temporary file is made before errors become errors of the backup
  perform fun c => .ok ((), c)
  Proc.mapFault
    (fun fault => match fault with
      | .sqlite => .backup "Pre-migration backup could not be created safely."
      | fault => fault)
    (do
      let copy ← perform fun c => .ok (c.view, c)
      perform fun c =>
        if Sqlite.quickCheck copy then .ok ((), c)
        else .error (.backup "pre-migration backup failed SQLite quick_check.")
      perform fun c =>
        if Sqlite.userVersion copy = Sqlite.userVersion c.view then .ok ((), c)
        else .error (.backup "Pre-migration backup schema does not match the source database.")
      perform fun c => .ok ((), { c with backup := some copy })
      perform fun c => .ok ((), c))

/-! ## The chain -/

/-- Apply one migration in the transaction. -/
def applyMigration (migration : ApplicationMigration Content) : Migration Content Unit := do
  let version ← schemaVersion
  require (version = migration.fromSchema)
    (.application "Application migration chain lost its schema boundary.")
  runOperation migration.apply
  perform fun c =>
    if c.transaction.isSome then .ok ((), c)
    else .error (.application "Migration operation escaped its transaction boundary.")
  perform fun c => .ok ((), c.write (Sqlite.setUserVersion migration.toSchema c.view))
  let version ← schemaVersion
  require (version = migration.toSchema)
    (.application "Migration did not publish its target schema identity.")

/-- Roll back after a fault, if that can be proven. -/
def rollBack (migration : ApplicationMigration Content) : Migration Content Unit := do
  let unknown := MigrationFault.outcomeUnknown migration.fromSchema migration.toSchema
  let inTransaction ← Proc.mapFault (fun _ => unknown)
    (perform fun c => .ok (c.transaction.isSome, c))
  require inTransaction unknown
  Proc.mapFault (fun _ => unknown) (perform fun c => .ok ((), c.closed))
  throw (.step migration.fromSchema migration.toSchema)

/-- Run a part of the chain for a migration, and roll back when it raises. -/
def guarded (migration : ApplicationMigration Content) (part : Migration Content Unit) :
    Migration Content Unit := do
  match ← Proc.attempt part with
  | .ok _ => pure ()
  | .error _ => rollBack migration

/-- Commit a chain after a check. -/
def commit : Migration Content Unit := do
  requireQuickCheck (.application "migration chain failed SQLite quick_check.")
  perform fun c =>
    match c.transaction with
    | some content => .ok ((), { c with content := content, transaction := none })
    | none => .error .sqlite

/-- Apply migrations one after another and commit; the last one is active in the end. -/
def runChain : ApplicationMigration Content → List (ApplicationMigration Content) →
    Migration Content Unit
  | active, [] => guarded active commit
  | _, migration :: rest => do
      guarded migration (applyMigration migration)
      runChain migration rest

/-- Apply a chain of migrations in one transaction. -/
def applyMigrationChain (first : ApplicationMigration Content)
    (rest : List (ApplicationMigration Content)) : Migration Content Unit := do
  let observed ← schemaVersion
  require (observed = first.fromSchema) (.unavailable observed first.fromSchema)
  perform fun c => .ok ((), { c with transaction := some c.content })
  runChain first (first :: rest)

/-- Back up and migrate the application database; tells whether a backup was made. -/
def migrateApplicationDatabase (registry : ApplicationMigrationRegistry Content) :
    Migration Content Bool := do
  perform fun c =>
    if c.transaction.isSome then
      .error (.application "Application migration requires an idle SQLite connection.")
    else .ok ((), c)
  let found ← schemaVersion
  match pathFrom registry found with
  | none => throw (.unavailable found registry.current)
  | some [] => pure false
  | some (first :: rest) => do
      createBackup
      applyMigrationChain first rest
      pure true

end AwesomeAgent.Migrations
