import AwesomeAgent.Providers.CredentialTransaction

/-!
# Model transactions

Changing the model writes the user default into the configuration file and the
model of a Thread into the application database. The journal says `committed`
before the database transaction commits; a second transaction verifies both and
removes the journal.
-/

namespace AwesomeAgent

namespace Database

/-- The Threads that the open transaction sees. -/
def visible (s : ProviderState) : ThreadModels := s.transaction.getD s.threads

/-- The model of a Thread. -/
def readThread (threadId : String) : ProviderProc (Option String) :=
  Scripted.read .sqliteError fun s =>
    match (visible s).get? threadId with
    | none => .error (.threadNotFound threadId)
    | some model => .ok model

/-- Set the model of a Thread in the open transaction. -/
def setModel (threadId : String) (model : Option String) : ProviderProc Unit :=
  Scripted.adjust .sqliteError fun s =>
    match (visible s).get? threadId with
    | none => .error (.threadNotFound threadId)
    | some _ => .ok { s with transaction := some ((visible s).set threadId model) }

/-- What a commit makes durable. -/
def committed (s : ProviderState) : ProviderState :=
  { s with threads := visible s, transaction := none }

/-- Roll back; a rollback that fails stops the worker. -/
def rollback : ProviderProc Unit := do
  match ← Proc.attempt (Scripted.read .sqliteError fun _ => .ok ()) with
  | .ok _ => Scripted.remember fun s => { s with transaction := none }
  | .error _ =>
      Scripted.remember fun s => { s with transaction := none, databaseUnavailable := true }
      throw .sqliteUnavailable

/-- Run an operation in one write transaction. -/
def runWriteTransaction {α : Type} (operation : ProviderProc α) : ProviderProc α := do
  if ← readMemory fun s => s.databaseUnavailable then
    throw .sqliteUnavailable
  Scripted.read .sqliteError fun _ => .ok ()
  Scripted.remember fun s => { s with transaction := some s.threads }
  let result ← Proc.attempt do
    let value ← operation
    Scripted.write .sqliteError committed
    return value
  match result with
  | .ok value => return value
  | .error fault =>
      if (← readMemory fun s => s.transaction.isSome) then
        rollback
      throw fault

end Database

namespace ModelJournal

/-- Write a record and verify it. -/
def writeRecord (record : ProviderModelTransactionRecord) : ProviderProc Unit := do
  writeFile fun s => { s with modelJournal := some record }
  if (← read) ≠ some record then
    throw (.modelTransactionJournalError
      "Provider model transaction journal verification failed.")

/-- Announce a transaction. -/
def prepare (record : ProviderModelTransactionRecord) :
    ProviderProc ProviderModelTransactionRecord := do
  if record.phase ≠ .prepared then
    throw (.valueError "A new Provider model transaction must be prepared.")
  if (← read) ≠ none then
    throw (.modelTransactionJournalError
      "A Provider model transaction already requires recovery.")
  writeRecord record
  return record

/-- Journal that the transaction is committed. -/
def markCommitted (prepared : ProviderModelTransactionRecord) :
    ProviderProc ProviderModelTransactionRecord := do
  if prepared.phase ≠ .prepared then
    throw (.valueError "Only a prepared Provider model transaction can commit.")
  if (← read) ≠ some prepared then
    throw (.modelTransactionJournalError "Prepared Provider model transaction identity changed.")
  writeRecord { prepared with phase := .committed }
  return { prepared with phase := .committed }

/-- Remove the journal of a transaction. -/
def clear (expected : ProviderModelTransactionRecord) : ProviderProc Unit := do
  if (← read) ≠ some expected then
    throw (.modelTransactionJournalError
      "Provider model transaction changed before cleanup.")
  if (← read) ≠ some expected then
    throw (.modelTransactionJournalError
      "Provider model transaction changed during cleanup.")
  writeFile fun s => { s with modelJournal := none }

/-- The journal, which has to be absent or to hold a record. -/
def observe (record : ProviderModelTransactionRecord) (message : String) :
    ProviderProc (Option ProviderModelTransactionRecord) := do
  let observed ← read
  if observed ≠ none ∧ observed ≠ some record then
    throw (.modelTransactionJournalError message)
  return observed

end ModelJournal

/-- Build a record that satisfies its contract. -/
def ProviderModelTransactionRecord.validate (r : ProviderModelTransactionRecord) :
    Except ProviderFault ProviderModelTransactionRecord :=
  if ¬∀ m ∈ r.models, m ∈ curatedModels then
    .error (.valueError "Journal model must be a curated Provider/model id.")
  else if r.targetDefaultModel ≠ r.targetThreadModel then
    .error (.valueError "Journal target models must match.")
  else .ok r

/-- A validated record keeps its contract. -/
theorem ProviderModelTransactionRecord.validate_ok {r v : ProviderModelTransactionRecord}
    (h : r.validate = .ok v) : v = r ∧ r.Contract := by
  unfold validate at h
  split at h
  · cases h
  next hm =>
    split at h
    · cases h
    next ht =>
      cases h
      exact ⟨rfl, not_not.mp hm, not_not.mp ht⟩

/-- The user default at one end of a transaction. -/
def ProviderModelTransactionRecord.defaultModel (r : ProviderModelTransactionRecord)
    (useTarget : Bool) : Option String :=
  if useTarget then some r.targetDefaultModel else r.previousDefaultModel

/-- The model of the Thread at one end of a transaction. -/
def ProviderModelTransactionRecord.threadModel (r : ProviderModelTransactionRecord)
    (useTarget : Bool) : Option String :=
  if useTarget then some r.targetThreadModel else r.previousThreadModel

/-- Set the user default; it has to be in the catalog. -/
def writeDefaultModel (model : Option String) : ProviderProc Unit := do
  let _ ← UserConfigWriter.update fun current =>
    if ∀ m ∈ model, m ∈ curatedModels then some { current with defaultModel := model } else none

/-- Check that user default and Thread are at one end of a transaction. -/
def verifyModelTransactionState (record : ProviderModelTransactionRecord) (useTarget : Bool) :
    ProviderProc Unit := do
  let document ← UserConfigWriter.read
  if document.defaultModel ≠ record.defaultModel useTarget then
    throw (.runtimeError "Provider default model transaction verification failed.")
  let model ← Database.readThread record.threadId
  if model ≠ record.threadModel useTarget then
    throw (.runtimeError "Thread model transaction verification failed.")

/-- Report a failure as one that requires recovery, unless it does already. -/
def requireRecovery (stage : String) (fault : ProviderFault) : ProviderFault :=
  if fault.isRecoveryRequired then fault else .recoveryRequired fault [stage]

/-- Check one end of a transaction and remove its journal. -/
def clearEnd (record : ProviderModelTransactionRecord) (useTarget : Bool) (message : String) :
    ProviderProc Unit := do
  let observed ← ModelJournal.observe record message
  verifyModelTransactionState record useTarget
  if observed ≠ none then
    ModelJournal.clear record

section Startup

/-- Bring user default and Thread to the end that the journal calls for. -/
def reconcileModel : ProviderProc (Option ProviderModelTransactionRecord) := do
  let record ← Proc.mapFault (fun fault => .recoveryRequired fault ["journal_read"])
    ModelJournal.read
  match record with
  | none => return none
  | some record =>
      let useTarget := decide (record.phase = .committed)
      Proc.mapFault (fun fault => .recoveryRequired fault ["startup_reconcile"]) do
        writeDefaultModel (record.defaultModel useTarget)
        Database.setModel record.threadId (record.threadModel useTarget)
        verifyModelTransactionState record useTarget
      return some record

/-- Check the end that was reached and remove the journal. -/
def verifyAndClear (record : ProviderModelTransactionRecord) : ProviderProc Unit :=
  Proc.mapFault (fun fault => .recoveryRequired fault ["startup_finalize"])
    (clearEnd record (decide (record.phase = .committed))
      "Provider model transaction changed before cleanup.")

/-- Reconcile one model transaction that a crash interrupted. -/
def reconcileProviderModelTransaction : ProviderProc Bool := do
  let pending ← Proc.mapFault (fun fault => .recoveryRequired fault ["journal_read"])
    ModelJournal.read
  if pending = none then return false
  let reconciled ← Proc.mapFault (requireRecovery "startup_reconcile_commit")
    (Database.runWriteTransaction reconcileModel)
  match reconciled with
  | none => return false
  | some record =>
      Proc.mapFault (requireRecovery "startup_finalize_commit")
        (Database.runWriteTransaction (verifyAndClear record))
      return true

end Startup

section Service

/-- Undo a model change before its commit; the stages that failed are reported. -/
def restoreModelChange (record : ProviderModelTransactionRecord)
    (previousDocument : UserConfigDocument) : ProviderProc (List String) := do
  let replaced ← Proc.attempt (UserConfigWriter.write previousDocument)
  let restored ← Proc.attempt do
    let currentModel ← Database.readThread record.threadId
    if currentModel ≠ record.previousThreadModel then
      Database.setModel record.threadId record.previousThreadModel
  let compared ← Proc.attempt do
    if (← UserConfigWriter.read) ≠ previousDocument then
      throw (.runtimeError "User configuration rollback verification failed.")
  let verified ← Proc.attempt (verifyModelTransactionState record false)
  let stage (name : String) (outcome : Except ProviderFault Unit) : List String :=
    match outcome with
    | .ok _ => []
    | .error _ => [name]
  return stage "config_restore" replaced ++ stage "thread_restore" restored ++
    stage "config_verify" compared ++ stage "state_verify" verified

variable (load : ProviderState → Except ProviderFault ProviderConfigurationSnapshot)

/-- Write the target into the configuration file and into the open transaction. -/
def applyModelChange (record : ProviderModelTransactionRecord) :
    ProviderProc ProviderConfigurationSnapshot := do
  writeDefaultModel (some record.targetDefaultModel)
  let snapshot ← readFile load
  Database.setModel record.threadId (some record.targetThreadModel)
  verifyModelTransactionState record true
  return snapshot

/-- A new transaction record, announced in the journal. -/
def prepareModelChange (threadId model : String) (previousDocument : UserConfigDocument)
    (previousModel : Option String) : ProviderProc ProviderModelTransactionRecord := do
  let transactionId ← readMemory fun s => s.supply
  Scripted.remember fun s => { s with supply := s.supply + 1 }
  let record ← readFile fun _ => ProviderModelTransactionRecord.validate
    { transactionId := transactionId
      phase := .prepared
      threadId := threadId
      previousDefaultModel := previousDocument.defaultModel
      targetDefaultModel := model
      previousThreadModel := previousModel
      targetThreadModel := model }
  ModelJournal.prepare record

/-- Journal the commit of a change that applied. -/
def commitModelChange (model : String) (prepared : ProviderModelTransactionRecord)
    (snapshot : ProviderConfigurationSnapshot) : ProviderProc PersistedModelConfiguration := do
  match ← Proc.attempt (ModelJournal.markCommitted prepared) with
  | .error primary => fenceAndRaise primary ["journal_finalize"]
  | .ok committed =>
      let persisted : PersistedModelConfiguration := ⟨snapshot, model, committed⟩
      Scripted.remember fun s => { s with attempts.committed := some persisted }
      return persisted

/-- Write the model change and journal its commit, inside the database transaction. -/
def persistModel (threadId model : String) : ProviderProc PersistedModelConfiguration := do
  requireConsistentLocked
  let previousDocument ← UserConfigWriter.read
  let previousModel ← Database.readThread threadId
  match ← Proc.attempt (prepareModelChange threadId model previousDocument previousModel) with
  | .error primary => fenceAndRaise primary ["journal_prepare"]
  | .ok prepared =>
      Scripted.remember fun s => { s with attempts.prepared := some prepared }
      match ← Proc.attempt (applyModelChange load prepared) with
      | .error primary =>
          let failures ← restoreModelChange prepared previousDocument
          if failures ≠ [] then
            fenceAndRaise primary failures
          Scripted.remember fun s => { s with attempts.rolledBack := some primary }
          throw (.modelTransactionRolledBack primary prepared)
      | .ok snapshot =>
          commitModelChange model prepared snapshot

/-- Verify a committed model change and remove its journal. -/
def finalizeModel (persisted : PersistedModelConfiguration) :
    ProviderProc ProviderConfigurationSnapshot := do
  let finalized ← Proc.attempt do
    clearEnd persisted.record true "Committed Provider model transaction changed."
    readFile load
  match finalized with
  | .ok snapshot => return snapshot
  | .error primary => fenceAndRaise primary ["journal_finalize"]

/-- Verify a model change that was rolled back and remove its journal. -/
def verifyPrevious (record : ProviderModelTransactionRecord) : ProviderProc Unit :=
  clearEnd record false "Rolled-back Provider model transaction changed."

/-- Raise a failure that requires recovery as it is; for any other, fence the service. -/
def raiseRecovery {α : Type} (fault primary : ProviderFault) (stage : String) : ProviderProc α :=
  if fault.isRecoveryRequired then throw fault else fenceAndRaise primary [stage]

/-- Finish a rollback, in a transaction of its own. -/
def finalizeRolledBack (primary : ProviderFault) (record : ProviderModelTransactionRecord) :
    ProviderProc Unit := do
  match ← Proc.attempt (Database.runWriteTransaction (verifyPrevious record)) with
  | .ok _ => return ()
  | .error fault =>
      raiseRecovery fault primary "database_rollback_finalize"

/-- Look at both ends after a failed database commit. -/
def inspectBoundary (record : ProviderModelTransactionRecord) :
    ProviderProc (Option ProviderConfigurationSnapshot) := do
  let observed ← ModelJournal.observe record
    "Provider model transaction changed at the SQLite boundary."
  let document ← UserConfigWriter.read
  let threadModel ← Database.readThread record.threadId
  if document.defaultModel = record.defaultModel true ∧ threadModel = record.threadModel true then
    return some (← readFile load)
  if observed = none ∧ document.defaultModel = record.defaultModel false ∧
      threadModel = record.threadModel false then
    return none
  throw (.runtimeError "Provider model transaction boundary is not at one exact endpoint.")

/-- Decide what a failed database transaction left behind. -/
def resolveModelTransactionBoundary (primary : ProviderFault) :
    ProviderProc (Option PersistedModelConfiguration) := do
  let attempts ← readMemory fun s => s.attempts
  match attempts.committed with
  | none =>
      if attempts.prepared = none then return none
      fenceAndRaise primary ["database_rollback"]
  | some persisted =>
      match ← Proc.attempt (Database.runWriteTransaction
          (inspectBoundary load persisted.record)) with
      | .error fault => raiseRecovery fault primary "database_commit"
      | .ok none => return none
      | .ok (some snapshot) => return some { persisted with snapshot := snapshot }

/-- What follows a failed database transaction. -/
def recoverPersist (fault : ProviderFault) : ProviderProc PersistedModelConfiguration := do
  match fault with
  | .modelTransactionRolledBack primary record =>
      finalizeRolledBack primary record
      throw primary
  | .recoveryRequired _ _ => throw fault
  | _ =>
      match (← readMemory fun s => s.attempts).rolledBack with
      | some primary => fenceAndRaise primary ["database_rollback"]
      | none =>
          match ← Proc.attempt (resolveModelTransactionBoundary load fault) with
          | .error inspection =>
              raiseRecovery inspection fault "database_boundary_inspect"
          | .ok none => throw fault
          | .ok (some persisted) => return persisted

/-- Persist a model change in a database transaction, or recover from its failure. -/
def persistOrRecover (threadId model : String) : ProviderProc PersistedModelConfiguration := do
  match ← Proc.attempt (Database.runWriteTransaction (persistModel load threadId model)) with
  | .ok persisted => return persisted
  | .error fault => recoverPersist load fault

/-- Persist a model change, finalize it and publish the configuration. -/
def persistModelAndApply (threadId model : String) : ProviderProc String := do
  Scripted.remember fun s => { s with attempts := ⟨none, none, none⟩ }
  let persisted ← persistOrRecover load threadId model
  match ← Proc.attempt (Database.runWriteTransaction (finalizeModel load persisted)) with
  | .error fault => raiseRecovery fault fault "journal_finalize"
  | .ok _ =>
      match ← Proc.attempt (readFile fun _ => .ok ()) with
      | .error fault => fenceAndRaise fault ["runtime_publish"]
      | .ok _ => return persisted.model

end Service

end AwesomeAgent
