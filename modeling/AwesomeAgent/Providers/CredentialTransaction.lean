import AwesomeAgent.Providers.State

/-!
# Credential transactions

A credential change replaces the secret file and the selected source, two files
that cannot be replaced together. A backup of the secret file and a journal with
three phases let a later start decide which end of the change to restore.
-/

namespace AwesomeAgent

/-- Largest secret file and largest backup. -/
def maxSecretFileBytes : Nat := 1024 * 1024

namespace ProviderCredentialTransactionRecord

/-- What the record validator accepts. -/
def Contract (r : ProviderCredentialTransactionRecord) : Prop :=
  r.environmentVariable = providerEnvironmentVariable r.service ∧
    if r.action = .delete then r.targetSource = r.previousSource
    else r.targetSource = some .awesome ∧ r.targetEnvExisted = true

instance (r : ProviderCredentialTransactionRecord) : Decidable r.Contract := by
  unfold Contract
  infer_instance

/-- Build a record that satisfies its contract. -/
def validate (r : ProviderCredentialTransactionRecord) :
    Except ProviderFault ProviderCredentialTransactionRecord :=
  if r.environmentVariable ≠ providerEnvironmentVariable r.service then
    .error (.valueError "Credential transaction environment variable differs.")
  else if r.action = .delete then
    if r.targetSource ≠ r.previousSource then
      .error (.valueError "Credential deletion must preserve source selection.")
    else .ok r
  else if r.targetSource ≠ some .awesome then
    .error (.valueError "Credential writes must select the Awesome secret source.")
  else if r.targetEnvExisted = false then
    .error (.valueError "Credential writes require a target secret file.")
  else .ok r

/-- A validated record keeps its contract. -/
theorem validate_ok {r v : ProviderCredentialTransactionRecord} (h : r.validate = .ok v) :
    v = r ∧ r.Contract := by
  unfold validate at h
  unfold Contract
  split at h
  · cases h
  next he =>
    split at h
    next ha =>
      split at h
      · cases h
      next hs =>
        cases h
        exact ⟨rfl, not_not.mp he, by rw [if_pos ha]; exact not_not.mp hs⟩
    next ha =>
      split at h
      · cases h
      next hs =>
        split at h
        · cases h
        next hx =>
          cases h
          refine ⟨rfl, not_not.mp he, ?_⟩
          rw [if_neg ha]
          exact ⟨not_not.mp hs, by simpa using hx⟩

section Digest

variable [ContentHash]

/-- The previous secret file, from its backup. -/
def previousSnapshot (r : ProviderCredentialTransactionRecord) (content : Bytes) :
    Except ProviderFault SecretFileSnapshot :=
  if ContentHash.sha256 content ≠ r.previousEnvSha256 then
    .error (.credentialTransactionError
      "Provider credential backup identity differs from the journal.")
  else .ok ⟨r.previousEnvExisted, content⟩

/-- Whether a secret file is the one before the change. -/
def matchesPrevious (r : ProviderCredentialTransactionRecord) (s : SecretFileSnapshot) : Bool :=
  s.existed == r.previousEnvExisted && ContentHash.sha256 s.content == r.previousEnvSha256

/-- Whether a secret file is the one after the change. -/
def matchesTarget (r : ProviderCredentialTransactionRecord) (s : SecretFileSnapshot) : Bool :=
  s.existed == r.targetEnvExisted && ContentHash.sha256 s.content == r.targetEnvSha256

end Digest

end ProviderCredentialTransactionRecord

namespace UserSecretStore

/-- The bounded snapshot of the secret file. -/
def readSnapshot (s : ProviderState) : Except ProviderFault SecretFileSnapshot :=
  match s.secretFile with
  | none => .ok ⟨false, []⟩
  | some content =>
      if content.length > maxSecretFileBytes then
        .error (.userSecretStoreError "Provider secret file exceeds its size limit.")
      else .ok ⟨true, content⟩

/-- Snapshot of the secret file. -/
def snapshot : ProviderProc SecretFileSnapshot := readFile readSnapshot

/-- The lines of a secret file. -/
def decodeLines (content : Bytes) : Except ProviderFault (List Text) :=
  if content.contains 0 then
    .error (.userSecretStoreError "Provider secret file contains NUL bytes.")
  else
    match decodeUtf8 content with
    | none => .error (.userSecretStoreError "Provider secret file is not valid UTF-8.")
    | some text => .ok (splitLines text)

/-- Refuse names that are not in the credential catalog. -/
def validateName (name : String) : Except ProviderFault Unit :=
  if name ∉ awesomeSecretNames then .error (.valueError "Unsupported Provider credential name.")
  else .ok ()

/-- Refuse values that do not fit on one line. -/
def validateValue (value : Text) : Except ProviderFault Unit :=
  if value.all isSpace || value.contains '\x00' || value.contains '\r' || value.contains '\n' then
    .error (.valueError "Provider credential value is invalid.")
  else .ok ()

/-- The secret file with a name set to a value. -/
def planSet (name : String) (value : Text) (s : ProviderState) :
    Except ProviderFault SecretFileSnapshot := do
  validateName name
  validateValue value
  let current ← readSnapshot s
  let lines ← decodeLines current.content
  return ⟨true, encodeUtf8 (setLines lines name.toList value).flatten⟩

/-- The secret file without a name, and whether it was there. -/
def planDelete (name : String) (s : ProviderState) :
    Except ProviderFault (SecretFileSnapshot × Bool) := do
  validateName name
  let current ← readSnapshot s
  let lines ← decodeLines current.content
  match replaceLines lines name.toList none with
  | (_, false) => return (current, false)
  | (updated, true) => return (⟨current.existed, encodeUtf8 updated.flatten⟩, true)

/-- Put the secret file into the state of a snapshot. Only UTF-8 text can be written. -/
def restore (target : SecretFileSnapshot) : ProviderProc Unit := do
  if target.content.length > maxSecretFileBytes then
    throw (.userSecretStoreError "Provider secret file exceeds its size limit.")
  if target.existed then
    match decodeUtf8 target.content with
    | none => throw .unicodeDecodeError
    | some _ => writeFile fun s => { s with secretFile := some target.content }
  else
    match ← readFile fun s => .ok s.secretFile with
    | none => return ()
    | some _ => writeFile fun s => { s with secretFile := none }

/-- Set a name in the secret file. -/
def set (name : String) (value : Text) : ProviderProc Unit := do
  let planned ← readFile (planSet name value)
  restore planned

/-- Delete a name from the secret file. -/
def delete (name : String) : ProviderProc Bool := do
  let (updated, found) ← readFile (planDelete name)
  if !found then return false
  restore updated
  return true

end UserSecretStore

namespace CredentialJournal

/-- The journal record. -/
def read : ProviderProc (Option ProviderCredentialTransactionRecord) :=
  readFile fun s =>
    match s.credentialJournal with
    | none => .ok none
    | some record =>
        if record.Contract then .ok (some record)
        else .error (.credentialTransactionError
          "Provider credential transaction journal is invalid.")

/-- Whether the backup exists. -/
def backupExists : ProviderProc Bool := readFile fun s => .ok s.credentialBackup.isSome

/-- Unlink the backup. -/
def unlinkBackup (missingOk : Bool) : ProviderProc Unit := do
  if ← backupExists then writeFile fun s => { s with credentialBackup := none }
  else if !missingOk then
    throw (.credentialTransactionError "Provider credential backup is missing.")

/-- Write a record and verify it. -/
def writeRecord (record : ProviderCredentialTransactionRecord) : ProviderProc Unit := do
  writeFile fun s => { s with credentialJournal := some record }
  if (← read) ≠ some record then
    throw (.credentialTransactionError
      "Provider credential transaction journal verification failed.")

/-- Keep the secret file before a change. -/
def stageBackup (snapshot : SecretFileSnapshot) : ProviderProc Unit := do
  if (← read) ≠ none then
    throw (.credentialTransactionError
      "A Provider credential transaction already requires recovery.")
  if ← backupExists then
    throw (.credentialTransactionError "A Provider credential backup already requires recovery.")
  if snapshot.existed then
    if snapshot.content.length > maxSecretFileBytes then
      throw (.credentialTransactionError "Provider credential backup exceeds its size limit.")
    writeFile fun s => { s with credentialBackup := some snapshot.content }

section Digest

variable [ContentHash]

/-- The previous secret file that the backup of a record holds. -/
def readBackup (record : ProviderCredentialTransactionRecord) :
    ProviderProc SecretFileSnapshot :=
  readFile fun s =>
    if record.previousEnvExisted = false then
      if s.credentialBackup.isSome then
        .error (.credentialTransactionError "Unexpected Provider credential backup is present.")
      else record.previousSnapshot []
    else
      match s.credentialBackup with
      | none => .error (.credentialTransactionError "Provider credential backup is missing.")
      | some raw =>
          if raw.length > maxSecretFileBytes then
            .error (.credentialTransactionError
              "Provider credential backup exceeds its size limit.")
          else record.previousSnapshot raw

/-- Check the backup of a record that is about to be written. -/
def verifyStagedBackup (record : ProviderCredentialTransactionRecord) : ProviderProc Unit := do
  if record.previousEnvExisted then
    let _ ← readBackup record
  else if ← backupExists then
    throw (.credentialTransactionError "Unexpected Provider credential backup is present.")

/-- Announce a transaction. -/
def prepare (record : ProviderCredentialTransactionRecord) :
    ProviderProc ProviderCredentialTransactionRecord := do
  if record.phase ≠ .prepared then
    throw (.valueError "A new Provider credential transaction must be prepared.")
  if (← read) ≠ none then
    throw (.credentialTransactionError
      "A Provider credential transaction already requires recovery.")
  verifyStagedBackup record
  writeRecord record
  return record

end Digest

/-- Move the journal to the next phase. -/
def advance (current : ProviderCredentialTransactionRecord)
    (phase : ProviderCredentialTransactionPhase) :
    ProviderProc ProviderCredentialTransactionRecord := do
  if (← read) ≠ some current then
    throw (.credentialTransactionError "Provider credential transaction identity changed.")
  writeRecord { current with phase := phase }
  return { current with phase := phase }

/-- Journal that the secret file is written. -/
def markSecretCommitted (prepared : ProviderCredentialTransactionRecord) :
    ProviderProc ProviderCredentialTransactionRecord := do
  if prepared.phase ≠ .prepared then
    throw (.valueError "Only a prepared credential transaction can advance.")
  advance prepared .secretCommitted

/-- Journal that the transaction is committed. -/
def markCommitted (secretCommitted : ProviderCredentialTransactionRecord) :
    ProviderProc ProviderCredentialTransactionRecord := do
  if secretCommitted.phase ≠ .secretCommitted then
    throw (.valueError "Only a secret-committed transaction can commit.")
  advance secretCommitted .committed

/-- Remove the backup, then the journal. -/
def clear (expected : ProviderCredentialTransactionRecord) : ProviderProc Unit := do
  if (← read) ≠ some expected then
    throw (.credentialTransactionError "Provider credential transaction changed before cleanup.")
  unlinkBackup true
  if (← read) ≠ some expected then
    throw (.credentialTransactionError "Provider credential transaction changed during cleanup.")
  writeFile fun s => { s with credentialJournal := none }

/-- Remove a backup without a journal. -/
def clearOrphanBackup : ProviderProc Bool := do
  if (← read) ≠ none then
    throw (.credentialTransactionError
      "Cannot clear a backup for a pending credential transaction.")
  if !(← backupExists) then return false
  unlinkBackup false
  return true

/-- Refuse while anything is left of a transaction. -/
def requireClean : ProviderProc Unit := do
  if (← read) ≠ none then
    throw (.credentialTransactionError
      "A Provider credential transaction requires startup recovery.")
  if ← backupExists then
    throw (.credentialTransactionError
      "A Provider credential transaction requires startup recovery.")

end CredentialJournal

/-- The journal record of a model transaction. -/
def ModelJournal.read : ProviderProc (Option ProviderModelTransactionRecord) :=
  readFile fun s =>
    match s.modelJournal with
    | none => .ok none
    | some record =>
        if record.Contract then .ok (some record)
        else .error
          (.modelTransactionJournalError "Provider model transaction journal is invalid.")

/-- Refuse while a transaction requires recovery. -/
def requireConsistentLocked : ProviderProc Unit := do
  if let some (primary, stages) ← readMemory fun s => s.recoveryRequired then
    throw (.recoveryRequired primary stages)
  let pending ← Proc.attempt do
    let pending ← ModelJournal.read
    CredentialJournal.requireClean
    return pending
  match pending with
  | .error fault => fenceAndRaise fault ["journal_read"]
  | .ok none => return ()
  | .ok (some _) =>
      fenceAndRaise (.modelTransactionJournalError
        "A Provider model transaction requires startup recovery.") ["startup_reconcile_required"]

/-- Select the source of a service in the user configuration. -/
def writeCredentialSource (service : CredentialService) (source : Option CredentialSource) :
    ProviderProc Unit := do
  let _ ← UserConfigWriter.update fun current =>
    (current.credentials.select service source).map fun credentials =>
      { current with credentials := credentials }

/-- A request to change a credential. -/
structure ProviderCredentialSetRequest where
  provider : CredentialService
  action : CredentialAction
  deriving DecidableEq, Repr

/-- The secret file and the source that a request asks for; nothing when there is nothing to
delete. -/
def planCredential (request : ProviderCredentialSetRequest) (apiKey : Option Text)
    (previousSource : Option CredentialSource) (s : ProviderState) :
    Except ProviderFault (Option (SecretFileSnapshot × Option CredentialSource)) := do
  let environmentVariable := providerEnvironmentVariable request.provider
  if request.action = .delete then
    let (target, changed) ← UserSecretStore.planDelete environmentVariable s
    return if changed then some (target, previousSource) else none
  else
    match apiKey with
    | none => throw (.valueError "Credential content is required.")
    | some value =>
        let target ← UserSecretStore.planSet environmentVariable value s
        return some (target, some .awesome)

/-- The secret file can be read as bounded text. -/
def ReadableSecret (s : ProviderState) : Prop :=
  ∀ b ∈ s.secretFile, b.length ≤ maxSecretFileBytes ∧ (decodeUtf8 b).isSome

variable {s : ProviderState} {current target : SecretFileSnapshot} {name : String}

/-- A snapshot that is read is that of the secret file, which is within bounds. -/
theorem readSnapshot_ok (h : UserSecretStore.readSnapshot s = .ok current) :
    current = SecretFileSnapshot.of s.secretFile ∧
      ∀ b ∈ s.secretFile, b.length ≤ maxSecretFileBytes := by
  unfold UserSecretStore.readSnapshot at h
  cases hs : s.secretFile with
  | none =>
    rw [hs] at h
    cases h
    exact ⟨rfl, fun b hb => by cases hb⟩
  | some content =>
    simp only [hs] at h
    split at h
    · cases h
    next hsize =>
      cases h
      refine ⟨rfl, fun b hb => ?_⟩
      cases hb
      exact Nat.not_lt.mp hsize

private theorem planned_lines {lines : List Text}
    (hc : UserSecretStore.readSnapshot s = .ok current)
    (hl : UserSecretStore.decodeLines current.content = .ok lines) :
    current = SecretFileSnapshot.of s.secretFile ∧ ReadableSecret s := by
  obtain ⟨rfl, hfits⟩ := readSnapshot_ok hc
  refine ⟨rfl, fun b hb => ⟨hfits b hb, ?_⟩⟩
  rw [Option.mem_def.mp hb] at hl
  unfold UserSecretStore.decodeLines at hl
  split at hl
  · cases hl
  · split at hl
    · cases hl
    next text htext =>
      have htext : decodeUtf8 b = some text := htext
      rw [htext]
      rfl

/-- Plans depend on the secret file alone. -/
theorem planDelete_congr {t : ProviderState} (h : s.secretFile = t.secretFile) :
    UserSecretStore.planDelete name s = UserSecretStore.planDelete name t := by
  unfold UserSecretStore.planDelete UserSecretStore.readSnapshot
  rw [h]

/-- What is planned depends on the secret file alone. -/
theorem planSet_congr {value : Text} {t : ProviderState} (h : s.secretFile = t.secretFile) :
    UserSecretStore.planSet name value s = UserSecretStore.planSet name value t := by
  unfold UserSecretStore.planSet UserSecretStore.readSnapshot
  rw [h]

private theorem planDelete_ok (h : UserSecretStore.planDelete name s = .ok (target, true)) :
    ReadableSecret s ∧ target.existed = true := by
  obtain ⟨_, _, h⟩ := except_bind_ok h
  obtain ⟨current, hc, h⟩ := except_bind_ok h
  obtain ⟨lines, hl, h⟩ := except_bind_ok h
  obtain ⟨hcurrent, hreadable⟩ := planned_lines hc hl
  split at h
  · cases h
  next updated hr =>
    cases h
    refine ⟨hreadable, ?_⟩
    cases hs : s.secretFile with
    | none =>
      rw [hcurrent, hs] at hl
      cases hl
      cases hr
    | some content => rw [hcurrent, hs]; rfl

private theorem planSet_ok {value : Text} (h : UserSecretStore.planSet name value s = .ok target) :
    ReadableSecret s ∧ target.existed = true := by
  obtain ⟨_, _, h⟩ := except_bind_ok h
  obtain ⟨_, _, h⟩ := except_bind_ok h
  obtain ⟨current, hc, h⟩ := except_bind_ok h
  obtain ⟨lines, hl, h⟩ := except_bind_ok h
  cases h
  exact ⟨(planned_lines hc hl).2, rfl⟩

/-- What a planned change asks for. -/
theorem planCredential_ok {request : ProviderCredentialSetRequest} {apiKey : Option Text}
    {source targetSource : Option CredentialSource}
    (h : planCredential request apiKey source s = .ok (some (target, targetSource))) :
    ReadableSecret s ∧ target.existed = true ∧
      (request.action = .delete ∧ targetSource = source ∧
          UserSecretStore.planDelete (providerEnvironmentVariable request.provider) s =
            .ok (target, true) ∨
        request.action ≠ .delete ∧ targetSource = some .awesome ∧ ∃ value, apiKey = some value ∧
          UserSecretStore.planSet (providerEnvironmentVariable request.provider) value s =
            .ok target) := by
  unfold planCredential at h
  dsimp only at h
  split at h
  next ha =>
    obtain ⟨⟨t, changed⟩, hplan, h⟩ := except_bind_ok h
    cases changed with
    | false => cases h
    | true =>
      cases h
      obtain ⟨hr, he⟩ := planDelete_ok hplan
      exact ⟨hr, he, Or.inl ⟨ha, rfl, hplan⟩⟩
  next ha =>
    cases apiKey with
    | none => cases h
    | some value =>
      obtain ⟨t, hplan, h⟩ := except_bind_ok h
      cases h
      obtain ⟨hr, he⟩ := planSet_ok hplan
      exact ⟨hr, he, Or.inr ⟨ha, rfl, value, rfl, hplan⟩⟩

section Digest

variable [ContentHash]

/-- Check that source and secret file are at one end of a transaction. -/
def verifyCredentialTransactionState (record : ProviderCredentialTransactionRecord)
    (useTarget : Bool) : ProviderProc Unit := do
  let expected := if useTarget then record.targetSource else record.previousSource
  let document ← UserConfigWriter.read
  if document.credentials.source record.service ≠ expected then
    throw (.runtimeError "Provider credential source verification failed.")
  let current ← UserSecretStore.snapshot
  if (if useTarget then record.matchesTarget current
      else record.matchesPrevious current) = false then
    throw (.runtimeError "Provider credential file verification failed.")

/-- Bring the secret file to the end that the journal calls for, and report the source of
that end. -/
def reconcileSecret (record : ProviderCredentialTransactionRecord) (useTarget : Bool) :
    ProviderProc (Option CredentialSource) := do
  let current ← UserSecretStore.snapshot
  if useTarget then
    if record.matchesTarget current = false then
      throw (.runtimeError "Committed Provider credential state cannot be verified.")
    return record.targetSource
  if record.matchesPrevious current = false then
    if record.matchesTarget current = false then
      throw (.runtimeError
        "Pending Provider credential state differs from both transaction endpoints.")
    let previous ← CredentialJournal.readBackup record
    UserSecretStore.restore previous
  return record.previousSource

/-- Bring secret file and source to the end that the journal calls for. -/
def reconcileRecord (record : ProviderCredentialTransactionRecord) : ProviderProc Unit := do
  let useTarget := decide (record.phase = .committed)
  let source ← reconcileSecret record useTarget
  writeCredentialSource record.service source
  verifyCredentialTransactionState record useTarget
  CredentialJournal.clear record

/-- Reconcile one credential transaction that a crash interrupted. -/
def reconcileProviderCredentialTransaction : ProviderProc Bool :=
  Proc.mapFault (fun fault => .recoveryRequired fault ["credential_reconcile"]) do
    match ← CredentialJournal.read with
    | none => CredentialJournal.clearOrphanBackup
    | some record =>
        reconcileRecord record
        return true

variable {Snapshot : Type}

/-- Write the secret file of a request. -/
def writeSecret (request : ProviderCredentialSetRequest) (apiKey : Option Text)
    (record : ProviderCredentialTransactionRecord) : ProviderProc Unit := do
  if request.action = .delete then
    if !(← UserSecretStore.delete record.environmentVariable) then
      throw (.runtimeError "Provider credential disappeared before deletion.")
  else
    match apiKey with
    | none => throw .assertionError
    | some value => UserSecretStore.set record.environmentVariable value

/-- The journaled part of a credential change, up to its commit. -/
def commitCredential (load : ProviderState → Except ProviderFault Snapshot)
    (request : ProviderCredentialSetRequest) (apiKey : Option Text)
    (previousEnv targetEnv : SecretFileSnapshot)
    (record : ProviderCredentialTransactionRecord) :
    ProviderProc (ProviderCredentialTransactionRecord × Snapshot) := do
  CredentialJournal.stageBackup previousEnv
  let prepared ← CredentialJournal.prepare record
  writeSecret request apiKey record
  if (← UserSecretStore.snapshot) ≠ targetEnv then
    throw (.runtimeError "Provider credential write verification failed.")
  let secretCommitted ← CredentialJournal.markSecretCommitted prepared
  writeCredentialSource request.provider record.targetSource
  let snapshot ← readFile load
  verifyCredentialTransactionState secretCommitted true
  let committed ← CredentialJournal.markCommitted secretCommitted
  return (committed, snapshot)

/-- What a failed credential change does before it reports the failure. -/
def recoverCredential (load : ProviderState → Except ProviderFault Snapshot)
    (prepared : ProviderCredentialTransactionRecord) (reachedCommit : Bool)
    (primary : ProviderFault) : ProviderProc Snapshot := do
  let recovered ← Proc.attempt do
    let current ← CredentialJournal.read
    let durableCommit := reachedCommit || current.any fun r => decide (r.phase = .committed)
    let _ ← reconcileProviderCredentialTransaction
    if durableCommit then
      verifyCredentialTransactionState prepared true
      return some (← readFile load)
    return none
  match recovered with
  | .ok (some snapshot) => return snapshot
  | .ok none => throw primary
  | .error _ => fenceAndRaise primary ["credential_recovery"]

/-- Persist a credential change. -/
def persistCredentialTransaction (load : ProviderState → Except ProviderFault Snapshot)
    (request : ProviderCredentialSetRequest) (apiKey : Option Text) : ProviderProc Snapshot := do
  requireConsistentLocked
  let previousDocument ← UserConfigWriter.read
  let previousSource := previousDocument.credentials.source request.provider
  let previousEnv ← UserSecretStore.snapshot
  match ← readFile (planCredential request apiKey previousSource) with
  | none => readFile load
  | some (targetEnv, targetSource) =>
      let prepared ← Scripted.read .osError fun _ =>
        ProviderCredentialTransactionRecord.validate
          { phase := .prepared
            service := request.provider
            environmentVariable := providerEnvironmentVariable request.provider
            action := request.action
            previousSource := previousSource
            targetSource := targetSource
            previousEnvExisted := previousEnv.existed
            previousEnvSha256 := ContentHash.sha256 previousEnv.content
            targetEnvExisted := targetEnv.existed
            targetEnvSha256 := ContentHash.sha256 targetEnv.content }
      match ← Proc.attempt
          (commitCredential load request apiKey previousEnv targetEnv prepared) with
      | .error primary => recoverCredential load prepared false primary
      | .ok (committed, snapshot) =>
          match ← Proc.attempt (CredentialJournal.clear committed) with
          | .ok _ => return snapshot
          | .error primary => recoverCredential load prepared true primary

end Digest

end AwesomeAgent
