import AwesomeAgent.Providers.CredentialTransaction

/-!
# Recovery of a credential change

Wherever a crash or a reported failure finds a credential change, the journal,
the backup, the secret file and the source are in one of four positions, and
from each of them a reconciliation reaches one end of the change.
-/

namespace AwesomeAgent

section Change

variable [ContentHash]

private theorem SecretFileSnapshot.of_injective {f g : Option Bytes}
    (hexisted : (SecretFileSnapshot.of f).existed = (SecretFileSnapshot.of g).existed)
    (hhash : ContentHash.sha256 (SecretFileSnapshot.of f).content =
      ContentHash.sha256 (SecretFileSnapshot.of g).content) : f = g := by
  have hcontent := ContentHash.sha256_injective hhash
  cases f <;> cases g <;> simp_all [SecretFileSnapshot.of]

/-- A credential change with its two ends. -/
structure CredentialChange (s₀ : ProviderState) where
  record : ProviderCredentialTransactionRecord
  target : Option Bytes
  targetConfig : UserConfigDocument
  prepared : record.phase = .prepared
  contract : record.Contract
  previousSource : record.previousSource = s₀.config.credentials.source record.service
  previousExisted : record.previousEnvExisted = (SecretFileSnapshot.of s₀.secretFile).existed
  previousHash : record.previousEnvSha256 =
    ContentHash.sha256 (SecretFileSnapshot.of s₀.secretFile).content
  targetExisted : record.targetEnvExisted = (SecretFileSnapshot.of target).existed
  targetHash : record.targetEnvSha256 = ContentHash.sha256 (SecretFileSnapshot.of target).content
  previousFits : ∀ b ∈ s₀.secretFile, b.length ≤ maxSecretFileBytes
  previousText : ∀ b ∈ s₀.secretFile, (decodeUtf8 b).isSome
  selected : (s₀.config.credentials.select record.service record.targetSource).map
    (fun credentials => { s₀.config with credentials := credentials }) = some targetConfig

variable {s₀ : ProviderState}

/-- Secret file and configuration as before the change. -/
def AtPrevious (s₀ s : ProviderState) : Prop :=
  s.secretFile = s₀.secretFile ∧ s.config = s₀.config

namespace CredentialChange

/-- Secret file and configuration as after the change. -/
structure AtTarget (ch : CredentialChange s₀) (s : ProviderState) : Prop where
  secretFile : s.secretFile = ch.target
  config : s.config = ch.targetConfig
  fits : ∀ b ∈ ch.target, b.length ≤ maxSecretFileBytes

/-- The secret file at either end; away from the previous one it has its backup. -/
def SecretPending (ch : CredentialChange s₀) (s : ProviderState) : Prop :=
  s.secretFile = s₀.secretFile ∨ s.secretFile = ch.target ∧
    s.credentialBackup = s₀.secretFile ∧ ∀ b ∈ ch.target, b.length ≤ maxSecretFileBytes

/-- Positions of a credential change. -/
inductive Position (ch : CredentialChange s₀) (s : ProviderState) : Prop
  | aborted : s.credentialJournal = none → AtPrevious s₀ s → Position ch s
  | pending (phase : ProviderCredentialTransactionPhase) : phase ≠ .committed →
      s.credentialJournal = some { ch.record with phase := phase } → ch.SecretPending s →
      s.config = s₀.config ∨ s.config = ch.targetConfig → Position ch s
  | committed : s.credentialJournal = some { ch.record with phase := .committed } →
      ch.AtTarget s → Position ch s
  | finished : s.credentialJournal = none → s.credentialBackup = none → ch.AtTarget s →
      Position ch s

/-- Nothing is left of the transaction, and both files are at one end. -/
def Settled (ch : CredentialChange s₀) (s : ProviderState) : Prop :=
  s.credentialJournal = none ∧ s.credentialBackup = none ∧ (AtPrevious s₀ s ∨ ch.AtTarget s)

variable {ch : CredentialChange s₀}
variable {s : ProviderState}

/-- What is settled is a position. -/
theorem Settled.position (h : ch.Settled s) : ch.Position s := by
  obtain ⟨hj, hb, hp | ht⟩ := h
  · exact .aborted hj hp
  · exact .finished hj hb ht

/-- Positions are about files alone. -/
theorem Position.reboot (h : ch.Position s) : ch.Position s.reboot := by
  cases h with
  | aborted hj hp => exact .aborted hj hp
  | pending phase hphase hj hs hc => exact .pending phase hphase hj hs hc
  | committed hj ht => exact .committed hj ⟨ht.1, ht.2, ht.3⟩
  | finished hj hb ht => exact .finished hj hb ⟨ht.1, ht.2, ht.3⟩

/-- A fence does not matter to a position. -/
theorem Position.fence {f : Option (ProviderFault × List String)} (h : ch.Position s) :
    ch.Position { s with recoveryRequired := f } := by
  cases h with
  | aborted hj hp => exact .aborted hj hp
  | pending phase hphase hj hs hc => exact .pending phase hphase hj hs hc
  | committed hj ht => exact .committed hj ⟨ht.1, ht.2, ht.3⟩
  | finished hj hb ht => exact .finished hj hb ⟨ht.1, ht.2, ht.3⟩

/-- The phase of a record is not part of its contract. -/
theorem contract_phase (ch : CredentialChange s₀) (phase : ProviderCredentialTransactionPhase) :
    ({ ch.record with phase := phase } : ProviderCredentialTransactionRecord).Contract :=
  ch.contract

private theorem matchesPrevious_iff (ch : CredentialChange s₀) (f : Option Bytes)
    (phase : ProviderCredentialTransactionPhase) :
    ({ ch.record with phase := phase } : ProviderCredentialTransactionRecord).matchesPrevious
      (SecretFileSnapshot.of f) = true ↔ f = s₀.secretFile := by
  simp only [ProviderCredentialTransactionRecord.matchesPrevious, Bool.and_eq_true, beq_iff_eq,
    ch.previousExisted, ch.previousHash]
  constructor
  · exact fun h => SecretFileSnapshot.of_injective h.1 h.2
  · rintro rfl
    exact ⟨rfl, rfl⟩

private theorem matchesTarget_iff (ch : CredentialChange s₀) (f : Option Bytes)
    (phase : ProviderCredentialTransactionPhase) :
    ({ ch.record with phase := phase } : ProviderCredentialTransactionRecord).matchesTarget
      (SecretFileSnapshot.of f) = true ↔ f = ch.target := by
  simp only [ProviderCredentialTransactionRecord.matchesTarget, Bool.and_eq_true, beq_iff_eq,
    ch.targetExisted, ch.targetHash]
  constructor
  · exact fun h => SecretFileSnapshot.of_injective h.1 h.2
  · rintro rfl
    exact ⟨rfl, rfl⟩

private theorem select_previous (ch : CredentialChange s₀) {c : UserConfigDocument}
    (hc : c = s₀.config ∨ c = ch.targetConfig) :
    (c.credentials.select ch.record.service ch.record.previousSource).map
      (fun credentials => { c with credentials := credentials }) = some s₀.config := by
  rw [ch.previousSource]
  rcases hc with rfl | rfl
  · rw [CredentialSelectionConfig.select_source]
    rfl
  · obtain ⟨d, hd, htarget⟩ := Option.map_eq_some_iff.mp ch.selected
    rw [← htarget, CredentialSelectionConfig.select_select hd
      (CredentialSelectionConfig.select_source _ _)]
    rfl

private theorem select_target (ch : CredentialChange s₀) :
    (ch.targetConfig.credentials.select ch.record.service ch.record.targetSource).map
      (fun credentials => { ch.targetConfig with credentials := credentials }) =
      some ch.targetConfig := by
  obtain ⟨d, hd, htarget⟩ := Option.map_eq_some_iff.mp ch.selected
  rw [← htarget, CredentialSelectionConfig.select_select hd hd]
  rfl

private theorem source_target (ch : CredentialChange s₀) :
    ch.targetConfig.credentials.source ch.record.service = ch.record.targetSource := by
  obtain ⟨d, hd, htarget⟩ := Option.map_eq_some_iff.mp ch.selected
  rw [← htarget]
  exact CredentialSelectionConfig.source_select hd

end CredentialChange

section Steps

variable {q : Prop} {I : ProviderState → Prop} {x : ProviderState}

omit [ContentHash] in
/-- The journal reports its record. -/
theorem CredentialJournal.read_spec (hI : I x)
    (hj : ∀ r ∈ x.credentialJournal, r.Contract) :
    Guarded q I (fun s => s = x) CredentialJournal.read
      fun b s => b = x.credentialJournal ∧ s = x := by
  refine Guarded.read ?_ hI
  cases h : x.credentialJournal with
  | none => rfl
  | some r =>
    dsimp only
    rw [if_pos (hj r h)]

omit [ContentHash] in
private theorem UserSecretStore.snapshot_spec (hI : I x)
    (hfits : ∀ b ∈ x.secretFile, b.length ≤ maxSecretFileBytes) :
    Guarded q I (fun s => s = x) UserSecretStore.snapshot
      fun b s => b = SecretFileSnapshot.of x.secretFile ∧ s = x := by
  refine Guarded.read ?_ hI
  unfold UserSecretStore.readSnapshot
  cases h : x.secretFile with
  | none => rfl
  | some content =>
    dsimp only
    rw [if_neg (Nat.not_lt.mpr (hfits content h))]
    rfl

omit [ContentHash] in
/-- Selecting a source changes the configuration alone. -/
theorem writeCredentialSource_spec {service : CredentialService}
    {source : Option CredentialSource} {c : UserConfigDocument} (hI : I x)
    (hafter : I { x with config := c })
    (hc : (x.config.credentials.select service source).map
      (fun credentials => { x.config with credentials := credentials }) = some c) :
    Guarded q I (fun s => s = x) (writeCredentialSource service source)
      fun _ s => s = { x with config := c } := by
  refine Guarded.bind (Q := fun _ s => s = { x with config := c }) ?_ fun _ =>
    Guarded.pure fun _ hs => hs
  refine Guarded.bindValue (Guarded.read rfl hI) ?_
  dsimp only
  rw [hc]
  exact Guarded.bind (Guarded.write hI hafter) fun _ => Guarded.pure fun _ hs => hs

variable {record : ProviderCredentialTransactionRecord} {E : ProviderFault → ProviderState → Prop}

private theorem verifyCredentialTransactionState_spec {useTarget : Bool} (hI : I x)
    (hfits : ∀ b ∈ x.secretFile, b.length ≤ maxSecretFileBytes)
    (hsource : x.config.credentials.source record.service =
      if useTarget then record.targetSource else record.previousSource)
    (hsecret : (if useTarget then record.matchesTarget (SecretFileSnapshot.of x.secretFile)
      else record.matchesPrevious (SecretFileSnapshot.of x.secretFile)) = true) :
    Guarded q I (fun s => s = x) (verifyCredentialTransactionState record useTarget)
      fun _ s => s = x := by
  refine Guarded.bindValue (Guarded.read rfl hI) ?_
  rw [if_neg (not_not_intro hsource)]
  refine Guarded.bindValue (UserSecretStore.snapshot_spec hI hfits) ?_
  rw [if_neg (by rw [hsecret]; decide)]
  exact Guarded.pure fun _ hs => hs

omit [ContentHash] in
/-- The backup reports whether it exists. -/
theorem CredentialJournal.backupExists_spec (hI : I x) :
    Guarded q I (fun s => s = x) CredentialJournal.backupExists
      fun b s => b = x.credentialBackup.isSome ∧ s = x :=
  Guarded.read rfl hI

omit [ContentHash] in
private theorem CredentialJournal.unlinkBackup_spec {missingOk : Bool} (hI : I x)
    (hafter : I { x with credentialBackup := none })
    (hmissing : x.credentialBackup = none → missingOk = true) :
    Guarded q I (fun s => s = x) (CredentialJournal.unlinkBackup missingOk)
      fun _ s => s = { x with credentialBackup := none } := by
  refine Guarded.bindValue (CredentialJournal.backupExists_spec hI) ?_
  cases hb : x.credentialBackup with
  | none =>
    rw [hmissing hb]
    refine Guarded.pure ?_
    rintro s rfl
    rw [← hb]
  | some raw => exact Guarded.write hI hafter

omit [ContentHash] in
private theorem CredentialJournal.clear_spec
    (hj : x.credentialJournal = some record) (hc : record.Contract) (hI : I x)
    (hbackup : I { x with credentialBackup := none })
    (hafter : I { x with credentialBackup := none, credentialJournal := none }) :
    Guarded q I (fun s => s = x) (CredentialJournal.clear record)
      fun _ s => s = { x with credentialBackup := none, credentialJournal := none } := by
  have hcontract : ∀ r ∈ x.credentialJournal, r.Contract := by
    intro r hr
    rw [hj] at hr
    cases hr
    exact hc
  refine Guarded.bindValue (CredentialJournal.read_spec hI hcontract) ?_
  rw [if_neg (not_not_intro hj)]
  refine Guarded.bind (CredentialJournal.unlinkBackup_spec hI hbackup fun _ => rfl) fun _ => ?_
  refine Guarded.bindValue (CredentialJournal.read_spec hbackup hcontract) ?_
  rw [if_neg (not_not_intro hj)]
  exact Guarded.write hbackup hafter

omit [ContentHash] in
private theorem UserSecretStore.restore_spec {f : Option Bytes} (hI : I x)
    (hafter : I { x with secretFile := f })
    (hfits : ∀ b ∈ f, b.length ≤ maxSecretFileBytes) (htext : ∀ b ∈ f, (decodeUtf8 b).isSome) :
    Guarded q I (fun s => s = x) (UserSecretStore.restore (SecretFileSnapshot.of f))
      fun _ s => s = { x with secretFile := f } := by
  cases f with
  | none =>
    refine Guarded.bindValue (Guarded.read rfl hI) ?_
    cases hx : x.secretFile with
    | none =>
      refine Guarded.pure ?_
      rintro s rfl
      rw [← hx]
    | some content => exact Guarded.write hI hafter
  | some content =>
    have hsize : ¬(SecretFileSnapshot.of (some content)).content.length > maxSecretFileBytes :=
      Nat.not_lt.mpr (hfits content rfl)
    obtain ⟨text, htext⟩ := Option.isSome_iff_exists.mp (htext content rfl)
    have hdecoded : decodeUtf8 (SecretFileSnapshot.of (some content)).content = some text := htext
    have hexisted : (SecretFileSnapshot.of (some content)).existed = true := rfl
    unfold UserSecretStore.restore
    dsimp only
    rw [if_neg hsize, if_pos hexisted, hdecoded]
    exact Guarded.write hI hafter

omit [ContentHash] in
/-- Fencing changes memory alone and requires recovery. -/
theorem fenceAndRaise_spec {α : Type} {primary : ProviderFault} {stages : List String}
    {Q : α → ProviderState → Prop}
    (hfence : ∀ f, I { x with recoveryRequired := f })
    (hE : ∀ s, E (.recoveryRequired primary stages) s) :
    Guarded False I (fun s => s = x) (fenceAndRaise primary stages) Q E :=
  Guarded.bind Guarded.remember fun _ =>
    Guarded.throwFault id (fun _ hs => hs ▸ hfence _) fun _ _ => hE _

omit [ContentHash] in
/-- Requiring consistency changes no file. -/
theorem requireConsistent_spec (hI : I x) (hfence : ∀ f, I { x with recoveryRequired := f })
    (hE : ∀ primary stages s, E (.recoveryRequired primary stages) s) :
    Guarded False I (fun s => s = x) requireConsistentLocked (fun _ s => s = x) E := by
  have hclean : Guarded False (fun s => s = x) (fun s => s = x) CredentialJournal.requireClean
      fun _ s => s = x := by
    refine Guarded.bind (Guarded.look id rfl) fun journal => ?_
    refine Guarded.pre (P := fun s => s = x) ?_ fun _ hs => hs.2
    dsimp only
    split
    · exact Guarded.raise id fun _ hs => hs
    refine Guarded.bind (CredentialJournal.backupExists_spec rfl) fun b => ?_
    split
    · exact Guarded.throw id fun _ hs => hs.2
    · exact Guarded.pure fun _ hs => hs.2
  refine Guarded.bind Guarded.peek fun failure => ?_
  refine Guarded.pre (P := fun s => s = x) ?_ fun _ hs => hs.2
  cases failure with
  | some f => exact Guarded.raiseFault id (fun _ hs => hs ▸ hI) fun _ _ => hE _ _ _
  | none =>
    refine Guarded.bind (Q := fun _ s => s = x) (Guarded.attempt (J := fun s => s = x) ?_
      (fun _ hs => hs ▸ hI) fun _ _ _ hs => hs) fun pending => ?_
    · refine Guarded.bind (Guarded.look id rfl) fun record => ?_
      refine Guarded.bind (hclean.pre fun _ hs => hs.2) fun _ => ?_
      exact Guarded.pure fun _ hs => hs
    · match pending with
      | .error f => exact fenceAndRaise_spec hfence (hE _ _)
      | .ok none => exact Guarded.pure fun _ hs => hs
      | .ok (some _) => exact fenceAndRaise_spec hfence (hE _ _)

end Steps

section Reconcile

variable {s₀ x : ProviderState} {ch : CredentialChange s₀} {q : Prop}
variable {phase : ProviderCredentialTransactionPhase} {I : ProviderState → Prop}

/-- A change at one of its ends is settled by removing its backup and its journal. -/
theorem CredentialChange.clears (hj : x.credentialJournal = some { ch.record with phase := phase })
    (hI : ch.Position x) (hbackup : ch.Position { x with credentialBackup := none })
    (hend : AtPrevious s₀ x ∨ ch.AtTarget x) :
    Guarded q ch.Position (fun s => s = x)
      (CredentialJournal.clear { ch.record with phase := phase }) fun _ => ch.Settled := by
  have hsettled : ch.Settled { x with credentialBackup := none, credentialJournal := none } := by
    refine ⟨rfl, rfl, hend.imp id fun ht => ⟨ht.1, ht.2, ht.3⟩⟩
  refine (CredentialJournal.clear_spec hj (ch.contract_phase phase) hI hbackup
    hsettled.position).post ?_
  rintro _ _ rfl
  exact hsettled

private theorem reconcile_committed
    (hj : x.credentialJournal = some { ch.record with phase := .committed })
    (ht : ch.AtTarget x) :
    Guarded q ch.Position (fun s => s = x) (reconcileRecord { ch.record with phase := .committed })
      fun _ => ch.Settled := by
  have hI : ch.Position x := .committed hj ht
  have hfits : ∀ b ∈ x.secretFile, b.length ≤ maxSecretFileBytes := ht.secretFile ▸ ht.fits
  have hmatch := (ch.matchesTarget_iff x.secretFile .committed).mpr ht.secretFile
  have hsame : { x with config := ch.targetConfig } = x := by rw [← ht.config]
  refine Guarded.bindValue (a := ch.record.targetSource) (x := x) ?_ ?_
  · refine Guarded.bindValue (UserSecretStore.snapshot_spec hI hfits) ?_
    rw [decide_eq_true rfl, if_pos rfl, if_neg (by rw [hmatch]; decide)]
    exact Guarded.pure fun _ hs => ⟨rfl, hs⟩
  · refine Guarded.bind (writeCredentialSource_spec hI (hsame.symm ▸ hI)
      (ht.config.symm ▸ ch.select_target)) fun _ => ?_
    rw [hsame]
    refine Guarded.bind (verifyCredentialTransactionState_spec hI hfits ?_ hmatch) fun _ => ?_
    · rw [ht.config]
      exact ch.source_target
    · exact ch.clears hj hI (.committed hj ⟨ht.1, ht.2, ht.3⟩) (Or.inr ht)

private theorem CredentialChange.readBackup_spec (hI : I x)
    (hb : x.credentialBackup = s₀.secretFile) :
    Guarded q I (fun s => s = x) (CredentialJournal.readBackup { ch.record with phase := phase })
      fun b s => b = SecretFileSnapshot.of s₀.secretFile ∧ s = x := by
  have hhash := ch.previousHash
  have hexisted := ch.previousExisted
  have hfits := ch.previousFits
  refine Guarded.read ?_ hI
  rw [hb]
  cases h : s₀.secretFile with
  | none =>
    rw [h] at hhash hexisted
    simp only [SecretFileSnapshot.of, Option.isSome_none, Option.getD_none] at hhash hexisted
    simp [ProviderCredentialTransactionRecord.previousSnapshot, hhash, hexisted,
      SecretFileSnapshot.of]
  | some raw =>
    rw [h] at hhash hexisted
    simp only [SecretFileSnapshot.of, Option.isSome_some, Option.getD_some] at hhash hexisted
    have hsize := Nat.not_lt.mpr (hfits raw h)
    simp [ProviderCredentialTransactionRecord.previousSnapshot, hhash, hexisted, hsize,
      SecretFileSnapshot.of]

private theorem reconcileSecret_pending (hphase : phase ≠ .committed)
    (hj : x.credentialJournal = some { ch.record with phase := phase })
    (hs : ch.SecretPending x) (hc : x.config = s₀.config ∨ x.config = ch.targetConfig) :
    Guarded q ch.Position (fun s => s = x) (reconcileSecret { ch.record with phase := phase } false)
      fun source s => source = ch.record.previousSource ∧
        s = { x with secretFile := s₀.secretFile } := by
  have hI : ch.Position x := .pending phase hphase hj hs hc
  have hfits : ∀ b ∈ x.secretFile, b.length ≤ maxSecretFileBytes := by
    rcases hs with hs | ⟨hs, _, hsize⟩
    · exact hs ▸ ch.previousFits
    · exact hs ▸ hsize
  refine Guarded.bindValue (UserSecretStore.snapshot_spec hI hfits) ?_
  dsimp only
  rw [if_neg Bool.false_ne_true]
  by_cases hprevious : x.secretFile = s₀.secretFile
  · have hmatch := (ch.matchesPrevious_iff x.secretFile phase).mpr hprevious
    rw [if_neg (by rw [hmatch]; decide)]
    refine Guarded.pure ?_
    rintro s rfl
    exact ⟨rfl, by rw [← hprevious]⟩
  · obtain ⟨htarget, hbackup, _⟩ := hs.resolve_left hprevious
    have hmatch := (ch.matchesTarget_iff x.secretFile phase).mpr htarget
    rw [if_pos (Bool.eq_false_iff.mpr fun h => hprevious ((ch.matchesPrevious_iff _ phase).mp h)),
      if_neg (by rw [hmatch]; decide)]
    refine Guarded.bindValue (ch.readBackup_spec hI hbackup) ?_
    refine Guarded.bind (UserSecretStore.restore_spec hI (.pending phase hphase hj (Or.inl rfl) hc)
      ch.previousFits ch.previousText) fun _ => Guarded.pure fun _ hs => ⟨rfl, hs⟩

private theorem reconcile_pending (hphase : phase ≠ .committed)
    (hj : x.credentialJournal = some { ch.record with phase := phase })
    (hs : ch.SecretPending x) (hc : x.config = s₀.config ∨ x.config = ch.targetConfig) :
    Guarded q ch.Position (fun s => s = x) (reconcileRecord { ch.record with phase := phase })
      fun _ => ch.Settled := by
  let y : ProviderState := { x with secretFile := s₀.secretFile }
  have hy : ch.Position y := .pending phase hphase hj (Or.inl rfl) hc
  let z : ProviderState := { y with config := s₀.config }
  have hz : ch.Position z := .pending phase hphase hj (Or.inl rfl) (Or.inl rfl)
  unfold reconcileRecord
  dsimp only
  rw [decide_eq_false hphase]
  refine Guarded.bindValue (reconcileSecret_pending hphase hj hs hc) ?_
  refine Guarded.bind (writeCredentialSource_spec hy hz (ch.select_previous hc)) fun _ => ?_
  refine Guarded.bind (verifyCredentialTransactionState_spec hz ch.previousFits
    ch.previousSource.symm ((ch.matchesPrevious_iff _ phase).mpr rfl)) fun _ => ?_
  exact ch.clears hj hz (.pending phase hphase hj (Or.inl rfl) (Or.inl rfl)) (Or.inl ⟨rfl, rfl⟩)

omit [ContentHash] in
private theorem CredentialJournal.clearOrphanBackup_spec
    (hj : x.credentialJournal = none) (hI : I x) (hafter : I { x with credentialBackup := none }) :
    Guarded q I (fun s => s = x) CredentialJournal.clearOrphanBackup
      fun _ s => s = { x with credentialBackup := none } := by
  refine Guarded.bindValue (CredentialJournal.read_spec hI (by simp [hj])) ?_
  rw [if_neg (not_not_intro hj)]
  refine Guarded.bindValue (CredentialJournal.backupExists_spec hI) ?_
  cases hb : x.credentialBackup with
  | none =>
    refine Guarded.pure ?_
    rintro s rfl
    rw [← hb]
  | some raw =>
    refine Guarded.bind (CredentialJournal.unlinkBackup_spec hI hafter fun h => ?_) fun _ =>
      Guarded.pure fun _ hs => hs
    rw [hb] at h
    cases h

/-- Without a journal a reconciliation only removes the backup. -/
theorem reconcile_nothing (hj : x.credentialJournal = none) (hI : I x)
    (hafter : I { x with credentialBackup := none }) :
    Guarded q I (fun s => s = x) reconcileProviderCredentialTransaction
      fun _ s => s = { x with credentialBackup := none } := by
  have hread : Guarded q I (fun s => s = x) CredentialJournal.read fun b s => b = none ∧ s = x :=
    (CredentialJournal.read_spec hI (by simp [hj])).post fun _ _ h => ⟨h.1.trans hj, h.2⟩
  exact Guarded.mapFault (Guarded.bindValue hread
    (CredentialJournal.clearOrphanBackup_spec hj hI hafter))

/-- A reconciliation settles a change from every position. -/
theorem CredentialChange.reconcile_spec (ch : CredentialChange s₀) (q : Prop) :
    Guarded q ch.Position ch.Position reconcileProviderCredentialTransaction
      fun _ => ch.Settled := by
  refine Guarded.start fun x hx => ?_
  have hrecord : ∀ phase, x.credentialJournal = some { ch.record with phase := phase } →
      Guarded q ch.Position (fun s => s = x) (reconcileRecord { ch.record with phase := phase })
        (fun _ => ch.Settled) →
      Guarded q ch.Position (fun s => s = x) reconcileProviderCredentialTransaction
        fun _ => ch.Settled := by
    intro phase hj hr
    have hcontract : ∀ r ∈ x.credentialJournal, r.Contract := by
      intro r hr
      rw [hj] at hr
      cases hr
      exact ch.contract
    refine Guarded.mapFault (Guarded.bindValue (CredentialJournal.read_spec hx hcontract) ?_)
    rw [hj]
    exact Guarded.bind hr fun _ => Guarded.pure fun _ hs => hs
  cases hx with
  | aborted hj hp =>
    refine (reconcile_nothing hj (.aborted hj hp) (.aborted hj hp)).post ?_
    rintro _ _ rfl
    exact ⟨hj, rfl, Or.inl hp⟩
  | finished hj hb ht =>
    have ht' : ch.AtTarget { x with credentialBackup := none } := ⟨ht.1, ht.2, ht.3⟩
    refine (reconcile_nothing hj (.finished hj hb ht) (.finished hj rfl ht')).post ?_
    rintro _ _ rfl
    exact ⟨hj, rfl, Or.inr ht'⟩
  | pending phase hphase hj hs hc => exact hrecord phase hj (reconcile_pending hphase hj hs hc)
  | committed hj ht => exact hrecord .committed hj (reconcile_committed hj ht)

end Reconcile

end Change

end AwesomeAgent
