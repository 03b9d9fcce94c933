import AwesomeAgent.Providers.CredentialRecovery

/-!
# Crash atomicity of a credential change

Each step of a credential change leads from one position of the change to the
next, whether it is done, fails, or takes effect and is reported as failed.
-/

namespace AwesomeAgent

section Steps

variable {I : ProviderState → Prop} {x : ProviderState}

private theorem UserSecretStore.restore_noisy {target : SecretFileSnapshot} (hI : I x)
    (hafter : target.content.length ≤ maxSecretFileBytes → I { x with secretFile := target.file }) :
    Guarded False I (fun s => s = x) (UserSecretStore.restore target)
      fun _ s => s = { x with secretFile := target.file } ∧
        target.content.length ≤ maxSecretFileBytes := by
  unfold UserSecretStore.restore
  dsimp only
  split
  · exact Guarded.raise id fun _ hs => hs ▸ hI
  next hsize =>
    have hsize := Nat.not_lt.mp hsize
    have hI' := hafter hsize
    unfold SecretFileSnapshot.file at hI' ⊢
    split
    next he =>
      rw [if_pos he] at hI'
      split
      · exact Guarded.throw id fun _ hs => hs ▸ hI
      · exact (Guarded.write hI hI').post fun _ _ hs => ⟨hs, hsize⟩
    next he =>
      rw [if_neg he] at hI'
      refine Guarded.bindValue (Guarded.read rfl hI) ?_
      cases hx : x.secretFile with
      | none =>
        refine Guarded.pure ?_
        rintro s rfl
        exact ⟨by rw [← hx], hsize⟩
      | some content => exact (Guarded.write hI hI').post fun _ _ hs => ⟨hs, hsize⟩

variable {record : ProviderCredentialTransactionRecord}

private theorem CredentialJournal.writeRecord_spec
    (hc : record.Contract) (hI : I x) (hafter : I { x with credentialJournal := some record }) :
    Guarded False I (fun s => s = x) (CredentialJournal.writeRecord record)
      fun _ s => s = { x with credentialJournal := some record } := by
  refine Guarded.bind (Guarded.write hI hafter) fun _ => ?_
  refine Guarded.bindValue (CredentialJournal.read_spec hafter ?_) ?_
  · rintro r hr
    cases hr
    exact hc
  · rw [if_neg (not_not_intro rfl)]
    exact Guarded.pure fun _ hs => hs

private theorem CredentialJournal.advance_spec
    {phase : ProviderCredentialTransactionPhase} (hj : x.credentialJournal = some record)
    (hc : record.Contract) (hI : I x)
    (hafter : I { x with credentialJournal := some { record with phase := phase } }) :
    Guarded False I (fun s => s = x) (CredentialJournal.advance record phase)
      fun r s => r = { record with phase := phase } ∧
        s = { x with credentialJournal := some { record with phase := phase } } := by
  refine Guarded.bindValue (CredentialJournal.read_spec hI ?_) ?_
  · rintro r hr
    rw [hj] at hr
    cases hr
    exact hc
  · rw [if_neg (not_not_intro hj)]
    exact Guarded.bind (CredentialJournal.writeRecord_spec hc hI hafter) fun _ =>
      Guarded.pure fun _ hs => ⟨rfl, hs⟩

private theorem CredentialJournal.stageBackup_spec {snapshot : SecretFileSnapshot}
    (hj : x.credentialJournal = none) (hb : x.credentialBackup = none) (hI : I x)
    (hafter : I { x with credentialBackup := snapshot.file }) :
    Guarded False I (fun s => s = x) (CredentialJournal.stageBackup snapshot)
      fun _ s => s = { x with credentialBackup := snapshot.file } := by
  refine Guarded.bindValue (CredentialJournal.read_spec hI (by simp [hj])) ?_
  rw [if_neg (not_not_intro hj)]
  refine Guarded.bindValue (CredentialJournal.backupExists_spec hI) ?_
  rw [hb, if_neg (by decide)]
  unfold SecretFileSnapshot.file at hafter ⊢
  split
  next he =>
    rw [if_pos he] at hafter
    dsimp only
    split
    · exact Guarded.raise id fun _ hs => hs ▸ hI
    · exact Guarded.write hI hafter
  next he =>
    refine Guarded.pure ?_
    rintro s rfl
    rw [← hb]

section Digest

variable [ContentHash]
variable {record : ProviderCredentialTransactionRecord}

private theorem CredentialJournal.prepare_spec
    (hj : x.credentialJournal = none) (hphase : record.phase = .prepared) (hc : record.Contract)
    (hI : I x) (hafter : I { x with credentialJournal := some record }) :
    Guarded False I (fun s => s = x) (CredentialJournal.prepare record)
      fun r s => r = record ∧ s = { x with credentialJournal := some record } := by
  have hverify : Guarded False I (fun s => s = x) (CredentialJournal.verifyStagedBackup record)
      fun _ s => s = x := by
    unfold CredentialJournal.verifyStagedBackup
    split
    · exact Guarded.bind (Guarded.look id hI) fun _ => Guarded.pure fun _ hs => hs.2
    · refine Guarded.bindValue (CredentialJournal.backupExists_spec hI) ?_
      split
      · exact Guarded.throw id fun _ hs => hs ▸ hI
      · exact Guarded.pure fun _ hs => hs
  unfold CredentialJournal.prepare
  rw [if_neg (not_not_intro hphase)]
  refine Guarded.bindValue (CredentialJournal.read_spec hI (by simp [hj])) ?_
  rw [if_neg (not_not_intro hj)]
  refine Guarded.bind hverify fun _ => ?_
  exact Guarded.bind (CredentialJournal.writeRecord_spec hc hI hafter) fun _ =>
    Guarded.pure fun _ hs => ⟨rfl, hs⟩

private theorem verifyCredentialTransactionState_noisy {useTarget : Bool} (hI : I x) :
    Guarded False I (fun s => s = x) (verifyCredentialTransactionState record useTarget)
      fun _ s => s = x := by
  refine Guarded.bindValue (Guarded.read rfl hI) ?_
  by_cases hsource : x.config.credentials.source record.service =
      if useTarget then record.targetSource else record.previousSource
  · rw [if_neg (not_not_intro hsource)]
    refine Guarded.bind (Guarded.look id hI) fun current => ?_
    by_cases hmatch : (if useTarget then record.matchesTarget current
        else record.matchesPrevious current) = false
    · rw [if_pos hmatch]
      exact Guarded.throw id fun _ hs => hs.2 ▸ hI
    · rw [if_neg hmatch]
      exact Guarded.pure fun _ hs => hs.2
  · rw [if_pos hsource]
    exact Guarded.raise id fun _ hs => hs ▸ hI

end Digest

end Steps

section Persist

variable [ContentHash] {Snapshot : Type} {s₀ x : ProviderState}
  {request : ProviderCredentialSetRequest} {apiKey : Option Text}

/-- A change that carries out a request on a state. -/
structure CredentialChange.Plans (ch : CredentialChange s₀)
    (request : ProviderCredentialSetRequest) (apiKey : Option Text) (target : SecretFileSnapshot) :
    Prop where
  provider : ch.record.service = request.provider
  file : target.file = ch.target
  content : ∀ b ∈ ch.target, b = target.content
  plan : planCredential request apiKey (s₀.config.credentials.source request.provider) s₀ =
    .ok (some (target, ch.record.targetSource))

/-- The record of a planned request makes a change. -/
theorem exists_change {target : SecretFileSnapshot} {targetSource : Option CredentialSource}
    {r : ProviderCredentialTransactionRecord}
    (hplan : planCredential request apiKey (s₀.config.credentials.source request.provider) s₀ =
      .ok (some (target, targetSource)))
    (hr : ProviderCredentialTransactionRecord.validate
      { phase := .prepared
        service := request.provider
        environmentVariable := providerEnvironmentVariable request.provider
        action := request.action
        previousSource := s₀.config.credentials.source request.provider
        targetSource := targetSource
        previousEnvExisted := (SecretFileSnapshot.of s₀.secretFile).existed
        previousEnvSha256 := ContentHash.sha256 (SecretFileSnapshot.of s₀.secretFile).content
        targetEnvExisted := target.existed
        targetEnvSha256 := ContentHash.sha256 target.content } = .ok r) :
    ∃ ch : CredentialChange s₀, ch.record = r ∧ ch.Plans request apiKey target := by
  obtain ⟨rfl, hcontract⟩ := ProviderCredentialTransactionRecord.validate_ok hr
  obtain ⟨hreadable, hexisted, hsource⟩ := planCredential_ok hplan
  have htarget : SecretFileSnapshot.of target.file = target := by
    rw [SecretFileSnapshot.file, if_pos hexisted]
    exact congrArg (SecretFileSnapshot.mk · target.content) hexisted.symm
  have hselect : ∃ c, s₀.config.credentials.select request.provider targetSource = some c := by
    rcases hsource with ⟨_, rfl, _⟩ | ⟨_, rfl, _⟩
    · exact ⟨_, CredentialSelectionConfig.select_source _ _⟩
    · cases request.provider <;> exact ⟨_, rfl⟩
  obtain ⟨c, hc⟩ := hselect
  refine ⟨{
    record := _
    target := target.file
    targetConfig := { s₀.config with credentials := c }
    prepared := rfl
    contract := hcontract
    previousSource := rfl
    previousExisted := rfl
    previousHash := rfl
    targetExisted := congrArg SecretFileSnapshot.existed htarget.symm
    targetHash := by rw [htarget]
    previousFits := fun b hb => (hreadable b hb).1
    previousText := fun b hb => (hreadable b hb).2
    selected := by rw [hc]; rfl }, rfl, rfl, rfl, ?_, hplan⟩
  intro b hb
  change b ∈ target.file at hb
  rw [SecretFileSnapshot.file, if_pos hexisted] at hb
  cases hb
  rfl

namespace CredentialChange

variable {ch : CredentialChange s₀} {target : SecretFileSnapshot}

private theorem writeSecret_spec (h : ch.Plans request apiKey target)
    (hj : x.credentialJournal = some ch.record) (hs : x.secretFile = s₀.secretFile)
    (hb : x.credentialBackup = s₀.secretFile) (hc : x.config = s₀.config) :
    Guarded False ch.Position (fun s => s = x) (writeSecret request apiKey ch.record)
      fun _ s => s = { x with secretFile := ch.target } ∧
        ∀ b ∈ ch.target, b.length ≤ maxSecretFileBytes := by
  have hphase : ch.record = { ch.record with phase := .prepared } := by rw [← ch.prepared]
  have hj' : x.credentialJournal = some { ch.record with phase := .prepared } := hphase ▸ hj
  have hI : ch.Position x := .pending .prepared (by decide) hj' (Or.inl hs) (Or.inl hc)
  have hfits : target.content.length ≤ maxSecretFileBytes →
      ∀ b ∈ ch.target, b.length ≤ maxSecretFileBytes := by
    intro hsize b hb'
    rw [h.content b hb']
    exact hsize
  have hrestore : Guarded False ch.Position (fun s => s = x) (UserSecretStore.restore target)
      fun _ s => s = { x with secretFile := ch.target } ∧
        ∀ b ∈ ch.target, b.length ≤ maxSecretFileBytes := by
    rw [← h.file]
    refine (UserSecretStore.restore_noisy hI fun hsize => ?_).post fun _ s hs =>
      ⟨hs.1, h.file ▸ hfits hs.2⟩
    exact .pending .prepared (by decide) hj' (Or.inr ⟨h.file, hb, hfits hsize⟩) (Or.inl hc)
  have hname : ch.record.environmentVariable = providerEnvironmentVariable request.provider := by
    rw [ch.contract.1, h.provider]
  unfold writeSecret
  rw [hname]
  rcases (planCredential_ok h.plan).2.2 with ⟨ha, _, hplan⟩ | ⟨ha, _, value, rfl, hplan⟩
  · rw [if_pos ha]
    have hdelete : Guarded False ch.Position (fun s => s = x)
        (UserSecretStore.delete (providerEnvironmentVariable request.provider))
        fun b s => b = true ∧ s = { x with secretFile := ch.target } ∧
          ∀ b ∈ ch.target, b.length ≤ maxSecretFileBytes := by
      refine Guarded.bindValue (Guarded.read ((planDelete_congr hs).trans hplan) hI) ?_
      exact Guarded.bind hrestore fun _ => Guarded.pure fun _ hs => ⟨rfl, hs⟩
    refine Guarded.bind hdelete fun b => Guarded.start fun y hy => ?_
    obtain ⟨rfl, hy⟩ := hy
    refine Guarded.pure ?_
    rintro s rfl
    exact hy
  · rw [if_neg ha]
    exact Guarded.bindValue (Guarded.read ((planSet_congr hs).trans hplan) hI) hrestore

variable {load : ProviderState → Except ProviderFault Snapshot}

/-- A committed change is at its target; otherwise it stays in some position. -/
theorem commit_spec (h : ch.Plans request apiKey target) (hj : s₀.credentialJournal = none)
    (hb : s₀.credentialBackup = none) :
    Guarded False ch.Position (fun s => s = s₀)
      (commitCredential load request apiKey (SecretFileSnapshot.of s₀.secretFile) target ch.record)
      fun r s => r.1 = { ch.record with phase := .committed } ∧
        s.credentialJournal = some r.1 ∧ ch.AtTarget s := by
  let staged : ProviderState := { s₀ with credentialBackup := s₀.secretFile }
  let prepared : ProviderState := { staged with credentialJournal := some ch.record }
  let written : ProviderState := { prepared with secretFile := ch.target }
  let advanced : ProviderState :=
    { written with credentialJournal := some { ch.record with phase := .secretCommitted } }
  let selected : ProviderState := { advanced with config := ch.targetConfig }
  let committed : ProviderState :=
    { selected with credentialJournal := some { ch.record with phase := .committed } }
  have hphase : ch.record = { ch.record with phase := .prepared } := by rw [← ch.prepared]
  have hprepared : ch.Position prepared :=
    .pending .prepared (by decide) (congrArg some hphase) (Or.inl rfl) (Or.inl rfl)
  refine Guarded.bind (Q := fun _ s => s = staged) ?_ fun _ => ?_
  · have hstage : Guarded False ch.Position (fun s => s = s₀)
        (CredentialJournal.stageBackup (SecretFileSnapshot.of s₀.secretFile)) fun _ s =>
          s = { s₀ with credentialBackup := (SecretFileSnapshot.of s₀.secretFile).file } :=
      CredentialJournal.stageBackup_spec hj hb (.aborted hj ⟨rfl, rfl⟩) (.aborted hj ⟨rfl, rfl⟩)
    rwa [SecretFileSnapshot.file_of] at hstage
  refine Guarded.bindValue (CredentialJournal.prepare_spec hj ch.prepared ch.contract
    (.aborted hj ⟨rfl, rfl⟩) hprepared) ?_
  refine Guarded.bind (writeSecret_spec (x := prepared) h rfl rfl rfl rfl) fun _ =>
    Guarded.start fun y hy => ?_
  obtain ⟨rfl, hfits⟩ := hy
  have hpending : ch.SecretPending written := Or.inr ⟨rfl, rfl, hfits⟩
  have hwritten : ch.Position written :=
    .pending .prepared (by decide) (congrArg some hphase) hpending (Or.inl rfl)
  have hadvanced : ch.Position advanced :=
    .pending .secretCommitted (by decide) rfl hpending (Or.inl rfl)
  have hselected : ch.Position selected :=
    .pending .secretCommitted (by decide) rfl hpending (Or.inr rfl)
  have htarget : ch.AtTarget committed := ⟨rfl, rfl, hfits⟩
  refine Guarded.bind (Guarded.look id hwritten) fun current => ?_
  dsimp only
  split
  · exact Guarded.raise id fun _ hs => hs.2 ▸ hwritten
  refine Guarded.pre (P := fun s => s = written) ?_ fun _ hs => hs.2
  refine Guarded.bindValue (a := { ch.record with phase := .secretCommitted }) (x := advanced)
    ?_ ?_
  · unfold CredentialJournal.markSecretCommitted
    rw [if_neg (not_not_intro ch.prepared)]
    exact CredentialJournal.advance_spec rfl ch.contract hwritten hadvanced
  refine Guarded.bind (writeCredentialSource_spec hadvanced hselected
    (h.provider ▸ ch.selected)) fun _ => ?_
  refine Guarded.bind (Guarded.look id hselected) fun snapshot => ?_
  refine Guarded.bind (Q := fun _ s => s = selected)
    ((verifyCredentialTransactionState_noisy hselected).pre fun _ hs => hs.2) fun _ => ?_
  refine Guarded.bindValue (a := { ch.record with phase := .committed }) (x := committed) ?_ ?_
  · exact CredentialJournal.advance_spec rfl (ch.contract_phase .secretCommitted) hselected
      (.committed rfl htarget)
  · refine Guarded.pure ?_
    rintro s rfl
    exact ⟨rfl, rfl, htarget⟩

private theorem recover_spec {prepared : ProviderCredentialTransactionRecord} {reachedCommit : Bool}
    {primary : ProviderFault} :
    Guarded False ch.Position ch.Position
      (recoverCredential load prepared reachedCommit primary) fun _ => ch.Position := by
  refine Guarded.bind (Q := fun _ => ch.Position) (Guarded.attempt ?_ (fun _ hs => hs)
    fun _ _ _ hs => hs)
    fun recovered => ?_
  · refine Guarded.bind (Q := fun _ => ch.Position) (Guarded.start fun x hx =>
      (Guarded.look id hx).post fun _ _ hs => hs.2 ▸ hx) fun current => ?_
    refine Guarded.bind (Q := fun _ => ch.Position)
      ((ch.reconcile_spec False).post fun _ _ hs => hs.position) fun _ => ?_
    split
    · refine Guarded.bind (Q := fun _ => ch.Position) (Guarded.start fun x hx =>
        (verifyCredentialTransactionState_noisy hx).post fun _ _ hs => hs ▸ hx) fun _ => ?_
      refine Guarded.bind (Q := fun _ => ch.Position) (Guarded.start fun x hx =>
        (Guarded.look id hx).post fun _ _ hs => hs.2 ▸ hx) fun _ => ?_
      exact Guarded.pure fun _ hs => hs
    · exact Guarded.pure fun _ hs => hs
  · match recovered with
    | .ok (some _) => exact Guarded.pure fun _ hs => hs
    | .ok none => exact Guarded.throw id fun _ hs => hs
    | .error _ =>
      refine Guarded.bind (Q := fun _ => ch.Position) (Guarded.start fun x hx =>
        Guarded.remember.post fun _ _ hs => hs ▸ hx.fence) fun _ => ?_
      exact Guarded.throw id fun _ hs => hs

end CredentialChange

/-- The positions that a request can reach: untouched, or a position of its change. -/
def RequestPosition (s₀ : ProviderState) (request : ProviderCredentialSetRequest)
    (apiKey : Option Text) (s : ProviderState) : Prop :=
  s.credentialJournal = none ∧ AtPrevious s₀ s ∨
    ∃ (ch : CredentialChange s₀) (target : SecretFileSnapshot),
      ch.Plans request apiKey target ∧ ch.Position s

/-- Neither journal nor backup is left, and secret file and configuration are both as before
the request or both as it asks. -/
def CredentialSettled (s₀ : ProviderState) (request : ProviderCredentialSetRequest)
    (apiKey : Option Text) (s : ProviderState) : Prop :=
  s.credentialJournal = none ∧ s.credentialBackup = none ∧
    (s.secretFile = s₀.secretFile ∧ s.config = s₀.config ∨
      ∃ target source credentials,
        planCredential request apiKey (s₀.config.credentials.source request.provider) s₀ =
          .ok (some (target, source)) ∧
        s₀.config.credentials.select request.provider source = some credentials ∧
        s.secretFile = target.file ∧ s.config = { s₀.config with credentials := credentials })

variable {load : ProviderState → Except ProviderFault Snapshot}

/-- A persisted request stays in its positions. -/
theorem persistCredentialTransaction_spec (hj : s₀.credentialJournal = none)
    (hb : s₀.credentialBackup = none) :
    Guarded False (RequestPosition s₀ request apiKey) (fun s => s = s₀)
      (persistCredentialTransaction load request apiKey)
      fun _ => RequestPosition s₀ request apiKey := by
  have hI : RequestPosition s₀ request apiKey s₀ := Or.inl ⟨hj, rfl, rfl⟩
  refine Guarded.bind (requireConsistent_spec hI (fun f => Or.inl ⟨hj, rfl, rfl⟩)
    fun _ _ _ => trivial) fun _ => ?_
  refine Guarded.bindValue (Guarded.read rfl hI) ?_
  refine Guarded.bind (Guarded.look id hI) fun previousEnv => Guarded.start fun y hy => ?_
  obtain ⟨hsnapshot, rfl⟩ := hy
  obtain ⟨rfl, _⟩ := readSnapshot_ok hsnapshot
  refine Guarded.bind (Guarded.look id hI) fun planned => Guarded.start fun z hz => ?_
  obtain ⟨hplan, rfl⟩ := hz
  match planned with
  | none => exact (Guarded.look id hI).post fun _ _ hs => hs.2 ▸ hI
  | some (target, source) =>
    refine Guarded.bind (Guarded.look id hI) fun r => Guarded.start fun z hz => ?_
    obtain ⟨hr, rfl⟩ := hz
    obtain ⟨ch, rfl, h⟩ := exists_change hplan hr
    have hposition : ∀ s, ch.Position s → RequestPosition z request apiKey s :=
      fun s hs => Or.inr ⟨ch, target, h, hs⟩
    have hrecover : ∀ prepared reachedCommit primary,
        Guarded False (RequestPosition z request apiKey) ch.Position
          (recoverCredential load prepared reachedCommit primary)
          fun _ => RequestPosition z request apiKey := fun _ _ _ =>
      (CredentialChange.recover_spec.weaken hposition).post fun _ => hposition
    refine Guarded.bind (Q := Caught (fun r s => r.1 = { ch.record with phase := .committed } ∧
          s.credentialJournal = some r.1 ∧ ch.AtTarget s)
        fun _ s => ch.Position s)
      (Guarded.attempt (CredentialChange.commit_spec h hj hb) hposition fun _ _ _ hs => hs)
      fun committed => ?_
    cases committed with
    | error primary => exact hrecover _ _ _
    | ok r =>
      refine Guarded.start fun u hu => ?_
      obtain ⟨hr, hjournal, ht⟩ := hu
      rw [hr] at hjournal
      obtain ⟨record, snapshot⟩ := r
      obtain rfl : record = { ch.record with phase := .committed } := hr
      have hcommitted : ch.Position u := .committed hjournal ht
      have hclear : Guarded False ch.Position (fun s => s = u)
          (CredentialJournal.clear { ch.record with phase := .committed }) fun _ => ch.Settled :=
        ch.clears hjournal hcommitted (.committed hjournal ⟨ht.1, ht.2, ht.3⟩) (Or.inr ht)
      refine Guarded.bind (Q := fun _ => ch.Position) (Guarded.attempt
        (hclear.post fun _ _ hs => hs.position) hposition fun _ _ _ hs => hs) fun cleared => ?_
      cases cleared with
      | error primary => exact hrecover _ _ _
      | ok _ => exact Guarded.pure fun s hs => hposition s hs

/-- A request that a crash interrupted, whatever its steps did. -/
def CredentialCrash (load : ProviderState → Except ProviderFault Snapshot)
    (request : ProviderCredentialSetRequest) (apiKey : Option Text) (s₀ u : ProviderState) : Prop :=
  ∃ outcomes, ∃ t ∈ Proc.crashStates (persistCredentialTransaction load request apiKey)
    ⟨s₀, outcomes⟩, t.state = u

private theorem reconcile_request (q : Prop) :
    Guarded q (RequestPosition s₀ request apiKey) (RequestPosition s₀ request apiKey)
      reconcileProviderCredentialTransaction
      fun _ => CredentialSettled s₀ request apiKey := by
  refine Guarded.start fun x hx => ?_
  rcases hx with ⟨hj, hp⟩ | ⟨ch, target, h, hx⟩
  · refine (reconcile_nothing hj (Or.inl ⟨hj, hp⟩) (Or.inl ⟨hj, hp⟩)).post ?_
    rintro _ _ rfl
    exact ⟨hj, rfl, Or.inl hp⟩
  · refine (((ch.reconcile_spec q).pre ?_).weaken fun s hs => Or.inr ⟨ch, target, h, hs⟩).post ?_
    · rintro s rfl
      exact hx
    · rintro _ s ⟨hj, hb, hp | ht⟩
      · exact ⟨hj, hb, Or.inl hp⟩
      · obtain ⟨c, hc, hconfig⟩ := Option.map_eq_some_iff.mp ch.selected
        refine ⟨hj, hb, Or.inr ⟨target, ch.record.targetSource, c, h.plan, h.provider ▸ hc, ?_, ?_⟩⟩
        · rw [ht.secretFile, h.file]
        · rw [ht.config, hconfig]

/-- **Crash atomicity of a credential change.** After a crash of a change, and after any number
of crashes of its recovery, a reconciliation succeeds, leaves neither journal nor backup, and
leaves secret file and source both as they were or both as the request asks. -/
theorem credential_crash_atomic {u : ProviderState} (hj : s₀.credentialJournal = none)
    (hb : s₀.credentialBackup = none)
    (hu : Restarts ProviderState.reboot reconcileProviderCredentialTransaction
      (CredentialCrash load request apiKey s₀) u) :
    ∃ b t, reconcileProviderCredentialTransaction ⟨⟨u.reboot, []⟩, []⟩ = .ok b t ∧
      CredentialSettled s₀ request apiKey t.now.state := by
  refine hu.recovers (I := RequestPosition s₀ request apiKey) ?_ ?_ (fun _ hs => hs)
    reconcile_request
  · rintro _ ⟨outcomes, t, ht, rfl⟩
    have hstart : Scripted.Steady False (fun s => s = s₀) ⟨s₀, outcomes⟩ := ⟨rfl, False.elim⟩
    rcases Triple.crashStates (persistCredentialTransaction_spec hj hb) hstart ht with rfl | ht
    · exact Or.inl ⟨hj, rfl, rfl⟩
    · exact ht
  · rintro s (hs | ⟨ch, target, h, hs⟩)
    · exact Or.inl hs
    · exact Or.inr ⟨ch, target, h, hs.reboot⟩

end Persist

section Sample

attribute [local instance] spelledHash

/-- A configuration without credentials and a secret file with one foreign line. -/
def credentialSample : ProviderState where
  secretFile := some (encodeUtf8 ['A', '=', '1'])
  config := ⟨none, ⟨none, none, none, .environment⟩⟩
  credentialJournal := none
  credentialBackup := none
  modelJournal := none
  threads := Dict.empty
  transaction := none
  recoveryRequired := none
  databaseUnavailable := false
  attempts := ⟨none, none, none⟩
  supply := 0

/-- A crash after the secret file was written is taken back. -/
theorem credential_crash_atomic_add :
    ∃ u b t, u.secretFile ≠ credentialSample.secretFile ∧
      CredentialCrash (fun _ => .ok ()) ⟨.kimi, .add⟩ (some ['k']) credentialSample u ∧
      reconcileProviderCredentialTransaction ⟨⟨u.reboot, []⟩, []⟩ = .ok b t ∧
      CredentialSettled credentialSample ⟨.kimi, .add⟩ (some ['k']) t.now.state := by
  let run : ProviderProc Unit :=
    persistCredentialTransaction (fun _ => .ok ()) ⟨.kimi, .add⟩ (some ['k'])
  obtain ⟨t, ht, hwritten⟩ : ∃ t ∈ Proc.crashStates run ⟨credentialSample, []⟩,
      t.state.secretFile ≠ credentialSample.secretFile := by
    decide
  have hu : CredentialCrash (fun _ => .ok ()) ⟨.kimi, .add⟩ (some ['k']) credentialSample t.state :=
    ⟨[], t, ht, rfl⟩
  obtain ⟨b, v, hrun, hv⟩ := credential_crash_atomic rfl rfl (.crash hu)
  exact ⟨t.state, b, v, hwritten, hu, hrun, hv⟩

end Sample

end AwesomeAgent
