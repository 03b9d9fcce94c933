import AwesomeAgent.Providers.CredentialRecovery
import AwesomeAgent.Providers.ModelRecovery

/-!
# Persisting a model change

The steps of a model change inside its database transaction. Failures are
undone there or leave a journal from which a startup can recover.
-/

namespace AwesomeAgent

variable {s₀ x : ProviderState} {threadId model : String}

/-- User default and Threads as before the change. -/
def ModelPrevious (s₀ s : ProviderState) : Prop :=
  s.config = s₀.config ∧ s.threads = s₀.threads

/-- A change that gives a Thread and the user default a model. -/
structure ModelChange.Changes (ch : ModelChange s₀) (threadId model : String) : Prop where
  thread : ch.record.threadId = threadId
  default : ch.record.targetDefaultModel = model
  target : ch.record.targetThreadModel = model

/-- The states of a service that changes a model: untouched, or in a position of its change,
with attempts that tell how far it came. -/
def Serving (s₀ : ProviderState) (threadId model : String) (s : ProviderState) : Prop :=
  s.modelJournal = none ∧ ModelPrevious s₀ s ∧ s.attempts.committed = none ∨
    ∃ ch : ModelChange s₀, ch.Changes threadId model ∧ ch.Position s ∧
      (s.attempts.prepared = none → ModelPrevious s₀ s) ∧
      ∀ p ∈ s.attempts.committed, p.record = ch.committedRecord ∧ p.model = model

/-- A rollback is reported with the record of the change. -/
def RollbackKnown (s₀ : ProviderState) (threadId model : String) (e : ProviderFault)
    (s : ProviderState) : Prop :=
  match e with
  | .modelTransactionRolledBack _ record =>
      ∃ ch : ModelChange s₀, ch.Changes threadId model ∧ record = ch.record ∧ ch.Position s
  | _ => True

namespace ModelChange

variable {ch : ModelChange s₀}

/-- A change under way before its commit in the journal. -/
structure Applying (ch : ModelChange s₀) (s : ProviderState) : Prop where
  journal : s.modelJournal = some ch.record
  config : s.config = s₀.config ∨ s.config = ch.targetConfig
  threads : s.threads = s₀.threads
  prepared : s.attempts.prepared = some ch.record
  committed : s.attempts.committed = none

private theorem Applying.position (h : ch.Applying x) : ch.Position x := by
  unfold Position
  rw [h.journal, h.threads]
  exact .pending h.config

private theorem Applying.serving (h : ch.Applying x) (hch : ch.Changes threadId model) :
    Serving s₀ threadId model x := by
  refine Or.inr ⟨ch, hch, h.position, fun hp => ?_, fun p hp => ?_⟩
  · rw [h.prepared] at hp
    cases hp
  · rw [h.committed] at hp
    cases hp

end ModelChange

section Steps

variable {I : ProviderState → Prop} {ch : ModelChange s₀}
variable {record : ProviderModelTransactionRecord} {E : ProviderFault → ProviderState → Prop}
  {load : ProviderState → Except ProviderFault ProviderConfigurationSnapshot}
  {p : PersistedModelConfiguration}

private theorem ModelJournal.writeRecord_spec
    (hc : record.Contract) (hI : I x) (hafter : I { x with modelJournal := some record }) :
    Guarded False I (fun s => s = x) (ModelJournal.writeRecord record)
      fun _ s => s = { x with modelJournal := some record } := by
  refine Guarded.bind (Guarded.write hI hafter) fun _ => ?_
  refine Guarded.bindValue (ModelJournal.read_spec hafter ?_) ?_
  · rintro r hr
    cases hr
    exact hc
  · rw [if_neg (not_not_intro rfl)]
    exact Guarded.pure fun _ hs => hs

/-- The model of a Thread is what the open transaction sees. -/
theorem Database.readThread_noisy (hI : I x)
    (hE : E .sqliteError x) (hnone : E (.threadNotFound threadId) x) :
    Guarded False I (fun s => s = x) (Database.readThread threadId)
      (fun m s => (Database.visible x).get? threadId = some m ∧ s = x) E := by
  refine (Guarded.lookFault id hI hE ?_).post ?_
  · intro e he
    split at he
    · cases he
      exact hnone
    · cases he
  · rintro m s ⟨hm, rfl⟩
    refine ⟨?_, rfl⟩
    split at hm
    · cases hm
    next m' hget =>
      cases hm
      exact hget

/-- A check that passes has seen the required end. -/
theorem verifyModelTransactionState_noisy {useTarget : Bool} (hI : I x) :
    Guarded False I (fun s => s = x) (verifyModelTransactionState record useTarget)
      fun _ s => s = x ∧ x.config.defaultModel = record.defaultModel useTarget ∧
        (Database.visible x).get? record.threadId = some (record.threadModel useTarget) := by
  refine Guarded.bindValue (Guarded.read rfl hI) ?_
  by_cases hdefault : x.config.defaultModel = record.defaultModel useTarget
  · rw [if_neg (not_not_intro hdefault)]
    refine Guarded.bind (Database.readThread_noisy hI trivial trivial) fun m =>
      Guarded.start fun y hy => ?_
    obtain ⟨hthread, rfl⟩ := hy
    by_cases hmodel : m = record.threadModel useTarget
    · rw [if_neg (not_not_intro hmodel)]
      exact Guarded.pure fun _ hs => ⟨hs, hdefault, hmodel ▸ hthread⟩
    · rw [if_pos hmodel]
      exact Guarded.throw id fun _ hs => hs ▸ hI
  · rw [if_pos hdefault]
    exact Guarded.raise id fun _ hs => hs ▸ hI

private theorem restoreModelChange_spec (hch : ch.Changes threadId model) :
    Guarded False (Serving s₀ threadId model) ch.Applying (restoreModelChange ch.record s₀.config)
      (fun _ => ch.Applying) E := by
  have hattempt : ∀ {p : ProviderProc Unit},
      Guarded False ch.Applying ch.Applying p (fun _ => ch.Applying) →
      Guarded False (Serving s₀ threadId model) ch.Applying (Proc.attempt p)
        (fun _ => ch.Applying) E :=
    fun h => Guarded.attempt h (fun _ hs => hs.serving hch) fun _ _ _ hs => hs
  refine Guarded.bind (hattempt (Guarded.start fun x hx => ?_)) fun _ => ?_
  · have hafter : ch.Applying { x with config := s₀.config } := ⟨hx.1, Or.inl rfl, hx.3, hx.4, hx.5⟩
    exact (Guarded.write hx hafter).post fun _ _ hs => hs ▸ hafter
  refine Guarded.bind (hattempt (Guarded.start fun x hx => ?_)) fun _ => ?_
  · refine Guarded.bind (Guarded.look id hx) fun m => ?_
    refine Guarded.pre (P := fun s => s = x) ?_ fun _ hs => hs.2
    split
    · refine (Guarded.tryAdjust id hx fun y hy => ?_).post fun _ y hy => ?_
      all_goals
        split at hy
        · cases hy
        · cases hy
          exact ⟨hx.1, hx.2, hx.3, hx.4, hx.5⟩
    · exact Guarded.pure fun _ hs => hs ▸ hx
  refine Guarded.bind (hattempt (Guarded.start fun x hx => ?_)) fun _ => ?_
  · refine Guarded.bind (Guarded.look id hx) fun document => ?_
    split
    · exact Guarded.throw id fun _ hs => hs.2 ▸ hx
    · exact Guarded.pure fun _ hs => hs.2 ▸ hx
  refine Guarded.bind (hattempt (Guarded.start fun x hx => ?_)) fun _ => ?_
  · exact (verifyModelTransactionState_noisy hx).post fun _ _ hs => hs.1 ▸ hx
  exact Guarded.pure fun _ hs => hs

private theorem applyModelChange_spec (hx : ch.Applying x) (hc : x.config = s₀.config)
    (ht : x.transaction = some s₀.threads) :
    Guarded False ch.Applying (fun s => s = x) (applyModelChange load ch.record)
      fun _ s =>
        s = { x with config := ch.targetConfig, transaction := some ch.targetThreads } := by
  let y : ProviderState := { x with config := ch.targetConfig }
  let z : ProviderState := { y with transaction := some ch.targetThreads }
  have hy : ch.Applying y := ⟨hx.1, Or.inr rfl, hx.3, hx.4, hx.5⟩
  have hz : ch.Applying z := ⟨hx.1, Or.inr rfl, hx.3, hx.4, hx.5⟩
  have hwritten : { x.config with defaultModel := some ch.record.targetDefaultModel } =
      ch.targetConfig := by
    rw [hc]
    rfl
  have hpick : ∀ m ∈ some ch.record.targetDefaultModel, m ∈ curatedModels := by
    intro m hm
    cases hm
    exact ch.contract.1 _ (by simp [ProviderModelTransactionRecord.models])
  refine Guarded.bind (Q := fun _ s => s = y) ?_ fun _ => ?_
  · have hwrite := writeDefaultModel_spec (q := False) hpick hx (by rw [hwritten]; exact hy)
    rw [hwritten] at hwrite
    exact hwrite
  refine Guarded.bind (Guarded.look id hy) fun snapshot => ?_
  refine Guarded.pre (P := fun s => s = y) ?_ fun _ hs => hs.2
  have hvisible : Database.visible y = s₀.threads := by
    change x.transaction.getD x.threads = _
    rw [ht]
    rfl
  have hset : (Database.visible y).set ch.record.threadId (some ch.record.targetThreadModel) =
      ch.targetThreads := by
    rw [hvisible]
    rfl
  refine Guarded.bind (Database.setModel_spec (t := ch.targetThreads) hy hz
    ⟨_, (congrArg (·.get? ch.record.threadId) hvisible).trans ch.thread⟩ hset) fun _ => ?_
  refine Guarded.bind (verifyModelTransactionState_spec hz rfl (Dict.get?_set_self _ _ _))
    fun _ => ?_
  exact Guarded.pure fun _ hs => hs

/-- A record is announced or refused. -/
theorem prepareModelChange_spec {previousModel : Option String} (hj : x.modelJournal = none)
    (hc : x.config = s₀.config) (ht : x.threads = s₀.threads)
    (hthread : s₀.threads.get? threadId = some previousModel)
    (ha : x.attempts = ⟨none, none, none⟩) :
    Guarded False (Serving s₀ threadId model) (fun s => s = x)
      (prepareModelChange threadId model x.config previousModel)
      fun record s => ∃ ch : ModelChange s₀, ch.Changes threadId model ∧ record = ch.record ∧
        s = { x with supply := x.supply + 1, modelJournal := some ch.record } := by
  let y : ProviderState := { x with supply := x.supply + 1 }
  have hidle : ∀ n, Serving s₀ threadId model { x with supply := n } :=
    fun n => Or.inl ⟨hj, ⟨hc, ht⟩, by rw [ha]⟩
  refine Guarded.bindValue Guarded.peek ?_
  refine Guarded.bind (Q := fun _ s => s = y) Guarded.remember fun _ => ?_
  refine Guarded.bind (Guarded.look id (hidle _)) fun record => Guarded.start fun z hz => ?_
  obtain ⟨hr, rfl⟩ := hz
  obtain ⟨rfl, hcontract⟩ := ProviderModelTransactionRecord.validate_ok hr
  let ch : ModelChange s₀ :=
    { record := _
      prepared := rfl
      contract := hcontract
      previousDefault := congrArg UserConfigDocument.defaultModel hc
      thread := hthread }
  have hch : ch.Changes threadId model := ⟨rfl, rfl, rfl⟩
  have hposition : ch.Position { y with modelJournal := some ch.record } := by
    change ModelPosition ch (some ch.record) x.config x.threads
    rw [hc, ht]
    exact .pending (Or.inl rfl)
  have hpending : Serving s₀ threadId model { y with modelJournal := some ch.record } := by
    refine Or.inr ⟨ch, hch, hposition, fun _ => ⟨hc, ht⟩, fun p hp => ?_⟩
    have hp : p ∈ x.attempts.committed := hp
    rw [ha] at hp
    cases hp
  have hread : Guarded False (Serving s₀ threadId model) (fun s => s = y) ModelJournal.read
      fun b s => b = none ∧ s = y :=
    (ModelJournal.read_spec (hidle _) (fun r hr => by
      have hr : r ∈ x.modelJournal := hr
      rw [hj] at hr
      cases hr)).post fun _ _ h => ⟨h.1.trans hj, h.2⟩
  unfold ModelJournal.prepare
  rw [if_neg (not_not_intro rfl)]
  refine Guarded.bindValue hread ?_
  rw [if_neg (not_not_intro rfl)]
  refine Guarded.bind (ModelJournal.writeRecord_spec hcontract (hidle _) hpending) fun _ => ?_
  refine Guarded.pure ?_
  rintro s rfl
  exact ⟨ch, hch, rfl, rfl⟩

/-- What the persisting operation leaves for its commit. -/
def ModelChange.Persisted (ch : ModelChange s₀) (model : String)
    (p : PersistedModelConfiguration) (s : ProviderState) : Prop :=
  p.record = ch.committedRecord ∧ p.model = model ∧ s.modelJournal = some ch.committedRecord ∧
    s.config = ch.targetConfig ∧ s.threads = s₀.threads ∧
    s.transaction = some ch.targetThreads ∧ s.attempts.prepared ≠ none ∧
    s.attempts.committed = some p

/-- The commit of a persisted change leads to a position. -/
theorem ModelChange.Persisted.committed
    (h : ch.Persisted model p x) : ch.Position (Database.committed x) := by
  obtain ⟨_, _, hj, hc, _, hopen, _⟩ := h
  have hvisible : (Database.committed x).threads = ch.targetThreads := by
    rw [Database.committed, Database.visible, hopen]
    rfl
  unfold ModelChange.Position
  rw [hvisible]
  change ModelPosition ch x.modelJournal x.config _
  rw [hj, hc]
  exact .committed (Or.inr rfl)

/-- Before and after its commit a persisted change serves. -/
theorem ModelChange.Persisted.serving
    (h : ch.Persisted model p x) (hch : ch.Changes threadId model) :
    Serving s₀ threadId model x ∧ Serving s₀ threadId model (Database.committed x) := by
  have hafter := h.committed
  obtain ⟨hrecord, hmodel, hj, hc, ht, _, hprepared, hcommitted⟩ := h
  have hattempt : ∀ r ∈ x.attempts.committed, r.record = ch.committedRecord ∧ r.model = model := by
    intro r hr
    rw [hcommitted] at hr
    cases hr
    exact ⟨hrecord, hmodel⟩
  refine ⟨Or.inr ⟨ch, hch, ?_, fun h => absurd h hprepared, hattempt⟩,
    Or.inr ⟨ch, hch, hafter, fun h => absurd h hprepared, hattempt⟩⟩
  unfold ModelChange.Position
  rw [hj, hc, ht]
  exact .committed (Or.inl rfl)

/-- A change that applied is journaled as committed, or fenced. -/
private theorem commitModelChange_spec {snapshot : ProviderConfigurationSnapshot}
    (hx : ch.Applying x) (hch : ch.Changes threadId model) (hc : x.config = ch.targetConfig)
    (ht : x.transaction = some ch.targetThreads) :
    Guarded False (Serving s₀ threadId model) (fun s => s = x)
      (commitModelChange model ch.record snapshot)
      (fun p s => ch.Persisted model p s) (RollbackKnown s₀ threadId model) := by
  let y : ProviderState := { x with modelJournal := some ch.committedRecord }
  have hserving : Serving s₀ threadId model x := hx.serving hch
  have hposition : ch.Position y := by
    change ModelPosition ch (some ch.committedRecord) x.config x.threads
    rw [hc, hx.threads]
    exact .committed (Or.inl rfl)
  have hmarked : Serving s₀ threadId model y := by
    refine Or.inr ⟨ch, hch, hposition, fun hp => ?_, fun p hp => ?_⟩
    · have hp : x.attempts.prepared = none := hp
      rw [hx.prepared] at hp
      cases hp
    · have hp : p ∈ x.attempts.committed := hp
      rw [hx.committed] at hp
      cases hp
  refine Guarded.bind (Q := Caught (fun r s => r = ch.committedRecord ∧ s = y)
      fun _ s => Serving s₀ threadId model s)
    (Guarded.attempt ?_ (fun _ hs => hs) fun _ _ _ hs => hs) fun marked => ?_
  · unfold ModelJournal.markCommitted
    rw [if_neg (not_not_intro ch.prepared)]
    refine Guarded.bindValue (a := some ch.record) ((ModelJournal.read_spec hserving
      hx.position.journal).post fun _ _ h => ⟨h.1.trans hx.journal, h.2⟩) ?_
    rw [if_neg (not_not_intro rfl)]
    refine Guarded.bind (ModelJournal.writeRecord_spec ch.contract hserving hmarked) fun _ => ?_
    exact Guarded.pure fun _ hs => ⟨rfl, hs⟩
  cases marked with
  | error primary =>
    exact Guarded.start fun z hz => fenceAndRaise_spec (fun _ => hz) fun _ => trivial
  | ok committed =>
    refine Guarded.start fun z hz => ?_
    obtain ⟨rfl, rfl⟩ := hz
    refine Guarded.bind Guarded.remember fun _ => Guarded.pure ?_
    rintro s rfl
    have hprepared : x.attempts.prepared ≠ none := by
      rw [hx.prepared]
      exact Option.some_ne_none _
    exact ⟨rfl, rfl, rfl, hc, hx.threads, ht, hprepared, rfl⟩

/-- The persisting operation writes a change into the open transaction; an ordinary failure
after its announcement is a rollback. -/
theorem persistModel_spec (hj : x.modelJournal = none) (hp : ModelPrevious s₀ x)
    (ha : x.attempts = ⟨none, none, none⟩) :
    Guarded False (Serving s₀ threadId model)
      (fun s => s = { x with transaction := some x.threads }) (persistModel load threadId model)
      (fun p s => ∃ ch : ModelChange s₀, ch.Changes threadId model ∧ ch.Persisted model p s)
      (RollbackKnown s₀ threadId model) := by
  let y : ProviderState := { x with transaction := some x.threads }
  have hy : Serving s₀ threadId model y := Or.inl ⟨hj, hp, by rw [show y.attempts = _ from ha]⟩
  refine Guarded.bind (requireConsistent_spec hy (fun _ => hy) fun _ _ _ => trivial) fun _ => ?_
  refine Guarded.bindValue (a := y.config) (x := y) (Guarded.readFault rfl hy trivial) ?_
  refine Guarded.bind (Q := fun previousModel s =>
    s₀.threads.get? threadId = some previousModel ∧ s = y) ?_ fun previousModel => ?_
  · refine Guarded.post (Database.readThread_noisy hy trivial trivial) ?_
    rintro m s ⟨hm, rfl⟩
    rw [← hp.2]
    exact ⟨hm, rfl⟩
  refine Guarded.start fun z hz => ?_
  obtain ⟨hthread, rfl⟩ := hz
  refine Guarded.bind (Q := Caught (fun record s =>
        ∃ ch : ModelChange s₀, ch.Changes threadId model ∧ record = ch.record ∧
          s = { y with supply := y.supply + 1, modelJournal := some ch.record })
      fun _ s => Serving s₀ threadId model s)
    (Guarded.attempt (prepareModelChange_spec (x := y) hj hp.1 hp.2 hthread ha) (fun _ hs => hs)
      fun _ _ _ hs => hs) fun prepared => Guarded.start fun z hz => ?_
  cases prepared with
  | error primary => exact fenceAndRaise_spec (fun _ => hz) fun _ => trivial
  | ok record =>
    obtain ⟨ch, hch, rfl, rfl⟩ := hz
    refine Guarded.bind Guarded.remember fun _ => Guarded.start fun z hz => ?_
    have happlying : ch.Applying z := by
      rw [hz]
      exact ⟨rfl, Or.inl hp.1, hp.2, rfl, congrArg ModelAttempts.committed ha⟩
    have hconfig : z.config = s₀.config := by
      rw [hz]
      exact hp.1
    have hopen : z.transaction = some s₀.threads := by
      rw [hz, ← hp.2]
    refine Guarded.bind (Q := Caught (fun _ s => ch.Applying s ∧
          s.config = ch.targetConfig ∧ s.transaction = some ch.targetThreads)
        fun _ s => ch.Applying s)
      (Guarded.attempt ((applyModelChange_spec happlying hconfig hopen).post ?_)
        (fun _ hs => hs.serving hch) fun _ _ _ hs => hs) fun applied => ?_
    · rintro _ s rfl
      exact ⟨⟨happlying.1, Or.inr rfl, happlying.3, happlying.4, happlying.5⟩, rfl, rfl⟩
    cases applied with
    | ok snapshot =>
      refine Guarded.start fun u hu => ?_
      obtain ⟨hu, hc, ht⟩ := hu
      exact (commitModelChange_spec hu hch hc ht).post fun _ _ hs => ⟨ch, hch, hs⟩
    | error primary =>
      have hrestore := restoreModelChange_spec (E := RollbackKnown s₀ threadId model) hch
      rw [← hp.1] at hrestore
      refine Guarded.bind hrestore fun failures => Guarded.start fun u hu => ?_
      dsimp only
      split
      · exact Guarded.bind (fenceAndRaise_spec (Q := fun _ _ => False)
          (fun _ => hu.serving hch) fun _ => trivial) fun _ => Guarded.start fun _ h => h.elim
      · refine Guarded.bind Guarded.remember fun _ => Guarded.throwFault id ?_ ?_
        · rintro s rfl
          have hrolledBack : ch.Applying { u with attempts.rolledBack := some primary } :=
            ⟨hu.1, hu.2, hu.3, hu.4, hu.5⟩
          exact hrolledBack.serving hch
        · rintro s rfl
          exact ⟨ch, hch, rfl, hu.position⟩

end Steps

end AwesomeAgent
