import AwesomeAgent.Providers.ModelPersistence

/-!
# Crash atomicity of a model change

A model change spans the configuration file and the application database. The
service decides from its attempts and from the boundary what a failed commit
left; a startup decides from the journal alone. Both agree on the two ends.
-/

namespace AwesomeAgent

variable {s₀ x : ProviderState} {threadId model : String}
  {load : ProviderState → Except ProviderFault ProviderConfigurationSnapshot}

/-- An ordinary error, which does not require recovery, leaves everything as before. -/
def OrdinaryPrevious (s₀ : ProviderState) (e : ProviderFault) (s : ProviderState) : Prop :=
  e.isRecoveryRequired = false → ModelPrevious s₀ s

/-- An untouched state without a journal, or a position of a change. -/
def ModelStored (s₀ : ProviderState) (threadId model : String) (s : ProviderState) : Prop :=
  s.modelJournal = none ∧ ModelPrevious s₀ s ∨
    ∃ ch : ModelChange s₀, ch.Changes threadId model ∧ ch.Position s

private theorem Serving.stored (h : Serving s₀ threadId model x) : ModelStored s₀ threadId model x
    := by
  rcases h with ⟨hj, hp, _⟩ | ⟨ch, hch, hx, _⟩
  · exact Or.inl ⟨hj, hp⟩
  · exact Or.inr ⟨ch, hch, hx⟩

/-- A persisted change of which a position was found. -/
def ModelRecorded (s₀ : ProviderState) (threadId model : String) (p : PersistedModelConfiguration)
    (s : ProviderState) : Prop :=
  ∃ ch : ModelChange s₀, ch.Changes threadId model ∧ p.record = ch.committedRecord ∧
    p.model = model ∧ ch.Position s

namespace ModelChange

variable {ch : ModelChange s₀}

private theorem Position.values (h : ch.Position x) :
    (x.config = s₀.config ∨ x.config = ch.targetConfig) ∧
      (x.threads = s₀.threads ∨ x.threads = ch.targetThreads) := by
  by_cases hj : x.modelJournal = none
  · rcases ModelPosition.ends h hj with ⟨hc, ht⟩ | ⟨hc, ht⟩
    · exact ⟨Or.inl hc, Or.inl ht⟩
    · exact ⟨Or.inr hc, Or.inr ht⟩
  · rcases ModelPosition.journaled h hj with ⟨_, hc, ht⟩ | ⟨_, hc, ht⟩
    · exact ⟨hc, Or.inl ht⟩
    · exact ⟨Or.inr hc, ht⟩

private theorem targetConfig_eq (h : s₀.config.defaultModel = some ch.record.targetDefaultModel) :
    ch.targetConfig = s₀.config := by
  unfold targetConfig
  rw [← h]

private theorem targetThreads_eq
    (h : s₀.threads.get? ch.record.threadId = some (some ch.record.targetThreadModel)) :
    ch.targetThreads = s₀.threads :=
  Dict.set_get? _ h

private theorem Position.target (h : ch.Position x)
    (hdefault : x.config.defaultModel = ch.record.defaultModel true)
    (hthread : x.threads.get? ch.record.threadId = some (ch.record.threadModel true)) :
    x.config = ch.targetConfig ∧ x.threads = ch.targetThreads := by
  obtain ⟨hc, ht⟩ := h.values
  refine ⟨hc.elim (fun hc => ?_) id, ht.elim (fun ht => ?_) id⟩
  · rw [hc] at hdefault
    exact hc.trans (targetConfig_eq hdefault).symm
  · rw [ht] at hthread
    exact ht.trans (targetThreads_eq hthread).symm

private theorem Position.previous (h : ch.Position x)
    (hdefault : x.config.defaultModel = ch.record.defaultModel false)
    (hthread : x.threads.get? ch.record.threadId = some (ch.record.threadModel false)) :
    ModelPrevious s₀ x := by
  obtain ⟨hc, ht⟩ := h.values
  refine ⟨hc.elim id fun hc => ?_, ht.elim id fun ht => ?_⟩
  · rw [hc] at hdefault
    exact hc.trans (targetConfig_eq (ch.previousDefault.symm.trans hdefault.symm))
  · rw [ht] at hthread
    have htarget : some ch.record.targetThreadModel = ch.record.previousThreadModel :=
      Option.some.inj ((Dict.get?_set_self _ _ _).symm.trans hthread)
    exact ht.trans (targetThreads_eq (htarget ▸ ch.thread))

end ModelChange

section Service

variable {I : ProviderState → Prop} {ch : ModelChange s₀} {p : PersistedModelConfiguration}
variable {record : ProviderModelTransactionRecord} {primary : ProviderFault}

private theorem ModelJournal.observe_noisy {message : String}
    (hc : ∀ r ∈ x.modelJournal, r.Contract) (hI : I x) :
    Guarded False I (fun s => s = x) (ModelJournal.observe record message)
      fun b s => (b = x.modelJournal ∧ (b = none ∨ b = some record)) ∧ s = x := by
  refine Guarded.bindValue (ModelJournal.read_spec hI hc) ?_
  dsimp only
  split
  · exact Guarded.raise id fun _ hs => hs ▸ hI
  next h =>
    refine Guarded.pure fun _ hs => ⟨⟨rfl, ?_⟩, hs⟩
    by_cases hj : x.modelJournal = none
    · exact Or.inl hj
    · exact Or.inr (not_not.mp fun hne => h ⟨hj, hne⟩)

private theorem clearEnd_spec {message : String} {useTarget : Bool} {P : Prop} (hx : ch.Position x)
    (hend : x.config.defaultModel = record.defaultModel useTarget →
      (Database.visible x).get? record.threadId = some (record.threadModel useTarget) →
      ch.Position { x with modelJournal := none } ∧ P) :
    Guarded False ch.Position (fun s => s = x) (clearEnd record useTarget message)
      fun _ s => s = { x with modelJournal := none } ∧ P := by
  refine Guarded.bind (ModelJournal.observe_noisy hx.journal hx) fun observed =>
    Guarded.start fun y hy => ?_
  obtain ⟨⟨rfl, hobserved⟩, rfl⟩ := hy
  refine Guarded.bind (verifyModelTransactionState_noisy hx) fun _ => Guarded.start fun z hz => ?_
  obtain ⟨rfl, hdefault, hthread⟩ := hz
  obtain ⟨hafter, hP⟩ := hend hdefault hthread
  split
  next hne =>
    have hj := hobserved.resolve_left hne
    exact (ModelJournal.clear_spec hj (hx.journal record hj) hx hafter).post fun _ _ hs => ⟨hs, hP⟩
  next hnone =>
    refine Guarded.pure ?_
    rintro s rfl
    refine ⟨?_, hP⟩
    rw [← not_not.mp hnone]

private theorem raiseRecovery_spec {α : Type} {fault : ProviderFault} {stage : String}
    {Q : α → ProviderState → Prop} (hI : I x) (hfence : ∀ f, I { x with recoveryRequired := f }) :
    Guarded False I (fun s => s = x) (raiseRecovery fault primary stage) Q
      (OrdinaryPrevious s₀) := by
  unfold raiseRecovery
  split
  next h =>
    refine Guarded.throwFault id (fun _ hs => hs ▸ hI) fun s _ hordinary => ?_
    rw [h] at hordinary
    cases hordinary
  · refine fenceAndRaise_spec hfence fun s hordinary => ?_
    cases hordinary

private theorem finalizeRolledBack_spec :
    Guarded False ch.Position ch.Position (finalizeRolledBack primary ch.record)
      (fun _ s => ch.Position s ∧ ModelPrevious s₀ s) (OrdinaryPrevious s₀) := by
  refine Guarded.start fun x hx => ?_
  refine Guarded.bind (Q := fun r s => ch.Position s ∧ ∀ a, r = .ok a → ModelPrevious s₀ s)
    (Guarded.attempt (J := ch.Position) ?_ (fun _ hs => hs)
      fun _ e s hs => ⟨hs, fun a ha => by cases ha⟩) fun r => Guarded.start fun y hy => ?_
  · let y : ProviderState := { x with transaction := some x.threads }
    have hcleared : ModelPrevious s₀ x → ch.Position { y with modelJournal := none } :=
      fun hp => ModelChange.Settled.position ⟨rfl, Or.inl hp⟩
    have hverify : Guarded False ch.Position (fun s => s = y) (verifyPrevious ch.record)
        fun _ s => s = { y with modelJournal := none } ∧ ModelPrevious s₀ x := by
      refine clearEnd_spec hx fun hdefault hthread => ?_
      have hp := ModelChange.Position.previous hx hdefault hthread
      exact ⟨hcleared hp, hp⟩
    refine (Database.runWriteTransaction_spec hx (fun s t u hs => hs.memory t u) False.elim
      hverify ?_).post ?_
    · rintro _ s ⟨rfl, hp⟩
      exact ⟨hcleared hp, hcleared hp⟩
    · rintro a s ⟨t, ⟨rfl, hp⟩, rfl⟩
      exact ⟨hcleared hp, fun _ _ => hp⟩
  cases r with
  | ok a => exact Guarded.pure fun s hs => hs ▸ ⟨hy.1, hy.2 a rfl⟩
  | error fault => exact raiseRecovery_spec hy.1 fun _ => hy.1

private theorem finalizeModel_spec (hx : ch.Position x) (hp : p.record = ch.committedRecord) :
    Guarded False ch.Position (fun s => s = { x with transaction := some x.threads })
      (finalizeModel load p)
      fun _ s => s = { x with transaction := some x.threads, modelJournal := none } ∧
        x.config = ch.targetConfig ∧ x.threads = ch.targetThreads := by
  let y : ProviderState := { x with transaction := some x.threads }
  let z : ProviderState := { y with modelJournal := none }
  have hcleared : x.config = ch.targetConfig ∧ x.threads = ch.targetThreads → ch.Position z :=
    fun h => ModelChange.Settled.position ⟨rfl, Or.inr h⟩
  refine Guarded.bind (Q := fun r s => ch.Position s ∧ ∀ a, r = .ok a → s = z ∧
      x.config = ch.targetConfig ∧ x.threads = ch.targetThreads)
    (Guarded.attempt (J := ch.Position) ?_ (fun _ hs => hs)
      fun _ e s hs => ⟨hs, fun a ha => by cases ha⟩) fun r => Guarded.start fun u hu => ?_
  · refine Guarded.bind (clearEnd_spec (x := y)
      (P := x.config = ch.targetConfig ∧ x.threads = ch.targetThreads) hx
      fun hdefault hthread => ?_) fun _ => Guarded.start fun s hs => ?_
    · rw [hp] at hdefault hthread
      have ht := ModelChange.Position.target hx hdefault hthread
      exact ⟨hcleared ht, ht⟩
    · obtain ⟨rfl, ht⟩ := hs
      exact (Guarded.look id (hcleared ht)).post fun _ _ hs =>
        ⟨hs.2 ▸ hcleared ht, fun _ _ => ⟨hs.2, ht⟩⟩
  cases r with
  | ok a => exact Guarded.pure fun s hs => hs ▸ hu.2 a rfl
  | error fault => exact fenceAndRaise_spec (fun _ => hu.1) fun _ => trivial

private theorem inspectBoundary_spec (hx : ch.Position x) :
    Guarded False ch.Position (fun s => s = { x with transaction := some x.threads })
      (inspectBoundary load ch.committedRecord)
      fun r s =>
        s = { x with transaction := some x.threads } ∧ (r = none → ModelPrevious s₀ x) := by
  let y : ProviderState := { x with transaction := some x.threads }
  have hy : ch.Position y := hx
  refine Guarded.bind (ModelJournal.observe_noisy hy.journal hy) fun observed =>
    Guarded.start fun z hz => ?_
  obtain ⟨_, rfl⟩ := hz
  refine Guarded.bindValue (a := y.config) (x := y) (Guarded.read rfl hy) ?_
  refine Guarded.bind (Database.readThread_noisy hy trivial trivial) fun threadModel =>
    Guarded.start fun z hz => ?_
  obtain ⟨hthread, rfl⟩ := hz
  split
  · refine Guarded.bind (Guarded.look id hy) fun snapshot => Guarded.pure fun s hs => ⟨hs.2, ?_⟩
    exact fun h => by cases h
  split
  next h =>
    refine Guarded.pure fun s hs => ⟨hs, fun _ => ModelChange.Position.previous hx h.2.1 ?_⟩
    have hprevious : threadModel = ch.record.threadModel false := h.2.2
    exact hprevious ▸ hthread
  · exact Guarded.throw id fun _ hs => hs ▸ hy

/-- A boundary that is resolved is at the previous end or has a persisted change. -/
theorem resolveModelTransactionBoundary_spec :
    Guarded False (ModelStored s₀ threadId model) (Serving s₀ threadId model)
      (resolveModelTransactionBoundary load primary)
      (fun r s => ModelStored s₀ threadId model s ∧ match r with
        | none => ModelPrevious s₀ s
        | some p => ModelRecorded s₀ threadId model p s)
      (OrdinaryPrevious s₀) := by
  refine Guarded.start fun x hx => ?_
  refine Guarded.bindValue (a := x.attempts) (x := x) Guarded.peek ?_
  cases hcommitted : x.attempts.committed with
  | none =>
    dsimp only
    split
    next hprepared =>
      refine Guarded.pure ?_
      rintro s rfl
      refine ⟨hx.stored, ?_⟩
      rcases hx with ⟨_, hp, _⟩ | ⟨ch, _, _, hp, _⟩
      · exact hp
      · exact hp hprepared
    · exact fenceAndRaise_spec (fun _ => hx.stored) fun _ hordinary => by cases hordinary
  | some p =>
    dsimp only
    rcases hx with ⟨_, _, hnone⟩ | ⟨ch, hch, hx, _, hattempt⟩
    · rw [hnone] at hcommitted
      cases hcommitted
    obtain ⟨hrecord, hmodel⟩ := hattempt p hcommitted
    have hstored : ∀ s, ch.Position s → ModelStored s₀ threadId model s :=
      fun s hs => Or.inr ⟨ch, hch, hs⟩
    rw [hrecord]
    refine Guarded.bind (Q := fun r s => ch.Position s ∧ (r = .ok none → ModelPrevious s₀ s))
      (Guarded.attempt (J := ch.Position) ?_ hstored
        fun _ e s hs => ⟨hs, fun h => by cases h⟩) fun r => Guarded.start fun y hy => ?_
    · refine (Database.runWriteTransaction_spec hx (fun s t u hs => hs.memory t u) False.elim
        (inspectBoundary_spec hx) ?_).post ?_
      · rintro _ s ⟨rfl, _⟩
        exact ⟨hx, hx⟩
      · rintro r s ⟨t, ⟨rfl, hp⟩, rfl⟩
        exact ⟨hx, fun hr => hp (Except.ok.inj hr)⟩
    match r with
    | .error fault => exact raiseRecovery_spec (hstored y hy.1) fun _ => hstored _ hy.1
    | .ok none => exact Guarded.pure fun s hs => hs ▸ ⟨hstored y hy.1, hy.2 rfl⟩
    | .ok (some snapshot) =>
      exact Guarded.pure fun s hs => hs ▸ ⟨hstored y hy.1, ch, hch, rfl, hmodel, hy.1⟩

private theorem recoverPersist_spec {fault : ProviderFault} (hx : Serving s₀ threadId model x)
    (hknown : RollbackKnown s₀ threadId model fault x) :
    Guarded False (ModelStored s₀ threadId model) (fun s => s = x) (recoverPersist load fault)
      (fun p s => ModelRecorded s₀ threadId model p s) (OrdinaryPrevious s₀) := by
  unfold recoverPersist
  split
  next primary record =>
    obtain ⟨ch, hch, rfl, hposition⟩ := hknown
    have hstored : ∀ s, ch.Position s → ModelStored s₀ threadId model s :=
      fun s hs => Or.inr ⟨ch, hch, hs⟩
    refine Guarded.bind (Q := fun _ s => ch.Position s ∧ ModelPrevious s₀ s) ?_ fun _ => ?_
    · exact ((finalizeRolledBack_spec.pre fun s hs => hs ▸ hposition).weakenFault hstored
        fun _ _ _ h => h)
    · exact Guarded.throwFault id (fun s hs => hstored s hs.1) fun s hs _ => hs.2
  · exact Guarded.throwFault id (fun s hs => hs ▸ hx.stored) fun s hs h => by cases h
  · refine Guarded.bindValue (a := x.attempts) (x := x) Guarded.peek ?_
    split
    · exact fenceAndRaise_spec (fun _ => hx.stored) fun _ h => by cases h
    refine Guarded.bind (Q := fun r s => ModelStored s₀ threadId model s ∧ match r with
      | .ok none => ModelPrevious s₀ s
      | .ok (some p) => ModelRecorded s₀ threadId model p s
      | .error _ => True)
      (Guarded.attemptFault (F := OrdinaryPrevious s₀) ?_ (fun _ hs => hs)
        fun _ _ _ hs _ => ⟨hs, trivial⟩) fun r => Guarded.start fun y hy => ?_
    · refine (resolveModelTransactionBoundary_spec.pre fun s hs => hs ▸ hx).post ?_
      rintro (_ | p) s hs
      · exact hs
      · exact hs
    obtain ⟨hy, hr⟩ := hy
    match r, hr with
    | .error inspection, _ => exact raiseRecovery_spec hy fun _ => hy
    | .ok none, hr => exact Guarded.throwFault id (fun s hs => hs ▸ hy) fun s hs _ => hs ▸ hr
    | .ok (some p), hr => exact Guarded.pure fun s hs => hs ▸ hr

/-- User default and Thread as the request asks, everything else as before. -/
def ModelTarget (s₀ : ProviderState) (threadId model : String) (s : ProviderState) : Prop :=
  s.config = { s₀.config with defaultModel := some model } ∧
    s.threads = s₀.threads.set threadId (some model)

/-- No journal is left, and user default and Threads are both as before or both at the target. -/
def ModelSettled (s₀ : ProviderState) (threadId model : String) (s : ProviderState) : Prop :=
  s.modelJournal = none ∧ (ModelPrevious s₀ s ∨ ModelTarget s₀ threadId model s)

private theorem ModelChange.Changes.reached (h : ch.Changes threadId model)
    (hx : x.config = ch.targetConfig ∧ x.threads = ch.targetThreads) :
    ModelTarget s₀ threadId model x := by
  obtain ⟨rfl, rfl, htarget⟩ := h
  refine ⟨hx.1, ?_⟩
  rw [hx.2, ModelChange.targetThreads, htarget]

private theorem persistOrRecover_spec (hx : Serving s₀ threadId model x)
    (hj : x.modelJournal = none)
    (hp : ModelPrevious s₀ x) (ha : x.attempts = ⟨none, none, none⟩) :
    Guarded False (ModelStored s₀ threadId model) (fun s => s = x)
      (persistOrRecover load threadId model) (ModelRecorded s₀ threadId model)
      (OrdinaryPrevious s₀) := by
  refine Guarded.bind (Q := Caught (fun p s => ModelRecorded s₀ threadId model p s)
      fun e s => Serving s₀ threadId model s ∧ RollbackKnown s₀ threadId model e s)
    (Guarded.attemptFault (J := Serving s₀ threadId model) (F := RollbackKnown s₀ threadId model)
      ?_ (fun _ hs => hs.stored) fun _ _ _ hs he => ⟨hs, he⟩) fun attempted => ?_
  · refine (Database.runWriteTransaction_fault hx (fun s t u hs => hs) False.elim
      (persistModel_spec hj hp ha) ?_ ?_ fun s hs => ⟨trivial, trivial⟩).post ?_
    · rintro p s ⟨ch, hch, hs⟩
      exact hs.serving hch
    · intro e s t u he
      cases e <;> exact he
    · rintro p s ⟨t, ⟨ch, hch, ht⟩, rfl⟩
      exact ⟨ch, hch, ht.1, ht.2.1, ht.committed⟩
  cases attempted with
  | ok p => exact Guarded.pure fun _ hs => hs
  | error fault => exact Guarded.start fun y hy => recoverPersist_spec hy.1 hy.2

/-- A change that is reported as a success is at its target without a journal; an ordinary
error leaves everything as before. -/
theorem persistModelAndApply_spec (hj : s₀.modelJournal = none) :
    Guarded False (ModelStored s₀ threadId model) (fun s => s = s₀)
      (persistModelAndApply load threadId model)
      (fun m s => (m = model ∧ s.modelJournal = none ∧ ModelTarget s₀ threadId model s) ∧
        ModelStored s₀ threadId model s)
      (OrdinaryPrevious s₀) := by
  refine Guarded.bind Guarded.remember fun _ => Guarded.start fun x hx => ?_
  have hprevious : ModelPrevious s₀ x := hx ▸ ⟨rfl, rfl⟩
  have hattempts : x.attempts = ⟨none, none, none⟩ := hx ▸ rfl
  have hjournal : x.modelJournal = none := hx ▸ hj
  have hserving : Serving s₀ threadId model x :=
    Or.inl ⟨hjournal, hprevious, congrArg ModelAttempts.committed hattempts⟩
  refine Guarded.bind (persistOrRecover_spec hserving hjournal hprevious hattempts) fun p => ?_
  refine Guarded.start fun y hy => ?_
  obtain ⟨ch, hch, hrecord, hmodel, hy⟩ := hy
  have hstored : ∀ s, ch.Position s → ModelStored s₀ threadId model s :=
    fun s hs => Or.inr ⟨ch, hch, hs⟩
  refine Guarded.bind (Q := fun r s => ch.Position s ∧ ∀ a, r = .ok a → s.modelJournal = none ∧
      s.config = ch.targetConfig ∧ s.threads = ch.targetThreads)
    (Guarded.attempt (J := ch.Position) ?_ hstored
      fun _ e s hs => ⟨hs, fun a ha => by cases ha⟩) fun r => Guarded.start fun z hz => ?_
  · have hcleared : y.config = ch.targetConfig ∧ y.threads = ch.targetThreads →
        ch.Position { y with modelJournal := none } :=
      fun h => ModelChange.Settled.position ⟨rfl, Or.inr h⟩
    refine (Database.runWriteTransaction_spec hy (fun s t u hs => hs.memory t u) False.elim
      (finalizeModel_spec hy hrecord) ?_).post ?_
    · rintro _ s ⟨rfl, ht⟩
      exact ⟨hcleared ht, hcleared ht⟩
    · rintro a s ⟨t, ⟨rfl, ht⟩, rfl⟩
      exact ⟨hcleared ht, fun _ _ => ⟨rfl, ht⟩⟩
  cases r with
  | error fault => exact raiseRecovery_spec (hstored z hz.1) fun _ => hstored _ hz.1
  | ok snapshot =>
    obtain ⟨hz, hfinal⟩ := hz
    obtain ⟨hjournal, htarget⟩ := hfinal snapshot rfl
    refine Guarded.bind (Q := fun _ s => s = z) (Guarded.attempt (J := fun s => s = z) ?_
      (fun s hs => hs ▸ hstored z hz) fun _ _ _ hs => hs) fun published => ?_
    · exact Guarded.post (Guarded.look id rfl) fun _ _ hs => hs.2
    cases published with
    | error fault => exact fenceAndRaise_spec (fun _ => hstored _ hz) fun _ h => by cases h
    | ok _ =>
      exact Guarded.pure fun s hs => hs ▸ ⟨⟨hmodel, hjournal, hch.reached htarget⟩, hstored z hz⟩

/-- A change that a crash interrupted or that ended, whatever its steps did. -/
def ModelStopped (load : ProviderState → Except ProviderFault ProviderConfigurationSnapshot)
    (threadId model : String) (s₀ u : ProviderState) : Prop :=
  ∃ outcomes,
    (∃ t ∈ Proc.crashStates (persistModelAndApply load threadId model) ⟨s₀, outcomes⟩,
      t.state = u) ∨
    (Proc.final (persistModelAndApply load threadId model ⟨⟨s₀, outcomes⟩, []⟩)).state = u

private theorem ModelStopped.stored {u : ProviderState} (h : ModelStopped load threadId model s₀ u)
    (hj : s₀.modelJournal = none) : ModelStored s₀ threadId model u := by
  obtain ⟨outcomes, h⟩ := h
  have hstart : Scripted.Steady False (fun s => s = s₀) ⟨s₀, outcomes⟩ := ⟨rfl, False.elim⟩
  have hspec : Guarded False (ModelStored s₀ threadId model) (fun s => s = s₀)
      (persistModelAndApply load threadId model) _ (OrdinaryPrevious s₀) :=
    persistModelAndApply_spec hj
  rcases h with ⟨t, ht, rfl⟩ | rfl
  · rcases Triple.crashStates hspec hstart ht with rfl | ht
    · exact Or.inl ⟨hj, rfl, rfl⟩
    · exact ht
  · have hrun := hspec ⟨⟨s₀, outcomes⟩, []⟩ hstart
    cases hr : persistModelAndApply load threadId model ⟨⟨s₀, outcomes⟩, []⟩ with
    | ok m t =>
      rw [hr] at hrun
      exact hrun.1.1.2
    | error e t =>
      rw [hr] at hrun
      exact hrun.1.1.2.1

private theorem reconcile_stored (q : Prop) :
    Guarded q (ModelStored s₀ threadId model)
      (fun s => ModelStored s₀ threadId model s ∧ s.databaseUnavailable = false)
      reconcileProviderModelTransaction fun _ => ModelSettled s₀ threadId model := by
  refine Guarded.start fun x hx => ?_
  obtain ⟨hx, havailable⟩ := hx
  rcases hx with ⟨hj, hp⟩ | ⟨ch, hch, hx⟩
  · have hI : ModelStored s₀ threadId model x := Or.inl ⟨hj, hp⟩
    have hread : Guarded q (ModelStored s₀ threadId model) (fun s => s = x) ModelJournal.read
        fun b s => b = none ∧ s = x :=
      (ModelJournal.read_spec hI (by simp [hj])).post fun _ _ h => ⟨h.1.trans hj, h.2⟩
    refine Guarded.bindValue (Guarded.mapFault hread) ?_
    rw [if_pos rfl]
    exact Guarded.pure fun s hs => hs ▸ ⟨hj, Or.inl hp⟩
  · refine (((ch.reconcile_spec q).pre ?_).weaken fun s hs => Or.inr ⟨ch, hch, hs⟩).post ?_
    · rintro s rfl
      exact ⟨hx, havailable⟩
    · rintro _ s ⟨hj, hp | ht⟩
      · exact ⟨hj, Or.inl hp⟩
      · exact ⟨hj, Or.inr (hch.reached ht)⟩

/-- **Crash atomicity of a model change.** After a change that a crash or a failure stopped, and
after any number of crashes of the startup, the startup succeeds, leaves no journal, and leaves
user default and Thread both as they were or both at the target. A change that reports success is
at the target, and one that reports an ordinary error left both as they were. -/
theorem model_crash_atomic (hj : s₀.modelJournal = none) :
    (∀ u, Restarts ProviderState.reboot reconcileProviderModelTransaction
        (ModelStopped load threadId model s₀) u →
      ∃ b t, reconcileProviderModelTransaction ⟨⟨u.reboot, []⟩, []⟩ = .ok b t ∧
        ModelSettled s₀ threadId model t.now.state) ∧
    ∀ outcomes, Settles
      (fun m t => m = model ∧ t.now.state.modelJournal = none ∧
        ModelTarget s₀ threadId model t.now.state)
      (fun e t => e.isRecoveryRequired = false → ModelPrevious s₀ t.now.state)
      (persistModelAndApply load threadId model ⟨⟨s₀, outcomes⟩, []⟩) := by
  constructor
  · intro u hu
    refine hu.recovers (fun s hs => hs.stored hj) ?_ (fun _ hs => hs.1) reconcile_stored
    rintro s (⟨hj, hp⟩ | ⟨ch, hch, hs⟩)
    · exact ⟨Or.inl ⟨hj, hp⟩, rfl⟩
    · exact ⟨Or.inr ⟨ch, hch, hs⟩, rfl⟩
  · intro outcomes
    have hstart : Scripted.Steady False (fun s => s = s₀) ⟨s₀, outcomes⟩ := ⟨rfl, False.elim⟩
    exact (persistModelAndApply_spec hj _ hstart).mono (fun _ _ h => h.1.1.1)
      fun _ _ h => h.1.1.2.2

end Service

section Sample

/-- A Thread without a model and no user default. -/
def modelSample : ProviderState where
  secretFile := none
  config := ⟨none, ⟨none, none, none, .environment⟩⟩
  credentialJournal := none
  credentialBackup := none
  modelJournal := none
  threads := Dict.empty.set "thread" none
  transaction := none
  recoveryRequired := none
  databaseUnavailable := false
  attempts := ⟨none, none, none⟩
  supply := 0

/-- A crash between the two writes of a change is settled. -/
theorem model_crash_atomic_commit :
    ∃ u b t, u.config ≠ modelSample.config ∧ u.threads.get? "thread" = some none ∧
      ModelStopped (fun s => .ok ⟨s.config, s.secretFile⟩) "thread" "kimi/kimi-k2.6"
        modelSample u ∧
      reconcileProviderModelTransaction ⟨⟨u.reboot, []⟩, []⟩ = .ok b t ∧
      ModelSettled modelSample "thread" "kimi/kimi-k2.6" t.now.state := by
  let run : ProviderProc String :=
    persistModelAndApply (fun s => .ok ⟨s.config, s.secretFile⟩) "thread" "kimi/kimi-k2.6"
  obtain ⟨t, ht, hconfig, hthreads⟩ : ∃ t ∈ Proc.crashStates run ⟨modelSample, []⟩,
      t.state.config ≠ modelSample.config ∧ t.state.threads.get? "thread" = some none := by
    decide
  have hu : ModelStopped _ "thread" "kimi/kimi-k2.6" modelSample t.state :=
    ⟨[], Or.inl ⟨t, ht, rfl⟩⟩
  obtain ⟨b, v, hrun, hv⟩ := (model_crash_atomic rfl).1 t.state (.crash hu)
  exact ⟨t.state, b, v, hconfig, hthreads, hu, hrun, hv⟩

end Sample

end AwesomeAgent
