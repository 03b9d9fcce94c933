import AwesomeAgent.Providers.ModelTransaction

/-!
# Recovery of a model change

A model change passes through four positions of journal, user default and
Threads. A reconciliation at startup reaches one end of the change from each.
-/

namespace AwesomeAgent

/-- A model change with its two ends. -/
structure ModelChange (s₀ : ProviderState) where
  record : ProviderModelTransactionRecord
  prepared : record.phase = .prepared
  contract : record.Contract
  previousDefault : record.previousDefaultModel = s₀.config.defaultModel
  thread : s₀.threads.get? record.threadId = some record.previousThreadModel

variable {s₀ : ProviderState}

namespace ModelChange

/-- The configuration after the change. -/
def targetConfig (ch : ModelChange s₀) : UserConfigDocument :=
  { s₀.config with defaultModel := some ch.record.targetDefaultModel }

/-- The Threads after the change. -/
def targetThreads (ch : ModelChange s₀) : ThreadModels :=
  s₀.threads.set ch.record.threadId (some ch.record.targetThreadModel)

/-- The record of the committed change. -/
def committedRecord (ch : ModelChange s₀) : ProviderModelTransactionRecord :=
  { ch.record with phase := .committed }

end ModelChange

/-- Positions of a model change: journal, configuration and Threads. -/
inductive ModelPosition (ch : ModelChange s₀) :
    Option ProviderModelTransactionRecord → UserConfigDocument → ThreadModels → Prop
  | idle : ModelPosition ch none s₀.config s₀.threads
  | pending {c : UserConfigDocument} : c = s₀.config ∨ c = ch.targetConfig →
      ModelPosition ch (some ch.record) c s₀.threads
  | committed {t : ThreadModels} : t = s₀.threads ∨ t = ch.targetThreads →
      ModelPosition ch (some ch.committedRecord) ch.targetConfig t
  | finished : ModelPosition ch none ch.targetConfig ch.targetThreads

variable {ch : ModelChange s₀} {j : Option ProviderModelTransactionRecord} {c : UserConfigDocument}
  {t : ThreadModels}

/-- Without a journal a change is at one of its ends. -/
theorem ModelPosition.ends (h : ModelPosition ch j c t) (hj : j = none) :
    c = s₀.config ∧ t = s₀.threads ∨ c = ch.targetConfig ∧ t = ch.targetThreads := by
  cases h with
  | idle => exact Or.inl ⟨rfl, rfl⟩
  | finished => exact Or.inr ⟨rfl, rfl⟩
  | pending _ | committed _ => cases hj

/-- With a journal a change is pending or committed. -/
theorem ModelPosition.journaled (h : ModelPosition ch j c t) (hj : j ≠ none) :
    j = some ch.record ∧ (c = s₀.config ∨ c = ch.targetConfig) ∧ t = s₀.threads ∨
      j = some ch.committedRecord ∧ c = ch.targetConfig ∧
        (t = s₀.threads ∨ t = ch.targetThreads) := by
  cases h with
  | idle | finished => exact absurd rfl hj
  | pending hc => exact Or.inl ⟨rfl, hc, rfl⟩
  | committed ht => exact Or.inr ⟨rfl, rfl, ht⟩

private theorem ModelPosition.contract (h : ModelPosition ch j c t) :
    ∀ r ∈ j, r.Contract := by
  intro r hr
  cases h with
  | idle | finished => cases hr
  | pending _ | committed _ =>
    cases hr
    exact ch.contract

namespace ModelChange

variable {ch : ModelChange s₀}

/-- The position of a state. -/
def Position (ch : ModelChange s₀) (s : ProviderState) : Prop :=
  ModelPosition ch s.modelJournal s.config s.threads

/-- No journal is left, and user default and Threads are both as before the change or both as
after it. -/
def Settled (ch : ModelChange s₀) (s : ProviderState) : Prop :=
  s.modelJournal = none ∧ (s.config = s₀.config ∧ s.threads = s₀.threads ∨
    s.config = ch.targetConfig ∧ s.threads = ch.targetThreads)

private theorem Position.settled {s : ProviderState} (h : ch.Position s)
    (hj : s.modelJournal = none) :
    ch.Settled s :=
  ⟨hj, ModelPosition.ends h hj⟩

/-- The journal of a position is a contract. -/
theorem Position.journal {s : ProviderState} (h : ch.Position s) :
    ∀ r ∈ s.modelJournal, r.Contract :=
  ModelPosition.contract h

private theorem set_target {t : ThreadModels} (h : t = s₀.threads ∨ t = ch.targetThreads) :
    t.set ch.record.threadId (some ch.record.targetThreadModel) = ch.targetThreads := by
  rcases h with rfl | rfl
  · rfl
  · exact Dict.set_set _ _ _ _

private theorem thread_at {t : ThreadModels} (h : t = s₀.threads ∨ t = ch.targetThreads) :
    ∃ model, t.get? ch.record.threadId = some model := by
  rcases h with rfl | rfl
  · exact ⟨_, ch.thread⟩
  · exact ⟨_, Dict.get?_set_self _ _ _⟩

end ModelChange

section Steps

variable {q : Prop} {I : ProviderState → Prop} {x : ProviderState}

/-- The journal reports its record. -/
theorem ModelJournal.read_spec (hI : I x) (hj : ∀ r ∈ x.modelJournal, r.Contract) :
    Guarded q I (fun s => s = x) ModelJournal.read fun b s => b = x.modelJournal ∧ s = x := by
  refine Guarded.read ?_ hI
  cases h : x.modelJournal with
  | none => rfl
  | some r =>
    dsimp only
    rw [if_pos (hj r h)]

variable {model : Option String} {record : ProviderModelTransactionRecord}
  {E : ProviderFault → ProviderState → Prop}

/-- Writing the user default changes the configuration alone. -/
theorem writeDefaultModel_spec (hm : ∀ m ∈ model, m ∈ curatedModels)
    (hI : I x) (hafter : I { x with config := { x.config with defaultModel := model } }) :
    Guarded q I (fun s => s = x) (writeDefaultModel model)
      fun _ s => s = { x with config := { x.config with defaultModel := model } } := by
  refine Guarded.bind (Q := fun _ s => s =
    { x with config := { x.config with defaultModel := model } }) ?_ fun _ =>
      Guarded.pure fun _ hs => hs
  refine Guarded.bindValue (Guarded.read rfl hI) ?_
  dsimp only
  rw [if_pos hm]
  exact Guarded.bind (Guarded.write hI hafter) fun _ => Guarded.pure fun _ hs => hs

/-- Setting the model of a Thread that is there. -/
theorem Database.setModel_spec {threadId : String} {t : ThreadModels}
    (hI : I x) (hafter : I { x with transaction := some t })
    (hthread : ∃ old, (Database.visible x).get? threadId = some old)
    (ht : (Database.visible x).set threadId model = t) :
    Guarded q I (fun s => s = x) (Database.setModel threadId model)
      fun _ s => s = { x with transaction := some t } := by
  obtain ⟨old, hold⟩ := hthread
  refine Guarded.adjust ?_ hI hafter
  rw [hold]
  dsimp only
  rw [ht]

/-- A state at the required end passes the check. -/
theorem verifyModelTransactionState_spec
    {useTarget : Bool} (hI : I x) (hdefault : x.config.defaultModel = record.defaultModel useTarget)
    (hthread : (Database.visible x).get? record.threadId = some (record.threadModel useTarget)) :
    Guarded q I (fun s => s = x) (verifyModelTransactionState record useTarget)
      fun _ s => s = x := by
  refine Guarded.bindValue (Guarded.read rfl hI) ?_
  rw [if_neg (not_not_intro hdefault)]
  have hread : Guarded q I (fun s => s = x) (Database.readThread record.threadId)
      fun b s => b = record.threadModel useTarget ∧ s = x := by
    refine Guarded.read ?_ hI
    rw [hthread]
  refine Guarded.bindValue hread ?_
  rw [if_neg (not_not_intro rfl)]
  exact Guarded.pure fun _ hs => hs

/-- Cleanup removes the journal. -/
theorem ModelJournal.clear_spec
    (hj : x.modelJournal = some record) (hc : record.Contract) (hI : I x)
    (hafter : I { x with modelJournal := none }) :
    Guarded q I (fun s => s = x) (ModelJournal.clear record)
      fun _ s => s = { x with modelJournal := none } := by
  have hcontract : ∀ r ∈ x.modelJournal, r.Contract := by
    intro r hr
    rw [hj] at hr
    cases hr
    exact hc
  refine Guarded.bindValue (ModelJournal.read_spec hI hcontract) ?_
  rw [if_neg (not_not_intro hj)]
  refine Guarded.bindValue (ModelJournal.read_spec hI hcontract) ?_
  rw [if_neg (not_not_intro hj)]
  exact Guarded.write hI hafter

private theorem ModelJournal.observe_spec {message : String}
    (hj : x.modelJournal = some record) (hc : record.Contract) (hI : I x) :
    Guarded q I (fun s => s = x) (ModelJournal.observe record message)
      fun b s => b = some record ∧ s = x := by
  refine Guarded.bindValue (ModelJournal.read_spec hI ?_) ?_
  · intro r hr
    rw [hj] at hr
    cases hr
    exact hc
  · dsimp only
    rw [if_neg fun h => h.2 hj]
    exact Guarded.pure fun _ hs => ⟨hj, hs⟩

private theorem Database.rollback_spec (hI : I x)
    (hmemory : ∀ s t u, I s → I { s with transaction := t, databaseUnavailable := u })
    (hE : ∀ s, I s → E .sqliteUnavailable s) (hq : ¬q) :
    Guarded q I (fun s => s = x) Database.rollback
      (fun _ s => s = { x with transaction := none }) E := by
  refine Guarded.bind (Q := fun r s => s = x) (Guarded.attempt (J := fun s => s = x)
    ?_ (fun _ hs => hs ▸ hI) fun _ _ _ hs => hs) fun r => ?_
  · exact Guarded.post (Guarded.look hq rfl) fun _ _ hs => hs.2
  cases r with
  | ok _ => exact Guarded.remember
  | error _ =>
    have hafter := hmemory x none true hI
    exact Guarded.bind Guarded.remember fun _ =>
      Guarded.throwFault hq (fun _ hs => hs ▸ hafter) fun _ hs => hs ▸ hE _ hafter

/-- A database transaction commits what its operation leaves, or nothing. -/
theorem Database.runWriteTransaction_fault {α : Type} {operation : ProviderProc α}
    {R : α → ProviderState → Prop} (hI : I x)
    (hmemory : ∀ s t u, I s → I { s with transaction := t, databaseUnavailable := u })
    (havailable : q → x.databaseUnavailable = false)
    (hop : Guarded q I (fun s => s = { x with transaction := some x.threads }) operation R E)
    (hcommit : ∀ a s, R a s → I s ∧ I (Database.committed s))
    (hE : ∀ e s t u, E e s → E e { s with transaction := t, databaseUnavailable := u })
    (hsqlite : ∀ s, I s → E .sqliteError s ∧ E .sqliteUnavailable s) :
    Guarded q I (fun s => s = x) (Database.runWriteTransaction operation)
      (fun a s => ∃ t, R a t ∧ s = Database.committed t) E := by
  refine Guarded.bind Guarded.peek fun unavailable => Guarded.start fun y hy => ?_
  obtain ⟨hu, rfl⟩ := hy
  dsimp only
  split
  next hunavailable =>
    refine Guarded.raiseFault (fun hq => ?_) (fun _ hs => hs ▸ hI) fun _ hs => hs ▸ (hsqlite _ hI).2
    rw [hunavailable, havailable hq] at hu
    cases hu
  refine Guarded.bindValue (Guarded.readFault rfl hI (hsqlite _ hI).1) ?_
  refine Guarded.bind Guarded.remember fun _ => ?_
  refine Guarded.bind (Q := Caught (fun a s => ∃ t, R a t ∧ s = Database.committed t)
      fun e s => ¬q ∧ I s ∧ E e s) (Guarded.attemptFault (J := I) (F := E) ?_ (fun _ hs => hs)
      fun hq e s hs he => ⟨hq, hs, he⟩) fun r => ?_
  · refine Guarded.bind hop fun a => Guarded.start fun t ht => ?_
    obtain ⟨hbefore, hafter⟩ := hcommit a t ht
    exact Guarded.bind (Guarded.writeFault hbefore hafter
      ⟨(hsqlite _ hbefore).1, (hsqlite _ hafter).1⟩) fun _ =>
      Guarded.pure fun _ hs => ⟨t, ht, hs⟩
  cases r with
  | ok a => exact Guarded.pure fun _ hs => hs
  | error e =>
    refine Guarded.start fun z hz => ?_
    obtain ⟨hq, hz, he⟩ := hz
    refine Guarded.bind Guarded.peek fun isOpen => ?_
    refine Guarded.pre (P := fun s => s = z) ?_ fun _ hs => hs.2
    split
    · refine Guarded.bind (Database.rollback_spec hz hmemory (fun s hs => (hsqlite s hs).2) hq)
        fun _ => ?_
      exact Guarded.throwFault hq (fun _ hs => hs ▸ hmemory z none z.databaseUnavailable hz)
        fun _ hs => hs ▸ hE e z none z.databaseUnavailable he
    · exact Guarded.throwFault hq (fun _ hs => hs ▸ hz) fun _ hs => hs ▸ he

/-- A write transaction keeps what its operation keeps. -/
theorem Database.runWriteTransaction_spec {α : Type} {operation : ProviderProc α}
    {R : α → ProviderState → Prop} (hI : I x)
    (hmemory : ∀ s t u, I s → I { s with transaction := t, databaseUnavailable := u })
    (havailable : q → x.databaseUnavailable = false)
    (hop : Guarded q I (fun s => s = { x with transaction := some x.threads }) operation R)
    (hcommit : ∀ a s, R a s → I s ∧ I (Database.committed s)) :
    Guarded q I (fun s => s = x) (Database.runWriteTransaction operation)
      fun a s => ∃ t, R a t ∧ s = Database.committed t :=
  runWriteTransaction_fault hI hmemory havailable hop hcommit (fun _ _ _ _ _ => trivial)
    fun _ _ => ⟨trivial, trivial⟩

end Steps

section Startup

variable {x : ProviderState} {ch : ModelChange s₀} {q : Prop}

/-- Positions are about files and committed Threads alone. -/
theorem ModelChange.Position.memory {s : ProviderState} (h : ch.Position s)
    (t : Option ThreadModels) (u : Bool) :
    ch.Position { s with transaction := t, databaseUnavailable := u } := h

private theorem ModelChange.useTarget (ch : ModelChange s₀) :
    decide (ch.record.phase = .committed) = false ∧
      decide (ch.committedRecord.phase = .committed) = true := by
  rw [ch.prepared]
  exact ⟨rfl, rfl⟩

/-- What the first startup transaction leaves for its commit, with the end it restores. -/
def ModelChange.Restored (ch : ModelChange s₀) (record : ProviderModelTransactionRecord)
    (s : ProviderState) : Prop :=
  s.modelJournal = some record ∧
    (record = ch.record ∧ s.config = s₀.config ∧ s.threads = s₀.threads ∧
        s.transaction = some s₀.threads ∨
      record = ch.committedRecord ∧ s.config = ch.targetConfig ∧
        (s.threads = s₀.threads ∨ s.threads = ch.targetThreads) ∧
        s.transaction = some ch.targetThreads)

/-- The first startup transaction restores one end of a change. -/
private theorem reconcileModel_spec (hx : ch.Position x) (hj : x.modelJournal ≠ none) :
    Guarded q ch.Position (fun s => s = { x with transaction := some x.threads }) reconcileModel
      fun r s => (∃ record, r = some record ∧ ch.Restored record s) ∧
        s.databaseUnavailable = x.databaseUnavailable := by
  let y : ProviderState := { x with transaction := some x.threads }
  have hy : ch.Position y := hx
  have hmodels := ch.contract.1
  refine Guarded.bindValue (a := x.modelJournal) (x := y)
    (Guarded.mapFault (ModelJournal.read_spec hy hy.journal)) ?_
  rcases ModelPosition.journaled hx hj with ⟨hrecord, hc, ht⟩ | ⟨hrecord, hc, ht⟩
  · rw [hrecord]
    dsimp only
    rw [ch.useTarget.1]
    let z : ProviderState := { y with config := s₀.config }
    have hz : ch.Position z := by
      change ModelPosition ch x.modelJournal s₀.config x.threads
      rw [hrecord, ht]
      exact .pending (Or.inl rfl)
    have hwritten : { y.config with defaultModel := ch.record.previousDefaultModel } =
        s₀.config := by
      change { x.config with defaultModel := ch.record.previousDefaultModel } = s₀.config
      rw [ch.previousDefault]
      rcases hc with hc | hc
      · rw [hc]
      · rw [hc]
        rfl
    have hpick : ∀ m ∈ ch.record.previousDefaultModel, m ∈ curatedModels := by
      intro m hm
      exact hmodels m (by simp [ProviderModelTransactionRecord.models, Option.mem_def.mp hm])
    refine Guarded.bind (Q := fun _ s => s = { z with transaction := some s₀.threads })
      (Guarded.mapFault ?_) fun _ => Guarded.pure ?_
    · refine Guarded.bind (Q := fun _ s => s = z) ?_ fun _ => ?_
      · refine (writeDefaultModel_spec hpick hy ?_).post ?_
        · rw [hwritten]
          exact hz
        · rintro _ s rfl
          rw [hwritten]
      · refine Guarded.bind (Database.setModel_spec (t := s₀.threads) hz hz ?_ ?_) fun _ => ?_
        · exact ⟨_, (congrArg (·.get? ch.record.threadId) ht).trans ch.thread⟩
        · change x.threads.set _ _ = _
          rw [ht]
          exact Dict.set_get? _ ch.thread
        · exact verifyModelTransactionState_spec hz ch.previousDefault.symm ch.thread
    · rintro s rfl
      exact ⟨⟨ch.record, rfl, hrecord, Or.inl ⟨rfl, rfl, ht, rfl⟩⟩, rfl⟩
  · rw [hrecord]
    dsimp only
    rw [ch.useTarget.2]
    have hwritten : { y.config with defaultModel := some ch.record.targetDefaultModel } =
        y.config := by
      change { x.config with defaultModel := some ch.record.targetDefaultModel } = x.config
      rw [hc]
      rfl
    have hsame : { y with config :=
        { y.config with defaultModel := some ch.record.targetDefaultModel } } = y := by
      rw [hwritten]
    have hpick : ∀ m ∈ some ch.record.targetDefaultModel, m ∈ curatedModels := by
      intro m hm
      cases hm
      exact hmodels _ (by simp [ProviderModelTransactionRecord.models])
    let z : ProviderState := { y with transaction := some ch.targetThreads }
    have hz : ch.Position z := hx
    refine Guarded.bind (Q := fun _ s => s = z) (Guarded.mapFault ?_) fun _ => Guarded.pure ?_
    · refine Guarded.bind (Q := fun _ s => s = y) ?_ fun _ => ?_
      · have hwrite := writeDefaultModel_spec (q := q) hpick hy (hsame.symm ▸ hy)
        rw [hsame] at hwrite
        exact hwrite
      · refine Guarded.bind (Database.setModel_spec (t := ch.targetThreads) hy hz
          (ModelChange.thread_at ht) (ModelChange.set_target ht)) fun _ => ?_
        refine verifyModelTransactionState_spec hz ?_ (Dict.get?_set_self _ _ _)
        change x.config.defaultModel = _
        rw [hc]
        rfl
    · rintro s rfl
      exact ⟨⟨ch.committedRecord, rfl, hrecord, Or.inr ⟨rfl, hc, ht, rfl⟩⟩, rfl⟩

/-- User default and Threads at the end that a record calls for. -/
def ModelChange.AtEnd (ch : ModelChange s₀) (record : ProviderModelTransactionRecord)
    (s : ProviderState) : Prop :=
  record = ch.record ∧ s.config = s₀.config ∧ s.threads = s₀.threads ∨
    record = ch.committedRecord ∧ s.config = ch.targetConfig ∧ s.threads = ch.targetThreads

variable {record : ProviderModelTransactionRecord}

private theorem ModelChange.AtEnd.position
    (h : ch.AtEnd record x) (hj : x.modelJournal = some record) : ch.Position x := by
  unfold ModelChange.Position
  rcases h with ⟨rfl, hc, ht⟩ | ⟨rfl, hc, ht⟩
  · rw [hj, hc, ht]
    exact .pending (Or.inl rfl)
  · rw [hj, hc, ht]
    exact .committed (Or.inr rfl)

private theorem ModelChange.AtEnd.settled
    (h : ch.AtEnd record x) (hj : x.modelJournal = none) : ch.Settled x :=
  ⟨hj, h.imp And.right And.right⟩

/-- What is settled is a position. -/
theorem ModelChange.Settled.position (h : ch.Settled x) : ch.Position x := by
  unfold ModelChange.Position
  rcases h with ⟨hj, ⟨hc, ht⟩ | ⟨hc, ht⟩⟩
  · rw [hj, hc, ht]
    exact .idle
  · rw [hj, hc, ht]
    exact .finished

private theorem ModelChange.Restored.committed
    (h : ch.Restored record x) : ch.Position x ∧ ch.AtEnd record (Database.committed x) ∧
      (Database.committed x).modelJournal = some record := by
  obtain ⟨hj, ⟨rfl, hc, ht, hopen⟩ | ⟨rfl, hc, ht, hopen⟩⟩ := h
  · have hvisible : (Database.committed x).threads = s₀.threads := by
      rw [Database.committed, Database.visible, hopen]
      rfl
    refine ⟨?_, Or.inl ⟨rfl, hc, hvisible⟩, hj⟩
    unfold ModelChange.Position
    rw [hj, hc, ht]
    exact .pending (Or.inl rfl)
  · have hvisible : (Database.committed x).threads = ch.targetThreads := by
      rw [Database.committed, Database.visible, hopen]
      rfl
    refine ⟨?_, Or.inr ⟨rfl, hc, hvisible⟩, hj⟩
    unfold ModelChange.Position
    rw [hj, hc]
    exact .committed ht

private theorem verifyAndClear_spec (h : ch.AtEnd record x) (hj : x.modelJournal = some record) :
    Guarded q ch.Position (fun s => s = { x with transaction := some x.threads })
      (verifyAndClear record)
      fun _ s => s = { x with transaction := some x.threads, modelJournal := none } := by
  let y : ProviderState := { x with transaction := some x.threads }
  have hy : ch.Position y := h.position hj
  have hend : ch.AtEnd record { x with modelJournal := none } := h
  have hafter : ch.Position { y with modelJournal := none } := (hend.settled rfl).position
  have hc : record.Contract := hy.journal record hj
  refine Guarded.mapFault ?_
  refine Guarded.bindValue (ModelJournal.observe_spec (x := y) hj hc hy) ?_
  have hverify : Guarded q ch.Position (fun s => s = y)
      (verifyModelTransactionState record (decide (record.phase = .committed)))
      fun _ s => s = y := by
    rcases h with ⟨rfl, hconfig, hthreads⟩ | ⟨rfl, hconfig, hthreads⟩
    · rw [ch.useTarget.1]
      refine verifyModelTransactionState_spec hy ?_ ?_
      · change x.config.defaultModel = _
        rw [hconfig]
        exact ch.previousDefault.symm
      · exact (congrArg (·.get? ch.record.threadId) hthreads).trans ch.thread
    · rw [ch.useTarget.2]
      refine verifyModelTransactionState_spec hy ?_ ?_
      · change x.config.defaultModel = _
        rw [hconfig]
        rfl
      · exact (congrArg (·.get? ch.record.threadId) hthreads).trans (Dict.get?_set_self _ _ _)
  refine Guarded.bind hverify fun _ => ?_
  exact ModelJournal.clear_spec hj hc hy hafter

/-- What a startup finds: a position of the change and a database that works. -/
def ModelChange.Started (ch : ModelChange s₀) (s : ProviderState) : Prop :=
  ch.Position s ∧ s.databaseUnavailable = false

/-- A startup settles a change from every position. -/
theorem ModelChange.reconcile_spec (ch : ModelChange s₀) (q : Prop) :
    Guarded q ch.Position ch.Started reconcileProviderModelTransaction fun _ => ch.Settled := by
  refine Guarded.start fun x hx => ?_
  obtain ⟨hx, havailable⟩ := hx
  refine Guarded.bindValue (Guarded.mapFault (ModelJournal.read_spec hx hx.journal)) ?_
  split
  next hj =>
    refine Guarded.pure ?_
    rintro s rfl
    exact hx.settled hj
  next hj =>
    refine Guarded.bind (Guarded.mapFault (Database.runWriteTransaction_spec hx
      (fun s t u hs => hs.memory t u) (fun _ => havailable) (reconcileModel_spec hx hj) ?_))
      fun r => Guarded.start fun y hy => ?_
    · rintro r s ⟨⟨record, _, hr⟩, _⟩
      obtain ⟨hs, hend, hj'⟩ := hr.committed
      exact ⟨hs, hend.position hj'⟩
    · obtain ⟨s, ⟨⟨record, rfl, hr⟩, hu⟩, rfl⟩ := hy
      obtain ⟨_, hend, hj'⟩ := hr.committed
      refine Guarded.bind (Q := fun _ => ch.Settled) (Guarded.mapFault ?_) fun _ =>
        Guarded.pure fun _ hs => hs
      have hend' : ch.AtEnd record { Database.committed s with modelJournal := none } := hend
      have hsettled : ch.Settled { Database.committed s with modelJournal := none } :=
        hend'.settled rfl
      have hrun := Database.runWriteTransaction_spec (q := q) (hend.position hj')
        (fun s t u hs => hs.memory t u) (fun _ => hu.trans havailable)
        (verifyAndClear_spec hend hj') ?_
      · refine hrun.post ?_
        rintro _ _ ⟨t, rfl, rfl⟩
        exact hsettled
      · rintro _ _ rfl
        exact ⟨hsettled.position, hsettled.position⟩

end Startup

end AwesomeAgent
