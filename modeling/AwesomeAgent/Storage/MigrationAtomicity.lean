import AwesomeAgent.Storage.MigrationRules

/-!
# Migrations are all or nothing

The migrations of a chain are applied one after another in one transaction, which is committed when
the schema is current. A chain whose operations are confined to the transaction leaves the database
as it was or migrated, whatever fails and wherever a crash comes.
-/

namespace AwesomeAgent.Migrations

section Chain

variable {Content : Type} [Sqlite Content] {registry : ApplicationMigrationRegistry Content}
  {content : Content}

/-! ## The chain -/

variable {working : Content} {migration : ApplicationMigration Content}
  {rest : List (ApplicationMigration Content)}

private theorem opened_spec {α : Type} {R : α → Connection Content → Prop}
    {f : Connection Content → Except MigrationFault (α × Connection Content)}
    (hdone : ∀ a d, f ⟨content, some working, some content⟩ = .ok (a, d) →
      R a d ∧ Recoverable registry content d) :
    Triple (On (Opened content working)) (perform f)
      (fun a => On fun c => R a c ∧ Recoverable registry content c)
      (fun _ => On (Recoverable registry content)) (On (Recoverable registry content)) := by
  refine perform_spec (fun c a d hc hf => ?_) (fun c e hc _ => hc.recoverable) (fun c hc => ?_)
    (fun a c h => h.2) fun _ _ h => h
  · cases hc
    have hleft := hdone a d hf
    exact ⟨hleft, hleft.2⟩
  · exact ⟨hc.recoverable, hc.closed.recoverable⟩

private theorem schemaVersion_opened :
    Triple (On (Opened content working)) schemaVersion
      (fun version => On fun c => version = Sqlite.userVersion working ∧ Opened content working c)
      (fun _ => On (Recoverable registry content)) (On (Recoverable registry content)) := by
  refine (opened_spec (R := fun version c => version = Sqlite.userVersion working ∧
    Opened content working c) fun version d hf => ?_).post fun version s h => h.1
  cases hf
  exact ⟨⟨rfl, rfl⟩, rfl, Or.inl rfl⟩

/-- One migration of the chain. -/
theorem applyMigration_spec {front : List (ApplicationMigration Content)}
    (hfront : ChainRuns front content working)
    (h : Sqlite.userVersion working = migration.fromSchema →
      Confined (Allowed registry content) content migration.apply working) :
    Triple (On (Opened content working)) (applyMigration migration)
      (fun _ => On fun c => ∃ left, ChainRuns (front ++ [migration]) content left ∧
        Opened content left c)
      (fun _ => On (Recoverable registry content)) (On (Recoverable registry content)) := by
  refine Triple.bind schemaVersion_opened fun version => ?_
  refine Triple.bind (require_spec fun _ s hs => hs.2.recoverable) fun _ => ?_
  refine Triple.assume (F := Sqlite.userVersion working = migration.fromSchema) ?_ fun hsource => ?_
  · rintro s ⟨⟨rfl, -⟩, hholds⟩
    exact of_decide_eq_true hholds
  refine Triple.bind ((runOperation_spec migration.apply (h hsource)).pre fun s hs => hs.1.2)
    fun _ => ?_
  refine Triple.bind (R := fun _ => On fun c => ∃ left, Runs migration.apply working left ∧
    Opened content left c) ?_ fun _ => Triple.named fun left => ?_
  · refine perform_spec ?_ ?_ ?_ ?_ fun _ _ h => h
    · rintro c a d (⟨left, hruns, hopened⟩ | ⟨hnone, -⟩) hf
      · cases hopened
        cases hf
        exact ⟨⟨left, hruns, rfl⟩, rfl, Or.inl rfl⟩
      · rw [hnone] at hf
        cases hf
    · rintro c e (⟨left, -, hopened⟩ | hended) -
      · exact hopened.recoverable
      · exact hended.recoverable
    · rintro c (⟨left, -, hopened⟩ | hended)
      · exact ⟨hopened.recoverable, hopened.closed.recoverable⟩
      · exact ⟨hended.recoverable, hended.recoverable.closed⟩
    · rintro a c ⟨left, -, hopened⟩
      exact hopened.recoverable
  · refine Triple.assume (F := Runs migration.apply working left) (fun s hs => hs.1)
      fun hruns => ?_
    refine Triple.bind ((opened_spec (R := fun _ => Opened content
      (Sqlite.setUserVersion migration.toSchema left)) fun a d hf => ?_).pre fun s hs => hs.2)
      fun _ => ?_
    · cases hf
      exact ⟨rfl, rfl, Or.inl rfl⟩
    refine Triple.bind (schemaVersion_opened.pre fun s hs => hs.1) fun target => ?_
    refine (require_spec fun _ s hs => hs.2.recoverable).post ?_
    rintro _ s ⟨⟨rfl, hopened⟩, hholds⟩
    exact ⟨_, .concat hfront hsource hruns (of_decide_eq_true hholds), hopened⟩

private theorem rollBack_spec {Q : Unit → Session Content → Prop}
    (migration : ApplicationMigration Content) :
    Triple (On (Recoverable registry content)) (rollBack migration) Q
      (fun fault => On (Settled registry content fault)) (On (Recoverable registry content)) := by
  have hunknown : ∀ c : Connection Content, Recoverable registry content c →
      Settled registry content (.outcomeUnknown migration.fromSchema migration.toSchema) c :=
    fun c hc => ⟨hc, nofun⟩
  refine Triple.bind (R := fun inTransaction => On fun c => Recoverable registry content c ∧
    (inTransaction = true → c.content = content)) (Triple.mapFault (perform_spec ?_ ?_ ?_ ?_ ?_))
    fun inTransaction => ?_
  · rintro c a d hc hf
    cases hf
    refine ⟨⟨hc, fun hsome => ?_⟩, hunknown c hc⟩
    obtain ⟨-, hcontent | hended⟩ := hc
    · exact hcontent
    · rw [hended.1] at hsome
      cases hsome
  · exact fun c e hc hf => hunknown c hc
  · exact fun c hc => ⟨hunknown c hc, hunknown _ hc.closed⟩
  · exact fun a c hc => hc.1
  · exact fun e c hc => hc.1
  refine Triple.bind (require_spec fun _ s hs => hunknown _ hs.1) fun _ => ?_
  refine Triple.pre (P := On fun c => Recoverable registry content c ∧ c.content = content) ?_
    fun s hs => ⟨hs.1.1, hs.1.2 hs.2⟩
  refine Triple.bind (R := fun _ => On fun c => Recoverable registry content c ∧
    c.content = content) (Triple.mapFault (perform_spec ?_ ?_ ?_ ?_ ?_)) fun _ => ?_
  · rintro c a d ⟨hc, hcontent⟩ hf
    cases hf
    exact ⟨⟨hc.closed, hcontent⟩, hunknown _ hc.closed⟩
  · exact fun c e hc hf => hunknown c hc.1
  · exact fun c hc => ⟨hunknown c hc.1, hunknown _ hc.1.closed⟩
  · exact fun a c hc => hc.1
  · exact fun e c hc => hc.1
  · exact Triple.throw fun s hs => ⟨hs.1, fun _ _ _ => hs.2⟩

private theorem guarded_spec {P : Session Content → Prop} {Q : Connection Content → Prop}
    {part : Migration Content Unit}
    (h : Triple P part (fun _ => On Q) (fun _ => On (Recoverable registry content))
      (On (Recoverable registry content))) :
    Triple P (guarded migration part) (fun _ => On Q)
      (fun fault => On (Settled registry content fault)) (On (Recoverable registry content)) := by
  refine Triple.bind (R := Caught (fun _ => On Q) fun _ => On (Recoverable registry content))
    (Triple.attempt h) fun outcome => ?_
  cases outcome with
  | ok _ => exact Triple.pure fun s hs => hs
  | error e => exact rollBack_spec migration

private theorem commit_spec (h : Migrated registry content working) :
    Triple (On (Opened content working)) commit
      (fun _ => On fun c => c = ⟨working, none, some content⟩)
      (fun _ => On (Recoverable registry content)) (On (Recoverable registry content)) := by
  have hcommitted : Recoverable registry content ⟨working, none, some content⟩ :=
    ⟨rfl, Or.inr ⟨rfl, rfl, Or.inr h⟩⟩
  refine Triple.bind ((opened_spec (R := fun _ => Opened content working) fun a d hf => ?_).post
    fun _ s hs => hs.1) fun _ => ?_
  · split at hf
    · cases hf
      exact ⟨rfl, rfl, Or.inl rfl⟩
    · cases hf
  · refine (opened_spec (R := fun _ c => c = ⟨working, none, some content⟩) fun a d hf => ?_).post
      fun _ s hs => hs.1
    cases hf
    exact ⟨rfl, hcommitted⟩

private theorem migrated_of_path {path : List (ApplicationMigration Content)}
    (hpath : pathFrom registry (Sqlite.userVersion content) = some path) (hne : path ≠ [])
    (h : ChainRuns path content working) : Migrated registry content working := by
  refine ⟨?_, path, hpath, h⟩
  cases h with
  | nil => exact absurd rfl hne
  | concat hfront hsource hruns htarget =>
    rw [htarget, pathFrom_last hpath]

private theorem runChain_spec (front : List (ApplicationMigration Content))
    {active : ApplicationMigration Content}
    (hpath : pathFrom registry (Sqlite.userVersion content) = some (front ++ rest))
    (hne : front ++ rest ≠ []) (hfront : ChainRuns front content working)
    (hconfined : ChainConfined registry content) (hsound : Sqlite.quickCheck content = true) :
    Triple (On (Opened content working)) (runChain active rest)
      (fun _ => On fun c => ∃ left, Migrated registry content left ∧
        c = ⟨left, none, some content⟩)
      (fun fault => On (Settled registry content fault)) (On (Recoverable registry content)) := by
  induction rest generalizing front active working with
  | nil =>
    rw [List.append_nil] at hpath hne
    have hmigrated := migrated_of_path hpath hne hfront
    exact (guarded_spec (commit_spec hmigrated)).post fun _ s hs => ⟨working, hmigrated, hs⟩
  | cons migration rest ih =>
    have hstep := hconfined hsound front migration rest hpath working hfront
    refine Triple.bind (guarded_spec (applyMigration_spec hfront hstep)) fun _ => ?_
    refine Triple.named fun left => Triple.assume (fun s hs => hs.1) fun hchain => ?_
    rw [List.append_cons] at hpath hne
    exact (ih (front ++ [migration]) hpath hne hchain).pre fun s hs => hs.2

/-! ## The migration -/

/-- The database is as it was, and no transaction is open. -/
def Idle (content : Content) (c : Connection Content) : Prop :=
  c.transaction = none ∧ c.content = content

omit [Sqlite Content] in
private theorem idle_spec {α : Type} {P : Connection Content → Prop}
    {R : α → Connection Content → Prop}
    {f : Connection Content → Except MigrationFault (α × Connection Content)}
    (hP : ∀ c, P c → Idle content c)
    (hdone : ∀ c a d, P c → f c = .ok (a, d) → R a d ∧ Idle content d) :
    Triple (On P) (perform f) (fun a => On fun c => R a c ∧ Idle content c)
      (fun _ => On (Idle content)) (On (Idle content)) := by
  refine perform_spec (fun c a d hc hf => ?_) (fun c e hc _ => hP c hc)
    (fun c hc => ⟨hP c hc, rfl, (hP c hc).2⟩) (fun a c h => h.2) fun _ _ h => h
  have hleft := hdone c a d hc hf
  exact ⟨hleft, hleft.2⟩

omit [Sqlite Content] in
private theorem inspectBackupPath_spec :
    Triple (On (Idle content)) inspectBackupPath (fun _ => On (Idle content))
      (fun _ => On (Idle content)) (On (Idle content)) := by
  refine Triple.mapFault (E := fun _ => On (Idle content)) ?_
  refine (idle_spec (R := fun _ _ => True) (fun _ h => h) ?_).post fun _ _ h => h.2
  rintro c a d hc hf
  cases hf
  exact ⟨trivial, hc⟩

/-- A sound database is backed up before anything else happens. -/
theorem createBackup_spec :
    Triple (On (Idle content)) createBackup
      (fun _ => On fun c => c = ⟨content, none, some content⟩ ∧ Sqlite.quickCheck content = true)
      (fun _ => On (Idle content)) (On (Idle content)) := by
  refine Triple.bind (idle_spec (R := fun _ _ => Sqlite.quickCheck content = true)
    (fun _ h => h) ?_) fun _ => Triple.assume (fun s hs => hs.1) fun hsound => ?_
  · rintro ⟨current, transaction, backup⟩ a d ⟨htransaction, hcurrent⟩ hf
    cases htransaction
    cases hcurrent
    split at hf
    · next hcheck =>
      cases hf
      exact ⟨hcheck, rfl, rfl⟩
    · cases hf
  refine Triple.bind (inspectBackupPath_spec.pre fun _ h => h.2) fun _ => ?_
  refine Triple.bind (idle_spec (R := fun _ _ => True) (fun _ h => h) ?_) fun _ => ?_
  · rintro c a d hc hf
    cases hf
    exact ⟨trivial, hc⟩
  refine Triple.mapFault (E := fun _ => On (Idle content)) ?_
  refine Triple.bind (idle_spec (R := fun copy _ => copy = content) (fun _ h => h.2) ?_)
    fun copy => Triple.assume (fun s hs => hs.1) fun hcopy => ?_
  · rintro ⟨current, transaction, backup⟩ a d ⟨-, htransaction, hcurrent⟩ hf
    cases htransaction
    cases hcurrent
    cases hf
    exact ⟨rfl, rfl, rfl⟩
  subst hcopy
  refine Triple.bind (idle_spec (R := fun _ _ => True) (fun _ h => h.2) ?_) fun _ => ?_
  · rintro c a d hc hf
    rw [if_pos hsound] at hf
    cases hf
    exact ⟨trivial, hc.2⟩
  refine Triple.bind (idle_spec (R := fun _ _ => True) (fun _ h => h.2) ?_) fun _ => ?_
  · rintro c a d hc hf
    split at hf
    · cases hf
      exact ⟨trivial, hc.2⟩
    · cases hf
  refine Triple.bind (idle_spec (R := fun _ c => c.backup = some copy) (fun _ h => h.2) ?_)
    fun _ => ?_
  · rintro c a d hc hf
    cases hf
    exact ⟨rfl, hc.2⟩
  refine (idle_spec (R := fun _ c => c.backup = some copy) (fun _ h => h.2) ?_).post ?_
  · rintro c a d hc hf
    cases hf
    exact hc
  · rintro _ ⟨⟨current, transaction, backup⟩, outcomes⟩ ⟨hbackup, htransaction, hcurrent⟩
    change current = copy at hcurrent
    change transaction = none at htransaction
    change backup = some copy at hbackup
    rw [hcurrent, htransaction, hbackup]
    exact ⟨rfl, hsound⟩

private theorem applyMigrationChain_spec {first : ApplicationMigration Content}
    (hpath : pathFrom registry (Sqlite.userVersion content) = some (first :: rest))
    (hconfined : ChainConfined registry content) (hsound : Sqlite.quickCheck content = true) :
    Triple (On fun c => c = ⟨content, none, some content⟩) (applyMigrationChain first rest)
      (fun _ => On fun c => ∃ left, Migrated registry content left ∧
        c = ⟨left, none, some content⟩)
      (fun fault => On (Settled registry content fault)) (On (Recoverable registry content)) := by
  have hbacked : ∀ transaction, Recoverable registry content ⟨content, transaction, some content⟩ :=
    fun transaction => ⟨rfl, Or.inl rfl⟩
  have hsettled : ∀ fault transaction,
      Settled registry content fault ⟨content, transaction, some content⟩ :=
    fun fault transaction => ⟨hbacked transaction, fun _ _ _ => rfl⟩
  refine Triple.bind (R := fun _ => On fun c => c = ⟨content, none, some content⟩)
    (perform_spec ?_ ?_ ?_ ?_ fun _ _ h => h.1) fun observed => ?_
  · rintro c a d rfl hf
    cases hf
    exact ⟨rfl, hsettled _ _⟩
  · rintro c e rfl hf
    exact hsettled _ _
  · rintro c rfl
    exact ⟨hsettled _ _, hsettled _ _⟩
  · rintro a c rfl
    exact hbacked _
  refine Triple.bind (require_spec ?_) fun _ => Triple.pre
    (P := On fun c => c = ⟨content, none, some content⟩) ?_ fun s hs => hs.1
  · rintro - ⟨c, outcomes⟩ hs
    cases hs
    exact hsettled _ _
  refine Triple.bind (R := fun _ => On (Opened content content))
    (perform_spec ?_ ?_ ?_ ?_ fun _ _ h => h.1) fun _ => ?_
  · rintro c a d rfl hf
    cases hf
    exact ⟨rfl, hsettled _ _⟩
  · rintro c e rfl hf
    exact hsettled _ _
  · rintro c rfl
    exact ⟨hsettled _ _, hsettled _ _⟩
  · rintro a c rfl
    exact hbacked _
  · exact runChain_spec [] hpath (List.cons_ne_nil _ _) (.nil content) hconfined hsound

/-- The database is as it was or migrated, and it was backed up before anything changed. -/
structure Atomic (registry : ApplicationMigrationRegistry Content)
    (previous c : Connection Content) : Prop where
  database : Allowed registry previous.content c.content
  backup : c.content ≠ previous.content ∨ previous.transaction = none ∧ c.transaction ≠ none →
    c.backup = some previous.content

/-- A migration is all or nothing: wherever it crashes, when it succeeds and when it fails. -/
def AllOrNothing (registry : ApplicationMigrationRegistry Content) (s : Session Content) : Prop :=
  (∀ u ∈ Proc.crashStates (migrateApplicationDatabase registry) s,
    Atomic registry s.connection u.connection) ∧
  Settles
    (fun _ t => Atomic registry s.connection t.now.connection ∧
      Migrated registry s.connection.content t.now.connection.content)
    (fun fault t => Atomic registry s.connection t.now.connection ∧
      ∀ fromSchema toSchema, fault = .step fromSchema toSchema →
        t.now.connection.content = s.connection.content)
    (migrateApplicationDatabase registry ⟨s, []⟩)

private theorem Atomic.refl (c : Connection Content) : Atomic registry c c where
  database := Or.inl rfl
  backup := by
    rintro (h | ⟨hnone, hsome⟩)
    · exact absurd rfl h
    · exact absurd hnone hsome

private theorem Atomic.closed (c : Connection Content) : Atomic registry c c.closed where
  database := Or.inl rfl
  backup := by
    rintro (h | ⟨-, hsome⟩)
    · exact absurd rfl h
    · exact absurd rfl hsome

private theorem Idle.atomic {previous c : Connection Content} (h : Idle previous.content c) :
    Atomic registry previous c where
  database := Or.inl h.2
  backup := by
    rintro (hchanged | ⟨-, hsome⟩)
    · exact absurd h.2 hchanged
    · exact absurd h.1 hsome

private theorem Recoverable.atomic {previous c : Connection Content}
    (h : Recoverable registry previous.content c) : Atomic registry previous c where
  database := h.2.elim Or.inl fun hended => hended.2.2
  backup := fun _ => h.1

/-- What a migration of a confined chain leaves. -/
theorem migrateApplicationDatabase_spec {previous : Connection Content}
    (h : previous.transaction = none → ChainConfined registry previous.content) :
    Triple (On fun c => c = previous) (migrateApplicationDatabase registry)
      (fun _ => On fun c => Atomic registry previous c ∧
        Migrated registry previous.content c.content)
      (fun fault => On fun c => Atomic registry previous c ∧
        ∀ fromSchema toSchema, fault = .step fromSchema toSchema → c.content = previous.content)
      (On (Atomic registry previous)) := by
  have hsame : Atomic registry previous previous := Atomic.refl previous
  have hidle : ∀ c, Idle previous.content c → Atomic registry previous c := fun _ hc => hc.atomic
  refine Triple.bind (R := fun _ => On fun c => c = previous ∧ previous.transaction = none)
    (perform_spec ?_ ?_ ?_ ?_ fun _ _ h => h.1) fun _ => ?_
  · rintro c a d rfl hf
    split at hf
    · cases hf
    · next hnone =>
      cases hf
      exact ⟨⟨rfl, Option.not_isSome_iff_eq_none.mp hnone⟩, hsame, fun _ _ _ => rfl⟩
  · rintro c e rfl hf
    exact ⟨hsame, fun _ _ _ => rfl⟩
  · rintro c rfl
    exact ⟨⟨hsame, fun _ _ _ => rfl⟩, Atomic.closed c, fun _ _ _ => rfl⟩
  · rintro a c ⟨rfl, -⟩
    exact hsame
  refine Triple.assume (fun s hs => hs.2) fun hnone => ?_
  obtain ⟨content, transaction, backup⟩ := previous
  cases hnone
  refine Triple.pre (P := On (Idle content)) ?_ fun s hs => ?_
  swap
  · rw [On, hs.1]
    exact ⟨rfl, rfl⟩
  refine Triple.bind (R := fun found => On fun c => found = Sqlite.userVersion content ∧
    Idle content c) (((idle_spec (R := fun found _ => found = Sqlite.userVersion content)
      (fun _ h => h) ?_)).conseq (fun _ h => h) (fun _ _ h => h) ?_ ?_) fun found => ?_
  · rintro ⟨current, transaction, backup⟩ a d ⟨htransaction, hcurrent⟩ hf
    cases htransaction
    cases hcurrent
    cases hf
    exact ⟨rfl, rfl, rfl⟩
  · exact fun e s hs => ⟨hidle _ hs, fun _ _ _ => hs.2⟩
  · exact fun s hs => hidle _ hs
  refine Triple.assume (fun s hs => hs.1) fun hfound => Triple.pre (P := On (Idle content)) ?_
    fun s hs => hs.2
  subst hfound
  cases hpath : pathFrom registry (Sqlite.userVersion content) with
  | none => exact Triple.throw fun s hs => ⟨hidle _ hs, fun _ _ _ => hs.2⟩
  | some path =>
    cases path with
    | nil =>
      refine Triple.pure fun s hs => ⟨hidle _ hs, ?_⟩
      rw [hs.2]
      exact ⟨pathFrom_nil hpath, [], hpath, .nil content⟩
    | cons first rest =>
      refine Triple.bind (createBackup_spec.conseq (fun _ h => h) (fun _ _ h => h) ?_ ?_)
        fun _ => ?_
      · exact fun e s hs => ⟨hidle _ hs, fun _ _ _ => hs.2⟩
      · exact fun s hs => hidle _ hs
      refine Triple.assume (fun s hs => hs.2) fun hsound => ?_
      refine Triple.bind ((applyMigrationChain_spec hpath (h rfl) hsound).conseq
        (fun s hs => hs.1) (fun _ _ h => h) ?_ ?_) fun _ => ?_
      · exact fun e s hs => ⟨hs.1.atomic, hs.2⟩
      · exact fun s hs => Recoverable.atomic hs
      · refine Triple.pure fun s hs => ?_
        obtain ⟨left, hmigrated, hleft⟩ := hs
        have hended : Recoverable registry content s.connection := by
          rw [hleft]
          exact ⟨rfl, Or.inr ⟨rfl, rfl, Or.inr hmigrated⟩⟩
        refine ⟨hended.atomic, ?_⟩
        rw [hleft]
        exact hmigrated

/-- A confined chain is all or nothing. -/
theorem allOrNothing_of_confined {s : Session Content}
    (h : s.connection.transaction = none → ChainConfined registry s.connection.content) :
    AllOrNothing registry s := by
  have hspec := migrateApplicationDatabase_spec h
  constructor
  · intro u hu
    rcases hspec.crashStates rfl hu with rfl | hatomic
    · exact Atomic.refl _
    · exact hatomic
  · exact (hspec ⟨s, []⟩ rfl).mono (fun _ _ ht => ht.1) fun _ _ ht => ht.1

end Chain

end AwesomeAgent.Migrations
