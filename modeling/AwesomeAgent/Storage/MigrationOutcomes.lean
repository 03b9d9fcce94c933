import AwesomeAgent.Library.CrashTraces
import AwesomeAgent.Storage.MigrationAtomicity

/-!
# When migrations are all or nothing

Every statement of an operation can be interrupted, fail, or end the transaction. A run without
other faults therefore comes to each state that an operation can reach, and a crash finds what a
statement has left there. A migration is all or nothing, whatever happens, exactly when its chain
is confined.
-/

namespace AwesomeAgent.Migrations

open Proc

variable {Content α : Type}

/-! ## What is recorded -/

private theorem perform_records
    (f : Connection Content → Except MigrationFault (α × Connection Content)) :
    Records (perform f) := Records.durable (access f)

private theorem require_records (holds : Bool) (fault : MigrationFault) :
    Records (require holds fault : Migration Content Unit) := by
  cases holds with
  | true => exact Records.pure ()
  | false => exact Records.throw fault

variable [Sqlite Content]

private theorem runOperation_records (operation : OperationOf Content) :
    Records (runOperation operation) := by
  induction operation with
  | returned => exact Records.pure ()
  | raised => exact Records.throw _
  | execute statement next ih => exact Records.bind (Records.durable _) ih

private theorem rollBack_records (migration : ApplicationMigration Content) :
    Records (rollBack migration) := by
  refine Records.bind (Records.mapFault (perform_records _)) fun _ => ?_
  refine Records.bind (require_records _ _) fun _ => ?_
  exact Records.bind (Records.mapFault (perform_records _)) fun _ => Records.throw _

variable {migration : ApplicationMigration Content} {c : Connection Content}
  {statement : Sqlite.Statement Content} {operation : OperationOf Content}
  {working content : Content} {backup : Option Content} {allowed : Content → Prop}

private theorem guarded_records {part : Migration Content Unit}
    (h : Records part) : Records (guarded migration part) := by
  refine Records.bind (Records.attempt h) fun outcome => ?_
  cases outcome with
  | ok _ => exact Records.pure ()
  | error e => exact rollBack_records migration

private theorem applyMigration_records (migration : ApplicationMigration Content) :
    Records (applyMigration migration) := by
  refine Records.bind (perform_records _) fun _ => Records.bind (require_records _ _) fun _ => ?_
  refine Records.bind (runOperation_records _) fun _ => Records.bind (perform_records _) fun _ => ?_
  refine Records.bind (perform_records _) fun _ => Records.bind (perform_records _) fun _ => ?_
  exact require_records _ _

private theorem runChain_records (active : ApplicationMigration Content)
    (rest : List (ApplicationMigration Content)) : Records (runChain active rest) := by
  induction rest generalizing active with
  | nil => exact guarded_records (Records.bind (perform_records _) fun _ => perform_records _)
  | cons migration rest ih =>
    exact Records.bind (guarded_records (applyMigration_records migration)) fun _ => ih migration

/-! ## Runs without faults -/

omit [Sqlite Content] in
private theorem perform_returns
    {f : Connection Content → Except MigrationFault (α × Connection Content)}
    {d : Connection Content} {a : α} (h : f c = .ok (a, d)) (outcomes : List StepOutcome) :
    Returns (perform f) ⟨c, .done :: outcomes⟩ a ⟨d, outcomes⟩ := by
  apply Returns.durable
  simp only [access, List.headD_cons, List.tail_cons, h]

omit [Sqlite Content] in
private theorem require_returns {holds : Bool} (h : holds = true) (fault : MigrationFault)
    (s : Session Content) : Returns (require holds fault) s () s := by
  subst h
  exact Returns.pure () s

private theorem StatementStep.happens {result : StatementResult (Sqlite.Answer Content)}
    {left : Content}
    (h : StatementStep statement c.view result left) :
    ∃ start, ∀ outcomes, executeStatement statement ⟨c, start ++ outcomes⟩ =
      (result, ⟨c.write left, outcomes⟩) := by
  cases h with
  | refused hcontrols =>
    refine ⟨[], fun outcomes => ?_⟩
    rw [executeStatement, if_pos hcontrols, write_view]
    rfl
  | answered hfree heffect =>
    refine ⟨[.done], fun outcomes => ?_⟩
    simp [executeStatement, hfree, heffect]
  | failed hfree heffect =>
    refine ⟨[.done], fun outcomes => ?_⟩
    simp [executeStatement, hfree, heffect]
  | interrupted hfree =>
    refine ⟨[.failed], fun outcomes => ?_⟩
    rw [write_view]
    simp [executeStatement, hfree]

private theorem executeStatement_rolledBack
    (hfree : Sqlite.controlsTransaction statement = false) (c : Connection Content)
    (outcomes : List StepOutcome) :
    executeStatement statement ⟨c, .rolledBack :: outcomes⟩ =
      (.rolledBack, ⟨c.closed, outcomes⟩) := by
  simp [executeStatement, hfree]

private theorem Runs.returns {left : Content}
    (h : Runs operation working left) (content : Content) (backup : Option Content) :
    ∃ start, ∀ outcomes, Returns (runOperation operation)
      ⟨⟨content, some working, backup⟩, start ++ outcomes⟩ ()
      ⟨⟨content, some left, backup⟩, outcomes⟩ := by
  induction h with
  | returned working => exact ⟨[], fun outcomes => Returns.pure () _⟩
  | @execute statement next working left final result hstep hrest ih =>
    obtain ⟨first, hfirst⟩ := StatementStep.happens (c := ⟨content, some working, backup⟩) hstep
    obtain ⟨start, hstart⟩ := ih
    refine ⟨first ++ start, fun outcomes => Returns.bind (Returns.durable ?_) (hstart outcomes)⟩
    rw [run_modifyGet, List.append_assoc, hfirst]
    rfl

private theorem applyMigration_returns {left : Content} (content : Content)
    (backup : Option Content)
    (hsource : Sqlite.userVersion working = migration.fromSchema)
    (h : Runs migration.apply working left)
    (htarget : Sqlite.userVersion (Sqlite.setUserVersion migration.toSchema left) =
      migration.toSchema) :
    ∃ start, ∀ outcomes, Returns (applyMigration migration)
      ⟨⟨content, some working, backup⟩, start ++ outcomes⟩ ()
      ⟨⟨content, some (Sqlite.setUserVersion migration.toSchema left), backup⟩, outcomes⟩ := by
  obtain ⟨start, hstart⟩ := h.returns content backup
  refine ⟨.done :: (start ++ [.done, .done, .done]), fun outcomes => ?_⟩
  refine Returns.bind (perform_returns rfl _) ?_
  refine Returns.bind (require_returns (decide_eq_true hsource) _ _) ?_
  change Returns _ (Session.mk _ ((start ++ [.done, .done, .done]) ++ outcomes)) _ _
  rw [List.append_assoc]
  refine Returns.bind (hstart _) ?_
  refine Returns.bind (perform_returns rfl _) ?_
  refine Returns.bind (perform_returns rfl _) ?_
  refine Returns.bind (perform_returns rfl _) ?_
  exact require_returns (decide_eq_true htarget) _ _

private theorem runChain_comes {front : List (ApplicationMigration Content)}
    (base : Content) (backup : Option Content)
    (h : ChainRuns front content working) (rest : List (ApplicationMigration Content))
    (active : ApplicationMigration Content) :
    ∃ start, ∀ outcomes, ∃ next, ComesTo (runChain active (front ++ rest))
      ⟨⟨base, some content, backup⟩, start ++ outcomes⟩ (runChain next rest)
      ⟨⟨base, some working, backup⟩, outcomes⟩ := by
  induction h generalizing rest with
  | nil content => exact ⟨[], fun outcomes => ⟨active, ComesTo.refl _ _⟩⟩
  | @concat front migration content working left hfront hsource hruns htarget ih =>
    obtain ⟨start, hstart⟩ := ih (migration :: rest)
    obtain ⟨more, hmore⟩ :=
      applyMigration_returns base backup hsource hruns htarget
    refine ⟨start ++ more, fun outcomes => ⟨migration, ?_⟩⟩
    obtain ⟨next, hnext⟩ := hstart (more ++ outcomes)
    rw [List.append_assoc, List.append_assoc]
    refine ComesTo.trans hnext (ComesTo.next (a := ()) ?_)
    exact Returns.bind (Returns.attempt (hmore outcomes)) (Returns.pure () _)

private theorem runChain_operation {active : ApplicationMigration Content}
    {rest : List (ApplicationMigration Content)}
    (hsource : Sqlite.userVersion working = migration.fromSchema)
    (outcomes : List StepOutcome) :
    ComesTo (runChain active (migration :: rest))
      ⟨⟨content, some working, backup⟩, .done :: outcomes⟩ (runOperation migration.apply)
      ⟨⟨content, some working, backup⟩, outcomes⟩ := by
  refine ComesTo.trans (ComesTo.first _ fun _ => runChain_records migration rest) ?_
  refine ComesTo.trans (ComesTo.first _ fun outcome => ?_) ?_
  · cases outcome with
    | ok _ => exact Records.pure ()
    | error e => exact rollBack_records migration
  refine ComesTo.trans (ComesTo.attempt _ _) ?_
  refine ComesTo.trans (ComesTo.next (perform_returns rfl _)) ?_
  refine ComesTo.trans (ComesTo.next (require_returns (decide_eq_true hsource) _ _)) ?_
  refine ComesTo.first _ fun _ => Records.bind (perform_records _) fun _ => ?_
  exact Records.bind (perform_records _) fun _ => Records.bind (perform_records _)
    fun _ => require_records _ _

omit [Sqlite Content] in
private theorem perform_checks {holds : Content → Bool} {f : MigrationFault}
    (h : holds c.view = true) (outcomes : List StepOutcome) :
    Returns (perform fun c => if holds c.view then .ok ((), c) else .error f)
      ⟨c, .done :: outcomes⟩ () ⟨c, outcomes⟩ :=
  perform_returns (if_pos h) outcomes

private theorem createBackup_returns (h : Sqlite.quickCheck content = true)
    (backup : Option Content) (outcomes : List StepOutcome) :
    Returns createBackup
      ⟨⟨content, none, backup⟩, List.replicate 8 .done ++ outcomes⟩ ()
      ⟨⟨content, none, some content⟩, outcomes⟩ := by
  refine Returns.bind (perform_checks h _) ?_
  refine Returns.bind (Returns.mapFault (perform_returns rfl _)) ?_
  refine Returns.bind (perform_returns rfl _) (Returns.mapFault ?_)
  refine Returns.bind (perform_returns rfl _) ?_
  refine Returns.bind (perform_returns (if_pos h) _) ?_
  refine Returns.bind (perform_returns (if_pos rfl) _) ?_
  exact Returns.bind (perform_returns rfl _) (perform_returns rfl _)

private theorem migrateApplicationDatabase_comes {registry : ApplicationMigrationRegistry Content}
    {front back : List (ApplicationMigration Content)}
    (hsound : Sqlite.quickCheck content = true)
    (hpath : pathFrom registry (Sqlite.userVersion content) = some (front ++ migration :: back))
    (hfront : ChainRuns front content working)
    (hsource : Sqlite.userVersion working = migration.fromSchema) (backup : Option Content) :
    ∃ start, ∀ outcomes, ComesTo (migrateApplicationDatabase registry)
      ⟨⟨content, none, backup⟩, start ++ outcomes⟩ (runOperation migration.apply)
      ⟨⟨content, some working, some content⟩, outcomes⟩ := by
  obtain ⟨first, rest, hfirst⟩ := List.exists_cons_of_ne_nil
    (List.append_ne_nil_of_right_ne_nil front (List.cons_ne_nil migration back))
  obtain ⟨start, hstart⟩ := runChain_comes content (some content) hfront (migration :: back) first
  refine ⟨List.replicate 12 .done ++ (start ++ [.done]), fun outcomes => ?_⟩
  obtain ⟨next, hnext⟩ := hstart (.done :: outcomes)
  rw [hfirst] at hpath hnext
  rw [List.append_assoc, List.append_assoc]
  refine ComesTo.trans (ComesTo.next (perform_returns rfl _)) ?_
  refine ComesTo.trans (ComesTo.next (perform_returns rfl _)) ?_
  have hview : (⟨content, none, backup⟩ : Connection Content).view = content := rfl
  rw [hview, hpath]
  refine ComesTo.trans (ComesTo.next (createBackup_returns hsound backup _)) ?_
  refine ComesTo.trans (ComesTo.first _ fun _ => Records.pure true) ?_
  refine ComesTo.trans (ComesTo.next (perform_returns rfl _)) ?_
  refine ComesTo.trans (ComesTo.next (require_returns
    (decide_eq_true (pathFrom_first hpath).symm) _ _)) ?_
  refine ComesTo.trans (ComesTo.next (perform_returns rfl _)) ?_
  exact ComesTo.trans hnext (runChain_operation hsource outcomes)

/-! ## The exact condition -/

/-- Every state that a run of an operation records has a property. -/
def Keeps (allowed : Content → Prop) (operation : OperationOf Content) (c : Connection Content) :
    Prop :=
  ∀ outcomes, ∃ trace, ∀ u ∈ recorded (runOperation operation ⟨⟨c, outcomes⟩, trace⟩),
    allowed u.connection.content

private theorem Keeps.execute {allowed : Content → Prop} {statement : Sqlite.Statement Content}
    {next : StatementResult (Sqlite.Answer Content) → OperationOf Content}
    {result : StatementResult (Sqlite.Answer Content)} {c d : Connection Content}
    {start : List StepOutcome} (h : Keeps allowed (.execute statement next) c)
    (hstep : ∀ outcomes, executeStatement statement ⟨c, start ++ outcomes⟩ =
      (result, ⟨d, outcomes⟩)) :
    allowed d.content ∧ Keeps allowed (next result) d := by
  have hrun : ∀ outcomes trace,
      runOperation (.execute statement next) ⟨⟨c, start ++ outcomes⟩, trace⟩ =
        runOperation (next result) ⟨⟨d, outcomes⟩, ⟨d, outcomes⟩ :: trace⟩ := by
    intro outcomes trace
    simp only [runOperation, Bind.bind, EStateM.bind, durable, run_modifyGet, hstep]
  constructor
  · obtain ⟨trace, htrace⟩ := h (start ++ [])
    rw [hrun] at htrace
    exact htrace _ (runOperation_records (next result) _ List.mem_cons_self)
  · intro outcomes
    obtain ⟨trace, htrace⟩ := h (start ++ outcomes)
    rw [hrun] at htrace
    exact ⟨_, htrace⟩

private theorem Keeps.rolledBack
    {next : StatementResult (Sqlite.Answer Content) → OperationOf Content}
    (h : Keeps allowed (.execute statement next) c)
    (hfree : Sqlite.controlsTransaction statement = false) :
    Keeps allowed (next .rolledBack) c.closed := by
  have hstep : ∀ outcomes, executeStatement statement ⟨c, [.rolledBack] ++ outcomes⟩ =
      (.rolledBack, ⟨c.closed, outcomes⟩) := executeStatement_rolledBack hfree c
  exact (h.execute hstep).2

private theorem Keeps.harmless (h : Keeps allowed operation ⟨content, none, backup⟩) :
    Harmless allowed operation content := by
  induction operation generalizing content with
  | returned => trivial
  | raised => trivial
  | execute statement next ih =>
    constructor
    · intro result left hstep
      obtain ⟨start, hstart⟩ :=
        StatementStep.happens (c := ⟨content, none, backup⟩) hstep
      have hnext := h.execute hstart
      exact ⟨hnext.1, ih result hnext.2⟩
    · intro hfree
      exact ih .rolledBack (h.rolledBack hfree)

private theorem Keeps.confined (h : Keeps allowed operation ⟨content, some working, backup⟩) :
    Confined allowed content operation working := by
  induction operation generalizing working with
  | returned => trivial
  | raised => trivial
  | execute statement next ih =>
    constructor
    · intro result left hstep
      obtain ⟨start, hstart⟩ :=
        StatementStep.happens (c := ⟨content, some working, backup⟩) hstep
      exact ih result (h.execute hstart).2
    · intro hfree
      exact (h.rolledBack hfree).harmless

/-- A migration is all or nothing, whatever fails and wherever it crashes, exactly when the chain
for the database is confined to its transaction. -/
theorem allOrNothing_iff (registry : ApplicationMigrationRegistry Content)
    (c : Connection Content) :
    (∀ outcomes, AllOrNothing registry ⟨c, outcomes⟩) ↔
      (c.transaction = none → ChainConfined registry c.content) := by
  constructor
  · intro hall hnone hsound front migration back hpath working hfront hsource
    obtain ⟨content, transaction, backup⟩ := c
    cases hnone
    obtain ⟨start, hstart⟩ :=
      migrateApplicationDatabase_comes hsound hpath hfront hsource backup
    have hkeeps : Keeps (Allowed registry content) migration.apply
        ⟨content, some working, some content⟩ := by
      intro outcomes
      obtain ⟨trace, htrace⟩ := (hstart outcomes).crashStates (hall (start ++ outcomes)).1
      exact ⟨trace, fun u hu => (htrace u hu).database⟩
    exact hkeeps.confined
  · exact fun h outcomes => allOrNothing_of_confined h

private theorem AllOrNothing.final {registry : ApplicationMigrationRegistry Content}
    {s : Session Content}
    {c : Connection Content} (h : AllOrNothing registry s)
    (hfinal : (final (migrateApplicationDatabase registry ⟨s, []⟩)).connection = c) :
    Atomic registry s.connection c := by
  subst hfinal
  have hsettled := h.2
  cases hr : migrateApplicationDatabase registry ⟨s, []⟩ with
  | ok a t =>
    rw [hr] at hsettled
    exact hsettled.1
  | error e t =>
    rw [hr] at hsettled
    exact hsettled.1

/-! ## A conflict that rolls back -/

/-- A schema and a table of unique keys. -/
structure KeyTable where
  version : Int
  keys : List Nat
  deriving DecidableEq

/-- Statements on a table of unique keys. -/
inductive KeyStatement
  | beginImmediate
  | insertKey (key : Nat)
  | insertOrRollback (key : Nat)
  deriving DecidableEq

/-- Insert a key, with the resolution of its conflict. -/
def insertKey (key : Nat) (conflict : StatementEffect KeyTable Unit) (table : KeyTable) :
    StatementEffect KeyTable Unit :=
  if key ∈ table.keys then conflict
  else .done { table with keys := table.keys ++ [key] } ()

instance : Sqlite KeyTable where
  Statement := KeyStatement
  Answer := Unit
  controlsTransaction := fun statement => statement = .beginImmediate
  effect := fun statement table => match statement with
    | .beginImmediate => .failed table
    | .insertKey key => insertKey key (.failed table) table
    | .insertOrRollback key => insertKey key .rolledBack table
  userVersion := KeyTable.version
  setUserVersion := fun version table => { table with version := version }
  quickCheck := fun table => table.keys.Nodup

/-- One migration, which goes on after a conflict. -/
def keyRegistry : ApplicationMigrationRegistry KeyTable where
  floor := 7
  current := 8
  migrations := [⟨7, 8, .execute (KeyStatement.insertOrRollback 1) fun _ =>
    .execute (KeyStatement.insertKey 2) fun _ => .returned, by decide⟩]
  supported := by decide
  linear := rfl

/-- The statement behind a conflict that has rolled the transaction back is kept: the database is
neither as it was nor migrated. -/
theorem conflict_not_allOrNothing : ¬AllOrNothing keyRegistry ⟨⟨⟨7, [1]⟩, none, none⟩, []⟩ := by
  intro h
  have hleft : (final (migrateApplicationDatabase keyRegistry
      ⟨⟨⟨⟨7, [1]⟩, none, none⟩, []⟩, []⟩)).connection =
        ⟨⟨7, [1, 2]⟩, none, some ⟨7, [1]⟩⟩ := by decide +kernel
  rcases (h.final hleft).database with hsame | ⟨hversion, -⟩
  · exact absurd hsame (by decide)
  · exact absurd hversion (by decide)

end AwesomeAgent.Migrations
