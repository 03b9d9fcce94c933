import AwesomeAgent.Storage.Migrations

/-!
# Operations of a migration

Statements of an operation run in the transaction of the chain until one of them ends it. What an
operation executes behind that goes straight to the database. An operation that changes nothing
there returns in the transaction, or with the database as it was or migrated.
-/

namespace AwesomeAgent.Migrations

section Operations

variable {Content : Type} [Sqlite Content]

/-- The operations of a database. -/
abbrev OperationOf (Content : Type) [Sqlite Content] : Type :=
  MigrationOperation (Sqlite.Statement Content) (Sqlite.Answer Content)

/-- What a statement reports that does not end the transaction, and what it leaves. -/
inductive StatementStep (statement : Sqlite.Statement Content) (content : Content) :
    StatementResult (Sqlite.Answer Content) → Content → Prop
  | refused (h : Sqlite.controlsTransaction statement = true) :
      StatementStep statement content .notAuthorized content
  | answered {left : Content} {answer : Sqlite.Answer Content}
      (hfree : Sqlite.controlsTransaction statement = false)
      (h : Sqlite.effect statement content = .done left answer) :
      StatementStep statement content (.answered answer) left
  | failed {left : Content} (hfree : Sqlite.controlsTransaction statement = false)
      (h : Sqlite.effect statement content = .failed left) :
      StatementStep statement content .failed left
  | interrupted (hfree : Sqlite.controlsTransaction statement = false) :
      StatementStep statement content .failed content

/-- An operation returns in the transaction. -/
inductive Runs : OperationOf Content → Content → Content → Prop
  | returned (content : Content) : Runs .returned content content
  | execute {statement : Sqlite.Statement Content}
      {next : StatementResult (Sqlite.Answer Content) → OperationOf Content}
      {content left final : Content} {result : StatementResult (Sqlite.Answer Content)}
      (hstep : StatementStep statement content result left)
      (hrest : Runs (next result) left final) : Runs (.execute statement next) content final

/-- The operations of a chain are applied once each, in order. -/
inductive ChainRuns : List (ApplicationMigration Content) → Content → Content → Prop
  | nil (content : Content) : ChainRuns [] content content
  | concat {front : List (ApplicationMigration Content)} {migration : ApplicationMigration Content}
      {content working left : Content} (hfront : ChainRuns front content working)
      (hsource : Sqlite.userVersion working = migration.fromSchema)
      (h : Runs migration.apply working left)
      (htarget : Sqlite.userVersion (Sqlite.setUserVersion migration.toSchema left) =
        migration.toSchema) :
      ChainRuns (front ++ [migration]) content (Sqlite.setUserVersion migration.toSchema left)

/-- The current schema, with every operation of the chain applied once. -/
def Migrated (registry : ApplicationMigrationRegistry Content) (content left : Content) : Prop :=
  Sqlite.userVersion left = registry.current ∧
    ∃ path, pathFrom registry (Sqlite.userVersion content) = some path ∧
      ChainRuns path content left

/-- The database as it was, or migrated. -/
def Allowed (registry : ApplicationMigrationRegistry Content) (content left : Content) : Prop :=
  left = content ∨ Migrated registry content left

/-- What statements leave that are executed without a transaction has a property. -/
def Harmless (allowed : Content → Prop) : OperationOf Content → Content → Prop
  | .returned, _ => True
  | .raised, _ => True
  | .execute statement next, content =>
      (∀ result left, StatementStep statement content result left →
        allowed left ∧ Harmless allowed (next result) left) ∧
      (Sqlite.controlsTransaction statement = false →
        Harmless allowed (next .rolledBack) content)

/-- An operation that starts in a transaction is harmless behind every statement that can end the
transaction. -/
def Confined (allowed : Content → Prop) (content : Content) : OperationOf Content → Content → Prop
  | .returned, _ => True
  | .raised, _ => True
  | .execute statement next, working =>
      (∀ result left, StatementStep statement working result left →
        Confined allowed content (next result) left) ∧
      (Sqlite.controlsTransaction statement = false →
        Harmless allowed (next .rolledBack) content)

/-- Every operation that the chain for a sound database comes to is confined to the transaction. -/
def ChainConfined (registry : ApplicationMigrationRegistry Content) (content : Content) : Prop :=
  Sqlite.quickCheck content = true →
    ∀ front migration back,
      pathFrom registry (Sqlite.userVersion content) = some (front ++ migration :: back) →
        ∀ working, ChainRuns front content working →
          Sqlite.userVersion working = migration.fromSchema →
            Confined (Allowed registry content) content migration.apply working

/-! ## The end of a chain -/

variable {migration : ApplicationMigration Content}
  {registry : ApplicationMigrationRegistry Content} {found : Int}

private theorem climb_last {migrations front : List (ApplicationMigration Content)}
    {left version : Nat}
    (h : climb migrations left version = some (front ++ [migration])) :
    migration.toSchema = version + left := by
  induction left generalizing front version with
  | zero =>
    rw [climb] at h
    exact absurd (Option.some.inj h).symm (List.append_ne_nil_of_right_ne_nil _ (by simp))
  | succ left ih =>
    rw [climb] at h
    split at h
    · cases h
    · next first hfirst =>
      have hversion : first.fromSchema = version := of_decide_eq_true (List.find?_some hfirst :)
      have hnext := first.adjacent.2
      obtain ⟨rest, hrest, hpath⟩ := Option.map_eq_some_iff.mp h
      cases front with
      | nil =>
        obtain ⟨rfl, rfl⟩ := List.cons.inj hpath
        cases left with
        | zero => omega
        | succ left =>
          rw [climb] at hrest
          split at hrest
          · cases hrest
          · obtain ⟨more, -, hmore⟩ := Option.map_eq_some_iff.mp hrest
            cases hmore
      | cons other front =>
        obtain ⟨-, rfl⟩ := List.cons.inj hpath
        have hlast := ih hrest
        omega

/-- The last migration of a chain leads to the current schema. -/
theorem pathFrom_last {front : List (ApplicationMigration Content)}
    (h : pathFrom registry found = some (front ++ [migration])) :
    migration.toSchema = registry.current := by
  unfold pathFrom at h
  split at h
  · exact absurd (Option.some.inj h).symm (List.append_ne_nil_of_right_ne_nil _ (by simp))
  split at h
  · cases h
  · next hrange =>
    have hlast := climb_last h
    omega

/-- A chain is empty when the schema is current. -/
theorem pathFrom_nil (h : pathFrom registry found = some []) : found = registry.current := by
  unfold pathFrom at h
  split at h
  · assumption
  split at h
  · cases h
  · next hcurrent hrange =>
    obtain ⟨left, hleft⟩ : ∃ left, registry.current - found.toNat = left + 1 :=
      Nat.exists_eq_succ_of_ne_zero (by omega)
    rw [hleft, climb] at h
    split at h
    · cases h
    · obtain ⟨more, -, hmore⟩ := Option.map_eq_some_iff.mp h
      cases hmore

/-- The first migration of a chain starts at the schema that was found. -/
theorem pathFrom_first
    {first : ApplicationMigration Content} {rest : List (ApplicationMigration Content)}
    (h : pathFrom registry found = some (first :: rest)) : (first.fromSchema : Int) = found := by
  unfold pathFrom at h
  split at h
  · cases h
  split at h
  · cases h
  · next hrange =>
    cases hleft : registry.current - found.toNat with
    | zero =>
      rw [hleft] at h
      cases h
    | succ left =>
      rw [hleft, climb] at h
      split at h
      · cases h
      · next migration hmigration =>
        obtain ⟨more, -, hmore⟩ := Option.map_eq_some_iff.mp h
        obtain ⟨rfl, -⟩ := List.cons.inj hmore
        have hversion : migration.fromSchema = found.toNat :=
          of_decide_eq_true (List.find?_some hmigration :)
        omega

end Operations

/-! ## Steps on the connection -/

section Steps

variable {Content α : Type} {P : Connection Content → Prop}
  {Q : α → Connection Content → Prop} {E : MigrationFault → Connection Content → Prop}
  {C : Connection Content → Prop}

/-- A property of the connection of a session. -/
def On (P : Connection Content → Prop) (s : Session Content) : Prop := P s.connection

variable {f : Connection Content → Except MigrationFault (α × Connection Content)}

private theorem access_spec (hdone : ∀ c a d, P c → f c = .ok (a, d) → Q a d ∧ E .sqlite d)
    (herror : ∀ c e, P c → f c = .error e → E e c)
    (hfailed : ∀ c, P c → E .sqlite c ∧ E .sqlite c.closed) :
    Hoare (On P) (access f) (fun a => On (Q a)) (fun e => On (E e)) := by
  intro s hs
  unfold access
  cases houtcome : s.outcomes.headD .done with
  | failed => exact (hfailed _ hs).1
  | rolledBack => exact (hfailed _ hs).2
  | done =>
    cases hf : f s.connection with
    | error e => exact herror _ e hs hf
    | ok r => exact (hdone _ r.1 r.2 hs hf).1
  | lost =>
    cases hf : f s.connection with
    | error e => exact herror _ e hs hf
    | ok r => exact (hdone _ r.1 r.2 hs hf).2

/-- What a step of the migration leaves, when it is done and when it fails. -/
theorem perform_spec (hdone : ∀ c a d, P c → f c = .ok (a, d) → Q a d ∧ E .sqlite d)
    (herror : ∀ c e, P c → f c = .error e → E e c)
    (hfailed : ∀ c, P c → E .sqlite c ∧ E .sqlite c.closed)
    (hQ : ∀ a c, Q a c → C c) (hE : ∀ e c, E e c → C c) :
    Triple (On P) (perform f) (fun a => On (Q a)) (fun e => On (E e)) (On C) :=
  Triple.durable (access_spec hdone herror hfailed) (fun a s => hQ a s.connection)
    fun e s => hE e s.connection

/-- A requirement holds behind it. -/
theorem require_spec {P : Session Content → Prop} {E : MigrationFault → Session Content → Prop}
    {C : Session Content → Prop} {holds : Bool} {fault : MigrationFault}
    (herror : holds = false → ∀ s, P s → E fault s) :
    Triple P (require holds fault) (fun _ s => P s ∧ holds = true) E C := by
  cases holds with
  | true => exact Triple.pure fun s hs => ⟨hs, rfl⟩
  | false => exact Triple.throw fun s hs => herror rfl s hs

end Steps

section Chain

variable {Content : Type} [Sqlite Content] {registry : ApplicationMigrationRegistry Content}
  {content : Content}

/-- The transaction of the chain is open, with the backup at its place. -/
def Opened (content working : Content) (c : Connection Content) : Prop :=
  c = ⟨content, some working, some content⟩

/-- The transaction is over, and the database is as it was or migrated. -/
def Ended (registry : ApplicationMigrationRegistry Content) (content : Content)
    (c : Connection Content) : Prop :=
  c.transaction = none ∧ c.backup = some content ∧ Allowed registry content c.content

/-- Whatever becomes of the transaction, the database is as it was or migrated. -/
def Recoverable (registry : ApplicationMigrationRegistry Content) (content : Content)
    (c : Connection Content) : Prop :=
  c.backup = some content ∧ (c.content = content ∨ Ended registry content c)

/-- What a fault of the chain leaves. -/
def Settled (registry : ApplicationMigrationRegistry Content) (content : Content)
    (fault : MigrationFault) (c : Connection Content) : Prop :=
  Recoverable registry content c ∧
    ∀ fromSchema toSchema, fault = .step fromSchema toSchema → c.content = content

variable {working : Content} {c : Connection Content}

/-- What is open can be recovered. -/
theorem Opened.recoverable (h : Opened content working c) : Recoverable registry content c := by
  subst h
  exact ⟨rfl, Or.inl rfl⟩

/-- What is open and then closed has ended. -/
theorem Opened.closed (h : Opened content working c) :
    Ended registry content c.closed := by
  subst h
  exact ⟨rfl, rfl, Or.inl rfl⟩

/-- What has ended can be recovered. -/
theorem Ended.recoverable (h : Ended registry content c) :
    Recoverable registry content c :=
  ⟨h.2.1, Or.inr h⟩

/-- A connection that is closed can still be recovered. -/
theorem Recoverable.closed (h : Recoverable registry content c) :
    Recoverable registry content c.closed := by
  obtain ⟨hbackup, hcontent | hended⟩ := h
  · exact ⟨hbackup, Or.inl hcontent⟩
  · exact ⟨hbackup, Or.inr ⟨rfl, hbackup, hended.2.2⟩⟩

/-! ## Operations -/

omit [Sqlite Content] in
/-- Writing what is seen changes nothing. -/
theorem write_view (c : Connection Content) : c.write c.view = c := by
  obtain ⟨content, _ | working, backup⟩ := c
  · rfl
  · rfl

private theorem executeStatement_cases (statement : Sqlite.Statement Content) (s : Session Content)
    :
    (∃ result left, StatementStep statement s.connection.view result left ∧
        (executeStatement statement s).1 = result ∧
        (executeStatement statement s).2.connection = s.connection.write left) ∨
      Sqlite.controlsTransaction statement = false ∧
        (executeStatement statement s).1 = .rolledBack ∧
        (executeStatement statement s).2.connection = s.connection.closed := by
  have hkept := write_view s.connection
  unfold executeStatement
  cases hcontrols : Sqlite.controlsTransaction statement with
  | true => exact Or.inl ⟨_, _, .refused hcontrols, rfl, hkept.symm⟩
  | false =>
    simp only [Bool.false_eq_true, if_false]
    cases s.outcomes.headD .done with
    | failed => exact Or.inl ⟨_, _, .interrupted hcontrols, rfl, hkept.symm⟩
    | lost => exact Or.inl ⟨_, _, .interrupted hcontrols, rfl, hkept.symm⟩
    | rolledBack => exact Or.inr ⟨trivial, rfl, rfl⟩
    | done =>
      cases heffect : Sqlite.effect statement s.connection.view with
      | done left answer => exact Or.inl ⟨_, _, .answered hcontrols heffect, rfl, rfl⟩
      | failed left => exact Or.inl ⟨_, _, .failed hcontrols heffect, rfl, rfl⟩
      | rolledBack => exact Or.inr ⟨trivial, rfl, rfl⟩

private theorem statement_spec {P : Session Content → Prop} {statement : Sqlite.Statement Content}
    {R : StatementResult (Sqlite.Answer Content) → Connection Content → Prop}
    {E : MigrationFault → Session Content → Prop} {C : Connection Content → Prop}
    (hstep : ∀ s result left, P s → StatementStep statement s.connection.view result left →
      R result (s.connection.write left))
    (hrolled : ∀ s, P s → Sqlite.controlsTransaction statement = false →
      R .rolledBack s.connection.closed)
    (hC : ∀ result c, R result c → C c) (hE : ∀ e s, E e s → On C s) :
    Triple P (Proc.durable (EStateM.modifyGet (executeStatement statement)))
      (fun result => On (R result)) E (On C) := by
  refine Triple.durable (fun s hs => ?_) (fun result t ht => hC result t.connection ht) hE
  rw [run_modifyGet, settles_ok]
  change R _ _
  rcases executeStatement_cases statement s with
    ⟨result, left, h, hresult, hleft⟩ | ⟨h, hresult, hleft⟩
  · rw [hresult, hleft]
    exact hstep s result left hs h
  · rw [hresult, hleft]
    exact hrolled s hs h

private theorem runOperation_ended (operation : OperationOf Content) :
    Triple (On fun c => Ended registry content c ∧
        Harmless (Allowed registry content) operation c.content)
      (runOperation operation) (fun _ => On (Ended registry content))
      (fun _ => On (Ended registry content)) (On (Ended registry content)) := by
  induction operation with
  | returned => exact Triple.pure fun s hs => hs.1
  | raised => exact Triple.throw fun s hs => hs.1
  | execute statement next ih =>
    refine Triple.bind (statement_spec (R := fun result c => Ended registry content c ∧
      Harmless (Allowed registry content) (next result) c.content) ?_ ?_
      (fun _ _ h => h.1) fun _ _ h => h) fun result => ih result
    · rintro ⟨⟨current, transaction, backup⟩, outcomes⟩ result left
        ⟨⟨htransaction, hbackup, -⟩, hsafe⟩ hstep
      change transaction = none at htransaction
      subst htransaction
      have hnext := hsafe.1 result left hstep
      exact ⟨⟨rfl, hbackup, hnext.1⟩, hnext.2⟩
    · rintro s ⟨⟨-, hbackup, hallowed⟩, hsafe⟩ hfree
      exact ⟨⟨rfl, hbackup, hallowed⟩, hsafe.2 hfree⟩

/-- A confined operation returns in the transaction, or behind its end with the database as it was
or migrated. -/
theorem runOperation_spec (operation : OperationOf Content)
    (h : Confined (Allowed registry content) content operation working) :
    Triple (On (Opened content working)) (runOperation operation)
      (fun _ => On fun c => (∃ left, Runs operation working left ∧ Opened content left c) ∨
        Ended registry content c)
      (fun _ => On (Recoverable registry content)) (On (Recoverable registry content)) := by
  induction operation generalizing working with
  | returned => exact Triple.pure fun s hs => Or.inl ⟨working, .returned working, hs⟩
  | raised => exact Triple.throw fun s hs => Opened.recoverable hs
  | execute statement next ih =>
    refine Triple.bind (statement_spec (R := fun result c =>
      (∃ left, StatementStep statement working result left ∧ Opened content left c) ∨
        Ended registry content c ∧ Harmless (Allowed registry content) (next result) c.content)
      ?_ ?_ ?_ fun _ _ h => h) fun result => ?_
    · rintro ⟨c, outcomes⟩ result left hs hstep
      cases hs
      exact Or.inl ⟨left, hstep, rfl⟩
    · rintro ⟨c, outcomes⟩ hs hfree
      have hended : Ended registry content c.closed := Opened.closed hs
      cases hs
      exact Or.inr ⟨hended, h.2 hfree⟩
    · rintro result c (⟨left, -, hopened⟩ | ⟨hended, -⟩)
      · exact hopened.recoverable
      · exact hended.recoverable
    · rintro s (⟨left, hstep, hopened⟩ | hended)
      · have hrest := ih result (h.1 result left hstep) s hopened
        refine hrest.mono ?_ fun e t ht => ht
        rintro a t ⟨⟨final, hruns, hfinal⟩ | hend, hleaves⟩
        · exact ⟨Or.inl ⟨final, .execute hstep hruns, hfinal⟩, hleaves⟩
        · exact ⟨Or.inr hend, hleaves⟩
      · have hrest := runOperation_ended (next result) s hended
        refine hrest.mono (fun a t ht => ⟨Or.inr ht.1, ?_⟩) fun e t ht => ⟨ht.1.recoverable, ?_⟩
        · exact fun u hu => (ht.2 u hu).imp_right Ended.recoverable
        · exact fun u hu => (ht.2 u hu).imp_right Ended.recoverable

end Chain

end AwesomeAgent.Migrations
