import AwesomeAgent.Tools.ToolAudit

/-!
# Permission before the handler

The handler of a tool runs only in a call that was admitted and described, and that the policy or
the user let through. Over the calls of a session, a grant is recorded and used only for the
capability that it was given for.
-/

namespace AwesomeAgent.ToolExecution

open Agent (UrlGrammar)
open Permissions

section Gating

variable {A : Type} {before : List (Call A)} {thread : Text}
  {registered : Option (RegisteredTool A)} {tool : RegisteredTool A} {arguments : A}
  {description : ToolInvocationDescription}
  {facts : List (Call A)}

/-! ## The permission -/

variable {E : Raised → Logged PermissionSession (Call A) Choice → Prop}

private theorem record_spec {stage : Stage}
    (call : Call A) (hlaw : ∀ calls, law before thread registered calls call)
    (hclears : ∀ grant, call.clears grant = false) (habsent : stage.absent call = false) :
    Hoare (Known before thread registered stage facts) (Logged.record call : Exec A Unit)
      (fun _ => Known before thread registered stage (call :: facts)) E :=
  Logged.record_knows fun _ _ h _ => h.plain (hlaw _) hclears (Nat.le_refl _) habsent

private theorem admitAndDescribe_spec (context : ToolExecutionContext) :
    Hoare (Known before thread registered .unrun []) (admitAndDescribe tool context arguments)
      (fun description s => description.isValid = true ∧ Known before thread registered .unrun
        [.described arguments description, .admitted arguments] s)
      (fun _ => Known before thread registered .unrun []) := by
  refine Hoare.bind (Logged.lift_spec fun _ _ h => h) fun admission => ?_
  cases admission with
  | improper => exact .throw fun _ h => h.1
  | proper _ =>
    refine Hoare.bind (R := fun _ => Known before thread registered .unrun [.admitted arguments]) ?_
      fun _ => ?_
    · exact (record_spec (.admitted arguments) (fun _ => trivial) (fun _ => rfl)
        rfl).conseq (fun _ h => h.1) (fun _ _ h => h) (fun _ _ h => h)
    refine Hoare.bind (Logged.lift_spec fun _ _ h => h.mono (fun _ _ h => h) (List.nil_subset _))
      fun described => ?_
    cases described with
    | improper => exact .throw fun _ h => h.1.mono (fun _ _ h => h) (List.nil_subset _)
    | proper description =>
      dsimp only
      split
      · next hvalid =>
        refine Hoare.bind (R := fun _ => Known before thread registered .unrun
          [.described arguments description, .admitted arguments]) ?_ fun _ => ?_
        · exact (record_spec (.described arguments description) (fun _ => trivial) (fun _ => rfl)
            rfl).conseq (fun _ h => h.1) (fun _ _ h => h) (fun _ _ h => h)
        · exact .pure fun _ h => ⟨hvalid, h⟩
      · exact .throw fun _ h => h.1.mono (fun _ _ h => h) (List.nil_subset _)

/-- A handler that has not run may run. -/
def Ready (before : List (Call A)) (thread : Text) (tool : RegisteredTool A) (arguments : A)
    (session : PermissionSession) (calls : List (Call A)) : Prop :=
  Lawful before thread (some tool) .unrun session calls ∧ Permitted tool calls arguments

private theorem Ready.steady : Steady (Ready before thread tool arguments) :=
  fun _ _ op h => ⟨h.1.elsewhere op, h.2.mono (List.subset_append_left _ _)⟩

/-- What is known of a call that is admitted and described. -/
abbrev Described (before : List (Call A)) (thread : Text) (tool : RegisteredTool A) (arguments : A)
    (description : ToolInvocationDescription) (more : List (Call A)) :
    Logged PermissionSession (Call A) Choice → Prop :=
  Known before thread (some tool) .unrun
    (more ++ [.described arguments description, .admitted arguments])

private theorem ready_of_described {s : Logged PermissionSession (Call A) Choice}
    {more : List (Call A)}
    (hvalid : description.isValid = true)
    (h : Described before thread tool arguments description more s)
    (hallowed : (∃ request decision, .decided request decision ∈ s.calls ∧
        request.capability = tool.spec.capability ∧ decision.action = .allow) ∨
      ∃ answer, .approved (approvalRequest tool.spec.capability description) answer ∈ s.calls ∧
        answer ≠ .deny) :
    Logged.Knows (Ready before thread tool arguments) [] s :=
  ⟨⟨h.1, h.2 (by simp), description, hvalid, h.2 (by simp), hallowed⟩, List.nil_subset _⟩

/-- The user is asked. -/
theorem askApproval_spec (context : ToolExecutionContext) (hvalid : description.isValid = true) :
    Hoare (Described before context.threadId tool arguments description [])
      (askApproval tool context description)
      (fun _ => Logged.Knows (Ready before context.threadId tool arguments) [])
      (fun _ => Known before context.threadId (some tool) .unrun []) := by
  unfold askApproval
  split
  · refine Hoare.bind (wait_spec (Lawful.steady _ _ _ _)) fun choice => ?_
    split
    · exact .throw fun _ h => h.mono (fun _ _ h => h) (List.nil_subset _)
    · exact .throw fun _ h => h.mono (fun _ _ h => h) (List.nil_subset _)
    · next answer _ _ =>
      refine Hoare.bind (R := fun _ => Described before context.threadId tool arguments description
        [.approved (approvalRequest tool.spec.capability description) answer]) ?_ fun _ => ?_
      · exact record_spec _ (fun _ => trivial) (fun _ => rfl) rfl
      refine Hoare.bind (Logged.lift_spec fun _ _ h => h.mono (fun _ _ h => h) (List.nil_subset _))
        fun grant => ?_
      have hready : ∀ s : Logged PermissionSession (Call A) Choice,
          grantOf tool.spec.capability context.threadId answer = .ok grant →
          Described before context.threadId tool arguments description
            [.approved (approvalRequest tool.spec.capability description) answer] s →
          Logged.Knows (Ready before context.threadId tool arguments) [] s := by
        intro s hgrant hs
        refine ready_of_described hvalid hs (Or.inr ⟨answer, hs.2 (by simp), ?_⟩)
        rintro rfl
        cases hgrant
      cases grant with
      | none => exact .pure fun s h => hready s h.2 h.1
      | some grant =>
        intro s hs
        have hfacts : [.approved (approvalRequest tool.spec.capability description) answer] ⊆
            s.calls := List.Subset.trans (by simp) hs.1.2
        refine (Logged.adjust_knows (K := Ready before context.threadId tool arguments)
          (E := fun _ => Known before context.threadId (some tool) .unrun []) ?_ ?_ s
          ⟨(hready s hs.2 hs.1).1, hfacts⟩).mono ?_ fun _ _ h => h
        · intro session calls next h hknown happly
          have hcapability := capability_of_grantOf hs.2
          refine ⟨?_, h.2.mono (List.subset_append_left _ _)⟩
          refine h.1.concat ⟨hcapability, answer, ?_, hs.2⟩ ?_ (Nat.le_refl _) rfl
          · exact hknown List.mem_cons_self
          · refine h.1.explains.grant happly ?_ fun _ => rfl
            rw [hcapability]
            rfl
        · exact fun _ _ h => h.mono (fun _ _ h => h.1) (List.nil_subset _)
        · exact fun _ _ h => h.mono (fun _ _ h => h) (List.nil_subset _)
  · exact .throw fun _ h => h.mono (fun _ _ h => h) (List.nil_subset _)

/-- The policy decides, and the user where it asks. -/
theorem obtainPermission_spec (executor : ToolExecutor A) (context : ToolExecutionContext)
    (hvalid : description.isValid = true) :
    Hoare (Described before context.threadId tool arguments description [])
      (obtainPermission executor tool context description)
      (fun _ => Logged.Knows (Ready before context.threadId tool arguments) [])
      (fun _ => Known before context.threadId (some tool) .unrun []) := by
  intro s hs
  have hnone : Known before context.threadId (some tool) .unrun [] s :=
    hs.mono (fun _ _ h => h) (List.nil_subset _)
  unfold obtainPermission
  refine Settles.bind (R := fun session t => t = s ∧ session = s.state) ⟨rfl, rfl⟩ ?_
  rintro session t ⟨ht, hsession⟩
  rw [ht, hsession]
  refine Settles.bind (Logged.lift_spec (P := fun t => t = s) (fun _ _ h => h ▸ hnone) s rfl) ?_
  rintro answer t ⟨ht, -⟩
  rw [ht]
  cases answer with
  | improper => exact hnone
  | proper decision =>
    dsimp only
    split
    · have hdecided : ∀ call : Call A,
          (∀ calls, Lawful before context.threadId (some tool) .unrun s.state calls →
            law before context.threadId (some tool) calls call) →
          (∀ grant, call.clears grant = false) →
          Stage.unrun.absent call = false →
          Settles (fun _ => Described before context.threadId tool arguments description [call])
            (fun _ => Known before context.threadId (some tool) .unrun [])
            ((Logged.record call : Exec A Unit) s) := by
        intro call hlaw hclears habsent
        refine Logged.record_knows (J := fun session calls =>
          Lawful before context.threadId (some tool) .unrun session calls ∧ session = s.state)
          (fun session calls h _ => ?_) s ⟨⟨hs.1, rfl⟩, hs.2⟩
        exact h.1.plain (hlaw calls (h.2 ▸ h.1)) hclears (Nat.le_refl _) habsent
      refine Settles.bind (hdecided _ (fun calls h => h.explains) (fun _ => rfl) rfl) ?_
      intro _ t ht
      cases haction : decision.action with
      | deny => exact ht.mono (fun _ _ h => h) (List.nil_subset _)
      | ask =>
        refine askApproval_spec context hvalid t (ht.mono (fun _ _ h => h) ?_)
        exact List.subset_append_right _ _
      | allow =>
        exact ready_of_described hvalid ht
          (Or.inl ⟨_, decision, ht.2 (List.mem_append_left _ List.mem_cons_self), rfl, haction⟩)
    · exact hnone

/-! ## The handler -/

private theorem logInvoked_spec (invoked : Bool) :
    Hoare (Logged.Knows (Ready before thread tool arguments) [])
      (logInvoked arguments invoked : Exec A Unit)
      (fun _ => Known before thread (some tool) .unaudited []) E := by
  cases invoked with
  | false =>
    exact .pure fun _ h => h.mono (fun _ _ h => h.1.weaken (by decide)) (List.nil_subset _)
  | true =>
    refine Hoare.conseq (Logged.record_knows (K := Lawful before thread (some tool) .unaudited)
      fun session calls h _ => ?_) (fun _ h => h)
      (fun _ _ h => h.mono (fun _ _ h => h) (List.nil_subset _)) (fun _ _ h => h)
    refine h.1.plain ⟨fun call hcall => ?_, tool, rfl, h.2⟩ (fun _ => rfl) (by decide) rfl
    have habsent := h.1.absent call hcall
    simp only [Stage.absent, Bool.or_eq_false_iff] at habsent
    exact habsent.1.1

private theorem invokeWithDeadline_spec :
    Hoare (Logged.Knows (Ready before thread tool arguments) [])
      (invokeWithDeadline arguments : Exec A (Returned ToolOutput))
      (fun _ => Known before thread (some tool) .unaudited [])
      (fun _ => Known before thread (some tool) .unaudited []) := by
  refine Hoare.bind (wait_spec Ready.steady) fun choice => ?_
  cases choice.handler with
  | interrupted invoked =>
    refine Hoare.bind (logInvoked_spec invoked) fun _ => ?_
    exact Hoare.bind (wait_spec (Lawful.steady _ _ _ _)) fun _ => .throw fun _ h => h
  | late invoked =>
    refine Hoare.bind (logInvoked_spec invoked) fun _ => ?_
    exact Hoare.bind (wait_spec (Lawful.steady _ _ _ _)) fun _ => .throw fun _ h => h
  | returned output => exact Hoare.bind (logInvoked_spec true) fun _ => .pure fun _ h => h
  | raised fault => exact Hoare.bind (logInvoked_spec true) fun _ => .throw fun _ h => h

private theorem failUnexpectedly_spec {α : Type} (request : ToolRequest)
    (context : ToolExecutionContext)
    (presentation : ToolPresentation) (message : Text) :
    Hoare (Known before thread registered .unrun facts)
      (failUnexpectedly request context presentation message : Exec A α)
      (fun _ => Ended before thread registered) (fun _ => Ended before thread registered) := by
  refine Hoare.bind (emitStartedWithCancellation_spec request context presentation (by decide))
    fun _ => ?_
  refine Hoare.bind ((finalizeUnexpectedFailure_spec request context presentation).conseq
    (fun _ h => h.mono (fun _ _ h => h.weaken (by decide)) (List.Subset.refl _)) (fun _ _ h => h)
    fun _ _ h => h) fun _ => ?_
  exact .throw fun _ h => h

private theorem failCancelled_spec {α : Type} (request : ToolRequest)
    (context : ToolExecutionContext)
    (presentation : ToolPresentation) :
    Hoare (Known before thread registered .unrun facts)
      (failCancelled request context presentation : Exec A α)
      (fun _ => Ended before thread registered) (fun _ => Ended before thread registered) := by
  refine Hoare.bind (finishCancellationSafe_spec (emitStarted_spec request presentation)
    (fun _ => Lawful.steady _ _ _ _) fun _ _ _ h => h.cancelled) fun _ => ?_
  refine Hoare.bind ((finalizeCancellation_spec request context presentation).conseq
    (fun _ h => h.mono (fun _ _ h => h.weaken (by decide)) (List.Subset.refl _)) (fun _ _ h => h)
    fun _ _ h => h) fun _ => ?_
  exact .throw fun _ h => h

section Execution

variable [UrlGrammar]

private theorem runHandler_spec (executor : ToolExecutor A) (context : ToolExecutionContext)
    (hvalid : description.isValid = true) :
    Hoare (Described before context.threadId tool arguments description [])
      (runHandler executor tool context arguments description)
      (fun _ => Known before context.threadId (some tool) .unaudited [])
      (fun _ => Known before context.threadId (some tool) .unaudited []) := by
  have hweak : ∀ s : Logged PermissionSession (Call A) Choice,
      Known before context.threadId (some tool) .unrun [] s →
        Known before context.threadId (some tool) .unaudited [] s :=
    fun s h => h.mono (fun _ _ h => h.weaken (by decide)) (List.nil_subset _)
  refine Hoare.bind ((obtainPermission_spec executor context hvalid).conseq (fun _ h => h)
    (fun _ _ h => h) fun _ s h => hweak s h) fun _ => ?_
  refine Hoare.bind (Logged.lift_spec fun _ s h => hweak s ⟨h.1.1, h.2⟩) fun _ => ?_
  have hinvoke : Hoare (Logged.Knows (Ready before context.threadId tool arguments) [])
      (invokeWithDeadline arguments : Exec A (Returned ToolOutput))
      (fun _ => Known before context.threadId (some tool) .unaudited [])
      (fun _ => Known before context.threadId (some tool) .unaudited []) := invokeWithDeadline_spec
  refine Hoare.bind (hinvoke.conseq (fun _ h => h.1) (fun _ _ h => h) fun _ _ h => h)
    fun output => ?_
  exact (Logged.lift_spec fun _ _ h => h).conseq (fun _ h => h) (fun _ _ h => h.1) fun _ _ h => h

private theorem executeDescribed_spec (executor : ToolExecutor A) (request : ToolRequest)
    (context : ToolExecutionContext) (hvalid : description.isValid = true) :
    Hoare (Described before context.threadId tool arguments description [])
      (executeDescribed executor tool request context arguments description)
      (fun _ => Ended before context.threadId (some tool))
      (fun _ => Ended before context.threadId (some tool)) := by
  refine Hoare.bind (Logged.lift_spec fun _ _ h => Known.ended h) fun presentation => ?_
  refine Hoare.bind ((emitStartedWithCancellation_spec request context presentation
    (by decide)).conseq (fun _ h => h.1) (fun _ _ h => h) fun _ _ h => h) fun _ => ?_
  refine Hoare.bind (Logged.attempt_spec (runHandler_spec executor context hvalid)) fun result => ?_
  have hunexpected : ∀ message : Text,
      Hoare (Known before context.threadId (some tool) .unaudited [])
      (do finalizeUnexpectedFailure request context presentation
          throw (.invariant message) : Exec A ToolResult)
      (fun _ => Ended before context.threadId (some tool))
      (fun _ => Ended before context.threadId (some tool)) := fun message =>
    Hoare.bind (finalizeUnexpectedFailure_spec request context presentation) fun _ =>
      .throw fun _ h => h
  cases result with
  | ok output =>
    refine Hoare.bind (finalizeHandlerOutcome_spec request context .success _ _) fun _ => ?_
    dsimp only
    split
    · exact .pure fun _ h => h
    · exact .throw fun _ h => h
  | error fault =>
    cases fault with
    | cancelled =>
      exact Hoare.bind (finalizeCancellation_spec request context presentation) fun _ =>
        .throw fun _ h => h
    | timeout => exact errorResult_spec request context _ presentation
    | expectedFailure failure =>
      dsimp only [Caught]
      cases validateExpectedToolFailure failure with
      | some details => exact errorResult_spec request context details presentation
      | none => exact hunexpected _
    | exit => exact .throw fun _ h => Known.ended h
    | _ => exact hunexpected _

private theorem failExpectedly_spec (request : ToolRequest) (context : ToolExecutionContext)
    (failure : ExpectedToolFailureDetails) (presentation : ToolPresentation) :
    Hoare (Known before thread registered .unrun facts)
      (failExpectedly request context failure presentation)
      (fun _ => Ended before thread registered) (fun _ => Ended before thread registered) := by
  refine Hoare.bind (emitStartedWithCancellation_spec request context presentation (by decide))
    fun _ => ?_
  exact (errorResult_spec request context failure presentation).conseq
    (fun _ h => h.mono (fun _ _ h => h.weaken (by decide)) (List.Subset.refl _)) (fun _ _ h => h)
    fun _ _ h => h

private theorem executeArguments_spec (executor : ToolExecutor A) (request : ToolRequest)
    (context : ToolExecutionContext) (presentation : ToolPresentation) (arguments : A) :
    Hoare (Known before context.threadId (some tool) .unrun [])
      (executeArguments executor tool request context presentation arguments)
      (fun _ => Ended before context.threadId (some tool))
      (fun _ => Ended before context.threadId (some tool)) := by
  refine Hoare.bind (Logged.attempt_spec (admitAndDescribe_spec context)) fun result => ?_
  cases result with
  | ok description =>
    intro s hs
    exact executeDescribed_spec executor request context hs.1 s hs.2
  | error fault =>
    cases fault with
    | cancelled => exact failCancelled_spec request context presentation
    | expectedFailure failure =>
      dsimp only [Caught]
      cases validateExpectedToolFailure failure with
      | some details => exact failExpectedly_spec request context details presentation
      | none => exact failUnexpectedly_spec request context presentation _
    | exit => exact .throw fun _ h => Known.ended h
    | _ => exact failUnexpectedly_spec request context presentation _

private theorem execute_spec (executor : ToolExecutor A) (request : ToolRequest)
    (context : ToolExecutionContext) :
    Hoare (Known before context.threadId (executor.resolve request.toolName) .unrun [])
      (execute executor request context)
      (fun _ => Ended before context.threadId (executor.resolve request.toolName))
      (fun _ => Ended before context.threadId (executor.resolve request.toolName)) := by
  refine Hoare.bind (Logged.lift_spec fun _ _ h => Known.ended h) fun presentation => ?_
  refine Hoare.conseq
    (P := Known before context.threadId (executor.resolve request.toolName) .unrun []) ?_
    (fun _ h => h.1) (fun _ _ h => h) (fun _ _ h => h)
  cases executor.resolve request.toolName with
  | none => exact failExpectedly_spec request context _ presentation
  | some tool =>
    dsimp only
    cases tool.parse request.arguments with
    | ok arguments => exact executeArguments_spec executor request context presentation arguments
    | error fault =>
      cases fault with
      | cancelled => exact failCancelled_spec request context presentation
      | validation => exact failExpectedly_spec request context _ presentation
      | exit => exact .throw fun _ h => Known.ended h
      | _ => exact failUnexpectedly_spec request context presentation _

/-! ## The calls of a session -/

/-- An execution: what it was started with, what was logged before, and its calls. -/
structure Execution (A : Type) where
  executor : ToolExecutor A
  request : ToolRequest
  context : ToolExecutionContext
  before : List (Call A)
  calls : List (Call A)

/-- A session of permissions with the executions so far and the log of all. -/
structure ToolSystem (A : Type) where
  session : PermissionSession
  log : List (Call A)
  executions : List (Execution A)

/-- What happens next: a call with the script of its waits, or an act of others. -/
inductive Action (A : Type)
  | execute (executor : ToolExecutor A) (request : ToolRequest) (context : ToolExecutionContext)
      (script : List Choice)
  | elsewhere (op : SessionOp)

namespace ToolSystem

/-- A session in which nothing has happened. -/
def new (mode : PermissionMode) : ToolSystem A := ⟨.new mode, [], []⟩

/-- One step. -/
def step (s : ToolSystem A) : Action A → ToolSystem A
  | .execute executor request context script =>
      let t := Logged.ending (execute executor request context ⟨s.session, [], script⟩)
      { session := t.state
        log := s.log ++ t.calls
        executions := s.executions ++ [⟨executor, request, context, s.log, t.calls⟩] }
  | .elsewhere op =>
      { s with
        session := op.apply s.session
        log := s.log ++ [.elsewhere op] }

/-- The session after a list of steps. -/
def run (mode : PermissionMode) (actions : List (Action A)) : ToolSystem A :=
  actions.foldl step (new mode)

/-- The grants are explained, and every execution was lawful. -/
structure Sound (s : ToolSystem A) : Prop where
  explains : Explains s.log s.session
  lawful : ∀ e ∈ s.executions,
    Throughout (law e.before e.context.threadId (e.executor.resolve e.request.toolName)) e.calls

private theorem Sound.step {s : ToolSystem A} (h : s.Sound) (action : Action A) :
    (s.step action).Sound := by
  cases action with
  | execute executor request context script =>
    have hstart : Known s.log context.threadId (executor.resolve request.toolName) .unrun []
        ⟨s.session, [], script⟩ := by
      refine ⟨⟨throughout_nil, ?_, nofun⟩, List.nil_subset _⟩
      rw [List.append_nil]
      exact h.explains
    have hend := Logged.ending_of_settles (execute_spec executor request context _ hstart)
    refine ⟨hend.1.explains, fun e he => ?_⟩
    rcases List.mem_append.mp he with he | he
    · exact h.lawful e he
    · rw [List.mem_singleton.mp he]
      exact hend.1.lawful
  | elsewhere op => exact ⟨h.explains.elsewhere op, h.lawful⟩

private theorem run_sound (mode : PermissionMode) (actions : List (Action A)) :
    (run mode actions).Sound := by
  unfold run
  induction actions using List.reverseRecOn with
  | nil => exact ⟨⟨nofun, nofun⟩, nofun⟩
  | append_singleton actions action ih =>
    rw [List.foldl_append]
    exact ih.step action

end ToolSystem

/-- An execution was gated and audited. -/
structure Execution.Gated (e : Execution A) : Prop where
  invokedOnce : e.calls.countP Call.isInvoked ≤ 1
  permitted : ∀ earlier arguments later, e.calls = earlier ++ .invoked arguments :: later →
    ∃ tool, e.executor.resolve e.request.toolName = some tool ∧ Permitted tool earlier arguments
  auditedOnce : e.calls.countP Call.isFinalizing ≤ 1
  announcedOnce : e.calls.countP Call.isTerminal ≤ 1
  announced : ∀ earlier payload later, e.calls = earlier ++ .terminal payload :: later →
    ∃ activity, Audited earlier activity ∧ Reports payload activity
  recorded : ∀ earlier question grant later, e.calls = earlier ++ .granted question grant :: later →
    grant.capability = question.capability ∧ ∃ answer, .approved question answer ∈ earlier ∧
      grantOf question.capability e.context.threadId answer = .ok (some grant)
  consumed : ∀ earlier request decision later,
    e.calls = earlier ++ .decided request decision :: later → decision = evaluate request →
      decision.action = .allow → (evaluate request.withoutGrants).action ≠ .allow →
        ∃ grant, grant.capability = request.capability ∧ Active (e.before ++ earlier) grant ∧
          ∀ threadId, grant = .network threadId → request.threadId = some threadId

omit [UrlGrammar] in
private theorem Execution.gated_of_lawful {e : Execution A}
    (h : Throughout (law e.before e.context.threadId (e.executor.resolve e.request.toolName))
      e.calls) : e.Gated where
  invokedOnce := by
    refine countP_le_one fun earlier call later hsplit hcall => ?_
    cases call with
    | invoked arguments => exact (h _ _ _ hsplit).1
    | _ => cases hcall
  permitted earlier arguments later hsplit := (h _ _ _ hsplit).2
  auditedOnce := by
    refine countP_le_one fun earlier call later hsplit hcall => ?_
    cases call with
    | finalizing activity => exact h _ _ _ hsplit
    | _ => cases hcall
  announcedOnce := by
    refine countP_le_one fun earlier call later hsplit hcall => ?_
    cases call with
    | terminal payload => exact (h _ _ _ hsplit).1
    | _ => cases hcall
  announced earlier payload later hsplit := (h _ _ _ hsplit).2
  recorded earlier question grant later hsplit := h _ _ _ hsplit
  consumed earlier request decision later hsplit hdecision hallow hneeded := by
    have hexplained : Explained (e.before ++ earlier) request.grantedCapabilities
        request.grantedThreadCapabilities := h _ _ _ hsplit
    rw [hdecision] at hallow
    rcases evaluate_consumes hallow hneeded with ⟨hnetwork, threadId, hid, hmem⟩ | hmem
    · refine ⟨.network threadId, hnetwork.symm, (hexplained.network _ hmem).2, ?_⟩
      intro other hother
      rw [hid, Grant.network.inj hother]
    · exact ⟨.writes, (hexplained.writes _ hmem).1.symm, (hexplained.writes _ hmem).2, nofun⟩

/-- In every run of a session, every execution was gated and audited, and the grants in force are
those that were given for their capabilities. -/
theorem executions_gated (mode : PermissionMode) (actions : List (Action A)) :
    (∀ e ∈ (ToolSystem.run mode actions).executions, e.Gated) ∧
      Explains (ToolSystem.run mode actions).log (ToolSystem.run mode actions).session :=
  ⟨fun e he => Execution.gated_of_lawful ((ToolSystem.run_sound mode actions).lawful e he),
    (ToolSystem.run_sound mode actions).explains⟩

end Execution

end Gating

/-! ## A cancelled call whose activity is not written -/

/-- A grammar without URLs. -/
@[reducible] def noUrls : UrlGrammar where
  splits := fun _ => false
  anyUrl := fun _ => false
  canonicalHostname := fun _ => none

/-- A tool without arguments. -/
def echoTool : RegisteredTool Unit where
  spec := ⟨"echo".toList, ToolCapability.workspaceRead.value, []⟩
  parse := fun _ => .ok ()
  admitter := fun _ _ => .ok (.proper ())
  describe := fun _ => .ok (.proper ⟨"Echo".toList, none, "echo".toList, "text".toList⟩)
  timeoutResolver := none

/-- An executor with the tool and the policy of capabilities. -/
def echoExecutor : ToolExecutor Unit where
  resolve := fun name => if name = "echo".toList then some echoTool else none
  timeoutSeconds := .number 30
  maxContentChars := 30000
  permissionPolicy := fun request => .ok (.proper (evaluate request))

/-- The caller is cancelled while the handler runs, and the writer of activities fails. -/
def interruptedScript : List Choice :=
  [.quiet, { Choice.quiet with handler := .interrupted true }, .quiet,
    { Choice.quiet with failure := some (.other "disk full".toList) }]

/-- The run of a cancelled call. -/
def interruptedRun : ToolSystem Unit :=
  @ToolSystem.run Unit noUrls .requestApproval [.execute echoExecutor
    ⟨"call_1".toList, "echo".toList, []⟩
    ⟨"thread_1".toList, "operation_1".toList, none, .direct, none, false⟩ interruptedScript]

/-- The terminal event of a cancelled call may come without its activity. -/
theorem terminal_event_without_activity :
    ∃ e ∈ interruptedRun.executions, e.calls.any Call.isTerminal = true ∧
      e.calls.any Call.isFinalized = false :=
  ⟨_, List.mem_cons_self, by decide, by decide +kernel⟩

end AwesomeAgent.ToolExecution
