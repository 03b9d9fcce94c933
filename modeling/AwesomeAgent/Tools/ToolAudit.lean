import AwesomeAgent.Tools.CallLaws

/-!
# The end of a call

However a call ends, its activity is written at most once, and the terminal event comes at most
once, behind the activity and with its outcome.
-/

namespace AwesomeAgent.ToolExecution

open Permissions

section Audit

variable {A α : Type} {before : List (Call A)} {thread : Text} {tool : Option (RegisteredTool A)}
  {stage : Stage} {facts : List (Call A)} {J : PermissionSession → List (Call A) → Prop}
  {E : Raised → Logged PermissionSession (Call A) Choice → Prop}

/-- What is known in a stage. -/
abbrev Known (before : List (Call A)) (thread : Text) (tool : Option (RegisteredTool A))
    (stage : Stage) (facts : List (Call A)) : Logged PermissionSession (Call A) Choice → Prop :=
  Logged.Knows (Lawful before thread tool stage) facts

/-- The log of an execution is lawful. -/
abbrev Ended (before : List (Call A)) (thread : Text) (tool : Option (RegisteredTool A)) :
    Logged PermissionSession (Call A) Choice → Prop :=
  Known before thread tool .settled []

variable {s : Logged PermissionSession (Call A) Choice} {activity : ToolActivityDraft}
  {request : ToolRequest} {presentation : ToolPresentation} {outcome : ToolOutcome}

/-- A known stage is over for a call that ended. -/
theorem Known.ended (h : Known before thread tool stage facts s) : Ended before thread tool s :=
  h.mono (fun _ _ hlawful => hlawful.weaken (by cases stage <;> decide)) (List.nil_subset _)

/-! ## Waits -/

/-- What every act of the others keeps. -/
def Steady (J : PermissionSession → List (Call A) → Prop) : Prop :=
  ∀ session calls op, J session calls → J (SessionOp.apply session op) (calls ++ [.elsewhere op])

/-- The acts of the others keep the law. -/
theorem Lawful.steady (before : List (Call A)) (thread : Text) (tool : Option (RegisteredTool A))
    (stage : Stage) : Steady (Lawful before thread tool stage) :=
  fun _ _ op h => h.elsewhere op

/-- A wait keeps what every act of the others keeps. -/
theorem wait_spec (hJ : Steady J) :
    Hoare (Logged.Knows J facts) (wait : Exec A Choice) (fun _ => Logged.Knows J facts) E := by
  refine Logged.wait_knows fun choice call hcall session calls h => ?_
  obtain ⟨op, -, rfl⟩ := List.mem_map.mp hcall
  exact hJ session calls op h

private theorem await_spec (hJ : Steady J) :
    Hoare (Logged.Knows J facts) (await : Exec A Unit) (fun _ => Logged.Knows J facts)
      (fun _ => Logged.Knows J facts) := by
  refine Hoare.bind (wait_spec hJ) fun choice => ?_
  cases choice.failure with
  | none => exact .pure fun _ h => h
  | some fault => exact .throw fun _ h => h

/-- What is known when it is known whether the caller is cancelled. -/
def factsAfter (facts : List (Call A)) (cancelled : Bool) : List (Call A) :=
  if cancelled then .cancelled :: facts else facts

private theorem logCancelled_spec (cancelled : Bool)
    (hJ : ∀ session calls, J session calls → J session (calls ++ [.cancelled])) :
    Hoare (Logged.Knows J facts) (logCancelled cancelled : Exec A Unit)
      (fun _ => Logged.Knows J (factsAfter facts cancelled)) E := by
  cases cancelled with
  | false => exact .pure fun _ h => h
  | true => exact Logged.record_knows fun session calls h _ => hJ session calls h

/-- A call may be cancelled at any stage. -/
theorem Lawful.cancelled {session : PermissionSession} {calls : List (Call A)}
    (h : Lawful before thread tool stage session calls) :
    Lawful before thread tool stage session (calls ++ [.cancelled]) :=
  h.plain trivial (fun _ => rfl) (Nat.le_refl _) (by cases stage <;> rfl)

/-- An action that is finished before a cancellation is exposed. -/
theorem finishCancellationSafe_spec {operation : Exec A α}
    {P : Logged PermissionSession (Call A) Choice → Prop}
    {found : α → PermissionSession → List (Call A) → Prop}
    (h : Hoare P operation (fun a => Logged.Knows (found a) facts)
      (fun _ => Known before thread tool stage facts)) (hsteady : ∀ a, Steady (found a))
    (hfound : ∀ a session calls, found a session calls → found a session (calls ++ [.cancelled])) :
    Hoare P (finishCancellationSafe operation)
      (fun r => Logged.Knows (found r.1) (factsAfter facts r.2))
      (fun _ => Ended before thread tool) := by
  refine Hoare.bind (Logged.attempt_spec h) fun result => ?_
  cases result with
  | ok value =>
    refine Hoare.bind (wait_spec (hsteady value)) fun choice => ?_
    refine Hoare.bind (logCancelled_spec choice.cancelled (hfound value)) fun _ => ?_
    exact .pure fun _ h => h
  | error fault =>
    refine Hoare.bind (wait_spec (Lawful.steady before thread tool stage)) fun choice => ?_
    refine Hoare.bind (logCancelled_spec choice.cancelled fun _ _ => Lawful.cancelled) fun _ => ?_
    exact .throw fun _ h => Known.ended h

/-! ## The activity and the terminal event -/

private theorem emit_spec {call : Call A} {valid : Bool}
    {J' : PermissionSession → List (Call A) → Prop}
    (h : ∀ session calls, J session calls → J' session (calls ++ [call]))
    (hJ : ∀ session calls, J session calls → J' session calls) (hsteady : Steady J') :
    Hoare (Logged.Knows J facts) (emit call valid) (fun _ => Logged.Knows J' facts)
      (fun _ => Logged.Knows J' facts) := by
  cases valid with
  | false => exact .throw fun _ h => h.mono hJ (List.Subset.refl _)
  | true =>
    refine Hoare.bind (Logged.record_knows fun session calls h' _ => h session calls h') fun _ => ?_
    exact (await_spec hsteady).conseq
      (fun _ h => h.mono (fun _ _ h => h) (List.subset_cons_self _ _)) (fun _ _ h => h)
      (fun _ _ h => h)

/-- The start of a call. -/
theorem emitStarted_spec (request : ToolRequest) (presentation : ToolPresentation) :
    Hoare (Known before thread tool stage facts) (emitStarted request presentation)
      (fun _ => Known before thread tool stage facts)
      (fun _ => Known before thread tool stage facts) := by
  refine emit_spec (fun _ _ h => ?_) (fun _ _ h => h) (Lawful.steady before thread tool stage)
  exact h.plain trivial (fun _ => rfl) (Nat.le_refl _) (by cases stage <;> rfl)

/-- The audit of a call names it and how it ended. -/
structure Describes (activity : ToolActivityDraft) (request : ToolRequest)
    (outcome : ToolOutcome) : Prop where
  outcome : activity.outcome = outcome
  callId : activity.callId = request.callId
  toolName : activity.toolName = request.toolName

private theorem terminalArtifacts_spec (request : ToolRequest) (context : ToolExecutionContext)
    (outcome : ToolOutcome) (presentation : ToolPresentation) (errorCode : Option Text) :
    Hoare (Known before thread tool stage facts)
      (terminalArtifacts request context outcome presentation errorCode)
      (fun r s => Known before thread tool stage facts s ∧ Describes r.2 request outcome)
      (fun _ => Ended before thread tool) := by
  refine Hoare.bind (Logged.foresee_knows _ _) fun elapsed => ?_
  dsimp only
  split
  · exact .pure fun _ h => ⟨h, rfl, rfl, rfl⟩
  · exact .throw fun _ h => Known.ended h

/-- The writing of an activity has ended; it has succeeded if that is sure. -/
structure Written (before : List (Call A)) (thread : Text) (tool : Option (RegisteredTool A))
    (activity : ToolActivityDraft) (sure : Prop) (session : PermissionSession)
    (calls : List (Call A)) : Prop where
  lawful : Lawful before thread tool .unannounced session calls
  begun : .finalizing activity ∈ calls
  ended : .finalized activity ∈ calls ∨ .auditFailed activity ∈ calls
  surely : sure → .finalized activity ∈ calls

section Written

variable {activity : ToolActivityDraft} {sure : Prop}

private theorem Written.concat {session next : PermissionSession} {calls : List (Call A)}
    {call : Call A}
    (h : Written before thread tool activity sure session calls)
    (hlawful : Lawful before thread tool .unannounced next (calls ++ [call])) :
    Written before thread tool activity sure next (calls ++ [call]) where
  lawful := hlawful
  begun := List.mem_append_left _ h.begun
  ended := h.ended.imp (List.mem_append_left _) (List.mem_append_left _)
  surely hsure := List.mem_append_left _ (h.surely hsure)

private theorem Written.steady : Steady (Written before thread tool activity sure) :=
  fun _ _ op h => h.concat (h.lawful.elsewhere op)

private theorem Written.cancelled {session : PermissionSession} {calls : List (Call A)}
    (h : Written before thread tool activity sure session calls) :
    Written before thread tool activity sure session (calls ++ [.cancelled]) :=
  h.concat h.lawful.cancelled

end Written

private theorem finalize_spec (activity : ToolActivityDraft) :
    Hoare (Known before thread tool .unaudited facts) (finalize activity)
      (fun _ => Logged.Knows (Written before thread tool activity True) facts)
      (fun _ => Logged.Knows (Written before thread tool activity False) facts) := by
  have hbegin : Hoare (Known before thread tool .unaudited facts)
      (Logged.record (.finalizing activity) : Exec A Unit)
      (fun _ => Known before thread tool .unannounced (.finalizing activity :: facts))
      (fun _ => Logged.Knows (Written before thread tool activity False) facts) := by
    refine Logged.record_knows fun session calls h _ => ?_
    refine h.plain (fun call hcall => ?_) (fun _ => rfl) (by decide) rfl
    exact (Bool.or_eq_false_iff.mp (h.absent call hcall)).1
  refine Hoare.bind hbegin fun _ => ?_
  refine Hoare.bind (Logged.attempt_spec (await_spec (Lawful.steady _ _ _ _))) fun result => ?_
  cases result with
  | ok _ =>
    refine Hoare.conseq (Logged.record_knows (K := Written before thread tool activity True)
      fun session calls h hfacts => ?_) (fun _ h => h)
      (fun _ _ h => h.mono (fun _ _ h => h) ?_) (fun _ _ h => h)
    · refine ⟨h.plain trivial (fun _ => rfl) (Nat.le_refl _) rfl, ?_, ?_, fun _ => ?_⟩
      · exact List.mem_append_left _ (hfacts List.mem_cons_self)
      · exact Or.inl (List.mem_append_right _ List.mem_cons_self)
      · exact List.mem_append_right _ List.mem_cons_self
    · exact List.Subset.trans (List.subset_cons_self _ _) (List.subset_cons_self _ _)
  | error fault =>
    refine Hoare.bind (Logged.record_knows (K := Written before thread tool activity False)
      fun session calls h hfacts => ?_) fun _ => .throw fun _ h => h.mono (fun _ _ h => h) ?_
    · refine ⟨h.plain trivial (fun _ => rfl) (Nat.le_refl _) rfl, ?_, ?_, False.elim⟩
      · exact List.mem_append_left _ (hfacts List.mem_cons_self)
      · exact Or.inr (List.mem_append_right _ List.mem_cons_self)
    · exact List.Subset.trans (List.subset_cons_self _ _) (List.subset_cons_self _ _)

private theorem captureActivityError_spec (activity : ToolActivityDraft) :
    Hoare (Known before thread tool .unaudited facts) (captureActivityError activity)
      (fun auditError =>
        Logged.Knows (Written before thread tool activity (auditError = none)) facts)
      (fun _ => Known before thread tool .unannounced facts) := by
  refine Hoare.bind (Logged.attempt_spec (finalize_spec activity)) fun result => ?_
  cases result with
  | ok _ =>
    refine .pure fun _ h => h.mono (fun _ _ h => ?_) (List.Subset.refl _)
    exact ⟨h.lawful, h.begun, h.ended, fun _ => h.surely trivial⟩
  | error fault =>
    dsimp only
    split
    · refine .pure fun _ h => h.mono (fun _ _ h => ?_) (List.Subset.refl _)
      exact ⟨h.lawful, h.begun, h.ended, nofun⟩
    · exact .throw fun _ h => h.mono (fun _ _ h => h.lawful) (List.Subset.refl _)

private theorem persistActivityAfterCancellation_spec (activity : ToolActivityDraft) :
    Hoare (Known before thread tool .unaudited facts) (persistActivityAfterCancellation activity)
      (fun _ => Logged.Knows (Written before thread tool activity False) facts)
      (fun _ => Known before thread tool .unannounced facts) := by
  refine Hoare.bind (Logged.attempt_spec (finalize_spec activity)) fun result => ?_
  cases result with
  | ok _ =>
    refine .pure fun _ h => h.mono (fun _ _ h => ?_) (List.Subset.refl _)
    exact ⟨h.lawful, h.begun, h.ended, False.elim⟩
  | error fault =>
    cases fault with
    | exit => exact .throw fun _ h => h.mono (fun _ _ h => h.lawful) (List.Subset.refl _)
    | _ => exact .pure fun _ h => h

/-- The activity is settled, and the terminal event may follow. -/
def Announceable (before : List (Call A)) (thread : Text) (tool : Option (RegisteredTool A))
    (activity : ToolActivityDraft) (session : PermissionSession) (calls : List (Call A)) : Prop :=
  Lawful before thread tool .unannounced session calls ∧ Audited calls activity

private theorem Announceable.steady :
    Steady (Announceable before thread tool activity) :=
  fun _ _ op h => ⟨h.1.elsewhere op, h.2.mono (List.subset_append_left _ _)⟩

private theorem announceable_of_written {sure : Prop}
    (h : Logged.Knows (Written before thread tool activity sure) facts s)
    (hsettled : sure ∨ .cancelled ∈ facts) :
    Logged.Knows (Announceable before thread tool activity) [] s := by
  refine ⟨⟨h.1.lawful, h.1.begun, ?_⟩, List.nil_subset _⟩
  rcases hsettled with hsure | hcancelled
  · exact Or.inl (h.1.surely hsure)
  · exact h.1.ended.imp_right fun hfailed => ⟨hfailed, h.2 hcancelled⟩

private theorem emitTerminal_spec (hactivity : Describes activity request outcome) :
    Hoare (Logged.Knows (Announceable before thread tool activity) [])
      (emitTerminal request presentation activity outcome.event)
      (fun _ => Ended before thread tool) (fun _ => Ended before thread tool) := by
  refine emit_spec (fun session calls h => ?_) (fun _ _ h => h.1.weaken (by decide))
    (Lawful.steady _ _ _ _)
  refine h.1.plain ⟨fun call hcall => h.1.absent call hcall, activity, h.2, ?_⟩
    (fun _ => rfl) (by decide) rfl
  exact ⟨congrArg ToolOutcome.event hactivity.outcome.symm, hactivity.callId.symm,
    hactivity.toolName.symm, rfl, rfl⟩

private theorem finishTerminalEvent_spec (hactivity : Describes activity request outcome) :
    Hoare (Logged.Knows (Announceable before thread tool activity) [])
      (finishTerminalEvent (emitTerminal request presentation activity outcome.event))
      (fun _ => Ended before thread tool) (fun _ => Ended before thread tool) := by
  refine Hoare.bind (wait_spec Announceable.steady) fun choice => ?_
  split
  · refine Hoare.bind (Logged.attempt_spec (emitTerminal_spec hactivity)) fun result => ?_
    cases result with
    | ok _ => exact .pure fun _ h => h
    | error _ => exact .pure fun _ h => h
  · exact .pure fun _ h => h.mono (fun _ _ h => h.1.weaken (by decide)) (List.Subset.refl _)

/-! ## Ends -/

/-- The end of a cancelled call. -/
theorem finalizeCancellation_spec (request : ToolRequest) (context : ToolExecutionContext)
    (presentation : ToolPresentation) :
    Hoare (Known before thread tool .unaudited facts)
      (finalizeCancellation request context presentation)
      (fun _ => Ended before thread tool) (fun _ => Ended before thread tool) := by
  refine Hoare.bind (Logged.record_knows fun _ _ h _ => h.cancelled) fun _ => ?_
  refine Hoare.bind (terminalArtifacts_spec request context .cancelled _ _) ?_
  rintro ⟨measured, activity⟩
  refine Hoare.bind (R := fun _ s => Describes activity request .cancelled ∧
    Logged.Knows (Written before thread tool activity False) (.cancelled :: facts) s) ?_ ?_
  · intro s hs
    refine (finishCancellationSafe_spec (persistActivityAfterCancellation_spec activity)
      (fun _ => Written.steady) (fun _ _ _ => Written.cancelled) s hs.1).mono ?_ fun _ _ h => h
    intro r t h
    refine ⟨hs.2, h.mono (fun _ _ h => h) ?_⟩
    unfold factsAfter
    split
    · exact List.subset_cons_self _ _
    · exact List.Subset.refl _
  · intro _ s hs
    exact finishTerminalEvent_spec hs.1 s
      (announceable_of_written hs.2 (Or.inr List.mem_cons_self))

/-- The end of a call that ran to an outcome. -/
theorem finalizeHandlerOutcome_spec (request : ToolRequest) (context : ToolExecutionContext)
    (outcome : ToolOutcome) (presentation : ToolPresentation) (errorCode : Option Text) :
    Hoare (Known before thread tool .unaudited facts)
      (finalizeHandlerOutcome request context outcome presentation errorCode outcome.event)
      (fun _ => Ended before thread tool) (fun _ => Ended before thread tool) := by
  refine Hoare.bind (terminalArtifacts_spec request context outcome _ _) ?_
  rintro ⟨measured, activity⟩ s ⟨hs, hactivity⟩
  refine Settles.bind (finishCancellationSafe_spec (captureActivityError_spec activity)
      (fun _ => Written.steady) (fun _ _ _ => Written.cancelled) s hs) ?_
  rintro ⟨auditError, auditCancelled⟩ t ht
  dsimp only at ht hactivity ⊢
  cases auditCancelled with
  | true =>
    refine Settles.bind (finishTerminalEvent_spec hactivity t
      (announceable_of_written ht (Or.inr List.mem_cons_self))) fun _ u hu => ?_
    exact hu
  | false =>
    cases auditError with
    | some fault => exact ht.mono (fun _ _ h => h.lawful.weaken (by decide)) (List.nil_subset _)
    | none =>
      have hready := announceable_of_written ht (Or.inl rfl)
      refine Settles.bind (wait_spec Announceable.steady t hready) fun choice u hu => ?_
      cases choice.cancelled with
      | true => exact Settles.bind (finishTerminalEvent_spec hactivity u hu) fun _ _ h => h
      | false => exact Settles.bind (emitTerminal_spec hactivity u hu) fun _ _ h => h

/-- An unexpected failure is finalized like any other outcome. -/
theorem finalizeUnexpectedFailure_spec (request : ToolRequest) (context : ToolExecutionContext)
    (presentation : ToolPresentation) :
    Hoare (Known before thread tool .unaudited facts)
      (finalizeUnexpectedFailure request context presentation)
      (fun _ => Ended before thread tool) (fun _ => Ended before thread tool) :=
  Hoare.bind (finalizeHandlerOutcome_spec request context .error _ _) fun _ => .pure fun _ h => h

/-- An error becomes the result of the call. -/
theorem errorResult_spec [Agent.UrlGrammar] (request : ToolRequest) (context : ToolExecutionContext)
    (failure : ExpectedToolFailureDetails) (presentation : ToolPresentation) :
    Hoare (Known before thread tool .unaudited facts)
      (errorResult request context failure presentation)
      (fun _ => Ended before thread tool) (fun _ => Ended before thread tool) := by
  unfold errorResult
  dsimp only
  split
  · exact .throw fun _ h => Known.ended h
  · exact Hoare.bind (finalizeHandlerOutcome_spec request context .error _ _) fun _ =>
      .pure fun _ h => h

/-- The start of a call that may be cancelled meanwhile. -/
theorem emitStartedWithCancellation_spec (request : ToolRequest) (context : ToolExecutionContext)
    (presentation : ToolPresentation) (hstage : stage.rank ≤ Stage.unaudited.rank) :
    Hoare (Known before thread tool stage facts)
      (emitStartedWithCancellation request context presentation)
      (fun _ => Known before thread tool stage facts) (fun _ => Ended before thread tool) := by
  refine Hoare.bind (Logged.attempt_spec (emitStarted_spec request presentation)) fun result => ?_
  cases result with
  | ok _ => exact .pure fun _ h => h
  | error fault =>
    cases fault with
    | cancelled =>
      have hend : Hoare (Known before thread tool stage facts)
          (finalizeCancellation request context presentation) (fun _ => Ended before thread tool)
          (fun _ => Ended before thread tool) :=
        (finalizeCancellation_spec request context presentation).conseq
          (fun _ h => h.mono (fun _ _ h => h.weaken hstage) (List.Subset.refl _))
          (fun _ _ h => h) (fun _ _ h => h)
      exact Hoare.bind hend fun _ => .throw fun _ h => h
    | _ => exact .throw fun _ h => Known.ended h

end Audit

end AwesomeAgent.ToolExecution
