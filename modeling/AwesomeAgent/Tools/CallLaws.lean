import AwesomeAgent.Tools.ToolExecutor

/-!
# Laws of the calls of a tool

The log of an execution is lawful if its handler runs once and with permission, if its activity is
written once, and if its terminal event comes once, behind the activity and with the same outcome.
The grants of a session are those that the log explains.
-/

namespace AwesomeAgent.ToolExecution

open Permissions

section Laws

variable {A : Type}

/-! ## Grants -/

/-- The capability that a grant is used for. -/
def Grant.capability : Grant → Text
  | .writes => ToolCapability.workspaceWrite.value
  | .network _ => ToolCapability.networkRead.value

/-- The grant that a call records, with the capability that it was given for. -/
def Call.grant : Call A → Option (Text × Grant)
  | .granted question grant => some (question.capability, grant)
  | .elsewhere (.approval capability threadId answer) =>
      match grantOf capability threadId answer with
      | .ok (some grant) => some (capability, grant)
      | _ => none
  | _ => none

/-- A call takes a grant back. -/
def Call.clears (grant : Grant) : Call A → Bool
  | .elsewhere (.setMode _) => true
  | .elsewhere .reset => true
  | .elsewhere (.revokeThreadNetwork none) => decide (grant ≠ .writes)
  | .elsewhere (.revokeThreadNetwork (some threadId)) => decide (grant = .network threadId)
  | _ => false

/-- A grant was given for its capability and not taken back since. -/
def Active (log : List (Call A)) (grant : Grant) : Prop :=
  ∃ earlier call later, log = earlier ++ call :: later ∧
    call.grant = some (grant.capability, grant) ∧ ∀ other ∈ later, other.clears grant = false

/-- The grants of a session are active ones. -/
structure Explained (log : List (Call A)) (granted : List Text)
    (threadGranted : List (Text × Text)) : Prop where
  writes : ∀ capability ∈ granted, capability = Grant.writes.capability ∧ Active log .writes
  network : ∀ entry ∈ threadGranted, entry.2 = (Grant.network entry.1).capability ∧
    Active log (.network entry.1)

/-- A grant is of the capability that it was given for. -/
theorem capability_of_grantOf {capability threadId : Text} {answer : ToolApprovalDecision}
    {grant : Grant} (h : grantOf capability threadId answer = .ok (some grant)) :
    grant.capability = capability := by
  cases answer with
  | deny => cases h
  | allowOnce => cases h
  | allowThreadWrites =>
    simp only [grantOf] at h
    split at h
    · cases h
    · next hcapability =>
      cases h
      exact (not_not.mp hcapability).symm
  | allowThreadNetwork =>
    simp only [grantOf] at h
    split at h
    · cases h
    · next hcapability =>
      cases h
      exact (not_not.mp hcapability).symm

private theorem Active.concat {log : List (Call A)} {grant : Grant} {call : Call A}
    (h : Active log grant) (hcall : call.clears grant = false) : Active (log ++ [call]) grant := by
  obtain ⟨earlier, given, later, rfl, hgiven, hlater⟩ := h
  refine ⟨earlier, given, later ++ [call], by simp, hgiven, ?_⟩
  intro other hother
  rcases List.mem_append.mp hother with hother | hother
  · exact hlater other hother
  · rwa [List.mem_singleton.mp hother]

private theorem Active.given {log : List (Call A)} {grant : Grant} {call : Call A}
    (h : call.grant = some (grant.capability, grant)) : Active (log ++ [call]) grant :=
  ⟨log, call, [], rfl, h, nofun⟩

variable {log : List (Call A)} {session : PermissionSession}

/-- The grants of a session are explained. -/
def Explains (log : List (Call A)) (session : PermissionSession) : Prop :=
  Explained log session.grantedCapabilities session.threadGrantedCapabilities

private theorem Explained.concat {granted : List Text} {threadGranted : List (Text × Text)}
    (h : Explained log granted threadGranted) {call : Call A}
    (hcall : ∀ grant, call.clears grant = false) :
    Explained (log ++ [call]) granted threadGranted where
  writes capability hmem := (h.writes capability hmem).imp_right fun hactive =>
    hactive.concat (hcall _)
  network entry hmem := (h.network entry hmem).imp_right fun hactive => hactive.concat (hcall _)

/-- A recorded grant is explained by the call that records it. -/
theorem Explains.grant (h : Explains log session) {grant : Grant} {next : PermissionSession}
    (happly : grant.apply session = .ok next) {call : Call A}
    (hgrant : call.grant = some (grant.capability, grant))
    (hcall : ∀ other, call.clears other = false) : Explains (log ++ [call]) next := by
  have hkept := h.concat hcall
  cases grant with
  | writes =>
    cases happly
    refine ⟨fun capability hmem => ?_, hkept.network⟩
    rcases List.mem_insert_iff.mp hmem with rfl | hmem
    · exact ⟨rfl, .given hgrant⟩
    · exact hkept.writes capability hmem
  | network threadId =>
    simp only [Grant.apply, PermissionSession.grantThreadNetwork] at happly
    split at happly
    · next hsome =>
      cases happly
      split at hsome
      · cases hsome
      · cases hsome
        refine ⟨hkept.writes, fun entry hmem => ?_⟩
        rcases List.mem_insert_iff.mp hmem with rfl | hmem
        · exact ⟨rfl, .given hgrant⟩
        · exact hkept.network entry hmem
    · cases happly

/-- What others do is explained. -/
theorem Explains.elsewhere (h : Explains log session) (op : SessionOp) :
    Explains (log ++ [.elsewhere op]) (op.apply session) := by
  cases op with
  | setMode mode => exact ⟨nofun, nofun⟩
  | reset => exact ⟨nofun, nofun⟩
  | revokeThreadNetwork threadId =>
    constructor
    · intro capability hmem
      refine ⟨(h.writes capability hmem).1, (h.writes capability hmem).2.concat ?_⟩
      cases threadId <;> simp [Call.clears]
    · intro entry hmem
      obtain ⟨hmem, hkept⟩ := List.mem_filter.mp hmem
      refine ⟨(h.network entry hmem).1, (h.network entry hmem).2.concat ?_⟩
      have hnetwork := (h.network entry hmem).1
      cases threadId with
      | none =>
        simp only [Option.any_none, Bool.or_false, decide_eq_true_eq] at hkept
        exact absurd hnetwork hkept
      | some thread =>
        simp only [Option.any_some, Bool.or_eq_true, decide_eq_true_eq] at hkept
        have hother := hkept.resolve_left fun hne => hne hnetwork
        simpa [Call.clears] using hother
  | approval capability threadId answer =>
    have hclears : ∀ grant, (Call.elsewhere (.approval capability threadId answer) :
        Call A).clears grant = false := fun _ => rfl
    simp only [SessionOp.apply]
    cases hgrant : grantOf capability threadId answer with
    | error fault => exact h.concat hclears
    | ok granted =>
      cases granted with
      | none => exact h.concat hclears
      | some grant =>
        change Explains _ ((grant.apply session).toOption.getD session)
        cases happly : grant.apply session with
        | error fault => exact h.concat hclears
        | ok next =>
          refine h.grant happly ?_ hclears
          simp [Call.grant, hgrant, capability_of_grantOf hgrant]

/-! ## The log of an execution -/

/-- The handler is run. -/
def Call.isInvoked : Call A → Bool
  | .invoked _ => true
  | _ => false

/-- The activity is written. -/
def Call.isFinalizing : Call A → Bool
  | .finalizing _ => true
  | _ => false

/-- The activity has been written. -/
def Call.isFinalized : Call A → Bool
  | .finalized _ => true
  | _ => false

/-- The terminal event is emitted. -/
def Call.isTerminal : Call A → Bool
  | .terminal _ => true
  | _ => false

/-- The terminal event of an outcome. -/
def ToolOutcome.event : ToolOutcome → EventType
  | .success => .toolCompleted
  | .error => .toolFailed
  | .cancelled => .toolCancelled

/-- The handler of a tool may run: the arguments were admitted, the call was described, and the
policy allowed it or the user did not deny it when asked about it. -/
def Permitted (tool : RegisteredTool A) (earlier : List (Call A)) (arguments : A) : Prop :=
  .admitted arguments ∈ earlier ∧
  ∃ description, description.isValid = true ∧ .described arguments description ∈ earlier ∧
    ((∃ request decision, .decided request decision ∈ earlier ∧
        request.capability = tool.spec.capability ∧ decision.action = .allow) ∨
      ∃ answer, .approved (approvalRequest tool.spec.capability description) answer ∈ earlier ∧
        answer ≠ .deny)

/-- An event reports an activity. -/
structure Reports (payload : ToolResultPayload) (activity : ToolActivityDraft) : Prop where
  kind : payload.kind = activity.outcome.event
  callId : payload.callId = activity.callId
  toolName : payload.toolName = activity.toolName
  durationMs : payload.durationMs = activity.durationMs
  errorCode : payload.errorCode = activity.errorCode

/-- An activity is settled: it was written, or writing it failed in a cancelled call. -/
def Audited (earlier : List (Call A)) (activity : ToolActivityDraft) : Prop :=
  .finalizing activity ∈ earlier ∧
    (.finalized activity ∈ earlier ∨ (.auditFailed activity ∈ earlier ∧ .cancelled ∈ earlier))

/-- What may come behind the earlier calls of an execution in a Thread, which comes behind what was
before. -/
def law (before : List (Call A)) (thread : Text) (tool : Option (RegisteredTool A))
    (earlier : List (Call A)) : Call A → Prop
  | .decided request _ => Explained (before ++ earlier) request.grantedCapabilities
      request.grantedThreadCapabilities
  | .granted question grant => grant.capability = question.capability ∧
      ∃ answer, .approved question answer ∈ earlier ∧
        grantOf question.capability thread answer = .ok (some grant)
  | .invoked arguments => (∀ call ∈ earlier, call.isInvoked = false) ∧
      ∃ registered, tool = some registered ∧ Permitted registered earlier arguments
  | .finalizing _ => ∀ call ∈ earlier, call.isFinalizing = false
  | .terminal payload => (∀ call ∈ earlier, call.isTerminal = false) ∧
      ∃ activity, Audited earlier activity ∧ Reports payload activity
  | _ => True

/-- A permitted call stays permitted. -/
theorem Permitted.mono {tool : RegisteredTool A} {earlier more : List (Call A)} {arguments : A}
    (h : Permitted tool earlier arguments) (hmore : earlier ⊆ more) :
    Permitted tool more arguments := by
  obtain ⟨hadmitted, description, hvalid, hdescribed, hallowed⟩ := h
  refine ⟨hmore hadmitted, description, hvalid, hmore hdescribed, hallowed.imp ?_ ?_⟩
  · rintro ⟨request, decision, hdecided, hallow⟩
    exact ⟨request, decision, hmore hdecided, hallow⟩
  · rintro ⟨answer, hanswer, hdeny⟩
    exact ⟨answer, hmore hanswer, hdeny⟩

/-- A written activity stays written. -/
theorem Audited.mono {earlier more : List (Call A)} {activity : ToolActivityDraft}
    (h : Audited earlier activity) (hmore : earlier ⊆ more) : Audited more activity :=
  ⟨hmore h.1, h.2.imp (fun hdone => hmore hdone) fun hfailed => ⟨hmore hfailed.1, hmore hfailed.2⟩⟩

/-! ## Stages -/

/-- How far an execution has come. -/
inductive Stage
  | unrun
  | unaudited
  | unannounced
  | settled

/-- The calls that have not happened in a stage. -/
def Stage.absent : Stage → Call A → Bool
  | .unrun, call => call.isInvoked || call.isFinalizing || call.isTerminal
  | .unaudited, call => call.isFinalizing || call.isTerminal
  | .unannounced, call => call.isTerminal
  | .settled, _ => false

/-- The order of the stages. -/
def Stage.rank : Stage → Nat
  | .unrun => 0
  | .unaudited => 1
  | .unannounced => 2
  | .settled => 3

private theorem Stage.absent_anti {stage next : Stage} (h : stage.rank ≤ next.rank) {call : Call A}
    (hcall : stage.absent call = false) : next.absent call = false := by
  cases stage <;> cases next <;> cases call <;>
    first | exact absurd h (by decide) | rfl | cases hcall

/-- The log of an execution in a stage is lawful, and the session is explained. -/
structure Lawful (before : List (Call A)) (thread : Text) (tool : Option (RegisteredTool A))
    (stage : Stage) (session : PermissionSession) (calls : List (Call A)) : Prop where
  lawful : Throughout (law before thread tool) calls
  explains : Explains (before ++ calls) session
  absent : ∀ call ∈ calls, stage.absent call = false

namespace Lawful

variable {before calls : List (Call A)} {thread : Text} {tool : Option (RegisteredTool A)}
  {stage next : Stage}

/-- A later stage excludes less. -/
theorem weaken (h : Lawful before thread tool stage session calls)
    (hstage : stage.rank ≤ next.rank) :
    Lawful before thread tool next session calls where
  lawful := h.lawful
  explains := h.explains
  absent call hcall := Stage.absent_anti hstage (h.absent call hcall)

/-- A call that keeps the law. -/
theorem concat (h : Lawful before thread tool stage session calls) {call : Call A}
    {after : PermissionSession} (hlaw : law before thread tool calls call)
    (hexplains : Explains (before ++ calls ++ [call]) after) (hstage : stage.rank ≤ next.rank)
    (habsent : next.absent call = false) :
    Lawful before thread tool next after (calls ++ [call]) where
  lawful := h.lawful.concat hlaw
  explains := by rwa [← List.append_assoc]
  absent other hother := by
    rcases List.mem_append.mp hother with hother | hother
    · exact Stage.absent_anti hstage (h.absent other hother)
    · rwa [List.mem_singleton.mp hother]

/-- A call that does not concern the session. -/
theorem plain (h : Lawful before thread tool stage session calls) {call : Call A}
    (hlaw : law before thread tool calls call) (hclears : ∀ grant, call.clears grant = false)
    (hstage : stage.rank ≤ next.rank) (habsent : next.absent call = false) :
    Lawful before thread tool next session (calls ++ [call]) :=
  h.concat hlaw (h.explains.concat hclears) hstage habsent

/-- What others do. -/
theorem elsewhere (h : Lawful before thread tool stage session calls) (op : SessionOp) :
    Lawful before thread tool stage (op.apply session) (calls ++ [.elsewhere op]) :=
  h.concat trivial (h.explains.elsewhere op) (Nat.le_refl _) (by cases stage <;> rfl)

end Lawful

end Laws

end AwesomeAgent.ToolExecution
