import AwesomeAgent.Library.Text

/-!
# Permissions of tools

A session of permissions has a mode, capabilities that are granted for good and capabilities that
are granted to a Thread. The policy allows a request, refuses it, or has the user asked.
-/

namespace AwesomeAgent.Permissions

/-- What a built-in tool can do. -/
inductive ToolCapability
  | contextRead
  | workspaceRead
  | workspaceWrite
  | workspaceDelete
  | shellExecute
  | networkRead
  deriving DecidableEq, Repr

/-- The text of a capability. -/
def ToolCapability.value : ToolCapability → Text
  | .contextRead => "context.read".toList
  | .workspaceRead => "workspace.read".toList
  | .workspaceWrite => "workspace.write".toList
  | .workspaceDelete => "workspace.delete".toList
  | .shellExecute => "shell.execute".toList
  | .networkRead => "network.read".toList

/-- All built-in capabilities. -/
def ToolCapability.all : List ToolCapability :=
  [.contextRead, .workspaceRead, .workspaceWrite, .workspaceDelete, .shellExecute, .networkRead]

/-- How much is asked. -/
inductive PermissionMode
  | requestApproval
  | acceptEdits
  | fullAccess
  deriving DecidableEq, Repr

/-- What a policy decides. -/
inductive PolicyAction
  | allow
  | ask
  | deny
  deriving DecidableEq, Repr

/-- What the user answers. -/
inductive ToolApprovalDecision
  | allowOnce
  | allowThreadWrites
  | allowThreadNetwork
  | deny
  deriving DecidableEq, Repr

/-- What the user is asked. -/
structure ToolApprovalRequest where
  capability : Text
  operation : Text
  target : Text
  prompt : Text
  deriving DecidableEq, Repr

/-! ## Sessions -/

/-- The permissions that are in force. -/
structure PermissionSession where
  mode : PermissionMode
  grantedCapabilities : List Text
  generation : Nat
  threadGrantedCapabilities : List (Text × Text)
  deriving DecidableEq, Repr

namespace PermissionSession

/-- A new session. -/
def new (mode : PermissionMode) : PermissionSession := ⟨mode, [], 0, []⟩

/-- Grant the writing of files. -/
def grantThreadWrites (session : PermissionSession) : PermissionSession :=
  { session with
    grantedCapabilities := session.grantedCapabilities.insert ToolCapability.workspaceWrite.value }

/-- Grant the reading of the network to a Thread. -/
def grantThreadNetwork (session : PermissionSession) (threadId : Text) :
    Option PermissionSession :=
  if threadId = [] then none
  else some { session with
    threadGrantedCapabilities :=
      session.threadGrantedCapabilities.insert (threadId, ToolCapability.networkRead.value) }

/-- Take the reading of the network back, from one Thread or from all. -/
def revokeThreadNetwork (session : PermissionSession) (threadId : Option Text) :
    PermissionSession :=
  { session with
    threadGrantedCapabilities := session.threadGrantedCapabilities.filter fun grant =>
      decide (grant.2 ≠ ToolCapability.networkRead.value) ||
        threadId.any fun thread => decide (grant.1 ≠ thread) }

/-- Change the mode; every grant is taken back. -/
def setMode (session : PermissionSession) (mode : PermissionMode) : PermissionSession :=
  ⟨mode, [], session.generation + 1, []⟩

/-- Go back to asking. -/
def reset (session : PermissionSession) : PermissionSession := session.setMode .requestApproval

end PermissionSession

/-! ## The policy -/

/-- What a policy is asked. -/
structure PolicyRequest where
  capability : Text
  mode : PermissionMode
  grantedCapabilities : List Text
  threadId : Option Text
  grantedThreadCapabilities : List (Text × Text)
  deriving DecidableEq, Repr

/-- What a policy answers. -/
structure PolicyDecision where
  action : PolicyAction
  reason : Text
  deriving DecidableEq, Repr

/-- The policy of capabilities. -/
def evaluate (request : PolicyRequest) : PolicyDecision :=
  if request.capability = "memory.read".toList ∨ request.capability = "memory.write".toList then
    ⟨.allow, "Built-in memory operations are governed by memory policy.".toList⟩
  else if !(ToolCapability.all.map ToolCapability.value).contains request.capability then
    ⟨.ask, "This extension capability requires explicit approval.".toList⟩
  else if request.capability = ToolCapability.networkRead.value then
    if request.threadId.any fun thread =>
        request.grantedThreadCapabilities.contains (thread, request.capability) then
      ⟨.allow, "The active Thread explicitly allows network reads.".toList⟩
    else ⟨.ask, "Network reads require explicit approval for the active Thread.".toList⟩
  else if request.capability = ToolCapability.contextRead.value then
    ⟨.allow, "Frozen context resources are governed by hard admission.".toList⟩
  else if request.capability = ToolCapability.workspaceRead.value then
    ⟨.allow, "Workspace reads are allowed in a trusted workspace.".toList⟩
  else if request.grantedCapabilities.contains request.capability then
    ⟨.allow, "The active permission session allows this capability.".toList⟩
  else if request.mode = .acceptEdits ∧
      request.capability = ToolCapability.workspaceWrite.value then
    ⟨.allow, "Accept edits allows workspace file creation and modification.".toList⟩
  else if request.mode = .fullAccess then
    ⟨.allow, "Full access allows this built-in local capability.".toList⟩
  else ⟨.ask, "This operation requires approval in the active permission mode.".toList⟩

/-- A request without the grants. -/
def PolicyRequest.withoutGrants (request : PolicyRequest) : PolicyRequest :=
  { request with grantedCapabilities := [], grantedThreadCapabilities := [] }

/-- A grant is used for a capability only if it was given for it, and for the network only if it
was given to the Thread. -/
theorem evaluate_consumes {request : PolicyRequest} (hallow : (evaluate request).action = .allow)
    (hneeded : (evaluate request.withoutGrants).action ≠ .allow) :
    (request.capability = ToolCapability.networkRead.value ∧
      ∃ thread, request.threadId = some thread ∧
        (thread, request.capability) ∈ request.grantedThreadCapabilities) ∨
    request.capability ∈ request.grantedCapabilities := by
  by_contra hunused
  obtain ⟨hthread, hgranted⟩ := not_or.mp hunused
  have hnone : request.grantedCapabilities.contains request.capability = false := by
    simpa using hgranted
  refine hneeded (Eq.trans ?_ hallow)
  unfold evaluate PolicyRequest.withoutGrants
  by_cases hnetwork : request.capability = ToolCapability.networkRead.value
  · have hany : (request.threadId.any fun thread =>
        request.grantedThreadCapabilities.contains (thread, request.capability)) = false := by
      cases hid : request.threadId with
      | none => rfl
      | some thread => simpa using fun hmem => hthread ⟨hnetwork, thread, hid, hmem⟩
    have hempty : (request.threadId.any fun thread =>
        List.contains ([] : List (Text × Text)) (thread, request.capability)) = false := by
      cases request.threadId <;> rfl
    simp only [hany, hempty, if_pos hnetwork]
  · simp only [if_neg hnetwork, hnone, List.contains_nil]

end AwesomeAgent.Permissions
