import AwesomeAgent.Library.Text
import AwesomeAgent.Modeling.Turns

/-!
# Sources of a context

A context is packed from sources: instructions, memories, the history of the Thread, files
and the current input. A source says what it is, where it came from and how it may be cut.
-/

namespace AwesomeAgent.Context

open Modeling (Text)

/-- The kinds of sources, in the order of a context. -/
inductive ContextSourceKind
  | productInstructions
  | workspaceInstructions
  | skill
  | skillCatalog
  | userMemory
  | workspaceMemory
  | mem0
  | threadSummary
  | recentTurns
  | directCommand
  | explicitPath
  | currentInput
  | openToolChain
  deriving DecidableEq, Repr

/-- The text of a kind. -/
def ContextSourceKind.value : ContextSourceKind → String
  | .productInstructions => "product_instructions"
  | .workspaceInstructions => "workspace_instructions"
  | .skill => "skill"
  | .skillCatalog => "skill_catalog"
  | .userMemory => "user_memory"
  | .workspaceMemory => "workspace_memory"
  | .mem0 => "mem0"
  | .threadSummary => "thread_summary"
  | .recentTurns => "recent_turns"
  | .directCommand => "direct_command"
  | .explicitPath => "explicit_path"
  | .currentInput => "current_input"
  | .openToolChain => "open_tool_chain"

/-- Who speaks in a source. -/
inductive ContextRole
  | system
  | user
  | assistant
  deriving DecidableEq, Repr

/-- The identity of a skill whose use is frozen with a context. -/
structure ContextSkillIdentity where
  name : Text
  source : String
  identity : String
  allowedTools : List Text
  deriving DecidableEq

/-- A source of a context. -/
structure ContextSource where
  kind : ContextSourceKind
  sourceId : Text
  content : Text
  role : ContextRole
  mandatory : Bool
  tokenBudget : Option Nat
  coveredSequenceStart : Option Nat
  coveredSequenceEnd : Option Nat
  skillIdentities : List ContextSkillIdentity
  deriving DecidableEq

end AwesomeAgent.Context
