import AwesomeAgent.Context.Tokens
import AwesomeAgent.Providers.Secrets
import Mathlib.Data.List.Sort
import Mathlib.Data.Prod.Lex

/-!
# The context builder

The builder orders the sources of a request, drops repetitions, gives the memories their
shares and packs the sources one after the other: mandatory ones as they are, others as far
as the tokens go.
-/

namespace AwesomeAgent.Context

open Modeling (Text ModelMessage maxTextLength)

/-- What a context is built from. -/
structure ContextRequest where
  sources : List ContextSource
  configuredTotalTokens : Nat
  modelContextLimit : Nat
  reservedInputTokens : Nat
  positive : 0 < configuredTotalTokens ∧ 0 < modelContextLimit

/-- What the record of a context says of a source. -/
structure ContextManifestItem where
  kind : ContextSourceKind
  sourceId : Text
  order : Nat
  estimatedTokens : Nat
  truncated : Bool
  contentHash : String
  coveredSequenceStart : Option Nat
  coveredSequenceEnd : Option Nat
  skillIdentities : List ContextSkillIdentity
  deriving DecidableEq

/-- A context. -/
structure PreparedContext where
  messages : List ModelMessage
  manifest : List ContextManifestItem
  estimatedInputTokens : Nat
  effectiveInputLimit : Nat
  compressionRecommended : Bool
  deriving DecidableEq

/-! ## The order of sources -/

/-- Kinds that stand in the order of the conversation. -/
def isConversationTimelineKind (kind : ContextSourceKind) : Bool :=
  decide (kind ∈ [.recentTurns, .directCommand])

/-- Kinds of long-term memory. -/
def isLongTermMemoryKind (kind : ContextSourceKind) : Bool :=
  decide (kind ∈ [.userMemory, .workspaceMemory, .mem0])

/-- Kinds that a context never leaves out. -/
def isAlwaysMandatory (kind : ContextSourceKind) : Bool :=
  decide (kind ∈ [.productInstructions, .workspaceInstructions, .skill, .skillCatalog,
    .explicitPath, .currentInput, .openToolChain])

/-- Whether a context may not leave a source out. -/
def mandatory (source : ContextSource) : Bool := source.mandatory || isAlwaysMandatory source.kind

/-- Place of a kind in a context. -/
def sourceOrder (kind : ContextSourceKind) : Nat := kind.ctorIdx

/-- Place of a source with its position in the request. -/
def sourceOrderKey (item : ContextSource × Nat) : Nat ×ₗ Nat ×ₗ Nat :=
  match isConversationTimelineKind item.1.kind, item.1.coveredSequenceStart with
  | true, some start => toLex (sourceOrder .recentTurns, toLex (start, item.2))
  | _, _ => toLex (sourceOrder item.1.kind, toLex (0, item.2))

/-- The sources of a request with their positions, in order. -/
def indexed (sources : List ContextSource) : List (ContextSource × Nat) :=
  sources.zipIdx.insertionSort fun a b => sourceOrderKey a ≤ sourceOrderKey b

/-- What sources have in common of which only the first is kept. -/
inductive DuplicateKey
  | longTermMemory (digest : String)
  | labelled (kind : ContextSourceKind) (role : ContextRole) (digest : String)
  deriving DecidableEq

/-- A text with one space between its words. -/
def normalized (text : Text) : Text :=
  [' '].intercalate ((text.splitOnP isSpace).filter fun word => decide (word ≠ []))

/-- The key of a source that may be a repetition. -/
def duplicateKey [ContentHash] (source : ContextSource) : DuplicateKey :=
  let digest := ContentHash.sha256 (encodeUtf8 (normalized source.content))
  if isLongTermMemoryKind source.kind then .longTermMemory digest
  else .labelled source.kind source.role digest

/-- Drop repetitions among optional sources outside of the conversation. -/
def uniqueFrom [ContentHash] (seen : List DuplicateKey) : List ContextSource → List ContextSource
  | [] => []
  | source :: rest =>
      if mandatory source || isConversationTimelineKind source.kind then
        source :: uniqueFrom seen rest
      else if duplicateKey source ∈ seen then uniqueFrom seen rest
      else source :: uniqueFrom (duplicateKey source :: seen) rest

/-- The sources of a request in order without repetitions. -/
def orderedUnique [ContentHash] (sources : List ContextSource) : List ContextSource :=
  uniqueFrom [] ((indexed sources).map Prod.fst)

/-! ## The shares of memories -/

/-- Most tokens for long-term memory. -/
def maxLongTermMemoryTokens : Nat := 16384

/-- Tokens left for each kind of memory. -/
structure MemoryShares where
  userMemory : Nat
  workspaceMemory : Nat
  mem0 : Nat
  deriving DecidableEq, Repr

/-- The shares of the tokens for memory, none above its cap. -/
def memoryShares (total : Nat) : MemoryShares :=
  ⟨min 4096 (total / 4), min 8192 (total / 2), min 4096 (total / 4)⟩

/-- The share of a kind, if it is a memory. -/
def MemoryShares.get? (shares : MemoryShares) : ContextSourceKind → Option Nat
  | .userMemory => some shares.userMemory
  | .workspaceMemory => some shares.workspaceMemory
  | .mem0 => some shares.mem0
  | _ => none

/-- Take tokens from the share of a kind. -/
def MemoryShares.spend (shares : MemoryShares) (allocation : Nat) :
    ContextSourceKind → MemoryShares
  | .userMemory => { shares with userMemory := shares.userMemory - allocation }
  | .workspaceMemory => { shares with workspaceMemory := shares.workspaceMemory - allocation }
  | .mem0 => { shares with mem0 := shares.mem0 - allocation }
  | _ => shares

/-- Give memories their budgets, and leave those out that get none. -/
def budgetFrom : MemoryShares → List ContextSource → List ContextSource
  | _, [] => []
  | shares, source :: rest =>
      match shares.get? source.kind with
      | none => source :: budgetFrom shares rest
      | some share =>
          if share < 1 then budgetFrom shares rest
          else
            let allocation := (source.tokenBudget.map (min share)).getD share
            { source with tokenBudget := some allocation } ::
              budgetFrom (shares.spend allocation source.kind) rest

/-- Give the memories among sources their budgets. -/
def applyMemoryBudgets (sources : List ContextSource) (effectiveInputLimit : Nat) :
    Except ContextError (List ContextSource) := do
  let tenth ← floorTenth effectiveInputLimit
  pure (budgetFrom (memoryShares (min maxLongTermMemoryTokens tenth)) sources)

/-! ## Messages -/

/-- A text with the label of its source. -/
def rendered (source : ContextSource) (content : Text) : Text :=
  '[' :: source.kind.value.toList ++ ':' :: source.sourceId ++ "]\n".toList ++ content

/-- The message of a text. -/
def messageOf (source : ContextSource) (content : Text) : ModelMessage :=
  if source.role = .system ∨
      source.kind ∈ [.productInstructions, .workspaceInstructions, .skillCatalog] then
    .system (rendered source content)
  else if source.role = .assistant then .assistant (rendered source content) []
  else .user (rendered source content)

/-- The message of a text, if it passes the checks of messages. -/
def message (source : ContextSource) (content : Text) : Except ContextError ModelMessage :=
  if maxTextLength < (rendered source content).length then .error .validation
  else .ok (messageOf source content)

section Packing

variable (dump : ModelMessage → Text)

/-- The tokens of a text as a message. -/
def messageEstimate (source : ContextSource) (content : Text) : Except ContextError Nat := do
  pure (estimateMessage dump (← message source content))

/-! ## Truncation -/

/-- Keep lines as long as they fit. -/
def retainLines (source : ContextSource) (tokenLimit : Nat) (retained : List Text) :
    List Text → Except ContextError (List Text)
  | [] => .ok retained
  | line :: rest => do
      let estimate ← messageEstimate dump source (joinLines (retained ++ [line]))
      if tokenLimit < estimate then .ok retained
      else retainLines source tokenLimit (retained ++ [line]) rest

/-- Search for the length of a beginning of a line that fits. -/
def fitLine (source : ContextSource) (tokenLimit : Nat) (line : Text) (low high : Nat) :
    Except ContextError Nat :=
  if low < high then do
    let midpoint := (low + high + 1) / 2
    let estimate ← messageEstimate dump source (line.take midpoint)
    if estimate ≤ tokenLimit then fitLine source tokenLimit line midpoint high
    else fitLine source tokenLimit line low (midpoint - 1)
  else .ok low
termination_by high - low

/-- The lines of a source that fit, or the beginning of the first one. -/
def retainedLines (source : ContextSource) (tokenLimit : Nat) :
    Except ContextError (List Text) := do
  let lines := splitlines source.content
  let retained ← retainLines dump source tokenLimit [] lines
  match retained, lines with
  | [], first :: _ => do
      let low ← fitLine dump source tokenLimit first 0 first.length
      pure (if low = 0 then [] else [first.take low])
  | _, _ => pure retained

/-- As much of a source as fits, and whether something is missing. -/
def truncateContent (source : ContextSource) (tokenLimit : Nat) :
    Except ContextError (Text × Bool) := do
  if tokenLimit = 0 then .ok ([], decide (source.content ≠ []))
  else
    let estimate ← messageEstimate dump source source.content
    if estimate ≤ tokenLimit then .ok (source.content, false)
    else
      let content := joinLines (← retainedLines dump source tokenLimit)
      .ok (content, decide (content ≠ source.content))

/-! ## Packing -/

/-- What is packed, and the tokens left for optional sources. -/
structure PackState where
  optionalRemaining : Nat
  messages : List ModelMessage
  manifest : List ContextManifestItem

/-- Add a text to a context. -/
def PackState.add [ContentHash] (s : PackState) (source : ContextSource) (content : Text)
    (estimate : Nat) (truncated : Bool) : PackState where
  optionalRemaining :=
    if mandatory source then s.optionalRemaining else s.optionalRemaining - estimate
  messages := s.messages ++ [messageOf source content]
  manifest := s.manifest ++ [{
    kind := source.kind
    sourceId := source.sourceId
    order := s.manifest.length
    estimatedTokens := estimate
    truncated := truncated
    contentHash := ContentHash.sha256 (encodeUtf8 content)
    coveredSequenceStart := source.coveredSequenceStart
    coveredSequenceEnd := source.coveredSequenceEnd
    skillIdentities := source.skillIdentities }]

/-- The tokens that an optional source may take. -/
def PackState.sourceLimit (s : PackState) (source : ContextSource) : Nat :=
  match source.tokenBudget with
  | some (budget + 1) => min s.optionalRemaining (budget + 1)
  | _ => s.optionalRemaining

/-- Pack a source. -/
def PackState.pack [ContentHash] (s : PackState) (source : ContextSource) :
    Except ContextError PackState := do
  if mandatory source then
    let estimate ← messageEstimate dump source source.content
    .ok (s.add source source.content estimate false)
  else
    let (content, truncated) ← truncateContent dump source (s.sourceLimit source)
    if content = [] then .ok s
    else
      let estimate ← messageEstimate dump source content
      if s.optionalRemaining < estimate then
        let (content, truncatedAgain) ← truncateContent dump source s.optionalRemaining
        if content = [] then .ok s
        else
          let estimate ← messageEstimate dump source content
          .ok (s.add source content estimate (truncated || truncatedAgain))
      else .ok (s.add source content estimate truncated)

/-- Build a context. -/
def prepare [ContentHash] (request : ContextRequest) : Except ContextError PreparedContext := do
  let budget ←
    calculateContextBudget request.configuredTotalTokens request.modelContextLimit
  if budget.effectiveInputLimit < request.reservedInputTokens then
    .error (.overflow "Reserved context exceeds the effective input limit.")
  else
    let availableInputLimit := budget.effectiveInputLimit - request.reservedInputTokens
    let sources ← applyMemoryBudgets (orderedUnique request.sources) availableInputLimit
    let estimates ← (sources.filter mandatory).mapM fun source =>
      messageEstimate dump source source.content
    if availableInputLimit < estimates.sum then
      .error (.overflow
        "Mandatory context and reserved context exceed the effective input limit.")
    else
      let packed ← sources.foldlM (PackState.pack dump)
        ⟨availableInputLimit - estimates.sum, [], []⟩
      let estimated := estimateMessages dump packed.messages
      if budget.effectiveInputLimit < estimated + request.reservedInputTokens then
        .error (.overflow "Prepared context exceeds the effective input limit.")
      else
        .ok {
          messages := packed.messages
          manifest := packed.manifest
          estimatedInputTokens := estimated
          effectiveInputLimit := budget.effectiveInputLimit
          compressionRecommended :=
            decide (budget.compressionThreshold ≤ estimated + request.reservedInputTokens) }

end Packing

end AwesomeAgent.Context
