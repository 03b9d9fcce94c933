import AwesomeAgent.Surface.Reducer

/-!
# Reconciliation of a Turn that ended

The live Turn is projected onto blocks, in the order in which the user saw them. When its
Operation ends, the durable Turn decides which of these blocks stay and completes them.
-/

namespace AwesomeAgent.Surface

/-- The live blocks and the identities of the Operation and the Turn that they show. -/
structure LiveTranscriptProjection where
  blocks : List TranscriptBlock
  operationId : Option String
  turnId : Option String
  deriving DecidableEq, Repr

/-- The blocks of a Turn that ended. -/
structure TerminalTurnReconciliation where
  operationId : String
  turnId : String
  blocks : List TranscriptBlock
  deriving DecidableEq, Repr

/-- Why a Turn cannot be reconciled. -/
structure ReconciliationError where
  message : String
  deriving DecidableEq, Repr

/-- The outcome of a tool call as transcripts name it. -/
def Outcome.toolOutcome : Outcome → ToolOutcome
  | .completed => .success
  | .failed => .error
  | .cancelled => .cancelled

/-- The name of an outcome. -/
def Outcome.name : Outcome → String
  | .completed => "completed"
  | .failed => "failed"
  | .cancelled => "cancelled"

/-- A live tool call as an item of a group. -/
def ToolProjection.item (tool : ToolProjection) : ToolItem where
  callId := tool.callId
  name := tool.toolName
  verb := tool.verb
  target := tool.target
  outcome :=
    match tool.status with
    | .active => .running
    | .ended outcome => outcome.toolOutcome
  startedAt := some tool.startedAt
  presentationOutcome := tool.outcome
  summary := if tool.status = .active then "Running…" else tool.summary
  detail := tool.detail
  detailTruncatedCount := tool.detailTruncatedCount
  durationMs := tool.durationMs
  errorCode := tool.errorCode

/-- Blocks that are projected so far, and the group of tools that is not placed yet. -/
structure LiveBlocks where
  blocks : List TranscriptBlock
  pendingTools : List ToolItem
  toolInsertionIndex : Option Nat

namespace LiveBlocks

/-- Place the group of tools where its first call came. -/
def flushTools (l : LiveBlocks) (turnId : String) : LiveBlocks :=
  match l.pendingTools with
  | [] => l
  | first :: _ =>
      let index := l.toolInsertionIndex.getD l.blocks.length
      { blocks := l.blocks.take index ++
          ⟨"live:" ++ turnId ++ ":tools:" ++ first.callId, .tools l.pendingTools⟩ ::
            l.blocks.drop index
        pendingTools := []
        toolInsertionIndex := none }

/-- Project one item of a live Turn. -/
def add (turnId : String) (l : LiveBlocks) : TimelineProjection → LiveBlocks
  | .thinking item =>
      { l with blocks := l.blocks ++
          [⟨"live:" ++ item.id, .thinking item.startedAt item.text item.durationMs⟩] }
  | .assistant item =>
      let flushed := l.flushTools turnId
      { flushed with
        blocks := flushed.blocks ++ [⟨"live:" ++ item.id, .assistant item.text none⟩] }
  | .tool item =>
      { l with
        toolInsertionIndex := some (l.toolInsertionIndex.getD l.blocks.length)
        pendingTools := l.pendingTools ++ [item.item] }

end LiveBlocks

/-- The blocks of a live Turn. -/
def TurnProjection.liveBlocks (turn : TurnProjection) : List TranscriptBlock :=
  let projected := (turn.timeline.foldl (LiveBlocks.add turn.id) ⟨[], [], none⟩).flushTools turn.id
  projected.blocks ++
    (turn.durationMs.map fun duration =>
      ⟨"live:" ++ turn.id ++ ":worked", .worked duration⟩).toList

/-- A warning as a block. -/
def SurfaceWarning.block (warning : SurfaceWarning) : TranscriptBlock :=
  ⟨"live:" ++ warning.id, .warning warning.code warning.message warning.count⟩

/-- Project the live Turn and the warnings. -/
def projectLiveTurn (state : SurfaceState) : LiveTranscriptProjection where
  blocks := (state.turn.map TurnProjection.liveBlocks).getD [] ++
    state.warnings.map SurfaceWarning.block
  operationId := state.activeOperation.map OperationProjection.id
  turnId := state.turn.map TurnProjection.id

/-- The calls of a block. -/
def BlockContent.toolItems : BlockContent → List ToolItem
  | .tools items => items
  | _ => []

/-- Whether a block is a group of tools. -/
def BlockContent.isTools : BlockContent → Bool
  | .tools _ => true
  | _ => false

/-- The answer text of a block. -/
def BlockContent.answer : BlockContent → Text
  | .assistant text _ => text
  | _ => []

/-- The durable tool calls of a Turn. -/
def ThreadPage.toolsOf (page : ThreadPage) (turnId : String) : List ToolActivity :=
  page.toolActivities.filter fun tool => tool.turnId = some turnId

/-- The durable tool calls of a Turn by their call; a later one replaces an earlier one. -/
def ThreadPage.durableTools (page : ThreadPage) (turnId : String) : Dict String ToolActivity :=
  (page.toolsOf turnId).foldl (fun tools tool => tools.set tool.callId tool) .empty

/-- What the durable Turn lacks. -/
def validateDurableTurn (live : LiveTranscriptProjection) (page : ThreadPage) (turnId : String) :
    Except ReconciliationError DurableTurn :=
  match page.turns.find? fun candidate => candidate.id = turnId with
  | none => .error ⟨"Completed Turn is missing from durable Thread state."⟩
  | some turn => do
      match turn.status with
      | .inProgress => throw ⟨"Durable Turn has not reached a terminal state."⟩
      | .ended .completed =>
          match turn.assistantEntryId with
          | none => throw ⟨"Completed Turn has no durable Assistant Entry identity."⟩
          | some entryId =>
              if page.entries.any fun entry => entry.id = entryId then pure ()
              else throw ⟨"Durable Assistant Entry is missing."⟩
      | .ended _ => pure ()
      let liveCalls := live.blocks.flatMap fun block => block.content.toolItems.map ToolItem.callId
      match liveCalls.find? fun callId =>
          !(page.toolsOf turnId).any fun tool => tool.callId = callId with
      | some missing => throw ⟨"Durable ToolActivity is missing for " ++ missing ++ "."⟩
      | none => return turn

/-- The verb of a tool. -/
def toolVerb (name : String) : String :=
  ([("delete", "Delete"), ("edit_file", "Edit"), ("execute", "Run"), ("glob", "Glob"),
    ("grep", "Grep"), ("ls", "List"), ("read_file", "Read"), ("write_file", "Write")].lookup
      name).getD name

/-- A durable tool call as an item of a group. -/
def ToolActivity.item (tool : ToolActivity) : ToolItem where
  callId := tool.callId
  name := tool.toolName
  verb := toolVerb tool.toolName
  target := none
  outcome := tool.outcome.toolOutcome
  startedAt := some tool.createdAt
  presentationOutcome := none
  summary := tool.resultSummary
  detail := none
  detailTruncatedCount := none
  durationMs := some tool.durationMs
  errorCode := tool.errorCode

/-- Complete a live call by its durable record. -/
def ToolItem.persist (item : ToolItem) (tools : Dict String ToolActivity) : ToolItem :=
  match tools.get? item.callId with
  | none => item
  | some persisted => { item with
      outcome := persisted.outcome.toolOutcome
      summary := persisted.resultSummary
      durationMs := some persisted.durationMs
      errorCode := persisted.errorCode }

/-- What stays of a live block. -/
def TranscriptBlock.retain (tools : Dict String ToolActivity) (retainAssistantSegments : Bool)
    (block : TranscriptBlock) : Option TranscriptBlock :=
  match block.content with
  | .thinking .. | .worked _ => some block
  | .assistant .. => if retainAssistantSegments then some block else none
  | .tools items => some ⟨block.key, .tools (items.map fun item => item.persist tools)⟩
  | _ => none

/-- The assistant entry of a durable Turn, with its citations. -/
def ThreadPage.assistantEntry (page : ThreadPage) (turn : DurableTurn) :
    Option (ThreadEntry × List Citation) :=
  page.entries.findSome? fun entry =>
    match entry.kind with
    | .assistantMessage citations =>
        if some entry.id = turn.assistantEntryId then some (entry, citations) else none
    | _ => none

/-- The blocks of a durable Turn that ended. -/
def durableBlocks (live : LiveTranscriptProjection) (page : ThreadPage) (turnId : String)
    (turn : DurableTurn) : List TranscriptBlock :=
  let tools := page.durableTools turnId
  let entry := page.assistantEntry turn
  let liveAssistantText := live.blocks.flatMap fun block => block.content.answer
  let retainAssistantSegments := decide (turn.status ≠ .ended .completed) ||
    entry.any fun found => liveAssistantText = found.1.content
  let retained := live.blocks.filterMap (TranscriptBlock.retain tools retainAssistantSegments)
  let missedTools :=
    if retained.any (fun block => block.content.isTools) ∨ tools.values = [] then []
    else [⟨"turn:" ++ turnId ++ ":tools", .tools
      ((tools.values.mergeSort fun left right => left.sequence ≤ right.sequence).map
        ToolActivity.item)⟩]
  let answer :=
    if retainAssistantSegments then []
    else (entry.map fun found =>
      ⟨"entry:" ++ found.1.id, .assistant found.1.content (some found.2)⟩).toList
  let failure :=
    match turn.status with
    | .inProgress | .ended .completed => []
    | .ended outcome => [⟨"turn:" ++ turnId ++ ":error",
        .error (turn.errorCode.getD outcome.name)
          (turn.terminationReason.getD ("Turn " ++ outcome.name))⟩]
  let changes := page.changeSets.filterMap fun change =>
    if change.turnId = some turnId ∧ change.changes ≠ [] then
      some ⟨"change:" ++ change.changeSetId,
        .change change.changeSetId change.lifecycle change.changes⟩
    else none
  retained ++ missedTools ++ answer ++ failure ++ changes

/-- An identity that is present. -/
def present (identity : Option String) : Option String := identity.filter fun text => text ≠ ""

/-- Reconcile a live Turn with its durable Thread. -/
def reconcileTerminalTurn (live : LiveTranscriptProjection) (page : ThreadPage) :
    Except ReconciliationError TerminalTurnReconciliation :=
  match present live.operationId, present live.turnId with
  | some operationId, some turnId =>
      match validateDurableTurn live page turnId with
      | .error failure => .ok ⟨operationId, turnId, live.blocks ++
          [⟨"reconcile:error:" ++ operationId,
            .error "transcript_not_reconciled" failure.message⟩]⟩
      | .ok turn => .ok ⟨operationId, turnId, durableBlocks live page turnId turn⟩
  | _, _ => .error ⟨"Terminal reconciliation requires Operation and Turn identities."⟩

end AwesomeAgent.Surface
