import AwesomeAgent.Surface.Reconcile

/-!
# Hydration of a durable page

After a reload the blocks of a transcript are built from the durable page of the Thread alone.
Tools, errors and changes of a Turn are placed before its answer, those of a direct command
after the command.
-/

namespace AwesomeAgent.Surface

/-- Why a page cannot be shown. -/
structure HydrationError where
  message : String
  deriving DecidableEq, Repr

/-- The blocks of a durable page. -/
structure TranscriptProjection where
  blocks : List TranscriptBlock
  threadId : String
  deriving DecidableEq, Repr

namespace ThreadPage

/-- The Turns by the entries of their answers; a later one replaces an earlier one. -/
def turnsByAssistant (page : ThreadPage) : Dict String DurableTurn :=
  (page.turns.filterMap fun turn => (present turn.assistantEntryId).map (·, turn)).foldl
    (fun turns answered => turns.set answered.1 answered.2) .empty

/-- The tool calls of a Turn. -/
def toolsByTurn (page : ThreadPage) (turnId : String) : List ToolActivity :=
  page.toolActivities.filter fun tool => present tool.turnId = some turnId

/-- The tool calls of an Operation. -/
def toolsByOperation (page : ThreadPage) (operationId : String) : List ToolActivity :=
  page.toolActivities.filter fun tool => tool.operationId = operationId

/-- The blocks of the change sets with two owners. -/
def appendChanges (page : ThreadPage) (turnId operationId : Option String) :
    List TranscriptBlock :=
  page.changeSets.filterMap fun change =>
    if (change.turnId = turnId ∧ change.operationId = operationId) ∧ change.changes ≠ [] then
      some ⟨"change:" ++ change.changeSetId,
        .change change.changeSetId change.lifecycle change.changes⟩
    else none

end ThreadPage

/-- The block of a group of tool calls, in the order of their numbers. -/
def appendTools (key : String) (tools : List ToolActivity) : List TranscriptBlock :=
  if tools = [] then []
  else [⟨key ++ ":tools", .tools
    ((tools.mergeSort fun left right => left.sequence ≤ right.sequence).map ToolActivity.item)⟩]

/-- The error of a Turn that failed or was cancelled. -/
def DurableTurn.errorBlocks (turn : DurableTurn) : List TranscriptBlock :=
  match turn.status with
  | .inProgress | .ended .completed => []
  | .ended outcome => [⟨"turn:" ++ turn.id ++ ":error",
      .error (turn.errorCode.getD outcome.name)
        (turn.terminationReason.getD ("Turn " ++ outcome.name))⟩]

/-- The blocks of an entry. -/
def hydrateEntry (page : ThreadPage) (entry : ThreadEntry) :
    Except HydrationError (List TranscriptBlock) :=
  match entry.kind with
  | .userMessage clientMessageId =>
      if clientMessageId = "" then .error ⟨"Durable user message has no client identity."⟩
      else .ok [⟨"user:" ++ clientMessageId,
        .user clientMessageId .persisted entry.content none⟩]
  | .assistantMessage citations =>
      let activity :=
        match page.turnsByAssistant.get? entry.id with
        | none => page.appendChanges none none
        | some turn =>
            appendTools ("turn:" ++ turn.id) (page.toolsByTurn turn.id) ++ turn.errorBlocks ++
              page.appendChanges (some turn.id) none
      .ok (activity ++ [⟨"entry:" ++ entry.id, .assistant entry.content (some citations)⟩])
  | .directCommand metadataOperationId =>
      let activity :=
        match present metadataOperationId with
        | none => []
        | some operationId =>
            appendTools ("operation:" ++ operationId) (page.toolsByOperation operationId) ++
              page.appendChanges none (some operationId)
      .ok (⟨"entry:" ++ entry.id, .directCommand entry.content⟩ :: activity)

/-- The entries of a page in the order of their numbers. -/
def ThreadPage.sortedEntries (page : ThreadPage) : List ThreadEntry :=
  page.entries.mergeSort fun left right => left.sequence ≤ right.sequence

/-- The block for the entries before the page. -/
def ThreadPage.omitted (page : ThreadPage) : List TranscriptBlock :=
  if page.hasMore then [⟨"history:omitted", .omittedHistory
    "Earlier transcript omitted · conversation summary remains available to Agent"⟩]
  else []

/-- The blocks of a durable page. -/
def hydrateThreadPage (page : ThreadPage) : Except HydrationError TranscriptProjection := do
  let blocks ← page.sortedEntries.mapM (hydrateEntry page)
  return ⟨page.omitted ++ blocks.flatten, page.thread.id⟩

end AwesomeAgent.Surface
