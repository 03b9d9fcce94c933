import AwesomeAgent.Library.Attachments
import AwesomeAgent.Surface.Hydrate
import Mathlib.Data.List.Nodup
import Mathlib.Data.List.Pairwise

/-!
# What a hydrated page shows

Activity of a Turn is attached to the entry of its answer. So all of it is shown exactly if each
Turn that ended with something to show has its answer on the page, and its change sets name no
Operation.
-/

namespace AwesomeAgent.Surface

/-- The client identity of a user message. -/
def ThreadEntry.clientMessageId (entry : ThreadEntry) : Option String :=
  match entry.kind with
  | .userMessage clientMessageId => some clientMessageId
  | _ => none

/-- The Operation of a direct command. -/
def ThreadEntry.operationId (entry : ThreadEntry) : Option String :=
  match entry.kind with
  | .directCommand operationId => present operationId
  | _ => none

/-- Whether an entry is an answer. -/
def ThreadEntry.isAnswer (entry : ThreadEntry) : Bool :=
  match entry.kind with
  | .assistantMessage _ => true
  | _ => false

/-- The block of an entry itself. -/
def ThreadEntry.block (entry : ThreadEntry) : TranscriptBlock :=
  match entry.kind with
  | .userMessage clientMessageId =>
      ⟨"user:" ++ clientMessageId, .user clientMessageId .persisted entry.content none⟩
  | .assistantMessage citations =>
      ⟨"entry:" ++ entry.id, .assistant entry.content (some citations)⟩
  | .directCommand _ => ⟨"entry:" ++ entry.id, .directCommand entry.content⟩

/-- Whether a block shows an entry. -/
def TranscriptBlock.isEntry (block : TranscriptBlock) : Bool :=
  match block.content with
  | .user .. | .assistant .. | .directCommand _ => true
  | _ => false

/-- Whether a block shows a change set. -/
def TranscriptBlock.isChange (block : TranscriptBlock) : Bool :=
  match block.content with
  | .change .. => true
  | _ => false

/-- Whether a block shows an error. -/
def TranscriptBlock.isError (block : TranscriptBlock) : Bool :=
  match block.content with
  | .error .. => true
  | _ => false

/-- The block of a change set. -/
def ChangeSetSummary.block (change : ChangeSetSummary) : TranscriptBlock :=
  ⟨"change:" ++ change.changeSetId, .change change.changeSetId change.lifecycle change.changes⟩

namespace ThreadPage

/-- What the store and the server keep of every page: identities name one record each, answers
belong to one Turn that ended, and each activity has one owner. -/
structure WellFormed (page : ThreadPage) : Prop where
  entryIds : (page.entries.map (·.id)).Nodup
  clientIds : (page.entries.filterMap (·.clientMessageId)).Nodup
  clients : ∀ e ∈ page.entries, e.clientMessageId ≠ some ""
  operations : (page.entries.filterMap (·.operationId)).Nodup
  turnIds : (page.turns.map (·.id)).Nodup
  turns : ∀ t ∈ page.turns, t.id ≠ "" ∧ t.assistantEntryId ≠ some ""
  answers : (page.turns.filterMap (·.assistantEntryId)).Nodup
  answerKinds : ∀ t ∈ page.turns, ∀ e ∈ page.entries,
    t.assistantEntryId = some e.id → e.isAnswer = true
  unanswered : ∀ t ∈ page.turns, t.status = .inProgress → t.assistantEntryId = none
  toolOwners : ∀ a ∈ page.toolActivities, a.turnId ≠ none →
    ∀ e ∈ page.entries, e.operationId ≠ some a.operationId
  changeSetIds : (page.changeSets.map (·.changeSetId)).Nodup
  changeOwners : ∀ c ∈ page.changeSets, c.turnId ≠ none ∨ c.operationId ≠ none

/-- The activity is one of a Turn that ended or of a direct command. -/
def ownsTool (page : ThreadPage) (a : ToolActivity) : Bool :=
  (page.turns.any fun t => decide (t.status ≠ .inProgress ∧ a.turnId = some t.id)) ||
    page.entries.any fun e => decide (e.operationId = some a.operationId)

/-- The change set is not empty, and one of a Turn that ended or of a direct command. -/
def ownsChange (page : ThreadPage) (c : ChangeSetSummary) : Bool :=
  decide (c.changes ≠ []) &&
    ((page.turns.any fun t => decide (t.status ≠ .inProgress ∧ c.turnId = some t.id)) ||
      page.entries.any fun e => decide (c.turnId = none ∧ e.operationId.isSome ∧
        e.operationId = c.operationId))

/-- The change sets of a Turn that are not empty. -/
def changesOf (page : ThreadPage) (turnId : String) : List ChangeSetSummary :=
  page.changeSets.filter fun c => c.turnId = some turnId ∧ c.changes ≠ []

/-- The change sets of a direct command that are not empty. -/
def changesOfOperation (page : ThreadPage) (operationId : String) : List ChangeSetSummary :=
  page.changeSets.filter fun c =>
    c.turnId = none ∧ c.operationId = some operationId ∧ c.changes ≠ []

end ThreadPage

/-- Blocks show tool calls, change sets and the errors of Turns, each exactly once. -/
structure Shows (blocks : List TranscriptBlock) (tools : List ToolActivity)
    (changes : List ChangeSetSummary) (turns : List DurableTurn) : Prop where
  tools : (blocks.flatMap fun b => b.content.toolItems).Perm (tools.map ToolActivity.item)
  changes : (blocks.filter TranscriptBlock.isChange).Perm (changes.map ChangeSetSummary.block)
  errors : (blocks.filter TranscriptBlock.isError).Perm (turns.flatMap DurableTurn.errorBlocks)

/-- What a hydrated page should be. -/
structure Hydrated (page : ThreadPage) (blocks : List TranscriptBlock) : Prop where
  entries : ∃ sorted : List ThreadEntry, sorted.Perm page.entries ∧
    sorted.Pairwise (fun e f => e.sequence ≤ f.sequence) ∧
    blocks.filter TranscriptBlock.isEntry = sorted.map ThreadEntry.block
  shows : Shows blocks (page.toolActivities.filter page.ownsTool)
    (page.changeSets.filter page.ownsChange) page.turns
  /-- Activity of a Turn stands before its answer. -/
  answered : ∀ t ∈ page.turns, ∀ e ∈ page.entries, t.assistantEntryId = some e.id →
    ∃ before own after, blocks = before ++ own ++ e.block :: after ∧
      (∀ b ∈ own, b.isEntry = false) ∧
      Shows own (page.toolsByTurn t.id) (page.changesOf t.id) [t]
  /-- Activity of a direct command stands after it. -/
  commanded : ∀ e ∈ page.entries, ∀ operationId, e.operationId = some operationId →
    ∃ before own after, blocks = before ++ e.block :: own ++ after ∧
      (∀ b ∈ own, b.isEntry = false) ∧
      Shows own (page.toolsByOperation operationId) (page.changesOfOperation operationId) []
  keys : (blocks.map (·.key)).Nodup
  /-- What reconciliation shows of a Turn is shown. -/
  reconciled : ∀ (live : LiveTranscriptProjection) (turnId : String) (turn : DurableTurn)
    (result : TerminalTurnReconciliation), live.turnId = some turnId →
    validateDurableTurn live page turnId = .ok turn →
    reconcileTerminalTurn live page = .ok result →
    (∀ b ∈ result.blocks, b.isError = true ∨ b.isChange = true → b ∈ blocks) ∧
      ∀ b ∈ result.blocks, ∀ item ∈ b.content.toolItems,
        ∃ shown ∈ blocks, shown.key = "turn:" ++ turnId ++ ":tools" ∧
          ∃ found ∈ shown.content.toolItems, found.callId = item.callId ∧
            found.outcome = item.outcome ∧ found.summary = item.summary ∧
            found.durationMs = item.durationMs ∧ found.errorCode = item.errorCode

namespace ThreadPage

/-- The answer of a Turn is on the page. -/
def Answered (page : ThreadPage) (t : DurableTurn) : Prop :=
  ∃ e ∈ page.entries, t.assistantEntryId = some e.id

/-- Each Turn that ended with something to show has its answer on the page, and its change sets
name no Operation. -/
structure Attached (page : ThreadPage) : Prop where
  tools : ∀ t ∈ page.turns, t.status ≠ .inProgress → ∀ a ∈ page.toolActivities,
    a.turnId = some t.id → page.Answered t
  changes : ∀ t ∈ page.turns, t.status ≠ .inProgress → ∀ c ∈ page.changeSets,
    c.turnId = some t.id → c.changes ≠ [] → c.operationId = none ∧ page.Answered t
  errors : ∀ t ∈ page.turns, t.status = .ended .failed ∨ t.status = .ended .cancelled →
    page.Answered t

end ThreadPage

/-- What a key of a block is made from. -/
inductive BlockTag
  | omitted
  | user (clientMessageId : String)
  | entry (id : String)
  | tools (turnId : String)
  | error (turnId : String)
  | operation (operationId : String)
  | change (changeSetId : String)

/-- The key of a block. -/
def BlockTag.key : BlockTag → String
  | .omitted => "history:omitted"
  | .user clientMessageId => "user:" ++ clientMessageId
  | .entry id => "entry:" ++ id
  | .tools turnId => "turn:" ++ turnId ++ ":tools"
  | .error turnId => "turn:" ++ turnId ++ ":error"
  | .operation operationId => "operation:" ++ operationId ++ ":tools"
  | .change changeSetId => "change:" ++ changeSetId

private theorem BlockTag.key_injective : Function.Injective BlockTag.key := by
  intro a b h
  have hlist := congrArg String.toList h
  cases a <;> cases b <;> simp [BlockTag.key, String.toList_append] at hlist ⊢
  case tools.error => exact absurd (List.append_inj_right' hlist rfl) (by decide)
  case error.tools => exact absurd (List.append_inj_right' hlist rfl) (by decide)
  all_goals exact String.toList_inj.mp hlist

section Page

variable {page : ThreadPage}

private theorem present_eq_some_iff {identity : Option String} {text : String} :
    present identity = some text ↔ identity = some text ∧ text ≠ "" := by
  rw [present, Option.filter_eq_some_iff, decide_eq_true_eq]

/-- The Turn that an entry answers. -/
def ThreadPage.answeredTurn (page : ThreadPage) (e : ThreadEntry) : Option DurableTurn :=
  page.turns.find? fun t => decide (t.assistantEntryId = some e.id)

private theorem ThreadPage.WellFormed.answeredTurn_toList (h : page.WellFormed) (e : ThreadEntry) :
    (page.answeredTurn e).toList =
      page.turns.filter fun t => decide (t.assistantEntryId = some e.id) := by
  have hpairwise := List.pairwise_filterMap.mp h.answers
  rw [ThreadPage.answeredTurn]
  generalize page.turns = turns at hpairwise
  induction turns with
  | nil => rfl
  | cons t turns ih =>
    obtain ⟨hfirst, hrest⟩ := List.pairwise_cons.mp hpairwise
    by_cases hid : t.assistantEntryId = some e.id
    · have hnone : turns.filter (fun t => decide (t.assistantEntryId = some e.id)) = [] := by
        rw [List.filter_eq_nil_iff]
        intro u hu huid
        exact hfirst u hu e.id hid e.id (of_decide_eq_true huid) rfl
      simp [hid, hnone]
    · simp only [List.find?_cons, List.filter_cons, hid, decide_false]
      exact ih hrest

variable {e : ThreadEntry} {t : DurableTurn}

private theorem ThreadPage.WellFormed.answeredTurn_eq_some_iff (h : page.WellFormed)
    : page.answeredTurn e = some t ↔
      t ∈ page.turns ∧ t.assistantEntryId = some e.id := by
  rw [← Option.mem_toList, h.answeredTurn_toList, List.mem_filter, decide_eq_true_eq]

/-- The table of Turns by their answers gives the Turn that an entry answers. -/
theorem ThreadPage.WellFormed.turnsByAssistant_get? (h : page.WellFormed) :
    page.turnsByAssistant.get? e.id = page.answeredTurn e := by
  have hpairs : ∀ t ∈ page.turns, (present t.assistantEntryId).map (·, t) =
      t.assistantEntryId.map (·, t) := by
    intro t ht
    have hne := (h.turns t ht).2
    cases hid : t.assistantEntryId with
    | none => rfl
    | some id =>
      have hid' : id ≠ "" := by
        rintro rfl
        exact hne hid
      rw [present_eq_some_iff.2 ⟨rfl, hid'⟩]
  have hkeys : ((page.turns.filterMap fun t => (present t.assistantEntryId).map (·, t)).map
      Prod.fst).Nodup := by
    rw [List.filterMap_congr hpairs, List.map_filterMap]
    have hfst : (fun t : DurableTurn => (t.assistantEntryId.map (·, t)).map Prod.fst) =
        fun t => t.assistantEntryId := by
      funext t
      cases t.assistantEntryId <;> rfl
    rw [hfst]
    exact h.answers
  rw [ThreadPage.turnsByAssistant]
  cases hanswered : page.answeredTurn e with
  | some t =>
    obtain ⟨hmem, hid⟩ := h.answeredTurn_eq_some_iff.1 hanswered
    have hpair : (e.id, t) ∈ page.turns.filterMap fun t =>
        (present t.assistantEntryId).map (·, t) := by
      rw [List.filterMap_congr hpairs]
      exact List.mem_filterMap.mpr ⟨t, hmem, by rw [hid]; rfl⟩
    exact Dict.get?_foldl_set_of_mem Prod.snd hkeys hpair
  | none =>
    cases hget : ((page.turns.filterMap fun t => (present t.assistantEntryId).map (·, t)).foldl
        (fun turns answered => turns.set answered.1 answered.2) Dict.empty).get? e.id with
    | none => rfl
    | some t =>
      obtain ⟨x, hx, hkey, -⟩ := Dict.of_get?_foldl_set hget
      rw [List.filterMap_congr hpairs] at hx
      obtain ⟨u, hu, hpair⟩ := List.mem_filterMap.mp hx
      obtain ⟨id, hid, rfl⟩ := Option.map_eq_some_iff.mp hpair
      have hsome := h.answeredTurn_eq_some_iff.2 ⟨hu, hid.trans (congrArg some hkey)⟩
      cases hanswered.symm.trans hsome

/-- The blocks that come with an entry. -/
def ThreadPage.attached (page : ThreadPage) (e : ThreadEntry) : List TranscriptBlock :=
  match e.operationId, page.answeredTurn e with
  | some operationId, _ =>
      appendTools ("operation:" ++ operationId) (page.toolsByOperation operationId) ++
        page.appendChanges none (some operationId)
  | none, some t =>
      appendTools ("turn:" ++ t.id) (page.toolsByTurn t.id) ++ t.errorBlocks ++
        page.appendChanges (some t.id) none
  | none, none => []

/-- The blocks of an entry with what comes with it. -/
def ThreadPage.segment (page : ThreadPage) (e : ThreadEntry) : List TranscriptBlock :=
  if e.isAnswer then page.attached e ++ [e.block] else e.block :: page.attached e

private theorem ThreadPage.WellFormed.appendChanges_none (h : page.WellFormed) :
    page.appendChanges none none = [] := by
  rw [ThreadPage.appendChanges, List.filterMap_eq_nil_iff]
  intro c hc
  apply if_neg
  rintro ⟨⟨hturn, hoperation⟩, -⟩
  rcases h.changeOwners c hc with hne | hne
  · exact hne hturn
  · exact hne hoperation

private theorem ThreadPage.WellFormed.answeredTurn_of_not_answer (h : page.WellFormed)
    (he : e ∈ page.entries) (hanswer : e.isAnswer = false) : page.answeredTurn e = none := by
  cases hfind : page.answeredTurn e with
  | none => rfl
  | some t =>
    obtain ⟨ht, hid⟩ := h.answeredTurn_eq_some_iff.1 hfind
    cases hanswer.symm.trans (h.answerKinds t ht e he hid)

private theorem hydrateEntry_eq_ok (h : page.WellFormed) (he : e ∈ page.entries) :
    hydrateEntry page e = .ok (page.segment e) := by
  rw [hydrateEntry, ThreadPage.segment, ThreadPage.attached]
  cases hkind : e.kind with
  | userMessage clientMessageId =>
    have hclient := h.clients e he
    have hanswer : e.isAnswer = false := by rw [ThreadEntry.isAnswer, hkind]
    have hne : clientMessageId ≠ "" := by
      rintro rfl
      exact hclient (by rw [ThreadEntry.clientMessageId, hkind])
    simp only [if_neg hne, hanswer, h.answeredTurn_of_not_answer he hanswer,
      ThreadEntry.operationId, ThreadEntry.block, hkind]
    rfl
  | assistantMessage citations =>
    simp only [h.turnsByAssistant_get?, ThreadEntry.operationId, ThreadEntry.isAnswer,
      ThreadEntry.block, hkind]
    cases page.answeredTurn e with
    | none =>
      rw [h.appendChanges_none]
      rfl
    | some t => rfl
  | directCommand operationId =>
    have hanswer : e.isAnswer = false := by rw [ThreadEntry.isAnswer, hkind]
    simp only [hanswer, h.answeredTurn_of_not_answer he hanswer, ThreadEntry.operationId,
      ThreadEntry.block, hkind]
    cases present operationId <;> rfl

private theorem hydrateThreadPage_eq_ok (h : page.WellFormed) : hydrateThreadPage page =
    .ok ⟨page.omitted ++ page.sortedEntries.flatMap page.segment, page.thread.id⟩ := by
  have hall : ∀ e ∈ page.sortedEntries, hydrateEntry page e = .ok (page.segment e) := by
    intro e he
    exact hydrateEntry_eq_ok h ((List.mergeSort_perm _ _).mem_iff.mp he)
  have hblocks : page.sortedEntries.mapM (hydrateEntry page) =
      .ok (page.sortedEntries.map page.segment) := by
    generalize page.sortedEntries = entries at hall
    induction entries with
    | nil => rfl
    | cons e entries ih =>
      have hrest := ih fun f hf => hall f (List.mem_cons_of_mem _ hf)
      rw [List.mapM_cons, hall e List.mem_cons_self, hrest]
      rfl
  rw [hydrateThreadPage, hblocks, List.flatMap_def]
  rfl

private theorem Shows.nil : Shows [] [] [] [] := ⟨.refl _, .refl _, .refl _⟩

private theorem Shows.append {a b : List TranscriptBlock} {tools tools' : List ToolActivity}
    {changes changes' : List ChangeSetSummary} {turns turns' : List DurableTurn}
    (ha : Shows a tools changes turns) (hb : Shows b tools' changes' turns') :
    Shows (a ++ b) (tools ++ tools') (changes ++ changes') (turns ++ turns') where
  tools := by
    rw [List.flatMap_append, List.map_append]
    exact ha.tools.append hb.tools
  changes := by
    rw [List.filter_append, List.map_append]
    exact ha.changes.append hb.changes
  errors := by
    rw [List.filter_append, List.flatMap_append]
    exact ha.errors.append hb.errors

private theorem appendTools_shows (key : String) (tools : List ToolActivity) :
    Shows (appendTools key tools) tools [] [] := by
  rw [appendTools]
  split
  · next h =>
    rw [h]
    exact .nil
  · refine ⟨?_, .refl _, .refl _⟩
    rw [List.flatMap_singleton]
    exact (List.mergeSort_perm tools _).map ToolActivity.item

private theorem errorBlocks_shows (t : DurableTurn) : Shows t.errorBlocks [] [] [t] := by
  rw [DurableTurn.errorBlocks]
  have hself : [t].flatMap DurableTurn.errorBlocks = t.errorBlocks := List.flatMap_singleton _ _
  cases hstatus : t.status with
  | inProgress =>
    refine ⟨.refl _, .refl _, ?_⟩
    rw [hself, DurableTurn.errorBlocks, hstatus]
    exact .refl _
  | ended outcome =>
    cases outcome <;>
    · refine ⟨.refl _, .refl _, ?_⟩
      rw [hself, DurableTurn.errorBlocks, hstatus]
      exact .refl _

private theorem appendChanges_eq (page : ThreadPage) (turnId operationId : Option String) :
    page.appendChanges turnId operationId = (page.changeSets.filter fun c => decide
      ((c.turnId = turnId ∧ c.operationId = operationId) ∧ c.changes ≠ [])).map
        ChangeSetSummary.block := by
  rw [ThreadPage.appendChanges, ← List.filterMap_eq_map, List.filterMap_filter]
  apply List.filterMap_congr
  intro c _
  simp only [decide_eq_true_eq]
  rfl

private theorem map_block_shows (changes : List ChangeSetSummary) :
    Shows (changes.map ChangeSetSummary.block) [] changes [] where
  tools := by
    rw [List.flatMap_map]
    have hnone : (changes.flatMap fun c => c.block.content.toolItems) = [] := by
      rw [List.flatMap_eq_nil_iff]
      intro c _
      rfl
    rw [hnone]
    exact .refl _
  changes := by
    rw [List.filter_eq_self.2]
    intro b hb
    obtain ⟨c, -, rfl⟩ := List.mem_map.mp hb
    rfl
  errors := by
    rw [List.filter_eq_nil_iff.mpr]
    · exact .refl _
    intro b hb
    obtain ⟨c, -, rfl⟩ := List.mem_map.mp hb
    exact Bool.false_ne_true

namespace ThreadPage

/-- The tool calls that come with an entry. -/
def takesTool (page : ThreadPage) (e : ThreadEntry) (a : ToolActivity) : Bool :=
  (page.answeredTurn e).any (fun t => decide (a.turnId = some t.id)) ||
    decide (e.operationId = some a.operationId)

/-- The change sets that come with an entry. -/
def takesChange (page : ThreadPage) (e : ThreadEntry) (c : ChangeSetSummary) : Bool :=
  decide (c.changes ≠ []) && ((page.answeredTurn e).any (fun t =>
    decide (c.turnId = some t.id ∧ c.operationId = none)) ||
      decide (c.turnId = none ∧ e.operationId.isSome ∧ e.operationId = c.operationId))

end ThreadPage

private theorem ThreadEntry.operationId_of_isAnswer (h : e.isAnswer = true) :
    e.operationId = none := by
  rw [ThreadEntry.isAnswer] at h
  rw [ThreadEntry.operationId]
  split at h
  · next hkind => rw [hkind]
  · cases h

private theorem ThreadPage.WellFormed.operationId_of_answered (h : page.WellFormed)
    (he : e ∈ page.entries) (ht : page.answeredTurn e = some t) :
    e.operationId = none := by
  obtain ⟨hmem, hid⟩ := h.answeredTurn_eq_some_iff.1 ht
  exact ThreadEntry.operationId_of_isAnswer (h.answerKinds t hmem e he hid)

private theorem takesTool_of_answered (h : page.WellFormed) (he : e ∈ page.entries)
    (ht : page.answeredTurn e = some t) :
    page.toolActivities.filter (page.takesTool e) = page.toolsByTurn t.id := by
  have hid := (h.turns t (h.answeredTurn_eq_some_iff.1 ht).1).1
  apply List.filter_congr
  intro a _
  rw [ThreadPage.takesTool, ht, h.operationId_of_answered he ht, Bool.eq_iff_iff]
  simp [present_eq_some_iff, hid]

private theorem takesChange_of_answered (h : page.WellFormed) (he : e ∈ page.entries)
    (ht : page.answeredTurn e = some t) :
    page.changeSets.filter (page.takesChange e) = page.changeSets.filter fun c => decide
      ((c.turnId = some t.id ∧ c.operationId = none) ∧ c.changes ≠ []) := by
  apply List.filter_congr
  intro c _
  rw [ThreadPage.takesChange, ht, h.operationId_of_answered he ht, Bool.eq_iff_iff]
  simp [and_comm]

variable {operationId : String}

private theorem takesTool_of_command (ht : page.answeredTurn e = none)
    (hoperation : e.operationId = some operationId) :
    page.toolActivities.filter (page.takesTool e) = page.toolsByOperation operationId := by
  apply List.filter_congr
  intro a _
  rw [ThreadPage.takesTool, ht, hoperation, Bool.eq_iff_iff]
  simp [eq_comm]

private theorem takesChange_of_command (ht : page.answeredTurn e = none)
    (hoperation : e.operationId = some operationId) :
    page.changeSets.filter (page.takesChange e) = page.changeSets.filter fun c => decide
      ((c.turnId = none ∧ c.operationId = some operationId) ∧ c.changes ≠ []) := by
  apply List.filter_congr
  intro c _
  rw [ThreadPage.takesChange, ht, hoperation, Bool.eq_iff_iff]
  simp [and_comm, @eq_comm _ (some operationId) c.operationId]

private theorem attached_shows (h : page.WellFormed) (he : e ∈ page.entries) :
    Shows (page.attached e) (page.toolActivities.filter (page.takesTool e))
      (page.changeSets.filter (page.takesChange e)) (page.answeredTurn e).toList := by
  rw [ThreadPage.attached]
  cases hturn : page.answeredTurn e with
  | some t =>
    rw [h.operationId_of_answered he hturn, takesTool_of_answered h he hturn,
      takesChange_of_answered h he hturn]
    dsimp only
    rw [appendChanges_eq]
    have hshows := ((appendTools_shows ("turn:" ++ t.id) (page.toolsByTurn t.id)).append
      (errorBlocks_shows t)).append (map_block_shows (page.changeSets.filter fun c => decide
        ((c.turnId = some t.id ∧ c.operationId = none) ∧ c.changes ≠ [])))
    simpa using hshows
  | none =>
    cases hoperation : e.operationId with
    | none =>
      have htools : page.toolActivities.filter (page.takesTool e) = [] := by
        rw [List.filter_eq_nil_iff]
        intro a _
        simp [ThreadPage.takesTool, hturn, hoperation]
      have hchanges : page.changeSets.filter (page.takesChange e) = [] := by
        rw [List.filter_eq_nil_iff]
        intro c _
        simp [ThreadPage.takesChange, hturn, hoperation]
      rw [htools, hchanges]
      exact .nil
    | some operationId =>
      rw [takesTool_of_command hturn hoperation, takesChange_of_command hturn hoperation]
      dsimp only
      rw [appendChanges_eq]
      have hshows := (appendTools_shows ("operation:" ++ operationId)
        (page.toolsByOperation operationId)).append (map_block_shows
          (page.changeSets.filter fun c => decide
            ((c.turnId = none ∧ c.operationId = some operationId) ∧ c.changes ≠ [])))
      simpa using hshows

private theorem appendTools_not_entry {key : String} {tools : List ToolActivity} :
    ∀ b ∈ appendTools key tools, b.isEntry = false := by
  intro b hb
  rw [appendTools] at hb
  split at hb
  · exact absurd hb List.not_mem_nil
  · rw [List.mem_singleton.mp hb]
    rfl

private theorem errorBlocks_not_entry :
    ∀ b ∈ t.errorBlocks, b.isEntry = false := by
  intro b hb
  rw [DurableTurn.errorBlocks] at hb
  split at hb
  · exact absurd hb List.not_mem_nil
  · exact absurd hb List.not_mem_nil
  · rw [List.mem_singleton.mp hb]
    rfl

private theorem appendChanges_not_entry {turnId operationId : Option String} :
    ∀ b ∈ page.appendChanges turnId operationId, b.isEntry = false := by
  intro b hb
  rw [appendChanges_eq] at hb
  obtain ⟨c, -, rfl⟩ := List.mem_map.mp hb
  rfl

private theorem attached_not_entry (page : ThreadPage) (e : ThreadEntry) :
    ∀ b ∈ page.attached e, b.isEntry = false := by
  intro b hb
  rw [ThreadPage.attached] at hb
  split at hb
  · rcases List.mem_append.mp hb with hb | hb
    · exact appendTools_not_entry b hb
    · exact appendChanges_not_entry b hb
  · rcases List.mem_append.mp hb with hb | hb
    · rcases List.mem_append.mp hb with hb | hb
      · exact appendTools_not_entry b hb
      · exact errorBlocks_not_entry b hb
    · exact appendChanges_not_entry b hb
  · exact absurd hb List.not_mem_nil

private theorem ThreadEntry.block_isEntry (e : ThreadEntry) : e.block.isEntry = true := by
  rw [ThreadEntry.block]
  cases e.kind <;> rfl

private theorem ThreadEntry.block_shows (e : ThreadEntry) : Shows [e.block] [] [] [] := by
  rw [ThreadEntry.block]
  cases e.kind <;> exact ⟨.refl _, .refl _, .refl _⟩

private theorem omitted_shows (page : ThreadPage) : Shows page.omitted [] [] [] := by
  rw [ThreadPage.omitted]
  split <;> exact ⟨.refl _, .refl _, .refl _⟩

private theorem omitted_not_entry (page : ThreadPage) : ∀ b ∈ page.omitted, b.isEntry = false := by
  intro b hb
  rw [ThreadPage.omitted] at hb
  split at hb
  · rw [List.mem_singleton.mp hb]
    rfl
  · exact absurd hb List.not_mem_nil

private theorem segment_shows (h : page.WellFormed) (he : e ∈ page.entries) :
    Shows (page.segment e) (page.toolActivities.filter (page.takesTool e))
      (page.changeSets.filter (page.takesChange e)) (page.answeredTurn e).toList := by
  have hattached := attached_shows h he
  rw [ThreadPage.segment]
  split
  · simpa only [List.append_nil] using hattached.append e.block_shows
  · exact e.block_shows.append hattached

private theorem segment_entry (page : ThreadPage) (e : ThreadEntry) :
    (page.segment e).filter TranscriptBlock.isEntry = [e.block] := by
  have hattached : (page.attached e).filter TranscriptBlock.isEntry = [] := by
    rw [List.filter_eq_nil_iff]
    intro b hb
    rw [attached_not_entry page e b hb]
    exact Bool.false_ne_true
  rw [ThreadPage.segment]
  split
  · rw [List.filter_append, hattached, List.filter_cons_of_pos e.block_isEntry]
    rfl
  · rw [List.filter_cons_of_pos e.block_isEntry, hattached]

private theorem mem_sortedEntries : e ∈ page.sortedEntries ↔ e ∈ page.entries :=
  (List.mergeSort_perm _ _).mem_iff

private theorem segments_shows (h : page.WellFormed) {entries : List ThreadEntry}
    (hentries : ∀ e ∈ entries, e ∈ page.entries) :
    Shows (entries.flatMap page.segment)
      (entries.flatMap fun e => page.toolActivities.filter (page.takesTool e))
      (entries.flatMap fun e => page.changeSets.filter (page.takesChange e))
      (entries.flatMap fun e => (page.answeredTurn e).toList) := by
  induction entries with
  | nil => exact .nil
  | cons e entries ih =>
    simp only [List.flatMap_cons]
    exact (segment_shows h (hentries e List.mem_cons_self)).append
      (ih fun f hf => hentries f (List.mem_cons_of_mem _ hf))

private theorem segments_entries (page : ThreadPage) (entries : List ThreadEntry) :
    (entries.flatMap page.segment).filter TranscriptBlock.isEntry =
      entries.map ThreadEntry.block := by
  induction entries with
  | nil => rfl
  | cons e entries ih =>
    rw [List.flatMap_cons, List.filter_append, segment_entry, ih, List.map_cons,
      List.singleton_append]

private theorem sortedEntries_pairwise (h : page.WellFormed) :
    page.sortedEntries.Pairwise fun e f => e ∈ page.entries ∧ f ∈ page.entries ∧ e ≠ f := by
  have hnodup : page.sortedEntries.Nodup :=
    (List.mergeSort_perm _ _).nodup_iff.mpr (List.Nodup.of_map _ h.entryIds)
  refine List.Pairwise.imp_of_mem ?_ hnodup
  intro e f he hf hne
  exact ⟨mem_sortedEntries.1 he, mem_sortedEntries.1 hf, hne⟩

private theorem ThreadPage.WellFormed.answered_eq (h : page.WellFormed) {f : ThreadEntry}
    (he : e ∈ page.entries) (hf : f ∈ page.entries) {u : DurableTurn}
    (ht : page.answeredTurn e = some t) (hu : page.answeredTurn f = some u) (hid : t.id = u.id) :
    e = f := by
  obtain ⟨htmem, hte⟩ := h.answeredTurn_eq_some_iff.1 ht
  obtain ⟨humem, huf⟩ := h.answeredTurn_eq_some_iff.1 hu
  have hsame := List.inj_on_of_nodup_map h.turnIds htmem humem hid
  subst hsame
  exact List.inj_on_of_nodup_map h.entryIds he hf (Option.some.inj (hte.symm.trans huf))

private theorem ThreadPage.WellFormed.command_eq (h : page.WellFormed) {f : ThreadEntry}
    (he : e ∈ page.entries) (hf : f ∈ page.entries)
    (heop : e.operationId = some operationId) (hfop : f.operationId = some operationId) :
    e = f := by
  have hpairwise := List.pairwise_filterMap.mp h.operations
  have hsymm : Std.Symm fun e f : ThreadEntry =>
      ∀ b, e.operationId = some b → ∀ b', f.operationId = some b' → b ≠ b' :=
    ⟨fun e f hef b hb b' hb' => (hef b' hb' b hb).symm⟩
  by_contra hne
  exact hpairwise.forall he hf hne operationId heop operationId hfop rfl

private theorem takesTool_disjoint (h : page.WellFormed) :
    page.sortedEntries.Pairwise fun e f => ∀ a ∈ page.toolActivities,
      page.takesTool e a = true → page.takesTool f a = false := by
  refine (sortedEntries_pairwise h).imp ?_
  rintro e f ⟨he, hf, hne⟩ a ha htakes
  rw [Bool.eq_false_iff]
  intro htakes'
  simp only [ThreadPage.takesTool, Bool.or_eq_true, Option.any_eq_true,
    decide_eq_true_eq] at htakes htakes'
  rcases htakes with ⟨t, ht, hat⟩ | hop <;> rcases htakes' with ⟨u, hu, hau⟩ | hop'
  · exact hne (h.answered_eq he hf ht hu (Option.some.inj (hat.symm.trans hau)))
  · exact h.toolOwners a ha (by rw [hat]; exact Option.some_ne_none _) f hf hop'
  · exact h.toolOwners a ha (by rw [hau]; exact Option.some_ne_none _) e he hop
  · exact hne (h.command_eq he hf hop hop')

variable {c : ChangeSetSummary}

private theorem takesChange_unique (h : page.WellFormed) {f : ThreadEntry} (he : e ∈ page.entries)
    (hf : f ∈ page.entries) (hne : e ≠ f)
    (htakes : page.takesChange e c = true) : page.takesChange f c = false := by
  rw [Bool.eq_false_iff]
  intro htakes'
  simp only [ThreadPage.takesChange, Bool.and_eq_true, Bool.or_eq_true, Option.any_eq_true,
    decide_eq_true_eq] at htakes htakes'
  obtain ⟨-, htakes⟩ := htakes
  obtain ⟨-, htakes'⟩ := htakes'
  rcases htakes with ⟨t, ht, hct, -⟩ | ⟨hcnone, hop, hce⟩ <;>
    rcases htakes' with ⟨u, hu, hcu, -⟩ | ⟨hcnone', -, hcf⟩
  · exact hne (h.answered_eq he hf ht hu (Option.some.inj (hct.symm.trans hcu)))
  · cases hct.symm.trans hcnone'
  · cases hcu.symm.trans hcnone
  · obtain ⟨operationId, hop⟩ := Option.isSome_iff_exists.mp hop
    exact hne (h.command_eq he hf hop (hcf.trans (hce.symm.trans hop)))

private theorem takesChange_disjoint (h : page.WellFormed) :
    page.sortedEntries.Pairwise fun e f => ∀ c ∈ page.changeSets,
      page.takesChange e c = true → page.takesChange f c = false := by
  refine (sortedEntries_pairwise h).imp ?_
  rintro e f ⟨he, hf, hne⟩ c _ htakes
  exact takesChange_unique h he hf hne htakes

/-- The Turns that failed or were cancelled. -/
def DurableTurn.isFailed (t : DurableTurn) : Bool :=
  decide (t.status = .ended .failed ∨ t.status = .ended .cancelled)

/-- The error of a Turn, for those that have one. -/
def DurableTurn.errorBlock (t : DurableTurn) : TranscriptBlock :=
  t.errorBlocks.headD ⟨"turn:" ++ t.id ++ ":error", .error "" ""⟩

private theorem DurableTurn.errorBlocks_eq (t : DurableTurn) :
    t.errorBlocks = if t.isFailed then [t.errorBlock] else [] := by
  rw [DurableTurn.errorBlock, DurableTurn.isFailed, DurableTurn.errorBlocks]
  cases t.status with
  | inProgress => rfl
  | ended outcome => cases outcome <;> rfl

private theorem flatMap_errorBlocks (turns : List DurableTurn) :
    turns.flatMap DurableTurn.errorBlocks =
    (turns.filter DurableTurn.isFailed).map DurableTurn.errorBlock := by
  induction turns with
  | nil => rfl
  | cons t turns ih =>
    rw [List.flatMap_cons, ih, DurableTurn.errorBlocks_eq, List.filter_cons]
    split <;> rfl

/-- The failed Turn that an entry answers. -/
def takesError (e : ThreadEntry) (t : DurableTurn) : Bool :=
  decide (t.assistantEntryId = some e.id) && t.isFailed

private theorem takesError_disjoint (h : page.WellFormed) :
    page.sortedEntries.Pairwise fun e f => ∀ t ∈ page.turns,
      takesError e t = true → takesError f t = false := by
  refine (sortedEntries_pairwise h).imp ?_
  rintro e f ⟨he, hf, hne⟩ t ht htakes
  rw [Bool.eq_false_iff]
  intro htakes'
  simp only [takesError, Bool.and_eq_true, decide_eq_true_eq] at htakes htakes'
  have hid : e.id = f.id := Option.some.inj (htakes.1.symm.trans htakes'.1)
  exact hne (List.inj_on_of_nodup_map h.entryIds he hf hid)

private theorem answeredTurn_errors (h : page.WellFormed) (e : ThreadEntry) :
    (page.answeredTurn e).toList.flatMap DurableTurn.errorBlocks =
      (page.turns.filter (takesError e)).map DurableTurn.errorBlock := by
  rw [flatMap_errorBlocks, h.answeredTurn_toList, List.filter_filter]
  congr 2
  funext t
  rw [takesError, Bool.and_comm]

private theorem ThreadPage.WellFormed.answered_ended (h : page.WellFormed)
    (ht : page.answeredTurn e = some t) : t.status ≠ .inProgress := by
  obtain ⟨hmem, hid⟩ := h.answeredTurn_eq_some_iff.1 ht
  intro hstatus
  cases (h.unanswered t hmem hstatus).symm.trans hid

/-- Everything is shown once exactly if it comes with some entry. -/
theorem shows_iff (h : page.WellFormed) :
    Shows (page.omitted ++ page.sortedEntries.flatMap page.segment)
        (page.toolActivities.filter page.ownsTool) (page.changeSets.filter page.ownsChange)
        page.turns ↔
      (∀ a ∈ page.toolActivities, page.ownsTool a = true →
        ∃ e ∈ page.sortedEntries, page.takesTool e a = true) ∧
      (∀ c ∈ page.changeSets, page.ownsChange c = true →
        ∃ e ∈ page.sortedEntries, page.takesChange e c = true) ∧
      ∀ t ∈ page.turns, t.isFailed = true →
        ∃ e ∈ page.sortedEntries, takesError e t = true := by
  have hshown := (omitted_shows page).append
    (segments_shows h fun e he => mem_sortedEntries.1 he)
  rw [List.nil_append, List.nil_append, List.nil_append] at hshown
  have htools := Attachments.shown_perm_iff page.sortedEntries page.ownsTool
    ToolActivity.item (takesTool_disjoint h) ?_
  have hchanges := Attachments.shown_perm_iff page.sortedEntries page.ownsChange
    ChangeSetSummary.block (takesChange_disjoint h) ?_
  have herrors := Attachments.shown_perm_iff page.sortedEntries DurableTurn.isFailed
    DurableTurn.errorBlock (takesError_disjoint h) ?_
  · have hblocks : (page.sortedEntries.flatMap fun e =>
        (page.answeredTurn e).toList).flatMap DurableTurn.errorBlocks =
        page.sortedEntries.flatMap fun e =>
          (page.turns.filter (takesError e)).map DurableTurn.errorBlock := by
      rw [List.flatMap_assoc]
      congr 1
      funext e
      exact answeredTurn_errors h e
    rw [← htools, ← hchanges, ← herrors]
    have hshownTools := hshown.tools
    have hshownChanges := hshown.changes
    have hshownErrors := hshown.errors
    rw [List.map_flatMap] at hshownTools hshownChanges
    rw [hblocks] at hshownErrors
    constructor
    · intro hshows
      have herrors' := hshows.errors
      rw [flatMap_errorBlocks] at herrors'
      exact ⟨hshownTools.symm.trans hshows.tools, hshownChanges.symm.trans hshows.changes,
        hshownErrors.symm.trans herrors'⟩
    · rintro ⟨hpermTools, hpermChanges, hpermErrors⟩
      refine ⟨hshownTools.trans hpermTools, hshownChanges.trans hpermChanges, ?_⟩
      rw [flatMap_errorBlocks]
      exact hshownErrors.trans hpermErrors
  · intro e _ t _ htakes
    exact (Bool.and_eq_true_iff.mp htakes).2
  · intro e he c _ htakes
    simp only [ThreadPage.takesChange, ThreadPage.ownsChange, Bool.and_eq_true, Bool.or_eq_true,
      Option.any_eq_true, List.any_eq_true, decide_eq_true_eq] at htakes ⊢
    refine ⟨htakes.1, ?_⟩
    rcases htakes.2 with ⟨t, ht, hct, -⟩ | hop
    · exact Or.inl ⟨t, (h.answeredTurn_eq_some_iff.1 ht).1, h.answered_ended ht, hct⟩
    · exact Or.inr ⟨e, mem_sortedEntries.1 he, hop⟩
  · intro e he a _ htakes
    simp only [ThreadPage.takesTool, ThreadPage.ownsTool, Bool.or_eq_true,
      Option.any_eq_true, List.any_eq_true, decide_eq_true_eq] at htakes ⊢
    rcases htakes with ⟨t, ht, hat⟩ | hop
    · exact Or.inl ⟨t, (h.answeredTurn_eq_some_iff.1 ht).1, h.answered_ended ht, hat⟩
    · exact Or.inr ⟨e, mem_sortedEntries.1 he, hop⟩

/-- Everything comes with some entry exactly if the page is attached. -/
theorem attached_iff (h : page.WellFormed) : page.Attached ↔
    (∀ a ∈ page.toolActivities, page.ownsTool a = true →
      ∃ e ∈ page.sortedEntries, page.takesTool e a = true) ∧
    (∀ c ∈ page.changeSets, page.ownsChange c = true →
      ∃ e ∈ page.sortedEntries, page.takesChange e c = true) ∧
    ∀ t ∈ page.turns, t.isFailed = true →
      ∃ e ∈ page.sortedEntries, takesError e t = true := by
  simp only [ThreadPage.takesChange, ThreadPage.ownsChange, ThreadPage.takesTool,
    ThreadPage.ownsTool, takesError, DurableTurn.isFailed, Bool.and_eq_true, Bool.or_eq_true,
    Option.any_eq_true, List.any_eq_true, decide_eq_true_eq, mem_sortedEntries]
  constructor
  · intro hattached
    refine ⟨?_, ?_, ?_⟩
    · rintro a ha (⟨t, ht, hended, hat⟩ | ⟨e, he, hop⟩)
      · obtain ⟨e, he, hid⟩ := hattached.tools t ht hended a ha hat
        exact ⟨e, he, Or.inl ⟨t, h.answeredTurn_eq_some_iff.2 ⟨ht, hid⟩, hat⟩⟩
      · exact ⟨e, he, Or.inr hop⟩
    · rintro c hc ⟨hne, ⟨t, ht, hended, hct⟩ | ⟨e, he, hop⟩⟩
      · obtain ⟨hoperation, e, he, hid⟩ := hattached.changes t ht hended c hc hct hne
        exact ⟨e, he, hne, Or.inl ⟨t, h.answeredTurn_eq_some_iff.2 ⟨ht, hid⟩, hct,
          hoperation⟩⟩
      · exact ⟨e, he, hne, Or.inr hop⟩
    · intro t ht hfailed
      obtain ⟨e, he, hid⟩ := hattached.errors t ht hfailed
      exact ⟨e, he, hid, hfailed⟩
  · rintro ⟨htools, hchanges, herrors⟩
    refine ⟨?_, ?_, ?_⟩
    · intro t ht hended a ha hat
      obtain ⟨e, he, ⟨u, hu, hau⟩ | hop⟩ := htools a ha (Or.inl ⟨t, ht, hended, hat⟩)
      · obtain ⟨humem, hid⟩ := h.answeredTurn_eq_some_iff.1 hu
        have hsame := List.inj_on_of_nodup_map h.turnIds ht humem
          (Option.some.inj (hat.symm.trans hau))
        exact ⟨e, he, hsame ▸ hid⟩
      · exact absurd hop (h.toolOwners a ha (by rw [hat]; exact Option.some_ne_none _) e he)
    · intro t ht hended c hc hct hne
      obtain ⟨e, he, -, ⟨u, hu, hcu, hoperation⟩ | ⟨hcnone, -⟩⟩ :=
        hchanges c hc ⟨hne, Or.inl ⟨t, ht, hended, hct⟩⟩
      · obtain ⟨humem, hid⟩ := h.answeredTurn_eq_some_iff.1 hu
        have hsame := List.inj_on_of_nodup_map h.turnIds ht humem
          (Option.some.inj (hct.symm.trans hcu))
        exact ⟨hoperation, e, he, hsame ▸ hid⟩
      · cases hct.symm.trans hcnone
    · intro t ht hfailed
      obtain ⟨e, he, hid, -⟩ := herrors t ht hfailed
      exact ⟨e, he, hid⟩

private theorem segments_split (he : e ∈ page.entries) : ∃ before after,
    page.omitted ++ page.sortedEntries.flatMap page.segment =
      before ++ page.segment e ++ after := by
  obtain ⟨front, back, hsplit⟩ := List.append_of_mem (mem_sortedEntries.2 he)
  refine ⟨page.omitted ++ front.flatMap page.segment, back.flatMap page.segment, ?_⟩
  rw [hsplit, List.flatMap_append, List.flatMap_cons]
  simp only [List.append_assoc]

private theorem answered_located (h : page.WellFormed) (hattached : page.Attached)
    (ht : t ∈ page.turns) (he : e ∈ page.entries)
    (hid : t.assistantEntryId = some e.id) : ∃ before own after,
    page.omitted ++ page.sortedEntries.flatMap page.segment =
      before ++ own ++ e.block :: after ∧ (∀ b ∈ own, b.isEntry = false) ∧
      Shows own (page.toolsByTurn t.id) (page.changesOf t.id) [t] := by
  obtain ⟨before, after, hsplit⟩ := segments_split he
  have hturn := h.answeredTurn_eq_some_iff.2 ⟨ht, hid⟩
  have hshows := attached_shows h he
  have hchanges : page.changeSets.filter (page.takesChange e) = page.changesOf t.id := by
    rw [takesChange_of_answered h he hturn]
    apply List.filter_congr
    intro c hc
    rw [decide_eq_decide]
    constructor
    · rintro ⟨⟨hct, -⟩, hne⟩
      exact ⟨hct, hne⟩
    · rintro ⟨hct, hne⟩
      have hoperation := (hattached.changes t ht (h.answered_ended hturn) c hc hct hne).1
      exact ⟨⟨hct, hoperation⟩, hne⟩
  rw [takesTool_of_answered h he hturn, hchanges, hturn] at hshows
  refine ⟨before, page.attached e, after, ?_, attached_not_entry page e, hshows⟩
  rw [hsplit, ThreadPage.segment, if_pos (h.answerKinds t ht e he hid)]
  simp only [List.append_assoc, List.singleton_append]

private theorem commanded_located (h : page.WellFormed) (he : e ∈ page.entries)
    (hoperation : e.operationId = some operationId) :
    ∃ before own after, page.omitted ++ page.sortedEntries.flatMap page.segment =
      before ++ e.block :: own ++ after ∧ (∀ b ∈ own, b.isEntry = false) ∧
      Shows own (page.toolsByOperation operationId)
        (page.changesOfOperation operationId) [] := by
  obtain ⟨before, after, hsplit⟩ := segments_split he
  have hanswer : e.isAnswer = false := by
    cases hanswer : e.isAnswer with
    | false => rfl
    | true => cases hoperation.symm.trans (ThreadEntry.operationId_of_isAnswer hanswer)
  have hturn := h.answeredTurn_of_not_answer he hanswer
  have hshows := attached_shows h he
  have hchanges : page.changeSets.filter (page.takesChange e) =
      page.changesOfOperation operationId := by
    rw [takesChange_of_command hturn hoperation]
    apply List.filter_congr
    intro c _
    rw [decide_eq_decide, and_assoc]
  rw [takesTool_of_command hturn hoperation, hchanges, hturn] at hshows
  refine ⟨before, page.attached e, after, ?_, attached_not_entry page e, hshows⟩
  rw [hsplit, ThreadPage.segment, hanswer]
  rfl

/-- The tag of an entry itself. -/
def ThreadEntry.tag (e : ThreadEntry) : BlockTag :=
  match e.clientMessageId with
  | some clientMessageId => .user clientMessageId
  | none => .entry e.id

private theorem ThreadEntry.block_key (e : ThreadEntry) : e.block.key = e.tag.key := by
  rw [ThreadEntry.block, ThreadEntry.tag, ThreadEntry.clientMessageId]
  cases e.kind <;> rfl

/-- The tags of the change sets with two owners. -/
def ThreadPage.changeTags (page : ThreadPage) (turnId operationId : Option String) :
    List BlockTag :=
  (page.changeSets.filter fun c => decide
    ((c.turnId = turnId ∧ c.operationId = operationId) ∧ c.changes ≠ [])).map
      fun c => .change c.changeSetId

/-- The tags of what comes with an entry. -/
def ThreadPage.attachedTags (page : ThreadPage) (e : ThreadEntry) : List BlockTag :=
  match e.operationId, page.answeredTurn e with
  | some operationId, _ =>
      (if page.toolsByOperation operationId = [] then [] else [.operation operationId]) ++
        page.changeTags none (some operationId)
  | none, some t =>
      (if page.toolsByTurn t.id = [] then [] else [.tools t.id]) ++
        (if t.isFailed then [.error t.id] else []) ++ page.changeTags (some t.id) none
  | none, none => []

private theorem appendTools_keys (tag : BlockTag) {key : String} (tools : List ToolActivity)
    (hkey : key ++ ":tools" = tag.key) : (appendTools key tools).map (·.key) =
      (if tools = [] then [] else [tag]).map BlockTag.key := by
  rw [appendTools]
  split
  · rfl
  · rw [List.map_singleton, List.map_singleton, hkey]

private theorem errorBlocks_keys (t : DurableTurn) : t.errorBlocks.map (·.key) =
    (if t.isFailed then [BlockTag.error t.id] else []).map BlockTag.key := by
  rw [DurableTurn.errorBlocks, DurableTurn.isFailed]
  cases t.status with
  | inProgress => rfl
  | ended outcome => cases outcome <;> rfl

private theorem appendChanges_keys (page : ThreadPage) (turnId operationId : Option String) :
    (page.appendChanges turnId operationId).map (·.key) =
      (page.changeTags turnId operationId).map BlockTag.key := by
  rw [appendChanges_eq, ThreadPage.changeTags, List.map_map, List.map_map]
  rfl

private theorem attached_keys (page : ThreadPage) (e : ThreadEntry) :
    (page.attached e).map (·.key) = (page.attachedTags e).map BlockTag.key := by
  rw [ThreadPage.attached, ThreadPage.attachedTags]
  split
  · rw [List.map_append, List.map_append, appendChanges_keys,
      appendTools_keys (.operation _) _ rfl]
  · rw [List.map_append, List.map_append, List.map_append, List.map_append, appendChanges_keys,
      errorBlocks_keys, appendTools_keys (.tools _) _ rfl]
  · rfl

/-- The tags of the blocks of an entry. -/
def ThreadPage.segmentTags (page : ThreadPage) (e : ThreadEntry) : List BlockTag :=
  if e.isAnswer then page.attachedTags e ++ [e.tag] else e.tag :: page.attachedTags e

private theorem segment_keys (page : ThreadPage) (e : ThreadEntry) :
    (page.segment e).map (·.key) = (page.segmentTags e).map BlockTag.key := by
  rw [ThreadPage.segment, ThreadPage.segmentTags]
  split
  · rw [List.map_append, List.map_append, attached_keys, List.map_singleton, List.map_singleton,
      e.block_key]
  · rw [List.map_cons, List.map_cons, attached_keys, e.block_key]

variable {tag : BlockTag}

private theorem mem_attachedTags (h : tag ∈ page.attachedTags e) :
    (∃ operationId, e.operationId = some operationId ∧ tag = .operation operationId) ∨
    (∃ t, page.answeredTurn e = some t ∧ (tag = .tools t.id ∨ tag = .error t.id)) ∨
    ∃ c ∈ page.changeSets, page.takesChange e c = true ∧ tag = .change c.changeSetId := by
  rw [ThreadPage.attachedTags] at h
  have htools : ∀ {tools : List ToolActivity} {a : BlockTag},
      tag ∈ (if tools = [] then [] else [a]) → tag = a := by
    intro tools a hmem
    split at hmem
    · exact absurd hmem List.not_mem_nil
    · exact List.mem_singleton.mp hmem
  split at h
  · next _ operationId hoperation =>
    rcases List.mem_append.mp h with h | h
    · exact Or.inl ⟨operationId, hoperation, htools h⟩
    · obtain ⟨c, hc, rfl⟩ := List.mem_map.mp h
      obtain ⟨hmem, htakes⟩ := List.mem_filter.mp hc
      refine Or.inr (Or.inr ⟨c, hmem, ?_, rfl⟩)
      simp only [decide_eq_true_eq] at htakes
      simp [ThreadPage.takesChange, htakes, hoperation]
  · next t hoperation hturn =>
    rcases List.mem_append.mp h with h | h
    · rcases List.mem_append.mp h with h | h
      · exact Or.inr (Or.inl ⟨t, hturn, Or.inl (htools h)⟩)
      · split at h
        · exact Or.inr (Or.inl ⟨t, hturn, Or.inr (List.mem_singleton.mp h)⟩)
        · exact absurd h List.not_mem_nil
    · obtain ⟨c, hc, rfl⟩ := List.mem_map.mp h
      obtain ⟨hmem, htakes⟩ := List.mem_filter.mp hc
      refine Or.inr (Or.inr ⟨c, hmem, ?_, rfl⟩)
      simp only [decide_eq_true_eq] at htakes
      simp [ThreadPage.takesChange, htakes, hturn]
  · exact absurd h List.not_mem_nil

private theorem mem_segmentTags :
    tag ∈ page.segmentTags e ↔ tag ∈ page.attachedTags e ∨ tag = e.tag := by
  rw [ThreadPage.segmentTags]
  split
  · rw [List.mem_append, List.mem_singleton]
  · rw [List.mem_cons, or_comm]

private theorem ThreadPage.WellFormed.tag_injective (h : page.WellFormed) {f : ThreadEntry}
    (he : e ∈ page.entries) (hf : f ∈ page.entries) (htag : e.tag = f.tag) : e = f := by
  rw [ThreadEntry.tag, ThreadEntry.tag] at htag
  cases hec : e.clientMessageId with
  | some c =>
    cases hfc : f.clientMessageId with
    | none =>
      rw [hec, hfc] at htag
      cases htag
    | some d =>
      rw [hec, hfc] at htag
      cases htag
      have hpairwise := List.pairwise_filterMap.mp h.clientIds
      have hsymm : Std.Symm fun e f : ThreadEntry =>
          ∀ b, e.clientMessageId = some b → ∀ b', f.clientMessageId = some b' → b ≠ b' :=
        ⟨fun e f hef b hb b' hb' => (hef b' hb' b hb).symm⟩
      by_contra hne
      exact hpairwise.forall he hf hne c hec c hfc rfl
  | none =>
    cases hfc : f.clientMessageId with
    | some d =>
      rw [hec, hfc] at htag
      cases htag
    | none =>
      rw [hec, hfc] at htag
      exact List.inj_on_of_nodup_map h.entryIds he hf (BlockTag.entry.inj htag)

private theorem changeTags_nodup (h : page.WellFormed) (turnId operationId : Option String) :
    (page.changeTags turnId operationId).Nodup := by
  have hids : ((page.changeSets.filter fun c => decide ((c.turnId = turnId ∧
      c.operationId = operationId) ∧ c.changes ≠ [])).map (·.changeSetId)).Nodup :=
    h.changeSetIds.sublist ((List.filter_sublist).map _)
  have htags := hids.map (f := BlockTag.change) fun _ _ heq => BlockTag.change.inj heq
  rwa [List.map_map] at htags

private theorem changeTags_change {turnId operationId : Option String}
    (h : tag ∈ page.changeTags turnId operationId) : ∃ id, tag = .change id := by
  obtain ⟨c, -, rfl⟩ := List.mem_map.mp h
  exact ⟨c.changeSetId, rfl⟩

private theorem attachedTags_nodup (h : page.WellFormed) (e : ThreadEntry) :
    (page.attachedTags e).Nodup := by
  have hsingle : ∀ (c : Prop) [Decidable c] (a : BlockTag), (if c then [] else [a]).Nodup := by
    intro c _ a
    split
    · exact List.nodup_nil
    · exact List.nodup_singleton a
  have hmem : ∀ {c : Prop} [Decidable c] {a tag : BlockTag},
      tag ∈ (if c then [] else [a]) → tag = a := by
    intro c _ a tag htag
    split at htag
    · exact absurd htag List.not_mem_nil
    · exact List.mem_singleton.mp htag
  rw [ThreadPage.attachedTags]
  split
  · refine List.Nodup.append (hsingle _ _) (changeTags_nodup h _ _) ?_
    intro tag htag hchange
    obtain ⟨id, rfl⟩ := changeTags_change hchange
    cases hmem htag
  · next t _ _ =>
    have herror : (if t.isFailed = true then [BlockTag.error t.id] else []) =
        if t.isFailed = false then [] else [BlockTag.error t.id] := by
      cases t.isFailed <;> rfl
    rw [herror]
    refine List.Nodup.append (List.Nodup.append (hsingle _ _) (hsingle _ _) ?_)
      (changeTags_nodup h _ _) ?_
    · intro tag htools herrors
      cases (hmem htools).symm.trans (hmem herrors)
    · intro tag htag hchange
      obtain ⟨id, rfl⟩ := changeTags_change hchange
      rcases List.mem_append.mp htag with htag | htag
      · cases hmem htag
      · cases hmem htag
  · exact List.nodup_nil

private theorem tag_notMem_attachedTags (page : ThreadPage) (e f : ThreadEntry) :
    e.tag ∉ page.attachedTags f := by
  intro h
  rw [ThreadEntry.tag] at h
  rcases mem_attachedTags h with ⟨_, -, htag⟩ | ⟨_, -, htag | htag⟩ | ⟨_, -, -, htag⟩ <;>
    · cases hclient : e.clientMessageId <;>
      · rw [hclient] at htag
        cases htag

private theorem segmentTags_nodup (h : page.WellFormed) (e : ThreadEntry) :
    (page.segmentTags e).Nodup := by
  have hattached := attachedTags_nodup h e
  have hnew := tag_notMem_attachedTags page e e
  rw [ThreadPage.segmentTags]
  split
  · refine hattached.append (List.nodup_singleton _) ?_
    intro tag htag hsingle
    rw [List.mem_singleton.mp hsingle] at htag
    exact hnew htag
  · exact List.nodup_cons.mpr ⟨hnew, hattached⟩

private theorem segmentTags_disjoint (h : page.WellFormed) {f : ThreadEntry} (he : e ∈ page.entries)
    (hf : f ∈ page.entries) (hne : e ≠ f) :
    List.Disjoint (page.segmentTags e) (page.segmentTags f) := by
  intro tag hte htf
  rcases mem_segmentTags.1 hte with hte | rfl
  · rcases mem_segmentTags.1 htf with htf | rfl
    · rcases mem_attachedTags hte with ⟨operationId, hop, rfl⟩ | ⟨t, ht, htag⟩ |
        ⟨c, hc, htakes, rfl⟩
      · rcases mem_attachedTags htf with ⟨operationId', hop', htag'⟩ | ⟨u, -, htag' | htag'⟩ |
          ⟨_, -, -, htag'⟩
        · cases htag'
          exact hne (h.command_eq he hf hop hop')
        · cases htag'
        · cases htag'
        · cases htag'
      · rcases mem_attachedTags htf with ⟨operationId', hop', htag'⟩ | ⟨u, hu, htag'⟩ |
          ⟨_, -, -, htag'⟩
        · rcases htag with rfl | rfl <;> cases htag'
        · have hid : t.id = u.id := by
            rcases htag with rfl | rfl <;> rcases htag' with htag' | htag'
            · exact BlockTag.tools.inj htag'
            · cases htag'
            · cases htag'
            · exact BlockTag.error.inj htag'
          exact hne (h.answered_eq he hf ht hu hid)
        · rcases htag with rfl | rfl <;> cases htag'
      · rcases mem_attachedTags htf with ⟨operationId', hop', htag'⟩ | ⟨u, hu, htag' | htag'⟩ |
          ⟨d, hd, htakes', htag'⟩
        · cases htag'
        · cases htag'
        · cases htag'
        · have hsame := List.inj_on_of_nodup_map h.changeSetIds hc hd (BlockTag.change.inj htag')
          subst hsame
          cases (takesChange_unique h he hf hne htakes).symm.trans htakes'
    · exact tag_notMem_attachedTags page f e hte
  · rcases mem_segmentTags.1 htf with htf | htag
    · exact tag_notMem_attachedTags page e f htf
    · exact hne (h.tag_injective he hf htag)

private theorem keys_nodup (h : page.WellFormed) :
    ((page.omitted ++ page.sortedEntries.flatMap page.segment).map (·.key)).Nodup := by
  have hkeys : (page.omitted ++ page.sortedEntries.flatMap page.segment).map (·.key) =
      ((if page.hasMore then [BlockTag.omitted] else []) ++
        page.sortedEntries.flatMap page.segmentTags).map BlockTag.key := by
    have homitted : page.omitted.map (·.key) =
        (if page.hasMore then [BlockTag.omitted] else []).map BlockTag.key := by
      rw [ThreadPage.omitted]
      cases page.hasMore <;> rfl
    rw [List.map_append, List.map_append, homitted, List.map_flatMap, List.map_flatMap]
    congr 2
    funext e
    exact segment_keys page e
  have htags : (page.sortedEntries.flatMap page.segmentTags).Nodup := by
    rw [List.nodup_flatMap]
    refine ⟨fun e _ => segmentTags_nodup h e, (sortedEntries_pairwise h).imp ?_⟩
    rintro e f ⟨he, hf, hne⟩
    exact segmentTags_disjoint h he hf hne
  rw [hkeys]
  refine List.Nodup.map BlockTag.key_injective (List.Nodup.append ?_ htags ?_)
  · split
    · exact List.nodup_singleton _
    · exact List.nodup_nil
  · intro tag homitted htag
    obtain ⟨e, -, htag⟩ := List.mem_flatMap.mp htag
    have hsame : tag = .omitted := by
      split at homitted
      · exact List.mem_singleton.mp homitted
      · exact absurd homitted List.not_mem_nil
    subst hsame
    rcases mem_segmentTags.1 htag with htag | htag
    · rcases mem_attachedTags htag with ⟨_, -, htag⟩ | ⟨_, -, htag | htag⟩ | ⟨_, -, -, htag⟩ <;>
        cases htag
    · rw [ThreadEntry.tag] at htag
      split at htag <;> cases htag

variable {turnId : String} {live : LiveTranscriptProjection} {turn : DurableTurn}

/-- What a durable Turn that can be reconciled has. -/
theorem validateDurableTurn_ok (hok : validateDurableTurn live page turnId = .ok turn) :
    turn ∈ page.turns ∧ turn.id = turnId ∧ turn.status ≠ .inProgress ∧
      ∀ b ∈ live.blocks, ∀ item ∈ b.content.toolItems,
        ∃ a ∈ page.toolsOf turnId, a.callId = item.callId := by
  unfold validateDurableTurn at hok
  cases hfind : page.turns.find? fun candidate => decide (candidate.id = turnId) with
  | none =>
    rw [hfind] at hok
    cases hok
  | some found =>
    rw [hfind] at hok
    have hmem := List.mem_of_find?_eq_some hfind
    have hid : found.id = turnId := of_decide_eq_true (List.find?_some hfind :)
    dsimp only at hok
    generalize hmissing : List.find? _ (live.blocks.flatMap fun block =>
      block.content.toolItems.map ToolItem.callId) = missing at hok
    have hfound : missing = none ∧ found.status ≠ .inProgress ∧ turn = found := by
      cases hstatus : found.status with
      | inProgress =>
        rw [hstatus] at hok
        cases hok
      | ended outcome =>
        rw [hstatus] at hok
        cases missing with
        | some callId =>
          cases outcome with
          | completed =>
            dsimp only at hok
            split at hok
            · cases hok
            · split at hok <;> cases hok
          | failed => cases hok
          | cancelled => cases hok
        | none =>
          refine ⟨rfl, fun h => (by cases h), ?_⟩
          cases outcome with
          | completed =>
            dsimp only at hok
            split at hok
            · cases hok
            · split at hok
              · cases hok
                rfl
              · cases hok
          | failed =>
            cases hok
            rfl
          | cancelled =>
            cases hok
            rfl
    obtain ⟨rfl, hstatus, rfl⟩ := hfound
    refine ⟨hmem, hid, hstatus, ?_⟩
    intro b hb item hitem
    have hnone := List.find?_eq_none.mp hmissing item.callId
      (List.mem_flatMap.mpr ⟨b, hb, List.mem_map_of_mem hitem⟩)
    rw [Bool.not_eq_true, Bool.not_eq_false', List.any_eq_true] at hnone
    obtain ⟨a, ha, hcall⟩ := hnone
    exact ⟨a, ha, of_decide_eq_true hcall⟩

private theorem mem_toolsOf_of_get? {callId : String} {a : ToolActivity}
    (h : (page.durableTools turnId).get? callId = some a) :
    a ∈ page.toolsOf turnId ∧ a.callId = callId := by
  obtain ⟨x, hx, hkey, rfl⟩ := Dict.of_get?_foldl_set h
  exact ⟨hx, hkey⟩

variable {b : TranscriptBlock}

private theorem mem_blocks_of_attached (he : e ∈ page.entries)
    (hb : b ∈ page.attached e) : b ∈ page.omitted ++ page.sortedEntries.flatMap page.segment := by
  refine List.mem_append_right _ (List.mem_flatMap.mpr ⟨e, mem_sortedEntries.2 he, ?_⟩)
  rw [ThreadPage.segment]
  split
  · exact List.mem_append_left _ hb
  · exact List.mem_cons_of_mem _ hb

private theorem tools_shown (h : page.WellFormed) (ht : t ∈ page.turns)
    (hanswered : page.Answered t) {a : ToolActivity} (ha : a ∈ page.toolsOf t.id) :
    ∃ shown ∈ page.omitted ++ page.sortedEntries.flatMap page.segment,
      shown.key = "turn:" ++ t.id ++ ":tools" ∧ a.item ∈ shown.content.toolItems := by
  obtain ⟨e, he, hid⟩ := hanswered
  have hturn := h.answeredTurn_eq_some_iff.2 ⟨ht, hid⟩
  obtain ⟨hmem, haturn⟩ := List.mem_filter.mp ha
  have hin : a ∈ page.toolsByTurn t.id := by
    refine List.mem_filter.mpr ⟨hmem, ?_⟩
    rw [decide_eq_true_eq, present_eq_some_iff]
    exact ⟨of_decide_eq_true haturn, (h.turns t ht).1⟩
  have hne : page.toolsByTurn t.id ≠ [] := List.ne_nil_of_mem hin
  refine ⟨⟨"turn:" ++ t.id ++ ":tools", .tools (((page.toolsByTurn t.id).mergeSort
    fun left right => left.sequence ≤ right.sequence).map ToolActivity.item)⟩,
    mem_blocks_of_attached he ?_, rfl, ?_⟩
  · rw [ThreadPage.attached, h.operationId_of_answered he hturn, hturn]
    dsimp only
    rw [appendTools, if_neg hne, List.append_assoc]
    exact List.mem_append_left _ List.mem_cons_self
  · exact List.mem_map_of_mem ((List.mergeSort_perm _ _).mem_iff.mpr hin)

private theorem errors_shown (h : page.WellFormed) (hattached : page.Attached)
    (ht : t ∈ page.turns) (hb : b ∈ t.errorBlocks) :
    b ∈ page.omitted ++ page.sortedEntries.flatMap page.segment := by
  have hfailed : t.isFailed = true := by
    rw [DurableTurn.errorBlocks_eq] at hb
    split at hb
    · assumption
    · exact absurd hb List.not_mem_nil
  obtain ⟨e, he, hid⟩ := hattached.errors t ht (of_decide_eq_true hfailed)
  have hturn := h.answeredTurn_eq_some_iff.2 ⟨ht, hid⟩
  apply mem_blocks_of_attached he
  rw [ThreadPage.attached, h.operationId_of_answered he hturn, hturn]
  exact List.mem_append_left _ (List.mem_append_right _ hb)

private theorem changes_shown (h : page.WellFormed) (hattached : page.Attached)
    (ht : t ∈ page.turns) (hended : t.status ≠ .inProgress)
    (hc : c ∈ page.changeSets) (hct : c.turnId = some t.id) (hne : c.changes ≠ []) :
    c.block ∈ page.omitted ++ page.sortedEntries.flatMap page.segment := by
  obtain ⟨hoperation, e, he, hid⟩ := hattached.changes t ht hended c hc hct hne
  have hturn := h.answeredTurn_eq_some_iff.2 ⟨ht, hid⟩
  apply mem_blocks_of_attached he
  rw [ThreadPage.attached, h.operationId_of_answered he hturn, hturn]
  dsimp only
  rw [appendChanges_eq]
  exact List.mem_append_right _ (List.mem_map_of_mem (List.mem_filter.mpr
    ⟨hc, decide_eq_true ⟨⟨hct, hoperation⟩, hne⟩⟩))

private theorem retain_plain {tools : Dict String ToolActivity} {retainAssistantSegments : Bool}
    {block : TranscriptBlock} (h : block.retain tools retainAssistantSegments = some b) :
    b.isError = false ∧ b.isChange = false ∧
      b.content.toolItems = block.content.toolItems.map fun item => item.persist tools := by
  obtain ⟨key, content⟩ := block
  cases content with
  | thinking =>
    cases h
    exact ⟨rfl, rfl, rfl⟩
  | worked =>
    cases h
    exact ⟨rfl, rfl, rfl⟩
  | tools items =>
    cases h
    exact ⟨rfl, rfl, rfl⟩
  | assistant =>
    unfold TranscriptBlock.retain at h
    dsimp only at h
    split at h
    · cases h
      exact ⟨rfl, rfl, rfl⟩
    · cases h
  | _ => cases h

private theorem mem_durableBlocks (hid : turn.id = turnId)
    (hb : b ∈ durableBlocks live page turnId turn) :
    (∃ block ∈ live.blocks, ∃ retainAssistantSegments,
      block.retain (page.durableTools turnId) retainAssistantSegments = some b) ∨
    (b.isError = false ∧ b.isChange = false ∧
      ∀ item ∈ b.content.toolItems, ∃ a ∈ page.toolsOf turnId, item = a.item) ∨
    b ∈ turn.errorBlocks ∨
    ∃ c ∈ page.changeSets, (c.turnId = some turnId ∧ c.changes ≠ []) ∧ b = c.block := by
  subst hid
  simp only [durableBlocks, List.mem_append] at hb
  rcases hb with (((hb | hb) | hb) | hb) | hb
  · obtain ⟨block, hmem, hretain⟩ := List.mem_filterMap.mp hb
    exact Or.inl ⟨block, hmem, _, hretain⟩
  · right
    left
    split at hb
    · exact absurd hb List.not_mem_nil
    · rw [List.mem_singleton.mp hb]
      refine ⟨rfl, rfl, ?_⟩
      intro item hitem
      obtain ⟨a, ha, rfl⟩ := List.mem_map.mp hitem
      obtain ⟨callId, hget⟩ := ((page.durableTools turn.id).mem_values_iff a).mp
        ((List.mergeSort_perm _ _).mem_iff.mp ha)
      exact ⟨a, (mem_toolsOf_of_get? hget).1, rfl⟩
  · right
    left
    split at hb
    · exact absurd hb List.not_mem_nil
    · obtain ⟨found, -, rfl⟩ := Option.map_eq_some_iff.mp (Option.mem_toList.mp hb)
      exact ⟨rfl, rfl, fun item hitem => absurd hitem List.not_mem_nil⟩
  · exact Or.inr (Or.inr (Or.inl hb))
  · obtain ⟨c, hc, hsome⟩ := List.mem_filterMap.mp hb
    split at hsome
    · next hchange =>
      cases hsome
      exact Or.inr (Or.inr (Or.inr ⟨c, hc, hchange, rfl⟩))
    · cases hsome

/-- What reconciliation shows of a Turn is shown on an attached page. -/
theorem reconciled_shown (h : page.WellFormed) (hattached : page.Attached)
    {result : TerminalTurnReconciliation} (hlive : live.turnId = some turnId)
    (hok : validateDurableTurn live page turnId = .ok turn)
    (hresult : reconcileTerminalTurn live page = .ok result) :
    (∀ b ∈ result.blocks, b.isError = true ∨ b.isChange = true →
      b ∈ page.omitted ++ page.sortedEntries.flatMap page.segment) ∧
    ∀ b ∈ result.blocks, ∀ item ∈ b.content.toolItems,
      ∃ shown ∈ page.omitted ++ page.sortedEntries.flatMap page.segment,
        shown.key = "turn:" ++ turnId ++ ":tools" ∧
        ∃ found ∈ shown.content.toolItems, found.callId = item.callId ∧
          found.outcome = item.outcome ∧ found.summary = item.summary ∧
          found.durationMs = item.durationMs ∧ found.errorCode = item.errorCode := by
  obtain ⟨ht, hid, hended, hcalls⟩ := validateDurableTurn_ok hok
  have hblocks : result.blocks = durableBlocks live page turnId turn := by
    unfold reconcileTerminalTurn at hresult
    split at hresult
    · next operationId otherId _ hpresent =>
      rw [hlive, present_eq_some_iff] at hpresent
      obtain rfl := Option.some.inj hpresent.1
      rw [hok] at hresult
      cases hresult
      rfl
    · cases hresult
  rw [hblocks]
  constructor
  · intro b hb hshown
    rcases mem_durableBlocks hid hb with ⟨block, -, _, hretain⟩ | ⟨herror, hchange, -⟩ | hb |
      ⟨c, hc, ⟨hct, hne⟩, rfl⟩
    · obtain ⟨herror, hchange, -⟩ := retain_plain hretain
      rw [herror, hchange] at hshown
      rcases hshown with hshown | hshown <;> cases hshown
    · rw [herror, hchange] at hshown
      rcases hshown with hshown | hshown <;> cases hshown
    · exact errors_shown h hattached ht hb
    · exact changes_shown h hattached ht hended hc (hct.trans (congrArg some hid.symm)) hne
  · have htool : ∀ a ∈ page.toolsOf turnId,
        ∃ shown ∈ page.omitted ++ page.sortedEntries.flatMap page.segment,
          shown.key = "turn:" ++ turnId ++ ":tools" ∧ a.item ∈ shown.content.toolItems := by
      subst hid
      intro a ha
      obtain ⟨hmem, hat⟩ := List.mem_filter.mp ha
      have hanswered := hattached.tools turn ht hended a hmem (of_decide_eq_true hat)
      exact tools_shown h ht hanswered ha
    intro b hb item hitem
    rcases mem_durableBlocks hid hb with ⟨block, hblock, _, hretain⟩ | ⟨-, -, hitems⟩ | hb |
      ⟨c, -, -, rfl⟩
    · rw [(retain_plain hretain).2.2] at hitem
      obtain ⟨old, hold, rfl⟩ := List.mem_map.mp hitem
      obtain ⟨a, ha, hcall⟩ := hcalls block hblock old hold
      have hsome : ((page.durableTools turnId).get? a.callId).isSome :=
        Dict.get?_foldl_set_isSome (fun tool => tool) ha
      rw [hcall] at hsome
      obtain ⟨persisted, hget⟩ := Option.isSome_iff_exists.mp hsome
      obtain ⟨hmem, hpersisted⟩ := mem_toolsOf_of_get? hget
      obtain ⟨shown, hshown, hkey, hfound⟩ := htool persisted hmem
      have hitem : old.persist (page.durableTools turnId) = { old with
          outcome := persisted.outcome.toolOutcome
          summary := persisted.resultSummary
          durationMs := some persisted.durationMs
          errorCode := persisted.errorCode } := by
        rw [ToolItem.persist, hget]
      rw [hitem]
      exact ⟨shown, hshown, hkey, persisted.item, hfound, hpersisted, rfl, rfl, rfl, rfl⟩
    · obtain ⟨a, ha, rfl⟩ := hitems item hitem
      obtain ⟨shown, hshown, hkey, hfound⟩ := htool a ha
      exact ⟨shown, hshown, hkey, a.item, hfound, rfl, rfl, rfl, rfl, rfl⟩
    · rw [DurableTurn.errorBlocks] at hb
      split at hb
      · exact absurd hb List.not_mem_nil
      · exact absurd hb List.not_mem_nil
      · rw [List.mem_singleton.mp hb] at hitem
        exact absurd hitem List.not_mem_nil
    · exact absurd hitem List.not_mem_nil

/-- A page is hydrated as it should be exactly if each Turn that ended with something to show has
its answer on the page, and the change sets of Turns name no Operation. -/
theorem hydrate_thread_page_iff (h : page.WellFormed) :
    (∃ projection, hydrateThreadPage page = .ok projection ∧ Hydrated page projection.blocks) ↔
      page.Attached := by
  rw [hydrateThreadPage_eq_ok h]
  constructor
  · rintro ⟨projection, hprojection, hhydrated⟩
    cases hprojection
    exact (attached_iff h).mpr ((shows_iff h).mp hhydrated.shows)
  · intro hattached
    refine ⟨_, rfl, ?_, (shows_iff h).mpr ((attached_iff h).mp hattached), ?_, ?_,
      keys_nodup h, ?_⟩
    · refine ⟨page.sortedEntries, List.mergeSort_perm _ _, ?_, ?_⟩
      · have hsorted := @List.pairwise_mergeSort ThreadEntry
          (fun left right => decide (left.sequence ≤ right.sequence)) ?_ ?_ page.entries
        · exact hsorted.imp of_decide_eq_true
        · intro a b c hab hbc
          exact decide_eq_true ((of_decide_eq_true hab).trans (of_decide_eq_true hbc))
        · intro a b
          rw [Bool.or_eq_true, decide_eq_true_eq, decide_eq_true_eq]
          exact Nat.le_total _ _
      · have hnone : page.omitted.filter TranscriptBlock.isEntry = [] := by
          rw [List.filter_eq_nil_iff]
          intro b hb
          rw [omitted_not_entry page b hb]
          exact Bool.false_ne_true
        rw [List.filter_append, hnone, List.nil_append, segments_entries]
    · intro t ht e he hid
      exact answered_located h hattached ht he hid
    · intro e he operationId hoperation
      exact commanded_located h he hoperation
    · intro live turnId turn result hlive hok hresult
      exact reconciled_shown h hattached hlive hok hresult

end Page

section Sample

/-- A message of the user. -/
def pageMessage : ThreadEntry := ⟨"entry_1", 1, [], .userMessage "client_1"⟩

/-- A tool call of a Turn. -/
def pageTool : ToolActivity :=
  ⟨some "turn_1", "operation_1", "call_1", 1, "read_file", .completed, "Read a file", none, 5,
    "now"⟩

/-- A Turn with an answer, and a direct command. -/
def answeredPage : ThreadPage where
  thread := ⟨"thread_1", "A Thread"⟩
  entries := [pageMessage, ⟨"entry_2", 2, [], .assistantMessage []⟩,
    ⟨"entry_3", 3, [], .directCommand (some "operation_2")⟩]
  turns := [⟨"turn_1", .ended .completed, some "entry_2", none, none⟩]
  toolActivities := [pageTool,
    { pageTool with turnId := none, operationId := "operation_2", toolName := "execute" }]
  changeSets := [⟨"change_1", some "turn_1", none, "sealed", [.directory "src" "created"]⟩]
  hasMore := true

/-- A page with an answered Turn is hydrated. -/
theorem hydrate_thread_page_iff_sample :
    (∃ projection, hydrateThreadPage answeredPage = .ok projection ∧
      Hydrated answeredPage projection.blocks) ↔ answeredPage.Attached := by
  apply hydrate_thread_page_iff
  constructor <;> decide

/-- The same Turn as it is stored when the user cancels it. -/
def cancelledPage : ThreadPage where
  thread := ⟨"thread_1", "A Thread"⟩
  entries := [pageMessage]
  turns := [⟨"turn_1", .ended .cancelled, none, some "cancelled", none⟩]
  toolActivities := [pageTool]
  changeSets := []
  hasMore := false

/-- After a reload neither the error nor the tools of a cancelled Turn are shown, while its
reconciliation shows both. -/
theorem cancelled_turn_not_hydrated :
    hydrateThreadPage cancelledPage = .ok ⟨[pageMessage.block], "thread_1"⟩ ∧
      reconcileTerminalTurn ⟨[], some "operation_1", some "turn_1"⟩ cancelledPage =
        .ok ⟨"operation_1", "turn_1", [⟨"turn:turn_1:tools", .tools [pageTool.item]⟩,
          ⟨"turn:turn_1:error", .error "cancelled" "cancelled"⟩]⟩ ∧
      ∀ projection, hydrateThreadPage cancelledPage = .ok projection →
        ¬ Hydrated cancelledPage projection.blocks := by
  have hhydrated : hydrateThreadPage cancelledPage =
      .ok ⟨[pageMessage.block], "thread_1"⟩ := by decide +kernel
  refine ⟨hhydrated, by decide +kernel, ?_⟩
  intro projection hprojection h
  rw [hhydrated] at hprojection
  cases hprojection
  have hlength := h.shows.tools.length_eq
  revert hlength
  decide

end Sample

end AwesomeAgent.Surface
