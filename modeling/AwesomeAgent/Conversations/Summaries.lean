import AwesomeAgent.Conversations.Invariants
import Mathlib.Data.List.Sort

/-!
# Reading Threads, and the operations that leave summaries alone

A reader sees the entries of a Thread in the order of their numbers. The entries of a Thread
only grow at their end, and no request of a caller but the exchange of a summary changes one.
-/

namespace AwesomeAgent

variable {Json : Type}

namespace ConversationRows

/-- The entries of a Thread in the order of their numbers. -/
def entriesOf (r : ConversationRows Json) (threadId : String) : List (ThreadEntry Json) :=
  (r.threadEntries.rows.filter fun e => decide (e.threadId = threadId)).insertionSort
    fun e f => e.sequence ≤ f.sequence

/-- The number of the message of the user that a Turn answers. -/
def userSequence (r : ConversationRows Json) (turn : Turn Json) : Nat :=
  ((r.threadEntries.get? turn.userEntryId).map fun e => e.sequence).getD 0

/-- The Turns of a Thread in the order of their messages. -/
def turnsOf (r : ConversationRows Json) (threadId : String) : List (Turn Json) :=
  (r.turns.rows.filter fun t => decide (t.threadId = threadId)).insertionSort fun t u =>
    r.userSequence t < r.userSequence u ∨
      r.userSequence t = r.userSequence u ∧ t.id ≤ u.id

/-- The entries of a Thread are its rows. -/
theorem mem_entriesOf {r : ConversationRows Json} {threadId : String} {e : ThreadEntry Json} :
    e ∈ r.entriesOf threadId ↔ e ∈ r.threadEntries.rows ∧ e.threadId = threadId := by
  rw [entriesOf, (List.perm_insertionSort _ _).mem_iff, List.mem_filter, decide_eq_true_eq]

/-- The entries of a Thread have different identifiers. -/
theorem nodup_entriesOf (r : ConversationRows Json) (threadId : String) :
    ((r.entriesOf threadId).map fun e => e.id).Nodup := by
  refine (((List.perm_insertionSort _ _).map _).nodup_iff).mpr ?_
  exact List.Nodup.sublist (List.filter_sublist.map _) r.threadEntries.nodup

end ConversationRows

/-- What a reader sees of a Thread. -/
def ConversationDatabase.readThread (s : ConversationDatabase Json) (threadId : String) :
    Except ConversationError (ThreadView Json) :=
  match s.threads.get? threadId with
  | none => .error (.threadNotFound threadId)
  | some thread =>
      .ok ⟨thread, s.entriesOf threadId, s.turnsOf threadId, s.threadSummaries.get? threadId⟩

/-- A Thread that is read has its own rows and its own summary. -/
theorem ConversationDatabase.readThread_eq_ok {s : ConversationDatabase Json} {threadId : String}
    {view : ThreadView Json} (h : s.readThread threadId = .ok view) :
    view.thread.id = threadId ∧ view.entries = s.entriesOf threadId ∧
      view.turns = s.turnsOf threadId ∧ view.summary = s.threadSummaries.get? threadId := by
  unfold readThread at h
  split at h
  · cases h
  · next thread hthread =>
    cases h
    exact ⟨(s.threads.get?_eq_some_iff.mp hthread).2, rfl, rfl, rfl⟩

/-- A new entry of a Thread has a greater number than all earlier ones. -/
theorem ConversationRows.Extends.greater {s t : ConversationDatabase Json}
    (hs : s.Sequenced) (h : s.Extends t.toConversationRows) {e f : ThreadEntry Json}
    (he : e ∈ t.threadEntries.rows) (hnew : e ∉ s.threadEntries.rows)
    (hf : f ∈ s.threadEntries.rows) (hthread : f.threadId = e.threadId) :
    f.sequence < e.sequence := by
  by_contra hle
  have hnumbers := hs e.threadId
  have hmem : ∀ n, n ∈ s.sequences e.threadId ↔
      1 ≤ n ∧ n < 1 + (s.sequences e.threadId).length := fun n => by
    rw [hnumbers.mem_iff, List.mem_range'_1]
  have hfmem : f.sequence ∈ s.sequences e.threadId :=
    List.mem_map_of_mem (List.mem_filter.mpr ⟨hf, decide_eq_true hthread⟩)
  have hvalid := e.valid.2.2.1.1
  have hbound := (hmem f.sequence).mp hfmem
  have hemem : e.sequence ∈ s.sequences e.threadId := (hmem e.sequence).mpr (by omega)
  obtain ⟨g, hg, hsame⟩ := List.mem_map.mp hemem
  obtain ⟨hg, hgthread⟩ := List.mem_filter.mp hg
  have hgt := h.entries g hg
  have hid := t.constraints.entrySequence g hgt e he (of_decide_eq_true hgthread) hsame
  exact hnew (t.threadEntries.eq_of_key hgt he hid ▸ hg)

/-! ## Requests that leave summaries alone -/

/-- The summaries are a given table. -/
def ConversationDatabase.SummariesAre (table : Table String ThreadSummary fun s => s.threadId)
    (s : ConversationDatabase Json) : Prop := s.threadSummaries = table

open Transaction

/-- A transaction that leaves the summaries alone. -/
def KeepsSummaries {α : Type} (tx : ConversationTransaction Json α) : Prop :=
  ∀ table, Commits (ConversationDatabase.SummariesAre table) tx fun _ =>
    ConversationDatabase.SummariesAre table

namespace KeepsSummaries

variable {α β : Type} {tx : ConversationTransaction Json α}
  {next : α → ConversationTransaction Json β}

private theorem bind (h : KeepsSummaries tx) (hnext : ∀ a, KeepsSummaries (next a)) :
    KeepsSummaries (tx >>= next) := fun table => (h table).bind fun a => hnext a table

private theorem get : KeepsSummaries (get : ConversationTransaction Json _) := fun _ =>
  Commits.get.post fun _ _ h => h.2

private theorem require {c : Prop} [Decidable c] {e : ConversationError} :
    KeepsSummaries (Transaction.require c e : ConversationTransaction Json Unit) := fun _ =>
  Commits.require.post fun _ _ h => h.2

private theorem lift {x : Except ConversationError α} :
    KeepsSummaries (liftM x : ConversationTransaction Json α) := fun _ =>
  Commits.lift.post fun _ _ h => h.2

private theorem readThreadRow (threadId : String) :
    KeepsSummaries (readThreadRow threadId : ConversationTransaction Json _) := fun _ =>
  (readThreadRow_spec threadId).post fun _ _ h => h.2

private theorem readTurnRow (turnId : String) :
    KeepsSummaries (readTurnRow turnId : ConversationTransaction Json _) := fun _ =>
  (readTurnRow_spec turnId).post fun _ _ h => h.2

private theorem requireNextSequence (entry : ThreadEntry Json) :
    KeepsSummaries (requireNextSequence entry) := fun _ =>
  (requireNextSequence_spec entry).post fun _ _ h => h.2

private theorem createThreadRow (thread : Thread) :
    KeepsSummaries
      (SQLiteThreadRepository.create thread : ConversationTransaction Json _) := fun table =>
  Commits.each fun _ hs => (SQLiteThreadRepository.create_spec thread).post fun _ t ht => by
    have hsame := congrArg ConversationRows.threadSummaries ht.2
    exact hsame.trans hs

private theorem updateThreadRow (thread : Thread) :
    KeepsSummaries
      (SQLiteThreadRepository.update thread : ConversationTransaction Json _) := fun table =>
  Commits.each fun _ hs => (SQLiteThreadRepository.update_spec thread).post fun _ t ht => by
    obtain ⟨row, -, hrows⟩ := ht
    have hsame := congrArg ConversationRows.threadSummaries hrows
    exact hsame.trans hs

private theorem append (entry : ThreadEntry Json) :
    KeepsSummaries (SQLiteThreadEntryRepository.append entry) := fun table =>
  Commits.each fun _ hs => (SQLiteThreadEntryRepository.append_spec entry).post fun _ t ht => by
    have hsame := congrArg ConversationRows.threadSummaries ht.2
    exact hsame.trans hs

private theorem createTurnRow (turn : Turn Json) :
    KeepsSummaries (SQLiteTurnRepository.create turn) := fun table =>
  Commits.each fun _ hs => (SQLiteTurnRepository.create_spec turn).post fun _ t ht => by
    have hsame := congrArg ConversationRows.threadSummaries ht.2
    exact hsame.trans hs

private theorem updateTurnRow (turn : Turn Json) :
    KeepsSummaries (SQLiteTurnRepository.update turn) := fun table =>
  Commits.each fun _ hs => (SQLiteTurnRepository.update_spec turn).post fun _ t ht => by
    obtain ⟨row, -, hrows⟩ := ht
    have hsame := congrArg ConversationRows.threadSummaries hrows
    exact hsame.trans hs

private theorem patchThread (threadId : String) (update : ThreadUpdate) :
    KeepsSummaries (patchThread threadId update : ConversationTransaction Json _) :=
  (readThreadRow threadId).bind fun _ => lift.bind fun updated => updateThreadRow updated

private theorem touchThread (threadId : String) (updatedAt : Int) :
    KeepsSummaries (touchThread threadId updatedAt : ConversationTransaction Json _) :=
  (readThreadRow threadId).bind fun _ => lift.bind fun updated => updateThreadRow updated

private theorem beginTurn (userEntry : ThreadEntry Json) (turn : Turn Json)
    (automaticTitle : Option String) (updatedAt : Int) :
    KeepsSummaries (beginTurn userEntry turn automaticTitle updatedAt) :=
  (readThreadRow _).bind fun _ => get.bind fun _ => require.bind fun _ =>
    (requireNextSequence userEntry).bind fun _ => (append userEntry).bind fun _ =>
      (createTurnRow turn).bind fun _ => lift.bind fun updated => updateThreadRow updated

private theorem completeTurn [BEq Json] (assistantEntry : ThreadEntry Json) (turn : Turn Json) :
    KeepsSummaries (completeTurn assistantEntry turn) :=
  (readTurnRow _).bind fun _ => lift.bind fun _ => require.bind fun _ => require.bind fun _ =>
    (requireNextSequence assistantEntry).bind fun _ => (append assistantEntry).bind fun _ =>
      (updateTurnRow turn).bind fun _ => touchThread _ _

private theorem updateInProgressTurn [BEq Json] (turn : Turn Json) (expected : List Json) :
    KeepsSummaries (updateInProgressTurn turn expected) :=
  (readTurnRow _).bind fun _ => require.bind fun _ => updateTurnRow turn

private theorem updateTerminalTurn [BEq Json] (turn : Turn Json) :
    KeepsSummaries (updateTerminalTurn turn) :=
  (readTurnRow _).bind fun _ => lift.bind fun _ => require.bind fun _ =>
    (updateTurnRow turn).bind fun _ => touchThread _ _

private theorem appendDirectCommand (entry : ThreadEntry Json) :
    KeepsSummaries (appendDirectCommand entry) :=
  (readThreadRow _).bind fun _ => (requireNextSequence entry).bind fun _ =>
    (append entry).bind fun _ => lift.bind fun updated => updateThreadRow updated

end KeepsSummaries

/-- Whether an operation exchanges a summary. -/
def StoreOperation.writesSummary : StoreOperation Json → Bool
  | .compareAndSwapSummary .. => true
  | _ => false

private theorem StoreOperation.keepsSummaries [BEq Json] {operation : StoreOperation Json}
    (h : operation.writesSummary = false) : KeepsSummaries operation.transaction := by
  cases operation with
  | createThread thread => exact .createThreadRow thread
  | renameThread threadId title updatedAt => exact .patchThread _ _
  | setThreadModel threadId model updatedAt => exact .patchThread _ _
  | setThreadThinking threadId enabled updatedAt => exact .patchThread _ _
  | setThreadSkillMode threadId skillMode updatedAt => exact .patchThread _ _
  | beginTurn userEntry turn automaticTitle updatedAt => exact .beginTurn _ _ _ _
  | completeTurn assistantEntry turn => exact .completeTurn _ _
  | updateInProgressTurn turn expected => exact .updateInProgressTurn _ _
  | updateTerminalTurn turn => exact .updateTerminalTurn _
  | appendDirectCommand entry => exact .appendDirectCommand _
  | compareAndSwapSummary summary expected => cases h

/-- Decisions that never ask for the exchange of a summary. -/
def SparesSummaries (x : Except ConversationError (Requested Json)) : Prop :=
  ∀ operation, x = .ok (some operation) → operation.writesSummary = false

namespace SparesSummaries

private theorem error (e : ConversationError) :
    SparesSummaries (.error e : Except ConversationError (Requested Json)) :=
  fun _ h => absurd (congrArg Except.toOption h) (Option.some_ne_none _).symm

private theorem nothing : SparesSummaries (.ok none : Except ConversationError (Requested Json)) :=
  fun _ h => absurd (Except.ok.inj h).symm (Option.some_ne_none _)

private theorem ask {operation : StoreOperation Json} (h : operation.writesSummary = false) :
    SparesSummaries (.ok (some operation)) := by
  intro other he
  cases he
  exact h

private theorem bind {α : Type} {x : Except ConversationError α}
    {next : α → Except ConversationError (Requested Json)} (h : ∀ a, SparesSummaries (next a)) :
    SparesSummaries (x >>= next) := by
  cases x with
  | error e => exact error e
  | ok a => exact h a

end SparesSummaries

/-- No call of the service asks for the exchange of a summary. -/
theorem ServiceCall.decide_spares [BEq Json] (call : ServiceCall Json) (view : ThreadView Json) :
    SparesSummaries (call.decide view) := by
  cases call with
  | beginTurn entryId turnId content config metadata clientMessageId title now =>
    change SparesSummaries (ConversationService.beginTurn _ _ _ _ _ _ _ _ _)
    unfold ConversationService.beginTurn
    split
    · exact .error _
    · exact .bind fun _ => .bind fun _ => .ask rfl
  | completeTurn turnId entryId content metadata reason f =>
    change SparesSummaries (ConversationService.completeTurn _ _ _ _ _ _ _)
    unfold ConversationService.completeTurn
    refine .bind fun current => ?_
    split
    · split
      · split
        · exact .nothing
        · exact .error _
      · exact .error _
    · exact .bind fun _ => .bind fun _ => .bind fun _ => .ask rfl
  | failTurn turnId code f =>
    change SparesSummaries (ConversationService.failTurn _ _ _ _)
    unfold ConversationService.failTurn
    split
    · exact .error _
    · refine .bind fun current => ?_
      split
      · split
        · exact .nothing
        · exact .error _
      · exact .bind fun _ => .bind fun _ => .ask rfl
  | cancelTurn turnId f =>
    change SparesSummaries (ConversationService.cancelTurn _ _ _)
    unfold ConversationService.cancelTurn
    refine .bind fun current => ?_
    split
    · split
      · exact .nothing
      · exact .error _
    · exact .bind fun _ => .bind fun _ => .ask rfl
  | storeContextManifest turnId manifest now =>
    change SparesSummaries (ConversationService.storeContextManifest _ _ _ _)
    unfold ConversationService.storeContextManifest
    refine .bind fun current => ?_
    split
    · exact .error _
    · split
      · exact .nothing
      · exact .ask rfl
  | compareAndSwapContextManifest turnId manifest expected now =>
    change SparesSummaries (ConversationService.compareAndSwapContextManifest _ _ _ _ _)
    unfold ConversationService.compareAndSwapContextManifest
    refine .bind fun current => ?_
    split
    · exact .error _
    · split
      · exact .error _
      · split
        · exact .nothing
        · exact .ask rfl
  | appendDirectCommand entryId content metadata now =>
    exact .bind fun _ => .ask rfl

/-- Whether a caller asks the store itself to exchange a summary. -/
def ConversationAction.writesSummary : ConversationAction Json → Bool
  | .store operation => operation.writesSummary
  | .service .. => false

/-- Requests that do not exchange a summary leave all summaries alone. -/
theorem ConversationAction.perform_summaries [BEq Json] (s : ConversationDatabase Json)
    {action : ConversationAction Json} (h : action.writesSummary = false) :
    (action.perform s).2.threadSummaries = s.threadSummaries := by
  have hstore : ∀ {operation : StoreOperation Json}, operation.writesSummary = false →
      (operation.transaction.execute s).2.threadSummaries = s.threadSummaries := by
    intro operation hoperation
    obtain hsame | ⟨_, hq⟩ := ((StoreOperation.keepsSummaries hoperation)
      s.threadSummaries).execute rfl
    · rw [hsame]
    · exact hq
  cases action with
  | store operation => exact hstore h
  | service call view =>
    unfold perform
    dsimp only
    split
    · rfl
    · rfl
    · next operation hdecide => exact hstore (call.decide_spares view operation hdecide)

end AwesomeAgent
