import AwesomeAgent.Conversations.Store
import Mathlib.Data.List.Perm.Basic
import Mathlib.Order.Lattice
import Mathlib.Data.Int.Order.Basic

/-!
# What the write operations of the store preserve

Entry numbers have no gap, ended Turns and entries stay as they are, and the time of
update of a Thread does not go back. One lemma for each statement says what it keeps,
and each operation is a chain of statements.
-/

namespace AwesomeAgent

variable {Json : Type} {d r : ConversationRows Json} {threadId : String}

namespace ConversationRows

/-- The entries of every Thread are numbered from one without a gap. -/
def Sequenced (r : ConversationRows Json) : Prop :=
  ∀ threadId, (r.sequences threadId).Perm (List.range' 1 (r.sequences threadId).length)

/-- Nothing that is settled in `d` is different in `r`. -/
structure Extends (d r : ConversationRows Json) : Prop where
  entries : ∀ e ∈ d.threadEntries.rows, e ∈ r.threadEntries.rows
  turns : ∀ t ∈ d.turns.rows, t.status ≠ .inProgress → t ∈ r.turns.rows
  threads : ∀ t ∈ d.threads.rows, ∃ u ∈ r.threads.rows, u.id = t.id ∧ t.updatedAt ≤ u.updatedAt

/-- The store extends itself. -/
theorem Extends.refl (r : ConversationRows Json) : r.Extends r :=
  ⟨fun _ h => h, fun _ h _ => h, fun t h => ⟨t, h, rfl, le_rfl⟩⟩

/-- What holds between the operations of a run that started in `d`. -/
structure Lawful (d r : ConversationRows Json) : Prop where
  sequenced : r.Sequenced
  kept : d.Extends r

end ConversationRows

namespace ConversationRows

private theorem max?_of_perm_range' {l : List Nat} (h : l.Perm (List.range' 1 l.length)) :
    l.max?.getD 0 = l.length := by
  cases hl : l with
  | nil => rfl
  | cons a rest =>
    have hmem : l.length ∈ l := by
      rw [h.mem_iff, List.mem_range'_1]
      rw [hl, List.length_cons]
      omega
    have hmax : l.max? = some l.length := by
      rw [List.max?_eq_some_iff]
      refine ⟨hmem, fun b hb => ?_⟩
      rw [h.mem_iff, List.mem_range'_1] at hb
      omega
    rw [← hl, hmax, Option.getD_some]

private theorem Sequenced.next (h : r.Sequenced) (threadId : String) :
    (r.sequences threadId).max?.getD 0 + 1 = (r.sequences threadId).length + 1 := by
  rw [max?_of_perm_range' (h threadId)]

private theorem sequences_put {entry : ThreadEntry Json}
    (hid : r.threadEntries.get? entry.id = none)
    (threadId : String) :
    ({ r with threadEntries := r.threadEntries.put entry } : ConversationRows Json).sequences
        threadId =
      r.sequences threadId ++ if entry.threadId = threadId then [entry.sequence] else [] := by
  unfold sequences
  rw [r.threadEntries.rows_put_of_get?_eq_none hid, List.filter_append, List.map_append]
  by_cases ht : entry.threadId = threadId <;> simp [ht]

private theorem Lawful.append (h : d.Lawful r) {entry : ThreadEntry Json}
    (hid : r.threadEntries.get? entry.id = none)
    (hnext : entry.sequence = (r.sequences entry.threadId).max?.getD 0 + 1) :
    d.Lawful { r with threadEntries := r.threadEntries.put entry } := by
  constructor
  · intro threadId
    have hold := h.sequenced threadId
    rw [sequences_put hid]
    split
    · next ht =>
      subst ht
      rw [h.sequenced.next] at hnext
      rw [List.length_append, List.length_singleton, List.range'_concat, hnext, Nat.one_mul,
        Nat.add_comm 1]
      exact hold.append_right _
    · rw [List.append_nil]
      exact hold
  · refine ⟨fun e he => ?_, h.kept.turns, h.kept.threads⟩
    rw [r.threadEntries.rows_put_of_get?_eq_none hid]
    exact List.mem_append_left _ (h.kept.entries e he)

private theorem Lawful.putTurn (h : d.Lawful r) {turn : Turn Json}
    (hold : ∀ t ∈ r.turns.rows, t.id = turn.id → t.status = .inProgress) :
    d.Lawful { r with turns := r.turns.put turn } := by
  refine ⟨h.sequenced, ⟨h.kept.entries, fun t ht hended => ?_, h.kept.threads⟩⟩
  have hmem := h.kept.turns t ht hended
  exact r.turns.mem_put.2 (Or.inr ⟨hmem, fun hid => hended (hold t hmem hid)⟩)

private theorem Lawful.putThread (h : d.Lawful r) {thread : Thread}
    (hold : ∀ t ∈ r.threads.rows, t.id = thread.id → t.updatedAt ≤ thread.updatedAt) :
    d.Lawful { r with threads := r.threads.put thread } := by
  refine ⟨h.sequenced, ⟨h.kept.entries, h.kept.turns, fun t ht => ?_⟩⟩
  obtain ⟨u, hu, hid, hle⟩ := h.kept.threads t ht
  by_cases hkey : u.id = thread.id
  · exact ⟨thread, r.threads.mem_put.2 (Or.inl rfl), hkey ▸ hid, hle.trans (hold u hu hkey)⟩
  · exact ⟨u, r.threads.mem_put.2 (Or.inr ⟨hu, hkey⟩), hid, hle⟩

private theorem Lawful.putSummary (h : d.Lawful r) (summary : ThreadSummary) :
    d.Lawful { r with threadSummaries := r.threadSummaries.put summary } :=
  ⟨h.sequenced, ⟨h.kept.entries, h.kept.turns, h.kept.threads⟩⟩

end ConversationRows

open Transaction

variable {s : ConversationDatabase Json} {P : ConversationDatabase Json → Prop}
  {entry : ThreadEntry Json} {turn : Turn Json}

/-- Rows that are written are the rows afterwards. -/
theorem writeRows_spec {rows : ConversationRows Json} {handler : ConversationTransaction Json Unit}
    (h : Commits P handler fun _ _ => False) :
    Commits P (writeRows rows handler) fun _ t => t.toConversationRows = rows := by
  unfold writeRows
  split
  · exact Commits.set rfl
  · exact h.post fun _ _ => False.elim

/-- A new Thread is written when its identifier is free. -/
theorem SQLiteThreadRepository.create_spec (thread : Thread) :
    Commits (fun t => t = s) (create thread) fun _ t =>
      s.threads.get? thread.id = none ∧
        t.toConversationRows = { s.toConversationRows with threads := s.threads.put thread } := by
  unfold create
  refine Commits.get.bind fun u => Commits.each ?_
  rintro _ ⟨rfl, rfl⟩
  dsimp only
  split
  · exact Commits.throw _
  · next hnone =>
    refine (writeRows_spec (Commits.throw _)).post fun _ t ht => ⟨?_, ht⟩
    simpa using hnone

/-- A known Thread is written with what must not change. -/
theorem SQLiteThreadRepository.update_spec (thread : Thread) :
    Commits (fun t => t = s) (update thread) fun _ t =>
      ∃ row, s.threads.get? thread.id = some row ∧
        t.toConversationRows =
          { s.toConversationRows with threads := s.threads.put (row.stored thread) } := by
  unfold update
  refine Commits.get.bind fun u => Commits.each ?_
  rintro _ ⟨rfl, rfl⟩
  split
  · exact Commits.throw _
  · next row hrow => exact (writeRows_spec (Commits.throw _)).post fun _ t ht => ⟨row, hrow, ht⟩

/-- A new entry is written when its identifier is free. -/
theorem SQLiteThreadEntryRepository.append_spec (entry : ThreadEntry Json) :
    Commits (fun t => t = s) (append entry) fun _ t =>
      s.threadEntries.get? entry.id = none ∧
        t.toConversationRows =
          { s.toConversationRows with threadEntries := s.threadEntries.put entry } := by
  unfold append
  refine Commits.get.bind fun u => Commits.each ?_
  rintro _ ⟨rfl, rfl⟩
  dsimp only
  split
  · exact Commits.throw _
  · next hnone =>
    refine (writeRows_spec (Commits.throw _)).post fun _ t ht => ⟨?_, ht⟩
    simpa using hnone

/-- A new Turn is written when its identifier is free. -/
theorem SQLiteTurnRepository.create_spec (turn : Turn Json) :
    Commits (fun t => t = s) (create turn) fun _ t =>
      s.turns.get? turn.id = none ∧
        t.toConversationRows = { s.toConversationRows with turns := s.turns.put turn } := by
  unfold create
  refine Commits.get.bind fun u => Commits.each ?_
  rintro _ ⟨rfl, rfl⟩
  have hconflict : Commits (fun v => v = u)
      (if (u.inProgress turn.threadId).isSome then throw (.turnBusy turn.threadId)
        else throw (.conversationConflict "Turn conflicts with stored state.") :
        ConversationTransaction Json Unit) fun _ _ => False := by
    split <;> exact Commits.throw _
  dsimp only
  split
  · exact hconflict.post fun _ _ => False.elim
  · next hnone =>
    refine (writeRows_spec hconflict).post fun _ v hv => ⟨?_, hv⟩
    simpa using hnone

/-- A known Turn is written with what must not change. -/
theorem SQLiteTurnRepository.update_spec (turn : Turn Json) :
    Commits (fun t => t = s) (update turn) fun _ t =>
      ∃ row, s.turns.get? turn.id = some row ∧
        t.toConversationRows =
          { s.toConversationRows with turns := s.turns.put (row.stored turn) } := by
  unfold update
  refine Commits.get.bind fun u => Commits.each ?_
  rintro _ ⟨rfl, rfl⟩
  split
  · exact Commits.throw _
  · next row hrow => exact (writeRows_spec (Commits.throw _)).post fun _ t ht => ⟨row, hrow, ht⟩

/-- A Thread that is read is stored. -/
theorem readThreadRow_spec (threadId : String) :
    Commits P (readThreadRow threadId) fun thread t =>
      t.threads.get? threadId = some thread ∧ P t := by
  unfold readThreadRow
  refine Commits.get.bind fun u => Commits.each ?_
  rintro _ ⟨rfl, hP⟩
  split
  · exact Commits.throw _
  · next thread h => exact Commits.pure fun _ ht => ht ▸ ⟨h, hP⟩

/-- A Turn that is read is stored. -/
theorem readTurnRow_spec (turnId : String) :
    Commits P (readTurnRow turnId) fun turn t => t.turns.get? turnId = some turn ∧ P t := by
  unfold readTurnRow
  refine Commits.get.bind fun u => Commits.each ?_
  rintro _ ⟨rfl, hP⟩
  split
  · exact Commits.throw _
  · next turn h => exact Commits.pure fun _ ht => ht ▸ ⟨h, hP⟩

/-- An entry that is accepted has the next sequence number of its Thread. -/
theorem requireNextSequence_spec (entry : ThreadEntry Json) :
    Commits P (requireNextSequence entry) fun _ t =>
      entry.sequence = (t.sequences entry.threadId).max?.getD 0 + 1 ∧ P t := by
  unfold requireNextSequence
  refine Commits.get.bind fun u => Commits.each ?_
  rintro _ ⟨rfl, hP⟩
  exact Commits.require.bind fun _ => Commits.pure fun _ ht => ht.2 ▸ ⟨ht.1, hP⟩

namespace ConversationRows.Lawful

private theorem updateThread (h : d.Lawful s.toConversationRows) {thread row : Thread}
    (hrow : s.threads.get? thread.id = some row) (hle : row.updatedAt ≤ thread.updatedAt) :
    Commits (fun t => t = s) (SQLiteThreadRepository.update thread) fun _ t =>
      d.Lawful t.toConversationRows := by
  refine (SQLiteThreadRepository.update_spec thread).post fun _ t ht => ?_
  obtain ⟨stored, hstored, hrows⟩ := ht
  rw [hrows]
  refine h.putThread fun u hu hid => ?_
  have huser : s.threads.get? thread.id = some u := s.threads.get?_eq_some_iff.mpr ⟨hu, hid⟩
  rw [hrow] at huser
  cases huser
  exact hle

private theorem updateTurn (h : d.Lawful s.toConversationRows) {current : Turn Json}
    (hcurrent : s.turns.get? turn.id = some current) (hstatus : current.status = .inProgress) :
    Commits (fun t => t = s) (SQLiteTurnRepository.update turn) fun _ t =>
      d.Lawful t.toConversationRows := by
  refine (SQLiteTurnRepository.update_spec turn).post fun _ t ht => ?_
  obtain ⟨row, hrow, hrows⟩ := ht
  rw [hrows]
  refine h.putTurn fun u hu hid => ?_
  rw [hcurrent] at hrow
  cases hrow
  have hid' : u.id = turn.id := hid.trans (s.turns.get?_eq_some_iff.mp hcurrent).2
  have huser : s.turns.get? turn.id = some u := s.turns.get?_eq_some_iff.mpr ⟨hu, hid'⟩
  rw [hcurrent] at huser
  cases huser
  exact hstatus

end ConversationRows.Lawful

private theorem monotonicThreadUpdate_ok {current thread : Thread} {update : ThreadUpdate}
    (h : monotonicThreadUpdate current update = .ok thread) :
    thread.id = current.id ∧ current.updatedAt ≤ thread.updatedAt := by
  unfold monotonicThreadUpdate at h
  dsimp only at h
  split at h
  · cases h
    exact ⟨rfl, le_max_left _ _⟩
  · cases h

private theorem updateMonotonic_spec {thread : Thread} (update : ThreadUpdate) :
    Commits (fun t => d.Lawful t.toConversationRows ∧ t.threads.get? threadId = some thread)
      (do
        let updated ← (monotonicThreadUpdate thread update : Except ConversationError Thread)
        SQLiteThreadRepository.update updated : ConversationTransaction Json Unit)
      fun _ t => d.Lawful t.toConversationRows := by
  refine Commits.lift.bind fun updated => Commits.each ?_
  rintro t ⟨hupdated, hlawful, hthread⟩
  obtain ⟨hid, hle⟩ := monotonicThreadUpdate_ok hupdated
  have hkey : thread.id = threadId := (t.threads.get?_eq_some_iff.mp hthread).2
  refine hlawful.updateThread ?_ hle
  rw [hid, hkey]
  exact hthread

private theorem touchThread_spec (threadId : String) (updatedAt : Int) :
    Commits (fun t => d.Lawful t.toConversationRows) (touchThread threadId updatedAt) fun _ t =>
      d.Lawful t.toConversationRows :=
  (readThreadRow_spec threadId).bind fun _ =>
    (updateMonotonic_spec _).pre fun _ ht => ⟨ht.2, ht.1⟩

private theorem patchThread_spec (threadId : String) (update : ThreadUpdate) :
    Commits (fun t => d.Lawful t.toConversationRows) (patchThread threadId update) fun _ t =>
      d.Lawful t.toConversationRows :=
  (readThreadRow_spec threadId).bind fun _ =>
    (updateMonotonic_spec _).pre fun _ ht => ⟨ht.2, ht.1⟩

private theorem appendNext_spec {F : Table String Thread (fun t => t.id) →
      Table String (Turn Json) (fun t => t.id) → Prop} (entry : ThreadEntry Json) :
    Commits
      (fun t => entry.sequence = (t.sequences entry.threadId).max?.getD 0 + 1 ∧
        d.Lawful t.toConversationRows ∧ F t.threads t.turns)
      (SQLiteThreadEntryRepository.append entry)
      fun _ t => d.Lawful t.toConversationRows ∧ F t.threads t.turns := by
  refine Commits.each fun t ht => ?_
  obtain ⟨hnext, hlawful, hF⟩ := ht
  refine (SQLiteThreadEntryRepository.append_spec entry).post fun _ u hu => ?_
  obtain ⟨hid, hrows⟩ := hu
  refine ⟨hrows ▸ hlawful.append hid hnext, ?_⟩
  rw [hrows]
  exact hF

private theorem openTurn_spec {F : Table String Thread (fun t => t.id) → Prop} (turn : Turn Json) :
    Commits (fun t => d.Lawful t.toConversationRows ∧ F t.threads)
      (SQLiteTurnRepository.create turn)
      fun _ t => d.Lawful t.toConversationRows ∧ F t.threads := by
  refine Commits.each fun t ht => ?_
  obtain ⟨hlawful, hF⟩ := ht
  refine (SQLiteTurnRepository.create_spec turn).post fun _ u hu => ?_
  obtain ⟨hnone, hrows⟩ := hu
  rw [hrows]
  refine ⟨hlawful.putTurn fun v hv hid => ?_, hF⟩
  have hsome := t.turns.get?_eq_some_iff.mpr ⟨hv, hid⟩
  rw [hnone] at hsome
  cases hsome

private theorem requireTurnTransition_ok {current target : TurnStatus}
    (h : requireTurnTransition current target = .ok ()) : current = .inProgress := by
  unfold requireTurnTransition at h
  split at h
  · cases h
  · next hnot => exact not_not.mp fun hne => hnot (Or.inl hne)

private theorem beginTurn_spec (userEntry : ThreadEntry Json) (turn : Turn Json)
    (automaticTitle : Option String) (updatedAt : Int) :
    Commits (fun t => d.Lawful t.toConversationRows)
      (beginTurn userEntry turn automaticTitle updatedAt)
      fun _ t => d.Lawful t.toConversationRows := by
  unfold beginTurn
  refine (readThreadRow_spec _).bind fun thread => Commits.get.bind fun _ =>
    Commits.require.bind fun _ => (requireNextSequence_spec _).bind fun _ => ?_
  refine ((appendNext_spec (F := fun threads _ => threads.get? turn.threadId = some thread)
    userEntry).pre fun _ ht => ?_).bind fun _ =>
      (openTurn_spec (F := fun threads => threads.get? turn.threadId = some thread) turn).bind
        fun _ => updateMonotonic_spec _
  obtain ⟨hnext, -, -, hthread, hlawful⟩ := ht
  exact ⟨hnext, hlawful, hthread⟩

private theorem appendDirectCommand_spec (entry : ThreadEntry Json) :
    Commits (fun t => d.Lawful t.toConversationRows) (appendDirectCommand entry)
      fun _ t => d.Lawful t.toConversationRows := by
  unfold appendDirectCommand
  refine (readThreadRow_spec _).bind fun thread => (requireNextSequence_spec _).bind fun _ => ?_
  refine ((appendNext_spec (F := fun threads _ => threads.get? entry.threadId = some thread)
    entry).pre fun _ ht => ?_).bind fun _ => updateMonotonic_spec _
  obtain ⟨hnext, hthread, hlawful⟩ := ht
  exact ⟨hnext, hlawful, hthread⟩

private theorem advanceTurn_spec {current : Turn Json} (hstatus : current.status = .inProgress)
    (turn : Turn Json) :
    Commits (fun t => d.Lawful t.toConversationRows ∧ t.turns.get? turn.id = some current)
      (SQLiteTurnRepository.update turn) fun _ t => d.Lawful t.toConversationRows :=
  Commits.each fun _ ht => ht.1.updateTurn ht.2 hstatus

private theorem completeTurn_spec [BEq Json] (assistantEntry : ThreadEntry Json) (turn : Turn Json)
    :
    Commits (fun t => d.Lawful t.toConversationRows) (completeTurn assistantEntry turn)
      fun _ t => d.Lawful t.toConversationRows := by
  unfold completeTurn
  refine (readTurnRow_spec _).bind fun current => Commits.lift.bind fun _ => Commits.each ?_
  rintro t ⟨htransition, hcurrent, hlawful⟩
  refine Commits.require.bind fun _ => Commits.require.bind fun _ =>
    (requireNextSequence_spec _).bind fun _ => ?_
  refine ((appendNext_spec (F := fun _ turns => turns.get? turn.id = some current)
    assistantEntry).pre fun _ hu => ?_).bind fun _ =>
      (advanceTurn_spec (requireTurnTransition_ok htransition) turn).bind fun _ =>
        touchThread_spec _ _
  obtain ⟨hnext, -, -, rfl⟩ := hu
  exact ⟨hnext, hlawful, hcurrent⟩

private theorem updateTerminalTurn_spec [BEq Json] (turn : Turn Json) :
    Commits (fun t => d.Lawful t.toConversationRows) (updateTerminalTurn turn)
      fun _ t => d.Lawful t.toConversationRows := by
  unfold updateTerminalTurn
  refine (readTurnRow_spec _).bind fun current => Commits.lift.bind fun _ => Commits.each ?_
  rintro t ⟨htransition, hcurrent, hlawful⟩
  refine Commits.require.bind fun _ =>
    ((advanceTurn_spec (requireTurnTransition_ok htransition) turn).pre fun _ hu => ?_).bind
      fun _ => touchThread_spec _ _
  obtain ⟨-, rfl⟩ := hu
  exact ⟨hlawful, hcurrent⟩

private theorem updateInProgressTurn_spec [BEq Json] (turn : Turn Json)
    (expectedContextManifest : List Json) :
    Commits (fun t => d.Lawful t.toConversationRows)
      (updateInProgressTurn turn expectedContextManifest)
      fun _ t => d.Lawful t.toConversationRows := by
  unfold updateInProgressTurn
  refine (readTurnRow_spec _).bind fun current => Commits.require.bind fun _ => Commits.each ?_
  rintro t ⟨⟨hstatus, -⟩, hcurrent, hlawful⟩
  exact hlawful.updateTurn hcurrent hstatus

private theorem compareAndSwap_spec (summary : ThreadSummary) (expected : Option ThreadSummary) :
    Commits (fun t => d.Lawful t.toConversationRows)
      (SQLiteThreadSummaryRepository.compareAndSwap summary expected :
        ConversationTransaction Json Unit)
      fun _ t => d.Lawful t.toConversationRows := by
  unfold SQLiteThreadSummaryRepository.compareAndSwap SQLiteThreadSummaryRepository.upsert
  refine Commits.get.bind fun u => ?_
  split
  · exact Commits.throw _
  · refine Commits.get.bind fun v => Commits.each ?_
    rintro _ ⟨rfl, -, hlawful⟩
    refine (writeRows_spec (Commits.throw _)).post fun _ t ht => ?_
    rw [ht]
    exact hlawful.putSummary summary

private theorem createThread_spec (thread : Thread) :
    Commits (fun t => d.Lawful t.toConversationRows)
      (SQLiteThreadRepository.create thread : ConversationTransaction Json Unit)
      fun _ t => d.Lawful t.toConversationRows := by
  refine Commits.each fun t hlawful => (SQLiteThreadRepository.create_spec thread).post ?_
  rintro _ u ⟨hnone, hrows⟩
  rw [hrows]
  refine hlawful.putThread fun v hv hid => ?_
  have hsome := t.threads.get?_eq_some_iff.mpr ⟨hv, hid⟩
  rw [hnone] at hsome
  cases hsome

/-- Every operation of the store keeps what settled states promise. -/
theorem StoreOperation.transaction_spec [BEq Json] (operation : StoreOperation Json) :
    Commits (fun t => d.Lawful t.toConversationRows) operation.transaction
      fun _ t => d.Lawful t.toConversationRows := by
  cases operation with
  | createThread thread => exact createThread_spec thread
  | renameThread threadId title updatedAt => exact patchThread_spec _ _
  | setThreadModel threadId model updatedAt => exact patchThread_spec _ _
  | setThreadThinking threadId enabled updatedAt => exact patchThread_spec _ _
  | setThreadSkillMode threadId skillMode updatedAt => exact patchThread_spec _ _
  | beginTurn userEntry turn automaticTitle updatedAt => exact beginTurn_spec _ _ _ _
  | completeTurn assistantEntry turn => exact completeTurn_spec _ _
  | updateInProgressTurn turn expected => exact updateInProgressTurn_spec _ _
  | updateTerminalTurn turn => exact updateTerminalTurn_spec _
  | appendDirectCommand entry => exact appendDirectCommand_spec _
  | compareAndSwapSummary summary expected => exact compareAndSwap_spec _ _

end AwesomeAgent
