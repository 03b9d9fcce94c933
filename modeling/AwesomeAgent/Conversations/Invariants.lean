import AwesomeAgent.Conversations.Service
import AwesomeAgent.Conversations.StoreInvariants
import AwesomeAgent.Library.Runs

/-!
# The conversation store over all runs

Callers read views and ask the store for writes in any order. The store executes one
request at a time, whatever the views and the expected values of its caller are.
-/

namespace AwesomeAgent

variable {Json : Type}

/-- A request of a caller: of the store itself, or of the service on a view that may be stale. -/
inductive ConversationAction (Json : Type)
  | store (operation : StoreOperation Json)
  | service (call : ServiceCall Json) (view : ThreadView Json)

/-- The answer to a request and the database after it. -/
def ConversationAction.perform [BEq Json] (s : ConversationDatabase Json) :
    ConversationAction Json → Except ConversationError Unit × ConversationDatabase Json
  | .store operation => operation.transaction.execute s
  | .service call view =>
      match call.decide view with
      | .error e => (.error e, s)
      | .ok none => (.ok (), s)
      | .ok (some operation) => operation.transaction.execute s

/-- A request as a step; a rejected one is a step too. -/
def ConversationDatabase.step [BEq Json] (s : ConversationDatabase Json)
    (action : ConversationAction Json) : Option (ConversationDatabase Json) :=
  some (action.perform s).2

namespace ConversationDatabase

/-- The entries of every Thread are numbered `1..n`, and at most one Turn of it is in progress. -/
structure Consistent (s : ConversationDatabase Json) : Prop where
  sequences : ∀ threadId,
    (s.sequences threadId).Perm (List.range' 1 (s.sequences threadId).length)
  oneInProgress : ∀ t ∈ s.turns.rows, ∀ u ∈ s.turns.rows, t.threadId = u.threadId →
    t.status = .inProgress → u.status = .inProgress → t = u

/-- The answer of a Turn. -/
def answer (s : ConversationDatabase Json) (turn : Turn Json) :
    Option (Option (ThreadEntry Json)) :=
  turn.assistantEntryId.map s.threadEntries.get?

/-- An ended Turn keeps status, answer and manifest, and no time of update goes back. -/
structure Evolves (s t : ConversationDatabase Json) : Prop where
  ended : ∀ turn ∈ s.turns.rows, turn.status ≠ .inProgress → ∃ u, t.turns.get? turn.id = some u ∧
    u.status = turn.status ∧ t.answer u = s.answer turn ∧
    u.contextManifest = turn.contextManifest
  updatedAt : ∀ thread ∈ s.threads.rows, ∃ u, t.threads.get? thread.id = some u ∧
    thread.updatedAt ≤ u.updatedAt

variable {d s t : ConversationDatabase Json}

/-- A store is consistent when its entries are in sequence. -/
theorem consistent_iff : s.Consistent ↔ s.Sequenced := by
  refine ⟨Consistent.sequences, fun h => ⟨h, fun t ht u hu hthread hst hsu => ?_⟩⟩
  exact s.turns.eq_of_key ht hu (s.constraints.oneInProgress t ht u hu hthread hst hsu)

private theorem answer_eq (h : s.Extends t.toConversationRows) {turn : Turn Json}
    (hturn : turn ∈ s.turns.rows) : t.answer turn = s.answer turn := by
  unfold answer
  cases hentry : turn.assistantEntryId with
  | none => rfl
  | some i =>
    obtain hnone | ⟨e, he, -, hid⟩ := s.constraints.assistantEntry turn hturn
    · rw [hentry] at hnone
      cases hnone
    · rw [hentry] at hid
      cases hid
      have hs : s.threadEntries.get? e.id = some e :=
        s.threadEntries.get?_eq_some_iff.mpr ⟨he, rfl⟩
      have ht : t.threadEntries.get? e.id = some e :=
        t.threadEntries.get?_eq_some_iff.mpr ⟨h.entries e he, rfl⟩
      rw [Option.map_some, Option.map_some, hs, ht]

private theorem evolves_of_extends
    (h : s.Extends t.toConversationRows) : s.Evolves t := by
  constructor
  · intro turn hturn hended
    have hmem := h.turns turn hturn hended
    exact ⟨turn, t.turns.get?_eq_some_iff.mpr ⟨hmem, rfl⟩, rfl, answer_eq h hturn, rfl⟩
  · intro thread hthread
    obtain ⟨u, hu, hid, hle⟩ := h.threads thread hthread
    exact ⟨u, t.threads.get?_eq_some_iff.mpr ⟨hu, hid⟩, hle⟩

end ConversationDatabase

variable {s : ConversationDatabase Json}

/-- One request keeps what settled states promise. -/
theorem ConversationAction.perform_lawful [BEq Json] {d : ConversationRows Json}
    (h : d.Lawful s.toConversationRows)
    (action : ConversationAction Json) : d.Lawful (action.perform s).2.toConversationRows := by
  have hstore : ∀ operation : StoreOperation Json,
      d.Lawful (operation.transaction.execute s).2.toConversationRows := by
    intro operation
    obtain hsame | ⟨_, hq⟩ := (StoreOperation.transaction_spec operation).execute h
    · rw [hsame]
      exact h
    · exact hq
  cases action with
  | store operation => exact hstore operation
  | service call view =>
    unfold perform
    dsimp only
    split
    · exact h
    · exact h
    · exact hstore _

private theorem ConversationAction.perform_error [BEq Json]
    {action : ConversationAction Json} {e : ConversationError}
    (h : (action.perform s).1 = .error e) : (action.perform s).2 = s := by
  cases action with
  | store operation => exact Transaction.execute_error h
  | service call view =>
    unfold perform at h ⊢
    dsimp only at h ⊢
    split at h
    · rfl
    · rfl
    · exact Transaction.execute_error h

private theorem ConversationDatabase.run_lawful [BEq Json] {d t : ConversationDatabase Json}
    (h : d.Lawful s.toConversationRows) (hrun : Run step (fun _ _ => True) s t) :
    d.Lawful t.toConversationRows :=
  hrun.invariant (I := fun t => d.Lawful t.toConversationRows) h fun _ action _ hI _ hstep =>
    Option.some.inj hstep ▸ action.perform_lawful hI

/-- Along every run the store is consistent and settled facts stay; rejections change nothing. -/
theorem conversation_store_invariants [BEq Json] {d s : ConversationDatabase Json}
    (hd : d.Consistent) (hrun : Run ConversationDatabase.step (fun _ _ => True) d s) :
    s.Consistent ∧
      (∀ t, Run ConversationDatabase.step (fun _ _ => True) s t → s.Evolves t) ∧
      ∀ (action : ConversationAction Json) (e : ConversationError),
        (action.perform s).1 = .error e → (action.perform s).2 = s := by
  have hs : s.Sequenced :=
    (ConversationDatabase.run_lawful
      ⟨ConversationDatabase.consistent_iff.1 hd, .refl d.toConversationRows⟩ hrun).sequenced
  refine ⟨ConversationDatabase.consistent_iff.2 hs, fun t ht => ?_, fun action e he => ?_⟩
  · exact ConversationDatabase.evolves_of_extends
      (ConversationDatabase.run_lawful ⟨hs, .refl s.toConversationRows⟩ ht).kept
  · exact ConversationAction.perform_error he

/-- The Thread of a first conversation. -/
def sampleThread : Thread where
  id := "thread_1"
  workspaceKey := "workspace"
  title := "New conversation"
  titleSource := .automatic
  currentModel := none
  thinkingEnabled := true
  skillMode := "auto"
  lineage := none
  createdAt := 5
  updatedAt := 5
  valid := by decide

/-- The view of the first conversation before its first entry. -/
def sampleView : ThreadView Unit := ⟨sampleThread, [], [], none⟩

/-- Two callers open a Turn from the same view, at times that go back. -/
def sampleActions : List (ConversationAction Unit) :=
  [.store (.createThread sampleThread),
    .service (.beginTurn "entry_1" "turn_1" "Hello" ⟨"provider", "model", false, "auto", (), ()⟩ ()
      "client_1" "Hello" 3) sampleView,
    .service (.beginTurn "entry_2" "turn_2" "Again" ⟨"provider", "model", false, "auto", (), ()⟩ ()
      "client_2" "Again" 7) sampleView]

private theorem ConversationDatabase.consistent_empty : (empty Json).Consistent := by
  refine ConversationDatabase.consistent_iff.2 fun threadId => ?_
  exact .refl _

/-- The Turns and the times of update that a store shows. -/
def ConversationDatabase.outline (s : ConversationDatabase Json) : List String × List Int :=
  (s.turns.rows.map fun t => t.id, s.threads.rows.map fun t => t.updatedAt)

/-- The second caller is rejected, and the time of update stays. -/
theorem conversation_store_invariants_stale : ∃ s : ConversationDatabase Unit,
    s.outline = (["turn_1"], [5]) ∧ s.Consistent ∧
      (∀ t, Run ConversationDatabase.step (fun _ _ => True) s t → s.Evolves t) ∧
      ∀ (action : ConversationAction Unit) (e : ConversationError),
        (action.perform s).1 = .error e → (action.perform s).2 = s := by
  have hsample : (sampleActions.foldlM ConversationDatabase.step (.empty Unit)).map
      ConversationDatabase.outline = some (["turn_1"], [5]) := by decide
  obtain ⟨s, hs, houtline⟩ := Option.map_eq_some_iff.mp hsample
  exact ⟨s, houtline, conversation_store_invariants ConversationDatabase.consistent_empty
    (Run.of_actions hs fun _ _ _ => trivial)⟩

end AwesomeAgent
