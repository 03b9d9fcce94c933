import AwesomeAgent.Context.Compression

/-!
# Compactions over all runs

Callers of the conversation store and compressions act in any order. A compression reads a
Thread, waits for its model while other requests are executed, and exchanges the summary at
the end. The entries of the history are then either covered by the summary, and were read by
exactly one of the compressions that stored one, or told once in the next context.
-/

namespace AwesomeAgent.Context

variable {Json : Type}

/-- The store, the compressions that wait for their model with what they read, and what the
compressions that stored a summary have summarised. -/
structure CompactionState (Json : Type) where
  database : ConversationDatabase Json
  running : List (ThreadView Json)
  stored : List (String × CompressionPlan Json)

/-- What can happen next. -/
inductive CompactionAction (Json : Type)
  | request (action : ConversationAction Json)
  | begin (threadId : String)
  | finish (index : Nat) (answer : CompressionAnswer)

/-- Begin a compression that has something to do. -/
def CompactionState.begin (s : CompactionState Json) (threadId : String) : CompactionState Json :=
  match s.database.readThread threadId with
  | .error _ => s
  | .ok view =>
      match planCompression view with
      | none => s
      | some plan => if plan.entries = [] then s else { s with running := s.running ++ [view] }

/-- End a compression; its summary is stored if the stored one is still the one it read. -/
def CompactionState.finish (s : CompactionState Json) (index : Nat) (view : ThreadView Json)
    (answer : CompressionAnswer) : CompactionState Json :=
  let running := s.running.eraseIdx index
  match compact view answer with
  | none => { s with running := running }
  | some (plan, summary) =>
      match (SQLiteThreadSummaryRepository.compareAndSwap summary view.summary).execute
          s.database with
      | (.ok _, database) => ⟨database, running, s.stored ++ [(view.thread.id, plan)]⟩
      | (.error _, database) => { s with database := database, running := running }

/-- The state after an action; only compressions exchange summaries. -/
def CompactionState.step [BEq Json] (s : CompactionState Json) :
    CompactionAction Json → Option (CompactionState Json)
  | .request action =>
      if action.writesSummary then none
      else some { s with database := (action.perform s.database).2 }
  | .begin threadId => some (s.begin threadId)
  | .finish index answer => (s.running[index]?).map fun view => s.finish index view answer

namespace CompactionState

/-- The last entry of a Thread that its summary covers. -/
def covered (s : CompactionState Json) (threadId : String) : Nat :=
  coveredEnd (s.database.threadSummaries.get? threadId)

/-- What the compressions of a Thread summarised that stored a summary. -/
def inputs (s : CompactionState Json) (threadId : String) : List (CompressionPlan Json) :=
  s.stored.filterMap fun p => if p.1 = threadId then some p.2 else none

end CompactionState

/-- Whether a compression summarised an entry. -/
def CompressionPlan.takes (plan : CompressionPlan Json) (entry : ThreadEntry Json) : Bool :=
  plan.entries.any fun other => decide (other.id = entry.id)

/-- A view holds what a Thread was when it was read, and the summary was written by then. -/
structure SnapshotOf (s : ConversationDatabase Json) (threadId : String)
    (view : ThreadView Json) : Prop where
  subset : ∀ e ∈ view.entries, e ∈ s.threadEntries.rows ∧ e.threadId = threadId
  complete : ∀ e ∈ s.threadEntries.rows, e.threadId = threadId → ∀ f ∈ view.entries,
    e.sequence ≤ f.sequence → e ∈ view.entries

/-- Every covered entry of a Thread was summarised once, and no other was. -/
structure Accounted (threadId : String) (s : CompactionState Json) : Prop where
  sequenced : s.database.Sequenced
  snapshots : ∀ view ∈ s.running, view.thread.id = threadId →
    SnapshotOf s.database threadId view
  within : ∀ plan ∈ s.inputs threadId, ∀ e ∈ plan.entries, e ∈ s.database.threadEntries.rows ∧
    e.threadId = threadId ∧ e.sequence ≤ s.covered threadId
  once : ∀ e ∈ s.database.threadEntries.rows, e.threadId = threadId →
    e.sequence ≤ s.covered threadId →
      (s.inputs threadId).countP (fun plan => plan.takes e) = 1
  reached : s.covered threadId = 0 ∨ ∃ e ∈ s.database.threadEntries.rows,
    e.threadId = threadId ∧ e.sequence = s.covered threadId

variable {s : ConversationDatabase Json} {entry : ThreadEntry Json} {threadId : String}
  {view : ThreadView Json} {entries : List (ThreadEntry Json)}

private theorem takes_iff {plan : CompressionPlan Json}
    (hplan : ∀ e ∈ plan.entries, e ∈ s.threadEntries.rows)
    (hentry : entry ∈ s.threadEntries.rows) : plan.takes entry = true ↔ entry ∈ plan.entries := by
  unfold CompressionPlan.takes
  rw [List.any_eq_true]
  constructor
  · rintro ⟨other, hother, hid⟩
    have hsame := s.threadEntries.eq_of_key (hplan other hother) hentry (of_decide_eq_true hid)
    exact hsame ▸ hother
  · exact fun h => ⟨entry, h, decide_eq_true rfl⟩

private theorem snapshotOf_readThread (h : s.readThread threadId = .ok view) :
    SnapshotOf s threadId view := by
  obtain ⟨-, hentries, -, -⟩ := ConversationDatabase.readThread_eq_ok h
  constructor
  · intro e he
    rw [hentries] at he
    exact ConversationRows.mem_entriesOf.1 he
  · intro e he hthread _ _ _
    rw [hentries]
    exact ConversationRows.mem_entriesOf.2 ⟨he, hthread⟩

private theorem SnapshotOf.extends {t : ConversationDatabase Json}
    (h : SnapshotOf s threadId view) (hs : s.Sequenced)
    (hextends : s.Extends t.toConversationRows) : SnapshotOf t threadId view := by
  constructor
  · intro e he
    obtain ⟨hmem, hthread⟩ := h.subset e he
    exact ⟨hextends.entries e hmem, hthread⟩
  · intro e he hthread f hf hle
    obtain ⟨hmem, hfthread⟩ := h.subset f hf
    by_cases hold : e ∈ s.threadEntries.rows
    · exact h.complete e hold hthread f hf hle
    · have hless := hextends.greater hs he hold hmem (hfthread.trans hthread.symm)
      omega

private theorem Accounted.request [BEq Json] {s : CompactionState Json}
    (h : Accounted threadId s) {action : ConversationAction Json}
    (haction : action.writesSummary = false) :
    Accounted threadId { s with database := (action.perform s.database).2 } := by
  have hlawful := action.perform_lawful
    (s := s.database) ⟨h.sequenced, .refl s.database.toConversationRows⟩
  have hsummaries := action.perform_summaries s.database haction
  generalize (action.perform s.database).2 = t at hlawful hsummaries
  have hcovered : CompactionState.covered { s with database := t } threadId =
      s.covered threadId := by
    unfold CompactionState.covered
    rw [hsummaries]
  constructor
  · exact hlawful.sequenced
  · intro view hview hthread
    exact (h.snapshots view hview hthread).extends h.sequenced hlawful.kept
  · intro plan hplan e he
    obtain ⟨hmem, hthread, hle⟩ := h.within plan hplan e he
    exact ⟨hlawful.kept.entries e hmem, hthread, hcovered ▸ hle⟩
  · intro e he hthread hle
    rw [hcovered] at hle
    by_cases hold : e ∈ s.database.threadEntries.rows
    · exact h.once e hold hthread hle
    · rcases h.reached with hzero | ⟨f, hf, hfthread, hfcovered⟩
      · have hpositive := e.valid.2.2.1.1
        omega
      · have hless := hlawful.kept.greater h.sequenced he hold hf (hfthread.trans hthread.symm)
        omega
  · rcases h.reached with hzero | ⟨f, hf, hfthread, hfcovered⟩
    · exact Or.inl (hcovered.trans hzero)
    · exact Or.inr ⟨f, hlawful.kept.entries f hf, hfthread, hfcovered.trans hcovered.symm⟩

private theorem Accounted.rerun {s : CompactionState Json} (h : Accounted threadId s)
    {running : List (ThreadView Json)}
    (hrunning : ∀ view ∈ running, view ∈ s.running ∨
      s.database.readThread view.thread.id = .ok view) :
    Accounted threadId { s with running := running } := by
  refine ⟨h.sequenced, fun view hview hthread => ?_, h.within, h.once, h.reached⟩
  rcases hrunning view hview with hold | hread
  · exact h.snapshots view hold hthread
  · exact hthread ▸ snapshotOf_readThread hread

private theorem Accounted.begin {s : CompactionState Json} (h : Accounted threadId s)
    (other : String) : Accounted threadId (s.begin other) := by
  unfold CompactionState.begin
  cases hread : s.database.readThread other with
  | error e => exact h
  | ok view =>
    obtain ⟨hid, -⟩ := ConversationDatabase.readThread_eq_ok hread
    dsimp only
    split
    · exact h
    · split
      · exact h
      · refine h.rerun fun v hv => ?_
        rcases List.mem_append.mp hv with hold | hnew
        · exact Or.inl hold
        · obtain rfl := List.mem_singleton.mp hnew
          exact Or.inr (hid ▸ hread)

open Transaction in
private theorem compareAndSwap_writes (summary : ThreadSummary) (expected : Option ThreadSummary) :
    Commits (fun t => t = s)
      (SQLiteThreadSummaryRepository.compareAndSwap summary expected :
        ConversationTransaction Json Unit)
      fun _ t => s.threadSummaries.get? summary.threadId = expected ∧
        t.toConversationRows =
          { s.toConversationRows with threadSummaries := s.threadSummaries.put summary } := by
  unfold SQLiteThreadSummaryRepository.compareAndSwap SQLiteThreadSummaryRepository.upsert
  refine Commits.get.bind fun u => Commits.each ?_
  rintro _ ⟨rfl, rfl⟩
  split
  · exact Commits.throw _
  · next hsame =>
    refine Commits.get.bind fun v => Commits.each ?_
    rintro _ ⟨rfl, rfl⟩
    exact (writeRows_spec (Commits.throw _)).post fun _ t ht => ⟨not_not.mp hsame, ht⟩

/-! ## A summary is stored -/

section Storing

variable {threadId other : String} {s : CompactionState Json} {t : ConversationDatabase Json}
  {view : ThreadView Json} {plan : CompressionPlan Json}

/-- A plan summarises what is not covered in its view, up to one of the entries. -/
structure PlanOf (view : ThreadView Json) (plan : CompressionPlan Json) : Prop where
  nonempty : plan.entries ≠ []
  last : ∃ last ∈ view.entries, plan.coveredEntrySequence = last.sequence
  entries : plan.entries = view.entries.filter fun entry =>
    decide (coveredEnd view.summary < entry.sequence ∧
      entry.sequence ≤ plan.coveredEntrySequence)

private theorem PlanOf.grows (hplan : PlanOf view plan) :
    coveredEnd view.summary ≤ plan.coveredEntrySequence := by
  obtain ⟨e, he⟩ := List.exists_mem_of_ne_nil _ hplan.nonempty
  rw [hplan.entries, List.mem_filter, decide_eq_true_eq] at he
  omega

variable {e : ThreadEntry Json}

private theorem PlanOf.within (hplan : PlanOf view plan) (hs : SnapshotOf s.database threadId view)
    (he : e ∈ plan.entries) :
    e ∈ s.database.threadEntries.rows ∧ e.threadId = threadId ∧
      e.sequence ≤ plan.coveredEntrySequence := by
  rw [hplan.entries, List.mem_filter, decide_eq_true_eq] at he
  obtain ⟨hmem, hid⟩ := hs.subset e he.1
  exact ⟨hmem, hid, he.2.2⟩

private theorem PlanOf.takes_iff (hplan : PlanOf view plan)
    (hs : SnapshotOf s.database threadId view)
    (he : e ∈ s.database.threadEntries.rows) (hid : e.threadId = threadId)
    (hle : e.sequence ≤ plan.coveredEntrySequence) :
    plan.takes e = true ↔ coveredEnd view.summary < e.sequence := by
  obtain ⟨last, hlast, hend⟩ := hplan.last
  rw [Context.takes_iff (fun f hf => (hplan.within hs hf).1) he, hplan.entries, List.mem_filter,
    decide_eq_true_eq]
  refine ⟨fun hin => hin.2.1, fun hgreater => ⟨?_, hgreater, hle⟩⟩
  exact hs.complete e he hid last hlast (hend ▸ hle)

private theorem SnapshotOf.sameEntries (h : SnapshotOf s.database threadId view)
    (hentries : t.threadEntries = s.database.threadEntries) : SnapshotOf t threadId view := by
  constructor
  · rw [hentries]
    exact h.subset
  · rw [hentries]
    exact h.complete

private theorem sequenced_sameEntries (h : s.database.Sequenced)
    (hentries : t.threadEntries = s.database.threadEntries) : t.Sequenced := by
  intro id
  have hsame : t.sequences id = s.database.sequences id := by
    unfold ConversationRows.sequences
    rw [hentries]
  rw [hsame]
  exact h id

private theorem inputs_store :
    CompactionState.inputs { s with database := t, stored := s.stored ++ [(other, plan)] }
        threadId =
      s.inputs threadId ++ if other = threadId then [plan] else [] := by
  unfold CompactionState.inputs
  rw [List.filterMap_append]
  by_cases h : other = threadId <;> simp [h]

private theorem Accounted.not_taken (h : Accounted threadId s)
    (he : e ∈ s.database.threadEntries.rows) (hgreater : s.covered threadId < e.sequence) :
    (s.inputs threadId).countP (fun plan => plan.takes e) = 0 := by
  refine List.countP_eq_zero.mpr fun p hp htaken => ?_
  have hin := (Context.takes_iff (fun f hf => (h.within p hp f hf).1) he).mp htaken
  exact absurd (h.within p hp e hin).2.2 (Nat.not_le.mpr hgreater)

private theorem Accounted.storeOwn (h : Accounted threadId s)
    (hs : SnapshotOf s.database threadId view)
    (hplan : PlanOf view plan) (hbefore : s.covered threadId = coveredEnd view.summary)
    (hentries : t.threadEntries = s.database.threadEntries)
    (hafter : coveredEnd (t.threadSummaries.get? threadId) = plan.coveredEntrySequence) :
    Accounted threadId { s with database := t, stored := s.stored ++ [(threadId, plan)] } := by
  have hgrows : s.covered threadId ≤ plan.coveredEntrySequence := hbefore ▸ hplan.grows
  have hinputs := @inputs_store _ threadId threadId s t plan
  rw [if_pos rfl] at hinputs
  refine ⟨sequenced_sameEntries h.sequenced hentries,
    fun v hv hid => (h.snapshots v hv hid).sameEntries hentries, ?_, ?_, ?_⟩
  · intro p hp e he
    rw [hinputs] at hp
    change _ ∧ _ ∧ _ ≤ coveredEnd (t.threadSummaries.get? threadId)
    rw [hafter, hentries]
    rcases List.mem_append.mp hp with hold | hnew
    · obtain ⟨hmem, hid, hle⟩ := h.within p hold e he
      exact ⟨hmem, hid, hle.trans hgrows⟩
    · obtain rfl := List.mem_singleton.mp hnew
      exact hplan.within hs he
  · intro e he hid hle
    change e.sequence ≤ coveredEnd (t.threadSummaries.get? threadId) at hle
    rw [hafter] at hle
    rw [hentries] at he
    have htakes := hplan.takes_iff hs he hid hle
    rw [← hbefore] at htakes
    rw [hinputs, List.countP_append, List.countP_singleton]
    by_cases hcovered : e.sequence ≤ s.covered threadId
    · rw [h.once e he hid hcovered, if_neg fun ht => by have := htakes.mp ht; omega]
    · have hgreater := Nat.lt_of_not_le hcovered
      rw [h.not_taken he hgreater, if_pos (htakes.mpr hgreater)]
  · right
    obtain ⟨last, hlast, hend⟩ := hplan.last
    obtain ⟨hin, hid⟩ := hs.subset last hlast
    exact ⟨last, hentries ▸ hin, hid, hend.symm.trans hafter.symm⟩

private theorem Accounted.storeOther (h : Accounted threadId s) (hother : other ≠ threadId)
    (hentries : t.threadEntries = s.database.threadEntries)
    (hget : t.threadSummaries.get? threadId = s.database.threadSummaries.get? threadId) :
    Accounted threadId { s with database := t, stored := s.stored ++ [(other, plan)] } := by
  have hcovered : CompactionState.covered
      { s with database := t, stored := s.stored ++ [(other, plan)] } threadId =
        s.covered threadId := congrArg coveredEnd hget
  have hinputs := @inputs_store _ threadId other s t plan
  rw [if_neg hother, List.append_nil] at hinputs
  refine ⟨sequenced_sameEntries h.sequenced hentries,
    fun v hv hid => (h.snapshots v hv hid).sameEntries hentries, ?_, ?_, ?_⟩
  · intro p hp e he
    rw [hinputs] at hp
    obtain ⟨hmem, hid, hle⟩ := h.within p hp e he
    exact ⟨hentries ▸ hmem, hid, hle.trans_eq hcovered.symm⟩
  · intro e he hid hle
    rw [hinputs]
    exact h.once e (hentries ▸ he) hid (hcovered ▸ hle)
  · rcases h.reached with hzero | ⟨e, he, hid, hend⟩
    · exact Or.inl (hcovered.trans hzero)
    · exact Or.inr ⟨e, hentries ▸ he, hid, hend.trans hcovered.symm⟩

private theorem Accounted.store (h : Accounted threadId s) {answer : CompressionAnswer}
    {summary : ThreadSummary}
    (hsnapshot : view.thread.id = threadId → SnapshotOf s.database threadId view)
    (hcompact : compact view answer = some (plan, summary))
    (hexpected : s.database.threadSummaries.get? summary.threadId = view.summary)
    (hrows : t.toConversationRows = { s.database.toConversationRows with
      threadSummaries := s.database.threadSummaries.put summary }) :
    Accounted threadId { s with database := t, stored := s.stored ++ [(view.thread.id, plan)] } ∧
      s.covered threadId ≤ coveredEnd (t.threadSummaries.get? threadId) := by
  obtain ⟨hplanned, hnonempty, hsummary, hend⟩ := compact_eq_some hcompact
  obtain ⟨hlast, hentries⟩ := (planCompression_eq_some hplanned).resolve_left hnonempty
  have hplan : PlanOf view plan := ⟨hnonempty, hlast, hentries⟩
  have htentries : t.threadEntries = s.database.threadEntries := by rw [hrows]
  have htsummaries : t.threadSummaries = s.database.threadSummaries.put summary := by rw [hrows]
  by_cases hthread : view.thread.id = threadId
  · have hbefore : s.covered threadId = coveredEnd view.summary := by
      unfold CompactionState.covered
      rw [← hexpected, hsummary, hthread]
    have hafter : coveredEnd (t.threadSummaries.get? threadId) = plan.coveredEntrySequence := by
      rw [htsummaries, ← hthread, ← hsummary, Table.get?_put_self]
      exact hend
    have hown := h.storeOwn (hsnapshot hthread) hplan hbefore htentries hafter
    rw [hthread]
    exact ⟨hown, (hbefore.trans_le hplan.grows).trans_eq hafter.symm⟩
  · have hget : t.threadSummaries.get? threadId =
        s.database.threadSummaries.get? threadId := by
      rw [htsummaries, Table.get?_put, if_neg fun he => hthread (hsummary.symm.trans he.symm)]
    exact ⟨h.storeOther hthread htentries hget, le_of_eq (congrArg coveredEnd hget).symm⟩

end Storing

private theorem Accounted.finish {s : CompactionState Json} (h : Accounted threadId s)
    {index : Nat} (hview : s.running[index]? = some view)
    (answer : CompressionAnswer) :
    Accounted threadId (s.finish index view answer) ∧
      s.covered threadId ≤ (s.finish index view answer).covered threadId := by
  have hrest : ∀ v ∈ s.running.eraseIdx index, v ∈ s.running ∨
      s.database.readThread v.thread.id = .ok v :=
    fun v hv => Or.inl ((List.eraseIdx_sublist _ _).subset hv)
  have hmem : view ∈ s.running := List.mem_of_getElem? hview
  unfold CompactionState.finish
  dsimp only
  split
  · exact ⟨h.rerun hrest, le_refl _⟩
  · next plan summary hcompact =>
    split
    · next database hexecute =>
      obtain ⟨hexpected, hrows⟩ :=
        (compareAndSwap_writes summary view.summary).execute_ok rfl hexecute
      obtain ⟨haccounted, hgrows⟩ := h.store (h.snapshots view hmem) hcompact hexpected hrows
      exact ⟨haccounted.rerun fun v hv => Or.inl ((List.eraseIdx_sublist _ _).subset hv), hgrows⟩
    · next database hexecute =>
      have hsame := Transaction.execute_error (congrArg Prod.fst hexecute)
      rw [hexecute] at hsame
      obtain rfl : database = s.database := hsame
      exact ⟨h.rerun hrest, le_refl _⟩

private theorem Accounted.step [BEq Json] {threadId : String} {s t : CompactionState Json}
    (h : Accounted threadId s) {action : CompactionAction Json}
    (hstep : s.step action = some t) :
    Accounted threadId t ∧ s.covered threadId ≤ t.covered threadId := by
  cases action with
  | request action =>
    unfold CompactionState.step at hstep
    dsimp only at hstep
    split at hstep
    · cases hstep
    · next hspares =>
      have hspares := Bool.eq_false_iff.mpr hspares
      have hsame := action.perform_summaries s.database hspares
      cases hstep
      refine ⟨h.request hspares, ?_⟩
      unfold CompactionState.covered
      rw [hsame]
  | begin other =>
    have hsame : (s.begin other).covered threadId = s.covered threadId := by
      unfold CompactionState.begin
      split
      · rfl
      · split
        · rfl
        · split <;> rfl
    cases hstep
    exact ⟨h.begin other, hsame.ge⟩
  | finish index answer =>
    obtain ⟨view, hview, hfinish⟩ := Option.map_eq_some_iff.mp hstep
    exact hfinish ▸ h.finish hview answer

private theorem Accounted.start {d : CompactionState Json}
    (hconsistent : d.database.Consistent) (hrunning : d.running = []) (hstored : d.stored = [])
    (hsummary : d.database.threadSummaries.get? threadId = none) : Accounted threadId d := by
  have hcovered : d.covered threadId = 0 := by
    unfold CompactionState.covered
    rw [hsummary, coveredEnd]
  have hinputs : d.inputs threadId = [] := by
    unfold CompactionState.inputs
    rw [hstored, List.filterMap_nil]
  constructor
  · exact ConversationDatabase.consistent_iff.1 hconsistent
  · intro view hview
    rw [hrunning] at hview
    cases hview
  · intro plan hplan
    rw [hinputs] at hplan
    cases hplan
  · intro e _ _ hle
    have hpositive := e.valid.2.2.1.1
    omega
  · exact Or.inl hcovered

private theorem Accounted.run [BEq Json] {threadId : String} {s t : CompactionState Json}
    (h : Accounted threadId s) (hrun : Run CompactionState.step (fun _ _ => True) s t) :
    Accounted threadId t ∧ s.covered threadId ≤ t.covered threadId :=
  hrun.invariant
    (I := fun t => Accounted threadId t ∧ s.covered threadId ≤ t.covered threadId)
    ⟨h, le_refl _⟩ fun _ _ _ hI _ hstep =>
      let ⟨haccounted, hgrows⟩ := hI.1.step hstep
      ⟨haccounted, hI.2.trans hgrows⟩

/-! ## The next context -/

/-- The sources of a context that tell an entry. -/
def tellings (sources : List ContextSource) (entry : ThreadEntry Json) : List ContextSource :=
  sources.filter fun source =>
    decide (source.kind ≠ .threadSummary ∧ source.sourceId = entry.id.toList)

private theorem filter_id (hnodup : (entries.map fun e => e.id).Nodup) (hmem : entry ∈ entries) :
    (entries.filter fun e => decide (e.id = entry.id)) = [entry] := by
  induction entries with
  | nil => cases hmem
  | cons first rest ih =>
    rw [List.map_cons, List.nodup_cons] at hnodup
    rcases List.mem_cons.mp hmem with rfl | hrest
    · rw [List.filter_cons, if_pos (decide_eq_true rfl), List.filter_eq_nil_iff.mpr]
      intro e he hid
      exact hnodup.1 (of_decide_eq_true hid ▸ List.mem_map_of_mem he)
    · have hother : ¬ decide (first.id = entry.id) = true := fun hid =>
        hnodup.1 (of_decide_eq_true hid ▸ List.mem_map_of_mem hrest)
      rw [List.filter_cons, if_neg hother]
      exact ih hnodup.2 hrest

private theorem tellings_eq {summaries : List ThreadSummary}
    (hnodup : (entries.map fun e => e.id).Nodup) (p : ThreadEntry Json → Bool)
    (hmem : entry ∈ entries) :
    tellings (summaries.map summarySource ++ (entries.filter p).map entrySource) entry =
      if p entry then [entrySource entry] else [] := by
  have hsummaries : tellings (summaries.map summarySource) entry = [] := by
    refine List.filter_eq_nil_iff.mpr fun source hsource htold => ?_
    obtain ⟨summary, -, rfl⟩ := List.mem_map.mp hsource
    exact (of_decide_eq_true htold).1 rfl
  have htold : (fun source : ContextSource =>
      decide (source.kind ≠ .threadSummary ∧ source.sourceId = entry.id.toList)) ∘
        (entrySource : ThreadEntry Json → ContextSource) = fun e => decide (e.id = entry.id) := by
    funext e
    have hkind : (entrySource e).kind ≠ .threadSummary := by
      unfold entrySource
      dsimp only
      split <;> decide
    refine decide_eq_decide.mpr ⟨fun h => String.toList_injective h.2, fun h => ⟨hkind, ?_⟩⟩
    exact congrArg String.toList h
  have hone := filter_id hnodup hmem
  unfold tellings at hsummaries ⊢
  rw [List.filter_append, hsummaries, List.nil_append, List.filter_map, htold, List.filter_filter]
  have hcomm : (entries.filter fun e => decide (e.id = entry.id) && p e) =
      (entries.filter fun e => decide (e.id = entry.id)).filter p := by
    rw [List.filter_filter]
    exact List.filter_congr fun e _ => Bool.and_comm _ _
  rw [hcomm, hone]
  by_cases hp : p entry = true
  · rw [if_pos hp, List.filter_cons_of_pos hp, List.filter_nil, List.map_singleton]
  · rw [if_neg hp, List.filter_cons_of_neg hp, List.filter_nil, List.map_nil]

private theorem tellings_historySources {turn : Turn Json}
    (hnodup : (view.entries.map fun e => e.id).Nodup) {current : ThreadEntry Json}
    (hcurrent : current ∈ view.entries) (hid : current.id = turn.userEntryId) :
    ∃ sources, historySources view turn = some sources ∧
      ∀ entry ∈ view.entries, isHistory view entry = true → entry.sequence < current.sequence →
        tellings sources entry =
          if coveredEnd view.summary < entry.sequence then [entrySource entry] else [] := by
  have hfind : (view.entries.find? fun entry => decide (entry.id = turn.userEntryId)) =
      some current := by
    rw [← List.head?_filter, ← hid, filter_id hnodup hcurrent, List.head?_cons]
  unfold historySources
  rw [hfind]
  refine ⟨_, rfl, fun entry hentry hhistory hbefore => ?_⟩
  rw [tellings_eq hnodup _ hentry]
  by_cases hcovered : coveredEnd view.summary < entry.sequence
  · rw [if_pos hcovered, if_pos]
    rw [hhistory, Bool.and_true]
    exact decide_eq_true (by omega)
  · rw [if_neg hcovered, if_neg]
    rw [hhistory, Bool.and_true]
    exact fun h => of_decide_eq_true h (Or.inr (by omega))

private theorem exists_current (h : s.readThread threadId = .ok view) {turn : Turn Json}
    (hturn : turn ∈ view.turns) : ∃ current ∈ view.entries, current.id = turn.userEntryId := by
  obtain ⟨-, hentries, hturns, -⟩ := ConversationDatabase.readThread_eq_ok h
  rw [hturns, ConversationRows.turnsOf, (List.perm_insertionSort _ _).mem_iff,
    List.mem_filter] at hturn
  obtain ⟨e, he, hthread, hid⟩ := s.constraints.userEntry turn hturn.1
  rw [hentries]
  exact ⟨e, ConversationRows.mem_entriesOf.2
    ⟨he, hthread.trans (of_decide_eq_true hturn.2)⟩, hid⟩

private theorem Accounted.summarised {s : CompactionState Json} (h : Accounted threadId s)
    (hentry : entry ∈ s.database.threadEntries.rows) (hid : entry.threadId = threadId) :
    if s.covered threadId < entry.sequence then
      (s.inputs threadId).filter (fun plan => plan.takes entry) = []
    else ∃ plan, (s.inputs threadId).filter (fun plan => plan.takes entry) = [plan] ∧
      entry.content.toList <:+: plan.input := by
  have htakes : ∀ plan ∈ s.inputs threadId, plan.takes entry = true → entry ∈ plan.entries :=
    fun plan hplan => (takes_iff (fun e he => (h.within plan hplan e he).1) hentry).mp
  split
  · next hlater =>
    refine List.filter_eq_nil_iff.mpr fun plan hplan htaken => ?_
    have hle := (h.within plan hplan entry (htakes plan hplan htaken)).2.2
    omega
  · next hcovered =>
    have hone := h.once entry hentry hid (by omega)
    rw [List.countP_eq_length_filter] at hone
    obtain ⟨plan, hplan⟩ := List.length_eq_one_iff.mp hone
    have hmem : plan ∈ (s.inputs threadId).filter fun plan => plan.takes entry := by
      rw [hplan]
      exact List.mem_singleton_self plan
    obtain ⟨hmem, htaken⟩ := List.mem_filter.mp hmem
    exact ⟨plan, hplan, CompressionPlan.content_infix_input (htakes plan hmem htaken)⟩

/-- However compressions and requests follow each other, a covered entry was in the input of one
of them, and each other entry before the current Turn is told once; what is covered stays so. -/
theorem compaction_loses_no_history [BEq Json] (threadId : String) {d s : CompactionState Json}
    (hconsistent : d.database.Consistent) (hrunning : d.running = []) (hstored : d.stored = [])
    (hsummary : d.database.threadSummaries.get? threadId = none)
    (hrun : Run CompactionState.step (fun _ _ => True) d s) :
    (∀ t, Run CompactionState.step (fun _ _ => True) s t →
      s.covered threadId ≤ t.covered threadId) ∧
    ∀ view, s.database.readThread threadId = .ok view → ∀ turn ∈ view.turns,
      ∃ current ∈ view.entries, current.id = turn.userEntryId ∧
      ∃ sources, historySources view turn = some sources ∧
        ∀ entry ∈ view.entries, isHistory view entry = true →
          entry.sequence < current.sequence →
          if entry.sequence ≤ s.covered threadId then
            (∃ plan, (s.inputs threadId).filter (fun plan => plan.takes entry) = [plan] ∧
              entry.content.toList <:+: plan.input) ∧ tellings sources entry = []
          else
            (s.inputs threadId).filter (fun plan => plan.takes entry) = [] ∧
              tellings sources entry = [entrySource entry] := by
  have hs : Accounted threadId s :=
    ((Accounted.start hconsistent hrunning hstored hsummary).run hrun).1
  refine ⟨fun t ht => (hs.run ht).2, fun view hview turn hturn => ?_⟩
  obtain ⟨-, hentries, -, hsummaryView⟩ := ConversationDatabase.readThread_eq_ok hview
  obtain ⟨current, hcurrent, hid⟩ := exists_current hview hturn
  have hnodup : (view.entries.map fun e => e.id).Nodup :=
    hentries ▸ s.database.nodup_entriesOf threadId
  obtain ⟨sources, hsources, htold⟩ := tellings_historySources hnodup hcurrent hid
  refine ⟨current, hcurrent, hid, sources, hsources, fun entry hentry hhistory hbefore => ?_⟩
  have htellings := htold entry hentry hhistory hbefore
  rw [hentries] at hentry
  obtain ⟨hmem, hthread⟩ := ConversationRows.mem_entriesOf.1 hentry
  have hsummarised := hs.summarised hmem hthread
  have hend : coveredEnd view.summary = s.covered threadId := by rw [hsummaryView]; rfl
  rw [hend] at htellings
  by_cases hcovered : s.covered threadId < entry.sequence
  · rw [if_pos hcovered] at htellings hsummarised
    rw [if_neg (by omega)]
    exact ⟨hsummarised, htellings⟩
  · rw [if_neg hcovered] at htellings hsummarised
    rw [if_pos (by omega)]
    exact ⟨hsummarised, htellings⟩

/-- The fields of an entry of a sample: messages and answers take turns. -/
def sampleEntryFields (n : Fin 10) : ThreadEntryFields Unit where
  id := "entry_" ++ toString n.val
  threadId := "thread_1"
  sequence := n.val + 1
  kind := if n.val % 2 = 0 then .userMessage else .assistantMessage
  content := "Text"
  clientMessageId := if n.val % 2 = 0 then some ("client_" ++ toString n.val) else none
  metadata := ()
  createdAt := 5

private theorem sampleEntryFields_valid : ∀ n, (sampleEntryFields n).Valid := by decide

/-- The fields of a Turn of the sample, which has ended. -/
def sampleTurnFields (n : Fin 5) : TurnFields Unit where
  id := "turn_" ++ toString n.val
  threadId := "thread_1"
  checkpointKey := "turn_" ++ toString n.val
  status := .completed
  provider := "provider"
  model := "model"
  thinkingEnabled := false
  skillMode := "auto"
  budgets := ()
  userEntryId := "entry_" ++ toString (2 * n.val)
  assistantEntryId := some ("entry_" ++ toString (2 * n.val + 1))
  usage := ()
  terminationReason := none
  errorCode := none
  contextManifest := []
  createdAt := 5
  updatedAt := 5
  completedAt := some 5

private theorem sampleTurnFields_valid : ∀ n, (sampleTurnFields n).Valid := by decide

/-- A Thread with five completed Turns. -/
def sampleRows : ConversationRows Unit where
  threads := ⟨[sampleThread], by decide⟩
  threadEntries := ⟨List.ofFn fun n => ⟨sampleEntryFields n, sampleEntryFields_valid n⟩, by decide⟩
  turns := ⟨List.ofFn fun n => ⟨sampleTurnFields n, sampleTurnFields_valid n⟩, by decide⟩
  threadSummaries := ⟨[], by decide⟩

def sampleHistory : ConversationDatabase Unit := ⟨sampleRows, by decide⟩

private theorem sampleHistory_consistent : sampleHistory.Consistent := by
  refine ConversationDatabase.consistent_iff.2 fun threadId => ?_
  by_cases hthread : "thread_1" = threadId
  · subst hthread
    decide
  · have hnone : sampleHistory.sequences threadId = [] := by
      refine List.map_eq_nil_iff.mpr (List.filter_eq_nil_iff.mpr fun e he hid => hthread ?_)
      obtain ⟨n, rfl⟩ := List.mem_ofFn.mp he
      exact of_decide_eq_true hid
    rw [hnone]
    exact .refl _

/-- A compression that waits while the user runs a command. -/
def sampleCompaction : List (CompactionAction Unit) :=
  [.begin "thread_1",
    .request (.service (.appendDirectCommand "entry_10" "ls" () 6)
      ⟨sampleThread, sampleHistory.entriesOf "thread_1", [], none⟩),
    .finish 0 ⟨some " Summary ".toList, "hash", 2, "provider", "model", 7⟩]

/-- The first Turn is covered, and the others and the command are told. -/
theorem compaction_loses_no_history_sample : ∃ s : CompactionState Unit,
    (s.covered "thread_1", (s.inputs "thread_1").length, s.database.threadEntries.rows.length) =
      (2, 1, 11) ∧
    (∀ t, Run CompactionState.step (fun _ _ => True) s t →
      s.covered "thread_1" ≤ t.covered "thread_1") ∧
    ∀ view, s.database.readThread "thread_1" = .ok view → ∀ turn ∈ view.turns,
      ∃ current ∈ view.entries, current.id = turn.userEntryId ∧
      ∃ sources, historySources view turn = some sources ∧
        ∀ entry ∈ view.entries, isHistory view entry = true →
          entry.sequence < current.sequence →
          if entry.sequence ≤ s.covered "thread_1" then
            (∃ plan, (s.inputs "thread_1").filter (fun plan => plan.takes entry) = [plan] ∧
              entry.content.toList <:+: plan.input) ∧ tellings sources entry = []
          else
            (s.inputs "thread_1").filter (fun plan => plan.takes entry) = [] ∧
              tellings sources entry = [entrySource entry] := by
  have hsample : (sampleCompaction.foldlM CompactionState.step ⟨sampleHistory, [], []⟩).map
      (fun s => (s.covered "thread_1", (s.inputs "thread_1").length,
        s.database.threadEntries.rows.length)) = some (2, 1, 11) := by decide
  obtain ⟨s, hs, houtline⟩ := Option.map_eq_some_iff.mp hsample
  exact ⟨s, houtline, compaction_loses_no_history "thread_1" sampleHistory_consistent rfl rfl rfl
    (Run.of_actions hs fun _ _ _ => trivial)⟩

end AwesomeAgent.Context
