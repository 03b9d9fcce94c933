import AwesomeAgent.Library.Runs
import AwesomeAgent.Operations.LawfulSteps

/-!
# The lifecycle of Operations over all interleavings

In every run that avoids the two races at most one Operation is active, its terminal
event matches its outcome, its lease is released once and no starter is left waiting.
-/

namespace AwesomeAgent

variable {o : Operation} {i : Nat}

/-- An Operation that holds its lease or has a task to run. -/
def Operation.Unfinished (o : Operation) : Prop :=
  o.released = false ∨ (o.task ≠ .absent ∧ o.task ≠ .finished)

/-- The steps by which the starter of an Operation ends. -/
def OperationAction.EndsStarter (i : Nat) : OperationAction → Prop
  | .resume j => j = i
  | .joined j => j = i
  | .starterPublished j _ => j = i
  | _ => False

namespace OperationController

variable {s t : OperationController}

/-- What a lifecycle promises in every state. -/
structure Orderly (s : OperationController) : Prop where
  /-- At most one Operation is active. -/
  oneActive : ∀ (i j : Nat) (p q : Operation), s.operations[i]? = some p →
    s.operations[j]? = some q → p.Unfinished → q.Unfinished → i = j
  /-- There is at most one terminal event, and it matches the committed outcome. -/
  terminal : ∀ (i : Nat) (o : Operation), s.operations[i]? = some o →
    o.events = [] ∨ o.events = [.ofOutcome o.outcome]
  /-- A committed Operation stays committed. -/
  committed : ∀ (i : Nat) (o : Operation), s.operations[i]? = some o → o.outcome.isSome →
    s.activeId = some i → s.phase = some .committed
  /-- The lease is released at most once. -/
  releases : ∀ (i : Nat) (o : Operation), s.operations[i]? = some o → o.releases ≤ 1
  /-- Once task and starter are finished the lease is released. -/
  settled : ∀ (i : Nat) (o : Operation), s.operations[i]? = some o → o.task = .finished →
    o.starter = .finished → o.releases = 1
  /-- Once the task is finished nothing but steps of its starter may be left to release it. -/
  released : ∀ (i : Nat) (o : Operation), s.operations[i]? = some o → o.task = .finished →
    ∃ t, Run OperationController.step (fun _ => OperationAction.EndsStarter i) s t ∧
      ∃ p, t.operations[i]? = some p ∧ p.releases = 1
  /-- No starter is left waiting for a finished task. -/
  waiter : ∀ (i : Nat) (o : Operation), s.operations[i]? = some o → o.task = .finished →
    o.starter = .waiting → (s.step (.resume i)).isSome

private theorem release_fields (s : OperationController) (i : Nat) (o : Operation) :
    (s.release i o).activeId = s.activeId ∧
      (s.release i o).operations.length = s.operations.length := by
  unfold OperationController.release OperationController.put
  split
  · exact ⟨rfl, List.length_set⟩
  · split <;> exact ⟨rfl, List.length_set⟩

private theorem Lawful.released_of_publishing (h : s.Lawful) (ho : s.operations[i]? = some o)
    (hstarter : o.starter = .publishing) :
    ∃ t, Run OperationController.step (fun _ => OperationAction.EndsStarter i) s t ∧
      ∃ p, t.operations[i]? = some p ∧ p.releases = 1 := by
  have hstep : s.starterPublished i true =
      some (s.finishStarter i (o.deliver .operationCancelled true)) := by
    simp [OperationController.starterPublished, ho, hstarter]
  have hlawful := h.starterPublished hstep
  obtain ⟨hactive, hlength⟩ := release_fields s.forgetTask i
    { o.deliver .operationCancelled true with starter := .finished }
  have hindex : i < (s.finishStarter i (o.deliver .operationCancelled true)).operations.length := by
    change i < (s.forgetTask.release i _).operations.length
    rw [hlength]
    exact (List.getElem?_eq_some_iff.mp ho).1
  refine ⟨_, .single (a := .starterPublished i true) rfl hstep, _,
    List.getElem?_eq_getElem hindex, ?_⟩
  refine (hlawful.retired i _ (List.getElem?_eq_getElem hindex) fun hi => ?_).releases
  change (s.forgetTask.release i _).activeId = some i at hi
  rw [hactive] at hi
  cases hi

private theorem Lawful.released_of_joining (h : s.Lawful) (ho : s.operations[i]? = some o)
    (hi : s.activeId = some i) (hphase : s.phase = some .cancelling) (htask : o.task = .finished)
    (hstarter : o.starter = .joining) :
    ∃ t, Run OperationController.step (fun _ => OperationAction.EndsStarter i) s t ∧
      ∃ p, t.operations[i]? = some p ∧ p.releases = 1 := by
  have hstep : s.joined i = some (s.put i { o with starter := .publishing }) := by
    simp [OperationController.joined, ho, htask, hstarter, hi, hphase]
  obtain ⟨t, hrun, hreleased⟩ := (h.joined hstep).released_of_publishing
    (List.getElem?_set_self (List.getElem?_eq_some_iff.mp ho).1) rfl
  have hfirst : Run OperationController.step (fun _ => OperationAction.EndsStarter i) s _ :=
    .single (a := .joined i) rfl hstep
  exact ⟨t, hfirst.trans hrun, hreleased⟩

private theorem Lawful.released_of_waiting (h : s.Lawful) (ho : s.operations[i]? = some o)
    (hi : s.activeId = some i) (hphase : s.phase = some .cancelling) (htask : o.task = .finished)
    (hstarter : o.starter = .waiting) (hinterrupted : o.interrupted = true) :
    ∃ t, Run OperationController.step (fun _ => OperationAction.EndsStarter i) s t ∧
      ∃ p, t.operations[i]? = some p ∧ p.releases = 1 := by
  have hstep : s.resume i =
      some (s.put i { o with interrupted := false, starter := .joining }) := by
    simp [OperationController.resume, ho, hstarter, hinterrupted, hphase]
  obtain ⟨t, hrun, hreleased⟩ := (h.resume hstep).released_of_joining
    (List.getElem?_set_self (List.getElem?_eq_some_iff.mp ho).1) hi hphase htask rfl
  have hfirst : Run OperationController.step (fun _ => OperationAction.EndsStarter i) s _ :=
    .single (a := .resume i) rfl hstep
  exact ⟨t, hfirst.trans hrun, hreleased⟩

/-- A controller with the invariant is orderly. -/
theorem Lawful.orderly (h : s.Lawful) : s.Orderly := by
  have hactive : ∀ (i : Nat) (o : Operation), s.operations[i]? = some o → o.Unfinished →
      s.activeId = some i := by
    intro i o ho hunfinished
    obtain ⟨phase, hs⟩ | ⟨-, hretired⟩ := h.cases ho
    · exact hs.activeId
    · obtain hheld | htask := hunfinished
      · rw [hretired.released] at hheld
        cases hheld
      · exact (hretired.task.elim htask.1 htask.2).elim
  refine ⟨fun i j p q hp hq hpu hqu => ?_, fun i o ho => ?_, fun i o ho hout hi => ?_,
    fun i o ho => ?_, fun i o ho htask hstarter => ?_, fun i o ho htask => ?_,
    fun i o ho htask hstarter => ?_⟩
  · exact Option.some.inj ((hactive i p hp hpu).symm.trans (hactive j q hq hqu))
  · obtain ⟨phase, hs⟩ | ⟨-, hretired⟩ := h.cases ho
    · refine hs.active.events.imp_right fun he => ?_
      obtain ⟨rfl, -⟩ := hs.active.finished he.1
      have houtcome : o.outcome = none := by
        rw [hs.active.outcome]
        simpa using hs.active.committed
      rw [he.2, houtcome]
      rfl
    · exact hretired.events
  · obtain ⟨phase, hs⟩ := h.holds hi ho
    rw [hs.active.outcome] at hout
    rw [hs.inPhase, hs.active.committed.1 hout]
  · obtain ⟨phase, hs⟩ | ⟨-, hretired⟩ := h.cases ho
    · exact Nat.le_of_lt (Nat.lt_succ_of_le (Nat.le_of_eq hs.active.releases))
    · exact Nat.le_of_eq hretired.releases
  · obtain ⟨phase, hs⟩ | ⟨-, hretired⟩ := h.cases ho
    · have := (hs.active.finished htask).2
      simp [hstarter] at this
    · exact hretired.releases
  · obtain ⟨phase, hs⟩ | ⟨-, hretired⟩ := h.cases ho
    · obtain ⟨rfl, hjoining | hpublishing | ⟨hwaiting, hinterrupted⟩⟩ := hs.active.finished htask
      · exact h.released_of_joining ho hs.activeId hs.inPhase htask hjoining
      · exact h.released_of_publishing ho hpublishing
      · exact h.released_of_waiting ho hs.activeId hs.inPhase htask hwaiting hinterrupted
    · exact ⟨s, .start, o, ho, hretired.releases⟩
  · obtain ⟨phase, hs⟩ | ⟨-, hretired⟩ := h.cases ho
    · obtain ⟨rfl, hp⟩ := hs.active.finished htask
      simp only [hstarter, reduceCtorEq, false_or, true_and] at hp
      simp [OperationController.step, OperationController.resume, ho, hstarter, hp, hs.inPhase]
    · have := hretired.placed
      simp [hstarter] at this

end OperationController

/-- In every run that avoids the two races every state is orderly. -/
theorem operation_lifecycle {s : OperationController}
    (hrun : Run OperationController.step OperationController.AvoidsRaces .idle s) : s.Orderly :=
  (hrun.invariant OperationController.lawful_idle fun _ _ _ hI hraces hstep =>
    hI.step hraces hstep).orderly

/-- A run from start to release: the outcome is committed while a cancellation comes too late. -/
def committedRun : List OperationAction :=
  [.reserve true, .startReserved 0, .announced 0 true, .firstStep 0, .resume 0, .beginCommit 0,
    .cancel 0, .endCommit 0 .completed, .conclude 0 .cancelled, .published 0 true]

/-- A committed Operation ends with its terminal event. -/
theorem operation_lifecycle_committed : ∃ s : OperationController,
    (s.foreground.lease = none ∧
      s.operations.map (fun o => (o.releases, o.events)) = [(1, [.operationCompleted])]) ∧
    s.Orderly := by
  have hsample : (committedRun.foldlM (Run.checked OperationController.step
      OperationController.AvoidsRaces) .idle).map (fun s => (s.foreground.lease,
        s.operations.map fun o => (o.releases, o.events))) =
      some (none, [(1, [.operationCompleted])]) := by decide
  obtain ⟨s, hs, hfacts⟩ := Option.map_eq_some_iff.mp hsample
  exact ⟨s, Prod.mk.inj hfacts, operation_lifecycle (Run.of_checked hs)⟩

/-- Cancelling an Operation while it is announced leaves its lease held for ever. -/
def cancelledStart : List OperationAction :=
  [.reserve true, .startReserved 0, .cancel 0, .announced 0 true, .firstStep 0, .resume 0,
    .published 0 true]

/-- The Operation after that run: starter and task are finished, the lease is not released. -/
def leakedOperation : Operation where
  consumed := true
  starter := .finished
  interrupted := false
  task := .finished
  cancelRequested := false
  ready := true
  released := false
  releases := 0
  outcome := none
  events := [.operationCancelled]

/-- A cancellation during the announcement leaves the lease behind. -/
theorem operation_lifecycle_broken : ∃ s : OperationController,
    Run OperationController.step (fun _ _ => True) .idle s ∧ ¬ s.Orderly := by
  have hsample : (cancelledStart.foldlM OperationController.step .idle).map
      OperationController.operations = some [leakedOperation] := by decide
  obtain ⟨s, hs, hoperations⟩ := Option.map_eq_some_iff.mp hsample
  refine ⟨s, Run.of_actions hs fun _ _ _ => trivial, fun horderly => ?_⟩
  have hreleased := horderly.settled 0 leakedOperation (by rw [hoperations]; rfl) rfl rfl
  cases hreleased

end AwesomeAgent
