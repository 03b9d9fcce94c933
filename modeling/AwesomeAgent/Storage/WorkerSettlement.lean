import AwesomeAgent.Library.Runs
import AwesomeAgent.Storage.WorkerSteps

/-!
# The SQLite worker settles every call

Each step of the worker thread brings every pending future nearer to its settlement and
no call can push it back, so that no future stays pending while the thread runs. A write that
keeps to its transaction leaves no trace when it reports an error. A call that awaits the
outcome ends as soon as its future is settled, unless its operation raised a cancellation of
its own: the call takes it for one of its caller's and awaits the settled future again, for
ever.
-/

namespace AwesomeAgent.Storage

/-- How many steps of its own the worker thread takes at most before it looks at the queue. -/
def WorkerPoint.cost : WorkerPoint → Nat
  | waiting => 4
  | taken _ => 7
  | executing _ => 6
  | executed _ _ => 5
  | closing _ _ => 4
  | publishing _ _ => 3
  | answering _ _ => 2
  | draining => 1
  | drained _ => 3
  | releasing _ => 2
  | drainedClose => 2
  | ended => 0

namespace ApplicationSQLite

variable {δ : Type} {s t : ApplicationSQLite δ} {i c : Nat} {r : Report}
  {target : QueueItem} {faults : Faults δ}

/-- Does this item leave the queue no later than that one? -/
def precedes : QueueItem → QueueItem → Bool
  | .work i, .work j => decide (j ≤ i)
  | .work _, .close => false
  | .close, _ => true

/-- How many steps of the worker thread a future waits at most. -/
def rank (s : ApplicationSQLite δ) (target : QueueItem) : Nat :=
  4 * s.queue.countP (precedes target) + s.point.cost

/-- Has the worker taken its last operation from the queue in order to execute it? -/
def Stopped (s : ApplicationSQLite δ) : Prop :=
  match s.point with
  | .waiting | .taken _ | .executing _ => False
  | .executed _ (.ok _) => False
  | .executed _ (.error failure) => failure.fatal = true
  | _ => True

/-- What every state of the worker accounts for. -/
structure Accountable (s : ApplicationSQLite δ) : Prop where
  started : s.started <+: List.range s.items.length
  settled : s.settlements.map Prod.fst <+: List.range s.items.length
  futures : ∀ i r, s.reportOf (.work i) = some r ↔ (i, r) ∈ s.settlements
  reported : ∀ i r, (i, r) ∈ s.settlements → Reported s.items s.commits s.contents i r
  traceless : ∀ i error operation, (i, .error error) ∈ s.settlements →
    s.items[i]? = some (.write operation) → i + 1 < s.contents.length →
      s.contents[i + 1]? = s.contents[i]?
  contents : s.contents.length = s.started.length + 1 ∧
    s.contents.getLast? = some s.database.contents
  released : s.releases <+: List.range s.items.length
  capacity : s.capacity + s.items.length = s.queueCapacity + s.releases.length
  returned : ∀ i r, s.reportOf (.work i) = some r → i ∈ s.releases ∨ s.point = .releasing i
  ended : s.point = .ended → s.settlements.length = s.items.length ∧
    s.releases.length = s.items.length ∧ s.closePending = false
  stopped : s.Stopped → ∀ t, Run step (fun _ _ => True) s t → t.started = s.started
  closed : s.state ≠ .opened → ∀ t, Run step (fun _ _ => True) s t → t.items = s.items
  honest : ∀ call ∈ s.calls, s.Honest call
  working : ∀ target, s.Known target → s.reportOf target = none →
    ∀ faults, (s.work faults).isSome
  settles : ∀ target, s.Known target → ∃ bound, ∀ (actions : List (WorkerAction δ))
    (t : ApplicationSQLite δ), actions.foldlM step s = some t →
      bound ≤ actions.countP WorkerAction.isWork → (t.reportOf target).isSome
  finishes : ∀ c target cancelled r, s.calls[c]? = some (.waiting target cancelled) →
    s.reportOf target = some r → ∃ t outcome, s.resume c = some t ∧
      t.calls[c]? = some (.finished (some target) outcome)

private theorem range_prefix {m n : Nat} (h : m ≤ n) : List.range m <+: List.range n := by
  obtain ⟨k, rfl⟩ := Nat.exists_eq_add_of_le h
  rw [List.range_add]
  exact List.prefix_append _ _

namespace Lawful

private theorem pending_iff (h : s.Lawful) (hi : i < s.items.length) :
    s.reportOf (.work i) = none ↔ s.settlements.length ≤ i := by
  constructor
  · intro hnone
    by_contra hlt
    obtain ⟨r, hr, -⟩ := h.future_settled (Nat.lt_of_not_le hlt)
    rw [reportOf_work.2 hr] at hnone
    cases hnone
  · intro hle
    simp [reportOf, h.future_pending hle hi]

private theorem closePending_of_pending (hknown : s.Known .close)
    (hpending : s.reportOf .close = none) :
    s.closePending = true := by
  obtain ⟨future, hfuture⟩ := Option.isSome_iff_exists.mp hknown
  cases future with
  | none => simp [closePending, hfuture]
  | some r => simp [reportOf, hfuture] at hpending

private theorem idle (h : s.Lawful) (hidle : s.point = .waiting ∧ s.queue = [] ∨ s.point = .ended) :
    s.items.length = s.settlements.length ∧ s.closePending = false := by
  obtain ⟨hpoint, hqueue⟩ | hpoint := hidle
  · exact h.queue_nil (by rw [hpoint]; rfl) (by rw [hpoint]; rfl) hqueue
  · have hplaced := h.placed
    rw [hpoint] at hplaced
    exact hplaced.2.2

private theorem work_isSome (h : s.Lawful)
    (hbusy : ¬ (s.point = .waiting ∧ s.queue = [] ∨ s.point = .ended)) (faults : Faults δ) :
    (s.work faults).isSome := by
  have hplaced := h.placed
  have htaken := h.taken_le
  unfold takenCount at htaken
  unfold ApplicationSQLite.work
  cases hpoint : s.point <;>
    simp only [hpoint, Placed, WorkerPoint.inHand, true_and, reduceCtorEq, or_false, or_true,
      not_true_eq_false] at hplaced htaken hbusy ⊢
  case waiting =>
    unfold take
    split
    · next hqueue => exact (hbusy hqueue).elim
    · rfl
    · rfl
  case executing i =>
    have hi : i < s.items.length := by omega
    simp [List.getElem?_eq_getElem hi]
  case closing close failed => split <;> rfl
  case answering close failed => split <;> rfl
  all_goals rfl

private theorem working (h : s.Lawful) (hknown : s.Known target)
    (hpending : s.reportOf target = none)
    (faults : Faults δ) : (s.work faults).isSome := by
  refine h.work_isSome (fun hidle => ?_) faults
  obtain ⟨hall, hclose⟩ := h.idle hidle
  cases target with
  | work i =>
    have hi : i < s.items.length := hknown
    have := (h.pending_iff hi).mp hpending
    omega
  | close =>
    rw [closePending_of_pending hknown hpending] at hclose
    cases hclose

end Lawful

/-- What a step of the worker thread leaves as it is. -/
structure Unasked (s t : ApplicationSQLite δ) : Prop where
  calls : t.calls = s.calls
  items : t.items = s.items
  state : s.state ≠ .opened → t.state ≠ .opened
  contents : (∀ i, s.point ≠ .executing i) → t.contents = s.contents

private theorem Unasked.goto (h : Unasked s t) {point : WorkerPoint} : Unasked s (t.goto point) :=
  ⟨h.calls, h.items, h.state, h.contents⟩

private theorem settle_unasked : Unasked s (s.settle i r) ∧ (s.settle i r).queue = s.queue ∧
    (s.settle i r).started = s.started := by
  unfold settle
  split <;> exact ⟨⟨rfl, rfl, id, fun _ => rfl⟩, rfl, rfl⟩

private theorem settleClose_unasked : Unasked s (s.settleClose r) ∧
    (s.settleClose r).queue = s.queue ∧
    (s.settleClose r).started = s.started := by
  unfold settleClose
  split <;> exact ⟨⟨rfl, rfl, id, fun _ => rfl⟩, rfl, rfl⟩

private theorem afterExecution_cost (result : Except Failure Value) :
    (afterExecution result).cost = 4 := by
  unfold afterExecution
  split
  · rfl
  · split <;> rfl

/-- A step of the worker thread goes on with what it has or takes the next item. -/
theorem work_queue (hwork : s.work faults = some t) :
    Unasked s t ∧
      (t.queue = s.queue ∧ t.point.cost < s.point.cost ∨
        ∃ item, s.queue = item :: t.queue ∧ t.point.cost < s.point.cost + 4 ∧
          s.point.inHand = 0) := by
  unfold ApplicationSQLite.work at hwork
  cases hpoint : s.point <;> simp only [hpoint] at hwork
  case waiting =>
    unfold take at hwork
    split at hwork <;> cases hwork
    · next hqueue =>
      exact ⟨⟨rfl, rfl, id, fun _ => rfl⟩, .inr ⟨_, hqueue, by simp [WorkerPoint.cost], rfl⟩⟩
    · next hqueue =>
      exact ⟨⟨rfl, rfl, id, fun _ => rfl⟩, .inr ⟨_, hqueue, by simp [WorkerPoint.cost], rfl⟩⟩
  case taken i =>
    cases hwork
    unfold release
    split <;> exact ⟨⟨rfl, rfl, id, fun _ => rfl⟩, .inl ⟨rfl, by simp [WorkerPoint.cost]⟩⟩
  case executing i =>
    obtain ⟨operation, -, rfl⟩ := Option.map_eq_some_iff.mp hwork
    exact ⟨⟨rfl, rfl, id, fun hother => absurd hpoint (hother i)⟩,
      .inl ⟨rfl, by simp [execute, WorkerPoint.cost]⟩⟩
  case executed i result =>
    cases hwork
    obtain ⟨hunasked, hqueue, -⟩ := settle_unasked (s := s) (i := i) (r := report result)
    refine ⟨hunasked.goto, .inl ⟨hqueue, ?_⟩⟩
    rw [goto, afterExecution_cost]
    simp [WorkerPoint.cost]
  case closing close failed =>
    split at hwork <;> cases hwork <;>
      exact ⟨⟨rfl, rfl, id, fun _ => rfl⟩, .inl ⟨rfl, by simp [WorkerPoint.cost]⟩⟩
  case publishing close failed =>
    cases hwork
    refine ⟨⟨rfl, rfl, fun _ => ?_, fun _ => rfl⟩, .inl ⟨rfl, by simp [WorkerPoint.cost]⟩⟩
    cases failed <;> simp
  case answering close failed =>
    split at hwork <;> cases hwork <;> split
    · exact ⟨settleClose_unasked.1.goto,
        .inl ⟨settleClose_unasked.2.1, by simp [goto, WorkerPoint.cost]⟩⟩
    · exact ⟨⟨rfl, rfl, id, fun _ => rfl⟩, .inl ⟨rfl, by simp [goto, WorkerPoint.cost]⟩⟩
    · exact ⟨settleClose_unasked.1.goto,
        .inl ⟨settleClose_unasked.2.1, by simp [goto, WorkerPoint.cost]⟩⟩
    · exact ⟨⟨rfl, rfl, id, fun _ => rfl⟩, .inl ⟨rfl, by simp [goto, WorkerPoint.cost]⟩⟩
  case draining =>
    cases hwork
    unfold take
    split
    · exact ⟨⟨rfl, rfl, id, fun _ => rfl⟩, .inl ⟨rfl, by simp [goto, WorkerPoint.cost]⟩⟩
    · next hqueue =>
      exact ⟨⟨rfl, rfl, id, fun _ => rfl⟩, .inr ⟨_, hqueue, by simp [WorkerPoint.cost], rfl⟩⟩
    · next hqueue =>
      exact ⟨⟨rfl, rfl, id, fun _ => rfl⟩, .inr ⟨_, hqueue, by simp [WorkerPoint.cost], rfl⟩⟩
  case drained i =>
    cases hwork
    exact ⟨settle_unasked.1.goto, .inl ⟨settle_unasked.2.1, by simp [goto, WorkerPoint.cost]⟩⟩
  case releasing i =>
    cases hwork
    unfold release
    split <;> exact ⟨⟨rfl, rfl, id, fun _ => rfl⟩, .inl ⟨rfl, by simp [WorkerPoint.cost]⟩⟩
  case drainedClose =>
    cases hwork
    exact ⟨settleClose_unasked.1.goto,
      .inl ⟨settleClose_unasked.2.1, by simp [goto, WorkerPoint.cost]⟩⟩
  case ended => cases hwork

private theorem work_stopped (hstopped : s.Stopped) (hwork : s.work faults = some t) :
    t.Stopped ∧ t.started = s.started := by
  unfold ApplicationSQLite.work at hwork
  cases hpoint : s.point <;> simp only [Stopped, hpoint] at hstopped hwork
  case executed i result =>
    cases result with
    | ok value => exact hstopped.elim
    | error failure =>
      cases hwork
      refine ⟨?_, settle_unasked.2.2⟩
      simp only [afterExecution, hstopped, if_true]
      trivial
  case closing close failed => split at hwork <;> cases hwork <;> exact ⟨trivial, rfl⟩
  case publishing close failed =>
    cases hwork
    exact ⟨trivial, rfl⟩
  case answering close failed =>
    split at hwork <;> cases hwork <;> refine ⟨trivial, ?_⟩ <;> split
    · exact settleClose_unasked.2.2
    · rfl
    · exact settleClose_unasked.2.2
    · rfl
  case draining =>
    cases hwork
    unfold take
    split <;> exact ⟨trivial, rfl⟩
  case drained i =>
    cases hwork
    exact ⟨trivial, settle_unasked.2.2⟩
  case releasing i =>
    cases hwork
    unfold release
    split <;> exact ⟨trivial, rfl⟩
  case drainedClose =>
    cases hwork
    exact ⟨trivial, settleClose_unasked.2.2⟩
  case ended => cases hwork

variable {a : WorkerAction δ} {meets : ApplicationSQLite δ → WorkerAction δ → Prop}
  {actions : List (WorkerAction δ)}

private theorem call_frame (ha : a.isWork = false) (hstep : s.step a = some t) :
    t.point = s.point ∧ t.started = s.started ∧
      (s.state ≠ .opened → t.state ≠ .opened ∧ t.items = s.items) := by
  cases a with
  | submit operation =>
    cases hstep
    obtain ⟨error, heq⟩ | ⟨hopened, -, heq⟩ := submit_cases s operation <;> rw [heq]
    · exact ⟨rfl, rfl, fun hs => ⟨hs, rfl⟩⟩
    · exact ⟨rfl, rfl, fun hs => (hs hopened).elim⟩
  | aclose =>
    cases hstep
    unfold ApplicationSQLite.aclose
    split
    · exact ⟨rfl, rfl, fun hs => ⟨hs, rfl⟩⟩
    · split
      · split <;> exact ⟨rfl, rfl, fun _ => ⟨WorkerState.noConfusion, rfl⟩⟩
      · exact ⟨rfl, rfl, fun hs => ⟨hs, rfl⟩⟩
      · exact ⟨rfl, rfl, fun hs => ⟨hs, rfl⟩⟩
      · exact ⟨rfl, rfl, fun hs => ⟨hs, rfl⟩⟩
  | cancel c =>
    obtain ⟨call, rfl⟩ := cancel_eq hstep
    exact ⟨rfl, rfl, fun hs => ⟨hs, rfl⟩⟩
  | resume c =>
    obtain ⟨call, rfl⟩ := resume_eq hstep
    exact ⟨rfl, rfl, fun hs => ⟨hs, rfl⟩⟩
  | work faults => cases ha

private theorem stopped_run (hstopped : s.Stopped) (hrun : Run step meets s t) :
    t.started = s.started := by
  refine (hrun.invariant (I := fun u => u.Stopped ∧ u.started = s.started) ⟨hstopped, rfl⟩
    fun u a v hu _ hstep => ?_).2
  obtain ⟨hs, hstarted⟩ := hu
  cases htick : a.isWork with
  | false =>
    obtain ⟨hpoint, hv, -⟩ := call_frame htick hstep
    exact ⟨by simpa only [Stopped, hpoint] using hs, hv.trans hstarted⟩
  | true =>
    cases a with
    | work faults => exact (work_stopped hs hstep).imp_right fun hv => hv.trans hstarted
    | _ => cases htick

private theorem closed_run
    (hclosed : s.state ≠ .opened) (hrun : Run step meets s t) : t.items = s.items := by
  refine (hrun.invariant (I := fun u => u.state ≠ .opened ∧ u.items = s.items) ⟨hclosed, rfl⟩
    fun u a v hu _ hstep => ?_).2
  obtain ⟨hs, hitems⟩ := hu
  cases htick : a.isWork with
  | false => exact ((call_frame htick hstep).2.2 hs).imp_right fun hv => hv.trans hitems
  | true =>
    cases a with
    | work faults =>
      have hunasked := (work_queue hstep).1
      exact ⟨hunasked.state hs, hunasked.items.trans hitems⟩
    | _ => cases htick

private theorem Lawful.work_rank (h : s.Lawful) (hknown : s.Known target)
    (hpending : s.reportOf target = none) (hwork : s.work faults = some t) :
    t.rank target < s.rank target := by
  obtain ⟨-, ⟨hqueue, hcost⟩ | ⟨item, hqueue, hcost, hhand⟩⟩ := work_queue hwork
  · simp only [rank, hqueue]
    omega
  · have hitem : precedes target item = true := by
      cases target with
      | close => rfl
      | work i =>
        have hi : i < s.items.length := hknown
        have hle := (h.pending_iff hi).mp hpending
        cases item with
        | work j =>
          have hj := (h.queue_work hhand hqueue).1
          simp only [precedes, decide_eq_true_eq]
          omega
        | close =>
          have hall := (h.queue_close hhand hqueue).1
          omega
    simp only [rank, hqueue, List.countP_cons, hitem, if_true]
    omega

private theorem Lawful.call_rank (h : s.Lawful) (hknown : s.Known target)
    (ha : a.isWork = false) (hstep : s.step a = some t) : t.rank target ≤ s.rank target := by
  cases a with
  | submit operation =>
    cases hstep
    obtain ⟨error, heq⟩ | ⟨hopened, -, heq⟩ := submit_cases s operation <;> rw [heq]
    · exact Nat.le_refl _
    · have hlast : precedes target (.work s.items.length) = false := by
        cases target with
        | work i =>
          have hi : i < s.items.length := hknown
          simpa [precedes] using hi
        | close => simp [Known, h.closeFuture_eq_none hopened] at hknown
      simp [rank, ApplicationSQLite.await, ApplicationSQLite.enqueue, List.countP_append, hlast]
  | aclose =>
    cases hstep
    unfold ApplicationSQLite.aclose
    split
    · exact Nat.le_refl _
    · next hclose =>
      have htarget : ∃ i, target = .work i := by
        cases target with
        | work i => exact ⟨i, rfl⟩
        | close => exact (hclose hknown).elim
      obtain ⟨i, rfl⟩ := htarget
      split
      · split <;> simp [rank, ApplicationSQLite.answer, ApplicationSQLite.await,
          List.countP_append, precedes]
      · exact Nat.le_refl _
      · exact Nat.le_refl _
      · exact Nat.le_refl _
  | cancel c =>
    obtain ⟨call, rfl⟩ := cancel_eq hstep
    exact Nat.le_refl _
  | resume c =>
    obtain ⟨call, rfl⟩ := resume_eq hstep
    exact Nat.le_refl _
  | work faults => cases ha

private theorem Lawful.settles (h : s.Lawful) (hknown : s.Known target)
    (hrun : actions.foldlM ApplicationSQLite.step s = some t)
    (hbound : s.rank target < actions.countP WorkerAction.isWork) :
    (t.reportOf target).isSome := by
  refine Run.done_of_rank (fun u => u.Lawful ∧ u.Known target)
    (fun u => (u.reportOf target).isSome) (fun u => u.rank target) WorkerAction.isWork
    (fun u a v hu hstep => ⟨hu.1.step hstep, (hu.1.step_grows hstep).known hu.2⟩)
    (fun u a v hu hdone hstep => ?_) (fun u a v hu hdone hstep => .inr ?_) ⟨h, hknown⟩ hrun
    (.inr hbound)
  · obtain ⟨r, hr⟩ := Option.isSome_iff_exists.mp hdone
    exact Option.isSome_iff_exists.mpr ⟨r, (hu.1.step_grows hstep).report _ _ hr⟩
  · cases htick : a.isWork with
    | false => exact hu.1.call_rank hu.2 htick hstep
    | true =>
      cases a with
      | work faults => exact hu.1.work_rank hu.2 (by simpa using hdone) hstep
      | _ => cases htick

namespace Lawful

private theorem started_le (h : s.Lawful) : s.started.length ≤ s.items.length := by
  have hplaced := h.placed
  have htaken := h.taken_le
  have hle := h.settlements_le
  unfold takenCount at htaken
  cases hpoint : s.point <;> simp only [hpoint, Placed, WorkerPoint.inHand] at hplaced htaken <;>
    omega

private theorem releases_le (h : s.Lawful) : s.releases.length ≤ s.items.length := by
  have hpermits := h.permits
  have htaken := h.taken_le
  have hahead : s.point.ahead ≤ s.point.inHand := by
    cases s.point <;> simp [WorkerPoint.ahead, WorkerPoint.inHand]
  unfold takenCount at htaken
  omega

private theorem reportOf_iff (h : s.Lawful) :
    s.reportOf (.work i) = some r ↔ (i, r) ∈ s.settlements := by
  constructor
  · intro hr
    rw [reportOf_work] at hr
    by_cases hi : i < s.settlements.length
    · obtain ⟨r', hr', hmem⟩ := h.future_settled hi
      rw [hr] at hr'
      cases hr'
      exact hmem
    · have hlt := (List.getElem?_eq_some_iff.mp hr).1
      rw [h.futures] at hlt
      have := h.settlements_le
      simp only [List.length_append, List.length_map, List.length_replicate] at hlt
      rw [h.future_pending (by omega) (by omega)] at hr
      cases hr
  · intro hmem
    obtain ⟨k, hk, hget⟩ := List.mem_iff_getElem.mp hmem
    have hfst : (s.settlements.map Prod.fst)[k]? = some i := by
      rw [List.getElem?_map, List.getElem?_eq_getElem hk, hget]
      rfl
    rw [h.settled, List.getElem?_range hk] at hfst
    obtain rfl := Option.some.inj hfst
    rw [reportOf_work, h.futures, List.getElem?_append_left (by simpa using hk),
      List.getElem?_map, List.getElem?_eq_getElem hk, hget]
    rfl

private theorem returned (h : s.Lawful) (hi : i < s.settlements.length) :
    i ∈ s.releases ∨ s.point = .releasing i := by
  have hpermits := h.permits
  have hplaced := h.placed
  rw [h.releases, List.mem_range]
  cases hpoint : s.point <;>
    simp only [hpoint, WorkerPoint.owed, WorkerPoint.ahead, Placed] at hpermits hplaced
  case releasing j =>
    by_cases hj : i = j
    · exact .inr (by rw [hj])
    · exact .inl (by omega)
  all_goals exact .inl (by omega)

end Lawful

/-- Every write that was executed has kept to its transaction. -/
def Kept (s : ApplicationSQLite δ) : Prop :=
  ∀ i operation before, s.items[i]? = some operation → s.contents[i]? = some before →
    i + 1 < s.contents.length → operation.KeepsToTransaction before

namespace Lawful

private theorem finishes (h : s.Lawful) (hkept : s.Kept) {cancelled : Bool}
    (hcall : s.calls[c]? = some (.waiting target cancelled))
    (hr : s.reportOf target = some r) : ∃ t outcome, s.resume c = some t ∧
      t.calls[c]? = some (.finished (some target) outcome) := by
  have hlt := (List.getElem?_eq_some_iff.mp hcall).1
  have hwoken : ∃ outcome, s.woken target cancelled r = .finished (some target) outcome := by
    cases r with
    | ok value => exact ⟨_, rfl⟩
    | error error =>
      have hnot : ¬ (s.awaitsOutcome target = true ∧ error = .cancelled) := by
        rintro ⟨hawaits, rfl⟩
        cases target with
        | work i =>
          change s.items[i]?.any Operation.durable = true at hawaits
          cases hitem : s.items[i]? with
          | none => simp [hitem] at hawaits
          | some operation =>
            rw [hitem] at hawaits
            obtain ⟨before, hbefore, hstarted, hkeeps⟩ :=
              (h.reported _ (h.reportOf_iff.1 hr)).cancelled operation hitem hawaits rfl
            exact hkeeps (hkept i operation before hitem hbefore hstarted)
        | close => exact h.answered hr
      exact ⟨_, if_neg hnot⟩
  obtain ⟨outcome, houtcome⟩ := hwoken
  refine ⟨{ s with calls := s.calls.set c (s.woken target cancelled r) }, outcome, ?_, ?_⟩
  · unfold ApplicationSQLite.resume
    rw [hcall]
    simp only [hr, Option.map_some]
  · simp only [houtcome, List.getElem?_set_self hlt]

private theorem traceless (h : s.Lawful) (hkept : s.Kept) {error : ApplicationError}
    {operation : δ → OperationRun δ} (hsettled : (i, .error error) ∈ s.settlements)
    (hitem : s.items[i]? = some (.write operation)) (hstarted : i + 1 < s.contents.length) :
    s.contents[i + 1]? = s.contents[i]? := by
  obtain ⟨before, hbefore, hafter⟩ :=
    (h.reported _ hsettled).error operation error hitem rfl hstarted
  have hkeeps : (operation before).contents = before :=
    (hkept i _ before hitem hbefore hstarted).1
  rw [hkeeps, or_self] at hafter
  rw [hbefore, hafter]

private theorem accountable (h : s.Lawful) (hkept : s.Kept) : s.Accountable where
  started := h.started ▸ range_prefix h.started_le
  settled := h.settled ▸ range_prefix h.settlements_le
  futures := fun _ _ => h.reportOf_iff
  reported := fun i r hmem => h.reported (i, r) hmem
  traceless := fun _ _ _ hsettled hitem hstarted => h.traceless hkept hsettled hitem hstarted
  contents := ⟨h.contents, h.last⟩
  released := h.releases ▸ range_prefix h.releases_le
  capacity := h.capacity
  returned := fun i r hr => h.returned (h.settled_lt (h.reportOf_iff.1 hr))
  ended := fun hpoint => by
    obtain ⟨hall, hclose⟩ := h.idle (.inr hpoint)
    have hpermits := h.permits
    rw [hpoint] at hpermits
    exact ⟨hall.symm, by simpa [hall, WorkerPoint.owed, WorkerPoint.ahead] using hpermits, hclose⟩
  stopped := fun hstopped _ hrun => stopped_run hstopped hrun
  closed := fun hclosed _ hrun => closed_run hclosed hrun
  honest := h.calls
  working := fun _ hknown hpending faults => h.working hknown hpending faults
  settles := fun target hknown => ⟨s.rank target + 1, fun _ _ hrun hbound =>
    h.settles hknown hrun hbound⟩
  finishes := fun _ _ _ _ hcall hr => h.finishes hkept hcall hr

end Lawful

/-- The write that a step executes keeps to its transaction. -/
def KeepsToTransactions (s : ApplicationSQLite δ) : WorkerAction δ → Prop
  | .work _ => ∀ i operation, s.point = .executing i → s.items[i]? = some operation →
      operation.KeepsToTransaction s.database.contents
  | _ => True

private theorem step_contents (hstep : s.step a = some t) :
    t.contents = s.contents ∨ ∃ faults i operation, a = .work faults ∧ s.point = .executing i ∧
      s.items[i]? = some operation ∧ t = s.execute faults i operation := by
  cases a with
  | submit operation =>
    cases hstep
    obtain ⟨error, heq⟩ | ⟨-, -, heq⟩ := submit_cases s operation <;> rw [heq] <;> exact .inl rfl
  | aclose =>
    cases hstep
    refine .inl ?_
    unfold aclose
    split
    · rfl
    · split
      · split <;> rfl
      all_goals rfl
  | cancel c =>
    obtain ⟨call, rfl⟩ := cancel_eq hstep
    exact .inl rfl
  | resume c =>
    obtain ⟨call, rfl⟩ := resume_eq hstep
    exact .inl rfl
  | work faults =>
    cases hpoint : s.point with
    | executing i =>
      change s.work faults = some t at hstep
      unfold ApplicationSQLite.work at hstep
      rw [hpoint] at hstep
      obtain ⟨operation, hitem, rfl⟩ := Option.map_eq_some_iff.mp hstep
      exact .inr ⟨faults, i, operation, rfl, rfl, hitem, rfl⟩
    | _ => exact .inl ((work_queue hstep).1.contents (by simp [hpoint]))

private theorem Kept.step {a : WorkerAction δ} (hkept : s.Kept) (h : s.Lawful)
    (hmeets : s.KeepsToTransactions a) (hstep : s.step a = some t) : t.Kept := by
  have hstarted := h.started_le
  have hlength := h.contents
  intro i operation before hitem hbefore hlt
  have hsame (hi : i < s.items.length) : s.items[i]? = some operation := by
    obtain ⟨rest, hrest⟩ := (h.step_grows hstep).items
    rwa [← hrest, List.getElem?_append_left hi] at hitem
  rcases step_contents hstep with hcontents | ⟨faults, j, executed, rfl, hpoint, -, rfl⟩
  · rw [hcontents] at hbefore hlt
    exact hkept i operation before (hsame (by omega)) hbefore hlt
  · have hplaced := h.placed
    rw [hpoint] at hplaced
    obtain ⟨-, hsettled, hj⟩ := hplaced
    change (s.contents ++ [_])[i]? = some before at hbefore
    change i + 1 < (s.contents ++ [_]).length at hlt
    rw [List.length_append, List.length_singleton] at hlt
    rw [List.getElem?_append_left (by omega)] at hbefore
    by_cases hi : i = j
    · subst hi
      have hlast := h.last
      rw [List.getLast?_eq_getElem?, hlength, Nat.add_sub_cancel, hsettled, ← hj, hbefore] at hlast
      rw [Option.some.inj hlast]
      exact hmeets i operation hpoint hitem
    · exact hkept i operation before (hsame (by omega)) hbefore (by omega)

private theorem step_items (hstep : s.step a = some t) :
    t.items = s.items ∨ ∃ operation, a = .submit operation ∧ t.items = s.items ++ [operation] := by
  cases a with
  | submit operation =>
    cases hstep
    obtain ⟨error, heq⟩ | ⟨-, -, heq⟩ := submit_cases s operation <;> rw [heq]
    · exact .inl rfl
    · exact .inr ⟨operation, rfl, rfl⟩
  | aclose =>
    cases hstep
    unfold aclose
    refine .inl ?_
    split
    · rfl
    · split
      · split <;> rfl
      all_goals rfl
  | cancel c =>
    obtain ⟨call, rfl⟩ := cancel_eq hstep
    exact .inl rfl
  | resume c =>
    obtain ⟨call, rfl⟩ := resume_eq hstep
    exact .inl rfl
  | work faults => exact .inl (work_queue hstep).1.items

private theorem run_keepsToTransactions
    (hitems : ∀ operation ∈ s.items, ∀ contents, operation.KeepsToTransaction contents)
    (hactions : ∀ operation, .submit operation ∈ actions →
      ∀ contents, operation.KeepsToTransaction contents)
    (hrun : actions.foldlM step s = some t) : Run step KeepsToTransactions s t := by
  induction actions generalizing s with
  | nil =>
    cases hrun
    exact .start
  | cons a rest ih =>
    rw [List.foldlM_cons] at hrun
    obtain ⟨u, ha, hrest⟩ := Option.bind_eq_some_iff.mp hrun
    have hmeets : s.KeepsToTransactions a := by
      cases a with
      | work faults =>
        exact fun i operation _ hitem => hitems operation (List.mem_of_getElem? hitem) _
      | _ => trivial
    refine (Run.single hmeets ha).trans (ih (fun operation hmem => ?_) (fun operation hmem =>
      hactions operation (List.mem_cons_of_mem _ hmem)) hrest)
    obtain hsame | ⟨submitted, rfl, hadded⟩ := step_items ha
    · exact hitems operation (hsame ▸ hmem)
    · rw [hadded] at hmem
      obtain hmem | hmem := List.mem_append.mp hmem
      · exact hitems operation hmem
      · rw [List.mem_singleton.mp hmem]
        exact hactions submitted List.mem_cons_self

private theorem submit_calls (operation : Operation δ) :
    ∃ call, (s.submit operation).calls = s.calls ++ [call] := by
  obtain ⟨error, heq⟩ | ⟨-, -, heq⟩ := submit_cases s operation <;> rw [heq] <;> exact ⟨_, rfl⟩

private theorem aclose_calls : ∃ call, s.aclose.calls = s.calls ++ [call] := by
  unfold aclose
  split
  · exact ⟨_, rfl⟩
  · split
    · split <;> exact ⟨_, rfl⟩
    all_goals exact ⟨_, rfl⟩

/-- A call that is told a cancellation its operation has raised waits in every later state. -/
theorem Lawful.waits_forever (h : s.Lawful) (hknown : s.Known target)
    (hawaits : s.awaitsOutcome target = true) (hr : s.reportOf target = some (.error .cancelled))
    {cancelled : Bool} (hcall : s.calls[c]? = some (.waiting target cancelled))
    (hrun : Run ApplicationSQLite.step (fun _ _ => True) s t) :
    ∃ cancelled, t.calls[c]? = some (.waiting target cancelled) := by
  refine (hrun.invariant (I := fun u : ApplicationSQLite δ => u.Lawful ∧ u.Known target ∧
    u.awaitsOutcome target = true ∧ u.reportOf target = some (.error .cancelled) ∧
    ∃ cancelled, u.calls[c]? = some (.waiting target cancelled))
    ⟨h, hknown, hawaits, hr, cancelled, hcall⟩ fun u a v hu _ hstep => ?_).2.2.2.2
  obtain ⟨hlawful, hknown, hawaits, hr, cancelled, hcall⟩ := hu
  have hgrows := hlawful.step_grows hstep
  refine ⟨hlawful.step hstep, hgrows.known hknown, ?_, hgrows.report _ _ hr, ?_⟩
  · rw [hgrows.awaitsOutcome hknown, hawaits]
  · have hc := (List.getElem?_eq_some_iff.mp hcall).1
    cases a with
    | submit operation =>
      cases hstep
      obtain ⟨call, hcalls⟩ := submit_calls (s := u) operation
      exact ⟨cancelled, by rw [hcalls, List.getElem?_append_left hc, hcall]⟩
    | aclose =>
      cases hstep
      obtain ⟨call, hcalls⟩ := aclose_calls (s := u)
      exact ⟨cancelled, by rw [hcalls, List.getElem?_append_left hc, hcall]⟩
    | cancel d =>
      obtain ⟨call, hv⟩ := cancel_eq hstep
      by_cases hd : d = c
      · subst hd
        change u.cancel d = some v at hstep
        simp only [ApplicationSQLite.cancel, hcall, hawaits, if_true, Option.some.injEq] at hstep
        subst hstep
        exact ⟨true, by simp [List.getElem?_set_self hc]⟩
      · subst hv
        exact ⟨cancelled, by simp only [List.getElem?_set_ne hd, hcall]⟩
    | resume d =>
      obtain ⟨call, hv⟩ := resume_eq hstep
      by_cases hd : d = c
      · subst hd
        change u.resume d = some v at hstep
        simp only [ApplicationSQLite.resume, hcall, hr, Option.map_some, woken, hawaits, and_self,
          if_true, Option.some.injEq] at hstep
        subst hstep
        exact ⟨true, by simp [List.getElem?_set_self hc]⟩
      · subst hv
        exact ⟨cancelled, by simp only [List.getElem?_set_ne hd, hcall]⟩
    | work faults => exact ⟨cancelled, by rw [(work_queue hstep).1.calls, hcall]⟩

end ApplicationSQLite

/-- In every run in which the writes keep to their transactions the worker accounts for every
call. -/
theorem sqlite_worker_settles {δ : Type} {home queueCapacity : Nat} {contents : δ}
    {s t : ApplicationSQLite δ}
    (hcreate : ApplicationSQLite.create home queueCapacity contents = some s)
    (hrun : Run ApplicationSQLite.step ApplicationSQLite.KeepsToTransactions s t) :
    t.Accountable := by
  have hstart : s.Kept := by
    unfold ApplicationSQLite.create at hcreate
    split at hcreate <;> cases hcreate
    intro i operation before hitem
    cases hitem
  have hinvariant : t.Lawful ∧ t.Kept := hrun.invariant (I := fun u => u.Lawful ∧ u.Kept)
    ⟨ApplicationSQLite.lawful_create hcreate, hstart⟩
    fun _ _ _ hu hmeets hstep => ⟨hu.1.step hstep, hu.2.step hu.1 hmeets hstep⟩
  exact hinvariant.1.accountable hinvariant.2

/-- So many steps of the worker thread at which nothing fails. -/
def workSteps (n : Nat) : List (WorkerAction Nat) := List.replicate n (.work .absent)

/-- The rollback of a failed write fails while another write and a close are queued. -/
def fatalRun : List (WorkerAction Nat) :=
  [.submit .initializeState] ++ workSteps 4 ++
    [.submit (.write fun n => ⟨n, .holding (n + 1), .error (.raised 7)⟩)] ++ workSteps 2 ++
    [.submit (.write fun n => ⟨n, .holding (n + 2), .ok (.scalar 0)⟩), .aclose,
      .work { Faults.absent with rollbackFails := true }] ++ workSteps 10 ++
    [.resume 1, .resume 2, .resume 3]

/-- A fatal failure settles every future, and nothing is committed. -/
theorem sqlite_worker_settles_fatal : ∃ t : ApplicationSQLite Nat,
    (t.started, t.commits, t.settlements.map Prod.fst, t.releases, t.contents, t.capacity) =
      ([0, 1], [], [0, 1, 2], [0, 1, 2], [0, 0, 0], 1) ∧ t.Accountable := by
  have hsample : ((ApplicationSQLite.create 0 1 0).bind fun s =>
      (fatalRun.foldlM ApplicationSQLite.step s).map fun t =>
        (t.started, t.commits, t.settlements.map Prod.fst, t.releases, t.contents, t.capacity)) =
      some ([0, 1], [], [0, 1, 2], [0, 1, 2], [0, 0, 0], 1) := rfl
  obtain ⟨s, hcreate, hrun⟩ := Option.bind_eq_some_iff.mp hsample
  obtain ⟨t, ht, hfacts⟩ := Option.map_eq_some_iff.mp hrun
  have hitems : s.items = [] := by
    cases hcreate
    rfl
  refine ⟨t, hfacts, sqlite_worker_settles hcreate
    (ApplicationSQLite.run_keepsToTransactions (by simp [hitems]) (fun operation hmem => ?_) ht)⟩
  have hwrites : operation = .initializeState ∨
      ∃ more result, operation = .write (fun n => ⟨n, .holding (n + more), result⟩) ∧
        result ≠ .error .cancelled := by
    simp only [fatalRun, workSteps, List.mem_append, List.mem_cons, List.mem_replicate,
      WorkerAction.submit.injEq, reduceCtorEq, and_false, List.not_mem_nil,
      or_false] at hmem
    rcases hmem with (rfl | rfl) | rfl
    · exact .inl rfl
    · exact .inr ⟨1, .error (.raised 7), rfl, by simp⟩
    · exact .inr ⟨2, .ok (.scalar 0), rfl, by simp⟩
  rcases hwrites with rfl | ⟨more, result, rfl, hresult⟩
  · exact fun _ => trivial
  · exact fun contents => ⟨rfl, hresult⟩

/-- A write whose operation raises a cancellation. -/
def cancelledWrite : List (WorkerAction Nat) :=
  [.submit .initializeState] ++ workSteps 4 ++
    [.submit (.write fun n => ⟨n, .holding (n + 1), .error .cancelled⟩)] ++ workSteps 4

/-- A caller whose write raised a cancellation waits for ever, although the future is settled. -/
theorem sqlite_worker_hangs : ∃ s t : ApplicationSQLite Nat,
    ApplicationSQLite.create 0 1 0 = some s ∧
      Run ApplicationSQLite.step (fun _ _ => True) s t ∧ ¬ t.Accountable ∧
      ∀ u, Run ApplicationSQLite.step (fun _ _ => True) t u →
        ∃ cancelled, u.calls[1]? = some (.waiting (.work 1) cancelled) := by
  have hsample : ((ApplicationSQLite.create 0 1 0).bind fun s =>
      (cancelledWrite.foldlM ApplicationSQLite.step s).map fun t =>
        (t.calls[1]?, t.reportOf (.work 1), t.awaitsOutcome (.work 1), t.items.length)) =
      some (some (.waiting (.work 1) false), some (.error .cancelled), true, 2) := rfl
  obtain ⟨s, hcreate, hrun⟩ := Option.bind_eq_some_iff.mp hsample
  obtain ⟨t, ht, hfacts⟩ := Option.map_eq_some_iff.mp hrun
  obtain ⟨hcall, hr, hawaits, hitems⟩ : t.calls[1]? = some (.waiting (.work 1) false) ∧
      t.reportOf (.work 1) = some (.error .cancelled) ∧ t.awaitsOutcome (.work 1) = true ∧
      t.items.length = 2 := by
    simpa only [Prod.mk.injEq] using hfacts
  have hreached : Run ApplicationSQLite.step (fun _ _ => True) s t :=
    Run.of_actions ht fun _ _ _ => trivial
  have hlawful : t.Lawful := hreached.invariant (I := ApplicationSQLite.Lawful)
    (ApplicationSQLite.lawful_create hcreate) fun _ _ _ hu _ hstep => hu.step hstep
  have hknown : t.Known (.work 1) := by
    change 1 < t.items.length
    omega
  have hforever : ∀ u, Run ApplicationSQLite.step (fun _ _ => True) t u →
      ∃ cancelled, u.calls[1]? = some (.waiting (.work 1) cancelled) :=
    fun u hu => hlawful.waits_forever hknown hawaits hr hcall hu
  refine ⟨s, t, hcreate, hreached, fun haccountable => ?_, hforever⟩
  obtain ⟨u, outcome, hresume, hfinished⟩ := haccountable.finishes 1 _ _ _ hcall hr
  obtain ⟨cancelled, hwaiting⟩ := hforever u (.single (a := .resume 1) trivial hresume)
  rw [hfinished] at hwaiting
  cases hwaiting

/-- A write whose operation ends its transaction itself and then raises. -/
def committedWrite : List (WorkerAction Nat) :=
  [.submit .initializeState] ++ workSteps 4 ++
    [.submit (.write fun n => ⟨n + 1, .idle, .error (.raised 7)⟩)] ++ workSteps 4

private theorem sqlite_worker_leaves_trace : ∃ s t : ApplicationSQLite Nat,
    ApplicationSQLite.create 0 1 0 = some s ∧
      Run ApplicationSQLite.step (fun _ _ => True) s t ∧ ¬ t.Accountable ∧
      (1, .error (.raised 7)) ∈ t.settlements ∧ t.database.contents = 1 := by
  have hsample : ((ApplicationSQLite.create 0 1 0).bind fun s =>
      (committedWrite.foldlM ApplicationSQLite.step s).map fun t =>
        (t.settlements, t.contents, t.database.contents, t.items[1]?)) =
      some ([(0, .ok (.scalar 0)), (1, .error (.raised 7))], [0, 0, 1], 1,
        some (.write fun n => ⟨n + 1, .idle, .error (.raised 7)⟩)) := rfl
  obtain ⟨s, hcreate, hrun⟩ := Option.bind_eq_some_iff.mp hsample
  obtain ⟨t, ht, hfacts⟩ := Option.map_eq_some_iff.mp hrun
  simp only [Prod.mk.injEq] at hfacts
  obtain ⟨hsettlements, hcontents, hdatabase, hitem⟩ := hfacts
  have hsettled : (1, .error (.raised 7)) ∈ t.settlements := by
    rw [hsettlements]
    exact List.mem_cons_of_mem _ (List.mem_singleton_self _)
  refine ⟨s, t, hcreate, Run.of_actions ht fun _ _ _ => trivial, fun haccountable => ?_, hsettled,
    hdatabase⟩
  have hsame := haccountable.traceless 1 _ _ hsettled hitem (by simp [hcontents])
  simp [hcontents] at hsame

end AwesomeAgent.Storage
