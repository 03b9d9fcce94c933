import AwesomeAgent.Storage.Worker
import Mathlib.Data.List.Range

/-!
# Invariants of the SQLite worker

Operations are numbered in the order of their admission. The queue is first in, first
out, so that everything the worker has done is a prefix of what was admitted: what it has
started, settled and given back differ by the operation in hand only.
-/

namespace AwesomeAgent.Storage

namespace WorkerPoint

/-- How many operations are in hand whose future is not settled. -/
def inHand : WorkerPoint → Nat
  | taken _ | executing _ | executed _ _ | drained _ => 1
  | _ => 0

/-- How many permits were given back before their future is settled. -/
def ahead : WorkerPoint → Nat
  | executing _ | executed _ _ => 1
  | _ => 0

/-- How many permits are held although their future is settled. -/
def owed : WorkerPoint → Nat
  | releasing _ => 1
  | _ => 0

/-- Does the worker hold the close sentinel? -/
def holdsClose : WorkerPoint → Bool
  | closing close _ | publishing close _ | answering close _ => close
  | drainedClose => true
  | _ => false

end WorkerPoint

namespace ApplicationSQLite

variable {δ : Type}

/-- How many operations the worker has taken from the queue. -/
def takenCount (s : ApplicationSQLite δ) : Nat := s.settlements.length + s.point.inHand

/-- Is the close future pending? -/
def closePending (s : ApplicationSQLite δ) : Bool :=
  match s.closeFuture with
  | some none => true
  | _ => false

/-- The close sentinel while it is in the queue. -/
def sentinel (s : ApplicationSQLite δ) : List QueueItem :=
  bif s.closePending && !s.point.holdsClose then [.close] else []

/-- The worker admits operations, or it is closing and the close future is pending. -/
def InLoop (s : ApplicationSQLite δ) : Prop :=
  s.state = .opened ∧ s.closeFuture = none ∨ s.state = .closing ∧ s.closePending = true

/-- A report says whether the operation committed. If it is an error, the database has what it had
or what the operation left outside its transaction; a call that awaits the outcome sees a
cancellation only if the operation raised one. -/
structure Reported (items : List (Operation δ)) (commits : List Nat) (contents : List δ)
    (i : Nat) (r : Report) : Prop where
  committed : ∀ operation, items[i]? = some (.write operation) →
    ((∃ value, r = .ok value) ↔ i ∈ commits)
  value : ∀ operation value, items[i]? = some (.write operation) → r = .ok value →
    ∃ before after, contents[i]? = some before ∧ contents[i + 1]? = some after ∧
      (operation before).result = .ok value ∧ (operation before).connection = .holding after
  error : ∀ operation error, items[i]? = some (.write operation) → r = .error error →
    i + 1 < contents.length → ∃ before, contents[i]? = some before ∧
      (contents[i + 1]? = some before ∨ contents[i + 1]? = some (operation before).contents)
  cancelled : ∀ operation, items[i]? = some operation → operation.durable = true →
    r = .error .cancelled → ∃ before, contents[i]? = some before ∧ i + 1 < contents.length ∧
      ¬ operation.KeepsToTransaction before

/-- What holds of the worker at a point of its thread. -/
def Placed (s : ApplicationSQLite δ) : WorkerPoint → Prop
  | .waiting => s.InLoop ∧ s.started.length = s.settlements.length
  | .taken i => s.InLoop ∧ s.started.length = s.settlements.length ∧ i = s.settlements.length
  | .executing i => s.InLoop ∧ s.started.length = s.settlements.length ∧ i = s.settlements.length
  | .executed i result => s.InLoop ∧ s.started.length = s.settlements.length + 1 ∧
      i = s.settlements.length ∧ Reported s.items s.commits s.contents i (report result)
  | .closing close failed | .publishing close failed => s.InLoop ∧
      s.started.length ≤ s.settlements.length ∧ (close = false → failed = true) ∧
      (close = true → s.state = .closing ∧ s.items.length = s.settlements.length)
  | .answering close failed => s.state = (if failed then .failed else .closed) ∧
      s.started.length ≤ s.settlements.length ∧ (close = false → failed = true) ∧
      (close = true → s.closePending = true ∧ s.items.length = s.settlements.length)
  | .draining => s.state = .failed ∧ s.started.length ≤ s.settlements.length
  | .drained i => s.state = .failed ∧ s.started.length ≤ s.settlements.length ∧
      i = s.settlements.length
  | .releasing i => s.state = .failed ∧ s.started.length ≤ s.settlements.length ∧
      i + 1 = s.settlements.length
  | .drainedClose => s.state = .failed ∧ s.started.length ≤ s.settlements.length ∧
      s.closePending = true ∧ s.items.length = s.settlements.length
  | .ended => (s.state = .closed ∨ s.state = .failed) ∧
      s.started.length ≤ s.settlements.length ∧ s.items.length = s.settlements.length ∧
      s.closePending = false

/-- Is there such a future? -/
def Known (s : ApplicationSQLite δ) : QueueItem → Prop
  | .work i => i < s.items.length
  | .close => s.closeFuture.isSome

/-- A call that has ended tells what its future was settled with. -/
def Honest (s : ApplicationSQLite δ) : Call → Prop
  | .waiting target _ => s.Known target
  | .finished none _ => True
  | .finished (some target) (.returned value) => s.reportOf target = some (.ok value) ∨
      target = .close ∧ s.reportOf .close = some (.error .unavailable) ∧ s.state = .failed
  | .finished (some target) (.raised error) => s.reportOf target = some (.error error)
  | .finished (some target) .cancelled => s.Known target ∧
      (s.awaitsOutcome target = true → (s.reportOf target).isSome)

/-- The invariant of the worker. -/
structure Lawful (s : ApplicationSQLite δ) : Prop where
  settled : s.settlements.map Prod.fst = List.range s.settlements.length
  futures : s.futures = s.settlements.map (fun e => some e.2) ++
    List.replicate (s.items.length - s.settlements.length) none
  queue : s.queue = ((List.range s.items.length).drop s.takenCount).map .work ++ s.sentinel
  taken_le : s.takenCount ≤ s.items.length
  releases : s.releases = List.range s.releases.length
  permits : s.releases.length + s.point.owed = s.settlements.length + s.point.ahead
  capacity : s.capacity + s.items.length = s.queueCapacity + s.releases.length
  started : s.started = List.range s.started.length
  contents : s.contents.length = s.started.length + 1
  last : s.contents.getLast? = some s.database.contents
  commits : ∀ i ∈ s.commits, i < s.started.length
  reported : ∀ e ∈ s.settlements, Reported s.items s.commits s.contents e.1 e.2
  answered : s.reportOf .close ≠ some (.error .cancelled)
  placed : s.Placed s.point
  calls : ∀ call ∈ s.calls, s.Honest call

variable {s t : ApplicationSQLite δ} {i : Nat} {r : Report} {point next : WorkerPoint}
  {faults : Faults δ}

/-- What was reported stays true when more is submitted. -/
theorem Reported.append {items : List (Operation δ)} {commits : List Nat} {contents : List δ}
    (h : Reported items commits contents i r) (hi : i < items.length) (operation : Operation δ) :
    Reported (items ++ [operation]) commits contents i r := by
  have hitem : (items ++ [operation])[i]? = items[i]? := List.getElem?_append_left hi
  refine ⟨?_, ?_, ?_, ?_⟩ <;> rw [hitem]
  · exact h.committed
  · exact h.value
  · exact h.error
  · exact h.cancelled

/-- What no step takes back. -/
structure Grows (s t : ApplicationSQLite δ) : Prop where
  items : s.items <+: t.items
  report : ∀ target r, s.reportOf target = some r → t.reportOf target = some r
  close : s.closeFuture.isSome → t.closeFuture.isSome
  failed : s.state = .failed → t.state = .failed

namespace Grows

/-- A known item stays known. -/
theorem known (h : Grows s t) {target : QueueItem} (hknown : s.Known target) :
    t.Known target := by
  cases target with
  | work i => exact Nat.lt_of_lt_of_le hknown h.items.length_le
  | close => exact h.close hknown

/-- Whether a call awaits the outcome of an item does not change. -/
theorem awaitsOutcome (h : Grows s t) {target : QueueItem} (hknown : s.Known target) :
    t.awaitsOutcome target = s.awaitsOutcome target := by
  cases target with
  | work i =>
    obtain ⟨rest, hrest⟩ := h.items
    have hi : i < s.items.length := hknown
    unfold ApplicationSQLite.awaitsOutcome
    simp only
    rw [← hrest, List.getElem?_append_left hi]
  | close => rfl

/-- An honest call stays honest. -/
theorem honest (h : Grows s t) {call : Call} (hcall : s.Honest call) : t.Honest call := by
  cases call with
  | waiting target cancelled => exact h.known hcall
  | finished target outcome =>
    cases target with
    | none => trivial
    | some target =>
      cases outcome with
      | returned value =>
        obtain hvalue | ⟨htarget, hreport, hstate⟩ := hcall
        · exact .inl (h.report _ _ hvalue)
        · exact .inr ⟨htarget, h.report _ _ hreport, h.failed hstate⟩
      | raised error => exact h.report _ _ hcall
      | cancelled =>
        refine ⟨h.known hcall.1, fun hawaits => ?_⟩
        rw [h.awaitsOutcome hcall.1] at hawaits
        obtain ⟨r, hr⟩ := Option.isSome_iff_exists.mp (hcall.2 hawaits)
        exact Option.isSome_iff_exists.mpr ⟨r, h.report _ _ hr⟩

end Grows

namespace Lawful

/-- A settlement is of an operation that was settled. -/
theorem settled_lt (h : s.Lawful) {e : Nat × Report} (he : e ∈ s.settlements) :
    e.1 < s.settlements.length := by
  have hmem : e.1 ∈ s.settlements.map Prod.fst := List.mem_map_of_mem he
  rw [h.settled] at hmem
  exact List.mem_range.mp hmem

/-- No more operations are settled than were submitted. -/
theorem settlements_le (h : s.Lawful) : s.settlements.length ≤ s.items.length :=
  (Nat.le_add_right _ _).trans h.taken_le

/-- The futures before the operation in hand are settled and the others are pending. -/
theorem future_pending (h : s.Lawful) (hi : s.settlements.length ≤ i) (hn : i < s.items.length) :
    s.futures[i]? = some none := by
  rw [h.futures, List.getElem?_append_right (by simpa using hi), List.length_map,
    List.getElem?_replicate, if_pos (by omega)]

/-- The future of a settled operation has its report. -/
theorem future_settled (h : s.Lawful) (hi : i < s.settlements.length) :
    ∃ r, s.futures[i]? = some (some r) ∧ (i, r) ∈ s.settlements := by
  refine ⟨(s.settlements[i]).2, ?_, ?_⟩
  · rw [h.futures, List.getElem?_append_left (by simpa using hi), List.getElem?_map,
      List.getElem?_eq_getElem hi]
    rfl
  · have hfst : (s.settlements[i]).1 = i := by
      have hget : (s.settlements.map Prod.fst)[i]? = (List.range s.settlements.length)[i]? := by
        rw [h.settled]
      rw [List.getElem?_map, List.getElem?_eq_getElem hi, List.getElem?_range hi] at hget
      exact Option.some.inj hget
    have hmem := List.getElem_mem hi
    rwa [← Prod.eta s.settlements[i], hfst] at hmem

end Lawful

end ApplicationSQLite

end AwesomeAgent.Storage
