import AwesomeAgent.Storage.WorkerInvariants

/-!
# Steps of the SQLite worker

Every step of a caller and of the worker thread keeps the invariant and takes nothing
back that a future or a call has been told.
-/

namespace AwesomeAgent.Storage.ApplicationSQLite

variable {δ : Type} {s t : ApplicationSQLite δ} {i : Nat} {r : Report}
  {point next : WorkerPoint} {faults : Faults δ}

private theorem Grows.ofCalls (calls : List Call) : Grows s { s with calls := calls } where
  items := List.prefix_rfl
  report := fun _ _ h => h
  close := fun h => h
  failed := fun h => h

private theorem Grows.refl : Grows s s where
  items := List.prefix_rfl
  report := fun _ _ h => h
  close := fun h => h
  failed := fun h => h

private theorem Grows.trans {u : ApplicationSQLite δ} (h : Grows s t) (h' : Grows t u) :
    Grows s u where
  items := h.items.trans h'.items
  report := fun target r hr => h'.report target r (h.report target r hr)
  close := fun hs => h'.close (h.close hs)
  failed := fun hs => h'.failed (h.failed hs)

private theorem sentinel_eq_nil (hclose : s.closePending = false) : s.sentinel = [] := by
  simp [sentinel, hclose]

namespace Lawful

private theorem withCalls (h : s.Lawful) {calls : List Call}
    (hcalls : ∀ call ∈ calls, s.Honest call) :
    Lawful { s with calls := calls } :=
  { h with calls := fun call hcall => (Grows.ofCalls calls).honest (hcalls call hcall) }

private theorem answer (h : s.Lawful) {outcome : CallOutcome} : (s.answer outcome).Lawful := by
  refine h.withCalls fun call hcall => ?_
  obtain hcall | hcall := List.mem_append.mp hcall
  · exact h.calls call hcall
  · rw [List.mem_singleton.mp hcall]
    trivial

private theorem await (h : s.Lawful) {target : QueueItem} (hknown : s.Known target) :
    (s.await target).Lawful := by
  refine h.withCalls fun call hcall => ?_
  obtain hcall | hcall := List.mem_append.mp hcall
  · exact h.calls call hcall
  · rw [List.mem_singleton.mp hcall]
    exact hknown

private theorem setCall (h : s.Lawful) {c : Nat} (call : Call) (hcall : s.Honest call) :
    Lawful { s with calls := s.calls.set c call } := by
  refine h.withCalls fun other hother => ?_
  obtain hmem | rfl := List.mem_or_eq_of_mem_set hother
  · exact h.calls other hmem
  · exact hcall

private theorem capacity_lt (h : s.Lawful) (hlt : s.releases.length < s.items.length) :
    s.capacity < s.queueCapacity := by
  have := h.capacity
  omega

private theorem queue_length (h : s.Lawful) :
    s.queue.length = s.items.length - s.takenCount + s.sentinel.length := by
  rw [h.queue]
  simp

end Lawful

/-- The report of an operation is that of its future. -/
theorem reportOf_work : s.reportOf (.work i) = some r ↔ s.futures[i]? = some (some r) :=
  Option.join_eq_some_iff

private theorem enqueue_grows (operation : Operation δ) : Grows s (s.enqueue operation) where
  items := ⟨[operation], rfl⟩
  report := fun target r hr => by
    cases target with
    | work i =>
      rw [reportOf_work] at hr ⊢
      have hi := (List.getElem?_eq_some_iff.mp hr).1
      change (s.futures ++ [none])[i]? = _
      rw [List.getElem?_append_left hi, hr]
    | close => exact hr
  close := fun h => h
  failed := fun h => h

/-- While operations are admitted nobody has asked to close. -/
theorem Lawful.closeFuture_eq_none (h : s.Lawful) (hopened : s.state = .opened) :
    s.closeFuture = none := by
  have hplaced := h.placed
  cases hpoint : s.point with
  | answering close failed =>
    rw [hpoint] at hplaced
    cases failed <;> simp [Placed, hopened] at hplaced
  | _ =>
    rw [hpoint] at hplaced
    simp_all [Placed, InLoop]

private theorem Lawful.placed_enqueue (h : s.Lawful) (hopened : s.state = .opened)
    (operation : Operation δ) : (s.enqueue operation).Placed s.point := by
  have hplaced := h.placed
  cases hpoint : s.point with
  | executed i result =>
    rw [hpoint] at hplaced
    obtain ⟨hloop, hstarted, hi, hreported⟩ := hplaced
    have hlt := h.taken_le
    simp only [takenCount, hpoint, WorkerPoint.inHand] at hlt
    exact ⟨hloop, hstarted, hi, hreported.append (by omega) operation⟩
  | answering close failed =>
    rw [hpoint] at hplaced
    cases failed <;> simp [Placed, hopened] at hplaced
  | _ =>
    rw [hpoint] at hplaced
    simp_all [Placed, InLoop, ApplicationSQLite.enqueue, closePending]

/-- Admitting an operation keeps the invariant. -/
theorem Lawful.enqueue (h : s.Lawful) (hopened : s.state = .opened) (hcapacity : s.capacity ≠ 0)
    (operation : Operation δ) : (s.enqueue operation).Lawful where
  settled := h.settled
  futures := by
    have hle := h.settlements_le
    change s.futures ++ [none] = _ ++
      List.replicate ((s.items ++ [operation]).length - s.settlements.length) none
    rw [h.futures, List.append_assoc, List.length_append, List.length_singleton,
      Nat.sub_add_comm hle, List.replicate_succ']
    rfl
  queue := by
    have hclose : s.closePending = false := by
      simp [closePending, h.closeFuture_eq_none hopened]
    have hsentinel : (s.enqueue operation).sentinel = [] := sentinel_eq_nil hclose
    have hqueue := h.queue
    rw [sentinel_eq_nil hclose, List.append_nil] at hqueue
    rw [hsentinel, List.append_nil]
    change s.queue ++ [.work s.items.length] =
      ((List.range (s.items ++ [operation]).length).drop s.takenCount).map .work
    rw [List.length_append, List.length_singleton, List.range_succ, List.drop_append_of_le_length
      (by simpa using h.taken_le), List.map_append, hqueue]
    rfl
  taken_le := by
    have := h.taken_le
    simp only [takenCount, ApplicationSQLite.enqueue, List.length_append] at this ⊢
    omega
  releases := h.releases
  permits := h.permits
  capacity := by
    have := h.capacity
    simp only [ApplicationSQLite.enqueue, List.length_append, List.length_singleton]
    omega
  started := h.started
  contents := h.contents
  last := h.last
  commits := h.commits
  reported := fun e he =>
    (h.reported e he).append ((h.settled_lt he).trans_le h.settlements_le) operation
  answered := h.answered
  placed := h.placed_enqueue hopened operation
  calls := fun call hcall => (enqueue_grows operation).honest (h.calls call hcall)

/-- A call that hands over an operation is refused, or the operation is admitted. -/
theorem submit_cases (s : ApplicationSQLite δ) (operation : Operation δ) :
    (∃ error, s.submit operation = s.answer (.raised error)) ∨
      s.state = .opened ∧ s.capacity ≠ 0 ∧
        s.submit operation = (s.enqueue operation).await (.work s.items.length) := by
  unfold submit
  split
  · exact .inl ⟨_, rfl⟩
  · split
    · exact .inl ⟨_, rfl⟩
    · split
      · exact .inl ⟨_, rfl⟩
      · next hopened =>
        split
        · exact .inl ⟨_, rfl⟩
        · next hcapacity =>
          split
          · exact .inl ⟨_, rfl⟩
          · exact .inr ⟨not_not.mp hopened, hcapacity, rfl⟩

private theorem Lawful.submit (h : s.Lawful) (operation : Operation δ) : (s.submit operation).Lawful
    := by
  obtain ⟨error, heq⟩ | ⟨hopened, hcapacity, heq⟩ := submit_cases s operation <;> rw [heq]
  · exact h.answer
  · refine (h.enqueue hopened hcapacity operation).await ?_
    change s.items.length < (s.items ++ [operation]).length
    simp

private theorem submit_grows (operation : Operation δ) : Grows s (s.submit operation) := by
  obtain ⟨error, heq⟩ | ⟨-, -, heq⟩ := submit_cases s operation <;> rw [heq]
  · exact .ofCalls _
  · exact (enqueue_grows operation).trans (.ofCalls _)

private theorem Lawful.beginClose_grows (h : s.Lawful) (hopened : s.state = .opened) :
    Grows s { s with
      closeFuture := some none
      state := .closing
      queue := s.queue ++ [.close] } where
  items := List.prefix_rfl
  report := fun target r hr => by
    cases target with
    | work i => exact hr
    | close => simp [reportOf, h.closeFuture_eq_none hopened] at hr
  close := fun _ => rfl
  failed := fun hs => by simp [hopened] at hs

private theorem Lawful.beginClose (h : s.Lawful) (hopened : s.state = .opened) :
    Lawful { s with
      closeFuture := some none
      state := .closing
      queue := s.queue ++ [.close] } := by
  have hclose := h.closeFuture_eq_none hopened
  have hplaced := h.placed
  have hholds : s.point.holdsClose = false := by
    cases hpoint : s.point with
    | answering close failed =>
      rw [hpoint] at hplaced
      cases failed <;> simp [Placed, hopened] at hplaced
    | _ =>
      rw [hpoint] at hplaced
      simp_all [Placed, InLoop, WorkerPoint.holdsClose, closePending]
  have hsentinel : s.sentinel = [] := sentinel_eq_nil (by simp [closePending, hclose])
  refine { h with
    queue := ?_
    answered := by simp [reportOf]
    placed := ?_
    calls := fun call hcall => ?_ }
  · have hqueue := h.queue
    rw [hsentinel, List.append_nil] at hqueue
    simp [sentinel, closePending, hholds, hqueue, takenCount]
  · cases hpoint : s.point with
    | answering close failed =>
      rw [hpoint] at hplaced
      cases failed <;> simp [Placed, hopened] at hplaced
    | executed i result =>
      rw [hpoint] at hplaced
      exact ⟨.inr ⟨rfl, rfl⟩, hplaced.2⟩
    | _ =>
      rw [hpoint] at hplaced
      simp_all [Placed, InLoop, WorkerPoint.holdsClose, closePending]
  · exact (h.beginClose_grows hopened).honest (h.calls call hcall)

private theorem Lawful.queue_lt (h : s.Lawful) (hopened : s.state = .opened) :
    s.queue.length < s.queueCapacity + 1 := by
  have hsentinel : s.sentinel = [] :=
    sentinel_eq_nil (by simp [closePending, h.closeFuture_eq_none hopened])
  have hlength := h.queue_length
  have hcapacity := h.capacity
  have hpermits := h.permits
  have htaken := h.taken_le
  rw [hsentinel, List.length_nil, Nat.add_zero] at hlength
  have hahead : s.point.ahead ≤ s.point.inHand := by
    cases s.point <;> simp [WorkerPoint.ahead, WorkerPoint.inHand]
  simp only [takenCount] at hlength htaken
  omega

private theorem Lawful.aclose (h : s.Lawful) : s.aclose.Lawful := by
  unfold ApplicationSQLite.aclose
  split
  · next hclose => exact h.await hclose
  · next hclose =>
    split
    · next hopened =>
      rw [if_neg (by have := h.queue_lt hopened; omega)]
      exact (h.beginClose hopened).await rfl
    · next hclosing =>
      have hplaced := h.placed
      cases hpoint : s.point with
      | answering close failed =>
        rw [hpoint] at hplaced
        cases failed <;> simp [Placed, hclosing] at hplaced
      | _ =>
        rw [hpoint] at hplaced
        simp_all [Placed, InLoop, closePending]
    · exact h.answer
    · exact h.answer

private theorem Lawful.aclose_grows (h : s.Lawful) : Grows s s.aclose := by
  unfold ApplicationSQLite.aclose
  split
  · exact .ofCalls _
  · next hclose =>
    have hnone : s.closeFuture = none := by simpa using hclose
    split
    · next hopened =>
      rw [if_neg (by have := h.queue_lt hopened; omega)]
      exact (h.beginClose_grows hopened).trans (.ofCalls _)
    · refine ⟨List.prefix_rfl, fun target r hr => ?_, fun _ => rfl, fun hs => hs⟩
      cases target with
      | work i => exact hr
      | close => simp [reportOf, hnone] at hr
    · exact .ofCalls _
    · exact .ofCalls _

private theorem Grows.ofWorker {queue : List QueueItem} :
    Grows s { s with queue := queue, point := point } where
  items := List.prefix_rfl
  report := fun _ _ h => h
  close := fun h => h
  failed := fun h => h

private theorem settleClose_grows (r : Report) : Grows s (s.settleClose r) := by
  unfold settleClose
  split
  · next hclose =>
    refine ⟨List.prefix_rfl, fun target other hr => ?_, fun _ => rfl, fun h => h⟩
    cases target with
    | work j => exact hr
    | close => simp [reportOf, hclose] at hr
  · exact .refl

private theorem settleClose_eq (hpending : s.closePending = true) :
    s.settleClose r = { s with closeFuture := some (some r) } := by
  unfold closePending at hpending
  split at hpending
  · next hclose => simp only [settleClose, hclose]
  · cases hpending

private theorem goto_grows : Grows s (s.goto next) := Grows.ofWorker

private theorem release_grows (i : Nat) (next refused : WorkerPoint) :
    Grows s (s.release i next refused) := by
  unfold release
  split <;> exact ⟨List.prefix_rfl, fun _ _ h => h, fun h => h, fun h => h⟩

namespace Lawful

variable {rest : List QueueItem}

/-- The first operation in the queue is the one after those that are settled. -/
theorem queue_work (h : s.Lawful) (hhand : s.point.inHand = 0)
    (hqueue : s.queue = .work i :: rest) :
    i = s.settlements.length ∧ s.settlements.length < s.items.length ∧
      rest = ((List.range s.items.length).drop (s.settlements.length + 1)).map .work ++
        s.sentinel := by
  have hall := h.queue
  rw [hqueue, takenCount, hhand, Nat.add_zero] at hall
  by_cases hlt : s.settlements.length < s.items.length
  · rw [List.drop_eq_getElem_cons (by simpa using hlt), List.map_cons, List.cons_append] at hall
    obtain ⟨hhead, htail⟩ := List.cons.inj hall
    rw [List.getElem_range] at hhead
    exact ⟨QueueItem.work.inj hhead, hlt, htail⟩
  · rw [List.drop_eq_nil_of_le (by simpa using hlt)] at hall
    unfold sentinel at hall
    cases hclose : s.closePending && !s.point.holdsClose <;> simp [hclose] at hall

/-- The sentinel comes to the head of the queue when everything admitted is settled. -/
theorem queue_close (h : s.Lawful) (hhand : s.point.inHand = 0)
    (hqueue : s.queue = .close :: rest) :
    s.items.length = s.settlements.length ∧ rest = [] ∧ s.closePending = true := by
  have hall := h.queue
  have hle := h.settlements_le
  rw [hqueue, takenCount, hhand, Nat.add_zero] at hall
  by_cases hlt : s.settlements.length < s.items.length
  · rw [List.drop_eq_getElem_cons (by simpa using hlt), List.map_cons, List.cons_append] at hall
    simp at hall
  · rw [List.drop_eq_nil_of_le (by simpa using hlt)] at hall
    unfold sentinel at hall
    cases hclose : s.closePending && !s.point.holdsClose with
    | false => simp [hclose] at hall
    | true =>
      rw [hclose] at hall
      exact ⟨by omega, by simpa using hall, (Bool.and_eq_true_iff.mp hclose).1⟩

/-- When the queue is empty everything admitted is settled. -/
theorem queue_nil (h : s.Lawful) (hhand : s.point.inHand = 0)
    (hholds : s.point.holdsClose = false) (hqueue : s.queue = []) :
    s.items.length = s.settlements.length ∧ s.closePending = false := by
  have hlength := h.queue_length
  have hle := h.settlements_le
  rw [hqueue, List.length_nil, takenCount, hhand, sentinel, hholds] at hlength
  cases hclose : s.closePending with
  | false => exact ⟨by omega, rfl⟩
  | true => simp [hclose] at hlength

private theorem takeWork (h : s.Lawful) (hpoint : s.point = point)
    (hhand : point.inHand = 0) (hqueue : s.queue = .work i :: rest)
    (hahead : point.ahead = 0) (howed : point.owed = 0)
    (hholds : point.holdsClose = false) (hnext : next.inHand = 1)
    (hnextAhead : next.ahead = 0) (hnextOwed : next.owed = 0)
    (hnextHolds : next.holdsClose = false)
    (hplaced : Placed { s with queue := rest, point := next } next) :
    Lawful { s with queue := rest, point := next } := by
  subst hpoint
  obtain ⟨-, hlt, hrest⟩ := h.queue_work hhand hqueue
  refine { h with
    queue := ?_
    taken_le := ?_
    permits := ?_
    placed := hplaced
    calls := fun call hcall => Grows.ofWorker.honest (h.calls call hcall) }
  · simpa only [takenCount, hnext, sentinel, closePending, hholds, hnextHolds] using hrest
  · change s.settlements.length + next.inHand ≤ s.items.length
    rw [hnext]
    exact hlt
  · have := h.permits
    simp only [hahead, howed, hnextAhead, hnextOwed] at this ⊢
    exact this

private theorem takeClose (h : s.Lawful) (hpoint : s.point = point)
    (hhand : point.inHand = 0) (hqueue : s.queue = .close :: rest)
    (hahead : point.ahead = 0) (howed : point.owed = 0) (hnext : next.inHand = 0)
    (hnextAhead : next.ahead = 0) (hnextOwed : next.owed = 0)
    (hnextHolds : next.holdsClose = true)
    (hplaced : Placed { s with queue := rest, point := next } next) :
    Lawful { s with queue := rest, point := next } := by
  subst hpoint
  obtain ⟨hall, rfl, -⟩ := h.queue_close hhand hqueue
  refine { h with
    queue := ?_
    taken_le := ?_
    permits := ?_
    placed := hplaced
    calls := fun call hcall => Grows.ofWorker.honest (h.calls call hcall) }
  · simp [takenCount, hnext, sentinel, hnextHolds, hall]
  · simp [takenCount, hnext, hall]
  · have := h.permits
    simp only [hahead, howed, hnextAhead, hnextOwed] at this ⊢
    exact this

private theorem moveOn (h : s.Lawful) (hpoint : s.point = point)
    (hhand : next.inHand = point.inHand)
    (hahead : next.ahead = point.ahead) (howed : next.owed = point.owed)
    (hholds : next.holdsClose = point.holdsClose) (hplaced : (s.goto next).Placed next) :
    (s.goto next).Lawful := by
  subst hpoint
  refine { h with
    queue := ?_
    taken_le := ?_
    permits := ?_
    placed := hplaced
    calls := fun call hcall => goto_grows.honest (h.calls call hcall) }
  · simpa only [takenCount, goto, hhand, sentinel, closePending, hholds] using h.queue
  · simpa only [takenCount, goto, hhand] using h.taken_le
  · simpa only [goto, hahead, howed] using h.permits

private theorem giveBack (h : s.Lawful) (hpoint : s.point = point)
    (next : WorkerPoint) (hi : i = s.releases.length)
    (hlt : i < s.items.length) (hhand : next.inHand = point.inHand)
    (hholds : next.holdsClose = point.holdsClose)
    (hpermits : i + 1 + next.owed = s.settlements.length + next.ahead)
    (hplaced : (s.goto next).Placed next) (refused : WorkerPoint) :
    (s.release i next refused).Lawful := by
  subst hpoint
  have hcapacity : s.capacity < s.queueCapacity := h.capacity_lt (hi ▸ hlt)
  have hgrows := release_grows (s := s) i next refused
  unfold ApplicationSQLite.release at hgrows ⊢
  rw [if_pos hcapacity] at hgrows ⊢
  refine { h with
    queue := ?_
    taken_le := ?_
    releases := ?_
    permits := ?_
    capacity := ?_
    placed := hplaced
    calls := fun call hcall => hgrows.honest (h.calls call hcall) }
  · simpa only [takenCount, hhand, sentinel, closePending, hholds] using h.queue
  · simpa only [takenCount, hhand] using h.taken_le
  · change s.releases ++ [i] = List.range (s.releases ++ [i]).length
    rw [List.length_append, List.length_singleton, List.range_succ, ← h.releases, hi]
  · change (s.releases ++ [i]).length + next.owed = s.settlements.length + next.ahead
    rw [List.length_append, List.length_singleton, ← hi]
    exact hpermits
  · have := h.capacity
    change s.capacity + 1 + s.items.length = s.queueCapacity + (s.releases ++ [i]).length
    rw [List.length_append, List.length_singleton]
    omega

private theorem settle_eq (hpending : s.futures[i]? = some none) : s.settle i r = { s with
    futures := s.futures.set i (some r)
    settlements := s.settlements ++ [(i, r)] } := by
  unfold settle
  rw [hpending]

private theorem settle_grows (h : s.Lawful) (hi : i = s.settlements.length)
    (hlt : s.settlements.length < s.items.length) : Grows s (s.settle i r) := by
  have hpending : s.futures[i]? = some none := h.future_pending (by omega) (by omega)
  rw [settle_eq hpending]
  refine ⟨List.prefix_rfl, fun target other hr => ?_, fun h => h, fun h => h⟩
  cases target with
  | work j =>
    rw [reportOf_work] at hr ⊢
    have hne : i ≠ j := by
      rintro rfl
      simp [hpending] at hr
    simpa only [List.getElem?_set_ne hne] using hr
  | close => exact hr

/-- Settling the future of the operation in hand keeps the invariant. -/
theorem settleNext (h : s.Lawful) (hpoint : s.point = point) (hhand : point.inHand = 1)
    (hi : i = s.settlements.length) (hholds : next.holdsClose = point.holdsClose)
    (hnext : next.inHand = 0)
    (hpermits : s.releases.length + next.owed = s.settlements.length + 1 + next.ahead)
    (hreported : Reported s.items s.commits s.contents i r)
    (hplaced : ((s.settle i r).goto next).Placed next) : ((s.settle i r).goto next).Lawful := by
  subst hpoint
  have hlt : s.settlements.length < s.items.length := by
    have := h.taken_le
    rw [takenCount, hhand] at this
    omega
  have hpending : s.futures[i]? = some none := h.future_pending (by omega) (by omega)
  have hgrows := h.settle_grows hi (r := r) hlt
  rw [settle_eq hpending] at hplaced hgrows ⊢
  refine { h with
    settled := ?_
    futures := ?_
    queue := ?_
    taken_le := ?_
    permits := ?_
    reported := fun e he => ?_
    placed := hplaced
    calls := fun call hcall => (hgrows.trans goto_grows).honest (h.calls call hcall) }
  · simp only [goto, List.map_append, List.map_cons, List.map_nil, h.settled, List.length_append,
      List.length_singleton, List.range_succ, hi]
  · change s.futures.set i (some r) = (s.settlements ++ [(i, r)]).map (fun e => some e.2) ++
      List.replicate (s.items.length - (s.settlements ++ [(i, r)]).length) none
    have hsucc : s.items.length - s.settlements.length =
        s.items.length - (s.settlements.length + 1) + 1 := by omega
    rw [h.futures, hi, List.set_append_right _ _ (by simp), List.length_map, Nat.sub_self, hsucc,
      List.replicate_succ, List.set_cons_zero, List.length_append, List.length_singleton]
    simp
  · simpa only [goto, takenCount, hnext, sentinel, closePending, hholds, hhand,
      List.length_append, List.length_singleton, Nat.add_zero] using h.queue
  · simp only [goto, takenCount, hnext, List.length_append, List.length_singleton]
    omega
  · simpa only [goto, List.length_append, List.length_singleton] using hpermits
  · obtain he | he := List.mem_append.mp he
    · exact h.reported e he
    · rw [List.mem_singleton.mp he]
      exact hreported

end Lawful

variable {items : List (Operation δ)} {result : Except Failure Value} {c : Nat}

private theorem Reported.extend {commits : List Nat} {contents : List δ}
    {j : Nat} (h : Reported items commits contents i r) (hi : i + 1 < contents.length)
    (hj : i ≠ j) (committed : Bool) (after : δ) :
    Reported items (if committed then commits ++ [j] else commits) (contents ++ [after]) i r := by
  have hbefore : (contents ++ [after])[i]? = contents[i]? :=
    List.getElem?_append_left (Nat.lt_of_succ_lt hi)
  have hafter : (contents ++ [after])[i + 1]? = contents[i + 1]? := List.getElem?_append_left hi
  refine ⟨fun operation hitem => ?_, ?_, fun operation error hitem hr _ => ?_,
    fun operation hitem hdurable hr => ?_⟩
  · rw [h.committed operation hitem]
    cases committed <;> simp [hj]
  · rw [hbefore, hafter]
    exact h.value
  · rw [hbefore, hafter]
    exact h.error operation error hitem hr hi
  · obtain ⟨before, hget, -, hkeeps⟩ := h.cancelled operation hitem hdurable hr
    refine ⟨before, hbefore.trans hget, ?_, hkeeps⟩
    rw [List.length_append, List.length_singleton]
    omega

private theorem report_eq_ok {value : Value} :
    report result = .ok value ↔ result = .ok value := by
  cases result <;> simp [report]

private theorem report_eq_error {error : ApplicationError} :
    report result = .error error ↔ ∃ failure, result = .error failure ∧
      (if failure.fatal then .unavailable else failure.error) = error := by
  cases result <;> simp [report]

/-- The report of an operation that was just executed. -/
theorem Reported.ofExecution {commits : List Nat}
    {contents : List δ} {d : Database δ} {operation : Operation δ} {j : Nat}
    (hitem : items[j]? = some operation) (hcommits : ∀ i ∈ commits, i < j)
    (hlength : contents.length = j + 1) (hlast : contents.getLast? = some d.contents) :
    Reported items
      (if (operation.run faults d).committed then commits ++ [j] else commits)
      (contents ++ [(operation.run faults d).database.contents]) j
      (report (operation.run faults d).result) := by
  have hfresh : j ∉ commits := fun hj => Nat.lt_irrefl j (hcommits j hj)
  have hbefore : (contents ++ [(operation.run faults d).database.contents])[j]? =
      some d.contents := by
    rw [List.getElem?_append_left (by omega), ← hlast, List.getLast?_eq_getElem?, hlength,
      Nat.add_sub_cancel]
  have hafter : (contents ++ [(operation.run faults d).database.contents])[j + 1]? =
      some (operation.run faults d).database.contents := by
    rw [← hlength, List.getElem?_concat_length]
  refine ⟨fun write hwrite => ?_, fun write value hwrite hvalue => ?_,
    fun write error hwrite herror _ => ?_, fun other hother hdurable hcancelled => ?_⟩
  · obtain rfl := Option.some.inj (hitem.symm.trans hwrite)
    have hcommitted := (d.runTransaction_exact faults write).committed
    simp only [report_eq_ok, Operation.run, hcommitted]
    by_cases hc : (d.runTransaction faults write).committed = true
    · simp [hc]
    · simp [hc, hfresh]
  · obtain rfl := Option.some.inj (hitem.symm.trans hwrite)
    obtain ⟨hresult, htransaction⟩ :=
      (d.runTransaction_exact faults write).value value (report_eq_ok.1 hvalue)
    exact ⟨_, _, hbefore, hafter, hresult, htransaction⟩
  · obtain rfl := Option.some.inj (hitem.symm.trans hwrite)
    obtain ⟨failure, hfailure, -⟩ := report_eq_error.1 herror
    refine ⟨d.contents, hbefore, ?_⟩
    rw [hafter]
    exact ((d.runTransaction_exact faults write).error failure hfailure).imp (congrArg some)
      (congrArg some)
  · obtain rfl := Option.some.inj (hitem.symm.trans hother)
    obtain ⟨failure, hfailure, herror⟩ := report_eq_error.1 hcancelled
    refine ⟨d.contents, hbefore, ?_, fun hkeeps => ?_⟩
    · rw [List.length_append, List.length_singleton]
      omega
    · split at herror
      · cases herror
      · exact Operation.run_not_cancelled hdurable hkeeps hfailure herror

namespace Lawful

/-- Executing the operation in hand keeps the invariant. -/
theorem execute (h : s.Lawful) (hpoint : s.point = .executing i) {operation : Operation δ}
    (hitem : s.items[i]? = some operation) : (s.execute faults i operation).Lawful := by
  have hplaced := h.placed
  rw [hpoint] at hplaced
  obtain ⟨hloop, hstarted, hi⟩ := hplaced
  have hcontents := h.contents
  have hcommits : ∀ j ∈ s.commits, j < i := fun j hj => by
    have := h.commits j hj
    omega
  have hgrows : Grows s (s.execute faults i operation) :=
    ⟨List.prefix_rfl, fun _ _ h => h, fun h => h, fun h => h⟩
  refine { h with
    queue := ?_
    taken_le := ?_
    permits := ?_
    started := ?_
    contents := ?_
    last := ?_
    commits := fun j hj => ?_
    reported := fun e he => ?_
    placed := ?_
    calls := fun call hcall => hgrows.honest (h.calls call hcall) }
  · have := h.queue
    simpa only [ApplicationSQLite.execute, takenCount, sentinel, closePending, hpoint,
      WorkerPoint.inHand, WorkerPoint.holdsClose] using this
  · have := h.taken_le
    simpa only [ApplicationSQLite.execute, takenCount, hpoint, WorkerPoint.inHand] using this
  · have := h.permits
    simpa only [ApplicationSQLite.execute, hpoint, WorkerPoint.owed, WorkerPoint.ahead] using this
  · simp only [ApplicationSQLite.execute, List.length_append, List.length_singleton,
      List.range_succ, ← h.started]
    rw [hi, hstarted]
  · simp only [ApplicationSQLite.execute, List.length_append, List.length_singleton, hcontents]
  · simp [ApplicationSQLite.execute]
  · change j ∈ (if _ then s.commits ++ [i] else s.commits) at hj
    change j < (s.started ++ [i]).length
    have hj' : j < i ∨ j = i := by
      split at hj
      · obtain hj | hj := List.mem_append.mp hj
        · exact .inl (hcommits j hj)
        · exact .inr (List.mem_singleton.mp hj)
      · exact .inl (hcommits j hj)
    rw [List.length_append, List.length_singleton]
    omega
  · have hlt := h.settled_lt he
    exact (h.reported e he).extend (by omega) (by omega) _ _
  · refine ⟨hloop, ?_, hi, ?_⟩
    · simp only [ApplicationSQLite.execute, List.length_append, List.length_singleton, hstarted]
    · exact .ofExecution hitem hcommits (by omega) h.last

private theorem withConnection (h : s.Lawful) (hpoint : s.point = point)
    {d : Database δ} (hd : d.contents = s.database.contents)
    (hhand : next.inHand = point.inHand)
    (hahead : next.ahead = point.ahead) (howed : next.owed = point.owed)
    (hholds : next.holdsClose = point.holdsClose) (hplaced : (s.goto next).Placed next) :
    Lawful { s with database := d, point := next } := by
  subst hpoint
  have hmoved := h.moveOn rfl hhand hahead howed hholds hplaced
  have hgrows : Grows s { s with database := d, point := next } :=
    ⟨List.prefix_rfl, fun _ _ h => h, fun h => h, fun h => h⟩
  exact { hmoved with
    last := hd ▸ h.last
    calls := fun call hcall => hgrows.honest (h.calls call hcall) }

private theorem publish (h : s.Lawful) {close failed : Bool}
    (hpoint : s.point = .publishing close failed) :
    Lawful { s with
      state := if failed then .failed else .closed
      point := .answering close failed } := by
  have hplaced := h.placed
  rw [hpoint] at hplaced
  obtain ⟨hloop, hstarted, hfailed, hclose⟩ := hplaced
  have hgrows : Grows s { s with
      state := if failed then .failed else .closed
      point := .answering close failed } := by
    refine ⟨List.prefix_rfl, fun _ _ h => h, fun h => h, fun hs => ?_⟩
    obtain ⟨hopened, -⟩ | ⟨hclosing, -⟩ := hloop <;> simp_all
  refine { h with
    queue := ?_
    taken_le := ?_
    permits := ?_
    placed := ⟨rfl, hstarted, hfailed, fun hc => ⟨?_, (hclose hc).2⟩⟩
    calls := fun call hcall => hgrows.honest (h.calls call hcall) }
  · have := h.queue
    simpa only [takenCount, sentinel, closePending, hpoint, WorkerPoint.inHand,
      WorkerPoint.holdsClose] using this
  · have := h.taken_le
    simpa only [takenCount, hpoint, WorkerPoint.inHand] using this
  · have := h.permits
    simpa only [hpoint, WorkerPoint.owed, WorkerPoint.ahead] using this
  · obtain ⟨hopened, -⟩ | ⟨-, hpending⟩ := hloop
    · have := (hclose hc).1
      simp [hopened] at this
    · exact hpending

private theorem reported_unstarted (h : s.Lawful) (hi : s.started.length ≤ i) :
    Reported s.items s.commits s.contents i (.error .unavailable) := by
  have hlength := h.contents
  refine ⟨fun _ _ => ⟨fun ⟨_, hvalue⟩ => ?_, fun hmem => ?_⟩, fun _ _ _ hvalue => ?_,
    fun _ _ _ _ hlt => ?_, fun _ _ _ hcancelled => ?_⟩
  · cases hvalue
  · exact absurd (h.commits i hmem) (Nat.not_lt.mpr hi)
  · cases hvalue
  · omega
  · cases hcancelled

private theorem answerClose (h : s.Lawful) (hpoint : s.point = point) (hr : r ≠ .error .cancelled)
    (hholds : point.holdsClose = true)
    (hhand : next.inHand = point.inHand)
    (hahead : next.ahead = point.ahead) (howed : next.owed = point.owed)
    (hplaced : ((s.settleClose r).goto next).Placed next) (hpending : s.closePending = true) :
    ((s.settleClose r).goto next).Lawful := by
  subst hpoint
  have hgrows : Grows s ((s.settleClose r).goto next) := (settleClose_grows r).trans goto_grows
  rw [settleClose_eq hpending] at hplaced hgrows ⊢
  refine { h with
    queue := ?_
    taken_le := ?_
    permits := ?_
    answered := by simpa [goto, reportOf] using hr
    placed := hplaced
    calls := fun call hcall => hgrows.honest (h.calls call hcall) }
  · have := h.queue
    simpa [goto, takenCount, sentinel, closePending, hholds, hhand] using this
  · simpa only [goto, takenCount, hhand] using h.taken_le
  · simpa only [goto, hahead, howed] using h.permits

end Lawful

private theorem closeConnectionOnWorker_contents (d : Database δ) (faults : Faults δ) :
    (d.closeConnectionOnWorker faults).database.contents = d.contents := by
  unfold Database.closeConnectionOnWorker
  split
  · rfl
  · split <;> rfl

namespace Lawful

private theorem takeNext (h : s.Lawful) (hpoint : s.point = .waiting)
    (htake : s.take .taken (.closing true false) = some t) : t.Lawful := by
  have hplaced := h.placed
  rw [hpoint] at hplaced
  obtain ⟨hloop, hstarted⟩ := hplaced
  unfold take at htake
  split at htake
  · cases htake
  · next i rest hqueue =>
    cases htake
    have hi := (h.queue_work (by rw [hpoint]; rfl) hqueue).1
    exact h.takeWork hpoint rfl hqueue rfl rfl rfl rfl rfl rfl rfl ⟨hloop, hstarted, hi⟩
  · next rest hqueue =>
    cases htake
    obtain ⟨hall, -, hclose⟩ := h.queue_close (by rw [hpoint]; rfl) hqueue
    have hclosing : s.state = .closing := by
      obtain ⟨-, hnone⟩ | ⟨hclosing, -⟩ := hloop
      · simp [closePending, hnone] at hclose
      · exact hclosing
    refine h.takeClose hpoint rfl hqueue rfl rfl rfl rfl rfl rfl
      ⟨hloop, hstarted.le, fun hc => ?_, fun _ => ⟨hclosing, hall⟩⟩
    cases hc

private theorem releaseTaken (h : s.Lawful) (hpoint : s.point = .taken i) :
    (s.release i (.executing i) (.closing false true)).Lawful := by
  have hplaced := h.placed
  have hpermits := h.permits
  have htaken := h.taken_le
  simp only [takenCount, hpoint, WorkerPoint.owed, WorkerPoint.ahead, WorkerPoint.inHand]
    at hpermits htaken
  rw [hpoint] at hplaced
  obtain ⟨hloop, hstarted, hi⟩ := hplaced
  have hnext : (s.goto (.executing i)).Placed (.executing i) := ⟨hloop, hstarted, hi⟩
  exact h.giveBack hpoint (.executing i) (show i = s.releases.length by omega) (by omega) rfl rfl
    (by simp only [WorkerPoint.owed, WorkerPoint.ahead]; omega) hnext _

private theorem reportExecuted (h : s.Lawful) {result : Except Failure Value}
    (hpoint : s.point = .executed i result) :
    ((s.settle i (report result)).goto (afterExecution result)).Lawful := by
  have hplaced := h.placed
  have hpermits := h.permits
  have htaken := h.taken_le
  simp only [takenCount, hpoint, WorkerPoint.owed, WorkerPoint.ahead, WorkerPoint.inHand]
    at hpermits htaken
  rw [hpoint] at hplaced
  obtain ⟨hloop, hstarted, hi, hreported⟩ := hplaced
  have hpending : s.futures[i]? = some none := h.future_pending (by omega) (by omega)
  have hlength : (s.settlements ++ [(i, report result)]).length = s.started.length := by
    rw [List.length_append, List.length_singleton, hstarted]
  have hwaiting : ((s.settle i (report result)).goto .waiting).Placed .waiting := by
    rw [settle_eq hpending]
    exact ⟨hloop, hlength.symm⟩
  have hclosing : ((s.settle i (report result)).goto (.closing false true)).Placed
      (.closing false true) := by
    rw [settle_eq hpending]
    exact ⟨hloop, hlength.symm.le, fun _ => rfl, fun hc => by cases hc⟩
  unfold afterExecution
  split
  · exact h.settleNext hpoint rfl hi rfl rfl hpermits hreported hwaiting
  · split
    · exact h.settleNext hpoint rfl hi rfl rfl hpermits hreported hclosing
    · exact h.settleNext hpoint rfl hi rfl rfl hpermits hreported hwaiting

private theorem closeConnection (h : s.Lawful) {close failed now : Bool}
    (hpoint : s.point = .closing close failed) (hnow : failed = true → now = true) :
    Lawful { s with
      database := (s.database.closeConnectionOnWorker faults).database
      point := .publishing close now } := by
  have hplaced := h.placed
  rw [hpoint] at hplaced
  obtain ⟨hloop, hstarted, hfailed, hclose⟩ := hplaced
  have hnext : (s.goto (.publishing close now)).Placed (.publishing close now) :=
    ⟨hloop, hstarted, fun hc => hnow (hfailed hc), hclose⟩
  exact h.withConnection hpoint (closeConnectionOnWorker_contents s.database faults) rfl rfl rfl
    rfl hnext

private theorem answerClosed (h : s.Lawful) {close : Bool}
    (hpoint : s.point = .answering close false) :
    ((if close then s.settleClose (.ok (.scalar 0)) else s).goto .ended).Lawful := by
  have hplaced := h.placed
  rw [hpoint] at hplaced
  obtain ⟨hstate, hstarted, hfailed, hclose⟩ := hplaced
  have hc : close = true := by
    cases close with
    | true => rfl
    | false => exact hfailed rfl
  subst hc
  obtain ⟨hpending, hall⟩ := hclose rfl
  have hnext : ((s.settleClose (.ok (.scalar 0))).goto .ended).Placed .ended := by
    rw [settleClose_eq hpending]
    exact ⟨.inl hstate, hstarted, hall, rfl⟩
  exact h.answerClose hpoint (by simp) rfl rfl rfl rfl hnext hpending

private theorem answerFailed (h : s.Lawful) {close : Bool}
    (hpoint : s.point = .answering close true) :
    ((if close then s.settleClose (.error .unavailable) else s).goto .draining).Lawful := by
  have hplaced := h.placed
  rw [hpoint] at hplaced
  obtain ⟨hstate, hstarted, -, hclose⟩ := hplaced
  cases close with
  | true =>
    have hnext : ((s.settleClose (.error .unavailable)).goto .draining).Placed .draining := by
      rw [settleClose_eq (hclose rfl).1]
      exact ⟨hstate, hstarted⟩
    exact h.answerClose hpoint (by simp) rfl rfl rfl rfl hnext (hclose rfl).1
  | false =>
    have hnext : (s.goto .draining).Placed .draining := ⟨hstate, hstarted⟩
    exact h.moveOn hpoint rfl rfl rfl rfl hnext

private theorem drainNext (h : s.Lawful) (hpoint : s.point = .draining) :
    ((s.take .drained .drainedClose).getD (s.goto .ended)).Lawful := by
  have hplaced := h.placed
  rw [hpoint] at hplaced
  obtain ⟨hstate, hstarted⟩ := hplaced
  unfold take
  split
  · next hqueue =>
    obtain ⟨hall, hclose⟩ := h.queue_nil (by rw [hpoint]; rfl) (by rw [hpoint]; rfl) hqueue
    have hnext : (s.goto .ended).Placed .ended := ⟨.inr hstate, hstarted, hall, hclose⟩
    exact h.moveOn hpoint rfl rfl rfl rfl hnext
  · next i rest hqueue =>
    have hi := (h.queue_work (by rw [hpoint]; rfl) hqueue).1
    exact h.takeWork hpoint rfl hqueue rfl rfl rfl rfl rfl rfl rfl ⟨hstate, hstarted, hi⟩
  · next rest hqueue =>
    obtain ⟨hall, -, hclose⟩ := h.queue_close (by rw [hpoint]; rfl) hqueue
    exact h.takeClose hpoint rfl hqueue rfl rfl rfl rfl rfl rfl ⟨hstate, hstarted, hclose, hall⟩

private theorem refuseDrained (h : s.Lawful) (hpoint : s.point = .drained i) :
    ((s.settle i (.error .unavailable)).goto (.releasing i)).Lawful := by
  have hplaced := h.placed
  have hpermits := h.permits
  have htaken := h.taken_le
  simp only [takenCount, hpoint, WorkerPoint.owed, WorkerPoint.ahead, WorkerPoint.inHand]
    at hpermits htaken
  rw [hpoint] at hplaced
  obtain ⟨hstate, hstarted, hi⟩ := hplaced
  have hpending : s.futures[i]? = some none := h.future_pending (by omega) (by omega)
  have hnext : ((s.settle i (.error .unavailable)).goto (.releasing i)).Placed
      (.releasing i) := by
    rw [settle_eq hpending]
    refine ⟨hstate, ?_, ?_⟩ <;> simp only [goto, List.length_append, List.length_singleton] <;>
      omega
  exact h.settleNext hpoint rfl hi rfl rfl
    (by simp only [WorkerPoint.owed, WorkerPoint.ahead]; omega)
    (h.reported_unstarted (by omega)) hnext

private theorem releaseDrained (h : s.Lawful) (hpoint : s.point = .releasing i) :
    (s.release i .draining .ended).Lawful := by
  have hplaced := h.placed
  have hpermits := h.permits
  have htaken := h.taken_le
  simp only [takenCount, hpoint, WorkerPoint.owed, WorkerPoint.ahead, WorkerPoint.inHand]
    at hpermits htaken
  rw [hpoint] at hplaced
  obtain ⟨hstate, hstarted, hi⟩ := hplaced
  have hnext : (s.goto .draining).Placed .draining := ⟨hstate, hstarted⟩
  exact h.giveBack hpoint .draining (show i = s.releases.length by omega) (by omega) rfl rfl
    (by simp only [WorkerPoint.owed, WorkerPoint.ahead]; omega) hnext _

private theorem refuseClose (h : s.Lawful) (hpoint : s.point = .drainedClose) :
    ((s.settleClose (.error .unavailable)).goto .draining).Lawful := by
  have hplaced := h.placed
  rw [hpoint] at hplaced
  obtain ⟨hstate, hstarted, hpending, -⟩ := hplaced
  have hnext : ((s.settleClose (.error .unavailable)).goto .draining).Placed .draining := by
    rw [settleClose_eq hpending]
    exact ⟨hstate, hstarted⟩
  exact h.answerClose hpoint (by simp) rfl rfl rfl rfl hnext hpending

end Lawful

/-- Every step of the worker thread keeps the invariant. -/
theorem Lawful.work (h : s.Lawful) (hwork : s.work faults = some t) : t.Lawful := by
  unfold ApplicationSQLite.work at hwork
  cases hpoint : s.point <;> simp only [hpoint] at hwork
  case waiting => exact h.takeNext hpoint hwork
  case taken i =>
    cases hwork
    exact h.releaseTaken hpoint
  case executing i =>
    obtain ⟨operation, hitem, rfl⟩ := Option.map_eq_some_iff.mp hwork
    exact h.execute hpoint hitem
  case executed i result =>
    cases hwork
    exact h.reportExecuted hpoint
  case closing close failed =>
    split at hwork <;> cases hwork
    · exact h.closeConnection hpoint id
    · exact h.closeConnection hpoint fun _ => rfl
  case publishing close failed =>
    cases hwork
    exact h.publish hpoint
  case answering close failed =>
    cases failed with
    | false =>
      cases hwork
      exact h.answerClosed hpoint
    | true =>
      cases hwork
      exact h.answerFailed hpoint
  case draining =>
    cases hwork
    exact h.drainNext hpoint
  case drained i =>
    cases hwork
    exact h.refuseDrained hpoint
  case releasing i =>
    cases hwork
    exact h.releaseDrained hpoint
  case drainedClose =>
    cases hwork
    exact h.refuseClose hpoint
  case ended => cases hwork

/-- A step of the worker thread loses nothing. -/
theorem Lawful.work_grows (h : s.Lawful) (hwork : s.work faults = some t) : Grows s t := by
  have hplaced := h.placed
  have htaken := h.taken_le
  unfold takenCount at htaken
  unfold ApplicationSQLite.work at hwork
  cases hpoint : s.point <;>
    simp only [hpoint, Placed, WorkerPoint.inHand, Nat.add_zero] at hplaced htaken hwork
  case waiting =>
    unfold take at hwork
    split at hwork
    · cases hwork
    · cases hwork
      exact .ofWorker
    · cases hwork
      exact .ofWorker
  case taken i =>
    cases hwork
    exact release_grows i _ _
  case executing i =>
    obtain ⟨operation, -, rfl⟩ := Option.map_eq_some_iff.mp hwork
    exact ⟨List.prefix_rfl, fun _ _ h => h, fun h => h, fun h => h⟩
  case executed i result =>
    cases hwork
    exact (h.settle_grows hplaced.2.2.1 (by omega)).trans goto_grows
  case closing close failed =>
    split at hwork <;> cases hwork <;>
      exact ⟨List.prefix_rfl, fun _ _ h => h, fun h => h, fun h => h⟩
  case publishing close failed =>
    cases hwork
    refine ⟨List.prefix_rfl, fun _ _ h => h, fun h => h, fun hs => ?_⟩
    obtain ⟨hopened, -⟩ | ⟨hclosing, -⟩ := hplaced.1 <;> simp_all
  case answering close failed =>
    split at hwork <;> cases hwork <;> refine .trans ?_ goto_grows <;> split
    · exact settleClose_grows _
    · exact .refl
    · exact settleClose_grows _
    · exact .refl
  case draining =>
    cases hwork
    unfold take
    split
    · exact goto_grows
    · exact .ofWorker
    · exact .ofWorker
  case drained i =>
    cases hwork
    exact (h.settle_grows hplaced.2.2 (by omega)).trans goto_grows
  case releasing i =>
    cases hwork
    exact release_grows i _ _
  case drainedClose =>
    cases hwork
    exact (settleClose_grows _).trans goto_grows
  case ended => cases hwork

/-- Cancelling a call changes that call only. -/
theorem cancel_eq (hstep : s.cancel c = some t) :
    ∃ call, t = { s with calls := s.calls.set c call } := by
  unfold cancel at hstep
  split at hstep
  · split at hstep <;> exact ⟨_, (Option.some.inj hstep).symm⟩
  · cases hstep

/-- Letting a call go on changes that call only. -/
theorem resume_eq (hstep : s.resume c = some t) :
    ∃ call, t = { s with calls := s.calls.set c call } := by
  unfold resume at hstep
  split at hstep
  · obtain ⟨r, -, rfl⟩ := Option.map_eq_some_iff.mp hstep
    exact ⟨_, rfl⟩
  · cases hstep

private theorem Lawful.cancel (h : s.Lawful) (hstep : s.cancel c = some t) : t.Lawful := by
  unfold ApplicationSQLite.cancel at hstep
  split at hstep
  · next target cancelled hcall =>
    have hknown : s.Known target := h.calls _ (List.mem_of_getElem? hcall)
    split at hstep
    · cases hstep
      exact h.setCall (.waiting target true) hknown
    · next hawaits =>
      cases hstep
      exact h.setCall (.finished (some target) .cancelled)
        ⟨hknown, fun hc => (hawaits hc).elim⟩
  · cases hstep

private theorem honest_woken {target : QueueItem} (cancelled : Bool) (hknown : s.Known target)
    (hr : s.reportOf target = some r) : s.Honest (s.woken target cancelled r) := by
  cases r with
  | ok value =>
    cases cancelled with
    | true => exact ⟨hknown, fun _ => by rw [hr]; rfl⟩
    | false => exact .inl hr
  | error error =>
    unfold woken
    simp only
    split
    · exact hknown
    · cases cancelled with
      | true => exact ⟨hknown, fun _ => by rw [hr]; rfl⟩
      | false =>
        simp only [Bool.false_eq_true, if_false]
        unfold raisedBy
        split
        · next hclose =>
          obtain ⟨rfl, rfl, hstate⟩ := hclose
          exact .inr ⟨rfl, hr, hstate⟩
        · exact hr

private theorem Lawful.resume (h : s.Lawful) (hstep : s.resume c = some t) : t.Lawful := by
  unfold ApplicationSQLite.resume at hstep
  split at hstep
  · next target cancelled hcall =>
    obtain ⟨r, hr, rfl⟩ := Option.map_eq_some_iff.mp hstep
    exact h.setCall _ (honest_woken cancelled (h.calls _ (List.mem_of_getElem? hcall)) hr)
  · cases hstep

/-- Every step keeps the invariant. -/
theorem Lawful.step (h : s.Lawful) {a : WorkerAction δ} (hstep : s.step a = some t) :
    t.Lawful := by
  cases a with
  | submit operation =>
    cases hstep
    exact h.submit operation
  | aclose =>
    cases hstep
    exact h.aclose
  | cancel c => exact h.cancel hstep
  | resume c => exact h.resume hstep
  | work faults => exact h.work hstep

/-- No step takes back what a future or a call has been told. -/
theorem Lawful.step_grows (h : s.Lawful) {a : WorkerAction δ} (hstep : s.step a = some t) :
    Grows s t := by
  cases a with
  | submit operation =>
    cases hstep
    exact submit_grows operation
  | aclose =>
    cases hstep
    exact h.aclose_grows
  | cancel c =>
    obtain ⟨call, rfl⟩ := cancel_eq hstep
    exact .ofCalls _
  | resume c =>
    obtain ⟨call, rfl⟩ := resume_eq hstep
    exact .ofCalls _
  | work faults => exact h.work_grows hstep

/-- A worker that was just started satisfies the invariant. -/
theorem lawful_create {home queueCapacity : Nat} {contents : δ}
    (h : create home queueCapacity contents = some s) : s.Lawful := by
  unfold create at h
  split at h
  · cases h
  · cases h
    constructor <;> simp [Placed, InLoop, takenCount, WorkerPoint.inHand, WorkerPoint.owed,
      WorkerPoint.ahead, ApplicationSQLite.sentinel, closePending, reportOf]

end AwesomeAgent.Storage.ApplicationSQLite
