import AwesomeAgent.PendingInputs.Terminal

/-!
# What becomes of pending inputs

In every run whose steps meet the condition, each accepted input is consumed, in flight, queued or
recalled, in the order of acceptance, and no Operation that is over is awaited for good.
-/

namespace AwesomeAgent.PendingInputs

/-! ## The ledger -/

/-- The account of the inputs that were accepted. -/
structure Ledger (history : History) (waiting : List PendingInput) : Prop where
  accounted : (history.consumed ++ waiting.map PendingInput.id ++ history.recalled).Perm
    (List.range history.accepted)
  ordered : (history.consumed ++ waiting.map PendingInput.id).Pairwise (· < ·)
  promoted : history.promoted.Pairwise (· ≤ ·)
  known : ∀ id ∈ history.promoted, id < history.accepted
  ahead : ∀ id ∈ history.promoted, ∀ other ∈ waiting.map PendingInput.id, id ≤ other
  barrier : ∀ earlier later,
    waiting.map PendingInput.terminalBarrier = earlier ++ true :: later → later = []
  room : waiting.length ≤ maxPendingInputs

namespace Ledger

variable {history : History} {waiting : List PendingInput}

private theorem lt_accepted (h : Ledger history waiting) {id : Nat}
    (hid : id ∈ history.consumed ++ waiting.map PendingInput.id) : id < history.accepted :=
  List.mem_range.mp (h.accounted.mem_iff.mp (List.mem_append_left _ hid))

variable {item : PendingInput}

private theorem fresh (h : Ledger history waiting) (hitem : item ∈ waiting) :
    item.id ≠ history.accepted :=
  (h.lt_accepted (List.mem_append_right _ (List.mem_map_of_mem hitem))).ne

private theorem accept (h : Ledger history waiting) (raw : Text)
    (hbarrier : ∀ item ∈ waiting, item.terminalBarrier = false)
    (hroom : waiting.length < maxPendingInputs) :
    Ledger { history with accepted := history.accepted + 1 }
      (waiting ++ [createPendingInput history.accepted raw]) where
  accounted := by
    rw [List.map_append, List.range_succ]
    refine List.Perm.trans ?_ (h.accounted.append_right [history.accepted])
    simp only [List.map_cons, List.map_nil, createPendingInput, List.append_assoc]
    exact (List.perm_append_comm.append_left _).append_left _
  ordered := by
    rw [List.map_append, ← List.append_assoc, List.pairwise_append]
    refine ⟨h.ordered, List.pairwise_singleton _ _, fun id hid other hother => ?_⟩
    rw [List.mem_singleton.mp hother]
    exact h.lt_accepted hid
  promoted := h.promoted
  known id hid := Nat.lt_succ_of_lt (h.known id hid)
  ahead id hid other hother := by
    rw [List.map_append] at hother
    rcases List.mem_append.mp hother with hother | hother
    · exact h.ahead id hid other hother
    · rw [List.mem_singleton.mp hother]
      exact (h.known id hid).le
  barrier earlier later hsplit := by
    rcases List.eq_nil_or_concat later with rfl | ⟨front, last, rfl⟩
    · rfl
    · rw [List.map_append, List.concat_eq_append, ← List.cons_append, ← List.append_assoc] at hsplit
      have hmem : true ∈ waiting.map PendingInput.terminalBarrier := by
        rw [(List.append_inj' hsplit rfl).1]
        exact List.mem_append_right _ List.mem_cons_self
      obtain ⟨item, hitem, htrue⟩ := List.mem_map.mp hmem
      rw [hbarrier item hitem] at htrue
      cases htrue
  room := by
    rw [List.length_append, List.length_singleton]
    exact hroom

private theorem recallInput (h : Ledger history (waiting ++ [item])) :
    Ledger { history with recalled := history.recalled ++ [item.id] } waiting where
  accounted := by
    refine List.Perm.trans ?_ h.accounted
    simp only [List.map_append, List.map_cons, List.map_nil, List.append_assoc]
    exact (List.perm_append_comm.append_left _).append_left _
  ordered := by
    refine h.ordered.sublist ?_
    rw [List.map_append, ← List.append_assoc]
    exact List.sublist_append_left _ _
  promoted := h.promoted
  known := h.known
  ahead id hid other hother :=
    h.ahead id hid other (by rw [List.map_append]; exact List.mem_append_left _ hother)
  barrier earlier later hsplit := by
    have hlonger := h.barrier earlier (later ++ [item.terminalBarrier]) (by
      rw [List.map_append, hsplit, List.append_assoc, List.cons_append]
      rfl)
    exact (List.append_eq_nil_iff.mp hlonger).1
  room := by
    have hroom := h.room
    rw [List.length_append, List.length_singleton] at hroom
    omega

private theorem promote (h : Ledger history (item :: waiting)) :
    Ledger { history with promoted := history.promoted ++ [item.id] } (item :: waiting) where
  accounted := h.accounted
  ordered := h.ordered
  promoted := by
    rw [List.pairwise_append]
    refine ⟨h.promoted, List.pairwise_singleton _ _, fun id hid other hother => ?_⟩
    rw [List.mem_singleton.mp hother]
    exact h.ahead id hid item.id List.mem_cons_self
  known id hid := by
    rcases List.mem_append.mp hid with hid | hid
    · exact h.known id hid
    · rw [List.mem_singleton.mp hid]
      exact h.lt_accepted (List.mem_append_right _ List.mem_cons_self)
  ahead id hid other hother := by
    rcases List.mem_append.mp hid with hid | hid
    · exact h.ahead id hid other hother
    · rw [List.mem_singleton.mp hid]
      have hordered := (List.pairwise_append.mp h.ordered).2.1
      rcases List.mem_cons.mp hother with rfl | hother
      · exact Nat.le_refl _
      · exact (List.rel_of_pairwise_cons hordered hother).le
  barrier := h.barrier
  room := h.room

private theorem consume (h : Ledger history (item :: waiting)) :
    Ledger { history with consumed := history.consumed ++ [item.id] } waiting where
  accounted := by
    have haccounted := h.accounted
    rwa [List.map_cons, List.append_cons] at haccounted
  ordered := by
    have hordered := h.ordered
    rwa [List.map_cons, List.append_cons] at hordered
  promoted := h.promoted
  known := h.known
  ahead id hid other hother := h.ahead id hid other (List.mem_cons_of_mem _ hother)
  barrier earlier later hsplit := h.barrier (item.terminalBarrier :: earlier) later (by
    rw [List.map_cons, hsplit, List.cons_append])
  room := Nat.le_of_succ_le h.room

private theorem congr {other : List PendingInput} {next : History} (h : Ledger history waiting)
    (hid : other.map PendingInput.id = waiting.map PendingInput.id)
    (hbarrier : other.map PendingInput.terminalBarrier =
      waiting.map PendingInput.terminalBarrier)
    (hnext : next.accepted = history.accepted ∧ next.promoted = history.promoted ∧
      next.consumed = history.consumed ∧ next.recalled = history.recalled) :
    Ledger next other where
  accounted := by
    rw [hnext.1, hnext.2.2.1, hnext.2.2.2, hid]
    exact h.accounted
  ordered := by
    rw [hnext.2.2.1, hid]
    exact h.ordered
  promoted := by
    rw [hnext.2.1]
    exact h.promoted
  known := by
    rw [hnext.1, hnext.2.1]
    exact h.known
  ahead := by
    rw [hnext.2.1, hid]
    exact h.ahead
  barrier := by
    rw [hbarrier]
    exact h.barrier
  room := by
    have hlength := congrArg List.length hid
    rw [List.length_map, List.length_map] at hlength
    rw [hlength]
    exact h.room

end Ledger

/-! ## Steps of the queue -/

namespace Terminal

variable {s t : Terminal}

/-- The queue is in order: its reference agrees with its state, a promotion is marked as running,
and the ledger of the inputs is kept. -/
structure InOrder (s : Terminal) : Prop where
  synced : s.queue.Synced
  running : s.promotion.isSome = true → s.running = true
  ledger : Ledger s.history s.waiting

private theorem InOrder.congr (h : s.InOrder) (hqueue : t.queue = s.queue)
    (hpromotion : t.promotion = s.promotion) (hrunning : t.running = s.running)
    (hnext : t.history.accepted = s.history.accepted ∧
      t.history.promoted = s.history.promoted ∧ t.history.consumed = s.history.consumed ∧
        t.history.recalled = s.history.recalled) : t.InOrder where
  synced := by
    rw [hqueue]
    exact h.synced
  running := by
    rw [hpromotion, hrunning]
    exact h.running
  ledger := by
    have hwaiting : t.waiting = s.waiting := by
      simp only [waiting, heldItem, hqueue, hpromotion]
    exact h.ledger.congr (by rw [hwaiting]) (by rw [hwaiting]) hnext

variable {item : PendingInput}

private theorem mem_waiting_of_current (h : item ∈ s.queue.current) :
    item ∈ s.waiting :=
  List.mem_append_right _ h

private theorem ShowsHeld.room {held : PendingInput} {raw : Text} {queue : PendingInputQueue}
    (h : s.ShowsHeld held) (haccepted : s.enqueue raw = (.accepted item, queue))
    (hfresh : ∀ other ∈ s.queue.current, other.id ≠ s.history.accepted) :
    held.terminalBarrier = false ∧ s.queue.current.length + 1 < maxPendingInputs := by
  obtain ⟨shown, hshown, hheld⟩ := h
  obtain ⟨-, -, -, hbarrier, -, hroom⟩ := PendingInputQueue.enqueue_accepted haccepted hfresh
  rw [Option.mem_def.mp hshown] at hbarrier hroom
  have hquit : held.terminalBarrier = shown.terminalBarrier := by rw [← hheld]
  exact ⟨hquit.trans hbarrier, hroom⟩

/-- A submission that meets the condition keeps the order. -/
theorem InOrder.submitOrQueue (h : s.InOrder) {raw : Text}
    (hmeets : s.Meets (.submitOrQueue raw)) : (s.submitOrQueue raw).InOrder := by
  unfold Terminal.submitOrQueue
  split
  · split
    · next item queue henqueue =>
      have hfresh : ∀ other ∈ s.queue.current, other.id ≠ s.history.accepted :=
        fun other hother => h.ledger.fresh (mem_waiting_of_current hother)
      obtain ⟨hitem, hqueue, hcurrent, -, hquit, hroom⟩ :=
        PendingInputQueue.enqueue_accepted henqueue hfresh
      have hheld : ∀ held ∈ s.heldItem,
          held.terminalBarrier = false ∧ s.queue.current.length + 1 < maxPendingInputs := by
        intro held hheld
        rcases hmeets held hheld (by rw [henqueue]; rfl) with hshown | hroom
        · exact hshown.room henqueue hfresh
        · exact hroom
      refine ⟨?_, h.running, ?_⟩
      · change queue.Synced
        rw [hqueue]
        exact h.synced.dispatch _
      · have hnone : ∀ item ∈ s.waiting, item.terminalBarrier = false := by
          intro item hitem
          rcases List.mem_append.mp hitem with hitem | hitem
          · exact (hheld item (Option.mem_toList.mp hitem)).1
          · exact hquit item hitem
        have hlength : s.waiting.length < maxPendingInputs := by
          unfold waiting
          rw [List.length_append]
          cases hsome : s.heldItem with
          | none =>
            simp only [Option.toList_none, List.length_nil]
            omega
          | some held =>
            have := (hheld held hsome).2
            simp only [Option.toList_some, List.length_singleton]
            omega
        have haccept := h.ledger.accept raw hnone hlength
        have hwaiting : Terminal.waiting { s with
            queue := queue
            history := { s.history with accepted := s.history.accepted + 1 } } =
            s.waiting ++ [createPendingInput s.history.accepted raw] := by
          change s.heldItem.toList ++ queue.current = _
          rw [hcurrent, hitem, waiting, List.append_assoc]
        rw [hwaiting]
        exact haccept
    · exact h
  · exact h

private theorem InOrder.recallInput (h : s.InOrder) : s.recallInput.InOrder := by
  unfold Terminal.recallInput PendingInputQueue.recallTail
  cases hlast : s.queue.current.getLast? with
  | none => exact h
  | some item =>
    obtain ⟨front, hfront⟩ := List.getLast?_eq_some_iff.mp hlast
    refine ⟨h.synced.dispatch _, h.running, ?_⟩
    have hledger := h.ledger
    have hwaiting : s.waiting = (s.heldItem.toList ++ front) ++ [item] := by
      rw [waiting, hfront, List.append_assoc]
    rw [hwaiting] at hledger
    have hnext : Terminal.waiting { s with
        queue := s.queue.dispatch .recallTail
        history := { s.history with recalled := s.history.recalled ++ [item.id] } } =
        s.heldItem.toList ++ front := by
      change s.heldItem.toList ++ s.queue.current.dropLast = _
      rw [hfront, List.dropLast_concat]
    dsimp only
    rw [hnext]
    exact hledger.recallInput

private theorem InOrder.render (h : s.InOrder) : s.render.InOrder := by
  have hcurrent := PendingInputQueue.render_current h.synced
  refine ⟨rfl, h.running, ?_⟩
  have hwaiting : s.render.waiting = s.waiting := by
    change s.heldItem.toList ++ s.queue.render.current = _
    rw [hcurrent, waiting]
  rw [hwaiting]
  exact h.ledger

private theorem InOrder.stopAwaiting (h : s.InOrder) : s.stopAwaiting.InOrder := by
  unfold Terminal.stopAwaiting
  split
  · exact h.congr rfl rfl rfl ⟨rfl, rfl, rfl, rfl⟩
  · exact h

private theorem drainHead_stopAwaiting (s : Terminal) : s.stopAwaiting.drainHead = s.drainHead := by
  unfold Terminal.stopAwaiting
  split <;> rfl

private theorem current_stopAwaiting (s : Terminal) : s.stopAwaiting.queue = s.queue := by
  unfold Terminal.stopAwaiting
  split <;> rfl

private theorem InOrder.drain (h : s.InOrder)
    (hhead : ∀ head ∈ s.drainHead, s.queue.current.head? = some head) : s.drain.InOrder := by
  unfold Terminal.drain
  cases hdrain : s.drainHead with
  | none => exact h
  | some head =>
    obtain ⟨rest, hcurrent⟩ := List.head?_eq_some_iff.mp (hhead head hdrain)
    have hidle : s.promotion = none := by
      unfold drainHead at hdrain
      split at hdrain
      · cases hdrain
      · next hfree =>
        simp only [Bool.or_eq_true, not_or, Bool.not_eq_true] at hfree
        cases hpromotion : s.promotion with
        | none => rfl
        | some promotion =>
          have hrunning := h.running (by rw [hpromotion]; rfl)
          rw [hfree.2] at hrunning
          cases hrunning
    have hledger := h.ledger
    have hwaiting : s.waiting = head :: rest := by
      simp only [waiting, heldItem, hidle, hcurrent, Option.toList_none, List.nil_append]
    rw [hwaiting] at hledger
    refine ⟨h.synced.dispatch _, fun _ => rfl, ?_⟩
    have hnext : [head] ++ pendingInputReducer s.queue.current (.acceptHead head.id) =
        head :: rest := by
      rw [hcurrent, pendingInputReducer_acceptHead, List.singleton_append]
    change Ledger { s.history with promoted := s.history.promoted ++ [head.id] }
      ([head] ++ pendingInputReducer s.queue.current (.acceptHead head.id))
    rw [hnext]
    exact hledger.promote

private theorem InOrder.runEffects (h : s.InOrder) (hmeets : s.Meets .runEffects) :
    s.runEffects.InOrder := by
  have hdrain : s.stopAwaiting.drain.InOrder := by
    refine h.stopAwaiting.drain fun head hhead => ?_
    rw [drainHead_stopAwaiting] at hhead
    rw [current_stopAwaiting]
    exact hmeets head hhead
  exact hdrain.congr rfl rfl rfl ⟨rfl, rfl, rfl, rfl⟩

private theorem InOrder.consume (h : s.InOrder)
    (hpromotion : s.promotion = some (.pending item)) (accepted : Option (OperationId × Nat)) :
    (s.consume item accepted).InOrder := by
  have hrunning := h.running (by rw [hpromotion]; rfl)
  have hledger := h.ledger
  have hwaiting : s.waiting = item :: s.queue.current := by
    simp only [waiting, heldItem, hpromotion, Option.toList_some, List.singleton_append]
  rw [hwaiting] at hledger
  cases accepted with
  | none => exact ⟨h.synced, fun _ => hrunning, hledger.consume⟩
  | some accepted =>
    exact ⟨h.synced, fun _ => hrunning,
      hledger.consume.congr rfl rfl ⟨rfl, rfl, rfl, rfl⟩⟩

private theorem InOrder.requeue (h : s.InOrder) {other : PendingInput}
    (hpromotion : s.promotion = some (.pending item)) (hid : other.id = item.id)
    (hbarrier : other.terminalBarrier = item.terminalBarrier) :
    Terminal.InOrder { s with promotion := some (.requeue other) } := by
  have hrunning := h.running (by rw [hpromotion]; rfl)
  have hledger := h.ledger
  have hwaiting : s.waiting = item :: s.queue.current := by
    simp only [waiting, heldItem, hpromotion, Option.toList_some, List.singleton_append]
  rw [hwaiting] at hledger
  refine ⟨h.synced, fun _ => hrunning, ?_⟩
  change Ledger s.history ([other] ++ s.queue.current)
  refine hledger.congr ?_ ?_ ⟨rfl, rfl, rfl, rfl⟩
  · rw [List.singleton_append, List.map_cons, List.map_cons, hid]
  · rw [List.singleton_append, List.map_cons, List.map_cons, hbarrier]

/-- An input that is put back stands in front. -/
theorem InOrder.requeueHead (h : s.InOrder) (hpromotion : s.promotion = some (.requeue item)) :
    (s.queue.requeueHead item).current = item :: s.queue.current := by
  have hledger := h.ledger
  have hwaiting : s.waiting = item :: s.queue.current := by
    simp only [waiting, heldItem, hpromotion, Option.toList_some, List.singleton_append]
  rw [hwaiting] at hledger
  refine pendingInputReducer_requeueHead (fun other hother => ?_) hledger.room
  have hordered := (List.pairwise_append.mp hledger.ordered).2.1
  exact (List.rel_of_pairwise_cons hordered (List.mem_map_of_mem hother)).ne'

private theorem InOrder.settle (h : s.InOrder) (ht : s.step .settle = some t) : t.InOrder := by
  unfold step at ht
  cases hpromotion : s.promotion with
  | none =>
    simp only [hpromotion] at ht
    cases ht
  | some promotion =>
    have hrunning := h.running (by rw [hpromotion]; rfl)
    cases promotion with
    | pending item =>
      simp only [hpromotion] at ht
      cases ht
    | handled =>
      simp only [hpromotion] at ht
      cases ht
    | consumed =>
      simp only [hpromotion] at ht
      cases ht
      have hwaiting : s.waiting = s.queue.current := by
        simp only [waiting, heldItem, hpromotion, Option.toList_none, List.nil_append]
      refine ⟨h.synced, fun _ => hrunning, ?_⟩
      change Ledger s.history s.queue.current
      rw [← hwaiting]
      exact h.ledger
    | requeue item =>
      simp only [hpromotion] at ht
      cases ht
      have hwaiting : s.waiting = item :: s.queue.current := by
        simp only [waiting, heldItem, hpromotion, Option.toList_some, List.singleton_append]
      refine ⟨h.synced.dispatch _, fun _ => hrunning, ?_⟩
      change Ledger s.history (s.queue.requeueHead item).current
      rw [h.requeueHead hpromotion, ← hwaiting]
      exact h.ledger

private theorem InOrder.finish (h : s.InOrder) (ht : s.step .finish = some t) : t.InOrder := by
  simp only [step] at ht
  split at ht
  · next hpromotion =>
    cases ht
    have hwaiting : s.waiting = s.queue.current := by
      simp only [waiting, heldItem, hpromotion, Option.toList_none, List.nil_append]
    refine ⟨h.synced, fun hsome => (by cases hsome), ?_⟩
    change Ledger s.history s.queue.current
    rw [← hwaiting]
    exact h.ledger
  · cases ht

/-- A step that meets the condition keeps the queue in order. -/
theorem InOrder.step (h : s.InOrder) {a : TerminalAction} (hmeets : s.Meets a)
    (ht : s.step a = some t) : t.InOrder := by
  cases a with
  | submitOrQueue raw =>
    cases ht
    exact h.submitOrQueue hmeets
  | recallInput =>
    cases ht
    exact h.recallInput
  | render =>
    simp only [Terminal.step] at ht
    split at ht
    · cases ht
    · cases ht
      exact h.render
  | runEffects =>
    simp only [Terminal.step] at ht
    split at ht
    · cases ht
      exact h.runEffects hmeets
    · cases ht
  | consume accepted =>
    simp only [Terminal.step] at ht
    split at ht
    · next item hpromotion =>
      cases ht
      exact h.consume hpromotion accepted
    · cases ht
  | refuse clientMessageId =>
    simp only [Terminal.step] at ht
    split at ht
    · next item hpromotion =>
      cases ht
      exact h.requeue hpromotion rfl rfl
    · cases ht
  | fail =>
    simp only [Terminal.step] at ht
    split at ht
    · next item hpromotion =>
      cases ht
      exact h.requeue hpromotion rfl rfl
    · cases ht
  | settle => exact h.settle ht
  | finish => exact h.finish ht
  | operationStarted id =>
    simp only [Terminal.step] at ht
    split at ht
    · cases ht
      exact h
    · cases ht
      exact h.congr rfl rfl rfl ⟨rfl, rfl, rfl, rfl⟩
  | operationEnded id =>
    cases ht
    exact h.congr rfl rfl rfl ⟨rfl, rfl, rfl, rfl⟩
  | reconciled =>
    simp only [Terminal.step] at ht
    split at ht
    · cases ht
      exact h
    · cases ht
      exact h.congr rfl rfl rfl ⟨rfl, rfl, rfl, rfl⟩
  | threadReplaced =>
    cases ht
    exact h.congr rfl rfl rfl ⟨rfl, rfl, rfl, rfl⟩
  | changed pendingInteraction composerMode composerSubmitting cancelling =>
    cases ht
    exact h.congr rfl rfl rfl ⟨rfl, rfl, rfl, rfl⟩

end Terminal

end AwesomeAgent.PendingInputs
