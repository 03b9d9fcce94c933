import AwesomeAgent.Operations.Placement

/-!
# What each step of the operation controller preserves

One lemma for each step of a starter, a task, a cancellation or a shutdown. Two steps
keep the invariant only if they avoid a race: a task that starts in a cancelled
Operation whose starter does not know, and a starter that is cancelled again while it
waits for a commit.
-/

namespace AwesomeAgent

namespace OperationController

variable {s t : OperationController} {o : Operation} {i : Nat} {phase : OperationPhase}

/-! ### Reservations -/

private theorem Lawful.reserve (h : s.Lawful) (admitted : Bool) : (s.reserve admitted).Lawful := by
  unfold OperationController.reserve
  split
  · exact h
  · next hnone =>
    split
    · exact h
    · next foreground hacquire =>
      split
      · have hid : s.activeId = none := by simpa using hnone
        unfold ForegroundArbiter.acquire at hacquire
        split at hacquire
        · cases hacquire
        · cases hacquire
          constructor
          · intro j p hp hj
            have hlast : j ≠ s.operations.length := fun he => hj (congrArg some he.symm)
            have hlt : j < s.operations.length := by
              have := (List.getElem?_eq_some_iff.mp hp).1
              simp only [List.length_append, List.length_singleton] at this
              omega
            rw [List.getElem?_append_left hlt] at hp
            exact h.retired j p hp (by simp [hid])
          · intro j hj
            cases hj
            refine ⟨.reservation, .reserved, ?_, rfl, rfl, ?_, rfl, ?_, rfl⟩
            · simp
            · rw [(h.idle hid).2.1]
              exact ⟨rfl, rfl, by simp [Operation.reservation], rfl, by simp, ⟨rfl, rfl⟩,
                by simp [Operation.reservation], by simp [Operation.reservation], Or.inl rfl⟩
            · exact (h.idle hid).2.2.1
          · intro hcontra
            cases hcontra
      · exact h

private theorem Lawful.unconsumed (h : s.Lawful) (ho : s.operations[i]? = some o)
    (hconsumed : o.consumed = false) : s.Holds i o .reserved := by
  by_cases hi : s.activeId = some i
  · obtain ⟨phase, hs⟩ := h.holds hi ho
    have hphase := hs.active.consumed.mp hconsumed
    exact hphase ▸ hs
  · have := (h.retired i o ho hi).consumed
    rw [hconsumed] at this
    cases this

private theorem Lawful.abort (h : s.Lawful) (i : Nat) : (s.abort i).Lawful := by
  unfold OperationController.abort
  split
  · exact h
  · next o ho =>
    split
    · exact h
    · next hconsumed =>
      have hs := h.unconsumed ho (by simpa using hconsumed)
      obtain ⟨habsent, hstarter⟩ := hs.active.placed
      dsimp only
      rw [if_pos hs.activeId]
      refine hs.forgetReservation h habsent hs.active.held
        ⟨rfl, by simp [hs.active.releases], rfl, Or.inl ⟨habsent, Or.inl hstarter⟩, ?_⟩
      exact hs.active.events.imp_right fun he => absurd (habsent.symm.trans he.1) (by simp)

private theorem Lawful.abortActive (h : s.Lawful) : s.abortActive.Lawful := by
  unfold OperationController.abortActive
  split
  · exact h
  · exact h.abort _

/-- The Operation that a step is about, and whether it is the active one. -/
theorem Lawful.cases (h : s.Lawful) (ho : s.operations[i]? = some o) :
    (∃ phase, s.Holds i o phase) ∨ (s.activeId ≠ some i ∧ o.Retired) := by
  by_cases hi : s.activeId = some i
  · exact Or.inl (h.holds hi ho)
  · exact Or.inr ⟨hi, h.retired i o ho hi⟩

private theorem Lawful.startReserved (h : s.Lawful) (hstep : s.startReserved i = some t) : t.Lawful
    := by
  obtain ⟨o, ho, hstep⟩ := Option.bind_eq_some_iff.mp hstep
  split at hstep
  · cases hstep
  · next hstarter =>
    rw [not_not] at hstarter
    split at hstep
    · next hrejected =>
      cases hstep
      have hi : s.activeId ≠ some i := by
        intro hi
        obtain ⟨phase, hs⟩ := h.holds hi ho
        have hconsumed := hrejected.resolve_right (not_not.mpr hi)
        have hplaced := hs.active.placed
        have hphase : phase ≠ .reserved := fun hp => by
          rw [hs.active.consumed.mpr hp] at hconsumed
          cases hconsumed
        cases phase <;> simp_all [Operation.PlacedIn, Operation.Woken, Operation.Shielding]
      obtain ⟨hreleased, hreleases, hconsumed, hplaced, hevents⟩ := h.retired i o ho hi
      refine h.touch hi ⟨hreleased, hreleases, hconsumed, ?_, hevents⟩
      exact Or.inl ⟨hplaced.elim And.left fun hp => by simp [hstarter] at hp, Or.inr rfl⟩
    · next hadmitted =>
      cases hstep
      rw [not_or, not_not] at hadmitted
      obtain ⟨hconsumed, hi⟩ := hadmitted
      have hs := h.unconsumed ho (by simpa using hconsumed)
      have ha := hs.active
      obtain ⟨habsent, -⟩ := ha.placed
      refine h.advance hs rfl rfl rfl ?_ rfl (hs.task.trans ?_) (hs.reservation.trans ?_)
      · exact ⟨ha.held, ha.releases, by simp, ha.outcome,
          ha.committed.trans (by simp), ⟨habsent, rfl⟩,
          fun hr => absurd habsent (ha.requested hr).1,
          fun hr => absurd habsent (ha.unready hr).1, ha.events⟩
      · rfl
      · rfl

/-! ### Starting the task -/

/-- The announcement of a start keeps the invariant, delivered or not. -/
theorem Lawful.announced (h : s.Lawful) {emitted : Bool} (hstep : s.announced i emitted = some t) :
    t.Lawful := by
  obtain ⟨o, ho, hstep⟩ := Option.bind_eq_some_iff.mp hstep
  split at hstep
  · cases hstep
  · next hstarter =>
    rw [not_not] at hstarter
    obtain ⟨phase, hs⟩ | ⟨-, hretired⟩ := h.cases ho
    · have ha := hs.active
      have hplaced : o.task = .absent ∧ (phase = .starting ∨ phase = .cancelling) := by
        have := ha.placed
        cases phase <;> simp_all [Operation.PlacedIn, Operation.Woken, Operation.Shielding]
      obtain ⟨habsent, hphase⟩ := hplaced
      have hconsumed : o.consumed = true := by
        by_contra hc
        have := ha.consumed.mp (by simpa using hc)
        simp [this] at hphase
      have hevents : o.events = [] := ha.events.resolve_right fun he => by simp [habsent] at he
      have hcommitted : s.committedTerminal = none := by
        have := ha.committed
        obtain rfl | rfl := hphase <;> simpa using this
      split at hstep
      · cases hstep
        have hrequest : o.cancelRequested = false := by
          by_contra hr
          exact (ha.requested (by simpa using hr)).1 habsent
        obtain rfl | rfl := hphase
        · refine h.advance hs rfl rfl (if_pos hs.inPhase) ?_ rfl rfl rfl
          change Operation.Active _ .running s.committedTerminal
          exact ⟨ha.held, ha.releases, by simp [hconsumed], ha.outcome, by simp [hcommitted],
            Or.inl ⟨rfl, rfl⟩, by simp [hrequest], fun hr => absurd habsent (ha.unready hr).1,
            Or.inl hevents⟩
        · refine h.advance hs rfl rfl ((if_neg (by simp [hs.inPhase])).trans hs.inPhase) ?_
            rfl rfl rfl
          change Operation.Active _ .cancelling s.committedTerminal
          exact ⟨ha.held, ha.releases, by simp [hconsumed], ha.outcome, by simp [hcommitted],
            Or.inr (Or.inl ⟨rfl, Or.inl rfl⟩), fun _ => ⟨by simp, fun _ => rfl⟩,
            fun hr => absurd habsent (ha.unready hr).1, Or.inl hevents⟩
      · cases hstep
        refine hs.forgetReservation h habsent ha.held
          ⟨rfl, by simp [ha.releases], hconsumed, Or.inl ⟨habsent, Or.inr rfl⟩, Or.inl hevents⟩
    · have := hretired.placed
      simp [hstarter] at this

/-- The first step of a task keeps the invariant when its starter knows of a cancellation. -/
theorem Lawful.firstStep (h : s.Lawful)
    (hknown : s.phase = some .cancelling → ∀ o, s.operations[i]? = some o →
      o.starter = .joining ∨ o.interrupted = true)
    (hstep : s.firstStep i = some t) : t.Lawful := by
  obtain ⟨o, ho, hstep⟩ := Option.bind_eq_some_iff.mp hstep
  split at hstep
  · cases hstep
  · next htask =>
    rw [not_not] at htask
    obtain ⟨phase, hs⟩ | ⟨-, hretired⟩ := h.cases ho
    · have ha := hs.active
      have hevents : o.events = [] := ha.events.resolve_right fun he => by simp [htask] at he
      have hplaced : (phase = .running ∧ o.starter = .waiting) ∨
          (phase = .cancelling ∧ (o.starter = .joining ∨
            (o.starter = .waiting ∧ o.interrupted = true))) := by
        have hp := ha.placed
        have hk := hs.inPhase
        cases phase <;> simp_all [Operation.PlacedIn]
        tauto
      have hactive : s.activeTask = some i := hs.task.trans (if_neg (by simp [htask]))
      have hreservation : s.activeReservation = none :=
        hs.reservation.trans (if_neg (by simp [htask]))
      split at hstep
      · next hrequest =>
        cases hstep
        obtain rfl := (ha.requested hrequest).2 htask
        refine h.advance hs rfl rfl hs.inPhase ?_ rfl hactive hreservation
        refine ⟨ha.held, ha.releases, ha.consumed, ha.outcome, ha.committed, ?_, by simp, by simp,
          Or.inl hevents⟩
        have hstarter := (hplaced.resolve_left (by simp)).2
        exact Or.inr (Or.inr (Or.inr (Or.inr ⟨rfl, hstarter.imp_right Or.inr⟩)))
      · next hrequest =>
        split at hstep
        · next hphase =>
          rw [if_pos hs.activeId] at hstep
          cases hstep
          obtain rfl := Option.some.inj (hs.inPhase.symm.trans hphase)
          refine h.advance hs rfl rfl hs.inPhase ?_ rfl hactive hreservation
          refine ⟨ha.held, ha.releases, ha.consumed, ha.outcome, ha.committed, ?_, by simp, by simp,
            Or.inl hevents⟩
          exact Or.inr (Or.inr (Or.inl ⟨rfl, (hplaced.resolve_left (by simp)).2⟩))
        · next hphase =>
          cases hstep
          rw [hs.inPhase] at hphase
          obtain ⟨rfl, hstarter⟩ := hplaced.resolve_right fun hp => hphase (congrArg some hp.1)
          refine h.advance hs rfl rfl hs.inPhase ?_ rfl hactive hreservation
          exact ⟨ha.held, ha.releases, ha.consumed, ha.outcome, ha.committed,
            Or.inr ⟨rfl, rfl, Or.inl hstarter⟩, by simp, by simp, Or.inl hevents⟩
    · have := hretired.task
      simp [htask] at this

/-! ### Committing and publishing -/

private theorem Holds.commitTerminal (h : s.Lawful) (hs : s.Holds i o phase)
    (outcome : CommittedOutcome)
    (hpresent : o.task ≠ .absent) (hphase : phase ≠ .reserved) (hready : o.ready = true)
    (hstarter : o.Woken ∨ o.Shielding) (hevents : o.events = []) :
    (s.commitTerminal i { o with task := .working } outcome).1.Lawful ∧
      (s.commitTerminal i { o with task := .working } outcome).1.Holds i
        (s.commitTerminal i { o with task := .working } outcome).2 .committed := by
  have ha := hs.active
  have hactive : Operation.Active
      { o with task := .working, outcome := some outcome } .committed (some outcome) := by
    refine ⟨ha.held, ha.releases, ?_, rfl, by simp, ⟨Or.inl rfl, hready, hstarter⟩, by simp,
      by simp, Or.inl hevents⟩
    exact ha.consumed.trans ⟨fun hp => absurd hp hphase, fun hp => by cases hp⟩
  have htask : s.activeTask = some i := hs.task.trans (if_neg hpresent)
  have hreservation : s.activeReservation = none := hs.reservation.trans (if_neg hpresent)
  refine ⟨h.advance hs rfl rfl rfl hactive rfl htask hreservation, ?_⟩
  refine ⟨?_, hs.activeId, rfl, hactive, hs.lease, htask, hreservation⟩
  exact List.getElem?_set_self hs.index

private theorem Holds.publishCancelling (h : s.Lawful) (hs : s.Holds i o .cancelling)
    (htask : o.task = .working) : (s.publishCancelling i o).Lawful := by
  have ha := hs.active
  unfold OperationController.publishCancelling
  rw [if_pos ⟨hs.activeId, hs.inPhase⟩]
  refine h.advance hs rfl rfl hs.inPhase ?_ rfl ?_ ?_
  · refine ⟨ha.held, ha.releases, ha.consumed, ha.outcome, ha.committed, ?_, by simp, by simp,
      Or.inl (ha.events.resolve_right fun he => by simp [htask] at he)⟩
    have hplaced := ha.placed
    simp only [Operation.PlacedIn, htask] at hplaced
    simpa [Operation.PlacedIn, Operation.Woken] using hplaced
  · exact hs.task.trans (by simp [htask])
  · exact hs.reservation.trans (by simp [htask])

private theorem Holds.publishCommittedTerminal (h : s.Lawful) (hs : s.Holds i o .committed)
    (htask : o.task = .working) : (s.publishCommittedTerminal i o).Lawful := by
  have ha := hs.active
  unfold OperationController.publishCommittedTerminal
  split
  · next hnone =>
    have := ha.committed
    simp [hnone] at this
  · next outcome hsome =>
    rw [if_pos ⟨hs.activeId, hs.inPhase⟩]
    refine h.advance hs rfl rfl hs.inPhase ?_ rfl ?_ ?_
    · have hevents : o.events = [] := ha.events.resolve_right fun he => by simp [htask] at he
      refine ⟨ha.held, ha.releases, ha.consumed, ha.outcome, ha.committed, ?_, by simp, by simp,
        Or.inl hevents⟩
      refine ⟨Or.inr ?_, ha.placed.2⟩
      rw [← hsome, ← ha.outcome]
    · exact hs.task.trans (by simp [htask])
    · exact hs.reservation.trans (by simp [htask])

private theorem Lawful.beginCommit (h : s.Lawful) (hstep : s.beginCommit i = some t) : t.Lawful
    := by
  obtain ⟨o, ho, hstep⟩ := Option.bind_eq_some_iff.mp hstep
  split at hstep
  · cases hstep
  · next htask =>
    rw [not_not] at htask
    split at hstep
    · next hrunning =>
      cases hstep
      obtain ⟨phase, hs⟩ := h.holds hrunning.1 ho
      obtain rfl := Option.some.inj (hs.inPhase.symm.trans hrunning.2)
      have ha := hs.active
      have hplaced := ha.placed.resolve_left fun hp => by simp [htask] at hp
      refine h.advance hs rfl rfl rfl ?_ rfl (hs.task.trans (by simp [htask]))
        (hs.reservation.trans (by simp [htask]))
      change Operation.Active _ .committing s.committedTerminal
      exact ⟨ha.held, ha.releases, ha.consumed.trans (by simp), ha.outcome,
        ha.committed.trans (by simp), ⟨rfl, hplaced.2.1, Or.inl hplaced.2.2⟩, by simp,
        by simp, Or.inl (ha.events.resolve_right fun he => by simp [htask] at he)⟩
    · cases hstep
      exact h

private theorem Lawful.endCommit (h : s.Lawful) {outcome : CommittedOutcome}
    (hstep : s.endCommit i outcome = some t) : t.Lawful := by
  obtain ⟨o, ho, hstep⟩ := Option.bind_eq_some_iff.mp hstep
  split at hstep
  · cases hstep
  · next htask =>
    rw [not_or, not_not] at htask
    cases hstep
    obtain ⟨phase, hs⟩ | ⟨-, hretired⟩ := h.cases ho
    · have ha := hs.active
      have hplaced : phase = .committing ∧ o.ready = true ∧
          (o.Woken ∨ o.Shielding) := by
        have := ha.placed
        cases phase <;> simp_all [Operation.PlacedIn]
      obtain ⟨rfl, hready, hstarter⟩ := hplaced
      exact (hs.commitTerminal h outcome (by simp [htask.1]) (by simp) hready hstarter
        (ha.events.resolve_right fun he => by simp [htask.1] at he)).1
    · have := hretired.task
      simp [htask.1] at this

private theorem Lawful.working (h : s.Lawful) (ho : s.operations[i]? = some o)
    (htask : o.task = .working) :
    s.Holds i o .cancelling ∨ s.Holds i o .committed ∨
      (s.Holds i o .running ∧ o.ready = true ∧ o.Woken) := by
  obtain ⟨phase, hs⟩ | ⟨-, hretired⟩ := h.cases ho
  · have hplaced := hs.active.placed
    cases phase with
    | running => exact Or.inr (Or.inr ⟨hs, by simpa [Operation.PlacedIn, htask] using hplaced⟩)
    | cancelling => exact Or.inl hs
    | committed => exact Or.inr (Or.inl hs)
    | reserved | starting | committing => simp [Operation.PlacedIn, htask] at hplaced
  · have := hretired.task
    simp [htask] at this

private theorem Lawful.settle (h : s.Lawful) (ho : s.operations[i]? = some o)
    (htask : o.task = .working)
    (outcome : CommittedOutcome) : (s.settle i o outcome).Lawful := by
  unfold OperationController.settle
  obtain hs | hs | ⟨hs, hready, hstarter⟩ := h.working ho htask
  · rw [if_pos hs.inPhase]
    exact hs.publishCancelling h htask
  · rw [if_neg (by simp [hs.inPhase]), if_neg (by simp [hs.inPhase])]
    exact hs.publishCommittedTerminal h htask
  · rw [if_neg (by simp [hs.inPhase]), if_pos hs.inPhase]
    have hevents := hs.active.events.resolve_right fun he => by simp [htask] at he
    have hsame : { o with task := .working } = o := by rw [← htask]
    obtain ⟨hlawful, hcommitted⟩ := hs.commitTerminal h outcome (by simp [htask])
      (by simp) hready (Or.inl hstarter) hevents
    rw [hsame] at hlawful hcommitted
    exact hcommitted.publishCommittedTerminal hlawful htask

private theorem Lawful.conclude (h : s.Lawful) {result : FactoryResult}
    (hstep : s.conclude i result = some t) : t.Lawful := by
  obtain ⟨o, ho, hstep⟩ := Option.bind_eq_some_iff.mp hstep
  split at hstep
  · cases hstep
  · next htask =>
    rw [not_not] at htask
    cases result with
    | returned =>
      cases hstep
      exact h.settle ho htask .completed
    | raised =>
      cases hstep
      exact h.settle ho htask .failed
    | cancelled =>
      dsimp only at hstep
      obtain hs | hs | ⟨hs, hready, hstarter⟩ := h.working ho htask
      · rw [if_neg (by simp [hs.inPhase])] at hstep
        cases hstep
        have hsame : { s with phase := some .cancelling } = s := by rw [← hs.inPhase]
        rw [hsame]
        exact hs.publishCancelling h htask
      · rw [if_pos hs.inPhase] at hstep
        cases hstep
        exact hs.publishCommittedTerminal h htask
      · rw [if_neg (by simp [hs.inPhase])] at hstep
        cases hstep
        have ha := hs.active
        have hcancelling : { s with phase := some .cancelling }.Holds i o .cancelling := by
          refine ⟨ho, hs.activeId, rfl, ?_, hs.lease, hs.task, hs.reservation⟩
          exact ⟨ha.held, ha.releases, ha.consumed.trans (by simp), ha.outcome,
            ha.committed.trans (by simp),
            Or.inr (Or.inr (Or.inr (Or.inl ⟨Or.inl htask, hready, Or.inl hstarter⟩))),
            fun hr => ⟨(ha.requested hr).1, fun _ => rfl⟩, ha.unready, ha.events⟩
        refine hcancelling.publishCancelling ?_ htask
        exact ⟨h.retired, fun j hj => by
          rw [show j = i from Option.some.inj (hj.symm.trans hs.activeId)]
          exact ⟨o, .cancelling, hcancelling⟩, fun hnone => by
          rw [hs.activeId] at hnone
          cases hnone⟩

private theorem Lawful.published (h : s.Lawful) {delivered : Bool}
    (hstep : s.published i delivered = some t) : t.Lawful := by
  obtain ⟨o, ho, hstep⟩ := Option.bind_eq_some_iff.mp hstep
  split at hstep
  · cases hstep
  · next hstarter =>
    obtain ⟨phase, hs⟩ | ⟨-, hretired⟩ := h.cases ho
    · have ha := hs.active
      have hplaced := ha.placed
      split at hstep
      · next htask =>
        cases hstep
        have hcancelling : phase = .cancelling ∧ o.starter = .joining := by
          cases phase <;> simp_all [Operation.PlacedIn]
        obtain ⟨rfl, hjoining⟩ := hcancelling
        have hevents : o.events = [] := ha.events.resolve_right fun he => by simp [htask] at he
        rw [Operation.deliver_eq]
        refine h.advance hs rfl rfl hs.inPhase ?_ rfl (hs.task.trans (by simp [htask]))
          (hs.reservation.trans (by simp [htask]))
        refine ⟨ha.held, ha.releases, ha.consumed, ha.outcome, ha.committed, ?_, by simp, by simp,
          ?_⟩
        · exact Or.inr (Or.inr (Or.inr (Or.inr ⟨rfl, Or.inl hjoining⟩)))
        · by_cases hd : delivered = true <;> simp [hd, hevents]
      · next event htask =>
        cases hstep
        have hevents : o.events = [] := ha.events.resolve_right fun he => by simp [htask] at he
        have hends := ha.publishing htask hstarter
        have hconsumed : o.consumed = true := by
          by_contra hc
          have := ha.consumed.mp (by simpa using hc)
          simp [this, Operation.PlacedIn, htask] at hplaced
        rw [Operation.deliver_eq]
        unfold OperationController.cleanUp
        refine hs.forgetTask h (by simp [htask]) ha.held
          ⟨rfl, by simp [ha.releases], hconsumed, Or.inr ⟨rfl, hends.2⟩, ?_⟩
        by_cases hd : delivered = true <;> simp [hd, hevents, hends.1]
      · cases hstep
    · have := hretired.task
      split at hstep <;> simp_all

/-! ### The starter after its task -/

private theorem Lawful.forgetStarter (h : s.Lawful) : { s with starterTask := none }.Lawful :=
  h.congr rfl rfl rfl rfl rfl rfl fun _ => Iff.rfl

private theorem modify_eq_set (ho : s.operations[i]? = some o) (f : Operation → Operation) :
    s.operations.modify i f = s.operations.set i (f o) := by
  rw [List.modify_eq_set_getElem?, ho]
  rfl

/-- A starter that goes on keeps the invariant. -/
theorem Lawful.resume (h : s.Lawful) (hstep : s.resume i = some t) : t.Lawful := by
  obtain ⟨o, ho, hstep⟩ := Option.bind_eq_some_iff.mp hstep
  split at hstep
  · cases hstep
  · next hstarter =>
    rw [not_not] at hstarter
    obtain ⟨phase, hs⟩ | ⟨-, hretired⟩ := h.cases ho
    · have ha := hs.active
      split at hstep
      · next hinterrupted =>
        dsimp only at hstep
        split at hstep
        · next hphase =>
          cases hstep
          obtain rfl := Option.some.inj (hs.inPhase.symm.trans hphase)
          have hcancelled := ha.cancelTask
          rw [Operation.cancelTask_eq] at hcancelled
          rw [Operation.cancelTask_eq]
          exact h.advance hs rfl rfl rfl (hcancelled.join hstarter) rfl hs.task hs.reservation
        · next hrunning =>
          split at hstep
          · next hphase =>
            cases hstep
            obtain rfl := Option.some.inj (hs.inPhase.symm.trans hphase)
            exact h.advance hs rfl rfl hs.inPhase (ha.join hstarter) rfl hs.task hs.reservation
          · next hcancelling =>
            cases hstep
            rw [hs.inPhase, Option.some_inj] at hrunning hcancelling
            exact h.advance hs rfl rfl hs.inPhase (ha.shield hstarter hrunning hcancelling) rfl
              hs.task hs.reservation
      · next hcalm =>
        split at hstep
        · next hready =>
          cases hstep
          exact h.advance hs rfl rfl hs.inPhase (ha.wake hstarter (by simpa using hcalm) hready)
            rfl hs.task hs.reservation
        · cases hstep
    · have := hretired.placed
      simp [hstarter] at this

/-- A starter whose task has ended keeps the invariant. -/
theorem Lawful.joined (h : s.Lawful) (hstep : s.joined i = some t) : t.Lawful := by
  obtain ⟨o, ho, hstep⟩ := Option.bind_eq_some_iff.mp hstep
  split at hstep
  · next hjoined =>
    obtain ⟨phase, hs⟩ | ⟨hi, hretired⟩ := h.cases ho
    · have ha := hs.active
      obtain ⟨rfl, htask⟩ := ha.joined hjoined
      rw [if_neg (not_not.mpr hs.activeId), if_pos hs.inPhase] at hstep
      cases hstep
      refine h.advance hs rfl rfl hs.inPhase ?_ rfl hs.task hs.reservation
      exact ⟨ha.held, ha.releases, ha.consumed, ha.outcome, ha.committed,
        Or.inr (Or.inr (Or.inr (Or.inr ⟨htask, Or.inr (Or.inl rfl)⟩))), ha.requested, ha.unready,
        ha.events⟩
    · rw [if_pos hi] at hstep
      cases hstep
      have htask : o.task = .finished := by
        refine hretired.placed.elim (fun hp => ?_) And.left
        obtain ⟨hstarter, -⟩ | ⟨hstarter, -⟩ := hjoined <;> simp [hstarter] at hp
      have hfinished : { o with starter := .finished }.Retired :=
        ⟨hretired.released, hretired.releases, hretired.consumed, Or.inr ⟨htask, Or.inl rfl⟩,
          hretired.events⟩
      exact (h.touch hi hfinished).forgetStarter
  · cases hstep

/-- The terminal event of a starter keeps the invariant, delivered or not. -/
theorem Lawful.starterPublished (h : s.Lawful) {delivered : Bool}
    (hstep : s.starterPublished i delivered = some t) : t.Lawful := by
  obtain ⟨o, ho, hstep⟩ := Option.bind_eq_some_iff.mp hstep
  split at hstep
  · cases hstep
  · next hstarter =>
    rw [not_not] at hstarter
    cases hstep
    obtain ⟨phase, hs⟩ | ⟨-, hretired⟩ := h.cases ho
    · have ha := hs.active
      obtain ⟨rfl, htask⟩ := ha.starterPublishing hstarter
      have houtcome : o.outcome = none := by
        rw [ha.outcome]
        simpa using ha.committed
      have hconsumed : o.consumed = true := by
        by_contra hc
        exact absurd (ha.consumed.mp (by simpa using hc)) (by simp)
      rw [Operation.deliver_eq]
      unfold OperationController.finishStarter
      refine Lawful.forgetStarter (hs.forgetTask h (by simp [htask]) ?_ ?_)
      · exact ha.held
      · refine ⟨rfl, by simp [ha.releases], hconsumed, Or.inr ⟨htask, Or.inl rfl⟩, ?_⟩
        simp only [houtcome, TerminalEventType.ofOutcome]
        obtain hevents | ⟨-, hevents⟩ := ha.events
        · by_cases hd : delivered = true <;> simp [hd, hevents]
        · simp [hevents]
    · have := hretired.placed
      simp [hstarter] at this

/-! ### Cancellations -/

private theorem Lawful.interrupt (h : s.Lawful)
    (hshielding : ∀ o, s.operations[i]? = some o → o.starter = .shielding → o.task = .finished) :
    (s.interrupt i).Lawful := by
  cases ho : s.operations[i]? with
  | none =>
    have hsame : s.interrupt i = s := by
      unfold OperationController.interrupt
      rw [List.modify_eq_set_getElem?, ho]
      rfl
    rw [hsame]
    exact h
  | some o =>
    obtain ⟨phase, hs⟩ | ⟨hi, hretired⟩ := h.cases ho
    · refine h.advance hs (modify_eq_set ho _) rfl hs.inPhase (hs.active.interrupt fun hst => ?_)
        rfl ?_ ?_
      · have hplaced := hs.active.placed
        have htask := hshielding o ho hst
        cases phase <;>
          simp_all [Operation.PlacedIn, Operation.Woken, Operation.Shielding]
      · exact hs.task.trans (by rw [Operation.interrupt_task])
      · exact hs.reservation.trans (by rw [Operation.interrupt_task])
    · exact (h.touch hi hretired.interrupt).congr (modify_eq_set ho _) rfl rfl rfl rfl rfl
        fun _ => Iff.rfl

private theorem Holds.cancelTask (h : s.Lawful) (hs : s.Holds i o .running) :
    ({ s with phase := some .cancelling }.cancelTask i).Lawful := by
  have hactive := hs.active.cancelTask
  rw [Operation.cancelTask_eq] at hactive
  refine h.advance hs (modify_eq_set (s := s) hs.found _) rfl rfl ?_ rfl ?_ ?_
  · rw [Operation.cancelTask_eq]
    exact hactive
  · rw [Operation.cancelTask_eq]
    exact hs.task
  · rw [Operation.cancelTask_eq]
    exact hs.reservation

private theorem Lawful.activeTask (h : s.Lawful) {task : Nat} (htask : s.activeTask = some task) :
    ∃ o phase, s.Holds task o phase := by
  cases hactive : s.activeId with
  | none =>
    rw [(h.idle hactive).2.2.1] at htask
    cases htask
  | some i =>
    obtain ⟨o, phase, hs⟩ := h.active i hactive
    rw [hs.task] at htask
    split at htask
    · cases htask
    · cases htask
      exact ⟨o, phase, hs⟩

private theorem Lawful.cancelRunning (h : s.Lawful) {task : Nat} (htask : s.activeTask = some task)
    :
    (s.cancelRunning task).Lawful := by
  unfold OperationController.cancelRunning
  split
  · next hphase =>
    obtain ⟨o, phase, hs⟩ := h.activeTask htask
    obtain rfl := Option.some.inj (hs.inPhase.symm.trans hphase)
    exact hs.cancelTask h
  · exact h

private theorem Lawful.cancel (h : s.Lawful) (i : Nat) : (s.cancel i).Lawful := by
  unfold OperationController.cancel
  split
  · next hstarting =>
    obtain ⟨o, phase, hs⟩ := h.active i hstarting.1
    obtain rfl := Option.some.inj (hs.inPhase.symm.trans hstarting.2)
    have ha := hs.active
    refine h.advance hs ?_ rfl rfl ?_ rfl hs.task hs.reservation
    · obtain ⟨hlt, hget⟩ := List.getElem?_eq_some_iff.mp hs.found
      exact hget ▸ (List.set_getElem_self hlt).symm
    · exact ⟨ha.held, ha.releases, ha.consumed.trans (by simp), ha.outcome,
        ha.committed.trans (by simp), Or.inl ha.placed,
        fun hr => ⟨(ha.requested hr).1, fun _ => rfl⟩,
        ha.unready, ha.events⟩
  · split
    · exact h
    · next task htask =>
      split
      · exact h
      · next hrunning =>
        rw [not_or, not_not, not_not] at hrunning
        have := h.cancelRunning htask
        unfold OperationController.cancelRunning at this
        rwa [if_pos hrunning.2] at this

private theorem Lawful.shutDownTask (h : s.Lawful) : s.shutDownTask.1.Lawful := by
  unfold OperationController.shutDownTask
  split
  · exact h.abortActive
  · next task htask => exact h.cancelRunning htask

private theorem Lawful.withShutdowns (h : s.Lawful) (shutdowns : List ShutdownPoint) :
    { s with shutdowns := shutdowns }.Lawful :=
  h.congr rfl rfl rfl rfl rfl rfl fun _ => Iff.rfl

/-- The starter that a step cancels. -/
def interrupts (s : OperationController) : OperationAction → Option Nat
  | .interrupt i => some i
  | .shutdown caller => if s.starterTask = caller then none else s.starterTask
  | .resumeShutdown k _ =>
      match s.shutdowns[k]? with
      | some (.awaitingStarter i) => some i
      | _ => none
  | _ => none

/-- The steps that avoid the two races. -/
def AvoidsRaces (s : OperationController) : OperationAction → Prop
  | .firstStep i =>
      s.phase = some .cancelling →
        ∀ o ∈ s.operations[i]?, o.starter = .joining ∨ o.interrupted = true
  | action =>
      ∀ i ∈ s.interrupts action, ∀ o ∈ s.operations[i]?,
        o.starter = .shielding → o.task = .finished

instance (s : OperationController) (action : OperationAction) :
    Decidable (s.AvoidsRaces action) := by
  cases action <;> unfold AvoidsRaces <;> infer_instance

private theorem Lawful.shutdown (h : s.Lawful) {caller : Option Nat}
    (hraces : s.AvoidsRaces (.shutdown caller)) : (s.shutdown caller).Lawful := by
  have hclosing : { s with foreground := s.foreground.beginClosing }.Lawful :=
    h.congr rfl rfl rfl rfl rfl rfl fun _ => Iff.rfl
  unfold OperationController.shutdown suspend
  dsimp only
  split
  · exact hclosing.shutDownTask.withShutdowns _
  · next starter hstarter =>
    split
    · exact hclosing.abortActive.shutDownTask.withShutdowns _
    · next hcaller =>
      refine (hclosing.interrupt (hraces starter ?_)).withShutdowns _
      change (if s.starterTask = caller then none else s.starterTask) = some starter
      rw [if_neg fun he => hcaller (he.symm.trans hstarter)]
      exact hstarter

private theorem Lawful.resumeShutdown (h : s.Lawful) {k : Nat} {cancelled : Bool}
    (hraces : s.AvoidsRaces (.resumeShutdown k cancelled))
    (hstep : s.resumeShutdown k cancelled = some t) : t.Lawful := by
  obtain ⟨point, hpoint, hstep⟩ := Option.bind_eq_some_iff.mp hstep
  cases point with
  | awaitingStarter i =>
    dsimp only at hstep
    split at hstep
    · cases hstep
      exact h.shutDownTask.withShutdowns _
    · split at hstep
      · cases hstep
        refine h.interrupt (hraces i ?_)
        simp only [interrupts, hpoint, Option.mem_def]
      · cases hstep
  | awaitingTask i =>
    dsimp only at hstep
    split at hstep
    · cases hstep
      exact h.abortActive.withShutdowns _
    · cases hstep
  | finished => cases hstep

private theorem Lawful.acquireExclusive (h : s.Lawful) (owner : Nat) :
    (s.acquireExclusive owner).Lawful := by
  unfold OperationController.acquireExclusive
  split
  · exact h
  · next foreground hacquire =>
    unfold ForegroundArbiter.acquire at hacquire
    split at hacquire
    · cases hacquire
    · next hfree =>
      cases hacquire
      refine h.congr rfl rfl rfl rfl rfl rfl fun i => ?_
      have hnone : s.foreground.lease = none := by simpa using (not_or.mp hfree).2
      simp [hnone]

private theorem Lawful.releaseExclusive (h : s.Lawful) (owner : Nat) :
    (s.releaseExclusive owner).Lawful := by
  unfold OperationController.releaseExclusive ForegroundArbiter.release
  split
  · next hlease => exact h.congr rfl rfl rfl rfl rfl rfl fun i => by simp [hlease]
  · exact h.congr rfl rfl rfl rfl rfl rfl fun _ => Iff.rfl

/-- Every step that avoids the two races keeps the invariant. -/
theorem Lawful.step (h : s.Lawful) {action : OperationAction} (hraces : s.AvoidsRaces action)
    (hstep : s.step action = some t) : t.Lawful := by
  cases action with
  | reserve admitted => exact Option.some.inj hstep ▸ h.reserve admitted
  | abort i => exact Option.some.inj hstep ▸ h.abort i
  | startReserved i => exact h.startReserved hstep
  | announced i emitted => exact h.announced hstep
  | firstStep i => exact h.firstStep hraces hstep
  | beginCommit i => exact h.beginCommit hstep
  | endCommit i outcome => exact h.endCommit hstep
  | conclude i result => exact h.conclude hstep
  | published i delivered => exact h.published hstep
  | resume i => exact h.resume hstep
  | joined i => exact h.joined hstep
  | starterPublished i delivered => exact h.starterPublished hstep
  | interrupt i => exact Option.some.inj hstep ▸ h.interrupt (hraces i rfl)
  | cancel i => exact Option.some.inj hstep ▸ h.cancel i
  | shutdown caller => exact Option.some.inj hstep ▸ h.shutdown hraces
  | resumeShutdown k cancelled => exact h.resumeShutdown hraces hstep
  | acquireExclusive owner => exact Option.some.inj hstep ▸ h.acquireExclusive owner
  | releaseExclusive owner => exact Option.some.inj hstep ▸ h.releaseExclusive owner

end OperationController

end AwesomeAgent
