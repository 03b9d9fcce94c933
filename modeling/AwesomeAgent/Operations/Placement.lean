import AwesomeAgent.Operations.Controller

/-!
# Where starter and task are in each phase

The invariant of the operation controller: it places starter and task of the active
Operation in each phase, and says that every other Operation has given its lease back.
-/

namespace AwesomeAgent

variable {o : Operation} {i j : Nat}

namespace Operation

/-- The starter may still have to notice that its task is ready. -/
def Woken (o : Operation) : Prop := o.starter = .waiting ∨ o.starter = .finished

/-- The starter was cancelled once and waits for a commit. -/
def Shielding (o : Operation) : Prop := o.starter = .shielding ∧ o.interrupted = false

/-- Where starter and task of the active Operation are in a phase. -/
def PlacedIn (o : Operation) : OperationPhase → Prop
  | .reserved => o.task = .absent ∧ o.starter = .reserved
  | .starting => o.task = .absent ∧ o.starter = .announcing
  | .running =>
      (o.task = .created ∧ o.starter = .waiting) ∨
        (o.task = .working ∧ o.ready = true ∧ o.Woken)
  | .committing => o.task = .committing ∧ o.ready = true ∧ (o.Woken ∨ o.Shielding)
  | .committed =>
      (o.task = .working ∨ o.task = .publishing (.ofOutcome o.outcome)) ∧ o.ready = true ∧
        (o.Woken ∨ o.Shielding)
  | .cancelling =>
      (o.task = .absent ∧ o.starter = .announcing) ∨
        (o.task = .created ∧ (o.starter = .waiting ∨ o.starter = .joining)) ∨
        (o.task = .preempted ∧
          (o.starter = .joining ∨ (o.starter = .waiting ∧ o.interrupted = true))) ∨
        ((o.task = .working ∨ o.task = .publishing .operationCancelled) ∧ o.ready = true ∧
          (o.Woken ∨ o.starter = .joining)) ∨
        (o.task = .finished ∧ (o.starter = .joining ∨ o.starter = .publishing ∨
          (o.starter = .waiting ∧ o.interrupted = true)))

/-- What holds of the active Operation. -/
structure Active (o : Operation) (phase : OperationPhase)
    (committedTerminal : Option CommittedOutcome) : Prop where
  held : o.released = false
  releases : o.releases = 0
  consumed : o.consumed = false ↔ phase = .reserved
  outcome : o.outcome = committedTerminal
  committed : committedTerminal.isSome ↔ phase = .committed
  placed : o.PlacedIn phase
  requested : o.cancelRequested = true →
    o.task ≠ .absent ∧ (o.task = .created → phase = .cancelling)
  unready : o.ready = true → o.task ≠ .absent ∧ o.task ≠ .created
  events : o.events = [] ∨ (o.task = .finished ∧ o.events = [.operationCancelled])

/-- What holds of an Operation that is not active any more. -/
structure Retired (o : Operation) : Prop where
  released : o.released = true
  releases : o.releases = 1
  consumed : o.consumed = true
  placed : (o.task = .absent ∧ (o.starter = .reserved ∨ o.starter = .finished)) ∨
    (o.task = .finished ∧
      (o.starter = .finished ∨ o.starter = .joining ∨ o.starter = .shielding))
  events : o.events = [] ∨ o.events = [.ofOutcome o.outcome]

/-- An emission is recorded once. -/
theorem deliver_eq (o : Operation) (event : TerminalEventType) (delivered : Bool) :
    o.deliver event delivered =
      { o with events := if delivered ∧ o.events = [] then [event] else o.events } := by
  unfold deliver
  split <;> rfl

/-- A task that was not started remembers its cancellation. -/
theorem cancelTask_eq (o : Operation) :
    o.cancelTask =
      { o with cancelRequested := if o.task = .created then true else o.cancelRequested } := by
  unfold cancelTask
  split <;> rfl

section Placement

variable {phase : OperationPhase} {committedTerminal : Option CommittedOutcome}

/-- Cancelling a running Operation. -/
theorem Active.cancelTask (h : o.Active .running committedTerminal) :
    o.cancelTask.Active .cancelling committedTerminal := by
  rw [cancelTask_eq]
  refine ⟨h.held, h.releases, h.consumed.trans (by simp), h.outcome, h.committed.trans (by simp),
    ?_, fun _ => ⟨fun ht => ?_, fun _ => rfl⟩, h.unready, h.events⟩
  · exact h.placed.elim (fun hp => Or.inr (Or.inl ⟨hp.1, Or.inl hp.2⟩)) fun hp =>
      Or.inr (Or.inr (Or.inr (Or.inl ⟨Or.inl hp.1, hp.2.1, Or.inl hp.2.2⟩)))
  · have hplaced := h.placed
    simp only [PlacedIn, show o.task = .absent from ht] at hplaced
    simp at hplaced

/-- A starter that waits in a cancelled Operation learns of it. -/
theorem Active.join (h : o.Active .cancelling committedTerminal) (hstarter : o.starter = .waiting) :
    { o with interrupted := false, starter := .joining }.Active .cancelling committedTerminal := by
  refine ⟨h.held, h.releases, h.consumed, h.outcome, h.committed, ?_, h.requested, h.unready,
    h.events⟩
  have hplaced := h.placed
  simp only [PlacedIn, Woken, hstarter] at hplaced ⊢
  tauto

/-- A cancelled starter that waits while the outcome is committed. -/
theorem Active.shield (h : o.Active phase committedTerminal) (hstarter : o.starter = .waiting)
    (hrunning : phase ≠ .running) (hcancelling : phase ≠ .cancelling) :
    { o with interrupted := false, starter := .shielding }.Active phase committedTerminal := by
  refine ⟨h.held, h.releases, h.consumed, h.outcome, h.committed, ?_, h.requested, h.unready,
    h.events⟩
  have hplaced := h.placed
  cases phase <;> simp_all [PlacedIn, Woken, Shielding]

/-- The starter returns the handle of a task that is ready. -/
theorem Active.wake (h : o.Active phase committedTerminal) (hstarter : o.starter = .waiting)
    (hinterrupted : o.interrupted = false) (hready : o.ready = true) :
    { o with starter := .finished }.Active phase committedTerminal := by
  refine ⟨h.held, h.releases, h.consumed, h.outcome, h.committed, ?_, h.requested, h.unready,
    h.events⟩
  have hplaced := h.placed
  have hstarted := h.unready hready
  cases phase <;> simp_all [PlacedIn, Woken, Shielding]

/-- The starter finds its Operation still active after its task only if it was cancelled. -/
theorem Active.joined (h : o.Active phase committedTerminal)
    (hjoined : (o.starter = .joining ∧ o.task = .finished) ∨
      (o.starter = .shielding ∧ (o.task = .finished ∨ o.interrupted = true))) :
    phase = .cancelling ∧ o.task = .finished := by
  have hplaced := h.placed
  obtain ⟨hstarter, htask⟩ | ⟨hstarter, htask | hinterrupted⟩ := hjoined <;>
    cases phase <;> simp_all [PlacedIn, Woken, Shielding]

/-- The event that the task publishes matches the outcome, and the starter does not wait. -/
theorem Active.publishing (h : o.Active phase committedTerminal) {event : TerminalEventType}
    (htask : o.task = .publishing event) (hstarter : o.starter ≠ .waiting) :
    event = .ofOutcome o.outcome ∧
      (o.starter = .finished ∨ o.starter = .joining ∨ o.starter = .shielding) := by
  have hplaced := h.placed
  have houtcome := h.outcome
  have hcommitted := h.committed
  cases phase <;> simp_all [PlacedIn, Woken, Shielding]
  · exact ⟨rfl, hplaced.2.2.imp_right Or.inl⟩
  · exact hplaced.2.2.imp_right fun hs => Or.inr hs.1

/-- The starter publishes only for a task that was cancelled before its first step. -/
theorem Active.starterPublishing (h : o.Active phase committedTerminal)
    (hstarter : o.starter = .publishing) : phase = .cancelling ∧ o.task = .finished := by
  have hplaced := h.placed
  cases phase <;> simp_all [PlacedIn, Woken, Shielding]

/-- An interruption leaves the task. -/
theorem interrupt_task (o : Operation) : o.interrupt.task = o.task := by
  unfold Operation.interrupt
  split
  · rfl
  · rw [cancelTask_eq]
  · rfl

/-- Interrupting the starter, except while it shields a commit. -/
theorem Active.interrupt (h : o.Active phase committedTerminal)
    (hshielding : o.starter ≠ .shielding) : o.interrupt.Active phase committedTerminal := by
  unfold Operation.interrupt
  split
  · exact h
  · next hjoining =>
    rw [cancelTask_eq]
    have hplaced := h.placed
    refine ⟨h.held, h.releases, h.consumed, h.outcome, h.committed, hplaced, fun _ => ?_, h.unready,
      h.events⟩
    cases phase <;> simp_all [PlacedIn, Woken, Shielding]
    rintro habsent
    simp [habsent] at hplaced
  · refine ⟨h.held, h.releases, h.consumed, h.outcome, h.committed, ?_, h.requested, h.unready,
      h.events⟩
    have hplaced := h.placed
    cases phase <;> simp_all [PlacedIn, Woken, Shielding]
    tauto

/-- A retired Operation stays retired when it is interrupted. -/
theorem Retired.interrupt (h : o.Retired) : o.interrupt.Retired := by
  unfold Operation.interrupt
  split
  · exact h
  · rw [cancelTask_eq]
    exact ⟨h.released, h.releases, h.consumed, h.placed, h.events⟩
  · exact ⟨h.released, h.releases, h.consumed, h.placed, h.events⟩

/-- Where the starter of the active Operation is when its task is finished. -/
theorem Active.finished (h : o.Active phase committedTerminal) (htask : o.task = .finished) :
    phase = .cancelling ∧ (o.starter = .joining ∨ o.starter = .publishing ∨
      (o.starter = .waiting ∧ o.interrupted = true)) := by
  have hplaced := h.placed
  cases phase <;> simp_all [PlacedIn]

end Placement

/-- A retired Operation has no task left to run. -/
theorem Retired.task (h : o.Retired) : o.task = .absent ∨ o.task = .finished :=
  h.placed.imp And.left And.left

end Operation

namespace OperationController

/-- The Operation that the active fields describe. -/
structure Holds (s : OperationController) (i : Nat) (o : Operation) (phase : OperationPhase) :
    Prop where
  found : s.operations[i]? = some o
  activeId : s.activeId = some i
  inPhase : s.phase = some phase
  active : o.Active phase s.committedTerminal
  lease : s.foreground.lease = some (.operation i)
  task : s.activeTask = if o.task = .absent then none else some i
  reservation : s.activeReservation = if o.task = .absent then some i else none

/-- What holds between the steps of the system. -/
structure Lawful (s : OperationController) : Prop where
  retired : ∀ j o, s.operations[j]? = some o → s.activeId ≠ some j → o.Retired
  active : ∀ i, s.activeId = some i → ∃ o phase, s.Holds i o phase
  idle : s.activeId = none → s.phase = none ∧ s.committedTerminal = none ∧
    s.activeTask = none ∧ s.activeReservation = none ∧
    ∀ i, s.foreground.lease ≠ some (.operation i)

variable {s t : OperationController} {phase : OperationPhase}

/-- The invariant holds of an idle runtime. -/
theorem lawful_idle : idle.Lawful := by
  refine ⟨fun j o ho => ?_, fun i hi => ?_, fun _ => ⟨rfl, rfl, rfl, rfl, fun i hi => ?_⟩⟩
  · cases ho
  · cases hi
  · cases hi

/-- An Operation that holds the lease is one of the Operations. -/
theorem Holds.index (h : s.Holds i o phase) : i < s.operations.length :=
  (List.getElem?_eq_some_iff.mp h.found).1

/-- The Operation with the active identifier is the one that the fields describe. -/
theorem Lawful.holds (h : s.Lawful) (hi : s.activeId = some i)
    (ho : s.operations[i]? = some o) : ∃ phase, s.Holds i o phase := by
  obtain ⟨o', phase, hholds⟩ := h.active i hi
  rw [hholds.found] at ho
  cases ho
  exact ⟨phase, hholds⟩

/-- What the invariant reads of a state. -/
theorem Lawful.congr (h : s.Lawful) (hoperations : t.operations = s.operations)
    (hactive : t.activeId = s.activeId) (hphase : t.phase = s.phase)
    (hcommitted : t.committedTerminal = s.committedTerminal)
    (htask : t.activeTask = s.activeTask)
    (hreservation : t.activeReservation = s.activeReservation)
    (hlease : ∀ i, t.foreground.lease = some (.operation i) ↔
      s.foreground.lease = some (.operation i)) : t.Lawful := by
  constructor
  · intro j o ho hj
    rw [hoperations] at ho
    rw [hactive] at hj
    exact h.retired j o ho hj
  · intro i hi
    rw [hactive] at hi
    obtain ⟨o, phase, hholds⟩ := h.active i hi
    exact ⟨o, phase, hoperations ▸ hholds.found, hactive ▸ hholds.activeId,
      hphase ▸ hholds.inPhase, hcommitted ▸ hholds.active, (hlease i).mpr hholds.lease,
      htask ▸ hholds.task, hreservation ▸ hholds.reservation⟩
  · intro hnone
    rw [hactive] at hnone
    obtain ⟨hp, hc, ht, hr, hl⟩ := h.idle hnone
    exact ⟨hphase ▸ hp, hcommitted ▸ hc, htask ▸ ht, hreservation ▸ hr,
      fun i hi => hl i ((hlease i).mp hi)⟩

variable {o' : Operation}

/-- A step of the active Operation that keeps it active. -/
theorem Lawful.advance {phase' : OperationPhase} (h : s.Lawful)
    (hs : s.Holds i o phase) (hoperations : t.operations = s.operations.set i o')
    (hactive : t.activeId = s.activeId) (hphase : t.phase = some phase')
    (ho : o'.Active phase' t.committedTerminal)
    (hlease : t.foreground.lease = s.foreground.lease)
    (htask : t.activeTask = if o'.task = .absent then none else some i)
    (hreservation : t.activeReservation = if o'.task = .absent then some i else none) :
    t.Lawful := by
  have hid : t.activeId = some i := hactive.trans hs.activeId
  constructor
  · intro j p hp hj
    rw [hid] at hj
    have hij : i ≠ j := fun he => hj (congrArg some he)
    rw [hoperations, List.getElem?_set_ne hij] at hp
    exact h.retired j p hp (hs.activeId ▸ hj)
  · intro j hj
    rw [hid] at hj
    cases hj
    refine ⟨o', phase', ?_, hid, hphase, ho, hlease.trans hs.lease, htask, hreservation⟩
    rw [hoperations, List.getElem?_set_self hs.index]
  · intro hnone
    rw [hid] at hnone
    cases hnone

private theorem Lawful.retire (h : s.Lawful) (hs : s.Holds i o phase)
    (hoperations : t.operations = s.operations.set i o') (hactive : t.activeId = none)
    (hphase : t.phase = none) (hcommitted : t.committedTerminal = none)
    (htask : t.activeTask = none) (hreservation : t.activeReservation = none)
    (hlease : t.foreground.lease = none) (ho : o'.Retired) : t.Lawful := by
  constructor
  · intro j p hp _
    rw [hoperations, List.getElem?_set] at hp
    split at hp
    · rw [if_pos hs.index] at hp
      cases hp
      exact ho
    · next hij =>
      refine h.retired j p hp fun hj => hij ?_
      rw [hs.activeId] at hj
      exact Option.some.inj hj
  · intro j hj
    rw [hactive] at hj
    cases hj
  · intro _
    refine ⟨hphase, hcommitted, htask, hreservation, fun j hj => ?_⟩
    rw [hlease] at hj
    cases hj

/-- A step of an Operation that is not active. -/
theorem Lawful.touch (h : s.Lawful) (hi : s.activeId ≠ some i) (ho : o'.Retired) :
    (s.put i o').Lawful := by
  constructor
  · intro j p hp hj
    change (s.operations.set i o')[j]? = some p at hp
    rw [List.getElem?_set] at hp
    split at hp
    · split at hp
      · cases hp
        exact ho
      · cases hp
    · exact h.retired j p hp hj
  · intro j hj
    have hij : i ≠ j := fun he => hi (he ▸ hj)
    obtain ⟨p, phase, hholds⟩ := h.active j hj
    refine ⟨p, phase, ?_, hholds.activeId, hholds.inPhase, hholds.active, hholds.lease,
      hholds.task, hholds.reservation⟩
    change (s.operations.set i o')[j]? = some p
    rw [List.getElem?_set_ne hij]
    exact hholds.found
  · exact h.idle

private theorem Lawful.release (h : s.Lawful) (hs : s.Holds i o phase)
    (hoperations : t.operations = s.operations) (hforeground : t.foreground = s.foreground)
    (hactive : t.activeId = none) (hphase : t.phase = none)
    (hcommitted : t.committedTerminal = none) (htask : t.activeTask = none)
    (hreservation : t.activeReservation = none) (hheld : o'.released = false)
    (ho : { o' with released := true, releases := o'.releases + 1 }.Retired) :
    (t.release i o').Lawful := by
  have hlease : t.foreground.lease = some (.operation i) := by
    rw [hforeground]
    exact hs.lease
  unfold OperationController.release
  rw [if_neg (by simp [hheld]), if_pos hlease]
  refine h.retire hs (congrArg (List.set · i _) hoperations) hactive hphase hcommitted htask
    hreservation ?_ ho
  simp only [ForegroundArbiter.release, if_pos hlease]

/-- A reservation without a task may be forgotten. -/
theorem Holds.forgetReservation (h : s.Lawful) (hs : s.Holds i o phase) (habsent : o.task = .absent)
    (hheld : o'.released = false)
    (ho : { o' with released := true, releases := o'.releases + 1 }.Retired) :
    (s.forgetReservation.release i o').Lawful := by
  refine h.release hs rfl rfl rfl rfl rfl ?_ rfl hheld ho
  change s.activeTask = none
  rw [hs.task, if_pos habsent]

/-- A task that holds the lease may be forgotten. -/
theorem Holds.forgetTask (h : s.Lawful) (hs : s.Holds i o phase) (hpresent : o.task ≠ .absent)
    (hheld : o'.released = false)
    (ho : { o' with released := true, releases := o'.releases + 1 }.Retired) :
    (s.forgetTask.release i o').Lawful := by
  refine h.release hs rfl rfl rfl rfl rfl rfl ?_ hheld ho
  change s.activeReservation = none
  rw [hs.reservation, if_neg hpresent]

end OperationController

end AwesomeAgent
