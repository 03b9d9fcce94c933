import AwesomeAgent.PendingInputs.Awaiting

/-!
# Pending inputs are kept

A run whose steps meet the condition neither loses, duplicates nor reorders an input, and it does
not wait for an Operation that is over. Without the condition an input can be lost.
-/

namespace AwesomeAgent.PendingInputs.Terminal

variable {s t : Terminal}

private theorem inOrder_initial (surroundings : Surroundings) : (initial surroundings).InOrder where
  synced := rfl
  running h := by cases h
  ledger :=
    { accounted := List.Perm.refl []
      ordered := List.Pairwise.nil
      promoted := List.Pairwise.nil
      known := fun _ hid => by cases hid
      ahead := fun _ hid => by cases hid
      barrier := fun earlier later h => by
        cases earlier <;> cases h
      room := Nat.zero_le _ }

private theorem InOrder.keepsInputs (h : s.InOrder) (hawaits : s.Awaits) : s.KeepsInputs where
  accounted := h.ledger.accounted
  ordered := h.ledger.ordered
  promoted := h.ledger.promoted
  barrier earlier item later hwaiting hquit := by
    have hsplit : s.waiting.map PendingInput.terminalBarrier =
        earlier.map PendingInput.terminalBarrier ++
          true :: later.map PendingInput.terminalBarrier := by
      rw [hwaiting, List.map_append, List.map_cons, hquit]
    exact List.map_eq_nil_iff.mp (h.ledger.barrier _ _ hsplit)
  requeued item t hpromotion ht := by
    simp only [Terminal.step, hpromotion] at ht
    cases ht
    exact h.requeueHead hpromotion
  unblocked hrest _ hshown := hawaits.unblocked hrest hshown
  cleared _ hlatest hover := hawaits.cleared hlatest hover

/-- In every run whose steps meet the condition, inputs are kept. -/
theorem run_keepsInputs {surroundings : Surroundings}
    (h : Run step Meets (initial surroundings) s) : s.KeepsInputs := by
  have hinvariant : s.InOrder ∧ s.Awaits := by
    refine h.invariant (I := fun s => s.InOrder ∧ s.Awaits)
      ⟨inOrder_initial surroundings, awaits_initial surroundings⟩ ?_
    rintro t a u ⟨horder, hawaits⟩ hmeets hstep
    exact ⟨horder.step hmeets hstep, hawaits.step hmeets hstep⟩
  exact hinvariant.1.keepsInputs hinvariant.2

/-- What is asked of an awaited Operation is decided by its history. -/
instance decidableIsOver (s : Terminal) (operation : OperationId) :
    Decidable (s.IsOver operation) :=
  inferInstanceAs (Decidable (_ ∨ _))

instance decidableClearing (s : Terminal) (operation : OperationId) :
    Decidable (s.Clearing operation) :=
  inferInstanceAs (Decidable (_ ∧ _))

instance decidableShows (s : Terminal) (operation : OperationId) :
    Decidable (s.Shows operation) :=
  inferInstanceAs (Decidable (_ = _))

instance decidableShowsHeld (s : Terminal) (held : PendingInput) :
    Decidable (s.ShowsHeld held) :=
  inferInstanceAs (Decidable (∃ _ ∈ s.inFlight.shown, _))

instance decidableMeets (s : Terminal) (a : TerminalAction) : Decidable (s.Meets a) :=
  match a with
  | .submitOrQueue _ => inferInstanceAs (Decidable (∀ _ ∈ s.heldItem, _))
  | .recallInput => isTrue trivial
  | .render => isTrue trivial
  | .runEffects => inferInstanceAs (Decidable (∀ _ ∈ s.drainHead, _))
  | .consume none => isTrue trivial
  | .consume (some (_, _)) => inferInstanceAs (Decidable (_ ∨ _))
  | .refuse _ => isTrue trivial
  | .fail => isTrue trivial
  | .settle => isTrue trivial
  | .finish => isTrue trivial
  | .operationStarted _ =>
      inferInstanceAs (Decidable (∀ _ ∈ s.awaitingOperationId.latest, _))
  | .operationEnded _ => inferInstanceAs (Decidable (_ → _))
  | .reconciled => inferInstanceAs (Decidable (∀ _ ∈ s.awaitingOperationId.latest, _))
  | .threadReplaced => inferInstanceAs (Decidable (∀ _ ∈ s.awaitingOperationId.latest, _))
  | .changed _ _ _ _ => isTrue trivial

/-- A composer that is idle. -/
def idleSurroundings : Surroundings := ⟨none, false, true, false, false, 0⟩

/-- Two inputs are queued, the first one starts an Operation, the second one is recalled. -/
def keptActions : List TerminalAction :=
  [.operationStarted ['o'], .submitOrQueue ['a'], .submitOrQueue ['b'], .operationEnded ['o'],
    .render, .runEffects, .consume (some (['p'], 0)), .operationStarted ['p'], .settle, .finish,
    .render, .recallInput, .runEffects, .render, .runEffects]

/-- The last state of a list of actions. -/
def keptEnd : Terminal := (keptActions.foldlM step (initial idleSurroundings)).getD
  (initial idleSurroundings)

/-- One input is consumed and one recalled. -/
theorem run_keepsInputs_idle : keptEnd.history.consumed = [0] ∧ keptEnd.history.recalled = [1] ∧
    keptEnd.KeepsInputs := by
  have hrun : keptActions.foldlM (Run.checked step Meets) (initial idleSurroundings) =
      some keptEnd := by decide
  exact ⟨by decide, by decide, run_keepsInputs (Run.of_checked hrun)⟩

/-- Three inputs are queued, the first one is in flight, and a fourth one is accepted before the
render that would show this; the Operation is refused, and there is no room to put the first one
back. -/
def lostActions : List TerminalAction :=
  [.operationStarted ['o'], .submitOrQueue ['a'], .submitOrQueue ['b'], .submitOrQueue ['c'],
    .operationEnded ['o'], .render, .runEffects, .submitOrQueue ['d'], .refuse none, .settle]

/-- The first of four accepted inputs is neither consumed, in flight, queued nor recalled. -/
theorem input_lost : ∃ s, Run step (fun _ _ => True) (initial idleSurroundings) s ∧
    s.history.accepted = 4 ∧ s.history.consumed = [] ∧ s.history.recalled = [] ∧
      s.waiting.map PendingInput.id = [1, 2, 3] ∧ ¬ s.KeepsInputs := by
  cases hrun : lostActions.foldlM step (initial idleSurroundings) with
  | none => exact absurd hrun (by decide)
  | some s =>
    have hend : (lostActions.foldlM step (initial idleSurroundings)).map (fun s =>
        (s.history.accepted, s.history.consumed, s.history.recalled,
          s.waiting.map PendingInput.id)) = some (4, [], [], [1, 2, 3]) := by decide
    rw [hrun] at hend
    simp only [Option.map_some, Option.some.injEq, Prod.mk.injEq] at hend
    obtain ⟨haccepted, hconsumed, hrecalled, hwaiting⟩ := hend
    refine ⟨s, Run.of_actions hrun fun _ _ _ => trivial, haccepted, hconsumed, hrecalled, hwaiting,
      fun hkeeps => ?_⟩
    have haccounted := hkeeps.accounted
    rw [haccepted, hconsumed, hrecalled, hwaiting] at haccounted
    have hlength := haccounted.length_eq
    cases hlength

end AwesomeAgent.PendingInputs.Terminal
