import Mathlib.Data.Option.Basic

/-!
# Transactions with rollback

A transaction works on a copy of the state and may fail after it has changed the
copy. Executing it publishes the copy if it succeeds and keeps the old state if
it fails.
-/

namespace AwesomeAgent

variable {σ ε α β : Type}

/-- A computation on a working copy; a failure keeps the copy as it was reached. -/
abbrev Transaction (σ ε α : Type) := ExceptT ε (StateM σ) α

namespace Transaction

/-- Run on a working copy, and roll back on a failure. -/
def execute (tx : Transaction σ ε α) (s : σ) : Except ε α × σ :=
  match tx.run s with
  | (.ok a, t) => (.ok a, t)
  | (.error e, _) => (.error e, s)

/-- Fail unless a condition holds. -/
def require (c : Prop) [Decidable c] (e : ε) : Transaction σ ε Unit :=
  if c then pure () else throw e

variable {s : σ}

/-- A failed transaction changes nothing. -/
theorem execute_error {tx : Transaction σ ε α} {e : ε}
    (h : (tx.execute s).1 = .error e) : (tx.execute s).2 = s := by
  unfold execute at h ⊢
  cases hrun : tx.run s with
  | mk result t =>
    cases result with
    | ok a =>
      rw [hrun] at h
      cases h
    | error e => rfl

/-- A transaction that succeeds from `P` ends in `Q`. -/
def Commits (P : σ → Prop) (tx : Transaction σ ε α) (Q : α → σ → Prop) : Prop :=
  ∀ s a t, P s → tx.run s = (.ok a, t) → Q a t

variable {P P' : σ → Prop} {Q Q' : α → σ → Prop} {R : β → σ → Prop}
  {tx : Transaction σ ε α} {next : α → Transaction σ ε β}

/-- Executing a transaction keeps what its success establishes. -/
theorem Commits.execute (h : Commits P tx Q) {s : σ} (hs : P s) :
    (tx.execute s).2 = s ∨ ∃ a, Q a (tx.execute s).2 := by
  unfold Transaction.execute
  cases hrun : tx.run s with
  | mk result t =>
    cases result with
    | ok a => exact Or.inr ⟨a, h s a t hs hrun⟩
    | error e => exact Or.inl rfl

/-- What a success of an executed transaction establishes. -/
theorem Commits.execute_ok (h : Commits P tx Q) {t : σ} {a : α} (hs : P s)
    (hexecute : tx.execute s = (.ok a, t)) : Q a t := by
  unfold Transaction.execute at hexecute
  cases hrun : tx.run s with
  | mk result u =>
    rw [hrun] at hexecute
    cases result with
    | ok b =>
      cases hexecute
      exact h s a t hs hrun
    | error e => cases hexecute

namespace Commits

/-- The precondition may be strengthened. -/
theorem pre (h : Commits P tx Q) (hp : ∀ s, P' s → P s) : Commits P' tx Q :=
  fun s a t hs hrun => h s a t (hp s hs) hrun

/-- The postcondition may be weakened. -/
theorem post (h : Commits P tx Q) (hq : ∀ a s, Q a s → Q' a s) : Commits P tx Q' :=
  fun s a t hs hrun => hq a t (h s a t hs hrun)

/-- Reason about each state of the precondition by itself. -/
theorem each (h : ∀ s, P s → Commits (fun t => t = s) tx Q) : Commits P tx Q :=
  fun s a t hs hrun => h s hs s a t rfl hrun

/-- A result changes nothing. -/
theorem pure {a : α} (h : ∀ s, P s → Q a s) : Commits P (Pure.pure a : Transaction σ ε α) Q := by
  intro s b t hs hrun
  cases hrun
  exact h s hs

/-- An error commits nothing. -/
theorem throw (e : ε) : Commits P (MonadExcept.throw e : Transaction σ ε α) Q := by
  intro s b t hs hrun
  cases hrun

/-- Transactions follow one another. -/
theorem bind (h : Commits P tx Q) (hnext : ∀ a, Commits (Q a) (next a) R) :
    Commits P (tx >>= next) R := by
  intro s b t hs hrun
  change ExceptT.bindCont next (tx.run s).1 (tx.run s).2 = (.ok b, t) at hrun
  cases hfirst : tx.run s with
  | mk result u =>
    rw [hfirst] at hrun
    cases result with
    | ok a => exact hnext a u b t (h s a u hs hfirst) hrun
    | error e => cases hrun

/-- A requirement holds behind it. -/
theorem require {c : Prop} [Decidable c] {e : ε} :
    Commits P (Transaction.require c e) fun _ s => c ∧ P s := by
  unfold Transaction.require
  split
  · next hc => exact pure fun _ hs => ⟨hc, hs⟩
  · exact throw e

/-- A known result changes nothing. -/
theorem lift {x : Except ε α} :
    Commits P (liftM x : Transaction σ ε α) fun a s => x = .ok a ∧ P s := by
  intro s b t hs hrun
  cases x with
  | ok a =>
    cases hrun
    exact ⟨rfl, hs⟩
  | error e => cases hrun

/-- Reading gives the state. -/
theorem get : Commits P (MonadState.get : Transaction σ ε σ) fun a s => a = s ∧ P s := by
  intro s b t hs hrun
  cases hrun
  exact ⟨rfl, hs⟩

/-- Writing sets the state. -/
theorem set {R : σ → Prop} {s : σ} (h : R s) :
    Commits P (MonadStateOf.set s : Transaction σ ε PUnit) fun _ => R := by
  intro _ b t _ hrun
  cases hrun
  exact h

end Commits

/-- The transaction succeeds from a state. -/
def Succeeds (tx : Transaction σ ε α) (s : σ) : Prop := ∃ a t, tx.run s = (.ok a, t)

/-- After a common beginning, one of two transactions succeeds if the other does. -/
theorem Succeeds.bind_mono {next' : α → Transaction σ ε β}
    (hnext : ∀ a t, tx.run s = (.ok a, t) → (next a).Succeeds t → (next' a).Succeeds t)
    (h : (tx >>= next).Succeeds s) : (tx >>= next').Succeeds s := by
  obtain ⟨b, u, hrun⟩ := h
  change ExceptT.bindCont next (tx.run s).1 (tx.run s).2 = (.ok b, u) at hrun
  cases hfirst : tx.run s with
  | mk result t =>
    rw [hfirst] at hrun
    cases result with
    | error e => cases hrun
    | ok a =>
      obtain ⟨c, v, hsecond⟩ := hnext a t hfirst ⟨b, u, hrun⟩
      refine ⟨c, v, ?_⟩
      change ExceptT.bindCont next' (tx.run s).1 (tx.run s).2 = (.ok c, v)
      rw [hfirst]
      exact hsecond

/-- A transaction may go on with the state that it reads. -/
theorem Succeeds.get {next : σ → Transaction σ ε β} (h : (next s).Succeeds s) :
    ((MonadState.get : Transaction σ ε σ) >>= next).Succeeds s := h

/-- A value goes on to what follows. -/
theorem Succeeds.lift {x : Except ε α} {a : α} (hx : x = .ok a)
    (h : (next a).Succeeds s) : ((liftM x : Transaction σ ε α) >>= next).Succeeds s := by
  subst hx
  exact h

/-- An execution is committed when the transaction succeeds. -/
theorem execute_ok_iff {tx : Transaction σ ε PUnit} :
    (tx.execute s).1 = .ok () ↔ tx.Succeeds s := by
  rw [execute]
  constructor
  · intro h
    cases hrun : tx.run s with
    | mk result t =>
      rw [hrun] at h
      cases result with
      | ok a => exact ⟨a, t, hrun⟩
      | error e => cases h
  · rintro ⟨a, t, hrun⟩
    rw [hrun]

end Transaction

end AwesomeAgent
