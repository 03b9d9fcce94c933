import AwesomeAgent.Library.CrashLogic

/-!
# What procedures record

A durable step records the state that it leaves, and nothing that was recorded is lost. A procedure
comes to another one in a state when it records there all that the other would: then a crash can
find every state that the other leaves.
-/

namespace AwesomeAgent.Proc

variable {ε σ α β γ : Type}

/-- The states that a run has recorded. -/
def recorded : EStateM.Result ε (Traced σ) α → List σ
  | .ok _ t => t.trace
  | .error _ t => t.trace

private theorem crashStates_eq (x : Proc ε σ α) (s : σ) : crashStates x s = s :: recorded
    (x ⟨s, []⟩) := by
  unfold crashStates
  cases x ⟨s, []⟩ with
  | ok a t => rfl
  | error e t => rfl

/-! ## Procedures that lose nothing -/

/-- A procedure keeps what is recorded. -/
def Records (x : Proc ε σ α) : Prop := ∀ s, s.trace ⊆ recorded (x s)

/-- A result records nothing less. -/
theorem Records.pure (a : α) : Records (Pure.pure a : Proc ε σ α) :=
  fun _ => List.Subset.refl _

/-- An error records nothing less. -/
theorem Records.throw (e : ε) : Records (MonadExcept.throw e : Proc ε σ α) :=
  fun _ => List.Subset.refl _

/-- A durable step adds to what is recorded. -/
theorem Records.durable (x : EStateM ε σ α) : Records (durable x) := by
  intro s
  unfold Proc.durable
  cases x s.now with
  | ok a t => exact List.subset_cons_self t s.trace
  | error e t => exact List.subset_cons_self t s.trace

variable {x : Proc ε σ α} {f : α → Proc ε σ β} {y : Proc ε σ β}

/-- Procedures add to what is recorded one after another. -/
theorem Records.bind (hx : Records x) (hf : ∀ a, Records (f a)) : Records (x >>= f) := by
  intro s
  have h := hx s
  simp only [Bind.bind, EStateM.bind]
  cases hr : x s with
  | ok a t =>
    rw [hr] at h
    exact List.Subset.trans h (hf a t)
  | error e t =>
    rw [hr] at h
    exact h

/-- Catching errors leaves what is recorded. -/
theorem Records.attempt (h : Records x) : Records (Proc.attempt x) := by
  intro s
  have hs := h s
  unfold Proc.attempt
  cases hr : x s with
  | ok a t =>
    rw [hr] at hs
    exact hs
  | error e t =>
    rw [hr] at hs
    exact hs

/-- Renaming errors leaves what is recorded. -/
theorem Records.mapFault {f : ε → ε} (h : Records x) :
    Records (Proc.mapFault f x) := by
  intro s
  have hs := h s
  unfold Proc.mapFault
  cases hr : x s with
  | ok a t =>
    rw [hr] at hs
    exact hs
  | error e t =>
    rw [hr] at hs
    exact hs

/-! ## Procedures that return -/

/-- A procedure returns a value, whatever is recorded before. -/
def Returns (x : Proc ε σ α) (s : σ) (a : α) (t : σ) : Prop :=
  ∀ trace, ∃ left, x ⟨s, trace⟩ = .ok a ⟨t, left⟩

/-- A result is returned. -/
theorem Returns.pure (a : α) (s : σ) : Returns (Pure.pure a : Proc ε σ α) s a s :=
  fun trace => ⟨trace, rfl⟩

/-- A durable step returns its result. -/
theorem Returns.durable {x : EStateM ε σ α} {s t : σ} {a : α} (h : x s = .ok a t) :
    Returns (durable x) s a t := by
  intro trace
  refine ⟨t :: trace, ?_⟩
  simp only [Proc.durable, h]

/-- What follows a result returns. -/
theorem Returns.bind {s t u : σ} {a : α} {b : β}
    (hx : Returns x s a t) (hf : Returns (f a) t b u) : Returns (x >>= f) s b u := by
  intro trace
  obtain ⟨middle, hmiddle⟩ := hx trace
  obtain ⟨left, hleft⟩ := hf middle
  refine ⟨left, ?_⟩
  simp only [Bind.bind, EStateM.bind, hmiddle]
  exact hleft

/-- A result passes through where errors are caught. -/
theorem Returns.attempt {s t : σ} {a : α} (h : Returns x s a t) :
    Returns (Proc.attempt x) s (.ok a) t := by
  intro trace
  obtain ⟨left, hleft⟩ := h trace
  refine ⟨left, ?_⟩
  simp only [Proc.attempt, hleft]

/-- A result passes through where errors are renamed. -/
theorem Returns.mapFault {f : ε → ε} {s t : σ} {a : α} (h : Returns x s a t) :
    Returns (Proc.mapFault f x) s a t := by
  intro trace
  obtain ⟨left, hleft⟩ := h trace
  refine ⟨left, ?_⟩
  simp only [Proc.mapFault, hleft]

/-! ## Procedures that come to others -/

/-- A procedure records all that another one does in some state. -/
def ComesTo (x : Proc ε σ α) (s : σ) (y : Proc ε σ β) (t : σ) : Prop :=
  ∀ trace, ∃ left, recorded (y ⟨t, left⟩) ⊆ recorded (x ⟨s, trace⟩)

/-- A procedure comes to itself. -/
theorem ComesTo.refl (x : Proc ε σ α) (s : σ) : ComesTo x s x s :=
  fun trace => ⟨trace, List.Subset.refl _⟩

/-- What comes to a procedure comes to what that comes to. -/
theorem ComesTo.trans {z : Proc ε σ γ} {s t u : σ}
    (hxy : ComesTo x s y t) (hyz : ComesTo y t z u) : ComesTo x s z u := by
  intro trace
  obtain ⟨middle, hmiddle⟩ := hxy trace
  obtain ⟨left, hleft⟩ := hyz middle
  exact ⟨left, List.Subset.trans hleft hmiddle⟩

/-- A sequence comes to what follows a procedure that returns. -/
theorem ComesTo.next {x : Proc ε σ α} {f : α → Proc ε σ β} {s t : σ} {a : α}
    (h : Returns x s a t) : ComesTo (x >>= f) s (f a) t := by
  intro trace
  obtain ⟨left, hleft⟩ := h trace
  refine ⟨left, ?_⟩
  simp only [Bind.bind, EStateM.bind, hleft]
  exact List.Subset.refl _

/-- A sequence comes to its first procedure. -/
theorem ComesTo.first (s : σ) (h : ∀ a, Records (f a)) :
    ComesTo (x >>= f) s x s := by
  intro trace
  refine ⟨trace, ?_⟩
  simp only [Bind.bind, EStateM.bind]
  cases x ⟨s, trace⟩ with
  | ok a t => exact h a t
  | error e t => exact List.Subset.refl _

/-- Where errors are caught, a run comes to the procedure. -/
theorem ComesTo.attempt (x : Proc ε σ α) (s : σ) : ComesTo (Proc.attempt x) s x s := by
  intro trace
  refine ⟨trace, ?_⟩
  unfold Proc.attempt
  cases x ⟨s, trace⟩ with
  | ok a t => exact List.Subset.refl _
  | error e t => exact List.Subset.refl _

/-- A crash finds what is recorded by a procedure that another one comes to. -/
theorem ComesTo.crashStates {s t : σ} {P : σ → Prop}
    (h : ComesTo x s y t) (hx : ∀ u ∈ Proc.crashStates x s, P u) :
    ∃ left, ∀ u ∈ recorded (y ⟨t, left⟩), P u := by
  obtain ⟨left, hleft⟩ := h []
  refine ⟨left, fun u hu => hx u ?_⟩
  rw [crashStates_eq]
  exact List.mem_cons_of_mem s (hleft hu)

end AwesomeAgent.Proc
