import Mathlib.Data.List.Basic

/-!
# Procedures that may crash between durable steps

A procedure runs over a state that also records the states its durable steps
left behind. A crash finds the process in one of the recorded states, or in the
state it started from, so a crash condition is a property of the recorded
states. Raised faults keep the state they were raised in.
-/

namespace AwesomeAgent

/-- A state together with the states left by durable steps, newest first. -/
structure Traced (σ : Type) where
  now : σ
  trace : List σ

/-- A fallible procedure over a traced state. -/
abbrev Proc (ε σ α : Type) := EStateM ε (Traced σ) α

/-- Partial result of a run: the outcome on success and on a raised fault. -/
def Settles {ε σ α : Type} (Q : α → σ → Prop) (E : ε → σ → Prop) :
    EStateM.Result ε σ α → Prop
  | .ok a s => Q a s
  | .error e s => E e s

/-- A result settles its postcondition. -/
@[simp] theorem settles_ok {ε σ α : Type} {Q : α → σ → Prop} {E : ε → σ → Prop} {a : α} {s : σ} :
    Settles Q E (.ok a s) ↔ Q a s := Iff.rfl

/-- An error settles its postcondition. -/
@[simp] theorem settles_error {ε σ α : Type} {Q : α → σ → Prop} {E : ε → σ → Prop} {e : ε}
    {s : σ} : Settles Q E (.error e s) ↔ E e s := Iff.rfl

/-- Total specification of one uninterrupted step. -/
def Hoare {ε σ α : Type} (P : σ → Prop) (x : EStateM ε σ α) (Q : α → σ → Prop)
    (E : ε → σ → Prop) : Prop :=
  ∀ s, P s → Settles Q E (x s)

/-- Reading the state. -/
theorem run_get {ε σ : Type} (s : σ) : (EStateM.get : EStateM ε σ σ) s = .ok s s := rfl

/-- Writing the state. -/
theorem run_set {ε σ : Type} (s t : σ) : (EStateM.set t : EStateM ε σ PUnit) s = .ok ⟨⟩ t
    := rfl

/-- Changing the state. -/
theorem run_modifyGet {ε σ α : Type} (f : σ → α × σ) (s : σ) :
    (EStateM.modifyGet f : EStateM ε σ α) s = .ok (f s).1 (f s).2 := rfl

/-- Raising a fault. -/
theorem run_throw {ε σ α : Type} (e : ε) (s : σ) :
    (EStateM.throw e : EStateM ε σ α) s = .error e s := rfl

/-- What holds after a caught outcome: one property for a value, another for a fault. -/
def Caught {ε σ α : Type} (Q : α → σ → Prop) (E : ε → σ → Prop) : Except ε α → σ → Prop
  | .ok a => Q a
  | .error e => E e

/-- Sequencing from a fixed state. -/
theorem Settles.bind {ε σ α β : Type} {x : EStateM ε σ α} {f : α → EStateM ε σ β} {s : σ}
    {R : α → σ → Prop} {Q : β → σ → Prop} {E : ε → σ → Prop} (hx : Settles R E (x s))
    (hf : ∀ a t, R a t → Settles Q E (f a t)) : Settles Q E ((x >>= f) s) := by
  cases hr : x s with
  | ok a t =>
      rw [hr] at hx
      have hb : (x >>= f) s = f a t := by
        simp only [Bind.bind, EStateM.bind, hr]
      rw [hb]
      exact hf a t hx
  | error e t =>
      rw [hr] at hx
      have hb : (x >>= f) s = .error e t := by
        simp only [Bind.bind, EStateM.bind, hr]
      rw [hb]
      exact hx

/-- Postconditions may be weakened. -/
theorem Settles.mono {ε σ α : Type} {Q Q' : α → σ → Prop} {E E' : ε → σ → Prop}
    {r : EStateM.Result ε σ α} (h : Settles Q E r) (hQ : ∀ a s, Q a s → Q' a s)
    (hE : ∀ e s, E e s → E' e s) : Settles Q' E' r := by
  cases r with
  | ok a s => exact hQ a s h
  | error e s => exact hE e s h

namespace Proc

variable {ε σ α β : Type}

/-- A step whose effect survives a crash. -/
def durable (x : EStateM ε σ α) : Proc ε σ α := fun s =>
  match x s.now with
  | .ok a t => .ok a ⟨t, t :: s.trace⟩
  | .error e t => .error e ⟨t, t :: s.trace⟩

/-- A step without durable effect. -/
def volatile (x : EStateM ε σ α) : Proc ε σ α := fun s =>
  match x s.now with
  | .ok a t => .ok a ⟨t, s.trace⟩
  | .error e t => .error e ⟨t, s.trace⟩

/-- Run a procedure and hand a raised fault back as a value. -/
def attempt (x : Proc ε σ α) : Proc ε σ (Except ε α) := fun s =>
  match x s with
  | .ok a t => .ok (.ok a) t
  | .error e t => .ok (.error e) t

/-- Translate every raised fault. -/
def mapFault (f : ε → ε) (x : Proc ε σ α) : Proc ε σ α := fun s =>
  match x s with
  | .ok a t => .ok a t
  | .error e t => .error (f e) t

/-- The value that a run returns, if it does. -/
def value : EStateM.Result ε (Traced σ) α → Option α
  | .ok a _ => some a
  | .error _ _ => none

/-- The state in which a run ends. -/
def final : EStateM.Result ε (Traced σ) α → σ
  | .ok _ t => t.now
  | .error _ t => t.now

/-- A run that returns is given by its value, its final state and its trace. -/
theorem eq_ok_of_value {r : EStateM.Result ε (Traced σ) α} {a : α} (h : value r = some a) :
    ∃ trace, r = .ok a ⟨final r, trace⟩ := by
  cases r with
  | ok b t =>
    cases h
    exact ⟨t.trace, rfl⟩
  | error e t => cases h

/-- The states in which a crash can find a procedure started in `s`. -/
def crashStates (x : Proc ε σ α) (s : σ) : List σ :=
  match x ⟨s, []⟩ with
  | .ok _ t => s :: t.trace
  | .error _ t => s :: t.trace

/-- The new trace extends the old one by states that satisfy the crash condition. -/
def Leaves (C : σ → Prop) (s t : Traced σ) : Prop :=
  ∀ u ∈ t.trace, u ∈ s.trace ∨ C u

/-- Nothing is left where nothing happens. -/
theorem Leaves.refl (C : σ → Prop) (s : Traced σ) : Leaves C s s :=
  fun _ hu => Or.inl hu

private theorem Leaves.trans {C : σ → Prop} {s t u : Traced σ} (hst : Leaves C s t)
    (htu : Leaves C t u) : Leaves C s u := by
  intro v hv
  rcases htu v hv with hv | hv
  · exact hst v hv
  · exact Or.inr hv

end Proc

/-- Total specification of a procedure: outcome, raised faults and crash states. -/
def Triple {ε σ α : Type} (P : σ → Prop) (x : Proc ε σ α) (Q : α → σ → Prop)
    (E : ε → σ → Prop) (C : σ → Prop) : Prop :=
  ∀ s, P s.now → Settles (fun a t => Q a t.now ∧ Proc.Leaves C s t)
    (fun e t => E e t.now ∧ Proc.Leaves C s t) (x s)

namespace Hoare

variable {ε σ α β : Type} {P P' : σ → Prop} {Q : α → σ → Prop} {E : ε → σ → Prop}

/-- Conditions of a step may be weakened. -/
theorem conseq {x : EStateM ε σ α} {Q' : α → σ → Prop} {E' : ε → σ → Prop}
    (h : Hoare P x Q E) (hP : ∀ s, P' s → P s) (hQ : ∀ a s, Q a s → Q' a s)
    (hE : ∀ e s, E e s → E' e s) : Hoare P' x Q' E' :=
  fun s hs => (h s (hP s hs)).mono hQ hE

/-- A result needs no step. -/
theorem pure {a : α} (h : ∀ s, P s → Q a s) :
    Hoare P (Pure.pure a : EStateM ε σ α) Q E :=
  fun s hs => h s hs

/-- An error needs no step. -/
theorem throw {e : ε} (h : ∀ s, P s → E e s) :
    Hoare P (MonadExcept.throw e : EStateM ε σ α) Q E :=
  fun s hs => h s hs

/-- Steps follow one another. -/
theorem bind {x : EStateM ε σ α} {f : α → EStateM ε σ β} {R : α → σ → Prop}
    {Q : β → σ → Prop} (hx : Hoare P x R E) (hf : ∀ a, Hoare (R a) (f a) Q E) :
    Hoare P (x >>= f) Q E :=
  fun s hs => Settles.bind (hx s hs) hf

end Hoare

namespace Triple

variable {ε σ α β : Type} {P P' : σ → Prop} {Q : α → σ → Prop} {E : ε → σ → Prop}
  {C : σ → Prop}

variable {x : Proc ε σ α} {Q' : α → σ → Prop} {E' : ε → σ → Prop}

/-- Conditions of a procedure may be weakened. -/
theorem conseq {C' : σ → Prop}
    (h : Triple P x Q E C) (hP : ∀ s, P' s → P s) (hQ : ∀ a s, Q a s → Q' a s)
    (hE : ∀ e s, E e s → E' e s) (hC : ∀ s, C s → C' s) : Triple P' x Q' E' C' := by
  intro s hs
  have hx := h s (hP s.now hs)
  have hleave : ∀ t, Proc.Leaves C s t → Proc.Leaves C' s t :=
    fun t ht u hu => (ht u hu).imp_right (hC u)
  cases hr : x s with
  | ok a t =>
      rw [hr] at hx
      exact ⟨hQ a t.now hx.1, hleave t hx.2⟩
  | error e t =>
      rw [hr] at hx
      exact ⟨hE e t.now hx.1, hleave t hx.2⟩

/-- The precondition may be strengthened. -/
theorem pre (h : Triple P x Q E C) (hP : ∀ s, P' s → P s) :
    Triple P' x Q E C :=
  h.conseq hP (fun _ _ h => h) (fun _ _ h => h) (fun _ h => h)

/-- The postcondition may be weakened. -/
theorem post (h : Triple P x Q E C) (hQ : ∀ a s, Q a s → Q' a s) : Triple P x Q' E C :=
  h.conseq (fun _ h => h) hQ (fun _ _ h => h) (fun _ h => h)

/-- The condition on errors may be weakened. -/
theorem fault (h : Triple P x Q E C) (hE : ∀ e s, E e s → E' e s) : Triple P x Q E' C :=
  h.conseq (fun _ h => h) (fun _ _ h => h) hE (fun _ h => h)

/-- A fact that does not mention the state becomes an assumption. -/
theorem assume {F : Prop} (hF : ∀ s, P s → F) (h : F → Triple P x Q E C) :
    Triple P x Q E C :=
  fun s hs => h (hF s.now hs) s hs

/-- Two specifications of one procedure hold together. -/
theorem conj {C' : σ → Prop} (h : Triple P x Q E C) (h' : Triple P x Q' E' C') :
    Triple P x (fun a s => Q a s ∧ Q' a s) (fun e s => E e s ∧ E' e s) C := by
  intro s hs
  have hx := h s hs
  have hx' := h' s hs
  cases hr : x s with
  | ok a t =>
      rw [hr] at hx hx'
      exact ⟨⟨hx.1, hx'.1⟩, hx.2⟩
  | error e t =>
      rw [hr] at hx hx'
      exact ⟨⟨hx.1, hx'.1⟩, hx.2⟩

/-- A value that the state determines can be named. -/
theorem named {P : β → σ → Prop} (h : ∀ b, Triple (P b) x Q E C) :
    Triple (fun s => ∃ b, P b s) x Q E C :=
  fun s ⟨b, hb⟩ => h b s hb

/-- A result leaves nothing behind. -/
theorem pure {a : α} (h : ∀ s, P s → Q a s) :
    Triple P (Pure.pure a : Proc ε σ α) Q E C :=
  fun s hs => ⟨h s.now hs, Proc.Leaves.refl C s⟩

/-- An error leaves nothing behind. -/
theorem throw {e : ε} (h : ∀ s, P s → E e s) :
    Triple P (MonadExcept.throw e : Proc ε σ α) Q E C :=
  fun s hs => ⟨h s.now hs, Proc.Leaves.refl C s⟩

/-- Procedures follow one another, and a crash finds what either leaves. -/
theorem bind {x : Proc ε σ α} {f : α → Proc ε σ β} {R : α → σ → Prop}
    {Q : β → σ → Prop} (hx : Triple P x R E C) (hf : ∀ a, Triple (R a) (f a) Q E C) :
    Triple P (x >>= f) Q E C := by
  intro s hs
  have h := hx s hs
  cases hr : x s with
  | ok a t =>
      rw [hr] at h
      have hb : (x >>= f) s = f a t := by
        simp only [Bind.bind, EStateM.bind, hr]
      rw [hb]
      have h' := hf a t h.1
      cases hq : f a t with
      | ok b u =>
          rw [hq] at h'
          exact ⟨h'.1, h.2.trans h'.2⟩
      | error e u =>
          rw [hq] at h'
          exact ⟨h'.1, h.2.trans h'.2⟩
  | error e t =>
      rw [hr] at h
      have hb : (x >>= f) s = .error e t := by
        simp only [Bind.bind, EStateM.bind, hr]
      rw [hb]
      exact h

/-- A durable step has to establish the crash condition, also when it raises. -/
theorem durable {x : EStateM ε σ α} (h : Hoare P x Q E) (hQ : ∀ a s, Q a s → C s)
    (hE : ∀ e s, E e s → C s) : Triple P (Proc.durable x) Q E C := by
  intro s hs
  have hx := h s.now hs
  have hleave : ∀ t, C t → Proc.Leaves C s ⟨t, t :: s.trace⟩ := by
    intro t ht u hu
    rcases List.mem_cons.mp hu with rfl | hu
    · exact Or.inr ht
    · exact Or.inl hu
  cases hr : x s.now with
  | ok a t =>
      rw [hr] at hx
      simp only [Proc.durable, hr]
      exact ⟨hx, hleave t (hQ a t hx)⟩
  | error e t =>
      rw [hr] at hx
      simp only [Proc.durable, hr]
      exact ⟨hx, hleave t (hE e t hx)⟩

/-- A crash does not see a volatile step. -/
theorem volatile {x : EStateM ε σ α} (h : Hoare P x Q E) :
    Triple P (Proc.volatile x) Q E C := by
  intro s hs
  have hx := h s.now hs
  cases hr : x s.now with
  | ok a t =>
      rw [hr] at hx
      simp only [Proc.volatile, hr]
      exact ⟨hx, fun u hu => Or.inl hu⟩
  | error e t =>
      rw [hr] at hx
      simp only [Proc.volatile, hr]
      exact ⟨hx, fun u hu => Or.inl hu⟩

/-- An error that is caught becomes a result. -/
theorem attempt {x : Proc ε σ α} {Q' : Except ε α → σ → Prop} {E' : ε → σ → Prop}
    (h : Triple P x (fun a => Q' (.ok a)) (fun e => Q' (.error e)) C) :
    Triple P (Proc.attempt x) Q' E' C := by
  intro s hs
  have hx := h s hs
  cases hr : x s with
  | ok a t =>
      rw [hr] at hx
      simp only [Proc.attempt, hr]
      exact hx
  | error e t =>
      rw [hr] at hx
      simp only [Proc.attempt, hr]
      exact hx

/-- Errors may be renamed. -/
theorem mapFault {f : ε → ε} {x : Proc ε σ α} (h : Triple P x Q (fun e => E (f e)) C) :
    Triple P (Proc.mapFault f x) Q E C := by
  intro s hs
  have hx := h s hs
  cases hr : x s with
  | ok a t =>
      rw [hr] at hx
      simp only [Proc.mapFault, hr]
      exact hx
  | error e t =>
      rw [hr] at hx
      simp only [Proc.mapFault, hr]
      exact hx

/-- A loop keeps an invariant that relates the items done to those to do. -/
theorem forM {f : β → Proc ε σ PUnit} (I : List β → List β → σ → Prop)
    (step : ∀ done x todo, Triple (I done (x :: todo)) (f x)
      (fun _ => I (done ++ [x]) todo) E C) (xs : List β) :
    Triple (I [] xs) (xs.forM f) (fun _ => I xs []) E C := by
  suffices h : ∀ done, Triple (I done xs) (xs.forM f) (fun _ => I (done ++ xs) []) E C by
    simpa using h []
  induction xs with
  | nil =>
      intro done
      exact Triple.pure (fun s hs => by simpa using hs)
  | cons x xs ih =>
      intro done
      refine Triple.bind (step done x xs) (fun _ => ?_)
      simpa using ih (done ++ [x])

/-- A specified run only crashes in the initial state or where the crash condition holds. -/
theorem crashStates {x : Proc ε σ α} (h : Triple P x Q E C) {s u : σ} (hs : P s)
    (hu : u ∈ Proc.crashStates x s) : u = s ∨ C u := by
  have hx := h ⟨s, []⟩ hs
  have hcase : ∀ t : Traced σ, Proc.Leaves C ⟨s, []⟩ t → u ∈ s :: t.trace → u = s ∨ C u := by
    intro t ht hut
    rcases List.mem_cons.mp hut with rfl | hut
    · exact Or.inl rfl
    · exact Or.inr ((ht u hut).resolve_left (List.not_mem_nil))
  cases hr : x ⟨s, []⟩ with
  | ok a t =>
      rw [hr] at hx
      simp only [Proc.crashStates, hr] at hu
      exact hcase t hx.2 hu
  | error e t =>
      rw [hr] at hx
      simp only [Proc.crashStates, hr] at hu
      exact hcase t hx.2 hu

/-- A procedure whose faults are excluded returns and meets its outcome. -/
theorem returns (h : Triple P x Q (fun _ _ => False) C) {s : σ} (hs : P s) :
    ∃ a t, x ⟨s, []⟩ = .ok a t ∧ Q a t.now := by
  have hx := h ⟨s, []⟩ hs
  cases hr : x ⟨s, []⟩ with
  | ok a t =>
      rw [hr] at hx
      exact ⟨a, t, rfl, hx.1⟩
  | error e t =>
      rw [hr] at hx
      exact hx.1.elim

end Triple

end AwesomeAgent
