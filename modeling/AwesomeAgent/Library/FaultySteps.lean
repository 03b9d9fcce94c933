import AwesomeAgent.Library.CrashLogic

/-!
# Steps that may fail and recoveries that may crash

Every access to a durable state takes its outcome from a script: it is done, it
fails without effect, or it takes effect and is reported as failed. A recovery
that a crash interrupts is started again from the state that the crash left.
-/

namespace AwesomeAgent

/-- A sequence of fallible computations succeeds step by step. -/
theorem except_bind_ok {ε α β : Type} {x : Except ε α} {f : α → Except ε β} {b : β}
    (h : (x >>= f) = .ok b) : ∃ a, x = .ok a ∧ f a = .ok b := by
  cases x with
  | error e => cases h
  | ok a => exact ⟨a, rfl, h⟩

/-- A result is that of the computation. -/
theorem except_ok_of_toOption {ε α : Type} {x : Except ε α} {a : α} (h : x.toOption = some a) :
    x = .ok a := by
  cases x with
  | error e => cases h
  | ok b =>
    cases h
    rfl

/-- A sequence of fallible computations fails in one of its steps. -/
theorem except_bind_error {ε α β : Type} {x : Except ε α} {f : α → Except ε β} {e : ε}
    (h : (x >>= f) = .error e) : x = .error e ∨ ∃ a, x = .ok a ∧ f a = .error e := by
  cases x with
  | error e' =>
    cases h
    exact Or.inl rfl
  | ok a => exact Or.inr ⟨a, rfl, h⟩

/-- Every item of a list of partial computations has a result. -/
theorem exists_of_mapM {α β : Type} {f : α → Option β} {items : List α} {results : List β}
    (h : items.mapM f = some results) :
    ∀ item ∈ items, ∃ result ∈ results, f item = some result := by
  induction items generalizing results with
  | nil => exact nofun
  | cons item items ih =>
    rw [List.mapM_cons] at h
    obtain ⟨first, hfirst, h⟩ := Option.bind_eq_some_iff.mp h
    obtain ⟨more, hmore, h⟩ := Option.bind_eq_some_iff.mp h
    cases h
    rw [List.forall_mem_cons]
    refine ⟨⟨first, List.mem_cons_self, hfirst⟩, fun other hother => ?_⟩
    obtain ⟨result, hresult, hf⟩ := ih hmore other hother
    exact ⟨result, List.mem_cons_of_mem _ hresult, hf⟩

/-- Every result of a list of partial computations has an item. -/
theorem mem_of_mapM {α β : Type} {f : α → Option β} {items : List α} {results : List β}
    (h : items.mapM f = some results) :
    ∀ result ∈ results, ∃ item ∈ items, f item = some result := by
  induction items generalizing results with
  | nil =>
    cases h
    exact nofun
  | cons item items ih =>
    rw [List.mapM_cons] at h
    obtain ⟨first, hfirst, h⟩ := Option.bind_eq_some_iff.mp h
    obtain ⟨more, hmore, h⟩ := Option.bind_eq_some_iff.mp h
    cases h
    rw [List.forall_mem_cons]
    refine ⟨⟨item, List.mem_cons_self, hfirst⟩, fun other hother => ?_⟩
    obtain ⟨source, hsource, hf⟩ := ih hmore other hother
    exact ⟨source, List.mem_cons_of_mem _ hsource, hf⟩

/-- There are as many results as items. -/
theorem length_of_mapM {α β : Type} {f : α → Option β} {items : List α} {results : List β}
    (h : items.mapM f = some results) : results.length = items.length := by
  induction items generalizing results with
  | nil =>
    cases h
    rfl
  | cons item items ih =>
    rw [List.mapM_cons] at h
    obtain ⟨result, -, h⟩ := Option.bind_eq_some_iff.mp h
    obtain ⟨more, hmore, h⟩ := Option.bind_eq_some_iff.mp h
    cases h
    rw [List.length_cons, List.length_cons, ih hmore]

/-- What every step of a fold keeps holds behind it. -/
theorem except_foldlM_keeps {ε σ α : Type} {f : σ → α → Except ε σ} {P : σ → Prop} {xs : List α}
    {s t : σ} (hstep : ∀ x ∈ xs, ∀ s t, P s → f s x = .ok t → P t)
    (h : xs.foldlM f s = .ok t) (hs : P s) : P t := by
  induction xs generalizing s with
  | nil =>
    cases h
    exact hs
  | cons x xs ih =>
    rw [List.foldlM_cons] at h
    obtain ⟨next, hx, h⟩ := except_bind_ok h
    rw [List.forall_mem_cons] at hstep
    exact ih hstep.2 h (hstep.1 s next hs hx)

/-- What a step of a fold establishes for its item holds for every item behind the fold, when
the other steps keep it. -/
theorem except_foldlM_leaves {ε σ α : Type} {f : σ → α → Except ε σ} {R : α → σ → Prop}
    {xs : List α} {s t : σ} (hdone : ∀ x ∈ xs, ∀ s t, f s x = .ok t → R x t)
    (hkeep : ∀ x, ∀ y ∈ xs, ∀ s t, R x s → f s y = .ok t → R x t)
    (h : xs.foldlM f s = .ok t) : ∀ x ∈ xs, R x t := by
  induction xs generalizing s with
  | nil => exact nofun
  | cons x xs ih =>
    rw [List.foldlM_cons] at h
    obtain ⟨next, hx, h⟩ := except_bind_ok h
    rw [List.forall_mem_cons] at hdone ⊢
    have hkeep' := fun z y hy => hkeep z y (List.mem_cons_of_mem x hy)
    exact ⟨except_foldlM_keeps (hkeep' x) h (hdone.1 s next hx), ih hdone.2 hkeep' h⟩

/-- Checks of a list that succeed succeed for every item. -/
theorem except_forM_ok {ε α : Type} {f : α → Except ε Unit} {xs : List α} {u : Unit}
    (h : xs.forM f = .ok u) : ∀ x ∈ xs, f x = .ok () := by
  induction xs with
  | nil => exact nofun
  | cons x xs ih =>
    obtain ⟨_, hx, h⟩ := except_bind_ok h
    exact List.forall_mem_cons.mpr ⟨hx, ih h⟩

/-- How one access ends. -/
inductive StepOutcome
  | done
  | failed
  | lost
  deriving DecidableEq, Repr

/-- A state with the outcomes of its next accesses; accesses beyond the script are done. -/
structure Scripted (σ : Type) where
  state : σ
  outcomes : List StepOutcome

namespace Scripted

variable {ε σ α : Type}

/-- One access to the state. A failure is reported as the given fault. -/
def access (fault : ε) (f : σ → Except ε (α × σ)) : EStateM ε (Scripted σ) α := fun s =>
  match s.outcomes.headD .done, f s.state with
  | .failed, _ => .error fault ⟨s.state, s.outcomes.tail⟩
  | _, .error e => .error e ⟨s.state, s.outcomes.tail⟩
  | .done, .ok (a, t) => .ok a ⟨t, s.outcomes.tail⟩
  | .lost, .ok (_, t) => .error fault ⟨t, s.outcomes.tail⟩

/-- Look at the state. -/
def read (fault : ε) (f : σ → Except ε α) : Proc ε (Scripted σ) α :=
  Proc.volatile (access fault fun s => (f s).map fun a => (a, s))

/-- Replace the state in one durable step. -/
def write (fault : ε) (f : σ → σ) : Proc ε (Scripted σ) Unit :=
  Proc.durable (access fault fun s => .ok ((), f s))

/-- Change the state in a step that does not survive a crash. -/
def adjust (fault : ε) (f : σ → Except ε σ) : Proc ε (Scripted σ) Unit :=
  Proc.volatile (access fault fun s => (f s).map fun t => ((), t))

/-- Look at memory, which does not fail. -/
def peek (f : σ → α) : Proc ε (Scripted σ) α := fun s => .ok (f s.now.state) s

/-- Change memory, which neither fails nor survives. -/
def remember (f : σ → σ) : Proc ε (Scripted σ) Unit :=
  Proc.volatile (modify fun s => { s with state := f s.state })

/-- A condition on the state; in a quiet run no failure is left in the script. -/
def Steady (quiet : Prop) (P : σ → Prop) (s : Scripted σ) : Prop :=
  P s.state ∧ (quiet → s.outcomes = [])

variable {q : Prop} {P : σ → Prop} {Q : α → σ → Prop} {E : ε → σ → Prop}

private theorem Steady.mono {P' : σ → Prop} {s : Scripted σ} (h : Steady q P s)
    (hP : ∀ s, P s → P' s) : Steady q P' s :=
  ⟨hP _ h.1, h.2⟩

/-- An access meets the outcome of its effect, and a failure leaves the state before or
after it. -/
theorem access_spec {fault : ε} {f : σ → Except ε (α × σ)}
    (hok : ∀ s a t, P s → f s = .ok (a, t) → Q a t)
    (herr : ∀ s e, P s → f s = .error e → E e s)
    (hfail : ¬q → ∀ s, P s → E fault s)
    (hlost : ¬q → ∀ s a t, P s → f s = .ok (a, t) → E fault t) :
    Hoare (Steady q P) (access fault f) (fun a => Steady q (Q a)) (fun e => Steady q (E e)) := by
  intro s ⟨hs, hq⟩
  have htail : q → s.outcomes.tail = [] := fun h => by rw [hq h, List.tail_nil]
  have hnoisy : s.outcomes.headD .done ≠ .done → ¬q := fun hne h => hne (by rw [hq h]; rfl)
  cases ho : s.outcomes.headD .done with
  | failed =>
    simp only [access, ho]
    exact ⟨hfail (hnoisy (by rw [ho]; decide)) _ hs, htail⟩
  | done =>
    cases hf : f s.state with
    | error e =>
      simp only [access, ho, hf]
      exact ⟨herr _ _ hs hf, htail⟩
    | ok r =>
      simp only [access, ho, hf]
      exact ⟨hok _ _ _ hs hf, htail⟩
  | lost =>
    cases hf : f s.state with
    | error e =>
      simp only [access, ho, hf]
      exact ⟨herr _ _ hs hf, htail⟩
    | ok r =>
      simp only [access, ho, hf]
      exact ⟨hlost (hnoisy (by rw [ho]; decide)) _ _ _ hs hf, htail⟩

end Scripted

/-- A procedure that keeps an invariant wherever it fails or crashes. In a quiet run it does
not fail; otherwise `E` tells what holds of the fault that is raised. -/
def Guarded {ε σ α : Type} (q : Prop) (I P : σ → Prop) (p : Proc ε (Scripted σ) α)
    (Q : α → σ → Prop) (E : ε → σ → Prop := fun _ _ => True) : Prop :=
  Triple (Scripted.Steady q P) p (fun a => Scripted.Steady q (Q a))
    (fun e => Scripted.Steady q fun s => ¬q ∧ I s ∧ E e s) (fun s => I s.state)

namespace Guarded

open Scripted

variable {ε σ α β : Type} {q : Prop} {I P : σ → Prop} {Q : α → σ → Prop} {E : ε → σ → Prop}
  {p : Proc ε (Scripted σ) α} {fault : ε} {x : σ}

/-- A procedure can be looked at from each state that it may start in. -/
theorem start (h : ∀ x, P x → Guarded q I (fun s => s = x) p Q E) : Guarded q I P p Q E :=
  fun s hs => h s.now.state hs.1 s ⟨rfl, hs.2⟩

/-- The precondition may be strengthened. -/
theorem pre {P' : σ → Prop} (h : Guarded q I P p Q E) (hP : ∀ s, P' s → P s) :
    Guarded q I P' p Q E :=
  Triple.pre h fun _ hs => hs.mono hP

/-- The postcondition may be weakened. -/
theorem post {Q' : α → σ → Prop} (h : Guarded q I P p Q E) (hQ : ∀ a s, Q a s → Q' a s) :
    Guarded q I P p Q' E :=
  Triple.post h fun a _ hs => hs.mono (hQ a)

/-- The conditions on faults may be weakened. -/
theorem weakenFault {I' : σ → Prop} {E' : ε → σ → Prop} (h : Guarded q I P p Q E)
    (hI : ∀ s, I s → I' s) (hE : ∀ e s, I s → E e s → E' e s) : Guarded q I' P p Q E' :=
  Triple.conseq h (fun _ hs => hs) (fun _ _ hs => hs)
    (fun e _ hs => hs.mono fun s hs => ⟨hs.1, hI s hs.2.1, hE e s hs.2.1 hs.2.2⟩)
    fun _ hs => hI _ hs

/-- The invariant may be weakened. -/
theorem weaken {I' : σ → Prop} (h : Guarded q I P p Q E) (hI : ∀ s, I s → I' s) :
    Guarded q I' P p Q :=
  weakenFault h hI fun _ _ _ _ => trivial

/-- A result keeps everything. -/
theorem pure {a : α} (h : ∀ s, P s → Q a s) :
    Guarded q I P (Pure.pure a : Proc ε (Scripted σ) α) Q E :=
  Triple.pure fun _ hs => hs.mono h

/-- A fault can only be raised in a run that is not quiet. -/
theorem throwFault {e : ε} (hq : ¬q) (h : ∀ s, P s → I s) (hE : ∀ s, P s → E e s) :
    Guarded q I P (MonadExcept.throw e : Proc ε (Scripted σ) α) Q E :=
  Triple.throw fun _ hs => hs.mono fun s hs => ⟨hq, h s hs, hE s hs⟩

/-- A fault keeps the invariant. -/
theorem throw {e : ε} (hq : ¬q) (h : ∀ s, P s → I s) :
    Guarded q I P (MonadExcept.throw e : Proc ε (Scripted σ) α) Q :=
  throwFault hq h fun _ _ => trivial

/-- Guarded procedures follow one another. -/
theorem bind {k : α → Proc ε (Scripted σ) β} {R : β → σ → Prop} (h : Guarded q I P p Q E)
    (hk : ∀ a, Guarded q I (Q a) (k a) R E) : Guarded q I P (p >>= k) R E :=
  Triple.bind h hk

variable {k : α → Proc ε (Scripted σ) β} {R : β → σ → Prop} {f : σ → Except ε α}

/-- Nothing follows a raised fault. -/
theorem raiseFault {e : ε} (hq : ¬q) (h : ∀ s, P s → I s) (hE : ∀ s, P s → E e s) :
    Guarded q I P (MonadExcept.throw e >>= k) R E :=
  bind (Q := fun _ _ => False) (throwFault hq h hE) fun _ => start fun _ h => h.elim

/-- A fault ends the procedure with the invariant. -/
theorem raise {e : ε} (hq : ¬q)
    (h : ∀ s, P s → I s) : Guarded q I P (MonadExcept.throw e >>= k) R :=
  raiseFault hq h fun _ _ => trivial

/-- After a procedure with a known value the rest goes on with that value. -/
theorem bindValue {a : α} (h : Guarded q I P p (fun b s => b = a ∧ s = x) E)
    (hk : Guarded q I (fun s => s = x) (k a) R E) : Guarded q I P (p >>= k) R E := by
  refine bind h fun b => start fun y hy => ?_
  rcases hy with ⟨rfl, rfl⟩
  exact hk

/-- A known look at the state reports what is there. -/
theorem readFault {a : α} (h : f x = .ok a) (hI : I x) (hE : E fault x) :
    Guarded q I (fun s => s = x) (Scripted.read fault f) (fun b s => b = a ∧ s = x) E := by
  have hmap : ∀ s, s = x → (f s).map (fun a => (a, s)) = .ok (a, x) := by
    rintro s rfl
    rw [h]
    rfl
  refine Triple.volatile (access_spec ?_ ?_ ?_ ?_)
  · intro s b t hs hf
    rw [hmap s hs] at hf
    cases hf
    exact ⟨rfl, rfl⟩
  · intro s e hs hf
    rw [hmap s hs] at hf
    cases hf
  · exact fun hq s hs => hs ▸ ⟨hq, hI, hE⟩
  · intro hq s b t hs hf
    rw [hmap s hs] at hf
    cases hf
    exact ⟨hq, hI, hE⟩

/-- A reading that succeeds changes nothing. -/
theorem read {f : σ → Except ε α} {a : α} (h : f x = .ok a) (hI : I x) :
    Guarded q I (fun s => s = x) (Scripted.read fault f) fun b s => b = a ∧ s = x :=
  readFault h hI trivial

/-- Outside quiet runs a look at the state may also report a fault. -/
theorem lookFault (hq : ¬q) (hI : I x) (hE : E fault x) (herr : ∀ e, f x = .error e → E e x) :
    Guarded q I (fun s => s = x) (Scripted.read fault f) (fun a s => f x = .ok a ∧ s = x) E := by
  refine Triple.volatile (access_spec ?_ ?_ ?_ ?_)
  · rintro s a t rfl hf
    cases hr : f s with
    | error e =>
      rw [hr] at hf
      cases hf
    | ok b =>
      rw [hr] at hf
      cases hf
      exact ⟨rfl, rfl⟩
  · rintro s e rfl hf
    cases hr : f s with
    | error e =>
      rw [hr] at hf
      cases hf
      exact ⟨hq, hI, herr e hr⟩
    | ok b =>
      rw [hr] at hf
      cases hf
  · exact fun _ s hs => hs ▸ ⟨hq, hI, hE⟩
  · rintro _ s a t rfl hf
    cases hr : f s with
    | error e =>
      rw [hr] at hf
      cases hf
    | ok b =>
      rw [hr] at hf
      cases hf
      exact ⟨hq, hI, hE⟩

/-- A reading gives what it reads. -/
theorem look (hq : ¬q) (hI : I x) :
    Guarded q I (fun s => s = x) (Scripted.read fault f) fun a s => f x = .ok a ∧ s = x :=
  lookFault hq hI trivial fun _ _ => trivial

/-- A durable step ends before or after its effect. -/
theorem writeFault {f : σ → σ} (hbefore : I x) (hafter : I (f x))
    (hE : E fault x ∧ E fault (f x)) :
    Guarded q I (fun s => s = x) (Scripted.write fault f) (fun _ s => s = f x) E := by
  have hspec : Hoare (Steady q fun s => s = x) (access fault fun s => .ok ((), f s))
      (fun _ => Steady q fun s => s = f x) (fun e => Steady q fun s => ¬q ∧ I s ∧ E e s) := by
    refine access_spec ?_ ?_ ?_ ?_
    · rintro s a t rfl hf
      cases hf
      rfl
    · rintro s e rfl hf
      cases hf
    · rintro hq s rfl
      exact ⟨hq, hbefore, hE.1⟩
    · rintro hq s a t rfl hf
      cases hf
      exact ⟨hq, hafter, hE.2⟩
  refine Triple.durable hspec ?_ ?_
  · rintro a s ⟨hs, _⟩
    exact hs ▸ hafter
  · exact fun e s hs => hs.1.2.1

/-- A write keeps the invariant when it holds before and after. -/
theorem write {f : σ → σ} (hbefore : I x) (hafter : I (f x)) :
    Guarded q I (fun s => s = x) (Scripted.write fault f : Proc ε (Scripted σ) Unit)
      fun _ s => s = f x :=
  writeFault hbefore hafter ⟨trivial, trivial⟩

/-- A step without durable effect ends before or after its effect. -/
theorem adjust {f : σ → Except ε σ} {y : σ} (h : f x = .ok y) (hbefore : I x) (hafter : I y) :
    Guarded q I (fun s => s = x) (Scripted.adjust fault f) fun _ s => s = y := by
  refine Triple.volatile (access_spec ?_ ?_ ?_ ?_)
  · rintro s a t rfl hf
    rw [h] at hf
    cases hf
    rfl
  · rintro s e rfl hf
    rw [h] at hf
    cases hf
  · exact fun hq s hs => hs ▸ ⟨hq, hbefore, trivial⟩
  · rintro hq s a t rfl hf
    rw [h] at hf
    cases hf
    exact ⟨hq, hafter, trivial⟩

/-- Outside quiet runs such a step may also report a fault. -/
theorem tryAdjust {f : σ → Except ε σ} (hq : ¬q) (hbefore : I x)
    (hafter : ∀ y, f x = .ok y → I y) :
    Guarded q I (fun s => s = x) (Scripted.adjust fault f) fun _ s => f x = .ok s := by
  cases h : f x with
  | ok y => exact (adjust h hbefore (hafter y h)).post fun _ _ hs => hs ▸ rfl
  | error e =>
    refine Triple.volatile (access_spec ?_ ?_ ?_ ?_)
    · rintro s a t rfl hf
      rw [h] at hf
      cases hf
    · exact fun s e hs _ => hs ▸ ⟨hq, hbefore, trivial⟩
    · exact fun _ s hs => hs ▸ ⟨hq, hbefore, trivial⟩
    · rintro _ s a t rfl hf
      rw [h] at hf
      cases hf

/-- Looking at memory reports what is there. -/
theorem peek {f : σ → α} :
    Guarded q I (fun s => s = x) (Scripted.peek f : Proc ε (Scripted σ) α)
      (fun a s => a = f x ∧ s = x) E := by
  rintro s ⟨rfl, hq⟩
  exact ⟨⟨⟨rfl, rfl⟩, hq⟩, Proc.Leaves.refl _ s⟩

/-- Memory changes as told. -/
theorem remember {f : σ → σ} :
    Guarded q I (fun s => s = x) (Scripted.remember f : Proc ε (Scripted σ) Unit)
      (fun _ s => s = f x) E :=
  Triple.volatile fun _ hs => ⟨congrArg f hs.1, hs.2⟩

/-- A caught fault leaves a state with the invariant, and is what it was raised as. -/
theorem attemptFault {J : σ → Prop} {F : ε → σ → Prop} {R : Except ε α → σ → Prop}
    (h : Guarded q J P p (fun a => R (.ok a)) F) (hI : ∀ s, J s → I s)
    (herror : ¬q → ∀ e s, J s → F e s → R (.error e) s) :
    Guarded q I P (Proc.attempt p) R E :=
  Triple.attempt (Triple.conseq h (fun _ hs => hs) (fun _ _ hs => hs)
    (fun e _ hs => hs.mono fun s hs => herror hs.1 e s hs.2.1 hs.2.2) fun _ hs => hI _ hs)

/-- A caught fault leaves a state with the invariant. -/
theorem attempt {J : σ → Prop} {R : Except ε α → σ → Prop}
    (h : Guarded q J P p fun a => R (.ok a)) (hI : ∀ s, J s → I s)
    (herror : ¬q → ∀ e s, J s → R (.error e) s) : Guarded q I P (Proc.attempt p) R E :=
  attemptFault h hI fun hq e s hs _ => herror hq e s hs

/-- Renaming faults keeps what is guarded. -/
theorem mapFault {f : ε → ε} (h : Guarded q I P p Q) : Guarded q I P (Proc.mapFault f p) Q :=
  Triple.mapFault (Triple.fault h fun _ _ hs => hs.mono fun _ hs => ⟨hs.1, hs.2.1, trivial⟩)

end Guarded

section Restart

variable {ε σ β : Type}

/-- The states that crashes leave when an interrupted recovery is started again, each time
after `reboot` and with new outcomes of its steps. -/
inductive Restarts (reboot : σ → σ) (recover : Proc ε (Scripted σ) β) (crashed : σ → Prop) :
    σ → Prop
  | crash {s : σ} : crashed s → Restarts reboot recover crashed s
  | again {s : σ} {outcomes : List StepOutcome} {t : Scripted σ} :
      Restarts reboot recover crashed s →
      t ∈ Proc.crashStates recover ⟨reboot s, outcomes⟩ →
      Restarts reboot recover crashed t.state

variable {reboot : σ → σ} {recover : Proc ε (Scripted σ) β} {crashed I R : σ → Prop}
variable {Q : β → σ → Prop}

private theorem Restarts.invariant {s : σ}
    (h : Restarts reboot recover crashed s) (hcrash : ∀ s, crashed s → I s)
    (hreboot : ∀ s, I s → R (reboot s)) (hready : ∀ s, R s → I s)
    (hrecover : Guarded False I R recover Q) : I s := by
  induction h with
  | crash hs => exact hcrash _ hs
  | @again s outcomes t _ ht ih =>
    have hstart : Scripted.Steady False R ⟨reboot s, outcomes⟩ := ⟨hreboot s ih, False.elim⟩
    rcases Triple.crashStates hrecover hstart ht with rfl | ht
    · exact hready _ hstart.1
    · exact ht

/-- A recovery that keeps an invariant from every state that a reboot leads to succeeds after
any number of crashes, once its steps succeed. -/
theorem Restarts.recovers {s : σ}
    (h : Restarts reboot recover crashed s) (hcrash : ∀ s, crashed s → I s)
    (hreboot : ∀ s, I s → R (reboot s)) (hready : ∀ s, R s → I s)
    (hrecover : ∀ q, Guarded q I R recover Q) :
    ∃ b t, recover ⟨⟨reboot s, []⟩, []⟩ = .ok b t ∧ Q b t.now.state := by
  have hR := hreboot s (h.invariant hcrash hreboot hready (hrecover False))
  have hstart : Scripted.Steady True R ⟨reboot s, []⟩ := ⟨hR, fun _ => rfl⟩
  obtain ⟨b, t, hrun, hb⟩ :=
    (Triple.fault (hrecover True) fun _ _ hs => hs.1.1 trivial).returns hstart
  exact ⟨b, t, hrun, hb.1⟩

end Restart

end AwesomeAgent
