import AwesomeAgent.Library.CrashLogic
import AwesomeAgent.Library.Runs

/-!
# Procedures that log their calls

A procedure logs what it calls, and takes what happens while it waits from a script. What is said
of a log and of a state together holds after every call and every wait that keep it, and a call
that was logged stays in the log.
-/

namespace AwesomeAgent

/-- A state with the calls so far and with what the next waits will find. -/
structure Logged (σ κ χ : Type) where
  state : σ
  calls : List κ
  script : List χ

/-- Of items that none comes behind there is at most one. -/
theorem countP_le_one {κ : Type} {p : κ → Bool} {log : List κ}
    (h : ∀ earlier item later, log = earlier ++ item :: later → p item = true →
      ∀ other ∈ earlier, p other = false) : log.countP p ≤ 1 := by
  induction log with
  | nil => exact Nat.zero_le 1
  | cons first rest ih =>
    by_cases hfirst : p first = true
    · have hrest : rest.countP p = 0 := by
        rw [List.countP_eq_zero]
        intro item hitem hp
        obtain ⟨earlier, later, rfl⟩ := List.append_of_mem hitem
        have hnone := h (first :: earlier) item later rfl hp first List.mem_cons_self
        rw [hfirst] at hnone
        cases hnone
      have hcount : (first :: rest).countP p = rest.countP p + 1 := List.countP_cons_of_pos hfirst
      omega
    · rw [List.countP_cons_of_neg hfirst]
      refine ih fun earlier item later hsplit hp other hother => ?_
      exact h (first :: earlier) item later (by rw [hsplit, List.cons_append]) hp other
        (List.mem_cons_of_mem _ hother)

namespace Logged

variable {ε σ κ χ α β : Type}

/-- The state and the log in which a run ends. -/
def ending : EStateM.Result ε (Logged σ κ χ) α → Logged σ κ χ
  | .ok _ s => s
  | .error _ s => s

variable {P : Logged σ κ χ → Prop} {s : Logged σ κ χ} {act : σ → κ → σ}

/-- What holds of a run however it ends. -/
theorem ending_of_settles {result : EStateM.Result ε (Logged σ κ χ) α}
    (h : Settles (fun _ => P) (fun _ => P) result) : P (ending result) := by
  cases result with
  | ok a s => exact h
  | error e s => exact h

/-- Log a call. -/
def record (call : κ) : EStateM ε (Logged σ κ χ) Unit :=
  modify fun s => { s with calls := s.calls ++ [call] }

/-- Look at the state. -/
def look (f : σ → α) : EStateM ε (Logged σ κ χ) α := fun s => .ok (f s.state) s

/-- Look at what the next wait will find. -/
def foresee (quiet : χ) (f : χ → α) : EStateM ε (Logged σ κ χ) α :=
  fun s => .ok (f (s.script.headD quiet)) s

/-- Change the state, unless that fails, and log how. -/
def adjust (f : σ → Except ε σ) (call : κ) : EStateM ε (Logged σ κ χ) Unit := fun s =>
  match f s.state with
  | .ok state => .ok () { s with state := state, calls := s.calls ++ [call] }
  | .error e => .error e s

/-- Let others act and log what they do. -/
def suffer (act : σ → κ → σ) (acts : List κ) (s : Logged σ κ χ) : Logged σ κ χ :=
  { s with state := acts.foldl act s.state, calls := s.calls ++ acts }

/-- Wait: the next item of the script says what the others do and what is found. -/
def wait (quiet : χ) (act : σ → κ → σ) (others : χ → List κ) : EStateM ε (Logged σ κ χ) χ :=
  fun s =>
    let choice := s.script.headD quiet
    .ok choice (suffer act (others choice) { s with script := s.script.tail })

/-- Run a procedure and hand a raised fault back as a value. -/
def attempt (x : EStateM ε (Logged σ κ χ) α) : EStateM ε (Logged σ κ χ) (Except ε α) := fun s =>
  match x s with
  | .ok a t => .ok (.ok a) t
  | .error e t => .ok (.error e) t

/-- Go on with a value or raise a fault. -/
def lift : Except ε α → EStateM ε (Logged σ κ χ) α
  | .ok a => pure a
  | .error e => throw e

/-- Something holds of the state and the log, and some calls are known to be in the log. -/
def Knows (J : σ → List κ → Prop) (facts : List κ) (s : Logged σ κ χ) : Prop :=
  J s.state s.calls ∧ facts ⊆ s.calls

variable {J K : σ → List κ → Prop} {facts : List κ} {E : ε → Logged σ κ χ → Prop}

/-- Less may be known. -/
theorem Knows.mono {fewer : List κ} (h : Knows J facts s)
    (hJ : ∀ state calls, J state calls → K state calls) (hfacts : fewer ⊆ facts) :
    Knows K fewer s :=
  ⟨hJ _ _ h.1, List.Subset.trans hfacts h.2⟩

/-- A call whose logging keeps what is said is known from then on. -/
theorem record_knows {call : κ}
    (h : ∀ state calls, J state calls → facts ⊆ calls → K state (calls ++ [call])) :
    Hoare (Knows J facts) (record call : EStateM ε (Logged σ κ χ) Unit)
      (fun _ => Knows K (call :: facts)) E := by
  intro s hs
  refine ⟨h _ _ hs.1 hs.2, ?_⟩
  rw [List.cons_subset]
  exact ⟨List.mem_append_right _ List.mem_cons_self,
    List.Subset.trans hs.2 (List.subset_append_left _ _)⟩

/-- A change that is logged and keeps what is said is known from then on. -/
theorem adjust_knows {f : σ → Except ε σ} {call : κ}
    (h : ∀ state calls next, J state calls → facts ⊆ calls → f state = .ok next →
      K next (calls ++ [call])) (hE : ∀ e s, Knows J facts s → E e s) :
    Hoare (Knows J facts) (adjust f call : EStateM ε (Logged σ κ χ) Unit)
      (fun _ => Knows K (call :: facts)) E := by
  intro s hs
  cases hf : f s.state with
  | error e =>
    simp only [adjust, hf]
    exact hE e s hs
  | ok next =>
    simp only [adjust, hf]
    refine ⟨h _ _ _ hs.1 hs.2 hf, ?_⟩
    rw [List.cons_subset]
    exact ⟨List.mem_append_right _ List.mem_cons_self,
      List.Subset.trans hs.2 (List.subset_append_left _ _)⟩

/-- What is foreseen changes nothing. -/
theorem foresee_knows (quiet : χ) (f : χ → α) :
    Hoare (Knows J facts) (foresee quiet f : EStateM ε (Logged σ κ χ) α)
      (fun _ => Knows J facts) E :=
  fun _ hs => hs

private theorem suffer_knows {acts : List κ}
    (h : ∀ call ∈ acts, ∀ state calls, J state calls → J (act state call) (calls ++ [call]))
    (hs : Knows J facts s) : Knows J facts (suffer act acts s) := by
  refine ⟨?_, List.Subset.trans hs.2 (List.subset_append_left _ _)⟩
  change J (acts.foldl act s.state) (s.calls ++ acts)
  have hJ := hs.1
  generalize s.calls = calls at hJ ⊢
  generalize s.state = state at hJ ⊢
  induction acts generalizing state calls with
  | nil => simpa using hJ
  | cons call acts ih =>
    rw [List.forall_mem_cons] at h
    have hnext := ih h.2 (calls ++ [call]) (act state call) (h.1 _ _ hJ)
    rwa [List.append_assoc, List.singleton_append] at hnext

/-- A wait keeps what the others keep. -/
theorem wait_knows {quiet : χ} {others : χ → List κ}
    (h : ∀ choice, ∀ call ∈ others choice, ∀ state calls, J state calls →
      J (act state call) (calls ++ [call])) :
    Hoare (Knows J facts) (wait quiet act others : EStateM ε (Logged σ κ χ) χ)
      (fun _ => Knows J facts) E :=
  fun _ hs => suffer_knows (h _) hs

/-- A procedure whose faults are caught. -/
theorem attempt_spec {x : EStateM ε (Logged σ κ χ) α}
    {Q : α → Logged σ κ χ → Prop} {F : ε → Logged σ κ χ → Prop} (h : Hoare P x Q F) :
    Hoare P (attempt x) (Caught Q F) E := by
  intro s hs
  have hx := h s hs
  cases hr : x s with
  | ok a t =>
    rw [hr] at hx
    simp only [attempt, hr]
    exact hx
  | error e t =>
    rw [hr] at hx
    simp only [attempt, hr]
    exact hx

/-- A value that is given. -/
theorem lift_spec {result : Except ε α} (hP : ∀ e s, P s → E e s) :
    Hoare P (lift result : EStateM ε (Logged σ κ χ) α) (fun a s => P s ∧ result = .ok a) E := by
  intro s hs
  cases result with
  | ok a => exact ⟨hs, rfl⟩
  | error e => exact hP e s hs

end Logged

end AwesomeAgent
