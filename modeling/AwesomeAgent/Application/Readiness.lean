import AwesomeAgent.Application.Bootstrap
import AwesomeAgent.Library.Runs

/-!
# Readiness of the application

Along every run of callers the application becomes ready only by a result that says so or by the
trust that is pending, it stays ready, and tokens that are no longer current change nothing.
-/

namespace AwesomeAgent

/-- A result that says that the application is ready. -/
def SaysReady (result : ApplicationResult InitializeResult) : Prop :=
  ∃ value, result = .result (some true) (.typed value) false ∧ value.status = some .ready

/-- A result that says that the answer was accepted. -/
def SaysResolved (result : ApplicationResult InteractionResult) : Prop :=
  ∃ value, result = .result (some true) (.typed value) false ∧ value.accepted = true ∧
    value.status = "resolved" ∧ value.hasError = false

/-! ## Results -/

variable {state : StableBootstrapState}

private theorem pendingState_ok {phase : BootstrapPhase} {interactionId : ResultValue String}
    (h : pendingState phase interactionId = .ok state) :
    state.phase = phase := by
  unfold pendingState at h
  split at h
  · split at h
    · cases h
    · cases h
      rfl
  · cases h

private theorem stateFromInitializeResult_ok {value : ResultValue InitializeResult}
    (h : stateFromInitializeResult value = .ok state) :
    (∃ v, value = .typed v ∧ v.status = some .ready ∧ state = ⟨.ready, none⟩) ∨
      state.phase = .trustRequired ∨ state.phase = .stateResetRequired := by
  unfold stateFromInitializeResult at h
  split at h
  · next v =>
    split at h
    · cases h
    · next hstatus =>
      split at h
      · cases h
        exact .inl ⟨v, rfl, hstatus, rfl⟩
      · cases h
    · exact .inr (.inl (pendingState_ok h))
    · exact .inr (.inr (pendingState_ok h))
  · cases h

private theorem stateFromInitializeOutcome_ok {result : ApplicationResult InitializeResult}
    (h : stateFromInitializeOutcome result = .ok (some state)) :
    SaysReady result ∧ state = ⟨.ready, none⟩ ∨
      state.phase = .trustRequired ∨ state.phase = .stateResetRequired := by
  unfold stateFromInitializeOutcome at h
  split at h
  · next value =>
    cases hvalue : stateFromInitializeResult value with
    | error e =>
      rw [hvalue] at h
      cases h
    | ok st =>
      rw [hvalue] at h
      cases h
      refine (stateFromInitializeResult_ok hvalue).imp_left ?_
      rintro ⟨v, rfl, hstatus, rfl⟩
      exact ⟨⟨v, rfl, hstatus⟩, rfl⟩
  all_goals cases h

/-- The phase where an attempt ends: the one its result asks for, or the one it began in. -/
def InitializeTransition.landing (transition : InitializeTransition)
    (result : ApplicationResult InitializeResult) : StableBootstrapState :=
  match stateFromInitializeOutcome result with
  | .ok (some state) => state
  | _ => transition.origin

private theorem InitializeTransition.landing_cases (transition : InitializeTransition)
    (result : ApplicationResult InitializeResult) :
    SaysReady result ∧ transition.landing result = ⟨.ready, none⟩ ∨
      (transition.landing result).phase = .trustRequired ∨
      (transition.landing result).phase = .stateResetRequired ∨
      transition.landing result = transition.origin := by
  unfold landing
  split
  · next state hstate =>
    obtain h | h | h := stateFromInitializeOutcome_ok hstate
    · exact .inl h
    · exact .inr (.inl h)
    · exact .inr (.inr (.inl h))
  · exact .inr (.inr (.inr rfl))

/-! ## Single transitions -/

namespace ApplicationBootstrap

variable {b b' : ApplicationBootstrap} {transition : InitializeTransition}
  {result : ApplicationResult InitializeResult}

/-- The bootstrap after an attempt has ended in a phase. -/
def ended (b : ApplicationBootstrap) (state : StableBootstrapState) : ApplicationBootstrap :=
  { b with
    activeInitializeGeneration := none
    phase := state.phase
    interactionId := state.interactionId }

private theorem beginInitialize_ok (h : b.beginInitialize = .ok (transition, b')) :
    b.activePreinitialize = none ∧ b.phase ≠ .initializing ∧
      (b.phase = .ready ∧ transition = ⟨none, ⟨b.phase, b.interactionId⟩⟩ ∧ b' = b ∨
        b.phase ≠ .ready ∧
          transition = ⟨some (b.nextInitializeGeneration + 1), ⟨b.phase, b.interactionId⟩⟩ ∧
          b' = { b with
            nextInitializeGeneration := b.nextInitializeGeneration + 1
            activeInitializeGeneration := some (b.nextInitializeGeneration + 1)
            phase := .initializing
            interactionId := none }) := by
  unfold beginInitialize at h
  split at h
  · cases h
  next hpre =>
  split at h
  · cases h
  next hphase =>
  refine ⟨by simpa using hpre, hphase, ?_⟩
  dsimp only at h
  split at h
  · next hready =>
    cases h
    exact .inl ⟨hready, rfl, rfl⟩
  · next hready =>
    cases h
    exact .inr ⟨hready, rfl, rfl⟩

private theorem rejection_initialize_eq_none_iff : b.rejection (some .initializeOp) = none ↔
    ∃ begun, b.beginInitialize = .ok begun := by
  unfold rejection beginInitialize
  rw [if_neg (by decide)]
  cases hpre : b.activePreinitialize with
  | some token => simp
  | none =>
    cases hphase : b.phase with
    | uninitialized => simp [urgentOperations]
    | initializing => simp [urgentOperations]
    | trustRequired => simp [urgentOperations]
    | stateResetRequired => simp [urgentOperations]
    | ready => simp

variable {generation : Nat}

private theorem requireInitializeTransition_some
    (hgeneration : transition.generation = some generation) :
    b.requireInitializeTransition transition = .ok () ↔
      b.phase = .initializing ∧ b.activeInitializeGeneration = some generation := by
  rw [requireInitializeTransition, hgeneration]
  dsimp only
  split
  · next hstale =>
    apply iff_of_false
    · intro h
      cases h
    · rintro ⟨hphase, hactive⟩
      exact hstale.elim (fun hne => hne hphase) (fun hne => hne hactive)
  · next h =>
    rw [not_or, not_not, not_not] at h
    exact iff_of_true rfl h

private theorem completeInitialize_current (hgeneration : transition.generation = some generation)
    (hcurrent : b.requireInitializeTransition transition = .ok ())
    (horigin : transition.origin.phase ≠ .ready) :
    (b.completeInitialize transition result).2 = b.ended (transition.landing result) := by
  have hrestore : b.restoreInitialize transition = b.ended transition.origin := by
    rw [restoreInitialize, hgeneration]
    rfl
  unfold completeInitialize InitializeTransition.landing
  rw [hcurrent]
  dsimp only
  cases houtcome : stateFromInitializeOutcome result with
  | error e => exact hrestore
  | ok state =>
    cases state with
    | none => exact hrestore
    | some state =>
      dsimp only
      rw [if_neg fun h => horigin h.1]
      rfl

private theorem abortInitialize_current (hgeneration : transition.generation = some generation)
    (hcurrent : b.requireInitializeTransition transition = .ok ()) :
    (b.abortInitialize transition).2 = b.ended transition.origin := by
  unfold abortInitialize
  rw [hcurrent]
  dsimp only
  rw [restoreInitialize, hgeneration]
  rfl

private theorem completeInitialize_stale (h : b.requireInitializeTransition transition ≠ .ok ()) :
    (b.completeInitialize transition result).2 = b := by
  unfold completeInitialize
  cases hrequire : b.requireInitializeTransition transition with
  | error e => rfl
  | ok u => exact absurd hrequire h

private theorem abortInitialize_stale (h : b.requireInitializeTransition transition ≠ .ok ()) :
    (b.abortInitialize transition).2 = b := by
  unfold abortInitialize
  cases hrequire : b.requireInitializeTransition transition with
  | error e => rfl
  | ok u => exact absurd hrequire h

/-- A ready application without an interaction and without an attempt. -/
def Settled (b : ApplicationBootstrap) : Prop :=
  b.phase = .ready ∧ b.interactionId = none ∧ b.activeInitializeGeneration = none

private theorem restoreInitialize_settled (h : b.Settled)
    (hgeneration : transition.generation = none) :
    b.restoreInitialize transition = b := by
  obtain ⟨hphase, hinteraction, -⟩ := h
  rw [restoreInitialize, hgeneration]
  dsimp only
  rw [← hphase, ← hinteraction]

private theorem completeInitialize_settled (h : b.Settled)
    (hgeneration : transition.generation = none)
    (horigin : transition.origin.phase = .ready) :
    (b.completeInitialize transition result).2 = b := by
  have hrestore := restoreInitialize_settled h hgeneration
  unfold completeInitialize
  cases b.requireInitializeTransition transition with
  | error e => rfl
  | ok u =>
    dsimp only
    cases houtcome : stateFromInitializeOutcome result with
    | error e => exact hrestore
    | ok state =>
      cases state with
      | none => exact hrestore
      | some state =>
        dsimp only
        split
        · exact hrestore
        · next hregress =>
          have hready : state.phase = .ready := by
            by_contra hne
            exact hregress ⟨horigin, hne⟩
          obtain ⟨-, rfl⟩ | hother | hother := stateFromInitializeOutcome_ok houtcome
          · obtain ⟨hphase, hinteraction, hactive⟩ := h
            dsimp only
            rw [← hphase, ← hinteraction, ← hactive]
          · rw [hready] at hother
            cases hother
          · rw [hready] at hother
            cases hother

private theorem abortInitialize_settled (h : b.Settled) (hgeneration : transition.generation = none)
    :
    (b.abortInitialize transition).2 = b := by
  unfold abortInitialize
  cases b.requireInitializeTransition transition with
  | error e => rfl
  | ok u => exact restoreInitialize_settled h hgeneration

private theorem preinitializeBegin_ok {operation : ApplicationOperation}
    {token : PreInitializeTransition}
    (h : b.preinitializeBegin operation = .ok (token, b')) :
    b.phase = .uninitialized ∧ b.activePreinitialize = none ∧
      b' = { b with
        nextPreinitializeGeneration := b.nextPreinitializeGeneration + 1
        activePreinitialize := some token } := by
  unfold preinitializeBegin at h
  split at h
  · cases h
  next hskill =>
  rw [not_not] at hskill
  split at h
  · cases h
  next hnone =>
  cases h
  unfold rejection at hnone
  have hcontains : (some operation).any (skillManagementOperations.contains ·) = true := by
    rw [Option.any_some, List.contains_iff_mem]
    exact hskill
  rw [if_pos hcontains] at hnone
  split at hnone
  · cases hnone
  next hphase =>
  split at hnone
  · cases hnone
  next hpre =>
  exact ⟨not_not.mp hphase, by simpa using hpre, rfl⟩

private theorem preinitializeComplete_cases (b : ApplicationBootstrap)
    (token : PreInitializeTransition) :
    b.activePreinitialize = some token ∧
      (b.preinitializeComplete token).2 = { b with activePreinitialize := none } ∨
    b.activePreinitialize ≠ some token ∧ (b.preinitializeComplete token).2 = b := by
  unfold preinitializeComplete
  split
  · next h => exact .inr ⟨h, rfl⟩
  · next h => exact .inl ⟨not_not.mp h, rfl⟩

private theorem completeInteraction_cases (b : ApplicationBootstrap)
    (answer : InteractionTransition)
    (result : ApplicationResult InteractionResult) :
    (b.completeInteraction answer result).2 = b ∨
      b.phase = .trustRequired ∧ b.interactionId = some answer.interactionId ∧
        answer.decision = .trust ∧ SaysResolved result ∧
        (b.completeInteraction answer result).2 =
          { b with phase := .ready, interactionId := none } := by
  unfold completeInteraction
  split
  · exact .inl rfl
  next hcurrent =>
  rw [not_or, not_not, not_not] at hcurrent
  obtain ⟨hphase, hinteraction⟩ := hcurrent
  cases result with
  | other => exact .inl rfl
  | result ok value hasError =>
    dsimp only
    split
    · exact .inl rfl
    next hok =>
    split
    · exact .inl rfl
    next herror =>
    split
    · exact .inl rfl
    next hresolved =>
    split
    · next htrust =>
      refine .inr ⟨hphase.trans htrust.1, hinteraction, htrust.2, ?_, rfl⟩
      rw [not_not] at hok
      cases value with
      | none => exact absurd rfl hresolved
      | other => exact absurd rfl hresolved
      | typed v =>
        rw [Bool.not_eq_false, isResolved, Bool.and_eq_true, Bool.and_eq_true, decide_eq_true_eq,
          Bool.not_eq_true'] at hresolved
        rw [Bool.not_eq_true] at herror
        exact ⟨v, by rw [hok, herror], hresolved.1.1, hresolved.1.2, hresolved.2⟩
    · exact .inl rfl

end ApplicationBootstrap

/-! ## Runs -/

/-- The tokens of callers fit the bootstrap. -/
structure BootstrapSystem.Sound (s : BootstrapSystem) : Prop where
  running : s.bootstrap.phase = .initializing ↔ s.bootstrap.activeInitializeGeneration.isSome
  quiet : s.bootstrap.phase = .ready → s.bootstrap.interactionId = none
  preinitial : s.bootstrap.activePreinitialize.isSome → s.bootstrap.phase = .uninitialized
  numbered : ∀ t ∈ s.issued, ∀ g ∈ t.generation, g ≤ s.bootstrap.nextInitializeGeneration ∧
    t.origin.phase ≠ .initializing ∧ t.origin.phase ≠ .ready
  repeated : ∀ t ∈ s.issued, t.generation = none →
    t.origin.phase = .ready ∧ s.bootstrap.phase = .ready
  unique : ∀ t ∈ s.issued, ∀ u ∈ s.issued, t.generation.isSome → t.generation = u.generation → t = u
  opened : ∀ t ∈ s.initializing, t ∈ s.issued ∧
    (t.generation.isSome → t.generation = s.bootstrap.activeInitializeGeneration)
  active : ∀ g ∈ s.bootstrap.activeInitializeGeneration,
    ∃ t ∈ s.initializing, t.generation = some g
  once : ∀ t, t.generation.isSome → s.initializing.count t ≤ 1

namespace BootstrapSystem

variable {s t : BootstrapSystem} {transition : InitializeTransition}

private theorem sound_initial : ({} : BootstrapSystem).Sound where
  running := by decide
  quiet := fun h => by cases h
  preinitial := fun h => by cases h
  numbered := fun t ht => absurd ht List.not_mem_nil
  repeated := fun t ht => absurd ht List.not_mem_nil
  unique := fun t ht => absurd ht List.not_mem_nil
  opened := fun t ht => absurd ht List.not_mem_nil
  active := fun g hg => by cases hg
  once := fun t _ => Nat.zero_le 1

private theorem Sound.settled (h : s.Sound) (hready : s.bootstrap.phase = .ready) :
    s.bootstrap.Settled := by
  refine ⟨hready, h.quiet hready, ?_⟩
  cases hactive : s.bootstrap.activeInitializeGeneration with
  | none => rfl
  | some g =>
    have hrunning := h.running.mpr (by rw [hactive]; rfl)
    rw [hready] at hrunning
    cases hrunning

variable {generation : Nat} {state : StableBootstrapState} {b : ApplicationBootstrap}
  {action : BootstrapAction}

private theorem Sound.ended (h : s.Sound) (hissued : transition ∈ s.issued)
    (hgeneration : transition.generation = some generation)
    (hactive : s.bootstrap.activeInitializeGeneration = some generation)
    (hstable : state.phase ≠ .initializing)
    (hquiet : state.phase = .ready → state.interactionId = none) :
    ({ s with
      bootstrap := s.bootstrap.ended state
      initializing := s.initializing.erase transition } : BootstrapSystem).Sound where
  running := iff_of_false hstable (by
    intro hsome
    cases hsome)
  quiet := hquiet
  preinitial hpre := by
    have hphase := h.preinitial hpre
    have hrunning := h.running.mpr (by rw [hactive]; rfl)
    rw [hphase] at hrunning
    cases hrunning
  numbered := h.numbered
  repeated t ht hnone := by
    have hready := (h.repeated t ht hnone).2
    have hrunning := h.running.mpr (by rw [hactive]; rfl)
    rw [hready] at hrunning
    cases hrunning
  unique := h.unique
  opened t ht := by
    obtain ⟨hmem, hcurrent⟩ := h.opened t (List.mem_of_mem_erase ht)
    refine ⟨hmem, fun hsome => ?_⟩
    -- The only open token with a number is the one that ends.
    have heq : transition = t := by
      apply h.unique transition hissued t hmem
      · rw [hgeneration]
        rfl
      · rw [hgeneration, hcurrent hsome, hactive]
    subst heq
    have honce := h.once transition hsome
    have hpositive := List.count_pos_iff.mpr ht
    rw [List.count_erase_self] at hpositive
    omega
  active g hg := by cases hg
  once t hsome := (List.erase_sublist.count_le t).trans (h.once t hsome)

private theorem Sound.unchanged (h : s.Sound) (hissued : transition ∈ s.issued)
    (hstale : transition.generation = none ∨ transition ∉ s.initializing) :
    (∀ result, (s.bootstrap.completeInitialize transition result).2 = s.bootstrap) ∧
      (s.bootstrap.abortInitialize transition).2 = s.bootstrap := by
  cases hgeneration : transition.generation with
  | none =>
    obtain ⟨horigin, hready⟩ := h.repeated transition hissued hgeneration
    have hsettled := h.settled hready
    exact ⟨fun _ => ApplicationBootstrap.completeInitialize_settled hsettled hgeneration horigin,
      ApplicationBootstrap.abortInitialize_settled hsettled hgeneration⟩
  | some generation =>
    have hclosed : transition ∉ s.initializing := by
      refine hstale.resolve_left fun hnone => ?_
      rw [hgeneration] at hnone
      cases hnone
    have hrequire : s.bootstrap.requireInitializeTransition transition ≠ .ok () := by
      intro hcurrent
      rw [ApplicationBootstrap.requireInitializeTransition_some hgeneration] at hcurrent
      obtain ⟨u, hu, hsame⟩ := h.active generation hcurrent.2
      have heq : transition = u := by
        apply h.unique transition hissued u (h.opened u hu).1
        · rw [hgeneration]
          rfl
        · rw [hgeneration, hsame]
      exact hclosed (heq ▸ hu)
    exact ⟨fun _ => ApplicationBootstrap.completeInitialize_stale hrequire,
      ApplicationBootstrap.abortInitialize_stale hrequire⟩

private theorem Sound.current (h : s.Sound) (hgeneration : transition.generation = some generation)
    (hopen : transition ∈ s.initializing) :
    s.bootstrap.activeInitializeGeneration = some generation ∧
      s.bootstrap.requireInitializeTransition transition = .ok () := by
  have hactive := (h.opened transition hopen).2 (by rw [hgeneration]; rfl)
  rw [hgeneration] at hactive
  have hphase := h.running.mpr (by rw [← hactive]; rfl)
  refine ⟨hactive.symm, ?_⟩
  rw [ApplicationBootstrap.requireInitializeTransition_some hgeneration]
  exact ⟨hphase, hactive.symm⟩

private theorem Sound.close (h : s.Sound)
    (hstale : transition.generation = none ∨ transition ∉ s.initializing) :
    ({ s with initializing := s.initializing.erase transition } : BootstrapSystem).Sound where
  running := h.running
  quiet := h.quiet
  preinitial := h.preinitial
  numbered := h.numbered
  repeated := h.repeated
  unique := h.unique
  opened t ht := h.opened t (List.mem_of_mem_erase ht)
  active g hg := by
    obtain ⟨t, ht, hgeneration⟩ := h.active g hg
    refine ⟨t, ?_, hgeneration⟩
    dsimp only
    rw [List.mem_erase_of_ne]
    · exact ht
    · rintro rfl
      obtain hnone | hclosed := hstale
      · rw [hgeneration] at hnone
        cases hnone
      · exact hclosed ht
  once t hsome := (List.erase_sublist.count_le t).trans (h.once t hsome)

private theorem Sound.endAttempt (h : s.Sound) (hissued : transition ∈ s.issued)
    (hunchanged : transition.generation = none ∨ transition ∉ s.initializing → b = s.bootstrap)
    (hcurrent : ∀ generation, transition.generation = some generation →
      transition ∈ s.initializing → b = s.bootstrap.ended state)
    (hstate : state = ⟨.ready, none⟩ ∨ state.phase = .trustRequired ∨
      state.phase = .stateResetRequired ∨ state = transition.origin) :
    ({ s with
      bootstrap := b
      initializing := s.initializing.erase transition } : BootstrapSystem).Sound := by
  cases hgeneration : transition.generation with
  | none =>
    rw [hunchanged (.inl hgeneration)]
    exact h.close (.inl hgeneration)
  | some generation =>
    by_cases hopen : transition ∈ s.initializing
    · rw [hcurrent generation hgeneration hopen]
      obtain ⟨-, hinitializing, hready⟩ := h.numbered transition hissued generation hgeneration
      refine h.ended hissued hgeneration (h.current hgeneration hopen).1 ?_ ?_
      · obtain rfl | hphase | hphase | rfl := hstate
        · decide
        · rw [hphase]
          decide
        · rw [hphase]
          decide
        · exact hinitializing
      · intro hphase
        obtain rfl | hother | hother | rfl := hstate
        · rfl
        · rw [hphase] at hother
          cases hother
        · rw [hphase] at hother
          cases hother
        · exact absurd hphase hready
    · rw [hunchanged (.inr hopen)]
      exact h.close (.inr hopen)

/-- A new attempt. -/
theorem Sound.beginAttempt (h : s.Sound)
    (hbegin : s.bootstrap.beginInitialize = .ok (transition, b)) :
    ({ s with
      bootstrap := b
      issued := transition :: s.issued
      initializing := transition :: s.initializing } : BootstrapSystem).Sound := by
  obtain ⟨hpre, hphase, ⟨hready, rfl, rfl⟩ | ⟨hready, rfl, rfl⟩⟩ :=
    ApplicationBootstrap.beginInitialize_ok hbegin
  · refine ⟨h.running, h.quiet, h.preinitial, ?_, ?_, ?_, ?_, ?_, ?_⟩
    · refine List.forall_mem_cons.mpr ⟨fun g hg => (by cases hg), h.numbered⟩
    · exact List.forall_mem_cons.mpr ⟨fun _ => ⟨hready, hready⟩, h.repeated⟩
    · intro t ht u hu hsome hsame
      obtain rfl | ht := List.mem_cons.mp ht
      · cases hsome
      obtain rfl | hu := List.mem_cons.mp hu
      · rw [hsame] at hsome
        cases hsome
      · exact h.unique t ht u hu hsome hsame
    · refine List.forall_mem_cons.mpr ⟨⟨List.mem_cons_self, fun hsome => (by cases hsome)⟩, ?_⟩
      intro t ht
      exact ⟨List.mem_cons_of_mem _ (h.opened t ht).1, (h.opened t ht).2⟩
    · intro g hg
      obtain ⟨t, ht, hgeneration⟩ := h.active g hg
      exact ⟨t, List.mem_cons_of_mem _ ht, hgeneration⟩
    · intro t hsome
      have hne : (⟨none, ⟨s.bootstrap.phase, s.bootstrap.interactionId⟩⟩ :
          InitializeTransition) ≠ t := by
        rintro rfl
        cases hsome
      dsimp only
      rw [List.count_cons_of_ne hne]
      exact h.once t hsome
  · have hidle : s.bootstrap.activeInitializeGeneration = none := by
      cases hactive : s.bootstrap.activeInitializeGeneration with
      | none => rfl
      | some g => exact absurd (h.running.mpr (by rw [hactive]; rfl)) hphase
    have hclosed : ∀ t ∈ s.initializing, t.generation = none := by
      intro t ht
      cases hgeneration : t.generation with
      | none => rfl
      | some g =>
        have hcurrent := (h.opened t ht).2 (by rw [hgeneration]; rfl)
        rw [hgeneration, hidle] at hcurrent
        cases hcurrent
    have hempty : s.initializing = [] := by
      refine List.eq_nil_iff_forall_not_mem.mpr fun t ht => ?_
      exact hready (h.repeated t (h.opened t ht).1 (hclosed t ht)).2
    rw [hempty]
    refine ⟨iff_of_true rfl rfl, fun h => (by cases h), ?_, ?_, ?_, ?_, ?_, ?_, ?_⟩
    · intro hsome
      rw [hpre] at hsome
      cases hsome
    · refine List.forall_mem_cons.mpr ⟨?_, ?_⟩
      · rintro g ⟨⟩
        exact ⟨le_rfl, hphase, hready⟩
      · intro t ht g hg
        exact ⟨(h.numbered t ht g hg).1.trans (Nat.le_succ _), (h.numbered t ht g hg).2⟩
    · refine List.forall_mem_cons.mpr ⟨fun hnone => (by cases hnone), ?_⟩
      intro t ht hnone
      exact absurd (h.repeated t ht hnone).2 hready
    · have hnew : ∀ t ∈ s.issued,
          t.generation ≠ some (s.bootstrap.nextInitializeGeneration + 1) := by
        intro t ht hsame
        have hle := (h.numbered t ht _ hsame).1
        omega
      intro t ht u hu hsome hsame
      obtain rfl | ht := List.mem_cons.mp ht
      · obtain rfl | hu := List.mem_cons.mp hu
        · rfl
        · exact absurd hsame.symm (hnew u hu)
      obtain rfl | hu := List.mem_cons.mp hu
      · exact absurd hsame (hnew t ht)
      · exact h.unique t ht u hu hsome hsame
    · intro t ht
      rw [List.mem_singleton.mp ht]
      exact ⟨List.mem_cons_self, fun _ => rfl⟩
    · rintro g ⟨⟩
      exact ⟨_, List.mem_cons_self, rfl⟩
    · intro t _
      dsimp only
      exact List.count_le_length

/-- Every step of a caller leaves a sound system. -/
theorem Sound.step (h : s.Sound) {action : BootstrapAction} (hstep : s.step action = some t) :
    t.Sound := by
  cases action with
  | beginInitialize =>
    dsimp only [BootstrapSystem.step] at hstep
    cases hbegin : s.bootstrap.beginInitialize with
    | error e =>
      rw [hbegin] at hstep
      cases hstep
      exact h
    | ok begun =>
      rw [hbegin] at hstep
      cases hstep
      exact h.beginAttempt hbegin
  | completeInitialize transition result =>
    dsimp only [BootstrapSystem.step] at hstep
    split at hstep
    · next hissued =>
      cases hstep
      refine h.endAttempt hissued (fun hstale => (h.unchanged hissued hstale).1 result) ?_
        ((transition.landing_cases result).imp_left And.right)
      intro generation hgeneration hopen
      exact ApplicationBootstrap.completeInitialize_current hgeneration
        (h.current hgeneration hopen).2 (h.numbered transition hissued _ hgeneration).2.2
    · cases hstep
  | abortInitialize transition =>
    dsimp only [BootstrapSystem.step] at hstep
    split at hstep
    · next hissued =>
      cases hstep
      refine h.endAttempt hissued (fun hstale => (h.unchanged hissued hstale).2) ?_
        (.inr (.inr (.inr rfl)))
      intro generation hgeneration hopen
      exact ApplicationBootstrap.abortInitialize_current hgeneration
        (h.current hgeneration hopen).2
    · cases hstep
  | preinitializeBegin operation =>
    dsimp only [BootstrapSystem.step] at hstep
    cases hbegin : s.bootstrap.preinitializeBegin operation with
    | error e =>
      rw [hbegin] at hstep
      cases hstep
      exact h
    | ok begun =>
      rw [hbegin] at hstep
      cases hstep
      obtain ⟨hphase, -, hb⟩ := ApplicationBootstrap.preinitializeBegin_ok hbegin
      rw [hb]
      exact ⟨h.running, h.quiet, fun _ => hphase, h.numbered, h.repeated, h.unique, h.opened,
        h.active, h.once⟩
  | preinitializeComplete token =>
    dsimp only [BootstrapSystem.step] at hstep
    split at hstep
    · cases hstep
      obtain ⟨-, hb⟩ | ⟨-, hb⟩ := ApplicationBootstrap.preinitializeComplete_cases s.bootstrap token
      · rw [hb]
        exact ⟨h.running, h.quiet, fun hsome => (by cases hsome), h.numbered, h.repeated,
          h.unique, h.opened, h.active, h.once⟩
      · rw [hb]
        exact h
    · cases hstep
  | beginInteraction interactionId decision =>
    cases hstep
    exact ⟨h.running, h.quiet, h.preinitial, h.numbered, h.repeated, h.unique, h.opened,
      h.active, h.once⟩
  | completeInteraction answer result =>
    dsimp only [BootstrapSystem.step] at hstep
    split at hstep
    · cases hstep
      obtain hb | ⟨hphase, -, -, -, hb⟩ :=
        ApplicationBootstrap.completeInteraction_cases s.bootstrap answer result
      · rw [hb]
        exact h
      · rw [hb]
        have hidle : ¬s.bootstrap.activeInitializeGeneration.isSome := by
          intro hsome
          have hrunning := h.running.mpr hsome
          rw [hphase] at hrunning
          cases hrunning
        refine ⟨iff_of_false (fun hbad => (by cases hbad)) hidle, fun _ => rfl, ?_, h.numbered,
          ?_, h.unique,
          h.opened, h.active, h.once⟩
        · intro hpre
          have hother := h.preinitial hpre
          rw [hphase] at hother
          cases hother
        · intro u hu hnone
          exact ⟨(h.repeated u hu hnone).1, rfl⟩
    · cases hstep

private theorem Sound.run (h : s.Sound) (hrun : Run BootstrapSystem.step (fun _ _ => True) s t) :
    t.Sound :=
  hrun.invariant h fun _ _ _ hs _ hstep => hs.step hstep

/-- Nothing that callers asked for is still running. -/
def Idle (s : BootstrapSystem) : Prop :=
  s.initializing = [] ∧ s.bootstrap.activePreinitialize = none

/-- A step that may make the application ready: the result of an open attempt, or the accepted
trust of the user in the interaction that is pending. -/
def Opens (s : BootstrapSystem) : BootstrapAction → Prop
  | .completeInitialize transition result => transition ∈ s.initializing ∧ SaysReady result
  | .completeInteraction answer result => s.bootstrap.phase = .trustRequired ∧
      s.bootstrap.interactionId = some answer.interactionId ∧ answer.decision = .trust ∧
      SaysResolved result
  | _ => False

/-- A step with a token that is no longer current: an attempt or an operation that has ended, or
an answer to an interaction that is not pending. -/
def Stale (s : BootstrapSystem) : BootstrapAction → Prop
  | .completeInitialize transition _ | .abortInitialize transition =>
      transition ∉ s.initializing
  | .preinitializeComplete token => s.bootstrap.activePreinitialize ≠ some token
  | .completeInteraction answer _ => s.bootstrap.phase ≠ answer.phase ∨
      s.bootstrap.interactionId ≠ some answer.interactionId
  | _ => False

/-- What a caller may rely on in every state. -/
structure Dependable (s : BootstrapSystem) : Prop where
  stays : s.bootstrap.phase = .ready → ∀ t, Run step (fun _ _ => True) s t →
    t.bootstrap.phase = .ready
  opens : s.bootstrap.phase ≠ .ready → ∀ action t, s.step action = some t →
    t.bootstrap.phase = .ready → s.Opens action
  exclusive : s.initializing = [] ∨ s.bootstrap.activePreinitialize = none
  stale : ∀ action t, s.Stale action → s.step action = some t → t.bootstrap = s.bootstrap
  stable : s.Idle → s.bootstrap.phase ≠ .initializing ∧
    s.bootstrap.rejection (some .initializeOp) = none ∧
    ∃ begun, s.bootstrap.beginInitialize = .ok begun

private theorem Sound.unready (h : s.Sound) (hgeneration : transition.generation = some generation)
    (hopen : transition ∈ s.initializing) : s.bootstrap.phase ≠ .ready := by
  intro hready
  have hactive := (h.current hgeneration hopen).1
  rw [(h.settled hready).2.2] at hactive
  cases hactive

/-- A step changes nothing, or the application is not ready yet and only an opening makes it so. -/
def Advances (s t : BootstrapSystem) (action : BootstrapAction) : Prop :=
  t.bootstrap = s.bootstrap ∨
    s.bootstrap.phase ≠ .ready ∧ (t.bootstrap.phase = .ready → s.Opens action)

private theorem advances_unready (hbefore : s.bootstrap.phase ≠ .ready)
    (hafter : t.bootstrap.phase ≠ .ready) : s.Advances t action :=
  .inr ⟨hbefore, fun hready => absurd hready hafter⟩

private theorem beginInitialize_advances (hstep : s.step .beginInitialize = some t) :
    s.Advances t .beginInitialize := by
  dsimp only [BootstrapSystem.step] at hstep
  cases hbegin : s.bootstrap.beginInitialize with
  | error e =>
    rw [hbegin] at hstep
    cases hstep
    exact .inl rfl
  | ok begun =>
    rw [hbegin] at hstep
    cases hstep
    obtain ⟨-, -, ⟨-, -, hb⟩ | ⟨hclosed, -, hb⟩⟩ := ApplicationBootstrap.beginInitialize_ok hbegin
    · exact .inl hb
    · refine advances_unready hclosed ?_
      dsimp only
      rw [hb]
      exact nofun

private theorem Sound.completeInitialize_advances (h : s.Sound)
    {result : ApplicationResult InitializeResult}
    (hstep : s.step (.completeInitialize transition result) = some t) :
    s.Advances t (.completeInitialize transition result) := by
  dsimp only [BootstrapSystem.step] at hstep
  split at hstep
  · next hissued =>
    cases hstep
    by_cases hstale : transition.generation = none ∨ transition ∉ s.initializing
    · exact .inl ((h.unchanged hissued hstale).1 result)
    rw [not_or, not_not] at hstale
    obtain ⟨hsome, hopen⟩ := hstale
    obtain ⟨generation, hgeneration⟩ := Option.ne_none_iff_exists'.mp hsome
    obtain ⟨-, -, horigin⟩ := h.numbered transition hissued _ hgeneration
    refine .inr ⟨h.unready hgeneration hopen, fun hready => ?_⟩
    dsimp only at hready
    rw [ApplicationBootstrap.completeInitialize_current hgeneration
      (h.current hgeneration hopen).2 horigin] at hready
    change (transition.landing result).phase = .ready at hready
    obtain ⟨hready, -⟩ | hother | hother | hother := transition.landing_cases result
    · exact ⟨hopen, hready⟩
    · rw [hready] at hother
      cases hother
    · rw [hready] at hother
      cases hother
    · rw [hother] at hready
      exact absurd hready horigin
  · cases hstep

private theorem Sound.abortInitialize_advances (h : s.Sound)
    (hstep : s.step (.abortInitialize transition) = some t) :
    s.Advances t (.abortInitialize transition) := by
  dsimp only [BootstrapSystem.step] at hstep
  split at hstep
  · next hissued =>
    cases hstep
    by_cases hstale : transition.generation = none ∨ transition ∉ s.initializing
    · exact .inl (h.unchanged hissued hstale).2
    rw [not_or, not_not] at hstale
    obtain ⟨hsome, hopen⟩ := hstale
    obtain ⟨generation, hgeneration⟩ := Option.ne_none_iff_exists'.mp hsome
    refine advances_unready (h.unready hgeneration hopen) ?_
    dsimp only
    rw [ApplicationBootstrap.abortInitialize_current hgeneration (h.current hgeneration hopen).2]
    exact (h.numbered transition hissued _ hgeneration).2.2
  · cases hstep

private theorem preinitializeBegin_advances {operation : ApplicationOperation}
    (hstep : s.step (.preinitializeBegin operation) = some t) :
    s.Advances t (.preinitializeBegin operation) := by
  dsimp only [BootstrapSystem.step] at hstep
  cases hbegin : s.bootstrap.preinitializeBegin operation with
  | error e =>
    rw [hbegin] at hstep
    cases hstep
    exact .inl rfl
  | ok begun =>
    rw [hbegin] at hstep
    cases hstep
    obtain ⟨hphase, -, hb⟩ := ApplicationBootstrap.preinitializeBegin_ok hbegin
    refine advances_unready (by rw [hphase]; decide) ?_
    dsimp only
    rw [hb, hphase]
    exact nofun

private theorem Sound.preinitializeComplete_advances (h : s.Sound)
    {transition : PreInitializeTransition}
    (hstep : s.step (.preinitializeComplete transition) = some t) :
    s.Advances t (.preinitializeComplete transition) := by
  dsimp only [BootstrapSystem.step] at hstep
  split at hstep
  · cases hstep
    obtain ⟨hactive, hb⟩ | ⟨-, hb⟩ :=
      ApplicationBootstrap.preinitializeComplete_cases s.bootstrap transition
    · have hphase := h.preinitial (by rw [hactive]; rfl)
      refine advances_unready (by rw [hphase]; decide) ?_
      dsimp only
      rw [hb, hphase]
      exact nofun
    · exact .inl hb
  · cases hstep

private theorem completeInteraction_advances {transition : InteractionTransition}
    {result : ApplicationResult InteractionResult}
    (hstep : s.step (.completeInteraction transition result) = some t) :
    s.Advances t (.completeInteraction transition result) := by
  dsimp only [BootstrapSystem.step] at hstep
  split at hstep
  · cases hstep
    obtain hb | ⟨hphase, hinteraction, htrust, hresolved, -⟩ :=
      ApplicationBootstrap.completeInteraction_cases s.bootstrap transition result
    · exact .inl hb
    · exact .inr ⟨by rw [hphase]; decide, fun _ => ⟨hphase, hinteraction, htrust, hresolved⟩⟩
  · cases hstep

private theorem Sound.step_cases (h : s.Sound) (hstep : s.step action = some t) :
    s.Advances t action := by
  cases action with
  | beginInitialize => exact beginInitialize_advances hstep
  | completeInitialize transition result => exact h.completeInitialize_advances hstep
  | abortInitialize transition => exact h.abortInitialize_advances hstep
  | preinitializeBegin operation => exact preinitializeBegin_advances hstep
  | preinitializeComplete token => exact h.preinitializeComplete_advances hstep
  | beginInteraction interactionId decision =>
    cases hstep
    exact .inl rfl
  | completeInteraction answer result => exact completeInteraction_advances hstep

private theorem Sound.stays (h : s.Sound) (hready : s.bootstrap.phase = .ready)
    (hstep : s.step action = some t) : t.bootstrap.phase = .ready := by
  obtain hsame | ⟨hclosed, -⟩ := h.step_cases hstep
  · rw [hsame]
    exact hready
  · exact absurd hready hclosed

private theorem Sound.stale (h : s.Sound) (hstale : s.Stale action)
    (hstep : s.step action = some t) : t.bootstrap = s.bootstrap := by
  cases action with
  | beginInitialize => exact hstale.elim
  | preinitializeBegin operation => exact hstale.elim
  | beginInteraction interactionId decision => exact hstale.elim
  | completeInitialize transition result =>
    dsimp only [BootstrapSystem.step] at hstep
    split at hstep
    · next hissued =>
      cases hstep
      exact (h.unchanged hissued (.inr hstale)).1 result
    · cases hstep
  | abortInitialize transition =>
    dsimp only [BootstrapSystem.step] at hstep
    split at hstep
    · next hissued =>
      cases hstep
      exact (h.unchanged hissued (.inr hstale)).2
    · cases hstep
  | preinitializeComplete token =>
    dsimp only [BootstrapSystem.step] at hstep
    split at hstep
    · cases hstep
      obtain ⟨hcurrent, -⟩ | ⟨-, hb⟩ :=
        ApplicationBootstrap.preinitializeComplete_cases s.bootstrap token
      · exact absurd hcurrent hstale
      · exact hb
    · cases hstep
  | completeInteraction answer result =>
    dsimp only [BootstrapSystem.step] at hstep
    split at hstep
    · cases hstep
      dsimp only
      have hother : s.bootstrap.phase ≠ answer.phase ∨
          s.bootstrap.interactionId ≠ some answer.interactionId := hstale
      unfold ApplicationBootstrap.completeInteraction
      rw [if_pos hother]
    · cases hstep

private theorem Sound.dependable (h : s.Sound) : s.Dependable where
  stays hready t hrun :=
    (hrun.invariant (I := fun t => t.Sound ∧ t.bootstrap.phase = .ready) ⟨h, hready⟩
      fun _ _ _ hs _ hstep => ⟨hs.1.step hstep, hs.1.stays hs.2 hstep⟩).2
  opens hclosed _ _ hstep hready := by
    obtain hsame | ⟨-, hopens⟩ := h.step_cases hstep
    · rw [hsame] at hready
      exact absurd hready hclosed
    · exact hopens hready
  exclusive := by
    cases hpre : s.bootstrap.activePreinitialize with
    | none => exact .inr rfl
    | some token =>
      have hphase := h.preinitial (by rw [hpre]; rfl)
      refine .inl (List.eq_nil_iff_forall_not_mem.mpr fun transition hopen => ?_)
      cases hgeneration : transition.generation with
      | none =>
        have hready := (h.repeated transition (h.opened transition hopen).1 hgeneration).2
        rw [hphase] at hready
        cases hready
      | some generation =>
        have hrunning := h.running.mpr (by rw [(h.current hgeneration hopen).1]; rfl)
        rw [hphase] at hrunning
        cases hrunning
  stale _ _ hstale hstep := h.stale hstale hstep
  stable hidle := by
    have hphase : s.bootstrap.phase ≠ .initializing := by
      intro hrunning
      obtain ⟨generation, hactive⟩ := Option.isSome_iff_exists.mp (h.running.mp hrunning)
      obtain ⟨t, ht, -⟩ := h.active generation hactive
      rw [hidle.1] at ht
      exact absurd ht List.not_mem_nil
    have hadmitted : ∃ begun, s.bootstrap.beginInitialize = .ok begun := by
      unfold ApplicationBootstrap.beginInitialize
      rw [hidle.2, if_neg (by decide), if_neg hphase]
      dsimp only
      split
      · exact ⟨_, rfl⟩
      · exact ⟨_, rfl⟩
    exact ⟨hphase, ApplicationBootstrap.rejection_initialize_eq_none_iff.2 hadmitted, hadmitted⟩

end BootstrapSystem

/-- Whatever callers begin, complete and abort in any order, the bootstrap is dependable. -/
theorem bootstrap_dependable {s : BootstrapSystem}
    (h : Run BootstrapSystem.step (fun _ _ => True) {} s) : s.Dependable :=
  (BootstrapSystem.sound_initial.run h).dependable

/-- A result that asks for the trust of the user. -/
def sampleTrustRequired : ApplicationResult InitializeResult :=
  .result (some true) (.typed ⟨some .trustRequired, .typed "interaction_1"⟩) false

/-- A result that says that an answer was accepted. -/
def sampleResolved : ApplicationResult InteractionResult :=
  .result (some true) (.typed ⟨true, "resolved", false⟩) false

/-- An attempt asks for trust, another one begins while the user answers, and is aborted. -/
def sampleBootstrapActions : List BootstrapAction :=
  [.beginInitialize,
    .completeInitialize ⟨some 1, ⟨.uninitialized, none⟩⟩ sampleTrustRequired,
    .beginInteraction "interaction_1" "trust",
    .beginInitialize,
    .completeInteraction ⟨.trustRequired, "interaction_1", .trust⟩ sampleResolved,
    .abortInitialize ⟨some 2, ⟨.trustRequired, some "interaction_1"⟩⟩,
    .completeInteraction ⟨.trustRequired, "interaction_1", .trust⟩ sampleResolved]

/-- The answer counts only after the second attempt was aborted. -/
theorem bootstrap_dependable_sample : ∃ s : BootstrapSystem,
    s.bootstrap.phase = .ready ∧ s.Dependable := by
  have hsample : (sampleBootstrapActions.foldlM BootstrapSystem.step {}).map
      (fun s => s.bootstrap.phase) = some .ready := by
    decide
  obtain ⟨s, hs, hphase⟩ := Option.map_eq_some_iff.mp hsample
  exact ⟨s, hphase, bootstrap_dependable (Run.of_actions hs fun _ _ _ => trivial)⟩

end AwesomeAgent
