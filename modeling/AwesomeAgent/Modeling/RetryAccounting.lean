import AwesomeAgent.Modeling.Gateway

/-!
# Retries and their consumers

Only an attempt that showed and completed nothing is followed by another. What a consumer
reads is therefore one retry notice for every earlier attempt and then the events of the
last one, so that the three consumers decide about the same events.
-/

namespace AwesomeAgent.Modeling

/-- An attempt that showed and completed nothing. -/
def Quiet (read : List ModelStreamEvent) : Prop :=
  ∀ event ∈ read, event.visible = false ∧ event.completed = none

/-- An event as the gateway yields it after a number of retries. -/
def ModelStreamEvent.relay (retries : Nat) : ModelStreamEvent → GatewayEvent
  | .turnCompleted turn => .model (.turnCompleted (withRetryUsage turn retries))
  | event => .model event

/-- Whether an event tells of a retry. -/
def GatewayEvent.isRetry : GatewayEvent → Bool
  | .retrying .. => true
  | .model _ => false

/-- The turn that an event of the gateway completes. -/
def GatewayEvent.completed : GatewayEvent → Option ModelTurn
  | .model event => event.completed
  | .retrying .. => none

/-- Whether an event of the gateway is a failure. -/
def GatewayEvent.isFailure : GatewayEvent → Bool
  | .model (.turnFailed _) => true
  | _ => false

namespace ModelGateway

/-- The events of an attempt that complete turns of the selected model and do not fail. -/
def Sound (selected : SelectedModel) (events : List ModelStreamEvent) : Prop :=
  (∀ error, .turnFailed error ∉ events) ∧
    ∀ turn, .turnCompleted turn ∈ events →
      turn.provider = selected.provider ∧ turn.model = selected.model

/-- How the reading of an attempt can end. -/
inductive Reading (selected : SelectedModel) (retries : Nat) (mayRetry : Bool)
    (attempt : Attempt) (run : AttemptRun) : Prop
  | retried (error : ModelErrorInfo) : run.outcome = .retry error → mayRetry = true →
      run.yielded = [] → Quiet run.read → Reading selected retries mayRetry attempt run
  | cancelled : run.outcome = .cancelled → Reading selected retries mayRetry attempt run
  | failed : run.outcome = .finished → (∃ event ∈ run.yielded, event.isFailure = true) →
      Reading selected retries mayRetry attempt run
  | whole : run.outcome = .finished → attempt = ⟨run.read, .exhausted⟩ →
      run.yielded = run.read.map (ModelStreamEvent.relay retries) → Sound selected run.read →
      Reading selected retries mayRetry attempt run

private theorem Reading.cons {selected : SelectedModel} {retries : Nat} {mayRetry : Bool}
    {events : List ModelStreamEvent} {ending : AttemptEnd} {run : AttemptRun}
    {event : ModelStreamEvent} (h : Reading selected retries mayRetry ⟨events, ending⟩ run)
    (hretry : ∀ error, run.outcome ≠ .retry error) (hfailed : ∀ error, event ≠ .turnFailed error)
    (hmodel : ∀ turn, event = .turnCompleted turn →
      turn.provider = selected.provider ∧ turn.model = selected.model) :
    Reading selected retries mayRetry ⟨event :: events, ending⟩
      ⟨event :: run.read, event.relay retries :: run.yielded, run.outcome⟩ := by
  cases h with
  | retried error houtcome => exact absurd houtcome (hretry error)
  | cancelled houtcome => exact .cancelled houtcome
  | failed houtcome hevent =>
    obtain ⟨failure, hmem, hfailure⟩ := hevent
    exact .failed houtcome ⟨failure, List.mem_cons_of_mem _ hmem, hfailure⟩
  | whole houtcome hattempt hyielded hsound =>
    obtain ⟨rfl, rfl⟩ := Attempt.mk.inj hattempt
    refine .whole houtcome rfl ?_ ⟨fun error hmem => ?_, fun turn hmem => ?_⟩
    · rw [hyielded, List.map_cons]
    · rcases List.mem_cons.mp hmem with he | hrest
      · exact hfailed error he.symm
      · exact hsound.1 error hrest
    · rcases List.mem_cons.mp hmem with he | hrest
      · exact hmodel turn he.symm
      · exact hsound.2 turn hrest

variable {selected : SelectedModel} {error : ModelErrorInfo} {events : List ModelStreamEvent}
  {policy : RetryPolicy}

private theorem Reading.quiet {retries : Nat} {mayRetry : Bool} {attempt : Attempt}
    {run : AttemptRun}
    (h : Reading selected retries mayRetry attempt run) (houtcome : run.outcome = .retry error) :
    mayRetry = true ∧ run.yielded = [] ∧ Quiet run.read := by
  cases h with
  | retried _ _ hmay hyielded hread => exact ⟨hmay, hyielded, hread⟩
  | cancelled he => exact absurd (houtcome.symm.trans he) nofun
  | failed he => exact absurd (houtcome.symm.trans he) nofun
  | whole he => exact absurd (houtcome.symm.trans he) nofun

private theorem readAttempt_retry {retries : Nat}
    {mayRetry visible completedSeen : Bool} {ending : AttemptEnd}
    (h : (readAttempt selected retries mayRetry visible completedSeen ending events).outcome =
      .retry error) : visible = false ∧ completedSeen = false := by
  induction events generalizing visible completedSeen with
  | nil =>
    unfold readAttempt leaveAttempt at h
    split at h
    · cases h
    · cases h
    · split at h
      · next hmay => exact ⟨by simpa using hmay.2.1, by simpa using hmay.2.2.1⟩
      · cases h
    · cases h
  | cons event rest ih =>
    have hshown (hnext : (readAttempt selected retries mayRetry true completedSeen ending
        rest).outcome = .retry error) : visible = false ∧ completedSeen = false :=
      absurd (ih hnext).1 (by decide)
    cases event with
    | turnCompleted turn =>
      unfold readAttempt at h
      split at h
      · cases h
      · exact absurd (ih (show (readAttempt selected retries mayRetry visible true ending
          rest).outcome = .retry error from h)).2 (by decide)
    | turnFailed failure =>
      unfold readAttempt at h
      split at h
      · next hmay => exact ⟨by simpa using hmay.2.1, by simpa using hmay.2.2.1⟩
      · cases h
    | reasoningStarted => exact hshown h
    | reasoningDelta text => exact hshown h
    | textDelta text => exact hshown h
    | toolCallStarted index callId name => exact hshown h
    | toolArgumentsDelta index text => exact hshown h

/-- An attempt tells what its provider told and how it ended. -/
theorem readAttempt_reading (selected : SelectedModel) (retries : Nat) (mayRetry : Bool)
    (visible completedSeen : Bool) (ending : AttemptEnd) (events : List ModelStreamEvent) :
    Reading selected retries mayRetry ⟨events, ending⟩
      (readAttempt selected retries mayRetry visible completedSeen ending events) := by
  induction events generalizing visible completedSeen with
  | nil =>
    unfold readAttempt leaveAttempt
    split
    · exact .whole rfl rfl rfl ⟨fun _ h => absurd h List.not_mem_nil,
        fun _ h => absurd h List.not_mem_nil⟩
    · exact .cancelled rfl
    · next error =>
      split
      · next hmay => exact .retried error rfl hmay.2.2.2 rfl fun _ h => absurd h List.not_mem_nil
      · exact .failed rfl ⟨_, List.mem_singleton_self _, rfl⟩
    · exact .failed rfl ⟨_, List.mem_singleton_self _, rfl⟩
  | cons event rest ih =>
    have hshown (hfailed : ∀ error, event ≠ .turnFailed error)
        (hcompleted : ∀ turn, event ≠ .turnCompleted turn) :
        Reading selected retries mayRetry ⟨event :: rest, ending⟩
          ⟨event :: (readAttempt selected retries mayRetry true completedSeen ending rest).read,
            event.relay retries ::
              (readAttempt selected retries mayRetry true completedSeen ending rest).yielded,
            (readAttempt selected retries mayRetry true completedSeen ending rest).outcome⟩ := by
      refine (ih true completedSeen).cons (fun error he => ?_) hfailed
        fun turn he => absurd he (hcompleted turn)
      exact absurd (readAttempt_retry he).1 (by decide)
    cases event with
    | turnCompleted turn =>
      unfold readAttempt
      split
      · exact .failed rfl ⟨_, List.mem_singleton_self _, rfl⟩
      · next hsame =>
        rw [not_or, not_not, not_not] at hsame
        refine (ih visible true).cons (fun error he => ?_) (fun _ => nofun) fun t ht => ?_
        · exact absurd (readAttempt_retry he).2 (by decide)
        · obtain rfl := ModelStreamEvent.turnCompleted.inj ht
          exact hsame
    | turnFailed error =>
      unfold readAttempt
      split
      · next hmay =>
        refine .retried error rfl hmay.2.2.2 rfl fun event hevent => ?_
        obtain rfl := List.mem_singleton.mp hevent
        exact ⟨rfl, rfl⟩
      · exact .failed rfl ⟨_, List.mem_singleton_self _, rfl⟩
    | reasoningStarted => exact hshown (fun _ => nofun) fun _ => nofun
    | reasoningDelta text => exact hshown (fun _ => nofun) fun _ => nofun
    | textDelta text => exact hshown (fun _ => nofun) fun _ => nofun
    | toolCallStarted index callId name => exact hshown (fun _ => nofun) fun _ => nofun
    | toolArgumentsDelta index text => exact hshown (fun _ => nofun) fun _ => nofun

/-- How a stream of the gateway ends: it raises, or it reads a last attempt after quiet ones. -/
inductive Streaming (policy : RetryPolicy) (selected : SelectedModel) (provider : Provider)
    (left : Nat) (run : StreamRun) : Prop
  | raised : run.ending ≠ .exhausted → Streaming policy selected provider left run
  | read (notices : List GatewayEvent) (last : AttemptRun)
      (earlier : List (List ModelStreamEvent)) :
      run.ending = .exhausted → run.attempts = earlier ++ [last.read] →
      notices.length = earlier.length → (∀ event ∈ notices, event.isRetry = true) →
      run.events = notices ++ last.yielded → last.outcome = .finished →
      Reading selected (policy.maxRetries - left + earlier.length)
        (decide (earlier.length < left)) (provider (policy.maxRetries - left + earlier.length))
        last →
      Streaming policy selected provider left run

/-- Attempts go on until one is not to be retried. -/
theorem streamFrom_streaming (selected : SelectedModel)
    (provider : Provider) (sleeper : Nat → SleepEnd) {left : Nat}
    (hleft : left ≤ policy.maxRetries) :
    Streaming policy selected provider left (streamFrom policy selected provider sleeper left) := by
  induction left with
  | zero =>
    have hreading := readAttempt_reading selected policy.maxRetries false false false
      (provider policy.maxRetries).ending (provider policy.maxRetries).events
    unfold streamFrom
    dsimp only
    split
    · exact .raised nofun
    · next hcancelled =>
      refine .read [] _ [] rfl rfl rfl (fun _ h => absurd h List.not_mem_nil) rfl ?_ hreading
      cases houtcome : (readAttempt selected policy.maxRetries false false false
          (provider policy.maxRetries).ending (provider policy.maxRetries).events).outcome with
      | finished => rfl
      | cancelled => exact absurd houtcome hcancelled
      | retry error => exact absurd (hreading.quiet houtcome).1 (by decide)
  | succ left ih =>
    have hreading := readAttempt_reading selected (policy.maxRetries - (left + 1)) true false false
      (provider (policy.maxRetries - (left + 1))).ending
      (provider (policy.maxRetries - (left + 1))).events
    unfold streamFrom
    dsimp only
    split
    · next houtcome =>
      exact .read [] _ [] rfl rfl rfl (fun _ h => absurd h List.not_mem_nil) rfl houtcome hreading
    · exact .raised nofun
    · next error houtcome =>
      obtain ⟨-, hquiet, -⟩ := hreading.quiet houtcome
      split
      · cases ih (Nat.le_of_succ_le hleft) with
        | raised hending => exact .raised hending
        | read notices last earlier hending hattempts hlength hnotices hevents hlast hread =>
          have hindex : policy.maxRetries - left + earlier.length =
              policy.maxRetries - (left + 1) + (earlier.length + 1) := by omega
          have hmay : decide (earlier.length < left) = decide (earlier.length + 1 < left + 1) := by
            simp
          rw [hindex, hmay] at hread
          refine .read (.retrying (policy.maxRetries - (left + 1) + 2) (policy.maxRetries + 1)
            error.code :: notices) last (_ :: earlier) hending
            (congrArg (List.cons _) hattempts) (congrArg Nat.succ hlength) (fun event hevent => ?_)
            ?_ hlast hread
          · rcases List.mem_cons.mp hevent with rfl | hmem
            · rfl
            · exact hnotices event hmem
          · rw [hquiet, List.nil_append, hevents]
            rfl
      · exact .raised nofun
      · exact .raised nofun

private theorem streamFrom_attempts (policy : RetryPolicy) (selected : SelectedModel)
    (provider : Provider) (sleeper : Nat → SleepEnd) (left : Nat) :
    (streamFrom policy selected provider sleeper left).attempts.length ≤ left + 1 ∧
      ∀ attempt ∈ (streamFrom policy selected provider sleeper left).attempts.dropLast,
        Quiet attempt := by
  induction left with
  | zero => exact ⟨le_refl 1, fun _ h => absurd h List.not_mem_nil⟩
  | succ left ih =>
    have hone (attempt : List ModelStreamEvent) : [attempt].length ≤ left + 1 + 1 :=
      Nat.succ_le_succ (Nat.zero_le _)
    have hreading := readAttempt_reading selected (policy.maxRetries - (left + 1)) true false false
      (provider (policy.maxRetries - (left + 1))).ending
      (provider (policy.maxRetries - (left + 1))).events
    unfold streamFrom
    dsimp only
    split
    · exact ⟨hone _, fun _ h => absurd h List.not_mem_nil⟩
    · exact ⟨hone _, fun _ h => absurd h List.not_mem_nil⟩
    · next error houtcome =>
      obtain ⟨-, -, hquiet⟩ := hreading.quiet houtcome
      split
      · refine ⟨Nat.succ_le_succ ih.1, fun attempt hattempt => ?_⟩
        cases hnext : (streamFrom policy selected provider sleeper left).attempts with
        | nil =>
          rw [hnext] at hattempt
          exact absurd hattempt List.not_mem_nil
        | cons next rest =>
          rw [hnext, List.dropLast_cons_of_ne_nil (List.cons_ne_nil _ _)] at hattempt
          rcases List.mem_cons.mp hattempt with rfl | hmem
          · exact hquiet
          · exact ih.2 attempt (by rwa [hnext])
      · exact ⟨hone _, fun _ h => absurd h List.not_mem_nil⟩
      · exact ⟨hone _, fun _ h => absurd h List.not_mem_nil⟩

private theorem collectCompleted_eq_ok {events : List GatewayEvent} {turns : List ModelTurn} :
    collectCompleted events = .ok turns ↔
      (∀ event ∈ events, event.isFailure = false) ∧
        turns = events.filterMap GatewayEvent.completed := by
  induction events generalizing turns with
  | nil =>
    exact ⟨fun h => ⟨fun _ hmem => absurd hmem List.not_mem_nil, (Except.ok.inj h).symm⟩,
      fun h => congrArg Except.ok h.2.symm⟩
  | cons event rest ih =>
    have hother (hfailure : event.isFailure = false) (hcompleted : event.completed = none)
        (hread : collectCompleted (event :: rest) = collectCompleted rest) :
        collectCompleted (event :: rest) = .ok turns ↔
          (∀ e ∈ event :: rest, e.isFailure = false) ∧
            turns = (event :: rest).filterMap GatewayEvent.completed := by
      rw [hread, ih, List.forall_mem_cons, List.filterMap_cons_none hcompleted]
      simp [hfailure]
    cases event with
    | retrying attempt maximum code => exact hother rfl rfl rfl
    | model event =>
      cases event with
      | turnFailed error => simp [collectCompleted, GatewayEvent.isFailure]
      | turnCompleted turn =>
        have hfirst : (GatewayEvent.model (.turnCompleted turn) :: rest).filterMap
            GatewayEvent.completed = turn :: rest.filterMap GatewayEvent.completed := rfl
        rw [List.forall_mem_cons, hfirst]
        cases hrest : collectCompleted rest with
        | error fault =>
          have hno : ¬ ∀ e ∈ rest, e.isFailure = false := by
            intro hnone
            exact absurd (hrest.symm.trans (ih.mpr ⟨hnone, rfl⟩)) nofun
          simp [collectCompleted, hrest, Except.map, hno]
        | ok completed =>
          obtain ⟨hnone, rfl⟩ := ih.mp hrest
          simp only [collectCompleted, hrest, Except.map, Except.ok.injEq]
          exact ⟨fun he => ⟨⟨rfl, hnone⟩, he.symm⟩, fun h => h.2.symm⟩
      | reasoningStarted => exact hother rfl rfl rfl
      | reasoningDelta text => exact hother rfl rfl rfl
      | textDelta text => exact hother rfl rfl rfl
      | toolCallStarted index callId name => exact hother rfl rfl rfl
      | toolArgumentsDelta index text => exact hother rfl rfl rfl

private theorem completed_relay (retries : Nat) :
    (events.map (ModelStreamEvent.relay retries)).filterMap GatewayEvent.completed =
      (events.filterMap ModelStreamEvent.completed).map
        fun turn => withRetryUsage turn retries := by
  induction events with
  | nil => rfl
  | cons event rest ih =>
    cases event with
    | turnCompleted turn => exact congrArg (List.cons _) ih
    | _ => exact ih

private theorem isRetry_relay (retries : Nat) (event : ModelStreamEvent) :
    (event.relay retries).isRetry = false := by
  cases event <;> rfl

/-- The turn of a run: the only one of its last attempt, which did not fail. -/
def AcceptedFrom (selected : SelectedModel) (providers : ProviderId → Option Provider)
    (run : StreamRun) (turn : ModelTurn) : Prop :=
  ∃ provider earlier last original, providers selected.provider = some provider ∧
    run.attempts = earlier ++ [last] ∧ provider earlier.length = ⟨last, .exhausted⟩ ∧
    last.filterMap ModelStreamEvent.completed = [original] ∧
    original.provider = selected.provider ∧ original.model = selected.model ∧
    (∀ error, .turnFailed error ∉ last) ∧ turn = withRetryUsage original earlier.length

/-- What all consumers look for: the events end, without a failure and with one turn. -/
theorem accepted_of_events {providers : ProviderId → Option Provider}
    {sleeper : Nat → SleepEnd} {turn : ModelTurn}
    (hending : (stream policy providers sleeper selected).ending = .exhausted)
    (hfailure : ∀ event ∈ (stream policy providers sleeper selected).events,
      event.isFailure = false)
    (hturn : (stream policy providers sleeper selected).events.filterMap
      GatewayEvent.completed = [turn]) :
    AcceptedFrom selected providers (stream policy providers sleeper selected) turn ∧
      (stream policy providers sleeper selected).events.countP GatewayEvent.isRetry + 1 =
        (stream policy providers sleeper selected).attempts.length := by
  cases hprovider : providers selected.provider with
  | none => simp [stream, hprovider] at hending
  | some provider =>
    have hstream : stream policy providers sleeper selected =
        streamFrom policy selected provider sleeper policy.maxRetries := by
      simp only [stream, hprovider]
    rw [hstream] at hending hfailure hturn ⊢
    cases streamFrom_streaming selected provider sleeper (le_refl policy.maxRetries) with
    | raised hraised => exact absurd hending hraised
    | read notices last earlier _ hattempts hlength hnotices hevents hlast hreading =>
      rw [Nat.sub_self, Nat.zero_add] at hreading
      rw [hevents] at hfailure hturn ⊢
      cases hreading with
      | retried _ he => exact absurd (hlast.symm.trans he) nofun
      | cancelled he => exact absurd (hlast.symm.trans he) nofun
      | failed _ hevent =>
        obtain ⟨event, hmem, htrue⟩ := hevent
        exact absurd ((hfailure event (List.mem_append_right _ hmem)).symm.trans htrue) nofun
      | whole _ hattempt hyielded hsound =>
        have hsilent : notices.filterMap GatewayEvent.completed = [] := by
          refine List.filterMap_eq_nil_iff.mpr fun event hevent => ?_
          have hretry := hnotices event hevent
          cases event with
          | model event => cases hretry
          | retrying attempt maximum code => rfl
        rw [List.filterMap_append, hsilent, List.nil_append, hyielded, completed_relay] at hturn
        obtain ⟨original, horiginal, hsame⟩ := List.map_eq_singleton_iff.mp hturn
        have hmem : .turnCompleted original ∈ last.read := by
          have hone : original ∈ last.read.filterMap ModelStreamEvent.completed := by
            rw [horiginal]
            exact List.mem_singleton_self _
          obtain ⟨event, hevent, hcompleted⟩ := List.mem_filterMap.mp hone
          cases event <;> cases hcompleted
          exact hevent
        obtain ⟨hmodel, hname⟩ := hsound.2 original hmem
        refine ⟨⟨provider, earlier, last.read, original, hprovider, hattempts, hattempt,
          horiginal, hmodel, hname, hsound.1, hsame.symm⟩, ?_⟩
        have hall : notices.countP GatewayEvent.isRetry = notices.length :=
          List.countP_eq_length.mpr hnotices
        have hnone : last.yielded.countP GatewayEvent.isRetry = 0 := by
          rw [hyielded, List.countP_map]
          refine List.countP_eq_zero.mpr fun event _ => ?_
          simp [isRetry_relay]
        rw [List.countP_append, hall, hnone, hattempts, List.length_append, hlength]
        rfl

private theorem complete_eq_ok {run : StreamRun} {turn : ModelTurn} :
    complete selected run = .ok turn ↔ run.ending = .exhausted ∧
      (∀ event ∈ run.events, event.isFailure = false) ∧
      run.events.filterMap GatewayEvent.completed = [turn] := by
  cases hcollect : collectCompleted run.events with
  | error fault =>
    have hno : ¬ ∀ event ∈ run.events, event.isFailure = false := fun hnone =>
      absurd (hcollect.symm.trans (collectCompleted_eq_ok.2 ⟨hnone, rfl⟩)) nofun
    simp [complete, hcollect, hno]
  | ok completed =>
    obtain ⟨hnone, rfl⟩ := collectCompleted_eq_ok.1 hcollect
    cases hending : run.ending with
    | exhausted =>
      simp only [complete, hcollect, hending]
      split
      · next t ht =>
        rw [ht]
        simp only [Except.ok.injEq, List.cons.injEq, and_true, true_and]
        exact ⟨fun he => ⟨hnone, he⟩, fun h => h.2⟩
      · next hother =>
        refine ⟨nofun, fun h => ?_⟩
        exact absurd h.2.2 (hother turn)
    | providerError error => simp [complete, hcollect, hending]
    | exception => simp [complete, hcollect, hending]
    | cancelled => simp [complete, hcollect, hending]

end ModelGateway

/-- The retries that a distillation may see. -/
def DistillationAllows (remainingModelCalls remainingProviderRetries first retries : Nat) : Prop :=
  ∀ k < retries, first + k < remainingProviderRetries ∧ 1 + (first + k) < remainingModelCalls

variable {events : List GatewayEvent} {budget : TurnBudget}

/-- A distillation counts its calls and retries. -/
theorem readDistillation_eq_ok {calls retries first n : Nat} {completed turns : List ModelTurn} :
    readDistillation calls retries first completed events = .ok (turns, n) ↔
      (∀ event ∈ events, event.isFailure = false) ∧
        turns = completed ++ events.filterMap GatewayEvent.completed ∧
        n = first + events.countP GatewayEvent.isRetry ∧
        DistillationAllows calls retries first (events.countP GatewayEvent.isRetry) := by
  induction events generalizing first completed with
  | nil =>
    simp only [readDistillation, Except.ok.injEq, Prod.mk.injEq, List.filterMap_nil,
      List.append_nil, List.countP_nil, Nat.add_zero]
    exact ⟨fun h => ⟨fun _ hmem => absurd hmem List.not_mem_nil, h.1.symm, h.2.symm,
      fun k hk => absurd hk (Nat.not_lt_zero k)⟩, fun h => ⟨h.2.1.symm, h.2.2.1.symm⟩⟩
  | cons event rest ih =>
    have hother (hfailure : event.isFailure = false) (hcompleted : event.completed = none)
        (hretry : event.isRetry = false)
        (hread : readDistillation calls retries first completed (event :: rest) =
          readDistillation calls retries first completed rest) :
        readDistillation calls retries first completed (event :: rest) = .ok (turns, n) ↔
          (∀ e ∈ event :: rest, e.isFailure = false) ∧
            turns = completed ++ (event :: rest).filterMap GatewayEvent.completed ∧
            n = first + (event :: rest).countP GatewayEvent.isRetry ∧
            DistillationAllows calls retries first
              ((event :: rest).countP GatewayEvent.isRetry) := by
      rw [hread, ih, List.forall_mem_cons, List.filterMap_cons_none hcompleted,
        List.countP_cons_of_neg (by simp [hretry])]
      simp [hfailure]
    cases event with
    | retrying attempt maximum code =>
      rw [List.forall_mem_cons, List.filterMap_cons_none rfl, List.countP_cons_of_pos rfl]
      by_cases hblocked : retries ≤ first ∨ calls ≤ 1 + first
      · simp only [readDistillation, if_pos hblocked]
        refine ⟨nofun, fun h => ?_⟩
        have hzero := h.2.2.2 0 (Nat.succ_pos _)
        omega
      · simp only [readDistillation, if_neg hblocked, ih]
        have hallows (m : Nat) : DistillationAllows calls retries (first + 1) m ↔
            DistillationAllows calls retries first (m + 1) := by
          constructor
          · intro h k hk
            cases k with
            | zero => omega
            | succ k =>
              have hk' := h k (by omega)
              omega
          · intro h k hk
            have hk' := h (k + 1) (by omega)
            omega
        rw [hallows]
        have hcount : first + 1 + rest.countP GatewayEvent.isRetry =
            first + (rest.countP GatewayEvent.isRetry + 1) := by omega
        rw [hcount]
        simp [GatewayEvent.isFailure]
    | model event =>
      cases event with
      | turnFailed error => simp [readDistillation, GatewayEvent.isFailure]
      | turnCompleted turn =>
        have hfirst : (GatewayEvent.model (.turnCompleted turn) :: rest).filterMap
            GatewayEvent.completed = turn :: rest.filterMap GatewayEvent.completed := rfl
        have hcount : (GatewayEvent.model (.turnCompleted turn) :: rest).countP
            GatewayEvent.isRetry = rest.countP GatewayEvent.isRetry := rfl
        rw [List.forall_mem_cons, hfirst, hcount]
        simp only [readDistillation, ih, List.append_assoc, List.singleton_append]
        simp [GatewayEvent.isFailure]
      | reasoningStarted => exact hother rfl rfl rfl rfl
      | reasoningDelta text => exact hother rfl rfl rfl rfl
      | textDelta text => exact hother rfl rfl rfl rfl
      | toolCallStarted index callId name => exact hother rfl rfl rfl rfl
      | toolArgumentsDelta index text => exact hother rfl rfl rfl rfl

/-- The retries that the budgets of a turn allow. -/
def CallAllows (budget : TurnBudget) (state : CallState) (retries : Nat) : Prop :=
  ∀ k < retries, state.modelCalls + k < budget.modelCalls ∧
    state.providerRetries + k < budget.providerRetries

/-- The counters after a number of retries. -/
def CallState.chargeRetries (s : CallState) (retries : Nat) : CallState :=
  { s with modelCalls := s.modelCalls + retries, providerRetries := s.providerRetries + retries }

private theorem CallAllows.succ {budget : TurnBudget} {state : CallState} {retries : Nat} :
    CallAllows budget state (retries + 1) ↔
      (state.modelCalls < budget.modelCalls ∧ state.providerRetries < budget.providerRetries) ∧
        CallAllows budget state.chargeProviderRetry retries := by
  constructor
  · intro h
    refine ⟨h 0 (Nat.succ_pos _), fun k hk => ?_⟩
    have hnext := h (k + 1) (by omega)
    simp only [CallState.chargeProviderRetry]
    omega
  · intro h k hk
    cases k with
    | zero => exact h.1
    | succ k =>
      have hnext := h.2 k (by omega)
      simp only [CallState.chargeProviderRetry] at hnext
      omega

/-- A model call whose retries the budgets allow reads all events. -/
theorem readCall_of_allows {r : CallReading}
    (h : CallAllows budget r.state (events.countP GatewayEvent.isRetry)) :
    (readCall budget r events).blocked = r.blocked ∧
      (readCall budget r events).state =
        r.state.chargeRetries (events.countP GatewayEvent.isRetry) ∧
      (readCall budget r events).observedRetries =
        r.observedRetries + events.countP GatewayEvent.isRetry ∧
      (readCall budget r events).completed =
        r.completed ++ events.filterMap GatewayEvent.completed ∧
      ((readCall budget r events).failure = none ↔
        r.failure = none ∧ ∀ event ∈ events, event.isFailure = false) := by
  induction events generalizing r with
  | nil => simp [readCall, CallState.chargeRetries]
  | cons event rest ih =>
    cases event with
    | retrying attempt maximum code =>
      have hcount : (GatewayEvent.retrying attempt maximum code :: rest).countP
          GatewayEvent.isRetry = rest.countP GatewayEvent.isRetry + 1 :=
        List.countP_cons_of_pos rfl
      rw [hcount, CallAllows.succ] at h
      obtain ⟨⟨hcalls, hretries⟩, hrest⟩ := h
      have hread : readCall budget r (.retrying attempt maximum code :: rest) =
          readCall budget { r with
            state := r.state.chargeProviderRetry
            observedRetries := r.observedRetries + 1 } rest := by
        rw [readCall, if_neg (by omega), if_neg (by omega)]
      obtain ⟨hblocked, hstate, hobserved, hcompleted, hfailure⟩ := ih (r := { r with
        state := r.state.chargeProviderRetry
        observedRetries := r.observedRetries + 1 }) hrest
      rw [hread, hcount]
      refine ⟨hblocked, ?_, ?_, hcompleted, ?_⟩
      · rw [hstate]
        simp only [CallState.chargeRetries, CallState.chargeProviderRetry]
        congr 1 <;> omega
      · refine hobserved.trans ?_
        simp only
        omega
      · rw [hfailure]
        simp [GatewayEvent.isFailure]
    | model event =>
      cases event with
      | turnCompleted turn =>
        obtain ⟨hblocked, hstate, hobserved, hcompleted, hfailure⟩ :=
          ih (r := { r with completed := r.completed ++ [turn] }) h
        refine ⟨hblocked, hstate, hobserved, ?_, ?_⟩
        · refine hcompleted.trans ?_
          rw [List.append_assoc]
          rfl
        · refine hfailure.trans ?_
          simp [GatewayEvent.isFailure]
      | turnFailed error =>
        obtain ⟨hblocked, hstate, hobserved, hcompleted, hfailure⟩ :=
          ih (r := { r with failure := some error }) h
        refine ⟨hblocked, hstate, hobserved, hcompleted, hfailure.trans ?_⟩
        simp [GatewayEvent.isFailure]
      | _ =>
        obtain ⟨hblocked, hstate, hobserved, hcompleted, hfailure⟩ := ih (r := r) h
        refine ⟨hblocked, hstate, hobserved, hcompleted, hfailure.trans ?_⟩
        simp [GatewayEvent.isFailure]

private theorem allows_of_readCall {r : CallReading} (h : (readCall budget r events).blocked = none)
    :
    CallAllows budget r.state (events.countP GatewayEvent.isRetry) := by
  induction events generalizing r with
  | nil => exact fun k hk => absurd hk (Nat.not_lt_zero k)
  | cons event rest ih =>
    cases event with
    | retrying attempt maximum code =>
      have hcount : (GatewayEvent.retrying attempt maximum code :: rest).countP
          GatewayEvent.isRetry = rest.countP GatewayEvent.isRetry + 1 :=
        List.countP_cons_of_pos rfl
      rw [hcount, CallAllows.succ]
      unfold readCall at h
      split at h
      · cases h
      · next hcalls =>
        split at h
        · cases h
        · next hretries => exact ⟨by omega, ih h⟩
    | model event =>
      cases event with
      | turnCompleted turn => exact ih (r := { r with completed := r.completed ++ [turn] }) h
      | turnFailed error => exact ih (r := { r with failure := some error }) h
      | _ => exact ih (r := r) h

open ModelGateway in
/-- A model call returns the only turn of a stream within its budget. -/
theorem callModel_eq_ok {state s : CallState} {run : StreamRun} {turn : ModelTurn} :
    callModel budget state run = (s, .ok turn) ↔ run.ending = .exhausted ∧
      (∀ event ∈ run.events, event.isFailure = false) ∧
      run.events.filterMap GatewayEvent.completed = [turn] ∧
      CallAllows budget (state.chargeModelAttempt 0) (run.events.countP GatewayEvent.isRetry) ∧
      turn.usage.providerRetries = run.events.countP GatewayEvent.isRetry ∧
      toolCallsAreDispatchableAndFresh turn.toolCalls state.completedCalls = true ∧
      s = (state.chargeModelAttempt 0).chargeRetries (run.events.countP GatewayEvent.isRetry) := by
  by_cases hallows : CallAllows budget (state.chargeModelAttempt 0)
      (run.events.countP GatewayEvent.isRetry)
  · obtain ⟨hblocked, hstate, hobserved, hcompleted, hfailure⟩ := readCall_of_allows
      (r := ⟨state.chargeModelAttempt 0, 0, [], none, none⟩) hallows
    rw [List.nil_append] at hcompleted
    rw [Nat.zero_add] at hobserved
    simp only [true_and] at hfailure
    unfold callModel
    dsimp only
    rw [hblocked, hstate]
    cases hending : run.ending with
    | exhausted =>
      simp only [hallows, true_and]
      cases hfault : (readCall budget ⟨state.chargeModelAttempt 0, 0, [], none, none⟩
          run.events).failure with
      | some error =>
        have hno : ¬ ∀ event ∈ run.events, event.isFailure = false := fun hnone =>
          absurd (hfault.symm.trans (hfailure.mpr hnone)) nofun
        simp [hno]
      | none =>
        have hnone := hfailure.mp hfault
        simp only [hcompleted, hobserved]
        split
        · next t ht =>
          rw [ht]
          split
          · next haccept =>
            simp only [Prod.mk.injEq, Except.ok.injEq, List.cons.injEq, and_true]
            constructor
            · rintro ⟨rfl, rfl⟩
              exact ⟨hnone, rfl, haccept.1, haccept.2, rfl⟩
            · rintro ⟨-, rfl, -, -, rfl⟩
              exact ⟨rfl, rfl⟩
          · next hrefuse =>
            simp only [Prod.mk.injEq, List.cons.injEq, and_true]
            constructor
            · rintro ⟨-, h⟩
              cases h
            · rintro ⟨-, rfl, hretries, hfresh, -⟩
              exact absurd ⟨hretries, hfresh⟩ hrefuse
        · next hother =>
          constructor
          · intro h
            cases (Prod.mk.inj h).2
          · intro h
            exact absurd h.2.1 (hother turn)
    | providerError error => simp
    | exception => simp
    | cancelled => simp
  · have hblocked : (readCall budget ⟨state.chargeModelAttempt 0, 0, [], none, none⟩
        run.events).blocked ≠ none := fun hnone => hallows (allows_of_readCall hnone)
    obtain ⟨reason, hreason⟩ := Option.ne_none_iff_exists'.mp hblocked
    simp [callModel, hreason, hallows]

open ModelGateway in
/-- A bounded completion returns the turn with the retries that were told. -/
theorem completeBounded_eq_ok {calls retries : Nat} {run : StreamRun} {turn : ModelTurn} :
    completeBounded calls retries run = .ok turn ↔ ∃ original, run.ending = .exhausted ∧
      (∀ event ∈ run.events, event.isFailure = false) ∧
      run.events.filterMap GatewayEvent.completed = [original] ∧
      DistillationAllows calls retries 0 (run.events.countP GatewayEvent.isRetry) ∧
      original.usage.providerRetries = run.events.countP GatewayEvent.isRetry ∧
      original.usage.providerRetries ≤ maxProviderRetries ∧
      turn = { original with continuation := none } := by
  cases hread : readDistillation calls retries 0 [] run.events with
  | error fault =>
    have hno : ¬ ((∀ event ∈ run.events, event.isFailure = false) ∧
        DistillationAllows calls retries 0 (run.events.countP GatewayEvent.isRetry)) := fun h =>
      absurd (hread.symm.trans (readDistillation_eq_ok.2 ⟨h.1, rfl, rfl, h.2⟩)) nofun
    simp only [completeBounded, hread]
    refine ⟨nofun, ?_⟩
    rintro ⟨original, -, hnone, -, hallows, -⟩
    exact absurd ⟨hnone, hallows⟩ hno
  | ok p =>
    obtain ⟨completed, n⟩ := p
    obtain ⟨hnone, rfl, rfl, hallows⟩ := readDistillation_eq_ok.1 hread
    rw [List.nil_append] at hread
    simp only [completeBounded, hread]
    cases hending : run.ending with
    | exhausted =>
      simp only [true_and]
      split
      · next t ht =>
        by_cases hvalid : t.usage.providerRetries ≤ maxProviderRetries
        · simp only [revalidate, if_pos hvalid]
          by_cases hcount : t.usage.providerRetries =
              0 + run.events.countP GatewayEvent.isRetry
          · rw [if_pos hcount]
            rw [Nat.zero_add] at hcount
            constructor
            · intro h
              exact ⟨t, hnone, ht, hallows, hcount, hvalid, (Except.ok.inj h).symm⟩
            · rintro ⟨original, -, horiginal, -, -, -, rfl⟩
              obtain ⟨rfl, -⟩ := List.cons.inj (ht.symm.trans horiginal)
              rfl
          · rw [if_neg hcount]
            rw [Nat.zero_add] at hcount
            refine ⟨nofun, ?_⟩
            rintro ⟨original, -, horiginal, -, hsame, -⟩
            obtain ⟨rfl, -⟩ := List.cons.inj (ht.symm.trans horiginal)
            exact absurd hsame hcount
        · simp only [revalidate, if_neg hvalid]
          refine ⟨nofun, ?_⟩
          rintro ⟨original, -, horiginal, -, -, hbound, -⟩
          obtain ⟨rfl, -⟩ := List.cons.inj (ht.symm.trans horiginal)
          exact absurd hbound hvalid
      · next hother =>
        refine ⟨nofun, ?_⟩
        rintro ⟨original, -, horiginal, -⟩
        exact absurd horiginal (hother original)
    | providerError error => simp
    | exception => simp
    | cancelled => simp

/-- The providers report no retries of their own. -/
def ReportsNoRetries (providers : ProviderId → Option ModelGateway.Provider)
    (selected : SelectedModel) : Prop :=
  ∀ provider, providers selected.provider = some provider → ∀ attempt turn,
    .turnCompleted turn ∈ (provider attempt).events → turn.usage.providerRetries = 0

private theorem withRetryUsage_providerRetries (turn : ModelTurn) (retries : Nat) :
    (withRetryUsage turn retries).usage.providerRetries = turn.usage.providerRetries + retries := by
  unfold withRetryUsage
  split
  · next hzero => rw [hzero, Nat.add_zero]
  · rfl

namespace ModelGateway

private theorem AcceptedFrom.providerRetries {selected : SelectedModel}
    {providers : ProviderId → Option Provider} {run : StreamRun} {turn : ModelTurn}
    (h : AcceptedFrom selected providers run turn) (hnone : ReportsNoRetries providers selected) :
    turn.usage.providerRetries + 1 = run.attempts.length := by
  obtain ⟨provider, earlier, last, original, hprovider, hattempts, hlast, hone, -, -, -, rfl⟩ := h
  have hmem : original ∈ last.filterMap ModelStreamEvent.completed := by
    rw [hone]
    exact List.mem_singleton_self _
  obtain ⟨event, hevent, hcompleted⟩ := List.mem_filterMap.mp hmem
  cases event <;> cases hcompleted
  have hzero := hnone provider hprovider earlier.length original (by rwa [hlast])
  rw [withRetryUsage_providerRetries, hzero, hattempts, List.length_append, Nat.zero_add]
  rfl

private theorem stream_attempts (policy : RetryPolicy) (providers : ProviderId → Option Provider)
    (sleeper : Nat → SleepEnd) (selected : SelectedModel) :
    (stream policy providers sleeper selected).attempts.length ≤ policy.maxRetries + 1 ∧
      ∀ attempt ∈ (stream policy providers sleeper selected).attempts.dropLast,
        Quiet attempt := by
  unfold stream
  split
  · exact ⟨Nat.zero_le _, fun _ h => absurd h List.not_mem_nil⟩
  · next provider _ => exact streamFrom_attempts policy selected provider sleeper policy.maxRetries

end ModelGateway

open ModelGateway in
/-- Retries follow only attempts that showed and completed nothing; every consumer accepts only
the one turn of the last attempt; and within their budgets the consumers accept the same
streams, except that a model call refuses tool calls that it cannot dispatch. -/
theorem gateway_consumers_agree (policy : RetryPolicy) (providers : ProviderId → Option Provider)
    (sleeper : Nat → SleepEnd) (selected : SelectedModel) (budget : TurnBudget)
    (state : CallState) (calls retries : Nat) :
    let run := stream policy providers sleeper selected
    (run.attempts.length ≤ policy.maxRetries + 1 ∧
      ∀ attempt ∈ run.attempts.dropLast, Quiet attempt) ∧
    (∀ turn, complete selected run = .ok turn → AcceptedFrom selected providers run turn) ∧
    (∀ s turn, callModel budget state run = (s, .ok turn) →
      AcceptedFrom selected providers run turn ∧
        s.modelCalls = state.modelCalls + (1 + turn.usage.providerRetries) ∧
        1 + turn.usage.providerRetries = run.attempts.length) ∧
    (∀ turn, completeBounded calls retries run = .ok turn → ∃ original,
      AcceptedFrom selected providers run original ∧
        turn = { original with continuation := none }) ∧
    (ReportsNoRetries providers selected →
      CallAllows budget (state.chargeModelAttempt 0) (run.attempts.length - 1) →
      DistillationAllows calls retries 0 (run.attempts.length - 1) → ∀ turn,
      ((complete selected run = .ok turn ∧
          toolCallsAreDispatchableAndFresh turn.toolCalls state.completedCalls = true) ↔
        ∃ s, callModel budget state run = (s, .ok turn)) ∧
      ((∃ original, complete selected run = .ok original ∧
          turn = { original with continuation := none }) ↔
        completeBounded calls retries run = .ok turn)) := by
  intro run
  have hattempts : run.attempts.length ≤ policy.maxRetries + 1 ∧
      ∀ attempt ∈ run.attempts.dropLast, Quiet attempt :=
    stream_attempts policy providers sleeper selected
  refine ⟨hattempts, ?_, ?_, ?_, ?_⟩
  · intro turn h
    obtain ⟨hending, hfailure, hturn⟩ := complete_eq_ok.1 h
    exact (accepted_of_events hending hfailure hturn).1
  · intro s turn h
    obtain ⟨hending, hfailure, hturn, -, hretries, -, rfl⟩ := callModel_eq_ok.1 h
    obtain ⟨haccepted, hcount⟩ := accepted_of_events hending hfailure hturn
    refine ⟨haccepted, ?_, ?_⟩
    · simp only [CallState.chargeRetries, CallState.chargeModelAttempt, hretries]
      omega
    · rw [hretries, ← hcount, Nat.add_comm]
  · intro turn h
    obtain ⟨original, hending, hfailure, hturn, -, -, -, rfl⟩ := completeBounded_eq_ok.1 h
    exact ⟨original, (accepted_of_events hending hfailure hturn).1, rfl⟩
  · intro hnone hcall hdistillation turn
    -- what one accepted turn says about the counters of all consumers
    have hsame : ∀ {accepted : ModelTurn}, complete selected run = .ok accepted →
        accepted.usage.providerRetries = run.events.countP GatewayEvent.isRetry ∧
          run.events.countP GatewayEvent.isRetry = run.attempts.length - 1 := by
      intro accepted h
      obtain ⟨hending, hfailure, hturn⟩ := complete_eq_ok.1 h
      obtain ⟨haccepted, hcount⟩ := accepted_of_events hending hfailure hturn
      have hreported : accepted.usage.providerRetries + 1 = run.attempts.length :=
        haccepted.providerRetries hnone
      have hnotices : run.events.countP GatewayEvent.isRetry + 1 = run.attempts.length := hcount
      omega
    constructor
    · constructor
      · rintro ⟨hcomplete, hfresh⟩
        obtain ⟨hending, hfailure, hturn⟩ := complete_eq_ok.1 hcomplete
        obtain ⟨hreported, hcount⟩ := hsame hcomplete
        exact ⟨_, callModel_eq_ok.2
          ⟨hending, hfailure, hturn, by rwa [hcount], hreported, hfresh, rfl⟩⟩
      · rintro ⟨s, h⟩
        obtain ⟨hending, hfailure, hturn, -, -, hfresh, -⟩ := callModel_eq_ok.1 h
        exact ⟨complete_eq_ok.2 ⟨hending, hfailure, hturn⟩, hfresh⟩
    · constructor
      · rintro ⟨original, hcomplete, rfl⟩
        obtain ⟨hending, hfailure, hturn⟩ := complete_eq_ok.1 hcomplete
        obtain ⟨hreported, hcount⟩ := hsame hcomplete
        have hbound : original.usage.providerRetries ≤ maxProviderRetries := by
          have hpolicy := policy.bounded
          have hlength := hattempts.1
          unfold maxProviderRetries
          omega
        exact completeBounded_eq_ok.2
          ⟨original, hending, hfailure, hturn, by rwa [hcount], hreported, hbound, rfl⟩
      · intro h
        obtain ⟨original, hending, hfailure, hturn, -, -, -, rfl⟩ := completeBounded_eq_ok.1 h
        exact ⟨original, complete_eq_ok.2 ⟨hending, hfailure, hturn⟩, rfl⟩

/-- A turn of the sample model with tool calls. -/
def sampleTurn (toolCalls : List ToolCall) : ModelTurn :=
  ⟨.deepseek, "deepseek-chat", [], toolCalls, .toolCalls, .zero, none, none⟩

/-- The sample model. -/
def sampleModel : SelectedModel := ⟨.deepseek, "deepseek-chat"⟩

/-- A provider that is unreachable once, shows a text and completes a turn. -/
def sampleProvider (toolCalls : List ToolCall) : ModelGateway.Provider
  | 0 => ⟨[], .providerError ⟨.connection, "Connection failed.", .deepseek, none⟩⟩
  | _ + 1 => ⟨[.textDelta ['a'], .turnCompleted (sampleTurn toolCalls)], .exhausted⟩

private theorem sampleProvider_reportsNoRetries (toolCalls : List ToolCall) :
    ReportsNoRetries (fun _ => some (sampleProvider toolCalls)) sampleModel := by
  intro provider hprovider attempt turn hturn
  cases Option.some.inj hprovider
  cases attempt with
  | zero => cases hturn
  | succ attempt =>
    rcases List.mem_cons.mp hturn with h | h
    · cases h
    · rw [List.mem_singleton] at h
      cases h
      rfl

open ModelGateway in
/-- A turn after one retry: all consumers accept it, and a model call charges two attempts. -/
theorem gateway_consumers_agree_retried :
    let run := stream ⟨1, by decide⟩ (fun _ => some (sampleProvider [])) (fun _ => .slept)
      sampleModel
    complete sampleModel run = .ok (withRetryUsage (sampleTurn []) 1) ∧
      AcceptedFrom sampleModel (fun _ => some (sampleProvider [])) run
        (withRetryUsage (sampleTurn []) 1) ∧
      (∃ s, callModel ⟨5, 5⟩ ⟨0, 0, []⟩ run = (s, .ok (withRetryUsage (sampleTurn []) 1))) ∧
      completeBounded 5 5 run = .ok (withRetryUsage (sampleTurn []) 1) := by
  obtain ⟨-, haccepted, -, -, hagree⟩ := gateway_consumers_agree ⟨1, by decide⟩
    (fun _ => some (sampleProvider [])) (fun _ => .slept) sampleModel ⟨5, 5⟩ ⟨0, 0, []⟩ 5 5
  have hcomplete : complete sampleModel (stream ⟨1, by decide⟩
      (fun _ => some (sampleProvider [])) (fun _ => .slept) sampleModel) =
      .ok (withRetryUsage (sampleTurn []) 1) := by decide
  have hcall : CallAllows ⟨5, 5⟩ ((⟨0, 0, []⟩ : CallState).chargeModelAttempt 0)
      ((stream ⟨1, by decide⟩ (fun _ => some (sampleProvider [])) (fun _ => .slept)
        sampleModel).attempts.length - 1) := by
    unfold CallAllows
    decide
  have hdistillation : DistillationAllows 5 5 0
      ((stream ⟨1, by decide⟩ (fun _ => some (sampleProvider [])) (fun _ => .slept)
        sampleModel).attempts.length - 1) := by
    unfold DistillationAllows
    decide
  obtain ⟨hsame, hbounded⟩ := hagree (sampleProvider_reportsNoRetries []) hcall hdistillation
    (withRetryUsage (sampleTurn []) 1)
  exact ⟨hcomplete, haccepted _ hcomplete, hsame.mp ⟨hcomplete, by decide⟩,
    hbounded.mp ⟨_, hcomplete, rfl⟩⟩

/-- A call of the sample tool. -/
def sampleToolCall : ToolCall := ⟨['c'], ['t'], ['{', '}'], by decide⟩

open ModelGateway in
/-- Two tool calls of one identifier: a completion and a distillation accept the turn, a model
call within its budgets does not. -/
theorem gateway_consumers_disagree :
    ¬ ∀ (policy : RetryPolicy) (providers : ProviderId → Option Provider)
      (sleeper : Nat → SleepEnd) (selected : SelectedModel) (budget : TurnBudget)
      (state : CallState) (turn : ModelTurn),
      ReportsNoRetries providers selected →
      CallAllows budget (state.chargeModelAttempt 0)
        ((stream policy providers sleeper selected).attempts.length - 1) →
      complete selected (stream policy providers sleeper selected) = .ok turn →
      ∃ s, callModel budget state (stream policy providers sleeper selected) = (s, .ok turn) := by
  intro h
  have hcall : CallAllows ⟨5, 5⟩ ((⟨0, 0, []⟩ : CallState).chargeModelAttempt 0)
      ((stream ⟨1, by decide⟩ (fun _ => some (sampleProvider [sampleToolCall, sampleToolCall]))
        (fun _ => .slept) sampleModel).attempts.length - 1) := by
    unfold CallAllows
    decide
  obtain ⟨s, hs⟩ := h ⟨1, by decide⟩
    (fun _ => some (sampleProvider [sampleToolCall, sampleToolCall])) (fun _ => .slept)
    sampleModel ⟨5, 5⟩ ⟨0, 0, []⟩
    (withRetryUsage (sampleTurn [sampleToolCall, sampleToolCall]) 1)
    (sampleProvider_reportsNoRetries _) hcall (by decide)
  obtain ⟨-, -, -, -, -, hfresh, -⟩ := callModel_eq_ok.1 hs
  revert hfresh
  decide

end AwesomeAgent.Modeling
