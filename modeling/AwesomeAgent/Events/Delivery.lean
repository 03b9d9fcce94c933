import AwesomeAgent.Events.Emitter

/-!
# The two ends of the event stream

As long as every event that takes a number reaches the client, and the emitter
learns of every start that did, the client accepts the whole stream, lifecycles
are well formed, and what started can still end.
-/

namespace AwesomeAgent

/-- The stages of an identifier that events announce, in order. -/
def stagesOf (events : List EventEnvelope) (kind : LifecycleKind) (identifier : String) :
    List LifecycleStage :=
  events.filterMap fun e => e.stageOf kind identifier

/-- The client accepts what reached it; every lifecycle has at most one start and one terminal
event, in this order; and what started can still end. -/
structure StreamAgrees (s : EventSession) : Prop where
  accepted : (EventStreamGuard.acceptAll s.delivered).fault = none
  lifecycle : ∀ kind i, stagesOf s.delivered kind i <+: [.started, .terminal]
  canEnd : ∀ kind i, stagesOf s.delivered kind i = [.started] →
    ∃ t, Run EventSession.step (fun _ _ => True) s t ∧
      stagesOf t.delivered kind i = [.started, .terminal] ∧
      (EventStreamGuard.acceptAll t.delivered).fault = none

/-- An identifier has ended and the emitter does not remember it. -/
def EventSession.Forgotten (s : EventSession) (kind : LifecycleKind) (i : String) : Prop :=
  .terminal ∈ stagesOf s.delivered kind i ∧ i ∉ (s.emitter.lifecycle kind).terminal

/-- A step that delivers. A request that passes the lifecycle check makes a valid envelope with
a number that is not the last one, and starts nothing that has ended and was forgotten; the sink
sends the event, and reports so if it is a start. -/
def Delivers (s : EventSession) : EmitAction → Prop
  | .call _ | .cancelWaiting _ => True
  | .enter i => ∀ r ∈ s.waiting[i]?, s.emitter.validateTransition r = .ok () →
      (s.emitter.fields r).Valid ∧ s.emitter.sequence + 1 < maxJsonSafeInteger ∧
        ∀ kind i, r.stageOf kind i = some .started → ¬s.Forgotten kind i
  | .sink outcome => outcome = .sent ∨
      outcome = .lost ∧ ∀ e ∈ s.sending, ∀ kind i, e.stageOf kind i ≠ some .started

section Emitter

variable {m : EventEmitter} {r : EmitRequest} {kind : LifecycleKind} {i : String}

/-- What the lifecycles are after one of them was set. -/
@[simp] theorem EventEmitter.lifecycle_setLifecycle (m : EventEmitter) (k : LifecycleKind)
    (l : Lifecycle) :
    (m.setLifecycle k l).lifecycle kind = if kind = k then l else m.lifecycle kind := by
  cases k <;> cases kind <;> rfl

private theorem EventEmitter.validateTransition_ok (h : m.validateTransition r = .ok ()) :
    (r.stageOf kind i = some .started →
      i ∉ (m.lifecycle kind).started ∧ i ∉ (m.lifecycle kind).terminal) ∧
    (r.stageOf kind i = some .terminal → i ∈ (m.lifecycle kind).started) := by
  unfold validateTransition at h
  unfold EmitRequest.stageOf
  cases hs : r.eventType.stage with
  | none => simp
  | some p =>
    obtain ⟨k, stage⟩ := p
    rw [hs] at h
    dsimp only at h ⊢
    split
    next hk =>
      obtain ⟨rfl, hi⟩ := hk
      rw [hi] at h
      cases stage with
      | started =>
        refine ⟨fun _ => ?_, fun hne => by cases hne⟩
        by_contra hmem
        rw [not_and_or, not_not, not_not] at hmem
        simp only [Lifecycle.validate, if_pos hmem] at h
        cases h
      | terminal =>
        refine ⟨fun hne => (by cases hne), fun _ => ?_⟩
        by_contra hmem
        unfold Lifecycle.validate at h
        dsimp only at h
        rw [if_pos hmem] at h
        split at h <;> cases h
    next => simp

private theorem Lifecycle.mem_recordTerminal {history : List String} {j : String}
    (h : i ∈ recordTerminal history j) : i ∈ history ∨ i = j := by
  unfold recordTerminal at h
  have hmem := List.mem_of_mem_drop h
  split at hmem
  · exact Or.inl hmem
  · rcases List.mem_append.mp hmem with hmem | hmem
    · exact Or.inl hmem
    · exact Or.inr (List.mem_singleton.mp hmem)

private theorem EventEmitter.begin_ok (hok : m.validateTransition r = .ok ())
    (hv : (m.fields r).Valid) :
    m.begin r = (({ m with sequence := m.sequence + 1 }).announce r, .ok ⟨m.fields r, hv⟩) := by
  unfold EventEmitter.begin
  rw [hok]
  dsimp only
  rw [dif_pos hv]

private theorem EventEmitter.recordTransition_eq :
    (m.recordTransition r).lifecycle kind =
      match r.eventType.stage with
      | none => m.lifecycle kind
      | some (k, stage) =>
          match r.identifier k with
          | none => m.lifecycle kind
          | some j => if kind = k then (m.lifecycle k).record stage j else m.lifecycle kind := by
  unfold recordTransition
  cases r.eventType.stage with
  | none => rfl
  | some p =>
    obtain ⟨k, stage⟩ := p
    dsimp only
    cases r.identifier k with
    | none => rfl
    | some j => exact lifecycle_setLifecycle _ _ _

private theorem EventEmitter.recordTransition_started :
    i ∈ ((m.recordTransition r).lifecycle kind).started ↔
      r.stageOf kind i = some .started ∨
        r.stageOf kind i ≠ some .terminal ∧ i ∈ (m.lifecycle kind).started := by
  rw [recordTransition_eq]
  unfold EmitRequest.stageOf
  cases r.eventType.stage with
  | none => simp
  | some p =>
    obtain ⟨k, stage⟩ := p
    dsimp only
    cases hj : r.identifier k with
    | none =>
      have hk : ¬(k = kind ∧ r.identifier kind = some i) := by
        rintro ⟨rfl, hi⟩
        rw [hj] at hi
        cases hi
      simp [hk]
    | some j =>
      by_cases hk : k = kind
      · subst hk
        by_cases hi : j = i
        · subst hi
          cases stage with
          | started =>
            by_cases hmem : j ∈ (m.lifecycle k).started <;> simp [Lifecycle.record, hj, hmem]
          | terminal => simp [Lifecycle.record, hj]
        · have hi' : ¬i = j := fun h => hi h.symm
          cases stage with
          | started =>
            by_cases hmem : j ∈ (m.lifecycle k).started <;>
              simp [Lifecycle.record, hj, hmem, hi, hi']
          | terminal => simp [Lifecycle.record, hj, hi, hi']
      · have hk' : ¬kind = k := fun h => hk h.symm
        simp [hk, hk']

private theorem EventEmitter.recordTransition_terminal
    (h : i ∈ ((m.recordTransition r).lifecycle kind).terminal) :
    r.stageOf kind i = some .terminal ∨ i ∈ (m.lifecycle kind).terminal := by
  rw [recordTransition_eq] at h
  unfold EmitRequest.stageOf
  cases hs : r.eventType.stage with
  | none =>
    rw [hs] at h
    exact Or.inr h
  | some p =>
    obtain ⟨k, stage⟩ := p
    rw [hs] at h
    dsimp only at h ⊢
    cases hj : r.identifier k with
    | none =>
      rw [hj] at h
      exact Or.inr h
    | some j =>
      rw [hj] at h
      dsimp only at h
      split at h
      next hk =>
        subst hk
        cases stage with
        | started => exact Or.inr h
        | terminal =>
          simp only [Lifecycle.record] at h
          rcases Lifecycle.mem_recordTerminal h with hmem | rfl
          · exact Or.inr hmem
          · rw [if_pos ⟨rfl, hj⟩]
            exact Or.inl rfl
      · exact Or.inr h

private theorem EventEmitter.recordTransition_same : (m.recordTransition r).sequence = m.sequence ∧
    (m.recordTransition r).sessionId = m.sessionId ∧
    (m.recordTransition r).workspaceKey = m.workspaceKey := by
  unfold recordTransition
  split
  · exact ⟨rfl, rfl, rfl⟩
  next k stage _ =>
    split
    · exact ⟨rfl, rfl, rfl⟩
    · cases k <;> exact ⟨rfl, rfl, rfl⟩

private theorem EventEmitter.isTerminal_of_stage {stage : LifecycleStage}
    (h : r.stageOf kind i = some stage) : isTerminal r = decide (stage = .terminal) := by
  unfold EmitRequest.stageOf at h
  unfold isTerminal
  cases hs : r.eventType.stage with
  | none =>
    rw [hs] at h
    cases h
  | some p =>
    obtain ⟨k, stage'⟩ := p
    rw [hs] at h
    dsimp only at h ⊢
    split at h
    · cases h
      cases stage <;> rfl
    · cases h

private theorem EventEmitter.announce_same : (m.announce r).sequence = m.sequence ∧
    (m.announce r).sessionId = m.sessionId ∧ (m.announce r).workspaceKey = m.workspaceKey := by
  unfold announce
  split
  · exact recordTransition_same
  · exact ⟨rfl, rfl, rfl⟩

private theorem EventEmitter.finish_same : (m.finish r).sequence = m.sequence ∧
    (m.finish r).sessionId = m.sessionId ∧ (m.finish r).workspaceKey = m.workspaceKey := by
  unfold finish
  split
  · exact ⟨rfl, rfl, rfl⟩
  · exact recordTransition_same

private theorem EventEmitter.announce_started :
    i ∈ ((m.announce r).lifecycle kind).started ↔
      r.stageOf kind i ≠ some .terminal ∧ i ∈ (m.lifecycle kind).started := by
  unfold announce
  split
  next h =>
    have hnot : r.stageOf kind i ≠ some .started := by
      intro hs
      rw [isTerminal_of_stage hs] at h
      cases h
    rw [recordTransition_started, or_iff_right hnot]
  next h =>
    have hnot : r.stageOf kind i ≠ some .terminal := fun hs => h (isTerminal_of_stage hs)
    rw [and_iff_right hnot]

private theorem EventEmitter.announce_terminal
    (h : i ∈ ((m.announce r).lifecycle kind).terminal) :
    r.stageOf kind i = some .terminal ∨ i ∈ (m.lifecycle kind).terminal := by
  unfold announce at h
  split at h
  · exact recordTransition_terminal h
  · exact Or.inr h

private theorem EventEmitter.finish_started :
    i ∈ ((m.finish r).lifecycle kind).started ↔
      r.stageOf kind i = some .started ∨ i ∈ (m.lifecycle kind).started := by
  unfold finish
  split
  next h =>
    have hnot : r.stageOf kind i ≠ some .started := by
      intro hs
      rw [isTerminal_of_stage hs] at h
      cases h
    rw [or_iff_right hnot]
  next h =>
    have hnot : r.stageOf kind i ≠ some .terminal := fun hs => h (isTerminal_of_stage hs)
    rw [recordTransition_started, and_iff_right hnot]

private theorem EventEmitter.finish_terminal (h : i ∈ ((m.finish r).lifecycle kind).terminal) :
    i ∈ (m.lifecycle kind).terminal := by
  unfold finish at h
  split at h
  · exact h
  next hnot =>
    exact (recordTransition_terminal h).resolve_left fun hs => hnot (isTerminal_of_stage hs)

end Emitter

section Guard

/-- The guard after a number of events of a session. -/
def EventStreamGuard.after (sessionId : String) (n : Nat) : EventStreamGuard :=
  ⟨if n = 0 then none else some sessionId, n, none⟩

private theorem EventStreamGuard.accept_after {sessionId : String} {n : Nat} {e : EventEnvelope}
    (hn : e.sequence = n + 1) (hs : e.sessionId = sessionId) :
    (after sessionId n).accept e = after sessionId (n + 1) := by
  have hsafe : ¬maxJsonSafeInteger < e.sequence := Nat.not_lt.mpr e.valid.1.2
  unfold accept acceptNumbered
  rw [if_neg (by simp [after]), if_neg hsafe]
  cases n with
  | zero => simp [after, hn, hs]
  | succ n => simp [after, hn, hs]

private theorem EventStreamGuard.acceptAll_concat (events : List EventEnvelope) (e : EventEnvelope)
    :
    acceptAll (events ++ [e]) = (acceptAll events).accept e := by
  simp [acceptAll]

end Guard

/-- Where an identifier stands: what the emitter knows, what reached the client, and what the
sink holds. -/
inductive Tracks (l : Lifecycle) (i : String) :
    List LifecycleStage → Option LifecycleStage → Prop
  | fresh : i ∉ l.started → i ∉ l.terminal → Tracks l i [] none
  | starting : i ∉ l.started → i ∉ l.terminal → Tracks l i [] (some .started)
  | started : i ∈ l.started → i ∉ l.terminal → Tracks l i [.started] none
  | ending : i ∉ l.started → Tracks l i [.started] (some .terminal)
  | ended : i ∉ l.started → Tracks l i [.started, .terminal] none

namespace Tracks

variable {l l' : Lifecycle} {i : String} {stages : List LifecycleStage}
  {pending stage : Option LifecycleStage}

private theorem lifecycle (h : Tracks l i stages pending) : stages <+: [.started, .terminal] := by
  cases h with
  | fresh | starting => exact List.nil_prefix
  | started | ending => exact ⟨[.terminal], rfl⟩
  | ended => exact List.prefix_refl _

private theorem unstarted (h : Tracks l i stages none) (hs : i ∉ l.started) (ht : i ∉ l.terminal)
    (hremembered : .terminal ∈ stages → i ∈ l.terminal) : stages = [] := by
  cases h with
  | fresh => rfl
  | started hstarted => exact absurd hstarted hs
  | ended => exact absurd (hremembered (by simp)) ht

private theorem take (h : Tracks l i stages none)
    (hstarted : stage = some .started → i ∉ l.started ∧ i ∉ l.terminal ∧ stages = [])
    (hterminal : stage = some .terminal → i ∈ l.started)
    (hl : i ∈ l'.started ↔ stage ≠ some .terminal ∧ i ∈ l.started)
    (hl' : i ∈ l'.terminal → stage = some .terminal ∨ i ∈ l.terminal) :
    Tracks l' i stages stage := by
  cases stage with
  | none =>
    have hsame : i ∈ l'.started ↔ i ∈ l.started := by simpa using hl
    cases h with
    | fresh hs ht =>
      exact .fresh (fun h => hs (hsame.mp h)) fun h => ht ((hl' h).resolve_left (by simp))
    | started hs ht =>
      exact .started (hsame.mpr hs) fun h => ht ((hl' h).resolve_left (by simp))
    | ended hs => exact .ended fun h => hs (hsame.mp h)
  | some st =>
    cases st with
    | started =>
      obtain ⟨hs, ht, rfl⟩ := hstarted rfl
      exact .starting (fun h => hs (hl.mp h).2) fun h => ht ((hl' h).resolve_left (by simp))
    | terminal =>
      have hs := hterminal rfl
      cases h with
      | fresh hn => exact absurd hs hn
      | started => exact .ending fun h => (hl.mp h).1 rfl
      | ended hn => exact absurd hs hn

private theorem deliver (h : Tracks l i stages stage)
    (hstarted : stage = some .started → i ∈ l'.started)
    (hother : stage ≠ some .started → (i ∈ l'.started ↔ i ∈ l.started))
    (hterminal : i ∈ l'.terminal → i ∈ l.terminal) :
    Tracks l' i (stages ++ stage.toList) none := by
  cases h with
  | fresh hs ht =>
    exact .fresh (fun h => hs ((hother (by simp)).mp h)) fun h => ht (hterminal h)
  | starting _ ht => exact .started (hstarted rfl) fun h => ht (hterminal h)
  | started hs ht => exact .started ((hother (by simp)).mpr hs) fun h => ht (hterminal h)
  | ending hs => exact .ended fun h => hs ((hother (by simp)).mp h)
  | ended hs => exact .ended fun h => hs ((hother (by simp)).mp h)

end Tracks

/-- The invariant of a run that delivers. -/
structure Delivering (s : EventSession) : Prop where
  guard : EventStreamGuard.acceptAll s.delivered =
    .after s.emitter.sessionId s.delivered.length
  sequence : s.emitter.sequence = s.delivered.length + s.sending.toList.length
  sending : ∀ e ∈ s.sending, e.sequence = s.emitter.sequence
  session : ∀ e ∈ s.delivered ++ s.sending.toList, e.sessionId = s.emitter.sessionId ∧
    e.workspaceKey = s.emitter.workspaceKey
  bound : s.emitter.sequence < maxJsonSafeInteger
  tracks : ∀ kind i, Tracks (s.emitter.lifecycle kind) i (stagesOf s.delivered kind i)
    (s.sending.bind fun e => e.stageOf kind i)

section Steps

variable {s t : EventSession} {e : EventEnvelope} {r : EmitRequest}

private theorem stagesOf_concat (events : List EventEnvelope) (e : EventEnvelope)
    (kind : LifecycleKind) (i : String) :
    stagesOf (events ++ [e]) kind i = stagesOf events kind i ++ (e.stageOf kind i).toList := by
  unfold stagesOf
  rw [List.filterMap_append]
  cases h : e.stageOf kind i with
  | none => simp [h]
  | some stage => simp [h]

private theorem Delivering.take (h : Delivering s) (hs : s.sending = none)
    (hok : s.emitter.validateTransition r = .ok ()) (hv : (s.emitter.fields r).Valid)
    (hbound : s.emitter.sequence + 1 < maxJsonSafeInteger)
    (hknown : ∀ kind i, r.stageOf kind i = some .started → ¬s.Forgotten kind i)
    (waiting : List EmitRequest) :
    Delivering
      ⟨({ s.emitter with sequence := s.emitter.sequence + 1 }).announce r, waiting,
        some ⟨s.emitter.fields r, hv⟩, s.delivered⟩ := by
  obtain ⟨hsequence, hsession, hworkspace⟩ := EventEmitter.announce_same
    (m := { s.emitter with sequence := s.emitter.sequence + 1 }) (r := r)
  constructor
  · rw [hsession]
    exact h.guard
  · rw [hsequence, h.sequence, hs]
    rfl
  · rintro e ⟨⟩
    exact hsequence.symm
  · intro e he
    rw [hsession, hworkspace]
    rcases List.mem_append.mp he with he | he
    · exact h.session e (List.mem_append_left _ he)
    · rw [List.mem_singleton.mp he]
      exact ⟨rfl, rfl⟩
  · rw [hsequence]
    exact hbound
  · intro kind i
    have htracks := h.tracks kind i
    rw [hs] at htracks
    obtain ⟨hstart, hend⟩ := EventEmitter.validateTransition_ok hok
    refine htracks.take (fun hstage => ?_) hend EventEmitter.announce_started
      EventEmitter.announce_terminal
    obtain ⟨hunstarted, hunended⟩ := hstart hstage
    have hremembered : .terminal ∈ stagesOf s.delivered kind i →
        i ∈ (s.emitter.lifecycle kind).terminal := by
      intro hended
      by_contra hlost
      exact hknown kind i hstage ⟨hended, hlost⟩
    exact ⟨hunstarted, hunended, htracks.unstarted hunstarted hunended hremembered⟩

private theorem Delivering.deliver (h : Delivering s) (hs : s.sending = some e) (m : EventEmitter)
    (hsame : m.sequence = s.emitter.sequence ∧ m.sessionId = s.emitter.sessionId ∧
      m.workspaceKey = s.emitter.workspaceKey)
    (hm : ∀ kind i, (e.stageOf kind i = some .started → i ∈ (m.lifecycle kind).started) ∧
      (e.stageOf kind i ≠ some .started →
        (i ∈ (m.lifecycle kind).started ↔ i ∈ (s.emitter.lifecycle kind).started)) ∧
      (i ∈ (m.lifecycle kind).terminal → i ∈ (s.emitter.lifecycle kind).terminal)) :
    Delivering ⟨m, s.waiting, none, s.delivered ++ [e]⟩ := by
  have hmem : e ∈ s.delivered ++ s.sending.toList := by
    rw [hs]
    exact List.mem_append_right _ (List.mem_singleton.mpr rfl)
  have hlength : s.emitter.sequence = s.delivered.length + 1 := by
    rw [h.sequence, hs]
    rfl
  constructor
  · rw [EventStreamGuard.acceptAll_concat, h.guard, hsame.2.1, List.length_append,
      EventStreamGuard.accept_after ((h.sending e hs).trans hlength) (h.session e hmem).1]
    rfl
  · rw [hsame.1, hlength, List.length_append]
    rfl
  · rintro e' ⟨⟩
  · intro e' he'
    rw [hsame.2.1, hsame.2.2]
    refine h.session e' ?_
    rw [hs]
    simpa using he'
  · rw [hsame.1]
    exact h.bound
  · intro kind i
    have htracks := h.tracks kind i
    rw [hs] at htracks
    rw [stagesOf_concat]
    exact htracks.deliver (hm kind i).1 (hm kind i).2.1 (hm kind i).2.2

/-- Every step that delivers keeps the invariant. -/
theorem Delivering.step {a : EmitAction} (h : Delivering s) (ha : Delivers s a)
    (hstep : s.step a = some t) : Delivering t := by
  cases a with
  | call r =>
    cases hstep
    exact ⟨h.1, h.2, h.3, h.4, h.5, h.6⟩
  | cancelWaiting i =>
    simp only [EventSession.step] at hstep
    split at hstep
    · cases hstep
      exact ⟨h.1, h.2, h.3, h.4, h.5, h.6⟩
    · cases hstep
  | enter i =>
    simp only [EventSession.step] at hstep
    split at hstep
    next r hs hr =>
      cases hstep
      cases hok : s.emitter.validateTransition r with
      | error message =>
        have hbegin : s.emitter.begin r = (s.emitter, .error message) := by
          unfold EventEmitter.begin
          rw [hok]
        rw [hbegin]
        have h' : Delivering { s with sending := none } := by
          rw [← hs]
          exact h
        exact ⟨h'.1, h'.2, h'.3, h'.4, h'.5, h'.6⟩
      | ok _ =>
        obtain ⟨hv, hbound, hknown⟩ := ha r hr hok
        rw [EventEmitter.begin_ok hok hv]
        exact h.take hs hok hv hbound hknown _
    · cases hstep
  | sink outcome =>
    simp only [EventSession.step] at hstep
    split at hstep
    · cases hstep
    next e hs =>
      rcases ha with rfl | ⟨rfl, hstart⟩
      · cases hstep
        refine h.deliver hs _ EventEmitter.finish_same fun kind i => ?_
        exact ⟨fun hstage => EventEmitter.finish_started.2 (Or.inl hstage),
          fun hstage => EventEmitter.finish_started.trans (or_iff_right hstage),
          EventEmitter.finish_terminal⟩
      · cases hstep
        refine h.deliver hs _ ⟨rfl, rfl, rfl⟩ fun kind i => ?_
        exact ⟨fun hstage => absurd hstage (hstart e hs kind i), fun _ => Iff.rfl, id⟩

private theorem Delivering.initial (sessionId workspaceKey : String) :
    Delivering (.initial sessionId workspaceKey) where
  guard := rfl
  sequence := rfl
  sending := by
    rintro e ⟨⟩
  session := by simp [EventSession.initial]
  bound := Nat.zero_lt_succ _
  tracks kind i := by
    cases kind <;> exact .fresh List.not_mem_nil List.not_mem_nil

private theorem Delivering.settle (h : Delivering s) :
    ∃ t, Run EventSession.step (fun _ _ => True) s t ∧ Delivering t ∧ t.sending = none ∧
      ∀ kind i, stagesOf t.delivered kind i = stagesOf s.delivered kind i ++
        (s.sending.bind fun e => e.stageOf kind i).toList := by
  cases hs : s.sending with
  | none => exact ⟨s, .start, h, hs, fun kind i => by simp⟩
  | some e =>
    have hstep : s.step (.sink .sent) = some ⟨s.emitter.finish e.toEmitRequest, s.waiting, none,
        s.delivered ++ [e]⟩ := by
      simp only [EventSession.step, hs]
    exact ⟨_, .single trivial hstep, h.step (a := .sink .sent) (Or.inl rfl) hstep, rfl,
      fun kind i => stagesOf_concat _ e kind i⟩

/-- The event type that completes a lifecycle. -/
def LifecycleKind.completed : LifecycleKind → EventType
  | .operation => .operationCompleted
  | .turn => .turnCompleted

private theorem LifecycleKind.stage_completed (kind : LifecycleKind) :
    kind.completed.stage = some (kind, .terminal) := by
  cases kind <;> rfl

variable {kind : LifecycleKind} {i : String}

private theorem EmitRequest.stage_of_stageOf
    {stage : LifecycleStage} (h : r.stageOf kind i = some stage) :
    r.eventType.stage = some (kind, stage) ∧ r.identifier kind = some i := by
  unfold stageOf at h
  cases hs : r.eventType.stage with
  | none =>
    rw [hs] at h
    cases h
  | some p =>
    obtain ⟨k, st⟩ := p
    rw [hs] at h
    dsimp only at h
    split at h
    next hk =>
      cases h
      rw [hk.1]
      exact ⟨rfl, hk.2⟩
    · cases h

private theorem Delivering.terminalRequest (h : Delivering s)
    (he : e ∈ s.delivered) (hstage : e.stageOf kind i = some .started) :
    ∃ r : EmitRequest, r.stageOf kind i = some .terminal ∧ (s.emitter.fields r).Valid := by
  obtain ⟨htype, hidentifier⟩ := EmitRequest.stage_of_stageOf hstage
  let r : EmitRequest := { e.toEmitRequest with eventType := kind.completed }
  have hr : r.eventType.stage = some (kind, .terminal) := kind.stage_completed
  have hsame : r.identifier kind = some i := by
    cases kind <;> exact hidentifier
  obtain ⟨hsession, hworkspace⟩ := h.session e (List.mem_append_left _ he)
  obtain ⟨_, hs, hw, hthread, hturn, hoperation, hclient, hidentity⟩ := e.valid
  rw [hsession] at hs
  rw [hworkspace] at hw
  refine ⟨r, ?_, ⟨Nat.succ_pos _, h.bound⟩, hs, hw, hthread, hturn, hoperation, hclient, ?_⟩
  · unfold EmitRequest.stageOf
    rw [hr]
    exact if_pos ⟨rfl, hsame⟩
  · change r.hasIdentity = true
    unfold EmitRequest.hasIdentity at hidentity ⊢
    rw [htype] at hidentity
    rw [hr]
    cases kind <;> exact hidentity

/-- What has started can end. -/
theorem Delivering.canEnd (h : Delivering s) (hstages : stagesOf s.delivered kind i = [.started]) :
    ∃ t, Run EventSession.step (fun _ _ => True) s t ∧
      stagesOf t.delivered kind i = [.started, .terminal] ∧
      (EventStreamGuard.acceptAll t.delivered).fault = none := by
  obtain ⟨t, hrun, ht, hnone, hafter⟩ := h.settle
  have htracks := h.tracks kind i
  have hstagest := hafter kind i
  rw [hstages] at htracks hstagest
  cases hpending : s.sending.bind fun e => e.stageOf kind i with
  | some stage =>
    rw [hpending] at htracks hstagest
    cases htracks
    exact ⟨t, hrun, hstagest, by rw [ht.guard]; rfl⟩
  | none =>
    rw [hpending] at hstagest
    have hstarted := ht.tracks kind i
    rw [hstagest, hnone] at hstarted
    obtain ⟨e, he, hstage⟩ : ∃ e ∈ t.delivered, e.stageOf kind i = some .started := by
      have hmem : LifecycleStage.started ∈ stagesOf t.delivered kind i := by
        rw [hstagest]
        exact List.mem_singleton.mpr rfl
      exact List.mem_filterMap.mp hmem
    obtain ⟨r, hr, hv⟩ := ht.terminalRequest he hstage
    have hok : t.emitter.validateTransition r = .ok () := by
      obtain ⟨htype, hidentifier⟩ := EmitRequest.stage_of_stageOf hr
      cases hstarted with
      | started hs hn =>
        unfold EventEmitter.validateTransition
        rw [htype]
        dsimp only
        rw [hidentifier]
        simp only [Lifecycle.validate, if_neg hn, not_not.mpr hs, if_false]
    let m := ({ t.emitter with sequence := t.emitter.sequence + 1 }).announce r
    let last : EventEnvelope := ⟨t.emitter.fields r, hv⟩
    let called : EventSession := { t with waiting := t.waiting ++ [r] }
    let entered : EventSession :=
      ⟨m, (t.waiting ++ [r]).eraseIdx t.waiting.length, some last, t.delivered⟩
    let sent : EventSession :=
      ⟨m.finish last.toEmitRequest, entered.waiting, none, t.delivered ++ [last]⟩
    have hcall : t.step (.call r) = some called := rfl
    have henter : called.step (.enter t.waiting.length) = some entered := by
      have hindex : called.waiting[t.waiting.length]? = some r := by
        simp [called]
      have hsending : called.sending = none := hnone
      simp only [EventSession.step, hsending, hindex]
      rw [EventEmitter.begin_ok hok hv]
      rfl
    have hsend : entered.step (.sink .sent) = some sent := rfl
    refine ⟨sent, ((hrun.next trivial hcall).next trivial henter).next trivial hsend, ?_, ?_⟩
    · change stagesOf (t.delivered ++ [last]) kind i = _
      rw [stagesOf_concat, hstagest]
      change _ ++ (r.stageOf kind i).toList = _
      rw [hr]
      rfl
    · have hlength : last.sequence = t.delivered.length + 1 := by
        change t.emitter.sequence + 1 = _
        rw [ht.sequence, hnone]
        rfl
      have hsession : last.sessionId = t.emitter.sessionId := rfl
      change (EventStreamGuard.acceptAll (t.delivered ++ [last])).fault = none
      rw [EventStreamGuard.acceptAll_concat, ht.guard,
        EventStreamGuard.accept_after hlength hsession]
      rfl

/-- A run that delivers keeps both ends of the stream in agreement: if every request that passes
the lifecycle check makes a valid envelope and starts nothing that was forgotten, and every event
that takes a number is sent, the client accepts the stream and what has started can still end. -/
theorem stream_agrees {sessionId workspaceKey : String}
    (h : Run EventSession.step Delivers (.initial sessionId workspaceKey) s) : StreamAgrees s := by
  have hs : Delivering s :=
    h.invariant (.initial sessionId workspaceKey) fun _ _ _ hs ha hstep => hs.step ha hstep
  constructor
  · rw [hs.guard]
    rfl
  · exact fun kind i => (hs.tracks kind i).lifecycle
  · exact fun kind i hstages => hs.canEnd hstages

end Steps

section Sample

/-- A request for an event of an Operation. -/
def operationRequest (eventType : EventType) : EmitRequest :=
  ⟨eventType, none, none, some "operation", none⟩

/-- A session in which one call waits to start an Operation. -/
def calledSample : EventSession :=
  { EventSession.initial "s" "w" with waiting := [operationRequest .operationStarted] }

/-- The start of an Operation as it is sent. -/
def startedSample : EventEnvelope :=
  ⟨calledSample.emitter.fields (operationRequest .operationStarted), by decide⟩

/-- A start that the sink sends is accepted and can still end. -/
theorem stream_agrees_started :
    ∃ s t : EventSession, s.delivered = [startedSample] ∧ StreamAgrees s ∧
      Run EventSession.step (fun _ _ => True) s t ∧
      stagesOf t.delivered .operation "operation" = [.started, .terminal] := by
  let entered : EventSession :=
    ⟨{ calledSample.emitter with sequence := 1 }, [], some startedSample, []⟩
  have hcall : (EventSession.initial "s" "w").step
      (.call (operationRequest .operationStarted)) = some calledSample := rfl
  have henter : calledSample.step (.enter 0) = some entered := by decide
  have hsend : entered.step (.sink .sent) = some ⟨entered.emitter.finish
      startedSample.toEmitRequest, [], none, [startedSample]⟩ := rfl
  have hdelivers : Delivers calledSample (.enter 0) := by
    rintro r ⟨⟩ _
    exact ⟨startedSample.valid, by decide, fun _ _ _ hforgotten => List.not_mem_nil hforgotten.1⟩
  have hsent : Delivers entered (.sink .sent) := Or.inl rfl
  have hrun : Run EventSession.step Delivers (.initial "s" "w") _ :=
    ((Run.start.next (a := .call _) trivial hcall).next hdelivers henter).next hsent hsend
  have hagrees := stream_agrees hrun
  obtain ⟨t, ht, hstages, _⟩ := hagrees.canEnd .operation "operation" (by decide)
  exact ⟨_, t, rfl, hagrees, ht, hstages⟩

/-- A tool event that the sink refuses has taken a number, so the client drops the session at the
end of the Operation. -/
theorem stream_not_agrees :
    ¬∀ {sessionId workspaceKey : String} {s : EventSession},
      Run EventSession.step (fun _ _ => True) (.initial sessionId workspaceKey) s →
      StreamAgrees s := by
  intro h
  let actions : List EmitAction :=
    [.call (operationRequest .operationStarted), .enter 0, .sink .sent,
      .call (operationRequest .toolCompleted), .enter 0, .sink .refused,
      .call (operationRequest .operationCompleted), .enter 0, .sink .sent]
  obtain ⟨s, hs, hfault⟩ : ∃ s, actions.foldlM EventSession.step (.initial "s" "w") = some s ∧
      (EventStreamGuard.acceptAll s.delivered).fault =
        some "Event sequence is not contiguous" :=
    Option.map_eq_some_iff.mp (by decide)
  have hagrees := (h (Run.of_actions hs fun _ _ _ => trivial)).accepted
  rw [hfault] at hagrees
  cases hagrees

end Sample

end AwesomeAgent
