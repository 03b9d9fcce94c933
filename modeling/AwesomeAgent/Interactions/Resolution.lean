import AwesomeAgent.Interactions.Coordinator
import Mathlib.Data.List.Nodup

/-!
# Interactions resolve once and to their own waiter

A future that is not done belongs to the pending interaction, all of whose waiters share it.
So a decision reaches the waiters of its own interaction only, and the slot is emptied by a
waiter that ends or by a discard, in whatever order the calls and the event loop move.
-/

namespace AwesomeAgent

namespace InteractionCoordinator

variable {c : InteractionCoordinator} {interactionId : String}

private theorem awaits_iff :
    c.awaits interactionId = true ↔ ∃ p, c.pending = some p ∧ p.id = interactionId := by
  simp [awaits, Option.any_eq_true]

private theorem awaits_unique {other : String}
    (h : c.awaits interactionId = true) (h' : c.awaits other = true) : interactionId = other := by
  obtain ⟨p, hp, rfl⟩ := awaits_iff.1 h
  obtain ⟨q, hq, rfl⟩ := awaits_iff.1 h'
  rw [Option.some.inj (hp.symm.trans hq)]

private theorem allows_iff {decision : InteractionDecision} :
    c.allows interactionId decision = true ↔
      ∃ p, c.pending = some p ∧ p.id = interactionId ∧
        decision ∈ p.choices.map (·.decision) := by
  simp [allows, Option.any_eq_true]

private theorem create_eq_ok {c' : InteractionCoordinator} {hex : String}
    {request : InteractionRequest} (h : c.create hex request = .ok c') :
    c.pending = none ∧ c'.future = none ∧ c'.resolved = none ∧
      ∃ p, c'.pending = some p ∧ p.toInteractionRequest = request ∧
        p.id = "interaction_" ++ hex := by
  unfold create at h
  split at h
  · cases h
  · next hpending =>
    split at h
    · split at h
      · cases h
      · cases h
        exact ⟨by simpa using hpending, rfl, rfl, _, rfl, rfl, rfl⟩
    · cases h

private theorem release_of_awaits
    (h : c.awaits interactionId = true) : c.release interactionId = c.clear := by
  rw [release, if_pos h]

private theorem release_of_not (h : ¬ c.awaits interactionId = true) : c.release interactionId = c
    := by
  rw [release, if_neg h]

private theorem release_pending {p : PendingInteraction}
    (h : (c.release interactionId).pending = some p) :
    c.pending = some p ∧ p.id ≠ interactionId ∧ c.release interactionId = c := by
  by_cases hc : c.awaits interactionId = true
  · rw [release_of_awaits hc] at h
    cases h
  · rw [release_of_not hc] at h ⊢
    exact ⟨h, fun hid => hc (awaits_iff.2 ⟨p, h, hid⟩), rfl⟩

private theorem not_awaits_release (c : InteractionCoordinator) (interactionId : String) :
    (c.release interactionId).awaits interactionId = false := by
  by_contra hc
  obtain ⟨p, hp, hid⟩ := awaits_iff.1 (Bool.not_eq_false _ ▸ hc)
  exact (release_pending hp).2.1 hid

end InteractionCoordinator

namespace InteractionSystem

open InteractionCoordinator

/-- What a future is when a waiter is suspended on it. -/
inductive Awaited (s : InteractionSystem) (w : InteractionWaiter) : Prop
  | waiting : s.futures[w.future]? = some .waiting →
      s.coordinator.awaits w.interactionId = true → Awaited s w
  | result (d : InteractionDecision) : s.futures[w.future]? = some (.result d) →
      (w.interactionId, d) ∈ s.answers → Awaited s w
  | cancelled : s.futures[w.future]? = some .cancelled →
      (∀ d, (w.interactionId, d) ∉ s.answers) → w.interactionId ∈ s.cancellations → Awaited s w

private theorem Awaited.keeps {s s' : InteractionSystem} {w : InteractionWaiter} (h : s.Awaited w)
    (hfuture : s'.futures[w.future]? = s.futures[w.future]?)
    (hawaits : s.coordinator.awaits w.interactionId = true →
      s'.coordinator.awaits w.interactionId = true) (hanswers : s'.answers = s.answers)
    (hcancelled : s.cancellations ⊆ s'.cancellations) : s'.Awaited w := by
  cases h with
  | waiting hd hown => exact .waiting (hfuture.trans hd) (hawaits hown)
  | result d hd hanswer => exact .result d (hfuture.trans hd) (hanswers ▸ hanswer)
  | cancelled hd hnone hlost =>
    exact .cancelled (hfuture.trans hd) (hanswers ▸ hnone) (hcancelled hlost)

/-- What holds of the system in every order of its steps. -/
structure Lawful (s : InteractionSystem) : Prop where
  distinct : (s.requests.map (·.id)).Nodup
  slot : ∀ p, s.coordinator.pending = some p → p ∈ s.requests
  idle : s.coordinator.pending = none → s.coordinator.future = none
  resolved : ∀ p, s.coordinator.pending = some p →
    ∀ d, s.coordinator.resolved = some d ↔ (p.id, d) ∈ s.answers
  linked : ∀ f, s.coordinator.future = some f → ∃ future, s.futures[f]? = some future ∧
    ∀ d, future = .result d ↔ s.coordinator.resolved = some d
  offered : ∀ answer ∈ s.answers, ∃ p ∈ s.requests, p.id = answer.1 ∧
    answer.2 ∈ p.choices.map (·.decision)
  once : (s.answers.map Prod.fst).Nodup
  told : ∀ interactionId d, (interactionId, WaitOutcome.decision d) ∈ s.obtained →
    (interactionId, d) ∈ s.answers
  asked : ∀ w ∈ s.waiters, ∃ p ∈ s.requests, p.id = w.interactionId
  shared : ∀ w ∈ s.waiters, s.coordinator.awaits w.interactionId = true →
    s.coordinator.future = some w.future
  awaited : ∀ w ∈ s.waiters, s.Awaited w
  marked : ∀ w ∈ s.waiters, w.mustCancel = true → w.interactionId ∈ s.cancellations
  dropped : ∀ f, s.coordinator.future = some f → s.futures[f]? = some .cancelled →
    ∀ interactionId, s.coordinator.awaits interactionId = true → interactionId ∈ s.cancellations
  lost : ∀ interactionId, (interactionId, WaitOutcome.cancelledError) ∈ s.obtained →
    interactionId ∈ s.cancellations

variable {s s' : InteractionSystem} {interactionId : String} {decision : InteractionDecision}

private theorem lawful_initial : initial.Lawful where
  distinct := List.nodup_nil
  slot := fun _ h => by cases h
  idle := fun _ => rfl
  resolved := fun _ h => by cases h
  linked := fun _ h => by cases h
  offered := fun _ h => absurd h List.not_mem_nil
  once := List.nodup_nil
  told := fun _ _ h => absurd h List.not_mem_nil
  asked := fun _ h => absurd h List.not_mem_nil
  shared := fun _ h => absurd h List.not_mem_nil
  awaited := fun _ h => absurd h List.not_mem_nil
  marked := fun _ h => absurd h List.not_mem_nil
  dropped := fun _ h => by cases h
  lost := fun _ h => absurd h List.not_mem_nil

private theorem Lawful.awaits_requested (h : s.Lawful)
    (hawaits : s.coordinator.awaits interactionId = true) :
    ∃ p ∈ s.requests, p.id = interactionId := by
  obtain ⟨p, hp, hid⟩ := awaits_iff.1 hawaits
  exact ⟨p, h.slot p hp, hid⟩

variable {f index : Nat} {value : InteractionFuture} {waiter : InteractionWaiter}

private theorem Lawful.unanswered (h : s.Lawful) (hf : s.coordinator.future = some f)
    (hwaiting : s.futures[f]? = some .waiting)
    (hawaits : s.coordinator.awaits interactionId = true) (d : InteractionDecision) :
    (interactionId, d) ∉ s.answers := by
  obtain ⟨p, hp, rfl⟩ := awaits_iff.1 hawaits
  obtain ⟨future, hfuture, hresult⟩ := h.linked f hf
  intro hanswer
  have hd := (hresult d).mpr ((h.resolved p hp d).mpr hanswer)
  rw [hwaiting, hd] at hfuture
  cases hfuture

/-- A new request finds every waiter of the earlier ones suspended elsewhere. -/
theorem Lawful.create (h : s.Lawful) {hex : String} {request : InteractionRequest}
    (hfresh : ∀ p ∈ s.requests, p.id ≠ "interaction_" ++ hex) :
    (s.create hex request).2.Lawful := by
  unfold InteractionSystem.create
  split
  · exact h
  · next coordinator hcreate =>
    obtain ⟨hempty, hfuture, hresolved, p, hp, -, hid⟩ := create_eq_ok hcreate
    have hold : ∀ id, s.coordinator.awaits id = false := by
      intro id
      simp [awaits, hempty]
    have hnew : ∀ q ∈ s.requests, q.id ≠ p.id := fun q hq => hid ▸ hfresh q hq
    simp only [hp, Option.toList_some]
    exact {
      distinct := by
        rw [List.map_append, List.map_singleton, List.nodup_append]
        refine ⟨h.distinct, List.pairwise_singleton _ _, ?_⟩
        intro a ha b hb
        obtain ⟨q, hq, rfl⟩ := List.mem_map.mp ha
        rw [List.mem_singleton.mp hb]
        exact hnew q hq
      slot := fun q hq => by
        obtain rfl := Option.some.inj (hp.symm.trans hq)
        exact List.mem_append_right _ (List.mem_singleton_self _)
      idle := fun hnone => by
        cases hp.symm.trans hnone
      resolved := fun q hq d => by
        obtain rfl := Option.some.inj (hp.symm.trans hq)
        constructor
        · intro hd
          cases hresolved.symm.trans hd
        · intro hanswer
          obtain ⟨r, hr, hrid, -⟩ := h.offered _ hanswer
          exact absurd hrid (hnew r hr)
      linked := fun f hf => by
        cases hfuture.symm.trans hf
      offered := fun answer hanswer => by
        obtain ⟨q, hq, hrest⟩ := h.offered answer hanswer
        exact ⟨q, List.mem_append_left _ hq, hrest⟩
      once := h.once
      told := h.told
      asked := fun w hw => by
        obtain ⟨q, hq, hrest⟩ := h.asked w hw
        exact ⟨q, List.mem_append_left _ hq, hrest⟩
      shared := fun w hw hawaits => by
        obtain ⟨q, hq, hqid⟩ := awaits_iff.1 hawaits
        obtain rfl := Option.some.inj (hp.symm.trans hq)
        obtain ⟨r, hr, hrid⟩ := h.asked w hw
        exact absurd (hrid.trans hqid.symm) (hnew r hr)
      awaited := fun w hw => (h.awaited w hw).keeps rfl
        (fun hawaits => by rw [hold] at hawaits; cases hawaits) rfl (List.Subset.refl _)
      marked := h.marked
      dropped := fun f hf => by
        cases hfuture.symm.trans hf
      lost := h.lost }

private theorem not_futureDone (h : s.futureDone = false) (hf : s.coordinator.future = some f) :
    s.futures[f]? = some .waiting := by
  simpa [futureDone, hf] using h

private theorem settle_self {old : InteractionFuture} (hf : s.coordinator.future = some f)
    (h : s.futures[f]? = some old) : (s.settle value)[f]? = some value := by
  have hlt : f < s.futures.length := (List.getElem?_eq_some_iff.mp h).1
  simp only [settle, hf]
  exact List.getElem?_set_self hlt

private theorem settle_of_ne (hf : s.coordinator.future ≠ some f) :
    (s.settle value)[f]? = s.futures[f]? := by
  unfold settle
  split
  · rfl
  · next future hfuture =>
    apply List.getElem?_set_ne
    rintro rfl
    exact hf hfuture

private theorem resolve_cases (interactionId : String) (decision : InteractionDecision)
    (s : InteractionSystem) : s.resolve interactionId decision = (false, s) ∨
      s.coordinator.allows interactionId decision = true ∧ s.coordinator.resolved = none ∧
      s.futureDone = false ∧ s.resolve interactionId decision = (true, { s with
        coordinator := { s.coordinator with resolved := some decision }
        futures := s.settle (.result decision)
        answers := s.answers ++ [(interactionId, decision)] }) := by
  unfold resolve
  split
  · exact .inl rfl
  · next hallows =>
    split
    · exact .inl rfl
    · next hdone =>
      simp only [Bool.or_eq_true, Bool.not_eq_true', not_or, Bool.not_eq_false,
        Bool.not_eq_true, Option.isSome_eq_false_iff, Option.isNone_iff_eq_none] at hallows hdone
      exact .inr ⟨hallows.1, hallows.2, hdone, rfl⟩

/-- A decision reaches the waiters of its own interaction. -/
theorem Lawful.resolve (h : s.Lawful) (interactionId : String) (decision : InteractionDecision) :
    (s.resolve interactionId decision).2.Lawful := by
  rcases resolve_cases interactionId decision s with hr | ⟨hallows, hnone, hdone, hr⟩ <;> rw [hr]
  · exact h
  obtain ⟨p, hp, rfl, hchoice⟩ := allows_iff.1 hallows
  have hown : ∀ id, s.coordinator.awaits id = true → id = p.id := by
    intro id hid
    obtain ⟨q, hq, rfl⟩ := awaits_iff.1 hid
    rw [Option.some.inj (hp.symm.trans hq)]
  have hpending : s.coordinator.awaits p.id = true := awaits_iff.2 ⟨p, hp, rfl⟩
  have hfree : ∀ d, (p.id, d) ∉ s.answers := by
    intro d hanswer
    cases hnone.symm.trans ((h.resolved p hp d).mpr hanswer)
  exact {
    distinct := h.distinct
    slot := h.slot
    idle := h.idle
    resolved := fun q hq d => by
      obtain rfl := Option.some.inj (hp.symm.trans hq)
      simp only [List.mem_append, List.mem_singleton, Prod.mk.injEq, true_and, hfree, false_or,
        Option.some.injEq]
      exact eq_comm
    linked := fun f hf => by
      refine ⟨_, settle_self hf (not_futureDone hdone hf), fun d => ?_⟩
      simp
    offered := fun answer hanswer => by
      rcases List.mem_append.mp hanswer with hanswer | hanswer
      · exact h.offered answer hanswer
      · rw [List.mem_singleton.mp hanswer]
        exact ⟨p, h.slot p hp, rfl, hchoice⟩
    once := by
      rw [List.map_append, List.map_singleton, List.nodup_append]
      refine ⟨h.once, List.pairwise_singleton _ _, ?_⟩
      intro a ha b hb
      obtain ⟨answer, hanswer, rfl⟩ := List.mem_map.mp ha
      rw [List.mem_singleton.mp hb]
      rintro hid
      have hfst : answer.1 = p.id := hid
      exact hfree answer.2 (hfst ▸ hanswer)
    told := fun id d ho => List.mem_append_left _ (h.told id d ho)
    asked := h.asked
    shared := h.shared
    awaited := fun w hw => by
      by_cases hf : s.coordinator.future = some w.future
      · have hwaiting := not_futureDone hdone hf
        cases h.awaited w hw with
        | waiting _ hawaits =>
          refine .result decision (settle_self hf hwaiting) (List.mem_append_right _ ?_)
          rw [hown _ hawaits]
          exact List.mem_singleton_self _
        | result d hd _ => cases hwaiting.symm.trans hd
        | cancelled hd _ _ => cases hwaiting.symm.trans hd
      · have hkept : (s.settle (.result decision))[w.future]? = s.futures[w.future]? :=
          settle_of_ne hf
        cases h.awaited w hw with
        | waiting _ hawaits => exact absurd (h.shared w hw hawaits) hf
        | result d hd hanswer => exact .result d (hkept.trans hd) (List.mem_append_left _ hanswer)
        | cancelled hd hnone hlost =>
          refine .cancelled (hkept.trans hd) (fun d hanswer => ?_) hlost
          rcases List.mem_append.mp hanswer with hanswer | hanswer
          · exact hnone d hanswer
          · obtain ⟨hid, -⟩ := Prod.mk.inj (List.mem_singleton.mp hanswer)
            exact hf (h.shared w hw (hid ▸ hpending))
    marked := h.marked
    dropped := fun f hf hcancelled => by
      have hslot : s.coordinator.future = some f := hf
      have hset : (s.settle (.result decision))[f]? = some (.result decision) :=
        settle_self hslot (not_futureDone hdone hslot)
      cases hset.symm.trans hcancelled
    lost := h.lost }

private theorem discard_keeps (h : s.futures[f]? = some value) (hvalue : value ≠ .waiting) :
    (if s.futureDone then s.futures else s.settle .cancelled)[f]? = some value := by
  split
  · exact h
  · next hdone =>
    rw [settle_of_ne, h]
    intro hf
    have hwaiting := not_futureDone (Bool.not_eq_true _ ▸ hdone) hf
    exact hvalue (Option.some.inj (h.symm.trans hwaiting))

private theorem Lawful.discard (h : s.Lawful) (interactionId : String) :
    (s.discard interactionId).2.Lawful := by
  unfold InteractionSystem.discard
  split
  · next hawaits =>
    exact {
      distinct := h.distinct
      slot := fun p hp => by cases hp
      idle := fun _ => rfl
      resolved := fun p hp => by cases hp
      linked := fun f hf => by cases hf
      offered := h.offered
      once := h.once
      told := h.told
      asked := h.asked
      shared := fun w _ hw => by cases hw
      awaited := fun w hw => by
        cases h.awaited w hw with
        | waiting hwaiting hown =>
          have hf := h.shared w hw hown
          have hdone : s.futureDone = false := by
            simp [futureDone, hf, hwaiting]
          refine .cancelled ?_ (h.unanswered hf hwaiting hown) ?_
          · simp only [hdone, Bool.false_eq_true, if_false]
            exact settle_self hf hwaiting
          · rw [awaits_unique hown hawaits]
            exact List.mem_append_right _ List.mem_cons_self
        | result d hd hanswer => exact .result d (discard_keeps hd (by simp)) hanswer
        | cancelled hd hnone hlost =>
          exact .cancelled (discard_keeps hd (by simp)) hnone (List.mem_append_left _ hlost)
      marked := fun w hw hmust => List.mem_append_left _ (h.marked w hw hmust)
      dropped := fun f hf => by cases hf
      lost := fun id ho => List.mem_append_left _ (h.lost id ho) }
  · exact h

/-- The end of a call, whose interaction no longer has a future under way. -/
theorem Lawful.endWait (h : s.Lawful) {outcome : WaitOutcome}
    (hdone : s.coordinator.awaits interactionId = true →
      ∀ f, s.coordinator.future = some f → s.futures[f]? ≠ some .waiting)
    (htold : ∀ d, outcome = .decision d → (interactionId, d) ∈ s.answers)
    (hlost : outcome = .cancelledError → interactionId ∈ s.cancellations) :
    (s.endWait interactionId outcome).Lawful where
  distinct := h.distinct
  slot := fun p hp => h.slot p (release_pending hp).1
  idle := by
    intro hnone
    by_cases hc : s.coordinator.awaits interactionId = true
    · change (s.coordinator.release interactionId).future = none
      rw [release_of_awaits hc]
      rfl
    · change (s.coordinator.release interactionId).future = none
      change (s.coordinator.release interactionId).pending = none at hnone
      rw [release_of_not hc] at hnone ⊢
      exact h.idle hnone
  resolved := by
    intro p hp d
    obtain ⟨hold, -, hkept⟩ := release_pending hp
    change (s.coordinator.release interactionId).resolved = some d ↔ _
    rw [hkept]
    exact h.resolved p hold d
  linked := by
    intro f hf
    change (s.coordinator.release interactionId).future = some f at hf
    by_cases hc : s.coordinator.awaits interactionId = true
    · rw [release_of_awaits hc] at hf
      cases hf
    · change ∃ future, s.futures[f]? = some future ∧ ∀ d, future = .result d ↔
        (s.coordinator.release interactionId).resolved = some d
      rw [release_of_not hc] at hf ⊢
      exact h.linked f hf
  offered := h.offered
  once := h.once
  told := by
    intro id d ho
    rcases List.mem_append.mp ho with ho | ho
    · exact h.told id d ho
    · obtain ⟨rfl, rfl⟩ := Prod.mk.inj (List.mem_singleton.mp ho)
      exact htold d rfl
  asked := h.asked
  shared := by
    intro w hw hawaits
    obtain ⟨p, hp, hid⟩ := awaits_iff.1 hawaits
    obtain ⟨hold, -, hkept⟩ := release_pending hp
    change (s.coordinator.release interactionId).future = _
    rw [hkept]
    exact h.shared w hw (awaits_iff.2 ⟨p, hold, hid⟩)
  awaited := by
    intro w hw
    cases h.awaited w hw with
    | result d hd hanswer => exact .result d hd hanswer
    | cancelled hd hnone hlost => exact .cancelled hd hnone hlost
    | waiting hwaiting hawaits =>
      refine .waiting hwaiting ?_
      change (s.coordinator.release interactionId).awaits w.interactionId = true
      rw [release_of_not]
      · exact hawaits
      intro hc
      exact hdone hc w.future (h.shared w hw hawaits) hwaiting
  marked := h.marked
  dropped := by
    intro f hf hcancelled id hawaits
    obtain ⟨p, hp, hid⟩ := awaits_iff.1 hawaits
    obtain ⟨hold, -, hkept⟩ := release_pending hp
    change (s.coordinator.release interactionId).future = some f at hf
    rw [hkept] at hf
    exact h.dropped f hf hcancelled id (awaits_iff.2 ⟨p, hold, hid⟩)
  lost := by
    intro id ho
    rcases List.mem_append.mp ho with ho | ho
    · exact h.lost id ho
    · obtain ⟨rfl, rfl⟩ := Prod.mk.inj (List.mem_singleton.mp ho)
      exact hlost rfl

private theorem Lawful.without (h : s.Lawful) {waiters : List InteractionWaiter}
    (hw : ∀ w ∈ waiters, w ∈ s.waiters) : { s with waiters := waiters }.Lawful where
  distinct := h.distinct
  slot := h.slot
  idle := h.idle
  resolved := h.resolved
  linked := h.linked
  offered := h.offered
  once := h.once
  told := h.told
  asked := fun w hmem => h.asked w (hw w hmem)
  shared := fun w hmem => h.shared w (hw w hmem)
  awaited := fun w hmem => (h.awaited w (hw w hmem)).keeps rfl id rfl (List.Subset.refl _)
  marked := fun w hmem => h.marked w (hw w hmem)
  dropped := h.dropped
  lost := h.lost

private theorem Lawful.answered (h : s.Lawful) {d : InteractionDecision}
    (hawaits : s.coordinator.awaits interactionId = true)
    (hf : s.coordinator.future = some f) (hd : s.futures[f]? = some (.result d)) :
    (interactionId, d) ∈ s.answers := by
  obtain ⟨p, hp, rfl⟩ := awaits_iff.1 hawaits
  obtain ⟨future, hfuture, hresult⟩ := h.linked f hf
  obtain rfl := Option.some.inj (hd.symm.trans hfuture)
  exact (h.resolved p hp d).mp ((hresult d).mp rfl)

/-- A call that awaits the future of its interaction. -/
theorem Lawful.await (h : s.Lawful) (hawaits : s.coordinator.awaits interactionId = true)
    (hf : s.coordinator.future = some f) : (s.await interactionId f).Lawful := by
  have hfuture : ∀ {g : Nat}, s.coordinator.future = some g → g = f := by
    intro g hg
    exact Option.some.inj (hg.symm.trans hf)
  unfold InteractionSystem.await
  split
  · next d hd =>
    apply h.endWait
    · intro _ g hg
      rw [hfuture hg, hd]
      exact fun hc => by cases hc
    · intro d' he
      cases he
      exact h.answered hawaits hf hd
    · intro he
      cases he
  · next hd =>
    apply h.endWait
    · intro _ g hg
      rw [hfuture hg, hd]
      exact fun hc => by cases hc
    · intro d he
      cases he
    · exact fun _ => h.dropped f hf hd interactionId hawaits
  · next hresult hcancelled =>
    have hwaiting : s.futures[f]? = some .waiting := by
      obtain ⟨future, hold, -⟩ := h.linked f hf
      cases future with
      | waiting => exact hold
      | result d => exact absurd hold (hresult d)
      | cancelled => exact absurd hold hcancelled
    exact {
      distinct := h.distinct
      slot := h.slot
      idle := h.idle
      resolved := h.resolved
      linked := h.linked
      offered := h.offered
      once := h.once
      told := h.told
      asked := fun w hw => by
        rcases List.mem_append.mp hw with hw | hw
        · exact h.asked w hw
        · rw [List.mem_singleton.mp hw]
          exact h.awaits_requested hawaits
      shared := fun w hw hown => by
        rcases List.mem_append.mp hw with hw | hw
        · exact h.shared w hw hown
        · rw [List.mem_singleton.mp hw]
          exact hf
      awaited := fun w hw => by
        rcases List.mem_append.mp hw with hw | hw
        · exact (h.awaited w hw).keeps rfl id rfl (List.Subset.refl _)
        · rw [List.mem_singleton.mp hw]
          exact .waiting hwaiting hawaits
      marked := fun w hw hmust => by
        rcases List.mem_append.mp hw with hw | hw
        · exact h.marked w hw hmust
        · rw [List.mem_singleton.mp hw] at hmust
          cases hmust
      dropped := h.dropped
      lost := h.lost }

private theorem Lawful.withFuture (h : s.Lawful)
    (hawaits : s.coordinator.awaits interactionId = true)
    (hnone : s.coordinator.resolved = none) (hfuture : s.coordinator.future = none) :
    { s with
      coordinator := { s.coordinator with future := some s.futures.length }
      futures := s.futures ++ [InteractionFuture.waiting] }.Lawful where
  distinct := h.distinct
  slot := h.slot
  idle := by
    intro hempty
    obtain ⟨p, hp, -⟩ := awaits_iff.1 hawaits
    cases hp.symm.trans hempty
  resolved := h.resolved
  linked := by
    intro f hf
    obtain rfl := Option.some.inj hf
    refine ⟨_, List.getElem?_concat_length, fun d => ?_⟩
    simp [hnone]
  offered := h.offered
  once := h.once
  told := h.told
  asked := h.asked
  shared := by
    intro w hw hown
    cases hfuture.symm.trans (h.shared w hw hown)
  awaited := by
    intro w hw
    have hlt : w.future < s.futures.length := by
      cases h.awaited w hw with
      | waiting hd _ => exact (List.getElem?_eq_some_iff.mp hd).1
      | result _ hd _ => exact (List.getElem?_eq_some_iff.mp hd).1
      | cancelled hd _ _ => exact (List.getElem?_eq_some_iff.mp hd).1
    exact (h.awaited w hw).keeps (List.getElem?_append_left hlt) id rfl (List.Subset.refl _)
  marked := h.marked
  dropped := by
    intro f hf hcancelled
    obtain rfl := Option.some.inj hf
    cases List.getElem?_concat_length.symm.trans hcancelled
  lost := h.lost

/-- A call of `wait`. -/
theorem Lawful.wait (h : s.Lawful) (interactionId : String) : (s.wait interactionId).Lawful := by
  unfold InteractionSystem.wait
  split
  · next hawaits =>
    split
    · next d hd =>
      obtain ⟨p, hp, hid⟩ := awaits_iff.1 hawaits
      apply h.endWait
      · intro _ f hf hwaiting
        obtain ⟨future, hfuture, hresult⟩ := h.linked f hf
        rw [hwaiting, (hresult d).mpr hd] at hfuture
        cases hfuture
      · intro d' he
        cases he
        rw [← hid]
        exact (h.resolved p hp d).mp hd
      · intro he
        cases he
    · next hnone =>
      split
      · next f hf => exact h.await hawaits hf
      · next hfuture => exact (h.withFuture hawaits hnone hfuture).await hawaits rfl
  · exact {
      distinct := h.distinct
      slot := h.slot
      idle := h.idle
      resolved := h.resolved
      linked := h.linked
      offered := h.offered
      once := h.once
      told := fun id d ho => by
        rcases List.mem_append.mp ho with ho | ho
        · exact h.told id d ho
        · cases List.mem_singleton.mp ho
      asked := h.asked
      shared := h.shared
      awaited := fun w hw => (h.awaited w hw).keeps rfl id rfl (List.Subset.refl _)
      marked := h.marked
      dropped := h.dropped
      lost := fun id ho => by
        rcases List.mem_append.mp ho with ho | ho
        · exact h.lost id ho
        · cases List.mem_singleton.mp ho }

/-- The cancellation of a suspended call. -/
theorem Lawful.cancelTask (h : s.Lawful)
    (hw : s.waiters[index]? = some waiter) : (s.cancelTask index waiter).Lawful := by
  have hmem : waiter ∈ s.waiters := List.mem_of_getElem? hw
  unfold InteractionSystem.cancelTask
  split
  · next hwaiting =>
    have hlt : waiter.future < s.futures.length := (List.getElem?_eq_some_iff.mp hwaiting).1
    have hset := List.getElem?_set_self (a := InteractionFuture.cancelled) hlt
    have hawaits : s.coordinator.awaits waiter.interactionId = true := by
      cases h.awaited waiter hmem with
      | waiting _ hawaits => exact hawaits
      | result d hd _ => cases hwaiting.symm.trans hd
      | cancelled hd _ _ => cases hwaiting.symm.trans hd
    exact {
      distinct := h.distinct
      slot := h.slot
      idle := h.idle
      resolved := h.resolved
      linked := fun f hf => by
        obtain ⟨future, hold, hresult⟩ := h.linked f hf
        by_cases he : waiter.future = f
        · subst he
          obtain rfl := Option.some.inj (hwaiting.symm.trans hold)
          refine ⟨.cancelled, hset, fun d => ?_⟩
          rw [← hresult d]
          simp
        · exact ⟨future, (List.getElem?_set_ne he).trans hold, hresult⟩
      offered := h.offered
      once := h.once
      told := h.told
      asked := h.asked
      shared := h.shared
      awaited := fun w hw => by
        by_cases he : waiter.future = w.future
        · have hown := he ▸ hwaiting
          cases h.awaited w hw with
          | waiting _ hw' =>
            refine .cancelled (he ▸ hset) (h.unanswered (h.shared w hw hw') hown hw') ?_
            rw [awaits_unique hw' hawaits]
            exact List.mem_append_right _ List.mem_cons_self
          | result d hd _ => cases hown.symm.trans hd
          | cancelled hd _ _ => cases hown.symm.trans hd
        · exact (h.awaited w hw).keeps (List.getElem?_set_ne he) id rfl
            (List.subset_append_left _ _)
      marked := fun w hw hmust => List.mem_append_left _ (h.marked w hw hmust)
      dropped := fun _ _ _ id hid => by
        rw [awaits_unique hid hawaits]
        exact List.mem_append_right _ List.mem_cons_self
      lost := fun id ho => List.mem_append_left _ (h.lost id ho) }
  · have hwaiters : ∀ w ∈ s.waiters.set index { waiter with mustCancel := true },
        ∃ w' ∈ s.waiters, w'.interactionId = w.interactionId ∧ w'.future = w.future := by
      intro w hw
      rcases List.mem_or_eq_of_mem_set hw with hw | rfl
      · exact ⟨w, hw, rfl, rfl⟩
      · exact ⟨waiter, hmem, rfl, rfl⟩
    exact {
      distinct := h.distinct
      slot := h.slot
      idle := h.idle
      resolved := h.resolved
      linked := h.linked
      offered := h.offered
      once := h.once
      told := h.told
      asked := fun w hw => by
        obtain ⟨w', hw', hid, -⟩ := hwaiters w hw
        exact hid ▸ h.asked w' hw'
      shared := fun w hw hown => by
        obtain ⟨w', hw', hid, hfuture⟩ := hwaiters w hw
        rw [← hfuture]
        exact h.shared w' hw' (hid ▸ hown)
      awaited := fun w hw => by
        obtain ⟨w', hw', hid, hfuture⟩ := hwaiters w hw
        cases h.awaited w' hw' with
        | waiting hd hawaits => exact .waiting (hfuture ▸ hd) (hid ▸ hawaits)
        | result d hd hanswer => exact .result d (hfuture ▸ hd) (hid ▸ hanswer)
        | cancelled hd hnone hlost =>
          exact .cancelled (hfuture ▸ hd) (hid ▸ hnone) (List.mem_append_left _ (hid ▸ hlost))
      marked := fun w hw hmust => by
        rcases List.mem_or_eq_of_mem_set hw with hw | rfl
        · exact List.mem_append_left _ (h.marked w hw hmust)
        · exact List.mem_append_right _ List.mem_cons_self
      dropped := fun f hf hcancelled id hid =>
        List.mem_append_left _ (h.dropped f hf hcancelled id hid)
      lost := fun id ho => List.mem_append_left _ (h.lost id ho) }

private theorem resume_cases (h : s.resume index waiter = some s') : ∃ outcome,
      s' = { s with waiters := s.waiters.eraseIdx index }.endWait waiter.interactionId outcome ∧
      s.futures[waiter.future]? ≠ some .waiting ∧
      (∀ d, outcome = .decision d → s.futures[waiter.future]? = some (.result d)) ∧
      (outcome = .cancelledError → waiter.mustCancel = true ∨
        s.futures[waiter.future]? = some .cancelled) := by
  unfold InteractionSystem.resume at h
  split at h
  · next d hd =>
    refine ⟨_, (Option.some.inj h).symm, ?_, ?_, ?_⟩
    · rw [hd]
      exact fun hc => by cases hc
    · intro d' he
      split at he
      · cases he
      · cases he
        exact hd
    · intro he
      split at he
      · next hmust => exact .inl hmust
      · cases he
  · next hd =>
    refine ⟨_, (Option.some.inj h).symm, ?_, ?_, fun _ => .inr hd⟩
    · rw [hd]
      exact fun hc => by cases hc
    · intro d he
      cases he
  · cases h

private theorem Lawful.resume (h : s.Lawful)
    (hw : s.waiters[index]? = some waiter) (hr : s.resume index waiter = some s') :
    s'.Lawful := by
  obtain ⟨outcome, rfl, hdone, hresult, hcancelled⟩ := resume_cases hr
  have hmem : waiter ∈ s.waiters := List.mem_of_getElem? hw
  apply (h.without fun w hw => List.mem_of_mem_eraseIdx hw).endWait
  · intro hawaits f hf
    rw [← Option.some.inj ((h.shared waiter hmem hawaits).symm.trans hf)]
    exact hdone
  · intro d hd
    cases h.awaited waiter hmem with
    | waiting hwaiting _ => exact absurd hwaiting hdone
    | result d' hd' hanswer =>
      cases hd'.symm.trans (hresult d hd)
      exact hanswer
    | cancelled hc _ _ => cases hc.symm.trans (hresult d hd)
  · intro he
    rcases hcancelled he with hmust | hc
    · exact h.marked waiter hmem hmust
    · cases h.awaited waiter hmem with
      | waiting hd _ => cases hd.symm.trans hc
      | result d hd _ => cases hd.symm.trans hc
      | cancelled _ _ hlost => exact hlost

private theorem Lawful.step (h : s.Lawful) {action : Action} (hfresh : Fresh s action)
    (hs : step s action = some s') : s'.Lawful := by
  cases action with
  | create hex request =>
    cases hs
    exact h.create hfresh
  | wait id =>
    cases hs
    exact h.wait id
  | resolve id d =>
    cases hs
    exact h.resolve id d
  | cancelPending =>
    cases hs
    unfold InteractionSystem.cancelPending
    split
    · exact h
    · exact h.resolve _ _
  | discard id =>
    cases hs
    exact h.discard id
  | cancelTask index =>
    obtain ⟨waiter, hw, rfl⟩ := Option.map_eq_some_iff.mp hs
    exact h.cancelTask hw
  | resume index =>
    obtain ⟨waiter, hw, hr⟩ := Option.bind_eq_some_iff.mp hs
    exact h.resume hw hr

private theorem Reached.lawful (h : Reached s) : s.Lawful :=
  h.invariant lawful_initial fun _ _ _ hs hfresh ha => hs.step hfresh ha

private theorem resume_answered (h : s.Lawful) (hw : s.waiters[index]? = some waiter)
    (hanswer : (waiter.interactionId, decision) ∈ s.answers) :
    ∃ t, step s (.resume index) = some t ∧ t.obtained = s.obtained ++ [(waiter.interactionId,
      if waiter.mustCancel then .cancelledError else .decision decision)] := by
  have hmem : waiter ∈ s.waiters := List.mem_of_getElem? hw
  have hd : s.futures[waiter.future]? = some (.result decision) := by
    cases h.awaited waiter hmem with
    | waiting hwaiting hawaits =>
      exact absurd hanswer (h.unanswered (h.shared waiter hmem hawaits) hwaiting hawaits decision)
    | result d hd hown =>
      have he := List.inj_on_of_nodup_map h.once hown hanswer rfl
      rw [hd, (Prod.mk.inj he).2]
    | cancelled _ hnone _ => exact absurd hanswer (hnone decision)
  exact ⟨{ s with waiters := s.waiters.eraseIdx index }.endWait waiter.interactionId
    (if waiter.mustCancel then .cancelledError else .decision decision),
    Option.bind_eq_some_iff.mpr ⟨waiter, hw, by rw [InteractionSystem.resume, hd]⟩, rfl⟩

private theorem wait_answered (h : s.Lawful) (hawaits : s.coordinator.awaits interactionId = true)
    (hanswer : (interactionId, decision) ∈ s.answers) :
    s.wait interactionId = s.endWait interactionId (.decision decision) := by
  obtain ⟨p, hp, rfl⟩ := awaits_iff.1 hawaits
  have hresolved := (h.resolved p hp decision).mpr hanswer
  rw [InteractionSystem.wait, if_pos hawaits]
  simp only [hresolved]

private theorem resume_cancelled (h : s.Lawful) (hw : s.waiters[index]? = some waiter) :
    ∃ t u, step s (.cancelTask index) = some t ∧ step t (.resume index) = some u ∧
      u.obtained = s.obtained ++ [(waiter.interactionId, .cancelledError)] ∧
      u.coordinator.awaits waiter.interactionId = false := by
  have hmem : waiter ∈ s.waiters := List.mem_of_getElem? hw
  have hlt : index < s.waiters.length := (List.getElem?_eq_some_iff.mp hw).1
  have hcancel : step s (.cancelTask index) = some (s.cancelTask index waiter) :=
    Option.map_eq_some_iff.mpr ⟨waiter, hw, rfl⟩
  have hself := List.getElem?_set_self (a := { waiter with mustCancel := true }) hlt
  refine ⟨s.cancelTask index waiter, { s.cancelTask index waiter with
    waiters := (s.cancelTask index waiter).waiters.eraseIdx index }.endWait
      waiter.interactionId .cancelledError, hcancel, ?_, ?_, not_awaits_release _ _⟩
  · cases h.awaited waiter hmem with
    | waiting hd _ =>
      have hset := List.getElem?_set_self (a := InteractionFuture.cancelled)
        (List.getElem?_eq_some_iff.mp hd).1
      rw [InteractionSystem.cancelTask, if_pos hd]
      exact Option.bind_eq_some_iff.mpr ⟨waiter, hw, by rw [InteractionSystem.resume, hset]⟩
    | result d hd _ =>
      rw [InteractionSystem.cancelTask, if_neg (by rw [hd]; simp)]
      exact Option.bind_eq_some_iff.mpr ⟨_, hself, by simp only [InteractionSystem.resume, hd]; rfl⟩
    | cancelled hd _ _ =>
      rw [InteractionSystem.cancelTask, if_neg (by rw [hd]; simp)]
      exact Option.bind_eq_some_iff.mpr ⟨_, hself, by simp only [InteractionSystem.resume, hd]⟩
  · unfold InteractionSystem.cancelTask
    split <;> rfl

/-- Interactions are resolved once and to their own waiters, and leave the slot. -/
structure ResolvesOnce (s : InteractionSystem) : Prop where
  /-- Each interaction has an identifier of its own. -/
  distinct : (s.requests.map (·.id)).Nodup
  /-- Each interaction is resolved at most once. -/
  once : (s.answers.map Prod.fst).Nodup
  /-- It is resolved with a choice it offered. -/
  offered : ∀ answer ∈ s.answers, ∃ p ∈ s.requests, p.id = answer.1 ∧
    answer.2 ∈ p.choices.map (·.decision)
  /-- A decision that a waiter obtained is that of its own interaction. -/
  told : ∀ interactionId d, (interactionId, WaitOutcome.decision d) ∈ s.obtained →
    (interactionId, d) ∈ s.answers
  /-- A suspended waiter whose interaction was resolved obtains the decision, unless its task
  has been cancelled since. -/
  resumed : ∀ index waiter d, s.waiters[index]? = some waiter →
    (waiter.interactionId, d) ∈ s.answers →
    ∃ t, step s (.resume index) = some t ∧ t.obtained = s.obtained ++ [(waiter.interactionId,
      if waiter.mustCancel then .cancelledError else .decision d)]
  /-- A waiter that comes after the decision obtains it at once. -/
  late : ∀ interactionId d, s.coordinator.awaits interactionId = true →
    (interactionId, d) ∈ s.answers →
    s.wait interactionId = s.endWait interactionId (.decision d)
  /-- A waiter ends with a cancellation only if its interaction was dropped, or a task that waits
  for it was cancelled. -/
  lost : ∀ interactionId, (interactionId, WaitOutcome.cancelledError) ∈ s.obtained →
    interactionId ∈ s.cancellations
  /-- A refused decision changes nothing. -/
  refused : ∀ interactionId d, (s.resolve interactionId d).1 = false →
    (s.resolve interactionId d).2 = s
  /-- A decision for a stale or unknown interaction is refused. -/
  stale : ∀ interactionId d, s.coordinator.awaits interactionId = false →
    (s.resolve interactionId d).1 = false
  /-- A dropped interaction leaves the slot. -/
  discarded : ∀ interactionId, (s.discard interactionId).2.coordinator.awaits interactionId = false
  /-- A waiter that ends leaves the slot. -/
  ended : ∀ index waiter t, s.waiters[index]? = some waiter → step s (.resume index) = some t →
    t.coordinator.awaits waiter.interactionId = false
  /-- A waiter whose task is cancelled can end, and leaves the slot. -/
  cancelled : ∀ index waiter, s.waiters[index]? = some waiter → ∃ t u,
    step s (.cancelTask index) = some t ∧ step t (.resume index) = some u ∧
    u.obtained = s.obtained ++ [(waiter.interactionId, .cancelledError)] ∧
    u.coordinator.awaits waiter.interactionId = false

/-- Whatever the order of requests, waits, decisions, discards and cancellations, interactions are
resolved once and to their own waiters. -/
theorem interactions_resolve_once (h : Reached s) : s.ResolvesOnce where
  distinct := h.lawful.distinct
  once := h.lawful.once
  offered := h.lawful.offered
  told := h.lawful.told
  resumed := fun _ _ _ hw hanswer => resume_answered h.lawful hw hanswer
  late := fun _ _ hawaits hanswer => wait_answered h.lawful hawaits hanswer
  lost := h.lawful.lost
  refused := by
    intro id d hr
    rcases resolve_cases id d s with hc | ⟨-, -, -, hc⟩
    · rw [hc]
    · rw [hc] at hr
      cases hr
  stale := by
    intro id d hid
    rcases resolve_cases id d s with hc | ⟨hallows, -⟩
    · rw [hc]
    · obtain ⟨p, hp, hpid, -⟩ := allows_iff.1 hallows
      rw [awaits_iff.2 ⟨p, hp, hpid⟩] at hid
      cases hid
  discarded := by
    intro id
    unfold InteractionSystem.discard
    split
    · rfl
    · next hc => exact Bool.not_eq_true _ ▸ hc
  ended := by
    intro index waiter t hw ht
    obtain ⟨waiter', hw', hr⟩ := Option.bind_eq_some_iff.mp ht
    obtain rfl := Option.some.inj (hw.symm.trans hw')
    obtain ⟨outcome, rfl, -⟩ := resume_cases hr
    exact not_awaits_release _ _
  cancelled := fun _ _ hw => resume_cancelled h.lawful hw

section Sample

instance Fresh.decidable (s : InteractionSystem) (action : Action) : Decidable (Fresh s action) :=
  match action with
  | .create hex _ =>
      inferInstanceAs (Decidable (∀ request ∈ s.requests, request.id ≠ "interaction_" ++ hex))
  | .wait _ | .resolve _ _ | .cancelPending | .discard _ | .cancelTask _ | .resume _ =>
      isTrue trivial

/-- The question whether the workspace is trusted. -/
def trustRequest : InteractionRequest where
  kind := .workspaceTrust
  prompt := "Trust workspace?"
  operation := "trust"
  target := "workspace"
  capability := none
  choices := [⟨.trust, "Yes, I trust this folder", none⟩, ⟨.deny, "No, exit", none⟩]
  threadId := none
  turnId := none
  operationId := none
  permissionGeneration := none

/-- Two waiters, a decision, the cancellation of one of them, and another request. -/
def sampleActions : List Action :=
  [.create "1" trustRequest, .wait "interaction_1", .wait "interaction_1",
    .resolve "interaction_1" .trust, .cancelTask 0, .resume 0, .create "2" trustRequest,
    .resume 0, .resolve "interaction_1" .deny, .discard "interaction_2"]

/-- The waiters of the sample. -/
theorem interactions_resolve_once_sample : ∃ s : InteractionSystem, s.ResolvesOnce ∧
    s.answers = [("interaction_1", .trust)] ∧
    s.obtained = [("interaction_1", .cancelledError), ("interaction_1", .decision .trust)] := by
  have hrun : (sampleActions.foldlM (Run.checked step Fresh) initial).map
      (fun s => (s.answers, s.obtained)) = some ([("interaction_1", .trust)],
        [("interaction_1", .cancelledError), ("interaction_1", .decision .trust)]) := by
    decide
  obtain ⟨s, hs, ht⟩ := Option.map_eq_some_iff.mp hrun
  obtain ⟨hanswers, hobtained⟩ := Prod.mk.inj ht
  exact ⟨s, interactions_resolve_once (Run.of_checked hs), hanswers, hobtained⟩

/-- A denied interaction stays in the slot until a waiter takes the answer, and so does one whose
waiter is cancelled until the waiter has run: the next request is refused. -/
theorem cancel_pending_keeps_slot :
    (∃ s, Reached s ∧ s.cancelPending.1 = true ∧
      (s.cancelPending.2.create "2" trustRequest).1 =
        .error (.interactionBusy "Another interaction is pending.")) ∧
    ∃ s t, Reached s ∧ step s (.cancelTask 0) = some t ∧
      (t.create "2" trustRequest).1 =
        .error (.interactionBusy "Another interaction is pending.") := by
  have hcreated : [Action.create "1" trustRequest].foldlM (Run.checked step Fresh) initial =
      some (initial.create "1" trustRequest).2 := by decide
  have hwaiting : [Action.create "1" trustRequest, .wait "interaction_1"].foldlM
      (Run.checked step Fresh) initial =
        some ((initial.create "1" trustRequest).2.wait "interaction_1") := by decide
  exact ⟨⟨_, Run.of_checked hcreated, by decide, by decide⟩,
    ⟨_, _, Run.of_checked hwaiting, rfl, by decide⟩⟩

end Sample

end InteractionSystem

end AwesomeAgent
