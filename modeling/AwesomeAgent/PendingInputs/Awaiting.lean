import AwesomeAgent.PendingInputs.Ledger

/-!
# Operations that are awaited

An Operation that is awaited is over only while the store still shows it, or while the effect that
is due will stop waiting for it. Together with the ledger this gives what is asked of a run.
-/

namespace AwesomeAgent.PendingInputs.Terminal

variable {s t : Terminal}

/-- What holds of an awaited Operation. -/
structure Awaits (s : Terminal) : Prop where
  latest : ∀ operation, s.awaitingOperationId.latest = some operation →
    ¬ s.IsOver operation ∨ s.Shows operation ∨ s.Clearing operation
  shown : s.effects = false → s.awaitingOperationId.updates = [] →
    ¬ (s.awaitingOperationId.shown.isSome = true ∧
      s.frame.activeOperation = s.awaitingOperationId.shown)

/-- A new terminal awaits nothing. -/
theorem awaits_initial (surroundings : Surroundings) : (initial surroundings).Awaits where
  latest _ h := by cases h
  shown _ _ h := by cases h.1

private theorem Awaits.congr (h : s.Awaits)
    (hawaiting : t.awaitingOperationId = s.awaitingOperationId)
    (heffects : t.effects = s.effects) (hframe : t.frame = s.frame)
    (hover : t.history.ended = s.history.ended ∧ t.history.origins = s.history.origins ∧
      t.surroundings.threadGeneration = s.surroundings.threadGeneration)
    (hshows : t.surroundings.activeOperation.map OperationView.id =
      s.surroundings.activeOperation.map OperationView.id) : t.Awaits where
  latest operation hoperation := by
    simp only [IsOver, Shows, Clearing, hawaiting, heffects, hframe, hover.1, hover.2.1, hover.2.2,
      hshows] at hoperation ⊢
    exact h.latest operation hoperation
  shown heffects' hupdates := by
    rw [hawaiting, hframe]
    rw [heffects] at heffects'
    rw [hawaiting] at hupdates
    exact h.shown heffects' hupdates

private theorem Awaits.submitOrQueue (h : s.Awaits) (raw : Text) : (s.submitOrQueue raw).Awaits
    := by
  unfold Terminal.submitOrQueue
  split
  · split
    · exact h.congr rfl rfl rfl ⟨rfl, rfl, rfl⟩ rfl
    · exact h
  · exact h

private theorem Awaits.recallInput (h : s.Awaits) : s.recallInput.Awaits := by
  unfold Terminal.recallInput
  split
  · exact h.congr rfl rfl rfl ⟨rfl, rfl, rfl⟩ rfl
  · exact h

private theorem Awaits.render (h : s.Awaits) (heffects : s.effects = false) : s.render.Awaits where
  latest operation hoperation := by
    rcases h.latest operation hoperation with hover | hshows | hclearing
    · exact .inl hover
    · exact .inr (.inl hshows)
    · rw [hclearing.1] at heffects
      cases heffects
  shown heffects' := by cases heffects'

private theorem drain_frame (s : Terminal) : s.drain.awaitingOperationId = s.awaitingOperationId ∧
    s.drain.frame = s.frame ∧ s.drain.surroundings = s.surroundings ∧
      s.drain.history.ended = s.history.ended ∧ s.drain.history.origins = s.history.origins := by
  unfold Terminal.drain
  split <;> exact ⟨rfl, rfl, rfl, rfl, rfl⟩

private theorem runEffects_awaiting (s : Terminal) :
    s.runEffects.awaitingOperationId.latest = none ∧
      s.runEffects.awaitingOperationId.updates ≠ [] ∨
    s.runEffects.awaitingOperationId = s.awaitingOperationId ∧
      ¬ (s.awaitingOperationId.shown.isSome = true ∧
        s.frame.activeOperation = s.awaitingOperationId.shown) := by
  have hdrain := (drain_frame s.stopAwaiting).1
  change s.stopAwaiting.drain.awaitingOperationId.latest = none ∧
      s.stopAwaiting.drain.awaitingOperationId.updates ≠ [] ∨
    s.stopAwaiting.drain.awaitingOperationId = _ ∧ _
  rw [hdrain]
  unfold stopAwaiting
  split
  · refine .inl ⟨StateHook.latest_set _ _, ?_⟩
    simp [StateHook.set]
  · next hidle => exact .inr ⟨rfl, hidle⟩

private theorem runEffects_frame (s : Terminal) : s.runEffects.effects = false ∧
    s.runEffects.frame = s.frame ∧ s.runEffects.surroundings = s.surroundings ∧
      s.runEffects.history.ended = s.history.ended ∧
        s.runEffects.history.origins = s.history.origins := by
  obtain ⟨-, hframe, hsurroundings, hended, horigins⟩ := drain_frame s.stopAwaiting
  have hstop : s.stopAwaiting.frame = s.frame ∧ s.stopAwaiting.surroundings = s.surroundings ∧
      s.stopAwaiting.history = s.history := by
    unfold stopAwaiting
    split <;> exact ⟨rfl, rfl, rfl⟩
  refine ⟨rfl, hframe.trans hstop.1, hsurroundings.trans hstop.2.1, hended.trans ?_,
    horigins.trans ?_⟩ <;> rw [hstop.2.2]

variable {operation : OperationId}

private theorem isOver_runEffects :
    s.runEffects.IsOver operation ↔ s.IsOver operation := by
  obtain ⟨-, -, hsurroundings, hended, horigins⟩ := runEffects_frame s
  unfold IsOver
  rw [hsurroundings, hended, horigins]

private theorem shows_runEffects :
    s.runEffects.Shows operation ↔ s.Shows operation := by
  unfold Shows
  rw [(runEffects_frame s).2.2.1]

private theorem Clearing.fires (h : s.Clearing operation) :
    s.awaitingOperationId.shown.isSome = true ∧
      s.frame.activeOperation = s.awaitingOperationId.shown := by
  obtain ⟨-, hshown, hframe, -⟩ := h
  rw [hshown, hframe]
  exact ⟨rfl, rfl⟩

private theorem Awaits.runEffects (h : s.Awaits) : s.runEffects.Awaits := by
  rcases runEffects_awaiting s with ⟨hnone, hupdates⟩ | ⟨hsame, hidle⟩
  · refine ⟨fun operation hoperation => ?_, fun _ hnil => absurd hnil hupdates⟩
    rw [hnone] at hoperation
    cases hoperation
  · refine ⟨fun operation hoperation => ?_, fun _ _ => ?_⟩
    · rw [hsame] at hoperation
      rw [isOver_runEffects, shows_runEffects]
      rcases h.latest operation hoperation with hover | hshows | hclearing
      · exact .inl hover
      · exact .inr (.inl hshows)
      · exact absurd hclearing.fires hidle
    · rw [hsame, (runEffects_frame s).2.1]
      exact hidle

private theorem Awaits.consume (h : s.Awaits) (item : PendingInput)
    {accepted : Option (OperationId × Nat)} (hmeets : s.Meets (.consume accepted)) :
    (s.consume item accepted).Awaits := by
  cases accepted with
  | none => exact h.congr rfl rfl rfl ⟨rfl, rfl, rfl⟩ rfl
  | some accepted =>
    obtain ⟨operation, generation⟩ := accepted
    refine ⟨fun other hother => ?_, fun _ hnil => ?_⟩
    · change (s.awaitingOperationId.set (some operation)).latest = some other at hother
      rw [StateHook.latest_set] at hother
      cases hother
      rcases hmeets with hshows | ⟨hended, hgeneration, horigins⟩
      · exact .inr (.inl hshows)
      · refine .inl fun hover => ?_
        rcases hover with hover | ⟨origin, horigin, hsame, hother⟩
        · exact hended hover
        · rcases List.mem_append.mp horigin with horigin | horigin
          · exact horigins origin horigin hsame
          · rw [List.mem_singleton.mp horigin] at hother
            exact hother hgeneration
    · change s.awaitingOperationId.updates ++ [some operation] = [] at hnil
      simp at hnil

private theorem Awaits.replace (h : s.Awaits) (activeOperation : Option OperationView)
    (hover : ∀ operation, s.awaitingOperationId.latest = some operation → s.IsOver operation →
      s.Clearing operation) :
    Terminal.Awaits { s with
      surroundings := { s.surroundings with activeOperation := activeOperation } } where
  latest operation hoperation := by
    by_cases hend : s.IsOver operation
    · exact .inr (.inr (hover operation hoperation hend))
    · exact .inl hend
  shown := h.shown

private theorem Awaits.endOperation (h : s.Awaits) {id : OperationId}
    (hmeets : s.Meets (.operationEnded id)) : (s.endOperation id).Awaits where
  latest operation hoperation := by
    have hshows : (s.endOperation id).Shows operation ↔ s.Shows operation := by
      unfold Shows Terminal.endOperation
      cases s.surroundings.activeOperation with
      | none => exact Iff.rfl
      | some view =>
        simp only [Option.map_some]
        split <;> exact Iff.rfl
    rw [hshows]
    by_cases hid : operation = id
    · rw [hid] at hoperation ⊢
      exact .inr (hmeets hoperation)
    · rcases h.latest operation hoperation with hover | hshows | hclearing
      · refine .inl fun hend => hover ?_
        rcases hend with hend | hend
        · rcases List.mem_append.mp hend with hend | hend
          · exact .inl hend
          · exact absurd (List.mem_singleton.mp hend) hid
        · exact .inr hend
      · exact .inr (.inl hshows)
      · exact .inr (.inr hclearing)
  shown := h.shown

private theorem Awaits.replaceThread (h : s.Awaits) (hmeets : s.Meets .threadReplaced)
    (ht : s.step .threadReplaced = some t) : t.Awaits := by
  cases ht
  exact ⟨fun operation hoperation => .inr (.inr (hmeets operation hoperation)), h.shown⟩

/-- A step that meets the condition keeps what holds of an awaited Operation. -/
theorem Awaits.step (h : s.Awaits) {a : TerminalAction} (hmeets : s.Meets a)
    (ht : s.step a = some t) : t.Awaits := by
  cases a with
  | submitOrQueue raw =>
    cases ht
    exact h.submitOrQueue raw
  | recallInput =>
    cases ht
    exact h.recallInput
  | render =>
    simp only [Terminal.step] at ht
    split at ht
    · cases ht
    · next heffects =>
      cases ht
      exact h.render (Bool.not_eq_true _ ▸ heffects)
  | runEffects =>
    simp only [Terminal.step] at ht
    split at ht
    · cases ht
      exact h.runEffects
    · cases ht
  | consume accepted =>
    simp only [Terminal.step] at ht
    split at ht
    · next item hpromotion =>
      cases ht
      exact h.consume item hmeets
    · cases ht
  | refuse clientMessageId =>
    simp only [Terminal.step] at ht
    split at ht
    · cases ht
      exact h.congr rfl rfl rfl ⟨rfl, rfl, rfl⟩ rfl
    · cases ht
  | fail =>
    simp only [Terminal.step] at ht
    split at ht
    · cases ht
      exact h.congr rfl rfl rfl ⟨rfl, rfl, rfl⟩ rfl
    · cases ht
  | settle =>
    simp only [Terminal.step] at ht
    split at ht
    · cases ht
      exact h.congr rfl rfl rfl ⟨rfl, rfl, rfl⟩ rfl
    · cases ht
      exact h.congr rfl rfl rfl ⟨rfl, rfl, rfl⟩ rfl
    · cases ht
  | finish =>
    simp only [Terminal.step] at ht
    split at ht
    · cases ht
      exact h.congr rfl rfl rfl ⟨rfl, rfl, rfl⟩ rfl
    · cases ht
  | operationStarted id =>
    simp only [Terminal.step] at ht
    split at ht
    · cases ht
      exact h
    · next hidle =>
      cases ht
      exact h.replace _ fun operation hoperation hover =>
        (hmeets operation hoperation hover).resolve_left hidle
  | operationEnded id =>
    cases ht
    exact h.endOperation hmeets
  | reconciled =>
    simp only [Terminal.step] at ht
    split at ht
    · cases ht
      exact h
    · next hidle =>
      cases ht
      exact h.replace _ fun operation hoperation hover =>
        (hmeets operation hoperation hover).resolve_left hidle
  | threadReplaced => exact h.replaceThread hmeets ht
  | changed pendingInteraction composerMode composerSubmitting cancelling =>
    cases ht
    exact h.congr rfl rfl rfl ⟨rfl, rfl, rfl⟩ rfl

/-! ## What is awaited is cleared -/

/-- At rest no Operation that is over is awaited. -/
theorem Awaits.unblocked (h : s.Awaits) (hrest : s.AtRest)
    (hshown : s.awaitingOperationId.shown = some operation) : ¬ s.IsOver operation := by
  intro hover
  have hlatest : s.awaitingOperationId.latest = some operation := by
    unfold StateHook.latest
    rw [hrest.awaiting, hshown]
    rfl
  rcases h.latest operation hlatest with hnot | hshows | hclearing
  · exact hnot hover
  · refine h.shown hrest.effects hrest.awaiting ?_
    rw [hshown, hrest.frame]
    exact ⟨rfl, hshows⟩
  · have heffects := hclearing.1
    rw [hrest.effects] at heffects
    cases heffects

private theorem render_clears (h : ∀ operation, s.awaitingOperationId.latest = some operation →
    s.Shows operation) : s.render.runEffects.awaitingOperationId.latest = none := by
  rcases runEffects_awaiting s.render with ⟨hnone, -⟩ | ⟨hsame, hidle⟩
  · exact hnone
  · rw [hsame]
    cases hlatest : s.awaitingOperationId.latest with
    | none => exact hlatest
    | some operation =>
      refine absurd ⟨?_, ?_⟩ hidle
      · change s.awaitingOperationId.latest.isSome = true
        rw [hlatest]
        rfl
      · change s.surroundings.activeOperation.map OperationView.id = s.awaitingOperationId.latest
        rw [hlatest]
        exact h operation hlatest

/-- An Operation that is over is no longer awaited once what is due was rendered. -/
theorem Awaits.cleared (h : s.Awaits)
    (hlatest : s.awaitingOperationId.latest = some operation) (hover : s.IsOver operation) :
    s.refresh.awaitingOperationId.latest = none := by
  unfold refresh
  apply render_clears
  intro other hother
  cases heffects : s.effects with
  | false =>
    rw [heffects] at hother
    obtain rfl : operation = other := Option.some.inj (hlatest.symm.trans hother)
    rcases h.latest operation hlatest with hnot | hshows | hclearing
    · exact absurd hover hnot
    · exact hshows
    · have hdue := hclearing.1
      rw [heffects] at hdue
      cases hdue
  | true =>
    rw [heffects] at hother
    change s.runEffects.awaitingOperationId.latest = some other at hother
    change s.runEffects.Shows other
    rcases runEffects_awaiting s with ⟨hnone, -⟩ | ⟨hsame, hidle⟩
    · rw [hnone] at hother
      cases hother
    · rw [hsame] at hother
      obtain rfl : operation = other := Option.some.inj (hlatest.symm.trans hother)
      rw [shows_runEffects]
      rcases h.latest operation hlatest with hnot | hshows | hclearing
      · exact absurd hover hnot
      · exact hshows
      · exact absurd hclearing.fires hidle

end AwesomeAgent.PendingInputs.Terminal
