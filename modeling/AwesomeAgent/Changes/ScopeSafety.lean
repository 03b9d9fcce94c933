import AwesomeAgent.Changes.ScopeInvariants
import AwesomeAgent.Changes.ToolMutations

/-!
# No ChangeSet is lost by the change scope

In every run of the calls of one scope, with any awaited call raising and any caller
cancelled at any point, no ChangeSet has two owners and every ChangeSet that was begun is
published, deleted as empty or closed, unless a `finalizeFailed` raised on it.
-/

namespace AwesomeAgent

namespace ChangeScope

variable {s : ChangeScope}

/-- What the scope promises in every state. -/
structure Safe (s : ChangeScope) : Prop where
  exclusive : ∀ owner owner' id, (owner, id) ∈ s.begun → (owner', id) ∈ s.begun → owner = owner'
  published : ∀ owner id, s.identifiers.get? owner = some id → (owner, id) ∈ s.begun
  acquired : ∀ call ∈ s.calls, ∀ id, call.result = some (.returned (some id)) →
    (call.owner, id) ∈ s.begun
  kept : ∀ owner id, (owner, id) ∈ s.begun → s.Kept owner id
  reachable : ∀ owner id c, (owner, id) ∈ s.begun → s.journal.store.get id = some c →
    c.lifecycle = .open → s.identifiers.get? owner = some id ∨ s.Abandoned owner id
  single : ∀ owner id id' c c', (owner, id) ∈ s.begun → (owner, id') ∈ s.begun →
    s.journal.store.get id = some c → c.lifecycle = .open →
    s.journal.store.get id' = some c' → c'.lifecycle = .open →
    ¬ s.Abandoned owner id → ¬ s.Abandoned owner id' → id = id'

private theorem lawful_fresh (journal : ChangeState) (activities : List String) :
    (fresh journal activities).Lawful where
  published := fun owner id hid => by cases hid
  nodup := List.nodup_nil
  kept := fun owner id hid => by cases hid
  placed := fun i call hi => by cases hi

private theorem Kept.reachable {owner id : String} {c : ChangeSet} (h : s.Kept owner id)
    (hc : s.journal.store.get id = some c) (hopen : c.lifecycle = .open) :
    s.identifiers.get? owner = some id ∨ s.Abandoned owner id := by
  cases h with
  | published h _ => exact .inl h
  | closed hc' h =>
    obtain rfl := Option.some.inj (hc.symm.trans hc')
    exact absurd hopen h
  | deleted habsent =>
    rw [hc] at habsent
    cases habsent
  | abandoned h => exact .inr h

private theorem Lawful.safe (h : s.Lawful) : s.Safe := by
  have hreachable : ∀ owner id c, (owner, id) ∈ s.begun → s.journal.store.get id = some c →
      c.lifecycle = .open → s.identifiers.get? owner = some id ∨ s.Abandoned owner id :=
    fun owner id c hid hc hopen => (h.kept owner id hid).reachable hc hopen
  refine ⟨fun owner owner' id hid hid' => ?_, h.published, fun call hcall id hresult => ?_,
    h.kept, hreachable, fun owner id id' c c' hid hid' hc hopen hc' hopen' hab hab' => ?_⟩
  · exact congrArg Prod.fst (List.inj_on_of_nodup_map h.nodup hid hid' rfl)
  · obtain ⟨i, hi⟩ := List.mem_iff_getElem?.mp hcall
    apply (h.placed i call hi).acquired id
    unfold ScopeCall.result at hresult
    split at hresult
    · next outcome hpoint =>
      rw [hpoint]
      cases hcancelled : call.cancelled <;> rw [hcancelled] at hresult
      · exact congrArg _ (Option.some.inj hresult)
      · cases hresult
    · cases hresult
  · have hp := (hreachable owner id c hid hc hopen).resolve_right hab
    have hp' := (hreachable owner id' c' hid' hc' hopen').resolve_right hab'
    exact Option.some.inj (hp.symm.trans hp')

end ChangeScope

/-- Over every interleaving no ChangeSet of the scope is shared or lost, except for one on
which a `finalizeFailed` raised. -/
theorem change_scope_keeps_change_sets [ContentHash] {w : WorkspaceIdentity}
    {journal : ChangeState} {activities : List String} {s : ChangeScope}
    (h : Run (ChangeScope.step w) (fun _ _ => True) (ChangeScope.fresh journal activities) s) :
    s.Safe :=
  (h.invariant (I := ChangeScope.Lawful) (ChangeScope.lawful_fresh journal activities)
    fun _ _ _ hs _ ha => hs.step ha).safe

section Sample

attribute [local instance] spelledHash

/-- A turn acquires a ChangeSet and records a command in it. -/
def recordingCalls : List ScopeAction :=
  [.call "turn" .acquire, .enter 0, .begin 0 "changes", .execute "changes" "make" [] .runs]

/-- The failed turn is finalized and its ChangeSet sealed. -/
def finalizingCalls : List ScopeAction :=
  recordingCalls ++ [.call "turn" .finalizeFailed, .enter 1, .cancel 1, .advance 1 .runs,
    .advance 1 .runs, .advance 1 .runs, .advance 1 .runs]

/-- The first read of `finalizeFailed` raises. -/
def abandoningCalls : List ScopeAction :=
  recordingCalls ++ [.call "turn" .finalizeFailed, .enter 1, .advance 1 (.raises 0)]

/-- The states of the sample scope after some steps. -/
def sampleScope (actions : List ScopeAction) : Option ChangeScope :=
  actions.foldlM (ChangeScope.step sampleWorkspace) (ChangeScope.fresh sampleState [])

/-- A recorded command is sealed by `finalizeFailed` although its caller is cancelled. -/
theorem change_scope_keeps_recorded_command :
    ∃ s, sampleScope finalizingCalls = some s ∧ s.identifiers.get? "turn" = none ∧
      (s.journal.store.get "changes").map (·.lifecycle) = some .applied ∧
      s.calls.map ScopeCall.result = [some (.returned (some "changes")), some .cancelled] ∧
      s.Safe := by
  obtain ⟨s, hs, hfacts⟩ : ∃ s, sampleScope finalizingCalls = some s ∧
      (s.identifiers.get? "turn", (s.journal.store.get "changes").map (·.lifecycle),
        s.calls.map ScopeCall.result) = (none, some .applied,
          [some (.returned (some "changes")), some .cancelled]) :=
    Option.map_eq_some_iff.mp (by decide)
  simp only [Prod.mk.injEq] at hfacts
  exact ⟨s, hs, hfacts.1, hfacts.2.1, hfacts.2.2,
    change_scope_keeps_change_sets (Run.of_actions hs fun _ _ _ => trivial)⟩

/-- A `finalizeFailed` that cannot read the ChangeSet unpublishes it although it is open and
has a recorded command. -/
theorem change_scope_abandons_change_set :
    ¬ ∀ s : ChangeScope, Run (ChangeScope.step sampleWorkspace) (fun _ _ => True)
        (ChangeScope.fresh sampleState []) s →
      (∀ call ∈ s.calls, call.point.Idle) →
      ∀ owner id, (owner, id) ∈ s.begun → s.identifiers.get? owner = some id ∨
        s.journal.store.get id = none ∨
        ∃ c, s.journal.store.get id = some c ∧ c.lifecycle ≠ .open := by
  intro h
  obtain ⟨s, hs, hfacts⟩ : ∃ s, sampleScope abandoningCalls = some s ∧
      (s.calls.map ScopeCall.point, s.begun, s.identifiers.get? "turn",
        (s.journal.store.get "changes").map (·.lifecycle)) =
        ([.finished (.returned (some "changes")), .finished (.raised (some "changes"))],
          [("turn", "changes")], none, some .open) :=
    Option.map_eq_some_iff.mp (by decide)
  simp only [Prod.mk.injEq] at hfacts
  obtain ⟨hpoints, hbegun, hnone, hopen⟩ := hfacts
  obtain ⟨c, hc, hlifecycle⟩ := Option.map_eq_some_iff.mp hopen
  have hidle : ∀ call ∈ s.calls, call.point.Idle := by
    intro call hcall
    have hmem := List.mem_map_of_mem (f := ScopeCall.point) hcall
    rw [hpoints] at hmem
    simp only [List.mem_cons, List.not_mem_nil, or_false] at hmem
    obtain hp | hp := hmem <;> rw [hp] <;> trivial
  obtain hp | hp | ⟨c', hc', hclosed⟩ := h s (Run.of_actions hs fun _ _ _ => trivial) hidle
    "turn" "changes" (by rw [hbegun]; exact List.mem_singleton_self _)
  · rw [hnone] at hp
    cases hp
  · rw [hc] at hp
    cases hp
  · obtain rfl := Option.some.inj (hc.symm.trans hc')
    exact hclosed hlifecycle

end Sample

end AwesomeAgent
