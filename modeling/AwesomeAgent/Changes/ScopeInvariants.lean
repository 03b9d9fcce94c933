import AwesomeAgent.Changes.Scope

/-!
# What the change scope keeps

Every ChangeSet that the scope began is published for its owner, was deleted as empty,
is closed, or was given up by a `finalizeFailed` one of whose calls raised. No ChangeSet
has two owners.
-/

namespace AwesomeAgent

/-- A ChangeSet stays stored and is not opened again, or stays absent. -/
def ChangeSetStore.Keeps (s t : ChangeSetStore) (identifier : String) : Prop :=
  (s.get identifier = none → t.get identifier = none) ∧
    ∀ c, s.get identifier = some c →
      ∃ c', t.get identifier = some c' ∧ (c'.lifecycle = .open → c.lifecycle = .open)

private theorem ChangeSetStore.Keeps.of_eq {s t : ChangeSetStore} {identifier : String}
    (h : t.get identifier = s.get identifier) : s.Keeps t identifier :=
  ⟨fun hnone => h.trans hnone, fun c hc => ⟨c, h.trans hc, id⟩⟩

private theorem ChangeSetStore.Tended.keeps {s t : ChangeSetStore} (h : s.Tended t)
    (identifier : String) : s.Keeps t identifier := by
  refine ⟨h.get_eq_none, fun c hc => ?_⟩
  obtain ⟨c', hc'⟩ := h.get_isSome hc
  refine ⟨c', hc', fun hopen => ?_⟩
  obtain ⟨d, hd, hdopen⟩ := h.open_of_open identifier c' hc' hopen
  obtain rfl := Option.some.inj (hc.symm.trans hd)
  exact hdopen

section Journal

variable {α : Type} {p : ChangeProc α} {s : ChangeState}

private theorem runJournal_tended (hp : ∀ s₀, Tends s₀ p) (outcome : JournalOutcome) :
    s.store.Tended (runJournal outcome p s).2.store :=
  runJournal_preserves (hp s.store) (.refl s.store) outcome

private theorem runJournal_value {P : ChangeState → Prop} {Q : α → ChangeState → Prop}
    {E : Fault → ChangeState → Prop} {C : ChangeState → Prop} (h : Triple P p Q E C) (hs : P s)
    {outcome : JournalOutcome} {a : α} (hv : (runJournal outcome p s).1 = some a) :
    Q a (runJournal outcome p s).2 := by
  cases outcome with
  | runs =>
    have hrun := h ⟨s, []⟩ hs
    change Proc.value (p ⟨s, []⟩) = some a at hv
    change Q a (Proc.final (p ⟨s, []⟩))
    cases hr : p ⟨s, []⟩ <;> rw [hr] at hrun hv
    · cases hv
      exact hrun.1
    · cases hv
  | raises point => cases hv

end Journal

private theorem ChangeSetStore.deleteEmptyOpen_spec {s t : ChangeSetStore}
    {activities : List String}
    {identifier : String} {c : ChangeSet}
    (h : s.deleteEmptyOpen activities identifier = some (c, t)) :
    c.id = identifier ∧ c.files = [] ∧ c.execute = [] ∧
      ∀ i, t.get i = if i = identifier then none else s.get i := by
  unfold deleteEmptyOpen at h
  split at h
  · cases h
  next c' hc =>
    split_ifs at h with hrecorded
    cases h
    have hempty := not_or.mp (not_or.mp hrecorded).2
    refine ⟨id_of_get hc, not_not.mp hempty.1, not_not.mp hempty.2, fun i => ?_⟩
    exact s.changeSets.get?_remove i identifier

/-- The ChangeSet that a call inside the lock works on. -/
def ScopePoint.identifier : ScopePoint → Option String
  | .waiting => none
  | .beginning => none
  | .reading id => some id
  | .reconciling id => some id
  | .rereading id => some id
  | .sealing id => some id
  | .deleting id => some id
  | .retaining id => some id
  | .finished _ => none

/-- A call that has not entered the lock or has left it. -/
def ScopePoint.Idle : ScopePoint → Prop
  | .waiting => True
  | .finished _ => True
  | _ => False

private theorem ScopePoint.Idle.identifier {point : ScopePoint} (h : point.Idle) :
    point.identifier = none := by
  cases point <;> first | rfl | exact h.elim

namespace ChangeScope

/-- A `finalizeFailed` of the owner raised while it worked on the ChangeSet. -/
def Abandoned (s : ChangeScope) (owner identifier : String) : Prop :=
  ∃ call ∈ s.calls, call.owner = owner ∧ call.method = .finalizeFailed ∧
    call.point = .finished (.raised (some identifier))

/-- What can have become of a ChangeSet that the scope began. -/
inductive Kept (s : ChangeScope) (owner identifier : String) : Prop
  | published {c : ChangeSet} (h : s.identifiers.get? owner = some identifier)
      (hc : s.journal.store.get identifier = some c)
  | closed {c : ChangeSet} (hc : s.journal.store.get identifier = some c)
      (h : c.lifecycle ≠ .open)
  | deleted {c : ChangeSet} (habsent : s.journal.store.get identifier = none)
      (hc : c ∈ s.deleted) (hid : c.id = identifier) (hfiles : c.files = [])
      (hexecute : c.execute = [])
  | abandoned (h : s.Abandoned owner identifier)

/-- What holds of the call at an index of the calls. -/
structure Placed (s : ChangeScope) (i : Nat) (call : ScopeCall) : Prop where
  locked : ¬ call.point.Idle → s.lock = some i
  working : ∀ id, call.point.identifier = some id → s.identifiers.get? call.owner = some id
  beginning : call.point = .beginning → s.identifiers.get? call.owner = none
  acquired : ∀ id, call.point = .finished (.returned (some id)) → (call.owner, id) ∈ s.begun

/-- The invariant of the change scope. -/
structure Lawful (s : ChangeScope) : Prop where
  published : ∀ owner id, s.identifiers.get? owner = some id → (owner, id) ∈ s.begun
  nodup : (s.begun.map Prod.snd).Nodup
  kept : ∀ owner id, (owner, id) ∈ s.begun → s.Kept owner id
  placed : ∀ i call, s.calls[i]? = some call → s.Placed i call

variable {s t : ChangeScope} {i : Nat} {call : ScopeCall} {owner id : String}

private theorem Kept.frame (h : s.Kept owner id) (hstore : s.journal.store.Keeps t.journal.store id)
    (hidentifiers : s.identifiers.get? owner = some id → t.Kept owner id ∨
      t.identifiers.get? owner = some id)
    (hdeleted : s.deleted ⊆ t.deleted)
    (hcalls : ∀ call ∈ s.calls, ∀ outcome, call.point = .finished outcome → call ∈ t.calls) :
    t.Kept owner id := by
  cases h with
  | published h hc =>
    obtain ht | ht := hidentifiers h
    · exact ht
    · obtain ⟨c', hc', -⟩ := hstore.2 _ hc
      exact .published ht hc'
  | closed hc h =>
    obtain ⟨c', hc', hopen⟩ := hstore.2 _ hc
    exact .closed hc' fun ho => h (hopen ho)
  | deleted habsent hc hid hfiles hexecute =>
    exact .deleted (hstore.1 habsent) (hdeleted hc) hid hfiles hexecute
  | abandoned h =>
    obtain ⟨call, hcall, howner, hmethod, hpoint⟩ := h
    exact .abandoned ⟨call, hcalls call hcall _ hpoint, howner, hmethod, hpoint⟩

private theorem finished_set (hi : s.calls[i]? = some call) (hopen : ∀ o, call.point ≠ .finished o)
    (call' : ScopeCall) : ∀ c ∈ s.calls, ∀ outcome, c.point = .finished outcome →
      c ∈ s.calls.set i call' := by
  intro c hc outcome hfinished
  obtain ⟨j, hj⟩ := List.mem_iff_getElem?.mp hc
  have hne : i ≠ j := by
    rintro rfl
    obtain rfl := Option.some.inj (hi.symm.trans hj)
    exact hopen outcome hfinished
  exact List.mem_of_getElem? (i := j) (by rw [List.getElem?_set_ne hne, hj])

namespace Lawful

variable {journal : ChangeState}

private theorem tended (h : s.Lawful)
    (hj : s.journal.store.Tended journal.store) : { s with journal := journal }.Lawful where
  published := h.published
  nodup := h.nodup
  kept := fun owner id hid => (h.kept owner id hid).frame (hj.keeps id) Or.inr
    (fun _ hc => hc) fun _ hc _ _ => hc
  placed := fun i call hi =>
    let hplaced := h.placed i call hi
    ⟨hplaced.locked, hplaced.working, hplaced.beginning, hplaced.acquired⟩

private theorem idle_of_ne (h : s.Lawful) (hi : s.calls[i]? = some call) (hlock : s.lock ≠ some i) :
    call.point.Idle := by
  by_contra hrunning
  exact hlock ((h.placed i call hi).locked hrunning)

private theorem placed_of_idle (h : s.Placed i call) (hidle : call.point.Idle)
    (hbegun : s.begun ⊆ t.begun) : t.Placed i call where
  locked := fun hrunning => absurd hidle hrunning
  working := fun id hid => by
    rw [hidle.identifier] at hid
    cases hid
  beginning := fun hpoint => by
    rw [hpoint] at hidle
    cases hidle
  acquired := fun id hpoint => hbegun (h.acquired id hpoint)

private theorem turn (h : s.Lawful) (hi : s.calls[i]? = some call)
    (halone : ∀ j other, j ≠ i → s.calls[j]? = some other → other.point.Idle)
    {call' : ScopeCall} (hcalls : t.calls = s.calls.set i call')
    (hpublished : ∀ owner id, t.identifiers.get? owner = some id → (owner, id) ∈ t.begun)
    (hbegun : s.begun ⊆ t.begun) (hnodup : (t.begun.map Prod.snd).Nodup)
    (hkept : ∀ owner id, (owner, id) ∈ t.begun → t.Kept owner id) (hplaced : t.Placed i call') :
    t.Lawful where
  published := hpublished
  nodup := hnodup
  kept := hkept
  placed := fun j other hj => by
    rw [hcalls] at hj
    by_cases hji : j = i
    · subst hji
      have hlt : j < s.calls.length := (List.getElem?_eq_some_iff.mp hi).1
      rw [List.getElem?_set_self hlt] at hj
      cases hj
      exact hplaced
    · rw [List.getElem?_set_ne (Ne.symm hji)] at hj
      exact placed_of_idle (h.placed j other hj) (halone j other hji hj) hbegun

private theorem goto (h : s.Lawful) (hi : s.calls[i]? = some call) (hlock : s.lock = some i)
    (hid : s.identifiers.get? call.owner = some id) (hopen : ∀ o, call.point ≠ .finished o)
    {point : ScopePoint} (hpoint : point.identifier = some id) :
    (s.goto i call point).Lawful := by
  refine h.turn hi (fun j other hji hj => h.idle_of_ne hj ?_) rfl h.published
    (fun _ hb => hb) h.nodup (fun owner id' hid' => ?_) ⟨fun _ => hlock, ?_, ?_, ?_⟩
  · rw [hlock]
    exact fun he => hji (Option.some.inj he).symm
  · exact (h.kept owner id' hid').frame (.of_eq rfl) Or.inr (fun _ hc => hc)
      (finished_set hi hopen _)
  · intro id' hid'
    obtain rfl := Option.some.inj (hpoint.symm.trans hid')
    exact hid
  · rintro rfl
    cases hpoint
  · rintro id' rfl
    cases hpoint

private theorem finish (h : s.Lawful) (hi : s.calls[i]? = some call)
    (hlock : s.lock = some i ∨ s.lock = none) (hopen : ∀ o, call.point ≠ .finished o)
    {outcome : ScopeOutcome}
    (hreturned : ∀ id, outcome = .returned (some id) → (call.owner, id) ∈ s.begun) :
    (s.finish i call outcome).Lawful := by
  refine h.turn hi (fun j other hji hj => h.idle_of_ne hj ?_) rfl h.published
    (fun _ hb => hb) h.nodup (fun owner id hid => ?_) ⟨fun hr => absurd trivial hr, ?_, ?_, ?_⟩
  · obtain hl | hl := hlock <;> rw [hl]
    · exact fun he => hji (Option.some.inj he).symm
    · exact nofun
  · exact (h.kept owner id hid).frame (.of_eq rfl) Or.inr (fun _ hc => hc)
      (finished_set hi hopen _)
  · exact fun id hid => by cases hid
  · exact nofun
  · intro id hid
    cases hid
    exact hreturned id rfl

/-- End a call that unpublishes the ChangeSet of its owner, whose fate is known. -/
theorem unpublish (h : s.Lawful) (hi : s.calls[i]? = some call) (hlock : s.lock = some i)
    (hid : s.identifiers.get? call.owner = some id) (hopen : ∀ o, call.point ≠ .finished o)
    {deleted : List ChangeSet} {outcome : ScopeOutcome}
    (hstore : ∀ id', id' ≠ id → s.journal.store.Keeps journal.store id')
    (hdeleted : s.deleted ⊆ deleted) (hreturned : ∀ id, outcome ≠ .returned (some id))
    (hfate : ({ s with
      journal := journal
      deleted := deleted
      identifiers := s.identifiers.erase call.owner }.finish i call outcome).Kept call.owner id) :
    ({ s with
      journal := journal
      deleted := deleted
      identifiers := s.identifiers.erase call.owner }.finish i call outcome).Lawful := by
  refine h.turn hi (fun j other hji hj => h.idle_of_ne hj ?_) rfl ?_
    (fun _ hb => hb) h.nodup ?_ ⟨fun hr => absurd trivial hr, ?_, ?_, ?_⟩
  · rw [hlock]
    exact fun he => hji (Option.some.inj he).symm
  · intro owner id' hid'
    change (s.identifiers.erase call.owner).get? owner = some id' at hid'
    by_cases howner : owner = call.owner
    · subst howner
      rw [Dict.get?_erase_self] at hid'
      cases hid'
    · rw [Dict.get?_erase_of_ne _ howner] at hid'
      exact h.published owner id' hid'
  · intro owner id' hid'
    have hmine := h.published call.owner id hid
    by_cases hsame : id' = id
    · subst hsame
      have howner : owner = call.owner := by
        have hp := List.inj_on_of_nodup_map h.nodup hid' hmine rfl
        exact congrArg Prod.fst hp
      rw [howner]
      exact hfate
    · refine (h.kept owner id' hid').frame (hstore id' hsame) (fun hp => .inr ?_) hdeleted
        (finished_set hi hopen _)
      change (s.identifiers.erase call.owner).get? owner = some id'
      have howner : owner ≠ call.owner := by
        rintro rfl
        exact hsame (Option.some.inj (hp.symm.trans hid))
      rw [Dict.get?_erase_of_ne _ howner, hp]
  · exact fun id hid => by cases hid
  · exact nofun
  · intro id hid
    cases hid
    exact absurd rfl (hreturned id)

private theorem settle (h : s.Lawful) (hi : s.calls[i]? = some call) (hlock : s.lock = some i)
    (hid : s.identifiers.get? call.owner = some id) (hopen : ∀ o, call.point ≠ .finished o)
    (hnone : s.openOf id = none) : (s.settle i call).Lawful := by
  refine h.unpublish hi hlock hid hopen (fun _ _ => .of_eq rfl) (fun _ hd => hd) (fun _ => nofun) ?_
  have hclosed : ∀ c, s.journal.store.get id = some c → c.lifecycle ≠ .open := by
    intro c hc hopen'
    simp [openOf, hc, hopen'] at hnone
  cases h.kept call.owner id (h.published call.owner id hid) with
  | published _ hc => exact .closed hc (hclosed _ hc)
  | closed hc _ => exact .closed hc (hclosed _ hc)
  | deleted habsent hc hid' hfiles hexecute => exact .deleted habsent hc hid' hfiles hexecute
  | abandoned hab =>
    obtain ⟨other, hother, howner, hmethod, hpoint⟩ := hab
    exact .abandoned ⟨other, finished_set hi hopen _ other hother _ hpoint, howner, hmethod, hpoint⟩

private theorem fail (h : s.Lawful) (hi : s.calls[i]? = some call) (hlock : s.lock = some i)
    (hid : s.identifiers.get? call.owner = some id) (hopen : ∀ o, call.point ≠ .finished o) :
    (s.fail i call id).Lawful := by
  unfold ChangeScope.fail
  split
  · next hmethod =>
    refine h.unpublish hi hlock hid hopen (fun _ _ => .of_eq rfl) (fun _ hd => hd)
      (fun _ => nofun) (.abandoned ⟨{ call with point := .finished (.raised (some id)) }, ?_,
        rfl, hmethod, rfl⟩)
    exact List.mem_of_getElem?
      (List.getElem?_set_self (List.getElem?_eq_some_iff.mp hi).1)
  · exact h.finish hi (.inl hlock) hopen fun _ => nofun

private theorem enter (h : s.Lawful) (hi : s.calls[i]? = some call)
    (hwaiting : call.point = .waiting)
    (hlock : s.lock = none) : (s.enter i call).Lawful := by
  have hopen : ∀ o, call.point ≠ .finished o := fun o => by rw [hwaiting]; nofun
  have halone : ∀ j other, j ≠ i → s.calls[j]? = some other → other.point.Idle :=
    fun j other _ hj => h.idle_of_ne hj (by rw [hlock]; nofun)
  have hkept : ∀ {call' : ScopeCall} (owner id : String), (owner, id) ∈ s.begun →
      { s with calls := s.calls.set i call', lock := some i }.Kept owner id :=
    fun owner id hid => (h.kept owner id hid).frame (.of_eq rfl) Or.inr (fun _ hc => hc)
      (finished_set hi hopen _)
  unfold ChangeScope.enter
  split
  · next identifier hid _ =>
    refine h.finish hi (.inr hlock) hopen fun id he => ?_
    obtain rfl := Option.some.inj (ScopeOutcome.returned.inj he)
    exact h.published _ _ hid
  · next hid _ =>
    exact h.turn hi halone rfl h.published (fun _ hb => hb) h.nodup hkept
      ⟨fun _ => rfl, nofun, fun _ => hid, nofun⟩
  · next identifier hid _ =>
    refine h.turn hi halone rfl h.published (fun _ hb => hb) h.nodup hkept
      ⟨fun _ => rfl, fun id he => ?_, nofun, nofun⟩
    obtain rfl := Option.some.inj he
    exact hid
  · exact h.finish hi (.inr hlock) hopen fun _ => nofun

/-- A new ChangeSet is stored and published in one step. -/
theorem begin [ContentHash] {w : WorkspaceIdentity} (h : s.Lawful) (hi : s.calls[i]? = some call)
    (hs : s.begin w i call id = some t) : t.Lawful := by
  unfold ChangeScope.begin at hs
  split_ifs at hs with hguard
  obtain ⟨hpoint, hfree, hnew⟩ : call.point = .beginning ∧
      s.journal.store.get id = none ∧ id ∉ s.begun.map Prod.snd := by
    simpa only [not_or, not_not, Bool.not_eq_true, Option.isSome_eq_false_iff,
      Option.isNone_iff_eq_none] using hguard
  cases hs
  have hplaced := h.placed i call hi
  have hlock : s.lock = some i := hplaced.locked (by rw [hpoint]; exact not_false)
  have hnone := hplaced.beginning hpoint
  have hopen : ∀ o, call.point ≠ .finished o := fun o => by rw [hpoint]; nofun
  have hstore : ∀ id', (Proc.final (ChangeJournal.begin w id ⟨s.journal, []⟩)).store.get id' =
      if id' = id then some ⟨id, w.key, .open, .full, [], [], s.journal.clock, none⟩
      else s.journal.store.get id' := fun id' => ChangeSetStore.get_save_eq _ _ id'
  refine h.turn hi (fun j other hji hj => h.idle_of_ne hj ?_) rfl ?_
    (fun _ hb => List.mem_append_left _ hb) ?_ ?_ ⟨fun hr => absurd trivial hr, nofun, nofun, ?_⟩
  · rw [hlock]
    exact fun he => hji (Option.some.inj he).symm
  · intro owner id' hid'
    change (s.identifiers.set call.owner id).get? owner = some id' at hid'
    rw [Dict.get?_set] at hid'
    split at hid'
    · next howner =>
      cases hid'
      exact List.mem_append_right _ (by simp [howner])
    · exact List.mem_append_left _ (h.published owner id' hid')
  · change ((s.begun ++ [(call.owner, id)]).map Prod.snd).Nodup
    rw [List.map_append, List.nodup_append]
    refine ⟨h.nodup, by simp, fun a ha b hb => ?_⟩
    obtain rfl : b = id := by simpa using hb
    exact fun hab => hnew (hab ▸ ha)
  · intro owner id' hid'
    obtain hid' | hid' := List.mem_append.mp hid'
    · have hne : id' ≠ id := by
        rintro rfl
        exact hnew (List.mem_map_of_mem (f := Prod.snd) hid')
      refine (h.kept owner id' hid').frame (.of_eq ?_) (fun hp => .inr ?_) (fun _ hc => hc)
        (finished_set hi hopen _)
      · exact (hstore id').trans (if_neg hne)
      · change (s.identifiers.set call.owner id).get? owner = some id'
        rw [Dict.get?_set_of_ne _ _ (by rintro rfl; rw [hnone] at hp; cases hp), hp]
    · obtain ⟨rfl, rfl⟩ : owner = call.owner ∧ id' = id := by simpa using hid'
      exact .published (s.identifiers.get?_set_self _ _) ((hstore id').trans (if_pos rfl))
  · intro id' hid'
    cases hid'
    exact List.mem_append_right _ (List.mem_singleton_self _)

private theorem cancel (h : s.Lawful) (hi : s.calls[i]? = some call) (hs : s.cancel i call = some t)
    :
    t.Lawful := by
  have hplaced := h.placed i call hi
  have hset : ∀ call' : ScopeCall, (∀ o, call.point ≠ .finished o) → s.Placed i call' →
      { s with calls := s.calls.set i call' }.Lawful := by
    intro call' hopen hplaced'
    constructor
    · exact h.published
    · exact h.nodup
    · exact fun owner id hid => (h.kept owner id hid).frame (.of_eq rfl) Or.inr
        (fun _ hc => hc) (finished_set hi hopen _)
    · intro j other hj
      change (s.calls.set i call')[j]? = some other at hj
      rw [List.getElem?_set] at hj
      split at hj
      · next hij =>
        subst hij
        split at hj <;> cases hj
        exact ⟨hplaced'.locked, hplaced'.working, hplaced'.beginning, hplaced'.acquired⟩
      · have hother := h.placed j other hj
        exact ⟨hother.locked, hother.working, hother.beginning, hother.acquired⟩
  unfold ChangeScope.cancel at hs
  split at hs
  · next hwaiting =>
    cases hs
    refine hset _ (fun o => by rw [hwaiting]; nofun)
      ⟨fun hr => absurd trivial hr, nofun, nofun, nofun⟩
  · cases hs
  · next hopen =>
    cases hs
    exact hset _ hopen
      ⟨hplaced.locked, hplaced.working, hplaced.beginning, hplaced.acquired⟩

end Lawful

/-- The call works on the published ChangeSet of its owner inside the lock. -/
structure Working (s : ChangeScope) (i : Nat) (call : ScopeCall) (id : String) : Prop where
  lawful : s.Lawful
  call_eq : s.calls[i]? = some call
  locked : s.lock = some i
  published : s.identifiers.get? call.owner = some id
  unfinished : ∀ o, call.point ≠ .finished o

namespace Working

private theorem tended (h : s.Working i call id) {journal : ChangeState}
    (hj : s.journal.store.Tended journal.store) : { s with journal := journal }.Working i call id :=
  ⟨h.lawful.tended hj, h.call_eq, h.locked, h.published, h.unfinished⟩

private theorem goto (h : s.Working i call id) {point : ScopePoint}
    (hpoint : point.identifier = some id) :
    (s.goto i call point).Lawful :=
  h.lawful.goto h.call_eq h.locked h.published h.unfinished hpoint

private theorem settle (h : s.Working i call id) (hnone : s.openOf id = none) :
    (s.settle i call).Lawful :=
  h.lawful.settle h.call_eq h.locked h.published h.unfinished hnone

private theorem fail (h : s.Working i call id) : (s.fail i call id).Lawful :=
  h.lawful.fail h.call_eq h.locked h.published h.unfinished

private theorem storeCall (h : s.Working i call id) {outcome : JournalOutcome} (hnext : t.Lawful) :
    (s.storeCall i call id outcome t).Lawful := by
  cases outcome with
  | runs => exact hnext
  | raises _ => exact h.fail

private theorem continueOpen (h : s.Working i call id) {next : ChangeSet → ScopePoint}
    (hnext : ∀ c, (next c).identifier = some id) : (s.continueOpen i call id next).Lawful := by
  unfold ChangeScope.continueOpen
  split
  · exact h.goto (hnext _)
  · next hnone => exact h.settle hnone

private theorem journalCall {α : Type} (h : s.Working i call id) {outcome : JournalOutcome}
    {p : ChangeProc α} (hp : ∀ s₀, Tends s₀ p) {next : ChangeScope → ChangeScope}
    (hnext : ∀ a t, t.Working i call id → (runJournal outcome p s.journal).1 = some a →
      t.journal = (runJournal outcome p s.journal).2 → (next t).Lawful) :
    (s.journalCall i call id outcome p next).Lawful := by
  have ht := h.tended (runJournal_tended hp outcome)
  unfold ChangeScope.journalCall
  dsimp only
  cases hr : (runJournal outcome p s.journal).1 with
  | some a => exact hnext a _ ht hr rfl
  | none => exact ht.fail

private theorem deleteCall (h : s.Working i call id) : (s.deleteCall i call id).Lawful := by
  unfold ChangeScope.deleteCall
  split
  · next c store hdelete =>
    obtain ⟨hid, hfiles, hexecute, hget⟩ := ChangeSetStore.deleteEmptyOpen_spec hdelete
    refine h.lawful.unpublish h.call_eq h.locked h.published h.unfinished
      (fun id' hne => .of_eq ?_) (List.subset_append_left _ _) (fun _ => nofun)
      (.deleted ?_ (List.mem_append_right _ (List.mem_singleton_self c)) hid hfiles hexecute)
    · exact (hget id').trans (if_neg hne)
    · exact (hget id).trans (if_pos rfl)
  · exact h.goto rfl

end Working

private theorem closing_identifier (method : ScopeMethod) (id : String) (c : ChangeSet) :
    (closing method id c).identifier = some id := by
  unfold closing
  split
  · split <;> rfl
  · rfl

namespace Lawful

private theorem advance [ContentHash] {w : WorkspaceIdentity} (h : s.Lawful)
    (hi : s.calls[i]? = some call) {outcome : JournalOutcome}
    (hs : s.advance w i call outcome = some t) : t.Lawful := by
  have hplaced := h.placed i call hi
  have hworking : ∀ id, call.point.identifier = some id → s.Working i call id := fun id hid =>
    ⟨h, hi, hplaced.locked (fun hidle => by rw [hidle.identifier] at hid; cases hid),
      hplaced.working id hid, fun o ho => by rw [ho] at hid; cases hid⟩
  unfold ChangeScope.advance at hs
  cases hpoint : call.point <;> rw [hpoint] at hs hworking <;> dsimp only at hs
  case waiting => cases hs
  case finished => cases hs
  case beginning =>
    cases outcome <;> cases hs
    have hlock : s.lock = some i := hplaced.locked (by rw [hpoint]; exact not_false)
    exact h.finish hi (.inl hlock) (fun o => by rw [hpoint]; nofun) fun _ => nofun
  case reading id =>
    cases hs
    exact (hworking id rfl).storeCall ((hworking id rfl).continueOpen fun _ => rfl)
  case reconciling id =>
    cases hs
    exact (hworking id rfl).journalCall (fun _ => ChangeJournal.reconcilePending_tends _)
      fun _ _ ht _ _ => ht.goto rfl
  case rereading id =>
    cases hs
    exact (hworking id rfl).storeCall ((hworking id rfl).continueOpen (closing_identifier _ id))
  case sealing id =>
    cases hs
    refine (hworking id rfl).journalCall (fun _ => ChangeJournal.sealChangeSet_tends id)
      fun a t ht hv hjournal => ht.settle ?_
    obtain ⟨c, hc, happlied⟩ := runJournal_value (s := s.journal)
      (ChangeJournal.sealChangeSet_applied id) (.refl s.journal.store) hv
    rw [openOf, hjournal, hc]
    simp [happlied]
  case deleting id =>
    cases hs
    exact (hworking id rfl).storeCall (hworking id rfl).deleteCall
  case retaining id =>
    cases hs
    exact (hworking id rfl).storeCall ((hworking id rfl).continueOpen fun _ => rfl)

private theorem called (h : s.Lawful) (owner : String) (method : ScopeMethod) :
    { s with calls := s.calls ++ [ScopeCall.mk owner method .waiting false] }.Lawful where
  published := h.published
  nodup := h.nodup
  kept := fun owner id hid => (h.kept owner id hid).frame (.of_eq rfl) Or.inr (fun _ hc => hc)
    fun _ hc _ _ => List.mem_append_left _ hc
  placed := fun i other hi => by
    change (s.calls ++ [ScopeCall.mk owner method .waiting false])[i]? = some other at hi
    rw [List.getElem?_append] at hi
    split at hi
    · have hplaced := h.placed i other hi
      exact ⟨hplaced.locked, hplaced.working, hplaced.beginning, hplaced.acquired⟩
    · obtain rfl := List.mem_singleton.mp (List.mem_of_getElem? hi)
      exact ⟨fun hr => absurd trivial hr, nofun, nofun, nofun⟩

/-- Every step keeps the invariant. -/
theorem step [ContentHash] {w : WorkspaceIdentity} (h : s.Lawful) {a : ScopeAction}
    (hs : ChangeScope.step w s a = some t) : t.Lawful := by
  cases a with
  | call owner method =>
    cases hs
    exact h.called owner method
  | enter i =>
    obtain ⟨call, hi, hs⟩ := Option.bind_eq_some_iff.mp hs
    split_ifs at hs with hguard
    cases hs
    exact h.enter hi hguard.1 hguard.2
  | cancel i =>
    obtain ⟨call, hi, hs⟩ := Option.bind_eq_some_iff.mp hs
    exact h.cancel hi hs
  | begin i identifier =>
    obtain ⟨call, hi, hs⟩ := Option.bind_eq_some_iff.mp hs
    exact h.begin hi hs
  | advance i outcome =>
    obtain ⟨call, hi, hs⟩ := Option.bind_eq_some_iff.mp hs
    exact h.advance hi hs
  | mutate changeSetId kind intendedAfter target identifier outcome =>
    cases hs
    exact h.tended (runJournal_tended (fun _ => ChangeJournal.applyFileMutation_tends changeSetId
      kind intendedAfter target identifier) outcome)
  | execute changeSetId command observedPaths outcome =>
    cases hs
    exact h.tended (runJournal_tended (fun _ => ChangeJournal.recordExecute_tends changeSetId
      command observedPaths) outcome)
  | refer changeSetId =>
    cases hs
    exact ⟨h.published, h.nodup, fun owner id hid =>
      (h.kept owner id hid).frame (.of_eq rfl) Or.inr (fun _ hc => hc) fun _ hc _ _ => hc,
      fun i call hi => let hp := h.placed i call hi
        ⟨hp.locked, hp.working, hp.beginning, hp.acquired⟩⟩

end Lawful

end ChangeScope

end AwesomeAgent
