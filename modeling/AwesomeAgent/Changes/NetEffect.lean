import AwesomeAgent.Changes.Merge
import AwesomeAgent.Library.Runs

/-!
# The net effect of a list of changes

In a chained list every change begins where the last change of its path ended. Merging
keeps the first before-state and the last after-state of every path, drops what ends as
absent as it began, and leads from a tree to the tree to which the list leads. What is
already merged may be merged again with what follows.
-/

namespace AwesomeAgent

/-- What a change records of the node on one of its sides. -/
structure RecordedNode where
  digest : String
  blob : Option String
  mode : Option Nat
  nodeType : FileNodeType
  deriving DecidableEq, Repr

/-- The before-state of a change; absent without a digest. -/
def FileChange.before (c : FileChange) : Option RecordedNode :=
  c.beforeHash.map fun digest =>
    ⟨digest, c.beforeBlob, c.beforeMode, c.beforeNodeType.getD c.nodeType⟩

/-- The after-state of a change; absent without a digest. -/
def FileChange.after (c : FileChange) : Option RecordedNode :=
  c.afterHash.map fun digest =>
    ⟨digest, c.afterBlob, c.afterMode, c.afterNodeType.getD c.nodeType⟩

/-- The changes of one path, in order. -/
def changesOf (changes : List FileChange) (path : RelativePath) : List FileChange :=
  changes.filter fun c => c.path = path

/-- The first before-state of a path. -/
def firstBefore (changes : List FileChange) (path : RelativePath) : Option RecordedNode :=
  (changesOf changes path).head?.bind FileChange.before

/-- The last after-state of a path. -/
def lastAfter (changes : List FileChange) (path : RelativePath) : Option RecordedNode :=
  (changesOf changes path).getLast?.bind FileChange.after

/-- Every change begins where the last change of its path ended. -/
def Chained (changes : List FileChange) : Prop :=
  Throughout (fun earlier change => ∀ previous ∈ (changesOf earlier change.path).getLast?,
    change.before = previous.after) changes

/-- A tree as the changes record it. -/
abbrev RecordedTree := RelativePath → Option RecordedNode

/-- Apply a change to a tree that shows its before-state. -/
def FileChange.applyTo (tree : RecordedTree) (c : FileChange) : Option RecordedTree :=
  if tree c.path = c.before then some (Function.update tree c.path c.after) else none

/-- Apply changes one after the other. -/
def applyChanges (tree : RecordedTree) (changes : List FileChange) : Option RecordedTree :=
  changes.foldlM FileChange.applyTo tree

/-- The tree with the last after-state of every changed path. -/
def netTree (tree : RecordedTree) (changes : List FileChange) : RecordedTree := fun path =>
  if changesOf changes path = [] then tree path else lastAfter changes path

/-- A record whose node types are resolved. -/
def FileChange.Resolved (c : FileChange) : Prop :=
  c.beforeNodeType = c.resolvedBeforeNodeType ∧ c.afterNodeType = c.resolvedAfterNodeType

private theorem changesOf_concat (changes : List FileChange) (c : FileChange) (path : RelativePath)
    :
    changesOf (changes ++ [c]) path =
      changesOf changes path ++ if c.path = path then [c] else [] := by
  by_cases h : c.path = path <;> simp [changesOf, h]

variable {changes : List FileChange} {path : RelativePath} {c : FileChange}
  {merged : Dict RelativePath FileChange}

private theorem changesOf_ne_nil :
    changesOf changes path ≠ [] ↔ path ∈ changes.map FileChange.path := by
  simp [changesOf, List.filter_eq_nil_iff]

private theorem lastAfter_concat (changes : List FileChange) (c : FileChange) (path : RelativePath)
    :
    lastAfter (changes ++ [c]) path =
      if c.path = path then c.after else lastAfter changes path := by
  by_cases h : c.path = path <;> simp [lastAfter, changesOf_concat, h]

private theorem firstBefore_concat (changes : List FileChange) (c : FileChange)
    (path : RelativePath) :
    firstBefore (changes ++ [c]) path =
      if changesOf changes path = [] ∧ c.path = path then c.before
      else firstBefore changes path := by
  rw [firstBefore, firstBefore, changesOf_concat]
  cases hof : changesOf changes path with
  | nil => by_cases h : c.path = path <;> simp [h]
  | cons first rest => simp

private theorem Chained.of_append {a b : List FileChange} (h : Chained (a ++ b)) : Chained a := by
  intro earlier c later hsplit
  exact h earlier c (later ++ b) (by rw [hsplit, List.append_assoc, List.cons_append])

private theorem Chained.before_eq (h : Chained (changes ++ [c]))
    (hof : changesOf changes c.path ≠ []) :
    c.before = lastAfter changes c.path := by
  obtain ⟨previous, hlast⟩ := Option.isSome_iff_exists.mp (List.getLast?_isSome.mpr hof)
  rw [lastAfter, hlast]
  exact h changes c [] rfl previous hlast

private theorem mergeFileChange_total (merged : Dict RelativePath FileChange) (c : FileChange) :
    ∃ merged', mergeFileChange merged c = .ok merged' := by
  unfold mergeFileChange
  split
  · exact ⟨_, rfl⟩
  · next existing _ =>
    dsimp only
    split
    · exact ⟨_, rfl⟩
    · next hsome =>
      split
      · next hnone =>
        exfalso
        rw [Option.or_eq_none_iff] at hnone
        obtain ⟨hafter, hbefore⟩ := hnone
        refine hsome ⟨?_, ?_⟩
        · cases hb : existing.beforeHash <;>
            simp [FileChange.resolvedBeforeNodeType, hb] at hbefore ⊢
        · cases ha : c.afterHash <;> simp [FileChange.resolvedAfterNodeType, ha] at hafter ⊢
      · exact ⟨_, rfl⟩

private theorem mergedChanges_total (changes : List FileChange) :
    ∃ merged, mergedChanges changes = .ok merged := by
  induction changes using List.reverseRecOn with
  | nil => exact ⟨_, rfl⟩
  | append_singleton changes c ih =>
    obtain ⟨m, hm⟩ := ih
    obtain ⟨merged, hmerged⟩ := mergeFileChange_total m c
    exact ⟨merged, mergedChanges_snoc.2 ⟨m, hm, hmerged⟩⟩

private theorem mergeFileChange_self {merged' : Dict RelativePath FileChange}
    (h : mergeFileChange merged c = .ok merged') :
    (merged.get? c.path = none ∧ ∃ r, merged'.get? c.path = some r ∧ r.Resolved ∧
      r.before = c.before ∧ r.after = c.after) ∨
    ∃ existing, merged.get? c.path = some existing ∧
      ((existing.before = none ∧ c.after = none ∧ merged'.get? c.path = none) ∨
        (¬ (existing.before = none ∧ c.after = none) ∧ ∃ r, merged'.get? c.path = some r ∧
          r.Resolved ∧ r.before = existing.before ∧ r.after = c.after)) := by
  unfold mergeFileChange at h
  split at h
  · next hnone =>
    obtain rfl := Except.ok.inj h
    refine .inl ⟨hnone, _, Dict.get?_set_self _ _ _, ⟨?_, ?_⟩, ?_, ?_⟩
    · cases hb : c.beforeHash <;> simp [FileChange.resolvedBeforeNodeType, hb]
    · cases ha : c.afterHash <;> simp [FileChange.resolvedAfterNodeType, ha]
    · cases hb : c.beforeHash <;> simp [FileChange.before, FileChange.resolvedBeforeNodeType, hb]
    · cases ha : c.afterHash <;> simp [FileChange.after, FileChange.resolvedAfterNodeType, ha]
  · next existing hexisting =>
    refine .inr ⟨existing, hexisting, ?_⟩
    dsimp only at h
    split at h
    · next habsent =>
      obtain rfl := Except.ok.inj h
      refine .inl ⟨?_, ?_, Dict.get?_erase_self _ _⟩
      · simpa [FileChange.before] using habsent.1
      · simpa [FileChange.after] using habsent.2
    · next hpresent =>
      split at h
      · cases h
      · next displayNodeType _ =>
        obtain rfl := Except.ok.inj h
        refine .inr ⟨?_, _, Dict.get?_set_self _ _ _, ⟨?_, ?_⟩, ?_, ?_⟩
        · simpa [FileChange.before, FileChange.after] using hpresent
        · cases hb : existing.beforeHash <;> simp [FileChange.resolvedBeforeNodeType, hb]
        · cases ha : c.afterHash <;> simp [FileChange.resolvedAfterNodeType, ha]
        · cases hb : existing.beforeHash <;>
            simp [FileChange.before, FileChange.resolvedBeforeNodeType, hb]
        · cases ha : c.afterHash <;>
            simp [FileChange.after, FileChange.resolvedAfterNodeType, ha]

private theorem mergeFileChange_of_ne {merged' : Dict RelativePath FileChange}
    (h : mergeFileChange merged c = .ok merged') (hne : path ≠ c.path) :
    merged'.get? path = merged.get? path := by
  unfold mergeFileChange at h
  split at h
  · obtain rfl := Except.ok.inj h
    exact Dict.get?_set_of_ne _ _ hne
  · dsimp only at h
    split at h
    · obtain rfl := Except.ok.inj h
      exact Dict.get?_erase_of_ne _ hne
    · split at h
      · cases h
      · obtain rfl := Except.ok.inj h
        exact Dict.get?_set_of_ne _ _ hne

private theorem mergedChanges_resolved (h : mergedChanges changes = .ok merged)
    {r : FileChange} (hr : merged.get? path = some r) : r.Resolved := by
  induction changes using List.reverseRecOn generalizing merged path r with
  | nil =>
    obtain rfl := Except.ok.inj h
    simp at hr
  | append_singleton changes c ih =>
    obtain ⟨m, hm, hmerge⟩ := mergedChanges_snoc.1 h
    by_cases hpath : path = c.path
    · subst hpath
      rcases mergeFileChange_self hmerge with
        ⟨-, r', hr', hresolved, -⟩ | ⟨_, -, ⟨-, -, hgone⟩ | ⟨-, r', hr', hresolved, -⟩⟩
      · exact Option.some.inj (hr.symm.trans hr') ▸ hresolved
      · exact absurd (hr.symm.trans hgone) nofun
      · exact Option.some.inj (hr.symm.trans hr') ▸ hresolved
    · exact ih hm ((mergeFileChange_of_ne hmerge hpath).symm.trans hr)

/-- The merged records of a chained list. -/
structure NetEffect (changes : List FileChange) (merged : Dict RelativePath FileChange) :
    Prop where
  ends : ∀ path r, merged.get? path = some r →
    r.before = firstBefore changes path ∧ r.after = lastAfter changes path
  kept : ∀ path, (merged.get? path).isSome = true ↔
    path ∈ changes.map FileChange.path ∧
      ¬ (firstBefore changes path = none ∧ lastAfter changes path = none)

/-- One more change of a chained list: a path that dropped out ended absent, so that a
record that enters again begins where its path began. -/
theorem NetEffect.concat {changes : List FileChange} {c : FileChange}
    {merged merged' : Dict RelativePath FileChange} (h : NetEffect changes merged)
    (hchained : Chained (changes ++ [c])) (hstate : ¬ (c.before = none ∧ c.after = none))
    (hmerge : mergeFileChange merged c = .ok merged') :
    NetEffect (changes ++ [c]) merged' := by
  have hmem : c.path ∈ (changes ++ [c]).map FileChange.path := by simp
  have hlast : lastAfter (changes ++ [c]) c.path = c.after := by simp [lastAfter_concat]
  have hnamed (r : FileChange) (hr : merged'.get? c.path = some r)
      (hbefore : r.before = firstBefore (changes ++ [c]) c.path) (hafter : r.after = c.after)
      (hend : ¬ (r.before = none ∧ c.after = none)) :
      (∀ s, merged'.get? c.path = some s → s.before = firstBefore (changes ++ [c]) c.path ∧
        s.after = lastAfter (changes ++ [c]) c.path) ∧
      ((merged'.get? c.path).isSome = true ↔ c.path ∈ (changes ++ [c]).map FileChange.path ∧
        ¬ (firstBefore (changes ++ [c]) c.path = none ∧
          lastAfter (changes ++ [c]) c.path = none)) := by
    refine ⟨fun s hs => ?_, fun _ => ⟨hmem, ?_⟩, fun _ => by rw [hr]; rfl⟩
    · obtain rfl := Option.some.inj (hr.symm.trans hs)
      exact ⟨hbefore, hafter.trans hlast.symm⟩
    · rwa [← hbefore, hlast]
  have hself : (∀ s, merged'.get? c.path = some s →
        s.before = firstBefore (changes ++ [c]) c.path ∧
          s.after = lastAfter (changes ++ [c]) c.path) ∧
      ((merged'.get? c.path).isSome = true ↔ c.path ∈ (changes ++ [c]).map FileChange.path ∧
        ¬ (firstBefore (changes ++ [c]) c.path = none ∧
          lastAfter (changes ++ [c]) c.path = none)) := by
    rcases mergeFileChange_self hmerge with ⟨hnone, r, hr, -, hbefore, hafter⟩ |
      ⟨existing, hexisting, hcase⟩
    · have hfirst : firstBefore (changes ++ [c]) c.path = c.before := by
        rw [firstBefore_concat]
        by_cases hof : changesOf changes c.path = []
        · rw [if_pos ⟨hof, rfl⟩]
        · -- the path had dropped out, so that it began and ended absent
          rw [if_neg fun hand => hof hand.1]
          have hgone : firstBefore changes c.path = none ∧ lastAfter changes c.path = none := by
            by_contra hsome
            have hkept := (h.kept c.path).mpr ⟨changesOf_ne_nil.1 hof, hsome⟩
            rw [hnone] at hkept
            cases hkept
          rw [hgone.1, hchained.before_eq hof, hgone.2]
      exact hnamed r hr (hbefore.trans hfirst.symm) hafter (hbefore ▸ hstate)
    · obtain ⟨hfirst, -⟩ := h.ends _ _ hexisting
      have hof : changesOf changes c.path ≠ [] :=
        changesOf_ne_nil.2 ((h.kept c.path).mp (by rw [hexisting]; rfl)).1
      have hsame : firstBefore (changes ++ [c]) c.path = existing.before := by
        rw [firstBefore_concat, if_neg fun hand => hof hand.1, hfirst]
      rcases hcase with ⟨hbefore, hafter, hgone⟩ | ⟨hsome, r, hr, -, hbefore, hafter⟩
      · rw [hgone, hsame, hlast]
        refine ⟨fun s hs => absurd hs.symm (Option.some_ne_none s), fun hsome => ?_,
          fun hkept => absurd ⟨hbefore, hafter⟩ hkept.2⟩
        exact absurd hsome Bool.false_ne_true
      · exact hnamed r hr (hbefore.trans hsame.symm) hafter (hbefore ▸ hsome)
  constructor
  · intro path r hr
    by_cases hpath : path = c.path
    · subst hpath
      exact hself.1 r hr
    · rw [firstBefore_concat, if_neg fun hand => hpath hand.2.symm, lastAfter_concat,
        if_neg (Ne.symm hpath)]
      exact h.ends path r ((mergeFileChange_of_ne hmerge hpath).symm.trans hr)
  · intro path
    by_cases hpath : path = c.path
    · subst hpath
      exact hself.2
    · rw [mergeFileChange_of_ne hmerge hpath, h.kept path, firstBefore_concat,
        if_neg fun hand => hpath hand.2.symm, lastAfter_concat, if_neg (Ne.symm hpath)]
      simp [hpath]

private theorem mergedChanges_netEffect (hchained : Chained changes)
    (hstate : ∀ c ∈ changes, ¬ (c.before = none ∧ c.after = none))
    (h : mergedChanges changes = .ok merged) :
    NetEffect changes merged := by
  induction changes using List.reverseRecOn generalizing merged with
  | nil =>
    obtain rfl := Except.ok.inj h
    exact ⟨fun path r hr => by simp at hr, fun path => by simp⟩
  | append_singleton changes c ih =>
    obtain ⟨m, hm, hmerge⟩ := mergedChanges_snoc.1 h
    have hearlier := ih hchained.of_append
      (fun d hd => hstate d (List.mem_append_left _ hd)) hm
    exact hearlier.concat hchained
      (hstate c (List.mem_append_right _ (List.mem_singleton_self c))) hmerge

private theorem applyChanges_eq (hchained : Chained changes) {tree : RecordedTree}
    (htree : ∀ path ∈ changes.map FileChange.path, tree path = firstBefore changes path) :
    applyChanges tree changes = some (netTree tree changes) := by
  induction changes using List.reverseRecOn with
  | nil => rfl
  | append_singleton changes c ih =>
    have hearlier : applyChanges tree changes = some (netTree tree changes) := by
      refine ih hchained.of_append fun path hpath => ?_
      rw [htree path (by simp [List.mem_map.mp hpath]), firstBefore_concat,
        if_neg fun hand => changesOf_ne_nil.2 hpath hand.1]
    have hshown : netTree tree changes c.path = c.before := by
      by_cases hof : changesOf changes c.path = []
      · rw [netTree, if_pos hof, htree c.path (by simp), firstBefore_concat, if_pos ⟨hof, rfl⟩]
      · rw [netTree, if_neg hof, hchained.before_eq hof]
    have hnext : Function.update (netTree tree changes) c.path c.after =
        netTree tree (changes ++ [c]) := by
      funext path
      by_cases hpath : path = c.path
      · subst hpath
        simp [netTree, changesOf_concat, lastAfter_concat]
      · rw [Function.update_of_ne hpath]
        simp [netTree, changesOf_concat, lastAfter_concat, Ne.symm hpath]
    unfold applyChanges at hearlier ⊢
    rw [List.foldlM_append, hearlier]
    simp [FileChange.applyTo, hshown, hnext]

private theorem changesOf_of_nodup (h : (changes.map FileChange.path).Nodup) (hc : c ∈ changes) :
    changesOf changes c.path = [c] := by
  induction changes with
  | nil => cases hc
  | cons d rest ih =>
    rw [List.map_cons, List.nodup_cons] at h
    rcases List.mem_cons.mp hc with rfl | hrest
    · have hnone : changesOf rest c.path = [] := by
        by_contra hof
        exact h.1 (changesOf_ne_nil.1 hof)
      unfold changesOf at hnone ⊢
      simp [hnone]
    · have hne : d.path ≠ c.path := fun he => h.1 (he ▸ List.mem_map_of_mem hrest)
      have hrest := ih h.2 hrest
      unfold changesOf at hrest ⊢
      simp [hne, hrest]

private theorem chained_of_nodup (h : (changes.map FileChange.path).Nodup) : Chained changes := by
  rintro earlier c later rfl previous hprevious
  have hmem : previous ∈ changesOf earlier c.path := List.mem_of_getLast? hprevious
  obtain ⟨hearlier, hpath⟩ := List.mem_filter.mp hmem
  rw [List.map_append, List.map_cons, List.nodup_append] at h
  have hne := h.2.2 previous.path (List.mem_map_of_mem hearlier) c.path List.mem_cons_self
  exact absurd (of_decide_eq_true hpath) hne

private theorem foldlM_mergeFileChange_resolved {entries : List (RelativePath × FileChange)}
    (hresolved : ∀ e ∈ entries, e.2.Resolved ∧ e.2.path = e.1)
    (hnew : ((merged.entries ++ entries).map Prod.fst).Nodup) :
    ∃ merged', (entries.map Prod.snd).foldlM mergeFileChange merged = .ok merged' ∧
      merged'.entries = merged.entries ++ entries := by
  induction entries generalizing merged with
  | nil => exact ⟨merged, rfl, (List.append_nil _).symm⟩
  | cons e rest ih =>
    obtain ⟨path, c⟩ := e
    obtain ⟨⟨hbefore, hafter⟩, hpath⟩ := hresolved (path, c) List.mem_cons_self
    have hpath : c.path = path := hpath
    have hfree : merged.get? c.path = none := by
      rw [hpath, Option.eq_none_iff_forall_ne_some]
      intro r hr
      have hmem := List.mem_map_of_mem (f := Prod.fst) ((merged.get?_eq_some_iff _ _).mp hr)
      rw [List.map_append, List.nodup_append] at hnew
      exact hnew.2.2 path hmem path List.mem_cons_self rfl
    have hone : mergeFileChange merged c = .ok (merged.set c.path c) := by
      simp only [mergeFileChange, hfree, ← hbefore, ← hafter]
    have hset : (merged.set c.path c).entries = merged.entries ++ [(path, c)] := by
      rw [merged.entries_set_of_new hfree, hpath]
    have hrest : (((merged.set c.path c).entries ++ rest).map Prod.fst).Nodup := by
      rwa [hset, List.append_assoc, List.singleton_append]
    obtain ⟨merged', hfold, hentries⟩ := ih (fun e he => hresolved e (List.mem_cons_of_mem _ he))
      hrest
    refine ⟨merged', ?_, ?_⟩
    · rw [List.map_cons, List.foldlM_cons, hone]
      exact hfold
    · rw [hentries, hset, List.append_assoc, List.singleton_append]

private theorem mergedChanges_values
    (h : mergedChanges changes = .ok merged) : mergedChanges merged.values = .ok merged := by
  have hresolved : ∀ e ∈ merged.entries, e.2.Resolved ∧ e.2.path = e.1 := by
    intro e he
    have hget := (merged.get?_eq_some_iff e.1 e.2).mpr he
    exact ⟨mergedChanges_resolved h hget, (mergedChanges_path h hget).1⟩
  have hnew : (((Dict.empty : Dict RelativePath FileChange).entries ++ merged.entries).map
      Prod.fst).Nodup := merged.nodup
  obtain ⟨merged', hfold, hentries⟩ := foldlM_mergeFileChange_resolved hresolved hnew
  obtain ⟨entries, hnodup⟩ := merged
  obtain ⟨entries', hnodup'⟩ := merged'
  obtain rfl : entries' = entries := hentries
  exact hfold

private theorem mergedChanges_append {a b : List FileChange} (h : mergedChanges a = .ok merged) :
    mergedChanges (a ++ b) = b.foldlM mergeFileChange merged := by
  unfold mergedChanges at h ⊢
  rw [List.foldlM_append, h]
  rfl

/-- The merged records of a chained list have its first before-states. -/
theorem NetEffect.firstBefore_values (h : NetEffect changes merged)
    (hpath : ∀ path r, merged.get? path = some r → r.path = path)
    (hnodup : (merged.values.map FileChange.path).Nodup) {tree : RecordedTree}
    (htree : ∀ path ∈ changes.map FileChange.path, tree path = firstBefore changes path) :
    (∀ path ∈ merged.values.map FileChange.path,
      tree path = firstBefore merged.values path) ∧
    netTree tree merged.values = netTree tree changes := by
  have hof (path : RelativePath) (r : FileChange) (hr : merged.get? path = some r) :
      changesOf merged.values path = [r] := by
    rw [← hpath path r hr]
    exact changesOf_of_nodup hnodup ((merged.mem_values_iff r).mpr ⟨path, hr⟩)
  constructor
  · intro path hmem
    obtain ⟨r, hr, rfl⟩ := List.mem_map.mp hmem
    obtain ⟨path, hget⟩ := (merged.mem_values_iff r).mp hr
    obtain rfl := hpath path r hget
    have hkept := (h.kept r.path).mp (by rw [hget]; rfl)
    rw [htree r.path hkept.1, ← (h.ends r.path r hget).1]
    simp [firstBefore, hof r.path r hget]
  · funext path
    cases hget : merged.get? path with
    | some r =>
      have hkept := (h.kept path).mp (by rw [hget]; rfl)
      rw [netTree, netTree, if_neg (by simp [hof path r hget]),
        if_neg (changesOf_ne_nil.2 hkept.1), ← (h.ends path r hget).2]
      simp [lastAfter, hof path r hget]
    | none =>
      have hnone : changesOf merged.values path = [] := by
        by_contra hsome
        obtain ⟨r, hr, hrpath⟩ := List.mem_map.mp (changesOf_ne_nil.1 hsome)
        obtain ⟨key, hkey⟩ := (merged.mem_values_iff r).mp hr
        have hsame : key = path := (hpath key r hkey).symm.trans hrpath
        rw [hsame, hget] at hkey
        cases hkey
      rw [netTree, if_pos hnone, netTree]
      by_cases hchanged : changesOf changes path = []
      · rw [if_pos hchanged]
      · rw [if_neg hchanged]
        have habsent : firstBefore changes path = none ∧ lastAfter changes path = none := by
          by_contra hsome
          have hkept := (h.kept path).mpr ⟨changesOf_ne_nil.1 hchanged, hsome⟩
          rw [hget] at hkept
          cases hkept
        rw [htree path (changesOf_ne_nil.1 hchanged), habsent.1, habsent.2]

/-- Merging a chained list of changes that have a state on one of their sides keeps one
change a path with the first before-state and the last after-state, omits what both began
and ended absent, leads from every tree that shows the first before-states to where the
list leads, and may be done in parts. -/
theorem mergeFileChanges_net_effect {changes : List FileChange} (hchained : Chained changes)
    (hstate : ∀ c ∈ changes, ¬ (c.before = none ∧ c.after = none)) :
    ∃ merged, mergeFileChanges changes = .ok merged ∧
      (merged.map FileChange.path).Nodup ∧
      (∀ c ∈ merged, c.before = firstBefore changes c.path ∧
        c.after = lastAfter changes c.path) ∧
      (∀ path, path ∈ merged.map FileChange.path ↔ path ∈ changes.map FileChange.path ∧
        ¬ (firstBefore changes path = none ∧ lastAfter changes path = none)) ∧
      (∀ tree : RecordedTree,
        (∀ path ∈ changes.map FileChange.path, tree path = firstBefore changes path) →
        ∃ net, applyChanges tree changes = some net ∧ applyChanges tree merged = some net) ∧
      ∀ a b, changes = a ++ b → ∃ first, mergeFileChanges a = .ok first ∧
        mergeFileChanges (first ++ b) = .ok merged := by
  obtain ⟨merged, hmerged⟩ := mergedChanges_total changes
  have hnet := mergedChanges_netEffect hchained hstate hmerged
  have hpath (path : RelativePath) (r : FileChange) (hr : merged.get? path = some r) :
      r.path = path := (mergedChanges_path hmerged hr).1
  have hmerge : mergeFileChanges changes = .ok merged.values := by
    rw [mergeFileChanges, hmerged]
    rfl
  have hnodup := mergeFileChanges_nodup hmerge
  refine ⟨merged.values, hmerge, hnodup, fun c hc => ?_, fun path => ?_, fun tree htree => ?_, ?_⟩
  · obtain ⟨path, hget⟩ := (merged.mem_values_iff c).mp hc
    obtain rfl := hpath path c hget
    exact hnet.ends c.path c hget
  · rw [← hnet.kept path]
    constructor
    · intro hmem
      obtain ⟨c, hc, rfl⟩ := List.mem_map.mp hmem
      obtain ⟨path, hget⟩ := (merged.mem_values_iff c).mp hc
      obtain rfl := hpath path c hget
      rw [hget]
      rfl
    · intro hsome
      obtain ⟨c, hget⟩ := Option.isSome_iff_exists.mp hsome
      exact List.mem_map.mpr ⟨c, (merged.mem_values_iff c).mpr ⟨path, hget⟩, hpath path c hget⟩
  · obtain ⟨hshown, hsame⟩ := hnet.firstBefore_values hpath hnodup htree
    refine ⟨netTree tree changes, applyChanges_eq hchained htree, ?_⟩
    rw [applyChanges_eq (chained_of_nodup hnodup) hshown, hsame]
  · rintro a b rfl
    obtain ⟨first, hfirst⟩ := mergedChanges_total a
    refine ⟨first.values, ?_, ?_⟩
    · rw [mergeFileChanges, hfirst]
      rfl
    · rw [mergeFileChanges, mergedChanges_append (mergedChanges_values hfirst),
        ← mergedChanges_append hfirst]
      exact hmerge

/-- A record of a file `a` between two digests. -/
def sampleChange (before after : Option String) : FileChange :=
  ⟨none, ⟨"a", []⟩, .updated, .file, none, none, before, after, none, none, none, none,
    by decide⟩

/-- A file is created and deleted, and created again. -/
theorem mergeFileChanges_net_effect_recreated :
    ∃ merged, mergeFileChanges [sampleChange none (some "1"), sampleChange (some "1") none,
        sampleChange none (some "2")] = .ok merged ∧
      merged.map FileChange.path = [⟨"a", []⟩] ∧ (merged.map FileChange.path).Nodup := by
  have hchained : Chained [sampleChange none (some "1"), sampleChange (some "1") none,
      sampleChange none (some "2")] :=
    ((throughout_nil.concat (fun _ h => absurd h (by simp [changesOf]))).concat
      (fun previous h => by
        simp [changesOf, sampleChange] at h
        subst h
        rfl)).concat (fun previous h => by
        simp [changesOf, sampleChange] at h
        subst h
        rfl)
  obtain ⟨merged, hmerge, hnodup, -, hkept, -⟩ :=
    mergeFileChanges_net_effect hchained (by decide)
  refine ⟨merged, hmerge, ?_, hnodup⟩
  have hvalue : (mergeFileChanges [sampleChange none (some "1"), sampleChange (some "1") none,
      sampleChange none (some "2")]).map (List.map FileChange.path) = .ok [⟨"a", []⟩] := by decide
  rw [hmerge] at hvalue
  exact Except.ok.inj hvalue

/-- A record without a state on either side, which the journal never writes, is kept. -/
theorem mergeFileChanges_keeps_absent :
    Chained [sampleChange none none] ∧
      firstBefore [sampleChange none none] ⟨"a", []⟩ = none ∧
      lastAfter [sampleChange none none] ⟨"a", []⟩ = none ∧
      mergeFileChanges [sampleChange none none] = .ok [sampleChange none none] := by
  refine ⟨chained_of_nodup (by decide), by decide, by decide, by decide⟩

end AwesomeAgent
