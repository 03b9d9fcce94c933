import AwesomeAgent.Changes.Records

/-!
# Merged changes of a ChangeSet

Several changes of one path merge into one that leads from the first before-state
to the last after-state. A path that ends as absent as it began drops out, and
comes last when it is created again.
-/

namespace AwesomeAgent

/-- Add one change to the merged changes. -/
def mergeFileChange (merged : Dict RelativePath FileChange) (change : FileChange) :
    Except Fault (Dict RelativePath FileChange) :=
  match merged.get? change.path with
  | none =>
      .ok (merged.set change.path { change with
        beforeNodeType := change.resolvedBeforeNodeType
        afterNodeType := change.resolvedAfterNodeType })
  | some existing =>
      let beforeExists := existing.beforeHash.isSome
      let afterExists := change.afterHash.isSome
      if beforeExists = false ∧ afterExists = false then .ok (merged.erase change.path)
      else
        let kind : FileChangeKind :=
          if beforeExists = false then .created
          else if afterExists = false then .deleted
          else .updated
        let beforeNodeType := existing.resolvedBeforeNodeType
        let afterNodeType := change.resolvedAfterNodeType
        match afterNodeType.or beforeNodeType with
        | none => .error (.changeLifecycleError "Merged file change has no node type.")
        | some displayNodeType =>
            .ok (merged.set change.path { existing with
              kind := kind
              nodeType := displayNodeType
              beforeNodeType := beforeNodeType
              afterNodeType := afterNodeType
              afterHash := change.afterHash
              afterBlob := change.afterBlob
              afterMode := change.afterMode })

/-- The merged changes by path. -/
def mergedChanges (changes : List FileChange) : Except Fault (Dict RelativePath FileChange) :=
  changes.foldlM mergeFileChange Dict.empty

/-- The merged changes in the order in which their paths were first changed. -/
def mergeFileChanges (changes : List FileChange) : Except Fault (List FileChange) :=
  (mergedChanges changes).map Dict.values

variable {merged : Dict RelativePath FileChange} {files : List FileChange}

private theorem mergeFileChange_get? {merged' : Dict RelativePath FileChange} {x : FileChange}
    (h : mergeFileChange merged x = .ok merged') {p : RelativePath} {c : FileChange}
    (hc : merged'.get? p = some c) :
    p ≠ x.path ∧ merged.get? p = some c ∨
      p = x.path ∧ (c.path = x.path ∨ ∃ e, merged.get? p = some e ∧ c.path = e.path) := by
  by_cases hp : p = x.path
  · subst hp
    refine Or.inr ⟨rfl, ?_⟩
    simp only [mergeFileChange] at h
    split at h
    · cases h
      rw [Dict.get?_set_self] at hc
      cases hc
      exact Or.inl rfl
    · next e he =>
      split at h
      · cases h
        simp at hc
      · split at h
        · cases h
        · cases h
          rw [Dict.get?_set_self] at hc
          cases hc
          exact Or.inr ⟨e, he, rfl⟩
  · refine Or.inl ⟨hp, ?_⟩
    simp only [mergeFileChange] at h
    split at h
    · cases h
      rwa [Dict.get?_set_of_ne _ _ hp] at hc
    · split at h
      · cases h
        rwa [Dict.get?_erase_of_ne _ hp] at hc
      · split at h
        · cases h
        · cases h
          rwa [Dict.get?_set_of_ne _ _ hp] at hc

/-- The last change is merged into the others. -/
theorem mergedChanges_snoc {x : FileChange} :
    mergedChanges (files ++ [x]) = .ok merged ↔
      ∃ m, mergedChanges files = .ok m ∧ mergeFileChange m x = .ok merged := by
  simp only [mergedChanges, List.foldlM_append]
  cases List.foldlM mergeFileChange Dict.empty files with
  | error fault => simp [Bind.bind, Except.bind]
  | ok m =>
    cases hx : mergeFileChange m x <;>
      simp [Bind.bind, Except.bind, List.foldlM_cons, Pure.pure, Except.pure, hx]

/-- Every merged change is stored under its path, which is the path of a recorded one. -/
theorem mergedChanges_path
    (h : mergedChanges files = .ok merged) {p : RelativePath} {c : FileChange}
    (hc : merged.get? p = some c) : c.path = p ∧ ∃ x ∈ files, x.path = p := by
  induction files using List.reverseRecOn generalizing merged p c with
  | nil =>
    cases h
    simp at hc
  | append_singleton files x ih =>
    obtain ⟨m, hm, hx⟩ := mergedChanges_snoc.1 h
    rcases mergeFileChange_get? hx hc with ⟨_, hkeep⟩ | ⟨rfl, hpath⟩
    · obtain ⟨hp, y, hy, hpath⟩ := ih hm hkeep
      exact ⟨hp, y, by simp [hy], hpath⟩
    · refine ⟨?_, x, by simp, rfl⟩
      rcases hpath with hpath | ⟨e, he, hpath⟩
      · exact hpath
      · exact hpath.trans (ih hm he).1

/-- A path is merged into one change. -/
theorem mergeFileChanges_nodup {changes : List FileChange}
    (h : mergeFileChanges files = .ok changes) : (changes.map FileChange.path).Nodup := by
  cases hm : mergedChanges files with
  | error fault => simp [mergeFileChanges, hm, Except.map] at h
  | ok merged =>
    simp only [mergeFileChanges, hm, Except.map, Except.ok.injEq] at h
    subst h
    have hmap : merged.values.map FileChange.path = merged.keys := by
      rw [Dict.values, Dict.keys, List.map_map]
      refine List.map_congr_left fun e he => ?_
      exact (mergedChanges_path hm ((merged.get?_eq_some_iff _ _).mpr he)).1
    exact hmap ▸ merged.nodup

end AwesomeAgent
