import AwesomeAgent.Storage.Transaction

/-!
# Reset of the local state

A reset renames the state directory aside, makes a fresh one and removes the old tree entry
by entry. A step that fails puts back the tree that was set aside, or what is left of it.
-/

namespace AwesomeAgent.Storage

mutual

/-- A file or a directory. -/
inductive StateNode
  | file (content : List UInt8)
  | directory (entries : StateEntries)

/-- The entries of a directory, as a scan lists them. -/
inductive StateEntries
  | nil
  | cons (name : String) (node : StateNode) (rest : StateEntries)

end

mutual

/-- The removals of single entries that remove a node. -/
def StateNode.removals : StateNode → Nat
  | .file _ => 1
  | .directory entries => entries.removals + 1

/-- The removals of single entries that empty a directory. -/
def StateEntries.removals : StateEntries → Nat
  | .nil => 0
  | .cons _ node rest => node.removals + rest.removals

end

mutual

/-- Remove a node from its leaves up, until the removals that succeed are used up: what is left
of it, and of the removals. -/
def StateNode.remove : StateNode → Nat → Option StateNode × Nat
  | .file content, 0 => (some (.file content), 0)
  | .file _, budget + 1 => (none, budget)
  | .directory entries, budget =>
      match entries.remove budget with
      | (.nil, budget + 1) => (none, budget)
      | (left, budget) => (some (.directory left), budget)

/-- Remove the entries of a directory one after another. -/
def StateEntries.remove : StateEntries → Nat → StateEntries × Nat
  | .nil, budget => (.nil, budget)
  | .cons name node rest, budget =>
      match node.remove budget with
      | (none, budget) => rest.remove budget
      | (some left, budget) => (.cons name left rest, budget)

end

/-- What a recursive removal leaves: nothing, or the rest of the tree if a removal fails after
some number of others. -/
def rmtree (fault : Option Nat) (node : StateNode) : Option StateNode :=
  fault.bind fun removed => (node.remove removed).1

/-- The home of a lease, and where its state directory leads. -/
structure StateBoundary where
  /-- Components of the resolved home. -/
  home : List String
  /-- The state directory is a symbolic link. -/
  isSymlink : Bool
  /-- Components of the resolved state directory. -/
  resolved : List String
  deriving DecidableEq, Repr

/-- A reset that is refused or has failed. -/
structure StateResetError where
  code : String
  path : List String
  deriving DecidableEq, Repr

/-- Why a reset raises: with a code of its own, or with the fault of the first initialization. -/
inductive StateResetFault
  | resetError (error : StateResetError)
  | initializationError
  deriving DecidableEq, Repr

/-- The state directory of a home and the directory that an old state is staged in. -/
structure StateHome where
  state : Option StateNode
  staging : Option StateNode

/-- How the initialization fails. -/
inductive InitializationFault
  | mkdir
  | database (left : StateEntries)

/-- The steps of a reset that fail; a removal fails after some number of others. -/
structure ResetFaults where
  replacement : Bool
  initialization : Option InitializationFault
  cleanup : Option Nat
  removal : Option Nat
  rollbackRemoval : Option Nat
  rollbackRename : Bool

/-- Check the lease and the place of the state directory. -/
def validatedBoundary (lease : StateLease) (boundary : StateBoundary) :
    Except StateResetError (List String) :=
  if !lease.active || lease.mode ≠ .exclusive then
    .error ⟨"exclusive_lease_required", boundary.home ++ ["state"]⟩
  else if boundary.isSymlink then .error ⟨"invalid_state_boundary", boundary.home ++ ["state"]⟩
  else if boundary.resolved.dropLast ≠ boundary.home ∨
      boundary.resolved.getLast? ≠ some "state" then
    .error ⟨"invalid_state_boundary", boundary.resolved⟩
  else .ok boundary.resolved

/-- Make the state directory and its database; a failure removes what was made. -/
def initializeFreshState (faults : ResetFaults) (fresh : StateEntries) (home : StateHome) :
    Bool × StateHome :=
  match faults.initialization with
  | none => (true, { home with state := some (.directory fresh) })
  | some .mkdir => (false, { home with state := home.state.bind (rmtree faults.cleanup) })
  | some (.database left) =>
      (false, { home with state := rmtree faults.cleanup (.directory left) })

/-- Remove the fresh state and rename the staged tree back. -/
def restoreOriginalState (faults : ResetFaults) (home : StateHome) : Bool × StateHome :=
  match home.state.bind (rmtree faults.rollbackRemoval), home.staging with
  | some left, staging => (false, ⟨some left, staging⟩)
  | none, none => (true, ⟨none, none⟩)
  | none, some staged =>
      if faults.rollbackRename then (false, ⟨none, some staged⟩) else (true, ⟨some staged, none⟩)

/-- The error after a restoration. -/
def restored (code : String) (stateDir : List String) (r : Bool × StateHome) :
    Except StateResetFault Unit × StateHome :=
  (.error (.resetError ⟨if r.1 then code else "state_rollback_failed", stateDir⟩), r.2)

/-- Replace the local state by a fresh one. -/
def resetLocalState (lease : StateLease) (boundary : StateBoundary) (faults : ResetFaults)
    (fresh : StateEntries) (home : StateHome) : Except StateResetFault Unit × StateHome :=
  match validatedBoundary lease boundary with
  | .error error => (.error (.resetError error), home)
  | .ok stateDir =>
      match home.state with
      | none =>
          match initializeFreshState faults fresh home with
          | (true, home) => (.ok (), home)
          | (false, home) => (.error .initializationError, home)
      | some original =>
          if faults.replacement then
            (.error (.resetError ⟨"state_replacement_failed", stateDir⟩), home)
          else
            match initializeFreshState faults fresh ⟨none, some original⟩ with
            | (false, home) =>
                restored "fresh_state_initialization_failed" stateDir
                  (restoreOriginalState faults home)
            | (true, home) =>
                match rmtree faults.removal original with
                | none => (.ok (), { home with staging := none })
                | some left =>
                    restored "state_cleanup_failed" stateDir
                      (restoreOriginalState faults { home with staging := some left })

mutual

/-- A removal that fails leaves the rest of the node. -/
theorem StateNode.remove_spec (node : StateNode) (budget : Nat) :
    (budget < node.removals → ∃ left, node.remove budget = (some left, 0) ∧
      left.removals + budget = node.removals) ∧
    (node.removals ≤ budget → node.remove budget = (none, budget - node.removals)) := by
  cases node with
  | file content =>
    simp only [StateNode.removals]
    cases budget with
    | zero => exact ⟨fun _ => ⟨_, rfl, rfl⟩, fun h => by omega⟩
    | succ budget => exact ⟨fun h => by omega, fun _ => rfl⟩
  | directory entries =>
    obtain ⟨hshort, hlong⟩ := entries.remove_spec budget
    simp only [StateNode.removals, StateNode.remove]
    by_cases h : budget < entries.removals
    · obtain ⟨left, hremove, hne, hcount⟩ := hshort h
      rw [hremove]
      constructor
      · intro _
        cases left with
        | nil => exact absurd rfl hne
        | cons name node rest =>
          refine ⟨_, rfl, ?_⟩
          simp only [StateNode.removals]
          omega
      · omega
    · rw [hlong (Nat.le_of_not_lt h)]
      constructor
      · intro hlt
        have he : budget - entries.removals = 0 := by omega
        rw [he]
        refine ⟨_, rfl, ?_⟩
        simp only [StateNode.removals, StateEntries.removals]
        omega
      · intro hle
        obtain ⟨n, hn⟩ := Nat.exists_eq_succ_of_ne_zero (n := budget - entries.removals) (by omega)
        rw [hn]
        have he : budget - (entries.removals + 1) = n := by omega
        rw [he]

/-- A removal with a budget removes everything or stops where the budget ends. -/
theorem StateEntries.remove_spec (entries : StateEntries) (budget : Nat) :
    (budget < entries.removals → ∃ left, entries.remove budget = (left, 0) ∧ left ≠ .nil ∧
      left.removals + budget = entries.removals) ∧
    (entries.removals ≤ budget →
      entries.remove budget = (.nil, budget - entries.removals)) := by
  cases entries with
  | nil => exact ⟨fun h => absurd h (Nat.not_lt_zero _), fun _ => rfl⟩
  | cons name node rest =>
    obtain ⟨hshort, hlong⟩ := node.remove_spec budget
    simp only [StateEntries.removals, StateEntries.remove]
    by_cases h : budget < node.removals
    · obtain ⟨left, hremove, hcount⟩ := hshort h
      rw [hremove]
      constructor
      · intro _
        refine ⟨_, rfl, by simp, ?_⟩
        simp only [StateEntries.removals]
        omega
      · omega
    · rw [hlong (Nat.le_of_not_lt h)]
      obtain ⟨hrest, hall⟩ := rest.remove_spec (budget - node.removals)
      constructor
      · intro hlt
        obtain ⟨left, hremove, hne, hcount⟩ := hrest (by omega)
        exact ⟨left, hremove, hne, by omega⟩
      · intro hle
        simp only [hall (Nat.le_sub_of_add_le' hle), Nat.sub_sub]

end

mutual

/-- A removal that fails at once leaves the node as it is. -/
theorem StateNode.remove_zero (node : StateNode) : node.remove 0 = (some node, 0) := by
  cases node with
  | file content => rfl
  | directory entries =>
    rw [StateNode.remove, entries.remove_zero]
    cases entries <;> rfl

/-- A removal without a budget removes nothing. -/
theorem StateEntries.remove_zero (entries : StateEntries) : entries.remove 0 = (entries, 0) := by
  cases entries with
  | nil => rfl
  | cons name node rest =>
    rw [StateEntries.remove, node.remove_zero]

end

private theorem rmtree_eq_none_iff {fault : Option Nat} {node : StateNode} :
    rmtree fault node = none ↔ ∀ removed ∈ fault, node.removals ≤ removed := by
  cases fault with
  | none => simp [rmtree]
  | some removed =>
    obtain ⟨hshort, hlong⟩ := node.remove_spec removed
    simp only [rmtree, Option.bind_some, Option.mem_some_iff, forall_eq']
    by_cases h : removed < node.removals
    · obtain ⟨left, hremove, -⟩ := hshort h
      rw [hremove]
      simpa using h
    · rw [hlong (Nat.le_of_not_lt h)]
      simpa using h

private theorem rmtree_eq_self_iff {fault : Option Nat} {node : StateNode} :
    rmtree fault node = some node ↔ fault = some 0 := by
  cases fault with
  | none => simp [rmtree]
  | some removed =>
    obtain ⟨hshort, hlong⟩ := node.remove_spec removed
    simp only [rmtree, Option.bind_some, Option.some.injEq]
    constructor
    · intro he
      by_cases h : removed < node.removals
      · obtain ⟨left, hremove, hcount⟩ := hshort h
        rw [hremove] at he
        obtain rfl := Option.some.inj he
        omega
      · rw [hlong (Nat.le_of_not_lt h)] at he
        cases he
    · rintro rfl
      rw [node.remove_zero]

/-- The error says that the rollback has failed. -/
def StateResetFault.isRollback : StateResetFault → Bool
  | .resetError error => error.code = "state_rollback_failed"
  | .initializationError => false

/-- Either the old state is kept as a whole or the fresh one is there instead. -/
structure AllOrNothing (original : Option StateNode) (fresh : StateEntries)
    (r : Except StateResetFault Unit × StateHome) : Prop where
  /-- After an error the original is back. -/
  raised : ∀ fault node, r.1 = .error fault → original = some node →
    fault.isRollback = false → r.2.state = some node
  /-- If the error says that the rollback has failed, the original is staged. -/
  staged : ∀ fault node, r.1 = .error fault → original = some node →
    fault.isRollback = true → r.2.staging = some node
  /-- After a return the fresh state is there and nothing is staged. -/
  returned : r.1 = .ok () → r.2.state = some (.directory fresh) ∧ r.2.staging = none
  /-- Original and fresh state are never both lost. -/
  kept : ∀ node, original = some node → r.2.state = some node ∨ r.2.staging = some node ∨
    r.2.state = some (.directory fresh)

/-- The staged tree is reached, and one of its entries cannot be removed after others were. -/
def RemovedInPart (lease : StateLease) (boundary : StateBoundary) (faults : ResetFaults)
    (original : Option StateNode) : Prop :=
  (∃ stateDir, validatedBoundary lease boundary = .ok stateDir) ∧ faults.replacement = false ∧
    faults.initialization = none ∧ ∃ node ∈ original, ∃ removed ∈ faults.removal,
      0 < removed ∧ removed < node.removals

section Reset

variable {lease : StateLease} {boundary : StateBoundary} {faults : ResetFaults}
  {fresh : StateEntries} {stateDir : List String}

private theorem validatedBoundary_error {error : StateResetError}
    (h : validatedBoundary lease boundary = .error error) :
    (StateResetFault.resetError error).isRollback = false := by
  unfold validatedBoundary at h
  split_ifs at h
  all_goals
    cases h
    rfl

private theorem restoreOriginalState_cases (state : Option StateNode) (staged : StateNode) :
    restoreOriginalState faults ⟨state, some staged⟩ = (true, ⟨some staged, none⟩) ∨
      ∃ left, restoreOriginalState faults ⟨state, some staged⟩ = (false, ⟨left, some staged⟩) := by
  cases hstate : state.bind (rmtree faults.rollbackRemoval) with
  | some left => exact .inr ⟨some left, by simp only [restoreOriginalState, hstate]⟩
  | none =>
    simp only [restoreOriginalState, hstate]
    split
    · exact .inr ⟨none, rfl⟩
    · exact .inl rfl

private theorem restored_allOrNothing_iff {code : String} (hcode : code ≠ "state_rollback_failed")
    (state : Option StateNode) (original staged : StateNode) :
    AllOrNothing (some original) fresh
      (restored code stateDir (restoreOriginalState faults ⟨state, some staged⟩)) ↔
        staged = original := by
  have hback : (StateResetFault.resetError ⟨code, stateDir⟩).isRollback = false := by
    simpa [StateResetFault.isRollback] using hcode
  rcases restoreOriginalState_cases state staged with hr | ⟨left, hr⟩ <;> rw [hr]
  · constructor
    · intro h
      exact Option.some.inj (h.raised _ original rfl rfl hback)
    · rintro rfl
      refine ⟨?_, ?_, fun h => (by cases h), ?_⟩
      · rintro _ node - ⟨rfl⟩ -
        rfl
      · rintro _ node ⟨rfl⟩ - hrollback
        rw [show (if true = true then code else "state_rollback_failed") = code from rfl,
          hback] at hrollback
        cases hrollback
      · rintro node ⟨rfl⟩
        exact .inl rfl
  · constructor
    · intro h
      exact Option.some.inj (h.staged _ original rfl rfl rfl)
    · rintro rfl
      refine ⟨?_, ?_, fun h => (by cases h), ?_⟩
      · rintro _ node ⟨rfl⟩ - hrollback
        cases hrollback
      · rintro _ node - ⟨rfl⟩ -
        rfl
      · rintro node ⟨rfl⟩
        exact .inr (.inl rfl)

private theorem rmtree_eq_some {fault : Option Nat} {node left : StateNode}
    (h : rmtree fault node = some left) : ∃ removed, fault = some removed ∧
      removed < node.removals ∧ (left = node ↔ removed = 0) := by
  obtain ⟨removed, hfault, hlt⟩ : ∃ removed, fault = some removed ∧ removed < node.removals := by
    by_contra hc
    have hnone : rmtree fault node = none := by
      rw [rmtree_eq_none_iff]
      intro removed hfault
      by_contra hlt
      exact hc ⟨removed, hfault, Nat.lt_of_not_le hlt⟩
    cases hnone.symm.trans h
  refine ⟨removed, hfault, hlt, ?_⟩
  have hself : rmtree fault node = some node ↔ fault = some 0 := rmtree_eq_self_iff
  rw [h, hfault, Option.some.injEq, Option.some.injEq] at hself
  exact hself

/-- A reset is all or nothing exactly unless the staged tree is removed in part. -/
theorem state_reset_all_or_nothing_iff (lease : StateLease) (boundary : StateBoundary)
    (faults : ResetFaults) (fresh : StateEntries) (original : Option StateNode) :
    AllOrNothing original fresh
      (resetLocalState lease boundary faults fresh ⟨original, none⟩) ↔
        ¬ RemovedInPart lease boundary faults original := by
  unfold resetLocalState
  cases hvalid : validatedBoundary lease boundary with
  | error error =>
    refine iff_of_true ⟨fun _ _ _ h _ => h, ?_, fun h => (by cases h), fun _ h => .inl h⟩ ?_
    · rintro _ node ⟨rfl⟩ - hrollback
      cases (validatedBoundary_error hvalid).symm.trans hrollback
    · rintro ⟨⟨dir, hdir⟩, -⟩
      cases hvalid.symm.trans hdir
  | ok stateDir =>
    cases original with
    | none =>
      refine iff_of_true ⟨fun _ _ _ h => (by cases h), fun _ _ _ h => (by cases h), ?_,
        fun _ h => by cases h⟩ ?_
      · unfold initializeFreshState
        cases faults.initialization with
        | none => exact fun _ => ⟨rfl, rfl⟩
        | some fault => cases fault <;> exact fun h => by cases h
      · rintro ⟨-, -, -, node, hnode, -⟩
        cases hnode
    | some original =>
      dsimp only
      split
      · next hreplacement =>
        refine iff_of_true ⟨fun _ _ _ h _ => h, ?_, fun h => (by cases h), fun _ h => .inl h⟩ ?_
        · rintro _ node ⟨rfl⟩ - hrollback
          cases hrollback
        · rintro ⟨-, hrename, -⟩
          cases hreplacement.symm.trans hrename
      · next hreplacement =>
        have hfailed : ∀ state : Option StateNode, faults.initialization ≠ none →
            (AllOrNothing (some original) fresh (restored "fresh_state_initialization_failed"
              stateDir (restoreOriginalState faults ⟨state, some original⟩)) ↔
                ¬ RemovedInPart lease boundary faults (some original)) := by
          intro state hinit
          refine iff_of_true ((restored_allOrNothing_iff (by decide) _ _ _).mpr rfl) ?_
          rintro ⟨-, -, hnone, -⟩
          exact hinit hnone
        unfold initializeFreshState
        cases hinit : faults.initialization with
        | some fault =>
          cases fault with
          | mkdir => exact hfailed _ (by simp [hinit])
          | database left => exact hfailed _ (by simp [hinit])
        | none =>
          dsimp only
          cases hleft : rmtree faults.removal original with
          | none =>
            refine iff_of_true ⟨fun _ _ h => (by cases h), fun _ _ h => (by cases h),
              fun _ => ⟨rfl, rfl⟩, fun _ _ => .inr (.inr rfl)⟩ ?_
            rintro ⟨-, -, -, node, hnode, removed, hremoved, -, hlt⟩
            cases hnode
            exact Nat.not_le_of_lt hlt (rmtree_eq_none_iff.1 hleft removed hremoved)
          | some left =>
            obtain ⟨removed, hfault, hlt, hwhole⟩ := rmtree_eq_some hleft
            rw [restored_allOrNothing_iff (by decide), hwhole]
            constructor
            · rintro rfl ⟨-, -, -, node, -, removed, hremoved, hpos, -⟩
              cases hfault.symm.trans hremoved
              exact Nat.lt_irrefl 0 hpos
            · intro hpart
              by_contra hpos
              exact hpart ⟨⟨stateDir, hvalid⟩, Bool.eq_false_iff.mpr hreplacement, hinit, original,
                rfl, removed, hfault, Nat.pos_of_ne_zero hpos, hlt⟩

/-- A state directory with two files. -/
def twoFiles : StateNode :=
  .directory (.cons "application.db" (.file [1]) (.cons "application.db-wal" (.file [2]) .nil))

/-- A reset that removes the first of two files and fails at the second one: what is put back has
lost the first file, and the fresh state is gone. -/
theorem state_reset_not_all_or_nothing :
    ¬ AllOrNothing (some twoFiles) (.cons "application.db" (.file [0]) .nil)
      (resetLocalState ⟨0, .exclusive, true⟩ ⟨["home"], false, ["home", "state"]⟩
        ⟨false, none, none, some 1, none, false⟩ (.cons "application.db" (.file [0]) .nil)
        ⟨some twoFiles, none⟩) := by
  intro h
  have hstate := h.raised _ _ rfl rfl rfl
  have hleft : some (StateNode.directory (.cons "application.db-wal" (.file [2]) .nil)) =
      some twoFiles := hstate
  simp [twoFiles] at hleft

end Reset

end AwesomeAgent.Storage
