import AwesomeAgent.Mcp.SchemaVisits
import Mathlib.Data.Fintype.Card

/-!
# What an accepted schema is closed under

The scan of a schema ends: every object is examined once, and only examined objects put schemas
and references aside. What an accepted scan has examined is written down with the place of each
object, and is closed under schema positions and references.
-/

namespace AwesomeAgent.McpCatalog

open SchemaLibrary

section Ending

variable {n : Nat} [SchemaLibrary] {doc : Document n} {v : Visit n} {st st' : Scan n}

private theorem pushTarget_spec {reference : Text} {target : Schema n} (hleads : Leads doc v target)
    (h : pushTarget doc (v.pointer reference) target st = .ok st') :
    Pushes doc v st st' ∧ st'.stack.length ≤ st.stack.length + 1 ∧
      (Stacked st'.stack target ∨ ∃ identity ∈ st.visited, target = .object identity) := by
  cases target with
  | boolean b =>
    cases h
    exact ⟨pushBoolean_spec hleads, le_rfl, Or.inl ⟨_, List.mem_cons_self, rfl⟩⟩
  | object identity =>
    simp only [pushTarget] at h
    by_cases hvisited : identity ∈ st.visited
    · rw [if_pos hvisited] at h
      cases h
      exact ⟨Pushes.refl, Nat.le_succ _, Or.inr ⟨identity, hvisited, rfl⟩⟩
    · rw [if_neg hvisited] at h
      obtain ⟨dialect, hdialect, h⟩ := except_bind_ok h
      obtain ⟨-, -, h⟩ := except_bind_ok h
      obtain ⟨-, -, h⟩ := except_bind_ok h
      obtain ⟨⟨names, uri, root⟩, hentered, h⟩ := except_bind_ok h
      cases h
      exact ⟨pushEntry_spec hleads hdialect hentered, le_rfl, Or.inl ⟨_, List.mem_cons_self, rfl⟩⟩

private theorem resolveReference_spec {reference : Text} (hrefers : Refers doc v reference)
    (hpointer : isPointer (referenceFragment reference) = true)
    (h : resolveReference doc (v.pointer reference) st = .ok st') :
    ∃ target, PointsTo doc v.resourceRoot reference target ∧ Pushes doc v st st' ∧
      st'.stack.length ≤ st.stack.length + 1 ∧
      (Stacked st'.stack target ∨ ∃ identity ∈ st.visited, target = .object identity) := by
  obtain ⟨found, hfound, h⟩ := except_bind_ok h
  obtain ⟨target, rfl, hpoints⟩ := validateLocalReference_pointer hpointer hfound
  exact ⟨target, hpoints, pushTarget_spec (.pointer hrefers hpoints) h⟩

/-- The objects that have not been examined. -/
def unvisited (st : Scan n) : Finset (Fin n) := Finset.univ \ st.visited.toFinset

/-- What the scan still has to look at before it examines another object. -/
def remaining (st : Scan n) : Nat := 2 * st.pointerReferences.length + st.stack.length

variable {start : Fin n}

private theorem popStack_visited {entry : Entry n} (h : popStack doc start entry st = .ok st') :
    st' = st ∨ ∃ identity, identity ∉ st.visited ∧ st'.visited = identity :: st.visited := by
  unfold popStack at h
  split at h
  · cases h
  · split at h
    · cases h
      exact Or.inl rfl
    · split at h
      · cases h
        exact Or.inl rfl
      · rename_i hnew
        obtain ⟨dialect, -, hexamines⟩ := examine_spec h
        exact Or.inr ⟨_, hnew, hexamines.visited⟩

private theorem resolveReference_remaining {reference : PointerReference n}
    (h : resolveReference doc reference st = .ok st') :
    st'.visited = st.visited ∧ st'.pointerReferences = st.pointerReferences ∧
      st'.stack.length ≤ st.stack.length + 1 := by
  obtain ⟨found, -, h⟩ := except_bind_ok h
  cases found with
  | none =>
    cases h
    exact ⟨rfl, rfl, Nat.le_succ _⟩
  | some target =>
    cases target with
    | boolean b =>
      cases h
      exact ⟨rfl, rfl, le_rfl⟩
    | object identity =>
      simp only [pushTarget] at h
      by_cases hvisited : identity ∈ st.visited
      · rw [if_pos hvisited] at h
        cases h
        exact ⟨rfl, rfl, Nat.le_succ _⟩
      · rw [if_neg hvisited] at h
        obtain ⟨_, -, h⟩ := except_bind_ok h
        obtain ⟨_, -, h⟩ := except_bind_ok h
        obtain ⟨_, -, h⟩ := except_bind_ok h
        obtain ⟨_, -, h⟩ := except_bind_ok h
        cases h
        exact ⟨rfl, rfl, le_rfl⟩

private theorem step_progress (h : step doc start st = some (.ok st')) :
    (unvisited st').card < (unvisited st).card ∨
      (st'.visited = st.visited ∧ remaining st' < remaining st) := by
  unfold step at h
  cases hstack : st.stack with
  | cons entry stack =>
    simp only [hstack, Option.some.injEq] at h
    rcases popStack_visited h with rfl | ⟨identity, hnew, hvisited⟩
    · right
      simp [remaining, hstack]
    · left
      apply Finset.card_lt_card
      rw [Finset.ssubset_iff_of_subset]
      · refine ⟨identity, by simpa [unvisited] using hnew, ?_⟩
        simp [unvisited, hvisited]
      · intro other hother
        simp only [unvisited, hvisited, Finset.mem_sdiff, Finset.mem_univ, true_and,
          List.mem_toFinset, List.mem_cons, not_or] at hother ⊢
        exact hother.2
  | nil =>
    simp only [hstack] at h
    cases hreferences : st.pointerReferences with
    | nil => simp [hreferences] at h
    | cons reference references =>
      simp only [hreferences, Option.some.injEq] at h
      obtain ⟨hvisited, hpointers, hlength⟩ := resolveReference_remaining h
      right
      refine ⟨hvisited, ?_⟩
      simp only [List.length_nil] at hlength
      simp only [remaining, hpointers, hreferences, hstack, List.length_cons, List.length_nil]
      omega

private theorem run_mono {fuel : Nat} {outcome : Except CatalogFault (Scan n)}
    (h : run doc start fuel st = some outcome) : ∀ more, fuel ≤ more →
      run doc start more st = some outcome := by
  induction fuel generalizing st with
  | zero => cases h
  | succ fuel ih =>
    intro more hmore
    obtain ⟨more, rfl⟩ : ∃ m, more = m + 1 := ⟨more - 1, by omega⟩
    unfold run at h ⊢
    cases hstep : step doc start st with
    | none =>
      simp only [hstep] at h ⊢
      exact h
    | some result =>
      cases result with
      | error fault =>
        simp only [hstep] at h ⊢
        exact h
      | ok next =>
        simp only [hstep] at h ⊢
        exact ih h more (by omega)

private theorem run_ends (doc : Document n) (start : Fin n) (st : Scan n) :
    ∃ fuel outcome, run doc start fuel st = some outcome := by
  induction hn : (unvisited st).card using Nat.strong_induction_on generalizing st with
  | _ card ihCard =>
    induction hm : remaining st using Nat.strong_induction_on generalizing st with
    | _ size ihSize =>
      cases hstep : step doc start st with
      | none => exact ⟨1, .ok st, by simp only [run, hstep]⟩
      | some result =>
        cases result with
        | error fault => exact ⟨1, .error fault, by simp only [run, hstep]⟩
        | ok next =>
          obtain ⟨fuel, outcome, hrun⟩ : ∃ fuel outcome,
              run doc start fuel next = some outcome := by
            rcases step_progress hstep with hless | ⟨hvisited, hless⟩
            · exact ihCard _ (hn ▸ hless) next rfl
            · refine ihSize _ (hm ▸ hless) next ?_ rfl
              rw [← hn, unvisited, unvisited, hvisited]
          exact ⟨fuel + 1, outcome, by simp only [run, hstep, hrun]⟩

end Ending

section Invariant

variable {n : Nat} [SchemaLibrary] {doc : Document n}

/-- A schema has been examined or is on the stack. -/
def Covered (log : List (Visit n)) (stack : List (Entry n)) (schema : Schema n) : Prop :=
  Examined log schema ∨ Stacked stack schema

variable (doc) in
/-- The value of a reference keyword waits, or names a schema that is covered. -/
def Awaits (log : List (Visit n)) (st : Scan n) (v : Visit n) : Option (Value n) → Prop
  | none | some .null => True
  | some (.str reference) => reference.head? = some '#' ∧
      (isPointer (referenceFragment reference) = true →
        v.pointer reference ∈ st.pointerReferences ∨
          ∃ target, PointsTo doc v.resourceRoot reference target ∧ Covered log st.stack target) ∧
      (isPointer (referenceFragment reference) = false →
        v.anchor reference ∈ st.anchorReferences)
  | some _ => False

variable (doc) in
/-- What holds in every state of a scan. -/
structure Scanning (start : Fin n) (uri : Text) (dialect : Dialect) (log : List (Visit n))
    (st : Scan n) : Prop where
  visited : st.visited = log.map Visit.identity
  once : (log.map Visit.identity).Nodup
  shallow : ∀ v ∈ log, v.depth ≤ maxSchemaDepth
  reached : ∀ v ∈ log, IsRoot doc start uri dialect v ∨ ∃ u ∈ log, Arrives doc u v.entry
  arrived : ∀ entry ∈ st.stack, entry = rootEntry start uri dialect ∨
    ∃ u ∈ log, Arrives doc u entry
  started : (log = [] ∧ st.stack = [rootEntry start uri dialect]) ∨
    ∃ v ∈ log, IsRoot doc start uri dialect v
  children : ∀ v ∈ log, ∀ schema ∈ schemaChildren doc v.identity v.dialect,
    Covered log st.stack schema
  references : ∀ v ∈ log, ∀ keyword ∈ referenceKeywords,
    Awaits doc log st v (keywordValue doc v.identity keyword)
  waiting : ∀ r ∈ st.pointerReferences, ∃ u ∈ log, ∃ reference, Refers doc u reference ∧
    isPointer (referenceFragment reference) = true ∧ r = u.pointer reference
  anchors : ∀ anchor ∈ st.names.anchors,
    Declares doc log (Covered log st.stack) anchor.1 anchor.2

variable {start : Fin n} {uri : Text} {dialect : Dialect} {log log' : List (Visit n)}
  {st st' : Scan n}

omit [SchemaLibrary] in
private theorem Examined.mono (h : ∀ v ∈ log, v ∈ log') {schema : Schema n}
    (hs : Examined log schema) : Examined log' schema := by
  cases schema with
  | boolean b => trivial
  | object identity =>
    obtain ⟨v, hv, hid⟩ := hs
    exact ⟨v, h v hv, hid⟩

variable {stack : List (Entry n)} {v : Visit n} {value : Option (Value n)} {entry : Entry n}

omit [SchemaLibrary] in
private theorem Covered.mono {stack' : List (Entry n)} (hlog : ∀ v ∈ log, v ∈ log')
    (hstack : ∀ entry ∈ stack, Covered log' stack' entry.schema) (schema : Schema n)
    (h : Covered log stack schema) : Covered log' stack' schema := by
  rcases h with h | ⟨entry, hentry, rfl⟩
  · exact Or.inl (h.mono hlog)
  · exact hstack entry hentry

private theorem Awaits.mono
    (hcovered : ∀ schema, Covered log st.stack schema → Covered log' st'.stack schema)
    (hpointers : ∀ reference, v.pointer reference ∈ st.pointerReferences →
      v.pointer reference ∈ st'.pointerReferences ∨
        ∃ target, PointsTo doc v.resourceRoot reference target ∧ Covered log' st'.stack target)
    (hanchors : ∀ r ∈ st.anchorReferences, r ∈ st'.anchorReferences)
    (h : Awaits doc log st v value) : Awaits doc log' st' v value := by
  match value, h with
  | none, _ => trivial
  | some .null, _ => trivial
  | some (.str reference), h =>
    refine ⟨h.1, fun hp => ?_, fun hp => hanchors _ (h.2.2 hp)⟩
    rcases h.2.1 hp with hwaits | ⟨target, hpoints, hc⟩
    · exact hpointers reference hwaits
    · exact Or.inr ⟨target, hpoints, hcovered target hc⟩

private theorem Kept.awaits (h : Kept v st value) :
    Awaits doc log st v value := by
  match value, h with
  | none, _ => trivial
  | some .null, _ => trivial
  | some (.str reference), h => exact ⟨h.1, fun hp => Or.inl (h.2.1 hp), h.2.2⟩

private theorem Scanning.drop (h : Scanning doc start uri dialect log st)
    (hstack : st.stack = entry :: stack)
    (hexamined : Examined log entry.schema) :
    Scanning doc start uri dialect log { st with stack := stack } := by
  have hcovered : ∀ schema, Covered log st.stack schema → Covered log stack schema := by
    apply Covered.mono (fun _ hv => hv)
    intro other hother
    rw [hstack, List.mem_cons] at hother
    rcases hother with rfl | hother
    · exact Or.inl hexamined
    · exact Or.inr ⟨other, hother, rfl⟩
  exact {
    visited := h.visited
    once := h.once
    shallow := h.shallow
    reached := h.reached
    arrived := fun other hother => h.arrived other (hstack ▸ List.mem_cons_of_mem _ hother)
    started := by
      rcases h.started with ⟨hlog, hroot⟩ | hroot
      · rw [hstack] at hroot
        cases hroot
        obtain ⟨v, hv, -⟩ := hexamined
        rw [hlog] at hv
        exact absurd hv List.not_mem_nil
      · exact Or.inr hroot
    children := fun v hv schema hs => hcovered _ (h.children v hv schema hs)
    references := fun v hv keyword hk => (h.references v hv keyword hk).mono hcovered
      (fun _ hr => Or.inl hr) (fun _ hr => hr)
    waiting := h.waiting
    anchors := fun anchor ha => (h.anchors anchor ha).mono (fun _ hv => hv) hcovered }

private theorem Scanning.place (h : Scanning doc start uri dialect log st)
    {identity : Fin n} {current : Dialect} (hentry : entry ∈ st.stack)
    (hschema : entry.schema = .object identity)
    (hdialect : declaredDialect doc identity entry.dialect = .ok current) :
    IsRoot doc start uri dialect (entry.visit identity current) ∨
      ∃ u ∈ log, Arrives doc u (entry.visit identity current).entry := by
  rcases h.arrived entry hentry with rfl | ⟨u, hu, harrives⟩
  · cases hschema
    exact Or.inl ⟨rfl, rfl, rfl, rfl, hdialect⟩
  · have hinherited := harrives.dialect identity hschema
    have hsame : current = entry.dialect := by
      unfold declaredDialect at hdialect hinherited
      split at hdialect
      · rename_i hdeclares
        rw [if_pos hdeclares] at hinherited
        exact Except.ok.inj (hdialect.symm.trans hinherited)
      · exact (Except.ok.inj hdialect).symm
    obtain ⟨schema, depth, resourceUri, resourceRoot, inherited⟩ := entry
    cases hschema
    cases hsame
    exact Or.inr ⟨u, hu, harrives⟩

/-- An object is examined. -/
theorem Scanning.examine (h : Scanning doc start uri dialect log st)
    {identity : Fin n} {current : Dialect}
    (hstack : st.stack = entry :: stack) (hschema : entry.schema = .object identity)
    (hnew : identity ∉ st.visited) (hshallow : entry.depth ≤ maxSchemaDepth)
    (hdialect : declaredDialect doc identity entry.dialect = .ok current)
    (hexamines : Examines doc (entry.visit identity current) { st with stack := stack } st') :
    Scanning doc start uri dialect (entry.visit identity current :: log) st' := by
  have hplace := h.place (hstack ▸ List.mem_cons_self) hschema hdialect
  have hvid : (entry.visit identity current).identity = identity := rfl
  have hvdepth : (entry.visit identity current).depth = entry.depth := rfl
  generalize entry.visit identity current = v at hexamines hplace hvid hvdepth ⊢
  have hlog : ∀ u ∈ log, u ∈ v :: log := fun u hu => List.mem_cons_of_mem v hu
  have hcovered : ∀ schema, Covered log st.stack schema →
      Covered (v :: log) st'.stack schema := by
    apply Covered.mono hlog
    intro other hother
    rw [hstack, List.mem_cons] at hother
    rcases hother with rfl | hother
    · left
      rw [hschema]
      exact ⟨v, List.mem_cons_self, hvid⟩
    · exact Or.inr ⟨other, hexamines.kept other hother, rfl⟩
  exact {
    visited := by rw [hexamines.visited, List.map_cons, ← h.visited]
    once := by
      rw [List.map_cons, List.nodup_cons, hvid]
      exact ⟨h.visited ▸ hnew, h.once⟩
    shallow := List.forall_mem_cons.mpr ⟨hvdepth ▸ hshallow, h.shallow⟩
    reached := by
      rw [List.forall_mem_cons]
      refine ⟨hplace.imp_right fun ⟨u, hu, ha⟩ => ⟨u, hlog u hu, ha⟩, fun w hw => ?_⟩
      exact (h.reached w hw).imp_right fun ⟨u, hu, ha⟩ => ⟨u, hlog u hu, ha⟩
    arrived := by
      intro other hother
      rcases hexamines.stack other hother with hold | ha
      · exact (h.arrived other (hstack ▸ List.mem_cons_of_mem _ hold)).imp_right
          fun ⟨u, hu, ha⟩ => ⟨u, hlog u hu, ha⟩
      · exact Or.inr ⟨v, List.mem_cons_self, ha⟩
    started := by
      right
      rcases h.started with ⟨hempty, -⟩ | ⟨u, hu, hroot⟩
      · rcases hplace with hroot | ⟨u, hu, -⟩
        · exact ⟨v, List.mem_cons_self, hroot⟩
        · rw [hempty] at hu
          exact absurd hu List.not_mem_nil
      · exact ⟨u, hlog u hu, hroot⟩
    children := by
      rw [List.forall_mem_cons]
      refine ⟨fun schema hs => Or.inr (hexamines.children schema hs), fun u hu schema hs => ?_⟩
      exact hcovered schema (h.children u hu schema hs)
    references := by
      rw [List.forall_mem_cons]
      refine ⟨fun keyword hk => (hexamines.references keyword hk).awaits, fun u hu keyword hk => ?_⟩
      exact (h.references u hu keyword hk).mono hcovered
        (fun reference hr => Or.inl (hexamines.keptPointers _ hr)) hexamines.keptAnchors
    waiting := by
      intro r hr
      rcases hexamines.pointers r hr with hold | hadded
      · obtain ⟨u, hu, hu'⟩ := h.waiting r hold
        exact ⟨u, hlog u hu, hu'⟩
      · exact ⟨v, List.mem_cons_self, hadded⟩
    anchors := by
      intro anchor ha
      rcases hexamines.anchors anchor ha with hold | hadded
      · exact (h.anchors anchor hold).mono hlog hcovered
      · exact hadded.mono (fun u hu => List.mem_singleton.mp hu ▸ List.mem_cons_self)
          fun schema hs => Or.inr hs }

/-- A pointer is resolved. -/
theorem Scanning.resolve (h : Scanning doc start uri dialect log st) (hv : v ∈ log)
    {reference : Text} {target : Schema n} {references : List (PointerReference n)}
    (hreferences : st.pointerReferences = v.pointer reference :: references)
    (hpoints : PointsTo doc v.resourceRoot reference target)
    (hpushes : Pushes doc v { st with pointerReferences := references } st')
    (htarget : Stacked st'.stack target ∨ ∃ identity ∈ st.visited, target = .object identity) :
    Scanning doc start uri dialect log st' := by
  have hcovered : ∀ schema, Covered log st.stack schema → Covered log st'.stack schema :=
    Covered.mono (fun _ hv => hv) fun entry he => Or.inr ⟨entry, hpushes.kept entry he, rfl⟩
  have htarget : Covered log st'.stack target := by
    rcases htarget with hs | ⟨identity, hvisited, rfl⟩
    · exact Or.inr hs
    · rw [h.visited, List.mem_map] at hvisited
      exact Or.inl hvisited
  exact {
    visited := hpushes.visited.trans h.visited
    once := h.once
    shallow := h.shallow
    reached := h.reached
    arrived := fun entry he =>
      (hpushes.stack entry he).elim (h.arrived entry) fun ha => Or.inr ⟨v, hv, ha⟩
    started := by
      right
      rcases h.started with ⟨hempty, -⟩ | hroot
      · rw [hempty] at hv
        exact absurd hv List.not_mem_nil
      · exact hroot
    children := fun u hu schema hs => hcovered schema (h.children u hu schema hs)
    references := by
      intro u hu keyword hk
      refine (h.references u hu keyword hk).mono hcovered (fun other hother => ?_)
        (fun r hr => hpushes.anchorReferences ▸ hr)
      rw [hreferences, List.mem_cons] at hother
      rcases hother with heq | hother
      · right
        simp only [Visit.pointer, PointerReference.mk.injEq] at heq
        rw [heq.1, heq.2.2.1]
        exact ⟨target, hpoints, htarget⟩
      · left
        rw [hpushes.pointerReferences]
        exact hother
    waiting := by
      intro r hr
      rw [hpushes.pointerReferences] at hr
      exact h.waiting r (hreferences ▸ List.mem_cons_of_mem _ hr)
    anchors := by
      intro anchor ha
      rcases hpushes.anchors anchor ha with hold | hadded
      · exact (h.anchors anchor hold).mono (fun _ hv => hv) hcovered
      · exact hadded.mono (fun u hu => List.mem_singleton.mp hu ▸ hv) fun schema hs => Or.inr hs }

private theorem Scanning.step (h : Scanning doc start uri dialect log st)
    (hstep : McpCatalog.step doc start st = some (.ok st')) :
    ∃ log', Scanning doc start uri dialect log' st' := by
  unfold McpCatalog.step at hstep
  cases hstack : st.stack with
  | cons entry stack =>
    simp only [hstack, Option.some.injEq] at hstep
    unfold popStack at hstep
    split at hstep
    · cases hstep
    · rename_i hshallow
      cases hschema : entry.schema with
      | boolean b =>
        simp only [hschema] at hstep
        cases hstep
        exact ⟨log, h.drop hstack (hschema ▸ trivial)⟩
      | object identity =>
        simp only [hschema] at hstep
        by_cases hvisited : identity ∈ st.visited
        · rw [if_pos hvisited] at hstep
          cases hstep
          refine ⟨log, h.drop hstack ?_⟩
          rw [h.visited, List.mem_map] at hvisited
          exact hschema ▸ hvisited
        · rw [if_neg hvisited] at hstep
          obtain ⟨current, hdialect, hexamines⟩ := examine_spec hstep
          exact ⟨_, h.examine hstack hschema hvisited (Nat.le_of_not_lt hshallow) hdialect
            hexamines⟩
  | nil =>
    simp only [hstack] at hstep
    cases hreferences : st.pointerReferences with
    | nil => simp [hreferences] at hstep
    | cons r references =>
      simp only [hreferences, Option.some.injEq] at hstep
      obtain ⟨v, hv, reference, hrefers, hpointer, rfl⟩ :=
        h.waiting r (hreferences ▸ List.mem_cons_self)
      obtain ⟨target, hpoints, hpushes, -, htarget⟩ :=
        resolveReference_spec hrefers hpointer hstep
      rw [← hstack] at hpushes
      exact ⟨log, h.resolve hv hreferences hpoints hpushes htarget⟩

private theorem Scanning.run {fuel : Nat} (h : Scanning doc start uri dialect log st)
    (hrun : McpCatalog.run doc start fuel st = some (.ok st')) :
    ∃ log', Scanning doc start uri dialect log' st' ∧ st'.stack = [] ∧
      st'.pointerReferences = [] := by
  induction fuel generalizing log st with
  | zero => cases hrun
  | succ fuel ih =>
    unfold McpCatalog.run at hrun
    cases hstep : McpCatalog.step doc start st with
    | none =>
      simp only [hstep] at hrun
      cases hrun
      unfold McpCatalog.step at hstep
      cases hstack : st'.stack with
      | cons entry stack => simp [hstack] at hstep
      | nil =>
        cases hreferences : st'.pointerReferences with
        | cons r references => simp [hstack, hreferences] at hstep
        | nil => exact ⟨log, h, rfl, rfl⟩
    | some result =>
      cases result with
      | error fault => simp [hstep] at hrun
      | ok next =>
        simp only [hstep] at hrun
        obtain ⟨log', hnext⟩ := h.step hstep
        exact ih hnext hrun

end Invariant

section Acceptance

variable {n : Nat} [SchemaLibrary] {doc : Document n} {start : Fin n} {uri fragment : Text}
  {dialect : Dialect} {log : List (Visit n)} {st : Scan n}

private theorem Scanning.begin (hroot : resolveResourceIdentifier rootResourceUri
      (schemaIdentifier doc start dialect) = .ok (uri, fragment)) :
    Scanning doc start uri dialect [] (beginScan start uri fragment dialect) where
  visited := rfl
  once := List.nodup_nil
  shallow := nofun
  reached := nofun
  arrived := fun entry he => Or.inl (List.mem_singleton.mp he)
  started := Or.inl ⟨rfl, rfl⟩
  children := nofun
  references := nofun
  waiting := nofun
  anchors := by
    intro anchor ha
    simp only [beginScan] at ha
    split at ha
    · cases ha
    · cases List.mem_singleton.mp ha
      exact .root (Or.inr ⟨_, List.mem_singleton_self _, rfl⟩) hroot

private theorem validateLocalReference_anchor {root : Schema n} {reference : Text}
    {anchors : List Text}
    {target : Option (Schema n)} (hpointer : isPointer (referenceFragment reference) = false)
    (h : validateLocalReference doc root reference anchors = .ok target) :
    referenceFragment reference ∈ anchors := by
  simp only [isPointer, Bool.or_eq_false_iff, List.isEmpty_eq_false_iff, beq_eq_false_iff_ne]
    at hpointer
  unfold validateLocalReference at h
  split at h
  · cases h
  · simp only [hpointer.1, hpointer.2, if_false, ne_eq, not_false_eq_true, if_true] at h
    split at h
    · rename_i hcontains
      exact List.contains_iff_mem.mp hcontains
    · cases h

private theorem validateAnchorReferences_mem (h : validateAnchorReferences doc st = .ok ())
    {v : Visit n} {reference : Text} (hanchor : v.anchor reference ∈ st.anchorReferences)
    (hpointer : isPointer (referenceFragment reference) = false) :
    (v.resourceUri, referenceFragment reference) ∈ st.names.anchors := by
  have hchecked := except_forM_ok h (v.anchor reference) (List.mem_reverse.mpr hanchor)
  cases htarget : validateLocalReference doc v.resourceRoot reference
      (st.names.anchorsOf v.resourceUri) with
  | error fault => simp [Visit.anchor, htarget, Except.map] at hchecked
  | ok target =>
    have hmem := validateLocalReference_anchor hpointer htarget
    obtain ⟨⟨other, anchor⟩, hfound, heq⟩ := List.mem_map.mp hmem
    obtain ⟨hfound, hsame⟩ := List.mem_filter.mp hfound
    cases beq_iff_eq.mp hsame
    cases heq
    exact hfound

/-- What an ended scan has examined is closed when its anchors are there. -/
theorem Scanning.closed (h : Scanning doc start uri dialect log st) (hstack : st.stack = [])
    (hreferences : st.pointerReferences = [])
    (hanchors : validateAnchorReferences doc st = .ok ()) :
    Closed doc start uri dialect log := by
  have hexamined : ∀ schema, Covered log st.stack schema → Examined log schema := by
    rintro schema (hs | ⟨entry, hentry, -⟩)
    · exact hs
    · rw [hstack] at hentry
      exact absurd hentry List.not_mem_nil
  have hresolved : ∀ v ∈ log, ∀ reference, Refers doc v reference → reference.head? = some '#' ∧
      (isPointer (referenceFragment reference) = true →
        ∃ target, PointsTo doc v.resourceRoot reference target ∧ Examined log target) ∧
      (isPointer (referenceFragment reference) = false →
        v.anchor reference ∈ st.anchorReferences) := by
    rintro v hv reference ⟨keyword, hkeyword, hvalue⟩
    have hawaits := h.references v hv keyword hkeyword
    rw [hvalue] at hawaits
    refine ⟨hawaits.1, fun hpointer => ?_, hawaits.2.2⟩
    rcases hawaits.2.1 hpointer with hwaits | ⟨target, hpoints, hcovered⟩
    · rw [hreferences] at hwaits
      exact absurd hwaits List.not_mem_nil
    · exact ⟨target, hpoints, hexamined target hcovered⟩
  exact {
    once := h.once
    root := by
      rcases h.started with ⟨-, hroot⟩ | hroot
      · rw [hstack] at hroot
        cases hroot
      · exact hroot
    shallow := h.shallow
    reached := h.reached
    leads := by
      rintro v hv schema (hchild | ⟨hrefers, hpoints⟩)
      · exact hexamined schema (h.children v hv schema hchild)
      · rename_i reference
        cases hpointer : isPointer (referenceFragment reference) with
        | true =>
          obtain ⟨target, htarget, hs⟩ := (hresolved v hv reference hrefers).2.1 hpointer
          cases htarget.symm.trans hpoints
          exact hs
        | false => exact absurd (validateLocalReference_anchor hpointer hpoints) List.not_mem_nil
    references := by
      intro v hv keyword hkeyword
      have hawaits := h.references v hv keyword hkeyword
      match hvalue : keywordValue doc v.identity keyword, hawaits with
      | none, _ => trivial
      | some .null, _ => trivial
      | some (.str reference), _ =>
        obtain ⟨hhead, hpointers, hanchor⟩ := hresolved v hv reference ⟨keyword, hkeyword, hvalue⟩
        refine ⟨hhead, ?_⟩
        cases hpointer : isPointer (referenceFragment reference) with
        | true => exact Or.inl (hpointers hpointer)
        | false =>
          right
          have hmem := validateAnchorReferences_mem hanchors (hanchor hpointer) hpointer
          exact (h.anchors _ hmem).mono (fun _ hv => hv) hexamined }

private theorem Closed.examined (h : Closed doc start uri dialect log) {schema : Schema n}
    (hreach : ReachedOver doc log (.object start) schema) : Examined log schema := by
  induction hreach with
  | refl =>
    obtain ⟨v, hv, hroot⟩ := h.root
    exact ⟨v, hv, hroot.identity⟩
  | tail _ hedge _ =>
    obtain ⟨v, hv, -, hleads⟩ := hedge
    exact h.leads v hv _ hleads

/-- The scan of every schema ends. When it accepts, the objects that it has visited, each with the
place at which it was examined, are closed. -/
theorem validateStructureAndReferences_closed (doc : Document n) (start : Fin n)
    (dialect : Dialect) :
    ∃ fuel outcome, (∀ more, fuel ≤ more →
        validateStructureAndReferences doc more start dialect = some outcome) ∧
      (outcome = .ok () → ∃ uri fragment st log,
        resolveResourceIdentifier rootResourceUri (schemaIdentifier doc start dialect) =
          .ok (uri, fragment) ∧
        run doc start fuel (beginScan start uri fragment dialect) = some (.ok st) ∧
        st.visited = log.map Visit.identity ∧ Closed doc start uri dialect log ∧
        ∀ schema, ReachedOver doc log (.object start) schema → Examined log schema) := by
  unfold validateStructureAndReferences
  cases hroot : resolveResourceIdentifier rootResourceUri (schemaIdentifier doc start dialect) with
  | error fault => exact ⟨0, .error fault, fun _ _ => rfl, nofun⟩
  | ok names =>
    obtain ⟨uri, fragment⟩ := names
    obtain ⟨fuel, outcome, hrun⟩ := run_ends doc start (beginScan start uri fragment dialect)
    cases outcome with
    | error fault =>
      refine ⟨fuel, .error fault, fun more hmore => ?_, nofun⟩
      simp only [run_mono hrun more hmore]
    | ok st =>
      refine ⟨fuel, validateAnchorReferences doc st, fun more hmore => ?_, fun hanchors => ?_⟩
      · simp only [run_mono hrun more hmore]
      · obtain ⟨log, hscan, hstack, hreferences⟩ := (Scanning.begin hroot).run hrun
        have hclosed := hscan.closed hstack hreferences hanchors
        exact ⟨uri, fragment, st, log, rfl, hrun, hscan.visited, hclosed,
          fun schema hreach => hclosed.examined hreach⟩

end Acceptance

section Samples

variable [SchemaLibrary] {n : Nat}

/-- A place that some path from the whole schema leads to; its depth is the number of the levels
of the path. -/
inductive Reachable (doc : Document n) (start : Fin n) (uri : Text) (dialect : Dialect) :
    Visit n → Prop
  | root {v : Visit n} (h : IsRoot doc start uri dialect v) : Reachable doc start uri dialect v
  | next {u v : Visit n} (h : Reachable doc start uri dialect u)
      (harrives : Arrives doc u v.entry) : Reachable doc start uri dialect v

private theorem arrives_plain {doc : Document n} {u : Visit n} {identity : Fin n}
    (hleads : Leads doc u (.object identity))
    (hdeclares : (keywordValue doc identity "$schema").isSome = false)
    (hidentifier : schemaIdentifier doc identity u.dialect = none) :
    Arrives doc u
      (Visit.mk identity (u.depth + 1) u.resourceUri u.resourceRoot u.dialect).entry := by
  refine ⟨hleads, rfl, ?_, ?_⟩
  · rintro other ⟨⟩
    simp [declaredDialect, hdeclares, Visit.entry]
  · rintro other ⟨⟩
    simp [resourceOf, hidentifier, Visit.entry]

end Samples

/-- An object with the given members. -/
def objectOf {n : Nat} (members : List (String × Value n)) : Node n :=
  .object (members.foldl (fun d member => d.set member.1.toList member.2) .empty)

/-- The name of a dialect. -/
def draft4Name : Text := "http://json-schema.org/draft-04/schema#".toList

/-- Libraries that know one dialect by name and resolve no identifier. -/
@[reducible] def plainLibrary : SchemaLibrary where
  validatorFor := fun name => if name = draft4Name then some .draft4 else none
  checkSchema := fun _ _ _ _ => true
  vocabularies := fun _ => []
  resolveUri := fun _ _ => none
  unquote := id
  iterationOrder := id
  mem_iterationOrder := fun _ _ => Iff.rfl

/-- A schema whose property refers to the whole schema. -/
def recursiveSchema : Document 3
  | 0 => objectOf [("properties", .ref 1)]
  | 1 => objectOf [("child", .ref 2)]
  | 2 => objectOf [("$ref", .str "#".toList)]

/-- A schema with two references, in two dialects, to an object outside the schema positions. -/
def sharedSchema (properties : List (String × Value 7)) : Document 7
  | 0 => objectOf [("properties", .ref 1), ("x-shared", .ref 4)]
  | 1 => objectOf properties
  | 2 => objectOf [("$schema", .str draft4Name), ("$ref", .str "#/x-shared".toList)]
  | 3 => objectOf [("$ref", .str "#/x-shared".toList)]
  | 4 => objectOf [("definitions", .ref 5)]
  | 5 => objectOf [("k", .ref 6)]
  | 6 => objectOf [("$ref", .str "other.json".toList)]

attribute [local instance] plainLibrary in
private theorem recursiveSchema_reachable (k : Nat) :
    Reachable recursiveSchema 0 rootResourceUri .draft202012
      ⟨2, 2 * k + 2, rootResourceUri, .object 0, .draft202012⟩ := by
  have hidentifier : ∀ identity, schemaIdentifier recursiveSchema identity .draft202012 = none := by
    decide
  have hchild : ∀ depth, Reachable recursiveSchema 0 rootResourceUri .draft202012
      ⟨0, depth, rootResourceUri, .object 0, .draft202012⟩ →
      Reachable recursiveSchema 0 rootResourceUri .draft202012
        ⟨2, depth + 1, rootResourceUri, .object 0, .draft202012⟩ := by
    intro depth h
    have hmem : Schema.object 2 ∈ schemaChildren recursiveSchema 0 .draft202012 := by decide
    exact h.next (arrives_plain (.child hmem) rfl (hidentifier 2))
  induction k with
  | zero => exact hchild 1 (.root ⟨rfl, rfl, rfl, rfl, rfl⟩)
  | succ k ih =>
    have hvalue : keywordValue recursiveSchema 2 "$ref" = some (.str "#".toList) := by decide
    apply hchild (2 * k + 3)
    exact ih.next (arrives_plain (.pointer ⟨"$ref", by decide, hvalue⟩ rfl) rfl (hidentifier 0))

attribute [local instance] plainLibrary in
/-- A recursive schema is accepted and has paths of every depth, and the order of two properties
decides in which dialect a shared object is read. -/
theorem recursiveSchema_unbounded :
    (validateStructureAndReferences recursiveSchema 10 0 .draft202012 = some (.ok ()) ∧
      ∃ v, Reachable recursiveSchema 0 rootResourceUri .draft202012 v ∧ maxSchemaDepth < v.depth) ∧
    validateStructureAndReferences (sharedSchema [("a", .ref 2), ("b", .ref 3)]) 20 0
        .draft202012 ≠
      validateStructureAndReferences (sharedSchema [("b", .ref 3), ("a", .ref 2)]) 20 0
        .draft202012 :=
  ⟨⟨by decide, _, recursiveSchema_reachable 32, by decide⟩, by decide +kernel⟩

end AwesomeAgent.McpCatalog
