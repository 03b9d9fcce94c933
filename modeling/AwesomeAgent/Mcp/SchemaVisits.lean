import AwesomeAgent.Mcp.SchemaScan
import Mathlib.Logic.Relation

/-!
# The places of a scan

An object is examined at a place: its depth, its resource and its dialect. Examining it puts its
children and its references aside and does nothing else.
-/

namespace AwesomeAgent.McpCatalog

open SchemaLibrary

section Places

variable {n : Nat}

/-- An examined object, with its place and the dialect in which it was read. -/
structure Visit (n : Nat) where
  identity : Fin n
  depth : Nat
  resourceUri : Text
  resourceRoot : Schema n
  dialect : Dialect

/-- The place of an examined object. -/
def Visit.entry (v : Visit n) : Entry n :=
  ⟨.object v.identity, v.depth, v.resourceUri, v.resourceRoot, v.dialect⟩

/-- A schema has been examined; booleans need no examination. -/
def Examined (log : List (Visit n)) : Schema n → Prop
  | .boolean _ => True
  | .object identity => ∃ v ∈ log, v.identity = identity

variable (doc : Document n)

/-- A reference keyword of an examined object. -/
def Refers (v : Visit n) (reference : Text) : Prop :=
  ∃ keyword ∈ referenceKeywords, keywordValue doc v.identity keyword = some (.str reference)

variable [SchemaLibrary]

/-- The resource of an object that is reached inside a resource. -/
def resourceOf (identity : Fin n) (uri : Text) (root : Schema n) (dialect : Dialect) :
    Except CatalogFault (Text × Schema n) :=
  match schemaIdentifier doc identity dialect with
  | none => .ok (uri, root)
  | some identifier =>
      (resolveResourceIdentifier uri (some identifier)).map fun resource =>
        (resource.1, if resource.1 = uri then root else .object identity)

/-- What the pointer of a reference names in a resource. -/
def PointsTo (root : Schema n) (reference : Text) (target : Schema n) : Prop :=
  validateLocalReference doc root reference [] = .ok (some target)

/-- An examined object leads to the schemas in its positions and to those its pointers name. -/
inductive Leads (v : Visit n) : Schema n → Prop
  | child {schema : Schema n} (h : schema ∈ schemaChildren doc v.identity v.dialect) :
      Leads v schema
  | pointer {reference : Text} {target : Schema n} (hrefers : Refers doc v reference)
      (h : PointsTo doc v.resourceRoot reference target) : Leads v target

/-- A schema is reached from another over schema positions and pointers of examined objects. -/
def ReachedOver (log : List (Visit n)) : Schema n → Schema n → Prop :=
  Relation.ReflTransGen fun s t => ∃ v ∈ log, s = .object v.identity ∧ Leads doc v t

/-- A schema is reached from an examined object, with its place. -/
structure Arrives (v : Visit n) (entry : Entry n) : Prop where
  leads : Leads doc v entry.schema
  depth : entry.depth = v.depth + 1
  dialect : ∀ identity, entry.schema = .object identity →
    declaredDialect doc identity v.dialect = .ok entry.dialect
  resource : ∀ identity, entry.schema = .object identity →
    resourceOf doc identity v.resourceUri v.resourceRoot entry.dialect =
      .ok (entry.resourceUri, entry.resourceRoot)

/-- An anchor of a resource: an examined object has it as an anchor, or an object that is reached
has it as the fragment of its identifier. -/
inductive Declares (log : List (Visit n)) (known : Schema n → Prop) (uri anchor : Text) : Prop
  | keyword {v : Visit n} (hv : v ∈ log) (huri : v.resourceUri = uri) {keyword : String}
      (hkeyword : keyword ∈ ["$anchor", "$dynamicAnchor"])
      (h : keywordValue doc v.identity keyword = some (.str anchor))
  | identifier {v : Visit n} (hv : v ∈ log) {identity : Fin n} {dialect : Dialect} {name : Text}
      (hleads : Leads doc v (.object identity)) (hknown : known (.object identity))
      (hdialect : declaredDialect doc identity v.dialect = .ok dialect)
      (hname : schemaIdentifier doc identity dialect = some name)
      (h : resolveResourceIdentifier v.resourceUri (some name) = .ok (uri, anchor))
  | root {start : Fin n} {dialect : Dialect} (hknown : known (.object start))
      (h : resolveResourceIdentifier rootResourceUri (schemaIdentifier doc start dialect) =
        .ok (uri, anchor))

/-- The value of a reference keyword names a schema in the resource of its object. -/
def Resolves (log : List (Visit n)) (v : Visit n) : Option (Value n) → Prop
  | none | some .null => True
  | some (.str reference) => reference.head? = some '#' ∧
      ((∃ target, PointsTo doc v.resourceRoot reference target ∧ Examined log target) ∨
        Declares doc log (Examined log) v.resourceUri (referenceFragment reference))
  | some _ => False

/-- The place of the whole schema. -/
structure IsRoot (start : Fin n) (uri : Text) (dialect : Dialect) (v : Visit n) : Prop where
  identity : v.identity = start
  depth : v.depth = 1
  resourceUri : v.resourceUri = uri
  resourceRoot : v.resourceRoot = .object start
  dialect : declaredDialect doc start dialect = .ok v.dialect

/-- The examined objects of a schema are closed under its positions and its references, and each
was reached over a path of examined objects that is not too deep. -/
structure Closed (start : Fin n) (uri : Text) (dialect : Dialect) (log : List (Visit n)) :
    Prop where
  once : (log.map Visit.identity).Nodup
  root : ∃ v ∈ log, IsRoot doc start uri dialect v
  shallow : ∀ v ∈ log, v.depth ≤ maxSchemaDepth
  reached : ∀ v ∈ log, IsRoot doc start uri dialect v ∨ ∃ u ∈ log, Arrives doc u v.entry
  leads : ∀ v ∈ log, ∀ schema, Leads doc v schema → Examined log schema
  references : ∀ v ∈ log, ∀ keyword ∈ referenceKeywords,
    Resolves doc log v (keywordValue doc v.identity keyword)

end Places

section Steps

variable {n : Nat}

private theorem addAnchor_anchors {names names' : Names n} {uri anchor : Text}
    (h : names.addAnchor uri anchor = .ok names') :
    names'.anchors = (uri, anchor) :: names.anchors := by
  unfold Names.addAnchor at h
  split at h
  · cases h
  · cases h
    rfl

private theorem placeFragment_anchors {names names' : Names n} {uri fragment : Text}
    (h : names.placeFragment uri fragment = .ok names') :
    ∀ anchor ∈ names'.anchors, anchor ∈ names.anchors ∨ anchor = (uri, fragment) := by
  intro anchor ha
  unfold Names.placeFragment at h
  split at h
  · cases h
    exact Or.inl ha
  · rw [addAnchor_anchors h, List.mem_cons] at ha
    exact ha.symm

variable {identity : Fin n}

private theorem placeResource_anchors {names names' : Names n} {baseUri uri : Text}
    (h : names.placeResource baseUri uri identity = .ok names') :
    names'.anchors = names.anchors := by
  unfold Names.placeResource Names.addResource at h
  split at h
  · cases h
    rfl
  · split at h
    · obtain ⟨_, -, h⟩ := except_bind_ok h
      cases h
      rfl
    · cases h
      rfl

variable {doc : Document n}

private theorem declareAnchor_anchors {uri : Text} {names names' : Names n}
    {keyword : String} (h : declareAnchor doc identity uri names keyword = .ok names') :
    ∀ anchor ∈ names'.anchors, anchor ∈ names.anchors ∨
      (anchor.1 = uri ∧ keywordValue doc identity keyword = some (.str anchor.2)) := by
  intro anchor ha
  unfold declareAnchor at h
  split at h
  · rename_i text hvalue
    rw [addAnchor_anchors h, List.mem_cons] at ha
    rcases ha with rfl | ha
    · exact Or.inr ⟨rfl, hvalue⟩
    · exact Or.inl ha
  · cases h
    exact Or.inl ha

variable [SchemaLibrary]

private theorem enterResource_spec {names names' : Names n} {uri uri' : Text}
    {root root' : Schema n} {dialect : Dialect}
    (h : enterResource doc names identity uri root dialect = .ok (names', uri', root')) :
    resourceOf doc identity uri root dialect = .ok (uri', root') ∧
    ∀ anchor ∈ names'.anchors, anchor ∈ names.anchors ∨
      ∃ name, schemaIdentifier doc identity dialect = some name ∧
        resolveResourceIdentifier uri (some name) = .ok anchor := by
  unfold enterResource at h
  unfold resourceOf
  cases hid : schemaIdentifier doc identity dialect with
  | none =>
    simp only [hid] at h ⊢
    cases h
    exact ⟨rfl, fun anchor ha => Or.inl ha⟩
  | some name =>
    simp only [hid] at h ⊢
    obtain ⟨resource, hresource, h⟩ := except_bind_ok h
    obtain ⟨placed, hplaced, h⟩ := except_bind_ok h
    obtain ⟨named, hnamed, h⟩ := except_bind_ok h
    cases h
    refine ⟨by rw [hresource]; rfl, fun anchor ha => ?_⟩
    rcases placeFragment_anchors hnamed anchor ha with ha | rfl
    · rw [placeResource_anchors hplaced] at ha
      exact Or.inl ha
    · exact Or.inr ⟨name, rfl, hresource⟩

end Steps

section Folds

variable {n : Nat}

/-- The place of a pointer of an examined object. -/
def Visit.pointer (v : Visit n) (reference : Text) : PointerReference n :=
  ⟨reference, v.resourceUri, v.resourceRoot, v.dialect, v.depth + 1⟩

/-- The place of an anchor that an examined object refers to. -/
def Visit.anchor (v : Visit n) (reference : Text) : AnchorReference n :=
  ⟨reference, v.resourceUri, v.resourceRoot⟩

/-- The visit of an object on the stack. -/
def Entry.visit (entry : Entry n) (identity : Fin n) (dialect : Dialect) : Visit n :=
  ⟨identity, entry.depth, entry.resourceUri, entry.resourceRoot, dialect⟩

/-- A schema is on the stack. -/
def Stacked (stack : List (Entry n)) (schema : Schema n) : Prop :=
  ∃ entry ∈ stack, entry.schema = schema

variable [SchemaLibrary] (doc : Document n)

/-- The value of a reference keyword is kept for later. -/
def Kept (v : Visit n) (st : Scan n) : Option (Value n) → Prop
  | none | some .null => True
  | some (.str reference) => reference.head? = some '#' ∧
      (isPointer (referenceFragment reference) = true →
        v.pointer reference ∈ st.pointerReferences) ∧
      (isPointer (referenceFragment reference) = false →
        v.anchor reference ∈ st.anchorReferences)
  | some _ => False

/-- The reference keywords of an object put references aside and do nothing else. -/
structure Collects (v : Visit n) (st st' : Scan n) : Prop where
  stack : st'.stack = st.stack
  visited : st'.visited = st.visited
  names : st'.names = st.names
  keptPointers : ∀ r ∈ st.pointerReferences, r ∈ st'.pointerReferences
  keptAnchors : ∀ r ∈ st.anchorReferences, r ∈ st'.anchorReferences
  pointers : ∀ r ∈ st'.pointerReferences, r ∈ st.pointerReferences ∨
    ∃ reference, Refers doc v reference ∧ isPointer (referenceFragment reference) = true ∧
      r = v.pointer reference

/-- The children of an object are put on the stack, and nothing else is done. -/
structure Pushes (v : Visit n) (st st' : Scan n) : Prop where
  visited : st'.visited = st.visited
  pointerReferences : st'.pointerReferences = st.pointerReferences
  anchorReferences : st'.anchorReferences = st.anchorReferences
  kept : ∀ entry ∈ st.stack, entry ∈ st'.stack
  stack : ∀ entry ∈ st'.stack, entry ∈ st.stack ∨ Arrives doc v entry
  anchors : ∀ anchor ∈ st'.names.anchors, anchor ∈ st.names.anchors ∨
    Declares doc [v] (Stacked st'.stack) anchor.1 anchor.2

variable {doc} {v : Visit n} {st st' st'' : Scan n}

private theorem Collects.refl : Collects doc v st st :=
  ⟨rfl, rfl, rfl, fun _ h => h, fun _ h => h, fun _ h => Or.inl h⟩

private theorem Collects.trans (h : Collects doc v st st') (h' : Collects doc v st' st'') :
    Collects doc v st st'' where
  stack := h'.stack.trans h.stack
  visited := h'.visited.trans h.visited
  names := h'.names.trans h.names
  keptPointers := fun r hr => h'.keptPointers r (h.keptPointers r hr)
  keptAnchors := fun r hr => h'.keptAnchors r (h.keptAnchors r hr)
  pointers := fun r hr => (h'.pointers r hr).elim (h.pointers r) Or.inr

/-- A declared anchor stays declared when more is examined and known. -/
theorem Declares.mono {log log' : List (Visit n)} {known known' : Schema n → Prop}
    {uri anchor : Text} (h : Declares doc log known uri anchor) (hlog : ∀ v ∈ log, v ∈ log')
    (hknown : ∀ schema, known schema → known' schema) : Declares doc log' known' uri anchor := by
  cases h with
  | keyword hv huri hkeyword h => exact .keyword (hlog _ hv) huri hkeyword h
  | identifier hv hleads hk hdialect hname h =>
    exact .identifier (hlog _ hv) hleads (hknown _ hk) hdialect hname h
  | root hk h => exact .root (hknown _ hk) h

omit [SchemaLibrary] in
private theorem Stacked.mono {stack stack' : List (Entry n)} (h : ∀ entry ∈ stack, entry ∈ stack')
    (schema : Schema n) : Stacked stack schema → Stacked stack' schema := by
  rintro ⟨entry, hentry, rfl⟩
  exact ⟨entry, h entry hentry, rfl⟩

/-- Nothing is pushed where nothing happens. -/
theorem Pushes.refl : Pushes doc v st st :=
  ⟨rfl, rfl, rfl, fun _ h => h, fun _ h => Or.inl h, fun _ h => Or.inl h⟩

private theorem Pushes.trans (h : Pushes doc v st st') (h' : Pushes doc v st' st'') :
    Pushes doc v st st'' where
  visited := h'.visited.trans h.visited
  pointerReferences := h'.pointerReferences.trans h.pointerReferences
  anchorReferences := h'.anchorReferences.trans h.anchorReferences
  kept := fun e he => h'.kept e (h.kept e he)
  stack := fun e he => (h'.stack e he).elim (h.stack e) Or.inr
  anchors := fun a ha => by
    rcases h'.anchors a ha with ha | ha
    · rcases h.anchors a ha with ha | ha
      · exact Or.inl ha
      · exact Or.inr (ha.mono (fun _ hv => hv) (Stacked.mono h'.kept))
    · exact Or.inr ha

private theorem Kept.mono (h : Collects doc v st st') {value : Option (Value n)}
    (hkept : Kept v st value) :
    Kept v st' value := by
  match value, hkept with
  | none, _ => trivial
  | some .null, _ => trivial
  | some (.str reference), hkept =>
    exact ⟨hkept.1, fun hp => h.keptPointers _ (hkept.2.1 hp),
      fun hp => h.keptAnchors _ (hkept.2.2 hp)⟩

variable {entry : Entry n} {identity : Fin n} {dialect : Dialect}

private theorem collectReference_spec {keyword : String} (hkeyword : keyword ∈ referenceKeywords)
    (h : collectReference doc entry identity dialect st keyword = .ok st') :
    Collects doc (entry.visit identity dialect) st st' ∧
      Kept (entry.visit identity dialect) st' (keywordValue doc identity keyword) := by
  unfold collectReference at h
  split at h
  · rename_i hvalue
    cases h
    rw [hvalue]
    exact ⟨Collects.refl, trivial⟩
  · rename_i hvalue
    cases h
    rw [hvalue]
    exact ⟨Collects.refl, trivial⟩
  · rename_i reference hvalue
    rw [hvalue]
    have hrefers : Refers doc (entry.visit identity dialect) reference :=
      ⟨keyword, hkeyword, hvalue⟩
    split at h
    · cases h
    · rename_i hhead
      have hhead := not_ne_iff.mp hhead
      split at h
      · rename_i hpointer
        cases h
        refine ⟨⟨rfl, rfl, rfl, fun r hr => List.mem_cons_of_mem _ hr, fun r hr => hr,
          fun r hr => ?_⟩, hhead, fun _ => List.mem_cons_self, fun hp => ?_⟩
        · rcases List.mem_cons.mp hr with rfl | hr
          · exact Or.inr ⟨reference, hrefers, hpointer, rfl⟩
          · exact Or.inl hr
        · rw [hpointer] at hp
          cases hp
      · rename_i hpointer
        cases h
        exact ⟨⟨rfl, rfl, rfl, fun r hr => hr, fun r hr => List.mem_cons_of_mem _ hr,
          fun r hr => Or.inl hr⟩, hhead, fun hp => absurd hp hpointer,
          fun _ => List.mem_cons_self⟩
  · cases h

private theorem collectReferences_spec
    {keywords : List String} (hkeywords : ∀ keyword ∈ keywords, keyword ∈ referenceKeywords)
    (h : keywords.foldlM (collectReference doc entry identity dialect) st = .ok st') :
    Collects doc (entry.visit identity dialect) st st' ∧ ∀ keyword ∈ keywords,
      Kept (entry.visit identity dialect) st' (keywordValue doc identity keyword) := by
  constructor
  · exact except_foldlM_keeps (P := Collects doc (entry.visit identity dialect) st)
      (fun k hk s t hs ht => hs.trans (collectReference_spec (hkeywords k hk) ht).1) h
      Collects.refl
  · exact except_foldlM_leaves
      (R := fun k s => Kept (entry.visit identity dialect) s (keywordValue doc identity k))
      (fun k hk s t ht => (collectReference_spec (hkeywords k hk) ht).2)
      (fun k y hy s t hs ht => hs.mono (collectReference_spec (hkeywords y hy) ht).1) h

/-- An object that is reached is put on the stack with its place. -/
theorem pushEntry_spec {names : Names n} {uri : Text}
    {root : Schema n} (hleads : Leads doc v (.object identity))
    (hdialect : declaredDialect doc identity v.dialect = .ok dialect)
    (h : enterResource doc st.names identity v.resourceUri v.resourceRoot dialect =
      .ok (names, uri, root)) :
    Pushes doc v st { st with
      names := names
      stack := ⟨.object identity, v.depth + 1, uri, root, dialect⟩ :: st.stack } := by
  obtain ⟨hresource, hanchors⟩ := enterResource_spec h
  refine ⟨rfl, rfl, rfl, fun e he => List.mem_cons_of_mem _ he, fun e he => ?_, fun a ha => ?_⟩
  · rcases List.mem_cons.mp he with rfl | he
    · refine Or.inr ⟨hleads, rfl, ?_, ?_⟩
      · intro other hother
        cases hother
        exact hdialect
      · intro other hother
        cases hother
        exact hresource
    · exact Or.inl he
  · rcases hanchors a ha with ha | ⟨name, hname, hresolved⟩
    · exact Or.inl ha
    · exact Or.inr (.identifier List.mem_cons_self hleads ⟨_, List.mem_cons_self, rfl⟩ hdialect
        hname hresolved)

/-- A boolean that is reached is put on the stack. -/
theorem pushBoolean_spec {b : Bool} (hleads : Leads doc v (.boolean b)) :
    Pushes doc v st { st with
      stack := ⟨.boolean b, v.depth + 1, v.resourceUri, v.resourceRoot, dialect⟩ :: st.stack } := by
  refine ⟨rfl, rfl, rfl, fun e he => List.mem_cons_of_mem _ he, fun e he => ?_,
    fun a ha => Or.inl ha⟩
  rcases List.mem_cons.mp he with rfl | he
  · exact Or.inr ⟨hleads, rfl, nofun, nofun⟩
  · exact Or.inl he

private theorem pushChild_spec {child : Schema n}
    (hchild : child ∈ schemaChildren doc identity dialect)
    (h : pushChild doc entry dialect st child = .ok st') :
    Pushes doc (entry.visit identity dialect) st st' ∧ Stacked st'.stack child := by
  have hleads : Leads doc (entry.visit identity dialect) child := .child hchild
  cases child with
  | boolean b =>
    cases h
    exact ⟨pushBoolean_spec hleads, _, List.mem_cons_self, rfl⟩
  | object other =>
    obtain ⟨childDialect, hdialect, h⟩ := except_bind_ok h
    obtain ⟨⟨names, uri, root⟩, hentered, h⟩ := except_bind_ok h
    cases h
    exact ⟨pushEntry_spec hleads hdialect hentered, _, List.mem_cons_self, rfl⟩

private theorem pushChildren_spec {children : List (Schema n)}
    (hchildren : ∀ child ∈ children, child ∈ schemaChildren doc identity dialect)
    (h : children.foldlM (pushChild doc entry dialect) st = .ok st') :
    Pushes doc (entry.visit identity dialect) st st' ∧
      ∀ child ∈ children, Stacked st'.stack child := by
  constructor
  · exact except_foldlM_keeps (P := Pushes doc (entry.visit identity dialect) st)
      (fun c hc s t hs ht => hs.trans (pushChild_spec (hchildren c hc) ht).1) h Pushes.refl
  · exact except_foldlM_leaves (R := fun c s => Stacked s.stack c)
      (fun c hc s t ht => (pushChild_spec (hchildren c hc) ht).2)
      (fun c y hy s t hs ht => by
        have hpushed := (pushChild_spec (hchildren y hy) ht).1
        exact Stacked.mono hpushed.kept c hs) h

end Folds

section Spec

variable {n : Nat} [SchemaLibrary] {doc : Document n} {v : Visit n} {st st' : Scan n}

variable (doc) in
/-- An object is examined: its children and its references are put aside. -/
structure Examines (v : Visit n) (st st' : Scan n) : Prop where
  visited : st'.visited = v.identity :: st.visited
  kept : ∀ entry ∈ st.stack, entry ∈ st'.stack
  stack : ∀ entry ∈ st'.stack, entry ∈ st.stack ∨ Arrives doc v entry
  keptPointers : ∀ r ∈ st.pointerReferences, r ∈ st'.pointerReferences
  keptAnchors : ∀ r ∈ st.anchorReferences, r ∈ st'.anchorReferences
  pointers : ∀ r ∈ st'.pointerReferences, r ∈ st.pointerReferences ∨
    ∃ reference, Refers doc v reference ∧ isPointer (referenceFragment reference) = true ∧
      r = v.pointer reference
  anchors : ∀ anchor ∈ st'.names.anchors, anchor ∈ st.names.anchors ∨
    Declares doc [v] (Stacked st'.stack) anchor.1 anchor.2
  children : ∀ schema ∈ schemaChildren doc v.identity v.dialect, Stacked st'.stack schema
  references : ∀ keyword ∈ referenceKeywords, Kept v st' (keywordValue doc v.identity keyword)

private theorem Kept.of_pushes (h : Pushes doc v st st') {value : Option (Value n)} {u : Visit n}
    (hkept : Kept u st value) : Kept u st' value := by
  match value, hkept with
  | none, _ => trivial
  | some .null, _ => trivial
  | some (.str reference), hkept =>
    unfold Kept at hkept ⊢
    rw [h.pointerReferences, h.anchorReferences]
    exact hkept

private theorem currentDialect_spec {start identity : Fin n} {inherited dialect : Dialect}
    (h : currentDialect doc start identity inherited = .ok dialect) :
    declaredDialect doc identity inherited = .ok dialect := by
  obtain ⟨declared, hdeclared, h⟩ := except_bind_ok h
  obtain ⟨-, -, h⟩ := except_bind_ok h
  obtain ⟨-, -, h⟩ := except_bind_ok h
  cases h
  exact hdeclared

/-- What examining an object does. -/
theorem examine_spec {start identity : Fin n} {entry : Entry n}
    (h : examine doc start entry identity st = .ok st') :
    ∃ dialect, declaredDialect doc identity entry.dialect = .ok dialect ∧
      Examines doc (entry.visit identity dialect) st st' := by
  obtain ⟨dialect, hdialect, h⟩ := except_bind_ok h
  obtain ⟨names, hnames, h⟩ := except_bind_ok h
  obtain ⟨collected, hcollected, h⟩ := except_bind_ok h
  obtain ⟨hcollects, hreferences⟩ :=
    collectReferences_spec (fun k hk => (mem_iterationOrder _ k).mp hk) hcollected
  obtain ⟨hpushes, hchildren⟩ := pushChildren_spec (fun child hchild => hchild) h
  refine ⟨dialect, currentDialect_spec hdialect, ?_, ?_, ?_, ?_, ?_, ?_, ?_, hchildren, ?_⟩
  · rw [hpushes.visited, hcollects.visited]
    rfl
  · intro e he
    exact hpushes.kept e (hcollects.stack ▸ he)
  · intro e he
    have he := hpushes.stack e he
    rwa [hcollects.stack] at he
  · intro r hr
    rw [hpushes.pointerReferences]
    exact hcollects.keptPointers r hr
  · intro r hr
    rw [hpushes.anchorReferences]
    exact hcollects.keptAnchors r hr
  · intro r hr
    rw [hpushes.pointerReferences] at hr
    exact hcollects.pointers r hr
  · intro anchor ha
    rcases hpushes.anchors anchor ha with ha | ha
    · rw [hcollects.names] at ha
      refine except_foldlM_keeps (P := fun names' => ∀ anchor ∈ names'.anchors,
          anchor ∈ st.names.anchors ∨
            Declares doc [entry.visit identity dialect] (Stacked st'.stack) anchor.1 anchor.2)
        (fun keyword hkeyword s t hs ht anchor ha => ?_) hnames (fun _ ha => Or.inl ha) anchor ha
      rcases declareAnchor_anchors ht anchor ha with ha | ⟨huri, hvalue⟩
      · exact hs anchor ha
      · exact Or.inr (.keyword List.mem_cons_self huri.symm hkeyword hvalue)
    · exact Or.inr ha
  · intro keyword hkeyword
    exact (hreferences keyword ((mem_iterationOrder _ keyword).mpr hkeyword)).of_pushes hpushes

variable {target : Option (Schema n)}

omit [SchemaLibrary] in
private theorem referenceTarget_some {value : Value n}
    (h : referenceTarget doc value = .ok target) : ∃ schema, target = some schema := by
  unfold referenceTarget at h
  split at h
  · cases h
    exact ⟨_, rfl⟩
  · cases h

/-- A pointer is resolved without the anchors of its resource, and to a schema. -/
theorem validateLocalReference_pointer {root : Schema n} {reference : Text} {anchors : List Text}
    (hpointer : isPointer (referenceFragment reference) = true)
    (h : validateLocalReference doc root reference anchors = .ok target) :
    ∃ schema, target = some schema ∧ PointsTo doc root reference schema := by
  unfold PointsTo
  unfold validateLocalReference at h ⊢
  by_cases hhead : reference.head? ≠ some '#'
  · rw [if_pos hhead] at h
    cases h
  rw [if_neg hhead] at h ⊢
  by_cases hempty : referenceFragment reference = []
  · simp only [hempty, if_true] at h ⊢
    cases h
    exact ⟨root, rfl, rfl⟩
  · have hslash : (referenceFragment reference).head? = some '/' := by
      simpa [isPointer, hempty] using hpointer
    simp only [hempty, hslash, if_false, ne_eq, not_true] at h ⊢
    cases root with
    | boolean b => cases h
    | object identity =>
      obtain ⟨value, hvalue, h⟩ := except_bind_ok h
      simp only [hvalue]
      obtain ⟨schema, rfl⟩ := referenceTarget_some h
      exact ⟨schema, rfl, h⟩

end Spec

end AwesomeAgent.McpCatalog
