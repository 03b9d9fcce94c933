import AwesomeAgent.Mcp.Encoding
import AwesomeAgent.Tools.Registry
import Mathlib.Algebra.Order.BigOperators.Group.List

/-!
# Updates of the registry

A refused update leaves the registry as it was. Any other one publishes a set of tools with
distinct names, within the number of tools and the bytes of the catalog, in which only the names
that the update manages have changed.
-/

namespace AwesomeAgent.Registry

open McpAdapter (iterencode itemChunks flatten_withBuffer)

/-! ## The bytes of the catalog -/

private theorem encodePoints_append {front text : PointText} {x y : Bytes}
    (hx : encodePoints front = some x) (hy : encodePoints text = some y) :
    encodePoints (front ++ text) = some (x ++ y) := by
  induction front generalizing x with
  | nil =>
    cases hx
    exact hy
  | cons c front ih =>
    rw [encodePoints] at hx
    split at hx
    · next bytes more hbytes hmore =>
      cases hx
      rw [List.cons_append, encodePoints, hbytes, ih hmore, List.append_assoc]
    · cases hx

section Catalog

variable {F : Type} [JsonRuntime F]

/-- The bytes of a value, if it has a text. -/
def jsonBytes (value : McpAdapter.Tree F) : Nat := ((encodeJson value).map List.length).getD 0

private theorem encodeJson_eq_some {value : McpAdapter.Tree F} {bytes : Bytes}
    (h : encodeJson value = some bytes) :
    ∃ chunks, iterencode value = .ok chunks ∧ encodePoints chunks.flatten = some bytes := by
  obtain ⟨chunks, hchunks, hbytes⟩ := Option.bind_eq_some_iff.mp h
  exact ⟨chunks, except_ok_of_toOption hchunks, hbytes⟩

variable {values : List (McpAdapter.Tree F)}

private theorem itemChunks_bytes {buffer : PointText} {mark : UInt8}
    (hbuffer : encodePoints buffer = some [mark])
    (h : ∀ value ∈ values, ∃ bytes, encodeJson value = some bytes) :
    ∃ chunks bytes, itemChunks buffer values = .ok chunks ∧
      encodePoints chunks.flatten = some bytes ∧
      bytes.length = values.length + (values.map jsonBytes).sum := by
  induction values generalizing buffer mark with
  | nil => exact ⟨[], [], rfl, rfl, rfl⟩
  | cons value values ih =>
    obtain ⟨bytes, hbytes⟩ := h value List.mem_cons_self
    obtain ⟨here, hhere, hencoded⟩ := encodeJson_eq_some hbytes
    have hcomma : encodePoints (pointsOf [',']) = some [44] := by decide
    obtain ⟨chunks, more, hchunks, hmore, hlength⟩ :=
      ih hcomma fun other hother => h other (List.mem_cons_of_mem _ hother)
    refine ⟨_, [mark] ++ bytes ++ more, by rw [itemChunks, hhere, hchunks]; rfl, ?_, ?_⟩
    · rw [List.flatten_append, flatten_withBuffer]
      exact encodePoints_append (encodePoints_append hbuffer hencoded) hmore
    · have hvalue : jsonBytes value = bytes.length := by rw [jsonBytes, hbytes]; rfl
      rw [List.length_append, List.length_append, List.length_singleton, hlength, List.map_cons,
        List.sum_cons, hvalue, List.length_cons]
      omega

private theorem encodeJson_array (h : ∀ value ∈ values, ∃ bytes, encodeJson value = some bytes) :
    ∃ bytes, encodeJson (.array values) = some bytes ∧
      bytes.length = 2 + (values.length - 1) + (values.map jsonBytes).sum := by
  cases values with
  | nil => exact ⟨[91, 93], rfl, rfl⟩
  | cons value values =>
    have hopen : encodePoints (pointsOf ['[']) = some [91] := by decide
    have hclose : encodePoints (pointsOf [']']) = some [93] := by decide
    obtain ⟨chunks, bytes, hchunks, hencoded, hlength⟩ := itemChunks_bytes hopen h
    refine ⟨bytes ++ [93], ?_, ?_⟩
    · have harray : iterencode (.array (value :: values)) = .ok (chunks ++ [pointsOf [']']]) := by
        rw [iterencode, hchunks]
        rfl
      rw [encodeJson, harray]
      change encodePoints (chunks ++ [pointsOf [']']]).flatten = _
      rw [List.flatten_append, List.flatten_singleton]
      exact encodePoints_append hencoded hclose
    · rw [List.length_append, List.length_singleton, hlength, List.length_cons]
      omega

/-- The catalog that a model is offered. -/
def catalog (registry : ToolRegistry F) : Option Bytes :=
  encodeJson (.array ((specifications registry).map payload))

/-- What is known of a set of tools that was published. -/
structure Sound (items : Items F) : Prop where
  named : ∀ item ∈ items.entries, item.2.spec.name = item.1
  few : items.entries.length ≤ maxRegisteredTools
  short : ∀ item ∈ items.entries, item.1.length ≤ maxRegisteredToolNameChars
  encoded : ∀ item ∈ items.entries, ∃ bytes, encodeJson (payload item.2.spec) = some bytes
  bytes : 2 + (items.entries.length - 1) +
    (items.entries.map fun item => jsonBytes (payload item.2.spec)).sum ≤
      maxRegisteredToolCatalogBytes

/-- A registry within its limits: distinct names, few tools and a short catalog. -/
structure Published (registry : ToolRegistry F) : Prop where
  distinct : ((specifications registry).map ToolSpec.name).Nodup
  few : (specifications registry).length ≤ maxRegisteredTools
  catalogued : ∃ bytes, catalog registry = some bytes ∧
    bytes.length ≤ maxRegisteredToolCatalogBytes

omit [JsonRuntime F] in
private theorem sortedItems_perm (items : Items F) : (sortedItems items).Perm items.entries :=
  List.perm_insertionSort _ _

private theorem Sound.published {registry : ToolRegistry F} (h : Sound registry.items) :
    Published registry := by
  have hperm := sortedItems_perm registry.items
  constructor
  · have hnames : (specifications registry).map ToolSpec.name =
        (sortedItems registry.items).map Prod.fst := by
      rw [specifications, List.map_map]
      exact List.map_congr_left fun item hitem => h.named item (hperm.mem_iff.mp hitem)
    rw [hnames, (hperm.map Prod.fst).nodup_iff]
    exact registry.items.nodup
  · rw [specifications, List.length_map, hperm.length_eq]
    exact h.few
  · have hvalues : ∀ value ∈ (specifications registry).map payload,
        ∃ bytes, encodeJson value = some bytes := by
      intro value hvalue
      obtain ⟨spec, hspec, rfl⟩ := List.mem_map.mp hvalue
      obtain ⟨item, hitem, rfl⟩ := List.mem_map.mp hspec
      exact h.encoded item (hperm.mem_iff.mp hitem)
    obtain ⟨bytes, hbytes, hlength⟩ := encodeJson_array hvalues
    refine ⟨bytes, hbytes, ?_⟩
    have hsum : (((specifications registry).map payload).map jsonBytes).sum =
        (registry.items.entries.map fun item => jsonBytes (payload item.2.spec)).sum := by
      rw [specifications, List.map_map, List.map_map]
      exact (hperm.map _).sum_eq
    rw [hlength, hsum, List.length_map, specifications, List.length_map, hperm.length_eq]
    exact h.bytes

private theorem Sound.filterKeys {items : Items F} (h : Sound items) (keep : Text → Bool) :
    Sound (items.filterKeys keep) := by
  have hsub : (items.filterKeys keep).entries.Sublist items.entries := List.filter_sublist
  have hlength := hsub.length_le
  have hsum := (hsub.map fun item => jsonBytes (payload item.2.spec)).sum_le_sum
    (fun _ _ => Nat.zero_le _)
  have hbytes := h.bytes
  exact {
    named := fun item hitem => h.named item (hsub.subset hitem)
    few := hlength.trans h.few
    short := fun item hitem => h.short item (hsub.subset hitem)
    encoded := fun item hitem => h.encoded item (hsub.subset hitem)
    bytes := by omega }

/-- An empty registry is sound. -/
theorem Sound.empty : Sound (Dict.empty : Items F) where
  named := fun item hitem => absurd hitem List.not_mem_nil
  few := Nat.zero_le _
  short := fun item hitem => absurd hitem List.not_mem_nil
  encoded := fun item hitem => absurd hitem List.not_mem_nil
  bytes := by simp [Dict.empty, maxRegisteredToolCatalogBytes]

/-! ## The checks of a set of tools -/

private theorem encodeTool_ok {spec : ToolSpec F} {encoded : Bytes}
    (h : encodeTool spec = .ok encoded) :
    encodeJson (payload spec) = some encoded := by
  unfold encodeTool at h
  split at h
  · next hencoded =>
    cases h
    exact hencoded
  · cases h

private theorem validateTools_ok {items : List (Text × RegisteredTool F)} {totalBytes : Nat}
    (h : validateTools items totalBytes = .ok ()) (hnonempty : items ≠ []) :
    (∀ item ∈ items, item.2.spec.name = item.1 ∧
      ∃ bytes, encodeJson (payload item.2.spec) = some bytes) ∧
      totalBytes + (items.map fun item => jsonBytes (payload item.2.spec)).sum ≤
        maxRegisteredToolCatalogBytes := by
  induction items generalizing totalBytes with
  | nil => exact absurd rfl hnonempty
  | cons item items ih =>
    obtain ⟨name, registered⟩ := item
    obtain ⟨_, hcontract, h⟩ := except_bind_ok h
    obtain ⟨_, -, h⟩ := except_bind_ok h
    obtain ⟨encoded, hencoded, h⟩ := except_bind_ok h
    obtain ⟨_, -, h⟩ := except_bind_ok h
    have hname : registered.spec.name = name := by
      unfold validateRegisteredTool at hcontract
      split at hcontract
      · cases hcontract
      · next hvalid => exact not_not.mp fun hother => hvalid (Or.inl hother)
    have hbytes := encodeTool_ok hencoded
    have hsize : jsonBytes (payload registered.spec) = encoded.length := by
      rw [jsonBytes, hbytes]
      rfl
    dsimp only at h
    split at h
    · cases h
    · next hfits =>
      rw [List.map_cons, List.sum_cons, hsize]
      by_cases hlast : items = []
      · subst hlast
        refine ⟨fun other hother => ?_, ?_⟩
        · rw [List.mem_singleton.mp hother]
          exact ⟨hname, encoded, hbytes⟩
        · rw [List.map_nil, List.sum_nil]
          omega
      · obtain ⟨hrest, hsum⟩ := ih h hlast
        refine ⟨List.forall_mem_cons.mpr ⟨⟨hname, encoded, hbytes⟩, hrest⟩, by omega⟩

private theorem validateSnapshot_ok {items : Items F} (h : validateSnapshot items = .ok ()) :
    Sound items := by
  have hperm := sortedItems_perm items
  unfold validateSnapshot at h
  split at h
  · cases h
  next hfew =>
  split at h
  · cases h
  next hshort =>
  have hnames : ∀ item ∈ items.entries, item.1.length ≤ maxRegisteredToolNameChars := by
    intro item hitem
    by_contra hlong
    apply hshort
    exact List.any_eq_true.mpr ⟨item.1, List.mem_map_of_mem hitem,
      decide_eq_true (Nat.lt_of_not_le hlong)⟩
  have hsmall := Nat.le_of_not_lt hfew
  by_cases hempty : items.entries = []
  · constructor
    · simp [hempty]
    · exact hsmall
    · exact hnames
    · simp [hempty]
    · simp [hempty, maxRegisteredToolCatalogBytes]
  · have hsorted : sortedItems items ≠ [] := by
      intro hnil
      rw [hnil] at hperm
      exact hempty hperm.nil_eq.symm
    obtain ⟨hall, hsum⟩ := validateTools_ok h hsorted
    rw [(hperm.map _).sum_eq] at hsum
    constructor
    · exact fun item hitem => (hall item (hperm.mem_iff.mpr hitem)).1
    · exact hsmall
    · exact hnames
    · exact fun item hitem => (hall item (hperm.mem_iff.mpr hitem)).2
    · exact hsum

end Catalog

/-! ## Sets of tools by their names -/

section Names

variable {F : Type}

/-- The name of a tool. -/
def nameOf (tool : RegisteredTool F) : Text := tool.spec.name

variable {tools : List (RegisteredTool F)}

private theorem get?_byName (hdistinct : (tools.map nameOf).Nodup) (name : Text) :
    (byName tools).get? name = tools.find? fun tool => decide (tool.spec.name = name) := by
  cases hfind : tools.find? fun tool => decide (tool.spec.name = name) with
  | some tool =>
    have hname : nameOf tool = name := of_decide_eq_true (List.find?_some hfind :)
    rw [← hname]
    exact Dict.get?_foldl_set_of_mem id hdistinct (List.mem_of_find?_eq_some hfind)
  | none =>
    cases hget : (byName tools).get? name with
    | none => rfl
    | some tool =>
      obtain ⟨other, hother, hname, -⟩ := @Dict.of_get?_foldl_set _ _ _ _ _ id _ _ _ hget
      exact absurd (decide_eq_true hname) (List.find?_eq_none.mp hfind other hother)

private theorem keys_byName_subset (tools : List (RegisteredTool F)) :
    (byName tools).keys ⊆ tools.map nameOf := by
  intro name hname
  obtain ⟨tool, hget⟩ := (Dict.mem_keys_iff _ _).mp hname
  obtain ⟨other, hother, hkey, -⟩ := @Dict.of_get?_foldl_set _ _ _ _ _ id _ _ _ hget
  exact List.mem_map.mpr ⟨other, hother, hkey⟩

private theorem distinct_of_length
    (h : (byName tools).entries.length = tools.length) : (tools.map nameOf).Nodup := by
  have hkeys : (byName tools).keys.Nodup := (byName tools).nodup
  have hsub := List.subperm_of_subset hkeys (keys_byName_subset tools)
  have hperm := hsub.perm_of_length_le (by
    rw [List.length_map, Dict.keys, List.length_map, h])
  exact hperm.nodup_iff.mp hkeys

private theorem distinct_of_firstRepeated {names seen : List Text}
    (h : firstRepeated seen names = none) :
    names.Nodup ∧ ∀ name ∈ names, name ∉ seen := by
  induction names generalizing seen with
  | nil => exact ⟨List.nodup_nil, nofun⟩
  | cons name rest ih =>
    rw [firstRepeated] at h
    split at h
    · cases h
    · next hnew =>
      obtain ⟨hrest, hseen⟩ := ih h
      have hname : name ∉ seen := fun hmem => hnew (List.contains_iff_mem.mpr hmem)
      constructor
      · apply List.nodup_cons.mpr
        exact ⟨fun hmem => hseen name hmem (List.mem_append_right _ List.mem_cons_self), hrest⟩
      · intro other hother hmem
        rcases List.mem_cons.mp hother with rfl | hother
        · exact hname hmem
        · exact hseen other hother (List.mem_append_left _ hmem)

private theorem get?_updateWith (items replacements : Items F) (name : Text) :
    (updateWith items replacements).get? name =
      (replacements.get? name).or (items.get? name) := by
  have hfind : (replacements.entries.reverse.find? fun item => decide (item.1 = name)).map
      Prod.snd = replacements.get? name := by
    cases h : replacements.entries.reverse.find? fun item => decide (item.1 = name) with
    | some item =>
      have hname : item.1 = name := of_decide_eq_true (List.find?_some h :)
      have hitem := List.mem_reverse.mp (List.mem_of_find?_eq_some h)
      rw [← hname]
      exact ((Dict.get?_eq_some_iff _ _ _).mpr hitem).symm
    | none =>
      cases hget : replacements.get? name with
      | none => rfl
      | some tool =>
        have hitem := List.mem_reverse.mpr ((Dict.get?_eq_some_iff _ _ _).mp hget)
        exact absurd (decide_eq_true rfl) (List.find?_eq_none.mp h _ hitem)
  rw [updateWith, Dict.get?_foldl_set, hfind]

private theorem get?_replaced (items : Items F) {managed : Text → Bool}
    (hdistinct : (tools.map nameOf).Nodup) (hinside : ∀ name ∈ (byName tools).keys, managed name)
    (name : Text) :
    (updateWith (items.filterKeys fun name => !managed name) (byName tools)).get? name =
      if managed name then tools.find? fun tool => decide (tool.spec.name = name)
      else items.get? name := by
  rw [get?_updateWith, Dict.get?_filterKeys, ← get?_byName hdistinct]
  cases hmanaged : managed name with
  | true => simp
  | false =>
    have hnone : (byName tools).get? name = none := by
      cases hget : (byName tools).get? name with
      | none => rfl
      | some tool =>
        have hinside := hinside name ((Dict.mem_keys_iff _ _).mpr ⟨tool, hget⟩)
        rw [hmanaged] at hinside
        cases hinside
    simp [hnone]

end Names

/-! ## Runs of updates -/

/-- An update of a registry, or the check of one. -/
inductive RegistryOperation (F : Type)
  | register (spec : ToolSpec F) (inputModel : Nat) (handler : Callback)
      (describe : Option Callback) (admitter : Callback) (replaySafety : ToolReplaySafety)
      (timeoutResolver : Option Callback) (cancellationGraceSeconds : Option Seconds)
  | unregister (name : Text)
  | validateExactSet (managedNames : List Text) (tools : List (RegisteredTool F))
  | replaceExactSet (managedNames : List Text) (tools : List (RegisteredTool F))
  | replaceNamespace (namespaceName : Text) (tools : List (RegisteredTool F))
  | removeNamespace (namespaceName : Text)

namespace RegistryOperation

variable {F : Type}

/-- The names that an operation manages. -/
def manages : RegistryOperation F → Text → Bool
  | register spec .., name => decide (spec.name = name)
  | unregister removed, name => decide (removed = name)
  | validateExactSet .., _ => false
  | replaceExactSet managedNames _, name => managedNames.contains name
  | replaceNamespace namespaceName _, name => belongsTo namespaceName name
  | removeNamespace namespaceName, name => belongsTo namespaceName name

/-- The tools that an operation puts under the names that it manages. -/
def tools : RegistryOperation F → List (RegisteredTool F)
  | register spec inputModel handler describe admitter replaySafety timeoutResolver
      cancellationGraceSeconds =>
      [{ spec := spec
         inputModel := inputModel
         handler := handler
         describe := describe.getD .ofSpec
         admitter := admitter
         replaySafety := replaySafety
         timeoutResolver := timeoutResolver
         cancellationGraceSeconds := cancellationGraceSeconds }]
  | replaceExactSet _ tools => tools
  | replaceNamespace _ tools => tools
  | _ => []

/-- The tool that an operation puts under a name. -/
def puts (operation : RegistryOperation F) (name : Text) : Option (RegisteredTool F) :=
  operation.tools.find? fun tool => decide (tool.spec.name = name)

variable [JsonRuntime F]

/-- Run an operation. -/
def run : RegistryOperation F → Update F Unit
  | register spec inputModel handler describe admitter replaySafety timeoutResolver
      cancellationGraceSeconds =>
      Registry.register spec inputModel handler describe admitter replaySafety timeoutResolver
        cancellationGraceSeconds
  | unregister name => Registry.unregister name
  | validateExactSet managedNames tools => Registry.validateExactSet managedNames tools
  | replaceExactSet managedNames tools => Registry.replaceExactSet managedNames tools
  | replaceNamespace namespaceName tools => Registry.replaceNamespace namespaceName tools
  | removeNamespace namespaceName => Registry.removeNamespace namespaceName

/-- The registry after an operation, whether it is raised or not. -/
def after (registry : ToolRegistry F) (operation : RegistryOperation F) : ToolRegistry F :=
  match operation.run registry with
  | .ok _ registry => registry
  | .error _ registry => registry

/-- The registry after operations on an empty one. -/
def reached (operations : List (RegistryOperation F)) : ToolRegistry F :=
  operations.foldl after ⟨Dict.empty⟩

end RegistryOperation

/-! ## One update -/

section Steps

variable {F : Type} [JsonRuntime F]
variable {before : ToolRegistry F} {Q : Unit → ToolRegistry F → Prop}

omit [JsonRuntime F] in
private theorem settles_fromResult {α : Type} {result : Except RegistryError α}
    {Q : α → ToolRegistry F → Prop}
    (h : ∀ a, result = .ok a → Q a before) :
    Settles Q (fun _ after => after = before) (fromResult result before) := by
  cases result with
  | ok a => exact h a rfl
  | error e => rfl

omit [JsonRuntime F] in
private theorem settles_require {holds : Bool} {error : RegistryError}
    (h : holds = true → Q () before) :
    Settles Q (fun _ after => after = before) (require holds error before) := by
  cases holds with
  | true => exact h rfl
  | false => rfl

omit [JsonRuntime F] in
private theorem settles_get {α : Type} {next : ToolRegistry F → Update F α}
    {Q : α → ToolRegistry F → Prop} {E : RegistryError → ToolRegistry F → Prop}
    (h : Settles Q E (next before before)) :
    Settles Q E ((do let registry ← get; next registry : Update F α) before) := h

private theorem settles_publish {updated : Items F} (h : Sound updated → Q () ⟨updated⟩) :
    Settles Q (fun _ after => after = before)
      ((do fromResult (validateSnapshot updated); set (ToolRegistry.mk updated) : Update F Unit)
        before) := by
  apply Settles.bind (R := fun _ after => after = before ∧ Sound updated)
  · exact settles_fromResult fun _ hvalid => ⟨rfl, validateSnapshot_ok hvalid⟩
  · rintro _ _ ⟨-, hsound⟩
    exact h hsound

/-- What an operation keeps that is not refused. -/
def Updates (operation : RegistryOperation F) (before after : ToolRegistry F) : Prop :=
  Sound after.items ∧ ∀ name, resolve after name =
    if operation.manages name then operation.puts name else resolve before name

private theorem register_settles (spec : ToolSpec F) (inputModel : Nat) (handler : Callback)
    (describe : Option Callback) (admitter : Callback) (replaySafety : ToolReplaySafety)
    (timeoutResolver : Option Callback) (cancellationGraceSeconds : Option Seconds)
    (before : ToolRegistry F) :
    Settles (fun _ => Updates (.register spec inputModel handler describe admitter replaySafety
        timeoutResolver cancellationGraceSeconds) before)
      (fun _ after => after = before)
      (register spec inputModel handler describe admitter replaySafety timeoutResolver
        cancellationGraceSeconds before) := by
  apply settles_get
  apply Settles.bind (R := fun _ after => after = before)
  · exact settles_require fun _ => rfl
  · rintro _ _ rfl
    apply settles_publish
    intro hsound
    refine ⟨hsound, fun name => ?_⟩
    rw [resolve, Dict.get?_set]
    by_cases hname : name = spec.name
    · subst hname
      simp [RegistryOperation.manages, RegistryOperation.puts, RegistryOperation.tools]
    · have hother : ¬ spec.name = name := fun h => hname h.symm
      simp [RegistryOperation.manages, hname, hother, resolve]

private theorem unregister_settles (name : Text) (h : Sound before.items) :
    Settles (fun _ => Updates (.unregister name) before) (fun _ after => after = before)
      (unregister name before) := by
  change Updates (.unregister name) before ⟨before.items.erase name⟩
  refine ⟨h.filterKeys fun other => decide (other ≠ name), fun other => ?_⟩
  change (before.items.erase name).get? other = _
  by_cases hname : other = name
  · subst hname
    simp [RegistryOperation.manages, RegistryOperation.puts, RegistryOperation.tools]
  · have hother : ¬ name = other := fun h => hname h.symm
    rw [Dict.get?_erase_of_ne _ hname]
    simp [RegistryOperation.manages, hother, resolve]

private theorem removeNamespace_settles (namespaceName : Text) (h : Sound before.items) :
    Settles (fun _ => Updates (.removeNamespace namespaceName) before)
      (fun _ after => after = before) (removeNamespace namespaceName before) := by
  change Updates (.removeNamespace namespaceName) before
    ⟨before.items.filterKeys fun name => !belongsTo namespaceName name⟩
  refine ⟨h.filterKeys fun name => !belongsTo namespaceName name, fun name => ?_⟩
  change (before.items.filterKeys _).get? name = _
  rw [Dict.get?_filterKeys]
  cases hmanaged : belongsTo namespaceName name with
  | true => simp [RegistryOperation.manages, RegistryOperation.puts, RegistryOperation.tools,
      hmanaged]
  | false => simp [RegistryOperation.manages, hmanaged, resolve]

omit [JsonRuntime F] in
private theorem exactSetSnapshot_ok {items updated : Items F} {managedNames : List Text}
    {tools : List (RegisteredTool F)}
    (h : exactSetSnapshot items managedNames tools = .ok updated) :
    (tools.map nameOf).Nodup ∧ (∀ name ∈ (byName tools).keys, managedNames.contains name) ∧
      updated = updateWith (items.filterKeys fun name => !managedNames.contains name)
        (byName tools) := by
  unfold exactSetSnapshot at h
  split at h
  · cases h
  split at h
  · cases h
  split at h
  · cases h
  next hnew =>
  dsimp only at h
  split at h
  · cases h
  next hinside =>
  obtain rfl := Except.ok.inj h
  refine ⟨(distinct_of_firstRepeated hnew).1, fun name hname => ?_, rfl⟩
  by_contra houtside
  apply hinside
  exact List.any_eq_true.mpr ⟨name, hname, by rw [Bool.eq_false_of_not_eq_true houtside]; rfl⟩

private theorem validateExactSet_settles (managedNames : List Text)
    (tools : List (RegisteredTool F))
    (h : Sound before.items) :
    Settles (fun _ => Updates (.validateExactSet managedNames tools) before)
      (fun _ after => after = before) (validateExactSet managedNames tools before) := by
  apply settles_get
  apply Settles.bind (R := fun _ after => after = before)
  · exact settles_fromResult fun _ _ => rfl
  · rintro updated _ rfl
    exact settles_fromResult fun _ _ => ⟨h, fun _ => rfl⟩

private theorem replaceExactSet_settles (managedNames : List Text) (tools : List (RegisteredTool F))
    (before : ToolRegistry F) :
    Settles (fun _ => Updates (.replaceExactSet managedNames tools) before)
      (fun _ after => after = before) (replaceExactSet managedNames tools before) := by
  apply settles_get
  apply Settles.bind (R := fun updated after => after = before ∧
    exactSetSnapshot before.items managedNames tools = .ok updated)
  · exact settles_fromResult fun _ hupdated => ⟨rfl, hupdated⟩
  · rintro updated _ ⟨rfl, hupdated⟩
    obtain ⟨hdistinct, hinside, rfl⟩ := exactSetSnapshot_ok hupdated
    apply settles_publish
    intro hsound
    exact ⟨hsound, get?_replaced _ hdistinct hinside⟩

private theorem replaceNamespace_settles (namespaceName : Text) (tools : List (RegisteredTool F))
    (before : ToolRegistry F) :
    Settles (fun _ => Updates (.replaceNamespace namespaceName tools) before)
      (fun _ after => after = before) (replaceNamespace namespaceName tools before) := by
  apply Settles.bind (R := fun _ after => after = before)
  · exact settles_require fun _ => rfl
  rintro _ before rfl
  apply Settles.bind (R := fun _ after => after = before ∧
    (byName tools).entries.length = tools.length)
  · exact settles_require fun hlength => ⟨rfl, of_decide_eq_true hlength⟩
  rintro _ before ⟨rfl, hlength⟩
  apply Settles.bind (R := fun _ after => after = before ∧
    (byName tools).keys.all (belongsTo namespaceName) = true)
  · exact settles_require fun hinside => ⟨rfl, hinside⟩
  rintro _ before ⟨rfl, hinside⟩
  apply settles_get
  apply Settles.bind (R := fun _ after => after = before)
  · exact settles_require fun _ => rfl
  rintro _ before rfl
  apply settles_publish
  intro hsound
  exact ⟨hsound, get?_replaced _ (distinct_of_length hlength) (List.all_eq_true.mp hinside)⟩

/-- An operation on a sound set of tools updates it, or raises and leaves it. -/
theorem run_settles (operation : RegistryOperation F) (h : Sound before.items) :
    Settles (fun _ => Updates operation before) (fun _ after => after = before)
      (operation.run before) := by
  cases operation with
  | register => exact register_settles ..
  | unregister name => exact unregister_settles name h
  | validateExactSet managedNames tools => exact validateExactSet_settles managedNames tools h
  | replaceExactSet managedNames tools => exact replaceExactSet_settles managedNames tools before
  | replaceNamespace namespaceName tools =>
    exact replaceNamespace_settles namespaceName tools before
  | removeNamespace namespaceName => exact removeNamespace_settles namespaceName h

/-- An operation keeps a sound set of tools. -/
theorem sound_after {registry : ToolRegistry F} (operation : RegistryOperation F)
    (h : Sound registry.items) : Sound (operation.after registry).items := by
  have hrun := run_settles operation h
  unfold RegistryOperation.after
  cases hresult : operation.run registry with
  | ok _ after =>
    rw [hresult] at hrun
    exact hrun.1
  | error _ after =>
    rw [hresult] at hrun
    rw [(hrun : after = registry)]
    exact h

private theorem sound_reached (operations : List (RegistryOperation F)) :
    Sound (RegistryOperation.reached operations).items := by
  induction operations using List.reverseRecOn with
  | nil => exact Sound.empty
  | append_singleton operations operation ih =>
    rw [RegistryOperation.reached, List.foldl_append]
    exact sound_after operation ih

/-- After any run of operations, an operation raises and leaves the registry as it is, or publishes
a set of tools within the limits in which it changed the names that it manages only. -/
theorem operation_atomic (operations : List (RegistryOperation F))
    (operation : RegistryOperation F) :
    Settles
      (fun _ after => Published after ∧ ∀ name, resolve after name =
        if operation.manages name then operation.puts name
        else resolve (RegistryOperation.reached operations) name)
      (fun _ after => after = RegistryOperation.reached operations)
      (operation.run (RegistryOperation.reached operations)) := by
  apply (run_settles operation (sound_reached operations)).mono
  · rintro _ after ⟨hsound, hnames⟩
    exact ⟨hsound.published, hnames⟩
  · exact fun _ _ hleft => hleft

end Steps

end AwesomeAgent.Registry
