import AwesomeAgent.Library.FaultySteps
import AwesomeAgent.Tools.WorkspaceFiles

/-!
# What a scan reaches

A path is resolved exactly when it leads to a node of the expected kind. A scan reaches the files
whose directories are neither pruned nor sensitive.
-/

namespace AwesomeAgent.WorkspaceFiles

/-! ## Written paths -/

private theorem not_mem_of_mem_splitOn {c : Char} {part text : Text} (h : part ∈ text.splitOn c) :
    c ∉ part := by
  induction text generalizing part with
  | nil =>
    rw [List.splitOn_nil, List.mem_singleton] at h
    rw [h]
    exact List.not_mem_nil
  | cons d text ih =>
    rw [List.splitOn_cons_eq_if_modifyHead] at h
    split at h
    · obtain rfl | h := List.mem_cons.mp h
      · exact List.not_mem_nil
      · exact ih h
    · next hne =>
      obtain ⟨first, more, hsplit⟩ := List.exists_cons_of_ne_nil (List.splitOn_ne_nil c text)
      rw [hsplit, List.modifyHead_cons] at h
      obtain rfl | h := List.mem_cons.mp h
      · have hfirst := ih (hsplit ▸ List.mem_cons_self)
        rintro (_ | hmem)
        · exact hne BEq.rfl
        · exact hfirst (by assumption)
      · exact ih (hsplit ▸ List.mem_cons_of_mem _ h)

/-- A part of a path that counts. -/
structure IsPart (part : Text) : Prop where
  ne_nil : part ≠ []
  ne_dot : part ≠ ['.']
  no_slash : '/' ∉ part

/-- The parts of a parsed path are parts of paths. -/
theorem isPart_of_mem_parsePath {text part : Text} (h : part ∈ (parsePath text).parts) :
    IsPart part := by
  obtain ⟨hmem, hpart⟩ := List.mem_filter.mp h
  rw [decide_eq_true_iff] at hpart
  exact ⟨hpart.1, hpart.2, not_mem_of_mem_splitOn hmem⟩

private theorem IsName.isPart {name : Text} (h : IsName name) : IsPart name :=
  ⟨h.ne_nil, h.ne_dot, h.no_slash⟩

/-- A written path is read back. -/
theorem parsePath_posix {path : FilePath} (h : ∀ part ∈ path, IsPart part) :
    parsePath (posix path) = ⟨false, path⟩ := by
  by_cases hnil : path = []
  · rw [hnil]
    rfl
  · have hsplit : (posix path).splitOn '/' = path := by
      rw [posix, if_neg hnil]
      exact List.splitOn_intercalate '/' (fun part hpart => (h part hpart).no_slash) hnil
    have hparts : (parsePath (posix path)).parts = path := by
      change (((posix path).splitOn '/').filter _) = path
      rw [hsplit, List.filter_eq_self]
      intro part hpart
      exact decide_eq_true ⟨(h part hpart).ne_nil, (h part hpart).ne_dot⟩
    have hrelative : (parsePath (posix path)).absolute = false := by
      obtain ⟨first, more, rfl⟩ := List.exists_cons_of_ne_nil hnil
      obtain ⟨c, rest, rfl⟩ := List.exists_cons_of_ne_nil (h first List.mem_cons_self).ne_nil
      have hc : c ≠ '/' := by
        rintro rfl
        exact (h _ List.mem_cons_self).no_slash List.mem_cons_self
      apply decide_eq_false
      rw [posix, if_neg hnil]
      cases more with
      | nil =>
        rw [List.intercalate_singleton, List.head?_cons, Option.some_inj]
        exact hc
      | cons second more =>
        rw [List.intercalate_cons_cons, List.cons_append, List.cons_append, List.head?_cons,
          Option.some_inj]
        exact hc
    calc parsePath (posix path)
      _ = ⟨(parsePath (posix path)).absolute, (parsePath (posix path)).parts⟩ := rfl
      _ = ⟨false, path⟩ := by rw [hrelative, hparts]

/-! ## Sensitive paths -/

private theorem isSensitivePart_mono {part : Text} {next : Option Text}
    (h : isSensitivePart part none = true) : isSensitivePart part next = true := by
  unfold isSensitivePart at h ⊢
  rw [Bool.or_eq_true] at h ⊢
  obtain h | h := h
  · exact .inl h
  · rw [Bool.and_eq_true] at h
    exact absurd h.2 (by decide)

private theorem anySensitive_append {above : FilePath} (h : anySensitive above = true)
    (rest : FilePath) : anySensitive (above ++ rest) = true := by
  induction above with
  | nil => cases h
  | cons part more ih =>
    rw [List.cons_append, anySensitive, Bool.or_eq_true]
    rw [anySensitive, Bool.or_eq_true] at h
    obtain h | h := h
    · left
      cases more with
      | nil => exact isSensitivePart_mono h
      | cons second more => exact h
    · exact .inr (ih h)

section Trees

variable [Casefold] {tree : WorkspaceTree} {above rest path : FilePath} {name : Text}

/-- What is below a sensitive path is sensitive. -/
theorem not_isSensitive_of_append (h : isSensitive (above ++ rest) = false) :
    isSensitive above = false := by
  rw [Bool.eq_false_iff] at h ⊢
  intro hbad
  apply h
  rw [isSensitive, List.map_append]
  exact anySensitive_append hbad _

/-! ## The tree -/

variable {kind expected : NodeKind} {requested : Text} {message : String} {place : Option Text}

omit [Casefold] in
/-- A node is at its path. -/
theorem WorkspaceTree.mem_keys (h : tree.nodes.get? path = some kind) :
    path ∈ tree.nodes.keys := (tree.nodes.mem_keys_iff path).mpr ⟨kind, h⟩

omit [Casefold] in
/-- Everything above a node is a directory. -/
theorem WorkspaceTree.directory_above (hmem : above ++ rest ∈ tree.nodes.keys)
    (hrest : rest ≠ []) : tree.nodes.get? above = some .directory := by
  induction rest using List.reverseRecOn with
  | nil => exact absurd rfl hrest
  | append_singleton front name ih =>
    rw [← List.append_assoc] at hmem
    have hparent := tree.parent _ _ hmem
    by_cases hfront : front = []
    · rwa [hfront, List.append_nil] at hparent
    · exact ih (tree.mem_keys hparent) hfront

omit [Casefold] in
private theorem WorkspaceTree.isName_of_mem (hmem : path ∈ tree.nodes.keys) :
    ∀ name ∈ path, IsName name := by
  induction path using List.reverseRecOn with
  | nil => exact nofun
  | append_singleton front last ih =>
    intro name hname
    obtain hname | hname := List.mem_append.mp hname
    · exact ih (tree.mem_keys (tree.parent _ _ hmem)) name hname
    · rw [List.mem_singleton.mp hname]
      exact tree.named _ _ hmem

/-- What a node has to be for an expected kind. -/
def Suits (expected kind : NodeKind) : Prop :=
  if expected = .directory then kind = .directory else kind = .file ∨ kind = .linkedFile

omit [Casefold] in
private theorem suits_file : Suits .file .file := .inl rfl

omit [Casefold] in
/-- Only a directory suits a request for one. -/
theorem suits_directory : Suits .directory kind ↔ kind = .directory := Iff.rfl

omit [Casefold] in
/-- A path is inspected without a fault when a node of the right kind is there. -/
theorem WorkspaceTree.inspect_eq_ok_iff (tree : WorkspaceTree) (requested : Text)
    (expected : NodeKind) (above rest : FilePath) :
    tree.inspect requested expected above rest = .ok () ↔
      ∃ kind, tree.nodes.get? (above ++ rest) = some kind ∧ Suits expected kind := by
  induction rest generalizing above with
  | nil =>
    rw [List.append_nil, inspect]
    unfold Suits
    cases hnode : tree.nodes.get? above with
    | none => exact iff_of_false nofun (by rintro ⟨_, h, -⟩; cases h)
    | some kind =>
      simp only [Option.some.injEq, exists_eq_left']
      by_cases hexpected : expected = .directory
      · cases kind <;> simp [hexpected]
      · cases kind <;> simp [hexpected]
  | cons name rest ih =>
    rw [List.append_cons, ← ih, inspect]
    have hbad {kind : Option NodeKind} (hnode : tree.nodes.get? above = kind)
        (hkind : kind ≠ some .directory) :
        ¬tree.inspect requested expected (above ++ [name]) rest = .ok () := by
      rw [ih]
      rintro ⟨found, hfound, -⟩
      rw [List.append_assoc] at hfound
      apply hkind
      rw [← hnode]
      exact tree.directory_above (tree.mem_keys hfound) (List.cons_ne_nil _ _)
    cases hnode : tree.nodes.get? above with
    | none => exact iff_of_false nofun (hbad hnode nofun)
    | some kind =>
      cases kind with
      | directory => exact Iff.rfl
      | file | linkedFile | link | special => exact iff_of_false nofun (hbad hnode nofun)

/-- A path that does not leave the workspace and holds no NUL. -/
def Plain (path : FilePath) : Prop :=
  (∀ part ∈ path, IsPart part) ∧ ['.', '.'] ∉ path ∧ ∀ part ∈ path, Char.ofNat 0 ∉ part

omit [Casefold] in
/-- The paths of nodes are plain. -/
theorem WorkspaceTree.plain_of_mem (hmem : path ∈ tree.nodes.keys) : Plain path := by
  have hnames := tree.isName_of_mem hmem
  refine ⟨fun part hpart => (hnames part hpart).isPart, fun hdots => ?_,
    fun part hpart => (hnames part hpart).no_nul⟩
  exact (hnames _ hdots).ne_dots rfl

omit [Casefold] in
private theorem nul_notMem_posix (h : ∀ part ∈ path, Char.ofNat 0 ∉ part) :
    Char.ofNat 0 ∉ posix path := by
  unfold posix
  split
  · decide
  · intro hmem
    obtain hslash | ⟨part, hpart, hnul⟩ := mem_intercalate hmem
    · exact absurd hslash (by decide)
    · exact h part hpart hnul

/-- A plain path is resolved to itself unless it is sensitive. -/
theorem WorkspaceTree.resolve_posix (hplain : Plain path) (expected : NodeKind) :
    tree.resolve (posix path) expected =
      if isSensitive path then
        .error (.expected .permissionDenied "Sensitive paths are not available to tools."
          (posix path))
      else (tree.inspect (posix path) expected [] path).map fun _ => path := by
  obtain ⟨hparts, hdots, hnul⟩ := hplain
  have hclean : (posix path).contains (Char.ofNat 0) = false := by
    rw [Bool.eq_false_iff, ne_eq, List.contains_iff_mem]
    exact nul_notMem_posix hnul
  unfold resolve
  rw [parsePath_posix hparts, hclean, if_neg Bool.false_ne_true]
  dsimp only
  rw [if_neg (by simpa using hdots)]
  cases hinspect : tree.inspect (posix path) expected [] path with
  | error fault => rfl
  | ok => rfl

private theorem WorkspaceTree.resolve_posix_eq_ok_iff (hplain : Plain path) (expected : NodeKind)
    (found : FilePath) : tree.resolve (posix path) expected = .ok found ↔
      found = path ∧ isSensitive path = false ∧
        ∃ kind, tree.nodes.get? path = some kind ∧ Suits expected kind := by
  have hinspect := tree.inspect_eq_ok_iff (posix path) expected [] path
  rw [List.nil_append] at hinspect
  rw [tree.resolve_posix hplain, ← hinspect]
  cases hsensitive : isSensitive path with
  | true =>
    rw [if_pos rfl]
    exact iff_of_false nofun fun h => (by cases h.2.1)
  | false =>
    rw [if_neg Bool.false_ne_true]
    cases tree.inspect (posix path) expected [] path with
    | error fault => exact iff_of_false nofun fun h => (by cases h.2.2)
    | ok =>
      constructor
      · intro h
        cases h
        exact ⟨rfl, rfl, rfl⟩
      · rintro ⟨rfl, -, -⟩
        rfl

private theorem WorkspaceTree.admits_eq
    (hnode : tree.nodes.get? path = some kind) (hsuits : Suits expected kind) :
    tree.admits path expected = !isSensitive path := by
  unfold admits
  cases hsensitive : isSensitive path with
  | true => rfl
  | false =>
    have hresolve := (tree.resolve_posix_eq_ok_iff (tree.plain_of_mem (tree.mem_keys hnode))
      expected path).mpr ⟨rfl, hsensitive, kind, hnode, hsuits⟩
    rw [hresolve]
    rfl

/-- A path that is resolved was inspected and is not sensitive. -/
theorem WorkspaceTree.resolve_eq_ok {found : FilePath}
    (h : tree.resolve requested expected = .ok found) :
    found = (parsePath requested).parts ∧ isSensitive found = false ∧
      tree.inspect requested expected [] found = .ok () := by
  unfold resolve at h
  dsimp only at h
  split at h
  · cases h
  · split at h
    · cases h
    · split at h
      · cases h
      · next hsensitive =>
        obtain ⟨_, hinspect, hfound⟩ := except_bind_ok h
        cases hfound
        exact ⟨rfl, Bool.eq_false_iff.mpr hsensitive, hinspect⟩

/-- On the way to a path a directory is reached that does not have the next name, and the system
says so. -/
def WorkspaceTree.LeadsNowhere (tree : WorkspaceTree) (path : FilePath) : Prop :=
  ∃ above name, above ++ [name] <+: path ∧ tree.nodes.get? above = some .directory ∧
    tree.nodes.get? (above ++ [name]) = none ∧ tree.refused (above ++ [name]) = false

omit [Casefold] in
/-- Nothing is at a path that leads nowhere. -/
theorem WorkspaceTree.LeadsNowhere.get?_eq_none (h : tree.LeadsNowhere path) :
    tree.nodes.get? path = none := by
  obtain ⟨above, name, ⟨rest, rfl⟩, -, hnone, -⟩ := h
  apply Option.eq_none_iff_forall_ne_some.mpr
  intro kind hkind
  cases rest with
  | nil =>
    rw [List.append_nil, hnone] at hkind
    cases hkind
  | cons next rest =>
    rw [tree.directory_above (tree.mem_keys hkind) (List.cons_ne_nil _ _)] at hnone
    cases hnone

omit [Casefold] in
private theorem WorkspaceTree.missing_eq_notFound
    (h : tree.missing requested path = .expected .notFound message place) :
    tree.refused path = false := by
  unfold missing at h
  split at h
  · cases h
  · next hrefused => exact Bool.eq_false_iff.mpr hrefused

omit [Casefold] in
private theorem WorkspaceTree.leadsNowhere_of_missing (rest : FilePath)
    (habove : ∀ front name, above = front ++ [name] → tree.nodes.get? front = some .directory)
    (hnone : tree.nodes.get? above = none)
    (h : tree.missing requested above = .expected .notFound message place) :
    tree.LeadsNowhere (above ++ rest) := by
  obtain rfl | ⟨front, name, rfl⟩ := List.eq_nil_or_concat' above
  · rw [tree.root] at hnone
    cases hnone
  · exact ⟨front, name, List.prefix_append _ _, habove front name rfl, hnone,
      WorkspaceTree.missing_eq_notFound h⟩

omit [Casefold] in
private theorem WorkspaceTree.inspect_notFound (above rest : FilePath)
    (habove : ∀ front name, above = front ++ [name] → tree.nodes.get? front = some .directory)
    (h : tree.inspect requested expected above rest = .error (.expected .notFound message place)) :
    tree.LeadsNowhere (above ++ rest) := by
  induction rest generalizing above with
  | nil =>
    rw [inspect] at h
    cases hnode : tree.nodes.get? above with
    | none =>
      rw [hnode] at h
      exact tree.leadsNowhere_of_missing [] habove hnode (Except.error.inj h)
    | some kind =>
      rw [hnode] at h
      cases kind <;> split_ifs at h <;> cases h
  | cons name rest ih =>
    rw [inspect] at h
    cases hnode : tree.nodes.get? above with
    | none =>
      rw [hnode] at h
      exact tree.leadsNowhere_of_missing _ habove hnode (Except.error.inj h)
    | some kind =>
      rw [hnode] at h
      cases kind with
      | directory =>
        rw [List.append_cons]
        refine ih _ (fun front last hlast => ?_) h
        rw [← (List.append_inj' hlast rfl).1]
        exact hnode
      | file | linkedFile | link | special => cases h

omit [Casefold] in
/-- A look at a whole path that finds nothing leads nowhere. -/
theorem WorkspaceTree.leadsNowhere_of_inspect
    (h : tree.inspect requested expected [] path = .error (.expected .notFound message place)) :
    tree.LeadsNowhere path :=
  tree.inspect_notFound [] path (fun _ _ hfront =>
    absurd hfront.symm (List.append_ne_nil_of_right_ne_nil _ (List.cons_ne_nil _ _))) h

omit [Casefold] in
private theorem WorkspaceTree.inspect_append (above front rest : FilePath)
    (hdirectory : tree.nodes.get? (above ++ front) = some .directory) :
    tree.inspect requested expected above (front ++ rest) =
      tree.inspect requested expected (above ++ front) rest := by
  induction front generalizing above with
  | nil => rw [List.nil_append, List.append_nil]
  | cons name front ih =>
    have habove : tree.nodes.get? above = some .directory :=
      tree.directory_above (tree.mem_keys hdirectory) (List.cons_ne_nil _ _)
    rw [List.append_cons] at hdirectory ⊢
    rw [List.cons_append, inspect, habove]
    exact ih _ hdirectory

omit [Casefold] in
/-- A look at a path that leads nowhere finds nothing. -/
theorem WorkspaceTree.LeadsNowhere.inspect
    (h : tree.LeadsNowhere path) : tree.inspect requested expected [] path =
      .error (.expected .notFound "Path was not found." requested) := by
  obtain ⟨above, name, ⟨rest, rfl⟩, hdirectory, hnone, hrefused⟩ := h
  have hmissing : tree.missing requested (above ++ [name]) =
      .expected .notFound "Path was not found." requested := by
    rw [missing, hrefused, if_neg Bool.false_ne_true]
  rw [List.append_assoc, tree.inspect_append [] above _ hdirectory, List.nil_append,
    List.singleton_append, WorkspaceTree.inspect, hdirectory]
  cases rest with
  | nil => rw [WorkspaceTree.inspect, hnone, hmissing]
  | cons next rest => rw [WorkspaceTree.inspect, hnone, hmissing]

/-- A path that is not found leads nowhere. -/
theorem WorkspaceTree.resolve_notFound
    (h : tree.resolve requested expected = .error (.expected .notFound message place)) :
    tree.LeadsNowhere (parsePath requested).parts := by
  unfold resolve at h
  dsimp only at h
  split at h
  · cases h
  · split at h
    · cases h
    · split at h
      · cases h
      · cases hinspect : tree.inspect requested expected [] (parsePath requested).parts with
        | ok =>
          rw [hinspect] at h
          cases h
        | error fault =>
          rw [hinspect] at h
          cases h
          exact tree.leadsNowhere_of_inspect hinspect

/-! ## The scan -/

omit [Casefold] in
private theorem WorkspaceTree.mem_listdir : name ∈ tree.listdir above ↔
    above ++ [name] ∈ tree.nodes.keys := by
  unfold listdir
  rw [List.mem_filterMap]
  constructor
  · rintro ⟨path, hmem, hname⟩
    split at hname
    · next habove =>
      obtain ⟨front, rfl⟩ := List.getLast?_eq_some_iff.mp hname
      rw [List.dropLast_concat] at habove
      rwa [← habove]
    · cases hname
  · intro hmem
    refine ⟨_, hmem, ?_⟩
    rw [List.dropLast_concat, if_pos rfl, List.getLast?_concat]

private theorem WorkspaceTree.mem_iterEntries :
    (name, kind) ∈ tree.iterEntries above ↔
      tree.nodes.get? (above ++ [name]) = some kind ∧ (kind = .file ∨ kind = .directory) := by
  unfold iterEntries
  rw [List.mem_filterMap]
  simp only [List.mem_insertionSort, tree.mem_listdir]
  constructor
  · rintro ⟨found, -, h⟩
    split at h <;> cases h
    · exact ⟨by assumption, .inl rfl⟩
    · exact ⟨by assumption, .inr rfl⟩
  · rintro ⟨hnode, rfl | rfl⟩
    · exact ⟨name, tree.mem_keys hnode, by rw [hnode]⟩
    · exact ⟨name, tree.mem_keys hnode, by rw [hnode]⟩

/-- Directories on the way that are neither pruned nor sensitive. -/
def Opens (tree : WorkspaceTree) : FilePath → List Text → Prop
  | _, [] => True
  | above, name :: rest =>
      tree.nodes.get? (above ++ [name]) = some .directory ∧ isPruned name = false ∧
        isSensitive (above ++ [name]) = false ∧ Opens tree (above ++ [name]) rest

/-- A file below a directory that a scan reaches. -/
def Visible (tree : WorkspaceTree) (above rest : FilePath) : Prop :=
  ∃ front name, rest = front ++ [name] ∧ Opens tree above front ∧
    tree.nodes.get? (above ++ rest) = some .file ∧ isSensitive (above ++ rest) = false

private theorem visible_singleton : Visible tree above [name] ↔
    tree.nodes.get? (above ++ [name]) = some .file ∧ isSensitive (above ++ [name]) = false := by
  constructor
  · rintro ⟨front, last, hrest, -, h⟩
    exact h
  · exact fun h => ⟨[], name, rfl, trivial, h⟩

private theorem visible_cons (hrest : rest ≠ []) : Visible tree above (name :: rest) ↔
    tree.nodes.get? (above ++ [name]) = some .directory ∧ isPruned name = false ∧
      isSensitive (above ++ [name]) = false ∧ Visible tree (above ++ [name]) rest := by
  unfold Visible
  rw [← List.append_cons]
  constructor
  · rintro ⟨front, last, hsplit, hopens, hfile⟩
    cases front with
    | nil => exact absurd (List.cons.inj hsplit).2 hrest
    | cons first front =>
      obtain ⟨rfl, rfl⟩ := List.cons.inj hsplit
      obtain ⟨hnode, hpruned, hsensitive, hopens⟩ := hopens
      exact ⟨hnode, hpruned, hsensitive, front, last, rfl, hopens, hfile⟩
  · rintro ⟨hnode, hpruned, hsensitive, front, last, rfl, hopens, hfile⟩
    exact ⟨name :: front, last, rfl, ⟨hnode, hpruned, hsensitive, hopens⟩, hfile⟩

/-- A path is visible when its front opens and its rest is visible there. -/
theorem visible_append {front : FilePath} (hrest : rest ≠ []) :
    Visible tree above (front ++ rest) ↔
      Opens tree above front ∧ Visible tree (above ++ front) rest := by
  induction front generalizing above with
  | nil => simp [Opens]
  | cons name front ih =>
    rw [List.cons_append, visible_cons (List.append_ne_nil_of_right_ne_nil _ hrest), ih, Opens,
      ← List.append_cons]
    simp only [and_assoc]

/-- Directories on the way to a directory open when none of them is pruned. -/
theorem opens_of_directory {front : FilePath}
    (hnode : tree.nodes.get? (above ++ front) = some .directory)
    (hsensitive : isSensitive (above ++ front) = false)
    (hpruned : ∀ name ∈ front, isPruned name = false) : Opens tree above front := by
  induction front generalizing above with
  | nil => trivial
  | cons name front ih =>
    rw [List.append_cons] at hnode hsensitive
    refine ⟨?_, hpruned name List.mem_cons_self, not_isSensitive_of_append hsensitive,
      ih hnode hsensitive fun other hother => hpruned other (List.mem_cons_of_mem _ hother)⟩
    by_cases hfront : front = []
    · rwa [hfront, List.append_nil] at hnode
    · exact tree.directory_above (tree.mem_keys hnode) hfront

/-- Files are enumerated when they are visible and not too deep. -/
theorem WorkspaceTree.mem_enumerateDirectory (levels : Nat) :
    path ∈ tree.enumerateDirectory levels above ↔
      ∃ rest, path = above ++ rest ∧ rest.length ≤ levels ∧ Visible tree above rest := by
  induction levels generalizing above with
  | zero =>
    refine iff_of_false List.not_mem_nil ?_
    rintro ⟨rest, -, hlength, front, name, rfl, -⟩
    rw [List.length_append, List.length_singleton] at hlength
    omega
  | succ levels ih =>
    rw [enumerateDirectory]
    simp only [List.mem_append, List.mem_filter, List.mem_map, List.mem_flatMap,
      decide_eq_true_iff, Prod.exists]
    constructor
    · rintro (⟨⟨name, kind, ⟨hentry, rfl⟩, rfl⟩, hadmits⟩ | ⟨name, kind, ⟨hentry, rfl⟩, hmem⟩)
      · have hnode := (tree.mem_iterEntries.1 hentry).1
        rw [tree.admits_eq hnode suits_file, Bool.not_eq_true'] at hadmits
        exact ⟨[name], rfl, by simp, visible_singleton.2 ⟨hnode, hadmits⟩⟩
      · have hnode := (tree.mem_iterEntries.1 hentry).1
        split at hmem
        · cases hmem
        · next hpruned =>
          split at hmem
          · next hadmits =>
            rw [tree.admits_eq hnode (suits_directory.2 rfl), Bool.not_eq_true'] at hadmits
            obtain ⟨rest, rfl, hlength, hvisible⟩ := ih.mp hmem
            have hrest : rest ≠ [] := by
              obtain ⟨front, last, rfl, -⟩ := hvisible
              exact List.append_ne_nil_of_right_ne_nil _ (List.cons_ne_nil _ _)
            refine ⟨name :: rest, List.append_assoc _ _ _, by simpa using hlength, ?_⟩
            exact (visible_cons hrest).mpr ⟨hnode, Bool.eq_false_iff.mpr hpruned, hadmits, hvisible⟩
          · cases hmem
    · rintro ⟨rest, rfl, hlength, hvisible⟩
      cases rest with
      | nil =>
        obtain ⟨front, last, hbad, -⟩ := hvisible
        exact absurd hbad.symm (List.append_ne_nil_of_right_ne_nil _ (List.cons_ne_nil _ _))
      | cons name rest =>
        by_cases hrest : rest = []
        · rw [hrest] at hvisible ⊢
          obtain ⟨hnode, hsensitive⟩ := visible_singleton.1 hvisible
          left
          refine ⟨⟨name, .file, ⟨tree.mem_iterEntries.2 ⟨hnode, .inl rfl⟩, rfl⟩, rfl⟩, ?_⟩
          rw [tree.admits_eq hnode suits_file, hsensitive]
          rfl
        · obtain ⟨hnode, hpruned, hsensitive, hvisible⟩ := (visible_cons hrest).mp hvisible
          right
          refine ⟨name, .directory, ⟨tree.mem_iterEntries.2 ⟨hnode, .inr rfl⟩, rfl⟩, ?_⟩
          rw [hpruned, if_neg Bool.false_ne_true, tree.admits_eq hnode (suits_directory.2 rfl),
            hsensitive, Bool.not_false, if_pos rfl, ih]
          exact ⟨rest, List.append_cons _ _ _, by simpa using hlength, hvisible⟩

omit [Casefold] in
private theorem length_le_foldr {lengths : List Nat} {n : Nat} (h : n ∈ lengths) :
    n ≤ lengths.foldr max 0 := by
  induction lengths with
  | nil => cases h
  | cons first more ih =>
    rw [List.foldr_cons]
    obtain rfl | h := List.mem_cons.mp h
    · exact Nat.le_max_left _ _
    · exact (ih h).trans (Nat.le_max_right _ _)

/-- The files of a scan are the visible ones. -/
theorem WorkspaceTree.mem_enumerateFiles : path ∈ tree.enumerateFiles above ↔
    ∃ rest, path = above ++ rest ∧ Visible tree above rest := by
  rw [enumerateFiles, tree.mem_enumerateDirectory]
  constructor
  · rintro ⟨rest, hpath, -, hvisible⟩
    exact ⟨rest, hpath, hvisible⟩
  · rintro ⟨rest, hpath, hvisible⟩
    refine ⟨rest, hpath, ?_, hvisible⟩
    obtain ⟨front, last, rfl, -, hfile, -⟩ := hvisible
    have hle := length_le_foldr (List.mem_map_of_mem (f := List.length) (tree.mem_keys hfile))
    rw [List.length_append] at hle
    exact (Nat.le_add_left _ _).trans hle

end Trees

end AwesomeAgent.WorkspaceFiles
