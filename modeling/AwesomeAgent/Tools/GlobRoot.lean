import AwesomeAgent.Tools.Enumeration
import AwesomeAgent.Tools.Search

/-!
# The scan root of a glob

The scan starts at the fixed directories in front of the pattern, while a path matches from the
right. Both agree exactly when every file that matches lies below these directories.
-/

namespace AwesomeAgent.WorkspaceFiles

section Scans

variable [Casefold] {tree : WorkspaceTree}

/-! ## The matches of a scan -/

/-- The files of the whole search path whose path below it matches. -/
def fullScan (tree : WorkspaceTree) (root : FilePath) (pattern : Text) :
    Except ToolFault (List FilePath) :=
  (tree.enumerateFiles root).filterM fun item => pathMatch (item.drop root.length) pattern

/-- A file below the search path is kept for a pattern. -/
def keeps (root : FilePath) (pattern : Text) (item : FilePath) : Bool :=
  matchesFromRight (item.drop root.length) (parsePath pattern).parts

/-- The files below a directory that are kept. -/
def matchesBelow (tree : WorkspaceTree) (root : FilePath) (pattern : Text)
    (directory : FilePath) : List FilePath :=
  (tree.enumerateFiles directory).filter (keeps root pattern)

variable {root directory : FilePath} {pattern : Text} {maxResults : Nat}

omit [Casefold] in
private theorem pathMatch_eq (hparts : (parsePath pattern).parts ≠ []) (item : FilePath) :
    pathMatch (item.drop root.length) pattern = .ok (keeps root pattern item) :=
  if_neg hparts

omit [Casefold] in
private theorem filterAuxM_ok {α ε : Type} {f : α → Except ε Bool} {g : α → Bool}
    (h : ∀ a, f a = .ok (g a)) (items found : List α) :
    items.filterAuxM f found = .ok ((items.filter g).reverse ++ found) := by
  induction items generalizing found with
  | nil => rfl
  | cons a items ih =>
    rw [List.filterAuxM, h]
    dsimp only [bind, Except.bind]
    rw [ih]
    cases hg : g a with
    | true => rw [List.filter_cons_of_pos hg, List.reverse_cons, List.append_assoc]; rfl
    | false => rw [List.filter_cons_of_neg (Bool.eq_false_iff.mp hg)]; rfl

private theorem fullScan_eq (hparts : (parsePath pattern).parts ≠ []) :
    fullScan tree root pattern = .ok (matchesBelow tree root pattern root) := by
  unfold fullScan List.filterM
  rw [filterAuxM_ok (pathMatch_eq hparts)]
  change Except.ok ((_ ++ []).reverse) = _
  rw [List.append_nil, List.reverse_reverse]
  rfl

omit [Casefold] in
private theorem collectMatches_eq (hparts : (parsePath pattern).parts ≠ []) (items : List FilePath)
    (found : List FilePath) (hfound : found.length ≤ maxResults) :
    collectMatches root pattern maxResults found items =
      .ok ((found ++ items.filter (keeps root pattern)).take (maxResults + 1)) := by
  induction items generalizing found with
  | nil =>
    rw [List.filter_nil, List.append_nil, List.take_of_length_le (by omega)]
    rfl
  | cons item items ih =>
    rw [collectMatches, pathMatch_eq hparts]
    dsimp only [bind, Except.bind]
    cases hkeeps : keeps root pattern item with
    | false =>
      rw [List.filter_cons_of_neg (Bool.eq_false_iff.mp hkeeps), if_neg Bool.false_ne_true]
      exact ih found hfound
    | true =>
      rw [List.filter_cons_of_pos hkeeps, if_pos rfl,
        List.append_cons found item (items.filter (keeps root pattern))]
      have hlength : (found ++ [item]).length = found.length + 1 := List.length_append
      split
      · next hmore =>
        rw [List.take_append_of_le_length (by omega), List.take_of_length_le (by omega)]
        rfl
      · exact ih _ (by omega)

private theorem scanFiles_eq (hparts : (parsePath pattern).parts ≠ []) :
    scanFiles tree root pattern maxResults (some directory) =
      .ok ((matchesBelow tree root pattern directory).take maxResults,
        decide (maxResults < (matchesBelow tree root pattern directory).length)) := by
  rw [scanFiles, collectMatches_eq hparts _ _ (Nat.zero_le _), List.nil_append]
  change Except.ok (((matchesBelow tree root pattern directory).take (maxResults + 1)).take
    maxResults, decide (maxResults < ((matchesBelow tree root pattern directory).take
      (maxResults + 1)).length)) = _
  rw [List.take_take, Nat.min_eq_left (Nat.le_succ _), List.length_take]
  congr 2
  exact decide_eq_decide.mpr (by omega)

/-! ## The fixed directories -/

/-- A file lies below a directory that is pruned by default and stands in the pattern. -/
def NamedPruned (root : FilePath) (pattern : Text) (item : FilePath) : Prop :=
  ∃ name ∈ (item.drop root.length).dropLast,
    isPruned name = true ∧ name ∈ (parsePath pattern).parts ∧ hasMagic name = false

/-- The glob finds what the scan of the whole search path keeps, up to the limit and up to
directories that are pruned by default but stand in the pattern. -/
def SameFiles (tree : WorkspaceTree) (arguments : GlobArguments) (root : FilePath) : Prop :=
  match fullScan tree root arguments.pattern with
  | .error fault => globFiles tree arguments = .error fault
  | .ok full => ∃ output, globFiles tree arguments = .ok output ∧
      (∀ item ∈ output.found, item ∈ full ∨ NamedPruned root arguments.pattern item) ∧
      (output.truncated = false → ∀ item ∈ full, item ∈ output.found)

/-- A path leads to a directory or to nothing, and no sensitive name and no NUL is in it. -/
structure WorkspaceTree.Searchable (tree : WorkspaceTree) (path : FilePath) : Prop where
  clean : ∀ part ∈ path, Char.ofNat 0 ∉ part
  insensitive : isSensitive path = false
  leads : tree.nodes.get? path = some .directory ∨ tree.LeadsNowhere path

/-- The fixed directories in front of a pattern can be searched and hold every file of the search
path that matches, or more files that match than a result holds. -/
def ScanSuffices (tree : WorkspaceTree) (arguments : GlobArguments) (root : FilePath) : Prop :=
  fixedParts arguments.pattern = [] ∨
    tree.Searchable (root ++ fixedParts arguments.pattern) ∧
      (arguments.maxResults < (matchesBelow tree root arguments.pattern
          (root ++ fixedParts arguments.pattern)).length ∨
        ∀ item ∈ matchesBelow tree root arguments.pattern root,
          root ++ fixedParts arguments.pattern <+: item)

omit [Casefold] in
private theorem isPart_of_mem_fixedParts {part : Text} (h : part ∈ fixedParts pattern) : IsPart part
    :=
  isPart_of_mem_parsePath ((List.dropLast_sublist _).subset ((List.takeWhile_sublist _).subset h))

omit [Casefold] in
private theorem dots_notMem_fixedParts (hpattern : validateGlobPattern pattern = .ok ()) :
    ['.', '.'] ∉ fixedParts pattern := by
  intro hmem
  have hdots : ['.', '.'] ∈ (parsePath pattern).parts :=
    (List.dropLast_sublist _).subset ((List.takeWhile_sublist _).subset hmem)
  rw [validateGlobPattern, if_pos (by simp [hdots])] at hpattern
  cases hpattern

private theorem globScanRoot_eq_ok {scanRoot : Option FilePath} (hroot : ∀ part ∈ root, IsPart part)
    (hfixed : fixedParts pattern ≠ [])
    (h : globScanRoot tree root pattern = .ok scanRoot) :
    scanRoot = some (root ++ fixedParts pattern) ∧
        tree.nodes.get? (root ++ fixedParts pattern) = some .directory ∨
      scanRoot = none ∧ tree.nodes.get? (root ++ fixedParts pattern) = none := by
  have hparse : (parsePath (posix (root ++ fixedParts pattern))).parts =
      root ++ fixedParts pattern := by
    rw [parsePath_posix fun part hpart => ?_]
    obtain hpart | hpart := List.mem_append.mp hpart
    · exact hroot part hpart
    · exact isPart_of_mem_fixedParts hpart
  rw [globScanRoot, if_neg hfixed] at h
  split at h
  · next path hresolve =>
    cases h
    obtain ⟨rfl, -, hinspect⟩ := tree.resolve_eq_ok hresolve
    obtain ⟨kind, hnode, hsuits⟩ := (tree.inspect_eq_ok_iff _ _ _ _).mp hinspect
    rw [suits_directory] at hsuits
    rw [hparse, List.nil_append, hsuits] at hnode
    rw [hparse]
    exact .inl ⟨rfl, hnode⟩
  · next hresolve =>
    cases h
    right
    rw [← hparse]
    exact ⟨rfl, (tree.resolve_notFound hresolve).get?_eq_none⟩
  · cases h

/-- The scan has a root exactly if the fixed directories can be searched. -/
theorem exists_globScanRoot_iff (hroot : Plain root) (hfixed : fixedParts pattern ≠ [])
    (hpattern : validateGlobPattern pattern = .ok ()) :
    (∃ scanRoot, globScanRoot tree root pattern = .ok scanRoot) ↔
      tree.Searchable (root ++ fixedParts pattern) := by
  obtain ⟨hparts, hdots, -⟩ := hroot
  rw [globScanRoot, if_neg hfixed]
  by_cases hclean : ∀ part ∈ root ++ fixedParts pattern, Char.ofNat 0 ∉ part
  · have hplain : Plain (root ++ fixedParts pattern) := by
      refine ⟨fun part hpart => ?_, fun hbad => ?_, hclean⟩
      · obtain hpart | hpart := List.mem_append.mp hpart
        · exact hparts part hpart
        · exact isPart_of_mem_fixedParts hpart
      · obtain hbad | hbad := List.mem_append.mp hbad
        · exact hdots hbad
        · exact dots_notMem_fixedParts hpattern hbad
    cases hsensitive : isSensitive (root ++ fixedParts pattern) with
    | true =>
      rw [tree.resolve_posix hplain, hsensitive, if_pos rfl]
      refine iff_of_false (by rintro ⟨_, h⟩; cases h) fun h => ?_
      rw [h.insensitive] at hsensitive
      cases hsensitive
    | false =>
      rw [tree.resolve_posix hplain, hsensitive, if_neg Bool.false_ne_true]
      constructor
      · rintro ⟨scanRoot, h⟩
        refine ⟨hclean, hsensitive, ?_⟩
        cases hinspect : tree.inspect (posix (root ++ fixedParts pattern)) .directory []
            (root ++ fixedParts pattern) with
        | ok =>
          obtain ⟨kind, hnode, hsuits⟩ := (tree.inspect_eq_ok_iff _ _ _ _).mp hinspect
          rw [suits_directory.1 hsuits] at hnode
          exact .inl hnode
        | error fault =>
          rw [hinspect] at h
          right
          split at h
          · next hfault => cases hfault
          · next hfault =>
            cases hfault
            exact tree.leadsNowhere_of_inspect hinspect
          · cases h
      · rintro ⟨-, -, hdirectory | hnowhere⟩
        · have hinspect := (tree.inspect_eq_ok_iff (posix (root ++ fixedParts pattern)) .directory
            [] (root ++ fixedParts pattern)).mpr ⟨.directory, hdirectory, rfl⟩
          rw [hinspect]
          exact ⟨_, rfl⟩
        · rw [hnowhere.inspect]
          exact ⟨_, rfl⟩
  · refine iff_of_false ?_ fun h => hclean h.clean
    have hnul : (posix (root ++ fixedParts pattern)).contains (Char.ofNat 0) = true := by
      rw [List.contains_iff_mem]
      simp only [not_forall, not_not] at hclean
      obtain ⟨part, hpart, hnul⟩ := hclean
      rw [posix, if_neg (List.ne_nil_of_mem hpart)]
      exact mem_intercalate_of_mem hpart hnul
    rintro ⟨scanRoot, h⟩
    rw [WorkspaceTree.resolve, if_pos hnul] at h
    cases h

variable {item : FilePath}

private theorem mem_matchesBelow : item ∈ matchesBelow tree root pattern directory ↔
    (∃ rest, item = directory ++ rest ∧ Visible tree directory rest) ∧
      keeps root pattern item = true := by
  rw [matchesBelow, List.mem_filter, tree.mem_enumerateFiles]

omit [Casefold] in
private theorem not_hasMagic_of_mem {part : Text} (h : part ∈ fixedParts pattern) :
    hasMagic part = false := by
  have hkept := List.mem_takeWhile_imp h
  rwa [Bool.not_eq_true'] at hkept

private theorem mem_matchesBelow_root
    (h : item ∈ matchesBelow tree root pattern (root ++ fixedParts pattern)) :
    item ∈ matchesBelow tree root pattern root ∨ NamedPruned root pattern item := by
  obtain ⟨⟨rest, rfl, hvisible⟩, hkeeps⟩ := mem_matchesBelow.1 h
  have hrest : rest ≠ [] := by
    obtain ⟨front, last, rfl, -⟩ := hvisible
    exact List.append_ne_nil_of_right_ne_nil _ (List.cons_ne_nil _ _)
  by_cases hpruned : ∀ name ∈ fixedParts pattern, isPruned name = false
  · left
    obtain ⟨front, last, hlast, hopens, hfile, hsensitive⟩ := hvisible
    have hopen := opens_of_directory (tree.directory_above (tree.mem_keys hfile) hrest)
      (not_isSensitive_of_append hsensitive) hpruned
    refine mem_matchesBelow.2 ⟨⟨fixedParts pattern ++ rest, List.append_assoc _ _ _, ?_⟩, hkeeps⟩
    exact (visible_append hrest).mpr ⟨hopen, front, last, hlast, hopens, hfile, hsensitive⟩
  · right
    simp only [not_forall, Bool.not_eq_false] at hpruned
    obtain ⟨name, hname, hpruned⟩ := hpruned
    refine ⟨name, ?_, hpruned, (List.dropLast_sublist _).subset
      ((List.takeWhile_sublist _).subset hname), not_hasMagic_of_mem hname⟩
    rw [List.append_assoc, List.drop_left, List.dropLast_append_of_ne_nil hrest]
    exact List.mem_append_left _ hname

private theorem mem_matchesBelow_fixed
    (hnode : tree.nodes.get? (root ++ fixedParts pattern) ≠ some .file)
    (h : item ∈ matchesBelow tree root pattern root)
    (hbelow : root ++ fixedParts pattern <+: item) :
    item ∈ matchesBelow tree root pattern (root ++ fixedParts pattern) := by
  obtain ⟨⟨path, rfl, hvisible⟩, hkeeps⟩ := mem_matchesBelow.1 h
  obtain ⟨rest, hrest⟩ := hbelow
  rw [List.append_assoc] at hrest
  obtain rfl := List.append_cancel_left hrest
  have hne : rest ≠ [] := by
    rintro rfl
    obtain ⟨-, -, -, -, hfile, -⟩ := hvisible
    rw [List.append_nil] at hfile
    exact hnode hfile
  refine mem_matchesBelow.2 ⟨⟨rest, (List.append_assoc _ _ _).symm, ?_⟩, hkeeps⟩
  exact ((visible_append hne).mp hvisible).2

private theorem matchesBelow_eq_nil (hnode : tree.nodes.get? directory = none) :
    matchesBelow tree root pattern directory = [] := by
  apply List.eq_nil_iff_forall_not_mem.mpr
  intro item hitem
  obtain ⟨⟨rest, rfl, front, last, rfl, -, hfile, -⟩, -⟩ := mem_matchesBelow.1 hitem
  have hdirectory := tree.directory_above (tree.mem_keys hfile)
    (List.append_ne_nil_of_right_ne_nil _ (List.cons_ne_nil _ _))
  rw [hnode] at hdirectory
  cases hdirectory

private theorem searchRoot_plain {requested : Text} (h : searchRoot tree requested = .ok root) :
    Plain root := by
  obtain ⟨-, -, hinspect⟩ := tree.resolve_eq_ok h
  obtain ⟨kind, hnode, -⟩ := (tree.inspect_eq_ok_iff _ _ _ _).mp hinspect
  exact tree.plain_of_mem (tree.mem_keys hnode)

section Runs

variable {arguments : GlobArguments}

private theorem globFiles_eq (hpattern : validateGlobPattern arguments.pattern = .ok ())
    (hroot : searchRoot tree arguments.path = .ok root) :
    globFiles tree arguments = (do
      let scanRoot ← globScanRoot tree root arguments.pattern
      let found ← scanFiles tree root arguments.pattern arguments.maxResults scanRoot
      pure (globOutput arguments.pattern found.1 found.2)) := by
  rw [globFiles, hpattern, hroot]
  rfl

private theorem sameFiles_of_empty (hparts : (parsePath arguments.pattern).parts = [])
    (hpattern : validateGlobPattern arguments.pattern = .ok ())
    (hroot : searchRoot tree arguments.path = .ok root) : SameFiles tree arguments root := by
  have hfixed : fixedParts arguments.pattern = [] := by
    rw [fixedParts, hparts]
    rfl
  have hmatch (item : FilePath) : pathMatch item arguments.pattern =
      .error (.value "empty pattern") := if_pos hparts
  unfold SameFiles fullScan List.filterM
  rw [globFiles_eq hpattern hroot, globScanRoot, if_pos hfixed]
  dsimp only [bind, Except.bind, scanFiles]
  cases htree : tree.enumerateFiles root with
  | nil =>
    refine ⟨_, rfl, fun item hitem => ?_, fun _ item hitem => absurd hitem List.not_mem_nil⟩
    exact absurd (List.mem_of_mem_take hitem) List.not_mem_nil
  | cons item items =>
    rw [List.filterAuxM, collectMatches, hmatch]
    rfl

private theorem sameFiles_iff_of_scan (hparts : (parsePath arguments.pattern).parts ≠ [])
    (hpattern : validateGlobPattern arguments.pattern = .ok ())
    (hroot : searchRoot tree arguments.path = .ok root)
    (hscan : globScanRoot tree root arguments.pattern = .ok (some directory))
    (hsound : ∀ item ∈ matchesBelow tree root arguments.pattern directory,
      item ∈ matchesBelow tree root arguments.pattern root ∨
        NamedPruned root arguments.pattern item) :
    SameFiles tree arguments root ↔
      arguments.maxResults < (matchesBelow tree root arguments.pattern directory).length ∨
        ∀ item ∈ matchesBelow tree root arguments.pattern root,
          item ∈ matchesBelow tree root arguments.pattern directory := by
  unfold SameFiles
  rw [fullScan_eq hparts, globFiles_eq hpattern hroot, hscan]
  dsimp only [bind, Except.bind]
  rw [scanFiles_eq hparts]
  dsimp only [pure, Except.pure]
  constructor
  · rintro ⟨output, houtput, -, hcomplete⟩
    cases houtput
    rw [or_iff_not_imp_left]
    intro hfew item hitem
    exact List.mem_of_mem_take (hcomplete (decide_eq_false hfew) item hitem)
  · intro h
    refine ⟨_, rfl, fun item hitem => hsound item (List.mem_of_mem_take hitem), ?_⟩
    intro hfew item hitem
    have hfew := of_decide_eq_false hfew
    change item ∈ List.take _ _
    rw [List.take_of_length_le (not_lt.mp hfew)]
    exact h.resolve_left hfew item hitem

end Runs

/-- A glob finds what the scan of the whole search path keeps exactly when the fixed directories
in front of the pattern hold all of it. -/
theorem globFiles_complete_iff (tree : WorkspaceTree) (arguments : GlobArguments)
    (root : FilePath) (hpattern : validateGlobPattern arguments.pattern = .ok ())
    (hroot : searchRoot tree arguments.path = .ok root) :
    SameFiles tree arguments root ↔ ScanSuffices tree arguments root := by
  by_cases hparts : (parsePath arguments.pattern).parts = []
  · refine iff_of_true (sameFiles_of_empty hparts hpattern hroot) (.inl ?_)
    rw [fixedParts, hparts]
    rfl
  by_cases hfixed : fixedParts arguments.pattern = []
  · have hscan : globScanRoot tree root arguments.pattern = .ok (some root) := if_pos hfixed
    refine iff_of_true ?_ (.inl hfixed)
    exact (sameFiles_iff_of_scan hparts hpattern hroot hscan fun _ h => .inl h).mpr
      (.inr fun _ h => h)
  have hrootParts : ∀ part ∈ root, IsPart part := (searchRoot_plain hroot).1
  have hsearchable := @exists_globScanRoot_iff _ tree _ _ (searchRoot_plain hroot) hfixed hpattern
  cases hscan : globScanRoot tree root arguments.pattern with
  | error fault =>
    refine iff_of_false ?_ ?_
    · unfold SameFiles
      rw [fullScan_eq hparts, globFiles_eq hpattern hroot, hscan]
      rintro ⟨output, houtput, -⟩
      cases houtput
    · rintro (hbad | ⟨hpath, -⟩)
      · exact hfixed hbad
      · obtain ⟨scanRoot, hok⟩ := hsearchable.mpr hpath
        rw [hscan] at hok
        cases hok
  | ok scanRoot =>
    have hpath := hsearchable.mp ⟨scanRoot, hscan⟩
    obtain ⟨rfl, hnode⟩ | ⟨rfl, hnode⟩ := globScanRoot_eq_ok hrootParts hfixed hscan
    · rw [sameFiles_iff_of_scan hparts hpattern hroot hscan fun _ h => mem_matchesBelow_root h]
      have hfile : tree.nodes.get? (root ++ fixedParts arguments.pattern) ≠ some .file := by
        rw [hnode]
        exact nofun
      constructor
      · intro h
        refine .inr ⟨hpath, h.imp_right fun hall item hitem => ?_⟩
        obtain ⟨⟨rest, rfl, -⟩, -⟩ := mem_matchesBelow.1 (hall item hitem)
        exact List.prefix_append _ _
      · rintro (hbad | ⟨-, h⟩)
        · exact absurd hbad hfixed
        · exact h.imp_right fun hall item hitem =>
            mem_matchesBelow_fixed hfile hitem (hall item hitem)
    · have hfile : tree.nodes.get? (root ++ fixedParts arguments.pattern) ≠ some .file := by
        rw [hnode]
        exact nofun
      have hempty : matchesBelow tree root arguments.pattern
          (root ++ fixedParts arguments.pattern) = [] := matchesBelow_eq_nil hnode
      unfold SameFiles ScanSuffices
      rw [fullScan_eq hparts, globFiles_eq hpattern hroot, hscan, hempty]
      constructor
      · rintro ⟨output, houtput, -, hcomplete⟩
        cases houtput
        refine .inr ⟨hpath, .inr fun item hitem => ?_⟩
        cases hcomplete rfl item hitem
      · rintro (hbad | ⟨-, hbad | hall⟩)
        · exact absurd hbad hfixed
        · exact absurd hbad (Nat.not_lt_zero _)
        · refine ⟨_, rfl, nofun, fun _ item hitem => ?_⟩
          have hbelow := mem_matchesBelow_fixed hfile hitem (hall item hitem)
          rw [hempty] at hbelow
          cases hbelow

end Scans

/-! ## Sample -/

private instance : DecidablePred IsName := fun name =>
  decidable_of_iff (name ≠ [] ∧ name ≠ ['.'] ∧ name ≠ ['.', '.'] ∧ '/' ∉ name ∧
      Char.ofNat 0 ∉ name)
    ⟨fun ⟨h₁, h₂, h₃, h₄, h₅⟩ => ⟨h₁, h₂, h₃, h₄, h₅⟩,
      fun ⟨h₁, h₂, h₃, h₄, h₅⟩ => ⟨h₁, h₂, h₃, h₄, h₅⟩⟩

/-- A tree of the given nodes. -/
def WorkspaceTree.ofNodes (nodes : Dict FilePath NodeKind)
    (hroot : nodes.get? [] = some .directory)
    (hparents : ∀ path ∈ nodes.keys, path = [] ∨ nodes.get? path.dropLast = some .directory)
    (hnames : ∀ path ∈ nodes.keys, ∀ name ∈ path, IsName name) : WorkspaceTree where
  nodes := nodes
  refused := fun _ => false
  root := hroot
  parent path name hmem := by
    obtain hbad | hparent := hparents _ hmem
    · exact absurd hbad (List.append_ne_nil_of_right_ne_nil _ (List.cons_ne_nil _ _))
    · rwa [List.dropLast_concat] at hparent
  named path name hmem := hnames _ hmem name (List.mem_append_right _ List.mem_cons_self)

/-- A source directory in the root and another one below a package. -/
def nestedTree : WorkspaceTree :=
  .ofNodes ⟨[([], .directory), (["src".toList], .directory),
      (["src".toList, "b.py".toList], .file), (["pkg".toList], .directory),
      (["pkg".toList, "src".toList], .directory),
      (["pkg".toList, "src".toList, "a.py".toList], .file)], by decide⟩
    (by decide) (by decide) (by decide)

/-- Names of the sample are in lower case. -/
@[reducible]
def lowerCase : Casefold := ⟨id⟩

/-- A pattern with the fixed directories of the package. -/
def packagePattern : GlobArguments :=
  ⟨"pkg/src/*.py".toList, ".".toList, 200, by decide, by decide⟩

/-- A pattern with a fixed directory. -/
def sourcePattern : GlobArguments :=
  ⟨"src/*.py".toList, ".".toList, 200, by decide, by decide⟩

attribute [local instance] lowerCase in
/-- All files that match lie in the package. -/
theorem globFiles_complete_sample : SameFiles nestedTree packagePattern [] :=
  (globFiles_complete_iff nestedTree packagePattern [] (by decide) (by decide)).mpr
    (.inr ⟨⟨by decide, by decide, .inl (by decide)⟩, .inr (by decide +kernel)⟩)

attribute [local instance] lowerCase in
/-- The file of the package matches from the right but is not found. -/
theorem nested_file_missed : validateGlobPattern sourcePattern.pattern = .ok () ∧
    searchRoot nestedTree sourcePattern.path = .ok [] ∧ ¬SameFiles nestedTree sourcePattern [] := by
  have hpattern : validateGlobPattern sourcePattern.pattern = .ok () := by decide
  have hroot : searchRoot nestedTree sourcePattern.path = .ok [] := by decide
  have hscan : globScanRoot nestedTree [] sourcePattern.pattern = .ok (some ["src".toList]) := by
    decide
  refine ⟨hpattern, hroot, ?_⟩
  rw [sameFiles_iff_of_scan (by decide) hpattern hroot hscan fun _ h => mem_matchesBelow_root h]
  decide

end AwesomeAgent.WorkspaceFiles
