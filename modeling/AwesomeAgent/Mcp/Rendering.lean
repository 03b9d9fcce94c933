import AwesomeAgent.Mcp.Encoding
import Mathlib.Logic.Relation

/-!
# Rendering of accepted output

A builder keeps a function of the whole text. Accepted output is rendered exactly when the runtime
writes all its integers.
-/

namespace AwesomeAgent.McpAdapter

/-! ## The builder -/

namespace BoundedTextBuilder

/-- What a builder keeps of a text. -/
structure Keeps (builder : BoundedTextBuilder) (text : PointText) : Prop where
  total : builder.totalChars = text.length
  exact : builder.exactParts.map List.flatten =
    if text.length ≤ maxContentChars then some text else none
  front : builder.headParts.flatten = text.take contentHeadChars
  frontLength : builder.headChars = (text.take contentHeadChars).length
  back : builder.tail = lastChars contentTailChars text

private theorem keeps_empty : Keeps .empty [] := ⟨rfl, rfl, rfl, rfl, rfl⟩

variable {text : PointText} {builder : BoundedTextBuilder}

private theorem lastChars_append_left {n : Nat} {chunk : PointText} (h : n ≤ chunk.length) :
    lastChars n (text ++ chunk) = lastChars n chunk := by
  unfold lastChars
  rw [List.length_append, Nat.add_sub_assoc h, List.drop_length_add_append]

private theorem lastChars_append_right (n : Nat) (text chunk : PointText) :
    lastChars n (lastChars n text ++ chunk) = lastChars n (text ++ chunk) := by
  unfold lastChars
  by_cases hn : text.length ≤ n
  · rw [Nat.sub_eq_zero_of_le hn, List.drop_zero]
  · have hfront : (text ++ chunk).drop (text.length - n) = text.drop (text.length - n) ++ chunk :=
      List.drop_append_of_le_length (Nat.sub_le _ _)
    have hsum : (text ++ chunk).length - n =
        text.length - n + ((text.drop (text.length - n) ++ chunk).length - n) := by
      simp only [List.length_append, List.length_drop]
      omega
    rw [hsum, ← List.drop_drop, hfront]

/-- A builder keeps what is added to it. -/
theorem Keeps.add (h : Keeps builder text)
    (chunk : PointText) : Keeps (builder.add chunk) (text ++ chunk) := by
  unfold BoundedTextBuilder.add
  by_cases hchunk : chunk = []
  · rw [if_pos hchunk, hchunk, List.append_nil]
    exact h
  have hremaining : contentHeadChars - builder.headChars = contentHeadChars - text.length := by
    rw [h.frontLength, List.length_take]
    omega
  have htake : (text ++ chunk).take contentHeadChars =
      text.take contentHeadChars ++ chunk.take (contentHeadChars - text.length) := List.take_append
  rw [if_neg hchunk, hremaining]
  constructor
  · rw [List.length_append, ← h.total]
  · have hexact := h.exact
    dsimp only
    rw [List.length_append]
    cases hparts : builder.exactParts with
    | none =>
      rw [hparts] at hexact
      split at hexact
      · cases hexact
      · rw [if_neg (by omega)]
        rfl
    | some parts =>
      rw [hparts] at hexact
      dsimp only
      rw [h.total]
      split at hexact
      · rw [Option.map_some, Option.some_inj] at hexact
        by_cases hmore : maxContentChars < text.length + chunk.length
        · rw [if_pos hmore, if_neg (by omega)]
          rfl
        · rw [if_neg hmore, if_pos (by omega), Option.map_some, List.flatten_append,
            List.flatten_singleton, hexact]
      · cases hexact
  · dsimp only
    rw [htake, ← h.front]
    split
    · rw [List.flatten_append, List.flatten_singleton]
    · next hfull =>
      rw [Nat.eq_zero_of_not_pos hfull, List.take_zero, List.append_nil]
  · dsimp only
    rw [htake, List.length_append, ← h.frontLength]
    split
    · rfl
    · next hfull => rw [Nat.eq_zero_of_not_pos hfull, List.take_zero, List.length_nil, Nat.add_zero]
  · dsimp only
    rw [h.back]
    split
    · next hlong => exact (lastChars_append_left hlong).symm
    · exact lastChars_append_right _ _ _

private theorem keeps_foldl (chunks : List PointText) :
    Keeps (chunks.foldl BoundedTextBuilder.add .empty) chunks.flatten := by
  induction chunks using List.reverseRecOn with
  | nil => exact keeps_empty
  | append_singleton front chunk ih =>
    rw [List.foldl_append, List.flatten_append, List.flatten_singleton]
    exact ih.add chunk

private theorem Keeps.finish_eq (h : Keeps builder text) :
    builder.finish =
      if text.length ≤ maxContentChars then (text, false)
      else (text.take contentHeadChars ++
        marker (text.length - (contentHeadChars + contentTailChars)) ++
        lastChars contentTailChars text, true) := by
  unfold finish
  have hexact := h.exact
  cases hparts : builder.exactParts with
  | none =>
    rw [hparts] at hexact
    split at hexact
    · cases hexact
    · next hlong =>
      rw [if_neg hlong]
      dsimp only
      rw [h.front, h.total, h.back]
  | some parts =>
    rw [hparts] at hexact
    split at hexact
    · next hshort =>
      rw [if_pos hshort]
      cases hexact
      rfl
    · cases hexact

private theorem Keeps.length_finish
    (h : Keeps builder text) (hlength : text.length ≤ maxStructuredWireBytes) :
    builder.finish.1.length ≤ maxContentChars := by
  rw [h.finish_eq]
  split
  · assumption
  · have hdigits :
        (Nat.toDigits 10 (text.length - (contentHeadChars + contentTailChars))).length ≤ 5 := by
      rw [Nat.length_toDigits_le_iff (by decide) (by decide)]
      unfold maxStructuredWireBytes at hlength
      omega
    have hfront : "\n...[MCP output truncated: ".toList.length = 27 := by decide
    have hback : " characters omitted]...\n".toList.length = 24 := by decide
    simp only [List.length_append, marker, pointsOf, List.length_map, lastChars, List.length_drop,
      List.length_take, hfront, hback]
    unfold contentHeadChars contentTailChars maxContentChars at *
    omega

end BoundedTextBuilder

/-! ## Reachable integers -/

section Heaps

variable {F : Type}

/-- The values that an object holds; keys do not count. -/
def children (heap : Heap F) : PyValue F → List (PyValue F)
  | .scalar _ => []
  | .object identity =>
      match heap identity with
      | .dict items => items.map Prod.snd
      | .list items => items
      | .other => []

/-- A value is part of another one. -/
def Reaches (heap : Heap F) : PyValue F → PyValue F → Prop :=
  Relation.ReflTransGen fun value part => part ∈ children heap value

private theorem mem_integersOfMembers {n : Int} {members : List (PointText × Tree F)} :
    n ∈ integersOfMembers members ↔ ∃ member ∈ members, n ∈ member.2.integers := by
  induction members with
  | nil => simp [integersOfMembers]
  | cons member members ih =>
    obtain ⟨key, value⟩ := member
    rw [integersOfMembers, List.mem_append, ih, List.exists_mem_cons_iff]

private theorem mem_integersOfItems {n : Int} {items : List (Tree F)} :
    n ∈ integersOfItems items ↔ ∃ item ∈ items, n ∈ item.integers := by
  induction items with
  | nil => simp [integersOfItems]
  | cons item items ih => rw [integersOfItems, List.mem_append, ih, List.exists_mem_cons_iff]

/-- The integers of a tree are those that its value reaches. -/
theorem mem_integers_iff (heap : Heap F) (n : Int) (levels : Nat) {value : PyValue F}
    {tree : Tree F} (h : treeOf heap levels value = some tree) :
    n ∈ tree.integers ↔ Reaches heap value (.scalar (.int n)) := by
  induction levels generalizing value tree with
  | zero => cases h
  | succ levels ih =>
    have hreaches : Reaches heap value (.scalar (.int n)) ↔ value = .scalar (.int n) ∨
        ∃ part ∈ children heap value, Reaches heap part (.scalar (.int n)) :=
      Relation.ReflTransGen.cases_head_iff
    rw [hreaches]
    cases value with
    | scalar s =>
      cases h
      simp only [children, List.not_mem_nil, false_and, exists_false, or_false,
        PyValue.scalar.injEq]
      cases s with
      | int m => simp [Tree.integers, eq_comm]
      | none | bool | float | str => simp [Tree.integers]
    | object identity =>
      rw [treeOf] at h
      simp only [reduceCtorEq, false_or]
      unfold children
      dsimp only
      cases hobject : heap identity with
      | other =>
        rw [hobject] at h
        cases h
      | dict items =>
        rw [hobject] at h
        obtain ⟨members, hmembers, rfl⟩ := Option.map_eq_some_iff.mp h
        rw [Tree.integers, mem_integersOfMembers]
        dsimp only
        have hvalue {item : PyValue F × PyValue F} {member : PointText × Tree F}
            (hmember : (do pure (← item.1.key, ← treeOf heap levels item.2)) = some member) :
            treeOf heap levels item.2 = some member.2 := by
          obtain ⟨key, -, hmember⟩ := Option.bind_eq_some_iff.mp hmember
          obtain ⟨sub, hsub, hmember⟩ := Option.bind_eq_some_iff.mp hmember
          cases hmember
          exact hsub
        constructor
        · rintro ⟨member, hmember, hn⟩
          obtain ⟨item, hitem, hmember⟩ := mem_of_mapM hmembers member hmember
          exact ⟨item.2, List.mem_map_of_mem hitem, (ih (hvalue hmember)).mp hn⟩
        · rintro ⟨part, hpart, hn⟩
          obtain ⟨item, hitem, rfl⟩ := List.mem_map.mp hpart
          obtain ⟨member, hmember, hsome⟩ := exists_of_mapM hmembers item hitem
          exact ⟨member, hmember, (ih (hvalue hsome)).mpr hn⟩
      | list items =>
        rw [hobject] at h
        obtain ⟨trees, htrees, rfl⟩ := Option.map_eq_some_iff.mp h
        rw [Tree.integers, mem_integersOfItems]
        dsimp only
        constructor
        · rintro ⟨sub, hsub, hn⟩
          obtain ⟨item, hitem, hsub⟩ := mem_of_mapM htrees sub hsub
          exact ⟨item, hitem, (ih hsub).mp hn⟩
        · rintro ⟨item, hitem, hn⟩
          obtain ⟨sub, hsub, hsome⟩ := exists_of_mapM htrees item hitem
          exact ⟨sub, hsub, (ih hsome).mpr hn⟩

/-! ## Accepted output -/

variable [FloatFormat F]

private theorem visit_nodes {heap : Heap F} {value : PyValue F} {depth : Nat}
    {st next : WalkState F}
    (h : visit heap value depth st = .ok next) :
    next.nodes = st.nodes + 1 ∧ next.nodes ≤ maxStructuredNodes := by
  unfold visit at h
  split_ifs at h with hnodes hdepth
  rw [not_lt] at hnodes
  cases value with
  | scalar s =>
    obtain ⟨bytes, -, h⟩ := except_bind_ok h
    obtain ⟨wireBytes, -, h⟩ := except_bind_ok h
    cases h
    exact ⟨rfl, hnodes⟩
  | object identity =>
    dsimp only at h
    split at h
    · cases h
    · split at h
      · cases h
      · obtain ⟨wireBytes, -, h⟩ := except_bind_ok h
        cases h
        exact ⟨rfl, hnodes⟩
    · split at h
      · cases h
      · obtain ⟨wireBytes, -, h⟩ := except_bind_ok h
        cases h
        exact ⟨rfl, hnodes⟩

omit [FloatFormat F] in
private theorem advance_nodes {wireBytes nodes : Nat} {frames : List (Frame F)}
    {next : PyValue F × Nat}
    {st : WalkState F} (activeContainers : List Nat)
    (h : advance wireBytes nodes activeContainers frames = .ok (some (next, st))) :
    st.nodes = nodes := by
  induction frames generalizing activeContainers with
  | nil => cases h
  | cons frame frames ih =>
    obtain ⟨waiting, childDepth, identity⟩ := frame
    cases waiting with
    | nil => exact ih _ h
    | cons child waiting =>
      cases child with
      | item value =>
        cases h
        rfl
      | member key value =>
        rw [advance] at h
        split at h
        · cases h
        · obtain ⟨bytes, -, h⟩ := except_bind_ok h
          obtain ⟨total, -, h⟩ := except_bind_ok h
          cases h
          rfl

private theorem walk_ends (heap : Heap F) (fuel : Nat) (value : PyValue F) (depth : Nat)
    (st : WalkState F) (hnodes : st.nodes ≤ maxStructuredNodes)
    (hfuel : maxStructuredNodes < st.nodes + fuel) :
    ∃ outcome, walk heap fuel value depth st = some outcome := by
  induction fuel generalizing value depth st with
  | zero => omega
  | succ fuel ih =>
    rw [walk]
    cases hvisit : visit heap value depth st with
    | error fault => exact ⟨_, rfl⟩
    | ok next =>
      obtain ⟨hnext, hbound⟩ := visit_nodes hvisit
      dsimp only
      cases hadvance : advance next.wireBytes next.nodes next.activeContainers next.frames with
      | error fault => exact ⟨_, rfl⟩
      | ok going =>
        cases going with
        | none => exact ⟨_, rfl⟩
        | some going =>
          obtain ⟨⟨value, depth⟩, later⟩ := going
          have hlater := advance_nodes _ hadvance
          exact ih value depth later (by omega) (by omega)

/-- A value is a tree of bounded size. -/
structure IsBoundedTree (heap : Heap F) (value : PyValue F) (tree : Tree F) : Prop where
  unfolds : treeOf heap maxStructuredDepth value = some tree
  nodes_le : tree.nodes ≤ maxStructuredNodes

/-- A tree is rendered, and its encoding fits the budget. -/
structure RendersWithin (tree : Tree F) : Prop where
  encoded : ∃ chunks bytes, iterencode tree = .ok chunks ∧
    encodePoints chunks.flatten = some bytes ∧ bytes.length ≤ maxStructuredWireBytes
  rendered : ∃ content truncated, boundedContent [] (some tree) = .ok (content, truncated) ∧
    content.length ≤ maxContentChars

private theorem Fits.length_le {text : PointText} {n : Nat} (h : Fits text n) : text.length ≤ n
    := by
  have hpos (c : CodePoint) : 1 ≤ c.width := by
    unfold CodePoint.width
    split_ifs <;> omega
  have hwidth : text.length ≤ pointsWidth text := by
    clear h
    induction text with
    | nil => exact le_rfl
    | cons c text ih =>
      rw [List.length_cons, pointsWidth_cons]
      have := hpos c
      omega
  exact hwidth.trans h.bounded

private theorem rendersWithin_iff {tree : Tree F} {cost : Nat} (hcost : tree.cost = some cost)
    (hbudget : cost ≤ maxStructuredWireBytes) :
    RendersWithin tree ↔ ∀ n ∈ tree.integers, IsShort n := by
  constructor
  · rintro ⟨⟨chunks, bytes, hchunks, -⟩, -⟩
    exact short_of_iterencode tree hchunks
  · intro hshort
    obtain ⟨chunks, hchunks, hfits⟩ := fits_iterencode tree hcost hshort
    obtain ⟨bytes, hbytes, hlength⟩ := encodePoints_eq_some hfits.clean
    have hkeeps := BoundedTextBuilder.keeps_foldl chunks
    refine ⟨⟨chunks, bytes, hchunks, hbytes, ?_⟩, _,
      (chunks.foldl BoundedTextBuilder.add .empty).finish.2, ?_, hkeeps.length_finish ?_⟩
    · rw [hlength]
      exact hfits.bounded.trans hbudget
    · rw [boundedContent, if_neg (not_not_intro rfl), hchunks]
      rfl
    · exact hfits.length_le.trans hbudget

/-- The preflight ends with every value. What it accepts is a bounded tree, which is rendered
within the budget exactly when the runtime writes all its integers. -/
theorem preflight_bounds_iff (heap : Heap F) (value : PyValue F) :
    (∃ outcome, preflightStructuredContent heap (some value) = some outcome) ∧
      (preflightStructuredContent heap (some value) = some (.ok ()) →
        ∃ tree, IsBoundedTree heap value tree ∧
          (RendersWithin tree ↔
            ∀ n, Reaches heap value (.scalar (.int n)) → IsShort n)) := by
  cases value with
  | scalar s => exact ⟨⟨_, rfl⟩, nofun⟩
  | object identity =>
    unfold preflightStructuredContent
    dsimp only
    cases heap identity with
    | list items => exact ⟨⟨_, rfl⟩, nofun⟩
    | other => exact ⟨⟨_, rfl⟩, nofun⟩
    | dict items =>
      refine ⟨walk_ends heap _ _ _ _ (Nat.zero_le _) (by omega), fun haccept => ?_⟩
      obtain ⟨tree, cost, htree, hcost, hbudget, hnodes, -⟩ :=
        walk_sound heap maxStructuredNodes (.object identity) 1 ⟨0, 0, [], []⟩ haccept
      rw [Nat.zero_add] at hbudget hnodes
      refine ⟨tree, ⟨htree, hnodes⟩, ?_⟩
      rw [rendersWithin_iff hcost hbudget]
      exact forall_congr' fun n => imp_congr_left (mem_integers_iff heap n _ htree)

end Heaps

/-! ## Sample -/

/-- The samples hold no floats. -/
@[reducible]
def noFloats : FloatFormat Empty := ⟨nofun, nofun, nofun⟩

/-- A heap with one object, whose only member is an integer. -/
def integerHeap (n : Int) : Heap Empty
  | 0 => .dict [(.scalar (.str (pointsOf ['n'])), .scalar (.int n))]
  | _ => .other

/-- A heap whose list is a member of two dictionaries, one of which is in the other. -/
def sharedHeap : Heap Empty
  | 0 => .dict [(.scalar (.str (pointsOf ['i'])), .object 1),
      (.scalar (.str (pointsOf ['s'])), .object 2)]
  | 1 => .dict [(.scalar (.str (pointsOf ['s'])), .object 2),
      (.scalar (.str (pointsOf ['z'])), .scalar .none)]
  | 2 => .list [.scalar (.int 7), .scalar (.bool true), .scalar (.str (pointsOf ['x']))]
  | _ => .other

attribute [local instance] noFloats in
/-- A nested value with a shared list and short integers is rendered. -/
theorem preflight_bounds_sample :
    ∃ tree, IsBoundedTree sharedHeap (.object 0) tree ∧
      (RendersWithin tree ↔
        ∀ n, Reaches sharedHeap (.object 0) (.scalar (.int n)) → IsShort n) :=
  (preflight_bounds_iff sharedHeap (.object 0)).2 (by decide)

attribute [local instance] noFloats in
/-- An integer of too many digits is accepted, but never rendered. -/
theorem longInteger_accepted :
    preflightStructuredContent (integerHeap (.ofNat (10 ^ maxIntDigits))) (some (.object 0)) =
        some (.ok ()) ∧
      ¬∃ tree, IsBoundedTree (integerHeap (.ofNat (10 ^ maxIntDigits))) (.object 0) tree ∧
        RendersWithin tree := by
  refine ⟨by decide +kernel, ?_⟩
  rintro ⟨tree, htree, ⟨chunks, bytes, hchunks, -⟩, -⟩
  have hinteger : Reaches (integerHeap (.ofNat (10 ^ maxIntDigits))) (.object 0)
      (.scalar (.int (.ofNat (10 ^ maxIntDigits)))) :=
    .single List.mem_cons_self
  have hshort := short_of_iterencode tree hchunks _
    ((mem_integers_iff _ _ _ htree.unfolds).mpr hinteger)
  exact absurd hshort (by decide +kernel)

end AwesomeAgent.McpAdapter
