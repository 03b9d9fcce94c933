import AwesomeAgent.Library.FaultySteps
import AwesomeAgent.Mcp.Structured

/-!
# The preflight bounds the encoding

The walk counts at least as many bytes as the encoding has. What it accepts is a tree of bounded
size whose encoding fails only at integers that the runtime does not write.
-/

namespace AwesomeAgent.McpAdapter

/-! ## Costs -/

/-- The bytes that are counted for the code points of a string. -/
def pointsCost : PointText → Option Nat
  | [] => some 0
  | c :: rest =>
      match pointWireBytes c, pointsCost rest with
      | .ok width, some more => some (width + more)
      | _, _ => none

/-- The bytes that are counted for a string. -/
def stringCost (text : PointText) : Option Nat := (pointsCost text).map (2 + ·)

section Costs

variable {F : Type} [FloatFormat F]

/-- The bytes that are counted for a scalar. -/
def scalarCost : Scalar F → Option Nat
  | .none => some 4
  | .bool true => some 4
  | .bool false => some 5
  | .str text => stringCost text
  | .int n => some (intWireBytes n)
  | .float x => if FloatFormat.isFinite x then some (FloatFormat.repr x).length else none

mutual

/-- The bytes that are counted for a tree. -/
def Tree.cost : Tree F → Option Nat
  | .scalar s => scalarCost s
  | .object members => do
      let bytes ← membersCost members
      pure (2 + (members.length - 1) + members.length + bytes)
  | .array items => do
      let bytes ← itemsCost items
      pure (2 + (items.length - 1) + bytes)

/-- The bytes that are counted for the keys and values of an object. -/
def membersCost : List (PointText × Tree F) → Option Nat
  | [] => some 0
  | (key, value) :: rest => do
      let keyBytes ← stringCost key
      let bytes ← value.cost
      let more ← membersCost rest
      pure (keyBytes + bytes + more)

/-- The bytes that are counted for the items of an array. -/
def itemsCost : List (Tree F) → Option Nat
  | [] => some 0
  | value :: rest => do
      let bytes ← value.cost
      let more ← itemsCost rest
      pure (bytes + more)

end

end Costs

private theorem pointsWireBytes_eq_ok {remaining size bytes : Nat} {text : PointText}
    (h : pointsWireBytes remaining size text = .ok bytes) :
    ∃ cost, pointsCost text = some cost ∧ bytes = size + cost := by
  induction text generalizing size with
  | nil =>
    cases h
    exact ⟨0, rfl, rfl⟩
  | cons c text ih =>
    rw [pointsWireBytes] at h
    obtain ⟨width, hwidth, h⟩ := except_bind_ok h
    split at h
    · cases h
    · obtain ⟨cost, hcost, rfl⟩ := ih h
      refine ⟨width + cost, ?_, Nat.add_assoc _ _ _⟩
      rw [pointsCost, hwidth, hcost]

private theorem jsonStringWireBytes_eq_ok {remaining bytes : Nat} {text : PointText}
    (h : jsonStringWireBytes text remaining = .ok bytes) : stringCost text = some bytes := by
  unfold jsonStringWireBytes at h
  split at h
  · cases h
  · obtain ⟨cost, hcost, rfl⟩ := pointsWireBytes_eq_ok h
    rw [stringCost, hcost]
    rfl

private theorem addWireBytes_eq_ok {current additional total : Nat}
    (h : addWireBytes current additional = .ok total) :
    total = current + additional ∧ total ≤ maxStructuredWireBytes := by
  unfold addWireBytes at h
  split at h
  · cases h
  · cases h
    exact ⟨rfl, by omega⟩

/-! ## The walk -/

section Walk

variable {F : Type} [FloatFormat F] {heap : Heap F}

private theorem scalarWireBytes_eq_ok {remaining bytes : Nat} {s : Scalar F}
    (h : scalarWireBytes remaining s = .ok bytes) : scalarCost s = some bytes := by
  cases s with
  | none | int n =>
    cases h
    rfl
  | bool b => cases b <;> cases h <;> rfl
  | str text => exact jsonStringWireBytes_eq_ok h
  | float x =>
    rw [scalarWireBytes] at h
    rw [scalarCost]
    split at h
    · next hfinite =>
      cases h
      exact if_pos hfinite
    · cases h

/-- The walk behind a value that was looked at. -/
def resume (heap : Heap F) (fuel wireBytes nodes : Nat) (activeContainers : List Nat)
    (frames : List (Frame F)) : Option (Except UnsafeStructuredOutput Unit) :=
  match advance wireBytes nodes activeContainers frames with
  | .error fault => some (.error fault)
  | .ok none => some (.ok ())
  | .ok (some ((value, depth), st)) => walk heap fuel value depth st

private theorem walk_succ (fuel : Nat) (value : PyValue F) (depth : Nat) (st : WalkState F) :
    walk heap (fuel + 1) value depth st =
      match visit heap value depth st with
      | .error fault => some (.error fault)
      | .ok next => resume heap fuel next.wireBytes next.nodes next.activeContainers next.frames :=
  rfl

/-- A walk that counts more bytes and values and then goes on. -/
def Continues (heap : Heap F) (fuel wireBytes nodes : Nat) (activeContainers : List Nat)
    (frames : List (Frame F)) (cost count : Nat) : Prop :=
  wireBytes + cost ≤ maxStructuredWireBytes ∧ nodes + count ≤ maxStructuredNodes ∧
    ∃ later ≤ fuel, resume heap later (wireBytes + cost) (nodes + count) activeContainers frames =
      some (.ok ())

/-- What a walk accepts is a tree, whose cost and values it counts. -/
def WalkSound (heap : Heap F) (fuel : Nat) : Prop :=
  ∀ value depth st, walk heap (fuel + 1) value depth st = some (.ok ()) →
    ∃ tree cost, treeOf heap (maxStructuredDepth + 1 - depth) value = some tree ∧
      tree.cost = some cost ∧ Continues heap fuel st.wireBytes st.nodes st.activeContainers
        st.frames cost tree.nodes

variable {fuel wireBytes nodes depth identity : Nat} {activeContainers : List Nat}
  {frames : List (Frame F)}

private theorem resume_items (items : List (PyValue F)) (hsound : ∀ k < fuel, WalkSound heap k)
    (hwire : wireBytes ≤ maxStructuredWireBytes) (hnodes : nodes ≤ maxStructuredNodes)
    (h : resume heap fuel wireBytes nodes activeContainers
      (⟨items.map .item, depth, identity⟩ :: frames) = some (.ok ())) :
    ∃ trees cost, items.mapM (treeOf heap (maxStructuredDepth + 1 - depth)) = some trees ∧
      itemsCost trees = some cost ∧ Continues heap fuel wireBytes nodes
        (activeContainers.erase identity) frames cost (nodesOfItems trees) := by
  induction items generalizing fuel wireBytes nodes with
  | nil => exact ⟨[], 0, rfl, rfl, hwire, hnodes, fuel, le_rfl, h⟩
  | cons item items ih =>
    cases fuel with
    | zero => cases h
    | succ fuel =>
      obtain ⟨tree, cost, htree, hcost, hwire, hnodes, later, hlater, h⟩ :=
        hsound fuel (Nat.lt_succ_self fuel) item depth _ h
      obtain ⟨trees, more, htrees, hmore, hwire, hnodes, last, hlast, h⟩ :=
        ih (fun k hk => hsound k (by omega)) hwire hnodes h
      refine ⟨tree :: trees, cost + more, ?_, ?_, ?_⟩
      · rw [List.mapM_cons, htree, htrees]
        rfl
      · rw [itemsCost, hcost, hmore]
        rfl
      · dsimp only at hwire hnodes h
        rw [Nat.add_assoc] at hwire hnodes h
        rw [Nat.add_assoc nodes] at h
        exact ⟨hwire, hnodes, last, by omega, h⟩

/-- The members of an object, one after the other. -/
theorem resume_members (items : List (PyValue F × PyValue F))
    (hsound : ∀ k < fuel, WalkSound heap k)
    (hwire : wireBytes ≤ maxStructuredWireBytes) (hnodes : nodes ≤ maxStructuredNodes)
    (h : resume heap fuel wireBytes nodes activeContainers
      (⟨items.map fun item => .member item.1 item.2, depth, identity⟩ :: frames) =
        some (.ok ())) :
    ∃ members cost, (items.mapM fun (item : PyValue F × PyValue F) => do
        pure (← item.1.key, ← treeOf heap (maxStructuredDepth + 1 - depth) item.2)) =
          some members ∧
      membersCost members = some cost ∧ Continues heap fuel wireBytes nodes
        (activeContainers.erase identity) frames cost (nodesOfMembers members) := by
  induction items generalizing fuel wireBytes nodes with
  | nil => exact ⟨[], 0, rfl, rfl, hwire, hnodes, fuel, le_rfl, h⟩
  | cons item items ih =>
    rw [List.map_cons, resume, advance] at h
    cases hkey : item.1.key with
    | none =>
      rw [hkey] at h
      cases h
    | some text =>
      rw [hkey] at h
      dsimp only at h
      cases hbytes : jsonStringWireBytes text (maxStructuredWireBytes - wireBytes) with
      | error fault =>
        rw [hbytes] at h
        cases h
      | ok bytes =>
        rw [hbytes] at h
        cases hadd : addWireBytes wireBytes bytes with
        | error fault =>
          simp only [bind, Except.bind, hadd] at h
          cases h
        | ok total =>
          simp only [bind, Except.bind, hadd, pure, Except.pure] at h
          obtain ⟨rfl, htotal⟩ := addWireBytes_eq_ok hadd
          cases fuel with
          | zero => cases h
          | succ fuel =>
            obtain ⟨tree, cost, htree, hcost, hwire, hnodes, later, hlater, h⟩ :=
              hsound fuel (Nat.lt_succ_self fuel) item.2 depth _ h
            obtain ⟨members, more, hmembers, hmore, hwire, hnodes, last, hlast, h⟩ :=
              ih (fun k hk => hsound k (by omega)) hwire hnodes h
            refine ⟨(text, tree) :: members, bytes + cost + more, ?_, ?_, ?_⟩
            · rw [List.mapM_cons, hkey, htree, hmembers]
              rfl
            · rw [membersCost, jsonStringWireBytes_eq_ok hbytes, hcost, hmore]
              rfl
            · dsimp only at hwire hnodes h
              rw [Nat.add_assoc nodes] at hnodes h
              rw [Nat.add_assoc wireBytes bytes, Nat.add_assoc wireBytes] at hwire h
              exact ⟨hwire, hnodes, last, by omega, h⟩

omit [FloatFormat F] in
private theorem treeOf_succ (levels : Nat) (value : PyValue F) : treeOf heap (levels + 1) value =
    match value with
    | .scalar s => some (.scalar s)
    | .object identity =>
        match heap identity with
        | .dict items => (items.mapM fun (item : PyValue F × PyValue F) => do
            pure (← item.1.key, ← treeOf heap levels item.2)).map .object
        | .list items => (items.mapM (treeOf heap levels)).map .array
        | .other => none := by
  cases value with
  | scalar s => rfl
  | object identity => rfl

/-- What the walk accepts is a tree. -/
theorem walk_sound (heap : Heap F) (fuel : Nat) : WalkSound heap fuel := by
  induction fuel using Nat.strongRecOn with
  | ind fuel ih =>
    intro value depth st h
    rw [walk_succ] at h
    unfold visit at h
    split_ifs at h with hnodes hdepth
    · cases h
    · cases h
    have hlevels : maxStructuredDepth + 1 - depth = maxStructuredDepth - depth + 1 := by omega
    rw [hlevels, treeOf_succ]
    cases value with
    | scalar s =>
      cases hbytes : scalarWireBytes (maxStructuredWireBytes - st.wireBytes) s with
      | error fault =>
        simp only [hbytes, bind, Except.bind] at h
        cases h
      | ok bytes =>
        cases hadd : addWireBytes st.wireBytes bytes with
        | error fault =>
          simp only [hbytes, hadd, bind, Except.bind] at h
          cases h
        | ok total =>
          simp only [hbytes, hadd, bind, Except.bind, pure, Except.pure] at h
          obtain ⟨rfl, htotal⟩ := addWireBytes_eq_ok hadd
          exact ⟨_, bytes, rfl, scalarWireBytes_eq_ok hbytes, htotal, by
            rw [Tree.nodes]; omega, fuel, le_rfl, h⟩
    | object identity =>
      dsimp only at h ⊢
      cases hobject : heap identity with
      | other =>
        rw [hobject] at h
        cases h
      | dict items =>
        rw [hobject] at h
        dsimp only at h
        split_ifs at h with hactive
        · cases h
        cases hadd : addWireBytes st.wireBytes (2 + (items.length - 1) + items.length) with
        | error fault =>
          simp only [hadd, bind, Except.bind] at h
          cases h
        | ok total =>
          simp only [hadd, bind, Except.bind, pure, Except.pure] at h
          obtain ⟨rfl, htotal⟩ := addWireBytes_eq_ok hadd
          obtain ⟨members, cost, hmembers, hcost, hwire, hcount, later, hlater, h⟩ :=
            resume_members items ih htotal (by omega) h
          rw [Nat.add_sub_add_right] at hmembers
          have hlength := length_of_mapM hmembers
          refine ⟨.object members, _, by dsimp only; rw [hmembers]; rfl,
            by rw [Tree.cost, hcost]; rfl, ?_⟩
          rw [hlength, Tree.nodes]
          rw [List.erase_cons_head, Nat.add_assoc st.wireBytes, Nat.add_assoc st.nodes] at h
          rw [Nat.add_assoc] at hwire hcount
          exact ⟨hwire, hcount, later, hlater, h⟩
      | list items =>
        rw [hobject] at h
        dsimp only at h
        split_ifs at h with hactive
        · cases h
        cases hadd : addWireBytes st.wireBytes (2 + (items.length - 1)) with
        | error fault =>
          simp only [hadd, bind, Except.bind] at h
          cases h
        | ok total =>
          simp only [hadd, bind, Except.bind, pure, Except.pure] at h
          obtain ⟨rfl, htotal⟩ := addWireBytes_eq_ok hadd
          obtain ⟨trees, cost, htrees, hcost, hwire, hcount, later, hlater, h⟩ :=
            resume_items items ih htotal (by omega) h
          rw [Nat.add_sub_add_right] at htrees
          have hlength := length_of_mapM htrees
          refine ⟨.array trees, _, by dsimp only; rw [htrees]; rfl,
            by rw [Tree.cost, hcost]; rfl, ?_⟩
          rw [hlength, Tree.nodes]
          rw [List.erase_cons_head, Nat.add_assoc st.wireBytes, Nat.add_assoc st.nodes] at h
          rw [Nat.add_assoc] at hwire hcount
          exact ⟨hwire, hcount, later, hlater, h⟩

end Walk

end AwesomeAgent.McpAdapter
