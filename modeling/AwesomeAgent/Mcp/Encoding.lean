import AwesomeAgent.Mcp.Preflight
import Mathlib.Algebra.Order.Group.Nat
import Mathlib.Data.Nat.Log

/-!
# The encoding fits the counted bytes

Every part of the encoding takes at most the bytes that the walk counts for it: escapes and
separators exactly, integers by a bound on their digits.
-/

namespace AwesomeAgent.McpAdapter

/-- A text has an encoding of at most so many bytes. -/
structure Fits (text : PointText) (bytes : Nat) : Prop where
  clean : ∀ c ∈ text, c.isSurrogate = false
  bounded : pointsWidth text ≤ bytes

variable {text : PointText}

private theorem Fits.append {front : PointText} {m n : Nat} (hfront : Fits front m)
    (htext : Fits text n) : Fits (front ++ text) (m + n) where
  clean c hc := (List.mem_append.mp hc).elim (hfront.clean c) (htext.clean c)
  bounded := by
    rw [pointsWidth_append]
    exact Nat.add_le_add hfront.bounded htext.bounded

private theorem Fits.mono {m n : Nat} (h : Fits text m) (hle : m ≤ n) : Fits text n :=
  ⟨h.clean, h.bounded.trans hle⟩

private theorem fits_nil : Fits [] 0 := ⟨nofun, le_rfl⟩

private theorem val_ofChar {c : Char} (h : c.toNat ≤ 0x7F) :
    (CodePoint.ofChar c).val = c.toNat := by
  change c.toNat % 0x110000 = c.toNat
  exact Nat.mod_eq_of_lt (by omega)

/-- A text of ASCII characters. -/
def isAscii (text : Text) : Bool := text.all fun c => decide (c.toNat ≤ 0x7F)

private theorem isAscii_iff {text : Text} : isAscii text = true ↔ ∀ c ∈ text, c.toNat ≤ 0x7F := by
  simp only [isAscii, List.all_eq_true, decide_eq_true_iff]

private theorem fits_ascii {text : Text} (hascii : isAscii text = true) :
    Fits (pointsOf text) text.length := by
  have h := isAscii_iff.1 hascii
  clear hascii
  induction text with
  | nil => exact fits_nil
  | cons c text ih =>
    have hc := h c List.mem_cons_self
    have hval := val_ofChar hc
    have hone : Fits [CodePoint.ofChar c] 1 := by
      constructor
      · intro d hd
        rw [List.mem_singleton.mp hd, CodePoint.isSurrogate, hval]
        exact decide_eq_false (by omega)
      · rw [pointsWidth_cons, pointsWidth_nil, CodePoint.width, hval, if_pos hc]
    have hrest := ih fun d hd => h d (List.mem_cons_of_mem _ hd)
    rw [List.length_cons, Nat.add_comm]
    exact hone.append hrest

private theorem ascii_shortEscapes : ∀ p ∈ shortEscapes, p.2.toNat ≤ 0x7F ∧
    (p.1.val ≤ 0x1F ∨ p.1.val = 0x22 ∨ p.1.val = 0x5C) := by
  have hall : (shortEscapes.all fun p => decide (p.2.toNat ≤ 0x7F ∧
      (p.1.val ≤ 0x1F ∨ p.1.val = 0x22 ∨ p.1.val = 0x5C))) = true := by
    decide
  simpa only [List.all_eq_true, decide_eq_true_iff] using hall

private theorem ascii_digitChar : ∀ d < 16, (Nat.digitChar d).toNat ≤ 0x7F := by decide

private theorem fits_escapePoint {c : CodePoint} {width : Nat} (h : pointWireBytes c = .ok width) :
    Fits (escapePoint c) width := by
  unfold escapePoint
  split
  · next letter hlookup =>
    obtain ⟨front, rest, hsplit, -⟩ := List.lookup_eq_some_iff.mp hlookup
    obtain ⟨hletter, hcode⟩ := ascii_shortEscapes (c, letter) (by rw [hsplit]; simp)
    have hfits : Fits (pointsOf ['\\', letter]) 2 := by
      apply fits_ascii
      simp only [isAscii_iff, List.forall_mem_cons, List.not_mem_nil, false_imp_iff, implies_true,
        and_true]
      exact ⟨by decide, hletter⟩
    apply hfits.mono
    unfold pointWireBytes at h
    dsimp only at hcode
    split_ifs at h <;> cases h <;> omega
  · split
    · next hcontrol =>
      have hwidth : width = 6 := by
        unfold pointWireBytes at h
        rw [if_pos hcontrol] at h
        cases h
        rfl
      rw [hwidth]
      apply fits_ascii
      simp only [isAscii_iff, List.cons_append, List.nil_append, List.forall_mem_cons,
        List.not_mem_nil, false_imp_iff, implies_true, and_true]
      exact ⟨by decide, by decide, by decide, by decide, ascii_digitChar _ (by omega),
        ascii_digitChar _ (by omega)⟩
    · unfold pointWireBytes at h
      constructor
      · intro d hd
        rw [List.mem_singleton.mp hd]
        apply decide_eq_false
        intro hsurrogate
        split_ifs at h <;> omega
      · rw [pointsWidth_cons, pointsWidth_nil]
        unfold CodePoint.width
        split_ifs at h <;> cases h <;> split_ifs <;> omega

private theorem fits_points {cost : Nat} (h : pointsCost text = some cost) :
    Fits (text.flatMap escapePoint) cost := by
  induction text generalizing cost with
  | nil =>
    cases h
    exact fits_nil
  | cons c text ih =>
    rw [pointsCost] at h
    split at h
    · next width more hwidth hmore =>
      cases h
      rw [List.flatMap_cons]
      exact (fits_escapePoint hwidth).append (ih hmore)
    · cases h

private theorem fits_encodeString {cost : Nat} (h : stringCost text = some cost) :
    Fits (encodeString text) cost := by
  obtain ⟨points, hpoints, rfl⟩ := Option.map_eq_some_iff.mp h
  have hquote : Fits (pointsOf ['"']) 1 := fits_ascii (by decide)
  exact ((hquote.append (fits_points hpoints)).append hquote).mono (by omega)

/-! ## Integers -/

private theorem two_pow_lt_ten_pow {p q : Nat} (hp : 0 < p) (h : 2 ^ p ≤ 10 ^ q) (bits : Nat) :
    2 ^ bits < 10 ^ (bits * q / p + 1) := by
  by_contra hle
  rw [not_lt] at hle
  have hquot : bits * q < p * (bits * q / p + 1) := Nat.lt_mul_div_succ _ hp
  have hpow : 10 ^ ((bits * q / p + 1) * p) ≤ 10 ^ (q * bits) :=
    calc 10 ^ ((bits * q / p + 1) * p)
      _ = (10 ^ (bits * q / p + 1)) ^ p := Nat.pow_mul ..
      _ ≤ (2 ^ bits) ^ p := Nat.pow_le_pow_left hle p
      _ = (2 ^ p) ^ bits := Nat.pow_right_comm ..
      _ ≤ (10 ^ q) ^ bits := Nat.pow_le_pow_left h bits
      _ = 10 ^ (q * bits) := (Nat.pow_mul ..).symm
  have hexponent := (Nat.pow_le_pow_iff_right (by decide : 1 < 10)).mp hpow
  rw [Nat.mul_comm _ p, Nat.mul_comm q] at hexponent
  omega

private theorem length_toDigits_le (n : Nat) :
    (Nat.toDigits 10 n).length ≤ bitLength n * 30103 / 100000 + 1 := by
  rw [Nat.length_toDigits_le_iff (by decide) (Nat.succ_pos _)]
  have hbits : n < 2 ^ bitLength n := by
    unfold bitLength
    split
    · next hzero =>
      rw [hzero]
      exact Nat.one_pos
    · exact Nat.lt_log2_self
  exact hbits.trans (two_pow_lt_ten_pow (by decide) (by decide +kernel) _)

private theorem fits_int (n : Int) :
    Fits (pointsOf ((if n < 0 then ['-'] else []) ++ Nat.toDigits 10 n.natAbs))
      (intWireBytes n) := by
  have hdigits := length_toDigits_le n.natAbs
  refine (fits_ascii (isAscii_iff.2 ?_)).mono ?_
  · intro c hc
    obtain hc | hc := List.mem_append.mp hc
    · split at hc
      · rw [List.mem_singleton.mp hc]
        decide
      · cases hc
    · have hdigit := Nat.isDigit_of_mem_toDigits (by decide) (by decide) hc
      simp only [Char.isDigit, ge_iff_le, Bool.and_eq_true, decide_eq_true_eq,
        UInt32.le_iff_toNat_le] at hdigit
      exact hdigit.2.trans (by decide)
  · rw [List.length_append]
    unfold intWireBytes
    by_cases hzero : n = 0
    · rw [hzero]
      decide
    · rw [if_neg hzero]
      split
      · rw [List.length_singleton]
        omega
      · rw [List.length_nil]
        omega

/-! ## Trees -/

mutual

/-- The integers of a tree. -/
def Tree.integers {F : Type} : Tree F → List Int
  | .scalar (.int n) => [n]
  | .scalar _ => []
  | .object members => integersOfMembers members
  | .array items => integersOfItems items

/-- The integers of the members of an object. -/
def integersOfMembers {F : Type} : List (PointText × Tree F) → List Int
  | [] => []
  | (_, value) :: rest => value.integers ++ integersOfMembers rest

/-- The integers of the items of an array. -/
def integersOfItems {F : Type} : List (Tree F) → List Int
  | [] => []
  | value :: rest => value.integers ++ integersOfItems rest

end

section Encodings

variable {F : Type} [FloatFormat F]

private theorem fits_scalarText {s : Scalar F} {cost : Nat} (hcost : scalarCost s = some cost)
    (hshort : ∀ n ∈ (Tree.scalar s).integers, IsShort n) :
    ∃ text, scalarText s = .ok text ∧ Fits text cost := by
  cases s with
  | none =>
    cases hcost
    exact ⟨_, rfl, fits_ascii (by decide)⟩
  | bool b =>
    cases b <;> cases hcost
    · exact ⟨_, rfl, fits_ascii (by decide)⟩
    · exact ⟨_, rfl, fits_ascii (by decide)⟩
  | str text => exact ⟨_, rfl, fits_encodeString hcost⟩
  | int n =>
    cases hcost
    refine ⟨_, ?_, fits_int n⟩
    rw [scalarText, if_pos (hshort n List.mem_cons_self)]
  | float x =>
    rw [scalarCost] at hcost
    split at hcost
    · next hfinite =>
      cases hcost
      exact ⟨_, if_pos hfinite, fits_ascii (isAscii_iff.2 (FloatFormat.repr_ascii x))⟩
    · cases hcost

private theorem short_of_scalarText {s : Scalar F} {text : PointText} (h : scalarText s = .ok text)
    :
    ∀ n ∈ (Tree.scalar s).integers, IsShort n := by
  cases s with
  | none | bool | str | float => exact nofun
  | int n =>
    rw [scalarText] at h
    split at h
    · next hshort =>
      intro m hm
      rw [List.mem_singleton.mp hm]
      exact hshort
    · cases h

omit [FloatFormat F] in
/-- The chunks of a value join to the buffer and the value. -/
theorem flatten_withBuffer (buffer : PointText) (value : Tree F) (here : List PointText) :
    (withBuffer buffer value here).flatten = buffer ++ here.flatten := by
  unfold withBuffer
  split
  · rw [List.flatten_singleton, List.flatten_singleton]
  · rfl

mutual

/-- The encoding of a tree of short integers exists and fits the bytes that are counted. -/
theorem fits_iterencode (tree : Tree F) {cost : Nat} (hcost : tree.cost = some cost)
    (hshort : ∀ n ∈ tree.integers, IsShort n) :
    ∃ chunks, iterencode tree = .ok chunks ∧ Fits chunks.flatten cost := by
  cases tree with
  | scalar s =>
    obtain ⟨text, htext, hfits⟩ := fits_scalarText hcost hshort
    refine ⟨[text], ?_, ?_⟩
    · rw [iterencode, htext]
      rfl
    · rwa [List.flatten_singleton]
  | object members =>
    rw [Tree.cost] at hcost
    obtain ⟨bytes, hbytes, hcost⟩ := Option.bind_eq_some_iff.mp hcost
    cases hcost
    obtain ⟨chunks, hchunks, hfits⟩ := fits_memberChunks members true hbytes hshort
    cases members with
    | nil =>
      have hempty : Fits (pointsOf ['{', '}']) 2 := fits_ascii (by decide)
      refine ⟨_, rfl, ?_⟩
      rw [List.flatten_singleton]
      exact hempty.mono (by omega)
    | cons member members =>
      refine ⟨_, by rw [iterencode, hchunks]; rfl, ?_⟩
      have hopen : Fits (pointsOf ['{']) 1 := fits_ascii (by decide)
      have hclose : Fits (pointsOf ['}']) 1 := fits_ascii (by decide)
      rw [List.flatten_append, List.flatten_append, List.flatten_singleton, List.flatten_singleton]
      refine ((hopen.append hfits).append hclose).mono ?_
      rw [List.length_cons, if_pos rfl]
      omega
  | array items =>
    rw [Tree.cost] at hcost
    obtain ⟨bytes, hbytes, hcost⟩ := Option.bind_eq_some_iff.mp hcost
    cases hcost
    have hopen : Fits (pointsOf ['[']) 1 := fits_ascii (by decide)
    have hclose : Fits (pointsOf [']']) 1 := fits_ascii (by decide)
    obtain ⟨chunks, hchunks, hfits⟩ := fits_itemChunks items hopen hbytes hshort
    cases items with
    | nil =>
      have hempty : Fits (pointsOf ['[', ']']) 2 := fits_ascii (by decide)
      refine ⟨_, rfl, ?_⟩
      rw [List.flatten_singleton]
      exact hempty.mono (by omega)
    | cons item items =>
      refine ⟨_, by rw [iterencode, hchunks]; rfl, ?_⟩
      rw [List.flatten_append, List.flatten_singleton]
      refine (hfits.append hclose).mono ?_
      rw [List.length_cons]
      omega

/-- Members with short integers are written within their cost. -/
theorem fits_memberChunks (members : List (PointText × Tree F)) (first : Bool) {cost : Nat}
    (hcost : membersCost members = some cost)
    (hshort : ∀ n ∈ integersOfMembers members, IsShort n) :
    ∃ chunks, memberChunks first members = .ok chunks ∧
      Fits chunks.flatten (cost + members.length +
        (if first then members.length - 1 else members.length)) := by
  cases members with
  | nil => exact ⟨[], rfl, fits_nil.mono (Nat.zero_le _)⟩
  | cons member members =>
    obtain ⟨key, value⟩ := member
    rw [membersCost] at hcost
    obtain ⟨keyBytes, hkey, hcost⟩ := Option.bind_eq_some_iff.mp hcost
    obtain ⟨bytes, hbytes, hcost⟩ := Option.bind_eq_some_iff.mp hcost
    obtain ⟨more, hmore, hcost⟩ := Option.bind_eq_some_iff.mp hcost
    cases hcost
    rw [integersOfMembers] at hshort
    obtain ⟨here, hhere, hfits⟩ :=
      fits_iterencode value hbytes fun n hn => hshort n (List.mem_append_left _ hn)
    obtain ⟨chunks, hchunks, hrest⟩ :=
      fits_memberChunks members false hmore fun n hn => hshort n (List.mem_append_right _ hn)
    refine ⟨_, by rw [memberChunks, hhere, hchunks]; rfl, ?_⟩
    have hcomma : Fits ((if first then [] else [pointsOf [',']] : List PointText).flatten)
        (if first then 0 else 1) := by
      cases first with
      | true => exact fits_nil
      | false =>
        have hone : Fits (pointsOf [',']) 1 := fits_ascii (by decide)
        exact hone
    have hcolon : Fits (pointsOf [':']) 1 := fits_ascii (by decide)
    have hlabel : Fits [encodeString key, pointsOf [':']].flatten (keyBytes + 1) := by
      rw [List.flatten_cons, List.flatten_singleton]
      exact (fits_encodeString hkey).append hcolon
    rw [List.flatten_append, List.flatten_append, List.flatten_append]
    refine (((hcomma.append hlabel).append hfits).append hrest).mono ?_
    rw [List.length_cons, if_neg Bool.false_ne_true]
    cases first with
    | true =>
      rw [if_pos rfl, if_pos rfl]
      omega
    | false =>
      rw [if_neg Bool.false_ne_true, if_neg Bool.false_ne_true]
      omega

/-- Items with short integers are written within their cost. -/
theorem fits_itemChunks (items : List (Tree F)) {buffer : PointText} (hbuffer : Fits buffer 1)
    {cost : Nat} (hcost : itemsCost items = some cost)
    (hshort : ∀ n ∈ integersOfItems items, IsShort n) :
    ∃ chunks, itemChunks buffer items = .ok chunks ∧
      Fits chunks.flatten (cost + items.length) := by
  cases items with
  | nil => exact ⟨[], rfl, fits_nil.mono (Nat.zero_le _)⟩
  | cons value items =>
    rw [itemsCost] at hcost
    obtain ⟨bytes, hbytes, hcost⟩ := Option.bind_eq_some_iff.mp hcost
    obtain ⟨more, hmore, hcost⟩ := Option.bind_eq_some_iff.mp hcost
    cases hcost
    rw [integersOfItems] at hshort
    obtain ⟨here, hhere, hfits⟩ :=
      fits_iterencode value hbytes fun n hn => hshort n (List.mem_append_left _ hn)
    have hcomma : Fits (pointsOf [',']) 1 := fits_ascii (by decide)
    obtain ⟨chunks, hchunks, hrest⟩ :=
      fits_itemChunks items hcomma hmore fun n hn => hshort n (List.mem_append_right _ hn)
    refine ⟨_, by rw [itemChunks, hhere, hchunks]; rfl, ?_⟩
    rw [List.flatten_append, flatten_withBuffer]
    refine ((hbuffer.append hfits).append hrest).mono ?_
    rw [List.length_cons]
    omega

end

mutual

/-- A tree is encoded only if all its integers are short. -/
theorem short_of_iterencode (tree : Tree F) {chunks : List PointText}
    (h : iterencode tree = .ok chunks) : ∀ n ∈ tree.integers, IsShort n := by
  cases tree with
  | scalar s =>
    rw [iterencode] at h
    obtain ⟨text, htext, -⟩ := except_bind_ok h
    exact short_of_scalarText htext
  | object members =>
    cases members with
    | nil => exact nofun
    | cons member members =>
      rw [iterencode] at h
      obtain ⟨more, hmore, -⟩ := except_bind_ok h
      exact short_of_memberChunks (member :: members) true hmore
  | array items =>
    cases items with
    | nil => exact nofun
    | cons item items =>
      rw [iterencode] at h
      obtain ⟨more, hmore, -⟩ := except_bind_ok h
      exact short_of_itemChunks (item :: items) hmore

/-- Members that are written have short integers. -/
theorem short_of_memberChunks (members : List (PointText × Tree F)) (first : Bool)
    {chunks : List PointText} (h : memberChunks first members = .ok chunks) :
    ∀ n ∈ integersOfMembers members, IsShort n := by
  cases members with
  | nil => exact nofun
  | cons member members =>
    obtain ⟨key, value⟩ := member
    rw [memberChunks] at h
    obtain ⟨here, hhere, h⟩ := except_bind_ok h
    obtain ⟨more, hmore, -⟩ := except_bind_ok h
    intro n hn
    obtain hn | hn := List.mem_append.mp hn
    · exact short_of_iterencode value hhere n hn
    · exact short_of_memberChunks members false hmore n hn

/-- Items that are written have short integers. -/
theorem short_of_itemChunks (items : List (Tree F)) {buffer : PointText}
    {chunks : List PointText} (h : itemChunks buffer items = .ok chunks) :
    ∀ n ∈ integersOfItems items, IsShort n := by
  cases items with
  | nil => exact nofun
  | cons value items =>
    rw [itemChunks] at h
    obtain ⟨here, hhere, h⟩ := except_bind_ok h
    obtain ⟨more, hmore, -⟩ := except_bind_ok h
    intro n hn
    obtain hn | hn := List.mem_append.mp hn
    · exact short_of_iterencode value hhere n hn
    · exact short_of_itemChunks items hmore n hn

end

end Encodings

end AwesomeAgent.McpAdapter
