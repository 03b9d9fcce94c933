import AwesomeAgent.Library.Json

/-!
# Reading the text of a JSON value

The text of a value whose objects repeat no key is read as that value. It has no control
character and starts like a value, so that it survives framing by lines.
-/

namespace AwesomeAgent

namespace Json

mutual

/-- No object in the value repeats a key. -/
def distinct : Json → Bool
  | .null => true
  | .bool _ => true
  | .number _ => true
  | .string _ => true
  | .array items => distinctItems items
  | .object members => decide ((members.map Prod.fst).Nodup) && distinctMembers members

/-- No object in the items repeats a key. -/
def distinctItems : List Json → Bool
  | [] => true
  | v :: items => distinct v && distinctItems items

/-- No object in the values of the members repeats a key. -/
def distinctMembers : List (List UInt16 × Json) → Bool
  | [] => true
  | (_, v) :: members => distinct v && distinctMembers members

end

/-- A text that does not continue a numeral. -/
def Follows (cs : List Char) : Prop := ∀ c ∈ cs.head?, isNumeralChar c = false

/-- The characters that start the text of a value. -/
def IsStart (c : Char) : Prop :=
  c ∈ ['n', 't', 'f', '"', '[', '{'] ∨ isNumeralChar c = true

section Starts

variable {c : Char} {close : Char} {n : Nat} {rest r : List Char}

private theorem isNumeralChar_ne {d : Char} (hd : isNumeralChar d = false)
    (hc : isNumeralChar c = true) : c ≠ d := by
  rintro rfl
  rw [hd] at hc
  cases hc

/-- A rendered value begins with no space. -/
theorem IsStart.not_space (h : IsStart c) : isJsonSpace c = false := by
  obtain h | h := h
  · have hall : ∀ c ∈ ['n', 't', 'f', '"', '[', '{'], isJsonSpace c = false :=
      forall_of_all (by decide)
    exact hall c h
  · have hall : ∀ d ∈ [' ', '\t', '\n', '\r'], isNumeralChar d = false := forall_of_all (by decide)
    refine decide_eq_false fun hmem => ?_
    rw [hall c hmem] at h
    cases h

private theorem IsStart.ne_close (h : IsStart c) : c ≠ ']' := by
  obtain h | h := h
  · rintro rfl
    revert h
    decide
  · exact isNumeralChar_ne (by decide) h

private theorem numeral_start (numeral : Numeral) :
    ∃ c rest, numeral.chars = c :: rest ∧ isNumeralChar c = true := by
  have hv := numeral.valid
  cases hchars : numeral.chars with
  | nil =>
    rw [hchars] at hv
    exact absurd hv (by decide)
  | cons c rest =>
    rw [hchars] at hv
    simp only [isNumeral, List.all_cons, Bool.and_eq_true] at hv
    exact ⟨c, rest, rfl, hv.1.1.1.1⟩

private theorem numeral_all (numeral : Numeral) :
    ∀ c ∈ numeral.chars, isNumeralChar c = true := by
  have hv := numeral.valid
  simp only [isNumeral, Bool.and_eq_true, List.all_eq_true] at hv
  exact hv.1.1.1

/-- A rendered value begins like one. -/
theorem render_start (v : Json) : ∃ c rest, render v = c :: rest ∧ IsStart c := by
  have hmem : ∀ c ∈ ['n', 't', 'f', '"', '[', '{'], IsStart c := fun c hc => .inl hc
  cases v with
  | null => exact ⟨_, _, rfl, hmem 'n' (by decide)⟩
  | bool b => cases b <;> exact ⟨_, _, rfl, hmem _ (by decide)⟩
  | number numeral =>
    obtain ⟨c, rest, hchars, hc⟩ := numeral_start numeral
    exact ⟨c, rest, hchars, .inr hc⟩
  | string units => exact ⟨_, _, rfl, hmem '"' (by decide)⟩
  | array items => cases items <;> exact ⟨_, _, rfl, hmem '[' (by decide)⟩
  | object members =>
    obtain _ | ⟨⟨key, v⟩, members⟩ := members <;> exact ⟨_, _, rfl, hmem '{' (by decide)⟩

private theorem skipSpace_cons (h : isJsonSpace c = false) :
    skipSpace (c :: rest) = c :: rest :=
  List.dropWhile_cons_of_neg (by simp [h])

private theorem emptyRest_close (h : isJsonSpace close = false) :
    emptyRest close (close :: rest) = some rest := by
  rw [emptyRest, skipSpace_cons h]
  dsimp only
  rw [if_pos rfl]

private theorem emptyRest_cons (h : isJsonSpace c = false) (hne : c ≠ close) :
    emptyRest close (c :: rest) = none := by
  rw [emptyRest, skipSpace_cons h]
  dsimp only
  rw [if_neg hne]

private theorem separator_more : separator close (',' :: rest) = some (true, rest) := by
  rw [separator, skipSpace_cons (by decide)]
  rfl

private theorem separator_close (h : isJsonSpace close = false) (hne : close ≠ ',') :
    separator close (close :: rest) = some (false, rest) := by
  rw [separator, skipSpace_cons h]
  dsimp only
  rw [if_neg hne, if_pos rfl]

private theorem quoted_append (key : List UInt16) (rest : List Char) :
    quoted key ++ rest = '"' :: (JsonText.render key ++ '"' :: rest) := by
  simp [quoted]

private theorem parseKey_quoted (key : List UInt16) (rest : List Char) :
    parseKey (quoted key ++ ':' :: rest) = some (key, rest) := by
  rw [quoted_append, parseKey, skipSpace_cons (by decide)]
  dsimp only
  rw [if_pos rfl, JsonText.parse_render, Option.bind_some, skipSpace_cons (by decide)]
  dsimp only
  rw [if_pos rfl]

private theorem literal_append (name : List Char) (v : Json) (rest : List Char) :
    literal name v (name ++ rest) = some (v, rest) := by
  rw [literal, if_pos (List.isPrefixOf_iff_prefix.mpr (List.prefix_append _ _)),
    List.drop_left]

private theorem parseNumber_append (numeral : Numeral) (hr : Follows r) :
    parseNumber (numeral.chars ++ r) = some (.number numeral, r) := by
  have htake : (numeral.chars ++ r).takeWhile isNumeralChar = numeral.chars := by
    rw [List.takeWhile_append_of_pos (numeral_all numeral)]
    cases r with
    | nil => simp
    | cons c rest => rw [List.takeWhile_cons_of_neg (by simp [hr c rfl]), List.append_nil]
  have hdrop : (numeral.chars ++ r).dropWhile isNumeralChar = r := by
    rw [List.dropWhile_append_of_pos (numeral_all numeral)]
    cases r with
    | nil => rfl
    | cons c rest => rw [List.dropWhile_cons_of_neg (by simp [hr c rfl])]
  unfold parseNumber
  simp only [htake, hdrop, numeral.valid, dite_true]

private theorem parseValue_cons (h : IsStart c) : parseValue (n + 1) (c :: rest) =
    if c = '"' then (JsonText.parse rest).map fun p => (.string p.1, p.2)
    else if c = '[' then
      match emptyRest ']' rest with
      | some rest => some (.array [], rest)
      | none => (parseItems n rest).map fun p => (.array p.1, p.2)
    else if c = '{' then
      match emptyRest '}' rest with
      | some rest => some (.object [], rest)
      | none => (parseMembers n rest).map fun p => (.object (collapse p.1), p.2)
    else if c = 'n' then literal ['n', 'u', 'l', 'l'] .null (c :: rest)
    else if c = 't' then literal ['t', 'r', 'u', 'e'] (.bool true) (c :: rest)
    else if c = 'f' then literal ['f', 'a', 'l', 's', 'e'] (.bool false) (c :: rest)
    else parseNumber (c :: rest) := by
  rw [parseValue, skipSpace_cons h.not_space] <;> rfl

end Starts

/-- What the reader does after an item. -/
def tailItems (n : Nat) (cs : List Char) : Option (List Json × List Char) :=
  (separator ']' cs).bind fun q => if q.1 then parseItems n q.2 else some ([], q.2)

/-- What the reader does after a member. -/
def tailMembers (n : Nat) (cs : List Char) : Option (List (List UInt16 × Json) × List Char) :=
  (separator '}' cs).bind fun q => if q.1 then parseMembers n q.2 else some ([], q.2)

private theorem parseItems_tail (n : Nat) (cs : List Char) : parseItems (n + 1) cs =
    (parseValue n cs).bind fun p => (tailItems n p.2).map fun r => (p.1 :: r.1, r.2) := by
  rw [parseItems]
  cases parseValue n cs with
  | none => rfl
  | some p =>
    simp only [Option.bind_some, tailItems]
    cases separator ']' p.2 with
    | none => rfl
    | some q => cases hq : q.1 <;> simp [hq]

private theorem parseMembers_tail (n : Nat) (cs : List Char) : parseMembers (n + 1) cs =
    (parseKey cs).bind fun k => (parseValue n k.2).bind fun p =>
      (tailMembers n p.2).map fun r => ((k.1, p.1) :: r.1, r.2) := by
  rw [parseMembers]
  cases parseKey cs with
  | none => rfl
  | some k =>
    simp only [Option.bind_some]
    cases parseValue n k.2 with
    | none => rfl
    | some p =>
      simp only [Option.bind_some, tailMembers]
      cases separator '}' p.2 with
      | none => rfl
      | some q => cases hq : q.1 <;> simp [hq]

variable {members : List (List UInt16 × Json)}

private theorem setMember_new {key : List UInt16} (h : key ∉ members.map Prod.fst) (v : Json) :
    setMember members key v = members ++ [(key, v)] := by
  induction members with
  | nil => rfl
  | cons m rest ih =>
    obtain ⟨k, w⟩ := m
    simp only [List.map_cons, List.mem_cons, not_or] at h
    rw [setMember, if_neg (Ne.symm h.1), ih h.2, List.cons_append]

private theorem collapse_of_nodup (h : (members.map Prod.fst).Nodup) : collapse members = members
    := by
  have hfold : ∀ (ms acc : List (List UInt16 × Json)), ((acc ++ ms).map Prod.fst).Nodup →
      ms.foldl (fun ms m => setMember ms m.1 m.2) acc = acc ++ ms := by
    intro ms
    induction ms with
    | nil => simp
    | cons m ms ih =>
      intro acc hacc
      have hnew : m.1 ∉ acc.map Prod.fst := by
        rw [List.map_append, List.nodup_append] at hacc
        exact fun hm => hacc.2.2 m.1 hm m.1 (by simp) rfl
      rw [List.foldl_cons, setMember_new hnew, ih _ (by simpa using hacc)]
      simp
  exact hfold members [] h

private theorem follows_cons {c : Char} {rest : List Char} (h : isNumeralChar c = false) :
    Follows (c :: rest) := by
  intro d hd
  cases hd
  exact h

private theorem follows_renderItems (items : List Json) (r : List Char) :
    Follows (renderItems items ++ r) := by
  cases items <;> exact follows_cons (by decide)

private theorem follows_renderMembers (members : List (List UInt16 × Json)) (r : List Char) :
    Follows (renderMembers members ++ r) := by
  obtain _ | ⟨⟨key, v⟩, members⟩ := members <;> exact follows_cons (by decide)

mutual

/-- With enough fuel the text of a value is read as the value. -/
theorem parseValue_render (v : Json) (hv : v.distinct = true) (n : Nat) (r : List Char)
    (hn : 2 * (render v).length + 1 ≤ n) (hr : Follows r) :
    parseValue n (render v ++ r) = some (v, r) := by
  obtain ⟨n, rfl⟩ : ∃ m, n = m + 1 := ⟨n - 1, by omega⟩
  match v with
  | .null =>
    exact (parseValue_cons (.inl (by decide))).trans (literal_append ['n', 'u', 'l', 'l'] _ r)
  | .bool true =>
    exact (parseValue_cons (.inl (by decide))).trans (literal_append ['t', 'r', 'u', 'e'] _ r)
  | .bool false =>
    exact (parseValue_cons (.inl (by decide))).trans
      (literal_append ['f', 'a', 'l', 's', 'e'] _ r)
  | .number numeral =>
    obtain ⟨c, rest, hchars, hc⟩ := numeral_start numeral
    have hnumber := parseNumber_append numeral hr
    rw [hchars, List.cons_append] at hnumber
    rw [render, hchars, List.cons_append, parseValue_cons (.inr hc)]
    rw [if_neg (isNumeralChar_ne (by decide) hc), if_neg (isNumeralChar_ne (by decide) hc),
      if_neg (isNumeralChar_ne (by decide) hc), if_neg (isNumeralChar_ne (by decide) hc),
      if_neg (isNumeralChar_ne (by decide) hc), if_neg (isNumeralChar_ne (by decide) hc), hnumber]
  | .string units =>
    rw [render, quoted_append, parseValue_cons (.inl (by decide)), if_pos rfl,
      JsonText.parse_render]
    rfl
  | .array [] =>
    have htext : render (.array []) ++ r = '[' :: ']' :: r := rfl
    rw [htext, parseValue_cons (.inl (by decide)), if_neg (by decide), if_pos rfl,
      emptyRest_close (by decide)]
  | .array (v :: items) =>
    simp only [distinct, distinctItems, Bool.and_eq_true] at hv
    simp only [render, List.length_cons, List.length_append] at hn
    obtain ⟨n, rfl⟩ : ∃ m, n = m + 1 := ⟨n - 1, by omega⟩
    obtain ⟨c, rest, hrender, hc⟩ := render_start v
    have hvalue := parseValue_render v hv.1 n (renderItems items ++ r) (by omega)
      (follows_renderItems items r)
    have hempty : emptyRest ']' (render v ++ (renderItems items ++ r)) = none := by
      rw [hrender, List.cons_append, emptyRest_cons hc.not_space hc.ne_close]
    rw [render, List.cons_append, List.cons_append, List.append_assoc,
      parseValue_cons (.inl (by decide)), if_neg (by decide), if_pos rfl, hempty]
    dsimp only
    rw [parseItems_tail, hvalue, Option.bind_some, tailItems_render items hv.2 n r (by omega)]
    rfl
  | .object [] =>
    have htext : render (.object []) ++ r = '{' :: '}' :: r := rfl
    rw [htext, parseValue_cons (.inl (by decide)), if_neg (by decide), if_neg (by decide),
      if_pos rfl, emptyRest_close (by decide)]
  | .object ((key, v) :: members) =>
    simp only [distinct, distinctMembers, Bool.and_eq_true, decide_eq_true_eq] at hv
    simp only [render, List.length_cons, List.length_append] at hn
    obtain ⟨n, rfl⟩ : ∃ m, n = m + 1 := ⟨n - 1, by omega⟩
    have hvalue := parseValue_render v hv.2.1 n (renderMembers members ++ r) (by omega)
      (follows_renderMembers members r)
    have hempty : emptyRest '}' (quoted key ++ ':' :: (render v ++ (renderMembers members ++ r))) =
        none := by
      rw [quoted_append, emptyRest_cons (by decide) (by decide)]
    have htext : render (.object ((key, v) :: members)) ++ r =
        '{' :: (quoted key ++ ':' :: (render v ++ (renderMembers members ++ r))) := by
      simp [render]
    rw [htext, parseValue_cons (.inl (by decide)), if_neg (by decide), if_neg (by decide),
      if_pos rfl, hempty]
    dsimp only
    rw [parseMembers_tail, parseKey_quoted, Option.bind_some, hvalue, Option.bind_some,
      tailMembers_render members hv.2.2 n r (by omega)]
    simp only [Option.map_some, collapse_of_nodup hv.1]

/-- The items of a rendered array are read back. -/
theorem tailItems_render (items : List Json) (hv : distinctItems items = true) (n : Nat)
    (r : List Char) (hn : 2 * (renderItems items).length ≤ n) :
    tailItems n (renderItems items ++ r) = some (items, r) := by
  match items with
  | [] =>
    rw [renderItems, List.singleton_append, tailItems, separator_close (by decide) (by decide)]
    rfl
  | v :: items =>
    simp only [distinctItems, Bool.and_eq_true] at hv
    simp only [renderItems, List.length_cons, List.length_append] at hn
    obtain ⟨n, rfl⟩ : ∃ m, n = m + 1 := ⟨n - 1, by omega⟩
    have hvalue := parseValue_render v hv.1 n (renderItems items ++ r) (by omega)
      (follows_renderItems items r)
    rw [renderItems, List.cons_append, List.cons_append, List.append_assoc, tailItems,
      separator_more, Option.bind_some, if_pos rfl, parseItems_tail, hvalue, Option.bind_some,
      tailItems_render items hv.2 n r (by omega)]
    rfl

/-- The members of a rendered object are read back. -/
theorem tailMembers_render (members : List (List UInt16 × Json))
    (hv : distinctMembers members = true) (n : Nat) (r : List Char)
    (hn : 2 * (renderMembers members).length ≤ n) :
    tailMembers n (renderMembers members ++ r) = some (members, r) := by
  match members with
  | [] =>
    rw [renderMembers, List.singleton_append, tailMembers,
      separator_close (by decide) (by decide)]
    rfl
  | (key, v) :: members =>
    simp only [distinctMembers, Bool.and_eq_true] at hv
    simp only [renderMembers, List.length_cons, List.length_append] at hn
    obtain ⟨n, rfl⟩ : ∃ m, n = m + 1 := ⟨n - 1, by omega⟩
    have hvalue := parseValue_render v hv.1 n (renderMembers members ++ r) (by omega)
      (follows_renderMembers members r)
    have htext : renderMembers ((key, v) :: members) ++ r =
        ',' :: (quoted key ++ ':' :: (render v ++ (renderMembers members ++ r))) := by
      simp [renderMembers]
    rw [htext, tailMembers, separator_more, Option.bind_some, if_pos rfl, parseMembers_tail,
      parseKey_quoted, Option.bind_some, hvalue, Option.bind_some,
      tailMembers_render members hv.2 n r (by omega)]
    rfl

end

/-- The members of an object are read as they are. -/
theorem parseMembers_render (key : List UInt16) {v : Json} (hv : v.distinct = true)
    (hmembers : distinctMembers members = true) (n : Nat)
    (r : List Char) (hn : 2 * ((render v).length + (renderMembers members).length) + 2 ≤ n) :
    parseMembers n (quoted key ++ ':' :: (render v ++ (renderMembers members ++ r))) =
      some ((key, v) :: members, r) := by
  obtain ⟨n, rfl⟩ : ∃ m, n = m + 1 := ⟨n - 1, by omega⟩
  have hvalue := parseValue_render v hv n (renderMembers members ++ r) (by omega)
    (follows_renderMembers members r)
  rw [parseMembers_tail, parseKey_quoted, Option.bind_some, hvalue, Option.bind_some,
    tailMembers_render members hmembers n r (by omega)]
  rfl

/-- An object with members is no empty object. -/
theorem emptyRest_quoted (key : List UInt16) (rest : List Char) :
    emptyRest '}' (quoted key ++ rest) = none := by
  rw [quoted, List.cons_append, List.cons_append, emptyRest_cons (by decide) (by decide)]

/-- The text of a value is read as the value. -/
theorem parse_render (v : Json) (hv : v.distinct = true) : parse (render v) = some v := by
  have h := parseValue_render v hv (2 * (render v).length + 1) [] (Nat.le_refl _) nofun
  rw [List.append_nil] at h
  rw [parse, h]
  rfl

private theorem le_toNat_quoted (units : List UInt16) : ∀ c ∈ quoted units, 0x20 ≤ c.toNat := by
  intro c hc
  simp only [quoted, List.mem_cons, List.mem_append, List.not_mem_nil, or_false] at hc
  obtain (rfl | hc) | rfl := hc
  · decide
  · exact JsonText.le_toNat_of_mem_render units c hc
  · decide

mutual

/-- The text of a value has no control character. -/
theorem le_toNat_render (v : Json) : ∀ c ∈ render v, 0x20 ≤ c.toNat := by
  match v with
  | .null => rw [render]; exact forall_of_all (by decide)
  | .bool true => rw [render]; exact forall_of_all (by decide)
  | .bool false => rw [render]; exact forall_of_all (by decide)
  | .number numeral =>
    intro c hc
    have hchar := numeral_all numeral c hc
    simp only [isNumeralChar, Char.isDigit, Bool.or_eq_true, Bool.and_eq_true,
      decide_eq_true_eq] at hchar
    obtain hdigit | hmem := hchar
    · have hle : (48 : UInt32).toNat ≤ c.val.toNat := hdigit.1
      change 0x20 ≤ c.val.toNat
      have h48 : (48 : UInt32).toNat = 48 := rfl
      omega
    · have hall : ∀ c ∈ ['+', '-', '.', 'e', 'E'], 0x20 ≤ c.toNat := forall_of_all (by decide)
      exact hall c hmem
  | .string units => exact le_toNat_quoted units
  | .array [] => rw [render]; exact forall_of_all (by decide)
  | .array (v :: items) =>
    rw [render]
    refine List.forall_mem_append.mpr ⟨List.forall_mem_cons.mpr ⟨by decide, le_toNat_render v⟩, ?_⟩
    exact le_toNat_renderItems items
  | .object [] => rw [render]; exact forall_of_all (by decide)
  | .object ((key, v) :: members) =>
    rw [render]
    refine List.forall_mem_append.mpr ⟨?_, le_toNat_renderMembers members⟩
    refine List.forall_mem_append.mpr
      ⟨List.forall_mem_cons.mpr ⟨by decide, le_toNat_quoted key⟩, ?_⟩
    exact List.forall_mem_cons.mpr ⟨by decide, le_toNat_render v⟩

/-- Rendered items have no control characters. -/
theorem le_toNat_renderItems (items : List Json) : ∀ c ∈ renderItems items, 0x20 ≤ c.toNat := by
  match items with
  | [] => rw [renderItems]; exact forall_of_all (by decide)
  | v :: items =>
    rw [renderItems]
    refine List.forall_mem_append.mpr ⟨List.forall_mem_cons.mpr ⟨by decide, le_toNat_render v⟩, ?_⟩
    exact le_toNat_renderItems items

/-- Rendered members have no control characters. -/
theorem le_toNat_renderMembers (members : List (List UInt16 × Json)) :
    ∀ c ∈ renderMembers members, 0x20 ≤ c.toNat := by
  match members with
  | [] => rw [renderMembers]; exact forall_of_all (by decide)
  | (key, v) :: members =>
    rw [renderMembers]
    refine List.forall_mem_append.mpr ⟨?_, le_toNat_renderMembers members⟩
    refine List.forall_mem_append.mpr
      ⟨List.forall_mem_cons.mpr ⟨by decide, le_toNat_quoted key⟩, ?_⟩
    exact List.forall_mem_cons.mpr ⟨by decide, le_toNat_render v⟩

end

end Json

end AwesomeAgent
