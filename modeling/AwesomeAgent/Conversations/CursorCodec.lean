import AwesomeAgent.Conversations.Pagination
import AwesomeAgent.Library.FaultySteps
import AwesomeAgent.Library.JsonRoundTrip

/-!
# Cursors are read back

Reading a cursor gives back the position that was written.
-/

namespace AwesomeAgent.Pagination

variable {fields : List (Text × Text)} {value : Text}

/-! ## Texts and code units -/

private theorem toNat_unit {n : Nat} (h : n < 65536) : (UInt16.ofNat n).toNat = n :=
  UInt16.toNat_ofNat_of_lt h

variable {c : Char} {text threadId : Text} {t : Timestamp}

private theorem pairChar_unitsOf (h : ¬c.toNat < 0x10000) :
    ∃ u v, JsonText.unitsOf c = [u, v] ∧ JsonText.isHigh u = true ∧ JsonText.isLow v = true ∧
      JsonText.pairChar u v = c := by
  have hlt : c.toNat < 1114112 := by
    obtain h | h := c.valid
    · exact (show c.toNat < 55296 from h).trans (by decide)
    · exact h.2
  refine ⟨_, _, if_neg h, ?_, ?_, ?_⟩
  · rw [JsonText.isHigh, toNat_unit (by omega)]
    exact decide_eq_true (by omega)
  · rw [JsonText.isLow, toNat_unit (by omega)]
    exact decide_eq_true (by omega)
  · rw [JsonText.pairChar, toNat_unit (by omega), toNat_unit (by omega),
      show 0x10000 + (0xD800 + (c.toNat - 0x10000) / 1024 - 0xD800) * 1024 +
        (0xDC00 + (c.toNat - 0x10000) % 1024 - 0xDC00) = c.toNat by omega]
    exact Char.ofNat_toNat c

private theorem single_unitsOf (h : c.toNat < 0x10000) :
    ∃ u, JsonText.unitsOf c = [u] ∧ JsonText.isHigh u = false ∧ JsonText.isLow u = false ∧
      Char.ofNat u.toNat = c := by
  have hvalid : c.toNat < 55296 ∨ 57343 < c.toNat ∧ c.toNat < 1114112 := c.valid
  refine ⟨_, if_pos h, ?_, ?_, ?_⟩
  · rw [JsonText.isHigh, toNat_unit h]
    exact decide_eq_false (by omega)
  · rw [JsonText.isLow, toNat_unit h]
    exact decide_eq_false (by omega)
  · rw [toNat_unit h]
    exact Char.ofNat_toNat c

private theorem textOfUnits_unitsOfText (text : Text) : textOfUnits (unitsOfText text) = some text
    := by
  unfold unitsOfText
  induction text with
  | nil => rfl
  | cons c text ih =>
    rw [List.flatMap_cons]
    by_cases h : c.toNat < 0x10000
    · obtain ⟨u, hunits, hhigh, hlow, hback⟩ := single_unitsOf h
      rw [hunits, List.singleton_append]
      cases hrest : text.flatMap JsonText.unitsOf with
      | nil =>
        rw [hrest] at ih
        cases ih
        rw [textOfUnits, hhigh, hlow, hback]
        rfl
      | cons v rest =>
        rw [hrest] at ih
        rw [textOfUnits, hhigh, hlow, ih, hback]
        rfl
    · obtain ⟨u, v, hunits, hhigh, hlow, hback⟩ := pairChar_unitsOf h
      rw [hunits, List.cons_append, List.singleton_append, textOfUnits, hhigh, hlow, ih, hback]
      rfl

/-! ## Payloads -/

private theorem distinctMembers_texts (fields : List (Text × Text)) :
    Json.distinctMembers (fields.map fun field =>
      (unitsOfText field.1, .string (unitsOfText field.2))) = true := by
  induction fields with
  | nil => rfl
  | cons field fields ih =>
    rw [List.map_cons, Json.distinctMembers, ih]
    rfl

/-- The members of a payload. -/
def members (fields : List (Text × Text)) : List (List UInt16 × Json) :=
  fields.map fun field => (unitsOfText field.1, .string (unitsOfText field.2))

private theorem map_fst_members (fields : List (Text × Text)) :
    (members fields).map Prod.fst = (fields.map Prod.fst).map unitsOfText := by
  rw [members, List.map_map, List.map_map]
  rfl

private theorem strictObject_render (hne : fields ≠ [])
    (hkeys : ((members fields).map Prod.fst).Nodup) :
    strictObject (jsonObject fields).render = some (members fields) := by
  cases fields with
  | nil => exact absurd rfl hne
  | cons field fields =>
    have htext : (jsonObject (field :: fields)).render =
        '{' :: (quoted (unitsOfText field.1) ++ ':' ::
          ((Json.string (unitsOfText field.2)).render ++
            (Json.renderMembers (members fields) ++ []))) := by
      simp [jsonObject, members, Json.render]
    have hlen := congrArg List.length htext
    simp only [List.length_cons, List.length_append, List.length_nil] at hlen
    have hparse := Json.parseMembers_render (unitsOfText field.1)
      (v := .string (unitsOfText field.2)) rfl (distinctMembers_texts fields)
      (2 * (jsonObject (field :: fields)).render.length) [] (by
        change 2 * (_ + (Json.renderMembers (members fields)).length) + 2 ≤ _
        omega)
    change Json.parseMembers _ (quoted _ ++ ':' :: (_ ++ (Json.renderMembers (members fields) ++
      []))) = _ at hparse
    have hskip (rest : Text) : Json.skipSpace ('{' :: rest) = '{' :: rest := by
      rw [Json.skipSpace, List.dropWhile_cons_of_neg (by decide)]
    rw [strictObject, htext, hskip]
    dsimp only
    rw [if_neg (fun h => h rfl), Json.emptyRest_quoted, ← htext]
    dsimp only
    rw [hparse, Option.bind_some, if_pos ⟨rfl, hkeys⟩]
    rfl

private theorem decodePayload_encodePayload (hne : fields ≠ [])
    (hkeys : ((members fields).map Prod.fst).Nodup) (h : encodePayload fields = .ok value) :
    decodePayload value = .ok (members fields) := by
  unfold encodePayload at h
  dsimp only at h
  split at h
  · cases h
  next hlen =>
  cases h
  have hpositive : Base64.encode (encodeUtf8 (jsonObject fields).render) ≠ [] := by
    intro hnil
    have hread := Base64.decode_encode (encodeUtf8 (jsonObject fields).render)
    rw [hnil] at hread
    have hempty : encodeUtf8 (jsonObject fields).render = [] := (Option.some.inj hread).symm
    have htext := decodeUtf8_encodeUtf8 (jsonObject fields).render
    rw [hempty] at htext
    have hstrict := strictObject_render hne hkeys
    rw [← Option.some.inj htext] at hstrict
    cases hstrict
  have hvalid : ¬(Base64.encode (encodeUtf8 (jsonObject fields).render) = [] ∨
      maxCursorLength < (Base64.encode (encodeUtf8 (jsonObject fields).render)).length ∨
      ((Base64.encode (encodeUtf8 (jsonObject fields).render)).all
        fun c => decide (c ∈ Base64.alphabet)) = false) := by
    refine not_or.mpr ⟨hpositive, not_or.mpr ⟨hlen, ?_⟩⟩
    rw [Bool.not_eq_false, List.all_eq_true]
    exact fun c hc => decide_eq_true (Base64.mem_encode hc)
  rw [decodePayload, if_neg hvalid, Base64.decode_encode, Option.bind_some,
    decodeUtf8_encodeUtf8, Option.bind_some, strictObject_render hne hkeys]

/-! ## Positions -/

section Positions

variable {cursor : Timestamp × Text} {workspaceKey query : Text}

private theorem checkPosition_ok (h : checkPosition cursor = .ok ()) :
    cursor.1.offset ≠ none ∧ ¬(cursor.2 = [] ∨ 128 < cursor.2.length) := by
  unfold checkPosition at h
  split at h
  · cases h
  · next hoffset =>
    split at h
    · cases h
    · next hid => exact ⟨hoffset, hid⟩

private theorem textField_first (name text : Text) (rest : List (Text × Text)) :
    textField (members ((name, text) :: rest)) name = some text := by
  have hfind : (members ((name, text) :: rest)).find? (fun field => field.1 = unitsOfText name) =
      some (unitsOfText name, .string (unitsOfText text)) := by
    rw [members, List.map_cons, List.find?_cons_of_pos]
    exact decide_eq_true rfl
  rw [textField, hfind]
  exact textOfUnits_unitsOfText text

private theorem textField_later {name other : Text} (h : unitsOfText other ≠ unitsOfText name)
    (text : Text) (rest : List (Text × Text)) :
    textField (members ((other, text) :: rest)) name = textField (members rest) name := by
  have hfind : (members ((other, text) :: rest)).find? (fun field => field.1 = unitsOfText name) =
      (members rest).find? fun field => field.1 = unitsOfText name := by
    rw [members, List.map_cons, List.find?_cons_of_neg, members]
    exact fun hbad => h (of_decide_eq_true hbad)
  rw [textField, hfind, textField]

private theorem hasFields_members (fields : List (Text × Text)) :
    hasFields (members fields) (fields.map Prod.fst) = true := by
  rw [hasFields, Bool.and_eq_true, decide_eq_true_eq, decide_eq_true_eq, ← map_fst_members]
  exact ⟨fun field hfield => List.mem_map_of_mem hfield, fun _ h => h⟩

/-- What follows a value is applied to it. -/
theorem ok_bind {α β : Type} (a : α) (f : α → Except String β) :
    (Except.ok a >>= f) = f a := rfl

section Lists

variable [IsoParser]

private theorem readPosition_time (threadId : Text) (t : Timestamp) :
    readPosition threadId (time t) = .ok (t.astimezone, threadId) := by
  rw [readPosition, time, IsoParser.fromisoformat_isoformat]
  rfl

/-- A cursor of a list is read as the position that it was built from. -/
theorem decode_encodeThreadCursor (h : encodeThreadCursor cursor = .ok value) :
    decodeThreadCursor value = .ok (cursor.1.astimezone, cursor.2) := by
  obtain ⟨_, hcheck, hencode⟩ := except_bind_ok h
  obtain ⟨-, hid⟩ := checkPosition_ok hcheck
  have hkeys : ([threadIdField, updatedAtField].map unitsOfText).Nodup := by decide
  have hpayload := decodePayload_encodePayload (List.cons_ne_nil _ _)
    ((map_fst_members _).symm ▸ hkeys) hencode
  have hfields : hasFields (members [(threadIdField, cursor.2), (updatedAtField, time cursor.1)])
      [threadIdField, updatedAtField] = true := hasFields_members _
  unfold decodeThreadCursor
  rw [hpayload, ok_bind, hfields, Bool.not_true, if_neg Bool.false_ne_true, textField_first,
    textField_later (by decide), textField_first]
  dsimp only
  rw [if_neg hid, readPosition_time]

end Lists

variable [HexDigest]

private theorem threadSearchScope_ok {scope : Text}
    (h : threadSearchScope workspaceKey query = .ok scope) : isHexDigest scope = true := by
  unfold threadSearchScope at h
  split at h
  · cases h
  split at h
  · cases h
  · cases h
    exact HexDigest.isHexDigest_sha256 _

variable [IsoParser]

/-- A cursor of a search is read as the position that it was built from. -/
theorem decode_encodeThreadSearchCursor
    (h : encodeThreadSearchCursor cursor workspaceKey query = .ok value) :
    decodeThreadSearchCursor value workspaceKey query =
      .ok (cursor.1.astimezone, cursor.2) := by
  obtain ⟨_, hcheck, hscoped⟩ := except_bind_ok h
  obtain ⟨scope, hscope, hencode⟩ := except_bind_ok hscoped
  obtain ⟨-, hid⟩ := checkPosition_ok hcheck
  have hkeys : ([scopeHashField, threadIdField, updatedAtField].map unitsOfText).Nodup := by decide
  have hpayload := decodePayload_encodePayload (List.cons_ne_nil _ _)
    ((map_fst_members _).symm ▸ hkeys) hencode
  have hfields : hasFields (members [(scopeHashField, scope), (threadIdField, cursor.2),
      (updatedAtField, time cursor.1)]) [scopeHashField, threadIdField, updatedAtField] = true :=
    hasFields_members _
  have hvalues : ¬((!isHexDigest scope) = true ∨ cursor.2 = [] ∨ 128 < cursor.2.length) := by
    rw [threadSearchScope_ok hscope]
    exact not_or.mpr ⟨Bool.false_ne_true, hid⟩
  unfold decodeThreadSearchCursor
  rw [hpayload, ok_bind, hfields, Bool.not_true, if_neg Bool.false_ne_true, textField_first,
    textField_later (by decide), textField_first, textField_later (by decide),
    textField_later (by decide), textField_first]
  dsimp only
  rw [if_neg hvalues, hscope, ok_bind, if_neg (fun h => h rfl), readPosition_time]

end Positions

/-! ## Cursors are short enough -/

/-- Bytes that suffice for a character of a string. -/
def charBytes (c : Char) : Nat := if c.toNat < 0x80 then 2 else 4

private theorem length_encodeUtf8_char (c : Char) :
    (encodeUtf8 [c]).length = c.utf8Size := by
  rw [encodeUtf8, List.flatMap_singleton, String.length_utf8EncodeChar]

private theorem length_renderUnit (hsingle : c.toNat < 0x10000) (hprintable : 0x20 ≤ c.toNat) :
    (encodeUtf8 (JsonText.renderUnit (UInt16.ofNat c.toNat))).length ≤ charBytes c := by
  unfold JsonText.renderUnit
  split
  · next e he =>
    obtain ⟨before, after, hsplit, -⟩ := List.lookup_eq_some_iff.mp he
    have hmem : (UInt16.ofNat c.toNat, e) ∈ JsonText.shortEscapes := by
      rw [hsplit]
      exact List.mem_append_right _ List.mem_cons_self
    have hshort : ∀ p ∈ JsonText.shortEscapes, (encodeUtf8 ['\\', p.2]).length = 2 := by
      decide
    have htwo := hshort _ hmem
    dsimp only at htwo
    rw [htwo, charBytes]
    split <;> omega
  · obtain ⟨u, hunits, hhigh, hlow, hback⟩ := single_unitsOf hsingle
    obtain rfl : UInt16.ofNat c.toNat = u := by
      rw [JsonText.unitsOf, if_pos hsingle] at hunits
      exact (List.cons.inj hunits).1
    have hplain : ¬(c.toNat < 0x20 ∨ false = true ∨ false = true) := by
      simp only [Bool.false_eq_true, or_false]
      omega
    rw [hhigh, hlow, hback, toNat_unit hsingle, if_neg hplain, length_encodeUtf8_char, charBytes]
    split
    · next hascii =>
      have hone : c.utf8Size = 1 := Char.utf8Size_eq_one_iff.mpr (by
        rw [UInt32.le_iff_toNat_le]
        exact Nat.le_of_lt_succ hascii)
      omega
    · exact c.utf8Size_le_four

private theorem render_cons {u : UInt16} (h : JsonText.isHigh u = false) (rest : List UInt16) :
    JsonText.render (u :: rest) = JsonText.renderUnit u ++ JsonText.render rest := by
  cases rest with
  | nil => simp only [JsonText.render, List.append_nil]
  | cons v rest => rw [JsonText.render, h, if_neg (fun hpair => Bool.false_ne_true hpair.1)]

private theorem length_render_le (h : ∀ c ∈ text, 0x20 ≤ c.toNat) :
    (encodeUtf8 (JsonText.render (unitsOfText text))).length ≤ (text.map charBytes).sum := by
  unfold unitsOfText
  induction text with
  | nil => exact Nat.le_refl 0
  | cons c text ih =>
    obtain ⟨hprintable, hrest⟩ := List.forall_mem_cons.mp h
    have hih := ih hrest
    rw [List.flatMap_cons, List.map_cons, List.sum_cons]
    by_cases hsingle : c.toNat < 0x10000
    · obtain ⟨u, hunits, hhigh, -, -⟩ := single_unitsOf hsingle
      have hchar := length_renderUnit hsingle hprintable
      obtain rfl : UInt16.ofNat c.toNat = u := by
        rw [JsonText.unitsOf, if_pos hsingle] at hunits
        exact (List.cons.inj hunits).1
      rw [hunits, List.singleton_append, render_cons hhigh, encodeUtf8_append, List.length_append]
      omega
    · obtain ⟨u, v, hunits, hhigh, hlow, hback⟩ := pairChar_unitsOf hsingle
      have hsize := c.utf8Size_le_four
      rw [hunits, List.cons_append, List.singleton_append, JsonText.render, if_pos ⟨hhigh, hlow⟩,
        hback, ← List.singleton_append, encodeUtf8_append, List.length_append,
        length_encodeUtf8_char, charBytes, if_neg (by omega)]
      omega

private theorem sum_charBytes_le (text : Text) : (text.map charBytes).sum ≤ 4 * text.length := by
  induction text with
  | nil => exact Nat.le_refl 0
  | cons c text ih =>
    rw [List.map_cons, List.sum_cons, List.length_cons, charBytes]
    split <;> omega

private theorem sum_charBytes_ascii (h : ∀ c ∈ text, c.toNat < 0x80) :
    (text.map charBytes).sum = 2 * text.length := by
  induction text with
  | nil => rfl
  | cons c text ih =>
    obtain ⟨hascii, hrest⟩ := List.forall_mem_cons.mp h
    rw [List.map_cons, List.sum_cons, List.length_cons, charBytes, if_pos hascii, ih hrest]
    omega

/-- The bytes of a field, with its quotes, its colon and the mark before it. -/
def fieldBytes (field : Text × Text) : Nat :=
  (encodeUtf8 (quoted (unitsOfText field.1))).length +
    (encodeUtf8 (quoted (unitsOfText field.2))).length + 2

private theorem length_cons_ascii (h : c.utf8Size = 1) (text : Text) :
    (encodeUtf8 (c :: text)).length = (encodeUtf8 text).length + 1 := by
  rw [← List.singleton_append, encodeUtf8_append, List.length_append, length_encodeUtf8_char, h,
    Nat.add_comm]

private theorem length_renderMembers (fields : List (Text × Text)) :
    (encodeUtf8 (Json.renderMembers (members fields))).length =
      (fields.map fieldBytes).sum + 1 := by
  induction fields with
  | nil => rfl
  | cons field fields ih =>
    change (encodeUtf8 (',' :: quoted _ ++ ':' :: quoted _ ++
      Json.renderMembers (members fields))).length = _
    rw [List.cons_append, List.cons_append, List.append_assoc, length_cons_ascii rfl,
      encodeUtf8_append, List.cons_append, List.length_append, length_cons_ascii rfl,
      encodeUtf8_append, List.length_append, ih, List.map_cons, List.sum_cons, fieldBytes]
    omega

private theorem length_jsonObject (hne : fields ≠ []) :
    (encodeUtf8 (jsonObject fields).render).length = (fields.map fieldBytes).sum + 1 := by
  cases fields with
  | nil => exact absurd rfl hne
  | cons field fields =>
    -- The brace stands where another member has its comma.
    rw [← length_renderMembers]
    change (encodeUtf8 ('{' :: (quoted _ ++ ':' :: quoted _ ++
      Json.renderMembers (members fields)))).length = (encodeUtf8 (',' :: (quoted _ ++ ':' ::
        quoted _ ++ Json.renderMembers (members fields)))).length
    rw [length_cons_ascii rfl, length_cons_ascii rfl]

private theorem length_quoted_le (h : ∀ c ∈ text, 0x20 ≤ c.toNat) :
    (encodeUtf8 (quoted (unitsOfText text))).length ≤ (text.map charBytes).sum + 2 := by
  have hrender := length_render_le h
  rw [quoted, List.cons_append, length_cons_ascii rfl, encodeUtf8_append, List.length_append,
    show (encodeUtf8 ['"']).length = 1 from rfl]
  omega

/-- A printable identifier of at most 128 characters. -/
def IsIdentifier (threadId : Text) : Prop :=
  threadId ≠ [] ∧ threadId.length ≤ 128 ∧ ∀ c ∈ threadId, 0x20 ≤ c.toNat

private theorem fieldBytes_threadId (h : IsIdentifier threadId) :
    fieldBytes (threadIdField, threadId) ≤ 527 := by
  have hquoted := length_quoted_le h.2.2
  have hsum := sum_charBytes_le threadId
  have hlen := h.2.1
  have hname : (encodeUtf8 (quoted (unitsOfText threadIdField))).length = 11 := by decide
  rw [fieldBytes, hname]
  dsimp only
  omega

private theorem fieldBytes_ascii {name : Text} {size : Nat}
    (hname : (encodeUtf8 (quoted (unitsOfText name))).length = 12)
    (h : ∀ c ∈ text, 0x20 ≤ c.toNat ∧ c.toNat < 0x80) (hlen : text.length ≤ size) :
    fieldBytes (name, text) ≤ 2 * size + 16 := by
  have hquoted := length_quoted_le fun c hc => (h c hc).1
  have hsum := sum_charBytes_ascii fun c hc => (h c hc).2
  rw [fieldBytes, hname]
  dsimp only
  omega

private theorem fieldBytes_updatedAt (t : Timestamp) : fieldBytes (updatedAtField, time t) ≤ 80 :=
  fieldBytes_ascii (by decide) (fun _ hc => Datetime.ascii_isoformat hc)
    (Datetime.length_isoformat_le t.utc)

private theorem encodePayload_ok (hne : fields ≠ []) (h : (fields.map fieldBytes).sum ≤ 767) :
    ∃ value, encodePayload fields = .ok value := by
  refine ⟨_, if_neg ?_⟩
  rw [Base64.length_encode, length_jsonObject hne, maxCursorLength]
  omega

private theorem checkPosition_identifier (ht : t.offset ≠ none)
    (h : IsIdentifier threadId) : checkPosition (t, threadId) = .ok () := by
  rw [checkPosition, if_neg ht, if_neg (not_or.mpr ⟨h.1, Nat.not_lt.mpr h.2.1⟩)]

/-- A position can be written for a list. -/
theorem encodeThreadCursor_ok (ht : t.offset ≠ none)
    (h : IsIdentifier threadId) : ∃ value, encodeThreadCursor (t, threadId) = .ok value := by
  have hthread := fieldBytes_threadId h
  have htime := fieldBytes_updatedAt t
  have hbytes :
      ([(threadIdField, threadId), (updatedAtField, time t)].map fieldBytes).sum ≤ 767 := by
    simp only [List.map_cons, List.map_nil, List.sum_cons, List.sum_nil]
    omega
  obtain ⟨value, hvalue⟩ := encodePayload_ok (List.cons_ne_nil _ _) hbytes
  refine ⟨value, ?_⟩
  rw [encodeThreadCursor, checkPosition_identifier ht h]
  exact hvalue

private theorem ascii_hexDigest (h : isHexDigest text = true) :
    text.length = 64 ∧ ∀ c ∈ text, 0x20 ≤ c.toNat ∧ c.toNat < 0x80 := by
  rw [isHexDigest, Bool.and_eq_true, decide_eq_true_eq, List.all_eq_true] at h
  refine ⟨h.1, fun c hc => ?_⟩
  obtain hdigit | hletter := Bool.or_eq_true _ _ ▸ h.2 c hc
  · rw [Char.isDigit, Bool.and_eq_true, decide_eq_true_eq, decide_eq_true_eq] at hdigit
    have hlow : 48 ≤ c.toNat := hdigit.1
    have hhigh : c.toNat ≤ 57 := hdigit.2
    omega
  · rw [Bool.and_eq_true, decide_eq_true_eq, decide_eq_true_eq] at hletter
    have hlow : 97 ≤ c.toNat := hletter.1
    have hhigh : c.toNat ≤ 102 := hletter.2
    omega

variable [HexDigest] {workspaceKey query : Text}

/-- A position can be written for a search. -/
theorem encodeThreadSearchCursor_ok {scope : Text} (ht : t.offset ≠ none)
    (h : IsIdentifier threadId) (hscope : threadSearchScope workspaceKey query = .ok scope) :
    ∃ value, encodeThreadSearchCursor (t, threadId) workspaceKey query = .ok value := by
  have hthread := fieldBytes_threadId h
  have htime := fieldBytes_updatedAt t
  obtain ⟨hlen, hascii⟩ := ascii_hexDigest (threadSearchScope_ok hscope)
  have hdigest : fieldBytes (scopeHashField, scope) ≤ 144 :=
    fieldBytes_ascii (by decide) hascii hlen.le
  have hbytes : ([(scopeHashField, scope), (threadIdField, threadId),
      (updatedAtField, time t)].map fieldBytes).sum ≤ 767 := by
    simp only [List.map_cons, List.map_nil, List.sum_cons, List.sum_nil]
    omega
  obtain ⟨value, hvalue⟩ := encodePayload_ok (List.cons_ne_nil _ _) hbytes
  refine ⟨value, ?_⟩
  rw [encodeThreadSearchCursor, checkPosition_identifier ht h, ok_bind, hscope]
  exact hvalue

end AwesomeAgent.Pagination
