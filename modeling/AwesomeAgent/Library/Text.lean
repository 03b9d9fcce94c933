import AwesomeAgent.Library.Content
import Mathlib.Data.List.DropRight

/-!
# Unicode text

Text is a list of characters. Strict UTF-8 decoding inverts encoding; lines end at every
boundary character of Unicode and keep their ends.
-/

namespace AwesomeAgent

/-- Text as a list of characters. -/
abbrev Text := List Char

/-- A multi-byte character under way: continuation bytes to come, bits so far, least code. -/
structure PartialChar where
  remaining : Nat
  code : Nat
  least : Nat

/-- What the first byte of a multi-byte character announces. -/
def leadByte (b : UInt8) : Option PartialChar :=
  if 0xC2 ≤ b ∧ b < 0xE0 then some ⟨0, b.toNat - 0xC0, 0x80⟩
  else if 0xE0 ≤ b ∧ b < 0xF0 then some ⟨1, b.toNat - 0xE0, 0x800⟩
  else if 0xF0 ≤ b ∧ b < 0xF5 then some ⟨2, b.toNat - 0xF0, 0x10000⟩
  else none

/-- Strict UTF-8 decoding, in the middle of a character or between two. -/
def decodeFrom : Option PartialChar → Bytes → Option Text
  | none, [] => some []
  | some _, [] => none
  | none, b :: rest =>
      if b < 0x80 then (decodeFrom none rest).map (Char.ofNat b.toNat :: ·)
      else
        match leadByte b with
        | none => none
        | some c => decodeFrom (some c) rest
  | some c, b :: rest =>
      let code := c.code * 64 + (b.toNat - 0x80)
      if ¬(0x80 ≤ b ∧ b < 0xC0) then none
      else if c.remaining ≠ 0 then decodeFrom (some ⟨c.remaining - 1, code, c.least⟩) rest
      else if c.least ≤ code ∧ code.isValidChar then
        (decodeFrom none rest).map (Char.ofNat code :: ·)
      else none

/-- Strict UTF-8 decoding. -/
def decodeUtf8 (content : Bytes) : Option Text := decodeFrom none content

/-- UTF-8 encoding. -/
def encodeUtf8 (text : Text) : Bytes := text.flatMap String.utf8EncodeChar

/-- Characters that end a line. -/
def isLineBoundary (c : Char) : Bool :=
  [0x0A, 0x0B, 0x0C, 0x0D, 0x1C, 0x1D, 0x1E, 0x85, 0x2028, 0x2029].contains c.toNat

/-- Characters that stripping removes. -/
def isSpace (c : Char) : Bool :=
  isLineBoundary c || [0x09, 0x1F, 0x20, 0xA0, 0x1680, 0x202F, 0x205F, 0x3000].contains c.toNat ||
    decide (0x2000 ≤ c.toNat ∧ c.toNat ≤ 0x200A)

/-- Split text into lines that keep their ends. -/
def splitLines : Text → List Text
  | [] => []
  | '\r' :: '\n' :: rest => ['\r', '\n'] :: splitLines rest
  | c :: rest =>
      if isLineBoundary c then [c] :: splitLines rest
      else
        match splitLines rest with
        | [] => [[c]]
        | line :: lines => (c :: line) :: lines

/-- The lines of a text without their ends. -/
def splitlines (text : Text) : List Text :=
  (splitLines text).map fun line => line.takeWhile fun c => !isLineBoundary c

/-- A text with newlines only at the ends of its lines. -/
def normalizeNewlines : Text → Text
  | [] => []
  | '\r' :: '\n' :: rest => '\n' :: normalizeNewlines rest
  | c :: rest => (if c = '\r' then '\n' else c) :: normalizeNewlines rest

/-- Lines joined by newlines. -/
def joinLines (lines : List Text) : Text := ['\n'].intercalate lines

/-- The characters of the lines stay when the lines are joined. -/
theorem mem_intercalate_of_mem {s c : Char} {line : Text} {lines : List Text}
    (hline : line ∈ lines) (hc : c ∈ line) : c ∈ [s].intercalate lines := by
  induction lines with
  | nil => cases hline
  | cons first lines ih =>
    cases lines with
    | nil =>
      rw [List.mem_singleton.mp hline] at hc
      rwa [List.intercalate_singleton]
    | cons second lines =>
      rw [List.intercalate_cons_cons]
      obtain rfl | hline := List.mem_cons.mp hline
      · exact List.mem_append_left _ (List.mem_append_left _ hc)
      · exact List.mem_append_right _ (ih hline)

/-- A joined text holds only what its parts hold and what joins them. -/
theorem mem_intercalate {s c : Char} {lines : List Text}
    (h : c ∈ [s].intercalate lines) : c = s ∨ ∃ line ∈ lines, c ∈ line := by
  induction lines with
  | nil => cases h
  | cons line lines ih =>
    cases lines with
    | nil =>
      rw [List.intercalate_singleton] at h
      exact .inr ⟨line, List.mem_cons_self, h⟩
    | cons second more =>
      rw [List.intercalate_cons_cons, List.append_assoc, List.mem_append, List.mem_append,
        List.mem_singleton] at h
      obtain h | h | h := h
      · exact .inr ⟨line, List.mem_cons_self, h⟩
      · exact .inl h
      · obtain h | ⟨found, hmem, hc⟩ := ih h
        · exact .inl h
        · exact .inr ⟨found, List.mem_cons_of_mem _ hmem, hc⟩

example : decodeUtf8 (encodeUtf8 ['a', 'é', '€', '😀']) = some ['a', 'é', '€', '😀'] := by
  decide

/-! ## UTF-8 -/

/-- Texts are encoded one after another. -/
@[simp] theorem encodeUtf8_append (a b : Text) :
    encodeUtf8 (a ++ b) = encodeUtf8 a ++ encodeUtf8 b :=
  List.flatMap_append

section Decoding

variable {n : Nat} {c : PartialChar} {rest : Bytes}

private theorem toNat_byte (h : n < 256) : (UInt8.ofNat n).toNat = n := UInt8.toNat_ofNat_of_lt h

private theorem decode_lead_or_ascii (b : UInt8) : decodeFrom none (b :: rest) =
    if b < 0x80 then (decodeFrom none rest).map (Char.ofNat b.toNat :: ·)
    else
      match leadByte b with
      | none => none
      | some c => decodeFrom (some c) rest := rfl

private theorem decode_ascii (h : n < 0x80) :
    decodeFrom none (UInt8.ofNat n :: rest) =
      (decodeFrom none rest).map (Char.ofNat n :: ·) := by
  have hn := toNat_byte (show n < 256 by omega)
  have hlt : UInt8.ofNat n < 0x80 := UInt8.lt_iff_toNat_lt.mpr (by rw [hn]; exact h)
  rw [decode_lead_or_ascii, if_pos hlt, hn]

private theorem decode_lead (h : n < 256) (hn : 0x80 ≤ n)
    (hlead : leadByte (UInt8.ofNat n) = some c) :
    decodeFrom none (UInt8.ofNat n :: rest) = decodeFrom (some c) rest := by
  have hle : ¬UInt8.ofNat n < 0x80 := by
    rw [UInt8.lt_iff_toNat_lt, toNat_byte h]
    exact Nat.not_lt.mpr hn
  rw [decode_lead_or_ascii, if_neg hle, hlead]

private theorem leadByte_eq (h : n < 256) : leadByte (UInt8.ofNat n) =
    if 0xC2 ≤ n ∧ n < 0xE0 then some ⟨0, n - 0xC0, 0x80⟩
    else if 0xE0 ≤ n ∧ n < 0xF0 then some ⟨1, n - 0xE0, 0x800⟩
    else if 0xF0 ≤ n ∧ n < 0xF5 then some ⟨2, n - 0xF0, 0x10000⟩
    else none := by
  unfold leadByte
  simp only [UInt8.le_iff_toNat_le, UInt8.lt_iff_toNat_lt, toNat_byte h]
  rfl

private theorem continues (h : n < 0x40) :
    ¬¬((0x80 : UInt8) ≤ UInt8.ofNat (n + 0x80) ∧ UInt8.ofNat (n + 0x80) < 0xC0) := by
  simp only [UInt8.le_iff_toNat_le, UInt8.lt_iff_toNat_lt,
    toNat_byte (show n + 0x80 < 256 by omega)]
  exact not_not.mpr ⟨Nat.le_add_left _ _, Nat.add_lt_add_right h _⟩

private theorem decode_continued (h : n < 0x40) :
    decodeFrom (some c) (UInt8.ofNat (n + 0x80) :: rest) =
      if c.remaining ≠ 0 then decodeFrom (some ⟨c.remaining - 1, c.code * 64 + n, c.least⟩) rest
      else if c.least ≤ c.code * 64 + n ∧ (c.code * 64 + n).isValidChar then
        (decodeFrom none rest).map (Char.ofNat (c.code * 64 + n) :: ·)
      else none := by
  simp only [decodeFrom, if_neg (continues h), toNat_byte (show n + 0x80 < 256 by omega),
    Nat.add_sub_cancel]

private theorem decode_more (h : n < 0x40) (hmore : c.remaining ≠ 0) :
    decodeFrom (some c) (UInt8.ofNat (n + 0x80) :: rest) =
      decodeFrom (some ⟨c.remaining - 1, c.code * 64 + n, c.least⟩) rest := by
  rw [decode_continued h, if_pos hmore]

private theorem decode_last (h : n < 0x40) (hlast : c.remaining = 0)
    (hleast : c.least ≤ c.code * 64 + n) (hvalid : (c.code * 64 + n).isValidChar) :
    decodeFrom (some c) (UInt8.ofNat (n + 0x80) :: rest) =
      (decodeFrom none rest).map (Char.ofNat (c.code * 64 + n) :: ·) := by
  rw [decode_continued h, if_neg (not_not.mpr hlast), if_pos ⟨hleast, hvalid⟩]

private theorem encodeChar_eq (c : Char) : String.utf8EncodeChar c =
    if c.toNat ≤ 127 then [UInt8.ofNat c.toNat]
    else if c.toNat ≤ 2047 then [UInt8.ofNat (c.toNat / 64 % 32 + 192),
      UInt8.ofNat (c.toNat % 64 + 128)]
    else if c.toNat ≤ 65535 then [UInt8.ofNat (c.toNat / 4096 % 16 + 224),
      UInt8.ofNat (c.toNat / 64 % 64 + 128), UInt8.ofNat (c.toNat % 64 + 128)]
    else [UInt8.ofNat (c.toNat / 262144 % 8 + 240), UInt8.ofNat (c.toNat / 4096 % 64 + 128),
      UInt8.ofNat (c.toNat / 64 % 64 + 128), UInt8.ofNat (c.toNat % 64 + 128)] := rfl

/-- An encoded character is read back before anything else. -/
theorem decodeFrom_encodeChar (c : Char) (rest : Bytes) :
    decodeFrom none (String.utf8EncodeChar c ++ rest) = (decodeFrom none rest).map (c :: ·) := by
  have hvalid : c.toNat.isValidChar := c.valid
  have hlt : c.toNat < 1114112 := by
    obtain h | h := hvalid
    · omega
    · exact h.2
  have hback {n : Nat} (h : n = c.toNat) : Char.ofNat n = c := by rw [h, Char.ofNat_toNat]
  rw [encodeChar_eq]
  split
  · next h =>
    rw [List.singleton_append, decode_ascii (Nat.lt_succ_of_le h), hback rfl]
  split
  · next h1 h2 =>
    have hsum : (c.toNat / 64 % 32 + 192 - 192) * 64 + c.toNat % 64 = c.toNat := by omega
    rw [List.cons_append, List.singleton_append, decode_lead (by omega) (by omega)
      ((leadByte_eq (by omega)).trans (if_pos (by omega))), decode_last (by omega) rfl
      (by change 128 ≤ (c.toNat / 64 % 32 + 192 - 192) * 64 + _; omega)
      (by change ((c.toNat / 64 % 32 + 192 - 192) * 64 + _).isValidChar; rwa [hsum]),
      hback hsum]
  split
  · next h1 h2 h3 =>
    have hsum : ((c.toNat / 4096 % 16 + 224 - 224) * 64 + c.toNat / 64 % 64) * 64 +
        c.toNat % 64 = c.toNat := by omega
    rw [List.cons_append, List.cons_append, List.singleton_append,
      decode_lead (by omega) (by omega)
      ((leadByte_eq (by omega)).trans ((if_neg (by omega)).trans (if_pos (by omega)))),
      decode_more (by omega) Nat.one_ne_zero, decode_last (by omega) rfl
      (by change 2048 ≤ ((c.toNat / 4096 % 16 + 224 - 224) * 64 + _) * 64 + _; omega)
      (by
        change (((c.toNat / 4096 % 16 + 224 - 224) * 64 + _) * 64 + _).isValidChar
        rwa [hsum]), hback hsum]
  · next h1 h2 h3 =>
    have hsum : (((c.toNat / 262144 % 8 + 240 - 240) * 64 + c.toNat / 4096 % 64) * 64 +
        c.toNat / 64 % 64) * 64 + c.toNat % 64 = c.toNat := by omega
    rw [List.cons_append, List.cons_append, List.cons_append, List.singleton_append,
      decode_lead (by omega) (by omega)
      ((leadByte_eq (by omega)).trans ((if_neg (by omega)).trans ((if_neg (by omega)).trans
        (if_pos (by omega))))),
      decode_more (by omega) (Nat.succ_ne_zero 1), decode_more (by omega) Nat.one_ne_zero,
      decode_last (by omega) rfl
      (by
        change 65536 ≤ (((c.toNat / 262144 % 8 + 240 - 240) * 64 + _) * 64 + _) * 64 + _
        omega)
      (by
        change ((((c.toNat / 262144 % 8 + 240 - 240) * 64 + _) * 64 + _) * 64 + _).isValidChar
        rwa [hsum]), hback hsum]

/-- Decoding inverts encoding. -/
theorem decodeUtf8_encodeUtf8 (text : Text) : decodeUtf8 (encodeUtf8 text) = some text := by
  unfold decodeUtf8 encodeUtf8
  induction text with
  | nil => rfl
  | cons c rest ih => rw [List.flatMap_cons, decodeFrom_encodeChar, ih, Option.map_some]

private theorem byte_eq (b : UInt8) : ∃ n, n < 256 ∧ b = UInt8.ofNat n :=
  ⟨b.toNat, b.toNat_lt_size, by rw [UInt8.ofNat_toNat]⟩

variable {raw : Bytes} {text : Text}

private theorem decode_inside (h : decodeFrom (some c) raw = some text) :
    ∃ n rest, n < 0x40 ∧ raw = UInt8.ofNat (n + 0x80) :: rest ∧
      (c.remaining ≠ 0 ∧
          decodeFrom (some ⟨c.remaining - 1, c.code * 64 + n, c.least⟩) rest = some text ∨
        c.remaining = 0 ∧ c.least ≤ c.code * 64 + n ∧ (c.code * 64 + n).isValidChar ∧
          ∃ later, text = Char.ofNat (c.code * 64 + n) :: later ∧
            decodeFrom none rest = some later) := by
  cases raw with
  | nil => cases h
  | cons b rest =>
    obtain ⟨m, hm, rfl⟩ := byte_eq b
    have hrange : 0x80 ≤ m ∧ m < 0xC0 := by
      by_contra hout
      rw [decodeFrom, if_pos] at h
      · cases h
      · rw [UInt8.le_iff_toNat_le, UInt8.lt_iff_toNat_lt, toNat_byte hm]
        exact hout
    obtain ⟨n, rfl⟩ : ∃ n, m = n + 0x80 := ⟨m - 0x80, by omega⟩
    have hn : n < 0x40 := by omega
    refine ⟨n, rest, hn, rfl, ?_⟩
    by_cases hmore : c.remaining = 0
    · refine .inr ⟨hmore, ?_⟩
      have hcode : c.least ≤ c.code * 64 + n ∧ (c.code * 64 + n).isValidChar := by
        by_contra hout
        rw [decode_continued hn, if_neg (not_not.mpr hmore), if_neg hout] at h
        cases h
      rw [decode_last hn hmore hcode.1 hcode.2] at h
      obtain ⟨later, hlater, rfl⟩ := Option.map_eq_some_iff.mp h
      exact ⟨hcode.1, hcode.2, later, rfl, hlater⟩
    · rw [decode_more hn hmore] at h
      exact .inl ⟨hmore, h⟩

private theorem decode_outside (h : decodeFrom none raw = some text) :
    raw = [] ∧ text = [] ∨
      (∃ n rest later, n < 0x80 ∧ raw = UInt8.ofNat n :: rest ∧ text = Char.ofNat n :: later ∧
        decodeFrom none rest = some later) ∨
      ∃ n rest c, n < 256 ∧ raw = UInt8.ofNat n :: rest ∧ leadByte (UInt8.ofNat n) = some c ∧
        decodeFrom (some c) rest = some text := by
  cases raw with
  | nil =>
    cases h
    exact .inl ⟨rfl, rfl⟩
  | cons b rest =>
    obtain ⟨n, hn, rfl⟩ := byte_eq b
    by_cases hascii : n < 0x80
    · rw [decode_ascii hascii] at h
      obtain ⟨later, hlater, rfl⟩ := Option.map_eq_some_iff.mp h
      exact .inr (.inl ⟨n, rest, later, hascii, rfl, rfl, hlater⟩)
    · cases hlead : leadByte (UInt8.ofNat n) with
      | none =>
        rw [decode_lead_or_ascii, if_neg, hlead] at h
        · cases h
        · rwa [UInt8.lt_iff_toNat_lt, toNat_byte hn]
      | some c =>
        rw [decode_lead hn (Nat.not_lt.mp hascii) hlead] at h
        exact .inr (.inr ⟨n, rest, c, hn, rfl, hlead, h⟩)

private theorem toNat_ofNat (h : n.isValidChar) : (Char.ofNat n).toNat = n := by
  unfold Char.ofNat
  rw [dif_pos h]
  rfl

private theorem encodeChar_one (h : n < 0x80) :
    String.utf8EncodeChar (Char.ofNat n) = [UInt8.ofNat n] := by
  rw [encodeChar_eq, toNat_ofNat (.inl (by omega)), if_pos (by omega)]

private theorem encodeChar_two {m : Nat} (hm : 0xC2 ≤ m ∧ m < 0xE0) (hn : n < 0x40)
    (h : ((m - 0xC0) * 64 + n).isValidChar) :
    String.utf8EncodeChar (Char.ofNat ((m - 0xC0) * 64 + n)) =
      [UInt8.ofNat m, UInt8.ofNat (n + 0x80)] := by
  rw [encodeChar_eq, toNat_ofNat h, if_neg (by omega), if_pos (by omega),
    show ((m - 0xC0) * 64 + n) / 64 % 32 + 192 = m by omega,
    show ((m - 0xC0) * 64 + n) % 64 = n by omega]

private theorem encodeChar_three {m k : Nat} (hm : 0xE0 ≤ m ∧ m < 0xF0) (hk : k < 0x40)
    (hn : n < 0x40) (hleast : 0x800 ≤ ((m - 0xE0) * 64 + k) * 64 + n)
    (h : (((m - 0xE0) * 64 + k) * 64 + n).isValidChar) :
    String.utf8EncodeChar (Char.ofNat (((m - 0xE0) * 64 + k) * 64 + n)) =
      [UInt8.ofNat m, UInt8.ofNat (k + 0x80), UInt8.ofNat (n + 0x80)] := by
  rw [encodeChar_eq, toNat_ofNat h, if_neg (by omega), if_neg (by omega), if_pos (by omega),
    show (((m - 0xE0) * 64 + k) * 64 + n) / 4096 % 16 + 224 = m by omega,
    show (((m - 0xE0) * 64 + k) * 64 + n) / 64 % 64 = k by omega,
    show (((m - 0xE0) * 64 + k) * 64 + n) % 64 = n by omega]

private theorem encodeChar_four {m k j : Nat} (hm : 0xF0 ≤ m ∧ m < 0xF5) (hk : k < 0x40)
    (hj : j < 0x40) (hn : n < 0x40)
    (hleast : 0x10000 ≤ (((m - 0xF0) * 64 + k) * 64 + j) * 64 + n)
    (h : ((((m - 0xF0) * 64 + k) * 64 + j) * 64 + n).isValidChar) :
    String.utf8EncodeChar (Char.ofNat ((((m - 0xF0) * 64 + k) * 64 + j) * 64 + n)) =
      [UInt8.ofNat m, UInt8.ofNat (k + 0x80), UInt8.ofNat (j + 0x80), UInt8.ofNat (n + 0x80)] := by
  rw [encodeChar_eq, toNat_ofNat h, if_neg (by omega), if_neg (by omega), if_neg (by omega),
    show ((((m - 0xF0) * 64 + k) * 64 + j) * 64 + n) / 262144 % 8 + 240 = m by omega,
    show ((((m - 0xF0) * 64 + k) * 64 + j) * 64 + n) / 4096 % 64 = k by omega,
    show ((((m - 0xF0) * 64 + k) * 64 + j) * 64 + n) / 64 % 64 = j by omega,
    show ((((m - 0xF0) * 64 + k) * 64 + j) * 64 + n) % 64 = n by omega]

/-- A character that was read starts with its encoding. -/
private theorem decode_char (h : decodeFrom none raw = some text) :
    raw = [] ∧ text = [] ∨ ∃ c rest later, raw = String.utf8EncodeChar c ++ rest ∧
      text = c :: later ∧ decodeFrom none rest = some later := by
  obtain hend | ⟨n, rest, later, hn, rfl, rfl, hlater⟩ | ⟨m, rest, c, hm, rfl, hlead, hrest⟩ :=
    decode_outside h
  · exact .inl hend
  · exact .inr ⟨_, rest, later, by rw [encodeChar_one hn]; rfl, rfl, hlater⟩
  right
  rw [leadByte_eq hm] at hlead
  split at hlead
  · next htwo =>
    cases hlead
    obtain ⟨n, rest, hn, rfl, ⟨hne, -⟩ | ⟨-, -, hvalid, later, rfl, hlater⟩⟩ := decode_inside hrest
    · exact absurd rfl hne
    · exact ⟨_, rest, later, by rw [encodeChar_two htwo hn hvalid]; rfl, rfl, hlater⟩
  split at hlead
  · next hthree =>
    cases hlead
    obtain ⟨k, rest, hk, rfl, ⟨-, hrest⟩ | ⟨h0, -⟩⟩ := decode_inside hrest
    · obtain ⟨n, rest, hn, rfl, ⟨hne, -⟩ | ⟨-, hleast, hvalid, later, rfl, hlater⟩⟩ :=
        decode_inside hrest
      · exact absurd rfl hne
      · exact ⟨_, rest, later, by rw [encodeChar_three hthree hk hn hleast hvalid]; rfl, rfl,
          hlater⟩
    · exact absurd h0 Nat.one_ne_zero
  split at hlead
  · next hfour =>
    cases hlead
    obtain ⟨k, rest, hk, rfl, ⟨-, hrest⟩ | ⟨h0, -⟩⟩ := decode_inside hrest
    · obtain ⟨j, rest, hj, rfl, ⟨-, hrest⟩ | ⟨h0, -⟩⟩ := decode_inside hrest
      · obtain ⟨n, rest, hn, rfl, ⟨hne, -⟩ | ⟨-, hleast, hvalid, later, rfl, hlater⟩⟩ :=
          decode_inside hrest
        · exact absurd rfl hne
        · exact ⟨_, rest, later, by rw [encodeChar_four hfour hk hj hn hleast hvalid]; rfl, rfl,
            hlater⟩
      · exact absurd h0 Nat.one_ne_zero
    · exact absurd h0 (Nat.succ_ne_zero 1)
  · cases hlead

private theorem length_encodeChar (c : Char) : 0 < (String.utf8EncodeChar c).length := by
  rw [encodeChar_eq]
  split
  · exact Nat.zero_lt_one
  · split
    · exact Nat.zero_lt_two
    · split <;> exact Nat.zero_lt_succ _

/-- Encoding inverts decoding. -/
theorem encodeUtf8_of_decodeUtf8 (h : decodeUtf8 raw = some text) :
    encodeUtf8 text = raw := by
  unfold decodeUtf8 at h
  induction hlen : raw.length using Nat.strong_induction_on generalizing raw text with
  | _ length ih =>
    obtain ⟨rfl, rfl⟩ | ⟨c, rest, later, rfl, rfl, hlater⟩ := decode_char h
    · rfl
    · have hpos := length_encodeChar c
      rw [List.length_append] at hlen
      have htail := ih rest.length (by omega) hlater rfl
      unfold encodeUtf8 at htail ⊢
      rw [List.flatMap_cons, htail]

end Decoding

/-! ## Lines -/

section Lines

variable {c : Char} {text rest : Text}

/-- The lines of a text join to it. -/
theorem flatten_splitLines (text : Text) : (splitLines text).flatten = text := by
  fun_induction splitLines text with
  | case1 => rfl
  | case2 rest ih => rw [List.flatten_cons, ih]; rfl
  | case3 c rest _ _ ih => rw [List.flatten_cons, ih]; rfl
  | case4 c rest _ _ hnone ih =>
    rw [hnone, List.flatten_nil] at ih
    rw [← ih]
    rfl
  | case5 c rest _ _ line lines hlines ih =>
    rw [hlines, List.flatten_cons] at ih
    rw [List.flatten_cons, List.cons_append, ih]

/-- Put a character before the first line. -/
def startLine (c : Char) : List Text → List Text
  | [] => [[c]]
  | line :: lines => (c :: line) :: lines

/-- A character begins the first of the lines. -/
theorem startLine_append {lines : List Text} (h : lines ≠ []) (c : Char) (more : List Text) :
    startLine c (lines ++ more) = startLine c lines ++ more := by
  cases lines with
  | nil => exact absurd rfl h
  | cons line lines => rfl

private theorem splitLines_cons (hcrlf : ¬(c = '\r' ∧ rest.head? = some '\n')) :
    splitLines (c :: rest) =
      if isLineBoundary c then [c] :: splitLines rest else startLine c (splitLines rest) := by
  rw [splitLines]
  · rfl
  · rintro later rfl rfl
    exact hcrlf ⟨rfl, rfl⟩

/-- A character inside a line goes on with it. -/
theorem splitLines_of_inside (h : isLineBoundary c = false) (rest : Text) :
    splitLines (c :: rest) = startLine c (splitLines rest) := by
  rw [splitLines_cons, if_neg (Bool.eq_false_iff.mp h)]
  rintro ⟨rfl, -⟩
  cases h

/-- A carriage return with a newline is one boundary. -/
theorem splitLines_crlf (rest : Text) :
    splitLines ('\r' :: '\n' :: rest) = ['\r', '\n'] :: splitLines rest := rfl

/-- A boundary is a line of its own. -/
theorem splitLines_of_boundary (h : isLineBoundary c = true)
    (hcrlf : ¬(c = '\r' ∧ rest.head? = some '\n')) :
    splitLines (c :: rest) = [c] :: splitLines rest := by
  rw [splitLines_cons hcrlf, if_pos h]

private theorem splitLines_ne_nil (h : text ≠ []) : splitLines text ≠ [] := by
  intro hnil
  have hflat := flatten_splitLines text
  rw [hnil] at hflat
  exact h hflat.symm

/-- A line with an end. -/
def IsEnded (line : Text) : Prop := ∃ front c, line = front ++ [c] ∧ isLineBoundary c = true

/-- The text is empty or ends its last line. -/
def EndsLine (text : Text) : Prop := text = [] ∨ IsEnded text

/-- Text after a line end does not change the lines before it. -/
theorem splitLines_append (h : EndsLine text)
    (hrest : text.getLast? = some '\r' → rest.head? ≠ some '\n') :
    splitLines (text ++ rest) = splitLines text ++ splitLines rest := by
  have hends {c : Char} {text : Text} (h : EndsLine (c :: text)) :
      text = [] ∧ isLineBoundary c = true ∨ text ≠ [] ∧ EndsLine text := by
    obtain h | ⟨front, last, h, hlast⟩ := h
    · cases h
    · cases front with
      | nil =>
        cases h
        exact .inl ⟨rfl, hlast⟩
      | cons d front =>
        cases h
        exact .inr ⟨List.append_ne_nil_of_right_ne_nil _ (List.cons_ne_nil _ _),
          .inr ⟨front, last, rfl, hlast⟩⟩
  induction hlen : text.length using Nat.strong_induction_on generalizing text with
  | _ length ih =>
    cases text with
    | nil => rfl
    | cons c text =>
      rw [List.length_cons] at hlen
      by_cases hcrlf : c = '\r' ∧ text.head? = some '\n'
      · obtain ⟨rfl, hhead⟩ := hcrlf
        cases text with
        | nil => cases hhead
        | cons d text =>
          cases hhead
          rw [List.cons_append, List.cons_append, splitLines_crlf, splitLines_crlf,
            List.cons_append]
          rw [List.length_cons] at hlen
          obtain ⟨h, -⟩ | ⟨-, h⟩ := hends h
          · cases h
          · obtain ⟨rfl, -⟩ | ⟨hne, h⟩ := hends h
            · rfl
            · rw [List.getLast?_cons_of_ne_nil (List.cons_ne_nil _ _),
                List.getLast?_cons_of_ne_nil hne] at hrest
              rw [ih text.length (by omega) h hrest rfl]
      · obtain ⟨rfl, hc⟩ | ⟨hne, h⟩ := hends h
        · rw [List.cons_append, List.nil_append, splitLines_of_boundary hc
            (fun hbad => hrest (congrArg some hbad.1) hbad.2), splitLines_of_boundary hc hcrlf]
          rfl
        · rw [List.getLast?_cons_of_ne_nil hne] at hrest
          have hih := ih text.length (by omega) h hrest rfl
          cases hc : isLineBoundary c with
          | false =>
            rw [List.cons_append, splitLines_of_inside hc, splitLines_of_inside hc, hih,
              startLine_append (splitLines_ne_nil hne)]
          | true =>
            rw [List.cons_append, splitLines_of_boundary hc, splitLines_of_boundary hc hcrlf, hih]
            · rfl
            · rwa [List.head?_append_of_ne_nil _ hne]

variable {line : Text}

/-- A line is read as one line. -/
theorem splitLines_line {ending : Text} (hline : ∀ c ∈ line, isLineBoundary c = false)
    (hending : splitLines ending = [ending]) : splitLines (line ++ ending) = [line ++ ending] := by
  induction line with
  | nil => exact hending
  | cons c line ih =>
    obtain ⟨hc, hline⟩ := List.forall_mem_cons.mp hline
    rw [List.cons_append, splitLines_of_inside hc, ih hline]
    rfl

private theorem takeWhile_inside (hline : ∀ c ∈ line, isLineBoundary c = false)
    (ending : Text) : (line ++ ending).takeWhile (fun c => !isLineBoundary c) =
      line ++ ending.takeWhile fun c => !isLineBoundary c :=
  List.takeWhile_append_of_pos fun c hc => by rw [hline c hc]; rfl

/-- Text without line ends is one line. -/
theorem splitlines_line (hne : line ≠ [])
    (hline : ∀ c ∈ line, isLineBoundary c = false) : splitlines line = [line] := by
  obtain ⟨front, last, rfl⟩ := List.eq_nil_or_concat line |>.resolve_left hne
  rw [List.concat_eq_append] at hline ⊢
  have hfront : ∀ c ∈ front, isLineBoundary c = false := fun c hc =>
    hline c (List.mem_append_left _ hc)
  have hlast : isLineBoundary last = false := hline last (by simp)
  have hending : splitLines [last] = [[last]] := splitLines_of_inside hlast []
  have hall := takeWhile_inside hline []
  rw [List.append_nil, List.takeWhile_nil, List.append_nil] at hall
  rw [splitlines, splitLines_line hfront hending, List.map_singleton, hall]

/-- A newline ends its line. -/
theorem splitlines_newline (hline : ∀ c ∈ line, isLineBoundary c = false)
    (rest : Text) : splitlines (line ++ '\n' :: rest) = line :: splitlines rest := by
  have hends : EndsLine (line ++ ['\n']) := .inr ⟨line, '\n', rfl, rfl⟩
  have hsplit : splitLines (line ++ ['\n'] ++ rest) = _ :=
    splitLines_append hends fun h => by
      rw [List.getLast?_concat] at h
      cases h
  have hfirst : splitLines (line ++ ['\n']) = [line ++ ['\n']] := splitLines_line hline rfl
  rw [List.append_cons, splitlines, hsplit, hfirst, List.map_append, List.map_singleton,
    takeWhile_inside hline ['\n']]
  change (line ++ []) :: _ = _
  rw [List.append_nil]
  rfl

/-- Lines have no boundary before their end. -/
theorem mem_splitLines (h : line ∈ splitLines text) :
    ∃ body ending, line = body ++ ending ∧ (∀ c ∈ body, isLineBoundary c = false) ∧
      (ending = [] ∨ ending = ['\r', '\n'] ∨ ∃ c, isLineBoundary c = true ∧ ending = [c]) := by
  fun_induction splitLines text generalizing line with
  | case1 => cases h
  | case2 rest ih =>
    obtain rfl | h := List.mem_cons.mp h
    · exact ⟨[], _, rfl, List.forall_mem_nil _, .inr (.inl rfl)⟩
    · exact ih h
  | case3 c rest _ hc ih =>
    obtain rfl | h := List.mem_cons.mp h
    · exact ⟨[], _, rfl, List.forall_mem_nil _, .inr (.inr ⟨c, hc, rfl⟩)⟩
    · exact ih h
  | case4 c rest _ hc hnone ih =>
    obtain rfl := List.mem_singleton.mp h
    exact ⟨[c], [], rfl, List.forall_mem_singleton.mpr (Bool.eq_false_iff.mpr hc), .inl rfl⟩
  | case5 c rest _ hc first lines hlines ih =>
    rw [hlines] at ih
    obtain rfl | h := List.mem_cons.mp h
    · obtain ⟨body, ending, rfl, hbody, hending⟩ := ih List.mem_cons_self
      exact ⟨c :: body, ending, rfl, List.forall_mem_cons.mpr ⟨Bool.eq_false_iff.mpr hc, hbody⟩,
        hending⟩
    · exact ih (List.mem_cons_of_mem _ h)

/-- All lines but the last one have an end. -/
theorem isEnded_of_mem_dropLast (text : Text) : ∀ line ∈ (splitLines text).dropLast,
    IsEnded line := by
  have hcons {first : Text} {lines : List Text} (hfirst : IsEnded first)
      (hlines : ∀ line ∈ lines.dropLast, IsEnded line) :
      ∀ line ∈ (first :: lines).dropLast, IsEnded line := by
    cases lines with
    | nil => exact List.forall_mem_nil _
    | cons second more => exact List.forall_mem_cons.mpr ⟨hfirst, hlines⟩
  fun_induction splitLines text with
  | case1 => exact List.forall_mem_nil _
  | case2 rest ih => exact hcons ⟨['\r'], '\n', rfl, rfl⟩ ih
  | case3 c rest _ hc ih => exact hcons ⟨[], c, rfl, hc⟩ ih
  | case4 c rest _ hc hnone ih => exact List.forall_mem_nil _
  | case5 c rest _ hc first lines hlines ih =>
    rw [hlines] at ih
    cases lines with
    | nil => exact List.forall_mem_nil _
    | cons second more =>
      obtain ⟨⟨front, last, hfirst, hlast⟩, hmore⟩ := List.forall_mem_cons.mp ih
      exact hcons ⟨c :: front, last, congrArg (c :: ·) hfirst, hlast⟩ hmore

/-- The first lines of a text, when more lines follow, end their last line. -/
theorem endsLine_take {k : Nat} (h : k < (splitLines text).length) :
    EndsLine ((splitLines text).take k).flatten := by
  cases k with
  | zero => exact .inl rfl
  | succ k =>
    right
    have hk : k < (splitLines text).length := by omega
    have hmem : (splitLines text)[k] ∈ (splitLines text).dropLast := by
      rw [List.dropLast_eq_take]
      apply List.mem_take_iff_getElem.mpr
      exact ⟨k, by omega, rfl⟩
    obtain ⟨front, c, hline, hc⟩ := isEnded_of_mem_dropLast text _ hmem
    rw [List.take_succ_eq_append_getElem hk, List.flatten_append, List.flatten_singleton, hline]
    exact ⟨_, c, (List.append_assoc _ _ _).symm, hc⟩

end Lines

end AwesomeAgent
