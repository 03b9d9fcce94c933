import AwesomeAgent.Library.JsonText
import AwesomeAgent.Library.TextSize
import Mathlib.Algebra.Order.Group.Nat
import Mathlib.Data.List.Sort

/-!
# Indented JSON texts

A value is written with its items on lines of their own, two spaces further in than the value, and
the members of an object in the order of their keys. Whatever is written of a value, the texts and
the numbers in it take no fewer bytes than they have.
-/

namespace AwesomeAgent

/-- Values that are written. -/
inductive IndentedJson
  | null
  | bool (b : Bool)
  | int (n : Int)
  | string (text : Text)
  | array (items : List IndentedJson)
  | object (members : List (Text × IndentedJson))

namespace IndentedJson

/-- A character in a string: characters beyond ASCII are not escaped. -/
def escape (c : Char) : Text := JsonText.render (JsonText.unitsOf c)

/-- A string with its quotes. -/
def encodeText (text : Text) : Text := '"' :: text.flatMap escape ++ ['"']

/-- The decimal digits of a number. -/
def intText : Int → Text
  | .ofNat n => Nat.toDigits 10 n
  | .negSucc n => '-' :: Nat.toDigits 10 (n + 1)

/-- The start of a line at a depth. -/
def newlineIndent (depth : Nat) : Text := '\n' :: List.replicate (2 * depth) ' '

/-- Parts between brackets, each on a line of its own. -/
def enclosed (depth : Nat) (opening closing : Char) : List Text → Text
  | [] => [opening, closing]
  | parts =>
      opening :: newlineIndent (depth + 1) ++
        (',' :: newlineIndent (depth + 1)).intercalate parts ++ newlineIndent depth ++ [closing]

/-- One key does not stand behind another in the order of code points. -/
def keyNotAfter : Text → Text → Bool
  | [], _ => true
  | _ :: _, [] => false
  | c :: key, d :: other => decide (c.toNat < d.toNat) || (decide (c = d) && keyNotAfter key other)

mutual

/-- The text of a value at a depth. -/
def dumps (depth : Nat) : IndentedJson → Text
  | .null => "null".toList
  | .bool true => "true".toList
  | .bool false => "false".toList
  | .int n => intText n
  | .string text => encodeText text
  | .array items => enclosed depth '[' ']' (dumpsItems (depth + 1) items)
  | .object members =>
      enclosed depth '{' '}' (((dumpsMembers (depth + 1) members).insertionSort
        fun a b => keyNotAfter a.1 b.1 = true).map
          fun member => encodeText member.1 ++ ':' :: ' ' :: member.2)

/-- The texts of items. -/
def dumpsItems (depth : Nat) : List IndentedJson → List Text
  | [] => []
  | item :: items => dumps depth item :: dumpsItems depth items

/-- The keys of members with the texts of their values. -/
def dumpsMembers (depth : Nat) : List (Text × IndentedJson) → List (Text × Text)
  | [] => []
  | (key, value) :: members => (key, dumps depth value) :: dumpsMembers depth members

end

example : (IndentedJson.object [("b".toList, .array [.int 1, .string ['"', 'é']]),
    ("a".toList, .object [])]).dumps 0 =
      "\x7b\n  \"a\": \x7b\x7d,\n  \"b\": [\n    1,\n    \"\\\"é\"\n  ]\n\x7d".toList := by
  decide

mutual

/-- The bytes of the texts and the numbers in a value. -/
def dataBytes : IndentedJson → Nat
  | .null => 0
  | .bool _ => 0
  | .int n => byteLength (intText n)
  | .string text => byteLength text
  | .array items => dataBytesOfItems items
  | .object members => dataBytesOfMembers members

/-- The bytes of the texts and the numbers in items. -/
def dataBytesOfItems : List IndentedJson → Nat
  | [] => 0
  | item :: items => dataBytes item + dataBytesOfItems items

/-- The bytes of the texts and the numbers in the values of members. -/
def dataBytesOfMembers : List (Text × IndentedJson) → Nat
  | [] => 0
  | (_, value) :: members => dataBytes value + dataBytesOfMembers members

end

/-! ## Strings -/

private theorem utf8Size_le_renderUnit {c : Char} (h : c.toNat < 0x10000) :
    c.utf8Size ≤ byteLength (JsonText.renderUnit (UInt16.ofNat c.toNat)) := by
  have hunit : (UInt16.ofNat c.toNat).toNat = c.toNat := UInt16.toNat_ofNat_of_lt h
  unfold JsonText.renderUnit
  split
  · next e he =>
    obtain ⟨front, back, hsplit, -⟩ := List.lookup_eq_some_iff.mp he
    have hmem : (UInt16.ofNat c.toNat, e) ∈ JsonText.shortEscapes := by
      rw [hsplit]
      exact List.mem_append_right _ List.mem_cons_self
    have hascii : ∀ p ∈ JsonText.shortEscapes, p.1.toNat < 0x80 := by decide
    have hc := hascii _ hmem
    dsimp only at hc
    rw [hunit] at hc
    have hlength := length_le_byteLength ['\\', e]
    have hone := utf8Size_of_ascii hc
    rw [List.length_cons, List.length_singleton] at hlength
    omega
  · split
    · have hlength := length_le_byteLength (JsonText.hexEscape (UInt16.ofNat c.toNat))
      have hfour := c.utf8Size_le_four
      have hsix : (JsonText.hexEscape (UInt16.ofNat c.toNat)).length = 6 := rfl
      omega
    · rw [hunit, Char.ofNat_toNat, byteLength_singleton]

private theorem escape_pair {c : Char} (h : ¬ c.toNat < 0x10000) : escape c = [c] := by
  have hrange := c.valid
  have hle : c.toNat < 0x110000 := by
    rcases hrange with hlow | ⟨-, hhigh⟩
    · exact Nat.lt_trans hlow (by decide)
    · exact hhigh
  have hhigh : (UInt16.ofNat (0xD800 + (c.toNat - 0x10000) / 1024)).toNat =
      0xD800 + (c.toNat - 0x10000) / 1024 := UInt16.toNat_ofNat_of_lt (by
    change _ < 65536
    omega)
  have hlow : (UInt16.ofNat (0xDC00 + (c.toNat - 0x10000) % 1024)).toNat =
      0xDC00 + (c.toNat - 0x10000) % 1024 := UInt16.toNat_ofNat_of_lt (by
    change _ < 65536
    omega)
  have hpair : JsonText.isHigh (UInt16.ofNat (0xD800 + (c.toNat - 0x10000) / 1024)) = true ∧
      JsonText.isLow (UInt16.ofNat (0xDC00 + (c.toNat - 0x10000) % 1024)) = true := by
    rw [JsonText.isHigh, JsonText.isLow, hhigh, hlow]
    constructor <;> apply decide_eq_true <;> omega
  have hcode : 0x10000 + (0xD800 + (c.toNat - 0x10000) / 1024 - 0xD800) * 1024 +
      (0xDC00 + (c.toNat - 0x10000) % 1024 - 0xDC00) = c.toNat := by omega
  rw [escape, JsonText.unitsOf, if_neg h, JsonText.render, if_pos hpair, JsonText.pairChar, hhigh,
    hlow, hcode, Char.ofNat_toNat, JsonText.render]

private theorem utf8Size_le_escape (c : Char) : c.utf8Size ≤ byteLength (escape c) := by
  by_cases h : c.toNat < 0x10000
  · rw [escape, JsonText.unitsOf, if_pos h]
    exact utf8Size_le_renderUnit h
  · rw [escape_pair h, byteLength_singleton]

private theorem byteLength_le_encodeText (text : Text) :
    byteLength text ≤ byteLength (encodeText text) := by
  have hflat := byteLength_le_flatMap utf8Size_le_escape text
  rw [encodeText, List.cons_append, byteLength_cons, byteLength_append]
  omega

/-! ## Values -/

private theorem sum_le_enclosed (depth : Nat) (opening closing : Char) (parts : List Text) :
    (parts.map byteLength).sum ≤ byteLength (enclosed depth opening closing parts) := by
  cases parts with
  | nil => exact Nat.zero_le _
  | cons part parts =>
    have hjoined := sum_byteLength_le_intercalate (',' :: newlineIndent (depth + 1)) (part :: parts)
    rw [enclosed, byteLength_append, byteLength_append, List.cons_append, byteLength_cons,
      byteLength_append]
    · omega
    · exact List.cons_ne_nil _ _

private theorem sum_le_members (members : List (Text × Text)) :
    (members.map fun member => byteLength member.2).sum ≤
      ((members.map fun member => encodeText member.1 ++ ':' :: ' ' :: member.2).map
        byteLength).sum := by
  rw [List.map_map]
  apply List.sum_le_sum
  intro member _
  change byteLength member.2 ≤ byteLength (encodeText member.1 ++ ':' :: ' ' :: member.2)
  rw [byteLength_append, byteLength_cons, byteLength_cons]
  omega

mutual

/-- A text has no fewer bytes than the data that it writes. -/
theorem dataBytes_le_dumps (depth : Nat) (value : IndentedJson) :
    dataBytes value ≤ byteLength (dumps depth value) := by
  cases value with
  | null => exact Nat.zero_le _
  | bool b => exact Nat.zero_le _
  | int n =>
    rw [dataBytes, dumps]
  | string text =>
    rw [dataBytes, dumps]
    exact byteLength_le_encodeText text
  | array items =>
    rw [dataBytes, dumps]
    exact (dataBytes_le_items (depth + 1) items).trans (sum_le_enclosed depth '[' ']' _)
  | object members =>
    have hperm := List.perm_insertionSort
      (fun a b : Text × Text => keyNotAfter a.1 b.1 = true) (dumpsMembers (depth + 1) members)
    have hsum := (hperm.map fun member => byteLength member.2).sum_eq
    rw [dataBytes, dumps]
    apply (dataBytes_le_members (depth + 1) members).trans
    rw [← hsum]
    exact (sum_le_members _).trans (sum_le_enclosed depth '\x7b' '\x7d' _)

/-- Items are dumped with all their data. -/
theorem dataBytes_le_items (depth : Nat) (items : List IndentedJson) :
    dataBytesOfItems items ≤ ((dumpsItems depth items).map byteLength).sum := by
  cases items with
  | nil => exact Nat.le_refl 0
  | cons item items =>
    have hitem := dataBytes_le_dumps depth item
    have hitems := dataBytes_le_items depth items
    rw [dataBytesOfItems, dumpsItems, List.map_cons, List.sum_cons]
    omega

/-- Members are dumped with all their data. -/
theorem dataBytes_le_members (depth : Nat) (members : List (Text × IndentedJson)) :
    dataBytesOfMembers members ≤
      ((dumpsMembers depth members).map fun member => byteLength member.2).sum := by
  cases members with
  | nil => exact Nat.le_refl 0
  | cons member members =>
    obtain ⟨key, value⟩ := member
    have hvalue := dataBytes_le_dumps depth value
    have hmembers := dataBytes_le_members depth members
    rw [dataBytesOfMembers, dumpsMembers, List.map_cons, List.sum_cons]
    dsimp only
    omega

end

end IndentedJson

end AwesomeAgent
