import AwesomeAgent.Conversations.Records
import AwesomeAgent.Providers.Secrets

/-!
# Titles of Threads

A title is cut after a number of graphemes. A grapheme has as many code points as characters
extend it, so a prefix of the text settles which of its graphemes are complete.
-/

namespace AwesomeAgent

/-- What the Unicode database tells of a character. -/
class UnicodeData where
  /-- The general category of the character is one of the marks. -/
  isMark : Char → Bool

/-- The character that joins two others. -/
def zeroWidthJoiner : Char := '\u200d'

/-- A text with one space between its words. -/
def normalizeTitle (value : Text) : Text :=
  [' '].intercalate ((value.splitOnP isSpace).filter fun word => decide (word ≠ []))

section Graphemes

variable [UnicodeData]

/-- Characters that belong to the one before. -/
def isGraphemeExtension (character : Char) : Bool :=
  UnicodeData.isMark character || decide (0xFE00 ≤ character.toNat ∧ character.toNat ≤ 0xFE0F) ||
    decide (0xE0100 ≤ character.toNat ∧ character.toNat ≤ 0xE01EF) ||
    decide (0x1F3FB ≤ character.toNat ∧ character.toNat ≤ 0x1F3FF)

/-- Letters of flags. -/
def isRegionalIndicator (character : Char) : Bool :=
  decide (0x1F1E6 ≤ character.toNat ∧ character.toNat ≤ 0x1F1FF)

/-- The second letter of a flag. -/
def continuesRegionalIndicatorPair (current : Text) (character : Char) : Bool :=
  match current with
  | [first] => isRegionalIndicator first && isRegionalIndicator character
  | _ => false

/-- A character that goes on with the current grapheme. -/
def continuesGrapheme (current : Text) (character : Char) : Bool :=
  decide (character = zeroWidthJoiner) || decide (current.getLast? = some zeroWidthJoiner) ||
    isGraphemeExtension character || continuesRegionalIndicatorPair current character

/-- The graphemes of the current one and of a text after it. -/
def graphemesFrom (current : Text) : Text → List Text
  | [] => if current = [] then [] else [current]
  | character :: rest =>
      if current = [] then graphemesFrom [character] rest
      else if continuesGrapheme current character then graphemesFrom (current ++ [character]) rest
      else current :: graphemesFrom [character] rest

/-- The graphemes of a text. -/
def visibleGraphemes (value : Text) : List Text := graphemesFrom [] value

/-- The text if it has at most so many graphemes, else the first ones and an ellipsis. -/
def boundedTitle (limit : Nat) (normalized : Text) : Text :=
  if (visibleGraphemes normalized).length ≤ limit then normalized
  else ((visibleGraphemes normalized).take (limit - 1)).flatten ++ ['…']

/-- The title that a Thread gets from its first message. -/
def automaticTitle (value : String) : String :=
  String.ofList (boundedTitle 48 (normalizeTitle value.toList))

/-- The title that the user asks for. -/
def renamedTitle (title : String) : Except String String :=
  let normalized := normalizeTitle title.toList
  if normalized = [] then .error "Title required · /rename <title>"
  else if 100 < (visibleGraphemes normalized).length then
    .error "Thread title must be 100 characters or fewer."
  else .ok (String.ofList normalized)

/-- What stands before the title of a copy. -/
def titlePrefix : LineageKind → Text
  | .fork => "Fork of ".toList
  | .retry => "Retry of ".toList

/-- The title of a copy of a Thread. -/
def materializedTitle (kind : LineageKind) (sourceTitle : String) : String :=
  String.ofList (boundedTitle 100 (normalizeTitle (titlePrefix kind ++ sourceTitle.toList)))

/-- The fields of a copy of a Thread. -/
def materializedThread (kind : LineageKind) (source : Thread) (newThreadId targetTurnId : String)
    (now latest : Int) : ThreadFields where
  id := newThreadId
  workspaceKey := source.workspaceKey
  title := materializedTitle kind source.title
  titleSource := .manual
  currentModel := source.currentModel
  thinkingEnabled := source.thinkingEnabled
  skillMode := source.skillMode
  lineage := some ⟨kind, source.id, targetTurnId⟩
  createdAt := now
  updatedAt := latest

/-- Graphemes before a boundary do not change when a text goes on. -/
theorem graphemesFrom_append {current a : Text} (h : current ++ a ≠ []) (b : Text) :
    ∃ front last, graphemesFrom current a = front ++ [last] ∧ last ≠ [] ∧
      graphemesFrom current (a ++ b) = front ++ graphemesFrom last b := by
  induction a generalizing current with
  | nil =>
    rw [List.append_nil] at h
    exact ⟨[], current, by rw [graphemesFrom, if_neg h, List.nil_append], h, rfl⟩
  | cons character a ih =>
    have hone : ∀ front : Text, front ++ [character] ++ a ≠ [] := by
      intro front he
      simp at he
    rw [List.cons_append, graphemesFrom, graphemesFrom]
    split
    · exact ih (hone [])
    split
    · exact ih (hone current)
    · obtain ⟨front, last, ha, hlast, hab⟩ := ih (hone [])
      rw [List.nil_append] at ha hab
      refine ⟨current :: front, last, ?_, hlast, ?_⟩
      · rw [ha, List.cons_append]
      · rw [hab, List.cons_append]

/-- The graphemes of a text make it up. -/
theorem graphemesFrom_flatten (current text : Text) :
    (graphemesFrom current text).flatten = current ++ text := by
  induction text generalizing current with
  | nil =>
    rw [graphemesFrom]
    split
    · next h => rw [h]; rfl
    · rw [List.flatten_singleton, List.append_nil]
  | cons character text ih =>
    rw [graphemesFrom]
    split
    · next h => rw [h, ih]; rfl
    split
    · rw [ih, List.append_assoc, List.singleton_append]
    · rw [List.flatten_cons, ih]
      rfl

/-- The first grapheme of the rest goes on with the current one. -/
theorem graphemesFrom_eq_cons {current : Text} (h : current ≠ []) (text : Text) :
    ∃ first rest, graphemesFrom current text = first :: rest ∧ current <+: first := by
  induction text generalizing current with
  | nil => exact ⟨current, [], by rw [graphemesFrom, if_neg h], List.prefix_rfl⟩
  | cons character text ih =>
    rw [graphemesFrom, if_neg h]
    split
    · have hlonger : current ++ [character] ≠ [] := by simp
      obtain ⟨first, rest, heq, hprefix⟩ := ih hlonger
      exact ⟨first, rest, heq, (List.prefix_append _ _).trans hprefix⟩
    · exact ⟨current, _, rfl, List.prefix_rfl⟩

/-- The first graphemes are shorter than a prefix that has one more of them. -/
theorem take_visibleGraphemes_length_lt {text : Text} {count bound : Nat} (hbound : 0 < bound)
    (hmore : count < (visibleGraphemes text).length) :
    ((visibleGraphemes text).take count).flatten.length < bound ↔
      count < (visibleGraphemes (text.take bound)).length := by
  have hne : [] ++ text.take bound ≠ [] := by
    intro he
    rcases List.take_eq_nil_iff.mp he with hzero | hnil
    · omega
    · rw [hnil] at hmore
      exact absurd hmore (Nat.not_lt_zero count)
  obtain ⟨front, last, hfirst, hlast, hall⟩ := graphemesFrom_append hne (text.drop bound)
  rw [List.take_append_drop] at hall
  change visibleGraphemes (text.take bound) = front ++ [last] at hfirst
  change visibleGraphemes text = front ++ graphemesFrom last (text.drop bound) at hall
  have hlength : front.flatten.length + last.length = min bound text.length := by
    have hflat := graphemesFrom_flatten [] (text.take bound)
    change (visibleGraphemes (text.take bound)).flatten = text.take bound at hflat
    rw [← List.length_take, ← hflat, hfirst, List.flatten_append, List.length_append,
      List.flatten_singleton]
  have hpositive := List.length_pos_of_ne_nil hlast
  rw [hfirst, List.length_append, List.length_singleton]
  constructor
  · intro hshort
    by_contra hfew
    obtain ⟨first, rest, hcons, hprefix⟩ := graphemesFrom_eq_cons hlast (text.drop bound)
    have htake : (visibleGraphemes text).take count =
        front ++ first :: rest.take (count - front.length - 1) := by
      have hsucc : count - front.length = count - front.length - 1 + 1 := by omega
      rw [hall, hcons, List.take_append, List.take_of_length_le (by omega), hsucc,
        List.take_succ_cons, Nat.add_sub_cancel]
    have hle := hprefix.length_le
    rw [htake, List.flatten_append, List.flatten_cons, List.length_append,
      List.length_append] at hshort
    have hwhole : text.drop bound = [] := by
      rw [List.drop_eq_nil_iff]
      omega
    rw [hall, hwhole, graphemesFrom, if_neg hlast, List.length_append,
      List.length_singleton] at hmore
    omega
  · intro hmany
    have hsub : ((visibleGraphemes text).take count).flatten.length ≤ front.flatten.length := by
      rw [hall, List.take_append_of_le_length (by omega)]
      conv_rhs => rw [← List.take_append_drop count front, List.flatten_append, List.length_append]
      exact Nat.le_add_right _ _
    omega

/-- A title that the Thread model takes. -/
def Storable (title : Text) : Prop := 1 ≤ title.length ∧ title.length ≤ 500

/-- The text has at most 500 code points, or the first of them have enough graphemes for the
cut. -/
def Cuttable (limit : Nat) (normalized : Text) : Prop :=
  normalized.length ≤ 500 ∨ limit < (visibleGraphemes normalized).length ∧
    limit ≤ (visibleGraphemes (normalized.take 500)).length

/-- When a cut title can be stored. -/
theorem boundedTitle_storable_iff {limit : Nat} (hlimit : 1 < limit) {normalized : Text}
    (hne : normalized ≠ []) :
    Storable (boundedTitle limit normalized) ↔ Cuttable limit normalized := by
  have hpositive := List.length_pos_of_ne_nil hne
  rw [Storable, Cuttable, boundedTitle]
  split
  · next hfew =>
    constructor
    · exact fun h => Or.inl h.2
    · rintro (h | h)
      · exact ⟨hpositive, h⟩
      · omega
  · next hmany =>
    have hless : limit - 1 < (visibleGraphemes normalized).length := by omega
    have hcut := take_visibleGraphemes_length_lt (show 0 < 500 by decide) hless
    rw [List.length_append, List.length_singleton]
    constructor
    · intro h
      have := hcut.mp (by omega)
      exact Or.inr ⟨by omega, by omega⟩
    · rintro (h | h)
      · rw [List.take_of_length_le h] at hcut
        have := hcut.mpr (by omega)
        omega
      · have := hcut.mpr (by omega)
        omega

end Graphemes

end AwesomeAgent
