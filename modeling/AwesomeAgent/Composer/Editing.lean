import AwesomeAgent.Composer.Reducer
import AwesomeAgent.Library.Runs

/-!
# Where the cursor stands after an edit

An insert moves the cursor by the graphemes of the inserted text alone. That is the place behind
the text exactly when the text keeps its graphemes behind what precedes it and does not merge
with what follows.
-/

namespace AwesomeAgent.Composer

open Segmenter

section Editing

variable [Segmenter] [CharacterData] {state : ComposerState} {text : Text}

/-- The cursor is a place between two graphemes of the value. -/
def CursorInside (state : ComposerState) : Prop :=
  state.cursorGrapheme ≤ graphemeCount state.value

/-- The text in front of the cursor. -/
def ComposerState.before (state : ComposerState) : Text :=
  textBefore state.value state.cursorGrapheme

/-- The text behind the cursor. -/
def ComposerState.behind (state : ComposerState) : Text :=
  textBehind state.value state.cursorGrapheme

/-- The value with a text is too long. -/
def Refused (state : ComposerState) (text : Text) : Prop :=
  maxComposerCodePoints < codePointCount (insertedValue state text)

/-- What an insert has to do: the text stands at the cursor, the cursor directly behind it, the
next insert goes there, and a backspace takes something away unless the cursor is at the start. -/
structure InsertLands (state : ComposerState) (text : Text) : Prop where
  value : (composerReducer state (.insert text)).value = state.before ++ text ++ state.behind
  inside : CursorInside (composerReducer state (.insert text))
  behind : (composerReducer state (.insert text)).before = state.before ++ text
  together : ∀ more, ¬Refused (composerReducer state (.insert text)) more →
    (composerReducer (composerReducer state (.insert text)) (.insert more)).value =
      (composerReducer state (.insert (text ++ more))).value
  backspace : (composerReducer state (.insert text)).cursorGrapheme ≠ 0 →
    (composerReducer (composerReducer state (.insert text)) .backspace).value ≠
      (composerReducer state (.insert text)).value

/-- A text keeps its graphemes behind what precedes the cursor, and nothing behind the cursor
merges with it. -/
structure KeepsGraphemes (state : ComposerState) (text : Text) : Prop where
  before : graphemeCount (state.before ++ text) =
    graphemeCount state.before + graphemeCount text
  behind : graphemes (state.before ++ text) <+:
    graphemes (state.before ++ text ++ state.behind)

/-! ## Inserting -/

omit [CharacterData] in
private theorem insertedValue_eq (state : ComposerState) (text : Text) :
    insertedValue state text = state.before ++ text ++ state.behind := by
  rw [insertedValue, take_codeUnitOffset, drop_codeUnitOffset]
  rfl

private theorem insert_refused (h : Refused state text) :
    (composerReducer state (.insert text)).value = state.value ∧
      (composerReducer state (.insert text)).cursorGrapheme = state.cursorGrapheme := by
  unfold Refused at h
  rw [composerReducer, if_pos h]
  exact ⟨rfl, rfl⟩

private theorem insert_accepted (h : ¬Refused state text) :
    (composerReducer state (.insert text)).value = state.before ++ text ++ state.behind ∧
      (composerReducer state (.insert text)).cursorGrapheme =
        state.cursorGrapheme + graphemeCount text := by
  unfold Refused at h
  rw [composerReducer, if_neg h]
  exact ⟨insertedValue_eq state text, rfl⟩

omit [CharacterData] in
private theorem ComposerState.before_append_behind (state : ComposerState) :
    state.before ++ state.behind = state.value := textBefore_append_textBehind _ _

private theorem behind_insert (h : ¬Refused state text)
    (hbehind : (composerReducer state (.insert text)).before = state.before ++ text) :
    (composerReducer state (.insert text)).behind = state.behind := by
  have hsplit := (composerReducer state (.insert text)).before_append_behind
  rw [hbehind, (insert_accepted h).1] at hsplit
  exact List.append_cancel_left hsplit

private theorem insert_together (h : ¬Refused state text)
    (hbehind : (composerReducer state (.insert text)).before = state.before ++ text) (more : Text)
    (hmore : ¬Refused (composerReducer state (.insert text)) more) :
    (composerReducer (composerReducer state (.insert text)) (.insert more)).value =
      (composerReducer state (.insert (text ++ more))).value := by
  have hvalue : insertedValue (composerReducer state (.insert text)) more =
      insertedValue state (text ++ more) := by
    rw [insertedValue_eq, insertedValue_eq, hbehind, behind_insert h hbehind]
    simp only [List.append_assoc]
  have honce : ¬Refused state (text ++ more) := by
    unfold Refused at hmore ⊢
    rwa [hvalue] at hmore
  rw [(insert_accepted hmore).1, (insert_accepted honce).1, ← insertedValue_eq, hvalue,
    insertedValue_eq]

private theorem removeRange_value (state : ComposerState) (start stop : Nat) :
    (removeRange state start stop).value =
      ((graphemes state.value).take (min (graphemeCount state.value) start) ++
        (graphemes state.value).drop (max (min (graphemeCount state.value) start)
          (min (graphemeCount state.value) stop))).flatten := rfl

private theorem removeRange_cursor (state : ComposerState) (start stop : Nat) :
    (removeRange state start stop).cursorGrapheme = min (graphemeCount state.value) start := rfl

private theorem backspace_value_ne (hinside : CursorInside state)
    (hstart : state.cursorGrapheme ≠ 0) :
    (composerReducer state .backspace).value ≠ state.value := by
  unfold CursorInside at hinside
  obtain ⟨cursor, hcursor⟩ := Nat.exists_eq_add_one_of_ne_zero hstart
  have hlt : cursor < (graphemes state.value).length := by
    rw [hcursor] at hinside
    exact hinside
  rw [composerReducer, removeRange_value, hcursor, Nat.add_sub_cancel,
    Nat.min_eq_right (show cursor ≤ graphemeCount state.value from hlt.le),
    Nat.min_eq_right (show cursor + 1 ≤ graphemeCount state.value from hlt),
    Nat.max_eq_right (Nat.le_add_right cursor 1)]
  intro heq
  have hparts : (graphemes state.value).take cursor ++ (graphemes state.value)[cursor] ::
      (graphemes state.value).drop (cursor + 1) = graphemes state.value := by
    rw [← List.drop_eq_getElem_cons hlt, List.take_append_drop]
  have hvalue := flatten_graphemes state.value
  rw [← hparts] at hvalue
  have hlength := congrArg List.length (heq.trans hvalue.symm)
  have hpart := List.length_pos_of_ne_nil (ne_nil_of_mem_graphemes (List.getElem_mem hlt))
  simp only [List.flatten_append, List.flatten_cons, List.length_append] at hlength
  omega

private theorem insertLands_iff (hinside : CursorInside state) (h : ¬Refused state text) :
    InsertLands state text ↔ KeepsGraphemes state text := by
  obtain ⟨hvalue, hcursor⟩ := insert_accepted h
  have hcount : graphemeCount state.before = state.cursorGrapheme :=
    graphemeCount_textBefore hinside
  constructor
  · intro hlands
    have hinside' := hlands.inside
    unfold CursorInside at hinside'
    have hbefore : graphemes (state.before ++ text) =
        (graphemes (composerReducer state (.insert text)).value).take
          (composerReducer state (.insert text)).cursorGrapheme := by
      rw [← hlands.behind]
      exact graphemes_textBefore _ _
    constructor
    · rw [graphemeCount, hbefore, List.length_take_of_le hinside', hcursor, hcount]
    · rw [← hvalue, hbefore]
      exact List.take_prefix _ _
  · intro hkeeps
    have hlength := hkeeps.before
    rw [hcount, ← hcursor] at hlength
    have hprefix := hkeeps.behind
    rw [← hvalue] at hprefix
    have hinside' : CursorInside (composerReducer state (.insert text)) := by
      unfold CursorInside
      rw [← hlength]
      exact hprefix.length_le
    have hbehind : (composerReducer state (.insert text)).before = state.before ++ text := by
      have htake := List.prefix_iff_eq_take.mp hprefix
      rw [ComposerState.before, textBefore, ← hlength]
      exact (congrArg List.flatten htake).symm.trans (flatten_graphemes _)
    exact ⟨hvalue, hinside', hbehind, insert_together h hbehind, backspace_value_ne hinside'⟩

/-! ## Runs -/

/-- The condition on a step: an insert that is not refused keeps the graphemes of its text. -/
def StepKeeps (state : ComposerState) (action : ComposerAction) : Prop :=
  ∀ text, action = .insert text → ¬Refused state text → KeepsGraphemes state text

/-- One step of the composer. -/
def composerStep (state : ComposerState) (action : ComposerAction) : Option ComposerState :=
  some (composerReducer state action)

private theorem moveTo_inside {cursor : Nat} (h : cursor ≤ graphemeCount state.value) :
    CursorInside (moveTo state cursor) := h

private theorem removeRange_inside (state : ComposerState) (start stop : Nat) :
    CursorInside (removeRange state start stop) := by
  unfold CursorInside
  rw [removeRange_cursor, removeRange_value, List.flatten_append]
  have hle : min (graphemeCount state.value) start ≤ graphemeCount state.value :=
    Nat.min_le_left _ _
  calc min (graphemeCount state.value) start
    _ = graphemeCount (textBefore state.value (min (graphemeCount state.value) start)) :=
        (graphemeCount_textBefore hle).symm
    _ ≤ _ := graphemeCount_le_append _ _

private theorem replaceFromHistory_inside (state : ComposerState) (index : Nat) (draft : Text) :
    CursorInside (replaceFromHistory state index draft) := Nat.le_refl _

omit [CharacterData] in
private theorem lineStart_le (state : ComposerState) :
    lineStart state ≤ graphemeCount state.value := by
  have hle := (List.take_sublist state.cursorGrapheme (graphemes state.value)).length_le
  unfold lineStart graphemeCount
  dsimp only
  omega

omit [CharacterData] in
private theorem lineEnd_le (state : ComposerState) (hinside : CursorInside state) :
    lineEnd state ≤ graphemeCount state.value := by
  unfold CursorInside at hinside
  unfold lineEnd
  dsimp only
  split
  · exact Nat.le_refl _
  · next relative h =>
    have hlt := (List.findIdx?_eq_some_iff_findIdx_eq.mp h).1
    rw [List.length_drop] at hlt
    unfold graphemeCount at hinside ⊢
    omega

private theorem composerReducer_inside {action : ComposerAction} (hinside : CursorInside state)
    (hkeeps : StepKeeps state action) : CursorInside (composerReducer state action) := by
  cases action with
  | resize width => exact hinside
  | submitHistory value => exact hinside
  | historyPrevious =>
    rw [composerReducer]
    split
    · exact hinside
    split
    · exact replaceFromHistory_inside _ _ _
    · exact replaceFromHistory_inside _ _ _
  | historyNext =>
    rw [composerReducer]
    split
    · exact hinside
    split
    · exact Nat.le_refl _
    · exact replaceFromHistory_inside _ _ _
  | insert text =>
    by_cases h : Refused state text
    · obtain ⟨hvalue, hcursor⟩ := insert_refused h
      unfold CursorInside
      rw [hvalue, hcursor]
      exact hinside
    · exact ((insertLands_iff hinside h).mpr (hkeeps text rfl h)).inside
  | replace value =>
    rw [composerReducer]
    split
    · exact hinside
    · exact Nat.le_refl _
  | left => exact moveTo_inside (le_trans (Nat.sub_le _ _) hinside)
  | right => exact moveTo_inside (Nat.min_le_left _ _)
  | bufferHome => exact moveTo_inside (Nat.zero_le _)
  | bufferEnd => exact moveTo_inside (Nat.le_refl _)
  | home => exact moveTo_inside (lineStart_le state)
  | lineEnd => exact moveTo_inside (lineEnd_le state hinside)
  | backspace | delete | deleteLineStart | deleteLineEnd | deleteWord =>
    exact removeRange_inside _ _ _

/-- What is promised of a state: the cursor is inside, a refused insert changes nothing, and an
accepted one lands. -/
structure EditsSafely (state : ComposerState) : Prop where
  inside : CursorInside state
  refused : ∀ text, Refused state text →
    (composerReducer state (.insert text)).value = state.value ∧
      (composerReducer state (.insert text)).cursorGrapheme = state.cursorGrapheme
  accepted : ∀ text, ¬Refused state text → InsertLands state text

/-- In a run whose accepted inserts keep the graphemes of their texts, the cursor stays inside,
refused inserts change nothing, and an accepted insert lands exactly when it keeps the graphemes
of its text as well. -/
theorem composer_editsSafely
    (h : Run composerStep StepKeeps initialComposerState state) :
    CursorInside state ∧
      (∀ text, Refused state text →
        (composerReducer state (.insert text)).value = state.value ∧
          (composerReducer state (.insert text)).cursorGrapheme = state.cursorGrapheme) ∧
      ∀ text, ¬Refused state text → (InsertLands state text ↔ KeepsGraphemes state text) := by
  have hinside : CursorInside state := by
    apply h.invariant (I := CursorInside)
    · exact Nat.zero_le _
    · intro before action after hbefore hkeeps hstep
      cases hstep
      exact composerReducer_inside hbefore hkeeps
  exact ⟨hinside, fun _ => insert_refused, fun _ => insertLands_iff hinside⟩

end Editing

section Samples

attribute [local instance] markSegmenter diacriticalData

/-- The cursor stands between two letters. -/
def middleState : ComposerState :=
  composerReducer (composerReducer initialComposerState (.insert ['a', 'd'])) .left

private theorem run_middleState : Run composerStep StepKeeps initialComposerState middleState := by
  have hletters : Run composerStep StepKeeps initialComposerState
      (composerReducer initialComposerState (.insert ['a', 'd'])) := by
    apply Run.single (a := .insert ['a', 'd'])
    · intro text htext _
      cases htext
      exact ⟨by decide, by decide⟩
    · rfl
  exact hletters.next (a := .left) nofun rfl

/-- A letter with an accent and another letter land between the two. -/
theorem composer_editsSafely_sample :
    CursorInside middleState ∧ InsertLands middleState ['b', '\u0301', 'c'] ∧
      (composerReducer middleState (.insert ['b', '\u0301', 'c'])).value =
        ['a', 'b', '\u0301', 'c', 'd'] ∧
      (composerReducer middleState (.insert ['b', '\u0301', 'c'])).cursorGrapheme = 3 := by
  obtain ⟨hinside, -, hlands⟩ := composer_editsSafely run_middleState
  have haccepted : ¬Refused middleState ['b', '\u0301', 'c'] := by
    unfold Refused
    decide
  have hkeeps : KeepsGraphemes middleState ['b', '\u0301', 'c'] := ⟨by decide, by decide⟩
  exact ⟨hinside, (hlands _ haccepted).mpr hkeeps, by decide, by decide⟩

/-- A letter. -/
def letterState : ComposerState := composerReducer initialComposerState (.insert ['e'])

/-- An accent inserted behind its letter moves the cursor behind the end of the value. -/
theorem accent_cursor_outside :
    ¬∀ state, Run composerStep (fun _ _ => True) initialComposerState state →
      EditsSafely state := by
  intro hall
  have hrun : Run composerStep (fun _ _ => True) initialComposerState
      (composerReducer letterState (.insert ['\u0301'])) :=
    (Run.single (a := .insert ['e']) trivial rfl).next (a := .insert ['\u0301']) trivial rfl
  have hinside := (hall _ hrun).inside
  unfold CursorInside at hinside
  revert hinside
  decide

end Samples

end AwesomeAgent.Composer
