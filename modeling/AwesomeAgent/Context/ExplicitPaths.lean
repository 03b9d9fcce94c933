import AwesomeAgent.Context.Sources
import AwesomeAgent.Library.ShellWords

/-!
# Explicit paths of a message

A message of the user names files with words that start with an at sign; `\@` is an at sign
that names none. The parser splits the message with the lexer of a shell, sets the names
apart and joins the other words again.
-/

namespace AwesomeAgent.Context

open Modeling (Text)
open ShellWords

/-- References that a message may have. -/
def maxExplicitPaths : Nat := 32

/-- What stands for `\@` while the lexer reads a message. -/
def escapedAtMark : Text := "__AWESOME_ESCAPED_AT__".toList

/-- A message that names no files the way it should. -/
structure ExplicitPathError where
  message : String
  deriving DecidableEq, Repr

/-- The words of a message outside of references, and the references. -/
structure ParsedExplicitPaths where
  text : Text
  references : List Text
  deriving DecidableEq, Repr

/-- Replace a part of a text from the left, after so many characters of the last one. -/
def replaceAfter (old new : Text) : Nat → Text → Text
  | _, [] => []
  | 0, c :: rest =>
      if old.isPrefixOf (c :: rest) then new ++ replaceAfter old new (old.length - 1) rest
      else c :: replaceAfter old new 0 rest
  | skip + 1, _ :: rest => replaceAfter old new skip rest

/-- A text with all occurrences of a part replaced. -/
def replace (text old new : Text) : Text := replaceAfter old new 0 text

/-- What a character means to the lexer. -/
def characterClass (c : Char) : SymbolClass :=
  if c ∈ [' ', '\t', '\r', '\n'] then .space
  else if c = '\'' then .quote .single
  else if c = '"' then .quote .double
  else if c = '\\' then .escape
  else .ordinary

private theorem characterClass_eq_escape (c : Char) : characterClass c = .escape ↔ c = '\\' := by
  unfold characterClass
  constructor
  · intro h
    repeat' split at h
    all_goals first | assumption | cases h
  · rintro rfl
    rfl

/-- The characters of messages. -/
def characters : Alphabet Char := ⟨characterClass, '\\', characterClass_eq_escape⟩

/-- A list of references with one more, unless it is known. -/
def addReference (references : List Text) (reference : Text) : List Text :=
  if reference ∈ references then references else references ++ [reference]

/-- Sort a token to the references or to the other words. -/
def sortToken (sorted : List Text × List Text) (token : Text) : List Text × List Text :=
  let restored := replace token escapedAtMark ['@']
  if ['@'].isPrefixOf token then
    let reference := restored.drop 1
    if reference = [] then (sorted.1, sorted.2 ++ [restored])
    else (addReference sorted.1 reference, sorted.2)
  else (sorted.1, sorted.2 ++ [restored])

/-- Set the references of a message apart. -/
def parseExplicitPaths (text : Text) : Except ExplicitPathError ParsedExplicitPaths :=
  match characters.split (replace text "\\@".toList escapedAtMark) with
  | none => .error ⟨"Explicit path quoting is invalid."⟩
  | some tokens =>
      let sorted := tokens.foldl sortToken ([], [])
      if maxExplicitPaths < sorted.1.length then
        .error ⟨"At most 32 explicit paths are allowed."⟩
      else .ok ⟨" ".toList.intercalate sorted.2, sorted.1⟩

example : parseExplicitPaths
    "inspect @src/main.py \"@docs/design notes.md\" @src/main.py literal \\@owner".toList =
      .ok ⟨"inspect literal @owner".toList,
        ["src/main.py".toList, "docs/design notes.md".toList]⟩ := rfl

/-! ## Messages as symbols -/

/-- A character of a message, or an escaped at sign. -/
inductive MessageSymbol
  | plain (c : Char)
  | escapedAt
  deriving DecidableEq, Repr

namespace MessageSymbol

/-- The character that a symbol is read as. -/
def read : MessageSymbol → Char
  | .plain c => c
  | .escapedAt => '@'

/-- What the lexer reads for a symbol. -/
def spell : MessageSymbol → Text
  | .plain c => [c]
  | .escapedAt => escapedAtMark

/-- What a symbol means to the lexer. -/
def kind : MessageSymbol → SymbolClass
  | .plain c => characterClass c
  | .escapedAt => .ordinary

private theorem kind_eq_escape (s : MessageSymbol) : s.kind = .escape ↔ s = .plain '\\' := by
  cases s with
  | plain c =>
    rw [kind, characterClass_eq_escape]
    exact ⟨congrArg plain, plain.inj⟩
  | escapedAt => exact ⟨nofun, nofun⟩

end MessageSymbol

/-- The symbols of a message. -/
def symbols : Text → List MessageSymbol
  | '\\' :: '@' :: rest => .escapedAt :: symbols rest
  | c :: rest => .plain c :: symbols rest
  | [] => []

/-- A message with its escaped at signs read. -/
def unescape (text : Text) : Text := (symbols text).map MessageSymbol.read

/-- The alphabet of symbols. -/
def messageSymbols : Alphabet MessageSymbol :=
  ⟨MessageSymbol.kind, .plain '\\', MessageSymbol.kind_eq_escape⟩

/-- Symbols are spelled with characters. -/
def messageSpelling : Spelling messageSymbols characters where
  spell := MessageSymbol.spell
  special := by
    intro s hs
    cases s with
    | plain c => exact ⟨c, rfl, rfl⟩
    | escapedAt => exact absurd rfl hs
  ordinary := by
    intro s hs
    cases s with
    | plain c => exact ⟨List.cons_ne_nil _ _, List.forall_mem_singleton.mpr hs⟩
    | escapedAt =>
      have hmark : (escapedAtMark.all fun c => decide (characterClass c = .ordinary)) = true := rfl
      exact ⟨List.cons_ne_nil _ _, fun c hc => of_decide_eq_true (List.all_eq_true.mp hmark c hc)⟩

/-! ## Replacing -/

private theorem replace_escapedAt (text : Text) :
    replace text "\\@".toList escapedAtMark = (symbols text).flatMap messageSpelling.spell := by
  unfold replace
  fun_induction symbols text with
  | case1 rest ih =>
    have hmatch : "\\@".toList.isPrefixOf ('\\' :: '@' :: rest) = true := rfl
    rw [replaceAfter, if_pos hmatch, List.flatMap_cons, ← ih]
    rfl
  | case2 c rest hother ih =>
    have hmatch : ¬ "\\@".toList.isPrefixOf (c :: rest) = true := by
      intro hprefix
      obtain ⟨later, hlater⟩ := List.isPrefixOf_iff_prefix.mp hprefix
      obtain ⟨rfl, hrest⟩ := List.cons.inj hlater
      exact hother later rfl hrest.symm
    rw [replaceAfter, if_neg hmatch, List.flatMap_cons, ← ih]
    rfl
  | case3 => rfl

private theorem countP_replaceAfter {p : Char → Bool} {first : Char} {more new : Text}
    (hold : ∀ c ∈ first :: more, p c = false) (hnew : ∀ c ∈ new, p c = false) (skip : Nat)
    (text : Text) (hskip : ∀ c ∈ text.take skip, p c = false) :
    (replaceAfter (first :: more) new skip text).countP p = text.countP p := by
  induction text generalizing skip with
  | nil => cases skip <;> rfl
  | cons c rest ih =>
    cases skip with
    | zero =>
      unfold replaceAfter
      split
      · next hmatch =>
        obtain ⟨later, hlater⟩ := List.isPrefixOf_iff_prefix.mp hmatch
        obtain ⟨rfl, rfl⟩ := List.cons.inj hlater
        have hnone : new.countP p = 0 :=
          List.countP_eq_zero.mpr fun d hd => Bool.eq_false_iff.mp (hnew d hd)
        have hmore : ∀ d ∈ (more ++ later).take more.length, p d = false := by
          rw [List.take_left]
          exact fun d hd => hold d (List.mem_cons_of_mem _ hd)
        rw [List.countP_append, hnone, Nat.zero_add, List.length_cons, Nat.add_sub_cancel,
          ih _ hmore,
          List.countP_cons_of_neg (Bool.eq_false_iff.mp (hold first List.mem_cons_self))]
      · rw [List.countP_cons, List.countP_cons, ih 0 (List.forall_mem_nil _)]
    | succ skip =>
      rw [List.take_succ_cons] at hskip
      unfold replaceAfter
      rw [ih skip fun d hd => hskip d (List.mem_cons_of_mem c hd),
        List.countP_cons_of_neg (Bool.eq_false_iff.mp (hskip c List.mem_cons_self))]

private theorem countP_restore (token : Text) :
    (replace token escapedAtMark ['@']).countP characters.special =
      token.countP characters.special := by
  have hmark : (escapedAtMark.all fun c => !characters.special c) = true := rfl
  refine countP_replaceAfter (fun c hc => ?_) (List.forall_mem_singleton.mpr rfl) 0 token
    (List.forall_mem_nil _)
  exact (Bool.not_eq_true' _).mp (List.all_eq_true.mp hmark c hc)

private theorem replace_at (token : Text) : replace ('@' :: token) escapedAtMark ['@'] =
    '@' :: replace token escapedAtMark ['@'] := rfl

private theorem replace_eq_nil_iff {token : Text} :
    replace token escapedAtMark ['@'] = [] ↔ token = [] := by
  constructor
  · intro h
    cases token with
    | nil => rfl
    | cons c rest =>
      unfold replace replaceAfter at h
      split at h <;> cases h
  · rintro rfl
    rfl

/-! ## References -/

/-- Whether a word names a file. -/
def isReference : List MessageSymbol → Bool
  | .plain '@' :: _ :: _ => true
  | _ => false

/-- The word that the parser keeps for what a lexeme says. -/
def restored (value : List MessageSymbol) : Text :=
  replace (value.flatMap messageSpelling.spell) escapedAtMark ['@']

/-- The references of a message, each once. -/
def references (lexemes : List (Lexeme MessageSymbol)) : List Text :=
  (lexemes.filter fun w => isReference w.value).foldl
    (fun known w => addReference known ((restored w.value).drop 1)) []

/-- The other words of a message, each after a space. -/
def keptText : List (Lexeme MessageSymbol) → Text
  | [] => []
  | w :: rest =>
      if isReference w.value then keptText rest else ' ' :: restored w.value ++ keptText rest

/-- How a token is sorted. -/
theorem sortToken_spell (sorted : List Text × List Text) (value : List MessageSymbol) :
    sortToken sorted (value.flatMap messageSpelling.spell) =
      if isReference value then (addReference sorted.1 ((restored value).drop 1), sorted.2)
      else (sorted.1, sorted.2 ++ [restored value]) := by
  have hplain (token : Text) (h : ['@'].isPrefixOf token = false) : sortToken sorted token =
      (sorted.1, sorted.2 ++ [replace token escapedAtMark ['@']]) := by
    rw [sortToken, h]
    rfl
  cases value with
  | nil => exact hplain [] rfl
  | cons s rest =>
    cases s with
    | escapedAt => exact hplain _ rfl
    | plain c =>
      by_cases hat : c = '@'
      · subst hat
        cases rest with
        | nil => rfl
        | cons t more =>
          have hspell : (MessageSymbol.plain '@' :: t :: more).flatMap messageSpelling.spell =
              '@' :: (t :: more).flatMap messageSpelling.spell := rfl
          have hname : (restored (.plain '@' :: t :: more)).drop 1 ≠ [] := by
            intro hnone
            rw [restored, hspell, replace_at, List.drop_one, List.tail_cons,
              replace_eq_nil_iff] at hnone
            cases t <;> cases hnone
          have hfirst : ['@'].isPrefixOf
              ((MessageSymbol.plain '@' :: t :: more).flatMap messageSpelling.spell) = true := rfl
          rw [sortToken, if_pos hfirst]
          exact if_neg hname
      · have hfirst : ['@'].isPrefixOf
            ((MessageSymbol.plain c :: rest).flatMap messageSpelling.spell) = false := by
          have hspell : (MessageSymbol.plain c :: rest).flatMap messageSpelling.spell =
              c :: rest.flatMap messageSpelling.spell := rfl
          rw [hspell, List.isPrefixOf, beq_eq_false_iff_ne.mpr fun h => hat h.symm, Bool.false_and]
        have hnone : isReference (.plain c :: rest) = false := by
          unfold isReference
          split
          · next heq => exact absurd (MessageSymbol.plain.inj (List.cons.inj heq).1) hat
          · rfl
        rw [hplain _ hfirst, hnone]
        rfl

private theorem foldl_sortToken (lexemes : List (Lexeme MessageSymbol)) (known natural : List Text)
    :
    (lexemes.map fun w => w.value.flatMap messageSpelling.spell).foldl sortToken (known, natural) =
      ((lexemes.filter fun w => isReference w.value).foldl
          (fun known w => addReference known ((restored w.value).drop 1)) known,
        natural ++ (lexemes.filter fun w => !isReference w.value).map
          fun w => restored w.value) := by
  induction lexemes generalizing known natural with
  | nil => rw [List.filter_nil, List.filter_nil, List.map_nil, List.map_nil, List.append_nil]; rfl
  | cons w rest ih =>
    rw [List.map_cons, List.foldl_cons, sortToken_spell]
    by_cases hreference : isReference w.value = true
    · rw [if_pos hreference, ih, List.filter_cons, List.filter_cons, hreference]
      rfl
    · rw [if_neg hreference, ih, List.filter_cons, List.filter_cons,
        Bool.eq_false_iff.mpr hreference, List.append_assoc]
      rfl

private theorem intercalate_space (words : List Text) :
    " ".toList.intercalate words = (words.flatMap fun word => ' ' :: word).drop 1 := by
  cases words with
  | nil => rfl
  | cons first rest =>
    rw [List.flatMap_cons, List.cons_append, List.drop_one, List.tail_cons]
    induction rest generalizing first with
    | nil => rw [List.intercalate_singleton, List.flatMap_nil, List.append_nil]
    | cons second more ih =>
      rw [List.intercalate_cons_cons, ih, List.flatMap_cons]
      exact List.append_assoc _ _ _

private theorem keptText_eq (lexemes : List (Lexeme MessageSymbol)) : keptText lexemes =
    ((lexemes.filter fun w => !isReference w.value).map fun w => restored w.value).flatMap
      fun word => ' ' :: word := by
  induction lexemes with
  | nil => rfl
  | cons w rest ih =>
    unfold keptText
    by_cases hreference : isReference w.value = true
    · rw [if_pos hreference, ih, List.filter_cons, hreference]
      rfl
    · rw [if_neg hreference, ih, List.filter_cons, Bool.eq_false_iff.mpr hreference]
      rfl

private theorem parseExplicitPaths_eq (text : Text) : parseExplicitPaths text =
    match messageSymbols.lex (symbols text) with
    | none => .error ⟨"Explicit path quoting is invalid."⟩
    | some lexed =>
        if maxExplicitPaths < (references lexed.lexemes).length then
          .error ⟨"At most 32 explicit paths are allowed."⟩
        else .ok ⟨(keptText lexed.lexemes).drop 1, references lexed.lexemes⟩ := by
  unfold parseExplicitPaths Alphabet.split
  rw [replace_escapedAt, messageSpelling.lex_flatMap]
  cases messageSymbols.lex (symbols text) with
  | none => rfl
  | some lexed =>
    have htokens : ((lexed.flatMap messageSpelling.spell).lexemes.map fun w => w.value) =
        lexed.lexemes.map fun w => w.value.flatMap messageSpelling.spell := List.map_map
    dsimp only [Option.map_some]
    rw [htokens, foldl_sortToken, List.nil_append, intercalate_space, ← keptText_eq]
    rfl

/-! ## What is left of prose -/

/-- Whether a word of a message starts with an at sign, after nothing but quotes. -/
def mentions (fresh : Bool) : List MessageSymbol → Bool
  | [] => false
  | s :: rest =>
      (fresh && decide (s = .plain '@')) ||
        mentions (decide (s.kind = .space) ||
          fresh && decide (s.kind = .quote .single ∨ s.kind = .quote .double)) rest

/-- What stands before a word: the start of the message, another word or a reference. -/
inductive Before
  | start
  | word
  | reference
  deriving DecidableEq, Repr

/-- What is kept between a word and what stands before it; a reference leaves one space. -/
def Before.gap (gap : List MessageSymbol) : Before → List MessageSymbol
  | .start => .plain ' ' :: gap
  | .word => gap
  | .reference => [.plain ' ']

/-- What stands outside of references, each stretch after a space. -/
def outsideFrom (trailing : List MessageSymbol) :
    Before → List (Lexeme MessageSymbol) → List MessageSymbol
  | .start, [] => .plain ' ' :: trailing
  | .word, [] => trailing
  | .reference, [] => []
  | before, w :: rest =>
      if isReference w.value then outsideFrom trailing .reference rest
      else before.gap w.gap ++ w.source ++ outsideFrom trailing .word rest

/-- The text of a message outside of its references, stretches joined by a space. -/
def outside (lexed : Lexed MessageSymbol) : Text :=
  ((outsideFrom lexed.trailing .start lexed.lexemes).drop 1).map MessageSymbol.read

/-- Prose stays as it is, and so does what stands outside of at most 32 references. -/
structure LeavesProse (text : Text) : Prop where
  prose : mentions true (symbols text) = false →
    parseExplicitPaths text = .ok ⟨unescape text, []⟩
  outside : ∃ lexed, messageSymbols.lex (symbols text) = some lexed ∧
    (maxExplicitPaths < (references lexed.lexemes).length ∨
      ∃ names, parseExplicitPaths text = .ok ⟨outside lexed, names⟩)

/-- Whether the gap before a word is what the parser puts there. -/
def Before.Plain (gap : List MessageSymbol) : Before → Prop
  | .start => gap = []
  | .word => gap = [.plain ' ']
  | .reference => True

/-- Words without quotes and escapes and without the mark, with single spaces between them. -/
def PlainFrom (trailing : List MessageSymbol) :
    Before → List (Lexeme MessageSymbol) → Prop
  | .start, [] | .word, [] => trailing = []
  | .reference, [] => True
  | before, w :: rest =>
      if isReference w.value then PlainFrom trailing .reference rest
      else before.Plain w.gap ∧ (∀ s ∈ w.source, s.kind = .ordinary) ∧
        replace (w.source.flatMap MessageSymbol.spell) escapedAtMark ['@'] =
          w.source.map MessageSymbol.read ∧
        PlainFrom trailing .word rest

/-- A message with balanced quotes that has too many references or is plain outside of them. -/
def PlainMessage (text : Text) : Prop :=
  ∃ lexed, messageSymbols.lex (symbols text) = some lexed ∧
    (maxExplicitPaths < (references lexed.lexemes).length ∨
      PlainFrom lexed.trailing .start lexed.lexemes)

/-! ## Words apart -/

/-- Whether a character means anything to the lexer. -/
abbrev isSpecial : Char → Bool := characters.special

private theorem special_read (s : MessageSymbol) : isSpecial s.read = messageSymbols.special s := by
  cases s <;> rfl

private theorem countP_read (text : List MessageSymbol) :
    (text.map MessageSymbol.read).countP isSpecial = text.countP messageSymbols.special := by
  rw [List.countP_map]
  exact List.countP_congr fun s _ => by rw [Function.comp_apply, special_read]

private theorem countP_restored (value : List MessageSymbol) :
    (restored value).countP isSpecial = value.countP messageSymbols.special := by
  rw [restored, countP_restore]
  induction value with
  | nil => rfl
  | cons s rest ih =>
    have hs : (messageSpelling.spell s).countP isSpecial = [s].countP messageSymbols.special := by
      cases s with
      | plain c => rfl
      | escapedAt => decide
    rw [List.flatMap_cons, List.countP_append, ih, hs, ← List.countP_append, List.singleton_append]

/-- A text that is empty or goes on with a special character. -/
def Breaks (text : Text) : Prop := ∀ c ∈ text.head?, isSpecial c = true

private theorem append_inj_of_breaks {a b r t : Text} (ha : a.countP isSpecial = 0)
    (hb : b.countP isSpecial = 0) (hr : Breaks r) (ht : Breaks t) (h : a ++ r = b ++ t) :
    a = b ∧ r = t := by
  induction a generalizing b with
  | nil =>
    cases b with
    | nil => exact ⟨rfl, h⟩
    | cons d rest =>
      have hd := hr d (by rw [List.nil_append] at h; rw [h]; rfl)
      rw [List.countP_cons_of_pos hd] at hb
      cases hb
  | cons c more ih =>
    cases b with
    | nil =>
      have hc := ht c (by rw [List.nil_append] at h; rw [← h]; rfl)
      rw [List.countP_cons_of_pos hc] at ha
      cases ha
    | cons d rest =>
      obtain ⟨rfl, hrest⟩ := List.cons.inj h
      rw [List.countP_cons] at ha hb
      obtain ⟨rfl, hsame⟩ := ih (by omega) (by omega) hrest
      exact ⟨rfl, hsame⟩

/-- What the lexer says of words and the gaps between them. -/
structure Proper (trailing : List MessageSymbol) (before : Before)
    (lexemes : List (Lexeme MessageSymbol)) : Prop where
  words : ∀ w ∈ lexemes,
    w.value.countP messageSymbols.special ≤ w.source.countP messageSymbols.special ∧
      (w.value.countP messageSymbols.special = w.source.countP messageSymbols.special →
        w.source = w.value ∧ ∀ s ∈ w.source, s.kind = .ordinary)
  gaps : ∀ w ∈ lexemes, ∀ s ∈ w.gap, s.kind = .space
  apart : ∀ w ∈ lexemes.tail, w.gap ≠ []
  after : before ≠ .start → ∀ w ∈ lexemes, w.gap ≠ []
  trailing : ∀ s ∈ trailing, s.kind = .space

private theorem Proper.rest {trailing : List MessageSymbol} {before : Before}
    {w : Lexeme MessageSymbol}
    {rest : List (Lexeme MessageSymbol)} (h : Proper trailing before (w :: rest))
    (later : Before) : Proper trailing later rest where
  words := (List.forall_mem_cons.mp h.words).2
  gaps := (List.forall_mem_cons.mp h.gaps).2
  apart := fun v hv => h.apart v (List.mem_of_mem_tail hv)
  after := fun _ => h.apart
  trailing := h.trailing

variable {lexed : Lexed MessageSymbol} {s : MessageSymbol} {gap trailing : List MessageSymbol}
  {before : Before} {w : Lexeme MessageSymbol} {lexemes : List (Lexeme MessageSymbol)}

private theorem proper_lex {text : List MessageSymbol}
    (h : messageSymbols.lex text = some lexed) : Proper lexed.trailing .start lexed.lexemes := by
  obtain ⟨hgaps, hapart, htrailing⟩ := Alphabet.lex_spaces h
  exact ⟨Alphabet.scan_special h, hgaps, hapart, fun hstart => absurd rfl hstart, htrailing⟩

private theorem special_of_space (h : s.kind = .space) :
    messageSymbols.special s = true := by
  have hkind : messageSymbols.kind s = .space := h
  exact decide_eq_true (hkind ▸ nofun)

private theorem countP_spaces (h : ∀ s ∈ gap, s.kind = .space) :
    gap.countP messageSymbols.special = gap.length :=
  List.countP_eq_length.mpr fun s hs => special_of_space (h s hs)

private theorem countP_ordinary {source : List MessageSymbol} (h : ∀ s ∈ source, s.kind = .ordinary)
    :
    source.countP messageSymbols.special = 0 :=
  List.countP_eq_zero.mpr fun s hs => by
    have hkind : messageSymbols.kind s = .ordinary := h s hs
    rw [Alphabet.special, hkind]
    decide

private theorem Proper.gap_special {rest : List (Lexeme MessageSymbol)}
    (h : Proper trailing before (w :: rest)) :
    1 ≤ (before.gap w.gap).countP messageSymbols.special ∧
      ((before.gap w.gap).countP messageSymbols.special = 1 →
        ∃ s, before.gap w.gap = [s] ∧ (before.Plain w.gap ↔ s = .plain ' ')) := by
  have hgap := h.gaps w List.mem_cons_self
  cases before with
  | start =>
    rw [Before.gap, List.countP_cons_of_pos (special_of_space rfl), countP_spaces hgap]
    refine ⟨by omega, fun hone => ⟨.plain ' ', ?_⟩⟩
    have hnone : w.gap = [] := List.length_eq_zero_iff.mp (by omega)
    rw [hnone]
    exact ⟨rfl, fun _ => rfl, fun _ => rfl⟩
  | word =>
    rw [Before.gap, countP_spaces hgap]
    refine ⟨List.length_pos_of_ne_nil (h.after nofun w List.mem_cons_self), fun hone => ?_⟩
    obtain ⟨s, hs⟩ := List.length_eq_one_iff.mp hone
    refine ⟨s, hs, ?_⟩
    rw [Before.Plain, hs]
    exact ⟨fun heq => (List.cons.inj heq).1, fun heq => by rw [heq]⟩
  | reference => exact ⟨Nat.le_refl _, fun _ => ⟨.plain ' ', rfl, fun _ => rfl, fun _ => trivial⟩⟩

private theorem keptText_cons_word (hw : ¬ isReference w.value = true)
    (rest : List (Lexeme MessageSymbol)) :
    keptText (w :: rest) = ' ' :: (restored w.value ++ keptText rest) := by
  rw [keptText, if_neg hw, List.cons_append]

private theorem outsideFrom_cons (trailing : List MessageSymbol) (before : Before)
    (w : Lexeme MessageSymbol) (rest : List (Lexeme MessageSymbol)) :
    outsideFrom trailing before (w :: rest) =
      if isReference w.value then outsideFrom trailing .reference rest
      else before.gap w.gap ++ w.source ++ outsideFrom trailing .word rest := by
  cases before <;> rw [outsideFrom]

private theorem plainFrom_cons (trailing : List MessageSymbol) (before : Before)
    (w : Lexeme MessageSymbol) (rest : List (Lexeme MessageSymbol)) :
    PlainFrom trailing before (w :: rest) =
      if isReference w.value then PlainFrom trailing .reference rest
      else before.Plain w.gap ∧ (∀ s ∈ w.source, s.kind = .ordinary) ∧
        replace (w.source.flatMap MessageSymbol.spell) escapedAtMark ['@'] =
          w.source.map MessageSymbol.read ∧
        PlainFrom trailing .word rest := by
  cases before <;> rw [PlainFrom]

private theorem countP_keptText (h : Proper trailing before lexemes) :
    (keptText lexemes).countP isSpecial ≤
      (outsideFrom trailing before lexemes).countP messageSymbols.special := by
  induction lexemes generalizing before with
  | nil => exact Nat.zero_le _
  | cons w rest ih =>
    rw [outsideFrom_cons]
    by_cases hreference : isReference w.value = true
    · rw [if_pos hreference, keptText, if_pos hreference]
      exact ih (h.rest .reference)
    · have hgap := h.gap_special.1
      have hword := (h.words w List.mem_cons_self).1
      have hrest := ih (h.rest .word)
      rw [if_neg hreference, keptText_cons_word hreference,
        List.countP_cons_of_pos (by decide : isSpecial ' ' = true), List.countP_append,
        countP_restored, List.countP_append, List.countP_append]
      omega

private theorem breaks_keptText (lexemes : List (Lexeme MessageSymbol)) : Breaks (keptText lexemes)
    := by
  induction lexemes with
  | nil => exact nofun
  | cons w rest ih =>
    by_cases hreference : isReference w.value = true
    · rwa [keptText, if_pos hreference]
    · rw [keptText_cons_word hreference]
      rintro c hc
      obtain rfl := Option.some.inj hc
      decide

private theorem breaks_outsideFrom (h : Proper trailing before lexemes) :
    Breaks ((outsideFrom trailing before lexemes).map MessageSymbol.read) := by
  have hspaces {gap rest : List MessageSymbol} (hgap : ∀ s ∈ gap, s.kind = .space)
      (hnonempty : gap ≠ [] ∨ rest = []) : Breaks ((gap ++ rest).map MessageSymbol.read) := by
    intro c hc
    cases gap with
    | nil =>
      rw [hnonempty.resolve_left (fun hne => hne rfl)] at hc
      cases hc
    | cons s more =>
      obtain rfl := Option.some.inj hc
      rw [special_read]
      exact special_of_space (hgap s List.mem_cons_self)
  have hspace (rest : List MessageSymbol) :
      Breaks ((.plain ' ' :: rest).map MessageSymbol.read) := by
    intro c hc
    obtain rfl := Option.some.inj hc
    decide
  induction lexemes generalizing before with
  | nil =>
    cases before with
    | start => exact hspace trailing
    | word =>
      rw [outsideFrom, ← List.append_nil trailing]
      exact hspaces h.trailing (Or.inr rfl)
    | reference => exact nofun
  | cons w rest ih =>
    rw [outsideFrom_cons]
    by_cases hreference : isReference w.value = true
    · rw [if_pos hreference]
      exact ih (h.rest .reference)
    · rw [if_neg hreference, List.append_assoc]
      cases before with
      | start | reference => exact hspace _
      | word =>
        exact hspaces (h.gaps w List.mem_cons_self)
          (Or.inl (h.after nofun w List.mem_cons_self))

private theorem read_eq_space (h : s.read = ' ') : s = .plain ' ' := by
  cases s with
  | plain c => exact congrArg _ h
  | escapedAt => cases h

private theorem Before.Plain.gap_eq (h : before.Plain gap) : before.gap gap = [.plain ' '] := by
  cases before with
  | start => rw [Before.gap, h]
  | word => exact h
  | reference => rfl

/-- The parser keeps what stands outside of references if and only if that is plain. -/
theorem keptText_eq_outside_iff (h : Proper trailing before lexemes)
    (hstart : before = .start → lexemes ≠ []) :
    keptText lexemes = (outsideFrom trailing before lexemes).map MessageSymbol.read ↔
      PlainFrom trailing before lexemes := by
  induction lexemes generalizing before with
  | nil =>
    cases before with
    | start => exact absurd rfl (hstart rfl)
    | word =>
      rw [keptText, outsideFrom, PlainFrom, eq_comm, List.map_eq_nil_iff]
    | reference => exact ⟨fun _ => trivial, fun _ => rfl⟩
  | cons w rest ih =>
    rw [outsideFrom_cons, plainFrom_cons]
    by_cases hreference : isReference w.value = true
    · rw [if_pos hreference, if_pos hreference, keptText, if_pos hreference]
      exact ih (h.rest .reference) nofun
    rw [if_neg hreference, if_neg hreference, keptText_cons_word hreference]
    have hrest := ih (h.rest .word) nofun
    obtain ⟨hword, hplain⟩ := h.words w List.mem_cons_self
    obtain ⟨hgap, hone⟩ := h.gap_special
    constructor
    · intro heq
      have hcount := congrArg (List.countP isSpecial) heq
      rw [countP_read, List.countP_cons_of_pos (by decide : isSpecial ' ' = true),
        List.countP_append, countP_restored, List.countP_append, List.countP_append] at hcount
      have hle := countP_keptText (h.rest .word)
      obtain ⟨hsame, hordinary⟩ := hplain (by omega)
      obtain ⟨s, hs, hiff⟩ := hone (by omega)
      rw [hs, List.append_assoc, List.singleton_append, List.map_cons, List.map_append] at heq
      obtain ⟨hspace, heq⟩ := List.cons.inj heq
      have hnone := countP_ordinary hordinary
      obtain ⟨hvalue, htail⟩ := append_inj_of_breaks (by rw [countP_restored]; omega)
        (by rw [countP_read]; exact hnone) (breaks_keptText rest)
        (breaks_outsideFrom (h.rest .word)) heq
      refine ⟨hiff.mpr (read_eq_space hspace.symm), hordinary, ?_, hrest.mp htail⟩
      rw [← hvalue, hsame]
      rfl
    · rintro ⟨hbefore, hordinary, hrestores, htail⟩
      have hnone := countP_ordinary hordinary
      obtain ⟨hsame, -⟩ := hplain (by omega)
      have hrestored : restored w.value = w.source.map MessageSymbol.read := by
        rw [← hrestores, hsame]
        rfl
      rw [hbefore.gap_eq, hrestored, hrest.mpr htail, List.append_assoc, List.map_append,
        List.map_append]
      rfl

/-! ## Messages without references -/

private theorem head?_symbols {text : Text} (h : (symbols text).head? = some (.plain '@')) :
    text.head? = some '@' := by
  fun_cases symbols text with
  | case1 rest =>
    rw [symbols, List.head?_cons] at h
    cases h
  | case2 c rest hother =>
    rw [symbols, List.head?_cons] at h
    · exact congrArg some (MessageSymbol.plain.inj (Option.some.inj h))
    · exact hother
  | case3 => cases h

private theorem not_infix_symbols (text : Text) :
    ¬ [messageSymbols.escape, .plain '@'] <:+: symbols text := by
  fun_induction symbols text with
  | case1 rest ih =>
    intro h
    rcases List.infix_cons_iff.mp h with hprefix | hinfix
    · obtain ⟨_, hsame⟩ := hprefix
      cases hsame
    · exact ih hinfix
  | case2 c rest hother ih =>
    intro h
    rcases List.infix_cons_iff.mp h with ⟨later, hsame⟩ | hinfix
    · obtain ⟨hc, hrest⟩ := List.cons.inj hsame
      have hhead : rest.head? = some '@' := head?_symbols (by rw [← hrest]; rfl)
      obtain ⟨more, rfl⟩ : ∃ more, rest = '@' :: more := by
        cases rest with
        | nil => cases hhead
        | cons d more => exact ⟨more, by rw [Option.some.inj hhead]⟩
      exact hother more (MessageSymbol.plain.inj hc).symm rfl
    · exact ih hinfix
  | case3 =>
    intro h
    cases List.infix_nil.mp h

private theorem mentions_quotes {quotes rest : List MessageSymbol}
    (hquotes : ∀ s ∈ quotes, ∃ q, s.kind = .quote q) :
    mentions true (quotes ++ .plain '@' :: rest) = true := by
  induction quotes with
  | nil => rfl
  | cons s more ih =>
    obtain ⟨q, hq⟩ := hquotes s List.mem_cons_self
    have hquote : decide (s.kind = .quote .single ∨ s.kind = .quote .double) = true := by
      rw [hq]
      cases q <;> rfl
    rw [List.cons_append, mentions, hquote, Bool.true_and, Bool.true_and, Bool.or_true,
      ih fun t ht => hquotes t (List.mem_cons_of_mem s ht), Bool.or_true]

private theorem mentions_after_space (fresh : Bool) (earlier : List MessageSymbol)
    (hs : s.kind = .space) {later : List MessageSymbol} (h : mentions true later = true) :
    mentions fresh (earlier ++ s :: later) = true := by
  induction earlier generalizing fresh with
  | nil => rw [List.nil_append, mentions, decide_eq_true hs, Bool.true_or, h, Bool.or_true]
  | cons t more ih => rw [List.cons_append, mentions, ih, Bool.or_true]

private theorem mentions_of_isReference {text : Text}
    (h : messageSymbols.lex (symbols text) = some lexed)
    (hw : w ∈ lexed.lexemes) (hreference : isReference w.value = true) :
    mentions true (symbols text) = true := by
  have hrender := Alphabet.lex_render h
  obtain ⟨hgaps, hapart, -⟩ := Alphabet.lex_spaces h
  obtain ⟨earlier, later, hsplit⟩ := List.append_of_mem hw
  have hhead : w.value.head? = some (.plain '@') := by
    unfold isReference at hreference
    split at hreference
    · next heq => rw [heq]; rfl
    · cases hreference
  obtain ⟨rest, htext⟩ : ∃ rest, symbols text =
      (earlier.flatMap fun l => l.gap ++ l.source) ++ w.gap ++ (w.source ++ rest) := by
    refine ⟨(later.flatMap fun l => l.gap ++ l.source) ++ lexed.trailing, ?_⟩
    rw [← hrender, Lexed.render, hsplit, List.flatMap_append, List.flatMap_cons]
    simp only [List.append_assoc]
  have hstarts := Alphabet.lex_startsWith h rfl w hw hhead
  have hmentions (rest : List MessageSymbol) : mentions true (w.source ++ rest) = true := by
    rcases hstarts with hescaped | ⟨quotes, more, hsource, hquotes⟩
    · refine absurd (hescaped.trans ?_) (not_infix_symbols text)
      rw [htext]
      exact (List.prefix_append _ _).isInfix.trans (List.suffix_append _ _).isInfix
    · rw [hsource, List.append_assoc, List.cons_append]
      exact mentions_quotes hquotes
  rw [htext]
  rcases List.eq_nil_or_concat w.gap with hnone | ⟨front, s, hgap⟩
  · cases earlier with
    | nil =>
      rw [hnone]
      exact hmentions _
    | cons first rest =>
      refine absurd hnone (hapart w ?_)
      rw [hsplit]
      exact List.mem_append_right _ List.mem_cons_self
  · have hs : s.kind = .space := hgaps w hw s (by rw [hgap]; simp)
    have hlast : ∀ e : List MessageSymbol, e ++ w.gap ++ (w.source ++ rest) =
        (e ++ front) ++ s :: (w.source ++ rest) := fun e => by rw [hgap]; simp
    rw [hlast]
    exact mentions_after_space true _ hs (hmentions rest)

private theorem outsideFrom_of_no_reference (trailing : List MessageSymbol)
    (h : ∀ w ∈ lexemes, isReference w.value = false) :
    outsideFrom trailing .word lexemes =
      (lexemes.flatMap fun l => l.gap ++ l.source) ++ trailing := by
  induction lexemes with
  | nil => rfl
  | cons w rest ih =>
    obtain ⟨hw, hrest⟩ := List.forall_mem_cons.mp h
    rw [outsideFrom_cons, hw, if_neg Bool.false_ne_true, ih hrest, List.flatMap_cons, Before.gap,
      List.append_assoc _ _ trailing]

private theorem outside_of_no_reference (h : ∀ w ∈ lexed.lexemes, isReference w.value = false) :
    outside lexed = lexed.render.map MessageSymbol.read := by
  have hall : outsideFrom lexed.trailing .start lexed.lexemes = .plain ' ' :: lexed.render := by
    cases hlexemes : lexed.lexemes with
    | nil => rw [outsideFrom, Lexed.render, hlexemes]; rfl
    | cons w rest =>
      rw [hlexemes] at h
      obtain ⟨hw, hrest⟩ := List.forall_mem_cons.mp h
      rw [outsideFrom_cons, hw, if_neg Bool.false_ne_true, outsideFrom_of_no_reference _ hrest,
        Lexed.render, hlexemes, List.flatMap_cons, Before.gap]
      simp only [List.cons_append, List.append_assoc]
  rw [outside, hall]
  rfl

private theorem keptText_outsideFrom (trailing : List MessageSymbol) (hbefore : before ≠ .word)
    (hstart : before = .start → lexemes ≠ []) :
    (keptText lexemes = [] ∧ outsideFrom trailing before lexemes = []) ∨
      ∃ k o, keptText lexemes = ' ' :: k ∧
        outsideFrom trailing before lexemes = .plain ' ' :: o := by
  induction lexemes generalizing before with
  | nil =>
    cases before with
    | start => exact absurd rfl (hstart rfl)
    | word => exact absurd rfl hbefore
    | reference => exact Or.inl ⟨rfl, rfl⟩
  | cons w rest ih =>
    rw [outsideFrom_cons]
    by_cases hreference : isReference w.value = true
    · rw [if_pos hreference, keptText, if_pos hreference]
      exact ih nofun nofun
    · rw [if_neg hreference, keptText_cons_word hreference]
      cases before with
      | word => exact absurd rfl hbefore
      | start | reference => exact Or.inr ⟨_, _, rfl, rfl⟩

private theorem keptText_iff {text : List MessageSymbol} (h : messageSymbols.lex text = some lexed)
    :
    (keptText lexed.lexemes).drop 1 = outside lexed ↔
      PlainFrom lexed.trailing .start lexed.lexemes := by
  have hproper := proper_lex h
  cases hlexemes : lexed.lexemes with
  | nil =>
    have hnone : outside lexed = lexed.trailing.map MessageSymbol.read := by
      rw [outside, hlexemes]
      rfl
    rw [hnone, PlainFrom, eq_comm]
    exact List.map_eq_nil_iff
  | cons w rest =>
    rw [hlexemes] at hproper
    have hstart : Before.start = .start → w :: rest ≠ [] := fun _ => List.cons_ne_nil w rest
    rw [← keptText_eq_outside_iff hproper hstart, outside, hlexemes]
    have hword : Before.start ≠ .word := nofun
    rcases keptText_outsideFrom lexed.trailing hword hstart with
      ⟨hkept, hout⟩ | ⟨k, o, hkept, hout⟩
    · rw [hkept, hout]
      exact ⟨fun _ => rfl, fun _ => rfl⟩
    · rw [hkept, hout]
      exact ⟨fun heq => congrArg (List.cons ' ') heq, fun heq => (List.cons.inj heq).2⟩

/-- Prose is left alone by exactly the messages that are plain outside of references. -/
theorem leavesProse_iff (text : Text) : LeavesProse text ↔ PlainMessage text := by
  constructor
  · rintro ⟨-, lexed, hlexed, hmany | ⟨names, hparse⟩⟩
    · exact ⟨lexed, hlexed, Or.inl hmany⟩
    · refine ⟨lexed, hlexed, ?_⟩
      rw [parseExplicitPaths_eq, hlexed] at hparse
      dsimp only at hparse
      split at hparse
      · next hmany => exact Or.inl hmany
      · exact Or.inr ((keptText_iff hlexed).mp
          (congrArg ParsedExplicitPaths.text (Except.ok.inj hparse)))
  · rintro ⟨lexed, hlexed, hproper⟩
    have hparse := parseExplicitPaths_eq text
    rw [hlexed] at hparse
    dsimp only at hparse
    constructor
    · intro hprose
      have hnone : ∀ w ∈ lexed.lexemes, isReference w.value = false := fun w hw =>
        Bool.eq_false_iff.mpr fun hreference => by
          rw [mentions_of_isReference hlexed hw hreference] at hprose
          cases hprose
      have hreferences : references lexed.lexemes = [] := by
        rw [references, List.filter_eq_nil_iff.mpr fun w hw => Bool.eq_false_iff.mp (hnone w hw)]
        rfl
      have hfew : ¬ maxExplicitPaths < (references lexed.lexemes).length := by
        rw [hreferences]
        decide
      rw [hparse, if_neg hfew, (keptText_iff hlexed).mpr (hproper.resolve_left hfew),
        outside_of_no_reference hnone, Alphabet.lex_render hlexed, hreferences]
      rfl
    · refine ⟨lexed, hlexed, ?_⟩
      by_cases hmany : maxExplicitPaths < (references lexed.lexemes).length
      · exact Or.inl hmany
      · refine Or.inr ⟨references lexed.lexemes, ?_⟩
        rw [hparse, if_neg hmany, (keptText_iff hlexed).mpr (hproper.resolve_left hmany)]

/-- An apostrophe is enough for a message to be rejected. -/
theorem leavesProse_apostrophe : ¬ LeavesProse "it's fine".toList := by
  intro h
  have hrejected : parseExplicitPaths "it's fine".toList =
      .error ⟨"Explicit path quoting is invalid."⟩ := rfl
  have hparse := h.prose (by decide)
  rw [hrejected] at hparse
  cases hparse

end AwesomeAgent.Context
