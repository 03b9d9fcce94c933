import Mathlib.Data.List.Basic

/-!
# Words of a shell command

A lexer of commands in the manner of a POSIX shell, without comments. Spaces separate words.
Quotes and escapes hide what spaces and quotes mean, and are dropped from the words. The
lexer keeps where a word came from, so that a text can be put together again.
-/

namespace AwesomeAgent.ShellWords

/-- The two kinds of quotes; only the double ones leave escapes their meaning. -/
inductive Quote
  | single
  | double
  deriving DecidableEq, Repr

/-- What a symbol means to the lexer. -/
inductive SymbolClass
  | space
  | quote (q : Quote)
  | escape
  | ordinary
  deriving DecidableEq, Repr

/-- Symbols with their meaning, of which one is the escape. -/
structure Alphabet (α : Type) where
  kind : α → SymbolClass
  escape : α
  kind_eq_escape : ∀ a, kind a = .escape ↔ a = escape

/-- Where the lexer is: between words, in one, in quotes of one, or after an escape. -/
inductive Mode
  | between
  | word
  | quoted (q : Quote)
  | escaped (inside : Bool)
  deriving DecidableEq, Repr

/-- A word: the spaces before it, how it is written, and what it says. -/
structure Lexeme (α : Type) where
  gap : List α
  source : List α
  value : List α
  deriving DecidableEq, Repr

/-- The words of a text, and the spaces after the last one. -/
structure Lexed (α : Type) where
  lexemes : List (Lexeme α)
  trailing : List α
  deriving DecidableEq, Repr

variable {α β : Type}

/-- A word with symbols that it is written with and symbols that these say. -/
def Lexeme.reads (l : Lexeme α) (source value : List α) : Lexeme α :=
  ⟨l.gap, l.source ++ source, l.value ++ value⟩

namespace Alphabet

variable (A : Alphabet α)

/-- The mode and the word after a symbol of a word outside of quotes. -/
def enter (l : Lexeme α) (c : α) : Mode × Lexeme α :=
  match A.kind c with
  | .quote q => (.quoted q, l.reads [c] [])
  | .escape => (.escaped false, l.reads [c] [])
  | _ => (.word, l.reads [c] [c])

/-- The mode and the word after a symbol that does not end the word. -/
def advance (l : Lexeme α) (c : α) : Mode → Mode × Lexeme α
  | .between =>
      if A.kind c = .space then (.between, ⟨l.gap ++ [c], l.source, l.value⟩) else A.enter l c
  | .word => A.enter l c
  | .quoted q =>
      match A.kind c with
      | .quote r =>
          if r = q then (.word, l.reads [c] []) else (.quoted q, l.reads [c] [c])
      | .escape =>
          if q = .double then (.escaped true, l.reads [c] []) else (.quoted q, l.reads [c] [c])
      | _ => (.quoted q, l.reads [c] [c])
  | .escaped false => (.word, l.reads [c] [c])
  | .escaped true =>
      match A.kind c with
      | .escape | .quote .double => (.quoted .double, l.reads [c] [c])
      | _ => (.quoted .double, l.reads [c] [A.escape, c])

/-- Read the rest of a text in a mode with a word begun; no result in open quotes. -/
def scan : Mode → Lexeme α → List α → Option (Lexed α)
  | .between, l, [] => some ⟨[], l.gap⟩
  | .word, l, [] => some ⟨[l], []⟩
  | .quoted _, _, [] | .escaped _, _, [] => none
  | mode, l, c :: rest =>
      if mode = .word ∧ A.kind c = .space then
        (scan .between ⟨[c], [], []⟩ rest).map fun lexed =>
          ⟨l :: lexed.lexemes, lexed.trailing⟩
      else scan (A.advance l c mode).1 (A.advance l c mode).2 rest

/-- The words of a text with where they came from. -/
def lex (text : List α) : Option (Lexed α) := A.scan .between ⟨[], [], []⟩ text

/-- The words of a text. -/
def split (text : List α) : Option (List (List α)) :=
  (A.lex text).map fun lexed => lexed.lexemes.map fun l => l.value

variable {A}

private theorem scan_cons (mode : Mode) (l : Lexeme α) (c : α) (rest : List α) :
    A.scan mode l (c :: rest) =
      if mode = .word ∧ A.kind c = .space then
        (A.scan .between ⟨[c], [], []⟩ rest).map fun lexed =>
          ⟨l :: lexed.lexemes, lexed.trailing⟩
      else A.scan (A.advance l c mode).1 (A.advance l c mode).2 rest := by
  cases mode <;> rw [scan]

/-- What a symbol does to a word begun: the mode after it, and what it adds to the word. -/
inductive Reads (A : Alphabet α) (c : α) : Mode → Mode → List α → Prop
  | opens {mode q} : mode = .between ∨ mode = .word → A.kind c = .quote q →
      Reads A c mode (.quoted q) []
  | escapes {mode} : mode = .between ∨ mode = .word → A.kind c = .escape →
      Reads A c mode (.escaped false) []
  | plain {mode} : mode = .between ∨ mode = .word → A.kind c = .ordinary →
      Reads A c mode .word [c]
  | closes {q} : A.kind c = .quote q → Reads A c (.quoted q) .word []
  | escapesInside : A.kind c = .escape → Reads A c (.quoted .double) (.escaped true) []
  | inside {q} : Reads A c (.quoted q) (.quoted q) [c]
  | escaped : Reads A c (.escaped false) .word [c]
  | escapedInside : Reads A c (.escaped true) (.quoted .double) [c]
  | escapeStays : Reads A c (.escaped true) (.quoted .double) [A.escape, c]

/-- A symbol that does not end a word is one more space before it, or is read. -/
theorem advance_cases {mode : Mode} {c : α} (hgoes : ¬ (mode = .word ∧ A.kind c = .space))
    (l : Lexeme α) :
    (mode = .between ∧ A.kind c = .space ∧
      A.advance l c mode = (.between, ⟨l.gap ++ [c], l.source, l.value⟩)) ∨
    ∃ mode' v, Reads A c mode mode' v ∧ A.advance l c mode = (mode', l.reads [c] v) := by
  have henter (hmode : mode = .between ∨ mode = .word) (hspace : A.kind c ≠ .space) :
      ∃ mode' v, Reads A c mode mode' v ∧ A.enter l c = (mode', l.reads [c] v) := by
    unfold enter
    cases hkind : A.kind c with
    | space => exact absurd hkind hspace
    | quote q => exact ⟨_, _, .opens hmode hkind, rfl⟩
    | escape => exact ⟨_, _, .escapes hmode hkind, rfl⟩
    | ordinary => exact ⟨_, _, .plain hmode hkind, rfl⟩
  cases mode with
  | between =>
    unfold advance
    by_cases hspace : A.kind c = .space
    · rw [if_pos hspace]
      exact Or.inl ⟨rfl, hspace, rfl⟩
    · rw [if_neg hspace]
      exact Or.inr (henter (Or.inl rfl) hspace)
  | word => exact Or.inr (henter (Or.inr rfl) fun hspace => hgoes ⟨rfl, hspace⟩)
  | quoted q =>
    right
    unfold advance
    cases hkind : A.kind c with
    | space => exact ⟨_, _, .inside, rfl⟩
    | quote r =>
      dsimp only
      split
      · next hsame => exact ⟨_, _, .closes (hsame ▸ hkind), rfl⟩
      · exact ⟨_, _, .inside, rfl⟩
    | escape =>
      dsimp only
      split
      · next hdouble => exact ⟨_, _, hdouble ▸ .escapesInside hkind, rfl⟩
      · exact ⟨_, _, .inside, rfl⟩
    | ordinary => exact ⟨_, _, .inside, rfl⟩
  | escaped inside =>
    right
    cases inside with
    | false => exact ⟨_, _, .escaped, rfl⟩
    | true =>
      unfold advance
      dsimp only
      split
      · exact ⟨_, _, .escapedInside, rfl⟩
      · exact ⟨_, _, .escapedInside, rfl⟩
      · exact ⟨_, _, .escapeStays, rfl⟩

/-- What holds of a word begun and is kept by every symbol holds of all words. -/
theorem scan_invariant {P : Mode → Lexeme α → Prop}
    (hbegin : ∀ c, A.kind c = .space → P .between ⟨[c], [], []⟩)
    (hspace : ∀ l c, P .between l → A.kind c = .space →
      P .between ⟨l.gap ++ [c], l.source, l.value⟩)
    (hreads : ∀ mode l c mode' v, P mode l → Reads A c mode mode' v → P mode' (l.reads [c] v))
    {mode : Mode} {l : Lexeme α} {text : List α} {lexed : Lexed α} (hl : P mode l)
    (h : A.scan mode l text = some lexed) : ∀ w ∈ lexed.lexemes, P .word w := by
  induction text generalizing mode l lexed with
  | nil =>
    cases mode with
    | between =>
      cases h
      exact List.forall_mem_nil _
    | word =>
      cases h
      exact List.forall_mem_singleton.mpr hl
    | quoted q => cases h
    | escaped inside => cases h
  | cons c rest ih =>
    rw [scan_cons] at h
    split at h
    · next hends =>
      obtain ⟨later, hlater, heq⟩ := Option.map_eq_some_iff.mp h
      cases heq
      exact List.forall_mem_cons.mpr ⟨hends.1 ▸ hl, ih (hbegin c hends.2) hlater⟩
    · next hgoes =>
      refine ih ?_ h
      obtain ⟨rfl, hkind, hnext⟩ | ⟨mode', v, hread, hnext⟩ := advance_cases hgoes l
      · rw [hnext]
        exact hspace l c hl hkind
      · rw [hnext]
        exact hreads mode l c mode' v hl hread

end Alphabet

/-! ## Where words come from -/

/-- Words as they are written. -/
def Lexed.render (lexed : Lexed α) : List α :=
  (lexed.lexemes.flatMap fun l => l.gap ++ l.source) ++ lexed.trailing

namespace Alphabet

variable {A : Alphabet α}
variable {mode : Mode} {l : Lexeme α} {text source : List α} {lexed : Lexed α} {first : α}

/-- The words and spaces of a text are the text. -/
theorem scan_render
    (hbetween : mode = .between → l.source = []) (h : A.scan mode l text = some lexed) :
    lexed.render = l.gap ++ l.source ++ text := by
  induction text generalizing mode l lexed with
  | nil =>
    cases mode with
    | between =>
      cases h
      rw [hbetween rfl, List.append_nil, List.append_nil]
      rfl
    | word =>
      cases h
      rw [Lexed.render, List.flatMap_singleton]
    | quoted q => cases h
    | escaped inside => cases h
  | cons c rest ih =>
    rw [scan_cons] at h
    split at h
    · obtain ⟨later, hlater, heq⟩ := Option.map_eq_some_iff.mp h
      cases heq
      have hrest : later.render = c :: rest := ih (fun _ => rfl) hlater
      rw [← hrest, Lexed.render, Lexed.render, List.flatMap_cons, List.append_assoc]
    · next hgoes =>
      obtain ⟨rfl, -, hnext⟩ | ⟨mode', v, hread, hnext⟩ := advance_cases hgoes l
      · rw [hnext] at h
        have hrest : lexed.render = l.gap ++ [c] ++ l.source ++ rest :=
          ih (l := ⟨l.gap ++ [c], l.source, l.value⟩) hbetween h
        rw [hrest, hbetween rfl, List.append_nil, List.append_nil, List.append_assoc,
          List.singleton_append]
      · rw [hnext] at h
        have hword : mode' ≠ .between := by cases hread <;> nofun
        have hrest : lexed.render = l.gap ++ (l.source ++ [c]) ++ rest :=
          ih (fun hmode => absurd hmode hword) h
        rw [hrest, ← List.append_assoc, List.append_assoc _ [c], List.singleton_append]

/-- The lexemes of a text render it. -/
theorem lex_render (h : A.lex text = some lexed) :
    lexed.render = text := scan_render (fun _ => rfl) h

/-- Spaces, and nothing else, stand between words and after them. -/
theorem scan_spaces (hgap : ∀ c ∈ l.gap, A.kind c = .space) (h : A.scan mode l text = some lexed) :
    (∀ w ∈ lexed.lexemes, ∀ c ∈ w.gap, A.kind c = .space) ∧
      (∀ w ∈ lexed.lexemes.tail, w.gap ≠ []) ∧ ∀ c ∈ lexed.trailing, A.kind c = .space := by
  induction text generalizing mode l lexed with
  | nil =>
    cases mode with
    | between =>
      cases h
      exact ⟨List.forall_mem_nil _, List.forall_mem_nil _, hgap⟩
    | word =>
      cases h
      exact ⟨List.forall_mem_singleton.mpr hgap, List.forall_mem_nil _, List.forall_mem_nil _⟩
    | quoted q => cases h
    | escaped inside => cases h
  | cons c rest ih =>
    rw [scan_cons] at h
    split at h
    · next hends =>
      obtain ⟨later, hlater, heq⟩ := Option.map_eq_some_iff.mp h
      cases heq
      have hc : ∀ d ∈ [c], A.kind d = .space := List.forall_mem_singleton.mpr hends.2
      obtain ⟨hwords, -, htrailing⟩ := ih hc hlater
      refine ⟨List.forall_mem_cons.mpr ⟨hgap, hwords⟩, ?_, htrailing⟩
      exact scan_invariant (P := fun _ w => w.gap ≠ []) (fun _ _ => List.cons_ne_nil _ _)
        (fun _ _ _ _ => List.append_ne_nil_of_right_ne_nil _ (List.cons_ne_nil _ _))
        (fun _ _ _ _ _ hw _ => hw) (List.cons_ne_nil _ _) hlater
    · next hgoes =>
      obtain ⟨rfl, hspace, hnext⟩ | ⟨mode', v, hread, hnext⟩ := advance_cases hgoes l
      · rw [hnext] at h
        refine ih ?_ h
        exact List.forall_mem_append.mpr ⟨hgap, List.forall_mem_singleton.mpr hspace⟩
      · rw [hnext] at h
        have hsame : ∀ d ∈ (l.reads [c] v).gap, A.kind d = .space := hgap
        exact ih hsame h

/-- Gaps are made of spaces and are empty only before the first word. -/
theorem lex_spaces (h : A.lex text = some lexed) :
    (∀ w ∈ lexed.lexemes, ∀ c ∈ w.gap, A.kind c = .space) ∧
      (∀ w ∈ lexed.lexemes.tail, w.gap ≠ []) ∧ ∀ c ∈ lexed.trailing, A.kind c = .space :=
  scan_spaces (List.forall_mem_nil _) h

/-! ## What words keep of their text -/

/-- Whether a symbol means anything to the lexer. -/
def special (A : Alphabet α) (c : α) : Bool := decide (A.kind c ≠ .ordinary)

/-- The special symbols that are dropped at least from a word begun in a mode. -/
def hidden : Mode → Nat
  | .between | .word => 0
  | .quoted _ | .escaped false => 1
  | .escaped true => 2

/-- A word says fewer special symbols than it is written with, unless it is written plainly. -/
theorem scan_special (h : A.lex text = some lexed) :
    ∀ w ∈ lexed.lexemes, w.value.countP A.special ≤ w.source.countP A.special ∧
      (w.value.countP A.special = w.source.countP A.special →
        w.source = w.value ∧ ∀ c ∈ w.source, A.kind c = .ordinary) := by
  refine scan_invariant (P := fun mode w =>
    w.value.countP A.special + hidden mode ≤ w.source.countP A.special ∧
      (w.value.countP A.special = w.source.countP A.special →
        w.source = w.value ∧ ∀ c ∈ w.source, A.kind c = .ordinary)) ?_ ?_ ?_ ?_ h
  · exact fun c _ => ⟨Nat.le_refl _, fun _ => ⟨rfl, List.forall_mem_nil _⟩⟩
  · exact fun l c hl _ => hl
  · rintro mode l c mode' v ⟨hle, hplain⟩ hread
    have hspecial : ∀ d, A.kind d ≠ .ordinary → [d].countP A.special = 1 := fun d hd =>
      List.countP_singleton.trans (if_pos (decide_eq_true hd))
    have hsource : (l.reads [c] v).source = l.source ++ [c] := rfl
    have hvalue : (l.reads [c] v).value = l.value ++ v := rfl
    rw [hsource, hvalue, List.countP_append, List.countP_append]
    cases hread with
    | opens hmode hkind =>
      have hone := hspecial c (hkind ▸ nofun)
      simp only [hone, List.countP_nil, hidden]
      exact ⟨by omega, by omega⟩
    | escapes hmode hkind =>
      have hone := hspecial c (hkind ▸ nofun)
      simp only [hone, List.countP_nil, hidden]
      exact ⟨by omega, by omega⟩
    | plain hmode hkind =>
      refine ⟨by simp only [hidden]; omega, fun hsame => ?_⟩
      obtain ⟨hsource, hall⟩ := hplain (by omega)
      rw [hsource]
      exact ⟨rfl, List.forall_mem_append.mpr ⟨hsource ▸ hall, List.forall_mem_singleton.mpr hkind⟩⟩
    | closes hkind =>
      have hone := hspecial c (hkind ▸ nofun)
      simp only [hidden] at hle
      simp only [hone, List.countP_nil, hidden]
      exact ⟨by omega, by omega⟩
    | escapesInside hkind =>
      have hone := hspecial c (hkind ▸ nofun)
      simp only [hidden] at hle
      simp only [hone, List.countP_nil, hidden]
      exact ⟨by omega, by omega⟩
    | inside =>
      simp only [hidden] at hle ⊢
      exact ⟨by omega, by omega⟩
    | escaped =>
      simp only [hidden] at hle ⊢
      exact ⟨by omega, by omega⟩
    | escapedInside =>
      simp only [hidden] at hle ⊢
      exact ⟨by omega, by omega⟩
    | escapeStays =>
      have hone := hspecial A.escape (((A.kind_eq_escape _).mpr rfl).symm ▸ nofun)
      have hsplit : [A.escape, c] = [A.escape] ++ [c] := rfl
      rw [hsplit, List.countP_append, hone]
      simp only [hidden] at hle ⊢
      exact ⟨by omega, by omega⟩
  · exact ⟨Nat.le_refl _, fun _ => ⟨rfl, List.forall_mem_nil _⟩⟩

/-- A text has a symbol after nothing but quotes, or right after an escape. -/
def StartsWith (A : Alphabet α) (first : α) (source : List α) : Prop :=
  [A.escape, first] <:+: source ∨ ∃ quotes rest, source = quotes ++ first :: rest ∧
    ∀ c ∈ quotes, ∃ q, A.kind c = .quote q

private theorem StartsWith.append (h : A.StartsWith first source)
    (later : List α) : A.StartsWith first (source ++ later) := by
  rcases h with hescaped | ⟨quotes, rest, rfl, hquotes⟩
  · exact Or.inl (hescaped.trans (List.prefix_append _ _).isInfix)
  · exact Or.inr ⟨quotes, rest ++ later, by rw [List.append_assoc, List.cons_append], hquotes⟩

/-- What a word that says nothing yet is written with after its quotes. -/
def pending (A : Alphabet α) : Mode → List α
  | .escaped _ => [A.escape]
  | _ => []

/-- How a word is written that says nothing yet. -/
def Silent (A : Alphabet α) (mode : Mode) (source : List α) : Prop :=
  ∃ quotes, source = quotes ++ A.pending mode ∧ ∀ c ∈ quotes, ∃ q, A.kind c = .quote q

/-- A word begun that says nothing, or starts with its first symbol. -/
structure Begun (A : Alphabet α) (first : α) (mode : Mode) (l : Lexeme α) : Prop where
  silent : l.value = [] → A.Silent mode l.source
  said : l.value.head? = some first → A.StartsWith first l.source

private theorem Begun.reads_nothing {c : α} {mode' : Mode} (h : A.Begun first mode l)
    (hsilent : A.Silent mode l.source → A.Silent mode' (l.source ++ [c])) :
    A.Begun first mode' (l.reads [c] []) := by
  have hvalue : (l.reads [c] []).value = l.value := List.append_nil _
  constructor
  · exact fun hnone => hsilent (h.silent (hvalue ▸ hnone))
  · exact fun hhead => (h.said (hvalue ▸ hhead)).append [c]

/-- A character that is read begins the value of a word. -/
theorem Begun.reads_some {c d : α} {rest : List α} (h : A.Begun first mode l) (mode' : Mode)
    (hstart : d = first → A.Silent mode l.source → A.StartsWith first (l.source ++ [c])) :
    A.Begun first mode' (l.reads [c] (d :: rest)) := by
  constructor
  · exact fun hnone => absurd (List.append_eq_nil_iff.mp hnone).2 (List.cons_ne_nil _ _)
  · intro hhead
    rw [Lexeme.reads] at hhead
    have hsaid := h.said
    cases hvalue : l.value with
    | nil =>
      rw [hvalue, List.nil_append, List.head?_cons] at hhead
      exact hstart (Option.some.inj hhead) (h.silent hvalue)
    | cons e others =>
      rw [hvalue, List.cons_append, List.head?_cons] at hhead
      rw [hvalue, List.head?_cons] at hsaid
      exact (hsaid hhead).append [c]

private theorem Silent.quote {mode' : Mode} (h : A.Silent mode source) {c : α}
    {q : Quote} (hkind : A.kind c = .quote q) (hmode : A.pending mode = [])
    (hmode' : A.pending mode' = []) : A.Silent mode' (source ++ [c]) := by
  obtain ⟨quotes, rfl, hquotes⟩ := h
  refine ⟨quotes ++ [c], by rw [hmode, hmode', List.append_nil, List.append_nil], ?_⟩
  exact List.forall_mem_append.mpr ⟨hquotes, List.forall_mem_singleton.mpr ⟨q, hkind⟩⟩

private theorem Silent.escape (h : A.Silent mode source) {c : α}
    (hkind : A.kind c = .escape) (hmode : A.pending mode = []) (inside : Bool) :
    A.Silent (.escaped inside) (source ++ [c]) := by
  obtain ⟨quotes, rfl, hquotes⟩ := h
  refine ⟨quotes, ?_, hquotes⟩
  rw [hmode, List.append_nil, (A.kind_eq_escape c).mp hkind, pending]

private theorem Silent.startsWith (h : A.Silent mode source) (first : α) :
    A.StartsWith first (source ++ [first]) := by
  obtain ⟨quotes, rfl, hquotes⟩ := h
  cases mode with
  | escaped inside =>
    exact Or.inl ⟨quotes, [], by rw [pending, List.append_nil, List.append_assoc]; rfl⟩
  | between | word | quoted =>
    have hsource := congrArg (fun tail => tail ++ [first]) (List.append_nil quotes)
    exact Or.inr ⟨quotes, [], hsource, hquotes⟩

/-- A word that says a plain symbol first is written with it after nothing but quotes. -/
theorem lex_startsWith (h : A.lex text = some lexed) (hfirst : A.kind first = .ordinary) :
    ∀ w ∈ lexed.lexemes, w.value.head? = some first → A.StartsWith first w.source := by
  have hnothing : ∀ gap mode, A.pending mode = [] → A.Begun first mode ⟨gap, [], []⟩ :=
    fun gap mode hmode => ⟨fun _ => ⟨[], hmode.symm, List.forall_mem_nil _⟩, nofun⟩
  have houtside : ∀ mode, mode = .between ∨ mode = .word → A.pending mode = [] := by
    rintro mode (rfl | rfl) <;> rfl
  suffices hall : ∀ w ∈ lexed.lexemes, A.Begun first .word w from fun w hw => (hall w hw).said
  refine scan_invariant (fun c _ => hnothing [c] .between rfl) ?_ ?_ (hnothing [] .between rfl) h
  · exact fun l c hl _ => ⟨hl.silent, hl.said⟩
  · intro mode l c mode' v hl hread
    cases hread with
    | opens hmode hkind => exact hl.reads_nothing fun hs => hs.quote hkind (houtside _ hmode) rfl
    | escapes hmode hkind => exact hl.reads_nothing fun hs => hs.escape hkind (houtside _ hmode) _
    | closes hkind => exact hl.reads_nothing fun hs => hs.quote hkind rfl rfl
    | escapesInside hkind => exact hl.reads_nothing fun hs => hs.escape hkind rfl _
    | plain | inside | escaped | escapedInside =>
      exact hl.reads_some _ fun hc hs => hc ▸ hs.startsWith first
    | escapeStays =>
      refine hl.reads_some _ fun hescape _ => ?_
      have hkind := (A.kind_eq_escape _).mpr rfl
      rw [hescape, hfirst] at hkind
      cases hkind

end Alphabet

/-! ## Spelling symbols out -/

/-- Symbols written in another alphabet; a plain one may be written with several plain ones. -/
structure Spelling (A : Alphabet α) (B : Alphabet β) where
  spell : α → List β
  special : ∀ a, A.kind a ≠ .ordinary → ∃ b, spell a = [b] ∧ B.kind b = A.kind a
  ordinary : ∀ a, A.kind a = .ordinary → spell a ≠ [] ∧ ∀ b ∈ spell a, B.kind b = .ordinary

/-- A word spelled out. -/
def Lexeme.flatMap (f : α → List β) (l : Lexeme α) : Lexeme β :=
  ⟨l.gap.flatMap f, l.source.flatMap f, l.value.flatMap f⟩

/-- The words of a text spelled out. -/
def Lexed.flatMap (f : α → List β) (lexed : Lexed α) : Lexed β :=
  ⟨lexed.lexemes.map fun l => l.flatMap f, lexed.trailing.flatMap f⟩

namespace Spelling

variable {A : Alphabet α} {B : Alphabet β} (S : Spelling A B)

private theorem spell_escape : S.spell A.escape = [B.escape] := by
  have hkind := (A.kind_eq_escape _).mpr rfl
  obtain ⟨b, hb, hsame⟩ := S.special A.escape (hkind ▸ nofun)
  rw [hb, (B.kind_eq_escape b).mp (hsame.trans hkind)]

/-- Plain symbols that go on with a word, in quotes or not. -/
theorem scan_ordinary {mode : Mode} (hmode : mode = .word ∨ ∃ q, mode = .quoted q)
    {plain : List β} (hplain : ∀ b ∈ plain, B.kind b = .ordinary) (l : Lexeme β)
    (rest : List β) : B.scan mode l (plain ++ rest) = B.scan mode (l.reads plain plain) rest := by
  induction plain generalizing l with
  | nil => rw [Lexeme.reads, List.append_nil, List.append_nil, List.nil_append]
  | cons b more ih =>
    have hkind := hplain b List.mem_cons_self
    have hadvance : B.advance l b mode = (mode, l.reads [b] [b]) := by
      rcases hmode with rfl | ⟨q, rfl⟩
      · rw [Alphabet.advance, Alphabet.enter, hkind]
      · rw [Alphabet.advance, hkind]
    have hreads : (l.reads [b] [b]).reads more more = l.reads (b :: more) (b :: more) := by
      unfold Lexeme.reads
      rw [List.append_assoc, List.append_assoc, List.singleton_append]
    rw [List.cons_append, Alphabet.scan_cons, if_neg (fun h => by rw [hkind] at h; cases h.2),
      hadvance, ih (fun d hd => hplain d (List.mem_cons_of_mem b hd)), hreads]

private theorem flatMap_reads (f : α → List β) (l : Lexeme α) (source value : List α) :
    (l.reads source value).flatMap f =
      (l.flatMap f).reads (source.flatMap f) (value.flatMap f) := by
  unfold Lexeme.reads Lexeme.flatMap
  rw [List.flatMap_append, List.flatMap_append]

/-- A special symbol and the one it is spelled with mean the same. -/
theorem advance_special {a : α} {b : β} (hspell : S.spell a = [b]) (hkind : B.kind b = A.kind a)
    (l : Lexeme α) (mode : Mode) :
    B.advance (l.flatMap S.spell) b mode =
      ((A.advance l a mode).1, (A.advance l a mode).2.flatMap S.spell) := by
  have hone : [a].flatMap S.spell = [b] := (List.flatMap_singleton _ _).trans hspell
  have hboth : [A.escape, a].flatMap S.spell = [B.escape, b] := by
    rw [List.flatMap_cons, hone, S.spell_escape, List.singleton_append]
  have hgap : (⟨l.gap ++ [a], l.source, l.value⟩ : Lexeme α).flatMap S.spell =
      ⟨(l.flatMap S.spell).gap ++ [b], (l.flatMap S.spell).source,
        (l.flatMap S.spell).value⟩ := by
    unfold Lexeme.flatMap
    rw [List.flatMap_append, hone]
  have henter : B.enter (l.flatMap S.spell) b =
      ((A.enter l a).1, (A.enter l a).2.flatMap S.spell) := by
    unfold Alphabet.enter
    rw [hkind]
    split <;> simp only [flatMap_reads, hone, List.flatMap_nil]
  unfold Alphabet.advance
  rw [hkind, henter]
  cases mode with
  | between =>
    dsimp only
    split
    · rw [hgap]
    · rfl
  | word => rfl
  | quoted q =>
    dsimp only
    split
    · split <;> simp only [flatMap_reads, hone, List.flatMap_nil]
    · split <;> simp only [flatMap_reads, hone, List.flatMap_nil]
    · simp only [flatMap_reads, hone]
  | escaped inside =>
    cases inside with
    | false => simp only [flatMap_reads, hone]
    | true =>
      dsimp only
      split <;> simp only [flatMap_reads, hone, hboth]

/-- Reading a symbol spelled out does what reading the symbol does. -/
theorem scan_spell {mode : Mode} {l : Lexeme α} {a : α}
    (hgoes : ¬ (mode = .word ∧ A.kind a = .space)) (rest : List β) :
    B.scan mode (l.flatMap S.spell) (S.spell a ++ rest) =
      B.scan (A.advance l a mode).1 ((A.advance l a mode).2.flatMap S.spell) rest := by
  by_cases hplain : A.kind a = .ordinary
  · obtain ⟨hnonempty, hall⟩ := S.ordinary a hplain
    obtain ⟨b, more, hspell⟩ := List.exists_cons_of_ne_nil hnonempty
    rw [hspell] at hall
    have hkind := hall b List.mem_cons_self
    have hmore : ∀ d ∈ more, B.kind d = .ordinary := fun d hd => hall d (List.mem_cons_of_mem b hd)
    have hone : [a].flatMap S.spell = b :: more := (List.flatMap_singleton _ _).trans hspell
    have hboth : [A.escape, a].flatMap S.spell = B.escape :: b :: more := by
      rw [List.flatMap_cons, hone, S.spell_escape, List.singleton_append]
    have hreads : ∀ v : List β, ((l.flatMap S.spell).reads [b] v).reads more more =
        (l.flatMap S.spell).reads (b :: more) (v ++ more) := by
      intro v
      unfold Lexeme.reads
      rw [List.append_assoc, List.append_assoc, List.singleton_append]
    rw [hspell, List.cons_append, Alphabet.scan_cons,
      if_neg (fun h => by rw [hkind] at h; cases h.2)]
    cases mode with
    | between | word =>
      simp only [Alphabet.advance, Alphabet.enter, hkind, hplain, reduceCtorEq, if_false]
      rw [scan_ordinary (Or.inl rfl) hmore, hreads, flatMap_reads, hone]
      rfl
    | quoted q =>
      simp only [Alphabet.advance, hkind, hplain]
      rw [scan_ordinary (Or.inr ⟨q, rfl⟩) hmore, hreads, flatMap_reads, hone]
      rfl
    | escaped inside =>
      cases inside with
      | false =>
        simp only [Alphabet.advance]
        rw [scan_ordinary (Or.inl rfl) hmore, hreads, flatMap_reads, hone]
        rfl
      | true =>
        simp only [Alphabet.advance, hkind, hplain]
        rw [scan_ordinary (Or.inr ⟨_, rfl⟩) hmore, hreads, flatMap_reads, hone, hboth]
        rfl
  · obtain ⟨b, hspell, hkind⟩ := S.special a hplain
    rw [hspell, List.singleton_append, Alphabet.scan_cons, S.advance_special hspell hkind,
      if_neg (hkind ▸ hgoes)]

/-- The words of a text spelled out are its words spelled out. -/
theorem scan_flatMap (mode : Mode) (l : Lexeme α) (text : List α) :
    B.scan mode (l.flatMap S.spell) (text.flatMap S.spell) =
      (A.scan mode l text).map fun lexed => lexed.flatMap S.spell := by
  induction text generalizing mode l with
  | nil => cases mode <;> rfl
  | cons a rest ih =>
    rw [List.flatMap_cons]
    by_cases hends : mode = .word ∧ A.kind a = .space
    · obtain ⟨b, hb, hkind⟩ := S.special a (hends.2 ▸ nofun)
      have hgap : (⟨[b], [], []⟩ : Lexeme β) = (⟨[a], [], []⟩ : Lexeme α).flatMap S.spell := by
        unfold Lexeme.flatMap
        rw [List.flatMap_singleton, hb]
        rfl
      rw [hb, List.singleton_append, Alphabet.scan_cons, Alphabet.scan_cons, if_pos hends,
        if_pos ⟨hends.1, hkind.trans hends.2⟩, hgap, ih, Option.map_map, Option.map_map]
      rfl
    · rw [S.scan_spell hends, ih, Alphabet.scan_cons, if_neg hends]

/-- A spelled text is lexed to the spelled lexemes. -/
theorem lex_flatMap (text : List α) :
    B.lex (text.flatMap S.spell) = (A.lex text).map fun lexed => lexed.flatMap S.spell :=
  S.scan_flatMap .between ⟨[], [], []⟩ text

end Spelling

end AwesomeAgent.ShellWords
