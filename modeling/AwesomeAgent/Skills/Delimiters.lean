import AwesomeAgent.Skills.Loader

/-!
# Delimiter lines of manifests

A manifest is split where three hyphens occur first, not at the first line of three hyphens.
Both places agree exactly when nothing in the metadata holds three hyphens.
-/

namespace AwesomeAgent.Skills

open Separators (splitMax breakOn First breakOn_eq_some_iff breakOn_eq_none splitMax_append)

variable {text rest before after : Text}

/-- The text starts with a line of three hyphens. -/
def OpensWithDelimiter (text : Text) : Prop := text = hyphens ∨ hyphens ++ ['\n'] <+: text

/-- A later line of three hyphens, with the text between the two lines and the text behind. -/
structure IsDelimiter (text before after : Text) : Prop where
  split : text = hyphens ++ '\n' :: (before ++ hyphens ++ after)
  starts : before = [] ∨ before.getLast? = some '\n'
  ends : after = [] ∨ after.head? = some '\n'

/-- The first later line of three hyphens. -/
structure FirstDelimiter (text before after : Text) : Prop extends
    IsDelimiter text before after where
  first : ∀ front back, IsDelimiter text front back → before.length ≤ front.length

/-- A skill with a manifest of a text. -/
structure Discovered (catalog : SkillCatalog) (name identity : Text) (text : Text)
    (descriptor : SkillDescriptor) : Prop where
  target : ∃ boundary raw, catalog.target name identity = .ok (descriptor, boundary) ∧
    boundary.manifest = .ok raw ∧ decodeText raw = .ok text

/-- A manifest is split at its delimiter lines, and refused without a second one. The text
between the lines starts with the newline that ends the first of them. -/
structure SplitAtDelimiters (text : Text) : Prop where
  metadata : ∀ before after, FirstDelimiter text before after →
    ∀ (yaml : YamlLibrary) source root expectedName,
      parseSkillManifest yaml text source root expectedName =
        metadataFields yaml ('\n' :: before) >>= fun fields =>
          descriptorOf yaml fields source root expectedName
  body : ∀ before after, FirstDelimiter text before after →
    ∀ catalog name identity descriptor tokenLimit,
      Discovered catalog name identity text descriptor →
        catalog.load name identity tokenLimit = loadedSkill descriptor after tokenLimit
  refused : (¬∃ before after, IsDelimiter text before after) →
    (∀ (yaml : YamlLibrary) source root expectedName, ∃ fault,
      parseSkillManifest yaml text source root expectedName = .error fault) ∧
    ∀ catalog name identity descriptor tokenLimit,
      Discovered catalog name identity text descriptor →
        ∃ fault, catalog.load name identity tokenLimit = .error fault

/-- The first three hyphens behind the opening line are a line of their own. -/
def HyphensDelimit (text : Text) : Prop :=
  ∀ before after, First hyphens (text.drop 4) before after → IsDelimiter text before after

/-! ## Where the text is split -/

private theorem breakOn_newline (rest : Text) :
    breakOn hyphens ('\n' :: rest) =
      (breakOn hyphens rest).map fun parts => ('\n' :: parts.1, parts.2) := by
  have hfront : ¬hyphens <+: '\n' :: rest := by
    rw [hyphens, List.cons_prefix_cons]
    rintro ⟨h, -⟩
    cases h
  rw [breakOn, if_neg hfront]

private theorem splitMax_of_first (h : First hyphens rest before after) :
    splitMax hyphens 2 (hyphens ++ '\n' :: rest) = [[], '\n' :: before, after] := by
  rw [splitMax_append, splitMax, breakOn_newline, breakOn_eq_some_iff.2 h]
  rfl

private theorem splitMax_of_none (h : breakOn hyphens rest = none) :
    splitMax hyphens 2 (hyphens ++ '\n' :: rest) = [[], '\n' :: rest] := by
  rw [splitMax_append, splitMax, breakOn_newline, h]
  rfl

private theorem opensWith_cons (rest : Text) :
    hyphens ++ ['\n'] <+: hyphens ++ '\n' :: rest := ⟨rest, rfl⟩

section Parsing

variable (yaml : YamlLibrary) (source : SkillSource) (root : Text) (expectedName : Option Text)

private theorem parseSkillManifest_of_first (h : First hyphens rest before after) :
    parseSkillManifest yaml (hyphens ++ '\n' :: rest) source root expectedName =
      metadataFields yaml ('\n' :: before) >>= fun fields =>
        descriptorOf yaml fields source root expectedName := by
  rw [parseSkillManifest, frontmatter, if_neg (not_not.mpr (opensWith_cons rest)),
    splitMax_of_first h]

private theorem parseSkillManifest_of_none (h : breakOn hyphens rest = none) :
    ∃ fault, parseSkillManifest yaml (hyphens ++ '\n' :: rest) source root expectedName =
      .error fault := by
  rw [parseSkillManifest, frontmatter, if_neg (not_not.mpr (opensWith_cons rest)),
    splitMax_of_none h]
  exact ⟨_, rfl⟩

end Parsing

section Loading

variable {catalog : SkillCatalog} {name identity : Text} {descriptor : SkillDescriptor}

private theorem Discovered.load (h : Discovered catalog name identity text descriptor)
    (tokenLimit : Int) : catalog.load name identity tokenLimit =
      loadParts descriptor tokenLimit (splitMax hyphens 2 text) := by
  obtain ⟨boundary, raw, htarget, hmanifest, hdecode⟩ := h.target
  rw [SkillCatalog.load, htarget]
  change ((boundary.manifest >>= decodeText).mapError _ >>= _) = _
  rw [hmanifest]
  change ((decodeText raw).mapError _ >>= _) = _
  rw [hdecode]
  rfl

private theorem Discovered.load_of_first
    (h : Discovered catalog name identity (hyphens ++ '\n' :: rest) descriptor)
    (hfirst : First hyphens rest before after) (tokenLimit : Int) :
    catalog.load name identity tokenLimit = loadedSkill descriptor after tokenLimit := by
  rw [h.load, splitMax_of_first hfirst]
  rfl

private theorem Discovered.load_of_none
    (h : Discovered catalog name identity (hyphens ++ '\n' :: rest) descriptor)
    (hnone : breakOn hyphens rest = none) (tokenLimit : Int) :
    ∃ fault, catalog.load name identity tokenLimit = .error fault := by
  rw [h.load, splitMax_of_none hnone]
  exact ⟨_, rfl⟩

end Loading

/-! ## Delimiter lines -/

private theorem exists_firstDelimiter (h : IsDelimiter text before after) :
    ∃ front back, FirstDelimiter text front back := by
  induction hlength : before.length using Nat.strong_induction_on generalizing before after with
  | _ length ih =>
    by_cases hfirst : ∀ front back, IsDelimiter text front back → before.length ≤ front.length
    · exact ⟨before, after, h, hfirst⟩
    · push Not at hfirst
      obtain ⟨front, back, hfront, hshorter⟩ := hfirst
      exact ih _ (hlength ▸ hshorter) hfront rfl

private theorem IsDelimiter.occurs (h : IsDelimiter (hyphens ++ '\n' :: rest) before after) :
    rest = before ++ hyphens ++ after :=
  (List.cons.inj (List.append_cancel_left h.split)).2

private theorem First.firstDelimiter (h : First hyphens rest before after)
    (hdelimiter : IsDelimiter (hyphens ++ '\n' :: rest) before after) :
    FirstDelimiter (hyphens ++ '\n' :: rest) before after :=
  ⟨hdelimiter, fun front back hother => h.first front back hother.occurs⟩

private theorem FirstDelimiter.unique {before' after' : Text} (h : FirstDelimiter text before after)
    (h' : FirstDelimiter text before' after') : before = before' ∧ after = after' := by
  have hlength := Nat.le_antisymm (h.first _ _ h'.toIsDelimiter) (h'.first _ _ h.toIsDelimiter)
  have heq := h.split.symm.trans h'.split
  have hrest := (List.cons.inj (List.append_cancel_left heq)).2
  rw [List.append_assoc, List.append_assoc] at hrest
  obtain ⟨hbefore, hbehind⟩ := List.append_inj hrest hlength
  exact ⟨hbefore, List.append_cancel_left hbehind⟩

/-! ## A library that accepts one text -/

/-- The document of a named skill, and the texts in it. -/
inductive NamedValue
  | document
  | text (value : Text)

/-- A library that reads one text as the fields of a skill and refuses every other text. -/
def acceptOnly (accepted : Text) : YamlLibrary where
  Value := NamedValue
  parse _ := ([], none)
  safeLoad text := if text = accepted then .ok .document else .error .yaml
  view
    | .document => .mapping
        [(.text "name".toList, .text "a".toList), (.text "description".toList, .text "b".toList)]
    | .text value => .text value
  identity _ := 0
  str
    | .document => []
    | .text value => value
  truthy _ := true
  json _ := none

private theorem acceptOnly_accepts (accepted : Text) : ∃ descriptor,
    (metadataFields (acceptOnly accepted) accepted >>= fun fields =>
      descriptorOf (acceptOnly accepted) fields .user [] none) = .ok descriptor := by
  have hload : (acceptOnly accepted).safeLoad accepted = .ok .document := if_pos rfl
  unfold metadataFields
  rw [hload]
  exact ⟨_, rfl⟩

private theorem acceptOnly_refuses {accepted other : Text} (h : other ≠ accepted) : ∃ fault,
    (metadataFields (acceptOnly accepted) other >>= fun fields =>
      descriptorOf (acceptOnly accepted) fields .user [] none) = .error fault := by
  have hload : (acceptOnly accepted).safeLoad other = .error .yaml := if_neg h
  unfold metadataFields
  rw [hload]
  exact ⟨_, rfl⟩

/-! ## Splitting -/

private theorem splitAtDelimiters_hyphens :
    SplitAtDelimiters hyphens ∧ HyphensDelimit hyphens := by
  have hnone {before after : Text} : ¬IsDelimiter hyphens before after := fun h => by
    have hlength := congrArg List.length h.split
    rw [List.length_append, List.length_cons] at hlength
    omega
  refine ⟨⟨fun _ _ h => absurd h.toIsDelimiter hnone, fun _ _ h => absurd h.toIsDelimiter hnone,
    fun _ => ⟨?_, ?_⟩⟩, ?_⟩
  · intro yaml source root expectedName
    exact ⟨_, rfl⟩
  · intro catalog name identity descriptor tokenLimit h
    rw [h.load]
    exact ⟨_, rfl⟩
  · intro before after h
    have hlength := congrArg List.length h.split
    rw [List.length_append, List.length_append] at hlength
    change 0 = before.length + 3 + after.length at hlength
    omega

private theorem HyphensDelimit.splitAtDelimiters (h : HyphensDelimit (hyphens ++ '\n' :: rest)) :
    SplitAtDelimiters (hyphens ++ '\n' :: rest) := by
  cases hbreak : breakOn hyphens rest with
  | none =>
    have hnone {before after : Text} : ¬IsDelimiter (hyphens ++ '\n' :: rest) before after :=
      fun hdelimiter => breakOn_eq_none hbreak before after hdelimiter.occurs
    constructor
    · exact fun _ _ hfirst => absurd hfirst.toIsDelimiter hnone
    · exact fun _ _ hfirst => absurd hfirst.toIsDelimiter hnone
    · exact fun _ => ⟨fun yaml source root expectedName =>
        parseSkillManifest_of_none yaml source root expectedName hbreak,
        fun _ _ _ _ tokenLimit hfound => hfound.load_of_none hbreak tokenLimit⟩
  | some parts =>
    obtain ⟨before, after⟩ := parts
    have hfirst := breakOn_eq_some_iff.1 hbreak
    have hdelimiter := First.firstDelimiter hfirst (h before after hfirst)
    constructor
    · intro front back hother yaml source root expectedName
      obtain ⟨rfl, rfl⟩ := hdelimiter.unique hother
      exact parseSkillManifest_of_first yaml source root expectedName hfirst
    · intro front back hother catalog name identity descriptor tokenLimit hfound
      obtain ⟨rfl, rfl⟩ := hdelimiter.unique hother
      exact hfound.load_of_first hfirst tokenLimit
    · exact fun hnone => absurd ⟨before, after, hdelimiter.toIsDelimiter⟩ hnone

private theorem SplitAtDelimiters.hyphensDelimit
    (h : SplitAtDelimiters (hyphens ++ '\n' :: rest)) :
    HyphensDelimit (hyphens ++ '\n' :: rest) := by
  intro before after hfirst
  change First hyphens rest before after at hfirst
  -- the library accepts only what the code gives it, so that the split shows in the outcome
  obtain ⟨descriptor, haccepts⟩ := acceptOnly_accepts ('\n' :: before)
  have hparse := parseSkillManifest_of_first (acceptOnly ('\n' :: before)) .user [] none hfirst
  rw [haccepts] at hparse
  by_cases hdelimiter : ∃ front back, IsDelimiter (hyphens ++ '\n' :: rest) front back
  · obtain ⟨front, back, hdelimiter⟩ := hdelimiter
    obtain ⟨front, back, hdelimiter⟩ := exists_firstDelimiter hdelimiter
    have hexpected := h.metadata front back hdelimiter (acceptOnly ('\n' :: before)) .user [] none
    rw [hparse] at hexpected
    by_cases hsame : front = before
    · subst hsame
      have hsplit := hdelimiter.occurs.symm.trans hfirst.split
      rw [← List.append_cancel_left hsplit]
      exact hdelimiter.toIsDelimiter
    · obtain ⟨fault, hrefuses⟩ := acceptOnly_refuses
        (show '\n' :: front ≠ '\n' :: before from fun heq => hsame (List.cons.inj heq).2)
      rw [hrefuses] at hexpected
      cases hexpected
  · obtain ⟨fault, hrefused⟩ := (h.refused hdelimiter).1 (acceptOnly ('\n' :: before)) .user [] none
    rw [hparse] at hrefused
    cases hrefused

/-- A manifest is split at its delimiter lines exactly when the first three hyphens behind the
opening line are a line of their own. -/
theorem splitAtDelimiters_iff (h : OpensWithDelimiter text) :
    SplitAtDelimiters text ↔ HyphensDelimit text := by
  obtain rfl | ⟨rest, rfl⟩ := h
  · exact iff_of_true splitAtDelimiters_hyphens.1 splitAtDelimiters_hyphens.2
  · exact ⟨SplitAtDelimiters.hyphensDelimit, HyphensDelimit.splitAtDelimiters⟩

/-- A manifest with a name opens with a delimiter. -/
theorem splitAtDelimiters_iff_sample : OpensWithDelimiter "---\nname: a\n---\n".toList ∧
    (SplitAtDelimiters "---\nname: a\n---\n".toList ↔
      HyphensDelimit "---\nname: a\n---\n".toList) := by
  have h : OpensWithDelimiter "---\nname: a\n---\n".toList := .inr (by decide)
  exact ⟨h, splitAtDelimiters_iff h⟩

/-- Three hyphens in a description end the metadata. -/
def hyphenatedManifest : Text := "---\nname: a\ndescription: b --- c\n---\nbody\n".toList

/-- The hyphens of a description are taken for a delimiter. -/
theorem hyphenatedManifest_split :
    OpensWithDelimiter hyphenatedManifest ∧ ¬SplitAtDelimiters hyphenatedManifest := by
  have h : OpensWithDelimiter hyphenatedManifest := .inr (by decide)
  refine ⟨h, fun hsplit => ?_⟩
  have hbreak : breakOn hyphens (hyphenatedManifest.drop 4) =
      some ("name: a\ndescription: b ".toList, " c\n---\nbody\n".toList) := by decide
  have hdelimiter := (splitAtDelimiters_iff h).mp hsplit _ _ (breakOn_eq_some_iff.1 hbreak)
  obtain hends | hends := hdelimiter.ends
  · cases hends
  · exact absurd hends (by decide)

end AwesomeAgent.Skills
