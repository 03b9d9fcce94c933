import AwesomeAgent.Memory.SectionText

/-!
# Changes of a memory document are read back

A change is read back as it was asked for exactly when the contents that it renders have
newlines as their only boundaries and the new content has no line that reads as an identifier
comment.
-/

namespace AwesomeAgent.Memory

variable {content newline text : Text} {entries read : List MemoryEntry} {lines : List Text}

/-! ## Contents -/

/-- A content that ends in a character and has no carriage returns. -/
structure Printable (content : Text) : Prop where
  noReturn : '\r' ∉ content
  ends : ∃ front c, content = front ++ [c] ∧ isSpace c = false

/-- A line of the content after the first reads as an identifier comment. -/
def HidesId (content : Text) : Prop :=
  ∃ line ∈ (content.splitOn '\n').tail, isIdComment line = true

private theorem isLineBoundary_of_not_isSpace {c : Char} (h : isSpace c = false) :
    isLineBoundary c = false := by
  rw [isSpace, Bool.or_eq_false_iff, Bool.or_eq_false_iff] at h
  exact h.1.1

private theorem Printable.rdropWhile_spread (h : Printable content) :
    (spread content).rdropWhile isSpace = spread content := by
  obtain ⟨front, c, rfl, hc⟩ := h.ends
  have hspread : spread (front ++ [c]) = spread front ++ [c] := by
    have hin : ¬(c ≠ '\n' ∧ isLineBoundary c = true) := by
      rw [isLineBoundary_of_not_isSpace hc]
      rintro ⟨-, h⟩
      cases h
    rw [spread, List.flatMap_append, List.flatMap_singleton, if_neg hin]
    rfl
  rw [hspread, List.rdropWhile_concat_neg _ _ _ (by rw [hc]; exact Bool.false_ne_true)]

private theorem readContent_entryBodies {entry : MemoryEntry} (h : Printable entry.content) :
    readContent (entryBodies entry) = spread entry.content := by
  have hjoin := intercalate_contentBodies entry.content
  obtain ⟨first, rest, hcons⟩ := contentBodies_eq_cons entry.content
  rw [hcons] at hjoin
  rw [entryBodies, hcons]
  change (['\n'].intercalate (first :: rest)).rdropWhile isSpace = _
  rw [hjoin, h.rdropWhile_spread]

/-! ## Reading a rendered section -/

private theorem matchedId_bullet (line : Text) : matchedId ('-' :: line) = none := by
  cases h : matchedId ('-' :: line) with
  | none => rfl
  | some id =>
    obtain ⟨-, hline⟩ := matchedId_eq_some_iff.1 h
    cases hline

private theorem matchedId_entryBodies_iff (entry : MemoryEntry) :
    (∀ body ∈ entryBodies entry, matchedId body = none) ↔
      ∀ body ∈ (contentBodies entry.content).tail, matchedId body = none := by
  obtain ⟨first, rest, hcons⟩ := contentBodies_eq_cons entry.content
  rw [entryBodies, hcons]
  change (∀ body ∈ ('-' :: ' ' :: first) :: rest, _) ↔ _
  rw [List.forall_mem_cons, and_iff_right (matchedId_bullet _)]
  rfl

private theorem groups_rendered
    (h : ∀ entry ∈ entries, ∀ body ∈ entryBodies entry, matchedId body = none) :
    groups (entries.flatMap fun entry => idComment entry.id :: entryBodies entry) =
      ([], entries.map fun entry => (entry.id, entryBodies entry)) := by
  induction entries with
  | nil => rfl
  | cons entry entries ih =>
    obtain ⟨hentry, hrest⟩ := List.forall_mem_cons.mp h
    rw [List.flatMap_cons, List.cons_append, groups_idComment entry.identified,
      groups_append_plain hentry, ih hrest, List.append_nil]
    rfl

private theorem countP_rendered (entries : List MemoryEntry) :
    (entries.flatMap fun entry => idComment entry.id :: entryBodies entry).countP isIdComment =
      entries.length + (entries.flatMap entryBodies).countP isIdComment := by
  induction entries with
  | nil => rfl
  | cons entry entries ih =>
    have hid : isIdComment (idComment entry.id) = true := by
      rw [isIdComment, matchedId_eq_some_iff.2 ⟨entry.identified, rfl⟩]
      rfl
    rw [List.flatMap_cons, List.flatMap_cons, List.countP_append, List.countP_append,
      List.countP_cons_of_pos hid, ih, List.length_cons]
    omega

/-- A rendered section is read as the same entries exactly when nothing in it is taken for
something else. -/
theorem listed_rendered_iff (hnewline : IsNewline newline)
    (hprint : ∀ entry ∈ entries, Printable entry.content)
    (h : parseEntries (splitLines (sectionText newline entries)) = .ok read) :
    listed read = listed entries ↔
      ∀ entry ∈ entries, OnlyNewlines entry.content ∧ ¬HidesId entry.content := by
  have hread := parseEntries_listed h
  have hbodies := bodies_sectionText hnewline fun entry hentry => (hprint entry hentry).noReturn
  unfold bodies at hbodies
  rw [hbodies] at hread
  have hplain (hnone : ∀ entry ∈ entries, ∀ body ∈ entryBodies entry, matchedId body = none) :
      listed read = listed entries ↔ ∀ entry ∈ entries, OnlyNewlines entry.content := by
    rw [hread, groups_rendered hnone, List.map_map, listed, List.map_inj_left]
    refine forall₂_congr fun entry hentry => ?_
    rw [← spread_eq_iff, ← readContent_entryBodies (hprint entry hentry)]
    exact Prod.mk.injEq _ _ _ _ ▸ and_iff_right rfl
  have hhides {entry : MemoryEntry} (honly : OnlyNewlines entry.content) :
      (∀ body ∈ entryBodies entry, matchedId body = none) ↔ ¬HidesId entry.content := by
    rw [matchedId_entryBodies_iff, contentBodies_eq honly, HidesId]
    push Not
    exact forall₂_congr fun body _ => not_isIdComment_iff.symm
  constructor
  · intro heq
    have hnone : ∀ entry ∈ entries, ∀ body ∈ entryBodies entry, matchedId body = none := by
      have hlen : read.length = entries.length := by
        have hlength := congrArg List.length heq
        rwa [listed, listed, List.length_map, List.length_map] at hlength
      have hgroups := congrArg List.length hread
      rw [listed, List.length_map, List.length_map, length_groups, countP_rendered, hlen]
        at hgroups
      have hzero : (entries.flatMap entryBodies).countP isIdComment = 0 := by omega
      intro entry hentry body hbody
      apply not_isIdComment_iff.1
      exact List.countP_eq_zero.mp hzero body (List.mem_flatMap.mpr ⟨entry, hentry, hbody⟩)
    intro entry hentry
    have honly := (hplain hnone).mp heq entry hentry
    exact ⟨honly, (hhides honly).mp (hnone entry hentry)⟩
  · intro hclean
    exact (hplain fun entry hentry => (hhides (hclean entry hentry).1).mpr
      (hclean entry hentry).2).mpr fun entry hentry => (hclean entry hentry).1

/-! ## What was read can be printed -/

private theorem free_stripNewlines {line : Text} (h : line ∈ splitLines text) :
    '\r' ∉ stripNewlines line ∧ '\n' ∉ stripNewlines line := by
  obtain ⟨body, ending, rfl, hbody, hending⟩ := mem_splitLines h
  have hfree {d : Char} (hd : isLineBoundary d = true) : d ∉ body := by
    intro hmem
    rw [hbody d hmem] at hd
    cases hd
  obtain rfl | rfl | ⟨c, hc, rfl⟩ := hending
  · rw [stripNewlines_line hbody rfl]
    exact ⟨hfree rfl, hfree rfl⟩
  · rw [stripNewlines_line hbody rfl]
    exact ⟨hfree rfl, hfree rfl⟩
  · by_cases hcut : c = '\r' ∨ c = '\n'
    · rw [stripNewlines_line hbody]
      · exact ⟨hfree rfl, hfree rfl⟩
      · obtain rfl | rfl := hcut <;> rfl
    · have hstrip : stripNewlines (body ++ [c]) = body ++ [c] :=
        List.rdropWhile_concat_neg _ _ _ (by simpa using hcut)
      obtain ⟨hr, hn⟩ := not_or.mp hcut
      rw [hstrip]
      simp only [List.mem_append, List.mem_singleton, not_or]
      exact ⟨⟨hfree rfl, Ne.symm hr⟩, hfree rfl, Ne.symm hn⟩

private theorem splitOn_of_begins {a b : Text} (h : a <+: b) :
    (∃ first first', (a.splitOn '\n').head? = some first ∧ (b.splitOn '\n').head? = some first' ∧
      first <+: first') ∧
    ∀ line ∈ (a.splitOn '\n').tail, ∃ line' ∈ (b.splitOn '\n').tail, line <+: line' := by
  induction a generalizing b with
  | nil =>
    cases hb : b.splitOn '\n' with
    | nil => exact absurd hb (List.splitOn_ne_nil _ _)
    | cons first rest => exact ⟨⟨[], first, rfl, rfl, List.nil_prefix⟩, List.forall_mem_nil _⟩
  | cons c a ih =>
    cases b with
    | nil => cases List.prefix_nil.mp h
    | cons d b =>
      obtain ⟨rfl, hab⟩ := List.cons_prefix_cons.mp h
      obtain ⟨⟨first, first', ha, hb, hfirst⟩, hrest⟩ := ih hab
      obtain ⟨as, has⟩ := List.head?_eq_some_iff.mp ha
      obtain ⟨bs, hbs⟩ := List.head?_eq_some_iff.mp hb
      rw [has, hbs] at hrest
      rw [splitOn_cons, splitOn_cons, has, hbs]
      split
      · refine ⟨⟨[], [], rfl, rfl, List.nil_prefix⟩, List.forall_mem_cons.mpr ⟨?_, ?_⟩⟩
        · exact ⟨first', List.mem_cons_self, hfirst⟩
        · intro line hline
          obtain ⟨line', hmem, hle⟩ := hrest line hline
          exact ⟨line', List.mem_cons_of_mem _ hmem, hle⟩
      · exact ⟨⟨_, _, rfl, rfl, List.cons_prefix_cons.mpr ⟨rfl, hfirst⟩⟩, hrest⟩

/-- What a section was read as can be printed, and no later line of it reads as a comment. -/
theorem printable_of_parseEntries (hlines : ∀ line ∈ lines, line ∈ splitLines text)
    (h : parseEntries lines = .ok entries) :
    ∀ entry ∈ entries, Printable entry.content ∧ ¬HidesId entry.content := by
  intro entry hentry
  have hmem : (entry.id, entry.content) ∈ listed entries := List.mem_map_of_mem hentry
  rw [parseEntries_listed h] at hmem
  obtain ⟨group, hgroup, hpair⟩ := List.mem_map.mp hmem
  have hcontent : readContent group.2 = entry.content := congrArg Prod.snd hpair
  have hbodies : ∀ body ∈ group.2, ('\r' ∉ body ∧ '\n' ∉ body) ∧ ¬idOpening <+: body := by
    intro body hbody
    obtain ⟨hin, hnone⟩ := mem_groups hgroup body hbody
    obtain ⟨line, hline, rfl⟩ := List.mem_map.mp hin
    exact ⟨free_stripNewlines (hlines line hline), parseEntries_openings h line hline hnone⟩
  have hsized := entry.sized.1
  cases hlist : group.2 with
  | nil =>
    rw [hlist] at hcontent
    rw [← hcontent] at hsized
    cases hsized
  | cons first rest =>
    rw [hlist] at hcontent hbodies
    obtain ⟨hfirst, hrest⟩ := List.forall_mem_cons.mp hbodies
    have hfree {d : Char} (hd : ∀ body ∈ first :: rest, d ∉ body) :
        ∀ body ∈ first.drop 2 :: rest, d ∉ body := by
      obtain ⟨h1, h2⟩ := List.forall_mem_cons.mp hd
      exact List.forall_mem_cons.mpr ⟨fun hmem => h1 (List.mem_of_mem_drop hmem), h2⟩
    have hbegins : entry.content <+: ['\n'].intercalate (first.drop 2 :: rest) := by
      rw [← hcontent]
      exact List.rdropWhile_prefix _ _
    refine ⟨⟨fun hr => ?_, ?_⟩, ?_⟩
    · obtain hn | ⟨body, hbody, hmem⟩ := mem_intercalate (hbegins.subset hr)
      · cases hn
      · exact hfree (fun body hbody => (hbodies body hbody).1.1) body hbody hmem
    · have hne : entry.content ≠ [] := by
        intro hnil
        rw [hnil] at hsized
        cases hsized
      refine ⟨entry.content.dropLast, entry.content.getLast hne,
        (List.dropLast_append_getLast hne).symm, ?_⟩
      have hlast : ¬isSpace ((EntryReader.joinContent first rest).getLast
          (by rw [show EntryReader.joinContent first rest = _ from hcontent]; exact hne)) = true :=
        List.rdropWhile_last_not _ _ _
      have heq : EntryReader.joinContent first rest = entry.content := hcontent
      simp only [heq] at hlast
      exact Bool.eq_false_iff.mpr hlast
    · rintro ⟨line, hline, hid⟩
      obtain ⟨line', hline', hle⟩ := (splitOn_of_begins hbegins).2 line hline
      rw [List.splitOn_intercalate '\n' (hfree fun body hbody => (hbodies body hbody).1.2)
        (List.cons_ne_nil _ _)] at hline'
      obtain ⟨id, hid⟩ := Option.isSome_iff_exists.mp hid
      exact (hrest line' hline').2 ((opening_of_matchedId hid).trans hle)

end AwesomeAgent.Memory
