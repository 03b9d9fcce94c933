import AwesomeAgent.Memory.LocalFile
import Mathlib.Data.List.Infix

/-!
# The text of a managed section

Reading the section again finds each entry under its identifier, unless its content has lines
that the reader takes for something else. The reader splits a content at every boundary, so a
boundary other than a newline gets a newline behind it.
-/

namespace AwesomeAgent.Memory

variable {c : Char} {content rest newline body id : Text} {lines : List Text}

/-! ## Lines without their ends -/

/-- The lines of a text without their ends. -/
def bodies (text : Text) : List Text := (splitLines text).map stripNewlines

/-- A newline as the renderer writes it. -/
def IsNewline (newline : Text) : Prop := newline = ['\n'] ∨ newline = ['\r', '\n']

private theorem stripNewlines_cons (h : isLineBoundary c = false) (line : Text) :
    stripNewlines (c :: line) = c :: stripNewlines line := by
  have hc : ¬(decide (c = '\r') || decide (c = '\n')) = true := by
    rw [Bool.or_eq_true, decide_eq_true_eq, decide_eq_true_eq]
    rintro (rfl | rfl) <;> cases h
  unfold stripNewlines
  induction line using List.reverseRecOn with
  | nil => exact List.rdropWhile_concat_neg _ [] c hc
  | append_singleton line d ih =>
    rw [← List.cons_append, List.rdropWhile_concat, List.rdropWhile_concat, ih]
    split <;> rfl

/-- The ending of a line is stripped. -/
theorem stripNewlines_line {ending : Text} (h : ∀ c ∈ body, isLineBoundary c = false)
    (hending : stripNewlines ending = []) : stripNewlines (body ++ ending) = body := by
  induction body with
  | nil => exact hending
  | cons c body ih =>
    obtain ⟨hc, hbody⟩ := List.forall_mem_cons.mp h
    rw [List.cons_append, stripNewlines_cons hc, ih hbody]

private theorem map_startLine (h : isLineBoundary c = false) (lines : List Text) :
    (startLine c lines).map stripNewlines = startLine c (lines.map stripNewlines) := by
  cases lines with
  | nil => exact congrArg (fun line => [line]) (stripNewlines_cons h [])
  | cons line lines =>
    rw [startLine, List.map_cons, stripNewlines_cons h]
    rfl

private theorem bodies_inside (h : isLineBoundary c = false) (rest : Text) :
    bodies (c :: rest) = startLine c (bodies rest) := by
  rw [bodies, splitLines_of_inside h, map_startLine h, bodies]

private theorem bodies_soft (h : isLineBoundary c = true) (hn : c ≠ '\n') (hr : c ≠ '\r')
    (rest : Text) :
    bodies (c :: rest) = [c] :: bodies rest := by
  rw [bodies, splitLines_of_boundary h fun hbad => hr hbad.1, List.map_cons]
  congr 1
  exact List.rdropWhile_concat_neg _ [] c (by simp [hn, hr])

private theorem bodies_newline (h : IsNewline newline) (rest : Text) :
    bodies (newline ++ rest) = [] :: bodies rest := by
  obtain rfl | rfl := h
  · rw [bodies, List.singleton_append, splitLines_of_boundary rfl fun hbad => by cases hbad.1]
    rfl
  · rw [bodies, List.cons_append, List.singleton_append, splitLines_crlf]
    rfl

private theorem bodies_line (hbody : ∀ c ∈ body, isLineBoundary c = false) (h : IsNewline newline)
    (rest : Text) : bodies (body ++ (newline ++ rest)) = body :: bodies rest := by
  induction body with
  | nil => exact bodies_newline h rest
  | cons c body ih =>
    obtain ⟨hc, hbody⟩ := List.forall_mem_cons.mp hbody
    rw [List.cons_append, bodies_inside hc, ih hbody]
    rfl

/-- The lines that a content is read as. -/
def contentBodies : Text → List Text
  | [] => [[]]
  | c :: rest =>
      if c = '\n' then [] :: contentBodies rest
      else if isLineBoundary c then [c] :: contentBodies rest
      else startLine c (contentBodies rest)

/-- Content has a first body. -/
theorem contentBodies_eq_cons (content : Text) :
    ∃ first rest, contentBodies content = first :: rest := by
  cases content with
  | nil => exact ⟨[], [], rfl⟩
  | cons c rest =>
    rw [contentBodies]
    split
    · exact ⟨_, _, rfl⟩
    · split
      · exact ⟨_, _, rfl⟩
      · cases contentBodies rest with
        | nil => exact ⟨_, _, rfl⟩
        | cons first more => exact ⟨_, _, rfl⟩

/-- A content with another spelling of its newlines. -/
def respell (newline content : Text) : Text :=
  content.flatMap fun c => if c = '\n' then newline else [c]

private theorem bodies_respell (h : IsNewline newline) (hr : '\r' ∉ content) (rest : Text) :
    bodies (respell newline content ++ (newline ++ rest)) =
      contentBodies content ++ bodies rest := by
  unfold respell
  induction content with
  | nil => exact bodies_newline h rest
  | cons c content ih =>
    obtain ⟨hc, hr⟩ := not_or.mp (mt List.mem_cons.mpr hr)
    rw [List.flatMap_cons, List.append_assoc, contentBodies]
    split
    · rw [bodies_newline h, ih hr]
      rfl
    · next hn =>
      rw [List.singleton_append]
      split
      · next hb =>
        rw [bodies_soft hb hn (Ne.symm hc), ih hr]
        rfl
      · next hb =>
        obtain ⟨first, more, hcons⟩ := contentBodies_eq_cons content
        rw [bodies_inside (Bool.eq_false_iff.mpr hb), ih hr,
          startLine_append (by rw [hcons]; exact List.cons_ne_nil _ _)]

/-- A content with a newline behind each boundary that is no newline. -/
def spread (content : Text) : Text :=
  content.flatMap fun c => if c ≠ '\n' ∧ isLineBoundary c = true then [c, '\n'] else [c]

/-- The bodies of content join to the content with its soft boundaries spread. -/
theorem intercalate_contentBodies (content : Text) :
    ['\n'].intercalate (contentBodies content) = spread content := by
  unfold spread
  induction content with
  | nil => rfl
  | cons c content ih =>
    obtain ⟨first, more, hcons⟩ := contentBodies_eq_cons content
    rw [List.flatMap_cons, ← ih, contentBodies, hcons]
    split
    · next hn => rw [hn, List.intercalate_cons_cons, if_neg (fun h => h.1 rfl)]; rfl
    · next hn =>
      split
      · next hb =>
        rw [List.intercalate_cons_cons, if_pos ⟨hn, hb⟩]
        rfl
      · next hb =>
        rw [if_neg fun h => hb h.2]
        cases more with
        | nil => rfl
        | cons second later =>
          rw [startLine, List.intercalate_cons_cons, List.intercalate_cons_cons]
          rfl

private theorem length_spread (content : Text) :
    (spread content).length =
      content.length + content.countP fun c => decide (c ≠ '\n' ∧ isLineBoundary c = true) := by
  unfold spread
  induction content with
  | nil => rfl
  | cons c content ih =>
    rw [List.flatMap_cons, List.length_append, ih, List.length_cons, List.countP_cons]
    split
    · next h =>
      rw [if_pos (decide_eq_true h), List.length_cons, List.length_singleton]
      omega
    · next h =>
      rw [if_neg (mt of_decide_eq_true h), List.length_singleton]
      omega

/-- A content has newlines as its only boundaries. -/
def OnlyNewlines (content : Text) : Prop := ∀ c ∈ content, isLineBoundary c = true → c = '\n'

/-- Content is spread to itself when newlines are its only boundaries. -/
theorem spread_eq_iff (content : Text) : spread content = content ↔ OnlyNewlines content := by
  constructor
  · intro h c hc hb
    by_contra hn
    have hlen := length_spread content
    rw [h] at hlen
    have hpos : 0 < content.countP fun c => decide (c ≠ '\n' ∧ isLineBoundary c = true) :=
      List.countP_pos_iff.mpr ⟨c, hc, decide_eq_true ⟨hn, hb⟩⟩
    omega
  · intro h
    unfold spread
    induction content with
    | nil => rfl
    | cons c content ih =>
      obtain ⟨hc, hrest⟩ := List.forall_mem_cons.mp h
      rw [List.flatMap_cons, ih hrest, if_neg fun hbad => hbad.1 (hc hbad.2)]
      rfl

/-- Splitting at newlines goes on in the first part. -/
theorem splitOn_cons (c : Char) (content : Text) : (c :: content).splitOn '\n' =
    if c = '\n' then [] :: content.splitOn '\n' else startLine c (content.splitOn '\n') := by
  rw [List.splitOn_cons_eq_if_modifyHead]
  simp only [beq_iff_eq]
  cases h : content.splitOn '\n' with
  | nil => exact absurd h (List.splitOn_ne_nil _ _)
  | cons first rest => rfl

/-- A content with no other boundaries is read as the lines that its newlines separate. -/
theorem contentBodies_eq (h : OnlyNewlines content) :
    contentBodies content = content.splitOn '\n' := by
  induction content with
  | nil => rfl
  | cons c content ih =>
    obtain ⟨hc, hrest⟩ := List.forall_mem_cons.mp h
    rw [contentBodies, splitOn_cons, ih hrest]
    split
    · rfl
    · next hn => rw [if_neg (mt hc hn)]

/-! ## Identifier comments -/

/-- A body names an identifier when it is the comment of a memory identifier. -/
theorem matchedId_eq_some_iff : matchedId body = some id ↔
    isMemoryId id = true ∧ body = idComment id := by
  simp only [matchedId, Option.ite_none_right_eq_some, Option.some.injEq]
  constructor
  · rintro ⟨hmatch, rfl⟩
    exact hmatch
  · rintro ⟨hid, rfl⟩
    have hlen : id.length = 39 := by
      simp only [isMemoryId, Bool.and_eq_true, decide_eq_true_eq] at hid
      exact hid.1.2
    have htake : ((idComment id).drop idOpening.length).take 39 = id := by
      rw [idComment, List.append_assoc, List.drop_left, ← hlen, List.take_left]
    rw [htake]
    exact ⟨⟨hid, rfl⟩, rfl⟩

/-- A body that names an identifier begins like a comment. -/
theorem opening_of_matchedId (h : matchedId body = some id) : idOpening <+: body := by
  obtain ⟨-, rfl⟩ := matchedId_eq_some_iff.1 h
  rw [idComment, List.append_assoc]
  exact List.prefix_append _ _

/-- The line is an identifier comment. -/
def isIdComment (body : Text) : Bool := (matchedId body).isSome

/-- A body that is no comment names no identifier. -/
theorem not_isIdComment_iff : ¬isIdComment body = true ↔ matchedId body = none := by
  rw [isIdComment, Bool.not_eq_true, Option.isSome_eq_false_iff, Option.isNone_iff_eq_none]

private theorem inside_idComment (h : isMemoryId id = true) :
    ∀ c ∈ idComment id, isLineBoundary c = false := by
  simp only [isMemoryId, Bool.and_eq_true, decide_eq_true_eq] at h
  obtain ⟨⟨hopen, -⟩, hrest⟩ := h
  obtain ⟨digits, rfl⟩ := List.isPrefixOf_iff_prefix.mp hopen
  have hdigits : ∀ c ∈ digits, isLineBoundary c = false := by
    intro c hc
    have hdigit := List.all_eq_true.mp hrest c hc
    cases hb : isLineBoundary c with
    | false => rfl
    | true =>
      simp only [isLineBoundary, List.contains_eq_mem, List.mem_cons, List.not_mem_nil,
        decide_eq_true_eq, or_false] at hb
      simp only [Char.isDigit, Bool.or_eq_true, Bool.and_eq_true, decide_eq_true_eq] at hdigit
      have hlow : 48 ≤ c.toNat ∧ c.toNat ≤ 57 ∨ 97 ≤ c.toNat ∧ c.toNat ≤ 102 :=
        hdigit.imp (fun h => ⟨h.1, h.2⟩) fun h => ⟨h.1, h.2⟩
      omega
  have hfixed : (idOpening ++ "memory_".toList ++ idClosing).all (fun c => !isLineBoundary c) =
      true := by decide
  intro c hc
  simp only [idComment, List.mem_append] at hc
  have hin := List.all_eq_true.mp hfixed c
  simp only [List.mem_append, Bool.not_eq_true'] at hin
  obtain (hc | hc | hc) | hc := hc
  · exact hin (.inl (.inl hc))
  · exact hin (.inl (.inr hc))
  · exact hdigits c hc
  · exact hin (.inr hc)

/-! ## Rendering -/

/-- The text of an entry in the section. -/
def entryText (newline : Text) (entry : MemoryEntry) : Text :=
  idComment entry.id ++ (newline ++ ("- ".toList ++ (respell newline entry.content ++ newline)))

/-- The text between the marker lines. -/
def sectionText (newline : Text) (entries : List MemoryEntry) : Text :=
  entries.flatMap (entryText newline)

private theorem intercalate_append (newline : Text) (h : lines ≠ []) :
    newline.intercalate lines ++ newline = lines.flatMap (· ++ newline) := by
  induction lines with
  | nil => exact absurd rfl h
  | cons line lines ih =>
    cases lines with
    | nil => rw [List.intercalate_singleton, List.flatMap_singleton]
    | cons second more =>
      rw [List.intercalate_cons_cons, List.flatMap_cons, ← ih (List.cons_ne_nil _ _),
        List.append_assoc, List.append_assoc]

private theorem flatMap_splitOn (newline content : Text) :
    (content.splitOn '\n').flatMap (· ++ newline) = respell newline content ++ newline := by
  unfold respell
  induction content with
  | nil => exact List.flatMap_singleton _ _
  | cons c content ih =>
    rw [splitOn_cons, List.flatMap_cons, List.append_assoc, ← ih]
    split
    · rfl
    · cases h : content.splitOn '\n' with
      | nil => exact absurd h (List.splitOn_ne_nil _ _)
      | cons first rest => rfl

private theorem flatMap_entryLines (newline : Text) (entry : MemoryEntry) :
    (entryLines entry).flatMap (· ++ newline) = entryText newline entry := by
  have hsplit := flatMap_splitOn newline entry.content
  rw [entryLines, List.flatMap_cons, entryText, ← hsplit, List.append_assoc]
  cases h : entry.content.splitOn '\n' with
  | nil => exact absurd h (List.splitOn_ne_nil _ _)
  | cons first rest => rfl

/-- The section is its text between two marker lines. -/
theorem renderSection_eq (entries : List MemoryEntry) (newline : Text) :
    renderSection entries newline =
      startMarker ++ newline ++ sectionText newline entries ++ (endMarker ++ newline) := by
  rw [renderSection, intercalate_append, List.flatMap_append, List.flatMap_append,
    List.flatMap_singleton, List.flatMap_singleton, List.flatMap_assoc]
  · simp only [flatMap_entryLines]
    rfl
  · exact List.append_ne_nil_of_right_ne_nil _ (List.cons_ne_nil _ _)

/-- The lines that an entry is read as. -/
def entryBodies (entry : MemoryEntry) : List Text :=
  startLine '-' (startLine ' ' (contentBodies entry.content))

private theorem bodies_entryText (h : IsNewline newline) {entry : MemoryEntry}
    (hr : '\r' ∉ entry.content) (rest : Text) :
    bodies (entryText newline entry ++ rest) =
      (idComment entry.id :: entryBodies entry) ++ bodies rest := by
  obtain ⟨first, more, hcons⟩ := contentBodies_eq_cons entry.content
  rw [entryText, List.append_assoc, List.append_assoc, bodies_line
    (inside_idComment entry.identified) h, List.cons_append]
  congr 1
  change bodies ('-' :: ' ' :: (respell newline entry.content ++ newline ++ rest)) = _
  rw [bodies_inside rfl, bodies_inside rfl, List.append_assoc, bodies_respell h hr, entryBodies,
    hcons]
  rfl

variable {entries : List MemoryEntry}

/-- The bodies of a section are those of its entries. -/
theorem bodies_sectionText (h : IsNewline newline) (hr : ∀ entry ∈ entries, '\r' ∉ entry.content) :
    bodies (sectionText newline entries) =
      entries.flatMap fun entry => idComment entry.id :: entryBodies entry := by
  unfold sectionText
  induction entries with
  | nil => rfl
  | cons entry entries ih =>
    obtain ⟨hentry, hrest⟩ := List.forall_mem_cons.mp hr
    rw [List.flatMap_cons, List.flatMap_cons, bodies_entryText h hentry, ih hrest]

/-! ## Reading the lines of a section -/

/-- The lines before the first identifier, and the lines of each identifier. -/
def groups : List Text → List Text × List (Text × List Text)
  | [] => ([], [])
  | body :: rest =>
      match matchedId body with
      | some id => ([], (id, (groups rest).1) :: (groups rest).2)
      | none => (body :: (groups rest).1, (groups rest).2)

/-- The content of an entry whose lines are given. -/
def readContent : List Text → Text
  | [] => []
  | first :: rest => EntryReader.joinContent first rest

/-- What an entry under way will be listed as. -/
def underWay (current : Option Text) (lines : List Text) : List (Text × Text) :=
  current.toList.map fun id => (id, readContent lines)

/-- Bodies without a comment stand before the first group. -/
theorem groups_append_plain {front : List Text} (h : ∀ body ∈ front, matchedId body = none)
    (rest : List Text) : groups (front ++ rest) = (front ++ (groups rest).1, (groups rest).2) := by
  induction front with
  | nil => rfl
  | cons body front ih =>
    obtain ⟨hbody, hfront⟩ := List.forall_mem_cons.mp h
    rw [List.cons_append, groups, hbody, ih hfront]
    rfl

/-- A comment opens a group. -/
theorem groups_idComment (h : isMemoryId id = true) (rest : List Text) :
    groups (idComment id :: rest) = ([], (id, (groups rest).1) :: (groups rest).2) := by
  rw [groups, matchedId_eq_some_iff.2 ⟨h, rfl⟩]

/-- There are as many groups as comments. -/
theorem length_groups (bodies : List Text) :
    (groups bodies).2.length = bodies.countP isIdComment := by
  induction bodies with
  | nil => rfl
  | cons body rest ih =>
    rw [groups, List.countP_cons, ← ih, isIdComment]
    cases matchedId body with
    | none => rfl
    | some id => rfl

/-- A group has no comment inside. -/
theorem mem_groups {bodies : List Text} {group : Text × List Text} (h : group ∈ (groups bodies).2) :
    ∀ body ∈ group.2, body ∈ bodies ∧ matchedId body = none := by
  have hfront : ∀ {bodies : List Text}, ∀ body ∈ (groups bodies).1,
      body ∈ bodies ∧ matchedId body = none := by
    intro bodies
    induction bodies with
    | nil => exact List.forall_mem_nil _
    | cons first rest ih =>
      rw [groups]
      cases hid : matchedId first with
      | some id => exact List.forall_mem_nil _
      | none =>
        exact List.forall_mem_cons.mpr ⟨⟨List.mem_cons_self, hid⟩,
          fun body hbody => ⟨List.mem_cons_of_mem _ (ih body hbody).1, (ih body hbody).2⟩⟩
  induction bodies with
  | nil => cases h
  | cons first rest ih =>
    rw [groups] at h
    have hgroup : ∀ body ∈ group.2, body ∈ rest ∧ matchedId body = none := by
      cases hid : matchedId first with
      | none =>
        rw [hid] at h
        exact ih h
      | some id =>
        rw [hid] at h
        obtain rfl | h := List.mem_cons.mp h
        · exact hfront
        · exact ih h
    exact fun body hbody => ⟨List.mem_cons_of_mem _ (hgroup body hbody).1, (hgroup body hbody).2⟩

private theorem EntryReader.finish_listed {r r' : EntryReader} (h : r.finish = .ok r') :
    listed r'.entries =
        listed r.entries ++ underWay r.currentId (r.contentLines.map stripNewlines) ∧
      r'.contentLines = [] := by
  unfold EntryReader.finish at h
  cases hid : r.currentId with
  | none =>
    rw [hid] at h
    dsimp only at h
    split at h
    · cases h
    · cases h
      exact ⟨(List.append_nil _).symm, rfl⟩
  | some id =>
    rw [hid] at h
    dsimp only at h
    split at h
    · cases h
    · next first rest hlines =>
      split at h
      · cases h
      split at h
      · cases h
      · next entry hentry =>
        split at h
        · cases h
        · cases h
          unfold MemoryEntry.make at hentry
          split at hentry
          · cases hentry
            refine ⟨?_, rfl⟩
            rw [hlines, listed, List.map_append]
            rfl
          · cases hentry

/-- Reading lists the entries before, the entry under way, and one entry for each identifier. -/
theorem EntryReader.foldlM_listed {r read last : EntryReader}
    (h : lines.foldlM EntryReader.parseLine r = .ok read) (hfinish : read.finish = .ok last) :
    listed last.entries = listed r.entries ++
      underWay r.currentId (r.contentLines.map stripNewlines ++
        (groups (lines.map stripNewlines)).1) ++
      (groups (lines.map stripNewlines)).2.map fun group => (group.1, readContent group.2) := by
  induction lines generalizing r with
  | nil =>
    cases h
    obtain ⟨hlisted, -⟩ := finish_listed hfinish
    rw [hlisted, List.map_nil, groups, List.append_nil, List.map_nil, List.append_nil]
  | cons line lines ih =>
    rw [List.foldlM_cons] at h
    cases hstep : r.parseLine line with
    | error e =>
      rw [hstep] at h
      cases h
    | ok next =>
      rw [hstep] at h
      rw [ih h, List.map_cons, groups]
      unfold parseLine at hstep
      cases hid : matchedId (stripNewlines line) with
      | none =>
        rw [hid] at hstep
        dsimp only at hstep
        split at hstep
        · cases hstep
        · cases hstep
          simp only [List.map_append, List.map_singleton, List.append_assoc]
          rfl
      | some id =>
        rw [hid] at hstep
        cases hend : r.finish with
        | error e =>
          rw [hend] at hstep
          cases hstep
        | ok ended =>
          rw [hend] at hstep
          cases hstep
          obtain ⟨hlisted, hlines⟩ := finish_listed hend
          simp only [hlisted, hlines, List.map_nil, List.nil_append, List.append_nil,
            List.map_cons, List.append_assoc]
          rfl

private theorem EntryReader.foldlM_openings {r read : EntryReader}
    (h : lines.foldlM EntryReader.parseLine r = .ok read) :
    ∀ line ∈ lines, matchedId (stripNewlines line) = none →
      ¬idOpening <+: stripNewlines line := by
  induction lines generalizing r with
  | nil => exact List.forall_mem_nil _
  | cons line lines ih =>
    rw [List.foldlM_cons] at h
    cases hstep : r.parseLine line with
    | error e =>
      rw [hstep] at h
      cases h
    | ok next =>
      rw [hstep] at h
      refine List.forall_mem_cons.mpr ⟨fun hid hopen => ?_, ih h⟩
      unfold parseLine at hstep
      rw [hid] at hstep
      dsimp only at hstep
      rw [if_pos (List.isPrefixOf_iff_prefix.mpr hopen)] at hstep
      cases hstep

/-- The entries of a section are its groups. -/
theorem parseEntries_listed (h : parseEntries lines = .ok entries) :
    listed entries = (groups (lines.map stripNewlines)).2.map fun group =>
      (group.1, readContent group.2) := by
  unfold parseEntries at h
  cases hread : lines.foldlM EntryReader.parseLine ⟨[], none, []⟩ with
  | error e =>
    rw [hread] at h
    cases h
  | ok read =>
    rw [hread] at h
    cases hfinish : read.finish with
    | error e =>
      change (read.finish >>= _) = _ at h
      rw [hfinish] at h
      cases h
    | ok last =>
      change (read.finish >>= _) = _ at h
      rw [hfinish] at h
      cases h
      rw [EntryReader.foldlM_listed hread hfinish]
      rfl

/-- Where entries are parsed, no line opens like a comment without being one. -/
theorem parseEntries_openings (h : parseEntries lines = .ok entries) :
    ∀ line ∈ lines, matchedId (stripNewlines line) = none → ¬idOpening <+: stripNewlines line := by
  unfold parseEntries at h
  cases hread : lines.foldlM EntryReader.parseLine ⟨[], none, []⟩ with
  | error e =>
    rw [hread] at h
    cases h
  | ok read => exact EntryReader.foldlM_openings hread

end AwesomeAgent.Memory
