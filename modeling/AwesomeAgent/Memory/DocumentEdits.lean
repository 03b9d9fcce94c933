import AwesomeAgent.Library.FaultySteps
import AwesomeAgent.Memory.RoundTrip

/-!
# Sessions of changes

Each successful change parses the file, edits its entries and writes the file. Over a session,
the file is read back as asked at every change exactly when every change renders contents that
the reader reads as they are.
-/

namespace AwesomeAgent.Memory

variable {service : LocalMemoryService} {file : LocalMemoryFile} {raw : Bytes} {text newline : Text}
  {parsed written : ParsedDocument} {entries : List MemoryEntry} {op : MemoryOperation}
  {stored stored' : Stored} {result : MemoryMutationResult}

/-! ## Parsing -/

/-- The numbers of the lines of a text that are a marker. -/
def markersOf (text marker : Text) : List Nat :=
  (List.range (splitLines text).length).filter fun i =>
    stripNewlines ((splitLines text).getD i []) = marker

private theorem isNewline_preferred (text : Text) : IsNewline (preferredNewline text) := by
  unfold preferredNewline
  split
  · exact .inr rfl
  · exact .inl rfl

/-- A document whose section was found. -/
structure Sectioned (text : Text) (parsed : ParsedDocument) (start stop : Nat) : Prop where
  hasSection : parsed.hasSection = true
  starts : markersOf text startMarker = [start]
  stops : markersOf text endMarker = [stop]
  ordered : start < stop
  entries : parseEntries (((splitLines text).take stop).drop (start + 1)) =
    .ok parsed.document.entries
  before : parsed.before = ((splitLines text).take start).flatten
  after : parsed.after = ((splitLines text).drop (stop + 1)).flatten

/-- A document without a section. -/
structure Unsectioned (text : Text) (parsed : ParsedDocument) : Prop where
  hasSection : parsed.hasSection = false
  starts : markersOf text startMarker = []
  before : parsed.before = text
  after : parsed.after = []
  entries : parsed.document.entries = []

variable {marker content entryId : Text} {expectedHash : String}

private theorem markerLines_ok {found : List Nat}
    (h : markerLines (splitLines text) marker text = .ok found) :
    markersOf text marker = found := by
  unfold markerLines at h
  dsimp only at h
  split at h
  · cases h
  · cases h
    rfl

private theorem document_ok {document : MemoryDocument}
    (h : file.document raw text entries = .ok document) : document.entries = entries := by
  unfold LocalMemoryFile.document at h
  split at h
  · cases h
  · cases h
    rfl

private theorem LocalMemoryFile.parse_cases (h : file.parse raw = .ok parsed) :
    ∃ text, decodeUtf8 raw = some text ∧ IsNewline parsed.newline ∧
      (Unsectioned text parsed ∨ ∃ start stop, Sectioned text parsed start stop) := by
  unfold LocalMemoryFile.parse at h
  split at h
  · cases h
  split at h
  · cases h
  next text htext =>
  refine ⟨text, htext, ?_⟩
  obtain ⟨starts, hstarts, hrest⟩ := except_bind_ok h
  obtain ⟨stops, hstops, hfound⟩ := except_bind_ok hrest
  have hstart := markerLines_ok hstarts
  have hstop := markerLines_ok hstops
  clear h hrest hstarts hstops
  split at hfound
  · obtain ⟨document, hdocument, hparsed⟩ := except_bind_ok hfound
    cases hparsed
    exact ⟨isNewline_preferred text, .inl ⟨rfl, hstart, rfl, rfl, document_ok hdocument⟩⟩
  · next start stop =>
    split at hfound
    · cases hfound
    next hordered =>
    obtain ⟨entries, hentries, hdocuments⟩ := except_bind_ok hfound
    obtain ⟨document, hdocument, hparsed⟩ := except_bind_ok hdocuments
    cases hparsed
    refine ⟨?_, .inr ⟨start, stop, rfl, hstart, hstop, Nat.lt_of_not_le hordered, ?_, rfl, rfl⟩⟩
    · dsimp only
      split
      · exact isNewline_preferred text
      · next hne =>
        unfold lineEnding at hne ⊢
        split
        · exact .inr rfl
        · split
          · exact .inl rfl
          · next h1 h2 => exact absurd (by rw [if_neg h1, if_neg h2]) hne
    · rw [hentries, document_ok hdocument]
  · cases hfound

/-! ## Writing -/

private theorem splitLines_newline (h : IsNewline newline) : splitLines newline = [newline] := by
  obtain rfl | rfl := h <;> rfl

private theorem stripNewlines_newline (h : IsNewline newline) : stripNewlines newline = [] := by
  obtain rfl | rfl := h <;> rfl

private theorem isEnded_append (h : IsNewline newline) (text : Text) :
    IsEnded (text ++ newline) ∧ (text ++ newline).getLast? ≠ some '\r' := by
  obtain rfl | rfl := h
  · refine ⟨⟨text, '\n', rfl, rfl⟩, ?_⟩
    rw [List.getLast?_append_of_ne_nil _ (List.cons_ne_nil _ _)]
    exact fun h => by cases h
  · refine ⟨⟨text ++ ['\r'], '\n', (List.append_assoc text ['\r'] ['\n']).symm, rfl⟩, ?_⟩
    rw [List.getLast?_append_of_ne_nil _ (List.cons_ne_nil _ _)]
    exact fun h => by cases h

private theorem endsLine_sectionText (h : IsNewline newline) (entries : List MemoryEntry) :
    EndsLine (sectionText newline entries) := by
  obtain rfl | ⟨front, entry, rfl⟩ := List.eq_nil_or_concat entries
  · exact .inl rfl
  · right
    rw [List.concat_eq_append, sectionText, List.flatMap_append, List.flatMap_singleton, entryText,
      ← List.append_assoc, ← List.append_assoc, ← List.append_assoc, ← List.append_assoc]
    exact (isEnded_append h _).1

private theorem inside_marker (h : marker = startMarker ∨ marker = endMarker) :
    ∀ c ∈ marker, isLineBoundary c = false := by
  have hall : marker.all (fun c => !isLineBoundary c) = true := by
    obtain rfl | rfl := h <;> decide
  intro c hc
  have hin := List.all_eq_true.mp hall c hc
  rwa [Bool.not_eq_true'] at hin

private theorem splitLines_written {before after : Text} (hbefore : EndsLine before)
    (hnewline : IsNewline newline) (entries : List MemoryEntry) :
    splitLines (before ++ renderSection entries newline ++ after) =
      splitLines before ++ ((startMarker ++ newline) ::
        (splitLines (sectionText newline entries) ++
          ((endMarker ++ newline) :: splitLines after))) := by
  have hmarker {marker : Text} (h : marker = startMarker ∨ marker = endMarker) (rest : Text) :
      splitLines (marker ++ newline ++ rest) = (marker ++ newline) :: splitLines rest := by
    rw [splitLines_append (.inr (isEnded_append hnewline marker).1)
      fun hr => absurd hr (isEnded_append hnewline marker).2,
      splitLines_line (inside_marker h) (splitLines_newline hnewline)]
    rfl
  have htext : before ++ renderSection entries newline ++ after =
      before ++ (startMarker ++ newline ++ (sectionText newline entries ++
        (endMarker ++ newline ++ after))) := by
    rw [renderSection_eq]
    simp only [List.append_assoc]
  have hangle {marker : Text} (h : marker = startMarker ∨ marker = endMarker) (rest : Text) :
      (marker ++ newline ++ rest).head? ≠ some '\n' := by
    obtain rfl | rfl := h <;> exact fun h => by cases h
  rw [htext, splitLines_append hbefore fun _ => hangle (.inl rfl) _, hmarker (.inl rfl),
    splitLines_append (endsLine_sectionText hnewline entries) fun _ => hangle (.inr rfl) _,
    hmarker (.inr rfl)]

private theorem mem_markersOf {line : Text} {front rest : List Text}
    (hlines : splitLines text = front ++ line :: rest) (h : stripNewlines line = marker) :
    front.length ∈ markersOf text marker := by
  have hget : (front ++ line :: rest).getD front.length [] = line := by
    rw [List.getD_eq_getElem?_getD, List.getElem?_append_right le_rfl, Nat.sub_self]
    rfl
  rw [markersOf, hlines, List.mem_filter, List.mem_range, hget]
  exact ⟨by simp, decide_eq_true h⟩

/-- A written text that parses has its section where it was written. -/
theorem parse_written {before after : Text} (hbefore : EndsLine before)
    (hnewline : IsNewline newline)
    (h : file.parse (encodeUtf8 (before ++ renderSection entries newline ++ after)) = .ok written) :
    parseEntries (splitLines (sectionText newline entries)) = .ok written.document.entries ∧
      written.before = before ∧ written.after = after := by
  obtain ⟨text, htext, -, hcases⟩ := file.parse_cases h
  rw [decodeUtf8_encodeUtf8] at htext
  obtain rfl := Option.some.inj htext
  have hlines : splitLines (before ++ renderSection entries newline ++ after) = _ :=
    splitLines_written hbefore hnewline entries
  generalize hsection : splitLines (sectionText newline entries) = inner at hlines ⊢
  generalize hfirst : splitLines before = front at hlines
  have hstrip {marker : Text} (h : marker = startMarker ∨ marker = endMarker) :
      stripNewlines (marker ++ newline) = marker :=
    stripNewlines_line (inside_marker h) (stripNewlines_newline hnewline)
  have hstart := mem_markersOf hlines (hstrip (.inl rfl))
  have hafter : splitLines (before ++ renderSection entries newline ++ after) =
      (front ++ (startMarker ++ newline) :: inner) ++
        (endMarker ++ newline) :: splitLines after := by
    rw [hlines, List.append_assoc]
    rfl
  have hstop := mem_markersOf hafter (hstrip (.inr rfl))
  rw [List.length_append, List.length_cons] at hstop
  obtain hnone | ⟨start, stop, hfound⟩ := hcases
  · rw [hnone.starts] at hstart
    cases hstart
  · rw [hfound.starts] at hstart
    rw [hfound.stops] at hstop
    obtain rfl := List.mem_singleton.mp hstart
    obtain rfl := List.mem_singleton.mp hstop
    have hentries := hfound.entries
    have hb := hfound.before
    have ha := hfound.after
    rw [hlines] at hentries hb ha
    refine ⟨?_, ?_, ?_⟩
    · rw [← hentries]
      congr 1
      rw [List.take_length_add_append, List.take_succ_cons, List.take_left,
        List.drop_length_add_append]
      rfl
    · rw [hb, List.take_left, ← hfirst, flatten_splitLines]
    · rw [ha, Nat.add_assoc, List.drop_length_add_append, List.drop_succ_cons,
        List.drop_length_add_append, List.drop_succ_cons, List.drop_zero, flatten_splitLines]

/-! ## Changes -/

/-- The contents that a change brings: the content that the policy passes on. -/
def MemoryOperation.newContent : MemoryOperation → Option Text
  | .add _ content _ => some (normalized content)
  | .replace _ content _ => some (normalized content)
  | .remove _ _ => none

/-- The entries with the change that was asked for. -/
def MemoryOperation.asked : MemoryOperation → List (Text × Text) → List (Text × Text)
  | .add newId content _, items => items ++ [(newId, normalized content)]
  | .replace entryId content _, items =>
      items.map fun item => if item.1 = entryId then (entryId, normalized content) else item
  | .remove entryId _, items => items.filter fun item => item.1 ≠ entryId

/-- A change that was carried out. -/
def Succeeds (service : LocalMemoryService) (stored : Stored) (op : MemoryOperation)
    (stored' : Stored) : Prop :=
  ∃ result, service.apply stored op = .ok (result, stored') ∧ result.status.isDone = true

/-- The entries that a successful change renders. -/
structure Writes (file : LocalMemoryFile) (stored : Stored) (op : MemoryOperation)
    (stored' : Stored) (parsed : ParsedDocument) (entries : List MemoryEntry) : Prop where
  read : file.parse (stored.getD []) = .ok parsed
  writes : stored' = some (encodeUtf8
    (closedBefore parsed ++ renderSection entries parsed.newline ++ parsed.after))
  parses : ∃ written, file.parse (stored'.getD []) = .ok written
  asked : listed entries = op.asked (listed parsed.document.entries)
  origin : ∀ entry ∈ entries,
    entry ∈ parsed.document.entries ∨ op.newContent = some entry.content
  used : ∀ content, op.newContent = some content → ∃ entry ∈ entries, entry.content = content

private theorem make_ok {id : Text} {entry : MemoryEntry}
    (h : MemoryEntry.make id content = .ok entry) : entry.id = id ∧ entry.content = content := by
  unfold MemoryEntry.make at h
  split at h
  · cases h
    exact ⟨rfl, rfl⟩
  · cases h

private theorem LocalMemoryFile.writeEntries_done {status : MemoryMutationStatus}
    (h : file.writeEntries stored parsed entries status entryId = .ok (result, stored'))
    (hdone : result.status.isDone = true) :
    stored' = some (encodeUtf8
        (closedBefore parsed ++ renderSection entries parsed.newline ++ parsed.after)) ∧
      ∃ written, file.parse (stored'.getD []) = .ok written := by
  unfold LocalMemoryFile.writeEntries at h
  dsimp only at h
  split at h
  · cases h
  obtain ⟨written, hwritten, h⟩ := except_bind_ok h
  split at h
  · cases h
    cases hdone
  · cases h
    exact ⟨rfl, written, hwritten⟩

private theorem LocalMemoryFile.readForMutation_done
    {change : ParsedDocument → Except LocalMemoryError (MemoryMutationResult × Stored)}
    (h : file.readForMutation stored expectedHash change = .ok (result, stored'))
    (hdone : result.status.isDone = true) :
    ∃ parsed, file.parse (stored.getD []) = .ok parsed ∧ change parsed = .ok (result, stored') := by
  unfold LocalMemoryFile.readForMutation at h
  dsimp only at h
  split at h
  · cases h
    cases hdone
  · exact except_bind_ok h

private theorem LocalMemoryFile.add_done {newId : Text}
    (h : file.add stored newId (normalized content) expectedHash = .ok (result, stored'))
    (hdone : result.status.isDone = true) : ∃ parsed entries,
      Writes file stored (.add newId content expectedHash) stored' parsed entries := by
  obtain ⟨parsed, hparsed, hadd⟩ := file.readForMutation_done h hdone
  obtain ⟨entry, hentry, hwrite⟩ := except_bind_ok hadd
  obtain ⟨rfl, hcontent⟩ := make_ok hentry
  split at hwrite
  · cases hwrite
  obtain ⟨hwrites, hparses⟩ := file.writeEntries_done hwrite hdone
  refine ⟨parsed, _, hparsed, hwrites, hparses, ?_, ?_, ?_⟩
  · rw [MemoryOperation.asked, ← hcontent, listed, List.map_append]
    rfl
  · intro item hitem
    refine (List.mem_append.mp hitem).imp_right fun h => ?_
    rw [List.mem_singleton.mp h, hcontent]
    rfl
  · intro c hc
    cases hc
    exact ⟨entry, List.mem_append_right _ List.mem_cons_self, hcontent⟩

private theorem LocalMemoryFile.replace_done
    (h : file.replace stored entryId (normalized content) expectedHash = .ok (result, stored'))
    (hdone : result.status.isDone = true) : ∃ parsed entries,
      Writes file stored (.replace entryId content expectedHash) stored' parsed entries := by
  obtain ⟨parsed, hparsed, hreplace⟩ := file.readForMutation_done h hdone
  split at hreplace
  · cases hreplace
    cases hdone
  next hfound =>
  obtain ⟨entry, hentry, hwrite⟩ := except_bind_ok hreplace
  obtain ⟨rfl, hcontent⟩ := make_ok hentry
  obtain ⟨hwrites, hparses⟩ := file.writeEntries_done hwrite hdone
  refine ⟨parsed, _, hparsed, hwrites, hparses, ?_, ?_, ?_⟩
  · rw [MemoryOperation.asked, ← hcontent, listed, listed, List.map_map, List.map_map]
    refine List.map_congr_left fun item _ => ?_
    simp only [Function.comp_apply]
    split <;> rfl
  · intro item hitem
    obtain ⟨old, hold, rfl⟩ := List.mem_map.mp hitem
    split
    · right
      rw [hcontent]
      rfl
    · exact .inl hold
  · intro c hc
    cases hc
    obtain ⟨old, hold, hid⟩ : ∃ old ∈ parsed.document.entries, old.id = entry.id := by
      simpa using hfound
    exact ⟨entry, List.mem_map.mpr ⟨old, hold, if_pos hid⟩, hcontent⟩

private theorem LocalMemoryFile.remove_done
    (h : file.remove stored entryId expectedHash = .ok (result, stored'))
    (hdone : result.status.isDone = true) : ∃ parsed entries,
      Writes file stored (.remove entryId expectedHash) stored' parsed entries := by
  obtain ⟨parsed, hparsed, h⟩ := file.readForMutation_done h hdone
  split at h
  · cases h
    cases hdone
  obtain ⟨hwrites, hparses⟩ := file.writeEntries_done h hdone
  refine ⟨parsed, _, hparsed, hwrites, hparses, ?_, ?_, ?_⟩
  · rw [MemoryOperation.asked, listed, listed, List.filter_map]
    rfl
  · exact fun item hitem => .inl (List.mem_of_mem_filter hitem)
  · intro c hc
    cases hc

/-! ## The policy -/

private theorem noReturn_normalizeNewlines (content : Text) :
    '\r' ∉ normalizeNewlines content := by
  fun_induction normalizeNewlines content with
  | case1 => exact List.not_mem_nil
  | case2 rest ih => exact List.not_mem_cons_of_ne_of_not_mem (by decide) ih
  | case3 c rest _ ih =>
    refine List.not_mem_cons_of_ne_of_not_mem ?_ ih
    split
    · decide
    · next hc => exact Ne.symm hc

private theorem printable_normalized (h : normalized content ≠ []) :
    Printable (normalized content) := by
  refine ⟨fun hr => ?_, (normalized content).dropLast, (normalized content).getLast h,
    (List.dropLast_append_getLast h).symm, ?_⟩
  · apply noReturn_normalizeNewlines content
    apply (List.dropWhile_suffix isSpace).subset
    exact (List.rdropWhile_prefix isSpace _).subset hr
  · exact Bool.eq_false_iff.mpr (List.rdropWhile_last_not isSpace _ h)

private theorem LocalMemoryPolicy.evaluate_eligible {policy : LocalMemoryPolicy} {passed : Text}
    (h : policy.evaluate content = .ok (.eligible passed)) :
    passed = normalized content ∧ Printable (normalized content) := by
  unfold LocalMemoryPolicy.evaluate at h
  dsimp only at h
  split at h
  · cases h
  next hne =>
  refine ⟨?_, printable_normalized hne⟩
  iterate 8
    split at h
    · cases h
  cases h
  rfl

private theorem LocalMemoryService.screened_done
    {change : Text → Except LocalMemoryError (MemoryMutationResult × Stored)}
    (h : service.screened stored content expectedHash change = .ok (result, stored'))
    (hdone : result.status.isDone = true) :
    change (normalized content) = .ok (result, stored') ∧ Printable (normalized content) := by
  obtain ⟨judged, hjudged, h⟩ := except_bind_ok h
  cases judged with
  | rejected code =>
    obtain ⟨parsed, -, h⟩ := except_bind_ok h
    split at h
    · cases h
      cases hdone
    · cases h
      cases hdone
  | eligible passed =>
    obtain ⟨rfl, hprint⟩ := LocalMemoryPolicy.evaluate_eligible hjudged
    exact ⟨h, hprint⟩

private theorem writes_of_succeeds (h : Succeeds service stored op stored') :
    (∃ parsed entries, Writes service.file stored op stored' parsed entries) ∧
      ∀ content, op.newContent = some content → Printable content := by
  obtain ⟨result, happly, hdone⟩ := h
  unfold LocalMemoryService.apply at happly
  split at happly
  · obtain ⟨parsed, -, h⟩ := except_bind_ok happly
    cases h
    cases hdone
  cases op with
  | add newId content expectedHash =>
    obtain ⟨hadd, hprint⟩ := LocalMemoryService.screened_done happly hdone
    refine ⟨service.file.add_done hadd hdone, fun c hc => ?_⟩
    cases hc
    exact hprint
  | replace entryId content expectedHash =>
    obtain ⟨hreplace, hprint⟩ := LocalMemoryService.screened_done happly hdone
    refine ⟨service.file.replace_done hreplace hdone, fun c hc => ?_⟩
    cases hc
    exact hprint
  | remove entryId expectedHash =>
    refine ⟨service.file.remove_done happly hdone, fun c hc => ?_⟩
    cases hc

/-! ## Read back as asked -/

/-- A text whose last line has no newline. -/
def Unterminated (text : Text) : Prop :=
  text ≠ [] ∧ ¬['\n'] <:+ text ∧ ¬['\r'] <:+ text

/-- The bytes around the section are kept, up to a newline after an unterminated line. -/
def KeepsSurroundings (parsed written : ParsedDocument) (raw raw' : Bytes) : Prop :=
  ∃ ending, (ending = [] ∨ IsNewline ending ∧ Unterminated parsed.before) ∧
    written.before = parsed.before ++ ending ∧ written.after = parsed.after ∧
    (∃ old, raw = encodeUtf8 parsed.before ++ old ++ encodeUtf8 parsed.after) ∧
    ∃ new, raw' = encodeUtf8 (parsed.before ++ ending) ++ new ++ encodeUtf8 parsed.after

/-- The stored document is read as the entries before with the change that was asked for. -/
def ChangedAsAsked (file : LocalMemoryFile) (stored : Stored) (op : MemoryOperation)
    (stored' : Stored) : Prop :=
  ∃ parsed written, file.parse (stored.getD []) = .ok parsed ∧
    file.parse (stored'.getD []) = .ok written ∧
    listed written.document.entries = op.asked (listed parsed.document.entries) ∧
    KeepsSurroundings parsed written (stored.getD []) (stored'.getD [])

/-- All contents have newlines as their only boundaries, and the new content has no later line
that reads as an identifier comment. -/
def Legible (file : LocalMemoryFile) (stored : Stored) (op : MemoryOperation) : Prop :=
  ∀ parsed, file.parse (stored.getD []) = .ok parsed →
    (∀ item ∈ op.asked (listed parsed.document.entries), OnlyNewlines item.2) ∧
      ∀ content, op.newContent = some content → ¬HidesId content

private theorem closedBefore_cases (hnewline : IsNewline parsed.newline)
    (hcases : Unsectioned text parsed ∨ ∃ start stop, Sectioned text parsed start stop) :
    EndsLine (closedBefore parsed) ∧ ∃ ending, closedBefore parsed = parsed.before ++ ending ∧
      (ending = [] ∨ IsNewline ending ∧ Unterminated parsed.before) := by
  unfold closedBefore
  split
  · next hopen =>
    exact ⟨.inr (isEnded_append hnewline _).1, parsed.newline, rfl, .inr ⟨hnewline, hopen.2⟩⟩
  · next hclosed =>
    refine ⟨?_, [], (List.append_nil _).symm, .inl rfl⟩
    obtain hnone | ⟨start, stop, hfound⟩ := hcases
    · rw [hnone.hasSection] at hclosed
      by_cases hempty : parsed.before = []
      · exact .inl hempty
      · have hends : ['\n'] <:+ parsed.before ∨ ['\r'] <:+ parsed.before := by
          by_contra hno
          exact hclosed ⟨rfl, hempty, not_or.mp hno⟩
        obtain ⟨front, h⟩ | ⟨front, h⟩ := hends
        · exact .inr ⟨front, '\n', h.symm, rfl⟩
        · exact .inr ⟨front, '\r', h.symm, rfl⟩
    · rw [hfound.before]
      have hmem : start ∈ markersOf text startMarker := by
        rw [hfound.starts]
        exact List.mem_cons_self
      exact endsLine_take (List.mem_range.mp (List.mem_filter.mp hmem).1)

private theorem surroundings (htext : decodeUtf8 raw = some text)
    (hcases : Unsectioned text parsed ∨ ∃ start stop, Sectioned text parsed start stop) :
    ∃ old, raw = encodeUtf8 parsed.before ++ old ++ encodeUtf8 parsed.after := by
  have hraw := encodeUtf8_of_decodeUtf8 htext
  obtain hnone | ⟨start, stop, hfound⟩ := hcases
  · refine ⟨[], ?_⟩
    rw [hnone.before, hnone.after, hraw, List.append_nil]
    exact (List.append_nil _).symm
  · have hflat := flatten_splitLines text
    rw [← List.take_append_drop (stop + 1) (splitLines text), List.flatten_append,
      ← List.take_append_drop start ((splitLines text).take (stop + 1)), List.flatten_append,
      List.take_take, Nat.min_eq_left (by have := hfound.ordered; omega)] at hflat
    refine ⟨encodeUtf8 (((splitLines text).take (stop + 1)).drop start).flatten, ?_⟩
    rw [← hraw, hfound.before, hfound.after, ← encodeUtf8_append, ← encodeUtf8_append, hflat]

private theorem printable_of_parse (h : file.parse raw = .ok parsed) :
    ∀ entry ∈ parsed.document.entries, Printable entry.content ∧ ¬HidesId entry.content := by
  obtain ⟨text, -, -, hnone | ⟨start, stop, hfound⟩⟩ := file.parse_cases h
  · rw [hnone.entries]
    exact List.forall_mem_nil _
  · exact printable_of_parseEntries
      (fun line hline => List.mem_of_mem_take (List.mem_of_mem_drop hline)) hfound.entries

/-- A successful change is read back as asked exactly when what it renders is legible. -/
theorem changedAsAsked_iff (h : Succeeds service stored op stored') :
    ChangedAsAsked service.file stored op stored' ↔ Legible service.file stored op := by
  obtain ⟨⟨parsed, entries, hwrites⟩, haccepted⟩ := writes_of_succeeds h
  obtain ⟨written, hwritten⟩ := hwrites.parses
  obtain ⟨text, htext, hnewline, hcases⟩ := service.file.parse_cases hwrites.read
  obtain ⟨hends, ending, hclosed, hending⟩ := closedBefore_cases hnewline hcases
  have hraw := hwrites.writes
  have hparsed := hwritten
  rw [hraw, Option.getD_some] at hparsed
  obtain ⟨hentries, hbefore, hafter⟩ := parse_written hends hnewline hparsed
  have hold := printable_of_parse hwrites.read
  have hprint : ∀ entry ∈ entries, Printable entry.content := by
    intro entry hentry
    obtain hin | hnew := hwrites.origin entry hentry
    · exact (hold entry hin).1
    · exact haccepted _ hnew
  have hiff := listed_rendered_iff hnewline hprint hentries
  have hkeeps : KeepsSurroundings parsed written (stored.getD []) (stored'.getD []) := by
    refine ⟨ending, hending, by rw [hbefore, hclosed], hafter, surroundings htext hcases,
      encodeUtf8 (renderSection entries parsed.newline), ?_⟩
    rw [hraw, Option.getD_some, hclosed, encodeUtf8_append, encodeUtf8_append]
  have honly : (∀ item ∈ op.asked (listed parsed.document.entries), OnlyNewlines item.2) ↔
      ∀ entry ∈ entries, OnlyNewlines entry.content := by
    rw [← hwrites.asked]
    exact List.forall_mem_map
  constructor
  · rintro ⟨parsed', written', hread, hwritten', hlisted, -⟩
    obtain rfl := Except.ok.inj (hwrites.read.symm.trans hread)
    obtain rfl := Except.ok.inj (hwritten.symm.trans hwritten')
    have hclean := hiff.mp (hlisted.trans hwrites.asked.symm)
    intro parsed' hread
    obtain rfl := Except.ok.inj (hwrites.read.symm.trans hread)
    refine ⟨honly.mpr fun entry hentry => (hclean entry hentry).1, fun content hcontent => ?_⟩
    obtain ⟨entry, hentry, rfl⟩ := hwrites.used content hcontent
    exact (hclean entry hentry).2
  · intro hlegible
    obtain ⟨hitems, hnew⟩ := hlegible parsed hwrites.read
    refine ⟨parsed, written, hwrites.read, hwritten, ?_, hkeeps⟩
    rw [← hwrites.asked]
    refine hiff.mpr fun entry hentry => ⟨honly.mp hitems entry hentry, ?_⟩
    obtain hin | hadded := hwrites.origin entry hentry
    · exact (hold entry hin).2
    · exact hnew _ hadded

/-! ## Sessions -/

/-- A change with the file before and after it. -/
structure Change where
  before : Stored
  op : MemoryOperation
  after : Stored

/-- Successful changes of a file, one after another. -/
inductive Session (service : LocalMemoryService) : Stored → List Change → Prop
  | nil {stored : Stored} : Session service stored []
  | cons {stored stored' : Stored} {op : MemoryOperation} {rest : List Change} :
      Succeeds service stored op stored' → Session service stored' rest →
      Session service stored (⟨stored, op, stored'⟩ :: rest)

private theorem Session.succeeds {changes : List Change} (h : Session service stored changes) :
    ∀ change ∈ changes, Succeeds service change.before change.op change.after := by
  induction h with
  | nil => exact List.forall_mem_nil _
  | cons hstep _ ih => exact List.forall_mem_cons.mpr ⟨hstep, ih⟩

/-- In a session, every document is read back as asked exactly when every change is legible. -/
theorem session_changedAsAsked_iff {changes : List Change} (h : Session service stored changes) :
    (∀ change ∈ changes, ChangedAsAsked service.file change.before change.op change.after) ↔
      ∀ change ∈ changes, Legible service.file change.before change.op :=
  forall₂_congr fun change hchange => changedAsAsked_iff (h.succeeds change hchange)

section Samples

/-- A service whose policy finds nothing to reject. -/
def sampleService : LocalMemoryService where
  enabled := true
  policy := ⟨2000, fun _ => false, fun _ => false, fun _ => false, fun _ => false,
    fun _ => false, fun _ => false⟩
  file := ⟨1000000, spelledHash.sha256⟩

/-- An identifier of an entry. -/
def sampleId : Text := "memory_0123456789abcdef0123456789abcdef".toList

/-- The file after an entry was added to no file. -/
def addedTo (body : Text) : Stored :=
  some (encodeUtf8 (startMarker ++ ['\n'] ++ (idComment sampleId ++ ['\n'] ++
    ("- ".toList ++ body ++ ['\n'])) ++ (endMarker ++ ['\n'])))

/-- Adding an entry with a content to no file. -/
def adds (content : Text) : MemoryOperation := .add sampleId content (spelledHash.sha256 [])

private theorem succeeds_of_apply
    (h : (service.apply stored op).map (fun r => (r.1.status, r.2)) = .ok (.added, stored')) :
    Succeeds service stored op stored' := by
  cases happly : service.apply stored op with
  | error e =>
    rw [happly] at h
    cases h
  | ok r =>
    obtain ⟨result, next⟩ := r
    rw [happly] at h
    have hadded : result.status = .added := congrArg Prod.fst (Except.ok.inj h)
    obtain rfl : next = stored' := congrArg Prod.snd (Except.ok.inj h)
    exact ⟨result, happly, by rw [hadded]; rfl⟩

private theorem session_single (h : Succeeds service stored op stored') :
    Session service stored [⟨stored, op, stored'⟩] := .cons h .nil

private theorem listed_empty (h : sampleService.file.parse [] = .ok parsed) :
    listed parsed.document.entries = [] := by
  have hempty : (sampleService.file.parse []).map (fun p => listed p.document.entries) =
      .ok [] := by
    decide +kernel
  rw [h] at hempty
  exact Except.ok.inj hempty

private theorem succeeds_line : Succeeds sampleService none (adds ['a']) (addedTo ['a']) :=
  succeeds_of_apply (by decide +kernel)

private theorem succeeds_separator :
    Succeeds sampleService none (adds ['a', '\u2028', 'b']) (addedTo ['a', '\u2028', 'b']) :=
  succeeds_of_apply (by decide +kernel)

/-- An entry of one line is read back. -/
theorem session_changedAsAsked_iff_sample :
    ChangedAsAsked sampleService.file none (adds ['a']) (addedTo ['a']) := by
  refine (session_changedAsAsked_iff (session_single succeeds_line)).mpr ?_ _ List.mem_cons_self
  intro change hchange parsed hparsed
  obtain rfl := List.mem_singleton.mp hchange
  rw [listed_empty hparsed]
  have hnew : normalized ['a'] = ['a'] := by decide
  constructor
  · intro item hitem
    rw [adds, MemoryOperation.asked, hnew, List.nil_append] at hitem
    obtain rfl := List.mem_singleton.mp hitem
    intro c hc hb
    obtain rfl := List.mem_singleton.mp hc
    cases hb
  · rintro content hcontent ⟨line, hline, -⟩
    rw [adds, MemoryOperation.newContent, hnew] at hcontent
    cases hcontent
    cases hline

/-- An entry with a line separator is not read back. -/
theorem line_separator_not_read_back :
    ¬∀ (service : LocalMemoryService) (stored : Stored) (changes : List Change),
      Session service stored changes → ∀ change ∈ changes,
        ChangedAsAsked service.file change.before change.op change.after := by
  intro hall
  have hchanged := hall sampleService none _ (session_single succeeds_separator) _
    List.mem_cons_self
  obtain ⟨parsed, -, hparsed, -⟩ := id hchanged
  obtain ⟨hitems, -⟩ := (changedAsAsked_iff succeeds_separator).mp hchanged parsed hparsed
  have hnew : normalized ['a', '\u2028', 'b'] = ['a', '\u2028', 'b'] := by decide
  rw [listed_empty hparsed, adds, MemoryOperation.asked, hnew, List.nil_append] at hitems
  cases hitems _ List.mem_cons_self '\u2028' (List.mem_cons_of_mem _ List.mem_cons_self) rfl

end Samples

end AwesomeAgent.Memory
