import AwesomeAgent.Library.JsonRoundTrip
import AwesomeAgent.Protocol.DecoderRuns

/-!
# Framing is lossless and independent of chunking

The core reads every stream by its lines, wherever the chunks end. Both receivers give back
the values whose frames were sent. The interface reads exactly those streams by their
lines that are clean or have a single line with content.
-/

namespace AwesomeAgent

/-- What a line of a stream means to the core. -/
def coreLine (line : Bytes) : List (Except JsonRpcError Json) :=
  readValue (NdjsonReader.bounded line)

/-- What a stream means to the core: its lines, each of them once. -/
def coreMeaning (bytes : Bytes) : List (Except JsonRpcError Json) :=
  (Lines.all newline bytes).flatMap coreLine

/-- The bytes of a source up to its end: an empty chunk ends it. -/
def sourceBytes (chunks : List Bytes) : Bytes :=
  (chunks.takeWhile fun chunk => decide (chunk ≠ [])).flatten

namespace NdjsonReader

variable {line rest buffer : Bytes} {source : List Bytes}

/-- A source without chunks has no bytes. -/
@[simp] theorem sourceBytes_nil : sourceBytes [] = [] := rfl

/-- An empty chunk ends the source. -/
@[simp] theorem sourceBytes_cons_nil : sourceBytes ([] :: source) = [] := by
  simp [sourceBytes]

private theorem sourceBytes_cons {chunk : Bytes} (h : chunk ≠ []) :
    sourceBytes (chunk :: source) = chunk ++ sourceBytes source := by
  simp [sourceBytes, h]

/-- The bytes that a reader has not given out. -/
def remaining (r : NdjsonReader) : Bytes :=
  r.buffer ++ if r.eof then [] else sourceBytes r.source

/-- A reader that met the end holds nothing. -/
def Sound (r : NdjsonReader) : Prop := r.eof = true → r.buffer = []

private theorem discard_sound (source : List Bytes) : (discardOversizedLine source).Sound := by
  induction source with
  | nil => exact fun _ => rfl
  | cons chunk source ih =>
    rw [discardOversizedLine]
    split
    · exact fun _ => rfl
    · split
      · exact nofun
      · exact ih

private theorem discard_line (hl : newline ∉ line)
    (h : sourceBytes source = line ++ newline :: rest) :
    (discardOversizedLine source).remaining = rest := by
  induction source generalizing line with
  | nil => simp at h
  | cons chunk source ih =>
    rw [discardOversizedLine]
    by_cases hchunk : chunk = []
    · subst hchunk
      simp at h
    · rw [if_neg hchunk]
      rw [sourceBytes_cons hchunk] at h
      have hfirst := Lines.first_line hl rest
      rw [← h] at hfirst
      obtain hfree | ⟨start, after, hstart, rfl⟩ := Lines.free_or_line newline chunk
      · rw [Lines.first_eq_none_iff.2 hfree]
        obtain ⟨l, rfl, hl'⟩ | ⟨l, rfl, hl'⟩ := List.append_eq_append_iff.mp h
        · exact ih (fun hmem => hl (List.mem_append_right _ hmem)) hl'
        · cases l with
          | nil => exact ih List.not_mem_nil (by simpa using hl'.symm)
          | cons c l =>
            obtain ⟨rfl, -⟩ := List.cons.inj hl'
            simp at hfree
      · rw [Lines.first_line hstart]
        rw [List.append_assoc, List.cons_append, Lines.first_line hstart] at hfirst
        cases hfirst
        simp [remaining]

private theorem discard_free (h : newline ∉ sourceBytes source) :
    (discardOversizedLine source).remaining = [] := by
  induction source with
  | nil => rfl
  | cons chunk source ih =>
    rw [discardOversizedLine]
    by_cases hchunk : chunk = []
    · rw [if_pos hchunk]
      rfl
    · rw [sourceBytes_cons hchunk] at h
      rw [if_neg hchunk, Lines.first_eq_none_iff.2 (fun hm => h (List.mem_append_left _ hm))]
      exact ih fun hm => h (List.mem_append_right _ hm)

/-- A read gives the next line of what remains. -/
structure ReadsNext (total : Bytes) (result : LineRead × NdjsonReader) : Prop where
  sound : result.2.Sound
  ended : total = [] → result.1 = .ended
  line : ∀ line rest, newline ∉ line → total = line ++ newline :: rest →
    result.1 = bounded line ∧ result.2.remaining = rest
  rest : newline ∉ total → total ≠ [] → result.1 = bounded total ∧ result.2.remaining = []

private theorem lastLine_readsNext (hfree : newline ∉ buffer) (hlen : buffer.length ≤ maxFrameBytes)
    (source : List Bytes) : ReadsNext buffer (lastLine source buffer) := by
  refine ⟨?_, fun hnil => by rw [lastLine, if_pos hnil], fun line rest _ he => ?_, fun _ hne => ?_⟩
  · unfold lastLine
    split <;> exact fun _ => rfl
  · simp [he] at hfree
  · rw [lastLine, if_neg hne, bounded, if_neg (Nat.not_lt.mpr hlen)]
    exact ⟨rfl, rfl⟩

private theorem line_readsNext (hl : newline ∉ line) (source : List Bytes) (rest : Bytes) :
    ReadsNext (line ++ newline :: rest ++ sourceBytes source)
      (bounded line, ⟨source, rest, false⟩) := by
  refine ⟨nofun, fun hnil => by simp at hnil, fun line' rest' hl' he => ?_, fun hfree => ?_⟩
  · have hfirst := Lines.first_line hl' rest'
    rw [← he, List.append_assoc, List.cons_append, Lines.first_line hl] at hfirst
    cases hfirst
    exact ⟨rfl, rfl⟩
  · simp at hfree

private theorem extends_of_append {a b : Bytes} (ha : newline ∉ a)
    (h : a ++ b = line ++ newline :: rest) :
    ∃ line', line = a ++ line' ∧ b = line' ++ newline :: rest := by
  obtain ⟨l, rfl, hl⟩ | ⟨l, rfl, hl⟩ := List.append_eq_append_iff.mp h
  · exact ⟨l, rfl, hl⟩
  · cases l with
    | nil => exact ⟨[], by simp, by simpa using hl.symm⟩
    | cons c l =>
      obtain ⟨rfl, -⟩ := List.cons.inj hl
      simp at ha

private theorem tooLarge_readsNext (hfree : newline ∉ buffer) (hlen : maxFrameBytes < buffer.length)
    (source : List Bytes) :
    ReadsNext (buffer ++ sourceBytes source) (.lineTooLarge, discardOversizedLine source) := by
  have hbounded : ∀ more, bounded (buffer ++ more) = .lineTooLarge := fun more => by
    rw [bounded, if_pos (by rw [List.length_append]; omega)]
  refine ⟨discard_sound source, fun hnil => ?_, fun line rest hl he => ?_, fun hnone _ => ?_⟩
  · rw [(List.append_eq_nil_iff.mp hnil).1] at hlen
    exact absurd hlen (by decide)
  · obtain ⟨line', rfl, he'⟩ := extends_of_append hfree he
    exact ⟨(hbounded line').symm, discard_line (fun hm => hl (List.mem_append_right _ hm)) he'⟩
  · exact ⟨(hbounded _).symm, discard_free fun hm => hnone (List.mem_append_right _ hm)⟩

private theorem readFrom_readsNext (source : List Bytes) (buffer : Bytes) :
    ReadsNext (buffer ++ sourceBytes source) (readFrom source buffer false) := by
  induction source generalizing buffer with
  | nil =>
    obtain hfree | ⟨line, rest, hl, rfl⟩ := Lines.free_or_line newline buffer
    · rw [readFrom, Lines.first_eq_none_iff.2 hfree]
      dsimp only
      split
      · next hlong => exact tooLarge_readsNext hfree hlong []
      · next hlen =>
        rw [sourceBytes_nil, List.append_nil]
        exact lastLine_readsNext hfree (Nat.not_lt.mp hlen) []
    · rw [readFrom, Lines.first_line hl]
      exact line_readsNext hl [] rest
  | cons chunk source ih =>
    obtain hfree | ⟨line, rest, hl, rfl⟩ := Lines.free_or_line newline buffer
    · rw [readFrom, Lines.first_eq_none_iff.2 hfree]
      dsimp only
      split
      · next hlong => exact tooLarge_readsNext hfree hlong (chunk :: source)
      · next hlen =>
        rw [if_neg Bool.false_ne_true]
        by_cases hchunk : chunk = []
        · rw [if_pos hchunk, hchunk, sourceBytes_cons_nil, List.append_nil]
          exact lastLine_readsNext hfree (Nat.not_lt.mp hlen) source
        · rw [if_neg hchunk, sourceBytes_cons hchunk, ← List.append_assoc]
          exact ih (buffer ++ chunk)
    · rw [readFrom, Lines.first_line hl]
      exact line_readsNext hl (chunk :: source) rest

variable {r : NdjsonReader}

private theorem readLine_readsNext (h : r.Sound) :
    ReadsNext r.remaining r.readLine := by
  obtain ⟨source, buffer, eof⟩ := r
  cases eof with
  | false => exact readFrom_readsNext source buffer
  | true =>
    obtain rfl : buffer = [] := h rfl
    have hread : readLine ⟨source, [], true⟩ = (.ended, ⟨source, [], true⟩) := by
      unfold readLine readFrom
      rfl
    rw [hread]
    exact ⟨fun _ => rfl, fun _ => rfl, fun line rest _ he => by simp [remaining] at he,
      fun _ hne => absurd rfl hne⟩

private theorem bounded_ne_ended (line : Bytes) : bounded line ≠ .ended := by
  unfold bounded
  split <;> nofun

private theorem readAll_succ (h : r.readLine.1 ≠ .ended) (fuel : Nat) :
    readAll (fuel + 1) r = r.readLine.1 :: readAll fuel r.readLine.2 := by
  rw [readAll]
  split
  · next heq => exact absurd (congrArg Prod.fst heq) h
  · next heq => rw [heq]

private theorem readAll_eq (h : r.Sound) {fuel : Nat} (hfuel : r.remaining.length < fuel) :
    readAll fuel r = (Lines.all newline r.remaining).map bounded := by
  induction fuel generalizing r with
  | zero => omega
  | succ fuel ih =>
    have hnext := readLine_readsNext h
    have hstep : ∀ line rest, r.readLine.1 = bounded line → r.readLine.2.remaining = rest →
        rest.length < r.remaining.length →
        readAll (fuel + 1) r = bounded line :: (Lines.all newline rest).map bounded := by
      intro line rest hread hrest hlt
      rw [readAll_succ (by rw [hread]; exact bounded_ne_ended line), hread,
        ih hnext.sound (by rw [hrest]; omega), hrest]
    by_cases hnil : r.remaining = []
    · rw [hnil, readAll]
      split
      · rfl
      · next read r' hne heq =>
        exact absurd ((congrArg Prod.fst heq).symm.trans (hnext.ended hnil)) hne
    · obtain hfree | ⟨line, rest, hl, he⟩ := Lines.free_or_line newline r.remaining
      · obtain ⟨hread, hrest⟩ := hnext.rest hfree hnil
        rw [hstep _ _ hread hrest (List.length_pos_iff.mpr hnil), Lines.all_of_free hfree,
          if_neg hnil]
        rfl
      · obtain ⟨hread, hrest⟩ := hnext.line line rest hl he
        have hlt : rest.length < r.remaining.length := by
          rw [he, List.length_append, List.length_cons]
          omega
        rw [hstep _ _ hread hrest hlt, he, Lines.all_line hl, List.map_cons]

end NdjsonReader

private theorem readValues_eq {chunks : List Bytes} {fuel : Nat}
    (hfuel : (sourceBytes chunks).length < fuel) :
    readValues fuel chunks = coreMeaning (sourceBytes chunks) := by
  rw [readValues, NdjsonReader.readAll_eq (r := ⟨chunks, [], false⟩) nofun hfuel,
    List.flatMap_map]
  rfl

/-- The frame of a value as one of the two senders writes it. -/
def Sent (value : Json) (frame : Bytes) : Prop :=
  encodeFrame value = .ok frame ∨ JsonLineWriter.frame value = .ok frame

/-- A JSON value as both languages have it: no object repeats a key. -/
structure JsonDocument where
  value : Json
  distinct : value.distinct = true

section Frames

variable {value : Json} {frame : Bytes}

private theorem Sent.spec (h : Sent value frame) :
    frame = encodeText value.render ++ [newline] ∧
      (encodeText value.render).length ≤ maxFrameBytes := by
  obtain h | h := h
  · unfold encodeFrame at h
    dsimp only at h
    split at h
    · cases h
    · cases h
      exact ⟨rfl, by omega⟩
  · unfold JsonLineWriter.frame at h
    dsimp only at h
    split_ifs at h
    cases h
    exact ⟨rfl, by omega⟩

private theorem decodeText_encodeText (text : List Char) : decodeText (encodeText text) = some text
    := by
  have h : (encodeText text).toByteArray = text.utf8Encode := rfl
  rw [decodeText, h, List.utf8Decode?_utf8Encode]
  rfl

private theorem byte_of_char {c : Char} {byte : UInt8} (h : byte ∈ String.utf8EncodeChar c) :
    byte.toNat = c.toNat ∨ 0x80 ≤ byte.toNat := by
  unfold String.utf8EncodeChar at h
  dsimp only at h
  change byte.toNat = c.val.toNat ∨ _
  split_ifs at h with h₁ h₂ h₃ <;>
    simp only [List.mem_cons, List.not_mem_nil, or_false] at h
  · left
    rw [h, UInt8.toNat_ofNat']
    omega
  all_goals
    right
    rcases h with rfl | rfl | rfl | rfl <;> rw [UInt8.toNat_ofNat'] <;> omega

private theorem le_toNat_encodeText (value : Json) : ∀ byte ∈ encodeText value.render,
    0x20 ≤ byte.toNat := by
  intro byte hbyte
  obtain ⟨c, hc, hmem⟩ := List.mem_flatMap.mp hbyte
  obtain h | h := byte_of_char hmem
  · rw [h]
    exact value.le_toNat_render c hc
  · omega

private theorem newline_not_mem_encodeText (value : Json) : newline ∉ encodeText value.render :=
  fun h => absurd (le_toNat_encodeText value newline h) (by decide)

private theorem trimReturn_encodeText (value : Json) :
    NdjsonDecoder.trimReturn (encodeText value.render) = encodeText value.render := by
  refine if_neg fun hlast => ?_
  exact absurd (le_toNat_encodeText value _ (List.mem_of_getLast? hlast)) (by decide)

private theorem exists_first_byte (value : Json) :
    ∃ byte ∈ encodeText value.render, isAsciiSpace byte = false := by
  obtain ⟨c, rest, hrender, hc⟩ := value.render_start
  obtain ⟨byte, bytes, hbytes⟩ := List.exists_cons_of_ne_nil (String.utf8EncodeChar_ne_nil (c := c))
  have hmem : byte ∈ encodeText value.render := by
    rw [hrender, encodeText, List.flatMap_cons, hbytes]
    exact List.mem_append_left _ List.mem_cons_self
  refine ⟨byte, hmem, decide_eq_false fun hspace => ?_⟩
  have hlow : byte.toNat ≤ 0x20 := by
    have hall : ∀ b ∈ ([0x20, 0x09, 0x0a, 0x0d, 0x0b, 0x0c] : List UInt8), b.toNat ≤ 0x20 :=
      forall_of_all (by decide)
    exact hall byte hspace
  have hhigh := le_toNat_encodeText value byte hmem
  obtain hchar | hchar := byte_of_char
    (show byte ∈ String.utf8EncodeChar c by rw [hbytes]; exact List.mem_cons_self)
  · have hblank : c = ' ' := by
      refine Char.ext (UInt32.toNat_inj.mp ?_)
      have h20 : (' ' : Char).val.toNat = 0x20 := rfl
      have hval : c.val.toNat = byte.toNat := hchar.symm
      omega
    have hnot := hc.not_space
    rw [hblank] at hnot
    revert hnot
    decide
  · omega

private theorem uiLine_encodeText (hdistinct : value.distinct = true)
    (hlen : (encodeText value.render).length ≤ maxFrameBytes) :
    uiLine (encodeText value.render) = [.ok value] := by
  obtain ⟨c, rest, hrender, hc⟩ := value.render_start
  have hmark : decodeMarked (encodeText value.render) = some value.render := by
    have hne : value.render.head? ≠ some '\uFEFF' := by
      rw [hrender]
      rintro he
      cases he
      obtain h | h := hc <;> revert h <;> decide
    rw [decodeMarked, decodeText_encodeText, Option.map_some, if_neg hne]
  obtain ⟨byte, hbyte, -⟩ := exists_first_byte value
  have hne : encodeText value.render ≠ [] := fun hnil => by rw [hnil] at hbyte; cases hbyte
  rw [uiLine, if_neg (Nat.not_lt.mpr hlen), trimReturn_encodeText, if_neg hne, hmark]
  dsimp only
  rw [Json.parse_render value hdistinct]

private theorem coreLine_encodeText (hdistinct : value.distinct = true)
    (hlen : (encodeText value.render).length ≤ maxFrameBytes) :
    coreLine (encodeText value.render) = [.ok value] := by
  obtain ⟨byte, hbyte, hspace⟩ := exists_first_byte value
  have hcontent : (encodeText value.render).all isAsciiSpace = false := by
    refine Bool.eq_false_iff.mpr fun hall => ?_
    rw [List.all_eq_true.mp hall byte hbyte] at hspace
    cases hspace
  rw [coreLine, NdjsonReader.bounded, if_neg (Nat.not_lt.mpr hlen), readValue,
    if_neg (by rw [hcontent]; exact Bool.false_ne_true), decodeText_encodeText, Option.bind_some,
    Json.parse_render value hdistinct]

end Frames

private theorem lines_of_frames {values : List JsonDocument} {frames : List Bytes}
    (h : List.Forall₂ (fun v frame => Sent v.value frame) values frames) :
    Lines.complete newline frames.flatten = values.map (fun v => encodeText v.value.render) ∧
      Lines.pending newline frames.flatten = [] ∧
      ∀ v ∈ values, (encodeText v.value.render).length ≤ maxFrameBytes := by
  induction h with
  | nil => exact ⟨rfl, rfl, fun v hv => by cases hv⟩
  | @cons v frame values frames hsent _ ih =>
    obtain ⟨rfl, hlen⟩ := hsent.spec
    obtain ⟨hlines, hrest, hall⟩ := ih
    have hfree := newline_not_mem_encodeText v.value
    rw [List.flatten_cons, List.append_assoc, List.singleton_append, Lines.complete_line hfree,
      Lines.pending_line hfree, hlines]
    exact ⟨rfl, hrest, List.forall_mem_cons.mpr ⟨hlen, hall⟩⟩

/-- What framing promises. The interface keeps it for the streams that are named. -/
structure NdjsonFraming {δ : Type} (t : StaleText δ) : Prop where
  uiLossless : ∀ (values : List JsonDocument) (frames chunks : List Bytes),
    List.Forall₂ (fun v frame => Sent v.value frame) values frames →
    chunks.flatten = frames.flatten →
    NdjsonDecoder.run t NdjsonDecoder.fresh chunks = values.map fun v => .ok v.value
  coreLossless : ∀ (values : List JsonDocument) (frames chunks : List Bytes) (fuel : Nat),
    List.Forall₂ (fun v frame => Sent v.value frame) values frames →
    sourceBytes chunks = frames.flatten → frames.flatten.length < fuel →
    readValues fuel chunks = values.map fun v => .ok v.value
  core : ∀ (chunks : List Bytes) (fuel : Nat), (sourceBytes chunks).length < fuel →
    readValues fuel chunks = coreMeaning (sourceBytes chunks)
  ui : ∀ bytes : Bytes, (∀ chunks : List Bytes, chunks.flatten = bytes →
    NdjsonDecoder.run t NdjsonDecoder.fresh chunks = uiMeaning bytes) ↔
      CleanStream bytes ∨ SingleLine bytes

/-- Framing is lossless. The core reads every stream by its lines, wherever the chunks end,
and the interface exactly those streams that are clean or have one line of content. -/
theorem ndjson_framing {δ : Type} (t : StaleText δ) : NdjsonFraming t where
  uiLossless := fun values frames chunks hsent hchunks => by
    obtain ⟨hlines, hrest, hlen⟩ := lines_of_frames hsent
    have hclean : CleanStream frames.flatten := by
      refine ⟨fun line hline => ?_, by rw [hrest]; decide⟩
      rw [hlines] at hline
      obtain ⟨v, hv, rfl⟩ := List.mem_map.mp hline
      exact ⟨[v.value], uiLine_encodeText v.distinct (hlen v hv)⟩
    rw [(NdjsonDecoder.run_eq_meaning_iff frames.flatten).mpr (.inl hclean) chunks hchunks,
      NdjsonDecoder.uiMeaning_eq, hlines, hrest, List.flatMap_map,
      List.flatMap_congr fun v hv => uiLine_encodeText v.distinct (hlen v hv),
      List.map_eq_flatMap]
    exact List.append_nil _
  coreLossless := fun values frames chunks fuel hsent hchunks hfuel => by
    obtain ⟨hlines, hrest, hlen⟩ := lines_of_frames hsent
    rw [readValues_eq (by rw [hchunks]; exact hfuel), hchunks, coreMeaning, Lines.all, hlines,
      hrest, if_pos rfl, List.append_nil, List.flatMap_map,
      List.flatMap_congr fun v hv => coreLine_encodeText v.distinct (hlen v hv),
      List.map_eq_flatMap]
  core := fun chunks fuel hfuel => readValues_eq hfuel
  ui := NdjsonDecoder.run_eq_meaning_iff

section Sample

/-- A text decoder that keeps nothing of a line that it refused. -/
def plainText : StaleText Unit := ⟨fun _ _ => (), fun _ bytes => decodeText bytes⟩

/-- The line of an empty object. -/
def goodFrame : Bytes := [0x7b, 0x7d, newline]

/-- A line that is no JSON. -/
def badFrame : Bytes := [0x78, newline]

private theorem uiLine_good : uiLine [0x7b, 0x7d] = [.ok (.object [])] := by
  have hlen : (encodeText (Json.object []).render).length ≤ maxFrameBytes := by decide
  exact uiLine_encodeText rfl hlen

private theorem uiLine_bad : uiLine [0x78] = [.error .notJson] := by
  have htext : decodeMarked [0x78] = some ['x'] := by
    have h : decodeText [0x78] = some ['x'] := decodeText_encodeText ['x']
    rw [decodeMarked, h]
    rfl
  have hparse : Json.parse ['x'] = none := rfl
  have hline : NdjsonDecoder.trimReturn [0x78] = [0x78] := rfl
  rw [uiLine, hline, htext, if_neg (by decide), if_neg (by decide)]
  dsimp only
  rw [hparse]

/-- A good line before a bad one is lost if both come in one chunk. -/
theorem ndjson_decoder_loses_line :
    [goodFrame ++ badFrame].flatten = [goodFrame, badFrame].flatten ∧
      NdjsonDecoder.run plainText NdjsonDecoder.fresh [goodFrame ++ badFrame] =
        [.error .notJson] ∧
      NdjsonDecoder.run plainText NdjsonDecoder.fresh [goodFrame, badFrame] =
        [.ok (.object []), .error .notJson] := by
  have hgood : ∀ line ∈ [[0x7b, 0x7d]], uiLine line = [Json.object []].map .ok :=
    List.forall_mem_singleton.mpr uiLine_good
  have hend : ∀ decoder, NdjsonDecoder.run plainText (NdjsonDecoder.holding decoder []) [] = [] :=
    fun decoder => NdjsonDecoder.finish_blank (blankLine_iff.2 (.inl rfl))
  have hbad : ∀ b chunk lines, newline ∉ b → b.length ≤ maxFrameBytes →
      Lines.complete newline (b ++ chunk) = lines ++ [[0x78]] → (∀ l ∈ lines, GoodLine l) →
      NdjsonDecoder.run plainText (NdjsonDecoder.holding none b) [chunk] = [.error .notJson] := by
    intro b chunk lines hb hlen hlines hall
    obtain ⟨decoder, hpush⟩ := NdjsonDecoder.push_bad (t := plainText) hlines hall uiLine_bad
    rw [NdjsonDecoder.run_cons hb hlen, hpush]
    exact congrArg (_ :: ·) (hend decoder)
  refine ⟨rfl, ?_, ?_⟩
  · exact hbad [] (goodFrame ++ badFrame) [[0x7b, 0x7d]] List.not_mem_nil (by decide) (by decide)
      fun l hl => ⟨_, hgood l hl⟩
  · have hfirst : NdjsonDecoder.push plainText goodFrame (NdjsonDecoder.holding none []) =
        .ok [.object []] (NdjsonDecoder.holding none []) :=
      NdjsonDecoder.push_reads (fun _ => [Json.object []])
        (fun line hline => NdjsonDecoder.reads_good (hgood line hline)) (by decide)
    have hrun : NdjsonDecoder.run plainText NdjsonDecoder.fresh [goodFrame, badFrame] = _ :=
      NdjsonDecoder.run_cons List.not_mem_nil (by decide) goodFrame [badFrame]
    rw [List.nil_append, hfirst] at hrun
    exact hrun.trans (congrArg (_ :: ·) (hbad [] badFrame [] List.not_mem_nil (by decide)
      (by decide) nofun))

end Sample

end AwesomeAgent
