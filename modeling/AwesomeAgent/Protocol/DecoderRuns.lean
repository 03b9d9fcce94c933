import AwesomeAgent.Protocol.Ndjson

/-!
# Runs of the receiver in the interface

A push depends only on the buffer followed by the chunk. As long as no line raises, a run
yields what the lines mean, wherever the chunks end; after a line that raised it still
does so if only blank lines are left.
-/

namespace AwesomeAgent

/-- What a line of a stream means to the interface. -/
def uiLine (line : Bytes) : List (Except NdjsonError Json) :=
  if maxFrameBytes < line.length then [.error .exceeds]
  else if NdjsonDecoder.trimReturn line = [] then []
  else match decodeMarked (NdjsonDecoder.trimReturn line) with
    | none => [.error .notUtf8]
    | some text =>
        match Json.parse text with
        | none => [.error .notJson]
        | some value => [.ok value]

/-- What a stream means to the interface: its lines, each of them once. -/
def uiMeaning (bytes : Bytes) : List (Except NdjsonError Json) :=
  (Lines.all newline bytes).flatMap uiLine

/-- A line that raises no error. -/
def GoodLine (line : Bytes) : Prop := ∃ values : List Json, uiLine line = values.map .ok

/-- A line without content. -/
def BlankLine (line : Bytes) : Prop := NdjsonDecoder.trimReturn line = []

/-- A stream of blank lines. -/
def BlankLines (bytes : Bytes) : Prop := ∀ line ∈ Lines.all newline bytes, BlankLine line

section Lines

variable {line : Bytes} {a b : Bytes}

private theorem uiLine_cases (line : Bytes) : GoodLine line ∨ ∃ e, uiLine line = [.error e] := by
  unfold GoodLine uiLine
  split
  · exact .inr ⟨_, rfl⟩
  · split
    · exact .inl ⟨[], rfl⟩
    · split
      · exact .inr ⟨_, rfl⟩
      · split
        · exact .inr ⟨_, rfl⟩
        · next value _ => exact .inl ⟨[value], rfl⟩

private theorem not_goodLine {e : NdjsonError} (h : uiLine line = [.error e]) : ¬ GoodLine line
    := by
  rintro ⟨values, hv⟩
  rw [h] at hv
  cases values with
  | nil => cases hv
  | cons v values => cases (List.cons.inj hv).1

private theorem GoodLine.length_le (h : GoodLine line) : line.length ≤ maxFrameBytes := by
  by_contra hlong
  refine not_goodLine (e := .exceeds) ?_ h
  rw [uiLine, if_pos (by omega)]

/-- A blank line is empty or a carriage return. -/
theorem blankLine_iff : BlankLine line ↔ line = [] ∨ line = [0x0d] := by
  unfold BlankLine NdjsonDecoder.trimReturn
  split
  · next h =>
    constructor
    · intro hdrop
      have hlen : line.length ≤ 1 := by
        have := congrArg List.length hdrop
        rw [List.length_dropLast, List.length_nil] at this
        omega
      match line, hlen with
      | [c], _ =>
        rw [List.getLast?_singleton] at h
        exact .inr (congrArg (fun c => [c]) (Option.some.inj h))
      | [], _ => exact .inl rfl
    · rintro (rfl | rfl) <;> rfl
  · next h =>
    constructor
    · exact .inl
    · rintro (rfl | rfl)
      · rfl
      · exact absurd rfl h

private theorem BlankLine.length_le (h : BlankLine line) : line.length ≤ 1 := by
  obtain rfl | rfl := blankLine_iff.1 h <;> simp

private theorem BlankLine.uiLine_eq (h : BlankLine line) : uiLine line = [] := by
  have hlen := h.length_le
  have hnil : NdjsonDecoder.trimReturn line = [] := h
  rw [uiLine, if_neg (by unfold maxFrameBytes; omega), if_pos hnil]

private theorem BlankLine.good (h : BlankLine line) : GoodLine line := ⟨[], h.uiLine_eq⟩

private theorem blankLine_of_uiLine (h : uiLine line = []) : BlankLine line := by
  unfold uiLine at h
  split at h
  · cases h
  · split at h
    · assumption
    · split at h
      · cases h
      · split at h <;> cases h

private theorem BlankLines.tail {c : UInt8} {cs : Bytes} (h : BlankLines (c :: cs)) :
    BlankLines cs := by
  by_cases hc : c = newline
  · subst hc
    have hall : Lines.all newline (newline :: cs) = [] :: Lines.all newline cs :=
      Lines.all_line List.not_mem_nil cs
    exact fun line hline => h line (by rw [hall]; exact List.mem_cons_of_mem _ hline)
  · obtain hfree | ⟨line, rest, hl, rfl⟩ := Lines.free_or_line newline cs
    · have hfree' : newline ∉ c :: cs := by simp [Ne.symm hc, hfree]
      have hblank := h (c :: cs) (by rw [Lines.all_of_free hfree']; simp)
      obtain hnil | hone := blankLine_iff.1 hblank
      · cases hnil
      · obtain rfl : cs = [] := (List.cons.inj hone).2
        intro line hline
        cases hline
    · have hl' : newline ∉ c :: line := by simp [Ne.symm hc, hl]
      have hall : Lines.all newline (c :: (line ++ newline :: rest)) =
          (c :: line) :: Lines.all newline rest := Lines.all_line hl' rest
      have hblank := h (c :: line) (by rw [hall]; exact List.mem_cons_self)
      obtain hnil | hone := blankLine_iff.1 hblank
      · cases hnil
      · obtain rfl : line = [] := (List.cons.inj hone).2
        intro other hother
        rw [Lines.all_line hl] at hother
        obtain rfl | hother := List.mem_cons.mp hother
        · exact blankLine_iff.2 (.inl rfl)
        · exact h other (by rw [hall]; exact List.mem_cons_of_mem _ hother)

private theorem BlankLines.of_append (h : BlankLines (a ++ b)) : BlankLines b := by
  induction a with
  | nil => exact h
  | cons c a ih => exact ih h.tail

private theorem BlankLine.starts {start : Bytes} (h : BlankLine line) (hstart : start <+: line) :
    BlankLine start := by
  obtain rfl | rfl := blankLine_iff.1 h
  · exact blankLine_iff.2 (.inl (List.prefix_nil.mp hstart))
  · cases start with
    | nil => exact blankLine_iff.2 (.inl rfl)
    | cons c start =>
      obtain ⟨rfl, hnil⟩ := List.cons_prefix_cons.mp hstart
      exact blankLine_iff.2 (.inr (by rw [List.prefix_nil.mp hnil]))

private theorem BlankLines.pending (h : BlankLines a) : BlankLine (Lines.pending newline a) := by
  by_cases hnil : Lines.pending newline a = []
  · exact blankLine_iff.2 (.inl hnil)
  · refine h _ (List.mem_append_right _ ?_)
    rw [if_neg hnil]
    exact List.mem_singleton_self _

private theorem BlankLines.complete (h : BlankLines a) :
    ∀ line ∈ Lines.complete newline a, BlankLine line :=
  fun line hline => h line (List.mem_append_left _ hline)

private theorem BlankLines.start (h : BlankLines (a ++ b)) : BlankLines a := by
  induction a using Lines.lineInduction newline with
  | hfree a hfree =>
    have hblank : BlankLine a := by
      obtain ⟨line, hline, hprefix⟩ | hprefix := Lines.prefix_line hfree b
      · exact (h.complete line hline).starts hprefix
      · exact h.pending.starts hprefix
    intro line hline
    rw [Lines.all_of_free hfree] at hline
    split at hline
    · cases hline
    · rwa [List.mem_singleton.mp hline]
  | hline line rest hl ih =>
    rw [List.append_assoc, List.cons_append] at h
    have hall := Lines.all_line hl (rest ++ b)
    intro other hother
    rw [Lines.all_line hl] at hother
    obtain rfl | hother := List.mem_cons.mp hother
    · exact h other (by rw [hall]; exact List.mem_cons_self)
    · refine ih (fun l hlmem => h l ?_) other hother
      rw [hall]
      exact List.mem_cons_of_mem _ hlmem

private theorem BlankLines.of_append_pending (h : BlankLines (a ++ b)) :
    BlankLines (Lines.pending newline a ++ b) := by
  intro line hline
  refine h line ?_
  rw [Lines.all_append]
  exact List.mem_append_right _ hline

private theorem blankLines_of {complete : List Bytes}
    (hcomplete : Lines.complete newline a = complete)
    (h : ∀ line ∈ complete, BlankLine line) (hrest : BlankLine (Lines.pending newline a)) :
    BlankLines a := by
  intro line hline
  obtain hline | hline := List.mem_append.mp hline
  · exact h line (hcomplete ▸ hline)
  · split at hline
    · cases hline
    · rwa [List.mem_singleton.mp hline]

end Lines

namespace NdjsonDecoder

variable {δ : Type} (t : StaleText δ) {b chunk line : Bytes} {chunks : List Bytes}
  {decoder : Option δ}

/-- A receiver between two chunks that holds the start of a line. -/
def holding (decoder : Option δ) (buffer : Bytes) : NdjsonDecoder δ :=
  ⟨decoder, buffer, false, false⟩

/-- A receiver inside a line that is too long. -/
def discarding (decoder : Option δ) : NdjsonDecoder δ := ⟨decoder, [], true, false⟩

/-- Reading a line has no effect but its values. -/
def Reads (decoder : Option δ) (line : Bytes) (values : List Json) : Prop :=
  line.length ≤ maxFrameBytes ∧ ∀ disc fin, consumeLine t ⟨decoder, line, disc, fin⟩ =
    .ok values ⟨decoder, [], disc, fin⟩

variable {t}

private theorem reads_blank (h : BlankLine line) : Reads t decoder line [] := by
  have hlen := h.length_le
  refine ⟨by unfold maxFrameBytes; omega, fun disc fin => ?_⟩
  unfold consumeLine
  exact if_pos h

/-- A good line is read with its values. -/
theorem reads_good {values : List Json} (h : uiLine line = values.map .ok) :
    Reads t none line values := by
  have hlen := GoodLine.length_le ⟨values, h⟩
  refine ⟨hlen, fun disc fin => ?_⟩
  rw [uiLine, if_neg (by omega)] at h
  unfold consumeLine
  dsimp only
  split at h
  · next hblank =>
    cases values with
    | nil => rw [if_pos hblank]
    | cons v values => cases h
  · next hcontent =>
    rw [if_neg hcontent]
    split at h
    · cases values <;> cases h
    · next text htext =>
      have hdecode : t.decode none (trimReturn line) = some text := htext
      cases hparse : Json.parse text with
      | none =>
        rw [hparse] at h
        cases values <;> cases h
      | some value =>
        rw [hparse] at h
        obtain ⟨rfl⟩ : [value] = values :=
          List.map_injective_iff.mpr (fun _ _ he => Except.ok.inj he) h
        simp only [hdecode, hparse]

private theorem consumeLine_bad {e : NdjsonError} (h : uiLine line = [.error e])
    (hlen : line.length ≤ maxFrameBytes) (disc fin : Bool) :
    ∃ decoder', consumeLine t ⟨none, line, disc, fin⟩ = .error e ⟨decoder', [], disc, fin⟩ := by
  rw [uiLine, if_neg (by omega)] at h
  unfold consumeLine
  dsimp only
  split at h
  · cases h
  · next hcontent =>
    rw [if_neg hcontent]
    split at h
    · next hdecode =>
      have hdecode : t.decode none (trimReturn line) = none := hdecode
      rw [hdecode]
      cases h
      exact ⟨_, rfl⟩
    · next text htext =>
      have hdecode : t.decode none (trimReturn line) = some text := htext
      cases hparse : Json.parse text with
      | none =>
        rw [hparse] at h
        cases h
        exact ⟨none, by simp only [hdecode, hparse]⟩
      | some value =>
        rw [hparse] at h
        cases h

private theorem pushLines_reads {lines : List Bytes} {values : Bytes → List Json}
    (h : ∀ line ∈ lines, Reads t decoder line (values line)) (acc : List Json)
    (more : List Bytes) :
    pushLines t acc (lines ++ more) (holding decoder []) =
      pushLines t (acc ++ lines.flatMap values) more (holding decoder []) := by
  induction lines generalizing acc with
  | nil => rw [List.nil_append, List.flatMap_nil, List.append_nil]
  | cons line lines ih =>
    obtain ⟨hlen, hread⟩ := h line List.mem_cons_self
    have hstep : pushLines t acc (line :: (lines ++ more)) (holding decoder []) =
        pushLines t (acc ++ values line) (lines ++ more) (holding decoder []) := by
      rw [pushLines, if_neg (by simp [holding]), if_neg (by simp [holding]; omega)]
      have hconsume : consumeLine t { holding decoder [] with
          buffer := (holding decoder []).buffer ++ line } =
          .ok (values line) (holding decoder []) := hread false false
      rw [hconsume]
    rw [List.cons_append, hstep, ih (fun l hl => h l (List.mem_cons_of_mem _ hl)),
      List.flatMap_cons, List.append_assoc]

private theorem push_buffer (hb : newline ∉ b) (hlen : b.length ≤ maxFrameBytes) (chunk : Bytes) :
    push t chunk (holding decoder b) = push t (b ++ chunk) (holding decoder []) := by
  unfold push
  obtain hfree | ⟨line, rest, hl, rfl⟩ := Lines.free_or_line newline chunk
  · have hfree' : newline ∉ b ++ chunk := by simp [hb, hfree]
    rw [Lines.complete_of_free hfree, Lines.complete_of_free hfree', Lines.pending_of_free hfree,
      Lines.pending_of_free hfree']
    simp only [holding, pushLines, pushRest, Bool.false_eq_true, if_false, or_false,
      List.length_nil, List.length_append, Nat.zero_add, List.nil_append]
    by_cases hchunk : chunk = []
    · subst hchunk
      by_cases hnil : b = []
      · simp [hnil]
      · simp [hnil, Nat.not_lt.mpr hlen]
    · simp [hchunk]
  · have hl' : newline ∉ b ++ line := by simp [hb, hl]
    rw [Lines.complete_line hl, Lines.pending_line hl, ← List.append_assoc,
      Lines.complete_line hl', Lines.pending_line hl']
    simp only [holding, pushLines, Bool.false_eq_true, if_false, List.length_nil,
      List.length_append, Nat.zero_add, List.nil_append]
    rfl

/-- A push without a bad line yields the complete lines and holds the rest. -/
theorem push_reads (values : Bytes → List Json)
    (h : ∀ line ∈ Lines.complete newline chunk, Reads t decoder line (values line))
    (hrest : (Lines.pending newline chunk).length ≤ maxFrameBytes) :
    push t chunk (holding decoder []) =
      .ok ((Lines.complete newline chunk).flatMap values)
        (holding decoder (Lines.pending newline chunk)) := by
  have hlines := pushLines_reads h [] []
  rw [List.append_nil, List.nil_append] at hlines
  rw [push, if_neg (by simp [holding]), hlines]
  simp only [pushLines, pushRest, holding, Bool.false_eq_true, or_false, List.length_nil,
    Nat.zero_add, List.nil_append, if_neg (Nat.not_lt.mpr hrest)]
  split
  · next hnil => rw [hnil]
  · rfl

/-- A push stops at the first bad line. -/
theorem push_bad {lines more : List Bytes} {bad : Bytes} {e : NdjsonError}
    (hcomplete : Lines.complete newline chunk = lines ++ bad :: more)
    (hgood : ∀ line ∈ lines, GoodLine line) (hbad : uiLine bad = [.error e]) :
    ∃ decoder', push t chunk (holding none []) = .error e (holding decoder' []) := by
  choose! values hvalues using hgood
  have hlines := pushLines_reads
    (fun line hline => reads_good (t := t) (hvalues line hline)) [] (bad :: more)
  rw [push, if_neg (by simp [holding]), hcomplete, hlines]
  by_cases hlong : maxFrameBytes < bad.length
  · rw [uiLine, if_pos hlong] at hbad
    cases hbad
    rw [pushLines, if_neg (by simp [holding]), if_pos (by simpa [holding] using hlong)]
    exact ⟨none, rfl⟩
  · obtain ⟨decoder', hconsume⟩ := consumeLine_bad (t := t) hbad (Nat.not_lt.mp hlong)
      false false
    rw [pushLines, if_neg (by simp [holding]), if_neg (by simpa [holding] using hlong)]
    have hconsume' : consumeLine t { holding (none : Option δ) [] with
        buffer := (holding (none : Option δ) []).buffer ++ bad } =
        .error e (holding decoder' []) := hconsume
    rw [hconsume']
    exact ⟨decoder', rfl⟩

private theorem push_oversized (hgood : ∀ line ∈ Lines.complete newline chunk, GoodLine line)
    (hrest : maxFrameBytes < (Lines.pending newline chunk).length) :
    push t chunk (holding none []) = .error .exceeds (discarding none) := by
  choose! values hvalues using hgood
  have hlines := pushLines_reads
    (fun line hline => reads_good (t := t) (hvalues line hline)) [] []
  rw [List.append_nil, List.nil_append] at hlines
  have hne : Lines.pending newline chunk ≠ [] := by
    intro hnil
    rw [hnil] at hrest
    exact absurd hrest (by decide)
  rw [push, if_neg (by simp [holding]), hlines]
  simp [pushLines, pushRest, holding, discarding, hne, hrest]

private theorem finish_holding (hlen : b.length ≤ maxFrameBytes) :
    (outcome (finish t (holding none b))).1 = uiLine b := by
  have hfinish : finish t (holding none b) = consumeLine t ⟨none, b, false, true⟩ := rfl
  rw [hfinish]
  obtain ⟨values, hvalues⟩ | ⟨e, he⟩ := uiLine_cases b
  · rw [(reads_good hvalues).2, hvalues]
    rfl
  · obtain ⟨decoder', hconsume⟩ := consumeLine_bad (t := t) he hlen false true
    rw [hconsume, he]
    rfl

/-- A blank rest ends with nothing. -/
theorem finish_blank (h : BlankLine b) : (outcome (finish t (holding decoder b))).1 = [] := by
  have hfinish : finish t (holding decoder b) = consumeLine t ⟨decoder, b, false, true⟩ :=
    rfl
  rw [hfinish, (reads_blank h).2]
  rfl

/-- A chunk is pushed, and the run goes on with the outcome. -/
theorem run_cons (hb : newline ∉ b) (hlen : b.length ≤ maxFrameBytes) (chunk : Bytes)
    (chunks : List Bytes) : run t (holding decoder b) (chunk :: chunks) =
      (outcome (push t (b ++ chunk) (holding decoder []))).1 ++
        run t (outcome (push t (b ++ chunk) (holding decoder []))).2 chunks := by
  rw [run, push_buffer hb hlen]

end NdjsonDecoder

/-- No complete line is bad and the rest is not too long. -/
def CleanStream (bytes : Bytes) : Prop :=
  (∀ line ∈ Lines.complete newline bytes, GoodLine line) ∧
    (Lines.pending newline bytes).length ≤ maxFrameBytes

/-- One complete line has content, and nothing else. -/
def SingleLine (bytes : Bytes) : Prop :=
  ∃ before line after, Lines.complete newline bytes = before ++ line :: after ∧
    (∀ l ∈ before, BlankLine l) ∧ (∀ l ∈ after, BlankLine l) ∧
      BlankLine (Lines.pending newline bytes)

private theorem CleanStream.length_pending {a b : Bytes} (h : CleanStream (a ++ b)) :
    (Lines.pending newline a).length ≤ maxFrameBytes := by
  obtain ⟨hgood, hrest⟩ := h
  rw [Lines.complete_append] at hgood
  rw [Lines.pending_append] at hrest
  obtain ⟨line, hline, hprefix⟩ | hprefix :=
    Lines.prefix_line (Lines.free_pending newline a) b
  · exact hprefix.length_le.trans
      (hgood line (List.mem_append_right _ hline)).length_le
  · exact hprefix.length_le.trans hrest

private theorem CleanStream.of_append {a b : Bytes} (h : CleanStream (a ++ b)) :
    (∀ line ∈ Lines.complete newline a, GoodLine line) ∧
      CleanStream (Lines.pending newline a ++ b) := by
  obtain ⟨hgood, hrest⟩ := h
  rw [Lines.complete_append] at hgood
  rw [Lines.pending_append] at hrest
  exact ⟨fun line hline => hgood line (List.mem_append_left _ hline),
    fun line hline => hgood line (List.mem_append_right _ hline), hrest⟩

private theorem uiMeaning_append (a b : Bytes) : uiMeaning (a ++ b) =
    (Lines.complete newline a).flatMap uiLine ++ uiMeaning (Lines.pending newline a ++ b) := by
  rw [uiMeaning, Lines.all_append, List.flatMap_append]
  rfl

private theorem uiMeaning_of_free {b : Bytes} (h : newline ∉ b) : uiMeaning b = uiLine b := by
  rw [uiMeaning, Lines.all_of_free h]
  split
  · next hnil =>
    subst hnil
    rfl
  · rw [List.flatMap_singleton]

namespace NdjsonDecoder

variable {δ : Type} {t : StaleText δ} {b : Bytes} {chunks : List Bytes} {decoder : Option δ}
variable {lines : List Bytes}

private theorem map_flatMap_values {values : Bytes → List Json}
    (h : ∀ line ∈ lines, uiLine line = (values line).map .ok) :
    (lines.flatMap values).map Except.ok = lines.flatMap uiLine := by
  rw [List.map_flatMap]
  exact (List.flatMap_congr h).symm

private theorem run_clean (hb : newline ∉ b) (hlen : b.length ≤ maxFrameBytes)
    (h : CleanStream (b ++ chunks.flatten)) :
    run t (holding none b) chunks = uiMeaning (b ++ chunks.flatten) := by
  induction chunks generalizing b with
  | nil =>
    rw [List.flatten_nil, List.append_nil, uiMeaning_of_free hb]
    exact finish_holding hlen
  | cons chunk chunks ih =>
    rw [List.flatten_cons, ← List.append_assoc] at h ⊢
    obtain ⟨hgood, hclean⟩ := h.of_append
    have hrest := h.length_pending
    choose! values hvalues using hgood
    rw [run_cons hb hlen,
      push_reads values (fun line hline => reads_good (hvalues line hline)) hrest,
      uiMeaning_append, ← ih (Lines.free_pending _ _) hrest hclean]
    change ((Lines.complete newline (b ++ chunk)).flatMap values).map Except.ok ++ _ = _
    rw [map_flatMap_values hvalues]
    rfl

private theorem run_blank (hb : newline ∉ b) (hlen : b.length ≤ maxFrameBytes)
    (h : BlankLines (b ++ chunks.flatten)) : run t (holding decoder b) chunks = [] := by
  induction chunks generalizing b with
  | nil =>
    rw [List.flatten_nil, List.append_nil] at h
    have hblank := h.pending
    rw [Lines.pending_of_free hb] at hblank
    exact finish_blank hblank
  | cons chunk chunks ih =>
    rw [List.flatten_cons, ← List.append_assoc] at h
    have hrest : (Lines.pending newline (b ++ chunk)).length ≤ maxFrameBytes :=
      h.start.pending.length_le.trans (by decide)
    rw [run_cons hb hlen, push_reads (fun _ => [])
      (fun line hline => reads_blank (h.start.complete line hline)) hrest]
    change ((Lines.complete newline (b ++ chunk)).flatMap fun _ => ([] : List Json)).map .ok ++
      run t (holding decoder (Lines.pending newline (b ++ chunk))) chunks = []
    rw [ih (Lines.free_pending _ _) hrest h.of_append_pending]
    simp

private theorem run_discarding {line rest : Bytes} (hl : newline ∉ line)
    (hchunks : chunks.flatten = line ++ newline :: rest) (h : BlankLines rest) :
    run t (discarding decoder) chunks = [] := by
  induction chunks generalizing line with
  | nil => simp at hchunks
  | cons chunk chunks ih =>
    rw [List.flatten_cons] at hchunks
    obtain hfree | ⟨start, after, hstart, rfl⟩ := Lines.free_or_line newline chunk
    · have hpush : push t chunk (discarding decoder) = .ok [] (discarding decoder) := by
        rw [push, if_neg (by simp [discarding]), Lines.complete_of_free hfree]
        simp [pushLines, pushRest, discarding]
      rw [run, hpush]
      obtain ⟨line', rfl, hrest⟩ : ∃ line', line = chunk ++ line' ∧
          chunks.flatten = line' ++ newline :: rest := by
        obtain ⟨l, rfl, hl'⟩ | ⟨l, rfl, hl'⟩ := List.append_eq_append_iff.mp hchunks
        · exact ⟨l, rfl, hl'⟩
        · cases l with
          | nil => exact ⟨[], by simp, by simpa using hl'.symm⟩
          | cons c l =>
            rw [List.cons_append] at hl'
            obtain ⟨rfl, -⟩ := List.cons.inj hl'
            simp at hfree
      exact ih (fun hmem => hl (List.mem_append_right _ hmem)) hrest
    · have hfirst : Lines.first newline (line ++ newline :: rest) =
          some (start, after ++ chunks.flatten) := by
        rw [← hchunks, List.append_assoc, List.cons_append, Lines.first_line hstart]
      rw [Lines.first_line hl] at hfirst
      cases hfirst
      have hpush : push t (line ++ newline :: after) (discarding decoder) =
          push t after (holding decoder []) := by
        rw [push, if_neg (by simp [discarding]), Lines.complete_line hl, Lines.pending_line hl]
        rfl
      have hrun : run t (holding decoder []) (after :: chunks) = [] :=
        run_blank List.not_mem_nil (by decide) h
      rw [run, hpush]
      rwa [run] at hrun

private theorem append_cases {α : Type} {xs ys before after : List α} {a : α}
    (h : xs ++ ys = before ++ a :: after) :
    (∃ between, before = xs ++ between ∧ ys = between ++ a :: after) ∨
      ∃ passed, xs = before ++ a :: passed ∧ after = passed ++ ys := by
  obtain ⟨between, rfl, hys⟩ | ⟨passed, rfl, hafter⟩ := List.append_eq_append_iff.mp h
  · exact .inl ⟨between, rfl, hys⟩
  · cases passed with
    | nil => exact .inl ⟨[], by simp, by simpa using hafter.symm⟩
    | cons c passed =>
      obtain ⟨rfl, rfl⟩ := List.cons.inj hafter
      exact .inr ⟨passed, rfl, rfl⟩

/-- One bad line among blank ones is reported once, wherever the chunks end. -/
theorem run_bad {before after : List Bytes} {line : Bytes} {e : NdjsonError}
    (hb : newline ∉ b) (hlen : b.length ≤ maxFrameBytes)
    (hlines : Lines.complete newline (b ++ chunks.flatten) = before ++ line :: after)
    (hbefore : ∀ l ∈ before, BlankLine l) (hafter : ∀ l ∈ after, BlankLine l)
    (hrest : BlankLine (Lines.pending newline (b ++ chunks.flatten)))
    (hbad : uiLine line = [.error e]) : run t (holding none b) chunks = [.error e] := by
  induction chunks generalizing b before with
  | nil =>
    rw [List.flatten_nil, List.append_nil, Lines.complete_of_free hb] at hlines
    cases before <;> cases hlines
  | cons chunk chunks ih =>
    rw [List.flatten_cons, ← List.append_assoc, Lines.complete_append] at hlines
    rw [List.flatten_cons, ← List.append_assoc, Lines.pending_append] at hrest
    have hfree := Lines.free_pending newline (b ++ chunk)
    rw [run_cons hb hlen]
    obtain ⟨between, rfl, hlater⟩ | ⟨passed, hchunk, rfl⟩ := append_cases hlines
    · have hblank : ∀ l ∈ Lines.complete newline (b ++ chunk), BlankLine l :=
        fun l hl => hbefore l (List.mem_append_left _ hl)
      by_cases hlong : maxFrameBytes < (Lines.pending newline (b ++ chunk)).length
      · -- The bad line is the one that the rest of the chunk starts.
        obtain hnone | ⟨start, rest, hstart, hflat⟩ :=
          Lines.free_or_line newline chunks.flatten
        · rw [Lines.complete_of_free (by simp [hfree, hnone])] at hlater
          cases between <;> cases hlater
        · rw [hflat, ← List.append_assoc, Lines.complete_line (by simp [hfree, hstart])] at hlater
          rw [hflat, ← List.append_assoc, Lines.pending_line (by simp [hfree, hstart])] at hrest
          have hlength : maxFrameBytes <
              (Lines.pending newline (b ++ chunk) ++ start).length := by
            rw [List.length_append]
            omega
          obtain rfl : between = [] := by
            cases between with
            | nil => rfl
            | cons l between =>
              obtain ⟨rfl, -⟩ := List.cons.inj hlater
              have hle := (hbefore _ (List.mem_append_right _ List.mem_cons_self)).length_le
              unfold maxFrameBytes at hlength
              omega
          obtain ⟨rfl, rfl⟩ := List.cons.inj hlater
          obtain rfl : e = .exceeds := by
            rw [uiLine, if_pos hlength] at hbad
            cases hbad
            rfl
          rw [push_oversized (fun l hl => (hblank l hl).good) hlong]
          exact congrArg (_ :: ·)
            (run_discarding hstart hflat (blankLines_of rfl hafter hrest))
      · rw [push_reads (fun _ => []) (fun l hl => reads_blank (hblank l hl))
          (Nat.not_lt.mp hlong)]
        change ((Lines.complete newline (b ++ chunk)).flatMap fun _ => ([] : List Json)).map
          Except.ok ++ run t (holding none (Lines.pending newline (b ++ chunk))) chunks = _
        rw [ih hfree (Nat.not_lt.mp hlong) hlater
          (fun l hl => hbefore l (List.mem_append_right _ hl)) hrest]
        simp
    · obtain ⟨decoder', hpush⟩ := push_bad (t := t) hchunk
        (fun l hl => (hbefore l hl).good) hbad
      have hlater : BlankLines (Lines.pending newline (b ++ chunk) ++ chunks.flatten) :=
        blankLines_of rfl (fun l hl => hafter l (List.mem_append_right _ hl)) hrest
      rw [hpush]
      exact congrArg (_ :: ·) (run_blank List.not_mem_nil (by decide) hlater.of_append)

private theorem flatMap_blank (h : ∀ l ∈ lines, BlankLine l) :
    lines.flatMap uiLine = [] :=
  List.flatMap_eq_nil_iff.mpr fun l hl => (h l hl).uiLine_eq

/-- The meaning of a stream is that of its lines and its rest. -/
theorem uiMeaning_eq (bytes : Bytes) : uiMeaning bytes =
    (Lines.complete newline bytes).flatMap uiLine ++ uiLine (Lines.pending newline bytes) := by
  have hmeaning := uiMeaning_append bytes []
  rw [List.append_nil, List.append_nil] at hmeaning
  rw [hmeaning, uiMeaning_of_free (Lines.free_pending newline bytes)]

private theorem run_single (h : SingleLine chunks.flatten) :
    run t fresh chunks = uiMeaning chunks.flatten := by
  obtain ⟨before, line, after, hlines, hbefore, hafter, hrest⟩ := h
  obtain hgood | ⟨e, hbad⟩ := uiLine_cases line
  · refine run_clean (b := []) List.not_mem_nil (by decide) ⟨fun l hl => ?_, ?_⟩
    · rw [List.nil_append, hlines] at hl
      obtain hl | hl := List.mem_append.mp hl
      · exact (hbefore l hl).good
      · obtain rfl | hl := List.mem_cons.mp hl
        · exact hgood
        · exact (hafter l hl).good
    · exact hrest.length_le.trans (by decide)
  · rw [uiMeaning_eq, hlines, List.flatMap_append, List.flatMap_cons, flatMap_blank hbefore,
      flatMap_blank hafter, hrest.uiLine_eq, hbad]
    exact run_bad (b := []) List.not_mem_nil (by decide) hlines hbefore hafter hrest hbad

private theorem exists_first_bad (h : ¬ ∀ line ∈ lines, GoodLine line) :
    ∃ before bad after e, lines = before ++ bad :: after ∧ (∀ l ∈ before, GoodLine l) ∧
      uiLine bad = [.error e] := by
  induction lines with
  | nil => exact absurd (fun l hl => by cases hl) h
  | cons line lines ih =>
    obtain hgood | ⟨e, hbad⟩ := uiLine_cases line
    · obtain ⟨before, bad, after, e, rfl, hbefore, hbad⟩ := ih fun hall =>
        h (List.forall_mem_cons.mpr ⟨hgood, hall⟩)
      exact ⟨line :: before, bad, after, e, rfl, List.forall_mem_cons.mpr ⟨hgood, hbefore⟩, hbad⟩
    · exact ⟨[], line, lines, e, rfl, nofun, hbad⟩

private theorem clean_or_single {bytes : Bytes} (h : run t fresh [bytes] = uiMeaning bytes) :
    CleanStream bytes ∨ SingleLine bytes := by
  have hrun : run t fresh [bytes] = (outcome (push t ([] ++ bytes) (holding none []))).1 ++
      run t (outcome (push t ([] ++ bytes) (holding none []))).2 [] :=
    run_cons List.not_mem_nil (by decide) bytes []
  rw [List.nil_append] at hrun
  rw [h, uiMeaning_eq] at hrun
  by_cases hgood : ∀ line ∈ Lines.complete newline bytes, GoodLine line
  · by_cases hrest : (Lines.pending newline bytes).length ≤ maxFrameBytes
    · exact .inl ⟨hgood, hrest⟩
    · rw [push_oversized hgood (Nat.not_le.mp hrest), uiLine, if_pos (Nat.not_le.mp hrest)] at hrun
      have hlast := congrArg List.getLast? hrun
      rw [List.getLast?_append, List.getLast?_append] at hlast
      cases hlast
  · obtain ⟨before, bad, after, e, hlines, hbefore, hbad⟩ := exists_first_bad hgood
    obtain ⟨decoder', hpush⟩ := push_bad (t := t) hlines hbefore hbad
    rw [hpush, hlines, List.flatMap_append, List.flatMap_cons, hbad] at hrun
    have hfinish : (outcome (EStateM.Result.error e (holding decoder' []))).1 ++
        run t (outcome (EStateM.Result.error e (holding decoder' []))).2 [] = [.error e] := by
      exact congrArg (_ :: ·) (finish_blank (t := t) (blankLine_iff.2 (.inl rfl)))
    rw [hfinish] at hrun
    have hlen := congrArg List.length hrun
    simp only [List.length_append, List.length_cons, List.length_nil] at hlen
    have hnil : ∀ {lines : List Bytes}, (lines.flatMap uiLine).length = 0 →
        ∀ l ∈ lines, BlankLine l := fun hzero l hl =>
      blankLine_of_uiLine (List.flatMap_eq_nil_iff.mp (List.length_eq_zero_iff.mp hzero) l hl)
    exact .inr ⟨before, bad, after, hlines, hnil (by omega), hnil (by omega),
      blankLine_of_uiLine (List.length_eq_zero_iff.mp (by omega))⟩

/-- The streams that yield their meaning wherever the chunks end. -/
theorem run_eq_meaning_iff (bytes : Bytes) :
    (∀ chunks : List Bytes, chunks.flatten = bytes → run t fresh chunks = uiMeaning bytes) ↔
      CleanStream bytes ∨ SingleLine bytes := by
  constructor
  · intro h
    exact clean_or_single (t := t) (h [bytes] (by simp))
  · rintro (hclean | hsingle) chunks rfl
    · exact run_clean (b := []) List.not_mem_nil (by decide) hclean
    · exact run_single hsingle

end NdjsonDecoder

end AwesomeAgent
