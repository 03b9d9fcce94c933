import AwesomeAgent.Context.Builder
import Mathlib.Algebra.Order.BigOperators.Group.List
import Mathlib.Algebra.Order.Group.Nat

/-!
# What the context builder packs

A truncation is checked with the text that it returns, so that every source that is packed
fits, however the estimates of shorter and longer texts compare. The last check of the
builder therefore never fails.
-/

namespace AwesomeAgent.Context

open Modeling (Text ModelMessage maxTextLength)

variable (dump : ModelMessage → Text)

/-- The tokens of a text as a message, whether it passes the checks or not. -/
def tokensOf (source : ContextSource) (content : Text) : Nat :=
  estimateMessage dump (messageOf source content)

/-- A text that is too long for a message together with its label. -/
def TooLong (source : ContextSource) (content : Text) : Prop :=
  maxTextLength < (rendered source content).length

instance (source : ContextSource) (content : Text) : Decidable (TooLong source content) :=
  inferInstanceAs (Decidable (_ < _))

private theorem messageEstimate_eq (source : ContextSource) (content : Text) :
    messageEstimate dump source content =
      if TooLong source content then .error .validation
      else .ok (tokensOf dump source content) := by
  by_cases hlong : TooLong source content
  · have hmessage : message source content = .error .validation := if_pos hlong
    rw [messageEstimate, hmessage, if_pos hlong]
    rfl
  · have hmessage : message source content = .ok (messageOf source content) := if_neg hlong
    rw [messageEstimate, hmessage, if_neg hlong]
    rfl

variable {source : ContextSource} {sources : List ContextSource} {shares : MemoryShares}
  {request : ContextRequest}

private theorem TooLong.longer {content shorter : Text}
    (h : TooLong source shorter) (hle : shorter.length ≤ content.length) :
    TooLong source content := by
  unfold TooLong rendered at h ⊢
  rw [List.length_append] at h ⊢
  omega

/-! ## Lines -/

/-- A line without its end. -/
def lineText (line : Text) : Text := line.takeWhile fun c => !isLineBoundary c

private theorem lineText_lt {text : Text} : ∀ line ∈ (splitLines text).dropLast,
    (lineText line).length < line.length := by
  intro line hline
  obtain ⟨front, c, rfl, hc⟩ := isEnded_of_mem_dropLast text line hline
  by_contra hle
  have hbegins : lineText (front ++ [c]) <+: front ++ [c] := List.takeWhile_prefix _
  have hall := List.takeWhile_eq_self_iff.mp (hbegins.eq_of_length_le (Nat.le_of_not_lt hle))
  have hinside := hall c (List.mem_append_right _ List.mem_cons_self)
  rw [hc] at hinside
  cases hinside

private theorem length_lineText (line : Text) : (lineText line).length ≤ line.length :=
  (List.takeWhile_sublist _).length_le

private theorem length_joinLines {lines : List Text}
    (h : ∀ line ∈ lines.dropLast, (lineText line).length < line.length) {kept : List Text}
    (hkept : kept <+: lines.map lineText) : (joinLines kept).length ≤ lines.flatten.length := by
  induction lines generalizing kept with
  | nil =>
    rw [List.map_nil, List.prefix_nil] at hkept
    rw [hkept]
    exact Nat.zero_le _
  | cons line rest ih =>
    cases kept with
    | nil => exact Nat.zero_le _
    | cons first more =>
      rw [List.map_cons, List.cons_prefix_cons] at hkept
      obtain ⟨rfl, hmore⟩ := hkept
      rw [List.flatten_cons, List.length_append]
      cases more with
      | nil =>
        have hline := length_lineText line
        rw [joinLines, List.intercalate_singleton]
        omega
      | cons second later =>
        cases rest with
        | nil => exact absurd hmore (by rw [List.map_nil, List.prefix_nil]; exact nofun)
        | cons next others =>
          obtain ⟨hline, hothers⟩ := List.forall_mem_cons.mp h
          have hle := ih hothers hmore
          unfold joinLines at hle ⊢
          rw [List.intercalate_cons_cons, List.length_append, List.length_append,
            List.length_singleton]
          omega

private theorem length_joinLines_splitlines {text : Text} {kept : List Text}
    (h : kept <+: splitlines text) : (joinLines kept).length ≤ text.length :=
  (length_joinLines lineText_lt h).trans_eq (congrArg List.length (flatten_splitLines text))

/-! ## Truncations -/

/-- A text as a whole, its first lines joined by newlines, or a beginning of its first line. -/
def Cut (content cut : Text) : Prop :=
  cut = content ∨ (∃ kept, kept <+: splitlines content ∧ cut = joinLines kept) ∨
    ∃ first ∈ (splitlines content).head?, cut <+: first

private theorem Cut.length_le {content cut : Text} (h : Cut content cut) :
    cut.length ≤ content.length := by
  rcases h with rfl | ⟨kept, hkept, rfl⟩ | ⟨first, hfirst, hcut⟩
  · exact le_refl _
  · exact length_joinLines_splitlines hkept
  · have hone : [first] <+: splitlines content := by
      cases hlines : splitlines content with
      | nil =>
        rw [hlines] at hfirst
        cases hfirst
      | cons line rest =>
        rw [hlines] at hfirst
        obtain rfl := Option.some.inj hfirst
        exact List.prefix_append [line] rest
    have hle := length_joinLines_splitlines hone
    rw [joinLines, List.intercalate_singleton] at hle
    exact hcut.length_le.trans hle

private theorem retainLines_eq {lines : List Text}
    (hshort : ∀ kept, kept <+: lines → ¬ TooLong source (joinLines kept)) (limit : Nat) :
    ∃ kept, kept <+: lines ∧ retainLines dump source limit [] lines = .ok kept ∧
      (kept = [] ∨ tokensOf dump source (joinLines kept) ≤ limit) := by
  suffices hfrom : ∀ retained rest, lines = retained ++ rest →
      (retained = [] ∨ tokensOf dump source (joinLines retained) ≤ limit) →
      ∃ kept, kept <+: lines ∧ retainLines dump source limit retained rest = .ok kept ∧
        (kept = [] ∨ tokensOf dump source (joinLines kept) ≤ limit) from
    hfrom [] lines rfl (Or.inl rfl)
  intro retained rest
  induction rest generalizing retained with
  | nil =>
    intro hsplit hfits
    rw [List.append_nil] at hsplit
    exact ⟨retained, hsplit ▸ List.prefix_rfl, rfl, hfits⟩
  | cons line more ih =>
    intro hsplit hfits
    have hnext : lines = retained ++ [line] ++ more := by
      rw [hsplit, List.append_assoc, List.singleton_append]
    have hestimate : messageEstimate dump source (joinLines (retained ++ [line])) =
        .ok (tokensOf dump source (joinLines (retained ++ [line]))) := by
      rw [messageEstimate_eq, if_neg (hshort _ (hnext ▸ List.prefix_append _ _))]
    by_cases hfull : limit < tokensOf dump source (joinLines (retained ++ [line]))
    · refine ⟨retained, hsplit ▸ List.prefix_append _ _, ?_, hfits⟩
      rw [retainLines, hestimate]
      exact if_pos hfull
    · obtain ⟨kept, hkept, hretained, hresult⟩ := ih _ hnext (Or.inr (by omega))
      refine ⟨kept, hkept, ?_, hresult⟩
      rw [retainLines, hestimate, ← hretained]
      exact if_neg hfull

private theorem fitLine_eq {line : Text}
    (hshort : ∀ n, ¬ TooLong source (line.take n)) (limit low high : Nat)
    (hlow : low = 0 ∨ tokensOf dump source (line.take low) ≤ limit) :
    ∃ n, fitLine dump source limit line low high = .ok n ∧
      (n = 0 ∨ tokensOf dump source (line.take n) ≤ limit) := by
  fun_induction fitLine dump source limit line low high with
  | case1 low high hless midpoint ih1 ih2 =>
    have hestimate : messageEstimate dump source (line.take midpoint) =
        .ok (tokensOf dump source (line.take midpoint)) := by
      rw [messageEstimate_eq, if_neg (hshort midpoint)]
    rw [hestimate]
    by_cases hfits : tokensOf dump source (line.take midpoint) ≤ limit
    · obtain ⟨n, hn, hresult⟩ := ih1 (Or.inr hfits)
      exact ⟨n, (if_pos hfits).trans hn, hresult⟩
    · obtain ⟨n, hn, hresult⟩ := ih2 hlow
      exact ⟨n, (if_neg hfits).trans hn, hresult⟩
  | case2 low high hdone => exact ⟨low, rfl, hlow⟩

private theorem retainedLines_eq (hshort : ¬ TooLong source source.content)
    (limit : Nat) : ∃ kept, retainedLines dump source limit = .ok kept ∧
      Cut source.content (joinLines kept) ∧
        (kept = [] ∨ tokensOf dump source (joinLines kept) ≤ limit) := by
  have hlines : ∀ kept, kept <+: splitlines source.content →
      ¬ TooLong source (joinLines kept) := fun kept hkept hlong =>
    hshort (hlong.longer (length_joinLines_splitlines hkept))
  obtain ⟨kept, hkept, hretained, hfits⟩ := retainLines_eq dump hlines limit
  unfold retainedLines
  dsimp only
  rw [hretained]
  cases kept with
  | cons line rest => exact ⟨_, rfl, Or.inr (Or.inl ⟨_, hkept, rfl⟩), hfits⟩
  | nil =>
    cases hfirst : splitlines source.content with
    | nil => exact ⟨[], rfl, Or.inr (Or.inl ⟨[], List.nil_prefix, rfl⟩), Or.inl rfl⟩
    | cons first rest =>
      have hcut : ∀ n, Cut source.content (first.take n) := fun n =>
        Or.inr (Or.inr ⟨first, by rw [hfirst]; rfl, List.take_prefix n first⟩)
      have htake : ∀ n, ¬ TooLong source (first.take n) := fun n hlong =>
        hshort (hlong.longer (hcut n).length_le)
      obtain ⟨n, hn, hresult⟩ := fitLine_eq dump htake limit 0 first.length (Or.inl rfl)
      by_cases hzero : n = 0
      · refine ⟨[], ?_, Or.inr (Or.inl ⟨[], List.nil_prefix, rfl⟩), Or.inl rfl⟩
        dsimp only [bind, Except.bind]
        rw [hn]
        exact congrArg Except.ok (if_pos hzero)
      · have hjoin : joinLines [first.take n] = first.take n := List.intercalate_singleton
        refine ⟨[first.take n], ?_, ?_, Or.inr (by
          rw [hjoin]
          exact hresult.resolve_left hzero)⟩
        · dsimp only [bind, Except.bind]
          rw [hn]
          exact congrArg Except.ok (if_neg hzero)
        · rw [hjoin]
          exact hcut n

private theorem truncateContent_eq (source : ContextSource) (limit : Nat) :
    (truncateContent dump source limit = .error .validation ∧ TooLong source source.content) ∨
      ∃ content, truncateContent dump source limit =
          .ok (content, decide (content ≠ source.content)) ∧
        (content = [] ∨ Cut source.content content ∧ tokensOf dump source content ≤ limit ∧
          ¬ TooLong source content) := by
  unfold truncateContent
  by_cases hzero : limit = 0
  · rw [if_pos hzero]
    exact Or.inr ⟨[], congrArg (fun b => Except.ok ([], b)) (decide_eq_decide.mpr ne_comm),
      Or.inl rfl⟩
  rw [if_neg hzero, messageEstimate_eq]
  by_cases hlong : TooLong source source.content
  · rw [if_pos hlong]
    exact Or.inl ⟨rfl, hlong⟩
  rw [if_neg hlong]
  right
  by_cases hfits : tokensOf dump source source.content ≤ limit
  · refine ⟨source.content, ?_, Or.inr ⟨Or.inl rfl, hfits, hlong⟩⟩
    rw [decide_eq_false (not_not.mpr rfl)]
    exact if_pos hfits
  · obtain ⟨kept, hkept, hcut, hresult⟩ := retainedLines_eq dump hlong limit
    refine ⟨joinLines kept, ?_, ?_⟩
    · rw [hkept]
      exact if_neg hfits
    · rcases hresult with rfl | hresult
      · exact Or.inl rfl
      · exact Or.inr ⟨hcut, hresult, fun h => hlong (h.longer hcut.length_le)⟩

/-! ## Packing -/

/-- The record of a text. -/
def manifestItem [ContentHash] (source : ContextSource)
    (content : Text) (order : Nat) : ContextManifestItem where
  kind := source.kind
  sourceId := source.sourceId
  order := order
  estimatedTokens := tokensOf dump source content
  truncated := decide (content ≠ source.content)
  contentHash := ContentHash.sha256 (encodeUtf8 content)
  coveredSequenceStart := source.coveredSequenceStart
  coveredSequenceEnd := source.coveredSequenceEnd
  skillIdentities := source.skillIdentities

/-- What a context holds of a source: a mandatory one verbatim, of others what fits. -/
def Fits (remaining : Nat) (source : ContextSource)
    (content : Text) : Prop :=
  if mandatory source then content = source.content
  else content ≠ [] ∧ Cut source.content content ∧ tokensOf dump source content ≤ remaining

private theorem PackState.sourceLimit_le (s : PackState) (source : ContextSource) :
    s.sourceLimit source ≤ s.optionalRemaining := by
  unfold sourceLimit
  split
  · exact Nat.min_le_left _ _
  · exact le_refl _

private theorem PackState.pack_cases [ContentHash] (s : PackState) (source : ContextSource) :
    (s.pack dump source = .error .validation ∧ TooLong source source.content) ∨
      (¬ mandatory source = true ∧ s.pack dump source = .ok s) ∨
      ∃ content, s.pack dump source = .ok (s.add source content (tokensOf dump source content)
          (decide (content ≠ source.content))) ∧
        Fits dump s.optionalRemaining source content := by
  unfold pack
  by_cases hmandatory : mandatory source = true
  · rw [if_pos hmandatory, messageEstimate_eq]
    by_cases hlong : TooLong source source.content
    · rw [if_pos hlong]
      exact Or.inl ⟨rfl, hlong⟩
    · rw [if_neg hlong]
      refine Or.inr (Or.inr ⟨source.content, ?_, ?_⟩)
      · rw [decide_eq_false (not_not.mpr rfl)]
        rfl
      · unfold Fits
        rw [if_pos hmandatory]
  rw [if_neg hmandatory]
  rcases truncateContent_eq dump source (s.sourceLimit source) with
    ⟨herror, hlong⟩ | ⟨content, hcontent, hresult⟩
  · rw [herror]
    exact Or.inl ⟨rfl, hlong⟩
  rw [hcontent]
  right
  by_cases hnone : content = []
  · exact Or.inl ⟨hmandatory, if_pos hnone⟩
  obtain ⟨hcut, hfits, hlong⟩ := hresult.resolve_left hnone
  have hremaining := hfits.trans (s.sourceLimit_le source)
  refine Or.inr ⟨content, (if_neg hnone).trans ?_, ?_⟩
  · rw [messageEstimate_eq, if_neg hlong]
    exact if_neg (by omega)
  · unfold Fits
    rw [if_neg hmandatory]
    exact ⟨hnone, hcut, hremaining⟩

/-- What packing has added: the entries, and the tokens of the optional ones. -/
structure Packed [ContentHash] (sources : List ContextSource)
    (s t : PackState) (entries : List (ContextSource × Text)) : Prop where
  messages : t.messages = s.messages ++ entries.map fun e => messageOf e.1 e.2
  manifest : t.manifest = s.manifest ++
    (entries.zipIdx s.manifest.length).map fun p => manifestItem dump p.1.1 p.1.2 p.2
  sublist : (entries.map Prod.fst).Sublist sources
  required : (entries.map Prod.fst).filter mandatory = sources.filter mandatory
  verbatim : ∀ e ∈ entries, mandatory e.1 = true → e.2 = e.1.content
  cut : ∀ e ∈ entries, ¬ mandatory e.1 = true → e.2 ≠ [] ∧ Cut e.1.content e.2
  tokens : (entries.map fun e => tokensOf dump e.1 e.2).sum + t.optionalRemaining =
    ((sources.filter mandatory).map fun source => tokensOf dump source source.content).sum +
      s.optionalRemaining

variable {dump} in
/-- An entry before what is packed after it. -/
theorem Packed.cons [ContentHash] {source : ContextSource} {content : Text}
    {rest : List ContextSource} {s t : PackState} {entries : List (ContextSource × Text)}
    (hfits : Fits dump s.optionalRemaining source content)
    (h : Packed dump rest (s.add source content (tokensOf dump source content)
      (decide (content ≠ source.content))) t entries) :
    Packed dump (source :: rest) s t ((source, content) :: entries) where
  messages := by
    rw [h.messages, PackState.add, List.append_assoc]
    rfl
  manifest := by
    have hlength : (s.add source content (tokensOf dump source content)
        (decide (content ≠ source.content))).manifest.length = s.manifest.length + 1 :=
      List.length_append
    rw [h.manifest, hlength, PackState.add, List.append_assoc]
    rfl
  sublist := h.sublist.cons_cons source
  required := by
    have hrest := h.required
    rw [List.map_cons]
    by_cases hmandatory : mandatory source = true
    · rw [List.filter_cons_of_pos hmandatory, List.filter_cons_of_pos hmandatory, hrest]
    · rw [List.filter_cons_of_neg hmandatory, List.filter_cons_of_neg hmandatory, hrest]
  verbatim := by
    refine List.forall_mem_cons.mpr ⟨fun hmandatory => ?_, h.verbatim⟩
    exact (if_pos hmandatory).mp hfits
  cut := by
    refine List.forall_mem_cons.mpr ⟨fun hoptional => ?_, h.cut⟩
    obtain ⟨hnonempty, hcut, -⟩ := (if_neg hoptional).mp hfits
    exact ⟨hnonempty, hcut⟩
  tokens := by
    have htokens := h.tokens
    rw [List.map_cons, List.sum_cons]
    by_cases hmandatory : mandatory source = true
    · have hcontent : content = source.content := (if_pos hmandatory).mp hfits
      have hsame : (s.add source content (tokensOf dump source content)
          (decide (content ≠ source.content))).optionalRemaining = s.optionalRemaining :=
        if_pos hmandatory
      rw [hsame] at htokens
      rw [List.filter_cons_of_pos hmandatory, List.map_cons, List.sum_cons, hcontent]
      dsimp only
      omega
    · obtain ⟨-, -, hle⟩ := (if_neg hmandatory).mp hfits
      have hless : (s.add source content (tokensOf dump source content)
          (decide (content ≠ source.content))).optionalRemaining =
            s.optionalRemaining - tokensOf dump source content := if_neg hmandatory
      rw [hless] at htokens
      rw [List.filter_cons_of_neg hmandatory]
      dsimp only
      omega

private theorem foldlM_pack [ContentHash] (sources : List ContextSource) (s : PackState) :
    (sources.foldlM (PackState.pack dump) s = .error .validation ∧
      ∃ source ∈ sources, TooLong source source.content) ∨
      ∃ t entries, sources.foldlM (PackState.pack dump) s = .ok t ∧
        Packed dump sources s t entries := by
  induction sources generalizing s with
  | nil =>
    refine Or.inr ⟨s, [], rfl, ?_⟩
    exact ⟨(List.append_nil _).symm, (List.append_nil _).symm, List.Sublist.refl _, rfl,
      List.forall_mem_nil _, List.forall_mem_nil _, rfl⟩
  | cons source rest ih =>
    rw [List.foldlM_cons]
    rcases s.pack_cases dump source with ⟨herror, hlong⟩ | ⟨hoptional, hsame⟩ |
      ⟨content, hadd, hfits⟩
    · rw [herror]
      exact Or.inl ⟨rfl, source, List.mem_cons_self, hlong⟩
    · rw [hsame]
      rcases ih s with ⟨herror, later, hlater, hlong⟩ | ⟨t, entries, ht, h⟩
      · exact Or.inl ⟨herror, later, List.mem_cons_of_mem _ hlater, hlong⟩
      · refine Or.inr ⟨t, entries, ht, h.messages, h.manifest, h.sublist.cons _, ?_, h.verbatim,
          h.cut, ?_⟩
        · rw [List.filter_cons_of_neg hoptional]
          exact h.required
        · rw [List.filter_cons_of_neg hoptional]
          exact h.tokens
    · rw [hadd]
      rcases ih (s.add source content (tokensOf dump source content)
          (decide (content ≠ source.content))) with
        ⟨herror, later, hlater, hlong⟩ | ⟨t, entries, ht, h⟩
      · exact Or.inl ⟨herror, later, List.mem_cons_of_mem _ hlater, hlong⟩
      · exact Or.inr ⟨t, (source, content) :: entries, ht, h.cons hfits⟩

/-! ## What comes before packing -/

/-- A source whatever its budget. -/
def ContextSource.unlimited (source : ContextSource) : ContextSource :=
  { source with tokenBudget := none }

/-- Sources that a context has in any case: no memories. -/
def required (source : ContextSource) : Bool :=
  mandatory source && !isLongTermMemoryKind source.kind

private theorem indexed_perm (sources : List ContextSource) : (indexed sources).Perm sources.zipIdx
    :=
  List.perm_insertionSort _ _

private theorem indexed_sorted (sources : List ContextSource) :
    (indexed sources).Pairwise fun a b => sourceOrderKey a ≤ sourceOrderKey b := by
  have : Std.Total fun a b : ContextSource × Nat => sourceOrderKey a ≤ sourceOrderKey b :=
    ⟨fun a b => le_total _ _⟩
  have : IsTrans (ContextSource × Nat) fun a b => sourceOrderKey a ≤ sourceOrderKey b :=
    ⟨fun _ _ _ => le_trans⟩
  exact List.pairwise_insertionSort _ _

private theorem mem_indexed {item : ContextSource × Nat} (h : item ∈ indexed sources) :
    item.1 ∈ sources :=
  List.fst_mem_of_mem_zipIdx ((indexed_perm sources).mem_iff.mp h)

private theorem uniqueFrom_sublist [ContentHash] (seen : List DuplicateKey)
    (sources : List ContextSource) : (uniqueFrom seen sources).Sublist sources := by
  induction sources generalizing seen with
  | nil => exact List.Sublist.refl _
  | cons source rest ih =>
    unfold uniqueFrom
    split
    · exact (ih _).cons_cons source
    · split
      · exact (ih _).cons source
      · exact (ih _).cons_cons source

private theorem filter_uniqueFrom [ContentHash] (seen : List DuplicateKey)
    (sources : List ContextSource) :
    (uniqueFrom seen sources).filter mandatory = sources.filter mandatory := by
  induction sources generalizing seen with
  | nil => rfl
  | cons source rest ih =>
    unfold uniqueFrom
    split
    · rw [List.filter_cons, List.filter_cons, ih]
    · next hoptional =>
      have hno : ¬ mandatory source = true := fun h => hoptional (by rw [h, Bool.true_or])
      rw [List.filter_cons_of_neg hno]
      split
      · exact ih _
      · rw [List.filter_cons_of_neg hno, ih]

private theorem budgetFrom_sublist (shares : MemoryShares) (sources : List ContextSource) :
    ((budgetFrom shares sources).map ContextSource.unlimited).Sublist
      (sources.map ContextSource.unlimited) := by
  induction sources generalizing shares with
  | nil => exact List.Sublist.refl _
  | cons source rest ih =>
    unfold budgetFrom
    split
    · exact (ih _).cons_cons _
    · dsimp only
      split
      · exact (ih _).cons _
      · exact (ih _).cons_cons _

private theorem MemoryShares.get?_eq_none {kind : ContextSourceKind}
    (h : isLongTermMemoryKind kind = false) : shares.get? kind = none := by
  cases kind <;> first | rfl | cases h

private theorem filter_budgetFrom (shares : MemoryShares) (sources : List ContextSource) :
    ((budgetFrom shares sources).map ContextSource.unlimited).filter required =
      (sources.map ContextSource.unlimited).filter required := by
  induction sources generalizing shares with
  | nil => rfl
  | cons source rest ih =>
    rw [List.map_cons, List.filter_cons]
    cases hmemory : isLongTermMemoryKind source.kind with
    | false =>
      rw [budgetFrom, MemoryShares.get?_eq_none hmemory]
      dsimp only
      rw [List.map_cons, List.filter_cons, ih]
    | true =>
      have hno : ∀ budget, required { source with tokenBudget := budget }.unlimited = false :=
        fun budget => by
          change (_ && !isLongTermMemoryKind source.kind) = false
          rw [hmemory, Bool.not_true, Bool.and_false]
      have hsource : required source.unlimited = false := hno none
      rw [hsource, if_neg Bool.false_ne_true]
      unfold budgetFrom
      split
      · rw [List.map_cons, List.filter_cons_of_neg (by rw [hsource]; decide), ih]
      · dsimp only
        split
        · exact ih _
        · rw [List.map_cons, List.filter_cons_of_neg (by rw [hno]; decide), ih]

private theorem indexed_unlimited (sources : List ContextSource) :
    ((indexed sources).map fun item => item.1.unlimited) =
      ((indexed sources).map Prod.fst).map ContextSource.unlimited := by
  rw [List.map_map]
  rfl

private theorem budgeted_sublist [ContentHash] (shares : MemoryShares)
    (sources : List ContextSource) :
    ((budgetFrom shares (orderedUnique sources)).map ContextSource.unlimited).Sublist
      ((indexed sources).map fun item => item.1.unlimited) := by
  rw [indexed_unlimited]
  exact (budgetFrom_sublist shares _).trans ((uniqueFrom_sublist [] _).map _)

private theorem filter_required (sources : List ContextSource) :
    (sources.map ContextSource.unlimited).filter required =
      ((sources.filter mandatory).filter fun s => !isLongTermMemoryKind s.kind).map
        ContextSource.unlimited := by
  rw [List.filter_filter, List.filter_map]
  exact congrArg _ (List.filter_congr fun s _ => Bool.and_comm _ _)

private theorem filter_budgeted [ContentHash] (shares : MemoryShares) (sources : List ContextSource)
    :
    ((budgetFrom shares (orderedUnique sources)).map ContextSource.unlimited).filter required =
      ((indexed sources).map fun item => item.1.unlimited).filter required := by
  rw [filter_budgetFrom, indexed_unlimited, filter_required, filter_required, orderedUnique,
    filter_uniqueFrom]

/-- The tokens of the mandatory sources of a request. -/
def mandatoryTokens (sources : List ContextSource) : Nat :=
  ((sources.filter mandatory).map fun source => tokensOf dump source source.content).sum

private theorem mandatoryTokens_unlimited (sources : List ContextSource) :
    mandatoryTokens dump (sources.map ContextSource.unlimited) = mandatoryTokens dump sources := by
  unfold mandatoryTokens
  rw [List.filter_map, List.map_map]
  rfl

private theorem mandatoryTokens_le {some all : List ContextSource} (h : some.Sublist all) :
    mandatoryTokens dump some ≤ mandatoryTokens dump all :=
  List.Sublist.sum_le_sum ((h.filter _).map _) fun _ _ => Nat.zero_le _

private theorem mandatoryTokens_budgeted [ContentHash] (shares : MemoryShares)
    (sources : List ContextSource) :
    mandatoryTokens dump (budgetFrom shares (orderedUnique sources)) ≤
      mandatoryTokens dump sources := by
  have hperm : ((indexed sources).map Prod.fst).Perm sources := by
    have h := (indexed_perm sources).map Prod.fst
    rwa [List.zipIdx_map_fst] at h
  have hsame : mandatoryTokens dump ((indexed sources).map Prod.fst) =
      mandatoryTokens dump sources := ((hperm.filter _).map _).sum_nat
  have hmap := indexed_unlimited sources
  have hle := mandatoryTokens_le dump (budgeted_sublist shares sources)
  rwa [hmap, mandatoryTokens_unlimited, mandatoryTokens_unlimited, hsame] at hle

/-! ## Contexts -/

/-- A context as the entries that it holds, from the sources of a request in order. -/
structure PacksAs [ContentHash] (request : ContextRequest)
    (prepared : PreparedContext) (ordered : List (ContextSource × Nat))
    (entries : List (ContextSource × Text)) : Prop where
  permuted : ordered.Perm request.sources.zipIdx
  sorted : ordered.Pairwise fun a b => sourceOrderKey a ≤ sourceOrderKey b
  placed : (entries.map Prod.fst).Sublist (ordered.map fun item => item.1.unlimited)
  complete : (entries.map Prod.fst).filter required =
    (ordered.map fun item => item.1.unlimited).filter required
  verbatim : ∀ e ∈ entries, mandatory e.1 = true → e.2 = e.1.content
  cut : ∀ e ∈ entries, ¬ mandatory e.1 = true → e.2 ≠ [] ∧ Cut e.1.content e.2
  messages : prepared.messages = entries.map fun e => messageOf e.1 e.2
  manifest : prepared.manifest =
    entries.zipIdx.map fun p => manifestItem dump p.1.1 p.1.2 p.2
  estimated : prepared.estimatedInputTokens =
    (prepared.manifest.map fun item => item.estimatedTokens).sum
  within : prepared.estimatedInputTokens + request.reservedInputTokens ≤
    prepared.effectiveInputLimit

variable {dump} in
/-- What is packed from the budgeted sources of a request is a context. -/
theorem Packed.packsAs [ContentHash]
    {limit available : Nat} {t : PackState} {entries : List (ContextSource × Text)}
    (h : Packed dump (budgetFrom shares (orderedUnique request.sources))
      ⟨available, [], []⟩ t entries)
    (hlimit : mandatoryTokens dump (budgetFrom shares (orderedUnique request.sources)) +
      available + request.reservedInputTokens ≤ limit) (recommended : Bool) :
    PacksAs dump request
      ⟨t.messages, t.manifest, estimateMessages dump t.messages, limit, recommended⟩
      (indexed request.sources) (entries.map fun e => (e.1.unlimited, e.2)) := by
  have hmanifest : t.manifest = entries.zipIdx.map fun p =>
      manifestItem dump p.1.1 p.1.2 p.2 := h.manifest
  have hmessages : t.messages = entries.map fun e => messageOf e.1 e.2 := h.messages
  have hestimated : estimateMessages dump t.messages =
      (entries.map fun e => tokensOf dump e.1 e.2).sum := by
    rw [hmessages, estimateMessages, List.map_map]
    rfl
  have hsources : (entries.map fun e => (e.1.unlimited, e.2)).map Prod.fst =
      (entries.map Prod.fst).map ContextSource.unlimited := by
    rw [List.map_map, List.map_map]
    rfl
  constructor
  · exact indexed_perm _
  · exact indexed_sorted _
  · rw [hsources]
    exact (h.sublist.map _).trans (budgeted_sublist shares _)
  · rw [hsources, ← filter_budgeted shares, filter_required, filter_required, h.required]
  · intro e he hmandatory
    obtain ⟨entry, hentry, rfl⟩ := List.mem_map.mp he
    exact h.verbatim entry hentry hmandatory
  · intro e he hoptional
    obtain ⟨entry, hentry, rfl⟩ := List.mem_map.mp he
    exact h.cut entry hentry hoptional
  · rw [hmessages, List.map_map]
    rfl
  · rw [List.zipIdx_map, List.map_map]
    exact hmanifest
  · rw [hestimated, hmanifest, List.map_map]
    have htokens : ((fun item : ContextManifestItem => item.estimatedTokens) ∘
        fun p : (ContextSource × Text) × Nat => manifestItem dump p.1.1 p.1.2 p.2) =
          (fun e : ContextSource × Text => tokensOf dump e.1 e.2) ∘ Prod.fst := rfl
    rw [htokens, ← List.map_map, List.zipIdx_map_fst]
  · have htokens := h.tokens
    change _ = mandatoryTokens dump _ + available at htokens
    rw [hestimated]
    dsimp only
    omega

private theorem mapM_messageEstimate (sources : List ContextSource) :
    ((sources.mapM fun source => messageEstimate dump source source.content) =
        .error .validation ∧ ∃ source ∈ sources, TooLong source source.content) ∨
      (sources.mapM fun source => messageEstimate dump source source.content) =
        .ok (sources.map fun source => tokensOf dump source source.content) := by
  induction sources with
  | nil => exact Or.inr rfl
  | cons source rest ih =>
    rw [List.mapM_cons, messageEstimate_eq]
    by_cases hlong : TooLong source source.content
    · rw [if_pos hlong]
      exact Or.inl ⟨rfl, source, List.mem_cons_self, hlong⟩
    · rw [if_neg hlong]
      rcases ih with ⟨herror, later, hlater, hlong⟩ | hok
      · rw [herror]
        exact Or.inl ⟨rfl, later, List.mem_cons_of_mem _ hlater, hlong⟩
      · rw [hok]
        exact Or.inr rfl

private theorem exists_of_mem_budgeted [ContentHash]
    (h : source ∈ budgetFrom shares (orderedUnique sources)) :
    ∃ original ∈ sources, original.unlimited = source.unlimited := by
  have hmem := (budgeted_sublist shares sources).subset
    (List.mem_map_of_mem (f := ContextSource.unlimited) h)
  obtain ⟨item, hitem, hsame⟩ := List.mem_map.mp hmem
  exact ⟨item.1, mem_indexed hitem, hsame⟩

private theorem tooLong_of_budgeted [ContentHash]
    (h : ∃ source ∈ budgetFrom shares (orderedUnique sources), TooLong source source.content) :
    ∃ source ∈ sources, TooLong source source.content := by
  obtain ⟨source, hsource, hlong⟩ := h
  obtain ⟨original, horiginal, hsame⟩ := exists_of_mem_budgeted hsource
  refine ⟨original, horiginal, ?_⟩
  have hunlimited : TooLong source.unlimited source.unlimited.content := hlong
  rw [← hsame] at hunlimited
  exact hunlimited

/-- How a context is built within a budget. -/
theorem prepare_cases [ContentHash] {budget : ContextBudget}
    (hbudget : calculateContextBudget request.configuredTotalTokens request.modelContextLimit =
      .ok budget) :
    ((∃ text, prepare dump request = .error (.overflow text)) ∧ budget.effectiveInputLimit <
        mandatoryTokens dump request.sources + request.reservedInputTokens) ∨
      (prepare dump request = .error .validation ∧
        ∃ source ∈ request.sources, TooLong source source.content) ∨
      ∃ prepared ordered entries, prepare dump request = .ok prepared ∧
        prepared.effectiveInputLimit = budget.effectiveInputLimit ∧
          PacksAs dump request prepared ordered entries := by
  unfold prepare
  rw [hbudget]
  dsimp only [bind, Except.bind]
  by_cases hreserved : budget.effectiveInputLimit < request.reservedInputTokens
  · rw [if_pos hreserved]
    exact Or.inl ⟨⟨_, rfl⟩, by omega⟩
  rw [if_neg hreserved]
  obtain ⟨tenth, htenth⟩ : ∃ tenth, floorTenth
      (budget.effectiveInputLimit - request.reservedInputTokens) = .ok tenth := by
    have hfits := calculateContextBudget_eq_ok hbudget
    unfold floorTenth
    rw [toDouble_eq_ok (lt_of_le_of_lt (Nat.sub_le _ _) hfits)]
    exact ⟨_, rfl⟩
  unfold applyMemoryBudgets
  rw [htenth]
  dsimp only [bind, Except.bind, pure, Except.pure]
  generalize memoryShares (min maxLongTermMemoryTokens tenth) = shares
  have hless := mandatoryTokens_budgeted dump shares request.sources
  rcases mapM_messageEstimate dump
      ((budgetFrom shares (orderedUnique request.sources)).filter mandatory) with
    ⟨herror, source, hsource, hlong⟩ | hestimates
  · rw [herror]
    have hmem : source ∈ budgetFrom shares (orderedUnique request.sources) :=
      (List.mem_filter.mp hsource).1
    exact Or.inr (Or.inl ⟨rfl, tooLong_of_budgeted ⟨source, hmem, hlong⟩⟩)
  rw [hestimates]
  dsimp only
  have hsum : (((budgetFrom shares (orderedUnique request.sources)).filter mandatory).map
      fun source => tokensOf dump source source.content).sum =
        mandatoryTokens dump (budgetFrom shares (orderedUnique request.sources)) := rfl
  rw [hsum]
  by_cases hoverflow : budget.effectiveInputLimit - request.reservedInputTokens <
      mandatoryTokens dump (budgetFrom shares (orderedUnique request.sources))
  · rw [if_pos hoverflow]
    exact Or.inl ⟨⟨_, rfl⟩, by omega⟩
  rw [if_neg hoverflow]
  right
  rcases foldlM_pack dump (budgetFrom shares (orderedUnique request.sources))
      ⟨budget.effectiveInputLimit - request.reservedInputTokens -
        mandatoryTokens dump (budgetFrom shares (orderedUnique request.sources)), [], []⟩ with
    ⟨herror, hlong⟩ | ⟨t, entries, ht, hpacked⟩
  · rw [herror]
    exact Or.inl ⟨rfl, tooLong_of_budgeted hlong⟩
  rw [ht]
  dsimp only
  have hlimit : mandatoryTokens dump (budgetFrom shares (orderedUnique request.sources)) +
      (budget.effectiveInputLimit - request.reservedInputTokens -
        mandatoryTokens dump (budgetFrom shares (orderedUnique request.sources))) +
      request.reservedInputTokens ≤ budget.effectiveInputLimit := by omega
  have hpacks := hpacked.packsAs hlimit (decide (budget.compressionThreshold ≤
    estimateMessages dump t.messages + request.reservedInputTokens))
  have hwithin : estimateMessages dump t.messages + request.reservedInputTokens ≤
      budget.effectiveInputLimit := hpacks.within
  rw [if_neg (by omega)]
  exact Or.inr ⟨_, _, _, rfl, rfl, hpacks⟩

/-- The builder rejects limits without room for input and sources that are too long, overflows
only if the mandatory sources do not fit, and packs the others in their order otherwise. -/
theorem context_packing [ContentHash] (request : ContextRequest) :
    match calculateContextBudget request.configuredTotalTokens request.modelContextLimit with
    | .error e => prepare dump request = .error e
    | .ok budget =>
        match prepare dump request with
        | .ok prepared => prepared.effectiveInputLimit = budget.effectiveInputLimit ∧
            ∃ ordered entries, PacksAs dump request prepared ordered entries
        | .error (.overflow _) => budget.effectiveInputLimit <
            mandatoryTokens dump request.sources + request.reservedInputTokens
        | .error e => e = .validation ∧
            ∃ source ∈ request.sources, TooLong source source.content := by
  cases hbudget : calculateContextBudget request.configuredTotalTokens
      request.modelContextLimit with
  | error e =>
    dsimp only
    rw [prepare, hbudget]
    rfl
  | ok budget =>
    dsimp only
    rcases prepare_cases dump hbudget with
      ⟨⟨text, herror⟩, hoverflow⟩ | ⟨herror, hlong⟩ | ⟨prepared, ordered, entries, hok, hpacks⟩
    · rw [herror]
      exact hoverflow
    · rw [herror]
      exact ⟨rfl, hlong⟩
    · rw [hok]
      exact ⟨hpacks.1, ordered, entries, hpacks.2⟩

/-- JSON text of messages without calls whose text needs no escapes but for newlines. -/
def plainDump : ModelMessage → Text
  | .system content => object "system" content
  | .user content => object "user" content
  | .assistant content _ => object "assistant" content
  | .toolResult _ content _ _ => object "tool" content
where
  object (role : String) (content : Text) : Text :=
    "\x7b\"role\":\"".toList ++ role.toList ++ "\",\"content\":\"".toList ++
      content.flatMap (fun c => if c = '\n' then ['\\', 'n'] else [c]) ++ "\"\x7d".toList

/-- A source without a budget and coverage. -/
def plainSource (kind : ContextSourceKind) (sourceId content : String) (role : ContextRole) :
    ContextSource :=
  ⟨kind, sourceId.toList, content.toList, role, true, none, none, none, []⟩

/-- A request that has the input of the user before the instructions. -/
def inputFirst : ContextRequest where
  sources := [plainSource .currentInput "entry_1" "Hello" .user,
    plainSource .productInstructions "product" "Be brief." .system]
  configuredTotalTokens := 40000
  modelContextLimit := 40000
  reservedInputTokens := 0
  positive := by decide

/-- Mandatory sources do not keep the order of the request. -/
theorem context_packing_reorders : ¬ ∀ prepared,
    @prepare plainDump spelledHash inputFirst = .ok prepared →
      ((inputFirst.sources.filter mandatory).map fun source =>
        messageOf source source.content).Sublist prepared.messages := by
  intro h
  have hprepared : (@prepare plainDump spelledHash inputFirst).toOption.map
      (fun prepared => prepared.messages) =
        some ((inputFirst.sources.filter mandatory).map fun source =>
          messageOf source source.content).reverse := by decide
  cases hresult : @prepare plainDump spelledHash inputFirst with
  | error e =>
    rw [hresult] at hprepared
    cases hprepared
  | ok prepared =>
    rw [hresult] at hprepared
    have hmessages : prepared.messages = _ := Option.some.inj hprepared
    have hsublist := h prepared hresult
    rw [hmessages] at hsublist
    revert hsublist
    decide

end AwesomeAgent.Context
