import AwesomeAgent.Conversations.Invariants
import AwesomeAgent.Conversations.Titles

/-!
# Derived titles can be stored

A derived title is never empty, but it is cut by graphemes and stored by code points. The store
accepts one exactly if the graphemes of the cut are short enough.
-/

namespace AwesomeAgent

variable {Json : Type}

private theorem normalizeTitle_ne_nil {value : Text} (h : value.all isSpace = false) :
    normalizeTitle value ≠ [] := by
  have hword : ∃ word ∈ value.splitOnP isSpace, word ≠ [] := by
    induction value with
    | nil => cases h
    | cons c rest ih =>
      rw [List.splitOnP_cons_eq_if_modifyHead]
      cases hc : isSpace c with
      | true =>
        rw [List.all_cons, hc, Bool.true_and] at h
        obtain ⟨word, hmem, hne⟩ := ih h
        exact ⟨word, List.mem_cons_of_mem _ hmem, hne⟩
      | false =>
        cases hsplit : rest.splitOnP isSpace with
        | nil => exact absurd hsplit (List.splitOnP_ne_nil _ _)
        | cons word words => exact ⟨c :: word, List.mem_cons_self, List.cons_ne_nil _ _⟩
  obtain ⟨word, hmem, hne⟩ := hword
  rw [normalizeTitle]
  have hin : word ∈ (value.splitOnP isSpace).filter fun word => decide (word ≠ []) :=
    List.mem_filter.mpr ⟨hmem, decide_eq_true hne⟩
  cases hwords : (value.splitOnP isSpace).filter fun word => decide (word ≠ []) with
  | nil =>
    rw [hwords] at hin
    exact absurd hin List.not_mem_nil
  | cons first others =>
    have hfirst : first ≠ [] := by
      have hmemFirst : first ∈ (value.splitOnP isSpace).filter fun word => decide (word ≠ []) := by
        rw [hwords]
        exact List.mem_cons_self
      exact of_decide_eq_true (List.mem_filter.mp hmemFirst).2
    cases others with
    | nil =>
      rw [List.intercalate_singleton]
      exact hfirst
    | cons second others =>
      rw [List.intercalate_cons_cons]
      intro he
      exact hfirst (List.append_eq_nil_iff.mp (List.append_eq_nil_iff.mp he).1).1

private theorem materializedTitle_ne_nil (kind : LineageKind) (title : Text) :
    normalizeTitle (titlePrefix kind ++ title) ≠ [] := by
  apply normalizeTitle_ne_nil
  cases kind <;> rfl

private theorem bounded_ofList_iff (title : Text) : Bounded (String.ofList title) 1 500 ↔
    Storable title := by
  rw [Bounded, Storable, String.length_ofList]

variable {title : String} {current thread : Thread} {update : ThreadUpdate}
  {s : ConversationDatabase Json}

private theorem ThreadFields.Valid.titled {t : ThreadFields} (h : t.Valid)
    (htitle : Bounded title 1 500) (source : ThreadTitleSource) (updatedAt : Int) :
    ({ t with
      title := title, titleSource := source, updatedAt := updatedAt } : ThreadFields).Valid :=
  ⟨h.1, h.2.1, htitle, h.2.2.2⟩

private theorem monotonicThreadUpdate_of_valid (h : (current.toThreadFields.copyWith
      { update with updatedAt := max current.updatedAt update.updatedAt }).Valid) :
    monotonicThreadUpdate current update = .ok ⟨_, h⟩ :=
  dif_pos h

private theorem monotonicThreadUpdate_of_title (h : ¬ Bounded title 1 500) (updatedAt : Int) :
    monotonicThreadUpdate current { title := some title, updatedAt := updatedAt } =
      .error .validationError :=
  dif_neg fun hvalid => h hvalid.2.2.1

private theorem monotonicThreadUpdate_titled (thread : Thread) {title : Option String}
    (htitle : ∀ t ∈ title, Bounded t 1 500) (source : Option ThreadTitleSource)
    (updatedAt : Int) : ∃ updated, monotonicThreadUpdate thread
        { title := title, titleSource := source, updatedAt := updatedAt } = .ok updated ∧
      updated.id = thread.id := by
  have hbounded : Bounded (title.getD thread.title) 1 500 := by
    cases title with
    | none => exact thread.valid.2.2.1
    | some title => exact htitle title rfl
  refine ⟨⟨_, thread.valid.titled hbounded (source.getD thread.titleSource)
    (max thread.updatedAt updatedAt)⟩, ?_, rfl⟩
  apply monotonicThreadUpdate_of_valid

private theorem monotonicThreadUpdate_id {updated : Thread}
    (h : monotonicThreadUpdate current update = .ok updated) : updated.id = current.id := by
  unfold monotonicThreadUpdate at h
  dsimp only at h
  split at h
  · cases h
    rfl
  · cases h

private theorem ConversationRows.Constraints.putThread {r : ConversationRows Json}
    (h : r.Constraints) :
    ({ r with threads := r.threads.put thread } : ConversationRows Json).Constraints where
  entryThread := by
    intro e he
    dsimp only
    rw [Table.get?_put]
    split
    · rfl
    · exact h.entryThread e he
  clientMessages := h.clientMessages
  entrySequence := h.entrySequence
  turnThread := by
    intro t ht
    dsimp only
    rw [Table.get?_put]
    split
    · rfl
    · exact h.turnThread t ht
  userEntry := h.userEntry
  assistantEntry := h.assistantEntry
  oneInProgress := h.oneInProgress
  summaryThread := by
    intro s hs
    dsimp only
    rw [Table.get?_put]
    split
    · rfl
    · exact h.summaryThread s hs

private theorem updateThread_succeeds_iff :
    (SQLiteThreadRepository.update thread).Succeeds s ↔ (s.threads.get? thread.id).isSome := by
  constructor
  · rintro ⟨a, t, hrun⟩
    obtain ⟨row, hrow, -⟩ := SQLiteThreadRepository.update_spec thread s a t rfl hrun
    rw [hrow]
    rfl
  · intro h
    obtain ⟨row, hrow⟩ := Option.isSome_iff_exists.mp h
    unfold SQLiteThreadRepository.update
    apply Transaction.Succeeds.get
    rw [hrow]
    have hrows : ({ s.toConversationRows with
        threads := s.threads.put (row.stored thread) } : ConversationRows Json).Constraints :=
      s.constraints.putThread
    refine ⟨(), ⟨_, hrows⟩, ?_⟩
    dsimp only
    rw [writeRows, dif_pos hrows]
    rfl

private theorem titledUpdate_succeeds {other : ThreadUpdate} {title : Option String}
    (htitle : ∀ t ∈ title, Bounded t 1 500) (source : Option ThreadTitleSource) (updatedAt : Int)
    (h : (do
      let updated ← monotonicThreadUpdate thread other
      SQLiteThreadRepository.update updated : ConversationTransaction Json Unit).Succeeds s) :
    (do
      let updated ← monotonicThreadUpdate thread
        { title := title, titleSource := source, updatedAt := updatedAt }
      SQLiteThreadRepository.update updated : ConversationTransaction Json Unit).Succeeds s := by
  obtain ⟨titled, htitled, hid⟩ := monotonicThreadUpdate_titled thread htitle source updatedAt
  apply Transaction.Succeeds.lift htitled
  rw [updateThread_succeeds_iff, hid]
  cases hother : monotonicThreadUpdate thread other with
  | error e =>
    rw [hother] at h
    obtain ⟨a, t, hrun⟩ := h
    cases hrun
  | ok updated =>
    rw [hother] at h
    rw [← monotonicThreadUpdate_id hother]
    exact updateThread_succeeds_iff.1 h

private theorem beginTurn_titled {entry : ThreadEntry Json} {turn : Turn Json}
    {other title : Option String} {now : Int} (htitle : ∀ t ∈ title, Bounded t 1 500)
    (h : (beginTurn entry turn other now).Succeeds s) :
    (beginTurn entry turn title now).Succeeds s := by
  unfold beginTurn at h ⊢
  refine Transaction.Succeeds.bind_mono ?_ h
  intro thread t _
  refine Transaction.Succeeds.bind_mono ?_
  intro u v _
  refine Transaction.Succeeds.bind_mono ?_
  intro _ w _
  refine Transaction.Succeeds.bind_mono ?_
  intro nextSequence x _
  refine Transaction.Succeeds.bind_mono ?_
  intro _ y _
  refine Transaction.Succeeds.bind_mono ?_
  intro _ z _
  apply titledUpdate_succeeds
  intro t ht
  split at ht
  · exact htitle t ht
  · cases ht

private theorem renameThread_titled {threadId other : String} {now : Int}
    (htitle : Bounded title 1 500) [BEq Json]
    (h : ((StoreOperation.renameThread threadId other now).transaction :
      ConversationTransaction Json Unit).Succeeds s) :
    ((StoreOperation.renameThread threadId title now).transaction :
      ConversationTransaction Json Unit).Succeeds s := by
  refine Transaction.Succeeds.bind_mono ?_ h
  intro thread t _
  apply titledUpdate_succeeds
  rintro t ⟨⟩
  exact htitle

section Titles

variable [UnicodeData]

/-- Derived titles can be stored, so no request fails that would succeed with another title. -/
structure TitlesStorable (Json : Type) [BEq Json] (content title : String) (source : Thread) :
    Prop where
  automatic : content.toList.all isSpace = false → Bounded (automaticTitle content) 1 500
  renamed : ∀ renamed, renamedTitle title = .ok renamed → Bounded renamed 1 500
  materialized : ∀ kind, Bounded (materializedTitle kind source.title) 1 500
  beginTurn : ∀ (s : ConversationDatabase Json) (view : ThreadView Json) (entryId turnId : String)
    (config : TurnConfig Json) (noMetadata : Json) (clientMessageId other : String) (now : Int),
    ((ConversationAction.service (.beginTurn entryId turnId content config noMetadata
      clientMessageId other now) view).perform s).1 = .ok () →
    ((ConversationAction.service (.beginTurn entryId turnId content config noMetadata
      clientMessageId (automaticTitle content) now) view).perform s).1 = .ok ()
  renameThread : ∀ (s : ConversationDatabase Json) (threadId other renamed : String) (now : Int),
    renamedTitle title = .ok renamed →
    ((ConversationAction.store (.renameThread threadId other now)).perform s).1 = .ok () →
    ((ConversationAction.store (.renameThread threadId renamed now)).perform s).1 = .ok ()
  materialize : ∀ (kind : LineageKind) (newThreadId targetTurnId other : String)
    (now latest : Int),
    ({ materializedThread kind source newThreadId targetTurnId now latest with
      title := other } : ThreadFields).Valid →
    (materializedThread kind source newThreadId targetTurnId now latest).Valid

/-- The texts are short enough, or have enough graphemes for the cut among their first code
points. -/
structure TitlesCuttable (content title : String) (source : Thread) : Prop where
  message : content.toList.all isSpace = true ∨ Cuttable 48 (normalizeTitle content.toList)
  title : normalizeTitle title.toList = [] ∨
    100 < (visibleGraphemes (normalizeTitle title.toList)).length ∨
    (normalizeTitle title.toList).length ≤ 500
  copied : ∀ kind, Cuttable 100 (normalizeTitle (titlePrefix kind ++ source.title.toList))

private theorem automaticTitle_bounded_iff {content : String}
    (h : content.toList.all isSpace = false) : Bounded (automaticTitle content) 1 500 ↔
      Cuttable 48 (normalizeTitle content.toList) := by
  rw [automaticTitle, bounded_ofList_iff]
  exact boundedTitle_storable_iff (by decide) (normalizeTitle_ne_nil h)

private theorem materializedTitle_bounded_iff (kind : LineageKind) (title : String) :
    Bounded (materializedTitle kind title) 1 500 ↔
      Cuttable 100 (normalizeTitle (titlePrefix kind ++ title.toList)) := by
  rw [materializedTitle, bounded_ofList_iff]
  exact boundedTitle_storable_iff (by decide) (materializedTitle_ne_nil kind title.toList)

private theorem renamedTitle_eq_ok_iff {title renamed : String} : renamedTitle title = .ok renamed ↔
    normalizeTitle title.toList ≠ [] ∧
      (visibleGraphemes (normalizeTitle title.toList)).length ≤ 100 ∧
      renamed = String.ofList (normalizeTitle title.toList) := by
  unfold renamedTitle
  dsimp only
  split
  · next hnil =>
    refine iff_of_false (fun h => by cases h) ?_
    rintro ⟨hne, -⟩
    exact hne hnil
  split
  · next hlong =>
    refine iff_of_false (fun h => by cases h) ?_
    rintro ⟨-, hshort, -⟩
    omega
  · next hne hshort =>
    constructor
    · intro h
      cases h
      exact ⟨hne, by omega, rfl⟩
    · rintro ⟨-, -, rfl⟩
      rfl

private theorem renamedTitle_bounded_iff (title : String) :
    (∀ renamed, renamedTitle title = .ok renamed → Bounded renamed 1 500) ↔
      normalizeTitle title.toList = [] ∨
        100 < (visibleGraphemes (normalizeTitle title.toList)).length ∨
        (normalizeTitle title.toList).length ≤ 500 := by
  by_cases hne : normalizeTitle title.toList = []
  · refine iff_of_true ?_ (Or.inl hne)
    intro renamed h
    exact absurd hne (renamedTitle_eq_ok_iff.1 h).1
  by_cases hlong : 100 < (visibleGraphemes (normalizeTitle title.toList)).length
  · refine iff_of_true ?_ (Or.inr (Or.inl hlong))
    intro renamed h
    have hshort := (renamedTitle_eq_ok_iff.1 h).2.1
    omega
  rw [or_iff_right hne, or_iff_right hlong]
  have hpositive := List.length_pos_of_ne_nil hne
  constructor
  · intro h
    have hbounded := h _ (renamedTitle_eq_ok_iff.2 ⟨hne, by omega, rfl⟩)
    exact ((bounded_ofList_iff _).mp hbounded).2
  · intro h renamed hrenamed
    rw [(renamedTitle_eq_ok_iff.1 hrenamed).2.2, bounded_ofList_iff]
    exact ⟨hpositive, h⟩

omit [UnicodeData] in
private theorem beginTurn_requested [BEq Json] (view : ThreadView Json)
    (entryId turnId content clientMessageId : String) (config : TurnConfig Json)
    (noMetadata : Json) (now : Int) :
    (∃ e, ∀ title, (ServiceCall.beginTurn entryId turnId content config noMetadata
      clientMessageId title now).decide view = .error e) ∨
    content.toList.all isSpace = false ∧ ∃ entry turn, ∀ title,
      (ServiceCall.beginTurn entryId turnId content config noMetadata
        clientMessageId title now).decide view = .ok (some (.beginTurn entry turn
          (if view.thread.titleSource = .automatic ∧ view.entries.isEmpty then some title
            else none) now)) := by
  simp only [ServiceCall.decide, ConversationService.beginTurn]
  by_cases hblank : content.toList.all isSpace = true
  · left
    simp only [if_pos hblank]
    exact ⟨_, fun _ => rfl⟩
  simp only [if_neg hblank]
  generalize ThreadEntryFields.validate _ = entry
  generalize TurnFields.validate _ = turn
  cases entry with
  | error e => exact Or.inl ⟨e, fun _ => rfl⟩
  | ok entry =>
    cases turn with
    | error e => exact Or.inl ⟨e, fun _ => rfl⟩
    | ok turn => exact Or.inr ⟨Bool.eq_false_iff.mpr hblank, entry, turn, fun _ => rfl⟩

omit [UnicodeData] in
private theorem performBeginTurn_titled [BEq Json] {s : ConversationDatabase Json}
    {view : ThreadView Json} {entryId turnId content clientMessageId other title : String}
    {config : TurnConfig Json} {noMetadata : Json} {now : Int}
    (htitle : content.toList.all isSpace = false → Bounded title 1 500)
    (h : ((ConversationAction.service (.beginTurn entryId turnId content config noMetadata
      clientMessageId other now) view).perform s).1 = .ok ()) :
    ((ConversationAction.service (.beginTurn entryId turnId content config noMetadata
      clientMessageId title now) view).perform s).1 = .ok () := by
  rcases beginTurn_requested view entryId turnId content clientMessageId config noMetadata now with
    ⟨e, he⟩ | ⟨hblank, entry, turn, hok⟩
  · simp only [ConversationAction.perform, he] at h
    cases h
  · simp only [ConversationAction.perform, hok, StoreOperation.transaction,
      Transaction.execute_ok_iff] at h ⊢
    apply beginTurn_titled _ h
    intro t ht
    split at ht
    · cases ht
      exact htitle hblank
    · cases ht

/-- No request fails because of a derived title exactly if the texts are short enough or have
enough graphemes for the cut. -/
theorem titles_storable_iff [BEq Json] (content title : String) (source : Thread) :
    TitlesStorable Json content title source ↔ TitlesCuttable content title source := by
  constructor
  · intro h
    refine ⟨?_, (renamedTitle_bounded_iff title).mp h.renamed, fun kind =>
      (materializedTitle_bounded_iff kind source.title).mp (h.materialized kind)⟩
    cases hblank : content.toList.all isSpace with
    | true => exact Or.inl rfl
    | false => exact Or.inr ((automaticTitle_bounded_iff hblank).mp (h.automatic hblank))
  · intro h
    have hautomatic : content.toList.all isSpace = false →
        Bounded (automaticTitle content) 1 500 := by
      intro hblank
      have hcuttable := h.message.resolve_left (by rw [hblank]; exact Bool.false_ne_true)
      exact (automaticTitle_bounded_iff hblank).mpr hcuttable
    have hrenamed := (renamedTitle_bounded_iff title).mpr h.title
    have hmaterialized : ∀ kind, Bounded (materializedTitle kind source.title) 1 500 :=
      fun kind => (materializedTitle_bounded_iff kind source.title).mpr (h.copied kind)
    refine ⟨hautomatic, hrenamed, hmaterialized, ?_, ?_, ?_⟩
    · intro s view entryId turnId config noMetadata clientMessageId other now hok
      exact performBeginTurn_titled hautomatic hok
    · intro s threadId other renamed now htitle hok
      simp only [ConversationAction.perform, Transaction.execute_ok_iff] at hok ⊢
      exact renameThread_titled (hrenamed renamed htitle) hok
    · intro kind newThreadId targetTurnId other now latest hvalid
      exact hvalid.titled (hmaterialized kind) .manual latest

end Titles

section Sample

/-- The combining diacritical marks. -/
@[reducible] def diacriticalMarks : UnicodeData where
  isMark := fun c => decide (0x300 ≤ c.toNat ∧ c.toNat ≤ 0x36F)

attribute [local instance] diacriticalMarks

/-- A letter with many accents. -/
def accented (count : Nat) : Text := 'a' :: List.replicate count '\u0301'

private theorem visibleGraphemes_accented (count : Nat) :
    visibleGraphemes (accented count) = [accented count] := by
  have hmarks : ∀ (count : Nat) {current : Text}, current ≠ [] →
      graphemesFrom current (List.replicate count '\u0301') =
        [current ++ List.replicate count '\u0301'] := by
    intro count
    induction count with
    | zero =>
      intro current hne
      rw [List.replicate_zero, graphemesFrom, if_neg hne, List.append_nil]
    | succ count ih =>
      intro current hne
      have hmark : continuesGrapheme current '\u0301' = true := by
        have hextension : isGraphemeExtension '\u0301' = true := by decide
        rw [continuesGrapheme, hextension, Bool.or_true, Bool.true_or]
      have hlonger : current ++ ['\u0301'] ≠ [] := by simp
      rw [List.replicate_succ, graphemesFrom, if_neg hne, if_pos hmark, ih hlonger,
        List.append_assoc, List.singleton_append]
  exact hmarks count (List.cons_ne_nil 'a' [])

private theorem normalizeTitle_of_no_space {word : Text} (hne : word ≠ [])
    (h : ∀ c ∈ word, isSpace c = false) : normalizeTitle word = word := by
  rw [normalizeTitle, List.splitOnP_eq_singleton h]
  simp [hne]

private theorem normalizeTitle_accented (count : Nat) :
    normalizeTitle (accented count) = accented count := by
  apply normalizeTitle_of_no_space (List.cons_ne_nil _ _)
  intro c hc
  rcases List.mem_cons.mp hc with rfl | hc
  · rfl
  · rw [List.eq_of_mem_replicate hc]
    rfl

private theorem accented_length (count : Nat) : (accented count).length = count + 1 := by
  rw [accented, List.length_cons, List.length_replicate]

/-- A letter with 500 accents. -/
def accentedMessage : String := String.ofList (accented 500)

/-- One accented letter is too long for a title, as a message and as a new title. -/
theorem accented_title_not_storable :
    ¬ Bounded (automaticTitle accentedMessage) 1 500 ∧
      monotonicThreadUpdate sampleThread
        { title := some (automaticTitle accentedMessage), updatedAt := 6 } =
          .error .validationError ∧
      renamedTitle accentedMessage = .ok accentedMessage ∧ ¬ Bounded accentedMessage 1 500 ∧
      ¬ TitlesStorable Unit accentedMessage accentedMessage sampleThread := by
  have hnormalized : normalizeTitle accentedMessage.toList = accented 500 := by
    rw [accentedMessage, String.toList_ofList, normalizeTitle_accented]
  have hone : (visibleGraphemes (accented 500)).length = 1 := by
    rw [visibleGraphemes_accented, List.length_singleton]
  have hlong : ¬ Bounded accentedMessage 1 500 := by
    rw [accentedMessage, bounded_ofList_iff, Storable, accented_length]
    omega
  have hsame : automaticTitle accentedMessage = accentedMessage := by
    rw [automaticTitle, hnormalized, boundedTitle, if_pos (by omega)]
    rfl
  have hfirst : accentedMessage.toList.all isSpace = false := by
    rw [accentedMessage, String.toList_ofList]
    rfl
  refine ⟨?_, ?_, ?_, hlong, ?_⟩
  · rwa [hsame]
  · rw [hsame]
    exact monotonicThreadUpdate_of_title hlong 6
  · apply renamedTitle_eq_ok_iff.2
    rw [hnormalized, hone]
    exact ⟨List.cons_ne_nil _ _, by decide, rfl⟩
  · intro h
    have hbounded := h.automatic hfirst
    rw [hsame] at hbounded
    exact hlong hbounded

end Sample

end AwesomeAgent
