import AwesomeAgent.Agent.Citations
import AwesomeAgent.Library.FaultySteps
import AwesomeAgent.Library.Runs

/-!
# Citation collection never fails

The citations that a result reports are old ones and new ones, and the new ones come in the
order of their allocation. So collecting them repeats the steps of the allocator, which starts
from what the results before have collected.
-/

namespace AwesomeAgent.Agent

private theorem sourceId_injective {m n : Nat} (h : sourceId m = sourceId n) : m = n := by
  have hdigits : Nat.toDigits 10 m = Nat.toDigits 10 n := (List.cons.inj h).2
  rw [← Nat.ofDigitChars_toDigits (b := 10) (n := m) (by decide) (by decide), hdigits,
    Nat.ofDigitChars_toDigits (by decide) (by decide)]

section Collection

variable [UrlGrammar]

/-- Citations with one number each, from one on, and one for each URL. -/
structure Sources (citations : List Citation) : Prop where
  contiguous : ∀ index citation, citations[index]? = some citation →
    citation.id = sourceId (index + 1)
  distinct : (citations.map (·.url)).Nodup
  bounded : citations.length ≤ maxTurnCitations

/-- A citation that is the next one of these sources. -/
structure Citation.Follows (citation : Citation) (citations : List Citation) : Prop where
  id : citation.id = sourceId (citations.length + 1)
  url : ∀ other ∈ citations, other.url ≠ citation.url
  room : citations.length < maxTurnCitations

private theorem Sources.nil : Sources [] where
  contiguous := fun index _ h => by simp at h
  distinct := List.nodup_nil
  bounded := Nat.zero_le _

private theorem Sources.concat {citations : List Citation} {citation : Citation}
    (h : Sources citations)
    (hnext : citation.Follows citations) : Sources (citations ++ [citation]) where
  contiguous := by
    intro index other hother
    rw [List.getElem?_append] at hother
    split at hother
    · exact h.contiguous index other hother
    · next hindex =>
      obtain ⟨hzero, rfl⟩ : index - citations.length = 0 ∧ citation = other := by
        rw [List.getElem?_singleton] at hother
        split at hother
        · next hzero => exact ⟨hzero, Option.some.inj hother⟩
        · cases hother
      rw [hnext.id]
      congr 1
      omega
  distinct := by
    rw [List.map_append, List.map_singleton, List.nodup_append]
    refine ⟨h.distinct, List.pairwise_singleton _ _, ?_⟩
    intro a ha b hb
    obtain ⟨other, hother, rfl⟩ := List.mem_map.mp ha
    rw [List.mem_singleton.mp hb]
    exact hnext.url other hother
  bounded := by
    rw [List.length_append, List.length_singleton]
    exact hnext.room

variable {citations : List Citation}

private theorem Sources.id_ne {citation : Citation} (h : Sources citations)
    (hnext : citation.Follows citations) : ∀ other ∈ citations, other.id ≠ citation.id := by
  intro other hother hid
  obtain ⟨index, hindex⟩ := List.mem_iff_getElem?.mp hother
  have hlt : index < citations.length := (List.getElem?_eq_some_iff.mp hindex).1
  rw [h.contiguous index other hindex, hnext.id] at hid
  have he := sourceId_injective hid
  omega

/-- A list of citations goes on from the sources before it: each is an old one or the next. -/
inductive GoesOn : List Citation → List Citation → List Citation → Prop
  | done (before : List Citation) : GoesOn before [] before
  | old {before after rest : List Citation} {citation : Citation} : citation ∈ before →
      GoesOn before rest after → GoesOn before (citation :: rest) after
  | next {before after rest : List Citation} {citation : Citation} :
      citation.Follows before → GoesOn (before ++ [citation]) rest after →
      GoesOn before (citation :: rest) after

private theorem Citation.make_ok {id title url : Text} {citation : Citation}
    (h : Citation.make id title url = .ok citation) : citation.id = id ∧ citation.url = url := by
  unfold Citation.make at h
  split at h
  · cases h
    exact ⟨rfl, rfl⟩
  · cases h

/-- An allocator that knows its citations by their URLs. -/
structure CitationAllocator.Lawful (a : CitationAllocator) : Prop where
  sources : Sources a.ordered
  indexed : a.byUrl.Indexes (·.url) a.ordered

namespace CitationAllocator

private theorem Lawful.concat {a : CitationAllocator} (h : a.Lawful) {citation : Citation}
    (hnext : citation.Follows a.ordered) :
    Lawful ⟨a.ordered ++ [citation], a.byUrl.set citation.url citation⟩ :=
  ⟨h.sources.concat hnext, h.indexed.concat hnext.url⟩

private theorem Lawful.empty : Lawful ⟨[], Dict.empty⟩ := ⟨Sources.nil, Dict.Indexes.empty _⟩

private theorem start_eq {citations : List Citation} (h : Sources citations) :
    ∃ a, start citations = .ok a ∧ a.ordered = citations ∧ a.Lawful := by
  have hrest : ∀ (rest : List Citation) (a : CitationAllocator), a.Lawful →
      Sources (a.ordered ++ rest) →
      ∃ b, rest.foldlM adopt a = .ok b ∧ b.ordered = a.ordered ++ rest ∧ b.Lawful := by
    intro rest
    induction rest with
    | nil => exact fun a ha _ => ⟨a, rfl, (List.append_nil _).symm, ha⟩
    | cons citation rest ih =>
      intro a ha hsources
      have hnext : citation.Follows a.ordered := by
        refine ⟨hsources.contiguous _ citation (by simp), ?_, ?_⟩
        · have hdistinct := hsources.distinct
          rw [List.map_append, List.nodup_append] at hdistinct
          intro other hother
          exact hdistinct.2.2 _ (List.mem_map_of_mem hother) _ (by simp)
        · have hbounded := hsources.bounded
          rw [List.length_append, List.length_cons] at hbounded
          omega
      have hadopt : a.adopt citation =
          .ok ⟨a.ordered ++ [citation], a.byUrl.set citation.url citation⟩ := by
        rw [adopt, if_neg (not_not_intro hnext.id), ha.indexed.get?_eq_none.mpr hnext.url]
        rfl
      obtain ⟨b, hb, hordered, hlawful⟩ := ih _ (ha.concat hnext) (by simpa using hsources)
      refine ⟨b, ?_, by simpa using hordered, hlawful⟩
      rw [List.foldlM_cons, hadopt]
      exact hb
  obtain ⟨a, hstart, hordered, hlawful⟩ :=
    hrest citations ⟨[], Dict.empty⟩ .empty (by simpa using h)
  exact ⟨a, hstart, hordered, hlawful⟩

private theorem allocate_spec {a b : CitationAllocator} {title url : Text} {citation : Citation}
    (ha : a.Lawful) (h : a.allocate title url = .ok (citation, b)) : b.Lawful ∧
      (citation ∈ a.ordered ∧ b.ordered = a.ordered ∨
        citation.Follows a.ordered ∧ b.ordered = a.ordered ++ [citation]) := by
  unfold allocate at h
  split at h
  · next hold =>
    cases h
    exact ⟨ha, .inl ⟨((ha.indexed _ _).mp hold).1, rfl⟩⟩
  · next hnone =>
    split at h
    · cases h
    · next hroom =>
      obtain ⟨made, hmake, hrest⟩ := except_bind_ok h
      cases hrest
      obtain ⟨hid, rfl⟩ := Citation.make_ok hmake
      have hnext : citation.Follows a.ordered :=
        ⟨hid, ha.indexed.get?_eq_none.mp hnone, Nat.lt_of_not_le hroom⟩
      exact ⟨ha.concat hnext, .inr ⟨hnext, rfl⟩⟩

private theorem allocateAll_spec {sources : List (Text × Text)} : ∀ {a b : CitationAllocator}
    {citations : List Citation}, a.Lawful → a.allocateAll sources = .ok (citations, b) →
      GoesOn a.ordered citations b.ordered := by
  induction sources with
  | nil =>
    intro a b citations _ h
    cases h
    exact .done _
  | cons source rest ih =>
    intro a b citations ha h
    obtain ⟨⟨citation, c⟩, hfirst, h⟩ := except_bind_ok h
    obtain ⟨⟨others, d⟩, hrest, h⟩ := except_bind_ok h
    cases h
    obtain ⟨hc, ⟨hmem, hordered⟩ | ⟨hnext, hordered⟩⟩ := allocate_spec ha hfirst
    · exact .old hmem (hordered ▸ ih hc hrest)
    · exact .next hnext (hordered ▸ ih hc hrest)

end CitationAllocator

namespace GoesOn

variable {before after citations : List Citation}

private theorem filter_ne {citation : Citation} (h : GoesOn before citations after)
    (hold : citation ∈ before) : GoesOn before (citations.filter (· != citation)) after := by
  induction h with
  | done before => exact .done before
  | @old before after rest other hmem _ ih =>
    rw [List.filter_cons]
    split
    · exact .old hmem (ih hold)
    · exact ih hold
  | @next before after rest other hnext _ ih =>
    have hne : (other != citation) = true := by
      rw [bne_iff_ne]
      rintro rfl
      exact hnext.url other hold rfl
    rw [List.filter_cons, if_pos hne]
    exact .next hnext (ih (List.mem_append_left _ hold))

private theorem eraseDups (h : GoesOn before citations after) :
    GoesOn before citations.eraseDups after := by
  induction hn : citations.length using Nat.strong_induction_on generalizing before citations with
  | _ n ih =>
    subst hn
    have hshorter : ∀ (citation : Citation) (rest : List Citation),
        (rest.filter (· != citation)).length < (citation :: rest).length := by
      intro citation rest
      exact Nat.lt_succ_of_le (List.length_filter_le _ _)
    cases h with
    | done => exact .done _
    | old hmem hrest =>
      rw [List.eraseDups_cons]
      exact .old hmem (ih _ (hshorter _ _) (hrest.filter_ne hmem) rfl)
    | next hnext hrest =>
      rw [List.eraseDups_cons]
      refine .next hnext (ih _ (hshorter _ _) (hrest.filter_ne ?_) rfl)
      exact List.mem_append_right _ (List.mem_singleton_self _)

end GoesOn

private theorem ToolOutput.make_ok {content : Text} {metadata : OutputMetadata}
    {output : ToolOutput} (h : ToolOutput.make content metadata citations = .ok output) :
    output.citations = citations := by
  unfold ToolOutput.make at h
  split at h
  · cases h
    rfl
  · cases h

private theorem execute_goesOn {a : CitationAllocator} {callId toolName : Text}
    {execution : ToolExecution}
    {result : ToolResult} (ha : a.Lawful) (h : execute a callId toolName execution = .ok result) :
    ∃ after, GoesOn a.ordered result.citations after := by
  cases execution with
  | search results truncated =>
    obtain ⟨output, houtput, h⟩ := except_bind_ok h
    cases h
    obtain ⟨⟨allocated, b⟩, hallocated, houtput⟩ := except_bind_ok houtput
    change ∃ after, GoesOn a.ordered output.citations after
    rw [ToolOutput.make_ok houtput]
    exact ⟨_, (CitationAllocator.allocateAll_spec ha hallocated).eraseDups⟩
  | fetch url body truncated =>
    obtain ⟨output, houtput, h⟩ := except_bind_ok h
    cases h
    unfold webFetch at houtput
    split at houtput
    · cases houtput
    · obtain ⟨⟨citation, b⟩, hallocated, houtput⟩ := except_bind_ok houtput
      change ∃ after, GoesOn a.ordered output.citations after
      rw [ToolOutput.make_ok houtput]
      obtain ⟨-, ⟨hmem, -⟩ | ⟨hnext, -⟩⟩ := CitationAllocator.allocate_spec ha hallocated
      · exact ⟨_, .old hmem (.done _)⟩
      · exact ⟨_, .next hnext (.done _)⟩
  | other content =>
    obtain ⟨output, houtput, h⟩ := except_bind_ok h
    cases h
    change ∃ after, GoesOn a.ordered output.citations after
    rw [ToolOutput.make_ok houtput]
    exact ⟨_, .done _⟩
  | failure message short =>
    cases h
    exact ⟨_, .done _⟩

/-- What is collected is known by identifier and by URL. -/
structure Collected.Lawful (c : Collected) : Prop where
  sources : Sources c.ordered
  byId : c.byId.Indexes (·.id) c.ordered
  byUrl : c.byUrl.Indexes (·.url) c.ordered

namespace Collected

private theorem Lawful.empty : Lawful empty
    := ⟨Sources.nil, Dict.Indexes.empty _, Dict.Indexes.empty _⟩

private theorem Lawful.addAll {before citations after : List Citation}
    (h : GoesOn before citations after) :
    ∀ {c : Collected}, c.Lawful → c.ordered = before →
      ∃ d, citations.foldlM add c = .ok d ∧ d.ordered = after ∧ d.Lawful := by
  induction h with
  | done before => exact fun {c} hc hordered => ⟨c, rfl, hordered, hc⟩
  | @old before after rest citation hmem _ ih =>
    intro c hc hordered
    obtain ⟨d, hd, hafter⟩ := ih hc hordered
    have hadd : c.add citation = .ok c := by
      have hfound : c.byId.get? citation.id = some citation :=
        (hc.byId _ _).mpr ⟨hordered ▸ hmem, rfl⟩
      simp only [add, hfound, ne_eq, not_true_eq_false, if_false]
    refine ⟨d, ?_, hafter⟩
    rw [List.foldlM_cons, hadd]
    exact hd
  | @next before after rest citation hnext _ ih =>
    rintro c hc rfl
    have hnewId := hc.sources.id_ne hnext
    have hadded : Lawful ⟨c.ordered ++ [citation], c.byId.set citation.id citation,
        c.byUrl.set citation.url citation⟩ :=
      ⟨hc.sources.concat hnext, hc.byId.concat hnewId, hc.byUrl.concat hnext.url⟩
    obtain ⟨d, hd, hafter⟩ := ih hadded rfl
    have hadd : c.add citation = .ok ⟨c.ordered ++ [citation],
        c.byId.set citation.id citation, c.byUrl.set citation.url citation⟩ := by
      simp only [add, hc.byId.get?_eq_none.mpr hnewId, hc.byUrl.get?_eq_none.mpr hnext.url,
        Option.any_none, Bool.false_eq_true, if_false, if_neg (Nat.not_le_of_lt hnext.room)]
    refine ⟨d, ?_, hafter⟩
    rw [List.foldlM_cons, hadd]
    exact hd

private theorem Lawful.addResult {c : Collected} (hc : c.Lawful) {result : ToolResult}
    {after : List Citation} (h : GoesOn c.ordered result.citations after) :
    ∃ d, c.addResult result = .ok d ∧ d.ordered = after ∧ d.Lawful := by
  unfold Collected.addResult
  split
  · exact hc.addAll h rfl
  · next hstatus =>
    have herror : result.status = .error := by
      cases hs : result.status with
      | success => exact absurd hs hstatus
      | error => rfl
    rw [result.uncited herror] at h
    cases h
    exact ⟨c, rfl, rfl, hc⟩

end Collected

private theorem isContiguous_iff : isContiguous citations = true ↔
    ∀ index citation, citations[index]? = some citation → citation.id = sourceId (index + 1) := by
  simp only [isContiguous, List.all_eq_true, decide_eq_true_eq, Prod.forall,
    List.mk_mem_zipIdx_iff_getElem?]
  exact forall_comm

namespace AgentState

/-- The state has the citations of its results. -/
def Lawful (s : AgentState) : Prop :=
  ∃ c, s.toolResults.foldlM Collected.addResult .empty = .ok c ∧ c.ordered = s.citations ∧
    c.Lawful

private theorem lawful_initial : initial.Lawful := ⟨_, rfl, rfl, Collected.Lawful.empty⟩

private theorem Lawful.collects {s : AgentState} (h : s.Lawful) :
    collectToolCitations s.toolResults = .ok s.citations := by
  obtain ⟨c, hc, hordered, hlawful⟩ := h
  rw [collectToolCitations, hc, ← hordered]
  exact if_pos (isContiguous_iff.2 hlawful.sources.contiguous)

private theorem Lawful.executeOneTool {s : AgentState} (h : s.Lawful) (callId toolName : Text)
    (execution : ToolExecution) : (∃ message,
      executeOneTool s callId toolName execution = .error (.toolInvariant message)) ∨
    ∃ t, executeOneTool s callId toolName execution = .ok t ∧ t.Lawful := by
  obtain ⟨c, hc, hordered, hlawful⟩ := h
  obtain ⟨a, ha, hsame, hallocator⟩ := CitationAllocator.start_eq (hordered ▸ hlawful.sources)
  unfold Agent.executeOneTool
  rw [ha]
  dsimp only
  cases hexecute : execute a callId toolName execution with
  | error message => exact .inl ⟨message, rfl⟩
  | ok result =>
    obtain ⟨after, hafter⟩ := execute_goesOn hallocator hexecute
    rw [hsame, ← hordered] at hafter
    obtain ⟨d, hd, hdone, hlawful'⟩ := hlawful.addResult hafter
    have hstate : Lawful ⟨s.toolResults ++ [result], after⟩ := by
      refine ⟨d, ?_, hdone, hlawful'⟩
      rw [List.foldlM_append, hc]
      change [result].foldlM Collected.addResult c = .ok d
      rw [List.foldlM_cons, hd]
      rfl
    dsimp only
    rw [hstate.collects]
    exact .inr ⟨_, rfl, hstate⟩

/-- A tool call that does not end the Turn. -/
def step (s : AgentState) (call : Text × Text × ToolExecution) : Option AgentState :=
  (Agent.executeOneTool s call.1 call.2.1 call.2.2).toOption

/-- The states of a Turn, after any tool calls. -/
def Reached (s : AgentState) : Prop := Run step (fun _ _ => True) initial s

private theorem Reached.lawful {s : AgentState} (h : Reached s) : s.Lawful := by
  refine h.invariant lawful_initial fun t call u ht _ hstep => ?_
  rcases ht.executeOneTool call.1 call.2.1 call.2.2 with ⟨message, hm⟩ | ⟨v, hv, hlawful⟩
  · rw [step, hm] at hstep
    cases hstep
  · rw [step, hv] at hstep
    cases hstep
    exact hlawful

/-- Whatever the tool calls of a Turn were, collecting their citations succeeds, with one source
for each URL, contiguous identifiers and no more than the maximum; no further call fails at it. -/
theorem citation_collection_never_fails {s : AgentState} (h : Reached s) :
    collectToolCitations s.toolResults = .ok s.citations ∧ Sources s.citations ∧
      ∀ callId toolName execution message,
        executeOneTool s callId toolName execution ≠ .error (.citationAggregation message) := by
  have hlawful := h.lawful
  refine ⟨hlawful.collects, ?_, ?_⟩
  · obtain ⟨c, -, hordered, hc⟩ := hlawful
    exact hordered ▸ hc.sources
  · intro callId toolName execution message
    rcases hlawful.executeOneTool callId toolName execution with ⟨other, ho⟩ | ⟨t, ht, -⟩
    · rw [ho]
      exact fun he => by cases he
    · rw [ht]
      exact fun he => by cases he

end AgentState

end Collection

section Sample

/-- URLs of one host. -/
@[reducible] def sampleGrammar : UrlGrammar where
  splits := fun url => "https://example.com/".toList.isPrefixOf url
  anyUrl := fun url => "https://example.com/".toList.isPrefixOf url
  canonicalHostname := fun _ => some "example.com".toList

attribute [local instance] sampleGrammar

/-- A source of the host. -/
def sampleResult (page : Char) (h : isSourceUrl ("https://example.com/".toList ++ [page]) = true)
    (hs : UrlGrammar.splits ("https://example.com/".toList ++ [page]) = true) :
    WebSearchResult where
  title := "A page".toList
  url := "https://example.com/".toList ++ [page]
  snippet := "Text".toList
  titled := by decide
  located := h
  split := hs
  short := by decide

/-- A search with a repeated source, a failed call and a fetch of a source of the search. -/
def sampleCalls : List (Text × Text × ToolExecution) :=
  [("1".toList, "web_search".toList, .search [sampleResult 'a' (by decide) (by decide),
      sampleResult 'a' (by decide) (by decide), sampleResult 'b' (by decide) (by decide)] false),
    ("2".toList, "web_fetch".toList, .failure "timed out".toList (by decide)),
    ("3".toList, "web_fetch".toList,
      .fetch ("https://example.com/".toList ++ ['b']) "Text".toList false)]

/-- Two pages are cited and collected. -/
theorem citation_collection_never_fails_sample : ∃ s : AgentState,
    s.citations.map (·.id) = ["S1".toList, "S2".toList] ∧
      collectToolCitations s.toolResults = .ok s.citations := by
  have hrun : (sampleCalls.foldlM AgentState.step .initial).map
      (fun s => s.citations.map (·.id)) = some ["S1".toList, "S2".toList] := by
    decide +kernel
  obtain ⟨s, hs, hids⟩ := Option.map_eq_some_iff.mp hrun
  have hreached : s.Reached := Run.of_actions hs fun _ _ _ => trivial
  exact ⟨s, hids, (AgentState.citation_collection_never_fails hreached).1⟩

end Sample

end AwesomeAgent.Agent
