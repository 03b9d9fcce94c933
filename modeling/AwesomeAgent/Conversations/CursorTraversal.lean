import AwesomeAgent.Conversations.CursorCodec
import AwesomeAgent.Library.Keyset
import Mathlib.Data.List.Count
import Mathlib.Data.Prod.Lex
import Mathlib.Order.OrderDual

/-!
# Following cursors

The pages of a list, of a search and of the entries of a Thread are pages by position. Following
their cursors to the last page visits every row that stays exactly once and in order, while
other rows may come, change and go between the pages.
-/

namespace AwesomeAgent.Pagination

open OrderDual

/-! ## Pages by position -/

/-- The place of a Thread in a list. -/
def listKey (r : ThreadRow) : Textᵒᵈ ×ₗ Text := toLex (toDual r.updatedText, r.threadId)

/-- The place of a Thread among the results of a search. -/
def searchKey (r : ThreadRow) : Textᵒᵈ ×ₗ Textᵒᵈ := toLex (toDual r.updatedText, toDual r.threadId)

/-- The place of an entry, read from the last one. -/
def entryKey (e : EntryRow) : ℕᵒᵈ := toDual e.sequence

/-- The Threads of a workspace. -/
def listed (db : Tables) (workspaceKey : Text) : List ThreadRow :=
  db.threads.filter fun r => r.workspaceKey = workspaceKey

/-- The Threads of a workspace that a search finds. -/
def found (db : Tables) (workspaceKey query : Text) : List ThreadRow :=
  db.threads.filter fun r => r.workspaceKey = workspaceKey ∧ matchesSearch db query r = true

/-- The entries of a Thread. -/
def entriesOf (db : Tables) (threadId : Text) : List EntryRow :=
  db.entries.filter fun e => e.threadId = threadId

/-- The place in a list that a cursor tells. -/
def listPlace (cursor : Timestamp × Text) : Textᵒᵈ ×ₗ Text :=
  toLex (toDual (time cursor.1), cursor.2)

/-- The place among the results of a search that a cursor tells. -/
def searchPlace (cursor : Timestamp × Text) : Textᵒᵈ ×ₗ Textᵒᵈ :=
  toLex (toDual (time cursor.1), toDual cursor.2)

private theorem behind_listKey (cursor : Timestamp × Text) (r : ThreadRow) :
    listPlace cursor < listKey r ↔ r.updatedText < time cursor.1 ∨
      r.updatedText = time cursor.1 ∧ cursor.2 < r.threadId := by
  rw [listPlace, listKey, Prod.Lex.toLex_lt_toLex, toDual_lt_toDual, toDual_inj, eq_comm]

private theorem behind_searchKey (cursor : Timestamp × Text) (r : ThreadRow) :
    searchPlace cursor < searchKey r ↔ r.updatedText < time cursor.1 ∨
      r.updatedText = time cursor.1 ∧ r.threadId < cursor.2 := by
  rw [searchPlace, searchKey, Prod.Lex.toLex_lt_toLex, toDual_lt_toDual, toDual_lt_toDual,
    toDual_inj, eq_comm]

private theorem insertionSort_congr {ρ : Type} {r s : ρ → ρ → Prop} [DecidableRel r]
    [DecidableRel s] (h : ∀ a b, r a b ↔ s a b) (rows : List ρ) :
    rows.insertionSort r = rows.insertionSort s := by
  have hmap := List.map_insertionSort r s id rows fun a _ b _ => h a b
  rwa [List.map_id, List.map_id] at hmap

private theorem listOrder_iff (r s : ThreadRow) : listOrder r s ↔ listKey r ≤ listKey s := by
  rw [listKey, listKey, Prod.Lex.toLex_le_toLex, toDual_lt_toDual, toDual_inj]
  rfl

private theorem searchOrder_iff (r s : ThreadRow) : searchOrder r s ↔ searchKey r ≤ searchKey s
    := by
  rw [searchKey, searchKey, Prod.Lex.toLex_le_toLex, toDual_lt_toDual, toDual_inj, toDual_le_toDual]
  rfl

private theorem listPage_eq (db : Tables) (workspaceKey : Text) (cursor : Option (Timestamp × Text))
    (limit : Nat) : listPage db workspaceKey cursor limit =
      keysetPage listKey (listed db workspaceKey) (cursor.map listPlace) limit := by
  unfold listPage keysetPage limited listed
  dsimp only
  rw [insertionSort_congr listOrder_iff, List.filter_filter]
  cases cursor with
  | none => simp only [Option.map_none, Option.all_none, Bool.true_and]
  | some cursor =>
    simp only [Option.map_some, Option.all_some, behind_listKey, Bool.decide_and, Bool.and_comm]

private theorem searchPage_eq (db : Tables) (workspaceKey query : Text)
    (cursor : Option (Timestamp × Text)) (limit : Nat) :
    searchPage db workspaceKey query cursor limit =
      keysetPage searchKey (found db workspaceKey query) (cursor.map searchPlace) limit := by
  unfold searchPage keysetPage limited found
  dsimp only
  rw [insertionSort_congr searchOrder_iff, List.filter_filter]
  cases cursor with
  | none => simp only [Option.map_none, Option.all_none, Bool.true_and]
  | some cursor =>
    simp only [Option.map_some, Option.all_some, behind_searchKey, Bool.decide_and, Bool.and_comm,
      Bool.and_assoc]

private theorem entryPage_eq (db : Tables) (threadId : Text) (before : Option Nat) (limit : Nat) :
    entryPage db threadId before limit =
      ((keysetPage entryKey (entriesOf db threadId) (before.map toDual) limit).1.reverse,
        (keysetPage entryKey (entriesOf db threadId) (before.map toDual) limit).2) := by
  unfold entryPage keysetPage limited entriesOf
  rw [List.filter_filter]
  cases before with
  | none =>
    simp only [Option.map_none, Option.all_none, Bool.true_and]
    rfl
  | some before =>
    simp only [Option.map_some, Option.all_some, entryKey, toDual_lt_toDual, toDual_le_toDual,
      Bool.decide_and, Bool.and_comm]

/-! ## Unique places -/

private theorem unique_listKey (db : Tables) (workspaceKey : Text) :
    (listed db workspaceKey).Pairwise fun r s => listKey r ≠ listKey s :=
  (db.uniqueThreads.filter _).imp fun hne heq => hne (Prod.mk.inj (toLex.injective heq)).2

private theorem unique_searchKey (db : Tables) (workspaceKey query : Text) :
    (found db workspaceKey query).Pairwise fun r s => searchKey r ≠ searchKey s :=
  (db.uniqueThreads.filter _).imp fun hne heq =>
    hne (toDual_inj.mp (Prod.mk.inj (toLex.injective heq)).2)

private theorem unique_entryKey (db : Tables) (threadId : Text) :
    (entriesOf db threadId).Pairwise fun e f => entryKey e ≠ entryKey f := by
  have hthread : ∀ e ∈ entriesOf db threadId, e.threadId = threadId :=
    fun e he => of_decide_eq_true (List.mem_filter.mp he).2
  refine List.Pairwise.imp_of_mem ?_ (db.uniqueEntries.filter _)
  intro e f he hf hne heq
  exact hne ⟨(hthread e he).trans (hthread f hf).symm, toDual_inj.mp heq⟩

/-! ## Threads -/

section Threads

variable [IsoParser]

/-- The Thread of a row, with its last update in UTC. -/
def listedThread (r : ThreadRow) : ListedThread :=
  ⟨r.threadId, r.workspaceKey, r.title, ⟨r.updatedAt, some 0⟩⟩

omit [IsoParser] in
private theorem listedThread_injective : Function.Injective listedThread := by
  intro r s h
  cases r
  cases s
  simp only [listedThread, ListedThread.mk.injEq, Timestamp.mk.injEq] at h
  obtain ⟨rfl, rfl, rfl, rfl, -⟩ := h
  rfl

private theorem mapM_threadFromRow (rows : List ThreadRow) :
    rows.mapM threadFromRow = .ok (rows.map listedThread) := by
  induction rows with
  | nil => rfl
  | cons r rows ih =>
    have hrow : threadFromRow r = .ok (listedThread r) := by
      rw [threadFromRow, ThreadRow.updatedText, IsoParser.fromisoformat_isoformat]
      rfl
    rw [List.mapM_cons, ih, hrow]
    rfl

/-- The position of a row as a cursor tells it. -/
def positionOf (r : ThreadRow) : Timestamp × Text := (⟨r.updatedAt, some 0⟩, r.threadId)

variable {page : List ThreadRow × Bool} {encode : Timestamp × Text → Except String Text}

private theorem threadListResult_ok {result : ThreadListResult}
    (h : threadListResult page encode = .ok result) :
    result.threads = page.1.map listedThread ∧ result.hasMore = page.2 ∧
      (∀ next, result.nextCursor = some next →
        ∃ r, page.1.getLast? = some r ∧ encode (positionOf r) = .ok next) := by
  unfold threadListResult at h
  rw [mapM_threadFromRow] at h
  obtain ⟨threads, hthreads, h⟩ := except_bind_ok h
  cases hthreads
  rw [List.getLast?_map] at h
  cases hlast : page.1.getLast? with
  | none =>
    rw [hlast] at h
    cases h
    exact ⟨rfl, rfl, fun next hnext => by cases hnext⟩
  | some r =>
    rw [hlast, Option.map_some] at h
    dsimp only at h
    split at h
    · obtain ⟨cursor, hcursor, h⟩ := except_bind_ok h
      cases h
      refine ⟨rfl, rfl, fun next hnext => ?_⟩
      cases hnext
      exact ⟨r, rfl, hcursor⟩
    · cases h
      exact ⟨rfl, rfl, fun next hnext => by cases hnext⟩

private theorem threadListResult_some (h : ∀ r ∈ page.1, ∃ value, encode (positionOf r) = .ok value)
    :
    ∃ result, threadListResult page encode = .ok result ∧
      (page.2 = true → page.1 ≠ [] → ∃ next, result.nextCursor = some next) := by
  unfold threadListResult
  rw [mapM_threadFromRow, ok_bind, List.getLast?_map]
  cases hlast : page.1.getLast? with
  | none => exact ⟨_, rfl, fun _ hne => absurd (List.getLast?_eq_none_iff.mp hlast) hne⟩
  | some r =>
    rw [Option.map_some]
    dsimp only
    split
    · obtain ⟨value, hvalue⟩ := h r (List.mem_of_getLast? hlast)
      refine ⟨⟨page.1.map listedThread, page.2, some value⟩, ?_, fun _ _ => ⟨value, rfl⟩⟩
      change (encode (positionOf r) >>= _) = _
      rw [hvalue]
      rfl
    · next hmore => exact ⟨_, rfl, fun h _ => absurd h hmore⟩

/-- Requests, each to a state and for a page of some size, that follow the cursors up to the last
page. -/
inductive Follows {σ : Type} {most : Nat}
    (request : σ → Option Text → PageLimit most → Except String ThreadListResult) :
    Option Text → List (σ × PageLimit most) → List ListedThread → Prop
  | last {cursor : Option Text} {state : σ} {limit : PageLimit most} {result : ThreadListResult} :
      request state cursor limit = .ok result → result.hasMore = false →
      Follows request cursor [(state, limit)] result.threads
  | more {cursor : Option Text} {state : σ} {limit : PageLimit most} {result : ThreadListResult}
      {next : Text} {requests : List (σ × PageLimit most)} {rest : List ListedThread} :
      request state cursor limit = .ok result → result.nextCursor = some next →
      Follows request (some next) requests rest →
      Follows request cursor ((state, limit) :: requests) (result.threads ++ rest)

/-- Requests for pages by position, with a cursor that is read back. -/
structure Paged {σ κ : Type} {most : Nat} [LinearOrder κ] (key : ThreadRow → κ)
    (table : σ → List ThreadRow) (place : Timestamp × Text → κ)
    (decode : Text → Except String (Timestamp × Text))
    (encode : Timestamp × Text → Except String Text)
    (request : σ → Option Text → PageLimit most → Except String ThreadListResult) : Prop where
  unique : ∀ state, (table state).Pairwise fun r s => key r ≠ key s
  pages : ∀ state cursor limit result, request state cursor limit = .ok result →
    ∃ position, cursor.mapM decode = .ok position ∧
      threadListResult (keysetPage key (table state) (position.map place) limit) encode = .ok result
  codec : ∀ position text, encode position = .ok text →
    decode text = .ok (position.1.astimezone, position.2)
  places : ∀ r, place (positionOf r) = key r

section Paging

variable {σ κ : Type} {most : Nat} [LinearOrder κ] {key : ThreadRow → κ}
  {table : σ → List ThreadRow} {place : Timestamp × Text → κ}
  {decode : Text → Except String (Timestamp × Text)}
  {encode : Timestamp × Text → Except String Text}
  {request : σ → Option Text → PageLimit most → Except String ThreadListResult}
  {requests : List (σ × PageLimit most)} {visited : List ListedThread}

private theorem Paged.reads (hpaged : Paged key table place decode encode request) {r : ThreadRow}
    {next : Text} (h : encode (positionOf r) = .ok next) :
    (some next).mapM decode = .ok (some (positionOf r)) := by
  change (decode next >>= fun a => pure (some a)) = _
  rw [hpaged.codec _ _ h]
  rfl

variable {cursor : Option Text} {position : Option (Timestamp × Text)}

private theorem Paged.traversal (hpaged : Paged key table place decode encode request)
    (h : Follows request cursor requests visited)
    (hposition : cursor.mapM decode = .ok position) :
    ∃ rows, Traversal key (position.map place) (requests.map fun r => table r.1) rows ∧
      visited = rows.map listedThread := by
  induction h generalizing position with
  | @last _ state limit _ hrequest hmore =>
    obtain ⟨position', hposition', hresult⟩ := hpaged.pages _ _ _ _ hrequest
    obtain rfl := Except.ok.inj (hposition'.symm.trans hposition)
    obtain ⟨hthreads, hhas, -⟩ := threadListResult_ok hresult
    have hpage := keysetPage_isPage (hpaged.unique state) (position'.map place) limit
    rw [← hhas, hmore] at hpage
    exact ⟨_, .last hpage, hthreads⟩
  | @more _ state limit _ next _ _ hrequest hnext _ ih =>
    obtain ⟨position', hposition', hresult⟩ := hpaged.pages _ _ _ _ hrequest
    obtain rfl := Except.ok.inj (hposition'.symm.trans hposition)
    obtain ⟨hthreads, -, hcursor⟩ := threadListResult_ok hresult
    have hpage := keysetPage_isPage (hpaged.unique state) (position'.map place) limit
    obtain ⟨r, hlast, hencode⟩ := hcursor _ hnext
    obtain ⟨rows, hrows, rfl⟩ := ih (hpaged.reads hencode)
    rw [Option.map_some, hpaged.places] at hrows
    exact ⟨_, .more hpage.weaken hlast hrows, by rw [hthreads, List.map_append]⟩

private theorem Paged.visits (hpaged : Paged key table place decode encode request)
    (h : Follows request none requests visited) :
    (∃ rows : List ThreadRow, visited = rows.map listedThread ∧
      rows.Pairwise fun r s => key r < key s) ∧
    (∀ thread ∈ visited, ∃ request ∈ requests, ∃ r ∈ table request.1, listedThread r = thread) ∧
    ∀ r, (∀ request ∈ requests, r ∈ table request.1) → visited.count (listedThread r) = 1 := by
  obtain ⟨rows, hrows, rfl⟩ := hpaged.traversal h rfl
  refine ⟨⟨rows, rfl, hrows.sorted⟩, List.forall_mem_map.mpr fun r hr => ?_, fun r hr => ?_⟩
  · obtain ⟨t, ht, hmem⟩ := hrows.sound r hr
    obtain ⟨request, hrequest, rfl⟩ := List.mem_map.mp ht
    exact ⟨request, hrequest, r, hmem, rfl⟩
  · rw [List.count_map_of_injective _ _ listedThread_injective]
    exact hrows.count_eq_one (List.forall_mem_map.mpr hr)

private theorem Paged.completes (hpaged : Paged key table place decode encode request) {state : σ}
    {limit : PageLimit most}
    (hencode : ∀ r ∈ table state, ∃ value, encode (positionOf r) = .ok value)
    (hanswer : ∀ cursor position, cursor.mapM decode = .ok position →
      request state cursor limit =
        threadListResult (keysetPage key (table state) (position.map place) limit) encode)
    (hposition : cursor.mapM decode = .ok position) :
    ∃ n visited, Follows request cursor (List.replicate n (state, limit)) visited := by
  suffices hall : ∀ start : Option κ, ∀ cursor position, cursor.mapM decode = .ok position →
      position.map place = start →
      ∃ n visited, Follows request cursor (List.replicate n (state, limit)) visited from
    hall _ cursor position hposition rfl
  refine @keyset_induction _ _ _ key _ (table state)
    fun start ih cursor position hposition hstart => ?_
  have hpage := keysetPage_isPage (hpaged.unique state) (position.map place) limit
  obtain ⟨result, hresult, hnext⟩ := threadListResult_some
    fun r hr => hencode r (hpage.sound r hr).1
  have hrequest := (hanswer cursor position hposition).trans hresult
  obtain ⟨-, hhas, hcursor⟩ := threadListResult_ok hresult
  cases hmore : result.hasMore with
  | false => exact ⟨1, _, .last hrequest hmore⟩
  | true =>
    rw [hmore] at hhas
    obtain ⟨r, hr, hbehind, hlast⟩ := keysetPage_more limit.2.1 hhas.symm
    obtain ⟨next, hnext⟩ := hnext hhas.symm fun hnil => by rw [hnil] at hlast; cases hlast
    obtain ⟨r', hlast', hwritten⟩ := hcursor next hnext
    obtain rfl := Option.some.inj (hlast.symm.trans hlast')
    obtain ⟨n, rest, hrest⟩ := ih r hr (hstart ▸ hbehind) (some next) _ (hpaged.reads hwritten)
      (congrArg some (hpaged.places r))
    exact ⟨n + 1, _, .more hrequest hnext hrest⟩

end Paging

/-- A Thread that was updated later comes first; ties are in the order of the identifiers. -/
def ListedBefore (a b : ListedThread) : Prop :=
  b.updatedAt.utc < a.updatedAt.utc ∨ a.updatedAt.utc = b.updatedAt.utc ∧ a.id < b.id

/-- A Thread that was updated later comes first; ties are against the order of the identifiers. -/
def FoundBefore (a b : ListedThread) : Prop :=
  b.updatedAt.utc < a.updatedAt.utc ∨ a.updatedAt.utc = b.updatedAt.utc ∧ b.id < a.id

omit [IsoParser] in
private theorem listKey_lt_iff (r s : ThreadRow) :
    listKey r < listKey s ↔ ListedBefore (listedThread r) (listedThread s) := by
  rw [listKey, listKey, Prod.Lex.toLex_lt_toLex, toDual_lt_toDual, toDual_inj]
  exact or_congr Datetime.isoformat_lt_iff
    (and_congr_left fun _ => Datetime.isoformat_injective.eq_iff)

omit [IsoParser] in
private theorem searchKey_lt_iff (r s : ThreadRow) :
    searchKey r < searchKey s ↔ FoundBefore (listedThread r) (listedThread s) := by
  rw [searchKey, searchKey, Prod.Lex.toLex_lt_toLex, toDual_lt_toDual, toDual_lt_toDual, toDual_inj]
  exact or_congr Datetime.isoformat_lt_iff
    (and_congr_left fun _ => Datetime.isoformat_injective.eq_iff)

omit [IsoParser] in
private theorem mapError_ok {α : Type} {x : Except String α} {f : String → String} {a : α}
    (h : x.mapError f = .ok a) : x = .ok a := by
  cases x with
  | error message => cases h
  | ok b => exact h

private theorem workspaceThreads_paged (workspaceKey : Text) :
    Paged listKey (fun db => listed db workspaceKey) listPlace decodeThreadCursor
      encodeThreadCursor fun db cursor limit => workspaceThreads db workspaceKey cursor limit where
  unique db := unique_listKey db workspaceKey
  pages db cursor limit result h := by
    obtain ⟨position, hposition, h⟩ := except_bind_ok h
    rw [listPage_eq] at h
    exact ⟨position, mapError_ok hposition, h⟩
  codec _ _ h := decode_encodeThreadCursor h
  places _ := rfl

private theorem workspaceThreads_completes {db : Tables} (workspaceKey : Text)
    {limit : PageLimit 200}
    (h : ∀ row ∈ db.threads, IsIdentifier row.threadId) :
    ∃ n visited, Follows (fun db cursor limit => workspaceThreads db workspaceKey cursor limit)
      none (List.replicate n (db, limit)) visited := by
  refine (workspaceThreads_paged workspaceKey).completes (fun r hr => ?_)
    (fun cursor position hposition => ?_) rfl
  · exact encodeThreadCursor_ok (fun h => by cases h) (h r (List.mem_filter.mp hr).1)
  · rw [workspaceThreads, hposition, ← listPage_eq]
    rfl

variable [HexDigest]

private theorem searchWorkspaceThreads_paged (workspaceKey query : Text) :
    Paged searchKey (fun state : Tables × Bool => found state.1 workspaceKey (strippedQuery query))
      searchPlace (fun value => decodeThreadSearchCursor value workspaceKey query)
      (fun position => encodeThreadSearchCursor position workspaceKey query)
      fun state cursor limit =>
        searchWorkspaceThreads state.1 state.2 workspaceKey query cursor limit where
  unique state := unique_searchKey state.1 workspaceKey _
  pages state cursor limit result h := by
    obtain ⟨position, hposition, h⟩ := except_bind_ok h
    obtain ⟨page, hpage, h⟩ := except_bind_ok h
    unfold searchThreadPage at hpage
    split_ifs at hpage
    cases hpage
    rw [searchPage_eq] at h
    exact ⟨position, mapError_ok hposition, h⟩
  codec _ _ h := decode_encodeThreadSearchCursor h
  places _ := rfl

private theorem searchWorkspaceThreads_completes {db : Tables} {workspaceKey query : Text}
    {limit : PageLimit 50} (hworkspace : workspaceKey ≠ [] ∧ workspaceKey.length ≤ 128)
    (hquery : strippedQuery query ≠ [] ∧ (strippedQuery query).length ≤ 200)
    (h : ∀ row ∈ db.threads, IsIdentifier row.threadId) :
    ∃ n visited, Follows (fun (state : Tables × Bool) cursor limit =>
      searchWorkspaceThreads state.1 state.2 workspaceKey query cursor limit)
      none (List.replicate n ((db, false), limit)) visited := by
  have hnoquery : ¬(strippedQuery query = [] ∨ 200 < (strippedQuery query).length) :=
    not_or.mpr ⟨hquery.1, Nat.not_lt.mpr hquery.2⟩
  have hscope : ∃ scope, threadSearchScope workspaceKey query = .ok scope := by
    rw [threadSearchScope, if_neg (not_or.mpr ⟨hworkspace.1, Nat.not_lt.mpr hworkspace.2⟩),
      if_neg hnoquery]
    exact ⟨_, rfl⟩
  obtain ⟨scope, hscope⟩ := hscope
  have hlimit : ¬(limit.1 < 1 ∨ 50 < limit.1) := by
    have hbounds := limit.2
    omega
  refine (searchWorkspaceThreads_paged workspaceKey query).completes (fun r hr => ?_)
    (fun cursor position hposition => ?_) rfl
  · exact encodeThreadSearchCursor_ok (fun h => by cases h) (h r (List.mem_filter.mp hr).1) hscope
  · rw [searchWorkspaceThreads, hposition, ← searchPage_eq]
    change (searchThreadPage db false workspaceKey query position limit >>= _) = _
    rw [searchThreadPage, if_neg hnoquery, if_neg hlimit, if_neg Bool.false_ne_true]
    rfl

/-! ## Entries -/

/-- Requests for the entries of a Thread, from the last page to the first one. -/
inductive FollowsEntries (threadId : Text) :
    Option Nat → List (Tables × Nat) → List EntryRow → Prop
  | last {before : Option Nat} {db : Tables} {limit : Nat} :
      (entryPage db threadId before limit).2 = false →
      FollowsEntries threadId before [(db, limit)] (entryPage db threadId before limit).1
  | more {before : Option Nat} {db : Tables} {limit next : Nat} {requests : List (Tables × Nat)}
      {earlier : List EntryRow} :
      nextBeforeSequence (entryPage db threadId before limit) = some next →
      FollowsEntries threadId (some next) requests earlier →
      FollowsEntries threadId before ((db, limit) :: requests)
        (earlier ++ (entryPage db threadId before limit).1)

omit [IsoParser] [HexDigest] in
private theorem FollowsEntries.traversal {threadId : Text} {before : Option Nat}
    {requests : List (Tables × Nat)} {visited : List EntryRow}
    (h : FollowsEntries threadId before requests visited) :
    Traversal entryKey (before.map toDual) (requests.map fun r => entriesOf r.1 threadId)
      visited.reverse := by
  induction h with
  | @last before db limit hmore =>
    have hpage := keysetPage_isPage (unique_entryKey db threadId) (before.map toDual) limit
    rw [entryPage_eq] at hmore ⊢
    dsimp only at hmore ⊢
    rw [hmore] at hpage
    rw [List.reverse_reverse]
    exact .last hpage
  | @more before db limit next dbs earlier hnext _ ih =>
    have hpage := keysetPage_isPage (unique_entryKey db threadId) (before.map toDual) limit
    rw [entryPage_eq] at hnext ⊢
    unfold nextBeforeSequence at hnext
    dsimp only at hnext ⊢
    rw [List.reverse_append, List.reverse_reverse]
    split at hnext
    · rw [List.head?_reverse] at hnext
      obtain ⟨e, hlast, rfl⟩ := Option.map_eq_some_iff.mp hnext
      exact .more hpage.weaken hlast ih
    · cases hnext

omit [IsoParser] [HexDigest] in
private theorem entryPage_completes (db : Tables) (threadId : Text) {limit : Nat}
    (hlimit : 1 ≤ limit) :
    ∃ n visited, FollowsEntries threadId none (List.replicate n (db, limit)) visited := by
  have hall : ∀ start : Option ℕᵒᵈ, ∀ before : Option Nat, before.map toDual = start →
      ∃ n visited, FollowsEntries threadId before (List.replicate n (db, limit)) visited := by
    refine @keyset_induction _ _ _ entryKey _ (entriesOf db threadId)
      fun start ih before hstart => ?_
    cases hmore : (entryPage db threadId before limit).2 with
    | false => exact ⟨1, _, .last hmore⟩
    | true =>
      have hrows := hmore
      rw [entryPage_eq] at hrows
      obtain ⟨e, he, hbehind, hlast⟩ := keysetPage_more hlimit hrows
      have hnext : nextBeforeSequence (entryPage db threadId before limit) = some e.sequence := by
        rw [nextBeforeSequence, hmore, if_pos rfl, entryPage_eq, List.head?_reverse, hlast]
        rfl
      obtain ⟨n, rest, hrest⟩ := ih e he (hstart ▸ hbehind) (some e.sequence) rfl
      exact ⟨n + 1, _, .more hnext hrest⟩
  exact hall none none rfl

/-! ## Nothing is lost or repeated -/

/-- Following cursors visits every row that stays exactly once and in the documented order, it
comes to an end where nothing changes, and cursors are read back. -/
structure CursorPagination : Prop where
  lists : ∀ (workspaceKey : Text) (requests : List (Tables × PageLimit 200))
    (visited : List ListedThread),
    Follows (fun db cursor limit => workspaceThreads db workspaceKey cursor limit) none requests
      visited →
    visited.Pairwise ListedBefore ∧
      (∀ thread ∈ visited, ∃ request ∈ requests, ∃ row ∈ listed request.1 workspaceKey,
        listedThread row = thread) ∧
      ∀ row, (∀ request ∈ requests, row ∈ listed request.1 workspaceKey) →
        visited.count (listedThread row) = 1
  searches : ∀ (workspaceKey query : Text) (requests : List ((Tables × Bool) × PageLimit 50))
    (visited : List ListedThread),
    Follows (fun (state : Tables × Bool) cursor limit =>
      searchWorkspaceThreads state.1 state.2 workspaceKey query cursor limit) none requests
      visited →
    visited.Pairwise FoundBefore ∧
      (∀ thread ∈ visited, ∃ request ∈ requests,
        ∃ row ∈ found request.1.1 workspaceKey (strippedQuery query), listedThread row = thread) ∧
      ∀ row, (∀ request ∈ requests, row ∈ found request.1.1 workspaceKey (strippedQuery query)) →
        visited.count (listedThread row) = 1
  entries : ∀ (threadId : Text) (requests : List (Tables × Nat)) (visited : List EntryRow),
    FollowsEntries threadId none requests visited →
    (visited.Pairwise fun e f => e.sequence < f.sequence) ∧
      (∀ e ∈ visited, ∃ request ∈ requests, e ∈ entriesOf request.1 threadId) ∧
      ∀ e, (∀ request ∈ requests, e ∈ entriesOf request.1 threadId) → visited.count e = 1
  listsEnd : ∀ (db : Tables) (workspaceKey : Text) (limit : PageLimit 200),
    (∀ row ∈ db.threads, IsIdentifier row.threadId) →
    ∃ n visited, Follows (fun db cursor limit => workspaceThreads db workspaceKey cursor limit)
      none (List.replicate n (db, limit)) visited
  searchesEnd : ∀ (db : Tables) (workspaceKey query : Text) (limit : PageLimit 50),
    workspaceKey ≠ [] ∧ workspaceKey.length ≤ 128 →
    strippedQuery query ≠ [] ∧ (strippedQuery query).length ≤ 200 →
    (∀ row ∈ db.threads, IsIdentifier row.threadId) →
    ∃ n visited, Follows (fun (state : Tables × Bool) cursor limit =>
      searchWorkspaceThreads state.1 state.2 workspaceKey query cursor limit)
      none (List.replicate n ((db, false), limit)) visited
  entriesEnd : ∀ (db : Tables) (threadId : Text) (limit : Nat), 1 ≤ limit →
    ∃ n visited, FollowsEntries threadId none (List.replicate n (db, limit)) visited
  cursors : ∀ cursor value, encodeThreadCursor cursor = .ok value →
    decodeThreadCursor value = .ok (cursor.1.astimezone, cursor.2)
  searchCursors : ∀ cursor workspaceKey query value,
    encodeThreadSearchCursor cursor workspaceKey query = .ok value →
    decodeThreadSearchCursor value workspaceKey query = .ok (cursor.1.astimezone, cursor.2)

/-- Pagination by cursors loses and repeats nothing. -/
theorem cursor_pagination : CursorPagination where
  lists workspaceKey requests visited h := by
    obtain ⟨⟨rows, rfl, hsorted⟩, hrest⟩ := (workspaceThreads_paged workspaceKey).visits h
    refine ⟨List.pairwise_map.mpr (hsorted.imp fun {r s} hlt => ?_), hrest⟩
    exact (listKey_lt_iff r s).mp hlt
  searches workspaceKey query requests visited h := by
    obtain ⟨⟨rows, rfl, hsorted⟩, hrest⟩ :=
      (searchWorkspaceThreads_paged workspaceKey query).visits h
    refine ⟨List.pairwise_map.mpr (hsorted.imp fun {r s} hlt => ?_), hrest⟩
    exact (searchKey_lt_iff r s).mp hlt
  entries threadId requests visited h := by
    have htraversal := h.traversal
    refine ⟨?_, fun e he => ?_, fun e he => ?_⟩
    · rw [← List.reverse_reverse visited, List.pairwise_reverse]
      exact htraversal.sorted.imp fun hlt => toDual_lt_toDual.mp hlt
    · obtain ⟨table, htable, hmem⟩ := htraversal.sound e (List.mem_reverse.mpr he)
      obtain ⟨request, hrequest, rfl⟩ := List.mem_map.mp htable
      exact ⟨request, hrequest, hmem⟩
    · rw [← List.count_reverse]
      exact htraversal.count_eq_one (List.forall_mem_map.mpr he)
  listsEnd _ workspaceKey _ h := workspaceThreads_completes workspaceKey h
  searchesEnd _ _ _ _ hworkspace hquery h := searchWorkspaceThreads_completes hworkspace hquery h
  entriesEnd db threadId _ hlimit := entryPage_completes db threadId hlimit
  cursors _ _ h := decode_encodeThreadCursor h
  searchCursors _ _ _ _ h := decode_encodeThreadSearchCursor h

end Threads

section Samples

/-- A parser of the texts that `isoformat` writes. -/
@[reducible] def sampleIsoParser : IsoParser where
  fromisoformat text := (Datetime.ofIsoformat text).map fun t => ⟨t, some 0⟩
  fromisoformat_isoformat t := by rw [Datetime.ofIsoformat_isoformat]; rfl

/-- Digests for requests that need none. -/
@[reducible] def sampleHexDigest : HexDigest where
  sha256 _ := List.replicate 64 '0'
  isHexDigest_sha256 _ := by decide

attribute [local instance] sampleIsoParser sampleHexDigest

/-- A new year, some microseconds later. -/
def sampleTime (microsecond : Nat) (h : microsecond < 1000000) : Datetime :=
  ⟨2024, 1, 1, 0, 0, 0, microsecond, by decide, by decide, by decide, by decide, h⟩

/-- A Thread of the workspace. -/
def sampleRow (threadId : Char) (updatedAt : Datetime) : ThreadRow :=
  ⟨[threadId], ['w'], ['t'], updatedAt⟩

/-- Three Threads; two of them were updated at the same time. -/
def sampleTables : Tables where
  threads := [sampleRow 'b' (sampleTime 0 (by decide)), sampleRow 'c' (sampleTime 1 (by decide)),
    sampleRow 'a' (sampleTime 0 (by decide))]
  entries := []
  uniqueThreads := by decide
  uniqueEntries := .nil

/-- Two pages of at most two Threads each visit the three Threads once: a tie is cut between
them. -/
theorem cursor_pagination_sample : ∃ n visited,
    Follows (fun db cursor limit => workspaceThreads db ['w'] cursor limit) none
      (List.replicate n (sampleTables, ⟨2, by decide⟩)) visited ∧
    visited.Pairwise ListedBefore ∧
    visited.count (listedThread (sampleRow 'a' (sampleTime 0 (by decide)))) = 1 := by
  have hids : ∀ row ∈ sampleTables.threads, IsIdentifier row.threadId := by
    simp [sampleTables, sampleRow, IsIdentifier]
  obtain ⟨n, visited, hfollows⟩ :=
    cursor_pagination.listsEnd sampleTables ['w'] ⟨2, by decide⟩ hids
  obtain ⟨hsorted, -, hcount⟩ := cursor_pagination.lists _ _ _ hfollows
  refine ⟨n, visited, hfollows, hsorted, hcount _ fun request hrequest => ?_⟩
  rw [List.eq_of_mem_replicate hrequest]
  decide

end Samples

end AwesomeAgent.Pagination
