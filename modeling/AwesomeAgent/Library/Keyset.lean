import Mathlib.Data.List.Sort
import Mathlib.Order.Basic

/-!
# Pages by position

A page holds the first rows behind a position, in the order of their positions, and tells
whether more follow. Reading on from the position of the last row, from a table that changes
between the pages, visits every row that stays exactly once and in order.
-/

namespace AwesomeAgent

section Keyset

variable {ρ κ : Type} [LinearOrder κ] {key : ρ → κ} {rows visited : List ρ} {cursor : Option κ}

/-- The row lies behind the position. -/
def IsBehind (key : ρ → κ) (cursor : Option κ) (r : ρ) : Prop := ∀ c ∈ cursor, c < key r

/-- A page of the rows behind a position: sorted, complete up to its last row, and complete at
all if no more rows follow. -/
structure IsPage (key : ρ → κ) (table : List ρ) (cursor : Option κ) (page : List ρ)
    (hasMore : Bool) : Prop where
  sorted : page.Pairwise fun r s => key r < key s
  sound : ∀ r ∈ page, r ∈ table ∧ IsBehind key cursor r
  upTo : ∀ r ∈ table, IsBehind key cursor r → ∀ last ∈ page.getLast?, key r ≤ key last → r ∈ page
  complete : hasMore = false → ∀ r ∈ table, IsBehind key cursor r → r ∈ page

variable {table : List ρ}

/-- A page before which more rows may follow. -/
theorem IsPage.weaken {page : List ρ} {hasMore : Bool}
    (h : IsPage key table cursor page hasMore) : IsPage key table cursor page true :=
  ⟨h.sorted, h.sound, h.upTo, fun hmore => by cases hmore⟩

/-- The first rows behind a position. -/
def keysetPage (key : ρ → κ) (table : List ρ) (cursor : Option κ) (limit : Nat) : List ρ × Bool :=
  let rows := ((table.filter fun r => cursor.all fun c => decide (c < key r)).insertionSort
    fun r s => key r ≤ key s).take (limit + 1)
  (rows.take limit, decide (limit < rows.length))

/-- A page by keys is a page. -/
theorem keysetPage_isPage (hunique : table.Pairwise fun r s => key r ≠ key s)
    (cursor : Option κ) (limit : Nat) :
    IsPage key table cursor (keysetPage key table cursor limit).1
      (keysetPage key table cursor limit).2 := by
  generalize hselected : (table.filter fun r => cursor.all fun c => decide (c < key r)) = selected
  have hmem (r : ρ) : r ∈ selected ↔ r ∈ table ∧ IsBehind key cursor r := by
    rw [← hselected, List.mem_filter, IsBehind]
    cases cursor with
    | none => simp
    | some c => simp
  have hne : selected.Pairwise fun r s => key r ≠ key s := hselected ▸ hunique.filter _
  generalize hsorted : (selected.insertionSort fun r s => key r ≤ key s) = sorted
  have hperm : sorted.Perm selected := hsorted ▸ List.perm_insertionSort _ _
  have hpage : keysetPage key table cursor limit =
      (sorted.take limit, decide (limit < (sorted.take (limit + 1)).length)) := by
    rw [keysetPage, hselected, hsorted, List.take_take, Nat.min_eq_left (Nat.le_succ limit)]
  have hlt : sorted.Pairwise fun r s => key r < key s := by
    have htotal : Std.Total fun r s : ρ => key r ≤ key s := ⟨fun r s => le_total (key r) (key s)⟩
    have htrans : IsTrans ρ fun r s => key r ≤ key s := ⟨fun r s u h h' => le_trans h h'⟩
    have hle := List.pairwise_insertionSort (fun r s => key r ≤ key s) selected
    rw [hsorted] at hle
    exact hle.imp₂ (fun r s h h' => lt_of_le_of_ne h h') (hne.perm hperm.symm Ne.symm)
  rw [hpage]
  refine ⟨hlt.sublist (List.take_sublist _ _),
    fun r hr => (hmem r).mp (hperm.mem_iff.mp (List.mem_of_mem_take hr)),
    fun r hr hbehind last hlast hle => ?_, fun hmore r hr hbehind => ?_⟩
  · have hin := hperm.mem_iff.mpr ((hmem r).mpr ⟨hr, hbehind⟩)
    rw [← List.take_append_drop limit sorted] at hin hlt
    obtain hin | hin := List.mem_append.mp hin
    · exact hin
    · have hafter := (List.pairwise_append.mp hlt).2.2 last (List.mem_of_getLast? hlast) r hin
      exact absurd hle hafter.not_ge
  · have hshort : sorted.length ≤ limit := by
      have hlen := of_decide_eq_false hmore
      rw [List.length_take] at hlen
      omega
    dsimp only
    rw [List.take_of_length_le hshort]
    exact hperm.mem_iff.mpr ((hmem r).mpr ⟨hr, hbehind⟩)

/-- A page before which more rows follow ends in a row behind the position. -/
theorem keysetPage_more {limit : Nat} (hlimit : 0 < limit)
    (hmore : (keysetPage key table cursor limit).2 = true) :
    ∃ r ∈ table, IsBehind key cursor r ∧
      (keysetPage key table cursor limit).1.getLast? = some r := by
  unfold keysetPage at hmore ⊢
  dsimp only at hmore ⊢
  have hlen := of_decide_eq_true hmore
  cases hlast : (((((table.filter fun r => cursor.all fun c => decide (c < key r)).insertionSort
    fun r s => key r ≤ key s).take (limit + 1)).take limit)).getLast? with
  | none =>
    have hnil := congrArg List.length (List.getLast?_eq_none_iff.mp hlast)
    rw [List.length_take, List.length_nil] at hnil
    omega
  | some r =>
    have hr := List.mem_of_mem_take (List.mem_of_mem_take (List.mem_of_getLast? hlast))
    rw [List.mem_insertionSort, List.mem_filter] at hr
    refine ⟨r, hr.1, fun c hc => ?_, rfl⟩
    rw [Option.mem_def] at hc
    rw [hc] at hr
    exact of_decide_eq_true hr.2

/-- Induction on the rows of a table that lie behind a position. -/
theorem keyset_induction {motive : Option κ → Prop} (table : List ρ)
    (step : ∀ cursor : Option κ,
      (∀ r ∈ table, IsBehind key cursor r → motive (some (key r))) → motive cursor)
    (cursor : Option κ) : motive cursor := by
  generalize hselected : (table.filter fun r => cursor.all fun c => decide (c < key r)) = selected
  generalize hcount : selected.length = count
  induction count using Nat.strongRecOn generalizing cursor selected with
  | ind count ih =>
    refine step cursor fun r hr hbehind => ih _ ?_ _ _ rfl rfl
    have hrest : (table.filter fun s => (some (key r)).all fun c => decide (c < key s)) =
        selected.filter fun s => decide (key r < key s) := by
      rw [← hselected, List.filter_filter]
      apply List.filter_congr
      intro s _
      cases cursor with
      | none => simp
      | some c =>
        have hc := hbehind c rfl
        simp only [Option.all_some]
        by_cases hs : key r < key s
        · simp [hs, hc.trans hs]
        · simp [hs]
    rw [← hcount, hrest, List.length_filter_lt_length_iff_exists]
    refine ⟨r, ?_, by simp⟩
    rw [← hselected, List.mem_filter]
    cases cursor with
    | none => exact ⟨hr, rfl⟩
    | some c => exact ⟨hr, decide_eq_true (hbehind c rfl)⟩

/-- Pages read one after another, each from the table as it is then; the next page starts behind
the last row of the page before. -/
inductive Traversal (key : ρ → κ) : Option κ → List (List ρ) → List ρ → Prop
  | last {cursor : Option κ} {table page : List ρ} :
      IsPage key table cursor page false → Traversal key cursor [table] page
  | more {cursor : Option κ} {table page : List ρ} {r : ρ} {tables : List (List ρ)}
      {rest : List ρ} :
      IsPage key table cursor page true → page.getLast? = some r →
      Traversal key (some (key r)) tables rest →
      Traversal key cursor (table :: tables) (page ++ rest)

namespace Traversal

variable {tables : List (List ρ)}

private theorem behind (h : Traversal key cursor tables visited) :
    ∀ r ∈ visited, IsBehind key cursor r := by
  induction h with
  | last hpage => exact fun r hr => (hpage.sound r hr).2
  | more hpage hlast _ ih =>
    intro r hr
    obtain hr | hr := List.mem_append.mp hr
    · exact (hpage.sound r hr).2
    · intro c hc
      have hstart := (hpage.sound _ (List.mem_of_getLast? hlast)).2 c hc
      exact hstart.trans (ih r hr _ rfl)

/-- The rows are visited in the order of their positions, none twice. -/
theorem sorted (h : Traversal key cursor tables visited) :
    visited.Pairwise fun r s => key r < key s := by
  induction h with
  | last hpage => exact hpage.sorted
  | more hpage hlast hrest ih =>
    refine List.pairwise_append.mpr ⟨hpage.sorted, ih, fun r hr s hs => ?_⟩
    have hs := hrest.behind s hs _ rfl
    obtain ⟨front, hfront⟩ := List.getLast?_eq_some_iff.mp hlast
    have hsorted := hpage.sorted
    rw [hfront] at hr hsorted
    obtain hr | hr := List.mem_append.mp hr
    · exact ((List.pairwise_append.mp hsorted).2.2 r hr _ List.mem_cons_self).trans hs
    · rwa [List.mem_singleton.mp hr]

/-- Every row visited is in one of the tables. -/
theorem sound (h : Traversal key cursor tables visited) :
    ∀ r ∈ visited, ∃ table ∈ tables, r ∈ table := by
  induction h with
  | last hpage => exact fun r hr => ⟨_, List.mem_cons_self, (hpage.sound r hr).1⟩
  | more hpage _ _ ih =>
    intro r hr
    obtain hr | hr := List.mem_append.mp hr
    · exact ⟨_, List.mem_cons_self, (hpage.sound r hr).1⟩
    · obtain ⟨table, htable, hmem⟩ := ih r hr
      exact ⟨table, List.mem_cons_of_mem _ htable, hmem⟩

private theorem visits (h : Traversal key cursor tables visited) {r : ρ}
    (hr : ∀ table ∈ tables, r ∈ table)
    (hbehind : IsBehind key cursor r) : r ∈ visited := by
  induction h with
  | last hpage => exact hpage.complete rfl r (hr _ List.mem_cons_self) hbehind
  | @more _ _ _ last _ _ hpage hlast _ ih =>
    obtain ⟨hfirst, hrest⟩ := List.forall_mem_cons.mp hr
    by_cases hle : key r ≤ key last
    · exact List.mem_append_left _ (hpage.upTo r hfirst hbehind last hlast hle)
    · refine List.mem_append_right _ (ih hrest fun c hc => ?_)
      cases hc
      exact lt_of_not_ge hle

/-- A row that is in every table is visited exactly once. -/
theorem count_eq_one [DecidableEq ρ] (h : Traversal key none tables visited) {r : ρ}
    (hr : ∀ table ∈ tables, r ∈ table) : visited.count r = 1 := by
  have hnodup : visited.Nodup := h.sorted.imp fun hlt heq => hlt.ne (congrArg key heq)
  exact List.count_eq_one_of_mem hnodup (h.visits hr fun c hc => by cases hc)

end Traversal

end Keyset

end AwesomeAgent
