import Mathlib.Data.List.Basic

/-!
# Bounded tails

A sequence that outgrows a limit keeps its newest part behind a marker. The cut drops one
element more where it would separate a pair. Keeping the tail after every part that arrives
gives the same as keeping the tail of the whole.
-/

namespace AwesomeAgent.BoundedTail

variable {α : Type} (p : α → α → Bool)

/-- Whether a cut before an index separates a pair. -/
def splitsAt (index : Nat) (xs : List α) : Bool :=
  match index with
  | 0 => false
  | before + 1 =>
      match xs[before]?, xs[before + 1]? with
      | some x, some y => p x y
      | _, _ => false

/-- Drop what is before an index, and the rest of a pair that the cut would separate. -/
def cut (index : Nat) (xs : List α) : List α :=
  if splitsAt p index xs then xs.drop (index + 1) else xs.drop index

/-- Keep a sequence up to a limit, and the newest part of a longer one behind a marker. -/
def keep (limit : Nat) (marker xs : List α) : List α :=
  if xs.length ≤ limit then xs
  else marker ++ cut p (xs.length - (limit - marker.length)) xs

variable {p}

private theorem splitsAt_of_drop_eq {v w : List α} {a b d : Nat} (h : v.drop a = w.drop b)
    (hd : 0 < d) :
    splitsAt p (a + d) v = splitsAt p (b + d) w := by
  obtain ⟨e, rfl⟩ : ∃ e, d = e + 1 := ⟨d - 1, by omega⟩
  have hget (i : Nat) : v[a + i]? = w[b + i]? := by
    simpa only [List.getElem?_drop] using congrArg (·[i]?) h
  have hone (c : Nat) (u : List α) : splitsAt p (c + (e + 1)) u =
      match u[c + e]?, u[c + (e + 1)]? with
      | some x, some y => p x y
      | _, _ => false := rfl
  rw [hone, hone, hget e, hget (e + 1)]

private theorem cut_of_drop_eq {v w : List α} {a b d : Nat} (h : v.drop a = w.drop b) (hd : 0 < d) :
    cut p (a + d) v = cut p (b + d) w := by
  have hdrop (i : Nat) : v.drop (a + i) = w.drop (b + i) := by
    rw [← List.drop_drop, h, List.drop_drop]
  unfold cut
  rw [splitsAt_of_drop_eq h hd, hdrop d, Nat.add_assoc a, hdrop (d + 1), Nat.add_assoc b]

private theorem splitsAt_succ (hpairs : ∀ x y z, p x y = true → p y z = false)
    {index : Nat} {xs ys : List α} (h : splitsAt p index xs = true) :
    splitsAt p (index + 1) (xs ++ ys) = false := by
  cases index with
  | zero => cases h
  | succ before =>
    simp only [splitsAt] at h ⊢
    cases hx : xs[before]? with
    | none => simp [hx] at h
    | some x =>
      cases hy : xs[before + 1]? with
      | none => simp [hx, hy] at h
      | some y =>
        have hlen := (List.getElem?_eq_some_iff.mp hy).1
        rw [List.getElem?_append_left hlen, hy]
        cases (xs ++ ys)[before + 1 + 1]? with
        | none => rfl
        | some z => exact hpairs x y z (by simpa only [hx, hy] using h)

variable {limit : Nat} {marker : List α}

private theorem keep_of_le {xs : List α} (h : xs.length ≤ limit) :
    keep p limit marker xs = xs := if_pos h

private theorem keep_of_lt {xs : List α} (h : limit < xs.length) :
    keep p limit marker xs = marker ++ cut p (xs.length - (limit - marker.length)) xs :=
  if_neg (Nat.not_le.mpr h)

private theorem drop_marker {m x y : List α} {k : Nat} (hk : k ≤ x.length) :
    (m ++ x.drop k ++ y).drop m.length = (x ++ y).drop k := by
  rw [List.append_assoc, List.drop_left, List.drop_append_of_le_length hk]

/-- The tail is cut where the cut of the whole is, if the first cut separated no pair. -/
private theorem keep_whole {n : Nat} {xs ys : List α}
    (hmarker : marker.length < limit) (hxs : limit < xs.length)
    (hn : n = xs.length - (limit - marker.length)) (hsplit : splitsAt p n xs = false) :
    keep p limit marker (marker ++ cut p n xs ++ ys) =
      marker ++ cut p (n + ys.length) (xs ++ ys) := by
  have hcut : cut p n xs = xs.drop n := by simp [cut, hsplit]
  have hlength : (marker ++ xs.drop n ++ ys).length = limit + ys.length := by
    simp only [List.length_append, List.length_drop]
    omega
  rcases Nat.eq_zero_or_pos ys.length with hys | hys
  · obtain rfl := List.length_eq_zero_iff.mp hys
    rw [hcut, keep_of_le (by omega)]
    simp only [List.append_nil, List.length_nil, Nat.add_zero, hcut]
  · have hnext := cut_of_drop_eq (p := p) (drop_marker (m := marker) (y := ys)
      (show n ≤ xs.length by omega)) hys
    rw [hcut, keep_of_lt (by omega), ← hnext, hlength]
    congr 2
    omega

/-- The tail is cut where the cut of the whole is, if the first cut dropped the rest of a
pair: what follows the pair is no pair with it. -/
private theorem keep_split (hpairs : ∀ x y z, p x y = true → p y z = false) {n : Nat}
    {xs ys : List α} (hmarker : marker.length < limit) (hxs : limit < xs.length)
    (hn : n = xs.length - (limit - marker.length)) (hsplit : splitsAt p n xs = true) :
    keep p limit marker (marker ++ cut p n xs ++ ys) =
      marker ++ cut p (n + ys.length) (xs ++ ys) := by
  have hcut : cut p n xs = xs.drop (n + 1) := by simp [cut, hsplit]
  have hlength : (marker ++ xs.drop (n + 1) ++ ys).length + 1 = limit + ys.length := by
    simp only [List.length_append, List.length_drop]
    omega
  rcases Nat.lt_trichotomy ys.length 1 with hys | hys | hys
  · obtain rfl := List.length_eq_zero_iff.mp (Nat.lt_one_iff.mp hys)
    rw [hcut, keep_of_le (by omega)]
    simp only [List.append_nil, List.length_nil, Nat.add_zero, hcut]
  · have hwhole : cut p (n + 1) (xs ++ ys) = (xs ++ ys).drop (n + 1) := by
      rw [cut, splitsAt_succ hpairs hsplit]
      rfl
    rw [hcut, keep_of_le (by omega), hys, hwhole, List.append_assoc,
      List.drop_append_of_le_length (by omega)]
  · have hnext := cut_of_drop_eq (p := p) (drop_marker (m := marker) (y := ys)
      (show n + 1 ≤ xs.length by omega)) (show 0 < ys.length - 1 by omega)
    rw [show n + 1 + (ys.length - 1) = n + ys.length by omega] at hnext
    rw [hcut, keep_of_lt (by omega), ← hnext]
    congr 2
    omega

/-- Keeping the tail of a part first changes nothing, if pairs do not overlap. -/
theorem keep_append (hpairs : ∀ x y z, p x y = true → p y z = false)
    (hmarker : marker.length < limit) (xs ys : List α) :
    keep p limit marker (keep p limit marker xs ++ ys) = keep p limit marker (xs ++ ys) := by
  rcases Nat.lt_or_ge limit xs.length with hxs | hxs
  · have hwhole : keep p limit marker (xs ++ ys) =
        marker ++ cut p (xs.length - (limit - marker.length) + ys.length) (xs ++ ys) := by
      rw [keep_of_lt (by rw [List.length_append]; omega), List.length_append]
      congr 2
      omega
    rw [hwhole, keep_of_lt hxs]
    cases hsplit : splitsAt p (xs.length - (limit - marker.length)) xs with
    | false => exact keep_whole hmarker hxs rfl hsplit
    | true => exact keep_split hpairs hmarker hxs rfl hsplit
  · rw [keep_of_le hxs]

/-- A text behind the marker and within the limit is cut like the text itself. -/
theorem keep_marker_append (hmarker : marker.length < limit) (xs : List α) :
    keep p limit marker (marker ++ xs) =
      marker ++ if xs.length ≤ limit - marker.length then xs
        else cut p (xs.length - (limit - marker.length)) xs := by
  unfold keep
  by_cases hxs : xs.length ≤ limit - marker.length
  · rw [if_pos (by rw [List.length_append]; omega), if_pos hxs]
  · have hdrop : (marker ++ xs).drop marker.length = xs.drop 0 := by simp
    have hd : 0 < xs.length - (limit - marker.length) := by omega
    have hcut := cut_of_drop_eq (p := p) hdrop hd
    rw [Nat.zero_add] at hcut
    rw [if_neg (by rw [List.length_append]; omega), if_neg hxs, ← hcut, List.length_append]
    congr 2
    omega

end AwesomeAgent.BoundedTail
