import Mathlib.Data.List.Nodup
import Mathlib.Data.List.Perm.Basic

/-!
# Tables with a primary key

A table is a list of rows without two rows of one key. Rows are looked up by their
key, inserted or overwritten, and deleted.
-/

namespace AwesomeAgent

/-- Rows with distinct keys. -/
structure Table (κ ν : Type) (key : ν → κ) where
  rows : List ν
  nodup : (rows.map key).Nodup

namespace Table

variable {κ ν : Type} [DecidableEq κ] {key : ν → κ}

/-- The table without rows. -/
def empty : Table κ ν key := ⟨[], List.nodup_nil⟩

/-- The row of a key. -/
def get? (t : Table κ ν key) (k : κ) : Option ν := t.rows.find? fun r => decide (key r = k)

/-- Insert a row, or overwrite the row of its key. -/
def put (t : Table κ ν key) (v : ν) : Table κ ν key where
  rows :=
    if key v ∈ t.rows.map key then t.rows.map fun r => if key r = key v then v else r
    else t.rows ++ [v]
  nodup := by
    split
    · have hmap : (t.rows.map fun r => if key r = key v then v else r).map key =
          t.rows.map key := by
        rw [List.map_map]
        refine List.map_congr_left fun r _ => ?_
        by_cases h : key r = key v <;> simp [h]
      exact hmap ▸ t.nodup
    · next h =>
      rw [List.map_append, List.map_singleton, List.nodup_append]
      refine ⟨t.nodup, List.nodup_singleton _, fun a ha b hb he => ?_⟩
      rw [List.mem_singleton] at hb
      exact h (hb ▸ he ▸ ha)

/-- Delete the row of a key. -/
def remove (t : Table κ ν key) (k : κ) : Table κ ν key where
  rows := t.rows.filter fun r => decide (key r ≠ k)
  nodup := t.nodup.sublist (List.filter_sublist.map key)

omit [DecidableEq κ] in
/-- A key belongs to one row. -/
theorem eq_of_key (t : Table κ ν key) {u v : ν} (hu : u ∈ t.rows) (hv : v ∈ t.rows)
    (h : key u = key v) : u = v :=
  List.inj_on_of_nodup_map t.nodup hu hv h

/-- A key finds the row that has it. -/
theorem get?_eq_some_iff (t : Table κ ν key) {k : κ} {v : ν} :
    t.get? k = some v ↔ v ∈ t.rows ∧ key v = k := by
  constructor
  · intro h
    exact ⟨List.mem_of_find?_eq_some h, by simpa using List.find?_some h⟩
  · rintro ⟨hv, rfl⟩
    cases hf : t.get? (key v) with
    | none =>
      have := List.find?_eq_none.mp hf v hv
      simp at this
    | some u =>
      have hu : key u = key v := by simpa using List.find?_some hf
      rw [t.eq_of_key (List.mem_of_find?_eq_some hf) hv hu]

/-- What is in a table after a row was put. -/
theorem mem_put (t : Table κ ν key) {u v : ν} :
    u ∈ (t.put v).rows ↔ u = v ∨ u ∈ t.rows ∧ key u ≠ key v := by
  simp only [put]
  split
  · next h =>
    obtain ⟨r, hr, hkey⟩ := List.mem_map.mp h
    rw [List.mem_map]
    constructor
    · rintro ⟨s, hs, rfl⟩
      split
      · exact Or.inl rfl
      · next hne => exact Or.inr ⟨hs, hne⟩
    · rintro (rfl | ⟨hu, hne⟩)
      · exact ⟨r, hr, if_pos hkey⟩
      · exact ⟨u, hu, if_neg hne⟩
  · next h =>
    rw [List.mem_append, List.mem_singleton, or_comm]
    refine or_congr_right ⟨fun hu => ⟨hu, fun he => h ?_⟩, And.left⟩
    exact he ▸ List.mem_map_of_mem hu

/-- What is in a table after a key was removed. -/
theorem mem_remove (t : Table κ ν key) {k : κ} {u : ν} :
    u ∈ (t.remove k).rows ↔ u ∈ t.rows ∧ key u ≠ k := by
  simp [remove]

/-- What a key finds after a row was put. -/
theorem get?_put (t : Table κ ν key) (v : ν) (k : κ) :
    (t.put v).get? k = if k = key v then some v else t.get? k := by
  ext u
  rw [get?_eq_some_iff, mem_put]
  split
  · next h =>
    subst h
    simp only [Option.some.injEq]
    exact ⟨fun ⟨hu, hk⟩ => (hu.resolve_right fun hu => hu.2 hk).symm,
      fun hu => hu ▸ ⟨Or.inl rfl, rfl⟩⟩
  · next h =>
    rw [get?_eq_some_iff]
    constructor
    · rintro ⟨rfl | ⟨hu, _⟩, hk⟩
      · exact absurd hk.symm h
      · exact ⟨hu, hk⟩
    · rintro ⟨hu, rfl⟩
      exact ⟨Or.inr ⟨hu, h⟩, rfl⟩

/-- A row with a new key goes last. -/
theorem rows_put_of_get?_eq_none (t : Table κ ν key) {v : ν} (h : t.get? (key v) = none) :
    (t.put v).rows = t.rows ++ [v] := by
  have hnot : key v ∉ t.rows.map key := by
    intro hmem
    obtain ⟨u, hu, hkey⟩ := List.mem_map.mp hmem
    have hsome := t.get?_eq_some_iff.mpr ⟨hu, hkey⟩
    rw [h] at hsome
    cases hsome
  exact if_neg hnot

/-- A row is found where it was put. -/
@[simp] theorem get?_put_self (t : Table κ ν key) (v : ν) : (t.put v).get? (key v) = some v := by
  simp [get?_put]

/-- What a key finds after another was removed. -/
theorem get?_remove (t : Table κ ν key) (j k : κ) :
    (t.remove k).get? j = if j = k then none else t.get? j := by
  ext u
  rw [get?_eq_some_iff, mem_remove]
  split
  · next h =>
    subst h
    simp only [reduceCtorEq, iff_false]
    exact fun hu => hu.1.2 hu.2
  · next h =>
    rw [get?_eq_some_iff]
    exact ⟨fun hu => ⟨hu.1.1, hu.2⟩, fun hu => ⟨⟨hu.1, fun hk => h (hu.2 ▸ hk)⟩, hu.2⟩⟩

end Table

end AwesomeAgent
