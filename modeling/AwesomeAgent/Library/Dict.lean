import Mathlib.Data.List.Basic
import Mathlib.Data.List.Induction
import Mathlib.Data.List.Nodup

/-!
# Insertion-ordered dictionaries

A dictionary is a list of entries without a repeated key. Overwriting keeps the
place of the key and a new key goes to the end, so that iteration follows
insertion order.
-/

namespace AwesomeAgent

/-- Entries in insertion order; no key occurs twice. -/
structure Dict (κ : Type) (ν : Type) where
  entries : List (κ × ν)
  nodup : (entries.map Prod.fst).Nodup

namespace Dict

variable {κ ν : Type} [DecidableEq κ]

/-- The dictionary without entries. -/
def empty : Dict κ ν := ⟨[], List.nodup_nil⟩

/-- Keys in insertion order. -/
def keys (d : Dict κ ν) : List κ := d.entries.map Prod.fst

/-- Values in insertion order. -/
def values (d : Dict κ ν) : List ν := d.entries.map Prod.snd

/-- The value stored under a key. -/
def get? (d : Dict κ ν) (k : κ) : Option ν := d.entries.lookup k

private def assign (entries : List (κ × ν)) (k : κ) (v : ν) : List (κ × ν) :=
  match entries with
  | [] => [(k, v)]
  | (j, w) :: rest => if j = k then (k, v) :: rest else (j, w) :: assign rest k v

private theorem mem_keys_assign (entries : List (κ × ν)) (k : κ) (v : ν) (j : κ) :
    j ∈ (assign entries k v).map Prod.fst ↔ j = k ∨ j ∈ entries.map Prod.fst := by
  induction entries with
  | nil => simp [assign]
  | cons e rest ih =>
    obtain ⟨i, w⟩ := e
    by_cases h : i = k
    · simp [assign, h]
    · simp only [assign, if_neg h, List.map_cons, List.mem_cons, ih]
      tauto

private theorem nodup_assign {entries : List (κ × ν)} (h : (entries.map Prod.fst).Nodup)
    (k : κ) (v : ν) : ((assign entries k v).map Prod.fst).Nodup := by
  induction entries with
  | nil => simp [assign]
  | cons e rest ih =>
    obtain ⟨i, w⟩ := e
    simp only [List.map_cons, List.nodup_cons] at h
    by_cases hi : i = k
    · subst hi
      simpa [assign] using h
    · simp only [assign, if_neg hi, List.map_cons, List.nodup_cons, mem_keys_assign]
      exact ⟨fun hm => hm.elim hi h.1, ih h.2⟩

/-- Store a value: an old key keeps its place, a new key goes last. -/
def set (d : Dict κ ν) (k : κ) (v : ν) : Dict κ ν :=
  ⟨assign d.entries k v, nodup_assign d.nodup k v⟩

/-- Keep only the entries whose key passes a test. -/
def filterKeys (d : Dict κ ν) (keep : κ → Bool) : Dict κ ν :=
  ⟨d.entries.filter fun e => keep e.1,
    d.nodup.sublist (List.filter_sublist.map Prod.fst)⟩

/-- Remove a key. -/
def erase (d : Dict κ ν) (k : κ) : Dict κ ν := d.filterKeys fun j => decide (j ≠ k)

private theorem lookup_assign (entries : List (κ × ν)) (k : κ) (v : ν) (j : κ) :
    (assign entries k v).lookup j = if j = k then some v else entries.lookup j := by
  induction entries with
  | nil => by_cases h : j = k <;> simp [assign, List.lookup_cons, beq_eq_decide, h]
  | cons e rest ih =>
    obtain ⟨i, w⟩ := e
    by_cases hi : i = k
    · subst hi
      by_cases hj : j = i <;> simp [assign, List.lookup_cons, beq_eq_decide, hj]
    · by_cases hj : j = i
      · subst hj
        simp [assign, hi]
      · simp [assign, hi, List.lookup_cons, beq_eq_decide, hj, ih]

private theorem lookup_filterKeys (entries : List (κ × ν)) (keep : κ → Bool) (k : κ) :
    (entries.filter fun e => keep e.1).lookup k =
      if keep k then entries.lookup k else none := by
  induction entries with
  | nil => simp
  | cons e rest ih =>
    obtain ⟨i, w⟩ := e
    by_cases hk : k = i
    · subst hk
      by_cases h : keep k <;> simp [h, ih]
    · have hne : (k == i) = false := by simpa using hk
      by_cases hi : keep i <;> simp [hi, List.lookup_cons, ih, hne]

/-- Nothing is in an empty dictionary. -/
@[simp] theorem get?_empty (k : κ) : (empty : Dict κ ν).get? k = none := rfl

/-- A value is found under the key that it was set for. -/
@[simp] theorem get?_set_self (d : Dict κ ν) (k : κ) (v : ν) : (d.set k v).get? k = some v := by
  simp [get?, set, lookup_assign]

variable {k : κ} {α : Type} {key : ν → κ} {items : List ν}

/-- Setting a key leaves the others. -/
theorem get?_set_of_ne (d : Dict κ ν) {j : κ} (v : ν) (h : j ≠ k) :
    (d.set k v).get? j = d.get? j := by
  simp [get?, set, lookup_assign, h]

/-- What is found after a key was set. -/
theorem get?_set (d : Dict κ ν) (k : κ) (v : ν) (j : κ) :
    (d.set k v).get? j = if j = k then some v else d.get? j :=
  lookup_assign d.entries k v j

/-- Values that are set one after another: the last one of a key counts. -/
theorem get?_foldl_set (key : α → κ) (value : α → ν) (items : List α) (d : Dict κ ν)
    (k : κ) : (items.foldl (fun d x => d.set (key x) (value x)) d).get? k =
      ((items.reverse.find? fun x => decide (key x = k)).map value).or (d.get? k) := by
  induction items generalizing d with
  | nil => rfl
  | cons x items ih =>
    rw [List.foldl_cons, ih, List.reverse_cons, List.find?_append, get?_set]
    cases items.reverse.find? fun x => decide (key x = k) with
    | some y => rfl
    | none =>
      by_cases hk : k = key x
      · subst hk
        simp
      · have hkey : ¬ key x = k := fun h => hk h.symm
        simp [hk, hkey]

/-- A value that was set under a key. -/
theorem of_get?_foldl_set {α : Type} {key : α → κ} {value : α → ν} {items : List α} {k : κ}
    {v : ν} (h : (items.foldl (fun d x => d.set (key x) (value x)) empty).get? k = some v) :
    ∃ x ∈ items, key x = k ∧ value x = v := by
  rw [get?_foldl_set, get?_empty, Option.or_none, Option.map_eq_some_iff] at h
  obtain ⟨x, hfind, hvalue⟩ := h
  exact ⟨x, List.mem_reverse.mp (List.mem_of_find?_eq_some hfind),
    of_decide_eq_true (List.find?_some hfind :), hvalue⟩

/-- Under distinct keys each value is found. -/
theorem get?_foldl_set_of_mem {key : α → κ} (value : α → ν) {items : List α}
    (hnodup : (items.map key).Nodup) {x : α} (hx : x ∈ items) :
    (items.foldl (fun d x => d.set (key x) (value x)) empty).get? (key x) = some (value x) := by
  rw [get?_foldl_set, get?_empty, Option.or_none, Option.map_eq_some_iff]
  cases hfind : items.reverse.find? fun y => decide (key y = key x) with
  | none =>
    have hnone := List.find?_eq_none.mp hfind x (List.mem_reverse.mpr hx)
    exact absurd (decide_eq_true rfl) hnone
  | some y =>
    have hy := List.mem_reverse.mp (List.mem_of_find?_eq_some hfind)
    have hkey : key y = key x := of_decide_eq_true (List.find?_some hfind :)
    have hsame := List.inj_on_of_nodup_map hnodup hy hx hkey
    exact ⟨y, rfl, by rw [hsame]⟩

/-- A key that was set has a value. -/
theorem get?_foldl_set_isSome {key : α → κ} (value : α → ν) {items : List α}
    {x : α} (hx : x ∈ items) :
    ((items.foldl (fun d x => d.set (key x) (value x)) empty).get? (key x)).isSome := by
  rw [get?_foldl_set, get?_empty, Option.or_none, Option.isSome_map, List.find?_isSome]
  exact ⟨x, List.mem_reverse.mpr hx, decide_eq_true rfl⟩

private theorem assign_assign (entries : List (κ × ν)) (k : κ) (v w : ν) :
    assign (assign entries k v) k w = assign entries k w := by
  induction entries with
  | nil => simp [assign]
  | cons e rest ih =>
    obtain ⟨i, u⟩ := e
    by_cases hi : i = k
    · simp [assign, hi]
    · simp [assign, hi, ih]

private theorem assign_lookup (entries : List (κ × ν)) (k : κ) (v : ν)
    (h : entries.lookup k = some v) : assign entries k v = entries := by
  induction entries with
  | nil => cases h
  | cons e rest ih =>
    obtain ⟨i, u⟩ := e
    by_cases hi : i = k
    · subst hi
      simp only [List.lookup_cons_self, Option.some.injEq] at h
      simp [assign, h]
    · have hne : (k == i) = false := by simpa using fun hk => hi hk.symm
      rw [List.lookup_cons, hne] at h
      simp [assign, hi, ih h]

private theorem assign_of_new (entries : List (κ × ν)) (k : κ) (v : ν)
    (h : entries.lookup k = none) : assign entries k v = entries ++ [(k, v)] := by
  induction entries with
  | nil => rfl
  | cons e rest ih =>
    obtain ⟨i, w⟩ := e
    by_cases hi : i = k
    · subst hi
      simp at h
    · have hne : (k == i) = false := by simpa using fun hk => hi hk.symm
      rw [List.lookup_cons, hne] at h
      simp [assign, hi, ih h]

/-- A new key goes last. -/
theorem entries_set_of_new (d : Dict κ ν) {v : ν} (h : d.get? k = none) :
    (d.set k v).entries = d.entries ++ [(k, v)] := assign_of_new d.entries k v h

/-- The last value stored under a key counts. -/
theorem set_set (d : Dict κ ν) (k : κ) (v w : ν) : (d.set k v).set k w = d.set k w := by
  obtain ⟨entries, hn⟩ := d
  simp only [set, assign_assign]

/-- Storing the value that is there changes nothing. -/
theorem set_get? (d : Dict κ ν) {v : ν} (h : d.get? k = some v) : d.set k v = d := by
  obtain ⟨entries, hn⟩ := d
  simp only [set, assign_lookup entries k v h]

/-- What is found after the keys were filtered. -/
theorem get?_filterKeys (d : Dict κ ν) (keep : κ → Bool) (k : κ) :
    (d.filterKeys keep).get? k = if keep k then d.get? k else none :=
  lookup_filterKeys d.entries keep k

/-- Nothing is found under an erased key. -/
@[simp] theorem get?_erase_self (d : Dict κ ν) (k : κ) : (d.erase k).get? k = none := by
  simp [erase, get?_filterKeys]

/-- Erasing a key leaves the others. -/
theorem get?_erase_of_ne (d : Dict κ ν) {j : κ} (h : j ≠ k) :
    (d.erase k).get? j = d.get? j := by
  simp [erase, get?_filterKeys, h]

/-- The entries are the graph of the lookup. -/
theorem get?_eq_some_iff (d : Dict κ ν) (k : κ) (v : ν) :
    d.get? k = some v ↔ (k, v) ∈ d.entries := by
  obtain ⟨entries, hn⟩ := d
  simp only [get?]
  induction entries with
  | nil => simp
  | cons e rest ih =>
    obtain ⟨i, w⟩ := e
    simp only [List.map_cons, List.nodup_cons] at hn
    by_cases h : k = i
    · subst h
      have hk : (k, v) ∉ rest := fun hm => hn.1 (List.mem_map_of_mem (f := Prod.fst) hm)
      simp [hk, eq_comm]
    · have hne : (k == i) = false := by simpa using h
      simp [List.lookup_cons, hne, h, ih hn.2]

/-- The keys are those under which something is found. -/
theorem mem_keys_iff (d : Dict κ ν) (k : κ) : k ∈ d.keys ↔ ∃ v, d.get? k = some v := by
  simp [keys, get?_eq_some_iff]

/-- The values are those that are found. -/
theorem mem_values_iff (d : Dict κ ν) (v : ν) : v ∈ d.values ↔ ∃ k, d.get? k = some v := by
  simp [values, get?_eq_some_iff]

/-- Add an item to the group of its key. -/
def addToGroup (key : ν → κ) (groups : Dict κ (List ν)) (item : ν) : Dict κ (List ν) :=
  groups.set (key item) ((groups.get? (key item)).getD [] ++ [item])

/-- Items by key, in the order in which the keys and the items occur. -/
def groupBy (key : ν → κ) (items : List ν) : Dict κ (List ν) :=
  items.foldl (addToGroup key) empty

/-- No items have no groups. -/
@[simp] theorem groupBy_nil (key : ν → κ) : groupBy key [] = empty := rfl

/-- A group holds items only. -/
theorem mem_of_mem_groupBy {group : List ν} {item : ν}
    (h : (k, group) ∈ (groupBy key items).entries) (hi : item ∈ group) : item ∈ items := by
  have hget := (get?_eq_some_iff _ _ _).mpr h
  clear h
  induction items using List.reverseRecOn generalizing k group with
  | nil => cases hget
  | append_singleton items x ih =>
    rw [groupBy, List.foldl_append, List.foldl_cons, List.foldl_nil] at hget
    change (addToGroup key (groupBy key items) x).get? k = some group at hget
    rw [addToGroup, get?_set] at hget
    split at hget
    · cases hget
      rw [List.mem_append, List.mem_singleton] at hi
      rcases hi with hi | rfl
      · cases hold : (groupBy key items).get? (key x) with
        | none => simp [hold] at hi
        | some old =>
          rw [hold] at hi
          exact List.mem_append_left _ (ih hi hold)
      · exact List.mem_append_right _ (List.mem_singleton_self _)
    · exact List.mem_append_left _ (ih hi hget)

/-- Items with one key form one group. -/
theorem groupBy_entries (hne : items ≠ [])
    (h : ∀ x ∈ items, key x = k) : (groupBy key items).entries = [(k, items)] := by
  induction items using List.reverseRecOn with
  | nil => exact absurd rfl hne
  | append_singleton items x ih =>
    have hx : key x = k := h x (by simp)
    rw [groupBy, List.foldl_append, List.foldl_cons, List.foldl_nil]
    change (addToGroup key (groupBy key items) x).entries = _
    by_cases hnil : items = []
    · subst hnil
      simp [addToGroup, set, assign, get?, empty, hx]
    · have hi := ih hnil fun y hy => h y (by simp [hy])
      simp [addToGroup, set, assign, get?, hi, hx]

/-- The dictionary finds the items of a list under their keys. -/
def Indexes (d : Dict κ ν) (key : ν → κ) (items : List ν) : Prop :=
  ∀ k v, d.get? k = some v ↔ v ∈ items ∧ key v = k

/-- An empty dictionary indexes nothing. -/
theorem Indexes.empty (key : ν → κ) : (Dict.empty : Dict κ ν).Indexes key [] := by
  intro k v
  simp

/-- Nothing is found where no item has the key. -/
theorem Indexes.get?_eq_none {d : Dict κ ν}
    (h : d.Indexes key items) : d.get? k = none ↔ ∀ v ∈ items, key v ≠ k := by
  constructor
  · intro hnone v hv hk
    cases hnone.symm.trans ((h k v).mpr ⟨hv, hk⟩)
  · intro hkeys
    cases hd : d.get? k with
    | none => rfl
    | some v =>
      obtain ⟨hv, hk⟩ := (h k v).mp hd
      exact absurd hk (hkeys v hv)

/-- An item under a new key. -/
theorem Indexes.concat {d : Dict κ ν} {key : ν → κ} {items : List ν} (h : d.Indexes key items)
    {item : ν} (hnew : ∀ v ∈ items, key v ≠ key item) :
    (d.set (key item) item).Indexes key (items ++ [item]) := by
  intro k v
  rw [get?_set, List.mem_append, List.mem_singleton]
  split
  · next hk =>
    constructor
    · intro hv
      obtain rfl := Option.some.inj hv
      exact ⟨.inr rfl, hk.symm⟩
    · rintro ⟨hv | rfl, hkey⟩
      · exact absurd (hkey.trans hk) (hnew v hv)
      · rfl
  · next hk =>
    rw [h k v]
    constructor
    · rintro ⟨hv, hkey⟩
      exact ⟨.inl hv, hkey⟩
    · rintro ⟨hv | rfl, hkey⟩
      · exact ⟨hv, hkey⟩
      · exact absurd hkey.symm hk

end Dict

end AwesomeAgent
