import Mathlib.Data.List.Sort
import Std.Data.ExtTreeMap.Lemmas

/-!
# Ordered maps whose values carry their own key

General library: an ordered map filled only by "put this value under its own key", as a
table of records indexed by one of their fields is. The agreement of keys and values is a
field of the structure, so no operation can break it. A map is observed through its keys
in ascending order; the laws below say how each operation changes that list.
-/

namespace RocketMQ.Base

universe u v

/-- An ordered map in which every value is stored under its own key. -/
structure KeyedMap {κ : Type u} {α : Type v} [Ord κ] [Std.TransOrd κ] (key : α → κ) where
  map : Std.ExtTreeMap κ α
  keyed : ∀ (k : κ) (a : α), map[k]? = some a → key a = k

namespace KeyedMap

/-! ### Observations -/

section Observations

variable {κ : Type u} {α : Type v} [Ord κ] [Std.TransOrd κ] {key : α → κ}

/-- The map without entries. -/
def empty : KeyedMap key := ⟨∅, fun k a h ↦ by simp at h⟩

/-- The stored values, by ascending key. -/
def values (m : KeyedMap key) : List α := m.map.toList.map Prod.snd

/-- The keys in ascending order. -/
def keys (m : KeyedMap key) : List κ := m.map.keys

/-- Number of entries. -/
def size (m : KeyedMap key) : Nat := m.map.size

/-- The value with the least key. -/
def first? (m : KeyedMap key) : Option α := m.values.head?

/-- The keys are strictly ascending. -/
theorem keys_sorted (m : KeyedMap key) : m.keys.Pairwise (compare · · = .lt) :=
  Std.ExtTreeMap.ordered_keys

/-- The number of keys is the number of entries. -/
theorem length_keys (m : KeyedMap key) : m.keys.length = m.size :=
  Std.ExtTreeMap.length_keys

private theorem sorted_nodup {ks : List κ} (h : ks.Pairwise (compare · · = .lt)) :
    ks.Nodup := by
  apply h.imp
  rintro a b hab rfl
  simp at hab

/-- No key occurs twice. -/
theorem nodup_keys (m : KeyedMap key) : m.keys.Nodup := sorted_nodup m.keys_sorted

/-- Strictly ascending lists with the same members are equal. -/
theorem sorted_ext {ks js : List κ} (hk : ks.Pairwise (compare · · = .lt))
    (hj : js.Pairwise (compare · · = .lt)) (h : ∀ k, k ∈ ks ↔ k ∈ js) : ks = js := by
  refine List.Perm.eq_of_pairwise (fun a b _ _ hab hba ↦ ?_) hk hj
    ((List.perm_ext_iff_of_nodup (sorted_nodup hk) (sorted_nodup hj)).mpr h)
  rw [Std.OrientedOrd.eq_swap, hba] at hab
  exact absurd hab (by decide)

/-- No key is in the empty map. -/
@[simp] theorem keys_empty : (empty : KeyedMap key).keys = [] := by
  simp [keys, empty]

/-- A keyed map without keys is the empty map. -/
theorem eq_empty_of_keys_eq_nil {m : KeyedMap key} (h : m.keys = []) : m = empty := by
  obtain ⟨t, ht⟩ := m
  have : t = ∅ := Std.ExtTreeMap.keys_eq_nil_iff.mp h
  subst this
  rfl

end Observations

/-! ### Operations -/

section Operations

variable {κ : Type u} {α : Type v} [Ord κ] [Std.TransOrd κ] [Std.LawfulEqOrd κ] {key : α → κ}

/-- Store a value under its own key, replacing what was there. -/
def put (m : KeyedMap key) (a : α) : KeyedMap key :=
  ⟨m.map.insert (key a) a, fun k b h ↦ by
    rw [Std.ExtTreeMap.getElem?_insert] at h
    split at h
    · next hk =>
      rw [← Option.some.inj h]
      exact Std.LawfulEqCmp.eq_of_compare hk
    · exact m.keyed k b h⟩

/-- Remove the entry of a key, if there is one. -/
def erase (m : KeyedMap key) (k : κ) : KeyedMap key :=
  ⟨m.map.erase k, fun j b h ↦ by
    rw [Std.ExtTreeMap.getElem?_erase] at h
    split at h
    · exact absurd h (by simp)
    · exact m.keyed j b h⟩

/-- Store all values of a list, from left to right. -/
def putAll (m : KeyedMap key) (as : List α) : KeyedMap key := as.foldl put m

/-- Remove the entries of all keys of a list. -/
def eraseAll (m : KeyedMap key) (ks : List κ) : KeyedMap key := ks.foldl erase m

/-- The keys of a keyed map are the keys of its values. -/
theorem map_key_values (m : KeyedMap key) : m.values.map key = m.keys := by
  rw [keys, values, ← Std.ExtTreeMap.map_fst_toList_eq_keys, List.map_map]
  apply List.map_congr_left
  rintro ⟨k, a⟩ h
  exact m.keyed k a (Std.ExtTreeMap.mem_toList_iff_getElem?_eq_some.mp h)

/-- Putting a value adds its key. -/
@[simp] theorem mem_keys_put {m : KeyedMap key} {a : α} {k : κ} :
    k ∈ (m.put a).keys ↔ k = key a ∨ k ∈ m.keys := by
  rw [keys, keys, put, Std.ExtTreeMap.mem_keys, Std.ExtTreeMap.mem_keys,
    Std.ExtTreeMap.mem_insert, Std.LawfulEqCmp.compare_eq_iff_eq, eq_comm]

/-- Erasing removes the one key. -/
@[simp] theorem mem_keys_erase {m : KeyedMap key} {j k : κ} :
    k ∈ (m.erase j).keys ↔ k ≠ j ∧ k ∈ m.keys := by
  rw [keys, keys, erase, Std.ExtTreeMap.mem_keys, Std.ExtTreeMap.mem_keys,
    Std.ExtTreeMap.mem_erase, ne_eq, ne_eq, Std.LawfulEqCmp.compare_eq_iff_eq,
    eq_comm (a := j)]

/-- Putting a list adds its keys. -/
theorem mem_keys_putAll {m : KeyedMap key} {as : List α} {k : κ} :
    k ∈ (m.putAll as).keys ↔ k ∈ as.map key ∨ k ∈ m.keys := by
  induction as generalizing m with
  | nil => simp [putAll]
  | cons a as ih =>
    change k ∈ ((m.put a).putAll as).keys ↔ _
    rw [ih, mem_keys_put, List.map_cons, List.mem_cons]
    tauto

/-- Erasing a list removes its keys. -/
theorem mem_keys_eraseAll {m : KeyedMap key} {ks : List κ} {k : κ} :
    k ∈ (m.eraseAll ks).keys ↔ k ∉ ks ∧ k ∈ m.keys := by
  induction ks generalizing m with
  | nil => simp [eraseAll]
  | cons j ks ih =>
    change k ∈ ((m.erase j).eraseAll ks).keys ↔ _
    rw [ih, mem_keys_erase, List.mem_cons]
    tauto

/-- Erasing a list leaves the entries of the other keys. -/
theorem getElem?_eraseAll [DecidableEq κ] {m : KeyedMap key} {ks : List κ} {k : κ} :
    (m.eraseAll ks).map[k]? = if k ∈ ks then none else m.map[k]? := by
  induction ks generalizing m with
  | nil => simp [eraseAll]
  | cons j ks ih =>
    change ((m.erase j).eraseAll ks).map[k]? = _
    have herase : (m.erase j).map[k]? = if k = j then none else m.map[k]? := by
      simp only [erase, Std.ExtTreeMap.getElem?_erase, Std.LawfulEqCmp.compare_eq_iff_eq]
      simp only [eq_comm]
    rw [ih, herase]
    by_cases hrest : k ∈ ks
    · simp [hrest]
    · by_cases hj : k = j <;> simp [hrest, hj]

/-- Erasing different keys of the map takes out as many. -/
theorem keys_perm_eraseAll {m : KeyedMap key} {ks : List κ} (hn : ks.Nodup)
    (hks : ∀ k ∈ ks, k ∈ m.keys) : m.keys.Perm (ks ++ (m.eraseAll ks).keys) := by
  have hboth : (ks ++ (m.eraseAll ks).keys).Nodup := by
    apply List.nodup_append.mpr
    refine ⟨hn, nodup_keys _, ?_⟩
    rintro k hk _ hleft rfl
    exact (mem_keys_eraseAll.mp hleft).1 hk
  apply (List.perm_ext_iff_of_nodup m.nodup_keys hboth).mpr
  intro k
  rw [List.mem_append, mem_keys_eraseAll]
  by_cases hk : k ∈ ks
  · simp [hk, hks k hk]
  · simp [hk]

/-- The first value is absent exactly in the empty map. -/
theorem first?_eq_none_iff {m : KeyedMap key} : m.first? = none ↔ m.keys = [] := by
  rw [first?, List.head?_eq_none_iff, ← map_key_values, List.map_eq_nil_iff]

/-- Removing the first value leaves the remaining keys. -/
theorem keys_of_first? {m : KeyedMap key} {a : α} (h : m.first? = some a) :
    m.keys = key a :: (m.erase (key a)).keys := by
  obtain ⟨rest, hv⟩ : ∃ rest, m.values = a :: rest := List.head?_eq_some_iff.mp h
  have hk : m.keys = key a :: rest.map key := by rw [← map_key_values, hv, List.map_cons]
  have hs := keys_sorted m
  rw [hk] at hs
  have he : (m.erase (key a)).keys = rest.map key := by
    apply sorted_ext (keys_sorted _) (List.pairwise_cons.mp hs).2
    intro k
    rw [mem_keys_erase, hk, List.mem_cons]
    constructor
    · rintro ⟨hne, rfl | hm⟩
      · exact absurd rfl hne
      · exact hm
    · intro hm
      refine ⟨?_, Or.inr hm⟩
      rintro rfl
      have := (List.pairwise_cons.mp hs).1 _ hm
      simp at this
  rw [hk, he]

end Operations
end KeyedMap
end RocketMQ.Base
