import Mathlib.Data.List.Count
import Mathlib.Data.List.Nodup
import Mathlib.Tactic.Common

/-!
# Numbered items of several keys

General library: every element of a list contributes the items `0`, `1`, … of its key, as many
as it says. Up to order, such a list of items determines how many items the elements of each key
contribute.
-/

namespace RocketMQ.Base

universe u v w

variable {α : Type u} {κ : Type v}

/-- The items `0 … len a - 1` of the key of every element `a`. -/
def segments (key : α → κ) (len : α → Nat) (l : List α) : List (κ × Nat) :=
  l.flatMap fun a ↦ (List.range (len a)).map (key a, ·)

/-- Only the lengths and their keys count. -/
theorem segments_eq_flatMap (key : α → κ) (len : α → Nat) (l : List α) : segments key len l =
    (l.map fun a ↦ (key a, len a)).flatMap fun p ↦ (List.range p.2).map (p.1, ·) := by
  rw [segments, List.flatMap_map]

/-- Nothing comes of a length of zero. -/
theorem flatMap_filter_pos (pairs : List (κ × Nat)) :
    ((pairs.filter (0 < ·.2)).flatMap fun p ↦ (List.range p.2).map (p.1, ·)) =
      pairs.flatMap fun p ↦ (List.range p.2).map (p.1, ·) := by
  induction pairs with
  | nil => rfl
  | cons p pairs ih =>
    by_cases hp : 0 < p.2
    · have hkept : decide (0 < p.2) = true := decide_eq_true hp
      rw [List.filter_cons, hkept, if_pos rfl, List.flatMap_cons, List.flatMap_cons, ih]
    · have hzero : p.2 = 0 := by omega
      have hleft : decide (0 < p.2) = false := decide_eq_false hp
      rw [List.filter_cons, hleft, if_neg Bool.false_ne_true, ih, List.flatMap_cons, hzero]
      rfl

section Counts

variable [DecidableEq κ] {key : α → κ} {len len' : α → Nat} {l : List α}

theorem count_segment (k k' : κ) (n i : Nat) :
    ((List.range n).map (k', ·)).count (k, i) = if k' = k ∧ i < n then 1 else 0 := by
  have hnodup : ((List.range n).map (k', ·)).Nodup :=
    List.Nodup.map (fun _ _ h ↦ (Prod.ext_iff.mp h).2) List.nodup_range
  rw [hnodup.count]
  congr 1
  simp [eq_comm, and_comm]

/-- An item is there once for every element of its key that reaches it. -/
theorem count_segments (key : α → κ) (len : α → Nat) (l : List α) (k : κ) (i : Nat) :
    (segments key len l).count (k, i) = l.countP fun a ↦ key a = k ∧ i < len a := by
  induction l with
  | nil => rfl
  | cons a l ih =>
    rw [segments, List.flatMap_cons, List.count_append, count_segment, ← segments, ih,
      List.countP_cons, Nat.add_comm]
    simp only [decide_eq_true_eq]

theorem count_map_pair (key : α → κ) (len : α → Nat) (l : List α) (k : κ) (n : Nat) :
    (l.map fun a ↦ (key a, len a)).count (k, n) = l.countP fun a ↦ key a = k ∧ len a = n := by
  rw [List.count_eq_countP, List.countP_map]
  apply List.countP_congr
  intro a _
  simp

/-- The elements of a key that contribute at least `n` items, by whether they contribute more. -/
theorem countP_le_eq_add (key : α → κ) (len : α → Nat) (l : List α) (k : κ) (n : Nat) :
    (l.countP fun a ↦ key a = k ∧ n ≤ len a) =
      (l.countP fun a ↦ key a = k ∧ len a = n) + l.countP fun a ↦ key a = k ∧ n < len a := by
  induction l with
  | nil => rfl
  | cons a l ih =>
    simp only [List.countP_cons, decide_eq_true_eq]
    rw [ih]
    by_cases hkey : key a = k
    · simp only [hkey, true_and]
      split_ifs <;> omega
    · simp only [hkey, false_and, if_false]
      omega

/-- Two choices of lengths give the same items up to order exactly when they give the same
lengths, each with its key, up to order. -/
theorem segments_perm_iff :
    (segments key len l).Perm (segments key len' l) ↔
      (l.map fun a ↦ (key a, len a)).Perm (l.map fun a ↦ (key a, len' a)) := by
  constructor
  · intro hperm
    rw [List.perm_iff_count] at hperm ⊢
    simp only [Prod.forall, count_segments, count_map_pair] at hperm ⊢
    intro k n
    have hleast : (l.countP fun a ↦ key a = k ∧ n ≤ len a) =
        l.countP fun a ↦ key a = k ∧ n ≤ len' a := by
      cases n with
      | zero => simp only [Nat.zero_le]
      | succ n => exact hperm k n
    have hmore := hperm k n
    rw [countP_le_eq_add, countP_le_eq_add] at hleast
    omega
  · intro hperm
    rw [segments_eq_flatMap, segments_eq_flatMap]
    exact hperm.flatMap_right _

/-- Elements of any two lists give the same items up to order exactly when those that give any give
as many, each with its key, up to order. -/
theorem segments_perm_iff_filter {β : Type w} {key' : β → κ} {len' : β → Nat} {l' : List β} :
    (segments key len l).Perm (segments key' len' l') ↔
      ((l.map fun a ↦ (key a, len a)).filter (0 < ·.2)).Perm
        ((l'.map fun b ↦ (key' b, len' b)).filter (0 < ·.2)) := by
  constructor
  · intro hperm
    rw [List.perm_iff_count] at hperm ⊢
    rintro ⟨k, n⟩
    cases n with
    | zero =>
      have hnone (pairs : List (κ × Nat)) : (pairs.filter (0 < ·.2)).count (k, 0) = 0 :=
        List.count_eq_zero.mpr fun hmem ↦ by simp at hmem
      rw [hnone, hnone]
    | succ n =>
      have hleast := hperm (k, n)
      have hmore := hperm (k, n + 1)
      rw [count_segments, count_segments] at hleast hmore
      have hsplit := countP_le_eq_add key len l k (n + 1)
      have hsplit' := countP_le_eq_add key' len' l' k (n + 1)
      rw [List.count_filter (by simp), List.count_filter (by simp), count_map_pair,
        count_map_pair]
      simp only [Nat.succ_le_iff] at hsplit hsplit'
      omega
  · intro hperm
    have hitems := hperm.flatMap_right fun p ↦ (List.range p.2).map (p.1, ·)
    rwa [flatMap_filter_pos, flatMap_filter_pos, ← segments_eq_flatMap,
      ← segments_eq_flatMap] at hitems

end Counts
end RocketMQ.Base
