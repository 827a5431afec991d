import Mathlib.Data.List.Nodup

/-!
# Sorting by a key

General library: `List.mergeSort` by a key is stable, so elements with one key keep their order.
That and the order of the keys say what the sorted list is. When no key occurs twice the order of
the list that is sorted does not matter.
-/

namespace RocketMQ.Base

universe u v

variable {α : Type u} {κ : Type v} [Ord κ]

/-- Elements compared by their keys. -/
def keyLE (key : α → κ) (a b : α) : Bool := (compare (key a) (key b)).isLE

/-- `s` has the elements of `l` in the order of their keys, those with one key as they stand in
`l`. -/
structure StableSortOf [DecidableEq κ] (key : α → κ) (l s : List α) : Prop where
  perm : s.Perm l
  sorted : s.Pairwise fun a b ↦ keyLE key a b
  stable : ∀ k, s.filter (fun a ↦ key a = k) = l.filter fun a ↦ key a = k

section KeySort

variable [Std.TransOrd κ] (key : α → κ) {l l' : List α}

theorem keyLE_trans (a b c : α) : keyLE key a b → keyLE key b c → keyLE key a c :=
  Std.TransCmp.isLE_trans

theorem keyLE_total (a b : α) : keyLE key a b || keyLE key b a := by
  rw [Bool.or_eq_true]
  by_cases hle : keyLE key a b = true
  · exact Or.inl hle
  · exact Or.inr (Ordering.isLE_of_eq_lt (Std.OrientedCmp.lt_of_not_isLE hle))

theorem pairwise_mergeSort_key (l : List α) :
    (l.mergeSort (keyLE key)).Pairwise fun a b ↦ keyLE key a b :=
  List.pairwise_mergeSort (keyLE_trans key) (keyLE_total key) l

/-- Lists without a key that occurs twice are sorted to one list exactly when they have the same
elements. -/
theorem mergeSort_eq_iff_perm [Std.LawfulEqOrd κ] (hkeys : (l.map key).Nodup) :
    l.mergeSort (keyLE key) = l'.mergeSort (keyLE key) ↔ l.Perm l' := by
  constructor
  · intro heq
    exact (List.mergeSort_perm l _).symm.trans (heq ▸ List.mergeSort_perm l' _)
  · intro hperm
    have hsorted : (l.mergeSort (keyLE key)).Perm (l'.mergeSort (keyLE key)) :=
      (List.mergeSort_perm l _).trans (hperm.trans (List.mergeSort_perm l' _).symm)
    apply hsorted.eq_of_pairwise _ (pairwise_mergeSort_key key l) (pairwise_mergeSort_key key l')
    intro a b ha hb hab hba
    have hkey : key a = key b := by
      apply Std.LawfulEqOrd.eq_of_compare
      exact Std.OrientedCmp.isLE_antisymm hab hba
    rw [List.mem_mergeSort] at ha hb
    exact List.inj_on_of_nodup_map hkeys ha (hperm.mem_iff.mpr hb) hkey

variable [DecidableEq κ]

/-- Sorting leaves the elements of one key in their order. -/
theorem filter_mergeSort (l : List α) (k : κ) :
    (l.mergeSort (keyLE key)).filter (fun a ↦ key a = k) = l.filter fun a ↦ key a = k := by
  have hsame : (l.filter fun a ↦ key a = k).Pairwise fun a b ↦ keyLE key a b := by
    rw [List.pairwise_iff_forall_sublist]
    intro a b hsub
    have ha : key a = k := by simpa using (List.mem_filter.mp (hsub.subset (by simp))).2
    have hb : key b = k := by simpa using (List.mem_filter.mp (hsub.subset (by simp))).2
    rw [keyLE, ha, hb, Std.ReflOrd.compare_self]
    rfl
  have hsub := (List.sublist_mergeSort (keyLE_trans key) (keyLE_total key) hsame
    List.filter_sublist).filter fun a ↦ key a = k
  rw [List.filter_filter] at hsub
  simp only [Bool.and_self] at hsub
  exact (hsub.eq_of_length ((List.mergeSort_perm l _).symm.filter _).length_eq).symm

theorem stableSortOf_mergeSort (l : List α) : StableSortOf key l (l.mergeSort (keyLE key)) :=
  ⟨List.mergeSort_perm l _, pairwise_mergeSort_key key l, filter_mergeSort key l⟩

end KeySort
end RocketMQ.Base
