import Mathlib.Data.List.Nodup
import Mathlib.Data.List.Perm.Basic

/-!
# Who holds what

General library: the things a system passes around, listed once for every holder that has
them. A step that hands a thing from one holder to another permutes the list, a step that
loses one takes it off. The rules below say what either does to "everything in use is held
exactly once".
-/

namespace RocketMQ.Base

universe u v

variable {ι : Type u} [DecidableEq ι]

/-- Everything in use has exactly one holder. -/
def HeldOnce (inUse : ι → Prop) (holders : List ι) : Prop :=
  ∀ i, inUse i → holders.count i = 1

section Rules

variable {inUse inUse' : ι → Prop} {holders holders' : List ι} {i : ι}

/-- Handing over keeps the count, also when less is in use afterwards. -/
theorem HeldOnce.of_handover (h : HeldOnce inUse holders) (hperm : holders'.Perm holders)
    (huse : ∀ i, inUse' i → inUse i) : HeldOnce inUse' holders' := by
  intro j hj
  rw [hperm.count_eq, h j (huse j hj)]

/-- Losing something that is no longer in use does no harm. -/
theorem HeldOnce.of_loss (h : HeldOnce inUse holders) (hperm : holders.Perm (i :: holders'))
    (huse : ∀ i, inUse' i → inUse i) (hi : ¬ inUse' i) : HeldOnce inUse' holders' := by
  intro j hj
  have hne : i ≠ j := by
    rintro rfl
    exact hi hj
  rw [← h j (huse j hj), hperm.count_eq, List.count_cons_of_ne hne]

/-- Losing something in use leaves it without a holder. -/
theorem HeldOnce.not_of_loss (h : HeldOnce inUse holders)
    (hperm : holders.Perm (i :: holders')) (hi : inUse i) (hi' : inUse' i) :
    ¬ HeldOnce inUse' holders' := by
  intro h'
  have hcount := hperm.count_eq i
  rw [h i hi, List.count_cons_self, h' i hi'] at hcount
  omega

/-- Things nobody held before come into use with one holder each. -/
theorem HeldOnce.of_fresh (h : HeldOnce inUse holders) {fresh : List ι}
    (hperm : holders'.Perm (holders ++ fresh)) (hnodup : fresh.Nodup)
    (hnew : ∀ i ∈ fresh, i ∉ holders)
    (huse : ∀ i, inUse' i → i ∈ fresh ∨ inUse i ∧ i ∉ fresh) : HeldOnce inUse' holders' := by
  intro j hj
  rw [hperm.count_eq, List.count_append]
  rcases huse j hj with hmem | ⟨hold, hmem⟩
  · rw [List.count_eq_zero_of_not_mem (hnew j hmem), List.count_eq_one_of_mem hnodup hmem]
  · rw [h j hold, List.count_eq_zero_of_not_mem hmem]

end Rules

section Taking

variable {α : Type v} {x : α} {l : List α}

omit [DecidableEq ι] in
/-- What is taken out at a position. -/
theorem map_perm_eraseIdx (f : α → ι) {n : Nat} (h : l[n]? = some x) :
    (l.map f).Perm (f x :: (l.eraseIdx n).map f) := by
  obtain ⟨hn, rfl⟩ := List.getElem?_eq_some_iff.mp h
  exact ((List.getElem_cons_eraseIdx_perm hn).map f).symm

omit [DecidableEq ι] in
/-- What is taken out by a search. -/
theorem map_perm_eraseP (f : α → ι) {p : α → Bool} (h : l.find? p = some x) :
    (l.map f).Perm (f x :: (l.eraseP p).map f) := by
  induction l with
  | nil => simp at h
  | cons a l ih =>
    by_cases hp : p a = true
    · rw [List.find?_cons_of_pos hp] at h
      rw [List.eraseP_cons_of_pos hp, Option.some.inj h, List.map_cons]
    · rw [List.find?_cons_of_neg hp] at h
      rw [List.eraseP_cons_of_neg hp, List.map_cons, List.map_cons]
      exact ((ih h).cons _).trans (List.Perm.swap _ _ _)

end Taking
end RocketMQ.Base
