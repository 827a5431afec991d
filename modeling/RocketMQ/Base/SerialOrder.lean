import Mathlib.Algebra.Order.Group.Int
import Mathlib.Data.Fintype.Card
import Mathlib.Data.Int.Interval
import Mathlib.Data.Set.Finite.Lattice
import Mathlib.Tactic.Common

/-!
# Orders that a comparison and a serial number make

General library: what a set can be sorted by. A comparison of keys sorts a set where what is left
to say sorts each class of equal keys. Serial numbers are compared by the sign of their difference
as a number of `2 * h` values; this is an order exactly where the numbers are all on one half of
the circle, since then one of them is the first.
-/

namespace RocketMQ.Base

universe u

variable {α : Type u}

/-- One of three statements holds, and no two of them. -/
def ExactlyOne (p q r : Prop) : Prop := (p ∨ q ∨ r) ∧ ¬ (p ∧ q) ∧ ¬ (p ∧ r) ∧ ¬ (q ∧ r)

/-- On a set, `lt` is a strict order, and any two elements are less, greater or equal. -/
structure StrictlyOrders (lt eq : α → α → Prop) (S : Set α) : Prop where
  irrefl : ∀ a ∈ S, ¬ lt a a
  trans : ∀ a ∈ S, ∀ b ∈ S, ∀ c ∈ S, lt a b → lt b c → lt a c
  exactlyOne : ∀ a ∈ S, ∀ b ∈ S, ExactlyOne (lt a b) (lt b a) (eq a b)

namespace StrictlyOrders

variable {lt lt' eq : α → α → Prop} {S T : Set α}

theorem mono (h : StrictlyOrders lt eq T) (hsub : S ⊆ T) : StrictlyOrders lt eq S where
  irrefl a ha := h.irrefl a (hsub ha)
  trans a ha b hb c hc := h.trans a (hsub ha) b (hsub hb) c (hsub hc)
  exactlyOne a ha b hb := h.exactlyOne a (hsub ha) b (hsub hb)

theorem congr (h : StrictlyOrders lt eq S) (hlt : ∀ a ∈ S, ∀ b ∈ S, (lt' a b ↔ lt a b)) :
    StrictlyOrders lt' eq S where
  irrefl a ha := by
    rw [hlt a ha a ha]
    exact h.irrefl a ha
  trans a ha b hb c hc := by
    rw [hlt a ha b hb, hlt b hb c hc, hlt a ha c hc]
    exact h.trans a ha b hb c hc
  exactlyOne a ha b hb := by
    rw [hlt a ha b hb, hlt b hb a ha]
    exact h.exactlyOne a ha b hb

/-- The elements can be put into order in one way only. -/
theorem eq_of_mem_iff (h : StrictlyOrders lt eq S) {l₁ l₂ : List α} (hS : ∀ a ∈ l₁, a ∈ S)
    (h₁ : l₁.Pairwise lt) (h₂ : l₂.Pairwise lt) (hmem : ∀ a, a ∈ l₁ ↔ a ∈ l₂) : l₁ = l₂ := by
  have hnodup : ∀ l : List α, (∀ a ∈ l, a ∈ S) → l.Pairwise lt → l.Nodup := by
    intro l hl hsorted
    apply hsorted.imp_of_mem
    intro a b ha _ hlt he
    rw [← he] at hlt
    exact h.irrefl a (hl a ha) hlt
  have hperm : l₁.Perm l₂ := (List.perm_ext_iff_of_nodup (hnodup l₁ hS h₁)
    (hnodup l₂ (fun a ha ↦ hS a ((hmem a).mpr ha)) h₂)).mpr hmem
  apply hperm.eq_of_pairwise _ h₁ h₂
  intro a b ha hb hab hba
  exact absurd ⟨hab, hba⟩ (h.exactlyOne a (hS a ha) b (hS b ((hmem b).mpr hb))).2.1

end StrictlyOrders

/-! ### A comparison first -/

section Comparison

variable {cmp : α → α → Ordering} {lt eq : α → α → Prop} {S : Set α} {a b : α}

/-- Less by the comparison, or by `lt` where the comparison finds them alike. -/
def compareFirst (cmp : α → α → Ordering) (lt : α → α → Prop) (a b : α) : Prop :=
  cmp a b = .lt ∨ cmp a b = .eq ∧ lt a b

theorem compareFirst_of_eq (h : cmp a b = .eq) : compareFirst cmp lt a b ↔ lt a b := by
  simp [compareFirst, h]

/-- The elements of a set that a comparison finds like one of them. -/
def alike (cmp : α → α → Ordering) (S : Set α) (a : α) : Set α := {b ∈ S | cmp a b = .eq}

variable [Std.TransCmp cmp]

/-- Where equal elements are alike, a set is ordered exactly when its classes are. -/
theorem strictlyOrders_compareFirst (heq : ∀ a ∈ S, ∀ b ∈ S, eq a b → cmp a b = .eq) :
    StrictlyOrders (compareFirst cmp lt) eq S ↔
      ∀ a ∈ S, StrictlyOrders lt eq (alike cmp S a) := by
  constructor
  · intro h a ha
    apply (h.mono (Set.sep_subset S _)).congr
    intro b hb c hc
    exact (compareFirst_of_eq (Std.TransCmp.eq_trans (Std.OrientedCmp.eq_symm hb.2) hc.2)).symm
  · intro h
    have hself : ∀ a, cmp a a = .eq := fun a ↦ Std.ReflCmp.compare_self
    refine ⟨?_, ?_, ?_⟩
    · intro a ha
      rw [compareFirst_of_eq (hself a)]
      exact (h a ha).irrefl a ⟨ha, hself a⟩
    · rintro a ha b hb c hc (hab | ⟨hab, hlt⟩) (hbc | ⟨hbc, hlt'⟩)
      · exact .inl (Std.TransCmp.lt_trans hab hbc)
      · exact .inl (Std.TransCmp.lt_of_lt_of_eq hab hbc)
      · exact .inl (Std.TransCmp.lt_of_eq_of_lt hab hbc)
      · have hac : cmp a c = .eq := Std.TransCmp.eq_trans hab hbc
        exact .inr ⟨hac, (h a ha).trans a ⟨ha, hself a⟩ b ⟨hb, hab⟩ c ⟨hc, hac⟩ hlt hlt'⟩
    · intro a ha b hb
      cases hab : cmp a b with
      | lt =>
        have hba : cmp b a = .gt := Std.OrientedCmp.gt_of_lt hab
        have hne : ¬ eq a b := fun he ↦ by simp [heq a ha b hb he] at hab
        simp [ExactlyOne, compareFirst, hab, hba, hne]
      | gt =>
        have hba : cmp b a = .lt := Std.OrientedCmp.lt_of_gt hab
        have hne : ¬ eq a b := fun he ↦ by simp [heq a ha b hb he] at hab
        simp [ExactlyOne, compareFirst, hab, hba, hne]
      | eq =>
        rw [compareFirst_of_eq hab, compareFirst_of_eq (Std.OrientedCmp.eq_symm hab)]
        exact (h a ha).exactlyOne a ⟨ha, hself a⟩ b ⟨hb, hab⟩

end Comparison

/-! ### Serial numbers -/

section Serial

variable {h : Nat} {m x y : Int}

/-- Less by the sign of the difference, taken as a signed number of `2 * h` values. -/
def serialLt (h : Nat) (x y : Int) : Prop := (x - y).bmod (2 * h) < 0

/-- All numbers are less than half a turn ahead of one point of the circle. -/
def OnArc (h : Nat) (I : Set Int) : Prop := ∃ m, ∀ x ∈ I, (x - m) % (2 * h) < h

/-- It is so exactly where the difference, brought into one turn, is at least half of it. -/
theorem serialLt_iff (hh : 0 < h) : serialLt h x y ↔ (h : Int) ≤ (x - y) % (2 * h) := by
  have hlow : 0 ≤ (x - y) % (2 * h : Int) := Int.emod_nonneg _ (by omega)
  have hhigh : (x - y) % (2 * h : Int) < 2 * h := Int.emod_lt_of_pos _ (by omega)
  rw [serialLt, Int.bmod_def]
  push_cast
  split
  all_goals omega

theorem not_serialLt_self (x : Int) : ¬ serialLt h x x := by
  simp [serialLt]

/-- On an arc the order is that of the distances from its beginning. -/
theorem serialLt_iff_of_arc (hh : 0 < h) (hx : (x - m) % (2 * h) < h)
    (hy : (y - m) % (2 * h) < h) :
    serialLt h x y ↔ (x - m) % (2 * h) < (y - m) % (2 * h) := by
  have hdiff : (x - y) % (2 * h) = ((x - m) % (2 * h) - (y - m) % (2 * h)) % (2 * h : Int) := by
    rw [← Int.sub_emod, sub_sub_sub_cancel_right]
  have hlowx : 0 ≤ (x - m) % (2 * h : Int) := Int.emod_nonneg _ (by omega)
  have hlowy : 0 ≤ (y - m) % (2 * h : Int) := Int.emod_nonneg _ (by omega)
  rw [serialLt_iff hh, hdiff]
  generalize (x - m) % (2 * h : Int) = r at *
  generalize (y - m) % (2 * h : Int) = q at *
  rcases lt_or_ge r q with hlt | hge
  · rw [← Int.add_emod_right, Int.emod_eq_of_lt (by omega) (by omega)]
    omega
  · rw [Int.emod_eq_of_lt (by omega) (by omega)]
    omega

/-- A finite set on which the order is transitive has a first number, and the arc begins there. -/
theorem onArc_of_trans (hh : 0 < h) {I : Set Int} (hfin : I.Finite)
    (htrans : ∀ x ∈ I, ∀ y ∈ I, ∀ z ∈ I, serialLt h x y → serialLt h y z → serialLt h x z) :
    OnArc h I := by
  rcases I.eq_empty_or_nonempty with rfl | ⟨a, ha⟩
  · exact ⟨0, by simp⟩
  · have hfinite : Finite I := hfin.to_subtype
    have hisTrans : IsTrans I fun x y ↦ serialLt h x y :=
      ⟨fun x y z ↦ htrans x x.2 y y.2 z z.2⟩
    have hirrefl : Std.Irrefl fun x y : I ↦ serialLt h x y := ⟨fun x ↦ not_serialLt_self _⟩
    obtain ⟨m, -, hfirst⟩ := (Finite.wellFounded_of_trans_of_irrefl
      fun x y : I ↦ serialLt h x y).has_min Set.univ ⟨⟨a, ha⟩, trivial⟩
    refine ⟨m, fun x hx ↦ ?_⟩
    have hnot := hfirst ⟨x, hx⟩ trivial
    rw [serialLt_iff hh] at hnot
    exact lt_of_not_ge hnot

end Serial

/-! ### Elements that carry serial numbers -/

section Numbered

variable {h : Nat} {num : α → Int} {eq : α → α → Prop} {S : Set α}

/-- The number that comes first among them begins the arc. -/
theorem StrictlyOrders.onArc (hh : 0 < h) (hnear : ∀ a ∈ S, ∀ b ∈ S, num a - num b < 2 * h)
    (hord : StrictlyOrders (fun a b ↦ serialLt h (num a) (num b)) eq S) :
    OnArc h (num '' S) := by
  apply onArc_of_trans hh
  · rcases S.eq_empty_or_nonempty with rfl | ⟨a, ha⟩
    · simp
    · apply (Set.finite_Icc (num a - 2 * h) (num a + 2 * h)).subset
      rintro - ⟨b, hb, rfl⟩
      have hab := hnear a ha b hb
      have hba := hnear b hb a ha
      exact ⟨by omega, by omega⟩
  · rintro - ⟨a, ha, rfl⟩ - ⟨b, hb, rfl⟩ - ⟨c, hc, rfl⟩
    exact hord.trans a ha b hb c hc

/-- Numbers that are apart by less than a turn are as far from a point only if they are equal. -/
theorem eq_of_sub_emod_eq {m x y : Int} (hxy : x - y < 2 * h) (hyx : y - x < 2 * h)
    (hsame : (x - m) % (2 * h) = (y - m) % (2 * h)) : x = y := by
  have hdvd : (2 * h : Int) ∣ x - y := by
    rw [← sub_sub_sub_cancel_right x y m]
    exact Int.dvd_of_emod_eq_zero (Int.emod_eq_emod_iff_emod_sub_eq_zero.mp hsame)
  have hzero := Int.eq_zero_of_abs_lt_dvd hdvd (abs_lt.mpr ⟨by omega, hxy⟩)
  omega

/-- On an arc the distances from its beginning order the elements. -/
theorem strictlyOrders_of_onArc (hh : 0 < h)
    (hnear : ∀ a ∈ S, ∀ b ∈ S, num a - num b < 2 * h)
    (heq : ∀ a ∈ S, ∀ b ∈ S, (num a = num b ↔ eq a b)) (harc : OnArc h (num '' S)) :
    StrictlyOrders (fun a b ↦ serialLt h (num a) (num b)) eq S := by
  obtain ⟨m, hm⟩ := harc
  have hord : StrictlyOrders (fun a b ↦ (num a - m) % (2 * h) < (num b - m) % (2 * h)) eq S := by
    refine ⟨fun a _ ↦ lt_irrefl _, fun a _ b _ c _ ↦ lt_trans, fun a ha b hb ↦ ?_⟩
    have hsame : (num a - m) % (2 * h) = (num b - m) % (2 * h) ↔ num a = num b :=
      ⟨eq_of_sub_emod_eq (hnear a ha b hb) (hnear b hb a ha), fun hnum ↦ by rw [hnum]⟩
    rw [ExactlyOne, ← heq a ha b hb, ← hsame]
    omega
  apply hord.congr
  intro a ha b hb
  exact serialLt_iff_of_arc hh (hm _ ⟨a, ha, rfl⟩) (hm _ ⟨b, hb, rfl⟩)

/-- Elements that carry numbers within one turn of each other are ordered by them exactly when
different elements have different numbers and all numbers are on an arc. -/
theorem strictlyOrders_serialLt (hh : 0 < h)
    (hnear : ∀ a ∈ S, ∀ b ∈ S, num a - num b < 2 * h)
    (heq : ∀ a ∈ S, ∀ b ∈ S, eq a b → num a = num b) :
    StrictlyOrders (fun a b ↦ serialLt h (num a) (num b)) eq S ↔
      (∀ a ∈ S, ∀ b ∈ S, num a = num b → eq a b) ∧ OnArc h (num '' S) := by
  constructor
  · intro hord
    refine ⟨fun a ha b hb hnum ↦ ?_, hord.onArc hh hnear⟩
    have hone := (hord.exactlyOne a ha b hb).1
    rw [hnum, or_iff_right (not_serialLt_self _), or_iff_right (not_serialLt_self _)] at hone
    exact hone
  · rintro ⟨hinj, harc⟩
    apply strictlyOrders_of_onArc hh hnear _ harc
    exact fun a ha b hb ↦ ⟨hinj a ha b hb, heq a ha b hb⟩

end Numbered

end RocketMQ.Base
