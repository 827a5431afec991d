import Mathlib.Algebra.Group.Nat.Defs
import Mathlib.Data.List.Basic
import Mathlib.Tactic.Common

/-!
# Decimal numbers as bytes

General library: the decimal digits of a number as a stream writes them, and the number that
digits stand for. Core's `Nat.toDigits` and `Nat.ofDigitChars` do the work on characters.
-/

namespace RocketMQ.Base

/-- `0` to `9`. -/
def isDigit (b : UInt8) : Bool := 48 ≤ b && b ≤ 57

/-- The number that digits stand for. -/
def digitsValue (ds : List UInt8) : Nat := ds.foldl (fun n b ↦ 10 * n + (b.toNat - 48)) 0

/-- The digits of a number, without leading zeros. -/
def natDigits (n : Nat) : List UInt8 := (Nat.toDigits 10 n).map fun c ↦ UInt8.ofNat c.toNat

/-- An integer with its sign. -/
def intDigits : Int → List UInt8
  | .ofNat n => natDigits n
  | .negSucc n => 45 :: natDigits (n + 1)

private theorem toNat_of_isDigit {c : Char} (h : c.isDigit) :
    48 ≤ c.toNat ∧ c.toNat ≤ 57 := by
  simp only [Char.isDigit, Bool.and_eq_true, decide_eq_true_eq] at h
  exact h

theorem isDigit_of_mem_natDigits {n : Nat} {b : UInt8} (h : b ∈ natDigits n) : isDigit b := by
  obtain ⟨c, hc, rfl⟩ := List.mem_map.mp h
  obtain ⟨hlow, hhigh⟩ := toNat_of_isDigit (Nat.isDigit_of_mem_toDigits (by decide) (by decide) hc)
  simp only [isDigit, Bool.and_eq_true, decide_eq_true_eq, UInt8.le_iff_toNat_le,
    UInt8.toNat_ofNat']
  rw [Nat.mod_eq_of_lt (by omega)]
  exact ⟨hlow, hhigh⟩

theorem natDigits_ne_nil (n : Nat) : natDigits n ≠ [] := by
  rw [natDigits, ne_eq, List.map_eq_nil_iff]
  exact Nat.toDigits_ne_nil

/-- Digits stand for the number they were written for. -/
@[simp] theorem digitsValue_natDigits (n : Nat) : digitsValue (natDigits n) = n := by
  rw [digitsValue, natDigits, List.foldl_map]
  have hdigits : ∀ c ∈ Nat.toDigits 10 n, (UInt8.ofNat c.toNat).toNat = c.toNat := by
    intro c hc
    have hbound := toNat_of_isDigit (Nat.isDigit_of_mem_toDigits (by decide) (by decide) hc)
    rw [UInt8.toNat_ofNat', Nat.mod_eq_of_lt (by omega)]
  have hvalue := Nat.ofDigitChars_ten_toDigits (n := n)
  rw [Nat.ofDigitChars_eq_foldl] at hvalue
  refine Eq.trans (List.foldl_ext _ _ _ fun m c hc ↦ ?_) hvalue
  rw [hdigits c hc]
  rfl

/-- Only zero starts with a zero. -/
theorem natDigits_eq_of_zero {n : Nat} {ds : List UInt8} (h : natDigits n = 48 :: ds) :
    ds = [] := by
  induction n using Nat.strongRecOn generalizing ds with
  | ind n ih =>
    rw [natDigits, Nat.toDigits_eq_if (by decide)] at h
    split_ifs at h with hlt
    · exact (List.cons.inj h).2.symm
    · -- the digits of `n / 10` do not start with a zero, as that is not zero
      exfalso
      rw [List.map_append] at h
      change natDigits (n / 10) ++ _ = _ at h
      cases hq : natDigits (n / 10) with
      | nil => exact natDigits_ne_nil _ hq
      | cons c cs =>
        rw [hq, List.cons_append] at h
        obtain ⟨rfl, -⟩ := List.cons.inj h
        have hcs := ih (n / 10) (by omega) hq
        have hzero := digitsValue_natDigits (n / 10)
        rw [hq, hcs] at hzero
        have : n / 10 = 0 := hzero.symm
        omega

private theorem foldl_digits_lt {ds : List UInt8} (h : ∀ b ∈ ds, isDigit b) (m : Nat) :
    ds.foldl (fun n b ↦ 10 * n + (b.toNat - 48)) m < (m + 1) * 10 ^ ds.length := by
  induction ds generalizing m with
  | nil =>
    rw [List.foldl_nil, List.length_nil, Nat.pow_zero, Nat.mul_one]
    exact Nat.lt_succ_self m
  | cons b ds ih =>
    have hb := h b List.mem_cons_self
    simp only [isDigit, Bool.and_eq_true, decide_eq_true_eq, UInt8.le_iff_toNat_le] at hb
    have hhigh : b.toNat ≤ 57 := hb.2
    rw [List.foldl_cons, List.length_cons, Nat.pow_succ', ← Nat.mul_assoc]
    apply Nat.lt_of_lt_of_le (ih (fun c hc ↦ h c (List.mem_cons_of_mem _ hc)) _)
    exact Nat.mul_le_mul_right _ (by omega)

/-- Writing a number that digits stand for takes no more digits. -/
theorem length_natDigits_digitsValue_le {ds : List UInt8} (hne : ds ≠ [])
    (h : ∀ b ∈ ds, isDigit b) : (natDigits (digitsValue ds)).length ≤ ds.length := by
  rw [natDigits, List.length_map,
    Nat.length_toDigits_le_iff (by decide) (List.length_pos_iff.mpr hne)]
  have hlt := foldl_digits_lt h 0
  rw [Nat.zero_add, Nat.one_mul] at hlt
  exact hlt

/-- An integer is at most its sign longer than its digits. -/
theorem length_intDigits_le (n : Nat) :
    (intDigits n).length ≤ (natDigits n).length ∧
      (intDigits (-n)).length ≤ (natDigits n).length + 1 := by
  refine ⟨Nat.le_refl _, ?_⟩
  cases n with
  | zero => exact Nat.le_succ _
  | succ n => exact Nat.le_refl _

end RocketMQ.Base
