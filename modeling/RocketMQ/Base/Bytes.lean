import Mathlib.Data.List.Infix
import Mathlib.Tactic.Common
import Mathlib.Tactic.Positivity
import Mathlib.Tactic.Zify

/-!
# Big-endian numbers in byte strings

General library: numbers of a fixed width laid out with the most significant byte first, as
network formats have them, and reads of a window of a byte string that fail outside of it.
-/

namespace RocketMQ.Base

/-- The number that big-endian bytes stand for. -/
def beNat : List UInt8 → Nat
  | [] => 0
  | b :: bs => b.toNat * 256 ^ bs.length + beNat bs

/-- The last `w` big-endian bytes of a number. -/
def beBytes : Nat → Nat → List UInt8
  | 0, _ => []
  | w + 1, n => UInt8.ofNat (n / 256 ^ w) :: beBytes w n

/-- The number in two's complement. -/
def beInt (bs : List UInt8) : Int := (beNat bs : Int).bmod (256 ^ bs.length)

/-- The last `w` big-endian bytes of a number in two's complement. -/
def beIntBytes (w : Nat) (n : Int) : List UInt8 := beBytes w (n % 256 ^ w).toNat

/-! ### There and back -/

@[simp] theorem length_beBytes (w n : Nat) : (beBytes w n).length = w := by
  induction w with
  | zero => rfl
  | succ w ih => rw [beBytes, List.length_cons, ih]

@[simp] theorem length_beIntBytes (w : Nat) (n : Int) : (beIntBytes w n).length = w :=
  length_beBytes w _

/-- Writing keeps the number modulo the width. -/
theorem beNat_beBytes (w n : Nat) : beNat (beBytes w n) = n % 256 ^ w := by
  induction w with
  | zero => simp [beBytes, beNat, Nat.mod_one]
  | succ w ih =>
    have htop : (UInt8.ofNat (n / 256 ^ w)).toNat = n / 256 ^ w % 256 := UInt8.toNat_ofNat'
    rw [beBytes, beNat, ih, length_beBytes, htop, Nat.pow_succ, Nat.mod_mul, Nat.add_comm,
      Nat.mul_comm (256 ^ w)]

/-- What fits the width is read back. -/
theorem beNat_beBytes_of_lt {w n : Nat} (h : n < 256 ^ w) : beNat (beBytes w n) = n := by
  rw [beNat_beBytes, Nat.mod_eq_of_lt h]

/-- A number fits the width it is read from. -/
theorem beNat_lt (bs : List UInt8) : beNat bs < 256 ^ bs.length := by
  induction bs with
  | nil => decide
  | cons b bs ih =>
    have hb : (b.toNat + 1) * 256 ^ bs.length ≤ 256 * 256 ^ bs.length :=
      Nat.mul_le_mul_right _ b.toNat_lt
    rw [Nat.add_mul, Nat.one_mul] at hb
    rw [beNat, List.length_cons, Nat.pow_succ']
    omega

/-- What fits the width in two's complement is read back. -/
theorem beInt_beIntBytes {w : Nat} {n : Int} (hlow : -(256 ^ w : Nat) ≤ 2 * n)
    (hhigh : 2 * n < (256 ^ w : Nat)) : beInt (beIntBytes w n) = n := by
  have hpos : (0 : Int) < 256 ^ w := by positivity
  have hmod : 0 ≤ n % 256 ^ w := Int.emod_nonneg n hpos.ne'
  have hlt : (n % 256 ^ w).toNat < 256 ^ w := by
    have hn := Int.emod_lt_of_pos n hpos
    zify
    rwa [Int.toNat_of_nonneg hmod]
  rw [beInt, length_beIntBytes, beIntBytes, beNat_beBytes_of_lt hlt, Int.toNat_of_nonneg hmod]
  push_cast at hlow hhigh ⊢
  rw [show ((256 : Int) ^ w) = ((256 ^ w : Nat) : Int) by push_cast; rfl, Int.emod_bmod]
  apply Int.bmod_eq_of_le
  · push_cast
    omega
  · push_cast
    omega

/-! ### Windows -/

/-- `n` bytes from the position `off` on, which must all be inside. -/
def readAt (bs : List UInt8) (off : Int) (n : Nat) : Option (List UInt8) :=
  if 0 ≤ off ∧ off + n ≤ bs.length then some ((bs.drop off.toNat).take n) else none

/-- The window behind a known part is the part that comes next. -/
theorem readAt_append {pre mid post : List UInt8} {off : Int} {n : Nat}
    (hoff : off = pre.length) (hn : n = mid.length) :
    readAt (pre ++ (mid ++ post)) off n = some mid := by
  subst hoff hn
  rw [readAt, if_pos]
  · simp
  · simp only [List.length_append]
    omega

/-- The window of one of several parts that stand one behind the other. -/
theorem readAt_flatten (pre post : List UInt8) (parts : List (List UInt8)) (i : Nat)
    (hi : i < parts.length) {off : Int} {n : Nat}
    (hoff : off = pre.length + (parts.take i).flatten.length) (hn : n = parts[i].length) :
    readAt (pre ++ (parts.flatten ++ post)) off n = some parts[i] := by
  have hparts : parts.flatten =
      (parts.take i).flatten ++ (parts[i] ++ (parts.drop (i + 1)).flatten) := by
    rw [← List.flatten_cons, ← List.flatten_append, ← List.drop_eq_getElem_cons hi,
      List.take_append_drop]
  have hbytes : pre ++ (parts.flatten ++ post) =
      (pre ++ (parts.take i).flatten) ++ (parts[i] ++ ((parts.drop (i + 1)).flatten ++ post)) := by
    simp only [hparts, List.append_assoc]
  rw [hbytes]
  refine readAt_append ?_ hn
  rw [hoff, List.length_append]
  push_cast
  rfl

end RocketMQ.Base
