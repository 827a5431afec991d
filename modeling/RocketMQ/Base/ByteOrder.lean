import Mathlib.Data.List.TakeWhile
import RocketMQ.Base.Bytes

/-!
# Byte order and hexadecimal digits

General library: the bytes of a number in the memory of a little-endian host, the number with
its bytes the other way round, and byte strings written as hexadecimal digits.
-/

namespace RocketMQ.Base

/-! ### The bytes of a number -/

/-- The `w` bytes of a number in memory, least significant first. -/
def leBytes (w n : Nat) : List UInt8 := (beBytes w n).reverse

/-- The number with its `w` bytes the other way round. -/
def byteSwap (w n : Nat) : Nat := beNat (leBytes w n)

@[simp] theorem length_leBytes (w n : Nat) : (leBytes w n).length = w := by
  rw [leBytes, List.length_reverse, length_beBytes]

/-- A byte of a number. -/
theorem beBytes_succ_eq_append (w n : Nat) :
    beBytes (w + 1) n = beBytes w (n / 256) ++ [UInt8.ofNat n] := by
  induction w with
  | zero => simp [beBytes]
  | succ w ih =>
    have htop : n / 256 / 256 ^ w = n / 256 ^ (w + 1) := by
      rw [Nat.div_div_eq_div_mul, Nat.pow_succ']
    rw [beBytes, ih, beBytes, htop, List.cons_append]

theorem beNat_append_singleton (bs : List UInt8) (b : UInt8) :
    beNat (bs ++ [b]) = 256 * beNat bs + b.toNat := by
  induction bs with
  | nil => simp [beNat]
  | cons c bs ih =>
    rw [List.cons_append, beNat, beNat, ih, List.length_append, List.length_singleton,
      Nat.pow_succ', Nat.mul_add, Nat.mul_left_comm, Nat.add_assoc]

/-- Bytes are those of the number they stand for. -/
theorem beBytes_beNat (bs : List UInt8) : beBytes bs.length (beNat bs) = bs := by
  induction bs using List.reverseRecOn with
  | nil => rfl
  | append_singleton bs b ih =>
    have hdiv : (256 * beNat bs + b.toNat) / 256 = beNat bs := by
      have hb := b.toNat_lt
      omega
    have hbyte : UInt8.ofNat (256 * beNat bs + b.toNat) = b := by
      apply UInt8.toNat_inj.mp
      have hb := b.toNat_lt
      rw [UInt8.toNat_ofNat']
      omega
    rw [List.length_append, List.length_singleton, beBytes_succ_eq_append,
      beNat_append_singleton, hdiv, hbyte, ih]

section Swap

variable {w n : Nat}

theorem byteSwap_lt (w n : Nat) : byteSwap w n < 256 ^ w := by
  have hlt := beNat_lt (leBytes w n)
  rwa [length_leBytes] at hlt

/-- The bytes of the swapped number, as they are read. -/
theorem beBytes_byteSwap (w n : Nat) : beBytes w (byteSwap w n) = leBytes w n := by
  have hbytes := beBytes_beNat (leBytes w n)
  rwa [length_leBytes] at hbytes

/-- The bytes of the swapped number in memory. -/
theorem leBytes_byteSwap (w n : Nat) : leBytes w (byteSwap w n) = beBytes w n := by
  rw [leBytes, beBytes_byteSwap, leBytes, List.reverse_reverse]

/-- A number stays the same when its bytes read the same both ways. -/
theorem byteSwap_eq_self_iff (h : n < 256 ^ w) : byteSwap w n = n ↔ leBytes w n = beBytes w n := by
  constructor
  · intro hswap
    rw [← beBytes_byteSwap, hswap]
  · intro hbytes
    rw [byteSwap, hbytes, beNat_beBytes_of_lt h]

/-- Swapping zero bytes in front of a number moves it to the front. -/
theorem byteSwap_add (m w n : Nat) (h : n < 256 ^ w) :
    byteSwap (m + w) n = byteSwap w n * 256 ^ m := by
  induction m with
  | zero => simp
  | succ m ih =>
    have hzero : n / 256 ^ (m + w) = 0 := by
      apply Nat.div_eq_of_lt
      exact h.trans_le (Nat.pow_le_pow_right (by omega) (by omega))
    have hbytes : leBytes (m + 1 + w) n = leBytes (m + w) n ++ [0] := by
      rw [show m + 1 + w = m + w + 1 by omega, leBytes, beBytes, hzero, List.reverse_cons]
      rfl
    rw [byteSwap, hbytes, beNat_append_singleton]
    change 256 * byteSwap (m + w) n + 0 = _
    rw [ih, Nat.add_zero, Nat.pow_succ', Nat.mul_left_comm]

end Swap

/-! ### The bits of a number -/

section Bits

theorem getElem?_beBytes {w i : Nat} (n : Nat) (hi : i < w) :
    (beBytes w n)[i]? = some (UInt8.ofNat (n / 256 ^ (w - 1 - i))) := by
  induction w generalizing i with
  | zero => omega
  | succ w ih =>
    cases i with
    | zero => rfl
    | succ i =>
      rw [beBytes, List.getElem?_cons_succ, ih (by omega)]
      congr 4
      omega

/-- A bit of a number is a bit of one of its bytes. -/
theorem testBit_beNat (bs : List UInt8) (j : Nat) : (beNat bs).testBit j =
    ((bs.reverse[j / 8]?).map fun b ↦ b.toNat.testBit (j % 8)).getD false := by
  induction bs using List.reverseRecOn generalizing j with
  | nil => simp [beNat]
  | append_singleton bs b ih =>
    have hbit : (beNat (bs ++ [b])).testBit j =
        if j < 8 then b.toNat.testBit j else (beNat bs).testBit (j - 8) := by
      rw [beNat_append_singleton]
      exact Nat.testBit_two_pow_mul_add (i := 8) _ b.toNat_lt _
    rw [hbit, List.reverse_append, List.reverse_singleton, List.singleton_append]
    by_cases hj : j < 8
    · rw [if_pos hj, Nat.div_eq_of_lt hj, Nat.mod_eq_of_lt hj]
      rfl
    · have hdiv : j / 8 = (j - 8) / 8 + 1 := by omega
      have hmod : j % 8 = (j - 8) % 8 := by omega
      rw [if_neg hj, ih, hdiv, hmod, List.getElem?_cons_succ]

/-- A bit of the swapped number is the same bit of the byte opposite. -/
theorem testBit_byteSwap {w j : Nat} (n : Nat) (hj : j < 8 * w) :
    (byteSwap w n).testBit j = n.testBit (8 * (w - 1 - j / 8) + j % 8) := by
  have hbyte : j / 8 < w := by omega
  have hbit : j % 8 < 8 := Nat.mod_lt _ (by omega)
  have hpow : ∀ k : Nat, 256 ^ k = 2 ^ (8 * k) := fun k ↦ (Nat.pow_mul 2 8 k).symm
  rw [byteSwap, testBit_beNat, leBytes, List.reverse_reverse, getElem?_beBytes n hbyte,
    Option.map_some, Option.getD_some, UInt8.toNat_ofNat', Nat.testBit_mod_two_pow, hpow,
    Nat.testBit_div_two_pow]
  simp [hbit, Nat.add_comm]

end Bits

/-! ### Hexadecimal digits -/

/-- A digit, with capital letters. -/
def hexDigitOf (n : Nat) : UInt8 := UInt8.ofNat (if n < 10 then 48 + n else 55 + n)

/-- A byte as two digits. -/
def hexPair (b : UInt8) : List UInt8 := [hexDigitOf (b.toNat / 16), hexDigitOf (b.toNat % 16)]

/-- What a digit stands for, with letters of either case. -/
def hexValue (b : UInt8) : Option Nat :=
  if 48 ≤ b ∧ b ≤ 57 then some (b.toNat - 48)
  else if 65 ≤ b ∧ b ≤ 70 then some (b.toNat - 55)
  else if 97 ≤ b ∧ b ≤ 102 then some (b.toNat - 87)
  else none

/-- The number that the digits at the front of a text stand for. -/
def hexNat (text : List UInt8) : Nat :=
  (text.takeWhile fun b ↦ (hexValue b).isSome).foldl (fun n b ↦ 16 * n + (hexValue b).getD 0) 0

theorem hexValue_hexDigitOf {n : Nat} (h : n < 16) : hexValue (hexDigitOf n) = some n := by
  revert n
  decide

theorem isSome_hexValue_of_mem {bs : List UInt8} {d : UInt8} (hd : d ∈ bs.flatMap hexPair) :
    (hexValue d).isSome = true := by
  obtain ⟨b, -, hd⟩ := List.mem_flatMap.mp hd
  have hb := b.toNat_lt
  simp only [hexPair, List.mem_cons, List.not_mem_nil, or_false] at hd
  rcases hd with rfl | rfl
  · rw [hexValue_hexDigitOf (by omega), Option.isSome_some]
  · rw [hexValue_hexDigitOf (by omega), Option.isSome_some]

/-- Reading the digits of bytes gives the number that the bytes stand for. -/
theorem hexNat_flatMap_hexPair (bs : List UInt8) : hexNat (bs.flatMap hexPair) = beNat bs := by
  rw [hexNat, List.takeWhile_eq_self_iff.mpr fun d hd ↦ isSome_hexValue_of_mem hd]
  induction bs using List.reverseRecOn with
  | nil => rfl
  | append_singleton bs b ih =>
    have hb := b.toNat_lt
    rw [List.flatMap_append, List.foldl_append, ih, beNat_append_singleton]
    simp only [List.flatMap_singleton, hexPair, List.foldl_cons, List.foldl_nil]
    rw [hexValue_hexDigitOf (by omega), hexValue_hexDigitOf (by omega), Option.getD_some,
      Option.getD_some]
    omega

end RocketMQ.Base
