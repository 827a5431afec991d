import Mathlib.Tactic.IntervalCases
import RocketMQ.Base.ByteOrder
import RocketMQ.Message.MessageDecoder

/-!
# Message ids

`createMessageId` and `decodeMessageId` of `src/message/MessageDecoder.cpp` on a little-endian
host, with the byte swaps of `src/transport/SocketUtil.cpp`. The address and the offset are
printed as big-endian bytes and parsed as numbers, which the host holds the other way round.
-/

namespace RocketMQ
/-! ### Integers of the host -/

/-- `htons` and `ntohs` of a little-endian host. -/
def htons (v : UInt16) : UInt16 := .ofNat (Base.byteSwap 2 v.toNat)

/-- `htonl` and `ntohl` of a little-endian host. -/
def htonl (v : UInt32) : UInt32 := .ofNat (Base.byteSwap 4 v.toNat)

/-- `swapll`, `src/transport/SocketUtil.cpp:291–307`; `h2nll` and `n2hll` are the same. -/
def swapll (v : UInt64) : UInt64 :=
  (v <<< 56) ||| ((v &&& (0xff00 : UInt64)) <<< 40) ||| ((v &&& (0xff0000 : UInt64)) <<< 24) |||
    ((v &&& (0xff000000 : UInt64)) <<< 8) ||| ((v >>> 8) &&& (0xff000000 : UInt64)) |||
    ((v >>> 24) &&& (0xff0000 : UInt64)) ||| ((v >>> 40) &&& (0xff00 : UInt64)) ||| (v >>> 56)

/-- `isspace`. -/
def isSpace (b : UInt8) : Bool := b = 32 ∨ (9 ≤ b ∧ b ≤ 13)

/-- The digits behind an optional `0x`. -/
def skipPrefix : StdString → StdString
  | 48 :: x :: digits => if x = 88 ∨ x = 120 then digits else 48 :: x :: digits
  | s => s

/-- `strtoul` and `strtoull` with the base 16, for an `unsigned long` of 64 bits; a number that is
too large becomes the largest one. -/
def strtoull16 (s : StdString) : UInt64 :=
  let number (s : StdString) : UInt64 := .ofNat (min (Base.hexNat (skipPrefix s)) (2 ^ 64 - 1))
  match s.dropWhile isSpace with
  | 45 :: s => -number s
  | 43 :: s => number s
  | s => number s

/-! ### Ids -/

/-- The two fields of a `sockaddr_in` that are used, as the host reads them. -/
structure SockAddrIn where
  sinPort : UInt16
  sAddr : UInt32
deriving DecidableEq

/-- `src/message/MessageId.h:22–57`. -/
structure MessageId where
  address : SockAddrIn
  offset : Int64
deriving DecidableEq

namespace MessageId

/-- `MessageDecoder::createMessageId`, `src/message/MessageDecoder.cpp:37–71`. -/
def createMessageId (addr : SockAddrIn) (offset : Int64) : StdString :=
  let port := htonl (htons addr.sinPort).toUInt32
  let ip := addr.sAddr
  let offset := swapll offset.toUInt64
  (Base.leBytes 4 ip.toNat ++ Base.leBytes 4 port.toNat ++ Base.leBytes 8 offset.toNat).flatMap
    MessageDecoder.hex2

/-- `MessageDecoder::decodeMessageId`, `src/message/MessageDecoder.cpp:73–101`; `none` is the
exception of `substr` behind the end. -/
def decodeMessageId (msgId : StdString) : Option MessageId :=
  if msgId.length < 16 then none
  else
    let ipint := (strtoull16 (msgId.take 8)).toUInt32
    let portint := (strtoull16 ((msgId.drop 8).take 8)).toUInt32
    let offset := strtoull16 (msgId.drop 16)
    let port := (htonl portint).toUInt16
    some ⟨⟨htons port, ipint⟩, (swapll offset).toInt64⟩

/-! ### What the swaps do -/

section Swaps

theorem getLsbD_mask (s j : Nat) (hj : j < 64) :
    (0xff#64 <<< s).getLsbD j = decide (s ≤ j ∧ j < s + 8) := by
  have hones : ∀ j < 64, (0xff#64).getLsbD j = decide (j < 8) := by decide
  rw [BitVec.getLsbD_shiftLeft, hones _ (by omega), Bool.eq_iff_iff]
  simp only [Bool.and_eq_true, decide_eq_true_eq, Bool.not_eq_true', decide_eq_false_iff_not]
  omega

/-- The eight terms take the eight bytes to the opposite places. -/
theorem getLsbD_swapll (v : UInt64) (j : Nat) (hj : j < 64) :
    (swapll v).toBitVec.getLsbD j = v.toBitVec.getLsbD (8 * (8 - 1 - j / 8) + j % 8) := by
  have hterms : (swapll v).toBitVec =
      (v.toBitVec <<< 56) ||| ((v.toBitVec &&& (0xff#64 <<< 8)) <<< 40) |||
        ((v.toBitVec &&& (0xff#64 <<< 16)) <<< 24) ||| ((v.toBitVec &&& (0xff#64 <<< 24)) <<< 8) |||
        ((v.toBitVec >>> 8) &&& (0xff#64 <<< 24)) ||| ((v.toBitVec >>> 24) &&& (0xff#64 <<< 16)) |||
        ((v.toBitVec >>> 40) &&& (0xff#64 <<< 8)) ||| (v.toBitVec >>> 56) := rfl
  generalize v.toBitVec = bits at hterms ⊢
  have hout : ∀ k, 64 ≤ k → bits.getLsbD k = false := fun k hk ↦ BitVec.getLsbD_of_ge _ _ hk
  rw [hterms]
  simp only [BitVec.getLsbD_or, BitVec.getLsbD_and, BitVec.getLsbD_shiftLeft (x := bits),
    BitVec.getLsbD_shiftLeft (x := bits &&& _), BitVec.getLsbD_ushiftRight]
  rw [getLsbD_mask 8 (j - 40) (by omega), getLsbD_mask 16 (j - 24) (by omega),
    getLsbD_mask 24 (j - 8) (by omega), getLsbD_mask 24 j hj, getLsbD_mask 16 j hj,
    getLsbD_mask 8 j hj]
  -- in each byte of the result one term has its bits and the others have none
  obtain ⟨byte, i, hi, rfl⟩ : ∃ byte i, i < 8 ∧ j = 8 * byte + i :=
    ⟨j / 8, j % 8, by omega, by omega⟩
  have hbyte : byte < 8 := by omega
  interval_cases byte <;> grind

theorem toNat_swapll (v : UInt64) : (swapll v).toNat = Base.byteSwap 8 v.toNat := by
  apply Nat.eq_of_testBit_eq
  intro j
  by_cases hj : j < 64
  · rw [Base.testBit_byteSwap v.toNat (w := 8) hj]
    exact getLsbD_swapll v j hj
  · have hlow : ∀ n : Nat, n < 2 ^ 64 → n.testBit j = false := fun n hn ↦
      Nat.testBit_lt_two_pow (hn.trans_le (Nat.pow_le_pow_right (by omega) (by omega)))
    rw [hlow _ (swapll v).toNat_lt, hlow _ (Base.byteSwap_lt 8 v.toNat)]

theorem toNat_htonl (v : UInt32) : (htonl v).toNat = Base.byteSwap 4 v.toNat := by
  rw [htonl, UInt32.toNat_ofNat']
  exact Nat.mod_eq_of_lt (Base.byteSwap_lt 4 v.toNat)

end Swaps

/-! ### Printing and parsing -/

section Digits

theorem hex2_eq_hexPair (b : UInt8) : MessageDecoder.hex2 b = Base.hexPair b := rfl

/-- A digit is no space, no sign and no `x`. -/
theorem digit_ne {d : UInt8} (h : (Base.hexValue d).isSome) :
    isSpace d = false ∧ d ≠ 45 ∧ d ≠ 43 ∧ d ≠ 88 ∧ d ≠ 120 := by
  have hspace : isSpace d = false := by
    by_contra hd
    rw [Bool.not_eq_false, isSpace, decide_eq_true_eq] at hd
    have hlow : d.toNat < 48 := by
      rcases hd with rfl | ⟨-, hd⟩
      · decide
      · exact Nat.lt_of_le_of_lt (UInt8.le_iff_toNat_le.mp hd) (by decide)
    have hnone : Base.hexValue d = none := by
      simp only [Base.hexValue, UInt8.le_iff_toNat_le]
      split_ifs with h₁ h₂ h₃
      · exact absurd h₁.1 (by simpa using hlow)
      · exact absurd h₂.1 (by simpa using by omega)
      · exact absurd h₃.1 (by simpa using by omega)
      · rfl
    rw [hnone] at h
    cases h
  refine ⟨hspace, ?_, ?_, ?_, ?_⟩
  all_goals
    rintro rfl
    exact absurd h (by decide)

/-- A text of digits is read as the number it stands for, when that fits. -/
theorem strtoull16_digits {s : StdString} (h : ∀ d ∈ s, (Base.hexValue d).isSome)
    (hfits : Base.hexNat s < 2 ^ 64) : strtoull16 s = .ofNat (Base.hexNat s) := by
  have hskip : skipPrefix s = s := by
    unfold skipPrefix
    split
    · next x digits =>
      have hx := digit_ne (h x (by simp))
      rw [if_neg (by rw [not_or]; exact hx.2.2.2)]
    · rfl
  have hnumber : min (Base.hexNat (skipPrefix s)) (2 ^ 64 - 1) = Base.hexNat s := by
    rw [hskip]
    omega
  have hspaces : s.dropWhile isSpace = s := by
    cases s with
    | nil => rfl
    | cons d s => rw [List.dropWhile_cons, (digit_ne (h d List.mem_cons_self)).1, if_neg (by simp)]
  rw [strtoull16, hspaces]
  split
  · exact absurd rfl (digit_ne (h 45 List.mem_cons_self)).2.1
  · exact absurd rfl (digit_ne (h 43 List.mem_cons_self)).2.2.1
  · exact congrArg UInt64.ofNat hnumber

/-- Printed bytes are read as the number they stand for. -/
theorem strtoull16_flatMap_hex2 {bs : List UInt8} (h : bs.length ≤ 8) :
    strtoull16 (bs.flatMap MessageDecoder.hex2) = .ofNat (Base.beNat bs) := by
  have hvalue : Base.hexNat (bs.flatMap MessageDecoder.hex2) = Base.beNat bs :=
    Base.hexNat_flatMap_hexPair bs
  have hfits : Base.beNat bs < 2 ^ 64 :=
    (Base.beNat_lt bs).trans_le (Nat.pow_le_pow_right (n := 256) (by omega) h)
  rw [strtoull16_digits, hvalue]
  · exact fun d hd ↦ Base.isSome_hexValue_of_mem hd
  · rwa [hvalue]

end Digits

/-! ### There and back -/

section RoundTrip

variable (addr : SockAddrIn) (offset : Int64)

/-- What is printed: the address as it is in memory, the port and the offset in network order. -/
theorem createMessageId_eq : createMessageId addr offset =
    (Base.leBytes 4 addr.sAddr.toNat ++ Base.beBytes 4 (htons addr.sinPort).toNat ++
      Base.beBytes 8 offset.toUInt64.toNat).flatMap MessageDecoder.hex2 := by
  have hport : Base.leBytes 4 (htonl (htons addr.sinPort).toUInt32).toNat =
      Base.beBytes 4 (htons addr.sinPort).toNat := by
    rw [toNat_htonl, Base.leBytes_byteSwap, UInt16.toNat_toUInt32]
  have hoffset : Base.leBytes 8 (swapll offset.toUInt64).toNat =
      Base.beBytes 8 offset.toUInt64.toNat := by
    rw [toNat_swapll, Base.leBytes_byteSwap]
  simp only [createMessageId, hport, hoffset]

/-- This is what the decoder of pulled messages makes of the same address and offset. -/
theorem createMessageId_eq_createMessageId : createMessageId addr offset =
    MessageDecoder.createMessageId
      ⟨Base.leBytes 4 addr.sAddr.toNat, (htons addr.sinPort).toNat⟩ offset.toInt := by
  have hbytes : Base.beIntBytes 8 offset.toInt = Base.beBytes 8 offset.toUInt64.toNat := by
    have hnat := congrArg BitVec.toNat (BitVec.ofInt_toInt (x := offset.toBitVec))
    rw [BitVec.toNat_ofInt] at hnat
    exact congrArg (Base.beBytes 8) hnat
  rw [createMessageId_eq, MessageDecoder.createMessageId, hbytes]

/-- The parts of an id are read as numbers whose bytes are those printed. -/
theorem decodeMessageId_flatMap {ip port off : StdString} (hip : ip.length = 4)
    (hport : port.length = 4) (hoff : off.length = 8) :
    decodeMessageId ((ip ++ port ++ off).flatMap MessageDecoder.hex2) =
      some ⟨⟨htons (htonl (.ofNat (Base.beNat port))).toUInt16, .ofNat (Base.beNat ip)⟩,
        (swapll (.ofNat (Base.beNat off))).toInt64⟩ := by
  have hlen : ∀ bs : StdString, (bs.flatMap MessageDecoder.hex2).length = 2 * bs.length := by
    intro bs
    induction bs with
    | nil => rfl
    | cons b bs ih =>
      rw [List.flatMap_cons, List.length_append, ih, hex2_eq_hexPair, List.length_cons]
      simp only [Base.hexPair, List.length_cons, List.length_nil]
      omega
  have hnarrow : ∀ n < 2 ^ 32, (UInt64.ofNat n).toUInt32 = UInt32.ofNat n := by
    intro n hn
    apply UInt32.toNat_inj.mp
    simp only [UInt64.toNat_toUInt32, UInt64.toNat_ofNat', UInt32.toNat_ofNat']
    omega
  have hlow : ∀ bs : StdString, bs.length = 4 → Base.beNat bs < 2 ^ 32 := by
    intro bs hbs
    have hlt := Base.beNat_lt bs
    rwa [hbs] at hlt
  have hip' : ((ip ++ port ++ off).flatMap MessageDecoder.hex2).take 8 =
      ip.flatMap MessageDecoder.hex2 := by
    rw [List.append_assoc, List.flatMap_append, List.take_left' (by rw [hlen, hip])]
  have hrest : ((ip ++ port ++ off).flatMap MessageDecoder.hex2).drop 8 =
      port.flatMap MessageDecoder.hex2 ++ off.flatMap MessageDecoder.hex2 := by
    rw [List.append_assoc, List.flatMap_append, List.drop_left' (by rw [hlen, hip]),
      List.flatMap_append]
  have hport' : (((ip ++ port ++ off).flatMap MessageDecoder.hex2).drop 8).take 8 =
      port.flatMap MessageDecoder.hex2 := by
    rw [hrest, List.take_left' (by rw [hlen, hport])]
  have hoff' : ((ip ++ port ++ off).flatMap MessageDecoder.hex2).drop 16 =
      off.flatMap MessageDecoder.hex2 := by
    rw [show 16 = 8 + 8 from rfl, ← List.drop_drop, hrest,
      List.drop_left' (by rw [hlen, hport])]
  have hnotShort : ¬ ((ip ++ port ++ off).flatMap MessageDecoder.hex2).length < 16 := by
    rw [hlen]
    simp only [List.length_append, hip, hport, hoff]
    omega
  have hipShort : ip.length ≤ 8 := by omega
  have hportShort : port.length ≤ 8 := by omega
  rw [decodeMessageId, if_neg hnotShort]
  simp only [hip', hport', hoff', strtoull16_flatMap_hex2 (Nat.le_of_eq hoff),
    strtoull16_flatMap_hex2 hipShort, strtoull16_flatMap_hex2 hportShort,
    hnarrow _ (hlow ip hip), hnarrow _ (hlow port hport)]

/-- The port is looked for in the half that has only zeros. -/
theorem decodedPort_eq_zero (port : UInt16) :
    htons (htonl (.ofNat (Base.beNat (Base.beBytes 4 port.toNat)))).toUInt16 = 0 := by
  have hlow : port.toNat < 256 ^ 2 := port.toNat_lt
  have hswap : (htonl (.ofNat port.toNat)).toNat = Base.byteSwap 2 port.toNat * 256 ^ 2 := by
    rw [toNat_htonl, UInt32.toNat_ofNat', Nat.mod_eq_of_lt (by omega)]
    exact Base.byteSwap_add 2 2 _ hlow
  have hzero : (htonl (.ofNat port.toNat)).toUInt16 = 0 := by
    apply UInt16.toNat_inj.mp
    rw [UInt32.toNat_toUInt16, hswap]
    exact Nat.mul_mod_left _ _
  rw [Base.beNat_beBytes_of_lt (by omega), hzero]
  rfl

/-- What becomes of an address and an offset: the address and the offset are swapped, and the
port is lost. -/
theorem decodeMessageId_createMessageId : decodeMessageId (createMessageId addr offset) =
    some ⟨⟨0, htonl addr.sAddr⟩, (swapll offset.toUInt64).toInt64⟩ := by
  have hoffset : UInt64.ofNat (Base.beNat (Base.beBytes 8 offset.toUInt64.toNat)) =
      offset.toUInt64 := by
    rw [Base.beNat_beBytes_of_lt offset.toUInt64.toNat_lt, UInt64.ofNat_toNat]
  rw [createMessageId_eq, decodeMessageId_flatMap (Base.length_leBytes 4 _)
    (Base.length_beBytes 4 _) (Base.length_beBytes 8 _), decodedPort_eq_zero, hoffset]
  rfl

/-- The bytes of the address and of the offset read the same both ways, and the port is zero. -/
structure ReadsBothWays : Prop where
  address : Base.leBytes 4 addr.sAddr.toNat = Base.beBytes 4 addr.sAddr.toNat
  port : addr.sinPort = 0
  offset : Base.leBytes 8 offset.toUInt64.toNat = Base.beBytes 8 offset.toUInt64.toNat

theorem htonl_eq_self_iff (v : UInt32) :
    htonl v = v ↔ Base.leBytes 4 v.toNat = Base.beBytes 4 v.toNat := by
  rw [← UInt32.toNat_inj, toNat_htonl]
  exact Base.byteSwap_eq_self_iff v.toNat_lt

theorem swapll_eq_self_iff (v : UInt64) :
    swapll v = v ↔ Base.leBytes 8 v.toNat = Base.beBytes 8 v.toNat := by
  rw [← UInt64.toNat_inj, toNat_swapll]
  exact Base.byteSwap_eq_self_iff v.toNat_lt

/-- An id is decoded to the address and the offset it was made of exactly when no swap matters. -/
theorem round_trip_iff : decodeMessageId (createMessageId addr offset) = some ⟨addr, offset⟩ ↔
    ReadsBothWays addr offset := by
  have hoffset : (swapll offset.toUInt64).toInt64 = offset ↔
      swapll offset.toUInt64 = offset.toUInt64 := by
    constructor
    · intro h
      rw [← UInt64.toUInt64_toInt64 (swapll offset.toUInt64), h]
    · intro h
      rw [h, Int64.toInt64_toUInt64]
  obtain ⟨sinPort, sAddr⟩ := addr
  rw [decodeMessageId_createMessageId, Option.some.injEq, MessageId.mk.injEq, SockAddrIn.mk.injEq,
    hoffset, htonl_eq_self_iff, swapll_eq_self_iff]
  constructor
  · rintro ⟨⟨hport, haddress⟩, hoffset⟩
    exact ⟨haddress, hport.symm, hoffset⟩
  · rintro ⟨haddress, hport, hoffset⟩
    exact ⟨⟨hport.symm, haddress⟩, hoffset⟩

/-- 192.168.0.104, port 50180, as a little-endian host has them. -/
def sampleAddr : SockAddrIn := ⟨0x04c4, 0x6800a8c0⟩

/-- The id of the first message of a broker names another broker and another offset. -/
theorem sampleAddr_not_decoded :
    createMessageId sampleAddr 1 = str "C0A800680000C4040000000000000001" ∧
      decodeMessageId (createMessageId sampleAddr 1) =
        some ⟨⟨0, 0xc0a80068⟩, 0x0100000000000000⟩ ∧
      decodeMessageId (createMessageId sampleAddr 1) ≠ some ⟨sampleAddr, 1⟩ := by
  have hdecoded : decodeMessageId (createMessageId sampleAddr 1) =
      some ⟨⟨0, 0xc0a80068⟩, 0x0100000000000000⟩ := by
    rw [decodeMessageId_createMessageId]
    decide +kernel
  refine ⟨by decide +kernel, hdecoded, ?_⟩
  rw [hdecoded]
  decide +kernel

end RoundTrip

end MessageId
end RocketMQ
