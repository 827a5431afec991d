import Mathlib.Data.Nat.Bitwise
import RocketMQ.Base.Decimal
import RocketMQ.Base.Substring
import RocketMQ.Factory.TopicRoute

/-!
# Public and private addresses

`MixAll::is_public_ip`, `src/common/MixAll.cpp:63–82`, for IPv4 only. The function tests whether an
address has all the bits of a base, and never looks at the length behind the `/`.
-/

namespace RocketMQ

/-- An `in_addr`: four bytes in network order. -/
@[ext] structure InAddr where
  a : UInt8
  b : UInt8
  c : UInt8
  d : UInt8
deriving DecidableEq

namespace InAddr

/-- `s_addr` as a little-endian machine reads it. -/
def sAddr (ip : InAddr) : BitVec 32 :=
  ip.d.toBitVec ++ ip.c.toBitVec ++ ip.b.toBitVec ++ ip.a.toBitVec

/-- The number that the four bytes are in network order. -/
def number (ip : InAddr) : Nat :=
  ((ip.a.toNat * 256 + ip.b.toNat) * 256 + ip.c.toNat) * 256 + ip.d.toNat

/-- Dotted decimal. -/
def text (ip : InAddr) : StdString :=
  List.intercalate [46] ([ip.a, ip.b, ip.c, ip.d].map fun b ↦ Base.natDigits b.toNat)

/-- The first bits of two addresses are the same. -/
def SameFirst (bits : Nat) (ip base : InAddr) : Prop :=
  ip.number / 2 ^ (32 - bits) = base.number / 2 ^ (32 - bits)

end InAddr

/-- A part of an address: a number below 256 without leading zeros. -/
def octet (digits : StdString) : Option UInt8 :=
  if digits ≠ [] ∧ digits.all Base.isDigit ∧ (digits.head? = some 48 → digits.length = 1) ∧
      Base.digitsValue digits < 256 then
    some (UInt8.ofNat (Base.digitsValue digits))
  else none

/-- `inet_pton` for `AF_INET`; `none` when it leaves the address as it is. -/
def inetPton (s : StdString) : Option InAddr :=
  match (s.splitOn 46).map octet with
  | [some a, some b, some c, some d] => some ⟨a, b, c, d⟩
  | _ => none

namespace MixAll

/-- `MixAll::CIDR`, `src/common/MixAll.cpp:35`. -/
def cidrs : List StdString := [str "10.0.0.0/8", str "172.16.0.0/12", str "192.168.0.0/16"]

/-- `cidr.find("/")`. -/
def slash (cidr : StdString) : Nat := (Base.find (str "/") cidr).getD cidr.length

/-- The base of an entry, and whether all its bits are set in an address,
`src/common/MixAll.cpp:72–76`. -/
def covers (sock : InAddr) (cidr : StdString) : Option Bool :=
  (inetPton (cidr.take (slash cidr))).map fun sockBase ↦
    sockBase.sAddr = sockBase.sAddr &&& sock.sAddr

/-- The loop over `CIDR`. -/
def isPublicLoop (sock : InAddr) : List StdString → Option Bool
  | [] => some true
  | cidr :: rest =>
    match covers sock cidr with
    | none => none
    | some true => some false
    | some false => isPublicLoop sock rest

/-- `MixAll::is_public_ip`, `src/common/MixAll.cpp:66–82`; `none` when it looks at an address that
was never set. -/
def isPublicIp (ip : StdString) : Option Bool :=
  (inetPton (ip.takeWhile (· ≠ 0))).bind fun sock ↦ isPublicLoop sock cidrs

/-- The address lies in the network that an entry `base/bits` denotes. -/
def InNetwork (ip : InAddr) (cidr : StdString) : Prop :=
  ∃ base, inetPton (cidr.take (slash cidr)) = some base ∧
    ip.SameFirst (atoi (cidr.drop (slash cidr + 1))).toNat base

/-- The address is private. -/
def Private (ip : InAddr) : Prop := ∃ cidr ∈ cidrs, InNetwork ip cidr

/-- All bits of some base are set in the address: those of 10 in the first byte, or those of 172
and of 16, or of 192 and of 168, in the first two. -/
def HasBits (ip : InAddr) : Prop :=
  10 &&& ip.a = 10 ∨ (172 &&& ip.a = 172 ∧ 16 &&& ip.b = 16) ∨
    (192 &&& ip.a = 192 ∧ 168 &&& ip.b = 168)

end MixAll

/-! ### Reading addresses -/

theorem octet_natDigits (b : UInt8) : octet (Base.natDigits b.toNat) = some b := by
  have hdigits : (Base.natDigits b.toNat).all Base.isDigit = true :=
    List.all_eq_true.mpr fun _ h ↦ Base.isDigit_of_mem_natDigits h
  have hzero : (Base.natDigits b.toNat).head? = some 48 → (Base.natDigits b.toNat).length = 1 := by
    intro hhead
    obtain ⟨ds, hds⟩ := List.head?_eq_some_iff.mp hhead
    rw [hds, Base.natDigits_eq_of_zero hds]
    rfl
  have hlt : Base.digitsValue (Base.natDigits b.toNat) < 256 := by
    rw [Base.digitsValue_natDigits]
    exact b.toNat_lt
  rw [octet, if_pos ⟨Base.natDigits_ne_nil _, hdigits, hzero, hlt⟩, Base.digitsValue_natDigits,
    UInt8.ofNat_toNat]

theorem dot_notMem_natDigits {c : UInt8} (hc : Base.isDigit c = false) (n : Nat) :
    c ∉ Base.natDigits n := by
  intro h
  rw [Base.isDigit_of_mem_natDigits h] at hc
  cases hc

/-- An address is read back from its text. -/
theorem inetPton_text (ip : InAddr) : inetPton ip.text = some ip := by
  have hsplit : ip.text.splitOn 46 =
      [ip.a, ip.b, ip.c, ip.d].map fun b ↦ Base.natDigits b.toNat := by
    refine List.splitOn_intercalate 46 (fun digits hdigits ↦ ?_) nofun
    obtain ⟨b, -, rfl⟩ := List.mem_map.mp hdigits
    exact dot_notMem_natDigits rfl _
  rw [inetPton, hsplit]
  simp only [List.map_cons, List.map_nil, octet_natDigits]

/-! ### The test on the bits, byte by byte -/

private theorem append_inj {v w : Nat} {x x' : BitVec v} {y y' : BitVec w} (h : x ++ y = x' ++ y') :
    x = x' ∧ y = y' := by
  have hy : y = y' := by
    simpa only [BitVec.setWidth_append_eq_right] using congrArg (BitVec.setWidth w) h
  subst hy
  exact ⟨(BitVec.append_left_inj y).mp h, rfl⟩

namespace InAddr

/-- The bits that two addresses share. -/
def and (base ip : InAddr) : InAddr :=
  ⟨base.a &&& ip.a, base.b &&& ip.b, base.c &&& ip.c, base.d &&& ip.d⟩

/-- Of the first 16 bits and fewer the last two bytes are none. -/
theorem sameFirst_iff (ip base : InAddr) {k : Nat} (hk : k ≤ 16) : ip.SameFirst (16 - k) base ↔
    (ip.a.toNat * 256 + ip.b.toNat) / 2 ^ k = (base.a.toNat * 256 + base.b.toNat) / 2 ^ k := by
  have hhigh (ip : InAddr) : ip.number / 2 ^ 16 = ip.a.toNat * 256 + ip.b.toNat := by
    have hc := ip.c.toNat_lt
    have hd := ip.d.toNat_lt
    rw [number]
    omega
  have hpow : 2 ^ (32 - (16 - k)) = 2 ^ 16 * 2 ^ k := by
    rw [← Nat.pow_add]
    congr 1
    omega
  rw [SameFirst, hpow, ← Nat.div_div_eq_div_mul, ← Nat.div_div_eq_div_mul, hhigh, hhigh]

theorem sAddr_and (base ip : InAddr) : (base.and ip).sAddr = base.sAddr &&& ip.sAddr := by
  refine Eq.symm (BitVec.and_append.trans ?_)
  rw [BitVec.and_append, BitVec.and_append]
  rfl

theorem sAddr_injective : Function.Injective sAddr := by
  intro ip ip' h
  obtain ⟨h, ha⟩ := append_inj h
  obtain ⟨h, hb⟩ := append_inj h
  obtain ⟨hd, hc⟩ := append_inj h
  exact InAddr.ext (UInt8.toBitVec_inj.mp ha) (UInt8.toBitVec_inj.mp hb)
    (UInt8.toBitVec_inj.mp hc) (UInt8.toBitVec_inj.mp hd)

theorem sAddr_eq_and_iff (base ip : InAddr) :
    base.sAddr = base.sAddr &&& ip.sAddr ↔ base = base.and ip := by
  rw [← sAddr_and]
  exact sAddr_injective.eq_iff

end InAddr

namespace MixAll

/-- An entry is the text of a base, and a number of bits behind the `/`. -/
def IsEntry (cidr : StdString) (base : InAddr) (bits : Nat) : Prop :=
  cidr.take (slash cidr) = base.text ∧ (atoi (cidr.drop (slash cidr + 1))).toNat = bits

theorem covers_of_isEntry {cidr : StdString} {base : InAddr} {bits : Nat}
    (h : IsEntry cidr base bits) (ip : InAddr) :
    covers ip cidr = some (decide (base = base.and ip)) := by
  rw [covers, h.1, inetPton_text, Option.map_some,
    decide_eq_decide.mpr (base.sAddr_eq_and_iff ip)]

theorem inNetwork_iff_of_isEntry {cidr : StdString} {base : InAddr} {bits : Nat}
    (h : IsEntry cidr base bits) (ip : InAddr) : InNetwork ip cidr ↔ ip.SameFirst bits base := by
  rw [InNetwork, h.1, inetPton_text, h.2]
  exact ⟨fun ⟨_, hbase, hfirst⟩ ↦ Option.some.inj hbase ▸ hfirst, fun hfirst ↦ ⟨_, rfl, hfirst⟩⟩

/-- The three entries of `CIDR`. -/
theorem forall₂_isEntry_cidrs : List.Forall₂ (fun cidr e ↦ IsEntry cidr e.1 e.2) cidrs
    [(⟨10, 0, 0, 0⟩, 8), (⟨172, 16, 0, 0⟩, 12), (⟨192, 168, 0, 0⟩, 16)] :=
  .cons ⟨by decide, by decide⟩ (.cons ⟨by decide, by decide⟩ (.cons ⟨by decide, by decide⟩ .nil))

/-- The loop ends with `false` when all the bits of some base are set in the address. -/
theorem isPublicLoop_iff {entries : List StdString} {es : List (InAddr × Nat)}
    (h : List.Forall₂ (fun cidr e ↦ IsEntry cidr e.1 e.2) entries es) (ip : InAddr) :
    isPublicLoop ip entries = some false ↔ ∃ e ∈ es, e.1 = e.1.and ip := by
  induction h with
  | nil => simp [isPublicLoop]
  | @cons cidr e rest _ hentry _ ih =>
    rw [isPublicLoop, covers_of_isEntry hentry, List.exists_mem_cons_iff, ← ih]
    by_cases hbits : e.1 = e.1.and ip
    · rw [decide_eq_true hbits]
      exact iff_of_true rfl (.inl hbits)
    · rw [decide_eq_false hbits]
      exact (or_iff_right hbits).symm

/-- The address is in some network of a list. -/
theorem exists_inNetwork_iff {entries : List StdString} {es : List (InAddr × Nat)}
    (h : List.Forall₂ (fun cidr e ↦ IsEntry cidr e.1 e.2) entries es) (ip : InAddr) :
    (∃ cidr ∈ entries, InNetwork ip cidr) ↔ ∃ e ∈ es, ip.SameFirst e.2 e.1 := by
  induction h with
  | nil => simp
  | cons hentry _ ih =>
    rw [List.exists_mem_cons_iff, List.exists_mem_cons_iff, inNetwork_iff_of_isEntry hentry, ih]

/-- The text of an address holds no NUL. -/
theorem takeWhile_text (ip : InAddr) : ip.text.takeWhile (· ≠ 0) = ip.text := by
  have hdigit (n : Nat) : (0 : UInt8) ∉ Base.natDigits n := dot_notMem_natDigits rfl n
  exact takeWhile_ne_nul (by simp [InAddr.text, List.intercalate, List.intersperse, hdigit])

theorem isPublicIp_text (ip : InAddr) : isPublicIp ip.text = some false ↔ HasBits ip := by
  rw [isPublicIp, takeWhile_text, inetPton_text, Option.bind_some,
    isPublicLoop_iff forall₂_isEntry_cidrs]
  simp [HasBits, InAddr.ext_iff, InAddr.and, eq_comm]

theorem private_iff (ip : InAddr) : Private ip ↔
    ip.a = 10 ∨ (ip.a = 172 ∧ ip.b.toNat / 16 = 1) ∨ (ip.a = 192 ∧ ip.b = 168) := by
  have hb := ip.b.toNat_lt
  have h10 : ip.SameFirst 8 ⟨10, 0, 0, 0⟩ ↔ ip.a = 10 := by
    rw [ip.sameFirst_iff _ (k := 8) (by decide), ← UInt8.toNat_inj]
    simp only [UInt8.reduceToNat]
    omega
  have h172 : ip.SameFirst 12 ⟨172, 16, 0, 0⟩ ↔ ip.a = 172 ∧ ip.b.toNat / 16 = 1 := by
    rw [ip.sameFirst_iff _ (k := 4) (by decide), ← UInt8.toNat_inj]
    simp only [UInt8.reduceToNat]
    omega
  have h192 : ip.SameFirst 16 ⟨192, 168, 0, 0⟩ ↔ ip.a = 192 ∧ ip.b = 168 := by
    rw [ip.sameFirst_iff _ (k := 0) (by decide), ← UInt8.toNat_inj, ← UInt8.toNat_inj]
    simp only [UInt8.reduceToNat]
    omega
  rw [Private, exists_inNetwork_iff forall₂_isEntry_cidrs]
  simp [h10, h172, h192]

theorem Private.hasBits {ip : InAddr} (h : Private ip) : HasBits ip := by
  rcases (private_iff ip).mp h with ha | ⟨ha, hb⟩ | ⟨ha, hb⟩
  · exact .inl (by rw [ha]; rfl)
  · refine .inr (.inl ⟨by rw [ha]; rfl, ?_⟩)
    have hbit : ip.b.toNat.testBit 4 = true := by
      rw [Nat.testBit_eq_decide_div_mod_eq, hb]
      rfl
    rw [← UInt8.toNat_inj, UInt8.toNat_and]
    exact (Nat.two_pow_and _ 4).trans (by rw [hbit]; rfl)
  · exact .inr (.inr ⟨by rw [ha]; rfl, by rw [hb]; rfl⟩)

/-- `is_public_ip` returns false exactly for the private addresses when the address is private or
no base has all its bits in it. -/
theorem recognised_iff (ip : InAddr) :
    (isPublicIp ip.text = some false ↔ Private ip) ↔ Private ip ∨ ¬ HasBits ip := by
  rw [isPublicIp_text]
  constructor
  · intro h
    by_cases hbits : HasBits ip
    · exact .inl (h.mp hbits)
    · exact .inr hbits
  · rintro (hpriv | hbits)
    · exact iff_of_true hpriv.hasBits hpriv
    · exact iff_of_false hbits fun hpriv ↦ hbits hpriv.hasBits

/-- 11.0.0.1 has the bits of 10 in its first byte, and is in no private network. -/
theorem eleven_taken_for_private : ¬ ∀ ip : InAddr,
    isPublicIp ip.text = some false ↔ Private ip := by
  intro h
  have hprivate := (h ⟨11, 0, 0, 1⟩).mp ((isPublicIp_text _).mpr (.inl rfl))
  rw [private_iff] at hprivate
  revert hprivate
  decide

end MixAll
end RocketMQ
