import RocketMQ.Message.MessageQueue

/-!
# The buffer that compressed and decompressed output goes to

The loops of `UtilAll::compress` and `UtilAll::decompress` gather their output in a block whose size
they keep in the `int outBufferLen`. Where a call's output does not fit they ask `realloc` for twice
what is needed, which from `2^30` bytes on is negative (`src/common/UtilAll.h:163–209,249–298`). The
block that `malloc` gives first is not checked.
-/

namespace RocketMQ

/-- The output so far, `outBufferLen`, and the bytes that the block behind `outData` has: none where
`malloc` gave `NULL`. -/
structure OutBuffer where
  outData : StdString
  outBufferLen : Int32
  memory : Nat

/-- What goes wrong in writing: bytes behind the end of the block. -/
inductive WriteFault where
  | outside
deriving DecidableEq

/-- Memory can be had for every size that an `int` holds. -/
def Allocates (alloc : Int32 → Bool) : Prop := ∀ size, 0 ≤ size → alloc size = true

namespace OutBuffer

/-- The first block; `alloc` tells for which sizes there is memory. -/
def malloc (alloc : Int32 → Bool) (outBufferLen : Int32) : OutBuffer :=
  ⟨[], outBufferLen, if alloc outBufferLen then outBufferLen.toNatClampNeg else 0⟩

/-- `if (outDataLen + have > outBufferLen)` with the block that `realloc` gives, if any. -/
def reserve (alloc : Int32 → Bool) (buffer : OutBuffer) (outLen : Nat) : Option OutBuffer :=
  let needed := Int32.ofNat buffer.outData.length + Int32.ofNat outLen
  if needed > buffer.outBufferLen then
    let outBufferLen := needed <<< 1
    if alloc outBufferLen then
      some { buffer with outBufferLen, memory := outBufferLen.toNatClampNeg }
    else none
  else some buffer

/-- `memcpy` behind the output so far. -/
def write (buffer : OutBuffer) (out : StdString) : Except WriteFault OutBuffer :=
  if buffer.outData.length + out.length ≤ buffer.memory then
    .ok { buffer with outData := buffer.outData ++ out }
  else .error .outside

/-- What both loops do with the output of a call, `src/common/UtilAll.h:193–208,283–298`; `none`
stands for `return false`. -/
def append (alloc : Int32 → Bool) (buffer : OutBuffer) (out : StdString) :
    Except WriteFault (Option OutBuffer) :=
  match buffer.reserve alloc out.length with
  | none => .ok none
  | some grown => some <$> grown.write out

/-- The size that is kept is one that there is. -/
structure Backed (buffer : OutBuffer) : Prop where
  backed : buffer.outBufferLen.toInt ≤ buffer.memory
  inside : buffer.outData.length ≤ buffer.memory

/-! ### Doubling -/

/-- An `int` shifted by one bit is added to itself. -/
theorem shiftLeft_one (n : Int32) : n <<< 1 = n + n := by
  apply Int32.toBitVec_inj.mp
  apply BitVec.eq_of_toNat_eq
  simp [Int32.toBitVec_shiftLeft, Nat.shiftLeft_eq]
  omega

theorem toInt_doubled (n : Nat) :
    (Int32.ofNat n <<< 1).toInt = ((2 * n : Nat) : Int).bmod (2 ^ 32) := by
  rw [shiftLeft_one, ← Int32.ofNat_add, Int32.toInt_ofNat', ← Nat.two_mul]
  rfl

variable {alloc : Int32 → Bool} {buffer buffer' : OutBuffer} {out : StdString}

/-- Below `2^30` the doubling is right. -/
theorem toInt_doubled_of_lt {n : Nat} (hlt : n < 2 ^ 30) :
    (Int32.ofNat n <<< 1).toInt = 2 * n := by
  rw [toInt_doubled, Int.bmod_eq_of_le (by omega) (by omega)]
  push_cast
  rfl

/-- From `2^30` on it is negative. -/
theorem doubled_neg {n : Nat} (hlow : 2 ^ 30 ≤ n) (hhigh : n < 2 ^ 31) :
    Int32.ofNat n <<< 1 < 0 := by
  rw [Int32.lt_iff_toInt_lt, toInt_doubled, Int.bmod_def, Int32.toInt_zero]
  omega

/-! ### Appending -/

/-- The first block has the size asked for, or that is negative. -/
theorem backed_malloc (halloc : Allocates alloc) (outBufferLen : Int32) :
    (malloc alloc outBufferLen).Backed := by
  refine ⟨?_, Nat.zero_le _⟩
  rw [malloc]
  by_cases hneg : 0 ≤ outBufferLen
  · rw [if_pos (halloc outBufferLen hneg)]
    exact Int.self_le_toNat _
  · rw [Int32.le_iff_toInt_le, Int.not_le] at hneg
    exact Int.le_trans (Int.le_of_lt hneg) (Int.natCast_nonneg _)

/-- A block that `realloc` gave has what was written, and the size that is kept. -/
theorem reserve_eq_some {outLen : Nat} {grown : OutBuffer}
    (hgrown : buffer.reserve alloc outLen = some grown) :
    grown.outData = buffer.outData ∧
      (buffer.Backed → grown.outBufferLen.toInt ≤ grown.memory) := by
  rw [reserve] at hgrown
  simp only at hgrown
  split_ifs at hgrown <;> cases hgrown
  · exact ⟨rfl, fun _ ↦ Int.self_le_toNat _⟩
  · exact ⟨rfl, fun h ↦ h.backed⟩

/-- As long as less than `2^30` bytes are needed, there is a block for them. -/
theorem reserve_of_lt (halloc : Allocates alloc) (h : buffer.Backed) {outLen : Nat}
    (hlt : buffer.outData.length + outLen < 2 ^ 30) :
    ∃ grown, buffer.reserve alloc outLen = some grown ∧
      buffer.outData.length + outLen ≤ grown.memory := by
  have hdouble := toInt_doubled_of_lt hlt
  have hbacked := h.backed
  rw [reserve, ← Int32.ofNat_add]
  simp only
  split_ifs with hgrows hgiven
  · refine ⟨_, rfl, ?_⟩
    simp only [Int32.toNatClampNeg, hdouble]
    omega
  · refine absurd (halloc _ ?_) hgiven
    rw [Int32.le_iff_toInt_le, hdouble, Int32.toInt_zero]
    omega
  · refine ⟨_, rfl, ?_⟩
    rw [gt_iff_lt, Int32.lt_iff_toInt_lt, Int32.toInt_ofNat_of_lt (by omega)] at hgrows
    omega

/-- As long as less than `2^30` bytes are needed, output can be appended. -/
theorem append_of_lt (halloc : Allocates alloc) (h : buffer.Backed)
    (hlt : buffer.outData.length + out.length < 2 ^ 30) :
    ∃ buffer', buffer.append alloc out = .ok (some buffer') := by
  obtain ⟨grown, hreserve, hroom⟩ := reserve_of_lt halloc h hlt
  rw [← (reserve_eq_some hreserve).1] at hroom
  refine ⟨{ grown with outData := grown.outData ++ out }, ?_⟩
  rw [append, hreserve]
  simp only [write, if_pos hroom]
  rfl

/-- What was appended is written to the block that was made ready. -/
theorem append_eq_some (h : buffer.append alloc out = .ok (some buffer')) :
    ∃ grown, buffer.reserve alloc out.length = some grown ∧
      buffer' = { grown with outData := grown.outData ++ out } ∧
      buffer'.outData.length ≤ buffer'.memory := by
  rw [append] at h
  split at h
  · cases h
  · next grown hreserve =>
    rw [write] at h
    split_ifs at h with hroom
    · cases h
      exact ⟨grown, hreserve, rfl, by rw [List.length_append]; exact hroom⟩
    · cases h

/-- It is the output. -/
theorem outData_append (h : buffer.append alloc out = .ok (some buffer')) :
    buffer'.outData = buffer.outData ++ out := by
  obtain ⟨grown, hreserve, rfl, -⟩ := append_eq_some h
  rw [(reserve_eq_some hreserve).1]

/-- And the size that is kept is still one that there is. -/
theorem backed_append (h : buffer.Backed) (happend : buffer.append alloc out = .ok (some buffer')) :
    buffer'.Backed := by
  obtain ⟨grown, hreserve, rfl, hinside⟩ := append_eq_some happend
  exact ⟨(reserve_eq_some hreserve).2 h, hinside⟩

/-- Where `2^30` bytes or more are needed and the block is too small for them, the doubling is
negative, and there is no memory. -/
theorem append_of_ge (hrefused : ∀ size < 0, alloc size = false)
    (hgrows : buffer.outBufferLen.toInt < buffer.outData.length + out.length)
    (hlow : 2 ^ 30 ≤ buffer.outData.length + out.length)
    (hhigh : buffer.outData.length + out.length < 2 ^ 31) :
    buffer.append alloc out = .ok none := by
  have hneeded : Int32.ofNat (buffer.outData.length + out.length) > buffer.outBufferLen := by
    rw [gt_iff_lt, Int32.lt_iff_toInt_lt, Int32.toInt_ofNat_of_lt hhigh]
    exact_mod_cast hgrows
  have hnone : buffer.reserve alloc out.length = none := by
    rw [reserve, ← Int32.ofNat_add, if_pos hneeded]
    simp only [hrefused _ (doubled_neg hlow hhigh), Bool.false_eq_true, if_false]
  rw [append, hnone]

end OutBuffer
end RocketMQ
