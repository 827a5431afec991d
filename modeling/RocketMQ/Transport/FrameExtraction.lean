import RocketMQ.Transport.TcpTransport

/-!
# Frame extraction on any bytes

`GetMsgSize` adds 4 to an untrusted prefix in 32 bits. A prefix of at least `2 ^ 32 - 4` wraps
around to a size below 4, with which `ProcessData` hands out strings shorter than a prefix, or
empty ones without end.
-/

namespace RocketMQ

/-- As long as its own first four bytes say, and those four more. -/
def WellSized (data : StdString) : Prop := data.length = 4 + Base.beNat (data.take 4)

/-- The prefixes at the fronts of the frames in a buffer, the one of an incomplete frame at its
end included. -/
def prefixes (buf : StdString) : List Nat :=
  if 4 < buf.length then
    Base.beNat (buf.take 4) :: prefixes (buf.drop (Base.beNat (buf.take 4) + 4))
  else []
termination_by buf.length
decreasing_by
  rw [List.length_drop]
  omega

namespace RecvBuffer

/-- `ProcessData` comes back, and what it hands out is well sized. -/
def Extracts (realloc : Nat → Bool) (b : RecvBuffer) : Prop :=
  ∃ r, Base.Yields (processPass realloc) (b, []) r ∧ ∀ data ∈ r.2, WellSized data

section Extraction

variable {realloc : Nat → Bool} {b : RecvBuffer} {out : List StdString}

/-- A prefix is a 32-bit number. -/
theorem beNat_take_four_lt (buf : StdString) : Base.beNat (buf.take 4) < 2 ^ 32 := by
  have hlt := Base.beNat_lt (buf.take 4)
  have hle : 256 ^ (buf.take 4).length ≤ 256 ^ 4 :=
    Nat.pow_le_pow_right (by decide) (List.length_take_le 4 buf)
  omega

theorem getMsgSize_of_lt {buf : StdString} (h : Base.beNat (buf.take 4) + 4 < 2 ^ 32) :
    getMsgSize buf = Base.beNat (buf.take 4) + 4 := by
  rw [getMsgSize, Nat.mod_eq_of_lt h]

/-- A prefix that wraps around gives a size below 4. -/
theorem getMsgSize_lt_four {buf : StdString} (h : 2 ^ 32 ≤ Base.beNat (buf.take 4) + 4) :
    getMsgSize buf < 4 := by
  have hlt := beNat_take_four_lt buf
  rw [getMsgSize]
  omega

/-- A string of fewer than four bytes is not well sized. -/
theorem not_wellSized_of_lt {data : StdString} (h : data.length < 4) : ¬ WellSized data := by
  intro hsize
  rw [WellSized] at hsize
  omega

/-- A pass takes nothing back that was handed out. -/
theorem prefix_pass (realloc : Nat → Bool) (s : RecvBuffer × List StdString)
    (h : out <+: s.2) :
    (processPass realloc s).Meets (fun t ↦ out <+: t.2) (fun r ↦ out <+: r.2) := by
  obtain ⟨b, out'⟩ := s
  simp only [processPass]
  split_ifs
  · exact h
  · exact h
  · exact List.IsPrefix.trans h (List.prefix_append out' _)
  · exact h
  · exact h

theorem prefix_of_yields {r : RecvBuffer × List StdString}
    (hr : Base.Yields (processPass realloc) (b, out) r) : out <+: r.2 :=
  Base.post_of_yields (fun s ↦ out <+: s.2) (fun r ↦ out <+: r.2) (prefix_pass realloc)
    (List.prefix_refl out) hr

/-- What a pass starts from as long as no prefix wraps around: a buffer in order and well-sized
strings. -/
structure InOrder (s : RecvBuffer × List StdString) : Prop where
  wellFormed : s.1.WellFormed
  prefixes_lt : ∀ n ∈ prefixes s.1.recvBuf, n + 4 < 2 ^ 32
  wellSized : ∀ data ∈ s.2, WellSized data

/-- One pass when the prefix at the front does not wrap around: it hands out a well-sized
string, or leaves. -/
theorem extracts_pass (realloc : Nat → Bool) (s : RecvBuffer × List StdString) (h : InOrder s) :
    (processPass realloc s).Meets
      (fun t ↦ InOrder t ∧ t.1.recvBuf.length < s.1.recvBuf.length)
      (fun r ↦ ∀ data ∈ r.2, WellSized data) := by
  obtain ⟨b, out⟩ := s
  obtain ⟨h, hprefixes, hout⟩ := h
  dsimp only at h hprefixes hout
  rcases Nat.lt_or_ge 4 b.recvBuf.length with hlen | hshort
  · rw [prefixes, if_pos hlen, List.forall_mem_cons] at hprefixes
    have hsize := getMsgSize_of_lt hprefixes.1
    rcases Nat.lt_or_ge b.recvBufSize (getMsgSize b.recvBuf) with hbig | hfits
    · rw [processPass_grow realloc out hlen hbig]
      exact hout
    · rcases Nat.lt_or_ge b.recvBuf.length (getMsgSize b.recvBuf) with hwait | hthere
      · obtain ⟨_, _, -, heq⟩ := processPass_wait realloc out h hlen hfits hwait
        rw [heq]
        exact hout
      · obtain ⟨shrinkMax, cnt, hmax, heq⟩ := processPass_frame realloc out h hlen hthere
        rw [heq]
        refine ⟨⟨h.drop hmax cnt _, ?_, ?_⟩, ?_⟩
        · rw [hsize]
          exact hprefixes.2
        · intro data hdata
          rcases List.mem_append.mp hdata with hold | hnew
          · exact hout data hold
          · obtain rfl := List.mem_singleton.mp hnew
            rw [WellSized, List.length_take, Nat.min_eq_left hthere, List.take_take,
              Nat.min_eq_left (by omega), hsize, Nat.add_comm]
        · simp only [List.length_drop]
          omega
  · rw [processPass_short hshort]
    exact hout

/-- Without a prefix that wraps around everything handed out is well sized. -/
theorem extracts_of_prefixes (h : b.WellFormed)
    (hprefixes : ∀ n ∈ prefixes b.recvBuf, n + 4 < 2 ^ 32) : b.Extracts realloc := by
  have hstart : InOrder (b, []) := ⟨h, hprefixes, nofun⟩
  obtain ⟨r, hr, hpost⟩ := Base.loop_of_variant InOrder
    (fun r : RecvBuffer × List StdString ↦ ∀ data ∈ r.2, WellSized data)
    (fun s ↦ s.1.recvBuf.length) (extracts_pass realloc) hstart
  exact ⟨r, ⟨_, hr⟩, hpost⟩

/-- With a prefix that wraps around, a loop that ends has handed out a string that is too
short. -/
theorem not_wellSized_of_prefixes {r : RecvBuffer × List StdString} (h : b.WellFormed)
    (hbad : ∃ n ∈ prefixes b.recvBuf, 2 ^ 32 ≤ n + 4)
    (hr : Base.Yields (processPass realloc) (b, out) r) : ∃ data ∈ r.2, ¬ WellSized data := by
  induction hn : b.recvBuf.length using Nat.strongRecOn generalizing b out with
  | ind n ih =>
    subst hn
    obtain ⟨n, hmem, hwraps⟩ := hbad
    rw [prefixes] at hmem
    split at hmem
    · next hlen =>
      rcases Nat.lt_or_ge (Base.beNat (b.recvBuf.take 4) + 4) (2 ^ 32) with hfront | hfront
      · -- the prefix at the front is in order, so the bad one is behind the first frame
        have hsize := getMsgSize_of_lt hfront
        rcases List.mem_cons.mp hmem with rfl | hbehind
        · omega
        · have hthere : getMsgSize b.recvBuf ≤ b.recvBuf.length := by
            by_contra hshort
            rw [← hsize, List.drop_eq_nil_of_le (Nat.le_of_not_le hshort), prefixes] at hbehind
            simp at hbehind
          obtain ⟨shrinkMax, cnt, hmax, heq⟩ := processPass_frame realloc out h hlen hthere
          rw [Base.yields_iff_of_again heq] at hr
          refine ih _ ?_ (h.drop hmax cnt _) ⟨n, by rwa [hsize], hwraps⟩ hr rfl
          simp only [List.length_drop]
          omega
      · have hsmall := getMsgSize_lt_four hfront
        obtain ⟨_, _, -, heq⟩ := processPass_frame realloc out h hlen (by omega)
        rw [Base.yields_iff_of_again heq] at hr
        refine ⟨b.recvBuf.take (getMsgSize b.recvBuf), ?_, not_wellSized_of_lt ?_⟩
        · exact (prefix_of_yields hr).subset (List.mem_append_right _ (List.mem_singleton.mpr rfl))
        · exact Nat.lt_of_le_of_lt (List.length_take_le _ _) hsmall
    · cases hmem

end Extraction
end RecvBuffer

namespace TcpTransport

/-- **Frame extraction**: whatever a transport holds, `ProcessData` comes back with well-sized
strings exactly when no prefix it meets is `2 ^ 32 - 4` or more. -/
theorem extracts_iff_prefixes_lt (realloc : Nat → Bool) (t : TcpTransport) :
    t.toRecvBuffer.Extracts realloc ↔ ∀ n ∈ prefixes t.recvBuf, n < 2 ^ 32 - 4 := by
  constructor
  · rintro ⟨r, hr, hsized⟩ n hn
    by_contra hbad
    obtain ⟨data, hdata, hnot⟩ :=
      RecvBuffer.not_wellSized_of_prefixes t.wellFormed ⟨n, hn, by omega⟩ hr
    exact hnot (hsized data hdata)
  · intro h
    apply RecvBuffer.extracts_of_prefixes t.wellFormed
    intro n hn
    have hlt := h n hn
    omega

/-- Five bytes whose prefix is `2 ^ 32 - 4`. -/
def wrapped : TcpTransport :=
  connected.recvMsg (.bytes [255, 255, 255, 252, 0]) (by decide)

/-- `ProcessData` hands out empty strings and never comes back. -/
theorem wrapped_prefix_hangs :
    ¬ Base.Ends (RecvBuffer.processPass fun _ ↦ true) (wrapped.toRecvBuffer, []) ∧
      ¬ wrapped.toRecvBuffer.Extracts fun _ ↦ true := by
  have hhangs : ¬ Base.Ends (RecvBuffer.processPass fun _ ↦ true) (wrapped.toRecvBuffer, []) :=
    RecvBuffer.not_ends_of_getMsgSize_eq_zero wrapped.wellFormed (by decide) (by decide)
  exact ⟨hhangs, fun ⟨r, hr, _⟩ ↦ hhangs ⟨r, hr⟩⟩

end TcpTransport
end RocketMQ
