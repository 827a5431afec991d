import RocketMQ.Base.Bytes
import RocketMQ.Base.Loop
import RocketMQ.Base.Run
import RocketMQ.Message.MessageQueue

/-!
# Cutting the received bytes into frames

The receiving side of `src/transport/TcpTransport.cpp`. A frame is a length prefix of four
bytes, most significant first, and as many bytes as it says. The buffer grows when a prefix
announces more than it holds; what a socket delivers and whether `realloc` succeeds are
parameters. `m_pRecvBuf` is kept as the `m_recvBufUsed` bytes in use.
-/

namespace RocketMQ

/-- `DEFAULT_SHRINK_COUNT`, `src/transport/TcpTransport.cpp:29`. -/
def defaultShrinkCount : Nat := 32

/-- `DEFAULT_RECV_BUFFER_SIZE`, `src/transport/TcpTransport.cpp:30`. -/
def defaultRecvBufferSize : Nat := 1024 * 16

/-- The fields of a `TcpTransport` that receiving uses. -/
structure RecvBuffer where
  recvBuf : StdString
  recvBufSize : Nat
  shrinkMax : Nat
  shrinkCheckCnt : Nat
deriving DecidableEq

/-- `TcpTransport::GetMsgSize`, `src/transport/TcpTransport.cpp:368–375`, in `uint32_t`. -/
def getMsgSize (buf : StdString) : Nat := (Base.beNat (buf.take 4) + 4) % 2 ^ 32

namespace RecvBuffer

/-- `TcpTransport::ResizeBuf`, `src/transport/TcpTransport.cpp:337–349`. -/
def resizeBuf (realloc : Nat → Bool) (b : RecvBuffer) (newSize : Nat) : RecvBuffer × Bool :=
  if realloc newSize then ({ b with recvBufSize := newSize }, true) else (b, false)

/-- `TcpTransport::TryShrink`, `src/transport/TcpTransport.cpp:351–366`. -/
def tryShrink (realloc : Nat → Bool) (b : RecvBuffer) (msgLen : Nat) : RecvBuffer :=
  let b := { b with shrinkMax := if msgLen > b.shrinkMax then msgLen else b.shrinkMax }
  if b.shrinkCheckCnt = 0 then
    let b := { b with shrinkCheckCnt := defaultShrinkCount }
    if b.recvBufSize > b.shrinkMax then (b.resizeBuf realloc b.shrinkMax).1 else b
  else { b with shrinkCheckCnt := b.shrinkCheckCnt - 1 }

/-- One pass of the loop of `TcpTransport::ProcessData`,
`src/transport/TcpTransport.cpp:384–417`, on the buffer and `outDataList`. -/
def processPass (realloc : Nat → Bool) :
    RecvBuffer × List StdString → Base.Pass (RecvBuffer × List StdString)
      (RecvBuffer × List StdString)
  | (b, outDataList) =>
    if b.recvBuf.length > 4 then
      let msgLen := getMsgSize b.recvBuf
      if msgLen > b.recvBufSize then
        let (resized, ok) := b.resizeBuf realloc msgLen
        .leave (if ok then { resized with shrinkCheckCnt := defaultShrinkCount } else resized,
          outDataList)
      else
        let b := b.tryShrink realloc msgLen
        if b.recvBuf.length ≥ msgLen then
          .again ({ b with recvBuf := b.recvBuf.drop msgLen },
            outDataList ++ [b.recvBuf.take msgLen])
        else .leave (b, outDataList)
    else .leave (b, outDataList)

/-- `TcpTransport::ProcessData`; `none` when it does not come back. -/
def processData (realloc : Nat → Bool) (b : RecvBuffer) : Option (RecvBuffer × List StdString) :=
  Base.loop (processPass realloc) (b.recvBuf.length + 1) (b, [])

/-- What holds between calls: the used bytes fit, a prefix fits, and a buffer above the
shrink maximum has just been grown for the frame at its front, so that `TryShrink` never
cuts off bytes in use. -/
structure WellFormed (b : RecvBuffer) : Prop where
  used_le : b.recvBuf.length ≤ b.recvBufSize
  prefix_lt : 4 < b.recvBufSize
  shrink : b.recvBufSize ≤ b.shrinkMax ∨
    4 < b.recvBuf.length ∧ getMsgSize b.recvBuf = b.recvBufSize

/-! ### One pass -/

section Pass

variable {realloc : Nat → Bool} {b : RecvBuffer} {out : List StdString}

/-- The prefix of a buffer that holds one is not changed by what is received behind it. -/
theorem getMsgSize_append {buf : StdString} (h : 4 ≤ buf.length) (chunk : StdString) :
    getMsgSize (buf ++ chunk) = getMsgSize buf := by
  rw [getMsgSize, List.take_append_of_le_length h, getMsgSize]

/-- In a well-formed buffer `TryShrink` changes its counters and nothing else. -/
theorem tryShrink_eq (realloc : Nat → Bool) (h : b.WellFormed) :
    ∃ shrinkMax shrinkCheckCnt, b.recvBufSize ≤ shrinkMax ∧
      b.tryShrink realloc (getMsgSize b.recvBuf) = { b with shrinkMax, shrinkCheckCnt } := by
  have hmax : b.recvBufSize ≤
      if getMsgSize b.recvBuf > b.shrinkMax then getMsgSize b.recvBuf else b.shrinkMax := by
    rcases h.shrink with hle | ⟨-, hgrown⟩ <;> split <;> omega
  unfold tryShrink
  by_cases hcnt : b.shrinkCheckCnt = 0
  · simp only [hcnt, if_true, gt_iff_lt, if_neg (Nat.not_lt.mpr hmax)]
    exact ⟨_, _, hmax, rfl⟩
  · simp only [hcnt, if_false]
    exact ⟨_, _, hmax, rfl⟩

/-- Too few bytes for a frame: the loop leaves. -/
theorem processPass_short (h : b.recvBuf.length ≤ 4) :
    processPass realloc (b, out) = .leave (b, out) := by
  simp [processPass, Nat.not_lt.mpr h]

/-- A prefix that announces more than the buffer holds: the loop grows it and leaves. -/
theorem processPass_grow (realloc : Nat → Bool) (out : List StdString)
    (hlen : 4 < b.recvBuf.length)
    (hbig : b.recvBufSize < getMsgSize b.recvBuf) :
    processPass realloc (b, out) = .leave
      (if realloc (getMsgSize b.recvBuf) then
        { b with recvBufSize := getMsgSize b.recvBuf, shrinkCheckCnt := defaultShrinkCount }
        else b, out) := by
  simp only [processPass, gt_iff_lt, hlen, if_true, hbig, resizeBuf]
  by_cases hok : realloc (getMsgSize b.recvBuf) = true <;> simp [hok]

/-- A frame that is not there as a whole yet: the loop leaves. -/
theorem processPass_wait (realloc : Nat → Bool) (out : List StdString) (h : b.WellFormed)
    (hlen : 4 < b.recvBuf.length)
    (hfits : getMsgSize b.recvBuf ≤ b.recvBufSize)
    (hwait : b.recvBuf.length < getMsgSize b.recvBuf) :
    ∃ shrinkMax shrinkCheckCnt, b.recvBufSize ≤ shrinkMax ∧
      processPass realloc (b, out) = .leave ({ b with shrinkMax, shrinkCheckCnt }, out) := by
  obtain ⟨shrinkMax, shrinkCheckCnt, hmax, heq⟩ := tryShrink_eq realloc h
  refine ⟨shrinkMax, shrinkCheckCnt, hmax, ?_⟩
  simp only [processPass, gt_iff_lt, hlen, if_true, Nat.not_lt.mpr hfits, if_false, heq,
    ge_iff_le, Nat.not_le.mpr hwait]

/-- A frame that is there: the loop hands it out and goes on behind it. -/
theorem processPass_frame (realloc : Nat → Bool) (out : List StdString) (h : b.WellFormed)
    (hlen : 4 < b.recvBuf.length)
    (hthere : getMsgSize b.recvBuf ≤ b.recvBuf.length) :
    ∃ shrinkMax shrinkCheckCnt, b.recvBufSize ≤ shrinkMax ∧
      processPass realloc (b, out) = .again
        ({ b with shrinkMax, shrinkCheckCnt, recvBuf := b.recvBuf.drop (getMsgSize b.recvBuf) },
          out ++ [b.recvBuf.take (getMsgSize b.recvBuf)]) := by
  have hfits : getMsgSize b.recvBuf ≤ b.recvBufSize := Nat.le_trans hthere h.used_le
  obtain ⟨shrinkMax, shrinkCheckCnt, hmax, heq⟩ := tryShrink_eq realloc h
  refine ⟨shrinkMax, shrinkCheckCnt, hmax, ?_⟩
  simp only [processPass, gt_iff_lt, hlen, if_true, Nat.not_lt.mpr hfits, if_false, heq,
    ge_iff_le, hthere]

/-- Handing out a frame leaves a well-formed buffer. -/
theorem WellFormed.drop (h : b.WellFormed) {shrinkMax : Nat} (hmax : b.recvBufSize ≤ shrinkMax)
    (shrinkCheckCnt n : Nat) :
    WellFormed { b with shrinkMax, shrinkCheckCnt, recvBuf := b.recvBuf.drop n } where
  used_le := by
    have hle := h.used_le
    simp only [List.length_drop]
    omega
  prefix_lt := h.prefix_lt
  shrink := .inl hmax

/-- Growing for the frame at the front leaves a well-formed buffer. -/
theorem WellFormed.grow (h : b.WellFormed) (hlen : 4 < b.recvBuf.length)
    (hbig : b.recvBufSize < getMsgSize b.recvBuf) :
    WellFormed { b with
      recvBufSize := getMsgSize b.recvBuf, shrinkCheckCnt := defaultShrinkCount } where
  used_le := Nat.le_of_lt (Nat.lt_of_le_of_lt h.used_le hbig)
  prefix_lt := Nat.lt_trans h.prefix_lt hbig
  shrink := .inr ⟨hlen, rfl⟩

/-- Step lemma: a pass goes from one well-formed buffer to the next. -/
theorem wellFormed_pass (realloc : Nat → Bool) (s : RecvBuffer × List StdString)
    (h : s.1.WellFormed) :
    (processPass realloc s).Meets (fun t ↦ t.1.WellFormed) (fun r ↦ r.1.WellFormed) := by
  obtain ⟨b, out⟩ := s
  rcases Nat.lt_or_ge 4 b.recvBuf.length with hlen | hshort
  · rcases Nat.lt_or_ge b.recvBufSize (getMsgSize b.recvBuf) with hbig | hfits
    · rw [processPass_grow realloc out hlen hbig]
      cases realloc (getMsgSize b.recvBuf)
      · exact h
      · exact h.grow hlen hbig
    · rcases Nat.lt_or_ge b.recvBuf.length (getMsgSize b.recvBuf) with hwait | hthere
      · obtain ⟨shrinkMax, cnt, hmax, heq⟩ := processPass_wait realloc out h hlen hfits hwait
        rw [heq]
        exact h.drop hmax cnt 0
      · obtain ⟨shrinkMax, cnt, hmax, heq⟩ := processPass_frame realloc out h hlen hthere
        rw [heq]
        exact h.drop hmax cnt _
  · rw [processPass_short hshort]
    exact h

end Pass

/-- Loop lemma: `ProcessData` leaves a well-formed buffer. -/
theorem wellFormed_processData {realloc : Nat → Bool} {b : RecvBuffer}
    {r : RecvBuffer × List StdString} (h : b.WellFormed) (hr : b.processData realloc = some r) :
    r.1.WellFormed :=
  Base.post_of_yields (fun s ↦ s.1.WellFormed) (fun s ↦ s.1.WellFormed)
    (wellFormed_pass realloc) h ⟨_, hr⟩

/-- A frame of size 0 at the front is handed out for ever. -/
theorem not_ends_of_getMsgSize_eq_zero {realloc : Nat → Bool} {b : RecvBuffer}
    {out : List StdString} (h : b.WellFormed) (hlen : 4 < b.recvBuf.length)
    (hzero : getMsgSize b.recvBuf = 0) : ¬ Base.Ends (processPass realloc) (b, out) := by
  refine Base.not_ends_of_stuck
    (fun s ↦ s.1.WellFormed ∧ 4 < s.1.recvBuf.length ∧ getMsgSize s.1.recvBuf = 0)
    ?_ ⟨h, hlen, hzero⟩
  rintro ⟨b, out⟩ ⟨h, hlen, hzero⟩
  obtain ⟨shrinkMax, cnt, hmax, heq⟩ := processPass_frame realloc out h hlen
    (hzero ▸ Nat.zero_le _)
  rw [hzero] at heq
  exact ⟨_, heq, h.drop hmax cnt 0, hlen, hzero⟩

/-- As many passes as there are bytes, and one more, are enough for a loop that ends. -/
theorem loop_of_yields {realloc : Nat → Bool} {b : RecvBuffer} {out : List StdString}
    {r : RecvBuffer × List StdString} (h : b.WellFormed)
    (hr : Base.Yields (processPass realloc) (b, out) r) :
    Base.loop (processPass realloc) (b.recvBuf.length + 1) (b, out) = some r := by
  induction hn : b.recvBuf.length using Nat.strongRecOn generalizing b out with
  | ind n ih =>
    subst hn
    have hpass := wellFormed_pass realloc (b, out) h
    cases hb : processPass realloc (b, out) with
    | leave r' =>
      have hr' := Base.yields_unique hr (Base.yields_of_leave hb)
      rw [Base.loop_of_leave _ hb, hr']
    | again t =>
      rw [hb] at hpass
      obtain ⟨b', out'⟩ := t
      have hlen : 4 < b.recvBuf.length := by
        by_contra hshort
        rw [processPass_short (Nat.not_lt.mp hshort)] at hb
        cases hb
      have hpos : getMsgSize b.recvBuf ≠ 0 := fun hzero ↦
        not_ends_of_getMsgSize_eq_zero h hlen hzero ⟨r, hr⟩
      have hless : b'.recvBuf.length < b.recvBuf.length := by
        simp only [processPass, gt_iff_lt, hlen, if_true] at hb
        split at hb
        · cases hb
        · split at hb
          · cases hb
            obtain ⟨_, _, -, heq⟩ := tryShrink_eq realloc h
            simp only [heq, List.length_drop]
            omega
          · cases hb
      rw [Base.loop_of_again _ hb]
      exact Base.loop_mono hless (ih _ hless hpass ((Base.yields_iff_of_again hb).mp hr) rfl)

/-- `ProcessData` comes back exactly when its loop ends. -/
theorem processData_eq_some_iff {realloc : Nat → Bool} {b : RecvBuffer}
    {r : RecvBuffer × List StdString} (h : b.WellFormed) :
    b.processData realloc = some r ↔ Base.Yields (processPass realloc) (b, []) r :=
  ⟨fun hr ↦ ⟨_, hr⟩, loop_of_yields h⟩

end RecvBuffer

/-! ### The transport -/

/-- `CLIENT_STATE_*`, `src/transport/TcpTransport.h:26–29`. -/
inductive ClientState where
  | uninit
  | inited
  | disconnect
  | connected
deriving DecidableEq

/-- The receiving side of a `TcpTransport`, between two calls. -/
structure TcpTransport extends RecvBuffer where
  state : ClientState
  wellFormed : toRecvBuffer.WellFormed

/-- What `recv` or `SSL_read` comes to: some bytes, the end of the stream, nothing to read
for now, or another error. -/
inductive SocketRead where
  | bytes (chunk : StdString)
  | closed
  | wouldBlock
  | failed

/-- The bytes that were read. -/
def SocketRead.data : SocketRead → StdString
  | .bytes chunk => chunk
  | .closed | .wouldBlock | .failed => []

namespace TcpTransport

/-- After `Connect`, with the configuration of `GetAndCreateTransport`, which sets nothing but
`tcp.transport.enableSSL`, `src/transport/TcpRemotingClient.cpp:237–239`. -/
def connected : TcpTransport where
  recvBuf := []
  recvBufSize := defaultRecvBufferSize
  shrinkMax := defaultRecvBufferSize
  shrinkCheckCnt := defaultShrinkCount
  state := .connected
  wellFormed := ⟨by decide, by decide, .inl (Nat.le_refl _)⟩

/-- `TcpTransport::Close`, `src/transport/TcpTransport.cpp:232–238`. -/
def close (t : TcpTransport) : TcpTransport :=
  { t with state := if t.state = .connected then .disconnect else t.state }

/-- The socket gives no more than the free space it is asked to fill. -/
def Fits (t : TcpTransport) : SocketRead → Prop
  | .bytes chunk => chunk ≠ [] ∧ chunk.length ≤ t.recvBufSize - t.recvBuf.length
  | .closed | .wouldBlock | .failed => True

instance (t : TcpTransport) : (read : SocketRead) → Decidable (t.Fits read)
  | .bytes _ => inferInstanceAs (Decidable (_ ∧ _))
  | .closed | .wouldBlock | .failed => inferInstanceAs (Decidable True)

/-- `TcpTransport::RecvMsg`, `src/transport/TcpTransport.cpp:308–335`. -/
def recvMsg (t : TcpTransport) : (read : SocketRead) → t.Fits read → TcpTransport
  | .bytes chunk, hfits =>
    { t with
      recvBuf := t.recvBuf ++ chunk
      wellFormed :=
        { used_le := by
            have hfree := Nat.add_le_of_le_sub' t.wellFormed.used_le hfits.2
            rwa [List.length_append]
          prefix_lt := t.wellFormed.prefix_lt
          shrink := t.wellFormed.shrink.imp_right fun ⟨hlen, hgrown⟩ ↦
            ⟨by rw [List.length_append]; omega,
              (RecvBuffer.getMsgSize_append (Nat.le_of_lt hlen) chunk).trans hgrown⟩ } }
  | .closed, _ | .failed, _ => t.close
  | .wouldBlock, _ => t

/-- `TcpTransport::RecvData`, `src/transport/TcpTransport.cpp:377–382`, with what it appends to
`outDataList`; `none` when it does not come back. -/
def recvData (realloc : Nat → Bool) (t : TcpTransport) (read : SocketRead)
    (hfits : t.Fits read) : Option (TcpTransport × List StdString) :=
  match hr : (t.recvMsg read hfits).processData realloc with
  | none => none
  | some (b, out) =>
    some ({ b with
      state := (t.recvMsg read hfits).state
      wellFormed := RecvBuffer.wellFormed_processData (t.recvMsg read hfits).wellFormed hr }, out)

section Calls

variable {realloc : Nat → Bool} {t : TcpTransport} {read : SocketRead} {hfits : t.Fits read}

/-- What was read stands behind what was there. -/
theorem recvBuf_recvMsg (hfits : t.Fits read) :
    (t.recvMsg read hfits).recvBuf = t.recvBuf ++ read.data := by
  cases read <;> simp [recvMsg, SocketRead.data, close]

/-- `RecvData` gives what its `ProcessData` gives. -/
theorem recvData_of_processData (hfits : t.Fits read) {r : RecvBuffer × List StdString}
    (h : (t.recvMsg read hfits).processData realloc = some r) :
    ∃ t', t.recvData realloc read hfits = some (t', r.2) ∧ t'.toRecvBuffer = r.1 := by
  unfold recvData
  split
  · next hr =>
    rw [hr] at h
    cases h
  · next b out hr =>
    obtain rfl := Option.some.inj (hr.symm.trans h)
    exact ⟨_, rfl, rfl⟩

end Calls
end TcpTransport
end RocketMQ
