import RocketMQ.Factory.TopicRoute
import RocketMQ.Transport.TcpTransport

/-!
# Shrinking the receive buffer

`TryShrink` cuts the buffer to the largest frame seen, or to `DEFAULT_RECV_BUFFER_SIZE` when that
is larger, without a look at `m_recvBufUsed`. The calls of `realloc` are steps of their own here,
and the buffer is kept apart from the count of its bytes in use.
-/

namespace RocketMQ

/-- The settings that receiving uses: what `config` holds under `tcp.transport.recvBufferSize` and
`tcp.transport.shrinkCheckMax`. -/
structure TransportConfig where
  recvBufferSize : Option StdString
  shrinkCheckMax : Option StdString
  four_lt : ∀ value ∈ recvBufferSize, 4 < atoi value
  nonneg : ∀ value ∈ shrinkCheckMax, 0 ≤ atoi value

/-- The size of the buffer of a new transport. -/
def TransportConfig.bufferSize (config : TransportConfig) : Nat :=
  ((config.recvBufferSize.map atoi).getD defaultRecvBufferSize).toNat

theorem TransportConfig.four_lt_bufferSize (config : TransportConfig) : 4 < config.bufferSize := by
  rw [bufferSize]
  cases hsize : config.recvBufferSize with
  | none => decide
  | some value =>
    have hlt := config.four_lt value hsize
    simp only [Option.map_some, Option.getD_some]
    omega

/-- The number of passes before its first check. -/
def TransportConfig.checkCount (config : TransportConfig) : Nat :=
  ((config.shrinkCheckMax.map atoi).getD defaultShrinkCount).toNat

/-- Where a `RecvData` stands: before `RecvMsg`, before the condition of the loop of `ProcessData`,
or behind its resizing. -/
inductive RecvPc where
  | recv
  | pass
  | take (msgLen : Nat)
deriving DecidableEq

/-- The receiving side; `recvBuf` is what `m_pRecvBuf` still holds of what was received. -/
structure RecvSide extends RecvBuffer where
  recvBufUsed : Nat
  pc : RecvPc
  outDataList : List StdString
  received : StdString
deriving DecidableEq

/-- What can happen next; each pass has its own `realloc`. -/
inductive RecvSideEvent where
  | recv (read : SocketRead)
  | pass (realloc : Nat → Bool)
  | take

namespace RecvSide

/-- `TcpTransport::TcpTransport`, `src/transport/TcpTransport.cpp:33–66`. -/
def create (config : TransportConfig) : RecvSide where
  recvBuf := []
  recvBufSize := config.bufferSize
  shrinkMax := defaultRecvBufferSize
  shrinkCheckCnt := config.checkCount
  recvBufUsed := 0
  pc := .recv
  outDataList := []
  received := []

/-- A prefix that announces more than the buffer holds, `src/transport/TcpTransport.cpp:390–397`. -/
def growFor (realloc : Nat → Bool) (b : RecvBuffer) (msgLen : Nat) : RecvBuffer :=
  let (resized, ok) := b.resizeBuf realloc msgLen
  if ok then { resized with shrinkCheckCnt := defaultShrinkCount } else resized

/-- After a `realloc` the buffer holds what fits into it. -/
def resized (s : RecvSide) (b : RecvBuffer) (pc : RecvPc) : RecvSide :=
  { s with toRecvBuffer := { b with recvBuf := b.recvBuf.take b.recvBufSize }, pc }

/-- One step of `RecvData`, `src/transport/TcpTransport.cpp:308–417`. The socket is given the free
space; `none` also stands for a `memmove` of bytes that the buffer does not hold. -/
def step (s : RecvSide) : RecvSideEvent → Option RecvSide
  | .recv read =>
    if s.pc = .recv ∧ read.data.length ≤ s.recvBufSize - s.recvBufUsed then
      some { s with
        recvBuf := s.recvBuf ++ read.data
        recvBufUsed := s.recvBufUsed + read.data.length
        received := s.received ++ read.data
        pc := .pass }
    else none
  | .pass realloc =>
    if s.pc = .pass then
      if s.recvBufUsed > 4 then
        let msgLen := getMsgSize s.recvBuf
        some (if msgLen > s.recvBufSize then s.resized (growFor realloc s.toRecvBuffer msgLen) .recv
          else s.resized (s.tryShrink realloc msgLen) (.take msgLen))
      else some { s with pc := .recv }
    else none
  | .take =>
    match s.pc with
    | .take msgLen =>
      if s.recvBufUsed ≥ msgLen then
        if s.recvBuf.length = s.recvBufUsed then
          some { s with
            recvBuf := s.recvBuf.drop msgLen
            recvBufUsed := s.recvBufUsed - msgLen
            outDataList := s.outDataList ++ [s.recvBuf.take msgLen]
            pc := .pass }
        else none
      else some { s with pc := .recv }
    | .recv | .pass => none

/-- The bytes in use fit, the buffer holds all of them, and with what was handed out they are what
was received. -/
structure Kept (s : RecvSide) : Prop where
  used_le : s.recvBufUsed ≤ s.recvBufSize
  held : s.recvBuf.length = s.recvBufUsed
  stream : s.outDataList.flatten ++ s.recvBuf = s.received

/-- The size to which `TryShrink` may cut. -/
def shrinkTo (s : RecvSide) : Nat := max s.shrinkMax (getMsgSize s.recvBuf)

/-- `TryShrink` is called with a counter of zero, and cuts. -/
def Shrinks (s : RecvSide) (realloc : Nat → Bool) : Prop :=
  4 < s.recvBufUsed ∧ getMsgSize s.recvBuf ≤ s.recvBufSize ∧ s.shrinkCheckCnt = 0 ∧
    s.shrinkTo < s.recvBufSize ∧ realloc s.shrinkTo

/-- Where a step shrinks the buffer, no more bytes are in use than it keeps. -/
def ShrinksFitting (s : RecvSide) : RecvSideEvent → Prop
  | .pass realloc => s.Shrinks realloc → s.recvBufUsed ≤ s.shrinkTo
  | .recv _ | .take => True

section Steps

variable {s t : RecvSide} {realloc : Nat → Bool}

/-- What `TryShrink` does, by whether it shrinks. -/
theorem tryShrink_cases (s : RecvSide) (realloc : Nat → Bool) :
    ∃ shrinkCheckCnt, s.tryShrink realloc (getMsgSize s.recvBuf) =
      { s.toRecvBuffer with
        shrinkMax := s.shrinkTo
        shrinkCheckCnt
        recvBufSize := if s.shrinkCheckCnt = 0 ∧ s.shrinkTo < s.recvBufSize ∧ realloc s.shrinkTo
          then s.shrinkTo else s.recvBufSize } := by
  have hmax : (if getMsgSize s.recvBuf > s.shrinkMax then getMsgSize s.recvBuf
      else s.shrinkMax) = s.shrinkTo := by
    rw [shrinkTo, Nat.max_def]
    split_ifs <;> omega
  simp only [RecvBuffer.tryShrink, hmax, RecvBuffer.resizeBuf]
  by_cases hcnt : s.shrinkCheckCnt = 0
  · by_cases hbig : s.shrinkTo < s.recvBufSize
    · by_cases hok : realloc s.shrinkTo = true
      · exact ⟨_, by simp only [hcnt, hbig, hok, and_self, if_true]; rfl⟩
      · exact ⟨_, by simp only [hcnt, hbig, hok, if_true]; rfl⟩
    · exact ⟨_, by simp only [hcnt, hbig, false_and, and_false, if_true]; rfl⟩
  · exact ⟨_, by simp only [hcnt, false_and, if_false]; rfl⟩

/-- A buffer that cannot be grown stays as it is. -/
theorem growFor_eq (realloc : Nat → Bool) (b : RecvBuffer) (msgLen : Nat) :
    growFor realloc b msgLen = if realloc msgLen then
      { b with recvBufSize := msgLen, shrinkCheckCnt := defaultShrinkCount } else b := by
  rw [growFor, RecvBuffer.resizeBuf]
  cases realloc msgLen
  · rfl
  · rfl

/-- The passes that look at a prefix. -/
theorem step_pass (hpc : s.pc = .pass) (hlen : 4 < s.recvBufUsed) :
    s.step (.pass realloc) = some (if getMsgSize s.recvBuf > s.recvBufSize then
      s.resized (growFor realloc s.toRecvBuffer (getMsgSize s.recvBuf)) .recv
      else s.resized (s.tryShrink realloc (getMsgSize s.recvBuf))
        (.take (getMsgSize s.recvBuf))) := by
  rw [step, if_pos hpc, if_pos hlen]

/-- A `realloc` that leaves room for the bytes in use loses nothing. -/
theorem Kept.resized (h : s.Kept) {b : RecvBuffer} (hbuf : b.recvBuf = s.recvBuf)
    (hroom : s.recvBufUsed ≤ b.recvBufSize) (pc : RecvPc) : (s.resized b pc).Kept := by
  have hwhole : (s.resized b pc).recvBuf = s.recvBuf := by
    rw [RecvSide.resized, hbuf, List.take_of_length_le (h.held.trans_le hroom)]
  refine ⟨hroom, ?_, ?_⟩
  · rw [hwhole, h.held]
    rfl
  · rw [hwhole]
    exact h.stream

/-- A pass keeps everything where it does not shrink below the bytes in use. -/
theorem Kept.pass (h : s.Kept) (hfit : s.ShrinksFitting (.pass realloc))
    (hstep : s.step (.pass realloc) = some t) : t.Kept := by
  by_cases hpc : s.pc = .pass
  · by_cases hlen : 4 < s.recvBufUsed
    · rw [step_pass hpc hlen, Option.some.injEq] at hstep
      subst hstep
      split_ifs with hbig
      · rw [growFor_eq]
        split_ifs
        · refine h.resized ?_ ?_ .recv
          · rfl
          · exact h.used_le.trans (Nat.le_of_lt hbig)
        · exact h.resized rfl h.used_le .recv
      · obtain ⟨cnt, heq⟩ := tryShrink_cases s realloc
        rw [heq]
        refine h.resized ?_ ?_ _
        · rfl
        · dsimp only
          split_ifs with hshrinks
          · exact hfit ⟨hlen, Nat.not_lt.mp hbig, hshrinks⟩
          · exact h.used_le
    · rw [step, if_pos hpc, if_neg hlen, Option.some.injEq] at hstep
      subst hstep
      exact ⟨h.used_le, h.held, h.stream⟩
  · rw [step, if_neg hpc] at hstep
    cases hstep

/-- Step lemma: where nothing in use is cut off, nothing is lost. -/
theorem kept_step (s : RecvSide) (e : RecvSideEvent) (t : RecvSide) (h : s.Kept)
    (hfit : s.ShrinksFitting e) (hstep : s.step e = some t) : t.Kept := by
  cases e with
  | recv read =>
    simp only [step, Option.ite_none_right_eq_some, Option.some.injEq] at hstep
    obtain ⟨⟨-, hread⟩, rfl⟩ := hstep
    refine ⟨Nat.add_le_of_le_sub' h.used_le hread, ?_, ?_⟩
    · rw [List.length_append, h.held]
    · rw [← List.append_assoc, h.stream]
  | pass realloc => exact h.pass hfit hstep
  | take =>
    simp only [step] at hstep
    split at hstep
    · next msgLen hpc =>
      split_ifs at hstep with hthere hheld
      · cases hstep
        refine ⟨(Nat.sub_le _ _).trans h.used_le, ?_, ?_⟩
        · rw [List.length_drop, h.held]
        · simp only [List.flatten_append, List.flatten_singleton]
          rw [List.append_assoc, List.take_append_drop, h.stream]
      · cases hstep
        exact ⟨h.used_le, h.held, h.stream⟩
    all_goals cases hstep

/-- A shrink below the bytes in use loses some at once. -/
theorem not_kept_pass (hpc : s.pc = .pass) (hshrinks : s.Shrinks realloc)
    (hcut : s.shrinkTo < s.recvBufUsed) :
    ∃ t, s.step (.pass realloc) = some t ∧ t.recvBufSize < t.recvBufUsed := by
  obtain ⟨hlen, hthere, hcuts⟩ := hshrinks
  obtain ⟨cnt, heq⟩ := tryShrink_cases s realloc
  rw [step_pass hpc hlen, if_neg (Nat.not_lt.mpr hthere), heq, if_pos hcuts]
  exact ⟨_, rfl, hcut⟩

theorem not_kept_step (s : RecvSide) (e : RecvSideEvent) (t : RecvSide)
    (hfit : ¬ s.ShrinksFitting e) (hstep : s.step e = some t) : ¬ t.Kept := by
  cases e with
  | recv read | take => exact absurd trivial hfit
  | pass realloc =>
    obtain ⟨hshrinks, hcut⟩ := Classical.not_imp.mp hfit
    by_cases hpc : s.pc = .pass
    · obtain ⟨t', ht', hlost⟩ := not_kept_pass hpc hshrinks (Nat.not_le.mp hcut)
      obtain rfl := Option.some.inj (hstep.symm.trans ht')
      exact fun hkept ↦ Nat.not_le.mpr hlost hkept.used_le
    · rw [step, if_neg hpc] at hstep
      cases hstep

theorem kept_create (config : TransportConfig) : (create config).Kept :=
  ⟨Nat.zero_le _, rfl, rfl⟩

/-! ### Buffers configured within the default -/

/-- What holds of a transport configured with at most `DEFAULT_RECV_BUFFER_SIZE`: it shrinks only
behind the frame for which it has been grown. -/
structure Tight (s : RecvSide) : Prop where
  kept : s.Kept
  wellFormed : s.toRecvBuffer.WellFormed
  taking : ∀ msgLen, s.pc = .take msgLen → s.recvBufSize ≤ s.shrinkMax

/-- A well-formed buffer is never cut. -/
theorem not_shrinks (h : s.toRecvBuffer.WellFormed) : ¬ s.Shrinks realloc := by
  rintro ⟨-, -, -, hcut, -⟩
  rw [shrinkTo] at hcut
  rcases h.shrink with hle | ⟨-, hgrown⟩ <;> omega

theorem wellFormed_growFor (h : s.toRecvBuffer.WellFormed) (hlen : 4 < s.recvBuf.length)
    (hbig : s.recvBufSize < getMsgSize s.recvBuf) :
    (growFor realloc s.toRecvBuffer (getMsgSize s.recvBuf)).WellFormed := by
  rw [growFor_eq]
  split_ifs
  · exact h.grow hlen hbig
  · exact h

theorem wellFormed_tryShrink (h : s.toRecvBuffer.WellFormed) :
    (s.tryShrink realloc (getMsgSize s.recvBuf)).WellFormed ∧
      (s.tryShrink realloc (getMsgSize s.recvBuf)).recvBufSize ≤
        (s.tryShrink realloc (getMsgSize s.recvBuf)).shrinkMax := by
  obtain ⟨shrinkMax, cnt, hmax, heq⟩ := RecvBuffer.tryShrink_eq realloc h
  rw [heq]
  exact ⟨⟨h.used_le, h.prefix_lt, .inl hmax⟩, hmax⟩

theorem resized_of_wellFormed {b : RecvBuffer} (h : b.WellFormed) (pc : RecvPc) :
    s.resized b pc = { s with toRecvBuffer := b, pc } := by
  rw [resized, List.take_of_length_le h.used_le]

/-- A pass over a well-formed buffer. -/
theorem step_pass_of_wellFormed (h : s.toRecvBuffer.WellFormed) (hpc : s.pc = .pass)
    (hheld : s.recvBuf.length = s.recvBufUsed) (hlen : 4 < s.recvBufUsed) :
    s.step (.pass realloc) = some (if s.recvBufSize < getMsgSize s.recvBuf then
      { s with toRecvBuffer := growFor realloc s.toRecvBuffer (getMsgSize s.recvBuf), pc := .recv }
      else { s with
        toRecvBuffer := s.tryShrink realloc (getMsgSize s.recvBuf)
        pc := .take (getMsgSize s.recvBuf) }) := by
  rw [step_pass hpc hlen]
  congr 1
  split_ifs with hbig
  · exact resized_of_wellFormed (wellFormed_growFor h (by rwa [hheld]) hbig) .recv
  · exact resized_of_wellFormed (wellFormed_tryShrink h).1 _

theorem tight_step (s : RecvSide) (e : RecvSideEvent) (t : RecvSide) (h : s.Tight)
    (hstep : s.step e = some t) : t.Tight := by
  have hfit : s.ShrinksFitting e := by
    cases e with
    | recv read | take => trivial
    | pass realloc => exact fun hshrinks ↦ absurd hshrinks (not_shrinks h.wellFormed)
  have hkept := kept_step s e t h.kept hfit hstep
  cases e with
  | recv read =>
    simp only [step, Option.ite_none_right_eq_some, Option.some.injEq] at hstep
    obtain ⟨-, rfl⟩ := hstep
    refine ⟨hkept, ⟨hkept.held.trans_le hkept.used_le, h.wellFormed.prefix_lt, ?_⟩, nofun⟩
    refine h.wellFormed.shrink.imp_right fun ⟨hlen, hgrown⟩ ↦ ⟨?_, ?_⟩
    · exact Nat.lt_of_lt_of_le hlen (by simp)
    · exact (RecvBuffer.getMsgSize_append (Nat.le_of_lt hlen) read.data).trans hgrown
  | pass realloc =>
    by_cases hpc : s.pc = .pass
    · by_cases hlen : 4 < s.recvBufUsed
      · rw [step_pass_of_wellFormed h.wellFormed hpc h.kept.held hlen, Option.some.injEq] at hstep
        subst hstep
        split_ifs at hkept ⊢ with hbig
        · exact ⟨hkept, wellFormed_growFor h.wellFormed (by rwa [h.kept.held]) hbig, nofun⟩
        · obtain ⟨hwell, hmax⟩ := wellFormed_tryShrink h.wellFormed
          exact ⟨hkept, hwell, fun _ _ ↦ hmax⟩
      · rw [step, if_pos hpc, if_neg hlen, Option.some.injEq] at hstep
        subst hstep
        exact ⟨hkept, h.wellFormed, nofun⟩
    · rw [step, if_neg hpc] at hstep
      cases hstep
  | take =>
    simp only [step] at hstep
    split at hstep
    · next msgLen hpc =>
      split_ifs at hstep
      · cases hstep
        exact ⟨hkept, h.wellFormed.drop (h.taking msgLen hpc) s.shrinkCheckCnt msgLen, nofun⟩
      · cases hstep
        exact ⟨hkept, h.wellFormed, nofun⟩
    all_goals cases hstep

theorem tight_create {config : TransportConfig}
    (hsize : config.bufferSize ≤ defaultRecvBufferSize) : (create config).Tight :=
  ⟨kept_create config, ⟨Nat.zero_le _, config.four_lt_bufferSize, .inl hsize⟩, nofun⟩

/-! ### Buffers configured above the default -/

/-- A frame of five bytes. -/
def smallFrame : StdString := [0, 0, 0, 1, 0]

/-- Such frames, one behind the other, with one byte more than the default size. -/
def smallFrames : StdString := (List.replicate 3277 smallFrame).flatten

theorem length_smallFrames : smallFrames.length = defaultRecvBufferSize + 1 := by
  rw [smallFrames, List.length_flatten, List.map_replicate, List.sum_replicate]
  rfl

theorem getMsgSize_smallFrames : getMsgSize smallFrames = 5 := by
  rw [smallFrames, List.replicate_succ, List.flatten_cons, RecvBuffer.getMsgSize_append (by decide)]
  decide

/-- An empty buffer above the default size, before a `RecvMsg`. -/
structure Drained (s : RecvSide) : Prop where
  pc : s.pc = .recv
  used : s.recvBufUsed = 0
  recvBuf : s.recvBuf = []
  size : defaultRecvBufferSize < s.recvBufSize
  shrinkMax : s.shrinkMax = defaultRecvBufferSize

/-- The side behind a read into its empty buffer. -/
def loaded (s : RecvSide) (chunk : StdString) : RecvSide :=
  { s with
    recvBuf := chunk
    recvBufUsed := chunk.length
    received := s.received ++ chunk
    pc := .pass }

theorem step_recv_drained (h : s.Drained) {chunk : StdString}
    (hfits : chunk.length ≤ s.recvBufSize) :
    s.step (.recv (.bytes chunk)) = some (s.loaded chunk) := by
  rw [step, loaded, h.used, h.recvBuf]
  simp only [SocketRead.data, List.nil_append, Nat.zero_add]
  exact if_pos ⟨h.pc, hfits⟩

/-- A small frame does not raise the maximum. -/
theorem tryShrink_smallFrame (size : Nat) {cnt : Nat} (hcnt : cnt ≠ 0) (realloc : Nat → Bool) :
    RecvBuffer.tryShrink realloc ⟨smallFrame, size, defaultRecvBufferSize, cnt⟩ 5 =
      ⟨smallFrame, size, defaultRecvBufferSize, cnt - 1⟩ := by
  have hmax : ¬ 5 > defaultRecvBufferSize := by decide
  simp only [RecvBuffer.tryShrink, if_neg hmax, if_neg hcnt]

/-- A frame that is received alone takes one off the counter. -/
theorem drained_round (h : s.Drained) (hcnt : s.shrinkCheckCnt ≠ 0) :
    ∃ events t, Base.runFrom step s events = some t ∧ t.Drained ∧
      t.shrinkCheckCnt = s.shrinkCheckCnt - 1 := by
  have hsize := h.size
  have hfive : smallFrame.length ≤ s.recvBufSize := Nat.le_trans (by decide) hsize.le
  have hsmall : getMsgSize smallFrame = 5 := by decide
  have hmsgLen : getMsgSize (s.loaded smallFrame).recvBuf = 5 := hsmall
  have hfits : ¬ 5 > (s.loaded smallFrame).recvBufSize := Nat.not_lt.mpr hfive
  have hpass : (s.loaded smallFrame).step (.pass fun _ ↦ true) = some
      { s.loaded smallFrame with
        shrinkCheckCnt := s.shrinkCheckCnt - 1
        pc := .take 5 } := by
    have hshrink := tryShrink_smallFrame s.recvBufSize hcnt fun _ ↦ true
    rw [← h.shrinkMax] at hshrink
    rw [step_pass rfl (Nat.lt_succ_self 4), hmsgLen, if_neg hfits, loaded, hshrink, resized,
      List.take_of_length_le hfive]
  refine ⟨[.recv (.bytes smallFrame), .pass fun _ ↦ true, .take, .pass fun _ ↦ true], ?_⟩
  rw [Base.runFrom, step_recv_drained h hfive]
  dsimp only
  rw [Base.runFrom, hpass]
  exact ⟨_, rfl, ⟨rfl, rfl, rfl, hsize, h.shrinkMax⟩, rfl⟩

/-- As many such frames as the counter says bring it to zero. -/
theorem drained_rounds (h : s.Drained) :
    ∃ events t, Base.runFrom step s events = some t ∧ t.Drained ∧ t.shrinkCheckCnt = 0 := by
  induction hcnt : s.shrinkCheckCnt generalizing s with
  | zero => exact ⟨[], s, rfl, h, hcnt⟩
  | succ n ih =>
    obtain ⟨round, t, hround, hdrained, hless⟩ := drained_round h (by omega)
    obtain ⟨events, u, hrest, hu⟩ := ih hdrained (by omega)
    refine ⟨round ++ events, u, ?_, hu⟩
    rw [Base.runFrom_append, hround]
    exact hrest

/-- A read that fills more than the default size, and the pass behind it. -/
def losingEvents : List RecvSideEvent := [.recv (.bytes smallFrames), .pass fun _ ↦ true]

/-- At zero, small frames that fill more than the default size are cut off. -/
theorem drained_loses (h : s.Drained) (hcnt : s.shrinkCheckCnt = 0) :
    ∃ t, Base.runFrom step s losingEvents = some t ∧ t.recvBufSize < t.recvBufUsed := by
  have hsize : defaultRecvBufferSize < (s.loaded smallFrames).recvBufSize := h.size
  have hfits : smallFrames.length ≤ s.recvBufSize := by
    rw [length_smallFrames]
    exact h.size
  have hused : (s.loaded smallFrames).recvBufUsed = smallFrames.length := rfl
  have hmsgLen : getMsgSize (s.loaded smallFrames).recvBuf = 5 := getMsgSize_smallFrames
  have hfive : 5 < defaultRecvBufferSize := by decide
  have hto : (s.loaded smallFrames).shrinkTo = defaultRecvBufferSize := by
    rw [shrinkTo, hmsgLen]
    exact (congrArg (max · 5) h.shrinkMax).trans (Nat.max_eq_left hfive.le)
  have hshrinks : (s.loaded smallFrames).Shrinks fun _ ↦ true := by
    refine ⟨?_, ?_, hcnt, ?_, rfl⟩
    · rw [hused, length_smallFrames]
      exact Nat.lt_of_succ_lt (Nat.lt_add_one_of_lt hfive)
    · rw [hmsgLen]
      exact (Nat.le_of_lt hfive).trans hsize.le
    · rw [hto]
      exact hsize
  obtain ⟨t, ht, hlost⟩ := not_kept_pass rfl hshrinks (by
    rw [hto, hused, length_smallFrames]
    exact Nat.lt_add_one _)
  refine ⟨t, ?_, hlost⟩
  rw [losingEvents, Base.runFrom, step_recv_drained h hfits]
  dsimp only
  rw [Base.runFrom, ht]
  rfl

theorem drained_create {config : TransportConfig}
    (hsize : defaultRecvBufferSize < config.bufferSize) : (create config).Drained :=
  ⟨rfl, rfl, rfl, hsize, rfl⟩

/-! ### A whole `ProcessData` -/

/-- The side behind `ProcessData`. -/
def processed (s : RecvSide) (b : RecvBuffer) (outDataList : List StdString) : RecvSide :=
  { s with toRecvBuffer := b, recvBufUsed := b.recvBuf.length, pc := .recv, outDataList }

/-- A pass that finds a prefix of at most the size of the buffer. -/
theorem processPass_fits {b : RecvBuffer} (h : b.WellFormed) (hlen : 4 < b.recvBuf.length)
    (hfits : getMsgSize b.recvBuf ≤ b.recvBufSize) (out : List StdString) :
    RecvBuffer.processPass realloc (b, out) =
      if getMsgSize b.recvBuf ≤ b.recvBuf.length then .again
        ({ b.tryShrink realloc (getMsgSize b.recvBuf) with
          recvBuf := b.recvBuf.drop (getMsgSize b.recvBuf) },
          out ++ [b.recvBuf.take (getMsgSize b.recvBuf)])
      else .leave (b.tryShrink realloc (getMsgSize b.recvBuf), out) := by
  obtain ⟨shrinkMax, cnt, -, heq⟩ := RecvBuffer.tryShrink_eq realloc h
  rw [RecvBuffer.processPass, if_pos hlen, if_neg (Nat.not_lt.mpr hfits), heq]

/-- A frame that is there is handed out. -/
theorem step_take {msgLen : Nat} (hpc : s.pc = .take msgLen)
    (hheld : s.recvBuf.length = s.recvBufUsed) (hthere : msgLen ≤ s.recvBuf.length) :
    s.step .take = some { s with
      recvBuf := s.recvBuf.drop msgLen
      recvBufUsed := s.recvBufUsed - msgLen
      outDataList := s.outDataList ++ [s.recvBuf.take msgLen]
      pc := .pass } := by
  rw [step, hpc]
  dsimp only
  rw [if_pos (hheld ▸ hthere), if_pos hheld]

/-- One that is not ends the loop. -/
theorem step_take_wait {msgLen : Nat} (hpc : s.pc = .take msgLen)
    (hheld : s.recvBuf.length = s.recvBufUsed) (hwait : ¬ msgLen ≤ s.recvBuf.length) :
    s.step .take = some { s with pc := .recv } := by
  rw [step, hpc]
  dsimp only
  rw [if_neg (hheld ▸ hwait)]

/-- Too few bytes for a prefix: the pass leaves the loop. -/
theorem run_short (realloc : Nat → Bool) (hpc : s.pc = .pass)
    (hheld : s.recvBuf.length = s.recvBufUsed) (hlen : ¬ 4 < s.recvBuf.length) :
    Base.runFrom step s [.pass realloc] =
      some (s.processed s.toRecvBuffer s.outDataList) := by
  have hpass : s.step (.pass realloc) = some { s with pc := .recv } := by
    rw [step, if_pos hpc, if_neg (hheld ▸ hlen)]
  apply Base.runFrom_cons_eq_some.mpr ⟨_, hpass, ?_⟩
  rw [Base.runFrom_nil, processed, ← hheld]

/-- A prefix that announces more than the buffer holds: the pass grows it and leaves the loop. -/
theorem run_grow (h : s.toRecvBuffer.WellFormed) (hpc : s.pc = .pass)
    (hheld : s.recvBuf.length = s.recvBufUsed) (hlen : 4 < s.recvBuf.length)
    (hbig : s.recvBufSize < getMsgSize s.recvBuf) : Base.runFrom step s [.pass realloc] =
      some (s.processed (growFor realloc s.toRecvBuffer (getMsgSize s.recvBuf))
        s.outDataList) := by
  have hpass : s.step (.pass realloc) = _ := step_pass_of_wellFormed h hpc hheld (hheld ▸ hlen)
  rw [if_pos hbig] at hpass
  apply Base.runFrom_cons_eq_some.mpr ⟨_, hpass, ?_⟩
  rw [Base.runFrom_nil, growFor_eq, processed, ← hheld]
  split_ifs
  · rfl
  · rfl

theorem run_loop {before out : List StdString} {r : RecvBuffer × List StdString} {passes : Nat}
    (h : s.toRecvBuffer.WellFormed) (hpc : s.pc = .pass) (hheld : s.recvBuf.length = s.recvBufUsed)
    (hout : s.outDataList = before ++ out)
    (hr : Base.loop (RecvBuffer.processPass realloc) passes (s.toRecvBuffer, out) = some r) :
    ∃ events, Base.runFrom step s events = some (s.processed r.1 (before ++ r.2)) := by
  induction passes generalizing s out with
  | zero => cases hr
  | succ passes ih =>
    by_cases hlen : 4 < s.recvBuf.length
    · have hpass : s.step (.pass realloc) = _ :=
        step_pass_of_wellFormed h hpc hheld (hheld ▸ hlen)
      rcases Nat.lt_or_ge s.recvBufSize (getMsgSize s.recvBuf) with hbig | hfits
      · rw [Base.loop_of_leave _ (RecvBuffer.processPass_grow realloc out hlen hbig),
          Option.some.injEq] at hr
        refine ⟨[.pass realloc], (run_grow h hpc hheld hlen hbig).trans ?_⟩
        rw [growFor_eq, ← hr, hout]
      · have hbody : RecvBuffer.processPass realloc (s.toRecvBuffer, out) = _ :=
          processPass_fits h hlen hfits out
        obtain ⟨shrinkMax, cnt, hmax, heq⟩ := RecvBuffer.tryShrink_eq realloc h
        rw [if_neg (Nat.not_lt.mpr hfits), heq] at hpass
        rw [heq] at hbody
        by_cases hthere : getMsgSize s.recvBuf ≤ s.recvBuf.length
        · rw [Base.loop_of_again _ (hbody.trans (if_pos hthere))] at hr
          obtain ⟨events, hrest⟩ := ih (s := { s with
            shrinkMax
            shrinkCheckCnt := cnt
            recvBuf := s.recvBuf.drop (getMsgSize s.recvBuf)
            recvBufUsed := s.recvBufUsed - getMsgSize s.recvBuf
            outDataList := s.outDataList ++ [s.recvBuf.take (getMsgSize s.recvBuf)]
            pc := .pass }) (h.drop hmax cnt _) rfl (by rw [List.length_drop, hheld])
            (by rw [hout, List.append_assoc]) hr
          refine ⟨.pass realloc :: .take :: events, ?_⟩
          refine Base.runFrom_cons_eq_some.mpr ⟨_, hpass, ?_⟩
          exact Base.runFrom_cons_eq_some.mpr ⟨_, step_take rfl hheld hthere, hrest⟩
        · rw [Base.loop_of_leave _ (hbody.trans (if_neg hthere)), Option.some.injEq] at hr
          refine ⟨[.pass realloc, .take], Base.runFrom_cons_eq_some.mpr ⟨_, hpass, ?_⟩⟩
          refine Base.runFrom_cons_eq_some.mpr ⟨_, step_take_wait rfl hheld hthere, ?_⟩
          rw [Base.runFrom_nil, ← hr, processed, ← hout, ← hheld]
    · rw [Base.loop_of_leave _ (RecvBuffer.processPass_short (Nat.not_lt.mp hlen)),
        Option.some.injEq] at hr
      refine ⟨[.pass realloc], (run_short realloc hpc hheld hlen).trans ?_⟩
      rw [← hr, hout]

/-- On a well-formed buffer the steps of a `ProcessData` come to what `processData` says. -/
theorem run_processData {r : RecvBuffer × List StdString} (h : s.toRecvBuffer.WellFormed)
    (hpc : s.pc = .pass) (hheld : s.recvBuf.length = s.recvBufUsed)
    (hr : s.processData realloc = some r) :
    ∃ events, Base.runFrom step s events = some (s.processed r.1 (s.outDataList ++ r.2)) :=
  run_loop h hpc hheld (List.append_nil _).symm hr

/-! ### Runs -/

/-- Within the default size nothing is ever lost. -/
theorem kept_of_le_default {config : TransportConfig}
    (hsize : config.bufferSize ≤ defaultRecvBufferSize) {events : List RecvSideEvent}
    (hvisits : Base.Visits step (create config) events t) : t.Kept := by
  obtain ⟨pre, -, hrun⟩ := hvisits
  exact (Base.inv_of_runFrom tight_step (tight_create hsize) hrun).kept

/-- Above it, whatever the first countdown is, something can be lost. -/
theorem exists_lost {config : TransportConfig}
    (hsize : defaultRecvBufferSize < config.bufferSize) :
    ∃ events t, Base.runFrom step (create config) events = some t ∧ ¬ t.Kept := by
  obtain ⟨events, s, hrun, hdrained, hcnt⟩ := drained_rounds (drained_create hsize)
  obtain ⟨t, hlast, hlost⟩ := drained_loses hdrained hcnt
  refine ⟨events ++ losingEvents, t, ?_, fun hkept ↦ Nat.not_le.mpr hlost hkept.used_le⟩
  rw [Base.runFrom_append, hrun]
  exact hlast

/-- **Shrinking**: a transport keeps all that it receives exactly as long as no call of `TryShrink`
cuts the buffer below its bytes in use, and it does so in every run exactly when the configured
size is not above the default. -/
theorem shrink_keeps_received (config : TransportConfig) :
    (∀ events s, Base.runFrom step (create config) events = some s →
      ((∀ t, Base.Visits step (create config) events t → t.Kept) ↔
        Base.Along step ShrinksFitting (create config) events)) ∧
    ((∀ events t, Base.Visits step (create config) events t → t.Kept) ↔
      config.bufferSize ≤ defaultRecvBufferSize) := by
  refine ⟨fun events s hrun ↦ ?_, fun hall ↦ ?_, fun hsize events t ↦ kept_of_le_default hsize⟩
  · exact Base.safe_iff_along (fun _ h ↦ h) kept_step (fun s e t _ ↦ not_kept_step s e t)
      (kept_create config) hrun
  · by_contra hbig
    obtain ⟨events, t, hrun, hlost⟩ := exists_lost (Nat.not_le.mp hbig)
    exact hlost (hall events t ⟨events, List.prefix_refl events, hrun⟩)

end Steps

/-- A buffer of 20000 bytes that is checked at the first pass. -/
def wide : TransportConfig where
  recvBufferSize := some [50, 48, 48, 48, 48]
  shrinkCheckMax := some [48]
  four_lt := by decide
  nonneg := by decide

/-- One read of small frames, and the first pass, which cuts off the last of them. -/
theorem wide_loses : ∃ t, Base.runFrom step (create wide) losingEvents = some t ∧
    t.recvBufSize < t.recvBufUsed ∧
    ¬ ∀ t, Base.Visits step (create wide) losingEvents t → t.Kept := by
  have hdrained : (create wide).Drained := drained_create (by decide)
  obtain ⟨t, hrun, hlost⟩ := drained_loses hdrained (by decide)
  refine ⟨t, hrun, hlost, fun hall ↦ ?_⟩
  exact Nat.not_le.mpr hlost (hall t ⟨_, List.prefix_refl _, hrun⟩).used_le

end RecvSide
end RocketMQ
