import RocketMQ.Transport.TcpTransport

/-!
# Reassembly of frames

However a socket cuts a stream of frames into reads, a transport hands out the frames: after
each `RecvData` exactly those whose bytes have all come, in order. Its buffer never fills up,
so that `recv` is never asked for no bytes at all.
-/

namespace RocketMQ

/-- A frame as a sender writes it. -/
structure Frame where
  bytes : StdString
  five_le : 5 ≤ bytes.length
  lt_two_pow : bytes.length < 2 ^ 31
  announced : Base.beNat (bytes.take 4) + 4 = bytes.length

/-- The frames one behind the other. -/
def stream (frames : List Frame) : StdString := frames.flatMap Frame.bytes

/-- The frames of which all bytes are among the first `n` of the stream. -/
def completeFrames : List Frame → Nat → List Frame
  | [], _ => []
  | f :: frames, n =>
    if f.bytes.length ≤ n then f :: completeFrames frames (n - f.bytes.length) else []

/-- A transport, what it has received, and what it has appended to `outDataList`. -/
structure Reception where
  transport : TcpTransport
  received : StdString
  outDataList : List StdString

namespace Reception

/-- A fresh connection. -/
def start : Reception := ⟨.connected, [], []⟩

/-- One `RecvData`. -/
def step (realloc : Nat → Bool) (s : Reception) (read : SocketRead) : Option Reception :=
  if hfits : s.transport.Fits read then
    (s.transport.recvData realloc read hfits).map fun (transport, out) ↦
      ⟨transport, s.received ++ read.data, s.outDataList ++ out⟩
  else none

end Reception

/-! ### Complete frames -/

@[simp] theorem stream_cons (f : Frame) (frames : List Frame) :
    stream (f :: frames) = f.bytes ++ stream frames := rfl

@[simp] theorem stream_append (frames frames' : List Frame) :
    stream (frames ++ frames') = stream frames ++ stream frames' :=
  List.flatMap_append ..

/-- Frames that are complete stay so, and the count goes on behind them. -/
theorem completeFrames_append (done rest : List Frame) (n : Nat) :
    completeFrames (done ++ rest) ((stream done).length + n) = done ++ completeFrames rest n := by
  induction done with
  | nil => simp [stream]
  | cons f done ih =>
    have hle : f.bytes.length ≤ (stream (f :: done)).length + n := by
      rw [stream_cons, List.length_append]
      omega
    have hsub : (stream (f :: done)).length + n - f.bytes.length = (stream done).length + n := by
      rw [stream_cons, List.length_append]
      omega
    rw [List.cons_append, completeFrames, if_pos hle, hsub, ih, List.cons_append]

/-- A first frame that is not complete yet lets no frame be. -/
theorem completeFrames_of_lt {f : Frame} {n : Nat} (h : n < f.bytes.length) (frames : List Frame) :
    completeFrames (f :: frames) n = [] := by
  rw [completeFrames, if_neg (Nat.not_le.mpr h)]

/-! ### One call -/

/-- The prefix of a buffer that starts with a frame is the size of the frame. -/
theorem getMsgSize_of_prefix {buf rest : StdString} {f : Frame} (hlen : 4 < buf.length)
    (hpre : buf <+: f.bytes ++ rest) : getMsgSize buf = f.bytes.length := by
  have htake : buf.take 4 = f.bytes.take 4 := by
    obtain ⟨post, hpost⟩ := hpre
    have hsame := congrArg (List.take 4) hpost
    have hfive := f.five_le
    rwa [List.take_append_of_le_length (by omega), List.take_append_of_le_length (by omega)]
      at hsame
  have hlt := f.lt_two_pow
  rw [getMsgSize, htake, f.announced, Nat.mod_eq_of_lt (by omega)]

/-- A buffer that holds all of the first frame goes on with the beginning of the rest. -/
theorem eq_append_of_prefix {buf rest : StdString} {f : Frame}
    (hthere : f.bytes.length ≤ buf.length) (hpre : buf <+: f.bytes ++ rest) :
    ∃ tail, buf = f.bytes ++ tail ∧ tail <+: rest := by
  obtain ⟨tail, rfl⟩ :=
    List.prefix_of_prefix_length_le (List.prefix_append f.bytes rest) hpre hthere
  exact ⟨tail, rfl, (List.prefix_append_right_inj f.bytes).mp hpre⟩

/-- `ProcessData` on the beginning of a stream hands out its complete frames and leaves room. -/
theorem processData_frames (frames : List Frame) {b : RecvBuffer} (out : List StdString)
    (h : b.WellFormed) (hpre : b.recvBuf <+: stream frames) :
    ∃ b' done rest, Base.Yields (RecvBuffer.processPass fun _ ↦ true) (b, out)
        (b', out ++ done.map Frame.bytes) ∧
      frames = done ++ rest ∧ stream done ++ b'.recvBuf = b.recvBuf ∧
      completeFrames rest b'.recvBuf.length = [] ∧ b'.recvBuf.length < b'.recvBufSize := by
  induction frames generalizing b out with
  | nil =>
    have hnil : b.recvBuf = [] := List.prefix_nil.mp hpre
    refine ⟨b, [], [], ?_, rfl, rfl, rfl, ?_⟩
    · simpa using Base.yields_of_leave (RecvBuffer.processPass_short (by simp [hnil]))
    · have hsize := h.prefix_lt
      simp only [hnil, List.length_nil]
      omega
  | cons f frames ih =>
    have hfive := f.five_le
    rcases Nat.lt_or_ge 4 b.recvBuf.length with hlen | hshort
    · have hsize := getMsgSize_of_prefix hlen hpre
      rcases Nat.lt_or_ge b.recvBufSize f.bytes.length with hbig | hfits
      · have hused := h.used_le
        have hgrow := RecvBuffer.processPass_grow (fun _ ↦ true) out hlen (hsize ▸ hbig)
        refine ⟨{ b with
          recvBufSize := getMsgSize b.recvBuf, shrinkCheckCnt := defaultShrinkCount },
          [], f :: frames, ?_, rfl, rfl, ?_, ?_⟩
        · simpa using Base.yields_of_leave hgrow
        · exact completeFrames_of_lt (Nat.lt_of_le_of_lt hused hbig) frames
        · exact hsize ▸ Nat.lt_of_le_of_lt hused hbig
      · rcases Nat.lt_or_ge b.recvBuf.length f.bytes.length with hwait | hthere
        · obtain ⟨shrinkMax, cnt, -, heq⟩ := RecvBuffer.processPass_wait (fun _ ↦ true) out h hlen
            (hsize ▸ hfits) (hsize ▸ hwait)
          refine ⟨{ b with shrinkMax, shrinkCheckCnt := cnt }, [], f :: frames, ?_, rfl, rfl,
            ?_, ?_⟩
          · simpa using Base.yields_of_leave heq
          · exact completeFrames_of_lt hwait frames
          · exact Nat.lt_of_lt_of_le hwait hfits
        · obtain ⟨shrinkMax, cnt, hmax, heq⟩ := RecvBuffer.processPass_frame (fun _ ↦ true) out h
            hlen (hsize ▸ hthere)
          rw [hsize] at heq
          -- the frame is taken off the buffer, and the rest is the beginning of the rest
          obtain ⟨tail, htail, hrest⟩ := eq_append_of_prefix hthere hpre
          have hdrop : b.recvBuf.drop f.bytes.length = tail := by rw [htail, List.drop_left]
          have htake : b.recvBuf.take f.bytes.length = f.bytes := by rw [htail, List.take_left]
          obtain ⟨b', done, rest, hyields, hsplit, hbytes, hnone, hfree⟩ :=
            ih (out ++ [f.bytes]) (h.drop hmax cnt f.bytes.length) (by rwa [hdrop])
          refine ⟨b', f :: done, rest, ?_, by rw [hsplit, List.cons_append], ?_, hnone, hfree⟩
          · rw [Base.yields_iff_of_again heq, htake]
            simpa using hyields
          · rw [stream_cons, List.append_assoc, hbytes, hdrop, htail]
    · refine ⟨b, [], f :: frames, ?_, rfl, rfl, ?_, ?_⟩
      · simpa using Base.yields_of_leave (RecvBuffer.processPass_short hshort)
      · exact completeFrames_of_lt (by omega) frames
      · exact Nat.lt_of_le_of_lt hshort h.prefix_lt

/-! ### All calls -/

namespace Reception

/-- What was handed out is the complete frames of what was received, and `recv` has room. -/
structure Reassembled (frames : List Frame) (s : Reception) : Prop where
  outDataList : s.outDataList = (completeFrames frames s.received.length).map Frame.bytes
  room : s.transport.recvBuf.length < s.transport.recvBufSize

/-- What was received so far is the frames handed out and the used bytes, which complete no
further frame. -/
def Follows (frames : List Frame) (s : Reception) : Prop :=
  ∃ done rest, frames = done ++ rest ∧ s.outDataList = done.map Frame.bytes ∧
    stream done ++ s.transport.recvBuf = s.received ∧
    completeFrames rest s.transport.recvBuf.length = [] ∧
    s.transport.recvBuf.length < s.transport.recvBufSize

section Run

variable {frames : List Frame} {s t : Reception} {read : SocketRead}

/-- Following the stream says what was handed out. -/
theorem Follows.reassembled (h : Follows frames s) : Reassembled frames s := by
  obtain ⟨done, rest, rfl, hout, hbytes, hnone, hroom⟩ := h
  refine ⟨?_, hroom⟩
  rw [hout, ← hbytes, List.length_append, completeFrames_append, hnone, List.append_nil]

/-- Step lemma: the next read of the stream is answered, and the transport goes on following. -/
theorem follows_step (h : Follows frames s) (hfits : s.transport.Fits read)
    (hstream : s.received ++ read.data <+: stream frames) :
    ∃ t, step (fun _ ↦ true) s read = some t ∧ t.received = s.received ++ read.data ∧
      Follows frames t := by
  obtain ⟨done, rest, rfl, hout, hbytes, -, -⟩ := h
  have hpre : (s.transport.recvMsg read hfits).recvBuf <+: stream rest := by
    obtain ⟨post, hpost⟩ := hstream
    rw [← hbytes, stream_append, List.append_assoc, List.append_assoc] at hpost
    exact ⟨post, by rw [TcpTransport.recvBuf_recvMsg, List.append_assoc,
      List.append_cancel_left hpost]⟩
  have hwf := (s.transport.recvMsg read hfits).wellFormed
  obtain ⟨b, done', rest', hyields, hsplit, hbytes', hnone, hroom⟩ :=
    processData_frames rest [] hwf hpre
  obtain ⟨t, ht, hbuf⟩ := TcpTransport.recvData_of_processData hfits
    ((RecvBuffer.processData_eq_some_iff hwf).mpr hyields)
  refine ⟨⟨t, s.received ++ read.data, s.outDataList ++ ([] ++ done'.map Frame.bytes)⟩, ?_, rfl,
    done ++ done', rest', ?_, ?_, ?_, ?_, ?_⟩
  · simp [step, hfits, ht]
  · rw [hsplit, List.append_assoc]
  · rw [hout, List.nil_append, List.map_append]
  · rw [hbuf, stream_append, List.append_assoc, hbytes', TcpTransport.recvBuf_recvMsg,
      ← List.append_assoc, hbytes]
  · rw [hbuf]
    exact hnone
  · rw [hbuf]
    exact hroom

/-- A fresh connection follows every stream. -/
theorem follows_start (frames : List Frame) : Follows frames start := by
  refine ⟨[], frames, rfl, rfl, rfl, ?_, by decide⟩
  cases frames with
  | nil => rfl
  | cons f frames =>
    have hfive := f.five_le
    exact completeFrames_of_lt (Nat.lt_of_lt_of_le (by decide) hfive) frames

/-- A read that goes on with the stream leaves a transport that follows it. -/
theorem follows_of_step (hs : s.received <+: stream frames → Follows frames s)
    (hstep : step (fun _ ↦ true) s read = some t) (ht : t.received <+: stream frames) :
    Follows frames t := by
  have hnext := hstep
  unfold step at hstep
  split at hstep
  · next hfits =>
    have hreceived : t.received = s.received ++ read.data := by
      obtain ⟨_, -, rfl⟩ := Option.map_eq_some_iff.mp hstep
      rfl
    rw [hreceived] at ht
    obtain ⟨t', ht', -, hfollows⟩ := follows_step (hs ((List.prefix_append _ _).trans ht)) hfits ht
    obtain rfl := Option.some.inj (ht'.symm.trans hnext)
    exact hfollows
  · cases hstep

/-- Run lemma: as long as the stream is received, the transport follows it. -/
theorem follows_of_run (reads : List SocketRead)
    (hrun : Base.runFrom (step fun _ ↦ true) start reads = some s)
    (hstream : s.received <+: stream frames) : Follows frames s := by
  have hstep : ∀ s read t, (s.received <+: stream frames → Follows frames s) →
      step (fun _ ↦ true) s read = some t → t.received <+: stream frames → Follows frames t :=
    fun _ _ _ ↦ follows_of_step
  exact Base.inv_of_runFrom hstep (fun _ ↦ follows_start frames) hrun hstream

/-- **Reassembly**: for every list of frames and every way the socket hands over their bytes in
reads that fit the free space, each `RecvData` comes back, and after it the strings handed out
are the frames complete so far, in order, and the buffer has a byte free. -/
theorem reassembled_of_run (frames : List Frame) (reads : List SocketRead) (s : Reception)
    (hrun : Base.runFrom (step fun _ ↦ true) start reads = some s)
    (hstream : s.received <+: stream frames) :
    Reassembled frames s ∧
      ∀ read, s.transport.Fits read → s.received ++ read.data <+: stream frames →
        (step (fun _ ↦ true) s read).isSome := by
  have hfollows := follows_of_run reads hrun hstream
  refine ⟨hfollows.reassembled, fun read hfits hnext ↦ ?_⟩
  obtain ⟨t, ht, -, -⟩ := follows_step hfollows hfits hnext
  rw [ht]
  rfl

end Run

/-- Two frames. -/
def twoFrames : List Frame :=
  [⟨[0, 0, 0, 1, 7], by decide, by decide, by decide⟩,
    ⟨[0, 0, 0, 2, 8, 9], by decide, by decide, by decide⟩]

/-- A read that stops within a prefix, one that goes beyond the first frame, and the rest, with
a read for nothing in between. -/
def threeReads : List SocketRead :=
  [.bytes [0, 0, 0], .bytes [1, 7, 0, 0, 0, 2, 8], .wouldBlock, .bytes [9]]

/-- The two frames come out. -/
theorem reassembled_of_run_three_reads :
    ∃ s, Base.runFrom (step fun _ ↦ true) start threeReads = some s ∧
      s.outDataList = [[0, 0, 0, 1, 7], [0, 0, 0, 2, 8, 9]] ∧ Reassembled twoFrames s := by
  refine ⟨_, rfl, rfl, (reassembled_of_run twoFrames threeReads _ rfl ?_).1⟩
  exact ⟨[], rfl⟩

end Reception
end RocketMQ
