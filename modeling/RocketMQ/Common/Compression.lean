import RocketMQ.Base.Loop
import RocketMQ.Base.Streaming
import RocketMQ.Common.OutBuffer
import RocketMQ.Producer.SendBody

/-!
# Compressing and decompressing

The loops of `UtilAll::compress` and `UtilAll::decompress`, `src/common/UtilAll.h:148–324`, around
zlib's `deflate` and `inflate`. Each of the two has a loop over chunks of the input and in it a loop
over the output of a chunk; a pass below is one call of zlib. An input is shorter than `2^31` bytes,
as its length `inLen` is an `int`.
-/

namespace RocketMQ

/-- `CHUNK`, `src/common/UtilAll.h:30`. -/
def chunk : Nat := 8192

/-- `z_stream`, the output so far, what is left of the chunk and the chunks behind it. -/
structure ChunkLoop (σ : Type) where
  strm : σ
  buffer : OutBuffer
  avail : StdString
  left : StdString

namespace ChunkLoop

variable {σ : Type}

/-- `strm.avail_in = left > CHUNK ? CHUNK : left`: the next chunk. -/
def nextChunk (strm : σ) (buffer : OutBuffer) (left : StdString) : ChunkLoop σ :=
  ⟨strm, buffer, left.take chunk, left.drop chunk⟩

end ChunkLoop

/-- What a loop returns: the output, or `none` for `false`. -/
abbrev ChunkResult := Except WriteFault (Option StdString)

/-- How a pass goes on once its output is appended; without memory the loop returns `false`. -/
def afterAppend {σ : Type} (appended : Except WriteFault (Option OutBuffer))
    (next : OutBuffer → Base.Pass (ChunkLoop σ) ChunkResult) :
    Base.Pass (ChunkLoop σ) ChunkResult :=
  match appended with
  | .error fault => .leave (.error fault)
  | .ok none => .leave (.ok none)
  | .ok (some buffer) => next buffer

/-- A pass that has appended its output does what it does next; one that has not leaves without
output, unless it had to succeed. -/
theorem meets_afterAppend {σ : Type} {alloc : Int32 → Bool} {buffer : OutBuffer} {out : StdString}
    {next : OutBuffer → Base.Pass (ChunkLoop σ) ChunkResult} {Again : ChunkLoop σ → Prop}
    {Leave : ChunkResult → Prop} {Must : Prop}
    (hnext : ∀ buffer', buffer.append alloc out = .ok (some buffer') →
      (next buffer').Meets Again Leave)
    (hmust : Must → ∃ buffer', buffer.append alloc out = .ok (some buffer'))
    (hleave : ¬ Must → ∀ result, (∀ body, result ≠ .ok (some body)) → Leave result) :
    (afterAppend (buffer.append alloc out) next).Meets Again Leave := by
  rcases happend : buffer.append alloc out with fault | _ | buffer'
  · refine hleave (fun hm ↦ ?_) (.error fault) (fun _ ↦ by simp)
    obtain ⟨buffer', heq⟩ := hmust hm
    simp [heq] at happend
  · refine hleave (fun hm ↦ ?_) (.ok none) (fun _ ↦ by simp)
    obtain ⟨buffer', heq⟩ := hmust hm
    simp [heq] at happend
  · exact hnext buffer' happend

namespace UtilAll

open Base (Encoder Decoder StreamFormat Pass)

/-- A call of `deflate` and what follows it, `src/common/UtilAll.h:187–217`. The chunk is the last
one, and is flushed with `Z_FINISH`, when nothing is left behind it. -/
def deflatePass (alloc : Int32 → Bool) (z : Encoder UInt8 UInt8) (s : ChunkLoop z.State) :
    Pass (ChunkLoop z.State) ChunkResult :=
  let r := z.encode s.strm s.avail chunk s.left.isEmpty
  afterAppend (s.buffer.append alloc r.out) fun buffer ↦
    if r.out.length = chunk then .again ⟨r.state, buffer, s.avail.drop r.consumed, s.left⟩
    else if s.left.isEmpty then .leave (.ok (some buffer.outData))
    else .again (.nextChunk r.state buffer s.left)

/-- A call of `inflate` and what follows it, `src/common/UtilAll.h:257–304`. -/
def inflatePass (alloc : Int32 → Bool) (z : Decoder UInt8 UInt8) (s : ChunkLoop z.State) :
    Pass (ChunkLoop z.State) ChunkResult :=
  match z.decode s.strm s.avail chunk with
  | (_, .broken) => .leave (.ok none)
  | (r, signal) =>
    afterAppend (s.buffer.append alloc r.out) fun buffer ↦
      if r.out.length = chunk then .again ⟨r.state, buffer, s.avail.drop r.consumed, s.left⟩
      else if signal = .ended then .leave (.ok (some buffer.outData))
      else if s.left.isEmpty then .leave (.ok none)
      else .again (.nextChunk r.state buffer s.left)

/-- `src/common/UtilAll.h:148–224`, with the state that `deflateInit` gives for a level, if any. -/
def CompressesTo (alloc : Int32 → Bool) (z : Encoder UInt8 UInt8) (init : Int → Option z.State)
    (pIn : StdString) (level : Int) (result : ChunkResult) : Prop :=
  match init level with
  | none => result = .ok none
  | some strm =>
    Base.Yields (deflatePass alloc z)
      (.nextChunk strm (.malloc alloc (.ofNat pIn.length)) pIn) result

/-- `src/common/UtilAll.h:226–324`. Nothing is read of an empty input. -/
def DecompressesTo (alloc : Int32 → Bool) (z : Decoder UInt8 UInt8) (strm : z.State)
    (pIn : StdString) (result : ChunkResult) : Prop :=
  if pIn.isEmpty then result = .ok none
  else
    Base.Yields (inflatePass alloc z)
      (.nextChunk strm (.malloc alloc (Int32.ofNat pIn.length <<< 2)) pIn) result

/-! ### Decompressing -/

section Decompress

variable {alloc : Int32 → Bool} {z : Decoder UInt8 UInt8} {strm : z.State}
  {f : StreamFormat UInt8 UInt8}

theorem chunk_pos : 0 < chunk := by decide

/-- There is memory for all that the input may put out. -/
def Decompressible (alloc : Int32 → Bool) (f : StreamFormat UInt8 UInt8) (pIn : StdString) : Prop :=
  Allocates alloc ∧ (f.emitted pIn).length < 2 ^ 30

/-- Where the loop stands in an input: what zlib has been fed and what is left make up the input, or
would come to the same, and the output is what it gave. -/
structure Decoding (alloc : Int32 → Bool) (h : z.Decodes strm f) (pIn : StdString)
    (s : ChunkLoop z.State) : Prop where
  input : h.fed s.strm ++ (s.avail ++ s.left) = pIn
  decoded : f.decodedFrom (h.fed s.strm) (s.avail ++ s.left) = f.decoded pIn
  live : ∀ n < (h.fed s.strm).length,
    f.ended ((h.fed s.strm).take n) = false ∧ f.broken ((h.fed s.strm).take n) = false
  outData : s.buffer.outData = h.given s.strm
  backed : Decompressible alloc f pIn → s.buffer.Backed

/-- The output still to come, and the chunks. -/
def decodingMeasure (h : z.Decodes strm f) (pIn : StdString) (s : ChunkLoop z.State) : Nat :=
  (f.emitted pIn).length - (h.given s.strm).length + s.left.length

theorem decoding_start (h : z.Decodes strm f) (pIn : StdString) :
    Decoding alloc h pIn
      (.nextChunk strm (.malloc alloc (Int32.ofNat pIn.length <<< 2)) pIn) := by
  constructor
  · rw [ChunkLoop.nextChunk, h.fed_init, List.nil_append, List.take_append_drop]
  · rw [ChunkLoop.nextChunk, h.fed_init, List.take_append_drop]
    rfl
  · intro n hn
    rw [ChunkLoop.nextChunk, h.fed_init] at hn
    exact absurd hn (Nat.not_lt_zero n)
  · exact h.given_init.symm
  · exact fun hfits ↦ OutBuffer.backed_malloc hfits.1 _

/-- zlib has not given more than the input may put out. -/
theorem Decoding.length_given_le {h : z.Decodes strm f} {pIn : StdString} {s : ChunkLoop z.State}
    (hs : Decoding alloc h pIn s) : (h.given s.strm).length ≤ (f.emitted pIn).length := by
  have hemitted := StreamFormat.output_prefix_emitted hs.input hs.live
  exact ((h.given_prefix s.strm).trans hemitted).length_le

/-- What a call leaves of the input once its output is appended. -/
theorem Decoding.call {h : z.Decodes strm f} {pIn : StdString} {s : ChunkLoop z.State}
    (hs : Decoding alloc h pIn s) {r : Base.StreamCall z.State UInt8} {signal : Base.DecoderSignal}
    (hcall : z.decode s.strm s.avail chunk = (r, signal)) (hsignal : signal ≠ .broken) :
    (Decompressible alloc f pIn → ∃ buffer, s.buffer.append alloc r.out = .ok (some buffer)) ∧
      ∀ buffer, s.buffer.append alloc r.out = .ok (some buffer) →
        Decoding alloc h pIn ⟨r.state, buffer, s.avail.drop r.consumed, s.left⟩ := by
  have hconsumed := h.consumed_le s.strm s.avail chunk
  have hfed := h.fed_call s.strm s.avail chunk
  have hgiven := h.given_call s.strm s.avail chunk
  have hlive := h.live s.strm s.avail chunk
  simp only [hcall] at hconsumed hfed hgiven hlive
  replace hlive := hlive hsignal
  have hsplit : s.avail ++ s.left =
      s.avail.take r.consumed ++ (s.avail.drop r.consumed ++ s.left) := by
    rw [← List.append_assoc, List.take_append_drop]
  have hinput : h.fed r.state ++ (s.avail.drop r.consumed ++ s.left) = pIn := by
    rw [hfed, List.append_assoc, ← hsplit]
    exact hs.input
  have hnext : ∀ n < (h.fed r.state).length,
      f.ended ((h.fed r.state).take n) = false ∧ f.broken ((h.fed r.state).take n) = false := by
    intro n hn
    rw [hfed] at hn ⊢
    by_cases hold : n < (h.fed s.strm).length
    · rw [List.take_append_of_le_length hold.le]
      exact hs.live n hold
    · rw [List.take_append, List.take_of_length_le (Nat.not_lt.mp hold), List.take_take,
        min_eq_left (by rw [List.length_append, List.length_take] at hn; omega)]
      exact hlive _ (by rw [List.length_append, List.length_take] at hn; omega)
  refine ⟨fun hfits ↦ ?_, fun buffer hbuffer ↦ ?_⟩
  · refine OutBuffer.append_of_lt hfits.1 (hs.backed hfits) ?_
    have hemitted := StreamFormat.output_prefix_emitted hinput hnext
    have hle := ((h.given_prefix r.state).trans hemitted).length_le
    rw [hgiven, List.length_append, ← hs.outData] at hle
    exact hle.trans_lt hfits.2
  constructor
  · exact hinput
  · rw [hfed, ← hs.decoded, hsplit]
    refine (StreamFormat.decodedFrom_append _ _ fun n hn ↦ ?_).symm
    rw [List.length_take] at hn
    rw [List.take_take, min_eq_left (by omega)]
    exact hlive n (by omega)
  · exact hnext
  · rw [hgiven, ← hs.outData]
    exact OutBuffer.outData_append hbuffer
  · exact fun hfits ↦ OutBuffer.backed_append (hs.backed hfits) hbuffer

/-- When a chunk is used up, the next one is taken. -/
theorem Decoding.next {h : z.Decodes strm f} {pIn left : StdString} {buffer : OutBuffer}
    {state : z.State} (hs : Decoding alloc h pIn ⟨state, buffer, [], left⟩) :
    Decoding alloc h pIn (.nextChunk state buffer left) := by
  have happend : left.take chunk ++ left.drop chunk = [] ++ left := List.take_append_drop ..
  constructor
  · rw [ChunkLoop.nextChunk, happend]
    exact hs.input
  · rw [ChunkLoop.nextChunk, happend]
    exact hs.decoded
  · exact hs.live
  · exact hs.outData
  · exact hs.backed

/-- Where zlib meets something broken the input stands for nothing. -/
theorem Decoding.broken {h : z.Decodes strm f} {pIn : StdString} {s : ChunkLoop z.State}
    (hs : Decoding alloc h pIn s) (hsignal : (z.decode s.strm s.avail chunk).2 = .broken) :
    f.decoded pIn = none := by
  obtain ⟨n, hn, hbroken, hlive⟩ := h.signal_broken s.strm s.avail chunk hsignal
  have hsplit : s.avail ++ s.left = s.avail.take n ++ (s.avail.drop n ++ s.left) := by
    rw [← List.append_assoc, List.take_append_drop]
  rw [← hs.decoded, hsplit, StreamFormat.decodedFrom_append,
    StreamFormat.decodedFrom_of_broken hbroken]
  intro m hm
  rw [List.length_take] at hm
  rw [List.take_take, min_eq_left (by omega)]
  exact hlive m (by omega)

/-- A result that is no wrong output, and where there is memory the right one. -/
def Decompressed (alloc : Int32 → Bool) (f : StreamFormat UInt8 UInt8) (pIn : StdString)
    (result : ChunkResult) : Prop :=
  (∀ body, result = .ok (some body) → f.decoded pIn = some body) ∧
    (Decompressible alloc f pIn → result = .ok (f.decoded pIn))

theorem decompressed_of_eq {pIn : StdString} {result : Option StdString}
    (heq : result = f.decoded pIn) : Decompressed alloc f pIn (.ok result) :=
  ⟨fun _ hbody ↦ heq ▸ Except.ok.inj hbody, fun _ ↦ congrArg _ heq⟩

/-- A pass goes on in the input, or leaves with what the input stands for. -/
theorem inflatePass_meets {h : z.Decodes strm f} {pIn : StdString} {s : ChunkLoop z.State}
    (hs : Decoding alloc h pIn s) : (inflatePass alloc z s).Meets
      (fun t ↦ Decoding alloc h pIn t ∧ decodingMeasure h pIn t < decodingMeasure h pIn s)
      (Decompressed alloc f pIn) := by
  obtain ⟨r, signal, hcall⟩ : ∃ r signal, z.decode s.strm s.avail chunk = (r, signal) :=
    ⟨_, _, rfl⟩
  by_cases hbroken : signal = .broken
  · rw [inflatePass, hcall, hbroken]
    exact decompressed_of_eq (hs.broken (hbroken ▸ congrArg Prod.snd hcall)).symm
  obtain ⟨hmust, hcalled⟩ := hs.call hcall hbroken
  have hgiven := h.given_call s.strm s.avail chunk
  have hout := h.out_le s.strm s.avail chunk
  have hended := h.signal_ended s.strm s.avail chunk
  have hmore := h.signal_more s.strm s.avail chunk
  simp only [hcall] at hgiven hout hended hmore
  have hlength : (h.given r.state).length = (h.given s.strm).length + r.out.length := by
    rw [hgiven, List.length_append]
  have hpos := chunk_pos
  have hpass : inflatePass alloc z s = afterAppend (s.buffer.append alloc r.out) fun buffer ↦
      if r.out.length = chunk then .again ⟨r.state, buffer, s.avail.drop r.consumed, s.left⟩
      else if signal = .ended then .leave (.ok (some buffer.outData))
      else if s.left.isEmpty then .leave (.ok none)
      else .again (.nextChunk r.state buffer s.left) := by
    rw [inflatePass, hcall]
    cases signal with
    | broken => exact absurd rfl hbroken
    | ended | more => rfl
  rw [hpass]
  refine meets_afterAppend (fun buffer hbuffer ↦ ?_) hmust fun hnot result hresult ↦
    ⟨fun body hbody ↦ absurd hbody (hresult body), fun hfits ↦ absurd hfits hnot⟩
  have hdecoding := hcalled buffer hbuffer
  have hle : (h.given r.state).length ≤ (f.emitted pIn).length := hdecoding.length_given_le
  split_ifs with hroom hend hleft
  · refine ⟨hdecoding, ?_⟩
    simp only [decodingMeasure]
    omega
  · refine decompressed_of_eq (Eq.trans ?_ hdecoding.decoded)
    rw [StreamFormat.decodedFrom_of_ended (hended hend).1, ← (hended hend).2]
    exact congrArg some hdecoding.outData
  · have hsignal : signal = .more := by cases signal <;> simp_all
    obtain ⟨hall, hnot, -⟩ := hmore hsignal (by omega)
    rw [List.isEmpty_iff] at hleft
    have hnone := hdecoding.decoded
    simp only [hall, List.drop_length, hleft, List.append_nil, StreamFormat.decodedFrom, hnot,
      Bool.false_eq_true, if_false] at hnone
    exact decompressed_of_eq hnone
  · have hsignal : signal = .more := by cases signal <;> simp_all
    obtain ⟨hall, -, -⟩ := hmore hsignal (by omega)
    have hused : s.avail.drop r.consumed = [] := by rw [hall, List.drop_length]
    rw [hused] at hdecoding
    refine ⟨hdecoding.next, ?_⟩
    have hne := List.length_pos_of_ne_nil (mt List.isEmpty_iff.mpr hleft)
    simp only [decodingMeasure, ChunkLoop.nextChunk, List.length_drop]
    omega

/-- The loop has one result. -/
theorem decompressesTo_unique {pIn : StdString} {result result' : ChunkResult}
    (h : DecompressesTo alloc z strm pIn result) (h' : DecompressesTo alloc z strm pIn result') :
    result = result' := by
  rw [DecompressesTo] at h h'
  split_ifs at h h'
  · exact h.trans h'.symm
  · exact Base.yields_unique h h'

/-- It ends, with nothing wrong, and with what the format makes of the input if there is memory. -/
theorem decompressesTo_decompressed (alloc : Int32 → Bool) (h : z.Decodes strm f)
    (hempty : f.ended [] = false) (pIn : StdString) :
    ∃ result, DecompressesTo alloc z strm pIn result ∧ Decompressed alloc f pIn result := by
  simp only [DecompressesTo]
  split_ifs with hnil
  · refine ⟨_, rfl, decompressed_of_eq ?_⟩
    rw [List.isEmpty_iff.mp hnil, StreamFormat.decoded, StreamFormat.decodedFrom, hempty]
    rfl
  · obtain ⟨r, hr, hresult⟩ := Base.loop_of_variant (Decoding alloc h pIn)
      (Decompressed alloc f pIn) (decodingMeasure h pIn) (fun _ hs ↦ inflatePass_meets hs)
      (decoding_start h pIn)
    exact ⟨r, ⟨_, hr⟩, hresult⟩

/-- An output that the format stands for is what the loop gives, if it is below `2^30` bytes. -/
theorem decompressesTo_of_decoded (halloc : Allocates alloc) (h : z.Decodes strm f)
    (hempty : f.ended [] = false) {pIn body : StdString} (hdecoded : f.decoded pIn = some body)
    (hsize : body.length < 2 ^ 30) : DecompressesTo alloc z strm pIn (.ok (some body)) := by
  obtain ⟨result, hresult, -, hexact⟩ := decompressesTo_decompressed alloc h hempty pIn
  rw [hexact ⟨halloc, (StreamFormat.emitted_eq_of_decoded hdecoded).symm ▸ hsize⟩,
    hdecoded] at hresult
  exact hresult

end Decompress

/-! ### Compressing -/

section Compress

variable {alloc : Int32 → Bool} {z : Encoder UInt8 UInt8} {strm : z.State}
  {encoded : StdString → StdString}

/-- There is memory for all that may come of the input. -/
def Compressible (alloc : Int32 → Bool) (h : z.Encodes strm encoded) (pIn : StdString) : Prop :=
  Allocates alloc ∧ h.bound pIn.length < 2 ^ 30 ∧ (encoded pIn).length < 2 ^ 30

/-- Where the loop stands in an input. -/
structure Encoding (alloc : Int32 → Bool) (h : z.Encodes strm encoded) (pIn : StdString)
    (s : ChunkLoop z.State) : Prop where
  input : h.fed s.strm ++ (s.avail ++ s.left) = pIn
  outData : s.buffer.outData = h.given s.strm
  allowed : h.Allowed s.strm s.avail s.left.isEmpty
  backed : Compressible alloc h pIn → s.buffer.Backed

/-- The output that may still come, and the chunks. -/
def encodingMeasure (h : z.Encodes strm encoded) (pIn : StdString) (s : ChunkLoop z.State) : Nat :=
  h.bound pIn.length - (h.given s.strm).length + s.left.length

theorem encoding_start (h : z.Encodes strm encoded) (pIn : StdString) :
    Encoding alloc h pIn (.nextChunk strm (.malloc alloc (.ofNat pIn.length)) pIn) where
  input := by rw [ChunkLoop.nextChunk, h.fed_init, List.nil_append, List.take_append_drop]
  outData := h.given_init.symm
  allowed := h.allowed_init _ _
  backed hfits := OutBuffer.backed_malloc hfits.1 _

/-- Before a call that is allowed zlib has not given more than it may for the whole input. -/
theorem length_given_le {h : z.Encodes strm encoded} {pIn avail left : StdString} {state : z.State}
    {last : Bool} (hinput : h.fed state ++ (avail ++ left) = pIn)
    (hallowed : h.Allowed state avail last) : (h.given state).length ≤ h.bound pIn.length := by
  have hlength := congrArg List.length hinput
  rw [List.length_append, List.length_append] at hlength
  exact (h.given_le _ _ _ hallowed).trans (h.bound_mono (by omega))

/-- What a call makes of the input. -/
structure EncodingCall (h : z.Encodes strm encoded) (pIn left : StdString)
    (r : Base.StreamCall z.State UInt8) (rest : StdString) : Prop where
  input : h.fed r.state ++ (rest ++ left) = pIn
  full : r.out.length = chunk → h.Allowed r.state rest left.isEmpty
  used : r.out.length ≠ chunk → rest = []
  last : r.out.length ≠ chunk → left = [] → h.given r.state = encoded pIn
  next : r.out.length ≠ chunk → left ≠ [] → ∀ avail isLast, h.Allowed r.state avail isLast

theorem Encoding.call {h : z.Encodes strm encoded} {pIn : StdString} {s : ChunkLoop z.State}
    (hs : Encoding alloc h pIn s) {r : Base.StreamCall z.State UInt8}
    (hcall : z.encode s.strm s.avail chunk s.left.isEmpty = r) :
    EncodingCall h pIn s.left r (s.avail.drop r.consumed) := by
  have hfed := h.fed_call s.strm s.avail chunk _ hs.allowed
  have hout := h.out_le s.strm s.avail chunk s.left.isEmpty
  have hrest := h.allowed_rest s.strm s.avail chunk _ hs.allowed
  have hall := h.consumed_all s.strm s.avail chunk _ hs.allowed
  have hlast := h.given_last s.strm s.avail chunk
  have hanything := h.allowed_next s.strm s.avail chunk
  rw [hcall] at hfed hout hrest hall
  have hinput : h.fed r.state ++ (s.avail.drop r.consumed ++ s.left) = pIn := by
    rw [hfed, List.append_assoc, ← List.append_assoc (s.avail.take _), List.take_append_drop]
    exact hs.input
  have hused : r.out.length ≠ chunk → s.avail.drop r.consumed = [] := fun hroom ↦ by
    rw [hall (by omega), List.drop_length]
  refine ⟨hinput, hrest, hused, fun hroom hleft ↦ ?_, fun hroom hleft ↦ ?_⟩
  · have hislast : true = s.left.isEmpty := by rw [hleft]; rfl
    rw [hislast, hcall] at hlast
    rw [hlast hs.allowed (by omega), ← hinput, hused hroom, hleft, List.append_nil,
      List.append_nil]
  · have hnot : false = s.left.isEmpty := (List.isEmpty_eq_false_iff.mpr hleft).symm
    rw [hnot, hcall] at hanything
    exact hanything hs.allowed (by omega)

/-- zlib has not given more than there may be memory for. -/
theorem EncodingCall.length_given_lt {h : z.Encodes strm encoded} {pIn left rest : StdString}
    {r : Base.StreamCall z.State UInt8} (hr : EncodingCall h pIn left r rest)
    (hfits : Compressible alloc h pIn) : (h.given r.state).length < 2 ^ 30 := by
  by_cases hroom : r.out.length = chunk
  · exact (length_given_le hr.input (hr.full hroom)).trans_lt hfits.2.1
  by_cases hleft : left = []
  · rw [hr.last hroom hleft]
    exact hfits.2.2
  · exact (length_given_le hr.input (hr.next hroom hleft rest true)).trans_lt hfits.2.1

/-- A result that is no wrong output, and where there is memory the right one. -/
def Compressed (alloc : Int32 → Bool) (h : z.Encodes strm encoded) (pIn : StdString)
    (result : ChunkResult) : Prop :=
  (∀ out, result = .ok (some out) → out = encoded pIn) ∧
    (Compressible alloc h pIn → result = .ok (some (encoded pIn)))

/-- A pass goes on in the input, or leaves with the input encoded. -/
theorem deflatePass_meets {h : z.Encodes strm encoded} {pIn : StdString} {s : ChunkLoop z.State}
    (hs : Encoding alloc h pIn s) : (deflatePass alloc z s).Meets
      (fun t ↦ Encoding alloc h pIn t ∧ encodingMeasure h pIn t < encodingMeasure h pIn s)
      (Compressed alloc h pIn) := by
  obtain ⟨r, hcall⟩ : ∃ r, z.encode s.strm s.avail chunk s.left.isEmpty = r := ⟨_, rfl⟩
  have hr := hs.call hcall
  have hgiven := h.given_call s.strm s.avail chunk _ hs.allowed
  rw [hcall] at hgiven
  have hlength := congrArg List.length hgiven
  rw [List.length_append] at hlength
  have hmust : Compressible alloc h pIn →
      ∃ buffer, s.buffer.append alloc r.out = .ok (some buffer) := by
    intro hfits
    refine OutBuffer.append_of_lt hfits.1 (hs.backed hfits) ?_
    rw [hs.outData, ← hlength]
    exact hr.length_given_lt hfits
  have hpos := chunk_pos
  rw [deflatePass, hcall]
  refine meets_afterAppend (fun buffer hbuffer ↦ ?_) hmust fun hnot result hresult ↦
    ⟨fun out hsome ↦ absurd hsome (hresult out), fun hfits ↦ absurd hfits hnot⟩
  have houtData : buffer.outData = h.given r.state := by
    rw [hgiven, ← hs.outData]
    exact OutBuffer.outData_append hbuffer
  have hbacked : Compressible alloc h pIn → buffer.Backed := fun hfits ↦
    OutBuffer.backed_append (hs.backed hfits) hbuffer
  split_ifs with hroom hleft
  · -- the inner loop goes on with the rest of the chunk
    refine ⟨⟨hr.input, houtData, hr.full hroom, hbacked⟩, ?_⟩
    have hle := length_given_le hr.input (hr.full hroom)
    simp only [encodingMeasure]
    omega
  · rw [Pass.Meets, houtData, hr.last hroom (List.isEmpty_iff.mp hleft)]
    exact ⟨fun out hsome ↦ (Option.some.inj (Except.ok.inj hsome)).symm, fun _ ↦ rfl⟩
  · have hne := mt List.isEmpty_iff.mpr hleft
    constructor
    · refine ⟨?_, houtData, hr.next hroom hne _ _, hbacked⟩
      have hinput := hr.input
      rw [hr.used hroom] at hinput
      rw [ChunkLoop.nextChunk, List.take_append_drop]
      exact hinput
    · have hpositive := List.length_pos_of_ne_nil hne
      simp only [encodingMeasure, ChunkLoop.nextChunk, List.length_drop]
      omega

/-- The loop ends, with nothing wrong, and with the input encoded if there is memory. -/
theorem deflateLoop_compressed (alloc : Int32 → Bool) (h : z.Encodes strm encoded)
    (pIn : StdString) :
    ∃ result, Base.Yields (deflatePass alloc z)
        (.nextChunk strm (.malloc alloc (.ofNat pIn.length)) pIn) result ∧
      Compressed alloc h pIn result := by
  obtain ⟨r, hr, hresult⟩ := Base.loop_of_variant (Encoding alloc h pIn) (Compressed alloc h pIn)
    (encodingMeasure h pIn) (fun _ hs ↦ deflatePass_meets hs) (encoding_start h pIn)
  exact ⟨r, ⟨_, hr⟩, hresult⟩

end Compress

/-! ### Streams of stored blocks -/

/-- What is to come in a stream whose blocks store one byte each: some given bytes, and then a
block, the byte of a block, or nothing more. -/
inductive StoredPhase where
  | block
  | byte
  | ended
  | broken
deriving DecidableEq

structure StoredState where
  expected : StdString
  phase : StoredPhase
  sum : Nat × Nat

/-- The checksum at the end of a stream, with the most significant byte first. -/
def adler32 (sum : Nat × Nat) : StdString :=
  [UInt8.ofNat (sum.2 / 256), UInt8.ofNat sum.2, UInt8.ofNat (sum.1 / 256), UInt8.ofNat sum.1]

def adlerNext (sum : Nat × Nat) (byte : UInt8) : Nat × Nat :=
  ((sum.1 + byte.toNat) % 65521, (sum.2 + (sum.1 + byte.toNat) % 65521) % 65521)

/-- The part of the zlib format that `storedStream` uses. -/
def storedMachine : Base.StreamMachine StoredState UInt8 UInt8 where
  step s byte :=
    match s.expected, s.phase with
    | next :: rest, phase =>
      if byte = next then (⟨rest, phase, s.sum⟩, []) else (⟨[], .broken, s.sum⟩, [])
    | [], .block =>
      if byte = 0 then (⟨[1, 0, 0xfe, 0xff], .byte, s.sum⟩, [])
      else if byte = 3 then (⟨0 :: adler32 s.sum, .ended, s.sum⟩, [])
      else (⟨[], .broken, s.sum⟩, [])
    | [], .byte => (⟨[], .block, adlerNext s.sum byte⟩, [byte])
    | [], phase => (⟨[], phase, s.sum⟩, [])
  ended s := s.expected.isEmpty && s.phase == .ended
  broken s := s.phase == .broken
  ended_sound s h := by
    rw [Bool.and_eq_true, beq_iff_eq] at h
    rw [h.2]
    rfl

/-- A zlib stream: its header, a stored block for each byte, an empty last block, the checksum. -/
def storedStream (body : StdString) : StdString :=
  [0x78, 0x9c] ++ (body.flatMap fun byte ↦ [0, 1, 0, 0xfe, 0xff, byte]) ++
    3 :: 0 :: adler32 (body.foldl adlerNext (1, 0))

def storedFormat : StreamFormat UInt8 UInt8 :=
  storedMachine.format ⟨[0x78, 0x9c], .block, (1, 0)⟩

/-- Expected bytes are read over. -/
theorem stored_expected (text : StdString) {phase : StoredPhase} (hphase : phase ≠ .broken)
    (sum : Nat × Nat) (out rest : StdString) :
    storedMachine.decodedFrom ⟨text, phase, sum⟩ out (text ++ rest) =
      storedMachine.decodedFrom ⟨[], phase, sum⟩ out rest := by
  induction text with
  | nil => rfl
  | cons next text ih =>
    rw [List.cons_append, Base.StreamMachine.decodedFrom_cons rfl (beq_false_of_ne hphase), ← ih]
    simp [storedMachine]

/-- Blocks of single bytes are read as those bytes. -/
theorem stored_blocks (body : StdString) (sum : Nat × Nat) (out rest : StdString) :
    storedMachine.decodedFrom ⟨[], .block, sum⟩ out
        ((body.flatMap fun byte ↦ [0, 1, 0, 0xfe, 0xff, byte]) ++ rest) =
      storedMachine.decodedFrom ⟨[], .block, body.foldl adlerNext sum⟩ (out ++ body) rest := by
  induction body generalizing sum out with
  | nil => rw [List.flatMap_nil, List.nil_append, List.append_nil, List.foldl_nil]
  | cons byte body ih =>
    have hlengths := stored_expected [1, 0, 0xfe, 0xff] (show StoredPhase.byte ≠ .broken by decide)
      sum out (byte :: ((body.flatMap fun byte ↦ [0, 1, 0, 0xfe, 0xff, byte]) ++ rest))
    rw [Base.StreamMachine.decodedFrom_cons rfl rfl] at hlengths
    simp only [List.flatMap_cons, List.cons_append, List.nil_append, List.foldl_cons]
    rw [Base.StreamMachine.decodedFrom_cons rfl rfl]
    refine Eq.trans ?_ (hlengths.trans ?_)
    · simp [storedMachine]
    · refine (ih _ _).trans ?_
      simp [storedMachine]

/-- Reading such a stream gives the body. -/
theorem stored_lossless (body : StdString) :
    storedFormat.decoded (storedStream body) = some body := by
  rw [storedFormat, Base.StreamMachine.decoded_format, storedStream, List.append_assoc,
    stored_expected [0x78, 0x9c] (by decide), stored_blocks, List.nil_append,
    Base.StreamMachine.decodedFrom_cons rfl rfl]
  have hlast := stored_expected (0 :: adler32 (body.foldl adlerNext (1, 0)))
    (show StoredPhase.ended ≠ .broken by decide) (body.foldl adlerNext (1, 0)) body []
  rw [List.append_nil] at hlast
  refine Eq.trans ?_ (hlast.trans (Base.StreamMachine.decodedFrom_of_ended rfl _ _))
  simp [storedMachine]

theorem length_storedStream (body : StdString) :
    (storedStream body).length ≤ 6 * body.length + 8 := by
  have hblocks : (body.flatMap fun byte ↦ [0, 1, 0, 0xfe, 0xff, byte]).length =
      6 * body.length := by
    induction body with
    | nil => rfl
    | cons byte body ih =>
      simp only [List.flatMap_cons, List.length_append, ih, List.length_cons, List.length_nil]
      omega
  simp only [storedStream, List.length_append, hblocks, List.length_cons, adler32, List.length_nil]
  omega

/-- `deflateInit` takes the levels from -1 to 9. -/
def storedInit (level : Int) : Option (Encoder.late storedStream).State :=
  if -1 ≤ level ∧ level ≤ 9 then some ([], []) else none

def storedEncodes (level : Int) (strm : (Encoder.late storedStream).State)
    (hstrm : storedInit level = some strm) :
    (Encoder.late storedStream).Encodes strm storedStream := by
  have hinit : ([], []) = strm := by
    rw [storedInit] at hstrm
    split_ifs at hstrm
    exact Option.some.inj hstrm
  rw [← hinit]
  exact Encoder.encodesLate (fun _ _ hle ↦ Nat.add_le_add_right (Nat.mul_le_mul_left 6 hle) 8)
    length_storedStream

/-! ### The two loops -/

/-- At a level that `deflateInit` accepts `compress` is its loop. -/
theorem compressesTo_iff {alloc : Int32 → Bool} {z : Encoder UInt8 UInt8}
    {init : Int → Option z.State} {strm : z.State} {level : Int} (hstrm : init level = some strm)
    (pIn : StdString) (result : ChunkResult) :
    CompressesTo alloc z init pIn level result ↔ Base.Yields (deflatePass alloc z)
      (.nextChunk strm (.malloc alloc (.ofNat pIn.length)) pIn) result := by
  rw [CompressesTo, hstrm]

/-- If there is memory it gives the encoded input. -/
theorem compressesTo_encoded {alloc : Int32 → Bool} {z : Encoder UInt8 UInt8}
    {init : Int → Option z.State} {strm : z.State} {level : Int} {encoded : StdString → StdString}
    (hstrm : init level = some strm) (h : z.Encodes strm encoded) {pIn : StdString}
    (hfits : Compressible alloc h pIn) :
    CompressesTo alloc z init pIn level (.ok (some (encoded pIn))) := by
  obtain ⟨r, hr, -, hexact⟩ := deflateLoop_compressed alloc h pIn
  exact (compressesTo_iff hstrm _ _).mpr (hexact hfits ▸ hr)

/-- For every input and every level it ends, and gives nothing but the encoded input. -/
theorem compress_encoded {z : Encoder UInt8 UInt8} {init : Int → Option z.State}
    {encoded : Int → StdString → StdString}
    (h : ∀ level strm, init level = some strm → z.Encodes strm (encoded level))
    (alloc : Int32 → Bool) (pIn : StdString) (level : Int) :
    (∃ result, CompressesTo alloc z init pIn level result) ∧
      ∀ out, CompressesTo alloc z init pIn level (.ok (some out)) → out = encoded level pIn := by
  cases hinit : init level with
  | none =>
    have hfalse : ∀ result, CompressesTo alloc z init pIn level result ↔ result = .ok none := by
      intro result
      rw [CompressesTo, hinit]
    refine ⟨⟨_, (hfalse _).mpr rfl⟩, fun out hout ↦ ?_⟩
    cases (hfalse _).mp hout
  | some strm =>
    obtain ⟨r, hr, hright, -⟩ := deflateLoop_compressed alloc (h level strm hinit) pIn
    exact ⟨⟨r, (compressesTo_iff hinit _ r).mpr hr⟩, fun out hout ↦
      hright out (Base.yields_unique hr ((compressesTo_iff hinit _ _).mp hout))⟩

/-- Whatever memory there is, the loop of `decompress` ends on every input, and gives no output but
what the format says of the whole input: the output of the stream at its front, whatever follows it.
If there is memory, and less than `2^30` bytes are put out, it gives just that, or failure when no
stream comes to an end. -/
theorem decompress_decoded {z : Decoder UInt8 UInt8} {strm : z.State}
    {f : StreamFormat UInt8 UInt8} (h : z.Decodes strm f) (hempty : f.ended [] = false)
    (alloc : Int32 → Bool) (pIn : StdString) :
    (∃ result, DecompressesTo alloc z strm pIn result) ∧
    (∀ body, DecompressesTo alloc z strm pIn (.ok (some body)) → f.decoded pIn = some body) ∧
    (Allocates alloc → (f.emitted pIn).length < 2 ^ 30 →
      ∀ result, DecompressesTo alloc z strm pIn result ↔ result = .ok (f.decoded pIn)) := by
  obtain ⟨result, hresult, hright, hexact⟩ := decompressesTo_decompressed alloc h hempty pIn
  refine ⟨⟨result, hresult⟩, fun body hbody ↦ hright body (decompressesTo_unique hresult hbody),
    fun halloc hsize result' ↦ ?_⟩
  have hdecoded := hexact ⟨halloc, hsize⟩
  constructor
  · exact fun hresult' ↦ (decompressesTo_unique hresult' hresult).trans hdecoded
  · rintro rfl
    exact hdecoded ▸ hresult

/-- Memory for every size that an `int` holds, and for no negative one. -/
def allocSample (size : Int32) : Bool := 0 ≤ size

theorem allocates_sample : Allocates allocSample := fun _ hsize ↦ decide_eq_true hsize

/-- The stream of one `a` and a byte behind it. -/
theorem decompress_decoded_trailing :
    DecompressesTo allocSample storedFormat.eager ⟨([], []), List.nil_prefix⟩
      (storedStream (str "a") ++ [7]) (.ok (some (str "a"))) :=
  ((decompress_decoded storedFormat.decodesEager rfl allocSample _).2.2 allocates_sample
    (by decide +kernel) _).mpr (by decide +kernel)

/-- Decompressing undoes compressing on bodies below `2^30` bytes, when the two loops run on a
library whose format loses nothing and `decompress` gets its memory. -/
theorem loops_undo {ze : Encoder UInt8 UInt8} {zd : Decoder UInt8 UInt8}
    {deflateInit : Int → Option ze.State} {inflateInit : zd.State}
    {encoded : Int → StdString → StdString} {f : StreamFormat UInt8 UInt8}
    {alloc alloc' : Int32 → Bool}
    (hdeflate : ∀ level strm, deflateInit level = some strm → ze.Encodes strm (encoded level))
    (hinflate : zd.Decodes inflateInit f) (hempty : f.ended [] = false)
    (hlossless : ∀ level body, f.decoded (encoded level body) = some body)
    (halloc : Allocates alloc') {body out : StdString} {level : Int}
    (hsize : body.length < 2 ^ 30)
    (hcompress : CompressesTo alloc ze deflateInit body level (.ok (some out)))
    (result : ChunkResult) :
    DecompressesTo alloc' zd inflateInit out result ↔ result = .ok (some body) := by
  obtain rfl := (compress_encoded hdeflate alloc body level).2 out hcompress
  have hback := decompressesTo_of_decoded halloc hinflate hempty (hlossless level body) hsize
  constructor
  · exact fun hresult ↦ decompressesTo_unique hresult hback
  · rintro rfl
    exact hback

/-- The body `ab` at level 5, compressed to a stream of stored blocks. -/
theorem loops_undo_stored :
    CompressesTo allocSample (Encoder.late storedStream) storedInit (str "ab") 5
        (.ok (some (storedStream (str "ab")))) ∧
      DecompressesTo allocSample storedFormat.eager ⟨([], []), List.nil_prefix⟩
        (storedStream (str "ab")) (.ok (some (str "ab"))) := by
  have hcompress : CompressesTo allocSample (Encoder.late storedStream) storedInit (str "ab") 5
      (.ok (some (storedStream (str "ab")))) :=
    compressesTo_encoded rfl (storedEncodes 5 ([], []) rfl)
      ⟨allocates_sample, by decide, by decide⟩
  exact ⟨hcompress, (loops_undo storedEncodes storedFormat.decodesEager rfl
    (fun _ ↦ stored_lossless) allocates_sample (by decide) hcompress _).mpr rfl⟩

/-- What sends and receipts rely on: where `compress` only succeeds as its loop does, on bodies
below `2^30` bytes, and `decompress` as its own loop, the second undoes the first. -/
theorem undoes_of_loops {ze : Encoder UInt8 UInt8} {zd : Decoder UInt8 UInt8}
    {deflateInit : Int → Option ze.State} {inflateInit : zd.State}
    {encoded : Int → StdString → StdString} {f : StreamFormat UInt8 UInt8}
    {alloc alloc' : Int32 → Bool} {compress : Compress} {inflate : StdString → Option StdString}
    (hdeflate : ∀ level strm, deflateInit level = some strm → ze.Encodes strm (encoded level))
    (hinflate : zd.Decodes inflateInit f) (hempty : f.ended [] = false)
    (hlossless : ∀ level body, f.decoded (encoded level body) = some body)
    (halloc : Allocates alloc')
    (hcompress : ∀ body level out, compress body level = some out →
      body.length < 2 ^ 30 ∧ CompressesTo alloc ze deflateInit body level (.ok (some out)))
    (hdecompress : ∀ pIn body, DecompressesTo alloc' zd inflateInit pIn (.ok (some body)) →
      decompress inflate pIn = some body) :
    Undoes inflate compress := by
  intro body level out hout
  obtain ⟨hsize, hloop⟩ := hcompress body level out hout
  obtain rfl := (compress_encoded hdeflate alloc body level).2 out hloop
  exact hdecompress _ _
    (decompressesTo_of_decoded halloc hinflate hempty (hlossless level body) hsize)

end UtilAll
end RocketMQ
