import RocketMQ.Message.PropertyBlock

/-!
# Decoding inverts the record layout

The layout is the one that `MessageDecoder::decode` numbers from `1 TOTALSIZE` to
`17 properties`. A `RawRecord` holds what may stand in it, a `Record` what a message has there;
the bytes of records, one behind the other, decode to one message for each.
-/

namespace RocketMQ
namespace MessageDecoder

/-! ### Records -/

/-- An address and a port as a record has them. -/
structure Host extends SockAddr where
  ip_length : ip.length = 4
  port_lt : port < 2 ^ 16

/-- What may stand in a record: the fields, any bytes for a property block. -/
structure RawRecord where
  magicCode : Int32
  bodyCRC : Int32
  queueId : Int32
  flag : Int32
  queueOffset : Int64
  physicalOffset : Int64
  sysFlag : Int32
  bornTimestamp : Int64
  bornHost : Host
  storeTimestamp : Int64
  storeHost : Host
  reconsumeTimes : Int32
  preparedTransactionOffset : Int64
  body : StdString
  topic : StdString
  properties : StdString
  properties_length : properties.length ≤ 32767
  size_lt : 91 + body.length + topic.length + properties.length < 2 ^ 31

namespace RawRecord

/-- `TOTALSIZE`. -/
def totalSize (r : RawRecord) : Int :=
  91 + r.body.length + r.topic.length + r.properties.length

/-- The parts of a record in their order; a host has two, a variable part has its length before
it. -/
def parts (r : RawRecord) : List StdString :=
  [Base.beIntBytes 4 r.totalSize, Base.beIntBytes 4 r.magicCode.toInt,
    Base.beIntBytes 4 r.bodyCRC.toInt, Base.beIntBytes 4 r.queueId.toInt,
    Base.beIntBytes 4 r.flag.toInt, Base.beIntBytes 8 r.queueOffset.toInt,
    Base.beIntBytes 8 r.physicalOffset.toInt, Base.beIntBytes 4 r.sysFlag.toInt,
    Base.beIntBytes 8 r.bornTimestamp.toInt, r.bornHost.ip, Base.beIntBytes 4 r.bornHost.port,
    Base.beIntBytes 8 r.storeTimestamp.toInt, r.storeHost.ip, Base.beIntBytes 4 r.storeHost.port,
    Base.beIntBytes 4 r.reconsumeTimes.toInt, Base.beIntBytes 8 r.preparedTransactionOffset.toInt,
    Base.beIntBytes 4 r.body.length, r.body, Base.beIntBytes 1 r.topic.length, r.topic,
    Base.beIntBytes 2 r.properties.length, r.properties]

/-- The record as it stands in a buffer. -/
def bytes (r : RawRecord) : StdString := r.parts.flatten

/-- What becomes of the body. -/
def decodedBody (inflate : StdString → Option StdString) (r : RawRecord) : Option StdString :=
  if r.body.isEmpty then none else
    let body := decodeBody inflate r.sysFlag.toInt r.body
    if body.isEmpty then none else some body

/-- What becomes of the property block. -/
def decodedProperties (r : RawRecord) : Std.ExtTreeMap StdString StdString :=
  if r.properties.isEmpty then defaultProperties else string2messageProperties (cstr r.properties)

/-- The message that the fields give. -/
def messageExt (inflate : StdString → Option StdString) (r : RawRecord) : MessageExt :=
  { topic := cstr r.topic
    flag := r.flag.toInt
    properties := r.decodedProperties
    body := r.decodedBody inflate
    queueOffset := r.queueOffset.toInt
    commitLogOffset := r.physicalOffset.toInt
    bornTimestamp := r.bornTimestamp.toInt
    storeTimestamp := r.storeTimestamp.toInt
    preparedTransactionOffset := r.preparedTransactionOffset.toInt
    queueId := r.queueId.toInt
    storeSize := r.totalSize
    sysFlag := r.sysFlag.toInt
    bodyCRC := r.bodyCRC.toInt
    reconsumeTimes := r.reconsumeTimes.toInt
    bornHost := r.bornHost.toSockAddr
    storeHost := r.storeHost.toSockAddr
    msgId := createMessageId r.storeHost.toSockAddr r.physicalOffset.toInt }

/-- How long the parts are. -/
def widths (r : RawRecord) : List Nat :=
  [4, 4, 4, 4, 4, 8, 8, 4, 8, 4, 4, 8, 4, 4, 4, 8, 4, r.body.length, 1, r.topic.length, 2,
    r.properties.length]

theorem map_length_parts (r : RawRecord) : r.parts.map List.length = r.widths := by
  simp only [parts, widths, List.map_cons, List.map_nil, Base.length_beIntBytes,
    r.bornHost.ip_length, r.storeHost.ip_length]

/-- Where a part stands in the record. -/
theorem length_flatten_take (r : RawRecord) (i : Nat) :
    (r.parts.take i).flatten.length = (r.widths.take i).sum := by
  rw [List.length_flatten, List.map_take, map_length_parts]

/-- How long the parts before the body are. -/
def fixedWidths : List Nat := [4, 4, 4, 4, 4, 8, 8, 4, 8, 4, 4, 8, 4, 4, 4, 8, 4]

/-- A part before the body stands at a fixed distance. -/
theorem length_flatten_take_fixed (r : RawRecord) {i : Nat} {d : Int}
    (h : i ≤ 17 ∧ d = (fixedWidths.take i).sum) : d = (r.parts.take i).flatten.length := by
  have hwidths : r.widths = fixedWidths ++ [r.body.length, 1, r.topic.length, 2,
      r.properties.length] := rfl
  rw [h.2, length_flatten_take, hwidths, List.take_append_of_le_length h.1]

/-- A part behind the body stands behind that and the parts in between. -/
theorem length_flatten_take_behind (r : RawRecord) {i : Nat} (hi : 18 ≤ i) :
    (r.parts.take i).flatten.length = 88 + r.body.length + (List.take (i - 18)
      [1, r.topic.length, 2, r.properties.length]).sum := by
  have hwidths : r.widths = (fixedWidths ++ [r.body.length]) ++ [1, r.topic.length, 2,
      r.properties.length] := rfl
  have hfront : (fixedWidths ++ [r.body.length]).length = 18 := rfl
  have hsum : fixedWidths.sum = 88 := rfl
  obtain ⟨k, rfl⟩ := Nat.exists_eq_add_of_le hi
  rw [length_flatten_take, hwidths, Nat.add_sub_cancel_left, ← hfront,
    List.take_length_add_append, List.sum_append, List.sum_append, hsum, List.sum_singleton]

/-- `TOTALSIZE` is the record's length. -/
theorem length_bytes (r : RawRecord) : (r.bytes.length : Int) = r.totalSize := by
  rw [bytes, List.length_flatten, map_length_parts, totalSize]
  simp only [widths, List.sum_cons, List.sum_nil]
  push_cast
  omega

/-! ### Reading one part -/

section Parts

variable (r : RawRecord) (pre post : StdString) {off : Int} {n w i : Nat} {part : StdString}

/-- A part of the record is read wherever the record stands. -/
theorem read_part (hpart : r.parts[i]? = some part)
    (hoff : off = pre.length + (r.parts.take i).flatten.length) (hn : n = part.length) :
    read (pre ++ (r.bytes ++ post)) off n = .ok part := by
  obtain ⟨hi, rfl⟩ := List.getElem?_eq_some_iff.mp hpart
  rw [read, bytes, Base.readAt_flatten pre post r.parts i hi hoff hn]

/-- So is a number that fits its width. -/
theorem readInt_part {x : Int} (hpart : r.parts[i]? = some (Base.beIntBytes w x))
    (hoff : off = pre.length + (r.parts.take i).flatten.length)
    (hfits : -(256 ^ w : Nat) ≤ 2 * x ∧ 2 * x < (256 ^ w : Nat)) :
    readInt (pre ++ (r.bytes ++ post)) off w = .ok x := by
  rw [readInt, r.read_part pre post hpart hoff (Base.length_beIntBytes w x).symm]
  exact congrArg Except.ok (Base.beInt_beIntBytes hfits.1 hfits.2)

/-- Before the body, a number of as many bits as its width has stands at a fixed distance. -/
theorem readInt_fixed (i : Nat) (d : Int) {x : Int}
    (hpart : r.parts[i]? = some (Base.beIntBytes w x))
    (hd : i ≤ 17 ∧ d = (fixedWidths.take i).sum) (hx : ∃ bits : BitVec (8 * w), bits.toInt = x) :
    readInt (pre ++ (r.bytes ++ post)) (pre.length + d) w = .ok x := by
  obtain ⟨bits, rfl⟩ := hx
  have hpow : (256 ^ w : Nat) = 2 ^ (8 * w) := by rw [Nat.pow_mul]
  refine r.readInt_part pre post hpart (by rw [← r.length_flatten_take_fixed hd]) ?_
  rw [hpow]
  exact ⟨BitVec.le_two_mul_toInt, BitVec.two_mul_toInt_lt⟩

/-- A host is an address and a port, each of which is a part. -/
theorem readHost_part (i : Nat) (d : Int) (host : Host) (hip : r.parts[i]? = some host.ip)
    (hport : r.parts[i + 1]? = some (Base.beIntBytes 4 host.port))
    (hd : i ≤ 17 ∧ d = (fixedWidths.take i).sum) :
    readHost (pre ++ (r.bytes ++ post)) (pre.length + d) = .ok host.toSockAddr := by
  have hlt := host.port_lt
  have hoff : pre.length + d = pre.length + (r.parts.take i).flatten.length := by
    rw [← r.length_flatten_take_fixed hd]
  have hoff' : pre.length + d + 4 = pre.length + (r.parts.take (i + 1)).flatten.length := by
    rw [List.take_add_one, hip, List.flatten_append, List.length_append, hoff]
    simp only [Option.toList_some, List.flatten_cons, List.flatten_nil, List.append_nil,
      host.ip_length]
    push_cast
    omega
  rw [readHost, r.read_part pre post hip hoff host.ip_length.symm,
    r.readInt_part pre post hport hoff' ⟨by push_cast; omega, by push_cast; omega⟩]
  have hmod : ((host.port : Int) % 2 ^ 16).toNat = host.port := by omega
  exact congrArg (fun port ↦ Except.ok (SockAddr.mk host.ip port)) hmod

/-! ### The three variable parts -/

theorem readBody_bytes (inflate : StdString → Option StdString)
    (hoff : off = pre.length + 88) :
    readBody inflate (pre ++ (r.bytes ++ post)) off r.sysFlag.toInt r.body.length =
      .ok (r.decodedBody inflate) := by
  have hbody : r.parts[17]? = some r.body := rfl
  have hoff' : off = pre.length + (r.parts.take 17).flatten.length := by
    rw [hoff, ← r.length_flatten_take_fixed (i := 17) (d := 88) (by decide)]
  rw [readBody, decodedBody]
  by_cases hempty : r.body = []
  · rw [hempty]
    rfl
  · have hlen : (r.body.length : Int) > 0 := by
      have hpos := List.length_pos_of_ne_nil hempty
      omega
    rw [if_pos hlen, Int.toNat_natCast, r.read_part pre post hbody hoff' rfl,
      if_neg (mt List.isEmpty_iff.mp hempty)]
    rfl

/-- The length of the topic is read as a signed byte. -/
theorem readInt_topicLen (hle : r.topic.length ≤ 255)
    (hoff : off = pre.length + 88 + r.body.length) :
    readInt (pre ++ (r.bytes ++ post)) off 1 =
      .ok (if r.topic.length ≤ 127 then r.topic.length else (r.topic.length : Int) - 256) := by
  have hat : (r.parts.take 18).flatten.length = 88 + r.body.length :=
    r.length_flatten_take_behind (by decide)
  split_ifs with hshort
  · exact r.readInt_part (i := 18) pre post rfl (by omega) (by push_cast; omega)
  · have hwraps : Base.beIntBytes 1 ((r.topic.length : Int) - 256) =
        Base.beIntBytes 1 r.topic.length := by
      rw [Base.beIntBytes, Base.beIntBytes, pow_one, Int.sub_emod_right]
    refine r.readInt_part (i := 18) pre post ?_ (by omega) (by push_cast; omega)
    rw [hwraps]
    rfl

theorem readProperties_bytes
    (hoff : off = pre.length + 88 + r.body.length + 1 + r.topic.length + 2) :
    readProperties (pre ++ (r.bytes ++ post)) off r.properties.length =
      .ok r.decodedProperties := by
  have hproperties : r.parts[21]? = some r.properties := rfl
  have hat : (r.parts.take 21).flatten.length =
      88 + r.body.length + (1 + (r.topic.length + 2)) := r.length_flatten_take_behind (by decide)
  have hoff' : off = pre.length + (r.parts.take 21).flatten.length := by omega
  rw [readProperties, decodedProperties]
  by_cases hempty : r.properties = []
  · rw [hempty]
    rfl
  · have hlen : (r.properties.length : Int) > 0 := by
      have hpos := List.length_pos_of_ne_nil hempty
      omega
    rw [if_pos hlen, Int.toNat_natCast, r.read_part pre post hproperties hoff' rfl,
      if_neg (mt List.isEmpty_iff.mp hempty)]
    rfl

end Parts

/-! ### One record -/

/-- **One record**: wherever it stands, up to a topic of 127 bytes its message is decoded, and the
offset that is reported is its `TOTALSIZE`. A longer topic has a negative length. -/
theorem decode_eq (inflate : StdString → Option StdString) (r : RawRecord)
    (hle : r.topic.length ≤ 255) (pre post : StdString) :
    decode inflate (pre ++ (r.bytes ++ post)) pre.length =
      if r.topic.length ≤ 127 then .ok (some (r.messageExt inflate, r.totalSize))
      else if r.topic.length = 255 then .error .negativeLength
      else .ok none := by
  have hlt := r.size_lt
  have hpropertiesLe := r.properties_length
  have hbodyLenAt := r.length_flatten_take_fixed (i := 16) (d := 84) (by decide)
  have htopicAt : (r.parts.take 19).flatten.length = 88 + r.body.length + 1 :=
    r.length_flatten_take_behind (by decide)
  have hpropertiesLengthAt : (r.parts.take 20).flatten.length =
      88 + r.body.length + (1 + r.topic.length) := r.length_flatten_take_behind (by decide)
  have hstoreSize : readInt (pre ++ (r.bytes ++ post)) pre.length 4 = .ok r.totalSize :=
    r.readInt_part (i := 0) pre post rfl (by simp) (by rw [totalSize]; push_cast; omega)
  have hbodyCRC := r.readInt_fixed pre post 2 8 rfl (by decide) ⟨r.bodyCRC.toBitVec, rfl⟩
  have hqueueId := r.readInt_fixed pre post 3 12 rfl (by decide) ⟨r.queueId.toBitVec, rfl⟩
  have hflag := r.readInt_fixed pre post 4 16 rfl (by decide) ⟨r.flag.toBitVec, rfl⟩
  have hqueueOffset := r.readInt_fixed pre post 5 20 rfl (by decide) ⟨r.queueOffset.toBitVec, rfl⟩
  have hphysicalOffset :=
    r.readInt_fixed pre post 6 28 rfl (by decide) ⟨r.physicalOffset.toBitVec, rfl⟩
  have hsysFlag := r.readInt_fixed pre post 7 36 rfl (by decide) ⟨r.sysFlag.toBitVec, rfl⟩
  have hbornTimestamp :=
    r.readInt_fixed pre post 8 40 rfl (by decide) ⟨r.bornTimestamp.toBitVec, rfl⟩
  have hbornHost := r.readHost_part pre post 9 48 r.bornHost rfl rfl (by decide)
  have hstoreTimestamp :=
    r.readInt_fixed pre post 11 56 rfl (by decide) ⟨r.storeTimestamp.toBitVec, rfl⟩
  have hstoreHost := r.readHost_part pre post 12 64 r.storeHost rfl rfl (by decide)
  have hreconsumeTimes :=
    r.readInt_fixed pre post 14 72 rfl (by decide) ⟨r.reconsumeTimes.toBitVec, rfl⟩
  have hpreparedTransactionOffset :=
    r.readInt_fixed pre post 15 76 rfl (by decide) ⟨r.preparedTransactionOffset.toBitVec, rfl⟩
  have hbodyLen : readInt (pre ++ (r.bytes ++ post)) (pre.length + 84) 4 = .ok r.body.length :=
    r.readInt_part (i := 16) pre post rfl (by rw [← hbodyLenAt]) (by push_cast; omega)
  have hbody := r.readBody_bytes pre post inflate rfl
  have htopicLen := r.readInt_topicLen pre post hle rfl
  have htopic : read (pre ++ (r.bytes ++ post)) (pre.length + 88 + r.body.length + 1)
      r.topic.length = .ok r.topic :=
    r.read_part (i := 19) pre post rfl (by omega) rfl
  have hpropertiesLength : readInt (pre ++ (r.bytes ++ post))
      (pre.length + 88 + r.body.length + 1 + r.topic.length) 2 = .ok r.properties.length :=
    r.readInt_part (i := 20) pre post rfl (by omega) (by push_cast; omega)
  have hproperties := r.readProperties_bytes pre post rfl
  simp only [decode, hstoreSize, hbodyCRC, hqueueId, hflag, hqueueOffset, hphysicalOffset,
    hsysFlag, hbornTimestamp, hbornHost, hstoreTimestamp, hstoreHost, hreconsumeTimes,
    hpreparedTransactionOffset, hbodyLen, hbody, htopicLen, bind, Except.bind, pure, Except.pure]
  by_cases hshort : r.topic.length ≤ 127
  · have hnonneg : ¬ (r.topic.length : Int) < -1 ∧ ¬ (r.topic.length : Int) < 0 := by omega
    simp only [if_pos hshort, if_neg hnonneg.1, if_neg hnonneg.2, Int.toNat_natCast, htopic,
      hpropertiesLength, hproperties]
    rw [messageExt, totalSize]
    congr 3
    omega
  · simp only [if_neg hshort]
    by_cases hlast : r.topic.length = 255
    · have hminus : ¬ (r.topic.length : Int) - 256 < -1 ∧ (r.topic.length : Int) - 256 < 0 := by
        omega
      rw [if_neg hminus.1, if_pos hminus.2, if_pos hlast]
      rfl
    · have hneg : (r.topic.length : Int) - 256 < -1 := by omega
      rw [if_pos hneg, if_neg hlast]

/-! ### One record behind the other -/

theorem totalSize_pos (r : RawRecord) : 0 < r.totalSize := by
  rw [totalSize]
  omega

/-- Decoding goes on with the records it has not met yet, as long as their topics are read with
their lengths. -/
theorem yields_iff (inflate : StdString → Option StdString) {records : List RawRecord}
    (hle : ∀ r ∈ records, r.topic.length ≤ 255) (pre : StdString)
    (list decoded : List (MessageExt × Int)) :
    Base.Yields (decodesPass inflate (pre ++ records.flatMap bytes)) (pre.length, list)
        (.ok decoded) ↔
      (∀ r ∈ records, r.topic.length ≤ 127) ∧
        decoded = list ++ records.map fun r ↦ (r.messageExt inflate, r.totalSize) := by
  induction records generalizing pre list with
  | nil =>
    have hleave : decodesPass inflate (pre ++ List.flatMap bytes []) (pre.length, list) =
        .leave (.ok list) := by
      simp [decodesPass]
    rw [Base.yields_iff_of_leave hleave, Except.ok.injEq, List.map_nil, List.append_nil]
    exact (and_iff_right nofun).symm
  | cons r records ih =>
    have hsize := r.length_bytes
    have hpos := r.totalSize_pos
    have hinside : (pre.length : Int) < (pre ++ (r :: records).flatMap bytes).length := by
      rw [List.flatMap_cons, List.length_append, List.length_append]
      omega
    rw [List.forall_mem_cons] at hle
    have hdecode := r.decode_eq inflate hle.1 pre (records.flatMap bytes)
    by_cases hshort : r.topic.length ≤ 127
    · rw [if_pos hshort] at hdecode
      have hpass : decodesPass inflate (pre ++ (r :: records).flatMap bytes) (pre.length, list) =
          .again (pre.length + r.totalSize, list ++ [(r.messageExt inflate, r.totalSize)]) := by
        rw [decodesPass, if_pos hinside, List.flatMap_cons, hdecode]
      have hnext := ih hle.2 (pre ++ r.bytes) (list ++ [(r.messageExt inflate, r.totalSize)])
      rw [List.length_append] at hnext
      push_cast at hnext
      rw [hsize, List.append_assoc, List.append_assoc] at hnext
      rw [Base.yields_iff_of_again hpass, List.forall_mem_cons, and_iff_right hshort]
      exact hnext
    · rw [if_neg hshort] at hdecode
      have hpass : ∃ fault, decodesPass inflate (pre ++ (r :: records).flatMap bytes)
          (pre.length, list) = .leave (.error fault) := by
        rw [decodesPass, if_pos hinside, List.flatMap_cons, hdecode]
        by_cases hlast : r.topic.length = 255
        · rw [if_pos hlast]
          exact ⟨_, rfl⟩
        · rw [if_neg hlast]
          exact ⟨_, rfl⟩
      obtain ⟨fault, hleave⟩ := hpass
      rw [Base.yields_iff_of_leave hleave]
      exact iff_of_false nofun fun h ↦ hshort (h.1 r List.mem_cons_self)

end RawRecord

/-- The fields of a record whose body is not compressed. -/
structure Record where
  magicCode : Int32
  bodyCRC : Int32
  queueId : Int32
  flag : Int32
  queueOffset : Int64
  physicalOffset : Int64
  sysFlag : Int32
  bornTimestamp : Int64
  bornHost : Host
  storeTimestamp : Int64
  storeHost : Host
  reconsumeTimes : Int32
  preparedTransactionOffset : Int64
  body : StdString
  topic : StdString
  properties : Std.ExtTreeMap StdString StdString
  not_isCompressed : isCompressed sysFlag.toInt = false
  topic_length : topic.length ≤ 127
  nul_notMem_topic : 0 ∉ topic
  separable : ∀ entry ∈ properties.toList, SeparableEntry entry
  properties_length : (messageProperties2String properties).length ≤ 32767
  size_lt : 91 + body.length + topic.length + (messageProperties2String properties).length < 2 ^ 31

namespace Record

/-- `TOTALSIZE`. -/
def totalSize (r : Record) : Int :=
  91 + r.body.length + r.topic.length + (messageProperties2String r.properties).length

/-- The parts of a record in their order; a host has two, a variable part has its length before
it. -/
def parts (r : Record) : List StdString :=
  [Base.beIntBytes 4 r.totalSize, Base.beIntBytes 4 r.magicCode.toInt,
    Base.beIntBytes 4 r.bodyCRC.toInt, Base.beIntBytes 4 r.queueId.toInt,
    Base.beIntBytes 4 r.flag.toInt, Base.beIntBytes 8 r.queueOffset.toInt,
    Base.beIntBytes 8 r.physicalOffset.toInt, Base.beIntBytes 4 r.sysFlag.toInt,
    Base.beIntBytes 8 r.bornTimestamp.toInt, r.bornHost.ip, Base.beIntBytes 4 r.bornHost.port,
    Base.beIntBytes 8 r.storeTimestamp.toInt, r.storeHost.ip, Base.beIntBytes 4 r.storeHost.port,
    Base.beIntBytes 4 r.reconsumeTimes.toInt, Base.beIntBytes 8 r.preparedTransactionOffset.toInt,
    Base.beIntBytes 4 r.body.length, r.body, Base.beIntBytes 1 r.topic.length, r.topic,
    Base.beIntBytes 2 (messageProperties2String r.properties).length,
    messageProperties2String r.properties]

/-- The record as it stands in a buffer. -/
def bytes (r : Record) : StdString := r.parts.flatten

/-- The message that the record describes; without properties it keeps those of the
constructor. -/
def messageExt (r : Record) : MessageExt :=
  { topic := r.topic
    flag := r.flag.toInt
    properties := if r.properties.isEmpty then defaultProperties else r.properties
    body := if r.body.isEmpty then none else some r.body
    queueOffset := r.queueOffset.toInt
    commitLogOffset := r.physicalOffset.toInt
    bornTimestamp := r.bornTimestamp.toInt
    storeTimestamp := r.storeTimestamp.toInt
    preparedTransactionOffset := r.preparedTransactionOffset.toInt
    queueId := r.queueId.toInt
    storeSize := r.totalSize
    sysFlag := r.sysFlag.toInt
    bodyCRC := r.bodyCRC.toInt
    reconsumeTimes := r.reconsumeTimes.toInt
    bornHost := r.bornHost.toSockAddr
    storeHost := r.storeHost.toSockAddr
    msgId := createMessageId r.storeHost.toSockAddr r.physicalOffset.toInt }

/-- The record as it stands in a buffer, with its property block written out. -/
def raw (r : Record) : RawRecord where
  __ := r
  properties := messageProperties2String r.properties
  properties_length := r.properties_length
  size_lt := r.size_lt

/-- `TOTALSIZE` is the record's length. -/
theorem length_bytes (r : Record) : (r.bytes.length : Int) = r.totalSize := r.raw.length_bytes

theorem messageExt_raw (inflate : StdString → Option StdString) (r : Record) :
    r.raw.messageExt inflate = r.messageExt := by
  have htopic : cstr r.topic = r.topic := cstr_eq_self r.nul_notMem_topic
  have hbody : r.raw.decodedBody inflate = if r.body.isEmpty then none else some r.body := by
    have hplain : decodeBody inflate r.raw.sysFlag.toInt r.raw.body = r.body := by
      rw [decodeBody, if_neg]
      · rfl
      · exact Bool.eq_false_iff.mp r.not_isCompressed
    rw [RawRecord.decodedBody, hplain]
    change (if r.body.isEmpty then none else if r.body.isEmpty then none else some r.body) = _
    split_ifs <;> rfl
  have hproperties : r.raw.decodedProperties =
      if r.properties.isEmpty then defaultProperties else r.properties := by
    have hempty : (messageProperties2String r.properties).isEmpty = r.properties.isEmpty := by
      rw [Bool.eq_iff_iff, ← length_messageProperties2String_eq_zero, List.isEmpty_iff,
        List.length_eq_zero_iff]
    have hblock : string2messageProperties (cstr (messageProperties2String r.properties)) =
        r.properties := by
      rw [cstr_eq_self (zero_notMem_messageProperties2String r.separable),
        string2messageProperties_messageProperties2String r.separable]
    rw [← hempty]
    exact congrArg (ite _ defaultProperties) hblock
  rw [RawRecord.messageExt, messageExt, hbody, hproperties, show cstr r.raw.topic = r.topic from
    htopic]
  rfl

end Record

/-- **Record decoding**: records one behind the other are decoded to one message each, in
order and with all values; the offsets reported are their `TOTALSIZE`s, which are their lengths,
so that the whole buffer is consumed. -/
theorem decodes_flatMap_bytes (inflate : StdString → Option StdString) (records : List Record) :
    Decodes inflate (records.flatMap Record.bytes)
        (records.map fun r ↦ (r.messageExt, r.totalSize)) ∧
      (∀ r ∈ records, r.totalSize = r.bytes.length) ∧
      (records.map Record.totalSize).sum = (records.flatMap Record.bytes).length := by
  refine ⟨?_, fun r _ ↦ r.length_bytes.symm, ?_⟩
  · have hshort : ∀ r ∈ records.map Record.raw, r.topic.length ≤ 127 :=
      List.forall_mem_map.mpr fun r _ ↦ r.topic_length
    have hraw := (RawRecord.yields_iff inflate
      (fun r hr ↦ Nat.le_trans (hshort r hr) (by decide)) [] [] _).mpr ⟨hshort, rfl⟩
    rw [List.flatMap_map, List.map_map] at hraw
    have hmessages : records.map (fun r ↦ (r.messageExt, r.totalSize)) =
        records.map fun r ↦ (r.raw.messageExt inflate, r.raw.totalSize) :=
      List.map_congr_left fun r _ ↦ by rw [r.messageExt_raw]; rfl
    rw [hmessages]
    exact hraw
  · induction records with
    | nil => rfl
    | cons r records ih =>
      rw [List.map_cons, List.sum_cons, ih, List.flatMap_cons, List.length_append,
        ← r.length_bytes]
      push_cast
      rfl

/-- A record with a body and a tag. -/
def taggedRecord : Record where
  magicCode := -626843481
  bodyCRC := 907060870
  queueId := 3
  flag := 0
  queueOffset := 12
  physicalOffset := 4096
  sysFlag := 0
  bornTimestamp := 1416000000000
  bornHost := ⟨⟨[10, 0, 0, 2], 40211⟩, rfl, by decide⟩
  storeTimestamp := 1416000000007
  storeHost := ⟨⟨[10, 0, 0, 3], 10909⟩, rfl, by decide⟩
  reconsumeTimes := 1
  preparedTransactionOffset := 0
  body := str "hello"
  topic := str "t"
  properties := {(str "TAGS", str "a")}
  not_isCompressed := by decide
  topic_length := by decide
  nul_notMem_topic := by decide
  separable := by
    have hlist : ({(str "TAGS", str "a")} : Std.ExtTreeMap StdString StdString).toList =
        [(str "TAGS", str "a")] := rfl
    rw [hlist, List.forall_mem_singleton]
    exact ⟨by decide, by decide, by decide⟩
  properties_length := by decide
  size_lt := by decide

/-- The next record, with neither body nor properties. -/
def bareRecord : Record where
  __ := taggedRecord
  bodyCRC := 0
  queueOffset := 13
  physicalOffset := 4200
  body := []
  properties := ∅
  separable := by
    have hlist : Std.ExtTreeMap.toList (∅ : Std.ExtTreeMap StdString StdString) = [] := rfl
    rw [hlist]
    exact List.forall_mem_nil _
  properties_length := by decide
  size_lt := by decide

/-- Both are decoded, the second one with the properties of the constructor. -/
theorem decodes_flatMap_bytes_tagged :
    Decodes (fun _ ↦ none) (taggedRecord.bytes ++ bareRecord.bytes)
        [(taggedRecord.messageExt, 104), (bareRecord.messageExt, 92)] ∧
      taggedRecord.messageExt.body = some (str "hello") ∧
      taggedRecord.messageExt.properties = {(str "TAGS", str "a")} ∧
      bareRecord.messageExt.body = none ∧
      bareRecord.messageExt.properties = defaultProperties := by
  obtain ⟨hdecodes, -, -⟩ := decodes_flatMap_bytes (fun _ ↦ none) [taggedRecord, bareRecord]
  rw [List.flatMap_cons, List.flatMap_singleton] at hdecodes
  exact ⟨hdecodes, rfl, rfl, rfl, rfl⟩

end MessageDecoder
end RocketMQ
