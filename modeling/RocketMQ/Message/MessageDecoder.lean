import RocketMQ.Base.Bytes
import RocketMQ.Base.Loop
import RocketMQ.Message.Message

/-!
# Decoding pulled messages

`src/message/MessageDecoder.cpp`. A buffer holds records one behind the other; a record has
fixed fields, a body, a topic and a property block. Nothing of the source checks that a read
stays inside the buffer, so the model says where one does not. `char` is taken as signed, and
memory as sufficient.
-/

namespace RocketMQ

/-- `std::string` made of a `char*`: up to the first `NUL`. -/
def cstr (s : StdString) : StdString := s.takeWhile (· ≠ 0)

namespace UtilAll

/-- The loop of `Split` with the passes it has left, on what is behind `left`. -/
def splitLoop (delimiter : UInt8) : Nat → StdString → List StdString
  | 0, rest => [rest]
  | passes + 1, rest =>
    match rest.idxOf? delimiter with
    | none => [rest]
    | some right => rest.take right :: splitLoop delimiter passes (rest.drop (right + 1))

/-- `UtilAll::Split` at a character, `src/common/UtilAll.h:61–81`; the loop counter starts
at 1. -/
def split (s : StdString) (delimiter : UInt8) : List StdString :=
  splitLoop delimiter (s.length - 1) s

/-- `UtilAll::decompress`, `src/common/UtilAll.h:226–324`, with `inflate` for what zlib makes of
at least one byte. -/
def decompress (inflate : StdString → Option StdString) (s : StdString) : Option StdString :=
  if s.isEmpty then none else inflate s

end UtilAll

namespace MessageDecoder

/-- The fields of a `sockaddr_in` that are set: the address as it came, the port as a number. -/
structure SockAddr where
  ip : StdString
  port : Nat
deriving DecidableEq

/-- All of `MessageExt`, `include/MessageExt.h:91–105`. -/
structure MessageExt extends Message where
  queueOffset : Int
  commitLogOffset : Int
  bornTimestamp : Int
  storeTimestamp : Int
  preparedTransactionOffset : Int
  queueId : Int
  storeSize : Int
  sysFlag : Int
  bodyCRC : Int
  reconsumeTimes : Int
  bornHost : SockAddr
  storeHost : SockAddr
  msgId : StdString

/-! ### Parts of a record -/

/-- `sprintf` with `%02X`. -/
def hex2 (b : UInt8) : StdString :=
  let digit (n : Nat) : UInt8 := UInt8.ofNat (if n < 10 then 48 + n else 55 + n)
  [digit (b.toNat / 16), digit (b.toNat % 16)]

/-- `MessageDecoder::createMessageId`, `src/message/MessageDecoder.cpp:37–71`. -/
def createMessageId (addr : SockAddr) (offset : Int) : StdString :=
  (addr.ip ++ Base.beBytes 4 addr.port ++ Base.beIntBytes 8 offset).flatMap hex2

/-- `MessageDecoder::string2messageProperties`, `src/message/MessageDecoder.cpp:339–355`, on an
empty map. -/
def string2messageProperties (s : StdString) : Std.ExtTreeMap StdString StdString :=
  (UtilAll.split s 2).foldl (fun properties item ↦
    match UtilAll.split item 1 with
    | [name, value] => properties.insert name value
    | _ => properties) ∅

/-- `MessageSysFlag::CompressedFlag`, the lowest bit. -/
def isCompressed (sysFlag : Int) : Bool := sysFlag % 2 = 1

/-- The body of a message: inflated once when it is flagged and that succeeds,
`src/message/MessageDecoder.cpp:226–250`. -/
def decodeBody (inflate : StdString → Option StdString) (sysFlag : Int) (body : StdString) :
    StdString :=
  if isCompressed sysFlag then (UtilAll.decompress inflate body).getD body else body

/-- The properties of a message that has none, set by its constructor,
`src/message/Message.cpp:253–279`. -/
def defaultProperties : Std.ExtTreeMap StdString StdString := {(str "WAIT", str "true")}

/-! ### One record -/

/-- What decoding can do that is no decoding: read outside the buffer, copy a negative number
of bytes, or put a `NULL` into the list and go on by an offset that was never set. -/
inductive DecodeFault where
  | outside
  | negativeLength
  | nullEntry
deriving DecidableEq

/-- `memcpy` of `n` bytes. -/
def read (buf : StdString) (off : Int) (n : Nat) : Except DecodeFault StdString :=
  match Base.readAt buf off n with
  | some bytes => .ok bytes
  | none => .error .outside

/-- `memcpy` into an integer of `n` bytes, and `ntohl` or its like. -/
def readInt (buf : StdString) (off : Int) (n : Nat) : Except DecodeFault Int :=
  Base.beInt <$> read buf off n

/-- An address and a port of four bytes each, the port cut to 16 bits by `htons`. -/
def readHost (buf : StdString) (off : Int) : Except DecodeFault SockAddr := do
  let ip ← read buf off 4
  let port ← readInt buf (off + 4) 4
  return ⟨ip, (port % 2 ^ 16).toNat⟩

/-- The body of the record, or `NULL`. -/
def readBody (inflate : StdString → Option StdString) (buf : StdString)
    (off sysFlag bodyLen : Int) : Except DecodeFault (Option StdString) :=
  if bodyLen > 0 then do
    let body ← read buf off bodyLen.toNat
    let body := decodeBody inflate sysFlag body
    return if body.isEmpty then none else some body
  else return none

/-- The properties of the record, when it has some. -/
def readProperties (buf : StdString) (off propertiesLength : Int) :
    Except DecodeFault (Std.ExtTreeMap StdString StdString) :=
  if propertiesLength > 0 then do
    let properties ← read buf off propertiesLength.toNat
    return string2messageProperties (cstr properties)
  else return defaultProperties

/-- `MessageDecoder::decode` at a position of the buffer, with the offset it reports,
`src/message/MessageDecoder.cpp:108–302`. `none` is the `NULL` of its `catch (...)`, which
`new char[]` of a negative size leads to. -/
def decode (inflate : StdString → Option StdString) (buf : StdString) (pos : Int) :
    Except DecodeFault (Option (MessageExt × Int)) := do
  let storeSize ← readInt buf pos 4
  let bodyCRC ← readInt buf (pos + 8) 4
  let queueId ← readInt buf (pos + 12) 4
  let flag ← readInt buf (pos + 16) 4
  let queueOffset ← readInt buf (pos + 20) 8
  let physicOffset ← readInt buf (pos + 28) 8
  let sysFlag ← readInt buf (pos + 36) 4
  let bornTimestamp ← readInt buf (pos + 40) 8
  let bornHost ← readHost buf (pos + 48)
  let storeTimestamp ← readInt buf (pos + 56) 8
  let storeHost ← readHost buf (pos + 64)
  let reconsumeTimes ← readInt buf (pos + 72) 4
  let preparedTransactionOffset ← readInt buf (pos + 76) 8
  let bodyLen ← readInt buf (pos + 84) 4
  let body ← readBody inflate buf (pos + 88) sysFlag bodyLen
  let topicLen ← readInt buf (pos + 88 + bodyLen) 1
  if topicLen < -1 then return none
  else if topicLen < 0 then throw .negativeLength
  else
    let topic ← read buf (pos + 88 + bodyLen + 1) topicLen.toNat
    let propertiesLength ← readInt buf (pos + 88 + bodyLen + 1 + topicLen) 2
    let properties ← readProperties buf (pos + 88 + bodyLen + 1 + topicLen + 2) propertiesLength
    return some (
      { topic := cstr topic, flag, properties, body, queueOffset, commitLogOffset := physicOffset,
        bornTimestamp, storeTimestamp, preparedTransactionOffset, queueId, storeSize, sysFlag,
        bodyCRC, reconsumeTimes, bornHost, storeHost,
        msgId := createMessageId storeHost physicOffset },
      88 + bodyLen + 1 + topicLen + 2 + propertiesLength)

/-! ### All records -/

/-- One pass of the loop of `MessageDecoder::decodes`, `src/message/MessageDecoder.cpp:309–323`,
on the offset and the messages so far, each with the offset that was reported for it. -/
def decodesPass (inflate : StdString → Option StdString) (buf : StdString) :
    Int × List (MessageExt × Int) →
      Base.Pass (Int × List (MessageExt × Int)) (Except DecodeFault (List (MessageExt × Int)))
  | (offset, list) =>
    if offset < buf.length then
      match decode inflate buf offset with
      | .error fault => .leave (.error fault)
      | .ok none => .leave (.error .nullEntry)
      | .ok (some (msg, size)) => .again (offset + size, list ++ [(msg, size)])
    else .leave (.ok list)

/-- `MessageDecoder::decodes` comes back with these messages. -/
def Decodes (inflate : StdString → Option StdString) (buf : StdString)
    (list : List (MessageExt × Int)) : Prop :=
  Base.Yields (decodesPass inflate buf) (0, []) (.ok list)

end MessageDecoder
end RocketMQ
