import RocketMQ.Producer.SendBody
import RocketMQ.Protocol.DecodeHeader
import RocketMQ.Protocol.FrameRoundTrip
import RocketMQ.Transport.SendCmd

/-!
# The mark of a one-way request

`RemotingCommand::Encode` writes the flag of a command into its head, and every caller of the
remoting client encodes a request before it invokes it. `TcpRemotingClient::invokeOnewayImpl` marks
the command after that, and what goes to the socket is the head as it was.
-/

namespace RocketMQ
namespace Protocol

/-- `1 << RPC_ONEWAY`, `src/protocol/RemotingCommand.h:63`. -/
def onewayBits : Int32 := (1 : Int32) <<< (1 : Int32)

namespace RemotingCommand

/-- `src/protocol/RemotingCommand.cpp:218–222`. -/
def markOnewayRPC (cmd : RemotingCommand) : RemotingCommand :=
  { cmd with flag := cmd.flag ||| onewayBits }

/-- `src/protocol/RemotingCommand.cpp:224–228`. -/
def isOnewayRPC (cmd : RemotingCommand) : Bool := cmd.flag &&& onewayBits = onewayBits

end RemotingCommand

/-- A `RemotingCommand` on its way out, with the head that `Encode` has made. -/
structure Request extends RemotingCommand where
  head : StdString

namespace Request

/-- `createRequestCommand`, `src/protocol/RemotingCommand.cpp:34–39` and `197–204`, with the
numbers that come from static counters. -/
def createRequestCommand (opaqueId version : Int32) (code : Int32)
    (customHeader : Option CommandCustomHeader) : Request :=
  { code, language := str "CPP", version, opaqueId, flag := 0, remark := [], customHeader,
    body := none, head := [] }

/-- `SetBody`. -/
def setBody (request : Request) (body : Option StdString) : Request := { request with body }

/-- `Encode`. -/
def encode (request : Request) : Request :=
  { request with head := request.toRemotingCommand.encode }

/-- What `SendCmd` reads of a request. -/
def outCommand (request : Request) : OutCommand := ⟨request.head, request.body⟩

end Request

/-! ### Calls of the remoting client -/

/-- The functions of `TcpRemotingClient` that send a request. -/
inductive InvokeKind where
  | sync
  | async
  | oneway
deriving DecidableEq

/-- What becomes of the request before `SendCmd`,
`src/transport/TcpRemotingClient.cpp:294–409`. -/
def InvokeKind.prepare (request : Request) : InvokeKind → Request
  | .sync | .async => request
  | .oneway => { request with toRemotingCommand := request.toRemotingCommand.markOnewayRPC }

/-- A request that a function of `MQClientAPIImpl` makes and invokes. -/
structure RemotingCall where
  kind : InvokeKind
  code : Int32
  customHeader : Option CommandCustomHeader
  body : Option StdString

namespace RemotingCall

/-- The lines before the invocation, the same in every caller. -/
def request (call : RemotingCall) (opaqueId version : Int32) : Request :=
  ((Request.createRequestCommand opaqueId version call.code call.customHeader).setBody
    call.body).encode

/-- What a connection gets of the call when both writes succeed. -/
def wire (call : RemotingCall) (opaqueId version : Int32) : StdString :=
  (call.kind.prepare (call.request opaqueId version)).outCommand.bytes

/-- The string values of its header. -/
def strings (call : RemotingCall) : List StdString :=
  (call.customHeader.map CommandCustomHeader.strings).getD []

/-- What the connection gets is decoded to a one-way command exactly for a one-way call. -/
def MarkedRight (lib : RemotingCommand.JsonLibrary) (call : RemotingCall)
    (opaqueId version : Int32) : Prop :=
  ∃ cmd, RemotingCommand.decode lib (call.wire opaqueId version) = some (some cmd) ∧
    (cmd.isOnewayRPC = true ↔ call.kind = .oneway)

end RemotingCall
end Protocol

namespace MQClientAPIImpl

open Protocol (RemotingCall)

def updateConsumerOffsetValue : Int32 := 15

/-- `src/MQClientAPIImpl.cpp:433–455`. -/
def updateConsumerOffsetOnewayCall (projectGroupPrefix addr : StdString)
    (requestHeader : UpdateConsumerOffsetRequestHeader) : RemotingCall :=
  let request := updateConsumerOffsetOneway projectGroupPrefix addr requestHeader
  ⟨.oneway, updateConsumerOffsetValue, some (.updateConsumerOffsetRequest request.header), none⟩

/-- `src/MQClientAPIImpl.cpp:190–240`. -/
def sendMessageCall (projectGroupPrefix : StdString) (msg : Message)
    (requestHeader : Protocol.SendMessageRequestHeader) (mode : CommunicationMode) :
    RemotingCall :=
  let withGroup (name : StdString) : StdString :=
    if !isBlank projectGroupPrefix then
      VirtualEnvUtil.buildWithProjectGroup name projectGroupPrefix
    else name
  let header := { requestHeader with
    producerGroup := withGroup requestHeader.producerGroup
    topic := withGroup requestHeader.topic }
  let kind : Protocol.InvokeKind := match mode with
    | .sync => .sync
    | .async => .async
    | .oneway => .oneway
  ⟨kind, sendMessageValue, some (.sendMessageRequest header), msg.body⟩

end MQClientAPIImpl

/-! ### What is decoded -/

namespace Protocol.RemotingCall

variable {lib : RemotingCommand.JsonLibrary} {opaqueId version : Int32}

/-- The mark does not reach the head: all calls of a request send the same bytes. -/
theorem wire_eq_sent (call : RemotingCall) (opaqueId version : Int32) :
    call.wire opaqueId version = (call.request opaqueId version).toRemotingCommand.sent := by
  rw [wire]
  cases call.kind <;> rfl

theorem wire_congr_kind (call : RemotingCall) (kind kind' : InvokeKind) :
    wire { call with kind } opaqueId version =
      wire { call with kind := kind' } opaqueId version := by
  rw [wire_eq_sent, wire_eq_sent]
  rfl

/-- What is read back has no mark. -/
theorem decode_wire {call : RemotingCall} (hlib : lib.ReadsFirst)
    (hplain : ∀ s ∈ call.strings, Base.Json.PlainString s)
    (hlen : (call.wire opaqueId version).length < 2 ^ 31) :
    ∃ cmd, RemotingCommand.decode lib (call.wire opaqueId version) = some (some cmd) ∧
      cmd.isOnewayRPC = false := by
  rw [wire_eq_sent] at hlen ⊢
  rw [RemotingCommand.length_sent] at hlen
  have hstrings : ∀ s ∈ (call.request opaqueId version).strings, Base.Json.PlainString s :=
    List.forall_mem_cons.mpr ⟨nofun, hplain⟩
  obtain ⟨cmd, hdecode, -, -, -, hflag, -⟩ := RemotingCommand.decode_sent hlib hstrings hlen
  refine ⟨cmd, hdecode, ?_⟩
  have hzero : (call.request opaqueId version).flag = 0 := rfl
  rw [RemotingCommand.isOnewayRPC, hflag, hzero]
  decide

/-- **One-way requests**: no request is sent right by all three functions, whatever its code, its
header and its body are and whatever the reader makes of them. Where the reader reads the header
back, it is the one-way call that is not marked. -/
theorem oneway_unmarked (lib : RemotingCommand.JsonLibrary) (call : RemotingCall)
    (opaqueId version : Int32) :
    (¬ ∀ kind, MarkedRight lib { call with kind } opaqueId version) ∧
      (lib.ReadsFirst → (∀ s ∈ call.strings, Base.Json.PlainString s) →
        (call.wire opaqueId version).length < 2 ^ 31 →
        (MarkedRight lib call opaqueId version ↔ call.kind ≠ .oneway)) := by
  constructor
  · intro hright
    obtain ⟨cmd, hsync, hnot⟩ := hright .sync
    obtain ⟨cmd', honeway, hmark⟩ := hright .oneway
    rw [wire_congr_kind call .oneway .sync, hsync, Option.some.injEq, Option.some.injEq] at honeway
    subst honeway
    exact InvokeKind.noConfusion (hnot.mp (hmark.mpr rfl))
  · intro hlib hplain hlen
    obtain ⟨cmd, hdecode, hunmarked⟩ := decode_wire hlib hplain hlen
    constructor
    · rintro ⟨cmd', hdecode', hmark⟩ hkind
      rw [hdecode, Option.some.injEq, Option.some.injEq] at hdecode'
      subst hdecode'
      rw [hmark.mpr hkind] at hunmarked
      cases hunmarked
    · intro hkind
      exact ⟨cmd, hdecode, iff_of_false (by rw [hunmarked]; decide) hkind⟩

/-- The offset 5 is committed for the queue 0 of a topic. -/
def committed : RemotingCall :=
  MQClientAPIImpl.updateConsumerOffsetOnewayCall [] (str "a:10911") ⟨str "g", str "t", 0, 5⟩

/-- What is sent for it is read as a request that wants an answer. -/
theorem committed_unmarked : ¬ MarkedRight RemotingCommand.integerLibrary committed 0 19 := by
  rintro ⟨cmd, hdecode, hmark⟩
  have hunmarked : (RemotingCommand.decode RemotingCommand.integerLibrary
      (committed.wire 0 19)).map (Option.map RemotingCommand.isOnewayRPC) = some (some false) := by
    decide +kernel
  rw [hdecode, Option.map_some, Option.map_some, hmark.mpr rfl] at hunmarked
  cases hunmarked

/-- A message without properties is sent. -/
def sentMessage (mode : CommunicationMode) : RemotingCall :=
  MQClientAPIImpl.sendMessageCall [] ⟨str "t", 0, ∅, some [1, 2]⟩
    ⟨⟨str "g", str "t", str "TBW102", 4, 0, 0, 0, 0, []⟩, 0⟩ mode

/-- It is sent right with `SYNC` and with `ASYNC`, and not with `ONEWAY`. -/
theorem oneway_unmarked_sentMessage :
    (¬ ∀ kind, MarkedRight RemotingCommand.integerLibrary { sentMessage .sync with kind } 0 19) ∧
      MarkedRight RemotingCommand.integerLibrary (sentMessage .sync) 0 19 ∧
      MarkedRight RemotingCommand.integerLibrary (sentMessage .async) 0 19 ∧
      ¬ MarkedRight RemotingCommand.integerLibrary (sentMessage .oneway) 0 19 := by
  have hright (mode : CommunicationMode) :
      MarkedRight RemotingCommand.integerLibrary (sentMessage mode) 0 19 ↔
        (sentMessage mode).kind ≠ .oneway :=
    (oneway_unmarked _ (sentMessage mode) 0 19).2 RemotingCommand.readsFirst_integerLibrary
      (by cases mode <;> decide) (by cases mode <;> decide +kernel)
  exact ⟨(oneway_unmarked _ (sentMessage .sync) 0 19).1, (hright .sync).mpr nofun,
    (hright .async).mpr nofun, fun h ↦ (hright .oneway).mp h rfl⟩

end Protocol.RemotingCall
end RocketMQ
