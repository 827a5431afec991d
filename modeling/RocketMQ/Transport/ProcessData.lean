import RocketMQ.Protocol.DecodeHeader
import RocketMQ.Transport.ResponseTable

/-!
# Processing a received frame

`ProcessData` of `src/transport/TcpRemotingClient.cpp`, and what becomes of the response: it is
decoded, given the custom header its request asks for, and used by the call that waits for it.
-/

namespace RocketMQ

open Base (Json)
open Protocol
open Protocol.RemotingCommand (JsonLibrary member HasMembers Inconvertible BodyInside decodeFrame
  headerTextOf headerOf)

/-! ### Calls that wait for a response -/

/-- Who uses the response to a request: the calls that read its custom header, and all others,
which do not. Those with a callback of a user do the same in `operationComplete`. -/
inductive Caller where
  | sendMessage (projectGroupPrefix brokerName topic : StdString)
  | pullMessage
  | queryConsumerOffset (projectGroupPrefix addr : StdString)
      (requestHeader : QueryConsumerOffsetRequestHeader)
  | other (requestCode : Int32)

/-- What comes of a frame. It is rejected when nobody gets its response. -/
inductive Settled where
  | rejected
  | exception (e : MQException)
  | sent (result : Option SendResult)
  | pulled (result : PullResult)
  | offset (n : Int)
  | handedOver

/-- The casts of `getCommandCustomHeader()`. -/
def CommandCustomHeader.asSendMessageResponse :
    CommandCustomHeader → Option SendMessageResponseHeader
  | .sendMessageResponse h => some h
  | _ => none

def CommandCustomHeader.asPullMessageResponse :
    CommandCustomHeader → Option PullMessageResponseHeader
  | .pullMessageResponse h => some h
  | _ => none

def CommandCustomHeader.asQueryConsumerOffsetResponse :
    CommandCustomHeader → Option QueryConsumerOffsetResponseHeader
  | .queryConsumerOffsetResponse h => some h
  | _ => none

/-- A command as the reply that a call reads. -/
def Protocol.RemotingCommand.reply {H : Type} (cmd : Protocol.RemotingCommand)
    (cast : CommandCustomHeader → Option H) : RocketMQ.RemotingCommand H :=
  ⟨cmd.code.toInt, cmd.remark, cmd.customHeader.bind cast⟩

namespace Caller

/-- `ResponseFuture::getRequestCode`. -/
def requestCode : Caller → Int32
  | sendMessage .. => sendMessageValue
  | pullMessage => pullMessageValue
  | queryConsumerOffset .. => queryConsumerOffsetValue
  | other requestCode => requestCode

/-- What a call makes of its response, `src/MQClientAPIImpl.cpp:382–424,1062–1158`. -/
def complete (cmd : Protocol.RemotingCommand) : Caller → Except Fault Settled
  | sendMessage projectGroupPrefix brokerName topic =>
    match MQClientAPIImpl.processSendResponse projectGroupPrefix brokerName topic
        (some (cmd.reply CommandCustomHeader.asSendMessageResponse)) with
    | none => .error .nullPointer
    | some (.error e) => .ok (.exception e)
    | some (.ok result) => .ok (.sent result)
  | pullMessage =>
    match MQClientAPIImpl.processPullResponse
        (cmd.reply CommandCustomHeader.asPullMessageResponse) with
    | none => .error .nullPointer
    | some (.error e) => .ok (.exception e)
    | some (.ok result) => .ok (.pulled result)
  | queryConsumerOffset projectGroupPrefix addr requestHeader =>
    match MQClientAPIImpl.queryConsumerOffset
        (fun _ _ ↦ some (cmd.reply CommandCustomHeader.asQueryConsumerOffsetResponse))
        projectGroupPrefix addr requestHeader with
    | none => .error .nullPointer
    | some n => .ok (.offset n)
  | other _ => .ok .handedOver

end Caller

/-! ### Frames -/

namespace TcpRemotingClient

/-- The futures in the response table, by opaque. -/
abbrev Table := Std.ExtTreeMap Int Nat

/-- `src/transport/TcpRemotingClient.cpp:431–455`. -/
def processResponseCommand (callers : Nat → Caller) (table : Table)
    (cmd : Protocol.RemotingCommand) : Except Fault (Settled × Table) :=
  match table[cmd.opaqueId.toInt]? with
  | some pointer => do
    return (← (callers pointer).complete cmd, table.erase cmd.opaqueId.toInt)
  | none => return (.rejected, table)

/-- `src/transport/TcpRemotingClient.cpp:259–292,407–429`. The call may give up between the two
sections under the lock; a request is dropped. -/
def processData (lib : JsonLibrary) (callers : Nat → Caller) (table : Table) (givenUp : Bool)
    (data : StdString) : Except Fault (Settled × Table) := do
  match ← decodeFrame lib data with
  | none => throw .nullPointer
  | some cmd =>
    if cmd.isResponseType then
      match table[cmd.opaqueId.toInt]? with
      | none => return (.rejected, table)
      | some pointer =>
        let cmd ← cmd.makeCustomHeader lib (callers pointer).requestCode data
        processResponseCommand callers
          (if givenUp then table.erase cmd.opaqueId.toInt else table) cmd
    else
      let _ ← cmd.makeCustomHeader lib cmd.code data
      return (.rejected, table)

end TcpRemotingClient

/-- `ProcessDataWork::Do`, `src/transport/TcpRemotingClient.cpp:38–47`. Exceptions are thrown
before the table is changed. -/
def ProcessDataWork.run (lib : JsonLibrary) (callers : Nat → Caller)
    (table : TcpRemotingClient.Table) (givenUp : Bool) (data : StdString) :
    Except Fault (Settled × TcpRemotingClient.Table) :=
  match TcpRemotingClient.processData lib callers table givenUp data with
  | .error .raised => .ok (.rejected, table)
  | outcome => outcome

/-! ### What is right -/

namespace Caller

/-- The fields of the custom header that a call reads. -/
def responseFields : Caller → List String
  | sendMessage .. => ["msgId", "queueId", "queueOffset"]
  | pullMessage => ["suggestWhichBrokerId", "nextBeginOffset", "minOffset", "maxOffset"]
  | queryConsumerOffset .. => ["offset"]
  | other _ => []

/-- With that code of the response a call reads its custom header. -/
def ReadsHeader (code : Int) : Caller → Prop
  | sendMessage .. => MQClientAPIImpl.sendStatusOf code ≠ none
  | pullMessage => pullStatusOf code ≠ none
  | queryConsumerOffset .. => code = successValue
  | other _ => False

end Caller

/-- Nobody gets a result; `queryConsumerOffset` refuses a response with `-1`. -/
def Settled.IsRefusal : Settled → Prop
  | rejected | exception _ => True
  | offset n => n = -1
  | sent _ | pulled _ | handedOver => False

namespace ProcessDataWork

/-- `object["extFields"]`. -/
def extFieldsOf (object : Json) : Json := (member object (str "extFields")).getD .null

/-- The opaque of a frame. -/
def opaqueOf (lib : JsonLibrary) (object : Json) : Int := (headerOf lib object).opaqueId.toInt

/-- The header of a frame is no JSON, or lacks a field for the call that waits for it. -/
def Malformed (lib : JsonLibrary) (callers : Nat → Caller) (table : TcpRemotingClient.Table)
    (data : StdString) : Prop :=
  ∀ object ∈ lib.parse (headerTextOf data), ∃ pointer ∈ table[opaqueOf lib object]?,
    ∃ name ∈ (callers pointer).responseFields, ¬ Present (extFieldsOf object) name

/-- A frame does no harm: it is processed to an end, which is a refusal when it is malformed, and
no other entry of the table is touched. -/
def Harmless (lib : JsonLibrary) (callers : Nat → Caller) (table : TcpRemotingClient.Table)
    (givenUp : Bool) (data : StdString) : Prop :=
  ∃ settled table', run lib callers table givenUp data = .ok (settled, table') ∧
    (Malformed lib callers table data → settled.IsRefusal) ∧
    ∀ o, o ∉ (lib.parse (headerTextOf data)).map (opaqueOf lib) → table'[o]? = table[o]?

/-- A message id is there, unless an exception comes first. -/
def AcceptsFields (ext : Json) : Caller → Prop
  | .sendMessage .. => IsNumber ext "queueOffset" → Present ext "msgId"
  | .pullMessage | .queryConsumerOffset .. | .other _ => True

/-- A response can be used by a call, with its custom header or without. -/
def Usable (lib : JsonLibrary) (object : Json) (text : StdString) (givenUp : Bool)
    (caller : Caller) : Prop :=
  (fieldName "extFields" <:+: text →
    CommandCustomHeader.Readable caller.requestCode (extFieldsOf object)) ∧
  (givenUp ∨ ¬ caller.ReadsHeader (headerOf lib object).code.toInt ∨
    fieldName "extFields" <:+: text ∧ AcceptsFields (extFieldsOf object) caller)

/-- The header of a frame is an object, and one of its fields makes the conversion throw, or the
body is inside and the response can be used by the call that waits for it. -/
def Processable (lib : JsonLibrary) (callers : Nat → Caller) (table : TcpRemotingClient.Table)
    (givenUp : Bool) (data : StdString) : Prop :=
  8 ≤ data.length ∧ ∃ object ∈ lib.parse (headerTextOf data), HasMembers object ∧
    (Inconvertible lib object ∨ BodyInside data ∧
      ((headerOf lib object).isResponseType → ∀ pointer ∈ table[opaqueOf lib object]?,
        Usable lib object (headerTextOf data) givenUp (callers pointer)))

end ProcessDataWork

/-! ### Using a response -/

namespace Caller

variable {cmd : Protocol.RemotingCommand} {caller : Caller}

/-- A call that reads a custom header which is not there reads through `NULL`. -/
theorem complete_of_no_header (hread : caller.ReadsHeader cmd.code.toInt)
    (hnone : cmd.customHeader = none) : caller.complete cmd = .error .nullPointer := by
  cases caller with
  | sendMessage projectGroupPrefix brokerName topic =>
    obtain ⟨status, hstatus⟩ := Option.ne_none_iff_exists'.mp hread
    simp [complete, MQClientAPIImpl.processSendResponse, RemotingCommand.reply, hstatus, hnone]
  | pullMessage =>
    obtain ⟨status, hstatus⟩ := Option.ne_none_iff_exists'.mp hread
    simp [complete, MQClientAPIImpl.processPullResponse, RemotingCommand.reply, hstatus, hnone]
  | queryConsumerOffset projectGroupPrefix addr requestHeader =>
    have hcode : cmd.code.toInt = successValue := hread
    simp [complete, MQClientAPIImpl.queryConsumerOffset, RemotingCommand.reply, hcode, hnone]
  | other => exact hread.elim

/-- A call that does not read the custom header refuses the response, if there are fields it
could have read. -/
theorem complete_of_not_read (hread : ¬ caller.ReadsHeader cmd.code.toInt) :
    ∃ settled, caller.complete cmd = .ok settled ∧
      ∀ name ∈ caller.responseFields, settled.IsRefusal := by
  cases caller with
  | sendMessage projectGroupPrefix brokerName topic =>
    have hstatus := not_not.mp hread
    refine ⟨.exception (.client cmd.remark cmd.code.toInt), ?_, fun _ _ ↦ trivial⟩
    simp only [complete, MQClientAPIImpl.processSendResponse, RemotingCommand.reply, hstatus]
  | pullMessage =>
    have hstatus := not_not.mp hread
    refine ⟨.exception (.broker cmd.remark cmd.code.toInt), ?_, fun _ _ ↦ trivial⟩
    simp only [complete, MQClientAPIImpl.processPullResponse, RemotingCommand.reply, hstatus]
  | queryConsumerOffset projectGroupPrefix addr requestHeader =>
    have hcode : ¬ cmd.code.toInt = successValue := hread
    refine ⟨.offset (-1), ?_, fun _ _ ↦ rfl⟩
    simp [complete, MQClientAPIImpl.queryConsumerOffset, RemotingCommand.reply, hcode]
  | other => exact ⟨.handedOver, rfl, fun _ hname ↦ absurd hname List.not_mem_nil⟩

theorem complete_sendMessage {projectGroupPrefix brokerName topic : StdString}
    {header : SendMessageResponseHeader}
    (hread : (sendMessage projectGroupPrefix brokerName topic).ReadsHeader cmd.code.toInt)
    (hheader : cmd.customHeader = some (.sendMessageResponse header)) :
    ∃ result, (sendMessage projectGroupPrefix brokerName topic).complete cmd =
      .ok (.sent result) := by
  obtain ⟨status, hstatus⟩ := Option.ne_none_iff_exists'.mp hread
  simp [complete, MQClientAPIImpl.processSendResponse, RemotingCommand.reply, hstatus, hheader,
    CommandCustomHeader.asSendMessageResponse]

theorem complete_pullMessage {header : PullMessageResponseHeader}
    (hread : pullMessage.ReadsHeader cmd.code.toInt)
    (hheader : cmd.customHeader = some (.pullMessageResponse header)) :
    ∃ result, pullMessage.complete cmd = .ok (.pulled result) := by
  obtain ⟨status, hstatus⟩ := Option.ne_none_iff_exists'.mp hread
  simp [complete, MQClientAPIImpl.processPullResponse, RemotingCommand.reply, hstatus, hheader,
    CommandCustomHeader.asPullMessageResponse]

theorem complete_queryConsumerOffset {projectGroupPrefix addr : StdString}
    {requestHeader : QueryConsumerOffsetRequestHeader} {header : QueryConsumerOffsetResponseHeader}
    (hread : (queryConsumerOffset projectGroupPrefix addr requestHeader).ReadsHeader
      cmd.code.toInt)
    (hheader : cmd.customHeader = some (.queryConsumerOffsetResponse header)) :
    (queryConsumerOffset projectGroupPrefix addr requestHeader).complete cmd =
      .ok (.offset header.offset) := by
  have hcode : cmd.code.toInt = successValue := hread
  simp [complete, MQClientAPIImpl.queryConsumerOffset, RemotingCommand.reply, hcode, hheader,
    CommandCustomHeader.asQueryConsumerOffsetResponse]

/-- Nothing else goes wrong. -/
theorem eq_nullPointer_of_complete {fault : Fault} (h : caller.complete cmd = .error fault) :
    fault = .nullPointer := by
  by_cases hread : caller.ReadsHeader cmd.code.toInt
  · cases caller with
    | sendMessage | pullMessage | queryConsumerOffset =>
      dsimp only [complete] at h
      split at h
      · exact (Except.error.inj h).symm
      all_goals cases h
    | other => cases h
  · obtain ⟨settled, hsettled, -⟩ := complete_of_not_read hread
    rw [hsettled] at h
    cases h

end Caller

/-! ### One frame -/

namespace ProcessDataWork

open TcpRemotingClient (processData processResponseCommand)

section Frame

variable {lib : JsonLibrary} {callers : Nat → Caller} {table : TcpRemotingClient.Table}
  {givenUp : Bool} {data : StdString} {object : Json} {cmd : Protocol.RemotingCommand}
  {pointer : Nat}

theorem run_of_error {fault : Fault}
    (h : processData lib callers table givenUp data = .error fault) (hne : fault ≠ .raised) :
    run lib callers table givenUp data = .error fault := by
  unfold run
  rw [h]
  cases fault with
  | raised => exact absurd rfl hne
  | aborted | nullPointer | outside => rfl

theorem run_of_raised (h : processData lib callers table givenUp data = .error .raised) :
    run lib callers table givenUp data = .ok (.rejected, table) := by
  unfold run
  rw [h]

theorem run_of_ok {outcome : Settled × TcpRemotingClient.Table}
    (h : processData lib callers table givenUp data = .ok outcome) :
    run lib callers table givenUp data = .ok outcome := by
  unfold run
  rw [h]

theorem processData_of_fault {fault : Fault} (h : decodeFrame lib data = .error fault) :
    processData lib callers table givenUp data = .error fault := by
  unfold processData
  rw [h]
  rfl

theorem processData_of_null (h : decodeFrame lib data = .ok none) :
    processData lib callers table givenUp data = .error .nullPointer := by
  unfold processData
  rw [h]
  rfl

/-- A request has no custom header that is decoded, and is dropped. -/
theorem processData_of_request (h : decodeFrame lib data = .ok (some cmd))
    (hrequest : cmd.isResponseType = false) :
    processData lib callers table givenUp data = .ok (.rejected, table) := by
  have hheader : ∃ cmd', cmd.makeCustomHeader lib cmd.code data = .ok cmd' := by
    have hnone : CommandCustomHeader.decode lib cmd.code (headerTextOf data) false = .ok none :=
      if_neg Bool.false_ne_true
    unfold RemotingCommand.makeCustomHeader
    rw [hrequest, hnone]
    split_ifs
    · exact ⟨_, rfl⟩
    · exact ⟨_, rfl⟩
  obtain ⟨cmd', hcmd'⟩ := hheader
  unfold processData
  rw [h, RemotingCommand.bind_ok]
  dsimp only
  rw [if_neg (by rw [hrequest]; exact Bool.false_ne_true), hcmd']
  rfl

theorem processData_of_unknown (h : decodeFrame lib data = .ok (some cmd))
    (hresponse : cmd.isResponseType = true) (htable : table[cmd.opaqueId.toInt]? = none) :
    processData lib callers table givenUp data = .ok (.rejected, table) := by
  unfold processData
  rw [h, RemotingCommand.bind_ok]
  dsimp only
  rw [if_pos hresponse, htable]
  rfl

theorem processData_of_response (h : decodeFrame lib data = .ok (some cmd))
    (hresponse : cmd.isResponseType = true)
    (htable : table[cmd.opaqueId.toInt]? = some pointer) :
    processData lib callers table givenUp data =
      cmd.makeCustomHeader lib (callers pointer).requestCode data >>= fun cmd ↦
        processResponseCommand callers
          (if givenUp then table.erase cmd.opaqueId.toInt else table) cmd := by
  unfold processData
  rw [h, RemotingCommand.bind_ok]
  dsimp only
  rw [if_pos hresponse, htable]

/-- The call has given up. -/
theorem processResponseCommand_of_givenUp :
    processResponseCommand callers (table.erase cmd.opaqueId.toInt) cmd =
      .ok (.rejected, table.erase cmd.opaqueId.toInt) := by
  unfold processResponseCommand
  rw [Std.ExtTreeMap.getElem?_erase_self]
  rfl

theorem processResponseCommand_of_waiting {settled : Settled}
    (htable : table[cmd.opaqueId.toInt]? = some pointer)
    (hcomplete : (callers pointer).complete cmd = .ok settled) :
    processResponseCommand callers table cmd =
      .ok (settled, table.erase cmd.opaqueId.toInt) := by
  unfold processResponseCommand
  rw [htable]
  dsimp only
  rw [hcomplete]
  rfl

theorem processResponseCommand_of_fault {fault : Fault}
    (htable : table[cmd.opaqueId.toInt]? = some pointer)
    (hcomplete : (callers pointer).complete cmd = .error fault) :
    processResponseCommand callers table cmd = .error fault := by
  unfold processResponseCommand
  rw [htable]
  dsimp only
  rw [hcomplete]
  rfl

theorem makeCustomHeader_of_absent {code : Int32}
    (hnamed : ¬ fieldName "extFields" <:+: headerTextOf data) :
    cmd.makeCustomHeader lib code data = .ok cmd := by
  unfold RemotingCommand.makeCustomHeader
  rw [if_neg hnamed]
  rfl

theorem makeCustomHeader_of_named {code : Int32} (hresponse : cmd.isResponseType = true)
    (hnamed : fieldName "extFields" <:+: headerTextOf data) :
    cmd.makeCustomHeader lib code data =
      CommandCustomHeader.decode lib code (headerTextOf data) true >>= fun customHeader ↦
        .ok { cmd with customHeader } := by
  unfold RemotingCommand.makeCustomHeader
  rw [if_pos hnamed, hresponse]
  rfl

/-! ### Harm -/

theorem not_harmless_of_error {fault : Fault}
    (h : processData lib callers table givenUp data = .error fault) (hne : fault ≠ .raised) :
    ¬ Harmless lib callers table givenUp data := by
  rintro ⟨settled, table', hrun, -⟩
  rw [run_of_error h hne] at hrun
  cases hrun

/-- Nothing is changed when nobody gets a response. -/
theorem harmless_of_rejected (h : run lib callers table givenUp data = .ok (.rejected, table)) :
    Harmless lib callers table givenUp data :=
  ⟨.rejected, table, h, fun _ ↦ trivial, fun _ _ ↦ rfl⟩

/-- Only the entry of the frame's own opaque is erased. -/
theorem harmless_of_erase {settled : Settled} (hparse : lib.parse (headerTextOf data) = some object)
    (h : run lib callers table givenUp data = .ok (settled, table.erase (opaqueOf lib object)))
    (hrefusal : Malformed lib callers table data → settled.IsRefusal) :
    Harmless lib callers table givenUp data := by
  refine ⟨settled, _, h, hrefusal, fun o ho ↦ ?_⟩
  rw [hparse, Option.map_some, Option.mem_some_iff] at ho
  simp only [Std.ExtTreeMap.getElem?_erase, Std.LawfulEqCmp.compare_eq_iff_eq]
  rw [if_neg ho]

theorem malformed_iff (hparse : lib.parse (headerTextOf data) = some object)
    (htable : table[opaqueOf lib object]? = some pointer) :
    Malformed lib callers table data ↔
      ∃ name ∈ (callers pointer).responseFields, ¬ Present (extFieldsOf object) name := by
  simp [Malformed, hparse, htable]

/-- A response that is handed over does no harm when its call has given up, or uses it well. -/
theorem harmless_of_handed_iff (hparse : lib.parse (headerTextOf data) = some object)
    (hdata : processData lib callers table givenUp data = processResponseCommand callers
      (if givenUp then table.erase cmd.opaqueId.toInt else table) cmd)
    (hopaqueId : cmd.opaqueId.toInt = opaqueOf lib object)
    (htable : table[opaqueOf lib object]? = some pointer) :
    Harmless lib callers table givenUp data ↔ givenUp = true ∨
      ∃ settled, (callers pointer).complete cmd = .ok settled ∧
        (Malformed lib callers table data → settled.IsRefusal) := by
  cases givenUp with
  | true =>
    rw [if_pos rfl, processResponseCommand_of_givenUp, hopaqueId] at hdata
    exact iff_of_true (harmless_of_erase hparse (run_of_ok hdata) fun _ ↦ trivial) (.inl rfl)
  | false =>
    rw [if_neg Bool.false_ne_true] at hdata
    rw [← hopaqueId] at htable
    simp only [Bool.false_eq_true, false_or]
    cases hcomplete : (callers pointer).complete cmd with
    | ok settled =>
      rw [processResponseCommand_of_waiting htable hcomplete, hopaqueId] at hdata
      constructor
      · rintro ⟨settled', table', hrun, hrefusal, -⟩
        rw [run_of_ok hdata] at hrun
        obtain ⟨rfl, -⟩ := Prod.mk.inj (Except.ok.inj hrun)
        exact ⟨settled, rfl, hrefusal⟩
      · rintro ⟨settled', hsettled, hrefusal⟩
        obtain rfl := Except.ok.inj hsettled
        exact harmless_of_erase hparse (run_of_ok hdata) hrefusal
    | error fault =>
      rw [processResponseCommand_of_fault htable hcomplete,
        Caller.eq_nullPointer_of_complete hcomplete] at hdata
      apply iff_of_false (not_harmless_of_error hdata (by decide))
      rintro ⟨settled, hsettled, -⟩
      cases hsettled

/-- A call that reads a header that was decoded gets a result, which is made of all its fields
or is a refusal, unless only the message id is not there. -/
theorem complete_of_decoded {caller : Caller} {ext : Json} {text : StdString}
    {r : Option CommandCustomHeader} (hparse : lib.parse text = some object)
    (hext : member object (str "extFields") = some ext)
    (hdecode : CommandCustomHeader.decode lib caller.requestCode text true = .ok r)
    (hheader : cmd.customHeader = r) (hread : caller.ReadsHeader cmd.code.toInt) :
    (∃ settled, caller.complete cmd = .ok settled ∧
      ((∃ name ∈ caller.responseFields, ¬ Present ext name) → settled.IsRefusal)) ↔
        AcceptsFields ext caller := by
  cases caller with
  | sendMessage projectGroupPrefix brokerName topic =>
    obtain ⟨r, hr, rfl⟩ := map_eq_ok.mp hdecode
    obtain ⟨⟨header, rfl⟩, hqueueId, hnumber⟩ :=
      SendMessageResponseHeader.eq_some_of_decode hparse hext hr
    obtain ⟨result, hresult⟩ := Caller.complete_sendMessage hread hheader
    rw [hresult]
    constructor
    · rintro ⟨settled, hsettled, hrefusal⟩ -
      obtain rfl := Except.ok.inj hsettled
      by_contra habsent
      exact hrefusal ⟨"msgId", List.mem_cons_self, habsent⟩
    · intro haccepts
      refine ⟨_, rfl, ?_⟩
      rintro ⟨name, hname, habsent⟩
      simp only [Caller.responseFields, List.mem_cons, List.not_mem_nil, or_false] at hname
      rcases hname with rfl | rfl | rfl
      · exact habsent (haccepts hnumber)
      · exact habsent hqueueId.present
      · exact habsent hnumber.present
  | pullMessage =>
    obtain ⟨r, hr, rfl⟩ := map_eq_ok.mp hdecode
    obtain ⟨⟨header, rfl⟩, hsuggest, hnext, hmin, hmax⟩ :=
      PullMessageResponseHeader.eq_some_of_decode hparse hext hr
    obtain ⟨result, hresult⟩ := Caller.complete_pullMessage hread hheader
    refine iff_of_true ⟨_, hresult, ?_⟩ trivial
    rintro ⟨name, hname, habsent⟩
    simp only [Caller.responseFields, List.mem_cons, List.not_mem_nil, or_false] at hname
    rcases hname with rfl | rfl | rfl | rfl
    · exact habsent hsuggest.present
    · exact habsent hnext.present
    · exact habsent hmin.present
    · exact habsent hmax.present
  | queryConsumerOffset projectGroupPrefix addr requestHeader =>
    obtain ⟨r, hr, rfl⟩ := map_eq_ok.mp hdecode
    obtain ⟨header, rfl, hoffset⟩ :=
      QueryConsumerOffsetResponseHeader.eq_some_of_decode hparse hext hr
    refine iff_of_true ⟨_, Caller.complete_queryConsumerOffset hread hheader, ?_⟩ trivial
    rintro ⟨name, hname, habsent⟩
    obtain rfl := List.mem_singleton.mp hname
    exact hoffset habsent
  | other => exact hread.elim

/-- An exception comes in place of an empty message id. -/
theorem acceptsFields_of_raised {caller : Caller} {ext : Json} {text : StdString}
    (hparse : lib.parse text = some object) (hext : member object (str "extFields") = some ext)
    (hreadable : CommandCustomHeader.Readable caller.requestCode ext)
    (hdecode : CommandCustomHeader.decode lib caller.requestCode text true = .error .raised) :
    AcceptsFields ext caller := by
  cases caller with
  | sendMessage projectGroupPrefix brokerName topic =>
    intro hnumber
    by_contra habsent
    obtain ⟨header, hheader⟩ := SendMessageResponseHeader.exists_decode_of_absent hparse hext
      hreadable habsent hnumber
    have hok : CommandCustomHeader.decode lib sendMessageValue text true =
        .ok (some (.sendMessageResponse header)) :=
      map_eq_ok.mpr ⟨_, hheader, rfl⟩
    cases hok.symm.trans hdecode
  | pullMessage | queryConsumerOffset | other => trivial

/-- A response whose call is in the table does no harm exactly when the call can use it. -/
theorem harmless_of_response_iff (hparse : lib.parse (headerTextOf data) = some object)
    (hmembers : HasMembers object) (hframe : decodeFrame lib data = .ok (some cmd))
    (hcode : cmd.code = (headerOf lib object).code)
    (hopaqueId : cmd.opaqueId.toInt = opaqueOf lib object) (hnone : cmd.customHeader = none)
    (hresponse : cmd.isResponseType = true)
    (htable : table[opaqueOf lib object]? = some pointer) :
    Harmless lib callers table givenUp data ↔
      Usable lib object (headerTextOf data) givenUp (callers pointer) := by
  obtain ⟨ext, hext⟩ := hmembers.exists_member (str "extFields")
  have hextFields : extFieldsOf object = ext := by rw [extFieldsOf, hext, Option.getD_some]
  have hdata : processData lib callers table givenUp data = _ :=
    processData_of_response hframe hresponse (hopaqueId ▸ htable)
  have hmalformed : Malformed lib callers table data ↔ _ := malformed_iff hparse htable
  rw [hextFields] at hmalformed
  unfold Usable
  rw [hextFields, ← hcode]
  by_cases hnamed : fieldName "extFields" <:+: headerTextOf data
  · rw [makeCustomHeader_of_named hresponse hnamed] at hdata
    simp only [hnamed, true_imp_iff, true_and]
    have hsurvives := CommandCustomHeader.survives_decode (callers pointer).requestCode hparse hext
    cases hdecode : CommandCustomHeader.decode lib (callers pointer).requestCode
        (headerTextOf data) true with
    | error fault =>
      rw [hdecode, RemotingCommand.bind_error, RemotingCommand.bind_error] at hdata
      rw [hdecode] at hsurvives
      by_cases hraised : fault = .raised
      · subst hraised
        have hreadable := hsurvives.mp survives_raised
        exact iff_of_true (harmless_of_rejected (run_of_raised hdata)) ⟨hreadable,
          .inr (.inr (acceptsFields_of_raised hparse hext hreadable hdecode))⟩
      · apply iff_of_false (not_harmless_of_error hdata hraised)
        intro husable
        exact hraised (hsurvives.mpr husable.1 fault rfl)
    | ok r =>
      rw [hdecode, RemotingCommand.bind_ok, RemotingCommand.bind_ok] at hdata
      rw [hdecode] at hsurvives
      rw [and_iff_right (hsurvives.mp (survives_ok r)),
        harmless_of_handed_iff hparse hdata hopaqueId htable, hmalformed]
      apply or_congr_right
      let decoded : Protocol.RemotingCommand := { cmd with customHeader := r }
      by_cases hread : (callers pointer).ReadsHeader decoded.code.toInt
      · have hheader : decoded.customHeader = r := rfl
        have hused := complete_of_decoded hparse hext hdecode hheader hread
        exact hused.trans ⟨.inr, fun h ↦ h.resolve_left (not_not_intro hread)⟩
      · obtain ⟨settled, hsettled, hrefusal⟩ := Caller.complete_of_not_read hread
        exact iff_of_true ⟨settled, hsettled, fun ⟨name, hname, _⟩ ↦ hrefusal name hname⟩
          (.inl hread)
  · rw [makeCustomHeader_of_absent hnamed, RemotingCommand.bind_ok] at hdata
    simp only [hnamed, false_imp_iff, true_and, false_and, or_false]
    rw [harmless_of_handed_iff hparse hdata hopaqueId htable, hmalformed]
    apply or_congr_right
    by_cases hread : (callers pointer).ReadsHeader cmd.code.toInt
    · refine iff_of_false ?_ (not_not_intro hread)
      rintro ⟨settled, hsettled, -⟩
      rw [Caller.complete_of_no_header hread hnone] at hsettled
      cases hsettled
    · obtain ⟨settled, hsettled, hrefusal⟩ := Caller.complete_of_not_read hread
      exact iff_of_true ⟨settled, hsettled, fun ⟨name, hname, _⟩ ↦ hrefusal name hname⟩ hread

/-- A frame whose body is inside does no harm exactly when its response can be used, if it is one
that a call waits for. -/
theorem harmless_of_command_iff (hlen : 8 ≤ data.length)
    (hparse : lib.parse (headerTextOf data) = some object) (hmembers : HasMembers object)
    (hconvertible : ¬ Inconvertible lib object) (hinside : BodyInside data) :
    Harmless lib callers table givenUp data ↔
      ((headerOf lib object).isResponseType → ∀ pointer ∈ table[opaqueOf lib object]?,
        Usable lib object (headerTextOf data) givenUp (callers pointer)) := by
  have hcmd := (RemotingCommand.decodeHeader_of_members hparse hmembers).resolve_left
    fun h ↦ hconvertible h.1
  have hframe := RemotingCommand.decodeFrame_of_header hlen hcmd.2
  obtain ⟨body, hbody⟩ := RemotingCommand.attachBody_of_inside hlen hinside (headerOf lib object)
  rw [hbody] at hframe
  cases hresponse : (headerOf lib object).isResponseType with
  | false =>
    have hdropped : run lib callers table givenUp data = .ok (.rejected, table) :=
      run_of_ok (processData_of_request hframe hresponse)
    exact iff_of_true (harmless_of_rejected hdropped) fun h ↦ absurd h Bool.false_ne_true
  | true =>
    simp only [true_imp_iff]
    cases htable : table[opaqueOf lib object]? with
    | none =>
      have hdropped : run lib callers table givenUp data = .ok (.rejected, table) :=
        run_of_ok (processData_of_unknown hframe hresponse htable)
      exact iff_of_true (harmless_of_rejected hdropped) fun _ h ↦ absurd h (Option.not_mem_none _)
    | some pointer =>
      simp only [Option.mem_some_iff, forall_eq']
      exact harmless_of_response_iff hparse hmembers hframe rfl rfl rfl hresponse htable

/-- The steps of `Decode` decide about a frame whose header is a JSON text. -/
theorem harmless_of_json_iff (hlen : 8 ≤ data.length)
    (hparse : lib.parse (headerTextOf data) = some object) :
    Harmless lib callers table givenUp data ↔ HasMembers object ∧
      (Inconvertible lib object ∨ BodyInside data ∧
        ((headerOf lib object).isResponseType → ∀ pointer ∈ table[opaqueOf lib object]?,
          Usable lib object (headerTextOf data) givenUp (callers pointer))) := by
  by_cases hmembers : HasMembers object
  · rw [and_iff_right hmembers]
    rcases RemotingCommand.decodeHeader_of_members hparse hmembers with
      ⟨hinconvertible, hraised⟩ | ⟨hconvertible, hcmd⟩
    · have hframe := RemotingCommand.decodeFrame_of_fault hlen hraised
      exact iff_of_true (harmless_of_rejected (run_of_raised (processData_of_fault hframe)))
        (.inl hinconvertible)
    · rw [or_iff_right hconvertible]
      by_cases hinside : BodyInside data
      · rw [and_iff_right hinside]
        exact harmless_of_command_iff hlen hparse hmembers hconvertible hinside
      · have hframe := RemotingCommand.decodeFrame_of_header hlen hcmd
        rw [RemotingCommand.attachBody_of_not_inside hlen hinside] at hframe
        exact iff_of_false (not_harmless_of_error (processData_of_fault hframe) (by decide))
          fun h ↦ hinside h.1
  · have hframe := RemotingCommand.decodeFrame_of_fault hlen
      (RemotingCommand.decodeHeader_of_no_members hparse hmembers).2
    exact iff_of_false (not_harmless_of_error (processData_of_fault hframe) (by decide))
      fun h ↦ hmembers h.1

/-- Frames do no harm exactly as long as their headers are objects, and the bodies are inside and
the responses can be used by the calls that wait for them, unless the conversion throws first. -/
theorem harmless_iff (lib : JsonLibrary) (callers : Nat → Caller)
    (table : TcpRemotingClient.Table) (givenUp : Bool) (data : StdString) :
    Harmless lib callers table givenUp data ↔ Processable lib callers table givenUp data := by
  by_cases hlen : 8 ≤ data.length
  · cases hparse : lib.parse (headerTextOf data) with
    | none =>
      have hframe := RemotingCommand.decodeFrame_of_null hlen
        (RemotingCommand.decodeHeader_of_no_json hparse)
      apply iff_of_false (not_harmless_of_error (processData_of_null hframe) (by decide))
      rintro ⟨-, object, hobject, -⟩
      rw [hparse] at hobject
      cases hobject
    | some object =>
      rw [harmless_of_json_iff hlen hparse]
      simp [Processable, hlen, hparse]
  · have hframe : decodeFrame lib data = .error .outside := by
      unfold decodeFrame
      rw [if_pos (Nat.not_le.mp hlen)]
      rfl
    exact iff_of_false (not_harmless_of_error (processData_of_fault hframe) (by decide))
      fun h ↦ hlen h.1

/-- A frame with a header text and no body. -/
def frameOf (text : StdString) : StdString :=
  Base.beIntBytes 4 (4 + text.length) ++ (Base.beIntBytes 4 text.length ++ text)

/-- A response without a custom header. -/
def bareResponse : StdString := frameOf (str "\x7b\"opaque\":7,\"flag\":1\x7d")

/-- A call that waits until its message is stored. -/
def sender : Nat → Caller := fun _ ↦ .sendMessage [] (str "broker-a") (str "TopicTest")

/-- What goes wrong, if anything does. -/
def faultOf {α : Type} : Except Fault α → Option Fault
  | .ok _ => none
  | .error fault => some fault

theorem not_harmless_of_faultOf {fault : Fault}
    (h : faultOf (run lib callers table givenUp data) = some fault) :
    ¬ Harmless lib callers table givenUp data := by
  rintro ⟨settled, table', hrun, -⟩
  rw [hrun] at h
  cases h

/-- The command of a frame without a header is used through `NULL`, and so is the custom header
of a response that has none. -/
theorem used_through_null :
    ¬ Harmless RemotingCommand.integerLibrary sender ∅ false (frameOf []) ∧
    ¬ Harmless RemotingCommand.integerLibrary sender ((∅ : TcpRemotingClient.Table).insert 7 0)
      false bareResponse := by
  have hempty : faultOf (run RemotingCommand.integerLibrary sender ∅ false (frameOf [])) =
      some .nullPointer := by
    decide +kernel
  have hbare : faultOf (run RemotingCommand.integerLibrary sender
      ((∅ : TcpRemotingClient.Table).insert 7 0) false bareResponse) = some .nullPointer := by
    decide +kernel
  exact ⟨not_harmless_of_faultOf hempty, not_harmless_of_faultOf hbare⟩

/-! ### The response table -/

theorem table_of_processResponseCommand {settled : Settled} {table' : TcpRemotingClient.Table}
    (h : processResponseCommand callers table cmd = .ok (settled, table')) :
    table' = table ∨ ∃ pointer, table[cmd.opaqueId.toInt]? = some pointer ∧
      table' = table.erase cmd.opaqueId.toInt := by
  unfold processResponseCommand at h
  cases htable : table[cmd.opaqueId.toInt]? with
  | none =>
    rw [htable] at h
    obtain ⟨-, rfl⟩ := Prod.mk.inj (Except.ok.inj h)
    exact .inl rfl
  | some pointer =>
    rw [htable] at h
    obtain ⟨settled', -, h⟩ := bind_eq_ok.mp h
    obtain ⟨-, rfl⟩ := Prod.mk.inj (Except.ok.inj h)
    exact .inr ⟨pointer, rfl, rfl⟩

/-- A frame leaves the response table as it is, or as taking its response does. -/
theorem take_of_run {s : ResponseTable} {settled : Settled} {table' : TcpRemotingClient.Table}
    (h : run lib callers s.table false data = .ok (settled, table')) :
    table' = s.table ∨
      ∃ response t, s.step (.take response) = some t ∧ t.table = table' := by
  have hdata : table' = s.table ∨
      processData lib callers s.table false data = .ok (settled, table') := by
    unfold run at h
    split at h
    · obtain ⟨-, rfl⟩ := Prod.mk.inj (Except.ok.inj h)
      exact .inl rfl
    · exact .inr h
  rcases hdata with hsame | hdata
  · exact .inl hsame
  unfold processData at hdata
  obtain ⟨cmd?, -, hdata⟩ := bind_eq_ok.mp hdata
  cases cmd? with
  | none => cases hdata
  | some cmd =>
    dsimp only at hdata
    by_cases hresponse : cmd.isResponseType = true
    · rw [if_pos hresponse] at hdata
      cases htable : s.table[cmd.opaqueId.toInt]? with
      | none =>
        rw [htable] at hdata
        obtain ⟨-, rfl⟩ := Prod.mk.inj (Except.ok.inj hdata)
        exact .inl rfl
      | some pointer =>
        rw [htable] at hdata
        obtain ⟨cmd', -, hdata⟩ := bind_eq_ok.mp hdata
        rw [if_neg Bool.false_ne_true] at hdata
        rcases table_of_processResponseCommand hdata with hsame | ⟨pointer', hpointer', herase⟩
        · exact .inl hsame
        · have htake : s.step (.take ⟨cmd'.opaqueId.toInt, cmd'.body.getD []⟩) = some { s with
              table := s.table.erase cmd'.opaqueId.toInt
              deliveries := s.deliveries ++
                [⟨⟨cmd'.opaqueId.toInt, cmd'.body.getD []⟩, pointer', .taken⟩] } := by
            simp only [ResponseTable.step, hpointer']
          exact .inr ⟨_, _, htake, herase.symm⟩
    · rw [if_neg hresponse] at hdata
      obtain ⟨_, -, hdata⟩ := bind_eq_ok.mp hdata
      obtain ⟨-, rfl⟩ := Prod.mk.inj (Except.ok.inj hdata)
      exact .inl rfl

end Frame

end ProcessDataWork
end RocketMQ
