import RocketMQ.Protocol.RemotingCommand

/-!
# Frames round-trip

The prefix of a frame, the length of its header and the length of its body are computed when it
is encoded and found again when it is decoded. The body stands right behind the header text, so
decoding relies on a reader that stops at the end of the first value.
-/

namespace RocketMQ.Protocol.RemotingCommand

open Base (Json)

/-- The reader gives the object that is written at the front of a text, whatever follows it. -/
def JsonLibrary.ReadsFirst (lib : JsonLibrary) : Prop :=
  ∀ (members : List (StdString × Json)) (rest : StdString),
    Json.Plain (Json.memberAtoms members) → Json.Integral (Json.memberAtoms members) →
      lib.parse (Json.write (.object members) ++ rest) = some (.object members)

section Frame

variable {cmd : RemotingCommand} {lib : JsonLibrary}

theorem bodyLen_eq (cmd : RemotingCommand) : cmd.bodyLen = (cmd.body.getD []).length := by
  rw [bodyLen]
  cases cmd.body with
  | none => rfl
  | some body => rfl

theorem length_encode (cmd : RemotingCommand) : cmd.encode.length = 8 + cmd.headerText.length := by
  rw [encode]
  simp only [List.length_append, Base.length_beIntBytes]
  omega

/-- The parts of a frame. -/
theorem sent_eq (cmd : RemotingCommand) : cmd.sent =
    Base.beIntBytes 4 (4 + 4 + cmd.headerText.length + cmd.bodyLen - 4) ++
      (Base.beIntBytes 4 cmd.headerText.length ++ (cmd.headerText ++ cmd.body.getD [])) := by
  rw [sent, encode]
  simp only [List.append_assoc]

theorem length_sent (cmd : RemotingCommand) :
    cmd.sent.length = cmd.encode.length + cmd.bodyLen := by
  rw [sent, List.length_append, bodyLen_eq]

/-- The prefix is the size without the prefix. -/
theorem getMsgSize_sent (hlen : cmd.encode.length + cmd.bodyLen < 2 ^ 31) :
    getMsgSize cmd.sent = cmd.encode.length + cmd.bodyLen := by
  rw [length_encode] at hlen ⊢
  have hpre : cmd.sent.take 4 =
      Base.beIntBytes 4 (4 + 4 + cmd.headerText.length + cmd.bodyLen - 4) := by
    rw [sent_eq, List.take_left' (Base.length_beIntBytes _ _)]
  have hvalue : Base.beNat (cmd.sent.take 4) = 4 + cmd.headerText.length + cmd.bodyLen := by
    rw [hpre, Base.beIntBytes, Base.beNat_beBytes_of_lt] <;> omega
  rw [RecvBuffer.getMsgSize_of_lt (by omega), hvalue]
  omega

/-- The reader sees the header text and the front of the body. -/
theorem parse_sent (hlib : lib.ReadsFirst) (hplain : ∀ s ∈ cmd.strings, Json.PlainString s) :
    lib.parse (cString (cmd.sent.drop 8)) = some cmd.json := by
  have hdrop : cmd.sent.drop 8 = cmd.headerText ++ cmd.body.getD [] := by
    rw [sent_eq, ← List.append_assoc, List.drop_left' (by simp)]
  have htext : ∀ b ∈ cmd.headerText, decide (b ≠ 0) = true := by
    intro b hb
    rw [headerText_eq_write] at hb
    have hle := Json.le_of_mem_write cmd.json (cmd.plain_json_iff.mpr hplain) cmd.integral_json b hb
    apply decide_eq_true
    rintro rfl
    exact absurd hle (by decide)
  rw [hdrop, cString, List.takeWhile_append_of_pos htext, headerText_eq_write]
  exact hlib _ _ (cmd.plain_json_iff.mpr hplain) cmd.integral_json

theorem asInt_toInt (lib : JsonLibrary) (n : Int32) : lib.asInt (.int n.toInt) = some n := by
  rw [JsonLibrary.asInt, if_pos ⟨n.le_toInt, n.toInt_lt⟩, Int32.ofInt_toInt]

theorem asString_plain {s : StdString} (h : Json.PlainString s) :
    asString (.string s) = some s :=
  asString_string fun hzero ↦ absurd (h 0 hzero).2.2 (by decide)

/-- The length of the header is read back. -/
theorem readHeadLen_sent (hlen : cmd.encode.length + cmd.bodyLen < 2 ^ 31) :
    ∃ bytes, Base.readAt cmd.sent 4 4 = some bytes ∧
      Base.beInt bytes = cmd.headerText.length := by
  rw [length_encode] at hlen
  refine ⟨Base.beIntBytes 4 cmd.headerText.length, ?_, ?_⟩
  · rw [sent_eq]
    exact Base.readAt_append (by rw [Base.length_beIntBytes]; rfl)
      (Base.length_beIntBytes _ _).symm
  · exact Base.beInt_beIntBytes (by omega) (by omega)

/-- What is behind the header is the body. -/
theorem readBody_sent (cmd : RemotingCommand) :
    Base.readAt cmd.sent (8 + cmd.headerText.length) cmd.bodyLen = some (cmd.body.getD []) := by
  have hsent : cmd.sent = cmd.encode ++ (cmd.body.getD [] ++ []) := by rw [sent, List.append_nil]
  rw [hsent]
  exact Base.readAt_append (by rw [length_encode]; push_cast; rfl) (bodyLen_eq cmd)

/-- A frame is decoded to the command it was made of. -/
theorem decode_sent (hlib : lib.ReadsFirst) (hplain : ∀ s ∈ cmd.strings, Json.PlainString s)
    (hlen : cmd.encode.length + cmd.bodyLen < 2 ^ 31) :
    ∃ cmd', decode lib cmd.sent = some (some cmd') ∧ cmd'.code = cmd.code ∧
      cmd'.version = cmd.version ∧ cmd'.opaqueId = cmd.opaqueId ∧ cmd'.flag = cmd.flag ∧
      cmd'.remark = cmd.remark ∧ cmd'.bodyLen = cmd.bodyLen ∧
      cmd'.body.getD [] = cmd.body.getD [] := by
  have hcode : member cmd.json (str "code") = some (.int cmd.code.toInt) := rfl
  have hlanguage : member cmd.json (str "language") = some (.string (str "CPP")) := rfl
  have hversion : member cmd.json (str "version") = some (.int cmd.version.toInt) := rfl
  have hopaqueId : member cmd.json (str "opaque") = some (.int cmd.opaqueId.toInt) := rfl
  have hflag : member cmd.json (str "flag") = some (.int cmd.flag.toInt) := rfl
  have hremark : member cmd.json (str "remark") = some (.string cmd.remark) := rfl
  have hstring : asString (.string cmd.remark) = some cmd.remark :=
    asString_plain (hplain cmd.remark List.mem_cons_self)
  have hcpp : asString (.string (str "CPP")) = some (str "CPP") := rfl
  obtain ⟨bytes, hbytes, hheadLen⟩ := readHeadLen_sent hlen
  have hbodyLen : (cmd.sent.length : Int) - 8 - cmd.headerText.length = cmd.bodyLen := by
    rw [length_sent, length_encode]
    push_cast
    omega
  have hbody := readBody_sent cmd
  rw [decode, parse_sent hlib hplain]
  simp only [hcode, hlanguage, hversion, hopaqueId, hflag, hremark, asInt_toInt, hcpp, hstring,
    hbytes, hheadLen, hbodyLen, Int.toNat_natCast, hbody, Option.bind_eq_bind, Option.bind_some,
    Option.pure_def, Option.map_some]
  by_cases hempty : (0 : Int) < cmd.bodyLen
  · rw [if_pos hempty]
    exact ⟨_, rfl, rfl, rfl, rfl, rfl, rfl, (bodyLen_eq cmd).symm, rfl⟩
  · -- a body of length zero is not attached again
    have hnil : cmd.body.getD [] = [] := by
      rw [← List.length_eq_zero_iff, ← bodyLen_eq]
      omega
    have hzero : cmd.bodyLen = 0 := by omega
    rw [if_neg hempty]
    exact ⟨_, rfl, rfl, rfl, rfl, rfl, rfl, hzero.symm, hnil.symm⟩

/-- A frame has the size that its prefix says, and is decoded to the command it was made of. -/
theorem frame_round_trip (hlib : lib.ReadsFirst) (hplain : ∀ s ∈ cmd.strings, Json.PlainString s)
    (hlen : cmd.encode.length + cmd.bodyLen < 2 ^ 31) :
    getMsgSize cmd.sent = cmd.encode.length + cmd.bodyLen ∧
    ∃ cmd', decode lib cmd.sent = some (some cmd') ∧ cmd'.code = cmd.code ∧
      cmd'.version = cmd.version ∧ cmd'.opaqueId = cmd.opaqueId ∧ cmd'.flag = cmd.flag ∧
      cmd'.remark = cmd.remark ∧ cmd'.bodyLen = cmd.bodyLen ∧
      cmd'.body.getD [] = cmd.body.getD [] :=
  ⟨getMsgSize_sent hlen, decode_sent hlib hplain hlen⟩

/-- A library that reads JSON as it is specified, for numbers without fraction and exponent. -/
def integerLibrary : JsonLibrary := ⟨Json.readFirst, fun _ ↦ none⟩

theorem readsFirst_integerLibrary : integerLibrary.ReadsFirst :=
  fun _ _ hplain hint ↦ Json.readFirst_write hplain hint nofun

/-- A request for the route of a topic, with a body that looks like the end of a header. -/
def routeRequest : RemotingCommand :=
  ⟨105, str "CPP", 64, 7, 0, [], some (.getRouteInfoRequest ⟨str "TopicTest"⟩), some (str "\x7d1")⟩

theorem routeRequest_round_trip :
    getMsgSize routeRequest.sent = routeRequest.encode.length + routeRequest.bodyLen ∧
    ∃ cmd', decode integerLibrary routeRequest.sent = some (some cmd') ∧
      cmd'.code = routeRequest.code ∧ cmd'.version = routeRequest.version ∧
      cmd'.opaqueId = routeRequest.opaqueId ∧ cmd'.flag = routeRequest.flag ∧
      cmd'.remark = routeRequest.remark ∧ cmd'.bodyLen = routeRequest.bodyLen ∧
      cmd'.body.getD [] = routeRequest.body.getD [] :=
  frame_round_trip readsFirst_integerLibrary (by decide) (by decide +kernel)

end Frame
end RocketMQ.Protocol.RemotingCommand
