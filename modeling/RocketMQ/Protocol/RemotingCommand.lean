import RocketMQ.Base.Bytes
import RocketMQ.Protocol.CommandCustomHeader
import RocketMQ.Transport.FrameExtraction

/-!
# Frames of remoting commands

`src/protocol/RemotingCommand.cpp`. A frame is its size without the prefix itself, the length of
the header, the header as a JSON text, and the body. The JSON library is a parameter; what it
reads as a value is a `Json` here.
-/

namespace RocketMQ

open Base (Json intDigits)

namespace Protocol

/-- `RemotingCommand`. The body is its pointer and its length; the head is what `encode` makes. -/
structure RemotingCommand where
  code : Int32
  language : StdString
  version : Int32
  opaqueId : Int32
  flag : Int32
  remark : StdString
  customHeader : Option CommandCustomHeader
  body : Option StdString

namespace RemotingCommand

/-! ### Encoding -/

/-- The text of the header, `src/protocol/RemotingCommand.cpp:70–83`. -/
def headerText (cmd : RemotingCommand) : StdString :=
  let extHeader := match cmd.customHeader with
    | some header => header.encode
    | none => str "{}"
  str "\x7b" ++ (HeaderField.number "code" cmd.code.toInt).encode ++ str "," ++
    (HeaderField.text "language" (str "CPP")).encode ++ str "," ++
    (HeaderField.number "version" cmd.version.toInt).encode ++ str "," ++
    (HeaderField.number "opaque" cmd.opaqueId.toInt).encode ++ str "," ++
    (HeaderField.number "flag" cmd.flag.toInt plainName_flag).encode ++ str "," ++
    (HeaderField.text "remark" cmd.remark).encode ++ str "," ++
    fieldName "extFields" ++ extHeader ++ str "\x7d"

def bodyLen (cmd : RemotingCommand) : Nat := (cmd.body.map List.length).getD 0

/-- `src/protocol/RemotingCommand.cpp:68–99`. -/
def encode (cmd : RemotingCommand) : StdString :=
  let headLen : Int := cmd.headerText.length
  Base.beIntBytes 4 (4 + 4 + headLen + cmd.bodyLen - 4) ++
    (Base.beIntBytes 4 headLen ++ cmd.headerText)

/-- What `SendCmd` writes when both writes succeed,
`src/transport/TcpRemotingClient.cpp:457–466`. -/
def sent (cmd : RemotingCommand) : StdString := cmd.encode ++ cmd.body.getD []

/-! ### Decoding -/

/-- What decoding uses of the JSON library: `Reader::parse`, and what `asInt` makes of a number
with a fraction or an exponent. -/
structure JsonLibrary where
  parse : StdString → Option Json
  realAsInt : StdString → Option Int32

/-- `Value::asInt`; `none` is an exception. -/
def JsonLibrary.asInt (lib : JsonLibrary) : Json → Option Int32
  | .null => some 0
  | .bool b => some (if b then 1 else 0)
  | .int n => if -2 ^ 31 ≤ n ∧ n < 2 ^ 31 then some (.ofInt n) else none
  | .decimal token => lib.realAsInt token
  | .string _ | .array _ | .object _ => none

/-- What a `char *` to a string shows of it. -/
def cString (s : StdString) : StdString := s.takeWhile fun b ↦ b ≠ 0

/-- `Value::asString`. -/
def asString : Json → Option StdString
  | .null => some []
  | .string s => some (cString s)
  | .bool b => some (if b then str "true" else str "false")
  | .int _ | .decimal _ | .array _ | .object _ => none

theorem asString_string {s : StdString} (h : 0 ∉ s) : asString (.string s) = some s :=
  congrArg some (takeWhile_ne_nul h)

/-- `Value::operator[]`. The last one of several members with a name counts. -/
def member (value : Json) (name : StdString) : Option Json :=
  match value with
  | .null => some .null
  | .object members =>
    some ((members.reverse.find? fun m ↦ m.1 = name).map Prod.snd |>.getD .null)
  | _ => none

/-- `src/protocol/RemotingCommand.cpp:144–188`. A `NULL` result is `some none`; an exception of
the JSON library, and a read outside of the frame, is `none`. -/
def decode (lib : JsonLibrary) (pData : StdString) : Option (Option RemotingCommand) :=
  match lib.parse (cString (pData.drop 8)) with
  | none => some none
  | some object => do
    let code ← lib.asInt (← member object (str "code"))
    let language ← asString (← member object (str "language"))
    let version ← lib.asInt (← member object (str "version"))
    let opaqueId ← lib.asInt (← member object (str "opaque"))
    let flag ← lib.asInt (← member object (str "flag"))
    let remark ← asString (← member object (str "remark"))
    let headLen := Base.beInt (← Base.readAt pData 4 4)
    let bodyLen := pData.length - 8 - headLen
    let body ← if bodyLen > 0 then (Base.readAt pData (8 + headLen) bodyLen.toNat).map some
      else some none
    return some ⟨code, language, version, opaqueId, flag, remark, none, body⟩

/-! ### The header as a JSON text -/

/-- The fields before the custom header. -/
def fields (cmd : RemotingCommand) : List HeaderField :=
  [.number "code" cmd.code.toInt, .text "language" (str "CPP"),
    .number "version" cmd.version.toInt, .number "opaque" cmd.opaqueId.toInt,
    .number "flag" cmd.flag.toInt plainName_flag, .text "remark" cmd.remark]

/-- The custom header, which is an empty object when there is none. -/
def extFields (cmd : RemotingCommand) : Json :=
  (cmd.customHeader.map CommandCustomHeader.json).getD (.object [])

/-- The object that the header text is meant to be. -/
def json (cmd : RemotingCommand) : Json :=
  .object (cmd.fields.map HeaderField.member ++ [(str "extFields", cmd.extFields)])

/-- The string values of a command and its custom header. -/
def strings (cmd : RemotingCommand) : List StdString :=
  cmd.remark :: (cmd.customHeader.map CommandCustomHeader.strings).getD []

section Text

variable (cmd : RemotingCommand)

theorem headerText_eq_write : cmd.headerText = Json.write cmd.json := by
  have hext : (match cmd.customHeader with
      | some header => header.encode
      | none => str "{}") = Json.write cmd.extFields := by
    rw [extFields]
    cases cmd.customHeader with
    | none => rfl
    | some header => exact header.encode_eq_write
  rw [headerText, hext, show str "\x7b" = [Json.openBrace] from rfl,
    show str "," = [Json.comma] from rfl, show str "\x7d" = [Json.closeBrace] from rfl]
  simp only [HeaderField.encode_eq, List.append_assoc, fieldName_eq, json, fields, List.map_cons,
    List.map_nil, Json.write, Json.writeMembers, List.cons_append, List.nil_append]

theorem plain_extFields_iff : Json.Plain cmd.extFields.atoms ↔
    ∀ s ∈ (cmd.customHeader.map CommandCustomHeader.strings).getD [], Json.PlainString s := by
  rw [extFields]
  cases cmd.customHeader with
  | none => exact ⟨fun _ ↦ nofun, fun _ ↦ Json.plain_nil⟩
  | some header => exact header.plain_json_iff

theorem plain_json_iff : Json.Plain cmd.json.atoms ↔ ∀ s ∈ cmd.strings, Json.PlainString s := by
  have hlanguage : Json.PlainString (str "CPP") := by decide
  have hname : PlainName "extFields" := by decide
  rw [json, Json.atoms, Json.memberAtoms_append, Json.plain_append, plain_members_iff]
  simp only [fields, strings, HeaderField.strings, List.flatMap_cons, List.flatMap_nil,
    Json.memberAtoms, Json.plain_string_cons, Json.plain_append, plain_extFields_iff,
    List.mem_append, List.mem_cons, List.not_mem_nil, or_false, false_or, or_imp, forall_and,
    forall_eq, hlanguage, hname, Json.plain_nil, true_and, and_true]

theorem integral_json : Json.Integral cmd.json.atoms := by
  rw [json, Json.atoms, Json.memberAtoms_append, Json.integral_append]
  refine ⟨integral_members cmd.fields, ?_⟩
  rw [Json.memberAtoms, Json.integral_string_cons, Json.integral_append, extFields]
  refine ⟨?_, Json.integral_nil⟩
  cases cmd.customHeader with
  | none => exact Json.integral_nil
  | some header => exact header.integral_json

end Text

end RemotingCommand
end Protocol
end RocketMQ
