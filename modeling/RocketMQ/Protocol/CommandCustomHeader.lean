import RocketMQ.Base.JsonText
import RocketMQ.Consumer.OffsetStore
import RocketMQ.Consumer.PullMessage
import RocketMQ.Producer.Send

/-!
# Custom headers as JSON texts

`src/protocol/CommandCustomHeader.cpp`. The encoders write their fields one after another with
commas in between, numbers in decimal and strings between quotes, as they are.
-/

namespace RocketMQ

open Base (Json intDigits)

/-! ### Fields -/

/-- A literal name, which needs no escapes. -/
abbrev PlainName (name : String) : Prop := Json.PlainString (str name)

/-- A field that an encoder writes. -/
inductive HeaderField where
  | text (name : String) (value : StdString) (plain : PlainName name := by decide)
  | number (name : String) (value : Int) (plain : PlainName name := by decide)
  | quotedNumber (name : String) (value : Int) (plain : PlainName name := by decide)

/-- `"\"name\":"`. -/
def fieldName (name : String) : StdString := str "\"" ++ str name ++ str "\":"

namespace HeaderField

/-- What is put into the stream for a field, without the comma. -/
def encode : HeaderField → StdString
  | text name value _ => fieldName name ++ str "\"" ++ value ++ str "\""
  | number name value _ => fieldName name ++ intDigits value
  | quotedNumber name value _ => fieldName name ++ str "\"" ++ intDigits value ++ str "\""

/-- The member that a field is meant to be. -/
def member : HeaderField → StdString × Json
  | text name value _ => (str name, .string value)
  | number name value _ => (str name, .int value)
  | quotedNumber name value _ => (str name, .string (intDigits value))

/-- The string that comes from outside. -/
def strings : HeaderField → List StdString
  | text _ value _ => [value]
  | number .. | quotedNumber .. => []

end HeaderField

/-- The fields after the first one, and the closing brace. -/
def encodeMoreFields : List HeaderField → StdString
  | [] => str "\x7d"
  | field :: fields => str "," ++ field.encode ++ encodeMoreFields fields

/-- `ss<<"{"<<...<<"}"` with all fields of a header. -/
def encodeFields : List HeaderField → StdString
  | [] => str "{}"
  | field :: fields => str "\x7b" ++ field.encode ++ encodeMoreFields fields

/-- The name of a field of a command and of a request to send. -/
theorem plainName_flag : PlainName "flag" := by decide

/-! ### Headers and their encoders -/

/-- `GetRouteInfoRequestHeader`. -/
structure GetRouteInfoRequestHeader where
  topic : StdString

/-- `CreateTopicRequestHeader`. -/
structure CreateTopicRequestHeader where
  topic : StdString
  defaultTopic : StdString
  readQueueNums : Int
  writeQueueNums : Int
  perm : Int
  topicFilterType : StdString

/-- The whole `SendMessageRequestHeader`. -/
structure Protocol.SendMessageRequestHeader extends RocketMQ.SendMessageRequestHeader where
  reconsumeTimes : Int

/-- `PullMessageRequestHeader`. -/
structure PullMessageRequestHeader where
  consumerGroup : StdString
  topic : StdString
  queueId : Int
  queueOffset : Int
  maxMsgNums : Int
  sysFlag : Int
  commitOffset : Int
  suspendTimeoutMillis : Int
  subscription : StdString
  subVersion : Int

/-- `GetConsumerListByGroupRequestHeader`. -/
structure GetConsumerListByGroupRequestHeader where
  consumerGroup : StdString

/-- `ConsumerSendMsgBackRequestHeader`. -/
structure ConsumerSendMsgBackRequestHeader where
  offset : Int
  group : StdString
  delayLevel : Int

/-- `src/protocol/CommandCustomHeader.cpp:61–67`. -/
def GetRouteInfoRequestHeader.fields (h : GetRouteInfoRequestHeader) : List HeaderField :=
  [.text "topic" h.topic]

/-- `src/protocol/CommandCustomHeader.cpp:80–93`. -/
def CreateTopicRequestHeader.fields (h : CreateTopicRequestHeader) : List HeaderField :=
  [.text "topic" h.topic,
    .text "defaultTopic" h.defaultTopic,
    .number "readQueueNums" h.readQueueNums,
    .number "writeQueueNums" h.writeQueueNums,
    .number "perm" h.perm,
    .text "topicFilterType" h.topicFilterType]

/-- `src/protocol/CommandCustomHeader.cpp:105–122`. -/
def Protocol.SendMessageRequestHeader.fields (h : Protocol.SendMessageRequestHeader) :
    List HeaderField :=
  [.text "producerGroup" h.producerGroup,
    .text "topic" h.topic,
    .text "defaultTopic" h.defaultTopic,
    .number "defaultTopicQueueNums" h.defaultTopicQueueNums,
    .number "queueId" h.queueId,
    .number "sysFlag" h.sysFlag,
    .number "bornTimestamp" h.bornTimestamp,
    .number "flag" h.flag plainName_flag,
    .text "properties" h.properties,
    .number "reconsumeTimes" h.reconsumeTimes]

/-- `src/protocol/CommandCustomHeader.cpp:135–145`. -/
def SendMessageResponseHeader.fields (h : SendMessageResponseHeader) : List HeaderField :=
  [.text "msgId" h.msgId,
    .number "queueId" h.queueId,
    .number "queueOffset" h.queueOffset]

/-- `src/protocol/CommandCustomHeader.cpp:182–199`. -/
def PullMessageRequestHeader.fields (h : PullMessageRequestHeader) : List HeaderField :=
  [.text "consumerGroup" h.consumerGroup,
    .text "topic" h.topic,
    .number "queueId" h.queueId,
    .number "queueOffset" h.queueOffset,
    .number "maxMsgNums" h.maxMsgNums,
    .number "sysFlag" h.sysFlag,
    .number "commitOffset" h.commitOffset,
    .number "suspendTimeoutMillis" h.suspendTimeoutMillis,
    .text "subscription" h.subscription,
    .number "subVersion" h.subVersion]

/-- `src/protocol/CommandCustomHeader.cpp:212–223`. -/
def PullMessageResponseHeader.fields (h : PullMessageResponseHeader) : List HeaderField :=
  [.number "suggestWhichBrokerId" h.suggestWhichBrokerId,
    .number "nextBeginOffset" h.nextBeginOffset,
    .number "minOffset" h.minOffset,
    .number "maxOffset" h.maxOffset]

/-- `src/protocol/CommandCustomHeader.cpp:260–267`. -/
def GetConsumerListByGroupRequestHeader.fields (h : GetConsumerListByGroupRequestHeader) :
    List HeaderField :=
  [.text "consumerGroup" h.consumerGroup]

/-- `src/protocol/CommandCustomHeader.cpp:305–315`. The numbers stand between quotes. -/
def ConsumerSendMsgBackRequestHeader.fields (h : ConsumerSendMsgBackRequestHeader) :
    List HeaderField :=
  [.quotedNumber "offset" h.offset,
    .text "group" h.group,
    .quotedNumber "delayLevel" h.delayLevel]

/-- `src/protocol/CommandCustomHeader.cpp:336–344`. -/
def QueryConsumerOffsetRequestHeader.fields (h : QueryConsumerOffsetRequestHeader) :
    List HeaderField :=
  [.text "consumerGroup" h.consumerGroup,
    .text "topic" h.topic,
    .number "queueId" h.queueId]

/-- `src/protocol/CommandCustomHeader.cpp:365–371`. -/
def QueryConsumerOffsetResponseHeader.fields (h : QueryConsumerOffsetResponseHeader) :
    List HeaderField :=
  [.number "offset" h.offset]

/-- `src/protocol/CommandCustomHeader.cpp:421–431`. -/
def UpdateConsumerOffsetRequestHeader.fields (h : UpdateConsumerOffsetRequestHeader) :
    List HeaderField :=
  [.text "consumerGroup" h.consumerGroup,
    .text "topic" h.topic,
    .number "queueId" h.queueId,
    .number "commitOffset" h.commitOffset]

/-- The classes derived from `CommandCustomHeader`. -/
inductive CommandCustomHeader where
  | getRouteInfoRequest (h : GetRouteInfoRequestHeader)
  | createTopicRequest (h : CreateTopicRequestHeader)
  | sendMessageRequest (h : Protocol.SendMessageRequestHeader)
  | sendMessageResponse (h : SendMessageResponseHeader)
  | pullMessageRequest (h : PullMessageRequestHeader)
  | pullMessageResponse (h : PullMessageResponseHeader)
  | getConsumerListByGroupRequest (h : GetConsumerListByGroupRequestHeader)
  | getConsumerListByGroupResponse
  | consumerSendMsgBackRequest (h : ConsumerSendMsgBackRequestHeader)
  | queryConsumerOffsetRequest (h : QueryConsumerOffsetRequestHeader)
  | queryConsumerOffsetResponse (h : QueryConsumerOffsetResponseHeader)
  | updateConsumerOffsetRequest (h : UpdateConsumerOffsetRequestHeader)

namespace CommandCustomHeader

/-- The fields of a header, in the order in which they are encoded. A
`GetConsumerListByGroupResponseHeader` has none, `src/protocol/CommandCustomHeader.cpp:285–288`. -/
def fields : CommandCustomHeader → List HeaderField
  | getRouteInfoRequest h => h.fields
  | createTopicRequest h => h.fields
  | sendMessageRequest h => h.fields
  | sendMessageResponse h => h.fields
  | pullMessageRequest h => h.fields
  | pullMessageResponse h => h.fields
  | getConsumerListByGroupRequest h => h.fields
  | getConsumerListByGroupResponse => []
  | consumerSendMsgBackRequest h => h.fields
  | queryConsumerOffsetRequest h => h.fields
  | queryConsumerOffsetResponse h => h.fields
  | updateConsumerOffsetRequest h => h.fields

/-- The virtual `Encode`. -/
def encode (h : CommandCustomHeader) : StdString := encodeFields h.fields

/-- The object that the text of a header is meant to be. -/
def json (h : CommandCustomHeader) : Json := .object (h.fields.map HeaderField.member)

/-- The string values of a header. -/
def strings (h : CommandCustomHeader) : List StdString := h.fields.flatMap HeaderField.strings

end CommandCustomHeader

/-! ### What the texts mean -/

theorem fieldName_eq (name : String) (t : StdString) :
    fieldName name ++ t = Json.quoted (str name) ++ Json.colon :: t := by
  rw [fieldName, Json.quoted, show str "\"" = [Json.quote] from rfl,
    show str "\":" = [Json.quote, Json.colon] from rfl]
  simp only [List.append_assoc, List.cons_append, List.nil_append]

/-- A field is written as its member. -/
theorem HeaderField.encode_eq (field : HeaderField) : field.encode =
    Json.quoted field.member.1 ++ Json.colon :: Json.write field.member.2 := by
  cases field with
  | text name value _ =>
    rw [encode, List.append_assoc, List.append_assoc, fieldName_eq]
    rfl
  | number name value _ =>
    rw [encode, fieldName_eq]
    rfl
  | quotedNumber name value _ =>
    rw [encode, List.append_assoc, List.append_assoc, fieldName_eq]
    rfl

theorem encodeMoreFields_eq (fields : List HeaderField) :
    encodeMoreFields fields = Json.writeMembers (fields.map HeaderField.member) := by
  induction fields with
  | nil => rfl
  | cons field fields ih =>
    rw [encodeMoreFields, ih, field.encode_eq, List.map_cons, Json.writeMembers,
      show str "," = [Json.comma] from rfl]
    simp only [List.append_assoc, List.cons_append, List.nil_append]

/-- A text between braces is the object of its fields. -/
theorem encodeFields_eq (fields : List HeaderField) :
    encodeFields fields = Json.write (.object (fields.map HeaderField.member)) := by
  cases fields with
  | nil => rfl
  | cons field fields =>
    rw [encodeFields, encodeMoreFields_eq, field.encode_eq, List.map_cons, Json.write,
      show str "\x7b" = [Json.openBrace] from rfl]
    simp only [List.append_assoc, List.cons_append, List.nil_append]

/-- The text of a field is plain when its string is. -/
theorem HeaderField.plain_iff (field : HeaderField) (atoms : List Json.Atom) :
    Json.Plain (.string field.member.1 :: (field.member.2.atoms ++ atoms)) ↔
      (∀ s ∈ field.strings, Json.PlainString s) ∧ Json.Plain atoms := by
  cases field with
  | text name value plain =>
    simp [member, strings, Json.atoms, Json.plain_string_cons, plain]
  | number name value plain =>
    simp [member, strings, Json.atoms, Json.plain_string_cons, plain]
  | quotedNumber name value plain =>
    simp [member, strings, Json.atoms, Json.plain_string_cons, plain,
      Json.plainString_intDigits]

theorem plain_members_iff (fields : List HeaderField) :
    Json.Plain (Json.memberAtoms (fields.map HeaderField.member)) ↔
      ∀ s ∈ fields.flatMap HeaderField.strings, Json.PlainString s := by
  induction fields with
  | nil => exact ⟨fun _ ↦ nofun, fun _ ↦ Json.plain_nil⟩
  | cons field fields ih =>
    rw [List.map_cons, Json.memberAtoms, field.plain_iff, ih, List.flatMap_cons]
    simp only [List.mem_append, or_imp, forall_and]

theorem integral_members (fields : List HeaderField) :
    Json.Integral (Json.memberAtoms (fields.map HeaderField.member)) := by
  induction fields with
  | nil => exact Json.integral_nil
  | cons field fields ih =>
    rw [List.map_cons, Json.memberAtoms, Json.integral_string_cons, Json.integral_append]
    refine ⟨?_, ih⟩
    cases field <;> simp [HeaderField.member, Json.atoms, Json.Integral]

namespace CommandCustomHeader

variable (h : CommandCustomHeader)

theorem encode_eq_write : h.encode = Json.write h.json := encodeFields_eq h.fields

theorem plain_json_iff : Json.Plain h.json.atoms ↔ ∀ s ∈ h.strings, Json.PlainString s :=
  plain_members_iff h.fields

theorem integral_json : Json.Integral h.json.atoms := integral_members h.fields

end CommandCustomHeader
end RocketMQ
