import RocketMQ.Consumer.SubscriptionData
import RocketMQ.Protocol.RemotingCommand

/-!
# Emitted texts read back

The encoders put strings between quotes as they are, while a reader undoes escapes. So a text
means what was encoded exactly when its strings need no escapes. The separators of a property
string are control characters, so a message with properties is never among these.
-/

namespace RocketMQ

open Base (Json)

/-! ### Property strings -/

theorem notPlain_of_entry {properties : Std.ExtTreeMap StdString StdString}
    {entry : StdString × StdString} (h : entry ∈ properties.toList) :
    ¬ Json.PlainString (messageProperties2String properties) := by
  intro hplain
  have hmem : 1 ∈ messageProperties2String properties :=
    List.mem_flatMap.mpr ⟨entry, h, by simp⟩
  exact absurd (hplain 1 hmem).2.2 (by decide)

/-- Only a message without properties has a property string that needs no escapes. -/
theorem plainString_properties_iff (properties : Std.ExtTreeMap StdString StdString) :
    Json.PlainString (messageProperties2String properties) ↔ properties.toList = [] := by
  constructor
  · intro hplain
    by_contra hne
    obtain ⟨entry, hentry⟩ := List.exists_mem_of_ne_nil _ hne
    exact notPlain_of_entry hentry hplain
  · intro hnil
    rw [messageProperties2String, hnil]
    exact nofun

/-! ### Texts -/

theorem CommandCustomHeader.read_encode_iff (h : CommandCustomHeader) :
    Json.read h.encode = some h.json ↔ ∀ s ∈ h.strings, Json.PlainString s := by
  rw [encode_eq_write, Json.read_write_iff h.integral_json, plain_json_iff]

theorem Protocol.RemotingCommand.read_headerText_iff (cmd : Protocol.RemotingCommand) :
    Json.read cmd.headerText = some cmd.json ↔ ∀ s ∈ cmd.strings, Json.PlainString s := by
  rw [headerText_eq_write, Json.read_write_iff cmd.integral_json, plain_json_iff]

theorem SubscriptionData.read_encode_iff (d : SubscriptionData) :
    Json.read d.encode = some d.json ↔ ∀ s ∈ d.strings, Json.PlainString s := by
  rw [encode_eq_write, Json.read_write_iff d.integral_json, plain_json_iff]

/-- The JSON texts that are emitted for a send, a pull, a command and a subscription. -/
inductive EmittedText where
  | sendMessageRequest (h : Protocol.SendMessageRequestHeader)
  | pullMessageRequest (h : PullMessageRequestHeader)
  | command (cmd : Protocol.RemotingCommand)
  | subscription (d : SubscriptionData)

namespace EmittedText

def text : EmittedText → StdString
  | sendMessageRequest h => (CommandCustomHeader.sendMessageRequest h).encode
  | pullMessageRequest h => (CommandCustomHeader.pullMessageRequest h).encode
  | command cmd => cmd.headerText
  | subscription d => d.encode

/-- What was encoded. -/
def json : EmittedText → Json
  | sendMessageRequest h => (CommandCustomHeader.sendMessageRequest h).json
  | pullMessageRequest h => (CommandCustomHeader.pullMessageRequest h).json
  | command cmd => cmd.json
  | subscription d => d.json

/-- The string values in a text. -/
def strings : EmittedText → List StdString
  | sendMessageRequest h => [h.producerGroup, h.topic, h.defaultTopic, h.properties]
  | pullMessageRequest h => [h.consumerGroup, h.topic, h.subscription]
  | command cmd => cmd.strings
  | subscription d => d.topic :: d.subString :: d.tagsSet.toList

/-- **Emitted texts**: a text is JSON for what was encoded exactly when none of its string
values needs escapes. -/
theorem read_text_iff (e : EmittedText) :
    Json.read e.text = some e.json ↔ ∀ s ∈ e.strings, Json.PlainString s := by
  cases e with
  | sendMessageRequest h => exact CommandCustomHeader.read_encode_iff (.sendMessageRequest h)
  | pullMessageRequest h => exact CommandCustomHeader.read_encode_iff (.pullMessageRequest h)
  | command cmd => exact cmd.read_headerText_iff
  | subscription d => exact d.read_encode_iff

/-- A message to send with one property of its user's, whose value holds quotes. -/
def quotedPropertyHeader : Protocol.SendMessageRequestHeader where
  producerGroup := str "group"
  topic := str "TopicTest"
  defaultTopic := str "TBW102"
  defaultTopicQueueNums := 4
  queueId := 0
  sysFlag := 0
  bornTimestamp := 0
  flag := 0
  properties := messageProperties2String (.ofList [(str "color", str "\"red\"")])
  reconsumeTimes := 0

/-- The text of a message with quotes in a property is no JSON at all. -/
theorem quotedProperty_unreadable :
    Json.read (sendMessageRequest quotedPropertyHeader).text = none := by
  have hnone : (Json.read (sendMessageRequest quotedPropertyHeader).text).isNone = true := by
    decide +kernel
  exact Option.isNone_iff_eq_none.mp hnone

end EmittedText
end RocketMQ
