import RocketMQ.Message.MessageQueue

/-!
# Messages to be sent

`include/Message.h`, `src/message/Message.cpp`. The body is `NULL` or the bytes copied into
`m_body`; `m_bodyLen` is their number.
-/

namespace RocketMQ

/-- `include/Message.h:122–126`. -/
structure Message where
  topic : StdString
  flag : Int
  properties : Std.ExtTreeMap StdString StdString
  body : Option StdString

namespace Message

/-- `Message::PROPERTY_TRANSACTION_PREPARED`, `src/message/Message.cpp:29`. -/
def propertyTransactionPrepared : StdString := str "TRAN_MSG"

/-- `Message::PROPERTY_TAGS`, `src/message/Message.cpp:22`. -/
def propertyTags : StdString := str "TAGS"

/-- `Message::PROPERTY_RETRY_TOPIC`, `src/message/Message.cpp:26`. -/
def propertyRetryTopic : StdString := str "RETRY_TOPIC"

/-- `Message::PROPERTY_MIN_OFFSET`, `src/message/Message.cpp:31`. -/
def propertyMinOffset : StdString := str "MIN_OFFSET"

/-- `Message::PROPERTY_MAX_OFFSET`, `src/message/Message.cpp:32`. -/
def propertyMaxOffset : StdString := str "MAX_OFFSET"

/-- `Message::getProperty`: the empty string for a missing one. -/
def getProperty (msg : Message) (name : StdString) : StdString :=
  (msg.properties[name]?).getD []

/-- `Message::putProperty`. -/
def putProperty (msg : Message) (name value : StdString) : Message :=
  { msg with properties := msg.properties.insert name value }

/-- `Message::getTags`. -/
def getTags (msg : Message) : StdString := msg.getProperty propertyTags

/-- A property that was put is read back, and the others are as they were. -/
theorem getProperty_putProperty (msg : Message) (name value other : StdString) :
    (msg.putProperty name value).getProperty other =
      if name = other then value else msg.getProperty other := by
  simp only [getProperty, putProperty, Std.ExtTreeMap.getElem?_insert,
    Std.LawfulEqCmp.compare_eq_iff_eq]
  split <;> rfl

/-- `Message::getBodyLen`. -/
def bodyLen (msg : Message) : Int := (msg.body.getD []).length

/-- `Message::setBody` does nothing for an empty body. -/
def setBody (msg : Message) (body : StdString) : Message :=
  if body.length > 0 then { msg with body := some body } else msg

end Message

/-- `MessageDecoder::messageProperties2String`, `src/message/MessageDecoder.cpp:325–337`. -/
def messageProperties2String (properties : Std.ExtTreeMap StdString StdString) : StdString :=
  properties.toList.flatMap fun (name, value) ↦ name ++ [1] ++ value ++ [2]

end RocketMQ
