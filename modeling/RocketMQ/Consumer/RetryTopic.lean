import RocketMQ.Base.JsonText
import RocketMQ.Consumer.FilterAgain
import RocketMQ.Message.PropertyBlock

/-!
# Messages that come back through the retry topic

When the broker does not take a message back, `DefaultMQPushConsumerImpl::sendMessageBack` sends a
copy of it to the retry topic of its group, with the topic it came from as a property.
`ConsumeConcurrentlyRequest::resetRetryTopic` gives the message that topic again before the
listener sees it. A message may go round so any number of times.
-/

namespace RocketMQ

/-- `MixAll::getRetryTopic`, `src/common/MixAll.cpp:28,37–42`. -/
def getRetryTopic (consumerGroup : StdString) : StdString := str "%RETRY%" ++ consumerGroup

/-- `Message(topic, body, len)`, `src/message/Message.cpp:41–44,253–279`. -/
def Message.ofBody (topic : StdString) (body : Option StdString) : Message where
  topic := topic
  flag := 0
  properties := MessageDecoder.defaultProperties
  body := if (body.getD []).length > 0 then body else none

namespace RetryTopic

/-- The copy that `sendMessageBack` sends,
`src/consumer/DefaultMQPushConsumerImpl.cpp:428–435`. -/
def newMsg (consumerGroup : StdString) (msg : Message) : Message :=
  { Message.ofBody (getRetryTopic consumerGroup) msg.body with
    flag := msg.flag
    properties := msg.properties }.putProperty Message.propertyRetryTopic msg.topic

/-- The broker keeps a message, with its properties as the text the client wrote. The client reads
the text when there is one, `src/message/MessageDecoder.cpp:266–276`. -/
def returned (msg : Message) : Message :=
  let text := messageProperties2String msg.properties
  { msg with
    properties := if text.length > 0 then MessageDecoder.string2messageProperties (cstr text)
      else MessageDecoder.defaultProperties }

/-- `resetRetryTopic` on one message. -/
def resetMessage (consumerGroup : StdString) (msg : DecodedMessage) : DecodedMessage :=
  let retryTopic := msg.getProperty Message.propertyRetryTopic
  if !retryTopic.isEmpty && getRetryTopic consumerGroup == msg.topic then
    { msg with topic := retryTopic }
  else msg

/-- `src/consumer/ConsumeMessageConcurrentlyService.cpp:362–376`. -/
def resetRetryTopic (consumerGroup : StdString) (msgs : List DecodedMessage) :
    List DecodedMessage :=
  msgs.map (resetMessage consumerGroup)

/-- What the listener sees of a message, once it was pulled. -/
def seenAs (consumerGroup projectGroupPrefix : StdString) (pullResult : PullResult)
    (msg : DecodedMessage) : DecodedMessage :=
  resetMessage consumerGroup (PullAPIWrapper.finishMessage projectGroupPrefix pullResult msg)

/-- `msg` is what the listener sees in round `k` of a message that was pulled. Every pull has its
own offsets, and every delivery its own position in the log. -/
inductive Seen (consumerGroup projectGroupPrefix : StdString) (pulled : DecodedMessage) :
    Nat → DecodedMessage → Prop where
  | first (pullResult : PullResult) : Seen consumerGroup projectGroupPrefix pulled 0
      (seenAs consumerGroup projectGroupPrefix pullResult pulled)
  | again {k : Nat} {msg : DecodedMessage} (pullResult : PullResult) (delivered : DecodedMessage)
      (hseen : Seen consumerGroup projectGroupPrefix pulled k msg)
      (hdelivered : delivered.toMessage = returned (newMsg consumerGroup msg.toMessage)) :
      Seen consumerGroup projectGroupPrefix pulled (k + 1)
        (seenAs consumerGroup projectGroupPrefix pullResult delivered)

/-- The properties that the client writes itself. -/
def internalProperties : List StdString :=
  [Message.propertyRetryTopic, Message.propertyMinOffset, Message.propertyMaxOffset]

/-- The user's properties have names, and neither `NUL` nor a separator in a name or a value. -/
def SeparableUserProperties (msg : Message) : Prop :=
  ∀ name value, msg.properties[name]? = some value → name ∉ internalProperties →
    MessageDecoder.SeparableEntry (name, value)

/-- The same topic, body, flag and user properties. -/
structure SameMessage (original msg : Message) : Prop where
  topic : msg.topic = original.topic
  body : msg.body = original.body
  flag : msg.flag = original.flag
  properties : ∀ name, name ∉ internalProperties →
    msg.properties[name]? = original.properties[name]?

/-! ### One round -/

section Round

variable {consumerGroup projectGroupPrefix : StdString} {pullResult : PullResult}

/-- A number may be the value of a property. -/
theorem separable_intDigits (n : Int) : MessageDecoder.Separable (Base.intDigits n) := by
  intro b hb
  obtain ⟨-, -, hle⟩ := Base.Json.plainString_intDigits n b hb
  refine ⟨?_, ?_, ?_⟩ <;> rintro rfl <;> exact absurd hle (by decide)

theorem propertyRetryTopic_ne_nil : Message.propertyRetryTopic ≠ [] := by decide

theorem separable_propertyRetryTopic : MessageDecoder.Separable Message.propertyRetryTopic := by
  decide

/-- The properties of a pulled message are those of the record, with the offsets of the pull. -/
theorem getElem?_finishMessage (msg : DecodedMessage) (name : StdString) :
    (PullAPIWrapper.finishMessage projectGroupPrefix pullResult msg).properties[name]? =
      if Message.propertyMaxOffset = name then some (Base.intDigits pullResult.maxOffset)
      else if Message.propertyMinOffset = name then some (Base.intDigits pullResult.minOffset)
      else msg.properties[name]? := by
  simp [PullAPIWrapper.finishMessage, Message.putProperty, Std.ExtTreeMap.getElem?_insert]

theorem topic_finishMessage (hblank : isBlank projectGroupPrefix = true) (msg : DecodedMessage) :
    (PullAPIWrapper.finishMessage projectGroupPrefix pullResult msg).topic = msg.topic := by
  simp [PullAPIWrapper.finishMessage, Message.putProperty, hblank]

theorem properties_resetMessage (msg : DecodedMessage) :
    (resetMessage consumerGroup msg).properties = msg.properties := by
  unfold resetMessage
  dsimp only
  split <;> rfl

theorem body_resetMessage (msg : DecodedMessage) :
    (resetMessage consumerGroup msg).body = msg.body := by
  unfold resetMessage
  dsimp only
  split <;> rfl

theorem flag_resetMessage (msg : DecodedMessage) :
    (resetMessage consumerGroup msg).flag = msg.flag := by
  unfold resetMessage
  dsimp only
  split <;> rfl

/-- The topic is reset to the value of the property, if there is one. -/
theorem topic_resetMessage (msg : DecodedMessage) : (resetMessage consumerGroup msg).topic =
    if msg.getProperty Message.propertyRetryTopic ≠ [] ∧
        msg.topic = getRetryTopic consumerGroup then
      msg.getProperty Message.propertyRetryTopic
    else msg.topic := by
  unfold resetMessage
  by_cases hne : msg.getProperty Message.propertyRetryTopic = []
  · simp [hne]
  · by_cases htopic : msg.topic = getRetryTopic consumerGroup
    · simp [hne, htopic]
    · have hother : ¬ getRetryTopic consumerGroup = msg.topic := fun h ↦ htopic h.symm
      simp [hne, htopic, hother]

/-- All entries but the topic are such that the property text can hold them. -/
def SeparableApartFromTopic (msg : Message) : Prop :=
  ∀ name value, msg.properties[name]? = some value → name ≠ Message.propertyRetryTopic →
    MessageDecoder.SeparableEntry (name, value)

/-- A copy whose topic can be a value comes back with its properties. -/
theorem properties_returned {msg : Message} (huser : SeparableApartFromTopic msg)
    (htopic : MessageDecoder.Separable msg.topic) :
    (returned (newMsg consumerGroup msg)).properties =
      msg.properties.insert Message.propertyRetryTopic msg.topic := by
  have hproperties : (newMsg consumerGroup msg).properties =
      msg.properties.insert Message.propertyRetryTopic msg.topic := rfl
  have hentries : ∀ entry ∈ (newMsg consumerGroup msg).properties.toList,
      MessageDecoder.SeparableEntry entry := by
    rintro ⟨name, value⟩ hentry
    have hget := Std.ExtTreeMap.mem_toList_iff_getElem?_eq_some.mp hentry
    rw [hproperties] at hget
    simp only [Std.ExtTreeMap.getElem?_insert, Std.LawfulEqCmp.compare_eq_iff_eq] at hget
    split at hget
    · next hname =>
      cases hget
      rw [← hname]
      exact ⟨propertyRetryTopic_ne_nil, separable_propertyRetryTopic, htopic⟩
    · next hname => exact huser name value hget (Ne.symm hname)
  have hpos : (messageProperties2String (newMsg consumerGroup msg).properties).length > 0 := by
    apply Nat.pos_of_ne_zero
    rw [Ne, MessageDecoder.length_messageProperties2String_eq_zero, hproperties]
    simp
  unfold returned
  dsimp only
  rw [if_pos hpos,
    MessageDecoder.cstr_eq_self (MessageDecoder.zero_notMem_messageProperties2String hentries),
    MessageDecoder.string2messageProperties_messageProperties2String hentries, hproperties]

/-- Whatever comes back as the topic to reset to could be a value. -/
theorem separable_retryTopic_returned (msg : Message) :
    MessageDecoder.Separable ((returned msg).getProperty Message.propertyRetryTopic) := by
  unfold Message.getProperty
  cases hget : (returned msg).properties[Message.propertyRetryTopic]? with
  | none => exact fun b hb ↦ absurd hb List.not_mem_nil
  | some value =>
    unfold returned at hget
    dsimp only at hget
    split at hget
    · apply MessageDecoder.separable_of_string2messageProperties _ propertyRetryTopic_ne_nil hget
      intro hzero
      have := List.mem_takeWhile_imp hzero
      simp at this
    · have hnone : MessageDecoder.defaultProperties[Message.propertyRetryTopic]? = none := by decide
      rw [hnone] at hget
      cases hget

theorem topic_seenAs (hblank : isBlank projectGroupPrefix = true) (msg : DecodedMessage) :
    (seenAs consumerGroup projectGroupPrefix pullResult msg).topic =
      if msg.getProperty Message.propertyRetryTopic ≠ [] ∧
          msg.topic = getRetryTopic consumerGroup then
        msg.getProperty Message.propertyRetryTopic
      else msg.topic := by
  have hmax : Message.propertyMaxOffset ≠ Message.propertyRetryTopic := by decide
  have hmin : Message.propertyMinOffset ≠ Message.propertyRetryTopic := by decide
  have hproperty : (PullAPIWrapper.finishMessage projectGroupPrefix pullResult msg).getProperty
      Message.propertyRetryTopic = msg.getProperty Message.propertyRetryTopic := by
    simp only [Message.getProperty, getElem?_finishMessage, if_neg hmax, if_neg hmin]
  rw [seenAs, topic_resetMessage, topic_finishMessage hblank, hproperty]

theorem getElem?_seenAs (msg : DecodedMessage) (name : StdString) :
    (seenAs consumerGroup projectGroupPrefix pullResult msg).properties[name]? =
      if Message.propertyMaxOffset = name then some (Base.intDigits pullResult.maxOffset)
      else if Message.propertyMinOffset = name then some (Base.intDigits pullResult.minOffset)
      else msg.properties[name]? := by
  rw [seenAs, properties_resetMessage, getElem?_finishMessage]

theorem body_seenAs (msg : DecodedMessage) :
    (seenAs consumerGroup projectGroupPrefix pullResult msg).body = msg.body :=
  body_resetMessage _

theorem flag_seenAs (msg : DecodedMessage) :
    (seenAs consumerGroup projectGroupPrefix pullResult msg).flag = msg.flag :=
  flag_resetMessage _

/-- The offsets of the pull are entries that the property text can hold, too. -/
theorem userSeparable_seenAs {msg : DecodedMessage}
    (huser : SeparableUserProperties msg.toMessage) :
    SeparableApartFromTopic (seenAs consumerGroup projectGroupPrefix pullResult msg).toMessage := by
  have hmax : Message.propertyMaxOffset ≠ [] ∧
      MessageDecoder.Separable Message.propertyMaxOffset := by decide
  have hmin : Message.propertyMinOffset ≠ [] ∧
      MessageDecoder.Separable Message.propertyMinOffset := by decide
  intro name value hget hname
  rw [getElem?_seenAs] at hget
  split at hget
  · next heq =>
    cases hget
    rw [← heq]
    exact ⟨hmax.1, hmax.2, separable_intDigits _⟩
  · next hnotMax =>
    split at hget
    · next heq =>
      cases hget
      rw [← heq]
      exact ⟨hmin.1, hmin.2, separable_intDigits _⟩
    · next hnotMin =>
      apply huser name value hget
      simp only [internalProperties, List.mem_cons, List.not_mem_nil, or_false, not_or]
      exact ⟨hname, Ne.symm hnotMin, Ne.symm hnotMax⟩

end Round

/-! ### Any number of rounds -/

section Rounds

variable {consumerGroup projectGroupPrefix : StdString} {pulled : DecodedMessage}

/-- What is kept from round to round. -/
structure Kept (pulled msg : DecodedMessage) : Prop where
  same : SameMessage pulled.toMessage msg.toMessage
  separable : SeparableApartFromTopic msg.toMessage

/-- The first round shows the message as it was pulled. -/
theorem kept_first (hblank : isBlank projectGroupPrefix = true)
    (htopic : pulled.topic ≠ getRetryTopic consumerGroup)
    (huser : SeparableUserProperties pulled.toMessage) (pullResult : PullResult) :
    Kept pulled (seenAs consumerGroup projectGroupPrefix pullResult pulled) := by
  refine ⟨⟨?_, body_seenAs pulled, flag_seenAs pulled, ?_⟩, userSeparable_seenAs huser⟩
  · rw [topic_seenAs hblank, if_neg (fun h ↦ htopic h.2)]
  · intro name hname
    simp only [internalProperties, List.mem_cons, List.not_mem_nil, or_false, not_or] at hname
    rw [getElem?_seenAs, if_neg (Ne.symm hname.2.2), if_neg (Ne.symm hname.2.1)]

/-- A round shows the message of the round before. -/
theorem kept_again (hblank : isBlank projectGroupPrefix = true) {msg delivered : DecodedMessage}
    (hbody : pulled.body ≠ some []) (hnonempty : pulled.topic ≠ [])
    (hseparable : MessageDecoder.Separable pulled.topic) (h : Kept pulled msg)
    (hdelivered : delivered.toMessage = returned (newMsg consumerGroup msg.toMessage))
    (pullResult : PullResult) :
    Kept pulled (seenAs consumerGroup projectGroupPrefix pullResult delivered) := by
  have htopic : msg.topic = pulled.topic := h.same.topic
  have hproperties : delivered.properties =
      msg.properties.insert Message.propertyRetryTopic pulled.topic := by
    rw [hdelivered, properties_returned h.separable (htopic ▸ hseparable), htopic]
  have hdeliveredTopic : delivered.topic = getRetryTopic consumerGroup := by rw [hdelivered]; rfl
  have hretryTopic : delivered.getProperty Message.propertyRetryTopic = pulled.topic := by
    rw [Message.getProperty, hproperties, Std.ExtTreeMap.getElem?_insert_self, Option.getD_some]
  refine ⟨⟨?_, ?_, ?_, ?_⟩, userSeparable_seenAs ?_⟩
  · rw [topic_seenAs hblank, hretryTopic, if_pos ⟨hnonempty, hdeliveredTopic⟩]
  · have hcopied : delivered.body =
        if (msg.body.getD []).length > 0 then msg.body else none := by
      rw [hdelivered]
      rfl
    rw [body_seenAs, hcopied, h.same.body]
    cases hpulled : pulled.body with
    | none => rfl
    | some body =>
      rw [hpulled] at hbody
      have hpos : 0 < body.length := List.length_pos_of_ne_nil fun hnil ↦ hbody (by rw [hnil])
      exact if_pos hpos
  · rw [flag_seenAs, hdelivered]
    exact h.same.flag
  · intro name hname
    rw [← h.same.properties name hname]
    simp only [internalProperties, List.mem_cons, List.not_mem_nil, or_false, not_or] at hname
    rw [getElem?_seenAs, if_neg (Ne.symm hname.2.2), if_neg (Ne.symm hname.2.1), hproperties]
    simp [Std.ExtTreeMap.getElem?_insert, Ne.symm hname.1]
  · intro name value hget hname
    simp only [internalProperties, List.mem_cons, List.not_mem_nil, or_false, not_or] at hname
    rw [hproperties] at hget
    simp only [Std.ExtTreeMap.getElem?_insert, Std.LawfulEqCmp.compare_eq_iff_eq,
      if_neg (Ne.symm hname.1)] at hget
    exact h.separable name value hget hname.1

/-- Whatever topic the listener sees after one round is the retry topic, or could be a value. -/
theorem topic_seen_again (hblank : isBlank projectGroupPrefix = true)
    {msg delivered : DecodedMessage} (pullResult : PullResult)
    (hdelivered : delivered.toMessage = returned (newMsg consumerGroup msg.toMessage)) :
    (seenAs consumerGroup projectGroupPrefix pullResult delivered).topic =
        getRetryTopic consumerGroup ∨
      (seenAs consumerGroup projectGroupPrefix pullResult delivered).topic ≠ [] ∧
        MessageDecoder.Separable
          (seenAs consumerGroup projectGroupPrefix pullResult delivered).topic := by
  rw [topic_seenAs hblank]
  split_ifs with hreset
  · refine Or.inr ⟨hreset.1, ?_⟩
    rw [hdelivered]
    exact separable_retryTopic_returned _
  · exact Or.inl (by rw [hdelivered]; rfl)

/-- A message of another topic that goes through the retry topic any number of times is seen with
its topic, body, flag and user properties in every round exactly when its topic is not empty and
could be the value of a property. -/
theorem same_in_every_round_iff (hblank : isBlank projectGroupPrefix = true)
    (htopic : pulled.topic ≠ getRetryTopic consumerGroup) (hbody : pulled.body ≠ some [])
    (huser : SeparableUserProperties pulled.toMessage) :
    (∀ k msg, Seen consumerGroup projectGroupPrefix pulled k msg →
        SameMessage pulled.toMessage msg.toMessage) ↔
      pulled.topic ≠ [] ∧ MessageDecoder.Separable pulled.topic := by
  constructor
  · intro hsame
    let pullResult : PullResult := ⟨.found, 0, 0, 0, 0⟩
    let first := seenAs consumerGroup projectGroupPrefix pullResult pulled
    let delivered : DecodedMessage :=
      { pulled with toMessage := returned (newMsg consumerGroup first.toMessage) }
    have hagain := hsame 1 _ (.again pullResult delivered (.first pullResult) rfl)
    have hreturned : delivered.toMessage = returned (newMsg consumerGroup first.toMessage) := rfl
    have hseen := topic_seen_again hblank pullResult hreturned
    have hpulled : (seenAs consumerGroup projectGroupPrefix pullResult delivered).topic =
        pulled.topic := hagain.topic
    rw [hpulled] at hseen
    exact hseen.resolve_left htopic
  · rintro ⟨hnonempty, hseparable⟩ k msg hseen
    have hkept : Kept pulled msg := by
      induction hseen with
      | first pullResult => exact kept_first hblank htopic huser pullResult
      | again pullResult delivered _ hdelivered ih =>
        exact kept_again hblank hbody hnonempty hseparable ih hdelivered pullResult
    exact hkept.same

end Rounds

/-! ### Examples of messages -/

/-- A message of some topic with nothing but a body. -/
def sampleOf (topic : StdString) : DecodedMessage := { PullAPIWrapper.untagged with topic }

theorem separable_sampleOf (topic : StdString) :
    SeparableUserProperties (sampleOf topic).toMessage := by
  intro name value hget _
  have hwait : str "WAIT" ≠ [] ∧ MessageDecoder.Separable (str "WAIT") ∧
      MessageDecoder.Separable (str "true") := by decide
  have hproperties : (sampleOf topic).properties[name]? =
      if str "WAIT" = name then some (str "true") else none := by
    change (Std.ExtTreeMap.insert (∅ : Std.ExtTreeMap StdString StdString) (str "WAIT")
      (str "true"))[name]? = _
    simp [Std.ExtTreeMap.getElem?_insert]
  rw [hproperties] at hget
  split at hget
  · next heq =>
    cases hget
    rw [← heq]
    exact hwait
  · cases hget

/-- A message of topic `t` goes round twice. -/
theorem same_after_two_rounds :
    ∃ msg, Seen (str "g") [] (sampleOf (str "t")) 2 msg ∧
      SameMessage (sampleOf (str "t")).toMessage msg.toMessage := by
  let pullResult : PullResult := ⟨.found, 0, 0, 0, 0⟩
  let back (msg : DecodedMessage) : DecodedMessage :=
    { msg with toMessage := returned (newMsg (str "g") msg.toMessage) }
  have hseen : Seen (str "g") [] (sampleOf (str "t")) 2 _ :=
    .again pullResult (back _) (.again pullResult (back _) (.first pullResult) rfl) rfl
  have hseparable : MessageDecoder.Separable (str "t") := by decide
  exact ⟨_, hseen, (same_in_every_round_iff rfl (by decide) (by decide)
    (separable_sampleOf (str "t"))).mpr ⟨by decide, hseparable⟩ 2 _ hseen⟩

/-- A topic with a separator in it is lost: the listener sees the retry topic. -/
theorem separator_in_topic_lost :
    let pulled := sampleOf [97, 1, 98]
    pulled.topic ≠ getRetryTopic (str "g") ∧ pulled.body = some (str "x") ∧
      SeparableUserProperties pulled.toMessage ∧
      ¬ ∀ k msg, Seen (str "g") [] pulled k msg →
        SameMessage pulled.toMessage msg.toMessage := by
  intro pulled
  refine ⟨by decide, by decide, separable_sampleOf _, fun hsame ↦ ?_⟩
  let pullResult : PullResult := ⟨.found, 0, 0, 0, 0⟩
  let first := seenAs (str "g") [] pullResult pulled
  let delivered : DecodedMessage :=
    { pulled with toMessage := returned (newMsg (str "g") first.toMessage) }
  have hagain := hsame 1 _ (.again pullResult delivered (.first pullResult) rfl)
  have htopic : (seenAs (str "g") [] pullResult delivered).topic = [97, 1, 98] := hagain.topic
  have hretry : (seenAs (str "g") [] pullResult delivered).topic = getRetryTopic (str "g") := by
    decide
  rw [hretry] at htopic
  exact absurd htopic (by decide)

end RetryTopic
end RocketMQ
