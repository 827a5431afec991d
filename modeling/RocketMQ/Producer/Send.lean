import RocketMQ.Common.Validators
import RocketMQ.Factory.BrokerTable
import RocketMQ.Producer.TopicPublishInfo
import RocketMQ.Transport.RemotingCommand

/-!
# A synchronous send

`DefaultMQProducerImpl::sendDefaultImpl` with `SYNC`, `src/producer/DefaultMQProducerImpl.cpp`,
and the API calls of `src/MQClientAPIImpl.cpp` below it. What happens at an attempt, on the
network and to the clock, is a parameter; what was sent and what came back is kept in a log.
The hooks of the producer see copies and their exceptions are caught, so they are left out.
-/

namespace RocketMQ

/-- The settings of a producer that sending reads, and its service state. -/
structure DefaultMQProducer where
  serviceState : ServiceState
  producerGroup : StdString
  projectGroupPrefix : StdString
  createTopicKey : StdString
  defaultTopicQueueNums : Int
  sendMsgTimeout : Int
  compressMsgBodyOverHowmuch : Int
  compressLevel : Int
  maxMessageSize : Int
  retryAnotherBrokerWhenNotStoreOK : Bool

/-- `SendStatus`, `include/SendResult.h:26–36`. -/
inductive SendStatus where
  | sendOk
  | flushDiskTimeout
  | flushSlaveTimeout
  | slaveNotAvailable
deriving DecidableEq

/-- `include/SendResult.h`. The default constructor leaves the numbers without a value, here
`none`. -/
structure SendResult where
  sendStatus : SendStatus
  msgId : StdString
  messageQueue : Option MessageQueue
  queueOffset : Option Int
deriving DecidableEq

/-- `SendMessageRequestHeader`, without `reconsumeTimes`, which a send leaves unset. -/
structure SendMessageRequestHeader where
  producerGroup : StdString
  topic : StdString
  defaultTopic : StdString
  defaultTopicQueueNums : Int
  queueId : Int
  sysFlag : Nat
  bornTimestamp : Int
  flag : Int
  properties : StdString
deriving DecidableEq

/-- A request with the code `SEND_MESSAGE_VALUE`, and where it goes. -/
structure SendMessageRequest where
  addr : StdString
  header : SendMessageRequestHeader
  body : Option StdString
deriving DecidableEq

/-- `SendMessageResponseHeader`. -/
structure SendMessageResponseHeader where
  msgId : StdString
  queueId : Int
  queueOffset : Int

/-- A request that was made, and what `invokeSync` returned for it. -/
structure SentMessage where
  request : SendMessageRequest
  reply : SyncReply SendMessageResponseHeader

/-- What happens at one attempt. -/
structure SendAttempt where
  lookup : BrokerLookup
  bornTimestamp : Int
  behaviour : BrokerBehaviour SendMessageResponseHeader
  endTimestamp : Int

/-- `UtilAll::compress` with a level; `none` when it fails. -/
abbrev Compress := StdString → Int → Option StdString

/-! ### The API layer -/

namespace SendResult

/-- `src/common/SendResult.cpp:20–23`. -/
def default : SendResult := ⟨.sendOk, [], none, none⟩

/-- `src/common/SendResult.cpp:25–43`. -/
def make (sendStatus : SendStatus) (msgId : StdString) (messageQueue : MessageQueue)
    (queueOffset : Int) (projectGroupPrefix : StdString) : SendResult :=
  let topic :=
    if !isBlank projectGroupPrefix then
      VirtualEnvUtil.clearProjectGroup messageQueue.topic projectGroupPrefix
    else messageQueue.topic
  ⟨sendStatus, msgId, some { messageQueue with topic }, some queueOffset⟩

end SendResult

namespace MQClientAPIImpl

/-- The inner switch of `processSendResponse`, with the codes that reach it. -/
def sendStatusOf (code : Int) : Option SendStatus :=
  if code = flushDiskTimeoutValue then some .flushDiskTimeout
  else if code = flushSlaveTimeoutValue then some .flushSlaveTimeout
  else if code = slaveNotAvailableValue then some .slaveNotAvailable
  else if code = successValue then some .sendOk
  else none

/-- `src/MQClientAPIImpl.cpp:1062–1119`; the `SendResult*` may be `NULL`. -/
def processSendResponse (projectGroupPrefix brokerName topic : StdString)
    (response : SyncReply SendMessageResponseHeader) :
    Option (Except MQException (Option SendResult)) :=
  match response with
  | none => some (.ok none)
  | some response =>
    match sendStatusOf response.code with
    | some sendStatus =>
      response.customHeader.map fun header ↦
        .ok (some (.make sendStatus header.msgId ⟨topic, brokerName, header.queueId⟩
          header.queueOffset projectGroupPrefix))
    | none => some (.error (.client response.remark response.code))

/-- What `sendMessage` makes of the `SendResult*`: a `NULL` leaves the default result,
`src/MQClientAPIImpl.cpp:213,226–234,1041–1049`. -/
def sendMessageSync (projectGroupPrefix brokerName topic : StdString)
    (response : SyncReply SendMessageResponseHeader) : Option (Except MQException SendResult) :=
  match processSendResponse projectGroupPrefix brokerName topic response with
  | none => none
  | some (.error e) => some (.error e)
  | some (.ok none) => some (.ok .default)
  | some (.ok (some sendResult)) => some (.ok sendResult)

section Results

variable (projectGroupPrefix brokerName topic : StdString)
  {response : RemotingCommand SendMessageResponseHeader}

/-- Without a reply the default result stands. -/
theorem sendMessageSync_unanswered :
    sendMessageSync projectGroupPrefix brokerName topic none = some (.ok .default) := rfl

/-- A reply with any other code is an `MQClientException`. -/
theorem sendMessageSync_refused (h : sendStatusOf response.code = none) :
    sendMessageSync projectGroupPrefix brokerName topic (some response) =
      some (.error (.client response.remark response.code)) := by
  simp [sendMessageSync, processSendResponse, h]

/-- A reply whose header was not decoded is read through `NULL`. -/
theorem sendMessageSync_unreadable {sendStatus : SendStatus}
    (h : sendStatusOf response.code = some sendStatus) (hheader : response.customHeader = none) :
    sendMessageSync projectGroupPrefix brokerName topic (some response) = none := by
  simp [sendMessageSync, processSendResponse, h, hheader]

/-- Any other reply is turned into a result. -/
theorem sendMessageSync_stored {sendStatus : SendStatus} {header : SendMessageResponseHeader}
    (h : sendStatusOf response.code = some sendStatus)
    (hheader : response.customHeader = some header) :
    sendMessageSync projectGroupPrefix brokerName topic (some response) =
      some (.ok (.make sendStatus header.msgId ⟨topic, brokerName, header.queueId⟩
        header.queueOffset projectGroupPrefix)) := by
  simp [sendMessageSync, processSendResponse, h, hheader]

/-- The code `SUCCESS_VALUE`, and no other, makes a `SEND_OK`. -/
theorem sendStatusOf_eq_sendOk_iff {code : Int} :
    sendStatusOf code = some .sendOk ↔ code = successValue := by
  unfold sendStatusOf
  split_ifs with h₁ h₂ h₃ h₄ <;> simp_all [successValue, flushDiskTimeoutValue,
    flushSlaveTimeoutValue, slaveNotAvailableValue]

end Results

/-- `src/MQClientAPIImpl.cpp:190–240` with `SYNC`: the message as it is left, the request with
its reply, and the result. -/
def sendMessage (projectGroupPrefix addr brokerName : StdString) (msg : Message)
    (requestHeader : SendMessageRequestHeader)
    (behaviour : BrokerBehaviour SendMessageResponseHeader) :
    Message × SentMessage × Option (Except MQException SendResult) :=
  let withGroup (name : StdString) : StdString :=
    if !isBlank projectGroupPrefix then
      VirtualEnvUtil.buildWithProjectGroup name projectGroupPrefix
    else name
  let msg := { msg with topic := withGroup msg.topic }
  let header := { requestHeader with
    producerGroup := withGroup requestHeader.producerGroup
    topic := withGroup requestHeader.topic }
  let reply := behaviour.invokeSync
  (msg, ⟨⟨addr, header, msg.body⟩, reply⟩,
    sendMessageSync projectGroupPrefix brokerName msg.topic reply)

end MQClientAPIImpl

/-! ### The producer -/

namespace DefaultMQProducer

/-- `src/producer/DefaultMQProducerImpl.cpp:686–707`. -/
def tryToCompressMessage (producer : DefaultMQProducer) (compress : Compress) (msg : Message) :
    Message × Bool :=
  match msg.body with
  | none => (msg, false)
  | some body =>
    if msg.bodyLen ≥ producer.compressMsgBodyOverHowmuch then
      match compress body producer.compressLevel with
      | some out => (msg.setBody out, true)
      | none => (msg, false)
    else (msg, false)

/-- What an attempt leaves behind: the message, the request if one was made, and the result. -/
structure KernelOutcome where
  msg : Message
  sent : List SentMessage
  result : Option (Except MQException SendResult)

/-- `src/producer/DefaultMQProducerImpl.cpp:534–639`. -/
def sendKernelImpl (producer : DefaultMQProducer) (compress : Compress) (attempt : SendAttempt)
    (msg : Message) (mq : MessageQueue) : KernelOutcome :=
  let brokerAddr := attempt.lookup.inPublish mq.brokerName
  if !brokerAddr.isEmpty then
    let (msg, compressed) := producer.tryToCompressMessage compress msg
    let compressedFlag := if compressed then 1 else 0
    let transactionFlag :=
      if msg.getProperty Message.propertyTransactionPrepared = str "true" then 4 else 0
    let requestHeader : SendMessageRequestHeader :=
      { producerGroup := producer.producerGroup
        topic := msg.topic
        defaultTopic := producer.createTopicKey
        defaultTopicQueueNums := producer.defaultTopicQueueNums
        queueId := mq.queueId
        sysFlag := compressedFlag ||| transactionFlag
        bornTimestamp := attempt.bornTimestamp
        flag := msg.flag
        properties := messageProperties2String msg.properties }
    let (msg, sent, result) := MQClientAPIImpl.sendMessage producer.projectGroupPrefix brokerAddr
      mq.brokerName msg requestHeader attempt.behaviour
    ⟨msg, [sent], result⟩
  else
    ⟨msg, [], some (.error
      (.client (str "The broker[" ++ mq.brokerName ++ str "] not exist") (-1)))⟩

/-- Without an address nothing is sent. -/
theorem sendKernelImpl_unknown {producer : DefaultMQProducer} {compress : Compress}
    {attempt : SendAttempt} {msg : Message} {mq : MessageQueue}
    (h : attempt.lookup.inPublish mq.brokerName = []) :
    producer.sendKernelImpl compress attempt msg mq =
      ⟨msg, [], some (.error
        (.client (str "The broker[" ++ mq.brokerName ++ str "] not exist") (-1)))⟩ := by
  simp [sendKernelImpl, h]

/-- The local variables of `sendDefaultImpl`, and the log. A `mq` that is `NULL` counts as one
with an empty broker name. -/
structure SendState where
  msg : Message
  info : TopicPublishInfo
  lastBrokerName : StdString
  sendResult : SendResult
  endTimestamp : Int
  log : List SentMessage

/-- What a send leaves behind. -/
structure SendOutcome where
  msg : Message
  log : List SentMessage
  result : Option (Except MQException SendResult)

/-- The exception after the loop. -/
def retriedManyTimes : MQException := .client (str "Retry many times, still failed") (-1)

/-- The broker codes after which the source tries again, `DefaultMQProducerImpl.cpp:494–499`. -/
def retryCodes : List Int :=
  [topicNotExistValue, serviceNotAvailableValue, systemErrorValue, noPermissionValue]

/-- The loop of `sendDefaultImpl` over the attempts that are left,
`src/producer/DefaultMQProducerImpl.cpp:449–515`. -/
def sendLoop (producer : DefaultMQProducer) (compress : Compress) (beginTimestamp : Int) :
    List SendAttempt → SendState → SendOutcome
  | [], s => ⟨s.msg, s.log, some (.error retriedManyTimes)⟩
  | attempt :: rest, s =>
    if toInt32 (s.endTimestamp - beginTimestamp) < producer.sendMsgTimeout then
      match s.info.selectOneMessageQueue s.lastBrokerName with
      | (none, _) => ⟨s.msg, s.log, some (.error retriedManyTimes)⟩
      | (some mq, info) =>
        let kernel := producer.sendKernelImpl compress attempt s.msg mq
        let log := s.log ++ kernel.sent
        let next : SendState :=
          { s with
            msg := kernel.msg
            info
            lastBrokerName := mq.brokerName
            endTimestamp := attempt.endTimestamp
            log }
        match kernel.result with
        | none => ⟨kernel.msg, log, none⟩
        | some (.ok sendResult) =>
          if sendResult.sendStatus ≠ .sendOk ∧ producer.retryAnotherBrokerWhenNotStoreOK then
            sendLoop producer compress beginTimestamp rest { next with sendResult }
          else ⟨kernel.msg, log, some (.ok sendResult)⟩
        | some (.error e) =>
          match e.type with
          | .remotingException | .mqClientException =>
            sendLoop producer compress beginTimestamp rest next
          | .mqBrokerException =>
            if e.error ∈ retryCodes then sendLoop producer compress beginTimestamp rest next
            else ⟨kernel.msg, log, some (.ok s.sendResult)⟩
          | .interruptedException | .unknownHostException => ⟨kernel.msg, log, some (.error e)⟩
    else ⟨s.msg, s.log, some (.error retriedManyTimes)⟩

/-- `src/producer/DefaultMQProducerImpl.cpp:653–659`. -/
def makeSureStateOK (producer : DefaultMQProducer) : Except MQException Unit :=
  if producer.serviceState ≠ .running then
    .error (.client (str "The producer service state not OK, ") (-1))
  else .ok ()

/-- `src/producer/DefaultMQProducerImpl.cpp:432–532`: `info` is what
`tryToFindTopicPublishInfo` returns, the `k`-th attempt is `attempts k`. -/
def sendDefaultImpl (producer : DefaultMQProducer) (compress : Compress)
    (namesrvAddrs : List StdString) (info : TopicPublishInfo) (beginTimestamp : Int)
    (attempts : Nat → SendAttempt) (msg : Message) : SendOutcome :=
  match producer.makeSureStateOK with
  | .error e => ⟨msg, [], some (.error e)⟩
  | .ok () =>
    match Validators.checkMessage msg producer.maxMessageSize with
    | .error e => ⟨msg, [], some (.error e)⟩
    | .ok () =>
      if info.ok then
        producer.sendLoop compress beginTimestamp ((List.range 3).map attempts)
          ⟨msg, info, [], .default, beginTimestamp, []⟩
      else if namesrvAddrs.isEmpty then
        ⟨msg, [], some (.error (.client (str "No name server address, please set it.") (-1)))⟩
      else ⟨msg, [], some (.error (.client (str "No route info of this topic, ") (-1)))⟩

end DefaultMQProducer
end RocketMQ
