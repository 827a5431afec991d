import RocketMQ.Common.MQException
import RocketMQ.Consumer.OffsetStore

/-!
# One pull of a push consumer

`DefaultMQPushConsumerImpl::pullMessage` with what it calls, and the callback that takes the
reply. A pull ends by saying where its `PullRequest` goes next. The fields of the request
header and the pulled messages decide nothing here and are left out.
-/

namespace RocketMQ

/-- `src/consumer/PullRequest.h`, with `isDropped` of its `ProcessQueue`. -/
structure PullRequest where
  consumerGroup : StdString
  messageQueue : MessageQueue
  nextOffset : Int
  dropped : Bool

/-- The settings of a push consumer that pulling reads. -/
structure PushConsumer where
  consumerGroup : StdString
  projectGroupPrefix : StdString
  consumeOrderly : Bool
  pullThresholdForQueue : Int
  consumeConcurrentlyMaxSpan : Int
  pullInterval : Int

/-- The fields of the client that pulling reads or writes. -/
structure PullClient where
  consumerTable : List StdString
  serviceState : ServiceState
  pause : Bool
  offsetStore : RemoteBrokerOffsetStore
  pullFromWhichNodeTable : Std.ExtTreeMap MessageQueue Int

/-- What a pull finds out about its `ProcessQueue`, the subscription and the network. -/
structure PullInput where
  msgCount : Int
  maxSpan : Int
  subscription : List StdString
  lookup : BrokerLookup
  connected : StdString → Bool

/-! ### Delays, `src/consumer/DefaultMQPushConsumerImpl.cpp:18–21` -/

def pullTimeDelayMillsWhenException : Int := 3000
def pullTimeDelayMillsWhenFlowControl : Int := 100
def pullTimeDelayMillsWhenSuspend : Int := 1000

/-- Where a pull leaves its `PullRequest`; `notConnected` is the `-1` of `invokeAsync`, which
`pullMessageAsync` does not look at. -/
inductive PullOutcome where
  | dropped
  | noConsumer
  | later (timeDelay : Int)
  | notConnected
  | invoked
deriving DecidableEq

/-! ### The pull -/

/-- `src/consumer/PullAPIWrapper.cpp:162–171`. -/
def PullClient.recalculatePullFromWhichNode (client : PullClient) (mq : MessageQueue) : Int :=
  (client.pullFromWhichNodeTable[mq]?).getD masterId

/-- The broker a pull goes to. -/
def PullClient.pullAddr (client : PullClient) (input : PullInput) (mq : MessageQueue) :
    StdString :=
  (input.lookup.inSubscribe mq.brokerName (client.recalculatePullFromWhichNode mq)).brokerAddr

/-- `src/consumer/PullAPIWrapper.cpp:173–230`, `src/MQClientAPIImpl.cpp:1121–1128` and
`src/transport/TcpRemotingClient.cpp:103–119`, up to the entry in the response table. -/
def PullClient.pullKernelImpl (client : PullClient) (input : PullInput) (mq : MessageQueue) :
    Except MQException PullOutcome :=
  let brokerAddr := client.pullAddr input mq
  if !brokerAddr.isEmpty then
    .ok (if input.connected brokerAddr then .invoked else .notConnected)
  else .error (.client (str "The broker[" ++ mq.brokerName ++ str "] not exist") (-1))

/-- `DefaultMQPushConsumerImpl::pullMessage`,
`src/consumer/DefaultMQPushConsumerImpl.cpp:256–364`. -/
def PushConsumer.pullMessageImpl (consumer : PushConsumer) (client : PullClient)
    (input : PullInput) (pullRequest : PullRequest) : PullOutcome :=
  if pullRequest.dropped then .dropped
  else if client.serviceState ≠ .running then .later pullTimeDelayMillsWhenException
  else if client.pause then .later pullTimeDelayMillsWhenSuspend
  else if input.msgCount > consumer.pullThresholdForQueue then
    .later pullTimeDelayMillsWhenFlowControl
  else if !consumer.consumeOrderly && input.maxSpan > consumer.consumeConcurrentlyMaxSpan then
    .later pullTimeDelayMillsWhenFlowControl
  else if pullRequest.messageQueue.topic ∉ input.subscription then
    .later pullTimeDelayMillsWhenException
  else
    match client.pullKernelImpl input pullRequest.messageQueue with
    | .ok outcome => outcome
    | .error _ => .later pullTimeDelayMillsWhenException

/-- `PullMessageService::pullMessage`, `src/consumer/PullMessageService.cpp:121–133`. -/
def PushConsumer.pullMessage (consumer : PushConsumer) (client : PullClient)
    (input : PullInput) (pullRequest : PullRequest) : PullOutcome :=
  if pullRequest.consumerGroup ∈ client.consumerTable then
    consumer.pullMessageImpl client input pullRequest
  else .noConsumer

/-- Nothing keeps a pull from being handed to a connection. -/
structure CanPull (consumer : PushConsumer) (client : PullClient) (input : PullInput)
    (pullRequest : PullRequest) : Prop where
  registered : pullRequest.consumerGroup ∈ client.consumerTable
  running : client.serviceState = .running
  notPaused : client.pause = false
  countWithin : input.msgCount ≤ consumer.pullThresholdForQueue
  spanWithin : consumer.consumeOrderly = true ∨
    input.maxSpan ≤ consumer.consumeConcurrentlyMaxSpan
  subscribed : pullRequest.messageQueue.topic ∈ input.subscription
  known : client.pullAddr input pullRequest.messageQueue ≠ []
  connected : input.connected (client.pullAddr input pullRequest.messageQueue) = true

instance (consumer : PushConsumer) (client : PullClient) (input : PullInput)
    (pullRequest : PullRequest) : Decidable (CanPull consumer client input pullRequest) :=
  decidable_of_iff (_ ∧ _ ∧ _ ∧ _ ∧ _ ∧ _ ∧ _ ∧ _)
    ⟨fun ⟨h₁, h₂, h₃, h₄, h₅, h₆, h₇, h₈⟩ ↦ ⟨h₁, h₂, h₃, h₄, h₅, h₆, h₇, h₈⟩,
      fun ⟨h₁, h₂, h₃, h₄, h₅, h₆, h₇, h₈⟩ ↦ ⟨h₁, h₂, h₃, h₄, h₅, h₆, h₇, h₈⟩⟩

/-- A pull of a queue in use reaches the response table exactly when nothing keeps it. -/
theorem pullMessage_eq_invoked_iff {consumer : PushConsumer} {client : PullClient}
    {input : PullInput} {pullRequest : PullRequest} (hd : pullRequest.dropped = false) :
    consumer.pullMessage client input pullRequest = .invoked ↔
      CanPull consumer client input pullRequest := by
  constructor
  · intro h
    unfold PushConsumer.pullMessage PushConsumer.pullMessageImpl at h
    split at h
    · next hgroup =>
      rw [hd] at h
      simp only [Bool.false_eq_true, if_false] at h
      split_ifs at h with hstate hpause hcount hspan hsub
      have hspan' : consumer.consumeOrderly = true ∨
          input.maxSpan ≤ consumer.consumeConcurrentlyMaxSpan := by
        cases hord : consumer.consumeOrderly
        · simp only [hord, Bool.not_false, Bool.true_and, decide_eq_true_eq] at hspan
          exact .inr (Int.not_lt.mp hspan)
        · exact .inl rfl
      unfold PullClient.pullKernelImpl at h
      cases haddr : client.pullAddr input pullRequest.messageQueue with
      | nil => simp [haddr] at h
      | cons c cs =>
        refine ⟨hgroup, not_not.mp hstate, by simpa using hpause, Int.not_lt.mp hcount, hspan',
          hsub, by simp [haddr], ?_⟩
        rw [haddr] at h ⊢
        cases hcon : input.connected (c :: cs)
        · simp [hcon] at h
        · rfl
    · cases h
  · intro h
    have hspan : ¬ ((!consumer.consumeOrderly &&
        decide (input.maxSpan > consumer.consumeConcurrentlyMaxSpan)) = true) := by
      rcases h.spanWithin with hord | hle
      · simp [hord]
      · simp [hle]
    rw [PushConsumer.pullMessage, if_pos h.registered, PushConsumer.pullMessageImpl]
    rw [if_neg (by simp [hd]), if_neg (not_not_intro h.running), if_neg (by simp [h.notPaused]),
      if_neg (Int.not_lt.mpr h.countWithin), if_neg hspan, if_neg (not_not_intro h.subscribed)]
    simp [PullClient.pullKernelImpl, h.known, h.connected]

/-! ### The reply -/

/-- `PullMessageResponseHeader`. -/
structure PullMessageResponseHeader where
  suggestWhichBrokerId : Int
  nextBeginOffset : Int
  minOffset : Int
  maxOffset : Int

/-- `PullStatus`. -/
inductive PullStatus where
  | found
  | noNewMsg
  | noMatchedMsg
  | offsetIllegal
deriving DecidableEq

/-- `PullResultExt`, without the messages. -/
structure PullResult where
  pullStatus : PullStatus
  nextBeginOffset : Int
  minOffset : Int
  maxOffset : Int
  suggestWhichBrokerId : Int

/-- The switch of `processPullResponse`. -/
def pullStatusOf (code : Int) : Option PullStatus :=
  if code = successValue then some .found
  else if code = pullNotFoundValue then some .noNewMsg
  else if code = pullRetryImmediatelyValue then some .noMatchedMsg
  else if code = pullOffsetMovedValue then some .offsetIllegal
  else none

/-- `src/MQClientAPIImpl.cpp:1130–1158`. -/
def MQClientAPIImpl.processPullResponse (response : RemotingCommand PullMessageResponseHeader) :
    Option (Except MQException PullResult) :=
  match pullStatusOf response.code with
  | none => some (.error (.broker response.remark response.code))
  | some pullStatus =>
    match response.customHeader with
    | none => none
    | some header =>
      some (.ok ⟨pullStatus, header.nextBeginOffset, header.minOffset, header.maxOffset,
        header.suggestWhichBrokerId⟩)

/-- How a `PullRequest` goes back to the service. -/
inductive ExecutePullRequest where
  | immediately
  | later (timeDelay : Int)
deriving DecidableEq

/-- `src/consumer/PullAPIWrapper.cpp:56–160`. The project group is taken off the topic of the
`PullRequest` itself. -/
def processPullResult (consumer : PushConsumer) (client : PullClient)
    (pullRequest : PullRequest) (result : PullResult) : PullClient × PullRequest :=
  let mq := pullRequest.messageQueue
  let table := client.pullFromWhichNodeTable.insert mq result.suggestWhichBrokerId
  let topic :=
    if result.pullStatus = .found ∧ !isBlank consumer.projectGroupPrefix then
      VirtualEnvUtil.clearProjectGroup mq.topic consumer.projectGroupPrefix
    else mq.topic
  ({ client with pullFromWhichNodeTable := table },
    { pullRequest with messageQueue := { mq with topic } })

/-- `src/consumer/DefaultMQPushConsumerImpl.cpp:247–254`. -/
def correctTagsOffset (store : RemoteBrokerOffsetStore) (pullRequest : PullRequest)
    (msgCount : Int) : RemoteBrokerOffsetStore :=
  if msgCount = 0 then store.updateOffset pullRequest.messageQueue pullRequest.nextOffset true
  else store

/-- The case `OFFSET_ILLEGAL`, `src/consumer/DefaultMQPushConsumerImpl.cpp:861–868`. -/
def fixNextOffset (nextOffset minOffset maxOffset : Int) : Int :=
  if nextOffset < minOffset then minOffset
  else if nextOffset > maxOffset then maxOffset
  else nextOffset

/-- `src/consumer/DefaultMQPushConsumerImpl.cpp:803–882`; `msgCount` is what the queue holds
when the offset of an empty pull is corrected. -/
def onSuccess (consumer : PushConsumer) (client : PullClient) (pullRequest : PullRequest)
    (msgCount : Int) (result : PullResult) : PullClient × PullRequest × ExecutePullRequest :=
  let (client, pullRequest) := processPullResult consumer client pullRequest result
  match result.pullStatus with
  | .found =>
    (client, { pullRequest with nextOffset := result.nextBeginOffset },
      if consumer.pullInterval > 0 then .later consumer.pullInterval else .immediately)
  | .noNewMsg =>
    let pullRequest := { pullRequest with nextOffset := result.nextBeginOffset }
    ({ client with offsetStore := correctTagsOffset client.offsetStore pullRequest msgCount },
      pullRequest, .immediately)
  | .noMatchedMsg =>
    (client, { pullRequest with nextOffset := result.nextBeginOffset }, .immediately)
  | .offsetIllegal =>
    let nextOffset := fixNextOffset pullRequest.nextOffset result.minOffset result.maxOffset
    ({ client with
        offsetStore := client.offsetStore.updateOffset pullRequest.messageQueue nextOffset false },
      { pullRequest with nextOffset }, .immediately)

/-- `src/consumer/ConsumerInvokeCallback.cpp:35–89` with the reply that
`processResponseCommand` put, and `onException`,
`src/consumer/DefaultMQPushConsumerImpl.cpp:884–894`. -/
def operationComplete (consumer : PushConsumer) (client : PullClient) (pullRequest : PullRequest)
    (msgCount : Int) (response : RemotingCommand PullMessageResponseHeader) :
    Option (PullClient × PullRequest × ExecutePullRequest) :=
  match MQClientAPIImpl.processPullResponse response with
  | none => none
  | some (.ok result) => some (onSuccess consumer client pullRequest msgCount result)
  | some (.error _) => some (client, pullRequest, .later pullTimeDelayMillsWhenException)

/-- The reply sends the `PullRequest` straight back to the queue of the service. -/
def SentBack (consumer : PushConsumer) (code : Int) : Prop :=
  code = pullNotFoundValue ∨ code = pullRetryImmediatelyValue ∨ code = pullOffsetMovedValue ∨
    code = successValue ∧ consumer.pullInterval ≤ 0

instance (consumer : PushConsumer) (code : Int) : Decidable (SentBack consumer code) :=
  inferInstanceAs (Decidable (_ ∨ _))

section Reply

variable {consumer : PushConsumer} {client client' : PullClient}
  {pullRequest pullRequest' : PullRequest} {msgCount : Int}
  {response : RemotingCommand PullMessageResponseHeader} {execute : ExecutePullRequest}

private theorem sentBack_iff_pullStatusOf {code : Int} :
    SentBack consumer code ↔
      ∃ status, pullStatusOf code = some status ∧
        (status = .found → consumer.pullInterval ≤ 0) := by
  unfold SentBack pullStatusOf
  split_ifs with h₁ h₂ h₃ h₄ <;> simp_all [successValue, pullNotFoundValue,
    pullRetryImmediatelyValue, pullOffsetMovedValue]

private theorem processPullResponse_code {outcome : Except MQException PullResult}
    (h : MQClientAPIImpl.processPullResponse response = some outcome) :
    pullStatusOf response.code =
      match outcome with
      | .error _ => none
      | .ok result => some result.pullStatus := by
  unfold MQClientAPIImpl.processPullResponse at h
  split at h
  · next hstatus =>
    cases h
    exact hstatus
  · next status hstatus =>
    split at h <;> cases h
    exact hstatus

/-- A callback leaves `dropped` of its request alone. -/
theorem operationComplete_dropped
    (h : operationComplete consumer client pullRequest msgCount response =
      some (client', pullRequest', execute)) : pullRequest'.dropped = pullRequest.dropped := by
  unfold operationComplete at h
  split at h
  · cases h
  · next result _ =>
    simp only [onSuccess, processPullResult] at h
    cases hstatus : result.pullStatus <;> simp only [hstatus, Option.some.injEq,
      Prod.mk.injEq] at h <;> rw [← h.2.1]
  · cases h
    rfl

/-- A callback hands its request back at once exactly for these replies. -/
theorem operationComplete_immediately_iff
    (h : operationComplete consumer client pullRequest msgCount response =
      some (client', pullRequest', execute)) :
    execute = .immediately ↔ SentBack consumer response.code := by
  unfold operationComplete at h
  cases hpull : MQClientAPIImpl.processPullResponse response with
  | none => simp [hpull] at h
  | some outcome =>
    have hcode := processPullResponse_code hpull
    cases outcome with
    | error e =>
      simp only [hpull, Option.some.injEq, Prod.mk.injEq] at h
      rw [← h.2.2, sentBack_iff_pullStatusOf, hcode]
      simp
    | ok result =>
      simp only [hpull, Option.some.injEq] at h
      have hexec : (onSuccess consumer client pullRequest msgCount result).2.2 = execute := by
        rw [h]
      rw [← hexec, sentBack_iff_pullStatusOf, hcode]
      cases hstatus : result.pullStatus <;> simp [onSuccess, hstatus]

end Reply
end RocketMQ
