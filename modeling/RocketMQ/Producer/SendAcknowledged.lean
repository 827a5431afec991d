import Mathlib.Logic.Relation
import RocketMQ.Producer.Send

/-!
# What a successful send says

A send that returns `SEND_OK` should have been acknowledged: some broker answered a request
that carries the message with `SUCCESS_VALUE`, and the result is that answer. An attempt that
gets no answer leaves the default `SendResult`, whose status is `SEND_OK`, and the theorem
below says that this is the only way to break the promise.
-/

namespace RocketMQ

/-- A request that a broker answered with `SUCCESS_VALUE`. -/
def SentMessage.Succeeded (sent : SentMessage) : Prop :=
  ∃ response, sent.reply = some response ∧ response.code = successValue

/-- The result of a send is this answer. -/
def SentMessage.Answers (sent : SentMessage) (sendResult : SendResult) : Prop :=
  ∃ response header, sent.reply = some response ∧ response.customHeader = some header ∧
    sendResult.msgId = header.msgId ∧
    sendResult.messageQueue.map (·.queueId) = some header.queueId ∧
    sendResult.queueOffset = some header.queueOffset

namespace SendAttempt

/-- The attempt has an address to send to, and gets no answer. -/
def Unanswered (attempt : SendAttempt) (mq : MessageQueue) : Prop :=
  attempt.lookup.inPublish mq.brokerName ≠ [] ∧ attempt.behaviour.invokeSync = none

/-- The producer has another try after the attempt: there is no address, or the answer has a
code that is none of the four, or the message was not stored everywhere and the producer is
told to retry then. -/
def Retried (producer : DefaultMQProducer) (attempt : SendAttempt) (mq : MessageQueue) : Prop :=
  attempt.lookup.inPublish mq.brokerName = [] ∨
    ∃ response, attempt.behaviour.invokeSync = some response ∧
      match MQClientAPIImpl.sendStatusOf response.code with
      | none => True
      | some sendStatus => sendStatus ≠ .sendOk ∧ response.customHeader.isSome ∧
          producer.retryAnotherBrokerWhenNotStoreOK = true

end SendAttempt

namespace DefaultMQProducer

/-- One compression of a body. -/
def Compressed (producer : DefaultMQProducer) (compress : Compress)
    (body body' : Option StdString) : Prop :=
  ∃ bytes out, body = some bytes ∧ compress bytes producer.compressLevel = some out ∧
    body' = some out

/-- The request carries the message: its flag, its properties, its topic with the project
group, its body after any number of compressions. -/
structure Carries (producer : DefaultMQProducer) (compress : Compress) (msg : Message)
    (request : SendMessageRequest) : Prop where
  flag : request.header.flag = msg.flag
  properties : request.header.properties = messageProperties2String msg.properties
  topic : request.header.topic =
    VirtualEnvUtil.buildWithProjectGroup msg.topic producer.projectGroupPrefix
  body : Relation.ReflTransGen (producer.Compressed compress) msg.body request.body

/-- A result with status `SEND_OK` is the answer with `SUCCESS_VALUE` to a request of this call
that carries the message. -/
def Acknowledged (producer : DefaultMQProducer) (compress : Compress) (msg : Message)
    (outcome : SendOutcome) : Prop :=
  ∀ sendResult, outcome.result = some (.ok sendResult) → sendResult.sendStatus = .sendOk →
    ∃ sent ∈ outcome.log, producer.Carries compress msg sent.request ∧ sent.Succeeded ∧
      sent.Answers sendResult

/-- One of the attempts the loop makes gets no answer. -/
def CutsOff (producer : DefaultMQProducer) (beginTimestamp : Int) :
    TopicPublishInfo → StdString → Int → List SendAttempt → Prop
  | _, _, _, [] => False
  | info, lastBrokerName, endTimestamp, attempt :: rest =>
    toInt32 (endTimestamp - beginTimestamp) < producer.sendMsgTimeout ∧
      match info.selectOneMessageQueue lastBrokerName with
      | (none, _) => False
      | (some mq, info) =>
        attempt.Unanswered mq ∨
          attempt.Retried producer mq ∧
            CutsOff producer beginTimestamp info mq.brokerName attempt.endTimestamp rest

/-- The call gets as far as its attempts, and one it makes gets no answer. -/
def CutOff (producer : DefaultMQProducer) (info : TopicPublishInfo) (beginTimestamp : Int)
    (attempts : Nat → SendAttempt) (msg : Message) : Prop :=
  producer.serviceState = .running ∧
    Validators.checkMessage msg producer.maxMessageSize = .ok () ∧ info.ok = true ∧
    producer.CutsOff beginTimestamp info [] beginTimestamp ((List.range 3).map attempts)

/-! ### What an attempt does to the message -/

/-- A message object that started as `msg`. -/
structure Derived (producer : DefaultMQProducer) (compress : Compress) (msg msg' : Message) :
    Prop where
  flag : msg'.flag = msg.flag
  properties : msg'.properties = msg.properties
  topic : VirtualEnvUtil.buildWithProjectGroup msg'.topic producer.projectGroupPrefix =
    VirtualEnvUtil.buildWithProjectGroup msg.topic producer.projectGroupPrefix
  body : Relation.ReflTransGen (producer.Compressed compress) msg.body msg'.body

section Attempt

variable {producer : DefaultMQProducer} {compress : Compress} {msg msg' : Message}
  {attempt : SendAttempt} {mq : MessageQueue}

/-- A message is what it started as. -/
theorem Derived.refl (producer : DefaultMQProducer) (compress : Compress) (msg : Message) :
    producer.Derived compress msg msg :=
  ⟨rfl, rfl, rfl, .refl⟩

/-- Compressing changes the body by one compression at most. -/
theorem Derived.tryToCompressMessage (h : producer.Derived compress msg msg') :
    producer.Derived compress msg (producer.tryToCompressMessage compress msg').1 := by
  unfold DefaultMQProducer.tryToCompressMessage
  split
  · exact h
  · next bytes hbody =>
    split
    · split
      · next out hout =>
        unfold Message.setBody
        split
        · exact ⟨h.flag, h.properties, h.topic, h.body.tail ⟨bytes, out, hbody, hout, rfl⟩⟩
        · exact h
      · exact h
    · exact h

private theorem withGroup_eq (projectGroupPrefix name : StdString) :
    (if !isBlank projectGroupPrefix then
      VirtualEnvUtil.buildWithProjectGroup name projectGroupPrefix else name) =
      VirtualEnvUtil.buildWithProjectGroup name projectGroupPrefix := by
  cases h : isBlank projectGroupPrefix <;> simp [VirtualEnvUtil.buildWithProjectGroup, h]

/-- With an address one request is made; it carries the message, which stays what it is. -/
theorem sendKernelImpl_known (hd : producer.Derived compress msg msg')
    (h : attempt.lookup.inPublish mq.brokerName ≠ []) :
    ∃ request msg'', producer.Carries compress msg request ∧
      producer.Derived compress msg msg'' ∧
      producer.sendKernelImpl compress attempt msg' mq =
        ⟨msg'', [⟨request, attempt.behaviour.invokeSync⟩],
          MQClientAPIImpl.sendMessageSync producer.projectGroupPrefix mq.brokerName msg''.topic
            attempt.behaviour.invokeSync⟩ := by
  have hc := hd.tryToCompressMessage
  have haddr : (!(attempt.lookup.inPublish mq.brokerName).isEmpty) = true := by simpa using h
  simp only [sendKernelImpl, haddr, if_true, MQClientAPIImpl.sendMessage, withGroup_eq]
  refine ⟨_, _, ?_, ?_, rfl⟩
  · exact ⟨hc.flag, by rw [hc.properties], hc.topic, hc.body⟩
  · refine ⟨hc.flag, hc.properties, ?_, hc.body⟩
    rw [VirtualEnvUtil.buildWithProjectGroup_idem, hc.topic]

end Attempt

/-! ### What an answer makes of the loop -/

/-- The message object and the log of a loop that goes on: every request carries the message,
and none was answered with `SUCCESS_VALUE`. -/
structure Trying (producer : DefaultMQProducer) (compress : Compress) (msg : Message)
    (msg' : Message) (log : List SentMessage) : Prop where
  derived : producer.Derived compress msg msg'
  carries : ∀ sent ∈ log, producer.Carries compress msg sent.request
  notSucceeded : ∀ sent ∈ log, ¬ sent.Succeeded

section Loop

variable {producer : DefaultMQProducer} {compress : Compress} {msg msg' : Message}
  {attempt : SendAttempt} {mq : MessageQueue} {log : List SentMessage}

/-- Only a reply with `SUCCESS_VALUE` makes a request succeed. -/
theorem not_succeeded_of_status (request : SendMessageRequest)
    {response : RemotingCommand SendMessageResponseHeader}
    (h : MQClientAPIImpl.sendStatusOf response.code ≠ some .sendOk) :
    ¬ SentMessage.Succeeded ⟨request, some response⟩ := by
  rintro ⟨r, hr, hcode⟩
  obtain rfl := Option.some.inj hr
  exact h (MQClientAPIImpl.sendStatusOf_eq_sendOk_iff.mpr hcode)

/-- An outcome that is no `SEND_OK` promises nothing. -/
theorem acknowledged_of_not_sendOk {outcome : SendOutcome}
    (h : ∀ sendResult, outcome.result = some (.ok sendResult) → sendResult.sendStatus ≠ .sendOk) :
    producer.Acknowledged compress msg outcome :=
  fun sendResult hresult hstatus ↦ absurd hstatus (h sendResult hresult)

/-- A request without a `SUCCESS_VALUE` lets the loop go on. -/
theorem Trying.append (h : producer.Trying compress msg msg' log) {msg'' : Message}
    {sent : SentMessage} (hd : producer.Derived compress msg msg'')
    (hc : producer.Carries compress msg sent.request) (hs : ¬ sent.Succeeded) :
    producer.Trying compress msg msg'' (log ++ [sent]) where
  derived := hd
  carries x hx := by
    rcases List.mem_append.mp hx with hold | hnew
    · exact h.carries x hold
    · exact List.mem_singleton.mp hnew ▸ hc
  notSucceeded x hx := by
    rcases List.mem_append.mp hx with hold | hnew
    · exact h.notSucceeded x hold
    · exact List.mem_singleton.mp hnew ▸ hs

/-- A default result breaks the promise: nothing in the log was answered with
`SUCCESS_VALUE`. -/
theorem Trying.not_acknowledged_default (h : producer.Trying compress msg msg' log) :
    ¬ producer.Acknowledged compress msg ⟨msg', log, some (.ok .default)⟩ := by
  intro hack
  obtain ⟨sent, hmem, -, hsucceeded, -⟩ := hack .default rfl rfl
  exact h.notSucceeded sent hmem hsucceeded

/-- What decides about another try once there is an answer. -/
theorem retried_iff_of_answered (producer : DefaultMQProducer)
    {response : RemotingCommand SendMessageResponseHeader}
    (haddr : attempt.lookup.inPublish mq.brokerName ≠ [])
    (hreply : attempt.behaviour.invokeSync = some response) :
    attempt.Retried producer mq ↔
      match MQClientAPIImpl.sendStatusOf response.code with
      | none => True
      | some sendStatus => sendStatus ≠ .sendOk ∧ response.customHeader.isSome ∧
          producer.retryAnotherBrokerWhenNotStoreOK = true := by
  simp [SendAttempt.Retried, haddr, hreply]

/-- Step lemma of the loop: what one attempt makes of the promise. -/
theorem sendLoop_cons_acknowledged_iff {beginTimestamp : Int} {rest : List SendAttempt}
    {s : SendState} {info : TopicPublishInfo} (htry : producer.Trying compress msg s.msg s.log)
    (htime : toInt32 (s.endTimestamp - beginTimestamp) < producer.sendMsgTimeout)
    (hselect : s.info.selectOneMessageQueue s.lastBrokerName = (some mq, info))
    (ih : ∀ t : SendState, producer.Trying compress msg t.msg t.log → t.info = info →
      t.lastBrokerName = mq.brokerName → t.endTimestamp = attempt.endTimestamp →
      (producer.Acknowledged compress msg (producer.sendLoop compress beginTimestamp rest t) ↔
        ¬ producer.CutsOff beginTimestamp info mq.brokerName attempt.endTimestamp rest)) :
    producer.Acknowledged compress msg
        (producer.sendLoop compress beginTimestamp (attempt :: rest) s) ↔
      ¬ (attempt.Unanswered mq ∨ attempt.Retried producer mq ∧
        producer.CutsOff beginTimestamp info mq.brokerName attempt.endTimestamp rest) := by
  simp only [sendLoop, htime, if_true, hselect]
  by_cases haddr : attempt.lookup.inPublish mq.brokerName = []
  · have hun : ¬ attempt.Unanswered mq := fun h ↦ h.1 haddr
    have hre : attempt.Retried producer mq := .inl haddr
    simp only [sendKernelImpl_unknown haddr, MQException.client, hun, hre, false_or, true_and]
    exact ih _ (by simpa using htry) rfl rfl rfl
  · obtain ⟨request, msg'', hcarries, hderived, hkernel⟩ := sendKernelImpl_known htry.derived haddr
    rw [hkernel]
    cases hreply : attempt.behaviour.invokeSync with
    | none =>
      -- `sendMessage` returns the default result, and the loop takes it for a success
      have hun : attempt.Unanswered mq := ⟨haddr, hreply⟩
      have hsent : ¬ SentMessage.Succeeded ⟨request, none⟩ := by
        rintro ⟨response, hnone, -⟩
        cases hnone
      have hnot := (htry.append hderived hcarries hsent).not_acknowledged_default
      simpa [MQClientAPIImpl.sendMessageSync_unanswered, hun, SendResult.default] using hnot
    | some response =>
      have hun : ¬ attempt.Unanswered mq := by
        rintro ⟨-, hnone⟩
        rw [hreply] at hnone
        cases hnone
      simp only [hun, false_or, retried_iff_of_answered producer haddr hreply]
      cases hstatus : MQClientAPIImpl.sendStatusOf response.code with
      | none =>
        have hsent := not_succeeded_of_status request (by rw [hstatus]; simp)
        rw [MQClientAPIImpl.sendMessageSync_refused _ _ _ hstatus, true_and]
        exact ih _ (htry.append hderived hcarries hsent) rfl rfl rfl
      | some sendStatus =>
        cases hheader : response.customHeader with
        | none =>
          rw [MQClientAPIImpl.sendMessageSync_unreadable _ _ _ hstatus hheader]
          simpa using acknowledged_of_not_sendOk fun sendResult h ↦ by cases h
        | some header =>
          rw [MQClientAPIImpl.sendMessageSync_stored _ _ _ hstatus hheader]
          by_cases hok : sendStatus = .sendOk
          · subst hok
            have hcode := MQClientAPIImpl.sendStatusOf_eq_sendOk_iff.mp hstatus
            simp only [SendResult.make, ne_eq, not_true_eq_false, false_and, if_false,
              not_false_eq_true, iff_true]
            intro sendResult hresult _
            cases hresult
            exact ⟨_, List.mem_append_right _ (List.mem_singleton.mpr rfl), hcarries,
              ⟨response, rfl, hcode⟩, response, header, rfl, hheader, rfl, rfl, rfl⟩
          · have hsent := not_succeeded_of_status request
              (by rw [hstatus]; simpa using hok)
            cases hretry : producer.retryAnotherBrokerWhenNotStoreOK
            · simp only [SendResult.make, Bool.false_eq_true, and_false, if_false, false_and,
                not_false_eq_true, iff_true]
              exact acknowledged_of_not_sendOk fun sendResult h ↦ by
                cases h
                exact hok
            · simp only [SendResult.make, ne_eq, hok, not_false_eq_true, and_self, if_true,
                Option.isSome_some, true_and]
              exact ih _ (htry.append hderived hcarries hsent) rfl rfl rfl

/-- Loop lemma: the promise holds exactly when no attempt the loop makes is cut off. -/
theorem sendLoop_acknowledged_iff (beginTimestamp : Int) (attempts : List SendAttempt)
    (s : SendState) (htry : producer.Trying compress msg s.msg s.log) :
    producer.Acknowledged compress msg
        (producer.sendLoop compress beginTimestamp attempts s) ↔
      ¬ producer.CutsOff beginTimestamp s.info s.lastBrokerName s.endTimestamp attempts := by
  have hthrow : ∀ msg' log, producer.Acknowledged compress msg
      ⟨msg', log, some (.error retriedManyTimes)⟩ := fun msg' log ↦
    acknowledged_of_not_sendOk fun sendResult h ↦ by cases h
  induction attempts generalizing s with
  | nil => simpa [sendLoop, CutsOff] using hthrow s.msg s.log
  | cons attempt rest ih =>
    by_cases htime : toInt32 (s.endTimestamp - beginTimestamp) < producer.sendMsgTimeout
    · cases hselect : s.info.selectOneMessageQueue s.lastBrokerName with
      | mk selected info =>
        cases selected with
        | none => simpa [sendLoop, CutsOff, htime, hselect] using hthrow s.msg s.log
        | some mq =>
          rw [sendLoop_cons_acknowledged_iff htry htime hselect]
          · simp only [CutsOff, htime, hselect, true_and]
          · intro t ht hinfo hlast hend
            rw [← hinfo, ← hlast, ← hend]
            exact ih t ht
    · simpa [sendLoop, CutsOff, htime] using hthrow s.msg s.log

end Loop

/-- **Synchronous send**: a `SEND_OK` is a broker's acknowledgement exactly when no attempt the
call makes gets no answer. -/
theorem acknowledged_iff_not_cutOff (producer : DefaultMQProducer) (compress : Compress)
    (namesrvAddrs : List StdString) (info : TopicPublishInfo) (beginTimestamp : Int)
    (attempts : Nat → SendAttempt) (msg : Message) :
    producer.Acknowledged compress msg
        (producer.sendDefaultImpl compress namesrvAddrs info beginTimestamp attempts msg) ↔
      ¬ producer.CutOff info beginTimestamp attempts msg := by
  have hthrow : ∀ e, producer.Acknowledged compress msg ⟨msg, [], some (.error e)⟩ := fun e ↦
    acknowledged_of_not_sendOk fun sendResult h ↦ by cases h
  unfold sendDefaultImpl CutOff
  by_cases hstate : producer.serviceState = .running
  · cases hcheck : Validators.checkMessage msg producer.maxMessageSize with
    | error e => simpa [makeSureStateOK, hstate] using hthrow e
    | ok u =>
      cases hok : info.ok
      · cases namesrvAddrs <;> simpa [makeSureStateOK, hstate] using hthrow _
      · have hstart : producer.Trying compress msg msg [] :=
          ⟨.refl producer compress msg, by simp, by simp⟩
        have hloop := sendLoop_acknowledged_iff beginTimestamp ((List.range 3).map attempts)
          ⟨msg, info, [], .default, beginTimestamp, []⟩ hstart
        simpa [makeSureStateOK, hstate] using hloop
  · simpa [makeSureStateOK, hstate] using hthrow _

/-- A producer with the defaults of `src/producer/DefaultMQProducer.cpp:26–36`. -/
def defaultProducer : DefaultMQProducer :=
  ⟨.running, str "g", [], str "TBW102", 4, 3000, 4096, 5, 131072, false⟩

/-- The only broker of the topic takes the connection and does not answer in time: the call
returns `SEND_OK` at once. -/
theorem timeout_is_sendOk :
    ∃ outcome, defaultProducer.sendDefaultImpl (fun _ _ ↦ none) [str "n:9876"]
        ⟨[⟨str "t", str "b", 0⟩], 0⟩ 0
        (fun _ ↦ ⟨⟨{(str "b", {(0, str "a:10911")})}, ∅⟩, 1, .noResponse, 3000⟩)
        ⟨str "t", 0, ∅, some [1]⟩ = outcome ∧
      outcome.result = some (.ok .default) ∧ SendResult.default.sendStatus = .sendOk ∧
      outcome.log.map (·.reply.isSome) = [false] ∧
      ¬ defaultProducer.Acknowledged (fun _ _ ↦ none) ⟨str "t", 0, ∅, some [1]⟩ outcome := by
  refine ⟨_, rfl, by decide +kernel, rfl, by decide +kernel, fun hack ↦ ?_⟩
  obtain ⟨sent, hmem, -, ⟨response, hreply, -⟩, -⟩ := hack .default (by decide +kernel) rfl
  have hsome := List.mem_map_of_mem (f := fun x : SentMessage ↦ x.reply.isSome) hmem
  rw [hreply, Option.isSome_some] at hsome
  revert hsome
  decide +kernel

end DefaultMQProducer
end RocketMQ
