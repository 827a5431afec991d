import RocketMQ.Base.Run
import RocketMQ.Message.MessageDecoder
import RocketMQ.Producer.Send

/-!
# Bodies over retries and resends

`tryToCompressMessage` puts the compressed body into the caller's message, and the flag into
one request. `sendKernelImpl` notes the body it found, `prevBody` and `prevLen`, and never puts
it back, so the next attempt and the next send start from compressed bytes.
-/

namespace RocketMQ

/-- `src/CommunicationMode.h`. -/
inductive CommunicationMode where
  | sync
  | async
  | oneway

/-- An attempt in a mode: without `SYNC` the default result is returned whatever comes of the
request, as it is for a request that gets no answer. -/
def SendAttempt.inMode (attempt : SendAttempt) : CommunicationMode → SendAttempt
  | .sync => attempt
  | .async | .oneway => { attempt with behaviour := .noResponse }

@[simp] theorem SendAttempt.lookup_inMode (attempt : SendAttempt) (mode : CommunicationMode) :
    (attempt.inMode mode).lookup = attempt.lookup := by
  cases mode <;> rfl

/-! ### Sends of one message object -/

/-- A call of `send` or `sendOneway`, with the producer it is made on and what happens to it;
with a queue the producer makes one attempt. -/
inductive SendCall where
  | anyQueue (producer : DefaultMQProducer) (mode : CommunicationMode)
      (namesrvAddrs : List StdString) (info : TopicPublishInfo) (beginTimestamp : Int)
      (attempts : Nat → SendAttempt)
  | toQueue (producer : DefaultMQProducer) (mode : CommunicationMode) (mq : MessageQueue)
      (attempt : SendAttempt)

namespace DefaultMQProducer

/-- `src/producer/DefaultMQProducerImpl.cpp:306–358`. -/
def sendToQueue (producer : DefaultMQProducer) (compress : Compress) (attempt : SendAttempt)
    (msg : Message) (mq : MessageQueue) : SendOutcome :=
  match producer.makeSureStateOK with
  | .error e => ⟨msg, [], some (.error e)⟩
  | .ok () =>
    match Validators.checkMessage msg producer.maxMessageSize with
    | .error e => ⟨msg, [], some (.error e)⟩
    | .ok () =>
      if msg.topic ≠ mq.topic then
        ⟨msg, [], some (.error (.client (str "message's topic not equal mq's topic") (-1)))⟩
      else
        let kernel := producer.sendKernelImpl compress attempt msg mq
        ⟨kernel.msg, kernel.sent, kernel.result⟩

end DefaultMQProducer

namespace SendCall

/-- The producer of a call. -/
def producer : SendCall → DefaultMQProducer
  | anyQueue producer .. => producer
  | toQueue producer .. => producer

/-- What a call leaves behind. -/
def outcome (compress : Compress) (msg : Message) : SendCall → DefaultMQProducer.SendOutcome
  | anyQueue producer mode namesrvAddrs info beginTimestamp attempts =>
    producer.sendDefaultImpl compress namesrvAddrs info beginTimestamp
      (fun k ↦ (attempts k).inMode mode) msg
  | toQueue producer mode mq attempt =>
    producer.sendToQueue compress (attempt.inMode mode) msg mq

end SendCall

/-- A message object, and all requests that were made for it. -/
structure SentObject where
  msg : Message
  log : List SentMessage

/-- The next send of the object. -/
def SentObject.step (compress : Compress) (s : SentObject) (call : SendCall) :
    Option SentObject :=
  let outcome := call.outcome compress s.msg
  some ⟨outcome.msg, s.log ++ outcome.log⟩

/-! ### What the receiver makes of it -/

/-- The body of a request as `MessageDecoder::decode` reads it. -/
def SentMessage.decodedBody (inflate : StdString → Option StdString) (sent : SentMessage) :
    StdString :=
  MessageDecoder.decodeBody inflate sent.request.header.sysFlag (sent.request.body.getD [])

/-- Every request carries this body, and the message still has it. -/
def Preserved (inflate : StdString → Option StdString) (body : StdString) (msg : Message)
    (log : List SentMessage) : Prop :=
  msg.body.getD [] = body ∧ ∀ sent ∈ log, sent.decodedBody inflate = body

/-- Inflating undoes compressing. -/
def Undoes (inflate : StdString → Option StdString) (compress : Compress) : Prop :=
  ∀ body level out, compress body level = some out → UtilAll.decompress inflate out = some body

/-- What was compressed is not empty, as nothing can be inflated from nothing. -/
theorem Undoes.ne_nil {inflate : StdString → Option StdString} {compress : Compress}
    (hundo : Undoes inflate compress) {body out : StdString} {level : Int}
    (h : compress body level = some out) : out ≠ [] := by
  rintro rfl
  have hnone := hundo body level [] h
  rw [UtilAll.decompress, List.isEmpty_nil, if_pos rfl] at hnone
  cases hnone

namespace DefaultMQProducer

/-- The body is long enough to be compressed, and compressing makes something else of it. -/
def Recompresses (producer : DefaultMQProducer) (compress : Compress) (msg : Message) : Prop :=
  ∃ body out, msg.body = some body ∧ producer.compressMsgBodyOverHowmuch ≤ body.length ∧
    compress body producer.compressLevel = some out ∧ out ≠ body

/-- One of the attempts of the loop finds an address to send to. -/
def Reaches (producer : DefaultMQProducer) (beginTimestamp : Int) :
    TopicPublishInfo → StdString → Int → List SendAttempt → Prop
  | _, _, _, [] => False
  | info, lastBrokerName, endTimestamp, attempt :: rest =>
    toInt32 (endTimestamp - beginTimestamp) < producer.sendMsgTimeout ∧
      match info.selectOneMessageQueue lastBrokerName with
      | (none, _) => False
      | (some mq, info) =>
        attempt.lookup.inPublish mq.brokerName ≠ [] ∨
          Reaches producer beginTimestamp info mq.brokerName attempt.endTimestamp rest

end DefaultMQProducer

/-- The call is let through, and gets to a request. -/
def SendCall.MakesRequest (msg : Message) (call : SendCall) : Prop :=
  call.producer.serviceState = .running ∧
    Validators.checkMessage msg call.producer.maxMessageSize = .ok () ∧
    match call with
    | anyQueue producer mode _ info beginTimestamp attempts =>
      info.ok = true ∧ producer.Reaches beginTimestamp info [] beginTimestamp
        ((List.range 3).map fun k ↦ (attempts k).inMode mode)
    | toQueue _ _ mq attempt =>
      msg.topic = mq.topic ∧ attempt.lookup.inPublish mq.brokerName ≠ []

/-! ### One attempt -/

namespace DefaultMQProducer

section Attempt

variable {producer : DefaultMQProducer} {compress : Compress}
  {inflate : StdString → Option StdString} {msg : Message} {attempt : SendAttempt}
  {mq : MessageQueue}

/-- Either the body was compressed, and the compressed bytes are the body now, or nothing
happened to the message. -/
theorem tryToCompressMessage_cases (producer : DefaultMQProducer) (msg : Message)
    (hundo : Undoes inflate compress) :
    (∃ body out, msg.body = some body ∧ producer.compressMsgBodyOverHowmuch ≤ body.length ∧
        compress body producer.compressLevel = some out ∧
        producer.tryToCompressMessage compress msg = ({ msg with body := some out }, true)) ∨
      producer.tryToCompressMessage compress msg = (msg, false) ∧
        ¬ producer.Recompresses compress msg := by
  cases hbody : msg.body with
  | none =>
    refine .inr ⟨by rw [tryToCompressMessage, hbody], ?_⟩
    rintro ⟨body, out, hsome, -⟩
    rw [hbody] at hsome
    cases hsome
  | some body =>
    have hlen : msg.bodyLen = body.length := by rw [Message.bodyLen, hbody, Option.getD_some]
    by_cases hlong : producer.compressMsgBodyOverHowmuch ≤ body.length
    · cases hout : compress body producer.compressLevel with
      | some out =>
        have hpos : 0 < out.length := List.length_pos_of_ne_nil (hundo.ne_nil hout)
        refine .inl ⟨body, out, rfl, hlong, hout, ?_⟩
        simp only [tryToCompressMessage, hbody, hlen, ge_iff_le, if_pos hlong, hout,
          Message.setBody, gt_iff_lt, if_pos hpos]
      | none =>
        refine .inr ⟨by simp only [tryToCompressMessage, hbody, hlen, ge_iff_le, if_pos hlong,
          hout], ?_⟩
        rintro ⟨body', out, hsome, -, hout', -⟩
        rw [hbody] at hsome
        cases hsome
        rw [hout] at hout'
        cases hout'
    · refine .inr ⟨by simp only [tryToCompressMessage, hbody, hlen, ge_iff_le, if_neg hlong], ?_⟩
      rintro ⟨body', out, hsome, hlong', -⟩
      rw [hbody] at hsome
      cases hsome
      exact hlong hlong'

/-- A body that compressing makes nothing else of is kept. -/
theorem body_tryToCompressMessage (hundo : Undoes inflate compress)
    (h : ¬ producer.Recompresses compress msg) :
    (producer.tryToCompressMessage compress msg).1.body = msg.body := by
  rcases tryToCompressMessage_cases producer msg hundo with
    ⟨body, out, hbody, hlong, hout, heq⟩ | ⟨heq, -⟩
  · have hsame : out = body := by
      by_contra hne
      exact h ⟨body, out, hbody, hlong, hout, hne⟩
    rw [heq, hbody, hsame]
  · rw [heq]

/-- Any other is not. -/
theorem body_tryToCompressMessage_ne (hundo : Undoes inflate compress)
    (h : producer.Recompresses compress msg) :
    (producer.tryToCompressMessage compress msg).1.body.getD [] ≠ msg.body.getD [] := by
  rcases tryToCompressMessage_cases producer msg hundo with
    ⟨body, out, hbody, -, hout, heq⟩ | ⟨-, hnot⟩
  · obtain ⟨body', out', hbody', -, hout', hne⟩ := h
    rw [hbody] at hbody'
    cases hbody'
    rw [hout] at hout'
    cases hout'
    rw [heq, hbody]
    exact hne
  · exact absurd h hnot

/-- The request that is made is compressed and flagged, or neither: it decodes to the body that
the message had before. -/
theorem sendKernelImpl_known_body (producer : DefaultMQProducer) (msg : Message)
    (hundo : Undoes inflate compress)
    (h : attempt.lookup.inPublish mq.brokerName ≠ []) :
    (producer.sendKernelImpl compress attempt msg mq).msg.body =
        (producer.tryToCompressMessage compress msg).1.body ∧
      ∃ sent, (producer.sendKernelImpl compress attempt msg mq).sent = [sent] ∧
        sent.decodedBody inflate = msg.body.getD [] := by
  have haddr : (!(attempt.lookup.inPublish mq.brokerName).isEmpty) = true := by simpa using h
  simp only [sendKernelImpl, haddr, if_true, MQClientAPIImpl.sendMessage, true_and]
  refine ⟨_, rfl, ?_⟩
  simp only [SentMessage.decodedBody]
  rcases tryToCompressMessage_cases producer msg hundo with
    ⟨body, out, hbody, -, hout, heq⟩ | ⟨heq, -⟩
  · simp only [heq, hbody, Option.getD_some, if_true]
    have hflag : ∀ t : Nat, t = 0 ∨ t = 4 →
        MessageDecoder.isCompressed ((1 ||| t : Nat) : Int) = true := by
      rintro t (rfl | rfl) <;> decide
    rw [MessageDecoder.decodeBody, if_pos (hflag _ (by split_ifs <;> simp)),
      hundo body _ out hout, Option.getD_some]
  · simp only [heq, Bool.false_eq_true, if_false]
    have hflag : ∀ t : Nat, t = 0 ∨ t = 4 →
        ¬ MessageDecoder.isCompressed ((0 ||| t : Nat) : Int) = true := by
      rintro t (rfl | rfl) <;> decide
    rw [MessageDecoder.decodeBody, if_neg (hflag _ (by split_ifs <;> simp))]

end Attempt

/-! ### All attempts of a call -/

section Loop

variable {producer : DefaultMQProducer} {compress : Compress}
  {inflate : StdString → Option StdString} {attempt : SendAttempt} {mq : MessageQueue}
  {info : TopicPublishInfo} {beginTimestamp : Int} {rest : List SendAttempt} {s : SendState}
  {body : StdString}

/-- The local variables after an attempt, as far as the next one looks at them. -/
structure Follows (s : SendState) (attempt : SendAttempt) (mq : MessageQueue)
    (info : TopicPublishInfo) (kernel : KernelOutcome) (t : SendState) : Prop where
  msg : t.msg = kernel.msg
  log : t.log = s.log ++ kernel.sent
  info : t.info = info
  lastBrokerName : t.lastBrokerName = mq.brokerName
  endTimestamp : t.endTimestamp = attempt.endTimestamp

/-- Out of time or without a queue the loop is over, or there is an attempt. -/
theorem sendLoop_cons_over_or (compress : Compress) (beginTimestamp : Int) (attempt : SendAttempt)
    (rest : List SendAttempt) (s : SendState) :
    producer.sendLoop compress beginTimestamp (attempt :: rest) s =
        ⟨s.msg, s.log, some (.error retriedManyTimes)⟩ ∨
      toInt32 (s.endTimestamp - beginTimestamp) < producer.sendMsgTimeout ∧
        ∃ mq info, s.info.selectOneMessageQueue s.lastBrokerName = (some mq, info) := by
  by_cases htime : toInt32 (s.endTimestamp - beginTimestamp) < producer.sendMsgTimeout
  · cases hselect : s.info.selectOneMessageQueue s.lastBrokerName with
    | mk selected info =>
      cases selected with
      | none =>
        left
        simp only [sendLoop, if_pos htime, hselect]
      | some mq => exact .inr ⟨htime, mq, info, rfl⟩
  · left
    simp only [sendLoop, if_neg htime]

/-- After an attempt the call comes back, or the loop goes on with the next attempt. -/
theorem sendLoop_cons_cases (compress : Compress) (attempt : SendAttempt)
    (rest : List SendAttempt)
    (htime : toInt32 (s.endTimestamp - beginTimestamp) < producer.sendMsgTimeout)
    (hselect : s.info.selectOneMessageQueue s.lastBrokerName = (some mq, info)) :
    let kernel := producer.sendKernelImpl compress attempt s.msg mq
    (∃ result, producer.sendLoop compress beginTimestamp (attempt :: rest) s =
        ⟨kernel.msg, s.log ++ kernel.sent, result⟩) ∨
      ∃ t, Follows s attempt mq info kernel t ∧
        producer.sendLoop compress beginTimestamp (attempt :: rest) s =
          producer.sendLoop compress beginTimestamp rest t := by
  intro kernel
  simp only [sendLoop, if_pos htime, hselect]
  split
  · exact .inl ⟨_, rfl⟩
  · split
    · exact .inr ⟨_, ⟨rfl, rfl, rfl, rfl, rfl⟩, rfl⟩
    · exact .inl ⟨_, rfl⟩
  · split
    · exact .inr ⟨_, ⟨rfl, rfl, rfl, rfl, rfl⟩, rfl⟩
    · exact .inr ⟨_, ⟨rfl, rfl, rfl, rfl, rfl⟩, rfl⟩
    · split
      · exact .inr ⟨_, ⟨rfl, rfl, rfl, rfl, rfl⟩, rfl⟩
      · exact .inl ⟨_, rfl⟩
    · exact .inl ⟨_, rfl⟩
    · exact .inl ⟨_, rfl⟩

/-- Without an address the loop goes on. -/
theorem sendLoop_cons_unknown (compress : Compress) (rest : List SendAttempt)
    (htime : toInt32 (s.endTimestamp - beginTimestamp) < producer.sendMsgTimeout)
    (hselect : s.info.selectOneMessageQueue s.lastBrokerName = (some mq, info))
    (h : attempt.lookup.inPublish mq.brokerName = []) :
    ∃ t : SendState, t.msg = s.msg ∧ t.log = s.log ∧ t.info = info ∧
      t.lastBrokerName = mq.brokerName ∧ t.endTimestamp = attempt.endTimestamp ∧
      producer.sendLoop compress beginTimestamp (attempt :: rest) s =
        producer.sendLoop compress beginTimestamp rest t := by
  simp only [sendLoop, if_pos htime, hselect, sendKernelImpl_unknown h, MQException.client]
  exact ⟨⟨s.msg, info, mq.brokerName, s.sendResult, attempt.endTimestamp, s.log ++ []⟩, rfl,
    List.append_nil _, rfl, rfl, rfl, rfl⟩

/-- What holds after an attempt held before it: the request decodes to the earlier body. -/
theorem preserved_of_sendKernelImpl (hundo : Undoes inflate compress)
    (h : Preserved inflate body (producer.sendKernelImpl compress attempt s.msg mq).msg
      (s.log ++ (producer.sendKernelImpl compress attempt s.msg mq).sent)) :
    Preserved inflate body s.msg s.log := by
  obtain ⟨hmsg, hlog⟩ := h
  have hold : ∀ sent ∈ s.log, sent.decodedBody inflate = body :=
    fun sent hsent ↦ hlog sent (List.mem_append_left _ hsent)
  by_cases haddr : attempt.lookup.inPublish mq.brokerName = []
  · rw [sendKernelImpl_unknown haddr] at hmsg
    exact ⟨hmsg, hold⟩
  · obtain ⟨-, sent, hsent, hdecoded⟩ := sendKernelImpl_known_body producer s.msg
      hundo haddr
    refine ⟨?_, hold⟩
    rw [← hdecoded]
    exact hlog sent (List.mem_append_right _ (hsent ▸ List.mem_singleton.mpr rfl))

/-- An attempt that makes nothing else of the body keeps everything. -/
theorem preserved_sendKernelImpl (attempt : SendAttempt) (mq : MessageQueue)
    (hundo : Undoes inflate compress)
    (hkeep : ¬ producer.Recompresses compress s.msg) (h : Preserved inflate body s.msg s.log) :
    (producer.sendKernelImpl compress attempt s.msg mq).msg.body = s.msg.body ∧
      Preserved inflate body (producer.sendKernelImpl compress attempt s.msg mq).msg
        (s.log ++ (producer.sendKernelImpl compress attempt s.msg mq).sent) := by
  by_cases haddr : attempt.lookup.inPublish mq.brokerName = []
  · rw [sendKernelImpl_unknown haddr, List.append_nil]
    exact ⟨rfl, h⟩
  · obtain ⟨hbody, sent, hsent, hdecoded⟩ := sendKernelImpl_known_body producer s.msg
      hundo haddr
    have hsame := hbody.trans (body_tryToCompressMessage hundo hkeep)
    refine ⟨hsame, ?_, fun x hx ↦ ?_⟩
    · rw [hsame]
      exact h.1
    · rw [hsent] at hx
      rcases List.mem_append.mp hx with hold | hnew
      · exact h.2 x hold
      · rw [List.mem_singleton.mp hnew, hdecoded]
        exact h.1

/-- An attempt that makes a request and something else of the body does not. -/
theorem not_preserved_sendKernelImpl (hundo : Undoes inflate compress)
    (hchange : producer.Recompresses compress s.msg)
    (haddr : attempt.lookup.inPublish mq.brokerName ≠ []) :
    ¬ Preserved inflate body (producer.sendKernelImpl compress attempt s.msg mq).msg
      (s.log ++ (producer.sendKernelImpl compress attempt s.msg mq).sent) := by
  intro h
  obtain ⟨hbody, -⟩ := sendKernelImpl_known_body producer s.msg hundo haddr
  apply body_tryToCompressMessage_ne hundo hchange
  rw [← hbody, h.1, (preserved_of_sendKernelImpl hundo h).1]

/-- What holds when the loop is left held when it was entered. -/
theorem preserved_of_sendLoop (hundo : Undoes inflate compress) (attempts : List SendAttempt)
    (s : SendState)
    (h : Preserved inflate body (producer.sendLoop compress beginTimestamp attempts s).msg
      (producer.sendLoop compress beginTimestamp attempts s).log) :
    Preserved inflate body s.msg s.log := by
  induction attempts generalizing s with
  | nil => exact h
  | cons attempt rest ih =>
    rcases sendLoop_cons_over_or compress beginTimestamp attempt rest s with
      hover | ⟨htime, mq, info, hselect⟩
    · rw [hover] at h
      exact h
    · rcases sendLoop_cons_cases compress attempt rest htime hselect with
        ⟨result, heq⟩ | ⟨t, ht, heq⟩
      · rw [heq] at h
        exact preserved_of_sendKernelImpl hundo h
      · rw [heq] at h
        have hnext := ih t h
        rw [ht.msg, ht.log] at hnext
        exact preserved_of_sendKernelImpl hundo hnext

/-- When no attempt makes anything else of the body, the loop keeps everything. -/
theorem preserved_sendLoop (hundo : Undoes inflate compress) (attempts : List SendAttempt)
    (s : SendState) (hkeep : ¬ producer.Recompresses compress s.msg)
    (h : Preserved inflate body s.msg s.log) :
    Preserved inflate body (producer.sendLoop compress beginTimestamp attempts s).msg
      (producer.sendLoop compress beginTimestamp attempts s).log := by
  induction attempts generalizing s with
  | nil => exact h
  | cons attempt rest ih =>
    rcases sendLoop_cons_over_or compress beginTimestamp attempt rest s with
      hover | ⟨htime, mq, info, hselect⟩
    · rw [hover]
      exact h
    · obtain ⟨hbody, hkernel⟩ := preserved_sendKernelImpl attempt mq hundo hkeep h
      rcases sendLoop_cons_cases compress attempt rest htime hselect with
        ⟨result, heq⟩ | ⟨t, ht, heq⟩
      · rw [heq]
        exact hkernel
      · rw [heq]
        apply ih t
        · rw [Recompresses, ht.msg, hbody]
          exact hkeep
        · rw [ht.msg, ht.log]
          exact hkernel

/-- Without an address in any attempt nothing happens. -/
theorem sendLoop_of_not_reaches (attempts : List SendAttempt) (s : SendState)
    (h : ¬ producer.Reaches beginTimestamp s.info s.lastBrokerName s.endTimestamp attempts) :
    (producer.sendLoop compress beginTimestamp attempts s).msg = s.msg ∧
      (producer.sendLoop compress beginTimestamp attempts s).log = s.log := by
  induction attempts generalizing s with
  | nil => exact ⟨rfl, rfl⟩
  | cons attempt rest ih =>
    by_cases htime : toInt32 (s.endTimestamp - beginTimestamp) < producer.sendMsgTimeout
    · cases hselect : s.info.selectOneMessageQueue s.lastBrokerName with
      | mk selected info =>
        cases selected with
        | none => simp only [sendLoop, if_pos htime, hselect, and_self]
        | some mq =>
          simp only [Reaches, htime, hselect, true_and, not_or, not_not] at h
          obtain ⟨t, hmsg, hlog, hinfo, hlast, hend, heq⟩ :=
            sendLoop_cons_unknown compress rest htime hselect h.1
          rw [heq, ← hmsg, ← hlog]
          exact ih t (by rw [hinfo, hlast, hend]; exact h.2)
    · simp only [sendLoop, if_neg htime, and_self]

/-- The first request of a call that makes something else of the body breaks the promise, and
what comes later does not mend it. -/
theorem not_preserved_sendLoop (hundo : Undoes inflate compress) (attempts : List SendAttempt)
    (s : SendState) (hchange : producer.Recompresses compress s.msg)
    (h : producer.Reaches beginTimestamp s.info s.lastBrokerName s.endTimestamp attempts) :
    ¬ Preserved inflate body (producer.sendLoop compress beginTimestamp attempts s).msg
      (producer.sendLoop compress beginTimestamp attempts s).log := by
  induction attempts generalizing s with
  | nil => exact absurd h id
  | cons attempt rest ih =>
    obtain ⟨htime, h⟩ := h
    cases hselect : s.info.selectOneMessageQueue s.lastBrokerName with
    | mk selected info =>
      rw [hselect] at h
      cases selected with
      | none => exact absurd h id
      | some mq =>
        by_cases haddr : attempt.lookup.inPublish mq.brokerName = []
        · obtain ⟨t, hmsg, hlog, hinfo, hlast, hend, heq⟩ :=
            sendLoop_cons_unknown compress rest htime hselect haddr
          rw [heq]
          apply ih t (hmsg ▸ hchange)
          rw [hinfo, hlast, hend]
          exact h.resolve_left (not_not_intro haddr)
        · intro hpreserved
          have hnot : ¬ Preserved inflate body
              (producer.sendKernelImpl compress attempt s.msg mq).msg
              (s.log ++ (producer.sendKernelImpl compress attempt s.msg mq).sent) :=
            not_preserved_sendKernelImpl hundo hchange haddr
          apply hnot
          rcases sendLoop_cons_cases compress attempt rest htime hselect with
            ⟨result, heq⟩ | ⟨t, ht, heq⟩
          · rw [heq] at hpreserved
            exact hpreserved
          · rw [heq] at hpreserved
            rw [← ht.msg, ← ht.log]
            exact preserved_of_sendLoop hundo rest t hpreserved

end Loop
end DefaultMQProducer

/-! ### One call, and all calls -/

section Calls

variable {compress : Compress} {inflate : StdString → Option StdString} {msg : Message}
  {call : SendCall} {body : StdString}

theorem DefaultMQProducer.makeSureStateOK_iff {producer : DefaultMQProducer} :
    producer.makeSureStateOK = .ok () ↔ producer.serviceState = .running := by
  simp [DefaultMQProducer.makeSureStateOK]

/-- A call is refused, or enters the loop, or makes its one attempt. -/
theorem SendCall.outcome_cases (compress : Compress) (msg : Message) (call : SendCall) :
    ((call.outcome compress msg).msg = msg ∧ (call.outcome compress msg).log = [] ∧
        ¬ call.MakesRequest msg) ∨
      (∃ (beginTimestamp : Int) (attempts : List SendAttempt) (s : DefaultMQProducer.SendState),
        s.msg = msg ∧ s.log = [] ∧ call.outcome compress msg =
          call.producer.sendLoop compress beginTimestamp attempts s ∧
        (call.MakesRequest msg ↔ call.producer.Reaches beginTimestamp s.info s.lastBrokerName
          s.endTimestamp attempts)) ∨
      ∃ (attempt : SendAttempt) (mq : MessageQueue), (call.outcome compress msg).msg =
          (call.producer.sendKernelImpl compress attempt msg mq).msg ∧
        (call.outcome compress msg).log =
          (call.producer.sendKernelImpl compress attempt msg mq).sent ∧
        (call.MakesRequest msg ↔ attempt.lookup.inPublish mq.brokerName ≠ []) := by
  cases call with
  | anyQueue p mode namesrvAddrs info beginTimestamp attempts =>
    by_cases hadmitted : p.makeSureStateOK = .ok () ∧
        Validators.checkMessage msg p.maxMessageSize = .ok ()
    · obtain ⟨hstate, hcheck⟩ := hadmitted
      have hrunning := DefaultMQProducer.makeSureStateOK_iff.mp hstate
      cases hok : info.ok
      · left
        simp only [outcome, DefaultMQProducer.sendDefaultImpl, hstate, hcheck, hok, MakesRequest,
          Bool.false_eq_true, if_false, false_and, and_false, not_false_eq_true, and_true]
        split
        · exact ⟨rfl, rfl⟩
        · exact ⟨rfl, rfl⟩
      · refine .inr (.inl ⟨beginTimestamp, (List.range 3).map fun k ↦ (attempts k).inMode mode,
          ⟨msg, info, [], .default, beginTimestamp, []⟩, rfl, rfl, ?_, ?_⟩)
        · simp only [outcome, DefaultMQProducer.sendDefaultImpl, hstate, hcheck, hok, if_true,
            producer]
        · simp only [MakesRequest, producer, hrunning, hcheck, hok, true_and]
    · refine .inl (and_assoc.mp ⟨?_, fun h ↦
        hadmitted ⟨DefaultMQProducer.makeSureStateOK_iff.mpr h.1, h.2.1⟩⟩)
      simp only [outcome, DefaultMQProducer.sendDefaultImpl]
      split
      · exact ⟨rfl, rfl⟩
      · next hstate =>
        split
        · exact ⟨rfl, rfl⟩
        · next hcheck => exact absurd ⟨hstate, hcheck⟩ hadmitted
  | toQueue p mode mq attempt =>
    by_cases hadmitted : p.makeSureStateOK = .ok () ∧
        Validators.checkMessage msg p.maxMessageSize = .ok ()
    · obtain ⟨hstate, hcheck⟩ := hadmitted
      have hrunning := DefaultMQProducer.makeSureStateOK_iff.mp hstate
      by_cases htopic : msg.topic = mq.topic
      · refine .inr (.inr ⟨attempt.inMode mode, mq, ?_, ?_, ?_⟩)
        · simp [outcome, DefaultMQProducer.sendToQueue, hstate, hcheck, htopic, producer]
        · simp [outcome, DefaultMQProducer.sendToQueue, hstate, hcheck, htopic, producer]
        · simp [MakesRequest, producer, hrunning, hcheck, htopic]
      · left
        simp [outcome, DefaultMQProducer.sendToQueue, hstate, hcheck, htopic, MakesRequest]
    · refine .inl (and_assoc.mp ⟨?_, fun h ↦
        hadmitted ⟨DefaultMQProducer.makeSureStateOK_iff.mpr h.1, h.2.1⟩⟩)
      simp only [outcome, DefaultMQProducer.sendToQueue]
      split
      · exact ⟨rfl, rfl⟩
      · next hstate =>
        split
        · exact ⟨rfl, rfl⟩
        · next hcheck => exact absurd ⟨hstate, hcheck⟩ hadmitted

/-- A call that makes no request does nothing. -/
theorem SendCall.outcome_of_not_makesRequest (compress : Compress) (h : ¬ call.MakesRequest msg) :
    (call.outcome compress msg).msg = msg ∧ (call.outcome compress msg).log = [] := by
  rcases call.outcome_cases compress msg with ⟨hmsg, hlog, -⟩ |
    ⟨beginTimestamp, attempts, s, hmsg, hlog, heq, hiff⟩ | ⟨attempt, mq, hmsg, hlog, hiff⟩
  · exact ⟨hmsg, hlog⟩
  · rw [heq, ← hmsg, ← hlog]
    exact DefaultMQProducer.sendLoop_of_not_reaches attempts s (mt hiff.mpr h)
  · rw [hmsg, hlog, DefaultMQProducer.sendKernelImpl_unknown (not_not.mp (mt hiff.mpr h))]
    exact ⟨rfl, rfl⟩

/-- A call that makes nothing else of the body keeps everything. -/
theorem SendCall.preserved_outcome (hundo : Undoes inflate compress)
    (hkeep : ¬ call.producer.Recompresses compress msg) (hbody : msg.body.getD [] = body) :
    Preserved inflate body (call.outcome compress msg).msg (call.outcome compress msg).log := by
  have hstart : Preserved inflate body msg [] := ⟨hbody, by simp⟩
  rcases call.outcome_cases compress msg with ⟨hmsg, hlog, -⟩ |
    ⟨beginTimestamp, attempts, s, rfl, hlog, heq, -⟩ | ⟨attempt, mq, hmsg, hlog, -⟩
  · rw [hmsg, hlog]
    exact hstart
  · rw [heq]
    exact DefaultMQProducer.preserved_sendLoop hundo attempts s hkeep (hlog ▸ hstart)
  · rw [hmsg, hlog]
    exact (DefaultMQProducer.preserved_sendKernelImpl attempt mq
      (s := ⟨msg, ⟨[], 0⟩, [], .default, 0, []⟩) hundo hkeep hstart).2

/-- A call that makes a request and something else of the body does not. -/
theorem SendCall.not_preserved_outcome (hundo : Undoes inflate compress)
    (hchange : call.producer.Recompresses compress msg) (h : call.MakesRequest msg) :
    ¬ Preserved inflate body (call.outcome compress msg).msg (call.outcome compress msg).log := by
  rcases call.outcome_cases compress msg with ⟨-, -, hnot⟩ |
    ⟨beginTimestamp, attempts, s, rfl, -, heq, hiff⟩ | ⟨attempt, mq, hmsg, hlog, hiff⟩
  · exact absurd h hnot
  · rw [heq]
    exact DefaultMQProducer.not_preserved_sendLoop hundo attempts s hchange (hiff.mp h)
  · rw [hmsg, hlog]
    exact DefaultMQProducer.not_preserved_sendKernelImpl
      (s := ⟨msg, ⟨[], 0⟩, [], .default, 0, []⟩) hundo hchange (hiff.mp h)

end Calls

/-- The call makes no request, or it leaves the body as it is: there is none, it is shorter than
`compressMsgBodyOverHowmuch`, or compressing fails or gives the same bytes. -/
def SendCall.Harmless (compress : Compress) (s : SentObject) (call : SendCall) : Prop :=
  ¬ (call.MakesRequest s.msg ∧ call.producer.Recompresses compress s.msg)

/-- **Message bodies**: over any sends of a message object every request decodes to the original
body, and the object has it after every send, exactly when no send that makes a request
compresses the body to other bytes. -/
theorem preserved_iff_harmless (compress : Compress) (inflate : StdString → Option StdString)
    (hundo : Undoes inflate compress) (msg : Message) (calls : List SendCall) (t : SentObject)
    (hrun : Base.runFrom (SentObject.step compress) ⟨msg, []⟩ calls = some t) :
    (∀ x, Base.Visits (SentObject.step compress) ⟨msg, []⟩ calls x →
        Preserved inflate (msg.body.getD []) x.msg x.log) ↔
      Base.Along (SentObject.step compress) (SendCall.Harmless compress) ⟨msg, []⟩ calls := by
  have hstart : Preserved inflate (msg.body.getD []) msg [] := ⟨rfl, nofun⟩
  refine Base.safe_iff_along
    (fun s (h : Preserved inflate (msg.body.getD []) s.msg s.log) ↦ h) ?_ ?_ hstart hrun
  · intro s call t hs hgood hstep
    obtain rfl := Option.some.inj hstep
    by_cases hrequest : call.MakesRequest s.msg
    · have houtcome := SendCall.preserved_outcome hundo (fun h ↦ hgood ⟨hrequest, h⟩) hs.1
      exact ⟨houtcome.1, List.forall_mem_append.mpr ⟨hs.2, houtcome.2⟩⟩
    · obtain ⟨hmsg, hlog⟩ := SendCall.outcome_of_not_makesRequest compress hrequest
      simp only [hmsg, hlog, List.append_nil]
      exact hs
  · intro s call t hs hbad hstep ht
    obtain rfl := Option.some.inj hstep
    obtain ⟨hrequest, hchange⟩ := not_not.mp hbad
    exact SendCall.not_preserved_outcome hundo hchange hrequest
      ⟨ht.1, (List.forall_mem_append.mp ht.2).2⟩

/-- What zlib makes of the byte `a` at level 5, and of that. -/
def deflatedOnce : StdString := [120, 94, 75, 4, 0, 0, 98, 0, 98]

def deflatedTwice : StdString :=
  [120, 94, 171, 136, 243, 102, 97, 96, 72, 98, 72, 2, 0, 10, 222, 1, 234]

/-- Compressing of these two bodies; any other is refused. -/
def deflateSample : Compress := fun body level ↦
  if level = 5 then
    if body = str "a" then some deflatedOnce
    else if body = deflatedOnce then some deflatedTwice
    else none
  else none

/-- Inflating of the two compressed bodies. -/
def inflateSample (out : StdString) : Option StdString :=
  if out = deflatedOnce then some (str "a")
  else if out = deflatedTwice then some deflatedOnce
  else none

theorem undoes_sample : Undoes inflateSample deflateSample := by
  intro body level out h
  simp only [deflateSample] at h
  split_ifs at h with hlevel hfirst hsecond
  · cases h
    rw [hfirst]
    decide
  · cases h
    rw [hsecond]
    decide

/-- A producer with a threshold for compressing, and a send of it that the broker takes. -/
def sampleSend (threshold : Int) : SendCall :=
  .anyQueue ⟨.running, str "g", [], str "TBW102", 4, 3000, threshold, 5, 131072, false⟩ .sync
    [str "n:9876"] ⟨[⟨str "t", str "b", 0⟩], 0⟩ 0
    (fun _ ↦ ⟨⟨{(str "b", {(0, str "a:10911")})}, ∅⟩, 1, .response ⟨successValue, [],
      some ⟨str "id", 0, 0⟩⟩, 2⟩)

def sampleMessage : Message := ⟨str "t", 0, ∅, some (str "a")⟩

/-- A body below the threshold survives two sends. -/
theorem short_body_preserved :
    (Base.runFrom (SentObject.step deflateSample) ⟨sampleMessage, []⟩
        [sampleSend 4096, sampleSend 4096]).isSome ∧
      ∀ x, Base.Visits (SentObject.step deflateSample) ⟨sampleMessage, []⟩
        [sampleSend 4096, sampleSend 4096] x → Preserved inflateSample (str "a") x.msg x.log := by
  have hshort : ∀ s : SentObject, s.msg.body = some (str "a") →
      (sampleSend 4096).Harmless deflateSample s := by
    rintro s hs ⟨-, body, out, hbody, hlong, -⟩
    rw [hs] at hbody
    cases hbody
    revert hlong
    decide
  refine ⟨rfl, (preserved_iff_harmless deflateSample inflateSample undoes_sample sampleMessage _ _
    rfl).mpr ⟨hshort _ rfl, fun t ht ↦ ⟨hshort t ?_, fun _ _ ↦ trivial⟩⟩⟩
  obtain rfl := Option.some.inj ht
  decide +kernel

/-- A body above it does not: both sends of `a` succeed, but the second one carries the
compressed body, compressed again, and the object is left with that. -/
theorem resend_carries_compressed :
    ∃ t, Base.runFrom (SentObject.step deflateSample) ⟨sampleMessage, []⟩
        [sampleSend 1, sampleSend 1] = some t ∧
      t.log.map (·.decodedBody inflateSample) = [str "a", deflatedOnce] ∧
      t.msg.body = some deflatedTwice ∧ ¬ Preserved inflateSample (str "a") t.msg t.log := by
  refine ⟨_, rfl, by decide +kernel, by decide +kernel, ?_⟩
  rintro ⟨hbody, -⟩
  revert hbody
  decide +kernel

end RocketMQ
