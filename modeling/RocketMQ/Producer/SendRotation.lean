import RocketMQ.Factory.RouteUpdate
import RocketMQ.Producer.SendAcknowledged
import RocketMQ.Producer.SendBody

/-!
# Which queues the sends of a topic go to

`DefaultMQProducerImpl::tryToFindTopicPublishInfo` returns the `TopicPublishInfo` of a topic by
value, so the counter that `selectOneMessageQueue` moves on is the one of a copy.
-/

namespace RocketMQ

/-- A send to a topic: what it sends, and what the two calls of
`updateTopicRouteInfoFromNameServer` do to the table when they are made. -/
structure TopicSend where
  msg : Message
  mode : CommunicationMode
  namesrvAddrs : List StdString
  beginTimestamp : Int
  attempts : Nat → SendAttempt
  update : TopicPublishInfoTable → TopicPublishInfoTable
  updateDefault : TopicPublishInfoTable → TopicPublishInfoTable

/-- A producer's table, and the queue of every send so far. -/
structure RotationState where
  topicPublishInfoTable : TopicPublishInfoTable
  queues : List MessageQueue

/-- `src/producer/DefaultMQProducerImpl.cpp:665–684`: the table afterwards, and the copy of the
entry; `none` when there is none to read. -/
def TopicPublishInfoTable.tryToFindTopicPublishInfo (table : TopicPublishInfoTable)
    (topic : StdString) (update updateDefault : TopicPublishInfoTable → TopicPublishInfoTable) :
    TopicPublishInfoTable × Option TopicPublishInfo :=
  let found (table : TopicPublishInfoTable) : Bool := table[topic]?.any TopicPublishInfo.ok
  let table := if found table then table else update (table.insert topic ⟨[], 0⟩)
  let table := if found table then table else updateDefault table
  (table, table[topic]?)

namespace DefaultMQProducer

/-- The first attempt of a send on a queue. -/
def firstAttempt (producer : DefaultMQProducer) (compress : Compress) (send : TopicSend)
    (mq : MessageQueue) : KernelOutcome :=
  producer.sendKernelImpl compress ((send.attempts 0).inMode send.mode) send.msg mq

/-- The queue a send goes to when its first attempt succeeds,
`src/producer/DefaultMQProducerImpl.cpp:437–480`. -/
def sentAtOnce (producer : DefaultMQProducer) (compress : Compress) (info : TopicPublishInfo)
    (send : TopicSend) : Option MessageQueue :=
  match producer.makeSureStateOK, Validators.checkMessage send.msg producer.maxMessageSize with
  | .ok (), .ok () =>
    if info.ok ∧ toInt32 (send.beginTimestamp - send.beginTimestamp) < producer.sendMsgTimeout then
      (info.selectOneMessageQueue []).1.filter fun mq ↦
        match (producer.firstAttempt compress send mq).result with
        | some (.ok sendResult) => sendResult.sendStatus = .sendOk
        | _ => false
    else none
  | _, _ => none

section Send

variable {producer : DefaultMQProducer} {compress : Compress} {info : TopicPublishInfo}
  {send : TopicSend} {mq : MessageQueue}

theorem select_of_sentAtOnce (h : producer.sentAtOnce compress info send = some mq) :
    (info.selectOneMessageQueue []).1 = some mq := by
  rw [sentAtOnce] at h
  split at h
  · split_ifs at h
    exact (Option.filter_eq_some_iff.mp h).1
  · cases h

/-- Such a send is over after its first attempt. -/
theorem sendDefaultImpl_of_sentAtOnce (h : producer.sentAtOnce compress info send = some mq) :
    producer.sendDefaultImpl compress send.namesrvAddrs info send.beginTimestamp
        (fun k ↦ (send.attempts k).inMode send.mode) send.msg =
      ⟨(producer.firstAttempt compress send mq).msg, (producer.firstAttempt compress send mq).sent,
        (producer.firstAttempt compress send mq).result⟩ := by
  rw [sentAtOnce] at h
  split at h
  · next hstate hcheck =>
    split_ifs at h with hok
    obtain ⟨hselect, hresult⟩ := Option.filter_eq_some_iff.mp h
    rw [sendDefaultImpl, hstate, hcheck]
    simp only [hok.1, if_true, List.range_succ, List.range_zero, List.nil_append, List.cons_append,
      List.map_cons, sendLoop, hok.2]
    rw [show info.selectOneMessageQueue [] =
      (some mq, (info.selectOneMessageQueue []).2) from Prod.ext hselect rfl]
    split at hresult
    · next sendResult hkernel =>
      have hsendOk : sendResult.sendStatus = .sendOk := by simpa using hresult
      rw [firstAttempt] at hkernel
      simp [hkernel, hsendOk, firstAttempt]
    · cases hresult
  · cases h

end Send
end DefaultMQProducer

namespace RotationState

/-- The next send, one that succeeds at its first attempt. -/
def step (producer : DefaultMQProducer) (compress : Compress) (s : RotationState)
    (send : TopicSend) : Option RotationState :=
  let (table, info) := s.topicPublishInfoTable.tryToFindTopicPublishInfo send.msg.topic send.update
    send.updateDefault
  (info.bind (producer.sentAtOnce compress · send)).map fun mq ↦ ⟨table, s.queues ++ [mq]⟩

/-- After `k` sends: the one with the number `i` went to the queue `(c + i) mod n` of the list
that the topic had with the counter `c`, and the counter is `c + k` now. -/
def Rotated (t : RotationState) (topic : StdString) (info : TopicPublishInfo) (k : Nat) : Prop :=
  (∀ i < k, t.queues[i]? = info.messageQueueList[
    ((info.sendWhichQueue + i) % info.messageQueueList.length).toNat]?) ∧
  (t.topicPublishInfoTable[topic]?).map TopicPublishInfo.sendWhichQueue =
    some (info.sendWhichQueue + k)

section Run

variable {producer : DefaultMQProducer} {compress : Compress} {s t : RotationState}
  {topic : StdString} {info : TopicPublishInfo}

/-- A topic that has queues is found without a call, and the table stays as it is. -/
theorem tryToFindTopicPublishInfo_of_ok {table : TopicPublishInfoTable}
    (hinfo : table[topic]? = some info) (hok : info.ok = true)
    (update updateDefault : TopicPublishInfoTable → TopicPublishInfoTable) :
    table.tryToFindTopicPublishInfo topic update updateDefault = (table, some info) := by
  have hfound : table[topic]?.any TopicPublishInfo.ok = true := by rw [hinfo]; exact hok
  simp only [TopicPublishInfoTable.tryToFindTopicPublishInfo, if_pos hfound]
  rw [hinfo]

/-- One send leaves the table alone, and goes where the stored counter says. -/
theorem step_cases {send : TopicSend} (hinfo : s.topicPublishInfoTable[topic]? = some info)
    (hok : info.ok = true) (htopic : send.msg.topic = topic)
    (h : s.step producer compress send = some t) :
    t.topicPublishInfoTable = s.topicPublishInfoTable ∧
      ∃ mq, (info.selectOneMessageQueue []).1 = some mq ∧ t.queues = s.queues ++ [mq] := by
  rw [step, htopic, tryToFindTopicPublishInfo_of_ok hinfo hok] at h
  obtain ⟨mq, hsent, rfl⟩ := Option.map_eq_some_iff.mp h
  rw [Option.bind_some] at hsent
  exact ⟨rfl, mq, DefaultMQProducer.select_of_sentAtOnce hsent, rfl⟩

/-- All sends of a run go where the counter said at its start, and it still says so. -/
theorem run_spec {sends : List TopicSend} (hinfo : s.topicPublishInfoTable[topic]? = some info)
    (hok : info.ok = true) (htopic : ∀ send ∈ sends, send.msg.topic = topic)
    (hrun : Base.runFrom (step producer compress) s sends = some t) :
    t.topicPublishInfoTable = s.topicPublishInfoTable ∧
      t.queues.map some =
        s.queues.map some ++ List.replicate sends.length (info.selectOneMessageQueue []).1 := by
  induction sends generalizing s with
  | nil =>
    cases hrun
    exact ⟨rfl, by simp⟩
  | cons send rest ih =>
    obtain ⟨s', hstep, hrest⟩ := Base.runFrom_cons_eq_some.mp hrun
    obtain ⟨htable, mq, hselect, hqueues⟩ :=
      step_cases hinfo hok (htopic send List.mem_cons_self) hstep
    obtain ⟨htable', hqueues'⟩ := ih (by rw [htable, hinfo])
      (fun send' hmem ↦ htopic send' (List.mem_cons_of_mem _ hmem)) hrest
    refine ⟨htable'.trans htable, ?_⟩
    rw [hqueues', hqueues, hselect]
    simp [List.replicate_succ]

/-- The queue at a counter that is not negative. -/
theorem selectOneMessageQueue_eq (hnonneg : 0 ≤ info.sendWhichQueue)
    (hbound : info.sendWhichQueue < 2 ^ 31) :
    (info.selectOneMessageQueue []).1 =
      info.messageQueueList[info.sendWhichQueue.toNat % info.messageQueueList.length]? := by
  have habs : (abs32 info.sendWhichQueue % 2 ^ 64).toNat = info.sendWhichQueue.toNat := by
    rw [abs32, Int.natAbs_of_nonneg hnonneg, toInt32_of_range (by omega) hbound]
    omega
  simp only [TopicPublishInfo.selectOneMessageQueue, List.isEmpty_nil, Bool.not_true,
    Bool.false_eq_true, if_false, TopicPublishInfo.queueAt, habs]

end Run

/-- All sends of a run go to one queue. -/
theorem queues_eq_replicate {producer : DefaultMQProducer} {compress : Compress}
    {table : TopicPublishInfoTable} {topic : StdString} {info : TopicPublishInfo}
    {sends : List TopicSend} {t : RotationState} (hinfo : table[topic]? = some info)
    (hok : info.ok = true) (hnonneg : 0 ≤ info.sendWhichQueue)
    (hbound : info.sendWhichQueue + sends.length < 2 ^ 31)
    (htopic : ∀ send ∈ sends, send.msg.topic = topic)
    (hrun : Base.runFrom (step producer compress) ⟨table, []⟩ sends = some t) :
    t.queues.map some = List.replicate sends.length
      info.messageQueueList[info.sendWhichQueue.toNat % info.messageQueueList.length]? := by
  rw [(run_spec hinfo hok htopic hrun).2, selectOneMessageQueue_eq hnonneg (by omega),
    List.map_nil, List.nil_append]

/-- **Rotation**: a run of sends that succeed at once moves the stored counter on only when it
is empty. -/
theorem rotated_iff (producer : DefaultMQProducer) (compress : Compress)
    (table : TopicPublishInfoTable) (topic : StdString) (info : TopicPublishInfo)
    (sends : List TopicSend) (t : RotationState) (hinfo : table[topic]? = some info)
    (hok : info.ok = true) (htopic : ∀ send ∈ sends, send.msg.topic = topic)
    (hrun : Base.runFrom (step producer compress) ⟨table, []⟩ sends = some t) :
    t.Rotated topic info sends.length ↔ sends = [] := by
  have htable := (run_spec hinfo hok htopic hrun).1
  constructor
  · rintro ⟨-, hcounter⟩
    rw [htable, hinfo, Option.map_some, Option.some.injEq] at hcounter
    exact List.eq_nil_of_length_eq_zero (by omega)
  · rintro rfl
    refine ⟨fun i hi ↦ absurd hi (Nat.not_lt_zero i), ?_⟩
    rw [htable, hinfo, Option.map_some, List.length_nil]
    simp

/-- Two queues on one broker, with the counter at zero. -/
def twoQueues : TopicPublishInfo := ⟨[⟨str "t", str "b", 0⟩, ⟨str "t", str "b", 1⟩], 0⟩

/-- A send of one byte, which the broker stores. -/
def storedSend : TopicSend where
  msg := ⟨str "t", 0, ∅, some [1]⟩
  mode := .sync
  namesrvAddrs := [str "n:9876"]
  beginTimestamp := 0
  attempts _ :=
    ⟨⟨{(str "b", {(0, str "a:10911")})}, ∅⟩, 1, .response ⟨successValue, [], some ⟨[], 0, 0⟩⟩, 1⟩
  update := id
  updateDefault := id

theorem step_storedSend (queues : List MessageQueue) :
    RotationState.step DefaultMQProducer.defaultProducer (fun _ _ ↦ none)
        ⟨{(str "t", twoQueues)}, queues⟩ storedSend =
      some ⟨{(str "t", twoQueues)}, queues ++ [⟨str "t", str "b", 0⟩]⟩ := by
  have hsent : DefaultMQProducer.defaultProducer.sentAtOnce (fun _ _ ↦ none) twoQueues
      storedSend = some ⟨str "t", str "b", 0⟩ := by decide +kernel
  have hinfo : ({(str "t", twoQueues)} : TopicPublishInfoTable)[storedSend.msg.topic]? =
      some twoQueues := rfl
  rw [step, tryToFindTopicPublishInfo_of_ok hinfo rfl]
  simp only [Option.bind_some, hsent, Option.map_some]

/-- One send, and the counter has not moved. -/
theorem one_send_not_rotated :
    ∃ t, Base.runFrom (step DefaultMQProducer.defaultProducer fun _ _ ↦ none)
        ⟨{(str "t", twoQueues)}, []⟩ [storedSend] = some t ∧
      ¬ t.Rotated (str "t") twoQueues 1 := by
  have hrun : Base.runFrom (step DefaultMQProducer.defaultProducer fun _ _ ↦ none)
      ⟨{(str "t", twoQueues)}, []⟩ [storedSend] =
        some ⟨{(str "t", twoQueues)}, [⟨str "t", str "b", 0⟩]⟩ :=
    Base.runFrom_cons_eq_some.mpr ⟨_, step_storedSend [], rfl⟩
  refine ⟨_, hrun, fun hrotated ↦ ?_⟩
  have hempty := (rotated_iff DefaultMQProducer.defaultProducer (fun _ _ ↦ none)
    {(str "t", twoQueues)} (str "t") twoQueues [storedSend] _ rfl rfl (by simp [storedSend])
    hrun).mp hrotated
  cases hempty

/-- Two sends go to the first of two queues, and the counter is still zero. -/
theorem two_sends_not_rotated :
    ∃ t, Base.runFrom (step DefaultMQProducer.defaultProducer fun _ _ ↦ none)
        ⟨{(str "t", twoQueues)}, []⟩ [storedSend, storedSend] = some t ∧
      t.queues = [⟨str "t", str "b", 0⟩, ⟨str "t", str "b", 0⟩] ∧
      (t.topicPublishInfoTable[str "t"]?).map TopicPublishInfo.sendWhichQueue = some 0 ∧
      ¬ t.Rotated (str "t") twoQueues 2 := by
  have hcounter : ((({(str "t", twoQueues)} : TopicPublishInfoTable)[str "t"]?).map
      TopicPublishInfo.sendWhichQueue) = some 0 := rfl
  refine ⟨⟨{(str "t", twoQueues)}, [⟨str "t", str "b", 0⟩, ⟨str "t", str "b", 0⟩]⟩, ?_, rfl,
    hcounter, fun hrotated ↦ ?_⟩
  · rw [Base.runFrom_cons_eq_some]
    exact ⟨_, step_storedSend [], Base.runFrom_cons_eq_some.mpr
      ⟨_, step_storedSend [⟨str "t", str "b", 0⟩], rfl⟩⟩
  · have hmoved := hrotated.2
    rw [hcounter] at hmoved
    simp [twoQueues] at hmoved

end RotationState
end RocketMQ
