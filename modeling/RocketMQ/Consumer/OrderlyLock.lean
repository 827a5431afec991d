import RocketMQ.Common.VirtualEnv
import RocketMQ.Consumer.Orderly
import RocketMQ.Consumer.QueuesByBroker
import RocketMQ.Transport.RemotingCommand

/-!
# The locks of an orderly consumer

`RebalanceImpl::lock`, `MQClientAPIImpl::lockBatchMQ` and the bodies of `LOCK_BATCH_MQ`,
`src/protocol/LockBatchBody.cpp`, which are neither written nor read: whatever a broker answers,
no queue is among those it has locked. An orderly consumer takes messages from locked queues only.
-/

namespace RocketMQ

/-- What `lockBatchMQ` and `unlockBatchMQ` read of a reply. -/
structure BodyReply where
  code : Int
  remark : StdString
  body : List UInt8

/-- `LockBatchRequestBody::Encode`, `src/protocol/LockBatchBody.cpp:27–30`: what is appended to
the text. -/
def LockBatchRequestBody.encode (_ : LockBatchRequestBody) : StdString := []

/-- `src/protocol/LockBatchBody.h:50–66`. -/
structure LockBatchResponseBody where
  lockOKMQSet : Std.ExtTreeSet MessageQueue

/-- `LockBatchResponseBody::Decode`, `src/protocol/LockBatchBody.cpp:75–78`. -/
def LockBatchResponseBody.decode (_ : List UInt8) : LockBatchResponseBody := ⟨∅⟩

/-- What the requests need: the prefix of the project group, and what comes of the request with a
body to an address, `NULL` when there is no reply. -/
structure MQClientAPIImpl where
  projectGroupPrefix : StdString
  invokeSync : StdString → StdString → Option BodyReply

namespace MQClientAPIImpl

/-- The groups and topics with the prefix, `src/MQClientAPIImpl.cpp:620–634` and `694–708`. -/
def withProjectGroup (api : MQClientAPIImpl) (body : LockBatchRequestBody) : LockBatchRequestBody :=
  if isBlank api.projectGroupPrefix then body
  else
    { body with
      consumerGroup :=
        VirtualEnvUtil.buildWithProjectGroup body.consumerGroup api.projectGroupPrefix
      mqSet := Std.ExtTreeSet.ofList (body.mqSet.toList.map fun mq ↦
        { mq with topic := VirtualEnvUtil.buildWithProjectGroup mq.topic api.projectGroupPrefix }) }

/-- `src/MQClientAPIImpl.cpp:616–686`. -/
def lockBatchMQ (api : MQClientAPIImpl) (addr : StdString) (requestBody : LockBatchRequestBody) :
    Except MQException (Std.ExtTreeSet MessageQueue) :=
  match api.invokeSync addr (api.withProjectGroup requestBody).encode with
  | none => .error (.client (str "lockBatchMQ failed") (-1))
  | some response =>
    if response.code = successValue then
      let messageQueues := (LockBatchResponseBody.decode response.body).lockOKMQSet
      .ok (if isBlank api.projectGroupPrefix then messageQueues
        else Std.ExtTreeSet.ofList (messageQueues.toList.map fun mq ↦
          { mq with topic := VirtualEnvUtil.clearProjectGroup mq.topic api.projectGroupPrefix }))
    else .error (.client response.remark response.code)

/-- `src/MQClientAPIImpl.cpp:688–748`, not oneway. -/
def unlockBatchMQ (api : MQClientAPIImpl) (addr : StdString) (requestBody : LockBatchRequestBody) :
    Except MQException Unit :=
  match api.invokeSync addr (api.withProjectGroup requestBody).encode with
  | none => .error (.client (str "unlockBatchMQ failed") (-1))
  | some response =>
    if response.code = successValue then .ok ()
    else .error (.client response.remark response.code)

/-- A consumer's access to it, with its group and the addresses it knows. -/
def lockClient (api : MQClientAPIImpl) (consumerGroup clientId : StdString)
    (findBrokerAddressInSubscribe : StdString → StdString) : LockClient where
  consumerGroup := consumerGroup
  clientId := clientId
  findBrokerAddressInSubscribe := findBrokerAddressInSubscribe
  lockBatchMQ := api.lockBatchMQ
  unlockBatchMQ := api.unlockBatchMQ

end MQClientAPIImpl

namespace RebalanceImpl

/-- `src/consumer/RebalanceImpl.cpp:115–164`. -/
def lock (client : LockClient) (now : Nat) (table : ProcessQueueTable) (mq : MessageQueue) :
    ProcessQueueTable × Bool :=
  let brokerAddr := client.findBrokerAddressInSubscribe mq.brokerName
  if brokerAddr.isEmpty then (table, false)
  else
    match client.lockBatchMQ brokerAddr ⟨client.consumerGroup, client.clientId, {mq}⟩ with
    | .error _ => (table, false)
    | .ok lockedMq =>
      (lockedMq.toList.foldl (fun (table : ProcessQueueTable) mq ↦
        table.modify mq fun pq ↦ (pq.setLocked true).setLastLockTimestamp now) table,
        decide (mq ∈ lockedMq))

end RebalanceImpl

/-! ### What the requests come to -/

theorem toList_emptySet : (∅ : Std.ExtTreeSet MessageQueue).toList = [] := rfl

namespace MQClientAPIImpl

/-- Whatever the broker replies, no queue is locked. -/
theorem eq_empty_of_lockBatchMQ {api : MQClientAPIImpl} {addr : StdString}
    {requestBody : LockBatchRequestBody} {lockOKMQSet : Std.ExtTreeSet MessageQueue}
    (h : api.lockBatchMQ addr requestBody = .ok lockOKMQSet) : lockOKMQSet = ∅ := by
  unfold lockBatchMQ at h
  split at h
  · cases h
  · split_ifs at h
    · exact (Except.ok.inj h).symm
    · have hempty := (Except.ok.inj h).symm
      rw [hempty, LockBatchResponseBody.decode, toList_emptySet, List.map_nil,
        Std.ExtTreeSet.ofList_nil]

end MQClientAPIImpl

namespace RebalanceImpl

variable {api : MQClientAPIImpl} {group clientId : StdString} {find : StdString → StdString}

/-- `lock` locks nothing and says so. -/
theorem lock_eq (now : Nat) (table : ProcessQueueTable) (mq : MessageQueue) :
    lock (api.lockClient group clientId find) now table mq = (table, false) := by
  unfold lock
  simp only
  split_ifs with hempty
  · rfl
  · split
    · rfl
    · next lockedMq hlock =>
      obtain rfl := MQClientAPIImpl.eq_empty_of_lockBatchMQ hlock
      rw [toList_emptySet, List.foldl_nil, decide_eq_false Std.ExtTreeSet.not_mem_empty]

/-- Taking locks away leaves no lock behind. -/
theorem locked_foldl_modify (mqs : List MessageQueue) {table : ProcessQueueTable}
    {mq : MessageQueue} (htable : ∀ pq ∈ table[mq]?, pq.locked = false) :
    ∀ pq ∈ (mqs.foldl (fun (table : ProcessQueueTable) mq ↦
      table.modify mq fun pq ↦ pq.setLocked false) table)[mq]?, pq.locked = false := by
  induction mqs generalizing table with
  | nil => exact htable
  | cons mq' mqs ih =>
    rw [List.foldl_cons]
    apply ih
    rw [Std.ExtTreeMap.getElem?_modify]
    split_ifs
    · intro pq hpq
      obtain ⟨pq', -, rfl⟩ := Option.map_eq_some_iff.mp hpq
      rfl
    · exact htable

/-- Nor does a pass of `lockAll` lock anything. -/
theorem locked_lockBroker (now : Nat) {table : ProcessQueueTable} {mq : MessageQueue}
    (entry : StdString × Std.ExtTreeSet MessageQueue)
    (htable : ∀ pq ∈ table[mq]?, pq.locked = false) :
    ∀ pq ∈ (lockBroker (api.lockClient group clientId find) now table entry)[mq]?,
      pq.locked = false := by
  unfold lockBroker
  simp only
  split_ifs
  · exact htable
  · exact htable
  · split
    · exact htable
    · next lockOKMQSet hlock =>
      obtain rfl := MQClientAPIImpl.eq_empty_of_lockBatchMQ hlock
      rw [toList_emptySet, List.foldl_nil]
      exact locked_foldl_modify _ htable

end RebalanceImpl

/-! ### What the consumer comes to -/

namespace OrderlyState

/-- The lock of a queue changes only as these requests make it, whoever makes them, whatever the
other queues are and whatever the broker replies. -/
def ByRequests (mq : MessageQueue) (s : OrderlyState) : OrderlyEvent → Prop
  | .fire _ lockOK => ∃ (api : MQClientAPIImpl) (group clientId : StdString)
      (find : StdString → StdString) (table : ProcessQueueTable),
      (RebalanceImpl.lock (api.lockClient group clientId find) s.queue.now table mq).2 = lockOK
  | .lock granted => ∃ (api : MQClientAPIImpl) (group clientId : StdString)
      (find : StdString → StdString) (table : ProcessQueueTable)
      (entry : StdString × Std.ExtTreeSet MessageQueue),
      table[mq]? = some s.queue.pq ∧
        (RebalanceImpl.lockBroker (api.lockClient group clientId find) s.queue.now table entry)[mq]?
          = some (setLock s.queue granted).pq
  | .put _ | .start | .run _ _ | .drop | .clock _ => True

/-- In front of the test that finds the queue not locked. -/
def Early : OrderlyPc → Prop
  | .fetchLock | .testEntryLocked | .testEntryExpired | .testDropped _ | .testLocked _ => True
  | _ => False

/-- The queue is not locked, and nothing has come of its messages. -/
structure Untouched (store : RemoteBrokerOffsetStore) (s : OrderlyState) : Prop where
  locked : s.queue.pq.locked = false
  taken : s.queue.pq.taken = []
  committed : s.queue.committed = []
  store : s.queue.store = store
  early : ∀ pc ∈ s.running, Early pc
  put : ∀ offset, offset ∈ s.queue.pq.waiting ↔ offset ∈ s.queue.put

theorem untouched_init (now : Nat) (store : RemoteBrokerOffsetStore) :
    (init now store).Untouched store where
  locked := rfl
  taken := rfl
  committed := rfl
  store := rfl
  early := nofun
  put _ := Iff.rfl

/-- Until it comes to the test for the lock a request does nothing, and there it ends. -/
theorem early_doStep {mq : MessageQueue} {q q' : OrderlyQueue} {pc : OrderlyPc}
    {input : OrderlyInput} {next : OrderlyNext} (hlocked : q.pq.locked = false) (hearly : Early pc)
    (h : q.doStep mq pc input = some (q', next)) : q' = q ∧ ∀ pc' ∈ next.pc, Early pc' := by
  cases pc with
  | testLocked beginTime =>
    have hbreak : q.LockBreak (.testLocked beginTime) := hlocked
    obtain ⟨rfl, rfl⟩ := OrderlyQueue.doStep_of_lockBreak hbreak h
    exact ⟨rfl, nofun⟩
  | testEntryLocked | testEntryExpired | testDropped beginTime =>
    cases input <;> simp only [OrderlyQueue.doStep, Option.some.injEq, Prod.mk.injEq,
      reduceCtorEq] at h
    obtain ⟨rfl, rfl⟩ := h
    refine ⟨rfl, fun pc' hpc' ↦ ?_⟩
    split_ifs at hpc' <;> cases hpc' <;> trivial
  | fetchLock => simp [OrderlyQueue.doStep] at h
  | _ => cases hearly

theorem Untouched.goNext {store : RemoteBrokerOffsetStore} {s : OrderlyState}
    (hs : s.Untouched store) (i : Nat) {next : OrderlyNext} (hnext : ∀ pc ∈ next.pc, Early pc) :
    (s.goNext i s.queue next).Untouched store := by
  cases next with
  | goOn pc =>
    refine ⟨hs.locked, hs.taken, hs.committed, hs.store, fun pc' hpc' ↦ ?_, hs.put⟩
    rcases List.mem_or_eq_of_mem_set hpc' with hold | rfl
    · exact hs.early pc' hold
    · exact hnext pc' rfl
  | leave | leaveLater timer =>
    refine ⟨hs.locked, hs.taken, hs.committed, hs.store, fun pc' hpc' ↦ ?_, hs.put⟩
    exact hs.early pc' (List.mem_of_mem_eraseIdx hpc')

theorem untouched_step {mq : MessageQueue} {store : RemoteBrokerOffsetStore} (s : OrderlyState)
    (e : OrderlyEvent) (t : OrderlyState) (hs : s.Untouched store) (hby : ByRequests mq s e)
    (h : s.step mq e = some t) : t.Untouched store := by
  cases stepped_of_step h with
  | put msgs =>
    refine ⟨?_, ?_, hs.committed, hs.store, hs.early, fun offset ↦ ?_⟩
    · rw [← hs.locked]
      simp only [ProcessQueue.putMessage]
      split <;> rfl
    · rw [ProcessQueue.taken_putMessage, hs.taken]
    · rw [ProcessQueue.mem_waiting_putMessage, List.mem_append, hs.put, or_comm]
  | start hpos =>
    refine ⟨hs.locked, hs.taken, hs.committed, hs.store, fun pc hpc ↦ ?_, hs.put⟩
    rcases List.mem_append.mp hpc with hold | hnew
    · exact hs.early pc hold
    · rw [List.mem_singleton.mp hnew]
      trivial
  | takeLock hi hfree =>
    refine ⟨hs.locked, hs.taken, hs.committed, hs.store, fun pc hpc ↦ ?_, hs.put⟩
    rcases List.mem_or_eq_of_mem_set hpc with hold | rfl
    · exact hs.early pc hold
    · trivial
  | doStep hi hpast hdo =>
    have hearly := hs.early _ (List.mem_of_getElem? hi)
    obtain ⟨rfl, hnext⟩ := early_doStep hs.locked hearly hdo
    exact hs.goNext _ hnext
  | fireSubmit hi => exact ⟨hs.locked, hs.taken, hs.committed, hs.store, hs.early, hs.put⟩
  | fireLock lockOK hi =>
    obtain ⟨api, group, clientId, find, table, hlock⟩ := hby
    rw [RebalanceImpl.lock_eq] at hlock
    subst hlock
    exact ⟨hs.locked, hs.taken, hs.committed, hs.store, hs.early, hs.put⟩
  | lock granted =>
    obtain ⟨api, group, clientId, find, table, entry, hentry, hpass⟩ := hby
    have htable : ∀ pq ∈ table[mq]?, pq.locked = false := by
      rintro pq hpq
      obtain rfl := Option.some.inj (hentry.symm.trans hpq)
      exact hs.locked
    have hnot := RebalanceImpl.locked_lockBroker s.queue.now entry htable _ hpass
    cases granted with
    | true => cases hnot
    | false => exact ⟨rfl, hs.taken, hs.committed, hs.store, hs.early, hs.put⟩
  | drop | clock now => exact ⟨hs.locked, hs.taken, hs.committed, hs.store, hs.early, hs.put⟩

/-- An orderly consumer never consumes: whatever brokers answer to its lock requests, it takes none
of the messages it has pulled, commits nothing and stores no offset for what it consumed. The pull
path, which stores offsets of its own, is not part of the run. -/
theorem orderly_never_consumes {mq : MessageQueue} {now : Nat} {store : RemoteBrokerOffsetStore}
    {es : List OrderlyEvent} {s : OrderlyState}
    (hby : Base.Along (step mq) (ByRequests mq) (init now store) es)
    (hrun : Base.runFrom (step mq) (init now store) es = some s) :
    s.queue.pq.locked = false ∧ s.queue.pq.taken = [] ∧ s.queue.committed = [] ∧
      s.queue.store = store ∧ (∀ beginTime msgs, .listening beginTime msgs ∉ s.running) ∧
      ∀ offset, offset ∈ s.queue.pq.waiting ↔ offset ∈ s.queue.put := by
  have hs : s.Untouched store :=
    Base.inv_of_along untouched_step (untouched_init now store) hby hrun
  exact ⟨hs.locked, hs.taken, hs.committed, hs.store, fun _ _ hpc ↦ hs.early _ hpc, hs.put⟩

/-- A queue with a message, whose request finds the lock expired; the broker grants it, but locking
fails. -/
def grantedRun : List OrderlyEvent :=
  [.put [.at 7], .clock 100000, .start, .run 0 .go, .run 0 .go, .run 0 .go, .fire 0 false]

/-- The queue. -/
def grantedQueue : MessageQueue := ⟨str "TopicTest", str "broker-a", 0⟩

/-- A broker that has locked the queue, and says so. -/
def grantingApi : MQClientAPIImpl where
  projectGroupPrefix := []
  invokeSync _ _ := some ⟨successValue, [], str
    "\x7b\"lockOKMQSet\":[\x7b\"queueId\":0,\"topic\":\"TopicTest\"\x7d]\x7d"⟩

theorem byRequests_grantedRun : ∀ e ∈ grantedRun, ∀ s, ByRequests grantedQueue s e := by
  intro e he s
  simp only [grantedRun, List.mem_cons, List.not_mem_nil, or_false] at he
  rcases he with rfl | rfl | rfl | rfl | rfl | rfl | rfl
  case inr.inr.inr.inr.inr.inr =>
    exact ⟨grantingApi, str "g", str "c", fun _ ↦ str "10.0.0.1:10911",
      {(grantedQueue, s.queue.pq)}, congrArg Prod.snd (RebalanceImpl.lock_eq _ _ _)⟩
  all_goals trivial

/-- The state after it. -/
def grantedState : OrderlyState :=
  (Base.runFrom (step grantedQueue) (init 0 ⟨str "g", ∅⟩) grantedRun).get (by decide +kernel)

theorem orderly_never_consumes_granted :
    grantedState.queue.pq.locked = false ∧ grantedState.queue.pq.taken = [] ∧
      grantedState.queue.committed = [] ∧ grantedState.queue.store = ⟨str "g", ∅⟩ ∧
      (∀ beginTime msgs, .listening beginTime msgs ∉ grantedState.running) ∧
      ∀ offset, offset ∈ grantedState.queue.pq.waiting ↔ offset ∈ grantedState.queue.put :=
  orderly_never_consumes (Base.along_of_forall_mem byRequests_grantedRun _)
    (Option.some_get (by decide +kernel)).symm

end OrderlyState
end RocketMQ
