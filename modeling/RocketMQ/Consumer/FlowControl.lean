import Mathlib.Algebra.Order.Ring.Int
import Mathlib.Data.List.Flatten
import RocketMQ.Base.Custody
import RocketMQ.Base.RefillGate
import RocketMQ.Consumer.Concurrently
import RocketMQ.Consumer.MessageCount
import RocketMQ.Consumer.PullMessage

/-!
# Flow control of pulls

`DefaultMQPushConsumerImpl::pullMessage` delays a pull while `m_msgCount` is above the
threshold, `src/consumer/DefaultMQPushConsumerImpl.cpp:284–294`. The counter is read once, the
reply comes a round trip later, and in between the requests of one of the two consume services
change the two maps and the counter. The counter never falls below the number of messages in
the maps, and it passes through a `RefillGate`.
-/

namespace RocketMQ

namespace ConsumeMessageConcurrentlyService

/-- The loop that makes the requests, `src/consumer/ConsumeMessageConcurrentlyService.cpp:126–144`,
for the iterations that are left. -/
def submitLoop (consumeBatchSize : Nat) : Nat → List MessageExt → List (List MessageExt)
  | 0, _ => []
  | n + 1, msgs =>
    if msgs.isEmpty then []
    else msgs.take consumeBatchSize :: submitLoop consumeBatchSize n (msgs.drop consumeBatchSize)

/-- The messages of the requests that `submitConsumeRequest` makes,
`src/consumer/ConsumeMessageConcurrentlyService.cpp:112–146`, for a batch size of at least one. -/
def submitConsumeRequest (consumeBatchSize : Nat) (msgs : List MessageExt) :
    List (List MessageExt) :=
  if msgs.length ≤ consumeBatchSize then [msgs]
  else submitLoop consumeBatchSize msgs.length msgs

private theorem flatten_submitLoop_sublist (consumeBatchSize n : Nat) (msgs : List MessageExt) :
    (submitLoop consumeBatchSize n msgs).flatten.Sublist msgs := by
  induction n generalizing msgs with
  | zero => exact List.nil_sublist msgs
  | succ n ih =>
    rw [submitLoop]
    split
    · exact List.nil_sublist msgs
    · have hrest := (ih (msgs.drop consumeBatchSize)).append_left (msgs.take consumeBatchSize)
      rw [List.take_append_drop] at hrest
      exact hrest

/-- No message comes into two requests, and none that was not given. -/
theorem flatten_submitConsumeRequest_sublist (consumeBatchSize : Nat) (msgs : List MessageExt) :
    (submitConsumeRequest consumeBatchSize msgs).flatten.Sublist msgs := by
  unfold submitConsumeRequest
  split
  · rw [List.flatten_singleton]
  · exact flatten_submitLoop_sublist consumeBatchSize msgs.length msgs

/-- The messages that failed are among those of the request. -/
theorem msgBackFailed_sublist (ackIndex : Int) (messageModel : MessageModel)
    (sendMessageBack : MessageExt → Bool) (msgs : List MessageExt) :
    (msgBackFailed ackIndex messageModel sendMessageBack msgs).Sublist msgs := by
  cases messageModel with
  | broadcasting => exact List.nil_sublist msgs
  | clustering => exact List.filter_sublist.trans (List.drop_sublist _ msgs)

/-- What is removed and what is submitted again are different messages of the request. -/
theorem eraseFailed_append_subperm {msgs failed : List MessageExt} (hn : (offsets msgs).Nodup)
    (hsub : failed.Sublist msgs) : (eraseFailed msgs failed ++ failed).Subperm msgs := by
  have herase : (eraseFailed msgs failed).Sublist msgs := List.filter_sublist
  apply List.Nodup.subperm
  · have hmsgs : msgs.Nodup := List.Nodup.of_map _ hn
    refine List.nodup_append.mpr ⟨hmsgs.sublist herase, hmsgs.sublist hsub, ?_⟩
    rintro m hm _ hfailed rfl
    have hkept := (List.mem_filter.mp hm).2
    rw [Bool.not_eq_true', List.any_eq_false] at hkept
    exact hkept m hfailed (beq_self_eq_true m.address)
  · intro m hm
    rcases List.mem_append.mp hm with hkept | hfailed
    · exact herase.subset hkept
    · exact hsub.subset hfailed

end ConsumeMessageConcurrentlyService
/-- The settings that decide how much is pulled and how it is consumed. Both sizes are at least
one when `checkConfig` is through, `src/consumer/DefaultMQPushConsumerImpl.cpp:659–671`. -/
structure FlowConfig where
  consumer : PushConsumer
  pullBatchSize : Nat
  consumeMessageBatchMaxSize : Nat

/-- One queue with its `PullRequest`: whether a pull is out, the requests of the concurrent
service and those on its timers, and everything the orderly service has to do with it. -/
structure FlowState where
  orderly : OrderlyState
  requests : List (List MessageExt)
  timers : List (List MessageExt)
  pulling : Bool

/-- What can happen next. A pull that is out ends with messages or without; `consume` is a step
of the orderly service; the rest are steps of the `n`-th request of the concurrent service. -/
inductive FlowEvent where
  | pullMessage (client : PullClient) (input : PullInput) (pullRequest : PullRequest)
  | found (msgs : List MessageExt)
  | notFound
  | drop
  | consume (e : OrderlyEvent)
  | leave (n : Nat)
  | processConsumeResult (n : Nat) (status : ConsumeConcurrentlyStatus) (ackIndex : Int)
      (messageModel : MessageModel) (sendMessageBack : MessageExt → Bool)
  | submitConsumeRequestLater (n : Nat)

namespace FlowState

/-- A new queue at time `now`, before its first pull. -/
def start (now : Nat) (store : RemoteBrokerOffsetStore) : FlowState :=
  ⟨.init now store, [], [], false⟩

/-- The queue's buffer. -/
def pq (s : FlowState) : ProcessQueue := s.orderly.queue.pq

/-- All offsets put so far. -/
def put (s : FlowState) : List Int := s.orderly.queue.put

/-- The state with another buffer and other put offsets. -/
def withPq (s : FlowState) (pq : ProcessQueue) (put : List Int) : FlowState :=
  { s with orderly := { s.orderly with queue := { s.orderly.queue with pq, put } } }

/-- The case `FOUND` of `onSuccess`, `src/consumer/DefaultMQPushConsumerImpl.cpp:814–846`: only
the orderly service looks at the result of `putMessage`. -/
def onFound (config : FlowConfig) (mq : MessageQueue) (s : FlowState) (msgs : List MessageExt) :
    Option FlowState :=
  if config.consumer.consumeOrderly then
    (s.orderly.step mq (.put msgs)).map fun orderly ↦ { s with orderly, pulling := false }
  else
    some { s.withPq (s.pq.putMessage msgs).1 (s.put ++ offsets msgs) with
      requests := s.requests ++ ConsumeMessageConcurrentlyService.submitConsumeRequest
        config.consumeMessageBatchMaxSize msgs
      pulling := false }

/-- One step. A broker returns at most a batch, of messages with offsets never put before. -/
def step (config : FlowConfig) (mq : MessageQueue) (s : FlowState) : FlowEvent → Option FlowState
  | .pullMessage client input pullRequest =>
    if s.pulling then none
    else
      let outcome := config.consumer.pullMessage client { input with msgCount := s.pq.msgCount }
        { pullRequest with dropped := s.pq.dropped }
      some { s with pulling := decide (outcome = .invoked) }
  | .found msgs =>
    if s.pulling = true ∧ msgs.length ≤ config.pullBatchSize ∧ (offsets msgs).Nodup ∧
        ∀ o ∈ offsets msgs, o ∉ s.put then
      s.onFound config mq msgs
    else none
  | .notFound => if s.pulling then some { s with pulling := false } else none
  | .drop => some (s.withPq (s.pq.setDropped true) s.put)
  | .consume e =>
    match e with
    | .put _ => none
    | e =>
      if config.consumer.consumeOrderly then
        (s.orderly.step mq e).map fun orderly ↦ { s with orderly }
      else none
  | .leave n =>
    if s.pq.dropped then some { s with requests := s.requests.eraseIdx n } else none
  | .processConsumeResult n status ackIndex messageModel sendMessageBack =>
    match s.requests[n]? with
    | none => none
    | some msgs =>
      let (pq, _, failed) := ConsumeMessageConcurrentlyService.processConsumeResult s.pq status
        ackIndex messageModel sendMessageBack msgs
      some { s.withPq pq s.put with
        requests := s.requests.eraseIdx n
        timers := if failed.isEmpty then s.timers else s.timers ++ [failed] }
  | .submitConsumeRequestLater n =>
    match s.timers[n]? with
    | none => none
    | some msgs => some { s with
        requests := s.requests ++ ConsumeMessageConcurrentlyService.submitConsumeRequest
          config.consumeMessageBatchMaxSize msgs
        timers := s.timers.eraseIdx n }

/-- All messages of the concurrent service, with a request or on a timer. -/
def held (s : FlowState) : List MessageExt := s.requests.flatten ++ s.timers.flatten

/-- The counter as a gate of the pulls. -/
def gate (s : FlowState) : Base.RefillGate Int := ⟨s.pq.msgCount, s.pulling⟩

/-! ### The messages of the concurrent service -/

/-- The messages are different, buffered, and were put. -/
structure Requested (held : List MessageExt) (pq : ProcessQueue) (put : List Int) : Prop where
  nodup : (offsets held).Nodup
  waiting : ∀ o ∈ offsets held, o ∈ pq.waiting
  known : ∀ o ∈ offsets held, o ∈ put

section Requested

variable {held left msgs new : List MessageExt} {pq pq' : ProcessQueue} {put : List Int}

/-- Some of the messages, in any order. -/
theorem Requested.of_subperm (h : Requested held pq put) (hsub : left.Subperm held) :
    Requested left pq put := by
  have hmem : ∀ o ∈ offsets left, o ∈ offsets held := by
    intro o ho
    obtain ⟨m, hm, rfl⟩ := List.mem_map.mp ho
    exact List.mem_map_of_mem (hsub.subset hm)
  constructor
  · obtain ⟨l, hperm, hsublist⟩ := hsub
    exact (hperm.map _).nodup_iff.mp (h.nodup.sublist (hsublist.map _))
  · exact fun o ho ↦ h.waiting o (hmem o ho)
  · exact fun o ho ↦ h.known o (hmem o ho)

/-- Only the buffered messages of the queue matter. -/
theorem Requested.of_waiting (h : Requested held pq put)
    (hwaiting : ∀ o ∈ offsets held, o ∈ pq.waiting → o ∈ pq'.waiting) :
    Requested held pq' put :=
  ⟨h.nodup, fun o ho ↦ hwaiting o ho (h.waiting o ho), h.known⟩

/-- A put adds messages that are different from all others. -/
theorem Requested.putMessage (h : Requested held pq put) (hn : (offsets msgs).Nodup)
    (hfresh : ∀ o ∈ offsets msgs, o ∉ put) (hnew : new.Sublist msgs) :
    Requested (held ++ new) (pq.putMessage msgs).1 (put ++ offsets msgs) := by
  have hsub : ∀ o ∈ offsets new, o ∈ offsets msgs := fun o ho ↦ (hnew.map _).subset ho
  constructor
  · rw [offsets, List.map_append, List.nodup_append]
    refine ⟨h.nodup, hn.sublist (hnew.map _), ?_⟩
    rintro o ho _ ho' rfl
    exact hfresh o (hsub o ho') (h.known o ho)
  · intro o ho
    rw [offsets, List.map_append, List.mem_append] at ho
    apply (pq.mem_waiting_putMessage msgs).mpr
    rcases ho with hold | hadded
    · exact Or.inr (h.waiting o hold)
    · exact Or.inl (hsub o hadded)
  · intro o ho
    rw [offsets, List.map_append, List.mem_append] at ho
    apply List.mem_append.mpr
    rcases ho with hold | hadded
    · exact Or.inl (h.known o hold)
    · exact Or.inr (hsub o hadded)

/-- A removal leaves the other messages buffered. -/
theorem Requested.removeMessage (h : Requested (msgs ++ left) pq put) :
    Requested left (pq.removeMessage msgs).1 put := by
  have hdisjoint := h.nodup
  rw [offsets, List.map_append, List.nodup_append] at hdisjoint
  apply (h.of_subperm (List.sublist_append_right msgs left).subperm).of_waiting
  intro o ho hw
  exact (pq.mem_waiting_removeMessage msgs).mpr
    ⟨fun hmem ↦ hdisjoint.2.2 o hmem o ho rfl, hw⟩

/-- A request that finishes removes some of its messages, and the ones that failed stay. -/
theorem Requested.processConsumeResult (h : Requested (msgs ++ left) pq put)
    (status : ConsumeConcurrentlyStatus) (ackIndex : Int) (messageModel : MessageModel)
    (sendMessageBack : MessageExt → Bool) {failed : List MessageExt} {offset : Option Int}
    (hresult : ConsumeMessageConcurrentlyService.processConsumeResult pq status ackIndex
      messageModel sendMessageBack msgs = (pq', offset, failed)) :
    pq.Drains pq' ∧ pq'.taken = pq.taken ∧ failed.Sublist msgs ∧
      Requested (failed ++ left) pq' put := by
  unfold ConsumeMessageConcurrentlyService.processConsumeResult at hresult
  split at hresult
  · next hempty =>
    simp only [Prod.mk.injEq] at hresult
    obtain ⟨rfl, -, rfl⟩ := hresult
    refine ⟨ProcessQueue.drains_of_le rfl le_rfl, rfl, List.nil_sublist msgs, ?_⟩
    exact h.of_subperm (List.sublist_append_right msgs left).subperm
  · simp only [Prod.mk.injEq] at hresult
    obtain ⟨rfl, -, rfl⟩ := hresult
    have hfailed := ConsumeMessageConcurrentlyService.msgBackFailed_sublist
      (ConsumeMessageConcurrentlyService.settledAckIndex status ackIndex msgs.length) messageModel
      sendMessageBack msgs
    have hmsgs := h.of_subperm (List.sublist_append_left msgs left).subperm
    have hsplit := ConsumeMessageConcurrentlyService.eraseFailed_append_subperm hmsgs.nodup hfailed
    have hall := h.of_subperm ((List.subperm_append_right left).mpr hsplit)
    rw [List.append_assoc] at hall
    have hkept := hall.of_subperm (List.sublist_append_left _ _).subperm
    exact ⟨pq.drains_removeMessage _ hkept.nodup hkept.waiting, pq.taken_removeMessage _, hfailed,
      hall.removeMessage⟩

end Requested

/-- A request out of the list, and the other messages. -/
theorem held_perm_of_request {s : FlowState} {n : Nat} {msgs : List MessageExt}
    (hn : s.requests[n]? = some msgs) :
    s.held.Perm (msgs ++ ((s.requests.eraseIdx n).flatten ++ s.timers.flatten)) := by
  have hperm := Base.map_perm_eraseIdx id hn
  rw [List.map_id, List.map_id, id] at hperm
  have hflat := hperm.flatten.append_right s.timers.flatten
  rw [List.flatten_cons, List.append_assoc] at hflat
  exact hflat

/-- A timer out of the list, and the other messages. -/
theorem held_perm_of_timer {s : FlowState} {n : Nat} {msgs : List MessageExt}
    (hn : s.timers[n]? = some msgs) :
    s.held.Perm ((s.requests.flatten ++ msgs) ++ (s.timers.eraseIdx n).flatten) := by
  have hperm := Base.map_perm_eraseIdx id hn
  rw [List.map_id, List.map_id, id] at hperm
  have hflat := hperm.flatten.append_left s.requests.flatten
  rw [List.flatten_cons, ← List.append_assoc] at hflat
  exact hflat

/-! ### The bound -/

/-- A pull that is handed to a connection found the counter within the threshold. -/
theorem msgCount_le_of_invoked {consumer : PushConsumer} {client : PullClient}
    {input : PullInput} {pullRequest : PullRequest}
    (h : consumer.pullMessage client input pullRequest = .invoked) :
    input.msgCount ≤ consumer.pullThresholdForQueue := by
  cases hd : pullRequest.dropped with
  | true =>
    rw [PushConsumer.pullMessage, PushConsumer.pullMessageImpl, hd] at h
    split at h <;> exact absurd h (by simp)
  | false => exact ((pullMessage_eq_invoked_iff hd).mp h).countWithin

/-- The counter passes through the gate, and not more messages are stored than counted. -/
structure Bounded (config : FlowConfig) (s : FlowState) : Prop where
  within : s.gate.Within config.consumer.pullThresholdForQueue config.pullBatchSize
  counted : (s.pq.stored : Int) ≤ s.pq.msgCount

/-- The invariant. Only one of the two services has messages of the queue. -/
structure Inv (config : FlowConfig) (s : FlowState) : Prop where
  bounded : s.Bounded config
  covered : s.orderly.Covered
  requested : Requested s.held s.pq s.put
  oneService : config.consumer.consumeOrderly = true → s.held = []

section Steps

variable {config : FlowConfig} {mq : MessageQueue} {s t : FlowState}

/-- Within the bound not more is stored than the threshold and one batch. -/
theorem Bounded.stored_le (h : s.Bounded config) :
    (s.pq.stored : Int) ≤ config.consumer.pullThresholdForQueue + config.pullBatchSize :=
  h.counted.trans (h.within.count_le (Int.natCast_nonneg _))

/-- Consumption only drains. -/
theorem Bounded.drain (h : s.Bounded config) (hdrains : s.pq.Drains t.pq)
    (hpulling : t.pulling = s.pulling) : t.Bounded config := by
  have hcounted := h.counted
  refine ⟨h.within.move (Int.natCast_nonneg _) ?_, by have := hdrains.1; omega⟩
  rw [gate, gate, hpulling]
  exact .drain hdrains.2

/-- Nothing is stored at the start. -/
theorem inv_start (hthreshold : 0 ≤ config.consumer.pullThresholdForQueue) (now : Nat)
    (store : RemoteBrokerOffsetStore) : (start now store).Inv config := by
  have hbatch := Int.natCast_nonneg config.pullBatchSize
  refine ⟨⟨?_, le_rfl⟩, OrderlyState.covered_init now store, ?_, fun _ ↦ rfl⟩
  · exact add_nonneg hthreshold hbatch
  · constructor <;> simp [held, start]

/-- A pull goes out only within the threshold. -/
theorem inv_pullMessage (h : s.Inv config) (client : PullClient) (input : PullInput)
    (pullRequest : PullRequest)
    (hstep : s.step config mq (.pullMessage client input pullRequest) = some t) :
    t.Inv config := by
  simp only [step] at hstep
  split at hstep
  · exact absurd hstep (by simp)
  · next hpulling =>
    obtain rfl := Option.some.inj hstep
    refine ⟨⟨?_, h.bounded.counted⟩, h.covered, h.requested, h.oneService⟩
    apply h.bounded.within.move (Int.natCast_nonneg _)
    simp only [gate, Bool.not_eq_true] at hpulling ⊢
    rw [hpulling]
    generalize hpull : config.consumer.pullMessage client _ _ = outcome
    by_cases hinvoked : outcome = .invoked
    · rw [decide_eq_true hinvoked]
      exact .request (msgCount_le_of_invoked (hpull.trans hinvoked))
    · rw [decide_eq_false hinvoked]
      exact .drain le_rfl

/-- A reply with at most a batch of fresh messages refills. -/
theorem inv_found (h : s.Inv config) (msgs : List MessageExt)
    (hstep : s.step config mq (.found msgs) = some t) : t.Inv config := by
  simp only [step, Option.ite_none_right_eq_some] at hstep
  obtain ⟨⟨hpulling, hle, hn, hfresh⟩, hfound⟩ := hstep
  have hstored := s.pq.stored_putMessage_le msgs
  have hcounted := h.bounded.counted
  have hmove : Base.RefillGate.Move config.consumer.pullThresholdForQueue
      (config.pullBatchSize : Int) s.gate ⟨(s.pq.putMessage msgs).1.msgCount, false⟩ := by
    rw [gate, hpulling, ProcessQueue.msgCount_putMessage]
    exact .refill (Int.ofNat_le.mpr hle)
  have hwithin := h.bounded.within.move (Int.natCast_nonneg _) hmove
  have hcounted' : ((s.pq.putMessage msgs).1.stored : Int) ≤ (s.pq.putMessage msgs).1.msgCount := by
    rw [ProcessQueue.msgCount_putMessage]
    omega
  unfold onFound at hfound
  split at hfound
  · next horderly =>
    obtain ⟨orderly, hput, rfl⟩ := Option.map_eq_some_iff.mp hfound
    have hcovered := (OrderlyState.covered_step h.covered hput).1
    simp only [OrderlyState.step, Option.some.injEq] at hput
    have hnone := h.oneService horderly
    subst hput
    refine ⟨⟨hwithin, hcounted'⟩, hcovered, ?_, h.oneService⟩
    have hrequested := h.requested.putMessage hn hfresh (List.nil_sublist msgs)
    rw [List.append_nil] at hrequested
    exact hrequested
  · next hconcurrently =>
    obtain rfl := Option.some.inj hfound
    refine ⟨⟨hwithin, hcounted'⟩, ?_, ?_, fun horderly ↦ absurd horderly hconcurrently⟩
    · exact h.covered.of_taken rfl rfl (s.pq.taken_putMessage msgs)
    · have hnew := ConsumeMessageConcurrentlyService.flatten_submitConsumeRequest_sublist
        config.consumeMessageBatchMaxSize msgs
      refine (h.requested.putMessage hn hfresh hnew).of_subperm (List.Perm.subperm ?_)
      simp only [held, withPq, List.flatten_append, List.append_assoc]
      exact List.perm_append_comm.append_left _

/-- Steps of the orderly service drain. -/
theorem inv_consume (h : s.Inv config) (e : OrderlyEvent)
    (hstep : s.step config mq (.consume e) = some t) : t.Inv config := by
  simp only [step] at hstep
  split at hstep
  · exact absurd hstep (by simp)
  · next hput =>
    simp only [Option.ite_none_right_eq_some] at hstep
    obtain ⟨horderly, hsome⟩ := hstep
    obtain ⟨orderly, hservice, rfl⟩ := Option.map_eq_some_iff.mp hsome
    obtain ⟨hcovered, hdrains⟩ := OrderlyState.covered_step h.covered hservice
    have hnone := h.oneService horderly
    refine ⟨h.bounded.drain (hdrains fun msgs he ↦ hput msgs he) rfl, hcovered, ?_, h.oneService⟩
    have hempty : ({ s with orderly } : FlowState).held = [] := hnone
    rw [hempty]
    constructor <;> simp

/-- A request that finishes removes some of its messages and keeps the ones that failed. -/
theorem inv_processConsumeResult (h : s.Inv config) (n : Nat)
    (status : ConsumeConcurrentlyStatus) (ackIndex : Int) (messageModel : MessageModel)
    (sendMessageBack : MessageExt → Bool)
    (hstep : s.step config mq
      (.processConsumeResult n status ackIndex messageModel sendMessageBack) = some t) :
    t.Inv config := by
  simp only [step] at hstep
  split at hstep
  · exact absurd hstep (by simp)
  · next msgs hn =>
    obtain rfl := Option.some.inj hstep
    have hperm := held_perm_of_request hn
    have hrequested := h.requested.of_subperm hperm.symm.subperm
    generalize hresult : ConsumeMessageConcurrentlyService.processConsumeResult s.pq status ackIndex
      messageModel sendMessageBack msgs = result
    obtain ⟨pq', offset, failed⟩ := result
    obtain ⟨hdrains, htaken, hfailed, hleft⟩ := hrequested.processConsumeResult status ackIndex
      messageModel sendMessageBack hresult
    have htimers : (if failed.isEmpty then s.timers else s.timers ++ [failed]).flatten =
        s.timers.flatten ++ failed := by
      split
      · next hempty => rw [List.isEmpty_iff.mp hempty, List.append_nil]
      · rw [List.flatten_append, List.flatten_singleton]
    have hheld : (failed ++ ((s.requests.eraseIdx n).flatten ++ s.timers.flatten)).Perm
        ((s.requests.eraseIdx n).flatten ++ (s.timers.flatten ++ failed)) := by
      rw [← List.append_assoc (s.requests.eraseIdx n).flatten]
      exact List.perm_append_comm
    refine ⟨h.bounded.drain hdrains rfl, h.covered.of_taken rfl rfl htaken, ?_, fun horderly ↦ ?_⟩
    · have hrequested' := hleft.of_subperm hheld.symm.subperm
      rw [← htimers] at hrequested'
      exact hrequested'
    · rw [h.oneService horderly] at hperm
      have hnil := List.append_eq_nil_iff.mp hperm.nil_eq.symm
      have hnone : failed = [] := List.sublist_nil.mp (hnil.1 ▸ hfailed)
      simp only [held, hnone]
      exact hnil.2

/-- A request goes when the queue is dropped, and its messages stay where they are. -/
theorem inv_leave (h : s.Inv config) (n : Nat) (hstep : s.step config mq (.leave n) = some t) :
    t.Inv config := by
  simp only [step, Option.ite_none_right_eq_some, Option.some.injEq] at hstep
  obtain ⟨-, rfl⟩ := hstep
  have hsub : ((s.requests.eraseIdx n).flatten ++ s.timers.flatten).Sublist s.held :=
    (List.eraseIdx_sublist s.requests n).flatten.append_right s.timers.flatten
  have hsame : s.pq.Drains s.pq := ProcessQueue.drains_of_le rfl le_rfl
  refine ⟨h.bounded.drain hsame rfl, h.covered, h.requested.of_subperm hsub.subperm,
    fun horderly ↦ ?_⟩
  rw [h.oneService horderly] at hsub
  exact List.sublist_nil.mp hsub

/-- A timer makes requests again of the messages that failed. -/
theorem inv_submitConsumeRequestLater (h : s.Inv config) (n : Nat)
    (hstep : s.step config mq (.submitConsumeRequestLater n) = some t) : t.Inv config := by
  simp only [step] at hstep
  split at hstep
  · exact absurd hstep (by simp)
  · next msgs hn =>
    obtain rfl := Option.some.inj hstep
    have hperm := held_perm_of_timer hn
    have hsub := ConsumeMessageConcurrentlyService.flatten_submitConsumeRequest_sublist
      config.consumeMessageBatchMaxSize msgs
    have hsubperm := ((hsub.append_left s.requests.flatten).append_right
      (s.timers.eraseIdx n).flatten).subperm.trans hperm.symm.subperm
    rw [← List.flatten_append] at hsubperm
    have hsame : s.pq.Drains s.pq := ProcessQueue.drains_of_le rfl le_rfl
    refine ⟨h.bounded.drain hsame rfl, h.covered, h.requested.of_subperm hsubperm,
      fun horderly ↦ ?_⟩
    rw [h.oneService horderly] at hsubperm
    exact List.subperm_nil.mp hsubperm

/-- Every step keeps the invariant. -/
theorem inv_step (s : FlowState) (e : FlowEvent) (t : FlowState) (h : s.Inv config)
    (hstep : s.step config mq e = some t) : t.Inv config := by
  cases e with
  | pullMessage client input pullRequest => exact inv_pullMessage h client input pullRequest hstep
  | found msgs => exact inv_found h msgs hstep
  | notFound =>
    simp only [step, Option.ite_none_right_eq_some, Option.some.injEq] at hstep
    obtain ⟨hpulling, rfl⟩ := hstep
    have hwithin := h.bounded.within
    rw [gate, hpulling] at hwithin
    have hcancelled := hwithin.move (Int.natCast_nonneg _) .cancel
    exact ⟨⟨hcancelled, h.bounded.counted⟩, h.covered, h.requested, h.oneService⟩
  | drop =>
    obtain rfl := Option.some.inj hstep
    have hdropped : s.pq.Drains (s.pq.setDropped true) := ProcessQueue.drains_of_le rfl le_rfl
    exact ⟨h.bounded.drain hdropped rfl, h.covered.of_taken rfl rfl rfl,
      h.requested.of_waiting fun _ _ hw ↦ hw, h.oneService⟩
  | consume e => exact inv_consume h e hstep
  | leave n => exact inv_leave h n hstep
  | processConsumeResult n status ackIndex messageModel sendMessageBack =>
    exact inv_processConsumeResult h n status ackIndex messageModel sendMessageBack hstep
  | submitConsumeRequestLater n => exact inv_submitConsumeRequestLater h n hstep

end Steps

/-- In every reachable state the two maps together hold at most the threshold and one batch. -/
theorem stored_le_threshold_add_batch (config : FlowConfig)
    (hthreshold : 0 ≤ config.consumer.pullThresholdForQueue) (mq : MessageQueue) (now : Nat)
    (store : RemoteBrokerOffsetStore) (es : List FlowEvent) (s : FlowState)
    (hrun : Base.runFrom (step config mq) (start now store) es = some s) :
    ((s.pq.msgTreeMap.size + s.pq.msgTreeMapTemp.size : Nat) : Int) ≤
      config.consumer.pullThresholdForQueue + config.pullBatchSize :=
  (Base.inv_of_runFrom inv_step (inv_start hthreshold now store) hrun).bounded.stored_le

/-- An orderly consumer that pulls two messages at a time while at most one is counted. -/
def smallConfig : FlowConfig := ⟨⟨str "g", [], true, 1, 2000, 0⟩, 2, 1⟩

/-- A pull that nothing but flow control keeps. -/
def pull : FlowEvent :=
  .pullMessage ⟨[str "g"], .running, false, ⟨str "g", ∅⟩, ∅⟩
    ⟨0, 0, [str "t"], ⟨{(str "b", {(0, str "a:1")})}, ∅⟩, fun _ ↦ true⟩
    ⟨str "g", ⟨str "t", str "b", 0⟩, 5, false⟩

/-- Two messages come, and the next pull is delayed until the first of them is committed; it
brings two more. -/
def pulledTwice : List FlowEvent :=
  [pull, .found [.at 5, .at 6], .consume (.lock true), .consume .start] ++
    List.replicate 6 (.consume (.run 0 .go)) ++
    [.consume (.run 0 (.batchSize 1)), pull,
      .consume (.run 0 (.answer ⟨some .success, true, 1000⟩)), pull, .found [.at 7, .at 8]]

/-- The run reaches the bound of three messages. -/
theorem stored_pulledTwice :
    ∃ s, Base.runFrom (step smallConfig ⟨str "t", str "b", 0⟩) (start 0 ⟨str "g", ∅⟩)
        pulledTwice = some s ∧
      s.pq.waiting = [6, 7, 8] ∧
      ((s.pq.msgTreeMap.size + s.pq.msgTreeMapTemp.size : Nat) : Int) ≤ 1 + 2 :=
  ⟨_, (Option.some_get (by decide +kernel)).symm, by decide +kernel,
    stored_le_threshold_add_batch smallConfig (by decide) ⟨str "t", str "b", 0⟩ 0 ⟨str "g", ∅⟩
      pulledTwice _ (Option.some_get (by decide +kernel)).symm⟩

end FlowState
end RocketMQ
