import Mathlib.Algebra.BigOperators.Group.List.Basic
import RocketMQ.Consumer.ConsumeBatches

/-!
# At least once

Concurrent consumption of one queue from the pull to the offset table,
`src/consumer/ConsumeMessageConcurrentlyService.cpp:60–270` and `303–360`. The messages of a pull
are buffered, cut into requests, handed to the listener, acknowledged or sent back to the broker,
kept for a timer when neither worked, and taken off the buffer; the threads that do so meet in
any order. Each message is listed with the holder that has it, and the offset that is stored
never passes one that some holder still has to settle.
-/

namespace RocketMQ

/-- The batches of a queue, by what happens to them next: `submitConsumeRequest`, the check at the
beginning of `ConsumeConcurrentlyRequest::Do`, the result of the listener, `removeMessage`, or
`SubmitConsumeRequestLater::OnTimeOut`; the messages whose request found the queue dropped; and
what became of the others. -/
structure BatchConsumption where
  queue : ConcurrentState
  pulled : List (List MessageExt)
  requests : List (List MessageExt)
  consuming : List (List MessageExt)
  settling : List (List MessageExt)
  timers : List (List MessageExt)
  abandoned : List MessageExt
  acknowledged : List MessageExt
  sentBack : List MessageExt
  skipped : List MessageExt
  dropped : Bool

/-- A step of one of the threads, for its `i`-th batch. -/
inductive BatchEvent where
  | putMessage (msgs : List MessageExt)
  | submitConsumeRequest (i : Nat)
  | isDropped (i : Nat)
  | consumeMessage (i : Nat) (status : ConsumeConcurrentlyStatus) (ackIndex : Int)
      (sendMessageBack : MessageExt → Bool)
  | removeMessage (i : Nat)
  | updateOffset (offset : Int)
  | onTimeOut (i : Nat)
  | setDropped

/-- The batch size, which `checkConfig` keeps above zero, and the message model,
`src/consumer/DefaultMQPushConsumerImpl.cpp:659–664`. -/
structure BatchConfig where
  consumeMessageBatchMaxSize : Nat
  messageModel : MessageModel
  batchMaxSize_pos : 1 ≤ consumeMessageBatchMaxSize

namespace BatchConsumption

open ConsumeMessageConcurrentlyService

/-- A new queue, with whatever the offset store holds. -/
def start (mq : MessageQueue) (now : Nat) (store : RemoteBrokerOffsetStore) :
    BatchConsumption where
  queue := .start mq now store
  pulled := []
  requests := []
  consuming := []
  settling := []
  timers := []
  abandoned := []
  acknowledged := []
  sentBack := []
  skipped := []
  dropped := false

/-- The messages that are neither acknowledged, sent back nor skipped. -/
def outstanding (s : BatchConsumption) : List MessageExt :=
  (s.pulled ++ s.requests ++ s.consuming ++ s.timers).flatten ++ s.abandoned

/-- The messages that have not been deleted. -/
def held (s : BatchConsumption) : List MessageExt := s.outstanding ++ s.settling.flatten

/-- What became of the messages that are not outstanding. -/
def settled (s : BatchConsumption) : List MessageExt := s.acknowledged ++ s.sentBack ++ s.skipped

/-- The messages that the broker took back. -/
def takenBack (messageModel : MessageModel) (sendMessageBack : MessageExt → Bool)
    (rest : List MessageExt) : List MessageExt :=
  match messageModel with
  | .broadcasting => []
  | .clustering => rest.filter sendMessageBack

/-- A broadcasting consumer drops what was not acknowledged. -/
def passedOver (messageModel : MessageModel) (rest : List MessageExt) : List MessageExt :=
  match messageModel with
  | .broadcasting => rest
  | .clustering => []

/-- The beginning of `processConsumeResult`, up to `submitConsumeRequestLater`,
`src/consumer/ConsumeMessageConcurrentlyService.cpp:152–256`. -/
def settle (messageModel : MessageModel) (s : BatchConsumption)
    (status : ConsumeConcurrentlyStatus) (ackIndex : Int) (sendMessageBack : MessageExt → Bool)
    (msgs : List MessageExt) : BatchConsumption :=
  if msgs.isEmpty then s
  else
    let ackIndex := settledAckIndex status ackIndex msgs.length
    let rest := msgs.drop (ackIndex + 1).toNat
    let failed := msgBackFailed ackIndex messageModel sendMessageBack msgs
    { s with
      acknowledged := s.acknowledged ++ msgs.take (ackIndex + 1).toNat
      sentBack := s.sentBack ++ takenBack messageModel sendMessageBack rest
      skipped := s.skipped ++ passedOver messageModel rest
      timers := if failed.isEmpty then s.timers else s.timers ++ [failed]
      settling := s.settling ++ [eraseFailed msgs failed] }

/-- `putMessage` and the call of `submitConsumeRequest` that is to come,
`src/consumer/DefaultMQPushConsumerImpl.cpp:829–836`. -/
def received (s : BatchConsumption) (msgs : List MessageExt) : BatchConsumption :=
  { s with
    queue := { s.queue with
      pq := (s.queue.pq.putMessage msgs).1, put := s.queue.put ++ offsets msgs }
    pulled := s.pulled ++ [msgs] }

/-- One step. The messages of a pull are new objects with offsets never put before. -/
def step (config : BatchConfig) (mq : MessageQueue) (s : BatchConsumption) :
    BatchEvent → Option BatchConsumption
  | .putMessage msgs =>
    if ((s.held ++ msgs).map MessageExt.address).Nodup then
      (s.queue.step mq (.putMessage msgs)).map fun _ ↦ s.received msgs
    else none
  | .submitConsumeRequest i =>
    s.pulled[i]?.map fun msgs ↦
      { s with
        pulled := s.pulled.eraseIdx i
        requests := s.requests ++
          ConsumeMessageConcurrentlyService.submitConsumeRequest
            config.consumeMessageBatchMaxSize msgs }
  | .isDropped i =>
    s.requests[i]?.map fun msgs ↦
      if s.dropped then
        { s with requests := s.requests.eraseIdx i, abandoned := s.abandoned ++ msgs }
      else { s with requests := s.requests.eraseIdx i, consuming := s.consuming ++ [msgs] }
  | .consumeMessage i status ackIndex sendMessageBack =>
    s.consuming[i]?.map fun msgs ↦
      settle config.messageModel { s with consuming := s.consuming.eraseIdx i } status ackIndex
        sendMessageBack msgs
  | .removeMessage i =>
    s.settling[i]?.map fun msgs ↦
      let (pq, offset) := s.queue.pq.removeMessage msgs
      { s with
        queue := { s.queue with
          pq, updates := (if offset ≥ 0 then some offset else none).toList ++ s.queue.updates }
        settling := s.settling.eraseIdx i }
  | .updateOffset offset =>
    (s.queue.step mq (.updateOffset offset)).map fun queue ↦ { s with queue }
  | .onTimeOut i =>
    s.timers[i]?.map fun msgs ↦
      { s with
        timers := s.timers.eraseIdx i
        requests := s.requests ++
          ConsumeMessageConcurrentlyService.submitConsumeRequest
            config.consumeMessageBatchMaxSize msgs }
  | .setDropped => some { s with dropped := true }

/-! ### What every step keeps -/

/-- Every offset put is settled or outstanding, once; the buffer has what is not deleted. -/
structure Kept (s : BatchConsumption) : Prop where
  accounted : s.queue.put.Perm (offsets (s.settled ++ s.outstanding))
  buffered : ∀ o, o ∈ s.queue.pq.waiting ↔ o ∈ offsets s.held
  buffered_put : ∀ o ∈ s.queue.pq.waiting, o ∈ s.queue.put
  counted : s.queue.pq.msgCount = s.held.length
  offsets_nodup : (offsets s.held).Nodup
  addresses_nodup : (s.held.map MessageExt.address).Nodup

/-- And the offsets to be stored are bounded by the buffered ones. -/
structure Sound (mq : MessageQueue) (s : BatchConsumption) : Prop extends s.Kept where
  bounded : s.queue.Bounded mq

section Rules

variable {config : BatchConfig} {mq : MessageQueue} {s s' : BatchConsumption}

theorem kept_start (now : Nat) (store : RemoteBrokerOffsetStore) : (start mq now store).Kept where
  accounted := List.Perm.nil
  buffered o := by
    simp [start, ConcurrentState.start, ProcessQueue.waiting, ProcessQueue.new, held, outstanding]
  buffered_put o ho := by
    simp [start, ConcurrentState.start, ProcessQueue.waiting, ProcessQueue.new] at ho
  counted := rfl
  offsets_nodup := List.nodup_nil
  addresses_nodup := List.nodup_nil

/-- Handing messages from holder to holder, or settling them, loses none. -/
theorem Kept.of_count (h : s.Kept) (hqueue : s'.queue = s.queue)
    (hheld : ∀ msg, s'.held.count msg = s.held.count msg)
    (hledger : ∀ msg, (s'.settled ++ s'.outstanding).count msg =
      (s.settled ++ s.outstanding).count msg) : s'.Kept := by
  have hperm : s'.held.Perm s.held := List.perm_iff_count.mpr hheld
  constructor
  · rw [hqueue]
    exact h.accounted.trans ((List.perm_iff_count.mpr hledger).map _).symm
  · intro o
    rw [hqueue, h.buffered]
    exact ((hperm.map _).mem_iff).symm
  · rw [hqueue]
    exact h.buffered_put
  · rw [hqueue, h.counted, hperm.length_eq]
  · exact (hperm.map _).nodup_iff.mpr h.offsets_nodup
  · exact (hperm.map _).nodup_iff.mpr h.addresses_nodup

/-- A batch taken out of a list of batches. -/
theorem count_flatten_eraseIdx {batches : List (List MessageExt)} {i : Nat}
    {msgs : List MessageExt} (h : batches[i]? = some msgs) (msg : MessageExt) :
    batches.flatten.count msg = msgs.count msg + (batches.eraseIdx i).flatten.count msg := by
  obtain ⟨hi, rfl⟩ := List.getElem?_eq_some_iff.mp h
  rw [← (List.getElem_cons_eraseIdx_perm hi).flatten.count_eq, List.flatten_cons,
    List.count_append]

/-- The requests of a batch have its messages. -/
theorem flatten_submitConsumeRequest (msgs : List MessageExt) :
    (ConsumeMessageConcurrentlyService.submitConsumeRequest
      config.consumeMessageBatchMaxSize msgs).flatten = msgs := by
  by_cases hmsgs : msgs = []
  · rw [hmsgs, submitConsumeRequest_nil]
    rfl
  · exact (exactBatches_of_ne_nil config.batchMaxSize_pos hmsgs).flatten

/-- What is removed and what is submitted again is the batch. -/
theorem eraseFailed_append_perm {msgs failed : List MessageExt}
    (hn : (msgs.map MessageExt.address).Nodup) (hsub : failed.Sublist msgs) :
    (eraseFailed msgs failed ++ failed).Perm msgs := by
  have hmsgs : msgs.Nodup := List.Nodup.of_map _ hn
  have herase : (eraseFailed msgs failed).Sublist msgs := List.filter_sublist
  have hmem (msg : MessageExt) :
      msg ∈ eraseFailed msgs failed ↔ msg ∈ msgs ∧ msg ∉ failed := by
    rw [eraseFailed, List.mem_filter, Bool.not_eq_true', List.any_eq_false]
    refine and_congr_right fun hmsg ↦ ⟨fun hkept hfailed ↦ ?_, fun hnot other hother ↦ ?_⟩
    · exact hkept msg hfailed (beq_self_eq_true _)
    · intro haddress
      have heq := List.inj_on_of_nodup_map hn (hsub.subset hother) hmsg (beq_iff_eq.mp haddress)
      exact hnot (heq ▸ hother)
  have hnodup : (eraseFailed msgs failed ++ failed).Nodup := by
    refine List.nodup_append.mpr ⟨hmsgs.sublist herase, hmsgs.sublist hsub, ?_⟩
    rintro msg hkept _ hfailed rfl
    exact ((hmem msg).mp hkept).2 hfailed
  rw [List.perm_ext_iff_of_nodup hnodup hmsgs]
  intro msg
  rw [List.mem_append, hmem]
  have hincl : msg ∈ failed → msg ∈ msgs := fun hfailed ↦ hsub.subset hfailed
  tauto

/-- Acknowledged, taken back, passed over and submitted again make up the batch. -/
theorem count_settle (messageModel : MessageModel) (ackIndex : Int) (back : MessageExt → Bool)
    (msgs : List MessageExt) (msg : MessageExt) :
    (msgs.take (ackIndex + 1).toNat).count msg +
      (takenBack messageModel back (msgs.drop (ackIndex + 1).toNat)).count msg +
      (passedOver messageModel (msgs.drop (ackIndex + 1).toNat)).count msg +
      (msgBackFailed ackIndex messageModel back msgs).count msg = msgs.count msg := by
  have htake : msgs.count msg = (msgs.take (ackIndex + 1).toNat).count msg +
      (msgs.drop (ackIndex + 1).toNat).count msg := by
    rw [← List.count_append, List.take_append_drop]
  cases messageModel with
  | broadcasting => simp [takenBack, passedOver, msgBackFailed, htake]
  | clustering =>
    have hsplit :=
      (List.filter_append_perm back (msgs.drop (ackIndex + 1).toNat)).count_eq msg
    rw [List.count_append] at hsplit
    simp only [takenBack, passedOver, msgBackFailed, htake, List.count_nil, Nat.add_zero]
    omega

/-- New messages go behind everything put so far. -/
theorem Kept.received (h : s.Kept) {msgs : List MessageExt}
    (hsorted : (offsets msgs).Pairwise (· < ·))
    (hfresh : ∀ o ∈ offsets msgs, ∀ p ∈ s.queue.put, p < o)
    (haddresses : ((s.held ++ msgs).map MessageExt.address).Nodup) : (s.received msgs).Kept := by
  have hheld : (s.received msgs).held.Perm (s.held ++ msgs) := by
    refine List.perm_iff_count.mpr fun msg ↦ ?_
    simp only [BatchConsumption.received, held, outstanding, List.flatten_append,
      List.flatten_singleton, List.count_append]
    omega
  have hledger : ((s.received msgs).settled ++ (s.received msgs).outstanding).Perm
      (s.settled ++ s.outstanding ++ msgs) := by
    refine List.perm_iff_count.mpr fun msg ↦ ?_
    simp only [BatchConsumption.received, settled, outstanding, List.flatten_append,
      List.flatten_singleton, List.count_append]
    omega
  have hoffsets := hheld.map MessageExt.queueOffset
  rw [List.map_append] at hoffsets
  have hwaiting (o : Int) : o ∈ (s.received msgs).queue.pq.waiting ↔
      o ∈ offsets msgs ∨ o ∈ s.queue.pq.waiting := ProcessQueue.mem_waiting_putMessage _ _
  refine ⟨?_, fun o ↦ ?_, fun o ho ↦ ?_, ?_, ?_, (hheld.map _).nodup_iff.mpr haddresses⟩
  · have hput := h.accounted.append_right (offsets msgs)
    rw [offsets, offsets, ← List.map_append] at hput
    exact hput.trans (hledger.map _).symm
  · refine (hwaiting o).trans (Iff.trans ?_ hoffsets.mem_iff.symm)
    rw [h.buffered, List.mem_append, or_comm]
    rfl
  · rcases (hwaiting o).mp ho with hnew | hold
    · exact List.mem_append_right _ hnew
    · exact List.mem_append_left _ (h.buffered_put o hold)
  · have hcount : (s.received msgs).queue.pq.msgCount = s.queue.pq.msgCount + msgs.length :=
      ProcessQueue.msgCount_putMessage _ _
    rw [hcount, h.counted, hheld.length_eq, List.length_append, Nat.cast_add]
  · refine hoffsets.nodup_iff.mpr (List.nodup_append.mpr
      ⟨h.offsets_nodup, hsorted.imp fun hlt ↦ hlt.ne, ?_⟩)
    rintro o ho _ hnew rfl
    have hold : o ∈ s.queue.put := h.buffered_put o ((h.buffered o).mpr ho)
    exact absurd (hfresh o hnew o hold) (lt_irrefl o)

/-- What is taken off the buffer is not held any more. -/
theorem Kept.of_removal (h : s.Kept) {msgs : List MessageExt}
    (hpq : s'.queue.pq = (s.queue.pq.removeMessage msgs).1) (hput : s'.queue.put = s.queue.put)
    (hheld : s.held.Perm (msgs ++ s'.held)) (hsettled : s'.settled = s.settled)
    (houtstanding : s'.outstanding = s.outstanding) : s'.Kept := by
  have hnodup := (hheld.map MessageExt.queueOffset).nodup_iff.mp h.offsets_nodup
  rw [List.map_append, List.nodup_append] at hnodup
  have haddresses := (hheld.map MessageExt.address).nodup_iff.mp h.addresses_nodup
  rw [List.map_append, List.nodup_append] at haddresses
  refine ⟨?_, fun o ↦ ?_, fun o ho ↦ ?_, ?_, hnodup.2.1, haddresses.2.1⟩
  · rw [hput, hsettled, houtstanding]
    exact h.accounted
  · rw [hpq, ProcessQueue.mem_waiting_removeMessage, h.buffered, offsets, offsets,
      (hheld.map _).mem_iff, List.map_append, List.mem_append]
    constructor
    · rintro ⟨hnot, hmem | hmem⟩
      · exact absurd hmem hnot
      · exact hmem
    · exact fun hmem ↦ ⟨fun hremoved ↦ hnodup.2.2 o hremoved o hmem rfl, .inr hmem⟩
  · rw [hpq] at ho
    rw [hput]
    exact h.buffered_put o ((s.queue.pq.mem_waiting_removeMessage msgs).mp ho).2
  · have hlength := hheld.length_eq
    have hcounted := h.counted
    rw [List.length_append] at hlength
    rw [hpq, ProcessQueue.removeMessage_fst]
    split
    · next hempty =>
      -- nothing is buffered, so the batch has no messages
      have hnone : s.held = [] := by
        rw [List.eq_nil_iff_forall_not_mem]
        intro msg hmsg
        have hwaiting := (h.buffered msg.queueOffset).mpr (List.mem_map_of_mem hmsg)
        rw [List.isEmpty_iff.mp hempty] at hwaiting
        exact List.not_mem_nil hwaiting
      rw [hnone, List.length_nil] at hlength hcounted
      omega
    · dsimp only
      omega

/-- The listener's answer settles a batch or leaves it to a timer. -/
theorem Kept.settle (h : s.Kept) {i : Nat} {msgs : List MessageExt}
    (hi : s.consuming[i]? = some msgs) (messageModel : MessageModel)
    (status : ConsumeConcurrentlyStatus) (ackIndex : Int) (back : MessageExt → Bool) :
    (settle messageModel { s with consuming := s.consuming.eraseIdx i } status ackIndex back
      msgs).Kept := by
  have hcount := count_flatten_eraseIdx hi
  by_cases hmsgs : msgs = []
  · subst hmsgs
    refine h.of_count rfl (fun msg ↦ ?_) fun msg ↦ ?_ <;>
      simp [BatchConsumption.settle, held, outstanding, settled, hcount]
  · have hbatch : (msgs.map MessageExt.address).Nodup := by
      have hheld : s.held.Perm (msgs ++
          ({ s with consuming := s.consuming.eraseIdx i } : BatchConsumption).held) := by
        refine List.perm_iff_count.mpr fun msg ↦ ?_
        simp only [held, outstanding, List.flatten_append, List.count_append, hcount]
        omega
      have hnodup := (hheld.map MessageExt.address).nodup_iff.mp h.addresses_nodup
      rw [List.map_append, List.nodup_append] at hnodup
      exact hnodup.1
    rw [BatchConsumption.settle, if_neg (by simpa using hmsgs)]
    dsimp only
    have hsettled := count_settle messageModel (settledAckIndex status ackIndex msgs.length) back
      msgs
    have hsub := msgBackFailed_sublist (settledAckIndex status ackIndex msgs.length) messageModel
      back msgs
    generalize msgBackFailed (settledAckIndex status ackIndex msgs.length) messageModel back msgs
      = failed at hsettled hsub ⊢
    have hkept (msg : MessageExt) :
        (eraseFailed msgs failed).count msg + failed.count msg = msgs.count msg := by
      rw [← List.count_append]
      exact (eraseFailed_append_perm hbatch hsub).count_eq msg
    have htimers (msg : MessageExt) :
        (if failed.isEmpty then s.timers else s.timers ++ [failed]).flatten.count msg =
          s.timers.flatten.count msg + failed.count msg := by
      split
      · next hnone => rw [List.isEmpty_iff.mp hnone, List.count_nil, Nat.add_zero]
      · rw [List.flatten_append, List.flatten_singleton, List.count_append]
    refine h.of_count rfl (fun msg ↦ ?_) fun msg ↦ ?_
    · have hkept := hkept msg
      simp only [held, outstanding, List.flatten_append, List.flatten_singleton,
        List.count_append, hcount, htimers]
      omega
    · have hsettled := hsettled msg
      simp only [settled, outstanding, List.flatten_append, List.count_append, hcount, htimers]
      omega

/-- Every step keeps what is said of the messages. -/
theorem kept_step (s : BatchConsumption) (e : BatchEvent) (s' : BatchConsumption)
    (h : s.Kept) (hstep : s.step config mq e = some s') : s'.Kept := by
  cases e with
  | putMessage msgs =>
    simp only [step, Option.ite_none_right_eq_some, Option.map_eq_some_iff] at hstep
    obtain ⟨haddresses, queue, hput, rfl⟩ := hstep
    simp only [ConcurrentState.step, Option.ite_none_right_eq_some] at hput
    obtain ⟨⟨hsorted, hfresh⟩, -⟩ := hput
    exact h.received hsorted (fun o ho ↦ (hfresh o ho).1) haddresses
  | submitConsumeRequest i =>
    obtain ⟨msgs, hi, rfl⟩ := Option.map_eq_some_iff.mp hstep
    refine h.of_count rfl (fun msg ↦ ?_) fun msg ↦ ?_ <;>
      simp only [held, outstanding, settled, List.flatten_append, List.count_append,
        flatten_submitConsumeRequest, count_flatten_eraseIdx hi] <;> omega
  | isDropped i =>
    obtain ⟨msgs, hi, rfl⟩ := Option.map_eq_some_iff.mp hstep
    split <;> refine h.of_count rfl (fun msg ↦ ?_) fun msg ↦ ?_ <;>
      simp only [held, outstanding, settled, List.flatten_append, List.flatten_singleton,
        List.count_append, count_flatten_eraseIdx hi] <;> omega
  | consumeMessage i status ackIndex back =>
    obtain ⟨msgs, hi, rfl⟩ := Option.map_eq_some_iff.mp hstep
    exact h.settle hi _ status ackIndex back
  | removeMessage i =>
    obtain ⟨msgs, hi, rfl⟩ := Option.map_eq_some_iff.mp hstep
    refine h.of_removal rfl rfl (List.perm_iff_count.mpr fun msg ↦ ?_) rfl rfl
    simp only [held, outstanding, List.count_append, count_flatten_eraseIdx hi]
    omega
  | updateOffset offset =>
    obtain ⟨queue, hupdate, rfl⟩ := Option.map_eq_some_iff.mp hstep
    simp only [ConcurrentState.step, Option.ite_none_right_eq_some, Option.some.injEq] at hupdate
    obtain ⟨-, rfl⟩ := hupdate
    exact ⟨h.accounted, h.buffered, h.buffered_put, h.counted, h.offsets_nodup,
      h.addresses_nodup⟩
  | onTimeOut i =>
    obtain ⟨msgs, hi, rfl⟩ := Option.map_eq_some_iff.mp hstep
    refine h.of_count rfl (fun msg ↦ ?_) fun msg ↦ ?_ <;>
      simp only [held, outstanding, settled, List.flatten_append, List.count_append,
        flatten_submitConsumeRequest, count_flatten_eraseIdx hi] <;> omega
  | setDropped =>
    obtain rfl := Option.some.inj hstep
    exact h.of_count rfl (fun _ ↦ rfl) fun _ ↦ rfl

theorem queue_settle (messageModel : MessageModel) (s : BatchConsumption)
    (status : ConsumeConcurrentlyStatus) (ackIndex : Int) (back : MessageExt → Bool)
    (msgs : List MessageExt) :
    (settle messageModel s status ackIndex back msgs).queue = s.queue := by
  rw [settle]
  split <;> rfl

/-- What a step does to the buffer and the offsets. -/
theorem queue_step {e : BatchEvent} (hstep : s.step config mq e = some s') :
    (∃ msgs, e = .putMessage msgs ∧ s' = s.received msgs ∧
      (offsets msgs).Pairwise (· < ·) ∧
      ∀ o ∈ offsets msgs, (∀ p ∈ s.queue.put, p < o) ∧ ∀ v ∈ s.queue.initial, v ≤ o) ∨
    s'.queue = s.queue ∨
    (∃ msgs, s'.queue = { s.queue with
      pq := (s.queue.pq.removeMessage msgs).1
      updates := (if (s.queue.pq.removeMessage msgs).2 ≥ 0
        then some (s.queue.pq.removeMessage msgs).2 else none).toList ++ s.queue.updates }) ∨
    ∃ v, s.queue.step mq (.updateOffset v) = some s'.queue := by
  cases e with
  | putMessage msgs =>
    simp only [step, Option.ite_none_right_eq_some, Option.map_eq_some_iff] at hstep
    obtain ⟨-, queue, hput, rfl⟩ := hstep
    simp only [ConcurrentState.step, Option.ite_none_right_eq_some] at hput
    exact .inl ⟨msgs, rfl, rfl, hput.1⟩
  | isDropped i =>
    obtain ⟨msgs, -, rfl⟩ := Option.map_eq_some_iff.mp hstep
    right
    left
    split <;> rfl
  | consumeMessage i status ackIndex back =>
    obtain ⟨msgs, -, rfl⟩ := Option.map_eq_some_iff.mp hstep
    exact .inr (.inl (queue_settle ..))
  | removeMessage i =>
    obtain ⟨msgs, -, rfl⟩ := Option.map_eq_some_iff.mp hstep
    exact .inr (.inr (.inl ⟨msgs, rfl⟩))
  | updateOffset offset =>
    obtain ⟨queue, hupdate, rfl⟩ := Option.map_eq_some_iff.mp hstep
    exact .inr (.inr (.inr ⟨offset, hupdate⟩))
  | setDropped =>
    obtain rfl := Option.some.inj hstep
    exact .inr (.inl rfl)
  | _ =>
    obtain ⟨msgs, -, rfl⟩ := Option.map_eq_some_iff.mp hstep
    exact .inr (.inl rfl)

theorem sound_step (s : BatchConsumption) (e : BatchEvent) (s' : BatchConsumption)
    (h : s.Sound mq) (hstep : s.step config mq e = some s') : s'.Sound mq := by
  refine ⟨kept_step s e s' h.toKept hstep, ?_⟩
  rcases queue_step hstep with ⟨msgs, -, rfl, hsorted, hfresh⟩ | hsame | ⟨msgs, hremoved⟩ |
    ⟨v, hupdate⟩
  · exact ConcurrentState.bounded_put h.bounded hsorted hfresh
  · exact hsame ▸ h.bounded
  · exact hremoved ▸ ConcurrentState.bounded_remove msgs h.bounded
  · exact ConcurrentState.bounded_step mq _ _ _ h.bounded hupdate

theorem sound_start (now : Nat) (store : RemoteBrokerOffsetStore) :
    (start mq now store).Sound mq :=
  ⟨kept_start now store, ConcurrentState.bounded_start mq now store⟩

/-- A clustering consumer passes no message over. -/
theorem skipped_step (hmodel : config.messageModel = .clustering) (s : BatchConsumption)
    (e : BatchEvent) (s' : BatchConsumption) (h : s.skipped = [])
    (hstep : s.step config mq e = some s') : s'.skipped = [] := by
  cases e with
  | putMessage msgs =>
    simp only [step, Option.ite_none_right_eq_some, Option.map_eq_some_iff] at hstep
    obtain ⟨-, queue, -, rfl⟩ := hstep
    exact h
  | isDropped i =>
    obtain ⟨msgs, hi, rfl⟩ := Option.map_eq_some_iff.mp hstep
    split <;> exact h
  | consumeMessage i status ackIndex back =>
    obtain ⟨msgs, hi, rfl⟩ := Option.map_eq_some_iff.mp hstep
    rw [hmodel, settle]
    split
    · exact h
    · exact List.append_eq_nil_iff.mpr ⟨h, rfl⟩
  | setDropped => exact Option.some.inj hstep ▸ h
  | _ =>
    obtain ⟨msgs, hi, rfl⟩ := Option.map_eq_some_iff.mp hstep
    exact h

/-- No request is given up while the queue is not dropped. -/
theorem abandoned_step (s : BatchConsumption) (e : BatchEvent) (s' : BatchConsumption)
    (h : s.dropped = false → s.abandoned = []) (hstep : s.step config mq e = some s') :
    s'.dropped = false → s'.abandoned = [] := by
  cases e with
  | putMessage msgs =>
    simp only [step, Option.ite_none_right_eq_some, Option.map_eq_some_iff] at hstep
    obtain ⟨-, queue, -, rfl⟩ := hstep
    exact h
  | isDropped i =>
    obtain ⟨msgs, hi, rfl⟩ := Option.map_eq_some_iff.mp hstep
    split
    · next hdropped => exact fun hnot ↦ absurd (hdropped.symm.trans hnot) nofun
    · exact h
  | consumeMessage i status ackIndex back =>
    obtain ⟨msgs, hi, rfl⟩ := Option.map_eq_some_iff.mp hstep
    rw [settle]
    split <;> exact h
  | setDropped =>
    obtain rfl := Option.some.inj hstep
    exact nofun
  | _ =>
    obtain ⟨msgs, hi, rfl⟩ := Option.map_eq_some_iff.mp hstep
    exact h

/-- What is stored when nothing is left to do. -/
theorem Sound.stored_of_done (h : s.Sound mq) (hheld : s.held = [])
    (hupdates : s.queue.updates = []) {m : Int} (hm : s.queue.MaxPut m) (hpos : 0 ≤ m + 1) :
    s.queue.store.offsetTable[mq]? = some (m + 1) := by
  have hwaiting : s.queue.pq.waiting = [] := by
    rw [List.eq_nil_iff_forall_not_mem]
    intro o ho
    rw [h.buffered, hheld] at ho
    exact List.not_mem_nil ho
  exact (h.bounded.reaches hwaiting m
    ((ConcurrentState.maxPut_iff h.bounded.put_sorted).mp hm) hpos).value_eq hupdates

/-- **At least once**: in every interleaving each message that was put is acknowledged by the
listener, sent back to the broker, skipped by a broadcasting consumer or still outstanding, and
only one of these; whatever offset is stored, the messages below it are not outstanding; and when
nothing is left to do the stored offset is one above the highest. -/
theorem consumes_at_least_once {now : Nat} {store : RemoteBrokerOffsetStore}
    {es : List BatchEvent}
    (hrun : Base.runFrom (step config mq) (start mq now store) es = some s) :
    s.queue.put.Nodup ∧ s.queue.put.Perm (offsets (s.settled ++ s.outstanding)) ∧
      (config.messageModel = .clustering → s.skipped = []) ∧
      (∀ v, s.queue.store.offsetTable[mq]? = some v →
        ∀ o ∈ s.queue.put, o < v → o ∈ offsets s.settled) ∧
      (s.held = [] → s.queue.updates = [] → ∀ m, s.queue.MaxPut m → 0 ≤ m + 1 →
        s.queue.store.offsetTable[mq]? = some (m + 1)) := by
  have h : s.Sound mq := Base.inv_of_runFrom sound_step (sound_start now store) hrun
  refine ⟨h.bounded.put_sorted.imp fun hlt ↦ hlt.ne, h.accounted, fun hmodel ↦ ?_,
    fun v hv o ho hlt ↦ ?_, fun hheld hupdates m hm hpos ↦ ?_⟩
  · exact Base.inv_of_runFrom (skipped_step hmodel) rfl hrun
  · have hmem := h.accounted.mem_iff.mp ho
    rw [offsets, List.map_append, List.mem_append] at hmem
    refine hmem.resolve_right fun hout ↦ ?_
    have hwaiting : o ∈ s.queue.pq.waiting := by
      rw [h.buffered, offsets, held, List.map_append, List.mem_append]
      exact .inl hout
    have hle := (h.bounded.below_waiting o hwaiting).value v hv
    omega
  · exact h.stored_of_done hheld hupdates hm hpos

end Rules

/-- A clustering consumer with batches of at most two messages. -/
def pairs : BatchConfig := ⟨2, .clustering, by decide⟩

/-- Of three messages the second is neither acknowledged nor taken back by the broker. -/
def retrying : List BatchEvent :=
  [.putMessage [.at 5, .at 6, .at 7], .submitConsumeRequest 0, .isDropped 1, .isDropped 0,
    .consumeMessage 1 .consumeSuccess 0 fun _ ↦ false, .removeMessage 0,
    .consumeMessage 0 .reconsumeLater 0 fun _ ↦ true, .updateOffset 6]

/-- The state after that. -/
def retried : BatchConsumption :=
  (Base.runFrom (step pairs ⟨str "t", str "b", 0⟩) (start ⟨str "t", str "b", 0⟩ 0 ⟨str "g", ∅⟩)
    retrying).get (by decide +kernel)

theorem consumes_at_least_once_retried :
    retried.queue.put.Perm (offsets (retried.settled ++ retried.outstanding)) ∧
      retried.settled = [.at 5, .at 7] ∧ retried.outstanding = [.at 6] :=
  ⟨(consumes_at_least_once (Option.some_get (by decide +kernel)).symm).2.1, by decide +kernel,
    by decide +kernel⟩

/-! ### Nothing is stuck -/

section Serving

variable {config : BatchConfig} {mq : MessageQueue} {s : BatchConsumption}

/-- The steps that need no pull and leave the queue to this consumer. -/
def Serves : BatchEvent → Prop
  | .putMessage _ | .setDropped => False
  | _ => True

/-- The number of requests of a batch. -/
theorem length_submitConsumeRequest_le (msgs : List MessageExt) :
    (ConsumeMessageConcurrentlyService.submitConsumeRequest
      config.consumeMessageBatchMaxSize msgs).length ≤ msgs.length + 1 := by
  by_cases hmsgs : msgs = []
  · rw [hmsgs, submitConsumeRequest_nil]
    exact le_rfl
  · have hbatches := exactBatches_of_ne_nil config.batchMaxSize_pos hmsgs
    have hlength := congrArg List.length hbatches.flatten
    rw [List.length_flatten] at hlength
    have hle := List.length_le_sum_of_one_le
      ((ConsumeMessageConcurrentlyService.submitConsumeRequest
        config.consumeMessageBatchMaxSize msgs).map List.length) fun n hn ↦ by
          obtain ⟨request, hrequest, rfl⟩ := List.mem_map.mp hn
          exact List.length_pos_of_ne_nil (hbatches.nonempty request hrequest)
    rw [List.length_map] at hle
    omega

/-- How many steps the batches still take, at most. -/
def remaining (s : BatchConsumption) : Nat :=
  ((s.pulled ++ s.timers).map fun msgs ↦ 5 * (msgs.length + 1)).sum + 4 * s.requests.length +
    3 * s.consuming.length + 2 * s.settling.length + s.queue.updates.length

theorem dropped_settle (messageModel : MessageModel) (s : BatchConsumption)
    (status : ConsumeConcurrentlyStatus) (ackIndex : Int) (back : MessageExt → Bool)
    (msgs : List MessageExt) :
    (settle messageModel s status ackIndex back msgs).dropped = s.dropped := by
  rw [settle]
  split <;> rfl

/-- A batch that the listener acknowledges as a whole leaves nothing to a timer. -/
theorem remaining_settle (messageModel : MessageModel) (s : BatchConsumption)
    (back : MessageExt → Bool) (msgs : List MessageExt) :
    (settle messageModel s .consumeSuccess msgs.length back msgs).remaining ≤
      s.remaining + 2 := by
  have hfailed : msgBackFailed (settledAckIndex .consumeSuccess msgs.length msgs.length)
      messageModel back msgs = [] := by
    cases messageModel with
    | broadcasting => rfl
    | clustering =>
      have hall : (settledAckIndex .consumeSuccess msgs.length msgs.length + 1).toNat =
          msgs.length := by
        simp only [settledAckIndex]
        split <;> omega
      rw [msgBackFailed, hall, List.drop_length, List.filter_nil]
  rw [settle]
  split
  · omega
  · simp only [hfailed, remaining, List.isEmpty_nil, if_true, List.length_append,
      List.length_singleton]
    omega

/-- While something is left to do some thread can do it, and less is left then. -/
theorem exists_serving (hdropped : s.dropped = false) (hremaining : s.remaining ≠ 0) :
    ∃ e s', Serves e ∧ s.step config mq e = some s' ∧ s'.dropped = false ∧
      s'.remaining < s.remaining := by
  cases hpulled : s.pulled with
  | cons msgs rest =>
    have hrequests : (ConsumeMessageConcurrentlyService.submitConsumeRequest
      config.consumeMessageBatchMaxSize msgs).length ≤ _ := length_submitConsumeRequest_le msgs
    have hfirst : s.pulled[0]? = some msgs := by rw [hpulled]; rfl
    have hstep : s.step config mq (.submitConsumeRequest 0) = some _ :=
      congrArg (Option.map _) hfirst
    refine ⟨.submitConsumeRequest 0, _, trivial, hstep, hdropped, ?_⟩
    simp only [remaining, hpulled, List.eraseIdx_cons_zero, List.length_append, List.cons_append,
      List.map_cons, List.sum_cons]
    omega
  | nil =>
  cases htimers : s.timers with
  | cons msgs rest =>
    have hrequests : (ConsumeMessageConcurrentlyService.submitConsumeRequest
      config.consumeMessageBatchMaxSize msgs).length ≤ _ := length_submitConsumeRequest_le msgs
    have hfirst : s.timers[0]? = some msgs := by rw [htimers]; rfl
    have hstep : s.step config mq (.onTimeOut 0) = some _ := congrArg (Option.map _) hfirst
    refine ⟨.onTimeOut 0, _, trivial, hstep, hdropped, ?_⟩
    simp only [remaining, hpulled, htimers, List.eraseIdx_cons_zero, List.length_append,
      List.nil_append, List.map_cons, List.sum_cons]
    omega
  | nil =>
  cases hrequests : s.requests with
  | cons msgs rest =>
    have hstep : s.step config mq (.isDropped 0) = some { s with
        requests := s.requests.eraseIdx 0, consuming := s.consuming ++ [msgs] } := by
      simp only [step, hrequests, hdropped]
      rfl
    refine ⟨.isDropped 0, _, trivial, hstep, hdropped, ?_⟩
    simp only [remaining, hrequests, List.eraseIdx_cons_zero, List.length_append,
      List.length_cons, List.length_nil]
    omega
  | nil =>
  cases hconsuming : s.consuming with
  | cons msgs rest =>
    have hfirst : s.consuming[0]? = some msgs := by rw [hconsuming]; rfl
    have hstep : s.step config mq
        (.consumeMessage 0 .consumeSuccess msgs.length fun _ ↦ true) = some _ :=
      congrArg (Option.map _) hfirst
    refine ⟨.consumeMessage 0 _ _ _, _, trivial, hstep, ?_, ?_⟩
    · exact (dropped_settle ..).trans hdropped
    · have hsettle := remaining_settle config.messageModel
        { s with consuming := s.consuming.eraseIdx 0 } (fun _ ↦ true) msgs
      refine hsettle.trans_lt ?_
      simp only [remaining, hconsuming, List.eraseIdx_cons_zero, List.length_cons]
      omega
  | nil =>
  cases hsettling : s.settling with
  | cons msgs rest =>
    have hfirst : s.settling[0]? = some msgs := by rw [hsettling]; rfl
    have hstep : s.step config mq (.removeMessage 0) = some _ := congrArg (Option.map _) hfirst
    have hupdates : (if (s.queue.pq.removeMessage msgs).2 ≥ 0
        then some (s.queue.pq.removeMessage msgs).2 else none).toList.length ≤ 1 := by
      split <;> simp
    refine ⟨.removeMessage 0, _, trivial, hstep, hdropped, ?_⟩
    simp only [remaining, hsettling, List.eraseIdx_cons_zero, List.length_append,
      List.length_cons]
    omega
  | nil =>
  cases hupdates : s.queue.updates with
  | cons offset rest =>
    have hupdate : s.queue.step mq (.updateOffset offset) = some _ :=
      if_pos (hupdates ▸ List.mem_cons_self)
    have hstep : s.step config mq (.updateOffset offset) = some _ :=
      congrArg (Option.map _) hupdate
    refine ⟨.updateOffset offset, _, trivial, hstep, hdropped, ?_⟩
    simp only [remaining, hupdates, List.erase_cons_head, List.length_cons]
    omega
  | nil =>
    refine absurd ?_ hremaining
    simp only [remaining, hpulled, htimers, hrequests, hconsuming, hsettling, hupdates,
      List.append_nil, List.map_nil, List.sum_nil, List.length_nil, Nat.mul_zero, Nat.add_zero]

/-- Nothing remains when every list is empty. -/
theorem done_of_remaining (hremaining : s.remaining = 0) (habandoned : s.abandoned = []) :
    s.outstanding = [] ∧ s.held = [] ∧ s.queue.updates = [] := by
  rw [remaining] at hremaining
  have hsum : ((s.pulled ++ s.timers).map fun msgs ↦ 5 * (msgs.length + 1)).sum = 0 := by omega
  have hrequests : s.requests = [] := List.length_eq_zero_iff.mp (by omega)
  have hconsuming : s.consuming = [] := List.length_eq_zero_iff.mp (by omega)
  have hsettling : s.settling = [] := List.length_eq_zero_iff.mp (by omega)
  have hupdates : s.queue.updates = [] := List.length_eq_zero_iff.mp (by omega)
  have hbatches : s.pulled ++ s.timers = [] := by
    cases hbatches : s.pulled ++ s.timers with
    | nil => rfl
    | cons msgs rest =>
      rw [hbatches, List.map_cons, List.sum_cons] at hsum
      omega
  obtain ⟨hpulled, htimers⟩ := List.append_eq_nil_iff.mp hbatches
  have hout : s.outstanding = [] := by
    simp only [outstanding, hpulled, hrequests, hconsuming, htimers, habandoned, List.append_nil,
      List.flatten_nil]
  refine ⟨hout, ?_, hupdates⟩
  rw [held, hout, hsettling, List.flatten_nil, List.append_nil]

/-- **Nothing is stuck**: whatever was interleaved, failed and sent back so far, while the queue
is not dropped the threads can go on to where every message put is settled and the stored offset
is one above the highest. -/
theorem serves_all {now : Nat} {store : RemoteBrokerOffsetStore} {es : List BatchEvent}
    (hrun : Base.runFrom (step config mq) (start mq now store) es = some s)
    (hdropped : s.dropped = false) :
    ∃ es' t, (∀ e ∈ es', Serves e) ∧ Base.runFrom (step config mq) s es' = some t ∧
      t.queue.put.Perm (offsets t.settled) ∧
      ∀ m, t.queue.MaxPut m → 0 ≤ m + 1 → t.queue.store.offsetTable[mq]? = some (m + 1) := by
  have h : s.Sound mq := Base.inv_of_runFrom sound_step (sound_start now store) hrun
  have habandoned : s.dropped = false → s.abandoned = [] :=
    Base.inv_of_runFrom abandoned_step (fun _ ↦ rfl) hrun
  have hgoOn : ∀ s : BatchConsumption, s.Sound mq ∧ s.dropped = false ∧ s.abandoned = [] →
      s.remaining ≠ 0 → ∃ e s', Serves e ∧ s.step config mq e = some s' ∧
        (s'.Sound mq ∧ s'.dropped = false ∧ s'.abandoned = []) ∧
          s'.remaining < s.remaining := by
    rintro s ⟨h, hdropped, habandoned⟩ hremaining
    obtain ⟨e, s', hserves, hstep, hdropped', hlt⟩ := exists_serving hdropped hremaining
    exact ⟨e, s', hserves, hstep, ⟨sound_step s e s' h hstep, hdropped',
      abandoned_step s e s' (fun _ ↦ habandoned) hstep hdropped'⟩, hlt⟩
  obtain ⟨es', t, hserves, hrest, ⟨ht, -, hnone⟩, hzero⟩ :=
    Base.exists_run_of_variant remaining hgoOn ⟨h, hdropped, habandoned hdropped⟩
  obtain ⟨hout, hheld, hupdates⟩ := done_of_remaining hzero hnone
  have haccounted := ht.accounted
  rw [hout, List.append_nil] at haccounted
  exact ⟨es', t, hserves, hrest, haccounted, fun m ↦ ht.stored_of_done hheld hupdates⟩

end Serving

theorem serves_all_retried : ∃ es t, (∀ e ∈ es, Serves e) ∧
    Base.runFrom (step pairs ⟨str "t", str "b", 0⟩) retried es = some t ∧
      t.queue.put.Perm (offsets t.settled) ∧ ∀ m, t.queue.MaxPut m → 0 ≤ m + 1 →
        t.queue.store.offsetTable[(⟨str "t", str "b", 0⟩ : MessageQueue)]? = some (m + 1) :=
  serves_all (Option.some_get (by decide +kernel)).symm (by decide +kernel)

end BatchConsumption
end RocketMQ
