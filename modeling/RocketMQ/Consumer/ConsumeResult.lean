import RocketMQ.Consumer.FlowControl

/-!
# What becomes of the messages of a batch

`ConsumeMessageConcurrentlyService::processConsumeResult` of a clustering consumer,
`src/consumer/ConsumeMessageConcurrentlyService.cpp:152–270`, with everything it does to the
messages: which it tries to send back and with what result, which it counts as consumed once
more, which it deletes and which it gives to a timer.
-/

namespace RocketMQ

/-- The buffer, the calls of `sendMessageBack` with their results, `m_reconsumeTimes` of the message
at each address, the deleted messages, and the messages of each `SubmitConsumeRequestLater`. -/
structure BatchFinish where
  pq : ProcessQueue
  calls : List (MessageExt × Bool)
  reconsumeTimes : Nat → Int
  deleted : List MessageExt
  timers : List (List MessageExt)

namespace ConsumeMessageConcurrentlyService

/-- The loop that sends messages back, `src/consumer/ConsumeMessageConcurrentlyService.cpp:216–226`:
its calls, and `m_reconsumeTimes` afterwards. -/
def sendBackLoop (sendMessageBack : MessageExt → Bool) (reconsumeTimes : Nat → Int) :
    List MessageExt → List (MessageExt × Bool) × (Nat → Int)
  | [] => ([], reconsumeTimes)
  | msg :: msgs =>
    let result := sendMessageBack msg
    let times := if result then reconsumeTimes
      else fun address ↦
        if address = msg.address then reconsumeTimes address + 1 else reconsumeTimes address
    let (calls, times) := sendBackLoop sendMessageBack times msgs
    ((msg, result) :: calls, times)

/-- `processConsumeResult` with the message model `CLUSTERING`. What `removeMessage` takes out of
the buffer it deletes, unless the buffer is empty, `src/consumer/ProcessQueue.cpp:108–122`. -/
def finishBatch (pq : ProcessQueue) (reconsumeTimes : Nat → Int)
    (status : ConsumeConcurrentlyStatus) (ackIndex : Int) (sendMessageBack : MessageExt → Bool)
    (msgs : List MessageExt) : BatchFinish :=
  if msgs.isEmpty then ⟨pq, [], reconsumeTimes, [], []⟩
  else
    let (calls, times) := sendBackLoop sendMessageBack reconsumeTimes
      (msgs.drop (settledAckIndex status ackIndex msgs.length + 1).toNat)
    let (pq', _, failed) := processConsumeResult pq status ackIndex .clustering sendMessageBack msgs
    { pq := pq'
      calls
      reconsumeTimes := times
      deleted := if pq.msgTreeMap.keys.isEmpty then [] else eraseFailed msgs failed
      timers := if failed.isEmpty then [] else [failed] }

/-! ### One way for each message -/

/-- One of three, and no other. -/
def ExactlyOne (p q r : Prop) : Prop := p ∧ ¬ q ∧ ¬ r ∨ ¬ p ∧ q ∧ ¬ r ∨ ¬ p ∧ ¬ q ∧ r

/-- The message at a position is acknowledged by the listener. -/
def Acknowledged (status : ConsumeConcurrentlyStatus) (ackIndex : Int) (i : Nat) : Prop :=
  status = .consumeSuccess ∧ (i : Int) ≤ ackIndex

/-- The messages of a batch whose call of `sendMessageBack` failed. -/
def failedOf (finish : BatchFinish) (msgs : List MessageExt) : List MessageExt :=
  msgs.filter fun msg ↦ (msg, false) ∈ finish.calls

/-- The other messages of a batch. -/
def settledOf (finish : BatchFinish) (msgs : List MessageExt) : List MessageExt :=
  msgs.filter fun msg ↦ (msg, false) ∉ finish.calls

/-- Every message is treated in one way, and the buffer, the timers and the counters follow. -/
structure Accounted (pq : ProcessQueue) (reconsumeTimes : Nat → Int)
    (status : ConsumeConcurrentlyStatus) (ackIndex : Int) (sendMessageBack : MessageExt → Bool)
    (msgs : List MessageExt) (finish : BatchFinish) : Prop where
  treated : ∀ i msg, msgs[i]? = some msg → ExactlyOne (Acknowledged status ackIndex i)
    ((msg, true) ∈ finish.calls) ((msg, false) ∈ finish.calls)
  calledOnce : (finish.calls.map Prod.fst).Nodup
  results : ∀ call ∈ finish.calls, call.2 = sendMessageBack call.1
  resubmitted : finish.timers =
    if failedOf finish msgs = [] then [] else [failedOf finish msgs]
  reconsumeTimes : ∀ msg ∈ msgs, finish.reconsumeTimes msg.address =
    reconsumeTimes msg.address + if msg ∈ failedOf finish msgs then 1 else 0
  buffered : ∀ o : Int, finish.pq.msgTreeMap.map[o]? =
    if o ∈ offsets (settledOf finish msgs) then none else pq.msgTreeMap.map[o]?
  deletedOnce : finish.deleted = settledOf finish msgs ∧ finish.deleted.Nodup
  removed : pq.waiting.length = finish.pq.waiting.length + (settledOf finish msgs).length
  msgCount : finish.pq.msgCount = pq.msgCount - (settledOf finish msgs).length

section Loop

variable (sendMessageBack : MessageExt → Bool)

/-- `sendMessageBack` is called once for each message, in order. -/
theorem calls_sendBackLoop (reconsumeTimes : Nat → Int) (msgs : List MessageExt) :
    (sendBackLoop sendMessageBack reconsumeTimes msgs).1 =
      msgs.map fun msg ↦ (msg, sendMessageBack msg) := by
  induction msgs generalizing reconsumeTimes with
  | nil => rfl
  | cons msg msgs ih =>
    unfold sendBackLoop
    rw [List.map_cons, ← ih]

/-- Every message that could not be sent back counts once more. -/
theorem reconsumeTimes_sendBackLoop (reconsumeTimes : Nat → Int) {msgs : List MessageExt}
    (hdistinct : (msgs.map MessageExt.address).Nodup) (address : Nat) :
    (sendBackLoop sendMessageBack reconsumeTimes msgs).2 address = reconsumeTimes address +
      if ∃ msg ∈ msgs, msg.address = address ∧ sendMessageBack msg = false then 1 else 0 := by
  induction msgs generalizing reconsumeTimes with
  | nil => simp [sendBackLoop]
  | cons msg msgs ih =>
    obtain ⟨hnotMem, hrest⟩ := List.nodup_cons.mp hdistinct
    have hfirst (times : Nat → Int) := ih times hrest
    unfold sendBackLoop
    simp only [List.mem_cons, exists_eq_or_imp]
    by_cases haddress : msg.address = address
    · subst haddress
      -- no other message has this address, so the later calls leave its counter
      have hnone : ¬ ∃ m ∈ msgs, m.address = msg.address ∧ sendMessageBack m = false := by
        rintro ⟨m, hm, heq, -⟩
        exact hnotMem (heq ▸ List.mem_map_of_mem hm)
      cases hback : sendMessageBack msg <;> simp [hfirst, hnone]
    · have hne : ¬ address = msg.address := fun h ↦ haddress h.symm
      cases hback : sendMessageBack msg <;> simp [hfirst, haddress, hne]

end Loop

section Batch

variable {pq : ProcessQueue} {times : Nat → Int} {status : ConsumeConcurrentlyStatus}
  {ackIndex : Int} {back : MessageExt → Bool} {msgs : List MessageExt}

/-- The position from which messages are sent back. -/
def firstSentBack (status : ConsumeConcurrentlyStatus) (ackIndex : Int)
    (msgs : List MessageExt) : Nat :=
  (settledAckIndex status ackIndex msgs.length + 1).toNat

/-- The acknowledged positions are those before the first message that is sent back. -/
theorem lt_firstSentBack_iff (hack : -1 ≤ ackIndex) {i : Nat} (hi : i < msgs.length) :
    i < firstSentBack status ackIndex msgs ↔ Acknowledged status ackIndex i := by
  unfold firstSentBack settledAckIndex Acknowledged
  cases status with
  | consumeSuccess =>
    simp only [true_and]
    split <;> omega
  | reconsumeLater => simp

/-- The messages that are sent back are the last ones of the batch, each once. -/
theorem calls_finishBatch (hne : msgs ≠ []) :
    (finishBatch pq times status ackIndex back msgs).calls =
      (msgs.drop (firstSentBack status ackIndex msgs)).map fun msg ↦ (msg, back msg) := by
  rw [← calls_sendBackLoop back times]
  simp [finishBatch, firstSentBack, hne]

theorem mem_calls_iff (hne : msgs ≠ []) {msg : MessageExt} {result : Bool} :
    (msg, result) ∈ (finishBatch pq times status ackIndex back msgs).calls ↔
      msg ∈ msgs.drop (firstSentBack status ackIndex msgs) ∧ back msg = result := by
  rw [calls_finishBatch hne, List.mem_map]
  constructor
  · rintro ⟨m, hm, heq⟩
    cases heq
    exact ⟨hm, rfl⟩
  · rintro ⟨hm, rfl⟩
    exact ⟨msg, hm, rfl⟩

/-- Of different messages, those at or after a position are not among those before it. -/
theorem mem_drop_iff_of_getElem? (hn : msgs.Nodup) {i n : Nat} {msg : MessageExt}
    (hi : msgs[i]? = some msg) : msg ∈ msgs.drop n ↔ n ≤ i := by
  rw [List.mem_iff_getElem?]
  constructor
  · rintro ⟨j, hj⟩
    rw [List.getElem?_drop] at hj
    have hlt := (List.getElem?_eq_some_iff.mp hi).1
    have heq := (List.getElem?_inj hlt hn).mp (hi.trans hj.symm)
    omega
  · intro hle
    refine ⟨i - n, ?_⟩
    rw [List.getElem?_drop, Nat.add_sub_cancel' hle]
    exact hi

/-- The messages that are submitted again are those whose call failed, in order. -/
theorem failedOf_finishBatch (hne : msgs ≠ []) (hn : msgs.Nodup) :
    failedOf (finishBatch pq times status ackIndex back msgs) msgs =
      msgBackFailed (settledAckIndex status ackIndex msgs.length) .clustering back msgs := by
  let start := firstSentBack status ackIndex msgs
  have hsplit (p : MessageExt → Bool) :
      msgs.filter p = (msgs.take start).filter p ++ (msgs.drop start).filter p := by
    rw [← List.filter_append, List.take_append_drop]
  have hapart : ∀ m ∈ msgs.take start, m ∉ msgs.drop start :=
    fun m hm hd ↦ List.disjoint_take_drop hn le_rfl hm hd
  have hacked : (msgs.take start).filter
      (fun m ↦ (m, false) ∈ (finishBatch pq times status ackIndex back msgs).calls) = [] := by
    apply List.filter_eq_nil_iff.mpr
    intro m hm
    rw [decide_eq_true_eq, mem_calls_iff hne]
    exact fun h ↦ hapart m hm h.1
  have hsent : (msgs.drop start).filter
      (fun m ↦ (m, false) ∈ (finishBatch pq times status ackIndex back msgs).calls) =
      (msgs.drop start).filter fun m ↦ !back m := by
    apply List.filter_congr
    intro m hm
    simp only [mem_calls_iff hne]
    cases back m <;> simp [hm, start]
  rw [failedOf, hsplit, hacked, hsent, List.nil_append]
  rfl

/-- The messages that are removed are all the others, in order. -/
theorem settledOf_finishBatch (hne : msgs ≠ [])
    (hdistinct : (msgs.map MessageExt.address).Nodup) :
    settledOf (finishBatch pq times status ackIndex back msgs) msgs = eraseFailed msgs
      (msgBackFailed (settledAckIndex status ackIndex msgs.length) .clustering back msgs) := by
  have hfailed : failedOf (finishBatch pq times status ackIndex back msgs) msgs = _ :=
    failedOf_finishBatch hne (List.Nodup.of_map _ hdistinct)
  rw [← hfailed]
  unfold settledOf eraseFailed
  apply List.filter_congr
  intro msg hmsg
  have hany : (failedOf (finishBatch pq times status ackIndex back msgs) msgs).any
      (·.address == msg.address) =
      decide ((msg, false) ∈ (finishBatch pq times status ackIndex back msgs).calls) := by
    rw [Bool.eq_iff_iff, List.any_eq_true, decide_eq_true_eq]
    constructor
    · rintro ⟨m, hm, haddress⟩
      have hm' := List.mem_filter.mp hm
      have heq := List.inj_on_of_nodup_map hdistinct hm'.1 hmsg (beq_iff_eq.mp haddress)
      rw [← heq]
      exact of_decide_eq_true hm'.2
    · intro h
      exact ⟨msg, List.mem_filter.mpr ⟨hmsg, decide_eq_true h⟩, beq_self_eq_true _⟩
  rw [hany, decide_not]

/-- A buffered message has its offset among the buffered ones. -/
theorem mem_waiting_of_buffered {msg : MessageExt}
    (h : pq.msgTreeMap.map[msg.queueOffset]? = some msg) : msg.queueOffset ∈ pq.waiting := by
  apply Std.ExtTreeMap.mem_keys.mpr
  rw [Std.ExtTreeMap.mem_iff_isSome_getElem?, h, Option.isSome_some]

/-- Different messages that are all in the buffer have different offsets. -/
theorem nodup_offsets_of_buffered (hn : msgs.Nodup)
    (hbuffered : ∀ msg ∈ msgs, pq.msgTreeMap.map[msg.queueOffset]? = some msg) :
    (offsets msgs).Nodup := by
  apply List.Nodup.map_on _ hn
  intro a ha b hb heq
  apply Option.some.inj
  rw [← hbuffered a ha, ← hbuffered b hb, heq]

/-- Every message is acknowledged, sent back, or failed to be. -/
theorem exactlyOne_finishBatch (hne : msgs ≠ []) (hn : msgs.Nodup) (hack : -1 ≤ ackIndex) {i : Nat}
    {msg : MessageExt} (hi : msgs[i]? = some msg) :
    ExactlyOne (Acknowledged status ackIndex i)
      ((msg, true) ∈ (finishBatch pq times status ackIndex back msgs).calls)
      ((msg, false) ∈ (finishBatch pq times status ackIndex back msgs).calls) := by
  have hlt := (List.getElem?_eq_some_iff.mp hi).1
  have hacked : i < firstSentBack status ackIndex msgs ↔ Acknowledged status ackIndex i :=
    lt_firstSentBack_iff hack hlt
  rw [ExactlyOne, ← hacked, mem_calls_iff hne, mem_calls_iff hne, mem_drop_iff_of_getElem? hn hi]
  cases back msg <;> simp <;> omega

/-- `sendMessageBack` is called for the messages from that position on. -/
theorem map_fst_calls_finishBatch (hne : msgs ≠ []) :
    (finishBatch pq times status ackIndex back msgs).calls.map Prod.fst =
      msgs.drop (firstSentBack status ackIndex msgs) := by
  rw [calls_finishBatch hne, List.map_map]
  exact List.map_id _

/-- The messages that could not be sent back count once more, the others do not. -/
theorem reconsumeTimes_finishBatch (hne : msgs ≠ [])
    (hdistinct : (msgs.map MessageExt.address).Nodup) {msg : MessageExt} (hmsg : msg ∈ msgs) :
    (finishBatch pq times status ackIndex back msgs).reconsumeTimes msg.address =
      times msg.address +
        if msg ∈ failedOf (finishBatch pq times status ackIndex back msgs) msgs then 1 else 0 := by
  have htimes : (finishBatch pq times status ackIndex back msgs).reconsumeTimes =
      (sendBackLoop back times (msgs.drop (firstSentBack status ackIndex msgs))).2 := by
    simp [finishBatch, firstSentBack, hne]
  have hrest : ((msgs.drop (firstSentBack status ackIndex msgs)).map MessageExt.address).Nodup :=
    hdistinct.sublist ((List.drop_sublist _ msgs).map _)
  rw [htimes, reconsumeTimes_sendBackLoop _ _ hrest]
  congr 2
  rw [eq_iff_iff, failedOf, List.mem_filter, decide_eq_true_eq, mem_calls_iff hne]
  constructor
  · rintro ⟨m, hm, haddress, hback⟩
    have heq := List.inj_on_of_nodup_map hdistinct (List.mem_of_mem_drop hm) hmsg haddress
    exact ⟨hmsg, heq ▸ hm, heq ▸ hback⟩
  · rintro ⟨-, hm, hback⟩
    exact ⟨msg, hm, rfl, hback⟩

/-- A batch that is in the buffer leaves it not empty. -/
theorem waiting_isEmpty_of_buffered (hne : msgs ≠ [])
    (hbuffered : ∀ msg ∈ msgs, pq.msgTreeMap.map[msg.queueOffset]? = some msg) :
    pq.waiting.isEmpty = false := by
  obtain ⟨msg, hmsg⟩ := List.exists_mem_of_ne_nil msgs hne
  have hkey := mem_waiting_of_buffered (hbuffered msg hmsg)
  exact List.isEmpty_eq_false_iff.mpr (List.ne_nil_of_mem hkey)

/-- The buffer loses the messages that are settled. -/
theorem pq_finishBatch (hne : msgs ≠ []) (hdistinct : (msgs.map MessageExt.address).Nodup)
    (hwaiting : pq.waiting.isEmpty = false) :
    (finishBatch pq times status ackIndex back msgs).pq = { pq with
      msgTreeMap := pq.msgTreeMap.eraseAll
        (offsets (settledOf (finishBatch pq times status ackIndex back msgs) msgs))
      msgCount := pq.msgCount -
        (settledOf (finishBatch pq times status ackIndex back msgs) msgs).length } := by
  have hpq : (finishBatch pq times status ackIndex back msgs).pq = (pq.removeMessage
      (settledOf (finishBatch pq times status ackIndex back msgs) msgs)).1 := by
    rw [settledOf_finishBatch hne hdistinct]
    simp [finishBatch, processConsumeResult, hne]
  rw [hpq, ProcessQueue.removeMessage_fst, hwaiting]
  rfl

/-- The settled messages are deleted. -/
theorem deleted_finishBatch (hne : msgs ≠ []) (hdistinct : (msgs.map MessageExt.address).Nodup)
    (hwaiting : pq.waiting.isEmpty = false) :
    (finishBatch pq times status ackIndex back msgs).deleted =
      settledOf (finishBatch pq times status ackIndex back msgs) msgs := by
  have hkept : pq.msgTreeMap.keys.isEmpty = false := hwaiting
  rw [settledOf_finishBatch hne hdistinct]
  simp [finishBatch, processConsumeResult, hne, hkept]

end Batch

/-- Whatever the listener's answer and the results of `sendMessageBack`, every message of a batch
that is in the buffer is treated in exactly one way. -/
theorem finishBatch_accounted (pq : ProcessQueue) (reconsumeTimes : Nat → Int)
    (status : ConsumeConcurrentlyStatus) (ackIndex : Int) (sendMessageBack : MessageExt → Bool)
    (msgs : List MessageExt) (hne : msgs ≠ [])
    (hdistinct : (msgs.map MessageExt.address).Nodup)
    (hbuffered : ∀ msg ∈ msgs, pq.msgTreeMap.map[msg.queueOffset]? = some msg)
    (hack : -1 ≤ ackIndex) :
    Accounted pq reconsumeTimes status ackIndex sendMessageBack msgs
      (finishBatch pq reconsumeTimes status ackIndex sendMessageBack msgs) := by
  have hn : msgs.Nodup := List.Nodup.of_map _ hdistinct
  have hwaiting := waiting_isEmpty_of_buffered hne hbuffered
  let finish := finishBatch pq reconsumeTimes status ackIndex sendMessageBack msgs
  have hpq : finish.pq = { pq with
      msgTreeMap := pq.msgTreeMap.eraseAll (offsets (settledOf finish msgs))
      msgCount := pq.msgCount - (settledOf finish msgs).length } :=
    pq_finishBatch hne hdistinct hwaiting
  have hsettled : (settledOf finish msgs).Sublist msgs := List.filter_sublist
  constructor
  case treated => exact fun i msg hi ↦ exactlyOne_finishBatch hne hn hack hi
  case calledOnce =>
    rw [map_fst_calls_finishBatch hne]
    exact hn.sublist (List.drop_sublist _ msgs)
  case results =>
    rintro ⟨msg, result⟩ hcall
    exact ((mem_calls_iff hne).mp hcall).2.symm
  case resubmitted =>
    rw [failedOf_finishBatch hne hn]
    simp [finishBatch, processConsumeResult, hne]
  case reconsumeTimes => exact fun msg hmsg ↦ reconsumeTimes_finishBatch hne hdistinct hmsg
  case buffered =>
    intro o
    rw [hpq]
    exact Base.KeyedMap.getElem?_eraseAll
  case deletedOnce =>
    have hdeleted : finish.deleted = settledOf finish msgs :=
      deleted_finishBatch hne hdistinct hwaiting
    exact ⟨hdeleted, hdeleted ▸ hn.sublist hsettled⟩
  case removed =>
    have hoffsets : (offsets (settledOf finish msgs)).Nodup :=
      (nodup_offsets_of_buffered hn hbuffered).sublist (hsettled.map _)
    have hkeys : ∀ o ∈ offsets (settledOf finish msgs), o ∈ pq.waiting := by
      intro o ho
      obtain ⟨msg, hmsg, rfl⟩ := List.mem_map.mp ho
      exact mem_waiting_of_buffered (hbuffered msg (hsettled.subset hmsg))
    rw [hpq, Nat.add_comm, ← length_offsets, ← List.length_append]
    exact (Base.KeyedMap.keys_perm_eraseAll hoffsets hkeys).length_eq
  case msgCount => rw [hpq]

/-- Of three messages the first is acknowledged, the second sent back and the third is not. -/
theorem finishBatch_accounted_three :
    let pq := ((ProcessQueue.new 0).putMessage [.at 5, .at 6, .at 7]).1
    let back (msg : MessageExt) : Bool := msg.queueOffset == 6
    let finish := finishBatch pq (fun _ ↦ 0) .consumeSuccess 0 back [.at 5, .at 6, .at 7]
    Accounted pq (fun _ ↦ 0) .consumeSuccess 0 back [.at 5, .at 6, .at 7] finish ∧
      finish.timers = [[.at 7]] ∧ finish.pq.waiting = [7] := by
  intro pq back finish
  have haccounted := finishBatch_accounted pq (fun _ ↦ 0) .consumeSuccess 0 back
    [.at 5, .at 6, .at 7] (by decide) (by decide) (by decide) (by decide)
  exact ⟨haccounted, by decide, by decide⟩

end ConsumeMessageConcurrentlyService
end RocketMQ
