import Mathlib.Data.List.Perm.Basic
import RocketMQ.Consumer.Concurrently
import RocketMQ.Consumer.Orderly

/-!
# Offsets of a queue that was taken away

A consume request tests `m_dropped` before its listener runs and updates the offset store after
that, whatever became of the queue in between. A rebalance drops the `ProcessQueue` and has
`removeUnnecessaryMessageQueue` discard the entry of the queue; an update that comes later makes
a new one. The steps below are those of one queue, which may be lost and acquired any number of
times. Pool threads run the requests of all its `ProcessQueue`s side by side. A pull reply can
update the offset store as well (`correctTagsOffset`, and a reply of `OFFSET_ILLEGAL`); those
updates are no steps here, which are about consume requests.
-/

namespace RocketMQ

/-- Where a running `ConsumeConcurrentlyRequest::Do` is,
`src/consumer/ConsumeMessageConcurrentlyService.cpp:303–360`. -/
inductive ConcurrentlyPc where
  | testDropped (msgs : List MessageExt)
  | listening (msgs : List MessageExt)
  | updateOffset (offset : Int)

/-- Where a running request of either service is. -/
inductive ConsumePc where
  | concurrently (pc : ConcurrentlyPc)
  | orderly (pc : OrderlyPc)

/-- What a step of a request needs from outside. -/
inductive ConsumeInput where
  | go
  | consumed (status : ConsumeConcurrentlyStatus) (ackIndex : Int) (messageModel : MessageModel)
      (sendMessageBack : MessageExt → Bool)
  | orderly (input : OrderlyInput)

/-- What a step of a request leaves: the `ProcessQueue`, the offset store, the object lock of the
queue, and where the request is if it goes on. -/
structure ConsumeStep where
  pq : ProcessQueue
  store : RemoteBrokerOffsetStore
  objLock : Bool
  next : Option ConsumePc

namespace ConsumePc

/-- One step of a request. -/
def step (mq : MessageQueue) (now : Nat) (pq : ProcessQueue) (store : RemoteBrokerOffsetStore)
    (objLock : Bool) : ConsumePc → ConsumeInput → Option ConsumeStep
  | .concurrently (.testDropped msgs), .go =>
    some ⟨pq, store, objLock, if pq.dropped then none else some (.concurrently (.listening msgs))⟩
  | .concurrently (.listening msgs), .consumed status ackIndex messageModel sendMessageBack =>
    let (pq, offset, _) := ConsumeMessageConcurrentlyService.processConsumeResult pq status ackIndex
      messageModel sendMessageBack msgs
    some ⟨pq, store, objLock, offset.map fun offset ↦ .concurrently (.updateOffset offset)⟩
  | .concurrently (.updateOffset offset), .go =>
    some ⟨pq, store.updateOffset mq offset true, objLock, none⟩
  | .orderly pc, .orderly input =>
    if pc = .fetchLock then
      if objLock then none else some ⟨pq, store, true, some (.orderly .testEntryLocked)⟩
    else
      (OrderlyQueue.doStep mq ⟨pq, now, store, [], [], []⟩ pc input).map fun (q, next) ↦
        ⟨q.pq, q.store, objLock && next.pc.isSome, next.pc.map .orderly⟩
  | _, _ => none

/-- The offset that the request is about to write. -/
def pending : ConsumePc → Option Int
  | .concurrently (.updateOffset offset) | .orderly (.updateOffset _ offset) => some offset
  | _ => none

/-- The result of the listener moves the offset: a batch finishes while messages are buffered, or
an orderly answer commits while messages are taken. -/
def Moves (pq : ProcessQueue) : ConsumePc → ConsumeInput → Prop
  | .concurrently (.listening msgs), .consumed _ _ _ _ => msgs ≠ [] ∧ pq.waiting ≠ []
  | .orderly (.listening _ _), .orderly (.answer answer) =>
    ConsumeMessageOrderlyService.commits (answer.status.getD .suspendCurrentQueueAMoment)
      answer.autoCommit = true ∧ pq.taken ≠ []
  | _, _ => False

instance (pq : ProcessQueue) : ∀ pc input, Decidable (Moves pq pc input)
  | .concurrently (.listening _), .consumed _ _ _ _ => inferInstanceAs (Decidable (_ ∧ _))
  | .orderly (.listening _ _), .orderly (.answer _) => inferInstanceAs (Decidable (_ ∧ _))
  | .concurrently (.testDropped _), _ | .concurrently (.updateOffset _), _
  | .concurrently (.listening _), .go | .concurrently (.listening _), .orderly _
  | .orderly .fetchLock, .orderly _ | .orderly .testEntryLocked, .orderly _
  | .orderly .testEntryExpired, .orderly _ | .orderly (.testDropped _), .orderly _
  | .orderly (.testLocked _), .orderly _ | .orderly (.testExpired _), .orderly _
  | .orderly (.testInterval _), .orderly _ | .orderly (.take _), .orderly _
  | .orderly .clearConsuming, .orderly _ | .orderly (.updateOffset _ _), .orderly _
  | .orderly (.suspend _), .orderly _ | .orderly (.listening _ _), .orderly .go
  | .orderly (.listening _ _), .orderly (.batchSize _) => inferInstanceAs (Decidable False)
  | .orderly pc, .go | .orderly pc, .consumed _ _ _ _ =>
    decidable_of_iff False (by cases pc <;> exact Iff.rfl)

/-- The offsets that a request carries are not negative. -/
def NonNeg : ConsumePc → Prop
  | .orderly (.listening _ msgs) => ∀ o ∈ offsets msgs, 0 ≤ o
  | _ => True

end ConsumePc

/-- The offsets in a buffer are not negative. -/
structure ProcessQueue.NonNeg (pq : ProcessQueue) : Prop where
  waiting : ∀ o ∈ pq.waiting, 0 ≤ o
  taken : ∀ o ∈ pq.taken, 0 ≤ o
  queueOffsetMax : 0 ≤ pq.queueOffsetMax

/-! ### The buffer under one step -/

section Buffer

variable {pq : ProcessQueue} {msgs : List MessageExt}

theorem ProcessQueue.NonNeg.putMessage (h : pq.NonNeg) (hmsgs : ∀ o ∈ offsets msgs, 0 ≤ o) :
    (pq.putMessage msgs).1.NonNeg := by
  refine ⟨fun o ho ↦ ?_, by rw [pq.taken_putMessage]; exact h.taken, ?_⟩
  · rcases (pq.mem_waiting_putMessage msgs).mp ho with hnew | hold
    · exact hmsgs o hnew
    · exact h.waiting o hold
  · rw [pq.queueOffsetMax_putMessage]
    have hfold : ∀ init : Int, 0 ≤ init →
        0 ≤ msgs.foldl (fun _ msg ↦ msg.queueOffset) init := by
      clear h
      induction msgs with
      | nil => exact fun init h ↦ h
      | cons msg rest ih =>
        intro init _
        exact ih (fun o ho ↦ hmsgs o (List.mem_cons_of_mem _ ho)) msg.queueOffset
          (hmsgs _ List.mem_cons_self)
    exact hfold _ h.queueOffsetMax

theorem ProcessQueue.NonNeg.removeMessage (h : pq.NonNeg) : (pq.removeMessage msgs).1.NonNeg := by
  refine ⟨fun o ho ↦ h.waiting o ((pq.mem_waiting_removeMessage msgs).mp ho).2, ?_, ?_⟩
  · rw [pq.taken_removeMessage]
    exact h.taken
  · rw [pq.queueOffsetMax_removeMessage]
    exact h.queueOffsetMax

/-- A finished batch leaves an offset exactly when messages were buffered. -/
theorem nonneg_removeMessage_iff (h : pq.NonNeg) :
    (pq.removeMessage msgs).2 ≥ 0 ↔ pq.waiting ≠ [] := by
  rw [pq.removeMessage_snd]
  have hqueue := h.queueOffsetMax
  cases hfirst : (pq.removeMessage msgs).1.waiting.head? with
  | some first =>
    have hmem := List.mem_of_head? hfirst
    have hold := ((pq.mem_waiting_removeMessage msgs).mp hmem).2
    exact iff_of_true (h.waiting first hold) (List.ne_nil_of_mem hold)
  | none =>
    by_cases hempty : pq.waiting = []
    · simp [hempty]
    · simp only [hempty, if_false, ne_eq, not_false_eq_true, iff_true]
      omega

theorem ProcessQueue.NonNeg.commit (h : pq.NonNeg) : pq.commit.1.NonNeg := by
  rw [pq.commit_eq]
  refine ⟨h.waiting, fun o ho ↦ ?_, h.queueOffsetMax⟩
  rw [ProcessQueue.taken, Base.KeyedMap.keys_empty] at ho
  cases ho

/-- A commit leaves an offset exactly when messages were taken. -/
theorem nonneg_commit_iff (h : pq.NonNeg) : pq.commit.2 ≥ 0 ↔ pq.taken ≠ [] := by
  rw [pq.commit_snd]
  cases hlast : pq.taken.getLast? with
  | none => simp [List.getLast?_eq_none_iff.mp hlast]
  | some last =>
    have hmem := List.mem_of_getLast? hlast
    have hnonneg := h.taken last hmem
    refine iff_of_true ?_ (List.ne_nil_of_mem hmem)
    rw [Option.map_some, Option.getD_some]
    omega

theorem ProcessQueue.NonNeg.again (h : pq.NonNeg) (hmsgs : ∀ o ∈ offsets msgs, 0 ≤ o) :
    (pq.makeMessageToCosumeAgain msgs).NonNeg := by
  refine ⟨fun o ho ↦ ?_, fun o ho ↦ h.taken o ((pq.mem_taken_again msgs).mp ho).2,
    h.queueOffsetMax⟩
  rcases (pq.mem_waiting_again msgs).mp ho with hnew | hold
  · exact hmsgs o hnew
  · exact h.waiting o hold

theorem ProcessQueue.NonNeg.rollback (h : pq.NonNeg) : pq.rollback.NonNeg :=
  ⟨h.taken, fun o ho ↦ absurd ho (by simp), h.queueOffsetMax⟩

theorem ProcessQueue.NonNeg.takeLocked (h : pq.NonNeg) (batchSize : Int) :
    (pq.takeLocked batchSize).1.NonNeg := by
  refine ⟨fun o ho ↦ ?_, fun o ho ↦ ?_, h.queueOffsetMax⟩
  · rw [pq.waiting_takeLocked] at ho
    exact h.waiting o (List.mem_of_mem_drop ho)
  · rcases (pq.mem_taken_takeLocked batchSize).mp ho with hold | hnew
    · exact h.taken o hold
    · exact h.waiting o (List.mem_of_mem_take hnew)

end Buffer

/-! ### One step of a request -/

namespace ConsumePc

section Step

variable {mq : MessageQueue} {now : Nat} {pq : ProcessQueue} {store : RemoteBrokerOffsetStore}
  {objLock : Bool} {pc : ConsumePc} {input : ConsumeInput} {r : ConsumeStep}

/-- What a step does: only a request that has an offset pending touches the store, and one has an
offset pending afterwards exactly when the result of its listener moves the offset. -/
structure Spec (mq : MessageQueue) (pq : ProcessQueue) (store : RemoteBrokerOffsetStore)
    (pc : ConsumePc) (input : ConsumeInput) (r : ConsumeStep) : Prop where
  idle : pc.pending = none → r.store = store
  writes : ∀ offset, pc.pending = some offset →
    ∃ increaseOnly, r.store = store.updateOffset mq offset increaseOnly
  nonNeg : pq.NonNeg → pc.NonNeg → r.pq.NonNeg ∧ ∀ pc' ∈ r.next, pc'.NonNeg
  moves : pq.NonNeg → ((∃ pc' ∈ r.next, pc'.pending.isSome = true) ↔ pc.Moves pq input)

/-- A step that takes, tests, waits or ends, and leaves the store as it was. -/
theorem Spec.of_test {pq' : ProcessQueue} {next : Option ConsumePc} (hpc : pc.pending = none)
    (hmoves : ¬ pc.Moves pq input) (hpq' : pq.NonNeg → pq'.NonNeg)
    (hnext : ∀ pc' ∈ next, pc'.pending = none ∧ (pq.NonNeg → pc'.NonNeg)) :
    Spec mq pq store pc input ⟨pq', store, objLock, next⟩ := by
  refine ⟨fun _ ↦ rfl, fun offset hoffset ↦ ?_,
    fun h _ ↦ ⟨hpq' h, fun pc' h' ↦ (hnext pc' h').2 h⟩, fun _ ↦ iff_of_false ?_ hmoves⟩
  · rw [hpc] at hoffset
    cases hoffset
  · rintro ⟨pc', h', hpending⟩
    rw [(hnext pc' h').1] at hpending
    cases hpending

/-- A batch that finished. -/
theorem spec_consumed (status : ConsumeConcurrentlyStatus) (ackIndex : Int)
    (messageModel : MessageModel) (sendMessageBack : MessageExt → Bool) (msgs : List MessageExt)
    (h : step mq now pq store objLock (.concurrently (.listening msgs))
      (.consumed status ackIndex messageModel sendMessageBack) = some r) :
    Spec mq pq store (.concurrently (.listening msgs))
      (.consumed status ackIndex messageModel sendMessageBack) r := by
  rw [step, Option.some.injEq] at h
  subst h
  by_cases hempty : msgs = []
  · subst hempty
    rw [ConsumeMessageConcurrentlyService.processConsumeResult, if_pos List.isEmpty_nil]
    exact .of_test rfl (fun hmoves ↦ hmoves.1 rfl) id (by simp)
  · obtain ⟨removed, failed, hresult⟩ : ∃ removed failed,
        ConsumeMessageConcurrentlyService.processConsumeResult pq status ackIndex messageModel
          sendMessageBack msgs = ((pq.removeMessage removed).1,
            if (pq.removeMessage removed).2 ≥ 0 then some (pq.removeMessage removed).2 else none,
            failed) := by
      rw [ConsumeMessageConcurrentlyService.processConsumeResult, if_neg (by simpa using hempty)]
      exact ⟨_, _, rfl⟩
    rw [hresult]
    refine ⟨fun _ ↦ rfl, fun _ hoffset ↦ absurd hoffset (by simp [pending]),
      fun hpq _ ↦ ⟨hpq.removeMessage, ?_⟩, fun hpq ↦ ?_⟩
    · intro pc' hpc'
      obtain ⟨offset, -, rfl⟩ := Option.map_eq_some_iff.mp hpc'
      trivial
    · have hwaiting : (pq.removeMessage removed).2 ≥ 0 ↔ pq.waiting ≠ [] :=
        nonneg_removeMessage_iff hpq
      rw [Moves, and_iff_right hempty, ← hwaiting]
      split_ifs with hnonneg
      · exact iff_of_true ⟨_, rfl, rfl⟩ hnonneg
      · exact iff_of_false (by simp) hnonneg

/-- An orderly answer that leaves no offset. -/
theorem spec_unmoved {pq' : ProcessQueue} {next : OrderlyPc} {beginTime : Nat}
    {msgs : List MessageExt} {answer : ListenerAnswer}
    (hpq' : pq.NonNeg → (∀ o ∈ offsets msgs, 0 ≤ o) → pq'.NonNeg)
    (hmoves : ¬ Moves pq (.orderly (.listening beginTime msgs)) (.orderly (.answer answer)))
    (hnext : (orderly next).pending = none ∧ (orderly next).NonNeg) :
    Spec mq pq store (.orderly (.listening beginTime msgs)) (.orderly (.answer answer))
      ⟨pq', store, objLock, some (.orderly next)⟩ := by
  refine ⟨fun _ ↦ rfl, fun _ hoffset ↦ absurd hoffset (by simp [pending]),
    fun hpq hpc ↦ ⟨hpq' hpq hpc, ?_⟩, fun _ ↦ iff_of_false ?_ hmoves⟩
  · rintro pc' ⟨⟩
    exact hnext.2
  · rintro ⟨pc', ⟨⟩, hpending⟩
    rw [hnext.1] at hpending
    cases hpending

/-- An orderly answer that commits. -/
theorem spec_committed {beginTime : Nat} {msgs : List MessageExt} {answer : ListenerAnswer}
    (hcommits : ConsumeMessageOrderlyService.commits
      (answer.status.getD .suspendCurrentQueueAMoment) answer.autoCommit = true) :
    Spec mq pq store (.orderly (.listening beginTime msgs)) (.orderly (.answer answer))
      ⟨pq.commit.1, store, objLock, some (.orderly (if pq.commit.2 ≥ 0 then
        .updateOffset beginTime pq.commit.2 else .testDropped beginTime))⟩ := by
  refine ⟨fun _ ↦ rfl, fun _ hoffset ↦ absurd hoffset (by simp [pending]),
    fun hpq _ ↦ ⟨hpq.commit, ?_⟩, fun hpq ↦ ?_⟩
  · rintro pc' ⟨⟩
    split_ifs <;> trivial
  · rw [Moves, and_iff_right hcommits, ← nonneg_commit_iff hpq]
    split_ifs with hnonneg
    · exact iff_of_true ⟨_, rfl, rfl⟩ hnonneg
    · exact iff_of_false (by simp [pending]) hnonneg

/-- An orderly answer commits, or leaves no offset. -/
theorem processConsumeResult_cases (pq : ProcessQueue) (msgs : List MessageExt)
    (status : ConsumeOrderlyStatus) (autoCommit : Bool) :
    ConsumeMessageOrderlyService.commits status autoCommit = true ∧
        ConsumeMessageOrderlyService.processConsumeResult pq msgs status autoCommit =
          (pq.commit.1, pq.commit.2, true) ∨
      ConsumeMessageOrderlyService.commits status autoCommit = false ∧ ∃ pq' continueConsume,
        ConsumeMessageOrderlyService.processConsumeResult pq msgs status autoCommit =
          (pq', -1, continueConsume) ∧
        (pq.NonNeg → (∀ o ∈ offsets msgs, 0 ≤ o) → pq'.NonNeg) := by
  cases status with
  | commit => cases autoCommit <;> exact .inl ⟨rfl, rfl⟩
  | suspendCurrentQueueAMoment =>
    cases autoCommit <;> exact .inr ⟨rfl, _, _, rfl, fun hpq hmsgs ↦ hpq.again hmsgs⟩
  | success =>
    cases autoCommit with
    | true => exact .inl ⟨rfl, rfl⟩
    | false => exact .inr ⟨rfl, _, _, rfl, fun hpq _ ↦ hpq⟩
  | rollback =>
    cases autoCommit with
    | true => exact .inl ⟨rfl, rfl⟩
    | false => exact .inr ⟨rfl, _, _, rfl, fun hpq _ ↦ hpq.rollback⟩

/-- An orderly listener that answered. -/
theorem spec_answered (q : OrderlyQueue) (beginTime : Nat) (msgs : List MessageExt)
    (answer : ListenerAnswer) :
    Spec mq q.pq q.store (.orderly (.listening beginTime msgs)) (.orderly (.answer answer))
      ⟨(q.answered beginTime msgs answer).1.pq, (q.answered beginTime msgs answer).1.store, objLock,
        (q.answered beginTime msgs answer).2.pc.map .orderly⟩ := by
  rcases processConsumeResult_cases q.pq msgs
      (answer.status.getD .suspendCurrentQueueAMoment) answer.autoCommit with
    ⟨hcommits, hresult⟩ | ⟨hcommits, pq', continueConsume, hresult, hpq'⟩
  · rw [OrderlyQueue.answered, hresult]
    have hnext : (if (!true) = true then
          OrderlyNext.goOn (.suspend answer.suspendCurrentQueueTimeMillis)
        else if q.pq.commit.2 ≥ 0 then .goOn (.updateOffset beginTime q.pq.commit.2)
        else .goOn (.testDropped beginTime)).pc.map orderly =
        some (orderly (if q.pq.commit.2 ≥ 0 then .updateOffset beginTime q.pq.commit.2
          else .testDropped beginTime)) := by
      rw [if_neg (by simp)]
      split_ifs <;> rfl
    simp only [hnext]
    exact spec_committed hcommits
  · have hmoves : ¬ Moves q.pq (.orderly (.listening beginTime msgs))
        (.orderly (.answer answer)) := by
      rw [Moves, hcommits]
      simp
    rw [OrderlyQueue.answered, hresult]
    cases continueConsume with
    | true => exact spec_unmoved hpq' hmoves ⟨rfl, trivial⟩
    | false => exact spec_unmoved hpq' hmoves ⟨rfl, trivial⟩

/-- A step of an orderly request that only tests, takes or waits. -/
theorem spec_of_next {pq' : ProcessQueue} {pc : OrderlyPc} {input : OrderlyInput}
    {next : OrderlyNext} (hpc : (orderly pc).pending = none)
    (hmoves : ¬ Moves pq (.orderly pc) (.orderly input)) (hpq' : pq.NonNeg → pq'.NonNeg)
    (hnext : ∀ pc', next = .goOn pc' →
      (orderly pc').pending = none ∧ (pq.NonNeg → (orderly pc').NonNeg)) :
    Spec mq pq store (.orderly pc) (.orderly input)
      ⟨pq', store, objLock, next.pc.map .orderly⟩ := by
  refine .of_test hpc hmoves hpq' fun pc' hpc' ↦ ?_
  cases next with
  | goOn p =>
    cases hpc'
    exact hnext p rfl
  | leave | leaveLater => cases hpc'

theorem pending_of_between {pc : OrderlyPc} (h : OrderlyQueue.Between pc) :
    (orderly pc).pending = none := by
  cases pc with
  | updateOffset => exact h.elim
  | _ => rfl

theorem nonNeg_of_between {pc : OrderlyPc} (h : OrderlyQueue.Between pc) : (orderly pc).NonNeg := by
  cases pc with
  | listening => exact h.elim
  | _ => trivial

theorem not_moves_go (pc : OrderlyPc) : ¬ Moves pq (.orderly pc) (.orderly .go) := by
  cases pc <;> exact id

/-- Every step of an orderly request that holds the object lock. -/
theorem spec_of_doStep {pc : OrderlyPc} {input : OrderlyInput} {q : OrderlyQueue}
    {next : OrderlyNext}
    (h : OrderlyQueue.doStep mq ⟨pq, now, store, [], [], []⟩ pc input = some (q, next)) :
    Spec mq pq store (.orderly pc) (.orderly input)
      ⟨q.pq, q.store, objLock, next.pc.map .orderly⟩ := by
  cases OrderlyQueue.doStepped_of_doStep h with
  | test hpc hnext =>
    apply spec_of_next (pending_of_between hpc) (not_moves_go pc) id
    intro pc' hpc'
    have hbetween := hnext pc' (by rw [hpc']; rfl)
    exact ⟨pending_of_between hbetween, fun _ ↦ nonNeg_of_between hbetween⟩
  | take beginTime consumeBatchSize =>
    -- what is taken was buffered before
    apply spec_of_next rfl id (fun hpq ↦ hpq.takeLocked consumeBatchSize)
    rintro pc' ⟨⟩
    split_ifs
    · exact ⟨rfl, fun _ ↦ trivial⟩
    · refine ⟨rfl, fun hpq o ho ↦ hpq.waiting o ?_⟩
      have htake := pq.offsets_takeLocked consumeBatchSize
      exact List.mem_of_mem_take (htake ▸ ho)
  | clearConsuming =>
    exact spec_of_next rfl id (fun hpq ↦ ⟨hpq.waiting, hpq.taken, hpq.queueOffsetMax⟩) (by simp)
  | answer beginTime msgs answer =>
    exact spec_answered ⟨pq, now, store, [], [], []⟩ beginTime msgs answer
  | updateOffset beginTime commitOffset =>
    refine ⟨fun hnone ↦ absurd hnone (by simp [pending]), fun o ho ↦ ?_, fun hpq _ ↦ ⟨hpq, ?_⟩,
      fun _ ↦ iff_of_false ?_ id⟩
    · cases ho
      exact ⟨false, rfl⟩
    · rintro pc' ⟨⟩
      trivial
    · rintro ⟨pc', ⟨⟩, hpending⟩
      cases hpending
  | suspend timeMillis => exact spec_of_next rfl id id (by simp)

/-- Every step of a request. -/
theorem spec_of_step (h : pc.step mq now pq store objLock input = some r) :
    Spec mq pq store pc input r := by
  cases pc with
  | concurrently pc =>
    cases pc with
    | testDropped msgs =>
      cases input with
      | go =>
        cases h
        refine .of_test rfl id id fun pc' hpc' ↦ ?_
        split at hpc'
        · cases hpc'
        · cases hpc'
          exact ⟨rfl, fun _ ↦ trivial⟩
      | consumed | orderly => cases h
    | listening msgs =>
      cases input with
      | consumed status ackIndex messageModel sendMessageBack =>
        exact spec_consumed status ackIndex messageModel sendMessageBack msgs h
      | go | orderly => cases h
    | updateOffset offset =>
      cases input with
      | go =>
        cases h
        refine ⟨fun hnone ↦ (by cases hnone), fun o ho ↦ ?_, fun hpq _ ↦ ⟨hpq, by simp⟩,
          fun _ ↦ iff_of_false (by simp) id⟩
        cases ho
        exact ⟨true, rfl⟩
      | consumed | orderly => cases h
  | orderly pc =>
    cases input with
    | go | consumed => cases pc <;> cases h
    | orderly input =>
      rw [step] at h
      split_ifs at h with hfetch
      · subst hfetch
        cases h
        refine .of_test rfl id id fun pc' hpc' ↦ ?_
        cases hpc'
        exact ⟨rfl, fun _ ↦ trivial⟩
      · obtain ⟨⟨q, next⟩, hdo, hr⟩ := Option.map_eq_some_iff.mp h
        cases hr
        exact spec_of_doStep hdo

end Step
end ConsumePc

/-! ### The queue while it is acquired and lost -/

/-- A `ProcessQueue` of the queue; `removed` once `removeUnnecessaryMessageQueue` has run. -/
structure OwnedQueue where
  pq : ProcessQueue
  removed : Bool

/-- A running request, with the number of the `ProcessQueue` it holds a pointer to. -/
structure ConsumeRequest where
  queue : Nat
  pc : ConsumePc

/-- All `ProcessQueue`s the queue has had, the running requests, the offset store, the object lock
of the queue, the clock, and the offsets written for a removed `ProcessQueue`. -/
structure DropState where
  queues : List OwnedQueue
  requests : List ConsumeRequest
  store : RemoteBrokerOffsetStore
  objLock : Bool
  now : Nat
  lateUpdates : List Int

/-- What can happen next. `acquire` comes with the offset that `computePullFromWhere` reads from
the broker and stores, if any. -/
inductive DropEvent where
  | acquire (brokerOffset : Option Int)
  | setDropped (i : Nat)
  | removeUnnecessaryMessageQueue (i : Nat)
  | putMessage (i : Nat) (msgs : List MessageExt)
  | submitConcurrently (i : Nat) (msgs : List MessageExt)
  | submitOrderly (i : Nat)
  | lock (i : Nat) (granted : Bool)
  | clock (now : Nat)
  | run (j : Nat) (input : ConsumeInput)

namespace DropState

/-- A client that has not owned the queue yet. -/
def start (store : RemoteBrokerOffsetStore) (now : Nat) : DropState :=
  ⟨[], [], store, false, now, []⟩

/-- The `ProcessQueue` has been removed. -/
def removed (s : DropState) (i : Nat) : Bool := (s.queues[i]?.map (·.removed)).getD false

/-- Another value of one `ProcessQueue`. -/
def setQueue (s : DropState) (i : Nat) (pq : ProcessQueue) : DropState :=
  { s with queues := s.queues.modify i fun q ↦ { q with pq } }

/-- `RebalanceImpl::lock` and `lockAll` for this queue, `src/consumer/RebalanceImpl.cpp:128–231`. -/
def setLock (pq : ProcessQueue) (now : Nat) (granted : Bool) : ProcessQueue :=
  if granted then (pq.setLocked true).setLastLockTimestamp now else pq.setLocked false

/-- A request goes on or ends. -/
def goNext (s : DropState) (j : Nat) (req : ConsumeRequest) (removed : Bool) (r : ConsumeStep) :
    DropState :=
  { s.setQueue req.queue r.pq with
    requests :=
      match r.next with
      | some pc => s.requests.set j { req with pc }
      | none => s.requests.eraseIdx j
    store := r.store
    objLock := r.objLock
    lateUpdates := s.lateUpdates ++ if removed then req.pc.pending.toList else [] }

/-- One step. A rebalance acquires the queue only when it does not own it, and what it removes it
has dropped, `src/consumer/RebalanceImpl.cpp:500–514`; the `persist` of a removal sends nothing.
Messages come with the offsets of a broker. -/
def step (mq : MessageQueue) (s : DropState) : DropEvent → Option DropState
  | .acquire brokerOffset =>
    if ∀ q ∈ s.queues, q.removed = true then
      some { s with
        queues := s.queues ++ [⟨.new s.now, false⟩]
        store := match brokerOffset with
          | some offset => s.store.updateOffset mq offset false
          | none => s.store }
    else none
  | .setDropped i => s.queues[i]?.map fun q ↦ s.setQueue i (q.pq.setDropped true)
  | .removeUnnecessaryMessageQueue i =>
    match s.queues[i]? with
    | none => none
    | some q =>
      if q.pq.dropped && !q.removed then
        some { s with
          queues := s.queues.set i { q with removed := true }
          store := s.store.removeOffset mq }
      else none
  | .putMessage i msgs =>
    if ∀ o ∈ offsets msgs, 0 ≤ o then
      s.queues[i]?.map fun q ↦ s.setQueue i (q.pq.putMessage msgs).1
    else none
  | .submitConcurrently i msgs =>
    s.queues[i]?.map fun _ ↦
      { s with requests := s.requests ++ [⟨i, .concurrently (.testDropped msgs)⟩] }
  | .submitOrderly i =>
    s.queues[i]?.map fun _ ↦ { s with requests := s.requests ++ [⟨i, .orderly .fetchLock⟩] }
  | .lock i granted => s.queues[i]?.map fun q ↦ s.setQueue i (setLock q.pq s.now granted)
  | .clock now => some { s with now }
  | .run j input =>
    match s.requests[j]? with
    | none => none
    | some req =>
      match s.queues[req.queue]? with
      | none => none
      | some q =>
        (req.pc.step mq s.now q.pq s.store s.objLock input).map (s.goNext j req q.removed)

/-- Nothing was written for a removed `ProcessQueue`, and a client that does not own the queue has
no entry for it. -/
def Untouched (mq : MessageQueue) (s : DropState) : Prop :=
  s.lateUpdates = [] ∧
    ((∀ q ∈ s.queues, q.removed = true) → s.store.offsetTable[mq]? = none)

/-- A `ProcessQueue` is removed only when none of its requests has an offset pending, and from
then on no result moves an offset. -/
def SettledFirst (s : DropState) : DropEvent → Prop
  | .removeUnnecessaryMessageQueue i => ∀ req ∈ s.requests, req.queue = i → req.pc.pending = none
  | .run j input => ∀ req ∈ s.requests[j]?, ∀ q ∈ s.queues[req.queue]?,
      q.removed = true → ¬ req.pc.Moves q.pq input
  | .acquire _ | .setDropped _ | .putMessage _ _ | .submitConcurrently _ _ | .submitOrderly _
  | .lock _ _ | .clock _ => True

instance : ∀ s e, Decidable (SettledFirst s e)
  | _, .removeUnnecessaryMessageQueue _ => inferInstanceAs (Decidable (∀ _ ∈ _, _ → _))
  | _, .run _ _ => inferInstanceAs (Decidable (∀ _ ∈ _, ∀ _ ∈ _, _ → _))
  | _, .acquire _ | _, .setDropped _ | _, .putMessage _ _ | _, .submitConcurrently _ _
  | _, .submitOrderly _ | _, .lock _ _ | _, .clock _ => inferInstanceAs (Decidable True)

/-- No offset is on its way for a removed `ProcessQueue`, and none was. -/
def Settled (s : DropState) : Prop :=
  s.lateUpdates = [] ∧
    ∀ req ∈ s.requests, s.removed req.queue = true → req.pc.pending = none

/-- Offsets are not negative, and the entry of the queue is gone as long as nothing came late. -/
structure Kept (mq : MessageQueue) (s : DropState) : Prop where
  queues : ∀ q ∈ s.queues, q.pq.NonNeg
  requests : ∀ req ∈ s.requests, req.pc.NonNeg
  entry : s.lateUpdates = [] → (∀ q ∈ s.queues, q.removed = true) →
    s.store.offsetTable[mq]? = none

/-! ### What a step keeps -/

section Step

variable {mq : MessageQueue} {s t : DropState} {e : DropEvent}

theorem mem_setQueue {i : Nat} {pq : ProcessQueue} {q : OwnedQueue}
    (h : q ∈ (s.setQueue i pq).queues) : q ∈ s.queues ∨ q.pq = pq := by
  obtain ⟨k, hk⟩ := List.mem_iff_getElem?.mp h
  rw [setQueue, List.getElem?_modify] at hk
  obtain ⟨old, hold, rfl⟩ := Option.map_eq_some_iff.mp hk
  split_ifs
  · exact .inr rfl
  · exact .inl (List.mem_of_getElem? hold)

@[simp] theorem removed_setQueue (i k : Nat) (pq : ProcessQueue) :
    (s.setQueue i pq).removed k = s.removed k := by
  rw [removed, removed, setQueue, List.getElem?_modify]
  cases s.queues[k]? with
  | none => rfl
  | some q =>
    by_cases hik : i = k
    · simp [hik]
    · simp [hik]

/-- Whether all are removed does not change with the value of one. -/
theorem allRemoved_setQueue {i : Nat} {pq : ProcessQueue}
    (h : ∀ q ∈ (s.setQueue i pq).queues, q.removed = true) :
    ∀ q ∈ s.queues, q.removed = true := by
  intro q hq
  obtain ⟨k, hk⟩ := List.mem_iff_getElem?.mp hq
  have hget : (s.setQueue i pq).queues[k]? =
      some (if i = k then { q with pq } else q) := by
    rw [setQueue, List.getElem?_modify, hk]
    rfl
  have hremoved := h _ (List.mem_of_getElem? hget)
  split_ifs at hremoved
  · exact hremoved
  · exact hremoved

/-- Another value of a `ProcessQueue` that does not bring in negative offsets. -/
theorem Kept.setQueue (h : s.Kept mq) {i : Nat} {pq : ProcessQueue} (hpq : pq.NonNeg) :
    (s.setQueue i pq).Kept mq := by
  refine ⟨fun q hq ↦ ?_, h.requests, fun hlate hall ↦ h.entry hlate (allRemoved_setQueue hall)⟩
  rcases mem_setQueue hq with hold | rfl
  · exact h.queues q hold
  · exact hpq

theorem nonNeg_new (now : Nat) : (ProcessQueue.new now).NonNeg :=
  ⟨by simp [ProcessQueue.waiting, ProcessQueue.new],
    by simp [ProcessQueue.taken, ProcessQueue.new], le_refl 0⟩

/-- A new request. -/
theorem Kept.submit (h : s.Kept mq) {req : ConsumeRequest} (hreq : req.pc.NonNeg) :
    ({ s with requests := s.requests ++ [req] } : DropState).Kept mq := by
  refine ⟨h.queues, fun req' hreq' ↦ ?_, h.entry⟩
  rcases List.mem_append.mp hreq' with hold | hnew
  · exact h.requests req' hold
  · rw [List.mem_singleton.mp hnew]
    exact hreq

@[simp] theorem removed_goNext (j k : Nat) (req : ConsumeRequest) (removed : Bool)
    (r : ConsumeStep) : (s.goNext j req removed r).removed k = s.removed k :=
  removed_setQueue req.queue k r.pq

/-- What a step can do: most only give one `ProcessQueue` another value or add a request. -/
inductive Stepped (mq : MessageQueue) (s : DropState) : DropEvent → DropState → Prop where
  | acquire (brokerOffset : Option Int) (hall : ∀ q ∈ s.queues, q.removed = true) :
      Stepped mq s (.acquire brokerOffset) { s with
        queues := s.queues ++ [⟨.new s.now, false⟩]
        store := match brokerOffset with
          | some offset => s.store.updateOffset mq offset false
          | none => s.store }
  | revalue {e : DropEvent} {i : Nat} {q : OwnedQueue} {pq : ProcessQueue}
      (hq : s.queues[i]? = some q) (hpq : q.pq.NonNeg → pq.NonNeg) (hgood : s.SettledFirst e) :
      Stepped mq s e (s.setQueue i pq)
  | remove {i : Nat} {q : OwnedQueue} (hq : s.queues[i]? = some q) (hdropped : q.pq.dropped = true)
      (hremoved : q.removed = false) :
      Stepped mq s (.removeUnnecessaryMessageQueue i)
        { s with
          queues := s.queues.set i { q with removed := true }
          store := s.store.removeOffset mq }
  | submit {e : DropEvent} {req : ConsumeRequest} (hpending : req.pc.pending = none)
      (hreq : req.pc.NonNeg) (hgood : s.SettledFirst e) :
      Stepped mq s e { s with requests := s.requests ++ [req] }
  | clock (now : Nat) : Stepped mq s (.clock now) { s with now }
  | run {j : Nat} {input : ConsumeInput} {req : ConsumeRequest} {q : OwnedQueue} {r : ConsumeStep}
      (hreq : s.requests[j]? = some req) (hq : s.queues[req.queue]? = some q)
      (hr : req.pc.step mq s.now q.pq s.store s.objLock input = some r) :
      Stepped mq s (.run j input) (s.goNext j req q.removed r)

theorem stepped_of_step (hstep : s.step mq e = some t) : Stepped mq s e t := by
  cases e with
  | acquire brokerOffset =>
    simp only [step, Option.ite_none_right_eq_some, Option.some.injEq] at hstep
    obtain ⟨hall, rfl⟩ := hstep
    exact .acquire brokerOffset hall
  | setDropped i =>
    rw [step, Option.map_eq_some_iff] at hstep
    obtain ⟨q, hq, rfl⟩ := hstep
    exact .revalue hq (fun h ↦ ⟨h.waiting, h.taken, h.queueOffsetMax⟩) trivial
  | removeUnnecessaryMessageQueue i =>
    rw [step] at hstep
    split at hstep
    · cases hstep
    · next q hq =>
      rw [Option.ite_none_right_eq_some, Option.some.injEq, Bool.and_eq_true,
        Bool.not_eq_true'] at hstep
      obtain ⟨⟨hdropped, hremoved⟩, rfl⟩ := hstep
      exact .remove hq hdropped hremoved
  | putMessage i msgs =>
    rw [step, Option.ite_none_right_eq_some, Option.map_eq_some_iff] at hstep
    obtain ⟨hmsgs, q, hq, rfl⟩ := hstep
    exact .revalue hq (fun h ↦ h.putMessage hmsgs) trivial
  | submitConcurrently i msgs =>
    rw [step, Option.map_eq_some_iff] at hstep
    obtain ⟨-, -, rfl⟩ := hstep
    exact .submit rfl trivial trivial
  | submitOrderly i =>
    rw [step, Option.map_eq_some_iff] at hstep
    obtain ⟨-, -, rfl⟩ := hstep
    exact .submit rfl trivial trivial
  | lock i granted =>
    rw [step, Option.map_eq_some_iff] at hstep
    obtain ⟨q, hq, rfl⟩ := hstep
    refine .revalue hq (fun h ↦ ?_) trivial
    cases granted
    · exact ⟨h.waiting, h.taken, h.queueOffsetMax⟩
    · exact ⟨h.waiting, h.taken, h.queueOffsetMax⟩
  | clock now =>
    cases hstep
    exact .clock now
  | run j input =>
    rw [step] at hstep
    split at hstep
    · cases hstep
    · next req hreq =>
      split at hstep
      · cases hstep
      · next q hq =>
        obtain ⟨r, hr, rfl⟩ := Option.map_eq_some_iff.mp hstep
        exact .run hreq hq hr

/-- The requests after a step of one of them. -/
theorem requests_goNext {j : Nat} {req : ConsumeRequest} (hreq : s.requests[j]? = some req)
    (removed : Bool) (r : ConsumeStep) : (s.goNext j req removed r).requests.Perm
      ((r.next.map fun pc ↦ { req with pc }).toList ++ s.requests.eraseIdx j) := by
  obtain ⟨hj, rfl⟩ := List.getElem?_eq_some_iff.mp hreq
  rw [goNext]
  cases r.next with
  | none => exact .refl _
  | some pc => exact List.set_perm_cons_eraseIdx hj _

theorem requests_perm {j : Nat} {req : ConsumeRequest} (hreq : s.requests[j]? = some req) :
    s.requests.Perm (req :: s.requests.eraseIdx j) := by
  obtain ⟨hj, rfl⟩ := List.getElem?_eq_some_iff.mp hreq
  exact (List.getElem_cons_eraseIdx_perm hj).symm

theorem kept_run (h : s.Kept mq) {j : Nat} {input : ConsumeInput} {req : ConsumeRequest}
    {q : OwnedQueue} {r : ConsumeStep} (hreq : s.requests[j]? = some req)
    (hq : s.queues[req.queue]? = some q)
    (hr : req.pc.step mq s.now q.pq s.store s.objLock input = some r) :
    (s.goNext j req q.removed r).Kept mq := by
  have hspec := ConsumePc.spec_of_step hr
  have hmem := List.mem_of_getElem? hreq
  obtain ⟨hpq, hnext⟩ := hspec.nonNeg (h.queues q (List.mem_of_getElem? hq)) (h.requests req hmem)
  have hqueues := h.setQueue (i := req.queue) hpq
  refine ⟨hqueues.queues, fun req' hreq' ↦ ?_, fun hlate hall ↦ ?_⟩
  · rcases List.mem_append.mp ((requests_goNext hreq q.removed r).mem_iff.mp hreq') with hnew | hold
    · obtain ⟨pc, hpc, rfl⟩ := Option.map_eq_some_iff.mp (Option.mem_toList.mp hnew)
      exact hnext pc hpc
    · exact h.requests req' (List.mem_of_mem_eraseIdx hold)
  · -- all are removed, so nothing was pending, and the store is the old one
    have hremoved : q.removed = true :=
      allRemoved_setQueue hall q (List.mem_of_getElem? hq)
    have happend : s.lateUpdates ++ (if q.removed then req.pc.pending.toList else []) = [] := hlate
    rw [hremoved, if_pos rfl, List.append_eq_nil_iff, Option.toList_eq_nil_iff] at happend
    have hstore : r.store = s.store := hspec.idle happend.2
    change r.store.offsetTable[mq]? = none
    rw [hstore]
    exact h.entry happend.1 (allRemoved_setQueue hall)

/-- Every step keeps the offsets and the entry. -/
theorem kept_step (h : s.Kept mq) (hstep : s.step mq e = some t) : t.Kept mq := by
  cases stepped_of_step hstep with
  | acquire brokerOffset _ =>
    refine ⟨fun q hq ↦ ?_, h.requests, fun _ hall ↦ ?_⟩
    · rcases List.mem_append.mp hq with hold | hnew
      · exact h.queues q hold
      · rw [List.mem_singleton.mp hnew]
        exact nonNeg_new s.now
    · have hnew := hall ⟨.new s.now, false⟩ (List.mem_append_right _ (List.mem_singleton_self _))
      cases hnew
  | revalue hq hpq _ => exact h.setQueue (hpq (h.queues _ (List.mem_of_getElem? hq)))
  | @remove i q hq _ _ =>
    refine ⟨fun q' hq' ↦ ?_, h.requests, fun _ _ ↦ ?_⟩
    · rcases List.mem_or_eq_of_mem_set hq' with hold | rfl
      · exact h.queues q' hold
      · exact h.queues q (List.mem_of_getElem? hq)
    · rw [RemoteBrokerOffsetStore.getElem?_removeOffset, if_pos rfl]
  | submit _ hreq _ => exact h.submit hreq
  | clock now => exact ⟨h.queues, h.requests, h.entry⟩
  | run hreq hq hr => exact kept_run h hreq hq hr

/-- A step that writes nothing, and leaves requests and removals alone. -/
theorem settled_of_same (hlate : t.lateUpdates = s.lateUpdates)
    (hrequests : t.requests = s.requests) (hremoved : ∀ k, t.removed k = s.removed k)
    (hgood : s.SettledFirst e) : t.Settled ↔ s.Settled ∧ s.SettledFirst e := by
  rw [and_iff_left hgood, Settled, Settled, hlate, hrequests]
  simp only [hremoved]

/-- A request that is submitted has no offset pending. -/
theorem settled_submit {req : ConsumeRequest} (hreq : req.pc.pending = none) :
    ({ s with requests := s.requests ++ [req] } : DropState).Settled ↔ s.Settled := by
  rw [Settled, Settled]
  refine and_congr_right fun _ ↦ ⟨fun hall req' hreq' ↦ hall req' (List.mem_append_left _ hreq'),
    fun hall req' hreq' ↦ ?_⟩
  rcases List.mem_append.mp hreq' with hold | hnew
  · exact hall req' hold
  · rw [List.mem_singleton.mp hnew]
    exact fun _ ↦ hreq

theorem settled_run (h : s.Kept mq) {j : Nat} {input : ConsumeInput} {req : ConsumeRequest}
    {q : OwnedQueue} {r : ConsumeStep} (hreq : s.requests[j]? = some req)
    (hq : s.queues[req.queue]? = some q)
    (hr : req.pc.step mq s.now q.pq s.store s.objLock input = some r) :
    (s.goNext j req q.removed r).Settled ↔ s.Settled ∧ s.SettledFirst (.run j input) := by
  have hspec := ConsumePc.spec_of_step hr
  have hmoves := hspec.moves (h.queues q (List.mem_of_getElem? hq))
  have hremoved : s.removed req.queue = q.removed := by rw [removed, hq]; rfl
  have hgood : s.SettledFirst (.run j input) ↔ (q.removed = true → ¬ req.pc.Moves q.pq input) := by
    rw [SettledFirst, hreq]
    simp [hq]
  have hlate : (s.goNext j req q.removed r).lateUpdates = [] ↔
      s.lateUpdates = [] ∧ (q.removed = true → req.pc.pending = none) := by
    rw [goNext, List.append_eq_nil_iff]
    cases q.removed <;> simp
  have hafter : (∀ req' ∈ (s.goNext j req q.removed r).requests,
        (s.goNext j req q.removed r).removed req'.queue = true → req'.pc.pending = none) ↔
      (q.removed = true → ¬ req.pc.Moves q.pq input) ∧
        ∀ req' ∈ s.requests.eraseIdx j, s.removed req'.queue = true → req'.pc.pending = none := by
    simp only [removed_goNext, (requests_goNext hreq q.removed r).mem_iff, List.mem_append, or_imp,
      forall_and]
    apply and_congr_left
    intro _
    rw [← hmoves, ← hremoved]
    cases r.next with
    | none => simp
    | some pc => simp
  have hbefore : (∀ req' ∈ s.requests, s.removed req'.queue = true → req'.pc.pending = none) ↔
      (q.removed = true → req.pc.pending = none) ∧
        ∀ req' ∈ s.requests.eraseIdx j, s.removed req'.queue = true → req'.pc.pending = none := by
    simp only [(requests_perm hreq).mem_iff, List.mem_cons, forall_eq_or_imp, hremoved]
  rw [Settled, Settled, hlate, hafter, hbefore, hgood]
  constructor
  · rintro ⟨⟨hnone, hpending⟩, hmove, hothers⟩
    exact ⟨⟨hnone, hpending, hothers⟩, hmove⟩
  · rintro ⟨⟨hnone, hpending, hothers⟩, hmove⟩
    exact ⟨⟨hnone, hpending⟩, hmove, hothers⟩

/-- A removal sets the flag of one `ProcessQueue`. -/
theorem removed_remove {i : Nat} {q : OwnedQueue} (hq : s.queues[i]? = some q)
    (store : RemoteBrokerOffsetStore) (k : Nat) :
    removed { s with queues := s.queues.set i { q with removed := true }, store } k = true ↔
      s.removed k = true ∨ k = i := by
  by_cases hk : i = k
  · subst hk
    rw [removed, List.getElem?_set_self (List.getElem?_eq_some_iff.mp hq).1]
    exact iff_of_true rfl (.inr rfl)
  · rw [removed, List.getElem?_set_ne hk, removed]
    exact (or_iff_left fun h ↦ hk h.symm).symm

/-- A step leaves everything settled exactly when it was and the step waits for what is pending. -/
theorem settled_step (h : s.Kept mq) (hstep : s.step mq e = some t) :
    t.Settled ↔ s.Settled ∧ s.SettledFirst e := by
  cases stepped_of_step hstep with
  | acquire brokerOffset _ =>
    refine settled_of_same rfl rfl (fun k ↦ ?_) trivial
    rw [removed, removed, List.getElem?_append]
    split_ifs with hk
    · rfl
    · rw [List.getElem?_eq_none (by omega : s.queues.length ≤ k)]
      cases k - s.queues.length <;> rfl
  | revalue _ _ hgood => exact settled_of_same rfl rfl (fun k ↦ removed_setQueue _ k _) hgood
  | remove hq _ _ =>
    rw [Settled, Settled, SettledFirst, and_assoc]
    apply and_congr_right
    intro _
    simp only [removed_remove hq, or_imp, forall_and]
  | submit hpending _ hgood => exact (settled_submit hpending).trans (and_iff_left hgood).symm
  | clock now => exact settled_of_same rfl rfl (fun _ ↦ rfl) trivial
  | run hreq hq hr => exact settled_run h hreq hq hr

end Step

/-! ### Whole runs -/

section Run

variable {mq : MessageQueue} {store : RemoteBrokerOffsetStore} {now : Nat} {s t : DropState}
  {es : List DropEvent}

theorem kept_start (hentry : store.offsetTable[mq]? = none) : (start store now).Kept mq :=
  ⟨fun _ hq ↦ absurd hq List.not_mem_nil, fun _ hreq ↦ absurd hreq List.not_mem_nil,
    fun _ _ ↦ hentry⟩

theorem kept_of_run (hentry : store.offsetTable[mq]? = none)
    (hrun : Base.runFrom (step mq) (start store now) es = some s) : s.Kept mq :=
  Base.inv_of_runFrom (fun _ _ _ h hstep ↦ kept_step h hstep) (kept_start hentry) hrun

theorem settled_iff (hentry : store.offsetTable[mq]? = none)
    (hrun : Base.runFrom (step mq) (start store now) es = some s) :
    s.Settled ↔ Base.Along (step mq) SettledFirst (start store now) es := by
  rw [Base.recorded_iff_along (fun _ _ _ h hstep ↦ kept_step h hstep)
    (fun _ _ _ h hstep ↦ settled_step h hstep) (kept_start hentry) hrun]
  exact and_iff_right ⟨rfl, fun req hreq ↦ absurd hreq List.not_mem_nil⟩

/-- A run that settles a `ProcessQueue` before it is removed writes nothing late, and every other
run does, once all its requests have written what they computed. -/
theorem untouched_iff_settledFirst (hentry : store.offsetTable[mq]? = none)
    (hrun : Base.runFrom (step mq) (start store now) es = some s) :
    (Base.Along (step mq) SettledFirst (start store now) es →
      ∀ t, Base.Visits (step mq) (start store now) es t → t.Untouched mq) ∧
    ((∀ req ∈ s.requests, req.pc.pending = none) →
      (∀ t, Base.Visits (step mq) (start store now) es t → t.Untouched mq) →
      Base.Along (step mq) SettledFirst (start store now) es) := by
  constructor
  · rintro hgood t ⟨pre, hprefix, hpre⟩
    have hsettled := (settled_iff hentry hpre).mpr (Base.along_initial hprefix hgood)
    exact ⟨hsettled.1, (kept_of_run hentry hpre).entry hsettled.1⟩
  · intro hfinished hall
    have hlast := hall s ⟨es, List.prefix_refl es, hrun⟩
    exact (settled_iff hentry hrun).mp ⟨hlast.1, fun req hreq _ ↦ hfinished req hreq⟩

/-- The queue is lost when its only batch has been consumed and its offset stored; another request
comes to the test after that. -/
def storedThenLost : List DropEvent :=
  [.acquire none, .putMessage 0 [.at 5], .submitConcurrently 0 [.at 5], .submitConcurrently 0 [],
    .run 0 .go, .run 0 (.consumed .consumeSuccess 0 .clustering fun _ ↦ true), .run 0 .go,
    .setDropped 0, .removeUnnecessaryMessageQueue 0, .run 0 .go]

theorem storedThenLost_untouched :
    (Base.runFrom (step ⟨str "t", str "b", 0⟩) (start ⟨str "g", ∅⟩ 0) storedThenLost).isSome ∧
      ∀ t, Base.Visits (step ⟨str "t", str "b", 0⟩) (start ⟨str "g", ∅⟩ 0) storedThenLost t →
        t.Untouched ⟨str "t", str "b", 0⟩ := by
  have hrun : (Base.runFrom (step ⟨str "t", str "b", 0⟩) (start ⟨str "g", ∅⟩ 0)
      storedThenLost).isSome := by
    decide +kernel
  obtain ⟨s, hs⟩ := Option.isSome_iff_exists.mp hrun
  exact ⟨hrun, (untouched_iff_settledFirst (by decide +kernel) hs).1 (by decide +kernel)⟩

/-- The queue is lost while the listener has its only batch. -/
def lostThenStored : List DropEvent :=
  [.acquire none, .putMessage 0 [.at 5], .submitConcurrently 0 [.at 5], .run 0 .go, .setDropped 0,
    .removeUnnecessaryMessageQueue 0,
    .run 0 (.consumed .consumeSuccess 0 .clustering fun _ ↦ true), .run 0 .go]

/-- The client keeps an entry for a queue it does not own. -/
theorem lostThenStored_touched :
    ∃ s, Base.runFrom (step ⟨str "t", str "b", 0⟩) (start ⟨str "g", ∅⟩ 0) lostThenStored = some s ∧
      (∀ q ∈ s.queues, q.removed = true) ∧ s.lateUpdates = [6] ∧
      s.store.offsetTable[(⟨str "t", str "b", 0⟩ : MessageQueue)]? = some 6 ∧
      ¬ s.Untouched ⟨str "t", str "b", 0⟩ := by
  have hlate : ∃ s, Base.runFrom (step ⟨str "t", str "b", 0⟩) (start ⟨str "g", ∅⟩ 0)
        lostThenStored = some s ∧ (∀ q ∈ s.queues, q.removed = true) ∧ s.lateUpdates = [6] ∧
      s.store.offsetTable[(⟨str "t", str "b", 0⟩ : MessageQueue)]? = some 6 :=
    ⟨_, rfl, by decide +kernel, by decide +kernel, by decide +kernel⟩
  obtain ⟨s, hs, hall, hlateUpdates, hentry⟩ := hlate
  refine ⟨s, hs, hall, hlateUpdates, hentry, fun h ↦ ?_⟩
  rw [h.2 hall] at hentry
  cases hentry

end Run
end DropState
end RocketMQ
