import RocketMQ.Base.MaxRegister
import RocketMQ.Base.Run
import RocketMQ.Consumer.OffsetStore
import RocketMQ.Consumer.ProcessQueue

/-!
# Commit position of concurrent consumption

`src/consumer/ConsumeMessageConcurrentlyService.cpp`: the batches of a queue are consumed
by a thread pool and finish in any order. A finish removes the batch and computes an offset
to commit; the update of the offset table is a later step. The offsets on their way to the
table and the table's entry are a `MaxRegister`, and the proof is that its bounds only grow.
-/

namespace RocketMQ

/-- `ConsumeConcurrentlyStatus`, `include/MessageListener.h`. -/
inductive ConsumeConcurrentlyStatus where
  | consumeSuccess
  | reconsumeLater

/-- `MessageModel`. -/
inductive MessageModel where
  | broadcasting
  | clustering

namespace ConsumeMessageConcurrentlyService

/-- `src/consumer/ConsumeMessageConcurrentlyService.cpp:156–189`, without the statistics. -/
def settledAckIndex (status : ConsumeConcurrentlyStatus) (ackIndex msgsSize : Int) : Int :=
  match status with
  | .consumeSuccess => if ackIndex ≥ msgsSize then msgsSize - 1 else ackIndex
  | .reconsumeLater => -1

/-- The messages that failed and could not be sent back to the broker either,
`src/consumer/ConsumeMessageConcurrentlyService.cpp:191–226`. -/
def msgBackFailed (ackIndex : Int) (messageModel : MessageModel)
    (sendMessageBack : MessageExt → Bool) (msgs : List MessageExt) : List MessageExt :=
  match messageModel with
  | .broadcasting => []
  | .clustering => (msgs.drop (ackIndex + 1).toNat).filter fun msg ↦ !sendMessageBack msg

/-- `src/consumer/ConsumeMessageConcurrentlyService.cpp:228–250`: the request's own list
loses the messages that failed, compared by pointer. -/
def eraseFailed (msgs failed : List MessageExt) : List MessageExt :=
  msgs.filter fun msg ↦ !failed.any (·.address == msg.address)

/-- `src/consumer/ConsumeMessageConcurrentlyService.cpp:152–270`: the buffer, the offset to
commit (none unless it is at least zero) and the messages submitted again later. -/
def processConsumeResult (pq : ProcessQueue) (status : ConsumeConcurrentlyStatus)
    (ackIndex : Int) (messageModel : MessageModel) (sendMessageBack : MessageExt → Bool)
    (msgs : List MessageExt) : ProcessQueue × Option Int × List MessageExt :=
  if msgs.isEmpty then (pq, none, [])
  else
    let failed := msgBackFailed (settledAckIndex status ackIndex msgs.length) messageModel
      sendMessageBack msgs
    let (pq', offset) := pq.removeMessage (eraseFailed msgs failed)
    (pq', if offset ≥ 0 then some offset else none, failed)

end ConsumeMessageConcurrentlyService

/-- A step of the consumption of one queue. -/
inductive ConsumeEvent where
  | putMessage (msgs : List MessageExt)
  | processConsumeResult (status : ConsumeConcurrentlyStatus) (ackIndex : Int)
      (messageModel : MessageModel) (sendMessageBack : MessageExt → Bool)
      (msgs : List MessageExt)
  | updateOffset (offset : Int)

/-- The buffer, the offset store, the computed offsets that are not in the store yet, all
offsets put so far and what the store held at the start. -/
structure ConcurrentState where
  pq : ProcessQueue
  store : RemoteBrokerOffsetStore
  updates : List Int
  put : List Int
  initial : Option Int

namespace ConcurrentState

/-- A queue created at time `now`, with whatever the offset store holds. -/
def start (mq : MessageQueue) (now : Nat) (store : RemoteBrokerOffsetStore) : ConcurrentState :=
  ⟨.new now, store, [], [], store.offsetTable[mq]?⟩

/-- One step. A put appends higher offsets than ever put, none below the initial offset; a
batch that finishes consists of different messages that are still buffered. -/
def step (mq : MessageQueue) (s : ConcurrentState) : ConsumeEvent → Option ConcurrentState
  | .putMessage msgs =>
    if (offsets msgs).Pairwise (· < ·) ∧
        ∀ o ∈ offsets msgs, (∀ p ∈ s.put, p < o) ∧ ∀ v ∈ s.initial, v ≤ o then
      some { s with pq := (s.pq.putMessage msgs).1, put := s.put ++ offsets msgs }
    else none
  | .processConsumeResult status ackIndex messageModel sendMessageBack msgs =>
    if (offsets msgs).Nodup ∧ ∀ o ∈ offsets msgs, o ∈ s.pq.waiting then
      let (pq, offset, _) := ConsumeMessageConcurrentlyService.processConsumeResult s.pq status
        ackIndex messageModel sendMessageBack msgs
      some { s with pq, updates := offset.toList ++ s.updates }
    else none
  | .updateOffset offset =>
    if offset ∈ s.updates then
      some { s with
        store := s.store.updateOffset mq offset true
        updates := s.updates.erase offset }
    else none

/-- `m` is the highest offset put so far. -/
def MaxPut (s : ConcurrentState) (m : Int) : Prop := m ∈ s.put ∧ ∀ o ∈ s.put, o ≤ m

/-- The entry of the queue in the offset table, and the offsets on their way to it. -/
def register (mq : MessageQueue) (s : ConcurrentState) : Base.MaxRegister Int :=
  ⟨s.store.offsetTable[mq]?, s.updates⟩

/-- The bounds that hold between the buffer and the offsets computed from it. -/
structure Bounded (mq : MessageQueue) (s : ConcurrentState) : Prop where
  waiting_put : ∀ o ∈ s.pq.waiting, o ∈ s.put
  put_sorted : s.put.Pairwise (· < ·)
  queueOffsetMax : ∀ m, s.put.getLast? = some m → s.pq.queueOffsetMax = m
  nothing_put : s.put = [] → s.register mq = ⟨s.initial, []⟩
  below_waiting : ∀ o ∈ s.pq.waiting, (s.register mq).Below o
  below_max : ∀ m, s.put.getLast? = some m → (s.register mq).Below (m + 1)
  reaches : s.pq.waiting = [] → ∀ m, s.put.getLast? = some m → 0 ≤ m + 1 →
    (s.register mq).Reaches (m + 1)

/-- Nothing is buffered or computed at the start. -/
theorem bounded_start (mq : MessageQueue) (now : Nat) (store : RemoteBrokerOffsetStore) :
    (start mq now store).Bounded mq := by
  constructor <;> simp [start, register, ProcessQueue.waiting, ProcessQueue.new]

/-- In an ascending list no offset is above the last one. -/
private theorem le_getLast {os : List Int} {m : Int} (hs : os.Pairwise (· < ·))
    (hm : os.getLast? = some m) : ∀ o ∈ os, o ≤ m := by
  obtain ⟨init, rfl⟩ := List.getLast?_eq_some_iff.mp hm
  intro o ho
  rcases List.mem_append.mp ho with hi | hl
  · have := (List.pairwise_append.mp hs).2.2 o hi m (List.mem_singleton_self m)
    omega
  · rw [List.mem_singleton.mp hl]

/-- The highest offset of an ascending list is its last one. -/
theorem maxPut_iff {s : ConcurrentState} (hs : s.put.Pairwise (· < ·)) {m : Int} :
    s.MaxPut m ↔ s.put.getLast? = some m := by
  constructor
  · rintro ⟨hm, hmax⟩
    obtain ⟨last, hlast⟩ := Option.ne_none_iff_exists'.mp
      (mt List.getLast?_eq_none_iff.mp (List.ne_nil_of_mem hm))
    have h₁ := hmax last (List.mem_of_getLast? hlast)
    have h₂ := le_getLast hs hlast m hm
    rw [hlast, le_antisymm h₁ h₂]
  · exact fun h ↦ ⟨List.mem_of_getLast? h, le_getLast hs h⟩

/-- A fold that keeps the last offset keeps the last offset. -/
private theorem foldl_queueOffset (msgs : List MessageExt) (init : Int) :
    msgs.foldl (fun _ msg ↦ msg.queueOffset) init = ((offsets msgs).getLast?).getD init := by
  induction msgs generalizing init with
  | nil => rfl
  | cons msg rest ih =>
    rw [List.foldl_cons, ih, offsets_cons]
    cases h : offsets rest with
    | nil => rfl
    | cons o os => simp [List.getLast?_cons]

/-- An offset that may be put next is above everything computed so far. -/
theorem Bounded.below_fresh {mq : MessageQueue} {s : ConcurrentState} (h : s.Bounded mq)
    {o : Int} (habove : ∀ p ∈ s.put, p < o) (hinit : ∀ v ∈ s.initial, v ≤ o) :
    (s.register mq).Below o := by
  cases hlast : s.put.getLast? with
  | none =>
    rw [h.nothing_put (List.getLast?_eq_none_iff.mp hlast)]
    exact ⟨hinit, by simp⟩
  | some m =>
    have := habove m (List.mem_of_getLast? hlast)
    exact (h.below_max m hlast).mono (by omega)

/-- A put of higher offsets keeps the bounds. -/
theorem bounded_put {mq : MessageQueue} {s : ConcurrentState} {msgs : List MessageExt}
    (h : s.Bounded mq) (hs : (offsets msgs).Pairwise (· < ·))
    (hfresh : ∀ o ∈ offsets msgs, (∀ p ∈ s.put, p < o) ∧ ∀ v ∈ s.initial, v ≤ o) :
    ({ s with pq := (s.pq.putMessage msgs).1, put := s.put ++ offsets msgs } :
      ConcurrentState).Bounded mq := by
  have hlast (m : Int) (hm : (s.put ++ offsets msgs).getLast? = some m) :
      (offsets msgs).getLast? = some m ∨ offsets msgs = [] ∧ s.put.getLast? = some m := by
    rw [List.getLast?_append] at hm
    cases ho : (offsets msgs).getLast? with
    | none =>
      rw [ho, Option.none_or] at hm
      exact Or.inr ⟨List.getLast?_eq_none_iff.mp ho, hm⟩
    | some o =>
      rw [ho, Option.some_or] at hm
      exact Or.inl hm
  constructor
  · intro o ho
    rcases (ProcessQueue.mem_waiting_putMessage _ _).mp ho with hm | hw
    · exact List.mem_append_right _ hm
    · exact List.mem_append_left _ (h.waiting_put o hw)
  · exact List.pairwise_append.mpr
      ⟨h.put_sorted, hs, fun p hp o ho ↦ (hfresh o ho).1 p hp⟩
  · intro m hm
    simp only [ProcessQueue.queueOffsetMax_putMessage, foldl_queueOffset]
    rcases hlast m hm with ho | ⟨hnil, hp⟩
    · rw [ho]
      rfl
    · rw [hnil]
      exact h.queueOffsetMax m hp
  · intro hnil
    exact h.nothing_put (List.append_eq_nil_iff.mp hnil).1
  · intro o ho
    rcases (ProcessQueue.mem_waiting_putMessage _ _).mp ho with hm | hw
    · exact h.below_fresh (hfresh o hm).1 (hfresh o hm).2
    · exact h.below_waiting o hw
  · intro m hm
    rcases hlast m hm with ho | ⟨_, hp⟩
    · have hf := hfresh m (List.mem_of_getLast? ho)
      exact (h.below_fresh hf.1 hf.2).mono (by omega)
    · exact h.below_max m hp
  · intro hw m hm
    have hnone (o : Int) (ho : o ∈ offsets msgs ∨ o ∈ s.pq.waiting) : False := by
      have := (ProcessQueue.mem_waiting_putMessage s.pq msgs).mpr ho
      rw [hw] at this
      exact List.not_mem_nil this
    rcases hlast m hm with ho | ⟨_, hp⟩
    · exact (hnone m (Or.inl (List.mem_of_getLast? ho))).elim
    · refine h.reaches (List.eq_nil_iff_forall_not_mem.mpr fun o ho ↦ hnone o (Or.inr ho)) m hp

/-- A finish that computes an offset within the bounds keeps them. -/
theorem bounded_announce {mq : MessageQueue} {s : ConcurrentState} {pq : ProcessQueue} {v : Int}
    (h : s.Bounded mq) (hsub : ∀ o ∈ pq.waiting, o ∈ s.pq.waiting)
    (hqueue : pq.queueOffsetMax = s.pq.queueOffsetMax) (hput : s.put ≠ [])
    (hlow : ∀ o ∈ pq.waiting, v ≤ o) (hhigh : ∀ m, s.put.getLast? = some m → v ≤ m + 1)
    (hlast : pq.waiting = [] → ∀ m, s.put.getLast? = some m → v = m + 1) :
    ({ s with pq, updates := (if v ≥ 0 then some v else none).toList ++ s.updates } :
      ConcurrentState).Bounded mq := by
  have hbelow {b : Int} (hb : (s.register mq).Below b) (hv : v ≤ b) :
      Base.MaxRegister.Below ⟨s.store.offsetTable[mq]?,
        (if v ≥ 0 then some v else none).toList ++ s.updates⟩ b := by
    split
    · exact hb.announce hv
    · exact hb
  constructor
  · exact fun o ho ↦ h.waiting_put o (hsub o ho)
  · exact h.put_sorted
  · exact fun m hm ↦ hqueue.trans (h.queueOffsetMax m hm)
  · exact fun hnil ↦ absurd hnil hput
  · exact fun o ho ↦ hbelow (h.below_waiting o (hsub o ho)) (hlow o ho)
  · exact fun m hm ↦ hbelow (h.below_max m hm) (hhigh m hm)
  · intro hw m hm hpos
    have hv := hlast hw m hm
    refine Or.inl (List.mem_append_left _ ?_)
    rw [hv, if_pos hpos]
    exact List.mem_singleton_self _

/-- A finish of any messages keeps the bounds. -/
theorem bounded_remove {mq : MessageQueue} {s : ConcurrentState} (msgs : List MessageExt)
    (h : s.Bounded mq) :
    ({ s with
        pq := (s.pq.removeMessage msgs).1
        updates := (if (s.pq.removeMessage msgs).2 ≥ 0 then some (s.pq.removeMessage msgs).2
          else none).toList ++ s.updates } : ConcurrentState).Bounded mq := by
  have hsub (o : Int) (ho : o ∈ (s.pq.removeMessage msgs).1.waiting) : o ∈ s.pq.waiting :=
    ((s.pq.mem_waiting_removeMessage msgs).mp ho).2
  have hqueue := s.pq.queueOffsetMax_removeMessage msgs
  have hv := s.pq.removeMessage_snd msgs
  cases hw : (s.pq.removeMessage msgs).1.waiting with
  | cons first rest =>
    rw [hw, List.head?_cons] at hv
    change (s.pq.removeMessage msgs).2 = first at hv
    have hmem : first ∈ s.pq.waiting := hsub first (by rw [hw]; exact List.mem_cons_self)
    have hs := (s.pq.removeMessage msgs).1.waiting_sorted
    rw [hw, List.pairwise_cons] at hs
    apply bounded_announce h hsub hqueue (List.ne_nil_of_mem (h.waiting_put first hmem))
    · intro o ho
      rw [hw] at ho
      rcases List.mem_cons.mp ho with rfl | hr
      · exact hv.le
      · exact hv.le.trans (hs.1 o hr).le
    · intro m hm
      have := le_getLast h.put_sorted hm first (h.waiting_put first hmem)
      omega
    · intro hnil
      rw [hw] at hnil
      exact absurd hnil (List.cons_ne_nil _ _)
  | nil =>
    rw [hw, List.head?_nil] at hv
    by_cases hempty : s.pq.waiting = []
    · -- the map was empty before, so nothing is computed
      simp only [hempty, if_true] at hv
      rw [hv]
      constructor
      · exact fun o ho ↦ h.waiting_put o (hsub o ho)
      · exact h.put_sorted
      · exact fun m hm ↦ hqueue.trans (h.queueOffsetMax m hm)
      · exact h.nothing_put
      · exact fun o ho ↦ h.below_waiting o (hsub o ho)
      · exact h.below_max
      · exact fun _ ↦ h.reaches hempty
    · -- the last buffered message is gone, so the offset is one above the highest put one
      simp only [hempty, if_false] at hv
      obtain ⟨o, ho⟩ := List.exists_mem_of_ne_nil _ hempty
      apply bounded_announce h hsub hqueue (List.ne_nil_of_mem (h.waiting_put o ho))
      · intro p hp
        rw [hw] at hp
        exact absurd hp List.not_mem_nil
      · intro m hm
        rw [hv, h.queueOffsetMax m hm]
      · intro _ m hm
        rw [hv, h.queueOffsetMax m hm]

/-- A delivered update is a delivery to the register. -/
theorem register_updateOffset (mq : MessageQueue) (s : ConcurrentState) (v : Int) :
    ({ s with store := s.store.updateOffset mq v true, updates := s.updates.erase v } :
      ConcurrentState).register mq = (s.register mq).deliver v := by
  simp only [register, Base.MaxRegister.deliver,
    RemoteBrokerOffsetStore.getElem?_updateOffset, if_true]
  cases s.store.offsetTable[mq]? <;> rfl

/-- Every step keeps the bounds. -/
theorem bounded_step (mq : MessageQueue) (s : ConcurrentState) (e : ConsumeEvent)
    (t : ConcurrentState) (h : s.Bounded mq) (hstep : s.step mq e = some t) :
    t.Bounded mq := by
  cases e with
  | putMessage msgs =>
    simp only [step, Option.ite_none_right_eq_some, Option.some.injEq] at hstep
    obtain ⟨⟨hs, hfresh⟩, rfl⟩ := hstep
    exact bounded_put h hs hfresh
  | processConsumeResult status ackIndex messageModel sendMessageBack msgs =>
    simp only [step, Option.ite_none_right_eq_some, Option.some.injEq] at hstep
    obtain ⟨-, rfl⟩ := hstep
    unfold ConsumeMessageConcurrentlyService.processConsumeResult
    split
    · exact h
    · exact bounded_remove _ h
  | updateOffset v =>
    simp only [step, Option.ite_none_right_eq_some, Option.some.injEq] at hstep
    obtain ⟨hv, rfl⟩ := hstep
    have hv' : v ∈ (s.register mq).pending := hv
    constructor
    · exact h.waiting_put
    · exact h.put_sorted
    · exact h.queueOffsetMax
    · intro hnil
      rw [h.nothing_put hnil] at hv'
      exact absurd hv' List.not_mem_nil
    · intro o ho
      rw [register_updateOffset]
      exact (h.below_waiting o ho).deliver hv'
    · intro m hm
      rw [register_updateOffset]
      exact (h.below_max m hm).deliver hv'
    · intro hw m hm hpos
      rw [register_updateOffset]
      exact (h.reaches hw m hm hpos).deliver (h.below_max m hm) hv'

/-- In every reachable state the stored offset is at most the lowest buffered offset and at
most one above the highest put one; and it is the latter once nothing is buffered and no
update is on its way, provided the caller's check `offset >= 0` lets it pass. -/
theorem stored_offset_safe (mq : MessageQueue) (now : Nat) (store : RemoteBrokerOffsetStore)
    (es : List ConsumeEvent) (s : ConcurrentState)
    (hrun : Base.runFrom (step mq) (start mq now store) es = some s) :
    (∀ v, s.store.offsetTable[mq]? = some v →
      (∀ o ∈ s.pq.waiting, v ≤ o) ∧ ∀ m, s.MaxPut m → v ≤ m + 1) ∧
    (s.pq.waiting = [] → s.updates = [] → ∀ m, s.MaxPut m → 0 ≤ m + 1 →
      s.store.offsetTable[mq]? = some (m + 1)) := by
  have h : s.Bounded mq := Base.inv_of_runFrom (bounded_step mq) (bounded_start mq now store) hrun
  refine ⟨fun v hv ↦ ⟨fun o ho ↦ ?_, fun m hm ↦ ?_⟩, fun hw hu m hm hpos ↦ ?_⟩
  · exact (h.below_waiting o ho).value v hv
  · exact (h.below_max m ((maxPut_iff h.put_sorted).mp hm)).value v hv
  · exact (h.reaches hw m ((maxPut_iff h.put_sorted).mp hm) hpos).value_eq hu

/-- Three messages finish in two batches, the later one first, and the two updates are
applied the other way round. -/
theorem stored_offset_safe_out_of_order :
    let mq : MessageQueue := ⟨str "t", str "b", 0⟩
    ∃ s, Base.runFrom (step mq) (start mq 0 ⟨str "g", ∅⟩)
        [.putMessage [.at 5, .at 6, .at 7],
         .processConsumeResult .consumeSuccess 9 .clustering (fun _ ↦ true) [.at 6, .at 7],
         .processConsumeResult .reconsumeLater 0 .clustering (fun _ ↦ true) [.at 5],
         .updateOffset 8, .updateOffset 5] = some s ∧
      s.store.offsetTable[mq]? = some 8 := by
  intro mq
  refine ⟨_, rfl, (stored_offset_safe mq 0 ⟨str "g", ∅⟩
    [.putMessage [.at 5, .at 6, .at 7],
     .processConsumeResult .consumeSuccess 9 .clustering (fun _ ↦ true) [.at 6, .at 7],
     .processConsumeResult .reconsumeLater 0 .clustering (fun _ ↦ true) [.at 5],
     .updateOffset 8, .updateOffset 5] _ rfl).2 ?_ ?_ 7 ⟨?_, ?_⟩ (by decide)⟩
  · decide
  · decide
  · decide
  · decide

end ConcurrentState
end RocketMQ
