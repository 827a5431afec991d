import Mathlib.Data.List.Perm.Subperm
import RocketMQ.Consumer.OrderlyAutoCommit

/-!
# The counter of a queue and its two maps

`m_msgCount` is changed beside `m_msgTreeMap` and `m_msgTreeMapTemp`, not computed from them.
Every operation of consumption takes at least as much off the maps as off the counter, as long
as the orderly service gives back only what is taken; the object lock of the queue sees to that.
-/

namespace RocketMQ

namespace ProcessQueue

/-- The number of messages in `m_msgTreeMap` and `m_msgTreeMapTemp` together. -/
def stored (pq : ProcessQueue) : Nat := pq.msgTreeMap.size + pq.msgTreeMapTemp.size

/-- From `pq` to `pq'` the counter does not rise, and not less is taken off the maps than off
the counter. -/
def Drains (pq pq' : ProcessQueue) : Prop :=
  (pq'.stored : Int) - pq'.msgCount ≤ pq.stored - pq.msgCount ∧ pq'.msgCount ≤ pq.msgCount

/-- What keeps the counter drains if it does not add to the maps. -/
theorem drains_of_le {pq pq' : ProcessQueue} (hcount : pq'.msgCount = pq.msgCount)
    (hstored : pq'.stored ≤ pq.stored) : Drains pq pq' := by
  rw [Drains, hcount]
  omega

variable (pq : ProcessQueue) (msgs : List MessageExt)

/-- The messages in the maps are the buffered and the taken ones. -/
theorem stored_eq : pq.stored = pq.waiting.length + pq.taken.length := by
  rw [stored, length_taken, waiting, Base.KeyedMap.length_keys]

private theorem length_le_of_mem {os ps : List Int} (hn : os.Nodup) (h : ∀ o ∈ os, o ∈ ps) :
    os.length ≤ ps.length :=
  (hn.subperm h).length_le

/-- A put adds at most its messages. -/
theorem stored_putMessage_le : (pq.putMessage msgs).1.stored ≤ pq.stored + msgs.length := by
  have hlen : (pq.putMessage msgs).1.waiting.length ≤ (offsets msgs ++ pq.waiting).length := by
    apply length_le_of_mem (nodup_waiting _)
    intro o ho
    rw [List.mem_append]
    exact (pq.mem_waiting_putMessage msgs).mp ho
  rw [List.length_append, length_offsets] at hlen
  rw [stored_eq, stored_eq, taken_putMessage]
  omega

/-- A take moves messages from one map to the other. -/
theorem drains_takeLocked (batchSize : Int) : Drains pq (pq.takeLocked batchSize).1 := by
  have hlen : (pq.takeLocked batchSize).1.taken.length ≤
      (pq.taken ++ pq.waiting.take batchSize.toNat).length := by
    apply length_le_of_mem (nodup_taken _)
    intro o ho
    rw [List.mem_append]
    exact (pq.mem_taken_takeLocked batchSize).mp ho
  rw [List.length_append, List.length_take] at hlen
  apply drains_of_le (pq.msgCount_takeLocked batchSize)
  rw [stored_eq, stored_eq, waiting_takeLocked, List.length_drop]
  omega

/-- A rollback drops the buffered messages. -/
theorem drains_rollback : Drains pq pq.rollback := by
  have hstored : pq.rollback.stored ≤ pq.stored := by
    rw [stored_eq, stored_eq, waiting_rollback, taken_rollback, List.length_nil]
    omega
  exact drains_of_le rfl hstored

/-- A commit takes the taken messages off their map and off the counter. -/
theorem drains_commit : Drains pq pq.commit.1 := by
  rw [Drains, stored_eq, stored_eq, waiting_commit, taken_commit, msgCount_commit, List.length_nil]
  omega

/-- Giving taken messages back moves them from one map to the other. -/
theorem drains_again (hn : (offsets msgs).Nodup) (ht : ∀ o ∈ offsets msgs, o ∈ pq.taken) :
    Drains pq (pq.makeMessageToCosumeAgain msgs) := by
  have hwaiting : (pq.makeMessageToCosumeAgain msgs).waiting.length ≤
      (offsets msgs ++ pq.waiting).length := by
    apply length_le_of_mem (nodup_waiting _)
    intro o ho
    rw [List.mem_append]
    exact (pq.mem_waiting_again msgs).mp ho
  have htaken : (offsets msgs ++ (pq.makeMessageToCosumeAgain msgs).taken).length ≤
      pq.taken.length := by
    apply length_le_of_mem
    · refine List.nodup_append.mpr ⟨hn, nodup_taken _, ?_⟩
      rintro o ho _ hp rfl
      exact ((pq.mem_taken_again msgs).mp hp).1 ho
    · intro o ho
      rcases List.mem_append.mp ho with hm | hk
      · exact ht o hm
      · exact ((pq.mem_taken_again msgs).mp hk).2
  rw [List.length_append, length_offsets] at hwaiting htaken
  have hstored : (pq.makeMessageToCosumeAgain msgs).stored ≤ pq.stored := by
    rw [stored_eq, stored_eq]
    omega
  exact drains_of_le rfl hstored

/-- Removing different buffered messages takes each off its map and off the counter. -/
theorem drains_removeMessage (hn : (offsets msgs).Nodup)
    (hw : ∀ o ∈ offsets msgs, o ∈ pq.waiting) : Drains pq (pq.removeMessage msgs).1 := by
  have hlen : (offsets msgs ++ (pq.removeMessage msgs).1.waiting).length ≤ pq.waiting.length := by
    apply length_le_of_mem
    · refine List.nodup_append.mpr ⟨hn, nodup_waiting _, ?_⟩
      rintro o ho _ hp rfl
      exact ((pq.mem_waiting_removeMessage msgs).mp hp).1 ho
    · intro o ho
      rcases List.mem_append.mp ho with hm | hk
      · exact hw o hm
      · exact ((pq.mem_waiting_removeMessage msgs).mp hk).2
  have hcount : (pq.removeMessage msgs).1.msgCount = pq.msgCount - msgs.length := by
    rw [removeMessage_fst]
    split
    · next he =>
      -- nothing is buffered, so nothing is removed
      rw [List.isEmpty_iff.mp he, List.length_append, length_offsets, List.length_nil] at hlen
      omega
    · rfl
  rw [List.length_append, length_offsets] at hlen
  rw [Drains, stored_eq, stored_eq, taken_removeMessage, hcount]
  omega

end ProcessQueue

/-! ### The orderly service -/

namespace OrderlyQueue

variable {mq : MessageQueue} {q q' : OrderlyQueue}

/-- The messages that the request has with the listener are different and taken. -/
def HandTaken (pq : ProcessQueue) (pc : OrderlyPc) : Prop :=
  pc.hand.Nodup ∧ ∀ o ∈ pc.hand, o ∈ pq.taken

/-- A request that has no messages with the listener. -/
theorem handTaken_of_nil {pq : ProcessQueue} {pc : OrderlyPc} (h : pc.hand = []) :
    HandTaken pq pc := by
  rw [HandTaken, h]
  simp

private theorem drains_processConsumeResult {pq : ProcessQueue} {msgs : List MessageExt}
    (hn : (offsets msgs).Nodup) (ht : ∀ o ∈ offsets msgs, o ∈ pq.taken)
    (status : ConsumeOrderlyStatus) (autoCommit : Bool) :
    pq.Drains
      (ConsumeMessageOrderlyService.processConsumeResult pq msgs status autoCommit).1 := by
  cases autoCommit with
  | true => cases status with
    | success | commit | rollback => exact pq.drains_commit
    | suspendCurrentQueueAMoment => exact pq.drains_again msgs hn ht
  | false => cases status with
    | success => exact ProcessQueue.drains_of_le rfl le_rfl
    | commit => exact pq.drains_commit
    | rollback => exact pq.drains_rollback
    | suspendCurrentQueueAMoment => exact pq.drains_again msgs hn ht

/-- A step of a request drains, and what it hands to the listener is taken. -/
theorem drains_doStep {pc : OrderlyPc} {input : OrderlyInput} {next : OrderlyNext}
    (hhand : HandTaken q.pq pc) (hstep : q.doStep mq pc input = some (q', next)) :
    q.pq.Drains q'.pq ∧ ∀ pc' ∈ next.pc, HandTaken q'.pq pc' := by
  have hsame {pq : ProcessQueue} : pq.Drains pq := ProcessQueue.drains_of_le rfl le_rfl
  cases doStepped_of_doStep hstep with
  | test hpc hnext => exact ⟨hsame, fun pc' hpc' ↦ handTaken_of_nil (hnext pc' hpc').hand⟩
  | take beginTime consumeBatchSize =>
    -- what is taken is with the listener, unless it is nothing
    refine ⟨q.pq.drains_takeLocked consumeBatchSize, ?_⟩
    intro pc' hpc'
    obtain rfl := Option.some.inj hpc'
    split
    · exact handTaken_of_nil rfl
    · rw [HandTaken, OrderlyPc.hand, q.pq.offsets_takeLocked]
      refine ⟨q.pq.nodup_waiting.sublist (List.take_sublist _ _), fun o ho ↦ ?_⟩
      exact (q.pq.mem_taken_takeLocked consumeBatchSize).mpr (Or.inr ho)
  | answer beginTime msgs answer =>
    refine ⟨drains_processConsumeResult hhand.1 hhand.2 _ answer.autoCommit, fun pc' hpc' ↦ ?_⟩
    obtain ⟨pc, hgoOn, hpc⟩ := q.answered_next beginTime msgs answer
    rw [hgoOn] at hpc'
    obtain rfl := Option.some.inj hpc'
    apply handTaken_of_nil
    rcases hpc with rfl | ⟨commitOffset, rfl⟩ | rfl <;> rfl
  | clearConsuming => exact ⟨hsame, fun pc' hpc' ↦ by cases hpc'⟩
  | updateOffset beginTime commitOffset =>
    refine ⟨hsame, fun pc' hpc' ↦ ?_⟩
    obtain rfl := Option.some.inj hpc'
    exact handTaken_of_nil rfl
  | suspend => exact ⟨hsame, fun pc' hpc' ↦ by cases hpc'⟩

end OrderlyQueue

namespace OrderlyState

open OrderlyQueue

variable {mq : MessageQueue} {s t : OrderlyState} {holder : Option Nat} {i : Nat} {pc : OrderlyPc}

/-- The object lock is with the request at this position, if with any, and every other request
still waits for it. -/
def HeldBy (s : OrderlyState) (holder : Option Nat) : Prop :=
  s.objLock = holder.isSome ∧
    ∀ (j : Nat) (pc : OrderlyPc), s.running[j]? = some pc → pc ≠ .fetchLock → holder = some j

/-- Beside a request that is past the lock all others wait for it. -/
theorem HeldBy.others (h : s.HeldBy holder) (hi : s.running[i]? = some pc)
    (hpast : pc ≠ .fetchLock) : ∀ pc' ∈ s.running.eraseIdx i, pc' = .fetchLock := by
  intro pc' hpc'
  obtain ⟨j, hne, hj⟩ := List.mem_eraseIdx_iff_getElem?.mp hpc'
  by_contra hother
  have hij := (h.2 i pc hi hpast).symm.trans (h.2 j pc' hj hother)
  exact hne (Option.some.inj hij).symm

/-- The lock goes to the request that takes it, and stays with it as it goes on. -/
theorem HeldBy.set (h : s.HeldBy holder) (hfree : holder = none ∨ holder = some i)
    (queue : OrderlyQueue) (pc : OrderlyPc) :
    ({ s with queue, running := s.running.set i pc, objLock := true } : OrderlyState).HeldBy
      (some i) := by
  refine ⟨rfl, fun j pc' hj hpast ↦ ?_⟩
  by_cases hij : i = j
  · rw [hij]
  · simp only [List.getElem?_set_ne hij] at hj
    rcases hfree with rfl | rfl
    · exact absurd (h.2 j pc' hj hpast) (by simp)
    · exact h.2 j pc' hj hpast

/-- One request at most is past the lock, and what it has with the listener is taken. -/
structure Covered (s : OrderlyState) : Prop where
  held : ∃ holder, s.HeldBy holder
  hands : ∀ pc ∈ s.running, HandTaken s.queue.pq pc

/-- Nothing runs at the start. -/
theorem covered_init (now : Nat) (store : RemoteBrokerOffsetStore) :
    (init now store).Covered :=
  ⟨⟨none, rfl, by simp [init]⟩, by simp [init]⟩

/-- Nothing about the requests changes and the taken messages stay. -/
theorem Covered.of_taken (h : s.Covered) (hrunning : t.running = s.running)
    (hobjLock : t.objLock = s.objLock) (htaken : t.queue.pq.taken = s.queue.pq.taken) :
    t.Covered := by
  refine ⟨?_, ?_⟩
  · obtain ⟨holder, hheld⟩ := h.held
    refine ⟨holder, hobjLock.trans hheld.1, ?_⟩
    rw [hrunning]
    exact hheld.2
  · intro pc hpc
    rw [hrunning] at hpc
    have hhand := h.hands pc hpc
    unfold HandTaken at hhand ⊢
    rw [htaken]
    exact hhand

/-- A request that holds the lock makes its step. -/
theorem Covered.goNext (h : s.Covered) (hi : s.running[i]? = some pc) (hpast : pc ≠ .fetchLock)
    {q : OrderlyQueue} {next : OrderlyNext} (hnext : ∀ pc' ∈ next.pc, HandTaken q.pq pc') :
    (s.goNext i q next).Covered := by
  obtain ⟨holder, hheld⟩ := h.held
  have hothers := hheld.others hi hpast
  have hlock : holder = some i := hheld.2 i pc hi hpast
  have hobjLock : s.objLock = true := by rw [hheld.1, hlock]; rfl
  have hwaits : ∀ pc' ∈ s.running.eraseIdx i, HandTaken q.pq pc' := by
    intro pc' hpc'
    apply handTaken_of_nil
    rw [hothers pc' hpc']
    rfl
  have hleft : ∀ (j : Nat) (pc' : OrderlyPc), (s.running.eraseIdx i)[j]? = some pc' →
      pc' ≠ .fetchLock → none = some j :=
    fun j pc' hj hne ↦ absurd (hothers pc' (List.mem_of_getElem? hj)) hne
  cases next with
  | goOn pc' =>
    have hset := hheld.set (Or.inr hlock) q pc'
    rw [← hobjLock] at hset
    refine ⟨⟨some i, hset⟩, fun pc'' hpc'' ↦ ?_⟩
    have hlt := (List.getElem?_eq_some_iff.mp hi).1
    rw [OrderlyState.goNext, (List.set_perm_cons_eraseIdx hlt pc').mem_iff, List.mem_cons] at hpc''
    rcases hpc'' with rfl | hother
    · exact hnext pc'' rfl
    · exact hwaits pc'' hother
  | leave => exact ⟨⟨none, rfl, hleft⟩, hwaits⟩
  | leaveLater timer => exact ⟨⟨none, rfl, hleft⟩, hwaits⟩

/-- A put is covered, as are all steps, and every step but a put drains. -/
theorem covered_step {e : OrderlyEvent} (h : s.Covered) (hstep : s.step mq e = some t) :
    t.Covered ∧ ((∀ msgs, e ≠ .put msgs) → s.queue.pq.Drains t.queue.pq) := by
  have hkeep {pq : ProcessQueue} : pq.Drains pq := ProcessQueue.drains_of_le rfl le_rfl
  cases stepped_of_step hstep with
  | put msgs =>
    exact ⟨h.of_taken rfl rfl (s.queue.pq.taken_putMessage msgs), fun hput ↦ absurd rfl (hput msgs)⟩
  | start hpos =>
    obtain ⟨holder, hheld⟩ := h.held
    refine ⟨⟨⟨holder, hheld.1, fun j pc hj hpast ↦ ?_⟩, fun pc hpc ↦ ?_⟩, fun _ ↦ hkeep⟩
    · rcases Nat.lt_or_ge j s.running.length with hlt | hge
      · rw [List.getElem?_append_left hlt] at hj
        exact hheld.2 j pc hj hpast
      · rw [List.getElem?_append_right hge] at hj
        exact absurd (List.mem_singleton.mp (List.mem_of_getElem? hj)) hpast
    · rcases List.mem_append.mp hpc with hold | hnew
      · exact h.hands pc hold
      · rw [List.mem_singleton.mp hnew]
        exact handTaken_of_nil rfl
  | takeLock hi hfree =>
    obtain ⟨holder, hheld⟩ := h.held
    have hnone : holder = none := by
      rw [hheld.1] at hfree
      exact Option.isNone_iff_eq_none.mp (Option.isSome_eq_false_iff.mp hfree)
    refine ⟨⟨⟨_, hheld.set (Or.inl hnone) s.queue .testEntryLocked⟩, ?_⟩, fun _ ↦ hkeep⟩
    intro pc hpc
    rcases List.mem_or_eq_of_mem_set hpc with hold | rfl
    · exact h.hands pc hold
    · exact handTaken_of_nil rfl
  | doStep hi hpast hdo =>
    obtain ⟨hdrains, hnext⟩ := drains_doStep (h.hands _ (List.mem_of_getElem? hi)) hdo
    refine ⟨h.goNext hi hpast hnext, fun _ ↦ ?_⟩
    rw [queue_goNext]
    exact hdrains
  | fireLock lockOK => cases lockOK <;> exact ⟨h.of_taken rfl rfl rfl, fun _ ↦ hkeep⟩
  | lock granted => cases granted <;> exact ⟨h.of_taken rfl rfl rfl, fun _ ↦ hkeep⟩
  | fireSubmit | drop | clock => exact ⟨h.of_taken rfl rfl rfl, fun _ ↦ hkeep⟩

end OrderlyState
end RocketMQ
