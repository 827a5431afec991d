import RocketMQ.Consumer.Orderly

/-!
# Orderly consumption with automatic commits is gap-free

With `autoCommit` the queue is a `LogCursor`: puts append, a take puts the next offsets in
hand, a listener's answer commits them or gives them back. The invariant says which offsets
are in hand by where the one running request is, so that nothing is in hand between batches.
-/

namespace RocketMQ

namespace OrderlyQueue

/-- The put offsets, split by how far consumption has come with them. -/
def cursor (q : OrderlyQueue) : Base.LogCursor Int :=
  ⟨q.committed.flatten, q.pq.taken, q.pq.waiting⟩

/-- The queue while the offsets `hand` are with the listener and `due` is the committed
offset that is not stored yet. -/
structure InOrder (mq : MessageQueue) (q : OrderlyQueue) (hand : List Int) (due : Option Int) :
    Prop where
  log : q.cursor.log = q.put
  ascending : q.put.Pairwise (· < ·)
  taken : q.pq.taken = hand
  due : ∀ v ∈ due, q.committed.flatten.getLast? = some (v - 1)
  stored : ∀ p ∈ q.stored, p.2 = some (p.1 - 1)
  entry : ∀ p ∈ q.stored.getLast?, q.store.offsetTable[mq]? = some p.1

variable {mq : MessageQueue} {q : OrderlyQueue} {hand : List Int} {due : Option Int}

/-- Less may be due than is. -/
theorem InOrder.none_due (h : q.InOrder mq hand due) : q.InOrder mq hand none :=
  { h with due := by simp }

/-- What changes neither the buffered nor the taken messages keeps the order. -/
theorem InOrder.of_same_maps (h : q.InOrder mq hand due) {pq : ProcessQueue} {now : Nat}
    (hwaiting : pq.waiting = q.pq.waiting) (htaken : pq.taken = q.pq.taken) :
    ({ q with pq, now } : OrderlyQueue).InOrder mq hand due := by
  constructor
  · have hlog := h.log
    simp only [cursor, hwaiting, htaken] at hlog ⊢
    exact hlog
  · exact h.ascending
  · exact htaken.trans h.taken
  · exact h.due
  · exact h.stored
  · exact h.entry

/-- Granting or losing the lock keeps the order. -/
theorem InOrder.setLock (h : q.InOrder mq hand due) (granted : Bool) :
    (OrderlyState.setLock q granted).InOrder mq hand due := by
  unfold OrderlyState.setLock
  apply h.of_same_maps <;> cases granted <;> rfl

/-- In hand and buffered offsets are ascending together. -/
theorem InOrder.sorted (h : q.InOrder mq hand due) :
    (q.pq.taken ++ q.pq.waiting).Pairwise (· < ·) := by
  have hlog := h.ascending
  rw [← h.log, Base.LogCursor.log, cursor, List.append_assoc] at hlog
  exact (List.pairwise_append.mp hlog).2.1

/-- A put of higher offsets appends to the log. -/
theorem InOrder.put (h : q.InOrder mq hand due) {msgs : List MessageExt}
    (hs : (offsets msgs).Pairwise (· < ·)) (hfresh : ∀ o ∈ offsets msgs, ∀ p ∈ q.put, p < o) :
    ({ q with pq := (q.pq.putMessage msgs).1, put := q.put ++ offsets msgs } :
      OrderlyQueue).InOrder mq hand due := by
  have hmem : ∀ k ∈ q.pq.waiting, k ∈ q.put := by
    intro k hk
    rw [← h.log]
    exact List.mem_append_right _ hk
  have hcursor : ({ q with pq := (q.pq.putMessage msgs).1, put := q.put ++ offsets msgs } :
      OrderlyQueue).cursor = q.cursor.append (offsets msgs) := by
    simp only [cursor, Base.LogCursor.append, ProcessQueue.taken_putMessage]
    rw [q.pq.waiting_putMessage msgs hs fun k hk o ho ↦ hfresh o ho k (hmem k hk)]
  constructor
  · rw [hcursor, Base.LogCursor.log_append, h.log]
  · exact List.pairwise_append.mpr ⟨h.ascending, hs, fun p hp o ho ↦ hfresh o ho p hp⟩
  · exact (q.pq.taken_putMessage msgs).trans h.taken
  · exact h.due
  · exact h.stored
  · exact h.entry

/-- A take puts the next offsets of the log in hand. -/
theorem InOrder.take (h : q.InOrder mq [] due) (consumeBatchSize : Int) :
    ({ q with pq := (q.pq.takeLocked consumeBatchSize).1 } : OrderlyQueue).InOrder mq
      (offsets (q.pq.takeLocked consumeBatchSize).2) none := by
  have htaken := q.pq.taken_takeLocked consumeBatchSize h.taken
  have hcursor : ({ q with pq := (q.pq.takeLocked consumeBatchSize).1 } :
      OrderlyQueue).cursor = q.cursor.take consumeBatchSize.toNat := by
    simp [cursor, Base.LogCursor.take, htaken, h.taken, q.pq.waiting_takeLocked]
  constructor
  · rw [hcursor, Base.LogCursor.log_take, h.log]
  · exact h.ascending
  · rw [htaken, q.pq.offsets_takeLocked]
  · simp
  · exact h.stored
  · exact h.entry

/-- A commit moves what is in hand to the committed offsets, and what it returns is due. -/
theorem InOrder.commit (h : q.InOrder mq hand due) :
    ({ q with pq := q.pq.commit.1, committed := q.committed ++ [q.pq.taken] } :
      OrderlyQueue).InOrder mq [] (if q.pq.commit.2 ≥ 0 then some q.pq.commit.2 else none) := by
  have hcursor : ({ q with pq := q.pq.commit.1, committed := q.committed ++ [q.pq.taken] } :
      OrderlyQueue).cursor = q.cursor.commit := by
    simp [cursor, Base.LogCursor.commit]
  constructor
  · rw [hcursor, Base.LogCursor.log_commit, h.log]
  · exact h.ascending
  · exact q.pq.taken_commit
  · intro v hv
    split at hv
    · next hpos =>
      obtain rfl := Option.some.inj hv
      rw [q.pq.commit_snd] at hpos ⊢
      cases hlast : q.pq.taken.getLast? with
      | none => simp [hlast] at hpos
      | some o => simp [hlast]
    · exact absurd hv (by simp)
  · exact h.stored
  · exact h.entry

/-- Giving back what is in hand puts it before the buffered offsets. -/
theorem InOrder.giveBack {msgs : List MessageExt} (h : q.InOrder mq (offsets msgs) due) :
    ({ q with pq := q.pq.makeMessageToCosumeAgain msgs } : OrderlyQueue).InOrder mq [] none := by
  have hwaiting := q.pq.waiting_again_of_eq msgs h.taken.symm h.sorted
  have htaken := q.pq.taken_again_of_eq msgs h.taken.symm
  have hcursor : ({ q with pq := q.pq.makeMessageToCosumeAgain msgs } :
      OrderlyQueue).cursor = q.cursor.giveBack := by
    simp [cursor, Base.LogCursor.giveBack, hwaiting, htaken]
  constructor
  · rw [hcursor, Base.LogCursor.log_giveBack, h.log]
  · exact h.ascending
  · exact htaken
  · simp
  · exact h.stored
  · exact h.entry

/-- Storing the offset that is due keeps the order. -/
theorem InOrder.store {v : Int} (h : q.InOrder mq hand (some v)) :
    ({ q with
        store := q.store.updateOffset mq v false
        stored := q.stored ++ [(v, q.committed.flatten.getLast?)] } :
      OrderlyQueue).InOrder mq hand none := by
  constructor
  · exact h.log
  · exact h.ascending
  · exact h.taken
  · simp
  · intro p hp
    rcases List.mem_append.mp hp with hp | hp
    · exact h.stored p hp
    · rw [List.mem_singleton.mp hp]
      exact h.due v rfl
  · intro p hp
    rw [List.getLast?_concat, Option.mem_some_iff] at hp
    rw [← hp, RemoteBrokerOffsetStore.getElem?_updateOffset]
    cases q.store.offsetTable[mq]? <;> simp

end OrderlyQueue

namespace OrderlyPc

/-- The offsets that are with the listener. -/
def hand : OrderlyPc → List Int
  | .listening _ msgs => offsets msgs
  | _ => []

/-- The committed offset that is stored next. -/
def due : OrderlyPc → Option Int
  | .updateOffset _ commitOffset => some commitOffset
  | _ => none

end OrderlyPc

namespace OrderlyQueue

/-- Between two batches nothing is with the listener. -/
theorem Between.hand {pc : OrderlyPc} (h : Between pc) : pc.hand = [] := by
  cases pc with
  | listening => exact h.elim
  | _ => rfl

/-- Between two batches no offset is due. -/
theorem Between.due {pc : OrderlyPc} (h : Between pc) : pc.due = none := by
  cases pc with
  | updateOffset => exact h.elim
  | _ => rfl

variable {mq : MessageQueue} {q q' : OrderlyQueue}

/-- The order while the one request, if any, is where it is. -/
def InOrderAt (mq : MessageQueue) (q : OrderlyQueue) (pc : Option OrderlyPc) : Prop :=
  q.InOrder mq ((pc.map OrderlyPc.hand).getD []) (pc.bind OrderlyPc.due)

/-- A listener answers with automatic commit. -/
def AutoCommit : OrderlyInput → Prop
  | .answer answer => answer.autoCommit = true
  | .go | .batchSize _ => True

instance : ∀ input, Decidable (AutoCommit input)
  | .answer _ => inferInstanceAs (Decidable (_ = true))
  | .go | .batchSize _ => inferInstanceAs (Decidable True)

/-- The answer of a listener keeps the order. -/
theorem inOrderAt_answered (beginTime : Nat) {msgs : List MessageExt} {answer : ListenerAnswer}
    (h : q.InOrder mq (offsets msgs) none) (hauto : answer.autoCommit = true) :
    (q.answered beginTime msgs answer).1.InOrderAt mq (q.answered beginTime msgs answer).2.pc := by
  have hcommit : ({ q with pq := q.pq.commit.1, committed := q.committed ++ [q.pq.taken] } :
      OrderlyQueue).InOrderAt mq (some (if q.pq.commit.2 ≥ 0 then
        .updateOffset beginTime q.pq.commit.2 else .testDropped beginTime)) := by
    have hc := h.commit
    unfold InOrderAt
    split at hc
    · next hpos =>
      rw [if_pos hpos]
      exact hc
    · next hneg =>
      rw [if_neg hneg]
      exact hc
  have hnext : (if q.pq.commit.2 ≥ 0 then
        OrderlyNext.goOn (.updateOffset beginTime q.pq.commit.2)
      else .goOn (.testDropped beginTime)).pc =
        some (if q.pq.commit.2 ≥ 0 then .updateOffset beginTime q.pq.commit.2
          else .testDropped beginTime) := by
    split <;> rfl
  obtain ⟨status, autoCommit, millis⟩ := answer
  obtain rfl : autoCommit = true := hauto
  unfold answered
  cases status.getD .suspendCurrentQueueAMoment with
  | success | commit | rollback =>
    simp only [ConsumeMessageOrderlyService.processConsumeResult,
      ConsumeMessageOrderlyService.commits, if_true, Bool.not_true, Bool.false_eq_true, if_false,
      hnext]
    exact hcommit
  | suspendCurrentQueueAMoment => exact h.giveBack

/-- Every step of the request keeps the order. -/
theorem inOrderAt_doStep {pc : OrderlyPc} {input : OrderlyInput} {next : OrderlyNext}
    (h : q.InOrderAt mq (some pc)) (hauto : AutoCommit input)
    (hstep : q.doStep mq pc input = some (q', next)) : q'.InOrderAt mq next.pc := by
  -- between batches nothing is in hand, wherever the request goes from here
  have hquiet (hhand : pc.hand = []) (hnhand : (next.pc.map OrderlyPc.hand).getD [] = [])
      (hndue : next.pc.bind OrderlyPc.due = none) : q.InOrderAt mq next.pc := by
    unfold InOrderAt at h ⊢
    rw [hnhand, hndue]
    rw [Option.map_some, Option.getD_some, hhand] at h
    exact h.none_due
  cases doStepped_of_doStep hstep with
  | test hpc hnext =>
    apply hquiet hpc.hand
    · cases hp : next.pc with
      | none => rfl
      | some pc' => exact (hnext pc' hp).hand
    · cases hp : next.pc with
      | none => rfl
      | some pc' => exact (hnext pc' hp).due
  | take beginTime consumeBatchSize =>
    have hnone : q.InOrder mq [] none := h
    have htake := hnone.take consumeBatchSize
    unfold InOrderAt
    cases hmsgs : (q.pq.takeLocked consumeBatchSize).2 with
    | nil =>
      rw [hmsgs] at htake
      exact htake
    | cons m ms =>
      rw [hmsgs] at htake
      exact htake
  | clearConsuming => exact InOrder.of_same_maps (hquiet rfl rfl rfl) rfl rfl
  | answer beginTime msgs answer =>
    have hhand : q.InOrder mq (offsets msgs) none := h
    exact inOrderAt_answered beginTime hhand hauto
  | updateOffset beginTime commitOffset => exact InOrder.store h
  | suspend timeMillis => exact hquiet rfl rfl rfl

end OrderlyQueue

namespace OrderlyState

variable {mq : MessageQueue}

/-- Puts bring ascending offsets above all put ones, and listeners commit automatically. -/
def AutoCommitRun (s : OrderlyState) : OrderlyEvent → Prop
  | .put msgs => (offsets msgs).Pairwise (· < ·) ∧
      ∀ o ∈ offsets msgs, ∀ p ∈ s.queue.put, p < o
  | .run _ input => OrderlyQueue.AutoCommit input
  | .start | .fire _ _ | .lock _ | .drop | .clock _ => True

instance : ∀ s e, Decidable (AutoCommitRun s e)
  | _, .put _ => inferInstanceAs (Decidable (_ ∧ _))
  | _, .run _ input => inferInstanceAs (Decidable (OrderlyQueue.AutoCommit input))
  | _, .start | _, .fire _ _ | _, .lock _ | _, .drop | _, .clock _ =>
    inferInstanceAs (Decidable True)

/-- There is at most one request, only while `m_consuming` is set, and the queue is in order
for where that request is. -/
structure OneChain (mq : MessageQueue) (s : OrderlyState) : Prop where
  atMostOne : s.requests ≤ if s.queue.pq.consuming then 1 else 0
  inOrder : s.queue.InOrderAt mq s.running.head?

/-- Nothing runs at the start. -/
theorem oneChain_init (now : Nat) (store : RemoteBrokerOffsetStore) :
    (init now store).OneChain mq := by
  refine ⟨by simp [requests, init], ?_⟩
  constructor <;>
    simp [init, OrderlyQueue.cursor, Base.LogCursor.log, ProcessQueue.waiting,
      ProcessQueue.taken, ProcessQueue.new]

/-- A running request is the only request. -/
theorem OneChain.running {s : OrderlyState} (h : s.OneChain mq) {i : Nat} {pc : OrderlyPc}
    (hi : s.running[i]? = some pc) :
    i = 0 ∧ s.running = [pc] ∧ s.queue.pq.consuming = true := by
  have hlt := (List.getElem?_eq_some_iff.mp hi).1
  have hreq := h.atMostOne
  have hc : s.queue.pq.consuming = true := by
    by_contra hc
    rw [if_neg hc, requests] at hreq
    omega
  rw [if_pos hc, requests] at hreq
  have hlen : s.running.length = 1 := by omega
  obtain ⟨pc', hpc'⟩ := List.length_eq_one_iff.mp hlen
  obtain rfl : i = 0 := by omega
  rw [hpc', List.getElem?_cons_zero] at hi
  refine ⟨rfl, ?_, hc⟩
  rw [hpc', Option.some.inj hi]

/-- Every step of an automatically committing run leaves the queue in order for where the one
request is then. -/
theorem inOrder_step {s t : OrderlyState} {e : OrderlyEvent} (h : s.OneChain mq)
    (hgood : s.AutoCommitRun e) (hstep : s.step mq e = some t) :
    t.queue.InOrderAt mq t.running.head? := by
  cases stepped_of_step hstep with
  | put msgs => exact h.inOrder.put hgood.1 hgood.2
  | start hpos =>
    have hnone : s.running = [] := by
      have hreq := h.atMostOne
      rw [requests] at hreq
      split at hreq
      · exact List.length_eq_zero_iff.mp (by omega)
      · omega
    have hin := h.inOrder
    rw [hnone] at hin ⊢
    exact hin
  | takeLock hi =>
    obtain ⟨rfl, hrun, -⟩ := h.running hi
    have hin := h.inOrder
    rw [hrun] at hin
    simp only [hrun, List.set_cons_zero]
    exact hin
  | @doStep i input pc q next hi hpast hdo =>
    obtain ⟨rfl, hrun, -⟩ := h.running hi
    have hin := h.inOrder
    rw [hrun, List.head?_cons] at hin
    have hord := OrderlyQueue.inOrderAt_doStep hin hgood hdo
    cases next with
    | goOn pc' =>
      simp only [goNext, hrun, List.set_cons_zero]
      exact hord
    | leave | leaveLater =>
      simp only [goNext, hrun, List.eraseIdx_cons_zero]
      exact hord
  | fireLock lockOK => cases lockOK with
    | true => exact h.inOrder.setLock true
    | false => exact h.inOrder
  | lock granted => exact h.inOrder.setLock granted
  | fireSubmit => exact h.inOrder
  | drop | clock => exact h.inOrder.of_same_maps rfl rfl

/-- Every step of an automatically committing run keeps the one chain in order. -/
theorem oneChain_step (s : OrderlyState) (e : OrderlyEvent) (t : OrderlyState)
    (h : s.OneChain mq) (hgood : s.AutoCommitRun e) (hstep : s.step mq e = some t) :
    t.OneChain mq := by
  refine ⟨?_, inOrder_step h hgood hstep⟩
  have hreq := h.atMostOne
  have hrunning : ∀ (i : Nat) (pc : OrderlyPc), s.running[i]? = some pc →
      s.queue.pq.consuming = true :=
    fun i pc hi ↦ (h.running hi).2.2
  rcases requests_step hrunning hstep with hbalance | ⟨i, input, pc, -, hi, -, hle, hc⟩
  · omega
  · rw [hrunning i pc hi] at hreq
    rw [hc]
    exact hle.trans hreq

/-- In every reachable state of an automatically committing run, whatever happens to the lock:
there is at most one request of the queue; a batch that is with the listener continues the
committed ones to a beginning of the put offsets, which are ascending; so do the committed
ones alone; and every stored offset was one above the last committed one, the table holding
the latest. -/
theorem autoCommit_gap_free (now : Nat) (store : RemoteBrokerOffsetStore)
    (es : List OrderlyEvent) (s : OrderlyState)
    (hgood : Base.Along (step mq) AutoCommitRun (init now store) es)
    (hrun : Base.runFrom (step mq) (init now store) es = some s) :
    s.requests ≤ 1 ∧
    s.queue.put.Pairwise (· < ·) ∧
    (∀ beginTime msgs, .listening beginTime msgs ∈ s.running →
      s.queue.committed.flatten ++ offsets msgs <+: s.queue.put) ∧
    s.queue.committed.flatten <+: s.queue.put ∧
    (∀ p ∈ s.queue.stored, p.2 = some (p.1 - 1)) ∧
    ∀ p ∈ s.queue.stored.getLast?, s.queue.store.offsetTable[mq]? = some p.1 := by
  have h : s.OneChain mq :=
    Base.inv_of_along oneChain_step (oneChain_init now store) hgood hrun
  have hord := h.inOrder
  refine ⟨h.atMostOne.trans (by split <;> omega), hord.ascending, ?_, ?_, hord.stored, hord.entry⟩
  · intro beginTime msgs hm
    obtain ⟨i, hi⟩ := List.mem_iff_getElem?.mp hm
    obtain ⟨-, hrunning, -⟩ := h.running hi
    rw [hrunning] at hord
    have htaken : s.queue.pq.taken = offsets msgs := hord.taken
    rw [← hord.log, ← htaken]
    exact s.queue.cursor.committed_inHand_isPrefix_log
  · rw [← hord.log]
    exact s.queue.cursor.committed_isPrefix_log

/-- A run in which two messages are put and the first is suspended once before both are
committed one by one, while a third is put and the lock is renewed. -/
def suspendedRun : List OrderlyEvent :=
  let go (n : Nat) : List OrderlyEvent := List.replicate n (.run 0 .go)
  let batch : List OrderlyEvent := go 4 ++ [.run 0 (.batchSize 1)]
  let answer (status : Option ConsumeOrderlyStatus) : OrderlyEvent :=
    .run 0 (.answer ⟨status, true, 1000⟩)
  [.lock true, .put [.at 5, .at 6], .start] ++ go 2 ++ batch ++
    [answer none, .run 0 .go, .put [.at 9], .fire 0 true, .start] ++ go 2 ++ batch ++
    [answer (some .success), .lock true] ++ go 1 ++ batch ++ [answer (some .commit)] ++ go 1

/-- The run commits the first two messages and stores the offset after the second. -/
theorem autoCommit_gap_free_suspended :
    ∃ s, Base.runFrom (step ⟨str "t", str "b", 0⟩) (init 0 ⟨str "g", ∅⟩) suspendedRun = some s ∧
      s.queue.committed = [[5], [6]] ∧
      s.queue.store.offsetTable[(⟨str "t", str "b", 0⟩ : MessageQueue)]? = some 7 := by
  have hrun : (Base.runFrom (step ⟨str "t", str "b", 0⟩) (init 0 ⟨str "g", ∅⟩)
      suspendedRun).map (fun s ↦ (s.queue.committed, s.queue.stored)) =
        some ([[5], [6]], [(6, some 5), (7, some 6)]) := by decide +kernel
  obtain ⟨s, hs, hobs⟩ := Option.map_eq_some_iff.mp hrun
  obtain ⟨hcommitted, hstored⟩ := Prod.mk.inj hobs
  have h := autoCommit_gap_free 0 ⟨str "g", ∅⟩ suspendedRun s (by decide +kernel) hs
  exact ⟨s, hs, hcommitted, h.2.2.2.2.2 (7, some 6) (by rw [hstored]; rfl)⟩

end OrderlyState
end RocketMQ
