import RocketMQ.Base.KeyedMap
import RocketMQ.Base.LogCursor
import RocketMQ.Message.MessageQueue

/-!
# The local buffer of one queue

`src/consumer/ProcessQueue.cpp`, `src/consumer/ProcessQueue.h`. Every function below runs
under `m_lockTreeMap` in the source; `takeMessages` alone also writes `m_consuming` after
it has released the lock, so it is given in its two parts as well. Offsets are 64-bit in the
source and are counted here without wrap-around. The messages' memory is not modelled.
-/

namespace RocketMQ

/-- `std::map<long long, MessageExt*>`, always filled by `map[msg->getQueueOffset()] = msg`. -/
abbrev MsgTreeMap := Base.KeyedMap MessageExt.queueOffset

/-- `src/consumer/ProcessQueue.h:85–100`. -/
structure ProcessQueue where
  msgTreeMap : MsgTreeMap
  queueOffsetMax : Int
  msgCount : Int
  dropped : Bool
  locked : Bool
  lastLockTimestamp : Nat
  consuming : Bool
  msgTreeMapTemp : MsgTreeMap

namespace ProcessQueue

/-- `s_RebalanceLockMaxLiveTime`, `src/consumer/ProcessQueue.cpp:24`. -/
def rebalanceLockMaxLiveTime : Nat := 30000

/-- The constructor, `src/consumer/ProcessQueue.cpp:30–40`, run at time `now`. -/
def new (now : Nat) : ProcessQueue where
  msgTreeMap := Base.KeyedMap.empty
  queueOffsetMax := 0
  msgCount := 0
  dropped := false
  locked := false
  lastLockTimestamp := now
  consuming := false
  msgTreeMapTemp := Base.KeyedMap.empty

/-- `src/consumer/ProcessQueue.cpp:42–46`; the difference is of `unsigned long long`. -/
def isLockExpired (pq : ProcessQueue) (now : Nat) : Bool :=
  decide ((now + 2 ^ 64 - pq.lastLockTimestamp) % 2 ^ 64 > rebalanceLockMaxLiveTime)

/-- `src/consumer/ProcessQueue.cpp:48–75`. The flag says that the caller has to dispatch a
consume request. -/
def putMessage (pq : ProcessQueue) (msgs : List MessageExt) : ProcessQueue × Bool :=
  let put : ProcessQueue :=
    { pq with
      msgTreeMap := pq.msgTreeMap.putAll msgs
      queueOffsetMax := msgs.foldl (fun _ msg ↦ msg.queueOffset) pq.queueOffsetMax
      msgCount := pq.msgCount + msgs.length }
  if !put.msgTreeMap.keys.isEmpty && !put.consuming then
    ({ put with consuming := true }, true)
  else
    (put, false)

/-- `src/consumer/ProcessQueue.cpp:101–135`. The result is the offset to commit, `-1` when
there is none. -/
def removeMessage (pq : ProcessQueue) (msgs : List MessageExt) : ProcessQueue × Int :=
  let removed : ProcessQueue × Int :=
    if pq.msgTreeMap.keys.isEmpty then (pq, -1)
    else
      ({ pq with
          msgTreeMap := pq.msgTreeMap.eraseAll (offsets msgs)
          msgCount := pq.msgCount - msgs.length },
        pq.queueOffsetMax + 1)
  match removed.1.msgTreeMap.keys.head? with
  | none => removed
  | some first => (removed.1, first)

/-- `src/consumer/ProcessQueue.cpp:172–183`: the taken messages replace the buffer. -/
def rollback (pq : ProcessQueue) : ProcessQueue :=
  { pq with msgTreeMap := pq.msgTreeMapTemp, msgTreeMapTemp := Base.KeyedMap.empty }

/-- `src/consumer/ProcessQueue.cpp:185–205`. The result is the offset to commit, `-1` when
nothing is taken. -/
def commit (pq : ProcessQueue) : ProcessQueue × Int :=
  match pq.msgTreeMapTemp.keys.getLast? with
  | none => (pq, -1)
  | some offset =>
    ({ pq with
        msgCount := pq.msgCount - pq.msgTreeMapTemp.size
        msgTreeMapTemp := Base.KeyedMap.empty },
      offset + 1)

/-- `src/consumer/ProcessQueue.cpp:207–225`. -/
def makeMessageToCosumeAgain (pq : ProcessQueue) (msgs : List MessageExt) : ProcessQueue :=
  { pq with
    msgTreeMapTemp := pq.msgTreeMapTemp.eraseAll (offsets msgs)
    msgTreeMap := pq.msgTreeMap.putAll msgs }

/-- The loop of `takeMessages`, `src/consumer/ProcessQueue.cpp:240–256`, for the iterations
that are left: both maps and the messages pushed to the result. -/
def takeLoop : Nat → MsgTreeMap → MsgTreeMap → MsgTreeMap × MsgTreeMap × List MessageExt
  | 0, tree, temp => (tree, temp, [])
  | n + 1, tree, temp =>
    match tree.first? with
    | none => (tree, temp, [])
    | some msg =>
      let (tree', temp', result) := takeLoop n (tree.erase msg.queueOffset) (temp.put msg)
      (tree', temp', msg :: result)

/-- The locked part of `takeMessages`, `src/consumer/ProcessQueue.cpp:233–261`. -/
def takeLocked (pq : ProcessQueue) (batchSize : Int) : ProcessQueue × List MessageExt :=
  let (tree, temp, result) := takeLoop batchSize.toNat pq.msgTreeMap pq.msgTreeMapTemp
  ({ pq with msgTreeMap := tree, msgTreeMapTemp := temp }, result)

/-- The write after the lock is released, `src/consumer/ProcessQueue.cpp:263–266`. -/
def clearConsuming (pq : ProcessQueue) : ProcessQueue := { pq with consuming := false }

/-- `src/consumer/ProcessQueue.cpp:233–268`, both parts in a row. -/
def takeMessages (pq : ProcessQueue) (batchSize : Int) : ProcessQueue × List MessageExt :=
  let (taken, result) := pq.takeLocked batchSize
  if result.isEmpty then (taken.clearConsuming, result) else (taken, result)

/-- `src/consumer/ProcessQueue.cpp:162–165`. -/
def setLocked (pq : ProcessQueue) (locked : Bool) : ProcessQueue := { pq with locked }

/-- `src/consumer/ProcessQueue.cpp:275–278`. -/
def setLastLockTimestamp (pq : ProcessQueue) (timestamp : Nat) : ProcessQueue :=
  { pq with lastLockTimestamp := timestamp }

/-- `src/consumer/ProcessQueue.cpp:152–155`. -/
def setDropped (pq : ProcessQueue) (dropped : Bool) : ProcessQueue := { pq with dropped }

/-- Offsets in `m_msgTreeMap`, ascending. -/
def waiting (pq : ProcessQueue) : List Int := pq.msgTreeMap.keys

/-- Offsets in `m_msgTreeMapTemp`, ascending. -/
def taken (pq : ProcessQueue) : List Int := pq.msgTreeMapTemp.keys

/-! ### What each operation does to the two maps -/

/-- The buffered offsets are strictly ascending. -/
theorem waiting_sorted (pq : ProcessQueue) : pq.waiting.Pairwise (· < ·) :=
  pq.msgTreeMap.keys_sorted.imp Int.compare_eq_lt.mp

/-- The number of taken offsets is the size of the map. -/
theorem length_taken (pq : ProcessQueue) : pq.taken.length = pq.msgTreeMapTemp.size :=
  pq.msgTreeMapTemp.length_keys

section Put

variable (pq : ProcessQueue) (msgs : List MessageExt)

/-- A put adds its offsets to the buffered ones. -/
theorem mem_waiting_putMessage {k : Int} :
    k ∈ (pq.putMessage msgs).1.waiting ↔ k ∈ offsets msgs ∨ k ∈ pq.waiting := by
  have h : (pq.putMessage msgs).1.waiting = (pq.msgTreeMap.putAll msgs).keys := by
    simp only [putMessage]
    split <;> rfl
  rw [h, Base.KeyedMap.mem_keys_putAll]
  rfl

@[simp] theorem taken_putMessage : (pq.putMessage msgs).1.taken = pq.taken := by
  simp only [putMessage]
  split <;> rfl

@[simp] theorem msgCount_putMessage :
    (pq.putMessage msgs).1.msgCount = pq.msgCount + msgs.length := by
  simp only [putMessage]
  split <;> rfl

@[simp] theorem queueOffsetMax_putMessage : (pq.putMessage msgs).1.queueOffsetMax =
    msgs.foldl (fun _ msg ↦ msg.queueOffset) pq.queueOffsetMax := by
  simp only [putMessage]
  split <;> rfl

@[simp] theorem dropped_putMessage : (pq.putMessage msgs).1.dropped = pq.dropped := by
  simp only [putMessage]
  split <;> rfl

/-- A put dispatches exactly when it starts consumption. -/
theorem consuming_putMessage : (pq.putMessage msgs).1.consuming =
    (pq.consuming || (pq.putMessage msgs).2) := by
  simp only [putMessage]
  split
  · simp
  · simp

/-- A put does not dispatch while the queue is being consumed. -/
theorem putMessage_snd_of_consuming (h : pq.consuming = true) :
    (pq.putMessage msgs).2 = false := by
  simp [putMessage, h]

/-- Offsets above all buffered ones are buffered behind them. -/
theorem waiting_putMessage (hs : (offsets msgs).Pairwise (· < ·))
    (habove : ∀ k ∈ pq.waiting, ∀ o ∈ offsets msgs, k < o) :
    (pq.putMessage msgs).1.waiting = pq.waiting ++ offsets msgs := by
  apply Base.KeyedMap.sorted_ext (Base.KeyedMap.keys_sorted _)
  · apply List.Pairwise.imp Int.compare_eq_lt.mpr
    exact List.pairwise_append.mpr ⟨pq.waiting_sorted, hs, habove⟩
  · intro k
    rw [List.mem_append, or_comm]
    exact pq.mem_waiting_putMessage msgs

end Put

section Take

private theorem takeLoop_spec (n : Nat) (tree temp : MsgTreeMap) :
    offsets (takeLoop n tree temp).2.2 = tree.keys.take n ∧
      (takeLoop n tree temp).1.keys = tree.keys.drop n ∧
      ∀ k, k ∈ (takeLoop n tree temp).2.1.keys ↔ k ∈ temp.keys ∨ k ∈ tree.keys.take n := by
  induction n generalizing tree temp with
  | zero => simp [takeLoop]
  | succ n ih =>
    cases hf : tree.first? with
    | none =>
      have hk := Base.KeyedMap.first?_eq_none_iff.mp hf
      simp [takeLoop, hf, hk]
    | some msg =>
      obtain ⟨hres, htree, htemp⟩ := ih (tree.erase msg.queueOffset) (temp.put msg)
      have hk := Base.KeyedMap.keys_of_first? hf
      simp only [takeLoop, hf]
      refine ⟨?_, ?_, ?_⟩
      · rw [hk, List.take_succ_cons, ← hres, offsets_cons]
      · rw [hk, List.drop_succ_cons, ← htree]
      · intro k
        rw [hk, List.take_succ_cons, List.mem_cons, htemp, Base.KeyedMap.mem_keys_put]
        tauto

variable (pq : ProcessQueue) (batchSize : Int)

/-- A take hands out the lowest buffered offsets, ascending. -/
theorem offsets_takeLocked :
    offsets (pq.takeLocked batchSize).2 = pq.waiting.take batchSize.toNat :=
  (takeLoop_spec _ _ _).1

/-- A take leaves the other offsets buffered. -/
theorem waiting_takeLocked :
    (pq.takeLocked batchSize).1.waiting = pq.waiting.drop batchSize.toNat :=
  (takeLoop_spec _ _ _).2.1

/-- A take moves its offsets to the taken ones. -/
theorem mem_taken_takeLocked {k : Int} : k ∈ (pq.takeLocked batchSize).1.taken ↔
    k ∈ pq.taken ∨ k ∈ pq.waiting.take batchSize.toNat :=
  (takeLoop_spec _ _ _).2.2 k

/-- A take of a queue with nothing in hand puts exactly its batch in hand. -/
theorem taken_takeLocked (h : pq.taken = []) :
    (pq.takeLocked batchSize).1.taken = pq.waiting.take batchSize.toNat := by
  apply Base.KeyedMap.sorted_ext (Base.KeyedMap.keys_sorted _)
  · apply List.Pairwise.imp Int.compare_eq_lt.mpr
    exact pq.waiting_sorted.sublist (List.take_sublist _ _)
  · intro k
    change k ∈ (pq.takeLocked batchSize).1.taken ↔ _
    rw [mem_taken_takeLocked, h]
    simp

@[simp] theorem msgCount_takeLocked :
    (pq.takeLocked batchSize).1.msgCount = pq.msgCount := rfl

@[simp] theorem consuming_takeLocked :
    (pq.takeLocked batchSize).1.consuming = pq.consuming := rfl

@[simp] theorem dropped_takeLocked :
    (pq.takeLocked batchSize).1.dropped = pq.dropped := rfl

end Take

section Finish

variable (pq : ProcessQueue) (msgs : List MessageExt)

/-- A commit keeps the buffered messages and has nothing in hand afterwards. -/
theorem commit_eq : pq.commit.1 = { pq with
    msgCount := pq.msgCount - pq.taken.length, msgTreeMapTemp := Base.KeyedMap.empty } := by
  unfold commit
  split
  · next h =>
    have ht : pq.taken = [] := List.getLast?_eq_none_iff.mp h
    have he := Base.KeyedMap.eq_empty_of_keys_eq_nil ht
    simp [ht, ← he]
  · rw [length_taken]

@[simp] theorem waiting_commit : pq.commit.1.waiting = pq.waiting := by
  rw [commit_eq]; rfl

@[simp] theorem taken_commit : pq.commit.1.taken = [] := by
  rw [commit_eq]; exact Base.KeyedMap.keys_empty

@[simp] theorem msgCount_commit : pq.commit.1.msgCount = pq.msgCount - pq.taken.length := by
  rw [commit_eq]

@[simp] theorem consuming_commit : pq.commit.1.consuming = pq.consuming := by
  rw [commit_eq]

@[simp] theorem dropped_commit : pq.commit.1.dropped = pq.dropped := by
  rw [commit_eq]

/-- The offset to commit is one above the last taken one. -/
theorem commit_snd : pq.commit.2 = (pq.taken.getLast?.map (· + 1)).getD (-1) := by
  unfold commit taken
  split
  · next h => simp [h]
  · next h => simp [h]

/-- Giving messages back buffers them again. -/
theorem mem_waiting_again {k : Int} : k ∈ (pq.makeMessageToCosumeAgain msgs).waiting ↔
    k ∈ offsets msgs ∨ k ∈ pq.waiting :=
  Base.KeyedMap.mem_keys_putAll

/-- Messages given back are no longer taken. -/
theorem mem_taken_again {k : Int} : k ∈ (pq.makeMessageToCosumeAgain msgs).taken ↔
    k ∉ offsets msgs ∧ k ∈ pq.taken :=
  Base.KeyedMap.mem_keys_eraseAll

/-- Giving back everything in hand leaves nothing in hand. -/
theorem taken_again_of_eq (h : offsets msgs = pq.taken) :
    (pq.makeMessageToCosumeAgain msgs).taken = [] := by
  rw [List.eq_nil_iff_forall_not_mem]
  intro k hk
  rw [mem_taken_again, h] at hk
  exact hk.1 hk.2

/-- Giving back everything in hand buffers it before what is buffered above it. -/
theorem waiting_again_of_eq (h : offsets msgs = pq.taken)
    (hs : (pq.taken ++ pq.waiting).Pairwise (· < ·)) :
    (pq.makeMessageToCosumeAgain msgs).waiting = pq.taken ++ pq.waiting := by
  apply Base.KeyedMap.sorted_ext (Base.KeyedMap.keys_sorted _)
    (hs.imp Int.compare_eq_lt.mpr)
  intro k
  rw [List.mem_append, ← h]
  exact pq.mem_waiting_again msgs

@[simp] theorem waiting_rollback : pq.rollback.waiting = pq.taken := rfl

@[simp] theorem taken_rollback : pq.rollback.taken = [] := Base.KeyedMap.keys_empty

/-- An empty queue is left as it is, also its counter. -/
theorem removeMessage_fst : (pq.removeMessage msgs).1 =
    if pq.waiting.isEmpty then pq else
      { pq with
        msgTreeMap := pq.msgTreeMap.eraseAll (offsets msgs)
        msgCount := pq.msgCount - msgs.length } := by
  cases he : pq.msgTreeMap.keys.isEmpty with
  | true =>
    simp only [removeMessage, waiting, he, if_true]
    split <;> rfl
  | false =>
    simp only [removeMessage, waiting, he]
    split <;> rfl

/-- Removing messages removes their offsets from the buffer. -/
theorem mem_waiting_removeMessage {k : Int} : k ∈ (pq.removeMessage msgs).1.waiting ↔
    k ∉ offsets msgs ∧ k ∈ pq.waiting := by
  rw [removeMessage_fst]
  split
  · next he => simp [List.isEmpty_iff.mp he]
  · exact Base.KeyedMap.mem_keys_eraseAll

@[simp] theorem queueOffsetMax_removeMessage :
    (pq.removeMessage msgs).1.queueOffsetMax = pq.queueOffsetMax := by
  rw [removeMessage_fst]
  split <;> rfl

@[simp] theorem taken_removeMessage : (pq.removeMessage msgs).1.taken = pq.taken := by
  rw [removeMessage_fst]
  split <;> rfl

@[simp] theorem dropped_removeMessage : (pq.removeMessage msgs).1.dropped = pq.dropped := by
  rw [removeMessage_fst]
  split <;> rfl

/-- The offset to commit is the lowest one left, or one above the highest put one. -/
theorem removeMessage_snd : (pq.removeMessage msgs).2 =
    match (pq.removeMessage msgs).1.waiting.head? with
    | some first => first
    | none => if pq.waiting = [] then -1 else pq.queueOffsetMax + 1 := by
  rw [removeMessage_fst]
  cases he : pq.msgTreeMap.keys.isEmpty with
  | true =>
    have hk : pq.msgTreeMap.keys = [] := List.isEmpty_iff.mp he
    simp [removeMessage, waiting, hk]
  | false =>
    have hk : ¬ pq.msgTreeMap.keys = [] := fun h ↦ by simp [h] at he
    simp only [removeMessage, waiting, he]
    cases hf : (pq.msgTreeMap.eraseAll (offsets msgs)).keys.head? <;> simp [hf, hk]

/-- No offset is buffered twice. -/
theorem nodup_waiting : pq.waiting.Nodup := pq.msgTreeMap.nodup_keys

/-- No offset is taken twice. -/
theorem nodup_taken : pq.taken.Nodup := pq.msgTreeMapTemp.nodup_keys

end Finish

end ProcessQueue
end RocketMQ
