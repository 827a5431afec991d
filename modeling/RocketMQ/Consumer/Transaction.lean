import RocketMQ.Base.Run
import RocketMQ.Consumer.ProcessQueue

/-!
# Conservation of messages in transactional orderly consumption

A `ProcessQueue` driven by any sequence of its orderly operations, as the branch
`autoCommit = false` of `ConsumeMessageOrderlyService::processConsumeResult` drives it
(`src/consumer/ConsumeMessageOrderlyService.cpp:267–303`) while pulls put messages. Two
ghost lists remember every offset that was put and every offset a commit removed.
-/

namespace RocketMQ

/-- A call on the `ProcessQueue`. -/
inductive QueueOp where
  | putMessage (msgs : List MessageExt)
  | takeMessages (batchSize : Int)
  | commit
  | rollback
  | makeMessageToCosumeAgain (msgs : List MessageExt)

/-- The `ProcessQueue`, all offsets put so far and all offsets removed by commits. -/
structure TransactionState where
  pq : ProcessQueue
  put : List Int
  removed : List Int

namespace TransactionState

/-- A queue created at time `now`, before the first call. -/
def start (now : Nat) : TransactionState := ⟨.new now, [], []⟩

/-- One call. Messages are put with offsets never put before, and only messages that are
taken and neither committed nor given back can be given back. -/
def step (s : TransactionState) : QueueOp → Option TransactionState
  | .putMessage msgs =>
    if (offsets msgs).Nodup ∧ ∀ o ∈ offsets msgs, o ∉ s.put then
      some { s with pq := (s.pq.putMessage msgs).1, put := s.put ++ offsets msgs }
    else none
  | .takeMessages batchSize => some { s with pq := (s.pq.takeMessages batchSize).1 }
  | .commit => some { s with pq := s.pq.commit.1, removed := s.removed ++ s.pq.taken }
  | .rollback => some { s with pq := s.pq.rollback }
  | .makeMessageToCosumeAgain msgs =>
    if ∀ o ∈ offsets msgs, o ∈ s.pq.taken then
      some { s with pq := s.pq.makeMessageToCosumeAgain msgs }
    else none

/-- The put offsets are the disjoint union of the buffered, the taken and the removed ones,
and the counter counts the first two. -/
structure Conserved (s : TransactionState) : Prop where
  mem_put_iff : ∀ o, o ∈ s.put ↔ o ∈ s.pq.waiting ∨ o ∈ s.pq.taken ∨ o ∈ s.removed
  waiting_taken : ∀ o ∈ s.pq.waiting, o ∉ s.pq.taken
  waiting_removed : ∀ o ∈ s.pq.waiting, o ∉ s.removed
  taken_removed : ∀ o ∈ s.pq.taken, o ∉ s.removed
  count : s.pq.msgCount = s.pq.waiting.length + s.pq.taken.length

/-- A rollback finds no message buffered behind the taken ones. -/
def RollbackOnEmpty (s : TransactionState) : QueueOp → Prop
  | .rollback => s.pq.waiting = []
  | _ => True

instance : ∀ s op, Decidable (RollbackOnEmpty s op)
  | s, .rollback => inferInstanceAs (Decidable (s.pq.waiting = []))
  | _, .putMessage _ | _, .takeMessages _ | _, .commit | _, .makeMessageToCosumeAgain _ =>
    inferInstanceAs (Decidable True)

/-- A fresh queue conserves. -/
theorem conserved_start (now : Nat) : (start now).Conserved := by
  constructor <;> simp [start, ProcessQueue.waiting, ProcessQueue.taken, ProcessQueue.new]

/-- The buffered and the taken offsets, as one list without repetition. -/
private theorem nodup_held {s : TransactionState} (h : s.Conserved) :
    (s.pq.waiting ++ s.pq.taken).Nodup :=
  List.nodup_append.mpr ⟨s.pq.nodup_waiting, s.pq.nodup_taken,
    fun o ho _ hp he ↦ h.waiting_taken o ho (he ▸ hp)⟩

private theorem length_eq_of_mem_iff {xs ys : List Int} (hx : xs.Nodup) (hy : ys.Nodup)
    (h : ∀ o, o ∈ xs ↔ o ∈ ys) : xs.length = ys.length :=
  ((List.perm_ext_iff_of_nodup hx hy).mpr h).length_eq

/-- Moving messages between the two maps conserves: the removed offsets, the counter and
the union of the two maps stay, and the maps stay disjoint. -/
theorem conserved_of_moved {s : TransactionState} {pq : ProcessQueue} (h : s.Conserved)
    (hcount : pq.msgCount = s.pq.msgCount)
    (hmem : ∀ o, o ∈ pq.waiting ∨ o ∈ pq.taken ↔ o ∈ s.pq.waiting ∨ o ∈ s.pq.taken)
    (hdisj : ∀ o ∈ pq.waiting, o ∉ pq.taken) : ({ s with pq } : TransactionState).Conserved := by
  have hnotRemoved : ∀ o, o ∈ pq.waiting ∨ o ∈ pq.taken → o ∉ s.removed := by
    intro o ho
    rcases (hmem o).mp ho with hw | ht
    · exact h.waiting_removed o hw
    · exact h.taken_removed o ht
  have hlen : (pq.waiting ++ pq.taken).length = (s.pq.waiting ++ s.pq.taken).length := by
    apply length_eq_of_mem_iff _ (nodup_held h)
    · intro o
      rw [List.mem_append, List.mem_append, hmem]
    · exact List.nodup_append.mpr ⟨pq.nodup_waiting, pq.nodup_taken,
        fun o ho _ hp he ↦ hdisj o ho (he ▸ hp)⟩
  constructor
  · intro o
    rw [h.mem_put_iff, ← or_assoc, ← or_assoc, hmem]
  · exact hdisj
  · exact fun o ho ↦ hnotRemoved o (Or.inl ho)
  · exact fun o ho ↦ hnotRemoved o (Or.inr ho)
  · have hc := h.count
    rw [List.length_append, List.length_append] at hlen
    simp only [hcount, hc]
    omega

/-- A put of fresh messages conserves. -/
theorem conserved_put {s : TransactionState} {msgs : List MessageExt} (h : s.Conserved)
    (hnodup : (offsets msgs).Nodup) (hfresh : ∀ o ∈ offsets msgs, o ∉ s.put) :
    ({ s with pq := (s.pq.putMessage msgs).1, put := s.put ++ offsets msgs } :
      TransactionState).Conserved := by
  have hnew : ∀ o ∈ offsets msgs, o ∉ s.pq.waiting ∧ o ∉ s.pq.taken ∧ o ∉ s.removed := by
    intro o ho
    have := hfresh o ho
    rw [h.mem_put_iff] at this
    tauto
  have hlen : (s.pq.putMessage msgs).1.waiting.length =
      (offsets msgs ++ s.pq.waiting).length := by
    apply length_eq_of_mem_iff (ProcessQueue.nodup_waiting _)
    · exact List.nodup_append.mpr ⟨hnodup, s.pq.nodup_waiting,
        fun o ho _ hp he ↦ (hnew o ho).1 (he ▸ hp)⟩
    · intro o
      rw [ProcessQueue.mem_waiting_putMessage, List.mem_append]
  constructor
  · intro o
    simp only [List.mem_append, ProcessQueue.mem_waiting_putMessage,
      ProcessQueue.taken_putMessage]
    rw [h.mem_put_iff]
    tauto
  · intro o ho
    rw [ProcessQueue.taken_putMessage]
    rcases (ProcessQueue.mem_waiting_putMessage _ _).mp ho with hm | hw
    · exact (hnew o hm).2.1
    · exact h.waiting_taken o hw
  · intro o ho
    rcases (ProcessQueue.mem_waiting_putMessage _ _).mp ho with hm | hw
    · exact (hnew o hm).2.2
    · exact h.waiting_removed o hw
  · intro o ho
    rw [ProcessQueue.taken_putMessage] at ho
    exact h.taken_removed o ho
  · have hc := h.count
    rw [List.length_append, length_offsets] at hlen
    simp only [ProcessQueue.msgCount_putMessage, ProcessQueue.taken_putMessage, hlen, hc]
    push_cast
    omega

/-- A commit conserves: the taken messages become removed ones. -/
theorem conserved_commit {s : TransactionState} (h : s.Conserved) :
    ({ s with pq := s.pq.commit.1, removed := s.removed ++ s.pq.taken } :
      TransactionState).Conserved := by
  constructor
  · intro o
    simp only [ProcessQueue.waiting_commit, ProcessQueue.taken_commit, List.mem_append]
    rw [h.mem_put_iff]
    simp only [List.not_mem_nil, false_or]
    tauto
  · simp
  · intro o ho
    rw [ProcessQueue.waiting_commit] at ho
    rw [List.mem_append, not_or]
    exact ⟨h.waiting_removed o ho, h.waiting_taken o ho⟩
  · simp
  · have hc := h.count
    simp only [ProcessQueue.msgCount_commit, ProcessQueue.waiting_commit,
      ProcessQueue.taken_commit, hc]
    simp

/-- A take conserves: the first buffered messages become taken ones. -/
theorem conserved_take {s : TransactionState} (h : s.Conserved) (batchSize : Int) :
    ({ s with pq := (s.pq.takeMessages batchSize).1 } : TransactionState).Conserved := by
  have htake : ∀ o, o ∈ (s.pq.takeMessages batchSize).1.waiting ↔
      o ∈ s.pq.waiting.drop batchSize.toNat := by
    intro o
    rw [← ProcessQueue.waiting_takeLocked]
    simp only [ProcessQueue.takeMessages]
    split <;> rfl
  have htaken : ∀ o, o ∈ (s.pq.takeMessages batchSize).1.taken ↔
      o ∈ s.pq.taken ∨ o ∈ s.pq.waiting.take batchSize.toNat := by
    intro o
    rw [← ProcessQueue.mem_taken_takeLocked]
    simp only [ProcessQueue.takeMessages]
    split <;> rfl
  have hsplit := List.take_append_drop batchSize.toNat s.pq.waiting
  have hnodup := s.pq.nodup_waiting
  rw [← hsplit, List.nodup_append] at hnodup
  apply conserved_of_moved h
  · simp only [ProcessQueue.takeMessages]
    split <;> rfl
  · intro o
    rw [htake, htaken]
    conv_rhs => rw [← hsplit, List.mem_append]
    tauto
  · intro o ho
    rw [htake] at ho
    rw [htaken, not_or]
    exact ⟨h.waiting_taken o (List.mem_of_mem_drop ho),
      fun hm ↦ hnodup.2.2 o hm o ho rfl⟩

/-- A rollback over nothing buffered conserves: the taken messages are buffered again. -/
theorem conserved_rollback {s : TransactionState} (h : s.Conserved) (hw : s.pq.waiting = []) :
    ({ s with pq := s.pq.rollback } : TransactionState).Conserved := by
  apply conserved_of_moved h
  · rfl
  · intro o
    simp [hw]
  · simp

/-- Giving taken messages back conserves. -/
theorem conserved_again {s : TransactionState} {msgs : List MessageExt} (h : s.Conserved)
    (htaken : ∀ o ∈ offsets msgs, o ∈ s.pq.taken) :
    ({ s with pq := s.pq.makeMessageToCosumeAgain msgs } : TransactionState).Conserved := by
  apply conserved_of_moved h
  · rfl
  · intro o
    rw [ProcessQueue.mem_waiting_again, ProcessQueue.mem_taken_again]
    have := htaken o
    tauto
  · intro o ho
    rw [ProcessQueue.mem_waiting_again] at ho
    rw [ProcessQueue.mem_taken_again]
    have := h.waiting_taken o
    tauto

/-- Every call but a rollback over buffered messages conserves. -/
theorem conserved_step (s : TransactionState) (op : QueueOp) (t : TransactionState)
    (h : s.Conserved) (hgood : s.RollbackOnEmpty op) (hstep : s.step op = some t) :
    t.Conserved := by
  cases op with
  | putMessage msgs =>
    simp only [step, Option.ite_none_right_eq_some, Option.some.injEq] at hstep
    obtain ⟨⟨hnodup, hfresh⟩, rfl⟩ := hstep
    exact conserved_put h hnodup hfresh
  | takeMessages batchSize =>
    simp only [step, Option.some.injEq] at hstep
    subst hstep
    exact conserved_take h batchSize
  | commit =>
    simp only [step, Option.some.injEq] at hstep
    subst hstep
    exact conserved_commit h
  | rollback =>
    simp only [step, Option.some.injEq] at hstep
    subst hstep
    exact conserved_rollback h hgood
  | makeMessageToCosumeAgain msgs =>
    simp only [step, Option.ite_none_right_eq_some, Option.some.injEq] at hstep
    obtain ⟨htaken, rfl⟩ := hstep
    exact conserved_again h htaken

/-- A rollback over buffered messages loses them. -/
theorem not_conserved_rollback (s : TransactionState) (op : QueueOp) (t : TransactionState)
    (h : s.Conserved) (hbad : ¬ s.RollbackOnEmpty op) (hstep : s.step op = some t) :
    ¬ t.Conserved := by
  cases op with
  | rollback =>
    simp only [step, Option.some.injEq] at hstep
    subst hstep
    obtain ⟨o, ho⟩ := List.exists_mem_of_ne_nil _ hbad
    intro ht
    have hput : o ∈ s.put := (h.mem_put_iff o).mpr (Or.inl ho)
    rcases (ht.mem_put_iff o).mp hput with hw | hn | hr
    · exact h.waiting_taken o ho hw
    · simp at hn
    · exact h.waiting_removed o ho hr
  | putMessage _ | takeMessages _ | commit | makeMessageToCosumeAgain _ =>
    exact absurd trivial hbad

/-- No message is lost in any state of a run exactly when every rollback of the run finds
nothing buffered behind the messages it returns. -/
theorem conserved_iff_rollbackOnEmpty (now : Nat) (ops : List QueueOp) (s : TransactionState)
    (hrun : Base.runFrom step (start now) ops = some s) :
    (∀ t, Base.Visits step (start now) ops t → t.Conserved) ↔
      Base.Along step RollbackOnEmpty (start now) ops :=
  Base.safe_iff_along (fun _ h ↦ h) conserved_step not_conserved_rollback
    (conserved_start now) hrun

/-- Two messages are put and taken one by one before both are returned. -/
def takeAll : List QueueOp :=
  [.putMessage [.at 1, .at 2], .takeMessages 1, .takeMessages 1, .rollback]

/-- No message is lost on the way, and both are buffered again at its end. -/
theorem conserved_iff_rollbackOnEmpty_take_all :
    (Base.runFrom step (start 0) takeAll).map (·.pq.waiting) = some [1, 2] ∧
      ∀ t, Base.Visits step (start 0) takeAll t → t.Conserved :=
  ⟨by decide, (conserved_iff_rollbackOnEmpty 0 takeAll _ rfl).mpr (by decide)⟩

/-- A message put behind a taken one is lost when the taken one is rolled back. -/
theorem rollback_loses_message :
    ∃ s, Base.runFrom step (start 0)
        [.putMessage [.at 1], .takeMessages 1, .putMessage [.at 2], .rollback] = some s ∧
      2 ∈ s.put ∧ 2 ∉ s.pq.waiting ∧ 2 ∉ s.pq.taken ∧ 2 ∉ s.removed ∧
      ¬ s.Conserved := by
  refine ⟨_, rfl, by decide, by decide, by decide, by decide, fun h ↦ ?_⟩
  have := (h.mem_put_iff 2).mp (by decide)
  revert this
  decide

end TransactionState
end RocketMQ
