import RocketMQ.Consumer.OrderlyStranded

/-!
# A put between the two parts of a take

`takeMessages` finds the buffer empty under the lock and writes `m_consuming = false` after it
(`src/consumer/ProcessQueue.cpp:233–268`). A put in between sees the flag still set and dispatches
nothing, and the write then leaves its messages without a request. The runs below are those in
which the queue stays locked and in use.
-/

namespace RocketMQ

namespace OrderlyQueue

variable {mq : MessageQueue} {q q' : OrderlyQueue} {pc : OrderlyPc} {input : OrderlyInput}
  {next : OrderlyNext}

private theorem consuming_processConsumeResult (pq : ProcessQueue) (msgs : List MessageExt)
    (status : ConsumeOrderlyStatus) (autoCommit : Bool) :
    (ConsumeMessageOrderlyService.processConsumeResult pq msgs status autoCommit).1.consuming =
      pq.consuming := by
  cases autoCommit <;> cases status <;> first | rfl | exact pq.consuming_commit

/-- Only the write of an empty take clears `m_consuming`, and it leaves the buffer alone. -/
theorem doStep_clears (h : q.doStep mq pc input = some (q', next))
    (hbefore : q.pq.consuming = true) (hafter : q'.pq.consuming = false) :
    pc = .clearConsuming ∧ q'.pq.waiting = q.pq.waiting := by
  have hkept : q'.pq.consuming ≠ q.pq.consuming := by
    rw [hbefore, hafter]
    simp
  cases doStepped_of_doStep h with
  | clearConsuming => exact ⟨rfl, rfl⟩
  | answer beginTime msgs answer =>
    exact absurd (consuming_processConsumeResult q.pq msgs _ answer.autoCommit) hkept
  | test | take | updateOffset | suspend => exact absurd rfl hkept

/-- A request is about to clear `m_consuming` only after a take that returned nothing. -/
theorem doStep_takesNothing (h : q.doStep mq pc input = some (q', .goOn .clearConsuming)) :
    ∃ consumeBatchSize : Int, input = .batchSize consumeBatchSize ∧
      q.pq.waiting.take consumeBatchSize.toNat = [] ∧
      q'.pq.waiting = q.pq.waiting.drop consumeBatchSize.toNat := by
  generalize hnext : OrderlyNext.goOn .clearConsuming = next at h
  cases doStepped_of_doStep h with
  | test hpc hbetween =>
    rw [← hnext] at hbetween
    exact (hbetween .clearConsuming rfl).elim
  | take beginTime consumeBatchSize =>
    refine ⟨consumeBatchSize, rfl, ?_, q.pq.waiting_takeLocked consumeBatchSize⟩
    rw [← q.pq.offsets_takeLocked]
    rw [OrderlyNext.goOn.injEq] at hnext
    split_ifs at hnext with hempty
    rw [List.isEmpty_iff.mp hempty]
    rfl
  | answer beginTime msgs answer =>
    obtain ⟨pc', hgoOn, hpc'⟩ := q.answered_next beginTime msgs answer
    rw [hgoOn] at hnext
    cases hnext
    simp at hpc'
  | clearConsuming | updateOffset | suspend => cases hnext

end OrderlyQueue

namespace OrderlyState

variable {mq : MessageQueue} {s t : OrderlyState} {e : OrderlyEvent}

/-- The queue is not dropped, and no test of the loop finds its lock lost or expired. -/
def StaysLocked (s : OrderlyState) : OrderlyEvent → Prop
  | .drop => False
  | .run i _ => ∀ pc ∈ s.running[i]?, ¬ s.queue.LockBreak pc
  | .put _ | .start | .fire _ _ | .lock _ | .clock _ => True

instance : ∀ s e, Decidable (StaysLocked s e)
  | _, .drop => inferInstanceAs (Decidable False)
  | _, .run _ _ => inferInstanceAs (Decidable (∀ _ ∈ _, ¬ _))
  | _, .put _ | _, .start | _, .fire _ _ | _, .lock _ | _, .clock _ =>
    inferInstanceAs (Decidable True)

/-- One step while the queue stays locked and in use. -/
def heldStep (mq : MessageQueue) (s : OrderlyState) (e : OrderlyEvent) : Option OrderlyState :=
  if s.StaysLocked e then s.step mq e else none

/-- When messages are buffered, a request is running, waits for a timer, or is owed by a put. -/
def Dispatched (s : OrderlyState) : Prop := s.queue.pq.waiting ≠ [] → 0 < s.requests

/-- A request clears `m_consuming` only while nothing is buffered. -/
def ClearsEmpty (s : OrderlyState) : OrderlyEvent → Prop
  | .run i _ => s.running[i]? = some .clearConsuming → s.queue.pq.waiting = []
  | .put _ | .start | .fire _ _ | .lock _ | .drop | .clock _ => True

instance : ∀ s e, Decidable (ClearsEmpty s e)
  | _, .run _ _ => inferInstanceAs (Decidable (_ → _))
  | _, .put _ | _, .start | _, .fire _ _ | _, .lock _ | _, .drop | _, .clock _ =>
    inferInstanceAs (Decidable True)

/-- The queue is in use, its request comes and goes with `m_consuming`, and nothing is buffered
while the flag is clear. -/
structure Owed (s : OrderlyState) : Prop where
  inUse : s.queue.pq.dropped = false
  requests : s.requests = if s.queue.pq.consuming then 1 else 0
  empty : s.queue.pq.consuming = false → s.queue.pq.waiting = []

theorem owed_init (now : Nat) (store : RemoteBrokerOffsetStore) : (init now store).Owed :=
  ⟨rfl, rfl, fun _ ↦ by simp [init, ProcessQueue.waiting, ProcessQueue.new]⟩

theorem Owed.attended (h : s.Owed) : s.Attended := .inr h.requests

/-- Buffered messages have a request. -/
theorem Owed.dispatched (h : s.Owed) : s.Dispatched := by
  intro hwaiting
  rw [h.requests]
  by_cases hc : s.queue.pq.consuming = true
  · rw [if_pos hc]
    exact Nat.one_pos
  · rw [Bool.not_eq_true] at hc
    exact absurd (h.empty hc) hwaiting

/-! ### What a step does to the buffer -/

theorem heldStep_eq_some : s.heldStep mq e = some t ↔ s.StaysLocked e ∧ s.step mq e = some t := by
  rw [heldStep, Option.ite_none_right_eq_some]

/-- A put after which the flag is clear has buffered nothing. -/
theorem waiting_putMessage_of_clear {pq : ProcessQueue} {msgs : List MessageExt}
    (h : (pq.putMessage msgs).1.consuming = false) : (pq.putMessage msgs).1.waiting = [] := by
  rw [ProcessQueue.putMessage] at h ⊢
  split_ifs at h ⊢ with hput
  · have hclear : pq.consuming = false := h
    simp only [hclear, Bool.not_false, Bool.and_true, Bool.not_eq_true', Bool.not_eq_false,
      List.isEmpty_iff] at hput
    exact hput

/-- Nothing is buffered while the flag is clear, after a step that clears it on an empty buffer. -/
theorem Owed.empty_step (h : s.Owed) (hgood : s.ClearsEmpty e) (hstep : s.step mq e = some t) :
    t.queue.pq.consuming = false → t.queue.pq.waiting = [] := by
  intro hclear
  cases stepped_of_step hstep with
  | put msgs => exact waiting_putMessage_of_clear hclear
  | doStep hi hpast hdo =>
    rw [queue_goNext] at hclear ⊢
    have hset := (h.attended.of_running h.inUse hi).2
    obtain ⟨rfl, hsame⟩ := OrderlyQueue.doStep_clears hdo hset hclear
    rw [hsame]
    exact hgood hi
  | fireLock lockOK => cases lockOK <;> exact h.empty hclear
  | lock granted => cases granted <;> exact h.empty hclear
  | start | takeLock | fireSubmit | drop | clock => exact h.empty hclear

theorem StaysLocked.lockHeldAtTests (h : s.StaysLocked e) : s.LockHeldAtTests e := by
  cases e with
  | run i input => exact .inr h
  | drop => exact trivial
  | put _ | start | fire _ _ | lock _ | clock _ => exact trivial

/-- A step that clears the flag only on an empty buffer. -/
theorem owed_step (s : OrderlyState) (e : OrderlyEvent) (t : OrderlyState) (h : s.Owed)
    (hgood : s.ClearsEmpty e) (hstep : s.heldStep mq e = some t) : t.Owed := by
  obtain ⟨hlocked, hstep⟩ := heldStep_eq_some.mp hstep
  have hinUse : t.queue.pq.dropped = false := by
    rw [dropped_eq_of_step hstep, h.inUse]
    rintro rfl
    exact hlocked
  refine ⟨hinUse, ?_, h.empty_step hgood hstep⟩
  rcases attended_step s e t h.attended hlocked.lockHeldAtTests hstep with hdropped | hrequests
  · rw [hinUse] at hdropped
    cases hdropped
  · exact hrequests

/-- Clearing the flag while messages are buffered leaves them without a request. -/
theorem not_dispatched_step (s : OrderlyState) (e : OrderlyEvent) (t : OrderlyState) (h : s.Owed)
    (hbad : ¬ s.ClearsEmpty e) (hstep : s.heldStep mq e = some t) : ¬ t.Dispatched := by
  obtain ⟨-, hstep⟩ := heldStep_eq_some.mp hstep
  cases e with
  | put _ | start | fire _ _ | lock _ | drop | clock _ => exact absurd trivial hbad
  | run i input =>
    rw [ClearsEmpty, Classical.not_imp] at hbad
    obtain ⟨hi, hwaiting⟩ := hbad
    obtain ⟨q, next, hdo, rfl⟩ := doStep_of_step hi (by simp) hstep
    have hone := (h.attended.of_running h.inUse hi).1
    have hlt := (List.getElem?_eq_some_iff.mp hi).1
    cases input with
    | batchSize _ | answer _ => cases hdo
    | go =>
      cases hdo
      intro hdispatched
      have hpos := hdispatched hwaiting
      rw [requests] at hone
      simp only [requests, goNext, List.length_eraseIdx, hlt, if_true] at hpos
      omega

/-- Buffered messages have a request throughout a run exactly when `m_consuming` is only cleared
while nothing is buffered. -/
theorem dispatched_iff_clearsEmpty (now : Nat) (store : RemoteBrokerOffsetStore)
    (es : List OrderlyEvent) (s : OrderlyState)
    (hrun : Base.runFrom (heldStep mq) (init now store) es = some s) :
    (∀ t, Base.Visits (heldStep mq) (init now store) es t → t.Dispatched) ↔
      Base.Along (heldStep mq) ClearsEmpty (init now store) es :=
  Base.safe_iff_along (fun _ ↦ Owed.dispatched) owed_step not_dispatched_step
    (owed_init now store) hrun

/-! ### Where a put may fall -/

/-- No messages are put between an empty take and its write, and no take asks for nothing;
`checkConfig` keeps the batch size positive. -/
def PutsOutside (s : OrderlyState) : OrderlyEvent → Prop
  | .put msgs => msgs ≠ [] → .clearConsuming ∉ s.running
  | .run _ (.batchSize consumeBatchSize) => 0 < consumeBatchSize
  | .run _ .go | .run _ (.answer _) | .start | .fire _ _ | .lock _ | .drop | .clock _ => True

/-- Nothing is buffered while a request is about to clear the flag. -/
def ClearsNext (s : OrderlyState) : Prop := .clearConsuming ∈ s.running → s.queue.pq.waiting = []

theorem waiting_putMessage_nil (pq : ProcessQueue) : (pq.putMessage []).1.waiting = pq.waiting := by
  apply Base.KeyedMap.sorted_ext (Base.KeyedMap.keys_sorted _) (Base.KeyedMap.keys_sorted _)
  intro k
  exact (pq.mem_waiting_putMessage []).trans (or_iff_right List.not_mem_nil)

/-- The only request of the queue goes on or ends. -/
theorem Owed.running_goNext (h : s.Owed) {i : Nat} {pc : OrderlyPc} (hi : s.running[i]? = some pc)
    {q : OrderlyQueue} {next : OrderlyNext}
    (hclear : .clearConsuming ∈ (s.goNext i q next).running) : next = .goOn .clearConsuming := by
  have hone := (h.attended.of_running h.inUse hi).1
  have hlt := (List.getElem?_eq_some_iff.mp hi).1
  obtain ⟨pc', hrunning⟩ : ∃ pc', s.running = [pc'] := by
    rw [← List.length_eq_one_iff]
    rw [OrderlyState.requests] at hone
    omega
  rw [hrunning, List.length_singleton, Nat.lt_one_iff] at hlt
  subst hlt
  cases next with
  | goOn pc'' =>
    have hmem : OrderlyPc.clearConsuming ∈ s.running.set 0 pc'' := hclear
    rw [hrunning, List.set_cons_zero, List.mem_singleton] at hmem
    rw [hmem]
  | leave | leaveLater =>
    have hmem : OrderlyPc.clearConsuming ∈ s.running.eraseIdx 0 := hclear
    rw [hrunning] at hmem
    cases hmem

theorem clearsNext_step (h : s.Owed) (hnext : s.ClearsNext) (hgood : s.PutsOutside e)
    (hstep : s.step mq e = some t) : t.ClearsNext := by
  intro hclear
  cases stepped_of_step hstep with
  | put msgs =>
    by_cases hmsgs : msgs = []
    · subst hmsgs
      exact (waiting_putMessage_nil s.queue.pq).trans (hnext hclear)
    · exact absurd hclear (hgood hmsgs)
  | start hpos =>
    rcases List.mem_append.mp hclear with hold | hnew
    · exact hnext hold
    · cases List.mem_singleton.mp hnew
  | takeLock hi =>
    rcases List.mem_or_eq_of_mem_set hclear with hold | hnew
    · exact hnext hold
    · cases hnew
  | doStep hi hpast hdo =>
    obtain rfl := h.running_goNext hi hclear
    obtain ⟨consumeBatchSize, rfl, htake, hdrop⟩ := OrderlyQueue.doStep_takesNothing hdo
    have hpos : 0 < consumeBatchSize.toNat := by
      have hbatch : 0 < consumeBatchSize := hgood
      omega
    rw [queue_goNext, hdrop]
    cases hwaiting : s.queue.pq.waiting with
    | nil => exact List.drop_nil
    | cons first rest =>
      obtain ⟨n, hn⟩ := Nat.exists_eq_succ_of_ne_zero hpos.ne'
      rw [hwaiting, hn] at htake
      cases htake
  | fireLock lockOK => cases lockOK <;> exact hnext hclear
  | lock granted => cases granted <;> exact hnext hclear
  | fireSubmit | drop | clock => exact hnext hclear

/-- In a run without puts between the two parts of a take the flag is only cleared while nothing is
buffered. -/
theorem clearsEmpty_of_putsOutside (now : Nat) (store : RemoteBrokerOffsetStore)
    {es : List OrderlyEvent} (h : Base.Along (heldStep mq) PutsOutside (init now store) es) :
    Base.Along (heldStep mq) ClearsEmpty (init now store) es := by
  have hclears : ∀ s : OrderlyState, s.ClearsNext → ∀ e, s.ClearsEmpty e := by
    intro s hnext e
    cases e with
    | run i input => exact fun hi ↦ hnext (List.mem_of_getElem? hi)
    | put _ | start | fire _ _ | lock _ | drop | clock _ => exact trivial
  refine Base.along_of_along (fun s e t (hinv : s.Owed ∧ s.ClearsNext) hgood hstep ↦ ?_)
    (fun s e hinv _ ↦ hclears s hinv.2 e)
    ⟨owed_init now store, fun hmem ↦ absurd hmem List.not_mem_nil⟩ h
  exact ⟨owed_step s e t hinv.1 (hclears s hinv.2 e) hstep,
    clearsNext_step hinv.1 hinv.2 hgood (heldStep_eq_some.mp hstep).2⟩

/-- Two puts, the second while the batch of the first is with the listener. -/
def putWhileListening : List OrderlyEvent :=
  [.lock true, .put [.at 5], .start] ++ List.replicate 6 (.run 0 .go) ++
    [.run 0 (.batchSize 1), .put [.at 6], .run 0 (.answer ⟨some .success, true, 0⟩)]

theorem putWhileListening_dispatched :
    (Base.runFrom (heldStep ⟨str "t", str "b", 0⟩) (init 0 ⟨str "g", ∅⟩)
        putWhileListening).isSome ∧
      ∀ t, Base.Visits (heldStep ⟨str "t", str "b", 0⟩) (init 0 ⟨str "g", ∅⟩)
        putWhileListening t → t.Dispatched := by
  have hrun : (Base.runFrom (heldStep ⟨str "t", str "b", 0⟩) (init 0 ⟨str "g", ∅⟩)
      putWhileListening).isSome := by
    decide +kernel
  obtain ⟨s, hs⟩ := Option.isSome_iff_exists.mp hrun
  exact ⟨hrun, (dispatched_iff_clearsEmpty 0 ⟨str "g", ∅⟩ _ s hs).mpr (by decide +kernel)⟩

/-- The request has consumed its batch and found nothing more, and before it clears the flag the
next batch is put. -/
def putBeforeClear : List OrderlyEvent :=
  [.lock true, .put [.at 5], .start] ++ List.replicate 6 (.run 0 .go) ++
    [.run 0 (.batchSize 1), .run 0 (.answer ⟨some .success, true, 0⟩)] ++
    List.replicate 5 (.run 0 .go) ++ [.run 0 (.batchSize 1), .put [.at 6], .run 0 .go]

/-- The batch waits without a request, and the flag is clear. -/
theorem putBeforeClear_waits :
    ∃ s, Base.runFrom (heldStep ⟨str "t", str "b", 0⟩) (init 0 ⟨str "g", ∅⟩) putBeforeClear =
        some s ∧
      s.queue.pq.waiting = [6] ∧ s.queue.pq.consuming = false ∧ s.requests = 0 ∧
      ¬ s.Dispatched := by
  refine ⟨_, (Option.some_get (by decide +kernel)).symm, by decide +kernel, by decide +kernel,
    by decide +kernel, fun h ↦ ?_⟩
  have hpos := h (by decide +kernel)
  revert hpos
  decide +kernel

end OrderlyState
end RocketMQ
