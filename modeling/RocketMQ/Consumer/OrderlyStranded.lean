import RocketMQ.Consumer.Orderly

/-!
# Which loop exits strand an orderly queue

`m_consuming` keeps a put from dispatching, so as long as it is set some request of the queue
has to exist. The loop of `ConsumeOrderlyRequest::Do` clears the flag or registers a timer on
every exit but three: the queue is dropped, it is not locked, or its lock has expired
(`src/consumer/ConsumeMessageOrderlyService.cpp:352–375`). On the last two the source has
the call of `tryLockLaterAndReconsume` commented out.
-/

namespace RocketMQ

namespace OrderlyState

variable {mq : MessageQueue}

/-- When the queue is in use and has no request anywhere, the next put dispatches one. -/
def NotStranded (s : OrderlyState) : Prop :=
  s.queue.pq.dropped = false → s.requests = 0 → s.queue.pq.consuming = false

/-- The queue is dropped, or it has one request while `m_consuming` is set and none else. -/
def Attended (s : OrderlyState) : Prop :=
  s.queue.pq.dropped = true ∨ s.requests = if s.queue.pq.consuming then 1 else 0

/-- No test of the loop finds the lock of a queue gone that is in use. -/
def LockHeldAtTests (s : OrderlyState) : OrderlyEvent → Prop
  | .run i _ => s.queue.pq.dropped = true ∨ ∀ pc ∈ s.running[i]?, ¬ s.queue.LockBreak pc
  | .put _ | .start | .fire _ _ | .lock _ | .drop | .clock _ => True

instance : ∀ s e, Decidable (LockHeldAtTests s e)
  | _, .run _ _ => inferInstanceAs (Decidable (_ ∨ _))
  | _, .put _ | _, .start | _, .fire _ _ | _, .lock _ | _, .drop | _, .clock _ =>
    inferInstanceAs (Decidable True)

/-- A new queue is attended. -/
theorem attended_init (now : Nat) (store : RemoteBrokerOffsetStore) :
    (init now store).Attended :=
  Or.inr rfl

/-- An attended queue is not stranded. -/
theorem notStranded_of_attended {s : OrderlyState} (h : s.Attended) : s.NotStranded := by
  intro hdropped hnone
  rcases h with hd | hreq
  · rw [hdropped] at hd
    exact absurd hd (by simp)
  · rw [hnone] at hreq
    by_contra hc
    rw [Bool.not_eq_false] at hc
    simp [hc] at hreq

/-- A running request of an attended queue in use is the only one, and `m_consuming` is set. -/
theorem Attended.of_running {s : OrderlyState} (h : s.Attended)
    (hdropped : s.queue.pq.dropped = false) {i : Nat} {pc : OrderlyPc}
    (hi : s.running[i]? = some pc) : s.requests = 1 ∧ s.queue.pq.consuming = true := by
  have hlt := (List.getElem?_eq_some_iff.mp hi).1
  rcases h with hd | hreq
  · rw [hdropped] at hd
    exact absurd hd (by simp)
  · cases hc : s.queue.pq.consuming with
    | true => exact ⟨by rw [hreq, hc]; rfl, rfl⟩
    | false =>
      rw [hc, requests] at hreq
      simp only [Bool.false_eq_true, if_false] at hreq
      omega

/-- Every step that finds the lock held at its test keeps the queue attended. -/
theorem attended_step (s : OrderlyState) (e : OrderlyEvent) (t : OrderlyState)
    (h : s.Attended) (hgood : s.LockHeldAtTests e) (hstep : s.step mq e = some t) :
    t.Attended := by
  cases hdropped : s.queue.pq.dropped with
  | true => exact Or.inl (dropped_step hstep hdropped)
  | false =>
    have hrunning : ∀ (i : Nat) (pc : OrderlyPc), s.running[i]? = some pc →
        s.queue.pq.consuming = true :=
      fun i pc hi ↦ (h.of_running hdropped hi).2
    have hreq : s.requests = if s.queue.pq.consuming then 1 else 0 := by
      rcases h with hd | hreq
      · rw [hdropped] at hd
        exact absurd hd (by simp)
      · exact hreq
    rcases requests_step hrunning hstep with hbalance | ⟨i, input, pc, rfl, hi, hbreak, -⟩
    · exact Or.inr (by omega)
    · rw [LockHeldAtTests, hdropped] at hgood
      rw [hdropped] at hbreak
      have hno := hgood.resolve_left (by simp) pc hi
      exact absurd (hbreak.resolve_left (by simp)) hno

/-- A test that finds the lock gone strands the queue at once. -/
theorem stranded_step (s : OrderlyState) (e : OrderlyEvent) (t : OrderlyState)
    (h : s.Attended) (hbad : ¬ s.LockHeldAtTests e) (hstep : s.step mq e = some t) :
    ¬ t.NotStranded := by
  cases e with
  | put _ | start | fire _ _ | lock _ | drop | clock _ => exact absurd trivial hbad
  | run i input =>
    simp only [LockHeldAtTests, not_or, not_forall, not_not, Bool.not_eq_true] at hbad
    obtain ⟨hdropped, pc, hi, hbreak⟩ := hbad
    have hi' : s.running[i]? = some pc := hi
    obtain ⟨hone, hc⟩ := h.of_running hdropped hi'
    have hlt := (List.getElem?_eq_some_iff.mp hi').1
    have hpc : pc ≠ .fetchLock := by
      rintro rfl
      exact hbreak
    obtain ⟨q, next, hdo, rfl⟩ := doStep_of_step hi' hpc hstep
    obtain ⟨rfl, rfl⟩ := OrderlyQueue.doStep_of_lockBreak hbreak hdo
    intro hsafe
    have hzero : (s.goNext i s.queue .leave).requests = 0 := by
      rw [requests] at hone
      simp only [requests, goNext, List.length_eraseIdx, hlt, if_true]
      omega
    have hcons : s.queue.pq.consuming = false := hsafe hdropped hzero
    rw [hc] at hcons
    exact absurd hcons (by simp)

/-- No state of a run has the queue stranded exactly when no test of the loop in that run
finds the queue in use and its lock lost or expired. -/
theorem notStranded_iff_lockHeldAtTests (now : Nat) (store : RemoteBrokerOffsetStore)
    (es : List OrderlyEvent) (s : OrderlyState)
    (hrun : Base.runFrom (step mq) (init now store) es = some s) :
    (∀ t, Base.Visits (step mq) (init now store) es t → t.NotStranded) ↔
      Base.Along (step mq) LockHeldAtTests (init now store) es :=
  Base.safe_iff_along (fun _ ↦ notStranded_of_attended) attended_step stranded_step
    (attended_init now store) hrun

/-- The lock is lost while a batch is suspended, and expired when the next request enters. -/
def suspendedAndExpired : List OrderlyEvent :=
  [.lock true, .put [.at 5], .start] ++ List.replicate 6 (.run 0 .go) ++
    [.run 0 (.batchSize 1), .run 0 (.answer ⟨none, true, 1000⟩), .lock false, .run 0 .go,
      .clock 40000, .fire 0 true, .start] ++ List.replicate 3 (.run 0 .go)

/-- The queue is never stranded on the way. -/
theorem notStranded_iff_lockHeldAtTests_suspended :
    (Base.runFrom (step ⟨str "t", str "b", 0⟩) (init 0 ⟨str "g", ∅⟩) suspendedAndExpired).isSome ∧
      ∀ t, Base.Visits (step ⟨str "t", str "b", 0⟩) (init 0 ⟨str "g", ∅⟩) suspendedAndExpired t →
        t.NotStranded := by
  have hrun : (Base.runFrom (step ⟨str "t", str "b", 0⟩) (init 0 ⟨str "g", ∅⟩)
      suspendedAndExpired).isSome := by
    decide +kernel
  obtain ⟨s, hs⟩ := Option.isSome_iff_exists.mp hrun
  exact ⟨hrun, (notStranded_iff_lockHeldAtTests 0 ⟨str "g", ∅⟩ _ s hs).mpr (by decide +kernel)⟩

/-- The lock time of a new queue is young, so its first request enters the loop without the lock;
it ends at the next test, `m_consuming` stays set, and the next put dispatches nothing. -/
theorem unlocked_queue_strands :
    ∃ s, Base.runFrom (step ⟨str "t", str "b", 0⟩) (init 0 ⟨str "g", ∅⟩)
        ([.put [.at 5], .start] ++ List.replicate 5 (.run 0 .go) ++ [.put [.at 6]]) = some s ∧
      s.queue.pq.waiting = [5, 6] ∧ s.requests = 0 ∧ ¬ s.NotStranded := by
  have hend : (Base.runFrom (step ⟨str "t", str "b", 0⟩) (init 0 ⟨str "g", ∅⟩)
      ([.put [.at 5], .start] ++ List.replicate 5 (.run 0 .go) ++ [.put [.at 6]])).any
        (fun s ↦ s.queue.pq.waiting = [5, 6] ∧ s.requests = 0 ∧ s.queue.pq.dropped = false ∧
          s.queue.pq.consuming = true) = true := by
    decide +kernel
  obtain ⟨s, hrun, hflags⟩ := (Option.any_eq_true _ _).mp hend
  obtain ⟨hwaiting, hnone, hdropped, hconsuming⟩ := of_decide_eq_true hflags
  refine ⟨s, hrun, hwaiting, hnone, fun hsafe ↦ ?_⟩
  exact Bool.noConfusion (hconsuming.symm.trans (hsafe hdropped hnone))

end OrderlyState
end RocketMQ
