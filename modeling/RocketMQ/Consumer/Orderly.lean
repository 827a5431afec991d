import RocketMQ.Base.Run
import RocketMQ.Consumer.OffsetStore
import RocketMQ.Consumer.ProcessQueue

/-!
# Orderly consumption of one queue

`src/consumer/ConsumeMessageOrderlyService.cpp` as a step function: pulls put messages, pool
threads run `ConsumeOrderlyRequest::Do`, timers submit requests again, and meanwhile the
queue's lock is granted and lost, the queue is dropped and the clock moves. A step of a
running request is one test of its loop or one locked operation; the tests read fields that
others write. A put is `putMessage` with the `submitConsumeRequest` that its result asks for.
-/

namespace RocketMQ

/-- `ConsumeOrderlyStatus`, `include/MessageListener.h:37–43`. -/
inductive ConsumeOrderlyStatus where
  | success
  | rollback
  | commit
  | suspendCurrentQueueAMoment
deriving DecidableEq

/-- What a listener leaves behind: its status, none when it throws, and the context. -/
structure ListenerAnswer where
  status : Option ConsumeOrderlyStatus
  autoCommit : Bool
  suspendCurrentQueueTimeMillis : Int
deriving DecidableEq

/-- A timer of `m_scheduledExecutorService` that belongs to the queue, with its delay. -/
inductive OrderlyTimer where
  | tryLockLaterAndReconsume (delayMills : Int)
  | submitConsumeRequestLater (timeMillis : Int)
deriving DecidableEq

/-- Where a running `ConsumeOrderlyRequest::Do` is. The loop remembers when it was entered. -/
inductive OrderlyPc where
  | fetchLock
  | testEntryLocked
  | testEntryExpired
  | testDropped (beginTime : Nat)
  | testLocked (beginTime : Nat)
  | testExpired (beginTime : Nat)
  | testInterval (beginTime : Nat)
  | take (beginTime : Nat)
  | clearConsuming
  | listening (beginTime : Nat) (msgs : List MessageExt)
  | updateOffset (beginTime : Nat) (commitOffset : Int)
  | suspend (timeMillis : Int)
deriving DecidableEq

/-- What a step of a running request needs from outside. -/
inductive OrderlyInput where
  | go
  | batchSize (consumeBatchSize : Int)
  | answer (answer : ListenerAnswer)
deriving DecidableEq

/-- The queue, the clock and the offset store, with all offsets put so far, the batches
committed so far, and for every stored offset the last one committed before it. -/
structure OrderlyQueue where
  pq : ProcessQueue
  now : Nat
  store : RemoteBrokerOffsetStore
  put : List Int
  committed : List (List Int)
  stored : List (Int × Option Int)

/-- How `Do` goes on after a step: it is somewhere else in its body, or it ends, and may
have registered a timer before that. -/
inductive OrderlyNext where
  | goOn (pc : OrderlyPc)
  | leave
  | leaveLater (timer : OrderlyTimer)

namespace ConsumeMessageOrderlyService

/-- `s_MaxTimeConsumeContinuously`, `src/consumer/ConsumeMessageOrderlyService.cpp:52`. -/
def maxTimeConsumeContinuously : Int := 60000

/-- `src/consumer/ConsumeMessageOrderlyService.cpp:180–196`. -/
def submitConsumeRequestLater (suspendTimeMillis : Int) : OrderlyTimer :=
  .submitConsumeRequestLater
    (if suspendTimeMillis < 10 then 10
     else if suspendTimeMillis > 30000 then 30000
     else suspendTimeMillis)

/-- Whether `processConsumeResult` commits what is taken. -/
def commits (status : ConsumeOrderlyStatus) (autoCommit : Bool) : Bool :=
  match status with
  | .commit => true
  | .success | .rollback => autoCommit
  | .suspendCurrentQueueAMoment => false

/-- `src/consumer/ConsumeMessageOrderlyService.cpp:230–303`, up to the update of the offset
store: the buffer, the offset to commit and whether the loop continues. -/
def processConsumeResult (pq : ProcessQueue) (msgs : List MessageExt)
    (status : ConsumeOrderlyStatus) (autoCommit : Bool) : ProcessQueue × Int × Bool :=
  if autoCommit then
    match status with
    | .commit | .rollback | .success =>
      let (pq', commitOffset) := pq.commit
      (pq', commitOffset, true)
    | .suspendCurrentQueueAMoment => (pq.makeMessageToCosumeAgain msgs, -1, false)
  else
    match status with
    | .success => (pq, -1, true)
    | .commit =>
      let (pq', commitOffset) := pq.commit
      (pq', commitOffset, true)
    | .rollback => (pq.rollback, -1, false)
    | .suspendCurrentQueueAMoment => (pq.makeMessageToCosumeAgain msgs, -1, false)

end ConsumeMessageOrderlyService

namespace OrderlyQueue

open ConsumeMessageOrderlyService

/-- The call of `processConsumeResult` when the listener has answered; an exception leaves
the initial status, `src/consumer/ConsumeMessageOrderlyService.cpp:398–441`. -/
def answered (q : OrderlyQueue) (beginTime : Nat) (msgs : List MessageExt)
    (answer : ListenerAnswer) : OrderlyQueue × OrderlyNext :=
  let status := answer.status.getD .suspendCurrentQueueAMoment
  let (pq, commitOffset, continueConsume) :=
    processConsumeResult q.pq msgs status answer.autoCommit
  let committed :=
    if commits status answer.autoCommit then q.committed ++ [q.pq.taken] else q.committed
  ({ q with pq, committed },
    if !continueConsume then .goOn (.suspend answer.suspendCurrentQueueTimeMillis)
    else if commitOffset ≥ 0 then .goOn (.updateOffset beginTime commitOffset)
    else .goOn (.testDropped beginTime))

/-- One step of `ConsumeOrderlyRequest::Do` once it has the object lock,
`src/consumer/ConsumeMessageOrderlyService.cpp:339–456`. -/
def doStep (mq : MessageQueue) (q : OrderlyQueue) :
    OrderlyPc → OrderlyInput → Option (OrderlyQueue × OrderlyNext)
  | .testEntryLocked, .go =>
    some (q, .goOn (if q.pq.locked then .testDropped q.now else .testEntryExpired))
  | .testEntryExpired, .go =>
    some (q, if !q.pq.isLockExpired q.now then .goOn (.testDropped q.now)
      else .leaveLater (.tryLockLaterAndReconsume 10))
  | .testDropped beginTime, .go =>
    some (q, if q.pq.dropped then .leave else .goOn (.testLocked beginTime))
  | .testLocked beginTime, .go =>
    some (q, if !q.pq.locked then .leave else .goOn (.testExpired beginTime))
  | .testExpired beginTime, .go =>
    some (q, if q.pq.isLockExpired q.now then .leave else .goOn (.testInterval beginTime))
  | .testInterval beginTime, .go =>
    some (q, if (q.now : Int) - beginTime > maxTimeConsumeContinuously then
        .leaveLater (submitConsumeRequestLater 10)
      else .goOn (.take beginTime))
  | .take beginTime, .batchSize consumeBatchSize =>
    let (pq, msgs) := q.pq.takeLocked consumeBatchSize
    some ({ q with pq },
      .goOn (if msgs.isEmpty then .clearConsuming else .listening beginTime msgs))
  | .clearConsuming, .go => some ({ q with pq := q.pq.clearConsuming }, .leave)
  | .listening beginTime msgs, .answer answer => some (q.answered beginTime msgs answer)
  | .updateOffset beginTime commitOffset, .go =>
    some ({ q with
        store := q.store.updateOffset mq commitOffset false
        stored := q.stored ++ [(commitOffset, q.committed.flatten.getLast?)] },
      .goOn (.testDropped beginTime))
  | .suspend timeMillis, .go => some (q, .leaveLater (submitConsumeRequestLater timeMillis))
  | _, _ => none

end OrderlyQueue

/-- Where the request is after a step, if it goes on. -/
def OrderlyNext.pc : OrderlyNext → Option OrderlyPc
  | .goOn pc => some pc
  | .leave | .leaveLater _ => none

namespace OrderlyQueue

open ConsumeMessageOrderlyService

/-- The loop is about to end because the queue is not locked any more,
`src/consumer/ConsumeMessageOrderlyService.cpp:361–375`. -/
def LockBreak (q : OrderlyQueue) : OrderlyPc → Prop
  | .testLocked _ => q.pq.locked = false
  | .testExpired _ => q.pq.isLockExpired q.now = true
  | _ => False

instance (q : OrderlyQueue) : ∀ pc, Decidable (q.LockBreak pc)
  | .testLocked _ | .testExpired _ => inferInstanceAs (Decidable (_ = _))
  | .fetchLock | .testEntryLocked | .testEntryExpired | .testDropped _ | .testInterval _
  | .take _ | .clearConsuming | .listening _ _ | .updateOffset _ _ | .suspend _ =>
    inferInstanceAs (Decidable False)

/-- A test of the loop, or the take behind them: nothing is with the listener and no offset is
due. -/
def Between : OrderlyPc → Prop
  | .testEntryLocked | .testEntryExpired | .testDropped _ | .testLocked _ | .testExpired _
  | .testInterval _ | .take _ => True
  | .fetchLock | .clearConsuming | .listening _ _ | .updateOffset _ _ | .suspend _ => False

/-- What a step of a request can do, one case for each way it can go. The tests are one case: the
request goes on to another test, registers a timer, or ends because the queue is dropped or its
lock is gone. -/
inductive DoStepped (mq : MessageQueue) (q : OrderlyQueue) :
    OrderlyPc → OrderlyInput → OrderlyQueue → OrderlyNext → Prop where
  | test {pc : OrderlyPc} {next : OrderlyNext} (hpc : Between pc)
      (hnext : ∀ pc' ∈ next.pc, Between pc')
      (hleave : next = .leave → q.pq.dropped = true ∨ q.LockBreak pc) :
    DoStepped mq q pc .go q next
  | take (beginTime : Nat) (consumeBatchSize : Int) :
    DoStepped mq q (.take beginTime) (.batchSize consumeBatchSize)
      { q with pq := (q.pq.takeLocked consumeBatchSize).1 }
      (.goOn (if (q.pq.takeLocked consumeBatchSize).2.isEmpty then .clearConsuming
        else .listening beginTime (q.pq.takeLocked consumeBatchSize).2))
  | clearConsuming :
    DoStepped mq q .clearConsuming .go { q with pq := q.pq.clearConsuming } .leave
  | answer (beginTime : Nat) (msgs : List MessageExt) (answer : ListenerAnswer) :
    DoStepped mq q (.listening beginTime msgs) (.answer answer)
      (q.answered beginTime msgs answer).1 (q.answered beginTime msgs answer).2
  | updateOffset (beginTime : Nat) (commitOffset : Int) :
    DoStepped mq q (.updateOffset beginTime commitOffset) .go
      { q with
        store := q.store.updateOffset mq commitOffset false
        stored := q.stored ++ [(commitOffset, q.committed.flatten.getLast?)] }
      (.goOn (.testDropped beginTime))
  | suspend (timeMillis : Int) :
    DoStepped mq q (.suspend timeMillis) .go q
      (.leaveLater (submitConsumeRequestLater timeMillis))

/-- Every step of a request goes one of these ways. -/
theorem doStepped_of_doStep {mq : MessageQueue} {q q' : OrderlyQueue} {pc : OrderlyPc}
    {input : OrderlyInput} {next : OrderlyNext} (h : q.doStep mq pc input = some (q', next)) :
    DoStepped mq q pc input q' next := by
  unfold doStep at h
  split at h
  case h_7 beginTime consumeBatchSize =>
    cases h
    exact .take beginTime consumeBatchSize
  case h_8 =>
    cases h
    exact .clearConsuming
  case h_9 beginTime msgs answer =>
    cases h
    exact .answer beginTime msgs answer
  case h_10 beginTime commitOffset =>
    cases h
    exact .updateOffset beginTime commitOffset
  case h_11 timeMillis =>
    cases h
    exact .suspend timeMillis
  case h_12 => cases h
  all_goals
    -- the six tests
    cases h
    refine .test trivial (fun pc' hpc' ↦ ?_) fun hleave ↦ ?_
    · try split at hpc'
      all_goals
        cases hpc'
        try trivial
    · try split at hleave
      all_goals simp_all [LockBreak]

/-- After an answer the request suspends, updates the offset, or goes on in its loop. -/
theorem answered_next (q : OrderlyQueue) (beginTime : Nat) (msgs : List MessageExt)
    (answer : ListenerAnswer) :
    ∃ pc, (q.answered beginTime msgs answer).2 = .goOn pc ∧
      (pc = .suspend answer.suspendCurrentQueueTimeMillis ∨
        (∃ commitOffset, pc = .updateOffset beginTime commitOffset) ∨
        pc = .testDropped beginTime) := by
  simp only [answered]
  split_ifs
  · exact ⟨_, rfl, .inl rfl⟩
  · exact ⟨_, rfl, .inr (.inl ⟨_, rfl⟩)⟩
  · exact ⟨_, rfl, .inr (.inr rfl)⟩

private theorem processConsumeResult_flags (pq : ProcessQueue) (msgs : List MessageExt)
    (status : ConsumeOrderlyStatus) (autoCommit : Bool) :
    (processConsumeResult pq msgs status autoCommit).1.dropped = pq.dropped ∧
      (processConsumeResult pq msgs status autoCommit).1.consuming = pq.consuming := by
  cases autoCommit <;> cases status <;>
    simp [processConsumeResult, ProcessQueue.rollback, ProcessQueue.makeMessageToCosumeAgain]

/-- What a step of a request does to the flags of the queue: it never drops it, and clears
`m_consuming` only when it ends. It ends without a timer when the queue is dropped, when the
lock is gone, or after the flag is cleared. -/
theorem doStep_flags {mq : MessageQueue} {q q' : OrderlyQueue} {pc : OrderlyPc}
    {input : OrderlyInput} {next : OrderlyNext} (h : q.doStep mq pc input = some (q', next)) :
    q'.pq.dropped = q.pq.dropped ∧
      (q'.pq.consuming = q.pq.consuming ∧
          (next = .leave → q.pq.dropped = true ∨ q.LockBreak pc) ∨
        q'.pq.consuming = false ∧ next = .leave) := by
  cases doStepped_of_doStep h with
  | test hpc hnext hleave => exact ⟨rfl, .inl ⟨rfl, hleave⟩⟩
  | clearConsuming => exact ⟨rfl, .inr ⟨rfl, rfl⟩⟩
  | answer beginTime msgs answer =>
    have hflags := processConsumeResult_flags q.pq msgs
      (answer.status.getD .suspendCurrentQueueAMoment) answer.autoCommit
    obtain ⟨pc', hnext, -⟩ := q.answered_next beginTime msgs answer
    refine ⟨hflags.1, .inl ⟨hflags.2, fun hleave ↦ ?_⟩⟩
    rw [hnext] at hleave
    cases hleave
  | take | updateOffset | suspend => exact ⟨rfl, .inl ⟨rfl, fun hleave ↦ by cases hleave⟩⟩

/-- A test that finds the lock gone ends the request and submits nothing. -/
theorem doStep_of_lockBreak {mq : MessageQueue} {q q' : OrderlyQueue} {pc : OrderlyPc}
    {input : OrderlyInput} {next : OrderlyNext} (hbreak : q.LockBreak pc)
    (h : q.doStep mq pc input = some (q', next)) : q' = q ∧ next = .leave := by
  cases pc with
  | testLocked beginTime =>
    have hlocked : q.pq.locked = false := hbreak
    cases input with
    | go =>
      simp only [doStep, hlocked, Bool.not_false, if_true, Option.some.injEq,
        Prod.mk.injEq] at h
      exact ⟨h.1.symm, h.2.symm⟩
    | batchSize _ | answer _ => exact absurd h (by simp [doStep])
  | testExpired beginTime =>
    have hexpired : q.pq.isLockExpired q.now = true := hbreak
    cases input with
    | go =>
      simp only [doStep, hexpired, if_true, Option.some.injEq, Prod.mk.injEq] at h
      exact ⟨h.1.symm, h.2.symm⟩
    | batchSize _ | answer _ => exact absurd h (by simp [doStep])
  | _ => exact hbreak.elim

end OrderlyQueue

/-- Everything that concerns one queue: the requests waiting for a pool thread, the pending
timers, the running requests, and the object lock of `m_messageQueueLock`. -/
structure OrderlyState where
  queue : OrderlyQueue
  queued : Nat
  timers : List OrderlyTimer
  running : List OrderlyPc
  objLock : Bool

/-- What can happen next. A firing `TryLockLaterAndReconsume` gets the lock or not. -/
inductive OrderlyEvent where
  | put (msgs : List MessageExt)
  | start
  | run (i : Nat) (input : OrderlyInput)
  | fire (i : Nat) (lockOK : Bool)
  | lock (granted : Bool)
  | drop
  | clock (now : Nat)
deriving DecidableEq

namespace OrderlyState

/-- A new queue at time `now`, with nothing put and nothing running. -/
def init (now : Nat) (store : RemoteBrokerOffsetStore) : OrderlyState :=
  ⟨⟨.new now, now, store, [], [], []⟩, 0, [], [], false⟩

/-- `RebalanceImpl::lock` and `lockAll` for this queue, `src/consumer/RebalanceImpl.cpp:128–231`. -/
def setLock (q : OrderlyQueue) (granted : Bool) : OrderlyQueue :=
  { q with
    pq := if granted then (q.pq.setLocked true).setLastLockTimestamp q.now
      else q.pq.setLocked false }

/-- How a request goes on. -/
def goNext (s : OrderlyState) (i : Nat) (q : OrderlyQueue) : OrderlyNext → OrderlyState
  | .goOn pc => { s with queue := q, running := s.running.set i pc }
  | .leave => { s with queue := q, running := s.running.eraseIdx i, objLock := false }
  | .leaveLater timer =>
    { s with
      queue := q, running := s.running.eraseIdx i, objLock := false
      timers := s.timers ++ [timer] }

/-- One step. -/
def step (mq : MessageQueue) (s : OrderlyState) : OrderlyEvent → Option OrderlyState
  | .put msgs =>
    let (pq, dispatchToConsume) := s.queue.pq.putMessage msgs
    some { s with
      queue := { s.queue with pq, put := s.queue.put ++ offsets msgs }
      queued := if dispatchToConsume then s.queued + 1 else s.queued }
  | .start =>
    if 0 < s.queued then
      some { s with queued := s.queued - 1, running := s.running ++ [.fetchLock] }
    else none
  | .run i input =>
    match s.running[i]? with
    | none => none
    | some .fetchLock =>
      if s.objLock then none
      else some { s with running := s.running.set i .testEntryLocked, objLock := true }
    | some pc =>
      match s.queue.doStep mq pc input with
      | none => none
      | some (q, next) => some (s.goNext i q next)
  | .fire i lockOK =>
    match s.timers[i]? with
    | none => none
    | some (.submitConsumeRequestLater _) =>
      some { s with timers := s.timers.eraseIdx i, queued := s.queued + 1 }
    | some (.tryLockLaterAndReconsume _) =>
      let timer := ConsumeMessageOrderlyService.submitConsumeRequestLater
        (if lockOK then 10 else 3000)
      some { s with
        queue := if lockOK then setLock s.queue true else s.queue
        timers := s.timers.eraseIdx i ++ [timer] }
  | .lock granted => some { s with queue := setLock s.queue granted }
  | .drop => some { s with queue := { s.queue with pq := s.queue.pq.setDropped true } }
  | .clock now => some { s with queue := { s.queue with now } }

/-- What a step can do, one case for each way it can go. -/
inductive Stepped (mq : MessageQueue) (s : OrderlyState) : OrderlyEvent → OrderlyState → Prop where
  | put (msgs : List MessageExt) :
    Stepped mq s (.put msgs) { s with
      queue := { s.queue with
        pq := (s.queue.pq.putMessage msgs).1
        put := s.queue.put ++ offsets msgs }
      queued := if (s.queue.pq.putMessage msgs).2 then s.queued + 1 else s.queued }
  | start (hpos : 0 < s.queued) :
    Stepped mq s .start { s with
      queued := s.queued - 1
      running := s.running ++ [.fetchLock] }
  | takeLock {i : Nat} {input : OrderlyInput} (hi : s.running[i]? = some .fetchLock)
      (hfree : s.objLock = false) :
    Stepped mq s (.run i input) { s with
      running := s.running.set i .testEntryLocked
      objLock := true }
  | doStep {i : Nat} {input : OrderlyInput} {pc : OrderlyPc} {q : OrderlyQueue}
      {next : OrderlyNext} (hi : s.running[i]? = some pc) (hpast : pc ≠ .fetchLock)
      (hdo : s.queue.doStep mq pc input = some (q, next)) :
    Stepped mq s (.run i input) (s.goNext i q next)
  | fireSubmit {i : Nat} {lockOK : Bool} {timer : OrderlyTimer} (hi : s.timers[i]? = some timer) :
    Stepped mq s (.fire i lockOK) { s with
      timers := s.timers.eraseIdx i
      queued := s.queued + 1 }
  | fireLock {i : Nat} (lockOK : Bool) {timer : OrderlyTimer} (hi : s.timers[i]? = some timer) :
    Stepped mq s (.fire i lockOK) { s with
      queue := if lockOK then setLock s.queue true else s.queue
      timers := s.timers.eraseIdx i ++ [ConsumeMessageOrderlyService.submitConsumeRequestLater
        (if lockOK then 10 else 3000)] }
  | lock (granted : Bool) :
    Stepped mq s (.lock granted) { s with queue := setLock s.queue granted }
  | drop :
    Stepped mq s .drop { s with queue := { s.queue with pq := s.queue.pq.setDropped true } }
  | clock (now : Nat) : Stepped mq s (.clock now) { s with queue := { s.queue with now } }

/-- Every step goes one of these ways. -/
theorem stepped_of_step {mq : MessageQueue} {s t : OrderlyState} {e : OrderlyEvent}
    (hstep : s.step mq e = some t) : Stepped mq s e t := by
  cases e with
  | put msgs =>
    cases hstep
    exact .put msgs
  | start =>
    simp only [step, Option.ite_none_right_eq_some, Option.some.injEq] at hstep
    obtain ⟨hpos, rfl⟩ := hstep
    exact .start hpos
  | run i input =>
    simp only [step] at hstep
    split at hstep
    · cases hstep
    · next hi =>
      split at hstep
      · cases hstep
      · next hfree =>
        cases hstep
        exact .takeLock hi (Bool.not_eq_true _ ▸ hfree)
    · next pc hpast hi =>
      split at hstep
      · cases hstep
      · next q next hdo =>
        cases hstep
        exact .doStep hi hpast hdo
  | fire i lockOK =>
    simp only [step] at hstep
    split at hstep
    · cases hstep
    · next hi =>
      cases hstep
      exact .fireSubmit hi
    · next hi =>
      cases hstep
      exact .fireLock lockOK hi
  | lock granted =>
    cases hstep
    exact .lock granted
  | drop =>
    cases hstep
    exact .drop
  | clock now =>
    cases hstep
    exact .clock now

/-- A step of a request that is past the object lock. -/
theorem doStep_of_step {mq : MessageQueue} {s t : OrderlyState} {i : Nat} {pc : OrderlyPc}
    {input : OrderlyInput} (hi : s.running[i]? = some pc) (hpast : pc ≠ .fetchLock)
    (hstep : s.step mq (.run i input) = some t) :
    ∃ q next, s.queue.doStep mq pc input = some (q, next) ∧ t = s.goNext i q next := by
  cases stepped_of_step hstep with
  | takeLock hi' => exact absurd (Option.some.inj (hi.symm.trans hi')) hpast
  | doStep hi' _ hdo =>
    obtain rfl := Option.some.inj (hi.symm.trans hi')
    exact ⟨_, _, hdo, rfl⟩

@[simp] theorem queue_goNext (s : OrderlyState) (i : Nat) (q : OrderlyQueue) (next : OrderlyNext) :
    (s.goNext i q next).queue = q := by
  cases next <;> rfl

/-- All requests of the queue: waiting for a thread, waiting for a timer, or running. -/
def requests (s : OrderlyState) : Nat := s.queued + s.timers.length + s.running.length

/-! ### What one step does to the number of requests -/

section Requests

variable {mq : MessageQueue} {s t : OrderlyState} {e : OrderlyEvent}

/-- Nothing but a drop changes whether the queue is dropped. -/
theorem dropped_eq_of_step (hstep : s.step mq e = some t) (hdrop : e ≠ .drop) :
    t.queue.pq.dropped = s.queue.pq.dropped := by
  cases stepped_of_step hstep with
  | put msgs => exact s.queue.pq.dropped_putMessage msgs
  | doStep hi hpast hdo =>
    rw [queue_goNext]
    exact (OrderlyQueue.doStep_flags hdo).1
  | fireLock lockOK => cases lockOK <;> rfl
  | lock granted => cases granted <;> rfl
  | drop => exact absurd rfl hdrop
  | start | takeLock | fireSubmit | clock => rfl

/-- Nothing takes a queue out of the dropped state. -/
theorem dropped_step (hstep : s.step mq e = some t) (hd : s.queue.pq.dropped = true) :
    t.queue.pq.dropped = true := by
  by_cases hdrop : e = .drop
  · subst hdrop
    cases hstep
    rfl
  · rw [dropped_eq_of_step hstep hdrop, hd]

private theorem requests_put (msgs : List MessageExt) (hstep : s.step mq (.put msgs) = some t) :
    t.requests + (if s.queue.pq.consuming then 1 else 0) =
      s.requests + if t.queue.pq.consuming then 1 else 0 := by
  simp only [step, Option.some.injEq] at hstep
  subst hstep
  have hc := s.queue.pq.consuming_putMessage msgs
  cases hcons : s.queue.pq.consuming with
  | true =>
    have hd := s.queue.pq.putMessage_snd_of_consuming msgs hcons
    simp only [hcons, Bool.true_or] at hc
    simp only [requests, hd, hc, Bool.false_eq_true, if_false, if_true]
  | false =>
    simp only [hcons, Bool.false_or] at hc
    simp only [requests, hc, Bool.false_eq_true, if_false]
    split <;> omega

private theorem requests_goNext {i : Nat} {pc : OrderlyPc} {input : OrderlyInput}
    {q : OrderlyQueue} {next : OrderlyNext} (hi : s.running[i]? = some pc)
    (hc : s.queue.pq.consuming = true) (hdo : s.queue.doStep mq pc input = some (q, next)) :
    (s.goNext i q next).requests + 1 =
        s.requests + (if (s.goNext i q next).queue.pq.consuming then 1 else 0) ∨
      (s.queue.pq.dropped = true ∨ s.queue.LockBreak pc) ∧
        (s.goNext i q next).requests ≤ s.requests ∧
        (s.goNext i q next).queue.pq.consuming = true := by
  have hlt := (List.getElem?_eq_some_iff.mp hi).1
  rw [queue_goNext]
  rcases (OrderlyQueue.doStep_flags hdo).2 with ⟨hsame, hleave⟩ | ⟨hclear, rfl⟩
  · rw [hsame, hc, if_pos rfl]
    cases next with
    | goOn pc' =>
      left
      simp only [requests, goNext, List.length_set]
    | leave =>
      right
      refine ⟨hleave rfl, ?_, rfl⟩
      simp only [requests, goNext, List.length_eraseIdx, hlt, if_true]
      omega
    | leaveLater timer =>
      left
      simp only [requests, goNext, List.length_eraseIdx, hlt, List.length_append,
        List.length_singleton, if_true]
      omega
  · left
    rw [hclear]
    simp only [requests, goNext, List.length_eraseIdx, hlt, if_true, Bool.false_eq_true,
      if_false]
    omega

/-- Requests and `m_consuming` come and go together, when running requests have the flag set.
The exception is a request that ends because the queue is dropped or its lock is gone. -/
theorem requests_step
    (hrunning : ∀ (i : Nat) (pc : OrderlyPc), s.running[i]? = some pc → s.queue.pq.consuming = true)
    (hstep : s.step mq e = some t) :
    t.requests + (if s.queue.pq.consuming then 1 else 0) =
        s.requests + (if t.queue.pq.consuming then 1 else 0) ∨
      ∃ (i : Nat) (input : OrderlyInput) (pc : OrderlyPc),
        e = .run i input ∧ s.running[i]? = some pc ∧
        (s.queue.pq.dropped = true ∨ s.queue.LockBreak pc) ∧ t.requests ≤ s.requests ∧
        t.queue.pq.consuming = true := by
  have hkeep {t : OrderlyState} (hr : t.requests = s.requests)
      (hc : t.queue.pq.consuming = s.queue.pq.consuming) :
      t.requests + (if s.queue.pq.consuming then 1 else 0) =
        s.requests + if t.queue.pq.consuming then 1 else 0 := by
    rw [hr, hc]
  cases stepped_of_step hstep with
  | put msgs => exact .inl (requests_put msgs hstep)
  | start hpos =>
    refine .inl (hkeep ?_ rfl)
    simp only [requests, List.length_append, List.length_singleton]
    omega
  | takeLock hi => exact .inl (hkeep (by simp only [requests, List.length_set]) rfl)
  | doStep hi hpast hdo =>
    have hc := hrunning _ _ hi
    rcases requests_goNext hi hc hdo with hbalance | ⟨hbreak, hrest⟩
    · rw [if_pos hc]
      exact .inl hbalance
    · exact .inr ⟨_, _, _, rfl, hi, hbreak, hrest⟩
  | fireSubmit hi =>
    have hlt := (List.getElem?_eq_some_iff.mp hi).1
    refine .inl (hkeep ?_ rfl)
    simp only [requests, List.length_eraseIdx, hlt, if_true]
    omega
  | fireLock lockOK hi =>
    have hlt := (List.getElem?_eq_some_iff.mp hi).1
    refine .inl (hkeep ?_ (by cases lockOK <;> rfl))
    simp only [requests, List.length_append, List.length_singleton, List.length_eraseIdx, hlt,
      if_true]
    omega
  | lock granted => exact .inl (hkeep rfl (by cases granted <;> rfl))
  | drop | clock => exact .inl (hkeep rfl rfl)

end Requests
end OrderlyState
end RocketMQ
