import RocketMQ.Common.Monitor

/-!
# Waiting for one response

`src/transport/ResponseFuture.cpp:69–92`: the thread that made a synchronous request waits on the
monitor of its future, and the thread that receives puts the response there. The wait is not
repeated when it ends early, so that what the request gets depends on how it ended. A step is one
call on the monitor, one section under it, or one access to `m_pResponseCommand` outside.
-/

namespace RocketMQ

universe u

/-- Who uses the monitor of a future. -/
inductive FutureThread where
  | invoker
  | receiver
deriving DecidableEq

/-- Where the invoker is in `waitResponse`, `src/transport/ResponseFuture.cpp:69–81`. -/
inductive WaitResponsePc (R : Type u) where
  | lock
  | test
  | wait
  | parked
  | flush
  | leave
  | read
  | returned (response : Option R)
deriving DecidableEq

/-- Where the receiver is in `putResponse`, `src/transport/ResponseFuture.cpp:83–92`, once there is
a response. -/
inductive PutResponsePc where
  | out
  | assign
  | lock
  | set
  | flush
  | leave
  | returned
deriving DecidableEq

/-- What a blocking future has of them, `src/transport/ResponseFuture.h:57–67`. -/
structure BlockingFuture (R : Type u) where
  monitor : Monitor FutureThread
  responseCommand : Option R
  notifyFlag : Bool
  waiting : WaitResponsePc R
  putting : PutResponsePc

/-- What can happen next; `wake` is the timeout of the wait, or no reason at all. -/
inductive FutureEvent where
  | arrive
  | putResponse
  | waitResponse
  | wake
deriving DecidableEq

@[grind] def WaitResponsePc.Inside {R : Type u} : WaitResponsePc R → Prop
  | .test | .wait | .flush | .leave => True
  | .lock | .parked | .read | .returned _ => False

@[grind] def PutResponsePc.Inside : PutResponsePc → Prop
  | .set | .flush | .leave => True
  | .out | .assign | .lock | .returned => False

/-- The response is in the future. -/
@[grind] def PutResponsePc.Assigned : PutResponsePc → Prop
  | .lock | .set | .flush | .leave | .returned => True
  | .out | .assign => False

/-- The future has been notified. -/
@[grind] def PutResponsePc.Notified : PutResponsePc → Prop
  | .flush | .leave | .returned => True
  | .out | .assign | .lock | .set => False

theorem PutResponsePc.Notified.assigned {pc : PutResponsePc} (h : pc.Notified) : pc.Assigned := by
  cases pc <;> first | exact h | trivial

namespace BlockingFuture

variable {R : Type u}

/-- `src/transport/ResponseFuture.cpp:23–40`, when the request has been sent. -/
def new : BlockingFuture R := ⟨.new, none, false, .lock, .out⟩

/-- The next move of `putResponse`. -/
def putMove (response : R) (s : BlockingFuture R) : Option (BlockingFuture R) :=
  match s.putting with
  | .out | .returned => none
  | .assign => some { s with responseCommand := some response, putting := .lock }
  | .lock => (s.monitor.lock .receiver).map fun monitor ↦ { s with monitor, putting := .set }
  | .set => some { s with notifyFlag := true, monitor := s.monitor.notify, putting := .flush }
  | .flush => some { s with monitor := s.monitor.flush .invoker, putting := .leave }
  | .leave => (s.monitor.leave .receiver).map fun monitor ↦
      { s with monitor, putting := .returned }

/-- The next move of `waitResponse`. -/
def waitMove (s : BlockingFuture R) : Option (BlockingFuture R) :=
  match s.waiting with
  | .lock => (s.monitor.lock .invoker).map fun monitor ↦ { s with monitor, waiting := .test }
  | .test => some { s with waiting := if s.notifyFlag then .flush else .wait }
  | .wait => (s.monitor.park .invoker .invoker).map fun monitor ↦
      { s with monitor, waiting := .parked }
  | .parked => (s.monitor.resume .invoker).map fun monitor ↦ { s with monitor, waiting := .flush }
  | .flush => some { s with monitor := s.monitor.flush .invoker, waiting := .leave }
  | .leave => (s.monitor.leave .invoker).map fun monitor ↦ { s with monitor, waiting := .read }
  | .read => some { s with waiting := .returned s.responseCommand }
  | .returned _ => none

/-- One step; `response` is the response to the request. -/
def step (response : R) (s : BlockingFuture R) : FutureEvent → Option (BlockingFuture R)
  | .arrive => if s.putting = .out then some { s with putting := .assign } else none
  | .putResponse => s.putMove response
  | .waitResponse => s.waitMove
  | .wake => (s.monitor.wake .invoker).map fun monitor ↦ { s with monitor }

/-- The invoker waits, and nothing has woken it. -/
def Asleep (s : BlockingFuture R) : Prop := s.monitor.mutex.place .invoker = .waiting 1

/-- Where the two threads are agrees with the monitor and the members, and an invoker that waits
although the future has been notified is about to be signalled. -/
structure Sound (response : R) (s : BlockingFuture R) : Prop where
  invoker : s.monitor.mutex.holder = some .invoker ↔ s.waiting.Inside
  receiver : s.monitor.mutex.holder = some .receiver ↔ s.putting.Inside
  depth : s.monitor.mutex.depth = if s.monitor.mutex.holder = none then 0 else 1
  receiver_here : s.monitor.mutex.place .receiver = .here
  invoker_here : s.waiting ≠ .parked → s.monitor.mutex.place .invoker = .here
  invoker_parked : s.waiting = .parked →
    s.monitor.mutex.place .invoker = .waiting 1 ∨ s.monitor.mutex.place .invoker = .returning 1
  fresh : s.putting = .set → s.monitor.notifyCount = 0
  assigned : s.putting.Assigned → s.responseCommand = some response
  unassigned : ¬ s.putting.Assigned → s.responseCommand = none
  flag : s.notifyFlag = true ↔ s.putting.Notified
  waits : s.waiting = .wait → s.notifyFlag = false
  signals : s.Asleep → s.notifyFlag = true → s.putting = .flush ∧ s.monitor.notifyCount = 1
  result : ∀ r, s.waiting = .returned r → r = none ∨ r = some response

variable {response : R}

theorem sound_new : (new : BlockingFuture R).Sound response := by
  constructor <;> simp [new, Monitor.new, Base.ReentrantLock.free, Asleep, PutResponsePc.Assigned,
    PutResponsePc.Inside, PutResponsePc.Notified, WaitResponsePc.Inside]

theorem sound_putMove {s s' : BlockingFuture R} (hs : s.Sound response)
    (h : s.putMove response = some s') : s'.Sound response := by
  obtain ⟨hinvoker, hreceiver, hdepth, hrhere, hihere, hparked, hfresh, hassigned, hunassigned,
    hflag, hwaits, hsignals, hresult⟩ := hs
  unfold Asleep at hsignals
  unfold putMove at h
  cases hpc : s.putting <;> simp only [hpc, Option.some.injEq, Option.map_eq_some_iff,
    Monitor.lock_eq_some, Monitor.leave_eq_some, reduceCtorEq] at h
  case assign =>
    subst h
    constructor <;> simp only [Asleep] <;> grind -linarith
  case lock =>
    obtain ⟨m, ⟨⟨hplace, hfree⟩, rfl⟩, rfl⟩ := h
    constructor <;> simp only [Asleep, Base.ReentrantLock.hold] <;> grind -linarith
  case set =>
    subst h
    constructor <;> simp only [Asleep, Monitor.notify] <;> grind -linarith
  case flush =>
    subst h
    have hinside : s.monitor.mutex.holder = some .receiver := by
      rw [hreceiver, hpc]
      trivial
    rw [hinside, if_neg nofun] at hdepth
    rw [Monitor.flush, if_pos hdepth]
    rcases s.monitor.signal_cases .invoker with ⟨hsame, hnone⟩ | ⟨n, hplace, hwoken⟩
    · rw [hsame]
      constructor <;> simp only [Asleep] <;> grind -linarith
    · rw [hwoken]
      constructor <;> simp only [Asleep, Base.ReentrantLock.put, Function.update_apply] <;>
        grind -linarith
  case leave =>
    obtain ⟨m, ⟨hinside, rfl⟩, rfl⟩ := h
    constructor <;> simp only [Asleep, Base.ReentrantLock.hold] <;> grind -linarith

theorem sound_waitMove {s s' : BlockingFuture R} (hs : s.Sound response)
    (h : s.waitMove = some s') : s'.Sound response := by
  obtain ⟨hinvoker, hreceiver, hdepth, hrhere, hihere, hparked, hfresh, hassigned, hunassigned,
    hflag, hwaits, hsignals, hresult⟩ := hs
  unfold Asleep at hsignals
  unfold waitMove at h
  cases hpc : s.waiting <;> simp only [hpc, Option.some.injEq, Option.map_eq_some_iff,
    Monitor.lock_eq_some, Monitor.leave_eq_some, Monitor.resume_eq_some, reduceCtorEq] at h
  case lock =>
    obtain ⟨m, ⟨⟨hplace, hfree⟩, rfl⟩, rfl⟩ := h
    constructor <;> simp only [Asleep, Base.ReentrantLock.hold] <;> grind -linarith
  case test =>
    subst h
    constructor <;> simp only [Asleep] <;> grind -linarith
  case wait =>
    simp only [Monitor.park_eq_some (hihere (by simp [hpc]))] at h
    obtain ⟨m, ⟨hinside, rfl⟩, rfl⟩ := h
    constructor <;> simp only [Asleep, Base.ReentrantLock.hold, Base.ReentrantLock.put,
      Function.update_apply] <;> grind -linarith
  case parked =>
    obtain ⟨m, ⟨n, hplace, hfree, rfl⟩, rfl⟩ := h
    constructor <;> simp only [Asleep, Base.ReentrantLock.hold, Base.ReentrantLock.put,
      Function.update_apply] <;> grind -linarith
  case flush =>
    subst h
    rw [Monitor.flush_of_here (hihere (by simp [hpc]))]
    constructor <;> simp only [Asleep] <;> grind -linarith
  case leave =>
    obtain ⟨m, ⟨hinside, rfl⟩, rfl⟩ := h
    constructor <;> simp only [Asleep, Base.ReentrantLock.hold] <;> grind -linarith
  case read =>
    subst h
    constructor <;> simp only [Asleep] <;> grind -linarith

theorem sound_step (s : BlockingFuture R) (e : FutureEvent) (s' : BlockingFuture R)
    (hs : s.Sound response) (h : s.step response e = some s') : s'.Sound response := by
  cases e with
  | putResponse => exact sound_putMove hs h
  | waitResponse => exact sound_waitMove hs h
  | arrive =>
    rw [step] at h
    split_ifs at h with hout
    obtain rfl := Option.some.inj h
    obtain ⟨hinvoker, hreceiver, hdepth, hrhere, hihere, hparked, hfresh, hassigned, hunassigned,
      hflag, hwaits, hsignals, hresult⟩ := hs
    unfold Asleep at hsignals
    constructor <;> simp only [Asleep] <;> grind -linarith
  | wake =>
    simp only [step, Option.map_eq_some_iff, Monitor.wake_eq_some] at h
    obtain ⟨m, ⟨n, hplace, rfl⟩, rfl⟩ := h
    obtain ⟨hinvoker, hreceiver, hdepth, hrhere, hihere, hparked, hfresh, hassigned, hunassigned,
      hflag, hwaits, hsignals, hresult⟩ := hs
    unfold Asleep at hsignals
    constructor <;> simp only [Asleep, Base.ReentrantLock.put, Function.update_apply] <;>
      grind -linarith

/-- The invoker is past its wait. -/
def Past (s : BlockingFuture R) : Prop :=
  s.waiting = .flush ∨ s.waiting = .leave ∨ s.waiting = .read ∨
    s.monitor.mutex.place .invoker = .returning 1

/-- As long as the wait has not ended by itself: past the wait there is a response, and it is what
the invoker gets. -/
structure Kept (response : R) (s : BlockingFuture R) : Prop extends s.Sound response where
  past : s.Past → s.responseCommand = some response
  got : ∀ r, s.waiting = .returned r → r = some response

theorem kept_new : (new : BlockingFuture R).Kept response where
  toSound := sound_new
  past h := by simp [Past, new, Monitor.new, Base.ReentrantLock.free] at h
  got := nofun

theorem kept_putMove {s s' : BlockingFuture R} (hs : s.Kept response)
    (h : s.putMove response = some s') : s'.Kept response := by
  refine { sound_putMove hs.toSound h with past := ?_, got := ?_ }
  · have hassigned := hs.assigned
    have hpast := hs.past
    unfold putMove at h
    unfold Past at hpast ⊢
    cases hpc : s.putting <;> simp only [hpc, Option.some.injEq, Option.map_eq_some_iff,
      Monitor.lock_eq_some, Monitor.leave_eq_some, reduceCtorEq] at h
    case assign =>
      subst h
      exact fun _ ↦ rfl
    case lock | leave =>
      obtain ⟨m, ⟨-, rfl⟩, rfl⟩ := h
      exact hpast
    case set | flush =>
      subst h
      exact fun _ ↦ hassigned (by rw [hpc]; trivial)
  · have hgot := hs.got
    unfold putMove at h
    cases hpc : s.putting <;> simp only [hpc, Option.some.injEq, Option.map_eq_some_iff,
      reduceCtorEq] at h
    case lock | leave =>
      obtain ⟨m, -, rfl⟩ := h
      exact hgot
    all_goals
      subst h
      exact hgot

theorem kept_waitMove {s s' : BlockingFuture R} (hs : s.Kept response)
    (h : s.waitMove = some s') : s'.Kept response := by
  have hs' := sound_waitMove hs.toSound h
  refine { hs' with past := ?_, got := ?_ }
  · have hassigned := hs.assigned
    have hflag := hs.flag
    have hparked := hs.invoker_parked
    have hhere := hs'.invoker_here
    have hpast := hs.past
    unfold waitMove at h
    unfold Past at hpast ⊢
    cases hpc : s.waiting <;> simp only [hpc, Option.some.injEq, Option.map_eq_some_iff,
      Monitor.lock_eq_some, Monitor.leave_eq_some, Monitor.resume_eq_some, reduceCtorEq] at h
    case lock =>
      obtain ⟨m, ⟨⟨hplace, -⟩, rfl⟩, rfl⟩ := h
      grind -linarith
    case test =>
      subst h
      intro _
      by_cases hnotified : s.notifyFlag = true
      · exact hassigned (hflag.mp hnotified).assigned
      · grind -linarith
    case wait =>
      simp only [Monitor.park_eq_some (hs.invoker_here (by simp [hpc]))] at h
      obtain ⟨m, ⟨hinside, rfl⟩, rfl⟩ := h
      simp only [Base.ReentrantLock.put, Function.update_apply]
      grind -linarith
    case parked =>
      obtain ⟨m, ⟨n, hplace, hfree, rfl⟩, rfl⟩ := h
      intro _
      apply hpast
      right
      right
      right
      rcases hparked hpc with hwaiting | hreturning
      · rw [hwaiting] at hplace
        cases hplace
      · exact hreturning
    case flush =>
      subst h
      exact fun _ ↦ hpast (.inl hpc)
    case leave =>
      obtain ⟨m, -, rfl⟩ := h
      exact fun _ ↦ hpast (.inr (.inl hpc))
    case read =>
      subst h
      exact fun _ ↦ hpast (.inr (.inr (.inl hpc)))
  · have hpast := hs.past
    unfold waitMove at h
    cases hpc : s.waiting <;> simp only [hpc, Option.some.injEq, Option.map_eq_some_iff,
      reduceCtorEq] at h
    case test =>
      subst h
      grind -linarith
    case flush =>
      subst h
      intro r hr
      cases hr
    case read =>
      subst h
      rintro r hr
      obtain rfl := WaitResponsePc.returned.inj hr
      exact hpast (.inr (.inr (.inl hpc)))
    all_goals
      obtain ⟨m, -, rfl⟩ := h
      intro r hr
      cases hr

theorem kept_step (s : BlockingFuture R) (e : FutureEvent) (s' : BlockingFuture R)
    (hs : s.Kept response) (hwake : e ≠ .wake) (h : s.step response e = some s') :
    s'.Kept response := by
  cases e with
  | putResponse => exact kept_putMove hs h
  | waitResponse => exact kept_waitMove hs h
  | wake => exact absurd rfl hwake
  | arrive =>
    have hsound := sound_step s .arrive s' hs.toSound h
    rw [step] at h
    split_ifs at h
    obtain rfl := Option.some.inj h
    exact { hsound with past := hs.past, got := hs.got }

/-- While the invoker sleeps, the receiver is not kept from going on. -/
theorem Sound.putMove_isSome {s : BlockingFuture R} (hs : s.Sound response) (hasleep : s.Asleep)
    (hout : s.putting ≠ .out) (hreturned : s.putting ≠ .returned) :
    (s.putMove response).isSome := by
  have hparked : s.waiting = .parked := by
    by_contra hwaiting
    rw [Asleep, hs.invoker_here hwaiting] at hasleep
    cases hasleep
  have hfree : s.monitor.mutex.holder = none ∨ s.monitor.mutex.holder = some .receiver := by
    cases hholder : s.monitor.mutex.holder with
    | none => exact .inl rfl
    | some t =>
      cases t with
      | receiver => exact .inr rfl
      | invoker =>
        have hinside := hs.invoker.mp hholder
        rw [hparked] at hinside
        cases hinside
  have hreceiver := hs.receiver
  have hhere := hs.receiver_here
  unfold putMove
  cases hpc : s.putting <;>
    simp_all [Monitor.lock, Monitor.leave, Base.ReentrantLock.step, PutResponsePc.Inside]

/-- What `waitResponse` returns, in every interleaving with `putResponse`: nothing or the response
to the request, and the response unless the wait ended by itself. And an invoker that waits is
not forgotten: no response has come yet, or the receiver can go on. -/
theorem waitResponse_delivers {es : List FutureEvent} {s : BlockingFuture R}
    (hrun : Base.runFrom (step response) new es = some s) :
    (∀ r, s.waiting = .returned r → (r = none ∨ r = some response) ∧
        (.wake ∉ es → r = some response)) ∧
      (s.Asleep → s.putting = .out ∨ (s.putMove response).isSome) := by
  have hs : s.Sound response := Base.inv_of_runFrom sound_step sound_new hrun
  refine ⟨fun r hr ↦ ⟨hs.result r hr, fun hnone ↦ ?_⟩, fun hasleep ↦ ?_⟩
  · have hgood : Base.Along (step response) (fun _ e ↦ e ≠ .wake) new es := by
      apply Base.along_of_forall_mem
      intro e he _ hwake
      exact hnone (hwake ▸ he)
    have hkept : s.Kept response := Base.inv_of_along kept_step kept_new hgood hrun
    exact hkept.got r hr
  · by_cases hout : s.putting = .out
    · exact .inl hout
    · right
      apply hs.putMove_isSome hasleep hout
      intro hreturned
      have hnotified : s.notifyFlag = true := hs.flag.mpr (by rw [hreturned]; trivial)
      have hflush := (hs.signals hasleep hnotified).1
      rw [hreturned] at hflush
      cases hflush

/-- The invoker sleeps when the response arrives, and gets it. -/
def answered : List FutureEvent :=
  [.waitResponse, .waitResponse, .waitResponse, .arrive, .putResponse, .putResponse, .putResponse,
   .putResponse, .putResponse, .waitResponse, .waitResponse, .waitResponse, .waitResponse]

/-- The state after it. -/
def answeredState : BlockingFuture Nat := (Base.runFrom (step 7) new answered).get rfl

/-- The state in which the response has just arrived. -/
def arrivedState : BlockingFuture Nat := (Base.runFrom (step 7) new (answered.take 4)).get rfl

theorem waitResponse_delivers_answered :
    (∃ r, answeredState.waiting = .returned r ∧ r = some 7) ∧
      arrivedState.Asleep ∧ (arrivedState.putting = .out ∨ (arrivedState.putMove 7).isSome) := by
  have hanswered : Base.runFrom (step 7) new answered = some answeredState :=
    (Option.some_get rfl).symm
  have harrived : Base.runFrom (step 7) new (answered.take 4) = some arrivedState :=
    (Option.some_get rfl).symm
  have hasleep : arrivedState.Asleep := rfl
  exact ⟨⟨_, rfl, ((waitResponse_delivers hanswered).1 _ rfl).2 (by decide)⟩, hasleep,
    (waitResponse_delivers harrived).2 hasleep⟩

end BlockingFuture
end RocketMQ
