import RocketMQ.Common.Monitor

/-!
# Waking a service thread

`src/common/ServiceThread.cpp`: any thread can wake the service up or stop it, and the service
waits in `waitForRunning` until that happens or its interval is over. `m_notified` says that a
wake-up has not been consumed. A step is one call on the monitor, one section under it, or one
write of `m_stoped`. `none` is the service's own thread, which can call `wakeup` too.
-/

namespace RocketMQ

universe u

/-- Where a thread is in `stop` and `wakeup`, `src/common/ServiceThread.cpp:34–49`. -/
inductive WakeupPc where
  | out
  | stop
  | lock
  | test
  | flush
  | leave
deriving DecidableEq

/-- Where the service is in `waitForRunning`, `src/common/ServiceThread.cpp:51–68`. -/
inductive WaitPc where
  | out
  | lock
  | test
  | wait
  | parked
  | flush
  | leave
deriving DecidableEq

/-- It is inside the monitor. -/
@[simp, grind] def WakeupPc.Inside : WakeupPc → Prop
  | .test | .flush | .leave => True
  | .out | .stop | .lock => False

/-- It is inside the monitor. -/
@[simp, grind] def WaitPc.Inside : WaitPc → Prop
  | .test | .wait | .flush | .leave => True
  | .out | .lock | .parked => False

/-- `src/common/ServiceThread.h:31–46`, and where each thread is. -/
structure ServiceThread (T : Type u) where
  monitor : Monitor (Option T)
  notified : Bool
  stoped : Bool
  callers : Option T → WakeupPc
  waiter : WaitPc

/-- What can happen next; `wake` is the end of the interval, or no reason at all. -/
inductive ServiceEvent (T : Type u) where
  | stop (t : Option T)
  | wakeup (t : Option T)
  | caller (t : Option T)
  | waitForRunning
  | waiter (interrupted : Bool)
  | wake

namespace ServiceThread

variable {T : Type u} [DecidableEq T]

/-- `src/common/ServiceThread.cpp:21–27`. -/
def new : ServiceThread T := ⟨.new, false, false, fun _ ↦ .out, .out⟩

/-- A caller goes on. -/
def goTo (s : ServiceThread T) (t : Option T) (pc : WakeupPc) : ServiceThread T :=
  { s with callers := Function.update s.callers t pc }

/-- The section of `wakeup`, `src/common/ServiceThread.cpp:44–48`. -/
def wakeupTest (s : ServiceThread T) : ServiceThread T :=
  if s.notified then s else { s with notified := true, monitor := s.monitor.notify }

/-- The next move of a thread in `stop` or `wakeup`. -/
def caller (s : ServiceThread T) (t : Option T) : Option (ServiceThread T) :=
  match s.callers t with
  | .out => none
  | .stop => some ({ s with stoped := true }.goTo t .lock)
  | .lock => (s.monitor.lock t).map fun monitor ↦ { s with monitor }.goTo t .test
  | .test => some (s.wakeupTest.goTo t .flush)
  | .flush => some ({ s with monitor := s.monitor.flush none }.goTo t .leave)
  | .leave => (s.monitor.leave t).map fun monitor ↦ { s with monitor }.goTo t .out

/-- The next move of the service in `waitForRunning`; an exception clears `m_notified`. -/
def waitMove (s : ServiceThread T) (interrupted : Bool) : Option (ServiceThread T) :=
  match s.waiter with
  | .out => none
  | .lock => (s.monitor.lock none).map fun monitor ↦ { s with monitor, waiter := .test }
  | .test => some (if s.notified then { s with notified := false, waiter := .flush }
      else { s with waiter := .wait })
  | .wait => (s.monitor.park none none).map fun monitor ↦ { s with monitor, waiter := .parked }
  | .parked => (s.monitor.resume none).map fun monitor ↦
      { s with monitor, waiter := .flush, notified := s.notified && !interrupted }
  | .flush => some { s with monitor := s.monitor.flush none, waiter := .leave }
  | .leave => (s.monitor.leave none).map fun monitor ↦ { s with monitor, waiter := .out }

/-- A thread can call when it is in no call, and the service only outside `waitForRunning`. -/
def CanCall (s : ServiceThread T) (t : Option T) : Prop :=
  s.callers t = .out ∧ (t = none → s.waiter = .out)

instance (s : ServiceThread T) (t : Option T) : Decidable (s.CanCall t) :=
  inferInstanceAs (Decidable (_ ∧ _))

/-- One step. -/
def step (s : ServiceThread T) : ServiceEvent T → Option (ServiceThread T)
  | .stop t => if s.CanCall t then some (s.goTo t .stop) else none
  | .wakeup t => if s.CanCall t then some (s.goTo t .lock) else none
  | .caller t => s.caller t
  | .waitForRunning =>
    if s.callers none = .out ∧ s.waiter = .out then some { s with waiter := .lock } else none
  | .waiter interrupted => s.waitMove interrupted
  | .wake => (s.monitor.wake none).map fun monitor ↦ { s with monitor }

/-- The service waits, and nothing has woken it. -/
def Asleep (s : ServiceThread T) : Prop := s.monitor.mutex.place none = .waiting 1

/-- Where each thread is agrees with the monitor, and a service that waits although `m_notified`
is set is about to be signalled. -/
structure Sound (s : ServiceThread T) : Prop where
  holder : ∀ t, s.monitor.mutex.holder = some t ↔
    (s.callers t).Inside ∨ t = none ∧ s.waiter.Inside
  depth : s.monitor.mutex.depth = if s.monitor.mutex.holder = none then 0 else 1
  callers_here : ∀ t : T, s.monitor.mutex.place (some t) = .here
  waiter_here : s.waiter ≠ .parked → s.monitor.mutex.place none = .here
  waiter_parked : s.waiter = .parked →
    s.monitor.mutex.place none = .waiting 1 ∨ s.monitor.mutex.place none = .returning 1
  apart : s.callers none ≠ .out → s.waiter = .out
  fresh : ∀ t, s.callers t = .test → s.monitor.notifyCount = 0
  waiting : s.waiter = .wait → s.notified = false
  signals : s.Asleep → s.notified = true → ∃ t, s.callers t = .flush ∧ s.monitor.notifyCount = 1

omit [DecidableEq T] in
theorem sound_new : (new : ServiceThread T).Sound where
  holder := by simp [new, Monitor.new, Base.ReentrantLock.free]
  depth := rfl
  callers_here _ := rfl
  waiter_here _ := rfl
  waiter_parked := nofun
  apart h := absurd rfl h
  fresh _ := nofun
  waiting := nofun
  signals := nofun

/-- A thread that begins a call. -/
theorem Sound.begin {s : ServiceThread T} (hs : s.Sound) {t : Option T} (hcall : s.CanCall t)
    {pc : WakeupPc} (hpc : ¬ pc.Inside) : (s.goTo t pc).Sound := by
  obtain ⟨hout, hservice⟩ := hcall
  obtain ⟨hholder, hdepth, hcallers, hhere, hparked, hapart, hfresh, hwaiting, hsignals⟩ := hs
  unfold Asleep at hsignals
  constructor <;> simp only [goTo, Asleep, Function.update_apply] <;> grind -linarith

theorem sound_caller {s s' : ServiceThread T} {t : Option T} (hs : s.Sound)
    (h : s.caller t = some s') : s'.Sound := by
  unfold caller at h
  obtain ⟨hholder, hdepth, hcallers, hhere, hparked, hapart, hfresh, hwaiting, hsignals⟩ := hs
  unfold Asleep at hsignals
  cases hpc : s.callers t <;> simp only [hpc, Option.some.injEq, Option.map_eq_some_iff,
    Monitor.lock_eq_some, Monitor.leave_eq_some, reduceCtorEq] at h
  case stop =>
    subst h
    constructor <;> simp only [goTo, Asleep, Function.update_apply] <;> grind -linarith
  case lock =>
    obtain ⟨m, ⟨⟨hplace, hfree⟩, rfl⟩, rfl⟩ := h
    constructor <;>
      simp only [goTo, Asleep, Function.update_apply, Base.ReentrantLock.hold] <;> grind -linarith
  case test =>
    subst h
    unfold wakeupTest
    split_ifs with hnotified
    · constructor <;> simp only [goTo, Asleep, Function.update_apply] <;> grind -linarith
    · constructor <;> simp only [goTo, Asleep, Function.update_apply, Monitor.notify] <;>
        grind -linarith
  case flush =>
    subst h
    have hinside : s.monitor.mutex.holder = some t := (hholder t).mpr (.inl (by rw [hpc]; trivial))
    rw [hinside, if_neg nofun] at hdepth
    rw [Monitor.flush, if_pos hdepth]
    rcases s.monitor.signal_cases none with ⟨hsame, hnone⟩ | ⟨n, hwaits, hwoken⟩
    · rw [hsame]
      constructor <;> simp only [goTo, Asleep, Function.update_apply] <;> grind -linarith
    · rw [hwoken]
      constructor <;>
        simp only [goTo, Asleep, Function.update_apply, Base.ReentrantLock.put] <;> grind -linarith
  case leave =>
    obtain ⟨m, ⟨hinside, rfl⟩, rfl⟩ := h
    constructor <;>
      simp only [goTo, Asleep, Function.update_apply, Base.ReentrantLock.hold] <;> grind -linarith

theorem sound_waitMove {s s' : ServiceThread T} {interrupted : Bool} (hs : s.Sound)
    (h : s.waitMove interrupted = some s') : s'.Sound := by
  unfold waitMove at h
  obtain ⟨hholder, hdepth, hcallers, hhere, hparked, hapart, hfresh, hwaiting, hsignals⟩ := hs
  unfold Asleep at hsignals
  cases hpc : s.waiter <;> simp only [hpc, Option.some.injEq, Option.map_eq_some_iff,
    Monitor.lock_eq_some, Monitor.leave_eq_some, Monitor.resume_eq_some, reduceCtorEq] at h
  case lock =>
    obtain ⟨m, ⟨⟨hplace, hfree⟩, rfl⟩, rfl⟩ := h
    constructor <;> simp only [Asleep, Base.ReentrantLock.hold] <;> grind -linarith
  case test =>
    subst h
    split_ifs with hnotified
    · constructor <;> simp only [Asleep] <;> grind -linarith
    · constructor <;> simp only [Asleep] <;> grind -linarith
  case wait =>
    simp only [Monitor.park_eq_some (hhere (by simp [hpc]))] at h
    obtain ⟨m, ⟨hinside, rfl⟩, rfl⟩ := h
    constructor <;> simp only [Asleep, Function.update_apply, Base.ReentrantLock.hold,
      Base.ReentrantLock.put] <;> grind -linarith
  case parked =>
    obtain ⟨m, ⟨n, hplace, hfree, rfl⟩, rfl⟩ := h
    constructor <;> simp only [Asleep, Function.update_apply, Base.ReentrantLock.hold,
      Base.ReentrantLock.put] <;> grind -linarith
  case flush =>
    subst h
    rw [Monitor.flush_of_here (hhere (by simp [hpc]))]
    constructor <;> simp only [Asleep] <;> grind -linarith
  case leave =>
    obtain ⟨m, ⟨hinside, rfl⟩, rfl⟩ := h
    constructor <;> simp only [Asleep, Base.ReentrantLock.hold] <;> grind -linarith

theorem sound_step (s : ServiceThread T) (e : ServiceEvent T) (s' : ServiceThread T) (hs : s.Sound)
    (h : s.step e = some s') : s'.Sound := by
  cases e with
  | stop t | wakeup t =>
    rw [step] at h
    split_ifs at h with hcall
    obtain rfl := Option.some.inj h
    exact hs.begin hcall id
  | caller t => exact sound_caller hs h
  | waitForRunning =>
    rw [step] at h
    split_ifs at h with hcall
    obtain rfl := Option.some.inj h
    obtain ⟨hholder, hdepth, hcallers, hhere, hparked, hapart, hfresh, hwaiting, hsignals⟩ := hs
    unfold Asleep at hsignals
    constructor <;> simp only [Asleep] <;> grind -linarith
  | waiter interrupted => exact sound_waitMove hs h
  | wake =>
    simp only [step, Option.map_eq_some_iff, Monitor.wake_eq_some] at h
    obtain ⟨m, ⟨n, hplace, rfl⟩, rfl⟩ := h
    obtain ⟨hholder, hdepth, hcallers, hhere, hparked, hapart, hfresh, hwaiting, hsignals⟩ := hs
    unfold Asleep at hsignals
    constructor <;> simp only [Asleep, Function.update_apply, Base.ReentrantLock.put] <;>
      grind -linarith

/-! ### A service that sleeps -/

/-- A thread inside the monitor can move. -/
theorem Sound.inside_moves {s : ServiceThread T} (hs : s.Sound) {t : Option T}
    (hinside : (s.callers t).Inside) : (s.caller t).isSome := by
  have hholder := (hs.holder t).mpr (.inl hinside)
  unfold caller
  cases hpc : s.callers t <;> simp_all [Monitor.leave, Base.ReentrantLock.step]

omit [DecidableEq T] in
/-- A service that sleeps is in its wait. -/
theorem Sound.waiter_of_asleep {s : ServiceThread T} (hs : s.Sound) (hasleep : s.Asleep) :
    s.waiter = .parked := by
  by_contra hwaiter
  rw [Asleep, hs.waiter_here hwaiter] at hasleep
  cases hasleep

/-- While the service sleeps, no thread in `stop` or `wakeup` is kept from going on. -/
theorem Sound.caller_moves {s : ServiceThread T} (hs : s.Sound) (hasleep : s.Asleep) {t : Option T}
    (hcalls : s.callers t ≠ .out) : ∃ u, s.callers u ≠ .out ∧ (s.caller u).isSome := by
  have hparked := hs.waiter_of_asleep hasleep
  have hplace : s.monitor.mutex.place t = .here := by
    cases t with
    | none => exact absurd (hs.apart hcalls) (by rw [hparked]; nofun)
    | some t => exact hs.callers_here t
  cases hholder : s.monitor.mutex.holder with
  | none =>
    refine ⟨t, hcalls, ?_⟩
    have hlock : ¬ (s.callers t).Inside := fun hinside ↦ by
      have := (hs.holder t).mpr (.inl hinside)
      rw [hholder] at this
      cases this
    unfold caller
    cases hpc : s.callers t <;> simp_all [Monitor.lock, Base.ReentrantLock.step]
  | some u =>
    rcases (hs.holder u).mp hholder with hinside | ⟨-, hwaiter⟩
    · refine ⟨u, fun hout ↦ ?_, hs.inside_moves hinside⟩
      rw [hout] at hinside
      exact hinside
    · rw [hparked] at hwaiter
      cases hwaiter

/-- A service that sleeps although it has been notified is about to be signalled. -/
theorem Sound.signal_comes {s : ServiceThread T} (hs : s.Sound) (hasleep : s.Asleep)
    (hnotified : s.notified = true) : ∃ t, s.callers t = .flush ∧ (s.caller t).isSome := by
  obtain ⟨t, hpc, -⟩ := hs.signals hasleep hnotified
  exact ⟨t, hpc, hs.inside_moves (by rw [hpc]; trivial)⟩

/-- The service is going to wait, or waits, for a wake-up. -/
def Waits (s : ServiceThread T) : Prop :=
  s.waiter = .lock ∨ s.waiter = .test ∨ s.waiter = .wait ∨ s.Asleep

omit [DecidableEq T] in
/-- Out of `waitForRunning` it does not wait. -/
theorem Sound.not_waits {s : ServiceThread T} (hs : s.Sound) (hout : s.waiter = .out) :
    ¬ s.Waits := by
  have hhere := hs.waiter_here (by rw [hout]; nofun)
  simp [Waits, Asleep, hout, hhere]

/-- A wake-up has arrived, or a thread is going to make one. -/
def Coming (s : ServiceThread T) : Prop :=
  s.notified = true ∨ ∃ t, s.callers t = .lock ∨ s.callers t = .test

/-- What the move of a thread in `stop` or `wakeup` does not do: it neither puts the service to
sleep nor takes a wake-up back, and it stops the service only with a wake-up to come. -/
theorem caller_spec {s s' : ServiceThread T} {t : Option T} (h : s.caller t = some s') :
    s'.waiter = s.waiter ∧ (s'.Waits → s.Waits) ∧ (s.Coming → s'.Coming) ∧
      (s'.stoped = true → s.stoped = true ∨ s'.Coming) ∧
      (s'.callers none ≠ .out → s.callers none ≠ .out) := by
  unfold caller at h
  cases hpc : s.callers t <;> simp only [hpc, Option.some.injEq, Option.map_eq_some_iff,
    Monitor.lock_eq_some, Monitor.leave_eq_some, reduceCtorEq] at h
  case stop =>
    subst h
    simp only [goTo, Waits, Coming, Asleep, Function.update_apply]
    grind -linarith
  case lock =>
    obtain ⟨m, ⟨-, rfl⟩, rfl⟩ := h
    simp only [goTo, Waits, Coming, Asleep, Function.update_apply, Base.ReentrantLock.hold]
    grind -linarith
  case test =>
    subst h
    unfold wakeupTest
    split_ifs <;> simp only [goTo, Waits, Coming, Asleep, Function.update_apply, Monitor.notify] <;>
      grind -linarith
  case flush =>
    subst h
    rw [Monitor.flush]
    rcases s.monitor.signal_cases none with ⟨hsame, -⟩ | ⟨n, hwaits, hwoken⟩
    · rw [hsame, ite_self]
      simp only [goTo, Waits, Coming, Asleep, Function.update_apply]
      grind -linarith
    · rw [hwoken]
      split_ifs <;> simp only [goTo, Waits, Coming, Asleep, Function.update_apply,
        Base.ReentrantLock.put] <;> grind -linarith
  case leave =>
    obtain ⟨m, ⟨-, rfl⟩, rfl⟩ := h
    simp only [goTo, Waits, Coming, Asleep, Function.update_apply, Base.ReentrantLock.hold]
    grind -linarith

/-- The end of the interval puts nobody to sleep. -/
theorem wake_spec {s s' : ServiceThread T} (h : s.step .wake = some s') :
    s'.waiter = s.waiter ∧ s'.callers = s.callers ∧ s'.notified = s.notified ∧
      s'.stoped = s.stoped ∧ (s'.Waits → s.Waits) := by
  simp only [step, Option.map_eq_some_iff, Monitor.wake_eq_some] at h
  obtain ⟨m, ⟨n, hplace, rfl⟩, rfl⟩ := h
  simp [Waits, Asleep, Base.ReentrantLock.put]
  grind -linarith

/-- A service that still waits after its move waited before, and has consumed nothing. -/
theorem waitMove_spec {s s' : ServiceThread T} {interrupted : Bool} (hs : s.Sound)
    (h : s.waitMove interrupted = some s') :
    s'.callers = s.callers ∧ s'.stoped = s.stoped ∧
      (s'.Waits → s.Waits ∧ s'.notified = s.notified) := by
  have hs' := sound_waitMove hs h
  have hhere := hs.waiter_here
  have hhere' := hs'.waiter_here
  unfold waitMove at h
  cases hpc : s.waiter <;>
    simp only [hpc, Option.some.injEq, Option.map_eq_some_iff, reduceCtorEq] at h
  case test =>
    subst h
    split_ifs at hhere' ⊢ <;> simp_all [Waits, Asleep]
  case flush =>
    subst h
    simp_all [Waits, Asleep]
  all_goals
    obtain ⟨m, -, rfl⟩ := h
    simp_all [Waits, Asleep]

/-- A wake-up that `waitForRunning` has not consumed, or has and is returning with. -/
def Due (s : ServiceThread T) : Prop :=
  s.notified = true ∨ s.waiter = .flush ∨ s.waiter = .leave

theorem due_caller {s s' : ServiceThread T} {t : Option T} (hdue : s.Due)
    (h : s.caller t = some s') : s'.Due := by
  unfold caller at h
  unfold Due at hdue ⊢
  cases hpc : s.callers t <;>
    simp only [hpc, Option.some.injEq, Option.map_eq_some_iff, reduceCtorEq] at h
  case lock | leave =>
    obtain ⟨m, -, rfl⟩ := h
    exact hdue
  case test =>
    subst h
    unfold wakeupTest
    split_ifs with hnotified
    · exact .inl hnotified
    · exact .inl rfl
  case stop | flush =>
    subst h
    exact hdue

theorem due_waitMove {s s' : ServiceThread T} {interrupted : Bool} (hs : s.Sound) (hdue : s.Due)
    (hleave : s.waiter ≠ .leave) (h : s.waitMove interrupted = some s') : s'.Due := by
  unfold waitMove at h
  cases hpc : s.waiter <;>
    simp only [hpc, Option.some.injEq, Option.map_eq_some_iff, reduceCtorEq] at h
  case lock =>
    obtain ⟨m, -, rfl⟩ := h
    simp_all [Due]
  case test =>
    subst h
    split_ifs with hnotified
    · exact .inr (.inl rfl)
    · simp_all [Due]
  case wait =>
    have hnotified := hs.waiting hpc
    simp_all [Due]
  case parked =>
    obtain ⟨m, -, rfl⟩ := h
    exact .inr (.inl rfl)
  case flush =>
    subst h
    exact .inr (.inr rfl)
  case leave => exact absurd hpc hleave

end ServiceThread
end RocketMQ
