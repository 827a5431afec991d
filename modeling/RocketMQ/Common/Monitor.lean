import RocketMQ.Base.ReentrantLock

/-!
# The monitor

`src/kpr/Monitor.cpp` over the atomic lock, which the recursive mutex refines: notifications are
counted in `m_notifyCount` and issued when the thread that made them gives the monitor up. The
monitors here are waited on by one thread, so that one signal and a broadcast wake the same
thread.
-/

namespace RocketMQ

universe u

/-- `src/kpr/Monitor.h:24–45`; the condition variable's waiters are the waiting threads of the
mutex. -/
structure Monitor (T : Type u) where
  mutex : Base.ReentrantLock T
  notifyCount : Int

namespace Monitor

variable {T : Type u} [DecidableEq T]

/-- `src/kpr/Monitor.cpp:21–24`. -/
def new : Monitor T := ⟨.free, 0⟩

/-- `Lock`, `src/kpr/Monitor.cpp:83–89`; `none` while another thread is inside. -/
def lock (m : Monitor T) (t : T) : Option (Monitor T) :=
  (m.mutex.step (.enter t)).map fun mutex ↦
    ⟨mutex, if m.mutex.holder = none then 0 else m.notifyCount⟩

/-- `notify`, `src/kpr/Monitor.cpp:101–119`, on a condition where only `waiter` waits. -/
def signal (m : Monitor T) (waiter : T) : Monitor T :=
  if m.notifyCount = 0 then m
  else { m with mutex := (m.mutex.step (.wake waiter)).getD m.mutex }

/-- `Unlock` up to `m_mutex.Unlock()`, `src/kpr/Monitor.cpp:93–96`. -/
def flush (m : Monitor T) (waiter : T) : Monitor T :=
  if m.mutex.depth = 1 then m.signal waiter else m

/-- `m_mutex.Unlock()` in `Unlock`, `src/kpr/Monitor.cpp:98`. -/
def leave (m : Monitor T) (t : T) : Option (Monitor T) :=
  (m.mutex.step (.leave t)).map fun mutex ↦ { m with mutex }

/-- `src/kpr/Monitor.cpp:64–72`. -/
def notify (m : Monitor T) : Monitor T :=
  if m.notifyCount ≠ -1 then { m with notifyCount := m.notifyCount + 1 } else m

/-- `Wait` up to the wait, `src/kpr/Monitor.cpp:30–37` and `47–53`. -/
def park (m : Monitor T) (t waiter : T) : Option (Monitor T) :=
  let m := m.signal waiter
  (m.mutex.step (.park t)).map fun mutex ↦ { m with mutex }

/-- `pthread_cond_timedwait` ends without a signal, at its time or earlier. -/
def wake (m : Monitor T) (t : T) : Option (Monitor T) :=
  (m.mutex.step (.wake t)).map fun mutex ↦ { m with mutex }

/-- `Wait` from the wait on, `src/kpr/Monitor.cpp:38–43` and `54–61`, with or without an
exception. -/
def resume (m : Monitor T) (t : T) : Option (Monitor T) :=
  (m.mutex.step (.resume t)).map fun mutex ↦ ⟨mutex, 0⟩

section Steps

variable {m m' : Monitor T} {t w : T}

/-- A thread that is let in is inside once more; one that comes in finds no notification. -/
theorem lock_eq_some : m.lock t = some m' ↔
    (m.mutex.place t = .here ∧ (m.mutex.holder = none ∨ m.mutex.holder = some t)) ∧
      ⟨m.mutex.hold t (m.mutex.depth + 1), if m.mutex.holder = none then 0 else m.notifyCount⟩
        = m' := by
  simp [lock, Option.map_eq_some_iff, Base.ReentrantLock.step_enter_iff, and_assoc]

theorem leave_eq_some : m.leave t = some m' ↔
    m.mutex.holder = some t ∧ { m with mutex := m.mutex.hold t (m.mutex.depth - 1) } = m' := by
  simp [leave, Option.map_eq_some_iff, Base.ReentrantLock.step_leave_iff, and_assoc]

/-- A signal reaches the waiter if it waits, and does nothing else. -/
theorem signal_cases (m : Monitor T) (w : T) :
    m.signal w = m ∧ (m.notifyCount = 0 ∨ ∀ n, m.mutex.place w ≠ .waiting n) ∨
      ∃ n, m.mutex.place w = .waiting n ∧
        m.signal w = { m with mutex := m.mutex.put w (.returning n) } := by
  unfold signal
  split_ifs with hzero
  · exact .inl ⟨rfl, .inl hzero⟩
  · cases hstep : m.mutex.step (.wake w) with
    | none =>
      refine .inl ⟨rfl, .inr fun n hplace ↦ ?_⟩
      rw [Base.ReentrantLock.step_wake hplace] at hstep
      cases hstep
    | some mutex =>
      obtain ⟨n, hplace, rfl⟩ := Base.ReentrantLock.step_wake_iff.mp hstep
      exact .inr ⟨n, hplace, rfl⟩

/-- Nobody is signalled while nobody waits. -/
theorem signal_of_here (hplace : m.mutex.place w = .here) : m.signal w = m := by
  rcases m.signal_cases w with ⟨h, -⟩ | ⟨n, h, -⟩
  · exact h
  · rw [hplace] at h
    cases h

theorem flush_of_here (hplace : m.mutex.place w = .here) : m.flush w = m := by
  rw [flush, signal_of_here hplace, ite_self]

theorem park_eq_some (hplace : m.mutex.place w = .here) : m.park t w = some m' ↔
    m.mutex.holder = some t ∧
      { m with mutex := (m.mutex.hold t 0).put t (.waiting m.mutex.depth) } = m' := by
  simp [park, signal_of_here hplace, Option.map_eq_some_iff, Base.ReentrantLock.step_park_iff,
    and_assoc]

theorem wake_eq_some : m.wake t = some m' ↔
    ∃ n, m.mutex.place t = .waiting n ∧
      { m with mutex := m.mutex.put t (.returning n) } = m' := by
  simp [wake, Option.map_eq_some_iff, Base.ReentrantLock.step_wake_iff]

theorem resume_eq_some : m.resume t = some m' ↔
    ∃ n, m.mutex.place t = .returning n ∧ m.mutex.holder = none ∧
      ⟨(m.mutex.hold t n).put t .here, 0⟩ = m' := by
  simp [resume, Option.map_eq_some_iff, Base.ReentrantLock.step_resume_iff, and_assoc]

end Steps

end Monitor
end RocketMQ
