import Mathlib.Algebra.BigOperators.Group.List.Basic
import Mathlib.Algebra.GroupWithZero.Nat
import RocketMQ.Base.Run

/-!
# The thread pool

`src/kpr/ThreadPool.cpp`: producers add work, workers fetch it and wait when there is none, and a
manager stops those that have been idle for long. A step is one section under the pool's monitor
or under a worker's own, or one unlocked test of `m_stop`. Times are counted without wrap-around.
-/

namespace RocketMQ

universe u

/-- Where `ThreadPoolWorker::Run` is, `src/kpr/ThreadPool.cpp:64–109`. `waiting` is inside
`Wait`, which is what `IsWaiting` reports. -/
inductive WorkerPc (Work : Type u) where
  | outer
  | setIdle
  | enterWait
  | waiting
  | inner
  | getWork
  | setBusy (work : Work)
  | doing (work : Work)
  | afterInner
  | leave
deriving DecidableEq

/-- `src/kpr/ThreadPool.h:37–58`. -/
structure ThreadPoolWorker (Work : Type u) where
  pc : WorkerPc Work
  canWork : Bool
  stopped : Bool
  idleTime : Int
  idle : Bool

/-- `src/kpr/ThreadPool.h:81–121`. -/
structure ThreadPool (Work : Type u) where
  destroyed : Bool
  minCount : Int
  maxCount : Int
  maxIdleTime : Int
  count : Int
  step : Int
  works : List Work
  workers : List (ThreadPoolWorker Work)

namespace ThreadPoolWorker

variable {Work : Type u}

/-- A worker that `AddThreads` has started and seen waiting, `src/kpr/ThreadPool.cpp:191–218`. -/
def started : ThreadPoolWorker Work := ⟨.waiting, false, false, 0, true⟩

/-- `src/kpr/ThreadPool.cpp:42–47`. -/
def setIdle (w : ThreadPoolWorker Work) (idle : Bool) : ThreadPoolWorker Work :=
  { w with idle, idleTime := 0 }

/-- `IdleTime`, `src/kpr/ThreadPool.cpp:49–61`; the result is the new `idleTime`. -/
def addIdleTime (w : ThreadPoolWorker Work) (idleTime : Int) : ThreadPoolWorker Work :=
  { w with idleTime := if w.idle then w.idleTime + idleTime else 0 }

/-- `src/kpr/ThreadPool.cpp:111–117`. -/
def wakeUp (w : ThreadPoolWorker Work) : ThreadPoolWorker Work :=
  { w.setIdle false with canWork := true }

/-- `src/kpr/ThreadPool.cpp:119–125`. -/
def stop (w : ThreadPoolWorker Work) : ThreadPoolWorker Work :=
  { w with canWork := true, stopped := true }

/-- It is about to wait or waits. -/
def AtWait (w : ThreadPoolWorker Work) : Prop := w.pc = .enterWait ∨ w.pc = .waiting

/-- It has not been stopped, and it has been woken or is between two looks at the queue. -/
def Active (w : ThreadPoolWorker Work) : Prop :=
  w.stopped = false ∧ (w.canWork = true ∨
    match w.pc with
    | .inner | .getWork | .setBusy _ | .doing _ => True
    | .outer | .setIdle | .enterWait | .waiting | .afterInner | .leave => False)

instance : ∀ w : ThreadPoolWorker Work, Decidable w.Active
  | ⟨.inner, _, _, _, _⟩ | ⟨.getWork, _, _, _, _⟩ | ⟨.setBusy _, _, _, _, _⟩
  | ⟨.doing _, _, _, _, _⟩ => inferInstanceAs (Decidable (_ ∧ (_ ∨ True)))
  | ⟨.outer, _, _, _, _⟩ | ⟨.setIdle, _, _, _, _⟩ | ⟨.enterWait, _, _, _, _⟩
  | ⟨.waiting, _, _, _, _⟩ | ⟨.afterInner, _, _, _, _⟩ | ⟨.leave, _, _, _, _⟩ =>
    inferInstanceAs (Decidable (_ ∧ (_ ∨ False)))

/-- What holds of a worker that has not been stopped: it is idle only at its wait and before it is
woken, and is woken only there. -/
structure Kept (w : ThreadPoolWorker Work) : Prop where
  idle : w.stopped = false → w.idle = true → w.AtWait ∧ w.canWork = false
  canWork : w.stopped = false → w.canWork = true → w.AtWait

end ThreadPoolWorker

namespace ThreadPool

variable {Work : Type u}

/-- `src/kpr/ThreadPool.cpp:191–218`, when `started` threads at most can be started. -/
def addThreads (p : ThreadPool Work) (count : Int) (started : Nat) : ThreadPool Work :=
  { p with
    workers := p.workers ++ List.replicate (min count.toNat started) .started
    count := p.count + (min count.toNat started : Nat) }

/-- The constructor, `src/kpr/ThreadPool.cpp:133–184`. -/
def new (count minCount maxCount step maxIdleTime : Int) (started : Nat) : ThreadPool Work :=
  let minCount := if minCount ≤ 0 then 5 else minCount
  let maxCount := if maxCount < 0 then 300 else maxCount
  let maxIdleTime := if maxIdleTime < 0 then 300000 else maxIdleTime
  let minCount := if maxCount ≠ 0 ∧ maxCount < minCount then 5 else minCount
  let count := if maxCount ≠ 0 ∧ count > maxCount ∨ count < minCount then minCount else count
  ({ destroyed := false, minCount, maxCount, maxIdleTime, count := 0, step, works := [],
     workers := [] } : ThreadPool Work).addThreads count started

/-- `WakeOneThread` on the workers that are left, `src/kpr/ThreadPool.cpp:349–362`; `none` when
none of them is idle. -/
def wakeOneThread : List (ThreadPoolWorker Work) → Option (List (ThreadPoolWorker Work))
  | [] => none
  | w :: ws => if w.idle then some (w.wakeUp :: ws) else (wakeOneThread ws).map (w :: ·)

/-- There may be more threads, `src/kpr/ThreadPool.cpp:264`. -/
def hasRoom (p : ThreadPool Work) : Bool := p.maxCount = 0 || decide (p.count < p.maxCount)

/-- How many threads `AddWork` asks for then, `src/kpr/ThreadPool.cpp:266–271`. -/
def wanted (p : ThreadPool Work) : Int :=
  if 0 < p.maxCount ∧ p.count + p.step > p.maxCount then p.maxCount - p.count else p.step

/-- `src/kpr/ThreadPool.cpp:252–279`. -/
def addWork (p : ThreadPool Work) (work : Work) (started : Nat) : ThreadPool Work :=
  if p.destroyed then p
  else
    let p := { p with works := p.works ++ [work] }
    match wakeOneThread p.workers with
    | some workers => { p with workers }
    | none =>
      if p.hasRoom then
        let p := p.addThreads p.wanted started
        { p with workers := (wakeOneThread p.workers).getD p.workers }
      else p

/-- `src/kpr/ThreadPool.cpp:281–294`. -/
def getWork (p : ThreadPool Work) : ThreadPool Work × Option Work :=
  if p.destroyed then (p, none)
  else
    match p.works with
    | [] => (p, none)
    | work :: works => ({ p with works }, some work)

/-- `RemoveThread` for the worker at a position, `src/kpr/ThreadPool.cpp:302–317`. -/
def removeThread (p : ThreadPool Work) (i : Nat) : ThreadPool Work :=
  { p with workers := p.workers.eraseIdx i, count := p.count - 1 }

/-- The loop of `RemoveIdleThreads` over the workers that are left,
`src/kpr/ThreadPool.cpp:333–346`. -/
def removeIdleLoop (minCount maxIdleTime interval : Int) :
    Int → List (ThreadPoolWorker Work) → List (ThreadPoolWorker Work)
  | _, [] => []
  | size, w :: ws =>
    if size > minCount then
      if (w.addIdleTime interval).idleTime > maxIdleTime then
        (w.addIdleTime interval).stop :: removeIdleLoop minCount maxIdleTime interval (size - 1) ws
      else w.addIdleTime interval :: removeIdleLoop minCount maxIdleTime interval size ws
    else w :: ws

/-- `src/kpr/ThreadPool.cpp:319–347`, `interval` after the last call. -/
def removeIdleThreads (p : ThreadPool Work) (interval : Int) : ThreadPool Work :=
  if p.maxIdleTime = 0 then p
  else
    { p with
      workers := removeIdleLoop p.minCount p.maxIdleTime interval p.workers.length p.workers }

/-- The locked part of `Destroy`, `src/kpr/ThreadPool.cpp:222–238`. -/
def destroy (p : ThreadPool Work) : ThreadPool Work :=
  if p.destroyed then p else { p with destroyed := true, workers := p.workers.map (·.stop) }

/-- The next step of the worker at a position, `src/kpr/ThreadPool.cpp:64–109`. A worker that waits
goes on only when it can work. -/
def run (p : ThreadPool Work) (i : Nat) : Option (ThreadPool Work) :=
  match p.workers[i]? with
  | none => none
  | some w =>
    let goOn (w' : ThreadPoolWorker Work) := { p with workers := p.workers.set i w' }
    match w.pc with
    | .outer => some (goOn { w with pc := if w.stopped then .leave else .setIdle })
    | .setIdle => some (goOn { w.setIdle true with pc := .enterWait })
    | .enterWait =>
      some (goOn (if w.canWork then { w with canWork := false, pc := .inner }
        else { w with pc := .waiting }))
    | .waiting => if w.canWork then some (goOn { w with canWork := false, pc := .inner }) else none
    | .inner => some (goOn { w with pc := if w.stopped then .afterInner else .getWork })
    | .getWork =>
      match p.getWork with
      | (_, none) => some (goOn { w with pc := .afterInner })
      | (q, some work) => some { q with workers := q.workers.set i { w with pc := .setBusy work } }
    | .setBusy work => some (goOn { w.setIdle false with pc := .doing work })
    | .doing _ => some (goOn { w with pc := .inner })
    | .afterInner =>
      some (goOn { w with pc := if w.stopped || p.destroyed then .leave else .outer })
    | .leave => some (p.removeThread i)

end ThreadPool

/-- What can happen next. -/
inductive PoolEvent (Work : Type u) where
  | addWork (work : Work) (started : Nat)
  | removeIdleThreads (interval : Int)
  | destroy
  | run (i : Nat)

namespace ThreadPool

variable {Work : Type u}

/-- One step. -/
def next (p : ThreadPool Work) : PoolEvent Work → Option (ThreadPool Work)
  | .addWork work started => some (p.addWork work started)
  | .removeIdleThreads interval => some (p.removeIdleThreads interval)
  | .destroy => some p.destroy
  | .run i => p.run i

/-- The pool is in use, there is work, and every worker that is left has been stopped or waits
without a wake-up. -/
def Stranded (p : ThreadPool Work) : Prop :=
  p.destroyed = false ∧ p.works ≠ [] ∧
    ∀ w ∈ p.workers, w.stopped = true ∨ w.pc = .waiting ∧ w.canWork = false

/-- As long as there is work, some worker will look for it. -/
def Covered (p : ThreadPool Work) : Prop :=
  p.destroyed = false → p.works ≠ [] → ∃ w ∈ p.workers, w.Active

/-- The first idle worker has not been stopped, or nobody is idle and a thread is started. -/
def Wakes (p : ThreadPool Work) (started : Nat) : Option (ThreadPoolWorker Work) → Prop
  | some w => w.stopped = false
  | none => p.hasRoom = true ∧ 0 < p.wanted ∧ 0 < started

instance (p : ThreadPool Work) (started : Nat) : ∀ w, Decidable (p.Wakes started w)
  | some _ => inferInstanceAs (Decidable (_ = _))
  | none => inferInstanceAs (Decidable (_ ∧ _))

/-- Work is added while a worker is active, or it reaches one that has not been stopped. -/
def WakesInTime (p : ThreadPool Work) : PoolEvent Work → Prop
  | .addWork _ started => p.destroyed = true ∨ (∃ w ∈ p.workers, w.Active) ∨
      p.Wakes started (p.workers.find? (·.idle))
  | .removeIdleThreads _ | .destroy | .run _ => True

instance : ∀ (p : ThreadPool Work) e, Decidable (p.WakesInTime e)
  | _, .addWork _ _ => inferInstanceAs (Decidable (_ ∨ _ ∨ _))
  | _, .removeIdleThreads _ | _, .destroy | _, .run _ => inferInstanceAs (Decidable True)

/-- Every worker is kept, and only a positive idle time is too long. -/
structure Kept (p : ThreadPool Work) : Prop where
  workers : ∀ w ∈ p.workers, w.Kept
  maxIdleTime : 0 ≤ p.maxIdleTime

end ThreadPool

/-! ### One worker -/

namespace ThreadPoolWorker

variable {Work : Type u} {w : ThreadPoolWorker Work}

theorem kept_of_stopped (h : w.stopped = true) : w.Kept := by
  refine ⟨fun hrun ↦ ?_, fun hrun ↦ ?_⟩
  · rw [h] at hrun
    cases hrun
  · rw [h] at hrun
    cases hrun

/-- A worker that is neither idle nor woken. -/
theorem kept_of_busy (hidle : w.idle = false) (hcanWork : w.canWork = false) : w.Kept := by
  refine ⟨fun _ h ↦ ?_, fun _ h ↦ ?_⟩
  · rw [hidle] at h
    cases h
  · rw [hcanWork] at h
    cases h

theorem kept_started : (started : ThreadPoolWorker Work).Kept :=
  ⟨fun _ _ ↦ ⟨.inr rfl, rfl⟩, fun _ h ↦ (by cases h)⟩

theorem Kept.wakeUp (h : w.Kept) (hidle : w.idle = true) : w.wakeUp.Kept :=
  ⟨fun _ h ↦ (by cases h), fun hrun _ ↦ (h.idle hrun hidle).1⟩

/-- Waking makes a worker active unless it has been stopped. -/
theorem active_wakeUp_iff : w.wakeUp.Active ↔ w.stopped = false :=
  and_iff_left (.inl rfl)

/-- An idle worker is not active. -/
theorem Kept.not_active (h : w.Kept) (hidle : w.idle = true) : ¬ w.Active := by
  rintro ⟨hrun, hactive⟩
  obtain ⟨hwait, hcanWork⟩ := h.idle hrun hidle
  rcases hactive with hwoken | hlooks
  · rw [hcanWork] at hwoken
    cases hwoken
  · rcases hwait with hpc | hpc
    · rw [hpc] at hlooks
      exact hlooks
    · rw [hpc] at hlooks
      exact hlooks

/-- A worker past its wait has not been woken. -/
theorem Kept.canWork_eq_false (h : w.Kept) (hrun : w.stopped = false) (hwait : ¬ w.AtWait) :
    w.canWork = false := by
  rw [← Bool.not_eq_true]
  exact fun hcanWork ↦ hwait (h.canWork hrun hcanWork)

theorem Kept.idle_eq_false (h : w.Kept) (hrun : w.stopped = false) (hwait : ¬ w.AtWait) :
    w.idle = false := by
  rw [← Bool.not_eq_true]
  exact fun hidle ↦ hwait (h.idle hrun hidle).1

/-- A worker that leaves is not active. -/
theorem Kept.not_active_of_leave (h : w.Kept) (hpc : w.pc = .leave) : ¬ w.Active := by
  rintro ⟨hrun, hactive⟩
  rw [hpc, h.canWork_eq_false hrun (by simp [AtWait, hpc])] at hactive
  simp at hactive

/-- How far a worker that nobody wakes is from its wait or its end. -/
def distance (w : ThreadPoolWorker Work) : Nat :=
  if w.stopped then 0
  else
    match w.pc with
    | .afterInner => 4
    | .outer => 3
    | .setIdle => 2
    | .enterWait | .leave => 1
    | .waiting | .inner | .getWork | .setBusy _ | .doing _ => 0

end ThreadPoolWorker

namespace ThreadPool

variable {Work : Type u} {p t : ThreadPool Work} {e : PoolEvent Work}

/-- What a step of a worker does to it. -/
structure RunSpec (p : ThreadPool Work) (w w' : ThreadPoolWorker Work) : Prop where
  stopped : w'.stopped = w.stopped
  kept : w.Kept → w'.Kept
  active : p.destroyed = false → p.works ≠ [] → w.Kept → w.Active → w'.Active

/-- A step past the wait that leaves the flags of the worker alone. -/
theorem runSpec_of_pc {w : ThreadPoolWorker Work} {pc : WorkerPc Work} (hwait : ¬ w.AtWait)
    (hactive : p.destroyed = false → p.works ≠ [] → w.Active → ({ w with pc } : _).Active) :
    p.RunSpec w { w with pc } := by
  refine ⟨rfl, fun hkept ↦ ?_, fun hdestroyed hworks _ ↦ hactive hdestroyed hworks⟩
  by_cases hrun : w.stopped = true
  · exact ThreadPoolWorker.kept_of_stopped hrun
  · rw [Bool.not_eq_true] at hrun
    exact ThreadPoolWorker.kept_of_busy (hkept.idle_eq_false hrun hwait)
      (hkept.canWork_eq_false hrun hwait)

/-- A woken worker goes on. -/
theorem runSpec_of_woken {w : ThreadPoolWorker Work} (hcanWork : w.canWork = true) :
    p.RunSpec w { w with canWork := false, pc := .inner } := by
  refine ⟨rfl, fun hkept ↦ ?_, fun _ _ _ hactive ↦ ⟨hactive.1, .inr trivial⟩⟩
  by_cases hrun : w.stopped = true
  · exact ThreadPoolWorker.kept_of_stopped hrun
  · rw [Bool.not_eq_true] at hrun
    apply ThreadPoolWorker.kept_of_busy _ rfl
    rw [← Bool.not_eq_true]
    intro hidle
    have hclear := (hkept.idle hrun hidle).2
    rw [hcanWork] at hclear
    cases hclear

theorem runSpec_setIdle {w : ThreadPoolWorker Work} (hpc : w.pc = .setIdle) :
    p.RunSpec w { w.setIdle true with pc := .enterWait } := by
  have hwait : ¬ w.AtWait := by simp [ThreadPoolWorker.AtWait, hpc]
  refine ⟨rfl, fun hkept ↦ ⟨fun hrun _ ↦ ?_, fun _ _ ↦ .inl rfl⟩, ?_⟩
  · exact ⟨.inl rfl, hkept.canWork_eq_false hrun hwait⟩
  · rintro - - hkept ⟨hrun, hactive⟩
    rw [hpc, hkept.canWork_eq_false hrun hwait] at hactive
    simp at hactive

theorem runSpec_enterWait {w : ThreadPoolWorker Work} (hpc : w.pc = .enterWait) :
    p.RunSpec w (if w.canWork then { w with canWork := false, pc := .inner }
      else { w with pc := .waiting }) := by
  split_ifs with hcanWork
  · exact runSpec_of_woken hcanWork
  · refine ⟨rfl, fun hkept ↦ ?_, ?_⟩
    · exact ⟨fun hrun hidle ↦ ⟨.inr rfl, (hkept.idle hrun hidle).2⟩, fun _ _ ↦ .inr rfl⟩
    · rintro - - - ⟨hrun, hactive⟩
      rw [hpc] at hactive
      exact absurd (hactive.resolve_right id) hcanWork

theorem runSpec_setBusy {w : ThreadPoolWorker Work} {work : Work} (hpc : w.pc = .setBusy work) :
    p.RunSpec w { w.setIdle false with pc := .doing work } := by
  have hwait : ¬ w.AtWait := by simp [ThreadPoolWorker.AtWait, hpc]
  refine ⟨rfl, fun hkept ↦ ?_, fun _ _ _ hactive ↦ ⟨hactive.1, .inr trivial⟩⟩
  by_cases hrun : w.stopped = true
  · exact ThreadPoolWorker.kept_of_stopped hrun
  · rw [Bool.not_eq_true] at hrun
    exact ThreadPoolWorker.kept_of_busy rfl (hkept.canWork_eq_false hrun hwait)

theorem getWork_cases (p : ThreadPool Work) :
    p.getWork = (p, none) ∧ (p.destroyed = true ∨ p.works = []) ∨
      ∃ work works, p.works = work :: works ∧ p.getWork = ({ p with works }, some work) := by
  rw [getWork]
  split_ifs with hdestroyed
  · exact .inl ⟨rfl, .inl hdestroyed⟩
  · cases hworks : p.works with
    | nil => exact .inl ⟨rfl, .inr rfl⟩
    | cons work works => exact .inr ⟨work, works, rfl, rfl⟩

/-- A worker finds no work in a pool that is destroyed or has none. -/
theorem runSpec_noWork {w : ThreadPoolWorker Work} (hpc : w.pc = .getWork)
    (hnone : p.destroyed = true ∨ p.works = []) : p.RunSpec w { w with pc := .afterInner } := by
  apply runSpec_of_pc (by simp [ThreadPoolWorker.AtWait, hpc])
  intro hdestroyed hworks _
  rcases hnone with hdestroyed' | hworks'
  · rw [hdestroyed] at hdestroyed'
    cases hdestroyed'
  · exact absurd hworks' hworks

/-- A step of a worker moves it on, or takes it out of the pool. -/
theorem run_spec {i : Nat} (h : p.run i = some t) : ∃ w, p.workers[i]? = some w ∧
    t.destroyed = p.destroyed ∧ t.maxIdleTime = p.maxIdleTime ∧ (t.works ≠ [] → p.works ≠ []) ∧
    ((∃ w', t.workers = p.workers.set i w' ∧ p.RunSpec w w') ∨
      w.pc = .leave ∧ t.workers = p.workers.eraseIdx i) := by
  rw [run] at h
  split at h
  · cases h
  next w hw =>
  refine ⟨w, hw, ?_⟩
  cases hpc : w.pc with
  | outer =>
    simp only [hpc, Option.some.injEq] at h
    subst h
    refine ⟨rfl, rfl, id, .inl ⟨_, rfl, runSpec_of_pc ?_ ?_⟩⟩
    · simp [ThreadPoolWorker.AtWait, hpc]
    · rintro - - ⟨hrun, hactive⟩
      rw [hpc] at hactive
      exact ⟨hrun, .inl (hactive.resolve_right id)⟩
  | setIdle =>
    simp only [hpc, Option.some.injEq] at h
    subst h
    exact ⟨rfl, rfl, id, .inl ⟨_, rfl, runSpec_setIdle hpc⟩⟩
  | enterWait =>
    simp only [hpc, Option.some.injEq] at h
    subst h
    exact ⟨rfl, rfl, id, .inl ⟨_, rfl, runSpec_enterWait hpc⟩⟩
  | waiting =>
    simp only [hpc, Option.ite_none_right_eq_some, Option.some.injEq] at h
    obtain ⟨hcanWork, rfl⟩ := h
    exact ⟨rfl, rfl, id, .inl ⟨_, rfl, runSpec_of_woken hcanWork⟩⟩
  | inner =>
    simp only [hpc, Option.some.injEq] at h
    subst h
    refine ⟨rfl, rfl, id, .inl ⟨_, rfl, runSpec_of_pc ?_ ?_⟩⟩
    · simp [ThreadPoolWorker.AtWait, hpc]
    · rintro - - ⟨hrun, -⟩
      rw [hrun]
      exact ⟨rfl, .inr trivial⟩
  | getWork =>
    rcases p.getWork_cases with ⟨hget, hnone⟩ | ⟨work, works, hworks, hget⟩
    · simp only [hpc, hget, Option.some.injEq] at h
      subst h
      exact ⟨rfl, rfl, id, .inl ⟨_, rfl, runSpec_noWork hpc hnone⟩⟩
    · simp only [hpc, hget, Option.some.injEq] at h
      subst h
      refine ⟨rfl, rfl, fun _ ↦ ?_, .inl ⟨_, rfl, runSpec_of_pc ?_ ?_⟩⟩
      · rw [hworks]
        exact List.cons_ne_nil work works
      · simp [ThreadPoolWorker.AtWait, hpc]
      · exact fun _ _ hactive ↦ ⟨hactive.1, .inr trivial⟩
  | setBusy work =>
    simp only [hpc, Option.some.injEq] at h
    subst h
    exact ⟨rfl, rfl, id, .inl ⟨_, rfl, runSpec_setBusy hpc⟩⟩
  | doing work =>
    simp only [hpc, Option.some.injEq] at h
    subst h
    refine ⟨rfl, rfl, id, .inl ⟨_, rfl, runSpec_of_pc ?_ ?_⟩⟩
    · simp [ThreadPoolWorker.AtWait, hpc]
    · exact fun _ _ hactive ↦ ⟨hactive.1, .inr trivial⟩
  | afterInner =>
    simp only [hpc, Option.some.injEq] at h
    subst h
    refine ⟨rfl, rfl, id, .inl ⟨_, rfl, runSpec_of_pc ?_ ?_⟩⟩
    · simp [ThreadPoolWorker.AtWait, hpc]
    · rintro - - ⟨hrun, hactive⟩
      rw [hpc] at hactive
      exact ⟨hrun, .inl (hactive.resolve_right id)⟩
  | leave =>
    simp only [hpc, Option.some.injEq] at h
    subst h
    exact ⟨rfl, rfl, id, .inr ⟨rfl, rfl⟩⟩

/-! ### Waking and stopping -/

section Workers

variable {ws : List (ThreadPoolWorker Work)}

/-- The first idle worker is woken, when there is one. -/
theorem wakeOneThread_cases (ws : List (ThreadPoolWorker Work)) :
    ws.find? (·.idle) = none ∧ wakeOneThread ws = none ∨
      ∃ pre w post, ws = pre ++ w :: post ∧ w.idle = true ∧ ws.find? (·.idle) = some w ∧
        wakeOneThread ws = some (pre ++ w.wakeUp :: post) := by
  induction ws with
  | nil => exact .inl ⟨rfl, rfl⟩
  | cons w ws ih =>
    rw [wakeOneThread]
    by_cases hidle : w.idle = true
    · refine .inr ⟨[], w, ws, rfl, hidle, ?_, if_pos hidle⟩
      rw [List.find?_cons_of_pos hidle]
    · rw [List.find?_cons_of_neg hidle, if_neg hidle]
      rcases ih with ⟨hfind, hwake⟩ | ⟨pre, x, post, hws, hx, hfind, hwake⟩
      · exact .inl ⟨hfind, by rw [hwake]; rfl⟩
      · refine .inr ⟨w :: pre, x, post, ?_, hx, hfind, by rw [hwake]; rfl⟩
        rw [hws, List.cons_append]

theorem kept_wakeOneThread (h : ∀ w ∈ ws, w.Kept) :
    ∀ w ∈ (wakeOneThread ws).getD ws, w.Kept := by
  rcases wakeOneThread_cases ws with ⟨-, hwake⟩ | ⟨pre, x, post, rfl, hidle, -, hwake⟩
  · rw [hwake]
    exact h
  · rw [hwake, Option.getD_some]
    intro w hw
    rcases List.mem_append.mp hw with hpre | hpost
    · exact h w (List.mem_append_left _ hpre)
    · rcases List.mem_cons.mp hpost with rfl | hmem
      · exact (h x (List.mem_append_right _ List.mem_cons_self)).wakeUp hidle
      · exact h w (List.mem_append_right _ (List.mem_cons_of_mem _ hmem))

/-- Waking makes some worker active exactly when one was or the first idle one has not been
stopped. -/
theorem active_wakeOneThread_iff (h : ∀ w ∈ ws, w.Kept) :
    (∃ w ∈ (wakeOneThread ws).getD ws, w.Active) ↔
      (∃ w ∈ ws, w.Active) ∨ ∃ w ∈ ws.find? (·.idle), w.stopped = false := by
  rcases wakeOneThread_cases ws with ⟨hfind, hwake⟩ | ⟨pre, x, post, hws, hidle, hfind, hwake⟩
  · rw [hwake, hfind]
    simp
  · have hx : ¬ x.Active := by
      apply ThreadPoolWorker.Kept.not_active _ hidle
      rw [hws] at h
      exact h x (List.mem_append_right _ List.mem_cons_self)
    rw [hwake, hfind, Option.getD_some, hws]
    simp only [List.mem_append, List.mem_cons, or_and_right, exists_or, exists_eq_left,
      ThreadPoolWorker.active_wakeUp_iff, Option.mem_some_iff, eq_comm (a := x), hx, false_or]
    rw [or_assoc]
    exact or_congr_right or_comm

theorem kept_removeIdleLoop {minCount maxIdleTime interval : Int} (size : Int)
    (h : ∀ w ∈ ws, w.Kept) :
    ∀ w ∈ removeIdleLoop minCount maxIdleTime interval size ws, w.Kept := by
  induction ws generalizing size with
  | nil => exact h
  | cons w ws ih =>
    have hw := h w List.mem_cons_self
    have hws := fun x hx ↦ h x (List.mem_cons_of_mem w hx)
    rw [removeIdleLoop]
    split_ifs
    · intro x hx
      rcases List.mem_cons.mp hx with rfl | hmem
      · exact ThreadPoolWorker.kept_of_stopped rfl
      · exact ih (size - 1) hws x hmem
    · intro x hx
      rcases List.mem_cons.mp hx with rfl | hmem
      · exact ⟨hw.idle, hw.canWork⟩
      · exact ih size hws x hmem
    · exact h

/-- Only idle workers are stopped, so active ones stay active. -/
theorem active_removeIdleLoop {minCount maxIdleTime interval : Int} (hmax : 0 ≤ maxIdleTime)
    (size : Int) (h : ∀ w ∈ ws, w.Kept) (hactive : ∃ w ∈ ws, w.Active) :
    ∃ w ∈ removeIdleLoop minCount maxIdleTime interval size ws, w.Active := by
  induction ws generalizing size with
  | nil => exact hactive
  | cons w ws ih =>
    have hws := fun x hx ↦ h x (List.mem_cons_of_mem w hx)
    obtain ⟨x, hx, hxactive⟩ := hactive
    rw [removeIdleLoop]
    by_cases hhead : w.Active
    · have hidle : w.idle = false := by
        rw [← Bool.not_eq_true]
        exact fun hidle ↦ (h w List.mem_cons_self).not_active hidle hhead
      have htime : ¬ (w.addIdleTime interval).idleTime > maxIdleTime := by
        rw [ThreadPoolWorker.addIdleTime, hidle]
        exact Int.not_lt.mpr hmax
      rw [if_neg htime]
      split_ifs
      · exact ⟨w.addIdleTime interval, List.mem_cons_self, hhead⟩
      · exact ⟨w, List.mem_cons_self, hhead⟩
    · have htail : x ∈ ws := by
        rcases List.mem_cons.mp hx with rfl | hmem
        · exact absurd hxactive hhead
        · exact hmem
      split_ifs
      · obtain ⟨y, hy, hyactive⟩ := ih (size - 1) hws ⟨x, htail, hxactive⟩
        exact ⟨y, List.mem_cons_of_mem _ hy, hyactive⟩
      · obtain ⟨y, hy, hyactive⟩ := ih size hws ⟨x, htail, hxactive⟩
        exact ⟨y, List.mem_cons_of_mem _ hy, hyactive⟩
      · exact ⟨x, hx, hxactive⟩

end Workers

/-! ### One step of the pool -/

/-- What adding work leaves of the pool. -/
theorem addWork_eq (hdestroyed : p.destroyed = false) (work : Work) (started : Nat) :
    (p.addWork work started).destroyed = false ∧
      (p.addWork work started).maxIdleTime = p.maxIdleTime ∧
      (p.addWork work started).works = p.works ++ [work] ∧
      ∃ n, (n = 0 ∨ p.workers.find? (·.idle) = none) ∧
        (p.workers.find? (·.idle) = none →
          (0 < n ↔ p.hasRoom = true ∧ 0 < p.wanted ∧ 0 < started)) ∧
        (p.addWork work started).workers =
          (wakeOneThread (p.workers ++ List.replicate n .started)).getD
            (p.workers ++ List.replicate n .started) := by
  rw [addWork, if_neg (by rw [hdestroyed]; exact Bool.false_ne_true)]
  rcases wakeOneThread_cases p.workers with ⟨hfind, hwake⟩ | ⟨pre, x, post, -, -, hfind, hwake⟩
  · simp only [hwake]
    by_cases hroom : p.hasRoom = true
    · have hroom' : hasRoom { p with works := p.works ++ [work] } = true := hroom
      rw [if_pos hroom']
      refine ⟨hdestroyed, rfl, rfl, min p.wanted.toNat started, .inr hfind, fun _ ↦ ?_, rfl⟩
      rw [and_iff_right hroom]
      omega
    · have hroom' : ¬ hasRoom { p with works := p.works ++ [work] } = true := hroom
      rw [if_neg hroom']
      refine ⟨hdestroyed, rfl, rfl, 0, .inl rfl, fun _ ↦ ?_, ?_⟩
      · exact iff_of_false (Nat.lt_irrefl 0) fun h ↦ hroom h.1
      · rw [List.replicate_zero, List.append_nil, hwake]
        rfl
  · simp only [hwake]
    refine ⟨hdestroyed, trivial, trivial, 0, .inl rfl, fun hnone ↦ ?_, ?_⟩
    · rw [hfind] at hnone
      cases hnone
    · rw [List.replicate_zero, List.append_nil, hwake]
      rfl

/-- The workers after adding work, new ones included. -/
theorem kept_append_started (h : ∀ w ∈ p.workers, w.Kept) (n : Nat) :
    ∀ w ∈ p.workers ++ List.replicate n .started, w.Kept := by
  intro w hw
  rcases List.mem_append.mp hw with hold | hnew
  · exact h w hold
  · rw [List.eq_of_mem_replicate hnew]
    exact ThreadPoolWorker.kept_started

/-- Added work is covered exactly when it was added in time. -/
theorem covered_addWork (h : p.Kept) (hdestroyed : p.destroyed = false) (work : Work)
    (started : Nat) :
    (p.addWork work started).Covered ↔ p.WakesInTime (.addWork work started) := by
  obtain ⟨hdestroyed', -, hworks, n, hn, hroom, hworkers⟩ := addWork_eq hdestroyed work started
  have hactive : (∃ w ∈ p.workers ++ List.replicate n .started, w.Active) ↔
      ∃ w ∈ p.workers, w.Active := by
    refine ⟨fun ⟨w, hw, hwactive⟩ ↦ ?_, fun ⟨w, hw, hwactive⟩ ↦
      ⟨w, List.mem_append_left _ hw, hwactive⟩⟩
    rcases List.mem_append.mp hw with hold | hnew
    · exact ⟨w, hold, hwactive⟩
    · rw [List.eq_of_mem_replicate hnew] at hwactive
      exact absurd hwactive (ThreadPoolWorker.kept_started.not_active rfl)
  have hcovered : (p.addWork work started).Covered ↔
      ∃ w ∈ (p.addWork work started).workers, w.Active := by
    rw [Covered, hworks, hdestroyed']
    exact ⟨fun hall ↦ hall rfl (List.append_ne_nil_of_right_ne_nil _ (List.cons_ne_nil _ _)),
      fun hall _ _ ↦ hall⟩
  rw [hcovered, hworkers, active_wakeOneThread_iff (kept_append_started h.workers n), hactive,
    WakesInTime, hdestroyed, List.find?_append]
  simp only [Bool.false_eq_true, false_or]
  apply or_congr_right
  cases hfind : p.workers.find? (·.idle) with
  | some w => simp [Wakes]
  | none =>
    rw [Option.none_or, List.find?_replicate, Wakes, ← hroom hfind]
    rcases Nat.eq_zero_or_pos n with rfl | hpos
    · simp
    · simp [hpos, hpos.ne', ThreadPoolWorker.started]

theorem kept_next (h : p.Kept) (hstep : p.next e = some t) : t.Kept := by
  cases e with
  | addWork work started =>
    cases hstep
    cases hdestroyed : p.destroyed with
    | true =>
      rw [addWork, if_pos hdestroyed]
      exact h
    | false =>
      obtain ⟨-, hmax, -, n, -, -, hworkers⟩ := addWork_eq hdestroyed work started
      refine ⟨?_, hmax ▸ h.maxIdleTime⟩
      rw [hworkers]
      exact kept_wakeOneThread (kept_append_started h.workers n)
  | removeIdleThreads interval =>
    cases hstep
    rw [removeIdleThreads]
    split_ifs
    · exact h
    · exact ⟨kept_removeIdleLoop _ h.workers, h.maxIdleTime⟩
  | destroy =>
    cases hstep
    rw [destroy]
    split_ifs
    · exact h
    · refine ⟨fun w hw ↦ ?_, h.maxIdleTime⟩
      obtain ⟨x, -, rfl⟩ := List.mem_map.mp hw
      exact ThreadPoolWorker.kept_of_stopped rfl
  | run i =>
    obtain ⟨w, hw, -, hmax, -, ⟨w', hworkers, hspec⟩ | ⟨-, hworkers⟩⟩ := run_spec hstep
    · refine ⟨fun x hx ↦ ?_, hmax ▸ h.maxIdleTime⟩
      rw [hworkers] at hx
      rcases List.mem_or_eq_of_mem_set hx with hold | rfl
      · exact h.workers x hold
      · exact hspec.kept (h.workers w (List.mem_of_getElem? hw))
    · refine ⟨fun x hx ↦ ?_, hmax ▸ h.maxIdleTime⟩
      rw [hworkers] at hx
      exact h.workers x (List.mem_of_mem_eraseIdx hx)

/-- A worker's step leaves some worker active while there is work. -/
theorem covered_run (h : p.Kept) (hcovered : p.Covered) {i : Nat} (hstep : p.run i = some t) :
    t.Covered := by
  obtain ⟨w, hw, hdestroyed, -, hworks, hworkers⟩ := run_spec hstep
  intro hdestroyed' hworks'
  rw [hdestroyed] at hdestroyed'
  obtain ⟨x, hx, hxactive⟩ := hcovered hdestroyed' (hworks hworks')
  obtain ⟨j, hj⟩ := List.mem_iff_getElem?.mp hx
  have hkept := h.workers w (List.mem_of_getElem? hw)
  have hlt := (List.getElem?_eq_some_iff.mp hw).1
  rcases hworkers with ⟨w', hset, hspec⟩ | ⟨hpc, herase⟩
  · rw [hset]
    by_cases hij : i = j
    · subst hij
      obtain rfl := Option.some.inj (hw.symm.trans hj)
      exact ⟨w', List.mem_iff_getElem?.mpr ⟨i, List.getElem?_set_self hlt⟩,
        hspec.active hdestroyed' (hworks hworks') hkept hxactive⟩
    · exact ⟨x, List.mem_iff_getElem?.mpr ⟨j, by rw [List.getElem?_set_ne hij, hj]⟩, hxactive⟩
  · rw [herase]
    refine ⟨x, ?_, hxactive⟩
    rw [List.mem_eraseIdx_iff_getElem?]
    refine ⟨j, fun hij ↦ ?_, hj⟩
    subst hij
    obtain rfl := Option.some.inj (hw.symm.trans hj)
    exact hkept.not_active_of_leave hpc hxactive

/-- A step that wakes in time leaves the work covered. -/
theorem covered_next (h : p.Kept) (hcovered : p.Covered) (hgood : p.WakesInTime e)
    (hstep : p.next e = some t) : t.Covered := by
  cases e with
  | addWork work started =>
    cases hstep
    cases hdestroyed : p.destroyed with
    | true =>
      rw [addWork, if_pos hdestroyed]
      exact hcovered
    | false => exact (covered_addWork h hdestroyed work started).mpr hgood
  | removeIdleThreads interval =>
    cases hstep
    rw [removeIdleThreads]
    split_ifs
    · exact hcovered
    · intro hdestroyed hworks
      exact active_removeIdleLoop h.maxIdleTime _ h.workers (hcovered hdestroyed hworks)
  | destroy =>
    cases hstep
    rw [destroy]
    split_ifs
    · exact hcovered
    · intro hdestroyed
      cases hdestroyed
  | run i => exact covered_run h hcovered hstep

/-- Any other step leaves work behind that no worker will look for. -/
theorem not_covered_next (h : p.Kept) (hbad : ¬ p.WakesInTime e) (hstep : p.next e = some t) :
    ¬ t.Covered := by
  cases e with
  | addWork work started =>
    cases hstep
    cases hdestroyed : p.destroyed with
    | true => exact absurd (.inl hdestroyed) hbad
    | false => exact fun hcovered ↦ hbad ((covered_addWork h hdestroyed work started).mp hcovered)
  | removeIdleThreads | destroy | run => exact absurd trivial hbad

/-- While some worker will look for the work, the pool is not stranded. -/
theorem Covered.not_stranded (h : p.Covered) : ¬ p.Stranded := by
  rintro ⟨hdestroyed, hworks, hall⟩
  obtain ⟨w, hw, hrun, hactive⟩ := h hdestroyed hworks
  rcases hall w hw with hstopped | ⟨hpc, hcanWork⟩
  · rw [hrun] at hstopped
    cases hstopped
  · rw [hpc, hcanWork] at hactive
    simp at hactive

/-! ### Whole runs -/

/-- A worker that is not active comes closer to its wait or its end. -/
theorem run_of_not_active (hdestroyed : p.destroyed = false) {i : Nat} {w : ThreadPoolWorker Work}
    (hi : p.workers[i]? = some w) (hrun : w.stopped = false) (hactive : ¬ w.Active)
    (hwait : ¬ (w.pc = .waiting ∧ w.canWork = false)) :
    ∃ t left, p.run i = some t ∧ t.destroyed = false ∧ t.works = p.works ∧
      t.workers.Perm (left ++ p.workers.eraseIdx i) ∧ (∀ w' ∈ left, ¬ w'.Active) ∧
      (left.map (·.distance)).sum < w.distance := by
  have hcanWork : w.canWork = false := by
    rw [← Bool.not_eq_true]
    exact fun hcanWork ↦ hactive ⟨hrun, .inl hcanWork⟩
  have hlt := (List.getElem?_eq_some_iff.mp hi).1
  have hset : ∀ w', (p.workers.set i w').Perm ([w'] ++ p.workers.eraseIdx i) :=
    List.set_perm_cons_eraseIdx hlt
  rw [run, hi]
  cases hpc : w.pc with
  | outer =>
    simp only [hpc, hrun]
    refine ⟨_, _, rfl, hdestroyed, rfl, hset _, ?_, ?_⟩
    · simp [ThreadPoolWorker.Active, hcanWork]
    · simp [ThreadPoolWorker.distance, hpc, hrun]
  | setIdle =>
    simp only [hpc]
    refine ⟨_, _, rfl, hdestroyed, rfl, hset _, ?_, ?_⟩
    · simp [ThreadPoolWorker.Active, ThreadPoolWorker.setIdle, hcanWork]
    · simp [ThreadPoolWorker.distance, ThreadPoolWorker.setIdle, hpc, hrun]
  | enterWait =>
    simp only [hpc, hcanWork]
    refine ⟨_, _, rfl, hdestroyed, rfl, hset _, ?_, ?_⟩
    · simp [ThreadPoolWorker.Active]
    · simp [ThreadPoolWorker.distance, hpc, hrun]
  | waiting => exact absurd ⟨hpc, hcanWork⟩ hwait
  | afterInner =>
    simp only [hpc, hrun, hdestroyed]
    refine ⟨_, _, rfl, rfl, rfl, hset _, ?_, ?_⟩
    · simp [ThreadPoolWorker.Active, hcanWork]
    · simp [ThreadPoolWorker.distance, hpc, hrun]
  | leave =>
    simp only [hpc]
    refine ⟨_, [], rfl, hdestroyed, rfl, .refl _, ?_, ?_⟩
    · simp
    · simp [ThreadPoolWorker.distance, hpc, hrun]
  | inner | getWork | setBusy work | doing work =>
    exact absurd ⟨hrun, .inr (by rw [hpc]; trivial)⟩ hactive

/-- From a state in which no worker will look for the work, the workers' own steps lead to a
stranded pool. -/
theorem strands_of_not_covered (p : ThreadPool Work) (h : ¬ p.Covered) :
    ∃ (own : List Nat) (u : ThreadPool Work),
      Base.runFrom next p (own.map .run) = some u ∧ u.Stranded := by
  -- on how far the workers are from their waits, all together
  induction hn : (p.workers.map (·.distance)).sum using Nat.strongRecOn generalizing p with
  | ind n ih =>
    simp only [Covered, Classical.not_imp, not_exists, not_and] at h
    obtain ⟨hdestroyed, hworks, hnone⟩ := h
    by_cases hall : ∀ w ∈ p.workers, w.stopped = true ∨ w.pc = .waiting ∧ w.canWork = false
    · exact ⟨[], p, rfl, hdestroyed, hworks, hall⟩
    · simp only [not_forall, not_or, Bool.not_eq_true] at hall
      obtain ⟨w, hw, hrun, hwait⟩ := hall
      obtain ⟨i, hi⟩ := List.mem_iff_getElem?.mp hw
      obtain ⟨t, left, hstep, hdestroyed', hworks', hperm, hleft, hsum⟩ :=
        run_of_not_active hdestroyed hi hrun (hnone w hw) hwait
      have hold : p.workers.Perm (w :: p.workers.eraseIdx i) := by
        obtain ⟨hlt, rfl⟩ := List.getElem?_eq_some_iff.mp hi
        exact (List.getElem_cons_eraseIdx_perm hlt).symm
      have hless : (t.workers.map (·.distance)).sum < n := by
        rw [← hn, (hperm.map _).sum_eq, (hold.map _).sum_eq, List.map_append, List.sum_append,
          List.map_cons, List.sum_cons]
        omega
      have hlost : ¬ t.Covered := by
        intro hcovered
        obtain ⟨x, hx, hxactive⟩ := hcovered hdestroyed' (hworks' ▸ hworks)
        rcases List.mem_append.mp (hperm.mem_iff.mp hx) with hnew | hrest
        · exact hleft x hnew hxactive
        · exact hnone x (List.mem_of_mem_eraseIdx hrest) hxactive
      obtain ⟨own, u, hown, hu⟩ := ih _ hless t hlost rfl
      exact ⟨i :: own, u, Base.runFrom_cons_eq_some.mpr ⟨t, hstep, hown⟩, hu⟩

section Run

variable {count minCount maxCount step maxIdleTime : Int} {started : Nat}
  {es : List (PoolEvent Work)}

theorem kept_new :
    (new count minCount maxCount step maxIdleTime started : ThreadPool Work).Kept := by
  refine ⟨fun w hw ↦ ?_, ?_⟩
  · rw [List.eq_of_mem_replicate (List.mem_append.mp hw |>.resolve_left List.not_mem_nil)]
    exact ThreadPoolWorker.kept_started
  · simp only [new, addThreads]
    split_ifs
    · decide
    · omega

theorem covered_iff_wakesInTime
    (hrun : Base.runFrom next (new count minCount maxCount step maxIdleTime started) es = some t) :
    (∀ x, Base.Visits next (new count minCount maxCount step maxIdleTime started) es x →
        x.Covered) ↔
      Base.Along next WakesInTime (new count minCount maxCount step maxIdleTime started) es := by
  refine Base.safe_iff_along (fun _ (h : Kept _ ∧ Covered _) ↦ h.2)
    (fun _ _ _ h hgood hstep ↦ ⟨kept_next h.1 hstep, covered_next h.1 h.2 hgood hstep⟩)
    (fun _ _ _ h hbad hstep ↦ not_covered_next h.1 hbad hstep) ⟨kept_new, ?_⟩ hrun
  exact fun _ hworks ↦ absurd rfl hworks

/-- A pool is never stranded in a run that wakes in time, and every other run passes through a
state from which the workers' own steps strand it. -/
theorem not_stranded_iff_wakesInTime
    (hrun : Base.runFrom next (new count minCount maxCount step maxIdleTime started) es = some t) :
    (Base.Along next WakesInTime (new count minCount maxCount step maxIdleTime started) es →
      ∀ x, Base.Visits next (new count minCount maxCount step maxIdleTime started) es x →
        ¬ x.Stranded) ∧
    (¬ Base.Along next WakesInTime (new count minCount maxCount step maxIdleTime started) es →
      ∃ x, Base.Visits next (new count minCount maxCount step maxIdleTime started) es x ∧
        ∃ (own : List Nat) (u : ThreadPool Work),
          Base.runFrom next x (own.map .run) = some u ∧ u.Stranded) := by
  rw [← covered_iff_wakesInTime hrun]
  refine ⟨fun hall x hx ↦ (hall x hx).not_stranded, fun hlost ↦ ?_⟩
  simp only [not_forall] at hlost
  obtain ⟨x, hx, hnone⟩ := hlost
  exact ⟨x, hx, strands_of_not_covered x hnone⟩

/-- A pool of one thread gets the second work while the first is being done. -/
def secondWhileDoing : List (PoolEvent Nat) :=
  [.addWork 1 0, .run 0, .run 0, .run 0, .run 0, .addWork 2 0] ++ List.replicate 8 (.run 0)

theorem secondWhileDoing_not_stranded :
    (Base.runFrom next (new 1 1 1 10 300000 1) secondWhileDoing).isSome ∧
      ∀ x, Base.Visits next (new 1 1 1 10 300000 1) secondWhileDoing x → ¬ x.Stranded := by
  have hrun : (Base.runFrom next (new 1 1 1 10 300000 1) secondWhileDoing).isSome := by
    decide +kernel
  obtain ⟨t, ht⟩ := Option.isSome_iff_exists.mp hrun
  exact ⟨hrun, (not_stranded_iff_wakesInTime ht).1 (by decide +kernel)⟩

/-- A pool of one thread gets the second work when the thread has found the queue empty and is
still marked busy. -/
def secondBeforeIdle : List (PoolEvent Nat) :=
  [.addWork 1 0] ++ List.replicate 7 (.run 0) ++ [.addWork 2 0] ++ List.replicate 4 (.run 0)

theorem secondBeforeIdle_stranded :
    ∃ t : ThreadPool Nat, Base.runFrom next (new 1 1 1 10 300000 1) secondBeforeIdle = some t ∧
      t.works = [2] ∧ t.Stranded :=
  ⟨_, (Option.some_get (by decide +kernel)).symm, by decide +kernel, by decide +kernel,
    by decide +kernel, by decide +kernel⟩

-- a worker that the manager has stopped is woken in place of one that waits
example : ∃ t : ThreadPool Nat, Base.runFrom next (new 2 1 2 10 100 2)
    [.removeIdleThreads 200, .addWork 1 0] = some t ∧ t.Stranded :=
  ⟨_, rfl, by decide, by decide, by decide⟩

end Run
end ThreadPool
end RocketMQ
