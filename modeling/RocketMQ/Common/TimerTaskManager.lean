import Mathlib.Data.List.Nodup
import Mathlib.Logic.Function.Basic
import Std.Data.ExtTreeMap.Lemmas
import RocketMQ.Base.Simulation
import RocketMQ.Common.ThreadPool

/-!
# Timer tasks

`src/kpr/TimerTaskManager.cpp`: a timer that is out hands its task to the thread pool, unless
`m_isProcessing` says that the task is there already. The timer thread may find any timer out at any
moment.
-/

namespace RocketMQ

universe u

variable {Task : Type u}

/-! ### What a pool holds -/

/-- The work that a worker has fetched and not finished. -/
def ThreadPoolWorker.held (w : ThreadPoolWorker Task) : Option Task :=
  match w.pc with
  | .setBusy work | .doing work => some work
  | .outer | .setIdle | .enterWait | .waiting | .inner | .getWork | .afterInner | .leave => none

/-- The work that the next step of a worker finishes. -/
def ThreadPoolWorker.finishing (w : ThreadPoolWorker Task) : Option Task :=
  match w.pc with
  | .doing work => some work
  | .outer | .setIdle | .enterWait | .waiting | .inner | .getWork | .setBusy _ | .afterInner
  | .leave => none

namespace ThreadPool

variable {p t : ThreadPool Task}

/-- Waiting and fetched work. -/
def held (p : ThreadPool Task) : List Task := p.works ++ p.workers.filterMap (·.held)

theorem held_wakeOneThread (ws : List (ThreadPoolWorker Task)) :
    ((wakeOneThread ws).getD ws).filterMap (·.held) = ws.filterMap (·.held) := by
  rcases wakeOneThread_cases ws with ⟨-, hwake⟩ | ⟨pre, w, post, rfl, -, -, hwake⟩
  · rw [hwake, Option.getD_none]
  · have hheld : w.wakeUp.held = w.held := rfl
    rw [hwake, Option.getD_some, List.filterMap_append, List.filterMap_append,
      List.filterMap_cons, List.filterMap_cons, hheld]

/-- A pool that is in use takes the work. -/
theorem held_addWork (hdestroyed : p.destroyed = false) (work : Task) (started : Nat) :
    (p.held ++ [work]).Perm (p.addWork work started).held := by
  obtain ⟨-, -, hworks, n, -, -, hworkers⟩ := addWork_eq hdestroyed work started
  have hnew : (List.replicate n (ThreadPoolWorker.started : ThreadPoolWorker Task)).filterMap
      (·.held) = [] := by
    rw [List.filterMap_eq_nil_iff]
    intro w hw
    rw [List.eq_of_mem_replicate hw]
    rfl
  rw [held, held, hworks, hworkers, held_wakeOneThread, List.filterMap_append, hnew,
    List.append_nil, List.append_assoc, List.append_assoc]
  exact List.perm_append_comm.append_left _

theorem held_removeIdleLoop {minCount maxIdleTime interval : Int} (size : Int)
    (ws : List (ThreadPoolWorker Task)) :
    (removeIdleLoop minCount maxIdleTime interval size ws).filterMap (·.held) =
      ws.filterMap (·.held) := by
  induction ws generalizing size with
  | nil => rfl
  | cons w ws ih =>
    have hidle : (w.addIdleTime interval).held = w.held := rfl
    have hstop : (w.addIdleTime interval).stop.held = w.held := rfl
    rw [removeIdleLoop]
    split_ifs
    · rw [List.filterMap_cons, List.filterMap_cons, hstop, ih]
    · rw [List.filterMap_cons, List.filterMap_cons, hidle, ih]
    · rfl

theorem held_removeIdleThreads (interval : Int) : (p.removeIdleThreads interval).held = p.held := by
  rw [removeIdleThreads]
  split_ifs
  · rfl
  · rw [held, held, held_removeIdleLoop]

theorem held_destroy : p.destroy.held = p.held := by
  rw [destroy]
  split_ifs
  · rfl
  · rw [held, held, List.filterMap_map]
    rfl

theorem filterMap_held_cons (w : ThreadPoolWorker Task) (ws : List (ThreadPoolWorker Task)) :
    (w :: ws).filterMap (·.held) = w.held.toList ++ ws.filterMap (·.held) := by
  rw [List.filterMap_cons]
  cases w.held <;> rfl

/-- The work of one worker and of the others. -/
theorem filterMap_held_perm {i : Nat} {w : ThreadPoolWorker Task} (hw : p.workers[i]? = some w) :
    (p.workers.filterMap (·.held)).Perm
      (w.held.toList ++ (p.workers.eraseIdx i).filterMap (·.held)) := by
  obtain ⟨hi, rfl⟩ := List.getElem?_eq_some_iff.mp hw
  rw [← filterMap_held_cons]
  exact (List.getElem_cons_eraseIdx_perm hi).symm.filterMap _

/-- The same when the worker has changed. -/
theorem filterMap_held_set {i : Nat} {w : ThreadPoolWorker Task} (hw : p.workers[i]? = some w)
    (w' : ThreadPoolWorker Task) : ((p.workers.set i w').filterMap (·.held)).Perm
      (w'.held.toList ++ (p.workers.eraseIdx i).filterMap (·.held)) := by
  rw [← filterMap_held_cons]
  exact (List.set_perm_cons_eraseIdx (List.getElem?_eq_some_iff.mp hw).1 w').filterMap _

/-- A worker that goes on with the work it has. -/
theorem held_set {i : Nat} {w w' : ThreadPoolWorker Task} (hw : p.workers[i]? = some w)
    (hfinishing : w.held.toList = w.finishing.toList ++ w'.held.toList) :
    p.held.Perm (w.finishing.toList ++ held { p with workers := p.workers.set i w' }) := by
  have hworkers : (p.workers.filterMap (·.held)).Perm
      (w.finishing.toList ++ (p.workers.set i w').filterMap (·.held)) := by
    calc (p.workers.filterMap (·.held)).Perm
          (w.held.toList ++ (p.workers.eraseIdx i).filterMap (·.held)) := filterMap_held_perm hw
      _ = w.finishing.toList ++
          (w'.held.toList ++ (p.workers.eraseIdx i).filterMap (·.held)) := by
        rw [hfinishing, List.append_assoc]
      _ |>.Perm (w.finishing.toList ++ (p.workers.set i w').filterMap (·.held)) :=
        (filterMap_held_set hw w').symm.append_left _
  exact (hworkers.append_left p.works).trans (List.perm_append_comm_assoc ..)

/-- A step of a worker finishes the work that it does, or all work stays. -/
theorem held_run {i : Nat} (h : p.run i = some t) : ∃ w, p.workers[i]? = some w ∧
    t.destroyed = p.destroyed ∧ p.held.Perm (w.finishing.toList ++ t.held) := by
  rw [run] at h
  split at h
  · cases h
  next w hw =>
  refine ⟨w, hw, ?_⟩
  cases hpc : w.pc with
  | outer | enterWait | inner | afterInner =>
    simp only [hpc, Option.some.injEq] at h
    subst h
    refine ⟨rfl, held_set hw ?_⟩
    simp only [ThreadPoolWorker.held, ThreadPoolWorker.finishing, hpc]
    split_ifs <;> rfl
  | setIdle | setBusy work | doing work =>
    simp only [hpc, Option.some.injEq] at h
    subst h
    refine ⟨rfl, held_set hw ?_⟩
    simp only [ThreadPoolWorker.held, ThreadPoolWorker.finishing, hpc]
    rfl
  | waiting =>
    simp only [hpc, Option.ite_none_right_eq_some, Option.some.injEq] at h
    obtain ⟨-, rfl⟩ := h
    refine ⟨rfl, held_set hw ?_⟩
    simp only [ThreadPoolWorker.held, ThreadPoolWorker.finishing, hpc]
    rfl
  | getWork =>
    have hfinishing : w.finishing = none := by rw [ThreadPoolWorker.finishing, hpc]
    rcases p.getWork_cases with ⟨hget, -⟩ | ⟨work, works, hworks, hget⟩
    · simp only [hpc, hget, Option.some.injEq] at h
      subst h
      refine ⟨rfl, held_set hw ?_⟩
      simp only [ThreadPoolWorker.held, ThreadPoolWorker.finishing, hpc]
      rfl
    · simp only [hpc, hget, Option.some.injEq] at h
      subst h
      have hnone : w.held = none := by rw [ThreadPoolWorker.held, hpc]
      have hold := filterMap_held_perm hw
      have hnew := filterMap_held_set hw { w with pc := .setBusy work }
      rw [hnone] at hold
      refine ⟨rfl, ?_⟩
      rw [hfinishing, held, held, hworks]
      exact ((hold.append_left (work :: works)).trans List.perm_middle.symm).trans
        (hnew.symm.append_left works)
  | leave =>
    simp only [hpc, Option.some.injEq] at h
    subst h
    have hnone : w.held = none := by rw [ThreadPoolWorker.held, hpc]
    have hfinishing : w.finishing = none := by rw [ThreadPoolWorker.finishing, hpc]
    have hold := filterMap_held_perm hw
    rw [hnone] at hold
    refine ⟨rfl, ?_⟩
    rw [hfinishing]
    exact hold.append_left p.works

end ThreadPool

/-! ### The manager -/

/-- `src/kpr/TimerTaskManager.h:60–81`, with the `m_isProcessing` of every task. -/
structure TimerTaskManager (Task : Type u) where
  timerTasks : Std.ExtTreeMap Nat Task
  isProcessing : Task → Bool
  pool : ThreadPool Task

/-- What can happen next. Timer ids come from the timer thread; `started` threads at most can be
started for a work. -/
inductive TaskEvent (Task : Type u) where
  | registerTimer (timerId : Nat) (handler : Task)
  | unRegisterTimer (timerId : Nat)
  | onTimeOut (timerId : Nat) (started : Nat)
  | run (i : Nat)
  | removeIdleThreads (interval : Int)
  | destroy
  | clear

namespace TimerTaskManager

variable [DecidableEq Task]

/-- `Init`, `src/kpr/TimerTaskManager.cpp:32–47`, when `started` threads can be started. -/
def init (maxThreadCount : Int) (started : Nat) : TimerTaskManager Task :=
  ⟨∅, fun _ ↦ false, .new 3 3 maxThreadCount 10 300000 started⟩

/-- The task of a timer that is out, unless it is being processed. -/
def due (s : TimerTaskManager Task) (timerId : Nat) : Option Task :=
  s.timerTasks[timerId]?.filter fun task ↦ !s.isProcessing task

/-- `src/kpr/TimerTaskManager.cpp:74–86`. -/
def onTimeOut (s : TimerTaskManager Task) (timerId started : Nat) : TimerTaskManager Task :=
  match s.due timerId with
  | none => s
  | some task =>
    { s with
      isProcessing := Function.update s.isProcessing task true
      pool := s.pool.addWork task started }

/-- The task whose `DoTask` the step of a worker ends. -/
def finishing (s : TimerTaskManager Task) (i : Nat) : Option Task :=
  s.pool.workers[i]?.bind (·.finishing)

/-- One step. `Do` ends with `m_isProcessing = false`, `src/kpr/TimerTaskManager.h:34–38`;
`Destroy` ends with `m_works.clear()` once the workers are gone. -/
def step (s : TimerTaskManager Task) : TaskEvent Task → Option (TimerTaskManager Task)
  | .registerTimer timerId handler =>
    some { s with timerTasks := s.timerTasks.insert timerId handler }
  | .unRegisterTimer timerId => some { s with timerTasks := s.timerTasks.erase timerId }
  | .onTimeOut timerId started => some (s.onTimeOut timerId started)
  | .run i =>
    (s.pool.run i).map fun pool ↦
      { s with
        pool
        isProcessing := fun task ↦ s.isProcessing task && s.finishing i ≠ some task }
  | .removeIdleThreads interval => some { s with pool := s.pool.removeIdleThreads interval }
  | .destroy => some { s with pool := s.pool.destroy }
  | .clear =>
    if s.pool.destroyed ∧ s.pool.workers = [] then
      some { s with pool := { s.pool with works := [] } }
    else none

/-- The tasks that an event hands to the pool. -/
def queued (s : TimerTaskManager Task) : TaskEvent Task → List Task
  | .onTimeOut timerId _ => if s.pool.destroyed then [] else (s.due timerId).toList
  | .registerTimer _ _ | .unRegisterTimer _ | .run _ | .removeIdleThreads _ | .destroy
  | .clear => []

/-- The tasks whose `DoTask` ends with an event. -/
def finished (s : TimerTaskManager Task) : TaskEvent Task → List Task
  | .run i => (s.finishing i).toList
  | .registerTimer _ _ | .unRegisterTimer _ | .onTimeOut _ _ | .removeIdleThreads _ | .destroy
  | .clear => []

/-- The pool has every task once at most, and `m_isProcessing` says which tasks it has. -/
structure Sound (s : TimerTaskManager Task) : Prop where
  nodup : s.pool.held.Nodup
  isProcessing : ∀ task ∈ s.pool.held, s.isProcessing task = true
  held : s.pool.destroyed = false → ∀ task, s.isProcessing task = true → task ∈ s.pool.held

/-! ### One step -/

section Step

variable {s t : TimerTaskManager Task}

theorem update_eq_true_iff {isProcessing : Task → Bool} {task other : Task} :
    Function.update isProcessing task true other = true ↔
      other = task ∨ isProcessing other = true := by
  rw [Function.update_apply]
  split_ifs with h <;> simp [h]

omit [DecidableEq Task] in
theorem held_init (maxThreadCount : Int) (started : Nat) :
    (init maxThreadCount started : TimerTaskManager Task).pool.held = [] := by
  simp only [init, ThreadPool.new, ThreadPool.addThreads, ThreadPool.held, List.nil_append,
    List.filterMap_eq_nil_iff]
  intro w hw
  rw [List.eq_of_mem_replicate hw]
  rfl

omit [DecidableEq Task] in
theorem sound_init (maxThreadCount : Int) (started : Nat) :
    (init maxThreadCount started : TimerTaskManager Task).Sound := by
  have hheld : (init maxThreadCount started : TimerTaskManager Task).pool.held = [] :=
    held_init maxThreadCount started
  exact ⟨hheld ▸ List.nodup_nil, fun task htask ↦ by simp [hheld] at htask, fun _ _ h ↦ nomatch h⟩

omit [DecidableEq Task] in
/-- A timer that is out hands over a task that is not being processed. -/
theorem due_eq_some_iff {timerId : Nat} {task : Task} : s.due timerId = some task ↔
    s.timerTasks[timerId]? = some task ∧ s.isProcessing task = false := by
  rw [due, Option.filter_eq_some_iff, Bool.not_eq_true']

omit [DecidableEq Task] in
/-- The pool and the flags are all that matters. -/
theorem Sound.of_held (h : s.Sound) {pool : ThreadPool Task} {timerTasks : Std.ExtTreeMap Nat Task}
    (hheld : pool.held = s.pool.held)
    (hdestroyed : pool.destroyed = false → s.pool.destroyed = false) :
    Sound { s with pool, timerTasks } where
  nodup := hheld ▸ h.nodup
  isProcessing := hheld ▸ h.isProcessing
  held hnot := hheld ▸ h.held (hdestroyed hnot)

theorem Sound.onTimeOut (h : s.Sound) (timerId started : Nat) :
    (s.onTimeOut timerId started).Sound := by
  rw [TimerTaskManager.onTimeOut]
  split
  · exact h
  next task hdue =>
  have hidle := (due_eq_some_iff.mp hdue).2
  have hnew : task ∉ s.pool.held := fun hmem ↦ by
    rw [h.isProcessing task hmem] at hidle
    cases hidle
  by_cases hdestroyed : s.pool.destroyed = true
  · have hsame : s.pool.addWork task started = s.pool := if_pos hdestroyed
    rw [hsame]
    refine ⟨h.nodup, fun other hother ↦ ?_, fun hnot ↦ ?_⟩
    · exact update_eq_true_iff.mpr (.inr (h.isProcessing other hother))
    · exact absurd hdestroyed (Bool.not_eq_true _ ▸ hnot)
  · have hperm := ThreadPool.held_addWork (Bool.not_eq_true _ ▸ hdestroyed) task started
    have hmem : ∀ other, other ∈ (s.pool.addWork task started).held ↔
        other = task ∨ other ∈ s.pool.held := by
      intro other
      rw [← hperm.mem_iff, List.mem_append, List.mem_singleton, or_comm]
    constructor
    · rw [← hperm.nodup_iff]
      exact List.Nodup.append h.nodup (List.nodup_singleton task) (by simpa using hnew)
    · intro other hother
      exact update_eq_true_iff.mpr (((hmem other).mp hother).imp_right (h.isProcessing other))
    · intro _ other hother
      exact (hmem other).mpr ((update_eq_true_iff.mp hother).imp_right
        (h.held (Bool.not_eq_true _ ▸ hdestroyed) other))

theorem Sound.run (h : s.Sound) {i : Nat} (hstep : s.step (.run i) = some t) : t.Sound := by
  obtain ⟨pool, hrun, rfl⟩ := Option.map_eq_some_iff.mp hstep
  obtain ⟨w, hw, hdestroyed, hperm⟩ := ThreadPool.held_run hrun
  have hfinishing : s.finishing i = w.finishing := by rw [finishing, hw, Option.bind_some]
  have hnodup := hperm.nodup_iff.mp h.nodup
  have hmem : ∀ task, task ∈ s.pool.held ↔ s.finishing i = some task ∨ task ∈ pool.held := by
    intro task
    rw [hperm.mem_iff, List.mem_append, Option.mem_toList, hfinishing]
  constructor
  · exact (List.nodup_append.mp hnodup).2.1
  · intro task htask
    have hnot : s.finishing i ≠ some task := fun hsome ↦
      (List.nodup_append.mp hnodup).2.2 task (Option.mem_toList.mpr (hfinishing ▸ hsome)) task htask
        rfl
    exact Bool.and_eq_true_iff.mpr
      ⟨h.isProcessing task ((hmem task).mpr (.inr htask)), decide_eq_true hnot⟩
  · intro hnot task htask
    rw [Bool.and_eq_true, decide_eq_true_eq] at htask
    have hold := h.held (hdestroyed ▸ hnot) task htask.1
    exact ((hmem task).mp hold).resolve_left htask.2

theorem sound_step (s : TimerTaskManager Task) (e : TaskEvent Task) (t : TimerTaskManager Task)
    (h : s.Sound) (hstep : s.step e = some t) : t.Sound := by
  cases e with
  | registerTimer | unRegisterTimer =>
    cases hstep
    exact h.of_held rfl id
  | onTimeOut timerId started =>
    cases hstep
    exact h.onTimeOut timerId started
  | run i => exact h.run hstep
  | removeIdleThreads interval =>
    cases hstep
    apply h.of_held (ThreadPool.held_removeIdleThreads interval)
    intro hnot
    rw [ThreadPool.removeIdleThreads] at hnot
    split_ifs at hnot <;> exact hnot
  | destroy =>
    cases hstep
    apply h.of_held ThreadPool.held_destroy
    intro hnot
    rw [ThreadPool.destroy] at hnot
    split_ifs at hnot
    exact hnot
  | clear =>
    simp only [step] at hstep
    split_ifs at hstep with hover
    cases hstep
    have hsub : (ThreadPool.held { s.pool with works := [] }).Sublist s.pool.held :=
      List.sublist_append_right ..
    exact ⟨h.nodup.sublist hsub, fun task htask ↦ h.isProcessing task (hsub.subset htask),
      fun hnot ↦ absurd hover.1 (Bool.not_eq_true _ ▸ hnot)⟩

/-- While the pool is in use it takes and finishes what the steps say. -/
theorem held_step (e : TaskEvent Task) (hstep : s.step e = some t)
    (hopen : t.pool.destroyed = false) : s.pool.destroyed = false ∧
      (s.pool.held ++ s.queued e).Perm (s.finished e ++ t.pool.held) := by
  cases e with
  | registerTimer | unRegisterTimer =>
    cases hstep
    exact ⟨hopen, by simp [queued, finished]⟩
  | onTimeOut timerId started =>
    cases hstep
    rw [onTimeOut] at hopen ⊢
    cases hdue : s.due timerId with
    | none =>
      simp only [hdue] at hopen ⊢
      exact ⟨hopen, by simp [queued, finished, hdue]⟩
    | some task =>
      simp only [hdue] at hopen ⊢
      have hnot : s.pool.destroyed = false := by
        by_contra hdestroyed
        rw [ThreadPool.addWork, if_pos (by simpa using hdestroyed)] at hopen
        exact hdestroyed hopen
      refine ⟨hnot, ?_⟩
      rw [queued, hnot, hdue]
      exact ThreadPool.held_addWork hnot task started
  | run i =>
    obtain ⟨pool, hrun, rfl⟩ := Option.map_eq_some_iff.mp hstep
    obtain ⟨w, hw, hdestroyed, hperm⟩ := ThreadPool.held_run hrun
    refine ⟨hdestroyed ▸ hopen, ?_⟩
    rw [queued, List.append_nil, finished, finishing, hw, Option.bind_some]
    exact hperm
  | removeIdleThreads interval =>
    cases hstep
    rw [ThreadPool.held_removeIdleThreads]
    refine ⟨?_, by simp [queued, finished]⟩
    rw [ThreadPool.removeIdleThreads] at hopen
    split_ifs at hopen <;> exact hopen
  | destroy =>
    cases hstep
    rw [ThreadPool.destroy] at hopen
    split_ifs at hopen with hdestroyed
    exact absurd hopen (by simp [hdestroyed])
  | clear =>
    simp only [step] at hstep
    split_ifs at hstep with hover
    cases hstep
    exact absurd hover.1 (by simpa using hopen)

end Step

/-! ### Whole runs -/

/-- In every run no task is queued twice, queued while it is done, or done by two threads at once;
`m_isProcessing` tells while the pool is in use which tasks it has; and until the pool is destroyed
every task that was handed over has been done as often as that, but for those that it still has. -/
theorem processes_once {maxThreadCount : Int} {started : Nat} {es : List (TaskEvent Task)}
    {s : TimerTaskManager Task}
    (hrun : Base.runFrom step (init maxThreadCount started) es = some s) :
    s.pool.held.Nodup ∧ (∀ task ∈ s.pool.held, s.isProcessing task = true) ∧
      (s.pool.destroyed = false →
        (∀ task, s.isProcessing task = true → task ∈ s.pool.held) ∧
          (Base.effects step queued (init maxThreadCount started) es).Perm
            (Base.effects step finished (init maxThreadCount started) es ++ s.pool.held)) := by
  have h : s.Sound :=
    Base.inv_of_runFrom sound_step (sound_init maxThreadCount started) hrun
  refine ⟨h.nodup, h.isProcessing, fun hopen ↦ ⟨h.held hopen, ?_⟩⟩
  have hperm := (Base.effects_perm (P := fun s ↦ s.pool.destroyed = false)
    (fun _ e _ hstep hopen ↦ held_step e hstep hopen) hopen hrun).2
  rwa [held_init, List.nil_append] at hperm

/-- Two timers of one task and one of another, all out while the first worker has fetched. -/
def twoTimers : List (TaskEvent Nat) :=
  [.registerTimer 1 7, .registerTimer 2 7, .registerTimer 3 8, .onTimeOut 1 0, .run 0, .run 0,
    .run 0, .onTimeOut 2 0, .onTimeOut 3 0, .run 0, .run 0, .onTimeOut 2 0]

/-- The state after them. -/
def twoTimersState : TimerTaskManager Nat :=
  (Base.runFrom step (init 5 3) twoTimers).get (by decide +kernel)

theorem processes_once_twoTimers : twoTimersState.pool.held.Nodup ∧
    (∀ task ∈ twoTimersState.pool.held, twoTimersState.isProcessing task = true) ∧
      (twoTimersState.pool.destroyed = false →
        (∀ task, twoTimersState.isProcessing task = true → task ∈ twoTimersState.pool.held) ∧
          (Base.effects step queued (init 5 3) twoTimers).Perm
            (Base.effects step finished (init 5 3) twoTimers ++ twoTimersState.pool.held)) :=
  processes_once (Option.some_get (by decide +kernel)).symm

end TimerTaskManager
end RocketMQ
