import RocketMQ.Base.Run
import RocketMQ.Common.ServiceThread

/-!
# The loop of the rebalance service

`src/consumer/RebalanceService.cpp`: the service rebalances after each wait. A wake-up, which
`MQClientFactory::rebalanceImmediately` makes, can come while it waits, while it rebalances, or in
between.
-/

namespace RocketMQ

universe u

/-- Where `RebalanceService::Run` is, `src/consumer/RebalanceService.cpp:34–41`. -/
inductive RebalancePc where
  | top
  | waiting
  | rebalance
  | ended
deriving DecidableEq

/-- `src/consumer/RebalanceService.h:27–40`. -/
structure RebalanceService (T : Type u) where
  thread : ServiceThread T
  run : RebalancePc

/-- What can happen next; the service itself calls nothing. -/
inductive RebalanceEvent (T : Type u) where
  | stop (t : T)
  | wakeup (t : T)
  | caller (t : T)
  | run (interrupted : Bool)
  | wake

namespace RebalanceService

variable {T : Type u} [DecidableEq T]

/-- `src/consumer/RebalanceService.cpp:22–26`, once it has been started. -/
def new : RebalanceService T := ⟨.new, .top⟩

/-- The next move of the service. -/
def runMove (s : RebalanceService T) (interrupted : Bool) : Option (RebalanceService T) :=
  match s.run with
  | .top =>
    if s.thread.stoped then some { s with run := .ended }
    else (s.thread.step .waitForRunning).map fun thread ↦ ⟨thread, .waiting⟩
  | .waiting => (s.thread.step (.waiter interrupted)).map fun thread ↦
      ⟨thread, if thread.waiter = .out then .rebalance else .waiting⟩
  | .rebalance => some { s with run := .top }
  | .ended => none

/-- One step. -/
def step (s : RebalanceService T) : RebalanceEvent T → Option (RebalanceService T)
  | .stop t => (s.thread.step (.stop (some t))).map fun thread ↦ { s with thread }
  | .wakeup t => (s.thread.step (.wakeup (some t))).map fun thread ↦ { s with thread }
  | .caller t => (s.thread.step (.caller (some t))).map fun thread ↦ { s with thread }
  | .run interrupted => s.runMove interrupted
  | .wake => (s.thread.step .wake).map fun thread ↦ { s with thread }

/-- The service returns from `waitForRunning` and begins to rebalance. -/
def Rebalances (s : RebalanceService T) : RebalanceEvent T → Prop
  | .run _ => s.run = .waiting ∧ s.thread.waiter = .leave
  | .stop _ | .wakeup _ | .caller _ | .wake => False

instance (s : RebalanceService T) : ∀ e, Decidable (s.Rebalances e)
  | .run _ => inferInstanceAs (Decidable (_ ∧ _))
  | .stop _ | .wakeup _ | .caller _ | .wake => inferInstanceAs (Decidable False)

theorem sound_step (s : RebalanceService T) (e : RebalanceEvent T) (s' : RebalanceService T)
    (hs : s.thread.Sound) (h : s.step e = some s') : s'.thread.Sound := by
  cases e with
  | stop t | wakeup t | caller t | wake =>
    simp only [step, Option.map_eq_some_iff] at h
    obtain ⟨thread, hstep, rfl⟩ := h
    exact ServiceThread.sound_step _ _ _ hs hstep
  | run interrupted =>
    rw [step, runMove] at h
    cases hrun : s.run <;> simp only [hrun] at h
    case top =>
      split_ifs at h
      · obtain rfl := Option.some.inj h
        exact hs
      · obtain ⟨thread, hstep, rfl⟩ := Option.map_eq_some_iff.mp h
        exact ServiceThread.sound_step _ _ _ hs hstep
    case waiting =>
      obtain ⟨thread, hstep, rfl⟩ := Option.map_eq_some_iff.mp h
      exact ServiceThread.sound_step _ _ _ hs hstep
    case rebalance =>
      obtain rfl := Option.some.inj h
      exact hs
    case ended => cases h

/-- Until the service begins to rebalance, a wake-up stays due. -/
theorem due_step (s : RebalanceService T) (e : RebalanceEvent T) (s' : RebalanceService T)
    (hs : s.thread.Sound) (hdue : s.thread.Due) (hnot : ¬ s.Rebalances e)
    (h : s.step e = some s') : s'.thread.Due := by
  cases e with
  | stop t | wakeup t =>
    simp only [step, ServiceThread.step, Option.map_eq_some_iff] at h
    obtain ⟨thread, hstep, rfl⟩ := h
    split_ifs at hstep
    obtain rfl := Option.some.inj hstep
    exact hdue
  | caller t =>
    simp only [step, Option.map_eq_some_iff] at h
    obtain ⟨thread, hstep, rfl⟩ := h
    exact ServiceThread.due_caller hdue hstep
  | wake =>
    simp only [step, Option.map_eq_some_iff] at h
    obtain ⟨thread, hstep, rfl⟩ := h
    obtain ⟨hwaiter, -, hnotified, -⟩ := ServiceThread.wake_spec hstep
    rwa [ServiceThread.Due, hwaiter, hnotified]
  | run interrupted =>
    rw [step, runMove] at h
    cases hrun : s.run <;> simp only [hrun] at h
    case top =>
      split_ifs at h with hstoped
      · obtain rfl := Option.some.inj h
        exact hdue
      · obtain ⟨thread, hstep, rfl⟩ := Option.map_eq_some_iff.mp h
        rw [ServiceThread.step] at hstep
        split_ifs at hstep with hcall
        obtain rfl := Option.some.inj hstep
        rw [ServiceThread.Due, hcall.2] at hdue
        exact .inl (hdue.resolve_right (by simp))
    case waiting =>
      obtain ⟨thread, hstep, rfl⟩ := Option.map_eq_some_iff.mp h
      exact ServiceThread.due_waitMove hs hdue (fun hleave ↦ hnot ⟨hrun, hleave⟩) hstep
    case rebalance =>
      obtain rfl := Option.some.inj h
      exact hdue
    case ended => cases h

/-- Once a thread is past the section of its `wakeup`, the service does not sleep again before it
has begun to rebalance, but for the moment until the thread that notified it signals. -/
theorem rebalance_follows_wakeup {es es' : List (RebalanceEvent T)} {s s' s'' : RebalanceService T}
    {t : T} (hrun : Base.runFrom step new es = some s) (hpc : s.thread.callers (some t) = .test)
    (hwakeup : s.step (.caller t) = some s') (hrest : Base.runFrom step s' es' = some s'')
    (hnone : Base.Along step (fun s e ↦ ¬ s.Rebalances e) s' es') (hasleep : s''.thread.Asleep) :
    ∃ u, s''.thread.callers u = .flush ∧ (s''.thread.caller u).isSome := by
  have hs : s.thread.Sound := Base.inv_of_runFrom sound_step ServiceThread.sound_new hrun
  have hs' : s'.thread.Sound := sound_step s _ s' hs hwakeup
  have hdue : s'.thread.Due := by
    simp only [step, ServiceThread.step, ServiceThread.caller, hpc, Option.map_some,
      Option.some.injEq] at hwakeup
    subst hwakeup
    left
    rw [ServiceThread.wakeupTest]
    split_ifs with hnotified
    · exact hnotified
    · rfl
  have hstep (s : RebalanceService T) (e : RebalanceEvent T) (t : RebalanceService T)
      (hkept : s.thread.Sound ∧ s.thread.Due) (hnot : ¬ s.Rebalances e) (h : s.step e = some t) :
      t.thread.Sound ∧ t.thread.Due :=
    ⟨sound_step s e t hkept.1 h, due_step s e t hkept.1 hkept.2 hnot h⟩
  obtain ⟨hs'', hdue''⟩ := Base.inv_of_along hstep ⟨hs', hdue⟩ hnone hrest
  rw [ServiceThread.Due, hs''.waiter_of_asleep hasleep] at hdue''
  exact hs''.signal_comes hasleep (hdue''.resolve_right (by simp))

/-- `true` is past the section of its `wakeup`, which began before the service went to sleep. -/
def woken : List (RebalanceEvent Bool) :=
  [.run false, .wakeup true, .run false, .run false, .run false, .caller true]

/-- The state after it. -/
def wokenState : RebalanceService Bool := (Base.runFrom step new woken).get rfl

/-- `true` has notified the service and not signalled yet. -/
def notifiedState : RebalanceService Bool := (wokenState.step (.caller true)).get rfl

theorem rebalance_follows_wakeup_woken :
    ∃ u, notifiedState.thread.callers u = .flush ∧ (notifiedState.thread.caller u).isSome := by
  have hrest : Base.runFrom step notifiedState [] = some notifiedState := rfl
  exact rebalance_follows_wakeup (s := wokenState) (Option.some_get rfl).symm rfl
    (Option.some_get rfl).symm hrest trivial rfl

end RebalanceService
end RocketMQ
