import RocketMQ.Base.Simulation
import RocketMQ.Common.ServiceThread

/-!
# The loop of the pull service

`src/consumer/PullMessageService.cpp`: any thread queues a pull request and then wakes the service
up, which waits only when it has found the queue empty. The queue is guarded by a mutex of its
own, so that the service can find it empty, miss a request that is queued right after, and go to
sleep; the wake-up is there for that.
-/

namespace RocketMQ

universe u v

/-- Where `PullMessageService::Run` is, `src/consumer/PullMessageService.cpp:69–113`. -/
inductive PullPc (R : Type v) where
  | top
  | check
  | waiting
  | pop
  | pull (pullRequest : R)
  | ended
deriving DecidableEq

/-- `src/consumer/PullMessageService.h:32–72`. -/
structure PullMessageService (T : Type u) (R : Type v) where
  thread : ServiceThread T
  pullRequestQueue : List R
  run : PullPc R

/-- What can happen next; `none` is the service's own thread. -/
inductive PullEvent (T : Type u) (R : Type v) where
  | executePullRequestImmediately (t : Option T) (pullRequest : R)
  | stop (t : Option T)
  | caller (t : Option T)
  | run (interrupted : Bool)
  | wake

namespace PullMessageService

variable {T : Type u} {R : Type v} [DecidableEq T]

/-- `src/consumer/PullMessageService.cpp:26–31`, once it has been started. -/
def new : PullMessageService T R := ⟨.new, [], .top⟩

/-- The service calls only from `pullMessage`. -/
def CanCall (s : PullMessageService T R) (t : Option T) : Bool :=
  decide (s.thread.CanCall t) &&
    match t, s.run with
    | some _, _ | none, .pull _ => true
    | none, _ => false

/-- The next move of the service; `waitForRunning` has returned when the thread is out of it. -/
def runMove (s : PullMessageService T R) (interrupted : Bool) : Option (PullMessageService T R) :=
  match s.run with
  | .top => some { s with run := if s.thread.stoped then .ended else .check }
  | .check =>
    match s.pullRequestQueue with
    | [] => (s.thread.step .waitForRunning).map fun thread ↦ { s with thread, run := .waiting }
    | _ :: _ => some { s with run := .pop }
  | .waiting => (s.thread.step (.waiter interrupted)).map fun thread ↦
      { s with thread, run := if thread.waiter = .out then .pop else .waiting }
  | .pop =>
    match s.pullRequestQueue with
    | [] => some { s with run := .top }
    | pullRequest :: rest => some { s with pullRequestQueue := rest, run := .pull pullRequest }
  | .pull _ => if s.thread.callers none = .out then some { s with run := .top } else none
  | .ended => none

/-- One step. -/
def step (s : PullMessageService T R) : PullEvent T R → Option (PullMessageService T R)
  | .executePullRequestImmediately t pullRequest =>
    if s.CanCall t then
      some { s with
        thread := s.thread.goTo t .lock
        pullRequestQueue := s.pullRequestQueue ++ [pullRequest] }
    else none
  | .stop t => if s.CanCall t then some { s with thread := s.thread.goTo t .stop } else none
  | .caller t => (s.thread.caller t).map fun thread ↦ { s with thread }
  | .run interrupted => s.runMove interrupted
  | .wake => (s.thread.step .wake).map fun thread ↦ { s with thread }

/-- The request that a step queues. -/
def queued (_ : PullMessageService T R) : PullEvent T R → List R
  | .executePullRequestImmediately _ pullRequest => [pullRequest]
  | .stop _ | .caller _ | .run _ | .wake => []

/-- The request that a step takes from the queue to pull. -/
def taken (s : PullMessageService T R) : PullEvent T R → List R
  | .run _ =>
    match s.run with
    | .pop => s.pullRequestQueue.take 1
    | _ => []
  | .executePullRequestImmediately _ _ | .stop _ | .caller _ | .wake => []

/-- There is something to do for the service. -/
def Needed (s : PullMessageService T R) : Prop :=
  s.pullRequestQueue ≠ [] ∨ s.thread.stoped = true

/-- What every step keeps: whenever the service is going to wait although there is something to do,
a wake-up has arrived or is coming. -/
structure Sound (s : PullMessageService T R) : Prop where
  thread : s.thread.Sound
  waiter : s.run ≠ .waiting → s.thread.waiter = .out
  calls : s.thread.callers none ≠ .out → ∃ pullRequest, s.run = .pull pullRequest
  stops : s.run = .check → s.thread.stoped = true → s.thread.Coming
  comes : s.thread.Waits → s.Needed → s.thread.Coming

omit [DecidableEq T] in
theorem sound_new : (new : PullMessageService T R).Sound where
  thread := ServiceThread.sound_new
  waiter _ := rfl
  calls h := absurd rfl h
  stops := nofun
  comes h := by simp [new, ServiceThread.new, ServiceThread.Waits, ServiceThread.Asleep,
    Monitor.new, Base.ReentrantLock.free] at h

omit [DecidableEq T] in
theorem canCall_iff {s : PullMessageService T R} {t : Option T} : s.CanCall t = true ↔
    s.thread.CanCall t ∧ (t = none → ∃ pullRequest, s.run = .pull pullRequest) := by
  unfold CanCall
  cases t <;> cases s.run <;> simp

/-- A thread that begins `stop`, or queues a request and goes on to `wakeup`. -/
theorem Sound.begin {s : PullMessageService T R} (hs : s.Sound) {t : Option T} {pc : WakeupPc}
    (requests : List R) (hcall : s.CanCall t = true)
    (hpc : pc = .stop ∧ requests = [] ∨ pc = .lock) :
    ({ s with
      thread := s.thread.goTo t pc
      pullRequestQueue := s.pullRequestQueue ++ requests } : PullMessageService T R).Sound := by
  obtain ⟨hthread, hown⟩ := canCall_iff.mp hcall
  have hinside : ¬ pc.Inside := by rcases hpc with ⟨rfl, -⟩ | rfl <;> exact id
  have hcoming : pc = .lock ∨ s.thread.Coming → (s.thread.goTo t pc).Coming := by
    have hout := hthread.1
    simp only [ServiceThread.Coming, ServiceThread.goTo, Function.update_apply]
    grind -linarith
  constructor
  · exact hs.thread.begin hthread hinside
  · exact hs.waiter
  · intro hcalls
    by_cases ht : t = none
    · exact hown ht
    · apply hs.calls
      simpa only [ServiceThread.goTo, Function.update_of_ne (Ne.symm ht)] using hcalls
  · intro hrun hstoped
    exact hcoming (.inr (hs.stops hrun hstoped))
  · intro hwaits hneeded
    rcases hpc with ⟨-, rfl⟩ | hlock
    · apply hcoming
      right
      apply hs.comes hwaits
      rwa [Needed, List.append_nil] at hneeded
    · exact hcoming (.inl hlock)

theorem sound_run {s s' : PullMessageService T R} {interrupted : Bool} (hs : s.Sound)
    (h : s.runMove interrupted = some s') : s'.Sound := by
  obtain ⟨hthread, hwaiter, hcalls, hstops, hcomes⟩ := hs
  unfold runMove at h
  cases hrun : s.run <;> simp only [hrun] at h
  case top =>
    obtain rfl := Option.some.inj h
    have hout := hwaiter (by simp [hrun])
    have hnot := hthread.not_waits hout
    constructor <;> grind -linarith
  case check =>
    have hout := hwaiter (by simp [hrun])
    cases hqueue : s.pullRequestQueue with
    | nil =>
      simp only [hqueue, Option.map_eq_some_iff] at h
      obtain ⟨thread, hstep, rfl⟩ := h
      have hsound := ServiceThread.sound_step _ _ _ hthread hstep
      rw [ServiceThread.step] at hstep
      split_ifs at hstep with hcall
      obtain rfl := Option.some.inj hstep
      constructor
      · exact hsound
      · exact fun hne ↦ absurd rfl hne
      · exact fun hne ↦ absurd hcall.1 hne
      · intro hcheck
        cases hcheck
      · intro _ hneeded
        apply hstops hrun
        simpa [Needed, hqueue] using hneeded
    | cons pullRequest rest =>
      simp only [hqueue, Option.some.injEq] at h
      subst h
      have hnot := hthread.not_waits hout
      constructor <;> grind -linarith
  case waiting =>
    simp only [Option.map_eq_some_iff] at h
    obtain ⟨thread, hstep, rfl⟩ := h
    have hsound := ServiceThread.sound_step _ _ _ hthread hstep
    obtain ⟨hcallers, hstoped, hwaits⟩ := ServiceThread.waitMove_spec hthread hstep
    constructor
    · exact hsound
    · intro hne
      by_contra hin
      exact hne (if_neg hin)
    · intro hne
      rw [hcallers] at hne
      obtain ⟨pullRequest, hpull⟩ := hcalls hne
      rw [hrun] at hpull
      cases hpull
    · intro hcheck
      split_ifs at hcheck
    · intro hw hneeded
      obtain ⟨hwaited, hnotified⟩ := hwaits hw
      have := hcomes hwaited (by simpa only [Needed, hstoped] using hneeded)
      simpa only [ServiceThread.Coming, hnotified, hcallers] using this
  case pop =>
    have hout := hwaiter (by simp [hrun])
    have hnot := hthread.not_waits hout
    cases hqueue : s.pullRequestQueue with
    | nil =>
      simp only [hqueue, Option.some.injEq] at h
      subst h
      constructor <;> grind -linarith
    | cons pullRequest rest =>
      simp only [hqueue, Option.some.injEq] at h
      subst h
      constructor <;> grind -linarith
  case pull pullRequest =>
    have hout := hwaiter (by simp [hrun])
    have hnot := hthread.not_waits hout
    split_ifs at h with hcall
    obtain rfl := Option.some.inj h
    constructor <;> grind -linarith
  case ended => cases h

theorem sound_step (s : PullMessageService T R) (e : PullEvent T R) (s' : PullMessageService T R)
    (hs : s.Sound) (h : s.step e = some s') : s'.Sound := by
  cases e with
  | executePullRequestImmediately t pullRequest =>
    rw [step] at h
    split_ifs at h with hcall
    obtain rfl := Option.some.inj h
    exact hs.begin [pullRequest] hcall (.inr rfl)
  | stop t =>
    rw [step] at h
    split_ifs at h with hcall
    obtain rfl := Option.some.inj h
    have := hs.begin [] hcall (.inl ⟨rfl, rfl⟩)
    rwa [List.append_nil] at this
  | caller t =>
    simp only [step, Option.map_eq_some_iff] at h
    obtain ⟨thread, hstep, rfl⟩ := h
    obtain ⟨hwaiter, hwaits, hcoming, hstoped, hcalls⟩ := ServiceThread.caller_spec hstep
    constructor
    · exact ServiceThread.sound_caller hs.thread hstep
    · exact fun hrun ↦ hwaiter.trans (hs.waiter hrun)
    · exact fun hne ↦ hs.calls (hcalls hne)
    · intro hcheck hstop
      rcases hstoped hstop with hbefore | hcomes
      · exact hcoming (hs.stops hcheck hbefore)
      · exact hcomes
    · intro hw hneeded
      rcases hneeded with hqueue | hstop
      · exact hcoming (hs.comes (hwaits hw) (.inl hqueue))
      · rcases hstoped hstop with hbefore | hcomes
        · exact hcoming (hs.comes (hwaits hw) (.inr hbefore))
        · exact hcomes
  | run interrupted => exact sound_run hs h
  | wake =>
    simp only [step, Option.map_eq_some_iff] at h
    obtain ⟨thread, hstep, rfl⟩ := h
    obtain ⟨hwaiter, hcallers, hnotified, hstoped, hwaits⟩ := ServiceThread.wake_spec hstep
    have hcoming : thread.Coming ↔ s.thread.Coming := by
      rw [ServiceThread.Coming, ServiceThread.Coming, hnotified, hcallers]
    constructor
    · exact ServiceThread.sound_step _ _ _ hs.thread hstep
    · exact fun hrun ↦ hwaiter.trans (hs.waiter hrun)
    · rw [hcallers]
      exact hs.calls
    · rw [hcoming, hstoped]
      exact hs.stops
    · intro hw hneeded
      rw [hcoming]
      apply hs.comes (hwaits hw)
      rwa [Needed, hstoped] at hneeded

/-- A step moves requests from the queue to the service in the order in which they came. -/
theorem taken_step (s : PullMessageService T R) (e : PullEvent T R) (s' : PullMessageService T R)
    (h : s.step e = some s') :
    s.taken e ++ s'.pullRequestQueue = s.pullRequestQueue ++ s.queued e := by
  cases e with
  | executePullRequestImmediately t pullRequest =>
    rw [step] at h
    split_ifs at h
    obtain rfl := Option.some.inj h
    rfl
  | stop t =>
    rw [step] at h
    split_ifs at h
    obtain rfl := Option.some.inj h
    exact (List.append_nil _).symm
  | caller t | wake =>
    simp only [step, Option.map_eq_some_iff] at h
    obtain ⟨thread, -, rfl⟩ := h
    exact (List.append_nil _).symm
  | run interrupted =>
    rw [queued, List.append_nil, taken]
    rw [step, runMove] at h
    cases hrun : s.run <;> simp only [hrun] at h
    case waiting =>
      simp only [Option.map_eq_some_iff] at h
      obtain ⟨thread, -, rfl⟩ := h
      rfl
    case check | pop => cases hqueue : s.pullRequestQueue <;> simp_all <;> grind -linarith
    all_goals grind -linarith

/-- The requests pulled so far, and those in the queue, are the requests queued so far, in their
order; and however the threads interleave, a service that sleeps although there is a request or
it has been stopped is not left sleeping: some thread is on its way through `wakeup` and can go
on. -/
theorem request_awaits_service {es : List (PullEvent T R)} {s : PullMessageService T R}
    (hrun : Base.runFrom step new es = some s) :
    Base.effects step taken new es ++ s.pullRequestQueue = Base.effects step queued new es ∧
      (s.thread.Asleep → s.Needed →
        ∃ t, s.thread.callers t ≠ .out ∧ (s.step (.caller t)).isSome) := by
  have hs : s.Sound := Base.inv_of_runFrom sound_step sound_new hrun
  refine ⟨Base.effects_queue taken_step hrun, fun hasleep hneeded ↦ ?_⟩
  have hcalls : ∃ t, s.thread.callers t ≠ .out := by
    rcases hs.comes (.inr (.inr (.inr hasleep))) hneeded with hnotified | ⟨t, hpc⟩
    · obtain ⟨t, hpc, -⟩ := hs.thread.signal_comes hasleep hnotified
      exact ⟨t, by rw [hpc]; nofun⟩
    · exact ⟨t, by rcases hpc with hpc | hpc <;> rw [hpc] <;> nofun⟩
  obtain ⟨t, hpc⟩ := hcalls
  obtain ⟨u, hcalls, hmoves⟩ := hs.thread.caller_moves hasleep hpc
  exact ⟨u, hcalls, by simpa [step] using hmoves⟩

/-- The service has found the queue empty; `true` has queued a request, and the service sleeps. -/
def missed : List (PullEvent Bool Nat) :=
  [.run false, .run false, .executePullRequestImmediately (some true) 7, .run false, .run false,
   .run false]

/-- The state after it. -/
def missedState : PullMessageService Bool Nat := (Base.runFrom step new missed).get rfl

theorem request_awaits_service_missed :
    Base.effects step taken new missed ++ missedState.pullRequestQueue =
        Base.effects step queued new missed ∧
      ∃ t, missedState.thread.callers t ≠ .out ∧ (missedState.step (.caller t)).isSome := by
  have hrun : Base.runFrom step new missed = some missedState := (Option.some_get rfl).symm
  have hasleep : missedState.thread.Asleep := rfl
  have hneeded : missedState.Needed := .inl (by decide)
  obtain ⟨heffects, hawaits⟩ := request_awaits_service hrun
  exact ⟨heffects, hawaits hasleep hneeded⟩

end PullMessageService
end RocketMQ
