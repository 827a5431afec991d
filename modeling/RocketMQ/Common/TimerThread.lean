import Mathlib.Data.List.Pairwise
import RocketMQ.Base.Run
import RocketMQ.Producer.TopicPublishInfo

/-!
# Timers

`src/kpr/TimerThread.cpp`. A check adds the time since the check before it to every timer, also to
those that were registered in between. Reading the clock and checking are two steps, between which
other threads may register timers; `GetNextTimerID` shares its counter with other timer threads, so
that any number may be the next.
-/

namespace RocketMQ

/-- `TimerInfo`, without its handler. -/
structure TimerInfo where
  id : Nat
  elapse : Nat
  outTime : Int
  persistent : Bool

/-- A timer with its history: which registration it is from and the earliest moment at which that
may be fired at all, the check from which its time is counted, the delay that is still to be waited
behind it, and the earliest moment at which it may be fired next. -/
structure Timer extends TimerInfo where
  serial : Nat
  earliest : Nat
  since : Nat
  delay : Nat
  due : Nat

/-- A timer that was put into the list of a check, with the time the check goes by and the moment
at which it happened. -/
structure Firing where
  serial : Nat
  persistent : Bool
  elapse : Nat
  earliest : Nat
  checkTime : Nat
  moment : Nat

/-- Where `Run` stands: before it reads the clock for the first time, at the head of its loop, or
with a clock reading for the next check. -/
inductive RunPc where
  | start
  | head
  | check (currentCheckTime : Nat)

/-- A `TimerThread`, the clock, and what was registered and fired so far. -/
structure TimerThread where
  clock : Nat
  pc : RunPc
  lastCheckTime : Nat
  timers : List Timer
  registered : Nat
  fired : List Firing

/-- What can happen next. -/
inductive TimerEvent where
  | tick (millis : Nat)
  | registerTimer (id initialDelay elapse : Nat) (persistent : Bool)
  | unRegisterTimer (id : Nat)
  | run
  | getCurrentTimeMillis
  | checkTimeOut

namespace Timer

/-- `it->second.outTime += elapse`, in `unsigned int`. -/
def add (elapse : Nat) (x : Timer) : Timer := { x with outTime := toInt32 (x.outTime + elapse) }

/-- `it->second.outTime >= int(it->second.elapse)`. -/
def isOut (x : Timer) : Bool := x.outTime ≥ toInt32 x.elapse

/-- What becomes of a timer in the loop of `CheckTimeOut`, `src/kpr/TimerThread.cpp:145–168`. -/
def next (checkTime moment : Nat) (x : Timer) : Option Timer :=
  if x.isOut then
    if x.persistent then
      some { x with outTime := 0, since := checkTime, delay := 0, due := moment + x.elapse }
    else none
  else some x

/-- What goes into `timerList`. -/
def firing (checkTime moment : Nat) (x : Timer) : Firing :=
  ⟨x.serial, x.persistent, x.elapse, x.earliest, checkTime, moment⟩

end Timer

namespace TimerThread

/-- A new `TimerThread`. -/
def new (clock : Nat) : TimerThread := ⟨clock, .start, 0, [], 0, []⟩

/-- `TimerThread::RegisterTimer`, `src/kpr/TimerThread.cpp:83–98`. -/
def registerTimer (s : TimerThread) (id initialDelay elapse : Nat) (persistent : Bool) :
    TimerThread :=
  let due := s.clock + initialDelay + elapse
  let info : Timer :=
    ⟨⟨id, elapse, toInt32 (0 - initialDelay), persistent⟩, s.registered, due, s.lastCheckTime,
      initialDelay, due⟩
  { s with timers := s.timers.filter (·.id ≠ id) ++ [info], registered := s.registered + 1 }

/-- `TimerThread::CheckTimeOut`, `src/kpr/TimerThread.cpp:136–175`, and the end of the loop of
`Run`. -/
def checkTimeOut (s : TimerThread) (currentCheckTime : Nat) : TimerThread :=
  let elapse := (currentCheckTime - s.lastCheckTime) % 2 ^ 32
  let timers := s.timers.map (Timer.add elapse)
  { s with
    pc := .head
    lastCheckTime := currentCheckTime
    timers := timers.filterMap (Timer.next currentCheckTime s.clock)
    fired := s.fired ++ (timers.filter Timer.isOut).map (Timer.firing currentCheckTime s.clock) }

/-- One step. A registration has `initialDelay + elapse` below `2 ^ 31`. -/
def step (s : TimerThread) : TimerEvent → Option TimerThread
  | .tick millis => some { s with clock := s.clock + millis }
  | .registerTimer id initialDelay elapse persistent =>
    if initialDelay + elapse < 2 ^ 31 then
      some (s.registerTimer id initialDelay elapse persistent)
    else none
  | .unRegisterTimer id => some { s with timers := s.timers.filter (·.id ≠ id) }
  | .run =>
    match s.pc with
    | .start => some { s with
        pc := .head
        lastCheckTime := s.clock
        timers := s.timers.map fun x ↦ { x with since := s.clock } }
    | .head | .check _ => none
  | .getCurrentTimeMillis =>
    match s.pc with
    | .head => some { s with pc := .check s.clock }
    | .start | .check _ => none
  | .checkTimeOut =>
    match s.pc with
    | .check currentCheckTime => some (s.checkTimeOut currentCheckTime)
    | .start | .head => none

/-! ### What is to hold -/

/-- Nothing is fired before its registration, its initial delay and its `elapse` allow it, and
nothing is fired again before a further `elapse`. -/
structure Punctual (s : TimerThread) : Prop where
  not_early : ∀ f ∈ s.fired, f.earliest ≤ f.moment
  again : s.fired.Pairwise fun f g ↦ f.serial = g.serial → f.moment + f.elapse ≤ g.moment

/-- A timer that is fired twice is persistent. -/
def OneShotsOnce (s : TimerThread) : Prop :=
  s.fired.Pairwise fun f g ↦ f.serial = g.serial → f.persistent

/-- The checks that fire a timer are at least `elapse` apart. -/
def ChecksApart (s : TimerThread) : Prop :=
  s.fired.Pairwise fun f g ↦ f.serial = g.serial → f.checkTime + f.elapse ≤ g.checkTime

/-- The time from which a timer is counted lies as far back as its delay and its `elapse`, for what
an `int` can tell. -/
def Fires (currentCheckTime : Nat) (x : Timer) : Prop :=
  x.elapse ≤ toInt32 (currentCheckTime - x.since - x.delay)

instance (currentCheckTime : Nat) (x : Timer) : Decidable (Fires currentCheckTime x) :=
  inferInstanceAs (Decidable (_ ≤ _))

/-- No check, counting from the one before a registration or from the one that has fired the timer
last, comes to a timer before its moment. -/
def InTime (s : TimerThread) : TimerEvent → Prop
  | .checkTimeOut => ∀ currentCheckTime, s.pc = .check currentCheckTime → ∀ x ∈ s.timers,
      Fires currentCheckTime x → x.due ≤ s.clock
  | _ => True

/-! ### The invariant -/

/-- What an earlier firing of the same timer says about it. -/
structure FiredBefore (x : Timer) (f : Firing) : Prop where
  persistent : f.persistent = true
  elapse : f.elapse = x.elapse
  earliest : f.earliest = x.earliest
  checkTime_le : f.checkTime ≤ x.since
  delay : x.delay = 0
  due : f.moment + f.elapse ≤ x.due

/-- The time that a timer has been counting. -/
structure Counting (lastCheckTime : Nat) (x : Timer) : Prop where
  outTime : x.outTime = toInt32 (lastCheckTime - x.since - x.delay)
  since_le : x.since ≤ lastCheckTime
  short : x.delay + x.elapse < 2 ^ 31

/-- What holds in every state. -/
structure Inv (s : TimerThread) : Prop where
  lastCheckTime_le : s.lastCheckTime ≤ s.clock
  reading : ∀ c, s.pc = .check c → s.lastCheckTime ≤ c ∧ c ≤ s.clock
  starting : s.pc = .start → s.fired = [] ∧ ∀ x ∈ s.timers, x.since = s.lastCheckTime
  counting : ∀ x ∈ s.timers, Counting s.lastCheckTime x
  serials : s.timers.Pairwise fun x y ↦ x.serial ≠ y.serial
  timer_lt : ∀ x ∈ s.timers, x.serial < s.registered
  firing_lt : ∀ f ∈ s.fired, f.serial < s.registered
  past : ∀ f ∈ s.fired, f.moment ≤ s.clock
  before : ∀ x ∈ s.timers, ∀ f ∈ s.fired, f.serial = x.serial → FiredBefore x f
  due : ∀ x ∈ s.timers, x.due = x.earliest ∨
    ∃ f ∈ s.fired, f.serial = x.serial ∧ f.moment + f.elapse = x.due

section Steps

variable {s t : TimerThread} {x y : Timer} {c : Nat}

theorem inv_new (clock : Nat) : (new clock).Inv :=
  ⟨Nat.zero_le _, nofun, fun _ ↦ ⟨rfl, nofun⟩, nofun, List.Pairwise.nil, nofun, nofun, nofun, nofun,
    nofun⟩

/-- Fewer timers keep the invariant. -/
theorem Inv.filter (h : s.Inv) (p : Timer → Bool) :
    Inv { s with timers := s.timers.filter p } where
  lastCheckTime_le := h.lastCheckTime_le
  reading := h.reading
  starting hpc := ⟨(h.starting hpc).1, fun x hx ↦ (h.starting hpc).2 x (List.mem_of_mem_filter hx)⟩
  counting x hx := h.counting x (List.mem_of_mem_filter hx)
  serials := h.serials.filter p
  timer_lt x hx := h.timer_lt x (List.mem_of_mem_filter hx)
  firing_lt := h.firing_lt
  past := h.past
  before x hx := h.before x (List.mem_of_mem_filter hx)
  due x hx := h.due x (List.mem_of_mem_filter hx)

/-- A check finds of a timer the time since the one it is counted from, as an `int`. -/
theorem outTime_add (hcounting : Counting s.lastCheckTime x) (hle : s.lastCheckTime ≤ c) :
    (x.add ((c - s.lastCheckTime) % 2 ^ 32)).outTime = toInt32 (c - x.since - x.delay) := by
  have hwrap : (((c - s.lastCheckTime) % 2 ^ 32 : Nat) : Int) =
      ((c : Int) - s.lastCheckTime) % ((2 ^ 32 : Nat) : Int) := by omega
  have hsum : (c : Int) - s.lastCheckTime + (s.lastCheckTime - x.since - x.delay) =
      c - x.since - x.delay := by omega
  rw [Timer.add, hcounting.outTime, hwrap, toInt32, toInt32, toInt32, Int.bmod_add_bmod,
    Int.add_comm, Int.emod_add_bmod, hsum]

/-- So it is out when that has come to its `elapse`. -/
theorem isOut_add_iff (hcounting : Counting s.lastCheckTime x) (hle : s.lastCheckTime ≤ c) :
    (x.add ((c - s.lastCheckTime) % 2 ^ 32)).isOut ↔ Fires c x := by
  have hshort := hcounting.short
  have helapse : toInt32 x.elapse = x.elapse := toInt32_of_range (by omega) (by omega)
  rw [Timer.isOut, outTime_add hcounting hle, decide_eq_true_iff, ge_iff_le, Fires, ← helapse]
  rfl

/-- An `int` that has come to `elapse` has done so without a wrap-around. -/
theorem since_add_le (hcounting : Counting s.lastCheckTime x) (hle : s.lastCheckTime ≤ c)
    (hfires : Fires c x) : x.since + x.delay + x.elapse ≤ c := by
  rw [Fires] at hfires
  have hsince := hcounting.since_le
  have hshort := hcounting.short
  have hat_most : toInt32 (c - x.since - x.delay) ≤ c - x.since - x.delay := by
    rw [toInt32, Int.bmod_def]
    split <;> omega
  omega

/-- What a check leaves of a timer. -/
theorem next_eq_some_iff {moment : Nat} : x.next c moment = some y ↔
    x.isOut = false ∧ y = x ∨ x.isOut = true ∧ x.persistent = true ∧
      y = { x with outTime := 0, since := c, delay := 0, due := moment + x.elapse } := by
  rw [Timer.next]
  cases x.isOut <;> cases x.persistent <;> simp [eq_comm]

/-- A timer behind a check is counted on, or it is persistent and was fired. -/
theorem of_mem_timers_checkTimeOut (h : s.Inv) (hle : s.lastCheckTime ≤ c)
    (hy : y ∈ (s.checkTimeOut c).timers) : ∃ x ∈ s.timers,
      ¬ Fires c x ∧ y = x.add ((c - s.lastCheckTime) % 2 ^ 32) ∨
        Fires c x ∧ x.persistent = true ∧
          y = { x with outTime := 0, since := c, delay := 0, due := s.clock + x.elapse } := by
  obtain ⟨x', hx', hnext⟩ := List.mem_filterMap.mp hy
  obtain ⟨x, hx, rfl⟩ := List.mem_map.mp hx'
  refine ⟨x, hx, ?_⟩
  rw [← isOut_add_iff (h.counting x hx) hle]
  rcases next_eq_some_iff.mp hnext with ⟨hin, rfl⟩ | ⟨hout, hpersistent, rfl⟩
  · exact .inl ⟨Bool.eq_false_iff.mp hin, rfl⟩
  · exact .inr ⟨hout, hpersistent, rfl⟩

/-- The firings behind a check. -/
theorem fired_checkTimeOut (h : s.Inv) (hle : s.lastCheckTime ≤ c) :
    (s.checkTimeOut c).fired =
      s.fired ++ (s.timers.filter fun x ↦ Fires c x).map (Timer.firing c s.clock) := by
  have hout : s.timers.filter (Timer.isOut ∘ Timer.add ((c - s.lastCheckTime) % 2 ^ 32)) =
      s.timers.filter fun x ↦ Fires c x := by
    apply List.filter_congr
    intro x hx
    rw [Function.comp_apply, Bool.eq_iff_iff, isOut_add_iff (h.counting x hx) hle,
      decide_eq_true_iff]
  rw [checkTimeOut, List.filter_map, List.map_map, hout]
  rfl

theorem mem_fired_checkTimeOut (h : s.Inv) (hle : s.lastCheckTime ≤ c) {g : Firing} :
    g ∈ (s.checkTimeOut c).fired ↔ g ∈ s.fired ∨
      ∃ x ∈ s.timers, Fires c x ∧ x.firing c s.clock = g := by
  rw [fired_checkTimeOut h hle, List.mem_append, List.mem_map]
  simp only [List.mem_filter, decide_eq_true_iff, and_assoc]

/-- A serial belongs to one timer. -/
theorem Inv.eq_of_serial (h : s.Inv) (hx : x ∈ s.timers) (hy : y ∈ s.timers)
    (hserial : x.serial = y.serial) : x = y := by
  have hsymm : Std.Symm fun x y : Timer ↦ x.serial ≠ y.serial := ⟨fun _ _ ↦ Ne.symm⟩
  by_contra hne
  exact h.serials.forall hx hy hne hserial

/-- A check keeps the serials apart. -/
theorem serials_checkTimeOut (h : s.Inv) :
    (s.checkTimeOut c).timers.Pairwise fun x y ↦ x.serial ≠ y.serial := by
  have hserial {moment : Nat} {x y : Timer} (hnext : x.next c moment = some y) :
      y.serial = x.serial := by
    rcases next_eq_some_iff.mp hnext with ⟨-, rfl⟩ | ⟨-, -, rfl⟩
    · rfl
    · rfl
  have hadd : (s.timers.map (Timer.add ((c - s.lastCheckTime) % 2 ^ 32))).Pairwise
      fun x y ↦ x.serial ≠ y.serial := List.pairwise_map.mpr h.serials
  apply hadd.filterMap _
  intro x x' hne y hy y' hy'
  rwa [hserial hy, hserial hy']

/-- What the firings say about a timer behind a check. -/
theorem Inv.firedBefore_checkTimeOut (h : s.Inv) (hle : s.lastCheckTime ≤ c)
    (hy : y ∈ (s.checkTimeOut c).timers) {f : Firing} (hf : f ∈ (s.checkTimeOut c).fired)
    (hserial : f.serial = y.serial) : FiredBefore y f := by
  obtain ⟨x, hx, ⟨hnot, rfl⟩ | ⟨hfires, hpersistent, rfl⟩⟩ := of_mem_timers_checkTimeOut h hle hy
  · rcases (mem_fired_checkTimeOut h hle).mp hf with hold | ⟨x', hx', hfires, rfl⟩
    · have hbefore := h.before x hx f hold hserial
      exact ⟨hbefore.persistent, hbefore.elapse, hbefore.earliest, hbefore.checkTime_le,
        hbefore.delay, hbefore.due⟩
    · exact absurd (h.eq_of_serial hx' hx hserial ▸ hfires) hnot
  · rcases (mem_fired_checkTimeOut h hle).mp hf with hold | ⟨x', hx', -, rfl⟩
    · have hbefore := h.before x hx f hold hserial
      have hsince := (h.counting x hx).since_le
      refine ⟨hbefore.persistent, hbefore.elapse, hbefore.earliest, ?_, rfl, ?_⟩
      · exact hbefore.checkTime_le.trans (hsince.trans hle)
      · rw [hbefore.elapse]
        exact Nat.add_le_add_right (h.past f hold) _
    · obtain rfl := h.eq_of_serial hx' hx hserial
      exact ⟨hpersistent, rfl, rfl, Nat.le_refl _, rfl, Nat.le_refl _⟩

/-- Step lemma for a check. -/
theorem Inv.checkTimeOut (h : s.Inv) (hle : s.lastCheckTime ≤ c) (hclock : c ≤ s.clock) :
    (s.checkTimeOut c).Inv where
  lastCheckTime_le := hclock
  reading := nofun
  starting := nofun
  counting y hy := by
    obtain ⟨x, hx, ⟨-, rfl⟩ | ⟨-, -, rfl⟩⟩ := of_mem_timers_checkTimeOut h hle hy
    · have hcounting := h.counting x hx
      exact ⟨outTime_add hcounting hle, hcounting.since_le.trans hle, hcounting.short⟩
    · have hshort := (h.counting x hx).short
      refine ⟨?_, Nat.le_refl c, by dsimp only; omega⟩
      have hzero : (c : Int) - c - (0 : Nat) = 0 := by omega
      exact (congrArg toInt32 hzero).symm
  serials := serials_checkTimeOut h
  timer_lt y hy := by
    obtain ⟨x, hx, ⟨-, rfl⟩ | ⟨-, -, rfl⟩⟩ := of_mem_timers_checkTimeOut h hle hy
    · exact h.timer_lt x hx
    · exact h.timer_lt x hx
  firing_lt g hg := by
    rcases (mem_fired_checkTimeOut h hle).mp hg with hold | ⟨x, hx, -, rfl⟩
    · exact h.firing_lt g hold
    · exact h.timer_lt x hx
  past g hg := by
    rcases (mem_fired_checkTimeOut h hle).mp hg with hold | ⟨x, hx, -, rfl⟩
    · exact h.past g hold
    · exact Nat.le_refl _
  before y hy g hg hserial := h.firedBefore_checkTimeOut hle hy hg hserial
  due y hy := by
    obtain ⟨x, hx, ⟨-, rfl⟩ | ⟨hfires, -, rfl⟩⟩ := of_mem_timers_checkTimeOut h hle hy
    · refine (h.due x hx).imp_right fun ⟨f, hf, hsame⟩ ↦ ⟨f, ?_, hsame⟩
      exact (mem_fired_checkTimeOut h hle).mpr (.inl hf)
    · refine .inr ⟨x.firing c s.clock, ?_, rfl, rfl⟩
      exact (mem_fired_checkTimeOut h hle).mpr (.inr ⟨x, hx, hfires, rfl⟩)

/-- A registration puts a timer of its own behind the others. -/
theorem Inv.registerTimer (h : s.Inv) (id : Nat) {initialDelay elapse : Nat}
    (hshort : initialDelay + elapse < 2 ^ 31) (persistent : Bool) :
    (s.registerTimer id initialDelay elapse persistent).Inv := by
  have hothers := h.filter (·.id ≠ id)
  constructor
  · exact h.lastCheckTime_le
  · exact h.reading
  · exact fun hpc ↦ ⟨(h.starting hpc).1, List.forall_mem_append.mpr
      ⟨(hothers.starting hpc).2, List.forall_mem_singleton.mpr rfl⟩⟩
  · refine List.forall_mem_append.mpr ⟨hothers.counting, List.forall_mem_singleton.mpr ?_⟩
    refine ⟨?_, Nat.le_refl _, hshort⟩
    have hzero : (s.lastCheckTime : Int) - s.lastCheckTime - initialDelay = 0 - initialDelay := by
      omega
    exact (congrArg toInt32 hzero).symm
  · refine List.pairwise_append.mpr ⟨hothers.serials, List.pairwise_singleton _ _, ?_⟩
    intro x hx y hy
    rw [List.mem_singleton.mp hy]
    exact Nat.ne_of_lt (hothers.timer_lt x hx)
  · refine List.forall_mem_append.mpr ⟨fun x hx ↦ ?_, List.forall_mem_singleton.mpr ?_⟩
    · exact Nat.lt_succ_of_lt (hothers.timer_lt x hx)
    · exact Nat.lt_succ_self _
  · exact fun f hf ↦ Nat.lt_succ_of_lt (h.firing_lt f hf)
  · exact h.past
  · refine List.forall_mem_append.mpr ⟨hothers.before, List.forall_mem_singleton.mpr ?_⟩
    exact fun f hf hserial ↦ absurd hserial (Nat.ne_of_lt (h.firing_lt f hf))
  · exact List.forall_mem_append.mpr ⟨hothers.due, List.forall_mem_singleton.mpr (.inl rfl)⟩

/-- Before `Run` starts no time is counted, and nothing is fired. -/
theorem Inv.run (h : s.Inv) (hpc : s.pc = .start) : Inv { s with
    pc := .head
    lastCheckTime := s.clock
    timers := s.timers.map fun x ↦ { x with since := s.clock } } := by
  obtain ⟨hfired, hsince⟩ := h.starting hpc
  have hnothing {P : Firing → Prop} : ∀ f ∈ s.fired, P f := by
    rw [hfired]
    exact nofun
  refine ⟨Nat.le_refl _, nofun, nofun, List.forall_mem_map.mpr fun x hx ↦ ⟨?_, Nat.le_refl _, ?_⟩,
    List.pairwise_map.mpr h.serials, List.forall_mem_map.mpr h.timer_lt, h.firing_lt, h.past,
    fun x _ ↦ hnothing, List.forall_mem_map.mpr h.due⟩
  · have hcounting := (h.counting x hx).outTime
    rw [hsince x hx, Int.sub_self] at hcounting
    rw [Int.sub_self]
    exact hcounting
  · exact (h.counting x hx).short

/-- Step lemma. -/
theorem inv_step (s : TimerThread) (e : TimerEvent) (t : TimerThread) (h : s.Inv)
    (hstep : s.step e = some t) : t.Inv := by
  cases e with
  | tick millis =>
    cases hstep
    refine ⟨Nat.le_add_right_of_le h.lastCheckTime_le, fun c hpc ↦ ?_, h.starting, h.counting,
      h.serials, h.timer_lt, h.firing_lt, fun f hf ↦ Nat.le_add_right_of_le (h.past f hf),
      h.before, h.due⟩
    exact ⟨(h.reading c hpc).1, Nat.le_add_right_of_le (h.reading c hpc).2⟩
  | registerTimer id initialDelay elapse persistent =>
    simp only [step, Option.ite_none_right_eq_some, Option.some.injEq] at hstep
    obtain ⟨hshort, rfl⟩ := hstep
    exact h.registerTimer id hshort persistent
  | unRegisterTimer id =>
    cases hstep
    exact h.filter _
  | run =>
    simp only [step] at hstep
    split at hstep
    · next hpc =>
      cases hstep
      exact h.run hpc
    · cases hstep
    · cases hstep
  | getCurrentTimeMillis =>
    simp only [step] at hstep
    split at hstep
    · next hpc =>
      cases hstep
      refine ⟨h.lastCheckTime_le, ?_, nofun, h.counting, h.serials, h.timer_lt, h.firing_lt,
        h.past, h.before, h.due⟩
      rintro c hreading
      cases hreading
      exact ⟨h.lastCheckTime_le, Nat.le_refl _⟩
    · cases hstep
    · cases hstep
  | checkTimeOut =>
    simp only [step] at hstep
    split at hstep
    · next c hpc =>
      cases hstep
      exact h.checkTimeOut (h.reading c hpc).1 (h.reading c hpc).2
    · cases hstep
    · cases hstep

/-! ### Firings -/

/-- Only a check fires. -/
theorem step_cases {e : TimerEvent} (hstep : s.step e = some t) :
    t.fired = s.fired ∧ s.InTime e ∨
      ∃ c, e = .checkTimeOut ∧ s.pc = .check c ∧ t = s.checkTimeOut c := by
  cases e with
  | tick millis | unRegisterTimer id =>
    cases hstep
    exact .inl ⟨rfl, trivial⟩
  | registerTimer id initialDelay elapse persistent =>
    simp only [step, Option.ite_none_right_eq_some, Option.some.injEq] at hstep
    exact .inl ⟨hstep.2 ▸ rfl, trivial⟩
  | run | getCurrentTimeMillis =>
    simp only [step] at hstep
    split at hstep
    all_goals cases hstep
    exact .inl ⟨rfl, trivial⟩
  | checkTimeOut =>
    simp only [step] at hstep
    split at hstep
    · next c hpc =>
      cases hstep
      exact .inr ⟨c, rfl, hpc, rfl⟩
    · cases hstep
    · cases hstep

/-- What is to hold of two firings of a timer is new only between an old one and one of this
check. -/
theorem pairwise_fired_iff (h : s.Inv) (hle : s.lastCheckTime ≤ c) {R : Firing → Firing → Prop} :
    ((s.checkTimeOut c).fired.Pairwise fun f g ↦ f.serial = g.serial → R f g) ↔
      (s.fired.Pairwise fun f g ↦ f.serial = g.serial → R f g) ∧
        ∀ x ∈ s.timers, Fires c x → ∀ f ∈ s.fired, f.serial = x.serial →
          R f (x.firing c s.clock) := by
  have hnew : ((s.timers.filter fun x ↦ Fires c x).map (Timer.firing c s.clock)).Pairwise
      fun f g ↦ f.serial = g.serial → R f g := by
    refine List.pairwise_map.mpr ((h.serials.filter _).imp ?_)
    exact fun hne hserial ↦ absurd hserial hne
  rw [fired_checkTimeOut h hle, List.pairwise_append]
  constructor
  · rintro ⟨hold, -, hcross⟩
    refine ⟨hold, fun x hx hfires f hf ↦ hcross f hf _ (List.mem_map_of_mem ?_)⟩
    exact List.mem_filter.mpr ⟨hx, decide_eq_true hfires⟩
  · rintro ⟨hold, hcross⟩
    refine ⟨hold, hnew, fun f hf g hg ↦ ?_⟩
    obtain ⟨x, hx, rfl⟩ := List.mem_map.mp hg
    obtain ⟨hx, hfires⟩ := List.mem_filter.mp hx
    exact hcross x hx (of_decide_eq_true hfires) f hf

/-- A step leaves the firings punctual exactly when they were and it is in time. -/
theorem punctual_step (s : TimerThread) (e : TimerEvent) (t : TimerThread) (h : s.Inv)
    (hstep : s.step e = some t) : t.Punctual ↔ s.Punctual ∧ s.InTime e := by
  rcases step_cases hstep with ⟨hsame, htrivial⟩ | ⟨c, rfl, hpc, rfl⟩
  · rw [and_iff_left htrivial]
    exact ⟨fun ⟨hearly, hagain⟩ ↦ ⟨hsame ▸ hearly, hsame ▸ hagain⟩,
      fun ⟨hearly, hagain⟩ ↦ ⟨hsame ▸ hearly, hsame ▸ hagain⟩⟩
  · have hle := (h.reading c hpc).1
    constructor
    · rintro ⟨hearly, hagain⟩
      obtain ⟨hold, hcross⟩ := (pairwise_fired_iff h hle).mp hagain
      refine ⟨⟨fun f hf ↦ hearly f ((mem_fired_checkTimeOut h hle).mpr (.inl hf)), hold⟩, ?_⟩
      intro c' hpc' x hx hfires
      obtain rfl : c' = c := by
        rw [hpc] at hpc'
        cases hpc'
        rfl
      rcases h.due x hx with hdue | ⟨f, hf, hserial, hdue⟩
      · rw [hdue]
        exact hearly _ ((mem_fired_checkTimeOut h hle).mpr (.inr ⟨x, hx, hfires, rfl⟩))
      · rw [← hdue]
        exact hcross x hx hfires f hf hserial
    · rintro ⟨⟨hearly, hagain⟩, hintime⟩
      refine ⟨fun f hf ↦ ?_, (pairwise_fired_iff h hle).mpr ⟨hagain, ?_⟩⟩
      · rcases (mem_fired_checkTimeOut h hle).mp hf with hold | ⟨x, hx, hfires, rfl⟩
        · exact hearly f hold
        · have hwaited := hintime c hpc x hx hfires
          rcases h.due x hx with hdue | ⟨f, hf, hserial, hdue⟩
          · rw [hdue] at hwaited
            exact hwaited
          · have hearlier := hearly f hf
            rw [(h.before x hx f hf hserial).earliest] at hearlier
            exact hearlier.trans (h.past f hf)
      · intro x hx hfires f hf hserial
        exact (h.before x hx f hf hserial).due.trans (hintime c hpc x hx hfires)

/-- A timer that is fired again is persistent, and the checks are `elapse` apart. -/
theorem apart_step (s : TimerThread) (e : TimerEvent) (t : TimerThread)
    (h : s.Inv ∧ s.OneShotsOnce ∧ s.ChecksApart) (hstep : s.step e = some t) :
    t.Inv ∧ t.OneShotsOnce ∧ t.ChecksApart := by
  obtain ⟨hinv, honce, hapart⟩ := h
  refine ⟨inv_step s e t hinv hstep, ?_⟩
  rcases step_cases hstep with ⟨hsame, -⟩ | ⟨c, rfl, hpc, rfl⟩
  · rw [OneShotsOnce, ChecksApart, hsame]
    exact ⟨honce, hapart⟩
  · have hle := (hinv.reading c hpc).1
    constructor
    · refine (pairwise_fired_iff hinv hle).mpr ⟨honce, fun x hx _ f hf hserial ↦ ?_⟩
      exact (hinv.before x hx f hf hserial).persistent
    · refine (pairwise_fired_iff hinv hle).mpr ⟨hapart, fun x hx hfires f hf hserial ↦ ?_⟩
      have hbefore := hinv.before x hx f hf hserial
      have hsince := since_add_le (hinv.counting x hx) hle hfires
      rw [hbefore.elapse]
      exact (Nat.add_le_add_right (hbefore.checkTime_le.trans (Nat.le_add_right _ _)) _).trans
        hsince

/-- **Timers**: in every run nothing is fired too early exactly when all checks are in time, a
timer that is not persistent is fired at most once, and the checks that fire a timer again are
`elapse` apart. -/
theorem punctual_iff_inTime (clock : Nat) (events : List TimerEvent) (s : TimerThread)
    (hrun : Base.runFrom step (new clock) events = some s) :
    (s.Punctual ↔ Base.Along step InTime (new clock) events) ∧ s.OneShotsOnce ∧ s.ChecksApart := by
  have hstart : (new clock).Punctual := ⟨nofun, List.Pairwise.nil⟩
  have halong := Base.recorded_iff_along inv_step punctual_step (inv_new clock) hrun
  have hapart := Base.inv_of_runFrom apart_step
    ⟨inv_new clock, List.Pairwise.nil, List.Pairwise.nil⟩ hrun
  exact ⟨halong.trans (and_iff_right hstart), hapart.2⟩

end Steps

/-- Checks at 0 and at 1000, and at 999 a timer of 500 milliseconds that is not persistent. -/
def lateRegistration : List TimerEvent :=
  [.run, .getCurrentTimeMillis, .checkTimeOut, .tick 999, .registerTimer 1 0 500 false, .tick 1,
    .getCurrentTimeMillis, .checkTimeOut]

/-- It is fired one millisecond after its registration. -/
theorem lateRegistration_early : ∃ s, Base.runFrom step (new 0) lateRegistration = some s ∧
    s.fired.map (fun f ↦ (f.earliest, f.moment)) = [(1499, 1000)] ∧ ¬ s.Punctual := by
  refine ⟨_, rfl, by decide, fun h ↦ ?_⟩
  exact absurd (h.not_early ⟨0, false, 500, 1499, 1000, 1000⟩ List.mem_cons_self) (by decide)

/-- The timer is registered right after a check instead, and is persistent. -/
def promptRegistration : List TimerEvent :=
  [.run, .getCurrentTimeMillis, .checkTimeOut, .registerTimer 1 0 500 true, .tick 1000,
    .getCurrentTimeMillis, .checkTimeOut, .tick 1000, .getCurrentTimeMillis, .checkTimeOut]

/-- It is fired by both checks behind it, each time in time. -/
theorem punctual_iff_inTime_promptRegistration :
    ∃ s, Base.runFrom step (new 0) promptRegistration = some s ∧
      s.fired.map (·.moment) = [1000, 2000] ∧
      (s.Punctual ↔ Base.Along step InTime (new 0) promptRegistration) ∧ s.OneShotsOnce ∧
      s.ChecksApart :=
  ⟨_, rfl, by decide, punctual_iff_inTime 0 promptRegistration _ rfl⟩

end TimerThread
end RocketMQ
