import RocketMQ.Base.Objects
import RocketMQ.Consumer.Orderly

/-!
# The queue objects that orderly requests refer to

`ConsumeOrderlyRequest` and `SubmitConsumeRequestLaterOrderly` of
`src/consumer/ConsumeMessageOrderlyService.cpp` keep a reference to a `MessageQueue`,
`TryLockLaterAndReconsume` a copy of its own. When that timer fires it passes a reference to its
copy on, and deletes itself. The `MessageQueue` of a `PullRequest` is never deleted.
-/

namespace RocketMQ

open Base (Objects)

/-- References to `MessageQueue` objects: the one of the `PullRequest`, and those of the waiting
requests, of the timers and of the running requests, as `OrderlyState` orders them. A timer
`TryLockLaterAndReconsume` has the reference to its own object here. -/
structure QueueRefs where
  pull : Nat
  queued : List Nat
  timers : List Nat
  running : List Nat

/-- `TryLockLaterAndReconsume` has a `MessageQueue` of its own,
`SubmitConsumeRequestLaterOrderly` a reference. -/
def OrderlyTimer.ownsQueue : OrderlyTimer → Bool
  | .tryLockLaterAndReconsume _ => true
  | .submitConsumeRequestLater _ => false

/-- What concerns one `ProcessQueue`: its queue, the state of its requests, and what they refer
to. -/
structure OrderlyLine where
  mq : MessageQueue
  state : OrderlyState
  refs : QueueRefs

/-- The `MessageQueue` objects, and the process queues that were dispatched so far. -/
structure OrderlyHeap where
  objects : Objects MessageQueue
  lines : List OrderlyLine

/-- A `PullRequest` is dispatched for a queue, or something happens to a process queue. -/
inductive OrderlyHeapEvent where
  | dispatch (mq : MessageQueue) (now : Nat) (store : RemoteBrokerOffsetStore)
  | line (k : Nat) (e : OrderlyEvent)

namespace QueueRefs

/-- When a request with the reference `ref` to the queue `mq` has made a step. A copy for
`TryLockLaterAndReconsume` is a new object, `submitConsumeRequestLater` keeps the reference. -/
def goNext (refs : QueueRefs) (objects : Objects MessageQueue) (i ref : Nat) (mq : MessageQueue) :
    OrderlyNext → Objects MessageQueue × QueueRefs
  | .goOn _ => (objects, refs)
  | .leave => (objects, { refs with running := refs.running.eraseIdx i })
  | .leaveLater (.tryLockLaterAndReconsume _) =>
    let (objects, copy) := objects.create mq
    (objects, { refs with
      running := refs.running.eraseIdx i
      timers := refs.timers ++ [copy] })
  | .leaveLater (.submitConsumeRequestLater _) =>
    (objects, { refs with
      running := refs.running.eraseIdx i
      timers := refs.timers ++ [ref] })

end QueueRefs

namespace OrderlyLine

/-- A request makes its steps with the queue that it refers to; reading one that is deleted is
undefined. -/
def readQueue (line : OrderlyLine) (objects : Objects MessageQueue) :
    OrderlyEvent → Option MessageQueue
  | .run i _ => line.refs.running[i]?.bind objects.get
  | .put _ | .start | .fire _ _ | .lock _ | .drop | .clock _ => some line.mq

/-- What becomes of the objects and the references,
`src/consumer/ConsumeMessageOrderlyService.cpp:104–208` and `339–456`. -/
def stepRefs (line : OrderlyLine) (objects : Objects MessageQueue) (mq : MessageQueue) :
    OrderlyEvent → Option (Objects MessageQueue × QueueRefs)
  | .put msgs =>
    some (objects, if (line.state.queue.pq.putMessage msgs).2 then
      { line.refs with queued := line.refs.queued ++ [line.refs.pull] } else line.refs)
  | .start =>
    match line.refs.queued with
    | [] => none
    | ref :: queued =>
      some (objects, { line.refs with queued, running := line.refs.running ++ [ref] })
  | .run i input =>
    match line.state.running[i]?, line.refs.running[i]? with
    | some .fetchLock, some _ => some (objects, line.refs)
    | some pc, some ref =>
      (line.state.queue.doStep mq pc input).map fun (_, next) ↦
        line.refs.goNext objects i ref mq next
    | _, _ => none
  | .fire i _ =>
    match line.state.timers[i]?, line.refs.timers[i]? with
    | some (.submitConsumeRequestLater _), some ref =>
      some (objects, { line.refs with
        timers := line.refs.timers.eraseIdx i
        queued := line.refs.queued ++ [ref] })
    | some (.tryLockLaterAndReconsume _), some ref =>
      -- the new timer refers to the field of the one that is deleted
      some (objects.delete ref, { line.refs with
        timers := line.refs.timers.eraseIdx i ++ [ref] })
    | _, _ => none
  | .lock _ | .drop | .clock _ => some (objects, line.refs)

/-- One step of a process queue. -/
def step (line : OrderlyLine) (objects : Objects MessageQueue) (e : OrderlyEvent) :
    Option (Objects MessageQueue × OrderlyLine) := do
  let mq ← line.readQueue objects e
  let state ← line.state.step mq e
  let (objects, refs) ← line.stepRefs objects mq e
  return (objects, { line with state, refs })

end OrderlyLine

namespace OrderlyHeap

/-- Nothing is dispatched yet. -/
def init : OrderlyHeap := ⟨Objects.empty, []⟩

/-- One step. -/
def step (s : OrderlyHeap) : OrderlyHeapEvent → Option OrderlyHeap
  | .dispatch mq now store =>
    let (objects, pull) := s.objects.create mq
    some ⟨objects, s.lines ++ [⟨mq, .init now store, ⟨pull, [], [], []⟩⟩]⟩
  | .line k e =>
    match s.lines[k]? with
    | none => none
    | some line =>
      (line.step s.objects e).map fun (objects, line) ↦ ⟨objects, s.lines.set k line⟩

/-- Every waiting request and every pending timer refers to an object that is there and equal to
the queue of its process queue. -/
def NamesLiveQueues (s : OrderlyHeap) : Prop :=
  ∀ line ∈ s.lines, s.objects.AllRefer (line.refs.queued ++ line.refs.timers) line.mq

end OrderlyHeap

/-! ### What a step does to the references -/

namespace QueueRefs

/-- All of them. -/
def all (refs : QueueRefs) : List Nat :=
  refs.pull :: (refs.queued ++ refs.timers ++ refs.running)

variable {refs : QueueRefs} {objects : Objects MessageQueue} {mq : MessageQueue} {i ref : Nat}

theorem mem_all : ref ∈ refs.all ↔
    ref = refs.pull ∨ ref ∈ refs.queued ∨ ref ∈ refs.timers ∨ ref ∈ refs.running := by
  rw [all, List.mem_cons, List.mem_append, List.mem_append, or_assoc]

/-- A new request refers to what the `PullRequest` refers to. -/
theorem all_put : { refs with queued := refs.queued ++ [refs.pull] }.all ⊆ refs.all := by
  intro ref' hmem
  simp only [mem_all, List.mem_append, List.mem_singleton] at hmem ⊢
  tauto

/-- A request that starts keeps its reference. -/
theorem all_start {queued : List Nat} (hqueued : refs.queued = ref :: queued) :
    { refs with queued, running := refs.running ++ [ref] }.all ⊆ refs.all := by
  intro ref' hmem
  simp only [mem_all, hqueued, List.mem_append, List.mem_cons, List.not_mem_nil,
    or_false] at hmem ⊢
  tauto

/-- A `SubmitConsumeRequestLaterOrderly` that fires passes its reference on. -/
theorem all_fire (hi : refs.timers[i]? = some ref) :
    { refs with
      timers := refs.timers.eraseIdx i
      queued := refs.queued ++ [ref] }.all ⊆ refs.all := by
  intro ref' hmem
  have hfired : ref ∈ refs.timers := List.mem_of_getElem? hi
  have herase : refs.timers.eraseIdx i ⊆ refs.timers := (List.eraseIdx_sublist _ _).subset
  simp only [mem_all, List.mem_append, List.mem_singleton] at hmem ⊢
  rcases hmem with hpull | (hqueued | rfl) | htimer | hrun
  · exact Or.inl hpull
  · exact Or.inr (Or.inl hqueued)
  · exact Or.inr (Or.inr (Or.inl hfired))
  · exact Or.inr (Or.inr (Or.inl (herase htimer)))
  · exact Or.inr (Or.inr (Or.inr hrun))

/-- A step of a request that refers to the queue deletes nothing, and all references it leaves are
to the queue. -/
theorem allRefer_goNext (h : objects.AllRefer refs.all mq) (href : objects.get ref = some mq)
    (next : OrderlyNext) :
    objects.Keeps (refs.goNext objects i ref mq next).1 ∧
      (refs.goNext objects i ref mq next).1.AllRefer (refs.goNext objects i ref mq next).2.all
        mq := by
  -- no reference is left but the old ones and, for a new timer, one more
  have hcons {running timers : List Nat} {new : Nat} (hrunning : running ⊆ refs.running)
      (htimers : timers ⊆ refs.timers ++ [new]) :
      { refs with running, timers }.all ⊆ new :: refs.all := by
    intro ref' hmem
    rw [List.mem_cons, mem_all]
    rcases mem_all.mp hmem with hpull | hqueued | htimer | hrun
    · exact Or.inr (Or.inl hpull)
    · exact Or.inr (Or.inr (Or.inl hqueued))
    · rcases List.mem_append.mp (htimers htimer) with hold | hnew
      · exact Or.inr (Or.inr (Or.inr (Or.inl hold)))
      · exact Or.inl (List.mem_singleton.mp hnew)
    · exact Or.inr (Or.inr (Or.inr (Or.inr (hrunning hrun))))
  have hrunning : refs.running.eraseIdx i ⊆ refs.running := (List.eraseIdx_sublist _ _).subset
  cases next with
  | goOn pc => exact ⟨objects.keeps_refl, h⟩
  | leave =>
    exact ⟨objects.keeps_refl,
      (h.cons href).mono (hcons hrunning (List.subset_append_left _ _))⟩
  | leaveLater timer =>
    cases timer with
    | tryLockLaterAndReconsume delayMills =>
      refine ⟨objects.keeps_create mq, ?_⟩
      exact ((h.of_keeps (objects.keeps_create mq)).cons (objects.get_create_self mq)).mono
        (hcons hrunning (List.Subset.refl _))
    | submitConsumeRequestLater timeMillis =>
      exact ⟨objects.keeps_refl, (h.cons href).mono (hcons hrunning (List.Subset.refl _))⟩

end QueueRefs

namespace OrderlyLine

variable {line line' : OrderlyLine} {objects objects' : Objects MessageQueue} {e : OrderlyEvent}

/-- All references of the process queue are to its queue. -/
def Refers (line : OrderlyLine) (objects : Objects MessageQueue) : Prop :=
  objects.AllRefer line.refs.all line.mq

/-- The timer that fires, if any, is no `TryLockLaterAndReconsume`. -/
def FiresNoTryLock (line : OrderlyLine) : OrderlyEvent → Prop
  | .fire i _ => ∀ timer ∈ line.state.timers[i]?, timer.ownsQueue = false
  | .put _ | .start | .run _ _ | .lock _ | .drop | .clock _ => True

instance (line : OrderlyLine) : ∀ e, Decidable (line.FiresNoTryLock e)
  | .fire _ _ => inferInstanceAs (Decidable (∀ timer ∈ _, _))
  | .put _ | .start | .run _ _ | .lock _ | .drop | .clock _ => inferInstanceAs (Decidable True)

/-- The parts of a step. -/
theorem step_eq_some_iff : line.step objects e = some (objects', line') ↔
    ∃ mq state refs, line.readQueue objects e = some mq ∧ line.state.step mq e = some state ∧
      line.stepRefs objects mq e = some (objects', refs) ∧ line' = { line with state, refs } := by
  simp only [step, Option.bind_eq_bind, Option.bind_eq_some_iff, Option.pure_def,
    Option.some.injEq, Prod.mk.injEq, Prod.exists]
  constructor
  · rintro ⟨mq, hmq, state, hstate, _, refs, hrefs, rfl, rfl⟩
    exact ⟨mq, state, refs, hmq, hstate, hrefs, rfl⟩
  · rintro ⟨mq, state, refs, hmq, hstate, hrefs, rfl⟩
    exact ⟨mq, hmq, state, hstate, _, refs, hrefs, rfl, rfl⟩

theorem Refers.get_running (h : line.Refers objects) {i ref : Nat}
    (href : line.refs.running[i]? = some ref) : objects.get ref = some line.mq :=
  h ref (QueueRefs.mem_all.mpr (Or.inr (Or.inr (Or.inr (List.mem_of_getElem? href)))))

/-- A request of a process queue whose references are right reads its queue. -/
theorem Refers.readQueue_eq (h : line.Refers objects) {mq : MessageQueue}
    (hread : line.readQueue objects e = some mq) : mq = line.mq := by
  cases e with
  | run i input =>
    obtain ⟨ref, href, hget⟩ := Option.bind_eq_some_iff.mp hread
    exact Option.some.inj (hget.symm.trans (h.get_running href))
  | put | start | fire | lock | drop | clock => exact (Option.some.inj hread).symm

theorem Refers.of_subset (h : line.Refers objects) {refs : QueueRefs}
    (hsub : refs.all ⊆ line.refs.all) :
    objects.Keeps objects ∧ objects.AllRefer refs.all line.mq :=
  ⟨objects.keeps_refl, Objects.AllRefer.mono h hsub⟩

/-- References that stay right, unless a `TryLockLaterAndReconsume` fires. -/
theorem Refers.stepRefs (h : line.Refers objects) (hgood : line.FiresNoTryLock e)
    {refs : QueueRefs} (hrefs : line.stepRefs objects line.mq e = some (objects', refs)) :
    objects.Keeps objects' ∧ objects'.AllRefer refs.all line.mq := by
  cases e with
  | put msgs =>
    cases hrefs
    split_ifs
    · exact h.of_subset QueueRefs.all_put
    · exact h.of_subset (List.Subset.refl _)
  | start =>
    simp only [OrderlyLine.stepRefs] at hrefs
    split at hrefs
    · cases hrefs
    · next first queued hqueued =>
      cases hrefs
      exact h.of_subset (QueueRefs.all_start hqueued)
  | run i input =>
    simp only [OrderlyLine.stepRefs] at hrefs
    split at hrefs
    · cases hrefs
      exact h.of_subset (List.Subset.refl _)
    · next pc ref _ _ href =>
      obtain ⟨⟨q, next⟩, -, heq⟩ := Option.map_eq_some_iff.mp hrefs
      have hnext := QueueRefs.allRefer_goNext (i := i) h (h.get_running href) next
      rw [heq] at hnext
      exact hnext
    · cases hrefs
  | fire i lockOK =>
    simp only [OrderlyLine.stepRefs] at hrefs
    split at hrefs
    · next timeMillis fired _ hfired =>
      cases hrefs
      exact h.of_subset (QueueRefs.all_fire hfired)
    · next htimer _ => cases hgood _ htimer
    · cases hrefs
  | lock | drop | clock =>
    cases hrefs
    exact h.of_subset (List.Subset.refl _)

/-- There is a reference for every request and every timer. -/
structure Matched (line : OrderlyLine) : Prop where
  queued : line.refs.queued.length = line.state.queued
  timers : line.refs.timers.length = line.state.timers.length
  running : line.refs.running.length = line.state.running.length

theorem Matched.goNext (h : line.Matched) {i ref : Nat} {mq : MessageQueue} {q : OrderlyQueue}
    (next : OrderlyNext) :
    ({ line with
      state := line.state.goNext i q next
      refs := (line.refs.goNext objects i ref mq next).2 } : OrderlyLine).Matched := by
  obtain ⟨hqueued, htimers, hrunning⟩ := h
  cases next with
  | goOn pc =>
    exact ⟨hqueued, htimers, by simp [OrderlyState.goNext, QueueRefs.goNext, hrunning]⟩
  | leave =>
    exact ⟨hqueued, htimers, by
      simp [OrderlyState.goNext, QueueRefs.goNext, List.length_eraseIdx, hrunning]⟩
  | leaveLater timer =>
    cases timer with
    | tryLockLaterAndReconsume | submitConsumeRequestLater =>
      refine ⟨hqueued, ?_, ?_⟩
      · simp [OrderlyState.goNext, QueueRefs.goNext, htimers]
      · simp [OrderlyState.goNext, QueueRefs.goNext, List.length_eraseIdx, hrunning]

theorem Matched.exists_running (h : line.Matched) {i : Nat} {pc : OrderlyPc}
    (hi : line.state.running[i]? = some pc) : ∃ ref, line.refs.running[i]? = some ref :=
  ⟨_, List.getElem?_eq_getElem (h.running.symm ▸ (List.getElem?_eq_some_iff.mp hi).1)⟩

theorem Matched.exists_timer (h : line.Matched) {i : Nat} {timer : OrderlyTimer}
    (hi : line.state.timers[i]? = some timer) : ∃ ref, line.refs.timers[i]? = some ref :=
  ⟨_, List.getElem?_eq_getElem (h.timers.symm ▸ (List.getElem?_eq_some_iff.mp hi).1)⟩

/-- Past its first step, the references of a request go where the request goes. -/
theorem stepRefs_run {i ref : Nat} {input : OrderlyInput} {pc : OrderlyPc} {q : OrderlyQueue}
    {next : OrderlyNext} {mq : MessageQueue} (hi : line.state.running[i]? = some pc)
    (hpast : pc ≠ .fetchLock) (hdo : line.state.queue.doStep mq pc input = some (q, next))
    (href : line.refs.running[i]? = some ref) (objects : Objects MessageQueue) :
    line.stepRefs objects mq (.run i input) = some (line.refs.goNext objects i ref mq next) := by
  rw [OrderlyLine.stepRefs, hi, href]
  split
  · next heq _ => exact absurd (Option.some.inj heq) hpast
  · next heq heq' =>
    cases heq
    cases heq'
    rw [hdo]
    rfl
  · next hnone => exact absurd rfl (hnone _ _ rfl)

/-- A timer that fires leaves the place of its reference free, and a reference elsewhere. -/
theorem Matched.stepRefs_fire (h : line.Matched) {i : Nat} {lockOK : Bool} {mq : MessageQueue}
    {state : OrderlyState} (hstate : line.state.step mq (.fire i lockOK) = some state)
    (objects : Objects MessageQueue) :
    ∃ objects' refs, line.stepRefs objects mq (.fire i lockOK) = some (objects', refs) ∧
      ({ line with state, refs } : OrderlyLine).Matched := by
  simp only [OrderlyState.step] at hstate
  split at hstate
  · cases hstate
  · next hi =>
    cases hstate
    obtain ⟨ref, href⟩ := h.exists_timer hi
    have hrefs : line.stepRefs objects mq (.fire i lockOK) = some (objects, { line.refs with
        timers := line.refs.timers.eraseIdx i
        queued := line.refs.queued ++ [ref] }) := by
      rw [OrderlyLine.stepRefs, hi, href]
    refine ⟨_, _, hrefs, ?_, ?_, h.running⟩
    · simp [h.queued]
    · simp [List.length_eraseIdx, h.timers]
  · next hi =>
    cases hstate
    obtain ⟨ref, href⟩ := h.exists_timer hi
    have hrefs : line.stepRefs objects mq (.fire i lockOK) = some (objects.delete ref,
        { line.refs with timers := line.refs.timers.eraseIdx i ++ [ref] }) := by
      rw [OrderlyLine.stepRefs, hi, href]
    refine ⟨_, _, hrefs, h.queued, ?_, h.running⟩
    simp [List.length_eraseIdx, h.timers]

/-- The references follow every step of the requests. -/
theorem Matched.stepRefs (h : line.Matched) {mq : MessageQueue} {state : OrderlyState}
    (hstate : line.state.step mq e = some state) (objects : Objects MessageQueue) :
    ∃ objects' refs, line.stepRefs objects mq e = some (objects', refs) ∧
      ({ line with state, refs } : OrderlyLine).Matched := by
  cases e with
  | put msgs =>
    cases OrderlyState.stepped_of_step hstate
    refine ⟨objects, _, rfl, ?_⟩
    cases (line.state.queue.pq.putMessage msgs).2 with
    | true => exact ⟨by simp [h.queued], h.timers, h.running⟩
    | false => exact ⟨h.queued, h.timers, h.running⟩
  | start =>
    cases OrderlyState.stepped_of_step hstate with
    | start hpos =>
      obtain ⟨ref, rest, hcons⟩ := List.exists_cons_of_length_pos (h.queued ▸ hpos)
      have hlength : rest.length + 1 = line.state.queued := by
        rw [← h.queued, hcons, List.length_cons]
      refine ⟨objects, { line.refs with queued := rest, running := line.refs.running ++ [ref] },
        by simp only [OrderlyLine.stepRefs, hcons], ?_, h.timers, by simp [h.running]⟩
      exact (Nat.sub_eq_of_eq_add hlength.symm).symm
  | run i input =>
    cases OrderlyState.stepped_of_step hstate with
    | takeLock hi hfree =>
      obtain ⟨ref, href⟩ := h.exists_running hi
      exact ⟨objects, line.refs, by rw [OrderlyLine.stepRefs, hi, href], h.queued, h.timers,
        by simp [h.running]⟩
    | doStep hi hpast hdo =>
      obtain ⟨ref, href⟩ := h.exists_running hi
      exact ⟨_, _, stepRefs_run hi hpast hdo href objects, h.goNext _⟩
  | fire i lockOK => exact h.stepRefs_fire hstate objects
  | lock | drop | clock =>
    cases hstate
    exact ⟨_, _, rfl, h.queued, h.timers, h.running⟩

/-- One step of a process queue whose references are right and complete. -/
theorem tracked_step (h : line.Refers objects) (hmatched : line.Matched)
    (hgood : line.FiresNoTryLock e) (hstep : line.step objects e = some (objects', line')) :
    objects.Keeps objects' ∧ line'.Refers objects' ∧ line'.Matched := by
  obtain ⟨mq, state, refs, hread, hstate, hrefs, rfl⟩ := step_eq_some_iff.mp hstep
  obtain rfl := h.readQueue_eq hread
  obtain ⟨hkeeps, hall⟩ := h.stepRefs hgood hrefs
  obtain ⟨_, _, hrefs', hmatched'⟩ := hmatched.stepRefs hstate objects
  rw [hrefs, Option.some.injEq, Prod.mk.injEq] at hrefs'
  obtain ⟨rfl, rfl⟩ := hrefs'
  exact ⟨hkeeps, hall, hmatched'⟩

theorem Refers.readQueue_eq_some (h : line.Refers objects) (hmatched : line.Matched)
    {mq : MessageQueue} {state : OrderlyState} (hstate : line.state.step mq e = some state) :
    line.readQueue objects e = some line.mq := by
  cases e with
  | run i input =>
    obtain ⟨ref, href⟩ : ∃ ref, line.refs.running[i]? = some ref := by
      cases OrderlyState.stepped_of_step hstate with
      | takeLock hi | doStep hi => exact hmatched.exists_running hi
    rw [readQueue, href, Option.bind_some, h.get_running href]
  | put | start | fire | lock | drop | clock => rfl

/-- Where all references are right, the requests make the steps of `OrderlyState` with the queue of
the process queue, and no others. -/
theorem state_step_eq (h : line.Refers objects) (hmatched : line.Matched) (e : OrderlyEvent) :
    (line.step objects e).map (fun p ↦ p.2.state) = line.state.step line.mq e := by
  cases hstate : line.state.step line.mq e with
  | none =>
    rw [Option.map_eq_none_iff, Option.eq_none_iff_forall_ne_some]
    rintro ⟨objects', line'⟩ hstep
    obtain ⟨mq, state, refs, hread, hstate', -, -⟩ := step_eq_some_iff.mp hstep
    rw [h.readQueue_eq hread, hstate] at hstate'
    cases hstate'
  | some state =>
    obtain ⟨objects', refs, hrefs, -⟩ := hmatched.stepRefs hstate objects
    have hread := h.readQueue_eq_some hmatched hstate
    rw [step_eq_some_iff.mpr ⟨line.mq, state, refs, hread, hstate, hrefs, rfl⟩]
    rfl

/-- A `TryLockLaterAndReconsume` that fires leaves a timer that refers to nothing. -/
theorem dangles_of_step (hbad : ¬ line.FiresNoTryLock e)
    (hstep : line.step objects e = some (objects', line')) :
    ∃ ref ∈ line'.refs.timers, objects'.get ref = none := by
  cases e with
  | fire i lockOK =>
    obtain ⟨mq, state, refs, -, -, hrefs, rfl⟩ := step_eq_some_iff.mp hstep
    simp only [OrderlyLine.stepRefs] at hrefs
    split at hrefs
    · next htimer _ =>
      refine absurd (fun timer hmem ↦ ?_) hbad
      rw [htimer, Option.mem_def, Option.some.injEq] at hmem
      rw [← hmem]
      rfl
    · next ref _ _ =>
      cases hrefs
      exact ⟨ref, List.mem_append_right _ List.mem_cons_self, objects.get_delete_self ref⟩
    · cases hrefs
  | put | start | run | lock | drop | clock => exact absurd trivial hbad

end OrderlyLine

/-! ### Runs -/

namespace OrderlyHeap

variable {s t : OrderlyHeap} {e : OrderlyHeapEvent}

/-- All requests and timers of all process queues have references to their queues. -/
def Tracked (s : OrderlyHeap) : Prop :=
  ∀ line ∈ s.lines, line.Refers s.objects ∧ line.Matched

/-- The timer that fires, if any, is no `TryLockLaterAndReconsume`. -/
def FiresNoTryLock (s : OrderlyHeap) : OrderlyHeapEvent → Prop
  | .dispatch _ _ _ => True
  | .line k e => ∀ line ∈ s.lines[k]?, line.FiresNoTryLock e

instance : ∀ (s : OrderlyHeap) (e : OrderlyHeapEvent), Decidable (s.FiresNoTryLock e)
  | _, .dispatch _ _ _ => inferInstanceAs (Decidable True)
  | _, .line _ _ => inferInstanceAs (Decidable (∀ line ∈ _, _))

theorem Tracked.namesLiveQueues (h : s.Tracked) : s.NamesLiveQueues := by
  intro line hline
  apply Objects.AllRefer.mono (h line hline).1
  intro ref hmem
  rw [QueueRefs.mem_all]
  rcases List.mem_append.mp hmem with hqueued | htimer
  · exact Or.inr (Or.inl hqueued)
  · exact Or.inr (Or.inr (Or.inl htimer))

/-- Nothing is dispatched at the start. -/
theorem tracked_init : init.Tracked := by
  intro line hline
  cases hline

/-- A step of one process queue leaves the others alone. -/
theorem line_of_step {k : Nat} {e : OrderlyEvent} (hstep : s.step (.line k e) = some t) :
    ∃ line objects line', s.lines[k]? = some line ∧
      line.step s.objects e = some (objects, line') ∧ t = ⟨objects, s.lines.set k line'⟩ := by
  simp only [step] at hstep
  split at hstep
  · cases hstep
  · next line hk =>
    obtain ⟨⟨objects, line'⟩, hline, rfl⟩ := Option.map_eq_some_iff.mp hstep
    exact ⟨line, objects, line', hk, hline, rfl⟩

/-- The references stay right, unless a `TryLockLaterAndReconsume` fires. -/
theorem tracked_step (s : OrderlyHeap) (e : OrderlyHeapEvent) (t : OrderlyHeap) (h : s.Tracked)
    (hgood : s.FiresNoTryLock e) (hstep : s.step e = some t) : t.Tracked := by
  cases e with
  | dispatch mq now store =>
    cases hstep
    intro line hline
    rcases List.mem_append.mp hline with hold | hnew
    · exact ⟨(h line hold).1.of_keeps (s.objects.keeps_create mq), (h line hold).2⟩
    · rw [List.mem_singleton.mp hnew]
      refine ⟨fun ref hmem ↦ ?_, rfl, rfl, rfl⟩
      rw [List.mem_singleton.mp hmem]
      exact s.objects.get_create_self mq
  | line k e =>
    obtain ⟨line, objects, line', hk, hline, rfl⟩ := line_of_step hstep
    obtain ⟨hrefers, hmatched⟩ := h line (List.mem_of_getElem? hk)
    obtain ⟨hkeeps, hrefers', hmatched'⟩ :=
      OrderlyLine.tracked_step hrefers hmatched (hgood line hk) hline
    intro other hother
    rcases List.mem_or_eq_of_mem_set hother with hold | rfl
    · exact ⟨(h other hold).1.of_keeps hkeeps, (h other hold).2⟩
    · exact ⟨hrefers', hmatched'⟩

/-- Until a `TryLockLaterAndReconsume` fires, every process queue makes the steps of
`OrderlyState`. -/
theorem state_step_eq_of_run {events : List OrderlyHeapEvent}
    (hgood : Base.Along step FiresNoTryLock init events)
    (hrun : Base.runFrom step init events = some t) {line : OrderlyLine} (hline : line ∈ t.lines)
    (e : OrderlyEvent) :
    (line.step t.objects e).map (fun p ↦ p.2.state) = line.state.step line.mq e := by
  obtain ⟨hrefers, hmatched⟩ :=
    Base.inv_of_along tracked_step tracked_init hgood hrun line hline
  exact OrderlyLine.state_step_eq hrefers hmatched e

/-- A `TryLockLaterAndReconsume` that fires leaves a timer without a queue. -/
theorem not_namesLiveQueues_step (hbad : ¬ s.FiresNoTryLock e) (hstep : s.step e = some t) :
    ¬ t.NamesLiveQueues := by
  cases e with
  | dispatch mq now store => exact absurd trivial hbad
  | line k e =>
    obtain ⟨line, objects, line', hk, hline, rfl⟩ := line_of_step hstep
    have hfires : ¬ line.FiresNoTryLock e := by
      intro hgood
      apply hbad
      intro line'' hline''
      rw [Option.mem_def, hk, Option.some.injEq] at hline''
      exact hline'' ▸ hgood
    obtain ⟨ref, hmem, hnone⟩ := OrderlyLine.dangles_of_step hfires hline
    have hlt := (List.getElem?_eq_some_iff.mp hk).1
    intro hnames
    have hget := hnames line' (List.mem_set hlt line') ref (List.mem_append_right _ hmem)
    rw [hnone] at hget
    cases hget

/-- **Delayed resubmissions name a live queue** in every state of a run exactly when no
`TryLockLaterAndReconsume` fires in it. -/
theorem namesLiveQueues_iff (events : List OrderlyHeapEvent) (t : OrderlyHeap)
    (hrun : Base.runFrom step init events = some t) :
    (∀ x, Base.Visits step init events x → x.NamesLiveQueues) ↔
      Base.Along step FiresNoTryLock init events := by
  exact Base.safe_iff_along (fun _ h ↦ h.namesLiveQueues) tracked_step
    (fun _ _ _ _ ↦ not_namesLiveQueues_step) tracked_init hrun

/-- A queue is dispatched at time zero and gets a message, and a thread takes its request. -/
def startedRun : List OrderlyHeapEvent :=
  [.dispatch ⟨str "t", str "b", 0⟩ 0 ⟨str "g", ∅⟩, .line 0 (.put [.at 5]), .line 0 .start]

/-- With the lock, the listener throws; the request is submitted again after a while. -/
def suspendedRun : List OrderlyHeapEvent :=
  startedRun ++ .line 0 (.lock true) :: List.replicate 6 (.line 0 (.run 0 .go)) ++
    [.line 0 (.run 0 (.batchSize 1)), .line 0 (.run 0 (.answer ⟨none, true, 1000⟩)),
      .line 0 (.run 0 .go), .line 0 (.fire 0 true)]

/-- Its references are to the queue of the `PullRequest` throughout. -/
theorem suspendedRun_namesLiveQueues :
    ∃ t, Base.runFrom step init suspendedRun = some t ∧
      ∀ x, Base.Visits step init suspendedRun x → x.NamesLiveQueues := by
  obtain ⟨t, ht⟩ := Option.isSome_iff_exists.mp
    (show (Base.runFrom step init suspendedRun).isSome = true by decide +kernel)
  exact ⟨t, ht, (namesLiveQueues_iff suspendedRun t ht).mpr (by decide +kernel)⟩

/-- The lock is not got in time: the request registers a `TryLockLaterAndReconsume`, which fires
and gets it. -/
def unlockedRun : List OrderlyHeapEvent :=
  startedRun ++ .line 0 (.clock 40000) :: List.replicate 3 (.line 0 (.run 0 .go)) ++
    [.line 0 (.fire 0 true)]

/-- The next timer refers to a queue that is deleted. -/
theorem unlockedRun_dangles :
    ∃ t, Base.runFrom step init unlockedRun = some t ∧ ¬ t.NamesLiveQueues := by
  obtain ⟨t, ht⟩ := Option.isSome_iff_exists.mp
    (show (Base.runFrom step init unlockedRun).isSome = true by decide +kernel)
  refine ⟨t, ht, fun hnames ↦ ?_⟩
  have hdangles : (Base.runFrom step init unlockedRun).any (fun t ↦ t.lines.any fun line ↦
      (line.refs.queued ++ line.refs.timers).any fun ref ↦ (t.objects.get ref).isNone) = true := by
    decide +kernel
  rw [ht, Option.any_some, List.any_eq_true] at hdangles
  obtain ⟨line, hline, hrefs⟩ := hdangles
  obtain ⟨ref, href, hnone⟩ := List.any_eq_true.mp hrefs
  rw [hnames line hline ref href] at hnone
  cases hnone

end OrderlyHeap
end RocketMQ
