import Mathlib.Logic.Function.Basic
import RocketMQ.Base.Run

/-!
# Sections guarded by a try-lock

`MQClientFactory` guards three functions by `if (mutex.TryLock())`
(`src/MQClientFactory.cpp:137–155,201–346,1175–1199`), and `kpr::Mutex::TryLock` hands on
what the platform returns (`src/kpr/Mutex.cpp:56–63`): not zero for success on Windows, zero
for success under POSIX. Calls run in any number and interleaving; a step is one lock
operation of a call, or the end of its body.
-/

namespace RocketMQ

/-- The two mutexes of the factory behind a try-lock. -/
inductive FactoryMutex where
  | lockNamesrv
  | lockHeartbeat
deriving DecidableEq

/-- The functions with a guarded body. -/
inductive GuardedCall where
  | updateTopicRouteInfoFromNameServer
  | sendHeartbeatToAllBrokerWithLock
  | unregisterClientWithLock
deriving DecidableEq

/-- The mutex a function tries. -/
def GuardedCall.mutex : GuardedCall → FactoryMutex
  | .updateTopicRouteInfoFromNameServer => .lockNamesrv
  | .sendHeartbeatToAllBrokerWithLock => .lockHeartbeat
  | .unregisterClientWithLock => .lockHeartbeat

/-- How a guarded body ends: it returns `true` from within, falls through, or throws. -/
inductive BodyEnd where
  | returnTrue
  | normal
  | exception
deriving DecidableEq

/-- Only the route update returns from within its body, `src/MQClientFactory.cpp:311–315`. -/
def GuardedCall.canEnd : GuardedCall → BodyEnd → Bool
  | .updateTopicRouteInfoFromNameServer, _ => true
  | .sendHeartbeatToAllBrokerWithLock, ending => ending ≠ .returnTrue
  | .unregisterClientWithLock, ending => ending ≠ .returnTrue

/-- The builds that `src/kpr/Mutex.cpp` distinguishes. -/
inductive Build where
  | win32
  | posix

/-- What `TryLock` returns: `TryEnterCriticalSection` says whether it entered,
`pthread_mutex_trylock` gives an error number, `EBUSY` when the mutex is held. -/
def Build.tryLock : Build → (acquired : Bool) → Int
  | .win32, acquired => if acquired then 1 else 0
  | .posix, acquired => if acquired then 0 else 16

/-- Where a call is. Every way out of the body passes one `Unlock`. -/
inductive CallPc where
  | called
  | body
  | unlocking (result : Bool)
  | skipped
  | returned (result : Bool)
deriving DecidableEq

/-- The call is past a `TryLock` that let it in and before its `Unlock`. -/
def CallPc.Inside : CallPc → Prop
  | .body | .unlocking _ => True
  | .called | .skipped | .returned _ => False

/-- A call, and whether it skipped its body although nobody held the mutex. -/
structure Call where
  function : GuardedCall
  pc : CallPc
  skippedFree : Bool
deriving DecidableEq

/-- Who holds each mutex, and all calls made so far. -/
structure FactoryLocks where
  owner : FactoryMutex → Option Nat
  calls : List Call

/-- A new call, or the next step of a call; its body ends as given when it is there. -/
inductive LockEvent where
  | call (function : GuardedCall)
  | run (id : Nat) (ending : BodyEnd)

namespace FactoryLocks

/-- Nobody holds anything and no call was made. -/
def start : FactoryLocks := ⟨fun _ ↦ none, []⟩

/-- The call `id` goes on as `call`. -/
def update (s : FactoryLocks) (id : Nat) (call : Call) : FactoryLocks :=
  { s with calls := s.calls.set id call }

/-- The condition `if (mutex.TryLock())` with what the lock does. -/
def tryEnter (build : Build) (s : FactoryLocks) (id : Nat) (call : Call) : FactoryLocks :=
  let free := (s.owner call.function.mutex).isNone
  let entered := decide (build.tryLock free ≠ 0)
  let locked : FactoryLocks :=
    if free then { s with owner := Function.update s.owner call.function.mutex (some id) }
    else s
  locked.update id
    { call with pc := if entered then .body else .skipped, skippedFree := free && !entered }

/-- `Unlock`, whoever holds the mutex. -/
def unlock (s : FactoryLocks) (mutex : FactoryMutex) : FactoryLocks :=
  { s with owner := Function.update s.owner mutex none }

/-- One step. -/
def step (build : Build) (s : FactoryLocks) : LockEvent → Option FactoryLocks
  | .call function => some { s with calls := s.calls ++ [⟨function, .called, false⟩] }
  | .run id ending =>
    match s.calls[id]? with
    | none => none
    | some call =>
      match call.pc with
      | .called => some (s.tryEnter build id call)
      | .body =>
        if call.function.canEnd ending then
          some (s.update id { call with pc := .unlocking (ending = .returnTrue) })
        else none
      | .unlocking result =>
        some ((s.unlock call.function.mutex).update id { call with pc := .returned result })
      | .skipped => some (s.update id { call with pc := .returned false })
      | .returned _ => none

/-- The guarded sections exclude each other and no call skips its body needlessly. -/
structure Excludes (s : FactoryLocks) : Prop where
  holds_in_body : ∀ (id : Nat) (call : Call), s.calls[id]? = some call →
    call.pc = .body → s.owner call.function.mutex = some id
  one_in_body : ∀ (i j : Nat) (c d : Call), s.calls[i]? = some c →
    s.calls[j]? = some d → c.pc = .body → d.pc = .body → c.function = d.function → i = j
  released : ∀ (id : Nat) (call : Call) (result : Bool), s.calls[id]? = some call →
    call.pc = .returned result → ∀ mutex, s.owner mutex ≠ some id
  not_skipped_free : ∀ call ∈ s.calls, call.skippedFree = false

/-! ### The Windows build -/

/-- The owner of a mutex is the one call inside a section of it. -/
structure Owned (s : FactoryLocks) : Prop where
  owner_of_inside : ∀ (id : Nat) (call : Call), s.calls[id]? = some call →
    call.pc.Inside → s.owner call.function.mutex = some id
  inside_of_owner : ∀ mutex id, s.owner mutex = some id →
    ∃ call, s.calls[id]? = some call ∧ call.function.mutex = mutex ∧ call.pc.Inside
  not_skipped_free : ∀ call ∈ s.calls, call.skippedFree = false

/-- Owned mutexes exclude. -/
theorem excludes_of_owned {s : FactoryLocks} (h : s.Owned) : s.Excludes := by
  have hbody (id : Nat) (call : Call) (hc : s.calls[id]? = some call) (hpc : call.pc = .body) :
      s.owner call.function.mutex = some id :=
    h.owner_of_inside id call hc (by rw [hpc]; trivial)
  constructor
  · exact hbody
  · intro i j c d hc hd hcb hdb hfun
    have hi := hbody i c hc hcb
    have hj := hbody j d hd hdb
    rw [hfun, hj] at hi
    exact (Option.some.inj hi).symm
  · intro id call result hc hpc mutex howner
    obtain ⟨call', hc', -, hin⟩ := h.inside_of_owner mutex id howner
    rw [hc] at hc'
    rw [← Option.some.inj hc', hpc] at hin
    exact hin
  · exact h.not_skipped_free

private theorem getElem?_calls_set {s : FactoryLocks} {id i : Nat} {call next c : Call}
    (hc : s.calls[id]? = some call) (hi : (s.calls.set id next)[i]? = some c) :
    (i = id ∧ c = next) ∨ (i ≠ id ∧ s.calls[i]? = some c) := by
  rw [List.getElem?_set] at hi
  split at hi
  · next he =>
    simp only [(List.getElem?_eq_some_iff.mp hc).1, if_true] at hi
    exact Or.inl ⟨he.symm, (Option.some.inj hi).symm⟩
  · next hne => exact Or.inr ⟨fun h ↦ hne h.symm, hi⟩

private theorem getElem?_calls_set_self {s : FactoryLocks} {id : Nat} {call : Call} (next : Call)
    (hc : s.calls[id]? = some call) : (s.calls.set id next)[id]? = some next :=
  List.getElem?_set_self (List.getElem?_eq_some_iff.mp hc).1

/-- A call that stays on its side of the lock keeps the mutexes owned. -/
theorem owned_update {s : FactoryLocks} {id : Nat} {call next : Call} (h : s.Owned)
    (hc : s.calls[id]? = some call) (hfun : next.function = call.function)
    (hside : next.pc.Inside ↔ call.pc.Inside) (hskip : next.skippedFree = false) :
    (s.update id next).Owned := by
  constructor
  · intro i c hi hin
    rcases getElem?_calls_set hc hi with ⟨rfl, rfl⟩ | ⟨-, hi'⟩
    · rw [hfun]
      exact h.owner_of_inside i call hc (hside.mp hin)
    · exact h.owner_of_inside i c hi' hin
  · intro mutex i howner
    obtain ⟨c, hi, hm, hin⟩ := h.inside_of_owner mutex i howner
    by_cases he : id = i
    · subst he
      rw [hc] at hi
      obtain rfl := Option.some.inj hi
      exact ⟨next, getElem?_calls_set_self next hc, by rw [hfun]; exact hm, hside.mpr hin⟩
    · exact ⟨c, (List.getElem?_set_ne he).trans hi, hm, hin⟩
  · intro c hcm
    rcases List.mem_or_eq_of_mem_set hcm with hm | rfl
    · exact h.not_skipped_free c hm
    · exact hskip

/-- A call that takes a free mutex and enters owns it. -/
theorem owned_enter {s : FactoryLocks} {id : Nat} {call : Call} (h : s.Owned)
    (hc : s.calls[id]? = some call) (hpc : call.pc = .called)
    (hfree : s.owner call.function.mutex = none) :
    (({ s with owner := Function.update s.owner call.function.mutex (some id) } :
      FactoryLocks).update id { call with pc := .body, skippedFree := false }).Owned := by
  constructor
  · intro i c hi hin
    rcases getElem?_calls_set hc hi with ⟨rfl, rfl⟩ | ⟨hne, hi'⟩
    · exact Function.update_self ..
    · have hown := h.owner_of_inside i c hi' hin
      have hm : c.function.mutex ≠ call.function.mutex := by
        intro he
        rw [he, hfree] at hown
        exact absurd hown (by simp)
      exact (Function.update_of_ne hm _ _).trans hown
  · intro mutex i howner
    change Function.update s.owner call.function.mutex (some id) mutex = some i at howner
    by_cases hm : mutex = call.function.mutex
    · subst hm
      rw [Function.update_self] at howner
      obtain rfl := Option.some.inj howner
      exact ⟨_, getElem?_calls_set_self _ hc, rfl, trivial⟩
    · rw [Function.update_of_ne hm] at howner
      obtain ⟨c, hi, hcm, hin⟩ := h.inside_of_owner mutex i howner
      have hne : id ≠ i := by
        rintro rfl
        rw [hc] at hi
        obtain rfl := Option.some.inj hi
        rw [hpc] at hin
        exact hin
      exact ⟨c, (List.getElem?_set_ne hne).trans hi, hcm, hin⟩
  · intro c hcm
    rcases List.mem_or_eq_of_mem_set hcm with hm | rfl
    · exact h.not_skipped_free c hm
    · rfl

/-- A call that unlocks its mutex and returns leaves the other mutexes owned. -/
theorem owned_leave {s : FactoryLocks} {id : Nat} {call : Call} {result : Bool} (h : s.Owned)
    (hc : s.calls[id]? = some call) (hin : call.pc.Inside) :
    ((s.unlock call.function.mutex).update id { call with pc := .returned result }).Owned := by
  have howner := h.owner_of_inside id call hc hin
  constructor
  · intro i c hi hci
    rcases getElem?_calls_set hc hi with ⟨rfl, rfl⟩ | ⟨hne, hi'⟩
    · exact hci.elim
    · have hown := h.owner_of_inside i c hi' hci
      have hm : c.function.mutex ≠ call.function.mutex := by
        intro he
        rw [he, howner] at hown
        exact hne (Option.some.inj hown).symm
      exact (Function.update_of_ne hm _ _).trans hown
  · intro mutex i hmi
    change Function.update s.owner call.function.mutex none mutex = some i at hmi
    by_cases hm : mutex = call.function.mutex
    · subst hm
      rw [Function.update_self] at hmi
      exact absurd hmi (by simp)
    · rw [Function.update_of_ne hm] at hmi
      obtain ⟨c, hi, hcm, hci⟩ := h.inside_of_owner mutex i hmi
      have hne : id ≠ i := by
        rintro rfl
        rw [hc] at hi
        obtain rfl := Option.some.inj hi
        exact hm hcm.symm
      exact ⟨c, (List.getElem?_set_ne hne).trans hi, hcm, hci⟩
  · intro c hcm
    rcases List.mem_or_eq_of_mem_set hcm with hm | rfl
    · exact h.not_skipped_free c hm
    · exact h.not_skipped_free call (List.mem_of_getElem? hc)

/-- Every step of the Windows build keeps the mutexes owned. -/
theorem owned_step (s : FactoryLocks) (e : LockEvent) (t : FactoryLocks) (h : s.Owned)
    (hstep : s.step .win32 e = some t) : t.Owned := by
  cases e with
  | call function =>
    simp only [step, Option.some.injEq] at hstep
    subst hstep
    constructor
    · intro i c hi hin
      rw [List.getElem?_append] at hi
      split at hi
      · exact h.owner_of_inside i c hi hin
      · rw [List.mem_singleton.mp (List.mem_of_getElem? hi)] at hin
        exact hin.elim
    · intro mutex i howner
      obtain ⟨c, hi, hcm, hin⟩ := h.inside_of_owner mutex i howner
      exact ⟨c, by rw [List.getElem?_append_left (List.getElem?_eq_some_iff.mp hi).1, hi],
        hcm, hin⟩
    · intro c hcm
      rcases List.mem_append.mp hcm with hm | hn
      · exact h.not_skipped_free c hm
      · rw [List.mem_singleton.mp hn]
  | run id ending =>
    simp only [step] at hstep
    split at hstep
    · exact absurd hstep (by simp)
    next call hc =>
    have hskip := h.not_skipped_free call (List.mem_of_getElem? hc)
    split at hstep
    · next hpc =>
      obtain rfl := Option.some.inj hstep
      cases howner : s.owner call.function.mutex with
      | none =>
        have : s.tryEnter .win32 id call =
            ({ s with owner := Function.update s.owner call.function.mutex (some id) } :
              FactoryLocks).update id { call with pc := .body, skippedFree := false } := by
          simp [tryEnter, howner, Build.tryLock]
        rw [this]
        exact owned_enter h hc hpc howner
      | some holder =>
        have : s.tryEnter .win32 id call =
            s.update id { call with pc := .skipped, skippedFree := false } := by
          simp [tryEnter, howner, Build.tryLock]
        rw [this]
        exact owned_update h hc rfl (by simp [hpc, CallPc.Inside]) rfl
    · next hpc =>
      split at hstep
      · obtain rfl := Option.some.inj hstep
        exact owned_update h hc rfl (by simp [hpc, CallPc.Inside]) hskip
      · exact absurd hstep (by simp)
    · next result hpc =>
      obtain rfl := Option.some.inj hstep
      exact owned_leave h hc (by rw [hpc]; trivial)
    · next hpc =>
      obtain rfl := Option.some.inj hstep
      exact owned_update h hc rfl (by simp [hpc, CallPc.Inside]) hskip
    · exact absurd hstep (by simp)

/-- On the Windows build the sections exclude in every run. -/
theorem win32_excludes (es : List LockEvent) (s : FactoryLocks)
    (hrun : Base.runFrom (step .win32) start es = some s) : s.Excludes := by
  have hstart : start.Owned := by
    constructor <;> simp [start]
  exact excludes_of_owned (Base.inv_of_runFrom owned_step hstart hrun)

/-! ### The POSIX build -/

/-- No call is at its `TryLock` yet, or this step is not its `TryLock`. -/
def NoTryLock (s : FactoryLocks) : LockEvent → Prop
  | .call _ => True
  | .run id _ => (s.calls[id]?).all (·.pc ≠ .called) = true

instance : ∀ s e, Decidable (NoTryLock s e)
  | _, .call _ => inferInstanceAs (Decidable True)
  | _, .run _ _ => inferInstanceAs (Decidable (_ = true))

/-- All calls are still before their `TryLock`, and nobody holds anything. -/
structure Idle (s : FactoryLocks) : Prop where
  owner : ∀ mutex, s.owner mutex = none
  calls : ∀ call ∈ s.calls, call.pc = .called ∧ call.skippedFree = false

/-- Idle mutexes exclude. -/
theorem excludes_of_idle {s : FactoryLocks} (h : s.Idle) : s.Excludes := by
  have hcalled (id : Nat) (call : Call) (hc : s.calls[id]? = some call) : call.pc = .called :=
    (h.calls call (List.mem_of_getElem? hc)).1
  constructor
  · intro id call hc hpc
    rw [hcalled id call hc] at hpc
    exact absurd hpc (by simp)
  · intro i j c d hc _ hpc
    rw [hcalled i c hc] at hpc
    exact absurd hpc (by simp)
  · intro id call result hc hpc
    rw [hcalled id call hc] at hpc
    exact absurd hpc (by simp)
  · exact fun call hc ↦ (h.calls call hc).2

/-- Without a `TryLock` everything stays idle. -/
theorem idle_step (s : FactoryLocks) (e : LockEvent) (t : FactoryLocks) (h : s.Idle)
    (hgood : s.NoTryLock e) (hstep : s.step .posix e = some t) : t.Idle := by
  cases e with
  | call function =>
    simp only [step, Option.some.injEq] at hstep
    subst hstep
    refine ⟨h.owner, fun c hc ↦ ?_⟩
    rcases List.mem_append.mp hc with hm | hn
    · exact h.calls c hm
    · rw [List.mem_singleton.mp hn]
      exact ⟨rfl, rfl⟩
  | run id ending =>
    cases hc : s.calls[id]? with
    | none => simp [step, hc] at hstep
    | some call =>
      have hcalled := (h.calls call (List.mem_of_getElem? hc)).1
      simp [NoTryLock, hc, hcalled] at hgood

/-- The first `TryLock` takes the free mutex and skips the body. -/
theorem not_excludes_tryLock (s : FactoryLocks) (e : LockEvent) (t : FactoryLocks)
    (h : s.Idle) (hbad : ¬ s.NoTryLock e) (hstep : s.step .posix e = some t) :
    ¬ t.Excludes := by
  cases e with
  | call function => exact absurd trivial hbad
  | run id ending =>
    cases hc : s.calls[id]? with
    | none => simp [NoTryLock, hc] at hbad
    | some call =>
      have hcalled := (h.calls call (List.mem_of_getElem? hc)).1
      simp only [step, hc, hcalled, Option.some.injEq] at hstep
      subst hstep
      intro hexcl
      have hmem : ({ call with pc := .skipped, skippedFree := true } : Call) ∈
          (s.tryEnter .posix id call).calls := by
        have hlt : id < s.calls.length := (List.getElem?_eq_some_iff.mp hc).1
        simp only [tryEnter, h.owner, Build.tryLock, Option.isNone_none, if_true, update]
        exact List.mem_set hlt _
      exact absurd (hexcl.not_skipped_free _ hmem) (by simp)

/-- On the POSIX build the sections exclude throughout a run exactly when the run makes no
call that gets as far as its `TryLock`. -/
theorem posix_excludes_iff_noTryLock (es : List LockEvent) (s : FactoryLocks)
    (hrun : Base.runFrom (step .posix) start es = some s) :
    (∀ t, Base.Visits (step .posix) start es t → t.Excludes) ↔
      Base.Along (step .posix) NoTryLock start es :=
  Base.safe_iff_along (fun _ ↦ excludes_of_idle) idle_step not_excludes_tryLock
    ⟨fun _ ↦ rfl, by simp [start]⟩ hrun

/-- A call that has been made and has not run yet. -/
theorem posix_excludes_iff_noTryLock_called :
    (Base.runFrom (step .posix) start [.call .sendHeartbeatToAllBrokerWithLock]).isSome ∧
      ∀ t, Base.Visits (step .posix) start [.call .sendHeartbeatToAllBrokerWithLock] t →
        t.Excludes :=
  ⟨rfl, (posix_excludes_iff_noTryLock _ _ rfl).mpr (by decide)⟩

/-- Two heartbeats in turn: the first one keeps the mutex and sends nothing, the second one
sends without it and then gives it away. -/
theorem heartbeat_skipped_and_unowned :
    (∃ s, Base.runFrom (step .posix) start
        [.call .sendHeartbeatToAllBrokerWithLock, .run 0 .normal, .run 0 .normal] = some s ∧
      s.owner .lockHeartbeat = some 0 ∧
      s.calls = [⟨.sendHeartbeatToAllBrokerWithLock, .returned false, true⟩] ∧
      ¬ s.Excludes) ∧
    ∃ s, Base.runFrom (step .posix) start
        [.call .sendHeartbeatToAllBrokerWithLock, .run 0 .normal, .run 0 .normal,
          .call .sendHeartbeatToAllBrokerWithLock, .run 1 .normal] = some s ∧
      s.owner .lockHeartbeat = some 0 ∧
      (s.calls[1]?).map (·.pc) = some .body ∧ ¬ s.Excludes := by
  refine ⟨⟨_, rfl, by decide, by decide, fun h ↦ ?_⟩, ⟨_, rfl, by decide, by decide, fun h ↦ ?_⟩⟩
  · exact absurd (h.not_skipped_free ⟨_, .returned false, true⟩ List.mem_cons_self) (by decide)
  · exact absurd (h.holds_in_body 1 ⟨_, .body, false⟩ rfl rfl) (by decide)

end FactoryLocks
end RocketMQ
