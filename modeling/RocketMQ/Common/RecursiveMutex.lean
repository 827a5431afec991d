import RocketMQ.Base.ReentrantLock
import RocketMQ.Base.Simulation

/-!
# The recursive mutex under a condition variable

`src/kpr/Mutex.cpp` and the POSIX half of `src/kpr/Condition.cpp`: `RecursiveMutex` counts the
entries of its owner in `m_count` and `m_owner`, which `m_internal` guards, and holds the plain
mutex `m_mutex`, which is what `pthread_cond_wait` gives up. A step is one call of a pthread
function or one test or update between two of them. Threads are any type, and a thread can make
any call at any time as long as it only unlocks and waits for a mutex it has locked. The entries
are counted without wrap-around.
-/

namespace RocketMQ

universe u

/-- Who asks for the mutex: `Lock`, `TryLock`, or the destructor of `ConditionHelper` with the
count it saved. -/
inductive Asker where
  | lock
  | tryLock
  | conditionHelper (count : Nat)
deriving DecidableEq

/-- The `count` that `lock` or `tryLock` adds. -/
@[simp] def Asker.count : Asker → Nat
  | .lock | .tryLock => 1
  | .conditionHelper count => count

/-- With how many entries an asker asks: the destructor has given all of them up. -/
@[simp] def Asker.Fits : Asker → Nat → Prop
  | .lock, _ | .tryLock, _ => True
  | .conditionHelper count, n => n = 0 ∧ 0 < count

/-- Where the users of the lock see a thread that asks for it. -/
def Asker.place : Asker → Base.Place
  | .lock | .tryLock => .here
  | .conditionHelper count => .returning count

/-- Where a thread is in the functions of one mutex. -/
inductive MutexPc (T : Type u) where
  /-- In its own code. -/
  | out
  /-- `lock` and `tryLock`, `src/kpr/Mutex.cpp:125–226`. -/
  | lockInternal (asker : Asker)
  | lockTest (asker : Asker)
  | lockMutex (asker : Asker)
  | lockRelease (asker : Asker) (obtained : Bool)
  | spin (asker : Asker)
  | spinRelease (asker : Asker)
  /-- `unlock`, `src/kpr/Mutex.cpp:228–254`. -/
  | unlockInternal
  | unlockTest
  | unlockRelease
  /-- `GetOwner`, `src/kpr/Mutex.cpp:114–123`. -/
  | ownerInternal
  | ownerTest
  | ownerRelease (id : Option T)
  /-- `wait`, `src/kpr/Condition.cpp:254–305`, with `reset4Condvar`,
  `src/kpr/Mutex.cpp:256–271`, before `pthread_cond_wait`. -/
  | resetInternal
  | resetTest
  | resetRelease (count : Nat)
  | condWait (count : Nat)
  | asleep (count : Nat)
  | woken (count : Nat)
  /-- The destructor of `ConditionHelper`, `src/kpr/Condition.cpp:136–140`. -/
  | waitRelease (count : Nat)
deriving DecidableEq

/-- What a thread in its own code can call. -/
inductive MutexCall where
  | lock
  | tryLock
  | unlock
  | getOwner
  | wait
deriving DecidableEq

/-- `src/kpr/Mutex.h:49–90`, each thread's place, and how many of its entries a thread has still to
undo. -/
structure RecursiveMutex (T : Type u) where
  internal : Option T
  mutex : Option T
  count : Nat
  owner : Option T
  pc : T → MutexPc T
  entries : T → Nat

/-- What can happen next: a thread calls a function, it makes its next move in one, or its
`pthread_cond_wait` is over, signalled or not. -/
inductive MutexEvent (T : Type u) where
  | call (t : T) (f : MutexCall)
  | move (t : T)
  | wake (t : T)

namespace MutexPc

variable {T : Type u}

/-- It holds `m_internal`. -/
@[simp] def HasInternal : MutexPc T → Prop
  | .lockTest _ | .lockMutex _ | .lockRelease _ _ | .unlockTest | .unlockRelease | .ownerTest
  | .ownerRelease _ | .resetTest | .resetRelease _ => True
  | _ => False

/-- It holds `m_mutex` without having entered. -/
@[simp] def Passes : MutexPc T → Prop
  | .spinRelease _ | .waitRelease _ => True
  | _ => False

/-- It has made itself the owner and has no `m_mutex` yet. -/
@[simp] def Claims : MutexPc T → Prop
  | .lockMutex _ => True
  | _ => False

/-- It has cleared the owner and holds `m_mutex` still. -/
@[simp] def HasReset : MutexPc T → Prop
  | .resetRelease _ | .condWait _ => True
  | _ => False

/-- What `m_count` is when the thread is the owner. -/
@[simp] def ownCount (pc : MutexPc T) (entries : Nat) : Nat :=
  match pc with
  | .lockMutex asker => asker.count
  | _ => entries

/-- What is known of the entries of a thread from its place. -/
@[simp] def Fits : MutexPc T → Nat → Prop
  | .lockInternal asker, n | .lockTest asker, n => asker.Fits n
  | .lockRelease asker obtained, n => if obtained then 0 < n else n = 0 ∧ asker.Fits n
  | .lockMutex asker, n | .spin asker, n | .spinRelease asker, n => n = 0 ∧ asker.Fits n
  | .unlockInternal, n | .unlockTest, n | .resetInternal, n | .resetTest, n => 0 < n
  | .resetRelease count, n | .condWait count, n => n = count ∧ 0 < count
  | .asleep count, n | .woken count, n | .waitRelease count, n => n = 0 ∧ 0 < count
  | .out, _ | .unlockRelease, _ | .ownerInternal, _ | .ownerTest, _ | .ownerRelease _, _ => True

/-- Where the users of the lock see the thread. -/
def place : MutexPc T → Base.Place
  | .asleep count => .waiting count
  | .woken count | .waitRelease count => .returning count
  | .lockInternal asker | .lockTest asker | .lockMutex asker | .spin asker | .spinRelease asker =>
    asker.place
  | .lockRelease asker obtained => if obtained then .here else asker.place
  | _ => .here

end MutexPc

namespace RecursiveMutex

variable {T : Type u} [DecidableEq T]

/-- The constructor, `src/kpr/Mutex.cpp:79–88`. -/
def new : RecursiveMutex T := ⟨none, none, 0, none, fun _ ↦ .out, fun _ ↦ 0⟩

/-- A thread goes on. -/
def goTo (s : RecursiveMutex T) (t : T) (pc : MutexPc T) : RecursiveMutex T :=
  { s with pc := Function.update s.pc t pc }

/-- A thread has `n` entries to undo. -/
def setEntries (s : RecursiveMutex T) (t : T) (n : Nat) : RecursiveMutex T :=
  { s with entries := Function.update s.entries t n }

/-- `m_internal.Lock()`. -/
def takeInternal (s : RecursiveMutex T) (t : T) (pc : MutexPc T) : Option (RecursiveMutex T) :=
  if s.internal = none then some ({ s with internal := some t }.goTo t pc) else none

/-- `pthread_mutex_lock(&m_mutex)`. -/
def takeMutex (s : RecursiveMutex T) (t : T) (pc : MutexPc T) : Option (RecursiveMutex T) :=
  if s.mutex = none then some ({ s with mutex := some t }.goTo t pc) else none

/-- The test under `m_internal` in `lock` and `tryLock`, `src/kpr/Mutex.cpp:134–166` and
`191–221`. -/
def lockTest (s : RecursiveMutex T) (t : T) (asker : Asker) : RecursiveMutex T :=
  if s.count = 0 then
    { s with count := asker.count, owner := some t }.goTo t (.lockMutex asker)
  else if s.owner = some t then
    ({ s with count := s.count + asker.count }.setEntries t (s.entries t + asker.count)).goTo t
      (.lockRelease asker true)
  else s.goTo t (.lockRelease asker false)

/-- After `m_internal.Unlock()` in `lock` and `tryLock`, `src/kpr/Mutex.cpp:168–179` and
`223–225`. -/
def afterLock (asker : Asker) (obtained : Bool) : MutexPc T :=
  if obtained then .out
  else
    match asker with
    | .tryLock => .out
    | .lock | .conditionHelper _ => .spin asker

/-- The update under `m_internal` in `unlock`, `src/kpr/Mutex.cpp:233–249`. -/
def unlockTest (s : RecursiveMutex T) (t : T) : RecursiveMutex T :=
  if s.count = 1 then
    ({ s with count := 0, owner := none, mutex := none }.setEntries t (s.entries t - 1)).goTo t
      .unlockRelease
  else
    ({ s with count := s.count - 1 }.setEntries t (s.entries t - 1)).goTo t .unlockRelease

/-- The next move of a thread. -/
def move (s : RecursiveMutex T) (t : T) : Option (RecursiveMutex T) :=
  match s.pc t with
  | .out | .asleep _ => none
  | .lockInternal asker => s.takeInternal t (.lockTest asker)
  | .lockTest asker => some (s.lockTest t asker)
  | .lockMutex asker =>
    (s.takeMutex t (.lockRelease asker true)).map (·.setEntries t asker.count)
  | .lockRelease asker obtained =>
    some ({ s with internal := none }.goTo t (afterLock asker obtained))
  | .spin asker => s.takeMutex t (.spinRelease asker)
  | .spinRelease asker => some ({ s with mutex := none }.goTo t (.lockInternal asker))
  | .unlockInternal => s.takeInternal t .unlockTest
  | .unlockTest => some (s.unlockTest t)
  | .unlockRelease | .ownerRelease _ => some ({ s with internal := none }.goTo t .out)
  | .ownerInternal => s.takeInternal t .ownerTest
  | .ownerTest => some (s.goTo t (.ownerRelease (if 0 < s.count then s.owner else none)))
  | .resetInternal => s.takeInternal t .resetTest
  | .resetTest => some ({ s with count := 0, owner := none }.goTo t (.resetRelease s.count))
  | .resetRelease count => some ({ s with internal := none }.goTo t (.condWait count))
  | .condWait count =>
    some (({ s with mutex := none }.setEntries t 0).goTo t (.asleep count))
  | .woken count => s.takeMutex t (.waitRelease count)
  | .waitRelease count =>
    some ({ s with mutex := none }.goTo t (.lockInternal (.conditionHelper count)))

/-- The first place in a function. -/
def entry : MutexCall → MutexPc T
  | .lock => .lockInternal .lock
  | .tryLock => .lockInternal .tryLock
  | .unlock => .unlockInternal
  | .getOwner => .ownerInternal
  | .wait => .resetInternal

/-- A thread that unlocks or waits has entries to undo. -/
def CanCall (s : RecursiveMutex T) (t : T) : MutexCall → Prop
  | .unlock | .wait => 0 < s.entries t
  | .lock | .tryLock | .getOwner => True

instance (s : RecursiveMutex T) (t : T) : ∀ f, Decidable (s.CanCall t f)
  | .unlock | .wait => inferInstanceAs (Decidable (_ < _))
  | .lock | .tryLock | .getOwner => inferInstanceAs (Decidable True)

/-- One step. -/
def step (s : RecursiveMutex T) : MutexEvent T → Option (RecursiveMutex T)
  | .call t f => if s.pc t = .out ∧ s.CanCall t f then some (s.goTo t (entry f)) else none
  | .move t => s.move t
  | .wake t =>
    match s.pc t with
    | .asleep count => some (s.goTo t (.woken count))
    | _ => none

/-- What the members say of a thread agrees with where it is. -/
structure Agrees (s : RecursiveMutex T) (t : T) : Prop where
  internal : s.internal = some t ↔ (s.pc t).HasInternal
  mutex : s.mutex = some t ↔ (s.pc t).Passes ∨ 0 < s.entries t
  owner : s.owner = some t ↔ (s.pc t).Claims ∨ 0 < s.entries t ∧ ¬ (s.pc t).HasReset
  count : s.owner = some t → s.count = (s.pc t).ownCount (s.entries t)
  fits : (s.pc t).Fits (s.entries t)
  told : ∀ id, s.pc t = .ownerRelease id → (id = some t ↔ 0 < s.entries t)

/-- The members agree with where every thread is. -/
structure Sound (s : RecursiveMutex T) : Prop where
  free_iff : s.owner = none ↔ s.count = 0
  agrees : ∀ t, s.Agrees t

/-- A step of `t` that the other threads do not see. -/
structure Frame (s s' : RecursiveMutex T) (t : T) : Prop where
  pc : ∀ u, u ≠ t → s'.pc u = s.pc u
  entries : ∀ u, u ≠ t → s'.entries u = s.entries u
  internal : ∀ u, u ≠ t → (s'.internal = some u ↔ s.internal = some u)
  mutex : ∀ u, u ≠ t → (s'.mutex = some u ↔ s.mutex = some u)
  owner : ∀ u, u ≠ t → (s'.owner = some u ↔ s.owner = some u)
  count : ∀ u, u ≠ t → s.owner = some u → s'.count = s.count

omit [DecidableEq T] in
theorem Agrees.frame {s s' : RecursiveMutex T} {t u : T} (hf : s.Frame s' t) (hu : u ≠ t)
    (h : s.Agrees u) : s'.Agrees u where
  internal := by rw [hf.internal u hu, hf.pc u hu, h.internal]
  mutex := by rw [hf.mutex u hu, hf.pc u hu, hf.entries u hu, h.mutex]
  owner := by rw [hf.owner u hu, hf.pc u hu, hf.entries u hu, h.owner]
  count := by
    intro howner
    rw [hf.owner u hu] at howner
    rw [hf.count u hu howner, hf.pc u hu, hf.entries u hu, h.count howner]
  fits := by rw [hf.pc u hu, hf.entries u hu]; exact h.fits
  told := by rw [hf.pc u hu, hf.entries u hu]; exact h.told

theorem takeInternal_eq_some {s s' : RecursiveMutex T} {t : T} {pc : MutexPc T} :
    s.takeInternal t pc = some s' ↔
      s.internal = none ∧ { s with internal := some t }.goTo t pc = s' := by
  unfold takeInternal
  split_ifs with h <;> simp [h]

theorem takeMutex_eq_some {s s' : RecursiveMutex T} {t : T} {pc : MutexPc T} :
    s.takeMutex t pc = some s' ↔
      s.mutex = none ∧ { s with mutex := some t }.goTo t pc = s' := by
  unfold takeMutex
  split_ifs with h <;> simp [h]

/-- Only the thread that moves is concerned: what it gives up it had, and what it takes nobody
had. -/
theorem frame_move {s s' : RecursiveMutex T} {t : T} (hs : s.Sound) (h : s.move t = some s') :
    s.Frame s' t := by
  have hfree := hs.free_iff
  obtain ⟨hinternal, hmutex, howner, hcount, hfits, -⟩ := hs.agrees t
  unfold move at h
  cases hpc : s.pc t <;> rw [hpc] at h hinternal hmutex howner hcount hfits <;>
    simp only [takeInternal_eq_some, takeMutex_eq_some,
      Option.map_eq_some_iff, Option.some.injEq, reduceCtorEq] at h
  case lockInternal asker | unlockInternal | ownerInternal | resetInternal =>
    obtain ⟨htaken, rfl⟩ := h
    constructor <;> simp_all [goTo]
    all_goals grind
  case lockMutex asker =>
    obtain ⟨s', ⟨htaken, rfl⟩, rfl⟩ := h
    constructor <;> simp_all [goTo, setEntries]
    all_goals grind
  case spin asker | woken count =>
    obtain ⟨htaken, rfl⟩ := h
    constructor <;> simp_all [goTo]
    all_goals grind
  case lockTest asker =>
    subst h
    unfold lockTest
    split_ifs <;> constructor <;> simp_all [goTo, setEntries]
    all_goals grind
  case unlockTest =>
    subst h
    unfold unlockTest
    split_ifs <;> constructor <;> simp_all [goTo, setEntries]
    all_goals grind
  all_goals
    subst h
    constructor <;> simp_all [goTo, setEntries]
  all_goals grind

theorem agrees_move {s s' : RecursiveMutex T} {t : T} (hs : s.Sound) (h : s.move t = some s') :
    s'.Agrees t := by
  have hfree := hs.free_iff
  obtain ⟨hinternal, hmutex, howner, hcount, hfits, -⟩ := hs.agrees t
  unfold move at h
  cases hpc : s.pc t <;> rw [hpc] at h hinternal hmutex howner hcount hfits <;>
    simp only [takeInternal_eq_some, takeMutex_eq_some,
      Option.map_eq_some_iff, Option.some.injEq, reduceCtorEq] at h
  case lockInternal asker | unlockInternal | ownerInternal | resetInternal =>
    obtain ⟨htaken, rfl⟩ := h
    constructor <;> simp_all [goTo]
  case lockMutex asker =>
    obtain ⟨s', ⟨htaken, rfl⟩, rfl⟩ := h
    cases asker <;> constructor <;> simp_all [goTo, setEntries]
  case spin asker =>
    obtain ⟨htaken, rfl⟩ := h
    cases asker <;> constructor <;> simp_all [goTo]
  case woken count =>
    obtain ⟨htaken, rfl⟩ := h
    constructor <;> simp_all [goTo]
  case lockTest asker =>
    subst h
    unfold lockTest
    cases asker <;> split_ifs <;> constructor <;> simp_all [goTo, setEntries]
  case lockRelease asker obtained =>
    subst h
    cases asker <;> cases obtained <;> constructor <;> simp_all [goTo, afterLock]
  case spinRelease asker =>
    subst h
    cases asker <;> constructor <;> simp_all [goTo]
  case unlockTest =>
    subst h
    unfold unlockTest
    split_ifs <;> constructor <;> simp_all [goTo, setEntries]
    all_goals omega
  all_goals
    subst h
    constructor <;> simp_all [goTo, setEntries]

theorem free_iff_move {s s' : RecursiveMutex T} {t : T} (hs : s.Sound) (h : s.move t = some s') :
    s'.owner = none ↔ s'.count = 0 := by
  have hfree := hs.free_iff
  obtain ⟨-, -, howner, hcount, hfits, -⟩ := hs.agrees t
  unfold move at h
  cases hpc : s.pc t <;> rw [hpc] at h howner hcount hfits <;>
    simp only [takeInternal_eq_some, takeMutex_eq_some,
      Option.map_eq_some_iff, Option.some.injEq, reduceCtorEq] at h
  case lockTest asker =>
    subst h
    unfold lockTest
    cases asker <;> split_ifs <;> simp_all [goTo, setEntries]
    all_goals omega
  case unlockTest =>
    subst h
    unfold unlockTest
    split_ifs <;> simp_all [goTo, setEntries]
    all_goals omega
  case lockInternal asker | unlockInternal | ownerInternal | resetInternal =>
    obtain ⟨-, rfl⟩ := h
    exact hfree
  case lockMutex asker =>
    obtain ⟨s', ⟨-, rfl⟩, rfl⟩ := h
    exact hfree
  case spin asker | woken count =>
    obtain ⟨-, rfl⟩ := h
    exact hfree
  case resetTest =>
    subst h
    simp [goTo]
  all_goals
    subst h
    exact hfree

theorem sound_move {s s' : RecursiveMutex T} {t : T} (hs : s.Sound) (h : s.move t = some s') :
    s'.Sound := by
  refine ⟨free_iff_move hs h, fun u ↦ ?_⟩
  by_cases hu : u = t
  · subst hu
    exact agrees_move hs h
  · exact (hs.agrees u).frame (frame_move hs h) hu

/-- Going to a place of which the same is said keeps the members sound. -/
theorem Sound.goTo {s : RecursiveMutex T} {t : T} {pc : MutexPc T} (hs : s.Sound)
    (hagrees : (s.goTo t pc).Agrees t) : (s.goTo t pc).Sound := by
  refine ⟨hs.free_iff, fun u ↦ ?_⟩
  by_cases hu : u = t
  · subst hu
    exact hagrees
  · apply (hs.agrees u).frame _ hu
    constructor <;> simp_all [RecursiveMutex.goTo]

omit [DecidableEq T] in
theorem sound_new : (new : RecursiveMutex T).Sound :=
  ⟨by simp [new], fun t ↦ by constructor <;> simp [new]⟩

theorem sound_step (s : RecursiveMutex T) (e : MutexEvent T) (s' : RecursiveMutex T) (hs : s.Sound)
    (h : s.step e = some s') : s'.Sound := by
  cases e with
  | call t f =>
    rw [step] at h
    split_ifs at h with hcall
    obtain rfl := Option.some.inj h
    obtain ⟨hpc, hcan⟩ := hcall
    have hagrees := hs.agrees t
    apply hs.goTo
    cases f <;> constructor <;> simp_all [hagrees.internal, hagrees.mutex, hagrees.owner,
      hagrees.count, RecursiveMutex.goTo, entry, CanCall]
  | move t => exact sound_move hs h
  | wake t =>
    rw [step] at h
    split at h
    · rename_i count hpc
      obtain rfl := Option.some.inj h
      have hagrees := hs.agrees t
      have hfits := hagrees.fits
      apply hs.goTo
      constructor <;> simp_all [hagrees.internal, hagrees.mutex, hagrees.owner, RecursiveMutex.goTo]
    · cases h

/-! ### What its users see -/

/-- What takes effect in a move from a place, as the users of the lock see it: `m_mutex` is taken,
the entries are counted, or `pthread_cond_wait` gives `m_mutex` up. -/
def moveEffect (s : RecursiveMutex T) (t : T) : MutexPc T → List (Base.LockEvent T)
  | .lockTest _ => if s.count ≠ 0 ∧ s.owner = some t then [.enter t] else []
  | .lockMutex (.conditionHelper _) => [.resume t]
  | .lockMutex .lock | .lockMutex .tryLock => [.enter t]
  | .unlockTest => [.leave t]
  | .condWait _ => [.park t]
  | _ => []

/-- What takes effect in a step. -/
def effect (s : RecursiveMutex T) : MutexEvent T → List (Base.LockEvent T)
  | .call _ _ => []
  | .wake t => [.wake t]
  | .move t => s.moveEffect t (s.pc t)

/-- The lock as its users see it: inside is who has entries to undo. -/
def abs (s : RecursiveMutex T) : Base.ReentrantLock T where
  holder := s.mutex.filter fun t ↦ 0 < s.entries t
  depth := s.mutex.elim 0 s.entries
  place t := (s.pc t).place

section Abs

variable {s : RecursiveMutex T} {t : T}

omit [DecidableEq T] in
@[simp] theorem place_abs (u : T) : s.abs.place u = (s.pc u).place := rfl

theorem abs_goTo (pc : MutexPc T) : (s.goTo t pc).abs = s.abs.put t pc.place := by
  ext u
  · rfl
  · rfl
  · exact Function.apply_update (fun _ ↦ MutexPc.place) s.pc t pc u

/-- A thread that its users see where it was. -/
theorem abs_goTo_self {pc : MutexPc T} (h : (s.pc t).place = pc.place) :
    (s.goTo t pc).abs = s.abs := by
  rw [abs_goTo, Base.ReentrantLock.put_self _ _ h]

omit [DecidableEq T] in
/-- A thread with entries to undo is inside. -/
theorem Sound.abs_of_inside (hs : s.Sound) (h : 0 < s.entries t) :
    s.abs.holder = some t ∧ s.abs.depth = s.entries t := by
  have hmutex : s.mutex = some t := (hs.agrees t).mutex.mpr (.inr h)
  simp [abs, hmutex, h]

omit [DecidableEq T] in
/-- Nobody is inside while `m_mutex` is free. -/
theorem abs_of_free (h : s.mutex = none) : s.abs.holder = none ∧ s.abs.depth = 0 := by
  simp [abs, h]

theorem abs_hold {n : Nat} (hmutex : s.mutex = some t) (hn : 0 < n) :
    (s.setEntries t n).abs = s.abs.hold t n := by
  ext u
  · simp only [abs, setEntries, Base.ReentrantLock.hold, Nat.ne_of_gt hn, if_false, hmutex]
    rw [Option.filter_some_pos (by simpa using hn)]
  · simp [abs, setEntries, Base.ReentrantLock.hold, hmutex]
  · rfl

theorem abs_release : ({ s with mutex := none }.setEntries t 0).abs = s.abs.hold t 0 := rfl

omit [DecidableEq T] in
/-- `m_mutex` taken and given back without an entry. -/
theorem abs_pass (h : s.mutex = none) (hentries : s.entries t = 0) :
    ({ s with mutex := some t } : RecursiveMutex T).abs = s.abs := by
  simp [abs, h, hentries]

omit [DecidableEq T] in
theorem abs_passed (h : s.mutex = some t) (hentries : s.entries t = 0) :
    ({ s with mutex := none } : RecursiveMutex T).abs = s.abs := by
  simp [abs, h, hentries, Option.filter]

end Abs

/-- The move of a thread is matched by what takes effect in it. -/
theorem simulates_move {s s' : RecursiveMutex T} {t : T} (hs : s.Sound) (h : s.move t = some s') :
    Base.runFrom Base.ReentrantLock.step s.abs (s.moveEffect t (s.pc t)) = some s'.abs := by
  have hfree := hs.free_iff
  obtain ⟨-, hmutex, howner, hcount, hfits, -⟩ := hs.agrees t
  unfold move at h
  cases hpc : s.pc t <;> rw [hpc] at h hmutex howner hcount hfits <;>
    simp only [takeInternal_eq_some, takeMutex_eq_some, Option.map_eq_some_iff, Option.some.injEq,
      reduceCtorEq] at h
  case lockMutex asker =>
    obtain ⟨s', ⟨htaken, rfl⟩, rfl⟩ := h
    obtain ⟨hholder, hdepth⟩ := abs_of_free htaken
    have hplace : s.abs.place t = asker.place := by simp [hpc, MutexPc.place]
    have hpos : 0 < asker.count := by cases asker <;> simp_all
    rw [abs_hold rfl hpos, abs_goTo]
    cases asker with
    | lock | tryLock =>
      rw [moveEffect, Base.runFrom_singleton,
        Base.ReentrantLock.step_enter hplace (.inl hholder), hdepth]
      exact congrArg (fun l ↦ some (l.hold t 1)) (Base.ReentrantLock.put_self _ _ hplace).symm
    | conditionHelper count =>
      rw [moveEffect, Base.runFrom_singleton, Base.ReentrantLock.step_resume hplace hholder]
      rfl
  case spin asker | woken count =>
    obtain ⟨htaken, rfl⟩ := h
    rw [abs_goTo_self, abs_pass htaken hfits.1]
    · rfl
    · simp only [hpc, MutexPc.place]
  case spinRelease asker | waitRelease count =>
    subst h
    rw [abs_goTo_self, abs_passed (hmutex.mpr (.inl trivial)) hfits.1]
    · rfl
    · simp only [hpc, MutexPc.place, Asker.place]
  case lockTest asker =>
    subst h
    rw [moveEffect, lockTest]
    by_cases hzero : s.count = 0
    · rw [if_pos hzero, if_neg fun hcounted ↦ hcounted.1 hzero,
        abs_goTo_self (by simp only [hpc, MutexPc.place])]
      rfl
    · rw [if_neg hzero]
      by_cases hown : s.owner = some t
      · have hinside : 0 < s.entries t := by simpa using howner.mp hown
        obtain ⟨hholder, hdepth⟩ := hs.abs_of_inside hinside
        have hone : asker.count = 1 ∧ asker.place = .here := by
          cases asker with
          | lock | tryLock => exact ⟨rfl, rfl⟩
          | conditionHelper count => exact absurd hfits.1 (Nat.ne_of_gt hinside)
        have hplace : s.abs.place t = .here := by simp [hpc, MutexPc.place, hone.2]
        have hentered := abs_hold (hmutex.mpr (.inr hinside)) (Nat.succ_pos (s.entries t))
        rw [if_pos hown, if_pos ⟨hzero, hown⟩, Base.runFrom_singleton,
          Base.ReentrantLock.step_enter hplace (.inr hholder), hdepth, abs_goTo, hone.1, ← hentered]
        exact congrArg some
          (Base.ReentrantLock.put_self (s.setEntries t (s.entries t + 1)).abs t hplace).symm
      · rw [if_neg hown, if_neg fun howned ↦ hown howned.2,
          abs_goTo_self (by simp [hpc, MutexPc.place])]
        rfl
  case unlockTest =>
    subst h
    have hplace : s.abs.place t = .here := by simp [hpc, MutexPc.place]
    obtain ⟨hholder, hdepth⟩ := hs.abs_of_inside (t := t) hfits
    have hself : s.owner = some t := howner.mpr (.inr ⟨hfits, by simp⟩)
    have hentries : s.count = s.entries t := hcount hself
    rw [moveEffect, Base.runFrom_singleton, Base.ReentrantLock.step_leave hholder, hdepth]
    rw [unlockTest]
    by_cases hone : s.count = 1
    · rw [if_pos hone, abs_goTo, ← hentries, hone]
      exact congrArg (fun l ↦ some (l.hold t 0)) (Base.ReentrantLock.put_self _ _ hplace).symm
    · have hleft : 0 < s.entries t - 1 := by
        have : 0 < s.entries t := hfits
        omega
      rw [if_neg hone, abs_goTo, ← abs_hold (hmutex.mpr (.inr hfits)) hleft]
      exact congrArg some
        (Base.ReentrantLock.put_self (s.setEntries t (s.entries t - 1)).abs t hplace).symm
  case condWait count =>
    subst h
    have hinside : 0 < s.entries t := hfits.1 ▸ hfits.2
    obtain ⟨hholder, hdepth⟩ := hs.abs_of_inside hinside
    rw [moveEffect, Base.runFrom_singleton, Base.ReentrantLock.step_park hholder, hdepth, hfits.1,
      abs_goTo, abs_release]
    rfl
  case lockInternal asker | unlockInternal | ownerInternal | resetInternal =>
    obtain ⟨-, rfl⟩ := h
    rw [abs_goTo_self (by simp only [hpc, MutexPc.place])]
    rfl
  case lockRelease asker obtained =>
    subst h
    rw [abs_goTo_self]
    · rfl
    · cases asker <;> cases obtained <;> simp [hpc, MutexPc.place, afterLock, Asker.place]
  all_goals
    subst h
    rw [abs_goTo_self (by simp only [hpc, MutexPc.place])]
    rfl

/-- The members follow the atomic lock. -/
theorem simulates :
    Base.Simulates (step (T := T)) Sound Base.ReentrantLock.step abs effect := by
  intro s e s' hs h
  cases e with
  | call t f =>
    rw [step] at h
    split_ifs at h with hcall
    obtain rfl := Option.some.inj h
    rw [effect, abs_goTo_self]
    · rfl
    · cases f <;> simp [hcall.1, MutexPc.place, entry, Asker.place]
  | move t => exact simulates_move hs h
  | wake t =>
    rw [step] at h
    split at h
    · rename_i count hpc
      obtain rfl := Option.some.inj h
      have hplace : s.abs.place t = .waiting count := by simp [hpc, MutexPc.place]
      rw [effect, Base.runFrom_singleton, Base.ReentrantLock.step_wake hplace, abs_goTo]
      rfl
    · cases h

/-- Whatever the threads do, in any interleaving of their moves, `RecursiveMutex` and the waits on
it behave as the atomic reentrant lock, which a thread holds exactly while it has entries to
undo. -/
theorem refines_reentrantLock {es : List (MutexEvent T)} {s : RecursiveMutex T}
    (hrun : Base.runFrom step new es = some s) :
    Base.runFrom Base.ReentrantLock.step .free (Base.effects step effect new es) = some s.abs ∧
      ∀ t, (s.abs.holder = some t ↔ 0 < s.entries t) ∧
        (0 < s.entries t → s.abs.depth = s.entries t) := by
  have hs : s.Sound := Base.inv_of_runFrom sound_step sound_new hrun
  refine ⟨simulates.runFrom sound_step sound_new hrun, fun t ↦ ⟨⟨fun hholder ↦ ?_, fun h ↦ ?_⟩, ?_⟩⟩
  · simpa using (Option.filter_eq_some_iff.mp hholder).2
  · exact (hs.abs_of_inside h).1
  · exact fun h ↦ (hs.abs_of_inside h).2

/-- `false` has locked the mutex, and `true` is about to wait for `m_mutex`. -/
def contended : List (MutexEvent Bool) :=
  [.call false .lock, .move false, .move false, .move false, .move false,
   .call true .lock, .move true, .move true, .move true]

/-- The state after it. -/
def contendedState : RecursiveMutex Bool := (Base.runFrom step new contended).get rfl

theorem refines_reentrantLock_contended :
    Base.runFrom Base.ReentrantLock.step .free (Base.effects step effect new contended) =
        some contendedState.abs ∧
      ∀ t, (contendedState.abs.holder = some t ↔ 0 < contendedState.entries t) ∧
        (0 < contendedState.entries t → contendedState.abs.depth = contendedState.entries t) :=
  refines_reentrantLock (Option.some_get rfl).symm

/-- `GetOwner` tells a thread itself exactly when it is inside, which is what `validateOwner`
asserts, `src/kpr/Monitor.cpp:121–124`. -/
theorem getOwner_self_iff {es : List (MutexEvent T)} {s : RecursiveMutex T} {t : T}
    {id : Option T} (hrun : Base.runFrom step new es = some s) (hpc : s.pc t = .ownerRelease id) :
    id = some t ↔ 0 < s.entries t :=
  ((Base.inv_of_runFrom sound_step sound_new hrun).agrees t).told id hpc

/-! ### Nobody is stuck -/

/-- It is in one of the functions and not in `pthread_cond_wait`. -/
def Awake (s : RecursiveMutex T) (t : T) : Prop := s.pc t ≠ .out ∧ ∀ count, s.pc t ≠ .asleep count

/-- A thread that cannot move wants `m_internal`, or it wants `m_mutex` and is not inside. -/
theorem stuck_cases {s : RecursiveMutex T} (hs : s.Sound) {t : T} (hawake : s.Awake t)
    (hstuck : s.move t = none) :
    s.internal ≠ none ∧ ¬ (s.pc t).HasInternal ∧ ¬ (s.pc t).HasReset ∧ ¬ (s.pc t).Passes ∨
      s.mutex ≠ none ∧ s.entries t = 0 ∧ ¬ (s.pc t).Passes := by
  have hfits := (hs.agrees t).fits
  have ⟨hout, hasleep⟩ := hawake
  unfold move at hstuck
  cases hpc : s.pc t <;> rw [hpc] at hfits hstuck hout hasleep
  case out => exact absurd rfl hout
  case asleep count => exact absurd rfl (hasleep count)
  case lockInternal asker | unlockInternal | ownerInternal | resetInternal =>
    simp only [takeInternal, ite_eq_right_iff, reduceCtorEq, imp_false] at hstuck
    exact .inl ⟨hstuck, id, id, id⟩
  case lockMutex asker | spin asker | woken count =>
    simp only [takeMutex, Option.map_eq_none_iff, ite_eq_right_iff, reduceCtorEq,
      imp_false] at hstuck
    exact .inr ⟨hstuck, hfits.1, id⟩
  all_goals cases hstuck

/-- Who holds `m_internal` moves on, or waits for `m_mutex` as the owner to be. -/
theorem internal_moves {s : RecursiveMutex T} (hs : s.Sound) {u : T} (hu : s.internal = some u) :
    (s.move u).isSome ∨ s.owner = some u ∧ s.mutex ≠ none ∧ s.entries u = 0 := by
  have hhas : (s.pc u).HasInternal := (hs.agrees u).internal.mp hu
  have hawake : s.Awake u := by
    constructor
    · intro hpc
      simp [hpc] at hhas
    · intro count hpc
      simp [hpc] at hhas
  cases hmove : s.move u with
  | some s' => exact .inl rfl
  | none =>
    rcases stuck_cases hs hawake hmove with ⟨-, hnot, -⟩ | ⟨htaken, hentries, -⟩
    · exact absurd hhas hnot
    · have hclaims : (s.pc u).Claims := by
        unfold move at hmove
        cases hpc : s.pc u <;> simp_all
      exact .inr ⟨(hs.agrees u).owner.mpr (.inl hclaims), htaken, hentries⟩

/-- A thread with entries to undo that is in one of the functions is never kept waiting by a
thread that is itself waiting. -/
theorem inside_moves {s : RecursiveMutex T} (hs : s.Sound) {t : T} (hawake : s.Awake t)
    (hinside : 0 < s.entries t) : ∃ u, (s.move u).isSome := by
  cases hmove : s.move t with
  | some s' => exact ⟨t, by simp [hmove]⟩
  | none =>
    rcases stuck_cases hs hawake hmove with ⟨htaken, -, hreset, -⟩ | ⟨-, hentries, -⟩
    · obtain ⟨u, hu⟩ := Option.ne_none_iff_exists'.mp htaken
      have howner : s.owner = some t := (hs.agrees t).owner.mpr (.inr ⟨hinside, hreset⟩)
      rcases internal_moves hs hu with hmoves | ⟨hother, -, hnone⟩
      · exact ⟨u, hmoves⟩
      · obtain rfl : t = u := Option.some.inj (howner.symm.trans hother)
        omega
    · omega

/-- Who holds `m_mutex` lets somebody move, or is in its own code with entries to undo. -/
theorem mutex_moves {s : RecursiveMutex T} (hs : s.Sound) (htaken : s.mutex ≠ none) :
    ∃ u, (s.move u).isSome ∨ s.pc u = .out ∧ 0 < s.entries u := by
  obtain ⟨u, hu⟩ := Option.ne_none_iff_exists'.mp htaken
  have hfits := (hs.agrees u).fits
  rcases (hs.agrees u).mutex.mp hu with hpasses | hinside
  · refine ⟨u, .inl ?_⟩
    unfold move
    cases hpc : s.pc u <;> simp_all
  · by_cases hout : s.pc u = .out
    · exact ⟨u, .inr ⟨hout, hinside⟩⟩
    · have hawake : s.Awake u := by
        refine ⟨hout, fun count hpc ↦ ?_⟩
        rw [hpc] at hfits
        exact absurd hfits.1 (Nat.ne_of_gt hinside)
      obtain ⟨v, hv⟩ := inside_moves hs hawake hinside
      exact ⟨v, .inl hv⟩

/-- Whatever the threads have done, a thread that is in one of the functions is not stuck for
good: some thread can move, or a thread is in its own code and has the mutex. A thread that has
the mutex itself waits only for threads that can move. -/
theorem never_stuck {es : List (MutexEvent T)} {s : RecursiveMutex T} {t : T}
    (hrun : Base.runFrom step new es = some s) (hawake : s.Awake t) :
    (∃ u, (s.move u).isSome ∨ s.pc u = .out ∧ 0 < s.entries u) ∧
      (0 < s.entries t → ∃ u, (s.move u).isSome) := by
  have hs : s.Sound := Base.inv_of_runFrom sound_step sound_new hrun
  refine ⟨?_, inside_moves hs hawake⟩
  cases hmove : s.move t with
  | some s' => exact ⟨t, .inl (by simp [hmove])⟩
  | none =>
    rcases stuck_cases hs hawake hmove with ⟨htaken, -⟩ | ⟨htaken, -⟩
    · obtain ⟨u, hu⟩ := Option.ne_none_iff_exists'.mp htaken
      rcases internal_moves hs hu with hmoves | ⟨-, hmutex, -⟩
      · exact ⟨u, .inl hmoves⟩
      · exact mutex_moves hs hmutex
    · exact mutex_moves hs htaken

/-- The state in which `false`, which has locked the mutex, locks it again. -/
def reenteringState : RecursiveMutex Bool :=
  (Base.runFrom step new (contended ++ [.call false .lock])).get rfl

theorem never_stuck_contended :
    (∃ u, (contendedState.move u).isSome ∨
        contendedState.pc u = .out ∧ 0 < contendedState.entries u) ∧
      ∃ u, (reenteringState.move u).isSome := by
  have hcontended : Base.runFrom step new contended = some contendedState :=
    (Option.some_get rfl).symm
  have hreentering : Base.runFrom step new (contended ++ [.call false .lock]) =
      some reenteringState := (Option.some_get rfl).symm
  have hwaits : contendedState.Awake true := ⟨nofun, nofun⟩
  have hlocks : reenteringState.Awake false := ⟨nofun, nofun⟩
  exact ⟨(never_stuck hcontended hwaits).1, (never_stuck hreentering hlocks).2 (by decide)⟩

end RecursiveMutex
end RocketMQ
