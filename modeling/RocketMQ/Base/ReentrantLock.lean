import Mathlib.Logic.Function.Basic
import RocketMQ.Base.Run

/-!
# A reentrant lock with waiting

General library: the lock of a monitor as its users see it, with atomic steps. A thread enters,
as often as it likes, and leaves as often as it has entered. The holder can wait: it gives the
lock up and becomes a waiter in one step, and once it has been woken it takes the lock again as
deep as it held it.
-/

namespace RocketMQ.Base

universe u

/-- Where a thread is with respect to the waiting of one lock. -/
inductive Place where
  | here
  | waiting (depth : Nat)
  | returning (depth : Nat)
deriving DecidableEq

/-- The thread that is inside, how often it has entered, and who waits. -/
@[ext] structure ReentrantLock (T : Type u) where
  holder : Option T
  depth : Nat
  place : T → Place

/-- The steps of a thread, and `wake`, which others make happen to it. -/
inductive LockEvent (T : Type u) where
  | enter (t : T)
  | leave (t : T)
  | park (t : T)
  | wake (t : T)
  | resume (t : T)

namespace ReentrantLock

variable {T : Type u} [DecidableEq T]

/-- Nobody has entered yet. -/
def free : ReentrantLock T := ⟨none, 0, fun _ ↦ .here⟩

/-- `t` is inside, with `n` entries. -/
def hold (l : ReentrantLock T) (t : T) (n : Nat) : ReentrantLock T :=
  { l with holder := if n = 0 then none else some t, depth := n }

/-- `t` goes to a place. -/
def put (l : ReentrantLock T) (t : T) (p : Place) : ReentrantLock T :=
  { l with place := Function.update l.place t p }

/-- One step. -/
def step (l : ReentrantLock T) : LockEvent T → Option (ReentrantLock T)
  | .enter t =>
    if l.place t = .here ∧ (l.holder = none ∨ l.holder = some t) then some (l.hold t (l.depth + 1))
    else none
  | .leave t => if l.holder = some t then some (l.hold t (l.depth - 1)) else none
  | .park t =>
    if l.holder = some t then some ((l.hold t 0).put t (.waiting l.depth)) else none
  | .wake t =>
    match l.place t with
    | .waiting n => some (l.put t (.returning n))
    | .here | .returning _ => none
  | .resume t =>
    match l.place t with
    | .returning n => if l.holder = none then some ((l.hold t n).put t .here) else none
    | .here | .waiting _ => none

section Holding

variable (l : ReentrantLock T) (t : T)

omit [DecidableEq T] in
@[simp] theorem place_hold (n : Nat) : (l.hold t n).place = l.place := rfl

omit [DecidableEq T] in
@[simp] theorem depth_hold (n : Nat) : (l.hold t n).depth = n := rfl

@[simp] theorem holder_put (p : Place) : (l.put t p).holder = l.holder := rfl

@[simp] theorem depth_put (p : Place) : (l.put t p).depth = l.depth := rfl

/-- A thread that stays where it is changes nothing. -/
theorem put_self {p : Place} (h : l.place t = p) : l.put t p = l := by
  subst h
  simp [put]

variable {l t}

theorem step_enter (hplace : l.place t = .here) (hholder : l.holder = none ∨ l.holder = some t) :
    l.step (.enter t) = some (l.hold t (l.depth + 1)) :=
  if_pos ⟨hplace, hholder⟩

theorem step_leave (hholder : l.holder = some t) :
    l.step (.leave t) = some (l.hold t (l.depth - 1)) :=
  if_pos hholder

theorem step_park (hholder : l.holder = some t) :
    l.step (.park t) = some ((l.hold t 0).put t (.waiting l.depth)) :=
  if_pos hholder

theorem step_wake {n : Nat} (hplace : l.place t = .waiting n) :
    l.step (.wake t) = some (l.put t (.returning n)) := by
  rw [step, hplace]

theorem step_resume {n : Nat} (hplace : l.place t = .returning n) (hholder : l.holder = none) :
    l.step (.resume t) = some ((l.hold t n).put t .here) := by
  simp only [step, hplace, hholder, if_true]

variable {l' : ReentrantLock T}

theorem step_enter_iff : l.step (.enter t) = some l' ↔
    (l.place t = .here ∧ (l.holder = none ∨ l.holder = some t)) ∧ l.hold t (l.depth + 1) = l' := by
  rw [step]
  split_ifs with h <;> simp [h]

theorem step_leave_iff : l.step (.leave t) = some l' ↔
    l.holder = some t ∧ l.hold t (l.depth - 1) = l' := by
  rw [step]
  split_ifs with h <;> simp [h]

theorem step_park_iff : l.step (.park t) = some l' ↔
    l.holder = some t ∧ (l.hold t 0).put t (.waiting l.depth) = l' := by
  rw [step]
  split_ifs with h <;> simp [h]

theorem step_wake_iff : l.step (.wake t) = some l' ↔
    ∃ n, l.place t = .waiting n ∧ l.put t (.returning n) = l' := by
  rw [step]
  cases l.place t <;> simp

theorem step_resume_iff : l.step (.resume t) = some l' ↔
    ∃ n, l.place t = .returning n ∧ l.holder = none ∧ (l.hold t n).put t .here = l' := by
  rw [step]
  cases l.place t with
  | returning n => by_cases h : l.holder = none <;> simp [h]
  | here | waiting n => simp

end Holding

end ReentrantLock
end RocketMQ.Base
