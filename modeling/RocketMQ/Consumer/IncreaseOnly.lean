import Mathlib.Data.Int.ConditionallyCompleteOrder
import Mathlib.Order.ConditionallyCompleteLattice.Basic
import RocketMQ.Base.CasLoop
import RocketMQ.Consumer.OffsetStore

/-!
# Concurrent increases

`MixAll::compareAndIncreaseOnly`, `src/common/MixAll.cpp:44–60`, called any number of times on one
`AtomicLong`, as consuming threads do for the longest time a message took. `Get` and
`CompareAndSet` of `src/kpr/AtomicValue.h:200–213` are single steps.
-/

namespace RocketMQ.MixAll

open Base Base.CasLoop

/-- The test of the loop, and the value that is swapped in. -/
def increaseOnly (value current : Int) : Option Int :=
  if value > current then some value else none

/-- An `AtomicLong` with the calls made on it. -/
abbrev AtomicLong := CasLoop.State Int Int

/-- A call is made, reads in `Get`, or swaps in `CompareAndSet`. -/
abbrev increaseStep : AtomicLong → CasLoop.Event Int → Option AtomicLong :=
  CasLoop.step increaseOnly

theorem increaseOnly_eq_some {value current new : Int} :
    increaseOnly value current = some new ↔ current < value ∧ value = new := by
  rw [increaseOnly]
  split <;> simp_all

theorem increaseOnly_eq_none {value current : Int} :
    increaseOnly value current = none ↔ value ≤ current := by
  rw [increaseOnly]
  split <;> simp_all

theorem raising_increaseOnly : Raising increaseOnly where
  lt h := by
    obtain ⟨hlt, rfl⟩ := increaseOnly_eq_some.mp h
    exact hlt
  done h := by
    obtain ⟨-, rfl⟩ := increaseOnly_eq_some.mp h
    exact increaseOnly_eq_none.mpr le_rfl
  done_of_le h hle := increaseOnly_eq_none.mpr ((increaseOnly_eq_none.mp h).trans hle)

/-- All calls have returned. -/
def AllReturned (s : AtomicLong) : Prop := ∀ c ∈ s.calls, ∃ b, c.point = .returned b

/-- After all calls have returned the value is the largest of the first one and the arguments. -/
theorem isGreatest_of_allReturned {init : Int} {es : List (CasLoop.Event Int)} {s : AtomicLong}
    (hrun : runFrom increaseStep (start init) es = some s) (hall : AllReturned s) :
    IsGreatest (insert init {v | v ∈ s.calls.map Call.arg}) s.value := by
  constructor
  · rcases value_origin raising_increaseOnly hrun with hinit | ⟨arg, harg, w, hcomputed⟩
    · exact .inl hinit
    · obtain ⟨-, rfl⟩ := increaseOnly_eq_some.mp hcomputed
      exact .inr harg
  · rintro v (rfl | hv)
    · exact (sound_start v).value_le raising_increaseOnly hrun
    · obtain ⟨c, hc, rfl⟩ := List.mem_map.mp hv
      obtain ⟨b, hb⟩ := hall c hc
      have hsound := inv_of_runFrom (sound_step raising_increaseOnly) (sound_start init) hrun
      exact increaseOnly_eq_none.mp (hsound.returned c hc b hb)

/-- One call after the other leaves the largest of the first value and the arguments. -/
theorem isGreatest_foldl_compareAndIncreaseOnly (init : Int) (vs : List Int) :
    IsGreatest (insert init {v | v ∈ vs}) (vs.foldl compareAndIncreaseOnly init) := by
  induction vs generalizing init with
  | nil => simp
  | cons v vs ih =>
    rw [List.foldl_cons, compareAndIncreaseOnly_eq_max]
    obtain ⟨hmem, hle⟩ := ih (max init v)
    constructor
    · rcases hmem with hfirst | hlater
      · rw [hfirst]
        rcases max_choice init v with hinit | hv
        · exact .inl hinit
        · exact .inr (hv.symm ▸ List.mem_cons_self)
      · exact .inr (List.mem_cons_of_mem v hlater)
    · rintro w (rfl | hw)
      · exact (le_max_left w v).trans (hle (.inl rfl))
      · rcases List.mem_cons.mp hw with rfl | hlater
        · exact (le_max_right init w).trans (hle (.inl rfl))
        · exact hle (.inr hlater)

/-- Calls that interleave leave the value that the same calls leave one after the other. -/
theorem value_eq_foldl {init : Int} {es : List (CasLoop.Event Int)} {s : AtomicLong}
    (hrun : runFrom increaseStep (start init) es = some s) (hall : AllReturned s) :
    s.value = (s.calls.map Call.arg).foldl compareAndIncreaseOnly init :=
  (isGreatest_of_allReturned hrun hall).unique (isGreatest_foldl_compareAndIncreaseOnly init _)

/-- A call fails at most as many swaps as there are swaps of others that raise the value. -/
theorem failures_le_raises {init : Int} {es : List (CasLoop.Event Int)} {s : AtomicLong}
    (hrun : runFrom increaseStep (start init) es = some s) (i : Nat) :
    tally increaseStep (Misses i) (start init) es ≤
      tally increaseStep (fun s e ↦ ∃ j, j ≠ i ∧ Raises increaseOnly j s e) (start init) es :=
  misses_le_raises raising_increaseOnly hrun i

/-- The value never decreases; after all calls have returned it is the largest of the first one and
the arguments; a call returns true exactly when its own swap raised the value; and a swap fails
only because another call raised the value since the last read. -/
theorem concurrent_increases_exact (init : Int) (es : List (CasLoop.Event Int)) (s : AtomicLong)
    (hrun : runFrom increaseStep (start init) es = some s) :
    (∀ es' t, runFrom increaseStep s es' = some t → s.value ≤ t.value) ∧
      (AllReturned s → IsGreatest (insert init {v | v ∈ s.calls.map Call.arg}) s.value) ∧
      (∀ i b, s.point i = some (.returned b) →
        (b = true ↔ Happens increaseStep (Raises increaseOnly i) (start init) es)) ∧
      ∀ i t, increaseStep s (.swap i) = some t → t.point i ≠ some (.returned true) →
        ∃ pre mid u, es = pre ++ .read i :: mid ∧ (∀ e ∈ mid, e.owner ≠ some i) ∧
          runFrom increaseStep (start init) (pre ++ [.read i]) = some u ∧
          Happens increaseStep (fun s e ↦ ∃ j, j ≠ i ∧ Raises increaseOnly j s e) u mid := by
  refine ⟨fun es' t hmore ↦ ?_, isGreatest_of_allReturned hrun, fun i b hpoint ↦ ?_,
    fun i t hswap hfailed ↦ ?_⟩
  · have hsound := inv_of_runFrom (sound_step raising_increaseOnly) (sound_start init) hrun
    exact hsound.value_le raising_increaseOnly hmore
  · rw [← returned_true_iff raising_increaseOnly hrun, hpoint]
    simp
  · apply Stale.raised_since_read raising_increaseOnly hrun
    cases own_step hswap rfl with
    | swapped new before after value => exact absurd after hfailed
    | missed current new before hne after value => exact ⟨current, new, before, hne⟩

/-- Calls with 5 and 7 on a value that is 3: both read it, the first swap succeeds and the second
call has to read again. -/
theorem concurrent_increases_exact_five_seven :
    IsGreatest (insert 3 {v | v ∈ [5, 7]}) (7 : Int) ∧
      ∃ pre mid u, [.call 5, .call 7, .read 0, .read 1, .swap 0] = pre ++ .read 1 :: mid ∧
        (∀ e ∈ mid, e.owner ≠ some 1) ∧
        runFrom increaseStep (start 3) (pre ++ [.read 1]) = some u ∧
        Happens increaseStep (fun s e ↦ ∃ j, j ≠ 1 ∧ Raises increaseOnly j s e) u mid := by
  constructor
  · exact (concurrent_increases_exact 3
      [.call 5, .call 7, .read 0, .read 1, .swap 0, .swap 1, .read 1, .swap 1]
      ⟨7, [⟨5, .returned true⟩, ⟨7, .returned true⟩]⟩ rfl).2.1 (by simp [AllReturned])
  · exact (concurrent_increases_exact 3 [.call 5, .call 7, .read 0, .read 1, .swap 0]
      ⟨5, [⟨5, .returned true⟩, ⟨7, .swap 3 7⟩]⟩ rfl).2.2.2 1 _ rfl nofun

end RocketMQ.MixAll
