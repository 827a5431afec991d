import Mathlib.Logic.Function.Iterate
import Mathlib.Tactic.Common

/-!
# A bounded search whose probes may fail

General library: a search makes at most a number of probes along the orbit of a step function,
and stops at the first value it wants. A probe may fault, and a fault ends the search without
an answer. A search that ran out has seen every probe answered with an unwanted value; one that
found a value has seen no fault before it.
-/

namespace RocketMQ.Base

universe u v

variable {σ : Type u} {α : Type v}

/-- At most `passes` probes from `s` on: `none` at a fault, `some none` when none is wanted. -/
def search (next : σ → σ) (get : σ → Option α) (wanted : α → Bool) :
    Nat → σ → Option (Option α)
  | 0, _ => some none
  | passes + 1, s =>
    match get s with
    | none => none
    | some a => if wanted a then some (some a) else search next get wanted passes (next s)

section Rules

variable {next : σ → σ} {get : σ → Option α} {wanted : α → Bool} {passes : Nat} {s : σ} {a : α}

theorem search_succ_of_fault (h : get s = none) :
    search next get wanted (passes + 1) s = none := by
  rw [search, h]

theorem search_succ_of_wanted (h : get s = some a) (hwanted : wanted a = true) :
    search next get wanted (passes + 1) s = some (some a) := by
  simp only [search, h, hwanted, if_true]

theorem search_succ_of_unwanted (h : get s = some a) (hwanted : wanted a = false) :
    search next get wanted (passes + 1) s = search next get wanted passes (next s) := by
  simp only [search, h, hwanted, Bool.false_eq_true, if_false]

/-- What a search returns was read by a probe, and is wanted. -/
theorem wanted_of_search (h : search next get wanted passes s = some (some a)) :
    wanted a = true ∧ ∃ t, get t = some a := by
  induction passes generalizing s with
  | zero => cases h
  | succ passes ih =>
    cases hget : get s with
    | none => rw [search_succ_of_fault hget] at h; cases h
    | some b =>
      cases hb : wanted b with
      | true =>
        rw [search_succ_of_wanted hget hb, Option.some.injEq, Option.some.injEq] at h
        exact ⟨h ▸ hb, s, h ▸ hget⟩
      | false =>
        rw [search_succ_of_unwanted hget hb] at h
        exact ih h

/-- A search runs out when every probe is answered with an unwanted value. -/
theorem search_eq_some_none_iff :
    search next get wanted passes s = some none ↔
      ∀ i < passes, ∃ a, get (next^[i] s) = some a ∧ wanted a = false := by
  induction passes generalizing s with
  | zero => simp [search]
  | succ passes ih =>
    rw [Nat.forall_lt_succ_left, Function.iterate_zero_apply]
    simp only [Function.iterate_succ_apply]
    cases hget : get s with
    | none => simp [search_succ_of_fault hget]
    | some a =>
      cases ha : wanted a with
      | true => simp [search_succ_of_wanted hget ha, ha]
      | false => simp [search_succ_of_unwanted hget ha, ha, ih]

/-- A search finds a value when a probe reads one it wants and no probe before it faults. -/
theorem exists_search_eq_some_iff :
    (∃ a, search next get wanted passes s = some (some a)) ↔
      ∃ i < passes, (∃ a, get (next^[i] s) = some a ∧ wanted a = true) ∧
        ∀ j ≤ i, get (next^[j] s) ≠ none := by
  induction passes generalizing s with
  | zero => simp [search]
  | succ passes ih =>
    rw [Nat.exists_lt_succ_left, Function.iterate_zero_apply]
    simp only [Function.iterate_succ_apply]
    cases hget : get s with
    | none =>
      rw [search_succ_of_fault hget]
      apply iff_of_false (by simp)
      rintro (⟨⟨a, ha, -⟩, -⟩ | ⟨i, -, -, hbefore⟩)
      · cases ha
      · exact hbefore 0 (Nat.zero_le _) hget
    | some a =>
      cases ha : wanted a with
      | true =>
        rw [search_succ_of_wanted hget ha]
        refine iff_of_true ⟨a, rfl⟩ (Or.inl ⟨⟨a, rfl, ha⟩, fun j hj ↦ ?_⟩)
        rw [Nat.le_zero.mp hj, Function.iterate_zero_apply, hget]
        exact Option.some_ne_none a
      | false =>
        have hbefore (i : Nat) : (∀ j ≤ i + 1, get (next^[j] s) ≠ none) ↔
            ∀ j ≤ i, get (next^[j] (next s)) ≠ none := by
          simp only [← Nat.lt_succ_iff]
          rw [Nat.forall_lt_succ_left, Function.iterate_zero_apply, hget]
          simp only [Function.iterate_succ_apply, ne_eq, reduceCtorEq, not_false_eq_true,
            true_and]
        rw [search_succ_of_unwanted hget ha, ih]
        simp [hbefore, ha]

/-- Without a fault, a search is the first wanted value among those it probes. -/
theorem search_eq_find? (h : ∀ i < passes, get (next^[i] s) ≠ none) :
    search next get wanted passes s =
      some (((List.range passes).filterMap fun i ↦ get (next^[i] s)).find? wanted) := by
  induction passes generalizing s with
  | zero => rfl
  | succ passes ih =>
    rw [Nat.forall_lt_succ_left, Function.iterate_zero_apply] at h
    simp only [Function.iterate_succ_apply] at h
    obtain ⟨a, ha⟩ := Option.ne_none_iff_exists'.mp h.1
    rw [List.range_succ_eq_map, List.filterMap_cons, Function.iterate_zero_apply, ha,
      List.filterMap_map]
    cases hwanted : wanted a with
    | true => simp [search_succ_of_wanted ha hwanted, hwanted]
    | false =>
      rw [search_succ_of_unwanted ha hwanted, ih h.2]
      simp [hwanted, Function.comp_def]

end Rules
end RocketMQ.Base
