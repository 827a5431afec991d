import Mathlib.Data.List.Basic
import Mathlib.Tactic.Common

/-!
# Writes that may be cut short

General library: the log of the writes to a sink, each with what was offered and how much of it
was taken. A sink that takes nothing more once it has cut a write short has got the whole writes
one behind the other, and behind them the front of at most one other.
-/

namespace RocketMQ.Base

universe u

/-- What was offered, and how much of it was taken from the front. -/
structure Write (α : Type u) where
  data : List α
  taken : Nat

namespace Write

variable {α : Type u}

/-- What was taken. -/
def part (w : Write α) : List α := w.data.take w.taken

/-- Nothing is left. -/
def Whole (w : Write α) : Prop := w.data.length ≤ w.taken

instance (w : Write α) : Decidable w.Whole := inferInstanceAs (Decidable (_ ≤ _))

theorem part_of_whole {w : Write α} (h : w.Whole) : w.part = w.data := List.take_of_length_le h

theorem part_of_taken_eq_zero {w : Write α} (h : w.taken = 0) : w.part = [] := by
  rw [part, h, List.take_zero]

end Write

variable {α : Type u}

/-- All that was taken. -/
def taken (log : List (Write α)) : List α := log.flatMap Write.part

/-- The writes that were taken as a whole. -/
def whole (log : List (Write α)) : List α := (log.filter (·.Whole)).flatMap Write.data

/-- Once a write was cut short nothing is taken. -/
def StopsWhenCut (log : List (Write α)) : Prop :=
  log.Pairwise fun w w' ↦ ¬ w.Whole → w'.taken = 0

section Rules

variable {log : List (Write α)} {w : Write α}

theorem taken_concat (log : List (Write α)) (w : Write α) :
    taken (log ++ [w]) = taken log ++ w.part := by
  rw [taken, List.flatMap_append, List.flatMap_singleton, ← taken]

theorem whole_cons (w : Write α) (log : List (Write α)) :
    whole (w :: log) = (if w.Whole then w.data else []) ++ whole log := by
  rw [whole, List.filter_cons]
  by_cases h : w.Whole
  · simp [h, whole]
  · simp [h, whole]

theorem whole_eq_nil (h : ∀ w ∈ log, w.taken = 0) : whole log = [] := by
  rw [whole, List.flatMap_eq_nil_iff]
  intro w hw
  obtain ⟨hmem, hwhole⟩ := List.mem_filter.mp hw
  rw [← Write.part_of_whole (of_decide_eq_true hwhole), Write.part_of_taken_eq_zero (h w hmem)]

theorem taken_eq_nil (h : ∀ w ∈ log, w.taken = 0) : taken log = [] := by
  rw [taken, List.flatMap_eq_nil_iff]
  exact fun w hw ↦ Write.part_of_taken_eq_zero (h w hw)

/-- One more write that takes nothing behind one that was cut short. -/
theorem StopsWhenCut.concat (h : StopsWhenCut log)
    (hcut : (∃ v ∈ log, ¬ v.Whole) → w.taken = 0) : StopsWhenCut (log ++ [w]) := by
  refine List.pairwise_append.mpr ⟨h, List.pairwise_singleton _ _, fun v hv w' hw' hnot ↦ ?_⟩
  rw [List.mem_singleton.mp hw']
  exact hcut ⟨v, hv, hnot⟩

/-- The whole writes in order, and behind them what was taken of the first one cut short. -/
theorem taken_eq_whole_append (h : StopsWhenCut log) :
    ∃ torn, taken log = whole log ++ torn ∧
      (torn = [] ∨ ∃ w ∈ log, ¬ w.Whole ∧ torn = w.part) := by
  induction log with
  | nil => exact ⟨[], rfl, Or.inl rfl⟩
  | cons w log ih =>
    obtain ⟨hafter, hlog⟩ := List.pairwise_cons.mp h
    rw [taken, List.flatMap_cons, ← taken, whole_cons]
    by_cases hwhole : w.Whole
    · obtain ⟨torn, htaken, htorn⟩ := ih hlog
      refine ⟨torn, ?_, htorn.imp_right fun ⟨v, hv, hcut⟩ ↦ ⟨v, List.mem_cons_of_mem _ hv, hcut⟩⟩
      rw [htaken, Write.part_of_whole hwhole, if_pos hwhole, List.append_assoc]
    · -- nothing is taken any more, so the whole writes behind it are empty
      have hzero (v : Write α) (hv : v ∈ log) : v.taken = 0 := hafter v hv hwhole
      refine ⟨w.part, ?_, Or.inr ⟨w, List.mem_cons_self, hwhole, rfl⟩⟩
      rw [taken_eq_nil hzero, whole_eq_nil hzero, if_neg hwhole, List.append_nil,
        List.nil_append, List.nil_append]

end Rules
end RocketMQ.Base
