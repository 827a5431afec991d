import Mathlib.Data.List.Infix
import Mathlib.Tactic.Common

/-!
# The first place of a text in another

General library: `find` is the position at which a list first stands in another one. A list that
does not occur has none; one whose first element is not met before it stands right there.
-/

namespace RocketMQ.Base

universe u

variable {α : Type u} [DecidableEq α]

/-- The first position at which `pattern` stands. -/
def find (pattern : List α) : List α → Option Nat
  | [] => if pattern = [] then some 0 else none
  | c :: s => if pattern <+: c :: s then some 0 else (find pattern s).map (· + 1)

section Rules

variable {pattern s rest : List α} {c : α} {i : Nat}

theorem find_eq_none_iff : find pattern s = none ↔ ¬ pattern <:+: s := by
  induction s with
  | nil => simp [find]
  | cons c s ih =>
    rw [find, List.infix_cons_iff]
    by_cases hhere : pattern <+: c :: s
    · simp [hhere]
    · rw [if_neg hhere, Option.map_eq_none_iff, ih, or_iff_right hhere]

theorem find_eq_none_of_notMem (h : c ∉ s) : find (c :: pattern) s = none :=
  find_eq_none_iff.mpr fun hinside ↦ h (hinside.subset List.mem_cons_self)

/-- The pattern stands at the position found. -/
theorem take_append_drop_of_find (h : find pattern s = some i) :
    s.take i ++ pattern ++ s.drop (i + pattern.length) = s := by
  induction s generalizing i with
  | nil =>
    simp only [find, Option.ite_none_right_eq_some, Option.some.injEq] at h
    simp [h.1]
  | cons c s ih =>
    rw [find] at h
    split_ifs at h with hhere
    · obtain rfl := Option.some.inj h
      rw [List.take_zero, List.nil_append, Nat.zero_add]
      exact List.prefix_iff_eq_append.mp hhere
    · obtain ⟨j, hj, rfl⟩ := Option.map_eq_some_iff.mp h
      rw [List.take_succ_cons, Nat.add_right_comm, List.drop_succ_cons, List.cons_append,
        List.cons_append, ih hj]

/-- Before the position found there is no whole pattern. -/
theorem not_infix_take_of_find (hpattern : pattern ≠ []) (h : find pattern s = some i) :
    ¬ pattern <:+: s.take i := by
  have hnil : ¬ pattern <:+: [] := fun hinside ↦ hpattern (List.infix_nil.mp hinside)
  induction s generalizing i with
  | nil =>
    rw [List.take_nil]
    exact hnil
  | cons c s ih =>
    rw [find] at h
    split_ifs at h with hhere
    · obtain rfl := Option.some.inj h
      exact hnil
    · obtain ⟨j, hj, rfl⟩ := Option.map_eq_some_iff.mp h
      rw [List.take_succ_cons, List.infix_cons_iff, not_or]
      exact ⟨fun hstart ↦ hhere (hstart.trans (List.take_prefix (j + 1) (c :: s))), ih hj⟩

/-- A pattern of one element is found where the element is. -/
theorem find_singleton : find [c] s = s.idxOf? c := by
  induction s with
  | nil => rfl
  | cons b s ih =>
    rw [find, List.idxOf?_cons, ih]
    simp only [List.singleton_prefix_cons_iff, beq_iff_eq, eq_comm (a := c)]

/-- What stands before the first element of a pattern does not hide the pattern. -/
theorem find_append (h : c ∉ s) : find (c :: pattern) (s ++ (c :: pattern ++ rest)) =
    some s.length := by
  induction s with
  | nil =>
    rw [List.nil_append, List.cons_append, find, if_pos]
    · rfl
    · exact List.cons_prefix_cons.mpr ⟨rfl, List.prefix_append pattern rest⟩
  | cons b s ih =>
    rw [List.mem_cons, not_or] at h
    have hnot : ¬ c :: pattern <+: b :: (s ++ (c :: pattern ++ rest)) := fun hhere ↦
      h.1 (List.cons_prefix_cons.mp hhere).1
    rw [List.cons_append, find, if_neg hnot, ih h.2]
    rfl

end Rules
end RocketMQ.Base
