import Mathlib.Tactic.Common

/-!
# Loops that may not end

General library: a loop is given by one pass of its body, which either goes on with a new
state or leaves with a result. `loop` makes a bounded number of passes; a loop yields a result
when some number of passes is enough. A variant shows that a loop ends, a set of states that
the body never leaves shows that it does not.
-/

namespace RocketMQ.Base

universe u v

/-- What one pass of a loop body comes to. -/
inductive Pass (σ : Type u) (ρ : Type v) where
  | again (s : σ)
  | leave (r : ρ)

variable {σ : Type u} {ρ : Type v}

/-- The pass goes on with a state of one kind, or leaves with a result of another. -/
def Pass.Meets (Again : σ → Prop) (Leave : ρ → Prop) : Pass σ ρ → Prop
  | .again s => Again s
  | .leave r => Leave r

/-- At most `passes` passes; `none` when the loop has not left by then. -/
def loop (body : σ → Pass σ ρ) : Nat → σ → Option ρ
  | 0, _ => none
  | passes + 1, s =>
    match body s with
    | .again t => loop body passes t
    | .leave r => some r

/-- The loop leaves with `r`. -/
def Yields (body : σ → Pass σ ρ) (s : σ) (r : ρ) : Prop := ∃ passes, loop body passes s = some r

/-- The loop ends. -/
def Ends (body : σ → Pass σ ρ) (s : σ) : Prop := ∃ r, Yields body s r

section Rules

variable {body : σ → Pass σ ρ} {s t : σ} {r r' : ρ}

theorem loop_of_again (passes : Nat) (h : body s = .again t) :
    loop body (passes + 1) s = loop body passes t := by
  rw [loop, h]

theorem loop_of_leave (passes : Nat) (h : body s = .leave r) :
    loop body (passes + 1) s = some r := by
  rw [loop, h]

/-- A pass that leaves gives the result of the loop. -/
theorem yields_of_leave (h : body s = .leave r) : Yields body s r :=
  ⟨1, loop_of_leave 0 h⟩

/-- After a pass that goes on, the rest of the loop gives the result. -/
theorem yields_iff_of_again (h : body s = .again t) : Yields body s r ↔ Yields body t r := by
  constructor
  · rintro ⟨passes, hr⟩
    cases passes with
    | zero => cases hr
    | succ passes =>
      rw [loop_of_again passes h] at hr
      exact ⟨passes, hr⟩
  · rintro ⟨passes, hr⟩
    exact ⟨passes + 1, (loop_of_again passes h).trans hr⟩

/-- More passes give the same result. -/
theorem loop_mono {m n : Nat} (hmn : m ≤ n) (h : loop body m s = some r) :
    loop body n s = some r := by
  induction m generalizing n s with
  | zero => cases h
  | succ m ih =>
    obtain ⟨n, rfl⟩ : ∃ k, n = k + 1 := ⟨n - 1, by omega⟩
    cases hb : body s with
    | leave _ =>
      rw [loop_of_leave _ hb] at h ⊢
      exact h
    | again t =>
      rw [loop_of_again _ hb] at h ⊢
      exact ih (by omega) h

/-- A loop has one result. -/
theorem yields_unique (h : Yields body s r) (h' : Yields body s r') : r = r' := by
  obtain ⟨m, hm⟩ := h
  obtain ⟨n, hn⟩ := h'
  have h₁ := loop_mono (Nat.le_max_left m n) hm
  have h₂ := loop_mono (Nat.le_max_right m n) hn
  exact Option.some.inj (h₁.symm.trans h₂)

/-- It is the only result of a loop that its first pass leaves. -/
theorem yields_iff_of_leave (h : body s = .leave r) : Yields body s r' ↔ r' = r :=
  ⟨fun hr ↦ yields_unique hr (yields_of_leave h), fun hr ↦ hr ▸ yields_of_leave h⟩

/-- Invariant rule: when every pass keeps the invariant or leaves with a result as wanted, so
does the loop, if it leaves at all. -/
theorem post_of_yields (Inv : σ → Prop) (Post : ρ → Prop)
    (hpass : ∀ s, Inv s → (body s).Meets Inv Post)
    (hs : Inv s) (hr : Yields body s r) : Post r := by
  obtain ⟨passes, hr⟩ := hr
  induction passes generalizing s with
  | zero => cases hr
  | succ passes ih =>
    have hp := hpass s hs
    cases hb : body s with
    | leave r' =>
      rw [loop_of_leave passes hb] at hr
      rw [hb, Option.some.inj hr] at hp
      exact hp
    | again t =>
      rw [loop_of_again passes hb] at hr
      rw [hb] at hp
      exact ih hp hr

/-- Variant rule: when every pass keeps the invariant and lowers a measure, or leaves with a
result as wanted, the loop leaves with such a result, after as many passes as the measure
says and one more. -/
theorem loop_of_variant (Inv : σ → Prop) (Post : ρ → Prop) (measure : σ → Nat)
    (hpass : ∀ s, Inv s → (body s).Meets (fun t ↦ Inv t ∧ measure t < measure s) Post)
    (hs : Inv s) : ∃ r, loop body (measure s + 1) s = some r ∧ Post r := by
  induction hm : measure s using Nat.strongRecOn generalizing s with
  | ind m ih =>
    subst hm
    have hp := hpass s hs
    cases hb : body s with
    | leave r =>
      rw [hb] at hp
      exact ⟨r, loop_of_leave _ hb, hp⟩
    | again t =>
      rw [hb] at hp
      obtain ⟨r, hr, hpost⟩ := ih (measure t) hp.2 hp.1 rfl
      rw [loop_of_again _ hb]
      exact ⟨r, loop_mono hp.2 hr, hpost⟩

/-- Divergence rule: a loop does not end in states that every pass leads back into. -/
theorem not_ends_of_stuck (Stuck : σ → Prop)
    (hpass : ∀ s, Stuck s → ∃ t, body s = .again t ∧ Stuck t) (hs : Stuck s) :
    ¬ Ends body s := by
  rintro ⟨r, passes, hr⟩
  induction passes generalizing s with
  | zero => cases hr
  | succ passes ih =>
    obtain ⟨t, hb, ht⟩ := hpass s hs
    rw [loop_of_again passes hb] at hr
    exact ih ht hr

end Rules
end RocketMQ.Base
