import Mathlib.Data.List.Infix
import Mathlib.Tactic.Common

/-!
# Runs of a labelled step function

General library: a system is a partial step function `σ → ε → Option σ`, where `none`
says that the event cannot happen in the state. A run is the list of the events that
happened. The rules below carry an invariant along a run, also when only the steps that
meet a side condition keep it, and say when that side condition is the exact one.
-/

namespace RocketMQ.Base

universe u v

variable {σ : Type u} {ε : Type v}

/-- The state after the events of a run, or `none` when one of them could not happen. -/
def runFrom (step : σ → ε → Option σ) (s : σ) : List ε → Option σ
  | [] => some s
  | e :: es =>
    match step s e with
    | none => none
    | some t => runFrom step t es

/-- Every step of the run meets `good` in the state it starts from. -/
def Along (step : σ → ε → Option σ) (good : σ → ε → Prop) (s : σ) : List ε → Prop
  | [] => True
  | e :: es => good s e ∧ ∀ t, step s e = some t → Along step good t es

/-- `t` is one of the states the run passes through, its first and last one included. -/
def Visits (step : σ → ε → Option σ) (s : σ) (es : List ε) (t : σ) : Prop :=
  ∃ pre, pre <+: es ∧ runFrom step s pre = some t

/-- Some event of the run meets `what` in the state it happens in. -/
def Happens (step : σ → ε → Option σ) (what : σ → ε → Prop) (s : σ) (es : List ε) : Prop :=
  ∃ pre e t, pre ++ [e] <+: es ∧ runFrom step s pre = some t ∧ what t e

open Classical in
/-- How many events of the run meet `what` in the state they happen in. -/
noncomputable def tally (step : σ → ε → Option σ) (what : σ → ε → Prop) (s : σ) : List ε → Nat
  | [] => 0
  | e :: es =>
    (if what s e then 1 else 0) +
      match step s e with
      | none => 0
      | some t => tally step what t es

/-- Side conditions are decidable along a run whenever they are in each state. -/
instance Along.decidable (step : σ → ε → Option σ) (good : σ → ε → Prop)
    [∀ s e, Decidable (good s e)] : (s : σ) → (es : List ε) → Decidable (Along step good s es)
  | _, [] => .isTrue trivial
  | s, e :: es =>
    match h : step s e with
    | none => decidable_of_iff (good s e) (by simp [Along, h])
    | some t =>
      have := Along.decidable step good t es
      decidable_of_iff (good s e ∧ Along step good t es) (by simp [Along, h])

section Runs

variable {step : σ → ε → Option σ} {good : σ → ε → Prop} {Inv Safe : σ → Prop}

/-- The empty run stays where it is. -/
@[simp] theorem runFrom_nil (s : σ) : runFrom step s [] = some s := rfl

/-- A run of at least one event is a first step and the run from where it leads. -/
theorem runFrom_cons_eq_some {s t : σ} {e : ε} {es : List ε} :
    runFrom step s (e :: es) = some t ↔
      ∃ s', step s e = some s' ∧ runFrom step s' es = some t := by
  show (match step s e with | none => none | some s' => runFrom step s' es) = some t ↔ _
  cases step s e with
  | none => exact ⟨nofun, fun ⟨_, h, _⟩ ↦ nomatch h⟩
  | some s' => exact ⟨fun h ↦ ⟨s', rfl, h⟩, fun ⟨_, hs', h⟩ ↦ Option.some.inj hs' ▸ h⟩

/-- A run in two parts. -/
theorem runFrom_append (s : σ) (es es' : List ε) :
    runFrom step s (es ++ es') = (runFrom step s es).bind fun t ↦ runFrom step t es' := by
  induction es generalizing s with
  | nil => rfl
  | cons e es ih =>
    rw [List.cons_append, runFrom, runFrom]
    cases step s e with
    | none => rfl
    | some t => exact ih t

/-- Run rule: what every step keeps holds at the end of every run. -/
theorem inv_of_runFrom (hstep : ∀ s e t, Inv s → step s e = some t → Inv t)
    {s t : σ} {es : List ε} (hs : Inv s) (hrun : runFrom step s es = some t) : Inv t := by
  induction es generalizing s with
  | nil =>
    rw [runFrom_nil] at hrun
    exact Option.some.inj hrun ▸ hs
  | cons e es ih =>
    obtain ⟨s', h, hrest⟩ := runFrom_cons_eq_some.mp hrun
    exact ih (hstep s e s' hs h) hrest

/-- Conditional run rule: what every good step keeps holds at the end of every run all of
whose steps are good. -/
theorem inv_of_along (hstep : ∀ s e t, Inv s → good s e → step s e = some t → Inv t)
    {s t : σ} {es : List ε} (hs : Inv s) (hgood : Along step good s es)
    (hrun : runFrom step s es = some t) : Inv t := by
  induction es generalizing s with
  | nil =>
    rw [runFrom_nil] at hrun
    exact Option.some.inj hrun ▸ hs
  | cons e es ih =>
    obtain ⟨s', h, hrest⟩ := runFrom_cons_eq_some.mp hrun
    exact ih (hstep s e s' hs hgood.1 h) (hgood.2 s' h) hrest

/-- A prefix of a run with good steps has good steps. -/
theorem along_initial {s : σ} {pre es : List ε} (hpre : pre <+: es)
    (hgood : Along step good s es) : Along step good s pre := by
  induction pre generalizing s es with
  | nil => trivial
  | cons e pre ih =>
    obtain ⟨rest, rfl⟩ := hpre
    exact ⟨hgood.1, fun t ht ↦ ih ⟨rest, rfl⟩ (hgood.2 t ht)⟩

/-- Events that are good in every state. -/
theorem along_of_forall_mem {es : List ε} (h : ∀ e ∈ es, ∀ s, good s e) (s : σ) :
    Along step good s es := by
  induction es generalizing s with
  | nil => trivial
  | cons e es ih =>
    exact ⟨h e List.mem_cons_self s,
      fun t _ ↦ ih (fun e' he' ↦ h e' (List.mem_cons_of_mem e he')) t⟩

/-- Along a run that keeps an invariant, its steps meet what the invariant and their own side
condition imply. -/
theorem along_of_along {good' : σ → ε → Prop}
    (hstep : ∀ s e t, Inv s → good s e → step s e = some t → Inv t)
    (himp : ∀ s e, Inv s → good s e → good' s e) {s : σ} {es : List ε} (hs : Inv s)
    (hgood : Along step good s es) : Along step good' s es := by
  induction es generalizing s with
  | nil => trivial
  | cons e es ih =>
    exact ⟨himp s e hs hgood.1, fun t ht ↦ ih (hstep s e t hs hgood.1 ht) (hgood.2 t ht)⟩

/-- The run passes through its first state. -/
theorem visits_start (s : σ) (es : List ε) : Visits step s es s :=
  ⟨[], List.nil_prefix, rfl⟩

/-- After its first step a run passes through the states of the rest of the run. -/
theorem visits_cons {s s' t : σ} {e : ε} {es : List ε} (h : step s e = some s')
    (ht : Visits step s' es t) : Visits step s (e :: es) t := by
  obtain ⟨pre, hpre, hrun⟩ := ht
  exact ⟨e :: pre, List.cons_prefix_cons.mpr ⟨rfl, hpre⟩,
    runFrom_cons_eq_some.mpr ⟨s', h, hrun⟩⟩

/-- An invariant of the good steps holds in every state such a run passes through. -/
theorem inv_of_visits (hstep : ∀ s e t, Inv s → good s e → step s e = some t → Inv t)
    {s t : σ} {es : List ε} (hs : Inv s) (hgood : Along step good s es)
    (ht : Visits step s es t) : Inv t := by
  obtain ⟨pre, hpre, hrun⟩ := ht
  exact inv_of_along hstep hs (along_initial hpre hgood) hrun

/-- What a step leaves true exactly when it is good records whether all steps were good. -/
theorem recorded_iff_along (hstep : ∀ s e t, Inv s → step s e = some t → Inv t)
    (hrecord : ∀ s e t, Inv s → step s e = some t → (Safe t ↔ Safe s ∧ good s e))
    {s t : σ} {es : List ε} (hs : Inv s) (hrun : runFrom step s es = some t) :
    Safe t ↔ Safe s ∧ Along step good s es := by
  induction es generalizing s with
  | nil =>
    rw [runFrom_nil] at hrun
    rw [Option.some.inj hrun]
    exact (and_iff_left trivial).symm
  | cons e es ih =>
    obtain ⟨s', h, hrest⟩ := runFrom_cons_eq_some.mp hrun
    rw [ih (hstep s e s' hs h) hrest, hrecord s e s' hs h, and_assoc]
    refine and_congr_right fun _ ↦ and_congr_right fun _ ↦ ⟨fun hall s'' h' ↦ ?_, fun hall ↦ ?_⟩
    · obtain rfl : s' = s'' := Option.some.inj (h.symm.trans h')
      exact hall
    · exact hall s' h

/-- Exact side condition: when good steps keep an invariant that is safe, and every other
step leads out of the safe states at once, a run is safe throughout exactly when all its
steps are good. -/
theorem safe_iff_along (hsafe : ∀ s, Inv s → Safe s)
    (hstep : ∀ s e t, Inv s → good s e → step s e = some t → Inv t)
    (hbad : ∀ s e t, Inv s → ¬ good s e → step s e = some t → ¬ Safe t)
    {s t : σ} {es : List ε} (hs : Inv s) (hrun : runFrom step s es = some t) :
    (∀ x, Visits step s es x → Safe x) ↔ Along step good s es := by
  constructor
  · intro hall
    induction es generalizing s with
    | nil => trivial
    | cons e es ih =>
      obtain ⟨s', h, hrest⟩ := runFrom_cons_eq_some.mp hrun
      have hs' : Safe s' := hall s' (visits_cons h (visits_start s' es))
      have hg : good s e := by
        by_contra hng
        exact hbad s e s' hs hng h hs'
      refine ⟨hg, fun s'' h' ↦ ?_⟩
      obtain rfl : s' = s'' := Option.some.inj (h.symm.trans h')
      exact ih (hstep s e s' hs hg h) hrest fun x hx ↦ hall x (visits_cons h hx)
  · intro hgood x hx
    exact hsafe x (inv_of_visits hstep hs hgood hx)

/-- History rule: what holds of a state and the run that led there, and is kept when the run is
continued by one step, holds at the end of every run. -/
theorem history_of_runFrom {s₀ : σ} {P : List ε → σ → Prop} (hstart : P [] s₀)
    (hstep : ∀ es s e t, runFrom step s₀ es = some s → P es s → step s e = some t →
      P (es ++ [e]) t) {es : List ε} {s : σ} (hrun : runFrom step s₀ es = some s) : P es s := by
  induction es using List.reverseRecOn generalizing s with
  | nil =>
    rw [runFrom_nil] at hrun
    exact Option.some.inj hrun ▸ hstart
  | append_singleton es e ih =>
    rw [runFrom_append] at hrun
    obtain ⟨s', hrun', hlast⟩ := Option.bind_eq_some_iff.mp hrun
    obtain ⟨t, hstep', hnil⟩ := runFrom_cons_eq_some.mp hlast
    rw [runFrom_nil] at hnil
    exact Option.some.inj hnil ▸ hstep es s' e t hrun' (ih hrun') hstep'

variable {what : σ → ε → Prop}

/-- What happens on a run of at least one event happens at once or later. -/
theorem happens_cons {s : σ} {e : ε} {es : List ε} : Happens step what s (e :: es) ↔
    what s e ∨ ∃ t, step s e = some t ∧ Happens step what t es := by
  constructor
  · rintro ⟨pre, e', u, hpre, hrun, hwhat⟩
    cases pre with
    | nil =>
      rw [runFrom_nil] at hrun
      obtain rfl := Option.some.inj hrun
      exact .inl ((List.cons_prefix_cons.mp hpre).1 ▸ hwhat)
    | cons e₀ pre =>
      obtain ⟨rfl, hrest⟩ := List.cons_prefix_cons.mp hpre
      obtain ⟨t, hstep, hrun'⟩ := runFrom_cons_eq_some.mp hrun
      exact .inr ⟨t, hstep, pre, e', u, hrest, hrun', hwhat⟩
  · rintro (hwhat | ⟨t, hstep, pre, e', u, hpre, hrun, hwhat⟩)
    · exact ⟨[], e, s, ⟨es, rfl⟩, rfl, hwhat⟩
    · exact ⟨e :: pre, e', u, List.cons_prefix_cons.mpr ⟨rfl, hpre⟩,
        runFrom_cons_eq_some.mpr ⟨t, hstep, hrun⟩, hwhat⟩

/-- Either it happens, or every step avoids it. -/
theorem happens_iff_not_along {s : σ} {es : List ε} :
    Happens step what s es ↔ ¬ Along step (fun s e ↦ ¬ what s e) s es := by
  induction es generalizing s with
  | nil =>
    refine iff_of_false ?_ (not_not_intro trivial)
    rintro ⟨pre, e, t, hpre, -⟩
    exact absurd (List.prefix_nil.mp hpre) (List.append_ne_nil_of_right_ne_nil _ nofun)
  | cons e es ih =>
    simp only [happens_cons, Along, ih]
    grind

/-- What an event that happens brings about, and every good step keeps, holds at the end. -/
theorem inv_of_happens (hset : ∀ s e t, good s e → what s e → step s e = some t → Inv t)
    (hkeep : ∀ s e t, Inv s → good s e → step s e = some t → Inv t) {s t : σ} {es : List ε}
    (hgood : Along step good s es) (hwhat : Happens step what s es)
    (hrun : runFrom step s es = some t) : Inv t := by
  induction es generalizing s with
  | nil =>
    obtain ⟨pre, e, u, hpre, -⟩ := hwhat
    exact absurd (List.prefix_nil.mp hpre) (List.append_ne_nil_of_right_ne_nil _ nofun)
  | cons e es ih =>
    obtain ⟨s', h, hrest⟩ := runFrom_cons_eq_some.mp hrun
    rcases happens_cons.mp hwhat with hnow | ⟨u, hu, hlater⟩
    · exact inv_of_along hkeep (hset s e s' hgood.1 hnow h) (hgood.2 s' h) hrest
    · obtain rfl : s' = u := Option.some.inj (h.symm.trans hu)
      exact ih (hgood.2 s' h) hlater hrest

/-- Counting rule: when a step that is counted on the left lowers a measure by one, and only a
step counted on the right raises it, by one, the left count is at most the right one. -/
theorem tally_add_le {left right : σ → ε → Prop} (m : σ → Nat)
    (hkeep : ∀ s e t, Inv s → step s e = some t → Inv t) (hle : ∀ s e t, Inv s →
      step s e = some t → tally step left s [e] + m t ≤ tally step right s [e] + m s)
    {s t : σ} {es : List ε} (hs : Inv s) (hrun : runFrom step s es = some t) :
    tally step left s es + m t ≤ tally step right s es + m s := by
  have hsplit (what : σ → ε → Prop) {s s' : σ} {e : ε} (es : List ε) (h : step s e = some s') :
      tally step what s (e :: es) = tally step what s [e] + tally step what s' es := by
    simp only [tally, h, Nat.add_zero]
  induction es generalizing s with
  | nil =>
    rw [runFrom_nil] at hrun
    rw [Option.some.inj hrun, tally, tally]
  | cons e es ih =>
    obtain ⟨s', h, hrest⟩ := runFrom_cons_eq_some.mp hrun
    have hfirst := hle s e s' hs h
    have hlater := ih (hkeep s e s' hs h) hrest
    rw [hsplit left es h, hsplit right es h]
    omega

/-- Variant rule: when a step of the wanted kind lowers a measure wherever it is not zero, some
run of such steps leads to where it is. -/
theorem exists_run_of_variant {wanted : ε → Prop} (m : σ → Nat)
    (hstep : ∀ s, Inv s → m s ≠ 0 →
      ∃ e t, wanted e ∧ step s e = some t ∧ Inv t ∧ m t < m s) {s : σ} (hs : Inv s) :
    ∃ es t, (∀ e ∈ es, wanted e) ∧ runFrom step s es = some t ∧ Inv t ∧ m t = 0 := by
  induction hm : m s using Nat.strongRecOn generalizing s with
  | ind n ih =>
    by_cases hzero : m s = 0
    · exact ⟨[], s, by simp, rfl, hs, hzero⟩
    · obtain ⟨e, s', hwanted, h, hs', hlt⟩ := hstep s hs hzero
      obtain ⟨es, t, hall, hrun, ht⟩ := ih (m s') (hm ▸ hlt) hs' rfl
      refine ⟨e :: es, t, List.forall_mem_cons.mpr ⟨hwanted, hall⟩, ?_, ht⟩
      exact runFrom_cons_eq_some.mpr ⟨s', h, hrun⟩

end Runs
end RocketMQ.Base
