import RocketMQ.Base.Run

/-!
# Simulation between two step functions

General library: a concrete system simulates an abstract one when each of its steps is matched,
through an abstraction function, by the abstract steps that take effect in it (none, one or
several). Whole runs are then matched too, and what abstract runs keep holds of the concrete
system.
-/

namespace RocketMQ.Base

universe u v w x

variable {σ : Type u} {ε : Type v} {τ : Type w} {α : Type x}

/-- What takes effect along a run, in order. -/
def effects (step : σ → ε → Option σ) (effect : σ → ε → List α) (s : σ) : List ε → List α
  | [] => []
  | e :: es =>
    effect s e ++
      match step s e with
      | none => []
      | some t => effects step effect t es

/-- Each step from a state that meets `Inv` is matched by the abstract steps that take effect. -/
def Simulates (step : σ → ε → Option σ) (Inv : σ → Prop) (astep : τ → α → Option τ)
    (abs : σ → τ) (effect : σ → ε → List α) : Prop :=
  ∀ s e t, Inv s → step s e = some t → runFrom astep (abs s) (effect s e) = some (abs t)

variable {step : σ → ε → Option σ} {Inv : σ → Prop} {astep : τ → α → Option τ} {abs : σ → τ}
  {effect : σ → ε → List α}

/-- A run of one event. -/
theorem runFrom_singleton (s : σ) (e : ε) : runFrom step s [e] = step s e := by
  show (match step s e with | none => none | some t => some t) = step s e
  cases step s e with
  | none => rfl
  | some t => rfl

/-- The effects of a run of at least one event. -/
theorem effects_cons {s t : σ} {e : ε} (h : step s e = some t) (es : List ε) :
    effects step effect s (e :: es) = effect s e ++ effects step effect t es := by
  rw [effects, h]

/-- A queue in a run: when each step takes from its front what `out` says and adds at its end what
`inn` says, everything that was added is taken in order or left. -/
theorem effects_queue {out inn : σ → ε → List α} {queue : σ → List α}
    (hstep : ∀ s e t, step s e = some t → out s e ++ queue t = queue s ++ inn s e) {s t : σ}
    {es : List ε} (hrun : runFrom step s es = some t) :
    effects step out s es ++ queue t = queue s ++ effects step inn s es := by
  induction es generalizing s with
  | nil =>
    rw [runFrom_nil] at hrun
    rw [Option.some.inj hrun, effects, effects, List.nil_append, List.append_nil]
  | cons e es ih =>
    obtain ⟨s', h, hrest⟩ := runFrom_cons_eq_some.mp hrun
    rw [effects_cons h, effects_cons h, List.append_assoc, ih hrest, ← List.append_assoc,
      hstep s e s' h, List.append_assoc]

/-- The same for a store without an order, up to the first step that leaves the states in which its
books are kept. -/
theorem effects_perm {out inn : σ → ε → List α} {held : σ → List α} {P : σ → Prop}
    (hstep : ∀ s e t, step s e = some t → P t →
      P s ∧ (held s ++ inn s e).Perm (out s e ++ held t)) {s t : σ} {es : List ε}
    (hopen : P t) (hrun : runFrom step s es = some t) :
    P s ∧ (held s ++ effects step inn s es).Perm (effects step out s es ++ held t) := by
  induction es generalizing s with
  | nil =>
    rw [runFrom_nil] at hrun
    obtain rfl := Option.some.inj hrun
    exact ⟨hopen, by simp [effects]⟩
  | cons e es ih =>
    obtain ⟨s', h, hrest⟩ := runFrom_cons_eq_some.mp hrun
    obtain ⟨hopen', hrestPerm⟩ := ih hrest
    obtain ⟨hopened, hperm⟩ := hstep s e s' h hopen'
    refine ⟨hopened, ?_⟩
    rw [effects_cons h, effects_cons h, ← List.append_assoc]
    calc (held s ++ inn s e ++ effects step inn s' es).Perm
          (out s e ++ held s' ++ effects step inn s' es) := hperm.append_right _
      _ = out s e ++ (held s' ++ effects step inn s' es) := List.append_assoc ..
      _ |>.Perm (out s e ++ (effects step out s' es ++ held t)) := hrestPerm.append_left _
      _ = out s e ++ effects step out s' es ++ held t := (List.append_assoc ..).symm

/-- A simulation matches whole runs. -/
theorem Simulates.runFrom (hsim : Simulates step Inv astep abs effect)
    (hinv : ∀ s e t, Inv s → step s e = some t → Inv t) {s t : σ} {es : List ε} (hs : Inv s)
    (hrun : runFrom step s es = some t) :
    runFrom astep (abs s) (effects step effect s es) = some (abs t) := by
  induction es generalizing s with
  | nil =>
    rw [runFrom_nil] at hrun
    rw [Option.some.inj hrun, effects, runFrom_nil]
  | cons e es ih =>
    obtain ⟨s', h, hrest⟩ := runFrom_cons_eq_some.mp hrun
    rw [effects_cons h, runFrom_append, hsim s e s' hs h, Option.bind_some]
    exact ih (hinv s e s' hs h) hrest

end RocketMQ.Base
