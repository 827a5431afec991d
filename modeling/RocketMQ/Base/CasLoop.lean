import Mathlib.Order.Basic
import RocketMQ.Base.Run

/-!
# Compare-and-swap loops

General library: any number of calls change one value. A call reads the value, computes from it
what to put there or gives up, and swaps that in if the value is still the one it read; if not, it
starts again. Calls begin at any time, and their reads and swaps interleave in any order.

Where every new value is above the one it replaces, a swap fails only because another call raised
the value since the read, and no call that has returned would change the value any more.
-/

namespace RocketMQ.Base.CasLoop

universe u v

/-- Where a call stands: about to read, about to swap in what it computed, or returned, with
whether its swap succeeded. -/
inductive Point (α : Type u) where
  | read
  | swap (current new : α)
  | returned (swapped : Bool)

structure Call (β : Type v) (α : Type u) where
  arg : β
  point : Point α

/-- The value, and the calls in the order in which they were made. -/
structure State (β : Type v) (α : Type u) where
  value : α
  calls : List (Call β α)

/-- A call is made, or the call made at some place in the order reads or swaps. -/
inductive Event (β : Type v) where
  | call (arg : β)
  | read (i : Nat)
  | swap (i : Nat)

variable {β : Type v} {α : Type u}

/-- The call whose read or swap an event is. -/
def Event.owner : Event β → Option Nat
  | .call _ => none
  | .read i => some i
  | .swap i => some i

/-- Before the first call. -/
def start (v : α) : State β α := ⟨v, []⟩

namespace State

/-- Where the call made at a place in the order stands. -/
def point (s : State β α) (i : Nat) : Option (Point α) := s.calls[i]?.map Call.point

theorem point_of_getElem? {s : State β α} {i : Nat} {c : Call β α} (h : s.calls[i]? = some c) :
    s.point i = some c.point := by
  rw [point, h, Option.map_some]

/-- A call goes on to another point. -/
def goTo (s : State β α) (i : Nat) (p : Point α) : State β α :=
  { s with calls := s.calls.modify i fun c ↦ { c with point := p } }

@[simp] theorem value_goTo (s : State β α) (i : Nat) (p : Point α) :
    (s.goTo i p).value = s.value := rfl

theorem point_goTo_self {s : State β α} {i : Nat} {q : Point α} (h : s.point i = some q)
    (p : Point α) : (s.goTo i p).point i = some p := by
  obtain ⟨c, hc, -⟩ := Option.map_eq_some_iff.mp h
  simp [point, goTo, hc]

theorem point_goTo_of_ne (s : State β α) {i j : Nat} (hij : j ≠ i) (p : Point α) :
    (s.goTo j p).point i = s.point i := by
  simp [point, goTo, hij]

/-- A call after one went on is an earlier one, or the one that went on. -/
theorem mem_goTo {s : State β α} {i : Nat} {p : Point α} {c : Call β α}
    (h : c ∈ (s.goTo i p).calls) :
    c ∈ s.calls ∨ ∃ c₀, s.calls[i]? = some c₀ ∧ c = { c₀ with point := p } := by
  obtain ⟨j, hj⟩ := List.mem_iff_getElem?.mp h
  rw [goTo, List.getElem?_modify] at hj
  obtain ⟨c₀, hc₀, rfl⟩ := Option.map_eq_some_iff.mp hj
  by_cases hij : i = j
  · subst hij
    exact .inr ⟨c₀, hc₀, by simp⟩
  · exact .inl (by simpa [hij] using List.mem_of_getElem? hc₀)

/-- Going on keeps the arguments. -/
theorem map_arg_goTo (s : State β α) (i : Nat) (p : Point α) :
    (s.goTo i p).calls.map Call.arg = s.calls.map Call.arg := by
  apply List.ext_getElem?
  intro j
  by_cases hij : i = j
  · subst hij
    cases hc : s.calls[i]? <;> simp [goTo, hc]
  · simp [goTo, hij]

end State

section Steps

variable (next : β → α → Option α)

/-- What a call does with the value that it has read. -/
def afterRead (arg : β) (current : α) : Point α :=
  match next arg current with
  | none => .returned false
  | some new => .swap current new

/-- One read, one swap, or a new call. -/
def step [DecidableEq α] (s : State β α) : Event β → Option (State β α)
  | .call arg => some { s with calls := s.calls ++ [⟨arg, .read⟩] }
  | .read i =>
    match s.calls[i]? with
    | some ⟨arg, .read⟩ => some (s.goTo i (afterRead next arg s.value))
    | _ => none
  | .swap i =>
    match s.calls[i]? with
    | some ⟨_, .swap current new⟩ =>
      if s.value = current then some (({ s with value := new } : State β α).goTo i (.returned true))
      else some (s.goTo i .read)
    | _ => none

/-- What a step can do. -/
inductive Step (s : State β α) : Event β → State β α → Prop where
  | call (arg : β) : Step s (.call arg) { s with calls := s.calls ++ [⟨arg, .read⟩] }
  | read {i : Nat} {arg : β} (h : s.calls[i]? = some ⟨arg, .read⟩) :
    Step s (.read i) (s.goTo i (afterRead next arg s.value))
  | swapped {i : Nat} {arg : β} {new : α} (h : s.calls[i]? = some ⟨arg, .swap s.value new⟩) :
    Step s (.swap i) (({ s with value := new } : State β α).goTo i (.returned true))
  | missed {i : Nat} {arg : β} {current new : α} (h : s.calls[i]? = some ⟨arg, .swap current new⟩)
    (hne : s.value ≠ current) : Step s (.swap i) (s.goTo i .read)

variable {next}

theorem step_cases [DecidableEq α] {s t : State β α} {e : Event β} (h : step next s e = some t) :
    Step next s e t := by
  cases e with
  | call arg =>
    obtain rfl := Option.some.inj h
    exact .call arg
  | read i =>
    rw [step] at h
    split at h
    next arg hcall =>
      obtain rfl := Option.some.inj h
      exact .read hcall
    · cases h
  | swap i =>
    rw [step] at h
    split at h
    next arg current new hcall =>
      split at h
      next heq =>
        obtain rfl := Option.some.inj h
        exact .swapped (heq ▸ hcall)
      next hne =>
        obtain rfl := Option.some.inj h
        exact .missed hcall hne
    · cases h

variable (next) in
/-- What a read or swap of the call at a place is for that call. -/
inductive OwnStep (i : Nat) (s t : State β α) : Event β → Prop where
  | read (arg : β) (before : s.point i = some .read)
    (after : t.point i = some (afterRead next arg s.value)) (value : t.value = s.value) :
    OwnStep i s t (.read i)
  | swapped (new : α) (before : s.point i = some (.swap s.value new))
    (after : t.point i = some (.returned true)) (value : t.value = new) : OwnStep i s t (.swap i)
  | missed (current new : α) (before : s.point i = some (.swap current new))
    (hne : s.value ≠ current) (after : t.point i = some .read) (value : t.value = s.value) :
    OwnStep i s t (.swap i)

theorem own_step [DecidableEq α] {s t : State β α} {e : Event β} {i : Nat}
    (h : step next s e = some t) (howner : e.owner = some i) : OwnStep next i s t e := by
  cases step_cases h with
  | call arg => cases howner
  | @read j arg hcall =>
    obtain rfl := Option.some.inj howner
    have hpoint := State.point_of_getElem? hcall
    exact .read arg hpoint (State.point_goTo_self hpoint _) rfl
  | @swapped j arg new hcall =>
    obtain rfl := Option.some.inj howner
    have hpoint := State.point_of_getElem? hcall
    exact .swapped new hpoint (State.point_goTo_self (s := { s with value := new }) hpoint _) rfl
  | @missed j arg current new hcall hne =>
    obtain rfl := Option.some.inj howner
    have hpoint := State.point_of_getElem? hcall
    exact .missed current new hpoint hne (State.point_goTo_self hpoint _) rfl

/-- Only its own reads and swaps move a call that is about to swap or has returned. -/
theorem point_of_owner_ne [DecidableEq α] {s t : State β α} {e : Event β} {i : Nat}
    (h : step next s e = some t) (howner : e.owner ≠ some i) {p : Point α} (hp : p ≠ .read) :
    t.point i = some p ↔ s.point i = some p := by
  cases step_cases h with
  | call arg =>
    simp only [State.point]
    rcases lt_trichotomy i s.calls.length with hlt | heq | hgt
    · rw [List.getElem?_append_left hlt]
    · subst heq
      simp [hp.symm]
    · rw [List.getElem?_eq_none hgt.le, List.getElem?_eq_none (by simp; omega)]
  | @read j arg hcall =>
    have hji : j ≠ i := fun heq ↦ howner (congrArg some heq)
    rw [State.point_goTo_of_ne s hji]
  | @swapped j arg new hcall =>
    have hji : j ≠ i := fun heq ↦ howner (congrArg some heq)
    rw [State.point_goTo_of_ne _ hji]
    rfl
  | @missed j arg current new hcall hne =>
    have hji : j ≠ i := fun heq ↦ howner (congrArg some heq)
    rw [State.point_goTo_of_ne s hji]

end Steps

/-- What the library asks of a call: it puts a larger value, and one that it leaves alone it would
leave alone at every larger value and once its own value is in place. -/
structure Raising [Preorder α] (next : β → α → Option α) : Prop where
  lt : ∀ {arg v w}, next arg v = some w → v < w
  done : ∀ {arg v w}, next arg v = some w → next arg w = none
  done_of_le : ∀ {arg v w}, next arg v = none → v ≤ w → next arg w = none

section Soundness

variable [PartialOrder α] {next : β → α → Option α}

variable (next) in
/-- What holds of every call: one about to swap has read a value not above the present one and
swaps in what it computed from it; one that has returned would leave the value alone. -/
structure Sound (s : State β α) : Prop where
  swap : ∀ c ∈ s.calls, ∀ current new, c.point = .swap current new →
    next c.arg current = some new ∧ current ≤ s.value
  returned : ∀ c ∈ s.calls, ∀ b, c.point = .returned b → next c.arg s.value = none

theorem sound_start (v : α) : Sound next (start v) := ⟨nofun, nofun⟩

/-- A swap that succeeds raises the value. -/
theorem Sound.lt_of_swap (hnext : Raising next) {s : State β α} (hs : Sound next s) {i : Nat}
    {arg : β} {new : α} (h : s.calls[i]? = some ⟨arg, .swap s.value new⟩) :
    next arg s.value = some new ∧ s.value < new := by
  have hcomputed := (hs.swap _ (List.mem_of_getElem? h) _ _ rfl).1
  exact ⟨hcomputed, hnext.lt hcomputed⟩

/-- A larger value keeps what holds of the calls. -/
theorem Sound.raise (hnext : Raising next) {s : State β α} (hs : Sound next s) {v : α}
    (hv : s.value ≤ v) : Sound next { s with value := v } :=
  ⟨fun c hc current new hp ↦ (hs.swap c hc current new hp).imp_right fun hle ↦ hle.trans hv,
    fun c hc b hp ↦ hnext.done_of_le (hs.returned c hc b hp) hv⟩

/-- One call goes on to a point that suits it. -/
theorem Sound.goTo {s : State β α} (hs : Sound next s) {i : Nat} {c₀ : Call β α} {p : Point α}
    (hcall : s.calls[i]? = some c₀)
    (hswap : ∀ current new, p = .swap current new →
      next c₀.arg current = some new ∧ current ≤ s.value)
    (hreturned : ∀ b, p = .returned b → next c₀.arg s.value = none) : Sound next (s.goTo i p) := by
  constructor
  · intro c hc current new hp
    rcases State.mem_goTo hc with hold | ⟨c₁, hc₁, rfl⟩
    · exact hs.swap c hold current new hp
    · obtain rfl := Option.some.inj (hcall.symm.trans hc₁)
      exact hswap current new hp
  · intro c hc b hp
    rcases State.mem_goTo hc with hold | ⟨c₁, hc₁, rfl⟩
    · exact hs.returned c hold b hp
    · obtain rfl := Option.some.inj (hcall.symm.trans hc₁)
      exact hreturned b hp

end Soundness

section Runs

variable [PartialOrder α] [DecidableEq α] {next : β → α → Option α}

variable (next) in
/-- The swap of a call raises the value. -/
def Raises (i : Nat) (s : State β α) (e : Event β) : Prop :=
  e = .swap i ∧ ∃ t, step next s e = some t ∧ s.value < t.value

/-- The value is not the one any more with which the call is about to compare it. -/
def Stale (i : Nat) (s : State β α) : Prop :=
  ∃ current new, s.point i = some (.swap current new) ∧ s.value ≠ current

theorem sound_step (hnext : Raising next) (s : State β α) (e : Event β) (t : State β α)
    (hs : Sound next s) (h : step next s e = some t) : Sound next t := by
  cases step_cases h with
  | call arg =>
    constructor
    · intro c hc current new hp
      rcases List.mem_append.mp hc with hold | hnew
      · exact hs.swap c hold current new hp
      · obtain rfl := List.mem_singleton.mp hnew
        cases hp
    · intro c hc b hp
      rcases List.mem_append.mp hc with hold | hnew
      · exact hs.returned c hold b hp
      · obtain rfl := List.mem_singleton.mp hnew
        cases hp
  | read hcall =>
    refine hs.goTo hcall (fun current new hp ↦ ?_) fun b hp ↦ ?_
    · rw [afterRead] at hp
      split at hp
      · cases hp
      next hcomputed =>
        cases hp
        exact ⟨hcomputed, le_rfl⟩
    · rw [afterRead] at hp
      split at hp
      next hnone => exact hnone
      · cases hp
  | swapped hcall =>
    obtain ⟨hcomputed, hlt⟩ := hs.lt_of_swap hnext hcall
    exact (hs.raise hnext hlt.le).goTo hcall nofun fun _ _ ↦ hnext.done hcomputed
  | missed hcall hne => exact hs.goTo hcall nofun nofun

/-- The value never decreases in a step. -/
theorem Sound.value_le_of_step (hnext : Raising next) {s t : State β α} (hs : Sound next s)
    {e : Event β} (h : step next s e = some t) : s.value ≤ t.value := by
  cases step_cases h with
  | call arg => exact le_rfl
  | read hcall => exact le_rfl
  | swapped hcall => exact (hs.lt_of_swap hnext hcall).2.le
  | missed hcall hne => exact le_rfl

/-- The value never decreases. -/
theorem Sound.value_le (hnext : Raising next) {s t : State β α} {es : List (Event β)}
    (hs : Sound next s) (hrun : runFrom (step next) s es = some t) : s.value ≤ t.value := by
  have hkeep (x : State β α) (e : Event β) (y : State β α) (hx : Sound next x ∧ s.value ≤ x.value)
      (h : step next x e = some y) : Sound next y ∧ s.value ≤ y.value :=
    ⟨sound_step hnext x e y hx.1 h, hx.2.trans (hx.1.value_le_of_step hnext h)⟩
  exact (inv_of_runFrom hkeep ⟨hs, le_rfl⟩ hrun).2

/-- A step that changes the value is the swap of a call that raises it. -/
theorem Sound.exists_raises (hnext : Raising next) {s t : State β α} (hs : Sound next s)
    {e : Event β} (h : step next s e = some t) (hne : t.value ≠ s.value) :
    ∃ i, Raises next i s e := by
  cases step_cases h with
  | call arg => exact absurd rfl hne
  | read hcall => exact absurd rfl hne
  | @swapped i arg new hcall => exact ⟨i, rfl, _, h, (hs.lt_of_swap hnext hcall).2⟩
  | missed hcall hne' => exact absurd rfl hne

/-- When the value has changed, a swap has raised it in between. -/
theorem Sound.happens_raises (hnext : Raising next) {s t : State β α} (hs : Sound next s)
    {es : List (Event β)} (hrun : runFrom (step next) s es = some t) (hne : t.value ≠ s.value) :
    Happens (step next) (fun s e ↦ ∃ i, Raises next i s e) s es := by
  refine happens_iff_not_along.mpr fun hnone ↦ hne ?_
  have hkeep (x : State β α) (e : Event β) (y : State β α)
      (hx : Sound next x ∧ x.value = s.value) (hraise : ¬ ∃ i, Raises next i x e)
      (h : step next x e = some y) : Sound next y ∧ y.value = s.value := by
    refine ⟨sound_step hnext x e y hx.1 h, ?_⟩
    by_contra hchanged
    rw [← hx.2] at hchanged
    exact hraise (hx.1.exists_raises hnext h hchanged)
  exact (inv_of_along hkeep ⟨hs, rfl⟩ hnone hrun).2

/-- The step by which a call returns true is the one by which it raises the value. -/
theorem Sound.returned_true_step (hnext : Raising next) {s t : State β α} (hs : Sound next s)
    {e : Event β} (h : step next s e = some t) (i : Nat) : t.point i = some (.returned true) ↔
      s.point i = some (.returned true) ∨ Raises next i s e := by
  have hraises : Raises next i s e ↔ e = .swap i ∧ s.value < t.value := by
    simp only [Raises, h, Option.some.injEq, exists_eq_left']
  rw [hraises]
  by_cases howner : e.owner = some i
  · cases own_step h howner with
    | read arg before after value =>
      simp only [before, after, afterRead]
      split <;> simp
    | swapped new before after value =>
      obtain ⟨c, hc, hpoint⟩ := Option.map_eq_some_iff.mp before
      obtain ⟨arg, point⟩ := c
      subst hpoint
      exact iff_of_true after (.inr ⟨rfl, value ▸ (hs.lt_of_swap hnext hc).2⟩)
    | missed current new before hne after value => simp [before, after, value]
  · have hraise : ¬ (e = .swap i ∧ s.value < t.value) := fun h ↦ howner (h.1 ▸ rfl)
    rw [point_of_owner_ne h howner (p := .returned true) (by simp), or_iff_left hraise]

/-- A call has returned true exactly when its own swap has raised the value. -/
theorem returned_true_iff (hnext : Raising next) {v : α} {es : List (Event β)} {s : State β α}
    (hrun : runFrom (step next) (start v) es = some s) (i : Nat) :
    s.point i = some (.returned true) ↔ Happens (step next) (Raises next i) (start v) es := by
  have hrecord (s : State β α) (e : Event β) (t : State β α) (hs : Sound next s)
      (h : step next s e = some t) : ¬ t.point i = some (.returned true) ↔
        ¬ s.point i = some (.returned true) ∧ ¬ Raises next i s e := by
    rw [hs.returned_true_step hnext h, not_or]
  have hnot := recorded_iff_along (sound_step hnext) hrecord (sound_start v) hrun
  rw [and_iff_right (by simp [start, State.point])] at hnot
  rw [happens_iff_not_along, ← hnot, not_not]

omit [PartialOrder α] in
/-- A call about to swap compares the value with the one it read last. -/
theorem last_read {v : α} {es : List (Event β)} {s : State β α}
    (hrun : runFrom (step next) (start v) es = some s) {i : Nat} {current new : α}
    (hpoint : s.point i = some (.swap current new)) :
    ∃ pre mid u, es = pre ++ .read i :: mid ∧ (∀ e ∈ mid, e.owner ≠ some i) ∧
      runFrom (step next) (start v) (pre ++ [.read i]) = some u ∧
      runFrom (step next) u mid = some s ∧ u.value = current := by
  revert hpoint
  refine history_of_runFrom (P := fun es s ↦ s.point i = some (.swap current new) →
    ∃ pre mid u, es = pre ++ .read i :: mid ∧ (∀ e ∈ mid, e.owner ≠ some i) ∧
      runFrom (step next) (start v) (pre ++ [.read i]) = some u ∧
      runFrom (step next) u mid = some s ∧ u.value = current) ?_ ?_ hrun
  · intro hpoint
    simp [start, State.point] at hpoint
  · intro es s e t hrun ih h hpoint
    by_cases howner : e.owner = some i
    · cases own_step h howner with
      | read arg before after value =>
        -- the read itself is the last one
        refine ⟨es, [], t, rfl, nofun, ?_, rfl, ?_⟩
        · simp [runFrom_append, hrun, runFrom, h]
        · rw [hpoint, afterRead] at after
          split at after
          · cases after
          · cases after
            exact value
      | swapped new' before after value =>
        rw [hpoint] at after
        cases after
      | missed current' new' before hne after value =>
        rw [hpoint] at after
        cases after
    · rw [point_of_owner_ne h howner (by simp)] at hpoint
      obtain ⟨pre, mid, u, rfl, hmid, hread, hrest, hvalue⟩ := ih hpoint
      refine ⟨pre, mid ++ [e], u, by simp, fun e' he' ↦ ?_, hread, ?_, hvalue⟩
      · rcases List.mem_append.mp he' with hold | hnew
        · exact hmid e' hold
        · exact List.mem_singleton.mp hnew ▸ howner
      · simp [runFrom_append, hrest, runFrom, h]

/-- A call whose swap will fail has read the value before another call raised it. -/
theorem Stale.raised_since_read (hnext : Raising next) {v : α} {es : List (Event β)}
    {s : State β α} (hrun : runFrom (step next) (start v) es = some s) {i : Nat}
    (h : Stale i s) : ∃ pre mid u, es = pre ++ .read i :: mid ∧ (∀ e ∈ mid, e.owner ≠ some i) ∧
      runFrom (step next) (start v) (pre ++ [.read i]) = some u ∧
      Happens (step next) (fun s e ↦ ∃ j, j ≠ i ∧ Raises next j s e) u mid := by
  obtain ⟨current, new, hpoint, hne⟩ := h
  obtain ⟨pre, mid, u, hes, howner, hread, hmid, rfl⟩ := last_read hrun hpoint
  have hsound := inv_of_runFrom (sound_step hnext) (sound_start v) hread
  obtain ⟨pre', e, t, hpre', hrun', j, hraise⟩ := hsound.happens_raises hnext hmid hne
  refine ⟨pre, mid, u, hes, howner, hread, pre', e, t, hpre', hrun', j, ?_, hraise⟩
  rintro rfl
  have hmem : e ∈ mid := hpre'.subset (List.mem_append_right _ List.mem_cons_self)
  exact howner e hmem (hraise.1 ▸ rfl)

/-- The swap of a call fails. -/
def Misses (i : Nat) (s : State β α) (e : Event β) : Prop := e = .swap i ∧ Stale i s

/-- A call becomes stale only by another's raise. -/
theorem Sound.stale_step (hnext : Raising next) {s t : State β α} (hs : Sound next s)
    {e : Event β} (h : step next s e = some t) {i : Nat} (ht : Stale i t) :
    ¬ Misses i s e ∧ (Stale i s ∨ ∃ j, j ≠ i ∧ Raises next j s e) := by
  obtain ⟨current, new, hpoint, hne⟩ := ht
  by_cases howner : e.owner = some i
  · cases own_step h howner with
    | read arg before after value =>
      rw [hpoint, afterRead] at after
      split at after
      · cases after
      · cases after
        exact absurd value hne
    | swapped new' before after value =>
      rw [hpoint] at after
      cases after
    | missed current' new' before hne' after value =>
      rw [hpoint] at after
      cases after
  · refine ⟨fun hmiss ↦ howner (hmiss.1 ▸ rfl), ?_⟩
    rw [point_of_owner_ne h howner (by simp)] at hpoint
    by_cases hvalue : t.value = s.value
    · exact .inl ⟨current, new, hpoint, hvalue ▸ hne⟩
    · obtain ⟨j, hraise⟩ := hs.exists_raises hnext h hvalue
      refine .inr ⟨j, ?_, hraise⟩
      rintro rfl
      exact howner (hraise.1 ▸ rfl)

/-- A call fails at most as many swaps as there are raises by others: when it is stale it has
one failure left for the raise that made it so. -/
theorem misses_le_raises (hnext : Raising next) {v : α} {es : List (Event β)} {s : State β α}
    (hrun : runFrom (step next) (start v) es = some s) (i : Nat) :
    tally (step next) (Misses i) (start v) es ≤
      tally (step next) (fun s e ↦ ∃ j, j ≠ i ∧ Raises next j s e) (start v) es := by
  classical
  have hstart : ¬ Stale i (start v : State β α) := by
    rintro ⟨current, new, hpoint, -⟩
    simp [start, State.point] at hpoint
  have hstep (s : State β α) (e : Event β) (t : State β α) (hs : Sound next s)
      (h : step next s e = some t) :
      tally (step next) (Misses i) s [e] + (if Stale i t then 1 else 0) ≤
        tally (step next) (fun s e ↦ ∃ j, j ≠ i ∧ Raises next j s e) s [e] +
          (if Stale i s then 1 else 0) := by
    have hstale : Stale i t → ¬ Misses i s e ∧ (Stale i s ∨ ∃ j, j ≠ i ∧ Raises next j s e) :=
      fun ht ↦ hs.stale_step hnext h ht
    have hmiss : Misses i s e → Stale i s := And.right
    simp only [tally, h]
    grind
  have hcount := tally_add_le (fun s ↦ if Stale i s then 1 else 0) (sound_step hnext) hstep
    (sound_start v) hrun
  rw [if_neg hstart] at hcount
  exact (Nat.le_add_right _ _).trans hcount

omit [PartialOrder α] in
/-- Calls are added and their arguments stay. -/
theorem args_subset_of_step {s t : State β α} {e : Event β} (h : step next s e = some t) :
    s.calls.map Call.arg ⊆ t.calls.map Call.arg := by
  cases step_cases h with
  | call arg =>
    rw [List.map_append]
    exact List.subset_append_left _ _
  | read hcall =>
    rw [State.map_arg_goTo]
    exact List.Subset.refl _
  | swapped hcall =>
    rw [State.map_arg_goTo]
    exact List.Subset.refl _
  | missed hcall hne =>
    rw [State.map_arg_goTo]
    exact List.Subset.refl _

/-- A step leaves the value as it is, or puts what a call computed from it. -/
theorem Sound.value_step {s t : State β α} (hs : Sound next s) {e : Event β}
    (h : step next s e = some t) :
    t.value = s.value ∨ ∃ arg ∈ s.calls.map Call.arg, next arg s.value = some t.value := by
  cases step_cases h with
  | call arg => exact .inl rfl
  | read hcall => exact .inl rfl
  | @swapped i arg new hcall =>
    have hmem := List.mem_of_getElem? hcall
    exact .inr ⟨arg, List.mem_map.mpr ⟨_, hmem, rfl⟩, (hs.swap _ hmem _ _ rfl).1⟩
  | missed hcall hne => exact .inl rfl

/-- The value is the first one, or one that some call computed. -/
theorem value_origin (hnext : Raising next) {v : α} {es : List (Event β)} {s : State β α}
    (hrun : runFrom (step next) (start v) es = some s) :
    s.value = v ∨ ∃ arg ∈ s.calls.map Call.arg, ∃ w, next arg w = some s.value := by
  have hkeep (s : State β α) (e : Event β) (t : State β α)
      (hs : Sound next s ∧
        (s.value = v ∨ ∃ arg ∈ s.calls.map Call.arg, ∃ w, next arg w = some s.value))
      (h : step next s e = some t) : Sound next t ∧
        (t.value = v ∨ ∃ arg ∈ t.calls.map Call.arg, ∃ w, next arg w = some t.value) := by
    refine ⟨sound_step hnext s e t hs.1 h, ?_⟩
    have hargs := args_subset_of_step h
    rcases hs.1.value_step h with hsame | ⟨arg, harg, hcomputed⟩
    · rw [hsame]
      exact hs.2.imp_right fun ⟨arg, harg, hcomputed⟩ ↦ ⟨arg, hargs harg, hcomputed⟩
    · exact .inr ⟨arg, hargs harg, s.value, hcomputed⟩
  exact (inv_of_runFrom hkeep ⟨sound_start v, .inl rfl⟩ hrun).2

end Runs
end RocketMQ.Base.CasLoop
