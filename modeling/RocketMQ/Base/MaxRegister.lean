import Mathlib.Data.List.Basic
import Mathlib.Order.Lattice

/-!
# A register that only increases

General library: values are announced in any order and delivered in any other, and each
delivery raises the register to the delivered value unless it is already there. A bound on
everything announced bounds the register for ever, and a value that meets its own bound is
where the register ends once nothing is left to deliver.
-/

namespace RocketMQ.Base

universe u

/-- The register, unset at first, and the values announced but not yet delivered. -/
structure MaxRegister (α : Type u) where
  value : Option α
  pending : List α

namespace MaxRegister

variable {α : Type u}

/-- A value is announced. -/
def announce (r : MaxRegister α) (v : α) : MaxRegister α :=
  { r with pending := v :: r.pending }

/-- `b` is in the register or on its way. -/
def Reaches (r : MaxRegister α) (b : α) : Prop := b ∈ r.pending ∨ r.value = some b

/-- Once everything is delivered the register holds what was on its way. -/
theorem Reaches.value_eq {r : MaxRegister α} {b : α} (h : r.Reaches b) (hp : r.pending = []) :
    r.value = some b := by
  rcases h with hm | hv
  · rw [hp] at hm
    exact absurd hm List.not_mem_nil
  · exact hv

variable [LinearOrder α]

/-- What a register holds after it was raised to `v`. -/
def raise : Option α → α → α
  | none, v => v
  | some w, v => max w v

/-- One announced value is delivered. -/
def deliver (r : MaxRegister α) (v : α) : MaxRegister α :=
  ⟨some (raise r.value v), r.pending.erase v⟩

/-- Neither the register nor what is still to be delivered exceeds `b`. -/
structure Below (r : MaxRegister α) (b : α) : Prop where
  value : ∀ v ∈ r.value, v ≤ b
  pending : ∀ v ∈ r.pending, v ≤ b

/-- A larger bound is a bound. -/
theorem Below.mono {r : MaxRegister α} {b c : α} (h : r.Below b) (hbc : b ≤ c) : r.Below c :=
  ⟨fun v hv ↦ (h.value v hv).trans hbc, fun v hv ↦ (h.pending v hv).trans hbc⟩

/-- Announcing a value under the bound keeps the bound. -/
theorem Below.announce {r : MaxRegister α} {b v : α} (h : r.Below b) (hv : v ≤ b) :
    (r.announce v).Below b := by
  refine ⟨h.value, fun w hw ↦ ?_⟩
  rcases List.mem_cons.mp hw with rfl | hw
  · exact hv
  · exact h.pending w hw

/-- A register raised to a value under the bound stays under it. -/
theorem raise_le {o : Option α} {b v : α} (ho : ∀ w ∈ o, w ≤ b) (hv : v ≤ b) :
    raise o v ≤ b := by
  cases o with
  | none => exact hv
  | some w => exact max_le (ho w rfl) hv

/-- Delivering keeps every bound. -/
theorem Below.deliver {r : MaxRegister α} {b v : α} (h : r.Below b) (hv : v ∈ r.pending) :
    (r.deliver v).Below b := by
  constructor
  · intro w hw
    obtain rfl := Option.mem_some_iff.mp hw
    exact raise_le h.value (h.pending v hv)
  · exact fun w hw ↦ h.pending w (List.mem_of_mem_erase hw)

/-- The bound itself is never overtaken by a delivery. -/
theorem Reaches.deliver {r : MaxRegister α} {b v : α} (h : r.Reaches b) (hb : r.Below b)
    (hv : v ∈ r.pending) : (r.deliver v).Reaches b := by
  by_cases hvb : v = b
  · subst hvb
    refine Or.inr (congrArg some ?_)
    cases hr : r.value with
    | none => rfl
    | some w => exact max_eq_right (hb.value w hr)
  · rcases h with hp | hval
    · exact Or.inl ((List.mem_erase_of_ne (Ne.symm hvb)).mpr hp)
    · refine Or.inr (congrArg some ?_)
      rw [hval]
      exact max_eq_left (hb.pending v hv)

end MaxRegister
end RocketMQ.Base
