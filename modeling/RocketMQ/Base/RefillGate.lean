import Mathlib.Algebra.Order.Monoid.Unbundled.Basic
import Mathlib.Algebra.Order.Monoid.Defs

/-!
# A gate in front of a store

General library: a store that is refilled by requests. A request is made only when the counter
of the store is not above a threshold, at most one request is out at a time, and it brings at
most a batch. The counter is tested when the request is made and moves on while it is out; since
it only falls then, the threshold and one batch together are never exceeded.
-/

namespace RocketMQ.Base

universe u

/-- The counter of a store, and whether a request is out. -/
structure RefillGate (α : Type u) where
  count : α
  outstanding : Bool

namespace RefillGate

variable {α : Type u}

/-- What may happen: a request is made, brings something, or brings nothing; and the counter
falls at any time. -/
inductive Move [Add α] [LE α] (threshold batch : α) : RefillGate α → RefillGate α → Prop where
  | request {n : α} (h : n ≤ threshold) : Move threshold batch ⟨n, false⟩ ⟨n, true⟩
  | refill {n k : α} (h : k ≤ batch) : Move threshold batch ⟨n, true⟩ ⟨n + k, false⟩
  | cancel {n : α} : Move threshold batch ⟨n, true⟩ ⟨n, false⟩
  | drain {n m : α} {b : Bool} (h : m ≤ n) : Move threshold batch ⟨n, b⟩ ⟨m, b⟩

/-- A batch fits above the counter while a request is out. -/
def Within [Add α] [LE α] (threshold batch : α) (g : RefillGate α) : Prop :=
  g.count ≤ if g.outstanding then threshold else threshold + batch

variable [AddCommMonoid α] [PartialOrder α] [IsOrderedAddMonoid α] {threshold batch : α}
  {g g' : RefillGate α}

/-- Every move stays within the bound. -/
theorem Within.move (hbatch : 0 ≤ batch) (h : g.Within threshold batch)
    (hmove : Move threshold batch g g') : g'.Within threshold batch := by
  cases hmove with
  | request hn => exact hn
  | refill hk => exact add_le_add h hk
  | cancel => exact le_add_of_le_of_nonneg h hbatch
  | drain hm => exact hm.trans h

/-- Within the bound the counter is at most the threshold and one batch. -/
theorem Within.count_le (hbatch : 0 ≤ batch) (h : g.Within threshold batch) :
    g.count ≤ threshold + batch := by
  unfold Within at h
  split at h
  · exact le_add_of_le_of_nonneg h hbatch
  · exact h

end RefillGate
end RocketMQ.Base
