import Mathlib.Tactic.Common

/-!
# Reference counts

`src/kpr/RefCount.cpp`: an object is created with one reference and deletes itself when the
last one is given back. The number of deletions stays with the object here, so that a second
one, or a use after the first, can be told.
-/

namespace RocketMQ

/-- A `kpr::RefCount`, with how often it has run `delete this`. -/
structure RefCount where
  refCount : Nat
  deletions : Nat
deriving DecidableEq

namespace RefCount

/-- `src/kpr/RefCount.cpp:20–23`. -/
def create : RefCount := ⟨1, 0⟩

/-- `src/kpr/RefCount.cpp:30–34`. -/
def incRef (r : RefCount) : RefCount := { r with refCount := r.refCount + 1 }

/-- `src/kpr/RefCount.cpp:36–43`. -/
def decRef (r : RefCount) : RefCount :=
  if r.refCount - 1 = 0 then ⟨0, r.deletions + 1⟩ else { r with refCount := r.refCount - 1 }

/-- The count is the number of holders, and the object was deleted once if there are none. -/
def Agrees (r : RefCount) (holders : Nat) : Prop :=
  r.refCount = holders ∧ r.deletions = if holders = 0 then 1 else 0

section Agrees

variable {r : RefCount} {holders : Nat}

theorem agrees_create : create.Agrees 1 := ⟨rfl, rfl⟩

/-- A reference for another holder. -/
theorem Agrees.incRef (h : r.Agrees holders) (hpos : 0 < holders) :
    r.incRef.Agrees (holders + 1) := by
  obtain ⟨hcount, hdeleted⟩ := h
  rw [if_neg (by omega)] at hdeleted
  exact ⟨congrArg (· + 1) hcount, by rw [if_neg (by omega)]; exact hdeleted⟩

/-- A holder gives its reference back. -/
theorem Agrees.decRef (h : r.Agrees (holders + 1)) : r.decRef.Agrees holders := by
  obtain ⟨hcount, hdeleted⟩ := h
  rw [if_neg (by omega)] at hdeleted
  rw [RefCount.decRef]
  split_ifs with hlast
  · obtain rfl : holders = 0 := by omega
    exact ⟨rfl, by rw [hdeleted, if_pos rfl]⟩
  · have hleft : r.refCount - 1 = holders := by omega
    exact ⟨hleft, by rw [if_neg (by omega)]; exact hdeleted⟩

/-- An object with a holder is there. -/
theorem Agrees.deletions_eq_zero (h : r.Agrees holders) (hpos : 0 < holders) :
    r.deletions = 0 := by
  rw [h.2, if_neg (by omega)]

end Agrees
end RefCount
end RocketMQ
