import Mathlib.Data.List.Basic
import Mathlib.Tactic.Common

/-!
# Objects and references to them

General library: objects on a heap as entries of a table under identifiers that are never used
again. A reference is an identifier. Creating an object leaves what the others refer to as it was;
once its object is deleted a reference refers to nothing.
-/

namespace RocketMQ.Base

universe u

/-- The objects that were created, in order; `none` where one was deleted. -/
structure Objects (α : Type u) where
  slots : List (Option α)

namespace Objects

variable {α : Type u}

/-- No object was created yet. -/
def empty : Objects α := ⟨[]⟩

/-- What a reference refers to. -/
def get (objects : Objects α) (ref : Nat) : Option α := objects.slots[ref]?.join

/-- `new`: the table afterwards, and the reference. -/
def create (objects : Objects α) (a : α) : Objects α × Nat :=
  (⟨objects.slots ++ [some a]⟩, objects.slots.length)

/-- `delete`. -/
def delete (objects : Objects α) (ref : Nat) : Objects α := ⟨objects.slots.set ref none⟩

/-- All of these references refer to an object that is there, and equal to `a`. -/
def AllRefer (objects : Objects α) (refs : List Nat) (a : α) : Prop :=
  ∀ ref ∈ refs, objects.get ref = some a

/-- What is there stays. -/
def Keeps (objects objects' : Objects α) : Prop :=
  ∀ ref a, objects.get ref = some a → objects'.get ref = some a

section Rules

variable {objects objects' : Objects α} {refs refs' : List Nat} {ref : Nat} {a : α}

theorem get_create_self (objects : Objects α) (a : α) :
    (objects.create a).1.get (objects.create a).2 = some a := by
  simp [get, create]

theorem keeps_refl (objects : Objects α) : objects.Keeps objects := fun _ _ h ↦ h

theorem keeps_create (objects : Objects α) (a : α) : objects.Keeps (objects.create a).1 := by
  intro ref b h
  have hslot : objects.slots[ref]? = some (some b) := Option.join_eq_some_iff.mp h
  have hlt := (List.getElem?_eq_some_iff.mp hslot).1
  rw [get, create, List.getElem?_append_left hlt, hslot]
  rfl

theorem get_delete_self (objects : Objects α) (ref : Nat) :
    (objects.delete ref).get ref = none := by
  rw [get, delete, List.getElem?_set_self']
  cases objects.slots[ref]? <;> rfl

theorem AllRefer.of_keeps (h : objects.AllRefer refs a) (hkeeps : objects.Keeps objects') :
    objects'.AllRefer refs a :=
  fun ref hmem ↦ hkeeps ref a (h ref hmem)

theorem AllRefer.mono (h : objects.AllRefer refs a) (hsub : refs' ⊆ refs) :
    objects.AllRefer refs' a :=
  fun ref hmem ↦ h ref (hsub hmem)

theorem AllRefer.cons (h : objects.AllRefer refs a) (href : objects.get ref = some a) :
    objects.AllRefer (ref :: refs) a := by
  intro ref' hmem
  rcases List.mem_cons.mp hmem with rfl | hold
  · exact href
  · exact h ref' hold

end Rules
end Objects
end RocketMQ.Base
