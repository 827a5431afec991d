import Mathlib.Data.List.Basic
import Mathlib.Data.List.Nodup
import Mathlib.Data.List.Pairwise
import Mathlib.Tactic.Common

/-!
# Dealing a list out in even runs

General library: `m` clients take consecutive runs of a list whose sizes differ by at most one,
the longer runs first. Each run is computed from its number alone; together they are the list.
-/

namespace RocketMQ.Base

universe u v

/-! ### Sizes -/

/-- How many of `n` items the client with the number `i` of `m` clients gets. -/
def shareSize (n m i : Nat) : Nat := n / m + if i < n % m then 1 else 0

/-- How many items the clients before it get. -/
def shareStart (n m i : Nat) : Nat := i * (n / m) + min i (n % m)

section Sizes

variable {n m : Nat}

@[simp] theorem shareStart_zero : shareStart n m 0 = 0 := by
  rw [shareStart, Nat.zero_mul, Nat.zero_min]

theorem shareStart_succ (i : Nat) :
    shareStart n m (i + 1) = shareStart n m i + shareSize n m i := by
  rw [shareStart, shareStart, shareSize, Nat.add_mul, Nat.one_mul]
  split_ifs with hi
  · omega
  · omega

/-- All clients together get everything. -/
theorem shareStart_all (h : 0 < m) : shareStart n m m = n := by
  have hmod : n % m < m := Nat.mod_lt n h
  rw [shareStart, Nat.min_eq_right (Nat.le_of_lt hmod), Nat.div_add_mod]

theorem shareStart_mono {i j : Nat} (h : i ≤ j) : shareStart n m i ≤ shareStart n m j := by
  have hmul : i * (n / m) ≤ j * (n / m) := Nat.mul_le_mul_right (n / m) h
  rw [shareStart, shareStart]
  omega

/-- A run ends inside the list. -/
theorem shareStart_add_shareSize_le {i : Nat} (h : i < m) :
    shareStart n m i + shareSize n m i ≤ n := by
  rw [← shareStart_succ]
  calc shareStart n m (i + 1) ≤ shareStart n m m := shareStart_mono h
    _ = n := shareStart_all (Nat.zero_lt_of_lt h)

theorem shareSize_le_succ (i j : Nat) : shareSize n m i ≤ shareSize n m j + 1 := by
  rw [shareSize, shareSize]
  split_ifs with hi hj
  all_goals omega

end Sizes

/-! ### Runs -/

/-- The run of the client with the number `i`. -/
def shareRun {α : Type u} (items : List α) (m i : Nat) : List α :=
  (items.drop (shareStart items.length m i)).take (shareSize items.length m i)

/-- The clients, in the order of their list, take the items run by run, each item goes to
exactly one of them and once, and no client gets two more than another. -/
structure FairPartition {κ : Type u} {α : Type v} (clients : List κ) (items : List α)
    (share : κ → List α) : Prop where
  inOrder : clients.flatMap share = items
  contiguous : ∀ c ∈ clients, share c <:+: items
  covers : ∀ x ∈ items, ∃ c ∈ clients, x ∈ share c
  disjoint : ∀ c ∈ clients, ∀ c' ∈ clients, c ≠ c' → ∀ x ∈ share c, x ∉ share c'
  once : ∀ c ∈ clients, (share c).Nodup
  balanced : ∀ c ∈ clients, ∀ c' ∈ clients, (share c).length ≤ (share c').length + 1

section Runs

variable {κ : Type u} {α : Type v} {clients : List κ} {items : List α} {share : κ → List α}

theorem length_shareRun {m i : Nat} (h : i < m) :
    (shareRun items m i).length = shareSize items.length m i := by
  have hle := shareStart_add_shareSize_le (n := items.length) h
  rw [shareRun, List.length_take, List.length_drop]
  omega

/-- The first clients take the first items. -/
theorem flatMap_take_shareRun
    (hshare : ∀ (i : Nat) (c : κ), clients[i]? = some c →
      share c = shareRun items clients.length i) (k : Nat) (hk : k ≤ clients.length) :
    (clients.take k).flatMap share = items.take (shareStart items.length clients.length k) := by
  induction k with
  | zero => simp
  | succ k ih =>
    have hget : clients[k]? = some clients[k] := List.getElem?_eq_getElem hk
    rw [List.take_add_one, hget, Option.toList_some, List.flatMap_append, ih (Nat.le_of_succ_le hk),
      shareStart_succ, List.take_add, List.flatMap_singleton, hshare k clients[k] hget, shareRun]

/-- **Even runs**: when every client takes the run of its own number, they deal the items out. -/
theorem fairPartition_of_shareRun (hclients : clients ≠ []) (hnodup : items.Nodup)
    (hshare : ∀ (i : Nat) (c : κ), clients[i]? = some c →
      share c = shareRun items clients.length i) : FairPartition clients items share := by
  have hinOrder : clients.flatMap share = items := by
    have hall := flatMap_take_shareRun hshare clients.length (Nat.le_refl _)
    rwa [shareStart_all (List.length_pos_of_ne_nil hclients), List.take_length,
      List.take_length] at hall
  obtain ⟨honce, hpairwise⟩ := List.nodup_flatMap.mp (hinOrder ▸ hnodup)
  have hindex : ∀ c ∈ clients, ∃ i, share c = shareRun items clients.length i ∧
      (share c).length = shareSize items.length clients.length i := by
    intro c hc
    obtain ⟨i, hi⟩ := List.mem_iff_getElem?.mp hc
    obtain ⟨hlt, -⟩ := List.getElem?_eq_some_iff.mp hi
    exact ⟨i, hshare i c hi, by rw [hshare i c hi, length_shareRun hlt]⟩
  refine ⟨hinOrder, ?_, ?_, ?_, honce, ?_⟩
  · intro c hc
    obtain ⟨i, hrun, -⟩ := hindex c hc
    rw [hrun, shareRun]
    exact (List.take_prefix _ _).isInfix.trans (List.drop_suffix _ _).isInfix
  · intro x hx
    rw [← hinOrder] at hx
    exact List.mem_flatMap.mp hx
  · intro c hc c' hc' hne x hx hx'
    have hsymm : Std.Symm (Function.onFun List.Disjoint share) :=
      ⟨fun _ _ h _ hx hx' ↦ h hx' hx⟩
    exact hpairwise.forall hc hc' hne hx hx'
  · intro c hc c' hc'
    obtain ⟨i, -, hi⟩ := hindex c hc
    obtain ⟨j, -, hj⟩ := hindex c' hc'
    rw [hi, hj]
    exact shareSize_le_succ i j

end Runs
end RocketMQ.Base
