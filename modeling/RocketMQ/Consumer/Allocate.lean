import RocketMQ.Base.FairShares
import RocketMQ.Common.MQException
import RocketMQ.Producer.TopicPublishInfo

/-!
# Which queues a consumer takes

`AllocateMessageQueueAveragely`, `src/consumer/AllocateMessageQueueStrategyInner.h`, and the
steps of `RebalanceImpl::rebalanceByTopic` around it. Every consumer of a group computes its own
share from the same queues and the same ids. Numbers of queues and of ids are below `2 ^ 30`,
so that no `int` overflows.
-/

namespace RocketMQ

/-! ### The order of queues -/

/-- `strcmp`: unsigned bytes up to the first `NUL`. -/
def strcmp (a b : StdString) : Ordering := compare (a.takeWhile (· ≠ 0)) (b.takeWhile (· ≠ 0))

namespace MessageQueue

/-- `MessageQueue::operator<` over `compareTo`, `src/message/MessageQueue.cpp:108–132`. -/
def operatorLess (a b : MessageQueue) : Bool :=
  match strcmp a.topic b.topic with
  | .lt => true
  | .gt => false
  | .eq =>
    match strcmp a.brokerName b.brokerName with
    | .lt => true
    | .gt => false
    | .eq => toInt32 (a.queueId - b.queueId) < 0

/-- Names without `NUL`, and a queue id that is not negative. -/
structure Plain (mq : MessageQueue) : Prop where
  topic : 0 ∉ mq.topic
  brokerName : 0 ∉ mq.brokerName
  nonneg : 0 ≤ mq.queueId
  isInt : mq.queueId < 2 ^ 31

theorem strcmp_eq_compare {a b : StdString} (ha : 0 ∉ a) (hb : 0 ∉ b) :
    strcmp a b = compare a b := by
  rw [strcmp, takeWhile_ne_nul ha, takeWhile_ne_nul hb]

/-- On such queues the order of the sets of this model is the one of the source. -/
theorem operatorLess_iff {a b : MessageQueue} (ha : a.Plain) (hb : b.Plain) :
    a.operatorLess b = true ↔ compare a b = .lt := by
  have hcompare : compare a b = (compare a.topic b.topic).then
      ((compare a.brokerName b.brokerName).then (compare a.queueId b.queueId)) := rfl
  have hsub : toInt32 (a.queueId - b.queueId) = a.queueId - b.queueId := by
    have hna := ha.nonneg
    have hnb := hb.nonneg
    have hia := ha.isInt
    have hib := hb.isInt
    exact toInt32_of_range (by omega) (by omega)
  rw [operatorLess, strcmp_eq_compare ha.topic hb.topic,
    strcmp_eq_compare ha.brokerName hb.brokerName, hcompare, hsub]
  cases compare a.topic b.topic with
  | lt => simp
  | gt => simp
  | eq =>
    cases compare a.brokerName b.brokerName with
    | lt => simp
    | gt => simp
    | eq =>
      simp only [Ordering.then, decide_eq_true_eq, Int.compare_eq_lt]
      omega

end MessageQueue

/-! ### The strategy -/

namespace AllocateMessageQueueAveragely

/-- The local `averageSize` for a consumer with the number `index`. -/
def averageSize (mqAllSize cidAllSize index : Nat) : Nat :=
  let mod := mqAllSize % cidAllSize
  if mqAllSize ≤ cidAllSize then 1
  else if mod > 0 ∧ index < mod then mqAllSize / cidAllSize + 1
  else mqAllSize / cidAllSize

/-- The local `startIndex`. -/
def startIndex (mqAllSize cidAllSize index : Nat) : Nat :=
  let mod := mqAllSize % cidAllSize
  if mod > 0 ∧ index < mod then index * averageSize mqAllSize cidAllSize index
  else index * averageSize mqAllSize cidAllSize index + mod

/-- The local `range`, which is negative for a consumer that comes after the last queue. -/
def range (mqAllSize cidAllSize index : Nat) : Int :=
  min (averageSize mqAllSize cidAllSize index : Int)
    ((mqAllSize : Int) - (startIndex mqAllSize cidAllSize index : Int))

/-- `src/consumer/AllocateMessageQueueStrategyInner.h:43–97`; a `NULL` is `none`. -/
def allocate (currentCID : StdString) (mqAll : List MessageQueue) (cidAll : List StdString) :
    Except MQException (Option (List MessageQueue)) :=
  if currentCID.isEmpty then .error (.client (str "currentCID is empty") (-1))
  else if hmq : mqAll = [] then .error (.client (str "mqAll is empty") (-1))
  else if cidAll.isEmpty then .error (.client (str "cidAll is empty") (-1))
  else
    match cidAll.findIdx? (· == currentCID) with
    | none => .ok none
    | some index =>
      .ok (some ((List.range (range mqAll.length cidAll.length index).toNat).map fun i ↦
        mqAll.get ⟨(startIndex mqAll.length cidAll.length index + i) % mqAll.length,
          Nat.mod_lt _ (List.length_pos_of_ne_nil hmq)⟩))

/-- `cidAll.sort()`. -/
def sortIds (cidAll : List StdString) : List StdString :=
  cidAll.mergeSort fun a b ↦ (compare a b).isLE

/-- The steps of `rebalanceByTopic` that lead to a share, `src/consumer/RebalanceImpl.cpp:396–420`:
the queues in the order of their set, the ids sorted. -/
def allocateForTopic (clientId : StdString) (mqSet : Std.ExtTreeSet MessageQueue)
    (cidAll : List StdString) : Except MQException (Option (List MessageQueue)) :=
  allocate clientId mqSet.toList (sortIds cidAll)

section Formulas

variable {n m i : Nat}

/-- The number of queues is that of an even run. -/
theorem toNat_range (h : i < m) : (range n m i).toNat = Base.shareSize n m i := by
  have hle := Base.shareStart_add_shareSize_le (n := n) h
  have htoNat : ∀ a s : Nat, (min (a : Int) ((n : Int) - (s : Int))).toNat = min a (n - s) := by
    intro a s
    omega
  rw [Base.shareStart, Base.shareSize] at hle
  rw [range, htoNat, startIndex, averageSize, Base.shareSize]
  rcases Nat.lt_trichotomy n m with hlt | rfl | hgt
  · rw [Nat.div_eq_of_lt hlt, Nat.mod_eq_of_lt hlt, if_pos hlt.le]
    split_ifs with h₁ h₂ h₂
    all_goals omega
  · rw [Nat.mod_self, Nat.div_self (Nat.zero_lt_of_lt h), if_pos (Nat.le_refl n)]
    simp only [Nat.lt_irrefl, gt_iff_lt, false_and, if_false, Nat.not_lt_zero]
    omega
  · rw [if_neg (Nat.not_le.mpr hgt)]
    split_ifs at hle ⊢ with h₁ h₂ h₂
    · rw [Nat.mul_add, Nat.mul_one]
      omega
    all_goals omega

/-- Where there are any, they begin where the run does. -/
theorem startIndex_eq (h : i < m) (hsize : 0 < Base.shareSize n m i) :
    startIndex n m i = Base.shareStart n m i := by
  rw [Base.shareSize] at hsize
  rw [startIndex, averageSize, Base.shareStart]
  rcases Nat.lt_trichotomy n m with hlt | rfl | hgt
  · rw [Nat.div_eq_of_lt hlt, Nat.mod_eq_of_lt hlt] at hsize ⊢
    rw [if_pos hlt.le]
    split_ifs at hsize ⊢ with h₁ h₂ h₂
    all_goals omega
  · rw [Nat.mod_self, Nat.div_self (Nat.zero_lt_of_lt h), if_pos (Nat.le_refl n)]
    simp only [Nat.lt_irrefl, gt_iff_lt, false_and, if_false, Nat.min_zero]
  · rw [if_neg (Nat.not_le.mpr hgt)]
    split_ifs with h₁
    · rw [Nat.mul_add, Nat.mul_one]
      omega
    · omega

/-- Reading from an index on, modulo the length, is cutting a piece out. -/
theorem map_get_range {α : Type} {xs : List α} (hpos : 0 < xs.length) {start size : Nat}
    (h : start + size ≤ xs.length) :
    (List.range size).map (fun i ↦ xs.get ⟨(start + i) % xs.length, Nat.mod_lt _ hpos⟩) =
      (xs.drop start).take size := by
  apply List.ext_getElem
  · rw [List.length_map, List.length_range, List.length_take, List.length_drop]
    omega
  · intro k hk _
    rw [List.length_map, List.length_range] at hk
    have hmod : (start + k) % xs.length = start + k := Nat.mod_eq_of_lt (by omega)
    simp [hmod]

end Formulas

/-! ### All clients -/

section Clients

variable {cid : StdString} {mqAll : List MessageQueue} {ids : List StdString}

/-- The client with the number `i` takes the run with this number. -/
theorem allocate_of_getElem? (hmq : mqAll ≠ []) (hnodup : ids.Nodup) (hcid : cid ≠ []) {i : Nat}
    (hi : ids[i]? = some cid) :
    allocate cid mqAll ids = .ok (some (Base.shareRun mqAll ids.length i)) := by
  obtain ⟨hlt, hget⟩ := List.getElem?_eq_some_iff.mp hi
  have hids : ids ≠ [] := List.ne_nil_of_length_pos (Nat.zero_lt_of_lt hlt)
  have hfind : ids.findIdx? (· == cid) = some i := by
    rw [List.findIdx?_eq_some_iff_getElem]
    refine ⟨hlt, by simp [hget], fun j hj heq ↦ ?_⟩
    have hsame : ids[j] = ids[i] := by rw [hget]; simpa using heq
    exact absurd ((hnodup.getElem_inj_iff).mp hsame) (Nat.ne_of_lt hj)
  rw [allocate, if_neg (by simpa using hcid), dif_neg hmq, if_neg (by simpa using hids), hfind]
  simp only [Except.ok.injEq, Option.some.injEq]
  rw [toNat_range hlt, Base.shareRun]
  rcases Nat.eq_zero_or_pos (Base.shareSize mqAll.length ids.length i) with hzero | hpos
  · rw [hzero, List.range_zero, List.map_nil, List.take_zero]
  · rw [← startIndex_eq hlt hpos]
    apply map_get_range (List.length_pos_of_ne_nil hmq)
    rw [startIndex_eq hlt hpos]
    exact Base.shareStart_add_shareSize_le hlt

/-- A client that is not in the list gets a `NULL`, or an exception when it has no id. -/
theorem allocate_of_notMem (h : cid ∉ ids) (queues : List MessageQueue) :
    allocate cid mqAll ids ≠ .ok (some queues) := by
  have hfind : ids.findIdx? (· == cid) = none := by
    rw [List.findIdx?_eq_none_iff]
    intro x hx
    have hne : x ≠ cid := fun heq ↦ h (heq ▸ hx)
    simpa using hne
  rw [allocate]
  split_ifs
  · simp
  · simp
  · simp
  · simp [hfind]

/-- Sorting forgets in which order the ids came. -/
theorem sortIds_eq_of_perm {received : List StdString} (h : received.Perm ids) :
    sortIds received = sortIds ids := by
  have hsorted : ∀ l : List StdString, (sortIds l).Pairwise fun a b ↦ (compare a b).isLE := by
    intro l
    refine List.pairwise_mergeSort (fun a b c hab hbc ↦ ?_) (fun a b ↦ ?_) l
    · exact Std.TransCmp.isLE_trans hab hbc
    · have hswap : compare b a = (compare a b).swap := Std.OrientedCmp.eq_swap
      rw [hswap]
      cases compare a b <;> simp
  apply List.Perm.eq_of_pairwise (fun a b _ _ hab hba ↦ ?_) (hsorted received) (hsorted ids)
  · exact (List.mergeSort_perm _ _).trans (h.trans (List.mergeSort_perm _ _).symm)
  · exact Std.LawfulEqCmp.eq_of_compare (Std.OrientedCmp.isLE_antisymm hab hba)

end Clients

/-- **The group's allocation**: whatever order each client received the ids in, the shares of the
clients deal the sorted queues out in the order of the sorted ids, and nobody else gets one. -/
theorem allocateForTopic_fair (mqSet : Std.ExtTreeSet MessageQueue) (hmq : mqSet.isEmpty = false)
    (ids : List StdString) (hids : ids ≠ []) (hnodup : ids.Nodup) (hplain : ∀ cid ∈ ids, cid ≠ [])
    (received : StdString → List StdString) (hreceived : ∀ cid, (received cid).Perm ids) :
    ∃ share : StdString → List MessageQueue,
      (∀ cid ∈ ids, allocateForTopic cid mqSet (received cid) = .ok (some (share cid))) ∧
      Base.FairPartition (sortIds ids) mqSet.toList share ∧
      ∀ cid ∉ ids, ∀ queues, allocateForTopic cid mqSet (received cid) ≠ .ok (some queues) := by
  have hperm : (sortIds ids).Perm ids := List.mergeSort_perm _ _
  have hqueues : mqSet.toList ≠ [] := by
    rwa [← List.isEmpty_eq_false_iff, Std.ExtTreeSet.isEmpty_toList]
  have hdistinct : mqSet.toList.Nodup := by
    apply Std.ExtTreeSet.distinct_toList.imp
    intro a b hne heq
    exact hne (heq ▸ Std.ReflCmp.compare_self)
  have hallocate : ∀ cid, allocateForTopic cid mqSet (received cid) =
      allocate cid mqSet.toList (sortIds ids) := by
    intro cid
    rw [allocateForTopic, sortIds_eq_of_perm (hreceived cid)]
  have hrun : ∀ (i : Nat) (cid : StdString), (sortIds ids)[i]? = some cid →
      allocate cid mqSet.toList (sortIds ids) =
        .ok (some (Base.shareRun mqSet.toList (sortIds ids).length i)) := by
    intro i cid hi
    have hmem : cid ∈ ids := hperm.mem_iff.mp (List.mem_of_getElem? hi)
    exact allocate_of_getElem? hqueues (hperm.nodup_iff.mpr hnodup) (hplain cid hmem) hi
  refine ⟨fun cid ↦ Base.shareRun mqSet.toList (sortIds ids).length ((sortIds ids).idxOf cid),
    ?_, ?_, ?_⟩
  · intro cid hcid
    rw [hallocate]
    exact hrun _ cid (List.getElem?_idxOf (hperm.mem_iff.mpr hcid))
  · refine Base.fairPartition_of_shareRun ?_ hdistinct fun i cid hi ↦ ?_
    · intro hnil
      rw [hnil] at hperm
      exact hids hperm.nil_eq.symm
    · obtain ⟨hlt, hget⟩ := List.getElem?_eq_some_iff.mp hi
      rw [← hget, (hperm.nodup_iff.mpr hnodup).idxOf_getElem]
  · intro cid hcid queues
    rw [hallocate]
    exact allocate_of_notMem (fun hmem ↦ hcid (hperm.mem_iff.mp hmem)) queues

/-- Three queues of one broker. -/
def sampleQueues : Std.ExtTreeSet MessageQueue :=
  {⟨str "t", str "b", 0⟩, ⟨str "t", str "b", 1⟩, ⟨str "t", str "b", 2⟩}

/-- Two clients that got the ids the other way round share three queues. -/
theorem two_clients_fair :
    ∃ share : StdString → List MessageQueue,
      (∀ cid ∈ [str "d", str "c"], allocateForTopic cid sampleQueues [str "c", str "d"] =
        .ok (some (share cid))) ∧
      Base.FairPartition (sortIds [str "d", str "c"]) sampleQueues.toList share ∧
      ∀ cid ∉ [str "d", str "c"], ∀ queues,
        allocateForTopic cid sampleQueues [str "c", str "d"] ≠ .ok (some queues) :=
  allocateForTopic_fair sampleQueues rfl [str "d", str "c"] (by simp) (by decide)
    (by simp [str]) (fun _ ↦ [str "c", str "d"]) fun _ ↦ List.Perm.swap (str "d") (str "c") []

end AllocateMessageQueueAveragely
end RocketMQ
