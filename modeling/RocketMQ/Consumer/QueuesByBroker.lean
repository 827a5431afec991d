import Mathlib.Data.List.Nodup
import RocketMQ.Base.Loop
import RocketMQ.Common.MQException
import RocketMQ.Consumer.ProcessQueue
import Std.Data.ExtTreeSet.Lemmas

/-!
# The owned queues of each broker

`RebalanceImpl::buildProcessQueueTableByBrokerName`, `src/consumer/RebalanceImpl.cpp:322–345`,
and the loops of `lockAll` and `unlockAll` over what it returns. The iterator over the process
queue table is the list of the entries that are still ahead of it.
-/

namespace RocketMQ

/-- `LockBatchRequestBody` and `UnlockBatchRequestBody`, `src/protocol/LockBatchBody.h`. -/
structure LockBatchRequestBody where
  consumerGroup : StdString
  clientId : StdString
  mqSet : Std.ExtTreeSet MessageQueue

/-- What locking the queues asks others for: the address of a broker's master, which is empty when
it is not known, and the two requests to it. -/
structure LockClient where
  consumerGroup : StdString
  clientId : StdString
  findBrokerAddressInSubscribe : StdString → StdString
  lockBatchMQ : StdString → LockBatchRequestBody → Except MQException (Std.ExtTreeSet MessageQueue)
  unlockBatchMQ : StdString → LockBatchRequestBody → Except MQException Unit

/-- `m_processQueueTable`; every queue has a `ProcessQueue` of its own. -/
abbrev ProcessQueueTable := Std.ExtTreeMap MessageQueue ProcessQueue

/-- Broker names and the queues of each. -/
abbrev BrokerQueues := Std.ExtTreeMap StdString (Std.ExtTreeSet MessageQueue)

namespace RebalanceImpl

/-! ### The loops -/

/-- One pass of the loop of `buildProcessQueueTableByBrokerName`. Neither branch moves the
iterator. -/
def buildPass : List (MessageQueue × ProcessQueue) × BrokerQueues →
    Base.Pass (List (MessageQueue × ProcessQueue) × BrokerQueues) BrokerQueues
  | ([], result) => .leave result
  | ((mq, pq) :: rest, result) =>
    match result[mq.brokerName]? with
    | none =>
      .again ((mq, pq) :: rest, result.insert mq.brokerName (Std.ExtTreeSet.empty.insert mq))
    | some mqs => .again ((mq, pq) :: rest, result.insert mq.brokerName (mqs.insert mq))

/-- `buildProcessQueueTableByBrokerName` returns `result`. -/
def BuildsProcessQueueTableByBrokerName (table : ProcessQueueTable) (result : BrokerQueues) :
    Prop :=
  Base.Yields buildPass (table.toList, ∅) result

/-- The body of the loop of `lockAll`, `src/consumer/RebalanceImpl.cpp:171–229`. -/
def lockBroker (client : LockClient) (now : Nat) (table : ProcessQueueTable)
    (entry : StdString × Std.ExtTreeSet MessageQueue) : ProcessQueueTable :=
  let (brokerName, mqs) := entry
  if mqs.isEmpty then table
  else
    let brokerAddr := client.findBrokerAddressInSubscribe brokerName
    if brokerAddr.isEmpty then table
    else
      match client.lockBatchMQ brokerAddr ⟨client.consumerGroup, client.clientId, mqs⟩ with
      | .error _ => table
      | .ok lockOKMQSet =>
        let locked := lockOKMQSet.toList.foldl (fun (table : ProcessQueueTable) mq ↦
          table.modify mq fun pq ↦ (pq.setLocked true).setLastLockTimestamp now) table
        (mqs.toList.filter (· ∉ lockOKMQSet)).foldl (fun (table : ProcessQueueTable) mq ↦
          table.modify mq fun pq ↦ pq.setLocked false) locked

/-- The body of the loop of `unlockAll`, `src/consumer/RebalanceImpl.cpp:70–112`. -/
def unlockBroker (client : LockClient) (table : ProcessQueueTable)
    (entry : StdString × Std.ExtTreeSet MessageQueue) : ProcessQueueTable :=
  let (brokerName, mqs) := entry
  if mqs.isEmpty then table
  else
    let brokerAddr := client.findBrokerAddressInSubscribe brokerName
    if brokerAddr.isEmpty then table
    else
      match client.unlockBatchMQ brokerAddr ⟨client.consumerGroup, client.clientId, mqs⟩ with
      | .error _ => table
      | .ok () =>
        mqs.toList.foldl (fun (table : ProcessQueueTable) mq ↦
          table.modify mq fun pq ↦ pq.setLocked false) table

/-- `lockAll` or `unlockAll`, by the body of its loop, finishes with `table'` after it went through
the queues `visited`. -/
def Finishes (body : ProcessQueueTable → StdString × Std.ExtTreeSet MessageQueue →
    ProcessQueueTable) (table table' : ProcessQueueTable) (visited : List MessageQueue) : Prop :=
  ∃ brokerMqs, BuildsProcessQueueTableByBrokerName table brokerMqs ∧
    table' = brokerMqs.toList.foldl body table ∧
    visited = brokerMqs.toList.flatMap fun entry ↦ entry.2.toList

/-! ### Grouping -/

/-- The queues of a table, grouped by broker: every set has a queue, queues stand under their own
broker and are those of the table. -/
structure Partition (table : ProcessQueueTable) (result : BrokerQueues) : Prop where
  nonempty : ∀ (brokerName : StdString) (mqs : Std.ExtTreeSet MessageQueue),
    result[brokerName]? = some mqs → mqs.isEmpty = false
  brokerName : ∀ (brokerName : StdString) (mqs : Std.ExtTreeSet MessageQueue),
    result[brokerName]? = some mqs → ∀ mq : MessageQueue, mq ∈ mqs → mq.brokerName = brokerName
  mem_iff : ∀ mq : MessageQueue, mq ∈ table ↔
    ∃ mqs : Std.ExtTreeSet MessageQueue, result[mq.brokerName]? = some mqs ∧ mq ∈ mqs

/-- The table is grouped, and both loops come to every queue once and finish. -/
structure GroupedByBroker (client : LockClient) (now : Nat) (table : ProcessQueueTable) :
    Prop where
  partition : ∃ result, BuildsProcessQueueTableByBrokerName table result ∧ Partition table result
  lockAll : ∃ table' visited, Finishes (lockBroker client now) table table' visited ∧
    visited.Perm table.keys
  unlockAll : ∃ table' visited, Finishes (unlockBroker client) table table' visited ∧
    visited.Perm table.keys

section Partition

variable {table : ProcessQueueTable} {result : BrokerQueues}

/-- The queues of all sets are those of the table. -/
theorem Partition.perm (h : Partition table result) :
    (result.toList.flatMap fun entry ↦ entry.2.toList).Perm table.keys := by
  have hentry : ∀ entry ∈ result.toList, result[entry.1]? = some entry.2 := fun entry hentry ↦
    Std.ExtTreeMap.mem_toList_iff_getElem?_eq_some.mp hentry
  have hsets : ∀ entry ∈ result.toList, entry.2.toList.Nodup := by
    intro entry _
    apply Std.ExtTreeSet.distinct_toList.imp
    intro a b hne heq
    exact hne (heq ▸ Std.ReflCmp.compare_self)
  have hdisjoint : result.toList.Pairwise fun a b ↦ List.Disjoint a.2.toList b.2.toList := by
    have hkeys : result.toList.Pairwise fun a b ↦ ¬ compare a.1 b.1 = .eq :=
      Std.ExtTreeMap.distinct_keys_toList
    apply hkeys.imp_of_mem
    intro a b ha hb hne mq hmqa hmqb
    have hbroker : a.1 = b.1 := by
      rw [← h.brokerName _ _ (hentry a ha) mq (Std.ExtTreeSet.mem_toList.mp hmqa),
        h.brokerName _ _ (hentry b hb) mq (Std.ExtTreeSet.mem_toList.mp hmqb)]
    exact hne (hbroker ▸ Std.ReflCmp.compare_self)
  have hkeys : table.keys.Nodup := by
    apply Std.ExtTreeMap.distinct_keys.imp
    intro a b hne heq
    exact hne (heq ▸ Std.ReflCmp.compare_self)
  apply (List.perm_ext_iff_of_nodup (List.nodup_flatMap.mpr ⟨hsets, hdisjoint⟩) hkeys).mpr
  intro mq
  rw [List.mem_flatMap, Std.ExtTreeMap.mem_keys, h.mem_iff]
  constructor
  · rintro ⟨entry, hmem, hmq⟩
    have hmq := Std.ExtTreeSet.mem_toList.mp hmq
    have hget := hentry entry hmem
    exact ⟨entry.2, by rwa [h.brokerName _ _ hget mq hmq], hmq⟩
  · rintro ⟨mqs, hget, hmq⟩
    exact ⟨(mq.brokerName, mqs), Std.ExtTreeMap.mem_toList_iff_getElem?_eq_some.mpr hget,
      Std.ExtTreeSet.mem_toList.mpr hmq⟩

/-- Both loops go through the queues of the table when it is grouped. -/
theorem finishes_of_partition (body : ProcessQueueTable → StdString × Std.ExtTreeSet MessageQueue →
    ProcessQueueTable) (hbuilds : BuildsProcessQueueTableByBrokerName table result)
    (h : Partition table result) :
    ∃ table' visited, Finishes body table table' visited ∧ visited.Perm table.keys :=
  ⟨_, _, ⟨result, hbuilds, rfl, rfl⟩, h.perm⟩

theorem partition_empty : Partition ∅ ∅ := by
  constructor <;> simp

end Partition

/-! ### Termination -/

/-- In front of an entry a pass leads to another one in front of it. -/
theorem buildPass_cons (entry : MessageQueue × ProcessQueue)
    (rest : List (MessageQueue × ProcessQueue)) (result : BrokerQueues) :
    ∃ result', buildPass (entry :: rest, result) = .again (entry :: rest, result') := by
  obtain ⟨mq, pq⟩ := entry
  rw [buildPass]
  cases result[mq.brokerName]? with
  | none => exact ⟨_, rfl⟩
  | some mqs => exact ⟨_, rfl⟩

theorem not_ends_buildPass (entry : MessageQueue × ProcessQueue)
    (rest : List (MessageQueue × ProcessQueue)) (result : BrokerQueues) :
    ¬ Base.Ends buildPass (entry :: rest, result) := by
  apply Base.not_ends_of_stuck fun s ↦ ∃ result, s = (entry :: rest, result)
  · rintro _ ⟨result, rfl⟩
    obtain ⟨result', hpass⟩ := buildPass_cons entry rest result
    exact ⟨_, hpass, result', rfl⟩
  · exact ⟨result, rfl⟩

/-- The loop ends for the empty table only. -/
theorem builds_iff {table : ProcessQueueTable} {result : BrokerQueues} :
    BuildsProcessQueueTableByBrokerName table result ↔ table = ∅ ∧ result = ∅ := by
  unfold BuildsProcessQueueTableByBrokerName
  constructor
  · intro h
    cases htable : table.toList with
    | nil =>
      rw [htable] at h
      exact ⟨Std.ExtTreeMap.toList_eq_nil_iff.mp htable,
        Base.yields_unique h (Base.yields_of_leave rfl)⟩
    | cons entry rest =>
      rw [htable] at h
      exact absurd ⟨result, h⟩ (not_ends_buildPass entry rest ∅)
  · rintro ⟨rfl, rfl⟩
    exact Base.yields_of_leave rfl

/-- The queues are grouped, and locked and unlocked, exactly when there are none. -/
theorem groupedByBroker_iff_empty (client : LockClient) (now : Nat) (table : ProcessQueueTable) :
    GroupedByBroker client now table ↔ table = ∅ := by
  constructor
  · rintro ⟨⟨result, hbuilds, -⟩, -, -⟩
    exact (builds_iff.mp hbuilds).1
  · rintro rfl
    have hbuilds : BuildsProcessQueueTableByBrokerName ∅ ∅ := builds_iff.mpr ⟨rfl, rfl⟩
    exact ⟨⟨∅, hbuilds, partition_empty⟩, finishes_of_partition _ hbuilds partition_empty,
      finishes_of_partition _ hbuilds partition_empty⟩

/-- One owned queue. -/
def oneQueue : ProcessQueueTable := {(⟨str "TopicTest", str "broker-a", 0⟩, .new 0)}

/-- It is enough for `buildProcessQueueTableByBrokerName` not to return, and so for `lockAll` and
`unlockAll`. -/
theorem oneQueue_not_grouped :
    (¬ ∃ result, BuildsProcessQueueTableByBrokerName oneQueue result) ∧
      ∀ client now, ¬ GroupedByBroker client now oneQueue := by
  have hne : oneQueue ≠ ∅ := by
    intro h
    have hsize := congrArg Std.ExtTreeMap.size h
    revert hsize
    decide
  constructor
  · rintro ⟨result, h⟩
    exact hne (builds_iff.mp h).1
  · rintro client now ⟨⟨result, h, -⟩, -, -⟩
    exact hne (builds_iff.mp h).1

end RebalanceImpl
end RocketMQ
