import RocketMQ.Consumer.Allocate
import RocketMQ.Consumer.Concurrently
import RocketMQ.Consumer.RebalanceTable

/-!
# When the allocation fails

`RebalanceImpl::rebalanceByTopic`, `src/consumer/RebalanceImpl.cpp:347–456`. The local
`allocateResult` has no initial value, and what a strategy throws is swallowed, so the pointer is
read as it was found on the stack. That stack content is a parameter.
-/

namespace RocketMQ

/-- The strategies of `src/consumer/AllocateMessageQueueStrategyInner.h`, and those that users write
themselves. -/
inductive AllocateMessageQueueStrategy where
  | averagely
  | byConfig
  | byMachineRoom
  | other (allocate : StdString → List MessageQueue → List StdString →
      Except MQException (Option (List MessageQueue)))

namespace AllocateMessageQueueStrategy

/-- `allocate`; a `NULL` is `none`. -/
def allocate (strategy : AllocateMessageQueueStrategy) (currentCID : StdString)
    (mqAll : List MessageQueue) (cidAll : List StdString) :
    Except MQException (Option (List MessageQueue)) :=
  match strategy with
  | averagely => AllocateMessageQueueAveragely.allocate currentCID mqAll cidAll
  | byConfig => .ok none
  | byMachineRoom => .ok none
  | other allocate => allocate currentCID mqAll cidAll

end AllocateMessageQueueStrategy

/-- What `rebalanceByTopic` reads and does not write. -/
structure RebalanceInput where
  messageModel : MessageModel
  topicSubscribeInfoTable : Std.ExtTreeMap StdString (Std.ExtTreeSet MessageQueue)
  allocateMessageQueueStrategy : AllocateMessageQueueStrategy
  clientId : StdString
  findConsumerIdList : StdString → StdString → List StdString
  computePullFromWhere : MessageQueue → Int

/-- A local pointer to a vector of queues. -/
inductive AllocateResult where
  | uninitialised
  | assigned (result : Option (List MessageQueue))

/-- What reading the pointer gives, where `stack` is what the memory held before. -/
def AllocateResult.read (stack : Option (List MessageQueue)) :
    AllocateResult → Option (List MessageQueue)
  | uninitialised => stack
  | assigned result => result

namespace RebalanceImpl

/-- The state after `rebalanceByTopic`, and whether it read `allocateResult` uninitialised.
`messageQueueChanged` of a push consumer does nothing, and `NULL` allocates no queue. -/
def rebalanceByTopic (input : RebalanceInput) (stack : Option (List MessageQueue))
    (s : RebalanceImpl) (topic : StdString) : RebalanceImpl × Bool :=
  match input.messageModel with
  | .broadcasting =>
    match input.topicSubscribeInfoTable[topic]? with
    | some mqSet =>
      ((s.updateProcessQueueTableInRebalance topic mqSet input.computePullFromWhere).1, false)
    | none => (s, false)
  | .clustering =>
    let cidAll := input.findConsumerIdList topic s.consumerGroup
    match input.topicSubscribeInfoTable[topic]? with
    | none => (s, false)
    | some mqSet =>
      if cidAll.isEmpty then (s, false)
      else
        let cidAll := AllocateMessageQueueAveragely.sortIds cidAll
        let (allocateResult, uninitialised) : AllocateResult × Bool :=
          match input.allocateMessageQueueStrategy.allocate input.clientId mqSet.toList cidAll with
          | .ok result => (.assigned result, false)
          | .error _ => (.uninitialised, true)
        let allocateResultSet := ((allocateResult.read stack).getD []).foldl
          (fun (mqs : Std.ExtTreeSet MessageQueue) mq ↦ mqs.insert mq) ∅
        ((s.updateProcessQueueTableInRebalance topic allocateResultSet
          input.computePullFromWhere).1, uninitialised)

/-! ### What a failure leaves -/

/-- The strategy is run for the topic and throws. -/
def StrategyRaises (input : RebalanceInput) (s : RebalanceImpl) (topic : StdString) : Prop :=
  input.messageModel = .clustering ∧
    ∃ mqSet e, input.topicSubscribeInfoTable[topic]? = some mqSet ∧
      input.findConsumerIdList topic s.consumerGroup ≠ [] ∧
      input.allocateMessageQueueStrategy.allocate input.clientId mqSet.toList
        (AllocateMessageQueueAveragely.sortIds
          (input.findConsumerIdList topic s.consumerGroup)) = .error e

/-- When the strategy throws, the assignment stays as it is and no pointer is read that was never
set. -/
def FailureLeavesAssignment (input : RebalanceInput) (stack : Option (List MessageQueue))
    (s : RebalanceImpl) (topic : StdString) : Prop :=
  StrategyRaises input s topic →
    let outcome := rebalanceByTopic input stack s topic
    outcome.1.processQueueTable = s.processQueueTable ∧ outcome.1.dropped = s.dropped ∧
      outcome.1.pullRequestQueue = s.pullRequestQueue ∧ outcome.2 = false

/-- The strategy has what it needs: an own id and queues for the averaging one, and nothing for
the two that always return `NULL`. -/
def StrategyServes (strategy : AllocateMessageQueueStrategy) (clientId : StdString)
    (mqSet : Std.ExtTreeSet MessageQueue) (cidAll : List StdString) : Prop :=
  match strategy with
  | .averagely => clientId ≠ [] ∧ mqSet.isEmpty = false
  | .byConfig | .byMachineRoom => True
  | .other allocate => ∃ result, allocate clientId mqSet.toList
      (AllocateMessageQueueAveragely.sortIds cidAll) = .ok result

theorem error_iff_not_strategyServes {strategy : AllocateMessageQueueStrategy}
    {clientId : StdString} {mqSet : Std.ExtTreeSet MessageQueue} {cidAll : List StdString}
    (hcids : cidAll ≠ []) :
    (∃ e, strategy.allocate clientId mqSet.toList
        (AllocateMessageQueueAveragely.sortIds cidAll) = .error e) ↔
      ¬ StrategyServes strategy clientId mqSet cidAll := by
  have hsorted : AllocateMessageQueueAveragely.sortIds cidAll ≠ [] := by
    intro hnil
    have hlength : (AllocateMessageQueueAveragely.sortIds cidAll).length = cidAll.length :=
      List.length_mergeSort cidAll
    rw [hnil] at hlength
    exact hcids (List.length_eq_zero_iff.mp hlength.symm)
  cases strategy with
  | averagely =>
    have hqueues : mqSet.toList = [] ↔ mqSet.isEmpty = true := by
      rw [← List.isEmpty_iff, Std.ExtTreeSet.isEmpty_toList]
    simp only [AllocateMessageQueueStrategy.allocate, AllocateMessageQueueAveragely.allocate,
      StrategyServes, List.isEmpty_iff, hsorted, if_false]
    by_cases hid : clientId = []
    · simp [hid]
    · by_cases hempty : mqSet.toList = []
      · simp [hid, hempty, hqueues.mp hempty]
      · have hnot : mqSet.isEmpty = false := Bool.eq_false_iff.mpr fun h ↦ hempty (hqueues.mpr h)
        rw [if_neg hid, dif_neg hempty]
        split <;> simp [hid, hnot]
  | byConfig => simp [AllocateMessageQueueStrategy.allocate, StrategyServes]
  | byMachineRoom => simp [AllocateMessageQueueStrategy.allocate, StrategyServes]
  | other allocate =>
    simp only [AllocateMessageQueueStrategy.allocate, StrategyServes]
    cases allocate clientId mqSet.toList (AllocateMessageQueueAveragely.sortIds cidAll) <;> simp

/-- A strategy that throws leaves the local pointer as it was found, whatever that is. -/
theorem uninitialised_of_raises {input : RebalanceInput} {s : RebalanceImpl} {topic : StdString}
    (h : StrategyRaises input s topic) (stack : Option (List MessageQueue)) :
    (rebalanceByTopic input stack s topic).2 = true := by
  obtain ⟨hmodel, mqSet, e, htable, hcids, herror⟩ := h
  simp [rebalanceByTopic, hmodel, htable, hcids, herror]

/-- The assignment survives a failing allocation exactly when there is none: for a broadcasting
consumer, a topic without queues known, a group without ids known, or a strategy that has what it
needs. -/
theorem failureLeavesAssignment_iff (input : RebalanceInput) (stack : Option (List MessageQueue))
    (s : RebalanceImpl) (topic : StdString) :
    FailureLeavesAssignment input stack s topic ↔
      input.messageModel = .broadcasting ∨ topic ∉ input.topicSubscribeInfoTable ∨
        input.findConsumerIdList topic s.consumerGroup = [] ∨
        ∀ mqSet, input.topicSubscribeInfoTable[topic]? = some mqSet →
          StrategyServes input.allocateMessageQueueStrategy input.clientId mqSet
            (input.findConsumerIdList topic s.consumerGroup) := by
  constructor
  · intro h
    have hnot : ¬ StrategyRaises input s topic := by
      intro hraises
      have hread : (rebalanceByTopic input stack s topic).2 = false := (h hraises).2.2.2
      rw [uninitialised_of_raises hraises stack] at hread
      cases hread
    cases hmodel : input.messageModel with
    | broadcasting => exact Or.inl rfl
    | clustering =>
      refine Or.inr (Or.inr (or_iff_not_imp_left.mpr fun hcids mqSet htable ↦ ?_))
      by_contra hserves
      obtain ⟨e, herror⟩ := (error_iff_not_strategyServes hcids).mpr hserves
      exact hnot ⟨hmodel, mqSet, e, htable, hcids, herror⟩
  · rintro hcondition ⟨hmodel, mqSet, e, htable, hcids, herror⟩
    exfalso
    rcases hcondition with hbroadcasting | habsent | hnone | hserves
    · rw [hmodel] at hbroadcasting
      cases hbroadcasting
    · apply habsent
      rw [Std.ExtTreeMap.mem_iff_isSome_getElem?, htable]
      rfl
    · exact hcids hnone
    · exact (error_iff_not_strategyServes hcids).mp ⟨e, herror⟩ (hserves mqSet htable)

/-- A topic `t` that has lost its queues, and a consumer that still owns one of them. -/
def sampleInput : RebalanceInput where
  messageModel := .clustering
  topicSubscribeInfoTable := {(str "t", ∅)}
  allocateMessageQueueStrategy := .averagely
  clientId := str "10.0.0.1@DEFAULT"
  findConsumerIdList := fun _ _ ↦ [str "10.0.0.1@DEFAULT"]
  computePullFromWhere := fun _ ↦ 0

def sampleImpl : RebalanceImpl where
  consumerGroup := str "g"
  processQueueTable := {(⟨str "t", str "b", 0⟩, some 0)}
  dropped := ∅
  removed := []
  pullRequestQueue := []
  nextAddress := 1

/-- The strategy throws, and when the stack happens to hold a `NULL` the queue is dropped. -/
theorem emptyTopic_dropped :
    StrategyRaises sampleInput sampleImpl (str "t") ∧
      0 ∈ (rebalanceByTopic sampleInput none sampleImpl (str "t")).1.dropped ∧
      ¬ FailureLeavesAssignment sampleInput none sampleImpl (str "t") := by
  have hraises : StrategyRaises sampleInput sampleImpl (str "t") :=
    ⟨rfl, ∅, _, by decide, by decide, rfl⟩
  refine ⟨hraises, by decide, fun h ↦ ?_⟩
  have hread : (rebalanceByTopic sampleInput none sampleImpl (str "t")).2 = false :=
    (h hraises).2.2.2
  rw [uninitialised_of_raises hraises none] at hread
  cases hread

end RebalanceImpl
end RocketMQ
