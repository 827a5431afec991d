import RocketMQ.Base.KeySort
import RocketMQ.Factory.TopicRoute

/-!
# When a route counts as changed

`MQClientFactory::topicRouteDataIsChange` sorts both lists of both routes by the broker name and
compares what it gets. The name alone decides the order when no list has a name twice; otherwise
the order in which the name server lists the entries of one broker counts as well.
-/

namespace RocketMQ

namespace TopicRouteData

/-- The same `orderTopicConf`, and the same queue and broker data, each as often. -/
def SameUpToOrder (olddata nowdata : TopicRouteData) : Prop :=
  olddata.orderTopicConf = nowdata.orderTopicConf ∧
    olddata.queueDatas.Perm nowdata.queueDatas ∧ olddata.brokerDatas.Perm nowdata.brokerDatas

instance (olddata nowdata : TopicRouteData) : Decidable (olddata.SameUpToOrder nowdata) :=
  inferInstanceAs (Decidable (_ ∧ _))

/-- No broker has two entries in the queue data or in the broker data. -/
def DistinctNames (route : TopicRouteData) : Prop :=
  (route.queueDatas.map QueueData.brokerName).Nodup ∧
    (route.brokerDatas.map BrokerData.brokerName).Nodup

instance (route : TopicRouteData) : Decidable route.DistinctNames :=
  inferInstanceAs (Decidable (_ ∧ _))

section Change

variable {olddata nowdata : TopicRouteData}

/-- The sorted queue data of a route. -/
theorem queueDatas_sorted (route : TopicRouteData) :
    route.sorted.queueDatas = route.queueDatas.mergeSort (Base.keyLE QueueData.brokerName) := rfl

/-- The sorted broker data of a route. -/
theorem brokerDatas_sorted (route : TopicRouteData) :
    route.sorted.brokerDatas = route.brokerDatas.mergeSort (Base.keyLE BrokerData.brokerName) := rfl

theorem isChange_eq_false_iff : olddata.isChange nowdata = false ↔
    olddata.orderTopicConf = nowdata.orderTopicConf ∧
      olddata.sorted.queueDatas = nowdata.sorted.queueDatas ∧
      olddata.sorted.brokerDatas = nowdata.sorted.brokerDatas := by
  rw [isChange, decide_eq_false_iff_not, not_not, TopicRouteData.mk.injEq]
  rfl

/-- What sorts to one list has the same elements. -/
theorem sameUpToOrder_of_unchanged (h : olddata.isChange nowdata = false) :
    olddata.SameUpToOrder nowdata := by
  obtain ⟨hconf, hqueues, hbrokers⟩ := isChange_eq_false_iff.mp h
  refine ⟨hconf, ?_, ?_⟩
  · have hperm := (List.mergeSort_perm olddata.queueDatas (Base.keyLE QueueData.brokerName)).symm
    rw [← queueDatas_sorted, hqueues] at hperm
    exact hperm.trans (List.mergeSort_perm _ _)
  · have hperm := (List.mergeSort_perm olddata.brokerDatas (Base.keyLE BrokerData.brokerName)).symm
    rw [← brokerDatas_sorted, hbrokers] at hperm
    exact hperm.trans (List.mergeSort_perm _ _)

/-- Without a name that occurs twice the order of the lists does not matter. -/
theorem unchanged_of_sameUpToOrder (hnames : olddata.DistinctNames)
    (h : olddata.SameUpToOrder nowdata) : olddata.isChange nowdata = false := by
  obtain ⟨hconf, hqueues, hbrokers⟩ := h
  rw [isChange_eq_false_iff]
  refine ⟨hconf, ?_, ?_⟩
  · rw [queueDatas_sorted, queueDatas_sorted, Base.mergeSort_eq_iff_perm _ hnames.1]
    exact hqueues
  · rw [brokerDatas_sorted, brokerDatas_sorted, Base.mergeSort_eq_iff_perm _ hnames.2]
    exact hbrokers

/-- **Change detection**: a route that counts as unchanged is the same up to order; and when no
broker has two entries in a list of either route, it counts as unchanged exactly then. -/
theorem isChange_exact (olddata nowdata : TopicRouteData) :
    (olddata.isChange nowdata = false → olddata.SameUpToOrder nowdata) ∧
      (olddata.DistinctNames → nowdata.DistinctNames →
        (olddata.isChange nowdata = false ↔ olddata.SameUpToOrder nowdata)) :=
  ⟨sameUpToOrder_of_unchanged, fun hnames _ ↦
    ⟨sameUpToOrder_of_unchanged, unchanged_of_sameUpToOrder hnames⟩⟩

end Change

/-- A route with one queue on each of two brokers. -/
def twoBrokers : TopicRouteData where
  orderTopicConf := []
  queueDatas := [⟨str "a", 1, 1, 6⟩, ⟨str "b", 1, 1, 6⟩]
  brokerDatas := [⟨str "a", {(0, str "a:10911")}⟩, ⟨str "b", {(0, str "b:10911")}⟩]

/-- The same route in another order is no change. -/
theorem isChange_exact_reversed :
    twoBrokers.isChange { twoBrokers with
      queueDatas := twoBrokers.queueDatas.reverse
      brokerDatas := twoBrokers.brokerDatas.reverse } = false :=
  ((isChange_exact _ _).2 (by decide) (by decide)).mpr
    ⟨rfl, (List.reverse_perm _).symm, (List.reverse_perm _).symm⟩

end TopicRouteData
end RocketMQ
