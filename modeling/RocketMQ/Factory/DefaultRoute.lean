import Mathlib.Data.List.Perm.Basic
import RocketMQ.Base.Segments
import RocketMQ.Factory.OrderTopicConf
import RocketMQ.Factory.PublishQueues

/-!
# The route of the default topic

For a topic without a route `updateTopicRouteInfoFromNameServer` takes the one of the default
topic, with the numbers of queues cut down to `defaultTopicQueueNums`. The loop cuts down copies,
so producers get the queues of the route as it came.
-/

namespace RocketMQ

/-- `src/MQClientFactory.cpp:224–237`. -/
def QueueData.cutDown (defaultTopicQueueNums : Int) (qd : QueueData) : QueueData :=
  let queueNums := min defaultTopicQueueNums qd.readQueueNums
  { qd with readQueueNums := queueNums, writeQueueNums := queueNums }

namespace TopicRouteData

/-- `src/MQClientFactory.cpp:219–238`: `dataList` is a copy of the list, `data` one of its
element, and the route keeps its own. -/
def cutDown (defaultTopicQueueNums : Int) (route : TopicRouteData) : TopicRouteData :=
  let _dataList := route.queueDatas.map (QueueData.cutDown defaultTopicQueueNums)
  route

/-- How many queues of an entry should be listed for a default topic. -/
def clampedNums (defaultTopicQueueNums : Int) (route : TopicRouteData) (qd : QueueData) : Nat :=
  if PermName.isWriteable qd.perm ∧ route.HasMaster qd.brokerName then
    (min defaultTopicQueueNums qd.readQueueNums).toNat
  else 0

/-- The queues that a default route should give: of every writable broker with a master those
below the smaller one of its read queues and `defaultTopicQueueNums`. -/
def clampedQueues (defaultTopicQueueNums : Int) (topic : StdString) (route : TopicRouteData) :
    List MessageQueue :=
  route.queueDatas.flatMap fun qd ↦
    if PermName.isWriteable qd.perm ∧ route.HasMaster qd.brokerName then
      queuesOf topic qd.brokerName (min defaultTopicQueueNums qd.readQueueNums)
    else []

/-- The numbers of queues are cut down already: the entries list, up to order, as many queues under
each broker name as they should. An order configuration can be read, and its items, but for those
without queues, have just these names and numbers, up to order. -/
def CutDownAlready (defaultTopicQueueNums : Int) (route : TopicRouteData) : Prop :=
  if route.orderTopicConf = [] then
    (route.queueDatas.map fun qd ↦ (qd.brokerName, route.listedNums qd)).Perm
      (route.queueDatas.map fun qd ↦
        (qd.brokerName, route.clampedNums defaultTopicQueueNums qd))
  else
    ItemsOK route.orderTopicConf ∧
      (((route.orderTopicConf.splitOn 59).map orderItemNums).filter (0 < ·.2)).Perm
        ((route.queueDatas.map fun qd ↦
          (qd.brokerName, route.clampedNums defaultTopicQueueNums qd)).filter (0 < ·.2))

section Queues

variable {d : Int} {topic : StdString} {route : TopicRouteData}

/-- A queue of the topic, by its broker and number. -/
def itemQueue (topic : StdString) (item : StdString × Nat) : MessageQueue :=
  ⟨topic, item.1, item.2⟩

theorem itemQueue_injective (topic : StdString) : Function.Injective (itemQueue topic) := by
  rintro ⟨b, i⟩ ⟨b', i'⟩ heq
  obtain ⟨-, hname, hi⟩ := MessageQueue.mk.inj heq
  exact Prod.ext hname (Int.ofNat_inj.mp hi)

/-- Queues of entries as numbered items. -/
theorem flatMap_queues_eq (topic : StdString) (nums : QueueData → Nat) (qds : List QueueData) :
    (qds.flatMap fun qd ↦ (List.range (nums qd)).map fun i ↦ itemQueue topic (qd.brokerName, i)) =
      (Base.segments QueueData.brokerName nums qds).map (itemQueue topic) := by
  rw [Base.segments, List.map_flatMap]
  simp only [List.map_map, Function.comp_def]

theorem clampedQueues_eq :
    route.clampedQueues d topic =
      (Base.segments QueueData.brokerName (route.clampedNums d) route.queueDatas).map
        (itemQueue topic) := by
  rw [← flatMap_queues_eq, clampedQueues]
  congr
  funext qd
  rw [clampedNums]
  split_ifs
  · rfl
  · rfl

/-- What the publish info lists, up to order. -/
theorem writableQueues_perm :
    (writableQueues topic route).Perm
      ((Base.segments QueueData.brokerName route.listedNums route.queueDatas).map
        (itemQueue topic)) := by
  rw [← flatMap_queues_eq, writableQueues_eq_listed]
  exact (List.mergeSort_perm _ _).flatMap_right _

/-- Without an order configuration: what is listed is what should be. -/
theorem writableQueues_perm_clampedQueues_iff :
    (writableQueues topic route).Perm (route.clampedQueues d topic) ↔
      (route.queueDatas.map fun qd ↦ (qd.brokerName, route.listedNums qd)).Perm
        (route.queueDatas.map fun qd ↦ (qd.brokerName, route.clampedNums d qd)) := by
  rw [← Base.segments_perm_iff, ← List.map_perm_map_iff (itemQueue_injective topic),
    ← clampedQueues_eq]
  exact ⟨writableQueues_perm.symm.trans, writableQueues_perm.trans⟩

/-- With one: its items list what should be. -/
theorem orderQueues_perm_clampedQueues_iff {conf : StdString} :
    (∃ queues, orderQueues topic conf = some queues ∧
        queues.Perm (route.clampedQueues d topic)) ↔
      ItemsOK conf ∧ (((conf.splitOn 59).map orderItemNums).filter (0 < ·.2)).Perm
        ((route.queueDatas.map fun qd ↦ (qd.brokerName, route.clampedNums d qd)).filter
          (0 < ·.2)) := by
  have hqueues (hitems : ItemsOK conf) : orderQueues topic conf =
      some ((Base.segments (fun item ↦ (orderItemNums item).1) (fun item ↦ (orderItemNums item).2)
        (conf.splitOn 59)).map (itemQueue topic)) := by
    rw [orderQueues_of_itemsOK hitems, Base.segments, List.map_flatMap]
    simp only [List.map_map]
    rfl
  rw [show (conf.splitOn 59).map orderItemNums = (conf.splitOn 59).map fun item ↦
      ((orderItemNums item).1, (orderItemNums item).2) from rfl, ← Base.segments_perm_iff_filter,
    ← List.map_perm_map_iff (itemQueue_injective topic), ← clampedQueues_eq]
  constructor
  · rintro ⟨queues, hsome, hperm⟩
    have hitems : ItemsOK conf := isSome_orderQueues_iff.mp (Option.isSome_of_eq_some hsome)
    rw [hqueues hitems, Option.some.injEq] at hsome
    exact ⟨hitems, hsome ▸ hperm⟩
  · rintro ⟨hitems, hperm⟩
    exact ⟨_, hqueues hitems, hperm⟩

/-- The publish info has the right queues when the numbers are cut down already. -/
theorem publishInfo_perm_iff :
    (∃ info, topicRouteData2TopicPublishInfo topic route = some info ∧
        info.messageQueueList.Perm (route.clampedQueues d topic)) ↔
      route.CutDownAlready d := by
  rw [CutDownAlready, topicRouteData2TopicPublishInfo]
  by_cases hconf : route.orderTopicConf = []
  · rw [if_pos hconf, if_neg (by simp [hconf])]
    simp only [Option.some.injEq, exists_eq_left']
    exact writableQueues_perm_clampedQueues_iff
  · rw [if_neg hconf, if_pos (by simpa using hconf), ← orderQueues_perm_clampedQueues_iff]
    simp only [Option.map_eq_some_iff]
    constructor
    · rintro ⟨_, ⟨queues, hqueues, rfl⟩, hperm⟩
      exact ⟨queues, hqueues, hperm⟩
    · rintro ⟨queues, hqueues, hperm⟩
      exact ⟨_, ⟨queues, hqueues, rfl⟩, hperm⟩

end Queues
end TopicRouteData

namespace MQClientFactory

/-- `updateTopicRouteInfoFromNameServer(topic, true, producer)`, when it gets this route of the
default topic. -/
def defaultRouteCall (defaultTopicQueueNums : Int) (topic : StdString) (route : TopicRouteData) :
    RouteCall :=
  ⟨topic, true, some (route.cutDown defaultTopicQueueNums)⟩

/-- For a topic without a route, the call gives every producer the queues of the default route, cut
down to `defaultTopicQueueNums`. -/
def GivesClamped (defaultTopicQueueNums : Int) (topic : StdString) (route : TopicRouteData) :
    Prop :=
  ∀ f : MQClientFactory, f.topicRouteTable[topic]? = none →
    ∃ g, f.updateTopicRouteInfoFromNameServer
        (defaultRouteCall defaultTopicQueueNums topic route) = some (g, true) ∧
      ∀ (group : StdString) (table : TopicPublishInfoTable), f.producerTable[group]? = some table →
        ∃ table' info, g.producerTable[group]? = some table' ∧ table'[topic]? = some info ∧
          info.messageQueueList.Perm (route.clampedQueues defaultTopicQueueNums topic)

section Default

variable {f : MQClientFactory} {d : Int} {topic : StdString} {route : TopicRouteData}

/-- A topic without a route gets the default one as it came. -/
theorem update_defaultRouteCall (hunknown : f.topicRouteTable[topic]? = none) :
    f.updateTopicRouteInfoFromNameServer (defaultRouteCall d topic route) =
      (f.install topic route).map fun f ↦ (f, true) := by
  have hchanged : f.changed topic route = true := by
    rw [changed, hunknown]
  simp only [updateTopicRouteInfoFromNameServer, defaultRouteCall, TopicRouteData.cutDown,
    hchanged, if_true]

/-- An install comes to an end when the publish info does. -/
theorem exists_install {info : TopicPublishInfo}
    (h : topicRouteData2TopicPublishInfo topic route = some info) :
    ∃ g, f.install topic route = some g := by
  rw [install, h]
  exact ⟨_, rfl⟩

/-- The producers are given what the publish info of the route as it came lists. -/
theorem givesClamped_iff_publishInfo :
    GivesClamped d topic route ↔ ∃ info, topicRouteData2TopicPublishInfo topic route = some info ∧
      info.messageQueueList.Perm (route.clampedQueues d topic) := by
  constructor
  · intro hgives
    obtain ⟨g, hupdate, hproducers⟩ := hgives ⟨∅, ∅, {(str "g", ∅)}, ∅⟩ rfl
    rw [update_defaultRouteCall rfl] at hupdate
    obtain ⟨g', hinstall, hpair⟩ := Option.map_eq_some_iff.mp hupdate
    cases hpair
    obtain ⟨table', info, htable', hinfo, hperm⟩ := hproducers (str "g") ∅ rfl
    have hproducer : ({(str "g", ∅)} :
        Std.ExtTreeMap StdString TopicPublishInfoTable)[str "g"]? = some ∅ := rfl
    obtain ⟨table'', htable'', derived, info', hderived, hinfo', hqueues⟩ :=
      holdsPublishInfo_install hinstall hproducer
    rw [htable', Option.some.injEq] at htable''
    subst htable''
    rw [hinfo, Option.some.injEq] at hinfo'
    subst hinfo'
    exact ⟨derived, hderived, hqueues ▸ hperm⟩
  · rintro ⟨derived, hderived, hperm⟩ f hunknown
    obtain ⟨g, hinstall⟩ := exists_install (f := f) hderived
    refine ⟨g, by rw [update_defaultRouteCall hunknown, hinstall]; rfl, fun group table htable ↦ ?_⟩
    obtain ⟨table', htable', derived', info, hderived', hinfo, hqueues⟩ :=
      holdsPublishInfo_install hinstall htable
    rw [hderived, Option.some.injEq] at hderived'
    subst hderived'
    exact ⟨table', info, htable', hinfo, hqueues ▸ hperm⟩

end Default

/-- **Default routes are clamped** exactly when their numbers of queues are cut down already. -/
theorem givesClamped_iff (defaultTopicQueueNums : Int) (topic : StdString)
    (route : TopicRouteData) :
    GivesClamped defaultTopicQueueNums topic route ↔
      route.CutDownAlready defaultTopicQueueNums :=
  givesClamped_iff_publishInfo.trans TopicRouteData.publishInfo_perm_iff

/-- A default route of one broker with four queues each to read and to write. -/
def fourQueues : TopicRouteData where
  orderTopicConf := []
  queueDatas := [⟨str "b", 4, 4, 6⟩]
  brokerDatas := [⟨str "b", {(0, str "b:10911")}⟩]

/-- With a `defaultTopicQueueNums` of one, all four are given. -/
theorem fourQueues_not_clamped : ¬ GivesClamped 1 (str "t") fourQueues := by
  rw [givesClamped_iff_publishInfo]
  rintro ⟨info, hinfo, hperm⟩
  cases hinfo
  have hlength := (TopicRouteData.writableQueues_perm.symm.trans hperm).length_eq
  revert hlength
  decide +kernel

end MQClientFactory
end RocketMQ
