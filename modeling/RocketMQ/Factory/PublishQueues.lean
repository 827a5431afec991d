import RocketMQ.Base.KeySort
import RocketMQ.Factory.CleanOfflineBroker
import RocketMQ.Factory.RouteNeed

/-!
# The queues that a route gives to producers

For a route without `orderTopicConf`, `MQClientFactory::topicRouteData2TopicPublishInfo` lists the
queues of the writable brokers that have a master. A send looks the address of the master up in
`m_brokerAddrTable`, which the same update fills from the broker data of the route.
-/

namespace RocketMQ

namespace TopicRouteData

/-- The broker data has an address of a master under the name. -/
def HasMaster (route : TopicRouteData) (brokerName : StdString) : Prop :=
  ∃ bd ∈ route.brokerDatas, bd.brokerName = brokerName ∧ masterId ∈ bd.brokerAddrs

instance (route : TopicRouteData) (brokerName : StdString) :
    Decidable (route.HasMaster brokerName) :=
  inferInstanceAs (Decidable (∃ bd ∈ route.brokerDatas, _))

/-- The queues of an entry of the queue data that messages can be sent to. -/
def sendable (topic : StdString) (route : TopicRouteData) (qd : QueueData) : List MessageQueue :=
  if PermName.isWriteable qd.perm ∧ route.HasMaster qd.brokerName then
    queuesOf topic qd.brokerName qd.writeQueueNums
  else []

section Names

variable {topic : StdString} {route : TopicRouteData} {table : BrokerAddrTable} {bd : BrokerData}

/-- The broker that a search by name finds, when no other one has that name. -/
theorem find?_brokerDatas (hnames : (route.brokerDatas.map BrokerData.brokerName).Nodup)
    (hmem : bd ∈ route.brokerDatas) :
    route.brokerDatas.find? (fun bd' ↦ bd'.brokerName = bd.brokerName) = some bd := by
  cases hfind : route.brokerDatas.find? (fun bd' ↦ bd'.brokerName = bd.brokerName) with
  | none =>
    have hne := List.find?_eq_none.mp hfind bd hmem
    exact absurd (decide_eq_true rfl) hne
  | some bd' =>
    have hname : bd'.brokerName = bd.brokerName := by simpa using List.find?_some hfind
    rw [List.inj_on_of_nodup_map hnames (List.mem_of_find?_eq_some hfind) hmem hname]

/-- The publish info has the sendable queues of the sorted entries. -/
theorem writableQueues_eq (hnames : (route.brokerDatas.map BrokerData.brokerName).Nodup) :
    writableQueues topic route = route.sorted.queueDatas.flatMap (route.sendable topic) := by
  unfold writableQueues
  congr
  funext qd
  rw [sendable]
  by_cases hwriteable : PermName.isWriteable qd.perm = true
  · rw [if_pos hwriteable]
    by_cases hmaster : route.HasMaster qd.brokerName
    · rw [if_pos ⟨hwriteable, hmaster⟩]
      obtain ⟨bd, hmem, hname, haddr⟩ := hmaster
      simp only [← hname, find?_brokerDatas hnames hmem, if_pos haddr]
    · rw [if_neg fun h ↦ hmaster h.2]
      cases hfind : route.brokerDatas.find? (fun bd ↦ bd.brokerName = qd.brokerName) with
      | none => rfl
      | some bd =>
        have hname : bd.brokerName = qd.brokerName := by simpa using List.find?_some hfind
        exact if_neg fun haddr ↦ hmaster ⟨bd, List.mem_of_find?_eq_some hfind, hname, haddr⟩
  · rw [if_neg hwriteable, if_neg fun h ↦ hwriteable h.1]

/-- A queue that is listed is one of a broker of the route that has a master. -/
theorem hasMaster_of_mem {qd : QueueData} {mq : MessageQueue} (h : mq ∈ route.sendable topic qd) :
    route.HasMaster mq.brokerName := by
  rw [sendable] at h
  split_ifs at h with hsendable
  · obtain ⟨i, -, rfl⟩ := List.mem_map.mp h
    exact hsendable.2
  · cases h

/-- Names that the rest of the broker data does not have keep their addresses. -/
theorem getElem?_foldl_insert_of_notMem {brokerName : StdString} {bds : List BrokerData}
    (h : brokerName ∉ bds.map BrokerData.brokerName) (table : BrokerAddrTable) :
    (bds.foldl (fun table bd ↦ table.insert bd.brokerName bd.brokerAddrs) table)[brokerName]? =
      table[brokerName]? := by
  induction bds generalizing table with
  | nil => rfl
  | cons bd bds ih =>
    rw [List.map_cons, List.mem_cons, not_or] at h
    rw [List.foldl_cons, ih h.2, Std.ExtTreeMap.getElem?_insert,
      if_neg fun heq ↦ h.1 (Std.LawfulEqCmp.eq_of_compare heq).symm]

/-- After the install the table has the addresses of every broker of the route. -/
theorem getElem?_install_of_mem (hnames : (route.brokerDatas.map BrokerData.brokerName).Nodup)
    (hmem : bd ∈ route.brokerDatas) (table : BrokerAddrTable) :
    (table.install route)[bd.brokerName]? = some bd.brokerAddrs := by
  rw [BrokerAddrTable.install]
  generalize route.brokerDatas = bds at hnames hmem
  induction bds generalizing table with
  | nil => cases hmem
  | cons bd' bds ih =>
    rw [List.map_cons, List.nodup_cons] at hnames
    rw [List.foldl_cons]
    rcases List.mem_cons.mp hmem with rfl | hrest
    · rw [getElem?_foldl_insert_of_notMem hnames.1, Std.ExtTreeMap.getElem?_insert_self]
    · exact ih _ hnames.2 hrest

/-- The master of a broker of the route is found after the install. -/
theorem findBrokerAddressInPublish_install
    (hnames : (route.brokerDatas.map BrokerData.brokerName).Nodup) (hmem : bd ∈ route.brokerDatas)
    (hmaster : masterId ∈ bd.brokerAddrs) (table : BrokerAddrTable) :
    bd.brokerAddrs[masterId]? =
      some ((table.install route).findBrokerAddressInPublish bd.brokerName) := by
  simp only [BrokerAddrTable.findBrokerAddressInPublish, getElem?_install_of_mem hnames hmem,
    Std.ExtTreeMap.getElem?_eq_some_getElem hmaster, Option.getD_some]

end Names
end TopicRouteData

namespace MQClientFactory

variable {f g : MQClientFactory} {topic : StdString} {route : TopicRouteData}

theorem brokerAddrTable_install (h : f.install topic route = some g) :
    g.brokerAddrTable = f.brokerAddrTable.install route := by
  rw [install] at h
  cases hinfo : topicRouteData2TopicPublishInfo topic route with
  | none =>
    rw [hinfo] at h
    cases h
  | some info =>
    rw [hinfo] at h
    cases h
    rfl

/-- A call that returns true has installed its route, and one that returns false has done
nothing. -/
theorem update_returned {call : RouteCall} {r : Bool}
    (h : f.updateTopicRouteInfoFromNameServer call = some (g, r)) :
    (r = true ∧ ∃ route, call.route = some route ∧ f.install call.topic route = some g) ∨
      (r = false ∧ g = f) := by
  rw [updateTopicRouteInfoFromNameServer] at h
  by_cases hlock : call.tryLock = true
  · rw [if_pos hlock] at h
    cases hroute : call.route with
    | none =>
      simp only [hroute] at h
      cases h
      exact Or.inr ⟨rfl, rfl⟩
    | some route =>
      simp only [hroute] at h
      by_cases hchanged : f.changed call.topic route = true
      · rw [if_pos hchanged] at h
        obtain ⟨g', hinstall, hpair⟩ := Option.map_eq_some_iff.mp h
        cases hpair
        exact Or.inl ⟨rfl, route, rfl, hinstall⟩
      · rw [if_neg hchanged] at h
        cases h
        exact Or.inr ⟨rfl, rfl⟩
  · rw [if_neg hlock] at h
    cases h
    exact Or.inr ⟨rfl, rfl⟩

/-- A call that returns true has installed the route it got. -/
theorem install_of_update {call : RouteCall} (hroute : call.route = some route)
    (h : f.updateTopicRouteInfoFromNameServer call = some (g, true)) :
    f.install call.topic route = some g := by
  rcases update_returned h with ⟨-, route', hroute', hinstall⟩ | ⟨hfalse, -⟩
  · rw [hroute] at hroute'
    cases hroute'
    exact hinstall
  · cases hfalse

/-- **Sendable queues**: a route without `orderTopicConf` and without a broker that is listed twice
gives to the producers the sendable queues of its entries, stably sorted by the broker name; and
right after the update that installed it, the address that is found for the broker of each of them
is the one of its master. -/
theorem publishes_sendable (topic : StdString) (route : TopicRouteData)
    (hconf : route.orderTopicConf = [])
    (hnames : (route.brokerDatas.map BrokerData.brokerName).Nodup) :
    ∃ info, topicRouteData2TopicPublishInfo topic route = some info ∧
      (∃ qds, Base.StableSortOf QueueData.brokerName route.queueDatas qds ∧
        info.messageQueueList = qds.flatMap (route.sendable topic)) ∧
      ∀ (f g : MQClientFactory) (call : RouteCall), call.topic = topic → call.route = some route →
        f.updateTopicRouteInfoFromNameServer call = some (g, true) →
        (∀ (group : StdString) (table : TopicPublishInfoTable),
          f.producerTable[group]? = some table → ∃ table' info',
            g.producerTable[group]? = some table' ∧ table'[topic]? = some info' ∧
            info'.messageQueueList = info.messageQueueList) ∧
        ∀ mq ∈ info.messageQueueList, ∃ bd ∈ route.brokerDatas, bd.brokerName = mq.brokerName ∧
          bd.brokerAddrs[masterId]? =
            some (g.brokerAddrTable.findBrokerAddressInPublish mq.brokerName) := by
  have hinfo : topicRouteData2TopicPublishInfo topic route =
      some ⟨writableQueues topic route, 0⟩ := by
    simp [topicRouteData2TopicPublishInfo, hconf]
  have hqueues : writableQueues topic route = _ := TopicRouteData.writableQueues_eq hnames
  refine ⟨_, hinfo, ⟨route.sorted.queueDatas, Base.stableSortOf_mergeSort _ _, hqueues⟩, ?_⟩
  intro f g call htopic hroute hupdate
  have hinstall := install_of_update hroute hupdate
  rw [htopic] at hinstall
  constructor
  · intro group table htable
    obtain ⟨table', hget, derived, info', hderived, hinfo', hsame⟩ :=
      holdsPublishInfo_install hinstall htable
    rw [hinfo] at hderived
    cases hderived
    exact ⟨table', info', hget, hinfo', hsame⟩
  · intro mq hmq
    change mq ∈ writableQueues topic route at hmq
    rw [hqueues, List.mem_flatMap] at hmq
    obtain ⟨qd, -, hmq⟩ := hmq
    obtain ⟨bd, hmem, hname, hmaster⟩ := TopicRouteData.hasMaster_of_mem hmq
    rw [brokerAddrTable_install hinstall, ← hname]
    exact ⟨bd, hmem, rfl, TopicRouteData.findBrokerAddressInPublish_install hnames hmem hmaster _⟩

/-- Three brokers with queues, the first one without a master and the last one not writable. -/
def mixedRoute : TopicRouteData where
  orderTopicConf := []
  queueDatas := [⟨str "a", 1, 1, 6⟩, ⟨str "b", 4, 2, 6⟩, ⟨str "c", 1, 1, 4⟩]
  brokerDatas := [⟨str "b", {(0, str "b:10911")}⟩, ⟨str "a", {(1, str "a:10911")}⟩,
    ⟨str "c", {(0, str "c:10911")}⟩]

/-- A factory with a producer that knows no topic yet. -/
def producingFactory : MQClientFactory := ⟨∅, ∅, {(str "p", ∅)}, ∅⟩

/-- It with the route installed: the queues of the broker in the middle, and all addresses. -/
def mixedFactory : MQClientFactory where
  topicRouteTable := {(str "t", mixedRoute)}
  brokerAddrTable := {(str "b", {(0, str "b:10911")}), (str "a", {(1, str "a:10911")}),
    (str "c", {(0, str "c:10911")})}
  producerTable :=
    {(str "p", {(str "t", ⟨[⟨str "t", str "b", 0⟩, ⟨str "t", str "b", 1⟩], 0⟩)})}
  consumerTable := ∅

theorem writableQueues_mixed :
    writableQueues (str "t") mixedRoute = [⟨str "t", str "b", 0⟩, ⟨str "t", str "b", 1⟩] := by
  have hsorted : mixedRoute.sorted.queueDatas = mixedRoute.queueDatas :=
    List.mergeSort_of_pairwise (by decide)
  rw [TopicRouteData.writableQueues_eq (by decide), hsorted]
  decide +kernel

theorem update_mixed :
    updateTopicRouteInfoFromNameServer producingFactory ⟨str "t", true, some mixedRoute⟩ =
      some (mixedFactory, true) := by
  have hinfo : topicRouteData2TopicPublishInfo (str "t") mixedRoute =
      some ⟨[⟨str "t", str "b", 0⟩, ⟨str "t", str "b", 1⟩], 0⟩ := by
    rw [← writableQueues_mixed]
    rfl
  have hinstall : producingFactory.install (str "t") mixedRoute = some mixedFactory := by
    rw [install, hinfo]
    rfl
  have hchanged : producingFactory.changed (str "t") mixedRoute = true := rfl
  simp only [updateTopicRouteInfoFromNameServer, if_true, hchanged, hinstall, Option.map_some]

/-- The producer is given the queues of the broker in the middle, whose master is found. -/
theorem publishes_sendable_mixed :
    updateTopicRouteInfoFromNameServer producingFactory ⟨str "t", true, some mixedRoute⟩ =
        some (mixedFactory, true) ∧
      (∃ table info, mixedFactory.producerTable[str "p"]? = some table ∧
        table[str "t"]? = some info ∧
        info.messageQueueList = [⟨str "t", str "b", 0⟩, ⟨str "t", str "b", 1⟩]) ∧
      ∃ bd ∈ mixedRoute.brokerDatas, bd.brokerName = str "b" ∧ bd.brokerAddrs[masterId]? =
        some (mixedFactory.brokerAddrTable.findBrokerAddressInPublish (str "b")) := by
  obtain ⟨info, hinfo, -, hupdate⟩ :=
    publishes_sendable (str "t") mixedRoute rfl (by decide)
  have hqueues : info.messageQueueList = [⟨str "t", str "b", 0⟩, ⟨str "t", str "b", 1⟩] := by
    cases hinfo
    exact writableQueues_mixed
  obtain ⟨hproducers, hmasters⟩ := hupdate _ _ _ rfl rfl update_mixed
  obtain ⟨table, info', htable, hinfo', hsame⟩ := hproducers (str "p") ∅ rfl
  refine ⟨update_mixed, ⟨table, info', htable, hinfo', hsame.trans hqueues⟩, ?_⟩
  exact hmasters ⟨str "t", str "b", 0⟩ (hqueues ▸ List.mem_cons_self)

end MQClientFactory
end RocketMQ
