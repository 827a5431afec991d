import RocketMQ.Factory.RouteUpdate

/-!
# Clients that register after a route was stored

`MQClientFactory::isNeedUpdateTopicRouteInfo` asks every client whether it lacks a topic, so
that an unchanged route is installed once more for a client that came late. What the clients
say is not looked at.
-/

namespace RocketMQ

/-- `DefaultMQProducerImpl::isPublishTopicNeedUpdate`,
`src/producer/DefaultMQProducerImpl.cpp:194–203`. -/
def TopicPublishInfoTable.isPublishTopicNeedUpdate (table : TopicPublishInfoTable)
    (topic : StdString) : Bool :=
  match table[topic]? with
  | some info => !info.ok
  | none => true

/-- `DefaultMQPushConsumerImpl::isSubscribeTopicNeedUpdate`,
`src/consumer/DefaultMQPushConsumerImpl.cpp:219–232`. -/
def DefaultMQPushConsumerImpl.isSubscribeTopicNeedUpdate (impl : DefaultMQPushConsumerImpl)
    (topic : StdString) : Bool :=
  if topic ∈ impl.subscriptionInner then impl.topicSubscribeInfoTable[topic]?.isNone else false

/-- `src/consumer/DefaultMQPullConsumerImpl.cpp:137–141` for a pull consumer. -/
def MQConsumerInner.isSubscribeTopicNeedUpdate (topic : StdString) : MQConsumerInner → Bool
  | push impl => impl.isSubscribeTopicNeedUpdate topic
  | pull => false

namespace MQClientFactory

/-! ### Who lacks a topic -/

/-- A publish table has the queues of the route. The counter may be another one. -/
def HoldsPublishInfo (table : TopicPublishInfoTable) (topic : StdString)
    (route : TopicRouteData) : Prop :=
  ∃ derived info, topicRouteData2TopicPublishInfo topic route = some derived ∧
    table[topic]? = some info ∧ info.messageQueueList = derived.messageQueueList

/-- A consumer has the queues of the route. -/
def HoldsSubscribeInfo (topic : StdString) (route : TopicRouteData) : MQConsumerInner → Prop
  | .push impl =>
    impl.topicSubscribeInfoTable[topic]? = some (topicRouteData2TopicSubscribeInfo topic route)
  | .pull => False

/-- The clients that lacked the topic in `f` have in `g` what the route gives. -/
def Reaches (f g : MQClientFactory) (topic : StdString) (route : TopicRouteData) : Prop :=
  (∀ (group : StdString) (table : TopicPublishInfoTable), f.producerTable[group]? = some table →
    table.isPublishTopicNeedUpdate topic = true →
    ∃ table', g.producerTable[group]? = some table' ∧ HoldsPublishInfo table' topic route) ∧
  ∀ (group : StdString) (impl : MQConsumerInner), f.consumerTable[group]? = some impl →
    impl.isSubscribeTopicNeedUpdate topic = true →
    ∃ impl', g.consumerTable[group]? = some impl' ∧ HoldsSubscribeInfo topic route impl'

/-- No route is stored for the topic, or one that is not the same up to order. -/
def IsNewRoute (f : MQClientFactory) (topic : StdString) (route : TopicRouteData) : Prop :=
  ∀ olddata, f.topicRouteTable[topic]? = some olddata → olddata.isChange route = true

/-- No consumer lacks the topic, and a producer does so only when it has an entry for it and
the route gives it no queue. -/
def NobodyLacks (f : MQClientFactory) (topic : StdString) (route : TopicRouteData) : Prop :=
  (∀ (group : StdString) (table : TopicPublishInfoTable), f.producerTable[group]? = some table →
    table.isPublishTopicNeedUpdate topic = true →
    topic ∈ table ∧ (topicRouteData2TopicPublishInfo topic route).map
      TopicPublishInfo.messageQueueList = some []) ∧
  ∀ (group : StdString) (impl : MQConsumerInner), f.consumerTable[group]? = some impl →
    impl.isSubscribeTopicNeedUpdate topic = false

section Change

variable {f g : MQClientFactory} {topic : StdString} {route : TopicRouteData} {r : Bool}

/-- The need test adds nothing to the comparison of the routes. -/
theorem changed_iff_isNewRoute : f.changed topic route = true ↔ f.IsNewRoute topic route := by
  rw [changed, IsNewRoute]
  cases f.topicRouteTable[topic]? with
  | none => simp
  | some olddata => cases hchange : olddata.isChange route <;>
      simp [isNeedUpdateTopicRouteInfo, hchange]

/-- A call with a route installs it when it is new, and does nothing otherwise. -/
theorem update_cases
    (h : f.updateTopicRouteInfoFromNameServer ⟨topic, true, some route⟩ = some (g, r)) :
    (f.IsNewRoute topic route ∧ f.install topic route = some g) ∨
      (¬ f.IsNewRoute topic route ∧ g = f) := by
  simp only [updateTopicRouteInfoFromNameServer, if_true] at h
  by_cases hchanged : f.changed topic route = true
  · rw [if_pos hchanged] at h
    obtain ⟨f', hinstall, hpair⟩ := Option.map_eq_some_iff.mp h
    cases hpair
    exact .inl ⟨changed_iff_isNewRoute.mp hchanged, hinstall⟩
  · rw [if_neg hchanged] at h
    cases h
    exact .inr ⟨mt changed_iff_isNewRoute.mpr hchanged, rfl⟩

end Change

/-! ### A route that is installed -/

section Install

variable {f g : MQClientFactory} {topic : StdString} {route : TopicRouteData}

/-- The loop over the producers in `install`. -/
def updateProducers (topic : StdString) (producers : List (StdString × TopicPublishInfoTable))
    (start : TopicPublishInfo × Std.ExtTreeMap StdString TopicPublishInfoTable) :
    TopicPublishInfo × Std.ExtTreeMap StdString TopicPublishInfoTable :=
  producers.foldl (fun (info, table) (group, producer) ↦
    let (info, producer) := updateTopicPublishInfo topic info producer
    (info, table.insert group producer)) start

theorem updateTopicPublishInfo_queues (info : TopicPublishInfo) (table : TopicPublishInfoTable) :
    (updateTopicPublishInfo topic info table).1.messageQueueList = info.messageQueueList := by
  rw [updateTopicPublishInfo]
  cases table[topic]? with
  | none => rfl
  | some old => rfl

/-- What a producer is left with has the queues of the info it is handed. -/
theorem getElem?_updateTopicPublishInfo (info : TopicPublishInfo)
    (table : TopicPublishInfoTable) :
    (updateTopicPublishInfo topic info table).2[topic]? =
      some (updateTopicPublishInfo topic info table).1 := by
  rw [updateTopicPublishInfo, Std.ExtTreeMap.getElem?_insert_self]

/-- The loop leaves alone what is stored under the groups it does not visit. -/
theorem getElem?_updateProducers_of_notMem {group : StdString}
    {producers : List (StdString × TopicPublishInfoTable)}
    (h : ∀ p ∈ producers, p.1 ≠ group)
    (start : TopicPublishInfo × Std.ExtTreeMap StdString TopicPublishInfoTable) :
    (updateProducers topic producers start).2[group]? = start.2[group]? := by
  induction producers generalizing start with
  | nil => rfl
  | cons p rest ih =>
    have hne : p.1 ≠ group := h p List.mem_cons_self
    rw [updateProducers, List.foldl_cons, ← updateProducers,
      ih fun q hq ↦ h q (List.mem_cons_of_mem p hq), Std.ExtTreeMap.getElem?_insert,
      if_neg fun heq ↦ hne (Std.LawfulEqCmp.eq_of_compare heq)]

/-- Every producer that the loop visits is updated once, with the same queues. -/
theorem getElem?_updateProducers {group : StdString} {table : TopicPublishInfoTable}
    {producers : List (StdString × TopicPublishInfoTable)}
    (hdistinct : producers.Pairwise (fun p q ↦ p.1 ≠ q.1)) (hmem : (group, table) ∈ producers)
    (start : TopicPublishInfo × Std.ExtTreeMap StdString TopicPublishInfoTable) :
    ∃ info, (updateProducers topic producers start).2[group]? =
        some (updateTopicPublishInfo topic info table).2 ∧
      info.messageQueueList = start.1.messageQueueList := by
  induction producers generalizing start with
  | nil => cases hmem
  | cons p rest ih =>
    obtain ⟨hne, hrest⟩ := List.pairwise_cons.mp hdistinct
    rw [updateProducers, List.foldl_cons, ← updateProducers]
    rcases List.mem_cons.mp hmem with rfl | hmem
    · refine ⟨start.1, ?_, rfl⟩
      rw [getElem?_updateProducers_of_notMem fun q hq ↦ (hne q hq).symm,
        Std.ExtTreeMap.getElem?_insert_self]
    · obtain ⟨info, hget, hqueues⟩ := ih hrest hmem
        ((updateTopicPublishInfo topic start.1 p.2).1,
          start.2.insert p.1 (updateTopicPublishInfo topic start.1 p.2).2)
      exact ⟨info, hget, hqueues.trans (updateTopicPublishInfo_queues start.1 p.2)⟩

theorem producerTable_install (h : f.install topic route = some g) :
    ∃ derived, topicRouteData2TopicPublishInfo topic route = some derived ∧
      g.producerTable =
        (updateProducers topic f.producerTable.toList (derived, f.producerTable)).2 := by
  rw [install] at h
  cases hderived : topicRouteData2TopicPublishInfo topic route with
  | none =>
    rw [hderived] at h
    cases h
  | some derived =>
    rw [hderived] at h
    cases h
    exact ⟨derived, rfl, rfl⟩

/-- An install updates every producer once, with the queues of the route. -/
theorem getElem?_producerTable_install (h : f.install topic route = some g) {group : StdString}
    {table : TopicPublishInfoTable} (htable : f.producerTable[group]? = some table) :
    ∃ derived info, topicRouteData2TopicPublishInfo topic route = some derived ∧
      g.producerTable[group]? = some (updateTopicPublishInfo topic info table).2 ∧
      info.messageQueueList = derived.messageQueueList := by
  obtain ⟨derived, hderived, hproducers⟩ := producerTable_install h
  have hdistinct : f.producerTable.toList.Pairwise (fun p q ↦ p.1 ≠ q.1) := by
    apply Std.ExtTreeMap.distinct_keys_toList.imp
    intro p q hne heq
    exact hne (heq ▸ Std.ReflCmp.compare_self)
  obtain ⟨info, hget, hqueues⟩ := getElem?_updateProducers hdistinct
    (Std.ExtTreeMap.mem_toList_iff_getElem?_eq_some.mpr htable) (derived, f.producerTable)
  exact ⟨derived, info, hderived, by rw [hproducers, hget], hqueues⟩

/-- After an install every producer has the queues of the route. -/
theorem holdsPublishInfo_install (h : f.install topic route = some g) {group : StdString}
    {table : TopicPublishInfoTable} (htable : f.producerTable[group]? = some table) :
    ∃ table', g.producerTable[group]? = some table' ∧ HoldsPublishInfo table' topic route := by
  obtain ⟨derived, info, hderived, hget, hqueues⟩ := getElem?_producerTable_install h htable
  exact ⟨_, hget, derived, _, hderived, getElem?_updateTopicPublishInfo info table,
    (updateTopicPublishInfo_queues info table).trans hqueues⟩

/-- An installed route reaches every client that lacked it. -/
theorem reaches_install (h : f.install topic route = some g) : f.Reaches g topic route := by
  constructor
  · intro group table htable _
    exact holdsPublishInfo_install h htable
  · intro group impl himpl hneed
    cases impl with
    | pull => cases hneed
    | push impl =>
      rw [MQConsumerInner.isSubscribeTopicNeedUpdate,
        DefaultMQPushConsumerImpl.isSubscribeTopicNeedUpdate] at hneed
      split_ifs at hneed with hsub
      have hnone : impl.topicSubscribeInfoTable[topic]? = none := Option.isNone_iff_eq_none.mp hneed
      refine ⟨_, by rw [consumerTable_install h, Std.ExtTreeMap.getElem?_map, himpl]; rfl, ?_⟩
      show (impl.updateTopicSubscribeInfo topic _).topicSubscribeInfoTable[topic]? = _
      rw [getElem?_updateTopicSubscribeInfo hsub, hnone, Option.getD_none]

end Install

/-! ### A route that is stored already -/

section Unchanged

variable {f : MQClientFactory} {topic : StdString} {route : TopicRouteData}

/-- A table that lacks the topic holds the queues of the route only when both are empty. -/
theorem holdsPublishInfo_iff {table : TopicPublishInfoTable}
    (hneed : table.isPublishTopicNeedUpdate topic = true) :
    HoldsPublishInfo table topic route ↔ topic ∈ table ∧
      (topicRouteData2TopicPublishInfo topic route).map TopicPublishInfo.messageQueueList =
        some [] := by
  rw [TopicPublishInfoTable.isPublishTopicNeedUpdate] at hneed
  constructor
  · rintro ⟨derived, info, hderived, hinfo, hqueues⟩
    rw [hinfo] at hneed
    have hempty : info.messageQueueList = [] := by simpa [TopicPublishInfo.ok] using hneed
    refine ⟨Std.ExtTreeMap.mem_iff_isSome_getElem?.mpr (by rw [hinfo, Option.isSome_some]), ?_⟩
    rw [hderived, Option.map_some, ← hqueues, hempty]
  · rintro ⟨hmem, hnone⟩
    obtain ⟨derived, hderived, hqueues⟩ := Option.map_eq_some_iff.mp hnone
    have hinfo : table[topic]? = some table[topic] := Std.ExtTreeMap.getElem?_eq_some_getElem hmem
    rw [hinfo] at hneed
    have hempty : table[topic].messageQueueList = [] := by
      simpa [TopicPublishInfo.ok] using hneed
    exact ⟨derived, table[topic], hderived, hinfo, hempty.trans hqueues.symm⟩

/-- A consumer that lacks the topic does not hold the queues of a route. -/
theorem not_holdsSubscribeInfo {impl : MQConsumerInner}
    (hneed : impl.isSubscribeTopicNeedUpdate topic = true) :
    ¬ HoldsSubscribeInfo topic route impl := by
  cases impl with
  | pull => exact id
  | push impl =>
    rw [MQConsumerInner.isSubscribeTopicNeedUpdate,
      DefaultMQPushConsumerImpl.isSubscribeTopicNeedUpdate] at hneed
    split_ifs at hneed
    intro hholds
    rw [HoldsSubscribeInfo] at hholds
    rw [hholds] at hneed
    cases hneed

/-- A call that installs nothing is right only when nobody lacks the topic. -/
theorem reaches_self_iff : f.Reaches f topic route ↔ f.NobodyLacks topic route := by
  constructor
  · rintro ⟨hproducers, hconsumers⟩
    refine ⟨fun group table htable hneed ↦ ?_, fun group impl himpl ↦ ?_⟩
    · obtain ⟨table', htable', hholds⟩ := hproducers group table htable hneed
      rw [htable] at htable'
      cases htable'
      exact (holdsPublishInfo_iff hneed).mp hholds
    · by_contra hneed
      rw [Bool.not_eq_false] at hneed
      obtain ⟨impl', himpl', hholds⟩ := hconsumers group impl himpl hneed
      rw [himpl] at himpl'
      cases himpl'
      exact not_holdsSubscribeInfo hneed hholds
  · rintro ⟨hproducers, hconsumers⟩
    refine ⟨fun group table htable hneed ↦ ?_, fun group impl himpl hneed ↦ ?_⟩
    · exact ⟨table, htable, (holdsPublishInfo_iff hneed).mpr (hproducers group table htable hneed)⟩
    · rw [hconsumers group impl himpl] at hneed
      cases hneed

end Unchanged

/-- **Late clients**: after a call that obtained a route every client that lacked the topic has
what the route gives exactly when the route is new, or nobody lacked the topic. -/
theorem reaches_iff (f g : MQClientFactory) (topic : StdString) (route : TopicRouteData) (r : Bool)
    (h : f.updateTopicRouteInfoFromNameServer ⟨topic, true, some route⟩ = some (g, r)) :
    f.Reaches g topic route ↔ f.IsNewRoute topic route ∨ f.NobodyLacks topic route := by
  rcases update_cases h with ⟨hnew, hinstall⟩ | ⟨hold, rfl⟩
  · exact iff_of_true (reaches_install hinstall) (.inl hnew)
  · rw [reaches_self_iff, or_iff_right hold]

/-- The route of one broker with one queue for the topic. -/
def lateRoute : TopicRouteData :=
  ⟨[], [⟨str "b", 1, 1, 6⟩], [⟨str "b", {(0, str "a:10911")}⟩]⟩

/-- A factory with one producer, which has not seen the topic `t`, and these stored routes. -/
def lateFactory (routes : Std.ExtTreeMap StdString TopicRouteData) : MQClientFactory :=
  ⟨routes, ∅, {(str "g", ∅)}, ∅⟩

/-- The first call for the topic reaches the producer. -/
theorem first_call_reaches :
    ∃ g, (lateFactory ∅).updateTopicRouteInfoFromNameServer ⟨str "t", true, some lateRoute⟩ =
      some (g, true) ∧ (lateFactory ∅).Reaches g (str "t") lateRoute := by
  refine ⟨_, rfl, (reaches_iff (lateFactory ∅) _ (str "t") lateRoute true rfl).mpr (.inl ?_)⟩
  intro olddata hold
  cases hold

/-- A producer that registers when the route is stored does not get it. -/
theorem late_producer_lacks :
    ∃ g r, (lateFactory {(str "t", lateRoute)}).updateTopicRouteInfoFromNameServer
        ⟨str "t", true, some lateRoute⟩ = some (g, r) ∧
      ¬ (lateFactory {(str "t", lateRoute)}).Reaches g (str "t") lateRoute := by
  have hunchanged : (lateFactory {(str "t", lateRoute)}).changed (str "t") lateRoute = false := by
    decide +kernel
  refine ⟨lateFactory {(str "t", lateRoute)}, false, ?_, fun hreaches ↦ ?_⟩
  · rw [updateTopicRouteInfoFromNameServer, if_pos rfl]
    exact if_neg (by rw [hunchanged]; decide)
  · obtain ⟨hmem, -⟩ := (reaches_self_iff.mp hreaches).1 (str "g") ∅ rfl rfl
    exact Std.ExtTreeMap.not_mem_empty hmem

end MQClientFactory
end RocketMQ
