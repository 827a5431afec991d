import RocketMQ.Base.Run
import RocketMQ.Factory.TopicRoute

/-!
# Installing a route

`MQClientFactory::updateTopicRouteInfoFromNameServer` hands a new route to the registered
producers and consumers. A push consumer puts the queues of the topic into
`m_topicSubscribeInfoTable` with `map::insert`, which does nothing when the topic has an entry
already.
-/

namespace RocketMQ

/-! ### The clients of a factory -/

/-- `m_topicPublishInfoTable` of a producer. -/
abbrev TopicPublishInfoTable := Std.ExtTreeMap StdString TopicPublishInfo

/-- Of a push consumer: the topics of `m_subscriptionInner`, and `m_topicSubscribeInfoTable`,
`src/consumer/RebalanceImpl.h`. -/
structure DefaultMQPushConsumerImpl where
  subscriptionInner : Std.ExtTreeSet StdString
  topicSubscribeInfoTable : Std.ExtTreeMap StdString (Std.ExtTreeSet MessageQueue)
deriving DecidableEq

/-- `src/consumer/MQConsumerInner.h`: what can be registered in `m_consumerTable`. A pull
consumer ignores routes. -/
inductive MQConsumerInner where
  | push (impl : DefaultMQPushConsumerImpl)
  | pull
deriving DecidableEq

/-- The tables of `src/MQClientFactory.h` that a route goes into. -/
structure MQClientFactory where
  topicRouteTable : Std.ExtTreeMap StdString TopicRouteData
  brokerAddrTable : BrokerAddrTable
  producerTable : Std.ExtTreeMap StdString TopicPublishInfoTable
  consumerTable : Std.ExtTreeMap StdString MQConsumerInner

/-- `DefaultMQPushConsumerImpl::updateTopicSubscribeInfo`,
`src/consumer/DefaultMQPushConsumerImpl.cpp:204–212`. -/
def DefaultMQPushConsumerImpl.updateTopicSubscribeInfo (impl : DefaultMQPushConsumerImpl)
    (topic : StdString) (info : Std.ExtTreeSet MessageQueue) : DefaultMQPushConsumerImpl :=
  if topic ∈ impl.subscriptionInner then
    { impl with topicSubscribeInfoTable := impl.topicSubscribeInfoTable.insertIfNew topic info }
  else impl

/-- `src/consumer/DefaultMQPullConsumerImpl.cpp:132–135` for a pull consumer. -/
def MQConsumerInner.updateTopicSubscribeInfo (topic : StdString)
    (info : Std.ExtTreeSet MessageQueue) : MQConsumerInner → MQConsumerInner
  | push impl => push (impl.updateTopicSubscribeInfo topic info)
  | pull => pull

/-- `DefaultMQProducerImpl::updateTopicPublishInfo`,
`src/producer/DefaultMQProducerImpl.cpp:212–223`: the counter that was there goes into the
`TopicPublishInfo` that all producers are handed. -/
def updateTopicPublishInfo (topic : StdString) (info : TopicPublishInfo)
    (table : TopicPublishInfoTable) : TopicPublishInfo × TopicPublishInfoTable :=
  let info := match table[topic]? with
    | some old => { info with sendWhichQueue := old.sendWhichQueue }
    | none => info
  (info, table.insert topic info)

namespace MQClientFactory

/-! ### The update -/

/-- `src/MQClientFactory.cpp:1141–1175`: it asks the clients and forgets what they say. -/
def isNeedUpdateTopicRouteInfo (_ : MQClientFactory) (_ : StdString) : Bool := false

/-- Whether a route is new, `src/MQClientFactory.cpp:243–261`. -/
def changed (f : MQClientFactory) (topic : StdString) (route : TopicRouteData) : Bool :=
  match f.topicRouteTable[topic]? with
  | some olddata =>
    let changed := olddata.isChange route
    if !changed then f.isNeedUpdateTopicRouteInfo topic else changed
  | none => true

/-- The branch of a new route, `src/MQClientFactory.cpp:263–316`; `none` when making the
publish info reads out of bounds. -/
def install (f : MQClientFactory) (topic : StdString) (route : TopicRouteData) :
    Option MQClientFactory := do
  let publishInfo ← topicRouteData2TopicPublishInfo topic route
  let subscribeInfo := topicRouteData2TopicSubscribeInfo topic route
  return {
    brokerAddrTable := route.brokerDatas.foldl (fun table bd ↦
      table.insert bd.brokerName bd.brokerAddrs) f.brokerAddrTable
    producerTable := (f.producerTable.toList.foldl (fun (info, table) (group, producer) ↦
      let (info, producer) := updateTopicPublishInfo topic info producer
      (info, table.insert group producer)) (publishInfo, f.producerTable)).2
    consumerTable := f.consumerTable.map fun _ impl ↦
      impl.updateTopicSubscribeInfo topic subscribeInfo
    topicRouteTable := f.topicRouteTable.insert topic route }

/-- A call of `updateTopicRouteInfoFromNameServer`, what its `TryLock` says, and the route it
gets: `none` for a `NULL` and for an exception, which is caught. With a default topic the queue
numbers are cut down in copies, so the route stays what it was. -/
structure RouteCall where
  topic : StdString
  tryLock : Bool
  route : Option TopicRouteData

/-- `src/MQClientFactory.cpp:201–347`: the factory afterwards, and what is returned. -/
def updateTopicRouteInfoFromNameServer (f : MQClientFactory) (call : RouteCall) :
    Option (MQClientFactory × Bool) :=
  if call.tryLock then
    match call.route with
    | some route =>
      if f.changed call.topic route then (f.install call.topic route).map fun f ↦ (f, true)
      else some (f, false)
    | none => some (f, false)
  else some (f, false)

/-! ### Subscribers -/

/-- Every registered push consumer that is subscribed to the topic has the queues of the
route. -/
def Follows (f : MQClientFactory) (topic : StdString) (route : TopicRouteData) : Prop :=
  ∀ (group : StdString) (impl : DefaultMQPushConsumerImpl),
    f.consumerTable[group]? = some (.push impl) → topic ∈ impl.subscriptionInner →
    impl.topicSubscribeInfoTable[topic]? = some (topicRouteData2TopicSubscribeInfo topic route)

/-- Every such consumer has no entry for the topic, or these queues already. -/
def Receptive (f : MQClientFactory) (topic : StdString) (route : TopicRouteData) : Prop :=
  ∀ (group : StdString) (impl : DefaultMQPushConsumerImpl),
    f.consumerTable[group]? = some (.push impl) → topic ∈ impl.subscriptionInner →
    impl.topicSubscribeInfoTable[topic]? = none ∨
      impl.topicSubscribeInfoTable[topic]? = some (topicRouteData2TopicSubscribeInfo topic route)

section Install

variable {f g : MQClientFactory} {topic : StdString} {route : TopicRouteData}

theorem consumerTable_install (h : f.install topic route = some g) :
    g.consumerTable = f.consumerTable.map fun _ impl ↦
      impl.updateTopicSubscribeInfo topic (topicRouteData2TopicSubscribeInfo topic route) := by
  rw [install] at h
  cases hinfo : topicRouteData2TopicPublishInfo topic route with
  | none =>
    rw [hinfo] at h
    cases h
  | some info =>
    rw [hinfo] at h
    cases h
    rfl

/-- Inserting keeps an entry that is there. -/
theorem getElem?_updateTopicSubscribeInfo {impl : DefaultMQPushConsumerImpl}
    (hsub : topic ∈ impl.subscriptionInner) (info : Std.ExtTreeSet MessageQueue) :
    (impl.updateTopicSubscribeInfo topic info).topicSubscribeInfoTable[topic]? =
      some ((impl.topicSubscribeInfoTable[topic]?).getD info) := by
  rw [DefaultMQPushConsumerImpl.updateTopicSubscribeInfo, if_pos hsub]
  simp only [Std.ExtTreeMap.getElem?_insertIfNew, Std.ReflCmp.compare_self, true_and]
  split_ifs with hold
  · rw [Std.ExtTreeMap.getElem?_eq_some_getElem hold, Option.getD_some]
  · rw [Std.ExtTreeMap.getElem?_eq_none hold, Option.getD_none]

theorem subscriptionInner_updateTopicSubscribeInfo (impl : DefaultMQPushConsumerImpl)
    (topic : StdString) (info : Std.ExtTreeSet MessageQueue) :
    (impl.updateTopicSubscribeInfo topic info).subscriptionInner = impl.subscriptionInner := by
  rw [DefaultMQPushConsumerImpl.updateTopicSubscribeInfo]
  split_ifs
  · rfl
  · rfl

/-- After a route was installed the subscribers follow it exactly when they were receptive. -/
theorem follows_install_iff (h : f.install topic route = some g) :
    g.Follows topic route ↔ f.Receptive topic route := by
  have hget : ∀ group : StdString, g.consumerTable[group]? = (f.consumerTable[group]?).map
      (MQConsumerInner.updateTopicSubscribeInfo topic
        (topicRouteData2TopicSubscribeInfo topic route)) := by
    intro group
    rw [consumerTable_install h, Std.ExtTreeMap.getElem?_map]
  constructor
  · intro hfollows group impl himpl hsub
    have hnew := hfollows group (impl.updateTopicSubscribeInfo topic
      (topicRouteData2TopicSubscribeInfo topic route)) (by rw [hget, himpl]; rfl)
      (by rwa [subscriptionInner_updateTopicSubscribeInfo])
    rw [getElem?_updateTopicSubscribeInfo hsub] at hnew
    cases hold : impl.topicSubscribeInfoTable[topic]? with
    | none => exact .inl rfl
    | some old =>
      rw [hold, Option.getD_some] at hnew
      exact .inr hnew
  · intro hreceptive group impl himpl hsub
    rw [hget] at himpl
    cases hold : f.consumerTable[group]? with
    | none =>
      rw [hold] at himpl
      cases himpl
    | some inner =>
      cases inner with
      | pull =>
        rw [hold] at himpl
        cases himpl
      | push impl' =>
        rw [hold] at himpl
        cases himpl
        rw [subscriptionInner_updateTopicSubscribeInfo] at hsub
        rw [getElem?_updateTopicSubscribeInfo hsub]
        rcases hreceptive group impl' hold hsub with hnone | hsame
        · rw [hnone, Option.getD_none]
        · rw [hsame, Option.getD_some]

end Install
end MQClientFactory

/-! ### Runs of updates -/

/-- A factory, and the topic and the route of the last call if it returned true. -/
structure RouteState where
  factory : MQClientFactory
  installed : Option (StdString × TopicRouteData)

namespace RouteState

/-- The next call. -/
def step (s : RouteState) (call : MQClientFactory.RouteCall) : Option RouteState :=
  (s.factory.updateTopicRouteInfoFromNameServer call).map fun (factory, updated) ↦
    ⟨factory, if updated then call.route.map fun route ↦ (call.topic, route) else none⟩

/-- When the last call returned true, its subscribers follow its route. -/
def Followed (s : RouteState) : Prop :=
  ∀ topic route, s.installed = some (topic, route) → s.factory.Follows topic route

/-- The lock is not got, or no route, or one that is stored already up to order; or every
registered push consumer that is subscribed to the topic has no entry for it, or has the queues
of this route. -/
def Admits (s : RouteState) (call : MQClientFactory.RouteCall) : Prop :=
  ∀ route, call.tryLock = true → call.route = some route →
    s.factory.changed call.topic route = true → s.factory.Receptive call.topic route

/-- A call installs a new route or leaves the factory alone. -/
theorem step_cases {s t : RouteState} {call : MQClientFactory.RouteCall}
    (h : s.step call = some t) :
    (∃ route, call.tryLock = true ∧ call.route = some route ∧
        s.factory.changed call.topic route = true ∧
        s.factory.install call.topic route = some t.factory ∧
        t.installed = some (call.topic, route)) ∨
      t.factory = s.factory ∧ t.installed = none ∧ s.Admits call := by
  rw [step, MQClientFactory.updateTopicRouteInfoFromNameServer] at h
  by_cases hlock : call.tryLock = true
  · rw [if_pos hlock] at h
    cases hroute : call.route with
    | none =>
      simp only [hroute] at h
      cases h
      refine .inr ⟨rfl, rfl, fun route _ hr ↦ ?_⟩
      rw [hroute] at hr
      cases hr
    | some route =>
      simp only [hroute] at h
      by_cases hchanged : s.factory.changed call.topic route = true
      · rw [if_pos hchanged] at h
        cases hinstall : s.factory.install call.topic route with
        | none =>
          rw [hinstall] at h
          cases h
        | some g =>
          rw [hinstall] at h
          cases h
          exact .inl ⟨route, hlock, rfl, hchanged, hinstall, rfl⟩
      · rw [if_neg hchanged] at h
        cases h
        refine .inr ⟨rfl, rfl, fun route' _ hr hc ↦ ?_⟩
        rw [hroute] at hr
        cases hr
        exact absurd hc hchanged
  · rw [if_neg hlock] at h
    cases h
    exact .inr ⟨rfl, rfl, fun route hl ↦ absurd hl hlock⟩

/-- One call: the subscribers follow it exactly when it is admitted. -/
theorem followed_step_iff {s t : RouteState} {call : MQClientFactory.RouteCall}
    (h : s.step call = some t) : t.Followed ↔ s.Admits call := by
  rcases step_cases h with ⟨route, hlock, hroute, hchanged, hinstall, hinstalled⟩ |
    ⟨-, hnone, hadmits⟩
  · have hiff := MQClientFactory.follows_install_iff hinstall
    constructor
    · intro hfollowed route' _ hr _
      rw [hroute] at hr
      cases hr
      exact hiff.mp (hfollowed call.topic route hinstalled)
    · intro hadmits topic route' hi
      rw [hinstalled] at hi
      cases hi
      exact hiff.mpr (hadmits route hlock hroute hchanged)
  · refine iff_of_true (fun topic route hi ↦ ?_) hadmits
    rw [hnone] at hi
    cases hi

/-- **Following the route**: in a run of updates, from whatever the tables hold, every call that
returns true leaves the subscribers with the queues of its route exactly when no call has a new
route to replace an entry with. -/
theorem followed_iff_admitted (f : MQClientFactory) (calls : List MQClientFactory.RouteCall)
    (t : RouteState) (hrun : Base.runFrom step ⟨f, none⟩ calls = some t) :
    (∀ x, Base.Visits step ⟨f, none⟩ calls x → x.Followed) ↔
      Base.Along step Admits ⟨f, none⟩ calls := by
  have hsafe : ∀ s : RouteState, s.Followed → s.Followed := fun _ h ↦ h
  have hstart : Followed ⟨f, none⟩ := by
    intro topic route hi
    cases hi
  exact Base.safe_iff_along hsafe (fun s call t _ hgood h ↦ (followed_step_iff h).mpr hgood)
    (fun s call t _ hbad h ↦ mt (followed_step_iff h).mp hbad) hstart hrun

/-- A factory with one push consumer that is subscribed to the topic `t`. -/
def sampleFactory : MQClientFactory :=
  ⟨∅, ∅, ∅, {(str "g", .push ⟨{str "t"}, ∅⟩)}⟩

/-- A call that gets a route on which one broker has this number of queues for the topic. -/
def sampleCall (queueNums : Int) : MQClientFactory.RouteCall :=
  ⟨str "t", true, some ⟨[], [⟨str "b", queueNums, queueNums, 6⟩],
    [⟨str "b", {(0, str "a:10911")}⟩]⟩⟩

/-- The first route gets to the consumer. -/
theorem first_route_followed :
    (Base.runFrom step ⟨sampleFactory, none⟩ [sampleCall 1]).isSome ∧
      ∀ x, Base.Visits step ⟨sampleFactory, none⟩ [sampleCall 1] x → x.Followed := by
  refine ⟨rfl, (followed_iff_admitted sampleFactory [sampleCall 1] _ rfl).mpr
    ⟨fun route _ _ _ group impl himpl _ ↦ .inl ?_, fun _ _ ↦ trivial⟩⟩
  have hinsert : sampleFactory.consumerTable[group]? = ((∅ : Std.ExtTreeMap StdString
      MQConsumerInner).insert (str "g") (.push ⟨{str "t"}, ∅⟩))[group]? := rfl
  rw [himpl, Std.ExtTreeMap.getElem?_insert] at hinsert
  split_ifs at hinsert
  · cases hinsert
    rfl
  · cases hinsert

/-- The second one, with another queue, does not: the call returns true and the consumer keeps
the queues of the first one. -/
theorem second_route_not_followed :
    ∃ t, Base.runFrom step ⟨sampleFactory, none⟩ [sampleCall 1, sampleCall 2] = some t ∧
      t.installed = (sampleCall 2).route.map (str "t", ·) ∧ ¬ t.Followed := by
  obtain ⟨t, ht⟩ := Option.isSome_iff_exists.mp (show (Base.runFrom step ⟨sampleFactory, none⟩
    [sampleCall 1, sampleCall 2]).isSome = true by decide +kernel)
  have hinstalled : (Base.runFrom step ⟨sampleFactory, none⟩
      [sampleCall 1, sampleCall 2]).bind installed = (sampleCall 2).route.map (str "t", ·) := by
    decide +kernel
  have hkept : (Base.runFrom step ⟨sampleFactory, none⟩ [sampleCall 1, sampleCall 2]).bind
      (fun t ↦ t.factory.consumerTable[str "g"]?) =
        some (.push ⟨{str "t"}, {(str "t", {⟨str "t", str "b", 0⟩})}⟩) := by
    decide +kernel
  rw [ht] at hinstalled hkept
  refine ⟨t, ht, hinstalled, fun hfollowed ↦ ?_⟩
  have hqueues := hfollowed (str "t") _ hinstalled (str "g") _ hkept (by decide +kernel)
  revert hqueues
  decide +kernel

end RouteState
end RocketMQ
