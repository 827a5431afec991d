import RocketMQ.Factory.CleanOfflineBroker

/-!
# Which addresses cleaning keeps

`MQClientFactory::cleanOfflineBroker` on its own. `isBrokerAddrExistInTopicRouteTable` searches the
known addresses with `std::string::find`, which looks for a part: an address that is the beginning
of a longer one, such as one with the port 1091 beside the port 10911, counts as known.
-/

namespace RocketMQ

/-- The table has this address for this name and id. -/
def BrokerAddrTable.Entry (table : BrokerAddrTable) (brokerName : StdString) (id : Int)
    (addr : StdString) : Prop :=
  ∃ addrs, table[brokerName]? = some addrs ∧ addrs[id]? = some addr

namespace MQClientFactory

/-- An address of some broker in a stored route. -/
def Knows (f : MQClientFactory) (addr : StdString) : Prop :=
  ∃ (topic : StdString) (route : TopicRouteData), f.topicRouteTable[topic]? = some route ∧
    ∃ bd ∈ route.brokerDatas, ∃ id : Int, bd.brokerAddrs[id]? = some addr

/-- `src/MQClientFactory.cpp:1004–1048`, with nothing in between. -/
def cleanOfflineBroker (f : MQClientFactory) : MQClientFactory :=
  { f with brokerAddrTable := f.brokerAddrTable.rebuild f.topicRouteTable }

/-- Of the old entries those are left whose address a stored route knows, and no broker is left
without addresses. -/
structure KeepsLive (f : MQClientFactory) : Prop where
  entries : ∀ (brokerName : StdString) (id : Int) (addr : StdString),
    f.cleanOfflineBroker.brokerAddrTable.Entry brokerName id addr ↔
      f.brokerAddrTable.Entry brokerName id addr ∧ f.Knows addr
  nonempty : ∀ (brokerName : StdString) (addrs : Std.ExtTreeMap Int StdString),
    f.cleanOfflineBroker.brokerAddrTable[brokerName]? = some addrs → addrs ≠ ∅

/-- No address of the table is a part of one that a stored route knows without being known
itself. -/
def PartsKnown (f : MQClientFactory) : Prop :=
  ∀ (brokerName : StdString) (id : Int) (addr : StdString),
    f.brokerAddrTable.Entry brokerName id addr →
    ∀ known, f.Knows known → addr <:+: known → f.Knows addr

section Clean

variable {f : MQClientFactory} {routes : TopicRouteTable} {table : BrokerAddrTable}
  {brokerName addr : StdString} {id : Int}

/-- The three steps of the call, one after the other. -/
theorem cleanOfflineBroker_steps (f : MQClientFactory) (topic : StdString)
    (route : TopicRouteData) :
    (Base.runFrom (CleaningState.step topic route) (.start f)
        [.copyTable, .rebuildTable, .writeBack]).map CleaningState.factory =
      some f.cleanOfflineBroker := rfl

/-- The search finds an address that is part of a known one. -/
theorem isBrokerAddrExist_iff :
    TopicRouteTable.isBrokerAddrExistInTopicRouteTable f.topicRouteTable addr = true ↔
      ∃ known, f.Knows known ∧ addr <:+: known := by
  simp only [TopicRouteTable.isBrokerAddrExistInTopicRouteTable, List.any_eq_true,
    decide_eq_true_iff]
  constructor
  · rintro ⟨⟨topic, route⟩, hroute, bd, hmem, ⟨id, known⟩, hknown, hpart⟩
    have hroute := Std.ExtTreeMap.mem_toList_iff_getElem?_eq_some.mp hroute
    have hknown := Std.ExtTreeMap.mem_toList_iff_getElem?_eq_some.mp hknown
    exact ⟨known, ⟨topic, route, hroute, bd, hmem, id, hknown⟩, hpart⟩
  · rintro ⟨known, ⟨topic, route, hroute, bd, hmem, id, hknown⟩, hpart⟩
    have hroute := Std.ExtTreeMap.mem_toList_iff_getElem?_eq_some.mpr hroute
    have hknown := Std.ExtTreeMap.mem_toList_iff_getElem?_eq_some.mpr hknown
    exact ⟨(topic, route), hroute, bd, hmem, (id, known), hknown, hpart⟩

/-- An entry is left when the search finds its address. -/
theorem entry_rebuild_iff : (table.rebuild routes).Entry brokerName id addr ↔
    table.Entry brokerName id addr ∧ routes.isBrokerAddrExistInTopicRouteTable addr = true := by
  constructor
  · rintro ⟨addrs, haddrs, haddr⟩
    obtain ⟨old, hold, rfl, -⟩ := (getElem?_rebuild table routes brokerName addrs).mp haddrs
    obtain ⟨haddr, hexists⟩ := getElem?_filter_eq_some.mp haddr
    exact ⟨⟨old, hold, haddr⟩, hexists⟩
  · rintro ⟨⟨old, hold, haddr⟩, hexists⟩
    have hkept := getElem?_filter_eq_some.mpr ⟨haddr, hexists⟩
    refine ⟨_, (getElem?_rebuild table routes brokerName _).mpr ⟨old, hold, rfl, ?_⟩, hkept⟩
    intro hempty
    rw [hempty, Std.ExtTreeMap.getElem?_empty] at hkept
    cases hkept

/-- No broker is left without addresses, whatever the search finds. -/
theorem nonempty_cleanOfflineBroker {addrs : Std.ExtTreeMap Int StdString}
    (h : f.cleanOfflineBroker.brokerAddrTable[brokerName]? = some addrs) : addrs ≠ ∅ := by
  obtain ⟨old, -, -, hne⟩ := (getElem?_rebuild _ _ brokerName addrs).mp h
  exact hne

/-- **Live addresses**: cleaning keeps exactly the entries with a known address when no address of
the table is merely a part of a known one, and not otherwise. -/
theorem keepsLive_iff (f : MQClientFactory) : f.KeepsLive ↔ f.PartsKnown := by
  constructor
  · intro hkeeps brokerName id addr hentry known hknown hpart
    have hleft := entry_rebuild_iff.mpr
      ⟨hentry, isBrokerAddrExist_iff.mpr ⟨known, hknown, hpart⟩⟩
    exact ((hkeeps.entries brokerName id addr).mp hleft).2
  · intro hparts
    refine ⟨fun brokerName id addr ↦ ?_, fun brokerName addrs ↦ nonempty_cleanOfflineBroker⟩
    refine entry_rebuild_iff.trans (and_congr_right fun hentry ↦ ?_)
    rw [isBrokerAddrExist_iff]
    constructor
    · rintro ⟨known, hknown, hpart⟩
      exact hparts brokerName id addr hentry known hknown hpart
    · intro hknown
      exact ⟨addr, hknown, List.infix_refl addr⟩

/-- A broker that has gone offline, with the port 1091, and a route with one at the port 10911. -/
def samePrefix : MQClientFactory where
  topicRouteTable := {(str "t", ⟨[], [], [⟨str "b", {(0, str "a:10911")}⟩]⟩)}
  brokerAddrTable := {(str "c", {(0, str "a:1091")})}
  producerTable := ∅
  consumerTable := ∅

/-- The broker is kept. -/
theorem part_of_address_kept : ¬ samePrefix.KeepsLive := by
  intro hkeeps
  have hleft : samePrefix.cleanOfflineBroker.brokerAddrTable.Entry (str "c") 0 (str "a:1091") := by
    refine entry_rebuild_iff.mpr ⟨⟨{(0, str "a:1091")}, rfl, rfl⟩, ?_⟩
    decide +kernel
  obtain ⟨-, topic, route, hroute, bd, hmem, id, haddr⟩ := (hkeeps.entries _ _ _).mp hleft
  have hroutes : (topic, route) ∈ samePrefix.topicRouteTable.toList :=
    Std.ExtTreeMap.mem_toList_iff_getElem?_eq_some.mpr hroute
  obtain ⟨rfl, rfl⟩ : topic = str "t" ∧ route = ⟨[], [], [⟨str "b", {(0, str "a:10911")}⟩]⟩ := by
    simpa using List.mem_singleton.mp hroutes
  obtain rfl := List.mem_singleton.mp hmem
  have haddrs : (id, str "a:1091") ∈ [((0 : Int), str "a:10911")] :=
    Std.ExtTreeMap.mem_toList_iff_getElem?_eq_some.mpr haddr
  have hsame := (Prod.mk.inj (List.mem_singleton.mp haddrs)).2
  revert hsame
  decide

end Clean
end MQClientFactory
end RocketMQ
