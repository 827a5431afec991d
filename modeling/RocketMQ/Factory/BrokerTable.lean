import RocketMQ.Message.MessageQueue
import Std.Data.ExtTreeMap.Lemmas

/-!
# Where a broker is

The lookups of `src/MQClientFactory.cpp` in `m_brokerAddrTable`, and the two-step search of
their callers: look a broker up, ask the name server when it has no address, look again.
-/

namespace RocketMQ

/-- `m_brokerAddrTable`: broker name to broker id to address. -/
abbrev BrokerAddrTable := Std.ExtTreeMap StdString (Std.ExtTreeMap Int StdString)

/-- `MixAll::MASTER_ID`, `src/common/MixAll.cpp:20`. -/
def masterId : Int := 0

/-- `src/FindBrokerResult.h`. -/
structure FindBrokerResult where
  brokerAddr : StdString
  slave : Bool
deriving DecidableEq

namespace BrokerAddrTable

/-- The loop of `findBrokerAddressInAdmin`; `brokerAddr` is the last address looked at. -/
def adminLoop (brokerAddr : StdString) : List (Int × StdString) → FindBrokerResult
  | [] => ⟨brokerAddr, false⟩
  | (id, addr) :: rest =>
    if addr.isEmpty then adminLoop addr rest else ⟨addr, decide (id ≠ masterId)⟩

/-- `src/MQClientFactory.cpp:618–656`. -/
def findBrokerAddressInAdmin (table : BrokerAddrTable) (brokerName : StdString) :
    FindBrokerResult :=
  match table[brokerName]? with
  | none => ⟨[], false⟩
  | some addrs => adminLoop [] addrs.toList

/-- The brokers with each of their addresses. -/
def brokerAddrs (table : BrokerAddrTable) : List (StdString × StdString) :=
  table.toList.flatMap fun (brokerName, addrs) ↦ addrs.toList.map fun (_, addr) ↦
    (brokerName, addr)

/-- `src/MQClientFactory.cpp:658–673`. -/
def findBrokerAddressInPublish (table : BrokerAddrTable) (brokerName : StdString) : StdString :=
  match table[brokerName]? with
  | none => []
  | some addrs => (addrs[masterId]?).getD []

/-- `src/MQClientFactory.cpp:675–708`. The source never reads its third parameter
`onlyThisBroker`, and a broker in the table has at least one address. -/
def findBrokerAddressInSubscribe (table : BrokerAddrTable) (brokerName : StdString)
    (brokerId : Int) : FindBrokerResult :=
  match table[brokerName]? with
  | none => ⟨[], false⟩
  | some addrs =>
    match addrs[brokerId]? with
    | some addr => ⟨addr, decide (brokerId ≠ masterId)⟩
    | none => ⟨(addrs.toList.map Prod.snd).headD [], decide (brokerId ≠ masterId)⟩

/-- An address that the loop gives is one of those it went over. -/
theorem addr_mem_of_adminLoop {entries : List (Int × StdString)} {brokerAddr : StdString}
    (hne : (adminLoop brokerAddr entries).brokerAddr ≠ []) (hempty : brokerAddr = []) :
    (adminLoop brokerAddr entries).brokerAddr ∈ entries.map Prod.snd := by
  induction entries generalizing brokerAddr with
  | nil => exact absurd hempty hne
  | cons entry rest ih =>
    obtain ⟨id, addr⟩ := entry
    rw [adminLoop] at hne ⊢
    split at hne
    · next haddr =>
      rw [if_pos haddr]
      exact List.mem_cons_of_mem _ (ih hne (List.isEmpty_iff.mp haddr))
    · next haddr =>
      rw [if_neg haddr]
      exact List.mem_cons_self

/-- The address found for a broker is one of the broker's. -/
theorem mem_brokerAddrs_of_findBrokerAddressInAdmin {table : BrokerAddrTable}
    {brokerName : StdString}
    (hne : (table.findBrokerAddressInAdmin brokerName).brokerAddr ≠ []) :
    (brokerName, (table.findBrokerAddressInAdmin brokerName).brokerAddr) ∈
      table.brokerAddrs := by
  unfold findBrokerAddressInAdmin at hne ⊢
  split at hne
  · exact absurd rfl hne
  · next addrs htable =>
    obtain ⟨⟨id, addr⟩, hmem, haddr⟩ := List.mem_map.mp (addr_mem_of_adminLoop hne rfl)
    exact List.mem_flatMap.mpr
      ⟨(brokerName, addrs), Std.ExtTreeMap.mem_toList_iff_getElem?_eq_some.mpr htable,
        List.mem_map.mpr ⟨(id, addr), hmem, by rw [← haddr]⟩⟩

end BrokerAddrTable

/-- The address table as a caller finds it, and as the name server leaves it when
`updateTopicRouteInfoFromNameServer` is called because an address is missing. -/
structure BrokerLookup where
  known : BrokerAddrTable
  refreshed : BrokerAddrTable

namespace BrokerLookup

/-- Look a broker up, and once more in the refreshed table when it has no address. -/
def twice {α : Type} (lookup : BrokerLookup) (brokerAddr : α → StdString)
    (find : BrokerAddrTable → α) : α :=
  if (brokerAddr (find lookup.known)).isEmpty then find lookup.refreshed else find lookup.known

/-- The search of the offset store, `src/consumer/RemoteBrokerOffsetStore.cpp:184–191,212–219`. -/
def inAdmin (lookup : BrokerLookup) (brokerName : StdString) : FindBrokerResult :=
  lookup.twice (·.brokerAddr) (·.findBrokerAddressInAdmin brokerName)

/-- The table that the search of the offset store ends with. -/
def tableInAdmin (lookup : BrokerLookup) (brokerName : StdString) : BrokerAddrTable :=
  lookup.twice (fun table ↦ (table.findBrokerAddressInAdmin brokerName).brokerAddr) id

/-- The search of a pull, `src/consumer/PullAPIWrapper.cpp:185–194`. -/
def inSubscribe (lookup : BrokerLookup) (brokerName : StdString) (brokerId : Int) :
    FindBrokerResult :=
  lookup.twice (·.brokerAddr) (·.findBrokerAddressInSubscribe brokerName brokerId)

/-- The search of a send, `src/producer/DefaultMQProducerImpl.cpp:540–547`. -/
def inPublish (lookup : BrokerLookup) (brokerName : StdString) : StdString :=
  lookup.twice id (·.findBrokerAddressInPublish brokerName)

/-- The search of the offset store gives what its last table gives. -/
theorem inAdmin_eq (lookup : BrokerLookup) (brokerName : StdString) :
    lookup.inAdmin brokerName =
      (lookup.tableInAdmin brokerName).findBrokerAddressInAdmin brokerName :=
  (apply_ite (fun table : BrokerAddrTable ↦ table.findBrokerAddressInAdmin brokerName)
    _ _ _).symm

end BrokerLookup
end RocketMQ
