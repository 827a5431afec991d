import RocketMQ.Factory.BrokerTable
import RocketMQ.Producer.TopicPublishInfo

/-!
# Which address a subscriber gets

`MQClientFactory::findBrokerAddressInSubscribe` with all that its callers hand it: the id is a
`long`, and `onlyThisBroker` asks for no other broker than the one with that id. An address map may
be empty, as a route may list a broker without addresses.
-/

namespace RocketMQ

namespace MQClientFactory

/-- What `it1` points at when an address is taken: the entry of the id, which `find` cuts down to an
`int`, or else the first entry. An empty map has none. -/
def subscribeEntry (addrs : Std.ExtTreeMap Int StdString) (brokerId : Int) :
    Option (Int × StdString) :=
  match addrs[toInt32 brokerId]? with
  | some addr => some (toInt32 brokerId, addr)
  | none => addrs.toList.head?

/-- `src/MQClientFactory.cpp:675–708`: the entry that the address is taken from, if any is, and the
result; `none` when it reads an element of an empty map. `onlyThisBroker` is not read. -/
def findBrokerAddressInSubscribe (table : BrokerAddrTable) (brokerName : StdString)
    (brokerId : Int) (_onlyThisBroker : Bool) :
    Option (Option (Int × StdString) × FindBrokerResult) :=
  match table[brokerName]? with
  | none => some (none, ⟨[], false⟩)
  | some addrs =>
    (subscribeEntry addrs brokerId).map fun (id, addr) ↦
      (some (id, addr), ⟨addr, decide (brokerId ≠ masterId)⟩)

/-- No address, or one of the broker, and of no other id if only this one is asked for; the flag
says whether its id is a slave's. -/
def HonoursArguments (table : BrokerAddrTable) (brokerName : StdString) (brokerId : Int)
    (onlyThisBroker : Bool) : Prop :=
  ∃ entry result,
    findBrokerAddressInSubscribe table brokerName brokerId onlyThisBroker = some (entry, result) ∧
    (result.brokerAddr = [] ∨ ∃ id addrs, entry = some (id, result.brokerAddr) ∧
      table[brokerName]? = some addrs ∧ addrs[id]? = some result.brokerAddr ∧
      (onlyThisBroker = true → id = brokerId) ∧ (result.slave = true ↔ id ≠ masterId))

/-- The broker is not in the table; or it has the id, which counts as an `int` as it does as a
`long`; or it has a first id, which will do and is the master's exactly when the one asked for is.
An address that is empty counts as none. -/
def MeetsArguments (table : BrokerAddrTable) (brokerName : StdString) (brokerId : Int)
    (onlyThisBroker : Bool) : Prop :=
  ∀ addrs, table[brokerName]? = some addrs →
    match addrs[toInt32 brokerId]? with
    | some addr => addr = [] ∨ (onlyThisBroker = false ∨ toInt32 brokerId = brokerId) ∧
        (toInt32 brokerId = masterId ↔ brokerId = masterId)
    | none => ∃ id addr, addrs.toList.head? = some (id, addr) ∧
        (addr = [] ∨ (onlyThisBroker = false ∨ id = brokerId) ∧
          (id = masterId ↔ brokerId = masterId))

section Lookup

variable {table : BrokerAddrTable} {brokerName : StdString} {brokerId : Int}
  {onlyThisBroker : Bool} {addrs : Std.ExtTreeMap Int StdString} {id : Int} {addr : StdString}

/-- The entry is one of the map. -/
theorem getElem?_of_subscribeEntry (h : subscribeEntry addrs brokerId = some (id, addr)) :
    addrs[id]? = some addr := by
  rw [subscribeEntry] at h
  cases hget : addrs[toInt32 brokerId]? with
  | some known =>
    rw [hget] at h
    cases h
    exact hget
  | none =>
    rw [hget] at h
    exact Std.ExtTreeMap.mem_toList_iff_getElem?_eq_some.mp (List.mem_of_mem_head? h)

/-- Nothing of a broker that is not in the table. -/
theorem honoursArguments_of_unknown (h : table[brokerName]? = none) :
    HonoursArguments table brokerName brokerId onlyThisBroker := by
  refine ⟨none, ⟨[], false⟩, ?_, Or.inl rfl⟩
  rw [findBrokerAddressInSubscribe, h]

/-- Reading an element of an empty map honours nothing. -/
theorem not_honoursArguments_of_empty (h : table[brokerName]? = some addrs)
    (hentry : subscribeEntry addrs brokerId = none) :
    ¬ HonoursArguments table brokerName brokerId onlyThisBroker := by
  rintro ⟨entry, result, hfind, -⟩
  simp only [findBrokerAddressInSubscribe, h, hentry, Option.map_none] at hfind
  cases hfind

/-- What an entry has to be for the call to honour its arguments. -/
theorem honoursArguments_iff_of_entry (h : table[brokerName]? = some addrs)
    (hentry : subscribeEntry addrs brokerId = some (id, addr)) :
    HonoursArguments table brokerName brokerId onlyThisBroker ↔
      addr = [] ∨ (onlyThisBroker = false ∨ id = brokerId) ∧
        (id = masterId ↔ brokerId = masterId) := by
  have hfind : findBrokerAddressInSubscribe table brokerName brokerId onlyThisBroker =
      some (some (id, addr), ⟨addr, decide (brokerId ≠ masterId)⟩) := by
    simp only [findBrokerAddressInSubscribe, h, hentry, Option.map_some]
  have honly : (onlyThisBroker = true → id = brokerId) ↔
      onlyThisBroker = false ∨ id = brokerId := by
    cases onlyThisBroker <;> simp
  have hslave : (decide (brokerId ≠ masterId) = true ↔ id ≠ masterId) ↔
      (id = masterId ↔ brokerId = masterId) := by
    rw [decide_eq_true_iff, not_iff_not]
    exact iff_comm
  rw [HonoursArguments]
  constructor
  · rintro ⟨entry, result, hfound, hresult⟩
    rw [hfind] at hfound
    cases hfound
    apply hresult.imp_right
    rintro ⟨id', addrs', hsame, -, -, honly', hslave'⟩
    cases hsame
    exact ⟨honly.mp honly', hslave.mp hslave'⟩
  · intro hcases
    refine ⟨_, _, hfind, hcases.imp_right ?_⟩
    rintro ⟨honly', hslave'⟩
    exact ⟨id, addrs, rfl, h, getElem?_of_subscribeEntry hentry, honly.mpr honly',
      hslave.mpr hslave'⟩

/-- **Broker selection**: a call honours its arguments exactly when what it finds meets them. -/
theorem honoursArguments_iff (table : BrokerAddrTable) (brokerName : StdString) (brokerId : Int)
    (onlyThisBroker : Bool) : HonoursArguments table brokerName brokerId onlyThisBroker ↔
      MeetsArguments table brokerName brokerId onlyThisBroker := by
  rw [MeetsArguments]
  cases htable : table[brokerName]? with
  | none => exact iff_of_true (honoursArguments_of_unknown htable) fun addrs h ↦ by cases h
  | some addrs =>
    simp only [Option.some.injEq, forall_eq']
    cases hget : addrs[toInt32 brokerId]? with
    | some addr =>
      have hentry : subscribeEntry addrs brokerId = some (toInt32 brokerId, addr) := by
        rw [subscribeEntry, hget]
      exact honoursArguments_iff_of_entry htable hentry
    | none =>
      have hentry : subscribeEntry addrs brokerId = addrs.toList.head? := by
        rw [subscribeEntry, hget]
      cases hhead : addrs.toList.head? with
      | none =>
        apply iff_of_false (not_honoursArguments_of_empty htable (hentry.trans hhead))
        rintro ⟨id, addr, hsome, -⟩
        cases hsome
      | some first =>
        rw [honoursArguments_iff_of_entry htable (hentry.trans hhead)]
        constructor
        · intro h
          exact ⟨first.1, first.2, rfl, h⟩
        · rintro ⟨id, addr, hsame, h⟩
          cases hsame
          exact h

/-- Where nothing is read outside of a map, the lookup that pulls use finds the same. -/
theorem findBrokerAddressInSubscribe_eq {entry : Option (Int × StdString)}
    {result : FindBrokerResult} (hid : toInt32 brokerId = brokerId)
    (h : findBrokerAddressInSubscribe table brokerName brokerId onlyThisBroker =
      some (entry, result)) :
    table.findBrokerAddressInSubscribe brokerName brokerId = result := by
  rw [BrokerAddrTable.findBrokerAddressInSubscribe]
  cases htable : table[brokerName]? with
  | none =>
    simp only [findBrokerAddressInSubscribe, htable] at h
    cases h
    rfl
  | some addrs =>
    simp only [findBrokerAddressInSubscribe, htable, subscribeEntry, hid] at h
    cases hget : addrs[brokerId]? with
    | some addr =>
      rw [hget] at h
      cases h
      simp only [hget]
    | none =>
      simp only [hget] at h
      obtain ⟨first, hhead, hpair⟩ := Option.map_eq_some_iff.mp h
      cases hpair
      simp [hget, hhead]

/-- A broker that has a slave only: the request for a lock at the master alone goes to the slave, as
to a master. -/
theorem slave_taken_for_master :
    ¬ HonoursArguments {(str "b", {(1, str "a:10911")})} (str "b") masterId true := by
  rw [honoursArguments_iff]
  intro h
  obtain ⟨id, addr, hfirst, hcases⟩ := h {(1, str "a:10911")} rfl
  cases hfirst
  revert hcases
  decide

end Lookup
end MQClientFactory
end RocketMQ
