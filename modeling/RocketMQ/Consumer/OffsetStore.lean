import RocketMQ.Common.VirtualEnv
import RocketMQ.Factory.BrokerTable
import RocketMQ.Transport.RemotingCommand

/-!
# The offset store of a clustering consumer

`src/consumer/RemoteBrokerOffsetStore.cpp` with the two calls of `src/MQClientAPIImpl.cpp`
it makes. What a function sends is part of its result; what a broker replies is a
parameter. Every writer of an entry holds `m_tableMutex`, so the retry of the
compare-and-set in `MixAll::compareAndIncreaseOnly` never runs twice.
-/

namespace RocketMQ

/-- `m_offsetTable`. -/
abbrev OffsetTable := Std.ExtTreeMap MessageQueue Int

/-- `src/consumer/RemoteBrokerOffsetStore.h`; `m_storeTimesTotal` only thins out a log. -/
structure RemoteBrokerOffsetStore where
  groupName : StdString
  offsetTable : OffsetTable

/-- `UpdateConsumerOffsetRequestHeader`. -/
structure UpdateConsumerOffsetRequestHeader where
  consumerGroup : StdString
  topic : StdString
  queueId : Int
  commitOffset : Int
deriving DecidableEq

/-- `QueryConsumerOffsetRequestHeader`. -/
structure QueryConsumerOffsetRequestHeader where
  consumerGroup : StdString
  topic : StdString
  queueId : Int

/-- `QueryConsumerOffsetResponseHeader`. -/
structure QueryConsumerOffsetResponseHeader where
  offset : Int

/-- An oneway request handed to the remoting client, with the address it goes to. -/
structure UpdateConsumerOffsetRequest where
  addr : StdString
  header : UpdateConsumerOffsetRequestHeader
deriving DecidableEq

/-- How the broker at an address replies to a query. -/
abbrev QueryConsumerOffset :=
  StdString → QueryConsumerOffsetRequestHeader → SyncReply QueryConsumerOffsetResponseHeader

/-- `ReadOffsetType`. -/
inductive ReadOffsetType where
  | readFromMemory
  | readFromStore
  | memoryFirstThenStore

/-- `src/common/MixAll.cpp:44–60`, when nobody else writes the value. -/
def compareAndIncreaseOnly (target value : Int) : Int := if value > target then value else target

theorem compareAndIncreaseOnly_eq_max (target value : Int) :
    compareAndIncreaseOnly target value = max target value := by
  unfold compareAndIncreaseOnly
  split <;> omega

namespace MQClientAPIImpl

/-- `src/MQClientAPIImpl.cpp:382–424`. -/
def queryConsumerOffset (query : QueryConsumerOffset) (projectGroupPrefix addr : StdString)
    (requestHeader : QueryConsumerOffsetRequestHeader) : Option Int :=
  let header : QueryConsumerOffsetRequestHeader :=
    if !isBlank projectGroupPrefix then
      { requestHeader with
        consumerGroup :=
          VirtualEnvUtil.buildWithProjectGroup requestHeader.consumerGroup projectGroupPrefix
        topic := VirtualEnvUtil.buildWithProjectGroup requestHeader.topic projectGroupPrefix }
    else requestHeader
  match query addr header with
  | none => some (-1)
  | some response =>
    if response.code = successValue then response.customHeader.map (·.offset) else some (-1)

/-- `src/MQClientAPIImpl.cpp:433–455`. -/
def updateConsumerOffsetOneway (projectGroupPrefix addr : StdString)
    (requestHeader : UpdateConsumerOffsetRequestHeader) : UpdateConsumerOffsetRequest :=
  let header : UpdateConsumerOffsetRequestHeader :=
    if !isBlank projectGroupPrefix then
      { requestHeader with
        consumerGroup :=
          VirtualEnvUtil.buildWithProjectGroup requestHeader.consumerGroup projectGroupPrefix
        topic := VirtualEnvUtil.buildWithProjectGroup requestHeader.topic projectGroupPrefix }
    else requestHeader
  ⟨addr, header⟩

end MQClientAPIImpl

namespace RemoteBrokerOffsetStore

/-- `src/consumer/RemoteBrokerOffsetStore.cpp:35–54`. -/
def updateOffset (store : RemoteBrokerOffsetStore) (mq : MessageQueue) (offset : Int)
    (increaseOnly : Bool) : RemoteBrokerOffsetStore :=
  match store.offsetTable[mq]? with
  | some current =>
    let value := if increaseOnly then compareAndIncreaseOnly current offset else offset
    { store with offsetTable := store.offsetTable.insert mq value }
  | none => { store with offsetTable := store.offsetTable.insert mq offset }

/-- `src/consumer/RemoteBrokerOffsetStore.cpp:210–235`. -/
def fetchConsumeOffsetFromBroker (store : RemoteBrokerOffsetStore) (lookup : BrokerLookup)
    (query : QueryConsumerOffset) (projectGroupPrefix : StdString) (mq : MessageQueue) :
    Option Int :=
  let brokerAddr := (lookup.inAdmin mq.brokerName).brokerAddr
  if brokerAddr.isEmpty then some (-1)
  else
    MQClientAPIImpl.queryConsumerOffset query projectGroupPrefix brokerAddr
      { consumerGroup := store.groupName, topic := mq.topic, queueId := mq.queueId }

/-- The case `READ_FROM_STORE`, `src/consumer/RemoteBrokerOffsetStore.cpp:77–93`. -/
def readFromStore (store : RemoteBrokerOffsetStore) (lookup : BrokerLookup)
    (query : QueryConsumerOffset) (projectGroupPrefix : StdString) (mq : MessageQueue) :
    Option (RemoteBrokerOffsetStore × Int) :=
  match store.fetchConsumeOffsetFromBroker lookup query projectGroupPrefix mq with
  | none => none
  | some brokerOffset =>
    if brokerOffset ≥ 0 then some (store.updateOffset mq brokerOffset false, brokerOffset)
    else some (store, brokerOffset)

/-- `src/consumer/RemoteBrokerOffsetStore.cpp:56–101`. -/
def readOffset (store : RemoteBrokerOffsetStore) (lookup : BrokerLookup)
    (query : QueryConsumerOffset) (projectGroupPrefix : StdString) (mq : MessageQueue) :
    ReadOffsetType → Option (RemoteBrokerOffsetStore × Int)
  | .readFromMemory => some (store, (store.offsetTable[mq]?).getD (-1))
  | .memoryFirstThenStore =>
    match store.offsetTable[mq]? with
    | some offset => some (store, offset)
    | none => store.readFromStore lookup query projectGroupPrefix mq
  | .readFromStore => store.readFromStore lookup query projectGroupPrefix mq

/-- `src/consumer/RemoteBrokerOffsetStore.cpp:182–208`: the request that is sent, if any. -/
def updateConsumeOffsetToBroker (store : RemoteBrokerOffsetStore) (lookup : BrokerLookup)
    (projectGroupPrefix : StdString) (mq : MessageQueue) (offset : Int) :
    Option UpdateConsumerOffsetRequest :=
  let brokerAddr := (lookup.inAdmin mq.brokerName).brokerAddr
  if brokerAddr.isEmpty then none
  else
    some (MQClientAPIImpl.updateConsumerOffsetOneway projectGroupPrefix brokerAddr
      { consumerGroup := store.groupName, topic := mq.topic, queueId := mq.queueId,
        commitOffset := offset })

/-- The loop of `persistAll` under the lock, `src/consumer/RemoteBrokerOffsetStore.cpp:115–129`,
over the entries that are left: the table and the map `tmp`, in iteration order. -/
def persistAllLoop (mqs : List MessageQueue) (table : OffsetTable) :
    List (MessageQueue × Int) → OffsetTable × List (MessageQueue × Int)
  | [] => (table, [])
  | (mq, offset) :: rest =>
    if mq ∈ mqs then
      let (table', tmp) := persistAllLoop mqs table rest
      (table', (mq, offset) :: tmp)
    else persistAllLoop mqs (table.erase mq) rest

/-- What `persistAll` does under the lock, `src/consumer/RemoteBrokerOffsetStore.cpp:103–130`. -/
def persistAllCollect (store : RemoteBrokerOffsetStore) (mqs : List MessageQueue) :
    RemoteBrokerOffsetStore × List (MessageQueue × Int) :=
  if mqs.isEmpty then (store, [])
  else
    let (table, tmp) := persistAllLoop mqs store.offsetTable store.offsetTable.toList
    ({ store with offsetTable := table }, tmp)

/-- `src/consumer/RemoteBrokerOffsetStore.cpp:103–153`, with one lookup for each entry. -/
def persistAll (store : RemoteBrokerOffsetStore) (lookup : MessageQueue → BrokerLookup)
    (projectGroupPrefix : StdString) (mqs : List MessageQueue) :
    RemoteBrokerOffsetStore × List UpdateConsumerOffsetRequest :=
  let (store', tmp) := store.persistAllCollect mqs
  (store', tmp.filterMap fun (mq, offset) ↦
    store.updateConsumeOffsetToBroker (lookup mq) projectGroupPrefix mq offset)

/-- `src/consumer/RemoteBrokerOffsetStore.cpp:155–180`: the request that is sent, if any. The
source declares `find` but never sets it. -/
def persist (store : RemoteBrokerOffsetStore) (lookup : BrokerLookup)
    (projectGroupPrefix : StdString) (mq : MessageQueue) : Option UpdateConsumerOffsetRequest :=
  let find := false
  let offset := store.offsetTable[mq]?
  if find then
    offset.bind fun o ↦ store.updateConsumeOffsetToBroker lookup projectGroupPrefix mq o
  else none

/-- `src/consumer/RemoteBrokerOffsetStore.cpp:237–241`. -/
def removeOffset (store : RemoteBrokerOffsetStore) (mq : MessageQueue) :
    RemoteBrokerOffsetStore :=
  { store with offsetTable := store.offsetTable.erase mq }

/-! ### What each operation does to the table -/

/-- An update keeps the group. -/
theorem groupName_updateOffset (store : RemoteBrokerOffsetStore) (mq : MessageQueue)
    (offset : Int) (increaseOnly : Bool) :
    (store.updateOffset mq offset increaseOnly).groupName = store.groupName := by
  unfold updateOffset
  split <;> rfl

/-- `persistAll` keeps the group. -/
theorem groupName_persistAllCollect (store : RemoteBrokerOffsetStore)
    (mqs : List MessageQueue) :
    (store.persistAllCollect mqs).1.groupName = store.groupName := by
  unfold persistAllCollect
  split <;> rfl

/-- An update writes the entry of its queue only, and never lowers it when told not to. -/
theorem getElem?_updateOffset (store : RemoteBrokerOffsetStore) (mq : MessageQueue)
    (offset : Int) (increaseOnly : Bool) (other : MessageQueue) :
    (store.updateOffset mq offset increaseOnly).offsetTable[other]? =
      if other = mq then
        some (match store.offsetTable[mq]? with
          | some current => if increaseOnly then max current offset else offset
          | none => offset)
      else store.offsetTable[other]? := by
  cases h : store.offsetTable[mq]? with
  | none =>
    simp only [updateOffset, h, Std.ExtTreeMap.getElem?_insert,
      Std.LawfulEqCmp.compare_eq_iff_eq, eq_comm (a := mq)]
  | some current =>
    simp only [updateOffset, h, Std.ExtTreeMap.getElem?_insert,
      Std.LawfulEqCmp.compare_eq_iff_eq, eq_comm (a := mq), compareAndIncreaseOnly_eq_max]

/-- Removing an offset removes the entry of its queue only. -/
theorem getElem?_removeOffset (store : RemoteBrokerOffsetStore) (mq other : MessageQueue) :
    (store.removeOffset mq).offsetTable[other]? =
      if other = mq then none else store.offsetTable[other]? := by
  simp only [removeOffset, Std.ExtTreeMap.getElem?_erase, Std.LawfulEqCmp.compare_eq_iff_eq,
    eq_comm (a := mq)]

private theorem persistAllLoop_spec (mqs : List MessageQueue) (table : OffsetTable)
    (entries : List (MessageQueue × Int)) :
    (∀ mq, (persistAllLoop mqs table entries).1[mq]? =
        if mq ∉ mqs ∧ mq ∈ entries.map Prod.fst then none else table[mq]?) ∧
      (persistAllLoop mqs table entries).2 = entries.filter (·.1 ∈ mqs) := by
  induction entries generalizing table with
  | nil => simp [persistAllLoop]
  | cons entry rest ih =>
    obtain ⟨key, offset⟩ := entry
    by_cases hk : key ∈ mqs
    · obtain ⟨htable, htmp⟩ := ih table
      refine ⟨fun mq ↦ ?_, ?_⟩
      · simp only [persistAllLoop, hk, if_true, htable, List.map_cons, List.mem_cons]
        have : mq = key → mq ∈ mqs := fun he ↦ he ▸ hk
        congr 1
        simp only [eq_iff_iff]
        tauto
      · simp [persistAllLoop, hk, htmp]
    · obtain ⟨htable, htmp⟩ := ih (table.erase key)
      refine ⟨fun mq ↦ ?_, ?_⟩
      · simp only [persistAllLoop, hk, if_false, htable, List.map_cons, List.mem_cons,
          Std.ExtTreeMap.getElem?_erase, Std.LawfulEqCmp.compare_eq_iff_eq]
        by_cases he : key = mq
        · subst he
          simp [hk]
        · have hne : ¬ mq = key := fun h ↦ he h.symm
          simp only [he, hne, if_false, false_or]
      · simp [persistAllLoop, hk, htmp]

/-- `persistAll` prunes exactly the queues it was not given, unless it was given none. -/
theorem getElem?_persistAllCollect (store : RemoteBrokerOffsetStore)
    (mqs : List MessageQueue) (hne : mqs ≠ []) (mq : MessageQueue) :
    (store.persistAllCollect mqs).1.offsetTable[mq]? =
      if mq ∈ mqs then store.offsetTable[mq]? else none := by
  have hkey : store.offsetTable[mq]? = none ∨
      mq ∈ store.offsetTable.toList.map Prod.fst := by
    cases h : store.offsetTable[mq]? with
    | none => exact Or.inl rfl
    | some o =>
      exact Or.inr (List.mem_map.mpr
        ⟨(mq, o), Std.ExtTreeMap.mem_toList_iff_getElem?_eq_some.mpr h, rfl⟩)
  simp only [persistAllCollect, List.isEmpty_iff, hne, if_false,
    (persistAllLoop_spec mqs store.offsetTable store.offsetTable.toList).1]
  by_cases hm : mq ∈ mqs
  · simp [hm]
  · rcases hkey with hn | hin
    · simp [hm, hn]
    · simp only [hm, not_false_eq_true, hin, and_self, if_true, if_false]

/-- `persistAll` collects exactly the stored offsets of the queues it was given. -/
theorem mem_persistAllCollect (store : RemoteBrokerOffsetStore) (mqs : List MessageQueue)
    (mq : MessageQueue) (offset : Int) :
    (mq, offset) ∈ (store.persistAllCollect mqs).2 ↔
      mq ∈ mqs ∧ store.offsetTable[mq]? = some offset := by
  unfold persistAllCollect
  split
  · next h =>
    rw [List.isEmpty_iff.mp h]
    simp
  · simp only [(persistAllLoop_spec mqs store.offsetTable store.offsetTable.toList).2,
      List.mem_filter, decide_eq_true_eq, Std.ExtTreeMap.mem_toList_iff_getElem?_eq_some]
    exact and_comm

/-- `persist` sends nothing, whatever is stored. -/
@[simp] theorem persist_eq_none (store : RemoteBrokerOffsetStore) (lookup : BrokerLookup)
    (projectGroupPrefix : StdString) (mq : MessageQueue) :
    store.persist lookup projectGroupPrefix mq = none := rfl

end RemoteBrokerOffsetStore
end RocketMQ
