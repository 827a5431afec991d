import RocketMQ.Consumer.OffsetStore

/-!
# Where consumption of a new queue starts

`RebalancePushImpl::computePullFromWhere`, `src/consumer/RebalancePushImpl.cpp:45–114`. The
start is read off one number that the offset store returns: an offset, `-1` for "no offset
is stored", anything below for "try again later". The store answers `-1` for a failed query
as well, and the theorem below says for which outcomes of the query that does no harm.
-/

namespace RocketMQ

/-- `ConsumeFromWhere`. -/
inductive ConsumeFromWhere where
  | consumeFromLastOffset
  | consumeFromLastOffsetAndFromMinWhenBootFirst
  | consumeFromMaxOffset
  | consumeFromMinOffset
deriving DecidableEq

/-- `MixAll::RETRY_GROUP_TOPIC_PREFIX`, `src/common/MixAll.cpp:28`. -/
def retryGroupTopicPrefix : StdString := str "%RETRY%"

/-- `LLONG_MAX`. -/
def llongMax : Int := 2 ^ 63 - 1

namespace RebalancePushImpl

/-- The start of a queue whose broker has no offset of the group,
`src/consumer/RebalancePushImpl.cpp:63–76`. -/
def startWithoutOffset (topic : StdString) : Int :=
  if retryGroupTopicPrefix <+: topic then 0 else llongMax

/-- `src/consumer/RebalancePushImpl.cpp:45–114`. -/
def computePullFromWhere (consumeFromWhere : ConsumeFromWhere)
    (store : RemoteBrokerOffsetStore) (lookup : BrokerLookup) (query : QueryConsumerOffset)
    (projectGroupPrefix : StdString) (mq : MessageQueue) :
    Option (RemoteBrokerOffsetStore × Int) :=
  match consumeFromWhere with
  | .consumeFromLastOffset =>
    match store.readOffset lookup query projectGroupPrefix mq .readFromStore with
    | none => none
    | some (store', lastOffset) =>
      some (store',
        if lastOffset ≥ 0 then lastOffset
        else if lastOffset = -1 then startWithoutOffset mq.topic
        else -1)
  | .consumeFromLastOffsetAndFromMinWhenBootFirst =>
    match store.readOffset lookup query projectGroupPrefix mq .readFromStore with
    | none => none
    | some (store', lastOffset) =>
      some (store',
        if lastOffset ≥ 0 then lastOffset
        else if lastOffset = -1 then 0
        else -1)
  | .consumeFromMaxOffset => some (store, llongMax)
  | .consumeFromMinOffset => some (store, 0)

/-! ### The outcome of the query -/

/-- What comes of the request for the stored offset. -/
inductive QueryOutcome where
  | noAddress
  | noResponse
  | errorCode (code : Int)
  | offset (stored : Int)
  | offsetMissing
deriving DecidableEq

/-- The request for the offset of a queue, as it is sent. -/
def queryHeader (store : RemoteBrokerOffsetStore) (projectGroupPrefix : StdString)
    (mq : MessageQueue) : QueryConsumerOffsetRequestHeader :=
  if !isBlank projectGroupPrefix then
    { consumerGroup := VirtualEnvUtil.buildWithProjectGroup store.groupName projectGroupPrefix
      topic := VirtualEnvUtil.buildWithProjectGroup mq.topic projectGroupPrefix
      queueId := mq.queueId }
  else { consumerGroup := store.groupName, topic := mq.topic, queueId := mq.queueId }

/-- The outcome, read off the address table and the broker's reply. -/
def queryOutcome (store : RemoteBrokerOffsetStore) (lookup : BrokerLookup)
    (query : QueryConsumerOffset) (projectGroupPrefix : StdString) (mq : MessageQueue) :
    QueryOutcome :=
  let brokerAddr := (lookup.inAdmin mq.brokerName).brokerAddr
  if brokerAddr.isEmpty then .noAddress
  else
    match query brokerAddr (queryHeader store projectGroupPrefix mq) with
    | none => .noResponse
    | some response =>
      if response.code = successValue then
        match response.customHeader with
        | none => .offsetMissing
        | some header => .offset header.offset
      else .errorCode response.code

/-- The number the offset store makes of an outcome. -/
def QueryOutcome.encoded : QueryOutcome → Option Int
  | .offset stored => some stored
  | .offsetMissing => none
  | .noAddress | .noResponse | .errorCode _ => some (-1)

/-- The start is one the outcome justifies: an offset the broker stores, or any when the
broker answered that it stores none, or a negative one. -/
def Justified (outcome : QueryOutcome) (start : Int) : Prop :=
  start < 0 ∨ outcome = .errorCode queryNotFoundValue ∨ outcome = .offset start

/-- The outcomes for which the encoding does no harm. -/
def Distinguished : QueryOutcome → Prop
  | .errorCode code => code = queryNotFoundValue
  | .offset stored => stored ≠ -1
  | .noAddress | .noResponse | .offsetMissing => False

section Outcome

variable (store : RemoteBrokerOffsetStore) (lookup : BrokerLookup) (query : QueryConsumerOffset)
  (projectGroupPrefix : StdString) (mq : MessageQueue)

/-- The offset store returns the encoded outcome. -/
theorem fetchConsumeOffsetFromBroker_eq :
    store.fetchConsumeOffsetFromBroker lookup query projectGroupPrefix mq =
      (queryOutcome store lookup query projectGroupPrefix mq).encoded := by
  have hheader : (if !isBlank projectGroupPrefix then
      ({ consumerGroup := VirtualEnvUtil.buildWithProjectGroup store.groupName projectGroupPrefix
         topic := VirtualEnvUtil.buildWithProjectGroup mq.topic projectGroupPrefix
         queueId := mq.queueId } : QueryConsumerOffsetRequestHeader)
      else { consumerGroup := store.groupName, topic := mq.topic, queueId := mq.queueId }) =
        queryHeader store projectGroupPrefix mq := rfl
  simp only [RemoteBrokerOffsetStore.fetchConsumeOffsetFromBroker,
    MQClientAPIImpl.queryConsumerOffset, queryOutcome, hheader]
  split
  · rfl
  · cases query _ (queryHeader store projectGroupPrefix mq) with
    | none => rfl
    | some response =>
      obtain ⟨code, remark, header⟩ := response
      by_cases hcode : code = successValue
      · cases header <;> simp [hcode, QueryOutcome.encoded]
      · simp [hcode, QueryOutcome.encoded]

/-- Reading from the store returns the encoded outcome. -/
theorem readOffset_readFromStore :
    (store.readOffset lookup query projectGroupPrefix mq .readFromStore).map Prod.snd =
      (queryOutcome store lookup query projectGroupPrefix mq).encoded := by
  rw [← fetchConsumeOffsetFromBroker_eq]
  simp only [RemoteBrokerOffsetStore.readOffset, RemoteBrokerOffsetStore.readFromStore]
  cases store.fetchConsumeOffsetFromBroker lookup query projectGroupPrefix mq with
  | none => rfl
  | some offset =>
    by_cases h : offset ≥ 0 <;> simp [h]

/-- The start as a function of the encoded outcome, for the two policies that ask. -/
def startOf (consumeFromWhere : ConsumeFromWhere) (topic : StdString) (lastOffset : Int) : Int :=
  if lastOffset ≥ 0 then lastOffset
  else if lastOffset = -1 then
    if consumeFromWhere = .consumeFromLastOffset then startWithoutOffset topic else 0
  else -1

/-- Both policies that ask compute the start from the encoded outcome. -/
theorem computePullFromWhere_eq {consumeFromWhere : ConsumeFromWhere}
    (h : consumeFromWhere = .consumeFromLastOffset ∨
      consumeFromWhere = .consumeFromLastOffsetAndFromMinWhenBootFirst) :
    (computePullFromWhere consumeFromWhere store lookup query projectGroupPrefix mq).map
        Prod.snd =
      (queryOutcome store lookup query projectGroupPrefix mq).encoded.map
        (startOf consumeFromWhere mq.topic) := by
  rw [← readOffset_readFromStore]
  rcases h with rfl | rfl <;> simp only [computePullFromWhere] <;>
    cases store.readOffset lookup query projectGroupPrefix mq .readFromStore <;> rfl

/-- Without a stored offset the start is not negative. -/
theorem startOf_none_nonneg (consumeFromWhere : ConsumeFromWhere) (topic : StdString) :
    0 ≤ startOf consumeFromWhere topic (-1) := by
  have h : startOf consumeFromWhere topic (-1) =
      if consumeFromWhere = .consumeFromLastOffset then startWithoutOffset topic else 0 := rfl
  rw [h]
  split
  · unfold startWithoutOffset
    split <;> decide
  · decide

/-- The start is justified exactly for the outcomes that the encoding keeps apart. -/
theorem justified_startOf_iff (consumeFromWhere : ConsumeFromWhere) (topic : StdString)
    (outcome : QueryOutcome) :
    (∃ start, outcome.encoded.map (startOf consumeFromWhere topic) = some start ∧
      Justified outcome start) ↔ Distinguished outcome := by
  have hnone := startOf_none_nonneg consumeFromWhere topic
  cases outcome with
  | noAddress | noResponse =>
    simp only [QueryOutcome.encoded, Option.map_some, Option.some.injEq, exists_eq_left',
      Justified, Distinguished, reduceCtorEq, or_false, iff_false, Int.not_lt]
    exact hnone
  | offsetMissing => simp [QueryOutcome.encoded, Distinguished]
  | errorCode code =>
    simp only [QueryOutcome.encoded, Option.map_some, Option.some.injEq, exists_eq_left',
      Justified, Distinguished, reduceCtorEq, or_false, QueryOutcome.errorCode.injEq]
    constructor
    · rintro (hneg | hcode)
      · omega
      · exact hcode
    · exact Or.inr
  | offset stored =>
    simp only [QueryOutcome.encoded, Option.map_some, Option.some.injEq, exists_eq_left',
      Justified, Distinguished, reduceCtorEq, false_or, QueryOutcome.offset.injEq]
    by_cases hs : stored ≥ 0
    · have : startOf consumeFromWhere topic stored = stored := if_pos hs
      rw [this]
      constructor
      · intro _
        omega
      · exact fun _ ↦ Or.inr rfl
    · by_cases hm : stored = -1
      · subst hm
        constructor
        · rintro (h | h) <;> omega
        · exact fun h ↦ absurd rfl h
      · have : startOf consumeFromWhere topic stored = -1 := by
          rw [startOf, if_neg hs, if_neg hm]
        rw [this]
        exact ⟨fun _ ↦ hm, fun _ ↦ Or.inl (by decide)⟩

/-- Under both policies that ask the broker, the start is justified exactly when the broker
answered that it stores no offset, or answered with an offset other than `-1`. -/
theorem computePullFromWhere_justified_iff (consumeFromWhere : ConsumeFromWhere)
    (h : consumeFromWhere = .consumeFromLastOffset ∨
      consumeFromWhere = .consumeFromLastOffsetAndFromMinWhenBootFirst) :
    (∃ store' start,
      computePullFromWhere consumeFromWhere store lookup query projectGroupPrefix mq =
        some (store', start) ∧
      Justified (queryOutcome store lookup query projectGroupPrefix mq) start) ↔
    Distinguished (queryOutcome store lookup query projectGroupPrefix mq) := by
  rw [← justified_startOf_iff consumeFromWhere mq.topic,
    ← computePullFromWhere_eq store lookup query projectGroupPrefix mq h]
  constructor
  · rintro ⟨store', start, hc, hj⟩
    exact ⟨start, by rw [hc]; rfl, hj⟩
  · rintro ⟨start, hc, hj⟩
    obtain ⟨⟨store', start'⟩, hc', rfl⟩ := Option.map_eq_some_iff.mp hc
    exact ⟨store', start', hc', hj⟩

/-- A broker that answers with the offset `7`. -/
theorem computePullFromWhere_justified_iff_stored :
    let lookup : BrokerLookup := ⟨{(str "b", {(0, str "a:1")})}, ∅⟩
    let query : QueryConsumerOffset := fun _ _ ↦ some ⟨successValue, [], some ⟨7⟩⟩
    ∃ store' start,
      computePullFromWhere .consumeFromLastOffset ⟨str "g", ∅⟩ lookup query []
        ⟨str "t", str "b", 0⟩ = some (store', start) ∧
      Justified (queryOutcome ⟨str "g", ∅⟩ lookup query [] ⟨str "t", str "b", 0⟩) start := by
  intro lookup query
  refine (computePullFromWhere_justified_iff ⟨str "g", ∅⟩ lookup query []
    ⟨str "t", str "b", 0⟩ .consumeFromLastOffset (Or.inl rfl)).mpr ?_
  have h : queryOutcome ⟨str "g", ∅⟩ lookup query [] ⟨str "t", str "b", 0⟩ = .offset 7 := by
    decide
  rw [h]
  change (7 : Int) ≠ -1
  decide

/-- A broker that does not answer in time sends the consumer to the end of the queue. -/
theorem timeout_starts_at_end :
    let lookup : BrokerLookup := ⟨{(str "b", {(0, str "a:1")})}, ∅⟩
    let query : QueryConsumerOffset := fun _ _ ↦ none
    ∃ store' start,
      computePullFromWhere .consumeFromLastOffset ⟨str "g", ∅⟩ lookup query []
        ⟨str "t", str "b", 0⟩ = some (store', start) ∧ start = llongMax ∧
      ¬ Justified (queryOutcome ⟨str "g", ∅⟩ lookup query [] ⟨str "t", str "b", 0⟩) start := by
  intro lookup query
  refine ⟨_, _, rfl, by decide, ?_⟩
  unfold Justified
  decide

end Outcome
end RebalancePushImpl
end RocketMQ
