import RocketMQ.Base.Decimal
import RocketMQ.Factory.BrokerTable
import RocketMQ.Message.MessageDecoder
import RocketMQ.Producer.TopicPublishInfo
import Std.Data.ExtTreeSet.Lemmas

/-!
# Topic routes

`src/protocol/TopicRouteData.h`, and what `src/MQClientFactory.cpp` makes of a route for
producers and consumers. A `std::set` of queues is an ordered set.
-/

namespace RocketMQ

/-! ### Route data -/

/-- `src/protocol/TopicRouteData.h:28–52`. -/
structure QueueData where
  brokerName : StdString
  readQueueNums : Int
  writeQueueNums : Int
  perm : Int
deriving DecidableEq

/-- `src/protocol/TopicRouteData.h:54–74`. -/
structure BrokerData where
  brokerName : StdString
  brokerAddrs : Std.ExtTreeMap Int StdString
deriving DecidableEq

/-- `src/protocol/TopicRouteData.h:80–229`. -/
structure TopicRouteData where
  orderTopicConf : StdString
  queueDatas : List QueueData
  brokerDatas : List BrokerData
deriving DecidableEq

namespace TopicRouteData

/-- Both lists sorted by `operator<`, which looks at the broker name; `list::sort` is stable. -/
def sorted (route : TopicRouteData) : TopicRouteData :=
  { route with
    queueDatas := route.queueDatas.mergeSort fun a b ↦ (compare a.brokerName b.brokerName).isLE
    brokerDatas := route.brokerDatas.mergeSort fun a b ↦ (compare a.brokerName b.brokerName).isLE }

/-- `MQClientFactory::topicRouteDataIsChange`, `src/MQClientFactory.cpp:1127–1139`. -/
def isChange (olddata nowdata : TopicRouteData) : Bool := olddata.sorted ≠ nowdata.sorted

end TopicRouteData

namespace PermName

/-- `PERM_READ`, the bit of 4. -/
def isReadable (perm : Int) : Bool := perm / 4 % 2 = 1

/-- `PERM_WRITE`, the bit of 2. -/
def isWriteable (perm : Int) : Bool := perm / 2 % 2 = 1

end PermName

/-! ### Queues of a topic -/

/-- The number at the front of a string, behind white space and a sign, without a bound. -/
def leadingNumber (s : StdString) : Int :=
  let isSpace (b : UInt8) : Bool := b = 32 ∨ (9 ≤ b ∧ b ≤ 13)
  let number (digits : StdString) : Int := Base.digitsValue (digits.takeWhile Base.isDigit)
  match s.dropWhile isSpace with
  | 45 :: digits => -number digits
  | 43 :: digits => number digits
  | digits => number digits

/-- `atoi`: what `strtol` reads, bounded by the range of a `long`, as an `int`. -/
def atoi (s : StdString) : Int := toInt32 (max (-2 ^ 63) (min (2 ^ 63 - 1) (leadingNumber s)))

/-- The queues of a broker with the ids below a number. -/
def queuesOf (topic brokerName : StdString) (queueNums : Int) : List MessageQueue :=
  (List.range queueNums.toNat).map fun (i : Nat) ↦ ⟨topic, brokerName, i⟩

/-- The queues that `orderTopicConf` lists as `name:number`, separated by `;`. An item without
`:` is read behind its pieces. `UtilAll::Split` at a one-character string is the one at a
character. -/
def orderQueues (topic orderTopicConf : StdString) : Option (List MessageQueue) := do
  let queues ← (UtilAll.split orderTopicConf 59).mapM fun item ↦
    match UtilAll.split item 58 with
    | name :: nums :: _ => some (queuesOf topic name (atoi nums))
    | _ => none
  return queues.flatten

/-- The queues of the writable brokers that have a master, by broker name. -/
def writableQueues (topic : StdString) (route : TopicRouteData) : List MessageQueue :=
  route.sorted.queueDatas.flatMap fun qd ↦
    if PermName.isWriteable qd.perm then
      match route.brokerDatas.find? fun bd ↦ bd.brokerName = qd.brokerName with
      | none => []
      | some bd =>
        if masterId ∈ bd.brokerAddrs then queuesOf topic qd.brokerName qd.writeQueueNums else []
    else []

/-- How many queues of an entry of the queue data the publish info lists: the first broker data of
the name counts. -/
def TopicRouteData.listedNums (route : TopicRouteData) (qd : QueueData) : Nat :=
  if PermName.isWriteable qd.perm ∧ (route.brokerDatas.find? fun bd ↦
      bd.brokerName = qd.brokerName).any fun bd ↦ masterId ∈ bd.brokerAddrs then
    qd.writeQueueNums.toNat
  else 0

/-- These are the queues of the writable brokers. -/
theorem writableQueues_eq_listed (topic : StdString) (route : TopicRouteData) :
    writableQueues topic route = route.sorted.queueDatas.flatMap fun qd ↦
      queuesOf topic qd.brokerName (route.listedNums qd) := by
  unfold writableQueues
  congr
  funext qd
  rw [TopicRouteData.listedNums]
  by_cases hwriteable : PermName.isWriteable qd.perm = true
  · cases hfind : route.brokerDatas.find? fun bd ↦ bd.brokerName = qd.brokerName with
    | none => simp [hwriteable, queuesOf]
    | some bd =>
      by_cases hmaster : masterId ∈ bd.brokerAddrs
      · simp [hwriteable, hmaster, queuesOf, -Int.ofNat_toNat]
      · simp [hwriteable, hmaster, queuesOf]
  · simp [hwriteable, queuesOf]

/-- `src/MQClientFactory.cpp:349–422`; `none` when it reads behind the pieces of a split. -/
def topicRouteData2TopicPublishInfo (topic : StdString) (route : TopicRouteData) :
    Option TopicPublishInfo :=
  if !route.orderTopicConf.isEmpty then
    (orderQueues topic route.orderTopicConf).map fun queues ↦ ⟨queues, 0⟩
  else some ⟨writableQueues topic route, 0⟩

/-- `src/MQClientFactory.cpp:424–443`. -/
def topicRouteData2TopicSubscribeInfo (topic : StdString) (route : TopicRouteData) :
    Std.ExtTreeSet MessageQueue :=
  route.queueDatas.foldl (fun mqList qd ↦
    if PermName.isReadable qd.perm then
      (queuesOf topic qd.brokerName qd.readQueueNums).foldl (·.insert ·) mqList
    else mqList) ∅

end RocketMQ
