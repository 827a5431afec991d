import RocketMQ.Message.MessageQueue

/-!
# Choosing a queue to send to

`src/producer/TopicPublishInfo.h`. The counter is a 32-bit `int` that wraps around, and an
index is reduced modulo a `size_t`, which turns a negative one into a large one first.
-/

namespace RocketMQ

/-- The value an `int` holds. -/
def toInt32 (n : Int) : Int := n.bmod (2 ^ 32)

theorem toInt32_of_range {n : Int} (hlow : -2 ^ 31 ≤ n) (hhigh : n < 2 ^ 31) : toInt32 n = n :=
  Int.bmod_eq_of_le (by omega) (by omega)

theorem toInt32_range (n : Int) : -2 ^ 31 ≤ toInt32 n ∧ toInt32 n < 2 ^ 31 := by
  have hlow := Int.le_bmod (x := n) (m := 2 ^ 32) (by decide)
  have hhigh := Int.bmod_lt (x := n) (m := 2 ^ 32) (by decide)
  rw [toInt32]
  omega

/-- `abs` of an `int`; the least one has no positive counterpart and stays as it is. -/
def abs32 (n : Int) : Int := toInt32 n.natAbs

/-- `src/producer/TopicPublishInfo.h`. -/
structure TopicPublishInfo where
  messageQueueList : List MessageQueue
  sendWhichQueue : Int

namespace TopicPublishInfo

/-- `TopicPublishInfo::ok`. -/
def ok (info : TopicPublishInfo) : Bool := !info.messageQueueList.isEmpty

/-- The queue at an index, which may be negative. -/
def queueAt (info : TopicPublishInfo) (index : Int) : Option MessageQueue :=
  info.messageQueueList[(abs32 index % 2 ^ 64).toNat % info.messageQueueList.length]?

/-- `src/producer/TopicPublishInfo.h:78–101`. -/
def selectOneMessageQueue (info : TopicPublishInfo) (lastBrokerName : StdString) :
    Option MessageQueue × TopicPublishInfo :=
  let index := info.sendWhichQueue
  let counted := { info with sendWhichQueue := toInt32 (index + 1) }
  if !lastBrokerName.isEmpty then
    let tried := (List.range info.messageQueueList.length).filterMap fun (i : Nat) ↦
      info.queueAt (toInt32 (index + i))
    (tried.find? fun mq ↦ mq.brokerName ≠ lastBrokerName, counted)
  else (info.queueAt index, counted)

end TopicPublishInfo
end RocketMQ
