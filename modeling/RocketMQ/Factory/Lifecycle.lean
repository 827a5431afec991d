import Mathlib.Logic.Function.Basic
import RocketMQ.Common.MQException

/-!
# Start and shutdown of clients that share a factory

`MQClientFactory::start` and `shutdown` with the three registration tables,
`src/MQClientFactory.cpp`, the table of `src/MQClientManager.cpp`, and `start` and `shutdown` of the
two kinds of client, `src/producer/DefaultMQProducerImpl.cpp` and
`src/consumer/DefaultMQPushConsumerImpl.cpp`. The steps of a start that check the configuration or
open sockets and threads are taken to succeed; heartbeats and the threads themselves are left out.
-/

namespace RocketMQ

/-- A client of the program, or the producer inside the factory with an index. -/
inductive ClientRef where
  | client (i : Nat)
  | inner (f : Nat)
deriving DecidableEq

inductive ClientKind where
  | producer
  | pushConsumer
deriving DecidableEq

/-- What a client is made with. The id is that of `buildMQClientId`,
`src/ClientConfig.cpp:52–55`. -/
structure ClientSettings where
  kind : ClientKind
  group : StdString
  clientId : StdString

/-- `m_serviceState` and `m_pMQClientFactory` of a client. -/
structure ClientService where
  serviceState : ServiceState
  factory : Option Nat

/-- `m_producerTable`, `m_consumerTable`, `m_adminExtTable`. -/
abbrev ClientTable := Std.ExtTreeMap StdString ClientRef

/-- `src/MQClientFactory.h:176–236`. -/
structure ClientFactory where
  clientId : StdString
  serviceState : ServiceState
  producerTable : ClientTable
  consumerTable : ClientTable
  adminExtTable : ClientTable

/-- `MixAll::CLIENT_INNER_PRODUCER_GROUP`, `src/common/MixAll.cpp:26`. -/
def clientInnerProducerGroup : StdString := str "CLIENT_INNER_PRODUCER"

namespace ClientFactory

/-- The constructor, `src/MQClientFactory.cpp:47–79`. -/
def new (clientId : StdString) : ClientFactory := ⟨clientId, .createJust, ∅, ∅, ∅⟩

/-- The table of one kind of client. -/
def table (factory : ClientFactory) : ClientKind → ClientTable
  | .producer => factory.producerTable
  | .pushConsumer => factory.consumerTable

def setTable (factory : ClientFactory) (kind : ClientKind) (table : ClientTable) : ClientFactory :=
  match kind with
  | .producer => { factory with producerTable := table }
  | .pushConsumer => { factory with consumerTable := table }

/-- What the two `register` functions share; `none` when they return false. -/
def register (kind : ClientKind) (factory : ClientFactory) (group : StdString) (ref : ClientRef) :
    Option ClientFactory :=
  if group.isEmpty then none
  else if (factory.table kind).contains group then none
  else some (factory.setTable kind ((factory.table kind).insert group ref))

/-- What the two `unregister` functions share. -/
def unregister (kind : ClientKind) (factory : ClientFactory) (group : StdString) : ClientFactory :=
  factory.setTable kind ((factory.table kind).erase group)

/-- `src/MQClientFactory.cpp:525–540`. -/
def registerProducer := register .producer

/-- `src/MQClientFactory.cpp:502–517`. -/
def registerConsumer := register .pushConsumer

/-- `src/MQClientFactory.cpp:542–546`. -/
def unregisterProducer := unregister .producer

/-- `src/MQClientFactory.cpp:519–523`. -/
def unregisterConsumer := unregister .pushConsumer

/-- The checks before the lock, `src/MQClientFactory.cpp:448–464`. -/
def stillUsed (factory : ClientFactory) : Bool :=
  !factory.consumerTable.isEmpty || !factory.adminExtTable.isEmpty ||
    decide (factory.producerTable.size > 1)

end ClientFactory

/-- All clients and factories of the process, with the manager's `m_factoryTable` and
`m_factoryIndexGenerator`. Factories are never deleted. -/
structure ClientWorld where
  factoryTable : Std.ExtTreeMap StdString Nat
  factoryIndexGenerator : Nat
  factories : Nat → ClientFactory
  clients : ClientRef → ClientService

namespace ClientWorld

def setFactory (w : ClientWorld) (f : Nat) (factory : ClientFactory) : ClientWorld :=
  { w with factories := Function.update w.factories f factory }

def setClient (w : ClientWorld) (ref : ClientRef) (state : ClientService) : ClientWorld :=
  { w with clients := Function.update w.clients ref state }

/-- `src/MQClientManager.cpp:39–57`. A new factory has a new inner producer. -/
def getAndCreateMQClientFactory (w : ClientWorld) (clientId : StdString) : ClientWorld × Nat :=
  match w.factoryTable[clientId]? with
  | some f => (w, f)
  | none =>
    let f := w.factoryIndexGenerator
    let w := (w.setFactory f (.new clientId)).setClient (.inner f) ⟨.createJust, none⟩
    ({ w with
        factoryTable := w.factoryTable.insert clientId f
        factoryIndexGenerator := f + 1 }, f)

/-- `src/MQClientManager.cpp:59–69`. -/
def removeClientFactory (w : ClientWorld) (clientId : StdString) : ClientWorld :=
  { w with factoryTable := w.factoryTable.erase clientId }

/-- What the two kinds of `start` share: the text for a client that was started before, the one
for a group that is taken, how the client registers, and what starts the factory. -/
def startClient (startedText : StdString) (takenText : StdString → StdString)
    (register : ClientFactory → StdString → ClientRef → Option ClientFactory)
    (startFactory : ClientWorld → Nat → ClientWorld × Except MQException Unit)
    (w : ClientWorld) (ref : ClientRef) (group clientId : StdString) :
    ClientWorld × Except MQException Unit :=
  match (w.clients ref).serviceState with
  | .createJust =>
    let w := w.setClient ref { w.clients ref with serviceState := .startFailed }
    let (w, f) := w.getAndCreateMQClientFactory clientId
    let w := w.setClient ref ⟨.startFailed, some f⟩
    match register (w.factories f) group ref with
    | none => (w.setClient ref ⟨.createJust, some f⟩, .error (.client (takenText group) (-1)))
    | some factory =>
      let w := w.setFactory f factory
      match startFactory w f with
      | (w, .error e) => (w, .error e)
      | (w, .ok ()) => (w.setClient ref ⟨.running, some f⟩, .ok ())
  | .running | .shutdownAlready | .startFailed => (w, .error (.client startedText (-1)))

/-- `DefaultMQProducerImpl::start`, `src/producer/DefaultMQProducerImpl.cpp:100–150`. -/
def startProducer (startFactory : ClientWorld → Nat → ClientWorld × Except MQException Unit) :=
  startClient (str "The producer service state not OK, maybe started once, ")
    (fun group ↦ str "The producer group[" ++ group ++
      str "] has been created before, specify another name please.")
    ClientFactory.registerProducer startFactory

/-- `MQClientFactory::start`, `src/MQClientFactory.cpp:98–135`. The inner producer starts without
starting the factory, and its id is that of the factory. -/
def startFactory (w : ClientWorld) (f : Nat) : ClientWorld × Except MQException Unit :=
  match (w.factories f).serviceState with
  | .createJust =>
    let w := w.setFactory f { w.factories f with serviceState := .startFailed }
    match startProducer (fun w _ ↦ (w, .ok ())) w (.inner f) clientInnerProducerGroup
        (w.factories f).clientId with
    | (w, .error e) => (w, .error e)
    | (w, .ok ()) => (w.setFactory f { w.factories f with serviceState := .running }, .ok ())
  | .running | .shutdownAlready => (w, .ok ())
  | .startFailed => (w, .error (.client (str "The Factory object start failed") (-1)))

/-- `DefaultMQPushConsumerImpl::start`, `src/consumer/DefaultMQPushConsumerImpl.cpp:462–561`. -/
def startPushConsumer :=
  startClient (str "The PullConsumer service state not OK, maybe started once, ")
    (fun group ↦ str "The consumer group[" ++ group ++
      str "] has been created before, specify another name please.")
    ClientFactory.registerConsumer startFactory

/-- What the two kinds of `shutdown` share. A running client has a factory. -/
def shutdownClient (unregister : ClientFactory → StdString → ClientFactory)
    (shutdownFactory : ClientWorld → Nat → ClientWorld) (w : ClientWorld) (ref : ClientRef)
    (group : StdString) : ClientWorld :=
  match (w.clients ref).serviceState, (w.clients ref).factory with
  | .running, some f =>
    let w := w.setFactory f (unregister (w.factories f) group)
    (shutdownFactory w f).setClient ref ⟨.shutdownAlready, some f⟩
  | _, _ => w

/-- `DefaultMQProducerImpl::shutdown`, `src/producer/DefaultMQProducerImpl.cpp:157–177`. -/
def shutdownProducer := shutdownClient ClientFactory.unregisterProducer

/-- `MQClientFactory::shutdown`, `src/MQClientFactory.cpp:446–500`. The inner producer shuts down
without shutting down the factory. -/
def shutdownFactory (w : ClientWorld) (f : Nat) : ClientWorld :=
  if (w.factories f).stillUsed then w
  else
    match (w.factories f).serviceState with
    | .running =>
      let w := shutdownProducer (fun w _ ↦ w) w (.inner f) clientInnerProducerGroup
      let w := w.removeClientFactory (w.factories f).clientId
      w.setFactory f { w.factories f with serviceState := .shutdownAlready }
    | .createJust | .shutdownAlready | .startFailed => w

/-- `DefaultMQPushConsumerImpl::shutdown`,
`src/consumer/DefaultMQPushConsumerImpl.cpp:441–460`. -/
def shutdownPushConsumer := shutdownClient ClientFactory.unregisterConsumer shutdownFactory

/-- `start()` of a client. -/
def start (settings : Nat → ClientSettings) (w : ClientWorld) (i : Nat) :
    ClientWorld × Except MQException Unit :=
  match (settings i).kind with
  | .producer => startProducer startFactory w (.client i) (settings i).group (settings i).clientId
  | .pushConsumer => startPushConsumer w (.client i) (settings i).group (settings i).clientId

/-- `shutdown()` of a client. -/
def shutdown (settings : Nat → ClientSettings) (w : ClientWorld) (i : Nat) : ClientWorld :=
  match (settings i).kind with
  | .producer => shutdownProducer shutdownFactory w (.client i) (settings i).group
  | .pushConsumer => shutdownPushConsumer w (.client i) (settings i).group

/-- The process before its first client starts. -/
def initial : ClientWorld := ⟨∅, 0, fun _ ↦ .new [], fun _ ↦ ⟨.createJust, none⟩⟩

end ClientWorld
end RocketMQ
