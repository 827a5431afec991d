import RocketMQ.Message.MessageQueue

/-!
# Replies of a remoting server

`src/protocol/RemotingCommand.h`, `src/protocol/MQProtos.h`. A reply carries a code, a
remark and the custom header its request type asks for; the header pointer is `NULL` when
none was decoded. Reading a field through such a pointer has no behaviour to model, so it
ends a computation in `none`.
-/

namespace RocketMQ

/-- A decoded reply whose custom header, when there is one, is of type `H`. -/
structure RemotingCommand (H : Type) where
  code : Int
  remark : StdString
  customHeader : Option H

/-- What `invokeSync` returns: `NULL` without a connection, when the write fails and when
no reply arrives in time, `src/transport/TcpRemotingClient.cpp:86–101,294–361`. -/
abbrev SyncReply (H : Type) := Option (RemotingCommand H)

/-- What comes of the request a thread waits for. -/
inductive BrokerBehaviour (H : Type) where
  | noConnection
  | failedWrite
  | noResponse
  | response (command : RemotingCommand H)

/-- `TcpRemotingClient::invokeSync`, `src/transport/TcpRemotingClient.cpp:86–101,294–361`. -/
def BrokerBehaviour.invokeSync {H : Type} : BrokerBehaviour H → SyncReply H
  | .noConnection | .failedWrite | .noResponse => none
  | .response command => some command

/-! ### Codes of `src/protocol/MQProtos.h` -/

def successValue : Int := 0
def systemErrorValue : Int := 1
def flushDiskTimeoutValue : Int := 10
def slaveNotAvailableValue : Int := 11
def flushSlaveTimeoutValue : Int := 12
def serviceNotAvailableValue : Int := 14
def noPermissionValue : Int := 16
def topicNotExistValue : Int := 17
def pullNotFoundValue : Int := 19
def pullRetryImmediatelyValue : Int := 20
def pullOffsetMovedValue : Int := 21
def queryNotFoundValue : Int := 22

end RocketMQ
