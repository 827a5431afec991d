import RocketMQ.Message.MessageQueue

/-!
# Exceptions and service states of a client

`include/MQClientException.h`, `src/common/ServiceState.h`. An exception is told apart by its
class, and carries a text and a number; file and line of the throw are left out.
-/

namespace RocketMQ

/-- The classes derived from `MQException`. -/
inductive MQExceptionType where
  | mqClientException
  | mqBrokerException
  | interruptedException
  | remotingException
  | unknownHostException
deriving DecidableEq

/-- A thrown exception. -/
structure MQException where
  type : MQExceptionType
  msg : StdString
  error : Int
deriving DecidableEq

namespace MQException

/-- `THROW_MQEXCEPTION(MQClientException, msg, err)`. -/
def client (msg : StdString) (error : Int) : MQException := ⟨.mqClientException, msg, error⟩

/-- `THROW_MQEXCEPTION(MQBrokerException, msg, err)`. -/
def broker (msg : StdString) (error : Int) : MQException := ⟨.mqBrokerException, msg, error⟩

end MQException

/-- `ServiceState`. -/
inductive ServiceState where
  | createJust
  | running
  | shutdownAlready
  | startFailed
deriving DecidableEq

end RocketMQ
