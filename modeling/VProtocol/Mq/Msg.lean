import VProtocol.Common.Types

/-!
# The messages of the message queue

The classes of `mq_msg_def.h` with the members that `DSC_BIND_ATTR` lists, and what the
services of the queue share: the addresses of objects and the faults of a step.
-/

namespace VProtocol.Mq

abbrev Ptr := Nat

/-- A step the source leaves undefined, or one that its callers never ask for. -/
inductive Fault where
  | dangling
  | outOfRange
  | emptyStack
  | endless
  | assertion
  | notConnected
  deriving DecidableEq

abbrev Res := Except Fault

structure RegistMqForwarderServiceReq where
  port : Int16
  strAddr : Blob
  deriving DecidableEq

structure RegMqClientAddrReq where
  clientID : UInt32

structure MqForwarderAddr where
  port : Int32
  strIpAddr : Blob
  deriving DecidableEq

structure RegMqClientAddrRsp where
  clientID : UInt32
  lstMqForwarderAddr : List MqForwarderAddr
  deriving DecidableEq

structure AddFowrarderAddrNotify where
  mqForwarderAddr : MqForwarderAddr
  deriving DecidableEq

structure DelFowrarderAddrNotify where
  mqForwarderAddr : MqForwarderAddr
  deriving DecidableEq

structure RegMqTopicReq where
  clientID : UInt32
  lstTopicID : List UInt32
  deriving DecidableEq

structure PubMqTopicMsg where
  topicID : UInt32
  msgBlob : Blob
  deriving DecidableEq

/-- `CPubMqAddrMsg`, `CPubMqBroadcastMsg` -/
structure PubMqMsg where
  clientID : UInt32
  topicID : UInt32
  msgBlob : Blob
  deriving DecidableEq

end VProtocol.Mq
