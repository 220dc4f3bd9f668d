import VProtocol.Crypt.Wrapper
import VProtocol.Lib.OrderedSet
import VProtocol.Lib.Run

/-!
# The callback service of the peer-to-peer queue

`CMqCallbackService` keeps the addresses of its peers, and for each topic the addresses that have
subscribed to it. The addresses (`CDscMsgAddr`) are a type with an order, and what `OnConnected`
makes of a connection is a parameter. The registry is a list of its entries, in the order in which
an iteration visits them. What the application publishes goes through the codec first: a member
that is not bound keeps what was in the object that is read into.
-/

namespace VProtocol.P2p

open Crypt (DscBlob)

/-- `CSubMsgAddr::m_it` is read, or moved on, at a place that is not in the set. -/
inductive Fault where
  | dangling
  deriving DecidableEq

abbrev Res := Except Fault

/-! ## Messages -/

/-- `CP2pMqMsg`; as `MQ_ID::CPubMsg` it goes to a subscriber. -/
structure P2pMqMsg where
  topicID : Int32
  msgBlob : DscBlob
  deriving DecidableEq

/-- `MQ_ID::CPubMsg2CallbackService` -/
structure PubMsg2CallbackService where
  pubMsgType : Int32
  topicID : Int32
  msgBlob : DscBlob
  deriving DecidableEq

def broadcastType : Int32 := 0
def pollType : Int32 := 1

/-- The codecs of the members that are bound, for the types DSC knows. -/
structure MsgCodec where
  int32 : Codec Int32
  blob : Codec DscBlob

/-- The mode is not in the list. -/
def PubMsg2CallbackService.attrs (c : MsgCodec) : List (Attr PubMsg2CallbackService) :=
  [c.int32.attr (·.topicID) fun v m => { m with topicID := v },
    c.blob.attr (·.msgBlob) fun v m => { m with msgBlob := v }]

/-- `PubP2pMqMsgImpl`, up to the send; `PubPollP2pMqMsg` is with `poll`, `PubBroadcastP2pMqMsg` without. -/
def pubP2pMqMsgImpl (msg : P2pMqMsg) (poll : Bool) : PubMsg2CallbackService :=
  ⟨if poll then pollType else broadcastType, msg.topicID, msg.msgBlob⟩

/-- A message as the service reads it into `target`. -/
def PubMsg2CallbackService.received (c : MsgCodec) (m target : PubMsg2CallbackService) : PubMsg2CallbackService :=
  (decodeAttrs (attrs c) target (encodeAttrs (attrs c) m)).1

@[simp] theorem PubMsg2CallbackService.received_eq (c : MsgCodec) (m target : PubMsg2CallbackService) :
    m.received c target = ⟨target.pubMsgType, m.topicID, m.msgBlob⟩ := by
  have hdec := decodeAttrs_encodeAttrs (attrs c) m target []
  rw [List.append_nil] at hdec
  unfold received
  rw [hdec]
  rfl

structure ConnectInfo where
  type : Int16
  id : Int16

/-- `remoteAddr` is the address of the service (`EN_SERVICE_TYPE`, 1) at the other end of a
connection; `noAddr` is a `CDscMsgAddr` that was not assigned. -/
structure Config (α : Type) where
  codec : MsgCodec
  remoteAddr : ConnectInfo → α
  noAddr : α

/-! ## Subscribers of a topic -/

/-- `CSubMsgAddr`; `it` is `none` at the end of the set. -/
structure SubMsgAddr (α : Type) [LinearOrder α] where
  addrSet : OrderedSet α := .empty
  it : Option α := none

namespace SubMsgAddr

section
variable {α : Type} [LinearOrder α]

def insert (addr : α) (S : SubMsgAddr α) : SubMsgAddr α :=
  if addr ∈ S.addrSet.elems then S
  else
    let addrSet := S.addrSet.insert addr
    { addrSet, it := addrSet.begin }

def erase (addr : α) (S : SubMsgAddr α) : SubMsgAddr α :=
  if addr ∈ S.addrSet.elems then
    let addrSet := S.addrSet.erase addr
    { addrSet, it := addrSet.begin }
  else S

def empty (S : SubMsgAddr α) : Bool := S.addrSet.elems.isEmpty

/-- An address that is not found stays what it was. -/
def getAddr (addr : α) (S : SubMsgAddr α) : Res (α × SubMsgAddr α) :=
  if S.empty then .ok (addr, S)
  else
    match S.addrSet.read S.it with
    | none => .error .dangling
    | some a =>
      if a ∈ S.addrSet.elems then .ok (a, { S with it := S.addrSet.next a }) else .error .dangling

end

end SubMsgAddr

/-! ## The registry -/

abbrev Registry (α : Type) [LinearOrder α] := List (Int32 × SubMsgAddr α)

namespace Registry

section
variable {α : Type} [LinearOrder α]

def find (t : Int32) : Registry α → Option (SubMsgAddr α)
  | [] => none
  | (t', S) :: l => if t' = t then some S else find t l

/-- The object of a topic that is there becomes `S`. -/
def set (t : Int32) (S : SubMsgAddr α) : Registry α → Registry α
  | [] => []
  | (t', S') :: l => if t' = t then (t', S) :: l else (t', S') :: set t S l

def subscribe (src : α) (t : Int32) (r : Registry α) : Registry α :=
  match r.find t with
  | none => (t, ({} : SubMsgAddr α).insert src) :: r
  | some S => r.set t (S.insert src)

/-- The loop of `OnDisConnected`: an entry whose set is empty then is erased at the iterator. -/
def eraseAddr (addr : α) : Registry α → Registry α
  | [] => []
  | (t, S) :: l => if (S.erase addr).empty then eraseAddr addr l else (t, S.erase addr) :: eraseAddr addr l

end

end Registry

/-! ## The service -/

structure Callback (α : Type) [LinearOrder α] where
  setRemoteAddr : OrderedSet α := .empty
  mapTopicRegistry : Registry α := []
  lstMsgID : List Int32 := []

/-- `subMsgID` is `MQ_ID::CSubMsgID`, `pubMsg` is `MQ_ID::CPubMsg`. -/
inductive Out (α : Type) where
  | subMsgID (addr : α) (lstMsgID : List Int32)
  | pubMsg (addr : α) (msg : P2pMqMsg)
  | onMessage (src : α) (msg : P2pMqMsg)
  deriving DecidableEq

/-- `subP2pMqMsgID` and `publish` are calls of the application, as they reach the service;
`target` is the message object that is read into. -/
inductive Event (α : Type) where
  | connected (info : ConnectInfo)
  | disConnected (info : ConnectInfo)
  | subP2pMqMsgID (lstTopic : List Int32)
  | subMsgID (lstMsgID : List Int32) (src : α)
  | publish (msg : P2pMqMsg) (poll : Bool) (target : PubMsg2CallbackService)
  | pubMsg (msg : P2pMqMsg) (src : α)

namespace Callback

section
variable {α : Type} [LinearOrder α] (cfg : Config α)

def onConnected (info : ConnectInfo) (s : Callback α) : Callback α × List (Out α) :=
  let addr := cfg.remoteAddr info
  if addr ∈ s.setRemoteAddr.elems then (s, [])
  else ({ s with setRemoteAddr := s.setRemoteAddr.insert addr }, [.subMsgID addr s.lstMsgID])

def onDisConnected (info : ConnectInfo) (s : Callback α) : Callback α :=
  let addr := cfg.remoteAddr info
  if addr ∈ s.setRemoteAddr.elems then
    { s with setRemoteAddr := s.setRemoteAddr.erase addr, mapTopicRegistry := s.mapTopicRegistry.eraseAddr addr }
  else s

/-- `OnDscMsg(CSubMsgID2CallbackService)`: the list is the one that is sent from now on. -/
def onSubMsgID2CallbackService (lstMsgID : List Int32) (s : Callback α) : Callback α × List (Out α) :=
  ({ s with lstMsgID }, s.setRemoteAddr.elems.map fun addr => .subMsgID addr lstMsgID)

def onSubMsgID (lstMsgID : List Int32) (src : α) (s : Callback α) : Callback α :=
  { s with mapTopicRegistry := lstMsgID.foldl (fun r t => r.subscribe src t) s.mapTopicRegistry }

def onPubMsg2CallbackService (m : PubMsg2CallbackService) (s : Callback α) : Res (Callback α × List (Out α)) :=
  match s.mapTopicRegistry.find m.topicID with
  | none => .ok (s, [])
  | some S =>
    let msg : P2pMqMsg := ⟨m.topicID, m.msgBlob⟩
    if m.pubMsgType = pollType then do
      let r ← S.getAddr cfg.noAddr
      .ok ({ s with mapTopicRegistry := s.mapTopicRegistry.set m.topicID r.2 }, [.pubMsg r.1 msg])
    else .ok (s, S.addrSet.elems.map fun addr => .pubMsg addr msg)

def step (s : Callback α) : Event α → Res (Callback α × List (Out α))
  | .connected info => .ok (s.onConnected cfg info)
  | .disConnected info => .ok (s.onDisConnected cfg info, [])
  | .subP2pMqMsgID lstTopic => .ok (s.onSubMsgID2CallbackService lstTopic)
  | .subMsgID lstMsgID src => .ok (s.onSubMsgID lstMsgID src, [])
  | .publish msg poll target => s.onPubMsg2CallbackService cfg ((pubP2pMqMsgImpl msg poll).received cfg.codec target)
  | .pubMsg msg src => .ok (s, [.onMessage src msg])

end

end Callback

end VProtocol.P2p
