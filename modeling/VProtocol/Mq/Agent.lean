import VProtocol.Lib.Run
import VProtocol.Mq.TypeArray

/-!
# The agent of a client

`CMqClientSdkAgentService` keeps a session for each forwarder address that it has been told,
and an array of the sessions that are connected. Addresses as keys (`CDscIpAddr`) and what
they are made of are a parameter. Sessions live under addresses that are not used again, and
a handler is its handle id and its remote address.
-/

namespace VProtocol.Mq

open Function (update)

/-- `ipAddr` is `SetPort` and `SetIpAddr`; `asserts` tells whether `ACE_ASSERT` stops. -/
structure AgentConfig (α : Type) where
  ipAddr : Int32 → Blob → α
  getPort : α → Int32
  getIpAddr : α → Blob
  strMqSchedulerServiceAddr : Blob
  mqSchedulerServicePort : Int32
  asserts : Bool

structure ClientHandler (α : Type) where
  handleID : UInt32
  remoteAddr : α
  deriving DecidableEq

/-- `CMqClientSdkAgentService::CForwarderAddrSession` -/
structure AddrSession (α : Type) where
  strAddr : Blob
  mcpHandler : Option (ClientHandler α) := none
  handleID : UInt32 := 0
  port : Int16

/-- `connections` are the handlers that were reported connected, and not yet lost. -/
structure Agent (α : Type) where
  mapForwarderSession : α → Option Ptr := fun _ => none
  sessions : Ptr → Option (AddrSession α) := fun _ => none
  handlerSessionArray : TypeArray := {}
  sessionIndex : Indices := fun _ => none
  next : Ptr := 0
  connections : List (ClientHandler α) := []
  regMqTopicReq : RegMqTopicReq := ⟨0, []⟩

/-- What the application gives the constructor: its id, or 0, and the topics it is about. -/
structure InitMqClientSdkParam where
  clientID : UInt32
  topicID : List UInt32

def Agent.start {α : Type} (param : InitMqClientSdkParam) : Agent α :=
  { regMqTopicReq := ⟨param.clientID, param.topicID⟩ }

inductive AgentOut (α : Type) where
  | onReady
  | onAbnormal
  | regMqClientAddrReq (h : ClientHandler α) (req : RegMqClientAddrReq)
  | regMqTopicReq (h : ClientHandler α) (req : RegMqTopicReq)
  | doConnect (a : α)
  | disConnect (handleID : UInt32)
  | cancelConnect (handleID : UInt32)

/-- `fails` and `reports` tell whether the send, or `DisConnect`, calls `OnNetworkError` for the
handler before it returns. -/
inductive AgentEvent (α : Type) where
  | regMqClientAddrRsp (rsp : RegMqClientAddrRsp)
  | addFowrarderAddrNotify (notify : AddFowrarderAddrNotify)
  | delFowrarderAddrNotify (notify : DelFowrarderAddrNotify) (reports : Bool)
  | connectedNodify (h : ClientHandler α) (fails : Bool)
  | networkError (h : ClientHandler α)

namespace Agent

section
variable {α : Type} [DecidableEq α] (cfg : AgentConfig α)

/-! ## Addresses -/

def addMqForwarderAddr (addr : MqForwarderAddr) (s : Agent α) : Agent α × List (AgentOut α) :=
  let a := cfg.ipAddr addr.port addr.strIpAddr
  match s.mapForwarderSession a with
  | some _ => (s, [])
  | none =>
    ({ s with
        mapForwarderSession := update s.mapForwarderSession a (some s.next)
        sessions := update s.sessions s.next (some { strAddr := addr.strIpAddr, port := addr.port.toInt16 })
        sessionIndex := update s.sessionIndex s.next none
        next := s.next + 1 },
      [.doConnect a])

def addMqForwarderAddrs : List MqForwarderAddr → Agent α → Agent α × List (AgentOut α)
  | [], s => (s, [])
  | addr :: l, s =>
    let r := s.addMqForwarderAddr cfg addr
    let r' := addMqForwarderAddrs l r.1
    (r'.1, r.2 ++ r'.2)

def onRegMqClientAddrRsp (rsp : RegMqClientAddrRsp) (s : Agent α) : Agent α × List (AgentOut α) :=
  let r := s.addMqForwarderAddrs cfg rsp.lstMqForwarderAddr
  if r.1.regMqTopicReq.clientID = 0 then
    ({ r.1 with regMqTopicReq := { r.1.regMqTopicReq with clientID := rsp.clientID } }, r.2)
  else r

/-! ## Losses -/

def onAbnormalIf (b : Bool) : List (AgentOut α) := if b then [.onAbnormal] else []

def onNetworkError (h : ClientHandler α) (s : Agent α) : Res (Agent α × List (AgentOut α)) :=
  match s.mapForwarderSession h.remoteAddr with
  | none => .ok ({ s with connections := s.connections.erase h }, [])
  | some p =>
    match s.sessions p with
    | none => .error .dangling
    | some S => do
      let r ← s.handlerSessionArray.delete p s.sessionIndex
      .ok
        ({ s with
            sessions := update s.sessions p (some { S with mcpHandler := none })
            handlerSessionArray := r.1
            sessionIndex := r.2.1
            connections := s.connections.erase h },
          onAbnormalIf r.1.isEmpty)

/-- What a send or `DisConnect` may do before it returns. -/
def reportIf (b : Bool) (h : ClientHandler α) (s : Agent α) : Res (Agent α × List (AgentOut α)) :=
  if b then s.onNetworkError h else .ok (s, [])

/-- The session is not in the array any more. -/
def closeSession (S : AddrSession α) (reports : Bool) (s : Agent α) : Res (Agent α × List (AgentOut α)) :=
  match S.mcpHandler with
  | some h => do
    let r ← s.reportIf reports h
    .ok (r.1, .disConnect h.handleID :: r.2)
  | none => .ok (s, if S.handleID ≠ 0 then [.cancelConnect S.handleID] else [])

def onDelFowrarderAddrNotify (notify : DelFowrarderAddrNotify) (reports : Bool) (s : Agent α) :
    Res (Agent α × List (AgentOut α)) :=
  let a := cfg.ipAddr notify.mqForwarderAddr.port notify.mqForwarderAddr.strIpAddr
  match s.mapForwarderSession a with
  | none => .ok (s, [])
  | some p =>
    match s.sessions p with
    | none => .error .dangling
    | some S => do
      let r ← s.handlerSessionArray.delete p s.sessionIndex
      let r' ← { s with handlerSessionArray := r.1, sessionIndex := r.2.1 }.closeSession S reports
      .ok
        ({ r'.1 with
            mapForwarderSession := update r'.1.mapForwarderSession a none
            sessions := update r'.1.sessions p none },
          r'.2)

/-! ## Connections -/

def isScheduler (a : α) : Bool :=
  cfg.getIpAddr a = cfg.strMqSchedulerServiceAddr ∧ cfg.getPort a = cfg.mqSchedulerServicePort

/-- The session of a handler's address, which is made where there is none, with the handler in it. -/
def openSession (h : ClientHandler α) (s : Agent α) : Res (Agent α × Ptr) :=
  match s.mapForwarderSession h.remoteAddr with
  | none =>
    if cfg.asserts then .error .assertion
    else
      .ok
        ({ s with
            mapForwarderSession := update s.mapForwarderSession h.remoteAddr (some s.next)
            sessions := update s.sessions s.next (some
              { strAddr := cfg.getIpAddr h.remoteAddr, mcpHandler := some h, handleID := h.handleID,
                port := (cfg.getPort h.remoteAddr).toInt16 })
            sessionIndex := update s.sessionIndex s.next none
            next := s.next + 1 },
          s.next)
  | some p =>
    match s.sessions p with
    | none => .error .dangling
    | some S =>
      .ok ({ s with sessions := update s.sessions p (some { S with mcpHandler := some h, handleID := h.handleID }) }, p)

def onConnectedNodify (h : ClientHandler α) (fails : Bool) (s : Agent α) : Res (Agent α × List (AgentOut α)) :=
  if isScheduler cfg h.remoteAddr then do
    let r ← s.reportIf fails h
    .ok (r.1, .regMqClientAddrReq h ⟨s.regMqTopicReq.clientID⟩ :: r.2)
  else do
    let r ← s.openSession cfg h
    let inserted := r.1.handlerSessionArray.insert r.2 r.1.sessionIndex
    let s := { r.1 with handlerSessionArray := inserted.1, sessionIndex := inserted.2 }
    let r' ← s.reportIf fails h
    .ok
      (r'.1,
        .regMqTopicReq h s.regMqTopicReq :: r'.2 ++ if r'.1.handlerSessionArray.size = 1 then [.onReady] else [])

/-! ## Runs -/

def step (s : Agent α) : AgentEvent α → Res (Agent α × List (AgentOut α))
  | .regMqClientAddrRsp rsp => .ok (s.onRegMqClientAddrRsp cfg rsp)
  | .addFowrarderAddrNotify notify => .ok (s.addMqForwarderAddr cfg notify.mqForwarderAddr)
  | .delFowrarderAddrNotify notify reports => s.onDelFowrarderAddrNotify cfg notify reports
  | .connectedNodify h fails =>
    if h ∈ s.connections then .error .notConnected
    else onConnectedNodify cfg h fails { s with connections := h :: s.connections }
  | .networkError h => if h ∈ s.connections then s.onNetworkError h else .error .notConnected

end

end Agent

end VProtocol.Mq
