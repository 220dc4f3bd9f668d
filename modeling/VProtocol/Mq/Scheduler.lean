import Mathlib.Data.List.Sort
import VProtocol.Lib.Run
import VProtocol.Mq.Msg

/-!
# The scheduler service

`CMqSchedulerService` tells the clients which forwarders there are. Its sets are the lists
of their elements in the order of an iteration. Sends succeed, and do not come back into the
service.
-/

namespace VProtocol.Mq

structure ForwarderAddrSession where
  nodeType : Int16
  nodeID : Int16
  port : Int16
  strAddr : Blob
  deriving DecidableEq

namespace ForwarderAddrSession

def lt (a b : ForwarderAddrSession) : Prop :=
  if a.port = b.port then a.strAddr < b.strAddr else a.port < b.port

instance (a b : ForwarderAddrSession) : Decidable (a.lt b) := by
  unfold lt
  infer_instance

/-- Two elements of the set are the same if neither is before the other. -/
def same (a b : ForwarderAddrSession) : Prop := ¬a.lt b ∧ ¬b.lt a

instance (a b : ForwarderAddrSession) : Decidable (a.same b) := instDecidableAnd

def notAfter (a b : ForwarderAddrSession) : Prop := ¬b.lt a

instance (a b : ForwarderAddrSession) : Decidable (a.notAfter b) := instDecidableNot

def addr (a : ForwarderAddrSession) : MqForwarderAddr := ⟨a.port.toInt32, a.strAddr⟩

end ForwarderAddrSession

structure Scheduler where
  setForwarderAddr : List ForwarderAddrSession := []
  setMqClientHandlerID : List UInt32 := []
  clientID : UInt32 := 0

inductive SchedMsg where
  | regMqClientAddrRsp (rsp : RegMqClientAddrRsp)
  | addFowrarderAddrNotify (notify : AddFowrarderAddrNotify)
  deriving DecidableEq

inductive SchedOut where
  | sendHtsMsg (h : UInt32) (m : SchedMsg)
  | networkError (h : UInt32)
  deriving DecidableEq

inductive SchedEvent where
  | registMqForwarderServiceReq (req : RegistMqForwarderServiceReq) (nodeType nodeID : Int16)
  | regMqClientAddrReq (h : UInt32) (req : RegMqClientAddrReq)
  | networkError (h : UInt32)
  | disConnected (nodeType nodeID : Int16)

namespace Scheduler

/-- The counter after `AllocClientID`, which is the id. -/
def allocClientID (clientID : UInt32) : UInt32 := if clientID + 1 = 0 then clientID + 1 + 1 else clientID + 1

def onRegistMqForwarderServiceReq (req : RegistMqForwarderServiceReq) (nodeType nodeID : Int16) (s : Scheduler) :
    Scheduler × List SchedOut :=
  let forwarderAddr : ForwarderAddrSession := ⟨nodeType, nodeID, req.port, req.strAddr⟩
  if s.setForwarderAddr.any fun a => a.same forwarderAddr then (s, [])
  else
    ({ s with setForwarderAddr := s.setForwarderAddr.orderedInsert ForwarderAddrSession.notAfter forwarderAddr },
      s.setMqClientHandlerID.map fun h => .sendHtsMsg h (.addFowrarderAddrNotify ⟨forwarderAddr.addr⟩))

def onRegMqClientAddrReq (h : UInt32) (req : RegMqClientAddrReq) (s : Scheduler) : Scheduler × List SchedOut :=
  if h ∈ s.setMqClientHandlerID then (s, [])
  else
    let set := s.setMqClientHandlerID.orderedInsert (· ≤ ·) h
    let lst := s.setForwarderAddr.map ForwarderAddrSession.addr
    if req.clientID ≠ 0 then
      ({ s with setMqClientHandlerID := set }, [.sendHtsMsg h (.regMqClientAddrRsp ⟨req.clientID, lst⟩)])
    else
      let c := allocClientID s.clientID
      ({ s with setMqClientHandlerID := set, clientID := c }, [.sendHtsMsg h (.regMqClientAddrRsp ⟨c, lst⟩)])

def onNetworkError (h : UInt32) (s : Scheduler) : Scheduler × List SchedOut :=
  ({ s with setMqClientHandlerID := s.setMqClientHandlerID.erase h }, [.networkError h])

def onDisConnected (nodeType nodeID : Int16) (s : Scheduler) : Scheduler × List SchedOut :=
  ({ s with setForwarderAddr := s.setForwarderAddr.filter fun a => ¬(a.nodeType = nodeType ∧ a.nodeID = nodeID) }, [])

def step (s : Scheduler) : SchedEvent → Res (Scheduler × List SchedOut)
  | .registMqForwarderServiceReq req nodeType nodeID => .ok (s.onRegistMqForwarderServiceReq req nodeType nodeID)
  | .regMqClientAddrReq h req => .ok (s.onRegMqClientAddrReq h req)
  | .networkError h => .ok (s.onNetworkError h)
  | .disConnected nodeType nodeID => .ok (s.onDisConnected nodeType nodeID)

end Scheduler

theorem Scheduler.onRegMqClientAddrReq_new {s : Scheduler} {h : UInt32} (hh : h ∉ s.setMqClientHandlerID)
    (req : RegMqClientAddrReq) :
    (s.onRegMqClientAddrReq h req).1.setMqClientHandlerID = s.setMqClientHandlerID.orderedInsert (· ≤ ·) h ∧
      (s.onRegMqClientAddrReq h req).1.setForwarderAddr = s.setForwarderAddr ∧
      (s.onRegMqClientAddrReq h req).2 = [.sendHtsMsg h (.regMqClientAddrRsp
        ⟨if req.clientID ≠ 0 then req.clientID else allocClientID s.clientID,
          s.setForwarderAddr.map ForwarderAddrSession.addr⟩)] := by
  unfold onRegMqClientAddrReq
  rw [if_neg hh]
  by_cases hid : req.clientID ≠ 0
  · rw [if_pos hid, if_pos hid]
    exact ⟨rfl, rfl, rfl⟩
  · rw [if_neg hid, if_neg hid]
    exact ⟨rfl, rfl, rfl⟩

/-! ## What is sent to a client -/

def SchedOut.sentTo (c : UInt32) : SchedOut → Option SchedMsg
  | .sendHtsMsg h m => if h = c then some m else none
  | .networkError _ => none

theorem SchedOut.sentTo_self {c : UInt32} {m : SchedMsg} : (sendHtsMsg c m).sentTo c = some m :=
  if_pos rfl

theorem sent_all {c : UInt32} {m : SchedMsg} : ∀ {l : List UInt32}, l.Nodup →
    (l.map fun h => SchedOut.sendHtsMsg h m).filterMap (SchedOut.sentTo c) = if c ∈ l then [m] else []
  | [], _ => rfl
  | h :: l, hl => by
    obtain ⟨hh, hl⟩ := List.nodup_cons.mp hl
    have hrest := sent_all (c := c) (m := m) hl
    rw [List.map_cons]
    by_cases hc : h = c
    · subst hc
      rw [List.filterMap_cons_some SchedOut.sentTo_self, hrest, if_neg hh, if_pos List.mem_cons_self]
    · rw [List.filterMap_cons_none (by simp [SchedOut.sentTo, hc]), hrest]
      simp only [List.mem_cons, Ne.symm hc, false_or]

/-! ## The order of the addresses -/

theorem ForwarderAddrSession.same_iff {a b : ForwarderAddrSession} :
    a.same b ↔ a.port = b.port ∧ a.strAddr = b.strAddr := by
  unfold same lt
  constructor
  · intro ⟨hab, hba⟩
    by_cases hport : a.port = b.port
    · rw [if_pos hport] at hab
      rw [if_pos hport.symm] at hba
      exact ⟨hport, List.le_antisymm hba hab⟩
    · rw [if_neg hport] at hab
      rw [if_neg (Ne.symm hport)] at hba
      exact absurd (Int16.le_antisymm (Int16.not_lt.mp hba) (Int16.not_lt.mp hab)) hport
  · intro ⟨hport, haddr⟩
    rw [if_pos hport, if_pos hport.symm, haddr]
    exact ⟨List.lt_irrefl _, List.lt_irrefl _⟩

theorem ForwarderAddrSession.addr_inj {a b : ForwarderAddrSession} :
    a.addr = b.addr ↔ a.port = b.port ∧ a.strAddr = b.strAddr := by
  unfold addr
  constructor
  · intro h
    obtain ⟨hport, haddr⟩ := MqForwarderAddr.mk.inj h
    refine ⟨?_, haddr⟩
    rw [← Int16.toInt16_toInt32 a.port, hport, Int16.toInt16_toInt32]
  · intro ⟨hport, haddr⟩
    rw [hport, haddr]

end VProtocol.Mq
