import VProtocol.Lib.Run
import VProtocol.Mq.TypeArray

/-!
# The forwarder service

`CMqForwarderService` routes messages by client and by topic. Its sessions are in two maps,
by client id and by handle id; what these maps are is left open here, and the service is
written over their operations. Sessions and items live under addresses that are not used
again, a topic session in its map under its id; a handler is its handle id.
-/

namespace VProtocol.Mq

open Function (update)

structure HandlerSessionItem where
  clientID : UInt32
  topicSession : UInt32
  mcpHandler : UInt32
  deriving DecidableEq

structure TopicSession where
  handlerSessionArray : TypeArray := {}
  topicID : UInt32
  deriving DecidableEq

/-- `CHandlerSession`, which is also `CClientIDSession`. -/
structure HandlerSession where
  lstHandlerSessionItem : List Ptr
  mcpHandler : UInt32
  clientID : UInt32
  deriving DecidableEq

/-! ## The two maps of sessions -/

/-- The operations of `m_mapMqClientIDSession` and `m_mapHandlerSession`. They share their
elements, so both are one thing here; `free` is told when a session is deallocated. -/
structure IndexOps (κ : Type) where
  findClient : κ → UInt32 → Res (Option Ptr)
  insertClient : UInt32 → Ptr → κ → Res κ
  eraseClient : UInt32 → κ → Res κ
  findHandler : κ → UInt32 → Res (Option Ptr)
  insertHandler : UInt32 → Ptr → κ → Res κ
  eraseHandler : UInt32 → κ → Res κ
  free : Ptr → κ → κ
  clients : κ → Res (List Ptr)
  clear : κ

/-! ## States -/

/-- `connections` are the handlers of the base class: accepted, and neither lost nor disconnected. -/
structure Forwarder (κ : Type) where
  index : κ
  mapTopicSession : UInt32 → Option TopicSession := fun _ => none
  sessions : Ptr → Option HandlerSession := fun _ => none
  items : Ptr → Option HandlerSessionItem := fun _ => none
  itemIndex : Indices := fun _ => none
  next : Ptr := 0
  durindBroadcastMsg : Bool := false
  stackMcpHandler : List UInt32 := []
  connections : List UInt32 := []
  mqForwarderPort : Int32
  strMqForwarderAddr : Blob

inductive HtsMsg where
  | pubMqTopicMsg (m : PubMqTopicMsg)
  | pubMqAddrMsg (m : PubMqMsg)
  | delFowrarderAddrNotify (m : DelFowrarderAddrNotify)
  deriving DecidableEq

/-- `networkError` is the handler of the base class, which `OnNetworkError` ends with. -/
inductive FwdOut where
  | sendHtsMsg (h : UInt32) (m : HtsMsg)
  | disConnect (h : UInt32)
  | unRegistHandler (h : UInt32)
  | networkError (h : UInt32)
  deriving DecidableEq

/-- During a broadcast the sends to the handlers of `lost` report their loss before they
return; `nullTop` tells whether the top of an empty stack reads as null. -/
structure BroadcastEnv where
  lost : List UInt32
  nullTop : Bool

inductive FwdEvent where
  | connected (h : UInt32)
  | networkError (h : UInt32)
  | regMqTopicReq (h : UInt32) (req : RegMqTopicReq)
  | pubMqTopicMsg (h : UInt32) (msg : PubMqTopicMsg)
  | pubMqAddrMsg (h : UInt32) (msg : PubMqMsg)
  | pubMqBroadcastMsg (h : UInt32) (msg : PubMqMsg) (env : BroadcastEnv)

namespace Forwarder

section
variable {κ : Type}

/-! ## Items -/

/-- An item leaves the array of its topic, and the topic goes with its last item. -/
def releaseItem (p : Ptr) (s : Forwarder κ) : Res (Forwarder κ) :=
  match s.items p with
  | none => .error .dangling
  | some I =>
    match s.mapTopicSession I.topicSession with
    | none => .error .dangling
    | some T => do
      let r ← T.handlerSessionArray.delete p s.itemIndex
      .ok
        { s with
          mapTopicSession :=
            if r.1.isEmpty then update s.mapTopicSession T.topicID none
            else update s.mapTopicSession I.topicSession (some { T with handlerSessionArray := r.1 })
          itemIndex := r.2.1
          items := update s.items p none }

def releaseItems : List Ptr → Forwarder κ → Res (Forwarder κ)
  | [], s => .ok s
  | p :: l, s => do
    let s ← s.releaseItem p
    releaseItems l s

/-- One topic of a registration: the session at `p` gets a new item in the topic's array. -/
def addItem (h c : UInt32) (p : Ptr) (t : UInt32) (s : Forwarder κ) : Forwarder κ :=
  let T := (s.mapTopicSession t).getD { topicID := t }
  let r := T.handlerSessionArray.insert s.next (update s.itemIndex s.next none)
  { s with
    mapTopicSession := update s.mapTopicSession t (some { T with handlerSessionArray := r.1 })
    items := update s.items s.next (some ⟨c, t, h⟩)
    itemIndex := r.2
    next := s.next + 1
    sessions := update s.sessions p ((s.sessions p).map fun S =>
      { S with lstHandlerSessionItem := S.lstHandlerSessionItem ++ [s.next] }) }

def addItems (h c : UInt32) (p : Ptr) : List UInt32 → Forwarder κ → Forwarder κ
  | [], s => s
  | t :: l, s => addItems h c p l (s.addItem h c p t)

variable (ops : IndexOps κ)

/-! ## Losses -/

/-- What is known of a lost handler is taken out. The session is freed before its entry by
handle id is erased. -/
def dropHandler (h : UInt32) (s : Forwarder κ) : Res (Forwarder κ) := do
  let found ← ops.findHandler s.index h
  match found with
  | none => .ok s
  | some p =>
    match s.sessions p with
    | none => .error .dangling
    | some S => do
      let index ← ops.eraseClient S.clientID s.index
      let s ← releaseItems S.lstHandlerSessionItem { s with index := index }
      let index ← ops.eraseHandler h (ops.free p s.index)
      .ok { s with index := index, sessions := update s.sessions p none }

def onNetworkError (h : UInt32) (s : Forwarder κ) : Res (Forwarder κ × List FwdOut) :=
  if s.durindBroadcastMsg then .ok ({ s with stackMcpHandler := h :: s.stackMcpHandler }, [.unRegistHandler h])
  else do
    let s ← s.dropHandler ops h
    .ok ({ s with connections := s.connections.erase h }, [.networkError h])

/-! ## Registrations -/

/-- An earlier registration of the client is thrown out, and its connection closed. An
`OnNetworkError` for that connection finds nothing any more. -/
def throwOut (c : UInt32) (s : Forwarder κ) : Res (Forwarder κ × List FwdOut) := do
  let found ← ops.findClient s.index c
  match found with
  | none => .ok (s, [])
  | some p =>
    match s.sessions p with
    | none => .error .dangling
    | some S => do
      let s ← releaseItems S.lstHandlerSessionItem s
      let index ← ops.eraseHandler S.mcpHandler s.index
      let index ← ops.eraseClient c index
      .ok
        ({ s with
            index := ops.free p index
            sessions := update s.sessions p none
            connections := s.connections.erase S.mcpHandler },
          [.disConnect S.mcpHandler])

/-- The new session, in both maps and without items. -/
def openSession (h c : UInt32) (s : Forwarder κ) : Res (Forwarder κ) := do
  let index ← ops.insertClient c s.next s.index
  let index ← ops.insertHandler h s.next index
  .ok { s with index := index, sessions := update s.sessions s.next (some ⟨[], h, c⟩), next := s.next + 1 }

def onRegMqTopicReq (h : UInt32) (req : RegMqTopicReq) (s : Forwarder κ) : Res (Forwarder κ × List FwdOut) := do
  let r ← s.throwOut ops req.clientID
  let s ← r.1.openSession ops h req.clientID
  .ok (s.addItems h req.clientID r.1.next req.lstTopicID, r.2)

/-! ## Messages -/

def onPubMqTopicMsg (msg : PubMqTopicMsg) (s : Forwarder κ) : Res (Forwarder κ × List FwdOut) :=
  match s.mapTopicSession msg.topicID with
  | none => .ok (s, [])
  | some T =>
    let r := T.handlerSessionArray.get
    let s := { s with mapTopicSession := update s.mapTopicSession msg.topicID (some { T with handlerSessionArray := r.1 }) }
    match r.2 with
    | none => .ok (s, [])
    | some p =>
      match s.items p with
      | none => .error .dangling
      | some I => .ok (s, [.sendHtsMsg I.mcpHandler (.pubMqTopicMsg msg)])

def onPubMqAddrMsg (msg : PubMqMsg) (s : Forwarder κ) : Res (Forwarder κ × List FwdOut) := do
  let found ← ops.findClient s.index msg.clientID
  match found with
  | none => .ok (s, [])
  | some p =>
    match s.sessions p with
    | none => .error .dangling
    | some S => .ok (s, [.sendHtsMsg S.mcpHandler (.pubMqAddrMsg msg)])

/-! ## Broadcasts -/

/-- The handlers of the items from the one at `p` on, as `Begin` and `Next` give them. -/
def traverse (s : Forwarder κ) (a : TypeArray) : Nat → Option Ptr → Res (List UInt32)
  | _, none => .ok []
  | 0, some _ => .error .endless
  | n + 1, some p =>
    match s.items p with
    | none => .error .dangling
    | some I => do
      let l ← traverse s a n (a.next p s.itemIndex)
      .ok (I.mcpHandler :: l)

/-- The handlers that a broadcast on a topic is sent to, in the order of the sends. -/
def receivers (s : Forwarder κ) (t : UInt32) : Res (List UInt32) :=
  match s.mapTopicSession t with
  | none => .ok []
  | some T => s.traverse T.handlerSessionArray T.handlerSessionArray.size T.handlerSessionArray.begin

/-- One send of the loop, which may report the loss of its handler. -/
def sendBroadcast (msg : PubMqMsg) (env : BroadcastEnv) (h : UInt32) : List FwdOut :=
  .sendHtsMsg h (.pubMqTopicMsg ⟨msg.topicID, msg.msgBlob⟩) :: if h ∈ env.lost then [.unRegistHandler h] else []

/-- The loop over the array: the handlers that it finds lost, and what it sends. -/
def broadcast (msg : PubMqMsg) (env : BroadcastEnv) (s : Forwarder κ) : Res (List UInt32 × List FwdOut) := do
  let hs ← s.receivers msg.topicID
  .ok (hs.filter (· ∈ env.lost), hs.flatMap (sendBroadcast msg env))

def top (nullTop : Bool) (s : Forwarder κ) : Res (Option UInt32) :=
  match s.stackMcpHandler with
  | h :: _ => .ok (some h)
  | [] => if nullTop then .ok none else .error .emptyStack

/-- The loop over the stack: the next handler is read before the one that was handled is popped. -/
def handleLost (nullTop : Bool) : Nat → Option UInt32 → Forwarder κ → Res (Forwarder κ × List FwdOut)
  | _, none, s => .ok (s, [])
  | 0, some _, _ => .error .endless
  | n + 1, some h, s => do
    let r ← s.onNetworkError ops h
    let p ← r.1.top nullTop
    match r.1.stackMcpHandler with
    | [] => .error .emptyStack
    | _ :: l => do
      let r' ← handleLost nullTop n p { r.1 with stackMcpHandler := l }
      .ok (r'.1, r.2 ++ r'.2)

def onPubMqBroadcastMsg (msg : PubMqMsg) (env : BroadcastEnv) (s : Forwarder κ) : Res (Forwarder κ × List FwdOut) :=
  match s.mapTopicSession msg.topicID with
  | none => .ok (s, [])
  | some _ => do
    let sent ← s.broadcast msg env
    let s := { s with stackMcpHandler := sent.1.reverse ++ s.stackMcpHandler }
    let p ← s.top env.nullTop
    let r ← s.handleLost ops env.nullTop (s.stackMcpHandler.length + 1) p
    .ok (r.1, sent.2 ++ r.2)

/-! ## Runs -/

def ifConnected (h : UInt32) (s : Forwarder κ) (r : Res (Forwarder κ × List FwdOut)) : Res (Forwarder κ × List FwdOut) :=
  if h ∈ s.connections then r else .error .notConnected

def step (s : Forwarder κ) : FwdEvent → Res (Forwarder κ × List FwdOut)
  | .connected h =>
    if h ∈ s.connections then .error .notConnected else .ok ({ s with connections := h :: s.connections }, [])
  | .networkError h => s.onNetworkError ops h
  | .regMqTopicReq h req => s.ifConnected h (s.onRegMqTopicReq ops h req)
  | .pubMqTopicMsg h msg => s.ifConnected h (s.onPubMqTopicMsg msg)
  | .pubMqAddrMsg h msg => s.ifConnected h (s.onPubMqAddrMsg ops msg)
  | .pubMqBroadcastMsg h msg env => s.ifConnected h (s.onPubMqBroadcastMsg ops msg env)

/-- The clients that are registered are told, in the order of their map. -/
def notifyExit (notify : DelFowrarderAddrNotify) (s : Forwarder κ) : List Ptr → Res (List FwdOut)
  | [] => .ok []
  | p :: l =>
    match s.sessions p with
    | none => .error .dangling
    | some S => do
      let outs ← notifyExit notify s l
      .ok (.sendHtsMsg S.mcpHandler (.delFowrarderAddrNotify notify) :: outs)

def onExit (s : Forwarder κ) : Res (Forwarder κ × List FwdOut) := do
  let l ← ops.clients s.index
  let outs ← s.notifyExit ⟨⟨s.mqForwarderPort, s.strMqForwarderAddr⟩⟩ l
  .ok
    ({ s with
        index := ops.clear, mapTopicSession := fun _ => none, sessions := fun _ => none, items := fun _ => none },
      outs)

end

end Forwarder

end VProtocol.Mq
