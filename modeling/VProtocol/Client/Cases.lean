import VProtocol.Client.Service

/-!
# What a step can do

`step_move`: every step of the service is one of the moves below, with the next
state and the messages given in full. The invariants are proved by cases on the
move; nothing after this module unfolds a handler.
-/

namespace VProtocol.Client

open Function (update)

/-! ## What an event asks or answers -/

def Event.asks : Event → Option (Kind × MsgAddr × UInt32)
  | .registUserReq req src _ => some (.regist, src, req.srcSessionID)
  | .proposeReq req src _ => some (.propose, src, req.srcSessionID)
  | _ => none

def Event.isRequest : Event → Bool
  | .registUserReq .. => true
  | .proposeReq .. => true
  | .queryUserReq .. => true
  | .queryTransReq .. => true
  | _ => false

def Event.sendErr : Event → Nat → Bool
  | .registUserReq _ _ env => env.sendErr
  | .proposeReq _ _ env => env.sendErr
  | _ => fun _ => false

def Event.decodes (cfg : Config) : Event → Bool
  | .proposeReq req _ _ => (cfg.codec.decodeChannel req.cryptUserKey).isSome
  | _ => true

/-- An endorser's answer to a request, of either kind; a refusal is an error code. -/
structure Answer where
  kind : Kind
  cltSessionID : UInt32
  handler : McpHandler
  code : Int
  content : Blob
  esSessionID : UInt32
  env : AnswerEnv

def Event.answer : Event → Option Answer
  | .registUserRsp rsp h env =>
    some ⟨.regist, rsp.cltSessionID, h,
      if rsp.returnCode = okType then (if rsp.allowRegist then okType else registUserIsRefused) else rsp.returnCode,
      rsp.userInitInfo, rsp.esSessionID, env⟩
  | .submitProposalRsp rsp h env =>
    some ⟨.propose, rsp.cltSessionID, h, rsp.returnCode, rsp.transContent, rsp.esSessionID, env⟩
  | _ => none

def Event.submitRsp : Event → Option (Kind × UInt32 × McpHandler × Int)
  | .submitRegistRsp rsp h => some (.regist, rsp.cltSessionID, h, rsp.returnCode)
  | .submitProposalTransRsp rsp h => some (.propose, rsp.cltSessionID, h, rsp.returnCode)
  | _ => none

def Out.reply : Out → Option (Kind × MsgAddr × UInt32)
  | .upper addr (.registUserRsp _ _ src _ _) => some (.regist, addr, src)
  | .upper addr (.proposeRsp _ src _) => some (.propose, addr, src)
  | _ => none

/-- An endorsement request: the handler and the session it is sent for, its kind and its session id. -/
def Out.request : Out → Option (McpHandler × Ptr × Kind × UInt32)
  | .es h p m => m.request.map fun r => (h, p, r)
  | .upper _ _ => none

def Out.isUpper : Out → Bool
  | .upper _ _ => true
  | .es _ _ _ => false

def EndorseSession.tag (S : EndorseSession) : Kind × MsgAddr × UInt32 := (S.kind, S.srcMsgAddr, S.srcSessionID)

theorem onResponseRegist_reply {S : EndorseSession} (hk : S.kind = .regist) (code : Int) (b : Bool) (x y : Blob) :
    (onResponseRegist S code b x y).reply = some S.tag := by
  simp [onResponseRegist, Out.reply, EndorseSession.tag, hk]

theorem onResponsePropose_reply {S : EndorseSession} (hk : S.kind = .propose) (code : Int) (x : Blob) :
    (onResponsePropose S code x).reply = some S.tag := by
  simp [onResponsePropose, Out.reply, EndorseSession.tag, hk]

@[simp] theorem onResponse_reply (S : EndorseSession) (code : Int) : (onResponse S code).reply = some S.tag := by
  unfold onResponse
  cases hk : S.kind with
  | regist => exact onResponseRegist_reply hk _ _ _ _
  | propose => exact onResponsePropose_reply hk _ _

@[simp] theorem onResponse_isUpper (S : EndorseSession) (code : Int) : (onResponse S code).isUpper = true := by
  unfold onResponse; cases S.kind <;> rfl

@[simp] theorem onResponseSingle_reply (S : SingleSession) (code : Int) (b : Bool) (x : Blob) :
    (onResponseSingle S code b x).reply = none := by
  unfold onResponseSingle; cases S.kind <;> rfl

/-! ## The decision on an answer -/

inductive Choice where
  | submit
  | cancel
  deriving DecidableEq

def Choice.msg : Choice → Kind → UInt32 → EsMsg
  | .submit, k, es => .submitReq k es
  | .cancel, k, es => .cancelReq k es

/-- What a session sees of an answer: its code, whether its content agrees with what
the session holds, and which sends fail. -/
structure Seen where
  code : Int
  same : Bool
  env : AnswerEnv

def cancelled (code : Int) (env : AnswerEnv) : List Choice :=
  if code = networkErrorType ∨ env.cancelErr then [] else [.cancel]

/-- The decision both handlers take: what is sent to the selected endorser, and the
code the session ends with, if it ends. -/
def judge (endorsePeerCount : Nat) (k : Kind) (succeedRspNum : UInt32) (o : Seen) : List Choice × Option Int :=
  if o.code = okType then
    if o.same then
      if endorsePeerCount ≤ (succeedRspNum + 1).toNat then
        if o.env.submitErr then ([], some networkErrorType) else ([.submit], none)
      else ([], none)
    else
      -- the propose path tests the counter only
      if k = .propose ∧ endorsePeerCount ≤ succeedRspNum.toNat then
        if o.env.submitErr then ([], some networkErrorType)
        else (.submit :: cancelled systemErrorType o.env, some systemErrorType)
      else (cancelled systemErrorType o.env, some systemErrorType)
  else (cancelled o.code o.env, some o.code)

section
variable {N : Nat} {k : Kind} {n : UInt32} {o : Seen}

theorem judge_error (hc : o.code ≠ okType) : judge N k n o = (cancelled o.code o.env, some o.code) := by
  rw [judge, if_neg hc]

theorem judge_counted (hc : o.code = okType) (hs : o.same = true) : judge N k n o =
    if N ≤ (n + 1).toNat then if o.env.submitErr then ([], some networkErrorType) else ([.submit], none)
    else ([], none) := by
  rw [judge, if_pos hc, if_pos hs]

theorem judge_mismatch (hc : o.code = okType) (hs : o.same = false) : judge N k n o =
    if k = .propose ∧ N ≤ n.toNat then
      if o.env.submitErr then ([], some networkErrorType)
      else (.submit :: cancelled systemErrorType o.env, some systemErrorType)
    else (cancelled systemErrorType o.env, some systemErrorType) := by
  rw [judge, if_pos hc, if_neg (by simp [hs])]

end

namespace EndorseSession
variable (S : EndorseSession) (a : Answer)

def sees : Seen := ⟨a.code, S.content = [] ∨ S.content = a.content, a.env⟩

def counted (hsub : McpHandler) : EndorseSession :=
  { S with
    content := a.content
    succeedRspNum := S.succeedRspNum + 1
    esSessionID := if a.handler = hsub then a.esSessionID else S.esSessionID }

end EndorseSession

def verdicts (h : McpHandler) (p : Ptr) (k : Kind) (es : UInt32) (cs : List Choice) : List Out :=
  cs.map fun c => .es h p (c.msg k es)

/-! ## Opening and ending sessions -/

namespace Core
variable (c : Core)

def finish (p : Ptr) : Core := ((c.cancelDscTimer p).eraseEndorse p).free p

def finishSingle (p : Ptr) : Core := ((c.cancelDscTimer p).eraseSingle p).free p

def openEndorse (S : EndorseSession) : Core :=
  { ((c.alloc (.endorse S)).setDscTimer c.next).insertEndorse S.kind S.cltSessionID c.next with
    sessionID := c.sessionID + 1 }

def openSingle (S : SingleSession) : Core :=
  ((c.alloc (.single S)).setDscTimer c.next).insertSingle S.kind S.cltSessionID c.next

end Core

/-- Session `p` ends: it leaves its map and its arrays, its timer is cancelled and it is freed. -/
inductive Ended (s : State) (p : Ptr) (S : EndorseSession) : State → Prop
  | mk {links} : s.core.heap p = some (.endorse S) →
      s.links.unlink s.core.live p S.arrHandleSession = .ok links →
      Ended s p S { s with core := s.core.finish p, links }

inductive SingleEnded (s : State) (p : Ptr) (S : SingleSession) : State → Prop
  | mk {links} : s.core.heap p = some (.single S) → s.links.erase s.core.live S.handleSession p = .ok links →
      SingleEnded s p S { s with core := s.core.finishSingle p, links }

def picks : Nat → PeerConnSummary → Option (List McpHandler × PeerConnSummary)
  | 0, c => some ([], c)
  | n + 1, c =>
    match getMcpHandler c with
    | (none, _) => none
    | (some h, c) =>
      match picks n c with
      | none => none
      | some (hs, c) => some (h :: hs, c)

def Links.link (p : Ptr) : List McpHandler → Links → Res (Links × List HPtr)
  | [], l => .ok (l, [])
  | h :: hs, l => do
    let l' ← (l.handleSession h).1.insert (l.handleSession h).2 p
    let r ← link p hs l'
    .ok (r.1, (l.handleSession h).2 :: r.2)

/-- The request messages of a broadcast; the one at `rand` is marked for the submit. -/
def requests (p : Ptr) (rand : Nat) (msg : Bool → EsMsg) : Nat → List McpHandler → List Out
  | _, [] => []
  | idx, h :: hs => .es h p (msg (rand = idx)) :: requests p rand msg (idx + 1) hs

/-! ## The moves -/

inductive Table (cfg : Config) (s : State) (e : Event) : PeerConnSummary → Prop
  | same : Table cfg s e s.conn
  | picked {h conn} : getMcpHandler s.conn = (h, conn) → Table cfg s e conn
  | connected {h peerRand handleRand rawIndex} : e = .connected h peerRand handleRand rawIndex →
      Table cfg s e (connect s.conn (getPeerID cfg.peers h.handleID) h peerRand handleRand rawIndex)
  | disconnected {h} : e = .networkError h → Table cfg s e (disconnect s.conn (getPeerID cfg.peers h.handleID) h)

inductive Aside (cfg : Config) (s : State) (e : Event) : State → List Out → Prop
  | quiet {conn} : Table cfg s e conn → Aside cfg s e { s with conn } []
  | refused {conn o} : Table cfg s e conn → o.isUpper → o.reply = none → Aside cfg s e { s with conn } [o]
  | queried {S h conn links m} : e.isRequest = true → getMcpHandler s.conn = (some h, conn) →
      s.links.link s.core.next [h] = .ok (links, [S.handleSession]) →
      S.cltSessionID = s.core.sessionID → m.request = none → m.verdict = none →
      Aside cfg s e { core := { s.core.openSingle S with sessionID := s.core.sessionID + 1 }, links, conn }
        [.es h s.core.next m]
  | fired {p S k} : s.core.heap p = some (.single S) → S.kind = .waitNotify k →
      Aside cfg s e { s with core := s.core.cancelDscTimer p } []
  | ended {p S s' o} : SingleEnded s p S s' → o.isUpper → o.reply = none → Aside cfg s e s' [o]

inductive Losses : State → List Out → State → Prop
  | nil {s} : Losses s [] s
  | endorse {s p S s' outs s''} : Ended s p S s' → Losses s' outs s'' →
      Losses s (onResponse S networkErrorType :: outs) s''
  | single {s p S s' outs s''} : SingleEnded s p S s' → Losses s' outs s'' →
      Losses s (onResponseSingle S networkErrorType false [] :: outs) s''

/-- The state in which the wait-notify session of `S` exists, if `S` asked for one. -/
inductive Noted (s : State) (S : EndorseSession) : State → Prop
  | none : S.waitNotify = false → Noted s S s
  | some {hp links} : S.waitNotify = true → S.submitEs = some hp → s.links.insert hp s.core.next = .ok links →
      Noted s S { s with
        core := s.core.openSingle ⟨.waitNotify S.kind, S.srcMsgAddr, S.srcSessionID, S.cltSessionID, hp⟩
        links }

inductive Move (cfg : Config) (s : State) (e : Event) : State → List Out → Prop
  | aside {s' outs} (he : e.asks = none)
      (ha : ∀ a, e.answer = some a → s.core.mapEndorse a.kind a.cltSessionID = none)
      (hr : ∀ k id h code, e.submitRsp = some (k, id, h, code) → s.core.mapEndorse k id = none)
      (h : Aside cfg s e s' outs) : Move cfg s e s' outs
  | refused {r o} (he : e.asks = some r) (hno : ¬(cfg.endorsePeerCount ≤ s.conn.peers.length ∧ e.decodes cfg = true))
      (ho : o.isUpper) (hr : o.reply = some r) : Move cfg s e s [o]
  /-- A send fails: the session is ended at once and the requester is answered twice. -/
  | aborted {r S hs h conn links s' msg rand o} (he : e.asks = some r) (hk : S.kind = r.1)
      (hn : cfg.endorsePeerCount ≤ s.conn.peers.length) (hd : e.decodes cfg = true)
      (hlen : hs.length < cfg.endorsePeerCount)
      (hf : e.sendErr hs.length = true ∧ ∀ i < hs.length, e.sendErr i = false)
      (hm : ∀ b, (msg b).request = some (r.1, s.core.sessionID))
      (hp : picks (hs.length + 1) s.conn = some (hs ++ [h], conn))
      (hl : s.links.link s.core.next (hs ++ [h]) = .ok (links, S.arrHandleSession))
      (hend : Ended { core := s.core.alloc (.endorse S), links, conn } s.core.next S s')
      (ho : o.isUpper) (hr : o.reply = some r) :
      Move cfg s e s' (requests s.core.next rand msg 0 hs ++ [onResponse S networkErrorType, o])
  | opened {r S hs conn links msg rand} (he : e.asks = some r) (ht : S.tag = r)
      (hid : S.cltSessionID = s.core.sessionID) (h0 : S.succeedRspNum = 0) (hc : S.content = [])
      (hn : cfg.endorsePeerCount ≤ s.conn.peers.length) (hd : e.decodes cfg = true)
      (hf : ∀ i < cfg.endorsePeerCount, e.sendErr i = false)
      (hm : ∀ b, (msg b).request = some (r.1, s.core.sessionID))
      (hp : picks cfg.endorsePeerCount s.conn = some (hs, conn))
      (hl : s.links.link s.core.next hs = .ok (links, S.arrHandleSession))
      (hrand : rand < cfg.endorsePeerCount) (hsub : S.submitEs = S.arrHandleSession[rand]?) :
      Move cfg s e { core := s.core.openEndorse S, links, conn } (requests s.core.next rand msg 0 hs)
  | kept {a p S hsub cs} (ha : e.answer = some a) (hm : s.core.mapEndorse a.kind a.cltSessionID = some p)
      (hS : s.core.heap p = some (.endorse S)) (hh : s.submitHandler S = .ok hsub)
      (hj : judge cfg.endorsePeerCount a.kind S.succeedRspNum (S.sees a) = (cs, none)) :
      Move cfg s e { s with core := s.core.put p (.endorse (S.counted a hsub)) }
        (verdicts hsub p a.kind (S.counted a hsub).esSessionID cs)
  | failed {a p S hsub cs code s'} (ha : e.answer = some a) (hm : s.core.mapEndorse a.kind a.cltSessionID = some p)
      (hS : s.core.heap p = some (.endorse S)) (hh : cs ≠ [] → s.submitHandler S = .ok hsub)
      (hj : judge cfg.endorsePeerCount a.kind S.succeedRspNum (S.sees a) = (cs, some code))
      (hend : Ended s p S s') :
      Move cfg s e s' (verdicts hsub p a.kind S.esSessionID cs ++ [onResponse S code])
  /-- A submit answer that is not OK only takes the session out of its map. -/
  | orphaned {k id h code p} (he : e.submitRsp = some (k, id, h, code)) (hm : s.core.mapEndorse k id = some p)
      (hc : code ≠ okType) : Move cfg s e { s with core := s.core.eraseEndorse p } []
  | submitted {k id h p S s₁ s' o} (he : e.submitRsp = some (k, id, h, okType)) (hm : s.core.mapEndorse k id = some p)
      (hS : s.core.heap p = some (.endorse S)) (hw : Noted s S s₁) (hend : Ended s₁ p S s')
      (ho : o.isUpper) (hr : o.reply = some S.tag) : Move cfg s e s' [o]
  | timedOut {p S s'} (he : e = .timer p) (ha : s.core.armed p = true) (hend : Ended s p S s') :
      Move cfg s e s' [onResponse S timeoutErrorType]
  | lost {h hp H outs s'} (he : e = .networkError h) (hm : s.links.mapHandle h.handleID = some hp)
      (hh : s.links.handles hp = some H)
      (hl : Losses { s with
          links := { s.links with mapHandle := update s.links.mapHandle h.handleID none }
          conn := disconnect s.conn (getPeerID cfg.peers h.handleID) h } outs s') :
      Move cfg s e { s' with links := { s'.links with handles := update s'.links.handles hp none } } outs

end VProtocol.Client
