import VProtocol.Lib.Run
import VProtocol.Client.State

/-!
# The client service

`CVbhClientService` as a step function: one event at a time, from the state and
the event to the next state and the messages sent, in the order of the source.
-/

namespace VProtocol.Client

open Function (update)

/-- The encoders and decoders the service calls (`VBH::DecodeClientCryptKey` and the
others of `crypt_key_codec`, `DSC::Decode` and `DSC::Encode`); nothing below depends
on what they compute. -/
structure Codec where
  decodeChannel : Blob → Option UInt32
  decodeChannelKey : Blob → Option (UInt32 × OrderGenerateKey)
  decodeTransKey : Blob → Option OrderGenerateTransactionKey
  encodeGenerateUserKey : UInt32 → OrderGenerateKey → Blob
  encodeClientCryptKey : UInt32 → OrderGenerateKey → Blob → Blob → Blob → Option Blob
  encodeTransKey : OrderGenerateTransactionKey → Blob

/-- The configuration; `OnInit` refuses an endorse peer count that is not positive. -/
structure Config where
  endorsePeerCount : Nat
  pos : 0 < endorsePeerCount
  lt : endorsePeerCount < 2 ^ 31
  peers : PeerList
  codec : Codec

/-! ## Reading through pointers -/

namespace State
variable (s : State)

def endorse (p : Ptr) : Res EndorseSession :=
  match s.core.heap p with
  | some (.endorse S) => .ok S
  | _ => .error .dangling

def single (p : Ptr) : Res SingleSession :=
  match s.core.heap p with
  | some (.single S) => .ok S
  | _ => .error .dangling

def submitHandler (S : EndorseSession) : Res McpHandler :=
  match S.submitEs with
  | none => .error .nullPtr
  | some hp =>
    match s.links.handles hp with
    | none => .error .dangling
    | some H => .ok H.mcpHandler

end State

/-! ## Answers to the upper layer -/

def onResponseRegist (S : EndorseSession) (code : Int) (allowRegist : Bool) (cryptUserKey genUserKey : Blob) : Out :=
  .upper S.srcMsgAddr (.registUserRsp allowRegist code S.srcSessionID
    (if code = okType then genUserKey else []) (if code = okType then cryptUserKey else []))

def onResponsePropose (S : EndorseSession) (code : Int) (transKey : Blob) : Out :=
  .upper S.srcMsgAddr (.proposeRsp code S.srcSessionID (if code = okType then transKey else []))

def onResponse (S : EndorseSession) (code : Int) : Out :=
  match S.kind with
  | .regist => onResponseRegist S code false [] []
  | .propose => onResponsePropose S code []

def onResponseSingle (S : SingleSession) (code : Int) (success : Bool) (payload : Blob) : Out :=
  .upper S.srcMsgAddr
    (match S.kind with
    | .waitNotify k => .notify k success code S.srcSessionID
    | .queryUser => .queryUserRsp code S.srcSessionID (if code = okType then payload else [])
    | .queryTrans => .queryTransRsp code S.srcSessionID (if code = okType then payload else []))

/-! ## The end of a session -/

def onReleaseMultiHandleSession (s : State) (p : Ptr) : Res State := do
  let S ← s.endorse p
  let links ← s.links.unlink s.core.live p S.arrHandleSession
  .ok { s with core := s.core.free p, links }

def onReleaseSingleHanleSession (s : State) (p : Ptr) : Res State := do
  let S ← s.single p
  let links ← s.links.erase s.core.live S.handleSession p
  .ok { s with core := s.core.free p, links }

def onTimeOutEndorse (s : State) (p : Ptr) : Res (State × List Out) := do
  let S ← s.endorse p
  let s ← onReleaseMultiHandleSession { s with core := s.core.eraseEndorse p } p
  .ok (s, [onResponse S timeoutErrorType])

def onNetErrorEndorse (s : State) (p : Ptr) : Res (State × List Out) := do
  let S ← s.endorse p
  let s ← onReleaseMultiHandleSession { s with core := (s.core.cancelDscTimer p).eraseEndorse p } p
  .ok (s, [onResponse S networkErrorType])

def onTimeOutSingle (s : State) (p : Ptr) : Res (State × List Out) := do
  let S ← s.single p
  let s ← onReleaseSingleHanleSession { s with core := (s.core.cancelDscTimer p).eraseSingle p } p
  .ok (s, [onResponseSingle S timeoutErrorType false []])

def onNetErrorSingle (s : State) (p : Ptr) : Res (State × List Out) := do
  let S ← s.single p
  let s ← onReleaseSingleHanleSession { s with core := (s.core.cancelDscTimer p).eraseSingle p } p
  .ok (s, [onResponseSingle S networkErrorType false []])

/-- The virtual `OnTimer` of a session; those of the wait-notify sessions are empty. -/
def onTimer (s : State) (p : Ptr) : Res (State × List Out) :=
  match s.core.heap p with
  | none => .error .dangling
  | some (.endorse _) => onTimeOutEndorse s p
  | some (.single S) =>
    match S.kind with
    | .waitNotify _ => .ok (s, [])
    | _ => onTimeOutSingle s p

def onNetError (s : State) (p : Ptr) : Res (State × List Out) :=
  match s.core.heap p with
  | none => .error .dangling
  | some (.endorse _) => onNetErrorEndorse s p
  | some (.single S) =>
    match S.kind with
    | .waitNotify _ => .ok (s, [])
    | _ => onNetErrorSingle s p

/-! ## Requests of the upper layer -/

/-- The loop over the endorsers of a request: `n` picks are left, `idx` are done. -/
def broadcast (p : Ptr) (rand : Nat) (sendErr : Nat → Bool) (msg : Bool → EsMsg) :
    Nat → Nat → State → Res (State × List Out × Int)
  | 0, _, s => .ok (s, [], okType)
  | n + 1, idx, s =>
    match getMcpHandler s.conn with
    | (none, _) => .error .nullPtr
    | (some h, conn) => do
      let (links, hp) := s.links.handleSession h
      let S ← s.endorse p
      let links ← links.insert hp p
      let S := { S with
        arrHandleSession := S.arrHandleSession ++ [hp]
        submitEs := if rand = idx then some hp else S.submitEs }
      let s : State := { core := s.core.put p (.endorse S), links, conn }
      if sendErr idx then
        let (s, outs) ← onNetErrorEndorse s p
        .ok (s, outs, networkErrorType)
      else
        let (s, outs, code) ← broadcast p rand sendErr msg n (idx + 1) s
        .ok (s, .es h p (msg (rand = idx)) :: outs, code)

/-- What follows the loop when every send succeeded; `fill` are the members the
source fills in here. -/
def registerSession (s : State) (p : Ptr) (fill : EndorseSession → EndorseSession) : Res State := do
  let S ← s.endorse p
  let id := s.core.sessionID
  let S := fill { S with cltSessionID := id }
  let core := ((s.core.put p (.endorse S)).setDscTimer p).insertEndorse S.kind id p
  .ok { s with core := { core with sessionID := id + 1 } }

def newEndorseSession (k : Kind) (raw : RawMemory) : EndorseSession where
  kind := k
  srcMsgAddr := raw.srcMsgAddr
  srcSessionID := raw.srcSessionID
  cltSessionID := raw.cltSessionID
  waitNotify := raw.waitNotify
  channelID := raw.channelID
  succeedRspNum := 0
  submitEs := none
  esSessionID := raw.esSessionID
  content := []
  arrHandleSession := []

def onDscMsgRegistUserCltCltReq (cfg : Config) (s : State) (req : RegistUserCltCltReq) (src : MsgAddr)
    (env : RequestEnv) : Res (State × List Out) :=
  let failed code : Out := .upper src (.registUserRsp env.raw.allowRegist code req.srcSessionID [] [])
  if s.conn.peers.length < cfg.endorsePeerCount then .ok (s, [failed networkErrorType])
  else do
    let p := s.core.next
    -- filled in before the loop
    let S := { newEndorseSession .regist env.raw with
      srcMsgAddr := src
      srcSessionID := req.srcSessionID
      channelID := req.channelID
      waitNotify := req.waitNotify }
    let msg submitNode := EsMsg.registUserReq
      { waitNotify := req.waitNotify
        submitNode
        ccID := req.ccID
        cltSessionID := s.core.sessionID
        channelID := req.channelID
        userKey := req.userKey
        userInfo := req.userInfo }
    let (s, outs, code) ← broadcast p (env.rand % cfg.endorsePeerCount) env.sendErr msg cfg.endorsePeerCount 0
      { s with core := s.core.alloc (.endorse S) }
    if code = okType then
      let s ← registerSession s p id
      .ok (s, outs)
    else .ok (s, outs ++ [failed code])

def onDscMsgProposeCltCltReq (cfg : Config) (s : State) (req : ProposeCltCltReq) (src : MsgAddr)
    (env : RequestEnv) : Res (State × List Out) :=
  let failed code : Out := .upper src (.proposeRsp code req.srcSessionID [])
  if s.conn.peers.length < cfg.endorsePeerCount then .ok (s, [failed networkErrorType])
  else
    match cfg.codec.decodeChannel req.cryptUserKey with
    | none => .ok (s, [failed decryptErrorType])
    | some channelID => do
      let p := s.core.next
      let msg submitNode := EsMsg.submitProposalReq
        { waitNotify := req.waitNotify
          submitNode
          ccID := req.ccID
          channelID
          cltSessionID := s.core.sessionID
          action := req.actionID
          proposal := req.proposal }
      let (s, outs, code) ← broadcast p (env.rand % cfg.endorsePeerCount) env.sendErr msg cfg.endorsePeerCount 0
        { s with core := s.core.alloc (.endorse (newEndorseSession .propose env.raw)) }
      if code = okType then
        -- filled in after the loop
        let s ← registerSession s p fun S => { S with srcMsgAddr := src, srcSessionID := req.srcSessionID }
        .ok (s, outs)
      else .ok (s, outs ++ [failed code])

def sendQuery (s : State) (k : SingleKind) (src : MsgAddr) (srcSessionID : UInt32) (sendErr : Bool)
    (msg : UInt32 → EsMsg) (failed : Int → Out) : Res (State × List Out) :=
  match getMcpHandler s.conn with
  | (h, conn) =>
    if sendErr then .ok ({ s with conn }, [failed networkErrorType])
    else
      match h with
      | none => .error .nullPtr
      | some h => do
        let (links, hp) := s.links.handleSession h
        let p := s.core.next
        let id := s.core.sessionID
        let links ← links.insert hp p
        let core := ((s.core.alloc (.single ⟨k, src, srcSessionID, id, hp⟩)).setDscTimer p).insertSingle k id p
        .ok ({ core := { core with sessionID := id + 1 }, links, conn }, [.es h p (msg id)])

def onDscMsgQueryUserInfoCltCltReq (cfg : Config) (s : State) (req : QueryUserInfoCltCltReq) (src : MsgAddr)
    (sendErr : Bool) : Res (State × List Out) :=
  let failed code : Out := .upper src (.queryUserRsp code req.srcSessionID [])
  match cfg.codec.decodeChannelKey req.cryptUserKey with
  | none => .ok (s, [failed decryptErrorType])
  | some (channelID, genUserKey) =>
    sendQuery s .queryUser src req.srcSessionID sendErr (.queryUserReq · channelID genUserKey) failed

def onDscMsgQueryTransInfoCltCltReq (cfg : Config) (s : State) (req : QueryTransInfoCltCltReq) (src : MsgAddr)
    (sendErr : Bool) : Res (State × List Out) :=
  let failed code : Out := .upper src (.queryTransRsp code req.srcSessionID [])
  match cfg.codec.decodeChannel req.cryptUserKey with
  | none => .ok (s, [failed decryptErrorType])
  | some channelID =>
    match cfg.codec.decodeTransKey req.transKey with
    | none => .ok (s, [failed decodeErrorType])
    | some genTransKey =>
      sendQuery s .queryTrans src req.srcSessionID sendErr (.queryTransReq · channelID genTransKey) failed

/-! ## Answers of the endorsers -/

/-- Compares an OK answer with the first one. An empty content stands for "no answer
yet"; `none` says that the contents differ. -/
def EndorseSession.countAnswer (S : EndorseSession) (content : Blob) : Option EndorseSession :=
  if S.content = [] then some { S with content, succeedRspNum := S.succeedRspNum + 1 }
  else if S.content = content then some { S with succeedRspNum := S.succeedRspNum + 1 }
  else none

/-- The end of an endorsement that failed with `code`: the selected endorser is told
unless it cannot be reached, the requester is answered, the session is deleted. -/
def endorseFailed (s : State) (p : Ptr) (S : EndorseSession) (code : Int) (cancelErr : Bool) :
    Res (State × List Out) := do
  let outs ←
    if code = networkErrorType then .ok []
    else do
      let h ← s.submitHandler S
      .ok (if cancelErr then [] else [.es h p (.cancelReq S.kind S.esSessionID)])
  let s ← onReleaseMultiHandleSession { s with core := (s.core.cancelDscTimer p).eraseEndorse p } p
  .ok (s, outs ++ [onResponse S code])

def answerCounted (cfg : Config) (s : State) (p : Ptr) (S : EndorseSession) (h : McpHandler) (esSessionID : UInt32)
    (env : AnswerEnv) : Res (State × List Out) := do
  let hsub ← s.submitHandler S
  let S := if h = hsub then { S with esSessionID } else S
  let s := { s with core := s.core.put p (.endorse S) }
  if cfg.endorsePeerCount ≤ S.succeedRspNum.toNat then
    if env.submitErr then endorseFailed s p S networkErrorType env.cancelErr
    else .ok (s, [.es hsub p (.submitReq S.kind S.esSessionID)])
  else .ok (s, [])

def onHtsMsgRegistUserEsCltRsp (cfg : Config) (s : State) (rsp : RegistUserEsCltRsp) (h : McpHandler)
    (env : AnswerEnv) : Res (State × List Out) :=
  match s.core.mapEndorse .regist rsp.cltSessionID with
  | none => .error .nullPtr -- the log line reads the id of the session that was not found
  | some p => do
    let S ← s.endorse p
    if rsp.returnCode = okType then
      if rsp.allowRegist then
        match S.countAnswer rsp.userInitInfo with
        | some S => answerCounted cfg s p S h rsp.esSessionID env
        | none => endorseFailed s p S systemErrorType env.cancelErr
      else endorseFailed s p S registUserIsRefused env.cancelErr
    else endorseFailed s p S rsp.returnCode env.cancelErr

def onHtsMsgSubmitProposalEsCltRsp (cfg : Config) (s : State) (rsp : SubmitProposalEsCltRsp) (h : McpHandler)
    (env : AnswerEnv) : Res (State × List Out) :=
  match s.core.mapEndorse .propose rsp.cltSessionID with
  | none => .ok (s, [])
  | some p => do
    let S ← s.endorse p
    if rsp.returnCode = okType then
      match S.countAnswer rsp.transContent with
      | some S => answerCounted cfg s p S h rsp.esSessionID env
      | none =>
        -- only the counter is tested here, not the outcome of the comparison
        if cfg.endorsePeerCount ≤ S.succeedRspNum.toNat then
          let hsub ← s.submitHandler S
          if env.submitErr then endorseFailed s p S networkErrorType env.cancelErr
          else
            let (s, outs) ← endorseFailed s p S systemErrorType env.cancelErr
            .ok (s, .es hsub p (.submitReq S.kind S.esSessionID) :: outs)
        else endorseFailed s p S systemErrorType env.cancelErr
    else endorseFailed s p S rsp.returnCode env.cancelErr

/-! ## Answers to a submit -/

def createWaitNotify (s : State) (S : EndorseSession) : Res State :=
  if S.waitNotify then
    match S.submitEs with
    | none => .error .nullPtr
    | some hp => do
      let p := s.core.next
      let links ← s.links.insert hp p
      let core := s.core.alloc (.single ⟨.waitNotify S.kind, S.srcMsgAddr, S.srcSessionID, S.cltSessionID, hp⟩)
      .ok { s with core := (core.insertSingle (.waitNotify S.kind) S.cltSessionID p).setDscTimer p, links }
  else .ok s

/-- The submit answer of a session: the session leaves its map whatever the answer
says, and `answer` goes to the requester when it is OK. -/
def onHtsMsgSubmitTransaction (s : State) (k : Kind) (id : UInt32) (code : Int) (answer : EndorseSession → Out) :
    Res (State × List Out) :=
  match s.core.mapEndorse k id with
  | none => .ok (s, [])
  | some p => do
    let s := { s with core := s.core.eraseEndorseKey k id }
    let S ← s.endorse p
    if code = okType then
      let s ← createWaitNotify s S
      let s ← onReleaseMultiHandleSession { s with core := s.core.cancelDscTimer p } p
      .ok (s, [answer S])
    else .ok (s, [])

def onHtsMsgSubmitRegistTransactionEsCltRsp (cfg : Config) (s : State) (rsp : SubmitRegistTransactionEsCltRsp) :
    Res (State × List Out) :=
  onHtsMsgSubmitTransaction s .regist rsp.cltSessionID rsp.returnCode fun S =>
    let strGenUserKey := cfg.codec.encodeGenerateUserKey S.channelID rsp.genUserKey
    match cfg.codec.encodeClientCryptKey S.channelID rsp.genUserKey rsp.svrPubCryptKey rsp.cltPriCryptKey
        rsp.envelopeKey with
    | some strCryptUserKey => onResponseRegist S okType true strCryptUserKey strGenUserKey
    | none => onResponseRegist S (-1) true [] strGenUserKey

def onHtsMsgSubmitProposalTransactionEsCltRsp (cfg : Config) (s : State)
    (rsp : SubmitProposalTransactionEsCltRsp) : Res (State × List Out) :=
  onHtsMsgSubmitTransaction s .propose rsp.cltSessionID rsp.returnCode fun S =>
    onResponsePropose S okType (cfg.codec.encodeTransKey rsp.genTransKey)

def onHtsMsgSingle (s : State) (k : SingleKind) (id : UInt32) (answer : SingleSession → Out) :
    Res (State × List Out) :=
  match s.core.mapSingle k id with
  | none => .ok (s, [])
  | some p => do
    let s := { s with core := s.core.eraseSingleKey k id }
    let S ← s.single p
    let s ← onReleaseSingleHanleSession { s with core := s.core.cancelDscTimer p } p
    .ok (s, [answer S])

/-! ## Connections -/

def onConnectedNodify (cfg : Config) (s : State) (h : McpHandler) (peerRand handleRand rawIndex : Nat) :
    Res (State × List Out) :=
  let peerID := getPeerID cfg.peers h.handleID
  if peerID = -1 then .error .assertion
  else .ok ({ s with conn := connect s.conn peerID h peerRand handleRand rawIndex }, [])

/-- The loop over the sessions of a lost connection: the number of rounds is fixed
before it, the array changes under it. -/
def netErrorLoop (hp : HPtr) : Nat → Nat → State → Res (State × List Out)
  | 0, _, s => .ok (s, [])
  | n + 1, i, s =>
    match s.links.handles hp with
    | none => .error .dangling
    | some H =>
      match H.arrSession[i]? with
      | none => .error .outOfRange
      | some p => do
        let (s, outs) ← onNetError s p
        let (s, outs') ← netErrorLoop hp n (i + 1) s
        .ok (s, outs ++ outs')

def onNetworkError (cfg : Config) (s : State) (h : McpHandler) : Res (State × List Out) :=
  let peerID := getPeerID cfg.peers h.handleID
  if peerID = -1 then .error .assertion
  else
    let s := { s with conn := disconnect s.conn peerID h }
    match s.links.mapHandle h.handleID with
    | none => .ok (s, [])
    | some hp =>
      let s := { s with links := { s.links with mapHandle := update s.links.mapHandle h.handleID none } }
      match s.links.handles hp with
      | none => .error .dangling
      | some H => do
        let (s, outs) ← netErrorLoop hp H.arrSession.length 0 s
        .ok ({ s with links := { s.links with handles := update s.links.handles hp none } }, outs)

/-! ## One event -/

def step (cfg : Config) (s : State) : Event → Res (State × List Out)
  | .registUserReq req src env => onDscMsgRegistUserCltCltReq cfg s req src env
  | .proposeReq req src env => onDscMsgProposeCltCltReq cfg s req src env
  | .queryUserReq req src sendErr => onDscMsgQueryUserInfoCltCltReq cfg s req src sendErr
  | .queryTransReq req src sendErr => onDscMsgQueryTransInfoCltCltReq cfg s req src sendErr
  | .registUserRsp rsp h env => onHtsMsgRegistUserEsCltRsp cfg s rsp h env
  | .submitProposalRsp rsp h env => onHtsMsgSubmitProposalEsCltRsp cfg s rsp h env
  | .submitRegistRsp rsp _ => onHtsMsgSubmitRegistTransactionEsCltRsp cfg s rsp
  | .submitProposalTransRsp rsp _ => onHtsMsgSubmitProposalTransactionEsCltRsp cfg s rsp
  | .transNotify k rsp _ =>
    onHtsMsgSingle s (.waitNotify k) rsp.cltSessionID (onResponseSingle · rsp.returnCode rsp.transResult [])
  | .queryUserRsp rsp _ =>
    onHtsMsgSingle s .queryUser rsp.sessionID (onResponseSingle · rsp.returnCode false rsp.userInfo)
  | .queryTransRsp rsp _ =>
    onHtsMsgSingle s .queryTrans rsp.cltSessionID (onResponseSingle · rsp.returnCode false rsp.transInfo)
  | .timer p =>
    -- a timer fires once
    if s.core.armed p then onTimer { s with core := s.core.cancelDscTimer p } p else .ok (s, [])
  | .connected h peerRand handleRand rawIndex => onConnectedNodify cfg s h peerRand handleRand rawIndex
  | .networkError h => onNetworkError cfg s h

end VProtocol.Client
