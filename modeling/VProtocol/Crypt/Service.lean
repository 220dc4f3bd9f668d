import VProtocol.Crypt.State

/-!
# The encrypted client

`CVbhCryptClientService` as a step function. An outcome that a function reports stands
behind what it sends, in the order of the source.
-/

namespace VProtocol.Crypt

open Function (update)
open Client (Kind McpHandler Ptr HPtr Links Fault Res getPeerID getMcpHandler connect disconnect)

/-! ## Reading through pointers -/

namespace State
variable (s : State)

def endorse (p : Ptr) : Res EndorseSession :=
  match s.core.heap p with
  | some (.endorse S) => .ok S
  | _ => .error .dangling

def query (p : Ptr) : Res QuerySession :=
  match s.core.heap p with
  | some (.query S) => .ok S
  | _ => .error .dangling

def submitHandler (S : EndorseSession) : Res McpHandler :=
  match S.submitEs with
  | none => .error .nullPtr
  | some hp =>
    match s.links.handles hp with
    | none => .error .dangling
    | some H => .ok H.mcpHandler

end State

/-! ## Callbacks -/

def onRegistUserResponse (p : Ptr) (S : EndorseSession) (code : Int) (genUserKey : Blob) : Out :=
  .rsp p (.registUserRsp code S.channelID S.userKey.1 S.encodedClientCryptKey.1 genUserKey)

def onProposeResponse (cfg : Config) (p : Ptr) (S : EndorseSession) (code : Int)
    (transKey : OrderGenerateTransactionKey) : Out :=
  .rsp p (.launchTransRsp code S.channelID S.userKey.1 (cfg.dsc.orderGenerateTransactionKey.encode transKey))

def onFailed (cfg : Config) (p : Ptr) (S : EndorseSession) (code : Int) : Out :=
  match S.kind with
  | .regist => onRegistUserResponse p S code []
  | .propose => onProposeResponse cfg p S code ⟨0, 0, 0, 0⟩

def onGetRsp (p : Ptr) (S : QuerySession) (code : Int) (info : Blob) : Out :=
  .rsp p
    (match S.kind with
    | .user => .getUserInfoRsp code S.channelID S.userKey.1 info
    | .trans => .getTransInfoRsp code S.channelID S.userKey.1 S.transKey.1 info)

/-! ## The end of a session -/

def onRelease (s : State) (p : Ptr) : Res State := do
  let S ← s.endorse p
  let links ← s.links.unlink s.core.live p S.arrHandleSession
  .ok { s with core := s.core.free p, links }

def onReleaseQuery (s : State) (p : Ptr) (code : Int) (info : Blob) : Res (State × List Out) := do
  let S ← s.query p
  let links ← s.links.erase s.core.live S.handleSession p
  .ok ({ s with core := s.core.free p, links }, [onGetRsp p S code info])

/-- The time out of a proposal that was not reported makes the callback itself once more,
with variables that the function does not have. -/
def onTimeOutEndorse (cfg : Config) (s : State) (p : Ptr) (raw : RawMemory) : Res (State × List Out) := do
  let S ← s.endorse p
  let s ← onRelease { s with core := s.core.eraseEndorse p } p
  .ok (s,
    if S.completeRegistRsp then []
    else
      match S.kind with
      | .regist => [onFailed cfg p S timeoutErrorType]
      | .propose => [onFailed cfg p S timeoutErrorType,
          .rsp p (.launchTransRsp raw.returnCode S.channelID raw.userKey raw.transKey)])

def onNetErrorEndorse (cfg : Config) (s : State) (p : Ptr) : Res (State × List Out) := do
  let S ← s.endorse p
  let s ← onRelease { s with core := (s.core.cancelDscTimer p).eraseEndorse p } p
  .ok (s, if S.completeRegistRsp then [] else [onFailed cfg p S networkErrorType])

def onTimeOutQuery (s : State) (p : Ptr) : Res (State × List Out) := do
  let S ← s.query p
  match S.kind with
  | .user => onReleaseQuery { s with core := (s.core.cancelDscTimer p).eraseQuery p } p timeoutErrorType []
  | .trans => onReleaseQuery { s with core := s.core.eraseQuery p } p timeoutErrorType []

def onNetErrorQuery (s : State) (p : Ptr) : Res (State × List Out) :=
  onReleaseQuery { s with core := (s.core.cancelDscTimer p).eraseQuery p } p networkErrorType []

def onTimer (cfg : Config) (s : State) (p : Ptr) (raw : RawMemory) : Res (State × List Out) :=
  match s.core.heap p with
  | none => .error .dangling
  | some (.endorse _) => onTimeOutEndorse cfg s p raw
  | some (.query _) => onTimeOutQuery s p

def onNetError (cfg : Config) (s : State) (p : Ptr) : Res (State × List Out) :=
  match s.core.heap p with
  | none => .error .dangling
  | some (.endorse _) => onNetErrorEndorse cfg s p
  | some (.query _) => onNetErrorQuery s p

/-! ## Requests of the application -/

/-- The loop over the endorsers of a request: `n` picks are left, `idx` are done. -/
def broadcast (cfg : Config) (p : Ptr) (rand : Nat) (sendErr : Nat → Bool) (msg : Bool → EsMsg) :
    Nat → Nat → State → Res (State × List Out × Int)
  | 0, _, s => .ok (s, [], okType)
  | n + 1, idx, s =>
    match getMcpHandler s.conn with
    | (none, _) => .error .nullPtr
    | (some h, conn) => do
      let (links, hp) := s.links.handleSession h
      let S ← s.endorse p
      let links ← links.insert hp p
      let S := { S with
        arrHandleSession := S.arrHandleSession ++ [hp]
        submitEs := if rand = idx then some hp else S.submitEs }
      let s : State := { core := s.core.put p (.endorse S), links, conn }
      if sendErr idx then
        let (s, outs) ← onNetErrorEndorse cfg s p
        .ok (s, outs, networkErrorType)
      else
        let (s, outs, code) ← broadcast cfg p rand sendErr msg n (idx + 1) s
        .ok (s, .es h (msg (rand = idx)) :: outs, code)

/-- The loop, and what follows it when every send succeeded; `fill` are the members that
are filled in there. -/
def launch (cfg : Config) (s : State) (p : Ptr) (S : EndorseSession) (env : RequestEnv) (msg : Bool → EsMsg)
    (fill : EndorseSession → EndorseSession) : Res (State × List Out × Int) := do
  let (s, outs, code) ← broadcast cfg p (env.rand % cfg.endorsePeerCount) env.sendErr msg cfg.endorsePeerCount 0
    { s with core := s.core.put p (.endorse S) }
  if code = okType then
    let S ← s.endorse p
    let core := ((s.core.put p (.endorse (fill S))).setDscTimer p).insertEndorse S.kind s.core.sessionID p
    .ok ({ s with core := { core with sessionID := s.core.sessionID + 1 } }, outs, code)
  else .ok (s, outs, code)

def registData (cfg : Config) (req : RegistUserApiCltReq) (env : RequestEnv) (submitNode : Bool) : Option DscBlob :=
  cfg.vbhEncrypt peerEnvelopeKey (encodeAttrs (CryptRegistUserCltEsReqData.attrs cfg.dsc)
    ⟨req.waitNotify, submitNode, req.ccID, req.channelID, req.userKey, req.userInfo, env.nonce⟩)

def proposeData (cfg : Config) (req : ProposeApiCltReq) (env : RequestEnv) (envelopeKey : DscBlob) (submitNode : Bool) :
    Option DscBlob :=
  cfg.vbhEncrypt envelopeKey (encodeAttrs (CryptSubmitProposalCltEsReqData.attrs cfg.dsc)
    ⟨env.raw.waitNotify, submitNode, req.ccID, req.actionID, req.proposal, env.nonce⟩)

def registUser (cfg : Config) (s : State) (req : RegistUserApiCltReq) (env : RequestEnv) :
    Res (State × List Out × Int) :=
  let p := s.core.next
  let s := { s with core := s.core.reserve }
  if s.conn.peers.length < cfg.endorsePeerCount then .ok (s, [], networkErrorType)
  else
    match registData cfg req env true, registData cfg req env false with
    | some encryptTrue, some encryptFalse =>
      let S : EndorseSession :=
        { kind := .regist
          channelID := req.channelID
          nonce := env.nonce
          waitNotify := req.waitNotify
          esSessionID := env.raw.esSessionID
          userKey := req.userKey
          envelopeKey := peerEnvelopeKey }
      launch cfg s p S env
        (fun submitNode => .registUserReq s.core.sessionID (if submitNode then encryptTrue else encryptFalse)) id
    | _, _ => .ok (s, [], systemErrorType)

def propose (cfg : Config) (s : State) (req : ProposeApiCltReq) (env : RequestEnv) : Res (State × List Out × Int) :=
  let p := s.core.next
  let s := { s with core := s.core.reserve }
  if s.conn.peers.length < cfg.endorsePeerCount then .ok (s, [], networkErrorType)
  else
    match cfg.decodeClientCryptKey req.cryptUserKey with
    | none => .ok (s, [], decryptErrorType)
    | some (_, _, envelopeKey) =>
      match cfg.dsc.orderGenerateKey.decode req.userKey.1 with
      | none => .ok (s, [], decryptErrorType)
      | some (genUserKey, _) =>
        match proposeData cfg req env envelopeKey true, proposeData cfg req env envelopeKey false with
        | some encryptTrue, some encryptFalse =>
          -- neither the channel nor the wish for a notice is ever set
          let S : EndorseSession :=
            { kind := .propose
              channelID := env.raw.channelID
              nonce := env.nonce
              waitNotify := env.raw.waitNotify
              esSessionID := env.raw.esSessionID
              userKey := emptyBlob
              envelopeKey }
          launch cfg s p S env (fun submitNode => .submitProposalReq req.channelID s.core.sessionID genUserKey
            (if submitNode then encryptTrue else encryptFalse)) fun S => { S with userKey := req.userKey }
        | _, _ => .ok (s, [], encryptErrorType)

def sendQuery (s : State) (p : Ptr) (S : HPtr → QuerySession) (k : QueryKind) (sendErr : Bool) (msg : EsMsg) :
    Res (State × List Out × Int) :=
  match getMcpHandler s.conn with
  | (h, conn) =>
    if sendErr then .ok ({ s with conn }, [], networkErrorType)
    else
      match h with
      | none => .error .nullPtr
      | some h => do
        let (links, hp) := s.links.handleSession h
        let links ← links.insert hp p
        let core := ((s.core.put p (.query (S hp))).setDscTimer p).insertQuery k s.core.sessionID p
        .ok ({ core := { core with sessionID := s.core.sessionID + 1 }, links, conn }, [.es h msg], okType)

def getUserInfo (cfg : Config) (s : State) (req : QueryUserInfoApiCltReq) (env : QueryEnv) :
    Res (State × List Out × Int) :=
  let p := s.core.next
  let s := { s with core := s.core.reserve }
  match cfg.decodeClientCryptKey req.cryptUserKey with
  | none => .ok (s, [], decryptErrorType)
  | some (_, _, envelopeKey) =>
    match cfg.dsc.orderGenerateKey.decode req.userKey.1 with
    | none => .ok (s, [], decodeErrorType)
    | some (genUserKey, _) =>
      match cfg.vbhEncrypt envelopeKey env.nonce.1 with
      | none => .ok (s, [], encryptErrorType)
      | some userData =>
        sendQuery s p (⟨.user, req.channelID, env.nonce, ·, req.userKey, envelopeKey, emptyBlob⟩) .user env.sendErr
          (.queryUserReq s.core.sessionID req.channelID genUserKey userData)

def getTransInfo (cfg : Config) (s : State) (req : QueryTransInfoApiCltReq) (env : QueryEnv) :
    Res (State × List Out × Int) :=
  let p := s.core.next
  let s := { s with core := s.core.reserve }
  match cfg.decodeClientCryptKey req.cryptUserKey with
  | none => .ok (s, [], decryptErrorType)
  | some (_, _, envelopeKey) =>
    match cfg.dsc.orderGenerateKey.decode req.userKey.1 with
    | none => .ok (s, [], decodeErrorType)
    | some (genUserKey, _) =>
      match cfg.dsc.orderGenerateTransactionKey.decode req.transKey.1 with
      | none => .ok (s, [], decodeErrorType)
      | some (transKey, _) =>
        if env.encodeErr then .ok (s, [], systemErrorType)
        else
          match cfg.vbhEncrypt envelopeKey (encodeAttrs (CryptQueryTransactionReqData.attrs cfg.dsc)
              ⟨env.nonce, transKey⟩) with
          | none => .ok (s, [], encryptErrorType)
          | some userData =>
            -- the channel of the session is not set
            sendQuery s p (⟨.trans, env.raw.channelID, env.nonce, ·, req.userKey, envelopeKey, req.transKey⟩) .trans
              env.sendErr (.queryTransReq s.core.sessionID req.channelID genUserKey userData)

/-- `OnDscMsg` of a request: a code other than OK is reported. -/
def onDscMsg (request : Res (State × List Out × Int)) (failed : Int → Out) : Res (State × List Out) := do
  let (s, outs, code) ← request
  .ok (s, if code = okType then outs else outs ++ [failed code])

def onDscMsgRegistUserApiCltReq (cfg : Config) (s : State) (req : RegistUserApiCltReq) (env : RequestEnv) :
    Res (State × List Out) :=
  onDscMsg (registUser cfg s req env) fun code =>
    .rsp s.core.next (.registUserRsp code req.channelID req.userKey.1 env.raw.cryptUserKey [])

/-- `UnRegistUser` is to be written: it returns -1. -/
def onDscMsgCryptUnRegistUserReq (s : State) (channelID : UInt32) : Res (State × List Out) :=
  .ok ({ s with core := s.core.reserve }, [.rsp s.core.next (.unRegistUserRsp (-1) channelID)])

def onDscMsgProposeApiCltReq (cfg : Config) (s : State) (req : ProposeApiCltReq) (env : RequestEnv) :
    Res (State × List Out) :=
  onDscMsg (propose cfg s req env) fun code =>
    .rsp s.core.next (.launchTransRsp code req.channelID req.userKey.1 env.raw.transKey)

def onDscMsgQueryUserInfoApiCltReq (cfg : Config) (s : State) (req : QueryUserInfoApiCltReq) (env : QueryEnv) :
    Res (State × List Out) :=
  onDscMsg (getUserInfo cfg s req env) fun code =>
    .rsp s.core.next (.getUserInfoRsp code req.channelID req.userKey.1 [])

def onDscMsgQueryTransInfoApiCltReq (cfg : Config) (s : State) (req : QueryTransInfoApiCltReq) (env : QueryEnv) :
    Res (State × List Out) :=
  onDscMsg (getTransInfo cfg s req env) fun code =>
    .rsp s.core.next (.getTransInfoRsp code req.channelID req.userKey.1 req.transKey.1 [])

/-! ## Answers of the endorsers -/

/-- Compares an answer with the first one; an empty content stands for "no answer yet". -/
def EndorseSession.countAnswer (S : EndorseSession) (content : DscBlob) : Option EndorseSession :=
  if S.content = emptyBlob then some { S with content, succeedRspNum := S.succeedRspNum + 1 }
  else if S.content = content then some { S with succeedRspNum := S.succeedRspNum + 1 }
  else none

def submit (cfg : Config) (s : State) (S : EndorseSession) (key : DscBlob) (env : AnswerEnv) : Res (List Out × Int) :=
  match cfg.vbhEncrypt key S.nonce.1 with
  | none => .ok ([], encryptErrorType)
  | some userData => do
    let h ← s.submitHandler S
    .ok (if env.submitErr then ([], networkErrorType) else ([.es h (.submitReq S.kind S.esSessionID userData)], okType))

/-- What the answer of the selected endorser leaves in the session; `none` when its keys
cannot be encoded. -/
def EndorseSession.recordKey (cfg : Config) (S : EndorseSession) (rsp : EndorseRsp) (d : CryptRegistUserEsCltRspData)
    (selected : Bool) : Option EndorseSession :=
  if selected then
    (cfg.encodeClientCryptKey d.svrPubCryptKey d.cltPriCryptKey d.envelopeKey).map fun key =>
      { S with esSessionID := rsp.esSessionID, encodedClientCryptKey := key }
  else some S

def registAnswer (cfg : Config) (s : State) (S : EndorseSession) (rsp : EndorseRsp) (h : McpHandler) (env : AnswerEnv) :
    Res (EndorseSession × List Out × Int) :=
  match cfg.vbhDecrypt peerEnvelopeKey rsp.userData with
  | none => .ok (S, [], decryptErrorType)
  | some buf =>
    match decodeAttrs (CryptRegistUserEsCltRspData.attrs cfg.dsc)
        ⟨false, emptyBlob, emptyBlob, emptyBlob, emptyBlob, emptyBlob⟩ buf with
    | (_, none) => .ok (S, [], decodeErrorType)
    | (d, some _) =>
      if S.nonce ≠ d.nonce then .ok (S, [], nonceVerifyErrorType)
      else if d.allowRegist = false then .ok (S, [], registUserIsRefused)
      else
        match S.countAnswer d.userInitInfo with
        | none => .ok (S, [], systemErrorType)
        | some S => do
          let hsub ← s.submitHandler S
          match S.recordKey cfg rsp d (h = hsub) with
          | none => .ok ({ S with esSessionID := rsp.esSessionID }, [], systemErrorType)
          | some S =>
            if cfg.endorsePeerCount ≤ S.succeedRspNum.toNat then
              let (outs, code) ← submit cfg s S peerEnvelopeKey env
              .ok (S, outs, code)
            else .ok (S, [], okType)

/-- The session and the code after the comparison with the first answer. -/
def compareAnswer (s : State) (S : EndorseSession) (rsp : EndorseRsp) (h : McpHandler) (content : DscBlob) :
    Res (EndorseSession × Int) :=
  match S.countAnswer content with
  | none => .ok (S, systemErrorType)
  | some S => do
    let hsub ← s.submitHandler S
    .ok (if h = hsub then { S with esSessionID := rsp.esSessionID } else S, okType)

def proposeAnswer (cfg : Config) (s : State) (S : EndorseSession) (rsp : EndorseRsp) (h : McpHandler)
    (env : AnswerEnv) : Res (EndorseSession × List Out × Int) :=
  match cfg.vbhDecrypt S.envelopeKey rsp.userData with
  | none => .ok (S, [], decryptErrorType)
  | some buf =>
    match decodeAttrs (CryptSubmitProposalEsCltRspData.attrs cfg.dsc) ⟨emptyBlob, emptyBlob⟩ buf with
    | (_, none) => .ok (S, [], decodeErrorType)
    | (d, some _) =>
      if S.nonce ≠ d.nonce then .ok (S, [], nonceVerifyErrorType)
      else do
        let (S, code) ← compareAnswer s S rsp h d.transContent
        -- only the counter is tested here, not the outcome of the comparison
        if cfg.endorsePeerCount ≤ S.succeedRspNum.toNat then
          let (outs, submitCode) ← submit cfg s S S.envelopeKey env
          .ok (S, outs, if submitCode = okType then code else submitCode)
        else .ok (S, [], code)

def ofCode (S : EndorseSession) (code : Int) (answer : Res (EndorseSession × List Out × Int)) :
    Res (EndorseSession × List Out × Int) :=
  if code = okType then answer else .ok (S, [], code)

/-- The selected endorser is told of a failure unless it cannot be reached. -/
def cancel (cfg : Config) (s : State) (S : EndorseSession) (code : Int) (env : AnswerEnv) : Res (List Out) :=
  if code = networkErrorType then .ok []
  else
    match cfg.vbhEncrypt peerEnvelopeKey S.nonce.1 with
    | none => .ok []
    | some userData => do
      let h ← s.submitHandler S
      .ok (if env.cancelErr then [] else [.es h (.cancelReq S.kind S.esSessionID userData)])

/-- What follows an answer: a code other than OK ends the session and is reported, also
when an outcome was reported before. -/
def answered (cfg : Config) (s : State) (p : Ptr) (S : EndorseSession) (outs : List Out) (code : Int) (env : AnswerEnv) :
    Res (State × List Out) :=
  let s := { s with core := s.core.put p (.endorse S) }
  if code = okType then .ok (s, outs)
  else do
    let cancelled ← cancel cfg s S code env
    let s ← onRelease { s with core := (s.core.cancelDscTimer p).eraseEndorse p } p
    .ok (s, outs ++ cancelled ++ [onFailed cfg p S code])

def onHtsMsgCryptRegistUserEsCltRsp (cfg : Config) (s : State) (rsp : EndorseRsp) (h : McpHandler) (env : AnswerEnv) :
    Res (State × List Out) :=
  match s.core.mapEndorse .regist rsp.cltSessionID with
  | none => .error .nullPtr -- the log line reads the id of the session that was not found
  | some p => do
    let S ← s.endorse p
    let (S, outs, code) ← ofCode S rsp.returnCode (registAnswer cfg s S rsp h env)
    answered cfg s p S outs code env

def onHtsMsgCryptSubmitProposalEsCltRsp (cfg : Config) (s : State) (rsp : EndorseRsp) (h : McpHandler)
    (env : AnswerEnv) : Res (State × List Out) :=
  match s.core.mapEndorse .propose rsp.cltSessionID with
  | none => .ok (s, [])
  | some p => do
    let S ← s.endorse p
    let (S, outs, code) ← ofCode S rsp.returnCode (proposeAnswer cfg s S rsp h env)
    answered cfg s p S outs code env

/-! ## Answers to a submit -/

/-- `read` gives the nonce of the decrypted bytes and the callback they stand for. A
session that waits for a notice stays where it is, with a new timer. -/
def onHtsMsgSubmitTransaction (cfg : Config) (s : State) (k : Kind) (rsp : DataRsp)
    (read : Ptr → EndorseSession → Blob → Option (DscBlob × Out)) : Res (State × List Out) :=
  match s.core.mapEndorse k rsp.cltSessionID with
  | none => .ok (s, [])
  | some p => do
    let S ← s.endorse p
    if rsp.returnCode = okType then
      match (cfg.vbhDecrypt S.envelopeKey rsp.userData).bind (read p S) with
      | none => .ok (s, [])
      | some (nonce, out) =>
        if S.nonce = nonce then
          if S.waitNotify then
            .ok ({ s with core := (s.core.put p (.endorse { S with completeRegistRsp := true })).setDscTimer p }, [out])
          else
            let s ← onRelease { s with core := (s.core.cancelDscTimer p).eraseEndorse p } p
            .ok (s, [out])
        else .ok (s, [])
    else .ok (s, [])

def readSubmitRegist (cfg : Config) (p : Ptr) (S : EndorseSession) (buf : Blob) : Option (DscBlob × Out) :=
  match decodeAttrs (CryptSubmitRegistTransactionEsCltRspData.attrs cfg.dsc) ⟨⟨0, 0, 0⟩, emptyBlob⟩ buf with
  | (_, none) => none
  | (d, some _) => some (d.nonce, onRegistUserResponse p S okType (cfg.dsc.orderGenerateKey.encode d.genKey))

def readSubmitProposal (cfg : Config) (p : Ptr) (S : EndorseSession) (buf : Blob) : Option (DscBlob × Out) :=
  match decodeAttrs (CryptSubmitProposalTransactionEsCltRspData.attrs cfg.dsc) ⟨⟨0, 0, 0, 0⟩, emptyBlob⟩ buf with
  | (_, none) => none
  | (d, some _) => some (d.nonce, onProposeResponse cfg p S okType d.genTransKey)

def onHtsMsgCryptSubmitRegistTransactionEsCltRsp (cfg : Config) (s : State) (rsp : DataRsp) : Res (State × List Out) :=
  onHtsMsgSubmitTransaction cfg s .regist rsp (readSubmitRegist cfg)

def onHtsMsgCryptSubmitProposalTransactionEsCltRsp (cfg : Config) (s : State) (rsp : DataRsp) :
    Res (State × List Out) :=
  onHtsMsgSubmitTransaction cfg s .propose rsp (readSubmitProposal cfg)

/-! ## Answers to a query -/

/-- The code and the user info of an OK answer. The user info is what the decode wrote,
whatever follows. -/
def queryUserAnswer (cfg : Config) (S : QuerySession) (userData : DscBlob) : Int × Blob :=
  match cfg.vbhDecrypt S.envelopeKey userData with
  | none => (decryptErrorType, [])
  | some buf =>
    match decodeAttrs (CryptQueryUserInfoRsp.attrs cfg.dsc) ⟨emptyBlob, emptyBlob⟩ buf with
    | (d, none) => (decryptErrorType, d.userInfo.1)
    | (d, some _) => if S.nonce = d.nonce then (okType, d.userInfo.1) else (nonceVerifyErrorType, d.userInfo.1)

def queryTransAnswer (cfg : Config) (S : QuerySession) (userData : DscBlob) : Int × Blob :=
  match cfg.vbhDecrypt S.envelopeKey userData with
  | none => (decryptErrorType, [])
  | some buf =>
    match decodeAttrs (CryptQueryTransactionRspData.attrs cfg.dsc) ⟨emptyBlob, emptyBlob⟩ buf with
    | (d, none) => (decryptErrorType, d.transInfo.1)
    | (d, some _) => if S.nonce = d.nonce then (okType, d.transInfo.1) else (nonceVerifyErrorType, d.transInfo.1)

def onHtsMsgQuery (s : State) (k : QueryKind) (rsp : DataRsp) (answer : QuerySession → Int × Blob) :
    Res (State × List Out) :=
  match s.core.mapQuery k rsp.cltSessionID with
  | none => .ok (s, [])
  | some p => do
    let s := { s with core := s.core.eraseQueryKey k rsp.cltSessionID }
    let S ← s.query p
    let (code, info) := if rsp.returnCode = okType then answer S else (rsp.returnCode, [])
    onReleaseQuery { s with core := s.core.cancelDscTimer p } p code info

def onHtsMsgCryptQueryUserInfoEdsCltRsp (cfg : Config) (s : State) (rsp : DataRsp) : Res (State × List Out) :=
  onHtsMsgQuery s .user rsp (queryUserAnswer cfg · rsp.userData)

def onHtsMsgCryptQueryTransInfoEsCltRsp (cfg : Config) (s : State) (rsp : DataRsp) : Res (State × List Out) :=
  onHtsMsgQuery s .trans rsp (queryTransAnswer cfg · rsp.userData)

/-! ## Connections -/

def onConnectedNodify (cfg : Config) (s : State) (h : McpHandler) (peerRand handleRand rawIndex : Nat) :
    Res (State × List Out) :=
  let peerID := getPeerID cfg.peers h.handleID
  if peerID = -1 then .error .assertion
  else .ok ({ s with conn := connect s.conn peerID h peerRand handleRand rawIndex },
    if s.conn.peers.isEmpty then [.onReady] else [])

/-- The loop over the sessions of a lost connection: the number of rounds is fixed
before it, the array changes under it. -/
def netErrorLoop (cfg : Config) (hp : HPtr) : Nat → Nat → State → Res (State × List Out)
  | 0, _, s => .ok (s, [])
  | n + 1, i, s =>
    match s.links.handles hp with
    | none => .error .dangling
    | some H =>
      match H.arrSession[i]? with
      | none => .error .outOfRange
      | some p => do
        let (s, outs) ← onNetError cfg s p
        let (s, outs') ← netErrorLoop cfg hp n (i + 1) s
        .ok (s, outs ++ outs')

def loseHandle (cfg : Config) (s : State) (h : McpHandler) : Res (State × List Out) :=
  match s.links.mapHandle h.handleID with
  | none => .ok (s, [])
  | some hp =>
    let s := { s with links := { s.links with mapHandle := update s.links.mapHandle h.handleID none } }
    match s.links.handles hp with
    | none => .error .dangling
    | some H => do
      let (s, outs) ← netErrorLoop cfg hp H.arrSession.length 0 s
      .ok ({ s with links := { s.links with handles := update s.links.handles hp none } }, outs)

def onNetworkError (cfg : Config) (s : State) (h : McpHandler) : Res (State × List Out) :=
  let peerID := getPeerID cfg.peers h.handleID
  if peerID = -1 then .error .assertion
  else do
    let (s, outs) ← loseHandle cfg { s with conn := disconnect s.conn peerID h } h
    .ok (s, if s.conn.peers.isEmpty then outs ++ [.onAbnormal] else outs)

/-! ## One event -/

def step (cfg : Config) (s : State) : Event → Res (State × List Out)
  | .registUserReq req env => onDscMsgRegistUserApiCltReq cfg s req env
  | .unRegistUserReq channelID => onDscMsgCryptUnRegistUserReq s channelID
  | .proposeReq req env => onDscMsgProposeApiCltReq cfg s req env
  | .queryUserReq req env => onDscMsgQueryUserInfoApiCltReq cfg s req env
  | .queryTransReq req env => onDscMsgQueryTransInfoApiCltReq cfg s req env
  | .registUserRsp rsp h env => onHtsMsgCryptRegistUserEsCltRsp cfg s rsp h env
  | .submitRegistRsp rsp _ => onHtsMsgCryptSubmitRegistTransactionEsCltRsp cfg s rsp
  | .submitProposalRsp rsp h env => onHtsMsgCryptSubmitProposalEsCltRsp cfg s rsp h env
  | .submitProposalTransRsp rsp _ => onHtsMsgCryptSubmitProposalTransactionEsCltRsp cfg s rsp
  | .queryUserRsp rsp _ => onHtsMsgCryptQueryUserInfoEdsCltRsp cfg s rsp
  | .queryTransRsp rsp _ => onHtsMsgCryptQueryTransInfoEsCltRsp cfg s rsp
  | .timer p raw =>
    -- a timer fires once
    if s.core.armed p then onTimer cfg { s with core := s.core.cancelDscTimer p } p raw else .ok (s, [])
  | .connected h peerRand handleRand rawIndex => onConnectedNodify cfg s h peerRand handleRand rawIndex
  | .networkError h => onNetworkError cfg s h

abbrev History := List (Entry State Event Out)

end VProtocol.Crypt
