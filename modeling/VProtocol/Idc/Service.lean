import VProtocol.Idc.Msg
import VProtocol.Lib.Run

/-!
# The service of the identity chain

`CIdcService` opens a request session for each request of a client and hands a request to the
ledger; the session ends with the ledger's answer or with its timer. A login that succeeds leaves a
client session with a token and a key behind, which nothing removes. The sends to the ledger are
commented out in the source; its answers may come in any order all the same.
-/

namespace VProtocol.Idc

open Crypt (DscBlob emptyBlob)
open Function (update)

abbrev Ptr := Nat

inductive Fault where
  -- a freed request session is read or freed again
  | dangling
  -- the loop of `NewSessionId` finds every id taken
  | endless
  deriving DecidableEq

abbrev Res := Except Fault

/-! ## Sessions -/

/-- `CIdcClientSession`; its timer does nothing. -/
structure ClientSession where
  token : UInt64
  preToken : UInt64
  tokenTime : Int
  sessionId : UInt32
  handleID : UInt32 := 0
  envelopeKey : DscBlob := emptyBlob

/-- `CRegisterSession`, `CLoginSession` and `CQueryUserInfoSession` -/
inductive Detail where
  | register (uid : UInt64)
  | login (uid : UInt64) (cryptoKey : DscBlob)
  | query

/-- `CBaseSession::m_nType` -/
def Detail.type : Detail → UInt32
  | .register _ => registerUserMsg
  | .login _ _ => loginMsg
  | .query => queryUserInfoMsg

structure Session where
  detail : Detail
  sessionId : UInt32
  reqID : UInt32
  clientReqID : UInt32
  handleID : UInt32
  nonce : DscBlob

structure State where
  heap : Ptr → Option Session := fun _ => none
  next : Ptr := 0
  armed : Ptr → Bool := fun _ => false
  mapReqSession : UInt32 → Option Ptr := fun _ => none
  mapClientSession : UInt32 → Option ClientSession := fun _ => none
  reqId : UInt32 := 0

/-- The message goes to the client of session `p`, or is handed to `SendVbhSdkServiceMessage` for it. -/
inductive Out where
  | hts (p : Ptr) (handleID : UInt32) (rsp : CommonSrvCltRsp)
  | registUser (p : Ptr) (req : RegistUserCltCltReq)
  | queryUserInfo (p : Ptr) (req : QueryUserInfoCltCltReq)
  deriving DecidableEq

namespace State
variable (s : State)

/-- A new request session, with its timer, under the next request id. -/
def insertReq (S : Session) : State :=
  { s with
    heap := update s.heap s.next (some S)
    next := s.next + 1
    armed := update s.armed s.next true
    mapReqSession := update s.mapReqSession s.reqId (some s.next)
    reqId := s.reqId + 1 }

def eraseReq (id : UInt32) : State := { s with mapReqSession := update s.mapReqSession id none }

def free (p : Ptr) : State := { s with heap := update s.heap p none }

def putClient (id : UInt32) (C : ClientSession) : State :=
  { s with mapClientSession := update s.mapClientSession id (some C) }

end State

/-! ## Tokens -/

/-- Four results of `rand_r`. -/
structure TokenRand where
  r1 : UInt16
  r2 : UInt16
  r3 : UInt16
  r4 : UInt16

def shiftOr (r1 r2 : UInt16) : UInt32 := r1.toUInt32 <<< 16 ||| r2.toUInt32

-- the lower half is an int too, so its sign goes into the upper half
def newSessionToken (r : TokenRand) : UInt64 :=
  (shiftOr r.r1 r.r2).toUInt64 <<< 32 ||| (shiftOr r.r3 r.r4).toInt32.toInt64.toUInt64

/-- The loop of `NewSessionId`, which no number of turns ends when all ids are taken. -/
def newSessionId (m : UInt32 → Option ClientSession) : Nat → UInt32 → Option UInt32
  | 0, _ => none
  | n + 1, r => if (m r).isSome then newSessionId m n (r + 1) else some r

/-- What the environment decides in an answer: the time, the random numbers, and whether there is
memory for a client session. -/
structure AnswerEnv where
  now : Int
  token : TokenRand
  id1 : UInt16
  id2 : UInt16
  memory : Bool

def refreshValue : Int := 900

def newClientSession (env : AnswerEnv) (m : UInt32 → Option ClientSession) : Res (Option ClientSession) :=
  if env.memory then
    match newSessionId m UInt32.size (shiftOr env.id1 env.id2) with
    | none => .error .endless
    | some sessionId =>
      .ok (some { preToken := 0, token := newSessionToken env.token, tokenTime := env.now, sessionId })
  else .ok none

/-- `MaybeSessionTokenExpire`, which returns the token of the session then. -/
def ClientSession.maybeTokenExpire (env : AnswerEnv) (C : ClientSession) : ClientSession :=
  if C.tokenTime + refreshValue < env.now then
    { C with preToken := C.token, token := newSessionToken env.token, tokenTime := env.now }
  else C

/-! ## Requests -/

section
variable (cfg : Config)

def onTypeProcRegister (req : RegisterUserCltSrvReq) (reqID handleID : UInt32) (nonce : DscBlob)
    (clientSessionID : UInt32) (s : State) : State × List Out × Int :=
  let S : Session := ⟨.register req.id, clientSessionID, s.reqId, reqID, handleID, nonce⟩
  (s.insertReq S, [.registUser s.next ⟨true, 0, 0, s.reqId, cfg.userKey req.id, req.info⟩], 0)

def onTypeProcLogin (req : LoginCltSrvReq) (reqID handleID : UInt32) (nonce : DscBlob) (clientSessionID : UInt32)
    (s : State) : State × List Out × Int :=
  let S : Session := ⟨.login req.id req.cryptoKey, clientSessionID, s.reqId, reqID, handleID, nonce⟩
  (s.insertReq S, [.queryUserInfo s.next ⟨s.reqId, req.cryptoKey⟩], 0)

def onTypeProcQuery (req : QueryUserInfoCltSrvReq) (reqID handleID : UInt32) (nonce : DscBlob)
    (clientSessionID : UInt32) (s : State) : State × List Out × Int :=
  match s.mapClientSession req.sessionId with
  | none => (s, [], -1)
  | some C =>
    if C.token = req.token then
      let S : Session := ⟨.query, clientSessionID, s.reqId, reqID, handleID, nonce⟩
      (s.insertReq S, [.queryUserInfo s.next ⟨s.reqId, C.envelopeKey⟩], 0)
    else (s, [], -1)

/-- The macros of `BEGIN_BIND_TYPE_PROC`. The handler of an update has no statement, so that what
it returns is `raw`. -/
def typeProc (type reqID : UInt32) (info : DscBlob) (handleID : UInt32) (nonce : DscBlob) (clientSessionID : UInt32)
    (raw : Int) (s : State) : State × List Out × Int :=
  if type = registerUserMsg then
    match decodeInfo (RegisterUserCltSrvReq.codec cfg.dsc) info with
    | none => (s, [], -1)
    | some req => onTypeProcRegister cfg req reqID handleID nonce clientSessionID s
  else if type = loginMsg then
    match decodeInfo (LoginCltSrvReq.codec cfg.dsc) info with
    | none => (s, [], -1)
    | some req => onTypeProcLogin req reqID handleID nonce clientSessionID s
  else if type = queryUserInfoMsg then
    match decodeInfo (QueryUserInfoCltSrvReq.codec cfg.dsc) info with
    | none => (s, [], -1)
    | some req => onTypeProcQuery req reqID handleID nonce clientSessionID s
  else if type = updateUserInfoMsg then
    match decodeUpdate cfg.dsc info with
    | none => (s, [], -1)
    | some _ => (s, [], raw)
  else (s, [], -1)

def State.requestKey (req : CommonCltSrvReq) (s : State) : Option DscBlob :=
  if req.type < pubCryptoKeyMsg then some cfg.peerEnvelopeKey
  else (s.mapClientSession req.sessionID).map (·.envelopeKey)

/-- Whether the wrapper can be decoded is not looked at. -/
def decodeWrapper (buf : Blob) : ReqDataWrapper :=
  (decodeAttrs (ReqDataWrapper.attrs cfg.dsc) ⟨emptyBlob, emptyBlob⟩ buf).1

def onHtsMsg (req : CommonCltSrvReq) (handleID : UInt32) (raw : Int) (s : State) : State × List Out × Int :=
  match s.requestKey cfg req with
  | none => (s, [], -1)
  | some key =>
    match cfg.vbhDecrypt key req.info with
    | none => (s, [], 0)
    | some buf =>
      let w := decodeWrapper cfg buf
      let r := typeProc cfg req.type req.reqID w.data handleID w.nonce req.sessionID raw s
      (r.1, r.2.1, if r.2.2 = 0 then 0 else -1)

/-! ## Answers -/

def encodeWrapper (data nonce : DscBlob) : Blob := encodeAttrs (ReqDataWrapper.attrs cfg.dsc) ⟨data, nonce⟩

/-- What `SendClientMsg` sends, where the encryption succeeds. -/
def sendClientMsg (returnCode type : UInt32) (data envelopeKey : DscBlob) (S : Session) : Option CommonSrvCltRsp :=
  (cfg.vbhEncrypt envelopeKey (encodeWrapper cfg data S.nonce)).map fun info => ⟨returnCode, type, S.clientReqID, info⟩

def reply (returnCode type : UInt32) (data envelopeKey : DscBlob) (p : Ptr) (S : Session) : List Out :=
  ((sendClientMsg cfg returnCode type data envelopeKey S).map (Out.hts p S.handleID)).toList

def registerData (uid : UInt64) (rsp : RegistUserCltCltRsp) : DscBlob :=
  cfg.setBlob ((RegisterUserSrvCltRsp.codec cfg.dsc).encode
    ⟨uid, if rsp.returnCode = 0 then rsp.cryptUserKey else emptyBlob⟩)

/-- `OnDscMsg(CRegistUserCltCltRsp)` -/
def onRegistUserRsp (rsp : RegistUserCltCltRsp) (s : State) : Res (State × List Out) :=
  match s.mapReqSession rsp.srcSessionID with
  | none => .ok (s, [])
  | some p =>
    match s.heap p with
    | none => .error .dangling
    | some S =>
      match S.detail with
      | .register uid =>
        .ok ((s.eraseReq rsp.srcSessionID).free p,
          reply cfg rsp.returnCode.toUInt32 registerUserMsg (registerData cfg uid rsp) cfg.peerEnvelopeKey p S)
      | .login _ _ => .ok (s.eraseReq rsp.srcSessionID, [])
      | .query => .ok (s.eraseReq rsp.srcSessionID, [])

/-- The client session of a login that the ledger accepts. -/
def loginSession (rsp : QueryUserInfoCltCltRsp) (env : AnswerEnv) (m : UInt32 → Option ClientSession) :
    Res (Option ClientSession) :=
  if rsp.returnCode = 0 then newClientSession env m else .ok none

def loginData (C : ClientSession) : DscBlob :=
  cfg.setBlob ((LoginSrvCltRsp.codec cfg.dsc).encode ⟨C.token, C.sessionId⟩)

def onLoginRsp (rsp : QueryUserInfoCltCltRsp) (cryptoKey : DscBlob) (p : Ptr) (S : Session) (env : AnswerEnv)
    (s : State) : Res (State × List Out) :=
  match loginSession rsp env s.mapClientSession with
  | .error f => .error f
  | .ok (some C) =>
    let C := { C with envelopeKey := cryptoKey, handleID := S.handleID }
    .ok ((s.free p).putClient C.sessionId C, reply cfg okCode loginMsg (loginData cfg C) C.envelopeKey p S)
  | .ok none => .ok (s.free p, reply cfg okCode loginMsg emptyBlob cfg.peerEnvelopeKey p S)

def queryData (C : ClientSession) (rsp : QueryUserInfoCltCltRsp) : DscBlob :=
  cfg.setBlob ((QueryUserInfoSrvCltRsp.codec cfg.dsc).encode ⟨C.token, rsp.userInfo⟩)

def onQueryRsp (rsp : QueryUserInfoCltCltRsp) (p : Ptr) (S : Session) (env : AnswerEnv) (s : State) :
    State × List Out :=
  match s.mapClientSession S.sessionId with
  | none => (s.free p, [])
  | some C =>
    if rsp.returnCode = 0 then
      let C := C.maybeTokenExpire env
      ((s.free p).putClient S.sessionId C, reply cfg okCode loginMsg (queryData cfg C rsp) C.envelopeKey p S)
    else (s.free p, reply cfg okCode loginMsg emptyBlob C.envelopeKey p S)

/-- `OnDscMsg(CQueryUserInfoCltCltRsp)` -/
def onQueryUserInfoRsp (rsp : QueryUserInfoCltCltRsp) (env : AnswerEnv) (s : State) : Res (State × List Out) :=
  match s.mapReqSession rsp.srcSessionID with
  | none => .ok (s, [])
  | some p =>
    match s.heap p with
    | none => .error .dangling
    | some S =>
      match S.detail with
      | .register _ => .ok (s.eraseReq rsp.srcSessionID, [])
      | .login _ cryptoKey => onLoginRsp cfg rsp cryptoKey p S env (s.eraseReq rsp.srcSessionID)
      | .query => .ok (onQueryRsp cfg rsp p S env (s.eraseReq rsp.srcSessionID))

/-- `OnSessionTimeOut` -/
def onSessionTimeOut (p : Ptr) (s : State) : Res (State × List Out) :=
  match s.heap p with
  | none => .error .dangling
  | some S => .ok (s.free p, reply cfg errorTimeout S.detail.type emptyBlob cfg.peerEnvelopeKey p S)

/-! ## Runs -/

inductive Event where
  | commonReq (req : CommonCltSrvReq) (handleID : UInt32) (raw : Int)
  | registUserRsp (rsp : RegistUserCltCltRsp)
  | queryUserInfoRsp (rsp : QueryUserInfoCltCltRsp) (env : AnswerEnv)
  | timer (p : Ptr)

def step (s : State) : Event → Res (State × List Out)
  | .commonReq req handleID raw =>
    let r := onHtsMsg cfg req handleID raw s
    .ok (r.1, r.2.1)
  | .registUserRsp rsp => onRegistUserRsp cfg rsp s
  | .queryUserInfoRsp rsp env => onQueryUserInfoRsp cfg rsp env s
  | .timer p =>
    -- a timer fires once
    if s.armed p then onSessionTimeOut cfg p { s with armed := update s.armed p false } else .ok (s, [])

end

abbrev History := List (Entry State Event Out)

/-- A service that has these client sessions, and no requests. A login is decrypted with the key of
a client session, so without one there is never another. -/
def start (m : UInt32 → Option ClientSession) : State := { mapClientSession := m }

end VProtocol.Idc
