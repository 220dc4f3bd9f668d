import VProtocol.Cc.State
import VProtocol.Lib.Run
import VProtocol.Lib.UpdateFirst

/-!
# The chaincode service

`CCcService` as a step function, in the order of the source. The chaincode is the
environment: it makes the calls, and what the service calls of it is an output.
-/

namespace VProtocol.Cc

open Function (update)

/-- The committer router and the key decoders; nothing below depends on what they compute. -/
structure Config where
  getXcsAddr : UInt32 → Option MsgAddr
  decodeGenerateUserKey : Blob → Option (UInt32 × OrderGenerateKey)
  decodeInfoKey : Blob → Option OrderGenerateKey

def Config.decode (cfg : Config) : Path → Blob → Option OrderGenerateKey
  -- the channel of a user key is not looked at
  | .user, key => (cfg.decodeGenerateUserKey key).map Prod.snd
  | .info, key => cfg.decodeInfoKey key

/-! ## Handles -/

def combineUserCCSessionID (sessionID sessionType : UInt32) : UInt64 :=
  (sessionType.toUInt64 <<< 32) + sessionID.toUInt64

def splitUserCCSessionID (ccSessionID : UInt64) : UInt32 × UInt32 :=
  ((ccSessionID &&& 0xFFFFFFFF).toUInt32, (ccSessionID >>> 32).toUInt32)

/-- The proposal session a handle names. -/
def State.find (s : State) (ccSessionID : UInt64) : Option Ptr :=
  if (splitUserCCSessionID ccSessionID).2 = processProposalSessionType then
    s.mapProcessProposal (splitUserCCSessionID ccSessionID).1
  else none

/-! ## Requests of the endorser -/

def onDscMsgRegistUserEsCcReq (s : State) (req : RegistUserEsCcReq) (src : MsgAddr) : State × List Out :=
  let p := s.next
  let id := s.sessionID
  let S : RegistUserSession :=
    { ccSessionID := id
      esSessionID := req.esSessionID
      channelID := req.channelID
      esAddr := src
      userKey := req.userKey
      userRegistInfo := req.userInfo }
  let s := (s.put p (.registUser S)).setDscTimer p
  ({ s with
      next := p + 1
      mapRegistUser := update s.mapRegistUser id (some p)
      sessionID := id + 1
      proc := some ⟨registUserSessionType, p, req.esSessionID, src⟩ },
    [.up (.registUserProc (combineUserCCSessionID id registUserSessionType) req.channelID req.userKey req.userInfo)])

def onDscMsgSubmitProposalEsCcReq (s : State) (req : SubmitProposalEsCcReq) (src : MsgAddr) : State × List Out :=
  let p := s.next
  let id := s.sessionID
  let S : ProcessProposalSession :=
    { ccSessionID := id
      esSessionID := req.esSessionID
      channelID := req.channelID
      esAddr := src
      proposal := req.proposal
      lstUser := []
      lstInfo := []
      lstCreatedInfo := [] }
  let s := (s.put p (.processProposal S)).setDscTimer p
  ({ s with
      next := p + 1
      mapProcessProposal := update s.mapProcessProposal id (some p)
      sessionID := id + 1
      proc := some ⟨processProposalSessionType, p, req.esSessionID, src⟩ },
    -- the bare id, where the other handler passes a handle
    [.up (.proposalProc id.toUInt64 req.channelID req.action req.proposal)])

def onProcReturn (s : State) (pr : Proc) (ret : Int) : Res (State × List Out) :=
  let s := { s with proc := none }
  -- both kinds erase the id from the map of the proposal sessions
  if ret = 0 then .ok (s, [])
  else if pr.type = registUserSessionType then do
    let S ← s.registUser pr.p
    .ok (((s.eraseProcessProposalKey S.ccSessionID).cancelDscTimer pr.p).free pr.p,
      [.es pr.src (.registUserRsp none ccReportErrorType pr.esSessionID [])])
  else do
    let S ← s.processProposal pr.p
    .ok (((s.eraseProcessProposalKey S.ccSessionID).cancelDscTimer pr.p).free pr.p,
      [.es pr.src (.submitProposalRsp ccReportErrorType pr.esSessionID none)])

/-! ## Answers of the committer -/

/-- An answer to a query. `matched` is the member that is compared with the system ids of
the items, `sysIndex` the one that echoes the system id. -/
structure Reply where
  path : Path
  returnCode : Int
  ccSessionID : UInt64
  matched : UInt64
  sysIndex : UInt64
  version : UInt32
  value : Blob

def Item.answered (r : Reply) (it : Item) : Item := { it with version := r.version, value := r.value }

def onQueryRsp (s : State) (r : Reply) : Res (State × List Out) :=
  match s.find r.ccSessionID with
  | none => .ok (s, [])
  | some p => do
    let S ← s.processProposal p
    if r.returnCode = okType then
      match (S.lst r.path).find? (·.key.systemID = r.matched) with
      | none => .ok (s, [])
      | some it =>
        let lst := updateFirst (·.key.systemID = r.matched) (Item.answered r) (S.lst r.path)
        .ok (s.put p (.processProposal (S.setLst r.path lst)),
          [.up (.onGetVbhRsp r.path okType r.ccSessionID it.strKey r.value)])
    else .ok (s, [.up (.onGetVbhRsp r.path r.returnCode r.ccSessionID [] [])])

def QueryUserInfoXcsCcRsp.reply (rsp : QueryUserInfoXcsCcRsp) : Reply where
  path := .user
  returnCode := rsp.returnCode
  ccSessionID := rsp.ccSessionID
  -- users are looked for by the version
  matched := rsp.userInfoVersion.toUInt64
  sysIndex := rsp.userSysIndex
  version := rsp.userInfoVersion
  value := rsp.userInfo

def QueryInformationXcsCcRsp.reply (rsp : QueryInformationXcsCcRsp) : Reply where
  path := .info
  returnCode := rsp.returnCode
  ccSessionID := rsp.ccSessionID
  matched := rsp.infoSysIndex
  sysIndex := rsp.infoSysIndex
  version := rsp.version
  value := rsp.value

def onDscMsgQueryUserInfoXcsCcRsp (s : State) (rsp : QueryUserInfoXcsCcRsp) : Res (State × List Out) :=
  onQueryRsp s rsp.reply

def onDscMsgQueryInformationXcsCcRsp (s : State) (rsp : QueryInformationXcsCcRsp) : Res (State × List Out) :=
  onQueryRsp s rsp.reply

/-! ## Calls of the chaincode -/

/-- `noSession` is what the two paths return when the handle names no session. -/
def getVbh (cfg : Config) (s : State) (path : Path) (noSession : Int) (ccSessionID : UInt64) (key : Blob)
    (sendRet : Int) : Res (State × List Out) :=
  match s.find ccSessionID with
  | none => .ok (s, [.ret noSession])
  | some p => do
    let S ← s.processProposal p
    match (S.lst path).find? (·.strKey = key) with
    | some it => .ok (s, [.up (.onGetVbhRsp path okType ccSessionID key it.value), .ret 0])
    | none =>
      match cfg.getXcsAddr S.channelID with
      | none => .ok (s, [.ret cannotFoundChannelErrorType])
      | some addr =>
        match cfg.decode path key with
        | none => .ok (s, [.ret decodeErrorType])
        | some genKey =>
          .ok (s.put p (.processProposal (S.setLst path (S.lst path ++ [{ key := genKey, strKey := key }]))),
            (if sendRet = 0 then [.query addr path genKey ccSessionID] else []) ++ [.ret sendRet])

def getVbhUser (cfg : Config) (s : State) (ccSessionID : UInt64) (userKey : Blob) (sendRet : Int) :
    Res (State × List Out) :=
  getVbh cfg s .user systemErrorType ccSessionID userKey sendRet

def getVbhInformation (cfg : Config) (s : State) (ccSessionID : UInt64) (key : Blob) (sendRet : Int) :
    Res (State × List Out) :=
  getVbh cfg s .info (-1) ccSessionID key sendRet

def Item.set (value : Blob) (it : Item) : Item :=
  { it with value, setted := true, version := if it.setted then it.version else increaseVersion it.version }

def setVbh (s : State) (path : Path) (noSession : Int) (ccSessionID : UInt64) (key value : Blob) :
    Res (State × List Out) :=
  match s.find ccSessionID with
  | none => .ok (s, [.ret noSession])
  | some p => do
    let S ← s.processProposal p
    match (S.lst path).find? (·.strKey = key) with
    | none => .ok (s, [.ret (-1)])
    | some _ =>
      .ok (s.put p (.processProposal (S.setLst path (updateFirst (·.strKey = key) (Item.set value) (S.lst path)))),
        [.ret 0])

def setVbhUser (s : State) (ccSessionID : UInt64) (userKey userInfo : Blob) : Res (State × List Out) :=
  setVbh s .user systemErrorType ccSessionID userKey userInfo

def setVbhInformation (s : State) (ccSessionID : UInt64) (key value : Blob) : Res (State × List Out) :=
  setVbh s .info (-1) ccSessionID key value

def createVbhInformation (s : State) (ccSessionID : UInt64) (key value : Blob) : Res (State × List Out) :=
  match s.find ccSessionID with
  | none => .ok (s, [.ret (-1)])
  | some p => do
    let S ← s.processProposal p
    if S.lstCreatedInfo.any (·.key = key) then .ok (s, [.ret (-1)])
    else .ok (s.put p (.processProposal { S with lstCreatedInfo := S.lstCreatedInfo ++ [⟨key, value⟩] }), [.ret 0])

def registUserRsp (s : State) (returnCode : Int) (ccSessionID : UInt64) (allowRegist : Bool) (userInitInfo : Blob) :
    Res (State × List Out) :=
  let id := (splitUserCCSessionID ccSessionID).1
  if (splitUserCCSessionID ccSessionID).2 = registUserSessionType then
    match s.mapRegistUser id with
    | none => .ok (s, [.ret (-1)])
    | some p => do
      let S ← s.registUser p
      let rsp :=
        if returnCode = okType then
          EsMsg.registUserRsp (some allowRegist) returnCode S.esSessionID (if allowRegist then userInitInfo else [])
        else .registUserRsp none returnCode S.esSessionID []
      .ok (((s.eraseRegistUserKey id).cancelDscTimer p).free p, [.es S.esAddr rsp, .ret 0])
  else .ok (s, [.ret (-1)])

def ProcessProposalSession.content (S : ProcessProposalSession) (transProcessResult : Blob) : TransContent where
  proposal := S.proposal
  transProcessResult := transProcessResult
  vecUpdateUser := (S.lstUser.filter (·.setted)).map fun it => ⟨it.version, it.key, it.value⟩
  vecOnCreateInfo := S.lstCreatedInfo
  vecUpdateInfo := (S.lstInfo.filter (·.setted)).map fun it => ⟨it.version, it.strKey, it.value⟩

def porposalRsp (s : State) (returnCode : Int) (ccSessionID : UInt64) (transProcessResult : Blob) (encodes : Bool) :
    Res (State × List Out) :=
  match s.find ccSessionID with
  | none => .ok (s, [.ret (-1)])
  | some p => do
    let S ← s.processProposal p
    let rsp :=
      if returnCode = okType then
        if encodes then EsMsg.submitProposalRsp okType S.esSessionID (some (S.content transProcessResult))
        else .submitProposalRsp systemErrorType S.esSessionID none
      else .submitProposalRsp ccReportErrorType S.esSessionID none
    .ok (((s.eraseProcessProposalKey (splitUserCCSessionID ccSessionID).1).cancelDscTimer p).free p,
      [.es S.esAddr rsp, .ret 0])

def onCall (cfg : Config) (s : State) : Call → Res (State × List Out)
  | .getVbhUser h key sendRet => getVbhUser cfg s h key sendRet
  | .setVbhUser h key value => setVbhUser s h key value
  | .getVbhInformation h key sendRet => getVbhInformation cfg s h key sendRet
  | .setVbhInformation h key value => setVbhInformation s h key value
  | .createVbhInformation h key value => createVbhInformation s h key value
  | .registUserRsp code h allow info => registUserRsp s code h allow info
  | .porposalRsp code h result encodes => porposalRsp s code h result encodes

/-! ## Timers -/

def onTimeOutRegistUser (s : State) (p : Ptr) (S : RegistUserSession) : State × List Out :=
  ((s.eraseRegistUser p).free p, [.es S.esAddr (.registUserRsp none timeoutErrorType S.esSessionID [])])

def onTimeOutProcessProposal (s : State) (p : Ptr) (S : ProcessProposalSession) : State × List Out :=
  ((s.eraseProcessProposal p).free p, [.es S.esAddr (.submitProposalRsp timeoutErrorType S.esSessionID none)])

-- a timer fires once
def onTimer (s : State) (p : Ptr) : Res (State × List Out) :=
  if s.armed p then
    match s.heap p with
    | none => .error .dangling
    | some (.registUser S) => .ok (onTimeOutRegistUser (s.cancelDscTimer p) p S)
    | some (.processProposal S) => .ok (onTimeOutProcessProposal (s.cancelDscTimer p) p S)
  else .ok (s, [])

/-! ## The end of the service -/

def exitLoop : List Ptr → State → Res State
  | [], s => .ok s
  | p :: ps, s =>
    match s.heap p with
    | none => .error .dangling
    | some _ => exitLoop ps ((s.cancelDscTimer p).free p)

/-- The two lists are the keys of the maps in the order they are iterated. -/
def onExit (s : State) (registUserIDs processProposalIDs : List UInt32) : Res State := do
  let s ← exitLoop (registUserIDs.filterMap s.mapRegistUser) s
  exitLoop (processProposalIDs.filterMap s.mapProcessProposal) s

/-! ## One event -/

def step (cfg : Config) (s : State) (e : Event) : Res (State × List Out) :=
  match e, s.proc with
  | .call c, _ => onCall cfg s c
  | .procReturn ret, some pr => onProcReturn s pr ret
  | .procReturn _, none => .error .outOfTurn
  | _, some _ => .error .outOfTurn
  | .registUserReq req src, none => .ok (onDscMsgRegistUserEsCcReq s req src)
  | .submitProposalReq req src, none => .ok (onDscMsgSubmitProposalEsCcReq s req src)
  | .queryUserInfoRsp rsp, none => onDscMsgQueryUserInfoXcsCcRsp s rsp
  | .queryInformationRsp rsp, none => onDscMsgQueryInformationXcsCcRsp s rsp
  | .timer p, none => onTimer s p

end VProtocol.Cc
