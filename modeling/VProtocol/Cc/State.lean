import Mathlib.Logic.Function.Basic
import VProtocol.Common.Types

/-!
# The state of the chaincode service

What `CCcService` exchanges with the endorser, with the committer and with the
chaincode above it, and the sessions it keeps meanwhile. Users and information are
looked up and set in the same way; where the two paths only differ in names they are
one definition with the `Path` it is for.
-/

namespace VProtocol.Cc

open Function (update)

inductive Path where
  | user
  | info
  deriving DecidableEq

/-! ## Messages -/

structure RegistUserEsCcReq where
  esSessionID : UInt32
  channelID : UInt32
  userKey : Blob
  userInfo : Blob

structure SubmitProposalEsCcReq where
  esSessionID : UInt32
  action : UInt32
  channelID : UInt32
  proposal : Blob

structure QueryUserInfoXcsCcRsp where
  returnCode : Int
  userInfoVersion : UInt32
  ccSessionID : UInt64
  userSysIndex : UInt64
  userInfo : Blob

structure QueryInformationXcsCcRsp where
  returnCode : Int
  version : UInt32
  ccSessionID : UInt64
  infoSysIndex : UInt64
  value : Blob

structure VbhUser where
  version : UInt32
  genUserKey : OrderGenerateKey
  userInfo : Blob
  deriving DecidableEq

structure VbhOnCreateInformation where
  key : Blob
  value : Blob
  deriving DecidableEq

structure VbhInformation where
  version : UInt32
  key : Blob
  value : Blob
  deriving DecidableEq

/-- `CRoughProposalTransactionWrapper`, the transaction content before it is encoded. -/
structure TransContent where
  proposal : Blob
  transProcessResult : Blob
  vecUpdateUser : List VbhUser
  vecOnCreateInfo : List VbhOnCreateInformation
  vecUpdateInfo : List VbhInformation
  deriving DecidableEq

/-- To the endorser. `allowRegist` is `none` where `m_bAllowRegist` is not assigned, and
`transContent` is `none` for an empty blob. -/
inductive EsMsg where
  | registUserRsp (allowRegist : Option Bool) (returnCode : Int) (esSessionID : UInt32) (userInitInfo : Blob)
  | submitProposalRsp (returnCode : Int) (esSessionID : UInt32) (transContent : Option TransContent)
  deriving DecidableEq

/-- What the service calls of the chaincode; `onGetVbhRsp` is `OnGetVbhUserRsp` and `OnGetVbhInfoRsp`. -/
inductive Upcall where
  | registUserProc (ccSessionID : UInt64) (channelID : UInt32) (userKey userRegistInfo : Blob)
  | proposalProc (ccSessionID : UInt64) (channelID action : UInt32) (proposal : Blob)
  | onGetVbhRsp (path : Path) (returnCode : Int) (ccSessionID : UInt64) (key value : Blob)
  deriving DecidableEq

/-- `query` is `CQueryUserInfoCcXcsReq` and `CQueryInformationCcXcsReq`; `ret` is the
value a call of the chaincode returns. -/
inductive Out where
  | es (addr : MsgAddr) (m : EsMsg)
  | query (addr : MsgAddr) (path : Path) (key : OrderGenerateKey) (ccSessionID : UInt64)
  | up (u : Upcall)
  | ret (code : Int)
  deriving DecidableEq

/-! ## What the service is driven by -/

/-- A call of the chaincode, with what the environment decides in it: the result of
`SendDscMessage`, and whether the content can be encoded. -/
inductive Call where
  | getVbhUser (ccSessionID : UInt64) (userKey : Blob) (sendRet : Int)
  | setVbhUser (ccSessionID : UInt64) (userKey userInfo : Blob)
  | getVbhInformation (ccSessionID : UInt64) (key : Blob) (sendRet : Int)
  | setVbhInformation (ccSessionID : UInt64) (key value : Blob)
  | createVbhInformation (ccSessionID : UInt64) (key value : Blob)
  | registUserRsp (returnCode : Int) (ccSessionID : UInt64) (allowRegist : Bool) (userInitInfo : Blob)
  | porposalRsp (returnCode : Int) (ccSessionID : UInt64) (transProcessResult : Blob) (encodes : Bool)

abbrev Ptr := Nat

/-- The handlers of the two requests call the chaincode before they end; `procReturn` is
its return, and only its calls come in between. -/
inductive Event where
  | registUserReq (req : RegistUserEsCcReq) (src : MsgAddr)
  | submitProposalReq (req : SubmitProposalEsCcReq) (src : MsgAddr)
  | procReturn (ret : Int)
  | call (c : Call)
  | queryUserInfoRsp (rsp : QueryUserInfoXcsCcRsp)
  | queryInformationRsp (rsp : QueryInformationXcsCcRsp)
  | timer (p : Ptr)

/-! ## Sessions -/

/-- `CCcUser` and `CCcInformation`: a key that was looked up, with `strKey` as the chaincode gave it. -/
structure Item where
  version : UInt32 := 0
  key : OrderGenerateKey
  strKey : Blob
  value : Blob := []
  setted : Bool := false
  deriving DecidableEq

structure RegistUserSession where
  ccSessionID : UInt32
  esSessionID : UInt32
  channelID : UInt32
  esAddr : MsgAddr
  userKey : Blob
  userRegistInfo : Blob

structure ProcessProposalSession where
  ccSessionID : UInt32
  esSessionID : UInt32
  channelID : UInt32
  esAddr : MsgAddr
  proposal : Blob
  lstUser : List Item
  lstInfo : List Item
  lstCreatedInfo : List VbhOnCreateInformation

namespace ProcessProposalSession
variable (S : ProcessProposalSession)

def lst : Path → List Item
  | .user => S.lstUser
  | .info => S.lstInfo

def setLst : Path → List Item → ProcessProposalSession
  | .user, l => { S with lstUser := l }
  | .info, l => { S with lstInfo := l }

@[simp] theorem lst_setLst_self (path : Path) (l : List Item) : (S.setLst path l).lst path = l := by
  cases path <;> rfl

theorem lst_setLst_ne {path path' : Path} (h : path' ≠ path) (l : List Item) :
    (S.setLst path l).lst path' = S.lst path' := by
  cases path <;> cases path' <;> first | rfl | exact absurd rfl h

@[simp] theorem lstCreatedInfo_setLst (path : Path) (l : List Item) :
    (S.setLst path l).lstCreatedInfo = S.lstCreatedInfo := by
  cases path <;> rfl

end ProcessProposalSession

inductive Session where
  | registUser (S : RegistUserSession)
  | processProposal (S : ProcessProposalSession)

def registUserSessionType : UInt32 := 1
def processProposalSessionType : UInt32 := 2

inductive Stop where
  -- a freed session is read, written or freed again
  | dangling
  -- the thread is inside the chaincode, or is not when the chaincode returns
  | outOfTurn
  deriving DecidableEq

abbrev Res := Except Stop

structure Proc where
  type : UInt32
  p : Ptr
  esSessionID : UInt32
  src : MsgAddr

structure State where
  heap : Ptr → Option Session := fun _ => none
  next : Ptr := 0
  armed : Ptr → Bool := fun _ => false
  mapRegistUser : UInt32 → Option Ptr := fun _ => none
  mapProcessProposal : UInt32 → Option Ptr := fun _ => none
  sessionID : UInt32 := 0
  proc : Option Proc := none

namespace State
variable (s : State)

def put (p : Ptr) (x : Session) : State := { s with heap := update s.heap p (some x) }

def free (p : Ptr) : State := { s with heap := update s.heap p none }

def setDscTimer (p : Ptr) : State := { s with armed := update s.armed p true }

def cancelDscTimer (p : Ptr) : State := { s with armed := update s.armed p false }

def eraseRegistUserKey (id : UInt32) : State := { s with mapRegistUser := update s.mapRegistUser id none }

def eraseProcessProposalKey (id : UInt32) : State :=
  { s with mapProcessProposal := update s.mapProcessProposal id none }

def eraseRegistUser (p : Ptr) : State :=
  { s with mapRegistUser := fun id => if s.mapRegistUser id = some p then none else s.mapRegistUser id }

def eraseProcessProposal (p : Ptr) : State :=
  { s with mapProcessProposal := fun id => if s.mapProcessProposal id = some p then none else s.mapProcessProposal id }

def processProposal (p : Ptr) : Res ProcessProposalSession :=
  match s.heap p with
  | some (.processProposal S) => .ok S
  | _ => .error .dangling

def registUser (p : Ptr) : Res RegistUserSession :=
  match s.heap p with
  | some (.registUser S) => .ok S
  | _ => .error .dangling

end State

end VProtocol.Cc
