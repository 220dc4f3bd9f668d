import VProtocol.Lib.Run
import VProtocol.Client.State
import VProtocol.Crypt.Wrapper

/-!
# The state of the encrypted client

`CVbhCryptClientService`: its sessions, its messages and what it is driven by. Handle
sessions and the connection table are those of the plain client. A callback is kept with
the request it answers, which the callback itself does not carry.
-/

namespace VProtocol.Crypt

open Function (update)
open Client (Kind McpHandler Ptr HPtr Links PeerConnSummary PeerList Fault Res)

/-! ## Messages -/

structure RegistUserApiCltReq where
  waitNotify : Bool
  ccID : Int16
  channelID : UInt32
  userKey : DscBlob
  userInfo : DscBlob

structure ProposeApiCltReq where
  ccID : Int16
  actionID : UInt32
  channelID : UInt32
  userKey : DscBlob
  proposal : DscBlob
  cryptUserKey : DscBlob

structure QueryUserInfoApiCltReq where
  channelID : UInt32
  userKey : DscBlob
  cryptUserKey : DscBlob

structure QueryTransInfoApiCltReq where
  channelID : UInt32
  userKey : DscBlob
  cryptUserKey : DscBlob
  transKey : DscBlob

/-- `CCryptRegistUserEsCltRsp`, `CCryptSubmitProposalEsCltRsp` -/
structure EndorseRsp where
  returnCode : Int
  cltSessionID : UInt32
  esSessionID : UInt32
  userData : DscBlob

/-- `CCryptSubmitRegistTransactionEsCltRsp`, `CCryptSubmitProposalTransactionEsCltRsp`,
`CCryptQueryUserInfoEdsCltRsp`, `CCryptQueryTransInfoEsCltRsp` -/
structure DataRsp where
  returnCode : Int
  cltSessionID : UInt32
  userData : DscBlob

inductive EsMsg where
  | registUserReq (cltSessionID : UInt32) (userData : DscBlob)
  | submitProposalReq (channelID cltSessionID : UInt32) (genUserKey : OrderGenerateKey) (userData : DscBlob)
  | submitReq (k : Kind) (esSessionID : UInt32) (userData : DscBlob)
  | cancelReq (k : Kind) (esSessionID : UInt32) (userData : DscBlob)
  | queryUserReq (cltSessionID channelID : UInt32) (genUserKey : OrderGenerateKey) (userData : DscBlob)
  | queryTransReq (cltSessionID channelID : UInt32) (genUserKey : OrderGenerateKey) (userData : DscBlob)
  deriving DecidableEq

/-- The calls of `IClientSdkMsgCallback` that report an outcome. -/
inductive Rsp where
  | registUserRsp (returnCode : Int) (channelID : UInt32) (userKey cryptUserKey genUserKey : Blob)
  | launchTransRsp (returnCode : Int) (channelID : UInt32) (userKey transKey : Blob)
  | unRegistUserRsp (returnCode : Int) (channelID : UInt32)
  | getUserInfoRsp (returnCode : Int) (channelID : UInt32) (userKey userInfo : Blob)
  | getTransInfoRsp (returnCode : Int) (channelID : UInt32) (userKey transKey transInfo : Blob)
  deriving DecidableEq

inductive Out where
  | es (h : McpHandler) (m : EsMsg)
  | rsp (p : Ptr) (m : Rsp)
  | onReady
  | onAbnormal
  deriving DecidableEq

/-! ## Sessions -/

/-- `CRegistUserSession` and `CProposeSession`. `content` is `m_ccGenerateUserInfo`,
`m_transContent`; `encodedClientCryptKey` is used by the former only. -/
structure EndorseSession where
  kind : Kind
  channelID : UInt32
  nonce : DscBlob
  waitNotify : Bool
  completeRegistRsp : Bool := false
  succeedRspNum : UInt32 := 0
  submitEs : Option HPtr := none
  esSessionID : UInt32
  userKey : DscBlob
  envelopeKey : DscBlob
  content : DscBlob := emptyBlob
  encodedClientCryptKey : DscBlob := emptyBlob
  arrHandleSession : List HPtr := []

inductive QueryKind where
  | user
  | trans
  deriving DecidableEq

/-- `CQueryUserSession` and `CQueryTransactionSession`; `transKey` is used by the latter only. -/
structure QuerySession where
  kind : QueryKind
  channelID : UInt32
  nonce : DscBlob
  handleSession : HPtr
  userKey : DscBlob
  envelopeKey : DscBlob
  transKey : DscBlob

inductive Session where
  | endorse (S : EndorseSession)
  | query (S : QuerySession)

structure Core where
  heap : Ptr → Option Session := fun _ => none
  next : Ptr := 0
  armed : Ptr → Bool := fun _ => false
  mapEndorse : Kind → UInt32 → Option Ptr := fun _ _ => none
  mapQuery : QueryKind → UInt32 → Option Ptr := fun _ _ => none
  sessionID : UInt32 := 0

namespace Core
variable (c : Core)

def live (p : Ptr) : Bool := (c.heap p).isSome

/-- Takes the address of the object that a request makes; a request that makes none has
one all the same. -/
def reserve : Core := { c with next := c.next + 1 }

def put (p : Ptr) (x : Session) : Core := { c with heap := update c.heap p (some x) }

def free (p : Ptr) : Core := { c with heap := update c.heap p none }

/-- `SetDscTimer` and `ResetDscTimer` -/
def setDscTimer (p : Ptr) : Core := { c with armed := update c.armed p true }

def cancelDscTimer (p : Ptr) : Core := { c with armed := update c.armed p false }

def insertEndorse (k : Kind) (id : UInt32) (p : Ptr) : Core :=
  { c with mapEndorse := update c.mapEndorse k (update (c.mapEndorse k) id (some p)) }

def eraseEndorse (p : Ptr) : Core :=
  { c with mapEndorse := fun k id => if c.mapEndorse k id = some p then none else c.mapEndorse k id }

def insertQuery (k : QueryKind) (id : UInt32) (p : Ptr) : Core :=
  { c with mapQuery := update c.mapQuery k (update (c.mapQuery k) id (some p)) }

def eraseQueryKey (k : QueryKind) (id : UInt32) : Core :=
  { c with mapQuery := update c.mapQuery k (update (c.mapQuery k) id none) }

def eraseQuery (p : Ptr) : Core :=
  { c with mapQuery := fun k id => if c.mapQuery k id = some p then none else c.mapQuery k id }

end Core

structure State where
  core : Core := {}
  links : Links := {}
  conn : PeerConnSummary := {}

/-! ## The environment -/

/-- The functions the service calls on byte strings (`DSC::Encode` and `DSC::Decode` of the
wrappers are in `dsc`), and its configuration; `OnInit` refuses an endorse peer count that
is not positive. -/
structure Config where
  endorsePeerCount : Nat
  pos : 0 < endorsePeerCount
  lt : endorsePeerCount < 2 ^ 31
  peers : PeerList
  dsc : DscCodec
  vbhEncrypt : DscBlob → Blob → Option DscBlob
  vbhDecrypt : DscBlob → DscBlob → Option Blob
  encodeClientCryptKey : DscBlob → DscBlob → DscBlob → Option DscBlob
  /-- The key of the server, that of the client, the envelope key. -/
  decodeClientCryptKey : DscBlob → Option (DscBlob × DscBlob × DscBlob)

/-- `m_peerEnvelopeKey`, and `m_envelopeKey` of a registration: nothing sets them. -/
def peerEnvelopeKey : DscBlob := emptyBlob

/-- What members and local variables without an initial value happen to hold. -/
structure RawMemory where
  returnCode : Int := 0
  channelID : UInt32 := 0
  esSessionID : UInt32 := 0
  waitNotify : Bool := false
  userKey : Blob := []
  cryptUserKey : Blob := []
  transKey : Blob := []

structure RequestEnv where
  nonce : DscBlob := emptyBlob
  rand : Nat := 0
  sendErr : Nat → Bool := fun _ => false
  raw : RawMemory := {}

structure QueryEnv where
  nonce : DscBlob := emptyBlob
  encodeErr : Bool := false
  sendErr : Bool := false
  raw : RawMemory := {}

structure AnswerEnv where
  submitErr : Bool := false
  cancelErr : Bool := false

inductive Event where
  | registUserReq (req : RegistUserApiCltReq) (env : RequestEnv)
  | unRegistUserReq (channelID : UInt32)
  | proposeReq (req : ProposeApiCltReq) (env : RequestEnv)
  | queryUserReq (req : QueryUserInfoApiCltReq) (env : QueryEnv)
  | queryTransReq (req : QueryTransInfoApiCltReq) (env : QueryEnv)
  | registUserRsp (rsp : EndorseRsp) (h : McpHandler) (env : AnswerEnv)
  | submitRegistRsp (rsp : DataRsp) (h : McpHandler)
  | submitProposalRsp (rsp : EndorseRsp) (h : McpHandler) (env : AnswerEnv)
  | submitProposalTransRsp (rsp : DataRsp) (h : McpHandler)
  | queryUserRsp (rsp : DataRsp) (h : McpHandler)
  | queryTransRsp (rsp : DataRsp) (h : McpHandler)
  | timer (p : Ptr) (raw : RawMemory)
  | connected (h : McpHandler) (peerRand handleRand rawIndex : Nat)
  | networkError (h : McpHandler)

end VProtocol.Crypt
