import VProtocol.Common.Types

/-!
# The messages of the client service

What `CVbhClientService` receives from the upper layer and from the endorsers,
and what it sends to either. Register and propose have the same two phases
(endorse, then submit); where their messages carry the same members they are one
type with the phase's `Kind`.
-/

namespace VProtocol.Client

/-- A `CMcpHandler`: the connection object and the handle id it was connected with. -/
structure McpHandler where
  obj : Nat
  handleID : UInt32
  deriving DecidableEq

inductive Kind where
  | regist
  | propose
  deriving DecidableEq

/-! ## From the upper layer -/

structure RegistUserCltCltReq where
  waitNotify : Bool
  ccID : Int
  channelID : UInt32
  srcSessionID : UInt32
  userKey : Blob
  userInfo : Blob

structure ProposeCltCltReq where
  waitNotify : Bool
  ccID : Int
  actionID : UInt32
  srcSessionID : UInt32
  proposal : Blob
  cryptUserKey : Blob

structure QueryUserInfoCltCltReq where
  srcSessionID : UInt32
  cryptUserKey : Blob

structure QueryTransInfoCltCltReq where
  srcSessionID : UInt32
  cryptUserKey : Blob
  transKey : Blob

/-! ## From the endorsers -/

structure RegistUserEsCltRsp where
  allowRegist : Bool
  returnCode : Int
  cltSessionID : UInt32
  esSessionID : UInt32
  userInitInfo : Blob

structure SubmitProposalEsCltRsp where
  returnCode : Int
  esSessionID : UInt32
  cltSessionID : UInt32
  transContent : Blob

structure SubmitRegistTransactionEsCltRsp where
  returnCode : Int
  cltSessionID : UInt32
  genUserKey : OrderGenerateKey
  svrPubCryptKey : Blob
  cltPriCryptKey : Blob
  envelopeKey : Blob

structure SubmitProposalTransactionEsCltRsp where
  returnCode : Int
  cltSessionID : UInt32
  genTransKey : OrderGenerateTransactionKey

structure SubscribeTransactionEsCltNotify where
  transResult : Bool
  returnCode : Int
  cltSessionID : UInt32

structure QueryUserInfoEdsCltRsp where
  returnCode : Int
  sessionID : UInt32
  userInfo : Blob

structure QueryTransInfoEsCltRsp where
  cltSessionID : UInt32
  returnCode : Int
  transInfo : Blob

/-! ## To the endorsers -/

structure RegistUserCltEsReq where
  waitNotify : Bool
  submitNode : Bool
  ccID : Int
  cltSessionID : UInt32
  channelID : UInt32
  userKey : Blob
  userInfo : Blob
  deriving DecidableEq

structure SubmitProposalCltEsReq where
  waitNotify : Bool
  submitNode : Bool
  ccID : Int
  channelID : UInt32
  cltSessionID : UInt32
  action : UInt32
  proposal : Blob
  deriving DecidableEq

inductive EsMsg where
  | registUserReq (m : RegistUserCltEsReq)
  | submitProposalReq (m : SubmitProposalCltEsReq)
  | submitReq (k : Kind) (esSessionID : UInt32)
  | cancelReq (k : Kind) (esSessionID : UInt32)
  | queryUserReq (cltSessionID channelID : UInt32) (genUserKey : OrderGenerateKey)
  | queryTransReq (cltSessionID channelID : UInt32) (genTransKey : OrderGenerateTransactionKey)
  deriving DecidableEq

def EsMsg.request : EsMsg → Option (Kind × UInt32)
  | .registUserReq m => some (.regist, m.cltSessionID)
  | .submitProposalReq m => some (.propose, m.cltSessionID)
  | _ => none

/-- A verdict is a Submit or a Cancel; this is the endorser session it names. -/
def EsMsg.verdict : EsMsg → Option UInt32
  | .submitReq _ es => some es
  | .cancelReq _ es => some es
  | _ => none

/-! ## To the upper layer -/

inductive UpperMsg where
  | registUserRsp (allowRegist : Bool) (returnCode : Int) (srcSessionID : UInt32) (genUserKey cryptUserKey : Blob)
  | proposeRsp (returnCode : Int) (srcSessionID : UInt32) (genTransKey : Blob)
  | notify (k : Kind) (success : Bool) (returnCode : Int) (srcSessionID : UInt32)
  | queryUserRsp (returnCode : Int) (srcSessionID : UInt32) (userInfo : Blob)
  | queryTransRsp (returnCode : Int) (srcSessionID : UInt32) (transInfo : Blob)
  deriving DecidableEq

abbrev Ptr := Nat

/-- A message that was sent. A message to an endorser is kept with the session it
is about, which the message itself does not carry. -/
inductive Out where
  | es (h : McpHandler) (p : Ptr) (m : EsMsg)
  | upper (addr : MsgAddr) (m : UpperMsg)
  deriving DecidableEq

/-! ## What the service is driven by -/

/-- What the memory of a new session object happens to hold in the members that
have no initial value, and in `m_bAllowRegist` of an answer. -/
structure RawMemory where
  srcMsgAddr : MsgAddr := 0
  srcSessionID : UInt32 := 0
  cltSessionID : UInt32 := 0
  esSessionID : UInt32 := 0
  waitNotify : Bool := false
  channelID : UInt32 := 0
  allowRegist : Bool := false

/-- What the environment decides while a request is handled: the random draw,
which of the sends fail (`SendHtsMsg` is nonzero), and the raw memory. -/
structure RequestEnv where
  rand : Nat := 0
  sendErr : Nat → Bool := fun _ => false
  raw : RawMemory := {}

structure AnswerEnv where
  submitErr : Bool := false
  cancelErr : Bool := false

inductive Event where
  | registUserReq (req : RegistUserCltCltReq) (src : MsgAddr) (env : RequestEnv)
  | proposeReq (req : ProposeCltCltReq) (src : MsgAddr) (env : RequestEnv)
  | queryUserReq (req : QueryUserInfoCltCltReq) (src : MsgAddr) (sendErr : Bool)
  | queryTransReq (req : QueryTransInfoCltCltReq) (src : MsgAddr) (sendErr : Bool)
  | registUserRsp (rsp : RegistUserEsCltRsp) (h : McpHandler) (env : AnswerEnv)
  | submitProposalRsp (rsp : SubmitProposalEsCltRsp) (h : McpHandler) (env : AnswerEnv)
  | submitRegistRsp (rsp : SubmitRegistTransactionEsCltRsp) (h : McpHandler)
  | submitProposalTransRsp (rsp : SubmitProposalTransactionEsCltRsp) (h : McpHandler)
  | transNotify (k : Kind) (rsp : SubscribeTransactionEsCltNotify) (h : McpHandler)
  | queryUserRsp (rsp : QueryUserInfoEdsCltRsp) (h : McpHandler)
  | queryTransRsp (rsp : QueryTransInfoEsCltRsp) (h : McpHandler)
  | timer (p : Ptr)
  | connected (h : McpHandler) (peerRand handleRand rawIndex : Nat)
  | networkError (h : McpHandler)

end VProtocol.Client
