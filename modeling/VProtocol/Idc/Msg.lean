import VProtocol.Crypt.Wrapper

/-!
# Messages of the identity chain

`idc_common_msg.h`, with what the service exchanges with the ledger. A request and its response
travel in a common message: a type, the request id and an encrypted wrapper of the payload with
the nonce of the request.
-/

namespace VProtocol.Idc

open Crypt (DscBlob DscCodec emptyBlob)

/-! ## Types and codes -/

def registerUserMsg : UInt32 := 3
def pubCryptoKeyMsg : UInt32 := 4
def loginMsg : UInt32 := 5
def queryUserInfoMsg : UInt32 := 7
def updateUserInfoMsg : UInt32 := 8

/-- `VBH::EN_OK_TYPE` as a code of the common response. -/
def okCode : UInt32 := 0

/-- `EN_IDC_ERROR_TIMEOUT` -/
def errorTimeout : UInt32 := 1

/-! ## Common messages -/

structure CommonCltSrvReq where
  type : UInt32
  reqID : UInt32
  sessionID : UInt32
  info : DscBlob

structure CommonSrvCltRsp where
  returnCode : UInt32
  type : UInt32
  reqID : UInt32
  info : DscBlob
  deriving DecidableEq

/-- `CIdcCommonReqDataWrapper` -/
structure ReqDataWrapper where
  data : DscBlob
  nonce : DscBlob

def ReqDataWrapper.attrs (c : DscCodec) : List (Attr ReqDataWrapper) :=
  [c.blob.attr (·.data) fun v w => { w with data := v }, c.blob.attr (·.nonce) fun v w => { w with nonce := v }]

/-! ## Payloads -/

structure RegisterUserCltSrvReq where
  id : UInt64
  info : DscBlob

structure RegisterUserSrvCltRsp where
  id : UInt64
  cryptoKey : DscBlob

structure LoginCltSrvReq where
  id : UInt64
  cryptoKey : DscBlob

structure LoginSrvCltRsp where
  token : UInt64
  sessionId : UInt32

structure QueryUserInfoCltSrvReq where
  sessionId : UInt32
  token : UInt64

structure QueryUserInfoSrvCltRsp where
  token : UInt64
  info : DscBlob

/-- `m_info` is not bound: it is not sent. -/
structure UpdateUserInfoCltSrvReq where
  sessionId : UInt32
  token : UInt64
  info : DscBlob

section
variable (c : DscCodec)

def RegisterUserCltSrvReq.attrs : List (Attr RegisterUserCltSrvReq) :=
  [c.uint64.attr (·.id) fun v m => { m with id := v }, c.blob.attr (·.info) fun v m => { m with info := v }]

def RegisterUserSrvCltRsp.attrs : List (Attr RegisterUserSrvCltRsp) :=
  [c.uint64.attr (·.id) fun v m => { m with id := v }, c.blob.attr (·.cryptoKey) fun v m => { m with cryptoKey := v }]

def LoginCltSrvReq.attrs : List (Attr LoginCltSrvReq) :=
  [c.uint64.attr (·.id) fun v m => { m with id := v }, c.blob.attr (·.cryptoKey) fun v m => { m with cryptoKey := v }]

def LoginSrvCltRsp.attrs : List (Attr LoginSrvCltRsp) :=
  [c.uint64.attr (·.token) fun v m => { m with token := v },
    c.uint32.attr (·.sessionId) fun v m => { m with sessionId := v }]

def QueryUserInfoCltSrvReq.attrs : List (Attr QueryUserInfoCltSrvReq) :=
  [c.uint32.attr (·.sessionId) fun v m => { m with sessionId := v },
    c.uint64.attr (·.token) fun v m => { m with token := v }]

def QueryUserInfoSrvCltRsp.attrs : List (Attr QueryUserInfoSrvCltRsp) :=
  [c.uint64.attr (·.token) fun v m => { m with token := v }, c.blob.attr (·.info) fun v m => { m with info := v }]

def UpdateUserInfoCltSrvReq.attrs : List (Attr UpdateUserInfoCltSrvReq) :=
  [c.uint32.attr (·.sessionId) fun v m => { m with sessionId := v },
    c.uint64.attr (·.token) fun v m => { m with token := v }]

def RegisterUserCltSrvReq.codec : Codec RegisterUserCltSrvReq :=
  .ofAttrs (RegisterUserCltSrvReq.attrs c) ⟨0, emptyBlob⟩ fun _ => rfl

def RegisterUserSrvCltRsp.codec : Codec RegisterUserSrvCltRsp :=
  .ofAttrs (RegisterUserSrvCltRsp.attrs c) ⟨0, emptyBlob⟩ fun _ => rfl

def LoginCltSrvReq.codec : Codec LoginCltSrvReq := .ofAttrs (LoginCltSrvReq.attrs c) ⟨0, emptyBlob⟩ fun _ => rfl

def LoginSrvCltRsp.codec : Codec LoginSrvCltRsp := .ofAttrs (LoginSrvCltRsp.attrs c) ⟨0, 0⟩ fun _ => rfl

def QueryUserInfoCltSrvReq.codec : Codec QueryUserInfoCltSrvReq :=
  .ofAttrs (QueryUserInfoCltSrvReq.attrs c) ⟨0, 0⟩ fun _ => rfl

def QueryUserInfoSrvCltRsp.codec : Codec QueryUserInfoSrvCltRsp :=
  .ofAttrs (QueryUserInfoSrvCltRsp.attrs c) ⟨0, emptyBlob⟩ fun _ => rfl

end

/-- The object that `Decode` reads, where it succeeds; what is behind it is not looked at. -/
def decodeInfo {σ : Type} (c : Codec σ) (info : DscBlob) : Option σ := (c.decode info.1).map Prod.fst

def decodeUpdate (c : DscCodec) (info : DscBlob) : Option UpdateUserInfoCltSrvReq :=
  match decodeAttrs (UpdateUserInfoCltSrvReq.attrs c) ⟨0, 0, emptyBlob⟩ info.1 with
  | (req, some _) => some req
  | (_, none) => none

/-! ## The ledger -/

/-- `VBH::CRegistUserCltCltReq` -/
structure RegistUserCltCltReq where
  waitNotify : Bool
  ccID : Int16
  channelID : UInt32
  srcSessionID : UInt32
  userKey : DscBlob
  userInfo : DscBlob
  deriving DecidableEq

/-- `VBH::CQueryUserInfoCltCltReq` -/
structure QueryUserInfoCltCltReq where
  srcSessionID : UInt32
  cryptUserKey : DscBlob
  deriving DecidableEq

/-- `VBH::CRegistUserCltCltRsp` -/
structure RegistUserCltCltRsp where
  returnCode : Int32
  srcSessionID : UInt32
  cryptUserKey : DscBlob

/-- `VBH::CQueryUserInfoCltCltRsp` -/
structure QueryUserInfoCltCltRsp where
  returnCode : Int32
  srcSessionID : UInt32
  userInfo : DscBlob

/-! ## Parameters -/

/-- `setBlob` is `CDscBlob::Set`, `userKey` what `CDscString` makes of a number that is appended to
the empty string. -/
structure Config where
  dsc : DscCodec
  setBlob : Blob → DscBlob
  userKey : UInt64 → DscBlob
  vbhEncrypt : DscBlob → Blob → Option DscBlob
  vbhDecrypt : DscBlob → DscBlob → Option Blob
  peerEnvelopeKey : DscBlob

end VProtocol.Idc
