import VProtocol.Idc.Client

/-!
# The formats of the messages

Every message class of `idc_common_msg.h` lists its members by hand where it binds them. A message
arrives as it was sent where all of them are listed; in the request to update a user's information
that information is not.
-/

namespace VProtocol.Idc

open Crypt (DscBlob DscCodec emptyBlob)

/-! ## Messages that no service of the model sends -/

/-- A pointer is taken for its eight bytes. -/
structure InitClientSdk where
  callBack : UInt64

structure RegisterUserSrvDbReq where
  id : UInt64
  info : DscBlob

structure RegisterUserDbSrvRsp where
  returnCode : UInt32

structure UpdateUserInfoSrvCltRsp where
  token : UInt64

structure UpdateTokenCltSrvReq where
  token : UInt64
  sessionId : UInt32

structure UpdateTokenSrvCltRsp where
  token : UInt64
  sessionId : UInt32

section
variable (c : DscCodec)

def CommonApiCltReq.attrs : List (Attr CommonApiCltReq) :=
  [c.uint32.attr (·.type) fun v m => { m with type := v }, c.uint32.attr (·.reqID) fun v m => { m with reqID := v },
    c.blob.attr (·.info) fun v m => { m with info := v }]

def CommonCltSrvReq.attrs : List (Attr CommonCltSrvReq) :=
  [c.uint32.attr (·.type) fun v m => { m with type := v }, c.uint32.attr (·.reqID) fun v m => { m with reqID := v },
    c.uint32.attr (·.sessionID) fun v m => { m with sessionID := v }, c.blob.attr (·.info) fun v m => { m with info := v }]

def CommonSrvCltRsp.attrs : List (Attr CommonSrvCltRsp) :=
  [c.uint32.attr (·.returnCode) fun v m => { m with returnCode := v },
    c.uint32.attr (·.type) fun v m => { m with type := v }, c.uint32.attr (·.reqID) fun v m => { m with reqID := v },
    c.blob.attr (·.info) fun v m => { m with info := v }]

def InitClientSdk.attrs : List (Attr InitClientSdk) := [c.uint64.attr (·.callBack) fun v m => { m with callBack := v }]

def RegisterUserSrvDbReq.attrs : List (Attr RegisterUserSrvDbReq) :=
  [c.uint64.attr (·.id) fun v m => { m with id := v }, c.blob.attr (·.info) fun v m => { m with info := v }]

def RegisterUserDbSrvRsp.attrs : List (Attr RegisterUserDbSrvRsp) :=
  [c.uint32.attr (·.returnCode) fun v m => { m with returnCode := v }]

def UpdateUserInfoSrvCltRsp.attrs : List (Attr UpdateUserInfoSrvCltRsp) :=
  [c.uint64.attr (·.token) fun v m => { m with token := v }]

def UpdateTokenCltSrvReq.attrs : List (Attr UpdateTokenCltSrvReq) :=
  [c.uint64.attr (·.token) fun v m => { m with token := v },
    c.uint32.attr (·.sessionId) fun v m => { m with sessionId := v }]

def UpdateTokenSrvCltRsp.attrs : List (Attr UpdateTokenSrvCltRsp) :=
  [c.uint64.attr (·.token) fun v m => { m with token := v },
    c.uint32.attr (·.sessionId) fun v m => { m with sessionId := v }]

end

/-! ## All of them -/

inductive MsgClass where
  | commonReqDataWrapper
  | commonApiCltReq
  | commonCltSrvReq
  | commonSrvCltRsp
  | initClientSdk
  | registerUserCltSrvReq
  | registerUserSrvCltRsp
  | registerUserSrvDbReq
  | registerUserDbSrvRsp
  | loginCltSrvReq
  | loginSrvCltRsp
  | queryUserInfoCltSrvReq
  | queryUserInfoSrvCltRsp
  | updateUserInfoCltSrvReq
  | updateUserInfoSrvCltRsp
  | updateTokenCltSrvReq
  | updateTokenSrvCltRsp

namespace MsgClass

/-- The objects of a class, with all their members. -/
def Obj : MsgClass → Type
  | commonReqDataWrapper => ReqDataWrapper
  | commonApiCltReq => CommonApiCltReq
  | commonCltSrvReq => CommonCltSrvReq
  | commonSrvCltRsp => CommonSrvCltRsp
  | initClientSdk => InitClientSdk
  | registerUserCltSrvReq => RegisterUserCltSrvReq
  | registerUserSrvCltRsp => RegisterUserSrvCltRsp
  | registerUserSrvDbReq => RegisterUserSrvDbReq
  | registerUserDbSrvRsp => RegisterUserDbSrvRsp
  | loginCltSrvReq => LoginCltSrvReq
  | loginSrvCltRsp => LoginSrvCltRsp
  | queryUserInfoCltSrvReq => QueryUserInfoCltSrvReq
  | queryUserInfoSrvCltRsp => QueryUserInfoSrvCltRsp
  | updateUserInfoCltSrvReq => UpdateUserInfoCltSrvReq
  | updateUserInfoSrvCltRsp => UpdateUserInfoSrvCltRsp
  | updateTokenCltSrvReq => UpdateTokenCltSrvReq
  | updateTokenSrvCltRsp => UpdateTokenSrvCltRsp

/-- `DSC_BIND_ATTR` -/
def attrs (c : DscCodec) : (k : MsgClass) → List (Attr k.Obj)
  | commonReqDataWrapper => ReqDataWrapper.attrs c
  | commonApiCltReq => CommonApiCltReq.attrs c
  | commonCltSrvReq => CommonCltSrvReq.attrs c
  | commonSrvCltRsp => CommonSrvCltRsp.attrs c
  | initClientSdk => InitClientSdk.attrs c
  | registerUserCltSrvReq => RegisterUserCltSrvReq.attrs c
  | registerUserSrvCltRsp => RegisterUserSrvCltRsp.attrs c
  | registerUserSrvDbReq => RegisterUserSrvDbReq.attrs c
  | registerUserDbSrvRsp => RegisterUserDbSrvRsp.attrs c
  | loginCltSrvReq => LoginCltSrvReq.attrs c
  | loginSrvCltRsp => LoginSrvCltRsp.attrs c
  | queryUserInfoCltSrvReq => QueryUserInfoCltSrvReq.attrs c
  | queryUserInfoSrvCltRsp => QueryUserInfoSrvCltRsp.attrs c
  | updateUserInfoCltSrvReq => UpdateUserInfoCltSrvReq.attrs c
  | updateUserInfoSrvCltRsp => UpdateUserInfoSrvCltRsp.attrs c
  | updateTokenCltSrvReq => UpdateTokenCltSrvReq.attrs c
  | updateTokenSrvCltRsp => UpdateTokenSrvCltRsp.attrs c

/-- The members that are not bound are the same in both. -/
def SameUnbound : (k : MsgClass) → k.Obj → k.Obj → Prop
  | updateUserInfoCltSrvReq, v, t => v.info = t.info
  | _, _, _ => True

/-- Read into `t`, the encoding of `v` gives `v`, with all its members. -/
def Restores (c : DscCodec) (k : MsgClass) (v t : k.Obj) : Prop :=
  ∀ rest, decodeAttrs (k.attrs c) t (encodeAttrs (k.attrs c) v ++ rest) = (v, some rest)

section
variable {c : DscCodec}

theorem restores_copy {k : MsgClass} {v t : k.Obj} : k.Restores c v t ↔ copyAttrs (k.attrs c) v t = v :=
  ⟨fun h => restored_iff.mp (h []), fun h _ => restored_iff.mpr h⟩

theorem copy_update (v t : UpdateUserInfoCltSrvReq) :
    copyAttrs (UpdateUserInfoCltSrvReq.attrs c) v t = { v with info := t.info } := rfl

/-- Each message is restored, but for the information of an update. -/
theorem restores_iff (c : DscCodec) (k : MsgClass) (v t : k.Obj) : k.Restores c v t ↔ k.SameUnbound v t := by
  rw [restores_copy]
  cases k with
  | updateUserInfoCltSrvReq =>
    refine (iff_of_eq (congrArg (· = v) (copy_update v t))).trans ⟨fun h => ?_, fun h => ?_⟩
    · exact (congrArg UpdateUserInfoCltSrvReq.info h).symm
    · exact congrArg (fun i => ({ v with info := i } : UpdateUserInfoCltSrvReq)) (Eq.symm h)
  | _ => exact iff_of_true rfl trivial

/-- An update with new information arrives without it. -/
theorem update_not_restored : ¬∀ (c : DscCodec) (k : MsgClass) (v t : k.Obj), k.Restores c v t := by
  intro hall
  have h := restores_copy.mp (hall Crypt.plainCodec updateUserInfoCltSrvReq ⟨9, 41, ⟨[7], by decide⟩⟩ ⟨0, 0, emptyBlob⟩)
  cases congrArg (fun m : UpdateUserInfoCltSrvReq => m.info.1) h

end

end MsgClass

end VProtocol.Idc
