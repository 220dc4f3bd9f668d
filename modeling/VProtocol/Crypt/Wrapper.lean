import VProtocol.Lib.Codec
import VProtocol.Common.Types

/-!
# The wrappers of what is encrypted

The classes of `vbh_comm_wrap_msg_def.h`: their members, and the members their
`DSC_BIND_ATTR` lists, in its order. A decode writes to the members that are there.
-/

namespace VProtocol.Crypt

abbrev DscBlob := { b : Blob // b.length < 2 ^ 32 }

/-- `DSC::CDscShortVector` -/
abbrev ShortVector (α : Type) := { l : List α // l.length < 2 ^ 16 }

structure VbhUser where
  version : UInt32
  genUserKey : OrderGenerateKey
  userInfo : DscBlob

structure VbhOnCreateInformation where
  key : DscBlob
  value : DscBlob

structure VbhInformation where
  version : UInt32
  key : DscBlob
  value : DscBlob

/-- The codecs of the members that `DSC_BIND_ATTR` lists, for the types DSC knows. -/
structure DscCodec where
  bool : Codec Bool
  int16 : Codec Int16
  uint16 : Codec UInt16
  uint32 : Codec UInt32
  uint64 : Codec UInt64
  blob : Codec DscBlob
  shortVector : ∀ α, Codec α → Codec (ShortVector α)

theorem empty_short : ([] : Blob).length < 2 ^ 32 := by decide

def emptyBlob : DscBlob := ⟨[], empty_short⟩

namespace DscCodec
variable (c : DscCodec)

def orderGenerateKey : Codec OrderGenerateKey :=
  .ofAttrs [c.uint16.attr (·.orderID) fun v k => { k with orderID := v },
      c.uint32.attr (·.sequenceNumber) fun v k => { k with sequenceNumber := v },
      c.uint64.attr (·.systemID) fun v k => { k with systemID := v }]
    ⟨0, 0, 0⟩ fun _ => rfl

def orderGenerateTransactionKey : Codec OrderGenerateTransactionKey :=
  .ofAttrs [c.uint16.attr (·.orderID) fun v k => { k with orderID := v },
      c.uint32.attr (·.sequenceNumber) fun v k => { k with sequenceNumber := v },
      c.uint32.attr (·.transIdx) fun v k => { k with transIdx := v },
      c.uint64.attr (·.blockID) fun v k => { k with blockID := v }]
    ⟨0, 0, 0, 0⟩ fun _ => rfl

def vbhUser : Codec VbhUser :=
  .ofAttrs [c.uint32.attr (·.version) fun v u => { u with version := v },
      c.orderGenerateKey.attr (·.genUserKey) fun v u => { u with genUserKey := v },
      c.blob.attr (·.userInfo) fun v u => { u with userInfo := v }]
    ⟨0, ⟨0, 0, 0⟩, emptyBlob⟩ fun _ => rfl

def vbhOnCreateInformation : Codec VbhOnCreateInformation :=
  .ofAttrs [c.blob.attr (·.key) fun v i => { i with key := v }, c.blob.attr (·.value) fun v i => { i with value := v }]
    ⟨emptyBlob, emptyBlob⟩ fun _ => rfl

def vbhInformation : Codec VbhInformation :=
  .ofAttrs [c.uint32.attr (·.version) fun v i => { i with version := v },
      c.blob.attr (·.key) fun v i => { i with key := v }, c.blob.attr (·.value) fun v i => { i with value := v }]
    ⟨0, emptyBlob, emptyBlob⟩ fun _ => rfl

end DscCodec

/-! ## The members of the wrappers -/

structure CryptRegistUserCltEsReqData where
  waitNotify : Bool
  submitNode : Bool
  ccID : Int16
  channelID : UInt32
  userKey : DscBlob
  userInfo : DscBlob
  nonce : DscBlob

structure CryptRegistUserEsCltRspData where
  allowRegist : Bool
  userInitInfo : DscBlob
  nonce : DscBlob
  svrPubCryptKey : DscBlob
  cltPriCryptKey : DscBlob
  envelopeKey : DscBlob

structure CryptQueryUserInfoRsp where
  userInfo : DscBlob
  nonce : DscBlob

structure CryptSubmitProposalCltEsReqData where
  waitNotify : Bool
  submitNode : Bool
  ccID : Int16
  action : UInt32
  proposal : DscBlob
  nonce : DscBlob

structure ServerCryptKey where
  cltPubKey : DscBlob
  svrPriKey : DscBlob
  envelopeKey : DscBlob

structure RoughProposalTransaction where
  proposal : DscBlob
  transProcessResult : DscBlob
  vecUpdateUser : ShortVector VbhUser
  vecOnCreateInfo : ShortVector VbhOnCreateInformation
  vecUpdateInfo : ShortVector VbhInformation

structure CryptSubmitProposalEsCltRspData where
  transContent : DscBlob
  nonce : DscBlob

structure CryptSubmitRegistTransactionEsCltRspData where
  genKey : OrderGenerateKey
  nonce : DscBlob

structure CryptSubmitProposalTransactionEsCltRspData where
  genTransKey : OrderGenerateTransactionKey
  nonce : DscBlob

structure CryptQueryTransactionReqData where
  nonce : DscBlob
  transKey : OrderGenerateTransactionKey

structure CryptQueryTransactionRspData where
  nonce : DscBlob
  transInfo : DscBlob

/-! ## What is encoded of them -/

inductive Wrapper
  | cryptRegistUserCltEsReqData
  | cryptRegistUserEsCltRspData
  | cryptQueryUserInfoRsp
  | cryptSubmitProposalCltEsReqData
  | serverCryptKey
  | roughProposalTransaction
  | cryptSubmitProposalEsCltRspData
  | cryptSubmitRegistTransactionEsCltRspData
  | cryptSubmitProposalTransactionEsCltRspData
  | cryptQueryTransactionReqData
  | cryptQueryTransactionRspData

def Wrapper.Members : Wrapper → Type
  | .cryptRegistUserCltEsReqData => CryptRegistUserCltEsReqData
  | .cryptRegistUserEsCltRspData => CryptRegistUserEsCltRspData
  | .cryptQueryUserInfoRsp => CryptQueryUserInfoRsp
  | .cryptSubmitProposalCltEsReqData => CryptSubmitProposalCltEsReqData
  | .serverCryptKey => ServerCryptKey
  | .roughProposalTransaction => RoughProposalTransaction
  | .cryptSubmitProposalEsCltRspData => CryptSubmitProposalEsCltRspData
  | .cryptSubmitRegistTransactionEsCltRspData => CryptSubmitRegistTransactionEsCltRspData
  | .cryptSubmitProposalTransactionEsCltRspData => CryptSubmitProposalTransactionEsCltRspData
  | .cryptQueryTransactionReqData => CryptQueryTransactionReqData
  | .cryptQueryTransactionRspData => CryptQueryTransactionRspData

section
variable (c : DscCodec)

/-- The wait-notify flag and the nonce are not in the list. -/
def CryptRegistUserCltEsReqData.attrs : List (Attr CryptRegistUserCltEsReqData) :=
  [c.bool.attr (·.submitNode) fun v d => { d with submitNode := v },
    c.int16.attr (·.ccID) fun v d => { d with ccID := v },
    c.uint32.attr (·.channelID) fun v d => { d with channelID := v },
    c.blob.attr (·.userKey) fun v d => { d with userKey := v },
    c.blob.attr (·.userInfo) fun v d => { d with userInfo := v }]

def CryptRegistUserEsCltRspData.attrs : List (Attr CryptRegistUserEsCltRspData) :=
  [c.bool.attr (·.allowRegist) fun v d => { d with allowRegist := v },
    c.blob.attr (·.userInitInfo) fun v d => { d with userInitInfo := v },
    c.blob.attr (·.nonce) fun v d => { d with nonce := v },
    c.blob.attr (·.svrPubCryptKey) fun v d => { d with svrPubCryptKey := v },
    c.blob.attr (·.cltPriCryptKey) fun v d => { d with cltPriCryptKey := v },
    c.blob.attr (·.envelopeKey) fun v d => { d with envelopeKey := v }]

def CryptQueryUserInfoRsp.attrs : List (Attr CryptQueryUserInfoRsp) :=
  [c.blob.attr (·.userInfo) fun v d => { d with userInfo := v }, c.blob.attr (·.nonce) fun v d => { d with nonce := v }]

def CryptSubmitProposalCltEsReqData.attrs : List (Attr CryptSubmitProposalCltEsReqData) :=
  [c.bool.attr (·.waitNotify) fun v d => { d with waitNotify := v },
    c.bool.attr (·.submitNode) fun v d => { d with submitNode := v },
    c.int16.attr (·.ccID) fun v d => { d with ccID := v },
    c.uint32.attr (·.action) fun v d => { d with action := v },
    c.blob.attr (·.proposal) fun v d => { d with proposal := v },
    c.blob.attr (·.nonce) fun v d => { d with nonce := v }]

def ServerCryptKey.attrs : List (Attr ServerCryptKey) :=
  [c.blob.attr (·.cltPubKey) fun v d => { d with cltPubKey := v },
    c.blob.attr (·.svrPriKey) fun v d => { d with svrPriKey := v },
    c.blob.attr (·.envelopeKey) fun v d => { d with envelopeKey := v }]

def RoughProposalTransaction.attrs : List (Attr RoughProposalTransaction) :=
  [c.blob.attr (·.proposal) fun v d => { d with proposal := v },
    c.blob.attr (·.transProcessResult) fun v d => { d with transProcessResult := v },
    (c.shortVector _ c.vbhUser).attr (·.vecUpdateUser) fun v d => { d with vecUpdateUser := v },
    (c.shortVector _ c.vbhOnCreateInformation).attr (·.vecOnCreateInfo) fun v d => { d with vecOnCreateInfo := v },
    (c.shortVector _ c.vbhInformation).attr (·.vecUpdateInfo) fun v d => { d with vecUpdateInfo := v }]

def CryptSubmitProposalEsCltRspData.attrs : List (Attr CryptSubmitProposalEsCltRspData) :=
  [c.blob.attr (·.transContent) fun v d => { d with transContent := v },
    c.blob.attr (·.nonce) fun v d => { d with nonce := v }]

def CryptSubmitRegistTransactionEsCltRspData.attrs : List (Attr CryptSubmitRegistTransactionEsCltRspData) :=
  [c.orderGenerateKey.attr (·.genKey) fun v d => { d with genKey := v },
    c.blob.attr (·.nonce) fun v d => { d with nonce := v }]

def CryptSubmitProposalTransactionEsCltRspData.attrs : List (Attr CryptSubmitProposalTransactionEsCltRspData) :=
  [c.orderGenerateTransactionKey.attr (·.genTransKey) fun v d => { d with genTransKey := v },
    c.blob.attr (·.nonce) fun v d => { d with nonce := v }]

def CryptQueryTransactionReqData.attrs : List (Attr CryptQueryTransactionReqData) :=
  [c.blob.attr (·.nonce) fun v d => { d with nonce := v },
    c.orderGenerateTransactionKey.attr (·.transKey) fun v d => { d with transKey := v }]

def CryptQueryTransactionRspData.attrs : List (Attr CryptQueryTransactionRspData) :=
  [c.blob.attr (·.nonce) fun v d => { d with nonce := v }, c.blob.attr (·.transInfo) fun v d => { d with transInfo := v }]

def Wrapper.attrs : (w : Wrapper) → List (Attr w.Members)
  | .cryptRegistUserCltEsReqData => CryptRegistUserCltEsReqData.attrs c
  | .cryptRegistUserEsCltRspData => CryptRegistUserEsCltRspData.attrs c
  | .cryptQueryUserInfoRsp => CryptQueryUserInfoRsp.attrs c
  | .cryptSubmitProposalCltEsReqData => CryptSubmitProposalCltEsReqData.attrs c
  | .serverCryptKey => ServerCryptKey.attrs c
  | .roughProposalTransaction => RoughProposalTransaction.attrs c
  | .cryptSubmitProposalEsCltRspData => CryptSubmitProposalEsCltRspData.attrs c
  | .cryptSubmitRegistTransactionEsCltRspData => CryptSubmitRegistTransactionEsCltRspData.attrs c
  | .cryptSubmitProposalTransactionEsCltRspData => CryptSubmitProposalTransactionEsCltRspData.attrs c
  | .cryptQueryTransactionReqData => CryptQueryTransactionReqData.attrs c
  | .cryptQueryTransactionRspData => CryptQueryTransactionRspData.attrs c

end

/-! ## The property -/

/-- `DSC::Encode` and `DSC::Decode` of a wrapper. -/
def Wrapper.encode (c : DscCodec) (w : Wrapper) (b : w.Members) : Blob := encodeAttrs (w.attrs c) b

def Wrapper.decode (c : DscCodec) (w : Wrapper) (target : w.Members) (bytes : Blob) : w.Members × Option Blob :=
  decodeAttrs (w.attrs c) target bytes

/-- What a wrapper holds is what `target` holds after a decode of its encoding. -/
def Carries (c : DscCodec) (w : Wrapper) (b target : w.Members) : Prop :=
  w.decode c target (w.encode c b) = (b, some [])

/-- The members that the encoding of a wrapper leaves out are the same before. -/
def Alike : (w : Wrapper) → w.Members → w.Members → Prop
  | .cryptRegistUserCltEsReqData, (b : CryptRegistUserCltEsReqData), (target : CryptRegistUserCltEsReqData) =>
    target.waitNotify = b.waitNotify ∧ target.nonce = b.nonce
  | _, _, _ => True

theorem copyAttrs_members (c : DscCodec) (w : Wrapper) (b target : w.Members) :
    copyAttrs (w.attrs c) b target = b ↔ Alike w b target := by
  cases w with
  | cryptRegistUserCltEsReqData =>
    obtain ⟨waitNotify, submitNode, ccID, channelID, userKey, userInfo, nonce⟩ := b
    obtain ⟨waitNotify', submitNode', ccID', channelID', userKey', userInfo', nonce'⟩ := target
    show (⟨waitNotify', submitNode, ccID, channelID, userKey, userInfo, nonce'⟩ : CryptRegistUserCltEsReqData) =
      ⟨waitNotify, submitNode, ccID, channelID, userKey, userInfo, nonce⟩ ↔ waitNotify' = waitNotify ∧ nonce' = nonce
    simp
  | cryptRegistUserEsCltRspData => exact ⟨fun _ => trivial, fun _ => rfl⟩
  | cryptQueryUserInfoRsp => exact ⟨fun _ => trivial, fun _ => rfl⟩
  | cryptSubmitProposalCltEsReqData => exact ⟨fun _ => trivial, fun _ => rfl⟩
  | serverCryptKey => exact ⟨fun _ => trivial, fun _ => rfl⟩
  | roughProposalTransaction => exact ⟨fun _ => trivial, fun _ => rfl⟩
  | cryptSubmitProposalEsCltRspData => exact ⟨fun _ => trivial, fun _ => rfl⟩
  | cryptSubmitRegistTransactionEsCltRspData => exact ⟨fun _ => trivial, fun _ => rfl⟩
  | cryptSubmitProposalTransactionEsCltRspData => exact ⟨fun _ => trivial, fun _ => rfl⟩
  | cryptQueryTransactionReqData => exact ⟨fun _ => trivial, fun _ => rfl⟩
  | cryptQueryTransactionRspData => exact ⟨fun _ => trivial, fun _ => rfl⟩

/-- A wrapper carries what it holds, but for the flag and the nonce of a registration, which
the target must hold already. -/
theorem carries_iff (c : DscCodec) (w : Wrapper) (b target : w.Members) : Carries c w b target ↔ Alike w b target := by
  unfold Carries Wrapper.decode Wrapper.encode
  have hdec := decodeAttrs_encodeAttrs (w.attrs c) b target []
  rw [List.append_nil] at hdec
  rw [hdec, Prod.mk.injEq, ← copyAttrs_members c w b target]
  exact and_iff_left rfl

theorem ofNat_toNat16 (n : UInt16) : UInt16.ofNat n.toNat = n := UInt16.ofNat_toNat
theorem ofNat_toNat32 (n : UInt32) : UInt32.ofNat n.toNat = n := UInt32.ofNat_toNat
theorem ofNat_toNat64 (n : UInt64) : UInt64.ofNat n.toNat = n := UInt64.ofNat_toNat
theorem blob_fits : 2 ^ 32 ≤ 256 ^ 4 := le_refl _

/-- Numbers with all their bytes, blobs and lists behind their length. -/
def plainCodec : DscCodec where
  bool := .word 1 (fun b => b.toNat) (fun n => n != 0) (fun b => by cases b <;> decide) fun b => by cases b <;> rfl
  int16 := .word 2 (fun i => i.toUInt16.toNat) (fun n => (UInt16.ofNat n).toInt16) (fun i => i.toUInt16.toNat_lt)
    fun _ => congrArg UInt16.toInt16 UInt16.ofNat_toNat
  uint16 := .word 2 UInt16.toNat UInt16.ofNat UInt16.toNat_lt ofNat_toNat16
  uint32 := .word 4 UInt32.toNat UInt32.ofNat UInt32.toNat_lt ofNat_toNat32
  uint64 := .word 8 UInt64.toNat UInt64.ofNat UInt64.toNat_lt ofNat_toNat64
  blob := .blob 4 blob_fits
  shortVector _ c := .list 2 (le_refl _) c

/-- The nonce of a registration does not reach the endorser, nor does the wish for a notice. -/
theorem nonce_lost :
    ∃ b target : CryptRegistUserCltEsReqData, ¬Carries plainCodec .cryptRegistUserCltEsReqData b target ∧
    (Wrapper.decode plainCodec .cryptRegistUserCltEsReqData target
      (Wrapper.encode plainCodec .cryptRegistUserCltEsReqData b)).1 = { b with waitNotify := false, nonce := emptyBlob } := by
  let b : CryptRegistUserCltEsReqData := ⟨true, true, 1, 1, ⟨[1], by decide⟩, ⟨[2], by decide⟩, ⟨[3], by decide⟩⟩
  let target : CryptRegistUserCltEsReqData := ⟨false, false, 0, 0, emptyBlob, emptyBlob, emptyBlob⟩
  have hdec := decodeAttrs_encodeAttrs (CryptRegistUserCltEsReqData.attrs plainCodec) b target []
  rw [List.append_nil] at hdec
  refine ⟨b, target, fun h => ?_, congrArg Prod.fst hdec⟩
  have hb : copyAttrs (CryptRegistUserCltEsReqData.attrs plainCodec) b target = b :=
    congrArg Prod.fst (hdec.symm.trans h)
  have hwait : false = true := congrArg CryptRegistUserCltEsReqData.waitNotify hb
  cases hwait

end VProtocol.Crypt
