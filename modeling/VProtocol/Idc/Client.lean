import VProtocol.Idc.Answers

/-!
# The client of the identity chain

`CIdcClientService` encrypts a request and keeps a session with its nonce, or would: it looks for
a peer in an array that nothing fills, and draws the nonce with a null seed. A response it hands
to the callback as it came: what the service of the other side has encrypted is not decrypted,
and the session is not looked at.
-/

namespace VProtocol.Idc

open Crypt (DscBlob emptyBlob)
open Function (update)

/-! ## State -/

structure CommonApiCltReq where
  type : UInt32
  reqID : UInt32
  info : DscBlob

/-- `CCommonSession`; its timer does nothing. -/
structure CommonSession where
  reqId : Int32
  type : Int32
  nonce : DscBlob

/-- `CIDcPeerSession`; a handler is its handle id. -/
structure PeerSession where
  mcpHandler : List (Option UInt32)
  handleIDNum : UInt32
  index : UInt32 := 0

/-- `CIDcKernelSession`. Nothing in the source assigns the array or its length. -/
structure KernelSession where
  parrPeerSession : List PeerSession := []
  peerSessionNum : UInt32 := 0
  index : UInt32 := 0

/-- The source leaves both keys empty; here they are any keys. -/
structure Client where
  peerEnvelopeKey : DscBlob
  userEnvelopeKey : DscBlob
  sessionID : UInt32 := 0
  callback : Bool := false
  mapCommonSession : UInt32 → Option CommonSession := fun _ => none
  kernelSession : KernelSession := {}

/-- The arguments of `CIdcMsgCallback::OnCommonRsp`. -/
structure CommonRsp where
  reqID : Int32
  returnCode : Int32
  type : Int32
  data : DscBlob
  deriving DecidableEq

inductive ClientFault where
  | nullCallback
  -- an array is read behind its end
  | outOfRange
  -- `rand_r` reads its seed
  | nullSeed
  deriving DecidableEq

/-- What the environment decides in a request: the nonce, what is in a message that is not assigned,
and whether the send fails. -/
structure ApiEnv where
  nonce : DscBlob
  raw : CommonCltSrvReq
  sendErr : Bool

namespace Client
variable (cfg : Config)

def envelopeKey (c : Client) (type : UInt32) : DscBlob :=
  if type < pubCryptoKeyMsg then c.peerEnvelopeKey else c.userEnvelopeKey

def request (c : Client) (req : CommonApiCltReq) (env : ApiEnv) : CommonCltSrvReq :=
  match cfg.vbhEncrypt (c.envelopeKey req.type) (encodeWrapper cfg req.info env.nonce) with
  | none => { env.raw with info := emptyBlob }
  | some info => ⟨req.type, req.reqID, c.sessionID, info⟩

/-- `CommonApiReq` behind the nonce: the request is sent, and its session is kept where the send succeeds. -/
def sendReq (c : Client) (req : CommonApiCltReq) (env : ApiEnv) : Client × List CommonCltSrvReq :=
  if env.sendErr then (c, [])
  else
    let S : CommonSession := ⟨req.reqID.toInt32, req.type.toInt32, env.nonce⟩
    ({ c with mapCommonSession := update c.mapCommonSession S.reqId.toUInt32 (some S) }, [c.request cfg req env])

def getMcpHandler (c : Client) : Except ClientFault (Client × Option UInt32) :=
  let k := c.kernelSession
  if k.peerSessionNum ≠ 0 then
    let i := if k.index ≥ k.peerSessionNum then 0 else k.index
    match k.parrPeerSession[i.toNat]? with
    | none => .error .outOfRange
    | some p =>
      let j := if p.index ≥ p.handleIDNum then 0 else p.index
      match p.mcpHandler[j.toNat]? with
      | none => .error .outOfRange
      | some h =>
        let peers := k.parrPeerSession.set i.toNat { p with index := j + 1 }
        .ok ({ c with kernelSession := { k with parrPeerSession := peers, index := i + 1 } }, h)
  else .ok (c, none)

/-- `ACE_OS::rand_r`; what it draws is `nonce`. -/
def randR (seed : Option UInt32) (nonce : DscBlob) : Except ClientFault DscBlob :=
  match seed with
  | none => .error .nullSeed
  | some _ => .ok nonce

/-- `CommonApiReq`, which returns 0 in any case. Its seed is the null pointer. -/
def commonApiReq (c : Client) (req : CommonApiCltReq) (env : ApiEnv) :
    Except ClientFault (Client × List CommonCltSrvReq) := do
  let r ← c.getMcpHandler
  match r.2 with
  | none => .ok (r.1, [])
  | some _ => do
    let nonce ← randR none env.nonce
    .ok (r.1.sendReq cfg req { env with nonce })

def onCommonRsp (c : Client) (reqID returnCode type : Int32) (data : DscBlob) : Except ClientFault (List CommonRsp) :=
  if c.callback then .ok [⟨reqID, returnCode, type, data⟩] else .error .nullCallback

/-- `OnHtsMsg(CIdcCommonSrvCltRsp)` -/
def onHtsMsg (c : Client) (rsp : CommonSrvCltRsp) : Except ClientFault (List CommonRsp) :=
  c.onCommonRsp rsp.reqID.toInt32 rsp.returnCode.toInt32 rsp.type.toInt32 rsp.info

end Client

/-! ## Payloads -/

/-- A request with this id is pending, and has this nonce. -/
def Client.Pending (c : Client) (reqID : UInt32) (nonce : DscBlob) : Prop :=
  ∃ S, c.mapCommonSession reqID = some S ∧ S.nonce = nonce

/-- The callback gets the payload when the nonce is that of the pending request, and nothing otherwise. -/
structure ArrivesAsSent (c : Client) (rsp : CommonSrvCltRsp) (data nonce : DscBlob) : Prop where
  delivered : c.Pending rsp.reqID nonce →
    c.onHtsMsg rsp = .ok [⟨rsp.reqID.toInt32, rsp.returnCode.toInt32, rsp.type.toInt32, data⟩]
  refused : ¬c.Pending rsp.reqID nonce → c.onHtsMsg rsp = .ok []

section
variable {cfg : Config} {c : Client} {code type : UInt32} {data key : DscBlob} {S : Session} {r : CommonSrvCltRsp}

theorem decodeWrapper_encode (data nonce : DscBlob) :
    decodeWrapper cfg (encodeWrapper cfg data nonce) = ⟨data, nonce⟩ := by
  have hdec := decodeAttrs_encodeAttrs (ReqDataWrapper.attrs cfg.dsc) ⟨data, nonce⟩ ⟨emptyBlob, emptyBlob⟩ []
  rw [List.append_nil] at hdec
  unfold decodeWrapper encodeWrapper
  rw [hdec]
  rfl

theorem request_sent {req : CommonApiCltReq} {env : ApiEnv} {info : DscBlob}
    (hsent : cfg.vbhEncrypt (c.envelopeKey req.type) (encodeWrapper cfg req.info env.nonce) = some info) :
    c.request cfg req env = ⟨req.type, req.reqID, c.sessionID, info⟩ := by
  unfold Client.request
  rw [hsent]

theorem request_arrives {req : CommonApiCltReq} {env : ApiEnv} {info : DscBlob} {s : State} (handleID : UInt32)
    (raw : Int) (hinv : ∀ key data c, cfg.vbhEncrypt key data = some c → cfg.vbhDecrypt key c = some data)
    (hsent : cfg.vbhEncrypt (c.envelopeKey req.type) (encodeWrapper cfg req.info env.nonce) = some info)
    (hkey : s.requestKey cfg (c.request cfg req env) = some (c.envelopeKey req.type)) :
    let r := typeProc cfg req.type req.reqID req.info handleID env.nonce c.sessionID raw s
    onHtsMsg cfg (c.request cfg req env) handleID raw s = (r.1, r.2.1, if r.2.2 = 0 then 0 else -1) := by
  rw [request_sent hsent] at hkey ⊢
  unfold onHtsMsg
  simp only [hkey, hinv _ _ _ hsent, decodeWrapper_encode]

theorem length_encodeWrapper (hblob : ∀ b, b.1.length ≤ cfg.dsc.blob.size b) (nonce : DscBlob) :
    data.1.length ≤ (encodeWrapper cfg data nonce).length := by
  unfold encodeWrapper
  rw [length_encodeAttrs]
  simp only [ReqDataWrapper.attrs, sizeAttrs, List.map_cons, List.sum_cons, Codec.attr]
  exact (hblob data).trans (Nat.le_add_right _ _)

theorem info_ne (hblob : ∀ b, b.1.length ≤ cfg.dsc.blob.size b)
    (htag : ∀ key data c, cfg.vbhEncrypt key data = some c → data.length < c.1.length)
    (h : sendClientMsg cfg code type data key S = some r) : r.info ≠ data := by
  intro heq
  have hlt := htag _ _ _ (sendClientMsg_some h).2.2.2
  rw [heq] at hlt
  exact absurd (length_encodeWrapper hblob S.nonce) (Nat.not_le.mpr hlt)

theorem onHtsMsg_ok {l : List CommonRsp} (h : c.onHtsMsg r = .ok l) :
    l = [⟨r.reqID.toInt32, r.returnCode.toInt32, r.type.toInt32, r.info⟩] := by
  unfold Client.onHtsMsg Client.onCommonRsp at h
  by_cases hcb : c.callback = true
  · rw [if_pos hcb] at h
    exact (Except.ok.inj h).symm
  · rw [if_neg hcb] at h
    cases h

/-- No response arrives as it was sent: the callback gets the encrypted wrapper, whether the request
is pending or not. -/
theorem never_arrives (hblob : ∀ b, b.1.length ≤ cfg.dsc.blob.size b)
    (htag : ∀ key data c, cfg.vbhEncrypt key data = some c → data.length < c.1.length) (c : Client)
    (h : sendClientMsg cfg code type data (c.envelopeKey type) S = some r) : ¬ArrivesAsSent c r data S.nonce := by
  intro harr
  by_cases hpending : c.Pending r.reqID S.nonce
  · have heq := onHtsMsg_ok (harr.delivered hpending)
    obtain ⟨-, -, -, hdata⟩ := CommonRsp.mk.inj (List.singleton_inj.mp heq)
    exact info_ne hblob htag h hdata.symm
  · cases onHtsMsg_ok (harr.refused hpending)

end

/-! ## A payload -/

section

/-- A client that has asked for nothing. -/
def aListener : Client where
  peerEnvelopeKey := tagged.peerEnvelopeKey
  userEnvelopeKey := emptyBlob
  callback := true

def aRegistration : Session := ⟨.register 5, 0, 0, 77, 1, blobOf [6]⟩

theorem tagged_longer (key : DscBlob) (data : Blob) (c : DscBlob) (h : tagged.vbhEncrypt key data = some c) :
    data.length < c.1.length := by
  simp only [tagged] at h
  by_cases hfit : (data.map (· ^^^ 0x5a) ++ aTag key).length < 2 ^ 32
  · rw [dif_pos hfit, Option.some.injEq] at h
    subst h
    simp [aTag]
  · rw [dif_neg hfit] at h
    cases h

theorem plain_size (b : DscBlob) : b.1.length ≤ tagged.dsc.blob.size b := Nat.le_add_left _ _

theorem never_arrives_seven : ∃ r,
    sendClientMsg tagged okCode registerUserMsg (blobOf [7]) tagged.peerEnvelopeKey aRegistration = some r ∧
    ¬ArrivesAsSent aListener r (blobOf [7]) aRegistration.nonce := by
  have hsend : sendClientMsg tagged okCode registerUserMsg (blobOf [7])
      (aListener.envelopeKey registerUserMsg) aRegistration = some _ := rfl
  exact ⟨_, hsend, never_arrives plain_size tagged_longer aListener hsend⟩

theorem tagged_inverse (key : DscBlob) (data : Blob) (c : DscBlob) (h : tagged.vbhEncrypt key data = some c) :
    tagged.vbhDecrypt key c = some data := by
  have hlen : (aTag key).length = 16 := by simp [aTag]
  have hxor : ∀ b : UInt8, b ^^^ 0x5a ^^^ 0x5a = b := by
    intro b
    rw [UInt8.xor_assoc, UInt8.xor_self, UInt8.xor_zero]
  simp only [tagged] at h ⊢
  by_cases hfit : (data.map (· ^^^ 0x5a) ++ aTag key).length < 2 ^ 32
  · rw [dif_pos hfit, Option.some.injEq] at h
    subst h
    simp only [List.length_append, hlen, Nat.add_sub_cancel, List.drop_left, List.take_left, if_true, List.map_map]
    simp [Function.comp_def, hxor]
  · rw [dif_neg hfit] at h
    cases h

/-- The callback gets a response although no request is pending. -/
theorem wrapper_delivered : ¬∀ (cfg : Config) (c : Client) (code type : UInt32) (data : DscBlob) (S : Session)
    (r : CommonSrvCltRsp), (∀ key data c, cfg.vbhEncrypt key data = some c → cfg.vbhDecrypt key c = some data) →
      sendClientMsg cfg code type data (c.envelopeKey type) S = some r → ArrivesAsSent c r data S.nonce := by
  intro hall
  obtain ⟨r, hsend⟩ : ∃ r, sendClientMsg tagged okCode registerUserMsg (blobOf [7])
      (aListener.envelopeKey registerUserMsg) aRegistration = some r := ⟨_, rfl⟩
  have hno : ¬aListener.Pending r.reqID aRegistration.nonce := by
    rintro ⟨S, hS, -⟩
    cases hS
  cases onHtsMsg_ok ((hall tagged aListener _ _ _ aRegistration r tagged_inverse hsend).refused hno)

end

end VProtocol.Idc
