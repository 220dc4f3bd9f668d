import VProtocol.Idc.Client

/-!
# A client without a session

A client registers and logs in before it has a session. Whether the key of a request is that of the
peers or that of a session is asked on both sides by comparing the type with that of a public key
message, which comes before the login: the service looks a login up in its client sessions, which
only a login can add to.
-/

namespace VProtocol.Idc

open Crypt (DscBlob emptyBlob)

/-! ## The property -/

/-- A request that is sent without a session, with a payload that can be decoded. -/
inductive WellFormed (cfg : Config) (req : CommonApiCltReq) : Prop
  | register {m} (htype : req.type = registerUserMsg)
      (hinfo : decodeInfo (RegisterUserCltSrvReq.codec cfg.dsc) req.info = some m)
  | login {m} (htype : req.type = loginMsg)
      (hinfo : decodeInfo (LoginCltSrvReq.codec cfg.dsc) req.info = some m)

/-- The result is that of the handler of the request. -/
inductive Handled (cfg : Config) (req : CommonApiCltReq) (handleID : UInt32) (nonce : DscBlob)
    (clientSessionID : UInt32) (s : State) : State × List Out × Int → Prop
  | register {m} (htype : req.type = registerUserMsg)
      (hinfo : decodeInfo (RegisterUserCltSrvReq.codec cfg.dsc) req.info = some m) :
      Handled cfg req handleID nonce clientSessionID s
        (onTypeProcRegister cfg m req.reqID handleID nonce clientSessionID s)
  | login {m} (htype : req.type = loginMsg)
      (hinfo : decodeInfo (LoginCltSrvReq.codec cfg.dsc) req.info = some m) :
      Handled cfg req handleID nonce clientSessionID s
        (onTypeProcLogin m req.reqID handleID nonce clientSessionID s)

/-- The service takes the key that the client has taken, and the handler of the request is reached. -/
structure Bootstraps (cfg : Config) (c : Client) (s : State) (req : CommonApiCltReq) (env : ApiEnv) (handleID : UInt32)
    (raw : Int) : Prop where
  key : s.requestKey cfg (c.request cfg req env) = some (c.envelopeKey req.type)
  reached : Handled cfg req handleID env.nonce c.sessionID s (onHtsMsg cfg (c.request cfg req env) handleID raw s)

section
variable {cfg : Config} {c : Client} {s s' : State} {req : CommonApiCltReq} {env : ApiEnv} {info : DscBlob}


/-! ## One request -/

theorem login_not_register {type : UInt32} (h : type = loginMsg) : type ≠ registerUserMsg := by
  rw [h]
  decide

theorem typeProc_handled (hwell : WellFormed cfg req) (handleID : UInt32) (nonce : DscBlob) (sid : UInt32) (raw : Int)
    (s : State) :
    Handled cfg req handleID nonce sid s (typeProc cfg req.type req.reqID req.info handleID nonce sid raw s) ∧
      (typeProc cfg req.type req.reqID req.info handleID nonce sid raw s).2.2 = 0 := by
  unfold typeProc
  cases hwell with
  | register htype hinfo =>
    rw [if_pos htype, hinfo]
    exact ⟨.register htype hinfo, rfl⟩
  | login htype hinfo =>
    rw [if_neg (login_not_register htype), if_pos htype, hinfo]
    exact ⟨.login htype hinfo, rfl⟩

theorem reached_of_key (handleID : UInt32) (raw : Int)
    (hinv : ∀ key data c, cfg.vbhEncrypt key data = some c → cfg.vbhDecrypt key c = some data)
    (hwell : WellFormed cfg req)
    (hsent : cfg.vbhEncrypt (c.envelopeKey req.type) (encodeWrapper cfg req.info env.nonce) = some info)
    (hkey : s.requestKey cfg (c.request cfg req env) = some (c.envelopeKey req.type)) :
    Bootstraps cfg c s req env handleID raw := by
  refine ⟨hkey, ?_⟩
  obtain ⟨hhandled, hret⟩ := typeProc_handled hwell handleID env.nonce c.sessionID raw s
  rw [request_arrives handleID raw hinv hsent hkey, hret, if_pos rfl, ← hret]
  exact hhandled

theorem requestKey_sent
    (hsent : cfg.vbhEncrypt (c.envelopeKey req.type) (encodeWrapper cfg req.info env.nonce) = some info) :
    s.requestKey cfg (c.request cfg req env) =
      if req.type < pubCryptoKeyMsg then some cfg.peerEnvelopeKey
      else (s.mapClientSession c.sessionID).map (·.envelopeKey) := by
  rw [request_sent hsent]
  rfl

/-- A client that has no session is heard when it registers, and when it logs in while there
happens to be a session with the id 0 and the key of the client. -/
theorem bootstraps_iff (handleID : UInt32) (raw : Int)
    (hinv : ∀ key data c, cfg.vbhEncrypt key data = some c → cfg.vbhDecrypt key c = some data)
    (hnone : c.sessionID = 0) (hwell : WellFormed cfg req)
    (hsent : cfg.vbhEncrypt (c.envelopeKey req.type) (encodeWrapper cfg req.info env.nonce) = some info) :
    Bootstraps cfg c s req env handleID raw ↔
      req.type = registerUserMsg ∧ c.peerEnvelopeKey = cfg.peerEnvelopeKey ∨
      req.type = loginMsg ∧ ∃ C, s.mapClientSession 0 = some C ∧ C.envelopeKey = c.userEnvelopeKey := by
  have hkey : Bootstraps cfg c s req env handleID raw ↔
      s.requestKey cfg (c.request cfg req env) = some (c.envelopeKey req.type) :=
    ⟨fun h => h.key, reached_of_key handleID raw hinv hwell hsent⟩
  rw [hkey, requestKey_sent hsent, hnone]
  unfold Client.envelopeKey
  cases hwell with
  | register htype hinfo =>
    have hpeer : req.type < pubCryptoKeyMsg := by
      rw [htype]
      decide
    have hne : req.type ≠ loginMsg := by
      rw [htype]
      decide
    rw [if_pos hpeer, if_pos hpeer, Option.some.injEq]
    exact ⟨fun h => .inl ⟨htype, h.symm⟩, fun h => (h.resolve_right fun hlogin => hne hlogin.1).2.symm⟩
  | login htype hinfo =>
    rw [if_neg (login_not_peer htype), if_neg (login_not_peer htype), Option.map_eq_some_iff]
    exact ⟨fun h => .inr ⟨htype, h⟩, fun h => (h.resolve_left fun hreg => login_not_register htype hreg.1).2⟩

section

def newClient : Client where
  peerEnvelopeKey := tagged.peerEnvelopeKey
  userEnvelopeKey := emptyBlob

def firstLogin : CommonApiCltReq :=
  ⟨loginMsg, 77, blobOf ((LoginCltSrvReq.codec Crypt.plainCodec).encode ⟨5, blobOf [3, 4]⟩)⟩

def firstRegister : CommonApiCltReq :=
  ⟨registerUserMsg, 76, blobOf ((RegisterUserCltSrvReq.codec Crypt.plainCodec).encode ⟨5, blobOf [3, 4]⟩)⟩

def anApiEnv : ApiEnv := ⟨blobOf [6], ⟨0, 0, 0, emptyBlob⟩, false⟩

theorem firstLogin_wellFormed : WellFormed tagged firstLogin := .login (m := ⟨5, blobOf [3, 4]⟩) rfl rfl

theorem firstRegister_wellFormed : WellFormed tagged firstRegister := .register (m := ⟨5, blobOf [3, 4]⟩) rfl rfl

theorem bootstraps_register : Bootstraps tagged newClient (start fun _ => none) firstRegister anApiEnv 1 0 :=
  (bootstraps_iff 1 0 tagged_inverse rfl firstRegister_wellFormed rfl).mpr (.inl ⟨rfl, rfl⟩)

/-- The first login of a client is refused by a service that has no client sessions. -/
theorem login_unheard : ¬∀ (cfg : Config) (c : Client) (s : State) (req : CommonApiCltReq) (env : ApiEnv)
    (info : DscBlob) (handleID : UInt32) (raw : Int),
    (∀ key data c, cfg.vbhEncrypt key data = some c → cfg.vbhDecrypt key c = some data) →
      c.peerEnvelopeKey = cfg.peerEnvelopeKey → c.sessionID = 0 → WellFormed cfg req →
      cfg.vbhEncrypt (c.envelopeKey req.type) (encodeWrapper cfg req.info env.nonce) = some info →
      Bootstraps cfg c s req env handleID raw := by
  intro hall
  have h := hall tagged newClient (start fun _ => none) firstLogin anApiEnv _ 1 0 tagged_inverse rfl rfl
    firstLogin_wellFormed rfl
  cases h.key

end

end

end VProtocol.Idc
