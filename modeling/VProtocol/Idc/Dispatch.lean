import VProtocol.Idc.Client
import VProtocol.Idc.Once
import VProtocol.Idc.Tokens

/-!
# Responses at the caller

`CIdcMsgCallback` takes a response apart by its type. An answer to a query comes with the type of a
login, and so it goes through the handler of a login. The payload of a success is still encrypted, so
that a callback is called only when the cipher happens to be readable as a response.
-/

namespace VProtocol.Idc

open Crypt (DscBlob emptyBlob)

/-! ## The callback -/

/-- `CIdcClient` -/
structure IdcClient where
  sessionId : UInt32
  token : UInt64

/-- The callbacks of the application; a blob that is not there is a null pointer with length 0. -/
inductive Callback where
  | onRegisterUserRsp (reqID returnCode : Int32) (cryptoUserKey : Option DscBlob)
  | onLoginRsp (reqID returnCode : Int32)
  | onQueryUserInfoRsp (reqID returnCode : Int32) (userInfo : Option DscBlob)

def Callback.type : Callback → UInt32
  | .onRegisterUserRsp _ _ _ => registerUserMsg
  | .onLoginRsp _ _ => loginMsg
  | .onQueryUserInfoRsp _ _ _ => queryUserInfoMsg

def Callback.reqID : Callback → Int32
  | .onRegisterUserRsp reqID _ _ => reqID
  | .onLoginRsp reqID _ => reqID
  | .onQueryUserInfoRsp reqID _ _ => reqID

section
variable (cfg : Config)

/-- The macros of `BEGIN_CLIENT_BIND_TYPE_PROC`, with the handlers. -/
def clientTypeProc (type reqID : UInt32) (info : DscBlob) (k : IdcClient) : IdcClient × List Callback :=
  if type = registerUserMsg then
    match decodeInfo (RegisterUserSrvCltRsp.codec cfg.dsc) info with
    | none => (k, [])
    | some rsp => (k, [.onRegisterUserRsp reqID.toInt32 0 (some rsp.cryptoKey)])
  else if type = loginMsg then
    match decodeInfo (LoginSrvCltRsp.codec cfg.dsc) info with
    | none => (k, [])
    | some rsp => ({ sessionId := rsp.sessionId, token := rsp.token }, [.onLoginRsp reqID.toInt32 0])
  else if type = queryUserInfoMsg then
    match decodeInfo (QueryUserInfoSrvCltRsp.codec cfg.dsc) info with
    | none => (k, [])
    | some rsp => (k, [.onQueryUserInfoRsp reqID.toInt32 0 (some rsp.info)])
  else (k, [])

/-- `CIdcMsgCallback::OnCommonRsp` -/
def onCommonRsp (d : CommonRsp) (k : IdcClient) : IdcClient × List Callback :=
  if d.returnCode = 0 then clientTypeProc cfg d.type.toUInt32 d.reqID.toUInt32 d.data k
  else if d.type.toUInt32 = registerUserMsg then (k, [.onRegisterUserRsp d.reqID d.returnCode none])
  else if d.type.toUInt32 = loginMsg then (k, [.onLoginRsp d.reqID d.returnCode])
  else if d.type.toUInt32 = queryUserInfoMsg then (k, [.onQueryUserInfoRsp d.reqID d.returnCode none])
  else (k, [])

def readable (type : UInt32) (info : DscBlob) : Bool :=
  if type = registerUserMsg then (decodeInfo (RegisterUserSrvCltRsp.codec cfg.dsc) info).isSome
  else if type = loginMsg then (decodeInfo (LoginSrvCltRsp.codec cfg.dsc) info).isSome
  else if type = queryUserInfoMsg then (decodeInfo (QueryUserInfoSrvCltRsp.codec cfg.dsc) info).isSome
  else false

/-! ## The property -/

/-- One callback of the type is called, with the id; only a login changes the session id and the token. -/
def Called (type reqID : UInt32) (k : IdcClient) (x : IdcClient × List Callback) : Prop :=
  ∃ cb, x.2 = [cb] ∧ cb.type = type ∧ cb.reqID = reqID.toInt32 ∧ (type ≠ loginMsg → x.1 = k)

/-- A response to a request of this type and id has both, and calls its callback. -/
structure Dispatched (type reqID : UInt32) (r : CommonSrvCltRsp) : Prop where
  sameType : r.type = type
  sameID : r.reqID = reqID
  called : ∀ c : Client, c.callback = true →
    ∃ d, c.onHtsMsg r = .ok [d] ∧ ∀ k, Called type reqID k (onCommonRsp cfg d k)

/-- Every response is dispatched to the request that opened its session. -/
def DispatchRight (tr : History) (en : Entry State Event Out) : Prop :=
  ∀ p handleID r, .hts p handleID r ∈ en.outs → ∃ S, en.pre.heap p = some S ∧
    ∃ en₀ ∈ tr, ∃ req, OpenedBy cfg p S en₀ req ∧ Dispatched cfg req.type req.reqID r

/-- What `SendClientMsg` encrypts can be read as a response of the type all the same. -/
def ReadableSent (type : UInt32) (data key nonce : DscBlob) : Prop :=
  ∀ info ∈ cfg.vbhEncrypt key (encodeWrapper cfg data nonce), readable cfg type info = true

def Session.ReadableRegist (rsp : RegistUserCltCltRsp) (S : Session) : Prop :=
  match S.detail with
  | .register uid =>
    rsp.returnCode = 0 → ReadableSent cfg registerUserMsg (registerData cfg uid rsp) cfg.peerEnvelopeKey S.nonce
  | .login _ _ => True
  | .query => True

def ReadableLogin (r : Res (Option ClientSession)) (key nonce : DscBlob) : Prop :=
  match r with
  | .error _ => True
  | .ok none => ReadableSent cfg loginMsg emptyBlob cfg.peerEnvelopeKey nonce
  | .ok (some C) => ReadableSent cfg loginMsg (loginData cfg C) key nonce

def Session.ReadableQuery (m : UInt32 → Option ClientSession) (rsp : QueryUserInfoCltCltRsp) (env : AnswerEnv)
    (S : Session) : Prop :=
  match S.detail with
  | .register _ => True
  | .login _ key => ReadableLogin cfg (loginSession rsp env m) key S.nonce
  | .query => ∀ C ∈ m S.sessionId, cfg.vbhEncrypt C.envelopeKey (encodeWrapper cfg
      (if rsp.returnCode = 0 then queryData cfg (C.maybeTokenExpire env) rsp else emptyBlob) S.nonce) = none

/-- No query is answered, and a success can be read without decrypting it. -/
def ReadableAnswers (s : State) : Event → Prop
  | .registUserRsp rsp => ∀ p ∈ s.mapReqSession rsp.srcSessionID, ∀ S ∈ s.heap p, S.ReadableRegist cfg rsp
  | .queryUserInfoRsp rsp env => ∀ p ∈ s.mapReqSession rsp.srcSessionID, ∀ S ∈ s.heap p,
      S.ReadableQuery cfg s.mapClientSession rsp env
  | _ => True

end

section
variable {cfg : Config} {s s' : State} {e : Event} {outs : List Out} {tr : History} {p q : Ptr} {S : Session}
  {type code reqID : UInt32} {data key : DscBlob} {r : CommonSrvCltRsp} {k : IdcClient}

/-! ## One response -/

theorem clientTypeProc_called (d : Detail) :
    Called d.type reqID k (clientTypeProc cfg d.type reqID r.info k) ↔ readable cfg d.type r.info = true := by
  unfold Called clientTypeProc readable
  cases d with
  | register uid =>
    simp only [Detail.type, if_true]
    cases decodeInfo (RegisterUserSrvCltRsp.codec cfg.dsc) r.info with
    | none => simp
    | some rsp => simp [Callback.type, Callback.reqID]
  | login uid key =>
    have hreg : loginMsg ≠ registerUserMsg := by decide
    simp only [Detail.type, if_neg hreg, if_true]
    cases decodeInfo (LoginSrvCltRsp.codec cfg.dsc) r.info with
    | none => simp
    | some rsp => simp [Callback.type, Callback.reqID]
  | query =>
    have hreg : queryUserInfoMsg ≠ registerUserMsg := by decide
    have hlog : queryUserInfoMsg ≠ loginMsg := by decide
    simp only [Detail.type, if_neg hreg, if_neg hlog, if_true]
    cases decodeInfo (QueryUserInfoSrvCltRsp.codec cfg.dsc) r.info with
    | none => simp
    | some rsp => simp [Callback.type, Callback.reqID]

theorem onCommonRsp_failed (d : Detail) (hcode : code.toInt32 ≠ 0) (data : DscBlob) :
    Called d.type reqID k (onCommonRsp cfg ⟨reqID.toInt32, code.toInt32, d.type.toInt32, data⟩ k) := by
  unfold Called onCommonRsp
  simp only [if_neg hcode, UInt32.toUInt32_toInt32]
  cases d with
  | register uid => simp [Detail.type, Callback.type, Callback.reqID]
  | login uid key =>
    have hreg : loginMsg ≠ registerUserMsg := by decide
    simp [Detail.type, Callback.type, Callback.reqID, hreg]
  | query =>
    have hreg : queryUserInfoMsg ≠ registerUserMsg := by decide
    have hlog : queryUserInfoMsg ≠ loginMsg := by decide
    simp [Detail.type, Callback.type, Callback.reqID, hreg, hlog]

theorem toInt32_eq_zero : code.toInt32 = 0 ↔ code = okCode := by
  refine ⟨fun h => ?_, fun h => ?_⟩
  · have hback := congrArg Int32.toUInt32 h
    rw [UInt32.toUInt32_toInt32] at hback
    exact hback
  · rw [h]
    rfl

theorem toUInt32_eq_okCode {i : Int32} : i.toUInt32 = okCode ↔ i = 0 := by
  rw [← toInt32_eq_zero, Int32.toInt32_toUInt32]

theorem dispatched_iff (d : Detail) (htype : r.type = d.type) (hid : r.reqID = reqID) :
    Dispatched cfg d.type reqID r ↔ (r.returnCode = okCode → readable cfg d.type r.info = true) := by
  have honHts : ∀ c : Client, c.callback = true →
      c.onHtsMsg r = .ok [⟨reqID.toInt32, r.returnCode.toInt32, d.type.toInt32, r.info⟩] := by
    intro c hc
    unfold Client.onHtsMsg Client.onCommonRsp
    rw [if_pos hc, hid, htype]
  have hiff : Dispatched cfg d.type reqID r ↔
      ∀ k, Called d.type reqID k (onCommonRsp cfg ⟨reqID.toInt32, r.returnCode.toInt32, d.type.toInt32, r.info⟩ k) := by
    constructor
    · intro h k
      obtain ⟨m, hm, hcalled⟩ := h.called { peerEnvelopeKey := emptyBlob, userEnvelopeKey := emptyBlob, callback := true } rfl
      rw [honHts _ rfl] at hm
      rw [← List.singleton_inj.mp (Except.ok.inj hm)] at hcalled
      exact hcalled k
    · exact fun h => ⟨htype, hid, fun c hc => ⟨_, honHts c hc, h⟩⟩
  rw [hiff]
  by_cases hcode : r.returnCode = okCode
  · have hproc : ∀ k, onCommonRsp cfg ⟨reqID.toInt32, r.returnCode.toInt32, d.type.toInt32, r.info⟩ k =
        clientTypeProc cfg d.type reqID r.info k := by
      intro k
      unfold onCommonRsp
      simp only [if_pos (toInt32_eq_zero.mpr hcode), UInt32.toUInt32_toInt32]
    simp only [hproc, clientTypeProc_called]
    exact ⟨fun h _ => h ⟨0, 0⟩, fun h _ => h hcode⟩
  · simp only [hcode, false_implies, iff_true]
    exact fun k => onCommonRsp_failed d (fun h => hcode (toInt32_eq_zero.mp h)) r.info

/-! ## One step -/

theorem dispatchRight_quiet (h : ∀ p handleID r, .hts p handleID r ∉ outs) : DispatchRight cfg tr ⟨s, e, outs⟩ :=
  fun p handleID r hmem => absurd hmem (h p handleID r)

theorem dispatchRight_reply (ht : Traced cfg tr s) (hS : s.heap p = some S) :
    DispatchRight cfg tr ⟨s, e, reply cfg code type data key p S⟩ ↔
      ∀ info ∈ cfg.vbhEncrypt key (encodeWrapper cfg data S.nonce),
        type = S.detail.type ∧ (code = okCode → readable cfg type info = true) := by
  constructor
  · intro h info hinfo
    have hmem : .hts p S.handleID ⟨code, type, S.clientReqID, info⟩ ∈ reply cfg code type data key p S := by
      refine mem_reply.mpr ⟨rfl, rfl, ?_⟩
      unfold sendClientMsg
      rw [Option.mem_def.mp hinfo, Option.map_some]
    obtain ⟨S', hS', en₀, -, req, ⟨-, handleID, raw, o, -, hopens, -⟩, hright⟩ := h p S.handleID _ hmem
    obtain rfl := Option.some.inj (hS.symm.trans hS')
    have htype : type = S.detail.type := hright.sameType.trans hopens.session.1.symm
    rw [← hopens.session.1] at hright
    subst htype
    exact ⟨rfl, (dispatched_iff S.detail rfl hright.sameID).mp hright⟩
  · intro h q handleID r hmem
    rw [mem_reply] at hmem
    obtain ⟨rfl, -, hsend⟩ := hmem
    obtain ⟨rfl, rfl, hid, hinfo⟩ := sendClientMsg_some hsend
    obtain ⟨htype, hread⟩ := h r.info hinfo
    obtain ⟨en₀, hen₀, req, hopened, -⟩ := ht.origin q S hS
    obtain ⟨-, handleID', raw, o, -, hopens, -⟩ := id hopened
    refine ⟨S, hS, en₀, hen₀, req, hopened, ?_⟩
    rw [← hopens.session.1]
    rw [htype] at hread
    exact (dispatched_iff S.detail htype (hid.trans hopens.session.2.2.2)).mpr hread

theorem readableAnswers_found {rsp : QueryUserInfoCltCltRsp} {env : AnswerEnv} (hf : s.Finds rsp.srcSessionID p S) :
    ReadableAnswers cfg s (.queryUserInfoRsp rsp env) ↔ S.ReadableQuery cfg s.mapClientSession rsp env := by
  simp [ReadableAnswers, hf.1, hf.2]

theorem dispatchRight_other (ht : Traced cfg tr s) (hS : s.heap p = some S) (htype : type ≠ S.detail.type) :
    DispatchRight cfg tr ⟨s, e, reply cfg code type data key p S⟩ ↔
      cfg.vbhEncrypt key (encodeWrapper cfg data S.nonce) = none := by
  rw [dispatchRight_reply ht hS, Option.eq_none_iff_forall_not_mem]
  exact forall₂_congr fun info _ => iff_of_false (fun h => htype h.1) id

theorem dispatchRight_same (ht : Traced cfg tr s) (hS : s.heap p = some S) (htype : type = S.detail.type) :
    DispatchRight cfg tr ⟨s, e, reply cfg code type data key p S⟩ ↔
      (code = okCode → ReadableSent cfg type data key S.nonce) := by
  rw [dispatchRight_reply ht hS]
  exact ⟨fun h hcode info hinfo => (h info hinfo).2 hcode, fun h info hinfo => ⟨htype, fun hcode => h hcode info hinfo⟩⟩

theorem dispatchRight_iff (ht : Traced cfg tr s) (h : Turn cfg s e s' outs) :
    DispatchRight cfg tr ⟨s, e, outs⟩ ↔ ReadableAnswers cfg s e := by
  cases h with
  | refused => exact iff_of_true (dispatchRight_quiet (by simp)) trivial
  | opened h =>
    refine iff_of_true (dispatchRight_quiet fun p handleID r hmem => ?_) trivial
    rw [← List.mem_singleton.mp hmem] at h
    exact opens_hts h
  | strayRegist h => exact iff_of_true (dispatchRight_quiet (by simp)) (by simp [ReadableAnswers, h])
  | strayQuery h => exact iff_of_true (dispatchRight_quiet (by simp)) (by simp [ReadableAnswers, h])
  | @crossRegist rsp p S hf hk =>
    refine iff_of_true (dispatchRight_quiet (by simp)) ?_
    cases hd : S.detail with
    | register uid => exact absurd hd (hk uid)
    | login uid key => simp [ReadableAnswers, hf.1, hf.2, Session.ReadableRegist, hd]
    | query => simp [ReadableAnswers, hf.1, hf.2, Session.ReadableRegist, hd]
  | crossQuery hf hk =>
    refine iff_of_true (dispatchRight_quiet (by simp)) ((readableAnswers_found hf).mpr ?_)
    unfold Session.ReadableQuery
    simp only [hk]
  | @registered rsp p S uid hf hk =>
    have htype : registerUserMsg = S.detail.type := by
      rw [hk]
      rfl
    rw [dispatchRight_same ht hf.2 htype, toUInt32_eq_okCode]
    simp [ReadableAnswers, hf.1, hf.2, Session.ReadableRegist, hk]
  | @loggedIn rsp env p S uid key C hf hk hC =>
    have htype : loginMsg = S.detail.type := by
      rw [hk]
      rfl
    rw [dispatchRight_same ht hf.2 htype, readableAnswers_found hf]
    unfold Session.ReadableQuery
    simp [hk, hC, ReadableLogin]
  | @loginFailed rsp env p S uid key hf hk hC =>
    have htype : loginMsg = S.detail.type := by
      rw [hk]
      rfl
    rw [dispatchRight_same ht hf.2 htype, readableAnswers_found hf]
    unfold Session.ReadableQuery
    simp [hk, hC, ReadableLogin]
  | queryLost hf hk hC =>
    refine iff_of_true (dispatchRight_quiet (by simp)) ((readableAnswers_found hf).mpr ?_)
    unfold Session.ReadableQuery
    simp [hk, hC]
  | @queried rsp env p S C hf hk hC hok =>
    have htype : loginMsg ≠ S.detail.type := by
      rw [hk]
      decide
    rw [dispatchRight_other ht hf.2 htype, readableAnswers_found hf, C.maybeTokenExpire_envelopeKey]
    unfold Session.ReadableQuery
    simp [hk, hC, hok]
  | @queryFailed rsp env p S C hf hk hC hno =>
    have htype : loginMsg ≠ S.detail.type := by
      rw [hk]
      decide
    rw [dispatchRight_other ht hf.2 htype, readableAnswers_found hf]
    unfold Session.ReadableQuery
    simp [hk, hC, hno]
  | late h => exact iff_of_true (dispatchRight_quiet (by simp)) trivial
  | timedOut harmed hS =>
    refine iff_of_true ((dispatchRight_same ht hS rfl).mpr fun h => ?_) trivial
    exact absurd h (by decide)

/-! ## Runs -/

/-- In a run every response is dispatched to the caller that asked exactly when no query is
answered, and each success can be read without decrypting it. -/
theorem dispatch_iff {m : UInt32 → Option ClientSession} (hr : Run (step cfg) (start m) anyStep tr s) :
    (∀ tr₁ en tr₂, tr = tr₁ ++ en :: tr₂ → DispatchRight cfg tr₁ en) ↔ Each (fun _ s e => ReadableAnswers cfg s e) tr :=
  hr.each_iff fun _ _ _ _ _ hr _ _ hst => dispatchRight_iff (Traced.of_run hr) (step_turn hst)

end

/-! ## Three requests -/

section

instance (type : UInt32) (data key nonce : DscBlob) : Decidable (ReadableSent tagged type data key nonce) :=
  inferInstanceAs (Decidable (∀ info ∈ _, _ = true))

instance (rsp : RegistUserCltCltRsp) (S : Session) : Decidable (S.ReadableRegist tagged rsp) :=
  match S with
  | ⟨.register _, _, _, _, _, _⟩ => inferInstanceAs (Decidable (_ = _ → ReadableSent ..))
  | ⟨.login _ _, _, _, _, _, _⟩ => isTrue trivial
  | ⟨.query, _, _, _, _, _⟩ => isTrue trivial

instance (r : Res (Option ClientSession)) (key nonce : DscBlob) : Decidable (ReadableLogin tagged r key nonce) :=
  match r with
  | .error _ => isTrue trivial
  | .ok none => inferInstanceAs (Decidable (ReadableSent ..))
  | .ok (some _) => inferInstanceAs (Decidable (ReadableSent ..))

instance (m : UInt32 → Option ClientSession) (rsp : QueryUserInfoCltCltRsp) (env : AnswerEnv) (S : Session) :
    Decidable (S.ReadableQuery tagged m rsp env) :=
  match S with
  | ⟨.register _, _, _, _, _, _⟩ => isTrue trivial
  | ⟨.login _ _, _, _, _, _, _⟩ => inferInstanceAs (Decidable (ReadableLogin ..))
  | ⟨.query, _, _, _, _, _⟩ => inferInstanceAs (Decidable (∀ C ∈ _, _ = none))

instance (s : State) (e : Event) : Decidable (ReadableAnswers tagged s e) :=
  match e with
  | .registUserRsp _ => inferInstanceAs (Decidable (∀ p ∈ _, ∀ S ∈ _, Session.ReadableRegist ..))
  | .queryUserInfoRsp _ _ => inferInstanceAs (Decidable (∀ p ∈ _, ∀ S ∈ _, Session.ReadableQuery ..))
  | .commonReq _ _ _ | .timer _ => isTrue trivial

/-- A registration that the ledger refuses, one that its timer ends, and a login. -/
def dispatchRun : List Event :=
  [.commonReq registerReq 1 0, .registUserRsp ⟨-3, 0, emptyBlob⟩, .commonReq registerReq 1 0, .commonReq loginReq 1 0,
    .timer 1]

theorem dispatched_two : ∃ tr s, Run (step tagged) (start fun _ => none) anyStep tr s ∧
    tr.map (·.outs.length) = [1, 1, 1, 0, 1] ∧
    ∀ tr₁ en tr₂, tr = tr₁ ++ en :: tr₂ → DispatchRight tagged tr₁ en := by
  have hr : Run (step tagged) (start fun _ => none) anyStep _ _ := run_trace_any dispatchRun
  have hread : Run (step tagged) (start fun _ => none) (fun _ s e => ReadableAnswers tagged s e) _ _ :=
    run_of_meets _ _ _ dispatchRun (by decide)
  exact ⟨_, _, hr, by decide, (dispatch_iff hr).mpr hread.each⟩

theorem not_dispatched {m : UInt32 → Option ClientSession} (evs : List Event) (i : Nat)
    (h : (trace (step tagged) (start m) evs)[i]?.map (fun en => decide (ReadableAnswers tagged en.pre en.ev)) =
      some false) :
    ∃ tr₁ en tr₂, trace (step tagged) (start m) evs = tr₁ ++ en :: tr₂ ∧ ¬DispatchRight tagged tr₁ en := by
  obtain ⟨en, hsplit, -, hno⟩ := split_map _ i (fun en => decide (ReadableAnswers tagged en.pre en.ev)) false h
  have hr : Run (step tagged) (start m) anyStep _ _ := run_trace_any evs
  obtain ⟨s', hr₁, -, hst⟩ := hr.entry hsplit
  refine ⟨_, en, _, hsplit, fun hright => of_decide_eq_false hno ?_⟩
  exact (dispatchRight_iff (Traced.of_run hr₁) (step_turn hst)).mp hright

/-- A registration that succeeds calls nobody; and a query, of a client session if there were one, is
answered as a login. -/
theorem misdispatched :
    (∃ tr₁ en tr₂, trace (step tagged) (start fun _ => none)
      [.commonReq registerReq 1 0, .registUserRsp ⟨0, 0, blobOf [9]⟩] = tr₁ ++ en :: tr₂ ∧
      ¬DispatchRight tagged tr₁ en) ∧
    ∃ tr₁ en tr₂, trace (step tagged) (start nineAndTen) (queryRun 9 40) = tr₁ ++ en :: tr₂ ∧
      ¬DispatchRight tagged tr₁ en :=
  ⟨not_dispatched _ 1 (by decide), not_dispatched _ 1 (by decide)⟩

end

end VProtocol.Idc
