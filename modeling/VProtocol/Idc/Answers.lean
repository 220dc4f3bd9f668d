import VProtocol.Idc.Turns

/-!
# Success is what the ledger says

A login and a query are answered when the ledger answers, and by their timer. The answers to a
refusal of the ledger carry the code of a success, too; so they are right as long as the ledger
does not refuse, and there is memory for the client session of a login. The service starts without
client sessions, so it never comes to such an answer: what it answers are registrations, with the
code of the ledger.
-/

namespace VProtocol.Idc

open Crypt (DscBlob emptyBlob)

/-! ## The property -/

/-- A login or a query is answered with success only when the ledger has answered it with
success, and a login only when there is a client session for it. -/
def SuccessRight (en : Entry State Event Out) : Prop :=
  ∀ p handleID r S, .hts p handleID r ∈ en.outs → en.pre.heap p = some S → (∀ uid, S.detail ≠ .register uid) →
    r.returnCode = okCode → ∃ rsp env, en.ev = .queryUserInfoRsp rsp env ∧
      en.pre.mapReqSession rsp.srcSessionID = some p ∧ rsp.returnCode = 0 ∧
      ∀ uid key, S.detail = .login uid key → ∃ C, newClientSession env en.pre.mapClientSession = .ok (some C)

/-- A registration is answered with success only when the ledger has answered it with success. -/
def RegisterRight (en : Entry State Event Out) : Prop :=
  ∀ p handleID r S uid, .hts p handleID r ∈ en.outs → en.pre.heap p = some S → S.detail = .register uid →
    r.returnCode = okCode → ∃ rsp, en.ev = .registUserRsp rsp ∧ en.pre.mapReqSession rsp.srcSessionID = some p ∧
      rsp.returnCode = 0

/-- The ledger does not refuse, or the answer cannot be encrypted. -/
def Session.Granted (cfg : Config) (m : UInt32 → Option ClientSession) (rsp : QueryUserInfoCltCltRsp) (env : AnswerEnv)
    (S : Session) : Prop :=
  match S.detail with
  | .register _ => True
  | .login _ _ => rsp.returnCode = 0 ∧ env.memory = true ∨
      cfg.vbhEncrypt cfg.peerEnvelopeKey (encodeWrapper cfg emptyBlob S.nonce) = none
  | .query => rsp.returnCode = 0 ∨
      ∀ C ∈ m S.sessionId, cfg.vbhEncrypt C.envelopeKey (encodeWrapper cfg emptyBlob S.nonce) = none

def Granted (cfg : Config) (s : State) : Event → Prop
  | .queryUserInfoRsp rsp env =>
    ∀ p ∈ s.mapReqSession rsp.srcSessionID, ∀ S ∈ s.heap p, S.Granted cfg s.mapClientSession rsp env
  | _ => True

section
variable {cfg : Config} {s s' : State} {e : Event} {outs : List Out} {tr : History} {p q : Ptr} {S : Session}
  {handleID code type : UInt32} {data key : DscBlob} {r : CommonSrvCltRsp} {rsp : QueryUserInfoCltCltRsp}
  {env : AnswerEnv}

/-! ## Replies -/

theorem mem_reply : .hts q handleID r ∈ reply cfg code type data key p S ↔
    q = p ∧ handleID = S.handleID ∧ sendClientMsg cfg code type data key S = some r := by
  unfold reply
  cases sendClientMsg cfg code type data key S with
  | none => simp
  | some r' =>
    simp only [Option.map_some, Option.toList_some, List.mem_singleton, Out.hts.injEq, Option.some.injEq]
    exact ⟨fun ⟨hq, hh, hr⟩ => ⟨hq, hh, hr.symm⟩, fun ⟨hq, hh, hr⟩ => ⟨hq, hh, hr.symm⟩⟩

theorem sendClientMsg_some (h : sendClientMsg cfg code type data key S = some r) :
    r.returnCode = code ∧ r.type = type ∧ r.reqID = S.clientReqID ∧
      cfg.vbhEncrypt key (encodeWrapper cfg data S.nonce) = some r.info := by
  obtain ⟨info, hinfo, rfl⟩ := Option.map_eq_some_iff.mp h
  exact ⟨rfl, rfl, rfl, hinfo⟩

variable (code type) in
theorem sendClientMsg_none : sendClientMsg cfg code type data key S = none ↔
    cfg.vbhEncrypt key (encodeWrapper cfg data S.nonce) = none := by
  unfold sendClientMsg
  rw [Option.map_eq_none_iff]

theorem opens_hts {req : CommonCltSrvReq} {id : UInt32} : ¬Opens cfg s req handleID S (.hts p id r) := by
  intro h
  cases h

/-! ## One step -/

theorem successRight_of (h : ∀ p handleID r S, .hts p handleID r ∈ outs → s.heap p = some S →
    (∀ uid, S.detail ≠ .register uid) → r.returnCode ≠ okCode) : SuccessRight ⟨s, e, outs⟩ := by
  intro p handleID r S hmem hS hk hok
  exact absurd hok (h p handleID r S hmem hS hk)

theorem refusal_right (hf : s.Finds rsp.srcSessionID p S) (hk : ∀ uid, S.detail ≠ .register uid)
    (hno : ¬(rsp.returnCode = 0 ∧
      ∀ uid key, S.detail = .login uid key → ∃ C, newClientSession env s.mapClientSession = .ok (some C))) :
    SuccessRight ⟨s, .queryUserInfoRsp rsp env, reply cfg okCode type data key p S⟩ ↔
      cfg.vbhEncrypt key (encodeWrapper cfg data S.nonce) = none := by
  rw [← sendClientMsg_none okCode type]
  constructor
  · intro h
    by_contra hsend
    obtain ⟨r, hr⟩ := Option.ne_none_iff_exists'.mp hsend
    obtain ⟨rsp', env', hev, -, hok, hC⟩ :=
      h p S.handleID r S (mem_reply.mpr ⟨rfl, rfl, hr⟩) hf.2 hk (sendClientMsg_some hr).1
    obtain ⟨rfl, rfl⟩ := Event.queryUserInfoRsp.inj hev
    exact hno ⟨hok, hC⟩
  · intro hnone
    refine successRight_of fun q handleID r S' hmem _ _ _ => ?_
    rw [mem_reply, hnone] at hmem
    cases hmem.2.2

theorem granted_iff (hf : s.Finds rsp.srcSessionID p S) :
    Granted cfg s (.queryUserInfoRsp rsp env) ↔ S.Granted cfg s.mapClientSession rsp env := by
  simp [Granted, hf.1, hf.2]

theorem loginSession_some {C : ClientSession} {m : UInt32 → Option ClientSession}
    (h : loginSession rsp env m = .ok (some C)) :
    rsp.returnCode = 0 ∧ env.memory = true ∧ newClientSession env m = .ok (some C) := by
  unfold loginSession at h
  by_cases hok : rsp.returnCode = 0
  · rw [if_pos hok] at h
    refine ⟨hok, ?_, h⟩
    by_contra hmem
    unfold newClientSession at h
    rw [if_neg hmem] at h
    cases h
  · rw [if_neg hok] at h
    cases h

theorem loginSession_none {m : UInt32 → Option ClientSession} (h : loginSession rsp env m = .ok none) :
    ¬(rsp.returnCode = 0 ∧ env.memory = true) ∧ ¬(rsp.returnCode = 0 ∧ ∃ C, newClientSession env m = .ok (some C)) := by
  unfold loginSession at h
  by_cases hok : rsp.returnCode = 0
  · rw [if_pos hok] at h
    refine ⟨fun hmem => ?_, fun ⟨_, C, hC⟩ => ?_⟩
    · unfold newClientSession at h
      rw [if_pos hmem.2] at h
      cases hid : newSessionId m UInt32.size (shiftOr env.id1 env.id2) with
      | none =>
        simp only [hid] at h
        cases h
      | some id =>
        simp only [hid] at h
        cases h
    · rw [h] at hC
      cases hC
  · exact ⟨fun h => hok h.1, fun h => hok h.1⟩

theorem successRight_iff (h : Turn cfg s e s' outs) : SuccessRight ⟨s, e, outs⟩ ↔ Granted cfg s e := by
  have hquiet : ∀ {e outs}, (∀ p handleID r S, .hts p handleID r ∈ outs → s.heap p = some S →
      (∀ uid, S.detail ≠ .register uid) → r.returnCode ≠ okCode) → Granted cfg s e →
      (SuccessRight ⟨s, e, outs⟩ ↔ Granted cfg s e) := fun hno hg => iff_of_true (successRight_of hno) hg
  cases h with
  | refused => exact hquiet (by simp) trivial
  | opened h =>
    refine hquiet (fun p handleID r S hmem => ?_) trivial
    rw [← List.mem_singleton.mp hmem] at h
    exact absurd h opens_hts
  | strayRegist h => exact hquiet (by simp) trivial
  | strayQuery h =>
    refine hquiet (by simp) ?_
    simp [Granted, h]
  | crossRegist hf hk => exact hquiet (by simp) trivial
  | crossQuery hf hk =>
    refine hquiet (by simp) ((granted_iff hf).mpr ?_)
    unfold Session.Granted
    simp only [hk]
  | registered hf hk =>
    refine hquiet (fun q handleID r S' hmem hS' hk' => ?_) trivial
    rw [mem_reply] at hmem
    obtain ⟨rfl, -, -⟩ := hmem
    obtain rfl := Option.some.inj (hf.2.symm.trans hS')
    exact absurd hk (hk' _)
  | @loggedIn rsp env p S uid key C hf hk hC =>
    obtain ⟨hok, hmemory, hnew⟩ := loginSession_some hC
    refine iff_of_true (fun q handleID r S' hmem _ _ _ => ?_) ((granted_iff hf).mpr ?_)
    · rw [mem_reply] at hmem
      obtain ⟨rfl, -, -⟩ := hmem
      exact ⟨rsp, env, rfl, hf.1, hok, fun _ _ _ => ⟨C, hnew⟩⟩
    · unfold Session.Granted
      simp only [hk]
      exact .inl ⟨hok, hmemory⟩
  | @loginFailed rsp env p S uid key hf hk hC =>
    obtain ⟨hno, hnew⟩ := loginSession_none hC
    rw [granted_iff hf, refusal_right hf (by simp [hk]) fun h => hnew ⟨h.1, h.2 uid key hk⟩]
    unfold Session.Granted
    simp only [hk]
    exact ⟨.inr, fun h => h.resolve_left hno⟩
  | queryLost hf hk hC =>
    refine hquiet (by simp) ((granted_iff hf).mpr ?_)
    unfold Session.Granted
    simp only [hk, hC]
    exact .inr (by simp)
  | @queried rsp env p S C hf hk hC hok =>
    refine iff_of_true (fun q handleID r S' hmem hS' _ _ => ?_) ((granted_iff hf).mpr ?_)
    · rw [mem_reply] at hmem
      obtain ⟨rfl, -, -⟩ := hmem
      refine ⟨rsp, env, rfl, hf.1, hok, fun uid key hlogin => ?_⟩
      obtain rfl := Option.some.inj (hf.2.symm.trans hS')
      rw [hk] at hlogin
      cases hlogin
    · unfold Session.Granted
      simp only [hk]
      exact .inl hok
  | queryFailed hf hk hC hno =>
    rw [granted_iff hf, refusal_right hf (by simp [hk]) fun h => hno h.1]
    unfold Session.Granted
    simp only [hk, hC]
    simp [hno]
  | late h => exact hquiet (by simp) trivial
  | timedOut h hS =>
    refine hquiet (fun q handleID r S' hmem _ _ hok => ?_) trivial
    rw [mem_reply] at hmem
    have hcode := (sendClientMsg_some hmem.2.2).1
    rw [hok] at hcode
    exact absurd hcode (by decide)

/-- Whom a reply goes to. -/
theorem Turn.replied (h : Turn cfg s e s' outs) (hmem : .hts p handleID r ∈ outs) : ∃ S, s.heap p = some S := by
  cases h with
  | refused => simp at hmem
  | opened h =>
    rw [← List.mem_singleton.mp hmem] at h
    exact absurd h opens_hts
  | strayRegist h => simp at hmem
  | strayQuery h => simp at hmem
  | crossRegist hf hk => simp at hmem
  | crossQuery hf hk => simp at hmem
  | registered hf hk => exact ⟨_, (mem_reply.mp hmem).1 ▸ hf.2⟩
  | loggedIn hf hk hC => exact ⟨_, (mem_reply.mp hmem).1 ▸ hf.2⟩
  | loginFailed hf hk hC => exact ⟨_, (mem_reply.mp hmem).1 ▸ hf.2⟩
  | queryLost hf hk hC => simp at hmem
  | queried hf hk hC hok => exact ⟨_, (mem_reply.mp hmem).1 ▸ hf.2⟩
  | queryFailed hf hk hC hno => exact ⟨_, (mem_reply.mp hmem).1 ▸ hf.2⟩
  | late h => simp at hmem
  | timedOut h hS => exact ⟨_, (mem_reply.mp hmem).1 ▸ hS⟩

theorem code_ok {code : Int32} (h : code.toUInt32 = okCode) : code = 0 := by
  rw [← Int32.toInt32_toUInt32 code, h]
  rfl

/-- The reply to a login or a query is not one to a registration. -/
theorem register_unreplied {S' : Session} {uid : UInt64} (hS : s.heap p = some S) (hk : S.detail = .register uid)
    (hS' : s.heap q = some S') (hk' : ∀ uid, S'.detail ≠ .register uid) :
    .hts p handleID r ∉ reply cfg code type data key q S' := by
  intro hmem
  obtain ⟨rfl, -, -⟩ := mem_reply.mp hmem
  obtain rfl := Option.some.inj (hS'.symm.trans hS)
  exact hk' uid hk

theorem registerRight_turn (h : Turn cfg s e s' outs) : RegisterRight ⟨s, e, outs⟩ := by
  intro p handleID r S uid hmem hS hk hok
  cases h with
  | refused => simp at hmem
  | opened h =>
    rw [← List.mem_singleton.mp hmem] at h
    exact absurd h opens_hts
  | strayRegist h => simp at hmem
  | strayQuery h => simp at hmem
  | crossRegist hf hk' => simp at hmem
  | crossQuery hf hk' => simp at hmem
  | registered hf hk' =>
    obtain ⟨rfl, -, hsend⟩ := mem_reply.mp hmem
    exact ⟨_, rfl, hf.1, code_ok ((sendClientMsg_some hsend).1.symm.trans hok)⟩
  | loggedIn hf hk' hC => exact absurd hmem (register_unreplied hS hk hf.2 (by simp [hk']))
  | loginFailed hf hk' hC => exact absurd hmem (register_unreplied hS hk hf.2 (by simp [hk']))
  | queryLost hf hk' hC => simp at hmem
  | queried hf hk' hC hno => exact absurd hmem (register_unreplied hS hk hf.2 (by simp [hk']))
  | queryFailed hf hk' hC hno => exact absurd hmem (register_unreplied hS hk hf.2 (by simp [hk']))
  | late h => simp at hmem
  | timedOut h hS' =>
    have hcode := (sendClientMsg_some (mem_reply.mp hmem).2.2).1
    rw [hok] at hcode
    exact absurd hcode (by decide)

/-! ## Runs -/

/-- In a run each answer to a login or a query is right about success exactly when the ledger never
refuses one that can be answered. -/
theorem success_iff {m : UInt32 → Option ClientSession} (hr : Run (step cfg) (start m) anyStep tr s) :
    (∀ tr₁ en tr₂, tr = tr₁ ++ en :: tr₂ → SuccessRight en) ↔ Each (fun _ s e => Granted cfg s e) tr :=
  hr.each_iff (R := fun _ en => SuccessRight en) fun _ _ _ _ _ _ _ _ hst => successRight_iff (step_turn hst)

theorem Bare.granted (hs : Bare s) (cfg : Config) (e : Event) : Granted cfg s e := by
  cases e with
  | queryUserInfoRsp rsp env =>
    intro p _ S hS
    obtain ⟨uid, hreg⟩ := hs.heap p S hS
    unfold Session.Granted
    rw [hreg]
    trivial
  | commonReq req handleID raw => trivial
  | registUserRsp rsp => trivial
  | timer p => trivial

/-- Nobody is told of a success that the ledger has not reported, in any run of the service: it starts
without client sessions, so the ledger is asked for registrations only. -/
theorem success_right (hr : Run (step cfg) (start fun _ => none) anyStep tr s) :
    ∀ tr₁ en tr₂, tr = tr₁ ++ en :: tr₂ → SuccessRight en ∧ RegisterRight en := by
  intro tr₁ en tr₂ heq
  obtain ⟨s', hr₁, -, hst⟩ := hr.entry heq
  refine ⟨(success_iff hr).mpr (fun tr₁ en tr₂ heq => ?_) _ _ _ heq, registerRight_turn (step_turn hst)⟩
  obtain ⟨-, hpre, -, -⟩ := hr.entry heq
  exact (Bare.of_run hpre).granted cfg en.ev

end

/-! ## Registrations and a login -/

section

def blobOf (b : Blob) : DscBlob := if h : b.length < 2 ^ 32 then ⟨b, h⟩ else emptyBlob

def aTag (key : DscBlob) : Blob := (key.1 ++ List.replicate 16 0).take 16

/-- A cipher that hides the bytes and ends in a tag of the key. -/
def tagged : Config where
  dsc := Crypt.plainCodec
  setBlob := blobOf
  userKey id := blobOf ((Nat.toDigits 10 id.toNat).map fun c => UInt8.ofNat c.toNat)
  vbhEncrypt key data :=
    let c := data.map (· ^^^ 0x5a) ++ aTag key
    if h : c.length < 2 ^ 32 then some ⟨c, h⟩ else none
  vbhDecrypt key c :=
    let n := c.1.length - 16
    if c.1.drop n = aTag key then some ((c.1.take n).map (· ^^^ 0x5a)) else none
  peerEnvelopeKey := blobOf [8, 8]

def sealedWith (key data nonce : DscBlob) : DscBlob :=
  (tagged.vbhEncrypt key (encodeWrapper tagged data nonce)).getD emptyBlob

def aClient (id : UInt32) : ClientSession where
  token := 40
  preToken := 0
  tokenTime := 0
  sessionId := id
  envelopeKey := blobOf [1, 2]

def anEnv (now : Int) : AnswerEnv := ⟨now, ⟨0, 0, 0, 41⟩, 0, 9, true⟩

def registerReq : CommonCltSrvReq :=
  ⟨registerUserMsg, 76, 0, sealedWith tagged.peerEnvelopeKey
    (blobOf ((RegisterUserCltSrvReq.codec Crypt.plainCodec).encode ⟨5, blobOf [1]⟩)) (blobOf [6])⟩

def loginReq : CommonCltSrvReq :=
  ⟨loginMsg, 77, 9, sealedWith (blobOf [1, 2])
    (blobOf ((LoginCltSrvReq.codec Crypt.plainCodec).encode ⟨5, blobOf [3, 4]⟩)) (blobOf [6])⟩

/-- The ledger refuses the first registration and grants the second one; the login is refused at once. -/
def firstRequests : List Event :=
  [.commonReq registerReq 1 0, .commonReq registerReq 1 0, .commonReq loginReq 1 0,
    .registUserRsp ⟨-3, 0, emptyBlob⟩, .registUserRsp ⟨0, 1, blobOf [9]⟩, .queryUserInfoRsp ⟨0, 2, emptyBlob⟩ (anEnv 100)]

def Out.code : Out → Option UInt32
  | .hts _ _ r => some r.returnCode
  | .registUser _ _ => none
  | .queryUserInfo _ _ => none

theorem success_right_two : ∃ tr s, Run (step tagged) (start fun _ => none) anyStep tr s ∧
    tr.map (·.outs.length) = [1, 1, 0, 1, 1, 0] ∧
    (tr.flatMap (·.outs)).filterMap Out.code = [(-3 : Int32).toUInt32, okCode] ∧
    ∀ tr₁ en tr₂, tr = tr₁ ++ en :: tr₂ → SuccessRight en ∧ RegisterRight en := by
  have hr : Run (step tagged) (start fun _ => none) anyStep _ _ := run_trace_any firstRequests
  exact ⟨_, _, hr, by decide, by decide, success_right hr⟩

end

end VProtocol.Idc
