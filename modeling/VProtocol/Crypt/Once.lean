import VProtocol.Crypt.Phase

/-!
# One callback for a request

A request is reported twice by a send that fails, by the time out of a proposal, and by
an answer to a session that waits for a notice: the session has reported already, but
an endorse answer that fails and a submit answer are reported all the same. Nothing else
reports a request twice.
-/

namespace VProtocol.Crypt

open Function (update)
open Client (Kind McpHandler Ptr HPtr Links Fault Res getMcpHandler)

/-! ## When a step reports rightly -/

def RegistSent (cfg : Config) (s : State) (req : RegistUserApiCltReq) (env : RequestEnv) : Prop :=
  cfg.endorsePeerCount ≤ s.conn.peers.length ∧ registData cfg req env true ≠ none ∧ registData cfg req env false ≠ none

def ProposeSent (cfg : Config) (s : State) (req : ProposeApiCltReq) (env : RequestEnv) : Prop :=
  cfg.endorsePeerCount ≤ s.conn.peers.length ∧ ∃ r, cfg.decodeClientCryptKey req.cryptUserKey = some r ∧
    cfg.dsc.orderGenerateKey.decode req.userKey.1 ≠ none ∧ proposeData cfg req env r.2.2 true ≠ none ∧
    proposeData cfg req env r.2.2 false ≠ none

/-- Where the answer completes the endorsement, the nonce can be encrypted and sent. -/
def Submittable (cfg : Config) (S : EndorseSession) (key : DscBlob) (env : AnswerEnv) : Prop :=
  cfg.endorsePeerCount ≤ S.succeedRspNum.toNat → cfg.vbhEncrypt key S.nonce.1 ≠ none ∧ env.submitErr = false

/-- An OK answer of an endorser that passes every check: it has the nonce of the session,
allows the registration and agrees with the first answer. -/
def RegistAccepted (cfg : Config) (s : State) (S : EndorseSession) (rsp : EndorseRsp) (h : McpHandler) (env : AnswerEnv) :
    Prop :=
  rsp.returnCode = okType ∧ ∃ buf d rest S₁, cfg.vbhDecrypt peerEnvelopeKey rsp.userData = some buf ∧
    decodeAttrs (CryptRegistUserEsCltRspData.attrs cfg.dsc)
      ⟨false, emptyBlob, emptyBlob, emptyBlob, emptyBlob, emptyBlob⟩ buf = (d, some rest) ∧
    S.nonce = d.nonce ∧ d.allowRegist = true ∧ S.countAnswer d.userInitInfo = some S₁ ∧
    (s.submitHandler S = .ok h → cfg.encodeClientCryptKey d.svrPubCryptKey d.cltPriCryptKey d.envelopeKey ≠ none) ∧
    Submittable cfg S₁ peerEnvelopeKey env

def ProposeAccepted (cfg : Config) (S : EndorseSession) (rsp : EndorseRsp) (env : AnswerEnv) : Prop :=
  rsp.returnCode = okType ∧ ∃ buf d rest S₁, cfg.vbhDecrypt S.envelopeKey rsp.userData = some buf ∧
    decodeAttrs (CryptSubmitProposalEsCltRspData.attrs cfg.dsc) ⟨emptyBlob, emptyBlob⟩ buf = (d, some rest) ∧
    S.nonce = d.nonce ∧ S.countAnswer d.transContent = some S₁ ∧ Submittable cfg S₁ S.envelopeKey env

/-- An OK answer to a submit that decrypts, decodes and has the nonce of the session. -/
def SubmitAccepted (cfg : Config) (p : Ptr) (S : EndorseSession) (rsp : DataRsp)
    (read : Ptr → EndorseSession → Blob → Option (DscBlob × Out)) : Prop :=
  rsp.returnCode = okType ∧ ∃ out, (cfg.vbhDecrypt S.envelopeKey rsp.userData).bind (read p S) = some (S.nonce, out)

def OnTold (s : State) (k : Kind) (id : UInt32) (accepts : Ptr → EndorseSession → Prop) : Prop :=
  ∀ p S, s.core.mapEndorse k id = some p → s.core.heap p = some (.endorse S) → S.completeRegistRsp = true → accepts p S

/-- No send of a request fails; no proposal times out that was not reported; a session that
has reported gets only endorse answers that are accepted, and no submit answer that is. -/
def ReportsOnce (cfg : Config) (s : State) : Event → Prop
  | .registUserReq req env => RegistSent cfg s req env → ∀ i < cfg.endorsePeerCount, env.sendErr i = false
  | .proposeReq req env => ProposeSent cfg s req env → ∀ i < cfg.endorsePeerCount, env.sendErr i = false
  | .registUserRsp rsp h env => OnTold s .regist rsp.cltSessionID fun _ S => RegistAccepted cfg s S rsp h env
  | .submitProposalRsp rsp _ env => OnTold s .propose rsp.cltSessionID fun _ S => ProposeAccepted cfg S rsp env
  | .submitRegistRsp rsp _ =>
    OnTold s .regist rsp.cltSessionID fun p S => ¬SubmitAccepted cfg p S rsp (readSubmitRegist cfg)
  | .submitProposalTransRsp rsp _ =>
    OnTold s .propose rsp.cltSessionID fun p S => ¬SubmitAccepted cfg p S rsp (readSubmitProposal cfg)
  | .timer p _ => s.core.armed p = true → ∀ S, s.core.heap p = some (.endorse S) → S.kind = .propose →
      S.completeRegistRsp = true
  | _ => True

section
variable {cfg : Config} {s s' s₁ : State} {p : Ptr} {outs outs' : List Out} {S : EndorseSession} {code : Int}

/-! ## Lost connections -/

/-- Sessions end, each with the report that is due, and nothing else changes. -/
inductive Lost : Phase → Nat → Phase → Prop
  | stay (x : Phase) : Lost x 0 x
  | ended : Lost .asked 1 .gone
  | closed : Lost .told 0 .gone

theorem Lost.turn {x y n} (h : Lost x n y) : Turn x n y ∧ n ≤ x.due := by
  cases h with
  | stay => exact ⟨.stay x, Nat.zero_le _⟩
  | ended => exact ⟨.ended (le_refl _), le_refl _⟩
  | closed => exact ⟨.closed 0, le_refl _⟩

theorem Lost.trans {x y z m n} (h : Lost x m y) (h' : Lost y n z) : Lost x (m + n) z := by
  cases h with
  | stay => exact (Nat.zero_add n).symm ▸ h'
  | ended =>
    cases h'
    exact .ended
  | closed =>
    cases h'
    exact .closed

theorem lost_frame (hf : Fresh s) (h : Frame p s outs s') (hp : s.core.heap p ≠ none)
    (hl : Lost (phase s p) (reports p outs) (phase s' p)) :
    Fresh s' ∧ s'.core.next = s.core.next ∧ ∀ q, Lost (phase s q) (reports q outs) (phase s' q) := by
  obtain ⟨x, hx⟩ := Option.ne_none_iff_exists'.mp hp
  refine ⟨(turns_frame hf (hf.lt hx) h hl.turn.1).fresh, h.next, fun q => ?_⟩
  by_cases hq : q = p
  · subst hq
    exact hl
  · rw [h.silent q hq, phase_congr h.next (h.heap q hq)]
    exact .stay _

theorem onNetError_lost (hf : Fresh s) (h : onNetError cfg s p = .ok (s', outs)) :
    Fresh s' ∧ s'.core.next = s.core.next ∧ ∀ q, Lost (phase s q) (reports q outs) (phase s' q) := by
  unfold onNetError at h
  split at h
  · cases h
  · obtain ⟨S, hS, hfree, rfl⟩ := onNetErrorEndorse_ok h
    have hlt := hf.lt hS
    have hgone := phase_none (hfree.next ▸ hlt) hfree.none
    refine lost_frame hf (hfree.frame fun q hq => ?_) (by rw [hS]; exact Option.some_ne_none _) ?_
    · split
      · rfl
      · rw [reports_onFailed, if_neg hq]
    · rw [hgone, phase_endorse hlt hS]
      cases S.completeRegistRsp with
      | true => exact .closed
      | false =>
        simp only [Bool.false_eq_true, if_false, reports_onFailed, if_true]
        exact .ended
  · unfold onNetErrorQuery at h
    obtain ⟨⟨hn, hh⟩, ⟨Q, hQ⟩, hs⟩ := onReleaseQuery_freed h
    have hfree : Freed p s s' := ⟨hn, hh⟩
    have hlt := hf.lt hQ
    refine lost_frame hf (hfree.frame fun q _ => hs q) (by rw [show s.core.heap p = _ from hQ]; exact Option.some_ne_none _) ?_
    rw [hs p, phase_query hlt hQ, phase_none (hfree.next ▸ hlt) hfree.none]
    exact .stay _

theorem netErrorLoop_lost {hp : HPtr} : ∀ {n i : Nat} {s s' : State} {outs : List Out}, Fresh s →
    netErrorLoop cfg hp n i s = .ok (s', outs) →
    Fresh s' ∧ s'.core.next = s.core.next ∧ ∀ q, Lost (phase s q) (reports q outs) (phase s' q)
  | 0, _, s, s', outs, hf, h => by
    obtain ⟨rfl, rfl⟩ := Prod.mk.inj (Except.ok.inj h)
    exact ⟨hf, rfl, fun q => .stay _⟩
  | n + 1, i, s, s', outs, hf, h => by
    unfold netErrorLoop at h
    split at h
    · cases h
    split at h
    · cases h
    obtain ⟨⟨s₁, outs₁⟩, hone, h⟩ := Except.bind_eq_ok.mp h
    obtain ⟨⟨s₂, outs₂⟩, hrest, h⟩ := Except.bind_eq_ok.mp h
    obtain ⟨rfl, rfl⟩ := Prod.mk.inj (Except.ok.inj h)
    obtain ⟨hf₁, hn₁, hl₁⟩ := onNetError_lost hf hone
    obtain ⟨hf₂, hn₂, hl₂⟩ := netErrorLoop_lost hf₁ hrest
    refine ⟨hf₂, hn₂.trans hn₁, fun q => ?_⟩
    rw [reports_append]
    exact (hl₁ q).trans (hl₂ q)

theorem loseHandle_lost {h : McpHandler} (hf : Fresh s) (hst : loseHandle cfg s h = .ok (s', outs)) :
    Fresh s' ∧ ∀ q, Lost (phase s q) (reports q outs) (phase s' q) := by
  unfold loseHandle at hst
  split at hst
  · obtain ⟨rfl, rfl⟩ := Prod.mk.inj (Except.ok.inj hst)
    exact ⟨hf, fun q => .stay _⟩
  simp only at hst
  split at hst
  · cases hst
  obtain ⟨⟨s₁, outs₁⟩, hloop, hst⟩ := Except.bind_eq_ok.mp hst
  obtain ⟨rfl, rfl⟩ := Prod.mk.inj (Except.ok.inj hst)
  have hf₀ : Fresh { s with links := { s.links with mapHandle := update s.links.mapHandle h.handleID none } } := hf
  obtain ⟨hf₁, -, hl⟩ := netErrorLoop_lost hf₀ hloop
  exact ⟨hf₁, hl⟩

theorem onNetworkError_turns {h : McpHandler} (hf : Fresh s) (hst : onNetworkError cfg s h = .ok (s', outs)) :
    Turns s outs s' ∧ Fair s outs := by
  unfold onNetworkError at hst
  simp only at hst
  split at hst
  · cases hst
  obtain ⟨⟨s₁, outs₁⟩, hlose, hst⟩ := Except.bind_eq_ok.mp hst
  obtain ⟨rfl, rfl⟩ := Prod.mk.inj (Except.ok.inj hst)
  have hf₀ : Fresh { s with conn := Client.disconnect s.conn (Client.getPeerID cfg.peers h.handleID) h } := hf
  obtain ⟨hf₁, hl⟩ := loseHandle_lost hf₀ hlose
  have hrep : ∀ q, reports q (if s₁.conn.peers.isEmpty then outs₁ ++ [.onAbnormal] else outs₁) = reports q outs₁ := by
    intro q
    split
    · rw [reports_append]
      rfl
    · rfl
  refine ⟨⟨hf₁, fun q => ?_⟩, fun q => ?_⟩
  · rw [hrep]
    exact (hl q).turn.1
  · rw [hrep]
    exact (hl q).turn.2

/-! ## Requests -/

def Sends (p : Ptr) (sends : Nat → Prop) (sendErr : Nat → Bool) (s' : State) (outs : List Out) (code : Int) : Prop :=
  (code = okType ∧ (∀ i, sends i → sendErr i = false) ∧ reports p outs = 0 ∧
    ∃ S, s'.core.heap p = some (.endorse S) ∧ S.completeRegistRsp = false) ∨
  (code = networkErrorType ∧ (∃ i, sends i ∧ sendErr i = true) ∧ reports p outs = 1 ∧ s'.core.heap p = none)

theorem broadcast_sends {rand : Nat} {sendErr : Nat → Bool} {msg : Bool → EsMsg} : ∀ {n idx : Nat} {s s' : State}
    {S : EndorseSession} {outs : List Out} {code : Int}, s.core.heap p = some (.endorse S) → S.completeRegistRsp = false →
    broadcast cfg p rand sendErr msg n idx s = .ok (s', outs, code) →
    Frame p s outs s' ∧ Sends p (fun i => idx ≤ i ∧ i < idx + n) sendErr s' outs code
  | 0, idx, s, s', S, outs, code, hS, hc, h => by
    obtain ⟨rfl, rfl, rfl⟩ := Except.ok_triple h
    refine ⟨.refl p s, .inl ⟨rfl, fun i ⟨hle, hlt⟩ => ?_, rfl, S, hS, hc⟩⟩
    exact absurd hlt (Nat.not_lt.mpr hle)
  | n + 1, idx, s, s', S, outs, code, hS, hc, h => by
    unfold broadcast at h
    split at h
    · cases h
    rename_i hd conn hpick
    simp only at h
    obtain ⟨S', hS', h⟩ := Except.bind_eq_ok.mp h
    obtain rfl : S = S' := Session.endorse.inj (Option.some.inj (hS.symm.trans (endorse_ok hS')))
    obtain ⟨links, hins, h⟩ := Except.bind_eq_ok.mp h
    have hframe : ∀ x links conn, Frame p s [] { core := s.core.put p x, links, conn } := fun x links conn =>
      ⟨rfl, fun q hq => Function.update_of_ne hq _ _, fun _ _ => rfl⟩
    split at h
    · rename_i herr
      obtain ⟨⟨s₂, outs₂⟩, hnet, h⟩ := Except.bind_eq_ok.mp h
      obtain ⟨rfl, rfl, rfl⟩ := Except.ok_triple h
      obtain ⟨S₂, hS₂, hfree, rfl⟩ := onNetErrorEndorse_ok hnet
      have heq := Session.endorse.inj (Option.some.inj ((Function.update_self p _ s.core.heap).symm.trans hS₂))
      have hc₂ : S₂.completeRegistRsp = false := by rw [← heq]; exact hc
      rw [hc₂, if_neg Bool.false_ne_true]
      refine ⟨(hframe _ _ _).trans (hfree.frame fun q hq => ?_),
        .inr ⟨rfl, ⟨idx, ⟨le_refl _, Nat.lt_add_of_pos_right (Nat.succ_pos n)⟩, herr⟩, ?_, hfree.none⟩⟩
      · rw [reports_onFailed, if_neg hq]
      · rw [reports_onFailed, if_pos rfl]
    · rename_i herr
      obtain ⟨⟨s₂, outs₂, code₂⟩, hrest, h⟩ := Except.bind_eq_ok.mp h
      obtain ⟨rfl, rfl, rfl⟩ := Except.ok_triple h
      obtain ⟨hfr, hsends⟩ := broadcast_sends (Function.update_self p _ s.core.heap) (by exact hc) hrest
      obtain ⟨hn, hh, hs⟩ := (hframe _ _ _).trans hfr
      refine ⟨⟨hn, hh, fun q hq => by rw [reports_es]; exact hs q hq⟩, ?_⟩
      have herr : sendErr idx = false := Bool.eq_false_iff.mpr herr
      unfold Sends
      rw [reports_es]
      refine hsends.imp (fun ⟨hcode, hall, hr, hx⟩ => ⟨hcode, fun i ⟨hle, hlt⟩ => ?_, hr, hx⟩)
        (fun ⟨hcode, ⟨i, ⟨hle, hlt⟩, he⟩, hr, hx⟩ => ⟨hcode, ⟨i, ⟨by omega, by omega⟩, he⟩, hr, hx⟩)
      rcases Nat.eq_or_lt_of_le hle with rfl | hlt'
      · exact herr
      · exact hall i ⟨hlt', by omega⟩

theorem launch_sends {env : RequestEnv} {msg : Bool → EsMsg} {fill : EndorseSession → EndorseSession}
    (hc : S.completeRegistRsp = false) (hfill : ∀ S, (fill S).completeRegistRsp = S.completeRegistRsp)
    (h : launch cfg s p S env msg fill = .ok (s', outs, code)) :
    Frame p s outs s' ∧ Sends p (· < cfg.endorsePeerCount) env.sendErr s' outs code := by
  unfold launch at h
  obtain ⟨⟨s₁, outs₁, code₁⟩, hb, h⟩ := Except.bind_eq_ok.mp h
  obtain ⟨hfr, hsends⟩ := broadcast_sends (Function.update_self p _ s.core.heap) hc hb
  have hfr₁ : Frame p s outs₁ s₁ :=
    ⟨hfr.next, fun q hq => (hfr.heap q hq).trans (Function.update_of_ne hq _ _), hfr.silent⟩
  simp only [Nat.zero_le, Nat.zero_add, true_and] at hsends
  simp only at h
  rcases hsends with ⟨rfl, hall, hr, S₁, hS₁, hc₁⟩ | ⟨rfl, hx, hr, hnone⟩
  · rw [if_pos rfl] at h
    obtain ⟨S₂, hS₂, h⟩ := Except.bind_eq_ok.mp h
    obtain ⟨rfl, rfl, rfl⟩ := Except.ok_triple h
    obtain rfl : S₁ = S₂ := Session.endorse.inj (Option.some.inj (hS₁.symm.trans (endorse_ok hS₂)))
    refine ⟨⟨hfr₁.next, fun q hq => (Function.update_of_ne hq _ _).trans (hfr₁.heap q hq), hfr₁.silent⟩,
      .inl ⟨rfl, hall, hr, fill S₁, Function.update_self p _ _, (hfill S₁).trans hc₁⟩⟩
  · rw [if_neg (by decide)] at h
    obtain ⟨rfl, rfl, rfl⟩ := Except.ok_triple h
    exact ⟨hfr₁, .inr ⟨rfl, hx, hr, hnone⟩⟩

/-- How a request ends: it is refused before it is sent, or its sends are made. -/
def Requested (s : State) (sent : Prop) (sends : Nat → Prop) (sendErr : Nat → Bool) (s' : State) (outs : List Out)
    (code : Int) : Prop :=
  Frame s.core.next s.reserve outs s' ∧
    ((¬sent ∧ code ≠ okType ∧ reports s.core.next outs = 0 ∧ s'.core.heap s.core.next = none) ∨
      (sent ∧ Sends s.core.next sends sendErr s' outs code))

theorem requested_refused (hf : Fresh s) {sent : Prop} {sends sendErr} (hs : ¬sent) (hcode : code ≠ okType) :
    Requested s sent sends sendErr s.reserve [] code :=
  ⟨.refl _ _, .inl ⟨hs, hcode, rfl, hf _ (le_refl _)⟩⟩

theorem registUser_requested {req : RegistUserApiCltReq} {env : RequestEnv} (hf : Fresh s)
    (h : registUser cfg s req env = .ok (s', outs, code)) :
    Requested s (RegistSent cfg s req env) (· < cfg.endorsePeerCount) env.sendErr s' outs code := by
  unfold registUser at h
  simp only at h
  unfold RegistSent
  split at h
  · rename_i hlt
    obtain ⟨rfl, rfl, rfl⟩ := Except.ok_triple h
    exact requested_refused hf (fun hs => absurd hlt (Nat.not_lt.mpr hs.1)) (by decide)
  rename_i hle
  split at h
  · rename_i a b ha hb
    obtain ⟨hfr, hsends⟩ := launch_sends (s := s.reserve) rfl (by exact fun _ => rfl) h
    refine ⟨hfr, .inr ⟨⟨Nat.not_lt.mp hle, ?_, ?_⟩, hsends⟩⟩
    · rw [ha]
      exact Option.some_ne_none a
    · rw [hb]
      exact Option.some_ne_none b
  · rename_i hno
    obtain ⟨rfl, rfl, rfl⟩ := Except.ok_triple h
    refine requested_refused hf (fun ⟨_, ha, hb⟩ => ?_) (by decide)
    obtain ⟨a, ha⟩ := Option.ne_none_iff_exists'.mp ha
    obtain ⟨b, hb⟩ := Option.ne_none_iff_exists'.mp hb
    exact hno a b ha hb

theorem propose_requested {req : ProposeApiCltReq} {env : RequestEnv} (hf : Fresh s)
    (h : propose cfg s req env = .ok (s', outs, code)) :
    Requested s (ProposeSent cfg s req env) (· < cfg.endorsePeerCount) env.sendErr s' outs code := by
  unfold propose at h
  simp only at h
  unfold ProposeSent
  split at h
  · rename_i hlt
    obtain ⟨rfl, rfl, rfl⟩ := Except.ok_triple h
    exact requested_refused hf (fun hs => absurd hlt (Nat.not_lt.mpr hs.1)) (by decide)
  rename_i hle
  split at h
  · rename_i hkey
    obtain ⟨rfl, rfl, rfl⟩ := Except.ok_triple h
    refine requested_refused hf (fun ⟨_, r, hr, _⟩ => ?_) (by decide)
    cases hkey.symm.trans hr
  rename_i svrPubKey cltPriKey envelopeKey hkey
  split at h
  · rename_i huser
    obtain ⟨rfl, rfl, rfl⟩ := Except.ok_triple h
    exact requested_refused hf (fun ⟨_, r, _, hu, _⟩ => hu huser) (by decide)
  rename_i genUserKey rest huser
  split at h
  · rename_i a b ha hb
    obtain ⟨hfr, hsends⟩ := launch_sends (s := s.reserve) rfl (by exact fun _ => rfl) h
    refine ⟨hfr, .inr ⟨⟨Nat.not_lt.mp hle, _, hkey, ?_, ?_, ?_⟩, hsends⟩⟩
    · rw [huser]
      exact Option.some_ne_none _
    · rw [ha]
      exact Option.some_ne_none a
    · rw [hb]
      exact Option.some_ne_none b
  · rename_i hno
    obtain ⟨rfl, rfl, rfl⟩ := Except.ok_triple h
    refine requested_refused hf (fun ⟨_, r, hr, _, ha, hb⟩ => ?_) (by decide)
    obtain rfl := Option.some.inj (hkey.symm.trans hr)
    obtain ⟨a, ha⟩ := Option.ne_none_iff_exists'.mp ha
    obtain ⟨b, hb⟩ := Option.ne_none_iff_exists'.mp hb
    exact hno a b ha hb

/-- A refusal is reported once, a send that fails twice: where it fails, and by `OnDscMsg`. -/
theorem onDscMsg_turns {sent : Prop} {sends : Nat → Prop} {sendErr : Nat → Bool} {failed : Int → Out} {r}
    (hf : Fresh s) (hr : ∀ {s' outs code}, r = .ok (s', outs, code) → Requested s sent sends sendErr s' outs code)
    (hrep : ∀ code q, reports q [failed code] = if q = s.core.next then 1 else 0)
    (h : onDscMsg r failed = .ok (s', outs)) :
    Turns s outs s' ∧ (Fair s outs ↔ (sent → ∀ i, sends i → sendErr i = false)) := by
  unfold onDscMsg at h
  obtain ⟨⟨s₁, outs₁, code⟩, hreq, h⟩ := Except.bind_eq_ok.mp h
  obtain ⟨rfl, rfl⟩ := Prod.mk.inj (Except.ok.inj h)
  obtain ⟨hfr, hend⟩ := hr hreq
  have hgone : s₁.core.heap s.core.next = none → phase s₁ s.core.next = .gone :=
    phase_none (by rw [hfr.next]; exact Nat.lt_succ_self _)
  have hframe : Frame s.core.next s.reserve (outs₁ ++ [failed code]) s₁ := by
    refine ⟨hfr.next, hfr.heap, fun q hq => ?_⟩
    rw [reports_append, hfr.silent q hq, hrep, if_neg hq]
  have hcount : reports s.core.next (outs₁ ++ [failed code]) = reports s.core.next outs₁ + 1 := by
    rw [reports_append, hrep, if_pos rfl]
  rcases hend with ⟨hno, hcode, hzero, hnone⟩ | ⟨hsent, ⟨rfl, hall, hzero, S, hS, hc⟩ | ⟨rfl, ⟨i, hi, herr⟩, hone, hnone⟩⟩
  · rw [if_neg hcode]
    obtain ⟨hturns, hfair⟩ := turns_request hf hframe (by rw [hgone hnone]; exact .refused _)
    refine ⟨hturns, ?_⟩
    rw [hfair, hcount, hzero]
    exact ⟨fun _ hs => absurd hs hno, fun _ => le_refl _⟩
  · rw [if_pos rfl]
    have hphase : phase s₁ s.core.next = .asked := by
      rw [phase_endorse (by rw [hfr.next]; exact Nat.lt_succ_self _) hS, hc]
      exact if_neg Bool.false_ne_true
    obtain ⟨hturns, hfair⟩ := turns_request hf hfr (by rw [hzero, hphase]; exact .asked)
    refine ⟨hturns, ?_⟩
    rw [hfair, hzero]
    exact ⟨fun _ _ => hall, fun _ => Nat.zero_le _⟩
  · rw [if_neg (by decide)]
    obtain ⟨hturns, hfair⟩ := turns_request hf hframe (by rw [hgone hnone]; exact .refused _)
    refine ⟨hturns, ?_⟩
    rw [hfair, hcount, hone]
    constructor
    · intro hle
      exact absurd hle (by decide)
    · intro hall
      rw [hall hsent i hi] at herr
      cases herr

/-! ## Requests of another kind -/

theorem sendQuery_gone {Q : HPtr → QuerySession} {k : QueryKind} {sendErr : Bool} {msg : EsMsg}
    (hlt : p < s.core.next) (hp : s.core.heap p = none) (h : sendQuery s p Q k sendErr msg = .ok (s', outs, code)) :
    Frame p s outs s' ∧ reports p outs = 0 ∧ phase s' p = .gone := by
  unfold sendQuery at h
  simp only at h
  split at h
  · obtain ⟨rfl, rfl, rfl⟩ := Except.ok_triple h
    exact ⟨⟨rfl, fun _ _ => rfl, fun _ _ => rfl⟩, rfl, phase_none hlt hp⟩
  split at h
  · cases h
  obtain ⟨links, -, h⟩ := Except.bind_eq_ok.mp h
  obtain ⟨rfl, rfl, rfl⟩ := Except.ok_triple h
  refine ⟨⟨rfl, fun q hq => Function.update_of_ne hq _ _, fun _ _ => rfl⟩, rfl, ?_⟩
  exact phase_query hlt (Function.update_self p _ _)

theorem onDscMsg_query {failed : Int → Out} {r} (hf : Fresh s)
    (hr : ∀ {s' outs code}, r = .ok (s', outs, code) →
      Frame s.core.next s.reserve outs s' ∧ reports s.core.next outs = 0 ∧ phase s' s.core.next = .gone)
    (hrep : ∀ code q, reports q [failed code] = 0) (h : onDscMsg r failed = .ok (s', outs)) :
    Turns s outs s' ∧ Fair s outs := by
  unfold onDscMsg at h
  obtain ⟨⟨s₁, outs₁, code⟩, hreq, h⟩ := Except.bind_eq_ok.mp h
  obtain ⟨rfl, rfl⟩ := Prod.mk.inj (Except.ok.inj h)
  obtain ⟨hfr, hzero, hgone⟩ := hr hreq
  have hrep' : ∀ q, reports q (if code = okType then outs₁ else outs₁ ++ [failed code]) = reports q outs₁ := by
    intro q
    split
    · rfl
    · rw [reports_append, hrep, Nat.add_zero]
  obtain ⟨hturns, hfair⟩ := turns_request hf ⟨hfr.next, hfr.heap, fun q hq => (hrep' q).trans (hfr.silent q hq)⟩
    (by rw [hgone]; exact .refused _)
  exact ⟨hturns, hfair.mpr (by rw [hrep', hzero]; exact Nat.zero_le _)⟩

theorem gone_reserve (hf : Fresh s) :
    Frame s.core.next s.reserve [] s.reserve ∧ reports s.core.next [] = 0 ∧ phase s.reserve s.core.next = .gone :=
  ⟨.refl _ _, rfl, phase_none (Nat.lt_succ_self _) (hf _ (le_refl _))⟩

theorem getUserInfo_gone {req : QueryUserInfoApiCltReq} {env : QueryEnv} (hf : Fresh s)
    (h : getUserInfo cfg s req env = .ok (s', outs, code)) :
    Frame s.core.next s.reserve outs s' ∧ reports s.core.next outs = 0 ∧ phase s' s.core.next = .gone := by
  unfold getUserInfo at h
  simp only at h
  split at h
  · obtain ⟨rfl, rfl, rfl⟩ := Except.ok_triple h
    exact gone_reserve hf
  split at h
  · obtain ⟨rfl, rfl, rfl⟩ := Except.ok_triple h
    exact gone_reserve hf
  split at h
  · obtain ⟨rfl, rfl, rfl⟩ := Except.ok_triple h
    exact gone_reserve hf
  · exact sendQuery_gone (s := s.reserve) (Nat.lt_succ_self _) (hf _ (le_refl _)) h

theorem getTransInfo_gone {req : QueryTransInfoApiCltReq} {env : QueryEnv} (hf : Fresh s)
    (h : getTransInfo cfg s req env = .ok (s', outs, code)) :
    Frame s.core.next s.reserve outs s' ∧ reports s.core.next outs = 0 ∧ phase s' s.core.next = .gone := by
  unfold getTransInfo at h
  simp only at h
  split at h
  · obtain ⟨rfl, rfl, rfl⟩ := Except.ok_triple h
    exact gone_reserve hf
  split at h
  · obtain ⟨rfl, rfl, rfl⟩ := Except.ok_triple h
    exact gone_reserve hf
  split at h
  · obtain ⟨rfl, rfl, rfl⟩ := Except.ok_triple h
    exact gone_reserve hf
  split at h
  · obtain ⟨rfl, rfl, rfl⟩ := Except.ok_triple h
    exact gone_reserve hf
  split at h
  · obtain ⟨rfl, rfl, rfl⟩ := Except.ok_triple h
    exact gone_reserve hf
  · exact sendQuery_gone (s := s.reserve) (Nat.lt_succ_self _) (hf _ (le_refl _)) h

/-! ## Answers -/

theorem turns_ended (hf : Fresh s) (hS : s.core.heap p = some (.endorse S)) (h : Freed p s s')
    (hs : ∀ q, q ≠ p → reports q outs = 0) (hn : 1 ≤ reports p outs) :
    Turns s outs s' ∧ (Fair s outs ↔ S.completeRegistRsp = false ∧ reports p outs = 1) := by
  have hlt := hf.lt hS
  have hgone := phase_none (h.next ▸ hlt) h.none
  have hphase := phase_endorse hlt hS
  refine ⟨turns_frame hf hlt (h.frame hs) ?_, ?_⟩
  · rw [hgone, hphase]
    cases S.completeRegistRsp with
    | true => exact .closed _
    | false => exact .ended hn
  · rw [fair_frame (h.frame hs), hphase]
    cases S.completeRegistRsp with
    | true => exact ⟨fun hle => absurd (hn.trans hle) (by decide), fun ⟨hc, _⟩ => absurd hc (by decide)⟩
    | false => exact ⟨fun hle => ⟨rfl, Nat.le_antisymm hle hn⟩, fun ⟨_, heq⟩ => heq.le⟩

theorem onTold_iff {k : Kind} {id : UInt32} {accepts : Ptr → EndorseSession → Prop}
    (hmap : s.core.mapEndorse k id = some p) (hS : s.core.heap p = some (.endorse S)) :
    OnTold s k id accepts ↔ (S.completeRegistRsp = true → accepts p S) := by
  constructor
  · intro h hc
    exact h p S hmap hS hc
  · intro h p' S' hmap' hS' hc
    obtain rfl := Option.some.inj (hmap.symm.trans hmap')
    obtain rfl := Session.endorse.inj (Option.some.inj (hS.symm.trans hS'))
    exact h hc

theorem onTold_none {k : Kind} {id : UInt32} {accepts : Ptr → EndorseSession → Prop}
    (hmap : s.core.mapEndorse k id = none) : OnTold s k id accepts := by
  intro p S hmap'
  cases hmap.symm.trans hmap'

theorem cancel_silent {env : AnswerEnv} (h : cancel cfg s S code env = .ok outs) (q : Ptr) : reports q outs = 0 := by
  unfold cancel at h
  split at h
  · rw [← Except.ok.inj h]
    rfl
  split at h
  · rw [← Except.ok.inj h]
    rfl
  obtain ⟨hd, -, h⟩ := Except.bind_eq_ok.mp h
  rw [← Except.ok.inj h]
  split
  · rfl
  · exact reports_es q _ _ _

theorem submit_ok {key : DscBlob} {env : AnswerEnv} (h : submit cfg s S key env = .ok (outs, code)) :
    (∀ q, reports q outs = 0) ∧ (code = okType ↔ cfg.vbhEncrypt key S.nonce.1 ≠ none ∧ env.submitErr = false) := by
  unfold submit at h
  split at h
  · rename_i hnone
    obtain ⟨rfl, rfl⟩ := Prod.mk.inj (Except.ok.inj h)
    exact ⟨fun _ => rfl, fun h => absurd h (by decide), fun h => absurd hnone h.1⟩
  rename_i userData hdata
  obtain ⟨hd, -, h⟩ := Except.bind_eq_ok.mp h
  have hsome : cfg.vbhEncrypt key S.nonce.1 ≠ none := by
    rw [hdata]
    exact Option.some_ne_none _
  cases herr : env.submitErr with
  | true =>
    rw [herr] at h
    obtain ⟨rfl, rfl⟩ := Prod.mk.inj (Except.ok.inj h)
    exact ⟨fun _ => rfl, fun h => absurd h (by decide), fun h => absurd h.2 (by decide)⟩
  | false =>
    rw [herr] at h
    obtain ⟨rfl, rfl⟩ := Prod.mk.inj (Except.ok.inj h)
    exact ⟨fun q => reports_es q _ _ _, fun _ => ⟨hsome, rfl⟩, fun _ => rfl⟩

theorem submit_submittable {S' : EndorseSession} {key : DscBlob} {env : AnswerEnv}
    (hfull : cfg.endorsePeerCount ≤ S.succeedRspNum.toNat) (hnonce : S'.nonce = S.nonce)
    (h : submit cfg s S' key env = .ok (outs, code)) :
    (∀ q, reports q outs = 0) ∧ (code = okType ↔ Submittable cfg S key env) := by
  obtain ⟨hs, hcode⟩ := submit_ok h
  refine ⟨hs, ?_⟩
  unfold Submittable
  rw [hcode, forall_prop_of_true hfull, hnonce]

theorem submittable_few {key : DscBlob} {env : AnswerEnv} (h : ¬cfg.endorsePeerCount ≤ S.succeedRspNum.toNat) :
    Submittable cfg S key env := fun hfull => absurd hfull h

theorem countAnswer_complete {content : DscBlob} {S' : EndorseSession} (h : S.countAnswer content = some S') :
    S'.completeRegistRsp = S.completeRegistRsp ∧ S'.nonce = S.nonce ∧ S'.envelopeKey = S.envelopeKey ∧
      S'.submitEs = S.submitEs := by
  unfold EndorseSession.countAnswer at h
  split at h
  · rw [← Option.some.inj h]
    exact ⟨rfl, rfl, rfl, rfl⟩
  split at h
  · rw [← Option.some.inj h]
    exact ⟨rfl, rfl, rfl, rfl⟩
  · cases h

/-- What an endorse answer comes to: the session has reported as before, nothing is
reported, and the code is OK when the answer is accepted. -/
def Answered (S : EndorseSession) (accepted : Prop) (S' : EndorseSession) (outs : List Out) (code : Int) : Prop :=
  S'.completeRegistRsp = S.completeRegistRsp ∧ (∀ q, reports q outs = 0) ∧ (code = okType ↔ accepted)

theorem answered_failed {accepted : Prop} (hcode : code ≠ okType) (hno : ¬accepted) : Answered S accepted S [] code :=
  ⟨rfl, fun _ => rfl, fun h => absurd h hcode, fun h => absurd h hno⟩

theorem registAccepted_iff {rsp : EndorseRsp} {h : McpHandler} {env : AnswerEnv} {buf : Blob}
    {d : CryptRegistUserEsCltRspData} {rest : Blob} (hok : rsp.returnCode = okType)
    (hbuf : cfg.vbhDecrypt peerEnvelopeKey rsp.userData = some buf)
    (hdec : decodeAttrs (CryptRegistUserEsCltRspData.attrs cfg.dsc)
      ⟨false, emptyBlob, emptyBlob, emptyBlob, emptyBlob, emptyBlob⟩ buf = (d, some rest)) :
    RegistAccepted cfg s S rsp h env ↔ S.nonce = d.nonce ∧ d.allowRegist = true ∧
      ∃ S₁, S.countAnswer d.userInitInfo = some S₁ ∧
        (s.submitHandler S = .ok h → cfg.encodeClientCryptKey d.svrPubCryptKey d.cltPriCryptKey d.envelopeKey ≠ none) ∧
        Submittable cfg S₁ peerEnvelopeKey env := by
  constructor
  · intro ⟨_, buf', d', rest', S₁, hbuf', hdec', hacc⟩
    obtain rfl := Option.some.inj (hbuf.symm.trans hbuf')
    obtain ⟨rfl, -⟩ := Prod.mk.inj (hdec.symm.trans hdec')
    obtain ⟨hnonce, hallow, hrest⟩ := hacc
    exact ⟨hnonce, hallow, S₁, hrest⟩
  · intro ⟨hnonce, hallow, S₁, hrest⟩
    exact ⟨hok, buf, d, rest, S₁, hbuf, hdec, hnonce, hallow, hrest⟩

theorem registAccepted_counted {rsp : EndorseRsp} {h hsub : McpHandler} {env : AnswerEnv} {buf : Blob}
    {d : CryptRegistUserEsCltRspData} {rest : Blob} {S₁ : EndorseSession} (hok : rsp.returnCode = okType)
    (hbuf : cfg.vbhDecrypt peerEnvelopeKey rsp.userData = some buf)
    (hdec : decodeAttrs (CryptRegistUserEsCltRspData.attrs cfg.dsc)
      ⟨false, emptyBlob, emptyBlob, emptyBlob, emptyBlob, emptyBlob⟩ buf = (d, some rest))
    (hnonce : S.nonce = d.nonce) (hallow : d.allowRegist = true) (hcount : S.countAnswer d.userInitInfo = some S₁)
    (hh : s.submitHandler S = .ok hsub) : RegistAccepted cfg s S rsp h env ↔
      (h = hsub → cfg.encodeClientCryptKey d.svrPubCryptKey d.cltPriCryptKey d.envelopeKey ≠ none) ∧
        Submittable cfg S₁ peerEnvelopeKey env := by
  have hiff : s.submitHandler S = .ok h ↔ h = hsub := by
    rw [hh]
    exact ⟨fun heq => (Except.ok.inj heq).symm, fun heq => heq ▸ rfl⟩
  rw [registAccepted_iff hok hbuf hdec, hiff]
  constructor
  · intro ⟨_, _, S₂, hS₂, hrest⟩
    obtain rfl := Option.some.inj (hcount.symm.trans hS₂)
    exact hrest
  · intro hrest
    exact ⟨hnonce, hallow, S₁, hcount, hrest⟩

theorem submitHandler_congr {S₁ : EndorseSession} (h : S₁.submitEs = S.submitEs) :
    s.submitHandler S₁ = s.submitHandler S := by
  unfold State.submitHandler
  rw [h]

theorem recordKey_none {rsp : EndorseRsp} {d : CryptRegistUserEsCltRspData} {selected : Bool}
    (h : S.recordKey cfg rsp d selected = none) :
    selected = true ∧ cfg.encodeClientCryptKey d.svrPubCryptKey d.cltPriCryptKey d.envelopeKey = none := by
  unfold EndorseSession.recordKey at h
  split at h
  · rename_i hsel
    exact ⟨hsel, Option.map_eq_none_iff.mp h⟩
  · cases h

theorem recordKey_some {rsp : EndorseRsp} {d : CryptRegistUserEsCltRspData} {selected : Bool} {S' : EndorseSession}
    (h : S.recordKey cfg rsp d selected = some S') :
    S'.completeRegistRsp = S.completeRegistRsp ∧ S'.succeedRspNum = S.succeedRspNum ∧ S'.nonce = S.nonce ∧
      (selected = true → cfg.encodeClientCryptKey d.svrPubCryptKey d.cltPriCryptKey d.envelopeKey ≠ none) := by
  unfold EndorseSession.recordKey at h
  split at h
  · obtain ⟨key, hkey, rfl⟩ := Option.map_eq_some_iff.mp h
    refine ⟨rfl, rfl, rfl, fun _ => ?_⟩
    rw [hkey]
    exact Option.some_ne_none key
  · rename_i hsel
    obtain rfl := Option.some.inj h
    exact ⟨rfl, rfl, rfl, fun h => absurd h hsel⟩

theorem registAnswer_answered {rsp : EndorseRsp} {h : McpHandler} {env : AnswerEnv} {S' : EndorseSession}
    (hok : rsp.returnCode = okType) (hst : registAnswer cfg s S rsp h env = .ok (S', outs, code)) :
    Answered S (RegistAccepted cfg s S rsp h env) S' outs code := by
  unfold registAnswer at hst
  split at hst
  · rename_i hnone
    obtain ⟨rfl, rfl, rfl⟩ := Except.ok_triple hst
    refine answered_failed (by decide) fun ⟨_, buf, _, _, _, hbuf, _⟩ => ?_
    cases hnone.symm.trans hbuf
  rename_i buf hbuf
  split at hst
  · rename_i d hdec
    obtain ⟨rfl, rfl, rfl⟩ := Except.ok_triple hst
    refine answered_failed (by decide) fun ⟨_, buf', _, _, _, hbuf', hdec', _⟩ => ?_
    obtain rfl := Option.some.inj (hbuf.symm.trans hbuf')
    cases (Prod.mk.inj (hdec.symm.trans hdec')).2
  rename_i d rest hdec
  have hacc : RegistAccepted cfg s S rsp h env ↔ _ := registAccepted_iff hok hbuf hdec
  split at hst
  · rename_i hne
    obtain ⟨rfl, rfl, rfl⟩ := Except.ok_triple hst
    exact answered_failed (by decide) fun h => hne (hacc.mp h).1
  rename_i hnonce
  split at hst
  · rename_i hrefused
    obtain ⟨rfl, rfl, rfl⟩ := Except.ok_triple hst
    refine answered_failed (by decide) fun h => ?_
    rw [(hacc.mp h).2.1] at hrefused
    cases hrefused
  rename_i hallow
  split at hst
  · rename_i hdiffer
    obtain ⟨rfl, rfl, rfl⟩ := Except.ok_triple hst
    refine answered_failed (by decide) fun h => ?_
    obtain ⟨-, -, S₁, hS₁, -⟩ := hacc.mp h
    cases hdiffer.symm.trans hS₁
  rename_i S₁ hcount
  obtain ⟨hc, hn, -, hes⟩ := countAnswer_complete hcount
  obtain ⟨hsub, hh, hst⟩ := Except.bind_eq_ok.mp hst
  rw [submitHandler_congr hes] at hh
  rw [not_not] at hnonce
  rw [Bool.not_eq_false] at hallow
  have hacc' : RegistAccepted cfg s S rsp h env ↔ _ := registAccepted_counted hok hbuf hdec hnonce hallow hcount hh
  split at hst
  · rename_i hnokey
    obtain ⟨rfl, rfl, rfl⟩ := Except.ok_triple hst
    obtain ⟨hsel, hno⟩ := recordKey_none hnokey
    exact ⟨hc, fun _ => rfl, fun h => absurd h (by decide), fun h =>
      absurd hno ((hacc'.mp h).1 (of_decide_eq_true hsel))⟩
  rename_i S₂ hkey
  obtain ⟨hc₁, hnum, hnonce₁, hkeyok⟩ := recordKey_some hkey
  rw [and_iff_right fun h => hkeyok (decide_eq_true h)] at hacc'
  unfold Answered
  rw [hacc']
  split at hst
  · rename_i hfull
    rw [hnum] at hfull
    obtain ⟨⟨outs₁, code₁⟩, hsubmit, hst⟩ := Except.bind_eq_ok.mp hst
    obtain ⟨rfl, rfl, rfl⟩ := Except.ok_triple hst
    exact ⟨hc₁.trans hc, submit_submittable hfull hnonce₁ hsubmit⟩
  · rename_i hfew
    rw [hnum] at hfew
    obtain ⟨rfl, rfl, rfl⟩ := Except.ok_triple hst
    exact ⟨hc₁.trans hc, fun _ => rfl, fun _ => submittable_few hfew, fun _ => rfl⟩

theorem proposeAccepted_iff {rsp : EndorseRsp} {env : AnswerEnv} {buf : Blob} {d : CryptSubmitProposalEsCltRspData}
    {rest : Blob} (hok : rsp.returnCode = okType) (hbuf : cfg.vbhDecrypt S.envelopeKey rsp.userData = some buf)
    (hdec : decodeAttrs (CryptSubmitProposalEsCltRspData.attrs cfg.dsc) ⟨emptyBlob, emptyBlob⟩ buf = (d, some rest)) :
    ProposeAccepted cfg S rsp env ↔ S.nonce = d.nonce ∧
      ∃ S₁, S.countAnswer d.transContent = some S₁ ∧ Submittable cfg S₁ S.envelopeKey env := by
  constructor
  · intro ⟨_, buf', d', rest', S₁, hbuf', hdec', hnonce, hrest⟩
    obtain rfl := Option.some.inj (hbuf.symm.trans hbuf')
    obtain ⟨rfl, -⟩ := Prod.mk.inj (hdec.symm.trans hdec')
    exact ⟨hnonce, S₁, hrest⟩
  · intro ⟨hnonce, S₁, hrest⟩
    exact ⟨hok, buf, d, rest, S₁, hbuf, hdec, hnonce, hrest⟩

theorem compareAnswer_ok {rsp : EndorseRsp} {h : McpHandler} {content : DscBlob} {S' : EndorseSession}
    (hst : compareAnswer s S rsp h content = .ok (S', code)) : S'.completeRegistRsp = S.completeRegistRsp ∧
      ((code = okType ∧ ∃ S₁, S.countAnswer content = some S₁ ∧ S'.succeedRspNum = S₁.succeedRspNum ∧
        S'.nonce = S₁.nonce ∧ S'.envelopeKey = S.envelopeKey) ∨
        (code = systemErrorType ∧ S.countAnswer content = none)) := by
  unfold compareAnswer at hst
  split at hst
  · rename_i hnone
    obtain ⟨rfl, rfl⟩ := Prod.mk.inj (Except.ok.inj hst)
    exact ⟨rfl, .inr ⟨rfl, hnone⟩⟩
  · rename_i S₁ hcount
    obtain ⟨hc, -, hkey, -⟩ := countAnswer_complete hcount
    obtain ⟨hsub, -, hst⟩ := Except.bind_eq_ok.mp hst
    obtain ⟨rfl, rfl⟩ := Prod.mk.inj (Except.ok.inj hst)
    split
    · exact ⟨hc, .inl ⟨rfl, S₁, hcount, rfl, rfl, hkey⟩⟩
    · exact ⟨hc, .inl ⟨rfl, S₁, hcount, rfl, rfl, hkey⟩⟩

theorem proposeAnswer_answered {rsp : EndorseRsp} {h : McpHandler} {env : AnswerEnv} {S' : EndorseSession}
    (hok : rsp.returnCode = okType) (hst : proposeAnswer cfg s S rsp h env = .ok (S', outs, code)) :
    Answered S (ProposeAccepted cfg S rsp env) S' outs code := by
  unfold proposeAnswer at hst
  split at hst
  · rename_i hnone
    obtain ⟨rfl, rfl, rfl⟩ := Except.ok_triple hst
    refine answered_failed (by decide) fun ⟨_, buf, _, _, _, hbuf, _⟩ => ?_
    cases hnone.symm.trans hbuf
  rename_i buf hbuf
  split at hst
  · rename_i d hdec
    obtain ⟨rfl, rfl, rfl⟩ := Except.ok_triple hst
    refine answered_failed (by decide) fun ⟨_, buf', _, _, _, hbuf', hdec', _⟩ => ?_
    obtain rfl := Option.some.inj (hbuf.symm.trans hbuf')
    cases (Prod.mk.inj (hdec.symm.trans hdec')).2
  rename_i d rest hdec
  have hacc : ProposeAccepted cfg S rsp env ↔ _ := proposeAccepted_iff hok hbuf hdec
  rw [propext hacc]
  split at hst
  · rename_i hne
    obtain ⟨rfl, rfl, rfl⟩ := Except.ok_triple hst
    exact answered_failed (by decide) fun h => hne h.1
  rename_i hnonce
  rw [not_not] at hnonce
  rw [and_iff_right hnonce]
  obtain ⟨⟨S₂, code₂⟩, hcompare, hst⟩ := Except.bind_eq_ok.mp hst
  have hcmp := compareAnswer_ok hcompare
  obtain ⟨hc, hcmp⟩ := hcmp
  simp only at hst
  rcases hcmp with ⟨rfl, S₁, hcount, hnum, hn, hkey⟩ | ⟨rfl, hnone⟩
  · have hacc : (∃ S', S.countAnswer d.transContent = some S' ∧ Submittable cfg S' S.envelopeKey env) ↔
        Submittable cfg S₁ S.envelopeKey env := by
      rw [hcount]
      simp only [Option.some.injEq, exists_eq_left']
    unfold Answered
    rw [hacc]
    rw [hnum] at hst
    split at hst
    · rename_i hfull
      obtain ⟨⟨outs₁, code₁⟩, hsubmit, hst⟩ := Except.bind_eq_ok.mp hst
      obtain ⟨rfl, rfl, rfl⟩ := Except.ok_triple hst
      obtain ⟨hs, hcode⟩ := submit_submittable hfull hn hsubmit
      refine ⟨hc, hs, ?_⟩
      rw [← hkey, ← hcode]
      simp only [ite_eq_iff, and_true]
      constructor
      · intro h
        exact h.elim id fun h => absurd h.2 h.1
      · intro h
        exact .inl h
    · rename_i hfew
      obtain ⟨rfl, rfl, rfl⟩ := Except.ok_triple hst
      exact ⟨hc, fun _ => rfl, fun _ => submittable_few hfew, fun _ => rfl⟩
  · have hno : ¬∃ S', S.countAnswer d.transContent = some S' ∧ Submittable cfg S' S.envelopeKey env := by
      intro ⟨S₁, hS₁, _⟩
      cases hnone.symm.trans hS₁
    split at hst
    · obtain ⟨⟨outs₁, code₁⟩, hsubmit, hst⟩ := Except.bind_eq_ok.mp hst
      obtain ⟨rfl, rfl, rfl⟩ := Except.ok_triple hst
      refine ⟨hc, (submit_ok hsubmit).1, fun h => ?_, fun h => absurd h hno⟩
      split at h
      · exact absurd h (by decide)
      · rename_i hne
        exact absurd h hne
    · obtain ⟨rfl, rfl, rfl⟩ := Except.ok_triple hst
      exact ⟨hc, fun _ => rfl, fun h => absurd h (by decide), fun h => absurd h hno⟩

theorem answered_turns {accepted : Prop} {S' : EndorseSession} {env : AnswerEnv} (hf : Fresh s)
    (hS : s.core.heap p = some (.endorse S)) (ha : Answered S accepted S' outs code)
    (h : answered cfg s p S' outs code env = .ok (s', outs')) :
    Turns s outs' s' ∧ (Fair s outs' ↔ (S.completeRegistRsp = true → accepted)) := by
  obtain ⟨hc, hs, hacc⟩ := ha
  unfold answered at h
  simp only at h
  split at h
  · rename_i hcode
    obtain ⟨rfl, rfl⟩ := Prod.mk.inj (Except.ok.inj h)
    have hlt := hf.lt hS
    have hframe : Frame p s outs { s with core := s.core.put p (.endorse S') } :=
      ⟨rfl, fun q hq => Function.update_of_ne hq _ _, fun q _ => hs q⟩
    have hphase := phase_endorse (s := { s with core := s.core.put p (.endorse S') }) hlt (Function.update_self p _ _)
    refine ⟨turns_frame hf hlt hframe ?_, fun _ _ => hacc.mp hcode, fun _ => (fair_frame hframe).mpr ?_⟩
    · rw [phase_endorse hlt hS, hs p, hphase, hc]
      exact .stay _
    · rw [hs p]
      exact Nat.zero_le _
  · rename_i hcode
    obtain ⟨cancelled, hcan, h⟩ := Except.bind_eq_ok.mp h
    obtain ⟨s₁, hrel, h⟩ := Except.bind_eq_ok.mp h
    obtain ⟨rfl, rfl⟩ := Prod.mk.inj (Except.ok.inj h)
    obtain ⟨hn, hh⟩ := onRelease_ok hrel
    have hfree : Freed p s s₁ := ⟨hn, hh.trans (Function.update_idem _ _ _)⟩
    have hrep : ∀ q, reports q (outs ++ cancelled ++ [onFailed cfg p S' code]) = if q = p then 1 else 0 := by
      intro q
      rw [reports_append, reports_append, hs, cancel_silent hcan, reports_onFailed]
      exact Nat.zero_add _
    have hone : reports p (outs ++ cancelled ++ [onFailed cfg p S' code]) = 1 := by rw [hrep, if_pos rfl]
    obtain ⟨hturns, hfair⟩ := turns_ended hf hS hfree (fun q hq => by rw [hrep, if_neg hq]) hone.ge
    refine ⟨hturns, ?_⟩
    rw [hfair, and_iff_left hone]
    constructor
    · intro hfalse htrue
      rw [hfalse] at htrue
      cases htrue
    · intro hno
      by_contra hc
      exact hcode (hacc.mpr (hno (Bool.not_eq_false _ ▸ hc)))

theorem endorseRsp_turns {k : Kind} {rsp : EndorseRsp} {env : AnswerEnv} {accepts : EndorseSession → Prop}
    {answer : EndorseSession → Res (EndorseSession × List Out × Int)} (hf : Fresh s)
    (hmap : s.core.mapEndorse k rsp.cltSessionID = some p)
    (hans : ∀ {S S' outs code}, rsp.returnCode = okType → answer S = .ok (S', outs, code) →
      Answered S (accepts S) S' outs code)
    (hno : ∀ S, accepts S → rsp.returnCode = okType)
    (h : (do
      let S ← s.endorse p
      let (S, outs, code) ← ofCode S rsp.returnCode (answer S)
      answered cfg s p S outs code env) = .ok (s', outs')) :
    Turns s outs' s' ∧ (Fair s outs' ↔ OnTold s k rsp.cltSessionID fun _ S => accepts S) := by
  obtain ⟨S, hS, h⟩ := Except.bind_eq_ok.mp h
  obtain ⟨⟨S', outs, code⟩, hr, h⟩ := Except.bind_eq_ok.mp h
  rw [onTold_iff hmap (endorse_ok hS)]
  refine answered_turns hf (endorse_ok hS) ?_ h
  unfold ofCode at hr
  split at hr
  · rename_i hok
    exact hans hok hr
  · rename_i hcode
    obtain ⟨rfl, rfl, rfl⟩ := Except.ok_triple hr
    exact answered_failed hcode fun h => hcode (hno _ h)

def Reads (read : Ptr → EndorseSession → Blob → Option (DscBlob × Out)) : Prop :=
  ∀ p S buf nonce out, read p S buf = some (nonce, out) → ∀ q, reports q [out] = if q = p then 1 else 0

theorem reads_submitRegist : Reads (readSubmitRegist cfg) := by
  intro p S buf nonce out h q
  unfold readSubmitRegist at h
  split at h
  · cases h
  · obtain ⟨-, rfl⟩ := Prod.mk.inj (Option.some.inj h)
    exact reports_registUserRsp p q _ _ _ _ _

theorem reads_submitProposal : Reads (readSubmitProposal cfg) := by
  intro p S buf nonce out h q
  unfold readSubmitProposal at h
  split at h
  · cases h
  · obtain ⟨-, rfl⟩ := Prod.mk.inj (Option.some.inj h)
    exact reports_launchTransRsp p q _ _ _ _

theorem turns_told {S' : EndorseSession} {out : Out} (hf : Fresh s) (hS : s.core.heap p = some (.endorse S))
    (hrep : ∀ q, reports q [out] = if q = p then 1 else 0) (hn : s'.core.next = s.core.next)
    (hh : s'.core.heap = Function.update s.core.heap p (some (.endorse S'))) (hc : S'.completeRegistRsp = true) :
    Turns s [out] s' ∧ (Fair s [out] ↔ S.completeRegistRsp = false) := by
  have hlt := hf.lt hS
  have hone : reports p [out] = 1 := by rw [hrep, if_pos rfl]
  have hframe : Frame p s [out] s' := by
    refine ⟨hn, fun q hq => ?_, fun q hq => by rw [hrep, if_neg hq]⟩
    rw [hh, Function.update_of_ne hq]
  have hphase : phase s' p = .told := by
    rw [phase_endorse (hn ▸ hlt) (by rw [hh, Function.update_self]), if_pos hc]
  constructor
  · refine turns_frame hf hlt hframe ?_
    rw [phase_endorse hlt hS, hone, hphase]
    cases S.completeRegistRsp with
    | true => exact .again
    | false => exact .told
  · rw [fair_frame hframe, hone, phase_endorse hlt hS]
    cases S.completeRegistRsp with
    | true => exact ⟨fun h => absurd h (by decide), fun h => absurd h (by decide)⟩
    | false => exact ⟨fun _ => rfl, fun _ => le_refl _⟩

theorem onHtsMsgSubmitTransaction_turns {k : Kind} {rsp : DataRsp}
    {read : Ptr → EndorseSession → Blob → Option (DscBlob × Out)} (hread : Reads read) (hf : Fresh s)
    (h : onHtsMsgSubmitTransaction cfg s k rsp read = .ok (s', outs)) :
    Turns s outs s' ∧ (Fair s outs ↔ OnTold s k rsp.cltSessionID fun p S => ¬SubmitAccepted cfg p S rsp read) := by
  have hquiet : ∀ {P : Prop}, P → Turns s [] s ∧ (Fair s [] ↔ P) := fun hP =>
    (turns_quiet hf rfl rfl fun _ => rfl).imp id fun hfair => ⟨fun _ => hP, fun _ => hfair⟩
  unfold onHtsMsgSubmitTransaction at h
  split at h
  · rename_i hmap
    obtain ⟨rfl, rfl⟩ := Prod.mk.inj (Except.ok.inj h)
    exact hquiet (onTold_none hmap)
  rename_i p hmap
  obtain ⟨S, hS, h⟩ := Except.bind_eq_ok.mp h
  have hS := endorse_ok hS
  rw [onTold_iff hmap hS]
  split at h
  · rename_i hok
    split at h
    · rename_i hnone
      obtain ⟨rfl, rfl⟩ := Prod.mk.inj (Except.ok.inj h)
      refine hquiet fun _ ⟨_, out, hout⟩ => ?_
      cases hnone.symm.trans hout
    rename_i nonce out hout
    split at h
    · rename_i hnonce
      subst hnonce
      obtain ⟨buf, -, hbuf⟩ := Option.bind_eq_some_iff.mp hout
      have hrep := hread p S buf _ out hbuf
      have hacc : SubmitAccepted cfg p S rsp read := ⟨hok, out, hout⟩
      have hone : reports p [out] = 1 := by rw [hrep, if_pos rfl]
      split at h
      · obtain ⟨rfl, rfl⟩ := Prod.mk.inj (Except.ok.inj h)
        refine (turns_told hf hS hrep (by exact rfl) (by exact rfl) (by exact rfl)).imp_right fun hfair => ?_
        rw [hfair, ← Bool.not_eq_true]
        exact ⟨fun hc h => absurd h hc, fun h hc => h hc hacc⟩
      · obtain ⟨s₁, hrel, h⟩ := Except.bind_eq_ok.mp h
        obtain ⟨rfl, rfl⟩ := Prod.mk.inj (Except.ok.inj h)
        obtain ⟨hn, hh⟩ := onRelease_ok hrel
        obtain ⟨hturns, hfair⟩ := turns_ended hf hS ⟨hn, hh⟩ (fun q hq => by rw [hrep, if_neg hq]) hone.ge
        refine ⟨hturns, ?_⟩
        rw [hfair, and_iff_left hone, ← Bool.not_eq_true]
        exact ⟨fun hc h => absurd h hc, fun h hc => h hc hacc⟩
    · rename_i hne
      obtain ⟨rfl, rfl⟩ := Prod.mk.inj (Except.ok.inj h)
      refine hquiet fun _ ⟨_, out', hout'⟩ => ?_
      exact hne (Prod.mk.inj (Option.some.inj (hout.symm.trans hout'))).1.symm
  · rename_i hcode
    obtain ⟨rfl, rfl⟩ := Prod.mk.inj (Except.ok.inj h)
    exact hquiet fun _ hacc => hcode hacc.1

theorem onHtsMsgQuery_turns {k : QueryKind} {rsp : DataRsp} {answer : QuerySession → Int × Blob} (hf : Fresh s)
    (h : onHtsMsgQuery s k rsp answer = .ok (s', outs)) : Turns s outs s' ∧ Fair s outs := by
  unfold onHtsMsgQuery at h
  split at h
  · obtain ⟨rfl, rfl⟩ := Prod.mk.inj (Except.ok.inj h)
    exact turns_quiet hf rfl rfl fun _ => rfl
  obtain ⟨S, -, h⟩ := Except.bind_eq_ok.mp h
  obtain ⟨⟨hn, hh⟩, ⟨Q, hQ⟩, hs⟩ := onReleaseQuery_freed h
  exact turns_query hf hQ ⟨hn, hh⟩ hs

/-! ## Timers -/

theorem onTimeOutQuery_turns (hf : Fresh s) (h : onTimeOutQuery s p = .ok (s', outs)) :
    Turns s outs s' ∧ Fair s outs := by
  unfold onTimeOutQuery at h
  obtain ⟨S, -, h⟩ := Except.bind_eq_ok.mp h
  split at h
  · obtain ⟨⟨hn, hh⟩, ⟨Q, hQ⟩, hs⟩ := onReleaseQuery_freed h
    exact turns_query hf hQ ⟨hn, hh⟩ hs
  · obtain ⟨⟨hn, hh⟩, ⟨Q, hQ⟩, hs⟩ := onReleaseQuery_freed h
    exact turns_query hf hQ ⟨hn, hh⟩ hs

theorem onTimeOutEndorse_turns {raw : RawMemory} (hf : Fresh s) (hS : s.core.heap p = some (.endorse S))
    (h : onTimeOutEndorse cfg s p raw = .ok (s', outs)) :
    Turns s outs s' ∧ (Fair s outs ↔ (S.kind = .propose → S.completeRegistRsp = true)) := by
  unfold onTimeOutEndorse at h
  obtain ⟨S', hS', h⟩ := Except.bind_eq_ok.mp h
  obtain rfl : S = S' := Session.endorse.inj (Option.some.inj (hS.symm.trans (endorse_ok hS')))
  obtain ⟨s₁, hrel, h⟩ := Except.bind_eq_ok.mp h
  obtain ⟨rfl, rfl⟩ := Prod.mk.inj (Except.ok.inj h)
  obtain ⟨hn, hh⟩ := onRelease_ok hrel
  have hfree : Freed p s s₁ := ⟨hn, hh⟩
  cases hc : S.completeRegistRsp with
  | true =>
    obtain ⟨hturns, hfair⟩ := turns_freed cfg timeoutErrorType hf hS hfree (by rw [hc])
    exact ⟨hturns, fun _ _ => rfl, fun _ => hfair⟩
  | false =>
    simp only [Bool.false_eq_true, if_false]
    cases hk : S.kind with
    | regist =>
      obtain ⟨hturns, hfair⟩ := turns_freed cfg timeoutErrorType hf hS hfree (by rw [hc])
      exact ⟨hturns, fun _ h => absurd h (by decide), fun _ => hfair⟩
    | propose =>
      have hrep : ∀ q, reports q [onFailed cfg p S timeoutErrorType,
          .rsp p (.launchTransRsp raw.returnCode S.channelID raw.userKey raw.transKey)] = if q = p then 2 else 0 := by
        intro q
        rw [show ∀ a b : Out, [a, b] = [a] ++ [b] from fun _ _ => rfl, reports_append, reports_onFailed,
          reports_launchTransRsp]
        split <;> rfl
      have htwo := (hrep p).trans (if_pos rfl)
      obtain ⟨hturns, hfair⟩ := turns_ended hf hS hfree (fun q hq => by rw [hrep, if_neg hq]) (by rw [htwo]; decide)
      refine ⟨hturns, ?_⟩
      rw [hfair, htwo]
      exact ⟨fun h => absurd h.2 (by decide), fun h => absurd (h rfl) (by decide)⟩

theorem onTimer_turns {raw : RawMemory} (hf : Fresh s) (h : onTimer cfg s p raw = .ok (s', outs)) :
    Turns s outs s' ∧ (Fair s outs ↔
      ∀ S, s.core.heap p = some (.endorse S) → S.kind = .propose → S.completeRegistRsp = true) := by
  unfold onTimer at h
  split at h
  · cases h
  · rename_i S hS
    obtain ⟨hturns, hfair⟩ := onTimeOutEndorse_turns hf hS h
    refine ⟨hturns, hfair.trans ⟨fun h S' hS' => ?_, fun h => h S hS⟩⟩
    obtain rfl := Session.endorse.inj (Option.some.inj (hS.symm.trans hS'))
    exact h
  · rename_i Q hQ
    obtain ⟨hturns, hfair⟩ := onTimeOutQuery_turns hf h
    refine ⟨hturns, fun _ S hS => ?_, fun _ => hfair⟩
    cases hQ.symm.trans hS

/-! ## One step -/

theorem step_turns {e : Event} (hf : Fresh s) (h : step cfg s e = .ok (s', outs)) :
    Turns s outs s' ∧ (Fair s outs ↔ ReportsOnce cfg s e) := by
  have hquiet : Turns s outs s' ∧ Fair s outs → Turns s outs s' ∧ (Fair s outs ↔ True) := fun h =>
    ⟨h.1, fun _ => trivial, fun _ => h.2⟩
  cases e with
  | registUserReq req env =>
    unfold step onDscMsgRegistUserApiCltReq at h
    exact onDscMsg_turns hf (registUser_requested hf) (fun _ _ => reports_registUserRsp _ _ _ _ _ _ _) h
  | unRegistUserReq channelID =>
    obtain ⟨rfl, rfl⟩ := Prod.mk.inj (Except.ok.inj h)
    obtain ⟨hframe, -, hgone⟩ := gone_reserve hf
    have hframe' : Frame s.core.next s.reserve [.rsp s.core.next (.unRegistUserRsp (-1) channelID)] s.reserve :=
      ⟨rfl, fun _ _ => rfl, fun _ _ => rfl⟩
    obtain ⟨hturns, hfair⟩ := turns_request hf hframe' (by rw [hgone]; exact .refused _)
    exact hquiet ⟨hturns, hfair.mpr (Nat.zero_le _)⟩
  | proposeReq req env =>
    unfold step onDscMsgProposeApiCltReq at h
    exact onDscMsg_turns hf (propose_requested hf) (fun _ _ => reports_launchTransRsp _ _ _ _ _ _) h
  | queryUserReq req env =>
    unfold step onDscMsgQueryUserInfoApiCltReq at h
    exact hquiet (onDscMsg_query hf (getUserInfo_gone hf) (fun _ _ => rfl) h)
  | queryTransReq req env =>
    unfold step onDscMsgQueryTransInfoApiCltReq at h
    exact hquiet (onDscMsg_query hf (getTransInfo_gone hf) (fun _ _ => rfl) h)
  | registUserRsp rsp hd env =>
    unfold step onHtsMsgCryptRegistUserEsCltRsp at h
    simp only at h
    split at h
    · cases h
    rename_i p hmap
    exact endorseRsp_turns hf hmap registAnswer_answered (fun S hacc => hacc.1) h
  | submitRegistRsp rsp hd => exact onHtsMsgSubmitTransaction_turns reads_submitRegist hf h
  | submitProposalRsp rsp hd env =>
    unfold step onHtsMsgCryptSubmitProposalEsCltRsp at h
    simp only at h
    split at h
    · rename_i hmap
      obtain ⟨rfl, rfl⟩ := Prod.mk.inj (Except.ok.inj h)
      obtain ⟨hturns, hfair⟩ := turns_quiet hf rfl rfl reports_nil
      exact ⟨hturns, fun _ => onTold_none hmap, fun _ => hfair⟩
    rename_i p hmap
    exact endorseRsp_turns hf hmap proposeAnswer_answered (fun S hacc => hacc.1) h
  | submitProposalTransRsp rsp hd => exact onHtsMsgSubmitTransaction_turns reads_submitProposal hf h
  | queryUserRsp rsp hd => exact hquiet (onHtsMsgQuery_turns hf h)
  | queryTransRsp rsp hd => exact hquiet (onHtsMsgQuery_turns hf h)
  | timer p raw =>
    unfold step at h
    simp only at h
    split at h
    · rename_i harmed
      have hf₀ : Fresh { s with core := s.core.cancelDscTimer p } := hf
      obtain ⟨⟨hfresh, hturn⟩, hfair⟩ := onTimer_turns hf₀ h
      exact ⟨⟨hfresh, hturn⟩, hfair.trans ⟨fun hC _ => hC, fun hC => hC harmed⟩⟩
    · rename_i hoff
      obtain ⟨rfl, rfl⟩ := Prod.mk.inj (Except.ok.inj h)
      obtain ⟨hturns, hfair⟩ := turns_quiet hf rfl rfl reports_nil
      exact ⟨hturns, fun _ harmed => absurd harmed hoff, fun _ => hfair⟩
  | connected hd peerRand handleRand rawIndex =>
    unfold step onConnectedNodify at h
    simp only at h
    split at h
    · cases h
    obtain ⟨rfl, rfl⟩ := Prod.mk.inj (Except.ok.inj h)
    refine hquiet (turns_quiet hf rfl rfl fun q => ?_)
    split <;> rfl
  | networkError hd => exact hquiet (onNetworkError_turns hf h)

end

/-! ## Runs -/

def reported (tr : History) (p : Ptr) : Nat := reports p (tr.flatMap (·.outs))

def AtMostOnce (tr : History) : Prop := ∀ p, reported tr p ≤ 1

theorem reported_snoc (tr : History) (en : Entry State Event Out) (p : Ptr) :
    reported (tr ++ [en]) p = reported tr p + reports p en.outs := by
  unfold reported
  rw [List.flatMap_append, reports_append, List.flatMap_singleton]

def Phase.Past (n : Nat) : Phase → Prop
  | .free => n = 0
  | .asked => n = 0
  | .told => 1 ≤ n
  | .gone => True

theorem Turn.past {x y : Phase} {m n : Nat} (h : Turn x n y) (hp : x.Past m) : y.Past (m + n) := by
  cases h with
  | stay => exact hp
  | asked => exact hp
  | refused n => trivial
  | told => exact Nat.le_add_left 1 m
  | ended h => trivial
  | again => exact Nat.le_add_left 1 m
  | closed n => trivial

theorem Turn.once {x y : Phase} {m n : Nat} (h : Turn x n y) (hp : x.Past m) (hm : m ≤ 1) :
    m + n ≤ 1 ↔ n ≤ x.due := by
  cases h with
  | stay => exact ⟨fun _ => Nat.zero_le _, fun _ => hm⟩
  | asked => exact ⟨fun _ => Nat.zero_le _, fun _ => hm⟩
  | refused n =>
    rw [show m = 0 from hp, Nat.zero_add]
    exact Iff.rfl
  | told =>
    rw [show m = 0 from hp, Nat.zero_add]
    exact Iff.rfl
  | ended h =>
    rw [show m = 0 from hp, Nat.zero_add]
    exact Iff.rfl
  | again =>
    have h1 : 1 ≤ m := hp
    exact ⟨fun h => by omega, fun h => absurd h (by decide)⟩
  | closed n =>
    have h1 : 1 ≤ m := hp
    show m + n ≤ 1 ↔ n ≤ 0
    omega

theorem run_past {cfg : Config} {C} {tr : History} {s : State} (h : Run (step cfg) {} C tr s) :
    Fresh s ∧ ∀ p, (phase s p).Past (reported tr p) := by
  refine Run.invariant (fun tr s => Fresh s ∧ ∀ p, (phase s p).Past (reported tr p)) ⟨fun _ _ => rfl, fun p => ?_⟩ ?_ h
  · rw [show phase {} p = .free from if_pos (Nat.zero_le p)]
    rfl
  · intro tr s e s' outs _ ⟨hf, hp⟩ _ hst
    obtain ⟨⟨hf', hturn⟩, -⟩ := step_turns hf hst
    refine ⟨hf', fun p => ?_⟩
    rw [reported_snoc]
    exact (hturn p).past (hp p)

/-- Every request has been reported at most once at every point of a run exactly when every
step reports rightly. -/
theorem reported_once_iff (cfg : Config) {tr : History} {s : State} (h : Run (step cfg) {} anyStep tr s) :
    Always (fun tr _ => AtMostOnce tr) tr s ↔ Each (fun _ s e => ReportsOnce cfg s e) tr := by
  refine Run.always_iff (fun p => Nat.zero_le 1) ?_ h
  intro tr s e s' outs hr _ honce _ hst
  obtain ⟨hf, hpast⟩ := run_past hr
  obtain ⟨hturns, hfair⟩ := step_turns hf hst
  rw [← hfair]
  unfold AtMostOnce Fair
  refine forall_congr' fun p => ?_
  rw [reported_snoc]
  exact (hturns.turn p).once (hpast p) (honce p)

/-! ## A registration that is reported twice -/

/-- A registration with the nonce 1 that waits for a notice, the endorser's answer, and the
answer to the submit. -/
def registered : List Event :=
  [.connected endorser 0 0 0,
    .registUserReq ⟨true, 0, 3, blobOf 4, emptyBlob⟩ { nonce := blobOf 1 },
    .registUserRsp ⟨okType, 0, 9, ⟨[1, 0, 0, 0, 1, 5, 0, 0, 0, 1, 1, 0, 0, 0, 0, 0, 0, 0, 0, 0, 0, 0, 0], by simp⟩⟩
      endorser {},
    .submitRegistRsp ⟨okType, 0, ⟨[0, 1, 0, 0, 0, 2, 0, 0, 0, 0, 0, 0, 0, 3, 0, 0, 0, 1, 1], by simp⟩⟩ endorser]

def submittedAgain : Event :=
  .submitRegistRsp ⟨okType, 0, ⟨[0, 1, 0, 0, 0, 2, 0, 0, 0, 0, 0, 0, 0, 3, 0, 0, 0, 1, 1], by simp⟩⟩ endorser

/-- A success is reported again when the answer to the submit comes again. -/
theorem success_twice :
    ¬ ∀ (cfg : Config) (tr : History) (s : State), Run (step cfg) {} anyStep tr s → AtMostOnce tr := by
  intro hall
  exact absurd (hall plainConfig _ _ (run_trace_any (registered ++ [submittedAgain])) 0) (by decide)

theorem reported_once_registered : ∃ tr s, Run (step plainConfig) {} anyStep tr s ∧
    ¬Each (fun _ s e => ReportsOnce plainConfig s e) tr ∧ tr.flatMap (·.outs) = [
      .onReady, .es endorser (.registUserReq 0 ⟨[1, 0, 0, 0, 0, 0, 3, 0, 0, 0, 1, 4, 0, 0, 0, 0], by simp⟩),
      .es endorser (.submitReq .regist 9 (blobOf 1)),
      .rsp 0 (.registUserRsp okType 3 [4] [] [0, 1, 0, 0, 0, 2, 0, 0, 0, 0, 0, 0, 0, 3]),
      .rsp 0 (.registUserRsp okType 3 [4] [] [0, 1, 0, 0, 0, 2, 0, 0, 0, 0, 0, 0, 0, 3])] := by
  have hr : Run (step plainConfig) {} anyStep _ _ := run_trace_any (registered ++ [submittedAgain])
  refine ⟨_, _, hr, fun h => ?_, rfl⟩
  exact absurd (((reported_once_iff plainConfig hr).mpr h).2 0) (by decide)

end VProtocol.Crypt
