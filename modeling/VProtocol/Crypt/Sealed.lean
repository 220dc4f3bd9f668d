import VProtocol.Crypt.Once

/-!
# What is sent and what is believed

Every message to an endorser is encrypted with the key of the request that it belongs to, or
with `m_peerEnvelopeKey`. A success is reported only for an answer that decrypts with the key
of the request and has its nonce, and what the application gets is in this answer; the crypt
key of a new user is in an answer of the endorser that gets the submit.
-/

namespace VProtocol.Crypt

open Function (update)
open Client (Kind McpHandler Ptr HPtr)

/-! ## Requests -/

/-- What a session keeps of its request from beginning to end. -/
structure Brief where
  kind : Kind ⊕ QueryKind
  channelID : UInt32
  userKey : DscBlob
  transKey : DscBlob
  nonce : DscBlob
  envelopeKey : DscBlob

def EndorseSession.brief (S : EndorseSession) : Brief :=
  ⟨.inl S.kind, S.channelID, S.userKey, emptyBlob, S.nonce, S.envelopeKey⟩

def QuerySession.brief (S : QuerySession) : Brief :=
  ⟨.inr S.kind, S.channelID, S.userKey, S.transKey, S.nonce, S.envelopeKey⟩

def Session.brief : Session → Brief
  | .endorse S => S.brief
  | .query S => S.brief

def Event.asks : Event → Bool
  | .registUserReq _ _ | .unRegistUserReq _ | .proposeReq _ _ | .queryUserReq _ _ | .queryTransReq _ _ => true
  | _ => false

/-- The channel of a proposal and that of a transaction query are not set. -/
def Event.brief (cfg : Config) : Event → Option Brief
  | .registUserReq req env =>
    some ⟨.inl .regist, req.channelID, req.userKey, emptyBlob, env.nonce, peerEnvelopeKey⟩
  | .proposeReq req env => (cfg.decodeClientCryptKey req.cryptUserKey).map fun keys =>
      ⟨.inl .propose, env.raw.channelID, req.userKey, emptyBlob, env.nonce, keys.2.2⟩
  | .queryUserReq req env => (cfg.decodeClientCryptKey req.cryptUserKey).map fun keys =>
      ⟨.inr .user, req.channelID, req.userKey, emptyBlob, env.nonce, keys.2.2⟩
  | .queryTransReq req env => (cfg.decodeClientCryptKey req.cryptUserKey).map fun keys =>
      ⟨.inr .trans, env.raw.channelID, req.userKey, req.transKey, env.nonce, keys.2.2⟩
  | _ => none

/-- What `m_nEsSessionID` holds before an endorser gives one. -/
def Event.rawEsSessionID : Event → UInt32
  | .registUserReq _ env | .proposeReq _ env => env.raw.esSessionID
  | _ => 0

/-- The one request that took the address. -/
def MadeBy (tr : History) (p : Ptr) (e : Event) : Prop :=
  e.asks = true ∧ (∃ en ∈ tr, en.pre.core.next = p ∧ en.ev = e) ∧
    ∀ en ∈ tr, en.ev.asks = true → en.pre.core.next = p → en.ev = e

/-! ## Messages -/

/-- The messages that a request sends. -/
def Event.Sends (cfg : Config) : Event → EsMsg → Prop
  | .registUserReq req env, .registUserReq _ data => ∃ submitNode, registData cfg req env submitNode = some data
  | .proposeReq req env, .submitProposalReq channelID _ genUserKey data =>
    channelID = req.channelID ∧ ∃ keys rest submitNode, cfg.decodeClientCryptKey req.cryptUserKey = some keys ∧
      cfg.dsc.orderGenerateKey.decode req.userKey.1 = some (genUserKey, rest) ∧
      proposeData cfg req env keys.2.2 submitNode = some data
  | .queryUserReq req env, .queryUserReq _ channelID genUserKey data =>
    channelID = req.channelID ∧ ∃ keys rest, cfg.decodeClientCryptKey req.cryptUserKey = some keys ∧
      cfg.dsc.orderGenerateKey.decode req.userKey.1 = some (genUserKey, rest) ∧
      cfg.vbhEncrypt keys.2.2 env.nonce.1 = some data
  | .queryTransReq req env, .queryTransReq _ channelID genUserKey data =>
    channelID = req.channelID ∧ ∃ keys rest transKey rest', cfg.decodeClientCryptKey req.cryptUserKey = some keys ∧
      cfg.dsc.orderGenerateKey.decode req.userKey.1 = some (genUserKey, rest) ∧
      cfg.dsc.orderGenerateTransactionKey.decode req.transKey.1 = some (transKey, rest') ∧
      cfg.vbhEncrypt keys.2.2 (encodeAttrs (CryptQueryTransactionReqData.attrs cfg.dsc) ⟨env.nonce, transKey⟩) = some data
  | _, _ => False

/-- The bytes decrypt and decode completely, to `d`. -/
def Opens {β : Type} (cfg : Config) (key data : DscBlob) (attrs : List (Attr β)) (raw d : β) : Prop :=
  ∃ buf rest, cfg.vbhDecrypt key data = some buf ∧ decodeAttrs attrs raw buf = (d, some rest)

/-- An OK answer of the selected endorser for the session at `p`, with the nonce of its
request: it gives the id to submit under and, for a registration, the crypt key of the user. -/
def Credited (cfg : Config) (s : State) (e : Event) (p : Ptr) (B : Brief) (id : UInt32) (key : Option DscBlob) : Prop :=
  ∃ S hd, s.core.heap p = some (.endorse S) ∧ s.submitHandler S = .ok hd ∧
    match e with
    | .registUserRsp rsp h _ => h = hd ∧ s.core.mapEndorse .regist rsp.cltSessionID = some p ∧
      rsp.returnCode = okType ∧ rsp.esSessionID = id ∧ ∃ d : CryptRegistUserEsCltRspData,
        Opens cfg B.envelopeKey rsp.userData (CryptRegistUserEsCltRspData.attrs cfg.dsc)
          ⟨false, emptyBlob, emptyBlob, emptyBlob, emptyBlob, emptyBlob⟩ d ∧
        d.nonce = B.nonce ∧ d.allowRegist = true ∧
        cfg.encodeClientCryptKey d.svrPubCryptKey d.cltPriCryptKey d.envelopeKey = key
    | .submitProposalRsp rsp h _ => h = hd ∧ s.core.mapEndorse .propose rsp.cltSessionID = some p ∧
      rsp.returnCode = okType ∧ rsp.esSessionID = id ∧ ∃ d : CryptSubmitProposalEsCltRspData,
        Opens cfg B.envelopeKey rsp.userData (CryptSubmitProposalEsCltRspData.attrs cfg.dsc) ⟨emptyBlob, emptyBlob⟩ d ∧
        d.nonce = B.nonce ∧ key = none
    | _ => False

/-- The messages that end an endorsement. A submit has the key of the request, a cancel
`m_peerEnvelopeKey`. -/
def EsMsg.Ends (cfg : Config) (B : Brief) (Knows : UInt32 → Prop) : EsMsg → Prop
  | .submitReq k esSessionID data =>
    B.kind = .inl k ∧ Knows esSessionID ∧ cfg.vbhEncrypt B.envelopeKey B.nonce.1 = some data
  | .cancelReq k esSessionID data =>
    B.kind = .inl k ∧ Knows esSessionID ∧ cfg.vbhEncrypt peerEnvelopeKey B.nonce.1 = some data
  | _ => False

/-! ## Outcomes -/

def Rsp.code : Rsp → Int
  | .registUserRsp code _ _ _ _ | .launchTransRsp code _ _ _ | .unRegistUserRsp code _ | .getUserInfoRsp code _ _ _
  | .getTransInfoRsp code _ _ _ _ => code

/-- An OK answer with the nonce of the request. -/
def Vouches {β : Type} (cfg : Config) (B : Brief) (rsp : DataRsp) (attrs : List (Attr β)) (raw : β) (nonce : β → DscBlob)
    (d : β) : Prop :=
  rsp.returnCode = okType ∧ Opens cfg B.envelopeKey rsp.userData attrs raw d ∧ nonce d = B.nonce

/-- What stands behind a success that is reported for the request at `p`. The time out of a
proposal makes a second callback, whose code is what a variable happens to hold. -/
def Rsp.Vouched (cfg : Config) (e : Event) (p : Ptr) (B : Brief) (HasKey : Blob → Prop) : Rsp → Prop
  | .registUserRsp _ channelID userKey cryptUserKey genUserKey =>
    B.kind = .inl .regist ∧ channelID = B.channelID ∧ userKey = B.userKey.1 ∧ HasKey cryptUserKey ∧
      ∃ rsp h d, e = .submitRegistRsp rsp h ∧
        Vouches cfg B rsp (CryptSubmitRegistTransactionEsCltRspData.attrs cfg.dsc) ⟨⟨0, 0, 0⟩, emptyBlob⟩ (·.nonce) d ∧
        genUserKey = cfg.dsc.orderGenerateKey.encode d.genKey
  | .launchTransRsp _ channelID userKey transKey =>
    B.kind = .inl .propose ∧ channelID = B.channelID ∧
      ((∃ rsp h d, e = .submitProposalTransRsp rsp h ∧
        Vouches cfg B rsp (CryptSubmitProposalTransactionEsCltRspData.attrs cfg.dsc) ⟨⟨0, 0, 0, 0⟩, emptyBlob⟩ (·.nonce) d ∧
        userKey = B.userKey.1 ∧ transKey = cfg.dsc.orderGenerateTransactionKey.encode d.genTransKey) ∨
      ∃ raw, e = .timer p raw ∧ raw.returnCode = okType)
  | .unRegistUserRsp _ _ => False
  | .getUserInfoRsp _ channelID userKey userInfo =>
    B.kind = .inr .user ∧ channelID = B.channelID ∧ userKey = B.userKey.1 ∧ ∃ rsp h d, e = .queryUserRsp rsp h ∧
      Vouches cfg B rsp (CryptQueryUserInfoRsp.attrs cfg.dsc) ⟨emptyBlob, emptyBlob⟩ (·.nonce) d ∧ userInfo = d.userInfo.1
  | .getTransInfoRsp _ channelID userKey transKey transInfo =>
    B.kind = .inr .trans ∧ channelID = B.channelID ∧ userKey = B.userKey.1 ∧ transKey = B.transKey.1 ∧
      ∃ rsp h d, e = .queryTransRsp rsp h ∧
        Vouches cfg B rsp (CryptQueryTransactionRspData.attrs cfg.dsc) ⟨emptyBlob, emptyBlob⟩ (·.nonce) d ∧
        transInfo = d.transInfo.1

/-! ## One step -/

/-- What an answer leaves in a session: the id and the key it had, or what the answer gives. -/
def Learns (cfg : Config) (s : State) (e : Event) (p : Ptr) (S S' : EndorseSession) : Prop :=
  S'.esSessionID = S.esSessionID ∧ S'.encodedClientCryptKey = S.encodedClientCryptKey ∨
    ∃ key, Credited cfg s e p S.brief S'.esSessionID key ∧ S'.encodedClientCryptKey = key.getD S.encodedClientCryptKey

def Follows (cfg : Config) (s : State) (e : Event) (p : Ptr) (x x' : Session) : Prop :=
  x' = x ∨ ∃ S S', x = .endorse S ∧ x' = .endorse S' ∧ S'.brief = S.brief ∧ Learns cfg s e p S S'

def Begins (cfg : Config) (e : Event) (x : Session) : Prop :=
  e.brief cfg = some x.brief ∧
    ∀ S, x = .endorse S → S.esSessionID = e.rawEsSessionID ∧ S.encodedClientCryptKey = emptyBlob

def Fits (cfg : Config) (s : State) (e : Event) : Out → Prop
  | .es hd m => e.Sends cfg m ∨ ∃ p S, s.core.heap p = some (.endorse S) ∧ s.submitHandler S = .ok hd ∧
      m.Ends cfg S.brief fun id => id = S.esSessionID ∨ ∃ key, Credited cfg s e p S.brief id key
  | .rsp p m => m.code = okType → ∃ x, s.core.heap p = some x ∧
      m.Vouched cfg e p x.brief fun key => ∃ S, x = .endorse S ∧ S.encodedClientCryptKey.1 = key
  | _ => True

structure Deal (cfg : Config) (s : State) (e : Event) (outs : List Out) (s' : State) : Prop where
  next : s'.core.next = if e.asks then s.core.next + 1 else s.core.next
  heap : ∀ p x', s'.core.heap p = some x' →
    (∃ x, s.core.heap p = some x ∧ Follows cfg s e p x x') ∨ p = s.core.next ∧ Begins cfg e x'
  mapEndorse : ∀ k id p, s'.core.mapEndorse k id = some p → s.core.mapEndorse k id = some p ∨
    p = s.core.next ∧ e.asks = true ∧ ∀ S, s'.core.heap p = some (.endorse S) → S.kind = k
  mapQuery : ∀ k id p, s'.core.mapQuery k id = some p → s.core.mapQuery k id = some p ∨
    p = s.core.next ∧ e.asks = true ∧ ∀ S, s'.core.heap p = some (.query S) → S.kind = k
  outs : ∀ o ∈ outs, Fits cfg s e o

/-- The maps hold sessions of their own kind, and a registration has no key of its own. -/
structure Sorted (s : State) : Prop where
  endorse : ∀ k id p S, s.core.mapEndorse k id = some p → s.core.heap p = some (.endorse S) → S.kind = k
  query : ∀ k id p S, s.core.mapQuery k id = some p → s.core.heap p = some (.query S) → S.kind = k
  key : ∀ p S, s.core.heap p = some (.endorse S) → S.kind = .regist → S.envelopeKey = peerEnvelopeKey

section
variable {cfg : Config} {s s' s₁ : State} {e : Event} {p : Ptr} {outs : List Out} {S S' : EndorseSession} {code : Int}

/-! ## Steps that only end sessions -/

structure Shrinks (s s' : State) : Prop where
  next : s'.core.next = s.core.next
  heap : ∀ p x, s'.core.heap p = some x → s.core.heap p = some x
  mapEndorse : ∀ k id p, s'.core.mapEndorse k id = some p → s.core.mapEndorse k id = some p
  mapQuery : ∀ k id p, s'.core.mapQuery k id = some p → s.core.mapQuery k id = some p

theorem Shrinks.refl (s : State) : Shrinks s s := ⟨rfl, fun _ _ h => h, fun _ _ _ h => h, fun _ _ _ h => h⟩

theorem Shrinks.trans (h : Shrinks s s₁) (h' : Shrinks s₁ s') : Shrinks s s' where
  next := h'.next.trans h.next
  heap p x hx := h.heap p x (h'.heap p x hx)
  mapEndorse k id p hp := h.mapEndorse k id p (h'.mapEndorse k id p hp)
  mapQuery k id p hp := h.mapQuery k id p (h'.mapQuery k id p hp)

theorem shrinks_eraseEndorse (s : State) (p : Ptr) : Shrinks s { s with core := s.core.eraseEndorse p } := by
  refine ⟨rfl, fun _ _ h => h, fun k id q h => ?_, fun _ _ _ h => h⟩
  unfold Core.eraseEndorse at h
  simp only at h
  split at h
  · cases h
  · exact h

theorem shrinks_eraseQuery (s : State) (p : Ptr) : Shrinks s { s with core := s.core.eraseQuery p } := by
  refine ⟨rfl, fun _ _ h => h, fun _ _ _ h => h, fun k id q h => ?_⟩
  unfold Core.eraseQuery at h
  simp only at h
  split at h
  · cases h
  · exact h

theorem shrinks_eraseQueryKey (s : State) (k : QueryKind) (id : UInt32) :
    Shrinks s { s with core := s.core.eraseQueryKey k id } := by
  refine ⟨rfl, fun _ _ h => h, fun _ _ _ h => h, fun k' id' q h => ?_⟩
  unfold Core.eraseQueryKey at h
  simp only at h
  by_cases hk : k' = k
  · subst hk
    rw [Function.update_self] at h
    by_cases hid : id' = id
    · subst hid
      rw [Function.update_self] at h
      cases h
    · rwa [Function.update_of_ne hid] at h
  · rwa [Function.update_of_ne hk] at h

theorem shrinks_cancelDscTimer (s : State) (p : Ptr) : Shrinks s { s with core := s.core.cancelDscTimer p } :=
  ⟨rfl, fun _ _ h => h, fun _ _ _ h => h, fun _ _ _ h => h⟩

theorem Freed.shrinks (h : Freed p s s') (he : s'.core.mapEndorse = s.core.mapEndorse)
    (hq : s'.core.mapQuery = s.core.mapQuery) : Shrinks s s' := by
  refine ⟨h.next, fun q x hx => ?_, fun k id q hp => by rwa [he] at hp, fun k id q hp => by rwa [hq] at hp⟩
  rw [h.heap] at hx
  by_cases hqp : q = p
  · rw [hqp, Function.update_self] at hx
    cases hx
  · rwa [Function.update_of_ne hqp] at hx

theorem onRelease_shrinks (h : onRelease s p = .ok s') : Shrinks s s' := by
  have hfree := onRelease_ok h
  unfold onRelease at h
  obtain ⟨S, -, h⟩ := Except.bind_eq_ok.mp h
  obtain ⟨links, -, h⟩ := Except.bind_eq_ok.mp h
  obtain rfl := Except.ok.inj h
  exact hfree.shrinks rfl rfl

theorem onReleaseQuery_shrinks {info : Blob} (h : onReleaseQuery s p code info = .ok (s', outs)) : Shrinks s s' := by
  have hfree := (onReleaseQuery_freed h).1
  unfold onReleaseQuery at h
  obtain ⟨S, -, h⟩ := Except.bind_eq_ok.mp h
  obtain ⟨links, -, h⟩ := Except.bind_eq_ok.mp h
  obtain ⟨rfl, -⟩ := Prod.mk.inj (Except.ok.inj h)
  exact hfree.shrinks rfl rfl

/-- Neither a message nor a success. -/
def Out.Idle : Out → Prop
  | .es _ _ => False
  | .rsp _ m => m.code ≠ okType
  | _ => True

theorem Out.Idle.fits {o : Out} (h : o.Idle) : Fits cfg s e o := by
  cases o with
  | es hd m => exact absurd h id
  | rsp p m => exact fun hcode => absurd hcode h
  | onReady => trivial
  | onAbnormal => trivial

theorem idle_onFailed (hcode : code ≠ okType) : (onFailed cfg p S code).Idle := by
  unfold onFailed onRegistUserResponse onProposeResponse
  cases S.kind with
  | regist => exact hcode
  | propose => exact hcode

theorem idle_onGetRsp {Q : QuerySession} {info : Blob} (hcode : code ≠ okType) : (onGetRsp p Q code info).Idle := by
  unfold onGetRsp
  cases Q.kind with
  | user => exact hcode
  | trans => exact hcode

theorem deal_shrinks (hasks : e.asks = false) (h : Shrinks s s') (houts : ∀ o ∈ outs, Fits cfg s e o) :
    Deal cfg s e outs s' where
  next := by rw [hasks, h.next, if_neg Bool.false_ne_true]
  heap p x hx := .inl ⟨x, h.heap p x hx, .inl rfl⟩
  mapEndorse k id p hp := .inl (h.mapEndorse k id p hp)
  mapQuery k id p hp := .inl (h.mapQuery k id p hp)
  outs := houts

theorem onNetErrorEndorse_idle (h : onNetErrorEndorse cfg s p = .ok (s', outs)) :
    Shrinks s s' ∧ ∀ o ∈ outs, o.Idle := by
  unfold onNetErrorEndorse at h
  obtain ⟨S, -, h⟩ := Except.bind_eq_ok.mp h
  obtain ⟨s₁, hrel, h⟩ := Except.bind_eq_ok.mp h
  obtain ⟨rfl, rfl⟩ := Prod.mk.inj (Except.ok.inj h)
  refine ⟨((shrinks_cancelDscTimer s p).trans (shrinks_eraseEndorse _ p)).trans (onRelease_shrinks hrel), ?_⟩
  split
  · simp
  · simpa using idle_onFailed (by decide)

theorem onNetError_idle (h : onNetError cfg s p = .ok (s', outs)) : Shrinks s s' ∧ ∀ o ∈ outs, o.Idle := by
  unfold onNetError at h
  split at h
  · cases h
  · exact onNetErrorEndorse_idle h
  · unfold onNetErrorQuery at h
    refine ⟨((shrinks_cancelDscTimer s p).trans (shrinks_eraseQuery _ p)).trans (onReleaseQuery_shrinks h), ?_⟩
    obtain ⟨Q, -, rfl⟩ := onReleaseQuery_ok h
    simpa using idle_onGetRsp (by decide)

theorem netErrorLoop_idle {hp : HPtr} : ∀ {n i : Nat} {s s' : State} {outs : List Out},
    netErrorLoop cfg hp n i s = .ok (s', outs) → Shrinks s s' ∧ ∀ o ∈ outs, o.Idle
  | 0, _, s, s', outs, h => by
    obtain ⟨rfl, rfl⟩ := Prod.mk.inj (Except.ok.inj h)
    exact ⟨.refl s, by simp⟩
  | n + 1, i, s, s', outs, h => by
    unfold netErrorLoop at h
    split at h
    · cases h
    split at h
    · cases h
    obtain ⟨⟨s₁, outs₁⟩, hone, h⟩ := Except.bind_eq_ok.mp h
    obtain ⟨⟨s₂, outs₂⟩, hrest, h⟩ := Except.bind_eq_ok.mp h
    obtain ⟨rfl, rfl⟩ := Prod.mk.inj (Except.ok.inj h)
    obtain ⟨hsh₁, hidle₁⟩ := onNetError_idle hone
    obtain ⟨hsh₂, hidle₂⟩ := netErrorLoop_idle hrest
    refine ⟨hsh₁.trans hsh₂, fun o ho => ?_⟩
    rcases List.mem_append.mp ho with ho | ho
    · exact hidle₁ o ho
    · exact hidle₂ o ho

theorem onNetworkError_deal {hd : McpHandler} (h : onNetworkError cfg s hd = .ok (s', outs)) :
    Deal cfg s (.networkError hd) outs s' := by
  unfold onNetworkError at h
  simp only at h
  split at h
  · cases h
  obtain ⟨⟨s₁, outs₁⟩, hlose, h⟩ := Except.bind_eq_ok.mp h
  obtain ⟨rfl, rfl⟩ := Prod.mk.inj (Except.ok.inj h)
  have hidle : Shrinks s s₁ ∧ ∀ o ∈ outs₁, o.Idle := by
    unfold loseHandle at hlose
    split at hlose
    · obtain ⟨rfl, rfl⟩ := Prod.mk.inj (Except.ok.inj hlose)
      exact ⟨⟨rfl, fun _ _ h => h, fun _ _ _ h => h, fun _ _ _ h => h⟩, by simp⟩
    simp only at hlose
    split at hlose
    · cases hlose
    obtain ⟨⟨s₂, outs₂⟩, hloop, hlose⟩ := Except.bind_eq_ok.mp hlose
    obtain ⟨rfl, rfl⟩ := Prod.mk.inj (Except.ok.inj hlose)
    obtain ⟨hsh, hidle⟩ := netErrorLoop_idle hloop
    exact ⟨⟨hsh.next, hsh.heap, hsh.mapEndorse, hsh.mapQuery⟩, hidle⟩
  refine deal_shrinks rfl hidle.1 fun o ho => Out.Idle.fits ?_
  split at ho
  · rcases List.mem_append.mp ho with ho | ho
    · exact hidle.2 o ho
    · rw [List.mem_singleton.mp ho]
      trivial
  · exact hidle.2 o ho

theorem onTimeOutEndorse_deal {raw : RawMemory}
    (h : onTimeOutEndorse cfg { s with core := s.core.cancelDscTimer p } p raw = .ok (s', outs)) :
    Deal cfg s (.timer p raw) outs s' := by
  unfold onTimeOutEndorse at h
  obtain ⟨S, hS, h⟩ := Except.bind_eq_ok.mp h
  obtain ⟨s₁, hrel, h⟩ := Except.bind_eq_ok.mp h
  obtain ⟨rfl, rfl⟩ := Prod.mk.inj (Except.ok.inj h)
  have hS : s.core.heap p = some (.endorse S) := endorse_ok hS
  refine deal_shrinks rfl (((shrinks_cancelDscTimer s p).trans (shrinks_eraseEndorse _ p)).trans (onRelease_shrinks hrel))
    fun o ho => ?_
  have hfailed : Fits cfg s (.timer p raw) (onFailed cfg p S timeoutErrorType) := (idle_onFailed (by decide)).fits
  split at ho
  · cases ho
  split at ho
  · rw [List.mem_singleton.mp ho]
    exact hfailed
  · rename_i hkind
    rcases List.mem_cons.mp ho with rfl | ho
    · exact hfailed
    · rw [List.mem_singleton.mp ho]
      intro hcode
      exact ⟨_, hS, congrArg Sum.inl hkind, rfl, .inr ⟨raw, rfl, hcode⟩⟩

theorem onTimer_deal {raw : RawMemory}
    (h : onTimer cfg { s with core := s.core.cancelDscTimer p } p raw = .ok (s', outs)) :
    Deal cfg s (.timer p raw) outs s' := by
  unfold onTimer at h
  split at h
  · cases h
  · exact onTimeOutEndorse_deal h
  · unfold onTimeOutQuery at h
    obtain ⟨Q, -, h⟩ := Except.bind_eq_ok.mp h
    have hsh := shrinks_cancelDscTimer s p
    split at h
    · obtain ⟨Q', -, rfl⟩ := onReleaseQuery_ok h
      refine deal_shrinks rfl (((hsh.trans (shrinks_cancelDscTimer _ p)).trans (shrinks_eraseQuery _ p)).trans
        (onReleaseQuery_shrinks h)) ?_
      simpa using (idle_onGetRsp (by decide)).fits
    · obtain ⟨Q', -, rfl⟩ := onReleaseQuery_ok h
      refine deal_shrinks rfl ((hsh.trans (shrinks_eraseQuery _ p)).trans (onReleaseQuery_shrinks h)) ?_
      simpa using (idle_onGetRsp (by decide)).fits

/-! ## Answers to a query -/

theorem query_ok {Q : QuerySession} (h : s.query p = .ok Q) : s.core.heap p = some (.query Q) := by
  unfold State.query at h
  split at h
  · rename_i hheap
    rw [Except.ok.inj h] at hheap
    exact hheap
  · cases h

theorem onHtsMsgQuery_deal {k : QueryKind} {rsp : DataRsp} {answer : QuerySession → Int × Blob} (hasks : e.asks = false)
    (hs : Sorted s) (hv : ∀ p Q, s.core.heap p = some (.query Q) → Q.kind = k → rsp.returnCode = okType →
      (answer Q).1 = okType → Fits cfg s e (onGetRsp p Q okType (answer Q).2))
    (h : onHtsMsgQuery s k rsp answer = .ok (s', outs)) : Deal cfg s e outs s' := by
  unfold onHtsMsgQuery at h
  split at h
  · obtain ⟨rfl, rfl⟩ := Prod.mk.inj (Except.ok.inj h)
    exact deal_shrinks hasks (.refl s) (by simp)
  rename_i p hmap
  obtain ⟨Q, hQ, h⟩ := Except.bind_eq_ok.mp h
  simp only at h
  obtain ⟨Q', hQ', rfl⟩ := onReleaseQuery_ok h
  have hheap : s.core.heap p = some (.query Q) := query_ok hQ
  obtain rfl : Q = Q' := Session.query.inj (Option.some.inj (hheap.symm.trans hQ'))
  have hsh : Shrinks s s' := by
    refine (shrinks_eraseQueryKey s k rsp.cltSessionID).trans ?_
    exact (shrinks_cancelDscTimer _ p).trans (onReleaseQuery_shrinks h)
  refine deal_shrinks hasks hsh fun o ho => ?_
  rw [List.mem_singleton.mp ho]
  split
  · rename_i hok
    by_cases hcode : (answer Q).1 = okType
    · rw [hcode]
      exact hv p Q hheap (hs.query k _ p Q hmap hheap) hok hcode
    · exact (idle_onGetRsp hcode).fits
  · rename_i hcode
    exact (idle_onGetRsp hcode).fits

theorem decryptErrorType_ne : decryptErrorType ≠ okType := by decide

theorem nonceVerifyErrorType_ne : nonceVerifyErrorType ≠ okType := by decide

theorem queryUserAnswer_ok {Q : QuerySession} {data : DscBlob} (h : (queryUserAnswer cfg Q data).1 = okType) :
    ∃ d, Opens cfg Q.envelopeKey data (CryptQueryUserInfoRsp.attrs cfg.dsc) ⟨emptyBlob, emptyBlob⟩ d ∧
      d.nonce = Q.nonce ∧ (queryUserAnswer cfg Q data).2 = d.userInfo.1 := by
  unfold queryUserAnswer at h ⊢
  split at h
  · exact absurd h decryptErrorType_ne
  rename_i buf hbuf
  split at h
  · exact absurd h decryptErrorType_ne
  rename_i d rest hdec
  split at h
  · rename_i hnonce
    exact ⟨d, ⟨buf, rest, hbuf, hdec⟩, hnonce.symm, by rw [if_pos hnonce]⟩
  · exact absurd h nonceVerifyErrorType_ne

theorem queryTransAnswer_ok {Q : QuerySession} {data : DscBlob} (h : (queryTransAnswer cfg Q data).1 = okType) :
    ∃ d, Opens cfg Q.envelopeKey data (CryptQueryTransactionRspData.attrs cfg.dsc) ⟨emptyBlob, emptyBlob⟩ d ∧
      d.nonce = Q.nonce ∧ (queryTransAnswer cfg Q data).2 = d.transInfo.1 := by
  unfold queryTransAnswer at h ⊢
  split at h
  · exact absurd h decryptErrorType_ne
  rename_i buf hbuf
  split at h
  · exact absurd h decryptErrorType_ne
  rename_i d rest hdec
  split at h
  · rename_i hnonce
    exact ⟨d, ⟨buf, rest, hbuf, hdec⟩, hnonce.symm, by rw [if_pos hnonce]⟩
  · exact absurd h nonceVerifyErrorType_ne

theorem queryUserRsp_deal {rsp : DataRsp} {hd : McpHandler} (hs : Sorted s)
    (h : onHtsMsgCryptQueryUserInfoEdsCltRsp cfg s rsp = .ok (s', outs)) : Deal cfg s (.queryUserRsp rsp hd) outs s' := by
  refine onHtsMsgQuery_deal rfl hs (fun p Q hQ hkind hok hcode => ?_) h
  obtain ⟨d, hopen, hnonce, hinfo⟩ := queryUserAnswer_ok hcode
  unfold onGetRsp
  rw [hkind]
  intro _
  exact ⟨_, hQ, congrArg Sum.inr hkind, rfl, rfl, rsp, hd, d, rfl, ⟨hok, hopen, hnonce⟩, hinfo⟩

theorem queryTransRsp_deal {rsp : DataRsp} {hd : McpHandler} (hs : Sorted s)
    (h : onHtsMsgCryptQueryTransInfoEsCltRsp cfg s rsp = .ok (s', outs)) : Deal cfg s (.queryTransRsp rsp hd) outs s' := by
  refine onHtsMsgQuery_deal rfl hs (fun p Q hQ hkind hok hcode => ?_) h
  obtain ⟨d, hopen, hnonce, hinfo⟩ := queryTransAnswer_ok hcode
  unfold onGetRsp
  rw [hkind]
  intro _
  exact ⟨_, hQ, congrArg Sum.inr hkind, rfl, rfl, rfl, rsp, hd, d, rfl, ⟨hok, hopen, hnonce⟩, hinfo⟩

/-! ## Answers to a submit -/

theorem deal_put (hasks : e.asks = false) (hS : s.core.heap p = some (.endorse S)) (hb : S'.brief = S.brief)
    (hl : Learns cfg s e p S S') (hsh : Shrinks { s with core := s.core.put p (.endorse S') } s')
    (houts : ∀ o ∈ outs, Fits cfg s e o) : Deal cfg s e outs s' where
  next := by
    rw [hasks, hsh.next, if_neg Bool.false_ne_true]
    rfl
  heap q x hx := by
    have hput : update s.core.heap p (some (.endorse S')) q = some x := hsh.heap q x hx
    by_cases hqp : q = p
    · subst hqp
      rw [Function.update_self] at hput
      exact .inl ⟨_, hS, .inr ⟨S, S', rfl, (Option.some.inj hput).symm, hb, hl⟩⟩
    · rw [Function.update_of_ne hqp] at hput
      exact .inl ⟨x, hput, .inl rfl⟩
  mapEndorse k id p hp := .inl (hsh.mapEndorse k id p hp)
  mapQuery k id p hp := .inl (hsh.mapQuery k id p hp)
  outs := houts

theorem onHtsMsgSubmitTransaction_deal {k : Kind} {rsp : DataRsp}
    {read : Ptr → EndorseSession → Blob → Option (DscBlob × Out)} (hasks : e.asks = false) (hs : Sorted s)
    (hv : ∀ p S buf out, s.core.heap p = some (.endorse S) → S.kind = k → rsp.returnCode = okType →
      cfg.vbhDecrypt S.envelopeKey rsp.userData = some buf → read p S buf = some (S.nonce, out) → Fits cfg s e out)
    (h : onHtsMsgSubmitTransaction cfg s k rsp read = .ok (s', outs)) : Deal cfg s e outs s' := by
  unfold onHtsMsgSubmitTransaction at h
  split at h
  · obtain ⟨rfl, rfl⟩ := Prod.mk.inj (Except.ok.inj h)
    exact deal_shrinks hasks (.refl s) (by simp)
  rename_i p hmap
  obtain ⟨S, hS, h⟩ := Except.bind_eq_ok.mp h
  have hS := endorse_ok hS
  split at h
  · rename_i hok
    split at h
    · obtain ⟨rfl, rfl⟩ := Prod.mk.inj (Except.ok.inj h)
      exact deal_shrinks hasks (.refl s) (by simp)
    rename_i nonce out hread
    obtain ⟨buf, hbuf, hread⟩ := Option.bind_eq_some_iff.mp hread
    split at h
    · rename_i hnonce
      subst hnonce
      have hfits : ∀ o ∈ [out], Fits cfg s e o := by
        simpa using hv p S buf out hS (hs.endorse k _ p S hmap hS) hok hbuf hread
      split at h
      · obtain ⟨rfl, rfl⟩ := Prod.mk.inj (Except.ok.inj h)
        have hl : Learns cfg s e p S { S with completeRegistRsp := true } := .inl ⟨rfl, rfl⟩
        have hb : ({ S with completeRegistRsp := true } : EndorseSession).brief = S.brief := rfl
        exact deal_put hasks hS hb hl ⟨rfl, fun _ _ h => h, fun _ _ _ h => h, fun _ _ _ h => h⟩ hfits
      · obtain ⟨s₁, hrel, h⟩ := Except.bind_eq_ok.mp h
        obtain ⟨rfl, rfl⟩ := Prod.mk.inj (Except.ok.inj h)
        exact deal_shrinks hasks (((shrinks_cancelDscTimer s p).trans (shrinks_eraseEndorse _ p)).trans
          (onRelease_shrinks hrel)) hfits
    · obtain ⟨rfl, rfl⟩ := Prod.mk.inj (Except.ok.inj h)
      exact deal_shrinks hasks (.refl s) (by simp)
  · obtain ⟨rfl, rfl⟩ := Prod.mk.inj (Except.ok.inj h)
    exact deal_shrinks hasks (.refl s) (by simp)

theorem submitRegistRsp_deal {rsp : DataRsp} {hd : McpHandler} (hs : Sorted s)
    (h : onHtsMsgCryptSubmitRegistTransactionEsCltRsp cfg s rsp = .ok (s', outs)) :
    Deal cfg s (.submitRegistRsp rsp hd) outs s' := by
  refine onHtsMsgSubmitTransaction_deal rfl hs (fun p S buf out hS hkind hok hbuf hread => ?_) h
  unfold readSubmitRegist at hread
  split at hread
  · cases hread
  rename_i d rest hdec
  obtain ⟨hnonce, rfl⟩ := Prod.mk.inj (Option.some.inj hread)
  intro _
  exact ⟨_, hS, congrArg Sum.inl hkind, rfl, rfl, ⟨S, rfl, rfl⟩, rsp, hd, d, rfl, ⟨hok, ⟨buf, rest, hbuf, hdec⟩, hnonce⟩,
    rfl⟩

theorem submitProposalTransRsp_deal {rsp : DataRsp} {hd : McpHandler} (hs : Sorted s)
    (h : onHtsMsgCryptSubmitProposalTransactionEsCltRsp cfg s rsp = .ok (s', outs)) :
    Deal cfg s (.submitProposalTransRsp rsp hd) outs s' := by
  refine onHtsMsgSubmitTransaction_deal rfl hs (fun p S buf out hS hkind hok hbuf hread => ?_) h
  unfold readSubmitProposal at hread
  split at hread
  · cases hread
  rename_i d rest hdec
  obtain ⟨hnonce, rfl⟩ := Prod.mk.inj (Option.some.inj hread)
  intro _
  exact ⟨_, hS, congrArg Sum.inl hkind, rfl, .inl ⟨rsp, hd, d, rfl, ⟨hok, ⟨buf, rest, hbuf, hdec⟩, hnonce⟩, rfl, rfl⟩⟩

end

end VProtocol.Crypt
