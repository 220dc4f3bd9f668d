import VProtocol.Crypt.Service

/-!
# What an answer to a query hands on

An answer is authentic when it decrypts to bytes that decode completely, with the nonce of
the session. The user info and the transaction info are read before the nonce is compared,
and the user info even before the nonce is read.
-/

namespace VProtocol.Crypt

open Function (update)
open Client (Kind McpHandler Ptr HPtr Links Fault Res)

/-! ## The bytes of an answer -/

section
variable (cfg : Config)

def readAnswer (k : QueryKind) (buf : Blob) : Option (DscBlob × DscBlob) :=
  (cfg.dsc.blob.decode buf).bind fun r => (cfg.dsc.blob.decode r.2).map fun r' =>
    match k with
    | .user => (r.1, r'.1)
    | .trans => (r'.1, r.1)

/-- The info that is in the bytes, whether they decode completely or not. -/
def leftInfo : QueryKind → Blob → DscBlob
  | .user, buf =>
    match cfg.dsc.blob.decode buf with
    | none => emptyBlob
    | some (info, _) => info
  | .trans, buf =>
    match cfg.dsc.blob.decode buf with
    | none => emptyBlob
    | some (_, rest) =>
      match cfg.dsc.blob.decode rest with
      | none => emptyBlob
      | some (info, _) => info

theorem leftInfo_of_readAnswer {k buf info nonce} (h : readAnswer cfg k buf = some (info, nonce)) :
    leftInfo cfg k buf = info := by
  unfold readAnswer at h
  obtain ⟨⟨b, rest⟩, hb, h⟩ := Option.bind_eq_some_iff.mp h
  obtain ⟨⟨b', rest'⟩, hb', h⟩ := Option.map_eq_some_iff.mp h
  cases k with
  | user =>
    obtain ⟨rfl, -⟩ := Prod.mk.inj h
    simp only [leftInfo, hb]
  | trans =>
    obtain ⟨rfl, -⟩ := Prod.mk.inj h
    simp only [leftInfo, hb, hb']

/-- An OK answer for the session that decrypts, decodes completely and has its nonce. -/
def Authentic (k : QueryKind) (S : QuerySession) (rsp : DataRsp) : Prop :=
  rsp.returnCode = okType ∧ ∃ buf info, cfg.vbhDecrypt S.envelopeKey rsp.userData = some buf ∧
    readAnswer cfg k buf = some (info, S.nonce)

def queryAnswer : QueryKind → QuerySession → DscBlob → Int × Blob
  | .user => queryUserAnswer cfg
  | .trans => queryTransAnswer cfg

def answerCode (k : QueryKind) (S : QuerySession) (buf : Blob) : Int :=
  match readAnswer cfg k buf with
  | none => decryptErrorType
  | some (_, nonce) => if S.nonce = nonce then okType else nonceVerifyErrorType

theorem queryAnswer_some {k : QueryKind} {S : QuerySession} {data : DscBlob} {buf : Blob}
    (h : cfg.vbhDecrypt S.envelopeKey data = some buf) :
    queryAnswer cfg k S data = (answerCode cfg k S buf, (leftInfo cfg k buf).1) := by
  cases k with
  | user =>
    unfold queryAnswer queryUserAnswer answerCode readAnswer leftInfo CryptQueryUserInfoRsp.attrs
    simp only [h, decodeAttrs, Codec.attr]
    cases cfg.dsc.blob.decode buf with
    | none => rfl
    | some r =>
      simp only [Option.map_some, Option.bind_some]
      cases cfg.dsc.blob.decode r.2 with
      | none => rfl
      | some r' => by_cases hn : S.nonce = r'.1 <;> simp [hn]
  | trans =>
    unfold queryAnswer queryTransAnswer answerCode readAnswer leftInfo CryptQueryTransactionRspData.attrs
    simp only [h, decodeAttrs, Codec.attr]
    cases cfg.dsc.blob.decode buf with
    | none => rfl
    | some r =>
      simp only [Option.map_some, Option.bind_some]
      cases cfg.dsc.blob.decode r.2 with
      | none => rfl
      | some r' => by_cases hn : S.nonce = r.1 <;> simp [hn]

theorem queryAnswer_none {k : QueryKind} {S : QuerySession} {data : DscBlob}
    (h : cfg.vbhDecrypt S.envelopeKey data = none) : queryAnswer cfg k S data = (decryptErrorType, []) := by
  cases k with
  | user =>
    unfold queryAnswer queryUserAnswer
    simp only [h]
  | trans =>
    unfold queryAnswer queryTransAnswer
    simp only [h]

theorem answerCode_eq_ok {k : QueryKind} {S : QuerySession} {buf : Blob} :
    answerCode cfg k S buf = okType ↔ ∃ info, readAnswer cfg k buf = some (info, S.nonce) := by
  unfold answerCode
  split
  · rename_i hread
    constructor
    · intro h
      exact absurd h (by decide)
    · intro ⟨info, h⟩
      cases hread.symm.trans h
  · rename_i info nonce hread
    constructor
    · intro h
      by_cases hn : S.nonce = nonce
      · exact ⟨info, hn ▸ hread⟩
      · rw [if_neg hn] at h
        exact absurd h (by decide)
    · intro ⟨info', h⟩
      obtain ⟨-, hn⟩ := Prod.mk.inj (Option.some.inj (hread.symm.trans h))
      rw [if_pos hn.symm]

end

/-! ## The step -/

def State.waiting (s : State) (k : QueryKind) (id : UInt32) : Option QuerySession :=
  match (s.core.mapQuery k id).bind s.core.heap with
  | some (.query S) => some S
  | _ => none

def Out.info : Out → Option (Int × Blob)
  | .rsp _ (.getUserInfoRsp code _ _ info) => some (code, info)
  | .rsp _ (.getTransInfoRsp code _ _ _ info) => some (code, info)
  | _ => none

def Out.withoutCode : Out → Out
  | .rsp p (.getUserInfoRsp _ channelID userKey info) => .rsp p (.getUserInfoRsp okType channelID userKey info)
  | .rsp p (.getTransInfoRsp _ channelID userKey transKey info) =>
    .rsp p (.getTransInfoRsp okType channelID userKey transKey info)
  | o => o

@[simp] theorem info_onGetRsp (p : Ptr) (S : QuerySession) (code : Int) (info : Blob) :
    (onGetRsp p S code info).info = some (code, info) := by
  unfold onGetRsp
  cases S.kind <;> rfl

theorem withoutCode_onGetRsp (p : Ptr) (S : QuerySession) (code : Int) (info : Blob) :
    (onGetRsp p S code info).withoutCode = onGetRsp p S okType info := by
  unfold onGetRsp
  cases S.kind <;> rfl

def QueryKind.answer : QueryKind → DataRsp → McpHandler → Event
  | .user => .queryUserRsp
  | .trans => .queryTransRsp

section
variable {cfg : Config} {s s' : State} {k : QueryKind} {rsp : DataRsp} {h : McpHandler} {outs : List Out}

theorem onReleaseQuery_ok {p code info} (hst : onReleaseQuery s p code info = .ok (s', outs)) :
    ∃ S, s.core.heap p = some (.query S) ∧ outs = [onGetRsp p S code info] := by
  unfold onReleaseQuery at hst
  obtain ⟨S, hS, hst⟩ := Except.bind_eq_ok.mp hst
  obtain ⟨links, -, hst⟩ := Except.bind_eq_ok.mp hst
  obtain ⟨-, rfl⟩ := Prod.mk.inj (Except.ok.inj hst)
  refine ⟨S, ?_, rfl⟩
  unfold State.query at hS
  split at hS
  · rename_i hheap
    rw [← Except.ok.inj hS]
    exact hheap
  · cases hS

theorem step_answer (hst : step cfg s (k.answer rsp h) = .ok (s', outs)) :
    (s.waiting k rsp.cltSessionID = none ∧ outs = []) ∨
    ∃ p S, s.core.mapQuery k rsp.cltSessionID = some p ∧ s.waiting k rsp.cltSessionID = some S ∧
      outs = [if rsp.returnCode = okType then
          onGetRsp p S (queryAnswer cfg k S rsp.userData).1 (queryAnswer cfg k S rsp.userData).2
        else onGetRsp p S rsp.returnCode []] := by
  have hq : onHtsMsgQuery s k rsp (queryAnswer cfg k · rsp.userData) = .ok (s', outs) := by
    cases k with
    | user => exact hst
    | trans => exact hst
  unfold onHtsMsgQuery at hq
  unfold State.waiting
  cases hmap : s.core.mapQuery k rsp.cltSessionID with
  | none =>
    rw [hmap] at hq
    obtain ⟨-, rfl⟩ := Prod.mk.inj (Except.ok.inj hq)
    exact .inl ⟨rfl, rfl⟩
  | some p =>
    rw [hmap] at hq
    obtain ⟨S, hS, hq⟩ := Except.bind_eq_ok.mp hq
    unfold State.query at hS
    simp only at hS hq
    split at hS
    · rename_i hheap
      rw [Except.ok.inj hS] at hheap
      have hheap' : s.core.heap p = some (.query S) := hheap
      refine .inr ⟨p, S, rfl, by rw [Option.bind_some, hheap'], ?_⟩
      obtain ⟨S', hS', houts⟩ := onReleaseQuery_ok hq
      obtain rfl : S = S' := Session.query.inj (Option.some.inj (hheap'.symm.trans hS'))
      rw [houts]
      split <;> rfl
    · cases hS

/-! ## What the application gets -/

/-- Info that the application gets comes from an authentic answer; what does not comes
with an error code and without info. -/
def Guarded (cfg : Config) (s : State) (k : QueryKind) (rsp : DataRsp) (outs : List Out) : Prop :=
  ∀ o ∈ outs, ∀ code info, o.info = some (code, info) →
    (∃ S, s.waiting k rsp.cltSessionID = some S ∧ Authentic cfg k S rsp) ∨ code ≠ okType ∧ info = []

/-- Nothing is in the decrypted bytes of the answer where the info stands, unless they
decode completely and have the nonce of the session. -/
def Bare (cfg : Config) (s : State) (k : QueryKind) (rsp : DataRsp) : Prop :=
  ∀ S, s.waiting k rsp.cltSessionID = some S → rsp.returnCode = okType →
    ∀ buf, cfg.vbhDecrypt S.envelopeKey rsp.userData = some buf →
      (∃ info, readAnswer cfg k buf = some (info, S.nonce)) ∨ leftInfo cfg k buf = emptyBlob

theorem guarded_of_step (hst : step cfg s (k.answer rsp h) = .ok (s', outs)) :
    Guarded cfg s k rsp outs ↔ Bare cfg s k rsp := by
  unfold Guarded Bare
  rcases step_answer hst with ⟨hwait, rfl⟩ | ⟨p, S, -, hwait, rfl⟩
  · rw [hwait]
    exact ⟨fun _ S hS => (Option.some_ne_none S hS.symm).elim, fun _ o ho => (List.not_mem_nil ho).elim⟩
  · simp only [hwait, Option.some.injEq, List.mem_singleton, forall_eq, forall_eq', exists_eq_left']
    by_cases hcode : rsp.returnCode = okType
    · simp only [if_pos hcode, info_onGetRsp, Option.some.injEq, Prod.mk.injEq]
      unfold Authentic
      cases hdec : cfg.vbhDecrypt S.envelopeKey rsp.userData with
      | none =>
        rw [queryAnswer_none cfg hdec]
        constructor
        · intro _ _ buf hbuf
          cases hbuf
        · intro _ code info ⟨hc, hi⟩
          exact .inr ⟨hc ▸ (by decide), hi.symm⟩
      | some buf =>
        rw [queryAnswer_some cfg hdec]
        constructor
        · intro hg _ buf' hbuf
          obtain rfl := Option.some.inj hbuf
          rcases hg _ _ ⟨rfl, rfl⟩ with ⟨-, buf', info, hbuf', hread⟩ | ⟨-, hinfo⟩
          · obtain rfl := Option.some.inj hbuf'
            exact .inl ⟨info, hread⟩
          · exact .inr (Subtype.ext hinfo)
        · intro hb code info ⟨hc, hi⟩
          by_cases hread : ∃ info, readAnswer cfg k buf = some (info, S.nonce)
          · obtain ⟨info', hread⟩ := hread
            exact .inl ⟨hcode, buf, info', rfl, hread⟩
          · have hleft := (hb hcode buf rfl).resolve_left hread
            rw [hleft] at hi
            refine .inr ⟨fun h => hread ((answerCode_eq_ok cfg).mp (hc.trans h)), hi.symm⟩
    · simp only [if_neg hcode, info_onGetRsp, Option.some.injEq, Prod.mk.injEq]
      constructor
      · intro _ h
        exact absurd h hcode
      · intro _ code info ⟨hc, hi⟩
        exact .inr ⟨fun h => hcode (hc.trans h), hi.symm⟩

/-- An OK answer that decodes completely, to this info and a nonce that is not the session's. -/
def WrongNonce (cfg : Config) (s : State) (k : QueryKind) (rsp : DataRsp) (info : DscBlob) : Prop :=
  rsp.returnCode = okType ∧ ∃ S buf nonce, s.waiting k rsp.cltSessionID = some S ∧
    cfg.vbhDecrypt S.envelopeKey rsp.userData = some buf ∧ readAnswer cfg k buf = some (info, nonce) ∧ nonce ≠ S.nonce

theorem outs_of_wrongNonce {info} (hst : step cfg s (k.answer rsp h) = .ok (s', outs))
    (hw : WrongNonce cfg s k rsp info) :
    ∃ p S, s.core.mapQuery k rsp.cltSessionID = some p ∧ s.waiting k rsp.cltSessionID = some S ∧
      outs = [onGetRsp p S nonceVerifyErrorType info.1] := by
  obtain ⟨hcode, S, buf, nonce, hwait, hdec, hread, hne⟩ := hw
  rcases step_answer hst with ⟨hnone, -⟩ | ⟨p, S', hp, hwait', rfl⟩
  · cases hnone.symm.trans hwait
  · obtain rfl := Option.some.inj (hwait'.symm.trans hwait)
    refine ⟨p, S', hp, hwait, ?_⟩
    have hans : answerCode cfg k S' buf = nonceVerifyErrorType := by
      unfold answerCode
      simp only [hread]
      exact if_neg hne.symm
    rw [if_pos hcode, queryAnswer_some cfg hdec, hans, leftInfo_of_readAnswer cfg hread]

theorem onGetRsp_inj {p : Ptr} {S : QuerySession} {code : Int} {info info' : Blob} :
    onGetRsp p S code info = onGetRsp p S code info' ↔ info = info' := by
  unfold onGetRsp
  cases S.kind <;> simp

end

/-- An answer that is not authentic hands nothing on exactly when there is nothing in it where
the info stands. Two answers with wrong nonces are the same to the application, but for
the code, exactly when the same info is in them. -/
theorem unauthenticated_iff (cfg : Config) (s : State) (k : QueryKind) {rsp h s' outs}
    (hst : step cfg s (k.answer rsp h) = .ok (s', outs)) :
    (Guarded cfg s k rsp outs ↔ Bare cfg s k rsp) ∧
    ∀ rsp' h' s'' outs', step cfg s (k.answer rsp' h') = .ok (s'', outs') → rsp'.cltSessionID = rsp.cltSessionID →
      ∀ info info', WrongNonce cfg s k rsp info → WrongNonce cfg s k rsp' info' →
        (outs'.map Out.withoutCode = outs.map Out.withoutCode ↔ info' = info) := by
  refine ⟨guarded_of_step hst, fun rsp' h' s'' outs' hst' hid info info' hw hw' => ?_⟩
  obtain ⟨p, S, hp, hwait, rfl⟩ := outs_of_wrongNonce hst hw
  obtain ⟨p', S', hp', hwait', rfl⟩ := outs_of_wrongNonce hst' hw'
  rw [hid] at hp' hwait'
  obtain rfl := Option.some.inj (hp'.symm.trans hp)
  obtain rfl := Option.some.inj (hwait'.symm.trans hwait)
  simp only [List.map_cons, List.map_nil, List.cons.injEq, and_true, withoutCode_onGetRsp]
  rw [onGetRsp_inj, Subtype.ext_iff]

/-! ## A user info that nobody vouches for -/

/-- One endorser, and a cipher that changes nothing. -/
def plainConfig : Config where
  endorsePeerCount := 1
  pos := by decide
  lt := by decide
  peers := [(1, [7])]
  dsc := plainCodec
  vbhEncrypt _ data := if h : data.length < 2 ^ 32 then some ⟨data, h⟩ else none
  vbhDecrypt _ data := some data.1
  encodeClientCryptKey svrPubKey _ _ := some svrPubKey
  decodeClientCryptKey key := some (key, key, key)

def endorser : McpHandler := ⟨0, 7⟩

def blobOf (c : UInt8) : DscBlob := ⟨[c], by rw [List.length_singleton]; decide⟩

def asked : List Event :=
  [.connected endorser 0 0 0,
    .queryUserReq ⟨0, ⟨List.replicate 14 0, by decide⟩, emptyBlob⟩ { nonce := blobOf 1 }]

/-- An answer to it with the nonce 2. -/
def forged (info : UInt8) : DataRsp where
  returnCode := okType
  cltSessionID := 0
  userData := ⟨[0, 0, 0, 1, info, 0, 0, 0, 1, 2], by simp⟩

theorem forged_wrongNonce (info : UInt8) :
    WrongNonce plainConfig (final (step plainConfig) {} asked) .user (forged info) (blobOf info) := by
  refine ⟨rfl, ⟨.user, 0, blobOf 1, 0, ⟨List.replicate 14 0, by decide⟩, emptyBlob, emptyBlob⟩, _, blobOf 2, rfl, rfl,
    ?_, by decide⟩
  rfl

theorem forged_step (info : UInt8) : ∃ s', step plainConfig (final (step plainConfig) {} asked)
    (QueryKind.user.answer (forged info) endorser) =
      .ok (s', [.rsp 0 (.getUserInfoRsp nonceVerifyErrorType 0 (List.replicate 14 0) [info])]) := by
  exact ⟨_, rfl⟩

/-- An answer with a wrong nonce still gives the application its user info. -/
theorem info_unguarded : ¬ ∀ (cfg : Config) (tr : History) (s : State), Run (step cfg) {} anyStep tr s →
    ∀ k rsp h s' outs, step cfg s (QueryKind.answer k rsp h) = .ok (s', outs) → Guarded cfg s k rsp outs := by
  intro hall
  obtain ⟨s', hst⟩ := forged_step 9
  have hg := hall plainConfig _ _ (run_trace_any asked) .user (forged 9) endorser s' _ hst _ (List.mem_singleton.mpr rfl)
    _ _ rfl
  rcases hg with ⟨S, hS, -, buf, info, hdec, hread⟩ | ⟨-, hinfo⟩
  · obtain ⟨-, S', buf', nonce, hS', hdec', hread', hne⟩ := forged_wrongNonce 9
    obtain rfl := Option.some.inj (hS.symm.trans hS')
    obtain rfl := Option.some.inj (hdec.symm.trans hdec')
    exact hne (Prod.mk.inj (Option.some.inj (hread'.symm.trans hread))).2
  · cases hinfo

theorem unauthenticated_two : ∃ s s' s'' outs outs', step plainConfig s (QueryKind.user.answer (forged 8) endorser) =
      .ok (s', outs) ∧ step plainConfig s (QueryKind.user.answer (forged 9) endorser) = .ok (s'', outs') ∧
    (Guarded plainConfig s .user (forged 8) outs ↔ Bare plainConfig s .user (forged 8)) ∧
    outs'.map Out.withoutCode ≠ outs.map Out.withoutCode := by
  obtain ⟨s', hst⟩ := forged_step 8
  obtain ⟨s'', hst'⟩ := forged_step 9
  obtain ⟨hguard, hsame⟩ := unauthenticated_iff plainConfig _ .user hst
  refine ⟨_, s', s'', _, _, hst, hst', hguard, fun h => ?_⟩
  have hinfo := (hsame _ _ _ _ hst' rfl _ _ (forged_wrongNonce 8) (forged_wrongNonce 9)).mp h
  cases hinfo

end VProtocol.Crypt
