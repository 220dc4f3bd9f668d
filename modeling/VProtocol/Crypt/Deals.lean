import VProtocol.Crypt.Sealed

/-!
# Deals

What each step sends, reports, learns and makes of the sessions, from the loop over the
endorsers to the answers that complete an endorsement.
-/

namespace VProtocol.Crypt

open Function (update)
open Client (McpHandler Ptr HPtr Res)

section
variable {cfg : Config} {s s' : State} {e : Event} {p : Ptr} {outs outs' : List Out} {S S' : EndorseSession} {code : Int}

/-! ## Answers of the endorsers -/

/-- What an answer makes of its session and sends for it. -/
structure Answers (cfg : Config) (s : State) (e : Event) (p : Ptr) (S S' : EndorseSession) (outs : List Out) : Prop where
  brief : S'.brief = S.brief
  submitEs : S'.submitEs = S.submitEs
  learns : Learns cfg s e p S S'
  outs : ∀ o ∈ outs, Fits cfg s e o

theorem Learns.refl (cfg : Config) (s : State) (e : Event) (p : Ptr) (S : EndorseSession) : Learns cfg s e p S S :=
  .inl ⟨rfl, rfl⟩

theorem Answers.refused : Answers cfg s e p S S [] := ⟨rfl, rfl, .refl .., by simp⟩

theorem Learns.knows (h : Learns cfg s e p S S') :
    S'.esSessionID = S.esSessionID ∨ ∃ key, Credited cfg s e p S.brief S'.esSessionID key := by
  rcases h with ⟨hid, -⟩ | ⟨key, hcred, -⟩
  · exact .inl hid
  · exact .inr ⟨key, hcred⟩

theorem countAnswer_brief {content : DscBlob} (h : S.countAnswer content = some S') :
    S'.brief = S.brief ∧ S'.esSessionID = S.esSessionID ∧ S'.encodedClientCryptKey = S.encodedClientCryptKey := by
  unfold EndorseSession.countAnswer at h
  split at h
  · rw [← Option.some.inj h]
    exact ⟨rfl, rfl, rfl⟩
  split at h
  · rw [← Option.some.inj h]
    exact ⟨rfl, rfl, rfl⟩
  · cases h

theorem submit_answers {key : DscBlob} {env : AnswerEnv} (hS : s.core.heap p = some (.endorse S))
    (hkey : key = S.envelopeKey) (ha : Answers cfg s e p S S' []) (h : submit cfg s S' key env = .ok (outs, code)) :
    Answers cfg s e p S S' outs := by
  refine ⟨ha.brief, ha.submitEs, ha.learns, ?_⟩
  unfold submit at h
  split at h
  · obtain ⟨rfl, -⟩ := Prod.mk.inj (Except.ok.inj h)
    simp
  rename_i userData hdata
  obtain ⟨hd, hhd, h⟩ := Except.bind_eq_ok.mp h
  rw [submitHandler_congr ha.submitEs] at hhd
  split at h
  · obtain ⟨rfl, -⟩ := Prod.mk.inj (Except.ok.inj h)
    simp
  · obtain ⟨rfl, -⟩ := Prod.mk.inj (Except.ok.inj h)
    intro o ho
    rw [List.mem_singleton.mp ho]
    refine .inr ⟨p, S, hS, hhd, congrArg Brief.kind ha.brief.symm, ha.learns.knows, ?_⟩
    have hnonce : S'.nonce = S.nonce := congrArg Brief.nonce ha.brief
    rwa [hkey, hnonce] at hdata

theorem cancel_fits {env : AnswerEnv} (hS : s.core.heap p = some (.endorse S)) (ha : Answers cfg s e p S S' outs)
    (h : cancel cfg s S' code env = .ok outs') : ∀ o ∈ outs', Fits cfg s e o := by
  unfold cancel at h
  split at h
  · obtain rfl := Except.ok.inj h
    simp
  split at h
  · obtain rfl := Except.ok.inj h
    simp
  rename_i userData hdata
  obtain ⟨hd, hhd, h⟩ := Except.bind_eq_ok.mp h
  rw [submitHandler_congr ha.submitEs] at hhd
  obtain rfl := Except.ok.inj h
  split
  · simp
  · intro o ho
    rw [List.mem_singleton.mp ho]
    refine .inr ⟨p, S, hS, hhd, congrArg Brief.kind ha.brief.symm, ha.learns.knows, ?_⟩
    have hnonce : S'.nonce = S.nonce := congrArg Brief.nonce ha.brief
    rwa [hnonce] at hdata

theorem answered_deal {env : AnswerEnv} (hasks : e.asks = false) (hS : s.core.heap p = some (.endorse S))
    (ha : Answers cfg s e p S S' outs) (h : answered cfg s p S' outs code env = .ok (s', outs')) :
    Deal cfg s e outs' s' := by
  unfold answered at h
  simp only at h
  split at h
  · obtain ⟨rfl, rfl⟩ := Prod.mk.inj (Except.ok.inj h)
    exact deal_put hasks hS ha.brief ha.learns (.refl _) ha.outs
  rename_i hcode
  obtain ⟨cancelled, hcancel, h⟩ := Except.bind_eq_ok.mp h
  obtain ⟨s₁, hrel, h⟩ := Except.bind_eq_ok.mp h
  obtain ⟨rfl, rfl⟩ := Prod.mk.inj (Except.ok.inj h)
  refine deal_put hasks hS ha.brief ha.learns
    (((shrinks_cancelDscTimer _ p).trans (shrinks_eraseEndorse _ p)).trans (onRelease_shrinks hrel)) fun o ho => ?_
  rcases List.mem_append.mp ho with ho | ho
  · rcases List.mem_append.mp ho with ho | ho
    · exact ha.outs o ho
    · have hcancel : cancel cfg s S' code env = .ok cancelled := hcancel
      exact cancel_fits hS ha hcancel o ho
  · rw [List.mem_singleton.mp ho]
    exact (idle_onFailed hcode).fits

theorem ofCode_answers {rsp : EndorseRsp} {answer : Res (EndorseSession × List Out × Int)}
    (ha : rsp.returnCode = okType → answer = .ok (S', outs, code) → Answers cfg s e p S S' outs)
    (h : ofCode S rsp.returnCode answer = .ok (S', outs, code)) : Answers cfg s e p S S' outs := by
  unfold ofCode at h
  split at h
  · rename_i hok
    exact ha hok h
  · obtain ⟨rfl, rfl, -⟩ := Except.ok_triple h
    exact .refused

theorem registAnswer_answers {rsp : EndorseRsp} {hd : McpHandler} {env : AnswerEnv}
    (hS : s.core.heap p = some (.endorse S))
    (hmap : s.core.mapEndorse .regist rsp.cltSessionID = some p) (hkey : S.envelopeKey = peerEnvelopeKey)
    (hok : rsp.returnCode = okType) (h : registAnswer cfg s S rsp hd env = .ok (S', outs, code)) :
    Answers cfg s (.registUserRsp rsp hd env) p S S' outs := by
  unfold registAnswer at h
  split at h
  · obtain ⟨rfl, rfl, -⟩ := Except.ok_triple h
    exact .refused
  rename_i buf hbuf
  split at h
  · obtain ⟨rfl, rfl, -⟩ := Except.ok_triple h
    exact .refused
  rename_i d rest hdec
  split at h
  · obtain ⟨rfl, rfl, -⟩ := Except.ok_triple h
    exact .refused
  rename_i hnonce
  split at h
  · obtain ⟨rfl, rfl, -⟩ := Except.ok_triple h
    exact .refused
  rename_i hallow
  split at h
  · obtain ⟨rfl, rfl, -⟩ := Except.ok_triple h
    exact .refused
  rename_i S₁ hcount
  obtain ⟨hb, hid, hck⟩ := countAnswer_brief hcount
  obtain ⟨-, -, -, hes⟩ := countAnswer_complete hcount
  obtain ⟨hsub, hh, h⟩ := Except.bind_eq_ok.mp h
  rw [submitHandler_congr hes] at hh
  rw [not_not] at hnonce
  rw [Bool.not_eq_false] at hallow
  rw [← hkey] at hbuf
  have hcred : ∀ key, cfg.encodeClientCryptKey d.svrPubCryptKey d.cltPriCryptKey d.envelopeKey = key → hd = hsub →
      Credited cfg s (.registUserRsp rsp hd env) p S.brief rsp.esSessionID key := fun key hk heq =>
    ⟨S, hsub, hS, hh, heq, hmap, hok, rfl, d, ⟨buf, rest, hbuf, hdec⟩, hnonce.symm, hallow, hk⟩
  split at h
  · rename_i hnokey
    obtain ⟨rfl, rfl, -⟩ := Except.ok_triple h
    obtain ⟨hsel, hno⟩ := recordKey_none hnokey
    exact ⟨hb, hes, .inr ⟨none, hcred none hno (of_decide_eq_true hsel), hck⟩, by simp⟩
  rename_i S₂ hrecord
  have ha : Answers cfg s (.registUserRsp rsp hd env) p S S₂ [] := by
    unfold EndorseSession.recordKey at hrecord
    split at hrecord
    · rename_i hsel
      obtain ⟨key, hk, rfl⟩ := Option.map_eq_some_iff.mp hrecord
      exact ⟨hb, hes, .inr ⟨some key, hcred (some key) hk (of_decide_eq_true hsel), rfl⟩, by simp⟩
    · obtain rfl := Option.some.inj hrecord
      exact ⟨hb, hes, .inl ⟨hid, hck⟩, by simp⟩
  split at h
  · obtain ⟨⟨outs₁, code₁⟩, hsubmit, h⟩ := Except.bind_eq_ok.mp h
    obtain ⟨rfl, rfl, -⟩ := Except.ok_triple h
    exact submit_answers hS hkey.symm ha hsubmit
  · obtain ⟨rfl, rfl, -⟩ := Except.ok_triple h
    exact ha

theorem proposeAnswer_answers {rsp : EndorseRsp} {hd : McpHandler} {env : AnswerEnv}
    (hS : s.core.heap p = some (.endorse S))
    (hmap : s.core.mapEndorse .propose rsp.cltSessionID = some p) (hok : rsp.returnCode = okType)
    (h : proposeAnswer cfg s S rsp hd env = .ok (S', outs, code)) :
    Answers cfg s (.submitProposalRsp rsp hd env) p S S' outs := by
  unfold proposeAnswer at h
  split at h
  · obtain ⟨rfl, rfl, -⟩ := Except.ok_triple h
    exact .refused
  rename_i buf hbuf
  split at h
  · obtain ⟨rfl, rfl, -⟩ := Except.ok_triple h
    exact .refused
  rename_i d rest hdec
  split at h
  · obtain ⟨rfl, rfl, -⟩ := Except.ok_triple h
    exact .refused
  rename_i hnonce
  rw [not_not] at hnonce
  obtain ⟨⟨S₂, code₂⟩, hcompare, h⟩ := Except.bind_eq_ok.mp h
  have ha : Answers cfg s (.submitProposalRsp rsp hd env) p S S₂ [] := by
    unfold compareAnswer at hcompare
    split at hcompare
    · obtain ⟨rfl, -⟩ := Prod.mk.inj (Except.ok.inj hcompare)
      exact .refused
    rename_i S₁ hcount
    obtain ⟨hb, hid, hck⟩ := countAnswer_brief hcount
    obtain ⟨-, -, -, hes⟩ := countAnswer_complete hcount
    obtain ⟨hsub, hh, hcompare⟩ := Except.bind_eq_ok.mp hcompare
    rw [submitHandler_congr hes] at hh
    obtain ⟨rfl, -⟩ := Prod.mk.inj (Except.ok.inj hcompare)
    split
    · rename_i heq
      have hcred : Credited cfg s (.submitProposalRsp rsp hd env) p S.brief rsp.esSessionID none :=
        ⟨S, hsub, hS, hh, heq, hmap, hok, rfl, d, ⟨buf, rest, hbuf, hdec⟩, hnonce.symm, rfl⟩
      exact ⟨hb, hes, .inr ⟨none, hcred, hck⟩, by simp⟩
    · exact ⟨hb, hes, .inl ⟨hid, hck⟩, by simp⟩
  simp only at h
  have hkey : S₂.envelopeKey = S.envelopeKey := congrArg Brief.envelopeKey ha.brief
  split at h
  · obtain ⟨⟨outs₁, code₁⟩, hsubmit, h⟩ := Except.bind_eq_ok.mp h
    obtain ⟨rfl, rfl, -⟩ := Except.ok_triple h
    exact submit_answers hS hkey ha hsubmit
  · obtain ⟨rfl, rfl, -⟩ := Except.ok_triple h
    exact ha

theorem registUserRsp_deal {rsp : EndorseRsp} {hd : McpHandler} {env : AnswerEnv} (hs : Sorted s)
    (h : onHtsMsgCryptRegistUserEsCltRsp cfg s rsp hd env = .ok (s', outs)) :
    Deal cfg s (.registUserRsp rsp hd env) outs s' := by
  unfold onHtsMsgCryptRegistUserEsCltRsp at h
  split at h
  · cases h
  rename_i p hmap
  obtain ⟨S, hS, h⟩ := Except.bind_eq_ok.mp h
  have hS := endorse_ok hS
  obtain ⟨⟨S', outs₁, code⟩, hanswer, h⟩ := Except.bind_eq_ok.mp h
  have hkey := hs.key p S hS (hs.endorse .regist _ p S hmap hS)
  exact answered_deal rfl hS (ofCode_answers (registAnswer_answers hS hmap hkey) hanswer) h

theorem submitProposalRsp_deal {rsp : EndorseRsp} {hd : McpHandler} {env : AnswerEnv}
    (h : onHtsMsgCryptSubmitProposalEsCltRsp cfg s rsp hd env = .ok (s', outs)) :
    Deal cfg s (.submitProposalRsp rsp hd env) outs s' := by
  unfold onHtsMsgCryptSubmitProposalEsCltRsp at h
  split at h
  · obtain ⟨rfl, rfl⟩ := Prod.mk.inj (Except.ok.inj h)
    exact deal_shrinks rfl (.refl s) (by simp)
  rename_i p hmap
  obtain ⟨S, hS, h⟩ := Except.bind_eq_ok.mp h
  have hS := endorse_ok hS
  obtain ⟨⟨S', outs₁, code⟩, hanswer, h⟩ := Except.bind_eq_ok.mp h
  exact answered_deal rfl hS (ofCode_answers (proposeAnswer_answers hS hmap) hanswer) h

/-! ## Requests of the application -/

/-- The same session but for the handles. -/
def SameButHandles (S S' : EndorseSession) : Prop :=
  S'.brief = S.brief ∧ S'.esSessionID = S.esSessionID ∧ S'.encodedClientCryptKey = S.encodedClientCryptKey

theorem broadcast_same {rand : Nat} {sendErr : Nat → Bool} {msg : Bool → EsMsg} : ∀ {n idx : Nat} {s s' : State}
    {S : EndorseSession} {outs : List Out} {code : Int}, s.core.heap p = some (.endorse S) →
    broadcast cfg p rand sendErr msg n idx s = .ok (s', outs, code) →
    (∀ k id q, s'.core.mapEndorse k id = some q → s.core.mapEndorse k id = some q) ∧
    (∀ k id q, s'.core.mapQuery k id = some q → s.core.mapQuery k id = some q) ∧
    (∀ x, s'.core.heap p = some x → ∃ S', x = .endorse S' ∧ SameButHandles S S') ∧
    ∀ o ∈ outs, (∃ hd submitNode, o = .es hd (msg submitNode)) ∨ o.Idle
  | 0, idx, s, s', S, outs, code, hS, h => by
    obtain ⟨rfl, rfl, rfl⟩ := Except.ok_triple h
    refine ⟨fun _ _ _ h => h, fun _ _ _ h => h, fun x hx => ?_, by simp⟩
    exact ⟨S, Option.some.inj (hx.symm.trans hS), rfl, rfl, rfl⟩
  | n + 1, idx, s, s', S, outs, code, hS, h => by
    unfold broadcast at h
    split at h
    · cases h
    simp only at h
    obtain ⟨S', hS', h⟩ := Except.bind_eq_ok.mp h
    obtain rfl : S = S' := Session.endorse.inj (Option.some.inj (hS.symm.trans (endorse_ok hS')))
    obtain ⟨links, -, h⟩ := Except.bind_eq_ok.mp h
    split at h
    · obtain ⟨⟨s₂, outs₂⟩, hnet, h⟩ := Except.bind_eq_ok.mp h
      obtain ⟨rfl, rfl, rfl⟩ := Except.ok_triple h
      obtain ⟨hsh, hidle⟩ := onNetErrorEndorse_idle hnet
      refine ⟨hsh.mapEndorse, hsh.mapQuery, fun x hx => ?_, fun o ho => .inr (hidle o ho)⟩
      have hput := (Function.update_self p _ s.core.heap).symm.trans (hsh.heap p x hx)
      exact ⟨_, (Option.some.inj hput).symm, rfl, rfl, rfl⟩
    · obtain ⟨⟨s₂, outs₂, code₂⟩, hrest, h⟩ := Except.bind_eq_ok.mp h
      obtain ⟨rfl, rfl, rfl⟩ := Except.ok_triple h
      obtain ⟨hme, hmq, hheap, houts⟩ := broadcast_same (Function.update_self p _ s.core.heap) hrest
      refine ⟨hme, hmq, hheap, fun o ho => ?_⟩
      rcases List.mem_cons.mp ho with rfl | ho
      · exact .inl ⟨_, _, rfl⟩
      · exact houts o ho

/-- How a request leaves the state: nothing but its own session is new. -/
structure Launched (cfg : Config) (s : State) (e : Event) (outs : List Out) (s' : State) : Prop where
  frame : Frame s.core.next s.reserve outs s'
  begins : ∀ x, s'.core.heap s.core.next = some x → Begins cfg e x
  mapEndorse : ∀ k id p, s'.core.mapEndorse k id = some p → s.core.mapEndorse k id = some p ∨
    p = s.core.next ∧ ∀ S, s'.core.heap p = some (.endorse S) → S.kind = k
  mapQuery : ∀ k id p, s'.core.mapQuery k id = some p → s.core.mapQuery k id = some p ∨
    p = s.core.next ∧ ∀ S, s'.core.heap p = some (.query S) → S.kind = k
  outs : ∀ o ∈ outs, (∃ hd m, o = .es hd m ∧ e.Sends cfg m) ∨ o.Idle

theorem Launched.refused (hf : Fresh s) : Launched cfg s e [] s.reserve where
  frame := .refl _ _
  begins x hx := by
    rw [show s.reserve.core.heap s.core.next = none from hf _ (le_refl _)] at hx
    cases hx
  mapEndorse _ _ _ h := .inl h
  mapQuery _ _ _ h := .inl h
  outs := by simp

theorem Launched.deal {failed : Int → Out} {r} (hasks : e.asks = true)
    (hr : ∀ {s' outs code}, r = .ok (s', outs, code) → Launched cfg s e outs s')
    (hfailed : ∀ code, code ≠ okType → (failed code).Idle) (h : onDscMsg r failed = .ok (s', outs)) :
    Deal cfg s e outs s' := by
  unfold onDscMsg at h
  obtain ⟨⟨s₁, outs₁, code⟩, hreq, h⟩ := Except.bind_eq_ok.mp h
  obtain ⟨rfl, rfl⟩ := Prod.mk.inj (Except.ok.inj h)
  have hl := hr hreq
  refine ⟨?_, fun q x hx => ?_, fun k id q hq => ?_, fun k id q hq => ?_, fun o ho => ?_⟩
  · rw [hasks, if_pos rfl]
    exact hl.frame.next
  · by_cases hqp : q = s.core.next
    · subst hqp
      exact .inr ⟨rfl, hl.begins x hx⟩
    · rw [hl.frame.heap q hqp] at hx
      exact .inl ⟨x, hx, .inl rfl⟩
  · exact (hl.mapEndorse k id q hq).imp_right fun ⟨hp, hk⟩ => ⟨hp, hasks, hk⟩
  · exact (hl.mapQuery k id q hq).imp_right fun ⟨hp, hk⟩ => ⟨hp, hasks, hk⟩
  · have hfits : ∀ o ∈ outs₁, Fits cfg s e o := by
      intro o ho
      rcases hl.outs o ho with ⟨hd, m, rfl, hm⟩ | hidle
      · exact .inl hm
      · exact hidle.fits
    split at ho
    · exact hfits o ho
    · rename_i hcode
      rcases List.mem_append.mp ho with ho | ho
      · exact hfits o ho
      · rw [List.mem_singleton.mp ho]
        exact (hfailed code hcode).fits

theorem launch_launched {env : RequestEnv} {msg : Bool → EsMsg} {fill : EndorseSession → EndorseSession}
    (hc : S.completeRegistRsp = false) (hfill : ∀ S, (fill S).completeRegistRsp = S.completeRegistRsp)
    (hkind : ∀ S, (fill S).kind = S.kind)
    (hb : ∀ S', SameButHandles S S' → Begins cfg e (.endorse (fill S')))
    (hmsg : ∀ submitNode, e.Sends cfg (msg submitNode))
    (h : launch cfg s.reserve s.core.next S env msg fill = .ok (s', outs, code)) : Launched cfg s e outs s' := by
  obtain ⟨hframe, hsends⟩ := launch_sends hc hfill h
  unfold launch at h
  obtain ⟨⟨s₁, outs₁, code₁⟩, hcast, h⟩ := Except.bind_eq_ok.mp h
  obtain ⟨hme, hmq, hheap, houts⟩ := broadcast_same (Function.update_self _ _ _) hcast
  have houts : ∀ o ∈ outs₁, (∃ hd m, o = .es hd m ∧ e.Sends cfg m) ∨ o.Idle := by
    intro o ho
    rcases houts o ho with ⟨hd, submitNode, heq⟩ | hidle
    · exact .inl ⟨hd, _, heq, hmsg submitNode⟩
    · exact .inr hidle
  simp only at h
  split at h
  · obtain ⟨S₁, hS₁, h⟩ := Except.bind_eq_ok.mp h
    obtain ⟨rfl, rfl, rfl⟩ := Except.ok_triple h
    obtain ⟨S₂, heq, hsame⟩ := hheap _ (endorse_ok hS₁)
    obtain rfl := Session.endorse.inj heq
    have hself : ∀ x, update s₁.core.heap s.core.next (some (.endorse (fill S₁))) s.core.next = some x →
        x = .endorse (fill S₁) := by
      intro x hx
      rw [Function.update_self] at hx
      exact (Option.some.inj hx).symm
    refine ⟨hframe, fun x hx => ?_, fun k id q hq => ?_, fun k id q hq => .inl (hmq k id q hq), houts⟩
    · rw [hself x hx]
      exact hb S₁ hsame
    · have hq : update s₁.core.mapEndorse S₁.kind (update (s₁.core.mapEndorse S₁.kind) s₁.core.sessionID
          (some s.core.next)) k id = some q := hq
      by_cases hk : k = S₁.kind
      · subst hk
        rw [Function.update_self] at hq
        by_cases hid : id = s₁.core.sessionID
        · rw [hid, Function.update_self] at hq
          obtain rfl := Option.some.inj hq
          refine .inr ⟨rfl, fun S' hS' => ?_⟩
          rw [Session.endorse.inj (hself _ hS'), hkind]
        · rw [Function.update_of_ne hid] at hq
          exact .inl (hme _ id q hq)
      · rw [Function.update_of_ne hk] at hq
        exact .inl (hme k id q hq)
  · rename_i hcode
    obtain ⟨rfl, rfl, rfl⟩ := Except.ok_triple h
    refine ⟨hframe, fun x hx => ?_, fun k id q hq => .inl (hme k id q hq), fun k id q hq => .inl (hmq k id q hq), houts⟩
    rcases hsends with ⟨hok, -⟩ | ⟨-, -, -, hnone⟩
    · exact absurd hok hcode
    · rw [hnone] at hx
      cases hx

theorem registUser_launched {req : RegistUserApiCltReq} {env : RequestEnv} (hf : Fresh s)
    (h : registUser cfg s req env = .ok (s', outs, code)) : Launched cfg s (.registUserReq req env) outs s' := by
  unfold registUser at h
  simp only at h
  split at h
  · obtain ⟨rfl, rfl, -⟩ := Except.ok_triple h
    exact .refused hf
  split at h
  · rename_i encryptTrue encryptFalse htrue hfalse
    refine launch_launched rfl ?_ ?_ (fun S' hsame => ?_) (fun submitNode => ?_) h
    · exact fun _ => rfl
    · exact fun _ => rfl
    · obtain ⟨hb, hid, hck⟩ := hsame
      refine ⟨congrArg some hb.symm, fun S hS => ?_⟩
      rw [← Session.endorse.inj hS]
      exact ⟨hid, hck⟩
    · cases submitNode with
      | true => exact ⟨true, htrue⟩
      | false => exact ⟨false, hfalse⟩
  · obtain ⟨rfl, rfl, -⟩ := Except.ok_triple h
    exact .refused hf

theorem propose_launched {req : ProposeApiCltReq} {env : RequestEnv} (hf : Fresh s)
    (h : propose cfg s req env = .ok (s', outs, code)) : Launched cfg s (.proposeReq req env) outs s' := by
  unfold propose at h
  simp only at h
  split at h
  · obtain ⟨rfl, rfl, -⟩ := Except.ok_triple h
    exact .refused hf
  split at h
  · obtain ⟨rfl, rfl, -⟩ := Except.ok_triple h
    exact .refused hf
  rename_i svrPubKey cltPriKey envelopeKey hkeys
  split at h
  · obtain ⟨rfl, rfl, -⟩ := Except.ok_triple h
    exact .refused hf
  rename_i genUserKey rest huser
  split at h
  · rename_i encryptTrue encryptFalse htrue hfalse
    refine launch_launched rfl ?_ ?_ (fun S' hsame => ?_) (fun submitNode => ?_) h
    · exact fun _ => rfl
    · exact fun _ => rfl
    · obtain ⟨hb, hid, hck⟩ := hsame
      constructor
      · have hfill := congrArg (fun B : Brief => { B with userKey := req.userKey }) hb
        exact Option.map_eq_some_iff.mpr ⟨_, hkeys, hfill.symm⟩
      · intro S hS
        rw [← Session.endorse.inj hS]
        exact ⟨hid, hck⟩
    · cases submitNode with
      | true => exact ⟨rfl, _, rest, true, hkeys, huser, htrue⟩
      | false => exact ⟨rfl, _, rest, false, hkeys, huser, hfalse⟩
  · obtain ⟨rfl, rfl, -⟩ := Except.ok_triple h
    exact .refused hf

theorem sendQuery_launched {Q : HPtr → QuerySession} {k : QueryKind} {sendErr : Bool} {msg : EsMsg} (hf : Fresh s)
    (hk : ∀ hp, (Q hp).kind = k) (hb : ∀ hp, Begins cfg e (.query (Q hp))) (hmsg : e.Sends cfg msg)
    (h : sendQuery s.reserve s.core.next Q k sendErr msg = .ok (s', outs, code)) : Launched cfg s e outs s' := by
  have hframe := (sendQuery_gone (s := s.reserve) (Nat.lt_succ_self _) (hf _ (le_refl _)) h).1
  unfold sendQuery at h
  simp only at h
  split at h
  · obtain ⟨rfl, rfl, rfl⟩ := Except.ok_triple h
    have hl : Launched cfg s e [] s.reserve := .refused hf
    exact ⟨hframe, hl.begins, hl.mapEndorse, hl.mapQuery, hl.outs⟩
  split at h
  · cases h
  rename_i hd _
  obtain ⟨links, -, h⟩ := Except.bind_eq_ok.mp h
  obtain ⟨rfl, rfl, rfl⟩ := Except.ok_triple h
  have hself : ∀ x y, update s.core.heap s.core.next (some y) s.core.next = some x → x = y := by
    intro x y hx
    rw [Function.update_self] at hx
    exact (Option.some.inj hx).symm
  refine ⟨hframe, fun x hx => ?_, fun _ _ _ hq => .inl hq, fun k' id q hq => ?_, fun o ho => ?_⟩
  · rw [hself x _ hx]
    exact hb _
  · have hq : update s.core.mapQuery k (update (s.core.mapQuery k) s.core.sessionID (some s.core.next)) k' id = some q := hq
    by_cases hkk : k' = k
    · subst hkk
      rw [Function.update_self] at hq
      by_cases hid : id = s.core.sessionID
      · rw [hid, Function.update_self] at hq
        obtain rfl := Option.some.inj hq
        refine .inr ⟨rfl, fun S hS => ?_⟩
        rw [Session.query.inj (hself _ _ hS)]
        exact hk _
      · rw [Function.update_of_ne hid] at hq
        exact .inl hq
    · rw [Function.update_of_ne hkk] at hq
      exact .inl hq
  · rw [List.mem_singleton.mp ho]
    exact .inl ⟨hd, msg, rfl, hmsg⟩

theorem getUserInfo_launched {req : QueryUserInfoApiCltReq} {env : QueryEnv} (hf : Fresh s)
    (h : getUserInfo cfg s req env = .ok (s', outs, code)) : Launched cfg s (.queryUserReq req env) outs s' := by
  unfold getUserInfo at h
  simp only at h
  split at h
  · obtain ⟨rfl, rfl, -⟩ := Except.ok_triple h
    exact .refused hf
  rename_i svrPubKey cltPriKey envelopeKey hkeys
  split at h
  · obtain ⟨rfl, rfl, -⟩ := Except.ok_triple h
    exact .refused hf
  rename_i genUserKey rest huser
  split at h
  · obtain ⟨rfl, rfl, -⟩ := Except.ok_triple h
    exact .refused hf
  rename_i userData hdata
  have hmsg : (Event.queryUserReq req env).Sends cfg (.queryUserReq s.core.sessionID req.channelID genUserKey userData) :=
    ⟨rfl, _, rest, hkeys, huser, hdata⟩
  refine sendQuery_launched hf ?_ (fun hp => ⟨?_, fun S hS => ?_⟩) hmsg h
  · exact fun _ => rfl
  · exact Option.map_eq_some_iff.mpr ⟨_, hkeys, rfl⟩
  · cases hS

theorem getTransInfo_launched {req : QueryTransInfoApiCltReq} {env : QueryEnv} (hf : Fresh s)
    (h : getTransInfo cfg s req env = .ok (s', outs, code)) : Launched cfg s (.queryTransReq req env) outs s' := by
  unfold getTransInfo at h
  simp only at h
  split at h
  · obtain ⟨rfl, rfl, -⟩ := Except.ok_triple h
    exact .refused hf
  rename_i svrPubKey cltPriKey envelopeKey hkeys
  split at h
  · obtain ⟨rfl, rfl, -⟩ := Except.ok_triple h
    exact .refused hf
  rename_i genUserKey rest huser
  split at h
  · obtain ⟨rfl, rfl, -⟩ := Except.ok_triple h
    exact .refused hf
  rename_i transKey rest' htrans
  split at h
  · obtain ⟨rfl, rfl, -⟩ := Except.ok_triple h
    exact .refused hf
  split at h
  · obtain ⟨rfl, rfl, -⟩ := Except.ok_triple h
    exact .refused hf
  rename_i userData hdata
  have hmsg : (Event.queryTransReq req env).Sends cfg (.queryTransReq s.core.sessionID req.channelID genUserKey userData) :=
    ⟨rfl, _, rest, transKey, rest', hkeys, huser, htrans, hdata⟩
  refine sendQuery_launched hf ?_ (fun hp => ⟨?_, fun S hS => ?_⟩) hmsg h
  · exact fun _ => rfl
  · exact Option.map_eq_some_iff.mpr ⟨_, hkeys, rfl⟩
  · cases hS

theorem step_deal (hs : Sorted s) (hf : Fresh s) (h : step cfg s e = .ok (s', outs)) : Deal cfg s e outs s' := by
  cases e with
  | registUserReq req env =>
    unfold step onDscMsgRegistUserApiCltReq at h
    exact Launched.deal rfl (registUser_launched hf) (by exact fun _ hcode => hcode) h
  | unRegistUserReq channelID =>
    obtain ⟨rfl, rfl⟩ := Prod.mk.inj (Except.ok.inj h)
    refine ⟨rfl, fun p x hx => .inl ⟨x, hx, .inl rfl⟩, fun _ _ _ h => .inl h, fun _ _ _ h => .inl h, fun o ho => ?_⟩
    rw [List.mem_singleton.mp ho]
    have hcode : (-1 : Int) ≠ okType := by decide
    exact fun h => absurd h hcode
  | proposeReq req env =>
    unfold step onDscMsgProposeApiCltReq at h
    exact Launched.deal rfl (propose_launched hf) (by exact fun _ hcode => hcode) h
  | queryUserReq req env =>
    unfold step onDscMsgQueryUserInfoApiCltReq at h
    exact Launched.deal rfl (getUserInfo_launched hf) (by exact fun _ hcode => hcode) h
  | queryTransReq req env =>
    unfold step onDscMsgQueryTransInfoApiCltReq at h
    exact Launched.deal rfl (getTransInfo_launched hf) (by exact fun _ hcode => hcode) h
  | registUserRsp rsp hd env => exact registUserRsp_deal hs h
  | submitRegistRsp rsp hd => exact submitRegistRsp_deal hs h
  | submitProposalRsp rsp hd env => exact submitProposalRsp_deal h
  | submitProposalTransRsp rsp hd => exact submitProposalTransRsp_deal hs h
  | queryUserRsp rsp hd => exact queryUserRsp_deal hs h
  | queryTransRsp rsp hd => exact queryTransRsp_deal hs h
  | timer p raw =>
    unfold step at h
    simp only at h
    split at h
    · exact onTimer_deal h
    · obtain ⟨rfl, rfl⟩ := Prod.mk.inj (Except.ok.inj h)
      exact deal_shrinks rfl (.refl s) (by simp)
  | connected hd peerRand handleRand rawIndex =>
    unfold step onConnectedNodify at h
    simp only at h
    split at h
    · cases h
    obtain ⟨rfl, rfl⟩ := Prod.mk.inj (Except.ok.inj h)
    refine deal_shrinks rfl ⟨rfl, fun _ _ h => h, fun _ _ _ h => h, fun _ _ _ h => h⟩ fun o ho => ?_
    split at ho
    · rw [List.mem_singleton.mp ho]
      trivial
    · cases ho
  | networkError hd => exact onNetworkError_deal h

end

end VProtocol.Crypt
