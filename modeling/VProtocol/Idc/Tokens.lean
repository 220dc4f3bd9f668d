import VProtocol.Idc.Answers

/-!
# The answer to a query belongs to the session that proved its token

A query names two client sessions, the one whose key it is encrypted with and the one whose token
it carries. The ledger is asked with the key of the latter, and the answer is made for the
former. So it is right in a run in which the two are the same in each query that is accepted; and
that is every run of the service, which starts without client sessions and accepts no query.
-/

namespace VProtocol.Idc

open Crypt (DscBlob emptyBlob)

/-- The query of a request that is accepted, with the client session whose token it has. -/
def proved (cfg : Config) (s : State) (req : CommonCltSrvReq) : Option (QueryUserInfoCltSrvReq × ClientSession) :=
  ((s.requestKey cfg req).bind (cfg.vbhDecrypt · req.info)).bind fun buf =>
    if req.type = queryUserInfoMsg then
      (decodeInfo (QueryUserInfoCltSrvReq.codec cfg.dsc) (decodeWrapper cfg buf).data).bind fun q =>
        (s.mapClientSession q.sessionId).bind fun C => if C.token = q.token then some (q, C) else none
    else none

/-- A query that is accepted is encrypted with the key of the session whose token it has. -/
def SameSession (cfg : Config) (s : State) : Event → Prop
  | .commonReq req _ _ => ∀ x ∈ proved cfg s req, x.1.sessionId = req.sessionID
  | _ => True

/-- What the answer to a query tells its client session `C`. -/
def answerData (cfg : Config) (C : ClientSession) (rsp : QueryUserInfoCltCltRsp) (env : AnswerEnv) : DscBlob :=
  if rsp.returnCode = 0 then queryData cfg (C.maybeTokenExpire env) rsp else emptyBlob

/-- An answer of the ledger to a query: the ledger was asked with the key of the client session
whose token the query proved, the reply has the user info with the token of that session and is
encrypted with its key, and no other client session changes. -/
def AnsweredOwner (cfg : Config) (tr : History) (en : Entry State Event Out) : Prop :=
  ∀ rsp env p S, en.ev = .queryUserInfoRsp rsp env → en.pre.Finds rsp.srcSessionID p S → S.detail = .query →
    ∃ en₀ ∈ tr, ∃ req handleID raw q C₀ C, en₀.ev = .commonReq req handleID raw ∧
      proved cfg en₀.pre req = some (q, C₀) ∧ en₀.outs = [.queryUserInfo p ⟨rsp.srcSessionID, C₀.envelopeKey⟩] ∧
      en.pre.mapClientSession q.sessionId = some C ∧ C.envelopeKey = C₀.envelopeKey ∧
      (∀ o ∈ en.outs, ∃ r, o = .hts p S.handleID r ∧
        cfg.vbhEncrypt C.envelopeKey (encodeWrapper cfg (answerData cfg C rsp env) S.nonce) = some r.info) ∧
      ∀ s' outs, step cfg en.pre en.ev = .ok (s', outs) →
        ∀ id ≠ q.sessionId, s'.mapClientSession id = en.pre.mapClientSession id

/-- A query changes nothing and is not answered, and what is answered are registrations. -/
structure TellsNoQuery (cfg : Config) (en : Entry State Event Out) : Prop where
  refused : ∀ req handleID raw, en.ev = .commonReq req handleID raw → req.type = queryUserInfoMsg →
    step cfg en.pre en.ev = .ok (en.pre, []) ∧ en.outs = []
  replies : ∀ p handleID r, .hts p handleID r ∈ en.outs → ∃ S uid, en.pre.heap p = some S ∧ S.detail = .register uid

section
variable {cfg : Config} {s s' : State} {e : Event} {outs : List Out} {tr : History} {p : Ptr} {S : Session} {o : Out}
  {req : CommonCltSrvReq} {handleID : UInt32}

theorem proved_of_opens (h : Opens cfg s req handleID S o) (hk : S.detail = .query) :
    ∃ q C, proved cfg s req = some (q, C) ∧ s.mapClientSession q.sessionId = some C ∧
      o = .queryUserInfo s.next ⟨s.reqId, C.envelopeKey⟩ := by
  cases h with
  | register hkey htype hreq => cases hk
  | login hkey htype hreq => cases hk
  | @query buf q C hkey htype hreq hC htoken =>
    refine ⟨q, C, ?_, hC, rfl⟩
    unfold proved
    rw [hkey, Option.bind_some, if_pos htype, hreq, Option.bind_some, hC, Option.bind_some, if_pos htoken]

theorem mem_reply_outs {code type : UInt32} {data key : DscBlob} (h : o ∈ reply cfg code type data key p S) :
    ∃ r, o = .hts p S.handleID r ∧ cfg.vbhEncrypt key (encodeWrapper cfg data S.nonce) = some r.info := by
  unfold reply at h
  cases hsend : sendClientMsg cfg code type data key S with
  | none => simp [hsend] at h
  | some r =>
    rw [hsend, Option.map_some, Option.toList_some, List.mem_singleton] at h
    exact ⟨r, h, (sendClientMsg_some hsend).2.2.2⟩

theorem query_replied {rsp : QueryUserInfoCltCltRsp} {env : AnswerEnv} {C : ClientSession}
    (h : Turn cfg s (.queryUserInfoRsp rsp env) s' outs) (hf : s.Finds rsp.srcSessionID p S) (hk : S.detail = .query)
    (hC : s.mapClientSession S.sessionId = some C) :
    (∀ o ∈ outs, ∃ r, o = .hts p S.handleID r ∧
      cfg.vbhEncrypt C.envelopeKey (encodeWrapper cfg (answerData cfg C rsp env) S.nonce) = some r.info) ∧
    ∀ id ≠ S.sessionId, s'.mapClientSession id = s.mapClientSession id := by
  have hsame : ∀ {p' S'}, s.Finds rsp.srcSessionID p' S' → p' = p ∧ S' = S := by
    intro p' S' hf'
    obtain rfl := Option.some.inj (hf.1.symm.trans hf'.1)
    exact ⟨rfl, Option.some.inj (hf'.2.symm.trans hf.2)⟩
  cases h with
  | strayQuery h =>
    rw [hf.1] at h
    cases h
  | crossQuery hf' hk' =>
    obtain ⟨rfl, rfl⟩ := hsame hf'
    rw [hk] at hk'
    cases hk'
  | loggedIn hf' hk' hC' =>
    obtain ⟨rfl, rfl⟩ := hsame hf'
    rw [hk] at hk'
    cases hk'
  | loginFailed hf' hk' hC' =>
    obtain ⟨rfl, rfl⟩ := hsame hf'
    rw [hk] at hk'
    cases hk'
  | queryLost hf' hk' hC' =>
    obtain ⟨rfl, rfl⟩ := hsame hf'
    rw [hC] at hC'
    cases hC'
  | @queried _ _ _ _ C' hf' hk' hC' hok =>
    obtain ⟨rfl, rfl⟩ := hsame hf'
    obtain rfl := Option.some.inj (hC.symm.trans hC')
    refine ⟨fun o ho => ?_, fun id hid => putClient_of_ne hid⟩
    rw [← C.maybeTokenExpire_envelopeKey env, answerData, if_pos hok]
    exact mem_reply_outs ho
  | @queryFailed _ _ _ _ C' hf' hk' hC' hno =>
    obtain ⟨rfl, rfl⟩ := hsame hf'
    obtain rfl := Option.some.inj (hC.symm.trans hC')
    refine ⟨fun o ho => ?_, fun _ _ => rfl⟩
    rw [answerData, if_neg hno]
    exact mem_reply_outs ho

/-- In a run in which no query is accepted for another session than its own, each answer goes to
the session that proved its token. -/
theorem answered_owner {m : UInt32 → Option ClientSession}
    (hr : Run (step cfg) (start m) (fun _ s e => SameSession cfg s e) tr s) :
    ∀ tr₁ en tr₂, tr = tr₁ ++ en :: tr₂ → AnsweredOwner cfg tr₁ en := by
  intro tr₁ en tr₂ heq rsp env p S hev hf hk
  obtain ⟨s', hr₁, -, hst⟩ := hr.entry heq
  have htraced := Traced.of_run hr₁
  obtain ⟨en₀, hen₀, req, ⟨rfl, handleID, raw, o, hev₀, hopens, houts⟩, hkeeps⟩ := htraced.origin p S hf.2
  obtain ⟨q, C₀, hproved, hC₀, rfl⟩ := proved_of_opens hopens hk
  have hsame : q.sessionId = req.sessionID := by
    obtain ⟨l, l', hsplit⟩ := List.append_of_mem hen₀
    have hc := hr₁.each l en₀ l' hsplit
    rw [hev₀] at hc
    exact hc (q, C₀) hproved
  have hid : q.sessionId = S.sessionId := hsame.trans hopens.session.2.1.symm
  obtain ⟨C, hC, hkey⟩ := hkeeps q.sessionId C₀ hC₀
  have hturn : Turn cfg en.pre (.queryUserInfoRsp rsp env) s' en.outs := by
    rw [← hev]
    exact step_turn hst
  obtain ⟨hreply, hothers⟩ := query_replied hturn hf hk (hid ▸ hC)
  have hreq : en₀.pre.reqId = rsp.srcSessionID := hopens.session.2.2.1.symm.trans (htraced.filed _ _ _ hf)
  rw [hreq] at houts
  refine ⟨en₀, hen₀, req, handleID, raw, q, C₀, C, hev₀, hproved, houts, hC, hkey, hreply, ?_⟩
  intro s'' outs'' hst'' id hne
  obtain ⟨rfl, -⟩ := Prod.mk.inj (Except.ok.inj (hst''.symm.trans hst))
  exact hothers id (hid ▸ hne)

/-! ## From the start of the service on -/

theorem Bare.proves_none (hs : Bare s) (req : CommonCltSrvReq) : proved cfg s req = none := by
  unfold proved
  by_cases htype : req.type = queryUserInfoMsg
  · unfold State.requestKey
    rw [if_neg (query_not_peer htype), hs.map]
    rfl
  · simp [htype]

theorem Bare.sameSession (hs : Bare s) (cfg : Config) (e : Event) : SameSession cfg s e := by
  cases e with
  | commonReq req handleID raw =>
    intro x hx
    rw [hs.proves_none] at hx
    cases hx
  | registUserRsp rsp => trivial
  | queryUserInfoRsp rsp env => trivial
  | timer p => trivial

theorem Bare.tellsNoQuery (hs : Bare s) (hst : step cfg s e = .ok (s', outs)) : TellsNoQuery cfg ⟨s, e, outs⟩ := by
  constructor
  · rintro req handleID raw rfl htype
    have hquiet : step cfg s (.commonReq req handleID raw) = .ok (s, []) := by
      simp only [step, hs.refuses (query_not_peer htype)]
    obtain ⟨-, hno⟩ := Prod.mk.inj (Except.ok.inj (hquiet.symm.trans hst))
    exact ⟨hquiet, hno.symm⟩
  · intro p handleID r hmem
    obtain ⟨S, hS⟩ := (step_turn hst).replied hmem
    obtain ⟨uid, hk⟩ := hs.heap p S hS
    exact ⟨S, uid, hS, hk⟩

/-- In every run of the service an answer to a query goes to the session that proved its token: no
query is accepted, and nobody is told what the ledger answers to one. -/
theorem answered_always (hr : Run (step cfg) (start fun _ => none) anyStep tr s) :
    ∀ tr₁ en tr₂, tr = tr₁ ++ en :: tr₂ → AnsweredOwner cfg tr₁ en ∧ TellsNoQuery cfg en := by
  intro tr₁ en tr₂ heq
  obtain ⟨s', hpre, -, hst⟩ := hr.entry heq
  have hsame : Each (fun _ s e => SameSession cfg s e) tr := by
    intro tr₁ en tr₂ heq
    obtain ⟨-, hpre, -, -⟩ := hr.entry heq
    exact (Bare.of_run hpre).sameSession cfg en.ev
  have hr' := (hr.of_each hsame).mono fun _ _ _ h => h.2
  exact ⟨answered_owner hr' tr₁ en tr₂ heq, (Bare.of_run hpre).tellsNoQuery hst⟩

end

/-! ## A query of a session that is not there -/

section

/-- Two sessions that the service would have after two logins. -/
def nineAndTen (id : UInt32) : Option ClientSession :=
  if id = 9 then some (aClient 9)
  else if id = 10 then some { aClient 10 with token := 50, envelopeKey := blobOf [3, 4] }
  else none

/-- A query with the token of session `inner`, encrypted with the key of session 9. -/
def queryReq (inner : UInt32) (token : UInt64) : CommonCltSrvReq :=
  ⟨queryUserInfoMsg, 78, 9, sealedWith (blobOf [1, 2])
    (blobOf ((QueryUserInfoCltSrvReq.codec Crypt.plainCodec).encode ⟨inner, token⟩)) (blobOf [6])⟩

def queryRun (inner : UInt32) (token : UInt64) : List Event :=
  [.commonReq (queryReq inner token) 1 0, .queryUserInfoRsp ⟨0, 0, blobOf [7, 7, 7]⟩ (anEnv 1000)]

/-- The query comes between two registrations, and the ledger answers all three. -/
def queryAmong : List Event :=
  [.commonReq registerReq 1 0, .commonReq (queryReq 10 50) 2 0, .commonReq registerReq 3 0,
    .registUserRsp ⟨0, 0, blobOf [9]⟩, .queryUserInfoRsp ⟨0, 1, blobOf [7, 7, 7]⟩ (anEnv 1000), .timer 1]

theorem answered_always_two : ∃ tr s, Run (step tagged) (start fun _ => none) anyStep tr s ∧
    tr.map (·.outs.length) = [1, 0, 1, 1, 0, 1] ∧
    ∀ tr₁ en tr₂, tr = tr₁ ++ en :: tr₂ → AnsweredOwner tagged tr₁ en ∧ TellsNoQuery tagged en := by
  have hr : Run (step tagged) (start fun _ => none) anyStep _ _ := run_trace_any queryAmong
  exact ⟨_, _, hr, by decide, answered_always hr⟩

end

end VProtocol.Idc
