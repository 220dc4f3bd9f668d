import VProtocol.Idc.Service

/-!
# What a step of the service can do

A request opens a session or is refused. An answer of the ledger finds no session, or one of
another kind, which it takes out of the map and leaves alone, or it ends the session that it finds.
A timer ends its session wherever that is. A login and a query need a client session, and only a
login adds one, so a service that starts with none refuses both for ever.
-/

namespace VProtocol.Idc

open Crypt (DscBlob emptyBlob)
open Function (update)

/-! ## Steps -/

/-- A request that is accepted opens session `S` and hands `o` to the ledger. -/
inductive Opens (cfg : Config) (s : State) (req : CommonCltSrvReq) (handleID : UInt32) : Session → Out → Prop
  | register {buf r} (hkey : (s.requestKey cfg req).bind (cfg.vbhDecrypt · req.info) = some buf)
      (htype : req.type = registerUserMsg)
      (hreq : decodeInfo (RegisterUserCltSrvReq.codec cfg.dsc) (decodeWrapper cfg buf).data = some r) :
      Opens cfg s req handleID
        ⟨.register r.id, req.sessionID, s.reqId, req.reqID, handleID, (decodeWrapper cfg buf).nonce⟩
        (.registUser s.next ⟨true, 0, 0, s.reqId, cfg.userKey r.id, r.info⟩)
  | login {buf r} (hkey : (s.requestKey cfg req).bind (cfg.vbhDecrypt · req.info) = some buf)
      (htype : req.type = loginMsg)
      (hreq : decodeInfo (LoginCltSrvReq.codec cfg.dsc) (decodeWrapper cfg buf).data = some r) :
      Opens cfg s req handleID
        ⟨.login r.id r.cryptoKey, req.sessionID, s.reqId, req.reqID, handleID, (decodeWrapper cfg buf).nonce⟩
        (.queryUserInfo s.next ⟨s.reqId, r.cryptoKey⟩)
  | query {buf r C} (hkey : (s.requestKey cfg req).bind (cfg.vbhDecrypt · req.info) = some buf)
      (htype : req.type = queryUserInfoMsg)
      (hreq : decodeInfo (QueryUserInfoCltSrvReq.codec cfg.dsc) (decodeWrapper cfg buf).data = some r)
      (hC : s.mapClientSession r.sessionId = some C) (htoken : C.token = r.token) :
      Opens cfg s req handleID
        ⟨.query, req.sessionID, s.reqId, req.reqID, handleID, (decodeWrapper cfg buf).nonce⟩
        (.queryUserInfo s.next ⟨s.reqId, C.envelopeKey⟩)

/-- The session that an answer of the ledger finds. -/
def State.Finds (s : State) (id : UInt32) (p : Ptr) (S : Session) : Prop :=
  s.mapReqSession id = some p ∧ s.heap p = some S

inductive Turn (cfg : Config) (s : State) : Event → State → List Out → Prop
  | refused {req handleID raw} : Turn cfg s (.commonReq req handleID raw) s []
  | opened {req handleID raw S o} (h : Opens cfg s req handleID S o) :
      Turn cfg s (.commonReq req handleID raw) (s.insertReq S) [o]
  | strayRegist {rsp} (h : s.mapReqSession rsp.srcSessionID = none) : Turn cfg s (.registUserRsp rsp) s []
  | strayQuery {rsp env} (h : s.mapReqSession rsp.srcSessionID = none) : Turn cfg s (.queryUserInfoRsp rsp env) s []
  | crossRegist {rsp p S} (h : s.Finds rsp.srcSessionID p S) (hk : ∀ uid, S.detail ≠ .register uid) :
      Turn cfg s (.registUserRsp rsp) (s.eraseReq rsp.srcSessionID) []
  | crossQuery {rsp env p S uid} (h : s.Finds rsp.srcSessionID p S) (hk : S.detail = .register uid) :
      Turn cfg s (.queryUserInfoRsp rsp env) (s.eraseReq rsp.srcSessionID) []
  | registered {rsp p S uid} (h : s.Finds rsp.srcSessionID p S) (hk : S.detail = .register uid) :
      Turn cfg s (.registUserRsp rsp) ((s.eraseReq rsp.srcSessionID).free p)
        (reply cfg rsp.returnCode.toUInt32 registerUserMsg (registerData cfg uid rsp) cfg.peerEnvelopeKey p S)
  | loggedIn {rsp env p S uid key C} (h : s.Finds rsp.srcSessionID p S) (hk : S.detail = .login uid key)
      (hC : loginSession rsp env s.mapClientSession = .ok (some C)) :
      Turn cfg s (.queryUserInfoRsp rsp env)
        (((s.eraseReq rsp.srcSessionID).free p).putClient C.sessionId
          { C with envelopeKey := key, handleID := S.handleID })
        (reply cfg okCode loginMsg (loginData cfg C) key p S)
  | loginFailed {rsp env p S uid key} (h : s.Finds rsp.srcSessionID p S) (hk : S.detail = .login uid key)
      (hC : loginSession rsp env s.mapClientSession = .ok none) :
      Turn cfg s (.queryUserInfoRsp rsp env) ((s.eraseReq rsp.srcSessionID).free p)
        (reply cfg okCode loginMsg emptyBlob cfg.peerEnvelopeKey p S)
  | queryLost {rsp env p S} (h : s.Finds rsp.srcSessionID p S) (hk : S.detail = .query)
      (hC : s.mapClientSession S.sessionId = none) :
      Turn cfg s (.queryUserInfoRsp rsp env) ((s.eraseReq rsp.srcSessionID).free p) []
  | queried {rsp env p S C} (h : s.Finds rsp.srcSessionID p S) (hk : S.detail = .query)
      (hC : s.mapClientSession S.sessionId = some C) (hok : rsp.returnCode = 0) :
      Turn cfg s (.queryUserInfoRsp rsp env)
        (((s.eraseReq rsp.srcSessionID).free p).putClient S.sessionId (C.maybeTokenExpire env))
        (reply cfg okCode loginMsg (queryData cfg (C.maybeTokenExpire env) rsp)
          (C.maybeTokenExpire env).envelopeKey p S)
  | queryFailed {rsp env p S C} (h : s.Finds rsp.srcSessionID p S) (hk : S.detail = .query)
      (hC : s.mapClientSession S.sessionId = some C) (hno : rsp.returnCode ≠ 0) :
      Turn cfg s (.queryUserInfoRsp rsp env) ((s.eraseReq rsp.srcSessionID).free p)
        (reply cfg okCode loginMsg emptyBlob C.envelopeKey p S)
  | late {p} (h : s.armed p = false) : Turn cfg s (.timer p) s []
  | timedOut {p S} (h : s.armed p = true) (hS : s.heap p = some S) :
      Turn cfg s (.timer p) ({ s with armed := update s.armed p false }.free p)
        (reply cfg errorTimeout S.detail.type emptyBlob cfg.peerEnvelopeKey p S)

section
variable {cfg : Config} {s s' : State} {e : Event} {outs : List Out}

theorem onHtsMsg_turn (req : CommonCltSrvReq) (handleID : UInt32) (raw : Int) :
    Turn cfg s (.commonReq req handleID raw) (onHtsMsg cfg req handleID raw s).1
      (onHtsMsg cfg req handleID raw s).2.1 := by
  unfold onHtsMsg
  cases hkey : s.requestKey cfg req with
  | none => exact .refused
  | some key =>
    simp only
    cases hbuf : cfg.vbhDecrypt key req.info with
    | none => exact .refused
    | some buf =>
      have hopen : (s.requestKey cfg req).bind (cfg.vbhDecrypt · req.info) = some buf := by
        rw [hkey, Option.bind_some]
        exact hbuf
      simp only
      unfold typeProc
      by_cases hreg : req.type = registerUserMsg
      · simp only [if_pos hreg]
        cases hreq : decodeInfo (RegisterUserCltSrvReq.codec cfg.dsc) (decodeWrapper cfg buf).data with
        | none => exact .refused
        | some r => exact .opened (.register hopen hreg hreq)
      simp only [if_neg hreg]
      by_cases hlog : req.type = loginMsg
      · simp only [if_pos hlog]
        cases hreq : decodeInfo (LoginCltSrvReq.codec cfg.dsc) (decodeWrapper cfg buf).data with
        | none => exact .refused
        | some r => exact .opened (.login hopen hlog hreq)
      simp only [if_neg hlog]
      by_cases hqry : req.type = queryUserInfoMsg
      · simp only [if_pos hqry]
        cases hreq : decodeInfo (QueryUserInfoCltSrvReq.codec cfg.dsc) (decodeWrapper cfg buf).data with
        | none => exact .refused
        | some r =>
          simp only
          unfold onTypeProcQuery
          cases hC : s.mapClientSession r.sessionId with
          | none => exact .refused
          | some C =>
            simp only
            by_cases htoken : C.token = r.token
            · simp only [if_pos htoken]
              exact .opened (.query hopen hqry hreq hC htoken)
            · simp only [if_neg htoken]
              exact .refused
      simp only [if_neg hqry]
      by_cases hupd : req.type = updateUserInfoMsg
      · simp only [if_pos hupd]
        cases decodeUpdate cfg.dsc (decodeWrapper cfg buf).data with
        | none => exact .refused
        | some r => exact .refused
      · simp only [if_neg hupd]
        exact .refused

theorem onRegistUserRsp_turn {rsp : RegistUserCltCltRsp} (h : onRegistUserRsp cfg rsp s = .ok (s', outs)) :
    Turn cfg s (.registUserRsp rsp) s' outs := by
  unfold onRegistUserRsp at h
  cases hp : s.mapReqSession rsp.srcSessionID with
  | none =>
    simp only [hp] at h
    obtain ⟨rfl, rfl⟩ := Prod.mk.inj (Except.ok.inj h)
    exact .strayRegist hp
  | some p =>
    simp only [hp] at h
    cases hS : s.heap p with
    | none =>
      simp only [hS] at h
      cases h
    | some S =>
      simp only [hS] at h
      cases hk : S.detail with
      | register uid =>
        simp only [hk] at h
        obtain ⟨rfl, rfl⟩ := Prod.mk.inj (Except.ok.inj h)
        exact .registered ⟨hp, hS⟩ hk
      | login uid key =>
        simp only [hk] at h
        obtain ⟨rfl, rfl⟩ := Prod.mk.inj (Except.ok.inj h)
        exact .crossRegist ⟨hp, hS⟩ (by simp [hk])
      | query =>
        simp only [hk] at h
        obtain ⟨rfl, rfl⟩ := Prod.mk.inj (Except.ok.inj h)
        exact .crossRegist ⟨hp, hS⟩ (by simp [hk])

theorem onQueryUserInfoRsp_turn {rsp : QueryUserInfoCltCltRsp} {env : AnswerEnv}
    (h : onQueryUserInfoRsp cfg rsp env s = .ok (s', outs)) : Turn cfg s (.queryUserInfoRsp rsp env) s' outs := by
  unfold onQueryUserInfoRsp at h
  cases hp : s.mapReqSession rsp.srcSessionID with
  | none =>
    simp only [hp] at h
    obtain ⟨rfl, rfl⟩ := Prod.mk.inj (Except.ok.inj h)
    exact .strayQuery hp
  | some p =>
    simp only [hp] at h
    cases hS : s.heap p with
    | none =>
      simp only [hS] at h
      cases h
    | some S =>
      simp only [hS] at h
      cases hk : S.detail with
      | register uid =>
        simp only [hk] at h
        obtain ⟨rfl, rfl⟩ := Prod.mk.inj (Except.ok.inj h)
        exact .crossQuery ⟨hp, hS⟩ hk
      | login uid key =>
        simp only [hk] at h
        unfold onLoginRsp at h
        cases hC : loginSession rsp env s.mapClientSession with
        | error f =>
          simp only [State.eraseReq, hC] at h
          cases h
        | ok r =>
          cases r with
          | none =>
            simp only [State.eraseReq, hC] at h
            obtain ⟨rfl, rfl⟩ := Prod.mk.inj (Except.ok.inj h)
            exact .loginFailed ⟨hp, hS⟩ hk hC
          | some C =>
            simp only [State.eraseReq, hC] at h
            obtain ⟨rfl, rfl⟩ := Prod.mk.inj (Except.ok.inj h)
            exact .loggedIn ⟨hp, hS⟩ hk hC
      | query =>
        simp only [hk] at h
        unfold onQueryRsp at h
        cases hC : s.mapClientSession S.sessionId with
        | none =>
          simp only [State.eraseReq, hC] at h
          obtain ⟨rfl, rfl⟩ := Prod.mk.inj (Except.ok.inj h)
          exact .queryLost ⟨hp, hS⟩ hk hC
        | some C =>
          simp only [State.eraseReq, hC] at h
          by_cases hok : rsp.returnCode = 0
          · rw [if_pos hok] at h
            obtain ⟨rfl, rfl⟩ := Prod.mk.inj (Except.ok.inj h)
            exact .queried ⟨hp, hS⟩ hk hC hok
          · rw [if_neg hok] at h
            obtain ⟨rfl, rfl⟩ := Prod.mk.inj (Except.ok.inj h)
            exact .queryFailed ⟨hp, hS⟩ hk hC hok

theorem step_turn (h : step cfg s e = .ok (s', outs)) : Turn cfg s e s' outs := by
  cases e with
  | commonReq req handleID raw =>
    obtain ⟨rfl, rfl⟩ := Prod.mk.inj (Except.ok.inj h)
    exact onHtsMsg_turn req handleID raw
  | registUserRsp rsp => exact onRegistUserRsp_turn h
  | queryUserInfoRsp rsp env => exact onQueryUserInfoRsp_turn h
  | timer p =>
    cases harmed : s.armed p with
    | false =>
      simp only [step, harmed] at h
      obtain ⟨rfl, rfl⟩ := Prod.mk.inj (Except.ok.inj h)
      exact .late harmed
    | true =>
      simp only [step, harmed, if_true] at h
      unfold onSessionTimeOut at h
      cases hS : s.heap p with
      | none =>
        simp only [hS] at h
        cases h
      | some S =>
        simp only [hS] at h
        obtain ⟨rfl, rfl⟩ := Prod.mk.inj (Except.ok.inj h)
        exact .timedOut harmed hS

/-! ## What a step leaves as it is -/

/-- Client sessions stay, with their keys. -/
def Keeps (s s' : State) : Prop :=
  ∀ id C, s.mapClientSession id = some C → ∃ C', s'.mapClientSession id = some C' ∧ C'.envelopeKey = C.envelopeKey

theorem Keeps.refl (s : State) : Keeps s s := fun _ C hC => ⟨C, hC, rfl⟩

theorem Keeps.trans {s₁ s₂ s₃ : State} (h : Keeps s₁ s₂) (h' : Keeps s₂ s₃) : Keeps s₁ s₃ := by
  intro id C hC
  obtain ⟨C', hC', hkey⟩ := h id C hC
  obtain ⟨C'', hC'', hkey'⟩ := h' id C' hC'
  exact ⟨C'', hC'', hkey'.trans hkey⟩

theorem newSessionId_free {m : UInt32 → Option ClientSession} {id : UInt32} : ∀ {n : Nat} {r : UInt32},
    newSessionId m n r = some id → m id = none
  | 0, _, h => by cases h
  | n + 1, r, h => by
    unfold newSessionId at h
    cases hr : m r with
    | none =>
      simp only [hr, Option.isSome_none, Bool.false_eq_true, if_false, Option.some.injEq] at h
      rw [← h]
      exact hr
    | some C =>
      simp only [hr, Option.isSome_some, if_true] at h
      exact newSessionId_free h

theorem newClientSession_new {env : AnswerEnv} {m : UInt32 → Option ClientSession} {C : ClientSession}
    (h : newClientSession env m = .ok (some C)) : m C.sessionId = none ∧ C.token = newSessionToken env.token := by
  unfold newClientSession at h
  by_cases hmem : env.memory = true
  · rw [if_pos hmem] at h
    cases hid : newSessionId m UInt32.size (shiftOr env.id1 env.id2) with
    | none =>
      simp only [hid] at h
      cases h
    | some id =>
      simp only [hid] at h
      rw [← Option.some.inj (Except.ok.inj h)]
      exact ⟨newSessionId_free hid, rfl⟩
  · rw [if_neg hmem] at h
    cases h

theorem loginSession_free {rsp : QueryUserInfoCltCltRsp} {env : AnswerEnv} {m : UInt32 → Option ClientSession}
    {C : ClientSession} (h : loginSession rsp env m = .ok (some C)) : m C.sessionId = none := by
  unfold loginSession at h
  by_cases hok : rsp.returnCode = 0
  · rw [if_pos hok] at h
    exact (newClientSession_new h).1
  · rw [if_neg hok] at h
    cases h

theorem ClientSession.maybeTokenExpire_envelopeKey (env : AnswerEnv) (C : ClientSession) :
    (C.maybeTokenExpire env).envelopeKey = C.envelopeKey := by
  unfold maybeTokenExpire
  split
  · rfl
  · rfl

theorem putClient_of_ne {id id' : UInt32} {C : ClientSession} (h : id' ≠ id) :
    (s.putClient id C).mapClientSession id' = s.mapClientSession id' := Function.update_of_ne h _ _

theorem Turn.keeps (h : Turn cfg s e s' outs) : Keeps s s' := by
  cases h with
  | @loggedIn rsp env p S uid key C hf hk hC =>
    intro id C' hC'
    have hne : id ≠ C.sessionId := by
      rintro rfl
      rw [loginSession_free hC] at hC'
      cases hC'
    exact ⟨C', (putClient_of_ne hne).trans hC', rfl⟩
  | @queried rsp env p S C hf hk hC hok =>
    intro id C' hC'
    by_cases hid : id = S.sessionId
    · subst hid
      obtain rfl := Option.some.inj (hC.symm.trans hC')
      exact ⟨_, Function.update_self .., C.maybeTokenExpire_envelopeKey env⟩
    · exact ⟨C', (putClient_of_ne hid).trans hC', rfl⟩
  | refused => exact .refl s
  | opened h => exact .refl s
  | strayRegist h => exact .refl s
  | strayQuery h => exact .refl s
  | crossRegist hf hk => exact .refl s
  | crossQuery hf hk => exact .refl s
  | registered hf hk => exact .refl s
  | loginFailed hf hk hC => exact .refl s
  | queryLost hf hk hC => exact .refl s
  | queryFailed hf hk hC hno => exact .refl s
  | late h => exact .refl s
  | timedOut h hS => exact .refl s

/-- No session is opened; some may end, or be taken out of the map. -/
structure Shrinks (s s' : State) : Prop where
  heap : ∀ p S, s'.heap p = some S → s.heap p = some S
  map : ∀ id p, s'.mapReqSession id = some p → s.mapReqSession id = some p
  next : s'.next = s.next

theorem Shrinks.refl (s : State) : Shrinks s s := ⟨fun _ _ h => h, fun _ _ h => h, rfl⟩

theorem shrinks_erase (id : UInt32) : Shrinks s (s.eraseReq id) := by
  refine ⟨fun _ _ h => h, fun id' p h => ?_, rfl⟩
  by_cases hid : id' = id
  · subst hid
    simp [State.eraseReq] at h
  · simpa [State.eraseReq, hid] using h

theorem shrinks_free (p : Ptr) : Shrinks s (s.free p) := by
  refine ⟨fun q S h => ?_, fun _ _ h => h, rfl⟩
  by_cases hq : q = p
  · subst hq
    simp [State.free] at h
  · simpa [State.free, hq] using h

theorem Shrinks.trans {s₁ s₂ s₃ : State} (h : Shrinks s₁ s₂) (h' : Shrinks s₂ s₃) : Shrinks s₁ s₃ :=
  ⟨fun p S hS => h.heap p S (h'.heap p S hS), fun id p hp => h.map id p (h'.map id p hp), h'.next.trans h.next⟩

theorem shrinks_end (id : UInt32) (p : Ptr) : Shrinks s ((s.eraseReq id).free p) :=
  (shrinks_erase id).trans (shrinks_free p)

theorem Turn.shrinks (h : Turn cfg s e s' outs) : Shrinks s s' ∨ ∃ req handleID raw S o,
    e = .commonReq req handleID raw ∧ Opens cfg s req handleID S o ∧ s' = s.insertReq S ∧ outs = [o] := by
  cases h with
  | opened h => exact .inr ⟨_, _, _, _, _, rfl, h, rfl, rfl⟩
  | refused => exact .inl (.refl s)
  | strayRegist h => exact .inl (.refl s)
  | strayQuery h => exact .inl (.refl s)
  | crossRegist hf hk => exact .inl (shrinks_erase _)
  | crossQuery hf hk => exact .inl (shrinks_erase _)
  | registered hf hk => exact .inl (shrinks_end _ _)
  | loggedIn hf hk hC =>
    obtain ⟨hheap, hmap, hnext⟩ := shrinks_end (s := s) _ _
    exact .inl ⟨hheap, hmap, hnext⟩
  | loginFailed hf hk hC => exact .inl (shrinks_end _ _)
  | queryLost hf hk hC => exact .inl (shrinks_end _ _)
  | queried hf hk hC hok =>
    obtain ⟨hheap, hmap, hnext⟩ := shrinks_end (s := s) _ _
    exact .inl ⟨hheap, hmap, hnext⟩
  | queryFailed hf hk hC hno => exact .inl (shrinks_end _ _)
  | late h => exact .inl (.refl s)
  | @timedOut p S h hS =>
    obtain ⟨hheap, hmap, hnext⟩ := shrinks_free (s := s) p
    exact .inl ⟨hheap, hmap, hnext⟩

/-! ## Where a session comes from -/

theorem Opens.session {req : CommonCltSrvReq} {handleID : UInt32} {S : Session} {o : Out}
    (h : Opens cfg s req handleID S o) :
    S.detail.type = req.type ∧ S.sessionId = req.sessionID ∧ S.reqID = s.reqId ∧ S.clientReqID = req.reqID := by
  cases h with
  | register hkey htype hreq => exact ⟨htype.symm, rfl, rfl, rfl⟩
  | login hkey htype hreq => exact ⟨htype.symm, rfl, rfl, rfl⟩
  | query hkey htype hreq hC htoken => exact ⟨htype.symm, rfl, rfl, rfl⟩

/-- The entry of a history that opened a session. -/
def OpenedBy (cfg : Config) (p : Ptr) (S : Session) (en : Entry State Event Out) (req : CommonCltSrvReq) : Prop :=
  en.pre.next = p ∧ ∃ handleID raw o, en.ev = .commonReq req handleID raw ∧ Opens cfg en.pre req handleID S o ∧
    en.outs = [o]

structure Traced (cfg : Config) (tr : History) (s : State) : Prop where
  bound : ∀ id p, s.mapReqSession id = some p → p < s.next
  filed : ∀ id p S, s.Finds id p S → S.reqID = id
  lt : ∀ p S, s.heap p = some S → p < s.next
  origin : ∀ p S, s.heap p = some S → ∃ en ∈ tr, ∃ req, OpenedBy cfg p S en req ∧ Keeps en.pre s

theorem Traced.step {tr : History} (hs : Traced cfg tr s) (h : Turn cfg s e s' outs) :
    Traced cfg (tr ++ [⟨s, e, outs⟩]) s' := by
  have hkeeps := h.keeps
  have hold : ∀ p S, s.heap p = some S →
      ∃ en ∈ tr ++ [⟨s, e, outs⟩], ∃ req, OpenedBy cfg p S en req ∧ Keeps en.pre s' := by
    intro p S hS
    obtain ⟨en, hen, req, hopened, hkeep⟩ := hs.origin p S hS
    exact ⟨en, List.mem_append_left _ hen, req, hopened, hkeep.trans hkeeps⟩
  rcases h.shrinks with hsh | ⟨req, handleID, raw, S₀, o, rfl, hopens, rfl, rfl⟩
  · refine ⟨fun id p hp => ?_, fun id p S hf => ?_, fun p S hS => ?_, fun p S hS => ?_⟩
    · rw [hsh.next]
      exact hs.bound id p (hsh.map id p hp)
    · exact hs.filed id p S ⟨hsh.map id p hf.1, hsh.heap p S hf.2⟩
    · rw [hsh.next]
      exact hs.lt p S (hsh.heap p S hS)
    · exact hold p S (hsh.heap p S hS)
  · -- the new session is at the next address, which was in use nowhere
    have hheap : ∀ p S, (s.insertReq S₀).heap p = some S → p = s.next ∧ S = S₀ ∨ p ≠ s.next ∧ s.heap p = some S := by
      intro p S hS
      by_cases hp : p = s.next
      · subst hp
        simp only [State.insertReq, Function.update_self, Option.some.injEq] at hS
        exact .inl ⟨rfl, hS.symm⟩
      · simp only [State.insertReq, Function.update_of_ne hp] at hS
        exact .inr ⟨hp, hS⟩
    have hmap : ∀ id p, (s.insertReq S₀).mapReqSession id = some p →
        id = s.reqId ∧ p = s.next ∨ s.mapReqSession id = some p := by
      intro id p hp
      by_cases hid : id = s.reqId
      · subst hid
        simp only [State.insertReq, Function.update_self, Option.some.injEq] at hp
        exact .inl ⟨rfl, hp.symm⟩
      · simp only [State.insertReq, Function.update_of_ne hid] at hp
        exact .inr hp
    refine ⟨fun id p hp => ?_, fun id p S hf => ?_, fun p S hS => ?_, fun p S hS => ?_⟩
    · rcases hmap id p hp with ⟨-, rfl⟩ | hp
      · exact Nat.lt_succ_self _
      · exact Nat.lt_succ_of_lt (hs.bound id p hp)
    · rcases hheap p S hf.2 with ⟨rfl, rfl⟩ | ⟨hne, hS⟩
      · rcases hmap id _ hf.1 with ⟨rfl, -⟩ | hp
        · exact hopens.session.2.2.1
        · exact absurd (hs.bound id _ hp) (Nat.lt_irrefl _)
      · rcases hmap id p hf.1 with ⟨-, rfl⟩ | hp
        · exact absurd rfl hne
        · exact hs.filed id p S ⟨hp, hS⟩
    · rcases hheap p S hS with ⟨rfl, -⟩ | ⟨-, hS⟩
      · exact Nat.lt_succ_self _
      · exact Nat.lt_succ_of_lt (hs.lt p S hS)
    · rcases hheap p S hS with ⟨rfl, rfl⟩ | ⟨-, hS⟩
      · exact ⟨_, List.mem_append_right _ List.mem_cons_self, req, ⟨rfl, handleID, raw, o, rfl, hopens, rfl⟩, hkeeps⟩
      · exact hold p S hS

theorem Traced.of_run {C : History → State → Event → Prop} {m : UInt32 → Option ClientSession} {tr : History}
    (hr : Run (Idc.step cfg) (start m) C tr s) : Traced cfg tr s := by
  refine hr.invariant (Traced cfg) ⟨?_, ?_, ?_, ?_⟩ fun _ _ _ _ _ _ hs _ hst => hs.step (step_turn hst)
  · intro id p hp
    cases hp
  · intro id p S hf
    cases hf.1
  · intro p S hS
    cases hS
  · intro p S hS
    cases hS

/-! ## A service without client sessions -/

theorem login_not_peer {type : UInt32} (h : type = loginMsg) : ¬type < pubCryptoKeyMsg := by
  rw [h]
  decide

theorem query_not_peer {type : UInt32} (h : type = queryUserInfoMsg) : ¬type < pubCryptoKeyMsg := by
  rw [h]
  decide

/-- There are no client sessions, and none is under way. -/
structure Bare (s : State) : Prop where
  map : ∀ id, s.mapClientSession id = none
  heap : ∀ p S, s.heap p = some S → ∃ uid, S.detail = .register uid

theorem Bare.opens {r : CommonCltSrvReq} {handleID : UInt32} {S : Session} {o : Out} (hs : Bare s)
    (h : Opens cfg s r handleID S o) : ∃ uid, S.detail = .register uid := by
  cases h with
  | register hkey htype hreq => exact ⟨_, rfl⟩
  | login hkey htype hreq =>
    unfold State.requestKey at hkey
    rw [if_neg (login_not_peer htype), hs.map] at hkey
    cases hkey
  | query hkey htype hreq hC htoken =>
    rw [hs.map] at hC
    cases hC

theorem Bare.turn (hs : Bare s) (h : Turn cfg s e s' outs) : Bare s' := by
  have hmap : ∀ id, s'.mapClientSession id = none := by
    cases h with
    | loggedIn hf hk hC =>
      obtain ⟨uid, hreg⟩ := hs.heap _ _ hf.2
      rw [hk] at hreg
      cases hreg
    | queried hf hk hC hok =>
      rw [hs.map] at hC
      cases hC
    | refused => exact hs.map
    | opened h => exact hs.map
    | strayRegist h => exact hs.map
    | strayQuery h => exact hs.map
    | crossRegist hf hk => exact hs.map
    | crossQuery hf hk => exact hs.map
    | registered hf hk => exact hs.map
    | loginFailed hf hk hC => exact hs.map
    | queryLost hf hk hC => exact hs.map
    | queryFailed hf hk hC hno => exact hs.map
    | late h => exact hs.map
    | timedOut h hS => exact hs.map
  refine ⟨hmap, ?_⟩
  rcases h.shrinks with hsh | ⟨r, handleID, raw, S, o, rfl, hopens, rfl, rfl⟩
  · exact fun p S hS => hs.heap p S (hsh.heap p S hS)
  · intro p S' hS'
    by_cases hp : p = s.next
    · subst hp
      simp only [State.insertReq, Function.update_self, Option.some.injEq] at hS'
      exact hS' ▸ hs.opens hopens
    · simp only [State.insertReq, Function.update_of_ne hp] at hS'
      exact hs.heap p S' hS'

theorem Bare.of_run {tr : History} (hr : Run (step cfg) (start fun _ => none) anyStep tr s) : Bare s := by
  refine hr.invariant (fun _ s => Bare s) ⟨fun _ => rfl, ?_⟩ fun _ _ _ _ _ _ hs _ hst => hs.turn (step_turn hst)
  intro p S hS
  cases hS

theorem Bare.refuses (hs : Bare s) {r : CommonCltSrvReq} (htype : ¬r.type < pubCryptoKeyMsg) (handleID : UInt32)
    (raw : Int) : onHtsMsg cfg r handleID raw s = (s, [], -1) := by
  unfold onHtsMsg State.requestKey
  rw [if_neg htype, hs.map]
  rfl

/-- A service that starts without client sessions refuses every login. -/
theorem login_refused {tr : History} (hr : Run (step cfg) (start fun _ => none) anyStep tr s) {r : CommonCltSrvReq}
    (htype : r.type = loginMsg) (handleID : UInt32) (raw : Int) : onHtsMsg cfg r handleID raw s = (s, [], -1) :=
  (Bare.of_run hr).refuses (login_not_peer htype) handleID raw

end

end VProtocol.Idc
