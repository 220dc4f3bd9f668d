import Mathlib.Data.List.Perm.Subperm
import VProtocol.Idc.Answers

/-!
# Responses of the service

A request that the service accepts is filed under an address that is used once, and its response
goes out when the session at that address is freed. So no two responses are for the same
request, in whatever order the ledger answers and the timers fire.
-/

namespace VProtocol.Idc

open Crypt (DscBlob emptyBlob)
open Function (update)

/-! ## Requests and responses -/

/-- The request of a connection that `k` knows. -/
def Event.requestOf (k : UInt32 → Bool) : Event → Option CommonCltSrvReq
  | .commonReq req handleID _ => if k handleID then some req else none
  | _ => none

def Out.responseTo (k : UInt32 → Bool) : Out → Option CommonSrvCltRsp
  | .hts _ handleID rsp => if k handleID then some rsp else none
  | _ => none

def requestsOf (k : UInt32 → Bool) (tr : History) : List CommonCltSrvReq := tr.filterMap (·.ev.requestOf k)

def responsesTo (k : UInt32 → Bool) (tr : History) : List CommonSrvCltRsp :=
  (tr.flatMap (·.outs)).filterMap (Out.responseTo k)

/-- The wrapper in a request, as a service in state `s` reads it. -/
def State.wrapper (cfg : Config) (s : State) (req : CommonCltSrvReq) : Option ReqDataWrapper :=
  ((s.requestKey cfg req).bind (cfg.vbhDecrypt · req.info)).map (decodeWrapper cfg)

/-- A key that the response to a request is encrypted with: that of the peer, the one that the
request is encrypted with, or the one that a login brings along. -/
def State.ReplyKey (cfg : Config) (s : State) (req : CommonCltSrvReq) (key : DscBlob) : Prop :=
  key = cfg.peerEnvelopeKey ∨ s.requestKey cfg req = some key ∨ req.type = loginMsg ∧ ∃ w r,
    s.wrapper cfg req = some w ∧ decodeInfo (LoginCltSrvReq.codec cfg.dsc) w.data = some r ∧ r.cryptoKey = key

/-- A query is answered as a login is, unless its timer answers it. -/
structure Answers (cfg : Config) (s : State) (req : CommonCltSrvReq) (rsp : CommonSrvCltRsp) : Prop where
  reqID : rsp.reqID = req.reqID
  type : rsp.type = req.type ∨ req.type = queryUserInfoMsg ∧ rsp.type = loginMsg
  info : ∃ w key data, s.wrapper cfg req = some w ∧ s.ReplyKey cfg req key ∧
    cfg.vbhEncrypt key (encodeWrapper cfg data w.nonce) = some rsp.info

/-- Session `S` is for this request. -/
structure Carries (cfg : Config) (s : State) (req : CommonCltSrvReq) (S : Session) : Prop where
  reqID : S.clientReqID = req.reqID
  type : S.detail.type = req.type
  sessionID : S.sessionId = req.sessionID
  wrapper : ∃ w, s.wrapper cfg req = some w ∧ S.nonce = w.nonce ∧ ∀ uid key, S.detail = .login uid key →
    ∃ r, decodeInfo (LoginCltSrvReq.codec cfg.dsc) w.data = some r ∧ r.cryptoKey = key

section
variable {cfg : Config} {s s' : State} {e : Event} {outs : List Out} {tr : History} {p : Ptr} {S : Session}
  {req : CommonCltSrvReq} {rsp : CommonSrvCltRsp} {handleID code type : UInt32} {data key : DscBlob}
  {k : UInt32 → Bool}

theorem Keeps.requestKey (h : Keeps s s') (hkey : s.requestKey cfg req = some key) :
    s'.requestKey cfg req = some key := by
  unfold State.requestKey at hkey ⊢
  by_cases htype : req.type < pubCryptoKeyMsg
  · rwa [if_pos htype] at hkey ⊢
  · rw [if_neg htype] at hkey ⊢
    obtain ⟨C, hC, rfl⟩ := Option.map_eq_some_iff.mp hkey
    obtain ⟨C', hC', hsame⟩ := h _ C hC
    rw [hC', Option.map_some, hsame]

theorem Keeps.wrapper {w : ReqDataWrapper} (h : Keeps s s') (hw : s.wrapper cfg req = some w) :
    s'.wrapper cfg req = some w := by
  unfold State.wrapper at hw ⊢
  obtain ⟨buf, hbuf, rfl⟩ := Option.map_eq_some_iff.mp hw
  obtain ⟨key, hkey, hdec⟩ := Option.bind_eq_some_iff.mp hbuf
  rw [h.requestKey hkey, Option.bind_some, hdec, Option.map_some]

theorem Carries.keeps (hc : Carries cfg s req S) (h : Keeps s s') : Carries cfg s' req S := by
  obtain ⟨w, hw, hrest⟩ := hc.wrapper
  exact ⟨hc.reqID, hc.type, hc.sessionID, w, h.wrapper hw, hrest⟩

theorem Answers.keeps (ha : Answers cfg s req rsp) (h : Keeps s s') : Answers cfg s' req rsp := by
  obtain ⟨w, key, data, hw, hkey, henc⟩ := ha.info
  refine ⟨ha.reqID, ha.type, w, key, data, h.wrapper hw, ?_, henc⟩
  rcases hkey with hpeer | hreq | ⟨htype, w', r, hw', hr⟩
  · exact .inl hpeer
  · exact .inr (.inl (h.requestKey hreq))
  · exact .inr (.inr ⟨htype, w', r, h.wrapper hw', hr⟩)

theorem Opens.carries {o : Out} (h : Opens cfg s req handleID S o) : Carries cfg s req S ∧ S.handleID = handleID := by
  cases h with
  | @register buf r hkey htype hreq =>
    refine ⟨⟨rfl, htype.symm, rfl, decodeWrapper cfg buf, ?_, rfl, fun uid key hd => ?_⟩, rfl⟩
    · unfold State.wrapper
      rw [hkey, Option.map_some]
    · cases hd
  | @login buf r hkey htype hreq =>
    refine ⟨⟨rfl, htype.symm, rfl, decodeWrapper cfg buf, ?_, rfl, fun uid key hd => ?_⟩, rfl⟩
    · unfold State.wrapper
      rw [hkey, Option.map_some]
    · obtain ⟨-, rfl⟩ := Detail.login.inj hd
      exact ⟨r, hreq, rfl⟩
  | @query buf r C hkey htype hreq hC htoken =>
    refine ⟨⟨rfl, htype.symm, rfl, decodeWrapper cfg buf, ?_, rfl, fun uid key hd => ?_⟩, rfl⟩
    · unfold State.wrapper
      rw [hkey, Option.map_some]
    · cases hd

theorem Opens.quiet {o : Out} (h : Opens cfg s req handleID S o) : [o].filterMap (Out.responseTo k) = [] := by
  cases h with
  | register hkey htype hreq => rfl
  | login hkey htype hreq => rfl
  | query hkey htype hreq hC htoken => rfl

/-- The response that a step sends for session `S`: its type, and the key it is encrypted with. -/
structure Responds (cfg : Config) (s : State) (S : Session) (type : UInt32) (key : DscBlob) : Prop where
  type : type = S.detail.type ∨ S.detail = .query ∧ type = loginMsg
  key : key = cfg.peerEnvelopeKey ∨ (∃ uid, S.detail = .login uid key) ∨
    S.detail = .query ∧ ∃ C, s.mapClientSession S.sessionId = some C ∧ C.envelopeKey = key

theorem Carries.answers (hc : Carries cfg s req S) (hr : Responds cfg s S type key)
    (h : sendClientMsg cfg code type data key S = some rsp) : Answers cfg s req rsp := by
  obtain ⟨-, htype, hid, henc⟩ := sendClientMsg_some h
  obtain ⟨w, hw, hnonce, hlogin⟩ := hc.wrapper
  refine ⟨hid.trans hc.reqID, ?_, w, key, data, hw, ?_, hnonce ▸ henc⟩
  · rw [htype, ← hc.type]
    rcases hr.type with hsame | ⟨hd, hlog⟩
    · exact .inl hsame
    · exact .inr ⟨by rw [hd]; rfl, hlog⟩
  · rcases hr.key with hpeer | ⟨uid, hd⟩ | ⟨hd, C, hC, hkey⟩
    · exact .inl hpeer
    · obtain ⟨r, hreq, hkey⟩ := hlogin uid key hd
      refine .inr (.inr ⟨?_, w, r, hw, hreq, hkey⟩)
      rw [← hc.type, hd]
      rfl
    · right
      left
      have htype : req.type = queryUserInfoMsg := by
        rw [← hc.type, hd]
        rfl
      unfold State.requestKey
      rw [if_neg (by rw [htype]; decide), ← hc.sessionID, hC, Option.map_some, hkey]

/-- What a step sends to clients is the response of one session, which it frees. -/
theorem Turn.response (h : Turn cfg s e s' outs) : outs.filterMap (Out.responseTo k) = [] ∨
    ∃ p S code type data key, s.heap p = some S ∧ s'.heap p = none ∧ Responds cfg s S type key ∧
      outs = reply cfg code type data key p S := by
  cases h with
  | opened h => exact .inl h.quiet
  | registered hf hk =>
    exact .inr ⟨_, _, _, _, _, _, hf.2, Function.update_self .., ⟨.inl (by rw [hk]; rfl), .inl rfl⟩, rfl⟩
  | loggedIn hf hk hC =>
    exact .inr ⟨_, _, _, _, _, _, hf.2, Function.update_self .., ⟨.inl (by rw [hk]; rfl), .inr (.inl ⟨_, hk⟩)⟩, rfl⟩
  | loginFailed hf hk hC =>
    exact .inr ⟨_, _, _, _, _, _, hf.2, Function.update_self .., ⟨.inl (by rw [hk]; rfl), .inl rfl⟩, rfl⟩
  | @queried rsp env p S C hf hk hC hok =>
    refine .inr ⟨_, _, _, _, _, _, hf.2, Function.update_self .., ⟨.inr ⟨hk, rfl⟩, .inr (.inr ⟨hk, C, hC, ?_⟩)⟩, rfl⟩
    exact (C.maybeTokenExpire_envelopeKey env).symm
  | queryFailed hf hk hC hno =>
    exact .inr ⟨_, _, _, _, _, _, hf.2, Function.update_self .., ⟨.inr ⟨hk, rfl⟩, .inr (.inr ⟨hk, _, hC, rfl⟩)⟩, rfl⟩
  | timedOut h hS =>
    exact .inr ⟨_, _, _, _, _, _, hS, Function.update_self .., ⟨.inl rfl, .inl rfl⟩, rfl⟩
  | refused => exact .inl rfl
  | strayRegist h => exact .inl rfl
  | strayQuery h => exact .inl rfl
  | crossRegist hf hk => exact .inl rfl
  | crossQuery hf hk => exact .inl rfl
  | queryLost hf hk hC => exact .inl rfl
  | late h => exact .inl rfl

/-- A response answers any request that its session is for. -/
theorem Turn.answer (k : UInt32 → Bool) (h : Turn cfg s e s' outs) : outs.filterMap (Out.responseTo k) = [] ∨
    ∃ p S rsp, s.heap p = some S ∧ k S.handleID = true ∧ s'.heap p = none ∧ outs.filterMap (Out.responseTo k) = [rsp] ∧
      ∀ req, Carries cfg s req S → Answers cfg s req rsp := by
  rcases h.response (k := k) with hnone | ⟨p, S, code, type, data, key, hS, hgone, hresp, rfl⟩
  · exact .inl hnone
  · unfold reply
    cases hsend : sendClientMsg cfg code type data key S with
    | none => exact .inl rfl
    | some rsp =>
      by_cases hk : k S.handleID = true
      · refine .inr ⟨p, S, rsp, hS, hk, hgone, ?_, fun req hc => hc.answers hresp hsend⟩
        simp [Out.responseTo, hk]
      · left
        simp [Out.responseTo, hk]

/-! ## Sessions that wait -/

/-- The addresses of the sessions that such a connection has open. -/
def State.waiting (s : State) (k : UInt32 → Bool) : List Ptr :=
  (List.range s.next).filter fun p => (s.heap p).any fun S => k S.handleID

/-- The pairs in `l` and the sessions that wait use up the requests; session `p` is for request `q p`. -/
structure Matched (cfg : Config) (k : UInt32 → Bool) (tr : History) (s : State)
    (l : List (CommonCltSrvReq × CommonSrvCltRsp)) (q : Ptr → CommonCltSrvReq) : Prop where
  once : (l.map Prod.fst ++ (s.waiting k).map q).Subperm (requestsOf k tr)
  sent : l.map Prod.snd = responsesTo k tr
  answers : ∀ x ∈ l, Answers cfg s x.1 x.2
  carries : ∀ p S, s.heap p = some S → k S.handleID = true → Carries cfg s (q p) S

theorem mem_waiting : p ∈ s.waiting k ↔ p < s.next ∧ ∃ S, s.heap p = some S ∧ k S.handleID = true := by
  unfold State.waiting
  rw [List.mem_filter, List.mem_range]
  cases s.heap p with
  | none => simp
  | some S => simp

theorem nodup_waiting : (s.waiting k).Nodup := List.nodup_range.filter _

theorem Shrinks.waiting (h : Shrinks s s') : (s'.waiting k).Subperm (s.waiting k) := by
  apply List.subperm_of_subset nodup_waiting
  intro p hp
  obtain ⟨hlt, S, hS, hk⟩ := mem_waiting.mp hp
  exact mem_waiting.mpr ⟨h.next ▸ hlt, S, h.heap p S hS, hk⟩

theorem waiting_insertReq : (s.insertReq S).waiting k = s.waiting k ++ if k S.handleID then [s.next] else [] := by
  unfold State.waiting
  have hnext : (s.insertReq S).next = s.next + 1 := rfl
  rw [hnext, List.range_succ, List.filter_append]
  congr 1
  · apply List.filter_congr
    intro p hp
    have hne : p ≠ s.next := Nat.ne_of_lt (List.mem_range.mp hp)
    simp [State.insertReq, hne]
  · by_cases hk : k S.handleID = true
    · simp [State.insertReq, hk]
    · simp [State.insertReq, hk]

theorem requestsOf_snoc {en : Entry State Event Out} :
    requestsOf k (tr ++ [en]) = requestsOf k tr ++ (en.ev.requestOf k).toList := by
  unfold requestsOf
  rw [List.filterMap_append]
  cases h : en.ev.requestOf k with
  | none => simp [h]
  | some req => simp [h]

theorem responsesTo_snoc {en : Entry State Event Out} :
    responsesTo k (tr ++ [en]) = responsesTo k tr ++ en.outs.filterMap (Out.responseTo k) := by
  simp [responsesTo]

theorem subperm_map {α β : Type} {l₁ l₂ : List α} (f : α → β) (h : l₁.Subperm l₂) : (l₁.map f).Subperm (l₂.map f) := by
  obtain ⟨l, hperm, hsub⟩ := h
  exact ⟨l.map f, hperm.map f, hsub.map f⟩

variable {l : List (CommonCltSrvReq × CommonSrvCltRsp)} {q : Ptr → CommonCltSrvReq}

/-- No session is opened and nothing is sent to these connections. -/
theorem Matched.quiet (hm : Matched cfg k tr s l q) (hsh : Shrinks s s') (hkeeps : Keeps s s')
    (hnone : outs.filterMap (Out.responseTo k) = []) : Matched cfg k (tr ++ [⟨s, e, outs⟩]) s' l q := by
  refine ⟨?_, ?_, fun x hx => (hm.answers x hx).keeps hkeeps, fun p S hS hk => ?_⟩
  · rw [requestsOf_snoc]
    refine List.Subperm.trans ?_ (hm.once.trans (List.sublist_append_left _ _).subperm)
    exact (List.subperm_append_left _).mpr (subperm_map q hsh.waiting)
  · rw [responsesTo_snoc, hnone, List.append_nil, hm.sent]
  · exact (hm.carries p S (hsh.heap p S hS) hk).keeps hkeeps

/-- The session at `p` is answered: its request is used for the response from now on. -/
theorem Matched.answered (hm : Matched cfg k tr s l q) (hlt : p < s.next) (hsh : Shrinks s s') (hkeeps : Keeps s s')
    (hS : s.heap p = some S) (hk : k S.handleID = true) (hgone : s'.heap p = none)
    (hout : outs.filterMap (Out.responseTo k) = [rsp]) (ha : Answers cfg s (q p) rsp) :
    Matched cfg k (tr ++ [⟨s, e, outs⟩]) s' (l ++ [(q p, rsp)]) q := by
  refine ⟨?_, ?_, fun x hx => ?_, fun p S hS hk => ?_⟩
  · rw [requestsOf_snoc]
    refine List.Subperm.trans ?_ (hm.once.trans (List.sublist_append_left _ _).subperm)
    have hno : p ∉ s'.waiting k := by
      intro hmem
      obtain ⟨-, S', hS', -⟩ := mem_waiting.mp hmem
      rw [hgone] at hS'
      cases hS'
    have hmem : p ∈ s.waiting k := mem_waiting.mpr ⟨hlt, S, hS, hk⟩
    have hcons := subperm_map q (List.cons_subperm_of_not_mem_of_mem hno hmem hsh.waiting)
    simpa using (List.subperm_append_left (l.map Prod.fst)).mpr hcons
  · rw [responsesTo_snoc, hout, List.map_append, hm.sent]
    rfl
  · rcases List.mem_append.mp hx with hx | hx
    · exact (hm.answers x hx).keeps hkeeps
    · obtain rfl := List.mem_singleton.mp hx
      exact ha.keeps hkeeps
  · exact (hm.carries p S (hsh.heap p S hS) hk).keeps hkeeps

/-- The new session is at an address that was not in use. -/
theorem Matched.opened {raw : Int} {o : Out} (hm : Matched cfg k tr s l q) (h : Opens cfg s req handleID S o) :
    Matched cfg k (tr ++ [⟨s, .commonReq req handleID raw, [o]⟩]) (s.insertReq S) l (update q s.next req) := by
  obtain ⟨hcarries, rfl⟩ := h.carries
  have hkeeps : Keeps s (s.insertReq S) := .refl s
  refine ⟨?_, ?_, fun x hx => (hm.answers x hx).keeps hkeeps, fun p S' hS' hk => ?_⟩
  · have hold : (s.waiting k).map (update q s.next req) = (s.waiting k).map q := by
      apply List.map_congr_left
      intro p hp
      exact Function.update_of_ne (Nat.ne_of_lt (mem_waiting.mp hp).1) _ _
    rw [requestsOf_snoc, waiting_insertReq, List.map_append, hold, ← List.append_assoc]
    by_cases hk : k S.handleID = true
    · simpa [Event.requestOf, hk] using (List.subperm_append_right [req]).mpr hm.once
    · simpa [Event.requestOf, hk] using hm.once
  · rw [responsesTo_snoc, h.quiet, List.append_nil, hm.sent]
  · by_cases hp : p = s.next
    · subst hp
      simp only [State.insertReq, Function.update_self, Option.some.injEq] at hS'
      subst hS'
      rw [Function.update_self]
      exact hcarries.keeps hkeeps
    · simp only [State.insertReq, Function.update_of_ne hp] at hS'
      rw [Function.update_of_ne hp]
      exact (hm.carries p S' hS' hk).keeps hkeeps

theorem Matched.step (ht : Traced cfg tr s) (hm : Matched cfg k tr s l q) (h : Turn cfg s e s' outs) :
    ∃ l q, Matched cfg k (tr ++ [⟨s, e, outs⟩]) s' l q := by
  rcases h.shrinks with hsh | ⟨req, handleID, raw, S, o, rfl, hopens, rfl, rfl⟩
  · rcases h.answer k with hnone | ⟨p, S, rsp, hS, hk, hgone, hout, ha⟩
    · exact ⟨l, q, hm.quiet hsh h.keeps hnone⟩
    · have hnext := hm.answered (e := e) (ht.lt p S hS) hsh h.keeps hS hk hgone hout (ha _ (hm.carries p S hS hk))
      exact ⟨_, q, hnext⟩
  · exact ⟨l, _, hm.opened hopens⟩

theorem matched_of_run {C : History → State → Event → Prop} {m : UInt32 → Option ClientSession}
    (hr : Run (Idc.step cfg) (start m) C tr s) (k : UInt32 → Bool) : ∃ l q, Matched cfg k tr s l q := by
  refine hr.invariant (fun tr s => ∃ l q, Matched cfg k tr s l q) ?_ ?_
  · refine ⟨[], fun _ => ⟨0, 0, 0, emptyBlob⟩, List.nil_subperm, rfl, ?_, ?_⟩
    · simp
    · intro p S hS
      cases hS
  · intro tr s e s' outs hr ⟨l, q, hm⟩ _ hst
    exact hm.step (Traced.of_run hr) (step_turn hst)

end

end VProtocol.Idc
