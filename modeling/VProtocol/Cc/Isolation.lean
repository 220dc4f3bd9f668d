import VProtocol.Cc.Handles
import VProtocol.Lib.Component

/-!
# Sessions do not see each other

`alone` is one session with nothing around it: what it becomes and sends when a request
opens it, when the chaincode calls for it, when the committer answers it and when it ends.
The service is made of such sessions. What a session looks up, sets, creates and is
answered with is a function of what reached that session, in every run.
-/

namespace VProtocol.Cc

open Function (update)

/-! ## One session -/

/-- What reaches a session. A request comes with the id the service gives the session. -/
inductive Input where
  | registUserReq (id : UInt32) (req : RegistUserEsCcReq) (src : MsgAddr)
  | submitProposalReq (id : UInt32) (req : SubmitProposalEsCcReq) (src : MsgAddr)
  | call (c : Call)
  | reply (r : Reply)
  -- `RegistUserProc` or `ProposalProc` returns nonzero
  | returned
  | timer

namespace ProcessProposalSession
variable (S : ProcessProposalSession)

def getVbh (cfg : Config) (path : Path) (ccSessionID : UInt64) (key : Blob) (sendRet : Int) :
    ProcessProposalSession × List Out :=
  match (S.lst path).find? (·.strKey = key) with
  | some it => (S, [.up (.onGetVbhRsp path okType ccSessionID key it.value), .ret 0])
  | none =>
    match cfg.getXcsAddr S.channelID with
    | none => (S, [.ret cannotFoundChannelErrorType])
    | some addr =>
      match cfg.decode path key with
      | none => (S, [.ret decodeErrorType])
      | some genKey => (S.setLst path (S.lst path ++ [{ key := genKey, strKey := key }]),
          (if sendRet = 0 then [.query addr path genKey ccSessionID] else []) ++ [.ret sendRet])

def setVbh (path : Path) (key value : Blob) : ProcessProposalSession × List Out :=
  match (S.lst path).find? (·.strKey = key) with
  | none => (S, [.ret (-1)])
  | some _ => (S.setLst path (updateFirst (·.strKey = key) (Item.set value) (S.lst path)), [.ret 0])

def createVbhInformation (key value : Blob) : ProcessProposalSession × List Out :=
  if S.lstCreatedInfo.any (·.key = key) then (S, [.ret (-1)])
  else ({ S with lstCreatedInfo := S.lstCreatedInfo ++ [⟨key, value⟩] }, [.ret 0])

def onReply (r : Reply) : ProcessProposalSession × List Out :=
  if r.returnCode = okType then
    match (S.lst r.path).find? (·.key.systemID = r.matched) with
    | none => (S, [])
    | some it => (S.setLst r.path (updateFirst (·.key.systemID = r.matched) (Item.answered r) (S.lst r.path)),
        [.up (.onGetVbhRsp r.path okType r.ccSessionID it.strKey r.value)])
  else (S, [.up (.onGetVbhRsp r.path r.returnCode r.ccSessionID [] [])])

def answer (returnCode : Int) (transProcessResult : Blob) (encodes : Bool) : EsMsg :=
  if returnCode = okType then
    if encodes then .submitProposalRsp okType S.esSessionID (some (S.content transProcessResult))
    else .submitProposalRsp systemErrorType S.esSessionID none
  else .submitProposalRsp ccReportErrorType S.esSessionID none

end ProcessProposalSession

def RegistUserSession.answer (S : RegistUserSession) (returnCode : Int) (allowRegist : Bool) (userInitInfo : Blob) :
    EsMsg :=
  if returnCode = okType then
    .registUserRsp (some allowRegist) returnCode S.esSessionID (if allowRegist then userInitInfo else [])
  else .registUserRsp none returnCode S.esSessionID []

/-- What ends a session in another way than an answer of the chaincode tells its endorser. -/
def Session.abandon (code : Int) : Session → Out
  | .registUser S => .es S.esAddr (.registUserRsp none code S.esSessionID [])
  | .processProposal S => .es S.esAddr (.submitProposalRsp code S.esSessionID none)

def live (r : ProcessProposalSession × List Out) : Option Session × List Out := (some (.processProposal r.1), r.2)

/-- A session with nothing around it; `none` before it is opened and after it ended. -/
def alone (cfg : Config) : Machine (Option Session) Input Out
  | none, .registUserReq id req src =>
    (some (.registUser ⟨id, req.esSessionID, req.channelID, src, req.userKey, req.userInfo⟩),
      [.up (.registUserProc (combineUserCCSessionID id registUserSessionType) req.channelID req.userKey req.userInfo)])
  | none, .submitProposalReq id req src =>
    (some (.processProposal ⟨id, req.esSessionID, req.channelID, src, req.proposal, [], [], []⟩),
      [.up (.proposalProc id.toUInt64 req.channelID req.action req.proposal)])
  | some (.processProposal S), .call (.getVbhUser h key sendRet) => live (S.getVbh cfg .user h key sendRet)
  | some (.processProposal S), .call (.getVbhInformation h key sendRet) => live (S.getVbh cfg .info h key sendRet)
  | some (.processProposal S), .call (.setVbhUser _ key value) => live (S.setVbh .user key value)
  | some (.processProposal S), .call (.setVbhInformation _ key value) => live (S.setVbh .info key value)
  | some (.processProposal S), .call (.createVbhInformation _ key value) => live (S.createVbhInformation key value)
  | some (.processProposal S), .call (.porposalRsp code _ result encodes) =>
    (none, [.es S.esAddr (S.answer code result encodes), .ret 0])
  | some (.registUser S), .call (.registUserRsp code _ allow info) =>
    (none, [.es S.esAddr (S.answer code allow info), .ret 0])
  | some (.processProposal S), .reply r => live (S.onReply r)
  | some x, .returned => (none, [x.abandon ccReportErrorType])
  | some x, .timer => (none, [x.abandon timeoutErrorType])
  | x, _ => (x, [])

/-! ## What an event hands to which session -/

def State.input (s : State) : Event → Option (Ptr × Input)
  | .registUserReq req src => some (s.next, .registUserReq s.sessionID req src)
  | .submitProposalReq req src => some (s.next, .submitProposalReq s.sessionID req src)
  | .procReturn ret => if ret = 0 then none else s.proc.map fun pr => (pr.p, .returned)
  | .call c => (s.named c.kind c.handle).map fun p => (p, .call c)
  | .queryUserInfoRsp rsp => (s.find rsp.ccSessionID).map fun p => (p, .reply rsp.reply)
  | .queryInformationRsp rsp => (s.find rsp.ccSessionID).map fun p => (p, .reply rsp.reply)
  | .timer p => if s.armed p then some (p, .timer) else none

inductive Hands (s : State) : Event → Ptr → Input → Prop
  | registUserReq {req src} : Hands s (.registUserReq req src) s.next (.registUserReq s.sessionID req src)
  | submitProposalReq {req src} : Hands s (.submitProposalReq req src) s.next (.submitProposalReq s.sessionID req src)
  | returned {ret pr} : ret ≠ 0 → s.proc = some pr → Hands s (.procReturn ret) pr.p .returned
  | call {c p} : s.named c.kind c.handle = some p → Hands s (.call c) p (.call c)
  | reply {e r p} : e.reply = some r → s.find r.ccSessionID = some p → Hands s e p (.reply r)
  | timer {p} : s.armed p = true → Hands s (.timer p) p .timer

theorem input_hands {s : State} {e : Event} {p : Ptr} {a : Input} (h : s.input e = some (p, a)) : Hands s e p a := by
  cases e with
  | registUserReq req src =>
    obtain ⟨rfl, rfl⟩ := Prod.mk.inj (Option.some.inj h)
    exact .registUserReq
  | submitProposalReq req src =>
    obtain ⟨rfl, rfl⟩ := Prod.mk.inj (Option.some.inj h)
    exact .submitProposalReq
  | procReturn ret =>
    simp only [State.input] at h
    split at h
    · cases h
    · obtain ⟨pr, hpr, heq⟩ := Option.map_eq_some_iff.mp h
      obtain ⟨rfl, rfl⟩ := Prod.mk.inj heq
      exact .returned ‹_› hpr
  | call c =>
    obtain ⟨q, hq, heq⟩ := Option.map_eq_some_iff.mp h
    obtain ⟨rfl, rfl⟩ := Prod.mk.inj heq
    exact .call hq
  | queryUserInfoRsp rsp =>
    obtain ⟨q, hq, heq⟩ := Option.map_eq_some_iff.mp h
    obtain ⟨rfl, rfl⟩ := Prod.mk.inj heq
    exact .reply rfl hq
  | queryInformationRsp rsp =>
    obtain ⟨q, hq, heq⟩ := Option.map_eq_some_iff.mp h
    obtain ⟨rfl, rfl⟩ := Prod.mk.inj heq
    exact .reply rfl hq
  | timer q =>
    simp only [State.input] at h
    split at h
    · obtain ⟨rfl, rfl⟩ := Prod.mk.inj (Option.some.inj h)
      exact .timer ‹_›
    · cases h

/-- Session `p` takes `a`, and the other sessions are left alone. -/
structure Handed (cfg : Config) (s : State) (p : Ptr) (a : Input) (s' : State) (outs : List Out) : Prop where
  heap : s'.heap = update s.heap p (alone cfg (s.heap p) a).1
  outs : outs = (alone cfg (s.heap p) a).2

/-- No session takes anything, and a call that named none is told so. -/
structure Unheard (s s' : State) (outs : List Out) : Prop where
  heap : s'.heap = s.heap
  outs : outs = [] ∨ ∃ code ≠ 0, outs = [.ret code]

def Reached (cfg : Config) (s : State) (x : Option (Ptr × Input)) (s' : State) (outs : List Out) : Prop :=
  match x with
  | some (p, a) => Handed cfg s p a s' outs
  | none => Unheard s s' outs

section
variable {cfg : Config} {s s' : State} {e : Event} {outs : List Out} {p q : Ptr}

theorem heap_of_session {S} (h : s.session p = some S) : s.heap p = some (.processProposal S) := by
  unfold State.session at h
  split at h
  · rw [‹s.heap p = _›, Option.some.inj h]
  · cases h

/-- A step that leaves session `p` as it is when it is handed `a`. -/
theorem Handed.same {a : Input} {x : Session} (hx : s.heap p = some x) (ha : alone cfg (some x) a = (some x, outs)) :
    Handed cfg s p a s outs := by
  constructor
  · rw [hx, ha, ← hx, Function.update_eq_self]
  · rw [hx, ha]

theorem Handed.put {a : Input} {x y : Session} (hx : s.heap p = some x) (ha : alone cfg (some x) a = (some y, outs)) :
    Handed cfg s p a (s.put p y) outs := by
  constructor
  · rw [hx, ha]
    rfl
  · rw [hx, ha]

theorem Handed.gone {a : Input} {x : Session} (hx : s.heap p = some x) (ha : alone cfg (some x) a = (none, outs))
    (hs' : s'.heap = update s.heap p none) : Handed cfg s p a s' outs := by
  constructor
  · rw [hx, ha]
    exact hs'
  · rw [hx, ha]

/-! ## Every step -/

theorem getVbh_reached {path noSession h key sendRet} {c : Call} (hn : noSession ≠ 0)
    (hc : ∀ S, alone cfg (some (.processProposal S)) (.call c) = live (S.getVbh cfg path h key sendRet))
    (hst : getVbh cfg s path noSession h key sendRet = .ok (s', outs)) :
    Reached cfg s ((s.find h).map fun p => (p, .call c)) s' outs := by
  unfold getVbh at hst
  split at hst
  · rename_i hnone
    obtain ⟨rfl, rfl⟩ := Prod.mk.inj (Except.ok.inj hst)
    rw [hnone]
    exact ⟨rfl, .inr ⟨_, hn, rfl⟩⟩
  rename_i p hp
  obtain ⟨S, hS, hst⟩ := Except.bind_eq_ok.mp hst
  have hx := heap_of_session (processProposal_eq_ok.mp hS)
  have hS := hc S
  rw [hp]
  unfold ProcessProposalSession.getVbh at hS
  split at hst
  · rename_i it hit
    obtain ⟨rfl, rfl⟩ := Prod.mk.inj (Except.ok.inj hst)
    rw [hit] at hS
    exact .same hx hS
  rename_i hnone
  split at hst
  · rename_i hch
    obtain ⟨rfl, rfl⟩ := Prod.mk.inj (Except.ok.inj hst)
    rw [hnone, hch] at hS
    exact .same hx hS
  rename_i addr hch
  split at hst
  · rename_i hdec
    obtain ⟨rfl, rfl⟩ := Prod.mk.inj (Except.ok.inj hst)
    rw [hnone, hch, hdec] at hS
    exact .same hx hS
  · rename_i genKey hdec
    obtain ⟨rfl, rfl⟩ := Prod.mk.inj (Except.ok.inj hst)
    rw [hnone, hch, hdec] at hS
    exact .put hx hS

theorem setVbh_reached {path noSession h key value} {c : Call} (hn : noSession ≠ 0)
    (hc : ∀ S, alone cfg (some (.processProposal S)) (.call c) = live (S.setVbh path key value))
    (hst : setVbh s path noSession h key value = .ok (s', outs)) :
    Reached cfg s ((s.find h).map fun p => (p, .call c)) s' outs := by
  unfold setVbh at hst
  split at hst
  · rename_i hnone
    obtain ⟨rfl, rfl⟩ := Prod.mk.inj (Except.ok.inj hst)
    rw [hnone]
    exact ⟨rfl, .inr ⟨_, hn, rfl⟩⟩
  rename_i p hp
  obtain ⟨S, hS, hst⟩ := Except.bind_eq_ok.mp hst
  have hx := heap_of_session (processProposal_eq_ok.mp hS)
  have hS := hc S
  rw [hp]
  unfold ProcessProposalSession.setVbh at hS
  split at hst
  · rename_i hnone
    obtain ⟨rfl, rfl⟩ := Prod.mk.inj (Except.ok.inj hst)
    rw [hnone] at hS
    exact .same hx hS
  · rename_i it hit
    obtain ⟨rfl, rfl⟩ := Prod.mk.inj (Except.ok.inj hst)
    rw [hit] at hS
    exact .put hx hS

theorem createVbhInformation_reached {h key value} (hst : createVbhInformation s h key value = .ok (s', outs)) :
    Reached cfg s ((s.find h).map fun p => (p, .call (.createVbhInformation h key value))) s' outs := by
  unfold createVbhInformation at hst
  split at hst
  · rename_i hnone
    obtain ⟨rfl, rfl⟩ := Prod.mk.inj (Except.ok.inj hst)
    rw [hnone]
    exact ⟨rfl, .inr ⟨-1, by decide, rfl⟩⟩
  rename_i p hp
  obtain ⟨S, hS, hst⟩ := Except.bind_eq_ok.mp hst
  have hx := heap_of_session (processProposal_eq_ok.mp hS)
  rw [hp]
  split at hst
  · rename_i hany
    obtain ⟨rfl, rfl⟩ := Prod.mk.inj (Except.ok.inj hst)
    apply Handed.same hx
    simp only [alone, live, ProcessProposalSession.createVbhInformation, if_pos hany]
  · rename_i hany
    obtain ⟨rfl, rfl⟩ := Prod.mk.inj (Except.ok.inj hst)
    apply Handed.put hx
    simp only [alone, live, ProcessProposalSession.createVbhInformation, if_neg hany]

theorem onQueryRsp_reached {r} (hst : onQueryRsp s r = .ok (s', outs)) :
    Reached cfg s ((s.find r.ccSessionID).map fun p => (p, .reply r)) s' outs := by
  unfold onQueryRsp at hst
  split at hst
  · rename_i hnone
    obtain ⟨rfl, rfl⟩ := Prod.mk.inj (Except.ok.inj hst)
    rw [hnone]
    exact ⟨rfl, .inl rfl⟩
  rename_i p hp
  obtain ⟨S, hS, hst⟩ := Except.bind_eq_ok.mp hst
  have hx := heap_of_session (processProposal_eq_ok.mp hS)
  rw [hp]
  split at hst
  · rename_i hok
    split at hst
    · rename_i hnone
      obtain ⟨rfl, rfl⟩ := Prod.mk.inj (Except.ok.inj hst)
      apply Handed.same hx
      simp only [alone, live, ProcessProposalSession.onReply, if_pos hok, hnone]
    · rename_i it hit
      obtain ⟨rfl, rfl⟩ := Prod.mk.inj (Except.ok.inj hst)
      apply Handed.put hx
      simp only [alone, live, ProcessProposalSession.onReply, if_pos hok, hit]
  · rename_i hbad
    obtain ⟨rfl, rfl⟩ := Prod.mk.inj (Except.ok.inj hst)
    apply Handed.same hx
    simp only [alone, live, ProcessProposalSession.onReply, if_neg hbad]

theorem registUserRsp_reached {code h allow info} (hst : registUserRsp s code h allow info = .ok (s', outs)) :
    Reached cfg s ((s.named .registUser h).map fun p => (p, .call (.registUserRsp code h allow info))) s' outs := by
  unfold registUserRsp at hst
  simp only at hst
  split at hst
  · rename_i ht
    rw [named_eq (k := .registUser) ht]
    split at hst
    · rename_i hm
      obtain ⟨rfl, rfl⟩ := Prod.mk.inj (Except.ok.inj hst)
      rw [show s.map .registUser _ = none from hm]
      exact ⟨rfl, .inr ⟨-1, by decide, rfl⟩⟩
    · rename_i p hm
      obtain ⟨S, hS, hst⟩ := Except.bind_eq_ok.mp hst
      obtain ⟨rfl, rfl⟩ := Prod.mk.inj (Except.ok.inj hst)
      rw [show s.map .registUser _ = some p from hm]
      exact Handed.gone (registUser_eq_ok.mp hS) rfl rfl
  · rename_i ht
    obtain ⟨rfl, rfl⟩ := Prod.mk.inj (Except.ok.inj hst)
    rw [named_eq_none (k := .registUser) ht]
    exact ⟨rfl, .inr ⟨-1, by decide, rfl⟩⟩

theorem porposalRsp_reached {code h result encodes} (hst : porposalRsp s code h result encodes = .ok (s', outs)) :
    Reached cfg s ((s.find h).map fun p => (p, .call (.porposalRsp code h result encodes))) s' outs := by
  unfold porposalRsp at hst
  split at hst
  · rename_i hnone
    obtain ⟨rfl, rfl⟩ := Prod.mk.inj (Except.ok.inj hst)
    rw [hnone]
    exact ⟨rfl, .inr ⟨-1, by decide, rfl⟩⟩
  · rename_i p hp
    obtain ⟨S, hS, hst⟩ := Except.bind_eq_ok.mp hst
    obtain ⟨rfl, rfl⟩ := Prod.mk.inj (Except.ok.inj hst)
    rw [hp]
    exact Handed.gone (heap_of_session (processProposal_eq_ok.mp hS)) rfl rfl

theorem onCall_reached {c} (hst : onCall cfg s c = .ok (s', outs)) : Reached cfg s (s.input (.call c)) s' outs := by
  cases c with
  | getVbhUser h key sendRet => exact getVbh_reached (by decide) (fun _ => rfl) hst
  | getVbhInformation h key sendRet => exact getVbh_reached (by decide) (fun _ => rfl) hst
  | setVbhUser h key value => exact setVbh_reached (by decide) (fun _ => rfl) hst
  | setVbhInformation h key value => exact setVbh_reached (by decide) (fun _ => rfl) hst
  | createVbhInformation h key value => exact createVbhInformation_reached hst
  | registUserRsp code h allow info => exact registUserRsp_reached hst
  | porposalRsp code h result encodes => exact porposalRsp_reached hst

/-- The answer after a nonzero return goes to the address and the id the caller kept, which
are those of the session. -/
theorem onProcReturn_reached (hi : MapInv s) {pr ret} (hpr : s.proc = some pr)
    (hst : onProcReturn s pr ret = .ok (s', outs)) : Reached cfg s (s.input (.procReturn ret)) s' outs := by
  obtain ⟨-, k, ht, hk⟩ := hi.proc pr hpr
  unfold onProcReturn at hst
  simp only at hst
  split at hst
  · rename_i h0
    obtain ⟨rfl, rfl⟩ := Prod.mk.inj (Except.ok.inj hst)
    simp only [State.input, if_pos h0]
    exact ⟨rfl, .inl rfl⟩
  · rename_i h0
    simp only [State.input, if_neg h0, hpr, Option.map_some]
    split at hst
    · obtain ⟨S, hS, hst⟩ := Except.bind_eq_ok.mp hst
      have hx := registUser_eq_ok.mp hS
      obtain ⟨rfl, rfl⟩ := Prod.mk.inj (Except.ok.inj hst)
      obtain ⟨-, hproc⟩ := hk (Session.registUser S).card (congrArg (Option.map Session.card) hx)
      refine Handed.gone hx ?_ rfl
      rw [hproc]
      rfl
    · obtain ⟨S, hS, hst⟩ := Except.bind_eq_ok.mp hst
      have hx := heap_of_session (processProposal_eq_ok.mp hS)
      obtain ⟨rfl, rfl⟩ := Prod.mk.inj (Except.ok.inj hst)
      obtain ⟨-, hproc⟩ := hk (Session.processProposal S).card (congrArg (Option.map Session.card) hx)
      refine Handed.gone hx ?_ rfl
      rw [hproc]
      rfl

theorem onTimer_reached (hst : onTimer s p = .ok (s', outs)) : Reached cfg s (s.input (.timer p)) s' outs := by
  unfold onTimer at hst
  simp only [State.input]
  split at hst
  · rename_i ha
    rw [if_pos ha]
    split at hst
    · cases hst
    · obtain ⟨rfl, rfl⟩ := Prod.mk.inj (Except.ok.inj hst)
      exact Handed.gone ‹_› rfl rfl
    · obtain ⟨rfl, rfl⟩ := Prod.mk.inj (Except.ok.inj hst)
      exact Handed.gone ‹_› rfl rfl
  · rename_i ha
    obtain ⟨rfl, rfl⟩ := Prod.mk.inj (Except.ok.inj hst)
    rw [if_neg ha]
    exact ⟨rfl, .inl rfl⟩

theorem step_reached (hi : MapInv s) (hst : step cfg s e = .ok (s', outs)) : Reached cfg s (s.input e) s' outs := by
  have hfresh : s.heap s.next = none := card_eq_none.mp (hi.fresh _ (Nat.le_refl _))
  unfold step at hst
  split at hst
  · exact onCall_reached hst
  · exact onProcReturn_reached hi ‹_› hst
  · cases hst
  · cases hst
  · obtain ⟨rfl, rfl⟩ := Prod.mk.inj (Except.ok.inj hst)
    constructor
    · rw [hfresh]
      rfl
    · rw [hfresh]
      rfl
  · obtain ⟨rfl, rfl⟩ := Prod.mk.inj (Except.ok.inj hst)
    constructor
    · rw [hfresh]
      rfl
    · rw [hfresh]
      rfl
  · rename_i rsp _
    exact onQueryRsp_reached (r := rsp.reply) hst
  · rename_i rsp _
    exact onQueryRsp_reached (r := rsp.reply) hst
  · exact onTimer_reached hst

/-! ## The service is made of its sessions -/

theorem sessions_components : Components (step cfg) MapInv State.heap State.input (alone cfg) where
  takes := by
    intro s e s' outs p a hi hst hin
    have hreach := step_reached hi hst
    rw [hin] at hreach
    rw [hreach.heap, Function.update_self, hreach.outs]
  frame := by
    intro s e s' outs p hi hst hin
    have hreach := step_reached hi hst
    cases hx : s.input e with
    | none =>
      rw [hx] at hreach
      rw [hreach.heap]
    | some qa =>
      obtain ⟨q, a⟩ := qa
      rw [hx] at hreach
      have hne : p ≠ q := by
        intro hp
        subst hp
        exact hin a hx
      rw [hreach.heap, Function.update_of_ne hne]

variable {C C' : History → State → Event → Prop} {tr tr' : History}

/-- After every run each session is what it becomes alone on what reached it, with the same
sent for it; and nothing is sent for no session but the error code of a call. -/
theorem sessions_alone (h : Run (step cfg) {} C tr s) :
    (∀ p, (alone cfg).run none (inputsTo State.input p tr) = (s.heap p, outsOf State.input p tr)) ∧
    ∀ tr₁ en tr₂, tr = tr₁ ++ en :: tr₂ → en.pre.input en.ev = none →
      en.outs = [] ∨ ∃ code ≠ 0, en.outs = [.ret code] := by
  constructor
  · exact sessions_components.run run_mapInv h
  · intro tr₁ en tr₂ heq hnone
    obtain ⟨s', hr, -, hst⟩ := h.entry heq
    have hreach := step_reached (run_mapInv hr) hst
    rw [hnone] at hreach
    exact hreach.outs

/-- Two sessions that the same reached are the same and were sent the same for, in one run
or in two, whatever other sessions there were. -/
theorem sessions_isolated (h : Run (step cfg) {} C tr s) (h' : Run (step cfg) {} C' tr' s')
    (hin : inputsTo State.input p tr = inputsTo State.input q tr') :
    s.heap p = s'.heap q ∧ outsOf State.input p tr = outsOf State.input q tr' :=
  sessions_components.agree run_mapInv sessions_components run_mapInv h h' rfl hin

end

/-- Two proposals look the same key up, and the second sets it before the first answers. -/
def interleaved : List Event :=
  [.submitProposalReq ⟨8, 1, 0, [9]⟩ 5, .procReturn 0, .submitProposalReq ⟨8, 2, 0, [9]⟩ 6, .procReturn 0,
    .call (.getVbhInformation 0x200000000 infoKey 0), .call (.getVbhInformation 0x200000001 infoKey 0),
    .queryInformationRsp ⟨okType, 1, 0x200000001, 0x0101010101010101, [4]⟩,
    .call (.setVbhInformation 0x200000001 infoKey [5]), .call (.porposalRsp okType 0x200000000 [7] true), .timer 1]

theorem sessions_alone_two : ∃ tr s, Run (step oneChannel) {} anyStep tr s ∧ (inputsTo State.input 0 tr).length = 3 ∧
    (alone oneChannel).run none (inputsTo State.input 0 tr) = (none,
      [.up (.proposalProc 0 0 1 [9]), .query 3 .info ⟨0x0101, 0x01010101, 0x0101010101010101⟩ 0x200000000, .ret 0,
        .es 5 (.submitProposalRsp okType 8 (some ⟨[9], [7], [], [], []⟩)), .ret 0]) := by
  have hr : Run (step oneChannel) {} anyStep (trace (step oneChannel) {} interleaved) _ := run_trace_any interleaved
  refine ⟨_, _, hr, rfl, ?_⟩
  rw [(sessions_alone hr).1 0]
  rfl

end VProtocol.Cc
