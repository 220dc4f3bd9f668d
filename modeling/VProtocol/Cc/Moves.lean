import VProtocol.Cc.Service

/-!
# What a step can do

`step_move`: a step opens a session, leaves the sessions alone, changes one proposal
session or ends a session. Nothing after this module unfolds a handler.
-/

namespace VProtocol.Cc

open Function (update)

/-! ## What an event sets, creates or answers -/

structure Setting where
  path : Path
  ccSessionID : UInt64
  key : Blob
  value : Blob

def Event.sets : Event → Option Setting
  | .call (.setVbhUser h key value) => some ⟨.user, h, key, value⟩
  | .call (.setVbhInformation h key value) => some ⟨.info, h, key, value⟩
  | _ => none

def Event.creates : Event → Option (UInt64 × VbhOnCreateInformation)
  | .call (.createVbhInformation h key value) => some (h, ⟨key, value⟩)
  | _ => none

def Event.reply : Event → Option Reply
  | .queryUserInfoRsp rsp => some rsp.reply
  | .queryInformationRsp rsp => some rsp.reply
  | _ => none

def Out.content : Out → Option TransContent
  | .es _ (.submitProposalRsp _ _ c) => c
  | _ => none

structure Event.Plain (e : Event) : Prop where
  sets : e.sets = none
  creates : e.creates = none
  reply : e.reply = none

namespace State
variable (s : State)

def session (p : Ptr) : Option ProcessProposalSession :=
  match s.heap p with
  | some (.processProposal S) => some S
  | _ => none

/-- The item of session `p` that an OK answer is taken for. -/
def hit (r : Reply) (p : Ptr) : Option Item :=
  if r.returnCode = okType ∧ s.find r.ccSessionID = some p then
    (s.session p).bind fun S => (S.lst r.path).find? (·.key.systemID = r.matched)
  else none

end State

theorem processProposal_eq_ok {s : State} {p S} : s.processProposal p = .ok S ↔ s.session p = some S := by
  unfold State.processProposal State.session
  cases s.heap p with
  | none => exact ⟨nofun, nofun⟩
  | some x =>
    cases x with
    | registUser => exact ⟨nofun, nofun⟩
    | processProposal S' =>
      constructor
      · intro h; rw [Except.ok.inj h]
      · intro h; rw [Option.some.inj h]

theorem hit_eq_some {s : State} {r : Reply} {p : Ptr} {it : Item} : s.hit r p = some it ↔ r.returnCode = okType ∧
    s.find r.ccSessionID = some p ∧ ∃ S, s.session p = some S ∧ (S.lst r.path).find? (·.key.systemID = r.matched) = some it := by
  unfold State.hit
  rw [Option.ite_none_right_eq_some, Option.bind_eq_some_iff, and_assoc]

theorem session_put {s : State} {p q : Ptr} {S : ProcessProposalSession} :
    (s.put p (.processProposal S)).session q = if q = p then some S else s.session q := by
  unfold State.session State.put
  by_cases h : q = p
  · subst h; simp
  · simp [h]

/-! ## The moves -/

inductive Move (cfg : Config) (s : State) (e : Event) : State → List Out → Prop
  | registered {req src} : e = .registUserReq req src →
      Move cfg s e (onDscMsgRegistUserEsCcReq s req src).1 (onDscMsgRegistUserEsCcReq s req src).2
  | proposed {req src} : e = .submitProposalReq req src →
      Move cfg s e (onDscMsgSubmitProposalEsCcReq s req src).1 (onDscMsgSubmitProposalEsCcReq s req src).2
  | returned : e = .procReturn 0 → Move cfg s e { s with proc := none } []
  /-- Nothing changes; a call that should have set or created something did not. -/
  | quiet {outs} : (e.sets ≠ none → outs ≠ [.ret 0]) → (e.creates ≠ none → outs ≠ [.ret 0]) →
      (∀ r p, e.reply = some r → s.hit r p = none) → (∀ o ∈ outs, o.content = none) → Move cfg s e s outs
  | got {path h key genKey p S outs} : e.Plain → s.find h = some p → s.session p = some S →
      (S.lst path).find? (·.strKey = key) = none → cfg.decode path key = some genKey → (∀ o ∈ outs, o.content = none) →
      Move cfg s e (s.put p (.processProposal (S.setLst path (S.lst path ++ [{ key := genKey, strKey := key }])))) outs
  | set {w p S it} : e.sets = some w → s.find w.ccSessionID = some p → s.session p = some S →
      (S.lst w.path).find? (·.strKey = w.key) = some it →
      Move cfg s e (s.put p (.processProposal
        (S.setLst w.path (updateFirst (·.strKey = w.key) (Item.set w.value) (S.lst w.path))))) [.ret 0]
  | created {h c p S} : e.creates = some (h, c) → s.find h = some p → s.session p = some S →
      (∀ d ∈ S.lstCreatedInfo, d.key ≠ c.key) →
      Move cfg s e (s.put p (.processProposal { S with lstCreatedInfo := S.lstCreatedInfo ++ [c] })) [.ret 0]
  | answered {r p S it} : e.reply = some r → s.hit r p = some it → s.session p = some S →
      Move cfg s e (s.put p (.processProposal
        (S.setLst r.path (updateFirst (·.key.systemID = r.matched) (Item.answered r) (S.lst r.path)))))
        [.up (.onGetVbhRsp r.path okType r.ccSessionID it.strKey r.value)]
  /-- `PorposalRsp` ends the session it is for. -/
  | responded {code h result encodes p S} : e = .call (.porposalRsp code h result encodes) → s.find h = some p →
      s.session p = some S → Move cfg s e
        (((s.eraseProcessProposalKey (splitUserCCSessionID h).1).cancelDscTimer p).free p)
        [.es S.esAddr (if code = okType then
            if encodes then .submitProposalRsp okType S.esSessionID (some (S.content result))
            else .submitProposalRsp systemErrorType S.esSessionID none
          else .submitProposalRsp ccReportErrorType S.esSessionID none), .ret 0]
  /-- A session ends in another way. -/
  | ended {p s' outs} : e.Plain → s'.heap = update s.heap p none → s'.next = s.next →
      (∀ id q, s'.mapProcessProposal id = some q → s.mapProcessProposal id = some q) →
      (∀ o ∈ outs, o.content = none) → Move cfg s e s' outs

section
variable {cfg : Config} {s s' : State} {e : Event} {outs : List Out}

theorem getVbh_move {path noSession h key sendRet} (he : e.Plain)
    (hst : getVbh cfg s path noSession h key sendRet = .ok (s', outs)) : Move cfg s e s' outs := by
  have hquiet : ∀ {outs}, (∀ o ∈ outs, o.content = none) → Move cfg s e s outs := by
    intro outs ho
    exact .quiet (fun h => absurd he.sets h) (fun h => absurd he.creates h) (by simp [he.reply]) ho
  unfold getVbh at hst
  split at hst
  · obtain ⟨rfl, rfl⟩ := Prod.mk.inj (Except.ok.inj hst)
    exact hquiet (by simp [Out.content])
  rename_i p hp
  obtain ⟨S, hS, hst⟩ := Except.bind_eq_ok.mp hst
  rw [processProposal_eq_ok] at hS
  split at hst
  · obtain ⟨rfl, rfl⟩ := Prod.mk.inj (Except.ok.inj hst)
    exact hquiet (by simp [Out.content])
  rename_i hnone
  split at hst
  · obtain ⟨rfl, rfl⟩ := Prod.mk.inj (Except.ok.inj hst)
    exact hquiet (by simp [Out.content])
  split at hst
  · obtain ⟨rfl, rfl⟩ := Prod.mk.inj (Except.ok.inj hst)
    exact hquiet (by simp [Out.content])
  · rename_i genKey hdec
    obtain ⟨rfl, rfl⟩ := Prod.mk.inj (Except.ok.inj hst)
    refine .got he hp hS hnone hdec ?_
    intro o ho
    rcases List.mem_append.mp ho with ho | ho
    · split at ho
      · rw [List.mem_singleton.mp ho]; rfl
      · cases ho
    · rw [List.mem_singleton.mp ho]; rfl

theorem setVbh_move {w : Setting} {noSession} (hn : noSession ≠ 0) (he : e.sets = some w) (hc : e.creates = none)
    (hr : e.reply = none) (hst : setVbh s w.path noSession w.ccSessionID w.key w.value = .ok (s', outs)) :
    Move cfg s e s' outs := by
  have hquiet : ∀ {code}, code ≠ 0 → Move cfg s e s [.ret code] := by
    intro code hcode
    exact .quiet (fun _ h => hcode (by simpa using h)) (fun h => absurd hc h) (by simp [hr]) (by simp [Out.content])
  unfold setVbh at hst
  split at hst
  · obtain ⟨rfl, rfl⟩ := Prod.mk.inj (Except.ok.inj hst)
    exact hquiet hn
  rename_i p hp
  obtain ⟨S, hS, hst⟩ := Except.bind_eq_ok.mp hst
  rw [processProposal_eq_ok] at hS
  split at hst
  · obtain ⟨rfl, rfl⟩ := Prod.mk.inj (Except.ok.inj hst)
    exact hquiet (by decide)
  · rename_i it hit
    obtain ⟨rfl, rfl⟩ := Prod.mk.inj (Except.ok.inj hst)
    exact .set he hp hS hit

theorem createVbhInformation_move {h key value} (hst : createVbhInformation s h key value = .ok (s', outs)) :
    Move cfg s (.call (.createVbhInformation h key value)) s' outs := by
  have hquiet : Move cfg s (.call (.createVbhInformation h key value)) s [.ret (-1)] :=
    .quiet (fun h => absurd rfl h) (fun _ => by simp) (fun r p h => by cases h) (by simp [Out.content])
  unfold createVbhInformation at hst
  split at hst
  · obtain ⟨rfl, rfl⟩ := Prod.mk.inj (Except.ok.inj hst)
    exact hquiet
  rename_i p hp
  obtain ⟨S, hS, hst⟩ := Except.bind_eq_ok.mp hst
  rw [processProposal_eq_ok] at hS
  split at hst
  · obtain ⟨rfl, rfl⟩ := Prod.mk.inj (Except.ok.inj hst)
    exact hquiet
  · rename_i hany
    obtain ⟨rfl, rfl⟩ := Prod.mk.inj (Except.ok.inj hst)
    refine .created (c := ⟨key, value⟩) rfl hp hS ?_
    simpa using hany

theorem onQueryRsp_move {r} (he : e.reply = some r) (hs : e.sets = none) (hc : e.creates = none)
    (hst : onQueryRsp s r = .ok (s', outs)) : Move cfg s e s' outs := by
  have hquiet : ∀ {outs}, (∀ p, s.hit r p = none) → (∀ o ∈ outs, o.content = none) → Move cfg s e s outs := by
    intro outs hh ho
    refine .quiet (fun h => absurd hs h) (fun h => absurd hc h) (fun r' p hr' => ?_) ho
    obtain rfl := Option.some.inj (he.symm.trans hr')
    exact hh p
  unfold onQueryRsp at hst
  split at hst
  · rename_i hnone
    obtain ⟨rfl, rfl⟩ := Prod.mk.inj (Except.ok.inj hst)
    exact hquiet (by simp [State.hit, hnone]) (by simp)
  rename_i p hp
  obtain ⟨S, hS, hst⟩ := Except.bind_eq_ok.mp hst
  rw [processProposal_eq_ok] at hS
  split at hst
  · rename_i hok
    split at hst
    · rename_i hnone
      obtain ⟨rfl, rfl⟩ := Prod.mk.inj (Except.ok.inj hst)
      refine hquiet (fun q => Option.eq_none_iff_forall_ne_some.mpr fun it hit => ?_) (by simp)
      obtain ⟨-, hq, S', hS', hfind⟩ := hit_eq_some.mp hit
      obtain rfl := Option.some.inj (hp.symm.trans hq)
      obtain rfl := Option.some.inj (hS.symm.trans hS')
      cases hnone.symm.trans hfind
    · rename_i it hit
      obtain ⟨rfl, rfl⟩ := Prod.mk.inj (Except.ok.inj hst)
      exact .answered he (hit_eq_some.mpr ⟨hok, hp, S, hS, hit⟩) hS
  · rename_i hbad
    obtain ⟨rfl, rfl⟩ := Prod.mk.inj (Except.ok.inj hst)
    exact hquiet (by simp [State.hit, hbad]) (by simp [Out.content])

theorem registUserRsp_move {code h allow info} (hst : registUserRsp s code h allow info = .ok (s', outs)) :
    Move cfg s (.call (.registUserRsp code h allow info)) s' outs := by
  have hquiet : Move cfg s (.call (.registUserRsp code h allow info)) s [.ret (-1)] :=
    .quiet (fun h => absurd rfl h) (fun h => absurd rfl h) (fun r p h => by cases h) (by simp [Out.content])
  unfold registUserRsp at hst
  simp only at hst
  split at hst
  · split at hst
    · obtain ⟨rfl, rfl⟩ := Prod.mk.inj (Except.ok.inj hst)
      exact hquiet
    · rename_i p hp
      obtain ⟨S, hS, hst⟩ := Except.bind_eq_ok.mp hst
      obtain ⟨rfl, rfl⟩ := Prod.mk.inj (Except.ok.inj hst)
      refine .ended ⟨rfl, rfl, rfl⟩ rfl rfl (fun _ _ h => h) ?_
      intro o ho
      rcases List.mem_cons.mp ho with rfl | ho
      · by_cases hok : code = okType
        · rw [if_pos hok]; rfl
        · rw [if_neg hok]; rfl
      · rw [List.mem_singleton.mp ho]; rfl
  · obtain ⟨rfl, rfl⟩ := Prod.mk.inj (Except.ok.inj hst)
    exact hquiet

theorem porposalRsp_move {code h result encodes} (hst : porposalRsp s code h result encodes = .ok (s', outs)) :
    Move cfg s (.call (.porposalRsp code h result encodes)) s' outs := by
  unfold porposalRsp at hst
  split at hst
  · obtain ⟨rfl, rfl⟩ := Prod.mk.inj (Except.ok.inj hst)
    exact .quiet (fun h => absurd rfl h) (fun h => absurd rfl h) (fun r p h => by cases h) (by simp [Out.content])
  · rename_i p hp
    obtain ⟨S, hS, hst⟩ := Except.bind_eq_ok.mp hst
    rw [processProposal_eq_ok] at hS
    obtain ⟨rfl, rfl⟩ := Prod.mk.inj (Except.ok.inj hst)
    exact .responded rfl hp hS

theorem onCall_move {c} (hst : onCall cfg s c = .ok (s', outs)) : Move cfg s (.call c) s' outs := by
  cases c with
  | getVbhUser h key sendRet => exact getVbh_move ⟨rfl, rfl, rfl⟩ hst
  | getVbhInformation h key sendRet => exact getVbh_move ⟨rfl, rfl, rfl⟩ hst
  | setVbhUser h key value => exact setVbh_move (w := ⟨.user, h, key, value⟩) (by decide) rfl rfl rfl hst
  | setVbhInformation h key value => exact setVbh_move (w := ⟨.info, h, key, value⟩) (by decide) rfl rfl rfl hst
  | createVbhInformation h key value => exact createVbhInformation_move hst
  | registUserRsp code h allow info => exact registUserRsp_move hst
  | porposalRsp code h result encodes => exact porposalRsp_move hst

theorem onProcReturn_move {pr ret} (hst : onProcReturn s pr ret = .ok (s', outs)) :
    Move cfg s (.procReturn ret) s' outs := by
  have hmap : ∀ {id : UInt32} {i : UInt32} {q : Ptr}, update s.mapProcessProposal id none i = some q →
      s.mapProcessProposal i = some q := by
    intro id i q h
    by_cases hi : i = id
    · subst hi; simp at h
    · simpa [hi] using h
  unfold onProcReturn at hst
  simp only at hst
  split at hst
  · rename_i h0
    obtain ⟨rfl, rfl⟩ := Prod.mk.inj (Except.ok.inj hst)
    exact .returned (by rw [h0])
  · split at hst
    · obtain ⟨S, hS, hst⟩ := Except.bind_eq_ok.mp hst
      obtain ⟨rfl, rfl⟩ := Prod.mk.inj (Except.ok.inj hst)
      exact .ended ⟨rfl, rfl, rfl⟩ rfl rfl (fun _ _ h => hmap h) (by simp [Out.content])
    · obtain ⟨S, hS, hst⟩ := Except.bind_eq_ok.mp hst
      obtain ⟨rfl, rfl⟩ := Prod.mk.inj (Except.ok.inj hst)
      exact .ended ⟨rfl, rfl, rfl⟩ rfl rfl (fun _ _ h => hmap h) (by simp [Out.content])

theorem onTimer_move {p} (hst : onTimer s p = .ok (s', outs)) : Move cfg s (.timer p) s' outs := by
  unfold onTimer at hst
  split at hst
  · split at hst
    · cases hst
    · obtain ⟨rfl, rfl⟩ := Prod.mk.inj (Except.ok.inj hst)
      exact .ended ⟨rfl, rfl, rfl⟩ rfl rfl (fun _ _ h => h) (by simp [Out.content])
    · obtain ⟨rfl, rfl⟩ := Prod.mk.inj (Except.ok.inj hst)
      refine .ended ⟨rfl, rfl, rfl⟩ rfl rfl (fun id q h => ?_) (by simp [Out.content])
      simp only [State.free, State.eraseProcessProposal] at h
      split at h
      · cases h
      · exact h
  · obtain ⟨rfl, rfl⟩ := Prod.mk.inj (Except.ok.inj hst)
    exact .quiet (fun h => absurd rfl h) (fun h => absurd rfl h) (fun r p h => by cases h) (by simp)

theorem step_move (h : step cfg s e = .ok (s', outs)) : Move cfg s e s' outs := by
  unfold step at h
  split at h
  · exact onCall_move h
  · exact onProcReturn_move h
  · cases h
  · cases h
  · obtain ⟨rfl, rfl⟩ := Prod.mk.inj (Except.ok.inj h)
    exact .registered rfl
  · obtain ⟨rfl, rfl⟩ := Prod.mk.inj (Except.ok.inj h)
    exact .proposed rfl
  · exact onQueryRsp_move rfl rfl rfl h
  · exact onQueryRsp_move rfl rfl rfl h
  · exact onTimer_move h

end

end VProtocol.Cc
