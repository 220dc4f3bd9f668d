import VProtocol.Cc.Lookup

/-!
# Calls that fail

A call of the chaincode that fails leaves the lists of its session as they are, and can be made
again. The lookups are the exception: a key is put into the list before its query is sent, so
a lookup whose send has failed finds the key there the next time, and nothing is sent.
-/

namespace VProtocol.Cc

/-! ## The property -/

/-- The calls that read and write the lists of a session. -/
def Call.ofVbh : Call → Bool
  | .getVbhUser _ _ _ => true
  | .setVbhUser _ _ _ => true
  | .getVbhInformation _ _ _ => true
  | .setVbhInformation _ _ _ => true
  | .createVbhInformation _ _ _ => true
  | .registUserRsp _ _ _ _ => false
  | .porposalRsp _ _ _ _ => false

/-- The same call, where a send has the result `sendRet`. -/
def Call.again (sendRet : Int) : Call → Call
  | .getVbhUser h key _ => .getVbhUser h key sendRet
  | .getVbhInformation h key _ => .getVbhInformation h key sendRet
  | c => c

def Event.sendRet : Event → Int
  | .call (.getVbhUser _ _ sendRet) => sendRet
  | .call (.getVbhInformation _ _ sendRet) => sendRet
  | _ => 0

/-- The sessions are as before, and the call does what it would have done before. -/
structure Unchanged (cfg : Config) (s : State) (c : Call) (s' : State) : Prop where
  lists : ∀ p, s'.session p = s.session p
  again : ∀ sendRet, (onCall cfg s' (c.again sendRet)).map Prod.snd = (onCall cfg s (c.again sendRet)).map Prod.snd

def FailureKeeps (cfg : Config) (en : Entry State Event Out) : Prop :=
  ∀ c s' code, en.ev = .call c → c.ofVbh = true → step cfg en.pre en.ev = .ok (s', en.outs) → .ret code ∈ en.outs →
    code ≠ 0 → Unchanged cfg en.pre c s'

/-- No send of a query fails: it is not reached, or goes out. -/
def SendSucceeds (cfg : Config) (s : State) (e : Event) : Prop :=
  ∀ g ∈ e.gets, e.sendRet = 0 ∨ ∀ p ∈ s.find g.2.1, ∀ S ∈ s.session p,
    g.2.2 ∈ (S.lst g.1).map (·.strKey) ∨ cfg.getXcsAddr S.channelID = none ∨ cfg.decode g.1 g.2.2 = none

section
variable {cfg : Config} {s s' : State} {c : Call} {outs : List Out} {tr : History} {path : Path} {p : Ptr}
  {S : ProcessProposalSession} {id : UInt64} {key value : Blob} {noSession sendRet code : Int} {addr : MsgAddr}
  {genKey : OrderGenerateKey}

/-! ## Each call -/

/-- A lookup gets as far as the send. -/
structure Reaches (cfg : Config) (s : State) (path : Path) (id : UInt64) (key : Blob) (p : Ptr)
    (S : ProcessProposalSession) : Prop where
  find : s.find id = some p
  session : s.session p = some S
  missing : (S.lst path).find? (·.strKey = key) = none
  channel : ∃ addr, cfg.getXcsAddr S.channelID = some addr
  key : ∃ genKey, cfg.decode path key = some genKey

theorem Reaches.called (h : Reaches cfg s path id key p S) (noSession sendRet : Int) : ∃ it outs,
    getVbh cfg s path noSession id key sendRet =
      .ok (s.put p (.processProposal (S.setLst path (S.lst path ++ [it]))), outs ++ [.ret sendRet]) := by
  obtain ⟨addr, haddr⟩ := h.channel
  obtain ⟨genKey, hkey⟩ := h.key
  unfold getVbh
  simp only [h.find, processProposal_eq_ok.mpr h.session, Except.ok_bind, h.missing, haddr, hkey]
  exact ⟨_, _, rfl⟩

/-- After a send that has failed, the lookup finds its key, with no value, and nothing is sent. -/
theorem Reaches.retry (h : Reaches cfg s path id key p S) (it : Item) (hit : it.strKey = key) (noSession sendRet : Int) :
    let s' := s.put p (.processProposal (S.setLst path (S.lst path ++ [it])))
    getVbh cfg s' path noSession id key sendRet = .ok (s', [.up (.onGetVbhRsp path okType id key it.value), .ret 0]) := by
  have hS : (s.put p (.processProposal (S.setLst path (S.lst path ++ [it])))).session p =
      some (S.setLst path (S.lst path ++ [it])) := by
    rw [session_put, if_pos rfl]
  have hfind : (S.lst path ++ [it]).find? (·.strKey = key) = some it := by
    rw [List.find?_append, h.missing]
    simp [hit]
  have hp : (s.put p (.processProposal (S.setLst path (S.lst path ++ [it])))).find id = some p := h.find
  unfold getVbh
  simp only [hp, processProposal_eq_ok.mpr hS, Except.ok_bind, ProcessProposalSession.lst_setLst_self, hfind]

theorem getVbh_failed (h : getVbh cfg s path noSession id key sendRet = .ok (s', outs)) (hret : .ret code ∈ outs)
    (hcode : code ≠ 0) : s' = s ∨ sendRet ≠ 0 ∧ ∃ p S, Reaches cfg s path id key p S := by
  unfold getVbh at h
  cases hp : s.find id with
  | none =>
    simp only [hp] at h
    obtain ⟨rfl, -⟩ := Prod.mk.inj (Except.ok.inj h)
    exact .inl rfl
  | some p =>
    simp only [hp] at h
    obtain ⟨S, hS, h⟩ := Except.bind_eq_ok.mp h
    cases hit : (S.lst path).find? (·.strKey = key) with
    | some it =>
      simp only [hit] at h
      obtain ⟨rfl, -⟩ := Prod.mk.inj (Except.ok.inj h)
      exact .inl rfl
    | none =>
      simp only [hit] at h
      cases haddr : cfg.getXcsAddr S.channelID with
      | none =>
        simp only [haddr] at h
        obtain ⟨rfl, -⟩ := Prod.mk.inj (Except.ok.inj h)
        exact .inl rfl
      | some addr =>
        simp only [haddr] at h
        cases hkey : cfg.decode path key with
        | none =>
          simp only [hkey] at h
          obtain ⟨rfl, -⟩ := Prod.mk.inj (Except.ok.inj h)
          exact .inl rfl
        | some genKey =>
          simp only [hkey] at h
          obtain ⟨-, rfl⟩ := Prod.mk.inj (Except.ok.inj h)
          refine .inr ⟨?_, p, S, hp, processProposal_eq_ok.mp hS, hit, ⟨addr, haddr⟩, genKey, hkey⟩
          rcases List.mem_append.mp hret with hret | hret
          · split at hret
            · cases List.mem_singleton.mp hret
            · cases hret
          · rw [Out.ret.inj (List.mem_singleton.mp hret)] at hcode
            exact hcode

theorem setVbh_failed (h : setVbh s path noSession id key value = .ok (s', outs)) (hret : .ret code ∈ outs)
    (hcode : code ≠ 0) : s' = s := by
  unfold setVbh at h
  cases hp : s.find id with
  | none =>
    simp only [hp] at h
    obtain ⟨rfl, -⟩ := Prod.mk.inj (Except.ok.inj h)
    rfl
  | some p =>
    simp only [hp] at h
    obtain ⟨S, hS, h⟩ := Except.bind_eq_ok.mp h
    cases hit : (S.lst path).find? (·.strKey = key) with
    | none =>
      simp only [hit] at h
      obtain ⟨rfl, -⟩ := Prod.mk.inj (Except.ok.inj h)
      rfl
    | some it =>
      simp only [hit] at h
      obtain ⟨-, rfl⟩ := Prod.mk.inj (Except.ok.inj h)
      exact absurd (Out.ret.inj (List.mem_singleton.mp hret)) hcode

theorem createVbhInformation_failed (h : createVbhInformation s id key value = .ok (s', outs)) (hret : .ret code ∈ outs)
    (hcode : code ≠ 0) : s' = s := by
  unfold createVbhInformation at h
  cases hp : s.find id with
  | none =>
    simp only [hp] at h
    obtain ⟨rfl, -⟩ := Prod.mk.inj (Except.ok.inj h)
    rfl
  | some p =>
    simp only [hp] at h
    obtain ⟨S, hS, h⟩ := Except.bind_eq_ok.mp h
    by_cases hany : S.lstCreatedInfo.any (·.key = key) = true
    · simp only [if_pos hany] at h
      obtain ⟨rfl, -⟩ := Prod.mk.inj (Except.ok.inj h)
      rfl
    · simp only [if_neg hany] at h
      obtain ⟨-, rfl⟩ := Prod.mk.inj (Except.ok.inj h)
      exact absurd (Out.ret.inj (List.mem_singleton.mp hret)) hcode

/-! ## One step -/

theorem onCall_gets (h : (Event.call c).gets = some (path, id, key)) : ∃ noSession, ∀ s,
    onCall cfg s c = getVbh cfg s path noSession id key (Event.call c).sendRet := by
  cases c with
  | getVbhUser h' key' sendRet =>
    obtain ⟨rfl, rfl, rfl⟩ := h
    exact ⟨_, fun s => rfl⟩
  | getVbhInformation h' key' sendRet =>
    obtain ⟨rfl, rfl, rfl⟩ := h
    exact ⟨_, fun s => rfl⟩
  | _ => cases h

theorem missing_iff {l : List Item} : l.find? (·.strKey = key) = none ↔ key ∉ l.map (·.strKey) := by
  refine ⟨find?_key_none, fun hnot => ?_⟩
  rw [← Option.not_isSome_iff_eq_none]
  intro hsome
  obtain ⟨it, hit⟩ := Option.isSome_iff_exists.mp hsome
  obtain ⟨hmem, hkey⟩ := find?_key_some hit
  exact hnot (List.mem_map.mpr ⟨it, hmem, hkey⟩)

theorem sendSucceeds_iff {e : Event} (hg : e.gets = some (path, id, key)) :
    SendSucceeds cfg s e ↔ (e.sendRet ≠ 0 → ¬∃ p S, Reaches cfg s path id key p S) := by
  unfold SendSucceeds
  rw [hg]
  constructor
  · rintro h hsend ⟨p, S, hreach⟩
    obtain ⟨addr, haddr⟩ := hreach.channel
    obtain ⟨genKey, hkey⟩ := hreach.key
    rcases (h _ rfl).resolve_left hsend p hreach.find S hreach.session with hmem | hnone | hnone
    · exact missing_iff.mp hreach.missing hmem
    · cases haddr.symm.trans hnone
    · cases hkey.symm.trans hnone
  · intro h g hmem
    obtain rfl := Option.mem_some_iff.mp hmem
    by_cases hsend : e.sendRet = 0
    · exact .inl hsend
    · refine .inr fun p hp S hS => ?_
      by_contra hno
      rw [not_or, not_or] at hno
      obtain ⟨hmem, haddr, hkey⟩ := hno
      exact h hsend ⟨p, S, hp, hS, missing_iff.mpr hmem, Option.ne_none_iff_exists'.mp haddr,
        Option.ne_none_iff_exists'.mp hkey⟩

theorem Unchanged.refl (cfg : Config) (s : State) (c : Call) : Unchanged cfg s c s := ⟨fun _ => rfl, fun _ => rfl⟩

theorem onCall_failed (hvbh : c.ofVbh = true) (h : onCall cfg s c = .ok (s', outs)) (hret : .ret code ∈ outs)
    (hcode : code ≠ 0) (hsend : SendSucceeds cfg s (.call c)) : s' = s := by
  cases hg : (Event.call c).gets with
  | some g =>
    obtain ⟨path, id, key⟩ := g
    obtain ⟨noSession, hcall⟩ := onCall_gets hg
    rw [hcall] at h
    rcases getVbh_failed h hret hcode with hs | ⟨hfail, hreach⟩
    · exact hs
    · exact absurd hreach ((sendSucceeds_iff hg).mp hsend hfail)
  | none =>
    cases c with
    | getVbhUser => cases hg
    | getVbhInformation => cases hg
    | setVbhUser => exact setVbh_failed h hret hcode
    | setVbhInformation => exact setVbh_failed h hret hcode
    | createVbhInformation => exact createVbhInformation_failed h hret hcode
    | registUserRsp => cases hvbh
    | porposalRsp => cases hvbh

theorem ofVbh_of_gets (hg : (Event.call c).gets = some (path, id, key)) : c.ofVbh = true := by
  cases c with
  | getVbhUser => rfl
  | getVbhInformation => rfl
  | _ => cases hg

theorem failureKeeps_iff {e : Event} (hst : step cfg s e = .ok (s', outs)) :
    FailureKeeps cfg ⟨s, e, outs⟩ ↔ SendSucceeds cfg s e := by
  constructor
  · intro h
    cases hg : e.gets with
    | none =>
      intro g hmem
      rw [hg] at hmem
      cases hmem
    | some g =>
      obtain ⟨path, id, key⟩ := g
      refine (sendSucceeds_iff hg).mpr fun hfail hreach => ?_
      cases e with
      | call c =>
        obtain ⟨p, S, hreach⟩ := hreach
        obtain ⟨noSession, hcall⟩ := onCall_gets hg
        obtain ⟨it, pre, hget⟩ := hreach.called noSession (Event.call c).sendRet
        have hst' : step cfg s (.call c) = .ok (s', outs) := hst
        rw [show step cfg s (.call c) = onCall cfg s c from rfl, hcall, hget] at hst'
        obtain ⟨rfl, rfl⟩ := Prod.mk.inj (Except.ok.inj hst')
        have hlists := (h c _ _ rfl (ofVbh_of_gets hg) hst (List.mem_append_right _ List.mem_cons_self) hfail).lists p
        rw [session_put, if_pos rfl, hreach.session] at hlists
        have hlst := congrArg (ProcessProposalSession.lst · path) (Option.some.inj hlists)
        simp only [ProcessProposalSession.lst_setLst_self] at hlst
        simpa using congrArg List.length hlst
      | _ => cases hg
  · rintro hsend c s'' code rfl hvbh hst' hret hcode
    obtain rfl := onCall_failed hvbh hst' hret hcode hsend
    exact .refl cfg _ c

/-! ## Runs -/

/-- In a run every call that fails keeps the lists exactly when no send of a query fails. -/
theorem failures_keep_iff (hr : Run (step cfg) {} anyStep tr s) :
    (∀ tr₁ en tr₂, tr = tr₁ ++ en :: tr₂ → FailureKeeps cfg en) ↔ Each (fun _ s e => SendSucceeds cfg s e) tr :=
  hr.each_iff (R := fun _ en => FailureKeeps cfg en) fun _ _ _ _ _ _ _ _ hst => failureKeeps_iff hst

end

/-! ## A lookup whose send fails -/

instance (s : State) (e : Event) : Decidable (SendSucceeds oneChannel s e) := by
  delta SendSucceeds
  infer_instance

/-- A key that is not there is set, and looked up. -/
def lookupSent (sendRet : Int) : List Event :=
  propose ++ [.call (.setVbhInformation handle infoKey [2]), .call (.getVbhInformation handle infoKey sendRet)]

theorem failures_keep_two : ∃ tr s, Run (step oneChannel) {} anyStep tr s ∧
    tr.map (·.outs.length) = [1, 0, 1, 2] ∧ ∀ tr₁ en tr₂, tr = tr₁ ++ en :: tr₂ → FailureKeeps oneChannel en := by
  have hr : Run (step oneChannel) {} anyStep _ _ := run_trace_any (lookupSent 0)
  have hsends : Run (step oneChannel) {} (fun _ s e => SendSucceeds oneChannel s e) _ _ :=
    run_of_meets _ _ _ (lookupSent 0) (by decide)
  exact ⟨_, _, hr, by decide, (failures_keep_iff hr).mpr hsends.each⟩

/-- A lookup whose send fails leaves its key in the list. -/
theorem failure_listed : ¬∀ (cfg : Config) (tr : History) (s : State), Run (step cfg) {} anyStep tr s →
    ∀ tr₁ en tr₂, tr = tr₁ ++ en :: tr₂ → FailureKeeps cfg en := by
  intro hall
  have hr : Run (step oneChannel) {} anyStep _ _ := run_trace_any (lookupSent (-1))
  obtain ⟨en, hsplit, -, hno⟩ := split_map (trace (step oneChannel) {} (lookupSent (-1))) 3
    (fun en => decide (SendSucceeds oneChannel en.pre en.ev)) false (by decide)
  obtain ⟨s', -, -, hst⟩ := hr.entry hsplit
  exact of_decide_eq_false hno ((failureKeeps_iff hst).mp (hall _ _ _ hr _ _ _ hsplit))

end VProtocol.Cc
