import VProtocol.Idc.Answers

/-!
# The end of a request

An answer of the ledger frees the session that it is for and takes it out of the map, and leaves its
timer set; a timer frees its session and leaves it in the map. Either way something points to
a session that is gone. An answer of the wrong kind is the only thing that does no harm: it takes
the session out of the map, so that the timer ends it.
-/

namespace VProtocol.Idc

open Crypt (DscBlob emptyBlob)
open Function (update)

/-! ## The property -/

def Out.answers (p : Ptr) : Out → Bool
  | .hts q _ _ => q == p
  | .registUser _ _ => false
  | .queryUserInfo _ _ => false

/-- How often the request of session `p` was answered. -/
def answered (tr : History) (p : Ptr) : Nat := (tr.flatMap (·.outs)).countP (Out.answers p)

structure EndsOnce (cfg : Config) (tr : History) (s : State) : Prop where
  once : ∀ p, answered tr p ≤ 1
  freed : ∀ p, 1 ≤ answered tr p → s.heap p = none
  gone : ∀ p, s.heap p = none → (∀ id, s.mapReqSession id ≠ some p) ∧ s.armed p = false
  -- a session that is not freed is freed by its timer at the latest
  pending : ∀ p S, s.heap p = some S → s.armed p = true
  -- no session is freed twice, or read when it is freed
  untouched : ∀ e, step cfg s e ≠ .error .dangling
  -- an answer that comes too late changes nothing
  late : ∀ rsp rsp' env, rsp.srcSessionID = rsp'.srcSessionID → (∀ p S, ¬s.Finds rsp.srcSessionID p S) →
    step cfg s (.registUserRsp rsp) = .ok (s, []) ∧ step cfg s (.queryUserInfoRsp rsp' env) = .ok (s, [])

/-- No answer ends the session that it finds, and no timer ends a session that is in the map. -/
def Spares (s : State) : Event → Prop
  | .commonReq _ _ _ => True
  | .registUserRsp rsp => ∀ p ∈ s.mapReqSession rsp.srcSessionID, ∀ S ∈ s.heap p, S.detail.type ≠ registerUserMsg
  | .queryUserInfoRsp rsp _ => ∀ p ∈ s.mapReqSession rsp.srcSessionID, ∀ S ∈ s.heap p, S.detail.type = registerUserMsg
  | .timer p => s.armed p = true → ∀ S ∈ s.heap p, s.mapReqSession S.reqID ≠ some p

section
variable {cfg : Config} {s s' : State} {e : Event} {outs : List Out} {tr : History} {p q : Ptr} {S : Session}
  {code type id : UInt32} {data key : DscBlob}

/-! ## Answers -/

theorem answered_snoc {en : Entry State Event Out} :
    answered (tr ++ [en]) p = answered tr p + en.outs.countP (Out.answers p) := by
  simp [answered]

theorem countP_reply : (reply cfg code type data key q S).countP (Out.answers p) ≤ if p = q then 1 else 0 := by
  unfold reply
  cases sendClientMsg cfg code type data key S with
  | none => simp
  | some r =>
    by_cases h : p = q
    · simp [h, Out.answers]
    · simp [Out.answers, h, Ne.symm h]

theorem countP_reply_ne (h : p ≠ q) : (reply cfg code type data key q S).countP (Out.answers p) = 0 := by
  exact Nat.le_zero.mp (countP_reply.trans_eq (if_neg h))

theorem countP_opens {req : CommonCltSrvReq} {handleID : UInt32} {o : Out} (h : Opens cfg s req handleID S o) :
    [o].countP (Out.answers p) = 0 := by
  cases h with
  | register hkey htype hreq => rfl
  | login hkey htype hreq => rfl
  | query hkey htype hreq hC htoken => rfl

theorem loginSession_error {rsp : QueryUserInfoCltCltRsp} {env : AnswerEnv} {m : UInt32 → Option ClientSession} :
    loginSession rsp env m ≠ .error .dangling := by
  unfold loginSession newClientSession
  by_cases hok : rsp.returnCode = 0
  · rw [if_pos hok]
    by_cases hmem : env.memory = true
    · rw [if_pos hmem]
      cases newSessionId m UInt32.size (shiftOr env.id1 env.id2) with
      | none => simp
      | some id => simp
    · rw [if_neg hmem]
      simp
  · rw [if_neg hok]
    simp

theorem onRegistUserRsp_dangling {rsp : RegistUserCltCltRsp} (h : onRegistUserRsp cfg rsp s = .error .dangling) :
    ∃ id p, s.mapReqSession id = some p ∧ s.heap p = none := by
  unfold onRegistUserRsp at h
  cases hp : s.mapReqSession rsp.srcSessionID with
  | none =>
    simp only [hp] at h
    cases h
  | some p =>
    cases hS : s.heap p with
    | none => exact ⟨_, p, hp, hS⟩
    | some S =>
      simp only [hp, hS] at h
      split at h
      · cases h
      · cases h
      · cases h

theorem onLoginRsp_dangling {rsp : QueryUserInfoCltCltRsp} {key : DscBlob} {env : AnswerEnv} :
    onLoginRsp cfg rsp key p S env s ≠ .error .dangling := by
  intro h
  unfold onLoginRsp at h
  cases hC : loginSession rsp env s.mapClientSession with
  | error f =>
    simp only [hC] at h
    rw [Except.error.inj h] at hC
    exact loginSession_error hC
  | ok r =>
    simp only [hC] at h
    cases r with
    | none => cases h
    | some C => cases h

theorem onQueryUserInfoRsp_dangling {rsp : QueryUserInfoCltCltRsp} {env : AnswerEnv}
    (h : onQueryUserInfoRsp cfg rsp env s = .error .dangling) : ∃ id p, s.mapReqSession id = some p ∧ s.heap p = none := by
  unfold onQueryUserInfoRsp at h
  cases hp : s.mapReqSession rsp.srcSessionID with
  | none =>
    simp only [hp] at h
    cases h
  | some p =>
    cases hS : s.heap p with
    | none => exact ⟨_, p, hp, hS⟩
    | some S =>
      simp only [hp, hS] at h
      split at h
      · cases h
      · exact absurd h onLoginRsp_dangling
      · cases h

/-- Only a pointer to a session that is gone makes a step fail so. -/
theorem dangling_cases (h : step cfg s e = .error .dangling) :
    (∃ id p, s.mapReqSession id = some p ∧ s.heap p = none) ∨ ∃ p, s.armed p = true ∧ s.heap p = none := by
  cases e with
  | commonReq req handleID raw => cases h
  | registUserRsp rsp => exact .inl (onRegistUserRsp_dangling h)
  | queryUserInfoRsp rsp env => exact .inl (onQueryUserInfoRsp_dangling h)
  | timer p =>
    cases harmed : s.armed p with
    | false =>
      simp only [step, harmed] at h
      cases h
    | true =>
      cases hS : s.heap p with
      | none => exact .inr ⟨p, harmed, hS⟩
      | some S =>
        simp only [step, harmed, if_true, onSessionTimeOut, hS] at h
        cases h

theorem EndsOnce.of_gone (hanswered : ∀ p, answered tr p ≤ 1) (hfreed : ∀ p, 1 ≤ answered tr p → s.heap p = none)
    (hgone : ∀ p, s.heap p = none → (∀ id, s.mapReqSession id ≠ some p) ∧ s.armed p = false)
    (hpending : ∀ p S, s.heap p = some S → s.armed p = true) : EndsOnce cfg tr s := by
  refine ⟨hanswered, hfreed, hgone, hpending, fun e he => ?_, fun rsp rsp' env hid hno => ?_⟩
  · rcases dangling_cases he with ⟨id, p, hp, hS⟩ | ⟨p, harmed, hS⟩
    · exact (hgone p hS).1 id hp
    · rw [(hgone p hS).2] at harmed
      cases harmed
  · have hnone : s.mapReqSession rsp.srcSessionID = none := by
      cases hp : s.mapReqSession rsp.srcSessionID with
      | none => rfl
      | some p =>
        cases hS : s.heap p with
        | none => exact absurd hp ((hgone p hS).1 _)
        | some S => exact absurd ⟨hp, hS⟩ (hno p S)
    constructor
    · simp only [step, onRegistUserRsp, hnone]
    · rw [hid] at hnone
      simp only [step, onQueryUserInfoRsp, hnone]

/-! ## One step -/

theorem EndsOnce.not_ended (hs : EndsOnce cfg tr s) (hS : s.heap p = some S) (hheap : s'.heap p = none)
    (harmed : s'.armed = s.armed) : ¬EndsOnce cfg (tr ++ [⟨s, e, outs⟩]) s' := by
  intro h
  have hoff := (h.gone p hheap).2
  rw [harmed, hs.pending p S hS] at hoff
  cases hoff

theorem EndsOnce.quiet (hs : EndsOnce cfg tr s) (houts : outs = []) (hheap : s'.heap = s.heap)
    (harmed : s'.armed = s.armed) (hmap : ∀ id p, s'.mapReqSession id = some p → s.mapReqSession id = some p) :
    EndsOnce cfg (tr ++ [⟨s, e, outs⟩]) s' := by
  have hsame : ∀ p, answered (tr ++ [⟨s, e, outs⟩]) p = answered tr p := by
    intro p
    rw [answered_snoc, houts]
    rfl
  apply EndsOnce.of_gone
  · intro p
    rw [hsame]
    exact hs.once p
  · intro p hp
    rw [hsame] at hp
    rw [hheap]
    exact hs.freed p hp
  · intro p hp
    rw [hheap] at hp
    obtain ⟨hno, hoff⟩ := hs.gone p hp
    rw [harmed]
    exact ⟨fun id h => hno id (hmap id p h), hoff⟩
  · intro p S hS
    rw [hheap] at hS
    rw [harmed]
    exact hs.pending p S hS

theorem EndsOnce.opened {req : CommonCltSrvReq} {handleID : UInt32} {raw : Int} {o : Out} (hs : EndsOnce cfg tr s)
    (hnew : answered tr s.next = 0) (h : Opens cfg s req handleID S o) :
    EndsOnce cfg (tr ++ [⟨s, .commonReq req handleID raw, [o]⟩]) (s.insertReq S) := by
  have hsame : ∀ p, answered (tr ++ [⟨s, .commonReq req handleID raw, [o]⟩]) p = answered tr p := by
    intro p
    rw [answered_snoc, countP_opens h]
    rfl
  apply EndsOnce.of_gone
  · intro p
    rw [hsame]
    exact hs.once p
  · intro p hp
    rw [hsame] at hp
    have hne : p ≠ s.next := by
      rintro rfl
      omega
    simpa [State.insertReq, hne] using hs.freed p hp
  · intro p hp
    by_cases hne : p = s.next
    · simp [State.insertReq, hne] at hp
    · simp only [State.insertReq, Function.update_of_ne hne] at hp ⊢
      obtain ⟨hno, hoff⟩ := hs.gone p hp
      refine ⟨fun id => ?_, hoff⟩
      by_cases hid : id = s.reqId
      · simp [hid, Ne.symm hne]
      · simpa [hid] using hno id
  · intro p S' hS'
    by_cases hne : p = s.next
    · simp [State.insertReq, hne]
    · simp only [State.insertReq, Function.update_of_ne hne] at hS' ⊢
      exact hs.pending p S' hS'

theorem EndsOnce.timedOut (hs : EndsOnce cfg tr s) (hS : s.heap p = some S) :
    EndsOnce cfg (tr ++ [⟨s, e, reply cfg code type data key p S⟩])
        ({ s with armed := update s.armed p false }.free p) ↔
      ∀ id, s.mapReqSession id ≠ some p := by
  constructor
  · intro h
    exact (h.gone p (Function.update_self ..)).1
  · intro hmap
    have hzero : answered tr p = 0 := by
      by_contra hne
      have hnone := hs.freed p (Nat.one_le_iff_ne_zero.mpr hne)
      rw [hS] at hnone
      cases hnone
    apply EndsOnce.of_gone
    · intro q
      rw [answered_snoc]
      by_cases hq : q = p
      · subst hq
        rw [hzero, Nat.zero_add]
        exact countP_reply.trans_eq (if_pos rfl)
      · simp only [countP_reply_ne hq, Nat.add_zero]
        exact hs.once q
    · intro q hq
      by_cases hqp : q = p
      · subst hqp
        exact Function.update_self ..
      · rw [answered_snoc] at hq
        simp only [countP_reply_ne hqp, Nat.add_zero] at hq
        exact (Function.update_of_ne hqp ..).trans (hs.freed q hq)
    · intro q hq
      by_cases hqp : q = p
      · subst hqp
        exact ⟨hmap, Function.update_self ..⟩
      · simp only [State.free, Function.update_of_ne hqp] at hq ⊢
        exact hs.gone q hq
    · intro q S' hS'
      by_cases hqp : q = p
      · simp [State.free, hqp] at hS'
      · simp only [State.free, Function.update_of_ne hqp] at hS' ⊢
        exact hs.pending q S' hS'

theorem spares_found {rsp : QueryUserInfoCltCltRsp} {env : AnswerEnv} (hf : s.Finds rsp.srcSessionID p S) :
    Spares s (.queryUserInfoRsp rsp env) ↔ S.detail.type = registerUserMsg := by
  simp [Spares, hf.1, hf.2]

theorem endsOnce_iff (ht : Traced cfg tr s) (hs : EndsOnce cfg tr s) (hnew : answered tr s.next = 0)
    (h : Turn cfg s e s' outs) :
    EndsOnce cfg (tr ++ [⟨s, e, outs⟩]) s' ↔ Spares s e := by
  cases h with
  | refused => exact iff_of_true (hs.quiet rfl rfl rfl fun _ _ h => h) trivial
  | opened h => exact iff_of_true (hs.opened hnew h) trivial
  | strayRegist h => exact iff_of_true (hs.quiet rfl rfl rfl fun _ _ h => h) (by simp [Spares, h])
  | strayQuery h => exact iff_of_true (hs.quiet rfl rfl rfl fun _ _ h => h) (by simp [Spares, h])
  | @crossRegist rsp p S hf hk =>
    refine iff_of_true (hs.quiet rfl rfl rfl (shrinks_erase _).map) ?_
    cases hd : S.detail with
    | register uid => exact absurd hd (hk uid)
    | login uid key => simp [Spares, hf.1, hf.2, hd, Detail.type, loginMsg, registerUserMsg]
    | query => simp [Spares, hf.1, hf.2, hd, Detail.type, queryUserInfoMsg, registerUserMsg]
  | crossQuery hf hk =>
    refine iff_of_true (hs.quiet rfl rfl rfl (shrinks_erase _).map) ?_
    rw [spares_found hf, hk]
    rfl
  | registered hf hk =>
    refine iff_of_false (hs.not_ended hf.2 (Function.update_self ..) rfl) ?_
    simp [Spares, hf.1, hf.2, hk, Detail.type]
  | loggedIn hf hk hC =>
    refine iff_of_false (hs.not_ended hf.2 (Function.update_self ..) rfl) ?_
    simp [spares_found hf, hk, Detail.type, loginMsg, registerUserMsg]
  | loginFailed hf hk hC =>
    refine iff_of_false (hs.not_ended hf.2 (Function.update_self ..) rfl) ?_
    simp [spares_found hf, hk, Detail.type, loginMsg, registerUserMsg]
  | queryLost hf hk hC =>
    refine iff_of_false (hs.not_ended hf.2 (Function.update_self ..) rfl) ?_
    rw [spares_found hf, hk]
    decide
  | queried hf hk hC hok =>
    refine iff_of_false (hs.not_ended hf.2 (Function.update_self ..) rfl) ?_
    rw [spares_found hf, hk]
    decide
  | queryFailed hf hk hC hno =>
    refine iff_of_false (hs.not_ended hf.2 (Function.update_self ..) rfl) ?_
    rw [spares_found hf, hk]
    decide
  | late h => exact iff_of_true (hs.quiet rfl rfl rfl fun _ _ h => h) (by simp [Spares, h])
  | @timedOut p S harmed hS =>
    have hid : (∀ id, s.mapReqSession id ≠ some p) ↔ s.mapReqSession S.reqID ≠ some p := by
      refine ⟨fun h => h S.reqID, fun h id hp => h ?_⟩
      rw [ht.filed id p S ⟨hp, hS⟩]
      exact hp
    rw [hs.timedOut hS, hid]
    simp [Spares, harmed, hS]

/-! ## Runs -/

theorem Turn.replies (h : Turn cfg s e s' outs) (hp : s.heap p = none) : outs.countP (Out.answers p) = 0 := by
  have hne : ∀ {q S}, s.heap q = some S → p ≠ q := by
    rintro q S hS rfl
    rw [hp] at hS
    cases hS
  cases h with
  | opened h => exact countP_opens h
  | registered hf hk => exact countP_reply_ne (hne hf.2)
  | loggedIn hf hk hC => exact countP_reply_ne (hne hf.2)
  | loginFailed hf hk hC => exact countP_reply_ne (hne hf.2)
  | queried hf hk hC hok => exact countP_reply_ne (hne hf.2)
  | queryFailed hf hk hC hno => exact countP_reply_ne (hne hf.2)
  | timedOut h hS => exact countP_reply_ne (hne hS)
  | refused => rfl
  | strayRegist h => rfl
  | strayQuery h => rfl
  | crossRegist hf hk => rfl
  | crossQuery hf hk => rfl
  | queryLost hf hk hC => rfl
  | late h => rfl

theorem Turn.next_le (h : Turn cfg s e s' outs) : s.next ≤ s'.next := by
  rcases h.shrinks with hsh | ⟨req, handleID, raw, S, o, -, -, rfl, -⟩
  · exact hsh.next.ge
  · exact Nat.le_succ _

theorem answered_new {C : History → State → Event → Prop} {m : UInt32 → Option ClientSession}
    (hr : Run (step cfg) (start m) C tr s) : ∀ p, s.next ≤ p → answered tr p = 0 := by
  refine hr.invariant (fun tr s => ∀ p, s.next ≤ p → answered tr p = 0) (fun _ _ => rfl) ?_
  intro tr s e s' outs hr ih _ hst p hp
  have hturn := step_turn hst
  have hle := hturn.next_le.trans hp
  have hnone : s.heap p = none := by
    cases hS : s.heap p with
    | none => rfl
    | some S => exact absurd ((Traced.of_run hr).lt p S hS) (Nat.not_lt.mpr hle)
  rw [answered_snoc, ih p hle, hturn.replies hnone]

/-- At every point of a run each request has ended once at most, and what has ended is gone, exactly
when each step of the run spares the sessions. -/
theorem ends_once_iff {m : UInt32 → Option ClientSession} (hr : Run (step cfg) (start m) anyStep tr s) :
    Always (EndsOnce cfg) tr s ↔ Each (fun _ s e => Spares s e) tr := by
  have h₀ : EndsOnce cfg [] (start m) := by
    apply EndsOnce.of_gone
    · exact fun _ => Nat.zero_le 1
    · intro p hp
      cases hp
    · exact fun p _ => ⟨fun id => nofun, rfl⟩
    · intro p S hS
      cases hS
  exact hr.always_iff h₀ fun _ _ _ _ _ hr _ hs _ hst => endsOnce_iff (Traced.of_run hr) hs
    (answered_new hr _ (le_refl _)) (step_turn hst)

end

/-! ## A registration -/

section

/-- The ledger's answer is for a query, and the timer ends the registration. -/
def spared : List Event :=
  [.commonReq registerReq 1 0, .queryUserInfoRsp ⟨0, 0, emptyBlob⟩ (anEnv 1), .timer 0]

instance (s : State) (e : Event) : Decidable (Spares s e) :=
  match e with
  | .commonReq _ _ _ => isTrue trivial
  | .registUserRsp _ => inferInstanceAs (Decidable (∀ p ∈ _, ∀ S ∈ _, _ ≠ _))
  | .queryUserInfoRsp _ _ => inferInstanceAs (Decidable (∀ p ∈ _, ∀ S ∈ _, _ = _))
  | .timer _ => inferInstanceAs (Decidable (_ = true → ∀ S ∈ _, _ ≠ _))

theorem ends_once_spared : Always (EndsOnce tagged) (trace (step tagged) (start fun _ => none) spared)
    (final (step tagged) (start fun _ => none) spared) := by
  have hspares : Run (step tagged) (start fun _ => none) (fun _ s e => Spares s e) _ _ :=
    run_of_meets _ _ _ spared (by decide)
  exact (ends_once_iff (run_trace_any spared)).mpr hspares.each

/-- The answer to a registration frees the session, and its timer is still set. -/
theorem timer_left : ¬∀ (cfg : Config) (m : UInt32 → Option ClientSession) (tr : History) (s : State),
    Run (step cfg) (start m) anyStep tr s → EndsOnce cfg tr s := by
  intro hall
  have hr : Run (step tagged) (start fun _ => none) anyStep _ _ :=
    run_trace_any [.commonReq registerReq 1 0, .registUserRsp ⟨0, 0, blobOf [9]⟩]
  have hgone := (hall tagged _ _ _ hr).gone 0 (by decide)
  exact absurd hgone.2 (by decide)

end

end VProtocol.Idc
