import VProtocol.Client.Waiting

/-!
# The wish for a notify

A request says whether its sender waits for a notify, and the session that is opened for it
keeps the wish until the submit answer. The register handler writes it into the session;
the propose handler only sends it on, so its session has what was in the memory before.
-/

namespace VProtocol.Client

def Event.wish : Event → Bool
  | .registUserReq req _ _ => req.waitNotify
  | .proposeReq req _ _ => req.waitNotify
  | _ => false

/-- `m_bWaitNotify` of the session that is opened for the request. -/
def Event.kept : Event → Bool
  | .registUserReq req _ _ => req.waitNotify
  | .proposeReq _ _ env => env.raw.waitNotify
  | _ => false

/-- The step sent a request for session `p` to an endorser, under this session id. -/
def Opens (en : Entry State Event Out) (p : Ptr) (id : UInt32) : Prop :=
  ∃ o ∈ en.outs, o.request.map (fun r => (r.2.1, r.2.2.2)) = some (p, id)

instance (en : Entry State Event Out) (p : Ptr) (id : UInt32) : Decidable (Opens en p id) := by
  delta Opens; infer_instance

def Created (s s' : State) (W : SingleSession) : Prop :=
  ∃ q, s.core.waiting q = none ∧ s'.core.waiting q = some W

/-- A wait-notify session is made if it was wished for, with the kind and the address of the request. -/
structure WishCarried (s s' : State) (r : Kind × MsgAddr × UInt32) (id : UInt32) (wish : Bool) : Prop where
  made : (∃ W, Created s s' W) ↔ wish = true
  request : ∀ W, Created s s' W →
    W.kind = .waitNotify r.1 ∧ W.srcMsgAddr = r.2.1 ∧ W.srcSessionID = r.2.2 ∧ W.cltSessionID = id

/-! ## The session that is opened -/

section
variable {cfg : Config} {s s' : State} {e : Event} {outs : List Out} {tr : History} {p : Ptr} {S : EndorseSession}

/-- The wish is in the session before the loop or nowhere: neither the loop nor `fill` writes it. -/
theorem request_kept {rand : Nat} {err : Nat → Bool} {n : Nat} (S₀ : EndorseSession)
    (fill : EndorseSession → EndorseSession) (msg : Bool → EsMsg) (failed : Int → Out)
    (hfill : ∀ S, (fill S).waitNotify = S.waitNotify)
    (h : (do
      let b ← broadcast s.core.next rand err msg n 0 { s with core := s.core.alloc (.endorse S₀) }
      if b.2.2 = okType then
        let s' ← registerSession b.1 s.core.next fill
        .ok (s', b.2.1)
      else .ok (b.1, b.2.1 ++ [failed b.2.2])) = Except.ok (s', outs))
    (hS : s'.core.session s.core.next = some S) : S.waitNotify = S₀.waitNotify := by
  obtain ⟨b, hb, h⟩ := Except.bind_eq_ok.mp h
  rcases broadcast_cases (alloc_heap_next s.core (.endorse S₀)) hb with ⟨hs, conn, links, hps, -, -, -, rfl⟩ |
    ⟨hs, h', conn, links, hps, links', -, -, -, -, -, rfl⟩
  · rw [if_pos rfl] at h
    obtain ⟨s'', hreg, h⟩ := Except.bind_eq_ok.mp h
    obtain ⟨rfl, rfl⟩ := Prod.mk.inj (Except.ok.inj h)
    obtain rfl := registerSession_eq (S := S₀.linked rand 0 hps) (by simp) hreg
    rw [session_eq_some] at hS
    simp only [Core.insertEndorse, Core.setDscTimer, Core.put, Function.update_self, Option.some.injEq,
      Session.endorse.injEq] at hS
    rw [← hS, hfill]
    rfl
  · rw [if_neg (show networkErrorType ≠ okType by decide)] at h
    obtain ⟨rfl, rfl⟩ := Prod.mk.inj (Except.ok.inj h)
    rw [finish_session, if_pos rfl] at hS
    cases hS

theorem opened_kept (hst : step cfg s e = .ok (s', outs)) {r} (he : e.asks = some r)
    (hnew : s.core.heap s.core.next = none)
    (hS : s'.core.session s.core.next = some S) : S.waitNotify = e.kept := by
  have hno : ∀ {o : Out}, (.ok (s, [o]) : Res (State × List Out)) = .ok (s', outs) → False := by
    intro o h
    obtain ⟨rfl, -⟩ := Prod.mk.inj (Except.ok.inj h)
    rw [session_none hnew] at hS
    cases hS
  cases e with
  | registUserReq req src env =>
    simp only [step, onDscMsgRegistUserCltCltReq] at hst
    split at hst
    · exact (hno hst).elim
    · exact request_kept
        { newEndorseSession .regist env.raw with
          srcMsgAddr := src
          srcSessionID := req.srcSessionID
          channelID := req.channelID
          waitNotify := req.waitNotify }
        id
        (fun submitNode => .registUserReq
          { waitNotify := req.waitNotify
            submitNode
            ccID := req.ccID
            cltSessionID := s.core.sessionID
            channelID := req.channelID
            userKey := req.userKey
            userInfo := req.userInfo })
        (fun code => .upper src (.registUserRsp env.raw.allowRegist code req.srcSessionID [] [])) (fun _ => rfl) hst hS
  | proposeReq req src env =>
    simp only [step, onDscMsgProposeCltCltReq] at hst
    split at hst
    · exact (hno hst).elim
    · split at hst
      · exact (hno hst).elim
      · rename_i channelID _
        exact request_kept (newEndorseSession .propose env.raw)
          (fun S => { S with srcMsgAddr := src, srcSessionID := req.srcSessionID })
          (fun submitNode => .submitProposalReq
            { waitNotify := req.waitNotify
              submitNode
              ccID := req.ccID
              channelID
              cltSessionID := s.core.sessionID
              action := req.actionID
              proposal := req.proposal })
          (fun code => .upper src (.proposeRsp code req.srcSessionID [])) (fun _ => rfl) hst hS
  | _ => cases he

/-! ## Until the submit answer -/

/-- The session of a request that was sent has what the request said. -/
structure WishInv (tr : History) (s : State) : Prop where
  opened : ∀ en ∈ tr, ∀ p id, Opens en p id → p < s.core.next
  kept : ∀ p S, s.core.session p = some S → ∀ en ∈ tr, ∀ id, Opens en p id →
    en.ev.asks = some S.tag ∧ S.cltSessionID = id ∧ S.waitNotify = en.ev.kept

theorem opens_new (hm : Move cfg s e s' outs) {id} (h : Opens ⟨s, e, outs⟩ p id) :
    p = s.core.next ∧ s'.core.next = s.core.next + 1 ∧ id = s.core.sessionID ∧ ∃ r, e.asks = some r := by
  obtain ⟨o, ho, hr⟩ := h
  obtain ⟨⟨hd, q, k, i⟩, hreq, heq⟩ := Option.map_eq_some_iff.mp hr
  obtain ⟨rfl, rfl⟩ := Prod.mk.inj heq
  have hs : Sent ([] ++ [⟨s, e, outs⟩]) hd q k i := ⟨_, by simp, o, ho, hreq⟩
  rcases sent_append hm hs with ⟨en, hen, -⟩ | ⟨hp, hn, hid, r, he, -⟩
  · cases hen
  · exact ⟨hp, hn, hid, r, he⟩

theorem run_wishInv (h : Run (step cfg) {} anyStep tr s) : WishInv tr s := by
  apply h.invariant WishInv
  · exact ⟨nofun, fun _ _ _ => nofun⟩
  intro tr s e s' outs hr ih _ hst
  have hi := run_coreInv hr
  have hm := run_move hr hst
  refine ⟨fun en hen p id ho => ?_, fun p S hS en hen id ho => ?_⟩
  · rcases List.mem_append.mp hen with hen | hen
    · exact Nat.lt_of_lt_of_le (ih.opened en hen p id ho) hm.next_le
    · obtain rfl := List.mem_singleton.mp hen
      obtain ⟨rfl, hn, -⟩ := opens_new hm ho
      rw [hn]
      exact Nat.lt_succ_self _
  · rcases hm.session hi hS with ⟨hold, -⟩ | ⟨rfl, he, hid, -⟩ | ⟨a, T, hd, cs, ha, -, hT, -, -, rfl⟩
    · rcases List.mem_append.mp hen with hen | hen
      · exact ih.kept p S hold en hen id ho
      · obtain rfl := List.mem_singleton.mp hen
        obtain ⟨rfl, -⟩ := opens_new hm ho
        exact absurd (hi.fresh _ _ (session_eq_some.mp hold)) (Nat.lt_irrefl _)
    · rcases List.mem_append.mp hen with hen | hen
      · exact absurd (ih.opened en hen _ id ho) (Nat.lt_irrefl _)
      · obtain rfl := List.mem_singleton.mp hen
        obtain ⟨-, -, hid', -⟩ := opens_new hm ho
        exact ⟨he, hid.trans hid'.symm, opened_kept hst he hi.heap_next hS⟩
    · rcases List.mem_append.mp hen with hen | hen
      · exact ih.kept p T hT en hen id ho
      · obtain rfl := List.mem_singleton.mp hen
        obtain ⟨-, -, -, r, he⟩ := opens_new hm ho
        rw [asks_of_answer ha] at he
        cases he

/-! ## The submit answer -/

theorem not_created_of_same (hs : WaitsSame s.core s'.core) (W : SingleSession) : ¬Created s s' W := by
  intro ⟨q, hno, hW⟩
  rw [hs.waiting, hno] at hW
  cases hW

theorem created_iff {hp : HPtr} (hi : CoreInv s.core) (hs : WaitsSame (s.core.openSingle (S.waitSession hp)) s'.core)
    (W : SingleSession) : Created s s' W ↔ W = S.waitSession hp := by
  refine ⟨fun ⟨q, hno, hW⟩ => ?_, fun hW => ?_⟩
  · rw [hs.waiting, waiting_openSingle] at hW
    split at hW
    · exact (Option.some.inj hW).symm
    · rw [hno] at hW
      cases hW
  · refine ⟨s.core.next, waiting_none hi.heap_next, ?_⟩
    rw [hs.waiting, waiting_openSingle, if_pos rfl, hW]

theorem created_kept (h : Run (step cfg) {} anyStep tr s) {en : Entry State Event Out} (hen : en ∈ tr) {id : UInt32}
    (ho : Opens en p id) {r} (hr : en.ev.asks = some r) {k id' hd} (he : e.submitRsp = some (k, id', hd, okType))
    (hm : s.core.mapEndorse k id' = some p) (hst : step cfg s e = .ok (s', outs)) :
    ((∃ W, Created s s' W) ↔ en.ev.kept = true) ∧ ∀ W, Created s s' W →
      W.kind = .waitNotify r.1 ∧ W.srcMsgAddr = r.2.1 ∧ W.srcSessionID = r.2.2 ∧ W.cltSessionID = id := by
  have hi := run_coreInv h
  obtain ⟨S, hS, -⟩ := hi.endorse _ _ _ hm
  obtain ⟨htag, hid, hkept⟩ := (run_wishInv h).kept p S (session_eq_some.mpr hS) en hen id ho
  obtain rfl := Option.some.inj (hr.symm.trans htag)
  rw [← hkept]
  cases step_notify hi hst with
  | same hsp hs =>
    have hno := not_created_of_same hs
    refine ⟨⟨fun ⟨W, hW⟩ => absurd hW (hno W), fun hwait => ?_⟩, fun W hW => absurd hW (hno W)⟩
    rw [hsp.submit k id' hd p S he hm hS] at hwait
    cases hwait
  | notified he' => rw [he'] at he; cases he
  | fired he' => rw [he'] at he; cases he
  | @created k₁ id₁ h₁ p₁ S₁ hp he₁ hm₁ hS₁ hwait _ hs =>
    simp only [he₁, Option.some.injEq, Prod.mk.injEq] at he
    obtain ⟨rfl, rfl, -⟩ := he
    obtain rfl := Option.some.inj (hm.symm.trans hm₁)
    obtain rfl := Session.endorse.inj (Option.some.inj (hS.symm.trans hS₁))
    have hcreated := created_iff hi hs
    refine ⟨⟨fun _ => hwait, fun _ => ⟨_, (hcreated _).mpr rfl⟩⟩, fun W hW => ?_⟩
    rw [(hcreated W).mp hW]
    exact ⟨rfl, rfl, rfl, hid⟩

/-- The wish of a request comes through exactly when its session was given it. -/
theorem wish_carried_iff (h : Run (step cfg) {} anyStep tr s) {en : Entry State Event Out} (hen : en ∈ tr) {id : UInt32}
    (ho : Opens en p id) {r} (hr : en.ev.asks = some r) {k id' hd} (he : e.submitRsp = some (k, id', hd, okType))
    (hm : s.core.mapEndorse k id' = some p) (hst : step cfg s e = .ok (s', outs)) :
    WishCarried s s' r id en.ev.wish ↔ en.ev.kept = en.ev.wish := by
  obtain ⟨hmade, hreq⟩ := created_kept h hen ho hr he hm hst
  refine ⟨fun hc => Bool.eq_iff_iff.mpr (hmade.symm.trans hc.made), fun hw => ⟨?_, hreq⟩⟩
  rw [← hw]
  exact hmade

end

/-! ## A propose request -/

/-- A propose request wishes for a notify, and its submit answer makes no session that waits for one. -/
theorem wish_lost : ¬∀ (cfg : Config) (tr : History) (s s' : State) (e : Event) (outs : List Out)
    (en : Entry State Event Out) (p : Ptr) (id id' : UInt32) (r : Kind × MsgAddr × UInt32) (k : Kind) (hd : McpHandler),
    Run (step cfg) {} anyStep tr s → en ∈ tr → Opens en p id → en.ev.asks = some r →
      e.submitRsp = some (k, id', hd, okType) → s.core.mapEndorse k id' = some p → step cfg s e = .ok (s', outs) →
      WishCarried s s' r id en.ev.wish := by
  intro hall
  let evs := connectBoth ++ [.proposeReq ⟨true, 3, 8, 1, [1], [2]⟩ 5 {}, proposeOk firstPeer 0 90 [4] {},
    proposeOk secondPeer 0 91 [4] {}, .submitProposalTransRsp ⟨okType, 0, ⟨1, 2, 3, 4⟩⟩ firstPeer]
  obtain ⟨en', hsplit, -, hen'⟩ := split_map (trace (step twoPeers) {} evs) 5
    (fun en => (en.ev.submitRsp, en.pre.core.mapEndorse .propose 0)) (some (.propose, 0, firstPeer, okType), some 0) rfl
  obtain ⟨en, -, hsub, hen⟩ := split_map ((trace (step twoPeers) {} evs).take 5) 2
    (fun en => (decide (Opens en 0 0), en.ev.asks, en.ev.wish, en.ev.kept)) (true, some (.propose, 5, 1), true, false) rfl
  obtain ⟨hsubmit, hmap⟩ := Prod.mk.inj hen'
  simp only [Prod.mk.injEq, decide_eq_true_eq] at hen
  obtain ⟨ho, hask, hwish, hkept⟩ := hen
  have hmem := hsub (List.mem_append_right _ (List.mem_singleton_self en))
  obtain ⟨s', hr, -, hst⟩ := (run_trace_any evs).entry hsplit
  have hc := hall _ _ _ _ _ _ _ _ _ _ _ _ _ hr hmem ho hask hsubmit hmap hst
  have hboth := (created_kept hr hmem ho hask hsubmit hmap hst).1.mp (hc.made.mpr hwish)
  rw [hkept] at hboth
  cases hboth

theorem wish_carried_two : ∃ tr s s' W, Run (step twoPeers) {} anyStep tr s ∧ WishCarried s s' (.regist, 5, 1) 0 true ∧
    Created s s' W := by
  let evs := connectBoth ++ [.registUserReq ⟨true, 3, 7, 1, [1], [2]⟩ 5 {}, registOk firstPeer 0 90 [4] {},
    registOk secondPeer 0 91 [4] {}, .submitRegistRsp ⟨okType, 0, ⟨1, 2, 3⟩, [], [], []⟩ firstPeer]
  obtain ⟨en', hsplit, -, hen'⟩ := split_map (trace (step twoPeers) {} evs) 5
    (fun en => (en.ev.submitRsp, en.pre.core.mapEndorse .regist 0)) (some (.regist, 0, firstPeer, okType), some 0) rfl
  obtain ⟨en, -, hsub, hen⟩ := split_map ((trace (step twoPeers) {} evs).take 5) 2
    (fun en => (decide (Opens en 0 0), en.ev.asks, en.ev.wish, en.ev.kept)) (true, some (.regist, 5, 1), true, true) rfl
  obtain ⟨hsubmit, hmap⟩ := Prod.mk.inj hen'
  simp only [Prod.mk.injEq, decide_eq_true_eq] at hen
  obtain ⟨ho, hask, hwish, hkept⟩ := hen
  have hmem := hsub (List.mem_append_right _ (List.mem_singleton_self en))
  obtain ⟨s', hr, -, hst⟩ := (run_trace_any evs).entry hsplit
  have hc := (wish_carried_iff hr hmem ho hask hsubmit hmap hst).mpr (hkept.trans hwish.symm)
  rw [hwish] at hc
  obtain ⟨W, hW⟩ := hc.made.mpr rfl
  exact ⟨_, _, s', W, hr, hc, hW⟩

end VProtocol.Client
