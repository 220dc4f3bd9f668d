import VProtocol.Client.Listed
import VProtocol.Client.Query

/-!
# Stale ids and missing peers

What the handlers do with an id that is in no map and with a request that finds no
peer. A handler that fails without reading through NULL fails in the arrays of a
session it ends or notes, or at a handle session that is gone.
-/

namespace VProtocol.Client

open PeerTable (Listed)

/-- A handler connects when it is in no entry of the table. -/
def ConnectsOnce (_ : History) (s : State) : Event → Prop
  | .connected h _ _ _ => ∀ P ∈ s.conn.peers, h ∉ P.mcpHandlers
  | _ => True

instance (tr : History) (s : State) : ∀ e, Decidable (ConnectsOnce tr s e)
  | .connected h _ _ _ => inferInstanceAs (Decidable (∀ P ∈ s.conn.peers, h ∉ P.mcpHandlers))
  | .registUserReq _ _ _ => isTrue trivial
  | .proposeReq _ _ _ => isTrue trivial
  | .queryUserReq _ _ _ => isTrue trivial
  | .queryTransReq _ _ _ => isTrue trivial
  | .registUserRsp _ _ _ => isTrue trivial
  | .submitProposalRsp _ _ _ => isTrue trivial
  | .submitRegistRsp _ _ => isTrue trivial
  | .submitProposalTransRsp _ _ => isTrue trivial
  | .transNotify _ _ _ => isTrue trivial
  | .queryUserRsp _ _ => isTrue trivial
  | .queryTransRsp _ _ => isTrue trivial
  | .timer _ => isTrue trivial
  | .networkError _ => isTrue trivial

/-- A request of the upper layer or a message of an endorser. -/
def Event.isMessage : Event → Bool
  | .timer _ => false
  | .connected _ _ _ _ => false
  | .networkError _ => false
  | _ => true

/-- The message names a session that its handler does not find. -/
def Event.unknown (c : Core) : Event → Bool
  | .registUserRsp rsp _ _ => (c.mapEndorse .regist rsp.cltSessionID).isNone
  | .submitProposalRsp rsp _ _ => (c.mapEndorse .propose rsp.cltSessionID).isNone
  | .submitRegistRsp rsp _ => (c.mapEndorse .regist rsp.cltSessionID).isNone
  | .submitProposalTransRsp rsp _ => (c.mapEndorse .propose rsp.cltSessionID).isNone
  | .transNotify k rsp _ => (c.mapSingle (.waitNotify k) rsp.cltSessionID).isNone
  | .queryUserRsp rsp _ => (c.mapSingle .queryUser rsp.sessionID).isNone
  | .queryTransRsp rsp _ => (c.mapSingle .queryTrans rsp.cltSessionID).isNone
  | _ => false

/-- The request cannot be sent for want of a peer: too few are connected for an
endorsement, none for a query that decodes. -/
def Event.wantsPeer (cfg : Config) (conn : PeerConnSummary) : Event → Bool
  | .registUserReq _ _ _ => conn.peers.length < cfg.endorsePeerCount
  | .proposeReq _ _ _ => conn.peers.length < cfg.endorsePeerCount
  | .queryUserReq req _ _ => conn.peers.isEmpty && (cfg.codec.decodeChannelKey req.cryptUserKey).isSome
  | .queryTransReq req _ _ => conn.peers.isEmpty && (cfg.codec.decodeChannel req.cryptUserKey).isSome &&
      (cfg.codec.decodeTransKey req.transKey).isSome
  | _ => false

def Event.refusal (code : Int) : Event → List Out
  | .registUserReq req src env => [.upper src (.registUserRsp env.raw.allowRegist code req.srcSessionID [] [])]
  | .proposeReq req src _ => [.upper src (.proposeRsp code req.srcSessionID [])]
  | .queryUserReq req src _ => [.upper src (.queryUserRsp code req.srcSessionID [])]
  | .queryTransReq req src _ => [.upper src (.queryTransRsp code req.srcSessionID [])]
  | _ => []

/-- The message reads through no NULL pointer; one for an unknown session changes nothing;
a request that finds no peer is answered with a network error. -/
structure Harmless (cfg : Config) (s : State) (e : Event) : Prop where
  null : step cfg s e ≠ .error .nullPtr
  unknown : e.unknown s.core = true → step cfg s e = .ok (s, [])
  unsent : e.wantsPeer cfg s.conn = true → step cfg s e = .ok (s, e.refusal networkErrorType)

/-- It is not a register answer for an unknown session, and where it is a query that finds
no peer, its send to no handler is refused. -/
def Guarded (cfg : Config) (s : State) : Event → Prop
  | .registUserRsp rsp _ _ => s.core.mapEndorse .regist rsp.cltSessionID ≠ none
  | .queryUserReq req src sendErr =>
    (Event.queryUserReq req src sendErr).wantsPeer cfg s.conn = true → sendErr = true
  | .queryTransReq req src sendErr =>
    (Event.queryTransReq req src sendErr).wantsPeer cfg s.conn = true → sendErr = true
  | _ => True

/-! ## The connection table of a run -/

section
variable {cfg : Config} {s s' : State} {e : Event} {outs : List Out} {tr : History}

theorem Table.connects {conn : PeerConnSummary} (h : Table cfg s e conn) : conn = s.conn ∨
    conn = (getMcpHandler s.conn).2 ∨
    (∃ h i j k, e = .connected h i j k ∧ conn = connect s.conn (getPeerID cfg.peers h.handleID) h i j k) ∨
    ∃ h, conn = disconnect s.conn (getPeerID cfg.peers h.handleID) h := by
  cases h with
  | same => exact .inl rfl
  | picked hg => exact .inr (.inl (by rw [hg]))
  | connected he => exact .inr (.inr (.inl ⟨_, _, _, _, he, rfl⟩))
  | disconnected he => exact .inr (.inr (.inr ⟨_, rfl⟩))

theorem listed_picks {lst : PeerList} {live : List McpHandler} : ∀ {n : Nat} {c c' : PeerConnSummary} {hs},
    picks n c = some (hs, c') → Listed lst live c → Listed lst live c' := by
  intro n
  induction n with
  | zero =>
    intro c c' hs h hl
    obtain ⟨-, rfl⟩ := Prod.mk.inj (Option.some.inj h)
    exact hl
  | succ n ih =>
    intro c c' hs h hl
    have hpick := hl.pick
    unfold picks at h
    split at h
    · cases h
    · rename_i h₀ c₁ hg
      rw [hg] at hpick
      split at h
      · cases h
      · rename_i hs₁ c₂ hp
        obtain ⟨-, rfl⟩ := Prod.mk.inj (Option.some.inj h)
        exact ih hp hpick

theorem Move.listed (h : Move cfg s e s' outs) (hc : ConnectsOnce tr s e)
    (hl : ∃ live, Listed cfg.peers live s.conn) : ∃ live, Listed cfg.peers live s'.conn := by
  obtain ⟨live, hl⟩ := hl
  have htable : ∀ {conn}, Table cfg s e conn → ∃ live, Listed cfg.peers live conn := by
    intro conn ht
    rcases ht.connects with rfl | rfl | ⟨h', i, j, k, he, rfl⟩ | ⟨h', rfl⟩
    · exact ⟨live, hl⟩
    · exact ⟨live, hl.pick⟩
    · refine ⟨live ++ [h'], hl.connect (fun hh => ?_) i j k⟩
      subst he
      obtain ⟨P, hP, hid⟩ := List.mem_map.mp (hl.peer h' hh)
      exact hc P hP ((hl.handler P hP h').mpr ⟨hh, hid.symm⟩)
    · exact ⟨_, hl.disconnect⟩
  cases h with
  | aside _ _ _ h =>
    cases h with
    | quiet ht => exact htable ht
    | refused ht => exact htable ht
    | queried _ hg => exact htable (.picked hg)
    | fired => exact ⟨live, hl⟩
    | ended hend => obtain ⟨-, -⟩ := hend; exact ⟨live, hl⟩
  | refused => exact ⟨live, hl⟩
  | aborted _ _ _ _ _ _ _ hp _ hend => obtain ⟨-, -⟩ := hend; exact ⟨live, listed_picks hp hl⟩
  | opened _ _ _ _ _ _ _ _ _ hp => exact ⟨live, listed_picks hp hl⟩
  | kept => exact ⟨live, hl⟩
  | failed _ _ _ _ _ hend => obtain ⟨-, -⟩ := hend; exact ⟨live, hl⟩
  | orphaned => exact ⟨live, hl⟩
  | submitted _ _ _ hw hend =>
    obtain ⟨-, -⟩ := hend
    cases hw with
    | none => exact ⟨live, hl⟩
    | some => exact ⟨live, hl⟩
  | timedOut _ _ hend => obtain ⟨-, -⟩ := hend; exact ⟨live, hl⟩
  | lost he _ _ hls =>
    rw [show _ = _ from hls.conn]
    exact htable (.disconnected he)

theorem run_connListed (h : Run (step cfg) {} ConnectsOnce tr s) : ∃ live, Listed cfg.peers live s.conn :=
  h.invariant (fun _ s => ∃ live, Listed cfg.peers live s.conn) ⟨[], PeerTable.listed_init _⟩
    fun _ _ _ _ _ hr hl hc hst => (run_move hr hst).listed hc hl

/-- Every pick finds a handler as long as a peer is connected. -/
def Filled (c : PeerConnSummary) : Prop := c.peers ≠ [] ∧ ∀ P ∈ c.peers, P.mcpHandlers ≠ []

theorem Filled.pick {c : PeerConnSummary} (hf : Filled c) : ∃ h c', getMcpHandler c = (some h, c') ∧ Filled c' := by
  obtain ⟨hne, hhs⟩ := hf
  have hi : wrap c.index c.peers.length < c.peers.length := wrap_lt (List.length_pos_iff.mpr hne)
  have hP := List.getElem?_eq_getElem hi
  generalize c.peers[wrap c.index c.peers.length] = P at hP
  have hPm : P ∈ c.peers := List.mem_of_getElem? hP
  have hk : wrap P.index P.mcpHandlers.length < P.mcpHandlers.length := wrap_lt (List.length_pos_iff.mpr (hhs P hPm))
  have hg : getMcpHandler c = (some P.mcpHandlers[wrap P.index P.mcpHandlers.length],
      { peers := c.peers.set (wrap c.index c.peers.length) { P with index := wrap P.index P.mcpHandlers.length + 1 }
        index := wrap c.index c.peers.length + 1 }) := by
    simp only [getMcpHandler, hP, List.getElem?_eq_getElem hk]
  refine ⟨_, _, hg, by simpa using hne, ?_⟩
  intro Q hQ
  rcases List.mem_or_eq_of_mem_set hQ with hQ | rfl
  · exact hhs Q hQ
  · exact hhs P hPm

/-! ## The selected endorser -/

theorem picks_length : ∀ {n : Nat} {c c' : PeerConnSummary} {hs}, picks n c = some (hs, c') → hs.length = n := by
  intro n
  induction n with
  | zero =>
    intro c c' hs h
    obtain ⟨rfl, -⟩ := Prod.mk.inj (Option.some.inj h)
    rfl
  | succ n ih =>
    intro c c' hs h
    unfold picks at h
    split at h
    · cases h
    · split at h
      · cases h
      · rename_i hs₁ c₂ hp
        obtain ⟨rfl, -⟩ := Prod.mk.inj (Option.some.inj h)
        rw [List.length_cons, ih hp]

theorem link_length {p : Ptr} : ∀ {hs : List McpHandler} {l l' : Links} {hps},
    Links.link p hs l = .ok (l', hps) → hps.length = hs.length := by
  intro hs
  induction hs with
  | nil =>
    intro l l' hps h
    obtain ⟨-, rfl⟩ := Prod.mk.inj (Except.ok.inj h)
    rfl
  | cons h₀ hs ih =>
    intro l l' hps h
    obtain ⟨l₁, -, h⟩ := Except.bind_eq_ok.mp h
    obtain ⟨⟨l₂, hps₂⟩, hl, h⟩ := Except.bind_eq_ok.mp h
    obtain ⟨-, rfl⟩ := Prod.mk.inj (Except.ok.inj h)
    rw [List.length_cons, List.length_cons, ih hl]

/-- The submit goes to one of the session's endorsers. -/
def EndorseSession.HasSubmit (S : EndorseSession) : Prop := ∃ hp ∈ S.arrHandleSession, S.submitEs = some hp

theorem Move.opened_submit (h : Move cfg s e s' outs) (hi : CoreInv s.core) {r} (he : e.asks = some r)
    {S' : EndorseSession}
    (hS' : s'.core.session s.core.next = some S') : S'.HasSubmit := by
  have hnone : s.core.session s.core.next = none := session_none hi.heap_next
  cases h with
  | aside he' => cases he'.symm.trans he
  | refused => cases hnone.symm.trans hS'
  | aborted _ _ _ _ _ _ _ _ _ hend =>
    rw [hend.session, if_pos rfl] at hS'
    cases hS'
  | opened _ _ _ _ _ _ _ _ _ hp hl hrand hsub =>
    have hopen := openEndorse_session (c := s.core) (q := s.core.next) ▸ hS'
    rw [if_pos rfl] at hopen
    obtain rfl := Option.some.inj hopen
    have hlt : _ < _ := hrand.trans_eq ((picks_length hp).symm.trans (link_length hl).symm)
    exact ⟨_, List.getElem_mem hlt, hsub.trans (List.getElem?_eq_getElem hlt)⟩
  | kept ha => cases (answer_of_asks he).symm.trans ha
  | failed ha => cases (answer_of_asks he).symm.trans ha
  | orphaned he' => cases (asks_of_submitRsp he').symm.trans he
  | submitted he' => cases (asks_of_submitRsp he').symm.trans he
  | timedOut he' => rw [he'] at he; cases he
  | lost he' => rw [he'] at he; cases he

theorem run_hasSubmit {C : History → State → Event → Prop} (h : Run (step cfg) {} C tr s) :
    ∀ p S, s.core.session p = some S → S.HasSubmit := by
  refine h.invariant (fun _ s => ∀ p S, s.core.session p = some S → S.HasSubmit) (fun _ _ h => by cases h) ?_
  intro tr s e s' outs hr ih _ hst p S' hS'
  have hm := run_move hr hst
  rcases hm.session (run_coreInv hr) hS' with ⟨hS, -⟩ | ⟨rfl, he, -⟩ | ⟨a, S, hd, cs, -, -, hS, -, -, rfl⟩
  · exact ih p S' hS
  · exact hm.opened_submit (run_coreInv hr) he hS'
  · exact ih p S hS

/-! ## Where a handler can fail -/

/-- The failures that are not at a NULL pointer: the selected endorser's handle session is
gone, or an array operation of a session that the step ends or notes fails. -/
inductive Breaks (cfg : Config) (s : State) (e : Event) (f : Fault) : Prop
  | handler {p S} : s.core.heap p = some (.endorse S) → s.submitHandler S = .error f → Breaks cfg s e f
  | answer {a p S} : e.answer = some a → s.core.mapEndorse a.kind a.cltSessionID = some p →
      s.core.heap p = some (.endorse S) →
      (judge cfg.endorsePeerCount a.kind S.succeedRspNum (S.sees a)).2 ≠ none →
      s.links.unlink s.core.live p S.arrHandleSession = .error f → Breaks cfg s e f
  | noted {p S hp} : s.core.heap p = some (.endorse S) → S.submitEs = some hp →
      s.links.insert hp s.core.next = .error f → Breaks cfg s e f
  | submitted {k id h p S s₁} : e.submitRsp = some (k, id, h, okType) → s.core.mapEndorse k id = some p →
      s.core.heap p = some (.endorse S) → Noted s S s₁ →
      s₁.links.unlink s₁.core.live p S.arrHandleSession = .error f → Breaks cfg s e f
  | single {p W} : s.core.heap p = some (.single W) → s.links.erase s.core.live W.handleSession p = .error f →
      Breaks cfg s e f
  | aborted {r S hs h conn links} : e.asks = some r → cfg.endorsePeerCount ≤ s.conn.peers.length →
      hs.length < cfg.endorsePeerCount → (e.sendErr hs.length = true ∧ ∀ i < hs.length, e.sendErr i = false) →
      picks (hs.length + 1) s.conn = some (hs ++ [h], conn) →
      s.links.link s.core.next (hs ++ [h]) = .ok (links, S.arrHandleSession) →
      links.unlink (s.core.alloc (.endorse S)).live s.core.next S.arrHandleSession = .error f → Breaks cfg s e f

variable {f : Fault} {p : Ptr} {S : EndorseSession}

theorem release_error (hS : s.core.heap p = some (.endorse S)) (h : onReleaseMultiHandleSession s p = .error f) :
    s.links.unlink s.core.live p S.arrHandleSession = .error f := by
  unfold onReleaseMultiHandleSession at h
  rcases Except.bind_eq_error.mp h with h | ⟨S', hS', h⟩
  · rw [endorse_eq_ok.mpr hS] at h
    cases h
  · rw [endorse_eq_ok, hS] at hS'
    obtain rfl := Session.endorse.inj (Option.some.inj hS')
    rcases Except.bind_eq_error.mp h with h | ⟨l', -, h⟩
    · exact h
    · cases h

theorem releaseSingle_error {W : SingleSession} (hW : s.core.heap p = some (.single W))
    (h : onReleaseSingleHanleSession s p = .error f) : s.links.erase s.core.live W.handleSession p = .error f := by
  unfold onReleaseSingleHanleSession at h
  rcases Except.bind_eq_error.mp h with h | ⟨W', hW', h⟩
  · rw [single_eq_ok.mpr hW] at h
    cases h
  · rw [single_eq_ok, hW] at hW'
    obtain rfl := Session.single.inj (Option.some.inj hW')
    rcases Except.bind_eq_error.mp h with h | ⟨l', -, h⟩
    · exact h
    · cases h

theorem onNetErrorEndorse_error (hS : s.core.heap p = some (.endorse S)) (h : onNetErrorEndorse s p = .error f) :
    s.links.unlink s.core.live p S.arrHandleSession = .error f := by
  rcases Except.bind_eq_error.mp h with h | ⟨S', hS', h⟩
  · rw [endorse_eq_ok.mpr hS] at h
    cases h
  · rcases Except.bind_eq_error.mp h with h | ⟨s', -, h⟩
    · have hu := release_error (S := S) (by exact hS) h
      exact hu
    · cases h

theorem endorseFailed_error {code : Int} {cancelErr : Bool} (hS : s.core.heap p = some (.endorse S))
    (h : endorseFailed s p S code cancelErr = .error f) :
    s.submitHandler S = .error f ∨ s.links.unlink s.core.live p S.arrHandleSession = .error f := by
  unfold endorseFailed at h
  have hend : ∀ {outs : List Out}, (do
      let s ← onReleaseMultiHandleSession { s with core := (s.core.cancelDscTimer p).eraseEndorse p } p
      .ok (s, outs ++ [onResponse S code]) : Res (State × List Out)) = .error f →
      s.links.unlink s.core.live p S.arrHandleSession = .error f := by
    intro outs h
    rcases Except.bind_eq_error.mp h with h | ⟨s', -, h⟩
    · have hu := release_error (S := S) (by exact hS) h
      exact hu
    · cases h
  by_cases hc : code = networkErrorType
  · simp only [if_pos hc] at h
    exact .inr (hend h)
  · simp only [if_neg hc] at h
    rcases Except.bind_eq_error.mp h with h | ⟨hd, -, h⟩
    · exact .inl h
    · exact .inr (hend h)

/-- A broadcast finds a handler in every round; it fails where the session cannot be ended
after a send that failed. -/
theorem broadcast_error {rand : Nat} {err : Nat → Bool} {msg : Bool → EsMsg} : ∀ {n idx : Nat} {s : State}
    {S : EndorseSession}, s.core.heap p = some (.endorse S) → LinksInv s.links → (n ≠ 0 → Filled s.conn) →
    broadcast p rand err msg n idx s = .error f →
    ∃ hs h conn links hps, hs.length < n ∧ picks (hs.length + 1) s.conn = some (hs ++ [h], conn) ∧
      s.links.link p (hs ++ [h]) = .ok (links, hps) ∧
      (err (idx + hs.length) = true ∧ ∀ i < hs.length, err (idx + i) = false) ∧
      links.unlink s.core.live p (S.arrHandleSession ++ hps) = .error f := by
  intro n
  induction n with
  | zero =>
    intro idx s S _ _ _ h
    cases h
  | succ n ih =>
    intro idx s S hS hl hfill h
    obtain ⟨h₀, conn, hg, hfill⟩ := (hfill (Nat.succ_ne_zero n)).pick
    obtain ⟨links, hins, hlink, -⟩ := linkedTo_exists hl h₀ p
    obtain ⟨hp₀, hhp⟩ : ∃ hp, hp = (s.links.handleSession h₀).2 := ⟨_, rfl⟩
    rw [← hhp] at hins hlink
    rw [broadcast_succ, hg] at h
    simp only [endorse_eq_ok.mpr hS, Except.ok_bind, ← hhp, hins] at h
    have hput : (s.core.put p (.endorse (S.picked rand idx hp₀))).heap p = some (.endorse (S.picked rand idx hp₀)) := by
      simp
    cases he : err idx with
    | true =>
      rw [if_pos he] at h
      rcases Except.bind_eq_error.mp h with h | ⟨r, -, h⟩
      · have hu := onNetErrorEndorse_error hput h
        rw [put_live _ hS] at hu
        exact ⟨[], h₀, conn, links, [hp₀], Nat.succ_pos n, by simp [picks, hg], hlink, ⟨he, by simp⟩, hu⟩
      · cases h
    | false =>
      rw [if_neg (by simp [he])] at h
      rcases Except.bind_eq_error.mp h with h | ⟨r, -, h⟩
      · have hl' : LinksInv links := (Links.insert_same hins).inv (Links.handleSession_spec hl h₀).1
        obtain ⟨hs, h', conn', links', hps, hlen, hp, hlk, ⟨hf, hnf⟩, hu⟩ := ih hput hl' (fun _ => hfill) h
        refine ⟨h₀ :: hs, h', conn', links', hp₀ :: hps, Nat.succ_lt_succ hlen, ?_, ?_, ⟨?_, ?_⟩, ?_⟩
        · rw [List.length_cons, picks, hg]
          simp [hp]
        · simp only [List.cons_append, Links.link, hins, ← hhp]
          exact Except.bind_eq_ok.mpr ⟨_, rfl, Except.bind_eq_ok.mpr ⟨_, hlk, rfl⟩⟩
        · rw [List.length_cons, show idx + (hs.length + 1) = idx + 1 + hs.length by omega]
          exact hf
        · intro i hi
          cases i with
          | zero => exact he
          | succ i =>
            rw [show idx + (i + 1) = idx + 1 + i by omega]
            exact hnf i (Nat.lt_of_succ_lt_succ hi)
        · rw [put_live _ hS] at hu
          simpa [EndorseSession.picked] using hu
      · cases h

/-! ## The handlers -/

section
variable {a : Answer}

theorem endorseFailed_breaks {code : Int} (ha : e.answer = some a)
    (hm : s.core.mapEndorse a.kind a.cltSessionID = some p) (hS : s.core.heap p = some (.endorse S))
    (hj : (judge cfg.endorsePeerCount a.kind S.succeedRspNum (S.sees a)).2 ≠ none) {cancelErr : Bool}
    (h : endorseFailed s p S code cancelErr = .error f) : Breaks cfg s e f := by
  rcases endorseFailed_error hS h with h | h
  · exact .handler hS h
  · exact .answer ha hm hS hj h

theorem answerCounted_breaks {S₁ : EndorseSession} (ha : e.answer = some a)
    (hm : s.core.mapEndorse a.kind a.cltSessionID = some p) (hS : s.core.heap p = some (.endorse S))
    (hc : a.code = okType) (hS₁ : S.countAnswer a.content = some S₁)
    (h : answerCounted cfg s p S₁ a.handler a.esSessionID a.env = .error f) : Breaks cfg s e f := by
  obtain ⟨hS₁, hsame⟩ := countAnswer_some hS₁
  have hhandler : s.submitHandler S₁ = s.submitHandler S := by rw [hS₁]; rfl
  unfold answerCounted at h
  rcases Except.bind_eq_error.mp h with h | ⟨hsub, hh, h⟩
  · exact .handler hS (hhandler.symm.trans h)
  have hcnt : (if a.handler = hsub then { S₁ with esSessionID := a.esSessionID } else S₁) = S.counted a hsub := by
    unfold EndorseSession.counted
    split <;> rw [hS₁]
  rw [hcnt] at h
  by_cases hN : cfg.endorsePeerCount ≤ (S.succeedRspNum + 1).toNat
  · rw [if_pos (by exact hN)] at h
    cases hse : a.env.submitErr with
    | true =>
      rw [hse, if_pos rfl] at h
      rcases endorseFailed_error (S := S.counted a hsub) (by simp) h with h | h
      · exact .handler hS h
      · simp only [put_live _ hS] at h
        refine .answer ha hm hS ?_ h
        rw [judge_counted hc hsame, if_pos hN, if_pos (by exact hse)]
        exact Option.some_ne_none _
    | false =>
      rw [hse, if_neg (by simp)] at h
      cases h
  · rw [if_neg (by exact hN)] at h
    cases h

theorem registUserRsp_breaks (hi : CoreInv s.core) {rsp h₀ env} (hm : s.core.mapEndorse .regist rsp.cltSessionID ≠ none)
    (h : onHtsMsgRegistUserEsCltRsp cfg s rsp h₀ env = .error f) : Breaks cfg s (.registUserRsp rsp h₀ env) f := by
  unfold onHtsMsgRegistUserEsCltRsp at h
  split at h
  · rename_i hn
    exact absurd hn hm
  rename_i p hm
  obtain ⟨S, hS, hk, -⟩ := hi.endorse _ _ _ hm
  simp only [endorse_eq_ok.mpr hS, Except.ok_bind] at h
  by_cases hc : rsp.returnCode = okType
  · rw [if_pos hc] at h
    cases hal : rsp.allowRegist with
    | true =>
      have ha : Event.answer (.registUserRsp rsp h₀ env) =
          some ⟨.regist, rsp.cltSessionID, h₀, okType, rsp.userInitInfo, rsp.esSessionID, env⟩ := by
        simp [Event.answer, hc, hal]
      rw [hal, if_pos rfl] at h
      split at h
      · rename_i S₁ hS₁
        exact answerCounted_breaks ha hm hS rfl hS₁ h
      · rename_i hS₁
        refine endorseFailed_breaks ha hm hS ?_ h
        rw [judge_mismatch rfl (countAnswer_none hS₁), if_neg fun h => by cases h.1]
        exact Option.some_ne_none _
    | false =>
      rw [hal, if_neg (by simp)] at h
      refine endorseFailed_breaks
        (a := ⟨.regist, rsp.cltSessionID, h₀, registUserIsRefused, rsp.userInitInfo, rsp.esSessionID, env⟩)
        (by simp [Event.answer, hc, hal]) hm hS ?_ h
      rw [judge_error (show registUserIsRefused ≠ okType by decide)]
      exact Option.some_ne_none _
  · rw [if_neg hc] at h
    refine endorseFailed_breaks
      (a := ⟨.regist, rsp.cltSessionID, h₀, rsp.returnCode, rsp.userInitInfo, rsp.esSessionID, env⟩)
      (by simp [Event.answer, hc]) hm hS ?_ h
    rw [judge_error hc]
    exact Option.some_ne_none _

theorem submitProposalRsp_breaks (hi : CoreInv s.core) {rsp h₀ env}
    (h : onHtsMsgSubmitProposalEsCltRsp cfg s rsp h₀ env = .error f) :
    Breaks cfg s (.submitProposalRsp rsp h₀ env) f := by
  unfold onHtsMsgSubmitProposalEsCltRsp at h
  split at h
  · cases h
  rename_i p hm
  obtain ⟨S, hS, hk, -⟩ := hi.endorse _ _ _ hm
  simp only [endorse_eq_ok.mpr hS, Except.ok_bind] at h
  obtain ⟨a, ha⟩ : ∃ a, Event.answer (.submitProposalRsp rsp h₀ env) = some a := ⟨_, rfl⟩
  obtain rfl := Option.some.inj ha
  by_cases hc : rsp.returnCode = okType
  · rw [if_pos hc] at h
    split at h
    · rename_i S₁ hS₁
      exact answerCounted_breaks ha hm hS hc hS₁ h
    · rename_i hS₁
      have hsame := countAnswer_none (a := ⟨.propose, rsp.cltSessionID, h₀, rsp.returnCode, rsp.transContent,
        rsp.esSessionID, env⟩) hS₁
      have hj : (judge cfg.endorsePeerCount .propose S.succeedRspNum (S.sees
          ⟨.propose, rsp.cltSessionID, h₀, rsp.returnCode, rsp.transContent, rsp.esSessionID, env⟩)).2 ≠ none := by
        rw [judge_mismatch hc hsame]
        split
        · split <;> exact Option.some_ne_none _
        · exact Option.some_ne_none _
      by_cases hN : cfg.endorsePeerCount ≤ S.succeedRspNum.toNat
      · rw [if_pos hN] at h
        rcases Except.bind_eq_error.mp h with h | ⟨hsub, -, h⟩
        · exact .handler hS h
        cases hse : env.submitErr with
        | true =>
          rw [hse, if_pos rfl] at h
          exact endorseFailed_breaks ha hm hS hj h
        | false =>
          rw [hse, if_neg (by simp)] at h
          rcases Except.bind_eq_error.mp h with h | ⟨r, -, h⟩
          · exact endorseFailed_breaks ha hm hS hj h
          · cases h
      · rw [if_neg hN] at h
        exact endorseFailed_breaks ha hm hS hj h
  · rw [if_neg hc] at h
    refine endorseFailed_breaks ha hm hS ?_ h
    rw [judge_error hc]
    exact Option.some_ne_none _

end

theorem submitTransaction_breaks (hi : CoreInv s.core) (hsub : ∀ p S, s.core.session p = some S → S.HasSubmit)
    {k id h₀ code answer} (he : e.submitRsp = some (k, id, h₀, code))
    (h : onHtsMsgSubmitTransaction s k id code answer = .error f) : Breaks cfg s e f := by
  unfold onHtsMsgSubmitTransaction at h
  split at h
  · cases h
  rename_i p hm
  simp only [hi.eraseEndorseKey_eq hm] at h
  obtain ⟨S, hS, hk, -⟩ := hi.endorse _ _ _ hm
  have hread : State.endorse { s with core := s.core.eraseEndorse p } p = .ok S := endorse_eq_ok.mpr hS
  simp only [hread, Except.ok_bind] at h
  by_cases hc : code = okType
  · rw [if_pos hc] at h
    subst hc
    have hp : p ≠ s.core.next := Nat.ne_of_lt (hi.fresh _ _ hS)
    rcases Except.bind_eq_error.mp h with h | ⟨s₁, hw, h⟩
    · unfold createWaitNotify at h
      split at h
      · split at h
        · rename_i hno
          obtain ⟨hp', -, hsome⟩ := hsub p S (session_eq_some.mpr hS)
          cases hno.symm.trans hsome
        · rename_i hp' hsome
          rcases Except.bind_eq_error.mp h with h | ⟨l', -, h⟩
          · exact .noted hS hsome h
          · cases h
      · cases h
    · rcases Except.bind_eq_error.mp h with h | ⟨s₂, -, h⟩
      · cases createWaitNotify_noted hw with
        | none hn =>
          have hu := release_error (S := S) (by exact hS) h
          exact .submitted he hm hS (.none hn) hu
        | some hn hsub' hins =>
          have hS₁ : ∀ W, (s.core.openSingle W).heap p = some (.endorse S) := by
            intro W
            simp [Core.openSingle, hp, hS]
          have hu := release_error (S := S) (by exact hS₁ _) h
          exact .submitted he hm hS (.some hn hsub' hins) hu
      · cases h
  · rw [if_neg hc] at h
    cases h

theorem onHtsMsgSingle_breaks (hi : CoreInv s.core) {k id answer} (h : onHtsMsgSingle s k id answer = .error f) :
    Breaks cfg s e f := by
  unfold onHtsMsgSingle at h
  split at h
  · cases h
  rename_i p hm
  simp only [hi.eraseSingleKey_eq hm] at h
  obtain ⟨W, hW, -⟩ := hi.single _ _ _ hm
  have hread : State.single { s with core := s.core.eraseSingle p } p = .ok W := single_eq_ok.mpr hW
  simp only [hread, Except.ok_bind] at h
  rcases Except.bind_eq_error.mp h with h | ⟨s', -, h⟩
  · have hu := releaseSingle_error (W := W) (by exact hW) h
    exact .single hW hu
  · cases h

theorem alloc_live (c : Core) (x y : Session) : (c.alloc x).live = (c.alloc y).live := by
  funext q
  by_cases h : q = c.next <;> simp [Core.live, h]

theorem registerSession_ok {S : EndorseSession} (hS : s.core.heap p = some (.endorse S)) (fill) :
    ∃ s', registerSession s p fill = .ok s' := by
  rw [registerSession, endorse_eq_ok.mpr hS, Except.ok_bind]
  exact ⟨_, rfl⟩

theorem request_breaks (r : Kind × MsgAddr × UInt32) (S₀ : EndorseSession) (fill : EndorseSession → EndorseSession)
    (msg : Bool → EsMsg) (failed : Int → Out) (rand : Nat) (hl : LinksInv s.links)
    (hfill : s.conn.peers ≠ [] → Filled s.conn) (he : e.asks = some r)
    (hn : cfg.endorsePeerCount ≤ s.conn.peers.length) (harr : S₀.arrHandleSession = [])
    (h : (do
      let b ← broadcast s.core.next rand e.sendErr msg cfg.endorsePeerCount 0
        { s with core := s.core.alloc (.endorse S₀) }
      if b.2.2 = okType then
        let s' ← registerSession b.1 s.core.next fill
        .ok (s', b.2.1)
      else .ok (b.1, b.2.1 ++ [failed b.2.2])) = (.error f : Res (State × List Out))) : Breaks cfg s e f := by
  have hS₀ := alloc_heap_next s.core (.endorse S₀)
  have hpeers : s.conn.peers ≠ [] := List.ne_nil_of_length_pos (Nat.lt_of_lt_of_le cfg.pos hn)
  rcases Except.bind_eq_error.mp h with h | ⟨b, hb, h⟩
  · obtain ⟨hs, h₀, conn, links, hps, hlen, hp, hlk, ⟨hf, hnf⟩, hu⟩ :=
      broadcast_error (s := { s with core := s.core.alloc (.endorse S₀) }) hS₀ hl (fun _ => hfill hpeers) h
    rw [Nat.zero_add] at hf
    rw [harr, List.nil_append] at hu
    refine .aborted (S := { S₀ with arrHandleSession := hps }) he hn hlen ⟨hf, fun i hi => ?_⟩ hp hlk ?_
    · have := hnf i hi
      rwa [Nat.zero_add] at this
    · rw [alloc_live s.core _ (.endorse S₀)]
      exact hu
  · exfalso
    rcases broadcast_cases hS₀ hb with ⟨hs, conn, links, hps, -, -, -, rfl⟩ |
      ⟨hs, h', conn, links, hps, links', -, -, -, -, -, rfl⟩
    · rw [if_pos rfl] at h
      have hput : ((s.core.alloc (.endorse S₀)).put s.core.next (.endorse (S₀.linked rand 0 hps))).heap s.core.next =
          some (.endorse (S₀.linked rand 0 hps)) := by simp
      rcases Except.bind_eq_error.mp h with h | ⟨s', -, h⟩
      · obtain ⟨s', hs'⟩ := registerSession_ok
          (s := { core := (s.core.alloc (.endorse S₀)).put s.core.next (.endorse (S₀.linked rand 0 hps)), links, conn })
          hput fill
        cases hs'.symm.trans h
      · cases h
    · rw [if_neg (show networkErrorType ≠ okType by decide)] at h
      cases h

theorem registUserReq_breaks (hl : LinksInv s.links) (hfill : s.conn.peers ≠ [] → Filled s.conn) {req src env}
    (h : onDscMsgRegistUserCltCltReq cfg s req src env = .error f) :
    Breaks cfg s (.registUserReq req src env) f := by
  unfold onDscMsgRegistUserCltCltReq at h
  by_cases hn : s.conn.peers.length < cfg.endorsePeerCount
  · rw [if_pos hn] at h
    cases h
  · rw [if_neg hn] at h
    exact request_breaks (.regist, src, req.srcSessionID)
      { newEndorseSession .regist env.raw with
        srcMsgAddr := src
        srcSessionID := req.srcSessionID
        channelID := req.channelID
        waitNotify := req.waitNotify }
      id _ (fun code => .upper src (.registUserRsp env.raw.allowRegist code req.srcSessionID [] []))
      (env.rand % cfg.endorsePeerCount) hl hfill rfl (Nat.le_of_not_lt hn) rfl h

theorem proposeReq_breaks (hl : LinksInv s.links) (hfill : s.conn.peers ≠ [] → Filled s.conn) {req src env}
    (h : onDscMsgProposeCltCltReq cfg s req src env = .error f) : Breaks cfg s (.proposeReq req src env) f := by
  unfold onDscMsgProposeCltCltReq at h
  by_cases hn : s.conn.peers.length < cfg.endorsePeerCount
  · rw [if_pos hn] at h
    cases h
  · rw [if_neg hn] at h
    split at h
    · cases h
    · exact request_breaks (.propose, src, req.srcSessionID) (newEndorseSession .propose env.raw)
        (fun S => { S with srcMsgAddr := src, srcSessionID := req.srcSessionID }) _
        (fun code => .upper src (.proposeRsp code req.srcSessionID []))
        (env.rand % cfg.endorsePeerCount) hl hfill rfl (Nat.le_of_not_lt hn) rfl h

theorem sendQuery_ok (hl : LinksInv s.links) {k : SingleKind} {src : MsgAddr} {srcSessionID : UInt32} {sendErr : Bool}
    {msg : UInt32 → EsMsg} {failed : Int → Out} (hg : sendErr = true ∨ Filled s.conn) :
    ∃ r, sendQuery s k src srcSessionID sendErr msg failed = .ok r := by
  rw [sendQuery_eq]
  cases sendErr with
  | true => exact ⟨_, rfl⟩
  | false =>
    obtain ⟨h, conn, hpick, -⟩ := (hg.resolve_left (by simp)).pick
    obtain ⟨links, hins, -⟩ := linkedTo_exists hl h s.core.next
    rw [hpick]
    exact ⟨_, Except.bind_eq_ok.mpr ⟨links, hins, rfl⟩⟩

theorem step_breaks (hi : CoreInv s.core) (hl : LinksInv s.links) (hfill : s.conn.peers ≠ [] → Filled s.conn)
    (hsub : ∀ p S, s.core.session p = some S → S.HasSubmit) (hm : e.isMessage = true) (hg : Guarded cfg s e)
    (h : step cfg s e = .error f) : Breaks cfg s e f := by
  have hquery : ∀ {sendErr : Bool}, (s.conn.peers.isEmpty = true → sendErr = true) →
      sendErr = true ∨ Filled s.conn := by
    intro sendErr hg
    by_cases hp : s.conn.peers = []
    · exact .inl (hg (List.isEmpty_iff.mpr hp))
    · exact .inr (hfill hp)
  cases e with
  | registUserReq req src env => exact registUserReq_breaks hl hfill h
  | proposeReq req src env => exact proposeReq_breaks hl hfill h
  | queryUserReq req src sendErr =>
    exfalso
    cases hd : cfg.codec.decodeChannelKey req.cryptUserKey with
    | none =>
      simp only [step, onDscMsgQueryUserInfoCltCltReq, hd] at h
      cases h
    | some key =>
      simp only [step, onDscMsgQueryUserInfoCltCltReq, hd] at h
      simp only [Guarded, Event.wantsPeer, hd, Option.isSome_some, Bool.and_true] at hg
      obtain ⟨r, hr⟩ := sendQuery_ok hl (hquery hg)
      cases hr.symm.trans h
  | queryTransReq req src sendErr =>
    exfalso
    cases hd : cfg.codec.decodeChannel req.cryptUserKey with
    | none =>
      simp only [step, onDscMsgQueryTransInfoCltCltReq, hd] at h
      cases h
    | some channelID =>
      cases hk : cfg.codec.decodeTransKey req.transKey with
      | none =>
        simp only [step, onDscMsgQueryTransInfoCltCltReq, hd, hk] at h
        cases h
      | some key =>
        simp only [step, onDscMsgQueryTransInfoCltCltReq, hd, hk] at h
        simp only [Guarded, Event.wantsPeer, hd, hk, Option.isSome_some, Bool.and_true] at hg
        obtain ⟨r, hr⟩ := sendQuery_ok hl (hquery hg)
        cases hr.symm.trans h
  | registUserRsp rsp h₀ env => exact registUserRsp_breaks hi hg h
  | submitProposalRsp rsp h₀ env => exact submitProposalRsp_breaks hi h
  | submitRegistRsp rsp h₀ => exact submitTransaction_breaks hi hsub rfl h
  | submitProposalTransRsp rsp h₀ => exact submitTransaction_breaks hi hsub rfl h
  | transNotify k rsp h₀ => exact onHtsMsgSingle_breaks hi h
  | queryUserRsp rsp h₀ => exact onHtsMsgSingle_breaks hi h
  | queryTransRsp rsp h₀ => exact onHtsMsgSingle_breaks hi h
  | timer p => cases hm
  | connected h₀ i j k => cases hm
  | networkError h₀ => cases hm

/-! ## The failures are at no NULL pointer, and there are none where the links are kept -/

theorem insert_null {l : Links} {hp : HPtr} : l.insert hp p ≠ .error .nullPtr := by
  unfold Links.insert
  intro h
  split at h <;> cases h

theorem erase_null {l : Links} {live : Ptr → Bool} {hp : HPtr} : l.erase live hp p ≠ .error .nullPtr := by
  unfold Links.erase
  intro h
  split at h
  · cases h
  · split at h
    · cases h
    · dsimp only at h
      split at h
      · cases h
      · split at h <;> cases h

theorem unlink_null {live : Ptr → Bool} :
    ∀ {hps : List HPtr} {l : Links}, Links.unlink live p hps l ≠ .error .nullPtr := by
  intro hps
  induction hps with
  | nil =>
    intro l h
    cases h
  | cons hp hps ih =>
    intro l h
    rcases Except.bind_eq_error.mp h with h | ⟨l', -, h⟩
    · exact erase_null h
    · exact ih h

theorem Breaks.null (hsub : ∀ p S, s.core.session p = some S → S.HasSubmit) (h : Breaks cfg s e f) : f ≠ .nullPtr := by
  rintro rfl
  cases h with
  | handler hS h =>
    obtain ⟨hp, -, hsome⟩ := hsub _ _ (session_eq_some.mpr hS)
    rw [State.submitHandler, hsome] at h
    dsimp only at h
    split at h <;> cases h
  | answer _ _ _ _ h => exact unlink_null h
  | noted _ _ h => exact insert_null h
  | submitted _ _ _ _ h => exact unlink_null h
  | single _ h => exact erase_null h
  | aborted _ _ _ _ _ _ h => exact unlink_null h

theorem SymInv.not_breaks (hsym : SymInv s) (hi : CoreInv s.core) (hl : LinksInv s.links)
    (hconn : ConnInv cfg.peers s.conn)
    (hsub : ∀ p S, s.core.session p = some S → S.HasSubmit) (hk : KeepsLinks cfg s e) : ¬Breaks cfg s e f := by
  have hhandle : ∀ {p S hp}, s.core.heap p = some (.endorse S) → S.submitEs = some hp →
      ∃ H, s.links.handles hp = some H := by
    intro p S hp hS hsome
    obtain ⟨hp', hmem, hsome'⟩ := hsub p S (session_eq_some.mpr hS)
    obtain rfl := Option.some.inj (hsome'.symm.trans hsome)
    exact hsym.handle (by rw [own_eq hS]; exact hmem)
  intro h
  cases h with
  | @handler p S hS h =>
    obtain ⟨hp, -, hsome⟩ := hsub p S (session_eq_some.mpr hS)
    obtain ⟨H, hH⟩ := hhandle hS hsome
    rw [State.submitHandler, hsome] at h
    simp only [hH] at h
    cases h
  | answer ha hm hS hj h =>
    obtain ⟨l', hu, -⟩ := hsym.release hS (hk.answer _ ha _ hm _ (session_eq_some.mpr hS) hj)
    cases hu.symm.trans h
  | noted hS hsome h =>
    obtain ⟨H, hH⟩ := hhandle hS hsome
    obtain ⟨l', hl'⟩ := insert_ok hH s.core.next
    cases hl'.symm.trans h
  | @submitted k id h₀ p S s₁ he hm hS hw h =>
    obtain ⟨hpl, hslot⟩ := hk.submit _ he rfl _ hm _ (session_eq_some.mpr hS)
    have hne : p ≠ s.core.next := Nat.ne_of_lt (hi.fresh _ _ hS)
    have hS₁ : s₁.core.heap p = some (.endorse S) := by
      cases hw with
      | none => exact hS
      | some => simp [Core.openSingle, hne, hS]
    obtain ⟨l', hu, -⟩ := (hw.symInv hi hsym).release hS₁ (placed_of_noted hw hne hpl hslot)
    cases hu.symm.trans h
  | single hW h =>
    obtain ⟨l', he, -⟩ := hsym.releaseSingle hW
    cases he.symm.trans h
  | @aborted r S hs h₀ conn links he hn hlen hf hp hlk h =>
    have hids := picks_nodup hconn hp (by omega)
    have hi₁ : SymInv { core := s.core.alloc (.endorse S), links, conn } :=
      symInv_of (alloc_own _) (LinkInv.link_new hsym hl hids (own_none hi.heap_next) hlk)
    have hpl : links.Placed s.core.next S.arrHandleSession := by
      apply Links.placed_of_link hl hids hlk (List.getLast?_concat ..)
      intro h' hh'
      exact hk.send (by rw [he]; simp) hs.length hlen hf.1 hf.2 _ hp h' hh' h₀ (List.getLast?_concat ..)
    obtain ⟨l', hu, -⟩ := hi₁.release (alloc_heap_next _ _) hpl
    cases hu.symm.trans h

/-! ## The handlers on the two branches -/

theorem harmless_unknown (hg : Guarded cfg s e) (hu : e.unknown s.core = true) : step cfg s e = .ok (s, []) := by
  cases e with
  | registUserRsp rsp h env => exact absurd (Option.isNone_iff_eq_none.mp hu) hg
  | submitProposalRsp rsp h env =>
    have hu : s.core.mapEndorse .propose rsp.cltSessionID = none := Option.isNone_iff_eq_none.mp hu
    simp only [step, onHtsMsgSubmitProposalEsCltRsp, hu]
  | submitRegistRsp rsp h =>
    have hu : s.core.mapEndorse .regist rsp.cltSessionID = none := Option.isNone_iff_eq_none.mp hu
    simp only [step, onHtsMsgSubmitRegistTransactionEsCltRsp, onHtsMsgSubmitTransaction, hu]
  | submitProposalTransRsp rsp h =>
    have hu : s.core.mapEndorse .propose rsp.cltSessionID = none := Option.isNone_iff_eq_none.mp hu
    simp only [step, onHtsMsgSubmitProposalTransactionEsCltRsp, onHtsMsgSubmitTransaction, hu]
  | transNotify k rsp h =>
    have hu : s.core.mapSingle (.waitNotify k) rsp.cltSessionID = none := Option.isNone_iff_eq_none.mp hu
    simp only [step, onHtsMsgSingle, hu]
  | queryUserRsp rsp h =>
    have hu : s.core.mapSingle .queryUser rsp.sessionID = none := Option.isNone_iff_eq_none.mp hu
    simp only [step, onHtsMsgSingle, hu]
  | queryTransRsp rsp h =>
    have hu : s.core.mapSingle .queryTrans rsp.cltSessionID = none := Option.isNone_iff_eq_none.mp hu
    simp only [step, onHtsMsgSingle, hu]
  | _ => cases hu

theorem getMcpHandler_nil {c : PeerConnSummary} (h : c.peers = []) : getMcpHandler c = (none, c) := by
  simp [getMcpHandler, h]

/-- A query that finds no peer is answered when the send to no handler is refused, and reads
through the handler that it does not have when it is not. -/
theorem sendQuery_nil {k : SingleKind} {src : MsgAddr} {srcSessionID : UInt32} {sendErr : Bool}
    {msg : UInt32 → EsMsg} {failed : Int → Out} (h : s.conn.peers = []) :
    sendQuery s k src srcSessionID sendErr msg failed =
      if sendErr then .ok (s, [failed networkErrorType]) else .error .nullPtr := by
  rw [sendQuery_eq, getMcpHandler_nil h]

theorem wantsPeer_query {b : Bool} {c : PeerConnSummary} (h : (c.peers.isEmpty && b) = true) :
    c.peers = [] ∧ b = true := by
  rw [Bool.and_eq_true, List.isEmpty_iff] at h
  exact h

theorem step_query_nil (hw : e.wantsPeer cfg s.conn = true) (ha : (Event.asksQuery e).isSome = true) :
    ∃ sendErr, (Guarded cfg s e ↔ sendErr = true) ∧
      step cfg s e = if sendErr then .ok (s, e.refusal networkErrorType) else .error .nullPtr := by
  cases e with
  | queryUserReq req src sendErr =>
    refine ⟨sendErr, ⟨fun hg => hg hw, fun h _ => h⟩, ?_⟩
    obtain ⟨hp, hd⟩ := wantsPeer_query hw
    obtain ⟨key, hd⟩ := Option.isSome_iff_exists.mp hd
    simp only [step, onDscMsgQueryUserInfoCltCltReq, hd]
    exact sendQuery_nil hp
  | queryTransReq req src sendErr =>
    refine ⟨sendErr, ⟨fun hg => hg hw, fun h _ => h⟩, ?_⟩
    rw [Event.wantsPeer, Bool.and_assoc] at hw
    obtain ⟨hp, hd⟩ := wantsPeer_query hw
    rw [Bool.and_eq_true] at hd
    obtain ⟨channelID, hd₁⟩ := Option.isSome_iff_exists.mp hd.1
    obtain ⟨key, hd₂⟩ := Option.isSome_iff_exists.mp hd.2
    simp only [step, onDscMsgQueryTransInfoCltCltReq, hd₁, hd₂]
    exact sendQuery_nil hp
  | _ => cases ha

theorem harmless_unsent (hg : Guarded cfg s e) (hw : e.wantsPeer cfg s.conn = true) :
    step cfg s e = .ok (s, e.refusal networkErrorType) := by
  cases e with
  | registUserReq req src env => exact if_pos (by simpa [Event.wantsPeer] using hw)
  | proposeReq req src env => exact if_pos (by simpa [Event.wantsPeer] using hw)
  | queryUserReq req src sendErr =>
    obtain ⟨b, hb, hst⟩ := step_query_nil hw rfl
    rw [hst, if_pos (hb.mp hg)]
  | queryTransReq req src sendErr =>
    obtain ⟨b, hb, hst⟩ := step_query_nil hw rfl
    rw [hst, if_pos (hb.mp hg)]
  | _ => cases hw

theorem guarded_of_harmless (h : Harmless cfg s e) : Guarded cfg s e := by
  have hquery : (Event.asksQuery e).isSome = true → e.wantsPeer cfg s.conn = true → Guarded cfg s e := by
    intro ha hw
    obtain ⟨b, hb, hst⟩ := step_query_nil hw ha
    rw [hb]
    by_contra hne
    rw [if_neg hne] at hst
    exact h.null hst
  cases e with
  | registUserRsp rsp h₀ env =>
    intro hm
    apply h.null
    simp only [step, onHtsMsgRegistUserEsCltRsp, hm]
  | queryUserReq req src sendErr => exact fun hw => hquery rfl hw hw
  | queryTransReq req src sendErr => exact fun hw => hquery rfl hw hw
  | _ => trivial

/-- A message is harmless exactly when it is guarded. Where moreover every step so far kept
the links of the sessions, and this one does, it does not fail at all. -/
theorem stale_harmless_iff (h : Run (step cfg) {} ConnectsOnce tr s) (hm : e.isMessage = true) :
    (Harmless cfg s e ↔ Guarded cfg s e) ∧
      (Each (fun _ s e => KeepsLinks cfg s e) tr → KeepsLinks cfg s e → Guarded cfg s e →
        ∃ r, step cfg s e = .ok r) := by
  have hi := run_coreInv h
  have hl := run_linksInv h
  have hsub := run_hasSubmit h
  obtain ⟨live, hlist⟩ := run_connListed h
  have hfill : s.conn.peers ≠ [] → Filled s.conn := fun hne => ⟨hne, hlist.nonempty⟩
  refine ⟨⟨guarded_of_harmless, fun hg => ⟨fun hst => ?_, harmless_unknown hg, harmless_unsent hg⟩⟩, ?_⟩
  · exact (step_breaks hi hl hfill hsub hm hg hst).null hsub rfl
  · intro heach hk hg
    have hsym := run_symInv ((h.of_each heach).mono fun _ _ _ hc => hc.2)
    cases hst : step cfg s e with
    | ok r => exact ⟨r, rfl⟩
    | error f => exact absurd (step_breaks hi hl hfill hsub hm hg hst) (hsym.not_breaks hi hl (run_connInv h) hsub hk)

end

/-- A late answer to a register request is logged through the session that was not found. -/
theorem stale_null : ¬ ∀ (cfg : Config) (tr : History) (s : State) (e : Event),
    Run (step cfg) {} ConnectsOnce tr s → e.isMessage = true → Harmless cfg s e := by
  intro hall
  have h := hall twoPeers [] {} (registFailed firstPeer 0 7) .nil rfl
  exact h.null rfl

theorem stale_harmless_two : ∃ tr s, Run (step twoPeers) {} ConnectsOnce tr s ∧
    Harmless twoPeers s (.submitRegistRsp ⟨okType, 0, ⟨1, 2, 3⟩, [], [], []⟩ firstPeer) ∧
    (∃ r, step twoPeers s (.submitRegistRsp ⟨okType, 0, ⟨1, 2, 3⟩, [], [], []⟩ firstPeer) = .ok r) ∧
    tr.flatMap (·.outs) = [.es firstPeer 0 (.registUserReq ⟨false, true, 3, 0, 7, [1], [2]⟩),
      .es secondPeer 0 (.registUserReq ⟨false, false, 3, 0, 7, [1], [2]⟩),
      .upper 5 (.registUserRsp false timeoutErrorType 1 [] [])] := by
  let evs := connectBoth ++ [registReq 1 {}, .timer 0]
  have hr := run_of_meets (step twoPeers) {} ConnectsOnce evs (by decide)
  have hk := run_of_meets (step twoPeers) {} (fun _ s e => KeepsLinks twoPeers s e) evs (by decide)
  obtain ⟨hiff, hok⟩ := stale_harmless_iff hr
    (show (Event.submitRegistRsp ⟨okType, 0, ⟨1, 2, 3⟩, [], [], []⟩ firstPeer).isMessage = true from rfl)
  exact ⟨_, _, hr, hiff.mpr trivial, hok hk.each (by decide) trivial, by decide⟩

end VProtocol.Client
