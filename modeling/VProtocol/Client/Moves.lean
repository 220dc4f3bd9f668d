import VProtocol.Client.Cases

/-!
# Every step is a move

`step_move`, from the handlers. It uses that a map entry is a live session of the
entry's kind and id (`CoreInv`), so that erasing a session's key and erasing the
session are the same.
-/

namespace VProtocol.Client

open Function (update)

/-! ## The sessions, maps and timers fit together -/

structure CoreInv (c : Core) : Prop where
  fresh : ∀ p x, c.heap p = some x → p < c.next
  endorse : ∀ k id p, c.mapEndorse k id = some p →
    ∃ S, c.heap p = some (.endorse S) ∧ S.kind = k ∧ S.cltSessionID = id
  single : ∀ k id p, c.mapSingle k id = some p →
    ∃ S, c.heap p = some (.single S) ∧ S.kind = k ∧ S.cltSessionID = id
  armed : ∀ p, c.armed p = true → ∃ x, c.heap p = some x

theorem CoreInv.heap_next {c : Core} (hi : CoreInv c) : c.heap c.next = none := by
  cases h : c.heap c.next with
  | none => rfl
  | some x => exact absurd (hi.fresh _ _ h) (Nat.lt_irrefl _)

theorem CoreInv.eraseEndorseKey_eq {c : Core} (hi : CoreInv c) {k id p} (h : c.mapEndorse k id = some p) :
    c.eraseEndorseKey k id = c.eraseEndorse p := by
  obtain ⟨S, hS, rfl, rfl⟩ := hi.endorse _ _ _ h
  have : update c.mapEndorse S.kind (update (c.mapEndorse S.kind) S.cltSessionID none) =
      fun k id => if c.mapEndorse k id = some p then none else c.mapEndorse k id := by
    funext k' id'
    by_cases hp : c.mapEndorse k' id' = some p
    · obtain ⟨S', hS', rfl, rfl⟩ := hi.endorse _ _ _ hp
      rw [hS] at hS'
      obtain rfl := Session.endorse.inj (Option.some.inj hS')
      simp [hp]
    · rw [if_neg hp]
      by_cases hk : k' = S.kind
      · subst hk
        have hid : id' ≠ S.cltSessionID := by intro heq; subst heq; exact hp h
        simp [hid]
      · simp [hk]
  simp only [Core.eraseEndorseKey, Core.eraseEndorse, this]

theorem CoreInv.eraseSingleKey_eq {c : Core} (hi : CoreInv c) {k id p} (h : c.mapSingle k id = some p) :
    c.eraseSingleKey k id = c.eraseSingle p := by
  obtain ⟨S, hS, rfl, rfl⟩ := hi.single _ _ _ h
  have : update c.mapSingle S.kind (update (c.mapSingle S.kind) S.cltSessionID none) =
      fun k id => if c.mapSingle k id = some p then none else c.mapSingle k id := by
    funext k' id'
    by_cases hp : c.mapSingle k' id' = some p
    · obtain ⟨S', hS', rfl, rfl⟩ := hi.single _ _ _ hp
      rw [hS] at hS'
      obtain rfl := Session.single.inj (Option.some.inj hS')
      simp [hp]
    · rw [if_neg hp]
      by_cases hk : k' = S.kind
      · subst hk
        have hid : id' ≠ S.cltSessionID := by intro heq; subst heq; exact hp h
        simp [hid]
      · simp [hk]
  simp only [Core.eraseSingleKey, Core.eraseSingle, this]

/-! ## Reading and releasing -/

theorem endorse_eq_ok {s : State} {p S} : s.endorse p = .ok S ↔ s.core.heap p = some (.endorse S) := by
  unfold State.endorse
  split
  · rename_i S' h; rw [h]; simp
  · rename_i h
    constructor
    · intro h'; cases h'
    · intro h'; exact absurd h' (h S)

theorem single_eq_ok {s : State} {p S} : s.single p = .ok S ↔ s.core.heap p = some (.single S) := by
  unfold State.single
  split
  · rename_i S' h; rw [h]; simp
  · rename_i h
    constructor
    · intro h'; cases h'
    · intro h'; exact absurd h' (h S)

theorem put_live {c : Core} {p x} (y) (h : c.heap p = some x) : (c.put p y).live = c.live := by
  funext q
  by_cases hq : q = p
  · subst hq; simp [Core.live, h]
  · simp [Core.live, hq]

theorem release_eq_ok {s s' : State} {p S} (hS : s.core.heap p = some (.endorse S)) :
    onReleaseMultiHandleSession s p = .ok s' ↔
      ∃ links, s.links.unlink s.core.live p S.arrHandleSession = .ok links ∧
        s' = { s with core := s.core.free p, links } := by
  unfold onReleaseMultiHandleSession
  rw [Except.bind_eq_ok]
  constructor
  · intro hx
    obtain ⟨S', hS', h⟩ := hx
    rw [endorse_eq_ok, hS] at hS'
    obtain rfl := Session.endorse.inj (Option.some.inj hS')
    obtain ⟨links, hl, h⟩ := Except.bind_eq_ok.mp h
    exact ⟨links, hl, (Except.ok.inj h).symm⟩
  · intro hx
    obtain ⟨links, hl, rfl⟩ := hx
    exact ⟨S, endorse_eq_ok.mpr hS, Except.bind_eq_ok.mpr ⟨links, hl, rfl⟩⟩

theorem releaseSingle_eq_ok {s s' : State} {p S} (hS : s.core.heap p = some (.single S)) :
    onReleaseSingleHanleSession s p = .ok s' ↔
      ∃ links, s.links.erase s.core.live S.handleSession p = .ok links ∧
        s' = { s with core := s.core.free p, links } := by
  unfold onReleaseSingleHanleSession
  rw [Except.bind_eq_ok]
  constructor
  · intro hx
    obtain ⟨S', hS', h⟩ := hx
    rw [single_eq_ok, hS] at hS'
    obtain rfl := Session.single.inj (Option.some.inj hS')
    obtain ⟨links, hl, h⟩ := Except.bind_eq_ok.mp h
    exact ⟨links, hl, (Except.ok.inj h).symm⟩
  · intro hx
    obtain ⟨links, hl, rfl⟩ := hx
    exact ⟨S, single_eq_ok.mpr hS, Except.bind_eq_ok.mpr ⟨links, hl, rfl⟩⟩

theorem onNetErrorEndorse_ended {s : State} {p r} (h : onNetErrorEndorse s p = .ok r) :
    ∃ S s', Ended s p S s' ∧ r = (s', [onResponse S networkErrorType]) := by
  obtain ⟨S, hS, h⟩ := Except.bind_eq_ok.mp h
  obtain ⟨s', hs', h⟩ := Except.bind_eq_ok.mp h
  rw [endorse_eq_ok] at hS
  obtain ⟨links, hl, rfl⟩ := (release_eq_ok (S := S) (by exact hS)).mp hs'
  exact ⟨S, _, .mk hS hl, (Except.ok.inj h).symm⟩

theorem onTimeOutEndorse_ended {s : State} {p r}
    (h : onTimeOutEndorse { s with core := s.core.cancelDscTimer p } p = .ok r) :
    ∃ S s', Ended s p S s' ∧ r = (s', [onResponse S timeoutErrorType]) := by
  obtain ⟨S, hS, h⟩ := Except.bind_eq_ok.mp h
  obtain ⟨s', hs', h⟩ := Except.bind_eq_ok.mp h
  rw [endorse_eq_ok] at hS
  obtain ⟨links, hl, rfl⟩ := (release_eq_ok (S := S) (by exact hS)).mp hs'
  exact ⟨S, _, .mk hS hl, (Except.ok.inj h).symm⟩

theorem onNetErrorSingle_ended {s : State} {p r} (h : onNetErrorSingle s p = .ok r) :
    ∃ S s', SingleEnded s p S s' ∧ r = (s', [onResponseSingle S networkErrorType false []]) := by
  obtain ⟨S, hS, h⟩ := Except.bind_eq_ok.mp h
  obtain ⟨s', hs', h⟩ := Except.bind_eq_ok.mp h
  rw [single_eq_ok] at hS
  obtain ⟨links, hl, rfl⟩ := (releaseSingle_eq_ok (S := S) (by exact hS)).mp hs'
  exact ⟨S, _, .mk hS hl, (Except.ok.inj h).symm⟩

theorem onTimeOutSingle_ended {s : State} {p r}
    (h : onTimeOutSingle { s with core := s.core.cancelDscTimer p } p = .ok r) :
    ∃ S s', SingleEnded s p S s' ∧ r = (s', [onResponseSingle S timeoutErrorType false []]) := by
  obtain ⟨S, hS, h⟩ := Except.bind_eq_ok.mp h
  obtain ⟨s', hs', h⟩ := Except.bind_eq_ok.mp h
  rw [single_eq_ok] at hS
  obtain ⟨links, hl, rfl⟩ := (releaseSingle_eq_ok (S := S) (by exact hS)).mp hs'
  refine ⟨S, _, .mk hS hl, ?_⟩
  rw [← Except.ok.inj h]
  have hc : (s.core.cancelDscTimer p).cancelDscTimer p = s.core.cancelDscTimer p := by
    simp [Core.cancelDscTimer]
  simp only [hc]
  rfl

/-! ## The loop of a request -/

def EndorseSession.picked (S : EndorseSession) (rand idx : Nat) (hp : HPtr) : EndorseSession :=
  { S with
    arrHandleSession := S.arrHandleSession ++ [hp]
    submitEs := if rand = idx then some hp else S.submitEs }

/-- The session after the rounds from `idx` on, which linked it to `hps`. -/
def EndorseSession.linked (S : EndorseSession) (rand idx : Nat) (hps : List HPtr) : EndorseSession :=
  { S with
    arrHandleSession := S.arrHandleSession ++ hps
    submitEs := if idx ≤ rand then (hps[rand - idx]?).or S.submitEs else S.submitEs }

theorem EndorseSession.linked_cons (S : EndorseSession) (rand idx : Nat) (hp : HPtr) (hps : List HPtr) :
    (S.picked rand idx hp).linked rand (idx + 1) hps = S.linked rand idx (hp :: hps) := by
  unfold EndorseSession.linked EndorseSession.picked
  simp only [List.append_assoc, List.singleton_append, EndorseSession.mk.injEq, true_and, and_true]
  rcases Nat.lt_trichotomy rand idx with h | h | h
  · simp [show ¬ idx + 1 ≤ rand by omega, show ¬ idx ≤ rand by omega, show rand ≠ idx by omega]
  · subst h
    rw [if_neg (by omega), if_pos rfl, if_pos (Nat.le_refl _), Nat.sub_self]
    rfl
  · obtain ⟨d, rfl⟩ : ∃ d, rand = idx + 1 + d := ⟨rand - idx - 1, by omega⟩
    simp [show idx + 1 + d - idx = d + 1 by omega, show idx + 1 + d ≠ idx by omega, show idx ≤ idx + 1 + d by omega]

theorem broadcast_succ (p : Ptr) (rand : Nat) (err : Nat → Bool) (msg : Bool → EsMsg) (n idx : Nat) (s : State) :
    broadcast p rand err msg (n + 1) idx s =
      (match getMcpHandler s.conn with
      | (none, _) => .error .nullPtr
      | (some h, conn) => do
        let S ← s.endorse p
        let links ← (s.links.handleSession h).1.insert (s.links.handleSession h).2 p
        let s : State :=
          { core := s.core.put p (.endorse (S.picked rand idx (s.links.handleSession h).2)), links, conn }
        if err idx then
          let r ← onNetErrorEndorse s p
          .ok (r.1, r.2, networkErrorType)
        else
          let r ← broadcast p rand err msg n (idx + 1) s
          .ok (r.1, .es h p (msg (rand = idx)) :: r.2.1, r.2.2)) := by
  rw [broadcast]
  rfl

theorem put_put (c : Core) (p : Ptr) (x y : Session) : (c.put p x).put p y = c.put p y := by
  simp [Core.put]

theorem put_finish (c : Core) (p : Ptr) (x : Session) : (c.put p x).finish p = c.finish p := by
  have : (c.put p x).free p = c.free p := by simp [Core.put, Core.free]
  exact congrArg (fun d : Core => (d.cancelDscTimer p).eraseEndorse p) this

theorem picks_cons {n : Nat} {conn conn₁ conn' : PeerConnSummary} {h : McpHandler} {hs : List McpHandler}
    (hg : getMcpHandler conn = (some h, conn₁)) (hp : picks n conn₁ = some (hs, conn')) :
    picks (n + 1) conn = some (h :: hs, conn') := by
  simp only [picks, hg, hp]

theorem link_cons_ok {l l₁ l' : Links} {p : Ptr} {h : McpHandler} {hs : List McpHandler} {hps : List HPtr}
    (hi : (l.handleSession h).1.insert (l.handleSession h).2 p = .ok l₁) (hl : l₁.link p hs = .ok (l', hps)) :
    l.link p (h :: hs) = .ok (l', (l.handleSession h).2 :: hps) :=
  Except.bind_eq_ok.mpr ⟨l₁, hi, Except.bind_eq_ok.mpr ⟨_, hl, rfl⟩⟩

theorem sent_cons {err : Nat → Bool} {idx n : Nat} (he : err idx = false) (hf : ∀ i < n, err (idx + 1 + i) = false) :
    ∀ i < n + 1, err (idx + i) = false := by
  intro i hi
  cases i with
  | zero => exact he
  | succ i =>
    rw [show idx + (i + 1) = idx + 1 + i by omega]
    exact hf i (Nat.lt_of_succ_lt_succ hi)

/-- Either every send succeeds, or the one after `hs` fails and the session is ended. -/
theorem broadcast_cases {p rand err msg} : ∀ {n idx s r S}, s.core.heap p = some (.endorse S) →
    broadcast p rand err msg n idx s = .ok r →
    (∃ hs conn links hps, picks n s.conn = some (hs, conn) ∧ s.links.link p hs = .ok (links, hps) ∧
      (∀ i < n, err (idx + i) = false) ∧
      r = ({ core := s.core.put p (.endorse (S.linked rand idx hps)), links, conn },
        requests p rand msg idx hs, okType)) ∨
    (∃ hs h conn links hps links', hs.length < n ∧ picks (hs.length + 1) s.conn = some (hs ++ [h], conn) ∧
      s.links.link p (hs ++ [h]) = .ok (links, hps) ∧
      (err (idx + hs.length) = true ∧ ∀ i < hs.length, err (idx + i) = false) ∧
      links.unlink s.core.live p (S.arrHandleSession ++ hps) = .ok links' ∧
      r = ({ core := s.core.finish p, links := links', conn },
        requests p rand msg idx hs ++ [onResponse S networkErrorType], networkErrorType)) := by
  intro n
  induction n with
  | zero =>
    intro idx s r S hS h
    obtain rfl := Except.ok.inj h
    have hl : S.linked rand idx [] = S := by simp [EndorseSession.linked]
    have hput : s.core.put p (.endorse S) = s.core := by
      unfold Core.put; rw [← hS, Function.update_eq_self]
    refine .inl ⟨[], s.conn, s.links, [], rfl, rfl, by simp, ?_⟩
    rw [hl, hput]; rfl
  | succ n ih =>
    intro idx s r S hS h
    rw [broadcast_succ] at h
    split at h
    · cases h
    rename_i h₀ conn hg
    obtain ⟨S', hS', h⟩ := Except.bind_eq_ok.mp h
    rw [endorse_eq_ok, hS] at hS'
    obtain rfl := Session.endorse.inj (Option.some.inj hS')
    obtain ⟨links, hl, h⟩ := Except.bind_eq_ok.mp h
    obtain ⟨hp₀, hhp⟩ : ∃ hp, hp = (s.links.handleSession h₀).2 := ⟨_, rfl⟩
    rw [← hhp] at h
    have hput : (s.core.put p (.endorse (S.picked rand idx hp₀))).heap p = some (.endorse (S.picked rand idx hp₀)) := by
      simp
    cases he : err idx with
    | true =>
      rw [if_pos he] at h
      obtain ⟨⟨s', outs⟩, hn, h⟩ := Except.bind_eq_ok.mp h
      obtain ⟨S', s'', hend, hr⟩ := onNetErrorEndorse_ended hn
      obtain @⟨l', hS', hu⟩ := hend
      obtain rfl := Session.endorse.inj (Option.some.inj (hput.symm.trans hS'))
      refine .inr ⟨[], h₀, conn, links, [hp₀], l', Nat.succ_pos n, picks_cons hg rfl, ?_, ⟨he, nofun⟩, ?_, ?_⟩
      · rw [hhp]
        exact link_cons_ok hl rfl
      · rwa [put_live _ hS] at hu
      · rw [← Except.ok.inj h, (Prod.mk.inj hr).1, (Prod.mk.inj hr).2, put_finish]
        rfl
    | false =>
      rw [if_neg (by simp [he])] at h
      obtain ⟨⟨s', outs, code⟩, hb, h⟩ := Except.bind_eq_ok.mp h
      rcases ih hput hb with ⟨hs, conn', links', hps, hp, hl', hf, hr⟩ |
        ⟨hs, h', conn', links', hps, l', hlen, hp, hl', ⟨hf, hnf⟩, hu, hr⟩
      · refine .inl ⟨h₀ :: hs, conn', links', hp₀ :: hps, picks_cons hg hp, ?_, sent_cons he hf, ?_⟩
        · rw [hhp]
          exact link_cons_ok hl hl'
        · obtain ⟨rfl, rfl, rfl⟩ : s' = _ ∧ outs = _ ∧ code = _ := by
            simpa only [Prod.mk.injEq] using hr
          rw [← Except.ok.inj h, put_put, EndorseSession.linked_cons]
          rfl
      · refine .inr ⟨h₀ :: hs, h', conn', links', hp₀ :: hps, l', Nat.succ_lt_succ hlen, picks_cons hg hp, ?_, ?_, ?_, ?_⟩
        · rw [hhp]
          exact link_cons_ok hl hl'
        · rw [List.length_cons, show idx + (hs.length + 1) = idx + 1 + hs.length by omega]
          exact ⟨hf, sent_cons he hnf⟩
        · rw [put_live _ hS] at hu
          simpa [EndorseSession.picked] using hu
        · obtain ⟨rfl, rfl, rfl⟩ : s' = _ ∧ outs = _ ∧ code = _ := by
            simpa only [Prod.mk.injEq] using hr
          rw [← Except.ok.inj h, put_finish]
          rfl

/-! ## The requests of the upper layer -/

theorem alloc_heap_next (c : Core) (x : Session) : (c.alloc x).heap c.next = some x := by
  simp

theorem registerSession_eq {s s' : State} {p S fill} (hS : s.core.heap p = some (.endorse S))
    (h : registerSession s p fill = .ok s') :
    s' = { s with core :=
      { ((s.core.put p (.endorse (fill { S with cltSessionID := s.core.sessionID }))).setDscTimer p).insertEndorse
          (fill { S with cltSessionID := s.core.sessionID }).kind s.core.sessionID p with
        sessionID := s.core.sessionID + 1 } } := by
  obtain ⟨S', hS', h⟩ := Except.bind_eq_ok.mp h
  rw [endorse_eq_ok, hS] at hS'
  obtain rfl := Session.endorse.inj (Option.some.inj hS')
  exact (Except.ok.inj h).symm

/-- What the two requests share: the loop, and then either the session is filled in
and registered or the requester is told that a send failed. -/
theorem request_move {cfg : Config} {s s' : State} {e : Event} {outs} (r : Kind × MsgAddr × UInt32)
    (S₀ : EndorseSession) (fill : EndorseSession → EndorseSession) (msg : Bool → EsMsg) (failed : Int → Out)
    (rand : Nat)
    (he : e.asks = some r) (hn : cfg.endorsePeerCount ≤ s.conn.peers.length) (hd : e.decodes cfg = true)
    (hrand : rand < cfg.endorsePeerCount)
    (hm : ∀ b, (msg b).request = some (r.1, s.core.sessionID)) (hk : S₀.kind = r.1)
    (h0 : S₀.succeedRspNum = 0) (hc : S₀.content = []) (hsub : S₀.submitEs = none) (harr : S₀.arrHandleSession = [])
    (ht : ∀ S : EndorseSession, S.srcMsgAddr = S₀.srcMsgAddr → S.srcSessionID = S₀.srcSessionID → S.kind = r.1 →
      (fill S).tag = r)
    (hfill : ∀ S : EndorseSession, (fill S).kind = S.kind ∧ (fill S).cltSessionID = S.cltSessionID ∧
      (fill S).succeedRspNum = S.succeedRspNum ∧ (fill S).content = S.content ∧
      (fill S).arrHandleSession = S.arrHandleSession ∧ (fill S).submitEs = S.submitEs)
    (hu : ∀ code, (failed code).isUpper) (hr : ∀ code, (failed code).reply = some r)
    (h : (do
      let b ← broadcast s.core.next rand e.sendErr msg cfg.endorsePeerCount 0
        { s with core := s.core.alloc (.endorse S₀) }
      if b.2.2 = okType then
        let s' ← registerSession b.1 s.core.next fill
        .ok (s', b.2.1)
      else .ok (b.1, b.2.1 ++ [failed b.2.2])) = Except.ok (s', outs)) :
    Move cfg s e s' outs := by
  obtain ⟨b, hb, h⟩ := Except.bind_eq_ok.mp h
  have hS₀ := alloc_heap_next s.core (.endorse S₀)
  rcases broadcast_cases hS₀ hb with ⟨hs, conn, links, hps, hp, hl, hf, rfl⟩ |
    ⟨hs, h', conn, links, hps, links', hlen, hp, hl, hf, hu', rfl⟩
  · rw [if_pos rfl] at h
    obtain ⟨s'', hreg, h⟩ := Except.bind_eq_ok.mp h
    obtain ⟨rfl, rfl⟩ := Prod.mk.inj (Except.ok.inj h)
    obtain rfl := registerSession_eq (S := S₀.linked rand 0 hps) (by simp) hreg
    obtain ⟨S, hSe⟩ : ∃ S, S = fill { S₀.linked rand 0 hps with cltSessionID := s.core.sessionID } := ⟨_, rfl⟩
    obtain ⟨h1, h2, h3, h4, h5, h6⟩ := hfill { S₀.linked rand 0 hps with cltSessionID := s.core.sessionID }
    rw [← hSe] at h1 h2 h3 h4 h5 h6
    have hSk : S.kind = r.1 := h1.trans hk
    have hSid : S.cltSessionID = s.core.sessionID := h2
    have hSa : S.arrHandleSession = hps := by rw [h5]; simp [EndorseSession.linked, harr]
    have hcore : s.core.openEndorse S = { (((s.core.alloc (.endorse S₀)).put s.core.next (.endorse S)).setDscTimer
        s.core.next).insertEndorse S.kind s.core.sessionID s.core.next with sessionID := s.core.sessionID + 1 } := by
      simp [Core.openEndorse, Core.alloc, Core.put, Core.setDscTimer, Core.insertEndorse, hSid]
    have hsub' : S.submitEs = S.arrHandleSession[rand]? := by
      rw [h6, hSa]; simp [EndorseSession.linked, hsub]
    have hmove : Move cfg s e { core := s.core.openEndorse S, links, conn } (requests s.core.next rand msg 0 hs) :=
      .opened he (by rw [hSe]; exact ht _ rfl rfl hk) hSid (h3.trans h0) (h4.trans hc) hn hd
        (by simpa using hf) hm hp (by rw [hSa]; exact hl) hrand hsub'
    rw [hcore] at hmove
    subst hSe
    rw [put_put]
    exact hmove
  · rw [if_neg (show networkErrorType ≠ okType by decide)] at h
    obtain ⟨rfl, rfl⟩ := Prod.mk.inj (Except.ok.inj h)
    rw [List.append_assoc]
    have hfin : s.core.alloc (.endorse S₀) = (s.core.alloc (.endorse S₀)).put s.core.next (.endorse S₀) := by
      simp [Core.alloc, Core.put]
    obtain ⟨S, hSe⟩ : ∃ S : EndorseSession, S = { S₀ with arrHandleSession := hps } := ⟨_, rfl⟩
    have halloc : s.core.alloc (.endorse S) = (s.core.alloc (.endorse S₀)).put s.core.next (.endorse S) := by
      simp [Core.alloc, Core.put]
    have hend : Ended { core := s.core.alloc (.endorse S), links, conn } s.core.next S
        { core := (s.core.alloc (.endorse S)).finish s.core.next, links := links', conn } := by
      refine .mk (alloc_heap_next _ _) ?_
      rw [halloc]
      simp only
      rw [put_live _ hS₀, hSe]
      simpa [harr] using hu'
    rw [halloc, put_finish] at hend
    have ho : onResponse S₀ networkErrorType = onResponse S networkErrorType := by rw [hSe]; rfl
    rw [ho]
    exact .aborted he (by rw [hSe]; exact hk) hn hd hlen (by simpa using hf) hm hp
      (by rw [hSe]; exact hl) (by rw [halloc]; exact hend) (hu _) (hr _)

theorem registUserReq_move {cfg : Config} {s s' : State} {req src env outs}
    (h : onDscMsgRegistUserCltCltReq cfg s req src env = .ok (s', outs)) :
    Move cfg s (.registUserReq req src env) s' outs := by
  unfold onDscMsgRegistUserCltCltReq at h
  by_cases hn : s.conn.peers.length < cfg.endorsePeerCount
  · rw [if_pos hn] at h
    obtain ⟨rfl, rfl⟩ := Prod.mk.inj (Except.ok.inj h)
    exact .refused (r := (.regist, src, req.srcSessionID)) rfl (fun h => Nat.not_le_of_lt hn h.1) rfl rfl
  · rw [if_neg hn] at h
    exact request_move (.regist, src, req.srcSessionID)
      { newEndorseSession .regist env.raw with
        srcMsgAddr := src
        srcSessionID := req.srcSessionID
        channelID := req.channelID
        waitNotify := req.waitNotify }
      id
      (fun submitNode => .registUserReq
        { waitNotify := req.waitNotify
          submitNode
          ccID := req.ccID
          cltSessionID := s.core.sessionID
          channelID := req.channelID
          userKey := req.userKey
          userInfo := req.userInfo })
      (fun code => .upper src (.registUserRsp env.raw.allowRegist code req.srcSessionID [] []))
      (env.rand % cfg.endorsePeerCount) rfl (Nat.le_of_not_lt hn) rfl (Nat.mod_lt _ cfg.pos) (fun _ => rfl) rfl rfl rfl rfl
      rfl (fun S h1 h2 h3 => by simp [EndorseSession.tag, h1, h2, h3])
      (fun S => ⟨rfl, rfl, rfl, rfl, rfl, rfl⟩) (fun _ => rfl) (fun _ => rfl) h

theorem proposeReq_move {cfg : Config} {s s' : State} {req src env outs}
    (h : onDscMsgProposeCltCltReq cfg s req src env = .ok (s', outs)) :
    Move cfg s (.proposeReq req src env) s' outs := by
  unfold onDscMsgProposeCltCltReq at h
  by_cases hn : s.conn.peers.length < cfg.endorsePeerCount
  · rw [if_pos hn] at h
    obtain ⟨rfl, rfl⟩ := Prod.mk.inj (Except.ok.inj h)
    exact .refused (r := (.propose, src, req.srcSessionID)) rfl (fun h => Nat.not_le_of_lt hn h.1) rfl rfl
  · rw [if_neg hn] at h
    split at h
    · rename_i hd
      obtain ⟨rfl, rfl⟩ := Prod.mk.inj (Except.ok.inj h)
      exact .refused (r := (.propose, src, req.srcSessionID)) rfl (fun h => by simp [Event.decodes, hd] at h) rfl rfl
    · rename_i channelID hd
      exact request_move (.propose, src, req.srcSessionID) (newEndorseSession .propose env.raw)
        (fun S => { S with srcMsgAddr := src, srcSessionID := req.srcSessionID })
        (fun submitNode => .submitProposalReq
          { waitNotify := req.waitNotify
            submitNode
            ccID := req.ccID
            channelID
            cltSessionID := s.core.sessionID
            action := req.actionID
            proposal := req.proposal })
        (fun code => .upper src (.proposeRsp code req.srcSessionID []))
        (env.rand % cfg.endorsePeerCount) rfl (Nat.le_of_not_lt hn)
        (by rw [Event.decodes, hd]; rfl) (Nat.mod_lt _ cfg.pos) (fun _ => rfl) rfl rfl rfl rfl rfl
        (fun S _ _ h3 => by simp [EndorseSession.tag, h3])
        (fun S => ⟨rfl, rfl, rfl, rfl, rfl, rfl⟩) (fun _ => rfl) (fun _ => rfl) h

theorem sendQuery_eq (s : State) (k : SingleKind) (src : MsgAddr) (srcSessionID : UInt32) (sendErr : Bool)
    (msg : UInt32 → EsMsg) (failed : Int → Out) :
    sendQuery s k src srcSessionID sendErr msg failed =
      (match getMcpHandler s.conn with
      | (h, conn) =>
        if sendErr then .ok ({ s with conn }, [failed networkErrorType])
        else
          match h with
          | none => .error .nullPtr
          | some h => do
            let links ← (s.links.handleSession h).1.insert (s.links.handleSession h).2 s.core.next
            .ok ({ core := { s.core.openSingle ⟨k, src, srcSessionID, s.core.sessionID, (s.links.handleSession h).2⟩ with
                    sessionID := s.core.sessionID + 1 }
                   links, conn }, [.es h s.core.next (msg s.core.sessionID)])) :=
  rfl

theorem link_one {l l' : Links} {h p} (hl : (l.handleSession h).1.insert (l.handleSession h).2 p = .ok l') :
    l.link p [h] = .ok (l', [(l.handleSession h).2]) := link_cons_ok hl rfl

theorem sendQuery_aside {cfg : Config} {s s' : State} {e : Event} {k src srcSessionID sendErr msg failed outs}
    (he : e.isRequest = true)
    (hr : ∀ id, (msg id).request = none) (hv : ∀ id, (msg id).verdict = none)
    (hu : ∀ code, (failed code).isUpper) (hf : ∀ code, (failed code).reply = none)
    (h : sendQuery s k src srcSessionID sendErr msg failed = .ok (s', outs)) : Aside cfg s e s' outs := by
  rw [sendQuery_eq] at h
  split at h
  rename_i h₀ conn hg
  cases sendErr with
  | true =>
    obtain ⟨rfl, rfl⟩ := Prod.mk.inj (Except.ok.inj h)
    exact .refused (.picked hg) (hu _) (hf _)
  | false =>
    rw [if_neg (by simp)] at h
    cases h₀ with
    | none => cases h
    | some h₀ =>
      obtain ⟨links, hl, h⟩ := Except.bind_eq_ok.mp h
      obtain ⟨rfl, rfl⟩ := Prod.mk.inj (Except.ok.inj h)
      exact .queried (S := ⟨k, src, srcSessionID, s.core.sessionID, (s.links.handleSession h₀).2⟩) he hg (link_one hl) rfl
        (hr _) (hv _)

theorem queryUserReq_aside {cfg : Config} {s s' : State} {req src sendErr outs}
    (h : onDscMsgQueryUserInfoCltCltReq cfg s req src sendErr = .ok (s', outs)) :
    Aside cfg s (.queryUserReq req src sendErr) s' outs := by
  unfold onDscMsgQueryUserInfoCltCltReq at h
  simp only at h
  split at h
  · obtain ⟨rfl, rfl⟩ := Prod.mk.inj (Except.ok.inj h)
    exact .refused .same rfl rfl
  · exact sendQuery_aside rfl (fun _ => rfl) (fun _ => rfl) (fun _ => rfl) (fun _ => rfl) h

theorem queryTransReq_aside {cfg : Config} {s s' : State} {req src sendErr outs}
    (h : onDscMsgQueryTransInfoCltCltReq cfg s req src sendErr = .ok (s', outs)) :
    Aside cfg s (.queryTransReq req src sendErr) s' outs := by
  unfold onDscMsgQueryTransInfoCltCltReq at h
  simp only at h
  split at h
  · obtain ⟨rfl, rfl⟩ := Prod.mk.inj (Except.ok.inj h)
    exact .refused .same rfl rfl
  · split at h
    · obtain ⟨rfl, rfl⟩ := Prod.mk.inj (Except.ok.inj h)
      exact .refused .same rfl rfl
    · exact sendQuery_aside rfl (fun _ => rfl) (fun _ => rfl) (fun _ => rfl) (fun _ => rfl) h

/-! ## The answers of the endorsers -/

theorem endorseFailed_ended {s s' : State} {p S code outs} (env : AnswerEnv)
    (hS : s.core.heap p = some (.endorse S)) (h : endorseFailed s p S code env.cancelErr = .ok (s', outs)) :
    ∃ hsub, (cancelled code env ≠ [] → s.submitHandler S = .ok hsub) ∧ Ended s p S s' ∧
      outs = verdicts hsub p S.kind S.esSessionID (cancelled code env) ++ [onResponse S code] := by
  unfold endorseFailed at h
  by_cases hc : code = networkErrorType
  · simp only [if_pos hc] at h
    obtain ⟨cs, hcs, h⟩ := Except.bind_eq_ok.mp h
    obtain rfl := Except.ok.inj hcs
    obtain ⟨s'', hr, h⟩ := Except.bind_eq_ok.mp h
    obtain ⟨rfl, rfl⟩ := Prod.mk.inj (Except.ok.inj h)
    obtain ⟨links, hl, rfl⟩ := (release_eq_ok (S := S) (by exact hS)).mp hr
    refine ⟨⟨0, 0⟩, ?_, .mk hS hl, ?_⟩ <;> simp [cancelled, hc, verdicts]
  · simp only [if_neg hc] at h
    obtain ⟨hsub, hh, h⟩ := Except.bind_eq_ok.mp h
    obtain ⟨cs, hcs, h⟩ := Except.bind_eq_ok.mp h
    obtain ⟨s'', hr, h⟩ := Except.bind_eq_ok.mp h
    obtain ⟨rfl, rfl⟩ := Prod.mk.inj (Except.ok.inj h)
    obtain rfl := Except.ok.inj hcs
    obtain ⟨links, hl, rfl⟩ := (release_eq_ok (S := S) (by exact hS)).mp hr
    refine ⟨hsub, fun _ => hh, .mk hS hl, ?_⟩
    cases he : env.cancelErr with
    | true => simp [cancelled, hc, verdicts, he]
    | false => simp [cancelled, hc, verdicts, he, Choice.msg]

theorem Ended.of_put {s s' : State} {p S S₁} (hS : s.core.heap p = some (.endorse S))
    (ha : S₁.arrHandleSession = S.arrHandleSession)
    (h : Ended { s with core := s.core.put p (.endorse S₁) } p S₁ s') : Ended s p S s' := by
  obtain @⟨links, -, hl⟩ := h
  rw [put_finish]
  refine .mk hS ?_
  rw [← ha, ← put_live _ hS]
  exact hl

theorem countAnswer_some {S S₁ : EndorseSession} {a : Answer} (h : S.countAnswer a.content = some S₁) :
    S₁ = { S with content := a.content, succeedRspNum := S.succeedRspNum + 1 } ∧ (S.sees a).same = true := by
  unfold EndorseSession.countAnswer at h
  split at h
  · rename_i hnil
    exact ⟨(Option.some.inj h).symm, by simp [EndorseSession.sees, hnil]⟩
  · split at h
    · rename_i hsame
      refine ⟨?_, by simp [EndorseSession.sees, hsame]⟩
      rw [← hsame]
      exact (Option.some.inj h).symm
    · cases h

/-- What the service does with an answer whose session is found; the two handlers
differ where the contents do. -/
theorem answerCounted_move {cfg : Config} {s s' : State} {e : Event} {a p S S₁ outs}
    (ha : e.answer = some a) (hm : s.core.mapEndorse a.kind a.cltSessionID = some p)
    (hS : s.core.heap p = some (.endorse S)) (hk : S.kind = a.kind) (hc : a.code = okType)
    (hS₁ : S.countAnswer a.content = some S₁)
    (h : answerCounted cfg s p S₁ a.handler a.esSessionID a.env = .ok (s', outs)) : Move cfg s e s' outs := by
  obtain ⟨hS₁', hsame⟩ := countAnswer_some hS₁
  unfold answerCounted at h
  obtain ⟨hsub, hh, h⟩ := Except.bind_eq_ok.mp h
  have hcnt : (if a.handler = hsub then { S₁ with esSessionID := a.esSessionID } else S₁) = S.counted a hsub := by
    unfold EndorseSession.counted
    split <;> rw [hS₁']
  rw [hcnt] at h
  have hh' : s.submitHandler S = .ok hsub := by rw [hS₁'] at hh; exact hh
  have hkind : (S.counted a hsub).kind = a.kind := hk
  have hcode : (S.sees a).code = okType := hc
  by_cases hN : cfg.endorsePeerCount ≤ (S.succeedRspNum + 1).toNat
  · rw [if_pos (by exact hN)] at h
    cases hse : a.env.submitErr with
    | true =>
      rw [hse, if_pos rfl] at h
      obtain ⟨hsub', -, hend, rfl⟩ := endorseFailed_ended a.env (by simp) h
      have hj : judge cfg.endorsePeerCount a.kind S.succeedRspNum (S.sees a) = ([], some networkErrorType) := by
        rw [judge_counted hcode hsame, if_pos hN, if_pos (by exact hse)]
      have hend' : Ended s p S s' := Ended.of_put hS (show (S.counted a hsub).arrHandleSession = _ from rfl) hend
      have hmove : Move cfg s e s' (verdicts hsub' p a.kind S.esSessionID [] ++ [onResponse S networkErrorType]) :=
        .failed ha hm hS (fun h => absurd rfl h) hj hend'
      exact hmove
    | false =>
      rw [hse, if_neg (by simp)] at h
      obtain ⟨rfl, rfl⟩ := Prod.mk.inj (Except.ok.inj h)
      have hj : judge cfg.endorsePeerCount a.kind S.succeedRspNum (S.sees a) = ([.submit], none) := by
        rw [judge_counted hcode hsame, if_pos hN, if_neg (by simpa [EndorseSession.sees] using hse)]
      rw [hkind]
      exact .kept ha hm hS hh' hj
  · rw [if_neg (by exact hN)] at h
    obtain ⟨rfl, rfl⟩ := Prod.mk.inj (Except.ok.inj h)
    have hj : judge cfg.endorsePeerCount a.kind S.succeedRspNum (S.sees a) = ([], none) := by
      rw [judge_counted hcode hsame, if_neg hN]
    exact .kept ha hm hS hh' hj

theorem countAnswer_none {S : EndorseSession} {a : Answer} (h : S.countAnswer a.content = none) :
    (S.sees a).same = false := by
  unfold EndorseSession.countAnswer at h
  split at h
  · cases h
  · split at h
    · cases h
    · rename_i h1 h2; simp [EndorseSession.sees, h1, h2]

theorem endorseFailed_move {cfg : Config} {s s' : State} {e : Event} {a p S code outs}
    (ha : e.answer = some a) (hm : s.core.mapEndorse a.kind a.cltSessionID = some p)
    (hS : s.core.heap p = some (.endorse S)) (hk : S.kind = a.kind)
    (hj : judge cfg.endorsePeerCount a.kind S.succeedRspNum (S.sees a) = (cancelled code a.env, some code))
    (h : endorseFailed s p S code a.env.cancelErr = .ok (s', outs)) : Move cfg s e s' outs := by
  obtain ⟨hsub, hh, hend, rfl⟩ := endorseFailed_ended a.env hS h
  rw [hk]
  exact .failed ha hm hS hh hj hend

theorem registUserRsp_move {cfg : Config} {s s' : State} (hi : CoreInv s.core) {rsp h₀ env outs}
    (h : onHtsMsgRegistUserEsCltRsp cfg s rsp h₀ env = .ok (s', outs)) :
    Move cfg s (.registUserRsp rsp h₀ env) s' outs := by
  unfold onHtsMsgRegistUserEsCltRsp at h
  split at h
  · cases h
  rename_i p hm
  obtain ⟨S, hS, h⟩ := Except.bind_eq_ok.mp h
  rw [endorse_eq_ok] at hS
  obtain ⟨S', hS', hk, -⟩ := hi.endorse _ _ _ hm
  obtain rfl := Session.endorse.inj (Option.some.inj (hS.symm.trans hS'))
  by_cases hc : rsp.returnCode = okType
  · rw [if_pos hc] at h
    cases hal : rsp.allowRegist with
    | true =>
      rw [hal, if_pos rfl] at h
      split at h
      · rename_i S₁ hS₁
        exact answerCounted_move (a := ⟨.regist, rsp.cltSessionID, h₀, okType, rsp.userInitInfo, rsp.esSessionID, env⟩)
          (by simp [Event.answer, hc, hal]) hm hS hk rfl hS₁ h
      · rename_i hS₁
        refine endorseFailed_move
          (a := ⟨.regist, rsp.cltSessionID, h₀, okType, rsp.userInitInfo, rsp.esSessionID, env⟩)
          (by simp [Event.answer, hc, hal]) hm hS hk ?_ h
        rw [judge_mismatch rfl (countAnswer_none hS₁), if_neg (fun h => nomatch h.1)]
        rfl
    | false =>
      rw [hal, if_neg (by simp)] at h
      refine endorseFailed_move
        (a := ⟨.regist, rsp.cltSessionID, h₀, registUserIsRefused, rsp.userInitInfo, rsp.esSessionID, env⟩)
        (by simp [Event.answer, hc, hal]) hm hS hk ?_ h
      exact judge_error (show registUserIsRefused ≠ okType by decide)
  · rw [if_neg hc] at h
    refine endorseFailed_move
      (a := ⟨.regist, rsp.cltSessionID, h₀, rsp.returnCode, rsp.userInitInfo, rsp.esSessionID, env⟩)
      (by simp [Event.answer, hc]) hm hS hk ?_ h
    exact judge_error hc

theorem submitProposalRsp_move {cfg : Config} {s s' : State} (hi : CoreInv s.core) {rsp h₀ env outs}
    (hm : s.core.mapEndorse .propose rsp.cltSessionID ≠ none)
    (h : onHtsMsgSubmitProposalEsCltRsp cfg s rsp h₀ env = .ok (s', outs)) :
    Move cfg s (.submitProposalRsp rsp h₀ env) s' outs := by
  unfold onHtsMsgSubmitProposalEsCltRsp at h
  split at h
  · rename_i hn; exact absurd hn hm
  rename_i p hm
  obtain ⟨S, hS, h⟩ := Except.bind_eq_ok.mp h
  rw [endorse_eq_ok] at hS
  obtain ⟨S', hS', hk, -⟩ := hi.endorse _ _ _ hm
  obtain rfl := Session.endorse.inj (Option.some.inj (hS.symm.trans hS'))
  obtain ⟨a, ha⟩ : ∃ a, Event.answer (.submitProposalRsp rsp h₀ env) = some a := ⟨_, rfl⟩
  obtain rfl := Option.some.inj ha
  by_cases hc : rsp.returnCode = okType
  · rw [if_pos hc] at h
    split at h
    · rename_i S₁ hS₁
      exact answerCounted_move ha hm hS hk hc hS₁ h
    · rename_i hS₁
      have hsame := countAnswer_none (a := ⟨.propose, rsp.cltSessionID, h₀, rsp.returnCode, rsp.transContent,
        rsp.esSessionID, env⟩) hS₁
      by_cases hN : cfg.endorsePeerCount ≤ S.succeedRspNum.toNat
      · rw [if_pos hN] at h
        obtain ⟨hsub, hh, h⟩ := Except.bind_eq_ok.mp h
        cases hse : env.submitErr with
        | true =>
          rw [hse, if_pos rfl] at h
          obtain ⟨hsub', -, hend, rfl⟩ := endorseFailed_ended env hS h
          have hmove : Move cfg s (.submitProposalRsp rsp h₀ env) s'
              (verdicts hsub' p .propose S.esSessionID [] ++ [onResponse S networkErrorType]) := by
            refine .failed ha hm hS (fun h => absurd rfl h) ?_ hend
            rw [judge_mismatch hc hsame, if_pos ⟨rfl, hN⟩, if_pos (by exact hse)]
          exact hmove
        | false =>
          rw [hse, if_neg (by simp)] at h
          obtain ⟨⟨s'', outs'⟩, hf, h⟩ := Except.bind_eq_ok.mp h
          obtain ⟨rfl, rfl⟩ := Prod.mk.inj (Except.ok.inj h)
          obtain ⟨hsub', hh', hend, rfl⟩ := endorseFailed_ended env hS hf
          have heq : verdicts hsub' p S.kind S.esSessionID (cancelled systemErrorType env) =
              verdicts hsub p S.kind S.esSessionID (cancelled systemErrorType env) := by
            by_cases hcan : cancelled systemErrorType env = []
            · rw [hcan]; rfl
            · rw [Except.ok.inj ((hh' hcan).symm.trans hh)]
          rw [heq, hk]
          have hmove : Move cfg s (.submitProposalRsp rsp h₀ env) s'' (verdicts hsub p .propose S.esSessionID
              (.submit :: cancelled systemErrorType env) ++ [onResponse S systemErrorType]) := by
            refine .failed ha hm hS (fun _ => hh) ?_ hend
            rw [judge_mismatch hc hsame, if_pos ⟨rfl, hN⟩, if_neg (by simpa [EndorseSession.sees] using hse)]
            rfl
          exact hmove
      · rw [if_neg hN] at h
        refine endorseFailed_move ha hm hS hk ?_ h
        rw [judge_mismatch hc hsame, if_neg fun h => hN h.2]
        rfl
  · rw [if_neg hc] at h
    exact endorseFailed_move ha hm hS hk (judge_error hc) h

/-! ## Submits, notifies and queries -/

theorem createWaitNotify_noted {s s' : State} {S} (h : createWaitNotify s S = .ok s') : Noted s S s' := by
  unfold createWaitNotify at h
  cases hw : S.waitNotify with
  | false =>
    rw [hw, if_neg (by simp)] at h
    obtain rfl := Except.ok.inj h
    exact .none hw
  | true =>
    rw [hw, if_pos rfl] at h
    split at h
    · cases h
    · rename_i hp hsub
      obtain ⟨links, hl, h⟩ := Except.bind_eq_ok.mp h
      obtain rfl := Except.ok.inj h
      exact .some hw hsub hl

theorem submitTransaction_move {cfg : Config} {s s' : State} {e : Event} (hi : CoreInv s.core)
    {k id h₀ code answer outs}
    (he : e.submitRsp = some (k, id, h₀, code)) (hm : s.core.mapEndorse k id ≠ none)
    (hu : ∀ S, (answer S).isUpper) (hr : ∀ S : EndorseSession, S.kind = k → (answer S).reply = some S.tag)
    (h : onHtsMsgSubmitTransaction s k id code answer = .ok (s', outs)) : Move cfg s e s' outs := by
  unfold onHtsMsgSubmitTransaction at h
  split at h
  · rename_i hn; exact absurd hn hm
  rename_i p hm
  simp only [hi.eraseEndorseKey_eq hm] at h
  obtain ⟨S, hS, h⟩ := Except.bind_eq_ok.mp h
  rw [endorse_eq_ok] at hS
  have hS : s.core.heap p = some (.endorse S) := hS
  obtain ⟨S', hS', hk, -⟩ := hi.endorse _ _ _ hm
  obtain rfl := Session.endorse.inj (Option.some.inj (hS.symm.trans hS'))
  by_cases hc : code = okType
  · rw [if_pos hc] at h
    obtain ⟨s₁, hw, h⟩ := Except.bind_eq_ok.mp h
    obtain ⟨s₂, hrel, h⟩ := Except.bind_eq_ok.mp h
    obtain ⟨rfl, rfl⟩ := Prod.mk.inj (Except.ok.inj h)
    subst hc
    have hp : p ≠ s.core.next := Nat.ne_of_lt (hi.fresh _ _ hS)
    cases createWaitNotify_noted hw with
    | none hn =>
      obtain ⟨links, hl, rfl⟩ := (release_eq_ok (S := S) (by exact hS)).mp hrel
      exact .submitted he hm hS (.none hn) (.mk hS hl) (hu S) (hr S hk)
    | some hn hsub hins =>
      have hS₁ : ∀ W, (s.core.openSingle W).heap p = some (.endorse S) := by
        intro W
        simp [Core.openSingle, hp, hS]
      obtain ⟨links, hl, rfl⟩ := (release_eq_ok (S := S) (by exact hS₁ _)).mp hrel
      exact .submitted he hm hS (.some hn hsub hins) (.mk (hS₁ _) hl) (hu S) (hr S hk)
  · rw [if_neg hc] at h
    obtain ⟨rfl, rfl⟩ := Prod.mk.inj (Except.ok.inj h)
    exact .orphaned he hm hc

theorem submitRegistRsp_move {cfg : Config} {s s' : State} (hi : CoreInv s.core) {rsp h₀ outs}
    (hm : s.core.mapEndorse .regist rsp.cltSessionID ≠ none)
    (h : onHtsMsgSubmitRegistTransactionEsCltRsp cfg s rsp = .ok (s', outs)) :
    Move cfg s (.submitRegistRsp rsp h₀) s' outs := by
  refine submitTransaction_move hi rfl hm ?_ ?_ h
  · intro S
    dsimp only
    split <;> rfl
  · intro S hk
    dsimp only
    split <;> exact onResponseRegist_reply hk _ _ _ _

theorem submitProposalTransRsp_move {cfg : Config} {s s' : State} (hi : CoreInv s.core) {rsp h₀ outs}
    (hm : s.core.mapEndorse .propose rsp.cltSessionID ≠ none)
    (h : onHtsMsgSubmitProposalTransactionEsCltRsp cfg s rsp = .ok (s', outs)) :
    Move cfg s (.submitProposalTransRsp rsp h₀) s' outs :=
  submitTransaction_move hi rfl hm (fun _ => rfl) (fun _ hk => onResponsePropose_reply hk _ _) h

theorem onHtsMsgSingle_aside {cfg : Config} {s s' : State} {e : Event} (hi : CoreInv s.core) {k id answer outs}
    (hu : ∀ S, (answer S).isUpper) (hr : ∀ S, (answer S).reply = none)
    (h : onHtsMsgSingle s k id answer = .ok (s', outs)) : Aside cfg s e s' outs := by
  unfold onHtsMsgSingle at h
  split at h
  · obtain ⟨rfl, rfl⟩ := Prod.mk.inj (Except.ok.inj h)
    exact .quiet .same
  rename_i p hm
  simp only [hi.eraseSingleKey_eq hm] at h
  obtain ⟨S, hS, h⟩ := Except.bind_eq_ok.mp h
  rw [single_eq_ok] at hS
  obtain ⟨s₂, hrel, h⟩ := Except.bind_eq_ok.mp h
  obtain ⟨rfl, rfl⟩ := Prod.mk.inj (Except.ok.inj h)
  obtain ⟨links, hl, rfl⟩ := (releaseSingle_eq_ok (S := S) (by exact hS)).mp hrel
  exact .ended (.mk hS hl) (hu S) (hr S)

/-! ## Timers and connections -/

theorem timer_move {cfg : Config} {s s' : State} {p outs} (ha : s.core.armed p = true)
    (h : onTimer { s with core := s.core.cancelDscTimer p } p = .ok (s', outs)) : Move cfg s (.timer p) s' outs := by
  have haside : Aside cfg s (.timer p) s' outs → Move cfg s (.timer p) s' outs :=
    .aside rfl (fun _ h => by cases h) (fun _ _ _ _ h => by cases h)
  unfold onTimer at h
  split at h
  · cases h
  · obtain ⟨S, s'', hend, hr⟩ := onTimeOutEndorse_ended h
    obtain ⟨rfl, rfl⟩ := Prod.mk.inj hr
    exact .timedOut rfl ha hend
  · rename_i S hS
    split at h
    · rename_i k hk
      obtain ⟨rfl, rfl⟩ := Prod.mk.inj (Except.ok.inj h)
      exact haside (.fired hS hk)
    · obtain ⟨S, s'', hend, hr⟩ := onTimeOutSingle_ended h
      obtain ⟨rfl, rfl⟩ := Prod.mk.inj hr
      exact haside (.ended hend rfl (onResponseSingle_reply _ _ _ _))

theorem netErrorLoop_losses {hp : HPtr} : ∀ {n i s s' outs}, netErrorLoop hp n i s = .ok (s', outs) →
    Losses s outs s' := by
  intro n
  induction n with
  | zero =>
    intro i s s' outs h
    obtain ⟨rfl, rfl⟩ := Prod.mk.inj (Except.ok.inj h)
    exact .nil
  | succ n ih =>
    intro i s s' outs h
    unfold netErrorLoop at h
    split at h
    · cases h
    split at h
    · cases h
    rename_i p _
    obtain ⟨⟨s₁, o₁⟩, hn, h⟩ := Except.bind_eq_ok.mp h
    obtain ⟨⟨s₂, o₂⟩, hl, h⟩ := Except.bind_eq_ok.mp h
    obtain ⟨rfl, rfl⟩ := Prod.mk.inj (Except.ok.inj h)
    have hrest := ih hl
    unfold onNetError at hn
    split at hn
    · cases hn
    · obtain ⟨S, s'', hend, hr⟩ := onNetErrorEndorse_ended hn
      obtain ⟨rfl, rfl⟩ := Prod.mk.inj hr
      exact .endorse hend hrest
    · split at hn
      · obtain ⟨rfl, rfl⟩ := Prod.mk.inj (Except.ok.inj hn)
        exact hrest
      · obtain ⟨S, s'', hend, hr⟩ := onNetErrorSingle_ended hn
        obtain ⟨rfl, rfl⟩ := Prod.mk.inj hr
        exact .single hend hrest

theorem networkError_move {cfg : Config} {s s' : State} {h₀ outs}
    (h : onNetworkError cfg s h₀ = .ok (s', outs)) : Move cfg s (.networkError h₀) s' outs := by
  unfold onNetworkError at h
  simp only at h
  split at h
  · cases h
  split at h
  · obtain ⟨rfl, rfl⟩ := Prod.mk.inj (Except.ok.inj h)
    exact .aside rfl (fun _ h => by cases h) (fun _ _ _ _ h => by cases h) (.quiet (.disconnected rfl))
  rename_i hp hm
  split at h
  · cases h
  rename_i H hH
  obtain ⟨⟨s₁, o₁⟩, hl, h⟩ := Except.bind_eq_ok.mp h
  obtain ⟨rfl, rfl⟩ := Prod.mk.inj (Except.ok.inj h)
  exact .lost rfl hm hH (netErrorLoop_losses hl)

/-! ## The step -/

theorem step_move {cfg : Config} {s s' : State} {e : Event} {outs} (hi : CoreInv s.core)
    (h : step cfg s e = .ok (s', outs)) : Move cfg s e s' outs := by
  cases e with
  | registUserReq req src env => exact registUserReq_move h
  | proposeReq req src env => exact proposeReq_move h
  | queryUserReq req src sendErr =>
    exact .aside rfl (fun _ h => by cases h) (fun _ _ _ _ h => by cases h) (queryUserReq_aside h)
  | queryTransReq req src sendErr =>
    exact .aside rfl (fun _ h => by cases h) (fun _ _ _ _ h => by cases h) (queryTransReq_aside h)
  | registUserRsp rsp h₀ env => exact registUserRsp_move hi h
  | submitProposalRsp rsp h₀ env =>
    by_cases hm : s.core.mapEndorse .propose rsp.cltSessionID = none
    · simp only [step, onHtsMsgSubmitProposalEsCltRsp, hm] at h
      obtain ⟨rfl, rfl⟩ := Prod.mk.inj (Except.ok.inj h)
      exact .aside rfl (fun a h => by obtain rfl := Option.some.inj h; exact hm) (fun _ _ _ _ h => by cases h) (.quiet .same)
    · exact submitProposalRsp_move hi hm h
  | submitRegistRsp rsp h₀ =>
    by_cases hm : s.core.mapEndorse .regist rsp.cltSessionID = none
    · simp only [step, onHtsMsgSubmitRegistTransactionEsCltRsp, onHtsMsgSubmitTransaction, hm] at h
      obtain ⟨rfl, rfl⟩ := Prod.mk.inj (Except.ok.inj h)
      exact .aside rfl (fun _ h => by cases h) (fun _ _ _ _ h => by cases h; exact hm) (.quiet .same)
    · exact submitRegistRsp_move hi hm h
  | submitProposalTransRsp rsp h₀ =>
    by_cases hm : s.core.mapEndorse .propose rsp.cltSessionID = none
    · simp only [step, onHtsMsgSubmitProposalTransactionEsCltRsp, onHtsMsgSubmitTransaction, hm] at h
      obtain ⟨rfl, rfl⟩ := Prod.mk.inj (Except.ok.inj h)
      exact .aside rfl (fun _ h => by cases h) (fun _ _ _ _ h => by cases h; exact hm) (.quiet .same)
    · exact submitProposalTransRsp_move hi hm h
  | transNotify k rsp h₀ =>
    exact .aside rfl (fun _ h => by cases h) (fun _ _ _ _ h => by cases h)
      (onHtsMsgSingle_aside hi (fun _ => rfl) (fun _ => onResponseSingle_reply _ _ _ _) h)
  | queryUserRsp rsp h₀ =>
    exact .aside rfl (fun _ h => by cases h) (fun _ _ _ _ h => by cases h)
      (onHtsMsgSingle_aside hi (fun _ => rfl) (fun _ => onResponseSingle_reply _ _ _ _) h)
  | queryTransRsp rsp h₀ =>
    exact .aside rfl (fun _ h => by cases h) (fun _ _ _ _ h => by cases h)
      (onHtsMsgSingle_aside hi (fun _ => rfl) (fun _ => onResponseSingle_reply _ _ _ _) h)
  | timer p =>
    cases ha : s.core.armed p with
    | true =>
      simp only [step, ha, if_true] at h
      exact timer_move ha h
    | false =>
      simp only [step, ha] at h
      obtain ⟨rfl, rfl⟩ := Prod.mk.inj (Except.ok.inj h)
      exact .aside rfl (fun _ h => by cases h) (fun _ _ _ _ h => by cases h) (.quiet .same)
  | connected h₀ peerRand handleRand rawIndex =>
    simp only [step, onConnectedNodify] at h
    split at h
    · cases h
    · obtain ⟨rfl, rfl⟩ := Prod.mk.inj (Except.ok.inj h)
      exact .aside rfl (fun _ h => by cases h) (fun _ _ _ _ h => by cases h) (.quiet (.connected rfl))
  | networkError h₀ => exact networkError_move h

end VProtocol.Client
