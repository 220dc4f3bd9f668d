import VProtocol.Client.Symmetry

/-!
# Wait-notify sessions

What a step does to the sessions that wait for the notify of a transaction: a submit answer
makes one, its notify ends it, its timer only goes off, and every other step leaves them,
their timers and their maps as they are.
-/

namespace VProtocol.Client

open Function (update)

def Core.waiting (c : Core) (p : Ptr) : Option SingleSession :=
  match c.heap p with
  | some (.single W) =>
    match W.kind with
    | .waitNotify _ => some W
    | _ => none
  | _ => none

def Out.isNotify : Out → Bool
  | .upper _ (.notify ..) => true
  | _ => false

structure WaitsSame (c c' : Core) : Prop where
  waiting : ∀ q, c'.waiting q = c.waiting q
  armed : ∀ q W, c.waiting q = some W → c'.armed q = c.armed q
  map : ∀ k id, c'.mapSingle (.waitNotify k) id = c.mapSingle (.waitNotify k) id

/-- The event is not a timer or a notify of a wait-notify session, and asks for none. -/
structure Spares (s : State) (e : Event) : Prop where
  timer : ∀ p, e = .timer p → s.core.armed p = true → s.core.waiting p = none
  notify : ∀ k rsp h, e = .transNotify k rsp h → s.core.mapSingle (.waitNotify k) rsp.cltSessionID = none
  submit : ∀ k id h p S, e.submitRsp = some (k, id, h, okType) → s.core.mapEndorse k id = some p →
    s.core.heap p = some (.endorse S) → S.waitNotify = false

def EndorseSession.waitSession (S : EndorseSession) (hp : HPtr) : SingleSession :=
  ⟨.waitNotify S.kind, S.srcMsgAddr, S.srcSessionID, S.cltSessionID, hp⟩

inductive NotifyMove (s : State) (e : Event) (s' : State) (outs : List Out) : Prop
  | same (he : Spares s e) (hs : WaitsSame s.core s'.core) (ho : ∀ o ∈ outs, o.isNotify = false)
  | created {k id h p S hp} (he : e.submitRsp = some (k, id, h, okType)) (hm : s.core.mapEndorse k id = some p)
      (hS : s.core.heap p = some (.endorse S)) (hw : S.waitNotify = true) (hsub : S.submitEs = some hp)
      (hs : WaitsSame (s.core.openSingle (S.waitSession hp)) s'.core) (ho : ∀ o ∈ outs, o.isNotify = false)
  | notified {k rsp h p W} (he : e = .transNotify k rsp h)
      (hm : s.core.mapSingle (.waitNotify k) rsp.cltSessionID = some p) (hend : SingleEnded s p W s')
      (ho : outs = [onResponseSingle W rsp.returnCode rsp.transResult []])
  | fired {p W} (he : e = .timer p) (ha : s.core.armed p = true) (hW : s.core.waiting p = some W)
      (hs : s' = { s with core := s.core.cancelDscTimer p }) (ho : outs = [])

/-! ## Sessions that stay -/

section
variable {c c' c'' : Core} {p q : Ptr} {W : SingleSession}

theorem waiting_eq_some : c.waiting p = some W ↔ c.heap p = some (.single W) ∧ ∃ k, W.kind = .waitNotify k := by
  unfold Core.waiting
  split
  · rename_i V hV
    split
    · rename_i k hk
      rw [hV]
      refine ⟨fun h => ?_, fun ⟨h, _⟩ => ?_⟩
      · obtain rfl := Option.some.inj h
        exact ⟨rfl, k, hk⟩
      · rw [Session.single.inj (Option.some.inj h)]
    · rename_i hno
      refine ⟨fun h => (by cases h), fun ⟨h, k, hk⟩ => ?_⟩
      rw [hV] at h
      obtain rfl := Session.single.inj (Option.some.inj h)
      exact absurd hk (hno k)
  · rename_i hno
    exact ⟨fun h => (by cases h), fun ⟨h, _⟩ => absurd h (hno W)⟩

theorem waiting_congr (h : c'.heap p = c.heap p) : c'.waiting p = c.waiting p := by
  rw [Core.waiting, Core.waiting, h]

theorem waiting_none (h : c.heap p = none) : c.waiting p = none := by
  rw [Core.waiting, h]

theorem waiting_endorse {S : EndorseSession} (h : c.heap p = some (.endorse S)) : c.waiting p = none := by
  rw [Core.waiting, h]

theorem waiting_other (h : c.heap p = some (.single W)) (hk : ∀ k, W.kind ≠ .waitNotify k) : c.waiting p = none := by
  cases hw : c.waiting p with
  | none => rfl
  | some V =>
    obtain ⟨hV, k, hkV⟩ := waiting_eq_some.mp hw
    rw [h] at hV
    obtain rfl := Session.single.inj (Option.some.inj hV)
    exact absurd hkV (hk k)

theorem WaitsSame.refl : WaitsSame c c := ⟨fun _ => rfl, fun _ _ _ => rfl, fun _ _ => rfl⟩

theorem WaitsSame.trans (h : WaitsSame c c') (h' : WaitsSame c' c'') : WaitsSame c c'' where
  waiting q := (h'.waiting q).trans (h.waiting q)
  armed q W hW := (h'.armed q W ((h.waiting q).trans hW)).trans (h.armed q W hW)
  map k id := (h'.map k id).trans (h.map k id)

theorem waitsSame_of (hp : c.waiting p = none) (hp' : c'.waiting p = none)
    (hq : ∀ q ≠ p, c'.heap q = c.heap q ∧ c'.armed q = c.armed q)
    (hm : ∀ k id, c'.mapSingle (.waitNotify k) id = c.mapSingle (.waitNotify k) id) : WaitsSame c c' where
  waiting q := by
    by_cases h : q = p
    · subst h
      rw [hp, hp']
    · exact waiting_congr (hq q h).1
  armed q W hW := by
    apply (hq q _).2
    intro h
    subst h
    rw [hp] at hW
    cases hW
  map := hm

theorem finish_waitsSame {S} (hS : c.heap p = some (.endorse S)) : WaitsSame c (c.finish p) := by
  apply waitsSame_of (waiting_endorse hS) (waiting_none (by simp [finish_heap]))
  · intro q hq
    simp [Core.finish, hq]
  · exact fun _ _ => rfl

theorem finishSingle_waitsSame (hi : CoreInv c) (hW : c.heap p = some (.single W)) (hk : ∀ k, W.kind ≠ .waitNotify k) :
    WaitsSame c (c.finishSingle p) := by
  apply waitsSame_of (waiting_other hW hk) (waiting_none (by simp [finishSingle_heap]))
  · intro q hq
    simp [Core.finishSingle, hq]
  · intro k id
    apply if_neg
    intro hm
    obtain ⟨V, hV, hkV, -⟩ := hi.single _ _ _ hm
    rw [hW] at hV
    obtain rfl := Session.single.inj (Option.some.inj hV)
    exact hk k hkV

theorem alloc_waitsSame (hi : CoreInv c) (S : EndorseSession) : WaitsSame c (c.alloc (.endorse S)) := by
  apply waitsSame_of (waiting_none hi.heap_next) (waiting_endorse (alloc_heap_next c _))
  · intro q hq
    simp [hq]
  · exact fun _ _ => rfl

theorem openEndorse_waitsSame (hi : CoreInv c) (S : EndorseSession) : WaitsSame c (c.openEndorse S) := by
  have hS : (c.openEndorse S).heap c.next = some (.endorse S) := alloc_heap_next c _
  apply waitsSame_of (waiting_none hi.heap_next) (waiting_endorse hS)
  · intro q hq
    simp [Core.openEndorse, hq]
  · exact fun _ _ => rfl

theorem openSingle_waitsSame (hi : CoreInv c) (hk : ∀ k, W.kind ≠ .waitNotify k) : WaitsSame c (c.openSingle W) := by
  have hW : (c.openSingle W).heap c.next = some (.single W) := alloc_heap_next c _
  apply waitsSame_of (waiting_none hi.heap_next) (waiting_other hW hk)
  · intro q hq
    simp [Core.openSingle, hq]
  · intro k id
    have hne : SingleKind.waitNotify k ≠ W.kind := Ne.symm (hk k)
    simp [Core.openSingle, hne]

theorem waiting_openSingle {S : EndorseSession} {hp : HPtr} :
    (c.openSingle (S.waitSession hp)).waiting q = if q = c.next then some (S.waitSession hp) else c.waiting q := by
  split
  · rename_i hq
    subst hq
    exact waiting_eq_some.mpr ⟨alloc_heap_next _ _, S.kind, rfl⟩
  · rename_i hq
    exact waiting_congr (by simp [Core.openSingle, hq])

theorem put_waitsSame {S} (S' : EndorseSession) (hS : c.heap p = some (.endorse S)) :
    WaitsSame c (c.put p (.endorse S')) := by
  apply waitsSame_of (waiting_endorse hS) (waiting_endorse (S := S') (by simp))
  · intro q hq
    simp [hq]
  · exact fun _ _ => rfl

end

section
variable {cfg : Config} {s s' s₁ : State} {e : Event} {outs : List Out} {p : Ptr} {hp : HPtr}

theorem Ended.waitsSame {S} (h : Ended s p S s') : WaitsSame s.core s'.core := by
  obtain ⟨hS, -⟩ := h
  exact finish_waitsSame hS

theorem SingleEnded.waitsSame {W} (h : SingleEnded s p W s') (hi : CoreInv s.core) (hk : ∀ k, W.kind ≠ .waitNotify k) :
    WaitsSame s.core s'.core := by
  obtain ⟨hW, -⟩ := h
  exact finishSingle_waitsSame hi hW hk

theorem kind_ne_of_isWaitNotify {W : SingleSession} (h : (Session.single W).isWaitNotify = false) (k : Kind) :
    W.kind ≠ .waitNotify k := by
  intro hk
  simp [Session.isWaitNotify, hk] at h

theorem Gone.waitsSame {x} (h : Gone s p x s') (hi : CoreInv s.core) (hw : x.isWaitNotify = false) :
    WaitsSame s.core s'.core := by
  cases h with
  | endorse h => exact h.waitsSame
  | single h => exact h.waitsSame hi (kind_ne_of_isWaitNotify hw)

/-! ## Messages that are no notify -/

theorem isNotify_of_reply {o : Out} {r} (h : o.reply = some r) : o.isNotify = false := by
  cases o with
  | es => rfl
  | upper _ m => cases m <;> first | rfl | cases h

theorem one_isNotify {o : Out} (h : o.isNotify = false) : ∀ o' ∈ [o], o'.isNotify = false := by
  intro o' ho'
  rw [List.mem_singleton.mp ho']
  exact h

theorem onResponse_isNotify (S : EndorseSession) (code : Int) : (onResponse S code).isNotify = false :=
  isNotify_of_reply (onResponse_reply S code)

theorem onResponseSingle_isNotify {W : SingleSession} (hk : ∀ k, W.kind ≠ .waitNotify k) (code : Int) (b : Bool)
    (x : Blob) : (onResponseSingle W code b x).isNotify = false := by
  unfold onResponseSingle
  cases hw : W.kind with
  | waitNotify k => exact absurd hw (hk k)
  | queryUser => rfl
  | queryTrans => rfl

theorem lossAnswer_isNotify {x : Session} (hw : x.isWaitNotify = false) : x.lossAnswer.isNotify = false := by
  cases x with
  | endorse S => exact onResponse_isNotify S _
  | single W => exact onResponseSingle_isNotify (kind_ne_of_isWaitNotify hw) _ _ _

theorem requests_isNotify {rand : Nat} {msg : Bool → EsMsg} : ∀ {hs : List McpHandler} {idx : Nat},
    ∀ o ∈ requests p rand msg idx hs, o.isNotify = false := by
  intro hs
  induction hs with
  | nil => intro idx o ho; cases ho
  | cons h hs ih =>
    intro idx o ho
    rcases List.mem_cons.mp ho with rfl | ho
    · rfl
    · exact ih o ho

theorem verdicts_isNotify {h : McpHandler} {k : Kind} {es : UInt32} {cs : List Choice} :
    ∀ o ∈ verdicts h p k es cs, o.isNotify = false := by
  intro o ho
  obtain ⟨c, -, rfl⟩ := List.mem_map.mp ho
  rfl

/-! ## What a step does to them -/

theorem netErrorLoop_waitsSame : ∀ {n i s s' outs}, CoreInv s.core → netErrorLoop hp n i s = .ok (s', outs) →
    WaitsSame s.core s'.core ∧ ∀ o ∈ outs, o.isNotify = false := by
  intro n
  induction n with
  | zero =>
    intro i s s' outs _ h
    obtain ⟨rfl, rfl⟩ := Prod.mk.inj (Except.ok.inj h)
    exact ⟨.refl, fun _ ho => by cases ho⟩
  | succ n ih =>
    intro i s s' outs hi h
    unfold netErrorLoop at h
    split at h
    · cases h
    split at h
    · cases h
    obtain ⟨⟨s₁, o₁⟩, hn, h⟩ := Except.bind_eq_ok.mp h
    obtain ⟨⟨s₂, o₂⟩, hl, h⟩ := Except.bind_eq_ok.mp h
    obtain ⟨rfl, rfl⟩ := Prod.mk.inj (Except.ok.inj h)
    obtain ⟨x, -, ⟨-, rfl, rfl⟩ | ⟨hw, hgone, rfl⟩⟩ := onNetError_cases hn
    · exact ih hi hl
    · have hi₁ : CoreInv s₁.core := by
        cases hgone with
        | endorse hend => exact hend.coreInv hi
        | single hend => exact hend.coreInv hi
      obtain ⟨hs, ho⟩ := ih hi₁ hl
      refine ⟨(hgone.waitsSame hi hw).trans hs, fun o hmem => ?_⟩
      rcases List.mem_cons.mp hmem with rfl | hmem
      · exact lossAnswer_isNotify hw
      · exact ho o hmem

theorem spares_of (ht : e.timedOut = none) (hn : ∀ k rsp h, e ≠ .transNotify k rsp h) (hs : e.submitRsp = none) :
    Spares s e := by
  refine ⟨fun p he => ?_, fun k rsp h he => absurd he (hn k rsp h), fun k id h p S he => ?_⟩
  · rw [he] at ht; cases ht
  · rw [hs] at he; cases he

theorem spares_of_asks {r} (h : e.asks = some r) : Spares s e := by
  cases e with
  | registUserReq => exact spares_of rfl (fun _ _ _ => nofun) rfl
  | proposeReq => exact spares_of rfl (fun _ _ _ => nofun) rfl
  | _ => cases h

theorem spares_of_answer {a} (h : e.answer = some a) : Spares s e := by
  cases e with
  | registUserRsp => exact spares_of rfl (fun _ _ _ => nofun) rfl
  | submitProposalRsp => exact spares_of rfl (fun _ _ _ => nofun) rfl
  | _ => cases h

theorem spares_of_submit {k id h code} (he : e.submitRsp = some (k, id, h, code))
    (hno : ∀ p S, code = okType → s.core.mapEndorse k id = some p → s.core.heap p = some (.endorse S) →
      S.waitNotify = false) : Spares s e := by
  refine ⟨fun q hq => ?_, fun k rsp h hq => ?_, fun k' id' h' p S he' hm hS => ?_⟩
  · rw [hq] at he; cases he
  · rw [hq] at he; cases he
  · rw [he] at he'
    simp only [Option.some.injEq, Prod.mk.injEq] at he'
    obtain ⟨rfl, rfl, -, hok⟩ := he'
    exact hno p S hok hm hS

theorem idle_notify {s₀ : State} {os : List Out} (h : (.ok (s₀, os) : Res (State × List Out)) = .ok (s', outs))
    (he : Spares s e) (hs : s₀.core = s.core) (ho : ∀ o ∈ os, o.isNotify = false) : NotifyMove s e s' outs := by
  obtain ⟨rfl, rfl⟩ := Prod.mk.inj (Except.ok.inj h)
  exact .same he (hs ▸ .refl) ho

theorem notify_of_noted {k id h S} (hw : Noted s S s₁) (he : e.submitRsp = some (k, id, h, okType))
    (hm : s.core.mapEndorse k id = some p) (hS : s.core.heap p = some (.endorse S)) (hend : Ended s₁ p S s')
    (ho : ∀ o ∈ outs, o.isNotify = false) : NotifyMove s e s' outs := by
  cases hw with
  | none hn =>
    refine .same (spares_of_submit he fun p' S' _ hm' hS' => ?_) hend.waitsSame ho
    obtain rfl := Option.some.inj (hm.symm.trans hm')
    obtain rfl := Session.endorse.inj (Option.some.inj (hS.symm.trans hS'))
    exact hn
  | some hn hsub => exact .created he hm hS hn hsub hend.waitsSame ho

theorem Move.notify (h : Move cfg s e s' outs) (hi : CoreInv s.core) (hno : e.lost = none)
    (haside : e.asks = none → (∀ a, e.answer = some a → s.core.mapEndorse a.kind a.cltSessionID = none) →
      (∀ k id h code, e.submitRsp = some (k, id, h, code) → s.core.mapEndorse k id = none) →
      NotifyMove s e s' outs) : NotifyMove s e s' outs := by
  cases h with
  | aside he ha hr => exact haside he ha hr
  | refused he _ _ hr => exact .same (spares_of_asks he) .refl (one_isNotify (isNotify_of_reply hr))
  | aborted he _ _ _ _ _ _ _ _ hend _ hr =>
    refine .same (spares_of_asks he) ((alloc_waitsSame hi _).trans hend.waitsSame) fun o ho => ?_
    rcases List.mem_append.mp ho with ho | ho
    · exact requests_isNotify o ho
    · rcases List.mem_cons.mp ho with rfl | ho
      · exact onResponse_isNotify _ _
      · exact one_isNotify (isNotify_of_reply hr) o ho
  | opened he => exact .same (spares_of_asks he) (openEndorse_waitsSame hi _) requests_isNotify
  | kept ha _ hS => exact .same (spares_of_answer ha) (put_waitsSame _ hS) verdicts_isNotify
  | failed ha _ _ _ _ hend =>
    refine .same (spares_of_answer ha) hend.waitsSame fun o ho => ?_
    rcases List.mem_append.mp ho with ho | ho
    · exact verdicts_isNotify o ho
    · exact one_isNotify (onResponse_isNotify _ _) o ho
  | orphaned he hm hc =>
    exact .same (spares_of_submit he fun _ _ hok => absurd hok hc) ⟨fun _ => rfl, fun _ _ _ => rfl, fun _ _ => rfl⟩ nofun
  | submitted he hm hS hw hend _ hr => exact notify_of_noted hw he hm hS hend (one_isNotify (isNotify_of_reply hr))
  | timedOut he ha hend =>
    have hsame := hend.waitsSame
    obtain ⟨hS, -⟩ := hend
    refine .same ⟨fun q hq _ => ?_, fun k rsp h hq => ?_, fun k id h p S hq => ?_⟩ hsame
      (one_isNotify (onResponse_isNotify _ _))
    · rw [he] at hq
      obtain rfl := Event.timer.inj hq
      exact waiting_endorse hS
    · rw [he] at hq; cases hq
    · rw [he] at hq; cases hq
  | lost he => rw [he] at hno; cases hno

theorem onHtsMsgSingle_ended {k id answer} (hi : CoreInv s.core) (h : onHtsMsgSingle s k id answer = .ok (s', outs)) :
    (s.core.mapSingle k id = none ∧ s' = s ∧ outs = []) ∨
      ∃ p W, s.core.mapSingle k id = some p ∧ SingleEnded s p W s' ∧ W.kind = k ∧ outs = [answer W] := by
  unfold onHtsMsgSingle at h
  split at h
  · rename_i hm
    obtain ⟨rfl, rfl⟩ := Prod.mk.inj (Except.ok.inj h)
    exact .inl ⟨hm, rfl, rfl⟩
  · rename_i p hm
    simp only [hi.eraseSingleKey_eq hm] at h
    obtain ⟨W, hW, h⟩ := Except.bind_eq_ok.mp h
    rw [single_eq_ok] at hW
    obtain ⟨s₁, hrel, h⟩ := Except.bind_eq_ok.mp h
    obtain ⟨rfl, rfl⟩ := Prod.mk.inj (Except.ok.inj h)
    obtain ⟨links, hl, rfl⟩ := (releaseSingle_eq_ok (S := W) (by exact hW)).mp hrel
    obtain ⟨V, hV, hk, -⟩ := hi.single _ _ _ hm
    obtain rfl := Session.single.inj (Option.some.inj (hV.symm.trans hW))
    exact .inr ⟨p, V, hm, .mk hV hl, hk, rfl⟩

theorem query_notify {k id answer} (he : Spares s e) (hi : CoreInv s.core) (hk : ∀ k', k ≠ .waitNotify k')
    (ho : ∀ W : SingleSession, W.kind = k → (answer W).isNotify = false)
    (h : onHtsMsgSingle s k id answer = .ok (s', outs)) : NotifyMove s e s' outs := by
  rcases onHtsMsgSingle_ended hi h with ⟨-, rfl, rfl⟩ | ⟨p, W, -, hend, rfl, rfl⟩
  · exact .same he .refl fun _ ho => by cases ho
  · exact .same he (hend.waitsSame hi hk) (one_isNotify (ho W rfl))

theorem sendQuery_notify {k src srcSessionID sendErr msg failed} (he : Spares s e) (hi : CoreInv s.core)
    (hk : ∀ k', k ≠ .waitNotify k') (hf : ∀ code, (failed code).isNotify = false)
    (h : sendQuery s k src srcSessionID sendErr msg failed = .ok (s', outs)) : NotifyMove s e s' outs := by
  rw [sendQuery_eq] at h
  split at h
  rename_i h₀ conn hg
  cases sendErr with
  | true => exact idle_notify h he rfl (one_isNotify (hf _))
  | false =>
    rw [if_neg (by simp)] at h
    cases h₀ with
    | none => cases h
    | some h₀ =>
      obtain ⟨links, hl, h⟩ := Except.bind_eq_ok.mp h
      obtain ⟨rfl, rfl⟩ := Prod.mk.inj (Except.ok.inj h)
      have hs := openSingle_waitsSame (W := ⟨k, src, srcSessionID, s.core.sessionID, (s.links.handleSession h₀).2⟩) hi hk
      exact .same he ⟨hs.waiting, hs.armed, hs.map⟩ (one_isNotify rfl)

theorem timer_notify {p : Ptr} (hi : CoreInv s.core) (hst : step cfg s (.timer p) = .ok (s', outs)) :
    NotifyMove s (.timer p) s' outs := by
  have hspares : (s.core.armed p = true → s.core.waiting p = none) → Spares s (.timer p) := by
    intro hp
    refine ⟨fun q hq ha => ?_, nofun, nofun⟩
    obtain rfl := Event.timer.inj hq
    exact hp ha
  unfold step at hst
  cases ha : s.core.armed p with
  | false =>
    simp only [ha] at hst
    exact idle_notify hst (hspares fun h => by rw [ha] at h; cases h) rfl nofun
  | true =>
    simp only [ha, if_true] at hst
    unfold onTimer at hst
    split at hst
    · cases hst
    · rename_i S hS
      obtain ⟨S, s'', hend, hr⟩ := onTimeOutEndorse_ended hst
      obtain ⟨rfl, rfl⟩ := Prod.mk.inj hr
      exact .same (hspares fun _ => waiting_endorse hS) hend.waitsSame (one_isNotify (onResponse_isNotify _ _))
    · rename_i W hW
      split at hst
      · rename_i k hk
        obtain ⟨rfl, rfl⟩ := Prod.mk.inj (Except.ok.inj hst)
        exact .fired rfl ha (waiting_eq_some.mpr ⟨hW, k, hk⟩) rfl rfl
      · rename_i hk
        obtain ⟨V, s'', hend, hr⟩ := onTimeOutSingle_ended hst
        obtain ⟨rfl, rfl⟩ := Prod.mk.inj hr
        have hV : s.core.heap p = some (.single V) := (Gone.single hend).heap.1
        obtain rfl := Session.single.inj (Option.some.inj (hV.symm.trans hW))
        exact .same (hspares fun _ => waiting_other hW hk) (hend.waitsSame hi hk)
          (one_isNotify (onResponseSingle_isNotify hk _ _ _))

theorem networkError_notify {h : McpHandler} (hi : CoreInv s.core)
    (hst : step cfg s (.networkError h) = .ok (s', outs)) : NotifyMove s (.networkError h) s' outs := by
  have hspares : Spares s (.networkError h) := spares_of rfl (fun _ _ _ h => by cases h) rfl
  simp only [step, onNetworkError] at hst
  split at hst
  · cases hst
  split at hst
  · exact idle_notify hst hspares rfl (List.forall_mem_nil _)
  split at hst
  · cases hst
  obtain ⟨⟨s₁, o₁⟩, hl, hst⟩ := Except.bind_eq_ok.mp hst
  obtain ⟨rfl, rfl⟩ := Prod.mk.inj (Except.ok.inj hst)
  obtain ⟨hs, ho⟩ := netErrorLoop_waitsSame (by exact hi) hl
  exact .same hspares hs ho

theorem step_notify (hi : CoreInv s.core) (hst : step cfg s e = .ok (s', outs)) : NotifyMove s e s' outs := by
  have hmove := step_move hi hst
  cases e with
  | registUserReq => exact hmove.notify hi rfl fun h => by cases h
  | proposeReq => exact hmove.notify hi rfl fun h => by cases h
  | queryUserReq req src sendErr =>
    have hspares : Spares s (.queryUserReq req src sendErr) := spares_of rfl (fun _ _ _ h => by cases h) rfl
    simp only [step, onDscMsgQueryUserInfoCltCltReq] at hst
    split at hst
    · exact idle_notify hst hspares rfl (one_isNotify rfl)
    · exact sendQuery_notify hspares hi (fun _ h => by cases h) (fun _ => rfl) hst
  | queryTransReq req src sendErr =>
    have hspares : Spares s (.queryTransReq req src sendErr) := spares_of rfl (fun _ _ _ h => by cases h) rfl
    simp only [step, onDscMsgQueryTransInfoCltCltReq] at hst
    split at hst
    · exact idle_notify hst hspares rfl (one_isNotify rfl)
    · split at hst
      · exact idle_notify hst hspares rfl (one_isNotify rfl)
      · exact sendQuery_notify hspares hi (fun _ h => by cases h) (fun _ => rfl) hst
  | registUserRsp rsp h env =>
    refine hmove.notify hi rfl fun _ ha _ => ?_
    have hm := ha _ rfl
    simp only [step, onHtsMsgRegistUserEsCltRsp] at hst
    rw [hm] at hst
    cases hst
  | submitProposalRsp rsp h env =>
    refine hmove.notify hi rfl fun _ ha _ => ?_
    have hm := ha _ rfl
    simp only [step, onHtsMsgSubmitProposalEsCltRsp] at hst
    rw [hm] at hst
    exact idle_notify hst (spares_of_answer rfl) rfl (List.forall_mem_nil _)
  | submitRegistRsp rsp h =>
    refine hmove.notify hi rfl fun _ _ hr => ?_
    have hm := hr _ _ _ _ rfl
    simp only [step, onHtsMsgSubmitRegistTransactionEsCltRsp, onHtsMsgSubmitTransaction, hm] at hst
    refine idle_notify hst (spares_of_submit rfl fun p S _ hm' => ?_) rfl (List.forall_mem_nil _)
    rw [hm] at hm'
    cases hm'
  | submitProposalTransRsp rsp h =>
    refine hmove.notify hi rfl fun _ _ hr => ?_
    have hm := hr _ _ _ _ rfl
    simp only [step, onHtsMsgSubmitProposalTransactionEsCltRsp, onHtsMsgSubmitTransaction, hm] at hst
    refine idle_notify hst (spares_of_submit rfl fun p S _ hm' => ?_) rfl (List.forall_mem_nil _)
    rw [hm] at hm'
    cases hm'
  | transNotify k rsp h =>
    rcases onHtsMsgSingle_ended hi hst with ⟨hm, rfl, rfl⟩ | ⟨p, W, hm, hend, -, rfl⟩
    · refine .same ⟨fun p he => ?_, fun k' rsp' h' he => ?_, fun k' id h' p S he => ?_⟩ .refl (List.forall_mem_nil _)
      · cases he
      · cases he
        exact hm
      · cases he
    · exact .notified rfl hm hend rfl
  | queryUserRsp rsp h =>
    refine query_notify (spares_of rfl (fun _ _ _ h => by cases h) rfl) hi (fun _ h => by cases h) (fun W hk => ?_) hst
    exact onResponseSingle_isNotify (by simp [hk]) _ _ _
  | queryTransRsp rsp h =>
    refine query_notify (spares_of rfl (fun _ _ _ h => by cases h) rfl) hi (fun _ h => by cases h) (fun W hk => ?_) hst
    exact onResponseSingle_isNotify (by simp [hk]) _ _ _
  | timer p => exact timer_notify hi hst
  | connected h peerRand handleRand rawIndex =>
    simp only [step, onConnectedNodify] at hst
    split at hst
    · cases hst
    · exact idle_notify hst (spares_of rfl (fun _ _ _ h => by cases h) rfl) rfl (List.forall_mem_nil _)
  | networkError h => exact networkError_notify hi hst

end

end VProtocol.Client
