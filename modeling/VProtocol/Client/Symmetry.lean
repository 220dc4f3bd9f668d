import VProtocol.Client.Attribution
import VProtocol.Client.Linked

/-!
# Link symmetry

Sessions and handle sessions name each other. A session has one `m_nIndex` for all
the arrays it is in, so its release takes out whatever stands at that position in
each of them: `links_symmetric` says when that is the session itself.
-/

namespace VProtocol.Client

open Function (update)

def Core.own (c : Core) (p : Ptr) : List HPtr := ((c.heap p).map Session.handleList).getD []

def SymInv (s : State) : Prop := LinkInv s.core.own (Multi s.core.own) s.links

/-- A session is in an array once if it is linked to the array's handle session, and
not otherwise; nothing else is in an array. -/
structure Symmetric (s : State) : Prop where
  count : ∀ p x hp H, s.core.heap p = some x → s.links.handles hp = some H →
    H.arrSession.count p = if hp ∈ x.handleList then 1 else 0
  live : ∀ hp H, s.links.handles hp = some H → ∀ p ∈ H.arrSession, s.core.live p = true

def Removes (s : State) (p : Ptr) (s' : State) : Prop :=
  ∀ hp H, s.links.handles hp = some H → ∃ H', s'.links.handles hp = some H' ∧
    ∀ q, H'.arrSession.count q = if q = p then 0 else H.arrSession.count q

/-! ## When a step keeps the links -/

def Session.isWaitNotify : Session → Bool
  | .endorse _ => false
  | .single S =>
    match S.kind with
    | .waitNotify _ => true
    | _ => false

def Event.timedOut : Event → Option Ptr
  | .timer p => some p
  | _ => none

def Event.lost : Event → Option McpHandler
  | .networkError h => some h
  | _ => none

/-- At most one session waits on the connection; it is not a wait-notify session, and
it is placed in all its arrays. -/
def LossSafe (s : State) (h : McpHandler) : Prop :=
  ∀ hp ∈ s.links.mapHandle h.handleID, ∀ H ∈ s.links.handles hp, H.arrSession.length ≤ 1 ∧
    ∀ p ∈ H.arrSession, ∀ x ∈ s.core.heap p, x.isWaitNotify = false ∧ s.links.Placed p x.handleList

instance (s : State) (h : McpHandler) : Decidable (LossSafe s h) := by
  delta LossSafe; infer_instance

def AnswerPlaced (cfg : Config) (s : State) (e : Event) : Prop :=
  ∀ a ∈ e.answer, ∀ p ∈ s.core.mapEndorse a.kind a.cltSessionID, ∀ S ∈ s.core.session p,
    (judge cfg.endorsePeerCount a.kind S.succeedRspNum (S.sees a)).2 ≠ none → s.links.Placed p S.arrHandleSession

/-- So is one whose submit answer comes; its slot must be right even with the wait-notify
session behind it. -/
def SubmitPlaced (s : State) (e : Event) : Prop :=
  ∀ r ∈ e.submitRsp, r.2.2.2 = okType → ∀ p ∈ s.core.mapEndorse r.1 r.2.1, ∀ S ∈ s.core.session p,
    s.links.Placed p S.arrHandleSession ∧
      (S.waitNotify = true → ∀ hp ∈ S.submitEs, ∀ H ∈ s.links.handles hp, H.arrSession[s.links.index p]? = some p)

def TimerPlaced (s : State) (e : Event) : Prop :=
  ∀ p ∈ e.timedOut, s.core.armed p = true → ∀ S ∈ s.core.session p, s.links.Placed p S.arrHandleSession

/-- The first send that fails is to an endorser whose array is the longest so far. -/
def SendPlaced (cfg : Config) (s : State) (e : Event) : Prop :=
  e.asks ≠ none → ∀ f < cfg.endorsePeerCount, e.sendErr f = true → (∀ i < f, e.sendErr i = false) →
    ∀ r ∈ picks (f + 1) s.conn, ∀ h ∈ r.1, ∀ h' ∈ r.1.getLast?, s.links.arrLen h ≤ s.links.arrLen h'

instance (cfg : Config) (s : State) (e : Event) : Decidable (AnswerPlaced cfg s e) := by
  delta AnswerPlaced; infer_instance

instance (s : State) (e : Event) : Decidable (SubmitPlaced s e) := by
  delta SubmitPlaced; infer_instance

instance (s : State) (e : Event) : Decidable (TimerPlaced s e) := by
  delta TimerPlaced; infer_instance

instance (cfg : Config) (s : State) (e : Event) : Decidable (SendPlaced cfg s e) := by
  delta SendPlaced; infer_instance

/-- The sessions that the step ends are where their positions say. -/
structure KeepsLinks (cfg : Config) (s : State) (e : Event) : Prop where
  answer : AnswerPlaced cfg s e
  submit : SubmitPlaced s e
  timer : TimerPlaced s e
  send : SendPlaced cfg s e
  lost : ∀ h ∈ e.lost, LossSafe s h

instance (cfg : Config) (s : State) (e : Event) : Decidable (KeepsLinks cfg s e) :=
  decidable_of_iff (AnswerPlaced cfg s e ∧ SubmitPlaced s e ∧ TimerPlaced s e ∧ SendPlaced cfg s e ∧
      ∀ h ∈ e.lost, LossSafe s h)
    ⟨fun h => ⟨h.1, h.2.1, h.2.2.1, h.2.2.2.1, h.2.2.2.2⟩, fun h => ⟨h.1, h.2, h.3, h.4, h.5⟩⟩

/-! ## The links on the heap -/

section
variable {c : Core} {p q : Ptr}

theorem own_eq {x : Session} (h : c.heap p = some x) : c.own p = x.handleList := by
  simp [Core.own, h]

theorem own_none (h : c.heap p = none) : c.own p = [] := by
  simp [Core.own, h]

theorem heap_of_own {hp : HPtr} (h : hp ∈ c.own p) : ∃ x, c.heap p = some x ∧ hp ∈ x.handleList := by
  cases hx : c.heap p with
  | none => rw [own_none hx] at h; cases h
  | some x => exact ⟨x, rfl, own_eq hx ▸ h⟩

theorem live_of_own {hp : HPtr} (h : hp ∈ c.own p) : c.live p = true := by
  obtain ⟨x, hx, -⟩ := heap_of_own h
  simp [Core.live, hx]

theorem own_of_heap {c' : Core} {hps : List HPtr} (h1 : c'.own p = hps) (h2 : ∀ q ≠ p, c'.heap q = c.heap q) :
    c'.own = update c.own p hps := by
  funext q
  by_cases hq : q = p
  · subst hq; rw [Function.update_self, h1]
  · rw [Function.update_of_ne hq, Core.own, h2 q hq, Core.own]

theorem finish_heap : (c.finish p).heap = update c.heap p none := rfl

theorem finishSingle_heap : (c.finishSingle p).heap = update c.heap p none := rfl

theorem finish_own : (c.finish p).own = update c.own p [] :=
  own_of_heap (own_none (by simp [finish_heap])) fun q hq => by simp [finish_heap, hq]

theorem finishSingle_own : (c.finishSingle p).own = update c.own p [] :=
  own_of_heap (own_none (by simp [finishSingle_heap])) fun q hq => by simp [finishSingle_heap, hq]

theorem openEndorse_own (S : EndorseSession) : (c.openEndorse S).own = update c.own c.next S.arrHandleSession :=
  own_of_heap (own_eq (x := .endorse S) (alloc_heap_next c _))
    fun q hq => by simp [Core.openEndorse, hq]

theorem openSingle_own (S : SingleSession) : (c.openSingle S).own = update c.own c.next [S.handleSession] :=
  own_of_heap (own_eq (x := .single S) (alloc_heap_next c _))
    fun q hq => by simp [Core.openSingle, hq]

theorem alloc_own (x : Session) : (c.alloc x).own = update c.own c.next x.handleList :=
  own_of_heap (own_eq (alloc_heap_next c _)) fun q hq => by simp [hq]

theorem put_own {S S' : EndorseSession} (hS : c.heap p = some (.endorse S))
    (h : S'.arrHandleSession = S.arrHandleSession) : (c.put p (.endorse S')).own = c.own := by
  have hown : (c.put p (.endorse S')).own = update c.own p S'.arrHandleSession :=
    own_of_heap (own_eq (x := .endorse S') (by simp)) fun q hq => by simp [hq]
  rw [hown, h, show S.arrHandleSession = c.own p from (own_eq hS).symm, Function.update_eq_self]

end

/-! ## A session ends -/

inductive Gone (s : State) (p : Ptr) : Session → State → Prop
  | endorse {S s'} : Ended s p S s' → Gone s p (.endorse S) s'
  | single {W s'} : SingleEnded s p W s' → Gone s p (.single W) s'

def Session.lossAnswer : Session → Out
  | .endorse S => onResponse S networkErrorType
  | .single S => onResponseSingle S networkErrorType false []

section
variable {cfg : Config} {s s' : State} {e : Event} {outs : List Out} {p : Ptr} {x : Session}

theorem Gone.heap (h : Gone s p x s') : s.core.heap p = some x ∧ s'.core.heap = update s.core.heap p none := by
  cases h with
  | endorse h => obtain ⟨hS, -⟩ := h; exact ⟨hS, rfl⟩
  | single h => obtain ⟨hS, -⟩ := h; exact ⟨hS, rfl⟩

theorem Gone.own (h : Gone s p x s') : s'.core.own = update s.core.own p [] := by
  cases h with
  | endorse h => obtain ⟨-, -⟩ := h; exact finish_own
  | single h => obtain ⟨-, -⟩ := h; exact finishSingle_own

theorem symInv_of {own : Ptr → List HPtr} (h : s.core.own = own) (hi : LinkInv own (Multi own) s.links) : SymInv s := by
  subst h; exact hi

theorem SymInv.release (hi : SymInv s) {S} (hS : s.core.heap p = some (.endorse S))
    (hpl : s.links.Placed p S.arrHandleSession) :
    ∃ l', s.links.unlink s.core.live p S.arrHandleSession = .ok l' ∧
      LinkInv (update s.core.own p []) (Multi (update s.core.own p [])) l' := by
  have hown : s.core.own p = S.arrHandleSession := own_eq hS
  rw [← hown] at hpl ⊢
  exact LinkInv.release hi (fun _ _ => live_of_own) hpl

theorem SymInv.releaseSingle (hi : SymInv s) {S} (hS : s.core.heap p = some (.single S)) :
    ∃ l', s.links.erase s.core.live S.handleSession p = .ok l' ∧
      LinkInv (update s.core.own p []) (Multi (update s.core.own p [])) l' :=
  LinkInv.release_one hi (fun _ _ => live_of_own) (own_eq hS)

theorem Ended.symInv {S} (h : Ended s p S s') (hi : SymInv s) (hpl : s.links.Placed p S.arrHandleSession) :
    SymInv s' := by
  obtain ⟨hS, hl⟩ := h
  obtain ⟨l', hl', hi'⟩ := hi.release hS hpl
  obtain rfl := Except.ok.inj (hl.symm.trans hl')
  exact symInv_of finish_own hi'

theorem SingleEnded.symInv {S} (h : SingleEnded s p S s') (hi : SymInv s) : SymInv s' := by
  obtain ⟨hS, hl⟩ := h
  obtain ⟨l', hl', hi'⟩ := hi.releaseSingle hS
  obtain rfl := Except.ok.inj (hl.symm.trans hl')
  exact symInv_of finishSingle_own hi'

theorem Gone.symInv (h : Gone s p x s') (hi : SymInv s) (hpl : s.links.Placed p x.handleList) : SymInv s' := by
  cases h with
  | endorse h => exact h.symInv hi hpl
  | single h => exact h.symInv hi

/-! ## A step that loses no connection -/

theorem Noted.symInv {S} (h : Noted s S s') (hc : CoreInv s.core) (hi : SymInv s) : SymInv s' := by
  cases h with
  | none => exact hi
  | some _ _ hl => exact symInv_of (openSingle_own _) (LinkInv.insert_new hi (own_none hc.heap_next) hl)

theorem placed_of_noted {S : EndorseSession} {hps} (h : Noted s S s') (hne : p ≠ s.core.next)
    (hpl : s.links.Placed p hps)
    (hw : S.waitNotify = true → ∀ hp ∈ S.submitEs, ∀ H ∈ s.links.handles hp, H.arrSession[s.links.index p]? = some p) :
    s'.links.Placed p hps := by
  cases h with
  | none => exact hpl
  | @some hp links hn hsub hl =>
    have hat := hw hn hp hsub
    unfold Links.insert at hl
    split at hl
    · cases hl
    rename_i H hH
    obtain rfl := Except.ok.inj hl
    intro hq hmem K hK
    simp only [Function.update_of_ne hne]
    by_cases hqp : hq = hp
    · subst hqp
      simp only [Function.update_self, Option.mem_def, Option.some.injEq] at hK
      subst hK
      have hget := hat H hH
      apply takenBy_of_getElem?
      rw [List.getElem?_append_left (List.getElem?_eq_some_iff.mp hget).1]
      exact hget
    · simp only [Function.update_of_ne hqp] at hK
      exact hpl hq hmem K hK

theorem Aside.symInv (h : Aside cfg s e s' outs) (hc : CoreInv s.core) (hl : LinksInv s.links) (hi : SymInv s) :
    SymInv s' := by
  cases h with
  | quiet => exact hi
  | refused => exact hi
  | queried _ _ hlk =>
    exact symInv_of (openSingle_own _) (LinkInv.link_new hi hl (by simp) (own_none hc.heap_next) hlk)
  | fired => exact hi
  | ended hend => exact hend.symInv hi

theorem Move.symInv (h : Move cfg s e s' outs) (hc : CoreInv s.core) (hl : LinksInv s.links)
    (hconn : ConnInv cfg.peers s.conn) (hi : SymInv s) (hk : KeepsLinks cfg s e) (hno : e.lost = none) : SymInv s' := by
  have hnil : s.core.own s.core.next = [] := own_none hc.heap_next
  cases h with
  | aside _ _ _ h => exact h.symInv hc hl hi
  | refused => exact hi
  | @aborted r S hs h conn links s' msg rand o he _ hn _ hlen hf _ hp hlk hend =>
    have hids := picks_nodup hconn hp (by omega)
    have hi₁ : SymInv { core := s.core.alloc (.endorse S), links, conn } :=
      symInv_of (alloc_own _) (LinkInv.link_new hi hl hids hnil hlk)
    apply hend.symInv hi₁
    apply Links.placed_of_link hl hids hlk (List.getLast?_concat ..)
    intro h' hh'
    exact hk.send (by rw [he]; simp) hs.length hlen hf.1 hf.2 _ hp h' hh' h (List.getLast?_concat ..)
  | opened _ _ _ _ _ hn _ _ _ hp hlk =>
    exact symInv_of (openEndorse_own _) (LinkInv.link_new hi hl (picks_nodup hconn hp hn) hnil hlk)
  | kept _ _ hS => exact symInv_of (put_own hS rfl) hi
  | failed ha hm hS _ hj hend =>
    apply hend.symInv hi
    exact hk.answer _ ha _ hm _ (session_eq_some.mpr hS) (by rw [hj]; simp)
  | orphaned => exact hi
  | submitted he hm hS hw hend =>
    obtain ⟨hpl, hslot⟩ := hk.submit _ he rfl _ hm _ (session_eq_some.mpr hS)
    apply hend.symInv (hw.symInv hc hi)
    exact placed_of_noted hw (Nat.ne_of_lt (hc.fresh _ _ hS)) hpl hslot
  | timedOut he ha hend =>
    apply hend.symInv hi
    obtain ⟨hS, -⟩ := hend
    exact hk.timer _ (by rw [he]; rfl) ha _ (session_eq_some.mpr hS)
  | lost he => rw [he] at hno; cases hno

/-! ## A connection is lost -/

theorem isWaitNotify_of_ne {W : SingleSession} (h : ∀ k, W.kind ≠ .waitNotify k) :
    (Session.single W).isWaitNotify = false := by
  cases hk : W.kind with
  | waitNotify k => exact absurd hk (h k)
  | queryUser => simp [Session.isWaitNotify, hk]
  | queryTrans => simp [Session.isWaitNotify, hk]

theorem onNetError_cases (h : onNetError s p = .ok (s', outs)) : ∃ x, s.core.heap p = some x ∧
    (x.isWaitNotify = true ∧ s' = s ∧ outs = [] ∨
      x.isWaitNotify = false ∧ Gone s p x s' ∧ outs = [x.lossAnswer]) := by
  unfold onNetError at h
  split at h
  · cases h
  · rename_i S hS
    obtain ⟨S', s'', hend, hr⟩ := onNetErrorEndorse_ended h
    obtain ⟨rfl, rfl⟩ := Prod.mk.inj hr
    have hS' := (Gone.endorse hend).heap.1
    exact ⟨_, hS', .inr ⟨rfl, .endorse hend, rfl⟩⟩
  · rename_i W hW
    split at h
    · rename_i k hk
      obtain ⟨rfl, rfl⟩ := Prod.mk.inj (Except.ok.inj h)
      exact ⟨_, hW, .inl ⟨by simp [Session.isWaitNotify, hk], rfl, rfl⟩⟩
    · rename_i hk
      obtain ⟨W', s'', hend, hr⟩ := onNetErrorSingle_ended h
      obtain ⟨rfl, rfl⟩ := Prod.mk.inj hr
      have hW' := (Gone.single hend).heap.1
      obtain rfl := Session.single.inj (Option.some.inj (hW.symm.trans hW'))
      exact ⟨_, hW, .inr ⟨isWaitNotify_of_ne hk, .single hend, rfl⟩⟩

theorem SymInv.netError (hi : SymInv s) (hx : s.core.heap p = some x) (hw : x.isWaitNotify = false)
    (hpl : s.links.Placed p x.handleList) : ∃ s', Gone s p x s' ∧ onNetError s p = .ok (s', [x.lossAnswer]) := by
  cases x with
  | endorse S =>
    obtain ⟨l', hu, -⟩ := hi.release hx hpl
    refine ⟨{ s with core := s.core.finish p, links := l' }, .endorse (.mk hx hu), ?_⟩
    simp only [onNetError, hx]
    refine Except.bind_eq_ok.mpr ⟨S, endorse_eq_ok.mpr hx, Except.bind_eq_ok.mpr ⟨_, ?_, rfl⟩⟩
    exact (release_eq_ok (S := S) (by exact hx)).mpr ⟨l', hu, rfl⟩
  | single W =>
    obtain ⟨l', he, -⟩ := hi.releaseSingle hx
    refine ⟨{ s with core := s.core.finishSingle p, links := l' }, .single (.mk hx he), ?_⟩
    have hloop : onNetError s p = onNetErrorSingle s p := by
      simp only [onNetError, hx]
      split
      · rename_i k hk
        simp [Session.isWaitNotify, hk] at hw
      · rfl
    rw [hloop]
    refine Except.bind_eq_ok.mpr ⟨W, single_eq_ok.mpr hx, Except.bind_eq_ok.mpr ⟨_, ?_, rfl⟩⟩
    exact (releaseSingle_eq_ok (S := W) (by exact hx)).mpr ⟨l', he, rfl⟩

end

namespace State
variable (s : State)

def disconnected (cfg : Config) (h : McpHandler) : State :=
  { s with
    links := { s.links with mapHandle := update s.links.mapHandle h.handleID none }
    conn := disconnect s.conn (getPeerID cfg.peers h.handleID) h }

def forget (hp : HPtr) : State := { s with links := { s.links with handles := update s.links.handles hp none } }

end State

section
variable {cfg : Config} {s s' : State} {h : McpHandler} {hp : HPtr} {H : HandleSession} {outs : List Out} {x : Session}
  {p : Ptr}

theorem step_networkError (hpeer : getPeerID cfg.peers h.handleID ≠ -1) (hm : s.links.mapHandle h.handleID = some hp)
    (hH : s.links.handles hp = some H) : step cfg s (.networkError h) = (do
      let r ← netErrorLoop hp H.arrSession.length 0 (s.disconnected cfg h)
      .ok (r.1.forget hp, r.2)) := by
  simp only [step, onNetworkError, if_neg hpeer, hm, hH]
  rfl

theorem step_networkError_none (hpeer : getPeerID cfg.peers h.handleID ≠ -1)
    (hm : s.links.mapHandle h.handleID = none) : step cfg s (.networkError h) =
      .ok ({ s with conn := disconnect s.conn (getPeerID cfg.peers h.handleID) h }, []) := by
  simp only [step, onNetworkError, if_neg hpeer, hm]

theorem SymInv.disconnected (hi : SymInv s) (cfg : Config) (h : McpHandler) : SymInv (s.disconnected cfg h) :=
  ⟨hi.mem, hi.nodup, hi.handle, hi.own_nodup, hi.one, hi.sole⟩

theorem SymInv.forget (hi : SymInv s) (hno : ∀ q, hp ∉ s.core.own q) : SymInv (s.forget hp) := LinkInv.drop hi hno

inductive Lost (cfg : Config) (s : State) (h : McpHandler) (H : HandleSession) : State → List Out → Prop
  | idle : H.arrSession = [] → Lost cfg s h H (s.disconnected cfg h) []
  | last {q y t} : H.arrSession = [q] → Gone (s.disconnected cfg h) q y t → s.links.Placed q y.handleList →
      Lost cfg s h H t [y.lossAnswer]

theorem SymInv.lost (hi : SymInv s) (hsafe : LossSafe s h) (hpeer : getPeerID cfg.peers h.handleID ≠ -1)
    (hm : s.links.mapHandle h.handleID = some hp) (hH : s.links.handles hp = some H) :
    ∃ s' outs, Lost cfg s h H s' outs ∧ step cfg s (.networkError h) = .ok (s'.forget hp, outs) := by
  rw [step_networkError hpeer hm hH]
  obtain ⟨hlen, hone⟩ := hsafe hp hm H hH
  match harr : H.arrSession with
  | [] => exact ⟨_, _, .idle harr, rfl⟩
  | [p] =>
    have hmem : p ∈ H.arrSession := by simp [harr]
    obtain ⟨x, hx, -⟩ := heap_of_own ((hi.mem hH p).mp hmem)
    obtain ⟨hw, hpl⟩ := hone p hmem x hx
    obtain ⟨s', hgone, hnet⟩ := (hi.disconnected cfg h).netError hx hw hpl
    refine ⟨s', _, .last harr hgone hpl, Except.bind_eq_ok.mpr ⟨(s', [x.lossAnswer]), ?_, rfl⟩⟩
    have hat : (s.disconnected cfg h).links.handles hp = some H := hH
    rw [List.length_singleton, netErrorLoop, hat]
    simp only [harr, List.getElem?_cons_zero, hnet]
    rfl
  | p :: q :: rest => simp [harr] at hlen

theorem Lost.own (hl : Lost cfg s h H s' outs) (hi : SymInv s) (hH : s.links.handles hp = some H) (q : Ptr) :
    hp ∉ s'.core.own q := by
  cases hl with
  | idle harr =>
    have := hi.mem hH q
    rw [harr] at this
    exact fun hq => by cases this.mpr hq
  | @last p x _ harr hgone =>
    rw [hgone.own]
    intro hq
    by_cases hqp : q = p
    · subst hqp
      simp at hq
    · rw [Function.update_of_ne hqp] at hq
      have := (hi.mem hH q).mpr hq
      rw [harr] at this
      exact hqp (List.mem_singleton.mp this)

theorem Lost.symInv (hl : Lost cfg s h H s' outs) (hi : SymInv s) (hH : s.links.handles hp = some H) :
    SymInv (s'.forget hp) := by
  apply SymInv.forget _ (hl.own hi hH)
  cases hl with
  | idle => exact hi.disconnected cfg h
  | last _ hgone hpl => exact hgone.symInv (hi.disconnected cfg h) hpl

end

/-! ## Runs -/

section
variable {cfg : Config} {tr : History} {s s' : State} {e : Event} {outs : List Out}

theorem symInv_step (hr : Run (step cfg) {} (fun _ s e => KeepsLinks cfg s e) tr s) (hi : SymInv s)
    (hk : KeepsLinks cfg s e) (hst : step cfg s e = .ok (s', outs)) : SymInv s' := by
  cases he : e.lost with
  | none => exact (run_move hr hst).symInv (run_coreInv hr) (run_linksInv hr) (run_connInv hr) hi hk he
  | some h =>
    have hsafe := hk.lost h he
    obtain rfl : e = .networkError h := by
      cases e <;> cases he
      rfl
    by_cases hpeer : getPeerID cfg.peers h.handleID = -1
    · simp [step, onNetworkError, hpeer] at hst
    cases hm : s.links.mapHandle h.handleID with
    | none =>
      rw [step_networkError_none hpeer hm] at hst
      obtain ⟨rfl, -⟩ := Prod.mk.inj (Except.ok.inj hst)
      exact hi
    | some hp =>
      obtain ⟨H, hH, -⟩ := (run_linksInv hr).map _ _ hm
      obtain ⟨s₁, outs₁, hlost, hst₁⟩ := hi.lost hsafe hpeer hm hH
      obtain ⟨rfl, -⟩ := Prod.mk.inj (Except.ok.inj (hst₁.symm.trans hst))
      exact hlost.symInv hi hH

theorem run_symInv (h : Run (step cfg) {} (fun _ s e => KeepsLinks cfg s e) tr s) : SymInv s := by
  apply h.invariant (fun _ s => SymInv s)
  · refine ⟨?_, ?_, ?_, ?_, ?_, ?_⟩ <;> simp [Core.own]
  · intro tr s e s' outs hr hi hk hst
    exact symInv_step hr hi hk hst

theorem SymInv.symmetric (hi : SymInv s) : Symmetric s where
  count p x hp H hx hH := by
    simp only [(hi.nodup hH).count, hi.mem hH, own_eq hx]
  live hp H hH p hp' := live_of_own ((hi.mem hH p).mp hp')

theorem SymInv.removes {p : Ptr} {l' : Links} (hi : SymInv s)
    (hi' : LinkInv (update s.core.own p []) (Multi (update s.core.own p [])) l') (hsame : s.links.Same l') :
    Removes s p { s with core := s.core.free p, links := l' } := by
  intro hp H hH
  obtain ⟨H', hH', -⟩ := hsame.some hH
  refine ⟨H', hH', fun q => ?_⟩
  simp only [(hi'.nodup hH').count, (hi.nodup hH).count, hi'.mem hH', hi.mem hH]
  by_cases hq : q = p
  · subst hq; simp
  · simp [hq]

/-- Link symmetry in every state of a run that keeps the links; there a release removes the
session and nothing else exactly when the session is placed in all its arrays. -/
theorem links_symmetric (h : Run (step cfg) {} (fun _ s e => KeepsLinks cfg s e) tr s) : Symmetric s ∧
    ∀ p S, s.core.session p = some S → (s.links.Placed p S.arrHandleSession ↔
      ∃ s', onReleaseMultiHandleSession s p = .ok s' ∧ Removes s p s') := by
  have hi := run_symInv h
  refine ⟨hi.symmetric, fun p S hS => ?_⟩
  rw [session_eq_some] at hS
  constructor
  · intro hpl
    obtain ⟨l', hu, hi'⟩ := hi.release hS hpl
    exact ⟨_, (release_eq_ok hS).mpr ⟨l', hu, rfl⟩, hi.removes hi' (Links.unlink_same hu)⟩
  · intro hx
    obtain ⟨s', hrel, hrem⟩ := hx
    obtain ⟨l', hu, rfl⟩ := (release_eq_ok hS).mp hrel
    have hown : s.core.own p = S.arrHandleSession := own_eq hS
    rw [← hown] at hu ⊢
    apply LinkInv.placed_of_unlink hi hu
    intro hp H' hH' hmem
    obtain ⟨H, hH, -⟩ := (Links.unlink_same hu).symm_some hH'
    obtain ⟨K, hK, hcount⟩ := hrem hp H hH
    obtain rfl := Option.some.inj (hH'.symm.trans hK)
    have := hcount p
    rw [if_pos rfl] at this
    exact List.count_eq_zero.mp this hmem

end

/-- Three peers and two endorsers a request: the arrays a session is in do not grow alike,
and the release of the second session takes the third out of the last peer's array. -/
theorem links_asymmetric :
    ¬∀ (cfg : Config) (tr : History) (s : State), Run (step cfg) {} anyStep tr s → Symmetric s := by
  intro hall
  let evs := connectFour.take 3 ++ [registReq 1 {}, registReq 2 {}, registReq 3 {}, .timer 1]
  have hs := hall fourPeers _ _ (run_trace_any evs)
  exact absurd (hs.count 2 _ 2 ⟨⟨3, 30⟩, [1]⟩ rfl rfl) (by decide)

theorem links_symmetric_three : ∃ tr s, Run (step fourPeers) {} (fun _ s e => KeepsLinks fourPeers s e) tr s ∧
    Symmetric s ∧ (s.links.handles 0).map (·.arrSession) = some [1] ∧
      (s.links.handles 1).map (·.arrSession) = some [2] := by
  let evs := connectFour.take 3 ++ [registReq 1 {}, registReq 2 {}, registReq 3 {}, .timer 0]
  have hr := run_of_meets (step fourPeers) {} (fun _ s e => KeepsLinks fourPeers s e) evs (by decide)
  exact ⟨_, _, hr, (links_symmetric hr).1, by decide, by decide⟩

end VProtocol.Client
