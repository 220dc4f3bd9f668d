import VProtocol.Client.Waiting
import VProtocol.Client.Loss

/-!
# Notifications

A wait-notify session ends by its notify and by nothing else: the virtual `OnTimer` and
`OnNetError` of these sessions are empty, so their timers go off and their connections are
lost without a word to the requester. In the runs without such a timer or loss every
session that was made for a notify gets one, or is still there with all that it needs.
-/

namespace VProtocol.Client

open Function (update)

/-- The return code and the result with which the event ends session `p`, if it does. -/
def outcome (s : State) (e : Event) (p : Ptr) : Option (Int × Bool) :=
  (s.core.waiting p).bind fun W =>
    match e with
    | .transNotify k rsp _ =>
      if W.kind = .waitNotify k ∧ W.cltSessionID = rsp.cltSessionID then some (rsp.returnCode, rsp.transResult) else none
    | .timer q => if q = p ∧ s.core.armed p = true then some (timeoutErrorType, false) else none
    | .networkError h =>
      if s.links.mapHandle h.handleID = some W.handleSession then some (networkErrorType, false) else none
    | _ => none

def outcomes (tr : History) (p : Ptr) : List (Int × Bool) := tr.filterMap fun en => outcome en.pre en.ev p

/-- A wait-notify session is in its map, its timer is armed, and its handle session lives
and has it in its array. -/
structure Waits (s : State) : Prop where
  map : ∀ p W, s.core.waiting p = some W → s.core.mapSingle W.kind W.cltSessionID = some p
  timer : ∀ p W, s.core.waiting p = some W → s.core.armed p = true
  handle : ∀ p W, s.core.waiting p = some W → ∃ H, s.links.handles W.handleSession = some H ∧ p ∈ H.arrSession

structure Notified (s : State) (e : Event) (s' : State) (outs : List Out) : Prop where
  sent : ∃ ps : List (Ptr × SingleSession × Int × Bool), (ps.map Prod.fst).Nodup ∧
    outs.filter Out.isNotify = ps.map (fun x => onResponseSingle x.2.1 x.2.2.1 x.2.2.2 []) ∧
    ∀ p W o, (p, W, o) ∈ ps ↔ s.core.waiting p = some W ∧ outcome s e p = some o
  removed : ∀ p, outcome s e p ≠ none → s'.core.heap p = none ∧ s'.core.armed p = false ∧
    (∀ k id, s'.core.mapSingle k id ≠ some p) ∧ ∀ hp H, s'.links.handles hp = some H → p ∉ H.arrSession
  kept : ∀ p W, s.core.waiting p = some W → outcome s e p = none → s'.core.waiting p = some W

def Waited (tr : History) (p : Ptr) : Prop := ∃ en ∈ tr, en.pre.core.waiting p ≠ none

structure NotifiesRight (cfg : Config) (tr : History) (s : State) : Prop where
  waits : (∀ en ∈ tr, Waits en.pre) ∧ Waits s
  notified : ∀ en ∈ tr, ∀ s', step cfg en.pre en.ev = .ok (s', en.outs) → Notified en.pre en.ev s' en.outs
  once : ∀ p, Waited tr p ∨ s.core.waiting p ≠ none →
    (outcomes tr p).length = if s.core.waiting p = none then 1 else 0

/-! ## The condition -/

/-- The sessions that the step ends are where their positions say, as in `KeepsLinks`. -/
structure LinksKept (cfg : Config) (s : State) (e : Event) : Prop where
  answer : AnswerPlaced cfg s e
  submit : SubmitPlaced s e
  timer : TimerPlaced s e
  send : SendPlaced cfg s e
  lost : ∀ h ∈ e.lost, ∀ hp ∈ s.links.mapHandle h.handleID, ∀ H ∈ s.links.handles hp, ∀ p ∈ H.arrSession,
    ∀ x ∈ s.core.heap p, s.links.Placed p x.handleList

/-- No timer of a wait-notify session goes off, no connection is lost that one waits on, and
none is made under an id that another still has. -/
structure NotifySafe (s : State) (e : Event) : Prop where
  timer : ∀ p ∈ e.timedOut, s.core.armed p = true → s.core.waiting p = none
  lost : ∀ h ∈ e.lost, ∀ hp ∈ s.links.mapHandle h.handleID, ∀ H ∈ s.links.handles hp, ∀ p ∈ H.arrSession,
    s.core.waiting p = none
  fresh : ∀ r ∈ e.submitRsp, r.2.2.2 = okType → ∀ p ∈ s.core.mapEndorse r.1 r.2.1, ∀ S ∈ s.core.session p,
    S.waitNotify = true → s.core.mapSingle (.waitNotify r.1) r.2.1 = none

instance (cfg : Config) (s : State) (e : Event) : Decidable (LinksKept cfg s e) :=
  decidable_of_iff (AnswerPlaced cfg s e ∧ SubmitPlaced s e ∧ TimerPlaced s e ∧ SendPlaced cfg s e ∧
      ∀ h ∈ e.lost, ∀ hp ∈ s.links.mapHandle h.handleID, ∀ H ∈ s.links.handles hp, ∀ p ∈ H.arrSession,
        ∀ x ∈ s.core.heap p, s.links.Placed p x.handleList)
    ⟨fun h => ⟨h.1, h.2.1, h.2.2.1, h.2.2.2.1, h.2.2.2.2⟩, fun h => ⟨h.1, h.2, h.3, h.4, h.5⟩⟩

instance (s : State) (e : Event) : Decidable (NotifySafe s e) :=
  decidable_of_iff ((∀ p ∈ e.timedOut, s.core.armed p = true → (s.core.waiting p).isNone = true) ∧
      (∀ h ∈ e.lost, ∀ hp ∈ s.links.mapHandle h.handleID, ∀ H ∈ s.links.handles hp, ∀ p ∈ H.arrSession,
        (s.core.waiting p).isNone = true) ∧
      ∀ r ∈ e.submitRsp, r.2.2.2 = okType → ∀ p ∈ s.core.mapEndorse r.1 r.2.1, ∀ S ∈ s.core.session p,
        S.waitNotify = true → s.core.mapSingle (.waitNotify r.1) r.2.1 = none) <| by
    simp only [Option.isNone_iff_eq_none]
    exact ⟨fun h => ⟨h.1, h.2.1, h.2.2⟩, fun h => ⟨h.1, h.2, h.3⟩⟩

/-! ## Safe steps -/

section
variable {cfg : Config} {s s' : State} {e : Event} {outs : List Out} {p : Ptr} {W : SingleSession}

theorem waiting_own (h : s.core.waiting p = some W) : s.core.own p = [W.handleSession] :=
  own_eq (waiting_eq_some.mp h).1

theorem SymInv.waits_handle (hi : SymInv s) (h : s.core.waiting p = some W) :
    ∃ H, s.links.handles W.handleSession = some H ∧ p ∈ H.arrSession := by
  have hmem : W.handleSession ∈ s.core.own p := by simp [waiting_own h]
  obtain ⟨H, hH⟩ := hi.handle hmem
  exact ⟨H, hH, (hi.mem hH p).mpr hmem⟩

theorem removed_of_heap (hc : CoreInv s.core) (hi : SymInv s) (h : s.core.heap p = none) :
    s.core.heap p = none ∧ s.core.armed p = false ∧ (∀ k id, s.core.mapSingle k id ≠ some p) ∧
      ∀ hp H, s.links.handles hp = some H → p ∉ H.arrSession := by
  refine ⟨h, ?_, fun k id hm => ?_, fun hp H hH hmem => ?_⟩
  · cases ha : s.core.armed p with
    | false => rfl
    | true =>
      obtain ⟨x, hx⟩ := hc.armed p ha
      rw [h] at hx; cases hx
  · obtain ⟨V, hV, -⟩ := hc.single _ _ _ hm
    rw [h] at hV; cases hV
  · have hown := (hi.mem hH p).mp hmem
    rw [own_none h] at hown
    cases hown

theorem outcome_eq_none (h : ∀ W, s.core.waiting p = some W → outcome s e p = none) : outcome s e p = none := by
  cases hw : s.core.waiting p with
  | none => rw [outcome, hw]; rfl
  | some W => exact h W hw

theorem outcome_spares (he : Spares s e) (hw : Waits s) (hsafe : NotifySafe s e) (p : Ptr) : outcome s e p = none := by
  apply outcome_eq_none
  intro W hW
  rw [outcome, hW, Option.bind_some]
  cases e with
  | transNotify k rsp h =>
    apply if_neg
    intro ⟨hk, hid⟩
    have hm := hw.map p W hW
    rw [hk, hid, he.notify k rsp h rfl] at hm
    cases hm
  | timer q =>
    apply if_neg
    intro ⟨hq, ha⟩
    subst hq
    rw [he.timer q rfl ha] at hW
    cases hW
  | networkError h =>
    apply if_neg
    intro hm
    obtain ⟨H, hH, hmem⟩ := hw.handle p W hW
    rw [hsafe.lost h rfl _ hm H hH p hmem] at hW
    cases hW
  | _ => rfl

theorem outcome_submit {r} (he : e.submitRsp = some r) (p : Ptr) : outcome s e p = none := by
  apply outcome_eq_none
  intro W hW
  rw [outcome, hW, Option.bind_some]
  cases e <;> first | rfl | cases he

theorem notified_none (hno : ∀ p, outcome s e p = none) (ho : ∀ o ∈ outs, o.isNotify = false)
    (hk : ∀ p W, s.core.waiting p = some W → s'.core.waiting p = some W) : Notified s e s' outs where
  sent := by
    refine ⟨[], List.nodup_nil, ?_, fun p W o => ?_⟩
    · rw [List.map_nil, List.filter_eq_nil_iff]
      intro o hmem
      rw [ho o hmem]
      exact Bool.false_ne_true
    · rw [hno p]
      simp
  removed p hp := absurd (hno p) hp
  kept p W hW _ := hk p W hW

theorem waits_created {k id h S hp} (hi : CoreInv s.core) (hw : Waits s) (hi' : SymInv s')
    (he : e.submitRsp = some (k, id, h, okType)) (hm : s.core.mapEndorse k id = some p)
    (hS : s.core.heap p = some (.endorse S)) (hwait : S.waitNotify = true) (hsafe : NotifySafe s e)
    (hs : WaitsSame (s.core.openSingle (S.waitSession hp)) s'.core) : Waits s' := by
  have hfree := hsafe.fresh _ he rfl p hm S (session_eq_some.mpr hS) hwait
  obtain ⟨S', hS', hk, hid⟩ := hi.endorse _ _ _ hm
  obtain rfl := Session.endorse.inj (Option.some.inj (hS.symm.trans hS'))
  subst hk hid
  have hcases : ∀ q W, s'.core.waiting q = some W →
      (q = s.core.next ∧ W = S.waitSession hp) ∨ (q ≠ s.core.next ∧ s.core.waiting q = some W) := by
    intro q W hW
    rw [hs.waiting, waiting_openSingle] at hW
    split at hW
    · rename_i hq
      exact .inl ⟨hq, (Option.some.inj hW).symm⟩
    · rename_i hq
      exact .inr ⟨hq, hW⟩
  refine ⟨fun q W hW => ?_, fun q W hW => ?_, fun q W hW => hi'.waits_handle hW⟩
  · obtain ⟨k, hk⟩ := (waiting_eq_some.mp hW).2
    rw [hk, hs.map]
    rcases hcases q W hW with ⟨rfl, rfl⟩ | ⟨-, hW'⟩
    · obtain rfl := SingleKind.waitNotify.inj hk
      simp [Core.openSingle, EndorseSession.waitSession]
    · have hold := hw.map q W hW'
      rw [hk] at hold
      have hne : ¬(k = S.kind ∧ W.cltSessionID = S.cltSessionID) := by
        rintro ⟨hk', hid⟩
        rw [hk', hid, hfree] at hold
        cases hold
      by_cases hkk : k = S.kind
      · subst hkk
        have hid : W.cltSessionID ≠ S.cltSessionID := fun h => hne ⟨rfl, h⟩
        simpa [Core.openSingle, Core.insertSingle, Core.alloc, Core.put, Core.setDscTimer, EndorseSession.waitSession,
          hid] using hold
      · simpa [Core.openSingle, Core.insertSingle, Core.alloc, Core.put, Core.setDscTimer, EndorseSession.waitSession,
          hkk] using hold
  · rw [hs.armed q W ((hs.waiting q).symm.trans hW)]
    rcases hcases q W hW with ⟨rfl, -⟩ | ⟨hq, hW'⟩
    · simp [Core.openSingle]
    · simpa [Core.openSingle, hq] using hw.timer q W hW'

theorem SingleEnded.waiting (h : SingleEnded s p W s') (q : Ptr) :
    s'.core.waiting q = if q = p then none else s.core.waiting q := by
  obtain ⟨-, -⟩ := h
  split
  · rename_i hq
    subst hq
    exact waiting_none (by simp [finishSingle_heap])
  · rename_i hq
    exact waiting_congr (by simp [finishSingle_heap, hq])

theorem waits_notified (hend : SingleEnded s p W s') (hw : Waits s) (hi' : SymInv s') : Waits s' := by
  have hold : ∀ q V, s'.core.waiting q = some V → q ≠ p ∧ s.core.waiting q = some V := by
    intro q V hV
    rw [hend.waiting] at hV
    split at hV
    · cases hV
    · rename_i hq
      exact ⟨hq, hV⟩
  refine ⟨fun q V hV => ?_, fun q V hV => ?_, fun q V hV => hi'.waits_handle hV⟩
  · obtain ⟨hq, hV'⟩ := hold q V hV
    obtain ⟨-, -⟩ := hend
    exact eraseSingle_eq_some.mpr ⟨hw.map q V hV', hq⟩
  · obtain ⟨hq, hV'⟩ := hold q V hV
    obtain ⟨-, -⟩ := hend
    simpa [Core.finishSingle, hq] using hw.timer q V hV'

theorem notified_ended {k rsp h} (hi : CoreInv s.core) (hw : Waits s) (hc' : CoreInv s'.core) (hi' : SymInv s')
    (hm : s.core.mapSingle (.waitNotify k) rsp.cltSessionID = some p) (hend : SingleEnded s p W s') :
    Notified s (.transNotify k rsp h) s' [onResponseSingle W rsp.returnCode rsp.transResult []] := by
  obtain ⟨V, hV, hk, hid⟩ := hi.single _ _ _ hm
  have hW : s.core.heap p = some (.single W) := (Gone.single hend).heap.1
  obtain rfl := Session.single.inj (Option.some.inj (hW.symm.trans hV))
  have hwait : s.core.waiting p = some W := waiting_eq_some.mpr ⟨hW, k, hk⟩
  have hout : outcome s (.transNotify k rsp h) p = some (rsp.returnCode, rsp.transResult) := by
    rw [outcome, hwait, Option.bind_some]
    exact if_pos ⟨hk, hid⟩
  have hother : ∀ q, q ≠ p → outcome s (.transNotify k rsp h) q = none := by
    intro q hq
    apply outcome_eq_none
    intro V hV
    rw [outcome, hV, Option.bind_some]
    apply if_neg
    intro ⟨hkV, hidV⟩
    have hmV := hw.map q V hV
    rw [hkV, hidV, hm] at hmV
    exact hq (Option.some.inj hmV).symm
  refine ⟨⟨[(p, W, rsp.returnCode, rsp.transResult)], by simp, ?_, fun q V o => ?_⟩, fun q hq => ?_, fun q V hV hno => ?_⟩
  · have hnot : (onResponseSingle W rsp.returnCode rsp.transResult []).isNotify = true := by
      simp [onResponseSingle, hk, Out.isNotify]
    simp [hnot]
  · rw [List.mem_singleton, Prod.mk.injEq, Prod.mk.injEq]
    refine ⟨fun ⟨hq, hVW, ho⟩ => ?_, fun ⟨hqV, ho⟩ => ?_⟩
    · rw [hq, hVW, ho]
      exact ⟨hwait, hout⟩
    · by_cases hq : q = p
      · subst hq
        exact ⟨rfl, Option.some.inj (hqV.symm.trans hwait), Option.some.inj (ho.symm.trans hout)⟩
      · rw [hother q hq] at ho
        cases ho
  · have hqp : q = p := by
      by_contra hne
      exact hq (hother q hne)
    subst hqp
    exact removed_of_heap hc' hi' (by rw [(Gone.single hend).heap.2, Function.update_self])
  · have hqp : q ≠ p := by
      intro heq
      subst heq
      rw [hout] at hno
      cases hno
    rw [hend.waiting, if_neg hqp]
    exact hV

theorem notified_of_safe (hi : CoreInv s.core) (hw : Waits s) (hc' : CoreInv s'.core) (hi' : SymInv s')
    (hst : step cfg s e = .ok (s', outs)) (hsafe : NotifySafe s e) : Notified s e s' outs ∧ Waits s' := by
  cases step_notify hi hst with
  | same he hs ho =>
    refine ⟨notified_none (outcome_spares he hw hsafe) ho fun p W hW => (hs.waiting p).trans hW,
      fun p W hW => ?_, fun p W hW => ?_, fun p W hW => hi'.waits_handle hW⟩
    · obtain ⟨k, hk⟩ := (waiting_eq_some.mp hW).2
      rw [hk, hs.map, ← hk]
      exact hw.map p W ((hs.waiting p).symm.trans hW)
    · have hW' := (hs.waiting p).symm.trans hW
      rw [hs.armed p W hW']
      exact hw.timer p W hW'
  | created he hm hS hwait _ hs ho =>
    refine ⟨notified_none (outcome_submit he) ho fun p W hW => ?_, waits_created hi hw hi' he hm hS hwait hsafe hs⟩
    rw [hs.waiting, waiting_openSingle, if_neg (Nat.ne_of_lt (hi.fresh _ _ (waiting_eq_some.mp hW).1))]
    exact hW
  | notified he hm hend ho =>
    subst he ho
    exact ⟨notified_ended hi hw hc' hi' hm hend, waits_notified hend hw hi'⟩
  | fired he ha hW =>
    subst he
    rw [hsafe.timer _ rfl ha] at hW
    cases hW

/-! ## Right steps are safe -/

theorem timerSafe_of_notified (hmove : NotifyMove s e s' outs) (hn : Notified s e s' outs) (he : e.timedOut = some p)
    (ha : s.core.armed p = true) : s.core.waiting p = none := by
  by_contra hne
  obtain ⟨W, hW⟩ := Option.ne_none_iff_exists'.mp hne
  obtain rfl : e = .timer p := by
    cases e <;> cases he
    rfl
  have hout : outcome s (.timer p) p ≠ none := by simp [outcome, hW, ha]
  cases hmove with
  | same hs => exact hne (hs.timer p rfl ha)
  | created he => cases he
  | notified he => cases he
  | fired _ _ _ hs =>
    have hgone := (hn.removed p hout).1
    rw [hs] at hgone
    have hheap : s.core.heap p = none := hgone
    rw [(waiting_eq_some.mp hW).1] at hheap
    cases hheap

theorem lostSafe_of_notified {h : McpHandler} {hp : HPtr} {H : HandleSession} (hsym : SymInv s)
    (hmove : NotifyMove s e s' outs) (hn : Notified s e s' outs) (he : e.lost = some h)
    (hm : s.links.mapHandle h.handleID = some hp) (hH : s.links.handles hp = some H) (hmem : p ∈ H.arrSession) :
    s.core.waiting p = none := by
  by_contra hne
  obtain ⟨W, hW⟩ := Option.ne_none_iff_exists'.mp hne
  obtain rfl : e = .networkError h := by
    cases e <;> cases he
    rfl
  have hown := (hsym.mem hH p).mp hmem
  rw [waiting_own hW, List.mem_singleton] at hown
  subst hown
  have hout : outcome s (.networkError h) p ≠ none := by
    rw [outcome, hW, Option.bind_some]
    simp only
    rw [if_pos hm]
    exact Option.some_ne_none _
  cases hmove with
  | same _ hs =>
    have hsame := (hs.waiting p).trans hW
    rw [waiting_none (hn.removed p hout).1] at hsame
    cases hsame
  | created he => cases he
  | notified he => cases he
  | fired he => cases he

theorem freshSafe_of_notified {k : Kind} {id : UInt32} {h : McpHandler} {S : EndorseSession} (hi : CoreInv s.core)
    (hmove : NotifyMove s e s' outs) (hn : Notified s e s' outs) (hw' : Waits s')
    (he : e.submitRsp = some (k, id, h, okType)) (hm : s.core.mapEndorse k id = some p)
    (hS : s.core.heap p = some (.endorse S)) (hwait : S.waitNotify = true) :
    s.core.mapSingle (.waitNotify k) id = none := by
  by_contra hne
  obtain ⟨q, hq⟩ := Option.ne_none_iff_exists'.mp hne
  cases hmove with
  | same hs =>
    rw [hs.submit k id h p S he hm hS] at hwait
    cases hwait
  | notified he' => rw [he'] at he; cases he
  | fired he' => rw [he'] at he; cases he
  | @created k' id' h' p' S' hp' he' hm' hS' _ _ hs =>
    simp only [he', Option.some.injEq, Prod.mk.injEq] at he
    obtain ⟨rfl, rfl, -⟩ := he
    obtain rfl := Option.some.inj (hm.symm.trans hm')
    obtain rfl := Session.endorse.inj (Option.some.inj (hS.symm.trans hS'))
    obtain ⟨V, hV, hk, hid⟩ := hi.single _ _ _ hq
    obtain ⟨T, hT, hkT, hidT⟩ := hi.endorse _ _ _ hm
    obtain rfl := Session.endorse.inj (Option.some.inj (hS.symm.trans hT))
    have hlt := hi.fresh _ _ hV
    have hold := hw'.map q V (hn.kept q V (waiting_eq_some.mpr ⟨hV, _, hk⟩) (outcome_submit he' q))
    have hnew := hw'.map s.core.next (S.waitSession hp') (by rw [hs.waiting, waiting_openSingle, if_pos rfl])
    rw [hk, hid] at hold
    unfold EndorseSession.waitSession at hnew
    rw [hkT, hidT, hold] at hnew
    exact Nat.ne_of_lt hlt (Option.some.inj hnew)

theorem safe_of_notified (hi : CoreInv s.core) (hsym : SymInv s) (hst : step cfg s e = .ok (s', outs))
    (hn : Notified s e s' outs) (hw' : Waits s') : NotifySafe s e := by
  have hmove := step_notify hi hst
  refine ⟨fun p he ha => timerSafe_of_notified hmove hn he ha,
    fun h he hp hm H hH p hmem => lostSafe_of_notified hsym hmove hn he hm hH hmem, ?_⟩
  intro r he hok p hm S hS hwait
  obtain ⟨k, id, h, code⟩ := r
  dsimp only at hok hm
  subst hok
  exact freshSafe_of_notified hi hmove hn hw' he hm (session_eq_some.mp hS) hwait

/-! ## Runs -/

/-- A loss that goes through ends at most one session, if none of them waits for a notify. -/
theorem keepsLinks_of (hi : SymInv s) (hk : LinksKept cfg s e) (hsafe : NotifySafe s e)
    (hst : step cfg s e = .ok (s', outs)) : KeepsLinks cfg s e := by
  refine ⟨hk.answer, hk.submit, hk.timer, hk.send, fun h he hp hm H hH => ?_⟩
  have hwait : ∀ q ∈ H.arrSession, ∀ x, s.core.heap q = some x → x.isWaitNotify = false := by
    intro q hq x hx
    have hno := hsafe.lost h he hp hm H hH q hq
    cases x with
    | endorse S => rfl
    | single V =>
      apply isWaitNotify_of_ne
      intro k hkV
      rw [waiting_eq_some.mpr ⟨hx, k, hkV⟩] at hno
      cases hno
  obtain rfl : e = .networkError h := by
    cases e <;> cases he
    rfl
  rw [Option.mem_def] at hm hH
  have hpeer : getPeerID cfg.peers h.handleID ≠ -1 := by
    intro hpeer
    simp [step, onNetworkError, hpeer] at hst
  rw [step_networkError hpeer hm hH] at hst
  obtain ⟨⟨s₁, o₁⟩, hloop, -⟩ := Except.bind_eq_ok.mp hst
  refine ⟨?_, fun q hq x hx => ⟨hwait q hq x hx, hk.lost h rfl hp hm H hH q hq x hx⟩⟩
  rcases Nat.eq_zero_or_pos H.arrSession.length with h0 | hpos
  · omega
  have hown : ∀ q ∈ H.arrSession, hp ∈ s.core.own q := fun q hq => (hi.mem hH q).mp hq
  have hrounds := netErrorLoop_rounds hloop (by exact hH) hpos fun q hq x hx =>
    ⟨hwait q hq x hx, own_eq hx ▸ hown q hq, own_eq hx ▸ hi.own_nodup q⟩
  omega

variable {tr : History}

theorem run_keepsLinks (h : Run (step cfg) {} (fun _ s e => LinksKept cfg s e) tr s)
    (hsafe : ∀ en ∈ tr, NotifySafe en.pre en.ev) : Run (step cfg) {} (fun _ s e => KeepsLinks cfg s e) tr s := by
  induction h with
  | nil => exact .nil
  | @snoc tr s e s' outs hr hk hst ih =>
    have hr' := ih fun en hen => hsafe en (List.mem_append_left _ hen)
    have hlast := hsafe ⟨s, e, outs⟩ (by simp)
    exact .snoc hr' (keepsLinks_of (run_symInv hr') hk hlast hst) hst

theorem waited_lt {C} (h : Run (step cfg) {} C tr s) : ∀ p, Waited tr p → p < s.core.next := by
  apply h.invariant (fun tr s => ∀ p, Waited tr p → p < s.core.next)
  · intro p ⟨en, hen, _⟩
    cases hen
  · intro tr s e s' outs hr ih _ hst p ⟨en, hen, hw⟩
    have hle := (run_move hr hst).next_le
    rcases List.mem_append.mp hen with hen | hen
    · exact Nat.lt_of_lt_of_le (ih p ⟨en, hen, hw⟩) hle
    · obtain rfl := List.mem_singleton.mp hen
      obtain ⟨W, hW⟩ := Option.ne_none_iff_exists'.mp hw
      exact Nat.lt_of_lt_of_le ((run_coreInv hr).fresh _ _ (waiting_eq_some.mp hW).1) hle

theorem waiting_new (hi : CoreInv s.core) (hst : step cfg s e = .ok (s', outs)) (h : s'.core.waiting p ≠ none) :
    s.core.waiting p ≠ none ∨ p = s.core.next := by
  cases step_notify hi hst with
  | same _ hs => exact .inl (hs.waiting p ▸ h)
  | created _ _ _ _ _ hs =>
    rw [hs.waiting, waiting_openSingle] at h
    split at h
    · rename_i hp
      exact .inr hp
    · exact .inl h
  | notified _ _ hend =>
    rw [hend.waiting] at h
    split at h
    · exact absurd rfl h
    · exact .inl h
  | fired _ _ _ hs =>
    subst hs
    exact .inl h

theorem outcomes_append {en : Entry State Event Out} :
    outcomes (tr ++ [en]) p = outcomes tr p ++ (outcome en.pre en.ev p).toList := by
  unfold outcomes
  rw [List.filterMap_append]
  cases h : outcome en.pre en.ev p <;> simp [h]

theorem outcomes_eq_nil (h : ¬Waited tr p) : outcomes tr p = [] := by
  rw [outcomes, List.filterMap_eq_nil_iff]
  intro en hen
  have hw : en.pre.core.waiting p = none := by
    by_contra hne
    exact h ⟨en, hen, hne⟩
  rw [outcome, hw]
  rfl

theorem once_step (hlt : Waited tr p → p < s.core.next)
    (ih : Waited tr p ∨ s.core.waiting p ≠ none → (outcomes tr p).length = if s.core.waiting p = none then 1 else 0)
    (hn : Notified s e s' outs) (hnew : s'.core.waiting p ≠ none → s.core.waiting p ≠ none ∨ p = s.core.next)
    (h : Waited (tr ++ [⟨s, e, outs⟩]) p ∨ s'.core.waiting p ≠ none) :
    (outcomes (tr ++ [⟨s, e, outs⟩]) p).length = if s'.core.waiting p = none then 1 else 0 := by
  rw [outcomes_append, List.length_append]
  cases hw : s.core.waiting p with
  | some W =>
    have h0 := ih (.inr (by rw [hw]; exact Option.some_ne_none W))
    rw [hw, if_neg (Option.some_ne_none W)] at h0
    cases ho : outcome s e p with
    | none => rw [hn.kept p W hw ho, if_neg (Option.some_ne_none W), h0, Option.toList_none, List.length_nil]
    | some o =>
      have hgone := (hn.removed p (by rw [ho]; exact Option.some_ne_none o)).1
      rw [waiting_none hgone, if_pos rfl, h0, Option.toList_some, List.length_singleton]
  | none =>
    have ho : outcome s e p = none := by rw [outcome, hw]; rfl
    rw [ho, Option.toList_none, List.length_nil, Nat.add_zero]
    by_cases hbefore : Waited tr p
    · have hnot : s'.core.waiting p = none := by
        by_contra hne
        rcases hnew hne with hne | hp
        · exact hne hw
        · exact Nat.ne_of_lt (hlt hbefore) hp
      rw [hnot, if_pos rfl, ih (.inl hbefore), hw, if_pos rfl]
    · have hnow : s'.core.waiting p ≠ none := by
        rcases h with ⟨en, hen, hne⟩ | h
        · rcases List.mem_append.mp hen with hen | hen
          · exact absurd ⟨en, hen, hne⟩ hbefore
          · obtain rfl := List.mem_singleton.mp hen
            exact absurd hw hne
        · exact h
      rw [outcomes_eq_nil hbefore, if_neg hnow, List.length_nil]

theorem NotifiesRight.init : NotifiesRight cfg [] {} := by
  have hnone : ∀ p W, ({} : State).core.waiting p ≠ some W := fun _ _ => nofun
  refine ⟨⟨nofun, ⟨?_, ?_, ?_⟩⟩, nofun, fun p h => ?_⟩
  · exact fun p W hW => absurd hW (hnone p W)
  · exact fun p W hW => absurd hW (hnone p W)
  · exact fun p W hW => absurd hW (hnone p W)
  · rcases h with ⟨_, h, _⟩ | h
    · cases h
    · exact absurd rfl h

theorem notifiesRight_of_safe (h : Run (step cfg) {} (fun _ s e => LinksKept cfg s e) tr s)
    (hsafe : ∀ en ∈ tr, NotifySafe en.pre en.ev) : NotifiesRight cfg tr s := by
  induction h with
  | nil => exact .init
  | @snoc tr s e s' outs hr hk hst ih =>
    have hpre : ∀ en ∈ tr, NotifySafe en.pre en.ev := fun en hen => hsafe en (List.mem_append_left _ hen)
    have hlast : NotifySafe s e := hsafe ⟨s, e, outs⟩ (by simp)
    have hr' := run_keepsLinks hr hpre
    have hk' := keepsLinks_of (run_symInv hr') hk hlast hst
    have hsucc := Run.snoc hr' hk' hst
    have hright := ih hpre
    obtain ⟨hn, hw'⟩ := notified_of_safe (run_coreInv hr) hright.waits.2 (run_coreInv hsucc) (run_symInv hsucc) hst hlast
    refine ⟨⟨fun en hen => ?_, hw'⟩, fun en hen s₁ hst₁ => ?_, fun p => ?_⟩
    · rcases List.mem_append.mp hen with hen | hen
      · exact hright.waits.1 en hen
      · obtain rfl := List.mem_singleton.mp hen
        exact hright.waits.2
    · rcases List.mem_append.mp hen with hen | hen
      · exact hright.notified en hen s₁ hst₁
      · obtain rfl := List.mem_singleton.mp hen
        obtain ⟨rfl, -⟩ := Prod.mk.inj (Except.ok.inj (hst.symm.trans hst₁))
        exact hn
    · exact once_step (waited_lt hr p) (hright.once p) hn (waiting_new (run_coreInv hr) hst)

theorem safe_of_notifiesRight (h : Run (step cfg) {} (fun _ s e => LinksKept cfg s e) tr s)
    (hn : ∀ en ∈ tr, ∀ s', step cfg en.pre en.ev = .ok (s', en.outs) → Notified en.pre en.ev s' en.outs)
    (hw : (∀ en ∈ tr, Waits en.pre) ∧ Waits s) : ∀ en ∈ tr, NotifySafe en.pre en.ev := by
  induction h with
  | nil => intro en hen; cases hen
  | @snoc tr s e s' outs hr hk hst ih =>
    have hmem : ⟨s, e, outs⟩ ∈ tr ++ [(⟨s, e, outs⟩ : Entry State Event Out)] := by simp
    have hpre := ih (fun en hen => hn en (List.mem_append_left _ hen))
      ⟨fun en hen => hw.1 en (List.mem_append_left _ hen), hw.1 _ hmem⟩
    have hsym := run_symInv (run_keepsLinks hr hpre)
    intro en hen
    rcases List.mem_append.mp hen with hen | hen
    · exact hpre en hen
    · obtain rfl := List.mem_singleton.mp hen
      exact safe_of_notified (run_coreInv hr) hsym hst (hn _ hmem s' hst) hw.2

/-- In the runs whose ended sessions are where their positions say, every promised notify
arrives once exactly when no timer of a wait-notify session goes off, no connection is lost
that one waits on, and none is made under an id in use. -/
theorem notify_right_iff (h : Run (step cfg) {} (fun _ s e => LinksKept cfg s e) tr s) :
    NotifiesRight cfg tr s ↔ ∀ en ∈ tr, NotifySafe en.pre en.ev :=
  ⟨fun hr => safe_of_notifiesRight h hr.notified hr.waits, notifiesRight_of_safe h⟩

end

/-! ## A timer that goes off -/

def waitNotifyRun : List Event := connectBoth ++
  [.registUserReq ⟨true, 3, 7, 1, [1], [2]⟩ 5 {}, registOk firstPeer 0 90 [4] {}, registOk secondPeer 0 91 [4] {},
    .submitRegistRsp ⟨okType, 0, ⟨1, 2, 3⟩, [], [], []⟩ firstPeer]

/-- The timer of a wait-notify session goes off and nothing is sent; when its connection is
lost, it is left in its map with a handle session that was freed. -/
theorem notify_lost : (¬∀ (cfg : Config) (tr : History) (s : State), Run (step cfg) {} anyStep tr s →
      NotifiesRight cfg tr s) ∧
    ¬Waits (final (step twoPeers) {} (waitNotifyRun ++ [.networkError firstPeer])) := by
  refine ⟨fun hall => ?_, fun hw => ?_⟩
  · have hr := hall twoPeers _ _ (run_trace_any (waitNotifyRun ++ [.timer 1]))
    obtain ⟨W, hW⟩ : ∃ W, (final (step twoPeers) {} (waitNotifyRun ++ [.timer 1])).core.waiting 1 = some W := ⟨_, rfl⟩
    exact absurd (hr.waits.2.timer 1 W hW) (by decide)
  · obtain ⟨H, hH, -⟩ := hw.handle 1 ⟨.waitNotify .regist, 5, 1, 0, 0⟩ rfl
    cases hH

theorem notify_right_two : ∃ tr s, Run (step twoPeers) {} (fun _ s e => LinksKept twoPeers s e) tr s ∧
    NotifiesRight twoPeers tr s ∧ outcomes tr 1 = [(okType, true)] := by
  let evs := waitNotifyRun ++ [.transNotify .regist ⟨true, okType, 0⟩ firstPeer]
  have hr := run_of_meets (step twoPeers) {} (fun _ s e => LinksKept twoPeers s e) evs (by decide)
  exact ⟨_, _, hr, (notify_right_iff hr).mpr (by decide), by decide⟩

end VProtocol.Client
