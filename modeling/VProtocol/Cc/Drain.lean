import VProtocol.Cc.Once

/-!
# The timers answer what the chaincode does not

A session that lives has its timer set, and what ends a session answers its request. So
whatever the chaincode and the committer do or leave undone, once the timers of the
sessions that are left have fired, in any order, no session is left and every request was
answered exactly once.
-/

namespace VProtocol.Cc

open Function (update)

/-- The answers that ending session `p` gave. -/
def answersOf (tr : History) (p : Ptr) : List Tag :=
  tr.flatMap fun en => if en.pre.ends en.ev = some p then en.outs.filterMap Out.answer else []

/-- A session has its timer set as long as it lives, and its request is answered when it ends. -/
structure DrainInv (tr : History) (s : State) : Prop where
  armed : ∀ p, s.card p ≠ none → s.armed p = true
  waiting : ∀ p, s.card p ≠ none → answersOf tr p = []
  unopened : ∀ p, s.next ≤ p → answersOf tr p = []
  answered : ∀ p t, OpenedBy tr p t → s.card p = none → answersOf tr p = [t]

section
variable {cfg : Config} {s s' : State} {e : Event} {outs : List Out} {tr : History} {p q : Ptr} {t : Tag}

theorem answersOf_snoc (en : Entry State Event Out) : answersOf (tr ++ [en]) p =
    answersOf tr p ++ if en.pre.ends en.ev = some p then en.outs.filterMap Out.answer else [] := by
  unfold answersOf
  rw [List.flatMap_append, List.flatMap_singleton]

theorem answersOf_other (h : s.ends e ≠ some p) : answersOf (tr ++ [⟨s, e, outs⟩]) p = answersOf tr p := by
  rw [answersOf_snoc, if_neg h, List.append_nil]

theorem DrainInv.quiet (hi : DrainInv tr s) (ho : e.opens = none) (he : s.ends e = none) (hc : s'.card = s.card)
    (ha : s'.armed = s.armed) (hn : s'.next = s.next) : DrainInv (tr ++ [⟨s, e, outs⟩]) s' := by
  have hans : ∀ p, answersOf (tr ++ [⟨s, e, outs⟩]) p = answersOf tr p := by
    intro p
    apply answersOf_other
    rw [he]
    nofun
  refine ⟨?_, ?_, ?_, ?_⟩
  · rw [hc, ha]
    exact hi.armed
  · intro p hp
    rw [hc] at hp
    rw [hans]
    exact hi.waiting p hp
  · intro p hp
    rw [hn] at hp
    rw [hans]
    exact hi.unopened p hp
  · intro p t hopen hp
    rw [hc] at hp
    rw [hans]
    rcases openedBy_append.mp hopen with hopen | ⟨-, hopen⟩
    · exact hi.answered p t hopen hp
    · cases ho.symm.trans hopen

theorem DrainInv.open {c} (hi : DrainInv tr s) (hends : s.ends e = none) (ho : Opened s c s' outs) :
    DrainInv (tr ++ [⟨s, e, outs⟩]) s' := by
  have hans : ∀ p, answersOf (tr ++ [⟨s, e, outs⟩]) p = answersOf tr p := by
    intro p
    apply answersOf_other
    rw [hends]
    nofun
  have hself : s'.card s.next = some c := by rw [ho.card, Function.update_self]
  refine ⟨?_, ?_, ?_, ?_⟩
  · intro p hp
    rw [ho.armed]
    by_cases hpn : p = s.next
    · rw [hpn, Function.update_self]
    · rw [Function.update_of_ne hpn]
      rw [ho.card_of_ne hpn] at hp
      exact hi.armed p hp
  · intro p hp
    rw [hans]
    by_cases hpn : p = s.next
    · exact hi.unopened p (Nat.le_of_eq hpn.symm)
    · rw [ho.card_of_ne hpn] at hp
      exact hi.waiting p hp
  · intro p hp
    rw [ho.next] at hp
    rw [hans]
    exact hi.unopened p (Nat.le_of_succ_le hp)
  · intro p t hopen hp
    have hpn : p ≠ s.next := by
      intro heq
      rw [heq, hself] at hp
      cases hp
    rw [ho.card_of_ne hpn] at hp
    rw [hans]
    rcases openedBy_append.mp hopen with hopen | ⟨hnext, -⟩
    · exact hi.answered p t hopen hp
    · exact absurd hnext.symm hpn

theorem DrainInv.end {c} (hi : DrainInv tr s) (hone : OnceInv tr s) (hop : e.opens = none) (he : s.ends e = some p)
    (hd : Ended s e p c s' outs) : DrainInv (tr ++ [⟨s, e, outs⟩]) s' := by
  have hother : ∀ q, q ≠ p → answersOf (tr ++ [⟨s, e, outs⟩]) q = answersOf tr q := by
    intro q hq
    apply answersOf_other
    rw [he]
    exact fun h => hq (Option.some.inj h).symm
  have hself : s'.card p = none := by rw [hd.card, Function.update_self]
  have hlt : p < s.next := (hone.opened p _ (hone.live p c hd.was)).1
  refine ⟨?_, ?_, ?_, ?_⟩
  · intro q hq
    have hqp : q ≠ p := fun heq => hq (heq ▸ hself)
    rw [hd.card_of_ne hqp] at hq
    rw [hd.armed, Function.update_of_ne hqp]
    exact hi.armed q hq
  · intro q hq
    have hqp : q ≠ p := fun heq => hq (heq ▸ hself)
    rw [hd.card_of_ne hqp] at hq
    rw [hother q hqp]
    exact hi.waiting q hq
  · intro q hq
    rw [hd.next] at hq
    rw [hother q (Nat.ne_of_gt (Nat.lt_of_lt_of_le hlt hq))]
    exact hi.unopened q hq
  · intro q t hopen hq
    have hopen : OpenedBy tr q t := by
      rcases openedBy_append.mp hopen with hopen | ⟨-, hopen⟩
      · exact hopen
      · cases hop.symm.trans hopen
    by_cases hqp : q = p
    · -- the session that ends is answered for the request that opened it
      subst hqp
      have hwait : answersOf tr q = [] := hi.waiting q (by rw [hd.was]; nofun)
      rw [answersOf_snoc, if_pos he, hwait, List.nil_append, hd.answers]
      rw [(hone.opened q t hopen).2 c hd.was]
    · rw [hd.card_of_ne hqp] at hq
      rw [hother q hqp]
      exact hi.answered q t hopen hq

theorem DrainInv.step (hi : DrainInv tr s) (hone : OnceInv tr s) (hl : Life s e s' outs) :
    DrainInv (tr ++ [⟨s, e, outs⟩]) s' := by
  cases hl with
  | kept ho he hk => exact hi.quiet ho he hk.card hk.armed hk.next
  | returned he => exact hi.quiet (by rw [he]; rfl) (by rw [he]; rfl) rfl rfl rfl
  | opened _ hends ho => exact hi.open hends ho
  | ended ho he hd => exact hi.end hone ho he hd

theorem run_drainInv {C} (h : Run (Cc.step cfg) {} C tr s) : DrainInv tr s := by
  apply h.invariant DrainInv
  · refine ⟨nofun, fun _ _ => rfl, fun _ _ => rfl, ?_⟩
    simp [OpenedBy]
  · intro tr s e s' outs hr hi _ hst
    exact hi.step (run_onceInv hr) (step_life (run_mapInv hr) hst)

/-! ## Firing the timers -/

theorem step_timer (hm : MapInv s) (hp : s.proc = none) (p : Ptr) :
    ∃ s' outs, Cc.step cfg s (.timer p) = .ok (s', outs) := by
  obtain ⟨⟨s', outs⟩, hst⟩ := onTimer_ok hm p
  refine ⟨s', outs, ?_⟩
  unfold Cc.step
  rw [hp]
  exact hst

theorem ends_timer : s.ends (.timer p) = if s.armed p then some p else none := rfl

theorem timer_after (hi : DrainInv tr s) (hl : Life s (.timer p) s' outs) :
    s'.proc = s.proc ∧ ∀ q, s'.card q = if q = p then none else s.card q := by
  cases hl with
  | kept _ he hk =>
    refine ⟨hk.proc, fun q => ?_⟩
    rw [hk.card]
    by_cases hq : q = p
    · subst hq
      rw [if_pos rfl]
      by_contra hc
      rw [ends_timer, if_pos (hi.armed q hc)] at he
      cases he
    · rw [if_neg hq]
  | returned he => cases he
  | opened ho _ _ => cases ho
  | @ended r c _ _ _ he hd =>
    rw [ends_timer] at he
    split at he
    · obtain rfl := Option.some.inj he
      refine ⟨(hd.erased nofun).2, fun q => ?_⟩
      rw [hd.card]
      by_cases hq : q = p
      · rw [hq, Function.update_self, if_pos rfl]
      · rw [Function.update_of_ne hq, if_neg hq]
    · cases he

/-- The timers of `ps` fire one after the other, and the sessions of `ps` are gone. -/
theorem timers_fire (ps : List Ptr) (h : Run (Cc.step cfg) {} anyStep tr s) (hp : s.proc = none) :
    ∃ tr' s', Run (Cc.step cfg) {} anyStep (tr ++ tr') s' ∧ tr'.map (·.ev) = ps.map .timer ∧
      ∀ q, s'.card q = if q ∈ ps then none else s.card q := by
  induction ps generalizing tr s with
  | nil => exact ⟨[], s, by simpa using h, rfl, by simp⟩
  | cons p ps ih =>
    obtain ⟨s₁, outs, hst⟩ := step_timer (run_mapInv h) hp p
    obtain ⟨hproc, hcard⟩ := timer_after (run_drainInv h) (step_life (run_mapInv h) hst)
    obtain ⟨tr', s', hr, hev, hgone⟩ := ih (.snoc h trivial hst) (hproc.trans hp)
    refine ⟨⟨s, .timer p, outs⟩ :: tr', s', ?_, ?_, fun q => ?_⟩
    · simpa using hr
    · rw [List.map_cons, List.map_cons, hev]
    · rw [hgone, hcard]
      by_cases hq : q = p
      · simp [hq]
      · simp [hq]

theorem opens_timers {ps : List Ptr} {tr' : History} (hev : tr'.map (·.ev) = ps.map .timer) :
    OpenedBy (tr ++ tr') p t ↔ OpenedBy tr p t := by
  unfold OpenedBy
  constructor
  · intro ⟨en, hen, hnext, hopen⟩
    rcases List.mem_append.mp hen with hen | hen
    · exact ⟨en, hen, hnext, hopen⟩
    · have hmem : en.ev ∈ ps.map Event.timer := hev ▸ List.mem_map_of_mem hen
      obtain ⟨q, -, hq⟩ := List.mem_map.mp hmem
      rw [← hq] at hopen
      cases hopen
  · intro ⟨en, hen, hrest⟩
    exact ⟨en, List.mem_append_left _ hen, hrest⟩

/-- From any state a run leads to, outside the chaincode: the timers of the sessions that
are left can fire in any order, and then there is no session and every request has had
exactly one answer, its own. -/
theorem timers_answer_all (h : Run (Cc.step cfg) {} anyStep tr s) (hp : s.proc = none) (ps : List Ptr)
    (hall : ∀ p, s.heap p ≠ none → p ∈ ps) :
    ∃ tr' s', Run (Cc.step cfg) {} anyStep (tr ++ tr') s' ∧ tr'.map (·.ev) = ps.map .timer ∧
      (∀ p, s'.heap p = none) ∧ ∀ p t, OpenedBy tr p t → answersOf (tr ++ tr') p = [t] := by
  obtain ⟨tr', s', hr, hev, hcard⟩ := timers_fire ps h hp
  have hgone : ∀ p, s'.card p = none := by
    intro p
    rw [hcard]
    split
    · rfl
    · by_contra hc
      exact ‹p ∉ ps› (hall p fun hx => hc (card_eq_none.mpr hx))
  refine ⟨tr', s', hr, hev, fun p => card_eq_none.mp (hgone p), fun p t hopen => ?_⟩
  exact (run_drainInv hr).answered p t ((opens_timers hev).mpr hopen) (hgone p)

end

/-- Two proposals and a registration; the second proposal is answered, and the timers of the others fire. -/
def unanswered : List Event :=
  [.submitProposalReq ⟨8, 1, 0, [9]⟩ 5, .procReturn 0, .submitProposalReq ⟨8, 2, 0, [9]⟩ 6, .procReturn 0,
    .registUserReq ⟨7, 0, [1], [2]⟩ 5, .procReturn 0, .call (.porposalRsp okType 0x200000001 [7] true)]

theorem timers_answer_two :
    ∃ tr' s', Run (step oneChannel) {} anyStep (trace (step oneChannel) {} unanswered ++ tr') s' ∧
    tr'.map (·.ev) = [2, 1, 0].map .timer ∧ (∀ p, s'.heap p = none) ∧
    ∀ p t, OpenedBy (trace (step oneChannel) {} unanswered) p t →
      answersOf (trace (step oneChannel) {} unanswered ++ tr') p = [t] := by
  refine timers_answer_all (run_trace_any unanswered) rfl [2, 1, 0] ?_
  intro p hp
  match p, hp with
  | 0, _ => decide
  | 1, _ => decide
  | 2, _ => decide
  | n + 3, hp => exact absurd rfl hp

end VProtocol.Cc
