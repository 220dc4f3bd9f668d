import VProtocol.Cc.Life
import VProtocol.Cc.WriteSet

/-!
# Handles

A handle is the session id with the kind of the session in the upper half. The request
of a registration passes such a handle on; the request of a proposal passes the id alone,
which names no session of either kind.
-/

namespace VProtocol.Cc

open Function (update)

/-! ## Splitting and combining -/

theorem toNat_combine (id type : UInt32) :
    (combineUserCCSessionID id type).toNat = type.toNat * 2 ^ 32 + id.toNat := by
  have h1 := id.toNat_lt
  have h2 := type.toNat_lt
  have hs : (type.toUInt64 <<< 32).toNat = type.toNat * 2 ^ 32 := by
    rw [UInt64.toNat_shiftLeft, UInt32.toNat_toUInt64, Nat.shiftLeft_eq]
    exact Nat.mod_eq_of_lt (by simp; omega)
  unfold combineUserCCSessionID
  rw [UInt64.toNat_add, hs, UInt32.toNat_toUInt64]
  exact Nat.mod_eq_of_lt (by omega)

theorem split_toNat (h : UInt64) : (splitUserCCSessionID h).1.toNat = h.toNat % 2 ^ 32 ∧
    (splitUserCCSessionID h).2.toNat = h.toNat / 2 ^ 32 := by
  have hh := h.toNat_lt
  unfold splitUserCCSessionID
  constructor
  · rw [UInt64.toNat_toUInt32, UInt64.toNat_and, show (0xFFFFFFFF : UInt64).toNat = 2 ^ 32 - 1 from rfl,
      Nat.and_two_pow_sub_one_eq_mod, Nat.mod_mod]
  · rw [UInt64.toNat_toUInt32, UInt64.toNat_shiftRight, Nat.shiftRight_eq_div_pow]
    exact Nat.mod_eq_of_lt (by simp; omega)

theorem split_combine (id type : UInt32) : splitUserCCSessionID (combineUserCCSessionID id type) = (id, type) := by
  obtain ⟨h1, h2⟩ := split_toNat (combineUserCCSessionID id type)
  rw [toNat_combine] at h1 h2
  have hid := id.toNat_lt
  refine Prod.ext (UInt32.toNat_inj.mp (h1.trans ?_)) (UInt32.toNat_inj.mp (h2.trans ?_))
  · change _ = id.toNat
    omega
  · change _ = type.toNat
    omega

theorem split_bare (id : UInt32) : splitUserCCSessionID id.toUInt64 = (id, 0) := by
  obtain ⟨h1, h2⟩ := split_toNat id.toUInt64
  rw [UInt32.toNat_toUInt64] at h1 h2
  have hid := id.toNat_lt
  refine Prod.ext (UInt32.toNat_inj.mp (h1.trans ?_)) (UInt32.toNat_inj.mp (h2.trans ?_))
  · change _ = id.toNat
    omega
  · change _ = 0
    omega

/-! ## The property -/

/-- `RegistUserProc` or `ProposalProc` was called with handle `h` for session `p`. -/
def Passed (tr : History) (p : Ptr) (k : Kind) (h : UInt64) : Prop :=
  ∃ en ∈ tr, en.pre.next = p ∧ (k, h) ∈ en.outs.filterMap Out.handle

def Call.kind : Call → Kind
  | .registUserRsp _ _ _ _ => .registUser
  | _ => .processProposal

def Call.handle : Call → UInt64
  | .getVbhUser h _ _ => h
  | .setVbhUser h _ _ => h
  | .getVbhInformation h _ _ => h
  | .setVbhInformation h _ _ => h
  | .createVbhInformation h _ _ => h
  | .registUserRsp _ h _ _ => h
  | .porposalRsp _ h _ _ => h

structure HandlesRight (cfg : Config) (tr : History) (s : State) : Prop where
  split : ∀ id type, splitUserCCSessionID (combineUserCCSessionID id type) = (id, type)
  accepted : ∀ p k h, Passed tr p k h → s.card p ≠ none → ∀ c : Call, c.kind = k → c.handle = h →
    s.named c.kind c.handle = some p
  rejected : ∀ p k h, Passed tr p k h → ∀ c : Call, c.kind ≠ k → c.handle = h →
    ∃ code ≠ 0, onCall cfg s c = .ok (s, [.ret code])
  differ : ∀ p q k k' h, Passed tr p k h → Passed tr q k' h → s.card p ≠ none → s.card q ≠ none → p = q

/-- No request for a proposal, and no registration under the id of one that lives. -/
def HandleSafe (s : State) (e : Event) : Prop :=
  ∀ t ∈ e.opens, t.1 = .registUser ∧ ∀ p ∈ s.mapRegistUser s.sessionID, s.card p = none

instance (s : State) (e : Event) : Decidable (HandleSafe s e) := by
  delta HandleSafe; infer_instance

/-! ## What a call does with a handle that names nothing -/

section
variable {cfg : Config} {s s' : State} {e : Event} {outs : List Out} {tr : History} {p q : Ptr} {k : Kind} {h : UInt64}

theorem onCall_refused {c : Call} (hn : s.named c.kind c.handle = none) :
    ∃ code ≠ 0, onCall cfg s c = .ok (s, [.ret code]) := by
  cases c with
  | registUserRsp code h allow info =>
    refine ⟨-1, by decide, ?_⟩
    change registUserRsp s code h allow info = _
    unfold registUserRsp
    by_cases ht : (splitUserCCSessionID h).2 = registUserSessionType
    · have hm : s.mapRegistUser (splitUserCCSessionID h).1 = none := (named_eq (k := .registUser) ht).symm.trans hn
      simp only [if_pos ht, hm]
    · simp only [if_neg ht]
  | getVbhUser h key sendRet =>
    refine ⟨systemErrorType, by decide, ?_⟩
    change getVbh cfg s .user systemErrorType h key sendRet = _
    unfold getVbh
    rw [show s.find h = none from hn]
  | getVbhInformation h key sendRet =>
    refine ⟨-1, by decide, ?_⟩
    change getVbh cfg s .info (-1) h key sendRet = _
    unfold getVbh
    rw [show s.find h = none from hn]
  | setVbhUser h key value =>
    refine ⟨systemErrorType, by decide, ?_⟩
    change setVbh s .user systemErrorType h key value = _
    unfold setVbh
    rw [show s.find h = none from hn]
  | setVbhInformation h key value =>
    refine ⟨-1, by decide, ?_⟩
    change setVbh s .info (-1) h key value = _
    unfold setVbh
    rw [show s.find h = none from hn]
  | createVbhInformation h key value =>
    refine ⟨-1, by decide, ?_⟩
    change createVbhInformation s h key value = _
    unfold createVbhInformation
    rw [show s.find h = none from hn]
  | porposalRsp code h result encodes =>
    refine ⟨-1, by decide, ?_⟩
    change porposalRsp s code h result encodes = _
    unfold porposalRsp
    rw [show s.find h = none from hn]

/-! ## Handles and cards -/

theorem split_handle (c : Card) : (splitUserCCSessionID c.handle).1 = c.ccSessionID ∧
    (splitUserCCSessionID c.handle).2 = if c.kind = .registUser then registUserSessionType else 0 := by
  obtain ⟨k, id, es, addr⟩ := c
  cases k with
  | registUser => exact Prod.ext_iff.mp (split_combine id registUserSessionType)
  | processProposal => exact Prod.ext_iff.mp (split_bare id)

theorem named_other (c : Card) (hk : c.kind ≠ k) : s.named k c.handle = none := by
  apply named_eq_none
  rw [(split_handle c).2]
  cases k with
  | registUser => rw [if_neg hk]; decide
  | processProposal =>
    split
    · decide
    · decide

theorem named_handle {c : Card} (hc : c.kind = .registUser) :
    s.named .registUser c.handle = s.map .registUser c.ccSessionID := by
  obtain ⟨hid, ht⟩ := split_handle c
  rw [if_pos hc] at ht
  rw [named_eq (k := .registUser) ht, hid]

theorem named_bare {c : Card} (hc : c.kind = .processProposal) : s.named .processProposal c.handle = none := by
  apply named_eq_none
  rw [(split_handle c).2, hc]
  decide

/-! ## Handles that were passed -/

theorem passed_append {en : Entry State Event Out} : Passed (tr ++ [en]) p k h ↔
    Passed tr p k h ∨ en.pre.next = p ∧ (k, h) ∈ en.outs.filterMap Out.handle := by
  unfold Passed
  simp only [List.mem_append, List.mem_singleton, or_and_right, exists_or, exists_eq_left]

theorem passed_quiet (ho : outs.filterMap Out.handle = []) :
    Passed (tr ++ [⟨s, e, outs⟩]) p k h ↔ Passed tr p k h := by
  rw [passed_append, ho]
  simp

theorem Opened.passed {c} (ho : Opened s c s' outs) : Passed (tr ++ [⟨s, e, outs⟩]) p k h ↔
    Passed tr p k h ∨ p = s.next ∧ k = c.kind ∧ h = c.handle := by
  rw [passed_append, ho.handles]
  simp [eq_comm]

/-- The handle that was passed for a session is the one of its card. -/
structure PassedInv (tr : History) (s : State) : Prop where
  fresh : ∀ p k h, Passed tr p k h → p < s.next
  card : ∀ p k h, Passed tr p k h → ∃ c : Card, c.kind = k ∧ c.handle = h ∧ ∀ d, s.card p = some d → d = c
  live : ∀ p c, s.card p = some c → Passed tr p c.kind c.handle

theorem PassedInv.step (hi : PassedInv tr s) (hl : Life s e s' outs) :
    PassedInv (tr ++ [⟨s, e, outs⟩]) s' := by
  cases hl with
  | kept _ _ hk =>
    refine ⟨fun p k h hp => ?_, fun p k h hp => ?_, fun p c hc => ?_⟩
    · rw [hk.next]
      exact hi.fresh p k h ((passed_quiet hk.handles).mp hp)
    · rw [hk.card]
      exact hi.card p k h ((passed_quiet hk.handles).mp hp)
    · rw [hk.card] at hc
      exact (passed_quiet hk.handles).mpr (hi.live p c hc)
  | returned _ =>
    refine ⟨fun p k h hp => hi.fresh p k h ((passed_quiet rfl).mp hp), fun p k h hp => ?_, fun p c hc => ?_⟩
    · exact hi.card p k h ((passed_quiet rfl).mp hp)
    · exact (passed_quiet rfl).mpr (hi.live p c hc)
  | @opened c _ _ _ _ ho =>
    refine ⟨fun p k h hp => ?_, fun p k h hp => ?_, fun p d hd => ?_⟩
    · rw [ho.next]
      rcases ho.passed.mp hp with hp | ⟨rfl, -, -⟩
      · exact Nat.lt_succ_of_lt (hi.fresh p k h hp)
      · exact Nat.lt_succ_self _
    · rcases ho.passed.mp hp with hp | ⟨rfl, rfl, rfl⟩
      · rw [ho.card_of_ne (Nat.ne_of_lt (hi.fresh p k h hp))]
        exact hi.card p k h hp
      · refine ⟨c, rfl, rfl, fun d hd => ?_⟩
        rw [ho.card, Function.update_self] at hd
        exact (Option.some.inj hd).symm
    · by_cases hp : p = s.next
      · subst hp
        rw [ho.card, Function.update_self] at hd
        obtain rfl := Option.some.inj hd
        exact ho.passed.mpr (.inr ⟨rfl, rfl, rfl⟩)
      · rw [ho.card_of_ne hp] at hd
        exact ho.passed.mpr (.inl (hi.live p d hd))
  | ended _ _ hd =>
    refine ⟨fun p k h hp => ?_, fun p k h hp => ?_, fun p c hc => ?_⟩
    · rw [hd.next]
      exact hi.fresh p k h ((passed_quiet hd.handles).mp hp)
    · obtain ⟨c, hk, hh, hc⟩ := hi.card p k h ((passed_quiet hd.handles).mp hp)
      exact ⟨c, hk, hh, fun d hd' => hc d (hd.card_some hd')⟩
    · exact (passed_quiet hd.handles).mpr (hi.live p c (hd.card_some hc))

theorem passed_nil : ¬Passed [] p k h := by simp [Passed]

theorem passedInv_init : PassedInv [] {} :=
  ⟨fun _ _ _ h => absurd h passed_nil, fun _ _ _ h => absurd h passed_nil, (fun _ _ h => by cases h)⟩

theorem run_passedInv {C} (h : Run (Cc.step cfg) {} C tr s) : PassedInv tr s := by
  refine h.invariant PassedInv passedInv_init ?_
  intro tr s e s' outs hr hi _ hst
  exact hi.step (step_life (run_mapInv hr) hst)

theorem PassedInv.rejected (hi : PassedInv tr s) (hp : Passed tr p k h) {c : Call} (hk : c.kind ≠ k) (hh : c.handle = h) :
    ∃ code ≠ 0, onCall cfg s c = .ok (s, [.ret code]) := by
  obtain ⟨d, rfl, rfl, -⟩ := hi.card p k h hp
  apply onCall_refused
  rw [hh]
  exact named_other d (Ne.symm hk)

/-! ## Handles over a step -/

/-- Every live session is a registration that its handle names. -/
def Named (s : State) : Prop := ∀ p c, s.card p = some c → c.kind = .registUser ∧ s.map .registUser c.ccSessionID = some p

theorem handlesRight_iff (hi : PassedInv tr s) : HandlesRight cfg tr s ↔ Named s := by
  constructor
  · intro hr p c hc
    have hacc := hr.accepted p _ _ (hi.live p c hc) (by rw [hc]; nofun)
    cases hk : c.kind with
    | registUser =>
      refine ⟨rfl, ?_⟩
      rw [← named_handle hk]
      exact hacc (.registUserRsp 0 c.handle true []) hk.symm rfl
    | processProposal =>
      have hsome : s.named .processProposal c.handle = some p := hacc (.createVbhInformation c.handle [] []) hk.symm rfl
      rw [named_bare hk] at hsome
      cases hsome
  · intro hn
    have hlive : ∀ p k h, Passed tr p k h → s.card p ≠ none → k = .registUser ∧ s.named k h = some p := by
      intro p k h hp hs
      obtain ⟨c, rfl, rfl, hc⟩ := hi.card p k h hp
      obtain ⟨d, hd⟩ := Option.ne_none_iff_exists'.mp hs
      obtain rfl := hc d hd
      obtain ⟨hk, hmap⟩ := hn p d hd
      exact ⟨hk, by rw [hk, named_handle hk, hmap]⟩
    refine ⟨split_combine, ?_, fun p k h hp c hk hh => hi.rejected hp hk hh, ?_⟩
    · intro p k h hp hs c hk hh
      rw [hk, hh]
      exact (hlive p k h hp hs).2
    · intro p q k k' h hp hq hps hqs
      obtain ⟨rfl, hnp⟩ := hlive p k h hp hps
      obtain ⟨rfl, hnq⟩ := hlive q k' h hq hqs
      exact Option.some.inj (hnp.symm.trans hnq)

theorem Named.kept (hn : Named s) (hc : s'.card = s.card) (hm : s'.map = s.map) : Named s' := by
  intro p c h
  rw [hc] at h
  rw [hm]
  exact hn p c h

theorem Named.opened {c} (hn : Named s) (hi : MapInv s) (ho : Opened s c s' outs) : Named s' ↔
    c.kind = .registUser ∧ ∀ p, s.mapRegistUser s.sessionID = some p → s.card p = none := by
  have hself : s'.card s.next = some c := by rw [ho.card, Function.update_self]
  constructor
  · intro hn'
    refine ⟨(hn' _ c hself).1, fun p hp => ?_⟩
    cases hd : s.card p with
    | none => rfl
    | some d =>
      have hlt : p < s.next := hi.bound .registUser _ _ hp
      obtain ⟨-, hid⟩ := hi.key .registUser _ _ _ hp hd
      have hmap := (hn' p d (by rw [ho.card_of_ne (Nat.ne_of_lt hlt)]; exact hd)).2
      rw [ho.map, (hn' _ c hself).1, Function.update_self, hid, Function.update_self] at hmap
      exact absurd (Option.some.inj hmap) (Nat.ne_of_gt hlt)
  · intro ⟨hk, hfree⟩ p d hd
    by_cases hp : p = s.next
    · subst hp
      rw [hself] at hd
      obtain rfl := Option.some.inj hd
      refine ⟨hk, ?_⟩
      rw [ho.map, hk, Function.update_self, ho.id, Function.update_self]
    · rw [ho.card_of_ne hp] at hd
      obtain ⟨hkd, hmap⟩ := hn p d hd
      refine ⟨hkd, ?_⟩
      have hid : d.ccSessionID ≠ s.sessionID := by
        intro hid
        rw [hid] at hmap
        rw [hfree p hmap] at hd
        cases hd
      rw [ho.map, hk, Function.update_self, Function.update_of_ne hid, hmap]

theorem Named.ended {c} (hn : Named s) (hd : Ended s e p c s' outs) : Named s' := by
  intro q d hq
  have hqp : q ≠ p := by
    intro hqp
    rw [hqp, hd.card, Function.update_self] at hq
    cases hq
  obtain ⟨hk, hmap⟩ := hn q d (hd.card_some hq)
  refine ⟨hk, ?_⟩
  by_cases hr : ∃ ret, e = .procReturn ret
  · obtain ⟨ret, he⟩ := hr
    rw [(hd.returned ret he).1, Function.update_of_ne (by decide), hmap]
  · rw [(hd.erased fun ret he => hr ⟨ret, he⟩).1, hmap, if_neg]
    exact fun h => hqp (Option.some.inj h)

theorem Life.named (hn : Named s) (hi : MapInv s) (hl : Life s e s' outs) : Named s' ↔ HandleSafe s e := by
  have hquiet : e.opens = none → HandleSafe s e := by
    intro ho t ht
    rw [ho] at ht
    cases ht
  cases hl with
  | kept ho _ hk => exact ⟨fun _ => hquiet ho, fun _ => hn.kept hk.card hk.map⟩
  | returned he => exact ⟨fun _ => hquiet (by rw [he]; rfl), fun _ => hn⟩
  | @opened c _ _ ho _ hop =>
    rw [hn.opened hi hop]
    simp [HandleSafe, ho, Card.tag]
  | ended ho _ hd => exact ⟨fun _ => hquiet ho, fun _ => hn.ended hd⟩

/-- The handles are right all along a run if and only if it has no request for a proposal
and no registration takes an id that is in use. -/
theorem handles_right_iff (h : Run (Cc.step cfg) {} anyStep tr s) :
    Always (HandlesRight cfg) tr s ↔ Each (fun _ => HandleSafe) tr := by
  refine Run.always_iff ((handlesRight_iff passedInv_init).mpr fun _ _ h => by cases h) ?_ h
  intro tr s e s' outs hr _ hP _ hst
  have hl := step_life (run_mapInv hr) hst
  have hn := (handlesRight_iff (run_passedInv hr)).mp hP
  rw [handlesRight_iff ((run_passedInv hr).step hl)]
  exact hl.named hn (run_mapInv hr)

end

/-! ## The handle of a proposal -/

/-- `ProposalProc` is called with handle 0, which names nothing. -/
theorem handle_refused : ¬∀ (cfg : Config) (tr : History) (s : State),
    Run (step cfg) {} anyStep tr s → Always (HandlesRight cfg) tr s := by
  intro hall
  have hr : Run (step oneChannel) {} anyStep (trace (step oneChannel) {} propose) _ := run_trace_any propose
  have hpassed : Passed (trace (step oneChannel) {} propose) 0 .processProposal 0 :=
    ⟨_, List.mem_of_getElem? (i := 0) rfl, rfl, by decide⟩
  have hacc := (hall oneChannel _ _ hr).2.accepted 0 _ _ hpassed nofun (.porposalRsp okType 0 [7] true) rfl rfl
  have hnone : (final (step oneChannel) {} propose).named .processProposal 0 = none := by decide
  cases hnone.symm.trans hacc

theorem handles_right_two : ∃ tr s, Run (step oneChannel) {} anyStep tr s ∧ Always (HandlesRight oneChannel) tr s ∧
    tr.flatMap (·.outs.filterMap Out.handle) = [(.registUser, 0x100000000), (.registUser, 0x100000001)] := by
  let evs : List Event := [.registUserReq ⟨7, 0, [1], [2]⟩ 5, .procReturn 0, .registUserReq ⟨7, 0, [1], [2]⟩ 5,
    .procReturn 0, .call (.registUserRsp okType 0x100000000 true [3])]
  have hr := run_of_meets (step oneChannel) {} (fun _ => HandleSafe) evs (by decide)
  exact ⟨_, _, hr.any, (handles_right_iff hr.any).mpr hr.each, by decide⟩

end VProtocol.Cc
