import VProtocol.Cc.Life
import VProtocol.Cc.WriteSet

/-!
# One answer and one release

Every answer ends the session of the request it answers, and no session ends twice. What
can go wrong is that a session is read after its end: the caller of `RegistUserProc` and
`ProposalProc` keeps the pointer while the chaincode may answer, and a registration that
fails leaves its entry in its map.
-/

namespace VProtocol.Cc

open Function (update)

/-! ## The property -/

/-- The sessions that a history frees, in order. -/
def endsOf (tr : History) : List Ptr := tr.filterMap fun en => en.pre.ends en.ev

/-- Session `p` was opened by the request with this tag. -/
def OpenedBy (tr : History) (p : Ptr) (t : Tag) : Prop := ∃ en ∈ tr, en.pre.next = p ∧ en.ev.opens = some t

/-- Each answer ends the session of its request, and each session ends once. -/
structure AnsweredOnce (tr : History) : Prop where
  request : ∀ p t t', OpenedBy tr p t → OpenedBy tr p t' → t = t'
  freed : (endsOf tr).Nodup
  answer : ∀ tr₁ en tr₂, tr = tr₁ ++ en :: tr₂ → ∀ t ∈ en.outs.filterMap Out.answer,
    en.outs.filterMap Out.answer = [t] ∧ ∃ p, en.pre.ends en.ev = some p ∧ OpenedBy tr₁ p t

/-- What may come next: an event, or the end of the service with the keys of its maps. -/
inductive Act where
  | event (e : Event)
  | exit (registUserIDs processProposalIDs : List UInt32)

def act (cfg : Config) (s : State) : Act → Res State
  | .event e => (step cfg s e).map Prod.fst
  | .exit ids ids' => onExit s ids ids'

def Act.Enumerates (s : State) : Act → Prop
  | .event _ => True
  | .exit ids ids' => (ids.Nodup ∧ ∀ id, s.mapRegistUser id ≠ none → id ∈ ids) ∧
    (ids'.Nodup ∧ ∀ id, s.mapProcessProposal id ≠ none → id ∈ ids')

structure OnceRight (cfg : Config) (tr : History) (s : State) (a : Act) : Prop where
  answered : AnsweredOnce tr
  untouched : act cfg s a ≠ .error .dangling

/-- `RegistUserProc` or `ProposalProc` returned nonzero for session `p`. -/
def Failed (tr : History) (p : Ptr) : Prop :=
  ∃ en ∈ tr, ∃ ret ≠ 0, en.ev = .procReturn ret ∧ ∃ pr ∈ en.pre.proc, pr.p = p

/-- A nonzero return comes only while the session lives, and a registration that failed is
neither answered again nor in its map at the end. -/
def Orderly (tr : History) (s : State) : Act → Prop
  | .event (.procReturn ret) => ret ≠ 0 → ∀ pr ∈ s.proc, pr.p ∉ endsOf tr
  | .event (.call (.registUserRsp _ h _ _)) => ∀ p ∈ s.named .registUser h, ¬Failed tr p
  | .event _ => True
  | .exit _ _ => ∀ id p, s.mapRegistUser id = some p → ¬Failed tr p

/-! ## The sessions agree with the history -/

structure OnceInv (tr : History) (s : State) : Prop where
  opened : ∀ p t, OpenedBy tr p t → p < s.next ∧ ∀ c, s.card p = some c → c.tag = t
  request : ∀ p t t', OpenedBy tr p t → OpenedBy tr p t' → t = t'
  live : ∀ p c, s.card p = some c → OpenedBy tr p c.tag
  gone : ∀ p < s.next, s.card p = none ↔ p ∈ endsOf tr
  ended : ∀ p ∈ endsOf tr, p < s.next
  freed : (endsOf tr).Nodup
  failed : ∀ id p, s.map .registUser id = some p → s.card p = none → Failed tr p

section
variable {cfg : Config} {s s' : State} {e : Event} {outs : List Out} {tr : History} {p : Ptr} {t : Tag}

theorem endsOf_append {en : Entry State Event Out} : endsOf (tr ++ [en]) = endsOf tr ++ (en.pre.ends en.ev).toList := by
  unfold endsOf
  rw [List.filterMap_append]
  cases h : en.pre.ends en.ev with
  | none => simp [h]
  | some p => simp [h]

theorem openedBy_append {en : Entry State Event Out} : OpenedBy (tr ++ [en]) p t ↔
    OpenedBy tr p t ∨ en.pre.next = p ∧ en.ev.opens = some t := by
  unfold OpenedBy
  simp only [List.mem_append, List.mem_singleton, or_and_right, exists_or, exists_eq_left]

theorem Failed.append {en : Entry State Event Out} (h : Failed tr p) : Failed (tr ++ [en]) p := by
  obtain ⟨en', hen, hf⟩ := h
  exact ⟨en', List.mem_append_left _ hen, hf⟩

theorem Failed.ended (h : Failed tr p) : p ∈ endsOf tr := by
  obtain ⟨en, hen, ret, hret, hev, pr, hpr, rfl⟩ := h
  refine List.mem_filterMap.mpr ⟨en, hen, ?_⟩
  rw [hev]
  simp only [State.ends, if_neg hret, Option.mem_def.mp hpr, Option.map_some]

theorem OnceInv.quiet (hi : OnceInv tr s) (ho : e.opens = none) (he : s.ends e = none) (hc : s'.card = s.card)
    (hn : s'.next = s.next) (hm : s'.map = s.map) : OnceInv (tr ++ [⟨s, e, outs⟩]) s' := by
  have hopen : ∀ p t, OpenedBy (tr ++ [⟨s, e, outs⟩]) p t ↔ OpenedBy tr p t := by
    intro p t
    rw [openedBy_append, ho]
    simp
  have hends : endsOf (tr ++ [⟨s, e, outs⟩]) = endsOf tr := by
    rw [endsOf_append, he]
    exact List.append_nil _
  refine ⟨?_, ?_, ?_, ?_, ?_, ?_, ?_⟩
  · intro p t h
    rw [hc, hn]
    exact hi.opened p t ((hopen p t).mp h)
  · intro p t t' h h'
    exact hi.request p t t' ((hopen p t).mp h) ((hopen p t').mp h')
  · intro p c h
    rw [hc] at h
    exact (hopen p c.tag).mpr (hi.live p c h)
  · rw [hc, hn, hends]
    exact hi.gone
  · rw [hn, hends]
    exact hi.ended
  · rw [hends]
    exact hi.freed
  · intro id p h h'
    rw [hm] at h
    rw [hc] at h'
    exact (hi.failed id p h h').append

theorem OnceInv.open {c} (hi : OnceInv tr s) (hm : MapInv s) (he : e.opens = some c.tag) (hends : s.ends e = none)
    (ho : Opened s c s' outs) : OnceInv (tr ++ [⟨s, e, outs⟩]) s' := by
  have hopen : ∀ p t, OpenedBy (tr ++ [⟨s, e, outs⟩]) p t ↔ OpenedBy tr p t ∨ p = s.next ∧ t = c.tag := by
    intro p t
    rw [openedBy_append, he]
    simp [eq_comm]
  have hends : endsOf (tr ++ [⟨s, e, outs⟩]) = endsOf tr := by
    rw [endsOf_append, hends]
    exact List.append_nil _
  have hself : s'.card s.next = some c := by rw [ho.card, Function.update_self]
  refine ⟨?_, ?_, ?_, ?_, ?_, ?_, ?_⟩
  · intro p t h
    rw [ho.next]
    rcases (hopen p t).mp h with h | ⟨rfl, rfl⟩
    · obtain ⟨hlt, htag⟩ := hi.opened p t h
      rw [ho.card_of_ne (Nat.ne_of_lt hlt)]
      exact ⟨Nat.lt_succ_of_lt hlt, htag⟩
    · refine ⟨Nat.lt_succ_self _, fun d hd => ?_⟩
      rw [hself] at hd
      rw [Option.some.inj hd]
  · intro p t t' h h'
    rcases (hopen p t).mp h with h | ⟨rfl, rfl⟩
    · rcases (hopen p t').mp h' with h' | ⟨rfl, rfl⟩
      · exact hi.request p t t' h h'
      · exact absurd (hi.opened _ t h).1 (Nat.lt_irrefl _)
    · rcases (hopen s.next t').mp h' with h' | ⟨-, rfl⟩
      · exact absurd (hi.opened _ t' h').1 (Nat.lt_irrefl _)
      · rfl
  · intro p d hd
    by_cases hp : p = s.next
    · rw [hp, hself] at hd
      obtain rfl := Option.some.inj hd
      exact (hopen p _).mpr (.inr ⟨hp, rfl⟩)
    · rw [ho.card_of_ne hp] at hd
      exact (hopen p _).mpr (.inl (hi.live p d hd))
  · intro p hp
    rw [ho.next] at hp
    rw [hends]
    by_cases hpn : p = s.next
    · rw [hpn, hself]
      exact ⟨nofun, fun h => absurd (hi.ended _ h) (Nat.lt_irrefl _)⟩
    · rw [ho.card_of_ne hpn]
      exact hi.gone p (Nat.lt_of_le_of_ne (Nat.le_of_lt_succ hp) hpn)
  · intro p hp
    rw [hends] at hp
    rw [ho.next]
    exact Nat.lt_succ_of_lt (hi.ended p hp)
  · rw [hends]
    exact hi.freed
  · intro id p h h'
    rcases ho.map_cases h with ⟨-, -, rfl⟩ | h
    · rw [hself] at h'
      cases h'
    · rw [ho.card_of_ne (Nat.ne_of_lt (hm.bound _ _ _ h))] at h'
      exact (hi.failed id p h h').append

theorem OnceInv.end {c} (hi : OnceInv tr s) (hm : MapInv s) (hop : e.opens = none) (he : s.ends e = some p)
    (hd : Ended s e p c s' outs) : OnceInv (tr ++ [⟨s, e, outs⟩]) s' := by
  have hopen : ∀ p t, OpenedBy (tr ++ [⟨s, e, outs⟩]) p t ↔ OpenedBy tr p t := by
    intro p t
    rw [openedBy_append, hop]
    simp
  have hends : endsOf (tr ++ [⟨s, e, outs⟩]) = endsOf tr ++ [p] := by
    rw [endsOf_append, he]
    rfl
  have hlt : p < s.next := (hi.opened p _ (hi.live p c hd.was)).1
  have hnot : p ∉ endsOf tr := by
    rw [← hi.gone p hlt, hd.was]
    nofun
  refine ⟨?_, ?_, ?_, ?_, ?_, ?_, ?_⟩
  · intro q t h
    rw [hd.next]
    obtain ⟨hq, htag⟩ := hi.opened q t ((hopen q t).mp h)
    exact ⟨hq, fun d hd' => htag d (hd.card_some hd')⟩
  · intro q t t' h h'
    exact hi.request q t t' ((hopen q t).mp h) ((hopen q t').mp h')
  · intro q d hq
    exact (hopen q d.tag).mpr (hi.live q d (hd.card_some hq))
  · intro q hq
    rw [hd.next] at hq
    rw [hends, List.mem_append, List.mem_singleton]
    by_cases hqp : q = p
    · rw [hqp, hd.card, Function.update_self]
      exact ⟨fun _ => .inr rfl, fun _ => rfl⟩
    · rw [hd.card_of_ne hqp, hi.gone q hq]
      exact ⟨.inl, fun h => h.resolve_right hqp⟩
  · intro q hq
    rw [hd.next]
    rw [hends, List.mem_append, List.mem_singleton] at hq
    rcases hq with hq | rfl
    · exact hi.ended q hq
    · exact hlt
  · rw [hends]
    refine List.nodup_append.mpr ⟨hi.freed, List.nodup_singleton _, ?_⟩
    intro q hq q' hq' heq
    rw [List.mem_singleton.mp hq'] at heq
    exact hnot (heq ▸ hq)
  · intro id q h h'
    by_cases hqp : q = p
    · subst hqp
      -- the entry is still there, so it was not erased with the session
      by_cases hr : ∃ ret, e = .procReturn ret
      · obtain ⟨ret, rfl⟩ := hr
        refine ⟨⟨s, .procReturn ret, outs⟩, List.mem_append_right _ List.mem_cons_self, ret, ?_, rfl, ?_⟩
        · intro h0
          simp [State.ends, h0] at he
        · simp only [State.ends] at he
          split at he
          · cases he
          · obtain ⟨pr, hpr, hp⟩ := Option.map_eq_some_iff.mp he
            exact ⟨pr, hpr, hp⟩
      · rw [(hd.erased fun ret he => hr ⟨ret, he⟩).1] at h
        split at h
        · cases h
        · exact absurd h ‹_›
    · rw [hd.card_of_ne hqp] at h'
      exact (hi.failed id q (hd.map_cases hm h).1 h').append

theorem OnceInv.step (hi : OnceInv tr s) (hm : MapInv s) (hl : Life s e s' outs) :
    OnceInv (tr ++ [⟨s, e, outs⟩]) s' := by
  cases hl with
  | kept ho he hk => exact hi.quiet ho he hk.card hk.next hk.map
  | returned he => exact hi.quiet (by rw [he]; rfl) (by rw [he]; rfl) rfl rfl rfl
  | opened he hends ho => exact hi.open hm he hends ho
  | ended ho he hd => exact hi.end hm ho he hd

theorem onceInv_init : OnceInv [] {} := by
  refine ⟨?_, ?_, nofun, nofun, nofun, List.nodup_nil, nofun⟩
  · simp [OpenedBy]
  · simp [OpenedBy]

theorem run_onceInv {C} (h : Run (Cc.step cfg) {} C tr s) : OnceInv tr s := by
  apply h.invariant OnceInv onceInv_init
  intro tr s e s' outs hr hi _ hst
  exact hi.step (run_mapInv hr) (step_life (run_mapInv hr) hst)

theorem Life.answer (hi : OnceInv tr s) (hl : Life s e s' outs) (ht : t ∈ outs.filterMap Out.answer) :
    outs.filterMap Out.answer = [t] ∧ ∃ p, s.ends e = some p ∧ OpenedBy tr p t := by
  cases hl with
  | kept _ _ hk => simp [hk.answers] at ht
  | returned _ => cases ht
  | opened _ _ ho => simp [ho.answers] at ht
  | @ended p c _ _ _ he hd =>
    rw [hd.answers, List.mem_singleton] at ht
    subst ht
    exact ⟨hd.answers, p, he, hi.live p c hd.was⟩

theorem run_answeredOnce (h : Run (Cc.step cfg) {} anyStep tr s) : AnsweredOnce tr := by
  refine ⟨(run_onceInv h).request, (run_onceInv h).freed, ?_⟩
  intro tr₁ en tr₂ htr t ht
  obtain ⟨s', hr, -, hst⟩ := h.entry htr
  exact (step_life (run_mapInv hr) hst).answer (run_onceInv hr) ht

/-! ## Reading a freed session -/

theorem named_failed (hi : OnceInv tr s) (hm : MapInv s) {h} (hn : s.named .registUser h = some p) :
    s.card p = none ↔ Failed tr p := by
  obtain ⟨-, hmap⟩ := named_eq_some hn
  constructor
  · exact hi.failed _ p hmap
  · intro hf
    exact (hi.gone p (hm.bound _ _ _ hmap)).mpr hf.ended

theorem event_orderly (hi : OnceInv tr s) (hm : MapInv s) :
    Cc.step cfg s e = .error .dangling ↔ ¬Orderly tr s (.event e) := by
  rw [step_dangling hm]
  constructor
  · intro ⟨p, he, hc⟩ ho
    rcases ends_live hm he hc with ⟨code, h, allow, info, rfl⟩ | ⟨ret, rfl⟩
    · exact ho p he ((named_failed hi hm he).mp hc)
    · simp only [State.ends] at he
      split at he
      · cases he
      · obtain ⟨pr, hpr, rfl⟩ := Option.map_eq_some_iff.mp he
        exact ho ‹_› pr hpr ((hi.gone _ (hm.proc pr hpr).1).mp hc)
  · intro ho
    cases e with
    | procReturn ret =>
      simp only [Orderly] at ho
      push Not at ho
      obtain ⟨hret, pr, hpr, hend⟩ := ho
      refine ⟨pr.p, ?_, (hi.gone _ (hm.proc pr hpr).1).mpr hend⟩
      simp only [State.ends, if_neg hret, Option.mem_def.mp hpr, Option.map_some]
    | call c =>
      cases c with
      | registUserRsp code h allow info =>
        simp only [Orderly] at ho
        push Not at ho
        obtain ⟨p, hp, hf⟩ := ho
        exact ⟨p, hp, (named_failed hi hm hp).mpr hf⟩
      | _ => exact absurd trivial ho
    | _ => exact absurd trivial ho

/-! ## The end of the service -/

theorem exitLoop_ok {ps : List Ptr} (hn : ps.Nodup) (hp : ∀ p ∈ ps, s.heap p ≠ none) : ∃ s', exitLoop ps s = .ok s' ∧
    (∀ p, s'.heap p = if p ∈ ps then none else s.heap p) ∧ s'.mapRegistUser = s.mapRegistUser ∧
    s'.mapProcessProposal = s.mapProcessProposal := by
  induction ps generalizing s with
  | nil => exact ⟨s, rfl, fun p => by simp, rfl, rfl⟩
  | cons p ps ih =>
    obtain ⟨hnot, hn⟩ := List.nodup_cons.mp hn
    have hother : ∀ q ∈ ps, ((s.cancelDscTimer p).free p).heap q ≠ none := by
      intro q hq
      have hqp : q ≠ p := fun h => hnot (h ▸ hq)
      simpa [State.free, State.cancelDscTimer, hqp] using hp q (List.mem_cons_of_mem _ hq)
    obtain ⟨s', hs', hheap, hreg, hprop⟩ := ih hn hother
    refine ⟨s', ?_, fun q => ?_, hreg, hprop⟩
    · unfold exitLoop
      cases hx : s.heap p with
      | none => exact absurd hx (hp p List.mem_cons_self)
      | some x => exact hs'
    · rw [hheap]
      by_cases hq : q = p
      · simp [hq, State.free]
      · simp [hq, State.free, State.cancelDscTimer]

theorem exitLoop_dangling {ps : List Ptr} (hp : p ∈ ps) (hx : s.heap p = none) : exitLoop ps s = .error .dangling := by
  induction ps generalizing s with
  | nil => cases hp
  | cons q ps ih =>
    unfold exitLoop
    cases hq : s.heap q with
    | none => rfl
    | some x =>
      rcases List.mem_cons.mp hp with rfl | hp
      · cases hx.symm.trans hq
      · apply ih hp
        by_cases hpq : p = q
        · simp [hpq, State.free]
        · simpa [State.free, State.cancelDscTimer, hpq] using hx

theorem MapInv.nodup (hm : MapInv s) (k : Kind) {ids : List UInt32} (hn : ids.Nodup) :
    (ids.filterMap (s.map k)).Nodup := by
  apply hn.filterMap
  intro id id' p hp hp'
  exact (hm.one k k id id' p hp hp').2

theorem onExit_ok (hm : MapInv s) {ids ids' : List UInt32} (ha : (Act.exit ids ids').Enumerates s)
    (hlive : ∀ id p, s.mapRegistUser id = some p → s.heap p ≠ none) :
    ∃ s', onExit s ids ids' = .ok s' ∧ (∀ k id p, s.map k id = some p → s'.heap p = none) ∧
      ∀ p, (∀ k id, s.map k id ≠ some p) → s'.heap p = s.heap p := by
  obtain ⟨⟨hn, hall⟩, hn', hall'⟩ := ha
  obtain ⟨s₁, hs₁, hheap, -, hprop⟩ := exitLoop_ok (s := s) (hm.nodup .registUser hn) (by
    intro p hp
    obtain ⟨id, -, hid⟩ := List.mem_filterMap.mp hp
    exact hlive id p hid)
  have hdis : ∀ p ∈ ids'.filterMap (s.map .processProposal), p ∉ ids.filterMap (s.map .registUser) := by
    intro p hp hp'
    obtain ⟨id, -, hid⟩ := List.mem_filterMap.mp hp
    obtain ⟨id', -, hid'⟩ := List.mem_filterMap.mp hp'
    exact Kind.noConfusion (hm.one _ _ _ _ _ hid hid').1
  obtain ⟨s₂, hs₂, hheap', -, -⟩ := exitLoop_ok (s := s₁) (hm.nodup .processProposal hn') (by
    intro p hp
    rw [hheap, if_neg (hdis p hp)]
    obtain ⟨id, -, hid⟩ := List.mem_filterMap.mp hp
    exact fun h => hm.proposal id p hid (card_eq_none.mpr h))
  refine ⟨s₂, ?_, fun k id p hid => ?_, fun p hp => ?_⟩
  · unfold onExit
    rw [show exitLoop (ids.filterMap s.mapRegistUser) s = .ok s₁ from hs₁, Except.ok_bind, hprop]
    exact hs₂
  · have hsome : s.map k id ≠ none := Option.ne_none_iff_exists'.mpr ⟨p, hid⟩
    cases k with
    | registUser =>
      have hin : p ∈ ids.filterMap (s.map .registUser) := List.mem_filterMap.mpr ⟨id, hall id hsome, hid⟩
      simp [hheap', hheap, hin]
    | processProposal =>
      have hin : p ∈ ids'.filterMap (s.map .processProposal) := List.mem_filterMap.mpr ⟨id, hall' id hsome, hid⟩
      simp [hheap', hin]
  · have hnot : ∀ k (ids : List UInt32), p ∉ ids.filterMap (s.map k) := by
      intro k ids hin
      obtain ⟨id, -, hid⟩ := List.mem_filterMap.mp hin
      exact hp k id hid
    simp [hheap', hheap, hnot]

theorem onExit_dangling {ids ids' : List UInt32} (ha : (Act.exit ids ids').Enumerates s) {id}
    (hp : s.mapRegistUser id = some p) (hx : s.heap p = none) : onExit s ids ids' = .error .dangling := by
  unfold onExit
  rw [exitLoop_dangling (List.mem_filterMap.mpr ⟨id, ha.1.2 id (Option.ne_none_iff_exists'.mpr ⟨p, hp⟩), hp⟩) hx,
    Except.error_bind]

theorem exit_orderly (hi : OnceInv tr s) (hm : MapInv s) {ids ids' : List UInt32}
    (ha : (Act.exit ids ids').Enumerates s) : onExit s ids ids' = .error .dangling ↔ ¬Orderly tr s (.exit ids ids') := by
  have hfail : ∀ id p, s.mapRegistUser id = some p → (s.heap p = none ↔ Failed tr p) := by
    intro id p hp
    rw [← card_eq_none]
    have hlt : p < s.next := hm.bound .registUser id p hp
    exact ⟨hi.failed id p hp, fun hf => (hi.gone p hlt).mpr hf.ended⟩
  constructor
  · intro h ho
    obtain ⟨s', hs', -, -⟩ := onExit_ok hm ha fun id p hp hx => ho id p hp ((hfail id p hp).mp hx)
    cases h.symm.trans hs'
  · intro ho
    simp only [Orderly] at ho
    push Not at ho
    obtain ⟨id, p, hp, hf⟩ := ho
    exact onExit_dangling ha hp ((hfail id p hp).mpr hf)

/-- One answer and one release for each request, and no session is read after its release,
exactly where what comes next is orderly. -/
theorem once_right_iff (h : Run (Cc.step cfg) {} anyStep tr s) {a : Act} (ha : a.Enumerates s) :
    OnceRight cfg tr s a ↔ Orderly tr s a := by
  have hi := run_onceInv h
  have hm := run_mapInv h
  have htouch : act cfg s a = .error .dangling ↔ ¬Orderly tr s a := by
    cases a with
    | event e =>
      rw [← event_orderly hi hm]
      unfold act
      cases hst : Cc.step cfg s e with
      | error x => simp [hst, Except.map]
      | ok r => simp [hst, Except.map]
    | exit ids ids' => exact exit_orderly hi hm ha
  constructor
  · intro hr
    by_contra ho
    exact hr.untouched (htouch.mpr ho)
  · intro ho
    exact ⟨run_answeredOnce h, fun hd => htouch.mp hd ho⟩

end

/-! ## An answer before the return -/

def synchronous : List Event :=
  [.registUserReq ⟨7, 0, [1], [2]⟩ 5, .call (.registUserRsp okType 0x100000000 true [3])]

/-- `RegistUserProc` answers and then returns nonzero: its session is freed a second time. -/
theorem freed_touched : ¬∀ (cfg : Config) (tr : History) (s : State) (a : Act),
    Run (step cfg) {} anyStep tr s → a.Enumerates s → OnceRight cfg tr s a := by
  intro hall
  have hr : Run (step oneChannel) {} anyStep (trace (step oneChannel) {} synchronous) _ := run_trace_any synchronous
  exact (hall oneChannel _ _ (.event (.procReturn (-1))) hr trivial).untouched rfl

theorem once_right_two : ∃ tr s, Run (step oneChannel) {} anyStep tr s ∧
    OnceRight oneChannel tr s (.event (.procReturn 0)) ∧ endsOf tr = [0] ∧
    tr.flatMap (·.outs.filterMap Out.answer) = [(.registUser, 5, 7)] := by
  have hr : Run (step oneChannel) {} anyStep (trace (step oneChannel) {} synchronous) _ := run_trace_any synchronous
  exact ⟨_, _, hr, (once_right_iff (a := .event (.procReturn 0)) hr trivial).mpr (fun h => absurd rfl h), by decide,
    by decide⟩

end VProtocol.Cc
