import VProtocol.Cc.Once

/-!
# The two maps

The maps hold the live sessions and nothing else, as long as no registration fails (its id
is erased from the map of the proposals) and no id is taken while it is in use.
-/

namespace VProtocol.Cc

open Function (update)

/-! ## The property -/

structure StoreInv (s : State) : Prop where
  entry : ∀ k id p, s.map k id = some p → s.armed p = true ∧ ∃ c, s.card p = some c ∧ c.kind = k ∧ c.ccSessionID = id
  live : ∀ p, s.card p ≠ none → ∃ k id, s.map k id = some p
  one : ∀ k k' id id' p, s.map k id = some p → s.map k' id' = some p → k = k' ∧ id = id'

/-- A session that failed leaves the map that holds it, and the other map stays. -/
def FailureRight (s : State) (e : Event) (s' : State) : Prop :=
  ∀ ret ≠ 0, e = .procReturn ret → ∀ pr ∈ s.proc, ∀ c, s.card pr.p = some c →
    (∀ id, s'.map c.kind id = if s.map c.kind id = some pr.p then none else s.map c.kind id) ∧
      ∀ k ≠ c.kind, s'.map k = s.map k

def StoreRight (cfg : Config) (tr : History) (s : State) : Prop :=
  StoreInv s ∧ ∀ en ∈ tr, ∀ s', step cfg en.pre en.ev = .ok (s', en.outs) → FailureRight en.pre en.ev s'

def Event.isCall : Event → Bool
  | .call _ => true
  | _ => false

def Event.fails : Event → Bool
  | .procReturn ret => ret ≠ 0
  | _ => false

/-- The chaincode does not answer the request it is called for before it returns. -/
def NoSync (_ : History) (s : State) (e : Event) : Prop :=
  ∀ pr ∈ s.proc, e.isCall = true → s.ends e ≠ some pr.p

/-- No registration fails, and no request takes an id that is in its map. -/
def StoreSafe (s : State) (e : Event) : Prop :=
  (e.fails = true → ∀ pr ∈ s.proc, pr.type ≠ registUserSessionType) ∧ ∀ t ∈ e.opens, s.map t.1 s.sessionID = none

instance (tr : History) (s : State) (e : Event) : Decidable (NoSync tr s e) := by
  delta NoSync; infer_instance

instance (s : State) (e : Event) : Decidable (StoreSafe s e) := by
  delta StoreSafe; infer_instance

section
variable {cfg : Config} {s s' : State} {e : Event} {outs : List Out} {tr : History} {p : Ptr} {c : Card}

theorem Event.fails_eq : e.fails = true ↔ ∃ ret ≠ 0, e = .procReturn ret := by
  cases e with
  | procReturn ret => simp [Event.fails]
  | _ => simp [Event.fails]

/-! ## The store over a step -/

theorem storeInv_init : StoreInv {} :=
  ⟨by intro k; cases k <;> nofun, fun _ h => absurd rfl h, by intro k; cases k <;> nofun⟩

theorem StoreInv.mapped (hs : StoreInv s) (hm : MapInv s) (hc : s.card p = some c) :
    s.map c.kind c.ccSessionID = some p := by
  obtain ⟨k, id, hid⟩ := hs.live p (by simp [hc])
  obtain ⟨rfl, rfl⟩ := hm.key k id p c hid hc
  exact hid

theorem StoreInv.opened (hs : StoreInv s) (hm : MapInv s) (ho : Opened s c s' outs) :
    StoreInv s' ↔ s.map c.kind s.sessionID = none := by
  have hm' := ho.mapInv hm
  have hself : s'.map c.kind s.sessionID = some s.next := by rw [ho.map, Function.update_self, Function.update_self]
  constructor
  · intro hs'
    cases hq : s.map c.kind s.sessionID with
    | none => rfl
    | some q =>
      have hne : q ≠ s.next := Nat.ne_of_lt (hm.bound _ _ _ hq)
      obtain ⟨-, d, hd, -⟩ := hs.entry _ _ _ hq
      obtain ⟨k, id, hid⟩ := hs'.live q (by simp [ho.card_of_ne hne, hd])
      rcases ho.map_cases hid with ⟨-, -, heq⟩ | hid'
      · exact absurd heq hne
      · obtain ⟨rfl, rfl⟩ := hm.one _ _ _ _ _ hid' hq
        exact absurd (Option.some.inj (hid.symm.trans hself)) hne
  · intro hfree
    refine ⟨fun k id p hid => ?_, fun p hp => ?_, hm'.one⟩
    · rcases ho.map_cases hid with ⟨rfl, rfl, rfl⟩ | hid
      · refine ⟨by simp [ho.armed], c, by simp [ho.card], rfl, rfl⟩
      · have hne : p ≠ s.next := Nat.ne_of_lt (hm.bound _ _ _ hid)
        rw [ho.card_of_ne hne, ho.armed, Function.update_of_ne hne]
        exact hs.entry k id p hid
    · by_cases hpn : p = s.next
      · exact ⟨_, _, hpn ▸ hself⟩
      · rw [ho.card_of_ne hpn] at hp
        obtain ⟨k, id, hid⟩ := hs.live p hp
        refine ⟨k, id, ?_⟩
        by_cases hk : k = c.kind
        · subst hk
          have hne : id ≠ s.sessionID := by
            intro h
            rw [h, hfree] at hid
            cases hid
          rw [ho.map, Function.update_self, Function.update_of_ne hne, hid]
        · rw [ho.map, Function.update_of_ne hk, hid]

theorem StoreInv.ended (hs : StoreInv s) (hm : MapInv s) (hd : Ended s e p c s' outs)
    (hmap : ∀ k id, s'.map k id = if s.map k id = some p then none else s.map k id) : StoreInv s' := by
  refine ⟨fun k id q hid => ?_, fun q hq => ?_, (hd.mapInv hm).one⟩
  · rw [hmap] at hid
    split at hid
    · cases hid
    · have hne : q ≠ p := by
        intro h
        rw [h] at hid
        contradiction
      rw [hd.card_of_ne hne, hd.armed, Function.update_of_ne hne]
      exact hs.entry k id q hid
  · have hne : q ≠ p := by
      intro h
      simp [h, hd.card] at hq
    rw [hd.card_of_ne hne] at hq
    obtain ⟨k, id, hid⟩ := hs.live q hq
    refine ⟨k, id, ?_⟩
    rw [hmap, hid, if_neg]
    simpa using hne

theorem StoreInv.returned {ret} (hs : StoreInv s) (hm : MapInv s) (hd : Ended s (.procReturn ret) p c s' outs) :
    StoreInv s' ↔ c.kind = .processProposal := by
  have hp := hs.mapped hm hd.was
  have hmap := (hd.returned ret rfl).1
  constructor
  · intro hs'
    cases hk : c.kind with
    | processProposal => rfl
    | registUser =>
      -- the entry of the session that was freed is still there
      rw [hk] at hp
      have hp' : s'.map .registUser c.ccSessionID = some p := by rw [hmap, Function.update_of_ne (by decide), hp]
      obtain ⟨-, d, hd', -⟩ := hs'.entry _ _ _ hp'
      simp [hd.card] at hd'
  · intro hk
    rw [hk] at hp
    apply hs.ended hm hd
    intro k id
    rw [hmap, hm.eraseKey hp]

theorem failureRight_returned {ret pr} (hs : StoreInv s) (hm : MapInv s) (hpr : s.proc = some pr)
    (hd : Ended s (.procReturn ret) pr.p c s' outs) (hk : c.kind = .processProposal) :
    FailureRight s (.procReturn ret) s' := by
  intro _ _ _ pr' hpr' d hd'
  obtain rfl := Option.some.inj (hpr.symm.trans hpr')
  obtain rfl := Option.some.inj (hd.was.symm.trans hd')
  have hp := hs.mapped hm hd.was
  have hmap := (hd.returned ret rfl).1
  rw [hk] at hp
  refine ⟨fun id => ?_, fun k hne => ?_⟩
  · rw [hmap, hm.eraseKey hp]
  · rw [hk] at hne
    rw [hmap, Function.update_of_ne hne]

theorem Life.store (hs : StoreInv s) (hm : MapInv s) (hl : Life s e s' outs) :
    StoreInv s' ∧ FailureRight s e s' ↔ StoreSafe s e := by
  have hquiet : (∀ ret ≠ 0, e ≠ .procReturn ret) → FailureRight s e s' ∧ e.fails = false := by
    intro h
    refine ⟨fun ret hret he => absurd he (h ret hret), ?_⟩
    rw [Bool.eq_false_iff, ne_eq, Event.fails_eq]
    intro ⟨ret, hret, he⟩
    exact h ret hret he
  cases hl with
  | kept ho he hk =>
    have hs' : StoreInv s' := by
      refine ⟨?_, ?_, (hk.mapInv hm).one⟩
      · rw [hk.map, hk.armed, hk.card]
        exact hs.entry
      · rw [hk.map, hk.card]
        exact hs.live
    have hnone : ∀ ret ≠ 0, e = .procReturn ret → s.proc = none := by
      intro ret hret heq
      subst heq
      simpa [State.ends, hret] using he
    refine ⟨fun _ => ⟨fun hf pr hpr => ?_, by simp [ho]⟩, fun _ => ⟨hs', fun ret hret heq pr hpr => ?_⟩⟩
    · obtain ⟨ret, hret, heq⟩ := Event.fails_eq.mp hf
      simp [hnone ret hret heq] at hpr
    · simp [hnone ret hret heq] at hpr
  | returned he =>
    subst he
    have hs' : StoreInv { s with proc := none } := ⟨hs.entry, hs.live, hs.one⟩
    refine ⟨fun _ => ⟨fun hf => (by cases hf), fun _ ht => (by cases ht)⟩, fun _ => ⟨hs', fun ret hret heq => ?_⟩⟩
    exact absurd (Event.procReturn.inj heq).symm hret
  | @opened c _ _ he _ ho =>
    obtain ⟨hfail, hfails⟩ := hquiet (by rintro ret - rfl; cases he)
    unfold StoreSafe
    rw [hs.opened hm ho, hfails, he]
    simp [hfail, Card.tag]
  | @ended p c _ _ he hends hd =>
    by_cases hr : ∃ ret, e = .procReturn ret
    · obtain ⟨ret, rfl⟩ := hr
      simp only [State.ends] at hends
      split at hends
      · cases hends
      · rename_i hret
        obtain ⟨pr, hpr, rfl⟩ := Option.map_eq_some_iff.mp hends
        obtain ⟨-, k, ht, hk⟩ := hm.proc pr hpr
        obtain rfl := (hk c hd.was).1
        have htype : pr.type ≠ registUserSessionType ↔ c.kind = .processProposal := by
          rw [ht]
          cases c.kind with
          | registUser => simp [Kind.type]
          | processProposal => simp [Kind.type, registUserSessionType, processProposalSessionType]
        have hsafe : StoreSafe s (.procReturn ret) ↔ c.kind = .processProposal := by
          simp [StoreSafe, Event.fails, Event.opens, hpr, hret, ← htype]
        rw [hsafe, hs.returned hm hd]
        exact ⟨fun h => h.1, fun h => ⟨h, failureRight_returned hs hm hpr hd h⟩⟩
    · have hne : ∀ ret, e ≠ .procReturn ret := fun ret h => hr ⟨ret, h⟩
      obtain ⟨hfail, hfails⟩ := hquiet fun ret _ => hne ret
      refine ⟨fun _ => ⟨by simp [hfails], by simp [he]⟩, fun _ => ⟨hs.ended hm hd (hd.erased hne).1, hfail⟩⟩

/-- The maps are right all along a run if and only if no registration fails and no request
takes an id in use, whether or not the chaincode answers inside a callback. -/
theorem store_right_iff (h : Run (step cfg) {} anyStep tr s) :
    Always (StoreRight cfg) tr s ↔ Each (fun _ => StoreSafe) tr := by
  refine Run.always_iff ⟨storeInv_init, nofun⟩ ?_ h
  intro tr s e s' outs hr _ hP _ hst
  rw [← (step_life (run_mapInv hr) hst).store hP.1 (run_mapInv hr)]
  constructor
  · intro ⟨hs', hf⟩
    exact ⟨hs', hf _ (List.mem_append_right _ List.mem_cons_self) s' hst⟩
  · intro ⟨hs', hf⟩
    refine ⟨hs', fun en hen s₁ hst₁ => ?_⟩
    rcases List.mem_append.mp hen with hen | hen
    · exact hP.2 en hen s₁ hst₁
    · obtain rfl := List.mem_singleton.mp hen
      obtain ⟨rfl, -⟩ := Prod.mk.inj (Except.ok.inj (hst.symm.trans hst₁))
      exact hf

theorem StoreInv.exit (hs : StoreInv s) (hm : MapInv s) {ids ids' : List UInt32} (ha : (Act.exit ids ids').Enumerates s) :
    ∃ s', onExit s ids ids' = .ok s' ∧ ∀ p, s'.heap p = none := by
  obtain ⟨s', hs', hfree, hkeep⟩ := onExit_ok hm ha (by
    intro id p hp hx
    obtain ⟨-, c, hc, -⟩ := hs.entry .registUser id p hp
    rw [card_eq_none.mpr hx] at hc
    cases hc)
  refine ⟨s', hs', fun p => ?_⟩
  by_cases hp : ∃ k id, s.map k id = some p
  · obtain ⟨k, id, hid⟩ := hp
    exact hfree k id p hid
  · rw [hkeep p fun k id hid => hp ⟨k, id, hid⟩]
    by_contra hx
    exact hp (hs.live p fun hc => hx (card_eq_none.mp hc))

end

/-! ## A registration that fails -/

def failing : List Event := [.registUserReq ⟨7, 0, [1], [2]⟩ 5, .procReturn (-1)]

/-- The registration is freed, and its entry stays in the map. -/
theorem store_broken : ¬∀ (cfg : Config) (tr : History) (s : State),
    Run (step cfg) {} NoSync tr s → Always (StoreRight cfg) tr s := by
  intro hall
  have hr := run_of_meets (step oneChannel) {} NoSync failing (by decide)
  obtain ⟨-, c, hc, -⟩ := (hall oneChannel _ _ hr).2.1.entry .registUser 0 0 rfl
  have hnone : (final (step oneChannel) {} failing).card 0 = none := by decide
  cases hnone.symm.trans hc

theorem store_right_three : ∃ tr s, Run (step oneChannel) {} NoSync tr s ∧ Always (StoreRight oneChannel) tr s ∧
    s.map .registUser 0 = some 0 ∧ s.map .processProposal 1 = none ∧ s.map .processProposal 2 = some 2 := by
  let evs : List Event := [.registUserReq ⟨7, 0, [1], [2]⟩ 5, .procReturn 0, .submitProposalReq ⟨8, 1, 0, [9]⟩ 5,
    .procReturn (-1), .submitProposalReq ⟨9, 1, 0, [9]⟩ 5, .procReturn 0]
  have hr := run_of_meets (step oneChannel) {} NoSync evs (by decide)
  have hs := run_of_meets (step oneChannel) {} (fun _ => StoreSafe) evs (by decide)
  exact ⟨_, _, hr, (store_right_iff hr.any).mpr hs.each, by decide, by decide, by decide⟩

end VProtocol.Cc
