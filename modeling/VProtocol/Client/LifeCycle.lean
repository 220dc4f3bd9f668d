import VProtocol.Client.Attribution

/-!
# The life of a session

A register or propose session lives exactly as long as it is in its map, and its
timer is armed as long. Only two steps break this: a submit answer that is not OK
takes the session out of its map and does nothing else, and a request whose id is
still in the map puts its session in the place of the other.
-/

namespace VProtocol.Client

open Function (update)

structure LifeCycle (c : Core) : Prop where
  mapped : ∀ p, (∃ S, c.session p = some S) ↔ ∃ k id, c.mapEndorse k id = some p
  timed : ∀ p S, c.session p = some S → c.armed p = true
  released : ∀ p, c.armed p = true → c.live p = true

/-- A submit answer that is not OK is forwarded to the requester once, and the session
leaves its map, its timer is cancelled and it is freed. -/
def Forwarded (s : State) (e : Event) (s' : State) (outs : List Out) : Prop :=
  ∀ k id h code p S, e.submitRsp = some (k, id, h, code) → code ≠ okType → s.core.mapEndorse k id = some p →
    s.core.session p = some S →
      outs = [onResponse S code] ∧ s'.core.mapEndorse k id = none ∧ s'.core.armed p = false ∧ s'.core.live p = false

def LivesRight (cfg : Config) (tr : History) (s : State) : Prop :=
  (∀ en ∈ tr, LifeCycle en.pre.core) ∧ LifeCycle s.core ∧
    ∀ en ∈ tr, ∀ s', step cfg en.pre en.ev = .ok (s', en.outs) → Forwarded en.pre en.ev s' en.outs

/-- No submit answer for a live session is other than OK, and no request takes an id
that is still in its map. -/
def Releases (cfg : Config) (s : State) (e : Event) : Prop :=
  (∀ r ∈ e.submitRsp, r.2.2.2 ≠ okType → s.core.mapEndorse r.1 r.2.1 = none) ∧
    ∀ r ∈ e.asks, cfg.endorsePeerCount ≤ s.conn.peers.length → e.decodes cfg = true →
      (∀ i < cfg.endorsePeerCount, e.sendErr i = false) → s.core.mapEndorse r.1 s.core.sessionID = none

instance (cfg : Config) (s : State) (e : Event) : Decidable (Releases cfg s e) := by
  delta Releases; infer_instance

theorem CoreInv.released {c : Core} (hi : CoreInv c) (p : Ptr) (h : c.armed p = true) : c.live p = true := by
  obtain ⟨x, hx⟩ := hi.armed p h
  simp [Core.live, hx]

theorem LifeCycle.same {c c' : Core} (h : LifeCycle c) (hi : CoreInv c') (hs : ∀ p, c'.session p = c.session p)
    (hm : c'.mapEndorse = c.mapEndorse) (ha : ∀ p S, c.session p = some S → c'.armed p = c.armed p) : LifeCycle c' where
  mapped p := by rw [hs, hm]; exact h.mapped p
  timed p S hS := by
    rw [hs] at hS
    rw [ha p S hS]; exact h.timed p S hS
  released := hi.released

theorem LifeCycle.openSingle {c : Core} (h : LifeCycle c) (hi : CoreInv c) (W : SingleSession) :
    LifeCycle (c.openSingle W) := by
  apply h.same (hi.openSingle W) (fun p => openSingle_session hi W) rfl
  intro p S hS
  have : p ≠ c.next := Nat.ne_of_lt (hi.fresh _ _ (session_eq_some.mp hS))
  simp [Core.openSingle, this]

theorem LifeCycle.openEndorse {c : Core} {S : EndorseSession} (h : LifeCycle c) (hi : CoreInv c)
    (hfree : c.mapEndorse S.kind S.cltSessionID = none) : LifeCycle (c.openEndorse S) where
  mapped q := by
    simp only [openEndorse_session, openEndorse_mapEndorse]
    by_cases hq : q = c.next
    · rw [if_pos hq]
      exact ⟨fun _ => ⟨S.kind, S.cltSessionID, by rw [if_pos ⟨rfl, rfl⟩, hq]⟩, fun _ => ⟨S, rfl⟩⟩
    · rw [if_neg hq, h.mapped q]
      constructor
      · intro ⟨k, id, hm⟩
        refine ⟨k, id, ?_⟩
        rw [if_neg, hm]
        intro hx
        obtain ⟨rfl, rfl⟩ := hx
        cases hfree.symm.trans hm
      · intro ⟨k, id, hm⟩
        split at hm
        · exact (hq (Option.some.inj hm).symm).elim
        · exact ⟨k, id, hm⟩
  timed q S' hS' := by
    rw [openEndorse_session] at hS'
    by_cases hq : q = c.next
    · subst hq
      simp [Core.openEndorse]
    · rw [if_neg hq] at hS'
      simpa [Core.openEndorse, hq] using h.timed q S' hS'
  released := (hi.openEndorse S).released

theorem LifeCycle.put {c : Core} {p : Ptr} {S S' : EndorseSession} (h : LifeCycle c)
    (hi : CoreInv (c.put p (.endorse S'))) (hS : c.heap p = some (.endorse S)) : LifeCycle (c.put p (.endorse S')) where
  mapped q := by
    rw [put_session]
    by_cases hq : q = p
    · rw [if_pos hq, hq]
      exact iff_of_true ⟨_, rfl⟩ ((h.mapped p).mp ⟨S, session_eq_some.mpr hS⟩)
    · rw [if_neg hq]
      exact h.mapped q
  timed q S₁ hS₁ := by
    rw [put_session] at hS₁
    by_cases hq : q = p
    · rw [hq]
      exact h.timed p S (session_eq_some.mpr hS)
    · rw [if_neg hq] at hS₁
      exact h.timed q S₁ hS₁
  released := hi.released

section
variable {cfg : Config} {s s' : State} {e : Event} {outs : List Out}

theorem Ended.lifeCycle {p S} (h : Ended s p S s') (hi : CoreInv s.core) (hl : LifeCycle s.core) :
    LifeCycle s'.core where
  mapped q := by
    rw [h.session]
    simp only [h.mapEndorse]
    by_cases hq : q = p
    · simp [hq]
    · simpa [hq] using hl.mapped q
  timed q S' hS' := by
    rw [h.session] at hS'
    split at hS'
    · cases hS'
    · rename_i hq
      have := hl.timed q S' hS'
      obtain ⟨-, -⟩ := h
      simpa [Core.finish, hq] using this
  released := (h.coreInv hi).released

theorem SingleEnded.lifeCycle {p W} (h : SingleEnded s p W s') (hi : CoreInv s.core) (hl : LifeCycle s.core) :
    LifeCycle s'.core := by
  have hi' := h.coreInv hi
  obtain ⟨hW, -⟩ := h
  apply hl.same hi' (fun q => finishSingle_session hW) rfl
  intro q S hS
  have hq : q ≠ p := by
    intro heq
    subst heq
    rw [session_single hW] at hS; cases hS
  simp [Core.finishSingle, hq]

theorem Losses.lifeCycle (h : Losses s outs s') (hi : CoreInv s.core) (hl : LifeCycle s.core) : LifeCycle s'.core := by
  induction h with
  | nil => exact hl
  | endorse hend _ ih => exact ih (hend.coreInv hi) (hend.lifeCycle hi hl)
  | single hend _ ih => exact ih (hend.coreInv hi) (hend.lifeCycle hi hl)

theorem Aside.lifeCycle (h : Aside cfg s e s' outs) (hi : CoreInv s.core) (hl : LifeCycle s.core) :
    LifeCycle s'.core := by
  cases h with
  | quiet => exact hl
  | refused => exact hl
  | queried =>
    have := hl.openSingle hi
    exact ⟨(this _).mapped, (this _).timed, (this _).released⟩
  | @fired p W k hW =>
    apply hl.same (hi.cancelDscTimer _) (fun _ => rfl) rfl
    intro q S hS
    have hq : q ≠ p := by
      intro heq
      subst heq
      rw [session_single hW] at hS; cases hS
    simp [hq]
  | ended hend => exact hend.lifeCycle hi hl

theorem Move.lifeCycle (h : Move cfg s e s' outs) (hi : CoreInv s.core) (hl : LifeCycle s.core)
    (hc : Releases cfg s e) : LifeCycle s'.core := by
  cases h with
  | aside _ _ _ h => exact h.lifeCycle hi hl
  | refused => exact hl
  | @aborted r S hs h conn links s' msg rand o _ _ _ _ _ _ _ _ _ hend =>
    -- the session is not in its map, but it is gone at the end of the step
    have hmap : (s.core.alloc (.endorse S)).mapEndorse = s.core.mapEndorse := rfl
    refine ⟨fun q => ?_, fun q S' hS' => ?_, (hend.coreInv (hi.alloc _)).released⟩
    · rw [hend.session]
      simp only [hend.mapEndorse, alloc_session, hmap]
      by_cases hq : q = s.core.next
      · simp [hq]
      · simpa [hq] using hl.mapped q
    · rw [hend.session, alloc_session] at hS'
      by_cases hq : q = s.core.next
      · rw [if_pos hq] at hS'; cases hS'
      · rw [if_neg hq, if_neg hq] at hS'
        have := hl.timed q S' hS'
        obtain ⟨-, -⟩ := hend
        simpa [Core.finish, hq] using this
  | @opened r S hs conn links msg rand he ht hid _ _ hn hd hf =>
    have hfree := hc.2 r he hn hd hf
    rw [← ht, ← hid] at hfree
    exact hl.openEndorse hi hfree
  | @kept a p S hsub cs ha hm hS => exact hl.put (hi.put (S.counted a hsub) hS rfl rfl) hS
  | failed _ _ _ _ _ hend => exact hend.lifeCycle hi hl
  | orphaned he hm hcode =>
    rw [hc.1 _ he hcode] at hm; cases hm
  | submitted _ _ _ hw hend =>
    apply hend.lifeCycle (hw.coreInv hi)
    cases hw with
    | none => exact hl
    | some => exact hl.openSingle hi _
  | timedOut _ _ hend => exact hend.lifeCycle hi hl
  | lost _ _ _ hls =>
    have := hls.lifeCycle hi hl
    exact ⟨this.mapped, this.timed, this.released⟩

theorem forwarded_of_releases (hc : Releases cfg s e) : Forwarded s e s' outs := by
  intro k id h code p S he hcode hm
  rw [hc.1 _ he hcode] at hm; cases hm

theorem Move.releases (h : Move cfg s e s' outs) (hi : CoreInv s.core) (hl : LifeCycle s'.core)
    (hf : Forwarded s e s' outs) : Releases cfg s e := by
  constructor
  · intro r he hcode
    obtain ⟨k, id, hd, code⟩ := r
    dsimp only at hcode ⊢
    cases hm : s.core.mapEndorse k id with
    | none => rfl
    | some p =>
      obtain ⟨S, hS, -⟩ := hi.endorse _ _ _ hm
      obtain ⟨hout, -⟩ := hf k id hd code p S he hcode hm (session_eq_some.mpr hS)
      cases h with
      | aside _ _ hr =>
        have := hr k id hd code he
        rw [hm] at this; cases this
      | refused ha => rw [asks_of_submitRsp he] at ha; cases ha
      | aborted ha => rw [asks_of_submitRsp he] at ha; cases ha
      | opened ha => rw [asks_of_submitRsp he] at ha; cases ha
      | kept ha => rw [answer_of_submitRsp he] at ha; cases ha
      | failed ha => rw [answer_of_submitRsp he] at ha; cases ha
      | orphaned => cases hout
      | submitted he' =>
        rw [Option.mem_def.mp he] at he'
        exact (hcode (by simpa using congrArg (fun r => r.map (·.2.2.2)) he')).elim
      | timedOut ht => rw [ht] at he; cases he
      | lost ht => rw [ht] at he; cases he
  · intro r he hn hd hsend
    have hno : ∀ {a}, e.answer = some a → False := fun ha => by rw [asks_of_answer ha] at he; cases he
    have hno' : ∀ {a}, e.submitRsp = some a → False := fun ha => by rw [asks_of_submitRsp ha] at he; cases he
    cases h with
    | aside ha => rw [ha] at he; cases he
    | refused _ hnot => exact (hnot ⟨hn, hd⟩).elim
    | aborted _ _ _ _ hlen hfail => rw [hsend _ hlen] at hfail; cases hfail.1
    | @opened r' S hs conn links msg rand he' ht hid =>
      obtain rfl := Option.some.inj (he'.symm.trans he)
      cases hm : s.core.mapEndorse r'.1 s.core.sessionID with
      | none => rfl
      | some q =>
        exfalso
        obtain ⟨S₀, hS₀, hk, hid₀⟩ := hi.endorse _ _ _ hm
        have hq : q ≠ s.core.next := Nat.ne_of_lt (hi.fresh _ _ hS₀)
        have hS₀' : (s.core.openEndorse S).session q = some S₀ := by
          rw [openEndorse_session, if_neg hq]; exact session_eq_some.mpr hS₀
        -- the session that was there is live, and its only entry is taken
        obtain ⟨k, id, hmap⟩ := (hl.mapped q).mp ⟨S₀, hS₀'⟩
        rw [openEndorse_mapEndorse] at hmap
        split at hmap
        · exact hq (Option.some.inj hmap).symm
        · rename_i hne
          obtain ⟨S₁, hS₁, rfl, rfl⟩ := hi.endorse _ _ _ hmap
          rw [hS₀] at hS₁
          obtain rfl := Session.endorse.inj (Option.some.inj hS₁)
          refine hne ⟨hk.trans ?_, hid₀.trans hid.symm⟩
          rw [← ht]; rfl
    | kept ha => exact (hno ha).elim
    | failed ha => exact (hno ha).elim
    | orphaned ha => exact (hno' ha).elim
    | submitted ha => exact (hno' ha).elim
    | timedOut ht => rw [ht] at he; cases he
    | lost ht => rw [ht] at he; cases he

theorem LifeCycle.init : LifeCycle ({} : Core) where
  mapped p := by
    constructor
    · intro hx; obtain ⟨_, h⟩ := hx; cases h
    · intro hx; obtain ⟨_, _, h⟩ := hx; cases h
  timed _ _ h := by cases h
  released _ h := by cases h

theorem releases_of_livesRight {tr : History} (h : Run (step cfg) {} anyStep tr s) (hl : LivesRight cfg tr s) :
    ∀ en ∈ tr, Releases cfg en.pre en.ev := by
  obtain ⟨hpre, hpost, hf⟩ := hl
  induction h with
  | nil => intro en hen; cases hen
  | @snoc tr s e s' outs hr _ hst ih =>
    have hlast : ⟨s, e, outs⟩ ∈ tr ++ [(⟨s, e, outs⟩ : Entry State Event Out)] := by simp
    intro en hen
    rcases List.mem_append.mp hen with hen | hen
    · exact ih (fun en hen => hpre en (List.mem_append_left _ hen)) (hpre _ hlast)
        (fun en hen => hf en (List.mem_append_left _ hen)) en hen
    · obtain rfl := List.mem_singleton.mp hen
      exact (run_move hr hst).releases (run_coreInv hr) hpost (hf _ hlast s' hst)

theorem livesRight_of_releases {tr : History} (h : Run (step cfg) {} anyStep tr s)
    (hc : ∀ en ∈ tr, Releases cfg en.pre en.ev) : LivesRight cfg tr s := by
  induction h with
  | nil =>
    have hnil : ∀ {P : Entry State Event Out → Prop}, ∀ en ∈ ([] : History), P en := by
      intro P en hen; cases hen
    exact ⟨hnil, .init, hnil⟩
  | @snoc tr s e s' outs hr _ hst ih =>
    have hlast : ⟨s, e, outs⟩ ∈ tr ++ [(⟨s, e, outs⟩ : Entry State Event Out)] := by simp
    obtain ⟨hpre, hs, hf⟩ := ih fun en hen => hc en (List.mem_append_left _ hen)
    refine ⟨fun en hen => ?_, (run_move hr hst).lifeCycle (run_coreInv hr) hs (hc _ hlast), fun en hen s₁ hst₁ => ?_⟩
    · rcases List.mem_append.mp hen with hen | hen
      · exact hpre en hen
      · obtain rfl := List.mem_singleton.mp hen
        exact hs
    · rcases List.mem_append.mp hen with hen | hen
      · exact hf en hen s₁ hst₁
      · obtain rfl := List.mem_singleton.mp hen
        exact forwarded_of_releases (hc _ hlast)

/-- A run keeps the life cycle and forwards its submit answers exactly when every submit
answer for a live session is OK and no id is taken while it is in use. -/
theorem lives_right_iff {tr : History} (h : Run (step cfg) {} anyStep tr s) :
    LivesRight cfg tr s ↔ ∀ en ∈ tr, Releases cfg en.pre en.ev :=
  ⟨releases_of_livesRight h, livesRight_of_releases h⟩

end

/-- A submit answer with an error code is not forwarded and leaves a session that is in no map. -/
theorem life_cycle_broken : ¬∀ (cfg : Config) (tr : History) (s : State),
    Run (step cfg) {} anyStep tr s → LivesRight cfg tr s := by
  intro hall
  let evs := connectBoth ++ [registReq 1 {}, registOk firstPeer 0 90 [4] {}, registOk secondPeer 0 91 [4] {},
    .submitRegistRsp ⟨systemErrorType, 0, ⟨1, 2, 3⟩, [], [], []⟩ firstPeer]
  have hr : Run (step twoPeers) {} anyStep (trace (step twoPeers) {} evs) _ := run_trace_any evs
  have hc := releases_of_livesRight hr (hall twoPeers _ _ hr)
  exact absurd hc (by decide)

theorem lives_right_two : ∃ tr s, Run (step twoPeers) {} anyStep tr s ∧ LivesRight twoPeers tr s ∧ tr.length = 6 := by
  let evs := connectBoth ++ [registReq 1 {}, registOk firstPeer 0 90 [4] {}, registOk secondPeer 0 91 [4] {},
    .submitRegistRsp ⟨okType, 0, ⟨1, 2, 3⟩, [], [], []⟩ firstPeer]
  have hr : Run (step twoPeers) {} anyStep (trace (step twoPeers) {} evs) _ := run_trace_any evs
  exact ⟨_, _, hr, (lives_right_iff hr).mpr (by decide), by decide⟩

end VProtocol.Client
