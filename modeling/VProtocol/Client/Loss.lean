import VProtocol.Client.Symmetry

/-!
# Connection loss

`OnNetworkError` walks the array of the lost connection with a size read before the
loop, while every session it ends leaves that array. `loss_exact_iff`: in a state
whose links are in order the loss is exact when at most one session waits on the
connection, and no wait-notify session does.
-/

namespace VProtocol.Client

open Function (update)

/-- Every session linked to `hp` is answered once and released, every other one is as it
was, and nothing refers to `hp` any more. -/
structure ExactLoss (s : State) (hp : HPtr) (s' : State) (outs : List Out) : Prop where
  answered : ∃ ps : List (Ptr × Session), (ps.map Prod.fst).Nodup ∧ outs = ps.map (·.2.lossAnswer) ∧
    ∀ p x, (p, x) ∈ ps ↔ s.core.heap p = some x ∧ hp ∈ x.handleList
  released : ∀ p, hp ∈ s.core.own p → s'.core.heap p = none ∧ s'.core.armed p = false ∧
    (∀ k id, s'.core.mapEndorse k id ≠ some p) ∧ ∀ k id, s'.core.mapSingle k id ≠ some p
  untouched : ∀ q, hp ∉ s.core.own q → s'.core.heap q = s.core.heap q ∧ s'.core.armed q = s.core.armed q ∧
    (∀ k id, s'.core.mapEndorse k id = some q ↔ s.core.mapEndorse k id = some q) ∧
    ∀ k id, s'.core.mapSingle k id = some q ↔ s.core.mapSingle k id = some q
  arrays : ∀ hq H, hq ≠ hp → s.links.handles hq = some H → ∃ H', s'.links.handles hq = some H' ∧
    ∀ q, H'.arrSession.count q = if hp ∈ s.core.own q then 0 else H.arrSession.count q
  freed : s'.links.handles hp = none ∧ ∀ q, hp ∉ s'.core.own q

def LossExact (cfg : Config) (s : State) (h : McpHandler) : Prop :=
  ∃ s' outs, step cfg s (.networkError h) = .ok (s', outs) ∧
    match s.links.mapHandle h.handleID with
    | some hp => ExactLoss s hp s' outs
    | none => s'.core = s.core ∧ s'.links = s.links ∧ outs = []

section
variable {cfg : Config} {s s' : State} {h : McpHandler} {hp : HPtr} {H : HandleSession} {outs : List Out} {x : Session}
  {p : Ptr}

theorem Gone.core (h : Gone s p x s') (hc : CoreInv s.core) (q : Ptr) :
    (q = p → s'.core.heap q = none ∧ s'.core.armed q = false ∧ (∀ k id, s'.core.mapEndorse k id ≠ some q) ∧
      ∀ k id, s'.core.mapSingle k id ≠ some q) ∧
    (q ≠ p → s'.core.heap q = s.core.heap q ∧ s'.core.armed q = s.core.armed q ∧
      (∀ k id, s'.core.mapEndorse k id = some q ↔ s.core.mapEndorse k id = some q) ∧
      ∀ k id, s'.core.mapSingle k id = some q ↔ s.core.mapSingle k id = some q) := by
  have hx := h.heap.1
  have hc' : CoreInv s'.core := by
    cases h with
    | endorse h => exact h.coreInv hc
    | single h => exact h.coreInv hc
  have hnone : s'.core.heap p = none := by rw [h.heap.2, Function.update_self]
  constructor
  · intro heq
    subst heq
    refine ⟨hnone, ?_, fun k id hm => ?_, fun k id hm => ?_⟩
    · cases ha : s'.core.armed q with
      | false => rfl
      | true =>
        obtain ⟨y, hy⟩ := hc'.armed q ha
        rw [hnone] at hy; cases hy
    · obtain ⟨S, hS, -⟩ := hc'.endorse k id q hm
      rw [hnone] at hS; cases hS
    · obtain ⟨S, hS, -⟩ := hc'.single k id q hm
      rw [hnone] at hS; cases hS
  · intro hq
    refine ⟨by rw [h.heap.2, Function.update_of_ne hq], ?_, fun k id => ?_, fun k id => ?_⟩
    · cases h with
      | endorse h => obtain ⟨-, -⟩ := h; simp [Core.finish, hq]
      | single h => obtain ⟨-, -⟩ := h; simp [Core.finishSingle, hq]
    · cases h with
      | endorse h => rw [h.mapEndorse]; simp [hq]
      | single h => obtain ⟨-, -⟩ := h; exact Iff.rfl
    · cases h with
      | endorse h => obtain ⟨-, -⟩ := h; exact Iff.rfl
      | single h => obtain ⟨-, -⟩ := h; exact eraseSingle_eq_some.trans (and_iff_left hq)

/-! ## A safe loss is exact -/

theorem Lost.exact (hl : Lost cfg s h H s' outs) (hi : SymInv s) (hc : CoreInv s.core)
    (hH : s.links.handles hp = some H) : ExactLoss s hp (s'.forget hp) outs := by
  have hown : ∀ q, hp ∉ s'.core.own q := hl.own hi hH
  have hi' : SymInv (s'.forget hp) := hl.symInv hi hH
  have hfreed : (s'.forget hp).links.handles hp = none := Function.update_self ..
  -- the linked sessions are those of the array
  have hmem : ∀ q, hp ∈ s.core.own q ↔ q ∈ H.arrSession := fun q => (hi.mem hH q).symm
  cases hl with
  | idle harr =>
    have hno : ∀ q, hp ∉ s.core.own q := by simp [hmem, harr]
    refine ⟨⟨[], by simp, rfl, fun p x => ?_⟩, fun p hp' => absurd hp' (hno p), fun q _ => ?_, ?_, hfreed, hown⟩
    · simp only [List.not_mem_nil, false_iff]
      intro hx
      obtain ⟨hx, hx'⟩ := hx
      exact hno p (own_eq hx ▸ hx')
    · exact ⟨rfl, rfl, fun _ _ => Iff.rfl, fun _ _ => Iff.rfl⟩
    · intro hq K hne hK
      refine ⟨K, by simp [State.forget, State.disconnected, hne, hK], fun q => ?_⟩
      rw [if_neg (hno q)]
  | @last p x _ harr hgone hpl =>
    have hone : ∀ q, hp ∈ s.core.own q ↔ q = p := by simp [hmem, harr]
    have hx : s.core.heap p = some x := hgone.heap.1
    refine ⟨⟨[(p, x)], by simp, rfl, fun q y => ?_⟩, fun q hq => ?_, fun q hq => ?_, ?_, hfreed, hown⟩
    · rw [List.mem_singleton, Prod.mk.injEq]
      constructor
      · intro hx
        obtain ⟨rfl, rfl⟩ := hx
        exact ⟨hx, own_eq hx ▸ (hone q).mpr rfl⟩
      · intro hx
        obtain ⟨hy, hy'⟩ := hx
        obtain rfl := (hone q).mp (own_eq hy ▸ hy')
        exact ⟨rfl, Option.some.inj (hy.symm.trans hx)⟩
    · exact (hgone.core hc q).1 ((hone q).mp hq)
    · exact (hgone.core hc q).2 (fun h => hq ((hone q).mpr h))
    · intro hq K hne hK
      have hsame : (s.disconnected cfg h).links.Same s'.links := by
        cases hgone with
        | endorse hend => exact hend.same
        | single hend => exact hend.same
      obtain ⟨K', hK', -⟩ := hsame.some (H := K) hK
      have hat : (s'.forget hp).links.handles hq = some K' := by simp [State.forget, hne, hK']
      refine ⟨K', hat, fun q => ?_⟩
      have howns : (s'.forget hp).core.own = update s.core.own p [] := hgone.own
      simp only [(hi'.nodup hat).count, (hi.nodup hK).count, hi'.mem hat, hi.mem hK, howns, hone]
      by_cases hqp : q = p
      · subst hqp; simp
      · simp [hqp]

/-! ## An exact loss is safe -/

theorem netErrorLoop_succ {n i : Nat} (h : netErrorLoop hp (n + 1) i s = .ok (s', outs)) :
    ∃ H p s₁ o₁ o₂, s.links.handles hp = some H ∧ H.arrSession[i]? = some p ∧ onNetError s p = .ok (s₁, o₁) ∧
      netErrorLoop hp n (i + 1) s₁ = .ok (s', o₂) := by
  unfold netErrorLoop at h
  split at h
  · cases h
  rename_i H hH
  split at h
  · cases h
  rename_i p hp'
  obtain ⟨⟨s₁, o₁⟩, hn, h⟩ := Except.bind_eq_ok.mp h
  obtain ⟨⟨s₂, o₂⟩, hl, h⟩ := Except.bind_eq_ok.mp h
  obtain ⟨rfl, -⟩ := Prod.mk.inj (Except.ok.inj h)
  exact ⟨H, p, s₁, o₁, o₂, hH, hp', hn, hl⟩

theorem netErrorLoop_waits {w : Ptr} (hw : x.isWaitNotify = true) : ∀ {n i s s' outs},
    netErrorLoop hp n i s = .ok (s', outs) → s.core.heap w = some x → s'.core.heap w = some x := by
  intro n
  induction n with
  | zero =>
    intro i s s' outs h hx
    obtain ⟨rfl, -⟩ := Prod.mk.inj (Except.ok.inj h)
    exact hx
  | succ n ih =>
    intro i s s' outs h hx
    obtain ⟨H, p, s₁, o₁, o₂, -, -, hn, hl⟩ := netErrorLoop_succ h
    apply ih hl
    obtain ⟨y, hy, ⟨-, rfl, -⟩ | ⟨hno, hgone, -⟩⟩ := onNetError_cases hn
    · exact hx
    · have hne : w ≠ p := by
        intro heq
        subst heq
        rw [hx] at hy
        rw [Option.some.inj hy, hno] at hw
        cases hw
      rw [hgone.heap.2, Function.update_of_ne hne]
      exact hx

theorem Gone.array (hg : Gone s p x s') (hn : x.handleList.Nodup) (hmem : hp ∈ x.handleList)
    (hH : s.links.handles hp = some H) : ∃ H', s'.links.handles hp = some H' ∧
      H'.arrSession = swapErase H.arrSession (s.links.index p) := by
  cases hg with
  | endorse h =>
    obtain ⟨-, hl⟩ := h
    obtain ⟨-, hh⟩ := Links.unlink_ok hn hl
    exact ⟨{ H with arrSession := swapErase H.arrSession (s.links.index p) }, by
      rw [hh, if_pos (by exact hmem), hH]; rfl, rfl⟩
  | single h =>
    obtain ⟨-, hl⟩ := h
    obtain ⟨-, K, hK, hh⟩ := Links.erase_ok hl
    obtain rfl := List.mem_singleton.mp hmem
    obtain rfl := Option.some.inj (hK.symm.trans hH)
    exact ⟨_, by rw [hh, Function.update_self], rfl⟩

theorem netErrorLoop_rounds : ∀ {n i s s' outs H}, netErrorLoop hp n i s = .ok (s', outs) →
    s.links.handles hp = some H → 0 < n →
    (∀ q ∈ H.arrSession, ∀ x, s.core.heap q = some x →
      x.isWaitNotify = false ∧ hp ∈ x.handleList ∧ x.handleList.Nodup) →
    i + 2 * n ≤ H.arrSession.length + 1 := by
  intro n
  induction n with
  | zero => intro i s s' outs H _ _ h; omega
  | succ n ih =>
    intro i s s' outs H h hH _ hall
    obtain ⟨K, p, s₁, o₁, o₂, hK, hp', hn, hl⟩ := netErrorLoop_succ h
    obtain rfl := Option.some.inj (hK.symm.trans hH)
    have hi := (List.getElem?_eq_some_iff.mp hp').1
    obtain ⟨x, hx, hcase⟩ := onNetError_cases hn
    obtain ⟨hw, hmem, hnd⟩ := hall p (List.mem_of_getElem? hp') x hx
    have hgone : Gone s p x s₁ := by
      rcases hcase with ⟨hwt, -⟩ | ⟨-, hg, -⟩
      · rw [hw] at hwt; cases hwt
      · exact hg
    obtain ⟨H₁, hH₁, harr⟩ := hgone.array hnd hmem hH
    have hlen : H₁.arrSession.length = K.arrSession.length - 1 := by rw [harr, swapErase_length]
    rcases Nat.eq_zero_or_pos n with rfl | hpos
    · omega
    have := ih hl hH₁ hpos fun q hq y hy => by
      rw [harr] at hq
      rw [hgone.heap.2] at hy
      apply hall q (swapErase_subset _ _ hq) y
      by_cases hqp : q = p
      · subst hqp; simp at hy
      · rwa [Function.update_of_ne hqp] at hy
    omega

/-- Where no session refers to the freed handle session, at most one was in its array, and it
was not waiting. -/
theorem netErrorLoop_freed (hi : SymInv s) (hH : s.links.handles hp = some H)
    (hloop : netErrorLoop hp H.arrSession.length 0 (s.disconnected cfg h) = .ok (s', outs))
    (hfreed : ∀ q, hp ∉ s'.core.own q) :
    H.arrSession.length ≤ 1 ∧ ∀ q ∈ H.arrSession, ∀ x, s.core.heap q = some x → x.isWaitNotify = false := by
  have hown : ∀ q ∈ H.arrSession, hp ∈ s.core.own q := fun q hq => (hi.mem hH q).mp hq
  have hwait : ∀ q ∈ H.arrSession, ∀ x, s.core.heap q = some x → x.isWaitNotify = false := by
    intro q hq x hx
    cases hw : x.isWaitNotify with
    | false => rfl
    | true =>
      -- it is still there and refers to the freed handle session
      have hx' : s'.core.heap q = some x := netErrorLoop_waits hw hloop hx
      have hmem := hown q hq
      rw [own_eq hx] at hmem
      exact absurd (own_eq (c := s'.core) hx' ▸ hmem) (hfreed q)
  refine ⟨?_, hwait⟩
  rcases Nat.eq_zero_or_pos H.arrSession.length with h0 | hpos
  · omega
  have := netErrorLoop_rounds hloop (by exact hH) hpos fun q hq x hx =>
    ⟨hwait q hq x hx, own_eq hx ▸ hown q hq, own_eq hx ▸ hi.own_nodup q⟩
  omega

theorem netErrorLoop_single (hH : s.links.handles hp = some H) (harr : H.arrSession = [p])
    (hx : s.core.heap p = some x) (hw : x.isWaitNotify = false)
    (hloop : netErrorLoop hp H.arrSession.length 0 s = .ok (s', outs)) : Gone s p x s' := by
  rw [harr, List.length_singleton] at hloop
  obtain ⟨K, q, s₂, o₂, o₃, hK, hq, hn, hl⟩ := netErrorLoop_succ hloop
  obtain ⟨rfl, -⟩ := Prod.mk.inj (Except.ok.inj hl)
  obtain rfl := Option.some.inj (hK.symm.trans hH)
  rw [harr] at hq
  obtain rfl : p = q := Option.some.inj hq
  obtain ⟨y, hy, hcase⟩ := onNetError_cases hn
  obtain rfl := Option.some.inj (hx.symm.trans hy)
  rcases hcase with ⟨hwt, -⟩ | ⟨-, hg, -⟩
  · rw [hw] at hwt
    cases hwt
  · exact hg

theorem Gone.placed {S : EndorseSession} (hgone : Gone s p (.endorse S) s') (hi : SymInv s)
    (hout : ∀ hq H, s'.links.handles hq = some H → p ∉ H.arrSession) : s.links.Placed p S.arrHandleSession := by
  cases hgone with | endorse hend =>
  obtain @⟨links, hS, hu⟩ := hend
  have hlist : s.core.own p = S.arrHandleSession := own_eq hS
  rw [← hlist] at hu ⊢
  exact LinkInv.placed_of_unlink hi hu hout

theorem Gone.emptied (hgone : Gone s p x s') (hi : SymInv s) (hmem : hp ∈ s.core.own p)
    (hH : s.links.handles hp = some H) (harr : H.arrSession = [p]) :
    ∃ H', s'.links.handles hp = some H' ∧ H'.arrSession = [] := by
  have hown : s.core.own p = x.handleList := own_eq hgone.heap.1
  obtain ⟨H', hH', harr'⟩ := hgone.array (hown ▸ hi.own_nodup p) (hown ▸ hmem) hH
  refine ⟨H', hH', ?_⟩
  rw [harr', harr]
  rfl

theorem lossSafe_of_exact (hi : SymInv s) (hpeer : getPeerID cfg.peers h.handleID ≠ -1) (he : LossExact cfg s h) :
    LossSafe s h := by
  intro hp hm H hH
  rw [Option.mem_def] at hm hH
  obtain ⟨s', outs, hst, hex⟩ := he
  rw [hm] at hex
  rw [step_networkError hpeer hm hH] at hst
  obtain ⟨⟨s₁, o₁⟩, hloop, hst⟩ := Except.bind_eq_ok.mp hst
  obtain ⟨rfl, rfl⟩ := Prod.mk.inj (Except.ok.inj hst)
  obtain ⟨hlen, hwait⟩ := netErrorLoop_freed hi hH hloop hex.freed.2
  refine ⟨hlen, fun p hp' x hx => ⟨hwait p hp' x hx, ?_⟩⟩
  have hown : hp ∈ s.core.own p := (hi.mem hH p).mp hp'
  have harr : H.arrSession = [p] := by
    have hpos := List.length_pos_of_mem hp'
    obtain ⟨q, hq⟩ := List.length_eq_one_iff.mp (Nat.le_antisymm hlen hpos)
    rw [hq] at hp'
    rw [hq, List.mem_singleton.mp hp']
  have hi₁ := hi.disconnected cfg h
  have hgone : Gone (s.disconnected cfg h) p x s₁ :=
    netErrorLoop_single (s := s.disconnected cfg h) hH harr hx (hwait p hp' x hx) hloop
  cases x with
  | single W =>
    intro hq hmem L hL
    have hone : ¬Multi s.core.own p := by simp [Multi, own_eq hx, Session.handleList]
    exact takenBy_of_getElem? (hi.sole hone (own_eq hx ▸ hmem) hL)
  | endorse S =>
    refine hgone.placed hi₁ fun hq H' hH' hmem => ?_
    by_cases hqp : hq = hp
    · subst hqp
      obtain ⟨K, hK, hnil⟩ := hgone.emptied hi₁ hown hH harr
      obtain rfl := Option.some.inj (hK.symm.trans hH')
      rw [hnil] at hmem
      cases hmem
    · cases hgone with | endorse hend =>
      obtain ⟨L, hL, -⟩ := hend.same.symm_some hH'
      obtain ⟨L', hL', hcount⟩ := hex.arrays hq L hqp hL
      simp only [State.forget, Function.update_of_ne hqp] at hL'
      obtain rfl := Option.some.inj (hL'.symm.trans hH')
      have := hcount p
      rw [if_pos hown] at this
      exact List.count_eq_zero.mp this hmem

/-! ## Runs -/

theorem LossSafe.exact (hsafe : LossSafe s h) (hi : SymInv s) (hc : CoreInv s.core) (hl : LinksInv s.links)
    (hpeer : getPeerID cfg.peers h.handleID ≠ -1) : LossExact cfg s h := by
  cases hm : s.links.mapHandle h.handleID with
  | none =>
    refine ⟨_, [], step_networkError_none hpeer hm, ?_⟩
    rw [hm]
    exact ⟨rfl, rfl, rfl⟩
  | some hp =>
    obtain ⟨H, hH, -⟩ := hl.map _ _ hm
    obtain ⟨s₁, outs, hlost, hst⟩ := hi.lost hsafe hpeer hm hH
    refine ⟨_, _, hst, ?_⟩
    rw [hm]
    exact hlost.exact hi hc hH

/-- In a state whose links are in order, the loss of a connection is exact when at most one
session waits on it, none of them for a notify, and that one is placed in all its arrays. -/
theorem loss_exact_iff {tr : History} (hr : Run (step cfg) {} (fun _ s e => KeepsLinks cfg s e) tr s)
    (hpeer : getPeerID cfg.peers h.handleID ≠ -1) : LossExact cfg s h ↔ LossSafe s h := by
  have hi := run_symInv hr
  constructor
  · exact lossSafe_of_exact hi hpeer
  · intro hsafe
    exact hsafe.exact hi (run_coreInv hr) (run_linksInv hr) hpeer

end

/-- Two sessions on a lost connection: the second round reads past the end of the array. -/
theorem loss_inexact : ¬∀ (cfg : Config) (tr : History) (s : State) (h : McpHandler), Run (step cfg) {} anyStep tr s →
    getPeerID cfg.peers h.handleID ≠ -1 → LossExact cfg s h := by
  intro hall
  let evs := connectBoth ++ [registReq 1 {}, registReq 2 {}]
  obtain ⟨s', outs, hst, -⟩ := hall twoPeers _ _ firstPeer (run_trace_any evs) (by decide)
  have hfault : step twoPeers (final (step twoPeers) {} evs) (.networkError firstPeer) = .error .outOfRange := rfl
  rw [hfault] at hst
  cases hst

theorem loss_exact_two : ∃ tr s, Run (step twoPeers) {} (fun _ s e => KeepsLinks twoPeers s e) tr s ∧
    LossExact twoPeers s firstPeer ∧ (s.links.handles 0).map (·.arrSession) = some [0] := by
  let evs := connectBoth ++ [registReq 1 {}]
  have hr := run_of_meets (step twoPeers) {} (fun _ s e => KeepsLinks twoPeers s e) evs (by decide)
  exact ⟨_, _, hr, (loss_exact_iff hr (by decide)).mpr (by decide), rfl⟩

end VProtocol.Client
