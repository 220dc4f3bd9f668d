import Mathlib.Data.Fintype.Basic
import VProtocol.Client.Quorum

/-!
# Which request an answer is credited to

A response names a session by the id it echoes. The id is put into the request
messages before the loop over the endorsers and is used up after it, so a loop
that stops half-way leaves messages under an id that the next request takes again.
Without that, ids are never shared: those in a map are below the next id, and so
are those of the messages under them.
-/

namespace VProtocol.Client

def Event.response (e : Event) : Option (Kind × UInt32 × McpHandler) :=
  match e.answer with
  | some a => some (a.kind, a.cltSessionID, a.handler)
  | none => e.submitRsp.map fun r => (r.1, r.2.1, r.2.2.1)

def requestCount (tr : History) : Nat := tr.countP (·.ev.isRequest)

theorem requestCount_append (tr : History) (en : Entry State Event Out) :
    requestCount (tr ++ [en]) = requestCount tr + if en.ev.isRequest then 1 else 0 := by
  simp [requestCount, List.countP_append, List.countP_cons]

theorem requestCount_le {tr tr₁ tr₂ : History} (h : tr = tr₁ ++ tr₂) : requestCount tr₁ ≤ requestCount tr := by
  rw [h, requestCount, requestCount, List.countP_append]
  exact Nat.le_add_right _ _

/-- Every response that finds a live session comes from a handler that was sent the
request of this session under this id, and of no other. -/
def Attributed (tr : History) : Prop :=
  ∀ tr₁ en tr₂, tr = tr₁ ++ en :: tr₂ → ∀ k id h, en.ev.response = some (k, id, h) →
    ∀ p, en.pre.core.mapEndorse k id = some p → Sent tr₁ h p k id ∧ ∀ q, Sent tr₁ h q k id → q = p

/-- Endorsers echo an id that they were sent. -/
def Echo (tr : History) (e : Event) : Prop :=
  ∀ r ∈ e.response, ∃ en ∈ tr, ∃ o ∈ en.outs, o.request.map (fun m => (m.2.2.1, m.2.2.2, m.1)) = some r

/-- A request whose sends all succeed does not take an id under which an abandoned
request of its kind was sent. -/
def NoReuse (cfg : Config) (tr : History) (s : State) (e : Event) : Prop :=
  ∀ r ∈ e.asks, cfg.endorsePeerCount ≤ s.conn.peers.length → e.decodes cfg = true →
    (∀ i < cfg.endorsePeerCount, e.sendErr i = false) →
      ∀ en ∈ tr, ∀ o ∈ en.outs, o.request.map (fun m => m.2.2) ≠ some (r.1, s.core.sessionID)

instance (tr : History) (e : Event) : Decidable (Echo tr e) := by
  delta Echo; infer_instance

instance (cfg : Config) (tr : History) (s : State) (e : Event) : Decidable (NoReuse cfg tr s e) := by
  delta NoReuse; infer_instance

theorem isRequest_of_asks {e : Event} {r} (h : e.asks = some r) : e.isRequest = true := by
  cases e <;> first | rfl | cases h

/-! ## The session id and the maps over a step -/

section
variable {cfg : Config} {s s' : State} {e : Event} {outs : List Out}

theorem Losses.sessionID (h : Losses s outs s') : s'.core.sessionID = s.core.sessionID := by
  induction h with
  | nil => rfl
  | endorse hend _ ih => obtain ⟨-, -⟩ := hend; exact ih
  | single hend _ ih => obtain ⟨-, -⟩ := hend; exact ih

theorem Losses.mapEndorse (h : Losses s outs s') {k id p} (hm : s'.core.mapEndorse k id = some p) :
    s.core.mapEndorse k id = some p := by
  induction h with
  | nil => exact hm
  | endorse hend _ ih => obtain ⟨-, -⟩ := hend; exact (eraseEndorse_eq_some.mp (ih hm)).1
  | single hend _ ih => obtain ⟨-, -⟩ := hend; exact ih hm

theorem Ended.mapEndorse {p₀ S} (h : Ended s p₀ S s') {k id p} :
    s'.core.mapEndorse k id = some p ↔ s.core.mapEndorse k id = some p ∧ p ≠ p₀ := by
  obtain ⟨-, -⟩ := h
  exact eraseEndorse_eq_some

theorem openEndorse_mapEndorse {c : Core} {S : EndorseSession} {k id} :
    (c.openEndorse S).mapEndorse k id =
      if k = S.kind ∧ id = S.cltSessionID then some c.next else c.mapEndorse k id := by
  by_cases hk : k = S.kind
  · subst hk
    by_cases hid : id = S.cltSessionID
    · subst hid; simp [Core.openEndorse]
    · simp [Core.openEndorse, hid]
  · simp [Core.openEndorse, hk]

theorem Move.sessionID (h : Move cfg s e s' outs) : s'.core.sessionID = s.core.sessionID ∨
    (e.isRequest = true ∧ s'.core.sessionID = s.core.sessionID + 1) := by
  cases h with
  | aside _ _ _ h =>
    cases h with
    | quiet => exact .inl rfl
    | refused => exact .inl rfl
    | queried he => exact .inr ⟨he, rfl⟩
    | fired => exact .inl rfl
    | ended hend => obtain ⟨-, -⟩ := hend; exact .inl rfl
  | refused => exact .inl rfl
  | aborted _ _ _ _ _ _ _ _ _ hend => obtain ⟨-, -⟩ := hend; exact .inl rfl
  | opened he => exact .inr ⟨isRequest_of_asks he, rfl⟩
  | kept => exact .inl rfl
  | failed _ _ _ _ _ hend => obtain ⟨-, -⟩ := hend; exact .inl rfl
  | orphaned => exact .inl rfl
  | submitted _ _ _ hw hend =>
    obtain ⟨-, -⟩ := hend
    cases hw with
    | none => exact .inl rfl
    | some => exact .inl rfl
  | timedOut _ _ hend => obtain ⟨-, -⟩ := hend; exact .inl rfl
  | lost _ _ _ hl => exact .inl hl.sessionID

theorem Move.mapEndorse (h : Move cfg s e s' outs) {k id p} (hm : s'.core.mapEndorse k id = some p) :
    s.core.mapEndorse k id = some p ∨
    (p = s.core.next ∧ id = s.core.sessionID ∧ s'.core.sessionID = s.core.sessionID + 1 ∧
      cfg.endorsePeerCount ≤ s.conn.peers.length ∧ e.decodes cfg = true ∧
      (∀ i < cfg.endorsePeerCount, e.sendErr i = false) ∧ ∃ r, e.asks = some r ∧ r.1 = k) := by
  cases h with
  | aside _ _ _ h =>
    cases h with
    | quiet => exact .inl hm
    | refused => exact .inl hm
    | queried => exact .inl hm
    | fired => exact .inl hm
    | ended hend => obtain ⟨-, -⟩ := hend; exact .inl hm
  | refused => exact .inl hm
  | aborted _ _ _ _ _ _ _ _ _ hend => exact .inl (hend.mapEndorse.mp hm).1
  | opened he ht hid _ _ hn hd hf =>
    rw [openEndorse_mapEndorse] at hm
    split at hm
    · rename_i hk
      refine .inr ⟨(Option.some.inj hm).symm, hk.2.trans hid, rfl, hn, hd, hf, _, he, ?_⟩
      rw [← ht, hk.1]; rfl
    · exact .inl hm
  | kept => exact .inl hm
  | failed _ _ _ _ _ hend => exact .inl (hend.mapEndorse.mp hm).1
  | orphaned => exact .inl (eraseEndorse_eq_some.mp hm).1
  | submitted _ _ _ hw hend =>
    refine .inl ?_
    have := (hend.mapEndorse.mp hm).1
    cases hw with
    | none => exact this
    | some => exact this
  | timedOut _ _ hend => exact .inl (hend.mapEndorse.mp hm).1
  | lost _ _ _ hl => exact .inl (hl.mapEndorse hm)

/-! ## Ids are not shared -/

structure IdInv (tr : History) (s : State) : Prop where
  count : s.core.sessionID.toNat ≤ requestCount tr
  map : ∀ k id p, s.core.mapEndorse k id = some p → id.toNat < s.core.sessionID.toNat
  sent : ∀ h p k id, Sent tr h p k id → id.toNat ≤ s.core.sessionID.toNat
  owner : ∀ k id p, s.core.mapEndorse k id = some p → ∀ h q, Sent tr h q k id → q = p

theorem IdInv.step {tr : History} (hi : IdInv tr s) (hm : Move cfg s e s' outs) (hc : NoReuse cfg tr s e)
    (hlt : requestCount (tr ++ [⟨s, e, outs⟩]) < 2 ^ 32) : IdInv (tr ++ [⟨s, e, outs⟩]) s' := by
  rw [requestCount_append] at hlt
  have hsucc : s'.core.sessionID = s.core.sessionID + 1 → requestCount tr < 2 ^ 32 - 1 →
      s'.core.sessionID.toNat = s.core.sessionID.toNat + 1 := by
    intro h hlt
    have := hi.count
    rw [h, UInt32.toNat_add, UInt32.toNat_one]
    omega
  have hid : s'.core.sessionID.toNat ≤ requestCount tr + (if e.isRequest then 1 else 0) ∧
      s.core.sessionID.toNat ≤ s'.core.sessionID.toNat := by
    rcases hm.sessionID with h | ⟨hreq, h⟩
    · rw [h]; exact ⟨Nat.le_trans hi.count (Nat.le_add_right _ _), Nat.le_refl _⟩
    · rw [if_pos hreq] at hlt ⊢
      rw [hsucc h (by omega)]
      exact ⟨Nat.succ_le_succ hi.count, Nat.le_succ _⟩
  have hreq : ∀ {r}, e.asks = some r → requestCount tr < 2 ^ 32 - 1 := by
    intro r h
    rw [if_pos (isRequest_of_asks h)] at hlt
    omega
  refine ⟨by rw [requestCount_append]; exact hid.1, fun k id p hp => ?_, fun h p k id hs => ?_, fun k id p hp h q hs => ?_⟩
  · rcases hm.mapEndorse hp with hp | ⟨-, rfl, hn, -, -, -, r, hask, -⟩
    · exact Nat.lt_of_lt_of_le (hi.map k id p hp) hid.2
    · rw [hsucc hn (hreq hask)]; exact Nat.lt_succ_self _
  · rcases sent_append hm hs with hs | ⟨-, -, rfl, -⟩
    · exact Nat.le_trans (hi.sent h p k id hs) hid.2
    · exact hid.2
  · rcases hm.mapEndorse hp with hp | ⟨rfl, rfl, hn, hpeers, hdec, hsend, r, hask, rfl⟩
    · rcases sent_append hm hs with hs | ⟨-, -, rfl, -⟩
      · exact hi.owner k id p hp h q hs
      · exact absurd (hi.map k _ p hp) (Nat.lt_irrefl _)
    · rcases sent_append hm hs with ⟨en, hen, o, ho, hr⟩ | ⟨hq, -⟩
      · exact absurd (by rw [hr]; rfl) (hc r hask hpeers hdec hsend en hen o ho)
      · exact hq

/-- Response attribution, for runs without a reused id. -/
theorem attributed {tr : History} (h : Run (step cfg) {} (fun tr s e => Echo tr e ∧ NoReuse cfg tr s e) tr s)
    (hlt : requestCount tr < 2 ^ 32) : Attributed tr := by
  have hinv : ∀ {tr s}, Run (step cfg) {} (fun tr s e => Echo tr e ∧ NoReuse cfg tr s e) tr s →
      requestCount tr < 2 ^ 32 → IdInv tr s := by
    intro tr s h
    refine h.invariant (fun tr s => requestCount tr < 2 ^ 32 → IdInv tr s) (fun _ => ?_) ?_
    · exact ⟨Nat.le_refl _, (fun _ _ _ h => by cases h), (fun _ _ _ _ ⟨_, h, _⟩ => by cases h),
        (fun _ _ _ h => by cases h)⟩
    · intro tr s e s' outs hr ih hc hst hlt
      have hlt₀ := Nat.lt_of_le_of_lt (requestCount_le rfl) hlt
      exact (ih hlt₀).step (run_move hr hst) hc.2 hlt
  intro tr₁ en tr₂ htr k id hd hresp p hp
  obtain ⟨s', hr, hc, hst⟩ := h.entry htr
  have hi := hinv hr (Nat.lt_of_le_of_lt (requestCount_le htr) hlt)
  obtain ⟨en', hen, o, ho, hreq⟩ := hc.1 _ hresp
  obtain ⟨⟨h', q, k', id'⟩, hreq', heq⟩ := Option.map_eq_some_iff.mp hreq
  obtain ⟨rfl, rfl, rfl⟩ : k' = k ∧ id' = id ∧ h' = hd := by simpa only [Prod.mk.injEq] using heq
  have hsent : Sent tr₁ h' q k' id' := ⟨en', hen, o, ho, hreq'⟩
  have hown := hi.owner k' id' p hp
  exact ⟨hown h' q hsent ▸ hsent, hown h'⟩

end

/-! ## An abandoned broadcast -/

def fourPeers : Config := { twoPeers with peers := [(1, [10]), (2, [20]), (3, [30]), (4, [40])] }

def connectFour : List Event :=
  [.connected firstPeer 0 0 0, .connected secondPeer 0 0 0, .connected ⟨3, 30⟩ 0 0 0, .connected ⟨4, 40⟩ 0 0 0]

/-- The first request reaches one endorser before a send fails; its answer is taken for
the next request, which this endorser was never sent. -/
theorem misattributed : ¬∀ (cfg : Config) (tr : History) (s : State),
    Run (step cfg) {} (fun tr _ e => Echo tr e) tr s → requestCount tr < 2 ^ 32 → Attributed tr := by
  intro hall
  let evs := connectFour ++
    [registReq 1 { sendErr := fun i => i == 1 }, registReq 2 {}, registOk firstPeer 0 90 [4] {}]
  have hr := run_of_meets (step fourPeers) {} (fun tr _ e => Echo tr e) evs (by decide)
  have ha := hall fourPeers _ _ hr (by decide)
  obtain ⟨en, hsplit, -, hen⟩ := split_map (trace (step fourPeers) {} evs) 6
    (fun en => (en.ev.response, en.pre.core.mapEndorse .regist 0)) (some (.regist, 0, firstPeer), some 1) rfl
  obtain ⟨hresp, hmap⟩ := Prod.mk.inj hen
  exact absurd (ha _ _ _ hsplit .regist 0 firstPeer hresp 1 hmap).1 (by decide)

theorem attributed_two : ∃ tr s, Run (step twoPeers) {} (fun tr s e => Echo tr e ∧ NoReuse twoPeers tr s e) tr s ∧
    Attributed tr ∧ (tr.filterMap (·.ev.response)).length = 3 := by
  let evs := connectBoth ++ [registReq 1 {}, registOk firstPeer 0 90 [4] {}, registOk secondPeer 0 91 [4] {},
    .submitRegistRsp ⟨okType, 0, ⟨1, 2, 3⟩, [], [], []⟩ firstPeer]
  have hr := run_of_meets (step twoPeers) {} (fun tr s e => Echo tr e ∧ NoReuse twoPeers tr s e) evs (by decide)
  exact ⟨_, _, hr, attributed hr (by decide), by decide⟩

end VProtocol.Client
