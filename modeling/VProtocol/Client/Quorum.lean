import VProtocol.Client.Inv

/-!
# Endorsement quorum

A Submit is backed when as many different handlers as the configured peer count
were sent the session's request and answered OK with one and the same content.
The service counts answers, not handlers, and takes an empty stored content for
"no answer yet"; `quorum_safe` says which answers have to be kept away for the
counter to be the number of agreeing handlers.
-/

namespace VProtocol.Client

/-- `h` was sent the request of session `p`, and an OK answer of it with content `c`
was taken to be for `p`. -/
def Vouched (tr : History) (p : Ptr) (k : Kind) (id : UInt32) (c : Blob) (h : McpHandler) : Prop :=
  Sent tr h p k id ∧
    ∃ a ∈ credited tr p, a.kind = k ∧ a.cltSessionID = id ∧ a.handler = h ∧ a.code = okType ∧ a.content = c

def Quorum (tr : History) (p : Ptr) (k : Kind) (id : UInt32) (c : Blob) (n : Nat) : Prop :=
  ∃ hs : List McpHandler, hs.Nodup ∧ hs.length = n ∧ ∀ h ∈ hs, Vouched tr p k id c h

/-- Every Submit of the history is backed by a quorum of `n` when it is sent. -/
def QuorumSafe (n : Nat) (tr : History) : Prop :=
  ∀ tr₁ en tr₂, tr = tr₁ ++ en :: tr₂ → ∀ h p k es, .es h p (.submitReq k es) ∈ en.outs →
    ∃ id c, Quorum (tr₁ ++ [en]) p k id c n

/-- An answer that is counted below the quorum comes from a handler the request was
sent to and that was not counted before, and its content is the content of the
answers counted before, the empty one included. -/
def FairAnswer (cfg : Config) (tr : History) (s : State) (e : Event) : Prop :=
  ∀ a ∈ e.answer, ∀ p ∈ s.core.mapEndorse a.kind a.cltSessionID, ∀ S ∈ s.core.session p,
    a.code = okType → (S.sees a).same = true → S.succeedRspNum.toNat < cfg.endorsePeerCount →
      Sent tr a.handler p a.kind a.cltSessionID ∧
      (∀ b ∈ credited tr p, b.code = okType → b.handler ≠ a.handler) ∧
      (S.succeedRspNum ≠ 0 → S.content = a.content)

instance (cfg : Config) (tr : History) (s : State) (e : Event) : Decidable (FairAnswer cfg tr s e) := by
  delta FairAnswer; infer_instance

theorem Quorum.mono {tr tr' : History} {p k id c n} (h : Quorum tr p k id c n) (hsub : tr ⊆ tr') :
    Quorum tr' p k id c n := by
  obtain ⟨hs, hn, hl, hv⟩ := h
  refine ⟨hs, hn, hl, fun h hh => ?_⟩
  obtain ⟨hsent, a, hc, ha⟩ := hv h hh
  exact ⟨hsent.mono hsub, a, credited_mono hsub hc, ha⟩

def Backed (n : Nat) (tr : History) (p : Ptr) (S : EndorseSession) : Prop :=
  (∃ c, Quorum tr p S.kind S.cltSessionID c n) ∨
    (S.succeedRspNum.toNat < n ∧ Quorum tr p S.kind S.cltSessionID S.content S.succeedRspNum.toNat)

theorem Backed.counted {cfg : Config} {tr : History} {s : State} {e : Event} {a p S} (outs : List Out)
    (hb : Backed cfg.endorsePeerCount tr p S) (hf : FairAnswer cfg tr s e) (ha : e.answer = some a)
    (hm : s.core.mapEndorse a.kind a.cltSessionID = some p) (hS : s.core.session p = some S)
    (hk : S.kind = a.kind) (hid : S.cltSessionID = a.cltSessionID) (hc : a.code = okType)
    (hs : (S.sees a).same = true) :
    (∃ c, Quorum (tr ++ [⟨s, e, outs⟩]) p a.kind a.cltSessionID c cfg.endorsePeerCount) ∨
      ((S.succeedRspNum + 1).toNat < cfg.endorsePeerCount ∧
        Quorum (tr ++ [⟨s, e, outs⟩]) p a.kind a.cltSessionID a.content (S.succeedRspNum + 1).toNat) := by
  have hsub : tr ⊆ tr ++ [⟨s, e, outs⟩] := List.subset_append_left _ _
  rw [← hk, ← hid]
  rcases hb with ⟨c, hq⟩ | ⟨hlt, hq⟩
  · exact .inl ⟨c, hq.mono hsub⟩
  obtain ⟨hsent, hnew, hcont⟩ := hf a ha p hm S hS hc hs hlt
  have hnum : (S.succeedRspNum + 1).toNat = S.succeedRspNum.toNat + 1 := by
    have := cfg.lt
    rw [UInt32.toNat_add, UInt32.toNat_one]
    omega
  have hq' : Quorum (tr ++ [⟨s, e, outs⟩]) p S.kind S.cltSessionID a.content (S.succeedRspNum.toNat + 1) := by
    obtain ⟨hs, hn, hl, hv⟩ := hq
    refine ⟨a.handler :: hs, List.nodup_cons.mpr ⟨fun hmem => ?_, hn⟩, by rw [List.length_cons, hl], fun h hh => ?_⟩
    · obtain ⟨-, b, hb, -, -, hbh, hbc, -⟩ := hv _ hmem
      exact hnew b hb hbc hbh
    rcases List.mem_cons.mp hh with rfl | hh
    · refine ⟨(hk ▸ hid ▸ hsent).mono hsub, a, mem_credited_append.mpr (.inr ⟨ha, hm⟩), hk.symm,
        hid.symm, rfl, hc, rfl⟩
    · obtain ⟨hse, b, hcr, hbk, hbid, hbh, hbc, hbcont⟩ := hv h hh
      have hne : S.succeedRspNum ≠ 0 := by
        intro h0
        rw [h0] at hl
        rw [List.eq_nil_of_length_eq_zero hl] at hh
        cases hh
      exact ⟨hse.mono hsub, b, credited_mono hsub hcr, hbk, hbid, hbh, hbc, hbcont.trans (hcont hne)⟩
  rcases Nat.lt_or_ge (S.succeedRspNum.toNat + 1) cfg.endorsePeerCount with h | h
  · exact .inr ⟨by rw [hnum]; exact h, by rw [hnum]; exact hq'⟩
  · have heq : S.succeedRspNum.toNat + 1 = cfg.endorsePeerCount := by omega
    exact .inl ⟨a.content, heq ▸ hq'⟩

theorem judge_none {N : Nat} {k n o cs} (h : judge N k n o = (cs, none)) : o.code = okType ∧ o.same = true := by
  unfold judge at h
  split at h
  · rename_i hc
    split at h
    · rename_i hs; exact ⟨hc, hs⟩
    · split at h
      · split at h <;> cases h
      · cases h
  · cases h

/-- A Submit is decided on an OK answer: one that fills the quorum, or one that
differs when the quorum is full. -/
theorem judge_submit {N : Nat} {k n o cs r} (h : judge N k n o = (cs, r)) (hs : .submit ∈ cs) :
    o.code = okType ∧ ((o.same = true ∧ N ≤ (n + 1).toNat) ∨ N ≤ n.toNat) := by
  have hcan : ∀ code env, Choice.submit ∉ cancelled code env := by
    intro code env hm
    unfold cancelled at hm
    split at hm
    · cases hm
    · exact absurd (List.mem_singleton.mp hm) (by decide)
  unfold judge at h
  split at h
  · rename_i hc
    refine ⟨hc, ?_⟩
    split at h
    · rename_i hsame
      split at h
      · rename_i hN; exact .inl ⟨hsame, hN⟩
      · cases h; cases hs
    · split at h
      · rename_i hN; exact .inr hN.2
      · cases h; exact absurd hs (hcan _ _)
  · cases h; exact absurd hs (hcan _ _)

section
variable {cfg : Config} {tr : History} {s s' : State} {e : Event} {outs : List Out}

theorem backed_step (h : Run (step cfg) {} (FairAnswer cfg) tr s)
    (hb : ∀ p S, s.core.session p = some S → Backed cfg.endorsePeerCount tr p S) (hf : FairAnswer cfg tr s e)
    (hst : step cfg s e = .ok (s', outs)) :
    ∀ p S, s'.core.session p = some S → Backed cfg.endorsePeerCount (tr ++ [⟨s, e, outs⟩]) p S := by
  have hi := run_coreInv h
  have hsub : tr ⊆ tr ++ [⟨s, e, outs⟩] := List.subset_append_left _ _
  intro p S' hS'
  rcases (run_move h hst).session hi hS' with ⟨hS, -⟩ | ⟨-, -, -, h0, -, -⟩ | ⟨a, S, hd, cs, ha, hm, hS, -, hj, rfl⟩
  · rcases hb p S' hS with ⟨c, hq⟩ | ⟨hlt, hq⟩
    · exact .inl ⟨c, hq.mono hsub⟩
    · exact .inr ⟨hlt, hq.mono hsub⟩
  · refine .inr ⟨by rw [h0]; exact cfg.pos, [], List.nodup_nil, by rw [h0]; rfl, fun _ h => by cases h⟩
  · obtain ⟨S₁, hS₁, hk, hid⟩ := hi.endorse _ _ _ hm
    obtain rfl := Session.endorse.inj (Option.some.inj ((session_eq_some.mp hS).symm.trans hS₁))
    obtain ⟨hc, hs⟩ := judge_none hj
    have := (hb p S hS).counted outs hf ha hm hS hk hid hc hs
    rw [← hk, ← hid] at this
    exact this

/-- Endorsement quorum safety, for the runs whose answers are fair. -/
theorem quorum_safe (h : Run (step cfg) {} (FairAnswer cfg) tr s) : QuorumSafe cfg.endorsePeerCount tr := by
  have hb : ∀ {tr s}, Run (step cfg) {} (FairAnswer cfg) tr s →
      ∀ p S, s.core.session p = some S → Backed cfg.endorsePeerCount tr p S := by
    intro tr s h
    exact h.invariant (fun tr s => ∀ p S, s.core.session p = some S → Backed cfg.endorsePeerCount tr p S)
      (fun _ _ h => by cases h) fun _ _ _ _ _ hr hb hf hst => backed_step hr hb hf hst
  intro tr₁ en tr₂ htr hd p k es ho
  obtain ⟨s', hr, hf, hst⟩ := h.entry htr
  have hi := run_coreInv hr
  rcases (run_move hr hst).es ho with ⟨-, hv⟩ | ⟨r, -, -, -, hq⟩ | ⟨a, S, cs, r, c, es', ha, hm, hS, -, hj, hc, hmsg, -⟩
  · cases hv
  · cases hq
  obtain rfl : c = .submit := by
    cases c with
    | submit => rfl
    | cancel => cases hmsg
  obtain ⟨S₁, hS₁, hk, hid⟩ := hi.endorse _ _ _ hm
  obtain rfl := Session.endorse.inj (Option.some.inj (hS.symm.trans hS₁))
  have hkk : k = a.kind := by injection hmsg
  rw [hkk]
  have hbk := hb hr p S (session_eq_some.mpr hS)
  obtain ⟨hok, ⟨hsame, hN⟩ | hN⟩ := judge_submit hj hc
  · rcases hbk.counted en.outs hf ha hm (session_eq_some.mpr hS) hk hid hok hsame with ⟨c, hq⟩ | ⟨hlt, -⟩
    · exact ⟨a.cltSessionID, c, hq⟩
    · omega
  · rcases hbk with ⟨c, hq⟩ | ⟨hlt, -⟩
    · exact ⟨S.cltSessionID, c, hk ▸ hq.mono (List.subset_append_left _ _)⟩
    · omega

end

/-! ## Two peers -/

def twoPeers : Config where
  endorsePeerCount := 2
  pos := by decide
  lt := by decide
  peers := [(1, [10]), (2, [20])]
  codec :=
    { decodeChannel := fun _ => some 7
      decodeChannelKey := fun _ => none
      decodeTransKey := fun _ => none
      encodeGenerateUserKey := fun _ _ => []
      encodeClientCryptKey := fun _ _ _ _ _ => none
      encodeTransKey := fun _ => [] }

def firstPeer : McpHandler := ⟨1, 10⟩
def secondPeer : McpHandler := ⟨2, 20⟩

def connectBoth : List Event := [.connected firstPeer 0 0 0, .connected secondPeer 0 0 0]

def registReq (srcSessionID : UInt32) (env : RequestEnv) : Event :=
  .registUserReq ⟨false, 3, 7, srcSessionID, [1], [2]⟩ 5 env

def registOk (h : McpHandler) (id esSessionID : UInt32) (content : Blob) (env : AnswerEnv) : Event :=
  .registUserRsp ⟨true, okType, id, esSessionID, content⟩ h env

def registFailed (h : McpHandler) (id : UInt32) (code : Int) : Event :=
  .registUserRsp ⟨false, code, id, 0, []⟩ h {}

def proposeReq (srcSessionID : UInt32) (env : RequestEnv) : Event :=
  .proposeReq ⟨false, 3, 8, srcSessionID, [1], [2]⟩ 5 env

def proposeOk (h : McpHandler) (id esSessionID : UInt32) (content : Blob) (env : AnswerEnv) : Event :=
  .submitProposalRsp ⟨okType, esSessionID, id, content⟩ h env

/-- One endorser that answers twice makes the service submit. -/
theorem quorum_unsafe : ¬ ∀ (cfg : Config) (tr : History) (s : State),
    Run (step cfg) {} anyStep tr s → QuorumSafe cfg.endorsePeerCount tr := by
  intro hall
  let evs := connectBoth ++ [registReq 1 {}, registOk firstPeer 0 90 [4] {}, registOk firstPeer 0 90 [4] {}]
  have hsafe := hall twoPeers _ _ (run_trace_any evs)
  obtain ⟨en, hsplit, htr, hout⟩ := split_map (trace (step twoPeers) {} evs) 4 (·.outs)
    [.es firstPeer 0 (.submitReq .regist 90)] rfl
  obtain ⟨id, c, hs, hn, hl, hv⟩ := hsafe _ _ _ hsplit firstPeer 0 .regist 90 (by rw [hout]; simp)
  have hone : ∀ en ∈ trace (step twoPeers) {} evs, ∀ a ∈ en.ev.answer, a.handler = firstPeer := by decide
  have hsub : hs ⊆ [firstPeer] := by
    intro h hh
    obtain ⟨-, a, hmem, -, -, rfl, -⟩ := hv h hh
    obtain ⟨en', hen', ha, -⟩ := mem_credited.mp hmem
    exact List.mem_singleton.mpr (hone en' (htr hen') a ha)
  have hle := (List.subperm_of_subset hn hsub).length_le
  rw [hl] at hle
  exact absurd hle (by decide)

theorem quorum_safe_two : ∃ tr s, Run (step twoPeers) {} (FairAnswer twoPeers) tr s ∧ QuorumSafe 2 tr ∧
    tr.getLast?.map (·.outs) = some [.es firstPeer 0 (.submitReq .regist 90)] := by
  let evs := connectBoth ++ [registReq 1 {}, registOk firstPeer 0 90 [4] {}, registOk secondPeer 0 91 [4] {}]
  have hrun := run_of_meets (step twoPeers) {} (FairAnswer twoPeers) evs (by decide)
  exact ⟨_, _, hrun, quorum_safe hrun, rfl⟩

end VProtocol.Client
