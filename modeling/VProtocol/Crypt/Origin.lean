import VProtocol.Crypt.Deals

/-!
# Where a session comes from

A session has its key and its nonce from the one request that took its address, and the id
and the crypt key that it learnt from answers in the run.
-/

namespace VProtocol.Crypt

open Client (McpHandler Ptr)

/-- The id to submit under and the crypt key of a session, and where they are from. -/
structure Known (cfg : Config) (tr : History) (p : Ptr) (e : Event) (S : EndorseSession) : Prop where
  id : S.esSessionID = e.rawEsSessionID ∨ ∃ en ∈ tr, ∃ key, Credited cfg en.pre en.ev p S.brief S.esSessionID key
  key : S.encodedClientCryptKey = emptyBlob ∨
    ∃ en ∈ tr, ∃ id, Credited cfg en.pre en.ev p S.brief id (some S.encodedClientCryptKey)

structure Origin (cfg : Config) (tr : History) (s : State) : Prop where
  made : ∀ p x, s.core.heap p = some x →
    ∃ e, MadeBy tr p e ∧ e.brief cfg = some x.brief ∧ ∀ S, x = .endorse S → Known cfg tr p e S
  past : ∀ en ∈ tr, en.ev.asks = true → en.pre.core.next < s.core.next
  endorse : ∀ k id p, s.core.mapEndorse k id = some p →
    p < s.core.next ∧ ∀ S, s.core.heap p = some (.endorse S) → S.kind = k
  query : ∀ k id p, s.core.mapQuery k id = some p →
    p < s.core.next ∧ ∀ S, s.core.heap p = some (.query S) → S.kind = k

section
variable {cfg : Config} {tr : History} {s s' : State} {e : Event} {p : Ptr} {outs : List Out} {S S' : EndorseSession}

theorem brief_key {B : Brief} (h : e.brief cfg = some B) (hk : B.kind = .inl .regist) :
    B.envelopeKey = peerEnvelopeKey := by
  cases e with
  | registUserReq req env =>
    obtain rfl := Option.some.inj h
    rfl
  | proposeReq req env =>
    obtain ⟨keys, -, rfl⟩ := Option.map_eq_some_iff.mp h
    cases hk
  | queryUserReq req env =>
    obtain ⟨keys, -, rfl⟩ := Option.map_eq_some_iff.mp h
    cases hk
  | queryTransReq req env =>
    obtain ⟨keys, -, rfl⟩ := Option.map_eq_some_iff.mp h
    cases hk
  | _ => cases h

theorem asks_of_brief {B : Brief} (h : e.brief cfg = some B) : e.asks = true := by
  cases e with
  | registUserReq | proposeReq | queryUserReq | queryTransReq => rfl
  | _ => cases h

theorem Origin.sorted (h : Origin cfg tr s) : Sorted s where
  endorse k id p S hp := (h.endorse k id p hp).2 S
  query k id p S hp := (h.query k id p hp).2 S
  key p S hS hk := by
    obtain ⟨e, -, hb, -⟩ := h.made p _ hS
    exact brief_key hb (congrArg Sum.inl hk)

theorem MadeBy.snoc {e' : Event} (h : MadeBy tr p e') (hp : p < s.core.next) : MadeBy (tr ++ [⟨s, e, outs⟩]) p e' := by
  obtain ⟨hasks, ⟨en, hen, hnext, hev⟩, hone⟩ := h
  refine ⟨hasks, ⟨en, List.mem_append_left _ hen, hnext, hev⟩, fun en' hen' hasks' hnext' => ?_⟩
  rcases List.mem_append.mp hen' with hen' | hen'
  · exact hone en' hen' hasks' hnext'
  · rw [List.mem_singleton.mp hen'] at hnext'
    exact absurd hnext' (Nat.ne_of_gt hp)

theorem madeBy_new (hpast : ∀ en ∈ tr, en.ev.asks = true → en.pre.core.next < s.core.next) (hasks : e.asks = true) :
    MadeBy (tr ++ [⟨s, e, outs⟩]) s.core.next e := by
  refine ⟨hasks, ⟨_, List.mem_append_right _ (List.mem_singleton.mpr rfl), rfl, rfl⟩, fun en hen hasks' hnext => ?_⟩
  rcases List.mem_append.mp hen with hen | hen
  · exact absurd hnext (Nat.ne_of_lt (hpast en hen hasks'))
  · rw [List.mem_singleton.mp hen]

theorem Known.snoc {e' : Event} {en : Entry State Event Out} (h : Known cfg tr p e' S) :
    Known cfg (tr ++ [en]) p e' S where
  id := h.id.imp_right fun ⟨en', hen, hc⟩ => ⟨en', List.mem_append_left _ hen, hc⟩
  key := h.key.imp_right fun ⟨en', hen, hc⟩ => ⟨en', List.mem_append_left _ hen, hc⟩

theorem Known.learns {e' : Event} (h : Known cfg tr p e' S) (hb : S'.brief = S.brief) (hl : Learns cfg s e p S S') :
    Known cfg (tr ++ [⟨s, e, outs⟩]) p e' S' := by
  have hlast : (⟨s, e, outs⟩ : Entry State Event Out) ∈ tr ++ [⟨s, e, outs⟩] :=
    List.mem_append_right _ (List.mem_singleton.mpr rfl)
  obtain ⟨hid, hkey⟩ : Known cfg (tr ++ [⟨s, e, outs⟩]) p e' S := h.snoc
  rcases hl with ⟨hid', hkey'⟩ | ⟨key, hcred, hkey'⟩
  · constructor
    · rwa [hid', hb]
    · rwa [hkey', hb]
  · rw [← hb] at hcred
    refine ⟨.inr ⟨_, hlast, key, hcred⟩, ?_⟩
    cases key with
    | none =>
      rw [hkey', hb]
      exact hkey
    | some key =>
      rw [← Option.getD_some (a := key) (b := S.encodedClientCryptKey), ← hkey'] at hcred
      exact .inr ⟨_, hlast, _, hcred⟩

theorem origin_step (h : Origin cfg tr s) (hf : Fresh s) (hd : Deal cfg s e outs s') :
    Origin cfg (tr ++ [⟨s, e, outs⟩]) s' := by
  have hle : s.core.next ≤ s'.core.next := by
    rw [hd.next]
    split
    · exact Nat.le_succ _
    · exact le_refl _
  have hasked : e.asks = true → s.core.next < s'.core.next := by
    intro hasks
    rw [hd.next, if_pos hasks]
    exact Nat.lt_succ_self _
  refine ⟨fun p x hx => ?_, fun en hen hasks => ?_, fun k id p hp => ?_, fun k id p hp => ?_⟩
  · rcases hd.heap p x hx with ⟨x₀, hx₀, hfollow⟩ | ⟨rfl, hb, hnew⟩
    · obtain ⟨e', hmade, hb, hknown⟩ := h.made p x₀ hx₀
      refine ⟨e', hmade.snoc (hf.lt hx₀), ?_⟩
      rcases hfollow with rfl | ⟨S, S', rfl, rfl, hbrief, hlearns⟩
      · exact ⟨hb, fun S hS => (hknown S hS).snoc⟩
      · refine ⟨hb.trans (congrArg some hbrief.symm), fun S'' hS'' => ?_⟩
        obtain rfl := Session.endorse.inj hS''
        exact (hknown S rfl).learns hbrief hlearns
    · refine ⟨e, madeBy_new h.past (asks_of_brief hb), hb, fun S hS => ?_⟩
      obtain ⟨hid, hkey⟩ := hnew S hS
      exact ⟨.inl hid, .inl hkey⟩
  · rcases List.mem_append.mp hen with hen | hen
    · exact (h.past en hen hasks).trans_le hle
    · rw [List.mem_singleton.mp hen] at hasks ⊢
      exact hasked hasks
  · rcases hd.mapEndorse k id p hp with hp | ⟨rfl, hasks, hkind⟩
    · obtain ⟨hlt, hkind⟩ := h.endorse k id p hp
      refine ⟨hlt.trans_le hle, fun S' hS' => ?_⟩
      rcases hd.heap p _ hS' with ⟨x, hx, hfollow⟩ | ⟨rfl, -⟩
      · rcases hfollow with rfl | ⟨S, S'', rfl, hS'', hbrief, -⟩
        · exact hkind S' hx
        · obtain rfl := Session.endorse.inj hS''
          rw [← hkind S hx]
          exact Sum.inl.inj (congrArg Brief.kind hbrief)
      · exact absurd hlt (lt_irrefl _)
    · exact ⟨hasked hasks, hkind⟩
  · rcases hd.mapQuery k id p hp with hp | ⟨rfl, hasks, hkind⟩
    · obtain ⟨hlt, hkind⟩ := h.query k id p hp
      refine ⟨hlt.trans_le hle, fun S' hS' => ?_⟩
      rcases hd.heap p _ hS' with ⟨x, hx, hfollow⟩ | ⟨rfl, -⟩
      · rcases hfollow with rfl | ⟨S, S'', rfl, hS'', hbrief, -⟩
        · exact hkind S' hx
        · cases hS''
      · exact absurd hlt (lt_irrefl _)
    · exact ⟨hasked hasks, hkind⟩

theorem origin_init : Origin cfg [] {} where
  made _ _ hx := by cases hx
  past := by simp
  endorse _ _ _ hp := by cases hp
  query _ _ _ hp := by cases hp

theorem run_origin {C} (h : Run (step cfg) {} C tr s) : Origin cfg tr s := by
  refine Run.invariant (Origin cfg) origin_init (fun tr s e s' outs hr ho _ hst => ?_) h
  have hf := (run_past hr).1
  exact origin_step ho hf (step_deal ho.sorted hf hst)

/-! ## Messages and successes of a run -/

theorem EsMsg.Ends.mono {B : Brief} {P P' : UInt32 → Prop} {m : EsMsg} (hP : ∀ id, P id → P' id) (h : m.Ends cfg B P) :
    m.Ends cfg B P' := by
  cases m with
  | submitReq k id data => exact ⟨h.1, hP id h.2.1, h.2.2⟩
  | cancelReq k id data => exact ⟨h.1, hP id h.2.1, h.2.2⟩
  | _ => exact h

theorem Rsp.Vouched.mono {B : Brief} {P P' : Blob → Prop} {m : Rsp} (hP : ∀ key, P key → P' key)
    (h : m.Vouched cfg e p B P) : m.Vouched cfg e p B P' := by
  cases m with
  | registUserRsp code channelID userKey cryptUserKey genUserKey =>
    obtain ⟨hkind, hch, huk, hkey, hrsp⟩ := h
    exact ⟨hkind, hch, huk, hP _ hkey, hrsp⟩
  | _ => exact h

/-- Every message of a run is one that a request sends, or it ends the endorsement of a request:
it goes to the selected endorser, under an id this endorser gave, or nobody did, and has the
nonce of the request. -/
theorem messages_sealed (h : Run (step cfg) {} anyStep tr s) : ∀ tr₁ en tr₂, tr = tr₁ ++ en :: tr₂ →
    ∀ hd m, .es hd m ∈ en.outs → en.ev.Sends cfg m ∨ ∃ p e B S, MadeBy tr₁ p e ∧ e.brief cfg = some B ∧
      en.pre.core.heap p = some (.endorse S) ∧ en.pre.submitHandler S = .ok hd ∧
      m.Ends cfg B fun id => id = e.rawEsSessionID ∨
        ∃ en' ∈ tr₁ ++ [en], ∃ key, Credited cfg en'.pre en'.ev p B id key := by
  intro tr₁ en tr₂ heq hd m hm
  obtain ⟨s', hr, -, hst⟩ := h.entry heq
  have ho := run_origin hr
  rcases (step_deal ho.sorted (run_past hr).1 hst).outs _ hm with hsends | ⟨p, S, hS, hhd, hends⟩
  · exact .inl hsends
  · obtain ⟨e, hmade, hb, hknown⟩ := ho.made p _ hS
    refine .inr ⟨p, e, S.brief, S, hmade, hb, hS, hhd, hends.mono fun id hid => ?_⟩
    rcases hid with rfl | ⟨key, hcred⟩
    · exact (hknown S rfl).snoc.id
    · exact .inr ⟨en, List.mem_append_right _ (List.mem_singleton.mpr rfl), key, hcred⟩

/-- A success that is reported in a run is vouched for by an answer that decrypts with the key
of its request and has its nonce; the crypt key in it is from the selected endorser. -/
theorem successes_vouched (h : Run (step cfg) {} anyStep tr s) : ∀ tr₁ en tr₂, tr = tr₁ ++ en :: tr₂ →
    ∀ p m, .rsp p m ∈ en.outs → m.code = okType → ∃ e B, MadeBy tr₁ p e ∧ e.brief cfg = some B ∧
      m.Vouched cfg en.ev p B fun key => key = [] ∨
        ∃ en' ∈ tr₁, ∃ id key', Credited cfg en'.pre en'.ev p B id (some key') ∧ key'.1 = key := by
  intro tr₁ en tr₂ heq p m hm hcode
  obtain ⟨s', hr, -, hst⟩ := h.entry heq
  have ho := run_origin hr
  obtain ⟨x, hx, hvouched⟩ := (step_deal ho.sorted (run_past hr).1 hst).outs _ hm hcode
  obtain ⟨e, hmade, hb, hknown⟩ := ho.made p x hx
  refine ⟨e, x.brief, hmade, hb, hvouched.mono fun key hkey => ?_⟩
  obtain ⟨S, rfl, rfl⟩ := hkey
  rcases (hknown S rfl).key with hempty | ⟨en', hen', id, hcred⟩
  · rw [hempty]
    exact .inl rfl
  · exact .inr ⟨en', hen', id, _, hcred, rfl⟩

end

/-- A registration with the nonce 1; the endorser gives the id 9 and the key 7, and then vouches
for the registration. -/
def keyGiven : List Event :=
  [.connected endorser 0 0 0,
    .registUserReq ⟨false, 0, 3, blobOf 4, emptyBlob⟩ { nonce := blobOf 1 },
    .registUserRsp ⟨okType, 0, 9, ⟨[1, 0, 0, 0, 1, 5, 0, 0, 0, 1, 1, 0, 0, 0, 1, 7, 0, 0, 0, 0, 0, 0, 0, 0], by decide⟩⟩
      endorser {},
    .submitRegistRsp ⟨okType, 0, ⟨[0, 1, 0, 0, 0, 2, 0, 0, 0, 0, 0, 0, 0, 3, 0, 0, 0, 1, 1], by decide⟩⟩ endorser]

theorem messages_sealed_given : ∃ tr s, Run (step plainConfig) {} anyStep tr s ∧
    .es endorser (.submitReq .regist 9 (blobOf 1)) ∈ tr.flatMap (·.outs) ∧
    ∀ tr₁ en tr₂, tr = tr₁ ++ en :: tr₂ → ∀ hd m, .es hd m ∈ en.outs → en.ev.Sends plainConfig m ∨
      ∃ p e B S, MadeBy tr₁ p e ∧ e.brief plainConfig = some B ∧ en.pre.core.heap p = some (.endorse S) ∧
        en.pre.submitHandler S = .ok hd ∧ m.Ends plainConfig B fun id => id = e.rawEsSessionID ∨
          ∃ en' ∈ tr₁ ++ [en], ∃ key, Credited plainConfig en'.pre en'.ev p B id key := by
  have hr : Run (step plainConfig) {} anyStep _ _ := run_trace_any keyGiven
  exact ⟨_, _, hr, by decide, messages_sealed hr⟩

theorem successes_vouched_given : ∃ tr s, Run (step plainConfig) {} anyStep tr s ∧
    .rsp 0 (.registUserRsp okType 3 [4] [7] [0, 1, 0, 0, 0, 2, 0, 0, 0, 0, 0, 0, 0, 3]) ∈ tr.flatMap (·.outs) ∧
    ∀ tr₁ en tr₂, tr = tr₁ ++ en :: tr₂ → ∀ p m, .rsp p m ∈ en.outs → m.code = okType →
      ∃ e B, MadeBy tr₁ p e ∧ e.brief plainConfig = some B ∧ m.Vouched plainConfig en.ev p B fun key => key = [] ∨
        ∃ en' ∈ tr₁, ∃ id key', Credited plainConfig en'.pre en'.ev p B id (some key') ∧ key'.1 = key := by
  have hr : Run (step plainConfig) {} anyStep _ _ := run_trace_any keyGiven
  exact ⟨_, _, hr, by decide, successes_vouched hr⟩

end VProtocol.Crypt
