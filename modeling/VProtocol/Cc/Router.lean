import VProtocol.Cc.Isolation

/-!
# Which committer is asked

`CXCommitterServiceRouter` reads the committers of the channels from a table when the
service starts, and `CCcService` asks it for the committer of the channel of a session.
Every query of a run goes to the committer of the first row of the channel that the
proposal of its session was made for; a channel with no row is never asked about.
-/

namespace VProtocol.Cc

open Function (update)

/-- A row of `XCS_CFG`. -/
structure CVbhCommonXcsConfig where
  nodeID : Int32
  xcsID : Int32
  channelID : Int32

structure SDscAddr where
  nodeID : Int16
  serviceID : Int16
  deriving DecidableEq

abbrev CXCommitterServiceRouter := UInt32 → Option SDscAddr

-- the ids of the table are wider than those of an address
def CVbhCommonXcsConfig.addr (row : CVbhCommonXcsConfig) : SDscAddr := ⟨row.nodeID.toInt16, row.xcsID.toInt16⟩

def CVbhCommonXcsConfig.channel (row : CVbhCommonXcsConfig) : UInt32 := row.channelID.toUInt32

namespace CXCommitterServiceRouter

/-- The map leaves a key that is there alone. -/
def insert (m : CXCommitterServiceRouter) (nChannelID : UInt32) (addr : SDscAddr) : CXCommitterServiceRouter :=
  if (m nChannelID).isSome then m else update m nChannelID (some addr)

def loadRows (m : CXCommitterServiceRouter) : List CVbhCommonXcsConfig → CXCommitterServiceRouter
  | [] => m
  | row :: rows => loadRows (m.insert row.channel row.addr) rows

/-- `lstCfg` is `none` where the database cannot be reached or the rows cannot be read. -/
def loadChannelMapXcsAddr (m : CXCommitterServiceRouter) (lstCfg : Option (List CVbhCommonXcsConfig)) :
    Option CXCommitterServiceRouter :=
  lstCfg.map m.loadRows

def init (lstCfg : Option (List CVbhCommonXcsConfig)) : Option CXCommitterServiceRouter :=
  loadChannelMapXcsAddr (fun _ => none) lstCfg

/-- `msgAddr` is the address with the node and service types of a committer. -/
def getXcsAddr (m : CXCommitterServiceRouter) (msgAddr : SDscAddr → MsgAddr) (nChannelID : UInt32) : Option MsgAddr :=
  (m nChannelID).map msgAddr

theorem loadRows_eq (m : CXCommitterServiceRouter) (rows : List CVbhCommonXcsConfig) (ch : UInt32) :
    m.loadRows rows ch = (m ch).or ((rows.find? (·.channel = ch)).map (·.addr)) := by
  induction rows generalizing m with
  | nil => simp [loadRows]
  | cons row rows ih =>
    rw [loadRows, ih, insert]
    by_cases hch : row.channel = ch
    · subst hch
      cases hm : m row.channel with
      | none => simp
      | some addr => simp [hm]
    · have hins : (if (m row.channel).isSome then m else update m row.channel (some row.addr)) ch = m ch := by
        split
        · rfl
        · rw [Function.update_of_ne (Ne.symm hch)]
      rw [hins, List.find?_cons_of_neg (by simpa using hch)]

theorem init_eq (rows : List CVbhCommonXcsConfig) (ch : UInt32) :
    ∃ m, init (some rows) = some m ∧ m ch = (rows.find? (·.channel = ch)).map (·.addr) :=
  ⟨_, rfl, loadRows_eq _ rows ch⟩

end CXCommitterServiceRouter

/-! ## The channel of a session -/

/-- Session `p` was opened by a proposal for this channel. -/
def OpenedOn (tr : History) (p : Ptr) (nChannelID : UInt32) : Prop :=
  ∃ en ∈ tr, en.pre.next = p ∧ ∃ req src, en.ev = .submitProposalReq req src ∧ req.channelID = nChannelID

structure ChannelInv (tr : History) (s : State) : Prop where
  opened : ∀ p ch, OpenedOn tr p ch → p < s.next ∧ ∀ S, s.session p = some S → S.channelID = ch
  live : ∀ p S, s.session p = some S → OpenedOn tr p S.channelID

section
variable {cfg : Config} {s s' : State} {e : Event} {outs : List Out} {tr : History} {p : Ptr}
variable {addr : MsgAddr} {path : Path} {key : OrderGenerateKey} {h : UInt64}

theorem openedOn_snoc {en : Entry State Event Out} {ch : UInt32} : OpenedOn (tr ++ [en]) p ch ↔ OpenedOn tr p ch ∨
    en.pre.next = p ∧ ∃ req src, en.ev = .submitProposalReq req src ∧ req.channelID = ch := by
  unfold OpenedOn
  simp only [List.mem_append, List.mem_singleton, or_and_right, exists_or, exists_eq_left]

theorem session_eq_some {S} : s.session p = some S ↔ s.heap p = some (.processProposal S) := by
  constructor
  · exact heap_of_session
  · intro h
    simp only [State.session, h]

theorem setLst_channelID (S : ProcessProposalSession) (l : List Item) : (S.setLst path l).channelID = S.channelID := by
  cases path <;> rfl

theorem getVbh_channelID (S : ProcessProposalSession) (path h key sendRet) :
    (S.getVbh cfg path h key sendRet).1.channelID = S.channelID := by
  unfold ProcessProposalSession.getVbh
  split
  · rfl
  split
  · rfl
  split
  · rfl
  · exact setLst_channelID _ _

theorem setVbh_channelID (S : ProcessProposalSession) (path key value) :
    (S.setVbh path key value).1.channelID = S.channelID := by
  unfold ProcessProposalSession.setVbh
  split
  · rfl
  · exact setLst_channelID _ _

theorem createVbhInformation_channelID (S : ProcessProposalSession) (key value) :
    (S.createVbhInformation key value).1.channelID = S.channelID := by
  unfold ProcessProposalSession.createVbhInformation
  split
  · rfl
  · rfl

theorem onReply_channelID (S : ProcessProposalSession) (r : Reply) : (S.onReply r).1.channelID = S.channelID := by
  unfold ProcessProposalSession.onReply
  split
  · split
    · rfl
    · exact setLst_channelID _ _
  · rfl

theorem live_channelID {r : ProcessProposalSession × List Out} {S S' : ProcessProposalSession}
    (hr : r.1.channelID = S.channelID) (h : (live r).1 = some (.processProposal S')) : S'.channelID = S.channelID := by
  simp only [live, Option.some.injEq, Session.processProposal.injEq] at h
  rw [← h]
  exact hr

/-- What a session takes leaves its channel, which it has from the request that opened it. -/
theorem alone_channelID {x : Option Session} {a : Input} {S'} (h : (alone cfg x a).1 = some (.processProposal S')) :
    (∃ S, x = some (.processProposal S) ∧ S'.channelID = S.channelID) ∨
      x = none ∧ ∃ id req src, a = .submitProposalReq id req src ∧ S'.channelID = req.channelID := by
  cases x with
  | none =>
    cases a with
    | submitProposalReq id req src =>
      simp only [alone, Option.some.injEq, Session.processProposal.injEq] at h
      exact .inr ⟨rfl, id, req, src, rfl, by rw [← h]⟩
    | registUserReq id req src => cases h
    | call c => cases h
    | reply r => cases h
    | returned => cases h
    | timer => cases h
  | some x =>
    left
    cases x with
    | registUser S =>
      cases a with
      | call c => cases c <;> cases h
      | _ => cases h
    | processProposal S =>
      refine ⟨S, rfl, ?_⟩
      cases a with
      | registUserReq id req src => cases h; rfl
      | submitProposalReq id req src => cases h; rfl
      | reply r => exact live_channelID (onReply_channelID S r) h
      | returned => cases h
      | timer => cases h
      | call c =>
        cases c with
        | getVbhUser h' key sendRet => exact live_channelID (getVbh_channelID S _ _ _ _) h
        | getVbhInformation h' key sendRet => exact live_channelID (getVbh_channelID S _ _ _ _) h
        | setVbhUser h' key value => exact live_channelID (setVbh_channelID S _ _ _) h
        | setVbhInformation h' key value => exact live_channelID (setVbh_channelID S _ _ _) h
        | createVbhInformation h' key value => exact live_channelID (createVbhInformation_channelID S _ _) h
        | registUserRsp code h' allow info => cases h; rfl
        | porposalRsp code h' result encodes => cases h

/-- A proposal session after a step was there before it with the same channel, or was
opened by the step. -/
theorem session_channel (hi : MapInv s) (hst : step cfg s e = .ok (s', outs)) {S'} (h : s'.session p = some S') :
    (∃ S, s.session p = some S ∧ S'.channelID = S.channelID) ∨
      p = s.next ∧ ∃ req src, e = .submitProposalReq req src ∧ S'.channelID = req.channelID := by
  have hreach := step_reached hi hst
  rw [session_eq_some] at h
  cases hin : s.input e with
  | none =>
    rw [hin] at hreach
    rw [hreach.heap, ← session_eq_some] at h
    exact .inl ⟨S', h, rfl⟩
  | some qa =>
    obtain ⟨q, a⟩ := qa
    rw [hin] at hreach
    rw [hreach.heap] at h
    by_cases hp : p = q
    · subst hp
      rw [Function.update_self] at h
      rcases alone_channelID h with ⟨S, hS, hch⟩ | ⟨-, id, req, src, rfl, hch⟩
      · exact .inl ⟨S, session_eq_some.mpr hS, hch⟩
      · cases input_hands hin with
        | submitProposalReq => exact .inr ⟨rfl, req, src, rfl, hch⟩
    · rw [Function.update_of_ne hp, ← session_eq_some] at h
      exact .inl ⟨S', h, rfl⟩

theorem Life.next_le (hl : Life s e s' outs) : s.next ≤ s'.next := by
  cases hl with
  | kept _ _ hk => exact Nat.le_of_eq hk.next.symm
  | returned => exact Nat.le_refl _
  | opened _ _ ho => rw [ho.next]; exact Nat.le_succ _
  | ended _ _ hd => exact Nat.le_of_eq hd.next.symm

theorem Life.next_opens (hl : Life s e s' outs) (ho : e.opens ≠ none) : s'.next = s.next + 1 := by
  cases hl with
  | kept h _ _ => exact absurd h ho
  | returned he => exact absurd (by rw [he]; rfl) ho
  | opened _ _ h => exact h.next
  | ended h _ _ => exact absurd h ho

theorem ChannelInv.step (hi : ChannelInv tr s) (hm : MapInv s) (hst : Cc.step cfg s e = .ok (s', outs)) :
    ChannelInv (tr ++ [⟨s, e, outs⟩]) s' := by
  have hl := step_life hm hst
  constructor
  · intro p ch h
    rcases openedOn_snoc.mp h with h | ⟨hp, req, src, he, hch⟩
    · obtain ⟨hlt, hall⟩ := hi.opened p ch h
      refine ⟨Nat.lt_of_lt_of_le hlt hl.next_le, fun S' hS' => ?_⟩
      rcases session_channel hm hst hS' with ⟨S, hS, hch⟩ | ⟨hp, -⟩
      · rw [hch, hall S hS]
      · exact absurd hp (Nat.ne_of_lt hlt)
    · have hp : s.next = p := hp
      have he : e = .submitProposalReq req src := he
      subst hp
      refine ⟨by rw [hl.next_opens (by rw [he]; nofun)]; exact Nat.lt_succ_self _, fun S' hS' => ?_⟩
      rcases session_channel hm hst hS' with ⟨S, hS, -⟩ | ⟨-, req', src', he', hch'⟩
      · rw [session_eq_some, card_eq_none.mp (hm.fresh _ (Nat.le_refl _))] at hS
        cases hS
      · cases he.symm.trans he'
        rw [hch', hch]
  · intro p S' hS'
    apply openedOn_snoc.mpr
    rcases session_channel hm hst hS' with ⟨S, hS, hch⟩ | ⟨hp, req, src, he, hch⟩
    · rw [hch]
      exact .inl (hi.live p S hS)
    · exact .inr ⟨hp.symm, req, src, he, hch.symm⟩

theorem run_channelInv {C} (h : Run (Cc.step cfg) {} C tr s) : ChannelInv tr s := by
  apply h.invariant ChannelInv
  · refine ⟨fun p ch h => ?_, nofun⟩
    obtain ⟨en, hen, -⟩ := h
    cases hen
  · intro tr s e s' outs hr hi _ hst
    exact hi.step (run_mapInv hr) hst

/-! ## Where the queries go -/

theorem getVbh_query {S : ProcessProposalSession} {path' h' key' sendRet}
    (hq : .query addr path key h ∈ (S.getVbh cfg path' h' key' sendRet).2) :
    h' = h ∧ cfg.getXcsAddr S.channelID = some addr := by
  unfold ProcessProposalSession.getVbh at hq
  split at hq
  · simp at hq
  split at hq
  · simp at hq
  rename_i addr' haddr
  split at hq
  · simp at hq
  · simp only [List.mem_append, List.mem_singleton, reduceCtorEq, or_false] at hq
    split at hq
    · obtain ⟨rfl, -, -, rfl⟩ := Out.query.inj (List.mem_singleton.mp hq)
      exact ⟨rfl, haddr⟩
    · cases hq

/-- Only a proposal session asks, under the handle it was called with, and it asks the
committer of its channel. -/
theorem alone_query {x : Option Session} {a : Input} (hq : .query addr path key h ∈ (alone cfg x a).2) :
    ∃ S c, x = some (.processProposal S) ∧ a = .call c ∧ c.kind = .processProposal ∧ c.handle = h ∧
      cfg.getXcsAddr S.channelID = some addr := by
  unfold alone at hq
  split at hq
  · simp at hq
  · simp at hq
  · obtain ⟨rfl, haddr⟩ := getVbh_query hq
    exact ⟨_, _, rfl, rfl, rfl, rfl, haddr⟩
  · obtain ⟨rfl, haddr⟩ := getVbh_query hq
    exact ⟨_, _, rfl, rfl, rfl, rfl, haddr⟩
  · simp only [live, ProcessProposalSession.setVbh] at hq
    split at hq <;> simp at hq
  · simp only [live, ProcessProposalSession.setVbh] at hq
    split at hq <;> simp at hq
  · simp only [live, ProcessProposalSession.createVbhInformation] at hq
    split at hq <;> simp at hq
  · simp at hq
  · simp at hq
  · simp only [live, ProcessProposalSession.onReply] at hq
    split at hq
    · split at hq <;> simp at hq
    · simp at hq
  · rename_i x
    cases x <;> simp [Session.abandon] at hq
  · rename_i x
    cases x <;> simp [Session.abandon] at hq
  · simp at hq

theorem step_query (hi : MapInv s) (hst : step cfg s e = .ok (s', outs)) (hq : .query addr path key h ∈ outs) :
    ∃ p S, s.find h = some p ∧ s.session p = some S ∧ cfg.getXcsAddr S.channelID = some addr := by
  have hreach := step_reached hi hst
  cases hin : s.input e with
  | none =>
    rw [hin] at hreach
    rcases hreach.outs with rfl | ⟨code, -, rfl⟩
    · cases hq
    · simp at hq
  | some qa =>
    obtain ⟨q, a⟩ := qa
    rw [hin] at hreach
    rw [hreach.outs] at hq
    obtain ⟨S, c, hx, rfl, hk, rfl, haddr⟩ := alone_query hq
    cases input_hands hin with
    | call hq =>
      rw [hk] at hq
      exact ⟨q, S, hq, session_eq_some.mpr hx, haddr⟩

/-- The service that started with these rows sends every query of a run to the committer in
the first row of the one channel that the proposal of the query's session was made for. -/
theorem queries_routed {rows : List CVbhCommonXcsConfig} {m : CXCommitterServiceRouter} {msgAddr : SDscAddr → MsgAddr}
    (hm : CXCommitterServiceRouter.init (some rows) = some m) (hcfg : cfg.getXcsAddr = m.getXcsAddr msgAddr)
    {C} (hr : Run (step cfg) {} C tr s) : ∀ tr₁ en tr₂, tr = tr₁ ++ en :: tr₂ →
      ∀ addr path key h, .query addr path key h ∈ en.outs → ∃ p ch, en.pre.find h = some p ∧ OpenedOn tr₁ p ch ∧
        (∀ ch', OpenedOn tr₁ p ch' → ch' = ch) ∧
        ∃ row, rows.find? (·.channel = ch) = some row ∧ addr = msgAddr row.addr := by
  intro tr₁ en tr₂ heq addr path key h hq
  obtain ⟨s', hr, -, hst⟩ := hr.entry heq
  obtain ⟨p, S, hp, hS, haddr⟩ := step_query (run_mapInv hr) hst hq
  have hi := run_channelInv hr
  refine ⟨p, S.channelID, hp, hi.live p S hS, fun ch' h' => ((hi.opened p ch' h').2 S hS).symm, ?_⟩
  obtain ⟨m', hm', hrow⟩ := CXCommitterServiceRouter.init_eq rows S.channelID
  obtain rfl := Option.some.inj (hm.symm.trans hm')
  rw [hcfg, CXCommitterServiceRouter.getXcsAddr, hrow, Option.map_map] at haddr
  obtain ⟨row, hfind, rfl⟩ := Option.map_eq_some_iff.mp haddr
  exact ⟨row, hfind, rfl⟩

end

/-- Two rows for channel 1, one for channel 2, and none for channel 3. -/
def twoCommitters : List CVbhCommonXcsConfig := [⟨4, 40, 1⟩, ⟨5, 50, 2⟩, ⟨6, 60, 1⟩]

def routed : Config :=
  { oneChannel with getXcsAddr := CXCommitterServiceRouter.getXcsAddr (CXCommitterServiceRouter.loadRows (fun _ => none)
      twoCommitters) fun addr => addr.nodeID.toInt.toNat }

theorem queries_routed_two : ∃ tr s, Run (step routed) {} anyStep tr s ∧
    tr.flatMap (·.outs.filterMap fun o => match o with | .query addr _ _ _ => some addr | _ => none) = [4, 5] ∧
    ∀ tr₁ en tr₂, tr = tr₁ ++ en :: tr₂ → ∀ addr path key h, .query addr path key h ∈ en.outs →
      ∃ p ch, en.pre.find h = some p ∧ OpenedOn tr₁ p ch ∧ (∀ ch', OpenedOn tr₁ p ch' → ch' = ch) ∧
        ∃ row, twoCommitters.find? (·.channel = ch) = some row ∧ addr = row.addr.nodeID.toInt.toNat := by
  let evs : List Event := [.submitProposalReq ⟨8, 1, 1, [9]⟩ 5, .procReturn 0, .submitProposalReq ⟨8, 1, 2, [9]⟩ 5,
    .procReturn 0, .submitProposalReq ⟨8, 1, 3, [9]⟩ 5, .procReturn 0, .call (.getVbhInformation 0x200000000 infoKey 0),
    .call (.getVbhInformation 0x200000001 infoKey 0), .call (.getVbhInformation 0x200000002 infoKey 0)]
  have hr : Run (step routed) {} anyStep (trace (step routed) {} evs) _ := run_trace_any evs
  exact ⟨_, _, hr, by decide, queries_routed rfl rfl hr⟩

end VProtocol.Cc
