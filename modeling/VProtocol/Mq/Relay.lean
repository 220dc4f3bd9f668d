import Mathlib.Data.List.Forall2
import VProtocol.Mq.Book
import VProtocol.Mq.Forwarder
import VProtocol.Mq.Told

/-!
# Addresses through the scheduler

Forwarders tell the scheduler their addresses, the scheduler tells the clients, and a
forwarder that exits tells the clients itself. A port is of 16 bits with a sign on the first
way, and of 32 bits on the second one.
-/

namespace VProtocol.Mq

open Function (update)

/-! ## Forwarders -/

/-- What `OnConnected` sends to a scheduler. -/
def announce (f : MqForwarderAddr) : RegistMqForwarderServiceReq := ⟨f.port.toInt16, f.strIpAddr⟩

/-! ## The system -/

/-- `inbox` are the messages of the scheduler that a client has not received yet. -/
structure Relay (α : Type) where
  scheduler : Scheduler := {}
  inbox : UInt32 → List SchedMsg := fun _ => []
  agents : UInt32 → Agent α := fun _ => {}

/-- A forwarder is its own address, and a client its handle at the scheduler. -/
inductive RelayEvent (α : Type) where
  | registMqForwarderServiceReq (f : MqForwarderAddr) (nodeType nodeID : Int16)
  | regMqClientAddrReq (c : UInt32) (req : RegMqClientAddrReq)
  | disConnected (nodeType nodeID : Int16)
  | clientLost (c : UInt32)
  | receive (c : UInt32)
  | exit (f : MqForwarderAddr) (c : UInt32) (reports : Bool)
  | connectedNodify (c : UInt32) (h : ClientHandler α) (fails : Bool)
  | networkError (c : UInt32) (h : ClientHandler α)

def SchedMsg.event {α : Type} : SchedMsg → AgentEvent α
  | .regMqClientAddrRsp rsp => .regMqClientAddrRsp rsp
  | .addFowrarderAddrNotify notify => .addFowrarderAddrNotify notify

namespace Relay

section
variable {α : Type} [DecidableEq α] (cfg : AgentConfig α)

omit [DecidableEq α] in
def ofScheduler (r : Scheduler × List SchedOut) (s : Relay α) : Relay α :=
  { s with scheduler := r.1, inbox := fun c => s.inbox c ++ r.2.filterMap (SchedOut.sentTo c) }

def ofAgent (c : UInt32) (r : Agent α × List (AgentOut α)) (s : Relay α) : Relay α × List (UInt32 × AgentOut α) :=
  ({ s with agents := update s.agents c r.1 }, r.2.map fun o => (c, o))

def agentStep (c : UInt32) (e : AgentEvent α) (s : Relay α) : Res (Relay α × List (UInt32 × AgentOut α)) := do
  let r ← (s.agents c).step cfg e
  .ok (s.ofAgent c r)

/-- A connection is to an address that the client knows, as `OnConnectedNodify` asserts. -/
def step (s : Relay α) : RelayEvent α → Res (Relay α × List (UInt32 × AgentOut α))
  | .registMqForwarderServiceReq f nodeType nodeID =>
    .ok (s.ofScheduler (s.scheduler.onRegistMqForwarderServiceReq (announce f) nodeType nodeID), [])
  | .regMqClientAddrReq c req => .ok (s.ofScheduler (s.scheduler.onRegMqClientAddrReq c req), [])
  | .disConnected nodeType nodeID => .ok (s.ofScheduler (s.scheduler.onDisConnected nodeType nodeID), [])
  | .clientLost c =>
    .ok ({ s with scheduler := (s.scheduler.onNetworkError c).1, inbox := update s.inbox c [] }, [])
  | .receive c =>
    match s.inbox c with
    | [] => .error .notConnected
    | m :: l => { s with inbox := update s.inbox c l }.agentStep cfg c m.event
  | .exit f c reports => s.agentStep cfg c (.delFowrarderAddrNotify ⟨f⟩ reports)
  | .connectedNodify c h fails =>
    if (s.agents c).Known cfg h then s.agentStep cfg c (.connectedNodify h fails) else .error .assertion
  | .networkError c h => s.agentStep cfg c (.networkError h)

end

end Relay

abbrev RelayHistory (α : Type) := List (Entry (Relay α) (RelayEvent α) (UInt32 × AgentOut α))

/-! ## What is to be relayed -/

/-- Who has registered, what is on its way to each client, and which forwarders each client knows. -/
structure Roster where
  node : MqForwarderAddr → Option (Int16 × Int16) := fun _ => none
  clients : Set UInt32 := ∅
  inbox : UInt32 → List (Set MqForwarderAddr) := fun _ => []
  known : UInt32 → Set MqForwarderAddr := fun _ => ∅

namespace Roster

section
variable {α : Type}

open scoped Classical in
noncomputable def step (R : Roster) : RelayEvent α → Roster
  | .registMqForwarderServiceReq f nodeType nodeID =>
    if (R.node f).isSome then R
    else
      { R with
        node := update R.node f (some (nodeType, nodeID))
        inbox := fun c => if c ∈ R.clients then R.inbox c ++ [{f}] else R.inbox c }
  | .regMqClientAddrReq c _ =>
    if c ∈ R.clients then R
    else
      { R with
        clients := insert c R.clients
        inbox := update R.inbox c (R.inbox c ++ [{f | (R.node f).isSome}]) }
  | .disConnected nodeType nodeID =>
    { R with node := fun f => if R.node f = some (nodeType, nodeID) then none else R.node f }
  | .clientLost c => { R with clients := R.clients \ {c}, inbox := update R.inbox c [] }
  | .receive c =>
    match R.inbox c with
    | [] => R
    | M :: l => { R with inbox := update R.inbox c l, known := update R.known c (R.known c ∪ M) }
  | .exit f c _ => { R with known := update R.known c (R.known c \ {f}) }
  | .connectedNodify .. => R
  | .networkError .. => R

end

end Roster

noncomputable def roster {α : Type} (tr : RelayHistory α) : Roster := tr.foldl (fun R en => R.step en.ev) {}

theorem roster_snoc {α : Type} (tr : RelayHistory α) (en : Entry (Relay α) (RelayEvent α) (UInt32 × AgentOut α)) :
    roster (tr ++ [en]) = (roster tr).step en.ev := by
  unfold roster
  rw [List.foldl_append]
  rfl

/-! ## The scheduler and the inboxes -/

section
variable {α : Type} {cfg : AgentConfig α} {F K : Set MqForwarderAddr} {R : Roster} {s s' : Relay α} {c : UInt32}
  {f : MqForwarderAddr} {nodeType nodeID : Int16} {outs : List (UInt32 × AgentOut α)}

/-- The system is where the roster says, and all addresses are of `F`. -/
structure Tracks (cfg : AgentConfig α) (F : Set MqForwarderAddr) (R : Roster) (s : Relay α) : Prop where
  forwarders : ∀ x, x ∈ s.scheduler.setForwarderAddr ↔ R.node x.addr = some (x.nodeType, x.nodeID)
  forwarders_in : ∀ f, (R.node f).isSome → f ∈ F
  clients : ∀ c, c ∈ s.scheduler.setMqClientHandlerID ↔ c ∈ R.clients
  clients_nodup : s.scheduler.setMqClientHandlerID.Nodup
  inbox : ∀ c, List.Forall₂ (fun m M => ∀ f, f ∈ SchedMsg.addrs m ↔ f ∈ M) (s.inbox c) (R.inbox c)
  inbox_in : ∀ c, ∀ M ∈ R.inbox c, M ⊆ F
  kept : ∀ c, (s.agents c).Kept
  holds : ∀ c, Agent.Holds cfg (s.agents c) (R.known c)
  known_in : ∀ c, R.known c ⊆ F

/-- No port of the addresses is changed when it is sent in 16 bits. -/
def Narrow (F : Set MqForwarderAddr) : Prop := ∀ f ∈ F, f.port.toInt16.toInt32 = f.port

theorem Narrow.addr (hF : Narrow F) (hf : f ∈ F) (nodeType nodeID : Int16) :
    (ForwarderAddrSession.mk nodeType nodeID (announce f).port (announce f).strAddr).addr = f := by
  unfold ForwarderAddrSession.addr announce
  rw [hF f hf]

theorem Tracks.listed (h : Tracks cfg F R s) (hF : Narrow F) :
    (∃ x ∈ s.scheduler.setForwarderAddr, x.addr = f) ↔ (R.node f).isSome := by
  constructor
  · rintro ⟨x, hx, rfl⟩
    rw [(h.forwarders x).mp hx]
    rfl
  · intro hsome
    have hf := h.forwarders_in f hsome
    obtain ⟨⟨nodeType, nodeID⟩, hnode⟩ := Option.isSome_iff_exists.mp hsome
    refine ⟨⟨nodeType, nodeID, (announce f).port, (announce f).strAddr⟩, (h.forwarders _).mpr ?_, hF.addr hf _ _⟩
    rw [hF.addr hf]
    exact hnode

theorem Tracks.regist (h : Tracks cfg F R s) (hF : Narrow F) (hf : f ∈ F) :
    Tracks cfg F (R.step (.registMqForwarderServiceReq f nodeType nodeID : RelayEvent α))
      (s.ofScheduler (s.scheduler.onRegistMqForwarderServiceReq (announce f) nodeType nodeID)) := by
  have hfound : (s.scheduler.setForwarderAddr.any fun x =>
      x.same ⟨nodeType, nodeID, (announce f).port, (announce f).strAddr⟩) = (R.node f).isSome := by
    rw [Bool.eq_iff_iff, List.any_eq_true, ← h.listed hF]
    refine exists_congr fun x => and_congr_right fun _ => ?_
    rw [decide_eq_true_iff, ForwarderAddrSession.same_iff, ← ForwarderAddrSession.addr_inj, hF.addr hf]
  unfold Scheduler.onRegistMqForwarderServiceReq
  simp only [hfound, Roster.step]
  by_cases hsome : (R.node f).isSome
  · rw [if_pos hsome, if_pos hsome]
    simp only [Relay.ofScheduler, List.filterMap_nil, List.append_nil]
    exact h
  · rw [if_neg hsome, if_neg hsome]
    refine ⟨fun x => ?_, fun g hg => ?_, h.clients, h.clients_nodup, fun c => ?_, fun c M hM => ?_, h.kept, h.holds,
      h.known_in⟩
    · simp only [Relay.ofScheduler, List.mem_orderedInsert, h.forwarders x, update_eq_some, Prod.mk.injEq]
      constructor
      · rintro (rfl | hold)
        · exact .inl ⟨hF.addr hf _ _, rfl, rfl⟩
        · refine .inr ⟨fun hx => hsome ?_, hold⟩
          rw [← hx, hold]
          rfl
      · rintro (⟨hx, htype, hid⟩ | ⟨-, hold⟩)
        · refine .inl ?_
          obtain ⟨hport, haddr⟩ := ForwarderAddrSession.addr_inj.mp (hx.trans (hF.addr hf nodeType nodeID).symm)
          obtain ⟨t, i, p, a⟩ := x
          simp_all
        · exact .inr hold
    · by_cases hgf : g = f
      · rw [hgf]
        exact hf
      · simp only [Function.update_of_ne hgf] at hg
        exact h.forwarders_in g hg
    · simp only [Relay.ofScheduler]
      rw [sent_all h.clients_nodup]
      by_cases hc : c ∈ R.clients
      · rw [if_pos ((h.clients c).mpr hc), if_pos hc]
        refine List.rel_append (h.inbox c) (.cons (fun g => ?_) .nil)
        simp only [SchedMsg.addrs, hF.addr hf, List.mem_singleton, Set.mem_singleton_iff]
      · rw [if_neg fun hmem => hc ((h.clients c).mp hmem), if_neg hc, List.append_nil]
        exact h.inbox c
    · simp only at hM
      by_cases hc : c ∈ R.clients
      · rw [if_pos hc] at hM
        rcases List.mem_append.mp hM with hM | hM
        · exact h.inbox_in c M hM
        · rw [List.mem_singleton.mp hM]
          exact Set.singleton_subset_iff.mpr hf
      · rw [if_neg hc] at hM
        exact h.inbox_in c M hM

theorem Tracks.client (h : Tracks cfg F R s) (hF : Narrow F) (c : UInt32) (req : RegMqClientAddrReq) :
    Tracks cfg F (R.step (.regMqClientAddrReq c req : RelayEvent α))
      (s.ofScheduler (s.scheduler.onRegMqClientAddrReq c req)) := by
  simp only [Roster.step]
  by_cases hc : c ∈ s.scheduler.setMqClientHandlerID
  · unfold Scheduler.onRegMqClientAddrReq
    rw [if_pos hc, if_pos ((h.clients c).mp hc)]
    simp only [Relay.ofScheduler, List.filterMap_nil, List.append_nil]
    exact h
  · obtain ⟨hset, haddrs, houts⟩ := Scheduler.onRegMqClientAddrReq_new hc req
    rw [if_neg fun hmem => hc ((h.clients c).mpr hmem)]
    refine ⟨fun x => ?_, h.forwarders_in, fun x => ?_, ?_, fun x => ?_, ?_, h.kept, h.holds, h.known_in⟩
    · simp only [Relay.ofScheduler, haddrs]
      exact h.forwarders x
    · simp only [Relay.ofScheduler, hset, List.mem_orderedInsert, Set.mem_insert_iff, h.clients x]
    · simp only [Relay.ofScheduler, hset]
      exact (List.perm_orderedInsert (· ≤ ·) c _).nodup_iff.mpr (List.nodup_cons.mpr ⟨hc, h.clients_nodup⟩)
    · simp only [Relay.ofScheduler, houts]
      by_cases hx : x = c
      · subst hx
        rw [Function.update_self]
        refine List.rel_append (h.inbox x) ?_
        rw [List.filterMap_cons_some SchedOut.sentTo_self]
        refine .cons (fun f => ?_) .nil
        simp only [SchedMsg.addrs, List.mem_map, Set.mem_ofPred_eq]
        exact h.listed hF
      · rw [Function.update_of_ne hx, List.filterMap_cons_none (by simp [SchedOut.sentTo, Ne.symm hx]), List.filterMap_nil,
          List.append_nil]
        exact h.inbox x
    · refine forall_update (P := fun l => ∀ M ∈ l, M ⊆ F) h.inbox_in fun M hM => ?_
      rcases List.mem_append.mp hM with hM | hM
      · exact h.inbox_in c M hM
      · rw [List.mem_singleton.mp hM]
        exact h.forwarders_in

theorem Tracks.disConnected (h : Tracks cfg F R s) (nodeType nodeID : Int16) :
    Tracks cfg F (R.step (.disConnected nodeType nodeID : RelayEvent α))
      (s.ofScheduler (s.scheduler.onDisConnected nodeType nodeID)) := by
  unfold Scheduler.onDisConnected
  simp only [Relay.ofScheduler, List.filterMap_nil, List.append_nil, Roster.step]
  refine ⟨fun x => ?_, fun f hf => ?_, h.clients, h.clients_nodup, h.inbox, h.inbox_in, h.kept, h.holds, h.known_in⟩
  · simp only [List.mem_filter, h.forwarders x]
    by_cases hnode : R.node x.addr = some (nodeType, nodeID)
    · rw [if_pos hnode, hnode]
      refine ⟨fun hx => ?_, nofun⟩
      obtain ⟨hsame, hother⟩ := hx
      obtain ⟨htype, hid⟩ := Prod.mk.inj (Option.some.inj hsame)
      exact absurd ⟨htype.symm, hid.symm⟩ (of_decide_eq_true hother)
    · rw [if_neg hnode]
      refine ⟨And.left, fun hx => ⟨hx, decide_eq_true ?_⟩⟩
      rintro ⟨rfl, rfl⟩
      exact hnode hx
  · by_cases hnode : R.node f = some (nodeType, nodeID)
    · simp only [if_pos hnode] at hf
      cases hf
    · simp only [if_neg hnode] at hf
      exact h.forwarders_in f hf

theorem Tracks.clientLost (h : Tracks cfg F R s) (c : UInt32) : Tracks cfg F (R.step (.clientLost c : RelayEvent α))
    { s with scheduler := (s.scheduler.onNetworkError c).1, inbox := update s.inbox c [] } := by
  unfold Scheduler.onNetworkError
  simp only [Roster.step]
  refine ⟨h.forwarders, h.forwarders_in, fun x => ?_, h.clients_nodup.erase c, forall_update₂ h.inbox .nil, ?_, h.kept,
    h.holds, h.known_in⟩
  · rw [h.clients_nodup.mem_erase_iff, h.clients x, and_comm]
    rfl
  · exact forall_update (P := fun l => ∀ M ∈ l, M ⊆ F) h.inbox_in fun M hM => absurd hM List.not_mem_nil

/-! ## The clients -/

/-- Every connection that a step asks for is to the key of a forwarder that the client knows after it. -/
def Sought (cfg : AgentConfig α) (R : Roster) (outs : List (UInt32 × AgentOut α)) : Prop :=
  ∀ c a, (c, .doConnect a) ∈ outs → ∃ f ∈ R.known c, a = Agent.key cfg f

variable [DecidableEq α] {e : AgentEvent α}

theorem Tracks.agentStep (h : Tracks cfg F R s) (hK : K ⊆ F) (hst : s.agentStep cfg c e = .ok (s', outs))
    (hagent : ∀ a outs, (s.agents c).step cfg e = .ok (a, outs) →
      Agent.Holds cfg a K ∧ ∀ x ∈ outs.filterMap Agent.connectsTo, ∃ f ∈ K, x = Agent.key cfg f) :
    Tracks cfg F { R with known := update R.known c K } s' ∧
      Sought cfg { R with known := update R.known c K } outs := by
  unfold Relay.agentStep at hst
  obtain ⟨⟨a, outs'⟩, hstep, hst⟩ := Except.bind_eq_ok.mp hst
  obtain ⟨rfl, rfl⟩ := Prod.mk.inj (Except.ok.inj hst)
  obtain ⟨hholds, hsought⟩ := hagent a outs' hstep
  have hkept : a.Kept := ((h.kept c).step hstep).1
  refine ⟨⟨h.forwarders, h.forwarders_in, h.clients, h.clients_nodup, h.inbox, h.inbox_in,
    forall_update (P := Agent.Kept) h.kept hkept, forall_update₂ (P := Agent.Holds cfg) h.holds hholds,
    forall_update (P := fun K => K ⊆ F) h.known_in hK⟩, fun x b hb => ?_⟩
  · obtain ⟨o, ho, heq⟩ := List.mem_map.mp hb
    obtain ⟨rfl, rfl⟩ := Prod.mk.inj heq
    simp only [Function.update_self]
    exact hsought b (List.mem_filterMap.mpr ⟨_, ho, rfl⟩)

theorem Tracks.sameBook (h : Tracks cfg F R s) (hst : s.agentStep cfg c e = .ok (s', outs))
    (hbook : ∀ a outs, (s.agents c).step cfg e = .ok (a, outs) → Agent.SameBook (s.agents c) a outs) :
    Tracks cfg F R s' ∧ Sought cfg R outs := by
  have hstep := h.agentStep (h.known_in c) hst fun a outs' ha =>
    ⟨(h.holds c).congr (hbook a outs' ha).stored, fun x hx => by
      rw [(hbook a outs' ha).2.2] at hx
      exact absurd hx List.not_mem_nil⟩
  rw [Function.update_eq_self] at hstep
  exact hstep

theorem Agent.Holds.receive {a a' : Agent α} {m : SchedMsg} {M : Set MqForwarderAddr} {outs : List (AgentOut α)}
    (hh : a.Holds cfg K) (hkept : a.Kept) (hF : Set.InjOn (Agent.key cfg) F) (hK : K ⊆ F) (hM : M ⊆ F)
    (hm : ∀ f, f ∈ m.addrs ↔ f ∈ M) (hst : a.step cfg m.event = .ok (a', outs)) :
    a'.Holds cfg (K ∪ M) ∧ ∀ x ∈ outs.filterMap Agent.connectsTo, ∃ f ∈ K ∪ M, x = Agent.key cfg f := by
  have hset : {f | f ∈ m.addrs} = M := Set.ext hm
  rw [← hset]
  cases m with
  | regMqClientAddrRsp rsp =>
    obtain ⟨rfl, rfl⟩ := Prod.mk.inj (Except.ok.inj hst)
    obtain ⟨hholds, hsought⟩ := hh.response hF hkept hK fun f hf => hM ((hm f).mp hf)
    refine ⟨hholds, fun x hx => ?_⟩
    obtain ⟨f, hf, hkey⟩ := hsought x hx
    exact ⟨f, .inr hf, hkey⟩
  | addFowrarderAddrNotify notify =>
    obtain ⟨rfl, rfl⟩ := Prod.mk.inj (Except.ok.inj hst)
    have hmem : notify.mqForwarderAddr ∈ F := hM ((hm _).mp (List.mem_singleton.mpr rfl))
    obtain ⟨hholds, hsought⟩ := hh.add hkept hF hK hmem
    have hone : K ∪ {f | f ∈ (SchedMsg.addFowrarderAddrNotify notify).addrs} = insert notify.mqForwarderAddr K := by
      ext f
      simp [SchedMsg.addrs, or_comm]
    rw [hone]
    exact ⟨hholds, fun x hx => ⟨_, Set.mem_insert _ K, hsought x hx⟩⟩

theorem Tracks.exit (h : Tracks cfg F R s) (hF : Set.InjOn (Agent.key cfg) F) (hf : f ∈ F) {reports : Bool}
    (hst : s.agentStep cfg c (.delFowrarderAddrNotify ⟨f⟩ reports) = .ok (s', outs)) :
    Tracks cfg F (R.step (.exit f c reports : RelayEvent α)) s' ∧
      Sought cfg (R.step (.exit f c reports : RelayEvent α)) outs := by
  have hsub : R.known c \ {f} ⊆ F := fun g hg => h.known_in c hg.1
  refine h.agentStep hsub hst fun a outs' ha => ⟨(h.holds c).del (h.kept c) hF (h.known_in c) hf ha, fun x hx => ?_⟩
  rw [((h.kept c).stored_del ha).2] at hx
  exact absurd hx List.not_mem_nil

omit [DecidableEq α] in
theorem Tracks.taken (h : Tracks cfg F R s) {m : SchedMsg} {l : List SchedMsg} {M : Set MqForwarderAddr}
    {L : List (Set MqForwarderAddr)} (hin : s.inbox c = m :: l) (hR : R.inbox c = M :: L) :
    (∀ f, f ∈ m.addrs ↔ f ∈ M) ∧ M ⊆ F ∧
      Tracks cfg F { R with inbox := update R.inbox c L } { s with inbox := update s.inbox c l } := by
  have hboth := h.inbox c
  rw [hin, hR] at hboth
  obtain ⟨hm, hrest⟩ := List.forall₂_cons.mp hboth
  refine ⟨hm, h.inbox_in c M (hR ▸ List.mem_cons_self), h.forwarders, h.forwarders_in, h.clients, h.clients_nodup,
    forall_update₂ h.inbox hrest, ?_, h.kept, h.holds, h.known_in⟩
  refine forall_update (P := fun l => ∀ M ∈ l, M ⊆ F) h.inbox_in fun N hN => ?_
  exact h.inbox_in c N (hR ▸ List.mem_cons_of_mem M hN)

theorem Tracks.receive (h : Tracks cfg F R s) (hF : Set.InjOn (Agent.key cfg) F)
    (hst : s.step cfg (.receive c) = .ok (s', outs)) :
    Tracks cfg F (R.step (.receive c : RelayEvent α)) s' ∧ Sought cfg (R.step (.receive c : RelayEvent α)) outs := by
  simp only [Relay.step] at hst
  cases hin : s.inbox c with
  | nil =>
    simp only [hin] at hst
    cases hst
  | cons m l =>
    simp only [hin] at hst
    cases hR : R.inbox c with
    | nil =>
      have hboth := h.inbox c
      rw [hin, hR] at hboth
      cases hboth
    | cons M L =>
      obtain ⟨hm, hM, htaken⟩ := h.taken hin hR
      have hK : R.known c ∪ M ⊆ F := Set.union_subset (h.known_in c) hM
      have hstep := htaken.agentStep hK hst fun a outs' ha =>
        (h.holds c).receive (h.kept c) hF (h.known_in c) hM hm ha
      simp only [Roster.step, hR]
      exact hstep

theorem Tracks.connected (h : Tracks cfg F R s) {hd : ClientHandler α} {fails : Bool}
    (hst : s.step cfg (.connectedNodify c hd fails) = .ok (s', outs)) : Tracks cfg F R s' ∧ Sought cfg R outs := by
  simp only [Relay.step] at hst
  by_cases hknown : (s.agents c).Known cfg hd
  · rw [if_pos hknown] at hst
    refine h.sameBook hst fun a outs' ha => ?_
    by_cases hmem : hd ∈ (s.agents c).connections
    · simp only [Agent.step, if_pos hmem] at ha
      cases ha
    · simp only [Agent.step, if_neg hmem] at ha
      exact Agent.onConnectedNodify_book (s := { s.agents c with connections := hd :: (s.agents c).connections })
        hknown ha
  · rw [if_neg hknown] at hst
    cases hst

theorem Tracks.netError (h : Tracks cfg F R s) {hd : ClientHandler α}
    (hst : s.step cfg (.networkError c hd) = .ok (s', outs)) : Tracks cfg F R s' ∧ Sought cfg R outs := by
  refine h.sameBook hst fun a outs' ha => ?_
  by_cases hmem : hd ∈ (s.agents c).connections
  · simp only [Agent.step, if_pos hmem] at ha
    exact Agent.onNetworkError_book ha
  · simp only [Agent.step, if_neg hmem] at ha
    cases ha

/-! ## Runs of the system -/

/-- The forwarders of the events are those of a set. -/
def RelayEvent.Of (F : Set MqForwarderAddr) : RelayEvent α → Prop
  | .registMqForwarderServiceReq f _ _ => f ∈ F
  | .exit f _ _ => f ∈ F
  | _ => True

theorem Tracks.step {ev : RelayEvent α} (h : Tracks cfg F R s) (hF : Set.InjOn (Agent.key cfg) F) (hnarrow : Narrow F)
    (hev : ev.Of F) (hst : s.step cfg ev = .ok (s', outs)) :
    Tracks cfg F (R.step ev) s' ∧ Sought cfg (R.step ev) outs := by
  have hquiet : ∀ {R : Roster}, Sought cfg R ([] : List (UInt32 × AgentOut α)) :=
    fun c a ha => absurd ha List.not_mem_nil
  cases ev with
  | registMqForwarderServiceReq f nodeType nodeID =>
    obtain ⟨rfl, rfl⟩ := Prod.mk.inj (Except.ok.inj hst)
    exact ⟨h.regist hnarrow hev, hquiet⟩
  | regMqClientAddrReq c req =>
    obtain ⟨rfl, rfl⟩ := Prod.mk.inj (Except.ok.inj hst)
    exact ⟨h.client hnarrow c req, hquiet⟩
  | disConnected nodeType nodeID =>
    obtain ⟨rfl, rfl⟩ := Prod.mk.inj (Except.ok.inj hst)
    exact ⟨h.disConnected nodeType nodeID, hquiet⟩
  | clientLost c =>
    obtain ⟨rfl, rfl⟩ := Prod.mk.inj (Except.ok.inj hst)
    exact ⟨h.clientLost c, hquiet⟩
  | receive c => exact h.receive hF hst
  | exit f c reports => exact h.exit hF hev hst
  | connectedNodify c hd fails => exact h.connected hst
  | networkError c hd => exact h.netError hst

omit [DecidableEq α] in
theorem tracks_start (cfg : AgentConfig α) (F : Set MqForwarderAddr) : Tracks cfg F {} ({} : Relay α) := by
  refine ⟨fun x => ⟨fun hx => absurd hx List.not_mem_nil, nofun⟩, nofun,
    fun c => ⟨fun hc => absurd hc List.not_mem_nil, nofun⟩, List.nodup_nil, fun c => .nil,
    fun c M hM => absurd hM List.not_mem_nil, fun c => Agent.kept_start ⟨0, []⟩, fun c a e => ?_, fun c => Set.empty_subset F⟩
  constructor
  · nofun
  · rintro ⟨f, hf, -⟩
    cases hf

variable {tr : RelayHistory α}

theorem run_tracks (hF : Set.InjOn (Agent.key cfg) F) (hnarrow : Narrow F)
    (hr : Run (Relay.step cfg) {} (fun _ _ ev => ev.Of F) tr s) : Tracks cfg F (roster tr) s ∧
      ∀ tr₁ en tr₂, tr = tr₁ ++ en :: tr₂ → Sought cfg (roster (tr₁ ++ [en])) en.outs := by
  refine hr.invariant (fun tr s => Tracks cfg F (roster tr) s ∧
    ∀ tr₁ en tr₂, tr = tr₁ ++ en :: tr₂ → Sought cfg (roster (tr₁ ++ [en])) en.outs) ?_ ?_
  · exact ⟨tracks_start cfg F, fun tr₁ en tr₂ hsplit => by simp at hsplit⟩
  · intro tr s ev s' outs _ ⟨htracks, hsought⟩ hev hst
    obtain ⟨hnext, hlast⟩ := htracks.step hF hnarrow hev hst
    refine ⟨?_, snoc_split (R := fun tr₁ en => Sought cfg (roster (tr₁ ++ [en])) en.outs) |>.mpr ⟨hsought, ?_⟩⟩
    · rw [roster_snoc]
      exact hnext
    · rw [roster_snoc]
      exact hlast

/-- Each client has stored the forwarders that it knows, under their own addresses and each apart
from the others, and has connected to no other address. -/
structure Faithful (cfg : AgentConfig α) (tr : RelayHistory α) (s : Relay α) : Prop where
  own : ∀ c, ∀ f ∈ (roster tr).known c, ∃ port : Int16,
    (s.agents c).stored (Agent.key cfg f) = some (port, f.strIpAddr) ∧ port.toInt32 = f.port
  only : ∀ c a, ((s.agents c).stored a).isSome → ∃ f ∈ (roster tr).known c, a = Agent.key cfg f
  apart : ∀ c, ∀ f ∈ (roster tr).known c, ∀ g ∈ (roster tr).known c,
    (s.agents c).mapForwarderSession (Agent.key cfg f) = (s.agents c).mapForwarderSession (Agent.key cfg g) → f = g
  connects : ∀ tr₁ en tr₂, tr = tr₁ ++ en :: tr₂ → Sought cfg (roster (tr₁ ++ [en])) en.outs

omit [DecidableEq α] in
theorem Tracks.faithful (h : Tracks cfg F (roster tr) s) (hF : Set.InjOn (Agent.key cfg) F) (hnarrow : Narrow F)
    (hsought : ∀ tr₁ en tr₂, tr = tr₁ ++ en :: tr₂ → Sought cfg (roster (tr₁ ++ [en])) en.outs) :
    Faithful cfg tr s := by
  refine ⟨fun c f hf => ?_, fun c a ha => ?_, fun c f hf g hg hsame => ?_, hsought⟩
  · exact ⟨_, (h.holds c _ _).mpr ⟨f, hf, rfl, rfl⟩, hnarrow f (h.known_in c hf)⟩
  · obtain ⟨e, he⟩ := Option.isSome_iff_exists.mp ha
    obtain ⟨f, hf, hkey, -⟩ := (h.holds c a e).mp he
    exact ⟨f, hf, hkey.symm⟩
  · have hstored := ((h.holds c).mem_iff hF (h.known_in c) (h.known_in c hf)).mpr hf
    rw [(h.kept c).stored_isSome] at hstored
    obtain ⟨p, hp⟩ := Option.isSome_iff_exists.mp hstored
    exact hF (h.known_in c hf) (h.known_in c hg) ((h.kept c).inj hp (hsame.symm.trans hp))

theorem narrow_of_le (hports : ∀ f ∈ F, 0 ≤ f.port ∧ f.port ≤ 65535) (hle : ∀ f ∈ F, f.port ≤ 32767) : Narrow F := by
  intro f hf
  have hlow : (0 : Int32).toInt ≤ f.port.toInt := Int32.le_iff_toInt_le.mp (hports f hf).1
  have hhigh : f.port.toInt ≤ (32767 : Int32).toInt := Int32.le_iff_toInt_le.mp (hle f hf)
  have hlow' : 0 ≤ f.port.toInt := hlow
  have hhigh' : f.port.toInt ≤ 32767 := hhigh
  rw [← Int32.toInt_inj, Int16.toInt_toInt32, Int32.toInt_toInt16]
  exact Int.bmod_eq_of_le (by omega) (by omega)

theorem toInt32_le (x : Int16) : x.toInt32 ≤ 32767 := by
  rw [Int32.le_iff_toInt_le, Int16.toInt_toInt32]
  exact x.toInt_le

/-- The forwarder registers, and then a client does, which is told of it. -/
theorem meeting_known (cfg : AgentConfig α) (hf : f ∈ F) : ∃ tr s,
    Run (Relay.step cfg) {} (fun _ _ ev => ev.Of F) tr s ∧ f ∈ (roster tr).known 4 := by
  have hregist : (RelayEvent.registMqForwarderServiceReq f 1 1 : RelayEvent α).Of F := hf
  have hclient : (RelayEvent.regMqClientAddrReq 4 ⟨0⟩ : RelayEvent α).Of F := trivial
  have hreceive : (RelayEvent.receive 4 : RelayEvent α).Of F := trivial
  have h₀ : Run (Relay.step cfg) {} (fun _ _ ev => ev.Of F) [] {} := .nil
  have h₁ := h₀.snoc hregist rfl
  have h₂ := h₁.snoc hclient rfl
  have h₃ := h₂.snoc hreceive rfl
  refine ⟨_, _, h₃, ?_⟩
  simp [roster, Roster.step]

/-- Whichever forwarders there are, the clients store and use their own addresses in every run
exactly when each port fits 16 bits with a sign. -/
theorem faithful_iff (hF : Set.InjOn (Agent.key cfg) F) (hports : ∀ f ∈ F, 0 ≤ f.port ∧ f.port ≤ 65535) :
    (∀ tr s, Run (Relay.step cfg) {} (fun _ _ ev => ev.Of F) tr s → Faithful cfg tr s) ↔ ∀ f ∈ F, f.port ≤ 32767 := by
  constructor
  · intro hall f hf
    obtain ⟨tr, s, hr, hknown⟩ := meeting_known cfg hf
    obtain ⟨port, -, hport⟩ := (hall tr s hr).own 4 f hknown
    rw [← hport]
    exact toInt32_le port
  · intro hle tr s hr
    have hnarrow := narrow_of_le hports hle
    obtain ⟨htracks, hsought⟩ := run_tracks hF hnarrow hr
    exact htracks.faithful hF hnarrow hsought

end

/-! ## Two forwarders, and a port that is too large -/

def twoForwarders : Set MqForwarderAddr := {⟨9001, [49]⟩, ⟨9002, [49]⟩}

theorem faithful_two : (∀ tr s, Run (Relay.step Agent.sockAddr) {} (fun _ _ ev => ev.Of twoForwarders) tr s →
    Faithful Agent.sockAddr tr s) ↔ ∀ f ∈ twoForwarders, f.port ≤ 32767 := by
  have hkeys : Set.InjOn (Agent.key Agent.sockAddr) twoForwarders := by
    rintro f (rfl | rfl) g (rfl | rfl) hkey
    · rfl
    · exact absurd hkey (by decide)
    · exact absurd hkey (by decide)
    · rfl
  have hports : ∀ f ∈ twoForwarders, 0 ≤ f.port ∧ f.port ≤ 65535 := by
    rintro f (rfl | rfl)
    · decide
    · decide
  exact faithful_iff hkeys hports

theorem port_too_large : ¬∀ F : Set MqForwarderAddr, Set.InjOn (Agent.key Agent.sockAddr) F →
    (∀ f ∈ F, 0 ≤ f.port ∧ f.port ≤ 65535) →
    ∀ tr s, Run (Relay.step Agent.sockAddr) {} (fun _ _ ev => ev.Of F) tr s → Faithful Agent.sockAddr tr s := by
  intro hall
  have hports : ∀ f ∈ ({⟨40000, [49]⟩} : Set MqForwarderAddr), 0 ≤ f.port ∧ f.port ≤ 65535 := by
    rintro f rfl
    decide
  obtain ⟨tr, s, hr, hknown⟩ := meeting_known Agent.sockAddr (Set.mem_singleton (⟨40000, [49]⟩ : MqForwarderAddr))
  obtain ⟨port, -, hport⟩ := (hall _ (Set.injOn_singleton _ _) hports tr s hr).own 4 _ hknown
  have hle := toInt32_le port
  rw [hport] at hle
  revert hle
  decide

end VProtocol.Mq
