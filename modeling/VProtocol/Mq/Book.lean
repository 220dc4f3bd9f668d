import Mathlib.Data.Set.Insert
import VProtocol.Mq.Ready

/-!
# The address book of the agent

The map of the agent and its sessions are a partial map from keys to the port and the address
that a session stores. An addition makes an entry where there is none, a deletion takes one
away, and connections and losses leave all of them. Where different addresses have different
keys, the book is a set of addresses.
-/

namespace VProtocol.Mq.Agent

open Function (update)

section
variable {α : Type}

def places (s : Agent α) (p : Ptr) : Option (Int16 × Blob) := (s.sessions p).map fun S => (S.port, S.strAddr)

def stored (s : Agent α) (a : α) : Option (Int16 × Blob) := (s.mapForwarderSession a).bind s.places

/-- Where a client connects to by an output. -/
def connectsTo : AgentOut α → Option α
  | .doConnect a => some a
  | _ => none

/-- The map and what the sessions store are as before, and nothing is connected to. -/
def SameBook (s s' : Agent α) (outs : List (AgentOut α)) : Prop :=
  s'.mapForwarderSession = s.mapForwarderSession ∧ s'.places = s.places ∧ outs.filterMap connectsTo = []

variable {s s' s'' : Agent α} {outs outs' : List (AgentOut α)} {h : ClientHandler α} {p : Ptr} {S S' : AddrSession α}

theorem SameBook.refl (s : Agent α) : SameBook s s [] := ⟨rfl, rfl, rfl⟩

theorem SameBook.trans (h : SameBook s s' outs) (h' : SameBook s' s'' outs') : SameBook s s'' (outs ++ outs') := by
  obtain ⟨hmap, hplaces, houts⟩ := h
  obtain ⟨hmap', hplaces', houts'⟩ := h'
  refine ⟨hmap'.trans hmap, hplaces'.trans hplaces, ?_⟩
  rw [List.filterMap_append, houts, houts']
  rfl

theorem SameBook.cons {o : AgentOut α} (h : SameBook s s' outs) (ho : connectsTo o = none) :
    SameBook s s' (o :: outs) := by
  refine ⟨h.1, h.2.1, ?_⟩
  rw [List.filterMap_cons_none ho]
  exact h.2.2

theorem SameBook.stored (h : SameBook s s' outs) : s'.stored = s.stored := by
  obtain ⟨hmap, hplaces, -⟩ := h
  unfold Agent.stored
  rw [hmap, hplaces]

theorem onAbnormalIf_quiet (b : Bool) : (onAbnormalIf b : List (AgentOut α)).filterMap connectsTo = [] := by
  cases b with
  | false => rfl
  | true => rfl

theorem places_update {sessions : Ptr → Option (AddrSession α)} (hS : sessions p = some S) (hport : S'.port = S.port)
    (haddr : S'.strAddr = S.strAddr) :
    (fun q => (update sessions p (some S') q).map fun S => (S.port, S.strAddr)) =
      fun q => (sessions q).map fun S => (S.port, S.strAddr) := by
  funext q
  by_cases hqp : q = p
  · subst hqp
    rw [Function.update_self, hS]
    simp [hport, haddr]
  · rw [Function.update_of_ne hqp]

/-! ## Connections and losses -/

theorem onNetworkError_book [DecidableEq α] (hst : s.onNetworkError h = .ok (s', outs)) : SameBook s s' outs := by
  unfold Agent.onNetworkError at hst
  cases hp : s.mapForwarderSession h.remoteAddr with
  | none =>
    simp only [hp] at hst
    obtain ⟨rfl, rfl⟩ := Prod.mk.inj (Except.ok.inj hst)
    exact ⟨rfl, rfl, rfl⟩
  | some p =>
    cases hS : s.sessions p with
    | none =>
      simp only [hp, hS] at hst
      cases hst
    | some S =>
      simp only [hp, hS] at hst
      obtain ⟨r, -, hst⟩ := Except.bind_eq_ok.mp hst
      obtain ⟨rfl, rfl⟩ := Prod.mk.inj (Except.ok.inj hst)
      exact ⟨rfl, places_update hS rfl rfl, onAbnormalIf_quiet _⟩

theorem reportIf_book [DecidableEq α] {b : Bool} (hst : s.reportIf b h = .ok (s', outs)) : SameBook s s' outs := by
  cases b with
  | true => exact onNetworkError_book hst
  | false =>
    obtain ⟨rfl, rfl⟩ := Prod.mk.inj (Except.ok.inj hst)
    exact .refl s

theorem closeSession_book [DecidableEq α] {b : Bool} (hst : s.closeSession S b = .ok (s', outs)) :
    SameBook s s' outs := by
  unfold closeSession at hst
  cases hh : S.mcpHandler with
  | some h =>
    simp only [hh] at hst
    obtain ⟨⟨s₁, outs₁⟩, hreport, hst⟩ := Except.bind_eq_ok.mp hst
    obtain ⟨rfl, rfl⟩ := Prod.mk.inj (Except.ok.inj hst)
    exact (reportIf_book hreport).cons rfl
  | none =>
    simp only [hh] at hst
    obtain ⟨rfl, rfl⟩ := Prod.mk.inj (Except.ok.inj hst)
    refine ⟨rfl, rfl, ?_⟩
    by_cases hid : S.handleID ≠ 0
    · rw [if_pos hid]
      rfl
    · rw [if_neg hid]
      rfl

variable [DecidableEq α] {cfg : AgentConfig α}

/-- A connection is to the scheduler, or to an address of the map. -/
def Known (cfg : AgentConfig α) (s : Agent α) (h : ClientHandler α) : Prop :=
  isScheduler cfg h.remoteAddr ∨ (s.mapForwarderSession h.remoteAddr).isSome

instance (cfg : AgentConfig α) (s : Agent α) (h : ClientHandler α) : Decidable (s.Known cfg h) := instDecidableOr

theorem onConnectedNodify_book {fails : Bool} (hknown : s.Known cfg h)
    (hst : onConnectedNodify cfg h fails s = .ok (s', outs)) : SameBook s s' outs := by
  by_cases hsched : isScheduler cfg h.remoteAddr
  · unfold onConnectedNodify at hst
    rw [if_pos hsched] at hst
    obtain ⟨⟨s₁, outs₁⟩, hreport, hst⟩ := Except.bind_eq_ok.mp hst
    obtain ⟨rfl, rfl⟩ := Prod.mk.inj (Except.ok.inj hst)
    exact (reportIf_book hreport).cons rfl
  · rw [onConnectedNodify_forwarder hsched] at hst
    obtain ⟨⟨s₁, p⟩, hopen, hst⟩ := Except.bind_eq_ok.mp hst
    obtain ⟨⟨s₂, outs₂⟩, hreport, hst⟩ := Except.bind_eq_ok.mp hst
    obtain ⟨rfl, rfl⟩ := Prod.mk.inj (Except.ok.inj hst)
    obtain ⟨q, hq⟩ := Option.isSome_iff_exists.mp (hknown.resolve_left hsched)
    have hopened : SameBook s (s₁.inserted p) [.regMqTopicReq h (s₁.inserted p).regMqTopicReq] := by
      unfold Agent.openSession at hopen
      cases hS : s.sessions q with
      | none =>
        simp only [hq, hS] at hopen
        cases hopen
      | some S =>
        simp only [hq, hS] at hopen
        obtain ⟨rfl, rfl⟩ := Prod.mk.inj (Except.ok.inj hopen)
        exact ⟨rfl, places_update hS rfl rfl, rfl⟩
    have hready : SameBook s₂ s₂ (if s₂.handlerSessionArray.size = 1 then [.onReady] else []) := by
      refine ⟨rfl, rfl, ?_⟩
      by_cases hone : s₂.handlerSessionArray.size = 1
      · rw [if_pos hone]
        rfl
      · rw [if_neg hone]
        rfl
    exact (hopened.trans (reportIf_book hreport)).trans hready

/-! ## Additions and deletions -/

omit [DecidableEq α] in
theorem Kept.stored_isSome (hs : s.Kept) (a : α) : (s.stored a).isSome = (s.mapForwarderSession a).isSome := by
  unfold stored places
  cases hp : s.mapForwarderSession a with
  | none => rfl
  | some p =>
    obtain ⟨S, hS, -⟩ := hs.session a p hp
    rw [Option.bind_some, hS]
    rfl

variable (cfg) in
theorem Kept.stored_add (hs : s.Kept) (addr : MqForwarderAddr) :
    ((s.addMqForwarderAddr cfg addr).1.stored = if (s.stored (cfg.ipAddr addr.port addr.strIpAddr)).isSome then s.stored
      else update s.stored (cfg.ipAddr addr.port addr.strIpAddr) (some (addr.port.toInt16, addr.strIpAddr))) ∧
    (s.addMqForwarderAddr cfg addr).2.filterMap connectsTo =
      if (s.stored (cfg.ipAddr addr.port addr.strIpAddr)).isSome then [] else [cfg.ipAddr addr.port addr.strIpAddr] := by
  rw [hs.stored_isSome]
  unfold Agent.addMqForwarderAddr
  cases hx : s.mapForwarderSession (cfg.ipAddr addr.port addr.strIpAddr) with
  | some p =>
    simp only [hx]
    exact ⟨rfl, rfl⟩
  | none =>
    simp only [hx]
    refine ⟨?_, rfl⟩
    simp only [Option.isSome_none, Bool.false_eq_true, if_false]
    funext a
    unfold stored places
    by_cases ha : a = cfg.ipAddr addr.port addr.strIpAddr
    · subst ha
      simp
    · simp only [Function.update_of_ne ha]
      cases hp : s.mapForwarderSession a with
      | none => rfl
      | some p =>
        have hne : p ≠ s.next := Nat.ne_of_lt (hs.lt a p hp)
        simp only [Option.bind_some, Function.update_of_ne hne]

theorem Kept.stored_del (hs : s.Kept) {notify : DelFowrarderAddrNotify} {reports : Bool}
    (hst : s.onDelFowrarderAddrNotify cfg notify reports = .ok (s', outs)) :
    s'.stored = update s.stored (cfg.ipAddr notify.mqForwarderAddr.port notify.mqForwarderAddr.strIpAddr) none ∧
      outs.filterMap connectsTo = [] := by
  unfold Agent.onDelFowrarderAddrNotify at hst
  generalize cfg.ipAddr notify.mqForwarderAddr.port notify.mqForwarderAddr.strIpAddr = x at hst ⊢
  cases hp : s.mapForwarderSession x with
  | none =>
    simp only [hp] at hst
    obtain ⟨rfl, rfl⟩ := Prod.mk.inj (Except.ok.inj hst)
    refine ⟨(Function.update_eq_self_iff.mpr ?_).symm, rfl⟩
    unfold stored
    rw [hp]
    rfl
  | some p =>
    cases hS : s.sessions p with
    | none =>
      simp only [hp, hS] at hst
      cases hst
    | some S =>
      simp only [hp, hS] at hst
      obtain ⟨r, -, hst⟩ := Except.bind_eq_ok.mp hst
      obtain ⟨⟨s₁, outs₁⟩, hclose, hst⟩ := Except.bind_eq_ok.mp hst
      obtain ⟨rfl, rfl⟩ := Prod.mk.inj (Except.ok.inj hst)
      obtain ⟨hmap, hplaces, hquiet⟩ := closeSession_book hclose
      refine ⟨?_, hquiet⟩
      funext a
      by_cases ha : a = x
      · subst ha
        simp [stored]
      · rw [Function.update_of_ne ha]
        simp only [stored, Function.update_of_ne ha]
        rw [hmap]
        cases hq : s.mapForwarderSession a with
        | none => rfl
        | some q =>
          have hqp : q ≠ p := by
            rintro rfl
            exact ha (hs.inj hq hp)
          have hplace := congrFun hplaces q
          simp only [places] at hplace
          simp only [Option.bind_some, places, Function.update_of_ne hqp]
          exact hplace

/-! ## The book as a set of addresses -/

def key (cfg : AgentConfig α) (f : MqForwarderAddr) : α := cfg.ipAddr f.port f.strIpAddr

/-- The entries are those of the addresses of a set, each under its key. -/
def Holds (cfg : AgentConfig α) (s : Agent α) (K : Set MqForwarderAddr) : Prop :=
  ∀ a e, s.stored a = some e ↔ ∃ f ∈ K, key cfg f = a ∧ e = (f.port.toInt16, f.strIpAddr)

variable {F K : Set MqForwarderAddr} {f : MqForwarderAddr}

omit [DecidableEq α] in
theorem Holds.congr (hh : Holds cfg s K) (heq : s'.stored = s.stored) : Holds cfg s' K := by
  unfold Holds
  rw [heq]
  exact hh

omit [DecidableEq α] in
theorem Holds.mem_iff (hh : Holds cfg s K) (hF : Set.InjOn (key cfg) F) (hK : K ⊆ F) (hf : f ∈ F) :
    (s.stored (key cfg f)).isSome ↔ f ∈ K := by
  rw [Option.isSome_iff_exists]
  constructor
  · rintro ⟨e, he⟩
    obtain ⟨g, hg, hkey, -⟩ := (hh _ e).mp he
    rw [← hF (hK hg) hf hkey]
    exact hg
  · intro hfK
    exact ⟨_, (hh _ _).mpr ⟨f, hfK, rfl, rfl⟩⟩

theorem Holds.add (hh : Holds cfg s K) (hs : s.Kept) (hF : Set.InjOn (key cfg) F) (hK : K ⊆ F) (hf : f ∈ F) :
    Holds cfg (s.addMqForwarderAddr cfg f).1 (insert f K) ∧
      ∀ a ∈ (s.addMqForwarderAddr cfg f).2.filterMap connectsTo, a = key cfg f := by
  obtain ⟨hstored, houts⟩ := hs.stored_add cfg f
  have hmem := hh.mem_iff hF hK hf
  change (s.stored (cfg.ipAddr f.port f.strIpAddr)).isSome ↔ f ∈ K at hmem
  by_cases hfK : f ∈ K
  · rw [if_pos (hmem.mpr hfK)] at hstored houts
    rw [Set.insert_eq_of_mem hfK, houts]
    exact ⟨hh.congr hstored, fun a ha => absurd ha List.not_mem_nil⟩
  · rw [if_neg fun hsome => hfK (hmem.mp hsome)] at hstored houts
    rw [houts]
    refine ⟨fun a e => ?_, fun a ha => List.mem_singleton.mp ha⟩
    rw [hstored, update_eq_some]
    constructor
    · rintro (⟨rfl, rfl⟩ | ⟨-, hold⟩)
      · exact ⟨f, Set.mem_insert f K, rfl, rfl⟩
      · obtain ⟨g, hg, hrest⟩ := (hh a e).mp hold
        exact ⟨g, Set.mem_insert_of_mem f hg, hrest⟩
    · rintro ⟨g, hg, rfl, rfl⟩
      rcases Set.mem_insert_iff.mp hg with rfl | hg
      · exact .inl ⟨rfl, rfl⟩
      · refine .inr ⟨fun hkey => hfK ?_, (hh _ _).mpr ⟨g, hg, rfl, rfl⟩⟩
        rw [← hF (hK hg) hf hkey]
        exact hg

theorem Holds.addAll (hF : Set.InjOn (key cfg) F) (l : List MqForwarderAddr) (hh : Holds cfg s K) (hs : s.Kept)
    (hK : K ⊆ F) (hl : ∀ f ∈ l, f ∈ F) : Holds cfg (s.addMqForwarderAddrs cfg l).1 (K ∪ {f | f ∈ l}) ∧
      ∀ a ∈ (s.addMqForwarderAddrs cfg l).2.filterMap connectsTo, ∃ f ∈ l, a = key cfg f := by
  induction l generalizing s K with
  | nil =>
    have hnone : K ∪ {f | f ∈ ([] : List MqForwarderAddr)} = K := by simp
    rw [hnone]
    exact ⟨hh, fun a ha => absurd ha List.not_mem_nil⟩
  | cons g l ih =>
    have hg : g ∈ F := hl g List.mem_cons_self
    obtain ⟨hfirst, hconnects⟩ := hh.add hs hF hK hg
    obtain ⟨hrest, hconnects'⟩ := ih hfirst (hs.addMqForwarderAddr cfg g).1 (Set.insert_subset hg hK)
      fun f hf => hl f (List.mem_cons_of_mem g hf)
    have hall : insert g K ∪ {f | f ∈ l} = K ∪ {f | f ∈ g :: l} := by
      ext f
      simp only [Set.mem_union, Set.mem_insert_iff, Set.mem_ofPred_eq, List.mem_cons]
      tauto
    rw [hall] at hrest
    unfold Agent.addMqForwarderAddrs
    refine ⟨hrest, fun a ha => ?_⟩
    rw [List.filterMap_append] at ha
    rcases List.mem_append.mp ha with ha | ha
    · exact ⟨g, List.mem_cons_self, hconnects a ha⟩
    · obtain ⟨f, hf, hkey⟩ := hconnects' a ha
      exact ⟨f, List.mem_cons_of_mem g hf, hkey⟩

theorem Holds.response (hF : Set.InjOn (key cfg) F) {rsp : RegMqClientAddrRsp} (hh : Holds cfg s K) (hs : s.Kept)
    (hK : K ⊆ F) (hl : ∀ f ∈ rsp.lstMqForwarderAddr, f ∈ F) :
    Holds cfg (s.onRegMqClientAddrRsp cfg rsp).1 (K ∪ {f | f ∈ rsp.lstMqForwarderAddr}) ∧
      ∀ a ∈ (s.onRegMqClientAddrRsp cfg rsp).2.filterMap connectsTo, ∃ f ∈ rsp.lstMqForwarderAddr, a = key cfg f := by
  have hall := hh.addAll hF rsp.lstMqForwarderAddr hs hK hl
  unfold Agent.onRegMqClientAddrRsp
  by_cases hid : (s.addMqForwarderAddrs cfg rsp.lstMqForwarderAddr).1.regMqTopicReq.clientID = 0
  · simp only [if_pos hid]
    exact hall
  · simp only [if_neg hid]
    exact hall

theorem Holds.del (hh : Holds cfg s K) (hs : s.Kept) (hF : Set.InjOn (key cfg) F) (hK : K ⊆ F) (hf : f ∈ F)
    {reports : Bool}
    (hst : s.onDelFowrarderAddrNotify cfg ⟨f⟩ reports = .ok (s', outs)) : Holds cfg s' (K \ {f}) := by
  intro a e
  rw [(hs.stored_del hst).1, update_none_eq_some]
  constructor
  · rintro ⟨hne, hold⟩
    obtain ⟨g, hg, rfl, rfl⟩ := (hh a e).mp hold
    refine ⟨g, ⟨hg, fun hgf => hne ?_⟩, rfl, rfl⟩
    rw [Set.mem_singleton_iff.mp hgf]
    rfl
  · rintro ⟨g, ⟨hg, hgf⟩, rfl, rfl⟩
    exact ⟨fun hkey => hgf (hF (hK hg) hf hkey), (hh _ _).mpr ⟨g, hg, rfl, rfl⟩⟩

end

end VProtocol.Mq.Agent
