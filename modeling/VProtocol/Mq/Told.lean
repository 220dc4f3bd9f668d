import Mathlib.Data.List.Count
import Mathlib.Data.List.Nodup
import VProtocol.Mq.Scheduler

/-!
# Clients and forwarders meet once

While no forwarder disconnects, what a client has been told since it registered are the
addresses of the set, in some order: an address comes to a client with whichever of the two
registrations is the later one.
-/

namespace VProtocol.Mq

abbrev SchedHistory := List (Entry Scheduler SchedEvent SchedOut)

/-! ## What a client has been told -/

def SchedMsg.addrs : SchedMsg → List MqForwarderAddr
  | .regMqClientAddrRsp rsp => rsp.lstMqForwarderAddr
  | .addFowrarderAddrNotify notify => [notify.mqForwarderAddr]

def SchedOut.heardBy (h : UInt32) : SchedOut → List MqForwarderAddr
  | .sendHtsMsg h' m => if h' = h then m.addrs else []
  | .networkError _ => []

def SchedEvent.loses (h : UInt32) : SchedEvent → Bool
  | .networkError h' => h' = h
  | _ => false

/-- The addresses that the client of `h` has been told over its connection. -/
def told (tr : SchedHistory) (h : UInt32) : List MqForwarderAddr :=
  tr.foldl (fun l en => (if en.ev.loses h then [] else l) ++ en.outs.flatMap (SchedOut.heardBy h)) []

/-- The client has registered, and its connection has not been lost since. -/
def Standing (tr : SchedHistory) (h : UInt32) : Prop :=
  ∃ tr₁ en tr₂ req, tr = tr₁ ++ en :: tr₂ ∧ en.ev = .regMqClientAddrReq h req ∧ ∀ en' ∈ tr₂, en'.ev.loses h = false

def Announced (tr : SchedHistory) (req : RegistMqForwarderServiceReq) : Prop :=
  ∃ en ∈ tr, ∃ nodeType nodeID, en.ev = .registMqForwarderServiceReq req nodeType nodeID

def StaysConnected (_ : SchedHistory) (_ : Scheduler) (e : SchedEvent) : Prop :=
  ∀ nodeType nodeID, e ≠ .disConnected nodeType nodeID

section
variable {tr : SchedHistory} {en : Entry Scheduler SchedEvent SchedOut} {h : UInt32} {s s' : Scheduler}
  {outs : List SchedOut}

theorem told_snoc : told (tr ++ [en]) h =
    (if en.ev.loses h then [] else told tr h) ++ en.outs.flatMap (SchedOut.heardBy h) := by
  unfold told
  rw [List.foldl_append]
  rfl

theorem standing_snoc : Standing (tr ++ [en]) h ↔
    (∃ req, en.ev = .regMqClientAddrReq h req) ∨ Standing tr h ∧ en.ev.loses h = false := by
  constructor
  · rintro ⟨tr₁, en', tr₂, req, hsplit, hev, hkept⟩
    rcases List.eq_nil_or_concat tr₂ with rfl | ⟨tr₃, last, rfl⟩
    · obtain ⟨-, he⟩ := List.append_inj' hsplit rfl
      obtain rfl := List.singleton_inj.mp he
      exact .inl ⟨req, hev⟩
    · rw [List.concat_eq_append] at hsplit hkept
      rw [← List.cons_append, ← List.append_assoc] at hsplit
      obtain ⟨rfl, he⟩ := List.append_inj' hsplit rfl
      obtain rfl := List.singleton_inj.mp he
      refine .inr ⟨⟨tr₁, en', tr₃, req, rfl, hev, fun e he => hkept e (List.mem_append_left _ he)⟩, ?_⟩
      exact hkept en (List.mem_append_right _ (List.mem_singleton.mpr rfl))
  · rintro (⟨req, hev⟩ | ⟨⟨tr₁, en', tr₂, req, rfl, hev, hkept⟩, hlast⟩)
    · exact ⟨tr, en, [], req, rfl, hev, fun e he => absurd he List.not_mem_nil⟩
    · refine ⟨tr₁, en', tr₂ ++ [en], req, by simp, hev, fun e he => ?_⟩
      rcases List.mem_append.mp he with he | he
      · exact hkept e he
      · rw [List.mem_singleton.mp he]
        exact hlast

theorem announced_snoc {req : RegistMqForwarderServiceReq} : Announced (tr ++ [en]) req ↔
    Announced tr req ∨ ∃ nodeType nodeID, en.ev = .registMqForwarderServiceReq req nodeType nodeID := by
  unfold Announced
  simp only [List.mem_append, List.mem_singleton]
  constructor
  · rintro ⟨e, he | rfl, hreq⟩
    · exact .inl ⟨e, he, hreq⟩
    · exact .inr hreq
  · rintro (⟨e, he, hreq⟩ | hreq)
    · exact ⟨e, .inl he, hreq⟩
    · exact ⟨en, .inr rfl, hreq⟩

/-- The sets are what the history says, and each client has been told the addresses of the set. -/
structure InTouch (tr : SchedHistory) (s : Scheduler) : Prop where
  clients : ∀ h, h ∈ s.setMqClientHandlerID ↔ Standing tr h
  clients_nodup : s.setMqClientHandlerID.Nodup
  forwarders : ∀ req : RegistMqForwarderServiceReq,
    (∃ a ∈ s.setForwarderAddr, a.port = req.port ∧ a.strAddr = req.strAddr) ↔ Announced tr req
  forwarders_nodup : (s.setForwarderAddr.map ForwarderAddrSession.addr).Nodup
  heard : ∀ h ∈ s.setMqClientHandlerID, (told tr h).Perm (s.setForwarderAddr.map ForwarderAddrSession.addr)
  silent : ∀ h, h ∉ s.setMqClientHandlerID → told tr h = []

theorem heard_one {c : UInt32} {m : SchedMsg} : [SchedOut.sendHtsMsg c m].flatMap (SchedOut.heardBy h) =
    if c = h then m.addrs else [] := by
  simp [SchedOut.heardBy]

theorem heard_sent (outs : List SchedOut) :
    outs.flatMap (SchedOut.heardBy h) = (outs.filterMap (SchedOut.sentTo h)).flatMap SchedMsg.addrs := by
  induction outs with
  | nil => rfl
  | cons o outs ih =>
    rw [List.flatMap_cons, ih]
    cases o with
    | sendHtsMsg c m =>
      by_cases hc : c = h
      · simp [SchedOut.heardBy, SchedOut.sentTo, hc]
      · simp [SchedOut.heardBy, SchedOut.sentTo, hc]
    | networkError c =>
      have hnone : SchedOut.sentTo h (.networkError c) = none := rfl
      rw [List.filterMap_cons_none hnone]
      rfl

theorem heard_all {m : SchedMsg} {l : List UInt32} (hl : l.Nodup) :
    (l.map fun c => SchedOut.sendHtsMsg c m).flatMap (SchedOut.heardBy h) = if h ∈ l then m.addrs else [] := by
  rw [heard_sent, sent_all hl]
  by_cases hh : h ∈ l
  · simp [hh]
  · simp [hh]

theorem InTouch.forwarder (h : InTouch tr s) {req : RegistMqForwarderServiceReq} {nodeType nodeID : Int16}
    (hst : s.onRegistMqForwarderServiceReq req nodeType nodeID = (s', outs)) :
    InTouch (tr ++ [⟨s, .registMqForwarderServiceReq req nodeType nodeID, outs⟩]) s' := by
  have hreq : ∀ {req' : RegistMqForwarderServiceReq},
      (∃ t i, SchedEvent.registMqForwarderServiceReq req nodeType nodeID = .registMqForwarderServiceReq req' t i) ↔
        req = req' := by
    intro req'
    simp
  have hstand : ∀ {outs c}, Standing (tr ++ [⟨s, .registMqForwarderServiceReq req nodeType nodeID, outs⟩]) c ↔ Standing tr c := by
    intro outs c
    rw [standing_snoc]
    simp [SchedEvent.loses]
  have hkeep : ∀ {c}, (if (SchedEvent.registMqForwarderServiceReq req nodeType nodeID).loses c then [] else told tr c) =
      told tr c := fun {c} => if_neg (by simp [SchedEvent.loses])
  by_cases hfound : s.setForwarderAddr.any fun a => a.same ⟨nodeType, nodeID, req.port, req.strAddr⟩
  · obtain ⟨rfl, rfl⟩ := Prod.mk.inj ((if_pos hfound).symm.trans hst)
    obtain ⟨a, ha, hsame⟩ := List.any_eq_true.mp hfound
    obtain ⟨hport, haddr⟩ := ForwarderAddrSession.same_iff.mp (of_decide_eq_true hsame)
    refine ⟨fun c => by rw [hstand]; exact h.clients c, h.clients_nodup, fun req' => ?_, h.forwarders_nodup,
      fun c hc => ?_, fun c hc => ?_⟩
    · rw [announced_snoc, hreq, ← h.forwarders req']
      constructor
      · exact .inl
      · rintro (hold | rfl)
        · exact hold
        · exact ⟨a, ha, hport, haddr⟩
    · rw [told_snoc, hkeep, List.flatMap_nil, List.append_nil]
      exact h.heard c hc
    · rw [told_snoc, hkeep, List.flatMap_nil, List.append_nil]
      exact h.silent c hc
  · obtain ⟨rfl, rfl⟩ := Prod.mk.inj ((if_neg hfound).symm.trans hst)
    have hnot : ∀ a ∈ s.setForwarderAddr, ¬(a.port = req.port ∧ a.strAddr = req.strAddr) := by
      intro a ha hsame
      exact hfound (List.any_eq_true.mpr ⟨a, ha, decide_eq_true (ForwarderAddrSession.same_iff.mpr hsame)⟩)
    have hperm := (List.perm_orderedInsert ForwarderAddrSession.notAfter ⟨nodeType, nodeID, req.port, req.strAddr⟩
      s.setForwarderAddr).map ForwarderAddrSession.addr
    rw [List.map_cons] at hperm
    refine ⟨fun c => by rw [hstand]; exact h.clients c, h.clients_nodup, fun req' => ?_, ?_, fun c hc => ?_, fun c hc => ?_⟩
    · rw [announced_snoc, hreq, ← h.forwarders req']
      simp only [List.mem_orderedInsert]
      constructor
      · rintro ⟨a, rfl | ha, hport, haddr⟩
        · refine .inr ?_
          cases req
          cases req'
          simp_all
        · exact .inl ⟨a, ha, hport, haddr⟩
      · rintro (⟨a, ha, hsame⟩ | rfl)
        · exact ⟨a, .inr ha, hsame⟩
        · exact ⟨_, .inl rfl, rfl, rfl⟩
    · refine hperm.nodup_iff.mpr (List.nodup_cons.mpr ⟨fun hmem => ?_, h.forwarders_nodup⟩)
      obtain ⟨a, ha, he⟩ := List.mem_map.mp hmem
      exact hnot a ha (ForwarderAddrSession.addr_inj.mp he)
    · rw [told_snoc, hkeep, heard_all h.clients_nodup, if_pos hc]
      exact (List.perm_append_comm.trans ((h.heard c hc).cons _)).trans hperm.symm
    · rw [told_snoc, hkeep, heard_all h.clients_nodup, if_neg hc, List.append_nil]
      exact h.silent c hc

theorem InTouch.client (h : InTouch tr s) {c : UInt32} {req : RegMqClientAddrReq}
    (hst : s.onRegMqClientAddrReq c req = (s', outs)) : InTouch (tr ++ [⟨s, .regMqClientAddrReq c req, outs⟩]) s' := by
  have hstand : ∀ {outs x}, Standing (tr ++ [⟨s, .regMqClientAddrReq c req, outs⟩]) x ↔ x = c ∨ Standing tr x := by
    intro outs x
    rw [standing_snoc]
    simp [SchedEvent.loses, eq_comm]
  have hann : ∀ {outs req'}, Announced (tr ++ [⟨s, .regMqClientAddrReq c req, outs⟩]) req' ↔ Announced tr req' := by
    intro outs req'
    rw [announced_snoc]
    simp
  have hkeep : ∀ {x}, (if (SchedEvent.regMqClientAddrReq c req).loses x then [] else told tr x) = told tr x :=
    fun {x} => if_neg (by simp [SchedEvent.loses])
  by_cases hc : c ∈ s.setMqClientHandlerID
  · obtain ⟨rfl, rfl⟩ := Prod.mk.inj ((if_pos hc).symm.trans hst)
    refine ⟨fun x => ?_, h.clients_nodup, fun req' => by rw [hann]; exact h.forwarders req', h.forwarders_nodup,
      fun x hx => ?_, fun x hx => ?_⟩
    · rw [hstand, ← h.clients x]
      constructor
      · exact .inr
      · rintro (rfl | hx)
        · exact hc
        · exact hx
    · rw [told_snoc, hkeep, List.flatMap_nil, List.append_nil]
      exact h.heard x hx
    · rw [told_snoc, hkeep, List.flatMap_nil, List.append_nil]
      exact h.silent x hx
  · -- whichever id the client gets, it is told the addresses of the set
    obtain ⟨hset, haddrs, houts⟩ := Scheduler.onRegMqClientAddrReq_new hc req
    rw [hst] at hset haddrs houts
    simp only at hset haddrs houts
    subst houts
    refine ⟨fun x => ?_, ?_, fun req' => by rw [hann, haddrs]; exact h.forwarders req', ?_, fun x hx => ?_, fun x hx => ?_⟩
    · rw [hstand, hset, List.mem_orderedInsert, h.clients x]
    · rw [hset]
      exact (List.perm_orderedInsert (· ≤ ·) c _).nodup_iff.mpr (List.nodup_cons.mpr ⟨hc, h.clients_nodup⟩)
    · rw [haddrs]
      exact h.forwarders_nodup
    · rw [told_snoc, hkeep, heard_one, haddrs]
      by_cases hcx : c = x
      · subst hcx
        rw [if_pos rfl, h.silent c hc]
        exact List.Perm.refl _
      · rw [if_neg hcx, List.append_nil]
        rw [hset, List.mem_orderedInsert] at hx
        exact h.heard x (hx.resolve_left (Ne.symm hcx))
    · rw [hset, List.mem_orderedInsert] at hx
      rw [told_snoc, hkeep, heard_one, if_neg fun he => hx (.inl he.symm), List.append_nil]
      exact h.silent x fun hmem => hx (.inr hmem)

theorem InTouch.lost (h : InTouch tr s) (c : UInt32) :
    InTouch (tr ++ [⟨s, .networkError c, [.networkError c]⟩])
      { s with setMqClientHandlerID := s.setMqClientHandlerID.erase c } := by
  have hann : ∀ {req'}, Announced (tr ++ [⟨s, .networkError c, [.networkError c]⟩]) req' ↔ Announced tr req' := by
    intro req'
    rw [announced_snoc]
    simp
  have htold : ∀ {x}, told (tr ++ [⟨s, .networkError c, [.networkError c]⟩]) x = if c = x then [] else told tr x := by
    intro x
    rw [told_snoc]
    simp [SchedEvent.loses, SchedOut.heardBy]
  refine ⟨fun x => ?_, h.clients_nodup.erase c, fun req' => by rw [hann]; exact h.forwarders req', h.forwarders_nodup,
    fun x hx => ?_, fun x hx => ?_⟩
  · rw [h.clients_nodup.mem_erase_iff, standing_snoc, h.clients x]
    simp [SchedEvent.loses, and_comm, eq_comm]
  · obtain ⟨hne, hx⟩ := h.clients_nodup.mem_erase_iff.mp hx
    rw [htold, if_neg (Ne.symm hne)]
    exact h.heard x hx
  · rw [htold]
    by_cases hcx : c = x
    · rw [if_pos hcx]
    · rw [if_neg hcx]
      exact h.silent x fun hmem => hx (h.clients_nodup.mem_erase_iff.mpr ⟨Ne.symm hcx, hmem⟩)

theorem run_inTouch (hr : Run Scheduler.step {} StaysConnected tr s) : InTouch tr s := by
  refine hr.invariant InTouch ?_ ?_
  · have hno : ∀ h, ¬Standing [] h := by
      rintro h ⟨tr₁, en, tr₂, req, hsplit, -⟩
      simp at hsplit
    refine ⟨fun h => ⟨fun hh => absurd hh List.not_mem_nil, fun hh => absurd hh (hno h)⟩, List.nodup_nil, fun req => ?_,
      List.nodup_nil, fun h hh => absurd hh List.not_mem_nil, fun h _ => rfl⟩
    constructor
    · rintro ⟨a, ha, -⟩
      exact absurd ha List.not_mem_nil
    · rintro ⟨en, hen, -⟩
      exact absurd hen List.not_mem_nil
  · intro tr s e s' outs _ h hstay hst
    cases e with
    | registMqForwarderServiceReq req nodeType nodeID => exact h.forwarder (Except.ok.inj hst)
    | regMqClientAddrReq c req => exact h.client (Except.ok.inj hst)
    | networkError c =>
      obtain ⟨rfl, rfl⟩ := Prod.mk.inj (Except.ok.inj hst)
      exact h.lost c
    | disConnected nodeType nodeID => exact absurd rfl (hstay nodeType nodeID)

/-- While no forwarder disconnects, each client that stands has been told once of each
forwarder that has registered, in a response or a notification. -/
theorem told_once (hr : Run Scheduler.step {} StaysConnected tr s) (hh : Standing tr h)
    {req : RegistMqForwarderServiceReq}
    (hreq : Announced tr req) : (told tr h).count ⟨req.port.toInt32, req.strAddr⟩ = 1 := by
  have hin := run_inTouch hr
  obtain ⟨a, ha, hport, haddr⟩ := (hin.forwarders req).mpr hreq
  rw [(hin.heard h ((hin.clients h).mpr hh)).count_eq]
  refine List.count_eq_one_of_mem hin.forwarders_nodup (List.mem_map.mpr ⟨a, ha, ?_⟩)
  unfold ForwarderAddrSession.addr
  rw [hport, haddr]

end

/-! ## A client between two forwarders -/

def meetings : List SchedEvent :=
  [.registMqForwarderServiceReq ⟨9001, [49]⟩ 1 1, .regMqClientAddrReq 4 ⟨0⟩, .registMqForwarderServiceReq ⟨9002, [50]⟩ 1 2,
    .registMqForwarderServiceReq ⟨9001, [49]⟩ 1 1]

theorem told_once_four : (told (trace Scheduler.step {} meetings) 4).count ⟨9001, [49]⟩ = 1 := by
  have h₀ : Run Scheduler.step {} StaysConnected [] {} := .nil
  have h₁ := h₀.snoc (e := .registMqForwarderServiceReq ⟨9001, [49]⟩ 1 1) nofun rfl
  have h₂ := h₁.snoc (e := .regMqClientAddrReq 4 ⟨0⟩) nofun rfl
  have h₃ := h₂.snoc (e := .registMqForwarderServiceReq ⟨9002, [50]⟩ 1 2) nofun rfl
  have h₄ := h₃.snoc (e := .registMqForwarderServiceReq ⟨9001, [49]⟩ 1 1) nofun rfl
  have hstand : Standing (trace Scheduler.step {} meetings) 4 := by
    refine ⟨_, _, _, ⟨0⟩, (List.take_append_drop 1 _).symm, rfl, ?_⟩
    decide
  have hann : Announced (trace Scheduler.step {} meetings) ⟨9001, [49]⟩ := ⟨_, List.mem_cons_self, 1, 1, rfl⟩
  exact told_once h₄ hstand hann

end VProtocol.Mq
