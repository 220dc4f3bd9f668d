import VProtocol.Mq.Tables

/-!
# Consistent routing tables

The map of topics, the two maps of sessions and the lists of items fit together, and to the
connections that are there, as long as no registration comes over a connection that a
client is registered over. The second client of a connection takes the first one's place in
`m_mapHandlerSession`, and a client that registers again closes its own connection.
-/

namespace VProtocol.Mq.Forwarder

structure Consistent (s : Forwarder Tables) : Prop where
  item : ∀ t T i, s.mapTopicSession t = some T → i ∈ T.handlerSessionArray.elems → ∃ I p S, s.items i = some I ∧
    s.client I.clientID = some p ∧ s.handler I.mcpHandler = some p ∧ I.mcpHandler ∈ s.connections ∧
    s.sessions p = some S ∧ i ∈ S.lstHandlerSessionItem
  list : ∀ p S, s.sessions p = some S → S.lstHandlerSessionItem.Nodup ∧
    ∀ i, i ∈ S.lstHandlerSessionItem ↔ ∃ t T I, s.mapTopicSession t = some T ∧ i ∈ T.handlerSessionArray.elems ∧
      s.items i = some I ∧ I.clientID = S.clientID ∧ I.mcpHandler = S.mcpHandler
  topic : ∀ t T, s.mapTopicSession t = some T → T.handlerSessionArray.elems ≠ []
  client : ∀ c p, s.client c = some p → ∃ S, s.sessions p = some S ∧ S.mcpHandler ∈ s.connections
  handler : ∀ h p, s.handler h = some p → h ∈ s.connections ∧ ∃ S, s.sessions p = some S ∧ S.mcpHandler = h

/-- Sessions without items are in both maps too. -/
def AllFound (s : Forwarder Tables) : Prop :=
  ∀ p S, s.sessions p = some S → s.client S.clientID = some p ∧ s.handler S.mcpHandler = some p ∧
    S.mcpHandler ∈ s.connections

/-- A registration is over a connection that no client is registered over. -/
def Unshared (s : Forwarder Tables) : FwdEvent → Prop
  | .regMqTopicReq h _ => ∀ p S, s.sessions p = some S → S.mcpHandler ≠ h
  | _ => True

section
variable {s s' : Forwarder Tables} {p : Ptr} {S : HandlerSession} {e : FwdEvent} {outs : List FwdOut}

theorem Linked.settled_iff (hs : s.Linked) : s.directory.Settled ↔ s.AllFound := by
  constructor
  · intro hset p S hp
    obtain ⟨hmem, howner⟩ := hset _ _ (hs.registered hp)
    obtain ⟨q, hq, hc⟩ := Option.bind_eq_some_iff.mp howner
    obtain ⟨R, hR, hRc⟩ := Option.map_eq_some_iff.mp hc
    have hclient := hs.session q R hR
    rw [hRc, hs.session p S hp] at hclient
    obtain rfl := Option.some.inj hclient
    exact ⟨hs.session p S hp, hq, hmem⟩
  · intro hall c R hR
    obtain ⟨p, S, hp, rfl, rfl⟩ := hs.registered_iff.mp hR
    obtain ⟨-, hhandler, hmem⟩ := hall p S hp
    exact ⟨hmem, directory_owner hhandler hp⟩

theorem Linked.unshared_iff (hs : s.Linked) {h : UInt32} {req : RegMqTopicReq} :
    s.Unshared (.regMqTopicReq h req) ↔ ∀ c R, s.directory.registered c = some R → R.mcpHandler ≠ h := by
  constructor
  · intro hfree c R hR
    obtain ⟨p, S, hp, -, rfl⟩ := hs.registered_iff.mp hR
    exact hfree p S hp
  · intro hfree p S hp
    exact hfree _ _ (hs.registered hp)

theorem Linked.consistent (hs : s.Linked) (hall : s.AllFound) : s.Consistent := by
  refine ⟨fun t T i hT hi => ?_, fun p S hp => ?_, fun t T hT => (hs.core.topic t T hT).2.1, fun c p hc => ?_,
    fun h p hh => ?_⟩
  · obtain ⟨I, hI, -⟩ := hs.core.member t T i hT hi
    obtain ⟨p, S, hp, hiS⟩ := hs.core.owner i I hI
    obtain ⟨J, hJ, hc, hh⟩ := (hs.core.list p S hp).2 i hiS
    obtain rfl := Option.some.inj (hI.symm.trans hJ)
    obtain ⟨hclient, hhandler, hmem⟩ := hall p S hp
    refine ⟨I, p, S, hI, ?_, ?_, ?_, hp, hiS⟩
    · rw [hc]
      exact hclient
    · rw [hh]
      exact hhandler
    · rw [hh]
      exact hmem
  · obtain ⟨hnodup, hlist⟩ := hs.core.list p S hp
    refine ⟨hnodup, fun i => ⟨fun hi => ?_, ?_⟩⟩
    · obtain ⟨I, hI, hc, hh⟩ := hlist i hi
      obtain ⟨T, hT, hiT⟩ := hs.core.item i I hI
      exact ⟨_, T, I, hT, hiT, hI, hc, hh⟩
    · rintro ⟨t, T, I, -, -, hI, hc, -⟩
      obtain ⟨q, R, hq, hiR⟩ := hs.core.owner i I hI
      obtain ⟨J, hJ, hJc, -⟩ := (hs.core.list q R hq).2 i hiR
      obtain rfl := Option.some.inj (hI.symm.trans hJ)
      have hfound := hs.session q R hq
      rw [← hJc, hc, hs.session p S hp] at hfound
      obtain rfl := Option.some.inj hfound
      obtain rfl := Option.some.inj (hp.symm.trans hq)
      exact hiR
  · obtain ⟨S, hp, -⟩ := hs.client c p hc
    exact ⟨S, hp, (hall p S hp).2.2⟩
  · obtain ⟨S, hp, hSh⟩ := hs.handler h p hh
    exact ⟨hSh ▸ (hall p S hp).2.2, S, hp, hSh⟩

theorem Linked.settled_step_iff (hs : s.Linked) (hset : s.directory.Settled) (hst : s.step tables e = .ok (s', outs)) :
    s'.directory.Settled ↔ s.Unshared e := by
  rw [(hs.step hst).2]
  cases e with
  | connected h =>
    refine ⟨fun _ => trivial, fun _ c R hR => ?_⟩
    obtain ⟨hmem, howner⟩ := hset c R hR
    exact ⟨List.mem_cons_of_mem h hmem, howner⟩
  | networkError h => exact ⟨fun _ => trivial, fun _ => hset.lose hs.owned h⟩
  | regMqTopicReq h req =>
    rw [hs.unshared_iff]
    exact hset.register_iff hs.owned (ifConnected_ok hst).1
  | pubMqTopicMsg h msg => exact ⟨fun _ => trivial, fun _ => hset⟩
  | pubMqAddrMsg h msg => exact ⟨fun _ => trivial, fun _ => hset⟩
  | pubMqBroadcastMsg h msg env => exact ⟨fun _ => trivial, fun _ => hset⟩

variable {port : Int32} {addr : Blob} {tr : List (Entry (Forwarder Tables) FwdEvent FwdOut)}

/-- The tables are consistent throughout a run, with every session in both maps, exactly when
each registration of the run is over a connection that no client is registered over. -/
theorem always_consistent_iff (hr : Run (Forwarder.step tables) (start port addr) anyStep tr s) :
    Always (fun _ s => s.Consistent ∧ s.AllFound) tr s ↔ Each (fun _ s e => s.Unshared e) tr := by
  have hstart : (start port addr).AllFound := by
    intro p S hp
    cases hp
  refine hr.always_iff ⟨(linked_start port addr).consistent hstart, hstart⟩ ?_
  intro tr s e s' outs hr _ hP _ hst
  have hs := Linked.of_run hr
  have hs' := (hs.step hst).1
  rw [← hs.settled_step_iff (hs.settled_iff.mpr hP.2) hst, hs'.settled_iff]
  exact ⟨fun hP' => hP'.2, fun hall => ⟨hs'.consistent hall, hall⟩⟩

/-! ## Clients over connections of their own, and two clients over one -/

/-- As `Unshared`, of the sessions that are there. -/
def UnsharedListed (s : Forwarder Tables) : FwdEvent → Prop
  | .regMqTopicReq h _ => ∀ S ∈ s.sessionList, S.mcpHandler ≠ h
  | _ => True

instance : DecidablePred s.UnsharedListed
  | .regMqTopicReq h _ => inferInstanceAs (Decidable (∀ S ∈ s.sessionList, S.mcpHandler ≠ h))
  | .connected _ | .networkError _ | .pubMqTopicMsg .. | .pubMqAddrMsg .. | .pubMqBroadcastMsg .. => isTrue trivial

theorem Linked.unshared (hs : s.Linked) (hlist : s.UnsharedListed e) : s.Unshared e := by
  cases e with
  | regMqTopicReq h req => exact fun p S hp => hlist S (hs.mem_sessionList hp)
  | connected h => trivial
  | networkError h => trivial
  | pubMqTopicMsg h msg => trivial
  | pubMqAddrMsg h msg => trivial
  | pubMqBroadcastMsg h msg env => trivial

/-- Client 7 registers again over a connection of its own, and client 8 is lost. -/
def ownConnections : List FwdEvent :=
  [.connected 1, .regMqTopicReq 1 ⟨7, [5]⟩, .connected 2, .regMqTopicReq 2 ⟨8, [5, 6]⟩, .connected 3,
    .regMqTopicReq 3 ⟨7, [6]⟩, .connected 4, .regMqTopicReq 4 ⟨9, [6]⟩, .networkError 2]

theorem always_consistent_two : Always (fun _ s => s.Consistent ∧ s.AllFound)
      (trace (Forwarder.step tables) (start 9000 []) ownConnections)
      (final (Forwarder.step tables) (start 9000 []) ownConnections) ∧
    (final (Forwarder.step tables) (start 9000 []) ownConnections).sessionList.map
      (fun S => (S.clientID, S.mcpHandler)) = [(7, 3), (9, 4)] := by
  have hr : Run (Forwarder.step tables) (start 9000 []) (fun _ s e => s.UnsharedListed e) _ _ :=
    run_of_meets _ _ _ ownConnections (by decide)
  refine ⟨(always_consistent_iff hr.any).mpr fun tr₁ en tr₂ heq => ?_, by decide⟩
  obtain ⟨-, hpre, hlist, -⟩ := hr.entry heq
  exact (Linked.of_run hpre).unshared hlist

def oneClient : List FwdEvent := [.connected 1, .regMqTopicReq 1 ⟨7, [5]⟩]

/-- The loss of the connection takes the second client out, and the first one stays. -/
theorem shared_inconsistent : ¬∀ (port : Int32) (addr : Blob) (tr : List (Entry (Forwarder Tables) FwdEvent FwdOut))
    (s : Forwarder Tables), Run (Forwarder.step tables) (start port addr) anyStep tr s → s.Consistent := by
  intro hall
  let evs : List FwdEvent := oneClient ++ [.regMqTopicReq 1 ⟨8, []⟩, .networkError 1]
  have h := hall 9000 [] _ _ (run_trace_any evs)
  obtain ⟨S, -, hmem⟩ := h.client 7 0 rfl
  exact List.not_mem_nil hmem

end

end VProtocol.Mq.Forwarder
