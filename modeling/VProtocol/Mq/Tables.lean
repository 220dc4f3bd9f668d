import Mathlib.Data.List.AList
import VProtocol.Mq.Cleanup
import VProtocol.Mq.Directory
import VProtocol.Mq.Items

/-!
# The forwarder over ideal maps

`m_mapMqClientIDSession` and `m_mapHandlerSession` as finite maps. Every step of the
service over them is the step of its `Directory`.
-/

namespace VProtocol.Mq

open Function (update)

structure Tables where
  mapMqClientIDSession : AList fun _ : UInt32 => Ptr := ∅
  mapHandlerSession : AList fun _ : UInt32 => Ptr := ∅

def tables : IndexOps Tables where
  findClient k c := .ok (k.mapMqClientIDSession.lookup c)
  insertClient c p k := .ok { k with mapMqClientIDSession := k.mapMqClientIDSession.insert c p }
  eraseClient c k := .ok { k with mapMqClientIDSession := k.mapMqClientIDSession.erase c }
  findHandler k h := .ok (k.mapHandlerSession.lookup h)
  insertHandler h p k := .ok { k with mapHandlerSession := k.mapHandlerSession.insert h p }
  eraseHandler h k := .ok { k with mapHandlerSession := k.mapHandlerSession.erase h }
  free _ k := k
  clients k := .ok (k.mapMqClientIDSession.entries.map Sigma.snd)
  clear := {}

theorem lookup_insert_eq (m : AList fun _ : UInt32 => Ptr) (a : UInt32) (p : Ptr) :
    (m.insert a p).lookup = update m.lookup a (some p) := by
  funext b
  by_cases hb : b = a
  · subst hb
    rw [AList.lookup_insert, Function.update_self]
  · rw [AList.lookup_insert_ne hb, Function.update_of_ne hb]

theorem lookup_erase_eq (m : AList fun _ : UInt32 => Ptr) (a : UInt32) :
    (m.erase a).lookup = update m.lookup a none := by
  funext b
  by_cases hb : b = a
  · subst hb
    rw [AList.lookup_erase, Function.update_self]
  · rw [AList.lookup_erase_ne hb, Function.update_of_ne hb]

namespace Forwarder

abbrev client (s : Forwarder Tables) (c : UInt32) : Option Ptr := s.index.mapMqClientIDSession.lookup c

abbrev handler (s : Forwarder Tables) (h : UInt32) : Option Ptr := s.index.mapHandlerSession.lookup h

/-- A session is in its map under its client id, and what a map has under a handle is a
session of that handle. -/
structure Linked (s : Forwarder Tables) : Prop where
  core : s.Core
  client : ∀ c p, s.client c = some p → ∃ S, s.sessions p = some S ∧ S.clientID = c
  session : ∀ p S, s.sessions p = some S → s.client S.clientID = some p
  handler : ∀ h p, s.handler h = some p → ∃ S, s.sessions p = some S ∧ S.mcpHandler = h
  nodup : s.connections.Nodup
  durindBroadcastMsg : s.durindBroadcastMsg = false
  stackMcpHandler : s.stackMcpHandler = []

def topicsOf (s : Forwarder Tables) (S : HandlerSession) : List UInt32 :=
  S.lstHandlerSessionItem.filterMap fun i => (s.items i).map HandlerSessionItem.topicSession

def registration (s : Forwarder Tables) (S : HandlerSession) : Registration := ⟨S.mcpHandler, s.topicsOf S⟩

def directory (s : Forwarder Tables) : Directory where
  registered c := (s.client c).bind fun p => (s.sessions p).map s.registration
  owner h := (s.handler h).bind fun p => (s.sessions p).map HandlerSession.clientID
  connections := s.connections

section
variable {s s' s₁ : Forwarder Tables} {p : Ptr} {S : HandlerSession} {c h : UInt32}

theorem Linked.registered_iff (hs : s.Linked) {R : Registration} : s.directory.registered c = some R ↔
    ∃ p S, s.sessions p = some S ∧ S.clientID = c ∧ s.registration S = R := by
  unfold directory
  simp only [Option.bind_eq_some_iff, Option.map_eq_some_iff]
  constructor
  · rintro ⟨p, hp, S, hS, hR⟩
    obtain ⟨S', hS', hc⟩ := hs.client c p hp
    obtain rfl := Option.some.inj (hS.symm.trans hS')
    exact ⟨p, S, hS, hc, hR⟩
  · rintro ⟨p, S, hS, rfl, hR⟩
    exact ⟨p, hs.session p S hS, S, hS, hR⟩

theorem Linked.registered (hs : s.Linked) (hp : s.sessions p = some S) :
    s.directory.registered S.clientID = some (s.registration S) :=
  hs.registered_iff.mpr ⟨p, S, hp, rfl, rfl⟩

theorem Linked.registered_none (hs : s.Linked) : s.directory.registered c = none ↔ s.client c = none := by
  constructor
  · intro hnone
    cases hc : s.client c with
    | none => rfl
    | some p =>
      obtain ⟨S, hS, rfl⟩ := hs.client c p hc
      rw [hs.registered hS] at hnone
      cases hnone
  · intro hc
    unfold directory
    simp only [hc, Option.bind_none]

/-- The sessions, which lie below the next address. -/
def sessionList (s : Forwarder Tables) : List HandlerSession := (List.range s.next).filterMap s.sessions

theorem Linked.mem_sessionList (hs : s.Linked) (hp : s.sessions p = some S) : S ∈ s.sessionList :=
  List.mem_filterMap.mpr ⟨p, List.mem_range.mpr (hs.core.session_lt p S hp), hp⟩

theorem directory_owner (hh : s.handler h = some p) (hp : s.sessions p = some S) :
    s.directory.owner h = some S.clientID := by
  unfold directory
  simp only [hh, Option.bind_some, hp, Option.map_some]

theorem Linked.owned (hs : s.Linked) : s.directory.Owned := by
  refine ⟨fun h c ho => ?_, hs.nodup⟩
  obtain ⟨p, hp, hc⟩ := Option.bind_eq_some_iff.mp ho
  obtain ⟨S, hS, rfl⟩ := Option.map_eq_some_iff.mp hc
  obtain ⟨S', hS', hh⟩ := hs.handler h p hp
  obtain rfl := Option.some.inj (hS.symm.trans hS')
  exact ⟨_, hs.registered hS, hh⟩

/-! ## A session less -/

/-- `s'` is `s` without the session at `p` and its items. -/
structure Without (s s' : Forwarder Tables) (p : Ptr) (S : HandlerSession) : Prop where
  core : s'.Core
  sessions : s'.sessions = update s.sessions p none
  client : s'.client = update s.client S.clientID none
  handler : s'.handler = update s.handler S.mcpHandler none
  items : ∀ j, s'.items j = if j ∈ S.lstHandlerSessionItem then none else s.items j
  durindBroadcastMsg : s'.durindBroadcastMsg = s.durindBroadcastMsg
  stackMcpHandler : s'.stackMcpHandler = s.stackMcpHandler

theorem Without.linked (hw : Without s s' p S) (hs : s.Linked) (hp : s.sessions p = some S)
    (hnodup : s'.connections.Nodup) : s'.Linked := by
  refine ⟨hw.core, fun c q hq => ?_, fun q R hq => ?_, fun h q hq => ?_, hnodup,
    hw.durindBroadcastMsg.trans hs.durindBroadcastMsg, hw.stackMcpHandler.trans hs.stackMcpHandler⟩
  · rw [hw.client] at hq
    obtain ⟨hne, hq⟩ := update_none_eq_some.mp hq
    obtain ⟨R, hR, hc⟩ := hs.client c q hq
    have hqp : q ≠ p := by
      rintro rfl
      obtain rfl := Option.some.inj (hp.symm.trans hR)
      exact hne hc.symm
    refine ⟨R, ?_, hc⟩
    rw [hw.sessions, Function.update_of_ne hqp]
    exact hR
  · rw [hw.sessions] at hq
    obtain ⟨hne, hq⟩ := update_none_eq_some.mp hq
    have hc : R.clientID ≠ S.clientID := by
      intro he
      have hclient := hs.session q R hq
      rw [he, hs.session p S hp] at hclient
      exact hne (Option.some.inj hclient).symm
    rw [hw.client, Function.update_of_ne hc]
    exact hs.session q R hq
  · rw [hw.handler] at hq
    obtain ⟨hne, hq⟩ := update_none_eq_some.mp hq
    obtain ⟨R, hR, hh⟩ := hs.handler h q hq
    have hqp : q ≠ p := by
      rintro rfl
      obtain rfl := Option.some.inj (hp.symm.trans hR)
      exact hne hh.symm
    refine ⟨R, ?_, hh⟩
    rw [hw.sessions, Function.update_of_ne hqp]
    exact hR

theorem Without.directory (hw : Without s s' p S) (hs : s.Linked) (hp : s.sessions p = some S) :
    s'.directory.registered = (s.directory.remove S.clientID S.mcpHandler).registered ∧
      s'.directory.owner = (s.directory.remove S.clientID S.mcpHandler).owner := by
  have hkept : ∀ {q R}, s'.sessions q = some R → s.sessions q = some R ∧ s'.registration R = s.registration R := by
    intro q R hq
    rw [hw.sessions] at hq
    obtain ⟨hne, hq⟩ := update_none_eq_some.mp hq
    refine ⟨hq, congrArg (Registration.mk R.mcpHandler) (List.filterMap_congr fun j hj => ?_)⟩
    have hnot : j ∉ S.lstHandlerSessionItem := fun hjS => hne (hs.core.owner_eq hq hp hj hjS)
    rw [hw.items j, if_neg hnot]
  have hother : ∀ {q}, q ≠ p → s'.sessions q = s.sessions q := by
    intro q hq
    rw [hw.sessions, Function.update_of_ne hq]
  constructor
  · funext c
    by_cases hc : c = S.clientID
    · subst hc
      have hclient : s'.client S.clientID = none := by rw [hw.client, Function.update_self]
      unfold Forwarder.directory Directory.remove
      simp only [hclient, Function.update_self, Option.bind_none]
    · have hclient : s'.client c = s.client c := by rw [hw.client, Function.update_of_ne hc]
      unfold Forwarder.directory Directory.remove
      simp only [Function.update_of_ne hc, hclient]
      refine Option.bind_congr fun q hq => ?_
      obtain ⟨R, hR, hRc⟩ := hs.client c q hq
      have hqp : q ≠ p := by
        rintro rfl
        obtain rfl := Option.some.inj (hp.symm.trans hR)
        exact hc hRc.symm
      have hR' : s'.sessions q = some R := (hother hqp).trans hR
      rw [hR, hR', Option.map_some, Option.map_some, (hkept hR').2]
  · funext h
    by_cases hh : h = S.mcpHandler
    · subst hh
      have hhandler : s'.handler S.mcpHandler = none := by rw [hw.handler, Function.update_self]
      unfold Forwarder.directory Directory.remove
      simp only [hhandler, Function.update_self, Option.bind_none]
    · have hhandler : s'.handler h = s.handler h := by rw [hw.handler, Function.update_of_ne hh]
      unfold Forwarder.directory Directory.remove
      simp only [Function.update_of_ne hh, hhandler]
      refine Option.bind_congr fun q hq => ?_
      obtain ⟨R, hR, hRh⟩ := hs.handler h q hq
      have hqp : q ≠ p := by
        rintro rfl
        obtain rfl := Option.some.inj (hp.symm.trans hR)
        exact hh hRh.symm
      rw [hother hqp]

theorem dropHandler_spec (hs : s.Linked) (h : UInt32) : ∃ s', s.dropHandler tables h = .ok s' ∧
    s'.connections = s.connections ∧ (s.handler h = none ∧ s' = s ∨
      ∃ p S, s.handler h = some p ∧ s.sessions p = some S ∧ Without s s' p S) := by
  cases hh : s.handler h with
  | none =>
    refine ⟨s, ?_, rfl, .inl ⟨rfl, rfl⟩⟩
    unfold dropHandler
    simp only [tables, hh, Except.ok_bind]
  | some p =>
    obtain ⟨S, hp, hSh⟩ := hs.handler h p hh
    let k : Tables := { s.index with mapMqClientIDSession := s.index.mapMqClientIDSession.erase S.clientID }
    have hcore : ({ s with index := k } : Forwarder Tables).Core := hs.core
    obtain ⟨topics, ix, items, hrel, hitems, hfiled⟩ := Core.release hcore hp
    refine ⟨{ s with
      index := { k with mapHandlerSession := k.mapHandlerSession.erase h }
      mapTopicSession := topics
      itemIndex := ix
      items := items
      sessions := update s.sessions p none }, ?_, rfl, .inr ⟨p, S, rfl, hp, ?_⟩⟩
    · unfold dropHandler
      simp only [tables, hh, Except.ok_bind, hp]
      rw [hrel]
      rfl
    · refine ⟨hfiled, rfl, lookup_erase_eq _ _, ?_, hitems, rfl, rfl⟩
      rw [hSh]
      exact lookup_erase_eq _ _

theorem throwOut_spec (hs : s.Linked) (c : UInt32) : ∃ s' outs, s.throwOut tables c = .ok (s', outs) ∧
    (s.client c = none ∧ s' = s ∧ outs = [] ∨
      ∃ p S, s.sessions p = some S ∧ S.clientID = c ∧ Without s s' p S ∧
        s'.connections = s.connections.erase S.mcpHandler ∧ outs = [.disConnect S.mcpHandler]) := by
  cases hc : s.client c with
  | none =>
    refine ⟨s, [], ?_, .inl ⟨rfl, rfl, rfl⟩⟩
    unfold throwOut
    simp only [tables, hc, Except.ok_bind]
  | some p =>
    obtain ⟨S, hp, hSc⟩ := hs.client c p hc
    obtain ⟨topics, ix, items, hrel, hitems, hfiled⟩ := Core.release hs.core hp
    refine ⟨{ s with
      index :=
        ⟨s.index.mapMqClientIDSession.erase c, s.index.mapHandlerSession.erase S.mcpHandler⟩
      mapTopicSession := topics
      itemIndex := ix
      items := items
      sessions := update s.sessions p none
      connections := s.connections.erase S.mcpHandler }, _, ?_, .inr ⟨p, S, hp, hSc, ?_, rfl, rfl⟩⟩
    · unfold throwOut
      simp only [tables, hc, Except.ok_bind, hp]
      rw [hrel]
      rfl
    · refine ⟨hfiled, rfl, ?_, lookup_erase_eq _ _, hitems, rfl, rfl⟩
      rw [hSc]
      exact lookup_erase_eq _ _

/-! ## A session more -/

theorem filterMap_of_map {α β : Type} {f : α → Option β} {l : List α} {r : List β} (h : l.map f = r.map some) :
    l.filterMap f = r :=
  calc l.filterMap f = (l.map f).filterMap id := by rw [List.filterMap_map, Function.id_comp]
    _ = (r.map some).filterMap id := by rw [h]
    _ = r := by rw [List.filterMap_map, Function.id_comp, List.filterMap_some]

/-- The maps with a new session of the client `c` over the handle `h`. -/
def enterTables (s : Forwarder Tables) (h c : UInt32) : Tables :=
  ⟨s.index.mapMqClientIDSession.insert c s.next, s.index.mapHandlerSession.insert h s.next⟩

section
variable {ts : List UInt32} {L : List Ptr}

theorem Entered.client (he : Entered s s' (s.enterTables h c) h c ts L) :
    s'.client = update s.client c (some s.next) := by
  unfold Forwarder.client
  rw [he.index]
  exact lookup_insert_eq _ _ _

theorem Entered.handler (he : Entered s s' (s.enterTables h c) h c ts L) :
    s'.handler = update s.handler h (some s.next) := by
  unfold Forwarder.handler
  rw [he.index]
  exact lookup_insert_eq _ _ _

theorem Entered.session_new {k : Tables} (he : Entered s s' k h c ts L) : s'.sessions s.next = some ⟨L, h, c⟩ := by
  rw [he.sessions, Function.update_self]

theorem Entered.session_old {k : Tables} (he : Entered s s' k h c ts L) (hs : s.Linked) {q : Ptr} {R : HandlerSession}
    (hq : s.sessions q = some R) : s'.sessions q = some R := by
  rw [he.sessions, Function.update_of_ne (Nat.ne_of_lt (hs.core.session_lt q R hq))]
  exact hq

theorem Linked.client_ne (hs : s.Linked) (hc : s.client c = none) {q : Ptr} {R : HandlerSession}
    (hq : s.sessions q = some R) : R.clientID ≠ c := by
  rintro rfl
  have hfound := hs.session q R hq
  rw [hc] at hfound
  cases hfound

theorem Entered.linked (he : Entered s s' (s.enterTables h c) h c ts L) (hs : s.Linked) (hc : s.client c = none) :
    s'.Linked := by
  refine ⟨he.core, fun c' q hq => ?_, fun q R hq => ?_, fun h' q hq => ?_, ?_,
    he.durindBroadcastMsg.trans hs.durindBroadcastMsg, he.stackMcpHandler.trans hs.stackMcpHandler⟩
  · rw [he.client] at hq
    rcases update_eq_some.mp hq with ⟨rfl, rfl⟩ | ⟨-, hq⟩
    · exact ⟨_, he.session_new, rfl⟩
    · obtain ⟨R, hR, hRc⟩ := hs.client c' q hq
      exact ⟨R, he.session_old hs hR, hRc⟩
  · rw [he.sessions] at hq
    rcases update_eq_some.mp hq with ⟨rfl, rfl⟩ | ⟨-, hq⟩
    · rw [he.client, Function.update_self]
    · rw [he.client, Function.update_of_ne (hs.client_ne hc hq)]
      exact hs.session q R hq
  · rw [he.handler] at hq
    rcases update_eq_some.mp hq with ⟨rfl, rfl⟩ | ⟨-, hq⟩
    · exact ⟨_, he.session_new, rfl⟩
    · obtain ⟨R, hR, hRh⟩ := hs.handler h' q hq
      exact ⟨R, he.session_old hs hR, hRh⟩
  · rw [he.connections]
    exact hs.nodup

theorem Entered.registration {k : Tables} (he : Entered s s' k h c ts L) (hs : s.Linked) {q : Ptr} {R : HandlerSession}
    (hq : s.sessions q = some R) : s'.registration R = s.registration R := by
  refine congrArg (Registration.mk R.mcpHandler) (List.filterMap_congr fun j hj => ?_)
  obtain ⟨I, hI, -⟩ := (hs.core.list q R hq).2 j hj
  rw [he.items j (hs.core.item_lt j I hI)]

theorem Entered.directory (he : Entered s s' (s.enterTables h c) h c ts L) (hs : s.Linked) :
    s'.directory = s.directory.enter h c ts := by
  refine Directory.ext ?_ ?_ he.connections
  · funext c'
    by_cases hc' : c' = c
    · subst hc'
      have hfound : s'.client c' = some s.next := by rw [he.client, Function.update_self]
      unfold Forwarder.directory Directory.enter
      simp only [hfound, Option.bind_some, he.session_new, Option.map_some, Function.update_self]
      exact congrArg (fun l => some (Registration.mk h l)) (filterMap_of_map he.topics)
    · have hfound : s'.client c' = s.client c' := by rw [he.client, Function.update_of_ne hc']
      unfold Forwarder.directory Directory.enter
      simp only [hfound, Function.update_of_ne hc']
      refine Option.bind_congr fun q hq => ?_
      obtain ⟨R, hR, -⟩ := hs.client c' q hq
      rw [hR, he.session_old hs hR, Option.map_some, Option.map_some, he.registration hs hR]
  · funext h'
    by_cases hh : h' = h
    · subst hh
      have hfound : s'.handler h' = some s.next := by rw [he.handler, Function.update_self]
      unfold Forwarder.directory Directory.enter
      simp only [hfound, Option.bind_some, he.session_new, Option.map_some, Function.update_self]
    · have hfound : s'.handler h' = s.handler h' := by rw [he.handler, Function.update_of_ne hh]
      unfold Forwarder.directory Directory.enter
      simp only [hfound, Function.update_of_ne hh]
      refine Option.bind_congr fun q hq => ?_
      obtain ⟨R, hR, -⟩ := hs.handler h' q hq
      rw [hR, he.session_old hs hR]

end

theorem enter_spec (hs : s.Linked) (hc : s.client c = none) (ts : List UInt32) :
    ∃ s₁, s.openSession tables h c = .ok s₁ ∧
    (s₁.addItems h c s.next ts).Linked ∧ (s₁.addItems h c s.next ts).directory = s.directory.enter h c ts := by
  obtain ⟨L, he⟩ := Core.enter hs.core (s.enterTables h c) h c ts
  exact ⟨_, rfl, he.linked hs hc, he.directory hs⟩

/-! ## Steps -/

theorem onNetworkError_spec (hs : s.Linked) (h : UInt32) : ∃ s' outs, s.onNetworkError tables h = .ok (s', outs) ∧
    s'.Linked ∧ s'.directory = s.directory.lose h := by
  obtain ⟨s₁, hdrop, hconn, hcases⟩ := dropHandler_spec hs h
  refine ⟨{ s₁ with connections := s₁.connections.erase h }, [.networkError h], ?_, ?_⟩
  · unfold onNetworkError
    rw [hs.durindBroadcastMsg, hdrop]
    rfl
  have hnodup : (s₁.connections.erase h).Nodup := by
    rw [hconn]
    exact hs.nodup.erase h
  rcases hcases with ⟨hnone, rfl⟩ | ⟨p, S, hh, hp, hw⟩
  · refine ⟨⟨hs.core, hs.client, hs.session, hs.handler, hnodup, hs.durindBroadcastMsg, hs.stackMcpHandler⟩, ?_⟩
    have howner : s₁.directory.owner h = none := by
      unfold directory
      simp only [hnone, Option.bind_none]
    unfold Directory.lose
    rw [howner]
    rfl
  · have hSh : S.mcpHandler = h := by
      obtain ⟨S', hS', hh'⟩ := hs.handler h p hh
      obtain rfl := Option.some.inj (hp.symm.trans hS')
      exact hh'
    have hw' : Without s { s₁ with connections := s₁.connections.erase h } p S := ⟨hw.1, hw.2, hw.3, hw.4, hw.5, hw.6, hw.7⟩
    refine ⟨hw'.linked hs hp hnodup, ?_⟩
    obtain ⟨hreg, howner⟩ := hw'.directory hs hp
    unfold Directory.lose
    rw [directory_owner hh hp]
    subst hSh
    exact Directory.ext hreg howner (congrArg (fun l => l.erase S.mcpHandler) hconn)

theorem onRegMqTopicReq_spec (hs : s.Linked) (h : UInt32) (req : RegMqTopicReq) :
    ∃ s' outs, s.onRegMqTopicReq tables h req = .ok (s', outs) ∧ s'.Linked ∧
      s'.directory = (s.directory.throwOut req.clientID).enter h req.clientID req.lstTopicID ∧
      outs = ((s.directory.registered req.clientID).map fun R => FwdOut.disConnect R.mcpHandler).toList := by
  obtain ⟨s₁, outs, hout, hcases⟩ := throwOut_spec hs req.clientID
  have hmid : s₁.Linked ∧ s₁.client req.clientID = none ∧ s₁.directory = s.directory.throwOut req.clientID ∧
      outs = ((s.directory.registered req.clientID).map fun R => FwdOut.disConnect R.mcpHandler).toList := by
    rcases hcases with ⟨hnone, rfl, rfl⟩ | ⟨p, S, hp, hc, hw, hconn, rfl⟩
    · have hreg := hs.registered_none.mpr hnone
      refine ⟨hs, hnone, ?_, ?_⟩
      · unfold Directory.throwOut
        rw [hreg]
      · rw [hreg]
        rfl
    · have hreg := hs.registered hp
      obtain ⟨hregistered, howner⟩ := hw.directory hs hp
      rw [← hc]
      refine ⟨hw.linked hs hp (hconn ▸ hs.nodup.erase _), ?_, ?_, ?_⟩
      · rw [hw.client, Function.update_self]
      · unfold Directory.throwOut
        rw [hreg]
        exact Directory.ext hregistered howner hconn
      · rw [hreg]
        rfl
  obtain ⟨hs₁, hnone, hdir, houts⟩ := hmid
  obtain ⟨s₂, hopen, hs₂, hdir₂⟩ := enter_spec hs₁ hnone (h := h) req.lstTopicID
  refine ⟨s₂.addItems h req.clientID s₁.next req.lstTopicID, outs, ?_, hs₂, ?_, houts⟩
  · unfold onRegMqTopicReq
    rw [hout, Except.ok_bind, hopen]
    rfl
  · rw [hdir₂, hdir]

theorem onPubMqTopicMsg_directory (hs : s.Linked) {msg : PubMqTopicMsg} {outs : List FwdOut}
    (hr : s.onPubMqTopicMsg msg = .ok (s', outs)) : s'.Linked ∧ s'.directory = s.directory := by
  unfold onPubMqTopicMsg at hr
  cases hT : s.mapTopicSession msg.topicID with
  | none =>
    simp only [hT] at hr
    obtain ⟨rfl, -⟩ := Prod.mk.inj (Except.ok.inj hr)
    exact ⟨hs, rfl⟩
  | some T =>
    let T' : TopicSession := { T with handlerSessionArray := T.handlerSessionArray.get.1 }
    have hs₁ : ({ s with mapTopicSession := update s.mapTopicSession msg.topicID (some T') } : Forwarder Tables).Linked :=
      ⟨hs.core.turn hT (TypeArray.get_elems _), hs.client, hs.session, hs.handler, hs.nodup, hs.durindBroadcastMsg,
        hs.stackMcpHandler⟩
    simp only [hT] at hr
    cases hget : T.handlerSessionArray.get.2 with
    | none =>
      rw [hget] at hr
      obtain ⟨rfl, -⟩ := Prod.mk.inj (Except.ok.inj hr)
      exact ⟨hs₁, rfl⟩
    | some p =>
      rw [hget] at hr
      cases hI : s.items p with
      | none =>
        simp only [hI] at hr
        cases hr
      | some I =>
        simp only [hI] at hr
        obtain ⟨rfl, -⟩ := Prod.mk.inj (Except.ok.inj hr)
        exact ⟨hs₁, rfl⟩

theorem onPubMqAddrMsg_same {κ : Type} {ops : IndexOps κ} {s : Forwarder κ} {msg : PubMqMsg}
    {r : Forwarder κ × List FwdOut} (hr : s.onPubMqAddrMsg ops msg = .ok r) : r.1 = s := by
  unfold onPubMqAddrMsg at hr
  obtain ⟨found, -, hr⟩ := Except.bind_eq_ok.mp hr
  cases found with
  | none =>
    obtain rfl := Except.ok.inj hr
    rfl
  | some p =>
    cases hp : s.sessions p with
    | none =>
      simp only [hp] at hr
      cases hr
    | some S =>
      simp only [hp] at hr
      obtain rfl := Except.ok.inj hr
      rfl

theorem ifConnected_ok {κ : Type} {s : Forwarder κ} {x : Res (Forwarder κ × List FwdOut)}
    {r : Forwarder κ × List FwdOut}
    (hr : s.ifConnected h x = .ok r) : h ∈ s.connections ∧ x = .ok r := by
  unfold ifConnected at hr
  split at hr
  · rename_i hmem
    exact ⟨hmem, hr⟩
  · cases hr

/-- A step is one of the directory, and only the registration of a client that is
registered closes a connection, the client's own. -/
theorem Linked.step (hs : s.Linked) {e : FwdEvent} {outs : List FwdOut} (hst : s.step tables e = .ok (s', outs)) :
    s'.Linked ∧ s'.directory = s.directory.step e := by
  cases e with
  | connected h =>
    simp only [Forwarder.step] at hst
    split at hst
    · cases hst
    · rename_i hnot
      obtain ⟨rfl, -⟩ := Prod.mk.inj (Except.ok.inj hst)
      exact ⟨⟨hs.core, hs.client, hs.session, hs.handler, List.nodup_cons.mpr ⟨hnot, hs.nodup⟩, hs.durindBroadcastMsg,
        hs.stackMcpHandler⟩, rfl⟩
  | networkError h =>
    obtain ⟨s₁, outs₁, hr, hs₁, hdir⟩ := onNetworkError_spec hs h
    obtain ⟨rfl, -⟩ := Prod.mk.inj (Except.ok.inj (hr.symm.trans hst))
    exact ⟨hs₁, hdir⟩
  | regMqTopicReq h req =>
    obtain ⟨s₁, outs₁, hr, hs₁, hdir, -⟩ := onRegMqTopicReq_spec hs h req
    obtain ⟨rfl, -⟩ := Prod.mk.inj (Except.ok.inj (hr.symm.trans (ifConnected_ok hst).2))
    exact ⟨hs₁, hdir⟩
  | pubMqTopicMsg h msg => exact onPubMqTopicMsg_directory hs (ifConnected_ok hst).2
  | pubMqAddrMsg h msg =>
    obtain rfl := onPubMqAddrMsg_same (ifConnected_ok hst).2
    exact ⟨hs, rfl⟩
  | pubMqBroadcastMsg h msg env =>
    obtain rfl := onPubMqBroadcastMsg_ok hs.durindBroadcastMsg (ifConnected_ok hst).2
    exact ⟨hs, rfl⟩

end

/-! ## Runs -/

def start (port : Int32) (addr : Blob) : Forwarder Tables :=
  { index := {}, mqForwarderPort := port, strMqForwarderAddr := addr }

theorem linked_start (port : Int32) (addr : Blob) : (start port addr).Linked :=
  ⟨filed_empty, nofun, nofun, nofun, List.nodup_nil, rfl, rfl⟩

theorem Linked.of_run {port : Int32} {addr : Blob}
    {C : List (Entry (Forwarder Tables) FwdEvent FwdOut) → Forwarder Tables → FwdEvent → Prop}
    {tr : List (Entry (Forwarder Tables) FwdEvent FwdOut)} {s : Forwarder Tables}
    (hr : Run (Forwarder.step tables) (start port addr) C tr s) : s.Linked := by
  refine hr.invariant (fun _ s => s.Linked) (linked_start port addr) ?_
  intro tr s e s' outs _ hs _ hst
  exact (hs.step hst).1

end Forwarder

end VProtocol.Mq
