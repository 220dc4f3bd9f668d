import VProtocol.Mq.Tables
import VProtocol.Mq.Told

/-!
# Client ids

The scheduler gives a client the id it asks for, or the next one of its counter, and looks
at no other client's. So ids are unique throughout a run exactly when each id that is given
is one that no connected client holds; and then no client is thrown out of a forwarder by
another one.
-/

namespace VProtocol.Mq

open Function (update)

def SchedOut.idFor (h : UInt32) : SchedOut → Option UInt32
  | .sendHtsMsg h' (.regMqClientAddrRsp rsp) => if h' = h then some rsp.clientID else none
  | _ => none

/-- The id that the client of `h` holds: the one of its response, until its connection is lost. -/
def held (tr : SchedHistory) (h : UInt32) : Option UInt32 :=
  tr.foldl (fun c en => (en.outs.findSome? (SchedOut.idFor h)).or (if en.ev.loses h then none else c)) none

def UniqueIDs (tr : SchedHistory) : Prop :=
  ∀ h h' c, held tr h = some c → held tr h' = some c → h = h'

/-- The clients of a forwarder's connections are known to the scheduler by the connections
of `owner`. Where the clients at the forwarder hold the ids that they registered with, a
registration closes no connection of another client. -/
def ThrowsNobodyOut (tr : SchedHistory) : Prop :=
  ∀ (port : Int32) (addr : Blob) (trf : List (Entry (Forwarder Tables) FwdEvent FwdOut)) (f f' : Forwarder Tables)
    (owner : UInt32 → UInt32) (h h' : UInt32) (req : RegMqTopicReq) (outs : List FwdOut),
    Run (Forwarder.step tables) (Forwarder.start port addr) anyStep trf f →
    (∀ p S, f.sessions p = some S → held tr (owner S.mcpHandler) = some S.clientID) →
    held tr (owner h) = some req.clientID → f.step tables (.regMqTopicReq h req) = .ok (f', outs) →
    .disConnect h' ∈ outs → owner h' = owner h

def givenID (s : Scheduler) (req : RegMqClientAddrReq) : UInt32 :=
  if req.clientID ≠ 0 then req.clientID else Scheduler.allocClientID s.clientID

/-- A new client's id, asked for or next in the counter, is one that nobody holds. -/
def FreshID (tr : SchedHistory) (s : Scheduler) : SchedEvent → Prop
  | .regMqClientAddrReq h req => h ∈ s.setMqClientHandlerID ∨ ∀ h', held tr h' ≠ some (givenID s req)
  | _ => True

section
variable {tr : SchedHistory} {en : Entry Scheduler SchedEvent SchedOut} {h : UInt32} {s s' : Scheduler} {e : SchedEvent}
  {outs : List SchedOut}

theorem held_snoc : held (tr ++ [en]) h =
    (en.outs.findSome? (SchedOut.idFor h)).or (if en.ev.loses h then none else held tr h) := by
  unfold held
  rw [List.foldl_append]
  rfl

theorem UniqueIDs.throwsNobodyOut (hu : UniqueIDs tr) : ThrowsNobodyOut tr := by
  intro port addr trf f f' owner h h' req outs hr hknown hown hst hout
  have hf := Forwarder.Linked.of_run hr
  obtain ⟨f₁, outs₁, hreg, -, -, houts⟩ := Forwarder.onRegMqTopicReq_spec hf h req
  obtain ⟨-, rfl⟩ := Prod.mk.inj (Except.ok.inj (hreg.symm.trans (Forwarder.ifConnected_ok hst).2))
  rw [houts] at hout
  cases hR : f.directory.registered req.clientID with
  | none =>
    rw [hR] at hout
    cases hout
  | some R =>
    rw [hR] at hout
    obtain rfl := FwdOut.disConnect.inj (List.mem_singleton.mp hout)
    obtain ⟨p, S, hp, hc, rfl⟩ := hf.registered_iff.mp hR
    have hheld := hknown p S hp
    rw [hc] at hheld
    exact hu _ _ _ hheld hown

/-- Clients hold ids exactly as long as the scheduler knows them. -/
structure HeldBySet (tr : SchedHistory) (s : Scheduler) : Prop where
  nodup : s.setMqClientHandlerID.Nodup
  holds : ∀ h, (held tr h).isSome ↔ h ∈ s.setMqClientHandlerID

theorem held_notified {l : List UInt32} {notify : AddFowrarderAddrNotify} {x : UInt32} :
    (l.map fun c => SchedOut.sendHtsMsg c (.addFowrarderAddrNotify notify)).findSome? (SchedOut.idFor x) = none := by
  rw [List.findSome?_eq_none_iff]
  intro o ho
  obtain ⟨c, -, rfl⟩ := List.mem_map.mp ho
  rfl

variable (tr) in
theorem held_step (hst : s.step e = .ok (s', outs)) :
    (∃ h req, e = .regMqClientAddrReq h req ∧ h ∉ s.setMqClientHandlerID ∧
      s'.setMqClientHandlerID = s.setMqClientHandlerID.orderedInsert (· ≤ ·) h ∧
      held (tr ++ [⟨s, e, outs⟩]) = update (held tr) h (some (givenID s req))) ∨
    (∃ h, e = .networkError h ∧ s'.setMqClientHandlerID = s.setMqClientHandlerID.erase h ∧
      held (tr ++ [⟨s, e, outs⟩]) = update (held tr) h none) ∨
    FreshID tr s e ∧ s'.setMqClientHandlerID = s.setMqClientHandlerID ∧ held (tr ++ [⟨s, e, outs⟩]) = held tr := by
  cases e with
  | registMqForwarderServiceReq req nodeType nodeID =>
    have hst := Except.ok.inj hst
    simp only [Scheduler.onRegistMqForwarderServiceReq] at hst
    split at hst
    · obtain ⟨rfl, rfl⟩ := Prod.mk.inj hst
      refine .inr (.inr ⟨trivial, rfl, funext fun x => ?_⟩)
      rw [held_snoc]
      rfl
    · obtain ⟨rfl, rfl⟩ := Prod.mk.inj hst
      refine .inr (.inr ⟨trivial, rfl, funext fun x => ?_⟩)
      rw [held_snoc, held_notified]
      rfl
  | regMqClientAddrReq h req =>
    by_cases hh : h ∈ s.setMqClientHandlerID
    · obtain ⟨rfl, rfl⟩ := Prod.mk.inj ((if_pos hh).symm.trans (Except.ok.inj hst))
      refine .inr (.inr ⟨.inl hh, rfl, funext fun x => ?_⟩)
      rw [held_snoc]
      rfl
    · obtain ⟨hset, -, houts⟩ := Scheduler.onRegMqClientAddrReq_new hh req
      rw [Except.ok.inj hst] at hset houts
      obtain rfl : outs = [.sendHtsMsg h (.regMqClientAddrRsp
        ⟨givenID s req, s.setForwarderAddr.map ForwarderAddrSession.addr⟩)] := houts
      refine .inl ⟨h, req, rfl, hh, hset, funext fun x => ?_⟩
      rw [held_snoc]
      by_cases hx : x = h
      · subst hx
        simp [SchedOut.idFor]
      · simp [SchedEvent.loses, SchedOut.idFor, hx, Ne.symm hx]
  | networkError h =>
    obtain ⟨rfl, rfl⟩ := Prod.mk.inj (Except.ok.inj hst)
    refine .inr (.inl ⟨h, rfl, rfl, funext fun x => ?_⟩)
    rw [held_snoc]
    by_cases hx : x = h
    · subst hx
      simp [SchedEvent.loses, SchedOut.idFor]
    · simp [SchedEvent.loses, SchedOut.idFor, hx, Ne.symm hx]
  | disConnected nodeType nodeID =>
    obtain ⟨rfl, rfl⟩ := Prod.mk.inj (Except.ok.inj hst)
    refine .inr (.inr ⟨trivial, rfl, funext fun x => ?_⟩)
    rw [held_snoc]
    rfl

/-- Only the clients that the scheduler knows are in the way of an id. -/
theorem HeldBySet.fresh (hs : HeldBySet tr s) (h : UInt32) (req : RegMqClientAddrReq)
    (h' : ∀ x ∈ s.setMqClientHandlerID, held tr x ≠ some (givenID s req)) : FreshID tr s (.regMqClientAddrReq h req) := by
  refine .inr fun x hx => ?_
  have hmem := (hs.holds x).mp (by rw [hx]; rfl)
  exact h' x hmem hx

theorem HeldBySet.step (hs : HeldBySet tr s) (hst : s.step e = .ok (s', outs)) :
    HeldBySet (tr ++ [⟨s, e, outs⟩]) s' := by
  rcases held_step tr hst with ⟨h, req, -, hh, hset, hheld⟩ | ⟨h, -, hset, hheld⟩ | ⟨-, hset, hheld⟩
  · refine ⟨?_, fun x => ?_⟩
    · rw [hset]
      exact (List.perm_orderedInsert (· ≤ ·) h _).nodup_iff.mpr (List.nodup_cons.mpr ⟨hh, hs.nodup⟩)
    · rw [hheld, hset, List.mem_orderedInsert]
      by_cases hx : x = h
      · subst hx
        simp
      · rw [Function.update_of_ne hx, hs.holds x]
        exact ⟨.inr, fun hmem => hmem.resolve_left hx⟩
  · refine ⟨?_, fun x => ?_⟩
    · rw [hset]
      exact hs.nodup.erase h
    · rw [hheld, hset, hs.nodup.mem_erase_iff]
      by_cases hx : x = h
      · subst hx
        simp
      · rw [Function.update_of_ne hx, hs.holds x]
        exact ⟨fun hmem => ⟨hx, hmem⟩, fun hmem => hmem.2⟩
  · refine ⟨?_, fun x => ?_⟩
    · rw [hset]
      exact hs.nodup
    · rw [hheld, hset]
      exact hs.holds x

theorem HeldBySet.unique_iff (hs : HeldBySet tr s) (hu : UniqueIDs tr) (hst : s.step e = .ok (s', outs)) :
    UniqueIDs (tr ++ [⟨s, e, outs⟩]) ↔ FreshID tr s e := by
  unfold UniqueIDs
  rcases held_step tr hst with ⟨h, req, rfl, hh, -, hheld⟩ | ⟨h, rfl, -, hheld⟩ | ⟨hfresh, -, hheld⟩
  · have hnone : held tr h = none := by
      cases hx : held tr h with
      | none => rfl
      | some c => exact absurd ((hs.holds h).mp (by rw [hx]; rfl)) hh
    rw [hheld]
    constructor
    · intro hu'
      refine .inr fun h' hh' => ?_
      have hne : h' ≠ h := by
        rintro rfl
        rw [hnone] at hh'
        cases hh'
      exact hne (hu' h' h _ ((Function.update_of_ne hne _ _).trans hh') (Function.update_self _ _ _))
    · intro hfresh
      have hfree := hfresh.resolve_left hh
      intro x y c hx hy
      rcases update_eq_some.mp hx with ⟨rfl, rfl⟩ | ⟨-, hxo⟩
      · rcases update_eq_some.mp hy with ⟨rfl, -⟩ | ⟨-, hyo⟩
        · rfl
        · exact absurd hyo (hfree y)
      · rcases update_eq_some.mp hy with ⟨rfl, rfl⟩ | ⟨-, hyo⟩
        · exact absurd hxo (hfree x)
        · exact hu x y c hxo hyo
  · refine ⟨fun _ => trivial, fun _ x y c hx hy => ?_⟩
    rw [hheld] at hx hy
    exact hu x y c (update_none_eq_some.mp hx).2 (update_none_eq_some.mp hy).2
  · rw [hheld]
    exact ⟨fun _ => hfresh, fun _ => hu⟩

theorem run_heldBySet (hr : Run Scheduler.step {} anyStep tr s) : HeldBySet tr s := by
  refine hr.invariant HeldBySet ⟨List.nodup_nil, fun h => ?_⟩ fun tr s e s' outs _ hs _ hst => hs.step hst
  exact ⟨fun hx => absurd hx Bool.false_ne_true, fun hx => absurd hx List.not_mem_nil⟩

/-- Ids are unique throughout a run, and nobody is thrown out of a forwarder, exactly when
each id that is given in the run is one that nobody holds. -/
theorem unique_ids_iff (hr : Run Scheduler.step {} anyStep tr s) :
    Always (fun tr _ => UniqueIDs tr ∧ ThrowsNobodyOut tr) tr s ↔ Each FreshID tr := by
  have hstart : UniqueIDs [] := by
    intro h h' c hh
    cases hh
  refine hr.always_iff ⟨hstart, hstart.throwsNobodyOut⟩ ?_
  intro tr s e s' outs hr _ hP _ hst
  rw [← (run_heldBySet hr).unique_iff hP.1 hst]
  exact ⟨fun hP' => hP'.1, fun hu => ⟨hu, hu.throwsNobodyOut⟩⟩

end

/-! ## An id asked for and counted -/

/-- The first client asks for 5 and the second one is given 1 of the counter; 5 is free again when the first
client's connection is lost. -/
def apartRun : List SchedEvent :=
  [.regMqClientAddrReq 1 ⟨5⟩, .regMqClientAddrReq 2 ⟨0⟩, .networkError 1, .regMqClientAddrReq 3 ⟨5⟩]

theorem apartRun_fresh : Each FreshID (trace Scheduler.step {} apartRun) := by
  have h₁ : FreshID [] {} (.regMqClientAddrReq 1 ⟨5⟩) := .inr nofun
  have hr₁ : Run Scheduler.step {} FreshID _ _ := Run.nil.snoc h₁ rfl
  have h₂ := (run_heldBySet hr₁.any).fresh 2 ⟨0⟩ fun x hx => by
    obtain rfl := List.mem_singleton.mp hx
    decide
  have hr₂ := hr₁.snoc h₂ rfl
  have hr₃ := hr₂.snoc (e := SchedEvent.networkError 1) trivial rfl
  have h₄ := (run_heldBySet hr₃.any).fresh 3 ⟨5⟩ fun x hx => by
    obtain rfl := List.mem_singleton.mp hx
    decide
  exact (hr₃.snoc h₄ rfl).each

theorem unique_ids_apart : Always (fun tr _ => UniqueIDs tr ∧ ThrowsNobodyOut tr)
      (trace Scheduler.step {} apartRun) (final Scheduler.step {} apartRun) ∧
    (final Scheduler.step {} apartRun).setMqClientHandlerID = [2, 3] ∧
    held (trace Scheduler.step {} apartRun) 2 = some 1 ∧ held (trace Scheduler.step {} apartRun) 3 = some 5 := by
  have hr : Run Scheduler.step {} anyStep _ _ := run_trace_any apartRun
  exact ⟨(unique_ids_iff hr).mpr apartRun_fresh, rfl, rfl, rfl⟩

/-- The first client asks for an id and gets 1 of the counter, the second one asks for 1: both have it, and at
a forwarder the second one closes the first one's connection. -/
theorem ids_collide : (¬∀ (tr : SchedHistory) (s : Scheduler), Run Scheduler.step {} anyStep tr s → UniqueIDs tr) ∧
    ((final (Forwarder.step tables) (Forwarder.start 9000 [])
      [.connected 1, .regMqTopicReq 1 ⟨1, [5]⟩, .connected 2]).step tables (.regMqTopicReq 2 ⟨1, [6]⟩)).toOption.map Prod.snd =
      some [.disConnect 1] := by
  refine ⟨fun hall => ?_, rfl⟩
  have hu := hall _ _ (run_trace_any [.regMqClientAddrReq 1 ⟨0⟩, .regMqClientAddrReq 2 ⟨1⟩])
  exact absurd (hu 1 2 1 rfl rfl) (by decide)

end VProtocol.Mq
