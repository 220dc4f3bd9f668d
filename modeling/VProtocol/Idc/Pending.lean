import VProtocol.Idc.Bootstrap
import Mathlib.Data.List.TakeWhile

/-!
# What becomes of a request

A request has no peer to go to, since nothing fills the array of peers; then nothing is sent and
nothing is kept, and the code that would tell of it is not returned. With a peer the request would
not come past its nonce. So a client is as it should be as long as nobody asks it for anything.
-/

namespace VProtocol.Idc

open Crypt (DscBlob emptyBlob)
open Function (update)

/-! ## Runs of the client -/

inductive ClientEvent where
  | initSdk (callback : Bool)
  | apiReq (req : CommonApiCltReq) (env : ApiEnv)
  | srvRsp (rsp : CommonSrvCltRsp)
  | timer (p : Ptr)

inductive ClientOut where
  | hts (req : CommonCltSrvReq)
  | rsp (r : CommonRsp)

def ClientOut.sent : ClientOut → Bool
  | .hts _ => true
  | .rsp _ => false

/-- A client with the addresses and the timers of its sessions, none of which is ever freed. -/
structure ClientState where
  client : Client
  ptrs : UInt32 → Option Ptr := fun _ => none
  next : Ptr := 0
  armed : Ptr → Bool := fun _ => false

namespace Client
variable (cfg : Config)

/-- `OnDscMsg(CInitClientSdk)`; `m_bReady` is never set. -/
def onInitClientSdk (c : Client) (callback : Bool) : Client :=
  if c.callback then c else { c with callback }

/-- What `CommonApiReq` returns, whatever it has put into `nReturnCode`. -/
def apiReturnCode : Int32 := 0

/-- `OnDscMsg(CIdcCommonApiCltReq)` -/
def onDscMsg (c : Client) (req : CommonApiCltReq) (env : ApiEnv) : Except ClientFault (Client × List ClientOut) := do
  let r ← c.commonApiReq cfg req env
  if apiReturnCode = 0 then .ok (r.1, r.2.map .hts)
  else do
    let rsp ← r.1.onCommonRsp req.reqID.toInt32 apiReturnCode req.type.toInt32 emptyBlob
    pure (r.1, r.2.map .hts ++ rsp.map .rsp)

end Client

namespace ClientState

/-- `SetDscTimer` and `Insert`, for a new session. -/
def insert (s : ClientState) (id : UInt32) : ClientState :=
  { s with
    ptrs := update s.ptrs id (some s.next)
    next := s.next + 1
    armed := update s.armed s.next true }

/-- A session of the map has a timer that is armed. -/
def waiting (s : ClientState) (id : UInt32) : Nat := (s.ptrs id).elim 0 fun p => (s.armed p).toNat

end ClientState

section
variable (cfg : Config)

def clientStep (s : ClientState) : ClientEvent → Except ClientFault (ClientState × List ClientOut)
  | .initSdk callback => .ok ({ s with client := s.client.onInitClientSdk callback }, [])
  | .apiReq req env => do
    let r ← s.client.onDscMsg cfg req env
    let s := if r.2.any ClientOut.sent then s.insert req.reqID else s
    pure ({ s with client := r.1 }, r.2)
  | .srvRsp rsp => do
    let l ← s.client.onHtsMsg rsp
    pure (s, l.map .rsp)
  | .timer p =>
    -- `OnTimer` has no statement
    .ok ({ s with armed := update s.armed p false }, [])

abbrev ClientHistory := List (Entry ClientState ClientEvent ClientOut)

/-- A client that has no request on its way. The source gives it no peers; here it has any. -/
def clientStart (c : Client) : ClientState := { client := { c with mapCommonSession := fun _ => none } }

/-! ## The property -/

def ClientEvent.asks (id : UInt32) : ClientEvent → Bool
  | .apiReq req _ => req.reqID == id
  | .initSdk _ => false
  | .srvRsp _ => false
  | .timer _ => false

def ClientOut.reports (id : UInt32) : ClientOut → Bool
  | .rsp r => r.reqID == id.toInt32
  | .hts _ => false

def asked (id : UInt32) (tr : ClientHistory) : Nat := tr.countP (·.ev.asks id)

/-- What has happened since the request was first made. -/
def since (id : UInt32) (tr : ClientHistory) : ClientHistory := tr.dropWhile (!·.ev.asks id)

def reported (id : UInt32) (tr : ClientHistory) : Nat := (tr.flatMap (·.outs)).countP (·.reports id)

/-- There is a peer to send the request to, it is encrypted, and the send succeeds. -/
def Client.Sends (c : Client) (req : CommonApiCltReq) (env : ApiEnv) : Prop :=
  (∃ c' h, c.getMcpHandler = .ok (c', some h)) ∧
    (cfg.vbhEncrypt (c.envelopeKey req.type) (encodeWrapper cfg req.info env.nonce)).isSome ∧ env.sendErr = false

structure NotLost (tr : ClientHistory) (s : ClientState) : Prop where
  unsent : ∀ en ∈ tr, ∀ req env, en.ev = .apiReq req env → ¬en.pre.client.Sends cfg req env →
    ∃ r, .rsp r ∈ en.outs ∧ r.reqID = req.reqID.toInt32 ∧ r.returnCode ≠ 0
  -- each request has been reported or is waiting
  once : ∀ id, reported id (since id tr) + s.waiting id = asked id tr
  -- a session that does not wait is gone
  gone : ∀ id, s.client.mapCommonSession id ≠ none → s.waiting id = 1

end

/-- Nobody asks the client for anything. -/
def Unasked : ClientEvent → Prop
  | .apiReq _ _ => False
  | .initSdk _ => True
  | .srvRsp _ => True
  | .timer _ => True

section
variable {cfg : Config} {s s' : ClientState} {e : ClientEvent} {outs : List ClientOut} {tr : ClientHistory}
  {en : Entry ClientState ClientEvent ClientOut} {id : UInt32} {c c' : Client} {req : CommonApiCltReq} {env : ApiEnv}

/-! ## One request -/

theorem getMcpHandler_none (h : c.kernelSession.peerSessionNum = 0) : c.getMcpHandler = .ok (c, none) := by
  unfold Client.getMcpHandler
  simp [h]

/-- A request that finds a peer does not come past its nonce. -/
theorem commonApiReq_peer {h : UInt32} (hpeer : c.getMcpHandler = .ok (c', some h)) :
    c.commonApiReq cfg req env = .error .nullSeed := by
  unfold Client.commonApiReq
  rw [hpeer]
  rfl

theorem commonApiReq_none (hpeer : c.getMcpHandler = .ok (c', none)) : c.commonApiReq cfg req env = .ok (c', []) := by
  unfold Client.commonApiReq
  rw [hpeer]
  rfl

/-- A request that the client gets over has had no peer, and nothing comes of it. -/
theorem apiReq_ok (hst : clientStep cfg s (.apiReq req env) = .ok (s', outs)) :
    ∃ c', s.client.getMcpHandler = .ok (c', none) ∧ s' = { s with client := c' } ∧ outs = [] := by
  unfold clientStep Client.onDscMsg at hst
  cases hpeer : s.client.getMcpHandler with
  | error f =>
    have hfault : s.client.commonApiReq cfg req env = .error f := by
      unfold Client.commonApiReq
      rw [hpeer]
      rfl
    simp only [hfault] at hst
    cases hst
  | ok r =>
    obtain ⟨c', h⟩ := r
    cases h with
    | some h =>
      simp only [commonApiReq_peer hpeer] at hst
      cases hst
    | none =>
      simp only [commonApiReq_none hpeer] at hst
      obtain ⟨rfl, rfl⟩ := Prod.mk.inj (Except.ok.inj hst)
      exact ⟨c', rfl, rfl, rfl⟩

theorem srvRsp_ok {rsp : CommonSrvCltRsp} (hst : clientStep cfg s (.srvRsp rsp) = .ok (s', outs)) :
    s' = s ∧ outs = [.rsp ⟨rsp.reqID.toInt32, rsp.returnCode.toInt32, rsp.type.toInt32, rsp.info⟩] := by
  obtain ⟨l, hl, hst⟩ := Except.bind_eq_ok.mp hst
  obtain rfl := onHtsMsg_ok hl
  obtain ⟨rfl, rfl⟩ := Prod.mk.inj (Except.ok.inj hst)
  exact ⟨rfl, rfl⟩

theorem not_sends (hpeer : c.getMcpHandler = .ok (c', none)) : ¬c.Sends cfg req env := by
  rintro ⟨⟨c₁, h, hsome⟩, -⟩
  rw [hpeer] at hsome
  cases hsome

/-! ## A client that is not asked -/

structure Idle (tr : ClientHistory) (s : ClientState) : Prop where
  unasked : ∀ en ∈ tr, Unasked en.ev
  ptrs : ∀ id, s.ptrs id = none
  map : ∀ id, s.client.mapCommonSession id = none

theorem asks_unasked (h : Unasked e) (id : UInt32) : e.asks id = false := by
  cases e with
  | apiReq req env => exact h.elim
  | initSdk callback => rfl
  | srvRsp rsp => rfl
  | timer p => rfl

theorem Idle.notLost (hs : Idle tr s) : NotLost cfg tr s := by
  have hasks : ∀ id, ∀ en ∈ tr, en.ev.asks id = false := fun id en hen => asks_unasked (hs.unasked en hen) id
  refine ⟨fun en hen req env hev => ?_, fun id => ?_, fun id hid => absurd (hs.map id) hid⟩
  · have h := hs.unasked en hen
    rw [hev] at h
    exact h.elim
  · have hsince : since id tr = [] := by
      unfold since
      rw [List.dropWhile_eq_nil_iff]
      intro en hen
      simp [hasks id en hen]
    have hasked : asked id tr = 0 := List.countP_eq_zero.mpr fun en hen => by simp [hasks id en hen]
    rw [hsince, hasked]
    simp [reported, ClientState.waiting, hs.ptrs id]

theorem Idle.step (hs : Idle tr s) (he : Unasked e) (hst : clientStep cfg s e = .ok (s', outs)) :
    Idle (tr ++ [⟨s, e, outs⟩]) s' := by
  have hunasked : ∀ en ∈ tr ++ [⟨s, e, outs⟩], Unasked en.ev := by
    intro en hen
    rcases List.mem_append.mp hen with hen | hen
    · exact hs.unasked en hen
    · obtain rfl := List.mem_singleton.mp hen
      exact he
  cases e with
  | apiReq req env => exact he.elim
  | initSdk callback =>
    obtain ⟨rfl, rfl⟩ := Prod.mk.inj (Except.ok.inj hst)
    refine ⟨hunasked, hs.ptrs, fun id => ?_⟩
    unfold Client.onInitClientSdk
    split
    · exact hs.map id
    · exact hs.map id
  | srvRsp rsp =>
    obtain ⟨rfl, -⟩ := srvRsp_ok hst
    exact ⟨hunasked, hs.ptrs, hs.map⟩
  | timer p =>
    obtain ⟨rfl, rfl⟩ := Prod.mk.inj (Except.ok.inj hst)
    exact ⟨hunasked, hs.ptrs, hs.map⟩

theorem Idle.of_each {c : Client} (hr : Run (clientStep cfg) (clientStart c) anyStep tr s)
    (he : Each (fun _ _ e => Unasked e) tr) : Idle tr s := by
  refine (hr.of_each he).invariant Idle ⟨?_, fun _ => rfl, fun _ => rfl⟩
    fun _ _ _ _ _ _ hs hC hst => hs.step hC.2 hst
  intro en hen
  cases hen

/-! ## Runs -/

/-- In a run of a client, whatever its peers, no request is lost exactly when none is made. -/
theorem notLost_iff {c : Client} (hr : Run (clientStep cfg) (clientStart c) anyStep tr s) :
    Always (NotLost cfg) tr s ↔ Each (fun _ _ e => Unasked e) tr := by
  have hstart : Idle [] (clientStart c) := ⟨(fun en hen => by cases hen), fun _ => rfl, fun _ => rfl⟩
  refine hr.always_iff hstart.notLost fun tr s e s' outs hr he _ _ hst => ?_
  constructor
  · intro hP
    cases e with
    | apiReq req env =>
      obtain ⟨c', hpeer, -, rfl⟩ := apiReq_ok hst
      obtain ⟨r, hr, -⟩ := hP.unsent _ (List.mem_append_right _ List.mem_cons_self) req env rfl (not_sends hpeer)
      cases hr
    | initSdk callback => trivial
    | srvRsp rsp => trivial
    | timer p => trivial
  · exact fun hun => ((Idle.of_each hr he).step hun hst).notLost

end

/-! ## A request -/

section

instance : DecidablePred Unasked
  | .apiReq _ _ => isFalse id
  | .initSdk _ | .srvRsp _ | .timer _ => isTrue trivial

/-- A response to another client, and a timer. -/
def unaskedRun : List ClientEvent := [.initSdk true, .srvRsp ⟨okCode, registerUserMsg, 77, blobOf [9]⟩, .timer 3]

theorem notLost_unasked : ∃ tr s, Run (clientStep tagged) (clientStart newClient) anyStep tr s ∧
    tr.map (·.outs.length) = [0, 1, 0] ∧ Always (NotLost tagged) tr s := by
  have hr : Run (clientStep tagged) (clientStart newClient) anyStep _ _ := run_trace_any unaskedRun
  have hunasked : Run (clientStep tagged) (clientStart newClient) (fun _ _ e => Unasked e) _ _ :=
    run_of_meets _ _ _ unaskedRun (by decide)
  exact ⟨_, _, hr, by decide, (notLost_iff hr).mpr hunasked.each⟩

/-- A request of a client as it starts is never reported. -/
theorem request_lost : ¬∀ (cfg : Config) (c : Client) (tr : ClientHistory) (s : ClientState),
    Run (clientStep cfg) (clientStart c) anyStep tr s → Always (NotLost cfg) tr s := by
  intro hall
  have hr : Run (clientStep tagged) (clientStart newClient) anyStep _ _ :=
    run_trace_any [.apiReq firstRegister anApiEnv]
  obtain ⟨r, hr, -⟩ := (hall _ _ _ _ hr).2.unsent _ List.mem_cons_self _ _ rfl (not_sends (getMcpHandler_none rfl))
  cases hr

end

end VProtocol.Idc
