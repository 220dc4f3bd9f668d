import VProtocol.Mq.Broadcast
import VProtocol.Mq.Ready

/-!
# Publishing

An application publishes through the agent of its client: the message goes to one of the
connected sessions of the array, and the forwarder behind it sends it on. The array holds the
sessions whose handler is connected, in every run and also where the send of a message reports
a loss. A topic message does not arrive as it was published: the agent writes the client's own
id over the topic.
-/

namespace VProtocol.Mq

open Function (update)

/-- `CPubMqTopicMsg`, `CPubMqAddrMsg` and `CPubMqBroadcastMsg`. -/
inductive PubMsg where
  | topic (m : PubMqTopicMsg)
  | addr (m : PubMqMsg)
  | broadcast (m : PubMqMsg)
  deriving DecidableEq

/-- An event of the service, or a message that the application publishes; `fails` is as in `AgentEvent`. -/
inductive ClientAct (α : Type) where
  | service (e : AgentEvent α)
  | publish (m : PubMsg) (fails : Bool)

inductive ClientOut (α : Type) where
  | service (o : AgentOut α)
  | pub (h : ClientHandler α) (m : PubMsg)

abbrev ClientHistory (α : Type) := List (Entry (Agent α) (ClientAct α) (ClientOut α))

namespace Agent

section
variable {α : Type}

/-- The three `OnDscMsg`, up to the send. -/
def onDscMsg (s : Agent α) : PubMsg → PubMsg
  -- the topic is what is written over, not a client id
  | .topic m => .topic { m with topicID := s.regMqTopicReq.clientID }
  | .addr m => .addr m
  | .broadcast m => .broadcast { m with clientID := s.regMqTopicReq.clientID }

variable [DecidableEq α]

/-- A send reads the session, and its handler, which is gone when it was lost. -/
def sendDscMsg (m : PubMsg) (fails : Bool) (s : Agent α) : Res (Agent α × List (ClientOut α)) :=
  let r := s.handlerSessionArray.get
  let s := { s with handlerSessionArray := r.1 }
  match r.2 with
  | none => .ok (s, [])
  | some p =>
    match s.sessions p with
    | none => .error .dangling
    | some S =>
      match S.mcpHandler with
      | none => .error .dangling
      | some h =>
        if s.connections.contains h then do
          let r ← s.reportIf fails h
          .ok (r.1, .pub h m :: r.2.map .service)
        else .error .dangling

def publish (m : PubMsg) (fails : Bool) (s : Agent α) : Res (Agent α × List (ClientOut α)) :=
  s.sendDscMsg (s.onDscMsg m) fails

def clientStep (cfg : AgentConfig α) (s : Agent α) : ClientAct α → Res (Agent α × List (ClientOut α))
  | .service e => do
    let r ← s.step cfg e
    .ok (r.1, r.2.map .service)
  | .publish m fails => s.publish m fails

/-! ## Handlers that are connected -/

structure Live (s : Agent α) : Prop where
  kept : s.Kept
  nodup : s.connections.Nodup
  handler : ∀ x p S h, s.mapForwarderSession x = some p → s.sessions p = some S → S.mcpHandler = some h →
    h ∈ s.connections

variable {cfg : AgentConfig α} {s s' : Agent α} {h : ClientHandler α} {x : α} {p : Ptr} {outs : List (AgentOut α)}

omit [DecidableEq α] in
theorem live_start (param : InitMqClientSdkParam) :
    (start param : Agent α).Live := ⟨kept_start param, List.nodup_nil, nofun⟩

omit [DecidableEq α] in
theorem Live.remoteAddr (hs : s.Live) {S : AddrSession α} (hp : s.mapForwarderSession x = some p)
    (hS : s.sessions p = some S) (hh : S.mcpHandler = some h) : h.remoteAddr = x := by
  obtain ⟨S', hS', haddr, -⟩ := hs.kept.session x p hp
  obtain rfl := Option.some.inj (hS'.symm.trans hS)
  exact haddr h hh

theorem Live.onNetworkError (hs : s.Live) (hst : s.onNetworkError h = .ok (s', outs)) : s'.Live := by
  have hkept : s'.Kept := (hs.kept.networkError_step hst).1
  unfold Agent.onNetworkError at hst
  cases hp : s.mapForwarderSession h.remoteAddr with
  | none =>
    simp only [hp] at hst
    obtain ⟨rfl, rfl⟩ := Prod.mk.inj (Except.ok.inj hst)
    refine ⟨hkept, hs.nodup.erase h, fun x q S h' hq hS hh' => ?_⟩
    refine hs.nodup.mem_erase_iff.mpr ⟨?_, hs.handler x q S h' hq hS hh'⟩
    rintro rfl
    rw [hs.remoteAddr hq hS hh'] at hp
    rw [hp] at hq
    cases hq
  | some p =>
    obtain ⟨S, hS, -⟩ := hs.kept.session _ p hp
    obtain ⟨a, ix, q, hdel, -⟩ := hs.kept.delete p
    simp only [hp, hS, hdel, Except.ok_bind] at hst
    obtain ⟨rfl, rfl⟩ := Prod.mk.inj (Except.ok.inj hst)
    refine ⟨hkept, hs.nodup.erase h, fun x q S' h' hq hS' hh' => ?_⟩
    rcases update_eq_some.mp hS' with ⟨rfl, rfl⟩ | ⟨hne, hold⟩
    · cases hh'
    · refine hs.nodup.mem_erase_iff.mpr ⟨?_, hs.handler x q S' h' hq hold hh'⟩
      rintro rfl
      rw [hs.remoteAddr hq hold hh'] at hp
      exact hne (Option.some.inj (hq.symm.trans hp))

theorem Live.reportIf (hs : s.Live) {b : Bool} (hst : s.reportIf b h = .ok (s', outs)) : s'.Live := by
  cases b with
  | false =>
    obtain ⟨rfl, rfl⟩ := Prod.mk.inj (Except.ok.inj hst)
    exact hs
  | true => exact hs.onNetworkError hst

variable (cfg) in
theorem Live.addMqForwarderAddr (hs : s.Live) (addr : MqForwarderAddr) : (s.addMqForwarderAddr cfg addr).1.Live := by
  have hkept := (hs.kept.addMqForwarderAddr cfg addr).1
  unfold Agent.addMqForwarderAddr at hkept ⊢
  cases hx : s.mapForwarderSession (cfg.ipAddr addr.port addr.strIpAddr) with
  | some p =>
    simp only [hx]
    exact hs
  | none =>
    simp only [hx] at hkept ⊢
    refine ⟨hkept, hs.nodup, fun y q S h' hq hS hh' => ?_⟩
    rcases update_eq_some.mp hS with ⟨-, rfl⟩ | ⟨hne, hS⟩
    · cases hh'
    · rcases update_eq_some.mp hq with ⟨-, rfl⟩ | ⟨-, hq⟩
      · exact absurd rfl hne
      · exact hs.handler y q S h' hq hS hh'

variable (cfg) in
theorem Live.addMqForwarderAddrs (l : List MqForwarderAddr) (hs : s.Live) : (s.addMqForwarderAddrs cfg l).1.Live := by
  induction l generalizing s with
  | nil => exact hs
  | cons addr l ih => exact ih (hs.addMqForwarderAddr cfg addr)

variable (cfg) in
theorem Live.onRegMqClientAddrRsp (hs : s.Live) (rsp : RegMqClientAddrRsp) :
    (s.onRegMqClientAddrRsp cfg rsp).1.Live := by
  have hadd := hs.addMqForwarderAddrs cfg rsp.lstMqForwarderAddr
  unfold Agent.onRegMqClientAddrRsp
  by_cases hid : (s.addMqForwarderAddrs cfg rsp.lstMqForwarderAddr).1.regMqTopicReq.clientID = 0
  · simp only [if_pos hid]
    exact ⟨hadd.kept, hadd.nodup, hadd.handler⟩
  · simp only [if_neg hid]
    exact hadd

/-- What is left when a session goes: the map and the sessions of the others, as they were or, where
the loss was reported, without the handler. -/
theorem Live.onDelFowrarderAddrNotify (hs : s.Live) {notify : DelFowrarderAddrNotify} {reports : Bool}
    (hst : s.onDelFowrarderAddrNotify cfg notify reports = .ok (s', outs)) : s'.Live := by
  have hkept : s'.Kept := (hs.kept.del_step hst).1
  unfold Agent.onDelFowrarderAddrNotify at hst
  cases hp : s.mapForwarderSession (cfg.ipAddr notify.mqForwarderAddr.port notify.mqForwarderAddr.strIpAddr) with
  | none =>
    simp only [hp] at hst
    obtain ⟨rfl, rfl⟩ := Prod.mk.inj (Except.ok.inj hst)
    exact hs
  | some p =>
    obtain ⟨S, hS, haddr, -⟩ := hs.kept.session _ p hp
    obtain ⟨a, ix, q, hdel, hperm, -, hindex⟩ := hs.kept.delete p
    have hlost : a.delete p ix = .ok (a, ix, none) :=
      a.delete_none (hindex p fun hmem => ((mem_of_perm hperm).mp hmem).2 rfl)
    simp only [hp, hS, hdel, Except.ok_bind, closeSession] at hst
    cases hh : S.mcpHandler with
    | none =>
      simp only [hh, Except.ok_bind] at hst
      obtain ⟨rfl, rfl⟩ := Prod.mk.inj (Except.ok.inj hst)
      refine ⟨hkept, hs.nodup, fun y q S' h' hq hS' hh' => ?_⟩
      exact hs.handler y q S' h' (update_none_eq_some.mp hq).2 (update_none_eq_some.mp hS').2 hh'
    | some h =>
      simp only [hh, Agent.reportIf, Agent.onNetworkError, haddr h hh, hp, hS, hlost, Except.ok_bind] at hst
      cases reports with
      | false =>
        obtain ⟨rfl, rfl⟩ := Prod.mk.inj (Except.ok.inj hst)
        refine ⟨hkept, hs.nodup, fun y q S' h' hq hS' hh' => ?_⟩
        exact hs.handler y q S' h' (update_none_eq_some.mp hq).2 (update_none_eq_some.mp hS').2 hh'
      | true =>
        obtain ⟨rfl, rfl⟩ := Prod.mk.inj (Except.ok.inj hst)
        refine ⟨hkept, hs.nodup.erase h, fun y q S' h' hq hS' hh' => ?_⟩
        obtain ⟨hy, hmap⟩ := update_none_eq_some.mp hq
        obtain ⟨hqp, hses⟩ := update_none_eq_some.mp hS'
        rcases update_eq_some.mp hses with ⟨rfl, -⟩ | ⟨-, hold⟩
        · exact absurd rfl hqp
        · refine hs.nodup.mem_erase_iff.mpr ⟨?_, hs.handler y q S' h' hmap hold hh'⟩
          rintro rfl
          exact hy ((hs.remoteAddr hmap hold hh').symm.trans (haddr h' hh))

theorem Live.openSession (hs : s.Live) (hmem : h ∈ s.connections) (hopen : s.openSession cfg h = .ok (s', p)) :
    (s'.inserted p).Live := by
  obtain ⟨hkept, -⟩ := hs.kept.openSession hopen
  unfold Agent.openSession at hopen
  cases hx : s.mapForwarderSession h.remoteAddr with
  | some q =>
    obtain ⟨S, hS, -⟩ := hs.kept.session _ q hx
    simp only [hx, hS] at hopen
    obtain ⟨rfl, rfl⟩ := Prod.mk.inj (Except.ok.inj hopen)
    refine ⟨hkept, hs.nodup, fun y r S' h' hr hS' hh' => ?_⟩
    rcases update_eq_some.mp hS' with ⟨rfl, rfl⟩ | ⟨-, hS'⟩
    · obtain rfl := Option.some.inj hh'
      exact hmem
    · exact hs.handler y r S' h' hr hS' hh'
  | none =>
    simp only [hx] at hopen
    by_cases hasserts : cfg.asserts
    · rw [if_pos hasserts] at hopen
      cases hopen
    · rw [if_neg hasserts] at hopen
      obtain ⟨rfl, rfl⟩ := Prod.mk.inj (Except.ok.inj hopen)
      refine ⟨hkept, hs.nodup, fun y r S' h' hr hS' hh' => ?_⟩
      rcases update_eq_some.mp hS' with ⟨rfl, rfl⟩ | ⟨hne, hS'⟩
      · obtain rfl := Option.some.inj hh'
        exact hmem
      · rcases update_eq_some.mp hr with ⟨-, rfl⟩ | ⟨-, hr⟩
        · exact absurd rfl hne
        · exact hs.handler y r S' h' hr hS' hh'

theorem Live.onConnectedNodify (hs : s.Live) (hmem : h ∈ s.connections) {fails : Bool}
    (hst : onConnectedNodify cfg h fails s = .ok (s', outs)) : s'.Live := by
  by_cases hsched : isScheduler cfg h.remoteAddr
  · unfold Agent.onConnectedNodify at hst
    rw [if_pos hsched] at hst
    obtain ⟨r, hreport, hst⟩ := Except.bind_eq_ok.mp hst
    obtain ⟨rfl, -⟩ := Prod.mk.inj (Except.ok.inj hst)
    exact hs.reportIf hreport
  · rw [onConnectedNodify_forwarder hsched] at hst
    obtain ⟨r, hopen, hst⟩ := Except.bind_eq_ok.mp hst
    obtain ⟨r', hreport, hst⟩ := Except.bind_eq_ok.mp hst
    obtain ⟨rfl, -⟩ := Prod.mk.inj (Except.ok.inj hst)
    exact (hs.openSession hmem hopen).reportIf hreport

theorem Live.step {e : AgentEvent α} (hs : s.Live) (hst : s.step cfg e = .ok (s', outs)) : s'.Live := by
  cases e with
  | regMqClientAddrRsp rsp =>
    obtain ⟨rfl, rfl⟩ := Prod.mk.inj (Except.ok.inj hst)
    exact hs.onRegMqClientAddrRsp cfg rsp
  | addFowrarderAddrNotify notify =>
    obtain ⟨rfl, rfl⟩ := Prod.mk.inj (Except.ok.inj hst)
    exact hs.addMqForwarderAddr cfg notify.mqForwarderAddr
  | delFowrarderAddrNotify notify reports => exact hs.onDelFowrarderAddrNotify hst
  | connectedNodify h fails =>
    by_cases hmem : h ∈ s.connections
    · simp only [Agent.step, if_pos hmem] at hst
      cases hst
    · simp only [Agent.step, if_neg hmem] at hst
      have hnew : ({ s with connections := h :: s.connections } : Agent α).Live :=
        ⟨hs.kept, List.nodup_cons.mpr ⟨hmem, hs.nodup⟩, fun y q S h' hq hS hh' =>
          List.mem_cons_of_mem _ (hs.handler y q S h' hq hS hh')⟩
      exact hnew.onConnectedNodify List.mem_cons_self hst
  | networkError h =>
    by_cases hmem : h ∈ s.connections
    · simp only [Agent.step, if_pos hmem] at hst
      exact hs.onNetworkError hst
    · simp only [Agent.step, if_neg hmem] at hst
      cases hst

/-! ## Sends -/

omit [DecidableEq α] in
theorem get_mem {a : TypeArray} (hp : a.get.2 = some p) : p ∈ a.elems := by
  unfold TypeArray.get at hp
  by_cases hnil : a.elems = []
  · rw [if_pos hnil] at hp
    cases hp
  · rw [if_neg hnil] at hp
    by_cases hlt : a.index + 1 < a.elems.length
    · rw [if_pos hlt] at hp
      exact List.mem_of_getElem? hp
    · rw [if_neg hlt] at hp
      exact List.mem_of_getElem? hp

omit [DecidableEq α] in
theorem get_isSome {a : TypeArray} (hne : a.elems ≠ []) : a.get.2.isSome := by
  unfold TypeArray.get
  rw [if_neg hne]
  by_cases hlt : a.index + 1 < a.elems.length
  · rw [if_pos hlt]
    simp [hlt]
  · rw [if_neg hlt]
    simp [List.length_pos_iff.mpr hne]

omit [DecidableEq α] in
theorem Live.get (hs : s.Live) : ({ s with handlerSessionArray := s.handlerSessionArray.get.1 } : Agent α).Live := by
  have helems := s.handlerSessionArray.get_elems
  refine ⟨⟨hs.kept.placed.of_elems helems, ?_, ?_, hs.kept.inj, ?_, hs.kept.lt⟩, hs.nodup, hs.handler⟩
  · rw [helems]
    exact hs.kept.index
  · rw [helems]
    exact hs.kept.session
  · rw [helems]
    exact hs.kept.elem

theorem Live.sendDscMsg (hs : s.Live) (m : PubMsg) (fails : Bool) : ∃ s' outs, s.sendDscMsg m fails = .ok (s', outs) ∧
    s'.Live ∧ (s.handlerSessionArray.elems ≠ [] → ∃ h ∈ s.connections, ∃ outs', outs = .pub h m :: outs') := by
  unfold Agent.sendDscMsg
  cases hget : s.handlerSessionArray.get.2 with
  | none =>
    simp only [hget]
    refine ⟨_, [], rfl, hs.get, fun hne => ?_⟩
    have hsome := get_isSome hne
    rw [hget] at hsome
    cases hsome
  | some p =>
    obtain ⟨x, hx⟩ := hs.kept.elem p (get_mem hget)
    obtain ⟨S, hS, -, hin⟩ := hs.kept.session x p hx
    obtain ⟨h, hh⟩ := Option.isSome_iff_exists.mp (hin.mpr (get_mem hget))
    have hmem := hs.handler x p S h hx hS hh
    have hreport : ∃ s₁ outs₁, Agent.reportIf fails h
        ({ s with handlerSessionArray := s.handlerSessionArray.get.1 } : Agent α) = .ok (s₁, outs₁) := by
      cases fails with
      | false => exact ⟨_, _, rfl⟩
      | true =>
        obtain ⟨s₁, heq, -⟩ := hs.get.kept.onNetworkError h
        exact ⟨s₁, _, heq⟩
    obtain ⟨s₁, outs₁, heq⟩ := hreport
    simp only [hget, hS, hh, List.contains_iff_mem, if_pos hmem, heq, Except.ok_bind]
    exact ⟨s₁, _, rfl, hs.get.reportIf heq, fun _ => ⟨h, hmem, _, rfl⟩⟩

/-- What holds between the events: the array is the sessions that have a handler, once each, their
handlers are connected, and a message can be published. -/
structure Serves (s : Agent α) : Prop where
  nodup : s.handlerSessionArray.elems.Nodup
  elem : ∀ p, p ∈ s.handlerSessionArray.elems ↔
    ∃ x S, s.mapForwarderSession x = some p ∧ s.sessions p = some S ∧ S.mcpHandler ≠ none
  session : ∀ x p, s.mapForwarderSession x = some p → ∃ S, s.sessions p = some S ∧
    ∀ h, S.mcpHandler = some h → h ∈ s.connections
  publish : ∀ m fails, ∃ r, s.publish m fails = .ok r

theorem Live.serves (hs : s.Live) : s.Serves := by
  refine ⟨hs.kept.placed.nodup, fun p => ⟨fun hp => ?_, ?_⟩, fun x p hp => ?_, fun m fails => ?_⟩
  · obtain ⟨x, hx⟩ := hs.kept.elem p hp
    obtain ⟨S, hS, -, hin⟩ := hs.kept.session x p hx
    exact ⟨x, S, hx, hS, Option.isSome_iff_ne_none.mp (hin.mpr hp)⟩
  · rintro ⟨x, S, hx, hS, hh⟩
    obtain ⟨S', hS', -, hin⟩ := hs.kept.session x p hx
    obtain rfl := Option.some.inj (hS.symm.trans hS')
    exact hin.mp (Option.isSome_iff_ne_none.mpr hh)
  · obtain ⟨S, hS, -⟩ := hs.kept.session x p hp
    exact ⟨S, hS, fun h hh => hs.handler x p S h hp hS hh⟩
  · obtain ⟨s', outs, heq, -⟩ := hs.sendDscMsg (s.onDscMsg m) fails
    exact ⟨_, heq⟩

theorem Live.clientStep {e : ClientAct α} {outs : List (ClientOut α)} (hs : s.Live)
    (hst : s.clientStep cfg e = .ok (s', outs)) : s'.Live := by
  cases e with
  | service e =>
    obtain ⟨r, hone, heq⟩ := Except.bind_eq_ok.mp hst
    obtain ⟨rfl, -⟩ := Prod.mk.inj (Except.ok.inj heq)
    exact hs.step hone
  | publish m fails =>
    obtain ⟨s₁, outs₁, heq, hlive, -⟩ := hs.sendDscMsg (s.onDscMsg m) fails
    obtain ⟨rfl, -⟩ := Prod.mk.inj (Except.ok.inj (hst.symm.trans heq))
    exact hlive

variable {param : InitMqClientSdkParam}

theorem Live.of_run {C : ClientHistory α → Agent α → ClientAct α → Prop} {tr : ClientHistory α}
    (hr : Run (Agent.clientStep cfg) (start param) C tr s) : s.Live :=
  hr.invariant (fun _ s => s.Live) (live_start param) fun _ _ _ _ _ _ hs _ hst => hs.clientStep hst

/-- In every state of a run the array holds the sessions with a handler, which is connected. -/
theorem serves_always {tr : ClientHistory α} (hr : Run (Agent.clientStep cfg) (start param) anyStep tr s) :
    Always (fun _ s => Serves s) tr s :=
  hr.always fun hr => (Live.of_run hr).serves

end

section

/-- The forwarder comes and goes while the application publishes. -/
def publishing : List (ClientAct (UInt16 × Blob)) :=
  oneForwarder.map .service ++ [.publish (.topic ⟨7, [1]⟩) true, .service (.connectedNodify ⟨1, 9001, [49]⟩ false)]

theorem serves_publishing :
    Always (fun _ s => Serves s) (trace (Agent.clientStep sockAddr) (start clientSeven) publishing)
    (final (Agent.clientStep sockAddr) (start clientSeven) publishing) :=
  serves_always (run_trace_any publishing)

end

end Agent

/-! ## What a subscriber gets -/

def PubMsg.topicID : PubMsg → UInt32
  | .topic m => m.topicID
  | .addr m => m.topicID
  | .broadcast m => m.topicID

def PubMsg.msgBlob : PubMsg → Blob
  | .topic m => m.msgBlob
  | .addr m => m.msgBlob
  | .broadcast m => m.msgBlob

/-- The topic that a forwarder looks up; for an address message it looks for a client. -/
def PubMsg.lookup : PubMsg → Option UInt32
  | .topic m => some m.topicID
  | .addr _ => none
  | .broadcast m => some m.topicID

def HtsMsg.content : HtsMsg → Option (UInt32 × Blob)
  | .pubMqTopicMsg m => some (m.topicID, m.msgBlob)
  | .pubMqAddrMsg m => some (m.topicID, m.msgBlob)
  | .delFowrarderAddrNotify _ => none

section
variable {κ : Type} (ops : IndexOps κ)

/-- What the handler of a published message sends, of a broadcast before the cleanup. -/
def Forwarder.forward (env : BroadcastEnv) (f : Forwarder κ) : PubMsg → Res (List FwdOut)
  | .topic m => do
    let r ← f.onPubMqTopicMsg m
    .ok r.2
  | .addr m => do
    let r ← f.onPubMqAddrMsg ops m
    .ok r.2
  | .broadcast m => do
    let r ← f.broadcast m env
    .ok r.2

def Carries (m : PubMsg) (o : FwdOut) : Prop := ∀ x, o.message = some x → x.2.content = some (m.topicID, m.msgBlob)

/-- `m'` is what a forwarder receives of the published `m`: it looks up the topic of `m`, and what it
sends to subscribers has the topic and the payload of `m`. -/
structure Preserves (m m' : PubMsg) : Prop where
  lookup : m'.lookup = m.lookup
  carried : ∀ (f : Forwarder κ) (env : BroadcastEnv) (outs : List FwdOut), f.forward ops env m' = .ok outs →
    ∀ o ∈ outs, Carries m o

variable {ops}

theorem carries_of_mem_singleton {m : PubMsg} {h : UInt32} {msg : HtsMsg} {o : FwdOut}
    (ho : o ∈ [FwdOut.sendHtsMsg h msg]) (hmsg : msg.content = some (m.topicID, m.msgBlob)) : Carries m o := by
  intro x hx
  rw [List.mem_singleton.mp ho] at hx
  obtain rfl := Option.some.inj hx
  exact hmsg

theorem forward_carries {f : Forwarder κ} {env : BroadcastEnv} {m : PubMsg} {outs : List FwdOut}
    (hf : f.forward ops env m = .ok outs) : ∀ o ∈ outs, Carries m o := by
  cases m with
  | topic m =>
    obtain ⟨⟨f', outs'⟩, hst, heq⟩ := Except.bind_eq_ok.mp hf
    obtain rfl := Except.ok.inj heq
    unfold Forwarder.onPubMqTopicMsg at hst
    cases hT : f.mapTopicSession m.topicID with
    | none =>
      simp only [hT] at hst
      obtain ⟨-, rfl⟩ := Prod.mk.inj (Except.ok.inj hst)
      simp
    | some T =>
      cases hp : T.handlerSessionArray.get.2 with
      | none =>
        simp only [hT, hp] at hst
        obtain ⟨-, rfl⟩ := Prod.mk.inj (Except.ok.inj hst)
        simp
      | some p =>
        cases hI : f.items p with
        | none =>
          simp only [hT, hp, hI] at hst
          cases hst
        | some I =>
          simp only [hT, hp, hI] at hst
          obtain ⟨-, rfl⟩ := Prod.mk.inj (Except.ok.inj hst)
          exact fun o ho => carries_of_mem_singleton ho rfl
  | addr m =>
    obtain ⟨⟨f', outs'⟩, hst, heq⟩ := Except.bind_eq_ok.mp hf
    obtain rfl := Except.ok.inj heq
    obtain ⟨found, -, hst⟩ := Except.bind_eq_ok.mp hst
    cases found with
    | none =>
      obtain ⟨-, rfl⟩ := Prod.mk.inj (Except.ok.inj hst)
      simp
    | some p =>
      cases hS : f.sessions p with
      | none =>
        simp only [hS] at hst
        cases hst
      | some S =>
        simp only [hS] at hst
        obtain ⟨-, rfl⟩ := Prod.mk.inj (Except.ok.inj hst)
        exact fun o ho => carries_of_mem_singleton ho rfl
  | broadcast m =>
    obtain ⟨⟨lost, outs'⟩, hst, heq⟩ := Except.bind_eq_ok.mp hf
    obtain rfl := Except.ok.inj heq
    obtain ⟨hs, -, hst⟩ := Except.bind_eq_ok.mp hst
    obtain ⟨-, rfl⟩ := Prod.mk.inj (Except.ok.inj hst)
    intro o ho x hx
    have hmem : x ∈ (hs.flatMap (Forwarder.sendBroadcast m env)).filterMap FwdOut.message :=
      List.mem_filterMap.mpr ⟨o, ho, hx⟩
    rw [Forwarder.sendBroadcast_message] at hmem
    obtain ⟨h, -, rfl⟩ := List.mem_map.mp hmem
    rfl

section
variable {α : Type} [DecidableEq α] {cfg : AgentConfig α} {s : Agent α} {tr : ClientHistory α}
variable {param : InitMqClientSdkParam}

omit [DecidableEq α] in
theorem preserves_iff {m : PubMsg} :
    Preserves ops m (s.onDscMsg m) ↔ ∀ t, m = .topic t → t.topicID = s.regMqTopicReq.clientID := by
  constructor
  · rintro ⟨hlookup, -⟩ t rfl
    exact (Option.some.inj hlookup).symm
  · intro hid
    have hcontent : (s.onDscMsg m).topicID = m.topicID ∧ (s.onDscMsg m).msgBlob = m.msgBlob ∧
        (s.onDscMsg m).lookup = m.lookup := by
      cases m with
      | topic t => simp [Agent.onDscMsg, PubMsg.topicID, PubMsg.msgBlob, PubMsg.lookup, ← hid t rfl]
      | addr m => exact ⟨rfl, rfl, rfl⟩
      | broadcast m => exact ⟨rfl, rfl, rfl⟩
    obtain ⟨htopic, hblob, hlookup⟩ := hcontent
    refine ⟨hlookup, fun f env outs hf o ho => ?_⟩
    have hcarries := forward_carries hf o ho
    unfold Carries at hcarries ⊢
    rw [htopic, hblob] at hcarries
    exact hcarries

/-- While a forwarder is connected a published message goes to one, and arrives as it was published
exactly when it is no topic message, or one whose topic is the id of the publisher. -/
theorem published_iff (hr : Run (Agent.clientStep cfg) (Agent.start param) anyStep tr s)
    (hne : s.handlerSessionArray.elems ≠ []) (m : PubMsg) (fails : Bool) :
    (∃ s' h m' outs, s.publish m fails = .ok (s', .pub h m' :: outs) ∧ h ∈ s.connections ∧ Preserves ops m m') ↔
      ∀ t, m = .topic t → t.topicID = s.regMqTopicReq.clientID := by
  obtain ⟨s', outs, heq, -, hsent⟩ := (Agent.Live.of_run hr).sendDscMsg (s.onDscMsg m) fails
  obtain ⟨h, hmem, outs', rfl⟩ := hsent hne
  have hiff : Preserves ops m (s.onDscMsg m) ↔ ∀ t, m = .topic t → t.topicID = s.regMqTopicReq.clientID := preserves_iff
  rw [← hiff]
  constructor
  · rintro ⟨s₁, h₁, m₁, outs₁, heq₁, -, hpres⟩
    obtain ⟨-, houts⟩ := Prod.mk.inj (Except.ok.inj (heq.symm.trans heq₁))
    obtain ⟨hpub, -⟩ := List.cons.inj houts
    obtain ⟨-, rfl⟩ := ClientOut.pub.inj hpub
    exact hpres
  · intro hpres
    exact ⟨s', h, _, outs', heq, hmem, hpres⟩

end

section

/-- No id of its own, and topics 7 and 8. -/
def anyID : InitMqClientSdkParam := ⟨0, [7, 8]⟩

/-- The scheduler gives the client the id 5 and the address of a forwarder, which connects. -/
def clientFive : List (ClientAct (UInt16 × Blob)) :=
  [.service (.regMqClientAddrRsp ⟨5, [⟨9001, [49]⟩]⟩), .service (.connectedNodify ⟨1, 9001, [49]⟩ false)]

theorem published_five : ∃ s' h m' outs,
    (final (Agent.clientStep Agent.sockAddr) (Agent.start anyID) clientFive).publish (.topic ⟨5, [1]⟩) true =
      .ok (s', .pub h m' :: outs) ∧ h ∈ (final (Agent.clientStep Agent.sockAddr) (Agent.start anyID) clientFive).connections ∧
    Preserves tables (.topic ⟨5, [1]⟩) m' :=
  (published_iff (run_trace_any clientFive) (by decide) (.topic ⟨5, [1]⟩) true).mpr fun t ht => by
    obtain rfl := PubMsg.topic.inj ht
    rfl

/-- What the client publishes on topic 7 goes out on topic 5. -/
theorem published_elsewhere : ¬∀ (cfg : AgentConfig (UInt16 × Blob)) (tr : ClientHistory (UInt16 × Blob))
    (s : Agent (UInt16 × Blob)), Run (Agent.clientStep cfg) (Agent.start anyID) anyStep tr s → s.handlerSessionArray.elems ≠ [] →
    ∀ m fails, ∃ s' h m' outs, s.publish m fails = .ok (s', .pub h m' :: outs) ∧ h ∈ s.connections ∧
      Preserves tables m m' := by
  intro hall
  obtain ⟨s', h, m', outs, heq, -, hpres⟩ :=
    hall Agent.sockAddr _ _ (run_trace_any clientFive) (by decide) (.topic ⟨7, [1]⟩) false
  obtain ⟨-, houts⟩ := Prod.mk.inj (Except.ok.inj heq)
  obtain ⟨hpub, -⟩ := List.cons.inj houts
  obtain ⟨-, rfl⟩ := ClientOut.pub.inj hpub
  cases hpres.lookup

end

end

end VProtocol.Mq
