import Mathlib.Data.List.Flatten
import VProtocol.Idc.Pending
import VProtocol.Idc.Responses
import VProtocol.Lib.Component
import VProtocol.Lib.Network

/-!
# Clients and services of the identity chain

Nodes that run the client service and the service, and the messages between them, any of which
may be lost. The clients here may have peers and draw a nonce, so that they send what the client of
the source never comes to send. What the application of a client is told by a service are
responses to requests that it made to this service, each to another one.
-/

namespace VProtocol.Idc

open Crypt (DscBlob emptyBlob)

/-! ## Nodes -/

section
variable {ι : Type} [DecidableEq ι]

/-- `connected` tells whether the client finds a peer. -/
structure PeeredEnv extends ApiEnv where
  connected : Bool

/-- What a request does at a client that may have peers, and whose seed is not null. -/
def ClientState.peeredReq (cfg : Config) (s : ClientState) (req : CommonApiCltReq) (env : PeeredEnv) :
    ClientState × List ClientOut :=
  if env.connected then
    let r := s.client.sendReq cfg req env.toApiEnv
    let s := if r.2.isEmpty then s else s.insert req.reqID
    ({ s with client := r.1 }, r.2.map .hts)
  else (s, [])

/-- The client of the source, which has no peers, does what this one does without a connection. -/
theorem apiReq_peered {cfg : Config} {s s' : ClientState} {req : CommonApiCltReq} {env : ApiEnv}
    {outs : List ClientOut} (hpeers : s.client.kernelSession.peerSessionNum = 0)
    (hst : clientStep cfg s (.apiReq req env) = .ok (s', outs)) :
    (s', outs) = s.peeredReq cfg req { env with connected := false } := by
  obtain ⟨c', hpeer, rfl, rfl⟩ := apiReq_ok hst
  rw [getMcpHandler_none hpeers] at hpeer
  obtain ⟨rfl, -⟩ := Prod.mk.inj (Except.ok.inj hpeer)
  rfl

/-- A process that has both services. -/
structure ChainNode where
  client : ClientState
  service : State

/-- A request comes on a connection, which the service knows by its handle. -/
inductive ChainMsg where
  | commonReq (handleID : UInt32) (req : CommonCltSrvReq)
  | commonRsp (rsp : CommonSrvCltRsp)

/-- What comes to a node from its application, the ledger and its timers. A request of the
application goes to the service and on the connection that the choice of a peer gives. -/
inductive ChainCall (ι : Type) where
  | initSdk (callback : Bool)
  | apiReq (v : ι) (handleID : UInt32) (req : CommonApiCltReq) (env : PeeredEnv)
  | clientTimer (p : Ptr)
  | registUserRsp (rsp : RegistUserCltCltRsp)
  | queryUserInfoRsp (rsp : QueryUserInfoCltCltRsp) (env : AnswerEnv)
  | serviceTimer (p : Ptr)

inductive ChainOut (ι : Type) where
  | client (o : ClientOut)
  | asked (v : ι) (handleID : UInt32) (o : ClientOut)
  | service (o : Out)

abbrev ChainFault := ClientFault ⊕ Fault

namespace ChainNode
variable (cfg : Config)

def clientStep (s : ChainNode) (f : ClientOut → ChainOut ι) (e : ClientEvent) :
    Except ChainFault (ChainNode × List (ChainOut ι)) :=
  match Idc.clientStep cfg s.client e with
  | .ok (client, outs) => .ok ({ s with client }, outs.map f)
  | .error fault => .error (.inl fault)

def serviceStep (s : ChainNode) (e : Event) : Except ChainFault (ChainNode × List (ChainOut ι)) :=
  match Idc.step cfg s.service e with
  | .ok (service, outs) => .ok ({ s with service }, outs.map .service)
  | .error fault => .error (.inr fault)

def call (s : ChainNode) : ChainCall ι → Except ChainFault (ChainNode × List (ChainOut ι))
  | .initSdk callback => s.clientStep cfg .client (.initSdk callback)
  | .apiReq v handleID req env =>
    let r := s.client.peeredReq cfg req env
    .ok ({ s with client := r.1 }, r.2.map (.asked v handleID))
  | .clientTimer p => s.clientStep cfg .client (.timer p)
  | .registUserRsp rsp => s.serviceStep cfg (.registUserRsp rsp)
  | .queryUserInfoRsp rsp env => s.serviceStep cfg (.queryUserInfoRsp rsp env)
  | .serviceTimer p => s.serviceStep cfg (.timer p)

end ChainNode

/-- `holder v h` is the node at the other end of connection `h` of node `v`. -/
def chainNode (cfg : Config) (holder : ι → UInt32 → Option ι) :
    Party ι ChainNode (ChainCall ι) ChainMsg (ChainOut ι) ChainFault where
  act _ s c := s.call cfg c
  take v c s
    | .commonReq handleID req =>
      -- what the handler of an update returns is not looked at
      if holder v handleID = some c then s.serviceStep cfg (.commonReq req handleID 0) else .ok (s, [])
    | .commonRsp rsp => s.clientStep cfg .client (.srvRsp rsp)
  sends v
    | .asked v' handleID (.hts req) => some (v', .commonReq handleID req)
    | .service (.hts _ handleID rsp) => (holder v handleID).map fun c => (c, .commonRsp rsp)
    | _ => none

abbrev Chain (ι : Type) := Network ι ChainNode ChainMsg

abbrev ChainEntry (ι : Type) := NetworkEntry ι ChainNode (ChainCall ι) ChainMsg (ChainOut ι)

abbrev ChainHistory (ι : Type) := List (ChainEntry ι)

/-- Clients that have no request on their way, and services that have these client sessions. -/
def chainStart (client : ι → Client) (m : ι → UInt32 → Option ClientSession) : Chain ι where
  party i := ⟨clientStart (client i), start (m i)⟩

/-! ## What a client asks and what it is told -/

/-- What the client of a node sends, and to which service. -/
def ChainCall.requests (cfg : Config) (s : ChainNode) : ChainCall ι → List (ι × CommonCltSrvReq)
  | .apiReq v _ req env =>
    if env.connected = true ∧ env.sendErr = false then [(v, s.client.client.request cfg req env.toApiEnv)] else []
  | _ => []

/-- The request that client `c` sends to service `v` in a step. -/
def askedOf (cfg : Config) (c v : ι) (en : ChainEntry ι) : List CommonCltSrvReq :=
  match en.ev with
  | .act c' call => if c' = c then (call.requests cfg (en.pre.party c)).filterMap (sentTo v) else []
  | _ => []

def ChainOut.rsp : ChainOut ι → Option CommonRsp
  | .client (.rsp r) => some r
  | _ => none

/-- What the application of client `c` is told by service `v` in a step. -/
def toldBy (v c : ι) (en : ChainEntry ι) : List CommonRsp :=
  match en.ev with
  | .deliver v' c' => if v' = v ∧ c' = c then en.outs.filterMap ChainOut.rsp else []
  | _ => []

/-- The response as the callback gets it. -/
def CommonSrvCltRsp.toRsp (rsp : CommonSrvCltRsp) : CommonRsp :=
  ⟨rsp.reqID.toInt32, rsp.returnCode.toInt32, rsp.type.toInt32, rsp.info⟩

/-! ## A service of the network -/

def ChainCall.serviceEvent : ChainCall ι → Option Event
  | .registUserRsp rsp => some (.registUserRsp rsp)
  | .queryUserInfoRsp rsp env => some (.queryUserInfoRsp rsp env)
  | .serviceTimer p => some (.timer p)
  | _ => none

def ChainMsg.serviceEvent (holder : ι → UInt32 → Option ι) (c v : ι) : ChainMsg → Option Event
  | .commonReq handleID req => if holder v handleID = some c then some (.commonReq req handleID 0) else none
  | .commonRsp _ => none

/-- What the service of node `v` does in a step. -/
def serviceView (holder : ι → UInt32 → Option ι) (v : ι) (n : Chain ι) : NetworkEvent ι (ChainCall ι) → Option Event
  | .act i c => if i = v then c.serviceEvent else none
  | .deliver c j => if j = v then (n.channel c v).head?.bind (ChainMsg.serviceEvent holder c v) else none
  | .lose _ _ _ => none

def ChainOut.ofService : ChainOut ι → Option Out
  | .service o => some o
  | _ => none

variable {cfg : Config} {holder : ι → UInt32 → Option ι} {s x : ChainNode} {outs : List (ChainOut ι)} {v c : ι}
  {n n' : Chain ι} {ev : NetworkEvent ι (ChainCall ι)} {tr : ChainHistory ι}

/-- What a step of a node is for its service. -/
structure Serves (cfg : Config) (s : ChainNode) (e : Option Event) (outs : List (ChainOut ι)) (x : ChainNode) : Prop where
  steps : ∀ e', e = some e' → Idc.step cfg s.service e' = .ok (x.service, outs.filterMap ChainOut.ofService)
  rests : e = none → x.service = s.service ∧ outs.filterMap ChainOut.ofService = []

omit [DecidableEq ι] in
theorem serviceStep_ok {e : Event} (h : s.serviceStep cfg e = .ok (x, outs)) :
    Serves cfg s (some e) outs x ∧ ∃ l : List Out, outs = l.map .service := by
  unfold ChainNode.serviceStep at h
  cases hst : Idc.step cfg s.service e with
  | error f =>
    simp only [hst] at h
    cases h
  | ok r =>
    obtain ⟨t, l⟩ := r
    simp only [hst] at h
    obtain ⟨rfl, rfl⟩ := Prod.mk.inj (Except.ok.inj h)
    refine ⟨⟨fun e' he => ?_, nofun⟩, l, rfl⟩
    obtain rfl := Option.some.inj he
    rw [hst, List.filterMap_map]
    simp [ChainOut.ofService, Function.comp_def]

omit [DecidableEq ι] in
theorem clientStep_ok {f : ClientOut → ChainOut ι} {e : ClientEvent} (h : s.clientStep cfg f e = .ok (x, outs)) :
    x.service = s.service ∧ ∃ (t : ClientState) (l : List ClientOut),
      Idc.clientStep cfg s.client e = .ok (t, l) ∧ outs = l.map f := by
  unfold ChainNode.clientStep at h
  cases hst : Idc.clientStep cfg s.client e with
  | error f =>
    simp only [hst] at h
    cases h
  | ok r =>
    obtain ⟨t, l⟩ := r
    simp only [hst] at h
    obtain ⟨rfl, rfl⟩ := Prod.mk.inj (Except.ok.inj h)
    exact ⟨rfl, t, l, rfl, rfl⟩

omit [DecidableEq ι] in
theorem clientStep_serves {f : ClientOut → ChainOut ι} {e : ClientEvent} (hf : ∀ o, (f o).ofService = none)
    (h : s.clientStep cfg f e = .ok (x, outs)) : Serves cfg s none outs x := by
  obtain ⟨hservice, -, l, -, rfl⟩ := clientStep_ok h
  refine ⟨nofun, fun _ => ⟨hservice, ?_⟩⟩
  rw [List.filterMap_map]
  simp [hf]

omit [DecidableEq ι] in
theorem call_serves {call : ChainCall ι} (h : s.call cfg call = .ok (x, outs)) :
    Serves cfg s call.serviceEvent outs x := by
  cases call with
  | initSdk callback => exact clientStep_serves (f := .client) (e := .initSdk callback) (fun _ => rfl) h
  | apiReq v handleID req env =>
    obtain ⟨rfl, rfl⟩ := Prod.mk.inj (Except.ok.inj h)
    refine ⟨nofun, fun _ => ⟨rfl, ?_⟩⟩
    rw [List.filterMap_map]
    simp [ChainOut.ofService, Function.comp_def]
  | clientTimer p => exact clientStep_serves (f := .client) (e := .timer p) (fun _ => rfl) h
  | registUserRsp rsp => exact (serviceStep_ok h).1
  | queryUserInfoRsp rsp env => exact (serviceStep_ok h).1
  | serviceTimer p => exact (serviceStep_ok h).1

theorem take_serves {m : ChainMsg} (h : (chainNode cfg holder).take v c s m = .ok (x, outs)) :
    Serves cfg s (m.serviceEvent holder c v) outs x := by
  cases m with
  | commonReq handleID req =>
    unfold ChainMsg.serviceEvent
    by_cases hc : holder v handleID = some c
    · simp only [chainNode, if_pos hc] at h ⊢
      exact (serviceStep_ok h).1
    · simp only [chainNode, if_neg hc] at h ⊢
      obtain ⟨rfl, rfl⟩ := Prod.mk.inj (Except.ok.inj h)
      exact ⟨nofun, fun _ => ⟨rfl, rfl⟩⟩
  | commonRsp rsp => exact clientStep_serves (f := .client) (e := .srvRsp rsp) (fun _ => rfl) h

theorem node_serves (hst : n.step (chainNode cfg holder) ev = .ok (n', outs)) (v : ι) :
    (ev.actor = some v → Serves cfg (n.party v) (serviceView holder v n ev) outs (n'.party v)) ∧
      (ev.actor ≠ some v → serviceView holder v n ev = none ∧ n'.party v = n.party v) := by
  cases Network.step_move hst with
  | @act i call x _ hx =>
    refine ⟨fun hv => ?_, fun hv => ?_⟩
    · obtain rfl := Option.some.inj hv
      simp only [Network.after, Function.update_self, serviceView, if_true]
      exact call_serves hx
    · have hi : i ≠ v := fun hi => hv (congrArg some hi)
      exact ⟨if_neg hi, Function.update_of_ne hi.symm _ _⟩
  | @idle c j hch =>
    refine ⟨fun hv => ?_, fun hv => ?_⟩
    · obtain rfl := Option.some.inj hv
      simp only [serviceView, hch, if_true, List.head?_nil, Option.bind_none]
      exact ⟨(fun _ h => by cases h), fun _ => ⟨rfl, rfl⟩⟩
    · have hj : j ≠ v := fun hj => hv (congrArg some hj)
      exact ⟨if_neg hj, rfl⟩
  | @take c j m rest x _ hch hx =>
    refine ⟨fun hv => ?_, fun hv => ?_⟩
    · obtain rfl := Option.some.inj hv
      simp only [Network.after, Function.update_self, serviceView, if_true, hch, List.head?_cons, Option.bind_some]
      exact take_serves hx
    · have hj : j ≠ v := fun hj => hv (congrArg some hj)
      exact ⟨if_neg hj, Function.update_of_ne hj.symm _ _⟩
  | lose => exact ⟨(fun h => by cases h), fun _ => ⟨rfl, rfl⟩⟩

/-- Its own runs are what a service does in the runs of the network. -/
theorem service_part (v : ι) : PartOf (Network.step (chainNode cfg holder)) (Idc.step cfg)
    (fun n => (n.party v).service) (serviceView holder v) ChainOut.ofService := by
  refine ⟨fun {s e s' outs e'} hst hview => ?_, fun {s e s' outs} hst hview => ?_⟩
  · by_cases hv : e.actor = some v
    · exact ((node_serves hst v).1 hv).steps e' hview
    · rw [((node_serves hst v).2 hv).1] at hview
      cases hview
  · by_cases hv : e.actor = some v
    · exact (((node_serves hst v).1 hv).rests hview).1
    · rw [((node_serves hst v).2 hv).2]

/-! ## Messages of a client and a service -/

def serviceEntry (holder : ι → UInt32 → Option ι) (v : ι) : ChainEntry ι → Option (Entry State Event Out) :=
  Entry.ofPart (fun n => (n.party v).service) (serviceView holder v) ChainOut.ofService

def serviceHistory (holder : ι → UInt32 → Option ι) (v : ι) (tr : ChainHistory ι) : History :=
  tr.filterMap (serviceEntry holder v)

/-- The connections of client `c` at service `v`. -/
def connectionsOf (holder : ι → UInt32 → Option ι) (v c : ι) (handleID : UInt32) : Bool := holder v handleID = some c

def ChainMsg.request : ChainMsg → Option CommonCltSrvReq
  | .commonReq _ req => some req
  | .commonRsp _ => none

def ChainMsg.response : ChainMsg → Option CommonSrvCltRsp
  | .commonReq _ _ => none
  | .commonRsp rsp => some rsp

theorem entry_requests (v c : ι) (en : ChainEntry ι) :
    ((serviceView holder v en.pre en.ev).bind (Event.requestOf (connectionsOf holder v c))).toList.Sublist
      (((Entry.receipts c en).filterMap (sentTo v)).filterMap ChainMsg.request) := by
  obtain ⟨n, ev, outs⟩ := en
  cases ev with
  | act i call =>
    unfold serviceView
    by_cases hi : i = v
    · cases call with
      | initSdk callback => simp [ChainCall.serviceEvent]
      | apiReq v handleID req env => simp [ChainCall.serviceEvent]
      | clientTimer p => simp [ChainCall.serviceEvent]
      | registUserRsp rsp => simp [hi, ChainCall.serviceEvent, Event.requestOf]
      | queryUserInfoRsp rsp env => simp [hi, ChainCall.serviceEvent, Event.requestOf]
      | serviceTimer p => simp [hi, ChainCall.serviceEvent, Event.requestOf]
    · simp [hi]
  | lose i j k => simp [serviceView]
  | deliver c' j =>
    unfold serviceView Entry.receipts
    by_cases hj : j = v
    · subst hj
      cases hch : n.channel c' j with
      | nil => simp [hch]
      | cons m rest =>
        cases m with
        | commonRsp rsp => simp [hch, ChainMsg.serviceEvent]
        | commonReq handleID req =>
          unfold ChainMsg.serviceEvent
          by_cases hh : holder j handleID = some c'
          · by_cases hc : c' = c
            · subst hc
              simp [hch, hh, Event.requestOf, connectionsOf, sentTo, ChainMsg.request]
            · simp [hch, hh, hc, Event.requestOf, connectionsOf]
          · simp [hch, hh]
    · simp [hj]

theorem requestsOf_service (v : ι) (k : UInt32 → Bool) (tr : ChainHistory ι) :
    requestsOf k (serviceHistory holder v tr) =
      tr.flatMap fun en => ((serviceView holder v en.pre en.ev).bind (Event.requestOf k)).toList := by
  unfold requestsOf serviceHistory
  rw [List.filterMap_filterMap, List.filterMap_eq_flatMap_toList]
  congr 1
  funext en
  unfold serviceEntry Entry.ofPart
  cases serviceView holder v en.pre en.ev with
  | none => rfl
  | some e => rfl

theorem responsesTo_service (v : ι) (k : UInt32 → Bool) (tr : ChainHistory ι) :
    responsesTo k (serviceHistory holder v tr) =
      tr.flatMap fun en => ((serviceEntry holder v en).toList.flatMap (·.outs)).filterMap (Out.responseTo k) := by
  unfold responsesTo serviceHistory
  rw [List.filterMap_flatMap, List.filterMap_eq_flatMap_toList (serviceEntry holder v), List.flatMap_assoc]
  simp only [List.filterMap_flatMap]

/-- The service has taken each request from the channel of its client. -/
theorem requests_taken (v c : ι) (tr : ChainHistory ι) :
    (requestsOf (connectionsOf holder v c) (serviceHistory holder v tr)).Sublist
      ((taken c v tr).filterMap ChainMsg.request) := by
  unfold taken
  rw [requestsOf_service, List.filterMap_flatMap, List.filterMap_flatMap]
  exact List.Sublist.flatMap_right tr fun en _ => entry_requests v c en

omit [DecidableEq ι] in
/-- The messages of a service that are responses to client `c`. -/
theorem responses_sent [DecidableEq ι] (v c : ι) (outs : List (ChainOut ι)) :
    ((outs.filterMap ((chainNode cfg holder).sends v)).filterMap (sentTo c)).filterMap ChainMsg.response =
      (outs.filterMap ChainOut.ofService).filterMap (Out.responseTo (connectionsOf holder v c)) := by
  simp only [List.filterMap_filterMap]
  congr 1
  funext o
  cases o with
  | client o => rfl
  | asked v' handleID o =>
    cases o with
    | rsp r => rfl
    | hts req =>
      by_cases hv : v' = c
      · simp [chainNode, sentTo, hv, ChainMsg.response, ChainOut.ofService]
      · simp [chainNode, sentTo, hv, ChainOut.ofService]
  | service o =>
    cases o with
    | registUser p req => rfl
    | queryUserInfo p req => rfl
    | hts p handleID rsp =>
      cases hh : holder v handleID with
      | none => simp [chainNode, hh, ChainOut.ofService, Out.responseTo, connectionsOf]
      | some c' =>
        by_cases hc : c' = c
        · simp [chainNode, hh, hc, sentTo, ChainMsg.response, ChainOut.ofService, Out.responseTo, connectionsOf]
        · simp [chainNode, hh, hc, sentTo, ChainOut.ofService, Out.responseTo, connectionsOf]

theorem entry_responses (hst : n.step (chainNode cfg holder) ev = .ok (n', outs)) (v c : ι) :
    ((Entry.dispatches (chainNode cfg holder) v ⟨n, ev, outs⟩).filterMap (sentTo c)).filterMap ChainMsg.response =
      ((serviceEntry holder v ⟨n, ev, outs⟩).toList.flatMap (·.outs)).filterMap (Out.responseTo (connectionsOf holder v c)) := by
  unfold Entry.dispatches serviceEntry Entry.ofPart
  by_cases hv : ev.actor = some v
  · rw [if_pos hv, responses_sent]
    cases hview : serviceView holder v n ev with
    | none => rw [(((node_serves hst v).1 hv).rests hview).2]; rfl
    | some e => simp
  · rw [if_neg hv, ((node_serves hst v).2 hv).1]
    rfl

def ChainOut.request : ChainOut ι → Option (ι × CommonCltSrvReq)
  | .asked v _ (.hts req) => some (v, req)
  | _ => none

theorem requests_sent (v c : ι) (outs : List (ChainOut ι)) :
    ((outs.filterMap ((chainNode cfg holder).sends c)).filterMap (sentTo v)).filterMap ChainMsg.request =
      (outs.filterMap ChainOut.request).filterMap (sentTo v) := by
  simp only [List.filterMap_filterMap]
  congr 1
  funext o
  cases o with
  | client o => rfl
  | asked v' handleID o =>
    cases o with
    | rsp r => rfl
    | hts req =>
      by_cases hv : v' = v
      · simp [chainNode, sentTo, hv, ChainMsg.request, ChainOut.request]
      · simp [chainNode, sentTo, hv, ChainOut.request]
  | service o =>
    cases o with
    | registUser p req => rfl
    | queryUserInfo p req => rfl
    | hts p handleID rsp =>
      cases hh : holder c handleID with
      | none => simp [chainNode, hh, ChainOut.request]
      | some c' =>
        by_cases hc : c' = v
        · simp [chainNode, hh, hc, sentTo, ChainMsg.request, ChainOut.request]
        · simp [chainNode, hh, hc, sentTo, ChainOut.request]

omit [DecidableEq ι] in
theorem client_requests (l : List ClientOut) : (l.map ChainOut.client).filterMap (ChainOut.request (ι := ι)) = [] := by
  simp [ChainOut.request, Function.comp_def]

omit [DecidableEq ι] in
theorem service_requests (l : List Out) : (l.map ChainOut.service).filterMap (ChainOut.request (ι := ι)) = [] := by
  simp [ChainOut.request, Function.comp_def]

omit [DecidableEq ι] in
theorem call_requests {call : ChainCall ι} (h : s.call cfg call = .ok (x, outs)) :
    outs.filterMap ChainOut.request = call.requests cfg s := by
  cases call with
  | initSdk callback =>
    have hst : s.clientStep cfg .client (.initSdk callback) = .ok (x, outs) := h
    obtain ⟨-, -, l, -, rfl⟩ := clientStep_ok hst
    exact client_requests l
  | clientTimer p =>
    have hst : s.clientStep cfg .client (.timer p) = .ok (x, outs) := h
    obtain ⟨-, -, l, -, rfl⟩ := clientStep_ok hst
    exact client_requests l
  | apiReq v handleID req env =>
    obtain ⟨-, rfl⟩ := Prod.mk.inj (Except.ok.inj h)
    unfold ClientState.peeredReq Client.sendReq ChainCall.requests
    cases hconnected : env.connected with
    | false => simp [hconnected]
    | true =>
      cases hsend : env.sendErr with
      | true => simp [hsend]
      | false => simp [hconnected, hsend, ChainOut.request]
  | registUserRsp rsp =>
    obtain ⟨-, l, rfl⟩ := serviceStep_ok h
    exact service_requests l
  | queryUserInfoRsp rsp env =>
    obtain ⟨-, l, rfl⟩ := serviceStep_ok h
    exact service_requests l
  | serviceTimer p =>
    obtain ⟨-, l, rfl⟩ := serviceStep_ok h
    exact service_requests l

theorem take_outs {m : ChainMsg} (h : (chainNode cfg holder).take v c s m = .ok (x, outs)) :
    outs.filterMap ChainOut.request = [] ∧
      outs.filterMap ChainOut.rsp = (m.response.map CommonSrvCltRsp.toRsp).toList := by
  cases m with
  | commonReq handleID req =>
    by_cases hc : holder v handleID = some c
    · simp only [chainNode, if_pos hc] at h
      obtain ⟨-, l, rfl⟩ := serviceStep_ok h
      refine ⟨service_requests l, ?_⟩
      simp [ChainOut.rsp, ChainMsg.response, Function.comp_def]
    · simp only [chainNode, if_neg hc] at h
      obtain ⟨rfl, rfl⟩ := Prod.mk.inj (Except.ok.inj h)
      exact ⟨rfl, rfl⟩
  | commonRsp rsp =>
    have hst : s.clientStep cfg .client (.srvRsp rsp) = .ok (x, outs) := h
    obtain ⟨-, t, l, hclient, rfl⟩ := clientStep_ok hst
    refine ⟨client_requests l, ?_⟩
    obtain ⟨-, rfl⟩ := srvRsp_ok hclient
    rfl

theorem entry_asked (hst : n.step (chainNode cfg holder) ev = .ok (n', outs)) (v c : ι) :
    ((Entry.dispatches (chainNode cfg holder) c ⟨n, ev, outs⟩).filterMap (sentTo v)).filterMap ChainMsg.request =
      askedOf cfg c v ⟨n, ev, outs⟩ := by
  unfold Entry.dispatches askedOf
  cases Network.step_move hst with
  | @act i call x _ hx =>
    by_cases hi : i = c
    · subst hi
      simp only [NetworkEvent.actor, if_true, requests_sent, call_requests hx]
    · simp [NetworkEvent.actor, hi]
  | idle => simp
  | @take i j m rest x _ hch hx =>
    by_cases hj : j = c
    · subst hj
      simp only [NetworkEvent.actor, if_true, requests_sent, (take_outs hx).1]
      rfl
    · simp [NetworkEvent.actor, hj]
  | lose => simp

theorem entry_told (hst : n.step (chainNode cfg holder) ev = .ok (n', outs)) (v c : ι) :
    (((Entry.receipts v ⟨n, ev, outs⟩).filterMap (sentTo c)).filterMap ChainMsg.response).map CommonSrvCltRsp.toRsp =
      toldBy v c ⟨n, ev, outs⟩ := by
  unfold Entry.receipts toldBy
  cases Network.step_move hst with
  | act hx => rfl
  | lose => rfl
  | @idle i j hch =>
    by_cases hi : i = v
    · subst hi
      simp [hch]
    · simp [hi]
  | @take i j m rest x _ hch hx =>
    by_cases hi : i = v
    · subst hi
      by_cases hj : j = c
      · subst hj
        simp only [hch, (take_outs hx).2, and_self, if_true]
        cases m with
        | commonReq handleID req => simp [sentTo, ChainMsg.response]
        | commonRsp rsp => simp [sentTo, ChainMsg.response]
      · simp [hch, hj, sentTo]
    · simp [hi]

/-! ## Runs of the network -/

variable {client : ι → Client} {m : ι → UInt32 → Option ClientSession}
  {C : ChainHistory ι → Chain ι → NetworkEvent ι (ChainCall ι) → Prop}

theorem flatMap_entries {β : Type} (hr : Run (Network.step (chainNode cfg holder)) (chainStart client m) C tr n)
    {f g : ChainEntry ι → List β}
    (h : ∀ {n ev outs n'}, n.step (chainNode cfg holder) ev = .ok (n', outs) → f ⟨n, ev, outs⟩ = g ⟨n, ev, outs⟩) :
    tr.flatMap f = tr.flatMap g := by
  apply List.flatMap_congr
  intro en hen
  obtain ⟨tr₁, tr₂, rfl⟩ := List.append_of_mem hen
  obtain ⟨n', -, -, hst⟩ := hr.entry rfl
  exact h hst

theorem sent_requests (hr : Run (Network.step (chainNode cfg holder)) (chainStart client m) C tr n) (v c : ι) :
    (sent (chainNode cfg holder) c v tr).filterMap ChainMsg.request = tr.flatMap (askedOf cfg c v) := by
  unfold sent
  rw [List.filterMap_flatMap, List.filterMap_flatMap]
  exact flatMap_entries hr fun hst => entry_asked hst v c

theorem sent_responses (hr : Run (Network.step (chainNode cfg holder)) (chainStart client m) C tr n) (v c : ι) :
    (sent (chainNode cfg holder) v c tr).filterMap ChainMsg.response =
      responsesTo (connectionsOf holder v c) (serviceHistory holder v tr) := by
  unfold sent
  rw [responsesTo_service, List.filterMap_flatMap, List.filterMap_flatMap]
  exact flatMap_entries hr fun hst => entry_responses hst v c

theorem taken_responses (hr : Run (Network.step (chainNode cfg holder)) (chainStart client m) C tr n) (v c : ι) :
    ((taken v c tr).filterMap ChainMsg.response).map CommonSrvCltRsp.toRsp = tr.flatMap (toldBy v c) := by
  unfold taken
  rw [List.filterMap_flatMap, List.filterMap_flatMap, List.map_flatMap]
  exact flatMap_entries hr fun hst => entry_told hst v c

/-- In every run each response that a client's application is told by a service answers another one of the
requests that this client has sent to this service. -/
theorem requests_answered (hr : Run (Network.step (chainNode cfg holder)) (chainStart client m) anyStep tr n) (v c : ι) :
    ∃ l : List (CommonCltSrvReq × CommonSrvCltRsp), (l.map Prod.fst).Subperm (tr.flatMap (askedOf cfg c v)) ∧
      tr.flatMap (toldBy v c) = l.map (·.2.toRsp) ∧ ∀ x ∈ l, Answers cfg (n.party v).service x.1 x.2 := by
  have hinit : ∀ i j : ι, (chainStart client m).channel i j = [] := fun _ _ => rfl
  have hservice : Run (Idc.step cfg) (start (m v)) anyStep (serviceHistory holder v tr) (n.party v).service :=
    (service_part v).run hr
  obtain ⟨l, q, hm⟩ := matched_of_run hservice (connectionsOf holder v c)
  have htold : ((taken v c tr).filterMap ChainMsg.response).Sublist (l.map Prod.snd) := by
    rw [hm.sent, ← sent_responses hr]
    exact ((List.sublist_append_left _ _).trans (Network.run_fifo hr hinit v c)).filterMap _
  have hasked : (requestsOf (connectionsOf holder v c) (serviceHistory holder v tr)).Sublist
      (tr.flatMap (askedOf cfg c v)) := by
    rw [← sent_requests hr]
    apply (requests_taken v c tr).trans
    exact ((List.sublist_append_left _ _).trans (Network.run_fifo hr hinit c v)).filterMap _
  obtain ⟨l', hsub, heq⟩ := List.sublist_map_iff.mp htold
  refine ⟨l', ?_, ?_, fun x hx => hm.answers x (hsub.subset hx)⟩
  · have hused : (l'.map Prod.fst).Subperm (requestsOf (connectionsOf holder v c) (serviceHistory holder v tr)) :=
      ((hsub.map _).trans (List.sublist_append_left _ _)).subperm.trans hm.once
    exact hused.trans hasked.subperm
  · rw [← taken_responses hr, heq, List.map_map]
    rfl

end

/-! ## Two registrations -/

section

def aRegister (reqID : UInt32) : CommonApiCltReq :=
  ⟨registerUserMsg, reqID, blobOf ((RegisterUserCltSrvReq.codec Crypt.plainCodec).encode ⟨5, blobOf [1]⟩)⟩

/-- The ledger answers the second request, and the timer the first. -/
def twoNodes : List (NetworkEvent Int (ChainCall Int)) :=
  let env : PeeredEnv := ⟨⟨blobOf [6], ⟨0, 0, 0, emptyBlob⟩, false⟩, true⟩
  [.act 1 (.initSdk true), .act 1 (.apiReq 2 5 (aRegister 77) env), .act 1 (.apiReq 2 5 (aRegister 78) env),
    .deliver 1 2, .deliver 1 2, .act 2 (.registUserRsp ⟨0, 1, blobOf [9]⟩), .act 2 (.serviceTimer 0),
    .deliver 2 1, .deliver 2 1]

def twoHolder (v : Int) (handleID : UInt32) : Option Int := if v = 2 ∧ handleID = 5 then some 1 else none

def twoStart : Chain Int :=
  chainStart (fun _ => { peerEnvelopeKey := tagged.peerEnvelopeKey, userEnvelopeKey := blobOf [1, 2] }) fun _ _ => none

theorem requests_answered_two : ∃ (tr : ChainHistory Int) (n : Chain Int),
    Run (Network.step (chainNode tagged twoHolder)) twoStart anyStep tr n ∧
    (tr.flatMap (toldBy 2 1)).map (·.reqID) = [78, 77] ∧
    ∃ l : List (CommonCltSrvReq × CommonSrvCltRsp), (l.map Prod.fst).Subperm (tr.flatMap (askedOf tagged 1 2)) ∧
      tr.flatMap (toldBy 2 1) = l.map (·.2.toRsp) ∧ ∀ x ∈ l, Answers tagged (n.party 2).service x.1 x.2 := by
  have hr : Run (Network.step (chainNode tagged twoHolder)) twoStart anyStep _ _ := run_trace_any twoNodes
  exact ⟨_, _, hr, by decide, requests_answered hr 2 1⟩

end

end VProtocol.Idc
