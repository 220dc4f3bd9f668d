import VProtocol.Lib.Network
import VProtocol.P2p.Poll

/-!
# The peer-to-peer network

Nodes that run `CMqCallbackService`, and the messages on their way between them. Connections
come and go at each end of them at any time, and any message may be lost. What an application
gets from a node is a part of what was published there for it, in the same order, and all of
it where nothing is lost; it has asked for the topic, or the message was addressed to it.
-/

namespace VProtocol.P2p

section
variable {α : Type} [LinearOrder α]

/-- `MQ_ID::CSubMsgID` and `MQ_ID::CPubMsg`, the messages of one service to another. -/
inductive PeerMsg where
  | subMsgID (lstMsgID : List Int32)
  | pubMsg (msg : P2pMqMsg)
  deriving DecidableEq

/-- What comes to a node from its connections and from its application. -/
inductive Call where
  | connected (info : ConnectInfo)
  | disConnected (info : ConnectInfo)
  | subP2pMqMsgID (lstTopic : List Int32)
  | publish (msg : P2pMqMsg) (poll : Bool) (target : PubMsg2CallbackService)
  | pubP2pMqAddrMsg (msg : P2pMqMsg) (info : ConnectInfo)

/-- `PubP2pMqAddrMsg` does not pass through the service of its node. -/
def pubP2pMqAddrMsg (cfg : Config α) (msg : P2pMqMsg) (info : ConnectInfo) : Out α :=
  .pubMsg (cfg.remoteAddr info) msg

def Callback.call (cfg : Config α) (s : Callback α) : Call → Res (Callback α × List (Out α))
  | .connected info => s.step cfg (.connected info)
  | .disConnected info => s.step cfg (.disConnected info)
  | .subP2pMqMsgID lstTopic => s.step cfg (.subP2pMqMsgID lstTopic)
  | .publish msg poll target => s.step cfg (.publish msg poll target)
  | .pubP2pMqAddrMsg msg info => .ok (s, [pubP2pMqAddrMsg cfg msg info])

def PeerMsg.event (src : α) : PeerMsg → Event α
  | .subMsgID lstMsgID => .subMsgID lstMsgID src
  | .pubMsg msg => .pubMsg msg src

def Out.peerMsg : Out α → Option (α × PeerMsg)
  | .subMsgID addr lstMsgID => some (addr, .subMsgID lstMsgID)
  | .pubMsg addr msg => some (addr, .pubMsg msg)
  | .onMessage _ _ => none

/-- A node is named by the address of its service. -/
def peer (cfg : Config α) : Party α (Callback α) Call PeerMsg (Out α) Fault where
  act _ s c := s.call cfg c
  take _ src s m := s.step cfg (m.event src)
  sends _ := Out.peerMsg

abbrev Mesh (α : Type) [LinearOrder α] := Network α (Callback α) PeerMsg

abbrev MeshEntry (α : Type) [LinearOrder α] := NetworkEntry α (Callback α) Call PeerMsg (Out α)

abbrev MeshHistory (α : Type) [LinearOrder α] := List (MeshEntry α)

def meshStart : Mesh α where
  party _ := {}

/-! ## What should reach an application -/

/-- The nodes that a published message goes to. -/
def Callback.audience (s : Callback α) (msg : P2pMqMsg) (target : PubMsg2CallbackService) : List α :=
  match s.mapTopicRegistry.find msg.topicID with
  | none => []
  | some S => if target.pubMsgType = pollType then (S.addrSet.read S.it).toList else S.addrSet.elems

/-- What a call publishes, with the nodes that it is for. -/
def Callback.publishes (cfg : Config α) (s : Callback α) : Call → List (α × P2pMqMsg)
  | .publish msg _ target => (s.audience msg target).map fun a => (a, msg)
  | .pubP2pMqAddrMsg msg info => [(cfg.remoteAddr info, msg)]
  | _ => []

/-- What node `a` publishes in a step, with the nodes that it is for. -/
def publishedBy (cfg : Config α) (a : α) (en : MeshEntry α) : List (α × P2pMqMsg) :=
  match en.ev with
  | .act a' c => if a' = a then (en.pre.party a).publishes cfg c else []
  | _ => []

def Out.fromNode (a : α) : Out α → Option P2pMqMsg
  | .onMessage src msg => if src = a then some msg else none
  | _ => none

/-- What the application of a node is handed of node `a` in a step, with the node. -/
def handed (a : α) (en : MeshEntry α) : List (α × P2pMqMsg) :=
  match en.ev.actor with
  | some b => (en.outs.filterMap (Out.fromNode a)).map fun msg => (b, msg)
  | none => []

/-- The topics that the application of a node has asked for. -/
def asked (b : α) (tr : MeshHistory α) : List Int32 :=
  tr.flatMap fun en =>
    match en.ev with
    | .act b' (.subP2pMqMsgID lstTopic) => if b' = b then lstTopic else []
    | _ => []

structure Delivered (cfg : Config α) (tr : MeshHistory α) (s : Mesh α) : Prop where
  inOrder : ∀ a b, ((tr.flatMap (handed a)).filterMap (sentTo b)).Sublist
    ((tr.flatMap (publishedBy cfg a)).filterMap (sentTo b))
  whole : ∀ a b, Lossless a b tr → s.channel a b = [] →
    (tr.flatMap (handed a)).filterMap (sentTo b) = (tr.flatMap (publishedBy cfg a)).filterMap (sentTo b)
  once : ∀ a, (tr.flatMap (handed a)).Subperm (tr.flatMap (publishedBy cfg a))
  wanted : ∀ tr₁ en tr₂, tr = tr₁ ++ en :: tr₂ → ∀ a b msg, (b, msg) ∈ handed a en →
    (∃ en' ∈ tr₁, ∃ info, en'.ev = .act a (.pubP2pMqAddrMsg msg info) ∧ cfg.remoteAddr info = b) ∨
    (∃ en' ∈ tr₁, ∃ poll target, en'.ev = .act a (.publish msg poll target)) ∧ msg.topicID ∈ asked b tr₁

/-! ## Steps of a node -/

def PeerMsg.payload : PeerMsg → Option P2pMqMsg
  | .subMsgID _ => none
  | .pubMsg msg => some msg

def payloadTo (x : α × PeerMsg) : Option (α × P2pMqMsg) := x.2.payload.map fun msg => (x.1, msg)

omit [LinearOrder α] in
theorem payloadTo_pub (l : List α) (msg : P2pMqMsg) :
    ((l.map fun a => Out.pubMsg a msg).filterMap Out.peerMsg).filterMap payloadTo = l.map fun a => (a, msg) := by
  induction l with
  | nil => rfl
  | cons a l ih => exact congrArg ((a, msg) :: ·) ih

variable {cfg : Config α} {s s' : Callback α} {c : Call} {outs : List (Out α)} {a b : α} {t : Int32}

namespace Callback

theorem audience_subset {msg : P2pMqMsg} {target : PubMsg2CallbackService} (hs : s.Kept) :
    s.audience msg target ⊆ s.subscribers msg.topicID := by
  unfold audience
  cases hfind : s.mapTopicRegistry.find msg.topicID with
  | none => simp
  | some S =>
    rw [subscribers_some hfind]
    by_cases hraw : target.pubMsgType = pollType
    · obtain ⟨x, -⟩ := List.exists_mem_of_ne_nil _ (hs.sound _ S hfind).nonempty
      obtain ⟨a, hmem, hread, -⟩ := (hs.sound _ S hfind).getAddr x
      simp [hraw, hread, hmem]
    · simp [hraw]

theorem publish_audience {msg : P2pMqMsg} {poll : Bool} {target : PubMsg2CallbackService} (hs : s.Kept)
    (hst : s.step cfg (.publish msg poll target) = .ok (s', outs)) :
    outs = (s.audience msg target).map (fun a => .pubMsg a msg) ∧ s'.lstMsgID = s.lstMsgID := by
  unfold audience
  cases hfind : s.mapTopicRegistry.find msg.topicID with
  | none =>
    obtain ⟨rfl, rfl⟩ := Prod.mk.inj (Except.ok.inj (hst.symm.trans (publish_none hfind)))
    exact ⟨rfl, rfl⟩
  | some S =>
    by_cases hraw : target.pubMsgType = pollType
    · obtain ⟨a, -, hread, heq⟩ := publish_poll cfg poll hs hfind hraw
      obtain ⟨rfl, rfl⟩ := Prod.mk.inj (Except.ok.inj (hst.symm.trans heq))
      simp [hraw, hread]
    · obtain ⟨rfl, rfl⟩ := Prod.mk.inj (Except.ok.inj (hst.symm.trans (publish_broadcast hfind hraw)))
      simp [hraw]

/-- What a call sends and what it leaves. -/
structure Called (cfg : Config α) (s : Callback α) (c : Call) (outs : List (Out α)) (s' : Callback α) : Prop where
  pub : (outs.filterMap Out.peerMsg).filterMap payloadTo = s.publishes cfg c
  sub : ∀ b l, .subMsgID b l ∈ outs → l = s'.lstMsgID
  quiet : ∀ a, outs.filterMap (Out.fromNode a) = []
  lst : s'.lstMsgID = s.lstMsgID ∨ c = .subP2pMqMsgID s'.lstMsgID
  known : ∀ t, s'.subscribers t ⊆ s.subscribers t

theorem subscribers_onDisConnected (hs : s.Kept) (info : ConnectInfo) (t : Int32) :
    (s.onDisConnected cfg info).subscribers t ⊆ s.subscribers t := by
  by_cases hmem : cfg.remoteAddr info ∈ s.setRemoteAddr.elems
  · intro b hb
    exact ((hs.mem_subscribers_onDisConnected hmem).mp hb).2
  · have hsame : s.onDisConnected cfg info = s := if_neg hmem
    rw [hsame]
    exact List.Subset.refl _

theorem call_called (hs : s.Kept) (h : s.call cfg c = .ok (s', outs)) : Called cfg s c outs s' := by
  cases c with
  | connected info =>
    have heq : s.onConnected cfg info = (s', outs) := Except.ok.inj h
    unfold onConnected at heq
    by_cases hmem : cfg.remoteAddr info ∈ s.setRemoteAddr.elems
    · simp only [if_pos hmem] at heq
      obtain ⟨rfl, rfl⟩ := Prod.mk.inj heq
      exact ⟨rfl, nofun, fun _ => rfl, .inl rfl, fun _ => List.Subset.refl _⟩
    · simp only [if_neg hmem] at heq
      obtain ⟨rfl, rfl⟩ := Prod.mk.inj heq
      refine ⟨rfl, fun b l hl => ?_, fun _ => rfl, .inl rfl, fun _ => List.Subset.refl _⟩
      exact (Out.subMsgID.inj (List.mem_singleton.mp hl)).2
  | disConnected info =>
    obtain ⟨rfl, rfl⟩ := Prod.mk.inj (Except.ok.inj h)
    refine ⟨rfl, nofun, fun _ => rfl, .inl ?_, subscribers_onDisConnected hs info⟩
    unfold onDisConnected
    by_cases hmem : cfg.remoteAddr info ∈ s.setRemoteAddr.elems
    · simp only [if_pos hmem]
    · simp only [if_neg hmem]
  | subP2pMqMsgID lstTopic =>
    obtain ⟨rfl, rfl⟩ := Prod.mk.inj (Except.ok.inj h)
    refine ⟨?_, fun b l hl => ?_, fun a => ?_, .inr rfl, fun _ => List.Subset.refl _⟩
    · rw [List.filterMap_filterMap]
      simp [publishes, Out.peerMsg, payloadTo, PeerMsg.payload, Function.comp_def]
    · obtain ⟨_, -, heq⟩ := List.mem_map.mp hl
      exact (Out.subMsgID.inj heq).2.symm
    · simp [Out.fromNode, Function.comp_def]
  | publish msg poll target =>
    have hst : s.step cfg (.publish msg poll target) = .ok (s', outs) := h
    obtain ⟨rfl, hlst⟩ := publish_audience hs hst
    obtain ⟨s₁, outs₁, heq, -, -, -, hsub⟩ := hs.onPubMsg cfg ((pubP2pMqMsgImpl msg poll).received cfg.codec target)
    obtain ⟨rfl, -⟩ := Prod.mk.inj (Except.ok.inj (heq.symm.trans hst))
    refine ⟨payloadTo_pub _ msg, fun b l hl => ?_, fun a => ?_, .inl hlst, fun t => ?_⟩
    · obtain ⟨_, -, heq⟩ := List.mem_map.mp hl
      cases heq
    · simp [Out.fromNode, Function.comp_def]
    · rw [hsub]
      exact List.Subset.refl _
  | pubP2pMqAddrMsg msg info =>
    obtain ⟨rfl, rfl⟩ := Prod.mk.inj (Except.ok.inj h)
    refine ⟨rfl, fun b l hl => ?_, fun _ => rfl, .inl rfl, fun _ => List.Subset.refl _⟩
    cases List.mem_singleton.mp hl

theorem Kept.of_step (hs : s.Kept) (cfg : Config α) (e : Event α) (h : s.step cfg e = .ok (s', outs)) : s'.Kept := by
  obtain ⟨s₁, outs₁, heq, hkept⟩ := hs.step cfg e
  obtain ⟨rfl, -⟩ := Prod.mk.inj (Except.ok.inj (heq.symm.trans h))
  exact hkept

theorem Kept.call (hs : s.Kept) (h : s.call cfg c = .ok (s', outs)) : s'.Kept := by
  cases c with
  | connected info => exact hs.of_step cfg (.connected info) h
  | disConnected info => exact hs.of_step cfg (.disConnected info) h
  | subP2pMqMsgID lstTopic => exact hs.of_step cfg (.subP2pMqMsgID lstTopic) h
  | publish msg poll target => exact hs.of_step cfg (.publish msg poll target) h
  | pubP2pMqAddrMsg msg info =>
    obtain ⟨rfl, -⟩ := Prod.mk.inj (Except.ok.inj h)
    exact hs

end Callback

/-! ## Steps of the network -/

variable {n n' : Mesh α} {ev : NetworkEvent α Call} {tr : MeshHistory α}
  {C : MeshHistory α → Mesh α → NetworkEvent α Call → Prop}

theorem kept_of_run (hr : Run (Network.step (peer cfg)) meshStart C tr n) (i : α) : (n.party i).Kept := by
  refine Network.run_party (fun _ x => x.Kept) ?_ ?_ hr (fun _ => Callback.kept_empty) i
  · intro i x c x' outs hx hact
    exact hx.call hact
  · intro j i x m x' outs hx htake
    exact hx.of_step cfg (m.event i) htake

/-- What a node sends of what it publishes is what it publishes; a message that arrives is not passed on. -/
theorem dispatches_published (hkept : ∀ i, (n.party i).Kept) (hst : n.step (peer cfg) ev = .ok (n', outs)) (a : α) :
    (Entry.dispatches (peer cfg) a ⟨n, ev, outs⟩).filterMap payloadTo = publishedBy cfg a ⟨n, ev, outs⟩ := by
  cases Network.step_move hst with
  | @act k c x _ hx =>
    unfold Entry.dispatches publishedBy NetworkEvent.actor
    by_cases hk : k = a
    · subst hk
      simp only [if_pos]
      exact (Callback.call_called (hkept k) hx).pub
    · simp [hk]
  | idle => simp [Entry.dispatches, publishedBy]
  | @take i j m rest x _ hch hx =>
    cases m with
    | subMsgID l =>
      obtain ⟨rfl, rfl⟩ := Prod.mk.inj (Except.ok.inj hx)
      simp [Entry.dispatches, publishedBy]
    | pubMsg msg =>
      obtain ⟨rfl, rfl⟩ := Prod.mk.inj (Except.ok.inj hx)
      simp [Entry.dispatches, publishedBy, peer, Out.peerMsg]
  | lose => simp [Entry.dispatches, publishedBy]

theorem receipts_handed (hkept : ∀ i, (n.party i).Kept) (hst : n.step (peer cfg) ev = .ok (n', outs)) (a : α) :
    (Entry.receipts a ⟨n, ev, outs⟩).filterMap payloadTo = handed a ⟨n, ev, outs⟩ := by
  cases Network.step_move hst with
  | @act k c x _ hx =>
    unfold Entry.receipts handed NetworkEvent.actor
    simp [(Callback.call_called (hkept k) hx).quiet a]
  | @idle i j hch =>
    unfold Entry.receipts handed NetworkEvent.actor
    by_cases hi : i = a
    · simp [hi, hi ▸ hch]
    · simp [hi]
  | @take i j m rest x _ hch hx =>
    unfold Entry.receipts handed NetworkEvent.actor
    cases m with
    | subMsgID l =>
      obtain ⟨rfl, rfl⟩ := Prod.mk.inj (Except.ok.inj hx)
      by_cases hi : i = a
      · simp [hi, hi ▸ hch, payloadTo, PeerMsg.payload]
      · simp [hi]
    | pubMsg msg =>
      obtain ⟨rfl, rfl⟩ := Prod.mk.inj (Except.ok.inj hx)
      by_cases hi : i = a
      · simp [hi, hi ▸ hch, payloadTo, PeerMsg.payload, Out.fromNode]
      · simp [hi, Out.fromNode]
  | lose => simp [Entry.receipts, handed, NetworkEvent.actor]

/-! ## What was asked for -/

theorem asked_append {tr' : MeshHistory α} : asked b (tr ++ tr') = asked b tr ++ asked b tr' := List.flatMap_append

/-- What a node knows of the wishes of others, and what is on its way about them, was asked for. -/
structure Asked (tr : MeshHistory α) (n : Mesh α) : Prop where
  lst : ∀ b, (n.party b).lstMsgID ⊆ asked b tr
  channel : ∀ b a l, .subMsgID l ∈ n.channel b a → l ⊆ asked b tr
  known : ∀ a b t, b ∈ (n.party a).subscribers t → t ∈ asked b tr

theorem Asked.act {k : α} {x : Callback α} (hs : Asked tr n) (hc : Callback.Called cfg (n.party k) c outs x) :
    Asked (tr ++ [⟨n, .act k c, outs⟩]) (n.after (peer cfg) k x outs) := by
  have hlst : ∀ b, ((n.after (peer cfg) k x outs).party b).lstMsgID ⊆ asked b (tr ++ [⟨n, .act k c, outs⟩]) := by
    intro b t ht
    rw [asked_append]
    by_cases hb : b = k
    · subst hb
      simp only [Network.after, Function.update_self] at ht
      rcases hc.lst with hsame | rfl
      · rw [hsame] at ht
        exact List.mem_append_left _ (hs.lst b ht)
      · exact List.mem_append_right _ (by simpa [asked] using ht)
    · simp only [Network.after, Function.update_of_ne hb] at ht
      exact List.mem_append_left _ (hs.lst b ht)
  refine ⟨hlst, fun b a l hl => ?_, fun a b t hb => ?_⟩
  · rw [Network.channel_after] at hl
    rcases List.mem_append.mp hl with hl | hl
    · rw [asked_append]
      exact List.Subset.trans (hs.channel b a l hl) (List.subset_append_left _ _)
    · by_cases hk : k = b
      · -- a list that is sent is the one that the node keeps
        subst hk
        rw [if_pos rfl] at hl
        obtain ⟨⟨a', m⟩, hout, hto⟩ := List.mem_filterMap.mp hl
        obtain ⟨o, ho, hpeer⟩ := List.mem_filterMap.mp hout
        have hm : m = .subMsgID l := by
          unfold sentTo at hto
          split at hto
          · exact Option.some.inj hto
          · cases hto
        subst hm
        cases o with
        | subMsgID addr l' =>
          obtain ⟨rfl, heq⟩ := Prod.mk.inj (Option.some.inj hpeer)
          obtain rfl := PeerMsg.subMsgID.inj heq
          have hl := hlst k
          simpa [Network.after, ← hc.sub _ _ ho] using hl
        | pubMsg addr msg => cases (Prod.mk.inj (Option.some.inj hpeer)).2
        | onMessage src msg => cases hpeer
      · rw [if_neg hk] at hl
        cases hl
  · rw [asked_append]
    apply List.mem_append_left
    by_cases ha : a = k
    · subst ha
      simp only [Network.after, Function.update_self] at hb
      exact hs.known a b t (hc.known t hb)
    · simp only [Network.after, Function.update_of_ne ha] at hb
      exact hs.known a b t hb

theorem Asked.quiet (hs : Asked tr n) (hev : ∀ k c, ev ≠ .act k c)
    (hlst : ∀ b, (n'.party b).lstMsgID = (n.party b).lstMsgID)
    (hch : ∀ b a, n'.channel b a ⊆ n.channel b a)
    (hknown : ∀ a b t, b ∈ (n'.party a).subscribers t → b ∈ (n.party a).subscribers t ∨ t ∈ asked b tr) :
    Asked (tr ++ [⟨n, ev, outs⟩]) n' := by
  have hsame : ∀ b, asked b (tr ++ [⟨n, ev, outs⟩]) = asked b tr := by
    intro b
    rw [asked_append]
    cases ev with
    | act k c => exact absurd rfl (hev k c)
    | deliver i j => simp [asked]
    | lose i j k => simp [asked]
  refine ⟨fun b => ?_, fun b a l hl => ?_, fun a b t hb => ?_⟩
  · rw [hsame, hlst]
    exact hs.lst b
  · rw [hsame]
    exact hs.channel b a l (hch b a hl)
  · rw [hsame]
    exact (hknown a b t hb).elim (hs.known a b t) id

theorem Asked.step (hs : Asked tr n) (hkept : ∀ i, (n.party i).Kept) (hst : n.step (peer cfg) ev = .ok (n', outs)) :
    Asked (tr ++ [⟨n, ev, outs⟩]) n' := by
  cases Network.step_move hst with
  | @act k c x _ hx => exact hs.act (Callback.call_called (hkept k) hx)
  | idle => exact hs.quiet (fun _ _ h => by cases h) (fun _ => rfl) (fun _ _ => List.Subset.refl _) fun _ _ _ hb => .inl hb
  | @take i j m rest x _ hch hx =>
    have hparty : ∀ a, ((n.setChannel i j rest).after (peer cfg) j x outs).party a =
        if a = j then x else n.party a := by
      intro a
      by_cases ha : a = j
      · simp [Network.after, ha]
      · simp [Network.after, ha]
    have hsent : outs.filterMap Out.peerMsg = [] ∧ x.lstMsgID = (n.party j).lstMsgID ∧
        ∀ b t, b ∈ x.subscribers t → b ∈ (n.party j).subscribers t ∨ b = i ∧ ∃ l, m = .subMsgID l ∧ t ∈ l := by
      cases m with
      | subMsgID l =>
        obtain ⟨rfl, rfl⟩ := Prod.mk.inj (Except.ok.inj hx)
        refine ⟨rfl, rfl, fun b t hb => ?_⟩
        rcases Callback.mem_subscribers_onSubMsgID.mp hb with hb | ⟨hi, ht⟩
        · exact .inl hb
        · exact .inr ⟨hi, l, rfl, ht⟩
      | pubMsg msg =>
        obtain ⟨rfl, rfl⟩ := Prod.mk.inj (Except.ok.inj hx)
        exact ⟨rfl, rfl, fun b t hb => .inl hb⟩
    obtain ⟨hout, hlst, hknown⟩ := hsent
    refine hs.quiet (fun _ _ h => by cases h) (fun b => ?_) (fun b a l hl => ?_) fun a b t hb => ?_
    · rw [hparty]
      by_cases hb : b = j
      · rw [if_pos hb, hlst, hb]
      · rw [if_neg hb]
    · rw [Network.channel_after, Network.channel_setChannel] at hl
      simp only [peer, hout, List.filterMap_nil, ite_self, List.append_nil] at hl
      by_cases hi : b = i ∧ a = j
      · obtain ⟨rfl, rfl⟩ := hi
        rw [if_pos ⟨rfl, rfl⟩] at hl
        rw [hch]
        exact List.mem_cons_of_mem _ hl
      · rwa [if_neg hi] at hl
    · rw [hparty] at hb
      by_cases ha : a = j
      · rw [if_pos ha] at hb
        rcases hknown b t hb with hb | ⟨rfl, l, rfl, ht⟩
        · rw [ha]
          exact .inl hb
        · right
          apply hs.channel b j l _ ht
          rw [hch]
          exact List.mem_cons_self
      · rw [if_neg ha] at hb
        exact .inl hb
  | @lose i j k =>
    refine hs.quiet (fun _ _ h => by cases h) (fun _ => rfl) (fun b a l hl => ?_) fun _ _ _ hb => .inl hb
    rw [Network.channel_setChannel] at hl
    by_cases hi : b = i ∧ a = j
    · obtain ⟨rfl, rfl⟩ := hi
      rw [if_pos ⟨rfl, rfl⟩] at hl
      exact (List.eraseIdx_sublist _ _).subset hl
    · rwa [if_neg hi] at hl

theorem asked_of_run (hr : Run (Network.step (peer cfg)) meshStart C tr n) : Asked tr n := by
  refine hr.invariant Asked ⟨fun b => ?_, fun b a l hl => ?_, fun a b t hb => ?_⟩ ?_
  · simp [meshStart]
  · simp [meshStart] at hl
  · simp [meshStart, Callback.subscribers, Registry.find] at hb
  · intro tr n ev n' outs hr hs _ hst
    exact hs.step (kept_of_run hr) hst

/-! ## Runs of the network -/

theorem sentTo_payload (b : α) (l : List (α × PeerMsg)) :
    (l.filterMap payloadTo).filterMap (sentTo b) = (l.filterMap (sentTo b)).filterMap PeerMsg.payload := by
  rw [List.filterMap_filterMap, List.filterMap_filterMap]
  congr 1
  funext x
  obtain ⟨a, m⟩ := x
  cases m with
  | subMsgID l =>
    by_cases ha : a = b
    · simp [payloadTo, PeerMsg.payload, sentTo, ha]
    · simp [payloadTo, PeerMsg.payload, sentTo, ha]
  | pubMsg msg =>
    by_cases ha : a = b
    · simp [payloadTo, PeerMsg.payload, sentTo, ha]
    · simp [payloadTo, PeerMsg.payload, sentTo, ha]

/-- An entry of a run is a step of nodes whose registries are in order. -/
theorem step_of_mem (hr : Run (Network.step (peer cfg)) meshStart C tr n) {en : MeshEntry α} (hen : en ∈ tr) :
    (∀ i, (en.pre.party i).Kept) ∧ ∃ n', Network.step (peer cfg) en.pre en.ev = .ok (n', en.outs) := by
  obtain ⟨tr₁, tr₂, rfl⟩ := List.append_of_mem hen
  obtain ⟨n', hr', -, hst⟩ := hr.entry rfl
  exact ⟨kept_of_run hr', n', hst⟩

theorem flatMap_published (hr : Run (Network.step (peer cfg)) meshStart C tr n) (a : α) :
    (tr.flatMap (Entry.dispatches (peer cfg) a)).filterMap payloadTo = tr.flatMap (publishedBy cfg a) := by
  rw [List.filterMap_flatMap]
  apply List.flatMap_congr
  intro en hen
  obtain ⟨hkept, n', hst⟩ := step_of_mem hr hen
  exact dispatches_published hkept hst a

theorem flatMap_handed (hr : Run (Network.step (peer cfg)) meshStart C tr n) (a : α) :
    (tr.flatMap (Entry.receipts a)).filterMap payloadTo = tr.flatMap (handed a) := by
  rw [List.filterMap_flatMap]
  apply List.flatMap_congr
  intro en hen
  obtain ⟨hkept, n', hst⟩ := step_of_mem hr hen
  exact receipts_handed hkept hst a

/-- A message that is handed over was published before, for this node. -/
theorem published_before (hr : Run (Network.step (peer cfg)) meshStart C tr n) {tr₁ tr₂ : MeshHistory α}
    {en : MeshEntry α}
    (heq : tr = tr₁ ++ en :: tr₂) {msg : P2pMqMsg} (hm : (b, msg) ∈ handed a en) :
    ∃ en' ∈ tr₁, (b, msg) ∈ publishedBy cfg a en' := by
  obtain ⟨n', hr', -, hst⟩ := hr.entry heq
  rw [← receipts_handed (kept_of_run hr') hst a] at hm
  obtain ⟨⟨j, m⟩, hrec, hpay⟩ := List.mem_filterMap.mp hm
  have hch : m ∈ en.pre.channel a j := by
    unfold Entry.receipts at hrec
    split at hrec
    · split at hrec
      · rename_i hi
        subst hi
        obtain ⟨m', hm', heq'⟩ := List.mem_map.mp hrec
        obtain ⟨rfl, rfl⟩ := Prod.mk.inj heq'
        exact List.mem_of_mem_take hm'
      · cases hrec
    · cases hrec
  have hsent := Network.mem_sent hr' (fun _ _ => rfl) hch
  have hpub : (j, m) ∈ tr₁.flatMap (Entry.dispatches (peer cfg) a) := by
    obtain ⟨⟨j', m'⟩, hd, hto⟩ := List.mem_filterMap.mp hsent
    unfold sentTo at hto
    split at hto
    · rename_i hj
      obtain rfl := Option.some.inj hto
      obtain rfl : j' = j := hj
      exact hd
    · cases hto
  have hmem := List.mem_filterMap.mpr ⟨(j, m), hpub, hpay⟩
  rw [flatMap_published hr' a] at hmem
  exact List.mem_flatMap.mp hmem

/-- What was published for a node has its address, or is on a topic that it had asked for. -/
theorem published_asked (hr : Run (Network.step (peer cfg)) meshStart C tr n) {en : MeshEntry α} (hen : en ∈ tr)
    {msg : P2pMqMsg} (hm : (b, msg) ∈ publishedBy cfg a en) :
    (∃ info, en.ev = .act a (.pubP2pMqAddrMsg msg info) ∧ cfg.remoteAddr info = b) ∨
      ∃ poll target, en.ev = .act a (.publish msg poll target) ∧ msg.topicID ∈ asked b tr := by
  obtain ⟨tr₁, tr₂, rfl⟩ := List.append_of_mem hen
  obtain ⟨n', hr', -, -⟩ := hr.entry rfl
  obtain ⟨pre, ev, outs⟩ := en
  cases ev with
  | deliver i j => cases hm
  | lose i j k => cases hm
  | act a' c =>
    unfold publishedBy at hm
    by_cases ha : a' = a
    · subst ha
      simp only [if_pos] at hm
      cases c with
      | publish msg' poll target =>
        obtain ⟨b', hb, heq⟩ := List.mem_map.mp hm
        obtain ⟨rfl, rfl⟩ := Prod.mk.inj heq
        refine .inr ⟨poll, target, rfl, ?_⟩
        have hknown := (asked_of_run hr').known a' b' msg'.topicID
        rw [asked_append]
        exact List.mem_append_left _ (hknown (Callback.audience_subset (kept_of_run hr' a') hb))
      | pubP2pMqAddrMsg msg' info =>
        obtain ⟨rfl, rfl⟩ := Prod.mk.inj (List.mem_singleton.mp hm)
        exact .inl ⟨info, rfl, rfl⟩
      | connected info => cases hm
      | disConnected info => cases hm
      | subP2pMqMsgID l => cases hm
    · simp [ha] at hm

/-- Whatever connects, disconnects and is lost, and however the messages of the nodes overtake each other. -/
theorem messages_delivered (hr : Run (Network.step (peer cfg)) meshStart anyStep tr n) : Delivered cfg tr n := by
  have hinit : ∀ i j : α, (meshStart : Mesh α).channel i j = [] := fun _ _ => rfl
  refine ⟨fun a b => ?_, fun a b hloss hempty => ?_, fun a => ?_, fun tr₁ en tr₂ heq a b msg hm => ?_⟩
  · rw [← flatMap_handed hr a, ← flatMap_published hr a, sentTo_payload, sentTo_payload]
    apply List.Sublist.filterMap
    exact (List.sublist_append_left _ _).trans (Network.run_fifo hr hinit a b)
  · have hfull := Network.run_lossless hr hinit hloss
    rw [hempty, List.append_nil] at hfull
    rw [← flatMap_handed hr a, ← flatMap_published hr a, sentTo_payload, sentTo_payload]
    exact congrArg (List.filterMap PeerMsg.payload) hfull
  · rw [← flatMap_handed hr a, ← flatMap_published hr a]
    obtain ⟨l, hperm, hsub⟩ := Network.run_subperm hr hinit a
    exact ⟨l.filterMap payloadTo, hperm.filterMap _, hsub.filterMap _⟩
  · obtain ⟨en', hen', hpub⟩ := published_before hr heq hm
    obtain ⟨n', hr', -, -⟩ := hr.entry heq
    rcases published_asked hr' hen' hpub with ⟨info, hev, haddr⟩ | ⟨poll, target, hev, hasked⟩
    · exact .inl ⟨en', hen', info, hev, haddr⟩
    · exact .inr ⟨⟨en', hen', poll, target, hev⟩, hasked⟩

end

/-- The second node and the third ask for a topic and connect to the first one, which publishes on it twice. -/
def threeNodes : List (NetworkEvent Int Call) :=
  [.act 2 (.subP2pMqMsgID [7]), .act 3 (.subP2pMqMsgID [7, 8]), .act 2 (.connected ⟨1, 1⟩), .act 3 (.connected ⟨1, 1⟩),
    .deliver 2 1, .deliver 3 1, .act 1 (.publish Callback.hello false (Callback.anObject 0)),
    .act 1 (.publish Callback.hello true (Callback.anObject 1)), .deliver 1 3, .deliver 1 2, .lose 1 2 0]

theorem messages_delivered_three : ∃ (tr : MeshHistory Int) (n : Mesh Int),
    Run (Network.step (peer Callback.nodes)) meshStart anyStep tr n ∧
    tr.flatMap (handed 1) = [(3, Callback.hello), (2, Callback.hello)] ∧ Delivered Callback.nodes tr n := by
  have hr : Run (Network.step (peer Callback.nodes)) meshStart anyStep _ _ := run_trace_any threeNodes
  exact ⟨_, _, hr, by decide, messages_delivered hr⟩

end VProtocol.P2p
