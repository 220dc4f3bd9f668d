import VProtocol.Lib.Update
import VProtocol.P2p.Registry

/-!
# Subscriptions and the order of connections

A node, its peers and the subscriptions that are on their way to each peer. A peer is sent the
list in force when it connects, and every list from then on; it adds up what it is sent, while the
node keeps the last list only. So a late peer misses what an early one was told, unless it is in the
list in force or comes again.
-/

namespace VProtocol.P2p

open Function (update)

section
variable {α : Type} [LinearOrder α]

/-- `inbox` are the lists of the node that a peer has not received yet. -/
structure Net (α : Type) [LinearOrder α] where
  node : Callback α := {}
  peers : α → Callback α := fun _ => {}
  inbox : α → List (List Int32) := fun _ => []

/-- Anything may happen at the node and at a peer, and a peer may receive the next list of the node. -/
inductive NetEvent (α : Type) where
  | node (e : Event α)
  | peer (p : α) (e : Event α)
  | deliver (p : α)

def Out.subscription (p : α) : Out α → Option (List Int32)
  | .subMsgID addr l => if addr = p then some l else none
  | .pubMsg _ _ => none
  | .onMessage _ _ => none

abbrev NetHistory (α : Type) [LinearOrder α] := List (Entry (Net α) (NetEvent α) Unit)

namespace Net

/-- `own` is the address of the node. -/
def step (cfg : Config α) (own : α) (s : Net α) : NetEvent α → Res (Net α × List Unit)
  | .node e => do
    let r ← s.node.step cfg e
    .ok ({ s with node := r.1, inbox := fun p => s.inbox p ++ r.2.filterMap (Out.subscription p) }, [])
  | .peer p e => do
    let r ← (s.peers p).step cfg e
    .ok ({ s with peers := update s.peers p r.1 }, [])
  | .deliver p =>
    match s.inbox p with
    | [] => .ok (s, [])
    | l :: rest =>
      .ok ({ s with peers := update s.peers p ((s.peers p).onSubMsgID l own), inbox := update s.inbox p rest }, [])

/-- No disconnects, and the node's subscriptions reach a peer through its inbox only. -/
def Stays (own : α) (_ : NetHistory α) (_ : Net α) : NetEvent α → Prop
  | .node (.disConnected _) => False
  | .peer _ (.disConnected _) => False
  | .peer _ (.subMsgID _ src) => src ≠ own
  | _ => True

/-! ## What a peer should know -/

/-- The list in force, and for a connected peer the topics that were in force since it connected. -/
structure InForce where
  lst : List Int32 := []
  since : Option (List Int32) := none

def InForce.next (cfg : Config α) (p : α) (x : InForce) : NetEvent α → InForce
  | .node (.connected info) => if cfg.remoteAddr info = p then { x with since := some (x.since.getD x.lst) } else x
  | .node (.subP2pMqMsgID l) => { lst := l, since := x.since.map (· ++ l) }
  | _ => x

def inForce (cfg : Config α) (p : α) (tr : NetHistory α) : InForce :=
  tr.foldl (fun x en => x.next cfg p en.ev) {}

/-- The topics of the lists in force since the peer connected. -/
def topicsSince (cfg : Config α) (p : α) (tr : NetHistory α) : Option (List Int32) := (inForce cfg p tr).since

/-- What was in force since one peer connected was also in force since another one did. -/
def Repeated (cfg : Config α) (tr : NetHistory α) : Prop :=
  ∀ p q ts us, topicsSince cfg p tr = some ts → topicsSince cfg q tr = some us → ts ⊆ us

/-- All peers know the node under the same topics. -/
def Agree (own : α) (s : Net α) : Prop :=
  ∀ p ∈ s.node.setRemoteAddr.elems, ∀ q ∈ s.node.setRemoteAddr.elems, ∀ t,
    own ∈ (s.peers p).subscribers t ↔ own ∈ (s.peers q).subscribers t

/-! ## Peers add up what they are sent -/

structure Heard (cfg : Config α) (own : α) (tr : NetHistory α) (s : Net α) : Prop where
  lst : ∀ p, (inForce cfg p tr).lst = s.node.lstMsgID
  remote : ∀ p, p ∈ s.node.setRemoteAddr.elems ↔ (inForce cfg p tr).since.isSome
  topics : ∀ p t, (own ∈ (s.peers p).subscribers t ∨ ∃ l ∈ s.inbox p, t ∈ l) ↔
    ∃ ts, (inForce cfg p tr).since = some ts ∧ t ∈ ts

variable {cfg : Config α} {own p q : α} {s s' : Net α} {tr : NetHistory α} {outs : List Unit}

theorem inForce_append {en : Entry (Net α) (NetEvent α) Unit} :
    inForce cfg p (tr ++ [en]) = (inForce cfg p tr).next cfg p en.ev := by
  unfold inForce
  rw [List.foldl_append, List.foldl_cons, List.foldl_nil]

theorem Heard.quiet {e : NetEvent α} (hs : Heard cfg own tr s) (hnext : ∀ p x, InForce.next cfg p x e = x)
    (hlst : s'.node.lstMsgID = s.node.lstMsgID) (hset : s'.node.setRemoteAddr = s.node.setRemoteAddr)
    (hsub : ∀ p t, (own ∈ (s'.peers p).subscribers t ∨ ∃ l ∈ s'.inbox p, t ∈ l) ↔
      (own ∈ (s.peers p).subscribers t ∨ ∃ l ∈ s.inbox p, t ∈ l)) : Heard cfg own (tr ++ [⟨s, e, outs⟩]) s' := by
  have hsame : ∀ p, inForce cfg p (tr ++ [⟨s, e, outs⟩]) = inForce cfg p tr := by
    intro p
    rw [inForce_append, hnext]
  refine ⟨fun p => ?_, fun p => ?_, fun p t => ?_⟩
  · rw [hsame, hlst]
    exact hs.lst p
  · rw [hsame, hset]
    exact hs.remote p
  · rw [hsame, hsub]
    exact hs.topics p t

end Net

/-- The node stays where it is in a registry as long as it neither subscribes nor leaves. -/
theorem Callback.mem_subscribers_step {cfg : Config α} (own : α) {s s' : Callback α} {e : Event α} {outs : List (Out α)}
    (hs : s.Kept) (hst : s.step cfg e = .ok (s', outs)) (hdis : ∀ info, e ≠ .disConnected info)
    (hsrc : ∀ l, e ≠ .subMsgID l own) (t : Int32) : own ∈ s'.subscribers t ↔ own ∈ s.subscribers t := by
  cases e with
  | connected info =>
    have hout : s' = (s.onConnected cfg info).1 := (congrArg Prod.fst (Except.ok.inj hst)).symm
    rw [hout, subscribers_onConnected]
  | disConnected info => exact absurd rfl (hdis info)
  | subP2pMqMsgID l =>
    obtain ⟨rfl, -⟩ := Prod.mk.inj (Except.ok.inj hst)
    rfl
  | subMsgID l src =>
    obtain ⟨rfl, -⟩ := Prod.mk.inj (Except.ok.inj hst)
    rw [mem_subscribers_onSubMsgID]
    have hne : own ≠ src := by
      rintro rfl
      exact hsrc l rfl
    simp [hne]
  | publish msg poll target =>
    obtain ⟨s₁, outs₁, heq, -, -, -, hsub⟩ :=
      hs.onPubMsg cfg ((pubP2pMqMsgImpl msg poll).received cfg.codec target)
    obtain ⟨rfl, -⟩ := Prod.mk.inj (Except.ok.inj (heq.symm.trans hst))
    rw [hsub]
  | pubMsg msg src =>
    obtain ⟨rfl, -⟩ := Prod.mk.inj (Except.ok.inj hst)
    rfl

theorem Callback.onPubMsg_quiet {cfg : Config α} {s s' : Callback α} {m : PubMsg2CallbackService} {outs : List (Out α)}
    (h : s.onPubMsg2CallbackService cfg m = .ok (s', outs)) : s'.lstMsgID = s.lstMsgID ∧
      s'.setRemoteAddr = s.setRemoteAddr ∧ ∀ p, outs.filterMap (Out.subscription p) = [] := by
  unfold onPubMsg2CallbackService at h
  cases hfind : s.mapTopicRegistry.find m.topicID with
  | none =>
    simp only [hfind] at h
    obtain ⟨rfl, rfl⟩ := Prod.mk.inj (Except.ok.inj h)
    exact ⟨rfl, rfl, fun _ => rfl⟩
  | some S =>
    simp only [hfind] at h
    by_cases hpoll : m.pubMsgType = pollType
    · rw [if_pos hpoll] at h
      obtain ⟨r, -, heq⟩ := Except.bind_eq_ok.mp h
      obtain ⟨rfl, rfl⟩ := Prod.mk.inj (Except.ok.inj heq)
      exact ⟨rfl, rfl, fun _ => rfl⟩
    · rw [if_neg hpoll] at h
      obtain ⟨rfl, rfl⟩ := Prod.mk.inj (Except.ok.inj h)
      refine ⟨rfl, rfl, fun p => List.filterMap_eq_nil_iff.mpr fun o ho => ?_⟩
      obtain ⟨a, -, rfl⟩ := List.mem_map.mp ho
      rfl

namespace Net

variable {cfg : Config α} {own p q : α} {s s' : Net α} {tr : NetHistory α} {outs : List Unit}

/-! ## The node -/

theorem Heard.nodeQuiet {e : Event α} {node : Callback α} {outs' : List (Out α)} (hs : Heard cfg own tr s)
    (hnext : ∀ p x, InForce.next cfg p x (.node e) = x) (hlst : node.lstMsgID = s.node.lstMsgID)
    (hset : node.setRemoteAddr = s.node.setRemoteAddr) (hsent : ∀ p, outs'.filterMap (Out.subscription p) = []) :
    Heard cfg own (tr ++ [⟨s, .node e, outs⟩])
      { s with node, inbox := fun p => s.inbox p ++ outs'.filterMap (Out.subscription p) } := by
  refine hs.quiet hnext hlst hset fun p t => ?_
  simp only [hsent, List.append_nil]

theorem Heard.connected {info : ConnectInfo} (hs : Heard cfg own tr s) :
    Heard cfg own (tr ++ [⟨s, .node (.connected info), outs⟩])
      { s with
        node := (s.node.onConnected cfg info).1
        inbox := fun p => s.inbox p ++ (s.node.onConnected cfg info).2.filterMap (Out.subscription p) } := by
  have hother : ∀ p, cfg.remoteAddr info ≠ p →
      inForce cfg p (tr ++ [⟨s, .node (.connected info), outs⟩]) = inForce cfg p tr := by
    intro p hp
    rw [inForce_append]
    exact if_neg hp
  have hthis : inForce cfg (cfg.remoteAddr info) (tr ++ [⟨s, .node (.connected info), outs⟩]) =
      { inForce cfg (cfg.remoteAddr info) tr with
        since := some ((inForce cfg (cfg.remoteAddr info) tr).since.getD s.node.lstMsgID) } := by
    rw [inForce_append, ← hs.lst (cfg.remoteAddr info)]
    exact if_pos rfl
  unfold Callback.onConnected
  by_cases hmem : cfg.remoteAddr info ∈ s.node.setRemoteAddr.elems
  · -- a peer that is connected already
    obtain ⟨ts, hts⟩ := Option.isSome_iff_exists.mp ((hs.remote _).mp hmem)
    have hsame : ∀ p, inForce cfg p (tr ++ [⟨s, .node (.connected info), outs⟩]) = inForce cfg p tr := by
      intro p
      by_cases hp : cfg.remoteAddr info = p
      · rw [← hp, hthis, hts, Option.getD_some, ← hts]
      · exact hother p hp
    simp only [if_pos hmem, List.filterMap_nil, List.append_nil]
    refine ⟨fun p => ?_, fun p => ?_, fun p t => ?_⟩
    · rw [hsame]
      exact hs.lst p
    · rw [hsame]
      exact hs.remote p
    · rw [hsame]
      exact hs.topics p t
  · simp only [if_neg hmem]
    have hnone : (inForce cfg (cfg.remoteAddr info) tr).since = none := by
      rw [← Option.not_isSome_iff_eq_none, ← hs.remote]
      exact hmem
    rw [hnone, Option.getD_none] at hthis
    refine ⟨fun p => ?_, fun p => ?_, fun p t => ?_⟩
    · by_cases hp : cfg.remoteAddr info = p
      · rw [← hp, hthis]
        exact hs.lst _
      · rw [hother p hp]
        exact hs.lst p
    · rw [OrderedSet.mem_insert]
      by_cases hp : cfg.remoteAddr info = p
      · rw [← hp, hthis]
        simp
      · rw [hother p hp]
        simpa [Ne.symm hp] using hs.remote p
    · have htopics := hs.topics p t
      by_cases hp : cfg.remoteAddr info = p
      · subst hp
        rw [hnone] at htopics
        have hempty : ¬(own ∈ (s.peers (cfg.remoteAddr info)).subscribers t ∨
            ∃ l ∈ s.inbox (cfg.remoteAddr info), t ∈ l) := by
          rw [htopics]
          simp
        obtain ⟨hsub, hbox⟩ := not_or.mp hempty
        rw [hthis]
        simp only [hsub, false_or, List.filterMap_cons, Out.subscription, if_true, List.filterMap_nil, List.mem_append,
          List.mem_singleton, or_and_right, exists_or, hbox, exists_eq_left, Option.some.injEq, exists_eq_left']
      · rw [hother p hp]
        simpa [Out.subscription, hp] using htopics

theorem Heard.subscribed {l : List Int32} (hs : Heard cfg own tr s) :
    Heard cfg own (tr ++ [⟨s, .node (.subP2pMqMsgID l), outs⟩])
      { s with
        node := (s.node.onSubMsgID2CallbackService l).1
        inbox := fun p => s.inbox p ++ (s.node.onSubMsgID2CallbackService l).2.filterMap (Out.subscription p) } := by
  have hnext : ∀ p, inForce cfg p (tr ++ [⟨s, .node (.subP2pMqMsgID l), outs⟩]) =
      { lst := l, since := (inForce cfg p tr).since.map (· ++ l) } := fun p => inForce_append
  have hsent : ∀ p t, (∃ l' ∈ (s.node.onSubMsgID2CallbackService l).2.filterMap (Out.subscription p), t ∈ l') ↔
      p ∈ s.node.setRemoteAddr.elems ∧ t ∈ l := by
    intro p t
    unfold Callback.onSubMsgID2CallbackService
    simp only [List.mem_filterMap, List.mem_map]
    constructor
    · rintro ⟨l', ⟨_, ⟨addr, hmem, rfl⟩, ho⟩, ht⟩
      by_cases hp : addr = p
      · subst hp
        rw [Out.subscription, if_pos rfl] at ho
        obtain rfl := Option.some.inj ho
        exact ⟨hmem, ht⟩
      · rw [Out.subscription, if_neg hp] at ho
        cases ho
    · rintro ⟨hmem, ht⟩
      exact ⟨l, ⟨_, ⟨p, hmem, rfl⟩, if_pos rfl⟩, ht⟩
  refine ⟨fun p => ?_, fun p => ?_, fun p t => ?_⟩
  · rw [hnext]
    rfl
  · rw [hnext]
    simpa [Callback.onSubMsgID2CallbackService] using hs.remote p
  · have htopics := hs.topics p t
    have hset := hs.remote p
    rw [hnext]
    simp only [List.mem_append, or_and_right, exists_or, hsent, ← or_assoc, htopics]
    cases hsince : (inForce cfg p tr).since with
    | none =>
      rw [hsince] at hset
      simp [hset]
    | some ts =>
      rw [hsince] at hset
      simp [hset]

/-! ## Steps -/

theorem Heard.step {e : NetEvent α} (hpeers : ∀ p, (s.peers p).Kept) (hs : Heard cfg own tr s) (hc : Stays own tr s e)
    (hst : s.step cfg own e = .ok (s', outs)) : Heard cfg own (tr ++ [⟨s, e, outs⟩]) s' := by
  cases e with
  | node e =>
    obtain ⟨⟨node, outs'⟩, hnode, heq⟩ := Except.bind_eq_ok.mp hst
    obtain ⟨rfl, -⟩ := Prod.mk.inj (Except.ok.inj heq)
    cases e with
    | connected info =>
      obtain hout := Except.ok.inj hnode
      rw [← hout]
      exact hs.connected
    | disConnected info => exact hc.elim
    | subP2pMqMsgID l =>
      obtain hout := Except.ok.inj hnode
      rw [← hout]
      exact hs.subscribed
    | subMsgID l src =>
      obtain ⟨rfl, rfl⟩ := Prod.mk.inj (Except.ok.inj hnode)
      exact hs.nodeQuiet (fun _ _ => rfl) rfl rfl fun _ => rfl
    | publish msg poll target =>
      obtain ⟨hlst, hset, hsent⟩ := Callback.onPubMsg_quiet hnode
      exact hs.nodeQuiet (fun _ _ => rfl) hlst hset hsent
    | pubMsg msg src =>
      obtain ⟨rfl, rfl⟩ := Prod.mk.inj (Except.ok.inj hnode)
      exact hs.nodeQuiet (fun _ _ => rfl) rfl rfl fun _ => rfl
  | peer p e =>
    obtain ⟨⟨peer, outs'⟩, hpeer, heq⟩ := Except.bind_eq_ok.mp hst
    obtain ⟨rfl, -⟩ := Prod.mk.inj (Except.ok.inj heq)
    refine hs.quiet (fun _ _ => rfl) rfl rfl fun q t => ?_
    by_cases hq : q = p
    · subst hq
      have hmem := Callback.mem_subscribers_step own (hpeers q) hpeer
        (by rintro info rfl; exact hc) (by rintro l rfl; exact hc rfl) t
      simp only [Function.update_self, hmem]
    · simp only [Function.update_of_ne hq]
  | deliver p =>
    cases hbox : s.inbox p with
    | nil =>
      simp only [Net.step, hbox] at hst
      obtain ⟨rfl, -⟩ := Prod.mk.inj (Except.ok.inj hst)
      exact hs.quiet (fun _ _ => rfl) rfl rfl fun _ _ => Iff.rfl
    | cons l rest =>
      simp only [Net.step, hbox] at hst
      obtain ⟨rfl, -⟩ := Prod.mk.inj (Except.ok.inj hst)
      refine hs.quiet (fun _ _ => rfl) rfl rfl fun q t => ?_
      by_cases hq : q = p
      · subst hq
        simp only [Function.update_self, Callback.mem_subscribers_onSubMsgID, hbox]
        simp [or_assoc]
      · simp only [Function.update_of_ne hq]

theorem Kept.step {e : NetEvent α} (hs : s.node.Kept ∧ ∀ p, (s.peers p).Kept)
    (hst : s.step cfg own e = .ok (s', outs)) : s'.node.Kept ∧ ∀ p, (s'.peers p).Kept := by
  cases e with
  | node e =>
    obtain ⟨⟨node, outs'⟩, hnode, heq⟩ := Except.bind_eq_ok.mp hst
    obtain ⟨rfl, -⟩ := Prod.mk.inj (Except.ok.inj heq)
    obtain ⟨s₁, outs₁, hstep, hkept⟩ := hs.1.step cfg e
    obtain ⟨rfl, -⟩ := Prod.mk.inj (Except.ok.inj (hstep.symm.trans hnode))
    exact ⟨hkept, hs.2⟩
  | peer p e =>
    obtain ⟨⟨peer, outs'⟩, hpeer, heq⟩ := Except.bind_eq_ok.mp hst
    obtain ⟨rfl, -⟩ := Prod.mk.inj (Except.ok.inj heq)
    obtain ⟨s₁, outs₁, hstep, hkept⟩ := (hs.2 p).step cfg e
    obtain ⟨rfl, -⟩ := Prod.mk.inj (Except.ok.inj (hstep.symm.trans hpeer))
    refine ⟨hs.1, fun q => ?_⟩
    by_cases hq : q = p
    · subst hq
      simpa only [Function.update_self] using hkept
    · simpa only [Function.update_of_ne hq] using hs.2 q
  | deliver p =>
    cases hbox : s.inbox p with
    | nil =>
      simp only [Net.step, hbox] at hst
      obtain ⟨rfl, -⟩ := Prod.mk.inj (Except.ok.inj hst)
      exact hs
    | cons l rest =>
      simp only [Net.step, hbox] at hst
      obtain ⟨rfl, -⟩ := Prod.mk.inj (Except.ok.inj hst)
      refine ⟨hs.1, fun q => ?_⟩
      by_cases hq : q = p
      · subst hq
        simpa only [Function.update_self] using (hs.2 q).onSubMsgID l own
      · simpa only [Function.update_of_ne hq] using hs.2 q

theorem Heard.of_run (hr : Run (Net.step cfg own) {} (Stays own) tr s) : Heard cfg own tr s := by
  have hall : (s.node.Kept ∧ ∀ p, (s.peers p).Kept) ∧ Heard cfg own tr s := by
    refine hr.invariant (fun tr s => (s.node.Kept ∧ ∀ p, (s.peers p).Kept) ∧ Heard cfg own tr s) ⟨?_, ?_⟩ ?_
    · exact ⟨Callback.kept_empty, fun _ => Callback.kept_empty⟩
    · refine ⟨fun _ => rfl, fun _ => ?_, fun _ _ => ?_⟩
      · simp [inForce, OrderedSet.empty]
      · simp [inForce, Callback.subscribers, Registry.find]
    · intro tr s e s' outs _ hs hc hst
      exact ⟨Kept.step hs.1 hst, hs.2.step hs.1.2 hc hst⟩
  exact hall.2

/-- When nothing is on its way to a connected peer any more, all of them know the node under the
same topics exactly when each was told whatever any of them was told. -/
theorem subscriptions_agree_iff (hr : Run (Net.step cfg own) {} (Stays own) tr s)
    (hbox : ∀ p ∈ s.node.setRemoteAddr.elems, s.inbox p = []) : Agree own s ↔ Repeated cfg tr := by
  have hs := Heard.of_run hr
  have hremote : ∀ p, p ∈ s.node.setRemoteAddr.elems ↔ ∃ ts, topicsSince cfg p tr = some ts := by
    intro p
    rw [hs.remote p]
    exact Option.isSome_iff_exists
  have hknown : ∀ p ts, topicsSince cfg p tr = some ts → ∀ t, own ∈ (s.peers p).subscribers t ↔ t ∈ ts := by
    intro p ts hts t
    have htopics := hs.topics p t
    rw [hbox p ((hremote p).mpr ⟨ts, hts⟩)] at htopics
    unfold topicsSince at hts
    simpa [hts] using htopics
  constructor
  · intro h p q ts us hts hus t ht
    have hp := (hremote p).mpr ⟨ts, hts⟩
    have hq := (hremote q).mpr ⟨us, hus⟩
    exact (hknown q us hus t).mp ((h p hp q hq t).mp ((hknown p ts hts t).mpr ht))
  · intro h p hp q hq t
    obtain ⟨ts, hts⟩ := (hremote p).mp hp
    obtain ⟨us, hus⟩ := (hremote q).mp hq
    rw [hknown p ts hts, hknown q us hus]
    exact ⟨fun ht => h p q ts us hts hus ht, fun ht => h q p us ts hus hts ht⟩

end Net

end

/-! ## An early peer and a late one -/

namespace Net

section

instance (tr : NetHistory Int) (s : Net Int) (e : NetEvent Int) : Decidable (Stays 1 tr s e) :=
  match e with
  | .node (.disConnected _) | .peer _ (.disConnected _) => isFalse id
  | .peer _ (.subMsgID _ _) => inferInstanceAs (Decidable (_ ≠ _))
  | .node (.connected _) | .node (.subP2pMqMsgID _) | .node (.subMsgID _ _) | .node (.publish _ _ _)
  | .node (.pubMsg _ _) | .peer _ (.connected _) | .peer _ (.subP2pMqMsgID _) | .peer _ (.publish _ _ _)
  | .peer _ (.pubMsg _ _) | .deliver _ => isTrue trivial

/-- The second peer connects after both calls. -/
def earlyAndLate (second : List Int32) : List (NetEvent Int) :=
  [.node (.subP2pMqMsgID [7]), .node (.connected ⟨1, 2⟩), .deliver 2, .node (.subP2pMqMsgID second),
    .node (.connected ⟨1, 3⟩), .deliver 2, .deliver 3]

theorem agree_again : Agree 1 (final (Net.step Callback.nodes 1) {} (earlyAndLate [7, 8])) := by
  have hr : Run (Net.step Callback.nodes 1) {} (Stays 1) _ _ := run_of_meets _ _ _ (earlyAndLate [7, 8]) (by decide)
  have helems : (final (Net.step Callback.nodes 1) {} (earlyAndLate [7, 8])).node.setRemoteAddr.elems = [2, 3] := by
    decide
  have hsince : ∀ p ts,
      topicsSince Callback.nodes p (trace (Net.step Callback.nodes 1) {} (earlyAndLate [7, 8])) = some ts →
      ts ⊆ [7, 8] ∧ [7, 8] ⊆ ts := by
    intro p ts hts
    have hp := ((Heard.of_run hr).remote p).mpr (Option.isSome_of_eq_some hts)
    rw [helems] at hp
    rcases List.mem_pair.mp hp with rfl | rfl
    · obtain rfl : [7, 7, 8] = ts := Option.some.inj hts
      decide
    · obtain rfl : [7, 8] = ts := Option.some.inj hts
      decide
  exact (subscriptions_agree_iff hr (by decide)).mpr fun p q ts us hts hus =>
    List.Subset.trans (hsince p ts hts).1 (hsince q us hus).2

/-- The list of the second call takes the place of the first one, which the late peer is never told. -/
theorem late_peer : ¬∀ (cfg : Config Int) (own : Int) (tr : NetHistory Int) (s : Net Int),
    Run (Net.step cfg own) {} (Stays own) tr s → (∀ p ∈ s.node.setRemoteAddr.elems, s.inbox p = []) → Agree own s := by
  intro hall
  have hr : Run (Net.step Callback.nodes 1) {} (Stays 1) _ _ := run_of_meets _ _ _ (earlyAndLate [8]) (by decide)
  have h := hall Callback.nodes 1 _ _ hr (by decide) 2 (by decide) 3 (by decide) 7
  exact absurd h (by decide)

end

end Net

end VProtocol.P2p
