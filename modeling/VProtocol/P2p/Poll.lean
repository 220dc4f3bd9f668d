import VProtocol.P2p.Registry

/-!
# Polls and broadcasts

A poll goes to one subscriber of its topic, and while these stay the same the polls reach them in
turn; a broadcast goes to each of them. The mode is not bound, though: the service branches on
what was in the message object that it reads into, so a message means what it says when that
happens to agree with its mode, or when it makes no difference.
-/

namespace VProtocol.P2p

section
variable {α : Type} [LinearOrder α]

/-! ## What a published message should do -/

/-- The event is a poll on the topic. -/
def Event.polls (t : Int32) : Event α → Bool
  | .publish msg poll _ => poll && msg.topicID == t
  | _ => false

def Out.receiver : Out α → Option α
  | .pubMsg addr _ => some addr
  | .subMsgID _ _ => none
  | .onMessage _ _ => none

/-- A poll on the topic goes to one of the subscribers, if there is one, and a broadcast once to each. -/
def Meant (t : Int32) (subs : List α) (en : Entry (Callback α) (Event α) (Out α)) : Prop :=
  ∀ msg poll target, en.ev = .publish msg poll target → msg.topicID = t →
    if poll then en.outs.length = min 1 subs.length ∧ ∀ o ∈ en.outs, ∃ a ∈ subs, o = .pubMsg a msg
    else en.outs = subs.map fun a => .pubMsg a msg

def pollsOn (t : Int32) (tr : History α) : History α := tr.filter fun en => en.ev.polls t

/-- Where the polls on the topic went. -/
def polled (t : Int32) (tr : History α) : List α := (pollsOn t tr).flatMap fun en => en.outs.filterMap Out.receiver

structure MeansWhatItSays (t : Int32) (subs : List α) (tr : History α) : Prop where
  each : ∀ en ∈ tr, Meant t subs en
  fair : ∀ a ∈ subs, (polled t tr).count a = (pollsOn t tr).length / subs.length ∨
    (polled t tr).count a = ((pollsOn t tr).length + subs.length - 1) / subs.length

/-- The mode that is read agrees with the one that was published, or makes no difference. -/
def ModeRead (t : Int32) (subs : List α) : Event α → Prop
  | .publish msg poll target => msg.topicID = t → subs.length ≤ 1 ∨ (target.pubMsgType = pollType ↔ poll = true)
  | _ => True

/-- The subscribers of the topic are these. -/
def Steady (t : Int32) (subs : List α) (_ : History α) (s : Callback α) (_ : Event α) : Prop := s.subscribers t = subs

namespace Callback

variable {cfg : Config α} {s s' s₀ : Callback α} {e : Event α} {outs : List (Out α)} {t : Int32} {S : SubMsgAddr α}
  {msg : P2pMqMsg} {poll : Bool} {target : PubMsg2CallbackService} {tr : History α} {subs : List α}

theorem publish_none (hfind : s.mapTopicRegistry.find msg.topicID = none) :
    s.step cfg (.publish msg poll target) = .ok (s, []) := by
  show s.onPubMsg2CallbackService cfg _ = _
  unfold onPubMsg2CallbackService pubP2pMqMsgImpl
  simp only [PubMsg2CallbackService.received_eq, hfind]

theorem publish_broadcast (hfind : s.mapTopicRegistry.find msg.topicID = some S) (hraw : target.pubMsgType ≠ pollType) :
    s.step cfg (.publish msg poll target) = .ok (s, S.addrSet.elems.map fun a => .pubMsg a msg) := by
  show s.onPubMsg2CallbackService cfg _ = _
  unfold onPubMsg2CallbackService pubP2pMqMsgImpl
  simp only [PubMsg2CallbackService.received_eq, hfind, if_neg hraw]

variable (cfg poll) in
theorem publish_poll (hs : s.Kept) (hfind : s.mapTopicRegistry.find msg.topicID = some S)
    (hraw : target.pubMsgType = pollType) : ∃ a ∈ S.addrSet.elems, S.addrSet.read S.it = some a ∧
      s.step cfg (.publish msg poll target) = .ok
        ({ s with mapTopicRegistry := s.mapTopicRegistry.set msg.topicID { S with it := S.addrSet.next a } },
          [.pubMsg a msg]) := by
  obtain ⟨a, hmem, hread, heq⟩ := (hs.sound _ S hfind).getAddr cfg.noAddr
  refine ⟨a, hmem, hread, ?_⟩
  show s.onPubMsg2CallbackService cfg _ = _
  unfold onPubMsg2CallbackService pubP2pMqMsgImpl
  simp only [PubMsg2CallbackService.received_eq, hfind, if_pos hraw, heq, Except.ok_bind]

theorem meant_iff (hs : s.Kept) (hsubs : s.subscribers t = subs) (hst : s.step cfg e = .ok (s', outs)) :
    Meant t subs ⟨s, e, outs⟩ ↔ ModeRead t subs e := by
  cases e with
  | connected info => simp [Meant, ModeRead]
  | disConnected info => simp [Meant, ModeRead]
  | subP2pMqMsgID l => simp [Meant, ModeRead]
  | subMsgID l src => simp [Meant, ModeRead]
  | pubMsg msg src => simp [Meant, ModeRead]
  | publish msg poll target =>
    have hiff : Meant t subs ⟨s, .publish msg poll target, outs⟩ ↔ (msg.topicID = t →
        if poll then outs.length = min 1 subs.length ∧ ∀ o ∈ outs, ∃ a ∈ subs, o = .pubMsg a msg
        else outs = subs.map fun a => .pubMsg a msg) := by
      constructor
      · intro h
        exact h msg poll target rfl
      · rintro h _ _ _ heq ht
        obtain ⟨rfl, rfl, rfl⟩ := Event.publish.inj heq
        exact h ht
    rw [hiff]
    unfold ModeRead
    refine forall_congr' fun ht => ?_
    subst ht
    cases hfind : s.mapTopicRegistry.find msg.topicID with
    | none =>
      obtain ⟨-, rfl⟩ := Prod.mk.inj (Except.ok.inj (hst.symm.trans (publish_none hfind)))
      rw [subscribers_none hfind] at hsubs
      subst hsubs
      cases poll with
      | true => simp
      | false => simp
    | some S =>
      rw [subscribers_some hfind] at hsubs
      have hne := (hs.sound _ S hfind).nonempty
      rw [hsubs] at hne
      have hpos := List.length_pos_iff.mpr hne
      by_cases hraw : target.pubMsgType = pollType
      · obtain ⟨a, hmem, -, heq⟩ := publish_poll cfg poll hs hfind hraw
        obtain ⟨-, rfl⟩ := Prod.mk.inj (Except.ok.inj (hst.symm.trans heq))
        rw [hsubs] at hmem
        cases poll with
        | true =>
          have hmin : min 1 subs.length = 1 := by omega
          simp [hmin, hraw, hmem]
        | false =>
          -- one message is a broadcast to a single subscriber
          have hone : [Out.pubMsg a msg] = subs.map (fun b => Out.pubMsg b msg) ↔ subs.length ≤ 1 := by
            constructor
            · intro h
              have hlen := congrArg List.length h
              simp at hlen
              omega
            · intro h
              obtain ⟨b, rfl⟩ := List.length_eq_one_iff.mp (by omega : subs.length = 1)
              rw [List.mem_singleton.mp hmem]
              rfl
          simp [hone, hraw]
      · obtain ⟨-, rfl⟩ := Prod.mk.inj (Except.ok.inj (hst.symm.trans (publish_broadcast hfind hraw)))
        rw [hsubs]
        cases poll with
        | true =>
          have hmin : subs.length = min 1 subs.length ↔ subs.length ≤ 1 := by omega
          simp [hraw, hmin]
        | false => simp [hraw]

theorem find_same (hs : s.Kept) (hst : s.step cfg e = .ok (s', outs)) (hfind : s.mapTopicRegistry.find t = some S)
    (hsame : s'.subscribers t = S.addrSet.elems)
    (hpoll : ∀ msg poll target, e = .publish msg poll target → msg.topicID = t → target.pubMsgType ≠ pollType) :
    s'.mapTopicRegistry.find t = some S := by
  cases e with
  | connected info =>
    have hout : s' = (s.onConnected cfg info).1 := (congrArg Prod.fst (Except.ok.inj hst)).symm
    rw [hout, mapTopicRegistry_onConnected]
    exact hfind
  | disConnected info =>
    obtain ⟨rfl, -⟩ := Prod.mk.inj (Except.ok.inj hst)
    by_cases hmem : cfg.remoteAddr info ∈ s.setRemoteAddr.elems
    · have hnot : cfg.remoteAddr info ∉ S.addrSet.elems := by
        intro h
        rw [← hsame, hs.mem_subscribers_onDisConnected hmem] at h
        exact h.1 rfl
      have herase : S.erase (cfg.remoteAddr info) = S := if_neg hnot
      have hempty : S.empty = false := by simpa [SubMsgAddr.empty] using (hs.sound t S hfind).nonempty
      unfold onDisConnected
      simp only [if_pos hmem]
      rw [Registry.find_eraseAddr hs.topics, hfind, Option.bind_some, herase, hempty]
      rfl
    · have hout : s.onDisConnected cfg info = s := if_neg hmem
      rw [hout]
      exact hfind
  | subP2pMqMsgID l =>
    obtain ⟨rfl, -⟩ := Prod.mk.inj (Except.ok.inj hst)
    exact hfind
  | subMsgID l src =>
    obtain ⟨rfl, -⟩ := Prod.mk.inj (Except.ok.inj hst)
    rw [find_onSubMsgID, hfind]
    by_cases ht : t ∈ l
    · have hmem : src ∈ S.addrSet.elems := by
        rw [← hsame]
        exact mem_subscribers_onSubMsgID.mpr (.inr ⟨rfl, ht⟩)
      have hinsert : S.insert src = S := if_pos hmem
      rw [if_pos ht, Option.getD_some, hinsert]
    · rw [if_neg ht]
  | publish msg poll target =>
    cases hfind' : s.mapTopicRegistry.find msg.topicID with
    | none =>
      obtain ⟨rfl, -⟩ := Prod.mk.inj (Except.ok.inj (hst.symm.trans (publish_none hfind')))
      exact hfind
    | some R =>
      by_cases hraw : target.pubMsgType = pollType
      · obtain ⟨a, -, -, heq⟩ := publish_poll cfg poll hs hfind' hraw
        obtain ⟨rfl, -⟩ := Prod.mk.inj (Except.ok.inj (hst.symm.trans heq))
        have hne : t ≠ msg.topicID := by
          rintro rfl
          exact hpoll msg poll target rfl rfl hraw
        have hsome : (s.mapTopicRegistry.find msg.topicID).isSome := by
          rw [hfind']
          rfl
        show Registry.find t (s.mapTopicRegistry.set _ _) = _
        rw [Registry.find_set hsome, if_neg hne]
        exact hfind
      · obtain ⟨rfl, -⟩ := Prod.mk.inj (Except.ok.inj (hst.symm.trans (publish_broadcast hfind' hraw)))
        exact hfind
  | pubMsg msg src =>
    obtain ⟨rfl, -⟩ := Prod.mk.inj (Except.ok.inj hst)
    exact hfind

/-! ## Polls in turn -/

theorem pollsOn_append {en : Entry (Callback α) (Event α) (Out α)} :
    pollsOn t (tr ++ [en]) = pollsOn t tr ++ if en.ev.polls t then [en] else [] := by
  unfold pollsOn
  rw [List.filter_append]
  cases h : en.ev.polls t with
  | true => simp [h]
  | false => simp [h]

theorem polled_append {en : Entry (Callback α) (Event α) (Out α)} :
    polled t (tr ++ [en]) = polled t tr ++ if en.ev.polls t then en.outs.filterMap Out.receiver else [] := by
  unfold polled
  rw [pollsOn_append, List.flatMap_append]
  cases en.ev.polls t with
  | true => simp
  | false => simp

omit [LinearOrder α] in
theorem polls_iff : e.polls t = true ↔ ∃ msg target, e = .publish msg true target ∧ msg.topicID = t := by
  cases e with
  | publish msg poll target =>
    simp only [Event.polls, Bool.and_eq_true, beq_iff_eq]
    constructor
    · rintro ⟨rfl, ht⟩
      exact ⟨msg, target, rfl, ht⟩
    · rintro ⟨msg', target', heq, ht⟩
      obtain ⟨rfl, rfl, rfl⟩ := Event.publish.inj heq
      exact ⟨rfl, ht⟩
  | connected info => simp [Event.polls]
  | disConnected info => simp [Event.polls]
  | subP2pMqMsgID l => simp [Event.polls]
  | subMsgID l src => simp [Event.polls]
  | pubMsg msg src => simp [Event.polls]

/-- With two subscribers or more every poll moves the cursor of the topic on, and nothing else does. -/
theorem turns_of_run (h₀ : s₀.Kept) (hlen : 2 ≤ subs.length)
    (hr : Run (Callback.step cfg) s₀ (fun tr s e => Steady t subs tr s e ∧ ModeRead t subs e) tr s)
    (hsubs : s.subscribers t = subs) : ∃ S₀ S, s₀.mapTopicRegistry.find t = some S₀ ∧
      s.mapTopicRegistry.find t = some S ∧ S.addrSet = S₀.addrSet ∧
      S₀.addrSet.Turns (S₀.addrSet.place S₀.it) (polled t tr) S.it ∧ (polled t tr).length = (pollsOn t tr).length := by
  have hfound : ∀ {s : Callback α}, s.subscribers t = subs → ∃ S, s.mapTopicRegistry.find t = some S := by
    intro s hs
    cases hfind : s.mapTopicRegistry.find t with
    | some S => exact ⟨S, rfl⟩
    | none =>
      rw [subscribers_none hfind] at hs
      rw [← hs] at hlen
      simp at hlen
  induction hr with
  | nil =>
    obtain ⟨S, hfind⟩ := hfound hsubs
    exact ⟨S, S, hfind, hfind, rfl, OrderedSet.turns_nil (h₀.sound t S hfind).valid, rfl⟩
  | @snoc tr s e s' outs hr hc hst ih =>
    obtain ⟨hsteady, hmode⟩ := hc
    obtain ⟨S₀, S, hfind₀, hfind, hset, hturns, hcount⟩ := ih hsteady
    have hkept : s.Kept := Kept.of_run h₀ hr
    have hS : S.addrSet.elems = subs := by
      rw [← subscribers_some hfind]
      exact hsteady
    rw [polled_append, pollsOn_append]
    by_cases hpolls : e.polls t = true
    · obtain ⟨msg, target, rfl, rfl⟩ := polls_iff.mp hpolls
      have hraw : target.pubMsgType = pollType := by
        rcases hmode rfl with hle | hiff
        · omega
        · exact hiff.mpr rfl
      obtain ⟨a, hmem, hread, heq⟩ := publish_poll cfg true hkept hfind hraw
      obtain ⟨rfl, rfl⟩ := Prod.mk.inj (Except.ok.inj (hst.symm.trans heq))
      have hsome : (s.mapTopicRegistry.find msg.topicID).isSome := by
        rw [hfind]
        rfl
      have hfind' : Registry.find msg.topicID (s.mapTopicRegistry.set msg.topicID { S with it := S.addrSet.next a }) =
          some { S with it := S.addrSet.next a } := by
        rw [Registry.find_set hsome, if_pos rfl]
      rw [hset] at hread
      have hnext := hturns.snoc hread
      rw [← hset] at hnext hturns
      refine ⟨S₀, _, hfind₀, hfind', hset, ?_, ?_⟩
      · simp only [if_pos hpolls]
        rw [← hset]
        exact hnext
      · simp only [if_pos hpolls, List.length_append, hcount]
        rfl
    · have hfind' : s'.mapTopicRegistry.find t = some S := by
        refine find_same hkept hst hfind (hsubs.trans hS.symm) fun msg poll target heq ht hraw => ?_
        subst heq
        rcases hmode ht with hle | hiff
        · omega
        · obtain rfl := hiff.mp hraw
          exact hpolls (polls_iff.mpr ⟨msg, target, rfl, ht⟩)
      simp only [if_neg hpolls, List.append_nil]
      exact ⟨S₀, S, hfind₀, hfind', hset, hturns, hcount⟩

theorem polled_single (hmeant : ∀ en ∈ tr, Meant t subs en) (hone : subs.length = 1) :
    ∀ a ∈ subs, (polled t tr).count a = (pollsOn t tr).length := by
  obtain ⟨b, rfl⟩ := List.length_eq_one_iff.mp hone
  intro a ha
  obtain rfl := List.mem_singleton.mp ha
  induction tr using List.reverseRecOn with
  | nil => rfl
  | append_singleton tr en ih =>
    rw [polled_append, pollsOn_append, List.count_append, List.length_append,
      ih fun en hen => hmeant en (List.mem_append_left _ hen)]
    by_cases hpolls : en.ev.polls t = true
    · obtain ⟨msg, target, hev, ht⟩ := polls_iff.mp hpolls
      have hen := hmeant en (List.mem_append_right _ (List.mem_singleton.mpr rfl)) msg true target hev ht
      simp only [if_true] at hen
      obtain ⟨hlen, hto⟩ := hen
      obtain ⟨o, ho⟩ := List.length_eq_one_iff.mp hlen
      obtain ⟨c, hc, rfl⟩ := hto o (by simp [ho])
      rw [List.mem_singleton.mp hc] at ho
      simp [hpolls, ho, Out.receiver]
    · simp [hpolls]

/-- While the subscribers of a topic stay the same, what is published on it means what it says
exactly when each message is read with its mode, or there is one subscriber at most. -/
theorem means_iff (cfg : Config α) {tr₀ : History α} (hr₀ : Run (Callback.step cfg) {} anyStep tr₀ s₀)
    (hr : Run (Callback.step cfg) s₀ (Steady t subs) tr s) (hsubs : s.subscribers t = subs) :
    MeansWhatItSays t subs tr ↔ Each (fun _ _ e => ModeRead t subs e) tr := by
  have h₀ : s₀.Kept := Kept.of_run kept_empty hr₀
  have heach : (∀ tr₁ en tr₂, tr = tr₁ ++ en :: tr₂ → Meant t subs en) ↔ Each (fun _ _ e => ModeRead t subs e) tr :=
    hr.each_iff fun _ _ _ _ _ hr _ hc hst => meant_iff (Kept.of_run h₀ hr) hc hst
  have hall : (∀ en ∈ tr, Meant t subs en) ↔ ∀ tr₁ en tr₂, tr = tr₁ ++ en :: tr₂ → Meant t subs en := by
    constructor
    · rintro h tr₁ en tr₂ rfl
      exact h en (by simp)
    · intro h en hen
      obtain ⟨tr₁, tr₂, rfl⟩ := List.append_of_mem hen
      exact h tr₁ en tr₂ rfl
  rw [← heach, ← hall]
  refine ⟨fun h => h.each, fun hmeant => ⟨hmeant, fun a ha => ?_⟩⟩
  have hpos := List.length_pos_of_mem ha
  by_cases hlen : 2 ≤ subs.length
  · obtain ⟨S₀, S, hfind₀, hfind, hset, hturns, hcount⟩ :=
      turns_of_run h₀ hlen (hr.of_each (heach.mp (hall.mp hmeant))) hsubs
    have helems : S₀.addrSet.elems = subs := by
      rw [← hset, ← subscribers_some hfind]
      exact hsubs
    rw [← helems] at ha
    have hfair := hturns.fair ha
    rw [hcount, helems] at hfair
    exact hfair
  · have hone : subs.length = 1 := by omega
    left
    rw [polled_single hmeant hone a ha, hone, Nat.div_one]

end Callback

end

/-! ## Two subscribers -/

namespace Callback

section

def anObject (pubMsgType : Int32) : PubMsg2CallbackService := ⟨pubMsgType, 0, Crypt.emptyBlob⟩

theorem one_short : ([1] : Blob).length < 2 ^ 32 := by decide

def hello : P2pMqMsg := ⟨7, ⟨[1], one_short⟩⟩

/-- Three polls and a broadcast, read into objects that happen to hold their mode. -/
def agreeing : List (Event Int) :=
  [.publish hello true (anObject 1), .publish hello false (anObject 0), .publish hello true (anObject 1),
    .publish hello true (anObject 1)]

instance (t : Int32) (subs : List Int) (tr : History Int) (s : Callback Int) (e : Event Int) :
    Decidable (Steady t subs tr s e) := inferInstanceAs (Decidable (_ = _))

instance (t : Int32) (subs : List Int) (e : Event Int) : Decidable (ModeRead t subs e) :=
  match e with
  | .publish _ _ _ => inferInstanceAs (Decidable (_ → _ ∨ (_ ↔ _)))
  | .connected _ | .disConnected _ | .subP2pMqMsgID _ | .subMsgID _ _ | .pubMsg _ _ => isTrue trivial

theorem means_agreeing : MeansWhatItSays 7 [2, 3]
    (trace (Callback.step nodes) (final (Callback.step nodes) {} twoPeers) agreeing) := by
  have hr : Run (Callback.step nodes) (final (Callback.step nodes) {} twoPeers) (Steady 7 [2, 3]) _ _ :=
    run_of_meets _ _ _ agreeing (by decide)
  have hmode : Run (Callback.step nodes) (final (Callback.step nodes) {} twoPeers)
      (fun _ _ e => ModeRead 7 [2, 3] e) _ _ :=
    run_of_meets _ _ _ agreeing (by decide)
  exact (means_iff nodes (run_trace_any twoPeers) hr (by decide)).mpr hmode.each

/-- A broadcast that is read into an object with another mode goes to one subscriber of the two. -/
theorem broadcast_polled : ¬∀ (cfg : Config Int) (tr₀ tr : History Int) (s₀ s : Callback Int) (t : Int32)
    (subs : List Int), Run (Callback.step cfg) {} anyStep tr₀ s₀ → Run (Callback.step cfg) s₀ (Steady t subs) tr s →
      s.subscribers t = subs → MeansWhatItSays t subs tr := by
  intro hall
  let evs : List (Event Int) := [.publish hello false (anObject 1)]
  have hr : Run (Callback.step nodes) (final (Callback.step nodes) {} twoPeers) (Steady 7 [2, 3]) _ _ :=
    run_of_meets _ _ _ evs (by decide)
  have h := (hall nodes _ _ _ _ 7 [2, 3] (run_trace_any twoPeers) hr (by decide)).each _ List.mem_cons_self hello false
    (anObject 1) rfl rfl
  exact absurd h (by decide)

end

end Callback

end VProtocol.P2p
