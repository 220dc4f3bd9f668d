import VProtocol.P2p.Callback

/-!
# The topic registry

The entries of the registry have different topics, no set in it is empty, and a cursor is in its
set or at the end. As long as only connected peers subscribe, the addresses in the registry are
those of connected peers, and none is left of a peer that has disconnected.
-/

namespace VProtocol.P2p

section
variable {α : Type} [LinearOrder α] {a b : α} {t u : Int32} {S R : SubMsgAddr α} {r : Registry α}

/-! ## Subscribers of a topic -/

structure SubMsgAddr.Sound (S : SubMsgAddr α) : Prop where
  nonempty : S.addrSet.elems ≠ []
  valid : ∀ x ∈ S.it, x ∈ S.addrSet.elems

namespace SubMsgAddr

theorem mem_insert : b ∈ (S.insert a).addrSet.elems ↔ b = a ∨ b ∈ S.addrSet.elems := by
  unfold insert
  by_cases h : a ∈ S.addrSet.elems
  · rw [if_pos h]
    constructor
    · exact .inr
    · rintro (rfl | hb)
      · exact h
      · exact hb
  · rw [if_neg h]
    exact OrderedSet.mem_insert

theorem mem_erase : b ∈ (S.erase a).addrSet.elems ↔ b ≠ a ∧ b ∈ S.addrSet.elems := by
  unfold erase
  by_cases h : a ∈ S.addrSet.elems
  · rw [if_pos h]
    exact OrderedSet.mem_erase
  · rw [if_neg h]
    refine ⟨fun hb => ⟨?_, hb⟩, And.right⟩
    rintro rfl
    exact h hb

theorem Sound.insert (hS : ∀ x ∈ S.it, x ∈ S.addrSet.elems) (a : α) : (S.insert a).Sound := by
  refine ⟨List.ne_nil_of_mem (mem_insert.mpr (.inl rfl)), ?_⟩
  unfold SubMsgAddr.insert
  by_cases h : a ∈ S.addrSet.elems
  · rw [if_pos h]
    exact hS
  · rw [if_neg h]
    exact fun x hx => OrderedSet.begin_mem hx

theorem Sound.erase (hS : S.Sound) (hne : ¬(S.erase a).empty) : (S.erase a).Sound := by
  refine ⟨fun hnil => hne (by simp [empty, hnil]), ?_⟩
  unfold SubMsgAddr.erase
  by_cases h : a ∈ S.addrSet.elems
  · rw [if_pos h]
    exact fun x hx => OrderedSet.begin_mem hx
  · rw [if_neg h]
    exact hS.valid

/-- The address at the cursor, or the first one when the cursor is at the end. -/
theorem Sound.getAddr (hS : S.Sound) (addr : α) : ∃ a ∈ S.addrSet.elems, S.addrSet.read S.it = some a ∧
    S.getAddr addr = .ok (a, { S with it := S.addrSet.next a }) := by
  have hempty : S.empty = false := by
    simpa [empty] using hS.nonempty
  have hpos := List.length_pos_iff.mpr hS.nonempty
  have hread := OrderedSet.read_eq hS.nonempty hS.valid
  rw [List.getElem?_eq_getElem (Nat.mod_lt _ hpos)] at hread
  have hmem := List.getElem_mem (Nat.mod_lt (S.addrSet.place S.it) hpos)
  refine ⟨_, hmem, hread, ?_⟩
  unfold SubMsgAddr.getAddr
  simp only [hempty, hread, if_pos hmem]
  rfl

end SubMsgAddr

/-! ## Entries -/

namespace Registry

def topics (r : Registry α) : List Int32 := r.map Prod.fst

theorem find_cons : find u ((t, S) :: r) = if t = u then some S else find u r := rfl

theorem find_none : r.find t = none ↔ t ∉ r.topics := by
  induction r with
  | nil => simp [find, topics]
  | cons e r ih =>
    obtain ⟨t', S'⟩ := e
    unfold find
    by_cases ht : t' = t
    · simp [ht, topics]
    · rw [if_neg ht, ih]
      simp [topics, Ne.symm ht]

theorem mem_find (hr : r.topics.Nodup) (h : (t, S) ∈ r) : r.find t = some S := by
  induction r with
  | nil => cases h
  | cons e r ih =>
    obtain ⟨t', S'⟩ := e
    obtain ⟨hnot, hr⟩ := List.nodup_cons.mp hr
    unfold find
    rcases List.mem_cons.mp h with heq | h
    · obtain ⟨rfl, rfl⟩ := Prod.mk.inj heq
      rw [if_pos rfl]
    · rw [if_neg, ih hr h]
      rintro rfl
      exact hnot (List.mem_map.mpr ⟨_, h, rfl⟩)

@[simp] theorem topics_set : (r.set t S).topics = r.topics := by
  induction r with
  | nil => rfl
  | cons e r ih =>
    obtain ⟨t', S'⟩ := e
    unfold set
    by_cases ht : t' = t
    · rw [if_pos ht]
      rfl
    · rw [if_neg ht]
      simpa [topics] using ih

theorem find_set (h : (r.find t).isSome) : (r.set t S).find u = if u = t then some S else r.find u := by
  induction r with
  | nil => cases h
  | cons e r ih =>
    obtain ⟨t', S'⟩ := e
    unfold set
    by_cases ht : t' = t
    · subst ht
      rw [if_pos rfl]
      unfold find
      by_cases hu : u = t'
      · simp [hu]
      · simp [hu, Ne.symm hu]
    · rw [if_neg ht]
      unfold find at h ⊢
      rw [if_neg ht] at h
      rw [ih h]
      by_cases hu : t' = u
      · subst hu
        simp [ht]
      · simp [hu]

theorem find_subscribe : (r.subscribe a t).find u =
    if u = t then some (((r.find t).getD {}).insert a) else r.find u := by
  unfold subscribe
  cases hfind : r.find t with
  | none =>
    rw [find_cons]
    by_cases hu : u = t
    · simp [hu]
    · simp [hu, Ne.symm hu]
  | some S =>
    have hsome : (r.find t).isSome := by
      rw [hfind]
      rfl
    exact find_set hsome

theorem nodup_subscribe (hr : r.topics.Nodup) : (r.subscribe a t).topics.Nodup := by
  unfold subscribe
  cases hfind : r.find t with
  | none => exact List.nodup_cons.mpr ⟨find_none.mp hfind, hr⟩
  | some S =>
    show ((r.set t (S.insert a)).topics).Nodup
    rw [topics_set]
    exact hr

theorem topics_eraseAddr : (r.eraseAddr a).topics.Sublist r.topics := by
  induction r with
  | nil => exact List.Sublist.slnil
  | cons e r ih =>
    obtain ⟨t, S⟩ := e
    unfold eraseAddr
    by_cases h : (S.erase a).empty
    · rw [if_pos h]
      exact ih.cons _
    · rw [if_neg h]
      exact ih.cons_cons _

theorem find_eraseAddr (hr : r.topics.Nodup) :
    (r.eraseAddr a).find t = (r.find t).bind fun S => if (S.erase a).empty then none else some (S.erase a) := by
  induction r with
  | nil => rfl
  | cons e r ih =>
    obtain ⟨t', S⟩ := e
    obtain ⟨hnot, hr⟩ := List.nodup_cons.mp hr
    unfold eraseAddr
    by_cases ht : t' = t
    · subst ht
      rw [find_cons, if_pos rfl, Option.bind_some]
      by_cases h : (S.erase a).empty
      · rw [if_pos h, if_pos h]
        exact find_none.mpr fun hmem => hnot (topics_eraseAddr.subset hmem)
      · rw [if_neg h, if_neg h, find_cons, if_pos rfl]
    · rw [find_cons, if_neg ht, ← ih hr]
      by_cases h : (S.erase a).empty
      · rw [if_pos h]
      · rw [if_neg h, find_cons, if_neg ht]

end Registry

/-! ## The state -/

abbrev History (α : Type) [LinearOrder α] := List (Entry (Callback α) (Event α) (Out α))

namespace Callback

/-- The subscribers of a topic, in the order of their addresses. -/
def subscribers (s : Callback α) (t : Int32) : List α := ((s.mapTopicRegistry.find t).map (·.addrSet.elems)).getD []

/-- The entries of the registry, whoever is in it. -/
structure Kept (s : Callback α) : Prop where
  topics : s.mapTopicRegistry.topics.Nodup
  sound : ∀ t S, s.mapTopicRegistry.find t = some S → S.Sound

variable {cfg : Config α} {s s' : Callback α} {e : Event α} {outs : List (Out α)} {info : ConnectInfo}

theorem subscribers_some (h : s.mapTopicRegistry.find t = some S) : s.subscribers t = S.addrSet.elems := by
  unfold subscribers
  rw [h]
  rfl

theorem subscribers_none (h : s.mapTopicRegistry.find t = none) : s.subscribers t = [] := by
  unfold subscribers
  rw [h]
  rfl

theorem kept_empty : ({} : Callback α).Kept := ⟨List.nodup_nil, nofun⟩

theorem Kept.subscribe (hs : s.Kept) (src : α) (t : Int32) :
    ({ s with mapTopicRegistry := s.mapTopicRegistry.subscribe src t } : Callback α).Kept := by
  refine ⟨Registry.nodup_subscribe hs.topics, fun u S hS => ?_⟩
  rw [Registry.find_subscribe] at hS
  by_cases hu : u = t
  · rw [if_pos hu] at hS
    obtain rfl := Option.some.inj hS
    cases hfind : s.mapTopicRegistry.find t with
    | none => exact SubMsgAddr.Sound.insert (fun x hx => by cases hx) src
    | some S => exact SubMsgAddr.Sound.insert (hs.sound t S hfind).valid src
  · rw [if_neg hu] at hS
    exact hs.sound u S hS

theorem onSubMsgID_cons (t : Int32) (l : List Int32) (src : α) : s.onSubMsgID (t :: l) src =
    ({ s with mapTopicRegistry := s.mapTopicRegistry.subscribe src t } : Callback α).onSubMsgID l src := rfl

theorem insert_insert : (S.insert a).insert a = S.insert a := if_pos (SubMsgAddr.mem_insert.mpr (.inl rfl))

theorem find_onSubMsgID (l : List Int32) (src : α) : (s.onSubMsgID l src).mapTopicRegistry.find t =
    if t ∈ l then some (((s.mapTopicRegistry.find t).getD {}).insert src) else s.mapTopicRegistry.find t := by
  induction l generalizing s with
  | nil => rfl
  | cons u l ih =>
    rw [onSubMsgID_cons, ih]
    show (if t ∈ l then some (((Registry.find t (s.mapTopicRegistry.subscribe src u)).getD {}).insert src)
      else Registry.find t (s.mapTopicRegistry.subscribe src u)) = _
    rw [Registry.find_subscribe]
    by_cases ht : t = u
    · subst ht
      simp [insert_insert]
    · simp [ht]

theorem mem_subscribers_onSubMsgID {l : List Int32} {src : α} :
    b ∈ (s.onSubMsgID l src).subscribers t ↔ b ∈ s.subscribers t ∨ b = src ∧ t ∈ l := by
  unfold subscribers
  rw [find_onSubMsgID]
  by_cases ht : t ∈ l
  · rw [if_pos ht, Option.map_some, Option.getD_some, SubMsgAddr.mem_insert]
    cases s.mapTopicRegistry.find t with
    | none => simp [ht]
    | some S => simp [ht, or_comm]
  · rw [if_neg ht]
    simp [ht]

theorem mapTopicRegistry_onConnected : (s.onConnected cfg info).1.mapTopicRegistry = s.mapTopicRegistry := by
  unfold onConnected
  by_cases h : cfg.remoteAddr info ∈ s.setRemoteAddr.elems
  · simp only [if_pos h]
  · simp only [if_neg h]

theorem subscribers_onConnected : (s.onConnected cfg info).1.subscribers t = s.subscribers t := by
  unfold subscribers
  rw [mapTopicRegistry_onConnected]

theorem mem_setRemoteAddr_onConnected : a ∈ (s.onConnected cfg info).1.setRemoteAddr.elems ↔
    a = cfg.remoteAddr info ∨ a ∈ s.setRemoteAddr.elems := by
  unfold onConnected
  by_cases h : cfg.remoteAddr info ∈ s.setRemoteAddr.elems
  · simp only [if_pos h]
    exact ⟨.inr, fun h' => h'.elim (fun he => he ▸ h) id⟩
  · simp only [if_neg h]
    exact OrderedSet.mem_insert

theorem mem_setRemoteAddr_onDisConnected : a ∈ (s.onDisConnected cfg info).setRemoteAddr.elems ↔
    a ≠ cfg.remoteAddr info ∧ a ∈ s.setRemoteAddr.elems := by
  unfold onDisConnected
  by_cases h : cfg.remoteAddr info ∈ s.setRemoteAddr.elems
  · simp only [if_pos h]
    exact OrderedSet.mem_erase
  · simp only [if_neg h]
    exact ⟨fun ha => ⟨fun he => h (he ▸ ha), ha⟩, fun ha => ha.2⟩

theorem Kept.mem_subscribers_onDisConnected (hs : s.Kept) (hmem : cfg.remoteAddr info ∈ s.setRemoteAddr.elems) :
    b ∈ (s.onDisConnected cfg info).subscribers t ↔ b ≠ cfg.remoteAddr info ∧ b ∈ s.subscribers t := by
  unfold onDisConnected
  simp only [if_pos hmem, subscribers]
  rw [Registry.find_eraseAddr hs.topics]
  cases s.mapTopicRegistry.find t with
  | none => simp
  | some S =>
    have hiff := SubMsgAddr.mem_erase (S := S) (a := cfg.remoteAddr info) (b := b)
    rw [Option.bind_some, Option.map_some, Option.getD_some]
    by_cases hempty : (S.erase (cfg.remoteAddr info)).empty
    · rw [if_pos hempty, ← hiff]
      simpa [SubMsgAddr.empty] using congrArg (b ∈ ·) (List.isEmpty_iff.mp hempty).symm
    · rw [if_neg hempty]
      exact hiff

theorem Kept.onSubMsgID (l : List Int32) (src : α) (hs : s.Kept) : (s.onSubMsgID l src).Kept := by
  induction l generalizing s with
  | nil => exact hs
  | cons t l ih =>
    rw [onSubMsgID_cons]
    exact ih (hs.subscribe src t)

theorem Kept.eraseAddr (hs : s.Kept) (addr : α) (set : OrderedSet α) : ({ s with
    setRemoteAddr := set, mapTopicRegistry := s.mapTopicRegistry.eraseAddr addr } : Callback α).Kept := by
  refine ⟨hs.topics.sublist Registry.topics_eraseAddr, fun t S hS => ?_⟩
  rw [Registry.find_eraseAddr hs.topics] at hS
  obtain ⟨R, hR, hS⟩ := Option.bind_eq_some_iff.mp hS
  by_cases hempty : (R.erase addr).empty
  · rw [if_pos hempty] at hS
    cases hS
  · rw [if_neg hempty] at hS
    obtain rfl := Option.some.inj hS
    exact (hs.sound t R hR).erase hempty

variable (cfg) in
theorem Kept.onPubMsg (hs : s.Kept) (m : PubMsg2CallbackService) : ∃ s' outs,
    s.onPubMsg2CallbackService cfg m = .ok (s', outs) ∧ s'.Kept ∧ s'.setRemoteAddr = s.setRemoteAddr ∧
      s'.lstMsgID = s.lstMsgID ∧ ∀ t, s'.subscribers t = s.subscribers t := by
  unfold onPubMsg2CallbackService
  cases hfind : s.mapTopicRegistry.find m.topicID with
  | none => exact ⟨_, _, rfl, hs, rfl, rfl, fun _ => rfl⟩
  | some S =>
    by_cases hpoll : m.pubMsgType = pollType
    · obtain ⟨a, hmem, -, heq⟩ := (hs.sound _ S hfind).getAddr cfg.noAddr
      have hsome : (s.mapTopicRegistry.find m.topicID).isSome := by
        rw [hfind]
        rfl
      simp only [if_pos hpoll, heq, Except.ok_bind]
      refine ⟨_, _, rfl, ⟨?_, fun t R hR => ?_⟩, rfl, rfl, fun t => ?_⟩
      · rw [Registry.topics_set]
        exact hs.topics
      · rw [Registry.find_set hsome] at hR
        by_cases ht : t = m.topicID
        · rw [if_pos ht] at hR
          obtain rfl := Option.some.inj hR
          exact ⟨(hs.sound _ S hfind).nonempty, fun x hx => OrderedSet.next_mem hx⟩
        · rw [if_neg ht] at hR
          exact hs.sound t R hR
      · unfold subscribers
        rw [Registry.find_set hsome]
        by_cases ht : t = m.topicID
        · rw [if_pos ht, ht, hfind]
          rfl
        · rw [if_neg ht]
    · simp only [if_neg hpoll]
      exact ⟨_, _, rfl, hs, rfl, rfl, fun _ => rfl⟩

/-- No handler reads a cursor that is not in its set. -/
theorem Kept.step (hs : s.Kept) (cfg : Config α) (e : Event α) :
    ∃ s' outs, s.step cfg e = .ok (s', outs) ∧ s'.Kept := by
  cases e with
  | connected info =>
    refine ⟨(s.onConnected cfg info).1, _, rfl, ?_⟩
    unfold onConnected
    by_cases h : cfg.remoteAddr info ∈ s.setRemoteAddr.elems
    · simp only [if_pos h]
      exact hs
    · simp only [if_neg h]
      exact ⟨hs.topics, hs.sound⟩
  | disConnected info =>
    refine ⟨s.onDisConnected cfg info, _, rfl, ?_⟩
    unfold onDisConnected
    by_cases h : cfg.remoteAddr info ∈ s.setRemoteAddr.elems
    · simp only [if_pos h]
      exact hs.eraseAddr _ _
    · simp only [if_neg h]
      exact hs
  | subP2pMqMsgID l => exact ⟨_, _, rfl, ⟨hs.topics, hs.sound⟩⟩
  | subMsgID l src => exact ⟨_, _, rfl, hs.onSubMsgID l src⟩
  | publish msg poll target =>
    obtain ⟨s', outs, heq, hkept, -⟩ := hs.onPubMsg cfg ((pubP2pMqMsgImpl msg poll).received cfg.codec target)
    exact ⟨s', outs, heq, hkept⟩
  | pubMsg msg src => exact ⟨_, _, rfl, hs⟩

theorem Kept.of_run {C : History α → Callback α → Event α → Prop} {tr : History α} {s₀ : Callback α} (h₀ : s₀.Kept)
    (hr : Run (Callback.step cfg) s₀ C tr s) : s.Kept :=
  hr.invariant (fun _ s => s.Kept) h₀ fun _ s e s' outs _ hs _ hst => by
    obtain ⟨s₁, outs₁, heq, hkept⟩ := hs.step cfg e
    obtain ⟨rfl, -⟩ := Prod.mk.inj (Except.ok.inj (heq.symm.trans hst))
    exact hkept

/-! ## Peers that are connected -/

/-- Whether an event connects an address, or disconnects it. -/
def connects (cfg : Config α) (a : α) : Event α → Option Bool
  | .connected info => if cfg.remoteAddr info = a then some true else none
  | .disConnected info => if cfg.remoteAddr info = a then some false else none
  | _ => none

/-- The last thing that was heard of a connection to the address is that it is there. -/
def Connected (cfg : Config α) (tr : History α) (a : α) : Prop :=
  (tr.filterMap fun en => connects cfg a en.ev).getLast? = some true

/-- A subscription comes from a connected peer. -/
def FromConnected (cfg : Config α) (tr : History α) (_ : Callback α) : Event α → Prop
  | .subMsgID _ src => Connected cfg tr src
  | _ => True

theorem connected_append {tr : History α} {en : Entry (Callback α) (Event α) (Out α)} :
    Connected cfg (tr ++ [en]) a ↔
      connects cfg a en.ev = some true ∨ connects cfg a en.ev = none ∧ Connected cfg tr a := by
  unfold Connected
  rw [List.filterMap_append]
  cases h : connects cfg a en.ev with
  | none => simp [h]
  | some c => simp [h]

structure Tracks (cfg : Config α) (tr : History α) (s : Callback α) : Prop where
  kept : s.Kept
  remote : ∀ a, a ∈ s.setRemoteAddr.elems ↔ Connected cfg tr a
  subscriber : ∀ t, ∀ a ∈ s.subscribers t, a ∈ s.setRemoteAddr.elems

theorem Tracks.quiet {tr : History α} (hs : Tracks cfg tr s) (hkept : s'.Kept)
    (hset : s'.setRemoteAddr = s.setRemoteAddr) (hsub : ∀ t, s'.subscribers t = s.subscribers t)
    (hnone : ∀ a, connects cfg a e = none) : Tracks cfg (tr ++ [⟨s, e, outs⟩]) s' := by
  refine ⟨hkept, fun a => ?_, fun t a ha => ?_⟩
  · rw [connected_append, hset, hnone a]
    simpa using hs.remote a
  · rw [hset]
    rw [hsub] at ha
    exact hs.subscriber t a ha

theorem Tracks.step {tr : History α} (hs : Tracks cfg tr s) (hc : FromConnected cfg tr s e)
    (hst : s.step cfg e = .ok (s', outs)) : Tracks cfg (tr ++ [⟨s, e, outs⟩]) s' := by
  obtain ⟨s₁, outs₁, heq, hkept⟩ := hs.kept.step cfg e
  obtain ⟨rfl, rfl⟩ := Prod.mk.inj (Except.ok.inj (heq.symm.trans hst))
  cases e with
  | connected info =>
    have hout : s₁ = (s.onConnected cfg info).1 := (congrArg Prod.fst (Except.ok.inj hst)).symm
    subst hout
    refine ⟨hkept, fun a => ?_, fun t a ha => ?_⟩
    · rw [connected_append, mem_setRemoteAddr_onConnected, hs.remote]
      unfold connects
      by_cases ha : cfg.remoteAddr info = a
      · simp [ha]
      · simp [ha, Ne.symm ha]
    · rw [subscribers_onConnected] at ha
      exact mem_setRemoteAddr_onConnected.mpr (.inr (hs.subscriber t a ha))
  | disConnected info =>
    obtain ⟨rfl, rfl⟩ := Prod.mk.inj (Except.ok.inj hst)
    refine ⟨hkept, fun a => ?_, fun t a ha => ?_⟩
    · rw [connected_append, mem_setRemoteAddr_onDisConnected, hs.remote]
      unfold connects
      by_cases ha : cfg.remoteAddr info = a
      · simp [ha]
      · simp [ha, Ne.symm ha]
    · refine mem_setRemoteAddr_onDisConnected.mpr ?_
      by_cases hmem : cfg.remoteAddr info ∈ s.setRemoteAddr.elems
      · rw [hs.kept.mem_subscribers_onDisConnected hmem] at ha
        exact ⟨ha.1, hs.subscriber t a ha.2⟩
      · have hsame : s.onDisConnected cfg info = s := if_neg hmem
        rw [hsame] at ha
        have hset := hs.subscriber t a ha
        exact ⟨fun he => hmem (he ▸ hset), hset⟩
  | subP2pMqMsgID l =>
    obtain ⟨rfl, rfl⟩ := Prod.mk.inj (Except.ok.inj hst)
    exact hs.quiet hkept rfl (fun _ => rfl) fun _ => rfl
  | subMsgID l src =>
    obtain ⟨rfl, rfl⟩ := Prod.mk.inj (Except.ok.inj hst)
    refine ⟨hkept, fun a => ?_, fun t a ha => ?_⟩
    · rw [connected_append]
      simpa [connects, onSubMsgID] using hs.remote a
    · rcases mem_subscribers_onSubMsgID.mp ha with ha | ⟨rfl, -⟩
      · exact hs.subscriber t a ha
      · exact (hs.remote a).mpr hc
  | publish msg poll target =>
    obtain ⟨s₂, outs₂, heq₂, -, hset, -, hsub⟩ :=
      hs.kept.onPubMsg cfg ((pubP2pMqMsgImpl msg poll).received cfg.codec target)
    obtain ⟨rfl, rfl⟩ := Prod.mk.inj (Except.ok.inj (heq₂.symm.trans hst))
    exact hs.quiet hkept hset hsub fun _ => rfl
  | pubMsg msg src =>
    obtain ⟨rfl, rfl⟩ := Prod.mk.inj (Except.ok.inj hst)
    exact hs.quiet hkept rfl (fun _ => rfl) fun _ => rfl

/-- What holds between the events, and what a disconnected peer leaves behind: nothing of its own, and
all that is not. -/
structure Right (cfg : Config α) (s : Callback α) : Prop where
  topics : s.mapTopicRegistry.topics.Nodup
  remote : ∀ t S, (t, S) ∈ s.mapTopicRegistry → ∀ a ∈ S.addrSet.elems, a ∈ s.setRemoteAddr.elems
  nonempty : ∀ t S, (t, S) ∈ s.mapTopicRegistry → S.addrSet.elems ≠ []
  cursor : ∀ t S, (t, S) ∈ s.mapTopicRegistry → S.it = none ∨ ∃ a ∈ S.addrSet.elems, S.it = some a
  disConnected : ∀ info t, cfg.remoteAddr info ∉ (s.onDisConnected cfg info).subscribers t ∧
    ∀ b ≠ cfg.remoteAddr info, b ∈ (s.onDisConnected cfg info).subscribers t ↔ b ∈ s.subscribers t
  returns : ∀ e, ∃ r, s.step cfg e = .ok r

theorem Tracks.right {tr : History α} (hs : Tracks cfg tr s) : s.Right cfg := by
  have hfind : ∀ {t S}, (t, S) ∈ s.mapTopicRegistry → s.mapTopicRegistry.find t = some S :=
    Registry.mem_find hs.kept.topics
  refine ⟨hs.kept.topics, fun t S h a ha => ?_, fun t S h => ?_, fun t S h => ?_, fun info t => ?_, fun e => ?_⟩
  · rw [← subscribers_some (hfind h)] at ha
    exact hs.subscriber t a ha
  · exact (hs.kept.sound t S (hfind h)).nonempty
  · cases hit : S.it with
    | none => exact .inl rfl
    | some a => exact .inr ⟨a, (hs.kept.sound t S (hfind h)).valid a hit, rfl⟩
  · by_cases hmem : cfg.remoteAddr info ∈ s.setRemoteAddr.elems
    · refine ⟨fun h => ?_, fun b hb => ?_⟩
      · exact ((hs.kept.mem_subscribers_onDisConnected hmem).mp h).1 rfl
      · rw [hs.kept.mem_subscribers_onDisConnected hmem]
        simp [hb]
    · have hsame : s.onDisConnected cfg info = s := if_neg hmem
      rw [hsame]
      exact ⟨fun h => hmem (hs.subscriber t _ h), fun b _ => Iff.rfl⟩
  · obtain ⟨s', outs, heq, -⟩ := hs.kept.step cfg e
    exact ⟨_, heq⟩

/-- In every run in which only connected peers subscribe the registry is right throughout. -/
theorem right_always {tr : History α} (hr : Run (Callback.step cfg) {} (FromConnected cfg) tr s) :
    Always (fun _ s => s.Right cfg) tr s := by
  have htracks : ∀ {tr s}, Run (Callback.step cfg) {} (FromConnected cfg) tr s → Tracks cfg tr s := by
    intro tr s hr
    refine hr.invariant (Tracks cfg) ⟨kept_empty, fun a => ?_, fun t a ha => ?_⟩
      fun _ _ _ _ _ _ hs hc hst => hs.step hc hst
    · simp [Connected]
    · cases ha
  exact hr.always fun hr => (htracks hr).right

end Callback

end

/-! ## Two peers -/

namespace Callback

section

theorem int32_word (i : Int32) : (UInt32.ofNat i.toUInt32.toNat).toInt32 = i :=
  congrArg UInt32.toInt32 UInt32.ofNat_toNat

/-- A node is its id. -/
def nodes : Config Int where
  codec :=
    { int32 := .word 4 (fun i => i.toUInt32.toNat) (fun n => (UInt32.ofNat n).toInt32) (fun i => i.toUInt32.toNat_lt)
        int32_word
      blob := Crypt.plainCodec.blob }
  remoteAddr info := info.id.toInt
  noAddr := -1

instance (tr : History Int) (s : Callback Int) (e : Event Int) : Decidable (FromConnected nodes tr s e) :=
  match e with
  | .subMsgID _ _ => inferInstanceAs (Decidable (_ = _))
  | .connected _ | .disConnected _ | .subP2pMqMsgID _ | .publish _ _ _ | .pubMsg _ _ => isTrue trivial

def twoPeers : List (Event Int) :=
  [.connected ⟨1, 2⟩, .connected ⟨1, 3⟩, .subMsgID [7, 8] 2, .subMsgID [7] 3]

theorem right_two : Always (fun _ s => s.Right nodes)
    (trace (Callback.step nodes) {} (twoPeers ++ [.disConnected ⟨1, 2⟩]))
    (final (Callback.step nodes) {} (twoPeers ++ [.disConnected ⟨1, 2⟩])) :=
  right_always (run_of_meets _ _ (FromConnected nodes) (twoPeers ++ [.disConnected ⟨1, 2⟩]) (by decide))

end

end Callback

end VProtocol.P2p
