import Mathlib.Data.List.Perm.Subperm
import VProtocol.Mq.Tables

/-!
# What a broadcast reaches

A registration stands until its connection is lost, or is closed because a client that is
registered over it registers again. As long as no connection with several clients goes, the
items of a topic are those of the registrations that list it, one for each time, so a
broadcast reaches each client once exactly when no registration repeats a topic.
-/

namespace VProtocol.Mq

open Function (update)

/-! ## Lists that partial functions map apart -/

section
variable {α β : Type} {f : α → Option β} {l : List α}

theorem nodup_filterMap_iff (hl : l.Nodup) :
    (l.filterMap f).Nodup ↔ ∀ a ∈ l, ∀ b ∈ l, a ≠ b → ∀ x, f a = some x → f b ≠ some x := by
  unfold List.Nodup
  rw [List.pairwise_filterMap]
  constructor
  · intro hp a ha b hb hab x hfa hfb
    have hsymm : Std.Symm fun a a' => ∀ b, f a = some b → ∀ b', f a' = some b' → b ≠ b' :=
      ⟨fun a a' h b hb b' hb' => (h b' hb' b hb).symm⟩
    exact hp.forall ha hb hab x hfa x hfb rfl
  · intro h
    refine hl.pairwise_of_forall_ne fun a ha b hb hab x hfa y hfb hxy => ?_
    subst hxy
    exact h a ha b hb hab x hfa hfb

theorem nodup_of_length {l l' : List α} (hl : l.Nodup) (hsub : l ⊆ l') (hlen : l'.length ≤ l.length) : l'.Nodup :=
  ((List.Nodup.subperm hl hsub).perm_of_length_le hlen).nodup hl

end

/-! ## Registrations that stand -/

/-- The registrations that stand when a connection goes. -/
def leave (h : UInt32) (sub : UInt32 → Option Registration) (c : UInt32) : Option Registration :=
  (sub c).filter fun R => R.mcpHandler ≠ h

theorem leave_eq_some {h c : UInt32} {sub : UInt32 → Option Registration} {R : Registration} :
    leave h sub c = some R ↔ sub c = some R ∧ R.mcpHandler ≠ h := by
  unfold leave
  rw [Option.filter_eq_some_iff, decide_eq_true_iff]

def subscribe (sub : UInt32 → Option Registration) : FwdEvent → UInt32 → Option Registration
  | .networkError h => leave h sub
  | .regMqTopicReq h req =>
    let sub' :=
      match sub req.clientID with
      | none => sub
      | some R => leave R.mcpHandler sub
    update sub' req.clientID (some ⟨h, req.lstTopicID⟩)
  | .connected _ | .pubMqTopicMsg .. | .pubMqAddrMsg .. | .pubMqBroadcastMsg .. => sub

/-- The last registration of each client, where it stands. -/
def subscription {κ : Type} (tr : List (Entry (Forwarder κ) FwdEvent FwdOut)) : UInt32 → Option Registration :=
  tr.foldl (fun sub en => subscribe sub en.ev) fun _ => none

/-- A connection that goes has one client at most, and a client that registers again does
so over another connection. -/
def KeepsRouted (sub : UInt32 → Option Registration) : FwdEvent → Prop
  | .networkError h => ∀ c c' R R', sub c = some R → sub c' = some R' → R.mcpHandler = h → R'.mcpHandler = h → c = c'
  | .regMqTopicReq h req => ∀ R, sub req.clientID = some R → R.mcpHandler ≠ h ∧
    ∀ c R', sub c = some R' → R'.mcpHandler = R.mcpHandler → c = req.clientID
  | _ => True

namespace Directory

/-- A registration that stands is over a connection that is there, and whose loss takes some client out. -/
def Known (d : Directory) : Prop :=
  ∀ c R, d.registered c = some R → R.mcpHandler ∈ d.connections ∧ (d.owner R.mcpHandler).isSome

section
variable {d : Directory} {c h : UInt32} {R : Registration}

theorem leave_eq (hR : d.registered c = some R)
    (halone : ∀ c' R', d.registered c' = some R' → R'.mcpHandler = R.mcpHandler → c' = c) :
    leave R.mcpHandler d.registered = update d.registered c none := by
  funext c'
  unfold leave
  by_cases hc : c' = c
  · subst hc
    rw [hR, Function.update_self]
    simp
  · rw [Function.update_of_ne hc]
    cases hR' : d.registered c' with
    | none => rfl
    | some R' =>
      have hne : R'.mcpHandler ≠ R.mcpHandler := fun he => hc (halone c' R' hR' he)
      simp [hne]

theorem Known.remove (hd : d.Owned) (hk : d.Known)
    (halone : ∀ c' R', d.registered c' = some R' → R'.mcpHandler = R.mcpHandler → c' = c) :
    ((d.remove c R.mcpHandler).close R.mcpHandler).Known := by
  intro c' R' hR'
  obtain ⟨hne, hR'⟩ := update_none_eq_some.mp hR'
  obtain ⟨hmem, howner⟩ := hk c' R' hR'
  have hhne : R'.mcpHandler ≠ R.mcpHandler := fun he => hne (halone c' R' hR' he)
  refine ⟨hd.nodup.mem_erase_iff.mpr ⟨hhne, hmem⟩, ?_⟩
  rw [show ((d.remove c R.mcpHandler).close R.mcpHandler).owner R'.mcpHandler = d.owner R'.mcpHandler from
    Function.update_of_ne hhne _ _]
  exact howner

theorem Known.lose (hd : d.Owned) (hk : d.Known)
    (hone : ∀ c c' R R', d.registered c = some R → d.registered c' = some R' → R.mcpHandler = h → R'.mcpHandler = h →
      c = c') : (d.lose h).registered = leave h d.registered ∧ (d.lose h).Known := by
  unfold Directory.lose
  cases ho : d.owner h with
  | none =>
    have hfree : ∀ c R, d.registered c = some R → R.mcpHandler ≠ h := by
      rintro c R hR rfl
      have hsome := (hk c R hR).2
      rw [ho] at hsome
      cases hsome
    refine ⟨?_, fun c R hR => ?_⟩
    · funext c
      unfold leave
      cases hR : d.registered c with
      | none => exact hR
      | some R =>
        have hne : decide (R.mcpHandler ≠ h) = true := decide_eq_true (hfree c R hR)
        rw [Option.filter_some, if_pos hne]
        exact hR
    · obtain ⟨hmem, howner⟩ := hk c R hR
      exact ⟨hd.nodup.mem_erase_iff.mpr ⟨hfree c R hR, hmem⟩, howner⟩
  | some c =>
    obtain ⟨R, hR, rfl⟩ := hd.owner h c ho
    have halone : ∀ c' R', d.registered c' = some R' → R'.mcpHandler = R.mcpHandler → c' = c :=
      fun c' R' hR' he => hone c' c R' R hR' hR he rfl
    exact ⟨(leave_eq hR halone).symm, Known.remove hd hk halone⟩

theorem Known.register (hd : d.Owned) (hk : d.Known) (hh : h ∈ d.connections) {ts : List UInt32}
    (hone : ∀ R, d.registered c = some R → R.mcpHandler ≠ h ∧
      ∀ c' R', d.registered c' = some R' → R'.mcpHandler = R.mcpHandler → c' = c) :
    ((d.throwOut c).enter h c ts).registered = subscribe d.registered (.regMqTopicReq h ⟨c, ts⟩) ∧
      ((d.throwOut c).enter h c ts).Known := by
  have henter : ∀ {d' : Directory}, h ∈ d'.connections → d'.Known → (d'.enter h c ts).Known := by
    intro d' hh' hk' c' R' hR'
    rcases update_eq_some.mp hR' with ⟨rfl, rfl⟩ | ⟨-, hR'⟩
    · exact ⟨hh', by simp [Directory.enter]⟩
    · obtain ⟨hmem, howner⟩ := hk' c' R' hR'
      refine ⟨hmem, ?_⟩
      unfold Directory.enter
      by_cases he : R'.mcpHandler = h
      · simp [he]
      · simpa [he] using howner
  unfold Directory.throwOut
  simp only [subscribe]
  cases hR : d.registered c with
  | none => exact ⟨rfl, henter hh hk⟩
  | some R =>
    obtain ⟨hne, halone⟩ := hone R hR
    refine ⟨?_, henter (hd.nodup.mem_erase_iff.mpr ⟨hne.symm, hh⟩) (Known.remove hd hk halone)⟩
    have hleave := leave_eq hR halone
    simp only [hleave]
    rfl

end

end Directory

/-! ## The items of a topic -/

def FwdOut.message : FwdOut → Option (UInt32 × HtsMsg)
  | .sendHtsMsg h m => some (h, m)
  | .disConnect _ | .unRegistHandler _ | .networkError _ => none

namespace Forwarder

section
variable {κ : Type}

def itemsOf (s : Forwarder κ) (t : UInt32) : List Ptr :=
  ((s.mapTopicSession t).map fun T => T.handlerSessionArray.elems).getD []

def itemHandler (s : Forwarder κ) (i : Ptr) : Option UInt32 := (s.items i).map HandlerSessionItem.mcpHandler

def itemClient (s : Forwarder κ) (i : Ptr) : Option UInt32 := (s.items i).map HandlerSessionItem.clientID

variable {s : Forwarder κ} {t : UInt32} {i : Ptr}

theorem Core.mem_itemsOf (h : s.Core) : i ∈ s.itemsOf t ↔ ∃ I, s.items i = some I ∧ I.topicSession = t := by
  unfold itemsOf
  constructor
  · intro hi
    cases hT : s.mapTopicSession t with
    | none =>
      rw [hT] at hi
      cases hi
    | some T =>
      rw [hT] at hi
      exact h.member t T i hT hi
  · rintro ⟨I, hI, rfl⟩
    obtain ⟨T, hT, hi⟩ := h.item i I hI
    rw [hT]
    exact hi

theorem Core.itemsOf_nodup (h : s.Core) (t : UInt32) : (s.itemsOf t).Nodup := by
  unfold itemsOf
  cases hT : s.mapTopicSession t with
  | none => exact List.nodup_nil
  | some T => exact (h.topic t T hT).2.2.nodup

theorem traverse_spec {a : TypeArray} (hplaced : a.Placed s.itemIndex) (hitems : ∀ i ∈ a.elems, ∃ I, s.items i = some I) :
    ∀ n k, a.elems.length ≤ k + n → s.traverse a n a.elems[k]? = .ok ((a.elems.drop k).filterMap s.itemHandler)
  | 0, k, hlen => by
    have hle : a.elems.length ≤ k := hlen
    rw [List.getElem?_eq_none hle, List.drop_eq_nil_of_le hle]
    rfl
  | n + 1, k, hlen => by
    by_cases hk : k < a.elems.length
    · have hget : a.elems[k]? = some a.elems[k] := List.getElem?_eq_getElem hk
      obtain ⟨I, hI⟩ := hitems _ (List.getElem_mem hk)
      have hrest := traverse_spec hplaced hitems n (k + 1) (by omega)
      have hhandler : s.itemHandler a.elems[k] = some I.mcpHandler := by
        unfold itemHandler
        rw [hI, Option.map_some]
      rw [List.drop_eq_getElem_cons hk, List.filterMap_cons_some hhandler, hget]
      simp only [traverse, hI]
      rw [hplaced.next hget, hrest, Except.ok_bind]
    · have hle : a.elems.length ≤ k := Nat.le_of_not_lt hk
      rw [List.getElem?_eq_none hle, List.drop_eq_nil_of_le hle]
      rfl

theorem Core.receivers (h : s.Core) (t : UInt32) : s.receivers t = .ok ((s.itemsOf t).filterMap s.itemHandler) := by
  unfold Forwarder.receivers itemsOf
  cases hT : s.mapTopicSession t with
  | none => rfl
  | some T =>
    obtain ⟨-, -, hplaced⟩ := h.topic t T hT
    have hitems : ∀ i ∈ T.handlerSessionArray.elems, ∃ I, s.items i = some I := by
      intro i hi
      obtain ⟨I, hI, -⟩ := h.member t T i hT hi
      exact ⟨I, hI⟩
    exact traverse_spec hplaced hitems T.handlerSessionArray.size 0 (by simp [TypeArray.size])

theorem sendBroadcast_message (msg : PubMqMsg) (env : BroadcastEnv) (hs : List UInt32) :
    (hs.flatMap (sendBroadcast msg env)).filterMap FwdOut.message =
      hs.map fun h => (h, .pubMqTopicMsg ⟨msg.topicID, msg.msgBlob⟩) := by
  induction hs with
  | nil => rfl
  | cons h hs ih =>
    rw [List.flatMap_cons, List.filterMap_append, ih, List.map_cons]
    unfold sendBroadcast
    split
    · rfl
    · rfl

theorem Core.broadcast (h : s.Core) (msg : PubMqMsg) (env : BroadcastEnv) :
    ∃ lost outs, s.broadcast msg env = .ok (lost, outs) ∧
    outs.filterMap FwdOut.message = ((s.itemsOf msg.topicID).filterMap s.itemHandler).map fun h =>
      (h, .pubMqTopicMsg ⟨msg.topicID, msg.msgBlob⟩) := by
  let hs := (s.itemsOf msg.topicID).filterMap s.itemHandler
  refine ⟨hs.filter (· ∈ env.lost), hs.flatMap (sendBroadcast msg env), ?_, sendBroadcast_message msg env hs⟩
  unfold Forwarder.broadcast
  rw [h.receivers msg.topicID]
  rfl

end

/-! ## The clients of a topic -/

section
variable {s : Forwarder Tables} {t c : UInt32} {i : Ptr} {S : HandlerSession} {p : Ptr}

theorem Linked.item (hs : s.Linked) {I : HandlerSessionItem} (hI : s.items i = some I) : ∃ p S, s.sessions p = some S ∧
    i ∈ S.lstHandlerSessionItem ∧ I.clientID = S.clientID ∧ I.mcpHandler = S.mcpHandler := by
  obtain ⟨p, S, hp, hi⟩ := hs.core.owner i I hI
  obtain ⟨J, hJ, hc, hh⟩ := (hs.core.list p S hp).2 i hi
  obtain rfl := Option.some.inj (hI.symm.trans hJ)
  exact ⟨p, S, hp, hi, hc, hh⟩

theorem mem_topicsOf :
    t ∈ s.topicsOf S ↔ ∃ i ∈ S.lstHandlerSessionItem, ∃ I, s.items i = some I ∧ I.topicSession = t := by
  unfold topicsOf
  simp only [List.mem_filterMap, Option.map_eq_some_iff]

theorem Linked.mem_clients (hs : s.Linked) : c ∈ (s.itemsOf t).filterMap s.itemClient ↔
    ∃ R, s.directory.registered c = some R ∧ t ∈ R.topics := by
  rw [List.mem_filterMap]
  constructor
  · rintro ⟨i, hi, hc⟩
    obtain ⟨I, hI, ht⟩ := hs.core.mem_itemsOf.mp hi
    obtain ⟨p, S, hp, hiS, hIc, -⟩ := hs.item hI
    unfold itemClient at hc
    rw [hI, Option.map_some, hIc] at hc
    obtain rfl := Option.some.inj hc
    exact ⟨_, hs.registered hp, mem_topicsOf.mpr ⟨i, hiS, I, hI, ht⟩⟩
  · rintro ⟨R, hR, ht⟩
    obtain ⟨p, S, hp, rfl, rfl⟩ := hs.registered_iff.mp hR
    obtain ⟨i, hi, I, hI, hIt⟩ := mem_topicsOf.mp ht
    obtain ⟨J, hJ, hc, -⟩ := (hs.core.list p S hp).2 i hi
    obtain rfl := Option.some.inj (hI.symm.trans hJ)
    refine ⟨i, hs.core.mem_itemsOf.mpr ⟨I, hI, hIt⟩, ?_⟩
    unfold itemClient
    rw [hI, Option.map_some, hc]

theorem Linked.handlers_eq (hs : s.Linked) (t : UInt32) : (s.itemsOf t).filterMap s.itemHandler =
    ((s.itemsOf t).filterMap s.itemClient).filterMap fun c => (s.directory.registered c).map Registration.mcpHandler := by
  rw [List.filterMap_filterMap]
  refine List.filterMap_congr fun i hi => ?_
  obtain ⟨I, hI, -⟩ := hs.core.mem_itemsOf.mp hi
  obtain ⟨p, S, hp, -, hc, hh⟩ := hs.item hI
  unfold itemHandler itemClient
  rw [hI, Option.map_some, Option.map_some, Option.bind_some, hc, hs.registered hp, Option.map_some, hh]
  rfl

theorem Linked.clients_nodup_iff (hs : s.Linked) : (∀ t, ((s.itemsOf t).filterMap s.itemClient).Nodup) ↔
    ∀ c R, s.directory.registered c = some R → R.topics.Nodup := by
  constructor
  · intro hall c R hR
    obtain ⟨p, S, hp, rfl, rfl⟩ := hs.registered_iff.mp hR
    obtain ⟨hnodup, hlist⟩ := hs.core.list p S hp
    refine (nodup_filterMap_iff hnodup).mpr fun i hi j hj hij t hit hjt => ?_
    obtain ⟨I, hI, hIt⟩ := Option.map_eq_some_iff.mp hit
    obtain ⟨J, hJ, hJt⟩ := Option.map_eq_some_iff.mp hjt
    have hclient : ∀ {k K}, k ∈ S.lstHandlerSessionItem → s.items k = some K → s.itemClient k = some S.clientID := by
      intro k K hk hK
      obtain ⟨K', hK', hc, -⟩ := hlist k hk
      unfold itemClient
      rw [hK', Option.map_some, hc]
    exact (nodup_filterMap_iff (hs.core.itemsOf_nodup t)).mp (hall t) i (hs.core.mem_itemsOf.mpr ⟨I, hI, hIt⟩)
      j (hs.core.mem_itemsOf.mpr ⟨J, hJ, hJt⟩) hij _ (hclient hi hI) (hclient hj hJ)
  · intro hall t
    refine (nodup_filterMap_iff (hs.core.itemsOf_nodup t)).mpr fun i hi j hj hij c hic hjc => ?_
    obtain ⟨I, hI, hIt⟩ := hs.core.mem_itemsOf.mp hi
    obtain ⟨J, hJ, hJt⟩ := hs.core.mem_itemsOf.mp hj
    obtain ⟨p, S, hp, hiS, hIc, -⟩ := hs.item hI
    obtain ⟨q, R, hq, hjR, hJc, -⟩ := hs.item hJ
    unfold itemClient at hic hjc
    rw [hI, Option.map_some, hIc] at hic
    rw [hJ, Option.map_some, hJc] at hjc
    -- both items are of the client's one session
    have hpq := hs.session p S hp
    rw [Option.some.inj (hic.trans hjc.symm), hs.session q R hq] at hpq
    obtain rfl := Option.some.inj hpq
    obtain rfl := Option.some.inj (hp.symm.trans hq)
    refine (nodup_filterMap_iff (hs.core.list _ S hp).1).mp (hall _ _ (hs.registered hp)) i hiS j hjR hij t ?_ ?_
    · rw [hI, Option.map_some, hIt]
    · rw [hJ, Option.map_some, hJt]

end

/-! ## Runs -/

section
variable {s : Forwarder Tables} {tr : List (Entry (Forwarder Tables) FwdEvent FwdOut)} {port : Int32} {addr : Blob}

/-- The message goes once to each client whose registration lists the topic, over the
connection that it registered over, which is there, and to nobody else. -/
def DeliversOnce (tr : List (Entry (Forwarder Tables) FwdEvent FwdOut)) (s : Forwarder Tables) (msg : PubMqMsg)
    (env : BroadcastEnv) : Prop :=
  ∃ (cs : List UInt32) (lost : List UInt32) (outs : List FwdOut), cs.Nodup ∧
    (∀ c, c ∈ cs ↔ ∃ R, subscription tr c = some R ∧ msg.topicID ∈ R.topics) ∧
    s.broadcast msg env = .ok (lost, outs) ∧
    (outs.filterMap FwdOut.message = (cs.filterMap fun c => (subscription tr c).map Registration.mcpHandler).map
      fun h => (h, .pubMqTopicMsg ⟨msg.topicID, msg.msgBlob⟩)) ∧
    ∀ x ∈ outs.filterMap FwdOut.message, x.1 ∈ s.connections

/-- Each step keeps the connections of the registrations that stand. -/
def Routed (tr : List (Entry (Forwarder Tables) FwdEvent FwdOut)) (_ : Forwarder Tables) (e : FwdEvent) : Prop :=
  KeepsRouted (subscription tr) e

theorem subscription_snoc {κ : Type} (tr : List (Entry (Forwarder κ) FwdEvent FwdOut))
    (en : Entry (Forwarder κ) FwdEvent FwdOut) : subscription (tr ++ [en]) = subscribe (subscription tr) en.ev := by
  unfold subscription
  rw [List.foldl_append]
  rfl

theorem run_known (hr : Run (Forwarder.step tables) (start port addr) Routed tr s) :
    s.directory.registered = subscription tr ∧ s.directory.Known := by
  have hstart : (start port addr).directory.Known := by
    intro c R hR
    cases hR
  refine hr.invariant (fun tr s => s.directory.registered = subscription tr ∧ s.directory.Known) ⟨rfl, hstart⟩ ?_
  intro tr s e s' outs hr ⟨heq, hk⟩ hroute hst
  have hs := Linked.of_run hr
  rw [subscription_snoc, ← heq, (hs.step hst).2]
  unfold Routed at hroute
  rw [← heq] at hroute
  cases e with
  | connected h =>
    refine ⟨rfl, fun c R hR => ?_⟩
    obtain ⟨hmem, howner⟩ := hk c R hR
    exact ⟨List.mem_cons_of_mem h hmem, howner⟩
  | networkError h => exact hk.lose hs.owned hroute
  | regMqTopicReq h req => exact hk.register hs.owned (ifConnected_ok hst).1 hroute
  | pubMqTopicMsg h msg => exact ⟨rfl, hk⟩
  | pubMqAddrMsg h msg => exact ⟨rfl, hk⟩
  | pubMqBroadcastMsg h msg env => exact ⟨rfl, hk⟩

/-- Every broadcast reaches each subscriber once exactly when no registration that stands
repeats a topic. -/
theorem broadcast_once_iff (hr : Run (Forwarder.step tables) (start port addr) Routed tr s) :
    (∀ msg env, DeliversOnce tr s msg env) ↔ ∀ c R, subscription tr c = some R → R.topics.Nodup := by
  have hs := Linked.of_run hr
  obtain ⟨heq, hk⟩ := run_known hr
  rw [← heq, ← hs.clients_nodup_iff]
  unfold DeliversOnce
  rw [← heq]
  constructor
  · intro hall t
    obtain ⟨cs, lost, outs, hnodup, hmem, hsent, houts, -⟩ := hall ⟨0, t, []⟩ ⟨[], true⟩
    obtain ⟨lost', outs', hsent', houts'⟩ := hs.core.broadcast ⟨0, t, []⟩ ⟨[], true⟩
    obtain ⟨-, rfl⟩ := Prod.mk.inj (Except.ok.inj (hsent.symm.trans hsent'))
    have hlen := congrArg List.length (houts.symm.trans houts')
    have hfound : ∀ {l : List UInt32}, (∀ c, c ∈ l ↔ ∃ R, s.directory.registered c = some R ∧ t ∈ R.topics) →
        (l.filterMap fun c => (s.directory.registered c).map Registration.mcpHandler).length = l.length := by
      intro l hl
      refine List.filterMap_length_eq_length.mpr fun c hc => ?_
      obtain ⟨R, hR, -⟩ := (hl c).mp hc
      rw [hR]
      rfl
    rw [hs.handlers_eq, List.length_map, List.length_map, hfound hmem, hfound fun c => hs.mem_clients] at hlen
    exact nodup_of_length hnodup (fun c hc => hs.mem_clients.mpr ((hmem c).mp hc)) (Nat.le_of_eq hlen.symm)
  · intro hall msg env
    obtain ⟨lost, outs, hsent, houts⟩ := hs.core.broadcast msg env
    rw [hs.handlers_eq] at houts
    refine ⟨_, lost, outs, hall msg.topicID, fun c => hs.mem_clients, hsent, houts, fun x hx => ?_⟩
    rw [houts] at hx
    obtain ⟨h, hh, rfl⟩ := List.mem_map.mp hx
    obtain ⟨c, -, hc⟩ := List.mem_filterMap.mp hh
    obtain ⟨R, hR, rfl⟩ := Option.map_eq_some_iff.mp hc
    exact (hk c R hR).1

/-! ## A topic listed once, and twice -/

/-- As `KeepsRouted`, of the sessions that are there. -/
def RoutedListed (s : Forwarder Tables) : FwdEvent → Prop
  | .networkError h => ∀ S ∈ s.sessionList, ∀ S' ∈ s.sessionList, S.mcpHandler = h → S'.mcpHandler = h →
      S.clientID = S'.clientID
  | .regMqTopicReq h req => ∀ S ∈ s.sessionList, S.clientID = req.clientID → S.mcpHandler ≠ h ∧
      ∀ S' ∈ s.sessionList, S'.mcpHandler = S.mcpHandler → S'.clientID = req.clientID
  | _ => True

instance : DecidablePred s.RoutedListed
  | .networkError h => inferInstanceAs (Decidable (∀ S ∈ s.sessionList, ∀ S' ∈ s.sessionList, S.mcpHandler = h →
      S'.mcpHandler = h → S.clientID = S'.clientID))
  | .regMqTopicReq h req => inferInstanceAs (Decidable (∀ S ∈ s.sessionList, S.clientID = req.clientID →
      S.mcpHandler ≠ h ∧ ∀ S' ∈ s.sessionList, S'.mcpHandler = S.mcpHandler → S'.clientID = req.clientID))
  | .connected _ | .pubMqTopicMsg .. | .pubMqAddrMsg .. | .pubMqBroadcastMsg .. => isTrue trivial

theorem Linked.keepsRouted (hs : s.Linked) {e : FwdEvent} (hlist : s.RoutedListed e) :
    KeepsRouted s.directory.registered e := by
  cases e with
  | networkError h =>
    intro c c' R R' hR hR' hh hh'
    obtain ⟨p, S, hp, rfl, rfl⟩ := hs.registered_iff.mp hR
    obtain ⟨q, S', hq, rfl, rfl⟩ := hs.registered_iff.mp hR'
    exact hlist S (hs.mem_sessionList hp) S' (hs.mem_sessionList hq) hh hh'
  | regMqTopicReq h req =>
    intro R hR
    obtain ⟨p, S, hp, hc, rfl⟩ := hs.registered_iff.mp hR
    obtain ⟨hne, hothers⟩ := hlist S (hs.mem_sessionList hp) hc
    refine ⟨hne, fun c R' hR' hh => ?_⟩
    obtain ⟨q, S', hq, rfl, rfl⟩ := hs.registered_iff.mp hR'
    exact hothers S' (hs.mem_sessionList hq) hh
  | connected h => trivial
  | pubMqTopicMsg h msg => trivial
  | pubMqAddrMsg h msg => trivial
  | pubMqBroadcastMsg h msg env => trivial

theorem run_routed (hr : Run (Forwarder.step tables) (start port addr) (fun _ s e => s.RoutedListed e) tr s) :
    Run (Forwarder.step tables) (start port addr) Routed tr s := by
  refine hr.invariant (fun tr s => Run (Forwarder.step tables) (start port addr) Routed tr s) .nil ?_
  intro tr s e s' outs _ hrouted hlist hst
  have hkeeps := (Linked.of_run hrouted).keepsRouted hlist
  rw [(run_known hrouted).1] at hkeeps
  exact hrouted.snoc hkeeps hst

/-- Client 7 registers again, without topic 6, and client 8 is lost. -/
def subscribers : List FwdEvent :=
  [.connected 1, .regMqTopicReq 1 ⟨7, [5, 6]⟩, .connected 2, .regMqTopicReq 2 ⟨8, [5]⟩, .connected 3,
    .regMqTopicReq 3 ⟨7, [5]⟩, .connected 4, .regMqTopicReq 4 ⟨9, [6, 5]⟩, .networkError 2]

theorem broadcast_once_two :
    DeliversOnce (trace (Forwarder.step tables) (start 9000 []) subscribers)
      (final (Forwarder.step tables) (start 9000 []) subscribers) ⟨9, 5, [1]⟩ ⟨[], true⟩ ∧
    ((final (Forwarder.step tables) (start 9000 []) subscribers).broadcast ⟨9, 5, [1]⟩ ⟨[], true⟩).toOption =
      some ([], [.sendHtsMsg 4 (.pubMqTopicMsg ⟨5, [1]⟩), .sendHtsMsg 3 (.pubMqTopicMsg ⟨5, [1]⟩)]) := by
  have hr : Run (Forwarder.step tables) (start 9000 []) (fun _ s e => s.RoutedListed e) _ _ :=
    run_of_meets _ _ _ subscribers (by decide)
  have hrouted := run_routed hr
  refine ⟨(broadcast_once_iff hrouted).mpr (fun c R hR => ?_) _ _, by decide⟩
  rw [← (run_known hrouted).1] at hR
  have hs := Linked.of_run hrouted
  obtain ⟨p, S, hp, -, rfl⟩ := hs.registered_iff.mp hR
  have htopics : ∀ S ∈ (final (Forwarder.step tables) (start 9000 []) subscribers).sessionList,
      ((final (Forwarder.step tables) (start 9000 []) subscribers).topicsOf S).Nodup := by
    decide
  exact htopics S (hs.mem_sessionList hp)

/-- Who lists a topic twice gets each broadcast on it twice. -/
theorem broadcast_twice : ¬∀ (port : Int32) (addr : Blob) (tr : List (Entry (Forwarder Tables) FwdEvent FwdOut))
    (s : Forwarder Tables), Run (Forwarder.step tables) (start port addr) anyStep tr s →
    ∀ msg env, DeliversOnce tr s msg env := by
  intro hall
  let evs : List FwdEvent := [.connected 1, .regMqTopicReq 1 ⟨7, [5, 5]⟩]
  obtain ⟨cs, lost, outs, hnodup, hmem, hsent, houts, -⟩ := hall 9000 [] _ _ (run_trace_any evs) ⟨9, 5, []⟩ ⟨[], true⟩
  have hcs : cs ⊆ [7] := by
    intro c hc
    obtain ⟨R, hR, -⟩ := (hmem c).mp hc
    rcases update_eq_some.mp hR with ⟨rfl, -⟩ | ⟨-, hR⟩
    · exact List.mem_singleton.mpr rfl
    · cases hR
  have hone : cs.length ≤ 1 := (List.Nodup.subperm hnodup hcs).length_le
  obtain ⟨-, rfl⟩ := Prod.mk.inj (Except.ok.inj hsent)
  have htwo := congrArg List.length houts
  rw [List.length_map] at htwo
  have hle := List.length_filterMap_le
    (fun c => (subscription (trace (Forwarder.step tables) (start 9000 []) evs) c).map Registration.mcpHandler) cs
  rw [← htwo] at hle
  exact absurd (Nat.le_trans hle hone) (by decide)

/-! ## The loop over the lost handlers -/

/-- The broadcast returns without a look at an empty stack, each receiver that is lost is reported
once and nobody else, and nothing is left on the stack. -/
def CleansUp (s : Forwarder Tables) (msg : PubMqMsg) (lost : List UInt32) : Prop :=
  ∃ hs r, s.receivers msg.topicID = .ok hs ∧ s.onPubMqBroadcastMsg tables msg ⟨lost, false⟩ = .ok r ∧
    (∀ h, r.2.count (.networkError h) = if h ∈ hs ∧ h ∈ lost then 1 else 0) ∧ r.1.stackMcpHandler = []

theorem top_ok {κ : Type} {s : Forwarder κ} {nullTop : Bool} {p : Option UInt32} (hp : s.top nullTop = .ok p) :
    p = none ↔ nullTop = true ∧ s.stackMcpHandler = [] := by
  unfold top at hp
  cases hstack : s.stackMcpHandler with
  | nil =>
    cases nullTop with
    | true =>
      simp only [hstack, if_true] at hp
      simp [← Except.ok.inj hp]
    | false =>
      simp only [hstack] at hp
      cases hp
  | cons h l =>
    simp only [hstack] at hp
    simp [← Except.ok.inj hp]

/-- Where the top of an empty stack reads as null a broadcast with subscribers returns exactly when
none of them is lost, otherwise it never does. -/
theorem onPubMqBroadcastMsg_returns (hs : s.Linked) {msg : PubMqMsg} {T : TopicSession}
    (hT : s.mapTopicSession msg.topicID = some T) (env : BroadcastEnv) :
    (∃ r, s.onPubMqBroadcastMsg tables msg env = .ok r) ↔
      env.nullTop = true ∧ ∃ outs, s.broadcast msg env = .ok ([], outs) := by
  have hopen : s.onPubMqBroadcastMsg tables msg env = (s.broadcast msg env >>= fun sent =>
      top env.nullTop { s with stackMcpHandler := sent.1.reverse ++ s.stackMcpHandler } >>= fun p =>
        handleLost tables env.nullTop ((sent.1.reverse ++ s.stackMcpHandler).length + 1) p
          { s with stackMcpHandler := sent.1.reverse ++ s.stackMcpHandler } >>= fun r =>
            .ok (r.1, sent.2 ++ r.2)) := by
    unfold onPubMqBroadcastMsg
    simp only [hT]
  rw [hopen]
  constructor
  · rintro ⟨r, hr⟩
    obtain ⟨sent, hsent, hr⟩ := Except.bind_eq_ok.mp hr
    obtain ⟨p, htop, hr⟩ := Except.bind_eq_ok.mp hr
    obtain ⟨r₁, hlost, -⟩ := Except.bind_eq_ok.mp hr
    obtain ⟨hnone, -⟩ := handleLost_ok (s := { s with stackMcpHandler := sent.1.reverse ++ s.stackMcpHandler })
      hs.durindBroadcastMsg hlost
    obtain ⟨hnull, hempty⟩ := (top_ok htop).mp hnone
    obtain ⟨lost, outs⟩ := sent
    obtain rfl : lost = [] := List.reverse_eq_nil_iff.mp (List.append_eq_nil_iff.mp hempty).1
    exact ⟨hnull, outs, hsent⟩
  · rintro ⟨hnull, outs, hsent⟩
    have htop : top true { s with stackMcpHandler := ([] : List UInt32).reverse ++ s.stackMcpHandler } = .ok none := by
      unfold top
      simp [hs.stackMcpHandler]
    rw [hsent, hnull, Except.ok_bind, htop, Except.ok_bind]
    exact ⟨_, rfl⟩

theorem cleans_up_iff (hr : Run (Forwarder.step tables) (start port addr) anyStep tr s) (msg : PubMqMsg)
    (lost : List UInt32) : CleansUp s msg lost ↔ s.mapTopicSession msg.topicID = none := by
  have hs := Linked.of_run hr
  constructor
  · rintro ⟨hs', r, -, hret, -⟩
    cases hT : s.mapTopicSession msg.topicID with
    | none => rfl
    | some T =>
      obtain ⟨hnull, -⟩ := (onPubMqBroadcastMsg_returns hs hT _).mp ⟨r, hret⟩
      cases hnull
  · intro hT
    refine ⟨[], (s, []), ?_, ?_, fun h => rfl, hs.stackMcpHandler⟩
    · unfold receivers
      rw [hT]
    · unfold onPubMqBroadcastMsg
      rw [hT]

theorem cleans_up_unknown :
    CleansUp (final (Forwarder.step tables) (start 9000 []) [.connected 1, .regMqTopicReq 1 ⟨7, [5]⟩])
    ⟨9, 6, []⟩ [1] :=
  (cleans_up_iff (run_trace_any [.connected 1, .regMqTopicReq 1 ⟨7, [5]⟩]) ⟨9, 6, []⟩ [1]).mpr rfl

/-- With one subscriber the broadcast is not cleaned up, whether the subscriber is lost or not. -/
theorem broadcast_never_clean : ¬∀ (tr : List (Entry (Forwarder Tables) FwdEvent FwdOut)) (s : Forwarder Tables),
    Run (Forwarder.step tables) (start 9000 []) anyStep tr s → ∀ msg lost, CleansUp s msg lost := by
  intro hall
  let evs : List FwdEvent := [.connected 1, .regMqTopicReq 1 ⟨7, [5]⟩]
  have hrun : Run (Forwarder.step tables) (start 9000 []) anyStep _ _ := run_trace_any evs
  obtain ⟨hs, r, -, hret, -⟩ := hall _ _ hrun ⟨9, 5, []⟩ []
  obtain ⟨hnull, -⟩ := (onPubMqBroadcastMsg_returns (Linked.of_run hrun) rfl _).mp ⟨r, hret⟩
  cases hnull

end

end Forwarder

end VProtocol.Mq
