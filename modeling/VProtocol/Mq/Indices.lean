import Mathlib.Data.List.Induction
import VProtocol.Lib.BucketMap
import VProtocol.Mq.Broadcast

/-!
# Two indices over one session

`m_mapMqClientIDSession` and `m_mapHandlerSession` are both maps of chained elements, and a
session has one key and one pair of links for both. The maps find all sessions as long as
each client id is the handle id of its connection, and no session that is first in its
bucket is lost: then both insertions write the same links and the first erasure does for
both maps.
-/

namespace VProtocol.Mq

open Function (update)

/-- No chain without a cycle is longer than the number of insertions. -/
structure Chains where
  nodes : Nodes UInt32 Ptr := fun _ => none
  mapMqClientIDSession : Fin 16 → Option Ptr := fun _ => none
  mapHandlerSession : Fin 16 → Option Ptr := fun _ => none
  inserted : Nat := 0

def ofChain {α : Type} : Except ChainFault α → Res α
  | .ok a => .ok a
  | .error .dangling => .error .dangling
  | .error .endless => .error .endless

theorem ofChain_ok {α : Type} {x : Except ChainFault α} {a : α} : ofChain x = .ok a ↔ x = .ok a := by
  cases x with
  | ok b => exact ⟨congrArg Except.ok ∘ Except.ok.inj, congrArg Except.ok ∘ Except.ok.inj⟩
  | error e =>
    cases e with
    | dangling => exact ⟨nofun, nofun⟩
    | endless => exact ⟨nofun, nofun⟩

namespace Chains

variable (hash : UInt32 → Fin 16)

def findClient (k : Chains) (c : UInt32) : Res (Option Ptr) :=
  ofChain (BucketMap.find hash (k.inserted + 1) c k.nodes k.mapMqClientIDSession)

def insertClient (c : UInt32) (p : Ptr) (k : Chains) : Res Chains := do
  let r ← ofChain (BucketMap.insert hash c p k.nodes k.mapMqClientIDSession)
  .ok { k with nodes := r.1, mapMqClientIDSession := r.2, inserted := k.inserted + 1 }

def eraseClient (c : UInt32) (k : Chains) : Res Chains := do
  let r ← ofChain (BucketMap.erase hash (k.inserted + 1) c k.nodes k.mapMqClientIDSession)
  .ok { k with nodes := r.1, mapMqClientIDSession := r.2 }

def findHandler (k : Chains) (h : UInt32) : Res (Option Ptr) :=
  ofChain (BucketMap.find hash (k.inserted + 1) h k.nodes k.mapHandlerSession)

def insertHandler (h : UInt32) (p : Ptr) (k : Chains) : Res Chains := do
  let r ← ofChain (BucketMap.insert hash h p k.nodes k.mapHandlerSession)
  .ok { k with nodes := r.1, mapHandlerSession := r.2, inserted := k.inserted + 1 }

def eraseHandler (h : UInt32) (k : Chains) : Res Chains := do
  let r ← ofChain (BucketMap.erase hash (k.inserted + 1) h k.nodes k.mapHandlerSession)
  .ok { k with nodes := r.1, mapHandlerSession := r.2 }

def clients (k : Chains) : Res (List Ptr) :=
  ofChain (BucketMap.elements (k.inserted + 1) k.nodes k.mapMqClientIDSession (List.finRange 16))

def handlers (k : Chains) : Res (List Ptr) :=
  ofChain (BucketMap.elements (k.inserted + 1) k.nodes k.mapHandlerSession (List.finRange 16))

def ops : IndexOps Chains where
  findClient := findClient hash
  insertClient := insertClient hash
  eraseClient := eraseClient hash
  findHandler := findHandler hash
  insertHandler := insertHandler hash
  eraseHandler := eraseHandler hash
  free p k := { k with nodes := update k.nodes p none }
  clients := clients
  clear := {}

/-! ## Twin tables -/

/-- Both tables have the same buckets, those of `L`. -/
structure Twin (k : Chains) (L : Fin 16 → List Ptr) : Prop where
  same : k.mapHandlerSession = k.mapMqClientIDSession
  buckets : BucketMap.Buckets hash k.nodes k.mapMqClientIDSession L
  short : ∀ b, (L b).length ≤ k.inserted

variable {hash} {k k' : Chains} {L : Fin 16 → List Ptr} {c h : UInt32} {p : Ptr} {b : Fin 16}

theorem twin_empty (hash : UInt32 → Fin 16) : Twin hash {} fun _ => [] :=
  ⟨rfl, BucketMap.buckets_empty hash _, fun _ => Nat.le_refl 0⟩

theorem Twin.find_some (ht : Twin hash k L) (hp : p ∈ L b) (hc : BucketMap.keyAt k.nodes p = some c) :
    k.findClient hash c = .ok (some p) ∧ k.findHandler hash c = .ok (some p) := by
  have hfind := ht.buckets.find_some (Nat.le_succ_of_le (ht.short b)) hp hc
  unfold findClient findHandler
  rw [ht.same, hfind]
  exact ⟨rfl, rfl⟩

theorem Twin.find_none (ht : Twin hash k L) (hc : ∀ b, ∀ p ∈ L b, BucketMap.keyAt k.nodes p ≠ some c) :
    k.findClient hash c = .ok none ∧ k.findHandler hash c = .ok none := by
  have hfind := ht.buckets.find_none (Nat.le_succ_of_le (ht.short (hash c))) hc
  unfold findClient findHandler
  rw [ht.same, hfind]
  exact ⟨rfl, rfl⟩

theorem Twin.elements (ht : Twin hash k L) : ∃ l, k.clients = .ok l ∧ k.handlers = .ok l ∧ l.Nodup ∧
    ∀ p, p ∈ l ↔ ∃ b, p ∈ L b := by
  have hall := ht.buckets.elements (fun b => Nat.le_succ_of_le (ht.short b)) (List.finRange 16)
  refine ⟨(List.finRange 16).flatMap L, ?_, ?_, ht.buckets.elements_nodup (List.nodup_finRange 16), fun p => ?_⟩
  · unfold clients
    rw [hall]
    rfl
  · unfold handlers
    rw [ht.same, hall]
    rfl
  · simp [List.mem_flatMap]

/-- Under one key the second insertion finds the links as it would write them. -/
theorem Twin.insert (ht : Twin hash k L) (hp : ∀ b, p ∉ L b) (hc : ∀ b, ∀ q ∈ L b, BucketMap.keyAt k.nodes q ≠ some c) :
    ∃ k₁ k₂, k.insertClient hash c p = .ok k₁ ∧ k₁.insertHandler hash c p = .ok k₂ ∧
      Twin hash k₂ (update L (hash c) (p :: L (hash c))) ∧
      BucketMap.keyAt k₂.nodes = update (BucketMap.keyAt k.nodes) p (some c) := by
  obtain ⟨nodes, hins, hagain, hbuckets, hkey⟩ := ht.buckets.insert hp hc
  generalize update k.mapMqClientIDSession (hash c) (some p) = table at hins hagain hbuckets
  refine ⟨⟨nodes, table, k.mapHandlerSession, k.inserted + 1⟩, ⟨nodes, table, table, k.inserted + 2⟩, ?_, ?_,
    ⟨rfl, hbuckets, fun b => ?_⟩, hkey⟩
  · unfold insertClient
    rw [hins]
    rfl
  · unfold insertHandler
    rw [ht.same, hagain]
    rfl
  · by_cases hb : b = hash c
    · subst hb
      rw [Function.update_self]
      exact Nat.succ_le_succ (Nat.le_succ_of_le (ht.short _))
    · rw [Function.update_of_ne hb]
      exact Nat.le_add_right_of_le (ht.short b)

/-- The second erasure starts from a bucket that the first one has left as it was, and finds nothing. -/
theorem Twin.erase (ht : Twin hash k L) (hp : p ∈ L (hash c)) (hc : BucketMap.keyAt k.nodes p = some c)
    (hfirst : k.mapHandlerSession (hash c) ≠ some p) : ∃ k₁ k₂, k.eraseClient hash c = .ok k₁ ∧
      ({ k₁ with nodes := update k₁.nodes p none } : Chains).eraseHandler hash c = .ok k₂ ∧
      Twin hash k₂ (update L (hash c) ((L (hash c)).erase p)) ∧
      ∀ q, q ≠ p → BucketMap.keyAt k₂.nodes q = BucketMap.keyAt k.nodes q := by
  have hshort : ∀ b, (L b).length ≤ k.inserted + 1 := fun b => Nat.le_succ_of_le (ht.short b)
  obtain ⟨nodes, table, herase, hbuckets, hkey, htable⟩ := ht.buckets.erase (hshort _) hp hc
  rw [ht.same] at hfirst
  have hsame := htable hfirst
  subst hsame
  have hgone : ∀ b, p ∉ update L (hash c) ((L (hash c)).erase p) b := by
    intro b hb
    have hmem := ht.buckets.disjoint (BucketMap.mem_of_mem_update hb) hp
    subst hmem
    rw [Function.update_self] at hb
    exact (ht.buckets.nodup _).not_mem_erase hb
  have hfree := hbuckets.free hgone
  have hkey' : ∀ q, q ≠ p → BucketMap.keyAt (update nodes p none) q = BucketMap.keyAt k.nodes q := by
    intro q hq
    rw [← hkey]
    exact congrArg (Option.map Node.key) (Function.update_of_ne hq _ _)
  have hlen : ∀ b, (update L (hash c) ((L (hash c)).erase p) b).length ≤ k.inserted := by
    intro b
    by_cases hb : b = hash c
    · subst hb
      rw [Function.update_self]
      exact Nat.le_trans List.length_erase_le (ht.short _)
    · rw [Function.update_of_ne hb]
      exact ht.short b
  have hnone : BucketMap.find hash (k.inserted + 1) c (update nodes p none) k.mapMqClientIDSession = .ok none := by
    refine hfree.find_none (Nat.le_succ_of_le (hlen _)) fun b q hq he => ?_
    have hqp : q ≠ p := by
      rintro rfl
      exact hgone b hq
    rw [hkey' q hqp] at he
    have hqL := BucketMap.mem_of_mem_update hq
    obtain ⟨k', hk', hb⟩ := ht.buckets.hashed b q hqL
    obtain rfl := Option.some.inj (he.symm.trans hk')
    subst hb
    exact hqp (ht.buckets.unique _ q p hqL hp (he.trans hc.symm))
  refine ⟨{ k with nodes := nodes }, { k with nodes := update nodes p none }, ?_, ?_, ⟨ht.same, hfree, hlen⟩, hkey'⟩
  · unfold eraseClient
    rw [herase]
    rfl
  · unfold eraseHandler BucketMap.erase
    rw [ht.same, hnone]
    rfl

theorem findClient_key (hfind : k.findClient hash c = .ok (some p)) : BucketMap.keyAt k.nodes p = some c :=
  BucketMap.walk_key (ofChain_ok.mp hfind)

theorem insertHandler_key (hins : k.insertHandler hash h p = .ok k') : BucketMap.keyAt k'.nodes p = some h := by
  obtain ⟨r, hr, hins⟩ := Except.bind_eq_ok.mp hins
  obtain rfl := Except.ok.inj hins
  exact BucketMap.insert_key (ofChain_ok.mp hr)

variable (hash) in
theorem eraseHandler_dangling (hp : k.mapHandlerSession (hash h) = some p) (hgone : k.nodes p = none) :
    k.eraseHandler hash h = .error .dangling := by
  unfold eraseHandler BucketMap.erase
  rw [BucketMap.find_dangling hp hgone]
  rfl

end Chains

/-! ## The service over chains -/

namespace Forwarder

def IsSession (s : Forwarder Chains) (p : Ptr) (c h : UInt32) : Prop :=
  ∃ S, s.sessions p = some S ∧ S.clientID = c ∧ S.mcpHandler = h

section
variable (hash : UInt32 → Fin 16)

/-- Both maps find the sessions of the registrations that stand, and no others, and visit each
of them once. -/
structure BothFind (tr : List (Entry (Forwarder Chains) FwdEvent FwdOut)) (s : Forwarder Chains) : Prop where
  client : ∀ c R, subscription tr c = some R → ∃ p, s.index.findClient hash c = .ok (some p) ∧ s.IsSession p c R.mcpHandler
  client_none : ∀ c, subscription tr c = none → s.index.findClient hash c = .ok none
  handler : ∀ c R, subscription tr c = some R →
    ∃ p, s.index.findHandler hash R.mcpHandler = .ok (some p) ∧ s.IsSession p c R.mcpHandler
  handler_none : ∀ h, (∀ c R, subscription tr c = some R → R.mcpHandler ≠ h) → s.index.findHandler hash h = .ok none
  clients : ∃ l, s.index.clients = .ok l ∧ l.Nodup ∧
    ∀ p, p ∈ l ↔ ∃ c R, subscription tr c = some R ∧ s.IsSession p c R.mcpHandler
  handlers : ∃ l, s.index.handlers = .ok l ∧ l.Nodup ∧
    ∀ p, p ∈ l ↔ ∃ c R, subscription tr c = some R ∧ s.IsSession p c R.mcpHandler

/-- New connections, their losses, and registrations of new clients over connections without any before. -/
def RegistersOnce (tr : List (Entry (Forwarder Chains) FwdEvent FwdOut)) (s : Forwarder Chains) : FwdEvent → Prop
  | .connected h => h ∉ s.connections
  | .networkError _ => True
  | .regMqTopicReq h req => h ∈ s.connections ∧
    ∀ en ∈ tr, ∀ h' req', en.ev = .regMqTopicReq h' req' → h' ≠ h ∧ req'.clientID ≠ req.clientID
  | .pubMqTopicMsg .. | .pubMqAddrMsg .. | .pubMqBroadcastMsg .. => False

/-- A client id is the handle id of its connection, and who is lost is not first in its bucket. -/
def Aligned (s : Forwarder Chains) : FwdEvent → Prop
  | .regMqTopicReq h req => req.clientID = h
  | .networkError h => ∀ p S, s.sessions p = some S → S.mcpHandler = h → s.index.mapHandlerSession (hash h) ≠ some p
  | _ => True

/-- What registrations and losses keep, as long as they are aligned. -/
structure Synced (tr : List (Entry (Forwarder Chains) FwdEvent FwdOut)) (s : Forwarder Chains)
    (L : Fin 16 → List Ptr) : Prop where
  core : s.Core
  durindBroadcastMsg : s.durindBroadcastMsg = false
  twin : s.index.Twin hash L
  bucket : ∀ p, (∃ b, p ∈ L b) ↔ ∃ S, s.sessions p = some S
  key : ∀ p S, s.sessions p = some S → BucketMap.keyAt s.index.nodes p = some S.clientID ∧ S.mcpHandler = S.clientID
  standing : ∀ p S, s.sessions p = some S → ∃ R, subscription tr S.clientID = some R
  session : ∀ c R, subscription tr c = some R → R.mcpHandler = c ∧ ∃ p S, s.sessions p = some S ∧ S.clientID = c

variable {hash} {tr : List (Entry (Forwarder Chains) FwdEvent FwdOut)} {s s' : Forwarder Chains} {L : Fin 16 → List Ptr}
  {p q : Ptr} {S : HandlerSession} {c h : UInt32} {e : FwdEvent} {outs : List FwdOut}

theorem Synced.mem (hs : Synced hash tr s L) (hp : s.sessions p = some S) : p ∈ L (hash S.clientID) := by
  obtain ⟨b, hb⟩ := (hs.bucket p).mpr ⟨S, hp⟩
  obtain ⟨k, hk, rfl⟩ := hs.twin.buckets.hashed b p hb
  obtain rfl := Option.some.inj ((hs.key p S hp).1.symm.trans hk)
  exact hb

theorem Synced.inj (hs : Synced hash tr s L) {S' : HandlerSession} (hp : s.sessions p = some S)
    (hq : s.sessions q = some S')
    (hc : S.clientID = S'.clientID) : p = q := by
  have hmem := hs.mem hq
  rw [← hc] at hmem
  refine hs.twin.buckets.unique _ p q (hs.mem hp) hmem ?_
  rw [(hs.key p S hp).1, (hs.key q S' hq).1, hc]

theorem Synced.key_ne (hs : Synced hash tr s L) (hc : subscription tr c = none) :
    ∀ b, ∀ q ∈ L b, BucketMap.keyAt s.index.nodes q ≠ some c := by
  intro b q hq he
  obtain ⟨S, hS⟩ := (hs.bucket q).mp ⟨b, hq⟩
  obtain ⟨R, hR⟩ := hs.standing q S hS
  rw [(hs.key q S hS).1] at he
  rw [Option.some.inj he, hc] at hR
  cases hR

theorem Synced.find (hs : Synced hash tr s L) (hp : s.sessions p = some S) :
    s.index.findClient hash S.clientID = .ok (some p) ∧ s.index.findHandler hash S.clientID = .ok (some p) :=
  hs.twin.find_some (hs.mem hp) (hs.key p S hp).1

theorem Synced.bothFind (hs : Synced hash tr s L) : BothFind hash tr s := by
  have hone : ∀ c R, subscription tr c = some R → R.mcpHandler = c ∧ ∃ p, s.index.findClient hash c = .ok (some p) ∧
      s.index.findHandler hash c = .ok (some p) ∧ s.IsSession p c c := by
    intro c R hR
    obtain ⟨hh, p, S, hp, rfl⟩ := hs.session c R hR
    obtain ⟨hclient, hhandler⟩ := hs.find hp
    exact ⟨hh, p, hclient, hhandler, S, hp, rfl, (hs.key p S hp).2⟩
  have hall : ∀ p, (∃ b, p ∈ L b) ↔ ∃ c R, subscription tr c = some R ∧ s.IsSession p c R.mcpHandler := by
    intro p
    rw [hs.bucket p]
    constructor
    · rintro ⟨S, hp⟩
      obtain ⟨R, hR⟩ := hs.standing p S hp
      refine ⟨S.clientID, R, hR, S, hp, rfl, ?_⟩
      rw [(hs.session _ R hR).1]
      exact (hs.key p S hp).2
    · rintro ⟨c, R, -, S, hp, -⟩
      exact ⟨S, hp⟩
  obtain ⟨l, hclients, hhandlers, hnodup, hmem⟩ := hs.twin.elements
  refine ⟨fun c R hR => ?_, fun c hc => (hs.twin.find_none (hs.key_ne hc)).1, fun c R hR => ?_, fun h hh => ?_,
    ⟨l, hclients, hnodup, fun p => (hmem p).trans (hall p)⟩, ⟨l, hhandlers, hnodup, fun p => (hmem p).trans (hall p)⟩⟩
  · obtain ⟨hRc, p, hclient, -, hp⟩ := hone c R hR
    rw [hRc]
    exact ⟨p, hclient, hp⟩
  · obtain ⟨hRc, p, -, hhandler, hp⟩ := hone c R hR
    rw [hRc]
    exact ⟨p, hhandler, hp⟩
  · refine (hs.twin.find_none (hs.key_ne ?_)).2
    cases hc : subscription tr h with
    | none => rfl
    | some R => exact absurd (hs.session h R hc).1 (hh h R hc)

/-! ## Steps -/

theorem subscribe_eq_some {sub : UInt32 → Option Registration} {R : Registration} (h : subscribe sub e c = some R) :
    sub c = some R ∨ ∃ h req, e = .regMqTopicReq h req ∧ req.clientID = c := by
  cases e with
  | networkError h' => exact .inl (leave_eq_some.mp h).1
  | regMqTopicReq h' req =>
    simp only [subscribe] at h
    rcases update_eq_some.mp h with ⟨rfl, -⟩ | ⟨-, h⟩
    · exact .inr ⟨h', req, rfl, rfl⟩
    · cases hsub : sub req.clientID with
      | none =>
        rw [hsub] at h
        exact .inl h
      | some R' =>
        rw [hsub] at h
        exact .inl (leave_eq_some.mp h).1
  | connected h' => exact .inl h
  | pubMqTopicMsg h' msg => exact .inl h
  | pubMqAddrMsg h' msg => exact .inl h
  | pubMqBroadcastMsg h' msg env => exact .inl h

theorem subscription_registered {κ : Type} {tr : List (Entry (Forwarder κ) FwdEvent FwdOut)} {c : UInt32}
    {R : Registration}
    (h : subscription tr c = some R) : ∃ en ∈ tr, ∃ h req, en.ev = .regMqTopicReq h req ∧ req.clientID = c := by
  induction tr using List.reverseRecOn with
  | nil => cases h
  | append_singleton tr en ih =>
    rw [subscription_snoc] at h
    rcases subscribe_eq_some h with h | ⟨h', req, he, hc⟩
    · obtain ⟨en', hen', hreg⟩ := ih h
      exact ⟨en', List.mem_append_left _ hen', hreg⟩
    · exact ⟨en, List.mem_append_right _ (List.mem_singleton.mpr rfl), h', req, he, hc⟩

theorem RegistersOnce.new {req : RegMqTopicReq} (h : RegistersOnce tr s (.regMqTopicReq h req)) :
    subscription tr req.clientID = none := by
  cases hR : subscription tr req.clientID with
  | none => rfl
  | some R =>
    obtain ⟨en, hen, h', req', he, hc⟩ := subscription_registered hR
    exact absurd hc (h.2 en hen h' req' he).2

theorem throwOut_none {κ : Type} (ops : IndexOps κ) {s : Forwarder κ} (hc : ops.findClient s.index c = .ok none) :
    s.throwOut ops c = .ok (s, []) := by
  unfold throwOut
  rw [hc]
  rfl

theorem register_ok {req : RegMqTopicReq} (hcore : s.Core) (hnone : s.index.findClient hash req.clientID = .ok none)
    (hst : s.onRegMqTopicReq (Chains.ops hash) h req = .ok (s', outs)) : ∃ k₁ k₂ L',
      s.index.insertClient hash req.clientID s.next = .ok k₁ ∧ k₁.insertHandler hash h s.next = .ok k₂ ∧
      Entered s s' k₂ h req.clientID req.lstTopicID L' := by
  unfold onRegMqTopicReq at hst
  rw [throwOut_none (Chains.ops hash) hnone, Except.ok_bind] at hst
  obtain ⟨s₁, hopen, hst⟩ := Except.bind_eq_ok.mp hst
  obtain ⟨k₁, hclient, hopen⟩ := Except.bind_eq_ok.mp hopen
  obtain ⟨k₂, hhandler, hopen⟩ := Except.bind_eq_ok.mp hopen
  obtain rfl := Except.ok.inj hopen
  obtain ⟨rfl, -⟩ := Prod.mk.inj (Except.ok.inj hst)
  obtain ⟨L', hin⟩ := hcore.enter k₂ h req.clientID req.lstTopicID
  exact ⟨k₁, k₂, L', hclient, hhandler, hin⟩

theorem register_aligned {req : RegMqTopicReq} (hs : Synced hash tr s L)
    (hdom : RegistersOnce tr s (.regMqTopicReq h req))
    (hst : s.onRegMqTopicReq (Chains.ops hash) h req = .ok (s', outs))
    (hfind : BothFind hash (tr ++ [⟨s, .regMqTopicReq h req, outs⟩]) s') : req.clientID = h := by
  have hnone := hdom.new
  obtain ⟨k₁, k₂, L', -, hhandler, hin⟩ := register_ok hs.core (hs.twin.find_none (hs.key_ne hnone)).1 hst
  have hsub : subscription (tr ++ [⟨s, .regMqTopicReq h req, outs⟩]) req.clientID = some ⟨h, req.lstTopicID⟩ := by
    rw [subscription_snoc]
    exact Function.update_self _ _ _
  obtain ⟨p, hp, S, hS, hc, -⟩ := hfind.client _ _ hsub
  rw [hin.index] at hp
  have hkey := Chains.findClient_key hp
  rw [hin.sessions] at hS
  rcases update_eq_some.mp hS with ⟨rfl, -⟩ | ⟨-, hS⟩
  · rw [Chains.insertHandler_key hhandler] at hkey
    exact (Option.some.inj hkey).symm
  · obtain ⟨R, hR⟩ := hs.standing p S hS
    rw [hc, hnone] at hR
    cases hR

theorem Synced.register (hs : Synced hash tr s L) (ts : List UInt32) (hnone : subscription tr c = none) :
    ∃ s' outs L', s.onRegMqTopicReq (Chains.ops hash) c ⟨c, ts⟩ = .ok (s', outs) ∧
      Synced hash (tr ++ [⟨s, .regMqTopicReq c ⟨c, ts⟩, outs⟩]) s' L' := by
  have hnew : ∀ b, s.next ∉ L b := by
    intro b hb
    obtain ⟨S, hS⟩ := (hs.bucket s.next).mp ⟨b, hb⟩
    exact Nat.lt_irrefl _ (hs.core.session_lt s.next S hS)
  obtain ⟨k₁, k₂, hclient, hhandler, htwin, hkey⟩ := hs.twin.insert hnew (hs.key_ne hnone)
  obtain ⟨L', hin⟩ := hs.core.enter k₂ c c ts
  have hreg : s.onRegMqTopicReq (Chains.ops hash) c ⟨c, ts⟩ = .ok (Forwarder.addItems c c s.next ts
      { s with index := k₂, sessions := update s.sessions s.next (some ⟨[], c, c⟩), next := s.next + 1 }, []) := by
    unfold onRegMqTopicReq
    rw [throwOut_none (Chains.ops hash) (hs.twin.find_none (hs.key_ne hnone)).1, Except.ok_bind]
    unfold openSession
    simp only [Chains.ops, hclient, hhandler, Except.ok_bind]
  refine ⟨_, _, update L (hash c) (s.next :: L (hash c)), hreg, ?_⟩
  generalize Forwarder.addItems c c s.next ts
    { s with index := k₂, sessions := update s.sessions s.next (some ⟨[], c, c⟩), next := s.next + 1 } = s' at hin ⊢
  have hsub : subscription (tr ++ [⟨s, .regMqTopicReq c ⟨c, ts⟩, []⟩]) = update (subscription tr) c (some ⟨c, ts⟩) := by
    rw [subscription_snoc]
    simp only [subscribe, hnone]
  have hold : ∀ {p S}, s.sessions p = some S → p ≠ s.next ∧ S.clientID ≠ c := by
    intro p S hp
    refine ⟨Nat.ne_of_lt (hs.core.session_lt p S hp), ?_⟩
    rintro rfl
    obtain ⟨R, hR⟩ := hs.standing p S hp
    rw [hnone] at hR
    cases hR
  refine ⟨hin.core, hin.durindBroadcastMsg.trans hs.durindBroadcastMsg, ?_, fun p => ?_, fun p S hp => ?_,
    fun p S hp => ?_, fun c' R hR => ?_⟩
  · rw [hin.index]
    exact htwin
  · rw [hin.sessions]
    by_cases hp : p = s.next
    · subst hp
      refine ⟨fun _ => ⟨_, Function.update_self _ _ _⟩, fun _ => ⟨hash c, ?_⟩⟩
      rw [Function.update_self]
      exact List.mem_cons_self
    · rw [Function.update_of_ne hp, ← hs.bucket p]
      refine exists_congr fun b => ?_
      by_cases hb : b = hash c
      · subst hb
        rw [Function.update_self, List.mem_cons]
        exact ⟨fun h => h.resolve_left hp, .inr⟩
      · rw [Function.update_of_ne hb]
  · rw [hin.index, hkey]
    rw [hin.sessions] at hp
    rcases update_eq_some.mp hp with ⟨rfl, rfl⟩ | ⟨hne, hp⟩
    · exact ⟨Function.update_self _ _ _, rfl⟩
    · rw [Function.update_of_ne hne]
      exact hs.key p S hp
  · rw [hsub]
    rw [hin.sessions] at hp
    rcases update_eq_some.mp hp with ⟨rfl, rfl⟩ | ⟨-, hp⟩
    · exact ⟨_, Function.update_self _ _ _⟩
    · rw [Function.update_of_ne (hold hp).2]
      exact hs.standing p S hp
  · rw [hsub] at hR
    rcases update_eq_some.mp hR with ⟨rfl, rfl⟩ | ⟨-, hR⟩
    · refine ⟨rfl, s.next, ⟨L', c', c'⟩, ?_, rfl⟩
      rw [hin.sessions, Function.update_self]
    · obtain ⟨hh, p, S, hp, hc⟩ := hs.session c' R hR
      refine ⟨hh, p, S, ?_, hc⟩
      rw [hin.sessions, Function.update_of_ne (hold hp).1]
      exact hp

theorem onNetworkError_eq {κ : Type} {ops : IndexOps κ} {s s₁ : Forwarder κ} (hflag : s.durindBroadcastMsg = false)
    (hdrop : s.dropHandler ops h = .ok s₁) :
    s.onNetworkError ops h = .ok ({ s₁ with connections := s₁.connections.erase h }, [.networkError h]) := by
  unfold onNetworkError
  rw [hflag, hdrop]
  rfl

/-- The session that is lost is freed, and then its bucket of `m_mapHandlerSession` is walked. -/
theorem Synced.lose_first (hs : Synced hash tr s L) (hp : s.sessions p = some S) (hh : S.mcpHandler = h)
    (hfirst : s.index.mapHandlerSession (hash h) = some p) : s.onNetworkError (Chains.ops hash) h ≠ .ok (s', outs) := by
  intro hst
  unfold onNetworkError at hst
  rw [hs.durindBroadcastMsg] at hst
  obtain ⟨s₁, hdrop, -⟩ := Except.bind_eq_ok.mp hst
  obtain ⟨found, hfound, hdrop⟩ := Except.bind_eq_ok.mp hdrop
  have hfind : (Chains.ops hash).findHandler s.index h = .ok (some p) := by
    have hhandler := (hs.find hp).2
    rw [← (hs.key p S hp).2, hh] at hhandler
    exact hhandler
  obtain rfl := Except.ok.inj (hfind.symm.trans hfound)
  simp only [hp] at hdrop
  obtain ⟨k₁, herase, hdrop⟩ := Except.bind_eq_ok.mp hdrop
  obtain ⟨s₂, hrel, hdrop⟩ := Except.bind_eq_ok.mp hdrop
  obtain ⟨k₂, hlast, -⟩ := Except.bind_eq_ok.mp hdrop
  have hcore : ({ s with index := k₁ } : Forwarder Chains).Core := hs.core
  obtain ⟨topics, ix, items, hrel', -⟩ := Core.release hcore hp
  obtain rfl := Except.ok.inj (hrel'.symm.trans hrel)
  obtain ⟨r, -, herase⟩ := Except.bind_eq_ok.mp herase
  obtain rfl := Except.ok.inj herase
  have hgone := Chains.eraseHandler_dangling hash
    (k := { s.index with nodes := update r.1 p none, mapMqClientIDSession := r.2 }) hfirst (Function.update_self _ _ _)
  exact absurd (hgone.symm.trans hlast) (by simp)

theorem subscription_lost : subscription (tr ++ [⟨s, .networkError h, outs⟩]) = leave h (subscription tr) := by
  rw [subscription_snoc]
  rfl

theorem Synced.lose_none (hs : Synced hash tr s L) (hh : subscription tr h = none) :
    ∃ s' outs L', s.onNetworkError (Chains.ops hash) h = .ok (s', outs) ∧
      Synced hash (tr ++ [⟨s, .networkError h, outs⟩]) s' L' := by
  have hdrop : s.dropHandler (Chains.ops hash) h = .ok s := by
    unfold dropHandler
    simp only [Chains.ops, (hs.twin.find_none (hs.key_ne hh)).2, Except.ok_bind]
  have hne : ∀ {c R}, subscription tr c = some R → R.mcpHandler ≠ h := by
    rintro c R hR rfl
    rw [(hs.session c R hR).1, hR] at hh
    cases hh
  refine ⟨_, _, L, onNetworkError_eq hs.durindBroadcastMsg hdrop, ?_⟩
  refine ⟨hs.core, hs.durindBroadcastMsg, hs.twin, hs.bucket, hs.key, fun p S hp => ?_, fun c R hR => ?_⟩
  · obtain ⟨R, hR⟩ := hs.standing p S hp
    rw [subscription_lost]
    exact ⟨R, leave_eq_some.mpr ⟨hR, hne hR⟩⟩
  · rw [subscription_lost] at hR
    exact hs.session c R (leave_eq_some.mp hR).1

theorem Synced.bucket_erase (hs : Synced hash tr s L) (hp : s.sessions p = some S) (q : Ptr) :
    (∃ b, q ∈ update L (hash S.clientID) ((L (hash S.clientID)).erase p) b) ↔
      ∃ R, update s.sessions p none q = some R := by
  by_cases hq : q = p
  · subst hq
    refine ⟨fun ⟨b, hb⟩ => ?_, fun ⟨R, hR⟩ => absurd rfl (update_none_eq_some.mp hR).1⟩
    obtain rfl := hs.twin.buckets.disjoint (BucketMap.mem_of_mem_update hb) (hs.mem hp)
    rw [Function.update_self] at hb
    exact absurd hb (hs.twin.buckets.nodup _).not_mem_erase
  · simp only [Function.update_of_ne hq, ← hs.bucket q]
    refine exists_congr fun b => ?_
    by_cases hb : b = hash S.clientID
    · subst hb
      rw [Function.update_self]
      exact List.mem_erase_of_ne hq
    · rw [Function.update_of_ne hb]

theorem Synced.lose (hs : Synced hash tr s L)
    (hfirst : ∀ p S, s.sessions p = some S → S.mcpHandler = h → s.index.mapHandlerSession (hash h) ≠ some p) :
    ∃ s' outs L', s.onNetworkError (Chains.ops hash) h = .ok (s', outs) ∧
      Synced hash (tr ++ [⟨s, .networkError h, outs⟩]) s' L' := by
  cases hh : subscription tr h with
  | none => exact hs.lose_none hh
  | some R₀ =>
    obtain ⟨-, p, S, hp, rfl⟩ := hs.session h R₀ hh
    have hSh : S.mcpHandler = S.clientID := (hs.key p S hp).2
    obtain ⟨k₁, k₂, herase, hlast, htwin, hkey⟩ := hs.twin.erase (hs.mem hp) (hs.key p S hp).1 (hfirst p S hp hSh)
    have hcore : ({ s with index := k₁ } : Forwarder Chains).Core := hs.core
    obtain ⟨topics, ix, items, hrel, -, hfiled⟩ := Core.release hcore hp
    have hdrop : s.dropHandler (Chains.ops hash) S.clientID = .ok
        { s with
          index := k₂, mapTopicSession := topics, itemIndex := ix, items := items
          sessions := update s.sessions p none } := by
      unfold dropHandler
      simp only [Chains.ops, (hs.find hp).2, Except.ok_bind, hp, herase, hrel, hlast]
    refine ⟨_, _, _, onNetworkError_eq hs.durindBroadcastMsg hdrop, hfiled, hs.durindBroadcastMsg, htwin,
      hs.bucket_erase hp, fun q R hq => ?_, fun q R hq => ?_, fun c R hR => ?_⟩
    · obtain ⟨hne, hq⟩ := update_none_eq_some.mp hq
      rw [hkey q hne]
      exact hs.key q R hq
    · obtain ⟨hne, hq⟩ := update_none_eq_some.mp hq
      obtain ⟨R', hR'⟩ := hs.standing q R hq
      rw [subscription_lost]
      refine ⟨R', leave_eq_some.mpr ⟨hR', ?_⟩⟩
      rw [(hs.session _ R' hR').1]
      exact fun he => hne (hs.inj hq hp he)
    · rw [subscription_lost] at hR
      obtain ⟨hR, hne⟩ := leave_eq_some.mp hR
      obtain ⟨hRc, q, Q, hq, rfl⟩ := hs.session c R hR
      rw [hRc] at hne
      have hqp : q ≠ p := by
        rintro rfl
        obtain rfl := Option.some.inj (hq.symm.trans hp)
        exact hne rfl
      exact ⟨hRc, q, Q, (Function.update_of_ne hqp _ _).trans hq, rfl⟩

theorem Synced.connected (hs : Synced hash tr s L) :
    Synced hash (tr ++ [⟨s, .connected h, outs⟩]) { s with connections := h :: s.connections } L := by
  refine ⟨hs.core, hs.durindBroadcastMsg, hs.twin, hs.bucket, hs.key, ?_, ?_⟩
  · rw [subscription_snoc]
    exact hs.standing
  · rw [subscription_snoc]
    exact hs.session

theorem Synced.step_iff (hs : Synced hash tr s L) (hdom : RegistersOnce tr s e) :
    (∃ s' outs, s.step (Chains.ops hash) e = .ok (s', outs) ∧ BothFind hash (tr ++ [⟨s, e, outs⟩]) s') ↔
      Aligned hash s e := by
  cases e with
  | connected h =>
    exact ⟨fun _ => trivial, fun _ => ⟨_, [], if_neg hdom, hs.connected.bothFind⟩⟩
  | networkError h =>
    constructor
    · rintro ⟨s', outs, hst, -⟩ p S hp hh hfirst
      exact hs.lose_first hp hh hfirst hst
    · intro hal
      obtain ⟨s', outs, L', hst, hs'⟩ := hs.lose hal
      exact ⟨s', outs, hst, hs'.bothFind⟩
  | regMqTopicReq h req =>
    constructor
    · rintro ⟨s', outs, hst, hfind⟩
      exact register_aligned hs hdom (ifConnected_ok hst).2 hfind
    · rintro rfl
      obtain ⟨s', outs, L', hst, hs'⟩ := hs.register req.lstTopicID hdom.new
      exact ⟨s', outs, (if_pos hdom.1).trans hst, hs'.bothFind⟩
  | pubMqTopicMsg h msg => exact hdom.elim
  | pubMqAddrMsg h msg => exact hdom.elim
  | pubMqBroadcastMsg h msg env => exact hdom.elim

theorem Synced.step (hs : Synced hash tr s L) (hdom : RegistersOnce tr s e) (hal : Aligned hash s e)
    (hst : s.step (Chains.ops hash) e = .ok (s', outs)) : ∃ L', Synced hash (tr ++ [⟨s, e, outs⟩]) s' L' := by
  cases e with
  | connected h =>
    obtain ⟨rfl, rfl⟩ := Prod.mk.inj (Except.ok.inj ((if_neg hdom).symm.trans hst))
    exact ⟨L, hs.connected⟩
  | networkError h =>
    obtain ⟨s₁, outs₁, L', hst', hs'⟩ := hs.lose hal
    obtain ⟨rfl, rfl⟩ := Prod.mk.inj (Except.ok.inj (hst'.symm.trans hst))
    exact ⟨L', hs'⟩
  | regMqTopicReq h req =>
    obtain rfl : req.clientID = h := hal
    obtain ⟨s₁, outs₁, L', hst', hs'⟩ := hs.register req.lstTopicID hdom.new
    obtain ⟨rfl, rfl⟩ := Prod.mk.inj (Except.ok.inj (hst'.symm.trans (ifConnected_ok hst).2))
    exact ⟨L', hs'⟩
  | pubMqTopicMsg h msg => exact hdom.elim
  | pubMqAddrMsg h msg => exact hdom.elim
  | pubMqBroadcastMsg h msg env => exact hdom.elim

/-! ## Runs -/

def startChains (port : Int32) (addr : Blob) : Forwarder Chains :=
  { index := {}, mqForwarderPort := port, strMqForwarderAddr := addr }

/-- After a run whose steps are aligned both maps find every session, and a further step
succeeds and keeps that exactly when it is aligned. -/
theorem both_find_iff {port : Int32} {addr : Blob} (hr : Run (Forwarder.step (Chains.ops hash)) (startChains port addr)
    (fun tr s e => RegistersOnce tr s e ∧ Aligned hash s e) tr s) :
    BothFind hash tr s ∧ ∀ e, RegistersOnce tr s e →
      ((∃ s' outs, s.step (Chains.ops hash) e = .ok (s', outs) ∧ BothFind hash (tr ++ [⟨s, e, outs⟩]) s') ↔
        Aligned hash s e) := by
  have hsynced : ∃ L, Synced hash tr s L := by
    refine hr.invariant (fun tr s => ∃ L, Synced hash tr s L) ⟨fun _ => [], ?_⟩ ?_
    · exact ⟨filed_empty, rfl, Chains.twin_empty hash, fun p => by simp [startChains], nofun, nofun, nofun⟩
    · intro tr s e s' outs _ ⟨L, hs⟩ ⟨hdom, hal⟩ hst
      exact hs.step hdom hal hst
  obtain ⟨L, hs⟩ := hsynced
  exact ⟨hs.bothFind, fun e hdom => hs.step_iff hdom⟩

/-! ## A client and its connection -/

def modulo (k : UInt32) : Fin 16 := Fin.ofNat 16 k.toNat

instance (h : UInt32) (req : RegMqTopicReq) : ∀ e : FwdEvent,
    Decidable (∀ h' req', e = .regMqTopicReq h' req' → h' ≠ h ∧ req'.clientID ≠ req.clientID)
  | .regMqTopicReq h' req' => decidable_of_iff (h' ≠ h ∧ req'.clientID ≠ req.clientID)
      ⟨fun hne _ _ he => by cases he; exact hne, fun hall => hall h' req' rfl⟩
  | .connected _ | .networkError _ | .pubMqTopicMsg .. | .pubMqAddrMsg .. | .pubMqBroadcastMsg .. =>
    isTrue fun _ _ he => by cases he

instance : Decidable (RegistersOnce tr s e) :=
  match e with
  | .connected h => inferInstanceAs (Decidable (h ∉ s.connections))
  | .networkError _ => isTrue trivial
  | .regMqTopicReq h req => inferInstanceAs (Decidable (h ∈ s.connections ∧
      ∀ en ∈ tr, ∀ h' req', en.ev = .regMqTopicReq h' req' → h' ≠ h ∧ req'.clientID ≠ req.clientID))
  | .pubMqTopicMsg .. | .pubMqAddrMsg .. | .pubMqBroadcastMsg .. => isFalse id

instance : Decidable (Aligned hash s e) :=
  match e with
  | .regMqTopicReq h req => inferInstanceAs (Decidable (req.clientID = h))
  | .networkError h => decidable_of_iff
      (∀ p ∈ s.index.mapHandlerSession (hash h), ∀ S ∈ s.sessions p, S.mcpHandler ≠ h)
      ⟨fun hall p S hS hh hp => hall p hp S hS hh, fun hal p hp S hS hh => hal p S hS hh hp⟩
  | .connected _ | .pubMqTopicMsg .. | .pubMqAddrMsg .. | .pubMqBroadcastMsg .. => isTrue trivial

/-- Clients 7 and 23 are in one bucket, and the one that registered first is lost. -/
def oneBucket : List FwdEvent :=
  [.connected 7, .regMqTopicReq 7 ⟨7, [5]⟩, .connected 23, .regMqTopicReq 23 ⟨23, [5, 6]⟩, .connected 8,
    .regMqTopicReq 8 ⟨8, []⟩, .networkError 7]

theorem both_find_two : BothFind modulo (trace (Forwarder.step (Chains.ops modulo)) (startChains 9000 []) oneBucket)
      (final (Forwarder.step (Chains.ops modulo)) (startChains 9000 []) oneBucket) ∧
    (subscription (trace (Forwarder.step (Chains.ops modulo)) (startChains 9000 []) oneBucket) 23).isSome ∧
    (subscription (trace (Forwarder.step (Chains.ops modulo)) (startChains 9000 []) oneBucket) 8).isSome ∧
    (subscription (trace (Forwarder.step (Chains.ops modulo)) (startChains 9000 []) oneBucket) 7).isNone := by
  have hr : Run (Forwarder.step (Chains.ops modulo)) (startChains 9000 [])
      (fun tr s e => RegistersOnce tr s e ∧ Aligned modulo s e) _ _ := run_of_meets _ _ _ oneBucket (by decide)
  exact ⟨(both_find_iff hr).1, by decide, by decide, by decide⟩

def oneConnection (h : UInt32) : Forwarder Chains := { startChains 9000 [] with connections := [h] }

theorem once_first (h c : UInt32) : RegistersOnce [⟨startChains 9000 [], .connected h, []⟩] (oneConnection h)
    (.regMqTopicReq h ⟨c, [5]⟩) := by
  refine ⟨List.mem_singleton.mpr rfl, fun en hen h' req' he => ?_⟩
  rw [List.mem_singleton.mp hen] at he
  cases he

/-- Client 7 over connection 1 is not found by its id, and the loss of a client that is alone in its bucket
walks the session that was freed. -/
theorem session_lost : ¬(∀ (hash : UInt32 → Fin 16) (port : Int32) (addr : Blob)
      (tr : List (Entry (Forwarder Chains) FwdEvent FwdOut)) (s : Forwarder Chains),
      Run (Forwarder.step (Chains.ops hash)) (startChains port addr) RegistersOnce tr s → BothFind hash tr s) ∧
    (final (Forwarder.step (Chains.ops modulo)) (startChains 9000 []) [.connected 7, .regMqTopicReq 7 ⟨7, [5]⟩]).step
      (Chains.ops modulo) (.networkError 7) = .error .dangling := by
  refine ⟨fun hall => ?_, rfl⟩
  have h₀ : Run (Forwarder.step (Chains.ops modulo)) (startChains 9000 []) RegistersOnce [] (startChains 9000 []) := .nil
  have hconn : RegistersOnce [] (startChains 9000 []) (.connected 1) := List.not_mem_nil
  have h₁ := h₀.snoc hconn rfl
  have h₂ := h₁.snoc (once_first 1 7) rfl
  obtain ⟨p, hp, -⟩ := (hall modulo 9000 [] _ _ h₂).client 7 ⟨1, [5]⟩ rfl
  cases hp

end

end Forwarder

end VProtocol.Mq
