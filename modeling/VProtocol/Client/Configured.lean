import VProtocol.Client.Endorsers
import VProtocol.Client.PeerInfo

/-!
# From the configured endorsers to those of a request

`OnInit` connects to every endorser of the table, and `GetPeerID` finds the peer of a
connection by its handle id. The endorsers of a request are rows of the table with
different `PEER_ID`, whatever connects and is lost.
-/

namespace VProtocol.Client

/-- `m_lstBcPeer` as `GetPeerID` reads it. -/
def peerList (peers : List VbhPeer) : PeerList := peers.map fun P => (P.peerID, P.lstEndorserAddr.map (·.handleID))

theorem toNat_lt (n : Int32) : n.toInt.toNat < 2 ^ 31 := by
  have hlt := n.toInt_lt
  omega

/-- The configuration of the service and the addresses it connects to. `started` tells that
`OnInit` of the base class succeeded; an item of the configuration that cannot be read is `none`. -/
def onInit (codec : Codec) (started : Bool) (rows : Option (List Row)) (endorsePeerCount : Option Int32)
    (peerPublicKey : Option Blob) : Option (Config × List EndorserAddr) :=
  if started then do
    let peers ← loadPeerInfo rows
    let n ← endorsePeerCount
    if hn : 0 < n.toInt then do
      let key ← peerPublicKey
      if key.isEmpty then none
      else
        some ({ endorsePeerCount := n.toInt.toNat
                pos := Int.pos_iff_toNat_pos.mp hn
                lt := toNat_lt n
                peers := peerList peers
                codec },
          peers.flatMap (·.lstEndorserAddr))
    else none
  else none

/-- The endorsers of a request are rows of the table with `PEER_ID` that `m_nPeerID` tells apart,
and as many as configured if so many peers are connected and the request can be sent. -/
def Chosen (rows : List Row) (cfg : Config) (s : State) (e : Event) (outs : List Out) : Prop :=
  ∃ chosen ⊆ rows, chosen.map (·.2) = (endorsers outs).map (·.handleID) ∧
    (chosen.map fun x => narrow x.1.peerID).Nodup ∧
    (cfg.endorsePeerCount ≤ s.conn.peers.length → e.decodes cfg = true →
      (∀ i < cfg.endorsePeerCount, e.sendErr i = false) → chosen.length = cfg.endorsePeerCount)

section
variable {l : List Row} {lst : PeerList} {cfg : Config} {s s' : State} {e : Event} {outs : List Out}

/-! ## The peer of a handle id -/

theorem getPeerID_of_mem {P : UInt16 × List UInt32} {id : UInt32} (hn : (lst.flatMap (·.2)).Nodup) (hP : P ∈ lst)
    (hid : id ∈ P.2) : getPeerID lst id = P.1.toNat := by
  induction lst with
  | nil => cases hP
  | cons Q lst ih =>
    rw [List.flatMap_cons, List.nodup_append] at hn
    unfold getPeerID
    rcases List.mem_cons.mp hP with rfl | hP
    · rw [if_pos hid]
    · have hno : id ∉ Q.2 := fun hQ => hn.2.2 id hQ id (List.mem_flatMap.mpr ⟨P, hP, hid⟩) rfl
      rw [if_neg hno]
      exact ih hn.2.1 hP

theorem mem_of_getPeerID {id : UInt32} (h : getPeerID lst id ≠ -1) : id ∈ lst.flatMap (·.2) := by
  induction lst with
  | nil => exact absurd rfl h
  | cons Q lst ih =>
    unfold getPeerID at h
    rw [List.flatMap_cons, List.mem_append]
    by_cases hid : id ∈ Q.2
    · exact .inl hid
    · rw [if_neg hid] at h
      exact .inr (ih h)

theorem loadPeerInfo_groups {peers : List VbhPeer} (h : loadPeerInfo (some l) = some peers) :
    peers = (groups l).map vbhPeer := by
  by_cases hmin : ∀ y ∈ l.head?, y.1.peerID ≠ Int32.minValue
  · rw [loadPeerInfo_eq hmin] at h
    exact (Option.some.inj h).symm
  · push Not at hmin
    obtain ⟨y, hy, hid⟩ := hmin
    obtain ⟨l', rfl⟩ := List.head?_eq_some_iff.mp hy
    rw [loadPeerInfo_min hid] at h
    cases h

theorem flatten_groups (l : List Row) : (groups l).flatten = l := List.flatten_splitBy _ _

theorem peerList_handles (l : List Row) : (peerList ((groups l).map vbhPeer)).flatMap (·.2) = l.map (·.2) := by
  have hpeer : ∀ g, (vbhPeer g).lstEndorserAddr.map (·.handleID) = g.map (·.2) := by
    intro g
    simp [vbhPeer, Row.addr]
  conv_rhs => rw [← flatten_groups l, List.map_flatten]
  unfold peerList
  rw [List.flatMap_map, List.flatMap_map, List.flatMap_def]
  simp only [hpeer]

theorem connects_rows (l : List Row) : ((groups l).map vbhPeer).flatMap (·.lstEndorserAddr) = l.map Row.addr := by
  conv_rhs => rw [← flatten_groups l, List.map_flatten]
  rw [List.flatMap_map, List.flatMap_def]
  rfl

theorem row_peer {x : Row} (hx : x ∈ l) :
    ∃ P ∈ peerList ((groups l).map vbhPeer), P.1 = narrow x.1.peerID ∧ x.2 ∈ P.2 := by
  rw [← flatten_groups l] at hx
  obtain ⟨g, hg, hx⟩ := List.mem_flatten.mp hx
  have hchain := (List.splitBy_eq_iff.mp (rfl : l.splitBy samePeer = groups l)).2.2.1 g hg
  refine ⟨_, List.mem_map_of_mem (List.mem_map_of_mem hg), ?_, ?_⟩
  · rw [groupID_of_chain hchain x hx]
    rfl
  · simp only [vbhPeer, List.map_map, List.mem_map, Function.comp_apply]
    exact ⟨x, hx, rfl⟩

/-- Every handle id of the table has the narrowed peer id of its row. -/
theorem getPeerID_row (hn : (l.map (·.2)).Nodup) {x : Row} (hx : x ∈ l) :
    getPeerID (peerList ((groups l).map vbhPeer)) x.2 = (narrow x.1.peerID).toNat := by
  obtain ⟨P, hP, hid, hxP⟩ := row_peer hx
  rw [← hid]
  apply getPeerID_of_mem _ hP hxP
  rwa [peerList_handles]

/-! ## The connected peers -/

/-- The peers of the table are those of handle ids that `GetPeerID` found. -/
def Known (c : PeerConnSummary) : Prop := ∀ P ∈ c.peers, P.peerID ≠ -1

theorem Known.ids {c c' : PeerConnSummary} (hk : Known c) (hids : c'.peers.map (·.peerID) = c.peers.map (·.peerID)) :
    Known c' := by
  intro P hP
  have hid := List.mem_map_of_mem (f := (·.peerID)) hP
  rw [hids] at hid
  obtain ⟨Q, hQ, heq⟩ := List.mem_map.mp hid
  rw [← heq]
  exact hk Q hQ

theorem Known.pick {c : PeerConnSummary} (hk : Known c) : Known (getMcpHandler c).2 := by
  unfold getMcpHandler
  split
  · exact hk
  · rename_i P hP
    exact hk.ids (set_ids (Q := { P with index := wrap P.index P.mcpHandlers.length + 1 }) hP rfl)

theorem Known.picks {n : Nat} : ∀ {c c' : PeerConnSummary} {hs}, Known c → picks n c = some (hs, c') → Known c' := by
  induction n with
  | zero =>
    intro c c' hs hk hp
    obtain ⟨-, rfl⟩ := Prod.mk.inj (Option.some.inj hp)
    exact hk
  | succ n ih =>
    intro c c' hs hk hp
    have hpick := hk.pick
    unfold Client.picks at hp
    split at hp
    · cases hp
    rename_i h c₁ hg
    rw [hg] at hpick
    split at hp
    · cases hp
    rename_i hs₁ c₂ hp₁
    obtain ⟨-, rfl⟩ := Prod.mk.inj (Option.some.inj hp)
    exact ih hpick hp₁

theorem Known.connect {c : PeerConnSummary} {peerID : Int} (hk : Known c) (hid : peerID ≠ -1) (h : McpHandler)
    (peerRand handleRand rawIndex : Nat) : Known (connect c peerID h peerRand handleRand rawIndex) := by
  unfold Client.connect
  split
  · rename_i i hi
    obtain ⟨hlt, -, -⟩ := List.findIdx?_eq_some_iff_getElem.mp hi
    have hP := List.getElem?_eq_getElem hlt
    apply hk.ids
    rw [PeerTable.modify_of_getElem? hP]
    exact set_ids hP rfl
  · intro P hP
    rcases List.mem_append.mp hP with hP | hP
    · exact hk P hP
    · rw [List.mem_singleton.mp hP]
      exact hid

theorem Known.disconnect {c : PeerConnSummary} (hk : Known c) (peerID : Int) (h : McpHandler) :
    Known (disconnect c peerID h) := by
  unfold Client.disconnect
  split
  · exact hk
  split
  · exact hk
  rename_i P hP
  split
  · split
    · exact hk.ids (set_ids hP rfl)
    · exact fun Q hQ => hk Q (List.mem_of_mem_filter hQ)
  · exact hk

/-- What a step does to the table: one of its operations, or the picks of a request. -/
theorem Move.conn (h : Move cfg s e s' outs) : Table cfg s e s'.conn ∨ ∃ n hs, picks n s.conn = some (hs, s'.conn) := by
  cases h with
  | aside _ _ _ h =>
    cases h with
    | quiet ht => exact .inl ht
    | refused ht => exact .inl ht
    | queried _ hg => exact .inl (.picked hg)
    | fired => exact .inl .same
    | ended hend =>
      obtain ⟨-, -⟩ := hend
      exact .inl .same
  | refused => exact .inl .same
  | aborted _ _ _ _ _ _ _ hp _ hend =>
    obtain ⟨-, -⟩ := hend
    exact .inr ⟨_, _, hp⟩
  | opened _ _ _ _ _ _ _ _ _ hp => exact .inr ⟨_, _, hp⟩
  | kept => exact .inl .same
  | failed _ _ _ _ _ hend =>
    obtain ⟨-, -⟩ := hend
    exact .inl .same
  | orphaned => exact .inl .same
  | submitted _ _ _ hw hend =>
    obtain ⟨-, -⟩ := hend
    cases hw with
    | none => exact .inl .same
    | some => exact .inl .same
  | timedOut _ _ hend =>
    obtain ⟨-, -⟩ := hend
    exact .inl .same
  | lost he _ _ hl =>
    rw [show _ = _ from hl.conn]
    exact .inl (.disconnected he)

/-- A connection that the table does not know ends the process. -/
theorem known_of_step {h : McpHandler} {i j k : Nat} (hst : step cfg s (.connected h i j k) = .ok (s', outs)) :
    getPeerID cfg.peers h.handleID ≠ -1 := by
  intro hno
  have herr : step cfg s (.connected h i j k) = .error .assertion := if_pos hno
  rw [herr] at hst
  cases hst

theorem run_known {C : History → State → Event → Prop} {tr : History} (h : Run (step cfg) {} C tr s) :
    Known s.conn := by
  refine h.invariant (fun _ s => Known s.conn) (fun P hP => by cases hP) fun tr s e s' outs hr hk _ hst => ?_
  rcases (run_move hr hst).conn with ht | ⟨n, hs, hp⟩
  · rcases ht.connects with heq | heq | ⟨h', i, j, k, rfl, heq⟩ | ⟨h', heq⟩
    · rwa [heq]
    · rw [heq]
      exact hk.pick
    · rw [heq]
      exact hk.connect (known_of_step hst) h' i j k
    · rw [heq]
      exact hk.disconnect _ h'
  · exact hk.picks hp

/-! ## The endorsers of a request -/

/-- The endorsers of a request are the first of the picks of its step. -/
theorem Move.picked (h : Move cfg s e s' outs) {r} (he : e.asks = some r) :
    endorsers outs = [] ∨ ∃ n hs, n ≤ s.conn.peers.length ∧ picks n s.conn = some (hs, s'.conn) ∧ endorsers outs <+: hs := by
  cases h with
  | refused _ _ ho => exact .inl (endorsers_upper (by simpa using ho))
  | @aborted r S hs h conn links s' msg rand o he' hk hn hd hlen hf hm hp hl hend ho hr =>
    obtain ⟨-, -⟩ := hend
    refine .inr ⟨_, _, by omega, hp, ?_⟩
    have hnil : endorsers [onResponse S networkErrorType, o] = [] := endorsers_upper (by simp [ho])
    unfold endorsers at *
    rw [List.filterMap_append, hnil, List.append_nil]
    show endorsers _ <+: _
    rw [endorsers_requests hm]
    exact List.prefix_append _ _
  | opened _ _ _ _ _ hn _ _ hm hp =>
    refine .inr ⟨_, _, hn, hp, ?_⟩
    rw [endorsers_requests hm]
  | aside he' => cases he'.symm.trans he
  | kept ha => cases (answer_of_asks he).symm.trans ha
  | failed ha => cases (answer_of_asks he).symm.trans ha
  | orphaned he' => cases (asks_of_submitRsp he').symm.trans he
  | submitted he' => cases (asks_of_submitRsp he').symm.trans he
  | timedOut he' =>
    rw [he'] at he
    cases he
  | lost he' =>
    rw [he'] at he
    cases he

theorem picks_peers {n : Nat} {hs : List McpHandler} {c c' : PeerConnSummary} (hi : ConnInv lst c) (hk : Known c)
    (hp : picks n c = some (hs, c')) : ∀ h ∈ hs, getPeerID lst h.handleID ≠ -1 := by
  intro h hh
  have hid := (picks_reads hi hp).mem (List.mem_map_of_mem hh)
  obtain ⟨P, hP, heq⟩ := List.mem_map.mp hid
  rw [← heq]
  exact hk P hP

theorem exists_rows {ids : List UInt32} (h : ids ⊆ l.map (·.2)) : ∃ chosen ⊆ l, chosen.map (·.2) = ids := by
  induction ids with
  | nil => exact ⟨[], List.nil_subset _, rfl⟩
  | cons id ids ih =>
    obtain ⟨chosen, hsub, hmap⟩ := ih fun _ hid => h (List.mem_cons_of_mem _ hid)
    obtain ⟨x, hx, rfl⟩ := List.mem_map.mp (h List.mem_cons_self)
    exact ⟨x :: chosen, List.cons_subset.mpr ⟨hx, hsub⟩, by rw [List.map_cons, hmap]⟩

/-- Handlers on different peers of the loaded table are those of rows with different ids. -/
theorem rows_apart (hn : (l.map (·.2)).Nodup) {hs : List McpHandler}
    (hk : ∀ h ∈ hs, getPeerID (peerList ((groups l).map vbhPeer)) h.handleID ≠ -1)
    (ha : (hs.map (getPeerID (peerList ((groups l).map vbhPeer)) ·.handleID)).Nodup) :
    ∃ chosen ⊆ l, chosen.map (·.2) = hs.map (·.handleID) ∧ (chosen.map fun x => narrow x.1.peerID).Nodup := by
  have hmem : hs.map (·.handleID) ⊆ l.map (·.2) := by
    intro id hid
    obtain ⟨h, hh, rfl⟩ := List.mem_map.mp hid
    have hfound := mem_of_getPeerID (hk h hh)
    rwa [peerList_handles] at hfound
  obtain ⟨chosen, hsub, hmap⟩ := exists_rows hmem
  refine ⟨chosen, hsub, hmap, List.Nodup.of_map (fun id => (id.toNat : Int)) ?_⟩
  have hids : chosen.map (fun x => ((narrow x.1.peerID).toNat : Int)) =
      (chosen.map (·.2)).map (getPeerID (peerList ((groups l).map vbhPeer))) := by
    rw [List.map_map]
    exact List.map_congr_left fun x hx => (getPeerID_row hn (hsub hx)).symm
  rw [List.map_map]
  show (chosen.map fun x => ((narrow x.1.peerID).toNat : Int)).Nodup
  rw [hids, hmap, List.map_map]
  exact ha

theorem step_chosen (hn : (l.map (·.2)).Nodup) (hcfg : cfg.peers = peerList ((groups l).map vbhPeer))
    (hm : Move cfg s e s' outs) (hi : ConnInv cfg.peers s.conn) (hk : Known s.conn) (he : e.asks ≠ none) :
    Chosen l cfg s e outs := by
  obtain ⟨r, hr⟩ := Option.ne_none_iff_exists'.mp he
  have hpeers : (∀ h ∈ endorsers outs, getPeerID cfg.peers h.handleID ≠ -1) ∧
      ((endorsers outs).map (getPeerID cfg.peers ·.handleID)).Nodup := by
    rcases hm.picked hr with hnil | ⟨n, hs, hle, hp, hpre⟩
    · rw [hnil]
      exact ⟨fun _ hh => absurd hh List.not_mem_nil, List.nodup_nil⟩
    · refine ⟨fun h hh => picks_peers hi hk hp h (hpre.subset hh), ?_⟩
      exact (picks_apart hi hp hle).sublist (hpre.sublist.map _)
  rw [hcfg] at hpeers
  obtain ⟨chosen, hsub, hmap, hids⟩ := rows_apart hn hpeers.1 hpeers.2
  refine ⟨chosen, hsub, hmap, hids, fun hle hd hsent => ?_⟩
  rw [← (hm.endorsed hi hr hle).all hd hsent]
  simpa using congrArg List.length hmap

theorem onInit_eq {codec : Codec} {started : Bool} {count : Option Int32} {key : Option Blob}
    {connects : List EndorserAddr}
    (h : onInit codec started (some l) count key = some (cfg, connects)) :
    cfg.peers = peerList ((groups l).map vbhPeer) ∧ connects = l.map Row.addr := by
  unfold onInit at h
  split at h
  · obtain ⟨peers, hload, h⟩ := Option.bind_eq_some_iff.mp h
    obtain ⟨n, -, h⟩ := Option.bind_eq_some_iff.mp h
    split at h
    · obtain ⟨key, -, h⟩ := Option.bind_eq_some_iff.mp h
      split at h
      · cases h
      · obtain ⟨rfl, rfl⟩ := Prod.mk.inj (Option.some.inj h)
        obtain rfl := loadPeerInfo_groups hload
        exact ⟨rfl, connects_rows l⟩
    · cases h
  · cases h

/-- The service connects to every address of the table once, in the order of the table, and in
every run, whatever connects and is lost, the endorsers of a request are rows of it with different
`PEER_ID`; of peers whose ids `m_nPeerID` cannot tell apart only one is asked. -/
theorem endorsers_configured (codec : Codec) (started : Bool) (rows : List Row) (count : Option Int32)
    (key : Option Blob) (cfg : Config) (connects : List EndorserAddr) (hn : (rows.map (·.2)).Nodup)
    (h : onInit codec started (some rows) count key = some (cfg, connects)) :
    connects = rows.map Row.addr ∧ (∀ x ∈ rows, getPeerID cfg.peers x.2 = (narrow x.1.peerID).toNat) ∧
      ∀ tr s, Run (step cfg) {} anyStep tr s → ∀ en ∈ tr, en.ev.asks ≠ none → Chosen rows cfg en.pre en.ev en.outs := by
  obtain ⟨hcfg, hconn⟩ := onInit_eq h
  refine ⟨hconn, fun x hx => ?_, fun tr s hr => ?_⟩
  · rw [hcfg]
    exact getPeerID_row hn hx
  · induction hr with
    | nil => simp
    | snoc hr _ hst ih =>
      intro en hen hask
      rcases List.mem_append.mp hen with hen | hen
      · exact ih en hen hask
      · rw [List.mem_singleton.mp hen] at hask ⊢
        exact step_chosen hn hcfg (run_move hr hst) (run_connInv hr) (run_known hr) hask

theorem endorsers_configured_three : ∃ cfg connects,
    onInit twoPeers.codec true (some threeRows) (some 1) (some [1]) = some (cfg, connects) ∧
    connects = threeRows.map Row.addr ∧ (∀ x ∈ threeRows, getPeerID cfg.peers x.2 = (narrow x.1.peerID).toNat) ∧
    ∀ tr s, Run (step cfg) {} anyStep tr s → ∀ en ∈ tr, en.ev.asks ≠ none → Chosen threeRows cfg en.pre en.ev en.outs :=
  ⟨_, _, rfl, endorsers_configured twoPeers.codec true threeRows (some 1) (some [1]) _ _ (by decide) rfl⟩

end

end VProtocol.Client
