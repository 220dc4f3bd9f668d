import VProtocol.Lib.Run
import VProtocol.Client.PeerTable

/-!
# The table lists the live handlers

A handler is live from its connect to its loss. After any order of connects, losses
and picks the arrays list the peers that have a live handler, each with its live
handlers, and a pick gives a live handler when there is one.
-/

namespace VProtocol.Client.PeerTable

inductive TableEvent where
  | connected (h : McpHandler) (peerRand handleRand : Nat) (mem : NewMemory)
  | networkError (h : McpHandler) (mem : NewMemory)
  | getMcpHandler

/-- What a pick gives is the output of its step. -/
def tableStep (lst : PeerList) (T : PeerConnectionSummaryInfo) :
    TableEvent → Res (PeerConnectionSummaryInfo × List (Option McpHandler))
  | .connected h peerRand handleRand mem => do
    let T ← onConnectedNodify lst T h peerRand handleRand mem
    .ok (T, [])
  | .networkError h mem => do
    let T ← onNetworkError lst T h mem
    .ok (T, [])
  | .getMcpHandler => do
    let (T, h) ← getMcpHandler T
    .ok (T, [h])

abbrev TableHistory := List (Entry PeerConnectionSummaryInfo TableEvent (Option McpHandler))

def liveStep (live : List McpHandler) : TableEvent → List McpHandler
  | .connected h _ _ _ => live ++ [h]
  | .networkError h _ => live.filter (· ≠ h)
  | .getMcpHandler => live

def liveHandlers (tr : TableHistory) : List McpHandler := tr.foldl (fun live en => liveStep live en.ev) []

/-- A handler belongs to a configured peer, and connects when it is not live. -/
def Allowed (lst : PeerList) (tr : TableHistory) (_ : PeerConnectionSummaryInfo) : TableEvent → Prop
  | .connected h _ _ _ => getPeerID lst h.handleID ≠ -1 ∧ h ∉ liveHandlers tr
  | .networkError h _ => getPeerID lst h.handleID ≠ -1
  | .getMcpHandler => True

instance (lst : PeerList) (tr : TableHistory) (T : PeerConnectionSummaryInfo) :
    ∀ e, Decidable (Allowed lst tr T e)
  | .connected h _ _ _ => inferInstanceAs (Decidable (getPeerID lst h.handleID ≠ -1 ∧ h ∉ liveHandlers tr))
  | .networkError h _ => inferInstanceAs (Decidable (getPeerID lst h.handleID ≠ -1))
  | .getMcpHandler => isTrue trivial

/-- `m_ppMcpHandler[0..m_nHandleIDNum)`. -/
def PeerConnectionInfo.handlers (P : PeerConnectionInfo) : List McpHandler :=
  (P.ppMcpHandler.getD []).take P.handleIDNum

/-- `m_parrPeerConnInfo[0..m_nPeerSessionNum)`. -/
def PeerConnectionSummaryInfo.peers (T : PeerConnectionSummaryInfo) : List PeerConnectionInfo :=
  (T.parrPeerConnInfo.getD []).take T.peerSessionNum

/-- The counts are the sizes of the arrays, and the arrays list exactly the peers of the
handlers in `live`, each once, with its handlers in `live`, each once. -/
structure Exact (lst : PeerList) (live : List McpHandler) (T : PeerConnectionSummaryInfo) : Prop where
  size : (T.parrPeerConnInfo.getD []).length = T.peerSessionNum
  handlersSize : ∀ P ∈ T.peers, (P.ppMcpHandler.getD []).length = P.handleIDNum
  once : (T.peers.map (·.peerID)).Nodup
  peer : ∀ id, (∃ P ∈ T.peers, P.peerID = id) ↔ ∃ h ∈ live, getPeerID lst h.handleID = id
  handlersOnce : ∀ P ∈ T.peers, P.handlers.Nodup
  handler : ∀ P ∈ T.peers, ∀ h, h ∈ P.handlers ↔ h ∈ live ∧ getPeerID lst h.handleID = P.peerID

/-! ## The same for the lists -/

structure Listed (lst : PeerList) (live : List McpHandler) (c : PeerConnSummary) : Prop where
  once : (c.peers.map (·.peerID)).Nodup
  nonempty : ∀ P ∈ c.peers, P.mcpHandlers ≠ []
  handlersOnce : ∀ P ∈ c.peers, P.mcpHandlers.Nodup
  handler : ∀ P ∈ c.peers, ∀ h, h ∈ P.mcpHandlers ↔ h ∈ live ∧ getPeerID lst h.handleID = P.peerID
  peer : ∀ h ∈ live, getPeerID lst h.handleID ∈ c.peers.map (·.peerID)

section
variable {lst : PeerList} {live : List McpHandler} {c : PeerConnSummary} {h : McpHandler}

theorem table_peers (c : PeerConnSummary) : (table c).peers = c.peers.map row := by
  obtain ⟨peers, index⟩ := c
  cases peers with
  | nil => rfl
  | cons P peers => exact List.take_of_length_le (by simp [table_cons])

theorem row_handlers (P : PeerConn) : (row P).handlers = P.mcpHandlers := by
  simp [row, PeerConnectionInfo.handlers]

theorem Listed.exact (hl : Listed lst live c) : Exact lst live (table c) where
  size := by
    obtain ⟨peers, index⟩ := c
    cases peers with
    | nil => rfl
    | cons P peers => simp [table_cons]
  handlersSize := by
    rw [table_peers, List.forall_mem_map]
    intro P _
    rfl
  once := by
    rw [table_peers, List.map_map]
    exact hl.once
  peer := by
    intro id
    rw [table_peers]
    constructor
    · rintro ⟨_, hR, rfl⟩
      obtain ⟨P, hP, rfl⟩ := List.mem_map.mp hR
      obtain ⟨h, hh⟩ := List.exists_mem_of_ne_nil _ (hl.nonempty P hP)
      exact ⟨h, ((hl.handler P hP h).mp hh).1, ((hl.handler P hP h).mp hh).2⟩
    · rintro ⟨h, hh, rfl⟩
      obtain ⟨P, hP, hid⟩ := List.mem_map.mp (hl.peer h hh)
      exact ⟨row P, List.mem_map_of_mem hP, hid⟩
  handlersOnce := by
    rw [table_peers, List.forall_mem_map]
    intro P hP
    rw [row_handlers]
    exact hl.handlersOnce P hP
  handler := by
    rw [table_peers, List.forall_mem_map]
    intro P hP
    rw [row_handlers]
    exact hl.handler P hP

theorem mem_set_ids {peers : List PeerConn} (hn : (peers.map (·.peerID)).Nodup) {i : Nat} {P Q R : PeerConn}
    (hP : peers[i]? = some P) : R ∈ peers.set i Q ↔ R = Q ∨ R ∈ peers ∧ R.peerID ≠ P.peerID := by
  have hi := (List.getElem?_eq_some_iff.mp hP).1
  constructor
  · intro hR
    obtain ⟨j, hj⟩ := List.getElem?_of_mem hR
    rw [List.getElem?_set] at hj
    by_cases hij : i = j
    · rw [if_pos hij, if_pos hi] at hj
      exact .inl (Option.some.inj hj).symm
    · rw [if_neg hij] at hj
      refine .inr ⟨List.mem_of_getElem? hj, fun heq => hij ?_⟩
      refine (List.getElem?_inj (by simpa using hi) hn).mp ?_
      rw [List.getElem?_map, List.getElem?_map, hP, hj, Option.map_some, Option.map_some, heq]
  · rintro (rfl | ⟨hR, hid⟩)
    · exact List.mem_set hi R
    · obtain ⟨j, hj⟩ := List.getElem?_of_mem hR
      have hij : i ≠ j := by
        rintro rfl
        exact hid (by rw [Option.some.inj (hP.symm.trans hj)])
      refine List.mem_of_getElem? (i := j) ?_
      rw [List.getElem?_set_ne hij, hj]

/-! ## The operations change the element of one peer -/

def handlersOf (c : PeerConnSummary) (peerID : Int) : List McpHandler :=
  match c.peers.find? (·.peerID = peerID) with
  | some P => P.mcpHandlers
  | none => []

theorem handlersOf_of_mem (hn : (c.peers.map (·.peerID)).Nodup) {P : PeerConn} (hP : P ∈ c.peers) :
    handlersOf c P.peerID = P.mcpHandlers := by
  unfold handlersOf
  split
  · rename_i Q hf
    have hQ := List.mem_of_find?_eq_some hf
    have hid : Q.peerID = P.peerID := by simpa using List.find?_some hf
    rw [List.inj_on_of_nodup_map hn hQ hP hid]
  · rename_i hf
    simpa using List.find?_eq_none.mp hf P hP

theorem handlersOf_of_not_mem {peerID : Int} (hno : peerID ∉ c.peers.map (·.peerID)) : handlersOf c peerID = [] := by
  unfold handlersOf
  split
  · rename_i Q hf
    have hid : Q.peerID = peerID := by simpa using List.find?_some hf
    exact absurd (List.mem_map.mpr ⟨Q, List.mem_of_find?_eq_some hf, hid⟩) hno
  · rfl

/-- The element of `peerID` has the handlers `hs`, is missing when there are none, and every
other element is as it was. -/
structure Changed (c c' : PeerConnSummary) (peerID : Int) (hs : List McpHandler) : Prop where
  elem : ∀ Q ∈ c'.peers, Q ∈ c.peers ∧ Q.peerID ≠ peerID ∨ Q.peerID = peerID ∧ Q.mcpHandlers = hs ∧ hs ≠ []
  kept : ∀ Q ∈ c.peers, Q.peerID ≠ peerID → Q ∈ c'.peers
  new : hs ≠ [] → peerID ∈ c'.peers.map (·.peerID)

theorem changed_set (hn : (c.peers.map (·.peerID)).Nodup) {i : Nat} {P : PeerConn} (hP : c.peers[i]? = some P)
    (Q : PeerConn) (hid : Q.peerID = P.peerID) (hne : Q.mcpHandlers ≠ []) (index : Nat) :
    Changed c ⟨c.peers.set i Q, index⟩ P.peerID Q.mcpHandlers where
  elem := by
    intro R hR
    rcases (mem_set_ids hn hP).mp hR with rfl | hR
    · exact .inr ⟨hid, rfl, hne⟩
    · exact .inl hR
  kept R hR hRid := (mem_set_ids hn hP).mpr (.inr ⟨hR, hRid⟩)
  new _ := by
    rw [← hid]
    exact List.mem_map_of_mem (List.mem_set (List.getElem?_eq_some_iff.mp hP).1 Q)

theorem connect_changed (hn : (c.peers.map (·.peerID)).Nodup) (peerID : Int) (h : McpHandler)
    (peerRand handleRand rawIndex : Nat) :
    Changed c (connect c peerID h peerRand handleRand rawIndex) peerID (handlersOf c peerID ++ [h]) := by
  unfold Client.connect
  split
  · rename_i i hf
    obtain ⟨hi, hid, -⟩ := List.findIdx?_eq_some_iff_getElem.mp hf
    obtain rfl : c.peers[i].peerID = peerID := by simpa using hid
    have hP := List.getElem?_eq_getElem hi
    rw [handlersOf_of_mem hn (List.getElem_mem hi), modify_of_getElem? hP]
    exact changed_set hn hP
      ⟨c.peers[i].peerID, c.peers[i].mcpHandlers ++ [h], handleRand % (c.peers[i].mcpHandlers.length + 1)⟩
      rfl (by simp) c.index
  · rename_i hf
    have hno : peerID ∉ c.peers.map (·.peerID) := by
      rw [List.findIdx?_eq_none_iff] at hf
      rintro hm
      obtain ⟨P, hP, hid⟩ := List.mem_map.mp hm
      simpa [hid] using hf P hP
    rw [handlersOf_of_not_mem hno]
    refine ⟨fun Q hQ => ?_, fun Q hQ _ => List.mem_append_left _ hQ, fun _ => ?_⟩
    · rcases List.mem_append.mp hQ with hQ | hQ
      · exact .inl ⟨hQ, fun hid => hno (hid ▸ List.mem_map_of_mem hQ)⟩
      · obtain rfl := List.mem_singleton.mp hQ
        exact .inr ⟨rfl, rfl, List.cons_ne_nil _ _⟩
    · exact List.mem_map.mpr ⟨⟨peerID, [h], rawIndex⟩, List.mem_append_right _ List.mem_cons_self, rfl⟩

theorem changed_self (hn : (c.peers.map (·.peerID)).Nodup) (hne : ∀ P ∈ c.peers, P.mcpHandlers ≠ []) (peerID : Int) :
    Changed c c peerID (handlersOf c peerID) where
  elem := by
    intro Q hQ
    by_cases hid : Q.peerID = peerID
    · subst hid
      rw [handlersOf_of_mem hn hQ]
      exact .inr ⟨rfl, rfl, hne Q hQ⟩
    · exact .inl ⟨hQ, hid⟩
  kept _ hQ _ := hQ
  new h := by
    by_contra hno
    exact h (handlersOf_of_not_mem hno)

theorem disconnect_changed (hn : (c.peers.map (·.peerID)).Nodup) (hne : ∀ P ∈ c.peers, P.mcpHandlers ≠ [])
    (hhs : ∀ P ∈ c.peers, P.mcpHandlers.Nodup) (peerID : Int) (h : McpHandler) :
    Changed c (disconnect c peerID h) peerID ((handlersOf c peerID).filter (· ≠ h)) := by
  cases hf : c.peers.findIdx? (·.peerID = peerID) with
  | none =>
    have hno : peerID ∉ c.peers.map (·.peerID) := by
      rw [List.findIdx?_eq_none_iff] at hf
      rintro hm
      obtain ⟨P, hP, hid⟩ := List.mem_map.mp hm
      simpa [hid] using hf P hP
    have hself := changed_self hn hne peerID
    rw [handlersOf_of_not_mem hno] at hself ⊢
    simp only [Client.disconnect, hf]
    exact hself
  | some i =>
    obtain ⟨hi, hid, -⟩ := List.findIdx?_eq_some_iff_getElem.mp hf
    obtain rfl : c.peers[i].peerID = peerID := by simpa using hid
    have hP := List.getElem?_eq_getElem hi
    have hPm := List.getElem_mem hi
    have hself := changed_self hn hne c.peers[i].peerID
    rw [handlersOf_of_mem hn hPm] at hself ⊢
    simp only [Client.disconnect, hf, hP]
    generalize c.peers[i] = P at hP hPm hself
    by_cases hh : h ∈ P.mcpHandlers
    · rw [if_pos hh]
      have hlength := filter_ne_length (hhs P hPm) hh
      by_cases hlen : 1 < P.mcpHandlers.length
      · rw [if_pos hlen]
        refine changed_set hn hP
          ⟨P.peerID, P.mcpHandlers.filter (· ≠ h), wrap P.index (P.mcpHandlers.length - 1)⟩ rfl ?_ c.index
        apply List.ne_nil_of_length_pos
        show 0 < (P.mcpHandlers.filter (· ≠ h)).length
        omega
      · rw [if_neg hlen, List.eq_nil_of_length_eq_zero (by omega : (P.mcpHandlers.filter (· ≠ h)).length = 0)]
        refine ⟨fun Q hQ => .inl ?_, fun Q hQ hid => ?_, fun h => absurd rfl h⟩
        · obtain ⟨hQ, hid⟩ := List.mem_filter.mp hQ
          exact ⟨hQ, by simpa using hid⟩
        · exact List.mem_filter.mpr ⟨hQ, by simpa using hid⟩
    · rw [if_neg hh, List.filter_eq_self.mpr]
      · exact hself
      · intro k hk
        rw [decide_eq_true_eq]
        exact fun heq => hh (heq ▸ hk)

/-! ## The invariant -/

theorem Listed.connInv (hl : Listed lst live c) : ConnInv lst c :=
  ⟨hl.once, fun P hP h hh => ((hl.handler P hP h).mp hh).2⟩

theorem Listed.mem_handlersOf (hl : Listed lst live c) (peerID : Int) (k : McpHandler) :
    k ∈ handlersOf c peerID ↔ k ∈ live ∧ getPeerID lst k.handleID = peerID := by
  by_cases hid : peerID ∈ c.peers.map (·.peerID)
  · obtain ⟨P, hP, rfl⟩ := List.mem_map.mp hid
    rw [handlersOf_of_mem hl.once hP]
    exact hl.handler P hP k
  · rw [handlersOf_of_not_mem hid]
    refine ⟨fun hk => absurd hk List.not_mem_nil, fun ⟨hk, hkid⟩ => ?_⟩
    exact absurd (hkid ▸ hl.peer k hk) hid

theorem Listed.handlersOf_nodup (hl : Listed lst live c) (peerID : Int) : (handlersOf c peerID).Nodup := by
  by_cases hid : peerID ∈ c.peers.map (·.peerID)
  · obtain ⟨P, hP, rfl⟩ := List.mem_map.mp hid
    rw [handlersOf_of_mem hl.once hP]
    exact hl.handlersOnce P hP
  · rw [handlersOf_of_not_mem hid]
    exact List.nodup_nil

theorem Listed.changed {live' : List McpHandler} {c' : PeerConnSummary} {peerID : Int} {hs : List McpHandler}
    (hl : Listed lst live c) (hc : Changed c c' peerID hs) (hn : (c'.peers.map (·.peerID)).Nodup) (hhs : hs.Nodup)
    (hsame : ∀ k, getPeerID lst k.handleID ≠ peerID → (k ∈ live' ↔ k ∈ live))
    (hmem : ∀ k, k ∈ hs ↔ k ∈ live' ∧ getPeerID lst k.handleID = peerID) : Listed lst live' c' where
  once := hn
  nonempty := by
    intro Q hQ
    rcases hc.elem Q hQ with ⟨hQ, -⟩ | ⟨-, hQ, hne⟩
    · exact hl.nonempty Q hQ
    · rwa [hQ]
  handlersOnce := by
    intro Q hQ
    rcases hc.elem Q hQ with ⟨hQ, -⟩ | ⟨-, hQ, -⟩
    · exact hl.handlersOnce Q hQ
    · rwa [hQ]
  handler := by
    intro Q hQ k
    rcases hc.elem Q hQ with ⟨hQ, hid⟩ | ⟨hid, hQ, -⟩
    · rw [hl.handler Q hQ k]
      refine and_congr_left fun hk => ?_
      exact (hsame k (by rwa [hk])).symm
    · rw [hQ, hid, hmem k]
  peer := by
    intro k hk
    by_cases hid : getPeerID lst k.handleID = peerID
    · rw [hid]
      exact hc.new (List.ne_nil_of_mem ((hmem k).mpr ⟨hk, hid⟩))
    · obtain ⟨P, hP, hPid⟩ := List.mem_map.mp (hl.peer k ((hsame k hid).mp hk))
      exact List.mem_map.mpr ⟨P, hc.kept P hP (by rwa [hPid]), hPid⟩

theorem Listed.connect (hl : Listed lst live c) (hnew : h ∉ live) (peerRand handleRand rawIndex : Nat) :
    Listed lst (live ++ [h]) (connect c (getPeerID lst h.handleID) h peerRand handleRand rawIndex) := by
  have hnot : h ∉ handlersOf c (getPeerID lst h.handleID) := fun hh => hnew ((hl.mem_handlersOf _ h).mp hh).1
  refine hl.changed (connect_changed hl.once _ h peerRand handleRand rawIndex)
    (hl.connInv.connect h peerRand handleRand rawIndex).nodup ?_ (fun k hid => ?_) (fun k => ?_)
  · exact (hl.handlersOf_nodup _).append (List.nodup_singleton h) (by simpa using hnot)
  · rw [List.mem_append, List.mem_singleton]
    exact or_iff_left fun hk => hid (by rw [hk])
  · rw [List.mem_append, List.mem_append, hl.mem_handlersOf, List.mem_singleton]
    constructor
    · rintro (⟨hk, hid⟩ | rfl)
      · exact ⟨.inl hk, hid⟩
      · exact ⟨.inr rfl, rfl⟩
    · rintro ⟨hk | hk, hid⟩
      · exact .inl ⟨hk, hid⟩
      · exact .inr hk

theorem Listed.disconnect (hl : Listed lst live c) :
    Listed lst (live.filter (· ≠ h)) (disconnect c (getPeerID lst h.handleID) h) := by
  refine hl.changed (disconnect_changed hl.once hl.nonempty hl.handlersOnce _ h)
    (hl.connInv.disconnect _ h).nodup ?_ (fun k hid => ?_) (fun k => ?_)
  · exact (hl.handlersOf_nodup _).filter _
  · rw [List.mem_filter, decide_eq_true_eq]
    refine and_iff_left fun hk => hid (by rw [hk])
  · rw [List.mem_filter, List.mem_filter, hl.mem_handlersOf, and_right_comm]

theorem Listed.turn (hl : Listed lst live c) {i : Nat} {P : PeerConn} (hP : c.peers[i]? = some P) (k index : Nat) :
    Listed lst live ⟨c.peers.set i { P with index := k }, index⟩ := by
  have hPm : P ∈ c.peers := List.mem_of_getElem? hP
  refine hl.changed (changed_set hl.once hP { P with index := k } rfl (hl.nonempty P hPm) index)
    (hl.connInv.turn hP k index).nodup (hl.handlersOnce P hPm) (fun _ _ => Iff.rfl) (hl.handler P hPm)

theorem Listed.pick (hl : Listed lst live c) : Listed lst live (Client.getMcpHandler c).2 := by
  unfold Client.getMcpHandler
  split
  · exact hl
  · rename_i P hP
    exact hl.turn hP _ _

theorem Listed.picked (hl : Listed lst live c) :
    ((Client.getMcpHandler c).1 = none ↔ live = []) ∧ ∀ h, (Client.getMcpHandler c).1 = some h → h ∈ live := by
  unfold Client.getMcpHandler
  split
  · rename_i hP
    have hnil : c.peers = [] := by
      by_contra hne
      have hlt : wrap c.index c.peers.length < c.peers.length := wrap_lt (List.length_pos_iff.mpr hne)
      rw [List.getElem?_eq_getElem hlt] at hP
      cases hP
    have hlive : live = [] := by
      rw [List.eq_nil_iff_forall_not_mem]
      intro h hh
      have := hl.peer h hh
      rw [hnil] at this
      cases this
    simp [hlive]
  · rename_i P hP
    have hPm : P ∈ c.peers := List.mem_of_getElem? hP
    have hlt : wrap P.index P.mcpHandlers.length < P.mcpHandlers.length :=
      wrap_lt (List.length_pos_iff.mpr (hl.nonempty P hPm))
    have hmem := (hl.handler P hPm _).mp (List.getElem_mem hlt)
    rw [List.getElem?_eq_getElem hlt]
    refine ⟨⟨fun h => absurd h (Option.some_ne_none _), fun h => ?_⟩, fun h hh => ?_⟩
    · rw [h] at hmem
      cases hmem.1
    · obtain rfl := Option.some.inj hh
      exact hmem.1

theorem listed_init (lst : PeerList) : Listed lst [] {} where
  once := List.nodup_nil
  nonempty _ h := by cases h
  handlersOnce _ h := by cases h
  handler _ h := by cases h
  peer _ h := by cases h

end

/-! ## Runs -/

section
variable {lst : PeerList} {T : PeerConnectionSummaryInfo} {tr : TableHistory}

theorem liveHandlers_append (tr : TableHistory) (en : Entry PeerConnectionSummaryInfo TableEvent (Option McpHandler)) :
    liveHandlers (tr ++ [en]) = liveStep (liveHandlers tr) en.ev := by
  rw [liveHandlers, List.foldl_append]
  rfl

/-- The list model's step for an event, and what a pick gives there. -/
def listStep (lst : PeerList) (c : PeerConnSummary) : TableEvent → PeerConnSummary × List (Option McpHandler)
  | .connected h peerRand handleRand mem =>
    (connect c (getPeerID lst h.handleID) h peerRand handleRand (mem.index c.peers.length), [])
  | .networkError h _ => (disconnect c (getPeerID lst h.handleID) h, [])
  | .getMcpHandler => ((Client.getMcpHandler c).2, [(Client.getMcpHandler c).1])

theorem tableStep_table {live : List McpHandler} {c : PeerConnSummary} (hl : Listed lst live c) (e : TableEvent)
    (ha : Allowed lst tr T e) :
    tableStep lst (table c) e = .ok (table (listStep lst c e).1, (listStep lst c e).2) := by
  cases e with
  | connected h peerRand handleRand mem =>
    rw [tableStep, onConnectedNodify_table ha.1, Except.ok_bind]
    rfl
  | networkError h mem =>
    rw [tableStep, onNetworkError_table ha hl.once hl.handlersOnce, Except.ok_bind]
    rfl
  | getMcpHandler =>
    rw [tableStep, getMcpHandler_table hl.nonempty, Except.ok_bind]
    rfl

theorem Listed.listStep {live : List McpHandler} {c : PeerConnSummary} (hl : Listed lst live c) (e : TableEvent)
    (hlive : live = liveHandlers tr) (ha : Allowed lst tr T e) :
    Listed lst (liveStep live e) (listStep lst c e).1 := by
  cases e with
  | connected h peerRand handleRand mem => exact hl.connect (hlive ▸ ha.2) _ _ _
  | networkError h mem => exact hl.disconnect
  | getMcpHandler => exact hl.pick

theorem run_listed (h : Run (tableStep lst) {} (Allowed lst) tr T) :
    ∃ c, T = table c ∧ Listed lst (liveHandlers tr) c := by
  refine h.invariant (fun tr T => ∃ c, T = table c ∧ Listed lst (liveHandlers tr) c) ⟨{}, rfl, listed_init lst⟩ ?_
  rintro tr _ e s' outs - ⟨c, rfl, hl⟩ ha hst
  rw [tableStep_table hl e ha] at hst
  obtain ⟨rfl, -⟩ := Prod.mk.inj (Except.ok.inj hst)
  exact ⟨_, rfl, by rw [liveHandlers_append]; exact hl.listStep e rfl ha⟩

/-- After every order of connects, losses and picks the arrays list the live handlers, no
next event makes an access outside of them, and a pick gives a live handler if there is one. -/
theorem run_exact (h : Run (tableStep lst) {} (Allowed lst) tr T) :
    Exact lst (liveHandlers tr) T ∧
      (∀ e, Allowed lst tr T e → ∃ T' outs, tableStep lst T e = .ok (T', outs)) ∧
      ∃ T' o, tableStep lst T .getMcpHandler = .ok (T', [o]) ∧ (o = none ↔ liveHandlers tr = []) ∧
        ∀ h, o = some h → h ∈ liveHandlers tr := by
  obtain ⟨c, rfl, hl⟩ := run_listed h
  refine ⟨hl.exact, fun e ha => ⟨_, _, tableStep_table hl e ha⟩, ?_⟩
  have ha : Allowed lst tr (table c) .getMcpHandler := trivial
  exact ⟨_, _, tableStep_table hl .getMcpHandler ha, hl.picked⟩

theorem run_exact_lost :
    let lst : PeerList := [(1, [10, 11]), (2, [20])]
    let mem : NewMemory := ⟨fun _ => ⟨9, 9⟩, fun _ => 77⟩
    let evs : List TableEvent := [.connected ⟨1, 10⟩ 0 0 mem, .getMcpHandler, .connected ⟨2, 20⟩ 5 0 mem,
      .connected ⟨3, 11⟩ 0 3 mem, .networkError ⟨1, 10⟩ mem, .getMcpHandler, .networkError ⟨2, 20⟩ mem]
    liveHandlers (trace (tableStep lst) {} evs) = [⟨3, 11⟩] ∧
      Exact lst (liveHandlers (trace (tableStep lst) {} evs)) (final (tableStep lst) {} evs) := by
  intro lst mem evs
  exact ⟨by decide, (run_exact (run_of_meets (tableStep lst) {} (Allowed lst) evs (by decide))).1⟩

end

end VProtocol.Client.PeerTable
