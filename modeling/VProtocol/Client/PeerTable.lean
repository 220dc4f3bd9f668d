import VProtocol.Lib.RawArray
import VProtocol.Client.Picks

/-!
# The connection table as arrays

`m_parrPeerConnInfo` and the `m_ppMcpHandler` of its elements, allocated anew and
copied on every connect and loss, with their counts apart. Each operation does to
the arrays what the operation of `Conn` does to the lists, and no access falls
outside of an array. The counts are natural numbers: a live handler holds a
descriptor of the process, so they stay far below `2 ^ 32`.
-/

namespace VProtocol.Client.PeerTable

open RawArray

structure PeerConnectionInfo where
  ppMcpHandler : Option (List McpHandler) := none
  peerID : Int := 0
  handleIDNum : Nat := 0
  index : Nat

structure PeerConnectionSummaryInfo where
  parrPeerConnInfo : Option (List PeerConnectionInfo) := none
  peerSessionNum : Nat := 0
  index : Nat := 0

/-- What the memory of new arrays happens to hold; `m_nIndex` is the one member of an
element that is not initialised. -/
structure NewMemory where
  handlers : Nat → McpHandler
  index : Nat → Nat

def newPeers (mem : NewMemory) (n : Nat) : List PeerConnectionInfo := fresh (fun i => { index := mem.index i }) n

def newHandlers (mem : NewMemory) (n : Nat) : List McpHandler := fresh mem.handlers n

def bounds {α : Type} : Option α → Res α
  | some a => .ok a
  | none => .error .outOfRange

def deref {α : Type} : Option α → Res α
  | some a => .ok a
  | none => .error .nullPtr

/-! ## The operations -/

/-- The first part of `OnConnectedNodify`: the table with an element for the peer, and its position. -/
def findOrAddPeer (T : PeerConnectionSummaryInfo) (peerID : Int) (peerRand : Nat) (mem : NewMemory) :
    Res (PeerConnectionSummaryInfo × Nat) :=
  match T.parrPeerConnInfo with
  | some parr => do
    match ← bounds (search (·.peerID = peerID) parr T.peerSessionNum 0) with
    | some i => .ok (T, i)
    | none =>
      let parr ← bounds (blockCopy (newPeers mem (T.peerSessionNum + 1)) parr T.peerSessionNum)
      let P ← bounds parr[T.peerSessionNum]?
      let parr ← bounds (write parr T.peerSessionNum { P with peerID })
      .ok (⟨some parr, T.peerSessionNum + 1, peerRand % (T.peerSessionNum + 1)⟩, T.peerSessionNum)
  | none => do
    let parr := newPeers mem 1
    let P ← bounds parr[0]?
    let parr ← bounds (write parr 0 { P with peerID })
    .ok (⟨some parr, 1, T.index⟩, 0)

/-- The second part of it: the element with one more handler. -/
def addHandler (P : PeerConnectionInfo) (h : McpHandler) (handleRand : Nat) (mem : NewMemory) :
    Res PeerConnectionInfo :=
  match P.ppMcpHandler with
  | some pp => do
    let pp ← bounds (blockCopy (newHandlers mem (P.handleIDNum + 1)) pp P.handleIDNum)
    let pp ← bounds (write pp P.handleIDNum h)
    .ok { P with
      ppMcpHandler := some pp
      handleIDNum := P.handleIDNum + 1
      index := handleRand % (P.handleIDNum + 1) }
  | none => do
    let pp ← bounds (write (newHandlers mem 1) 0 h)
    .ok { P with ppMcpHandler := some pp, handleIDNum := 1 }

def onConnectedNodify (lst : PeerList) (T : PeerConnectionSummaryInfo) (h : McpHandler) (peerRand handleRand : Nat)
    (mem : NewMemory) : Res PeerConnectionSummaryInfo :=
  if getPeerID lst h.handleID = -1 then .error .assertion
  else do
    let (T, i) ← findOrAddPeer T (getPeerID lst h.handleID) peerRand mem
    let parr ← deref T.parrPeerConnInfo
    let P ← bounds parr[i]?
    let P ← addHandler P h handleRand mem
    let parr ← bounds (write parr i P)
    .ok { T with parrPeerConnInfo := some parr }

/-- What `OnNetworkError` does with the element `P` at position `i`, which is the lost
handler's peer: the search over its handlers stops at the first that is lost. -/
def dropHandler (T : PeerConnectionSummaryInfo) (parr : List PeerConnectionInfo) (i : Nat) (P : PeerConnectionInfo)
    (peerID : Int) (h : McpHandler) (mem : NewMemory) : Res PeerConnectionSummaryInfo := do
  let pp ← deref P.ppMcpHandler
  match ← bounds (search (· = h) pp P.handleIDNum 0) with
  | none => .ok T
  | some _ =>
    if 1 < P.handleIDNum then
      let pp ← bounds (copyIf (· ≠ h) pp P.handleIDNum 0 (newHandlers mem (P.handleIDNum - 1)) 0)
      let parr ← bounds (write parr i
        { P with
          ppMcpHandler := some pp
          handleIDNum := P.handleIDNum - 1
          index := wrap P.index (P.handleIDNum - 1) })
      .ok { T with parrPeerConnInfo := some parr }
    else
      let parr ← bounds (write parr i { P with ppMcpHandler := none })
      if 1 < T.peerSessionNum then
        let parr ← bounds
          (copyIf (·.peerID ≠ peerID) parr T.peerSessionNum 0 (newPeers mem (T.peerSessionNum - 1)) 0)
        .ok ⟨some parr, T.peerSessionNum - 1, wrap T.index (T.peerSessionNum - 1)⟩
      else .ok ⟨none, 0, 0⟩

/-- The loop over the peers; it reads the count and the array anew in every round and so
goes on over whatever a round put in their place. The count never grows: as many rounds
as there were peers are enough. -/
def lossLoop (peerID : Int) (h : McpHandler) (mem : NewMemory) :
    Nat → Nat → PeerConnectionSummaryInfo → Res PeerConnectionSummaryInfo
  | 0, _, T => .ok T
  | n + 1, i, T =>
    if i < T.peerSessionNum then do
      let parr ← deref T.parrPeerConnInfo
      let P ← bounds parr[i]?
      if P.peerID = peerID then
        let T ← dropHandler T parr i P peerID h mem
        lossLoop peerID h mem n (i + 1) T
      else lossLoop peerID h mem n (i + 1) T
    else .ok T

def onNetworkError (lst : PeerList) (T : PeerConnectionSummaryInfo) (h : McpHandler) (mem : NewMemory) :
    Res PeerConnectionSummaryInfo :=
  if getPeerID lst h.handleID = -1 then .error .assertion
  else lossLoop (getPeerID lst h.handleID) h mem T.peerSessionNum 0 T

def getMcpHandler (T : PeerConnectionSummaryInfo) : Res (PeerConnectionSummaryInfo × Option McpHandler) :=
  if T.peerSessionNum ≠ 0 then do
    let index := wrap T.index T.peerSessionNum
    let parr ← deref T.parrPeerConnInfo
    let P ← bounds parr[index]?
    let pp ← deref P.ppMcpHandler
    let h ← bounds pp[wrap P.index P.handleIDNum]?
    let parr ← bounds (write parr index { P with index := wrap P.index P.handleIDNum + 1 })
    .ok ({ T with parrPeerConnInfo := some parr, index := index + 1 }, some h)
  else .ok (T, none)

/-! ## The arrays of a table -/

def row (P : PeerConn) : PeerConnectionInfo := ⟨some P.mcpHandlers, P.peerID, P.mcpHandlers.length, P.index⟩

def table (c : PeerConnSummary) : PeerConnectionSummaryInfo where
  parrPeerConnInfo := if c.peers.isEmpty then none else some (c.peers.map row)
  peerSessionNum := c.peers.length
  index := c.index

section
variable {lst : PeerList} {c c' : PeerConnSummary} {h : McpHandler} {mem : NewMemory}

@[simp] theorem bounds_some {α : Type} (a : α) : bounds (some a) = .ok a := rfl

@[simp] theorem deref_some {α : Type} (a : α) : deref (some a) = .ok a := rfl

theorem table_cons {P : PeerConn} {peers : List PeerConn} {index : Nat} :
    table ⟨P :: peers, index⟩ = ⟨some ((P :: peers).map row), peers.length + 1, index⟩ := rfl

theorem table_of_ne {peers : List PeerConn} {index : Nat} (hne : peers ≠ []) :
    table ⟨peers, index⟩ = ⟨some (peers.map row), peers.length, index⟩ := by
  cases peers with
  | nil => exact absurd rfl hne
  | cons P peers => rfl

theorem addHandler_row (P : PeerConn) (h : McpHandler) (handleRand : Nat) (mem : NewMemory) :
    addHandler (row P) h handleRand mem =
      .ok (row { P with
        mcpHandlers := P.mcpHandlers ++ [h]
        index := handleRand % (P.mcpHandlers.length + 1) }) := by
  simp only [addHandler, row, newHandlers, blockCopy_fresh, bounds_some, Except.ok_bind, write_concat]
  simp

theorem search_ids (peers : List PeerConn) (peerID : Int) :
    search (fun P : PeerConnectionInfo => decide (P.peerID = peerID)) (peers.map row) peers.length 0 =
      some (peers.findIdx? (·.peerID = peerID)) := by
  have hs := search_all (fun P : PeerConnectionInfo => decide (P.peerID = peerID)) (peers.map row)
  rw [List.length_map] at hs
  rw [hs, List.findIdx?_map]
  rfl

theorem modify_of_getElem? {α : Type} {l : List α} {i : Nat} {x : α} (hx : l[i]? = some x) (f : α → α) :
    l.modify i f = l.set i (f x) := by
  obtain ⟨hi, -⟩ := List.getElem?_eq_some_iff.mp hx
  apply List.ext_getElem?
  intro j
  rw [List.getElem?_modify, List.getElem?_set]
  by_cases hij : i = j
  · subst hij
    rw [hx, if_pos rfl, if_pos hi, Option.map_eq_map, Option.map_some, if_pos rfl]
  · simp [hij]

theorem findOrAddPeer_nil (index : Nat) (peerID : Int) (peerRand : Nat) (mem : NewMemory) :
    findOrAddPeer (table ⟨[], index⟩) peerID peerRand mem =
      .ok (⟨some [{ peerID, index := mem.index 0 }], 1, index⟩, 0) := rfl

theorem findOrAddPeer_found {peers : List PeerConn} {peerID : Int} {i : Nat}
    (hf : peers.findIdx? (·.peerID = peerID) = some i) (index peerRand : Nat) (mem : NewMemory) :
    findOrAddPeer (table ⟨peers, index⟩) peerID peerRand mem = .ok (table ⟨peers, index⟩, i) := by
  have hne : peers ≠ [] := by rintro rfl; simp at hf
  rw [table_of_ne hne]
  simp only [findOrAddPeer, search_ids, hf, bounds_some, Except.ok_bind]

theorem findOrAddPeer_new {peers : List PeerConn} {peerID : Int} (hne : peers ≠ [])
    (hf : peers.findIdx? (·.peerID = peerID) = none) (index peerRand : Nat) (mem : NewMemory) :
    findOrAddPeer (table ⟨peers, index⟩) peerID peerRand mem =
      .ok (⟨some (peers.map row ++ [{ peerID, index := mem.index peers.length }]), peers.length + 1,
        peerRand % (peers.length + 1)⟩, peers.length) := by
  have hcopy := blockCopy_fresh (fun i => ({ index := mem.index i } : PeerConnectionInfo)) (peers.map row)
  have hwrite := write_concat (peers.map row) ({ index := mem.index peers.length } : PeerConnectionInfo)
    { peerID, index := mem.index peers.length }
  have hread : (peers.map row ++ [({ index := mem.index peers.length } : PeerConnectionInfo)])[peers.length]? =
      some { index := mem.index peers.length } := by
    rw [List.getElem?_append_right (by simp)]
    simp
  rw [List.length_map] at hcopy hwrite
  rw [table_of_ne hne]
  simp only [findOrAddPeer, search_ids, hf, bounds_some, Except.ok_bind, newPeers, hcopy, hread, hwrite]

theorem onConnectedNodify_table (hp : getPeerID lst h.handleID ≠ -1) (c : PeerConnSummary) (peerRand handleRand : Nat)
    (mem : NewMemory) :
    onConnectedNodify lst (table c) h peerRand handleRand mem =
      .ok (table (connect c (getPeerID lst h.handleID) h peerRand handleRand (mem.index c.peers.length))) := by
  obtain ⟨peers, index⟩ := c
  rw [onConnectedNodify, if_neg hp]
  generalize getPeerID lst h.handleID = peerID
  cases hf : peers.findIdx? (·.peerID = peerID) with
  | some i =>
    obtain ⟨hi, -, -⟩ := List.findIdx?_eq_some_iff_getElem.mp hf
    have hne : peers ≠ [] := by rintro rfl; simp at hf
    have hread : (peers.map row)[i]? = some (row peers[i]) := by
      rw [List.getElem?_map, List.getElem?_eq_getElem hi]
      rfl
    rw [findOrAddPeer_found hf, table_of_ne hne]
    simp only [Except.ok_bind, deref_some, hread, bounds_some, addHandler_row,
      write_of_lt (show i < (peers.map row).length by simpa using hi)]
    rw [connect, hf, table_of_ne (by simpa [List.modify_eq_nil_iff] using hne), List.length_modify]
    rw [modify_of_getElem? (List.getElem?_eq_getElem hi), List.map_set]
  | none =>
    rcases peers.eq_nil_or_concat with rfl | ⟨init, last, hl⟩
    · rw [findOrAddPeer_nil]
      simp [Except.ok_bind, addHandler, newHandlers, fresh, write, connect, table, row]
    · have hne : peers ≠ [] := by rw [hl]; simp
      have hread : (peers.map row ++ [({ peerID, index := mem.index peers.length } : PeerConnectionInfo)])[peers.length]? =
          some { peerID, index := mem.index peers.length } := by
        rw [List.getElem?_append_right (by simp)]
        simp
      have hwrite := write_concat (peers.map row) ({ peerID, index := mem.index peers.length } : PeerConnectionInfo)
        (row ⟨peerID, [h], mem.index peers.length⟩)
      rw [List.length_map] at hwrite
      have hadd : addHandler { peerID, index := mem.index peers.length } h handleRand mem =
          .ok (row ⟨peerID, [h], mem.index peers.length⟩) := by
        simp [addHandler, newHandlers, fresh, write, Except.ok_bind, row]
      rw [findOrAddPeer_new hne hf]
      simp only [Except.ok_bind, deref_some, bounds_some, hread, hadd, hwrite]
      rw [connect, hf, table_of_ne (by simp)]
      have hemp : peers.isEmpty = false := by simpa using hne
      simp [hemp]

/-! ## The loss of a handler -/

theorem getElem?_row {peers : List PeerConn} {i : Nat} {P : PeerConn} (hP : peers[i]? = some P) :
    (peers.map row)[i]? = some (row P) := by
  rw [List.getElem?_map, hP, Option.map_some]

theorem filter_set {α : Type} {p : α → Bool} {x : α} (hx : p x = false) : ∀ {l : List α} {i : Nat},
    (∀ y, l[i]? = some y → p y = false) → (l.set i x).filter p = l.filter p
  | [], _, _ => rfl
  | y :: l, 0, hy => by
    have hy : p y = false := hy y rfl
    rw [List.set_cons_zero, List.filter_cons_of_neg (by simp [hx]), List.filter_cons_of_neg (by simp [hy])]
  | y :: l, i + 1, hy => by
    have ih := filter_set (l := l) (i := i) hx hy
    rw [List.set_cons_succ, List.filter_cons, List.filter_cons, ih]

theorem filter_ne_length {l : List McpHandler} (hl : l.Nodup) (hh : h ∈ l) :
    (l.filter (· ≠ h)).length = l.length - 1 := by
  rw [← List.length_erase_of_mem hh, hl.erase_eq_filter]
  congr 1
  apply List.filter_congr
  intro x _
  by_cases hx : x = h <;> simp [hx]

theorem filter_ids_length {peers : List PeerConn} (hids : (peers.map (·.peerID)).Nodup) {P : PeerConn} (hP : P ∈ peers) :
    (peers.filter (·.peerID ≠ P.peerID)).length = peers.length - 1 := by
  induction peers with
  | nil => cases hP
  | cons Q peers ih =>
    rw [List.map_cons, List.nodup_cons] at hids
    by_cases hQ : Q.peerID = P.peerID
    · have hall : ∀ R ∈ peers, decide (R.peerID ≠ P.peerID) = true := by
        intro R hR
        rw [decide_eq_true_eq, ← hQ]
        intro heq
        exact hids.1 (heq ▸ List.mem_map_of_mem hR)
      rw [List.filter_cons_of_neg (by simp [hQ]), List.filter_eq_self.mpr hall]
      rfl
    · have hP : P ∈ peers := by
        rcases List.mem_cons.mp hP with rfl | hP
        · exact absurd rfl hQ
        · exact hP
      rw [List.filter_cons_of_pos (by simpa using hQ), List.length_cons, ih hids.2 hP, List.length_cons]
      have := List.length_pos_of_mem hP
      omega

/-- The round of the loop that finds the peer does what the list model does at once. -/
theorem dropHandler_table {i : Nat} {P : PeerConn} (hids : (c.peers.map (·.peerID)).Nodup)
    (hf : c.peers.findIdx? (·.peerID = P.peerID) = some i) (hP : c.peers[i]? = some P) (hhs : P.mcpHandlers.Nodup) :
    dropHandler (table c) (c.peers.map row) i (row P) P.peerID h mem = .ok (table (disconnect c P.peerID h)) := by
  obtain ⟨peers, index⟩ := c
  have hPm : P ∈ peers := List.mem_of_getElem? hP
  have hi : i < peers.length := (List.getElem?_eq_some_iff.mp hP).1
  have hne : peers ≠ [] := List.ne_nil_of_mem hPm
  have hwrite : ∀ R, write (peers.map row) i R = some ((peers.map row).set i R) :=
    write_of_lt (by simpa using hi)
  simp only [dropHandler, row, deref_some, Except.ok_bind, search_all, bounds_some, disconnect]
  simp only [hf, hP]
  by_cases hh : h ∈ P.mcpHandlers
  · have hsome : ∃ j, P.mcpHandlers.findIdx? (fun x => decide (x = h)) = some j := by
      rw [← Option.isSome_iff_exists, List.findIdx?_isSome, List.any_eq_true]
      exact ⟨h, hh, by simp⟩
    obtain ⟨j, hj⟩ := hsome
    rw [hj, if_pos hh]
    by_cases hlen : 1 < P.mcpHandlers.length
    · have hcopy : copyIf (fun x => decide (x ≠ h)) P.mcpHandlers P.mcpHandlers.length 0
          (newHandlers mem (P.mcpHandlers.length - 1)) 0 = some (P.mcpHandlers.filter (· ≠ h)) :=
        copyIf_all _ (by rw [newHandlers, fresh_length, filter_ne_length hhs hh])
      simp only [if_pos hlen, hcopy, bounds_some, Except.ok_bind, hwrite]
      rw [table_of_ne hne, table_of_ne (show peers.set i _ ≠ [] by simpa using hne), List.length_set, List.map_set, row,
        filter_ne_length hhs hh]
    · simp only [if_neg hlen, hwrite, bounds_some, Except.ok_bind]
      have hkept : ((peers.map row).set i { row P with ppMcpHandler := none }).filter (fun R => decide (R.peerID ≠ P.peerID)) =
          (peers.filter (·.peerID ≠ P.peerID)).map row := by
        rw [filter_set (by simp [row]), List.filter_map]
        · rfl
        · intro R hR
          rw [getElem?_row hP] at hR
          obtain rfl := Option.some.inj hR
          simp [row]
      have hlength : (peers.filter (·.peerID ≠ P.peerID)).length = peers.length - 1 := filter_ids_length hids hPm
      by_cases hnum : 1 < peers.length
      · have hsize : (newPeers mem (peers.length - 1)).length =
            (((peers.map row).set i { row P with ppMcpHandler := none }).filter
              (fun R => decide (R.peerID ≠ P.peerID))).length := by
          rw [newPeers, fresh_length, hkept, List.length_map, hlength]
        have hcopy := copyIf_all _ hsize
        rw [List.length_set, List.length_map, hkept] at hcopy
        have hrest : peers.filter (·.peerID ≠ P.peerID) ≠ [] := by
          apply List.ne_nil_of_length_pos
          omega
        rw [table_of_ne hne, table_of_ne hrest, hlength]
        simp only [row] at hcopy
        simp only [if_pos hnum, hcopy, bounds_some, Except.ok_bind]
      · have hrest : peers.filter (·.peerID ≠ P.peerID) = [] := by
          apply List.eq_nil_of_length_eq_zero
          omega
        rw [table_of_ne hne, hrest]
        simp only [if_neg hnum]
        simp [table, wrap]
        omega
  · have hnone : P.mcpHandlers.findIdx? (fun x => decide (x = h)) = none := by
      rw [List.findIdx?_eq_none_iff]
      intro x hx
      simpa using fun heq : x = h => hh (heq ▸ hx)
    rw [hnone, if_neg hh]

theorem lossLoop_succ {i : Nat} {P : PeerConn} (hP : c.peers[i]? = some P) (peerID : Int) (n : Nat) :
    lossLoop peerID h mem (n + 1) i (table c) =
      if P.peerID = peerID then
        (dropHandler (table c) (c.peers.map row) i (row P) peerID h mem) >>= lossLoop peerID h mem n (i + 1)
      else lossLoop peerID h mem n (i + 1) (table c) := by
  obtain ⟨peers, index⟩ := c
  have hi : i < peers.length := (List.getElem?_eq_some_iff.mp hP).1
  have hne : peers ≠ [] := List.ne_nil_of_length_pos (Nat.zero_lt_of_lt hi)
  rw [lossLoop, table_of_ne hne, if_pos hi]
  simp only [deref_some, Except.ok_bind, getElem?_row hP, bounds_some]
  rfl

theorem lossLoop_end {i : Nat} (hi : c.peers.length ≤ i) (peerID : Int) (n : Nat) :
    lossLoop peerID h mem n i (table c) = .ok (table c) := by
  cases n with
  | zero => rfl
  | succ n => exact if_neg (Nat.not_lt.mpr hi)

theorem lossLoop_skip (peerID : Int) : ∀ (n i : Nat), (∀ j P, i ≤ j → c.peers[j]? = some P → P.peerID ≠ peerID) →
    lossLoop peerID h mem n i (table c) = .ok (table c)
  | 0, _, _ => rfl
  | n + 1, i, habs => by
    rcases Nat.lt_or_ge i c.peers.length with hi | hi
    · have hP := List.getElem?_eq_getElem hi
      rw [lossLoop_succ hP, if_neg (habs i _ (Nat.le_refl i) hP)]
      exact lossLoop_skip peerID n (i + 1) fun j P hj => habs j P (by omega)
    · exact lossLoop_end hi peerID (n + 1)

theorem disconnect_later (hids : (c.peers.map (·.peerID)).Nodup) {peerID : Int} {i j : Nat} {P : PeerConn}
    (hf : c.peers.findIdx? (·.peerID = peerID) = some i) (hj : i < j)
    (hP : (disconnect c peerID h).peers[j]? = some P) : P.peerID ≠ peerID := by
  obtain ⟨hi, hid, -⟩ := List.findIdx?_eq_some_iff_getElem.mp hf
  have hother : ∀ {Q}, c.peers[j]? = some Q → Q.peerID ≠ peerID := by
    intro Q hQ heq
    have hjl := (List.getElem?_eq_some_iff.mp hQ).1
    have hij : (c.peers.map (·.peerID))[i]? = (c.peers.map (·.peerID))[j]? := by
      rw [List.getElem?_map, List.getElem?_map, hQ, List.getElem?_eq_getElem hi, Option.map_some, Option.map_some, heq]
      simpa using hid
    have := (List.getElem?_inj (by simpa using hi) hids).mp hij
    omega
  simp only [disconnect, hf, List.getElem?_eq_getElem hi] at hP
  split at hP
  · split at hP
    · rw [List.getElem?_set_ne (by omega)] at hP
      exact hother hP
    · simpa using (List.mem_filter.mp (List.mem_of_getElem? hP)).2
  · exact hother hP

theorem lossLoop_table (hids : (c.peers.map (·.peerID)).Nodup) (hhs : ∀ P ∈ c.peers, P.mcpHandlers.Nodup)
    {peerID : Int} {i : Nat} (hf : c.peers.findIdx? (·.peerID = peerID) = some i) :
    ∀ (n k : Nat), k ≤ i → i < k + n → lossLoop peerID h mem n k (table c) = .ok (table (disconnect c peerID h))
  | 0, _, hk, hn => by omega
  | n + 1, k, hk, hn => by
    obtain ⟨hi, hid, hfirst⟩ := List.findIdx?_eq_some_iff_getElem.mp hf
    have hkl : k < c.peers.length := Nat.lt_of_le_of_lt hk hi
    have hP := List.getElem?_eq_getElem hkl
    rcases Nat.lt_or_eq_of_le hk with hlt | rfl
    · have hne : c.peers[k].peerID ≠ peerID := by simpa using hfirst k hlt
      rw [lossLoop_succ hP, if_neg hne]
      exact lossLoop_table hids hhs hf n (k + 1) hlt (by omega)
    · have hid : c.peers[k].peerID = peerID := by simpa using hid
      subst hid
      rw [lossLoop_succ hP, if_pos rfl, dropHandler_table hids hf hP (hhs _ (List.getElem_mem hkl)), Except.ok_bind]
      exact lossLoop_skip _ n (k + 1) fun j P hj hP => disconnect_later hids hf hj hP

theorem onNetworkError_table (hp : getPeerID lst h.handleID ≠ -1) (hids : (c.peers.map (·.peerID)).Nodup)
    (hhs : ∀ P ∈ c.peers, P.mcpHandlers.Nodup) :
    onNetworkError lst (table c) h mem = .ok (table (disconnect c (getPeerID lst h.handleID) h)) := by
  rw [onNetworkError, if_neg hp]
  cases hf : c.peers.findIdx? (·.peerID = getPeerID lst h.handleID) with
  | some i =>
    obtain ⟨hi, -, -⟩ := List.findIdx?_eq_some_iff_getElem.mp hf
    exact lossLoop_table hids hhs hf _ 0 (Nat.zero_le i) (by rw [Nat.zero_add]; exact hi)
  | none =>
    rw [List.findIdx?_eq_none_iff] at hf
    rw [lossLoop_skip _ _ 0 fun j P _ hP => by simpa using hf P (List.mem_of_getElem? hP)]
    simp only [disconnect, List.findIdx?_eq_none_iff.mpr hf]

/-! ## The pick -/

theorem getMcpHandler_table (hhs : ∀ P ∈ c.peers, P.mcpHandlers ≠ []) :
    getMcpHandler (table c) = .ok (table (Client.getMcpHandler c).2, (Client.getMcpHandler c).1) := by
  obtain ⟨peers, index⟩ := c
  rcases peers.eq_nil_or_concat with rfl | ⟨init, last, hl⟩
  · rfl
  · have hne : peers ≠ [] := by rw [hl]; simp
    have hi : wrap index peers.length < peers.length := wrap_lt (List.length_pos_iff.mpr hne)
    have hP := List.getElem?_eq_getElem hi
    generalize hPe : peers[wrap index peers.length] = P at hP
    have hPm : P ∈ peers := List.mem_of_getElem? hP
    have hk : wrap P.index P.mcpHandlers.length < P.mcpHandlers.length :=
      wrap_lt (List.length_pos_iff.mpr (hhs P hPm))
    have hh := List.getElem?_eq_getElem hk
    have hwrite : ∀ R, write (peers.map row) (wrap index peers.length) R =
        some ((peers.map row).set (wrap index peers.length) R) := write_of_lt (by simpa using hi)
    rw [table_of_ne hne]
    simp only [getMcpHandler, Client.getMcpHandler, hP, getElem?_row hP, deref_some, bounds_some, Except.ok_bind]
    rw [if_pos (by simpa using hne)]
    simp only [row, deref_some, hh, hwrite, bounds_some, Except.ok_bind]
    rw [table_of_ne (show peers.set _ _ ≠ [] by simpa using hne), List.map_set, List.length_set]
    rfl

end

end VProtocol.Client.PeerTable
