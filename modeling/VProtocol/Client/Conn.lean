import Mathlib.Data.List.Nodup
import VProtocol.Client.Msg

/-!
# The connection table

The peers that have a live connection and, for each, its connections, with the
cursors `GetMcpHandler` turns. Picks without a change of the table in between go
round the peers, so as many picks as there are peers are on different peers.
-/

namespace VProtocol.Client

/-- `CVbhPeerConnectionInfo`: `m_ppMcpHandler[0..m_nHandleIDNum)` is the list. -/
structure PeerConn where
  peerID : Int
  mcpHandlers : List McpHandler
  index : Nat

/-- `CVbhPeerConnectionSummaryInfo`: `m_parrPeerConnInfo[0..m_nPeerSessionNum)` is the list. -/
structure PeerConnSummary where
  peers : List PeerConn := []
  index : Nat := 0

/-- The configured peers (`m_lstBcPeer`): peer id and the handle ids of its endorsers. -/
abbrev PeerList := List (UInt16 × List UInt32)

def getPeerID : PeerList → UInt32 → Int
  | [], _ => -1
  | (peer, handles) :: rest, handleID => if handleID ∈ handles then peer.toNat else getPeerID rest handleID

def wrap (index num : Nat) : Nat := if num ≤ index then 0 else index

def getMcpHandler (c : PeerConnSummary) : Option McpHandler × PeerConnSummary :=
  match c.peers[wrap c.index c.peers.length]? with
  | none => (none, c)
  | some P =>
    (P.mcpHandlers[wrap P.index P.mcpHandlers.length]?,
      { peers := c.peers.set (wrap c.index c.peers.length) { P with index := wrap P.index P.mcpHandlers.length + 1 }
        index := wrap c.index c.peers.length + 1 })

/-- `OnConnectedNodify` after the look up of the peer id. A peer that was already
connected gets one more handler; otherwise a new entry is made, whose `m_nIndex`
is whatever its memory holds. -/
def connect (c : PeerConnSummary) (peerID : Int) (h : McpHandler) (peerRand handleRand rawIndex : Nat) :
    PeerConnSummary :=
  match c.peers.findIdx? (·.peerID = peerID) with
  | some i =>
    { c with
      peers := c.peers.modify i fun P =>
        { P with mcpHandlers := P.mcpHandlers ++ [h], index := handleRand % (P.mcpHandlers.length + 1) } }
  | none =>
    { peers := c.peers ++ [⟨peerID, [h], rawIndex⟩]
      index := if c.peers.isEmpty then c.index else peerRand % (c.peers.length + 1) }

def disconnect (c : PeerConnSummary) (peerID : Int) (h : McpHandler) : PeerConnSummary :=
  match c.peers.findIdx? (·.peerID = peerID) with
  | none => c
  | some i =>
    match c.peers[i]? with
    | none => c
    | some P =>
      if h ∈ P.mcpHandlers then
        if 1 < P.mcpHandlers.length then
          { c with
            peers := c.peers.set i
              { P with
                mcpHandlers := P.mcpHandlers.filter (· ≠ h)
                index := wrap P.index (P.mcpHandlers.length - 1) } }
        else
          { peers := c.peers.filter (·.peerID ≠ peerID)
            index := wrap c.index (c.peers.length - 1) }
      else c

/-! ## The table invariant -/

/-- Entries are for different peers, and every handler of an entry was connected with a
handle id of the entry's peer. -/
structure ConnInv (lst : PeerList) (c : PeerConnSummary) : Prop where
  nodup : (c.peers.map (·.peerID)).Nodup
  peer : ∀ P ∈ c.peers, ∀ h ∈ P.mcpHandlers, getPeerID lst h.handleID = P.peerID

end VProtocol.Client
