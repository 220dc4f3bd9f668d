import Mathlib.Data.Int.Order.Basic
import VProtocol.Client.Conn
import VProtocol.Lib.Grouping

/-!
# Loading the peers

`LoadPeerInfo` reads the addresses of the endorsers in the order of their peers and groups
them, each address with a handle id of its own. `CVbhClientService` and
`CVbhCryptClientService` open a group with the first address of a peer, `CIdcClientService`
closes it with the first of the next peer: the groups are the same.
-/

namespace VProtocol.Client

/-- `CBlockchainAddr`, a row of `ES_CFG` or of `T_IDOM_SVR_CONFIG`. -/
structure CBlockchainAddr where
  ipAddr : Blob
  port : Int32
  peerID : Int32
  deriving DecidableEq

/-- A row with the handle id that `AllocHandleID` gives for it. -/
abbrev Row := CBlockchainAddr × UInt32

/-- `CEndorserAddr` and `CIDcServer`. -/
structure EndorserAddr where
  strIpAddr : Blob
  port : Int32
  handleID : UInt32
  deriving DecidableEq

def Row.addr (x : Row) : EndorserAddr := ⟨x.1.ipAddr, x.1.port, x.2⟩

/-! ## Opening a group -/

structure VbhPeer where
  peerID : UInt16 := 0
  lstEndorserAddr : List EndorserAddr := []
  deriving DecidableEq

-- `m_nPeerID` has half the width of the column
def narrow (peerID : Int32) : UInt16 := peerID.toUInt32.toUInt16

structure VbhLoad where
  lstBcPeer : List VbhPeer := []
  nPeerID : Int32 := Int32.minValue

/-- One round of the loop; `pVbhPeer` is the last peer of the list, or `NULL` before there is one. -/
def VbhLoad.row (st : VbhLoad) (x : Row) : Option VbhLoad :=
  let st := if st.nPeerID ≠ x.1.peerID then ⟨st.lstBcPeer ++ [{ peerID := narrow x.1.peerID }], x.1.peerID⟩ else st
  match st.lstBcPeer.getLast? with
  | none => none
  | some P =>
    some { st with lstBcPeer := st.lstBcPeer.dropLast ++ [{ P with lstEndorserAddr := P.lstEndorserAddr ++ [x.addr] }] }

/-- `rows` is `none` where the database cannot be reached or the rows cannot be read. -/
def loadPeerInfo (rows : Option (List Row)) : Option (List VbhPeer) := do
  let l ← rows
  let st ← l.foldlM VbhLoad.row {}
  some st.lstBcPeer

/-! ## Closing a group -/

structure IDcPeer where
  peerID : Int32 := 0
  lstIDcServer : List EndorserAddr := []
  deriving DecidableEq

structure IdcLoad where
  lstIDcPeer : List IDcPeer := []
  bcPeerIDom : List EndorserAddr := []
  nPeerID : Int32 := -1

def IdcLoad.close (st : IdcLoad) : IdcLoad :=
  if st.bcPeerIDom.isEmpty then st
  else { st with lstIDcPeer := st.lstIDcPeer ++ [⟨st.nPeerID, st.bcPeerIDom⟩], bcPeerIDom := [] }

def IdcLoad.row (st : IdcLoad) (x : Row) : IdcLoad :=
  let st := if st.nPeerID ≠ x.1.peerID then { st.close with nPeerID := x.1.peerID } else st
  { st with bcPeerIDom := st.bcPeerIDom ++ [x.addr] }

def loadIdcPeerInfo (rows : Option (List Row)) : Option (List IDcPeer) :=
  rows.map fun l => (l.foldl IdcLoad.row {}).close.lstIDcPeer

/-! ## The groups -/

def samePeer (x y : Row) : Bool := x.1.peerID = y.1.peerID

/-- The rows in their order, cut where the peer changes. -/
def groups (l : List Row) : List (List Row) := l.splitBy samePeer

def vbhPeer (g : List Row) : VbhPeer := ⟨narrow ((g.head?.map (·.1.peerID)).getD 0), g.map Row.addr⟩

def idcPeer (g : List Row) : IDcPeer := ⟨(g.head?.map (·.1.peerID)).getD 0, g.map Row.addr⟩

def lastID (default : Int32) (l : List Row) : Int32 := (l.getLast?.map (·.1.peerID)).getD default

section
variable {l : List Row} {g : List Row} {x : Row}

theorem lastID_concat (d : Int32) : lastID d (l ++ [x]) = x.1.peerID := by
  simp [lastID]

theorem lastID_eq (d : Int32) (hl : l ≠ []) : lastID d l = (l.getLast hl).1.peerID := by
  simp [lastID, List.getLast?_eq_some_getLast hl]

theorem vbhPeer_concat (hg : g ≠ []) : vbhPeer (g ++ [x]) =
    { vbhPeer g with lstEndorserAddr := (vbhPeer g).lstEndorserAddr ++ [x.addr] } := by
  obtain ⟨y, g, rfl⟩ := List.exists_cons_of_ne_nil hg
  simp [vbhPeer]

theorem idcPeer_concat (hg : g ≠ []) :
    idcPeer (g ++ [x]) = ⟨(idcPeer g).peerID, (idcPeer g).lstIDcServer ++ [x.addr]⟩ := by
  obtain ⟨y, g, rfl⟩ := List.exists_cons_of_ne_nil hg
  simp [idcPeer]

theorem groups_same (hl : l ≠ []) (h : (l.getLast hl).1.peerID = x.1.peerID) :
    ∃ gs g, g ≠ [] ∧ groups l = gs ++ [g] ∧ groups (l ++ [x]) = gs ++ [g ++ [x]] :=
  splitBy_concat_same hl (decide_eq_true h)

theorem groups_new (h : ∀ hl : l ≠ [], (l.getLast hl).1.peerID ≠ x.1.peerID) :
    groups (l ++ [x]) = groups l ++ [[x]] := by
  apply splitBy_concat_new
  intro y hy
  obtain ⟨hl, rfl⟩ := List.mem_getLast?_eq_getLast hy
  exact decide_eq_false (h hl)

/-- The loop that opens groups, where the first row does not have the id it starts from. -/
theorem foldlM_row (h : ∀ y ∈ l.head?, y.1.peerID ≠ Int32.minValue) :
    l.foldlM VbhLoad.row {} = some ⟨(groups l).map vbhPeer, lastID Int32.minValue l⟩ := by
  induction l using List.reverseRecOn with
  | nil => rfl
  | append_singleton l x ih =>
    have hhead : ∀ y ∈ l.head?, y.1.peerID ≠ Int32.minValue := by
      intro y hy
      apply h
      rw [List.head?_append, Option.mem_def, Option.mem_def.mp hy, Option.some_or]
    rw [List.foldlM_append, ih hhead, lastID_concat]
    simp only [List.foldlM_cons, List.foldlM_nil, Option.bind_eq_bind, Option.bind_some, Option.pure_def]
    by_cases hne : lastID Int32.minValue l ≠ x.1.peerID
    · have hnew : groups (l ++ [x]) = groups l ++ [[x]] := by
        apply groups_new
        intro hl
        rwa [← lastID_eq Int32.minValue hl]
      simp [VbhLoad.row, hne, hnew, vbhPeer]
    · have heq : lastID Int32.minValue l = x.1.peerID := not_not.mp hne
      have hl : l ≠ [] := by
        rintro rfl
        exact h x rfl heq.symm
      obtain ⟨gs, g, hg, hgs, hgs'⟩ := groups_same hl ((lastID_eq Int32.minValue hl).symm.trans heq)
      simp [VbhLoad.row, heq, hgs, hgs', vbhPeer_concat hg]

/-- The loop that closes groups has all but the last one in its list. -/
theorem foldl_row (hl : l ≠ []) : ∃ gs g, g ≠ [] ∧ groups l = gs ++ [g] ∧
    l.foldl IdcLoad.row {} = ⟨gs.map idcPeer, g.map Row.addr, lastID (-1) l⟩ ∧ (idcPeer g).peerID = lastID (-1) l := by
  induction l using List.reverseRecOn with
  | nil => exact absurd rfl hl
  | append_singleton l x ih =>
    rw [List.foldl_append, lastID_concat, List.foldl_cons, List.foldl_nil]
    rcases List.eq_nil_or_concat l with rfl | ⟨l₀, y, heq⟩
    · refine ⟨[], [x], by simp, rfl, ?_, rfl⟩
      by_cases hx : x.1.peerID = -1
      · simp [IdcLoad.row, hx]
      · simp [IdcLoad.row, IdcLoad.close, Ne.symm hx]
    have hl₀ : l ≠ [] := by simp [heq]
    obtain ⟨gs, g, hg, hgs, hfold, hid⟩ := ih hl₀
    by_cases hne : lastID (-1) l = x.1.peerID
    · obtain ⟨gs', g', hg', hgs', hnew⟩ := groups_same hl₀ ((lastID_eq (-1) hl₀).symm.trans hne)
      obtain ⟨rfl, hgg⟩ := List.append_inj' (hgs.symm.trans hgs') rfl
      obtain rfl := List.singleton_inj.mp hgg
      refine ⟨gs, g ++ [x], by simp, hnew, ?_, ?_⟩
      · simp [hfold, IdcLoad.row, hne]
      · rw [idcPeer_concat hg, hid, hne]
    · have hnew : groups (l ++ [x]) = groups l ++ [[x]] := by
        apply groups_new
        intro hl'
        rwa [← lastID_eq (-1) hl']
      refine ⟨gs ++ [g], [x], by simp, by rw [hnew, hgs], ?_, rfl⟩
      have hpeer : idcPeer g = ⟨lastID (-1) l, g.map Row.addr⟩ := by
        rw [← hid]
        rfl
      simp [hfold, IdcLoad.row, IdcLoad.close, hne, hg, hpeer]

theorem loadPeerInfo_eq (h : ∀ y ∈ l.head?, y.1.peerID ≠ Int32.minValue) :
    loadPeerInfo (some l) = some ((groups l).map vbhPeer) := by
  simp only [loadPeerInfo, Option.bind_eq_bind, Option.bind_some]
  rw [foldlM_row h, Option.bind_some]

/-- No group is open yet for a first row with the id the loop starts from. -/
theorem loadPeerInfo_min (h : x.1.peerID = Int32.minValue) : loadPeerInfo (some (x :: l)) = none := by
  simp [loadPeerInfo, VbhLoad.row, h]

theorem loadIdcPeerInfo_eq (l : List Row) : loadIdcPeerInfo (some l) = some ((groups l).map idcPeer) := by
  by_cases hl : l = []
  · rw [hl]
    rfl
  · obtain ⟨gs, g, hg, hgs, hfold, hid⟩ := foldl_row hl
    have hpeer : idcPeer g = ⟨lastID (-1) l, g.map Row.addr⟩ := by
      rw [← hid]
      rfl
    simp [loadIdcPeerInfo, hfold, IdcLoad.close, hg, hgs, hpeer]

/-! ## A table in the order of its peers -/

/-- The peers of a table, each once and with its addresses in their order. -/
structure Grouped (l : List Row) (peers : List (Int32 × List EndorserAddr)) : Prop where
  once : (peers.map (·.1)).Nodup
  peer : ∀ id, id ∈ peers.map (·.1) ↔ id ∈ l.map (·.1.peerID)
  addrs : ∀ P ∈ peers, P.2 = (l.filter (·.1.peerID = P.1)).map Row.addr

def groupID (g : List Row) : Int32 := (g.head?.map (·.1.peerID)).getD 0

/-- Groups that are not empty, of one peer each, with increasing ids. -/
structure Ascending (gs : List (List Row)) : Prop where
  full : ∀ g ∈ gs, g ≠ []
  same : ∀ g ∈ gs, ∀ x ∈ g, x.1.peerID = groupID g
  increase : gs.Pairwise fun a b => (groupID a).toInt < (groupID b).toInt

variable {gs : List (List Row)}

theorem groupID_of_chain (hc : g.IsChain fun x y => samePeer x y = true) : ∀ x ∈ g, x.1.peerID = groupID g := by
  induction g with
  | nil => simp
  | cons y g ih =>
    rw [List.isChain_cons] at hc
    intro x hx
    rcases List.mem_cons.mp hx with rfl | hx
    · rfl
    · obtain ⟨z, g', rfl⟩ := List.exists_cons_of_ne_nil (List.ne_nil_of_mem hx)
      have hyz : y.1.peerID = z.1.peerID := of_decide_eq_true (hc.1 z rfl)
      rw [ih hc.2 x hx]
      exact hyz.symm

theorem ascending_of_chain (hnil : [] ∉ gs) (hsame : ∀ g ∈ gs, ∀ x ∈ g, x.1.peerID = groupID g)
    (hbetween : gs.IsChain fun a b => ∃ ha hb, samePeer (a.getLast ha) (b.head hb) = false)
    (hle : gs.Pairwise fun a b => ∀ x ∈ a, ∀ y ∈ b, x.1.peerID.toInt ≤ y.1.peerID.toInt) : Ascending gs := by
  refine ⟨fun g hg heq => hnil (heq ▸ hg), hsame, ?_⟩
  induction gs with
  | nil => exact .nil
  | cons a gs ih =>
    rw [List.isChain_cons] at hbetween
    rw [List.pairwise_cons] at hle
    have hrest := ih (fun h => hnil (List.mem_cons_of_mem _ h)) (fun g hg => hsame g (List.mem_cons_of_mem _ hg))
      hbetween.2 hle.2
    refine List.pairwise_cons.mpr ⟨fun b hb => ?_, hrest⟩
    obtain ⟨c, gs', rfl⟩ := List.exists_cons_of_ne_nil (List.ne_nil_of_mem hb)
    obtain ⟨ha, hc, hne⟩ := hbetween.1 c rfl
    have hlast := hsame a List.mem_cons_self _ (List.getLast_mem ha)
    have hhead := hsame c (List.mem_cons_of_mem _ List.mem_cons_self) _ (List.head_mem hc)
    have hac : (groupID a).toInt < (groupID c).toInt := by
      have hle' := hle.1 c List.mem_cons_self _ (List.getLast_mem ha) _ (List.head_mem hc)
      rw [hlast, hhead] at hle'
      have hne' : groupID a ≠ groupID c := by
        rw [← hlast, ← hhead]
        exact of_decide_eq_false hne
      exact lt_of_le_of_ne hle' fun heq => hne' (Int32.toInt_inj.mp heq)
    rcases List.mem_cons.mp hb with rfl | hb
    · exact hac
    · exact hac.trans ((List.pairwise_cons.mp hrest).1 b hb)

theorem Ascending.filter (ha : Ascending gs) (hg : g ∈ gs) : gs.flatten.filter (·.1.peerID = groupID g) = g := by
  induction gs with
  | nil => cases hg
  | cons a gs ih =>
    have hlt := List.pairwise_cons.mp ha.increase
    have hrest : Ascending gs := ⟨fun b hb => ha.full b (List.mem_cons_of_mem _ hb),
      fun b hb => ha.same b (List.mem_cons_of_mem _ hb), hlt.2⟩
    rw [List.flatten_cons, List.filter_append]
    rcases List.mem_cons.mp hg with rfl | hg
    · have hself : g.filter (·.1.peerID = groupID g) = g := by
        rw [List.filter_eq_self]
        intro x hx
        exact decide_eq_true (ha.same g List.mem_cons_self x hx)
      have hnone : gs.flatten.filter (·.1.peerID = groupID g) = [] := by
        rw [List.filter_eq_nil_iff]
        intro x hx heq
        obtain ⟨b, hb, hxb⟩ := List.mem_flatten.mp hx
        have hbg : groupID b = groupID g := (hrest.same b hb x hxb).symm.trans (of_decide_eq_true heq)
        have hless := hlt.1 b hb
        rw [hbg] at hless
        exact absurd hless (lt_irrefl _)
      rw [hself, hnone, List.append_nil]
    · have hnone : a.filter (·.1.peerID = groupID g) = [] := by
        rw [List.filter_eq_nil_iff]
        intro x hx heq
        have hag : groupID a = groupID g := (ha.same a List.mem_cons_self x hx).symm.trans (of_decide_eq_true heq)
        have hless := hlt.1 g hg
        rw [hag] at hless
        exact absurd hless (lt_irrefl _)
      rw [hnone, List.nil_append, ih hrest hg]

theorem ascending_groups (hl : l.Pairwise fun x y => x.1.peerID.toInt ≤ y.1.peerID.toInt) : Ascending (groups l) := by
  obtain ⟨hflat, hnil, hchain, hbetween⟩ := List.splitBy_eq_iff.mp (rfl : l.splitBy samePeer = groups l)
  rw [hflat, List.pairwise_flatten] at hl
  exact ascending_of_chain hnil (fun g hg => groupID_of_chain (hchain g hg)) hbetween hl.2

theorem Ascending.grouped (ha : Ascending gs) : Grouped gs.flatten (gs.map fun g => (groupID g, g.map Row.addr)) where
  once := by
    rw [List.map_map]
    refine List.Pairwise.map _ (fun a b hab heq => ?_) ha.increase
    simp only [Function.comp_apply] at heq
    rw [heq] at hab
    exact absurd hab (lt_irrefl _)
  peer := by
    intro id
    simp only [List.map_map, List.mem_map, Function.comp_apply, List.mem_flatten]
    constructor
    · intro ⟨g, hg, hid⟩
      obtain ⟨x, hx⟩ := List.exists_mem_of_ne_nil g (ha.full g hg)
      exact ⟨x, ⟨g, hg, hx⟩, (ha.same g hg x hx).trans hid⟩
    · intro ⟨x, ⟨g, hg, hx⟩, hid⟩
      exact ⟨g, hg, (ha.same g hg x hx).symm.trans hid⟩
  addrs := by
    intro P hP
    obtain ⟨g, hg, rfl⟩ := List.mem_map.mp hP
    rw [ha.filter hg]

/-- From a table in the order of its peers the two loops make the same groups: every peer
once, with all of its addresses. The one that opens groups refuses the least id there is. -/
theorem loaders_agree (hl : l.Pairwise fun x y => x.1.peerID.toInt ≤ y.1.peerID.toInt) : ∃ peers, Grouped l peers ∧
    loadIdcPeerInfo (some l) = some (peers.map fun P => ⟨P.1, P.2⟩) ∧
    loadPeerInfo (some l) = if Int32.minValue ∈ l.map (·.1.peerID) then none
      else some (peers.map fun P => ⟨narrow P.1, P.2⟩) := by
  refine ⟨(groups l).map fun g => (groupID g, g.map Row.addr), ?_, ?_, ?_⟩
  · have hgrouped := (ascending_groups hl).grouped
    rwa [show (groups l).flatten = l from List.flatten_splitBy _ _] at hgrouped
  · rw [loadIdcPeerInfo_eq, List.map_map]
    rfl
  · by_cases hmin : Int32.minValue ∈ l.map (·.1.peerID)
    · rw [if_pos hmin]
      obtain ⟨y, hy, hid⟩ := List.mem_map.mp hmin
      obtain ⟨x, l', rfl⟩ := List.exists_cons_of_ne_nil (List.ne_nil_of_mem hy)
      apply loadPeerInfo_min
      rcases List.mem_cons.mp hy with rfl | hy
      · exact hid
      · have hle := (List.pairwise_cons.mp hl).1 y hy
        rw [hid] at hle
        exact Int32.toInt_inj.mp (le_antisymm hle (Int32.minValue_le_toInt _))
    · rw [if_neg hmin, loadPeerInfo_eq, List.map_map]
      · rfl
      · intro y hy heq
        exact hmin (List.mem_map.mpr ⟨y, List.mem_of_mem_head? hy, heq⟩)

/-- A peer with two addresses, then one with an id that does not fit `m_nPeerID`. -/
def threeRows : List Row := [(⟨[1], 80, 1⟩, 10), (⟨[2], 80, 1⟩, 11), (⟨[3], 80, 65537⟩, 12)]

theorem loaders_agree_three : ∃ peers, Grouped threeRows peers ∧
    loadIdcPeerInfo (some threeRows) = some (peers.map fun P => ⟨P.1, P.2⟩) ∧
    loadPeerInfo (some threeRows) = if Int32.minValue ∈ threeRows.map (·.1.peerID) then none
      else some (peers.map fun P => ⟨narrow P.1, P.2⟩) :=
  loaders_agree (l := threeRows) (by decide)

end

end VProtocol.Client
