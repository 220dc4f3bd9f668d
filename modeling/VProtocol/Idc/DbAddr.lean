import Mathlib.Data.List.AList
import Mathlib.Data.List.Perm.Basic
import VProtocol.Lib.Ring
import VProtocol.Lib.Run

/-!
# The addresses of the databases

`CIdcService` reads the table `IDC_DB_CFG` into `m_mapDbAddr`, sets the cursor
`m_itCandDb` to an entry drawn at random and gives out the entries in turn from
there. An iterator is the list of the entries that it has before it, `end()` the
empty one. The loop that brings the cursor to the drawn entry never counts its
turns, so it runs off the map unless the draw is the first entry. The ids of a row
have 32 bits, those of an address 16.
-/

namespace VProtocol.Idc

structure SDscAddr where
  nodeID : Int16
  serviceID : Int16
  deriving DecidableEq

/-- A row of `IDC_DB_CFG`. -/
structure CDbAddr where
  nodeID : Int32
  serviceID : Int32
  dbID : Int32
  deriving DecidableEq

/-- What `LoadDbAddrMap` assigns of a row. -/
def CDbAddr.addr (row : CDbAddr) : SDscAddr := ⟨row.nodeID.toInt16, row.serviceID.toInt16⟩

/-- What the database says when the service starts. -/
inductive DbCfg where
  | noConnection
  | selectFailed
  | rows (lstCfg : List CDbAddr)

abbrev DbAddrMap := AList fun _ : Int32 => SDscAddr

abbrev DbEntry := (_ : Int32) × SDscAddr

/-- The order in which an iteration visits the entries, which the hashes decide. -/
structure DbOrder where
  visits : DbAddrMap → List DbEntry
  perm : ∀ m, (visits m).Perm m.entries

/-- The address that `GetDbAddr` fills in. -/
structure DbServerAddr where
  nodeType : Int16
  nodeID : Int16
  serviceType : Int16
  serviceID : Int16
  deriving DecidableEq

def idcDbServerAppType : Int16 := 793
def idcDbServerServiceType : Int16 := 794

def serverAddr (addr : SDscAddr) : DbServerAddr :=
  ⟨idcDbServerAppType, addr.nodeID, idcDbServerServiceType, addr.serviceID⟩

/-- The cursor is moved or read at the end of the map. -/
inductive DbFault where
  | pastEnd
  deriving DecidableEq

structure DbAddrs where
  mapDbAddr : DbAddrMap
  itCandDb : List DbEntry

/-! ## Operations -/

/-- A row takes the place of an earlier one with its id. -/
def configured (lstCfg : List CDbAddr) : DbAddrMap :=
  lstCfg.foldl (fun m row => m.insert row.dbID row.addr) ∅

/-- `while (i < cand) ++m_itCandDb`: a turn leaves `i` as it is. -/
def moveCand (i cand : Nat) : List DbEntry → Except DbFault (List DbEntry)
  | [] => if i < cand then .error .pastEnd else .ok []
  | e :: it => if i < cand then moveCand i cand it else .ok (e :: it)

section
variable (H : DbOrder)

def loadDbAddrMap (cfg : DbCfg) (rand : Nat) : Except DbFault (Int × DbAddrs) :=
  match cfg with
  | .noConnection => .ok (-1, ⟨∅, []⟩)
  | .selectFailed => .ok (-1, ⟨∅, []⟩)
  | .rows lstCfg =>
    let mapDbAddr := configured lstCfg
    if mapDbAddr.entries.length = 0 then .ok (-1, ⟨mapDbAddr, []⟩)
    else do
      let cand := rand % mapDbAddr.entries.length
      let itCandDb ← moveCand 0 cand (H.visits mapDbAddr)
      .ok (0, ⟨mapDbAddr, itCandDb⟩)

/-- The answer is the address, or nothing where -1 is returned. -/
def getDbAddr (s : DbAddrs) (id : Int32) : Except DbFault (DbAddrs × List (Option DbServerAddr)) :=
  if id ≠ -1 then
    match s.mapDbAddr.lookup id with
    | none => .ok (s, [none])
    | some addr => .ok (s, [some (serverAddr addr)])
  else
    match s.itCandDb with
    | [] => .error .pastEnd
    | it :: rest =>
      let itCandDb := if rest = [] then H.visits s.mapDbAddr else rest
      .ok ({ s with itCandDb }, [some (serverAddr it.2)])

end

/-! ## What is promised of them -/

/-- The rows that count: of several with one id the last. -/
def latest : List CDbAddr → List CDbAddr
  | [] => []
  | row :: l => if ∃ row' ∈ l, row'.dbID = row.dbID then latest l else row :: latest l

/-- The address has the node and the service of the row, and the types of the database server. -/
structure AddressOf (row : CDbAddr) (addr : DbServerAddr) : Prop where
  nodeType : addr.nodeType = 793
  nodeID : addr.nodeID.toInt = row.nodeID.toInt
  serviceType : addr.serviceType = 794
  serviceID : addr.serviceID.toInt = row.serviceID.toInt

/-- The ids that were asked for in a history, -1 for the entry whose turn it is. -/
def turns (tr : List (Entry DbAddrs Int32 (Option DbServerAddr))) : Nat := (tr.map (·.ev)).count (-1)

def turnAnswers (tr : List (Entry DbAddrs Int32 (Option DbServerAddr))) : List (Option DbServerAddr) :=
  (tr.filter (·.ev = -1)).flatMap (·.outs)

/-- `picks` are the rows that had their turn: each of `rows` has its share of them. -/
structure Shared (rows : List CDbAddr) (tr : List (Entry DbAddrs Int32 (Option DbServerAddr))) (picks : List CDbAddr) :
    Prop where
  answers : List.Forall₂ (fun answer row => ∃ addr, answer = some addr ∧ AddressOf row addr) (turnAnswers tr) picks
  known : picks ⊆ rows
  length : picks.length = turns tr
  even : ∀ row ∈ rows, picks.count row = turns tr / rows.length ∨
    picks.count row = (turns tr + rows.length - 1) / rows.length

/-- The map has the addresses of the rows, each under its id. -/
structure Loaded (rows : List CDbAddr) (m : DbAddrMap) : Prop where
  length : m.entries.length = rows.length
  lookup : ∀ row ∈ rows, ∃ addr, m.lookup row.dbID = some addr ∧ addr.nodeID.toInt = row.nodeID.toInt ∧
    addr.serviceID.toInt = row.serviceID.toInt

section
variable (H : DbOrder)

/-- After the history `tr` the cursor is at an entry of the map, ids are looked up without moving it,
and the calls without an id were answered in turn. -/
structure Served (rows : List CDbAddr) (m : DbAddrMap) (tr : List (Entry DbAddrs Int32 (Option DbServerAddr)))
    (s : DbAddrs) : Prop where
  map : s.mapDbAddr = m
  valid : ∃ k, k < rows.length ∧ s.itCandDb = (H.visits m).drop k
  turn : ∃ s' addr, getDbAddr H s (-1) = .ok (s', [some addr])
  explicit : ∀ id, id ≠ -1 → ∀ row ∈ rows, row.dbID = id → ∃ addr, AddressOf row addr ∧
    getDbAddr H s id = .ok (s, [some addr])
  unknown : ∀ id, id ≠ -1 → (∀ row ∈ rows, row.dbID ≠ id) → getDbAddr H s id = .ok (s, [none])
  shared : ∃ picks, Shared rows tr picks

/-- The service starts with the cursor at the drawn entry, and every run of calls is served. -/
def DbRight (lstCfg : List CDbAddr) (rand : Nat) : Prop :=
  ∃ s, loadDbAddrMap H (.rows lstCfg) rand = .ok (0, s) ∧ Loaded (latest lstCfg) s.mapDbAddr ∧
    s.itCandDb = (H.visits s.mapDbAddr).drop (rand % (latest lstCfg).length) ∧
    ∀ tr s', Run (getDbAddr H) s anyStep tr s' → Served H (latest lstCfg) s.mapDbAddr tr s'

end

/-- The ids of the row are those of an address. -/
def CDbAddr.Fits (row : CDbAddr) : Prop :=
  (-2 ^ 15 ≤ row.nodeID.toInt ∧ row.nodeID.toInt < 2 ^ 15) ∧
    -2 ^ 15 ≤ row.serviceID.toInt ∧ row.serviceID.toInt < 2 ^ 15

/-! ## Rows and entries -/

def CDbAddr.entry (row : CDbAddr) : DbEntry := ⟨row.dbID, row.addr⟩

section
variable {row : CDbAddr} {lstCfg : List CDbAddr}

theorem toInt16_exact {x : Int32} : x.toInt16.toInt = x.toInt ↔ -2 ^ 15 ≤ x.toInt ∧ x.toInt < 2 ^ 15 := by
  constructor
  · intro h
    have hle := x.toInt16.le_toInt
    have hlt := x.toInt16.toInt_lt
    rw [h] at hle hlt
    exact ⟨hle, hlt⟩
  · rintro ⟨hle, hlt⟩
    rw [Int32.toInt_toInt16]
    apply Int.bmod_eq_of_le_mul_two
    · omega
    · omega

theorem addressOf_iff : AddressOf row (serverAddr row.addr) ↔ row.Fits := by
  unfold CDbAddr.Fits
  rw [← toInt16_exact, ← toInt16_exact]
  exact ⟨fun h => ⟨h.nodeID, h.serviceID⟩, fun h => ⟨rfl, h.1, rfl, h.2⟩⟩

theorem latest_snoc (l : List CDbAddr) (row : CDbAddr) :
    latest (l ++ [row]) = (latest l).filter (·.dbID ≠ row.dbID) ++ [row] := by
  induction l with
  | nil => rfl
  | cons x l ih =>
    have hiff : (∃ row' ∈ l ++ [row], row'.dbID = x.dbID) ↔ (∃ row' ∈ l, row'.dbID = x.dbID) ∨ row.dbID = x.dbID := by
      simp [or_and_right, exists_or]
    rw [List.cons_append]
    unfold latest
    by_cases hlater : ∃ row' ∈ l, row'.dbID = x.dbID
    · rw [if_pos (hiff.mpr (.inl hlater)), if_pos hlater]
      exact ih
    · by_cases hrow : row.dbID = x.dbID
      · rw [if_pos (hiff.mpr (.inr hrow)), if_neg hlater, List.filter_cons_of_neg (by simp [hrow])]
        exact ih
      · rw [if_neg fun h => (hiff.mp h).elim hlater hrow, if_neg hlater,
          List.filter_cons_of_pos (by simp [Ne.symm hrow]), ih, List.cons_append]

theorem kerase_filter {l : List DbEntry} (hl : l.NodupKeys) (id : Int32) : l.kerase id = l.filter (·.1 ≠ id) := by
  induction l with
  | nil => rfl
  | cons e l ih =>
    obtain ⟨hnew, hl⟩ := List.nodupKeys_cons.mp hl
    by_cases he : id = e.1
    · rw [List.kerase_cons_eq he, List.filter_cons_of_neg (by simp [he]), ← ih hl, he,
        List.kerase_of_notMem_keys hnew]
    · rw [List.kerase_cons_ne he, List.filter_cons_of_pos (by simp [Ne.symm he]), ih hl]

/-- The map has an entry for each row that counts. -/
theorem configured_perm (lstCfg : List CDbAddr) :
    (configured lstCfg).entries.Perm ((latest lstCfg).map CDbAddr.entry) := by
  induction lstCfg using List.reverseRecOn with
  | nil => exact .nil
  | append_singleton l row ih =>
    have hinsert : (configured (l ++ [row])).entries = row.entry :: (configured l).entries.kerase row.dbID := by
      unfold configured
      rw [List.foldl_append]
      rfl
    rw [hinsert, kerase_filter (configured l).nodupKeys, latest_snoc, List.map_append, List.map_singleton]
    refine (List.Perm.cons _ (ih.filter _)).trans ?_
    rw [List.filter_map]
    exact (List.perm_append_singleton _ _).symm

theorem configured_lookup {addr : SDscAddr} {id : Int32} :
    (configured lstCfg).lookup id = some addr ↔ ∃ row ∈ latest lstCfg, row.dbID = id ∧ row.addr = addr := by
  rw [← Option.mem_def, AList.mem_lookup_iff, (configured_perm lstCfg).mem_iff, List.mem_map]
  refine exists_congr fun row => and_congr_right fun _ => ?_
  unfold CDbAddr.entry
  rw [Sigma.mk.injEq, heq_eq_eq]

theorem configured_lookup_none {id : Int32} (h : ∀ row ∈ latest lstCfg, row.dbID ≠ id) :
    (configured lstCfg).lookup id = none := by
  cases haddr : (configured lstCfg).lookup id with
  | none => rfl
  | some addr =>
    obtain ⟨row, hmem, hid, -⟩ := configured_lookup.mp haddr
    exact absurd hid (h row hmem)

theorem configured_row (h : row ∈ latest lstCfg) : (configured lstCfg).lookup row.dbID = some row.addr :=
  configured_lookup.mpr ⟨row, h, rfl, rfl⟩

theorem loaded_iff : Loaded (latest lstCfg) (configured lstCfg) ↔ ∀ row ∈ latest lstCfg, row.Fits := by
  constructor
  · intro h row hmem
    obtain ⟨addr, haddr, hnode, hservice⟩ := h.lookup row hmem
    rw [configured_row hmem] at haddr
    obtain rfl := Option.some.inj haddr
    exact addressOf_iff.mp ⟨rfl, hnode, rfl, hservice⟩
  · intro hall
    refine ⟨(configured_perm lstCfg).length_eq.trans (List.length_map _), fun row hmem => ?_⟩
    have hexact := addressOf_iff.mpr (hall row hmem)
    exact ⟨row.addr, configured_row hmem, hexact.nodeID, hexact.serviceID⟩

theorem latest_pos (h : lstCfg ≠ []) : 0 < (latest lstCfg).length := by
  rw [← List.dropLast_append_getLast h, latest_snoc, List.length_append]
  exact Nat.succ_pos _

theorem configured_length (lstCfg : List CDbAddr) : (configured lstCfg).entries.length = (latest lstCfg).length :=
  (configured_perm lstCfg).length_eq.trans (List.length_map _)

/-- The rows in the order of an iteration. -/
theorem visits_rows (H : DbOrder) (lstCfg : List CDbAddr) :
    ∃ rows : List CDbAddr, H.visits (configured lstCfg) = rows.map CDbAddr.entry ∧ rows.Perm (latest lstCfg) ∧ rows.Nodup := by
  have hperm := (H.perm (configured lstCfg)).trans (configured_perm lstCfg)
  have hrel : Relation.Comp (· = List.map CDbAddr.entry ·) List.Perm (H.visits (configured lstCfg)) (latest lstCfg) := by
    rw [List.eq_map_comp_perm]
    exact hperm
  obtain ⟨rows, hvisits, hrows⟩ := hrel
  refine ⟨rows, hvisits, hrows, List.Nodup.of_map CDbAddr.entry ?_⟩
  rw [← hvisits]
  exact (H.perm _).nodup_iff.mpr (configured lstCfg).nodupKeys.nodup

end

/-! ## The cursor goes round -/

section
variable {H : DbOrder} {m : DbAddrMap} {s s' : DbAddrs} {start : Nat} {rows lstCfg : List CDbAddr}
variable {tr : List (Entry DbAddrs Int32 (Option DbServerAddr))}

theorem getDbAddr_explicit (s : DbAddrs) {id : Int32} (hid : id ≠ -1) :
    getDbAddr H s id = .ok (s, [(s.mapDbAddr.lookup id).map serverAddr]) := by
  unfold getDbAddr
  rw [if_pos hid]
  cases s.mapDbAddr.lookup id <;> rfl

theorem getDbAddr_turn (hrows : H.visits s.mapDbAddr = rows.map CDbAddr.entry) {i : Nat} (hi : i < rows.length)
    (hcursor : s.itCandDb = (H.visits s.mapDbAddr).drop i) :
    getDbAddr H s (-1) = .ok
      (⟨s.mapDbAddr, (H.visits s.mapDbAddr).drop (if rows.length ≤ i + 1 then 0 else i + 1)⟩,
        [some (serverAddr rows[i].addr)]) := by
  have hlen : (H.visits s.mapDbAddr).length = rows.length := by rw [hrows, List.length_map]
  have hi' : i < (H.visits s.mapDbAddr).length := hlen ▸ hi
  have hentry : (H.visits s.mapDbAddr)[i] = rows[i].entry := by simp [hrows]
  unfold getDbAddr
  rw [if_neg (by decide), hcursor, List.drop_eq_getElem_cons hi', hentry]
  by_cases hlast : rows.length ≤ i + 1
  · simp [hlast, hlen, CDbAddr.entry]
  · have hne : (H.visits s.mapDbAddr).drop (i + 1) ≠ [] := fun h => hlast (hlen ▸ List.drop_eq_nil_iff.mp h)
    simp [hlast, hne, CDbAddr.entry]

/-- The cursor is where the number of the turns puts it, and the turns were read off the ring of the rows. -/
structure AtTurn (H : DbOrder) (m : DbAddrMap) (rows : List CDbAddr) (start : Nat)
    (tr : List (Entry DbAddrs Int32 (Option DbServerAddr))) (s : DbAddrs) : Prop where
  map : s.mapDbAddr = m
  cursor : s.itCandDb = (H.visits m).drop (Ring.slot rows.length (start + turns tr))
  picks : ∃ picks : List CDbAddr, turnAnswers tr = (picks.map fun row => some (serverAddr row.addr)) ∧
    picks.length = turns tr ∧ Ring.Reads rows start picks

theorem turns_append (en : Entry DbAddrs Int32 (Option DbServerAddr)) :
    turns (tr ++ [en]) = turns tr + if en.ev = -1 then 1 else 0 := by
  unfold turns
  rw [List.map_append, List.count_append, List.map_singleton, List.count_singleton]
  simp only [beq_iff_eq]

theorem turnAnswers_append (en : Entry DbAddrs Int32 (Option DbServerAddr)) :
    turnAnswers (tr ++ [en]) = turnAnswers tr ++ if en.ev = -1 then en.outs else [] := by
  unfold turnAnswers
  rw [List.filter_append, List.flatMap_append]
  by_cases hev : en.ev = -1 <;> simp [hev]

theorem AtTurn.step (h : AtTurn H m rows start tr s) (hrows : H.visits m = rows.map CDbAddr.entry)
    (hpos : 0 < rows.length) {id : Int32} {outs : List (Option DbServerAddr)}
    (hs : getDbAddr H s id = .ok (s', outs)) : AtTurn H m rows start (tr ++ [⟨s, id, outs⟩]) s' := by
  obtain rfl := h.map
  obtain ⟨picks, hans, hlen, hreads⟩ := h.picks
  by_cases hid : id = -1
  · subst hid
    have hslot := Ring.slot_lt (t := start + turns tr) hpos
    rw [getDbAddr_turn hrows hslot h.cursor] at hs
    obtain ⟨hs', houts⟩ := Prod.mk.inj (Except.ok.inj hs)
    subst hs' houts
    have hturns : turns (tr ++ [⟨s, -1, [some (serverAddr rows[Ring.slot rows.length (start + turns tr)].addr)]⟩]) =
        turns tr + 1 := turns_append _
    refine ⟨rfl, ?_, picks ++ [rows[Ring.slot rows.length (start + turns tr)]], ?_, ?_, ?_⟩
    · rw [hturns, ← Nat.add_assoc, Ring.slot_succ hpos]
    · rw [turnAnswers_append, hans, List.map_append, List.map_singleton]
      rfl
    · rw [hturns, List.length_append, hlen]
      rfl
    · refine hreads.snoc ?_
      rw [hlen, List.getElem?_eq_getElem hslot]
  · rw [getDbAddr_explicit s hid] at hs
    obtain ⟨hs', houts⟩ := Prod.mk.inj (Except.ok.inj hs)
    subst hs'
    have hturns : turns (tr ++ [⟨s, id, outs⟩]) = turns tr := by
      rw [turns_append, if_neg hid]
      rfl
    refine ⟨rfl, ?_, picks, ?_, ?_, hreads⟩
    · rw [hturns]
      exact h.cursor
    · rw [turnAnswers_append, if_neg hid, List.append_nil]
      exact hans
    · rw [hturns]
      exact hlen

theorem AtTurn.of_run (hrows : H.visits m = rows.map CDbAddr.entry) {s₀ : DbAddrs} (hmap : s₀.mapDbAddr = m)
    (hcursor : s₀.itCandDb = (H.visits m).drop start) (hstart : start < rows.length)
    (h : Run (getDbAddr H) s₀ anyStep tr s) : AtTurn H m rows start tr s := by
  refine h.invariant (fun tr s => AtTurn H m rows start tr s) ⟨hmap, ?_, [], rfl, rfl, fun j x hx => by simp at hx⟩ ?_
  · rw [hcursor]
    show _ = (H.visits m).drop (Ring.slot rows.length (start + 0))
    unfold Ring.slot
    rw [Nat.add_zero, Nat.mod_eq_of_lt hstart]
  · exact fun tr s id s' outs _ hi _ hs => hi.step hrows (Nat.zero_lt_of_lt hstart) hs

theorem answers_addressed {picks : List CDbAddr} (hfits : ∀ row ∈ picks, row.Fits) :
    List.Forall₂ (fun answer row => ∃ addr, answer = some addr ∧ AddressOf row addr)
      (picks.map fun row => some (serverAddr row.addr)) picks := by
  induction picks with
  | nil => exact .nil
  | cons row picks ih =>
    have hrow := addressOf_iff.mpr (hfits row List.mem_cons_self)
    exact .cons ⟨_, rfl, hrow⟩ (ih fun row' hmem => hfits row' (List.mem_cons_of_mem row hmem))

theorem AtTurn.served (h : AtTurn H (configured lstCfg) rows start tr s)
    (hrows : H.visits (configured lstCfg) = rows.map CDbAddr.entry) (hperm : rows.Perm (latest lstCfg))
    (hnodup : rows.Nodup) (hpos : 0 < rows.length) (hfits : ∀ row ∈ latest lstCfg, row.Fits) :
    Served H (latest lstCfg) (configured lstCfg) tr s := by
  have hmap := h.map
  have hlen := hperm.length_eq
  have hslot := Ring.slot_lt (t := start + turns tr) hpos
  obtain ⟨picks, hans, hturns, hreads⟩ := h.picks
  refine ⟨hmap, ⟨_, hlen ▸ hslot, h.cursor⟩, ?_, fun id hid row hmem hrow => ?_, fun id hid hno => ?_, picks, ?_⟩
  · exact ⟨_, _, getDbAddr_turn (hmap ▸ hrows) hslot (hmap ▸ h.cursor)⟩
  · refine ⟨serverAddr row.addr, addressOf_iff.mpr (hfits row hmem), ?_⟩
    rw [getDbAddr_explicit s hid, hmap, ← hrow, configured_row hmem]
    rfl
  · rw [getDbAddr_explicit s hid, hmap, configured_lookup_none hno]
    rfl
  · have hknown : picks ⊆ latest lstCfg := fun row hrow => hperm.mem_iff.mp (hreads.mem hrow)
    refine ⟨?_, hknown, hturns, fun row hmem => ?_⟩
    · rw [hans]
      exact answers_addressed fun row hrow => hfits row (hknown hrow)
    · have hfair := hreads.fair hnodup (hperm.mem_iff.mpr hmem)
      rwa [hturns, hlen] at hfair

/-! ## Only the first entry can be drawn -/

theorem moveCand_runs {i cand : Nat} (h : i < cand) : ∀ it, moveCand i cand it = .error .pastEnd
  | [] => if_pos h
  | e :: it => by
    unfold moveCand
    rw [if_pos h]
    exact moveCand_runs h it

theorem moveCand_stops {i cand : Nat} (h : ¬i < cand) : ∀ it, moveCand i cand it = .ok it
  | [] => if_neg h
  | _ :: _ => if_neg h

theorem loadDbAddrMap_rows (h : lstCfg ≠ []) (rand : Nat) :
    loadDbAddrMap H (.rows lstCfg) rand =
      (moveCand 0 (rand % (latest lstCfg).length) (H.visits (configured lstCfg)) >>=
        fun itCandDb => .ok (0, ⟨configured lstCfg, itCandDb⟩)) := by
  unfold loadDbAddrMap
  simp only [configured_length, if_neg (Nat.ne_of_gt (latest_pos h))]

end

/-- The promise is kept exactly when the draw is the first entry, and the rows have ids of 16 bits. -/
theorem db_right_iff (H : DbOrder) (lstCfg : List CDbAddr) (rand : Nat) (hcfg : lstCfg ≠ []) :
    DbRight H lstCfg rand ↔ rand % (latest lstCfg).length = 0 ∧ ∀ row ∈ latest lstCfg, row.Fits := by
  unfold DbRight
  rw [loadDbAddrMap_rows hcfg]
  constructor
  · rintro ⟨s, hload, hloaded, -⟩
    by_cases hcand : 0 < rand % (latest lstCfg).length
    · rw [moveCand_runs hcand] at hload
      cases hload
    · rw [moveCand_stops hcand] at hload
      obtain ⟨-, rfl⟩ := Prod.mk.inj (Except.ok.inj hload)
      exact ⟨Nat.eq_zero_of_not_pos hcand, loaded_iff.mp hloaded⟩
  · rintro ⟨hcand, hfits⟩
    obtain ⟨rows, hrows, hperm, hnodup⟩ := visits_rows H lstCfg
    have hpos : 0 < rows.length := hperm.length_eq ▸ latest_pos hcfg
    have hbegin : H.visits (configured lstCfg) = (H.visits (configured lstCfg)).drop 0 := rfl
    rw [moveCand_stops (Nat.not_lt.mpr (Nat.le_of_eq hcand)), hcand]
    exact ⟨⟨configured lstCfg, H.visits (configured lstCfg)⟩, rfl, loaded_iff.mpr hfits, hbegin, fun tr s' hr =>
      (AtTurn.of_run hrows rfl hbegin hpos hr).served hrows hperm hnodup hpos hfits⟩

/-! ## Two databases -/

theorem visits_entries (m : DbAddrMap) : m.entries.Perm m.entries := List.Perm.refl _

def latestFirst : DbOrder := ⟨fun m => m.entries, visits_entries⟩

instance (row : CDbAddr) : Decidable row.Fits := inferInstanceAs (Decidable ((_ ∧ _) ∧ _ ∧ _))

/-- The last row moves database 7. -/
def dbCfg : List CDbAddr := [⟨1, 2, 7⟩, ⟨1, 3, 8⟩, ⟨4, 5, 7⟩]

def dbStart : DbAddrs := ⟨configured dbCfg, latestFirst.visits (configured dbCfg)⟩

theorem db_right_two : DbRight latestFirst dbCfg 4 ∧
    loadDbAddrMap latestFirst (.rows dbCfg) 4 = .ok (0, dbStart) ∧
    (trace (getDbAddr latestFirst) dbStart [-1, 7, -1, 9, -1]).flatMap (·.outs) =
      [some ⟨793, 4, 794, 5⟩, some ⟨793, 4, 794, 5⟩, some ⟨793, 1, 794, 3⟩, none, some ⟨793, 4, 794, 5⟩] :=
  ⟨(db_right_iff latestFirst dbCfg 4 (by decide)).mpr ⟨by decide, by decide⟩, rfl, by decide⟩

/-- The draw 1 runs off the map. -/
theorem db_draw_one : ¬DbRight latestFirst dbCfg 1 ∧
    (loadDbAddrMap latestFirst (.rows dbCfg) 1).toOption.isNone := by
  have hruns : loadDbAddrMap latestFirst (.rows dbCfg) 1 = .error .pastEnd := by
    have hcand : 0 < 1 % (latest dbCfg).length := by decide
    rw [loadDbAddrMap_rows (by decide), moveCand_runs hcand]
    rfl
  refine ⟨?_, by rw [hruns]; rfl⟩
  rintro ⟨s, hload, -⟩
  rw [hruns] at hload
  cases hload

end VProtocol.Idc
