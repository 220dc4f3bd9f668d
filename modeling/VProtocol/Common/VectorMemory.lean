import VProtocol.Lib.RawArray
import VProtocol.Lib.Run
import VProtocol.Common.SimpleVector

/-!
# `CSimpleVector` in memory

The buffer is an array of a size of its own, which `m_nBufLen` is meant to be. Every access
goes through the pointer: where there is none, or no element at the index, it is a fault.
-/

namespace VProtocol

inductive VectorFault where
  | nullPtr
  | outOfRange
  | wrongSize
  | assertion
  deriving DecidableEq

/-- `itemBuf` is the array `m_pItemBuf` points to. -/
structure MemVector (α : Type) where
  bufLen : UInt32 := 0
  itemCount : UInt32 := 0
  itemBuf : Option (List α) := none

namespace MemVector

variable {α : Type}

/-- `memory` is what an allocation gives. -/
def openVector (memory : Option (Nat → α)) (nSize : UInt32) (v : MemVector α) :
    Except VectorFault (MemVector α × Int) :=
  match v.itemBuf with
  | some _ => .error .assertion
  | none =>
    .ok ({ v with bufLen := nSize, itemBuf := memory.map fun raw => RawArray.fresh raw nSize.toNat },
      if memory.isSome then 0 else -1)

/-- The array is given back with the size `m_nBufLen`. -/
def close (v : MemVector α) : Except VectorFault (MemVector α) :=
  match v.itemBuf with
  | none => .ok v
  | some buf => if buf.length = v.bufLen.toNat then .ok { v with itemBuf := none } else .error .wrongSize

def clear (v : MemVector α) : MemVector α := { v with itemCount := 0 }

/-- `operator[]`, read. -/
def load (idx : Nat) (v : MemVector α) : Except VectorFault α :=
  match v.itemBuf with
  | none => .error .nullPtr
  | some buf =>
    match buf[idx]? with
    | none => .error .outOfRange
    | some a => .ok a

/-- `operator[]`, assigned to. -/
def store (idx : Nat) (t : α) (v : MemVector α) : Except VectorFault (MemVector α) :=
  match v.itemBuf with
  | none => .error .nullPtr
  | some buf =>
    match RawArray.write buf idx t with
    | none => .error .outOfRange
    | some buf => .ok { v with itemBuf := some buf }

def pushBack (t : α) (v : MemVector α) : Except VectorFault (MemVector α × Int) :=
  if v.itemCount < v.bufLen then do
    let v ← v.store v.itemCount.toNat t
    .ok ({ v with itemCount := v.itemCount + 1 }, 0)
  else .ok (v, -1)

/-- The elements from `i` on that a loop over `n` of them reads. -/
def loadItems (v : MemVector α) : Nat → Nat → Except VectorFault (List α)
  | 0, _ => .ok []
  | n + 1, i => do
    let a ← v.load i
    let l ← loadItems v n (i + 1)
    .ok (a :: l)

section
variable (count : Codec UInt32) (item : Codec α)

def getEncodeSize (v : MemVector α) : Except VectorFault Nat :=
  match v.itemBuf with
  | none => .error .assertion
  | some _ => do
    let l ← v.loadItems v.itemCount.toNat 0
    .ok (count.size v.itemCount + (l.map item.size).sum)

def encode (v : MemVector α) : Except VectorFault (List UInt8) :=
  match v.itemBuf with
  | none => .error .assertion
  | some _ => do
    let l ← v.loadItems v.itemCount.toNat 0
    .ok (count.encode v.itemCount ++ l.flatMap item.encode)

def decodeItems : Nat → Nat → MemVector α → List UInt8 → Except VectorFault (MemVector α × List UInt8 × Int)
  | 0, _, v, bytes => .ok (v, bytes, 0)
  | n + 1, i, v, bytes => do
    -- the element is bound before anything is read
    let _ ← v.load i
    match item.decode bytes with
    | none => .ok (v, bytes, -1)
    | some (a, rest) => do
      let v ← v.store i a
      decodeItems n (i + 1) v rest

def decode (memory : Option (Nat → α)) (v : MemVector α) (bytes : List UInt8) :
    Except VectorFault (MemVector α × List UInt8 × Int) :=
  match count.decode bytes with
  | none => .ok (v, bytes, -1)
  | some (nSize, bytes) =>
    if v.bufLen < nSize then do
      let v ← v.close
      -- the result of `Open` is not looked at
      let r ← v.openVector memory nSize
      decodeItems item nSize.toNat 0 { r.1 with itemCount := nSize } bytes
    else decodeItems item nSize.toNat 0 { v with itemCount := nSize } bytes

/-! ## Runs -/

inductive Event (α : Type) where
  | openCall (memory : Option (Nat → α)) (nSize : UInt32)
  | close
  | pushBack (t : α)
  | clear
  | decode (memory : Option (Nat → α)) (bytes : List UInt8)

/-- What comes out is the code that the operation returns. -/
def step (v : MemVector α) : Event α → Except VectorFault (MemVector α × List Int)
  | .openCall memory nSize => do
    let r ← v.openVector memory nSize
    .ok (r.1, [r.2])
  | .close => do
    let v ← v.close
    .ok (v, [])
  | .pushBack t => do
    let r ← v.pushBack t
    .ok (r.1, [r.2])
  | .clear => .ok (v.clear, [])
  | .decode memory bytes => do
    let r ← v.decode count item memory bytes
    .ok (r.1, [r.2.2])

end

/-! ## The representation -/

/-- What the three members are to each other. -/
structure Represents (v : MemVector α) : Prop where
  room : v.itemCount ≤ v.bufLen
  buf : 0 < v.bufLen → ∃ buf, v.itemBuf = some buf ∧ buf.length = v.bufLen.toNat

def Sized (v : MemVector α) : Prop := ∀ buf, v.itemBuf = some buf → buf.length = v.bufLen.toNat

/-- An element at an index below the number of places is there. -/
structure Accessible (v : MemVector α) : Prop where
  load : ∀ idx < v.itemCount, ∃ a, v.load idx.toNat = .ok a
  push : ∀ t, ∃ r, v.pushBack t = .ok r
  encodes : ∀ (count : Codec UInt32) (item : Codec α), (∃ bytes, v.encode count item = .ok bytes) ∨
    v.itemBuf = none ∧ v.encode count item = .error .assertion
  sizes : ∀ (count : Codec UInt32) (item : Codec α), (∃ n, v.getEncodeSize count item = .ok n) ∨
    v.itemBuf = none ∧ v.getEncodeSize count item = .error .assertion

/-- The operation makes no access outside of the array and keeps the representation. -/
def Holds (count : Codec UInt32) (item : Codec α) (v : MemVector α) (e : Event α) : Prop :=
  ∃ v' codes, step count item v e = .ok (v', codes) ∧ Represents v'

/-- An open that gets its memory has a place for each item that is counted, only a vector
without places is closed, and a decode that needs more places gets them. -/
def Keeps (count : Codec UInt32) (v : MemVector α) : Event α → Prop
  | .openCall memory nSize => v.itemCount ≤ nSize ∧ (0 < nSize → memory.isSome)
  | .close => v.bufLen = 0
  | .pushBack _ => True
  | .clear => True
  | .decode memory bytes => ∀ r, count.decode bytes = some r → v.bufLen < r.1 → memory.isSome

def InDomain (v : MemVector α) : Event α → Prop
  | .openCall _ _ => v.itemBuf = none
  | _ => True

/-! ## Accesses -/

section
variable {v w : MemVector α} {buf : List α} {count : Codec UInt32} {item : Codec α}

theorem load_eq_ok {i : Nat} (hb : v.itemBuf = some buf) (hi : i < buf.length) : v.load i = .ok buf[i] := by
  unfold load
  rw [hb]
  simp only
  rw [List.getElem?_eq_getElem hi]

theorem store_eq_ok {i : Nat} (t : α) (hb : v.itemBuf = some buf) (hi : i < buf.length) :
    v.store i t = .ok { v with itemBuf := some (buf.set i t) } := by
  unfold store
  rw [hb]
  simp only
  rw [RawArray.write_of_lt hi]

theorem loadItems_eq_ok (hb : v.itemBuf = some buf) : ∀ (n i : Nat), i + n ≤ buf.length →
    v.loadItems n i = .ok ((buf.drop i).take n)
  | 0, i, _ => by simp [loadItems]
  | n + 1, i, h => by
    unfold loadItems
    rw [load_eq_ok hb (by omega), loadItems_eq_ok hb n (i + 1) (by omega)]
    rw [List.drop_eq_getElem_cons (show i < buf.length by omega), List.take_succ_cons]
    rfl

structure SameShape (v w : MemVector α) : Prop where
  bufLen : w.bufLen = v.bufLen
  itemCount : w.itemCount = v.itemCount
  length : w.itemBuf.map List.length = v.itemBuf.map List.length

theorem SameShape.represents (h : SameShape v w) (hv : Represents v) : Represents w := by
  refine ⟨by rw [h.itemCount, h.bufLen]; exact hv.room, fun hpos => ?_⟩
  rw [h.bufLen] at hpos ⊢
  obtain ⟨buf, hb, hlen⟩ := hv.buf hpos
  have hmap := h.length
  rw [hb, Option.map_some, Option.map_eq_some_iff] at hmap
  obtain ⟨buf', hb', hlen'⟩ := hmap
  exact ⟨buf', hb', hlen'.trans hlen⟩

theorem SameShape.sized (h : SameShape v w) (hv : Sized v) : Sized w := by
  intro buf hb
  have hmap := h.length
  rw [hb, Option.map_some, eq_comm, Option.map_eq_some_iff] at hmap
  obtain ⟨buf', hb', hlen⟩ := hmap
  rw [h.bufLen, ← hlen]
  exact hv buf' hb'

theorem decodeItems_spec (item : Codec α) (n : Nat) : ∀ (i : Nat) (v : MemVector α) (buf : List α) (bytes : List UInt8),
    v.itemBuf = some buf → i + n ≤ buf.length → ∃ r, decodeItems item n i v bytes = .ok r ∧ SameShape v r.1 := by
  induction n with
  | zero =>
    intro i v buf bytes _ _
    exact ⟨_, rfl, rfl, rfl, rfl⟩
  | succ n ih =>
    intro i v buf bytes hb hlen
    unfold decodeItems
    rw [load_eq_ok hb (by omega), Except.ok_bind]
    cases hdec : item.decode bytes with
    | none => exact ⟨_, rfl, rfl, rfl, rfl⟩
    | some r =>
      obtain ⟨a, rest⟩ := r
      simp only
      rw [store_eq_ok a hb (by omega), Except.ok_bind]
      obtain ⟨r, hr, hshape⟩ := ih (i + 1) { v with itemBuf := some (buf.set i a) } (buf.set i a) rest rfl
        (by rw [List.length_set]; omega)
      refine ⟨r, hr, hshape.bufLen, hshape.itemCount, ?_⟩
      rw [hshape.length, hb]
      simp

theorem decodeItems_null (item : Codec α) (n i : Nat) (bytes : List UInt8) (hb : v.itemBuf = none) :
    decodeItems item (n + 1) i v bytes = .error .nullPtr := by
  unfold decodeItems load
  rw [hb]
  rfl

theorem close_eq_ok (hs : Sized v) : v.close = .ok { v with itemBuf := none } := by
  unfold close
  cases hb : v.itemBuf with
  | none =>
    simp only [Except.ok.injEq]
    rw [← hb]
  | some buf => simp only [hs buf hb, if_pos]

theorem Represents.accessible (h : Represents v) : Accessible v := by
  have hroom := UInt32.le_iff_toNat_le.mp h.room
  -- either nothing is counted, or the array has all that is counted
  have hitems : v.itemBuf = none ∨ ∃ l, v.loadItems v.itemCount.toNat 0 = .ok l := by
    cases hb : v.itemBuf with
    | none => exact .inl rfl
    | some buf =>
      right
      by_cases hpos : 0 < v.bufLen
      · obtain ⟨buf', hb', hlen⟩ := h.buf hpos
        obtain rfl := Option.some.inj (hb.symm.trans hb')
        exact ⟨_, loadItems_eq_ok hb _ _ (by omega)⟩
      · rw [UInt32.lt_iff_toNat_lt, UInt32.toNat_zero] at hpos
        exact ⟨_, loadItems_eq_ok hb _ _ (by omega)⟩
  refine ⟨fun idx hidx => ?_, fun t => ?_, fun count item => ?_, fun count item => ?_⟩
  · have hidx := UInt32.lt_iff_toNat_lt.mp hidx
    obtain ⟨buf, hb, hlen⟩ := h.buf (UInt32.lt_iff_toNat_lt.mpr (by rw [UInt32.toNat_zero]; omega))
    exact ⟨_, load_eq_ok hb (by omega)⟩
  · unfold pushBack
    split
    · rename_i hlt
      have hlt := UInt32.lt_iff_toNat_lt.mp hlt
      obtain ⟨buf, hb, hlen⟩ := h.buf (UInt32.lt_iff_toNat_lt.mpr (by rw [UInt32.toNat_zero]; omega))
      rw [store_eq_ok t hb (by omega)]
      exact ⟨_, rfl⟩
    · exact ⟨_, rfl⟩
  · unfold encode
    rcases hitems with hb | ⟨l, hl⟩
    · rw [hb]
      exact .inr ⟨rfl, rfl⟩
    · cases hb : v.itemBuf with
      | none => exact .inr ⟨rfl, rfl⟩
      | some buf =>
        rw [hl]
        exact .inl ⟨_, rfl⟩
  · unfold getEncodeSize
    rcases hitems with hb | ⟨l, hl⟩
    · rw [hb]
      exact .inr ⟨rfl, rfl⟩
    · cases hb : v.itemBuf with
      | none => exact .inr ⟨rfl, rfl⟩
      | some buf =>
        rw [hl]
        exact .inl ⟨_, rfl⟩

/-! ## One operation -/

theorem openVector_some (raw : Nat → α) (n : UInt32) (hb : v.itemBuf = none) : v.openVector (some raw) n =
    .ok ({ v with bufLen := n, itemBuf := some (RawArray.fresh raw n.toNat) }, 0) := by
  unfold openVector
  rw [hb]
  rfl

theorem openVector_none (n : UInt32) (hb : v.itemBuf = none) :
    v.openVector none n = .ok ({ v with bufLen := n, itemBuf := none }, -1) := by
  unfold openVector
  rw [hb]
  rfl

theorem fresh_represents (raw : Nat → α) {n m : UInt32} (hm : m ≤ n) :
    Represents ⟨n, m, some (RawArray.fresh raw n.toNat)⟩ ∧ Sized ⟨n, m, some (RawArray.fresh raw n.toNat)⟩ := by
  refine ⟨⟨hm, fun _ => ⟨_, rfl, RawArray.fresh_length raw n.toNat⟩⟩, fun buf hb => ?_⟩
  obtain rfl := Option.some.inj hb
  exact RawArray.fresh_length raw n.toNat

theorem openVector_keeps {memory : Option (Nat → α)} {n : UInt32} (hb : v.itemBuf = none) (hn : v.itemCount ≤ n)
    (hmem : 0 < n → memory.isSome) :
    ∃ r, v.openVector memory n = .ok r ∧ Represents r.1 ∧ Sized r.1 := by
  cases memory with
  | some raw => exact ⟨_, openVector_some raw n hb, fresh_represents raw hn⟩
  | none =>
    refine ⟨_, openVector_none n hb, ⟨hn, fun hpos => ?_⟩, nofun⟩
    cases hmem hpos

theorem pushBack_keeps (t : α) (hr : Represents v) (hs : Sized v) :
    ∃ r, v.pushBack t = .ok r ∧ Represents r.1 ∧ Sized r.1 := by
  unfold pushBack
  split
  · rename_i hlt
    have hroom := UInt32.lt_iff_toNat_lt.mp hlt
    obtain ⟨buf, hb, hlen⟩ := hr.buf (UInt32.lt_iff_toNat_lt.mpr (by rw [UInt32.toNat_zero]; omega))
    rw [store_eq_ok t hb (by omega), Except.ok_bind]
    have hcount : (v.itemCount + 1).toNat = v.itemCount.toNat + 1 := by
      have := v.bufLen.toNat_lt
      rw [UInt32.toNat_add, UInt32.toNat_one, Nat.mod_eq_of_lt (by omega)]
    refine ⟨_, rfl, ⟨?_, fun _ => ⟨_, rfl, by rw [List.length_set, hlen]⟩⟩, fun buf' hb' => ?_⟩
    · rw [UInt32.le_iff_toNat_le, hcount]
      exact hroom
    · obtain rfl := Option.some.inj hb'
      rw [List.length_set, hlen]
  · exact ⟨_, rfl, hr, hs⟩

variable (item) in
theorem decode_keeps {memory : Option (Nat → α)} {bytes : List UInt8} (hr : Represents v) (hs : Sized v)
    (hmem : ∀ r, count.decode bytes = some r → v.bufLen < r.1 → memory.isSome) :
    ∃ r, v.decode count item memory bytes = .ok r ∧ Represents r.1 ∧ Sized r.1 := by
  unfold decode
  cases hc : count.decode bytes with
  | none => exact ⟨_, rfl, hr, hs⟩
  | some c =>
    obtain ⟨nSize, rest⟩ := c
    simp only
    split
    · rename_i hlt
      obtain ⟨raw, rfl⟩ := Option.isSome_iff_exists.mp (hmem _ hc hlt)
      rw [close_eq_ok hs, Except.ok_bind, openVector_some raw nSize rfl, Except.ok_bind]
      obtain ⟨hrep, hsized⟩ := fresh_represents raw (UInt32.le_refl nSize)
      obtain ⟨r, heq, hshape⟩ := decodeItems_spec item nSize.toNat 0
        ⟨nSize, nSize, some (RawArray.fresh raw nSize.toNat)⟩ _ rest rfl (by rw [RawArray.fresh_length]; omega)
      exact ⟨r, heq, hshape.represents hrep, hshape.sized hsized⟩
    · rename_i hle
      have hle := UInt32.not_lt.mp hle
      have hrep : Represents { v with itemCount := nSize } := ⟨hle, hr.buf⟩
      have hsized : Sized { v with itemCount := nSize } := hs
      by_cases hpos : 0 < v.bufLen
      · obtain ⟨buf, hb, hlen⟩ := hr.buf hpos
        have hle := UInt32.le_iff_toNat_le.mp hle
        obtain ⟨r, heq, hshape⟩ := decodeItems_spec item nSize.toNat 0 { v with itemCount := nSize } buf rest hb
          (by omega)
        exact ⟨r, heq, hshape.represents hrep, hshape.sized hsized⟩
      · -- no places, so no items
        have h0 : nSize.toNat = 0 := by
          rw [UInt32.lt_iff_toNat_lt, UInt32.toNat_zero] at hpos
          have hle := UInt32.le_iff_toNat_le.mp hle
          omega
        rw [h0]
        exact ⟨_, rfl, hrep, hsized⟩

variable (item) in
theorem step_keeps {e : Event α} (hr : Represents v) (hs : Sized v) (hd : InDomain v e) (hk : Keeps count v e) :
    ∃ v' codes, step count item v e = .ok (v', codes) ∧ Represents v' ∧ Sized v' := by
  cases e with
  | openCall memory n =>
    obtain ⟨r, heq, hrep, hsized⟩ := openVector_keeps hd hk.1 hk.2
    simp only [step, heq, Except.ok_bind]
    exact ⟨_, _, rfl, hrep, hsized⟩
  | close =>
    have h0 : v.bufLen = 0 := hk
    simp only [step, close_eq_ok hs, Except.ok_bind]
    refine ⟨_, _, rfl, ⟨hr.room, fun hpos => ?_⟩, nofun⟩
    simp only [h0] at hpos
    exact absurd hpos (UInt32.lt_irrefl 0)
  | pushBack t =>
    obtain ⟨r, heq, hrep, hsized⟩ := pushBack_keeps t hr hs
    simp only [step, heq, Except.ok_bind]
    exact ⟨_, _, rfl, hrep, hsized⟩
  | clear => exact ⟨_, _, rfl, ⟨UInt32.zero_le, hr.buf⟩, hs⟩
  | decode memory bytes =>
    obtain ⟨r, heq, hrep, hsized⟩ := decode_keeps item hr hs hk
    simp only [step, heq, Except.ok_bind]
    exact ⟨_, _, rfl, hrep, hsized⟩

theorem not_represents {n m : UInt32} (hn : 0 < n) : ¬Represents (⟨n, m, none⟩ : MemVector α) := by
  intro hr
  obtain ⟨buf, hb, -⟩ := hr.buf hn
  cases hb

theorem Holds.keeps {e : Event α} (hs : Sized v) (hd : InDomain v e) (h : Holds count item v e) :
    Keeps count v e := by
  obtain ⟨v', codes, hst, hrep⟩ := h
  cases e with
  | openCall memory n =>
    have hd : v.itemBuf = none := hd
    simp only [step] at hst
    cases memory with
    | some raw =>
      rw [openVector_some raw n hd] at hst
      cases hst
      exact ⟨hrep.room, fun _ => rfl⟩
    | none =>
      rw [openVector_none n hd] at hst
      cases hst
      exact ⟨hrep.room, fun hpos => absurd hrep (not_represents hpos)⟩
  | close =>
    simp only [step, close_eq_ok hs, Except.ok_bind] at hst
    cases hst
    change v.bufLen = 0
    by_contra h0
    exact not_represents (UInt32.pos_iff_ne_zero.mpr h0) hrep
  | pushBack t => trivial
  | clear => trivial
  | decode memory bytes =>
    intro c hc hlt
    simp only [step, decode, hc, if_pos hlt, close_eq_ok hs, Except.ok_bind] at hst
    cases memory with
    | some raw => rfl
    | none =>
      -- the first element of the new count is bound through the null pointer
      rw [openVector_none c.1 rfl, Except.ok_bind] at hst
      have hpos := Nat.zero_lt_of_lt (UInt32.lt_iff_toNat_lt.mp hlt)
      obtain ⟨n, hn⟩ := Nat.exists_eq_add_one_of_ne_zero (Nat.ne_of_gt hpos)
      rw [hn, decodeItems_null item n 0 c.2 rfl] at hst
      cases hst

/-! ## All operations -/

/-- As long as every operation keeps the representation, nothing outside of the array is
accessed, and the next operation keeps it exactly under the condition on it. -/
theorem vector_represents_iff {tr} (h : Run (step count item) {} (fun _ v e => Keeps count v e) tr v) :
    Represents v ∧ Accessible v ∧ ∀ e, InDomain v e → (Holds count item v e ↔ Keeps count v e) := by
  have hinv : Represents v ∧ Sized v := by
    apply h.invariant (fun _ v => Represents v ∧ Sized v)
    · exact ⟨⟨UInt32.zero_le, fun hpos => absurd hpos (UInt32.lt_irrefl 0)⟩, nofun⟩
    · intro tr v e v' codes _ hi hk hst
      have hd : InDomain v e := by
        cases e with
        | openCall memory n =>
          change v.itemBuf = none
          cases hb : v.itemBuf with
          | none => rfl
          | some buf =>
            unfold step openVector at hst
            rw [hb] at hst
            cases hst
        | _ => trivial
      obtain ⟨w, codes', hst', hrep, hsized⟩ := step_keeps item hi.1 hi.2 hd hk
      obtain ⟨rfl, -⟩ := Prod.mk.inj (Except.ok.inj (hst.symm.trans hst'))
      exact ⟨hrep, hsized⟩
  obtain ⟨hrep, hsized⟩ := hinv
  refine ⟨hrep, hrep.accessible, fun e hd => ⟨fun hh => hh.keeps hsized hd, fun hk => ?_⟩⟩
  obtain ⟨v', codes, hst, hrep', -⟩ := step_keeps item hrep hsized hd hk
  exact ⟨v', codes, hst, hrep'⟩

end

/-! ## The buffer without a length -/

/-- `w` has the elements of the array of `v`, and no more is asked of it. -/
structure Views (v : MemVector α) (w : SimpleVector α) : Prop where
  bufLen : w.bufLen = v.bufLen
  itemCount : w.itemCount = v.itemCount
  null : v.itemBuf = none → w.itemBuf = none
  items : ∀ buf, v.itemBuf = some buf → ∃ f, w.itemBuf = some f ∧ ∀ i a, buf[i]? = some a → f i = a

section
variable {v v' : MemVector α} {w : SimpleVector α} {buf : List α} {count : Codec UInt32} {item : Codec α}
  {memory : Option (Nat → α)} {code : Int} {bytes rest : List UInt8} {t : α}

theorem load_inv {i : Nat} {a : α} (h : v.load i = .ok a) : ∃ buf, v.itemBuf = some buf ∧ buf[i]? = some a := by
  unfold load at h
  split at h
  · cases h
  · rename_i buf hb
    split at h
    · cases h
    · rename_i x hx
      cases h
      exact ⟨buf, hb, hx⟩

theorem store_inv {i : Nat} (h : v.store i t = .ok v') :
    ∃ buf, v.itemBuf = some buf ∧ i < buf.length ∧ v' = { v with itemBuf := some (buf.set i t) } := by
  unfold store RawArray.write at h
  split at h
  · cases h
  · rename_i buf hb
    by_cases hi : i < buf.length
    · rw [if_pos hi] at h
      cases h
      exact ⟨buf, hb, hi, rfl⟩
    · rw [if_neg hi] at h
      cases h

theorem set_views {f : Nat → α} {i : Nat} (hf : ∀ j a, buf[j]? = some a → f j = a) :
    ∀ j a, (buf.set i t)[j]? = some a → Function.update f i t j = a := by
  intro j a hj
  by_cases hij : j = i
  · subst hij
    rw [Function.update_self]
    rw [List.getElem?_set_self'] at hj
    obtain ⟨x, -, hx⟩ := Option.map_eq_some_iff.mp hj
    exact hx
  · rw [Function.update_of_ne hij]
    rw [List.getElem?_set_ne (Ne.symm hij)] at hj
    exact hf j a hj

theorem fresh_views (raw : Nat → α) (n : Nat) : ∀ i a, (RawArray.fresh raw n)[i]? = some a → raw i = a := by
  intro i a hi
  unfold RawArray.fresh at hi
  obtain ⟨j, hj, rfl⟩ := List.getElem?_eq_some_iff.mp hi
  simp

theorem Views.openVector {n : UInt32} (hv : Views v w) (h : v.openVector memory n = .ok (v', code)) :
    ∃ w', w.openVector memory n = some (w', code) ∧ Views v' w' := by
  cases hb : v.itemBuf with
  | some buf =>
    unfold MemVector.openVector at h
    rw [hb] at h
    cases h
  | none =>
    unfold SimpleVector.openVector
    rw [hv.null hb]
    cases memory with
    | none =>
      rw [openVector_none n hb] at h
      cases h
      exact ⟨_, rfl, rfl, hv.itemCount, fun _ => rfl, nofun⟩
    | some raw =>
      rw [openVector_some raw n hb] at h
      cases h
      refine ⟨_, rfl, rfl, hv.itemCount, nofun, fun buf hbuf => ⟨raw, rfl, ?_⟩⟩
      obtain rfl := Option.some.inj hbuf
      exact fresh_views raw n.toNat

theorem Views.close (hv : Views v w) (h : v.close = .ok v') : Views v' w.close := by
  unfold MemVector.close at h
  split at h
  · rename_i hb
    cases h
    exact ⟨hv.bufLen, hv.itemCount, fun _ => rfl, fun buf hbuf => by rw [hb] at hbuf; cases hbuf⟩
  · split at h
    · cases h
      exact ⟨hv.bufLen, hv.itemCount, fun _ => rfl, nofun⟩
    · cases h

theorem Views.clear (hv : Views v w) : Views v.clear w.clear := ⟨hv.bufLen, rfl, hv.null, hv.items⟩

theorem Views.pushBack (hv : Views v w) (h : v.pushBack t = .ok (v', code)) :
    ∃ w', w.pushBack t = some (w', code) ∧ Views v' w' := by
  unfold MemVector.pushBack at h
  unfold SimpleVector.pushBack
  rw [hv.itemCount, hv.bufLen]
  split at h
  · rename_i hlt
    obtain ⟨u, hu, h⟩ := Except.bind_eq_ok.mp h
    obtain ⟨buf, hb, hi, rfl⟩ := store_inv hu
    obtain ⟨f, hf, hview⟩ := hv.items buf hb
    cases h
    rw [if_pos hlt, hf, Option.map_some]
    refine ⟨_, rfl, rfl, rfl, nofun, fun buf' hbuf' => ⟨_, rfl, ?_⟩⟩
    obtain rfl := Option.some.inj hbuf'
    exact set_views hview
  · rename_i hlt
    cases h
    rw [if_neg hlt]
    exact ⟨w, rfl, hv⟩

theorem loadItems_views {f : Nat → α} (hb : v.itemBuf = some buf) (hf : ∀ j a, buf[j]? = some a → f j = a) :
    ∀ (n i : Nat) (l : List α), v.loadItems n i = .ok l → l = (List.range' i n).map f
  | 0, i, l, h => by
    cases h
    rfl
  | n + 1, i, l, h => by
    obtain ⟨a, ha, h⟩ := Except.bind_eq_ok.mp h
    obtain ⟨l', hl', h⟩ := Except.bind_eq_ok.mp h
    cases h
    obtain ⟨buf', hb', hi⟩ := load_inv ha
    obtain rfl := Option.some.inj (hb.symm.trans hb')
    rw [List.range'_succ, List.map_cons, hf i a hi, loadItems_views hb hf n (i + 1) l' hl']

theorem Views.encode (hv : Views v w) (h : v.encode count item = .ok bytes) :
    w.encode count item = some bytes := by
  unfold MemVector.encode at h
  cases hb : v.itemBuf with
  | none =>
    rw [hb] at h
    cases h
  | some buf =>
    rw [hb] at h
    obtain ⟨l, hl, h⟩ := Except.bind_eq_ok.mp h
    obtain ⟨f, hf, hview⟩ := hv.items buf hb
    cases h
    rw [loadItems_views hb hview _ _ l hl]
    unfold SimpleVector.encode
    rw [hf, hv.itemCount, List.range_eq_range', Option.map_some, List.flatMap_map]

theorem decodeItems_views (n : Nat) : ∀ (i : Nat) (v v' : MemVector α) (buf : List α) (f : Nat → α)
    (bytes rest : List UInt8), v.itemBuf = some buf → (∀ j a, buf[j]? = some a → f j = a) →
    decodeItems item n i v bytes = .ok (v', rest, code) →
    ∃ buf' f', v' = { v with itemBuf := some buf' } ∧ SimpleVector.decodeItems item n i f bytes = (f', rest, code) ∧
      ∀ j a, buf'[j]? = some a → f' j = a := by
  induction n with
  | zero =>
    intro i v v' buf f bytes rest hb hf h
    cases h
    refine ⟨buf, f, ?_, rfl, hf⟩
    rw [← hb]
  | succ n ih =>
    intro i v v' buf f bytes rest hb hf h
    unfold decodeItems at h
    obtain ⟨-, -, h⟩ := Except.bind_eq_ok.mp h
    unfold SimpleVector.decodeItems
    cases hdec : item.decode bytes with
    | none =>
      rw [hdec] at h
      cases h
      refine ⟨buf, f, ?_, rfl, hf⟩
      rw [← hb]
    | some r =>
      obtain ⟨a, rest'⟩ := r
      rw [hdec] at h
      obtain ⟨u, hu, h⟩ := Except.bind_eq_ok.mp h
      obtain ⟨buf', hb', hi, rfl⟩ := store_inv hu
      obtain rfl := Option.some.inj (hb.symm.trans hb')
      obtain ⟨buf', f', rfl, hdec', hf'⟩ := ih (i + 1) _ v' (buf.set i a) (Function.update f i a) rest' rest rfl
        (set_views hf) h
      exact ⟨buf', f', rfl, hdec', hf'⟩

/-- A decode into memory is the decode into the buffer without a length. -/
theorem Views.decode (hv : Views v w) (h : v.decode count item memory bytes = .ok (v', rest, code)) :
    ∃ w', w.decode count item memory bytes = some (w', rest, code) ∧ Views v' w' := by
  unfold MemVector.decode at h
  unfold SimpleVector.decode
  cases hc : count.decode bytes with
  | none =>
    rw [hc] at h
    cases h
    exact ⟨w, rfl, hv⟩
  | some c =>
    obtain ⟨n, bytes'⟩ := c
    rw [hc] at h
    simp only at h ⊢
    -- the vectors that the items are read into
    obtain ⟨u, x, hux, h, hx⟩ : ∃ (u : MemVector α) (x : SimpleVector α), Views u x ∧
        decodeItems item n.toNat 0 { u with itemCount := n } bytes' = .ok (v', rest, code) ∧
        (if w.bufLen < n then (w.close.openVector memory n).map Prod.fst else some w) = some x := by
      rw [hv.bufLen]
      split at h
      · rename_i hlt
        obtain ⟨u, hu, h⟩ := Except.bind_eq_ok.mp h
        obtain ⟨r, hr, h⟩ := Except.bind_eq_ok.mp h
        obtain ⟨x, hx, hview⟩ := (hv.close hu).openVector hr
        rw [if_pos hlt, hx]
        exact ⟨r.1, x, hview, h, rfl⟩
      · rename_i hlt
        rw [if_neg hlt]
        exact ⟨v, w, hv, h, rfl⟩
    have hread : ∀ k : SimpleVector α → Option (SimpleVector α × List UInt8 × Int),
        (if w.bufLen < n then (w.close.openVector memory n).map Prod.fst >>= k else some w >>= k) = k x := by
      intro k
      by_cases hlt : w.bufLen < n
      · rw [if_pos hlt] at hx ⊢
        rw [hx]
        rfl
      · rw [if_neg hlt] at hx ⊢
        rw [hx]
        rfl
    rw [hread]
    cases hb : u.itemBuf with
    | none =>
      simp only [hux.null hb]
      by_cases h0 : n = 0
      · subst h0
        cases h
        rw [if_pos rfl]
        exact ⟨_, rfl, hux.bufLen, rfl, fun _ => rfl, fun buf hbuf => by rw [hb] at hbuf; cases hbuf⟩
      · obtain ⟨m, hm⟩ := Nat.exists_eq_add_one_of_ne_zero fun h => h0 (UInt32.toNat_inj.mp h)
        rw [hm, decodeItems_null item m 0 bytes' (v := { u with itemCount := n }) hb] at h
        cases h
    | some buf =>
      obtain ⟨f, hf, hview⟩ := hux.items buf hb
      obtain ⟨buf', f', rfl, hdec, hview'⟩ := decodeItems_views n.toNat 0 { u with itemCount := n } v' buf f bytes'
        rest hb hview h
      simp only [hf, hdec]
      refine ⟨_, rfl, hux.bufLen, rfl, nofun, fun b hb' => ⟨f', rfl, ?_⟩⟩
      obtain rfl := Option.some.inj hb'
      exact hview'

end

/-! ## A vector that was closed -/

theorem toNat_lt_digits (a : UInt32) : a.toNat < 256 ^ 4 := a.toNat_lt

theorem byte_lt_digits (a : UInt8) : a.toNat < 256 ^ 1 := a.toNat_lt

def countCodec : Codec UInt32 :=
  Codec.word 4 UInt32.toNat UInt32.ofNat toNat_lt_digits fun _ => UInt32.ofNat_toNat

def byteCodec : Codec UInt8 := Codec.word 1 UInt8.toNat UInt8.ofNat byte_lt_digits fun _ => UInt8.ofNat_toNat

def zeroBytes : Option (Nat → UInt8) := some fun _ => 0

/-- After `Close` there are places but no array, and the next item is written through the null
pointer; opened again with fewer places, the vector counts items that are not there. -/
theorem vector_closed : ¬(∀ tr v, Run (step countCodec byteCodec) {} anyStep tr v → Represents v ∧ Accessible v) ∧
    (final (step countCodec byteCodec) {} [.openCall zeroBytes 2, .close]).pushBack 7 = .error .nullPtr ∧
    (final (step countCodec byteCodec) {} [.openCall zeroBytes 2, .pushBack 7, .pushBack 8, .close,
      .openCall zeroBytes 1]).load 1 = .error .outOfRange := by
  refine ⟨fun hall => ?_, rfl, rfl⟩
  have hr := (hall _ _ (run_trace_any [.openCall zeroBytes 2, .close])).1
  exact not_represents (n := 2) (m := 0) (by decide) hr

theorem vector_represents_iff_two : Represents (⟨2, 1, some [7, 0]⟩ : MemVector UInt8) ∧
    Accessible (⟨2, 1, some [7, 0]⟩ : MemVector UInt8) ∧ ∀ e, InDomain ⟨2, 1, some [7, 0]⟩ e →
      (Holds countCodec byteCodec ⟨2, 1, some [7, 0]⟩ e ↔ Keeps countCodec ⟨2, 1, some [7, 0]⟩ e) := by
  have hopen : Keeps countCodec {} (.openCall zeroBytes 2) := ⟨by decide, fun _ => rfl⟩
  have hpush : Keeps countCodec ⟨2, 0, some [0, 0]⟩ (.pushBack (7 : UInt8)) := trivial
  exact vector_represents_iff ((Run.nil.snoc hopen rfl).snoc hpush rfl)

end MemVector

end VProtocol
