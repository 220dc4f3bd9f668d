import Mathlib.Logic.Function.Basic
import VProtocol.Lib.Codec

/-!
# `CSimpleVector`

A buffer that is opened with a number of places and keeps it until it is closed. A decode
uses the buffer that is there when it has the places, and opens another one otherwise.
-/

namespace VProtocol

open Function (update)

structure SimpleVector (α : Type) where
  bufLen : UInt32 := 0
  itemCount : UInt32 := 0
  itemBuf : Option (Nat → α) := none

namespace SimpleVector

variable {α : Type}

/-- `memory` is what an allocation gives. An open vector fails the assertion. -/
def openVector (memory : Option (Nat → α)) (nSize : UInt32) (v : SimpleVector α) : Option (SimpleVector α × Int) :=
  match v.itemBuf with
  | some _ => none
  | none => some ({ v with bufLen := nSize, itemBuf := memory }, if memory.isSome then 0 else -1)

/-- The number of places and the number of items stay. -/
def close (v : SimpleVector α) : SimpleVector α := { v with itemBuf := none }

def clear (v : SimpleVector α) : SimpleVector α := { v with itemCount := 0 }

/-- There is no result when the item is written through a null pointer. -/
def pushBack (t : α) (v : SimpleVector α) : Option (SimpleVector α × Int) :=
  if v.itemCount < v.bufLen then
    v.itemBuf.map fun buf =>
      ({ v with itemBuf := some (update buf v.itemCount.toNat t), itemCount := v.itemCount + 1 }, 0)
  else some (v, -1)

section
variable (count : Codec UInt32) (item : Codec α)

def getEncodeSize (v : SimpleVector α) : Option Nat :=
  v.itemBuf.map fun buf =>
    count.size v.itemCount + ((List.range v.itemCount.toNat).map fun idx => item.size (buf idx)).sum

def encode (v : SimpleVector α) : Option (List UInt8) :=
  v.itemBuf.map fun buf =>
    count.encode v.itemCount ++ (List.range v.itemCount.toNat).flatMap fun idx => item.encode (buf idx)

def decodeItems : Nat → Nat → (Nat → α) → List UInt8 → (Nat → α) × List UInt8 × Int
  | 0, _, buf, bytes => (buf, bytes, 0)
  | n + 1, i, buf, bytes =>
    match item.decode bytes with
    | none => (buf, bytes, -1)
    | some (a, rest) => decodeItems n (i + 1) (update buf i a) rest

def decode (memory : Option (Nat → α)) (v : SimpleVector α) (bytes : List UInt8) :
    Option (SimpleVector α × List UInt8 × Int) :=
  match count.decode bytes with
  | none => some (v, bytes, -1)
  | some (nSize, bytes) => do
    -- the result of `Open` is not looked at
    let v ← if v.bufLen < nSize then (v.close.openVector memory nSize).map Prod.fst else some v
    let v := { v with itemCount := nSize }
    match v.itemBuf with
    | none => if nSize = 0 then some (v, bytes, 0) else none
    | some buf =>
      let r := decodeItems item nSize.toNat 0 buf bytes
      some ({ v with itemBuf := some r.1 }, r.2)

/-- `DscVCodecBindAttr` of a decode has no return statement: `ret` is what its caller reads. -/
def bindAttrDecode (memory : Option (Nat → α)) (ret : Int) (v : SimpleVector α) (bytes : List UInt8) :
    Option (SimpleVector α × List UInt8 × Int) :=
  (v.decode count item memory bytes).map fun r => (r.1, r.2.1, ret)

end

/-! ## Opened vectors -/

def items (v : SimpleVector α) : List α := v.itemBuf.elim [] fun buf => (List.range v.itemCount.toNat).map buf

structure Opened (v : SimpleVector α) : Prop where
  buf : v.itemBuf ≠ none
  room : v.itemCount ≤ v.bufLen

/-! ## What a decode reads -/

section
variable {count : Codec UInt32} {item : Codec α} {v w : SimpleVector α} {memory : Option (Nat → α)}
  {bytes : List UInt8}

theorem encode_opened (count : Codec UInt32) (item : Codec α) (h : Opened v) : ∃ bytes,
    v.encode count item = some bytes ∧ v.getEncodeSize count item = some bytes.length := by
  obtain ⟨buf, hbuf⟩ := Option.ne_none_iff_exists'.mp h.buf
  unfold encode getEncodeSize
  rw [hbuf, Option.map_some, Option.map_some]
  refine ⟨_, rfl, ?_⟩
  rw [List.length_append, count.length_encode, List.length_flatMap]
  simp only [item.length_encode]

theorem decodeItems_encode (item : Codec α) (src : Nat → α) (n i : Nat) (buf : Nat → α) (rest : List UInt8) :
    ∃ buf', decodeItems item n i buf ((List.range' i n).flatMap (fun idx => item.encode (src idx)) ++ rest) =
        (buf', rest, 0) ∧
      ∀ j, buf' j = if i ≤ j ∧ j < i + n then src j else buf j := by
  induction n generalizing i buf with
  | zero =>
    refine ⟨buf, rfl, fun j => ?_⟩
    rw [if_neg (by omega)]
  | succ n ih =>
    obtain ⟨buf', hdec, hbuf⟩ := ih (i + 1) (update buf i (src i))
    refine ⟨buf', ?_, fun j => ?_⟩
    · unfold decodeItems
      rw [List.range'_succ, List.flatMap_cons, List.append_assoc, item.decode_encode]
      exact hdec
    · rw [hbuf j]
      by_cases hj : j = i
      · subst hj
        rw [if_neg (by omega), if_pos (by omega), Function.update_self]
      · rw [Function.update_of_ne hj]
        exact if_congr (by omega) rfl rfl

/-- The buffer a decode writes `n` items to is not null, or it writes none. -/
def Receives (memory : Option (Nat → α)) (w : SimpleVector α) (n : UInt32) : Prop :=
  if w.bufLen < n then memory ≠ none else n = 0 ∨ w.itemBuf ≠ none

theorem decodeItems_items (item : Codec α) (src buf : Nat → α) (n : Nat) (rest : List UInt8) : ∃ buf',
    decodeItems item n 0 buf ((List.range n).flatMap (fun idx => item.encode (src idx)) ++ rest) = (buf', rest, 0) ∧
      (List.range n).map buf' = (List.range n).map src := by
  obtain ⟨buf', hdec, hbuf⟩ := decodeItems_encode item src n 0 buf rest
  rw [← List.range_eq_range'] at hdec
  refine ⟨buf', hdec, ?_⟩
  apply List.map_congr_left
  intro i hi
  have hlt := List.mem_range.mp hi
  rw [hbuf i, if_pos (by omega)]

theorem decode_encode (henc : v.encode count item = some bytes) (h : Receives memory w v.itemCount)
    (rest : List UInt8) :
    ∃ t, w.decode count item memory (bytes ++ rest) = some (t, rest, 0) ∧ t.itemCount = v.itemCount ∧
      t.items = v.items := by
  obtain ⟨src, hsrc, rfl⟩ := Option.map_eq_some_iff.mp henc
  unfold decode
  rw [List.append_assoc, count.decode_encode]
  unfold Receives at h
  split at h
  · rename_i hlt
    obtain ⟨mem, rfl⟩ := Option.ne_none_iff_exists'.mp h
    obtain ⟨buf', hdec, hmap⟩ := decodeItems_items item src mem v.itemCount.toNat rest
    simp [hlt, openVector, close, hdec, items, hsrc, hmap]
  · rename_i hlt
    cases hbuf : w.itemBuf with
    | none =>
      have h0 : v.itemCount = 0 := h.resolve_right fun hne => hne hbuf
      simp [h0, hbuf, items, hsrc]
    | some buf =>
      obtain ⟨buf', hdec, hmap⟩ := decodeItems_items item src buf v.itemCount.toNat rest
      simp [hlt, hbuf, hdec, items, hsrc, hmap]

/-- Without a buffer the first item is written through a null pointer. -/
theorem decode_unreceived {nSize : UInt32} {rest : List UInt8} (hcount : count.decode bytes = some (nSize, rest))
    (h : ¬Receives memory v nSize) : v.decode count item memory bytes = none := by
  unfold decode
  rw [hcount]
  unfold Receives at h
  split at h
  · rename_i hlt
    have h0 : nSize ≠ 0 := fun h0 => UInt32.not_lt_zero (h0 ▸ hlt)
    rw [not_not] at h
    simp [hlt, openVector, close, h, h0]
  · rename_i hlt
    rw [not_or, not_not] at h
    simp [hlt, h.1, h.2]

theorem decode_null (henc : v.encode count item = some bytes) (h : ¬Receives memory w v.itemCount)
    (rest : List UInt8) :
    w.decode count item memory (bytes ++ rest) = none := by
  obtain ⟨src, hsrc, rfl⟩ := Option.map_eq_some_iff.mp henc
  have hcount := count.decode_encode v.itemCount
    ((List.range v.itemCount.toNat).flatMap (fun idx => item.encode (src idx)) ++ rest)
  rw [← List.append_assoc] at hcount
  exact decode_unreceived hcount h

end

end SimpleVector

end VProtocol
