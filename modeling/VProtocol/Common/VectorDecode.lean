import VProtocol.Common.VectorMemory

/-!
# Vectors that cannot be decoded

`Decode` stores the count before it reads the items, and the wrapper that every message uses for
a vector returns nothing. So an input that ends early is not reported but by chance, and the
vector counts items that were there before.
-/

namespace VProtocol.SimpleVector

open Function (update)

/-! ## The property -/

section
variable {α : Type} (count : Codec UInt32) (item : Codec α)

/-- The count and all the items it counts can be decoded. -/
def Decodes (bytes : List UInt8) : Prop :=
  ∃ r, count.decode bytes = some r ∧ (readMany item r.1.toNat r.2).isSome = true

/-- How many items are decoded from an input. -/
def decodedCount (bytes : List UInt8) : Nat := (count.decode bytes).elim 0 fun r => readCount item r.1.toNat r.2

/-- The wrapper returns, with a code that says whether the input was decoded, and a vector that
counts no more than was. -/
def BindRight (memory : Option (Nat → α)) (ret : Int) (v : SimpleVector α) (bytes : List UInt8) : Prop :=
  ∃ w rest code, v.bindAttrDecode count item memory ret bytes = some (w, rest, code) ∧
    (code ≠ 0 ↔ ¬Decodes count item bytes) ∧
    (¬Decodes count item bytes → w.itemCount.toNat ≤ decodedCount count item bytes)

end

section
variable {α : Type} {count : Codec UInt32} {item : Codec α} {memory : Option (Nat → α)} {ret : Int}
  {v w : SimpleVector α} {bytes rest : List UInt8} {nSize : UInt32}

/-! ## What a decode counts -/

theorem decodeItems_code (item : Codec α) (n i : Nat) (buf : Nat → α) (bytes : List UInt8) :
    (decodeItems item n i buf bytes).2.2 = 0 ↔ readCount item n bytes = n := by
  induction n generalizing i buf bytes with
  | zero => exact iff_of_true rfl rfl
  | succ n ih =>
    unfold decodeItems readCount
    cases item.decode bytes with
    | none => exact iff_of_false (by simp) (Nat.succ_ne_zero n).symm
    | some r => exact (ih (i + 1) (update buf i r.1) r.2).trans Nat.succ_inj.symm

theorem decode_uncounted (h : count.decode bytes = none) : v.decode count item memory bytes = some (v, bytes, -1) := by
  unfold decode
  rw [h]

theorem decode_counted (h : count.decode bytes = some (nSize, rest)) (hr : Receives memory v nSize) :
    ∃ w rest' code, v.decode count item memory bytes = some (w, rest', code) ∧ w.itemCount = nSize ∧
      (code = 0 ↔ readCount item nSize.toNat rest = nSize.toNat) := by
  unfold decode
  rw [h]
  unfold Receives at hr
  split at hr
  · rename_i hlt
    obtain ⟨mem, rfl⟩ := Option.ne_none_iff_exists'.mp hr
    simp only [if_pos hlt, openVector, close, Option.map_some, Option.bind_eq_bind, Option.bind_some]
    exact ⟨_, _, _, rfl, rfl, decodeItems_code item nSize.toNat 0 mem rest⟩
  · rename_i hlt
    simp only [if_neg hlt, Option.bind_eq_bind, Option.bind_some]
    cases hbuf : v.itemBuf with
    | none =>
      have h0 : nSize = 0 := hr.resolve_right fun hne => hne hbuf
      subst h0
      exact ⟨_, _, _, rfl, rfl, iff_of_true rfl rfl⟩
    | some buf => exact ⟨_, _, _, rfl, rfl, decodeItems_code item nSize.toNat 0 buf rest⟩

/-! ## When the wrapper is right -/

theorem decodes_counted (h : count.decode bytes = some (nSize, rest)) :
    Decodes count item bytes ↔ readCount item nSize.toNat rest = nSize.toNat := by
  rw [← readMany_isSome]
  constructor
  · rintro ⟨r, hr, hall⟩
    obtain rfl := Option.some.inj (h.symm.trans hr)
    exact hall
  · exact fun hall => ⟨_, h, hall⟩

theorem decodes_uncounted (h : count.decode bytes = none) : ¬Decodes count item bytes := by
  rintro ⟨r, hr, -⟩
  cases h.symm.trans hr

theorem bind_uncounted (h : count.decode bytes = none) :
    BindRight count item memory ret v bytes ↔ v.itemCount = 0 ∧ ret ≠ 0 := by
  have hno : ¬Decodes count item bytes := decodes_uncounted h
  have hzero : decodedCount count item bytes = 0 := by
    unfold decodedCount
    rw [h]
    rfl
  unfold BindRight bindAttrDecode
  rw [decode_uncounted h, Option.map_some]
  constructor
  · rintro ⟨w, rest, code, heq, hcode, hitems⟩
    obtain ⟨rfl, h⟩ := Prod.mk.inj (Option.some.inj heq)
    obtain ⟨-, rfl⟩ := Prod.mk.inj h
    have hle := hitems hno
    rw [hzero] at hle
    exact ⟨UInt32.toNat_inj.mp (Nat.le_zero.mp hle), hcode.mpr hno⟩
  · rintro ⟨hitems, hret⟩
    refine ⟨v, bytes, ret, rfl, iff_of_true hret hno, fun _ => ?_⟩
    rw [hzero, hitems]
    exact Nat.le_refl 0

theorem bind_counted (h : count.decode bytes = some (nSize, rest)) (hr : Receives memory v nSize) :
    BindRight count item memory ret v bytes ↔ Decodes count item bytes ∧ ret = 0 := by
  have hdecodes : Decodes count item bytes ↔ readCount item nSize.toNat rest = nSize.toNat := decodes_counted h
  have hread : decodedCount count item bytes = readCount item nSize.toNat rest := by
    unfold decodedCount
    rw [h]
    rfl
  have htakes : ∃ w rest' code, v.decode count item memory bytes = some (w, rest', code) ∧ w.itemCount = nSize ∧
      (code = 0 ↔ readCount item nSize.toNat rest = nSize.toNat) := decode_counted h hr
  obtain ⟨w, rest', code, hdec, hitems, -⟩ := htakes
  unfold BindRight bindAttrDecode
  rw [hdec, Option.map_some]
  constructor
  · rintro ⟨w', rest'', code', heq, hcode, hle⟩
    obtain ⟨rfl, h⟩ := Prod.mk.inj (Option.some.inj heq)
    obtain ⟨-, rfl⟩ := Prod.mk.inj h
    have hall : Decodes count item bytes := by
      by_contra hno
      have hfew := hle hno
      rw [hread, hitems] at hfew
      exact hno (hdecodes.mpr (Nat.le_antisymm (readCount_le _ _ _) hfew))
    refine ⟨hall, ?_⟩
    by_contra hret
    exact hcode.mp hret hall
  · rintro ⟨hall, hret⟩
    exact ⟨w, rest', ret, rfl, iff_of_false (not_not.mpr hret) (not_not.mpr hall), fun hno => absurd hall hno⟩

theorem bind_unreceived (h : count.decode bytes = some (nSize, rest)) (hr : ¬Receives memory v nSize) :
    ¬BindRight count item memory ret v bytes := by
  unfold BindRight bindAttrDecode
  rw [decode_unreceived h hr, Option.map_none]
  rintro ⟨w, rest', code, heq, -⟩
  cases heq

/-- A vector is read as it should be when all of the input is there, there is memory for it, and
what the caller takes for the result is 0; or when not even the count is there, the vector was
empty before, and what the caller takes for the result is something else. -/
theorem bind_right_iff (count : Codec UInt32) (item : Codec α) (memory : Option (Nat → α)) (ret : Int)
    (v : SimpleVector α) (bytes : List UInt8) :
    BindRight count item memory ret v bytes ↔
      (∃ nSize rest, count.decode bytes = some (nSize, rest) ∧ Receives memory v nSize ∧
        (readMany item nSize.toNat rest).isSome = true ∧ ret = 0) ∨
      count.decode bytes = none ∧ v.itemCount = 0 ∧ ret ≠ 0 := by
  cases hcount : count.decode bytes with
  | none =>
    rw [bind_uncounted hcount]
    constructor
    · exact fun h => .inr ⟨rfl, h⟩
    · rintro (⟨nSize, rest, hsome, -⟩ | ⟨-, h⟩)
      · cases hsome
      · exact h
  | some r =>
    obtain ⟨nSize, rest⟩ := r
    by_cases hr : Receives memory v nSize
    · rw [bind_counted hcount hr]
      constructor
      · rintro ⟨⟨r, hr', hmany⟩, hret⟩
        obtain rfl := Option.some.inj (hcount.symm.trans hr')
        exact .inl ⟨nSize, rest, rfl, hr, hmany, hret⟩
      · rintro (⟨nSize', rest', hsome, -, hmany, hret⟩ | ⟨hnone, -⟩)
        · obtain ⟨rfl, rfl⟩ := Prod.mk.inj (Option.some.inj hsome)
          exact ⟨⟨_, hcount, hmany⟩, hret⟩
        · cases hnone
    · refine iff_of_false (bind_unreceived hcount hr) ?_
      rintro (⟨nSize', rest', hsome, hreceives, -⟩ | ⟨hnone, -⟩)
      · obtain ⟨rfl, rfl⟩ := Prod.mk.inj (Option.some.inj hsome)
        exact hr hreceives
      · cases hnone

/-- One item where two are announced: the vector counts two, of which the second is from an
earlier use. -/
theorem bind_leaves : ¬∀ (α : Type) (count : Codec UInt32) (item : Codec α) (memory : Option (Nat → α)) (ret : Int)
    (v : SimpleVector α) (bytes : List UInt8), BindRight count item memory ret v bytes := by
  intro hall
  have hcount : MemVector.countCodec.decode [0, 0, 0, 2, 7] = some (2, [7]) := by decide
  have hno : ¬Decodes MemVector.countCodec MemVector.byteCodec [0, 0, 0, 2, 7] := fun h =>
    absurd ((decodes_counted hcount).mp h) (by decide)
  obtain ⟨w, rest, code, hbind, -, hle⟩ := hall UInt8 MemVector.countCodec MemVector.byteCodec none (-1)
    ⟨2, 2, some fun _ => 9⟩ [0, 0, 0, 2, 7]
  have hitems : w.itemCount = 2 := congrArg (fun r => r.1.itemCount) (Option.some.inj hbind).symm
  have hfew := hle hno
  rw [hitems] at hfew
  exact absurd hfew (by decide)

end

end VProtocol.SimpleVector
