import Mathlib.Data.List.Basic
import Mathlib.Tactic.Ring

/-!
# Codecs

A codec reads its own encoding in front of any bytes. An object is written attribute by
attribute, and read into an object that is there already: what is read replaces its
attributes and nothing else of it.
-/

namespace VProtocol

structure Codec (α : Type) where
  size : α → Nat
  encode : α → List UInt8
  decode : List UInt8 → Option (α × List UInt8)
  length_encode : ∀ a, (encode a).length = size a
  decode_encode : ∀ a rest, decode (encode a ++ rest) = some (a, rest)

section
variable {α σ : Type}

/-! ## Numbers and byte strings -/

/-- The last `w` digits to the base 256, the most significant one first. -/
def writeNat : Nat → Nat → List UInt8
  | 0, _ => []
  | w + 1, n => UInt8.ofNat (n / 256 ^ w) :: writeNat w n

def readNat : Nat → Nat → List UInt8 → Option (Nat × List UInt8)
  | 0, n, bytes => some (n, bytes)
  | _ + 1, _, [] => none
  | w + 1, n, c :: bytes => readNat w (256 * n + c.toNat) bytes

theorem length_writeNat (w n : Nat) : (writeNat w n).length = w := by
  induction w with
  | zero => rfl
  | succ w ih => simp [writeNat, ih]

/-- The digits that were read first are those above. -/
theorem readNat_writeNat (w n : Nat) (rest : List UInt8) :
    readNat w (n / 256 ^ w) (writeNat w n ++ rest) = some (n, rest) := by
  induction w with
  | zero => simp [readNat, writeNat]
  | succ w ih =>
    have hdigit : 256 * (n / 256 ^ (w + 1)) + (UInt8.ofNat (n / 256 ^ w)).toNat = n / 256 ^ w := by
      rw [pow_succ, ← Nat.div_div_eq_div_mul, UInt8.toNat_ofNat']
      exact Nat.div_add_mod _ _
    unfold writeNat
    rw [List.cons_append]
    unfold readNat
    rw [hdigit]
    exact ih

/-- A type of numbers of `w` digits. -/
def Codec.word (w : Nat) (toNat : α → Nat) (ofNat : Nat → α) (lt : ∀ a, toNat a < 256 ^ w)
    (inv : ∀ a, ofNat (toNat a) = a) : Codec α where
  size _ := w
  encode a := writeNat w (toNat a)
  decode bytes := (readNat w 0 bytes).map fun r => (ofNat r.1, r.2)
  length_encode _ := length_writeNat _ _
  decode_encode a rest := by
    have hread := readNat_writeNat w (toNat a) rest
    rw [Nat.div_eq_of_lt (lt a)] at hread
    rw [hread, Option.map_some, inv]

def Codec.bytes (n : Nat) : Codec { b : List UInt8 // b.length = n } where
  size _ := n
  encode b := b.1
  decode l := if h : n ≤ l.length then some (⟨l.take n, List.length_take_of_le h⟩, l.drop n) else none
  length_encode b := b.2
  decode_encode b rest := by
    have hle : n ≤ (b.1 ++ rest).length := by
      rw [List.length_append, b.2]
      exact Nat.le_add_right n _
    rw [dif_pos hle, Option.some.injEq, Prod.mk.injEq]
    exact ⟨Subtype.ext (List.take_left' b.2), List.drop_left' b.2⟩

/-- A byte string behind its length. -/
def Codec.blob (w : Nat) {N : Nat} (hN : N ≤ 256 ^ w) : Codec { b : List UInt8 // b.length < N } where
  size b := w + b.1.length
  encode b := writeNat w b.1.length ++ b.1
  decode l := (readNat w 0 l).bind fun r =>
    if h : r.1 ≤ r.2.length ∧ r.1 < N then
      some (⟨r.2.take r.1, (List.length_take_of_le h.1).trans_lt h.2⟩, r.2.drop r.1)
    else none
  length_encode b := by rw [List.length_append, length_writeNat]
  decode_encode b rest := by
    have hread := readNat_writeNat w b.1.length (b.1 ++ rest)
    rw [Nat.div_eq_of_lt (b.2.trans_le hN)] at hread
    have hle : b.1.length ≤ (b.1 ++ rest).length ∧ b.1.length < N := by
      rw [List.length_append]
      exact ⟨Nat.le_add_right _ _, b.2⟩
    rw [List.append_assoc, hread, Option.bind_some, dif_pos hle, Option.some.injEq, Prod.mk.injEq]
    exact ⟨Subtype.ext List.take_left, List.drop_left⟩

/-! ## Attributes -/

/-- `copy b t` is `t` with the attribute of `b`. -/
structure Attr (σ : Type) where
  size : σ → Nat
  encode : σ → List UInt8
  decode : σ → List UInt8 → Option (σ × List UInt8)
  copy : σ → σ → σ
  length_encode : ∀ b, (encode b).length = size b
  decode_encode : ∀ b t rest, decode t (encode b ++ rest) = some (copy b t, rest)

def Codec.attr (c : Codec α) (get : σ → α) (set : α → σ → σ) : Attr σ where
  size b := c.size (get b)
  encode b := c.encode (get b)
  decode t bytes := (c.decode bytes).map fun r => (set r.1 t, r.2)
  copy b t := set (get b) t
  length_encode b := c.length_encode (get b)
  decode_encode b t rest := by rw [c.decode_encode, Option.map_some]

def sizeAttrs (l : List (Attr σ)) (b : σ) : Nat := (l.map (·.size b)).sum

def encodeAttrs (l : List (Attr σ)) (b : σ) : List UInt8 := l.flatMap (·.encode b)

/-- There are no bytes left to read from when an attribute cannot be read; those before it are set. -/
def decodeAttrs : List (Attr σ) → σ → List UInt8 → σ × Option (List UInt8)
  | [], t, bytes => (t, some bytes)
  | a :: l, t, bytes =>
    match a.decode t bytes with
    | none => (t, none)
    | some (t, rest) => decodeAttrs l t rest

def copyAttrs (l : List (Attr σ)) (b t : σ) : σ := l.foldl (fun t a => a.copy b t) t

theorem length_encodeAttrs (l : List (Attr σ)) (b : σ) : (encodeAttrs l b).length = sizeAttrs l b := by
  induction l with
  | nil => rfl
  | cons a l ih =>
    unfold encodeAttrs sizeAttrs at *
    rw [List.flatMap_cons, List.length_append, ih, a.length_encode, List.map_cons, List.sum_cons]

theorem decodeAttrs_encodeAttrs (l : List (Attr σ)) (b t : σ) (rest : List UInt8) :
    decodeAttrs l t (encodeAttrs l b ++ rest) = (copyAttrs l b t, some rest) := by
  induction l generalizing t with
  | nil => rfl
  | cons a l ih =>
    unfold encodeAttrs decodeAttrs
    rw [List.flatMap_cons, List.append_assoc, a.decode_encode]
    exact ih (a.copy b t)

theorem restored_iff {l : List (Attr σ)} {b t : σ} {rest : List UInt8} :
    decodeAttrs l t (encodeAttrs l b ++ rest) = (b, some rest) ↔ copyAttrs l b t = b := by
  rw [decodeAttrs_encodeAttrs, Prod.mk.injEq]
  exact and_iff_left rfl

/-- Objects that are read anew, where the attributes are all there is to them. -/
def Codec.ofAttrs (l : List (Attr σ)) (init : σ) (full : ∀ b, copyAttrs l b init = b) : Codec σ where
  size := sizeAttrs l
  encode := encodeAttrs l
  decode bytes :=
    match decodeAttrs l init bytes with
    | (t, some rest) => some (t, rest)
    | (_, none) => none
  length_encode := length_encodeAttrs l
  decode_encode b rest := by rw [decodeAttrs_encodeAttrs, full]

/-! ## Lists -/

def readMany (c : Codec α) : Nat → List UInt8 → Option (List α × List UInt8)
  | 0, bytes => some ([], bytes)
  | n + 1, bytes => (c.decode bytes).bind fun r => (readMany c n r.2).map fun rs => (r.1 :: rs.1, rs.2)

theorem readMany_flatMap (c : Codec α) (l : List α) (rest : List UInt8) :
    readMany c l.length (l.flatMap c.encode ++ rest) = some (l, rest) := by
  induction l with
  | nil => rfl
  | cons a l ih =>
    rw [List.length_cons, List.flatMap_cons, List.append_assoc]
    unfold readMany
    rw [c.decode_encode, Option.bind_some, ih, Option.map_some]

/-- How many of `n` elements can be read before one cannot. -/
def readCount (c : Codec α) : Nat → List UInt8 → Nat
  | 0, _ => 0
  | n + 1, bytes => (c.decode bytes).elim 0 fun r => readCount c n r.2 + 1

theorem readCount_le (c : Codec α) (n : Nat) (bytes : List UInt8) : readCount c n bytes ≤ n := by
  induction n generalizing bytes with
  | zero => exact Nat.le_refl 0
  | succ n ih =>
    unfold readCount
    cases c.decode bytes with
    | none => exact Nat.zero_le _
    | some r => exact Nat.succ_le_succ (ih r.2)

theorem readMany_isSome (c : Codec α) (n : Nat) (bytes : List UInt8) :
    (readMany c n bytes).isSome = true ↔ readCount c n bytes = n := by
  induction n generalizing bytes with
  | zero => exact iff_of_true rfl rfl
  | succ n ih =>
    unfold readMany readCount
    cases c.decode bytes with
    | none => exact iff_of_false nofun (Nat.succ_ne_zero n).symm
    | some r =>
      rw [Option.bind_some, Option.isSome_map, ih]
      exact (Nat.succ_inj).symm

theorem length_flatMap_encode (c : Codec α) (l : List α) : (l.flatMap c.encode).length = (l.map c.size).sum := by
  rw [List.length_flatMap]
  congr 1
  exact List.map_congr_left fun a _ => c.length_encode a

/-- A list behind its length. -/
def Codec.list (w : Nat) {N : Nat} (hN : N ≤ 256 ^ w) (c : Codec α) : Codec { l : List α // l.length < N } where
  size l := w + (l.1.map c.size).sum
  encode l := writeNat w l.1.length ++ l.1.flatMap c.encode
  decode bytes := (readNat w 0 bytes).bind fun r => (readMany c r.1 r.2).bind fun rs =>
    if h : rs.1.length < N then some (⟨rs.1, h⟩, rs.2) else none
  length_encode l := by rw [List.length_append, length_writeNat, length_flatMap_encode]
  decode_encode l rest := by
    have hread := readNat_writeNat w l.1.length (l.1.flatMap c.encode ++ rest)
    rw [Nat.div_eq_of_lt (l.2.trans_le hN)] at hread
    rw [List.append_assoc, hread, Option.bind_some, readMany_flatMap, Option.bind_some, dif_pos l.2]

end

end VProtocol
