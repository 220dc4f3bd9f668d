import Mathlib.Data.List.Basic

/-!
# Base64

Three bytes are written as four characters of an alphabet of 64, and a byte or two that are
left as two or three, filled up with a character outside of it. The decoder reads up to the
first character that is not of the alphabet.
-/

namespace VProtocol.Base64

/-- The character of a value below 64. -/
def toChar (v : Nat) : UInt8 :=
  UInt8.ofNat (if v < 26 then v + 65 else if v < 52 then v + 71 else if v < 62 then v - 4 else if v = 62 then 43 else 47)

def ofChar (c : UInt8) : Option Nat :=
  if 65 ≤ c ∧ c ≤ 90 then some (c.toNat - 65)
  else if 97 ≤ c ∧ c ≤ 122 then some (c.toNat - 71)
  else if 48 ≤ c ∧ c ≤ 57 then some (c.toNat + 4)
  else if c = 43 then some 62
  else if c = 47 then some 63
  else none

def pad : UInt8 := 61

def encode : List UInt8 → List UInt8
  | [] => []
  | [a] => [toChar (a.toNat / 4), toChar (a.toNat % 4 * 16), pad, pad]
  | [a, b] => [toChar (a.toNat / 4), toChar (a.toNat % 4 * 16 + b.toNat / 16), toChar (b.toNat % 16 * 4), pad]
  | a :: b :: c :: l =>
    toChar (a.toNat / 4) :: toChar (a.toNat % 4 * 16 + b.toNat / 16) :: toChar (b.toNat % 16 * 4 + c.toNat / 64) ::
      toChar (c.toNat % 64) :: encode l

/-- The values of the characters in front of the first one that has none. -/
def values : List UInt8 → List Nat
  | [] => []
  | c :: l =>
    match ofChar c with
    | none => []
    | some v => v :: values l

def group : List Nat → List UInt8
  | v₁ :: v₂ :: v₃ :: v₄ :: l =>
    UInt8.ofNat (v₁ * 4 + v₂ / 16) :: UInt8.ofNat (v₂ % 16 * 16 + v₃ / 4) :: UInt8.ofNat (v₃ % 4 * 64 + v₄) :: group l
  | [v₁, v₂, v₃] => [UInt8.ofNat (v₁ * 4 + v₂ / 16), UInt8.ofNat (v₂ % 16 * 16 + v₃ / 4)]
  | [v₁, v₂] => [UInt8.ofNat (v₁ * 4 + v₂ / 16)]
  | _ => []

def decode (text : List UInt8) : List UInt8 := group (values text)

theorem ofChar_toChar : ∀ v < 64, ofChar (toChar v) = some v := by
  decide

theorem values_toChar {v : Nat} (h : v < 64) (l : List UInt8) : values (toChar v :: l) = v :: values l := by
  rw [values, ofChar_toChar v h]

theorem values_stop {c : UInt8} (h : ofChar c = none) (l : List UInt8) : values (c :: l) = [] := by
  rw [values, h]

theorem values_append (text l : List UInt8) {c : UInt8} (h : ofChar c = none) :
    values (text ++ c :: l) = values text := by
  induction text with
  | nil => exact values_stop h l
  | cons x text ih =>
    rw [List.cons_append]
    unfold values
    cases ofChar x with
    | none => rfl
    | some v => simp only [ih]

theorem ofNat_eq {n : Nat} {a : UInt8} (h : n = a.toNat) : UInt8.ofNat n = a := by
  rw [h, UInt8.ofNat_toNat]

theorem ofChar_pad : ofChar pad = none := by
  decide

theorem decode_encode : ∀ b : List UInt8, decode (encode b) = b
  | [] => rfl
  | [a] => by
    have ha := a.toNat_lt
    unfold decode encode
    rw [values_toChar (by omega), values_toChar (by omega), values_stop ofChar_pad]
    unfold group
    rw [ofNat_eq (a := a) (by omega)]
  | [a, b] => by
    have ha := a.toNat_lt
    have hb := b.toNat_lt
    unfold decode encode
    rw [values_toChar (by omega), values_toChar (by omega), values_toChar (by omega), values_stop ofChar_pad]
    unfold group
    rw [ofNat_eq (a := a) (by omega), ofNat_eq (a := b) (by omega)]
  | a :: b :: c :: l => by
    have ha := a.toNat_lt
    have hb := b.toNat_lt
    have hc := c.toNat_lt
    have ih := decode_encode l
    unfold decode at ih
    unfold decode encode
    rw [values_toChar (by omega), values_toChar (by omega), values_toChar (by omega), values_toChar (by omega)]
    unfold group
    rw [ofNat_eq (a := a) (by omega), ofNat_eq (a := b) (by omega), ofNat_eq (a := c) (by omega), ih]

theorem decode_append (text l : List UInt8) {c : UInt8} (h : ofChar c = none) :
    decode (text ++ c :: l) = decode text := by
  unfold decode
  rw [values_append text l h]

end VProtocol.Base64
