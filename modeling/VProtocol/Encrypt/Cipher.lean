import VProtocol.Common.Types

/-!
# The ciphers of the encryption library

Both builds of the library write what a cipher makes of a text piece by piece into one buffer,
and give up as soon as a call fails. The cipher itself is a parameter.
-/

namespace VProtocol.Encrypt

/-- `VBH_CIPHER_IV` -/
def vbhCipherIv : Blob := "jfkngkghjfdumgldjvm".toUTF8.data.toList

def evpMaxBlockLength : Nat := 32

def intMax : Nat := 2 ^ 31 - 1

/-- The size of the output buffer, the sum of two `int`, is an `int` again. -/
def Allocates (nDataLen : Nat) : Prop := nDataLen + evpMaxBlockLength * 2 ≤ intMax

instance (nDataLen : Nat) : Decidable (Allocates nDataLen) := inferInstanceAs (Decidable (_ ≤ _))

/-- Which of the three calls that a text goes through return 1. -/
structure Calls where
  init : Bool
  update : Bool
  final : Bool

def Calls.ok : Calls := ⟨true, true, true⟩

structure Calls.Succeed (calls : Calls) : Prop where
  init : calls.init = true
  update : calls.update = true
  final : calls.final = true

theorem Calls.ok_succeed : Calls.ok.Succeed := ⟨rfl, rfl, rfl⟩

/-- What is left in the buffer when no call fails; a call that fails frees it. -/
def Calls.run (calls : Calls) (out : Option Blob) : Option Blob :=
  if calls.init = false then none
  else if calls.update = false then none
  else if calls.final = false then none
  else out

theorem Calls.run_eq_some {calls : Calls} {out : Option Blob} {text : Blob} :
    calls.run out = some text ↔ calls.Succeed ∧ out = some text := by
  obtain ⟨init, update, final⟩ := calls
  constructor
  · intro h
    cases init with
    | false => cases h
    | true =>
      cases update with
      | false => cases h
      | true =>
        cases final with
        | false => cases h
        | true => exact ⟨⟨rfl, rfl, rfl⟩, h⟩
  · rintro ⟨⟨rfl, rfl, rfl⟩, h⟩
    exact h

theorem Calls.run_none (calls : Calls) : calls.run none = none := by
  unfold run
  simp only [ite_self]

/-- What the calls write for a key, the vector at the start and a text. `decrypts` makes the cipher
a bijection between the texts and what can be decrypted. -/
structure Cipher where
  encryptUpdate : Blob → Blob → Blob → Blob
  encryptFinal : Blob → Blob → Blob → Blob
  decryptUpdate : Blob → Blob → Blob → Blob
  decryptFinal : Blob → Blob → Blob → Option Blob
  decrypts : ∀ key iv enc text, (decryptFinal key iv enc).map (decryptUpdate key iv enc ++ ·) = some text ↔
    encryptUpdate key iv text ++ encryptFinal key iv text = enc
  length_le : ∀ key iv text, text.length ≤ (encryptUpdate key iv text ++ encryptFinal key iv text).length

namespace Cipher

/-- What the two calls write for a text. -/
def sealed (c : Cipher) (key text : Blob) : Blob :=
  c.encryptUpdate key vbhCipherIv text ++ c.encryptFinal key vbhCipherIv text

def opened (c : Cipher) (key enc : Blob) : Option Blob :=
  (c.decryptFinal key vbhCipherIv enc).map (c.decryptUpdate key vbhCipherIv enc ++ ·)

theorem opened_eq_some {c : Cipher} {key enc text : Blob} : c.opened key enc = some text ↔ c.sealed key text = enc :=
  c.decrypts key vbhCipherIv enc text

theorem length_le_sealed (c : Cipher) (key text : Blob) : text.length ≤ (c.sealed key text).length :=
  c.length_le key vbhCipherIv text

end Cipher

end VProtocol.Encrypt
