import Mathlib.Logic.Equiv.Defs
import VProtocol.Encrypt.Cipher

/-!
# Encryption with SM4 and SM3

A message is the length of its code, the encrypted text and the code of the text. The decryption
takes that length from the message, to split it and to compare as much of the code as it says.
-/

namespace VProtocol.Encrypt

/-- `VBH_SM_HMAC_KEY` -/
def vbhSmHmacKey : Blob := "ufjnblkhgodhfn".toUTF8.data.toList

/-- The cipher, the code of a text under a key, and the two bytes that DSC writes for a number. -/
structure Smx where
  cipher : Cipher
  hmac : Blob → Blob → Blob
  macSize : Nat
  uint16 : UInt16 ≃ UInt8 × UInt8
  length_hmac : ∀ key text, (hmac key text).length = macSize
  macSize_le : macSize ≤ 32

/-- Whether the first `n` bytes of the two differ. All of them are read, whichever decides. -/
def memcmp (a b : Blob) (n : Nat) : Option Bool :=
  if n ≤ a.length ∧ n ≤ b.length then some (a.take n != b.take n) else none

namespace Smx

def encodeItemNoOff (s : Smx) (n : UInt16) : Blob := [(s.uint16 n).1, (s.uint16 n).2]

/-- The item, and the bytes behind it. -/
def decodeItem (s : Smx) : Blob → Option (UInt16 × Blob)
  | b₀ :: b₁ :: bytes => some (s.uint16.symm (b₀, b₁), bytes)
  | _ => none

/-- `none` is a run that C++ does not define, `some none` one that returns `NULL`. The calls of the
cipher and those of the code may fail. -/
def vbhEncrypt (s : Smx) (cipher mac : Calls) (envelopeKey data : Blob) : Option (Option Blob) :=
  if Allocates data.length then
    match cipher.run (some (s.cipher.sealed envelopeKey data)) with
    | none => some none
    | some encData =>
      match mac.run (some (s.hmac vbhSmHmacKey data)) with
      | none => some none
      | some macData => some (some (s.encodeItemNoOff (UInt16.ofNat macData.length) ++ encData ++ macData))
  else none

def vbhDecrypt (s : Smx) (cipher mac : Calls) (envelopeKey data : Blob) : Option (Option Blob) :=
  -- two bytes are read, however many there are
  match s.decodeItem data with
  | none => none
  | some (nMacLen, encData) =>
    if data.length > nMacLen.toNat + 2 then
      let nEncDataLen := data.length - 2 - nMacLen.toNat
      let macData := encData.drop nEncDataLen
      if Allocates data.length then
        match cipher.run (s.cipher.opened envelopeKey (encData.take nEncDataLen)) with
        | none => some none
        | some outbuf =>
          match mac.run (some (s.hmac vbhSmHmacKey outbuf)) with
          | none => some none
          | some newMacDataBuf =>
            (memcmp newMacDataBuf macData nMacLen.toNat).map fun differ => if differ then none else some outbuf
      else none
    else some none

/-- What encryption makes of a text. -/
def message (s : Smx) (envelopeKey text : Blob) : Blob :=
  s.encodeItemNoOff (UInt16.ofNat s.macSize) ++ s.cipher.sealed envelopeKey text ++ s.hmac vbhSmHmacKey text

/-! ## The property -/

/-- The run reads what it may read, and a text is returned only for a message that ends with the
whole code of the text and is the one that encryption makes of it. -/
def DecryptRight (s : Smx) (cipher mac : Calls) (envelopeKey data : Blob) : Prop :=
  ∃ r, s.vbhDecrypt cipher mac envelopeKey data = some r ∧
    ∀ text, r = some text → s.hmac vbhSmHmacKey text <:+ data ∧
      s.vbhEncrypt .ok .ok envelopeKey text = some (some data)

/-- A message has a length, and where it leaves bytes to decrypt and they are the encryption of a
text, the length is that of the whole code, or of less and the bytes at the end are no start of it. -/
def Announced (s : Smx) (cipher mac : Calls) (envelopeKey data : Blob) : Prop :=
  ∃ nMacLen encData, s.decodeItem data = some (nMacLen, encData) ∧
    (nMacLen.toNat + 2 < data.length → Allocates data.length ∧
      (cipher.Succeed → mac.Succeed → ∀ enc macData text, encData = enc ++ macData → macData.length = nMacLen.toNat →
        s.cipher.sealed envelopeKey text = enc →
        nMacLen.toNat = s.macSize ∨ nMacLen.toNat < s.macSize ∧ ¬macData <+: s.hmac vbhSmHmacKey text))

section
variable {s : Smx} {cipher mac : Calls} {envelopeKey data text enc macData : Blob} {nMacLen : UInt16}

/-! ## The parts of a message -/

theorem decodeItem_eq {bytes : Blob} (h : s.decodeItem data = some (nMacLen, bytes)) :
    data = s.encodeItemNoOff nMacLen ++ bytes := by
  unfold decodeItem at h
  split at h
  · rename_i b₀ b₁ l
    obtain ⟨rfl, rfl⟩ := Prod.mk.inj (Option.some.inj h)
    unfold encodeItemNoOff
    rw [Equiv.apply_symm_apply]
    rfl
  · cases h

theorem decodeItem_encodeItemNoOff (s : Smx) (n : UInt16) (bytes : Blob) :
    s.decodeItem (s.encodeItemNoOff n ++ bytes) = some (n, bytes) :=
  congrArg (fun k => some (k, bytes)) (s.uint16.symm_apply_apply n)

theorem length_decodeItem {bytes : Blob} (h : s.decodeItem data = some (nMacLen, bytes)) :
    data.length = bytes.length + 2 := by
  rw [decodeItem_eq h, List.length_append, Nat.add_comm]
  rfl

theorem split_bytes {bytes : Blob} (h : s.decodeItem data = some (nMacLen, bytes))
    (hlen : nMacLen.toNat + 2 < data.length) :
    ∃ enc macData, bytes = enc ++ macData ∧ macData.length = nMacLen.toNat := by
  have hbytes := length_decodeItem h
  refine ⟨bytes.take (bytes.length - nMacLen.toNat), bytes.drop (bytes.length - nMacLen.toNat),
    (List.take_append_drop _ _).symm, ?_⟩
  rw [List.length_drop]
  omega

/-! ## What the functions do -/

theorem vbhEncrypt_ok (h : Allocates text.length) :
    s.vbhEncrypt .ok .ok envelopeKey text = some (some (s.message envelopeKey text)) := by
  unfold vbhEncrypt message
  rw [if_pos h, Calls.run_eq_some.mpr ⟨Calls.ok_succeed, rfl⟩, Calls.run_eq_some.mpr ⟨Calls.ok_succeed, rfl⟩]
  simp only [s.length_hmac]

theorem vbhDecrypt_unsplit {bytes : Blob} (h : s.decodeItem data = some (nMacLen, bytes))
    (hlen : ¬nMacLen.toNat + 2 < data.length) : s.vbhDecrypt cipher mac envelopeKey data = some none := by
  unfold vbhDecrypt
  rw [h]
  exact if_neg hlen

theorem vbhDecrypt_overflow {bytes : Blob} (h : s.decodeItem data = some (nMacLen, bytes))
    (hlen : nMacLen.toNat + 2 < data.length) (halloc : ¬Allocates data.length) :
    s.vbhDecrypt cipher mac envelopeKey data = none := by
  unfold vbhDecrypt
  rw [h]
  simp only [gt_iff_lt, if_pos hlen, if_neg halloc]

theorem vbhDecrypt_split (h : s.decodeItem data = some (nMacLen, enc ++ macData))
    (hmac : macData.length = nMacLen.toNat) (hlen : nMacLen.toNat + 2 < data.length) (halloc : Allocates data.length) :
    s.vbhDecrypt cipher mac envelopeKey data =
      match cipher.run (s.cipher.opened envelopeKey enc) with
      | none => some none
      | some outbuf =>
        match mac.run (some (s.hmac vbhSmHmacKey outbuf)) with
        | none => some none
        | some newMacDataBuf =>
          (memcmp newMacDataBuf macData nMacLen.toNat).map fun differ => if differ then none else some outbuf := by
  have hsplit : data.length - 2 - nMacLen.toNat = enc.length := by
    rw [length_decodeItem h, List.length_append, hmac]
    omega
  unfold vbhDecrypt
  rw [h]
  simp only [gt_iff_lt, if_pos hlen, if_pos halloc, hsplit, List.take_left, List.drop_left]

theorem vbhDecrypt_refused (h : s.decodeItem data = some (nMacLen, enc ++ macData))
    (hmac : macData.length = nMacLen.toNat) (hlen : nMacLen.toNat + 2 < data.length) (halloc : Allocates data.length)
    (hno : ¬(cipher.Succeed ∧ mac.Succeed ∧ ∃ text, s.cipher.sealed envelopeKey text = enc)) :
    s.vbhDecrypt cipher mac envelopeKey data = some none := by
  rw [vbhDecrypt_split h hmac hlen halloc]
  cases hout : cipher.run (s.cipher.opened envelopeKey enc) with
  | none => rfl
  | some outbuf =>
    obtain ⟨hcipher, hopened⟩ := Calls.run_eq_some.mp hout
    cases hnew : mac.run (some (s.hmac vbhSmHmacKey outbuf)) with
    | none => simp only [hnew]
    | some newMacDataBuf =>
      exact absurd ⟨hcipher, (Calls.run_eq_some.mp hnew).1, outbuf, Cipher.opened_eq_some.mp hopened⟩ hno

theorem vbhDecrypt_compares (h : s.decodeItem data = some (nMacLen, enc ++ macData))
    (hmac : macData.length = nMacLen.toNat) (hlen : nMacLen.toNat + 2 < data.length) (halloc : Allocates data.length)
    (hcipher : cipher.Succeed) (hcode : mac.Succeed) (htext : s.cipher.sealed envelopeKey text = enc) :
    s.vbhDecrypt cipher mac envelopeKey data =
      if nMacLen.toNat ≤ s.macSize then
        some (if macData <+: s.hmac vbhSmHmacKey text then some text else none)
      else none := by
  have hopened := Cipher.opened_eq_some.mpr htext
  rw [vbhDecrypt_split h hmac hlen halloc, Calls.run_eq_some.mpr ⟨hcipher, hopened⟩]
  simp only
  rw [Calls.run_eq_some.mpr ⟨hcode, rfl⟩]
  simp only [memcmp, s.length_hmac, ← hmac, Nat.le_refl, and_true, List.take_length]
  by_cases hle : macData.length ≤ s.macSize
  · have hfront : macData <+: s.hmac vbhSmHmacKey text ↔
        (s.hmac vbhSmHmacKey text).take macData.length = macData := by
      rw [List.prefix_iff_eq_take]
      exact eq_comm
    rw [if_pos hle, if_pos hle, Option.map_some]
    by_cases heq : (s.hmac vbhSmHmacKey text).take macData.length = macData
    · rw [if_pos (hfront.mpr heq), heq, bne_self_eq_false]
      rfl
    · rw [if_neg (mt hfront.mp heq), if_pos (bne_iff_ne.mpr heq)]
  · rw [if_neg hle, if_neg hle, Option.map_none]

/-! ## When decryption is right -/

theorem announced_split (h : s.decodeItem data = some (nMacLen, enc ++ macData))
    (hmac : macData.length = nMacLen.toNat) (hlen : nMacLen.toNat + 2 < data.length) :
    Announced s cipher mac envelopeKey data ↔ Allocates data.length ∧
      (cipher.Succeed → mac.Succeed → ∀ text, s.cipher.sealed envelopeKey text = enc →
        nMacLen.toNat = s.macSize ∨ nMacLen.toNat < s.macSize ∧ ¬macData <+: s.hmac vbhSmHmacKey text) := by
  constructor
  · rintro ⟨nMacLen', encData, h', hall⟩
    obtain ⟨rfl, rfl⟩ := Prod.mk.inj (Option.some.inj (h.symm.trans h'))
    obtain ⟨halloc, hcompared⟩ := hall hlen
    exact ⟨halloc, fun hcipher hcode text => hcompared hcipher hcode enc macData text rfl hmac⟩
  · rintro ⟨halloc, hcompared⟩
    refine ⟨nMacLen, enc ++ macData, h, fun _ => ⟨halloc, fun hcipher hcode enc' macData' text heq hmac' => ?_⟩⟩
    obtain ⟨rfl, rfl⟩ := List.append_inj' heq (hmac.trans hmac'.symm)
    exact hcompared hcipher hcode text

/-- A message with the whole code of the text that it is decrypted to is what encryption makes of it. -/
theorem message_whole (h : s.decodeItem data = some (nMacLen, enc ++ macData))
    (hmac : macData.length = nMacLen.toNat) (hwhole : nMacLen.toNat = s.macSize)
    (htext : s.cipher.sealed envelopeKey text = enc) (hfront : macData <+: s.hmac vbhSmHmacKey text) :
    s.message envelopeKey text = data := by
  have hcode : macData = s.hmac vbhSmHmacKey text :=
    hfront.eq_of_length (by rw [hmac, hwhole, s.length_hmac])
  unfold message
  rw [decodeItem_eq h, ← hwhole, UInt16.ofNat_toNat, htext, hcode, List.append_assoc]

theorem message_ne {bytes : Blob} (h : s.decodeItem data = some (nMacLen, bytes)) (hne : nMacLen.toNat ≠ s.macSize) :
    s.message envelopeKey text ≠ data := by
  intro heq
  have hitem : s.decodeItem data = some (UInt16.ofNat s.macSize, s.cipher.sealed envelopeKey text ++
      s.hmac vbhSmHmacKey text) := by
    rw [← heq, message, List.append_assoc, decodeItem_encodeItemNoOff]
  obtain ⟨rfl, -⟩ := Prod.mk.inj (Option.some.inj (h.symm.trans hitem))
  have hle := s.macSize_le
  rw [UInt16.toNat_ofNat', Nat.mod_eq_of_lt (by omega)] at hne
  exact hne rfl

theorem decryptRight_compared (h : s.decodeItem data = some (nMacLen, enc ++ macData))
    (hmac : macData.length = nMacLen.toNat) (hlen : nMacLen.toNat + 2 < data.length) (halloc : Allocates data.length)
    (hcipher : cipher.Succeed) (hcode : mac.Succeed) (htext : s.cipher.sealed envelopeKey text = enc) :
    DecryptRight s cipher mac envelopeKey data ↔ Allocates data.length ∧
      (cipher.Succeed → mac.Succeed → ∀ text, s.cipher.sealed envelopeKey text = enc →
        nMacLen.toNat = s.macSize ∨ nMacLen.toNat < s.macSize ∧ ¬macData <+: s.hmac vbhSmHmacKey text) := by
  have honly : ∀ text', s.cipher.sealed envelopeKey text' = enc → text' = text := fun text' htext' =>
    Option.some.inj ((Cipher.opened_eq_some.mpr htext').symm.trans (Cipher.opened_eq_some.mpr htext))
  have hdata : data.length = enc.length + nMacLen.toNat + 2 := by
    rw [length_decodeItem h, List.length_append, hmac]
  have hsmall : Allocates text.length := by
    have hle := s.cipher.length_le_sealed envelopeKey text
    rw [htext] at hle
    unfold Allocates at halloc ⊢
    omega
  unfold DecryptRight
  rw [vbhDecrypt_compares h hmac hlen halloc hcipher hcode htext]
  constructor
  · rintro ⟨r, hr, hreturned⟩
    refine ⟨halloc, fun _ _ text' htext' => ?_⟩
    obtain rfl := honly text' htext'
    by_cases hle : nMacLen.toNat ≤ s.macSize
    · rw [if_pos hle] at hr
      obtain rfl := Option.some.inj hr
      rcases Nat.eq_or_lt_of_le hle with heq | hlt
      · exact .inl heq
      · refine .inr ⟨hlt, fun hfront => ?_⟩
        obtain ⟨-, hmade⟩ := hreturned text' (if_pos hfront)
        rw [vbhEncrypt_ok hsmall] at hmade
        exact message_ne h (Nat.ne_of_lt hlt) (Option.some.inj (Option.some.inj hmade))
    · rw [if_neg hle] at hr
      cases hr
  · rintro ⟨-, hlong⟩
    rcases hlong hcipher hcode text htext with heq | ⟨hlt, hdiffers⟩
    · rw [if_pos (Nat.le_of_eq heq)]
      refine ⟨_, rfl, fun text' hreturned => ?_⟩
      split at hreturned
      · rename_i hfront
        obtain rfl := Option.some.inj hreturned
        have hmade := message_whole h hmac heq htext hfront
        refine ⟨?_, by rw [vbhEncrypt_ok hsmall, hmade]⟩
        rw [← hmade]
        exact List.suffix_append _ _
      · cases hreturned
    · rw [if_pos (Nat.le_of_lt hlt), if_neg hdiffers]
      exact ⟨none, rfl, nofun⟩

theorem decryptRight_iff (s : Smx) (cipher mac : Calls) (envelopeKey data : Blob) :
    DecryptRight s cipher mac envelopeKey data ↔ Announced s cipher mac envelopeKey data := by
  cases h : s.decodeItem data with
  | none =>
    have hundefined : s.vbhDecrypt cipher mac envelopeKey data = none := by
      unfold vbhDecrypt
      rw [h]
    refine iff_of_false ?_ ?_
    · rintro ⟨r, hr, -⟩
      cases hundefined.symm.trans hr
    · rintro ⟨nMacLen, encData, h', -⟩
      cases h.symm.trans h'
  | some item =>
    obtain ⟨nMacLen, bytes⟩ := item
    by_cases hlen : nMacLen.toNat + 2 < data.length
    · obtain ⟨enc, macData, rfl, hmac⟩ := split_bytes h hlen
      rw [announced_split h hmac hlen]
      by_cases halloc : Allocates data.length
      · by_cases htext : cipher.Succeed ∧ mac.Succeed ∧ ∃ text, s.cipher.sealed envelopeKey text = enc
        · obtain ⟨hcipher, hcode, text, htext⟩ := htext
          exact decryptRight_compared h hmac hlen halloc hcipher hcode htext
        · refine iff_of_true ?_ ?_
          · exact ⟨none, vbhDecrypt_refused h hmac hlen halloc htext, nofun⟩
          · exact ⟨halloc, fun hcipher hcode text hsealed => absurd ⟨hcipher, hcode, text, hsealed⟩ htext⟩
      · refine iff_of_false ?_ fun hall => halloc hall.1
        rintro ⟨r, hr, -⟩
        cases (vbhDecrypt_overflow h hlen halloc).symm.trans hr
    · refine iff_of_true ?_ ?_
      · exact ⟨none, vbhDecrypt_unsplit h hlen, nofun⟩
      · exact ⟨nMacLen, bytes, h, fun hlt => absurd hlt hlen⟩

/-- Whatever is encrypted to what stands behind a length of 0 is returned. -/
theorem vbhDecrypt_unauthenticated (s : Smx) (envelopeKey text : Blob)
    (hpos : 0 < (s.cipher.sealed envelopeKey text).length)
    (halloc : Allocates ((s.cipher.sealed envelopeKey text).length + 2)) :
    s.vbhDecrypt .ok .ok envelopeKey (s.encodeItemNoOff 0 ++ s.cipher.sealed envelopeKey text) =
      some (some text) := by
  have hlen : (s.encodeItemNoOff 0 ++ s.cipher.sealed envelopeKey text).length =
      (s.cipher.sealed envelopeKey text).length + 2 := by
    rw [List.length_append, Nat.add_comm]
    rfl
  have hitem : s.decodeItem (s.encodeItemNoOff 0 ++ s.cipher.sealed envelopeKey text) =
      some (0, s.cipher.sealed envelopeKey text ++ []) := by
    rw [List.append_nil, decodeItem_encodeItemNoOff]
  have hsplit : (0 : UInt16).toNat + 2 < (s.encodeItemNoOff 0 ++ s.cipher.sealed envelopeKey text).length := by
    rw [hlen, UInt16.toNat_zero]
    omega
  rw [vbhDecrypt_compares hitem rfl hsplit (by rwa [hlen]) Calls.ok_succeed Calls.ok_succeed rfl,
    UInt16.toNat_zero, if_pos (Nat.zero_le _), if_pos List.nil_prefix]

end

/-! ## A message without a code -/

theorem bigEndian_left (n : UInt16) :
    UInt16.ofNat (256 * (UInt8.ofNat (n.toNat / 256)).toNat + (UInt8.ofNat n.toNat).toNat) = n := by
  have hlt := n.toNat_lt
  apply UInt16.toNat_inj.mp
  rw [UInt16.toNat_ofNat', UInt8.toNat_ofNat', UInt8.toNat_ofNat']
  omega

theorem bigEndian_right (b : UInt8 × UInt8) :
    (UInt8.ofNat ((UInt16.ofNat (256 * b.1.toNat + b.2.toNat)).toNat / 256),
      UInt8.ofNat (UInt16.ofNat (256 * b.1.toNat + b.2.toNat)).toNat) = b := by
  have h₁ := b.1.toNat_lt
  have h₂ := b.2.toNat_lt
  refine Prod.ext (UInt8.toNat_inj.mp ?_) (UInt8.toNat_inj.mp ?_)
  · rw [UInt8.toNat_ofNat', UInt16.toNat_ofNat']
    omega
  · rw [UInt8.toNat_ofNat', UInt16.toNat_ofNat']
    omega

def bigEndian : UInt16 ≃ UInt8 × UInt8 where
  toFun n := (UInt8.ofNat (n.toNat / 256), UInt8.ofNat n.toNat)
  invFun b := UInt16.ofNat (256 * b.1.toNat + b.2.toNat)
  left_inv := bigEndian_left
  right_inv := bigEndian_right

/-- A whole block of padding, as there is behind texts that end with a block. -/
def padding : Blob := List.replicate 16 16

theorem padded_decrypts (enc text : Blob) :
    (if enc.drop (enc.length - 16) = padding then some ([] : Blob) else none).map
      (enc.take (enc.length - 16) ++ ·) = some text ↔ text ++ padding = enc := by
  constructor
  · intro h
    split at h
    · rename_i hpad
      have htake : enc.take (enc.length - 16) = text := by
        rw [← List.append_nil (enc.take _)]
        exact Option.some.inj h
      rw [← htake, ← hpad, List.take_append_drop]
    · cases h
  · rintro rfl
    have hlen : (text ++ padding).length - 16 = text.length := by
      rw [List.length_append]
      exact Nat.add_sub_cancel _ _
    rw [hlen, List.drop_left, List.take_left, if_pos rfl, Option.map_some, List.append_nil]

theorem length_le_padded (text : Blob) : text.length ≤ (text ++ padding).length := by
  rw [List.length_append]
  exact Nat.le_add_right _ _

/-- Whole blocks, which stay as they are. -/
def padded : Cipher where
  encryptUpdate _ _ text := text
  encryptFinal _ _ _ := padding
  decryptUpdate _ _ enc := enc.take (enc.length - 16)
  decryptFinal _ _ enc := if enc.drop (enc.length - 16) = padding then some [] else none
  decrypts _ _ := padded_decrypts
  length_le _ _ := length_le_padded

theorem length_constant (_ _ : Blob) : (List.replicate 32 (7 : UInt8)).length = 32 := by
  decide

theorem constant_le : 32 ≤ 32 := Nat.le_refl 32

def smx : Smx where
  cipher := padded
  hmac _ _ := List.replicate 32 7
  macSize := 32
  uint16 := bigEndian
  length_hmac := length_constant
  macSize_le := constant_le

/-- Two zero bytes and a block that can be decrypted, with no code anywhere. -/
theorem decrypt_unauthenticated : ¬∀ (s : Smx) (cipher mac : Calls) (envelopeKey data : Blob),
    DecryptRight s cipher mac envelopeKey data := by
  intro hall
  obtain ⟨r, hr, hreturned⟩ := hall smx .ok .ok [] (0 :: 0 :: padding)
  have haccepted : smx.vbhDecrypt .ok .ok [] (0 :: 0 :: padding) = some (some []) :=
    vbhDecrypt_unauthenticated smx [] [] (by decide) (by decide)
  obtain rfl := Option.some.inj (hr.symm.trans haccepted)
  exact absurd (hreturned [] rfl).1 (by decide)

end Smx

end VProtocol.Encrypt
