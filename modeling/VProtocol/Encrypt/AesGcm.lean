import VProtocol.Encrypt.Cipher

/-!
# Encryption with AES-GCM

A message is the encrypted text and a tag of 16 bytes. The decryption wants more than a tag, so
that it refuses what encryption makes of the empty text.
-/

namespace VProtocol.Encrypt

def vbhCipherTagSize : Nat := 16

/-- A cipher that keeps lengths, with the tag for a key, the vector at the start and what was encrypted. -/
structure AesGcm extends Cipher where
  tag : Blob → Blob → Blob → Blob
  length_tag : ∀ key iv enc, (tag key iv enc).length = vbhCipherTagSize
  length_eq : ∀ key iv text, (encryptUpdate key iv text ++ encryptFinal key iv text).length = text.length

namespace AesGcm

/-- `ctrl` tells whether the tag can be had from the cipher. -/
def vbhEncrypt (g : AesGcm) (calls : Calls) (ctrl : Bool) (envelopeKey data : Blob) : Option (Option Blob) :=
  if Allocates data.length then
    match calls.run (some (g.sealed envelopeKey data)) with
    | none => some none
    | some encData => if ctrl then some (some (encData ++ g.tag envelopeKey vbhCipherIv encData)) else some none
  else none

/-- `ctrl` tells whether the tag can be given to the cipher, which its last call then checks. -/
def vbhDecrypt (g : AesGcm) (calls : Calls) (ctrl : Bool) (envelopeKey data : Blob) : Option (Option Blob) :=
  if data.length > vbhCipherTagSize then
    if Allocates data.length then
      let encData := data.take (data.length - vbhCipherTagSize)
      let tag := data.drop (data.length - vbhCipherTagSize)
      some (calls.run (if ctrl ∧ tag = g.tag envelopeKey vbhCipherIv encData then g.opened envelopeKey encData else none))
    else none
  else some none

/-! ## The property -/

/-- Whatever encryption returns for the text is decrypted to it. -/
def RoundTrips (g : AesGcm) (calls : Calls) (ctrl : Bool) (envelopeKey text : Blob) : Prop :=
  ∀ encCalls encCtrl data, g.vbhEncrypt encCalls encCtrl envelopeKey text = some (some data) →
    g.vbhDecrypt calls ctrl envelopeKey data = some (some text)

/-- The message ends with the tag of what is in front of it. -/
def Tagged (g : AesGcm) (envelopeKey data : Blob) : Prop := ∃ enc, data = enc ++ g.tag envelopeKey vbhCipherIv enc

def Rejects (g : AesGcm) (calls : Calls) (ctrl : Bool) (envelopeKey data : Blob) : Prop :=
  ¬g.Tagged envelopeKey data → g.vbhDecrypt calls ctrl envelopeKey data = some none

section
variable {g : AesGcm} {calls : Calls} {ctrl : Bool} {envelopeKey data text enc tag : Blob}

/-! ## What the functions do -/

/-- What encryption makes of a text. -/
def message (g : AesGcm) (envelopeKey text : Blob) : Blob :=
  g.sealed envelopeKey text ++ g.tag envelopeKey vbhCipherIv (g.sealed envelopeKey text)

theorem length_message (g : AesGcm) (envelopeKey text : Blob) :
    (g.message envelopeKey text).length = text.length + vbhCipherTagSize := by
  have hsealed : (g.sealed envelopeKey text).length = text.length := g.length_eq envelopeKey vbhCipherIv text
  rw [message, List.length_append, g.length_tag, hsealed]

theorem vbhEncrypt_eq_some : g.vbhEncrypt calls ctrl envelopeKey text = some (some data) ↔
    Allocates text.length ∧ calls.Succeed ∧ ctrl = true ∧ g.message envelopeKey text = data := by
  unfold vbhEncrypt
  constructor
  · intro h
    split at h
    · rename_i halloc
      cases hout : calls.run (some (g.sealed envelopeKey text)) with
      | none =>
        rw [hout] at h
        cases h
      | some encData =>
        rw [hout] at h
        obtain ⟨hcalls, hsealed⟩ := Calls.run_eq_some.mp hout
        obtain rfl := Option.some.inj hsealed
        cases ctrl with
        | false => cases h
        | true => exact ⟨halloc, hcalls, rfl, Option.some.inj (Option.some.inj h)⟩
    · cases h
  · rintro ⟨halloc, hcalls, rfl, rfl⟩
    rw [if_pos halloc, Calls.run_eq_some.mpr ⟨hcalls, rfl⟩]
    rfl

theorem vbhDecrypt_long (h : data.length > vbhCipherTagSize) (halloc : Allocates data.length) :
    g.vbhDecrypt calls ctrl envelopeKey data =
      some (calls.run (if ctrl ∧ data.drop (data.length - vbhCipherTagSize) =
          g.tag envelopeKey vbhCipherIv (data.take (data.length - vbhCipherTagSize)) then
        g.opened envelopeKey (data.take (data.length - vbhCipherTagSize)) else none)) := by
  unfold vbhDecrypt
  rw [if_pos h, if_pos halloc]

theorem vbhDecrypt_split (htag : tag.length = vbhCipherTagSize) (hne : enc ≠ [])
    (halloc : Allocates (enc ++ tag).length) : g.vbhDecrypt calls ctrl envelopeKey (enc ++ tag) =
      some (calls.run (if ctrl ∧ tag = g.tag envelopeKey vbhCipherIv enc then g.opened envelopeKey enc else none)) := by
  have hlen : (enc ++ tag).length - vbhCipherTagSize = enc.length := by
    rw [List.length_append, htag]
    exact Nat.add_sub_cancel _ _
  have hlong : (enc ++ tag).length > vbhCipherTagSize := by
    have hpos := List.length_pos_iff.mpr hne
    omega
  rw [vbhDecrypt_long hlong halloc, hlen, List.take_left, List.drop_left]

theorem vbhDecrypt_short (h : ¬data.length > vbhCipherTagSize) :
    g.vbhDecrypt calls ctrl envelopeKey data = some none := if_neg h

theorem vbhDecrypt_overflow (h : data.length > vbhCipherTagSize) (halloc : ¬Allocates data.length) :
    g.vbhDecrypt calls ctrl envelopeKey data = none := by
  unfold vbhDecrypt
  rw [if_pos h, if_neg halloc]

/-! ## When decryption is right -/

theorem vbhDecrypt_message (hne : text ≠ []) (halloc : Allocates (text.length + vbhCipherTagSize)) :
    g.vbhDecrypt calls ctrl envelopeKey (g.message envelopeKey text) = some (some text) ↔
      calls.Succeed ∧ ctrl = true := by
  have hsealed : g.sealed envelopeKey text ≠ [] := by
    have hlen : (g.sealed envelopeKey text).length = text.length := g.length_eq envelopeKey vbhCipherIv text
    have hpos := List.length_pos_iff.mpr hne
    exact List.length_pos_iff.mp (hlen ▸ hpos)
  have hopened : g.opened envelopeKey (g.sealed envelopeKey text) = some text := Cipher.opened_eq_some.mpr rfl
  rw [← length_message] at halloc
  rw [message, vbhDecrypt_split (g.length_tag _ _ _) hsealed halloc, Option.some.injEq, Calls.run_eq_some]
  refine and_congr_right fun _ => ?_
  cases ctrl with
  | false => exact iff_of_false (by simp) Bool.false_ne_true
  | true => exact iff_of_true (by rw [if_pos ⟨rfl, rfl⟩, hopened]) rfl

theorem roundTrips_iff : g.RoundTrips calls ctrl envelopeKey text ↔
    (Allocates text.length → text ≠ [] ∧ Allocates (text.length + vbhCipherTagSize) ∧ calls.Succeed ∧ ctrl = true) := by
  constructor
  · intro h halloc
    have hopens := h .ok true _ (vbhEncrypt_eq_some.mpr ⟨halloc, Calls.ok_succeed, rfl, rfl⟩)
    by_cases hlong : (g.message envelopeKey text).length > vbhCipherTagSize
    · by_cases hsum : Allocates (g.message envelopeKey text).length
      · rw [length_message] at hlong hsum
        have hne : text ≠ [] := List.length_pos_iff.mp (by omega)
        exact ⟨hne, hsum, (vbhDecrypt_message hne hsum).mp hopens⟩
      · cases (vbhDecrypt_overflow hlong hsum).symm.trans hopens
    · cases (vbhDecrypt_short hlong).symm.trans hopens
  · intro h encCalls encCtrl data hdata
    obtain ⟨halloc, -, -, rfl⟩ := vbhEncrypt_eq_some.mp hdata
    obtain ⟨hne, hsum, hcalls⟩ := h halloc
    exact (vbhDecrypt_message hne hsum).mpr hcalls

/-- A message that does not end with its tag is refused, whatever its length, unless a sum of
sizes is too large for an `int`. -/
theorem rejects_iff : g.Rejects calls ctrl envelopeKey data ↔
    (¬g.Tagged envelopeKey data → data.length > vbhCipherTagSize → Allocates data.length) := by
  refine forall_congr' fun htag => ?_
  by_cases hlong : data.length > vbhCipherTagSize
  · by_cases halloc : Allocates data.length
    · refine iff_of_true ?_ fun _ => halloc
      have hwrong : ¬(ctrl = true ∧ data.drop (data.length - vbhCipherTagSize) =
          g.tag envelopeKey vbhCipherIv (data.take (data.length - vbhCipherTagSize))) := fun ⟨_, heq⟩ =>
        htag ⟨data.take (data.length - vbhCipherTagSize), by rw [← heq, List.take_append_drop]⟩
      rw [vbhDecrypt_long hlong halloc, if_neg hwrong, Calls.run_none]
    · refine iff_of_false ?_ fun h => halloc (h hlong)
      rw [vbhDecrypt_overflow hlong halloc]
      exact nofun
  · exact iff_of_true (vbhDecrypt_short hlong) fun h => absurd h hlong

/-- The texts that come back, and the messages that are refused. -/
theorem decrypt_right_iff (g : AesGcm) (calls : Calls) (ctrl : Bool) (envelopeKey text data : Blob) :
    (g.RoundTrips calls ctrl envelopeKey text ↔ (Allocates text.length →
      text ≠ [] ∧ Allocates (text.length + vbhCipherTagSize) ∧ calls.Succeed ∧ ctrl = true)) ∧
    (g.Rejects calls ctrl envelopeKey data ↔
      (¬g.Tagged envelopeKey data → data.length > vbhCipherTagSize → Allocates data.length)) :=
  ⟨roundTrips_iff, rejects_iff⟩

end

/-! ## The empty text -/

theorem plain_decrypts (_ _ enc text : Blob) : (some ([] : Blob)).map (enc ++ ·) = some text ↔ text ++ [] = enc := by
  rw [Option.map_some, Option.some.injEq, List.append_nil, List.append_nil]
  exact eq_comm

theorem length_plain (_ _ text : Blob) : (text ++ []).length = text.length := by
  rw [List.append_nil]

theorem length_le_plain (key iv text : Blob) : text.length ≤ (text ++ []).length :=
  Nat.le_of_eq (length_plain key iv text).symm

theorem length_tagBytes (_ _ _ : Blob) : (List.replicate 16 (7 : UInt8)).length = vbhCipherTagSize := by
  decide

/-- Texts stay as they are, and all have one tag. -/
def plain : AesGcm where
  encryptUpdate _ _ text := text
  encryptFinal _ _ _ := []
  decryptUpdate _ _ enc := enc
  decryptFinal _ _ _ := some []
  decrypts := plain_decrypts
  length_le := length_le_plain
  tag _ _ _ := List.replicate 16 7
  length_tag := length_tagBytes
  length_eq := length_plain

/-- The empty text is encrypted to a tag, which is too short to be decrypted. -/
theorem empty_refused : ¬∀ (g : AesGcm) (calls : Calls) (ctrl : Bool) (envelopeKey text data : Blob),
    calls.Succeed → ctrl = true →
      g.RoundTrips calls ctrl envelopeKey text ∧ g.Rejects calls ctrl envelopeKey data := by
  intro hall
  have hopens := (hall plain .ok true [] [] [] Calls.ok_succeed rfl).1 .ok true (List.replicate 16 7)
    (vbhEncrypt_eq_some.mpr ⟨by decide, Calls.ok_succeed, rfl, rfl⟩)
  have hrefused : plain.vbhDecrypt .ok true [] (List.replicate 16 7) = some none := vbhDecrypt_short (by decide)
  cases hrefused.symm.trans hopens

end AesGcm

end VProtocol.Encrypt
