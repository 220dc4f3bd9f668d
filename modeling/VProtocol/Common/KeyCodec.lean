import VProtocol.Common.Types

/-!
# Decoding user keys

A user key is the Base64 text of a channel id and an `OrderGenerateKey`. The Base64 decoder
stops at the first byte outside its alphabet, so a key has many encodings.
-/

namespace VProtocol

def isBase64 (c : UInt8) : Bool :=
  (65 ≤ c && c ≤ 90) || (97 ≤ c && c ≤ 122) || (48 ≤ c && c ≤ 57) || c = 43 || c = 47

/-- `Base64decode`, and `DSC::Decode` for `CChannelKeyWrapper`. -/
structure KeyDecoder where
  base64decode : Blob → Blob
  decode : Blob → Option (UInt32 × OrderGenerateKey)
  stops : ∀ key c rest, isBase64 c = false → base64decode (key ++ c :: rest) = base64decode key

def decodeGenerateUserKey (d : KeyDecoder) (encodeGenUserKey : Blob) : Option (UInt32 × OrderGenerateKey) :=
  if encodeGenUserKey.length > 0 then d.decode (d.base64decode encodeGenUserKey) else none

theorem decodeGenerateUserKey_append (d : KeyDecoder) {key : Blob} (hk : key ≠ []) {c : UInt8}
    (hc : isBase64 c = false) (rest : Blob) :
    decodeGenerateUserKey d (key ++ c :: rest) = decodeGenerateUserKey d key := by
  unfold decodeGenerateUserKey
  rw [if_pos (List.length_pos_iff.mpr (by simp)), if_pos (List.length_pos_iff.mpr hk), d.stops key c rest hc]

end VProtocol
