import VProtocol.Lib.Base64
import VProtocol.Lib.Codec
import VProtocol.Common.KeyCodec

/-!
# Encoding user keys

What a wrapper binds are variables of the caller, so a wrapper is a list of attributes of
those variables. The key of a client has the members of a generated key in front, and what
reads a part of it stops there.
-/

namespace VProtocol.UserKey

abbrev DscString := { b : Blob // b.length < 2 ^ 32 }

/-- The codecs of the members that `DSC_BIND_ATTR` lists, for the types DSC knows. -/
structure DscCodec where
  uint16 : Codec UInt16
  uint32 : Codec UInt32
  uint64 : Codec UInt64
  dscString : Codec DscString

/-- `Base64encode_len`, `Base64encode` with the zero byte it ends with, and `Base64decode`. -/
structure Base64Lib where
  encodeLen : Nat → Nat
  encode : Blob → Blob
  decode : Blob → Blob
  length_encode : ∀ b, (encode b).length = encodeLen b.length
  terminated : ∀ b, ∃ text, encode b = text ++ [0]
  decode_encode : ∀ b, decode (encode b) = b

/-! ## The Base64 of the library -/

theorem length_base64 : ∀ l : Blob, (Base64.encode l).length = (l.length + 2) / 3 * 4
  | [] => rfl
  | [a] => by simp [Base64.encode]
  | [a, b] => by simp [Base64.encode]
  | a :: b :: c :: l => by
    rw [Base64.encode]
    simp only [List.length_cons, length_base64 l]
    omega

theorem length_terminated (l : Blob) : (Base64.encode l ++ [0]).length = (l.length + 2) / 3 * 4 + 1 := by
  rw [List.length_append, length_base64]
  rfl

theorem decode_terminated (l : Blob) : Base64.decode (Base64.encode l ++ [0]) = l := by
  rw [Base64.decode_append _ [] (by decide), Base64.decode_encode]

theorem base64_terminated (l : Blob) : ∃ text, Base64.encode l ++ [0] = text ++ [0] := ⟨_, rfl⟩

def base64Lib : Base64Lib where
  encodeLen n := (n + 2) / 3 * 4 + 1
  encode l := Base64.encode l ++ [0]
  decode := Base64.decode
  length_encode := length_terminated
  terminated := base64_terminated
  decode_encode := decode_terminated

/-! ## Numbers and strings, the most significant byte first -/

theorem lt_two_digits (a : UInt16) : a.toNat < 256 ^ 2 := a.toNat_lt

theorem lt_four_digits (a : UInt32) : a.toNat < 256 ^ 4 := a.toNat_lt

theorem lt_eight_digits (a : UInt64) : a.toNat < 256 ^ 8 := a.toNat_lt

def digitCodec : DscCodec where
  uint16 := Codec.word 2 UInt16.toNat UInt16.ofNat lt_two_digits fun _ => UInt16.ofNat_toNat
  uint32 := Codec.word 4 UInt32.toNat UInt32.ofNat lt_four_digits fun _ => UInt32.ofNat_toNat
  uint64 := Codec.word 8 UInt64.toNat UInt64.ofNat lt_eight_digits fun _ => UInt64.ofNat_toNat
  dscString := Codec.blob 4 (by decide)

/-- The variables that the wrappers refer to. -/
structure Vars where
  channelID : UInt32
  genUserKey : OrderGenerateKey
  pubCryptoKey : DscString
  priCryptoKey : DscString
  envelopeKey : DscString

section
variable (c : DscCodec) (b : Base64Lib)

/-! ## The wrappers -/

def channelIDAttr : Attr Vars := c.uint32.attr (·.channelID) fun v t => { t with channelID := v }

/-- `COrderGenerateKey` has attributes of its own. -/
def genUserKeyAttrs : List (Attr Vars) :=
  [c.uint16.attr (·.genUserKey.orderID) fun v t => { t with genUserKey := { t.genUserKey with orderID := v } },
    c.uint32.attr (·.genUserKey.sequenceNumber)
      fun v t => { t with genUserKey := { t.genUserKey with sequenceNumber := v } },
    c.uint64.attr (·.genUserKey.systemID) fun v t => { t with genUserKey := { t.genUserKey with systemID := v } }]

def channelWrapper : List (Attr Vars) := [channelIDAttr c]

def channelKeyWrapper : List (Attr Vars) := channelIDAttr c :: genUserKeyAttrs c

def clientCryptKeyWrapper : List (Attr Vars) :=
  channelIDAttr c :: genUserKeyAttrs c ++
    [c.dscString.attr (·.pubCryptoKey) fun v t => { t with pubCryptoKey := v },
      c.dscString.attr (·.priCryptoKey) fun v t => { t with priCryptoKey := v },
      c.dscString.attr (·.envelopeKey) fun v t => { t with envelopeKey := v }]

/-! ## The codecs -/

/-- What is assigned to the string: the Base64 text of the wrapper, the zero byte included. -/
def encodeWrapper (wrapper : List (Attr Vars)) (t : Vars) : Blob :=
  let buffer := encodeAttrs wrapper t
  (b.encode buffer).take (b.encodeLen buffer.length)

def decodeWrapper (wrapper : List (Attr Vars)) (t : Vars) (blob : Blob) : Vars × Int :=
  if blob.length > 0 then
    match decodeAttrs wrapper t (b.decode blob) with
    | (t, none) => (t, -1)
    | (t, some _) => (t, 0)
  else (t, -1)

theorem empty_lt : ([] : Blob).length < 2 ^ 32 := by
  decide

/-- The wrapper of a generated key has no strings. -/
def generated (nChannelID : UInt32) (genUserKey : OrderGenerateKey) : Vars :=
  ⟨nChannelID, genUserKey, ⟨[], empty_lt⟩, ⟨[], empty_lt⟩, ⟨[], empty_lt⟩⟩

def encodeGenerateUserKey (nChannelID : UInt32) (genUserKey : OrderGenerateKey) : Blob × Int :=
  (encodeWrapper b (channelKeyWrapper c) (generated nChannelID genUserKey), 0)

def decodeGenerateUserKey (t : Vars) (encodeGenUserKey : Blob) : Vars × Int :=
  decodeWrapper b (channelKeyWrapper c) t encodeGenUserKey

/-- `buffer` tells whether `DSC::Encode` gets its buffer. -/
def encodeClientCryptKey (buffer : Bool) (strClientCryptKey : Blob) (nChannelID : UInt32)
    (genUserKey : OrderGenerateKey) (pubCryptoKey priCryptoKey envelopeKey : DscString) : Blob × Int :=
  if buffer then
    (encodeWrapper b (clientCryptKeyWrapper c) ⟨nChannelID, genUserKey, pubCryptoKey, priCryptoKey, envelopeKey⟩, 0)
  else (strClientCryptKey, -1)

def decodeClientCryptKey (t : Vars) (userCryptoKey : Blob) : Vars × Int :=
  decodeWrapper b (clientCryptKeyWrapper c) t userCryptoKey

/-- The overload for the channel id and the generated key. -/
def decodeClientCryptKeyGenKey (t : Vars) (userCryptoKey : Blob) : Vars × Int :=
  decodeWrapper b (channelKeyWrapper c) t userCryptoKey

/-- The overload for the channel id. -/
def decodeClientCryptKeyChannel (t : Vars) (userCryptoKey : Blob) : Vars × Int :=
  decodeWrapper b (channelWrapper c) t userCryptoKey

end

/-! ## What a wrapper reads -/

section
variable {c : DscCodec} {b : Base64Lib} {t u : Vars} {bytes blob : Blob}

theorem decodeAttrs_attr {α : Type} (x : Codec α) (get : Vars → α) (set : α → Vars → Vars) (l : List (Attr Vars))
    (t : Vars) (bytes : Blob) : decodeAttrs (x.attr get set :: l) t bytes =
      match x.decode bytes with
      | none => (t, none)
      | some (v, rest) => decodeAttrs l (set v t) rest := by
  rw [decodeAttrs]
  simp only [Codec.attr]
  cases x.decode bytes <;> rfl

theorem decodeAttrs_attr_ok {α : Type} {x : Codec α} {get : Vars → α} {set : α → Vars → Vars} {l : List (Attr Vars)}
    {rest : Blob} (h : decodeAttrs (x.attr get set :: l) t bytes = (u, some rest)) :
    ∃ v rest', x.decode bytes = some (v, rest') ∧ decodeAttrs l (set v t) rest' = (u, some rest) := by
  rw [decodeAttrs_attr] at h
  cases hx : x.decode bytes with
  | none =>
    rw [hx] at h
    cases h
  | some r =>
    rw [hx] at h
    exact ⟨r.1, r.2, rfl, h⟩

theorem clientCryptKey_reads {rest : Blob} (h : decodeAttrs (clientCryptKeyWrapper c) t bytes = (u, some rest)) :
    ∃ r₁ r₂ r₃ r₄, c.uint32.decode bytes = some (u.channelID, r₁) ∧
      c.uint16.decode r₁ = some (u.genUserKey.orderID, r₂) ∧
      c.uint32.decode r₂ = some (u.genUserKey.sequenceNumber, r₃) ∧
      c.uint64.decode r₃ = some (u.genUserKey.systemID, r₄) := by
  obtain ⟨channelID, r₁, h₁, h⟩ := decodeAttrs_attr_ok h
  obtain ⟨orderID, r₂, h₂, h⟩ := decodeAttrs_attr_ok h
  obtain ⟨sequenceNumber, r₃, h₃, h⟩ := decodeAttrs_attr_ok h
  obtain ⟨systemID, r₄, h₄, h⟩ := decodeAttrs_attr_ok h
  obtain ⟨pub, r₅, -, h⟩ := decodeAttrs_attr_ok h
  obtain ⟨pri, r₆, -, h⟩ := decodeAttrs_attr_ok h
  obtain ⟨env, r₇, -, h⟩ := decodeAttrs_attr_ok h
  cases h
  exact ⟨r₁, r₂, r₃, r₄, h₁, h₂, h₃, h₄⟩

theorem decodeWrapper_ok {wrapper : List (Attr Vars)} (h : decodeWrapper b wrapper t blob = (u, 0)) :
    0 < blob.length ∧ ∃ rest, decodeAttrs wrapper t (b.decode blob) = (u, some rest) := by
  unfold decodeWrapper at h
  split at h
  · rename_i hlen
    refine ⟨hlen, ?_⟩
    generalize decodeAttrs wrapper t (b.decode blob) = r at h ⊢
    obtain ⟨w, rest⟩ := r
    cases rest with
    | none => cases h
    | some rest =>
      cases h
      exact ⟨rest, rfl⟩
  · cases h

theorem decodeWrapper_eq {wrapper : List (Attr Vars)} {rest : Blob} (hlen : 0 < blob.length)
    (h : decodeAttrs wrapper t (b.decode blob) = (u, some rest)) : decodeWrapper b wrapper t blob = (u, 0) := by
  unfold decodeWrapper
  rw [if_pos hlen, h]

theorem encodeWrapper_eq (b : Base64Lib) (wrapper : List (Attr Vars)) (t : Vars) :
    encodeWrapper b wrapper t = b.encode (encodeAttrs wrapper t) := by
  unfold encodeWrapper
  simp only
  rw [← b.length_encode, List.take_length]

theorem encodeWrapper_text (b : Base64Lib) (wrapper : List (Attr Vars)) (t : Vars) :
    0 < (encodeWrapper b wrapper t).length ∧ b.decode (encodeWrapper b wrapper t) = encodeAttrs wrapper t := by
  obtain ⟨text, htext⟩ := b.terminated (encodeAttrs wrapper t)
  rw [encodeWrapper_eq]
  refine ⟨?_, b.decode_encode _⟩
  rw [htext, List.length_append]
  exact Nat.succ_pos _

theorem decodeWrapper_encodeWrapper (b : Base64Lib) (wrapper : List (Attr Vars)) (t u : Vars) :
    decodeWrapper b wrapper u (encodeWrapper b wrapper t) = (copyAttrs wrapper t u, 0) := by
  obtain ⟨hlen, hdec⟩ := encodeWrapper_text b wrapper t
  have hread := decodeAttrs_encodeAttrs wrapper t u []
  rw [List.append_nil] at hread
  exact decodeWrapper_eq hlen (by rw [hdec]; exact hread)

/-! ## The decoders -/

theorem genKey_agrees (h : decodeClientCryptKey c b t blob = (u, 0)) (t' : Vars) :
    decodeClientCryptKeyGenKey c b t' blob =
      ({ t' with channelID := u.channelID, genUserKey := u.genUserKey }, 0) := by
  obtain ⟨hlen, rest, hread⟩ := decodeWrapper_ok h
  obtain ⟨r₁, r₂, r₃, r₄, h₁, h₂, h₃, h₄⟩ := clientCryptKey_reads hread
  have hread' : decodeAttrs (channelKeyWrapper c) t' (b.decode blob) =
      ({ t' with channelID := u.channelID, genUserKey := u.genUserKey }, some r₄) := by
    unfold channelKeyWrapper channelIDAttr genUserKeyAttrs
    rw [decodeAttrs_attr, h₁]
    simp only
    rw [decodeAttrs_attr, h₂]
    simp only
    rw [decodeAttrs_attr, h₃]
    simp only
    rw [decodeAttrs_attr, h₄]
    rfl
  exact decodeWrapper_eq hlen hread'

theorem channel_agrees (h : decodeClientCryptKey c b t blob = (u, 0)) (t' : Vars) :
    decodeClientCryptKeyChannel c b t' blob = ({ t' with channelID := u.channelID }, 0) := by
  obtain ⟨hlen, rest, hread⟩ := decodeWrapper_ok h
  obtain ⟨r₁, r₂, r₃, r₄, h₁, -⟩ := clientCryptKey_reads hread
  have hread' : decodeAttrs (channelWrapper c) t' (b.decode blob) = ({ t' with channelID := u.channelID }, some r₁) := by
    unfold channelWrapper channelIDAttr
    rw [decodeAttrs_attr, h₁]
    rfl
  exact decodeWrapper_eq hlen hread'

/-- What the codecs of user keys are to each other, for all values and all variables that are
written to. -/
structure CodecsAgree (c : DscCodec) (b : Base64Lib) : Prop where
  generates : ∀ channelID key, (encodeGenerateUserKey c b channelID key).2 = 0
  generate : ∀ channelID key t, decodeGenerateUserKey c b t (encodeGenerateUserKey c b channelID key).1 =
    ({ t with channelID := channelID, genUserKey := key }, 0)
  encodes : ∀ old channelID key pub pri env, ∃ text,
    encodeClientCryptKey c b true old channelID key pub pri env = (text, 0)
  full : ∀ buffer old channelID key pub pri env text t,
    encodeClientCryptKey c b buffer old channelID key pub pri env = (text, 0) →
      decodeClientCryptKey c b t text = (⟨channelID, key, pub, pri, env⟩, 0)
  genKey : ∀ buffer old channelID key pub pri env text t,
    encodeClientCryptKey c b buffer old channelID key pub pri env = (text, 0) →
      decodeClientCryptKeyGenKey c b t text = ({ t with channelID := channelID, genUserKey := key }, 0)
  channel : ∀ buffer old channelID key pub pri env text t,
    encodeClientCryptKey c b buffer old channelID key pub pri env = (text, 0) →
      decodeClientCryptKeyChannel c b t text = ({ t with channelID := channelID }, 0)
  genKeyAccepted : ∀ blob t u t', decodeClientCryptKey c b t blob = (u, 0) →
    decodeClientCryptKeyGenKey c b t' blob = ({ t' with channelID := u.channelID, genUserKey := u.genUserKey }, 0)
  channelAccepted : ∀ blob t u t', decodeClientCryptKey c b t blob = (u, 0) →
    decodeClientCryptKeyChannel c b t' blob = ({ t' with channelID := u.channelID }, 0)

theorem clientCryptKey_full (b : Base64Lib) {buffer : Bool} {old text : Blob} {v : Vars}
    (h : encodeClientCryptKey c b buffer old v.channelID v.genUserKey v.pubCryptoKey v.priCryptoKey v.envelopeKey =
      (text, 0)) (t : Vars) : decodeClientCryptKey c b t text = (v, 0) := by
  unfold encodeClientCryptKey at h
  cases buffer with
  | false => cases h
  | true =>
    cases h
    exact decodeWrapper_encodeWrapper b (clientCryptKeyWrapper c) v t

variable (c b) in
theorem codecs_agree : CodecsAgree c b where
  generates _ _ := rfl
  generate channelID key t := decodeWrapper_encodeWrapper b (channelKeyWrapper c) (generated channelID key) t
  encodes _ _ _ _ _ _ := ⟨_, rfl⟩
  full _ _ channelID key pub pri env _ t h := clientCryptKey_full b (v := ⟨channelID, key, pub, pri, env⟩) h t
  genKey _ _ channelID key pub pri env _ t h :=
    genKey_agrees (clientCryptKey_full b (v := ⟨channelID, key, pub, pri, env⟩) h t) t
  channel _ _ channelID key pub pri env _ t h :=
    channel_agrees (clientCryptKey_full b (v := ⟨channelID, key, pub, pri, env⟩) h t) t
  genKeyAccepted _ _ _ t' h := genKey_agrees h t'
  channelAccepted _ _ _ t' h := channel_agrees h t'

def oneByte : DscString := ⟨[65], by decide⟩

def twoBytes : DscString := ⟨[66, 0], by decide⟩

def noBytes : DscString := ⟨[], empty_lt⟩

/-- What the variables hold before a decoder writes to them. -/
def unread : Vars := ⟨9, ⟨9, 9, 9⟩, twoBytes, oneByte, oneByte⟩

theorem codecs_agree_key : ∃ text,
    encodeClientCryptKey digitCodec base64Lib true [] 7 ⟨1, 2, 3⟩ oneByte twoBytes noBytes = (text, 0) ∧
      text.length = 45 ∧
      decodeClientCryptKey digitCodec base64Lib unread text = (⟨7, ⟨1, 2, 3⟩, oneByte, twoBytes, noBytes⟩, 0) ∧
      decodeClientCryptKeyGenKey digitCodec base64Lib unread text =
        (⟨7, ⟨1, 2, 3⟩, twoBytes, oneByte, oneByte⟩, 0) ∧
      decodeClientCryptKeyChannel digitCodec base64Lib unread text =
        (⟨7, ⟨9, 9, 9⟩, twoBytes, oneByte, oneByte⟩, 0) := by
  have hagree := codecs_agree digitCodec base64Lib
  obtain ⟨text, htext⟩ := hagree.encodes [] 7 ⟨1, 2, 3⟩ oneByte twoBytes noBytes
  refine ⟨text, htext, ?_, hagree.full _ _ _ _ _ _ _ _ unread htext, hagree.genKey _ _ _ _ _ _ _ _ unread htext,
    hagree.channel _ _ _ _ _ _ _ _ unread htext⟩
  rw [← (Prod.mk.inj htext).1]
  decide +kernel

/-! ## The decoder of the chaincodes -/

theorem decodeGenerateUserKey_decoder (d : KeyDecoder) (h64 : d.base64decode = b.decode)
    (hd : ∀ bytes, d.decode bytes = match decodeAttrs (channelKeyWrapper c) t bytes with
      | (_, none) => none
      | (u, some _) => some (u.channelID, u.genUserKey)) (key : Blob) :
    VProtocol.decodeGenerateUserKey d key =
      if (decodeGenerateUserKey c b t key).2 = 0 then
        some ((decodeGenerateUserKey c b t key).1.channelID, (decodeGenerateUserKey c b t key).1.genUserKey)
      else none := by
  unfold VProtocol.decodeGenerateUserKey decodeGenerateUserKey decodeWrapper
  rw [h64]
  by_cases hlen : key.length > 0
  · rw [if_pos hlen, if_pos hlen, hd]
    generalize decodeAttrs (channelKeyWrapper c) t (b.decode key) = r
    obtain ⟨u, rest⟩ := r
    cases rest <;> rfl
  · rw [if_neg hlen, if_neg hlen]
    rfl

end

end VProtocol.UserKey
