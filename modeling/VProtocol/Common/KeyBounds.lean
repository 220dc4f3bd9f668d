import VProtocol.Common.UserKeyCodec

/-!
# What the decoders of user keys read

`Base64decode` gets no length: it reads until a byte is outside of its alphabet. So whether it
stays in the key depends on the bytes of the key, and what it writes on where it stops.
-/

namespace VProtocol.UserKey

/-- How many bytes of the alphabet are read before the first other one; `none`: the bytes of the
blob are all of the alphabet, and the one behind them is read. -/
def scan : Blob → Option Nat
  | [] => none
  | c :: l => if isBase64 c then (scan l).map (· + 1) else some 0

/-- `Base64decoded_len` and the zero byte, the most that is written for `n` bytes of the alphabet. -/
def mostWritten (n : Nat) : Nat := 3 * ((n + 3) / 4) + 1

/-- How many bytes `Base64decode` writes. -/
structure Written where
  count : Nat → Nat
  le : ∀ n, count n ≤ mostWritten n

def Written.most : Written := ⟨mostWritten, fun n => Nat.le_refl (mostWritten n)⟩

section
variable (c : DscCodec) (b : Base64Lib) (w : Written)

/-- `none`: a byte behind the blob is read, or one behind the buffer of `size` bytes is written. -/
def base64decode (size : Nat) (blob : Blob) : Option Blob :=
  match scan blob with
  | none => none
  | some n => if w.count n ≤ size then some (b.decode blob) else none

/-- `decodeWrapper`, with the buffer that it allocates. -/
def decodeInBuffer (wrapper : List (Attr Vars)) (t : Vars) (blob : Blob) : Option (Vars × Int) :=
  if blob.length > 0 then
    (base64decode b w blob.length blob).map fun buffer =>
      match decodeAttrs wrapper t buffer with
      | (t, none) => (t, -1)
      | (t, some _) => (t, 0)
  else some (t, -1)

namespace Bounded

def decodeGenerateUserKey (t : Vars) (encodeGenUserKey : Blob) : Option (Vars × Int) :=
  decodeInBuffer b w (channelKeyWrapper c) t encodeGenUserKey

def decodeClientCryptKey (t : Vars) (userCryptoKey : Blob) : Option (Vars × Int) :=
  decodeInBuffer b w (clientCryptKeyWrapper c) t userCryptoKey

def decodeClientCryptKeyGenKey (t : Vars) (userCryptoKey : Blob) : Option (Vars × Int) :=
  decodeInBuffer b w (channelKeyWrapper c) t userCryptoKey

def decodeClientCryptKeyChannel (t : Vars) (userCryptoKey : Blob) : Option (Vars × Int) :=
  decodeInBuffer b w (channelWrapper c) t userCryptoKey

end Bounded

end

/-- Nothing is read behind the blob nor written behind the buffer, whatever is written for it. -/
def StaysInside (decoder : Written → Vars → Blob → Option (Vars × Int)) (t : Vars) (blob : Blob) : Prop :=
  ∀ w, (decoder w t blob).isSome = true

/-- A byte that is not of the alphabet is in the blob, and for those in front of the first one no
more is written than the blob is long. -/
def Fits (blob : Blob) : Prop :=
  ∃ text x rest, blob = text ++ x :: rest ∧ (∀ y ∈ text, isBase64 y = true) ∧ isBase64 x = false ∧
    mostWritten text.length ≤ blob.length

section
variable {b : Base64Lib} {w : Written} {wrapper : List (Attr Vars)} {t : Vars} {blob : Blob}

/-! ## Where the decoder stops -/

theorem scan_stops {text rest : Blob} {x : UInt8} (htext : ∀ y ∈ text, isBase64 y = true) (hx : isBase64 x = false) :
    scan (text ++ x :: rest) = some text.length := by
  induction text with
  | nil =>
    rw [List.nil_append, scan, if_neg (ne_true_of_eq_false hx)]
    rfl
  | cons y text ih =>
    rw [List.cons_append, scan, if_pos (htext y List.mem_cons_self), ih fun z hz => htext z (List.mem_cons_of_mem y hz)]
    rfl

theorem of_scan {n : Nat} (h : scan blob = some n) :
    ∃ text x rest, blob = text ++ x :: rest ∧ (∀ y ∈ text, isBase64 y = true) ∧ isBase64 x = false ∧
      text.length = n := by
  induction blob generalizing n with
  | nil => cases h
  | cons y l ih =>
    unfold scan at h
    split at h
    · rename_i hy
      obtain ⟨m, hm, rfl⟩ := Option.map_eq_some_iff.mp h
      obtain ⟨text, x, rest, rfl, htext, hx, rfl⟩ := ih hm
      refine ⟨y :: text, x, rest, rfl, fun z hz => ?_, hx, rfl⟩
      rcases List.mem_cons.mp hz with rfl | hz
      · exact hy
      · exact htext z hz
    · rename_i hy
      obtain rfl := Option.some.inj h
      exact ⟨[], y, l, rfl, nofun, eq_false_of_ne_true hy, rfl⟩

theorem Fits.scanned (h : Fits blob) (w : Written) : ∃ n, scan blob = some n ∧ w.count n ≤ blob.length := by
  obtain ⟨text, x, rest, rfl, htext, hx, hle⟩ := h
  exact ⟨text.length, scan_stops htext hx, (w.le _).trans hle⟩

/-! ## What stays inside -/

theorem base64decode_eq_some {size : Nat} {buffer : Blob} : base64decode b w size blob = some buffer ↔
    (∃ n, scan blob = some n ∧ w.count n ≤ size) ∧ b.decode blob = buffer := by
  unfold base64decode
  constructor
  · intro h
    split at h
    · cases h
    · rename_i n hn
      split at h
      · rename_i hle
        exact ⟨⟨n, hn, hle⟩, Option.some.inj h⟩
      · cases h
  · rintro ⟨⟨n, hn, hle⟩, rfl⟩
    simp only [hn, if_pos hle]

theorem decodeInBuffer_eq (h : blob = [] ∨ ∃ n, scan blob = some n ∧ w.count n ≤ blob.length) :
    decodeInBuffer b w wrapper t blob = some (decodeWrapper b wrapper t blob) := by
  unfold decodeInBuffer decodeWrapper
  by_cases hlen : blob.length > 0
  · have hfits := h.resolve_left (List.length_pos_iff.mp hlen)
    rw [if_pos hlen, if_pos hlen, base64decode_eq_some.mpr ⟨hfits, rfl⟩]
    rfl
  · rw [if_neg hlen, if_neg hlen]

theorem decodeInBuffer_isSome : (decodeInBuffer b w wrapper t blob).isSome = true ↔
    blob = [] ∨ ∃ n, scan blob = some n ∧ w.count n ≤ blob.length := by
  constructor
  · intro h
    unfold decodeInBuffer at h
    split at h
    · rw [Option.isSome_map] at h
      obtain ⟨buffer, hbuffer⟩ := Option.isSome_iff_exists.mp h
      exact .inr (base64decode_eq_some.mp hbuffer).1
    · rename_i hlen
      exact .inl (List.eq_nil_of_length_eq_zero (Nat.eq_zero_of_not_pos hlen))
  · intro h
    rw [decodeInBuffer_eq h]
    rfl

/-- Under what is known of the decoder, all that matters is where the blob has its first byte that
is not of the alphabet. -/
theorem inside_iff (b : Base64Lib) (wrapper : List (Attr Vars)) (t : Vars) (blob : Blob) :
    StaysInside (decodeInBuffer b · wrapper) t blob ↔ blob = [] ∨ Fits blob := by
  constructor
  · intro h
    rcases decodeInBuffer_isSome.mp (h .most) with hnil | ⟨n, hn, hle⟩
    · exact .inl hnil
    · obtain ⟨text, x, rest, heq, htext, hx, rfl⟩ := of_scan hn
      exact .inr ⟨text, x, rest, heq, htext, hx, hle⟩
  · intro h w
    exact decodeInBuffer_isSome.mpr (h.imp_right fun hfits => hfits.scanned w)

theorem keyDecoders_inside_iff (c : DscCodec) (b : Base64Lib) (t : Vars) (blob : Blob) :
    (StaysInside (Bounded.decodeGenerateUserKey c b) t blob ↔ blob = [] ∨ Fits blob) ∧
    (StaysInside (Bounded.decodeClientCryptKey c b) t blob ↔ blob = [] ∨ Fits blob) ∧
    (StaysInside (Bounded.decodeClientCryptKeyGenKey c b) t blob ↔ blob = [] ∨ Fits blob) ∧
    (StaysInside (Bounded.decodeClientCryptKeyChannel c b) t blob ↔ blob = [] ∨ Fits blob) :=
  ⟨inside_iff b (channelKeyWrapper c) t blob, inside_iff b (clientCryptKeyWrapper c) t blob,
    inside_iff b (channelKeyWrapper c) t blob, inside_iff b (channelWrapper c) t blob⟩

end

/-! ## What the codec writes -/

theorem encoded_fits (wrapper : List (Attr Vars)) (t : Vars) : Fits (encodeWrapper base64Lib wrapper t) := by
  rw [encodeWrapper_eq]
  have hlen : (base64Lib.encode (encodeAttrs wrapper t)).length = ((encodeAttrs wrapper t).length + 2) / 3 * 4 + 1 :=
    base64Lib.length_encode _
  have hstops : ((base64Lib.encode (encodeAttrs wrapper t)).find? fun x => !isBase64 x).isSome = true := by
    rw [List.find?_isSome]
    exact ⟨0, List.mem_append_right _ List.mem_cons_self, rfl⟩
  obtain ⟨x, hx⟩ := Option.isSome_iff_exists.mp hstops
  obtain ⟨hother, text, rest, heq, htext⟩ := List.find?_eq_some_iff_append.mp hx
  refine ⟨text, x, rest, heq, fun y hy => ?_, ?_, ?_⟩
  · simpa using htext y hy
  · simpa using hother
  · have hshort := congrArg List.length heq
    rw [hlen, List.length_append, List.length_cons] at hshort
    rw [hlen]
    unfold mostWritten
    omega

/-- What was encoded is read back, wherever the decoder stops writing. -/
theorem decodeInBuffer_encodeWrapper (w : Written) (wrapper : List (Attr Vars)) (t u : Vars) :
    decodeInBuffer base64Lib w wrapper u (encodeWrapper base64Lib wrapper t) = some (copyAttrs wrapper t u, 0) := by
  rw [decodeInBuffer_eq (.inr ((encoded_fits wrapper t).scanned w)), decodeWrapper_encodeWrapper]

/-! ## A key without an end -/

def plainDsc : DscCodec where
  uint16 := .word 2 UInt16.toNat UInt16.ofNat UInt16.toNat_lt fun _ => UInt16.ofNat_toNat
  uint32 := .word 4 UInt32.toNat UInt32.ofNat UInt32.toNat_lt fun _ => UInt32.ofNat_toNat
  uint64 := .word 8 UInt64.toNat UInt64.ofNat UInt64.toNat_lt fun _ => UInt64.ofNat_toNat
  dscString := .blob 4 (Nat.le_refl _)

/-- Four bytes of the alphabet, and the fifth is read. -/
theorem decoders_read_on : ¬∀ (c : DscCodec) (b : Base64Lib) (t : Vars) (blob : Blob), blob.length > 0 →
    StaysInside (Bounded.decodeGenerateUserKey c b) t blob ∧ StaysInside (Bounded.decodeClientCryptKey c b) t blob ∧
      StaysInside (Bounded.decodeClientCryptKeyGenKey c b) t blob ∧
      StaysInside (Bounded.decodeClientCryptKeyChannel c b) t blob := by
  intro hall
  have hinside := (hall plainDsc base64Lib (generated 0 ⟨0, 0, 0⟩) [65, 65, 65, 65] (by decide)).1 .most
  have hread : Bounded.decodeGenerateUserKey plainDsc base64Lib .most (generated 0 ⟨0, 0, 0⟩) [65, 65, 65, 65] =
      none := rfl
  rw [hread] at hinside
  cases hinside

end VProtocol.UserKey
