import VProtocol.Common.SimpleVector
import VProtocol.Merkle.Binding

/-!
# The codec of a block

`DSC_BIND_ATTR` of the header leaves the time out, so a decode keeps the time of the block
it writes to. The transactions are written to the buffer that is there or to a new one, and
the result of their decode is not returned.
-/

namespace VProtocol.Block

variable {dg : Merkle.Digest}

abbrev DscBlob := { b : Blob // b.length < 2 ^ 32 }

/-- The codecs of the members that `DSC_BIND_ATTR` lists. -/
structure DscCodec (dg : Merkle.Digest) where
  uint16 : Codec UInt16
  uint32 : Codec UInt32
  uint64 : Codec UInt64
  hashBuffer : Codec (Merkle.HashBuffer dg)
  dscBlob : Codec DscBlob

structure BcBlock (dg : Merkle.Digest) where
  header : Merkle.BcBlockHeader dg
  vecTransaction : SimpleVector DscBlob

/-- What the Merkle tree of a block is built from. -/
def BcBlock.content (b : BcBlock dg) : Merkle.BcBlock dg := ⟨b.header, b.vecTransaction.items.map Subtype.val⟩

/-- The members in the order of `DSC_BIND_ATTR`. -/
def headerAttrs (c : DscCodec dg) : List (Attr (Merkle.BcBlockHeader dg)) :=
  [c.uint16.attr (·.orderID) fun v h => { h with orderID := v },
    c.uint64.attr (·.blockID) fun v h => { h with blockID := v },
    c.hashBuffer.attr (·.preBlockHash) fun v h => { h with preBlockHash := v },
    c.hashBuffer.attr (·.merkelTreeRootHash) fun v h => { h with merkelTreeRootHash := v }]

/-- What an allocation gives, and what is read where `DscVCodecBindAttr` returns nothing. -/
structure DecodeEnv where
  memory : Option (Nat → DscBlob)
  ret : Int

namespace BcBlock

def getEncodeSize (c : DscCodec dg) (b : BcBlock dg) : Option Nat :=
  (b.vecTransaction.getEncodeSize c.uint32 c.dscBlob).map (sizeAttrs (headerAttrs c) b.header + ·)

def encode (c : DscCodec dg) (b : BcBlock dg) : Option (List UInt8) :=
  (b.vecTransaction.encode c.uint32 c.dscBlob).map (encodeAttrs (headerAttrs c) b.header ++ ·)

/-- A member that is not decoded ends the decode. -/
def decode (c : DscCodec dg) (env : DecodeEnv) (b : BcBlock dg) (bytes : List UInt8) : Option (BcBlock dg × Int) :=
  match decodeAttrs (headerAttrs c) b.header bytes with
  | (header, none) => some ({ b with header := header }, -1)
  | (header, some bytes) =>
    (b.vecTransaction.bindAttrDecode c.uint32 c.dscBlob env.memory env.ret bytes).map fun r =>
      (⟨header, r.1⟩, if r.2.2 = 0 then 0 else -1)

end BcBlock

/-! ## The property -/

/-- A decode of the encoding of `b` into `target` gives what `b` holds. -/
def RoundTrip (c : DscCodec dg) (env : DecodeEnv) (b target : BcBlock dg) : Prop :=
  ∃ bytes t, b.encode c = some bytes ∧ b.getEncodeSize c = some bytes.length ∧ target.decode c env bytes = some (t, 0) ∧
    t.header = b.header ∧ t.vecTransaction.itemCount = b.vecTransaction.itemCount ∧
    t.vecTransaction.items = b.vecTransaction.items

section
variable {c : DscCodec dg} {env : DecodeEnv} {b target : BcBlock dg} {bytes : List UInt8}

theorem copyAttrs_header (c : DscCodec dg) (h h' : Merkle.BcBlockHeader dg) :
    copyAttrs (headerAttrs c) h h' = { h with blockTime := h'.blockTime } := rfl

theorem encode_opened (c : DscCodec dg) (hb : b.vecTransaction.Opened) : ∃ bytes,
    b.encode c = some bytes ∧ b.getEncodeSize c = some bytes.length := by
  obtain ⟨items, henc, hsize⟩ := SimpleVector.encode_opened c.uint32 c.dscBlob hb
  unfold BcBlock.encode BcBlock.getEncodeSize
  rw [henc, hsize]
  refine ⟨_, rfl, ?_⟩
  rw [Option.map_some, List.length_append, length_encodeAttrs]

theorem decode_received (env : DecodeEnv) (target : BcBlock dg) (h : b.encode c = some bytes)
    (hr : SimpleVector.Receives env.memory target.vecTransaction b.vecTransaction.itemCount) :
    ∃ v, target.decode c env bytes = some (⟨{ b.header with blockTime := target.header.blockTime }, v⟩,
        if env.ret = 0 then 0 else -1) ∧
      v.itemCount = b.vecTransaction.itemCount ∧ v.items = b.vecTransaction.items := by
  obtain ⟨items, henc, rfl⟩ := Option.map_eq_some_iff.mp h
  obtain ⟨v, hdec, hv⟩ := SimpleVector.decode_encode henc hr []
  rw [List.append_nil] at hdec
  refine ⟨v, ?_, hv⟩
  unfold BcBlock.decode SimpleVector.bindAttrDecode
  rw [decodeAttrs_encodeAttrs, copyAttrs_header]
  simp [hdec]

theorem decode_lost (h : b.encode c = some bytes)
    (hr : ¬SimpleVector.Receives env.memory target.vecTransaction b.vecTransaction.itemCount) :
    target.decode c env bytes = none := by
  obtain ⟨items, henc, rfl⟩ := Option.map_eq_some_iff.mp h
  have hdec := SimpleVector.decode_null henc hr []
  rw [List.append_nil] at hdec
  unfold BcBlock.decode SimpleVector.bindAttrDecode
  rw [decodeAttrs_encodeAttrs]
  simp [hdec]

/-- A block comes through exactly where the target holds its time before, the missing result
reads as zero, and the transactions are not written to a null buffer. -/
theorem round_trip_iff (c : DscCodec dg) (env : DecodeEnv) (b target : BcBlock dg) (hb : b.vecTransaction.Opened) :
    RoundTrip c env b target ↔ target.header.blockTime = b.header.blockTime ∧ env.ret = 0 ∧
      SimpleVector.Receives env.memory target.vecTransaction b.vecTransaction.itemCount := by
  obtain ⟨bytes, henc, hsize⟩ := encode_opened c hb
  by_cases hr : SimpleVector.Receives env.memory target.vecTransaction b.vecTransaction.itemCount
  · obtain ⟨v, hdec, hcount, hitems⟩ := decode_received env target henc hr
    refine ⟨fun ⟨bytes', t, henc', _, hdec', hheader, _⟩ => ?_, fun ⟨htime, hret, _⟩ => ?_⟩
    · obtain rfl := Option.some.inj (henc.symm.trans henc')
      obtain ⟨rfl, hcode⟩ := Prod.mk.inj (Option.some.inj (hdec.symm.trans hdec'))
      have htime := congrArg Merkle.BcBlockHeader.blockTime hheader
      refine ⟨htime, ?_, hr⟩
      by_contra hret
      rw [if_neg hret] at hcode
      cases hcode
    · rw [htime, if_pos hret] at hdec
      exact ⟨bytes, _, henc, hsize, hdec, rfl, hcount, hitems⟩
  · refine ⟨fun ⟨bytes', t, henc', _, hdec', _⟩ => ?_, fun ⟨_, _, hr'⟩ => absurd hr' hr⟩
    obtain rfl := Option.some.inj (henc.symm.trans henc')
    rw [decode_lost henc hr] at hdec'
    cases hdec'

end

/-! ## A block with a time -/

/-- Numbers with the most significant byte first, byte strings behind their lengths. -/
def plainCodec (dg : Merkle.Digest) : DscCodec dg where
  uint16 := .word 2 UInt16.toNat UInt16.ofNat UInt16.toNat_lt fun _ => UInt16.ofNat_toNat
  uint32 := .word 4 UInt32.toNat UInt32.ofNat UInt32.toNat_lt fun _ => UInt32.ofNat_toNat
  uint64 := .word 8 UInt64.toNat UInt64.ofNat UInt64.toNat_lt fun _ => UInt64.ofNat_toNat
  hashBuffer := .bytes dg.length
  dscBlob := .blob 4 (le_refl _)

def twoTransactions :
    SimpleVector DscBlob := ⟨2, 2, some fun idx => if idx = 0 then ⟨[1], by decide⟩ else ⟨[2], by decide⟩⟩

theorem twoTransactions_opened : twoTransactions.Opened := ⟨Option.some_ne_none _, by decide⟩

def timedBlock : BcBlock Merkle.fullDigest := ⟨⟨1, 1, 7, Merkle.zeroBuffer, Merkle.zeroBuffer⟩, twoTransactions⟩

def blockAt (blockTime : UInt64) (v : SimpleVector DscBlob) : BcBlock Merkle.fullDigest :=
  ⟨⟨0, 0, blockTime, Merkle.zeroBuffer, Merkle.zeroBuffer⟩, v⟩

def emptyMemory : DecodeEnv := ⟨some fun _ => ⟨[], Nat.two_pow_pos 32⟩, 0⟩

/-- A block that is decoded into a new one loses its time, and into one whose vector was closed crashes. -/
theorem time_lost : (¬∀ (dg : Merkle.Digest) (c : DscCodec dg) (env : DecodeEnv) (b target : BcBlock dg),
      b.vecTransaction.Opened → env.ret = 0 → env.memory ≠ none → RoundTrip c env b target) ∧
    ∃ bytes, timedBlock.encode (plainCodec _) = some bytes ∧
      (blockAt 7 twoTransactions.close).decode (plainCodec _) emptyMemory bytes = none := by
  refine ⟨fun hall => ?_, ?_⟩
  · obtain ⟨bytes, t, henc, -, hdec, hheader, -⟩ := hall Merkle.fullDigest (plainCodec _) emptyMemory timedBlock
      (blockAt 0 {}) twoTransactions_opened rfl (Option.some_ne_none _)
    obtain ⟨v, hdec', -⟩ := decode_received emptyMemory (blockAt 0 {}) henc (Option.some_ne_none _)
    obtain ⟨rfl, -⟩ := Prod.mk.inj (Option.some.inj (hdec.symm.trans hdec'))
    have htime : (0 : UInt64) = 7 := congrArg Merkle.BcBlockHeader.blockTime hheader
    cases htime
  · obtain ⟨bytes, henc, -⟩ := encode_opened (plainCodec _) (b := timedBlock) twoTransactions_opened
    refine ⟨bytes, henc, decode_lost henc ?_⟩
    rintro (h | h)
    · exact absurd h (by decide)
    · exact h rfl

theorem round_trip_two : RoundTrip (plainCodec _) emptyMemory timedBlock (blockAt 7 ⟨1, 1, none⟩) :=
  (round_trip_iff (plainCodec _) emptyMemory timedBlock (blockAt 7 ⟨1, 1, none⟩)
    twoTransactions_opened).mpr ⟨rfl, rfl, Option.some_ne_none _⟩

end VProtocol.Block
