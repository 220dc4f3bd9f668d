import VProtocol.Merkle.Reference

/-!
# Filling and checking

A block that one tree object filled is accepted with any other, and its root depends on
the transactions alone, when the digest fills its buffer and there are transactions that
fit. The build of a tree without leaves fails, which neither of the two looks at: the root
is then what the first node held before.
-/

namespace VProtocol.Merkle

variable {dg : Digest}

/-! ## The property -/

/-- For the blocks with these transactions, after any use of the tree objects. -/
structure FillRight (dg : Digest) (l : List Blob) : Prop where
  checks : ∀ (raw raw' : Raw dg) (t t' : MerkelTree dg) (b : BcBlock dg), Used t → Used t' → b.vecTransaction = l →
    checkFilled raw raw' t t' b b.vecTransaction = some 0
  fixed : ∀ (raw raw' : Raw dg) (t t' : MerkelTree dg) (b b' : BcBlock dg), Used t → Used t' → b.vecTransaction = l →
    b'.vecTransaction = l → (b.caculateMerkelTree raw t).map (·.2.1.header.merkelTreeRootHash) =
      (b'.caculateMerkelTree raw' t').map (·.2.1.header.merkelTreeRootHash)

section
variable {raw raw' : Raw dg} {t t' : MerkelTree dg} {l : List Blob} {b : BcBlock dg}

/-! ## Lists that fit -/

theorem caculate_root (raw : Raw dg) (hs : dg.size = dg.length) (hu : Used t) (hl : b.vecTransaction ≠ [])
    (hn : b.vecTransaction.length ≤ maxNodeCount) : ∃ u h, b.caculateMerkelTree raw t =
      some (u, { b with header := { b.header with merkelTreeRootHash := h } }, 0) ∧
        referenceRoot dg b.vecTransaction = some h.1 := by
  obtain ⟨t₁, t₂, hadd, hbuild, hroot⟩ := build_refines raw hs hu hl hn
  refine ⟨t₂, t₂.getRoot, ?_, hroot⟩
  unfold BcBlock.caculateMerkelTree
  rw [hadd]
  simp [hbuild]

theorem check_root (raw : Raw dg) (hs : dg.size = dg.length) (hu : Used t) (hl : b.vecTransaction ≠ [])
    (hn : b.vecTransaction.length ≤ maxNodeCount)
    (hroot : referenceRoot dg b.vecTransaction = some b.header.merkelTreeRootHash.1) :
    ∃ u, b.checkMerkelTree raw t = some (u, 0) := by
  obtain ⟨t₁, t₂, hadd, hbuild, href⟩ := build_refines raw hs hu hl hn
  refine ⟨t₂, ?_⟩
  have heq : t₂.getRoot = b.header.merkelTreeRootHash := Subtype.ext (Option.some.inj (href.symm.trans hroot))
  unfold BcBlock.checkMerkelTree
  rw [hadd]
  simp [hbuild, heq]

theorem fillRight_of_fits (hs : dg.size = dg.length) (hl : l ≠ []) (hn : l.length ≤ maxNodeCount) : FillRight dg l := by
  refine ⟨fun raw raw' t t' b hu hu' hb => ?_, fun raw raw' t t' b b' hu hu' hb hb' => ?_⟩
  · subst hb
    obtain ⟨u, h, hcalc, hroot⟩ := caculate_root raw hs hu hl hn
    unfold checkFilled
    rw [hcalc]
    obtain ⟨u', hcheck⟩ := check_root raw'
      (b := { b with header := { b.header with merkelTreeRootHash := h } }) hs hu' hl hn hroot
    simp [hcheck]
  · subst hb
    obtain ⟨u, h, hcalc, hroot⟩ := caculate_root raw hs hu hl hn
    obtain ⟨u', h', hcalc', hroot'⟩ := caculate_root raw' (b := b') hs hu' (hb' ▸ hl) (hb' ▸ hn)
    rw [hb', hroot] at hroot'
    rw [hcalc, hcalc']
    simp [Subtype.ext (Option.some.inj hroot')]

/-! ## What stays of the first node -/

/-- The bytes behind the digest in the first node are those it was allocated with. -/
theorem addLeafNode_rest {data : Blob} (hs : Sized t) (h : t.addLeafNode raw data = some t') :
    restOf (t'.nodes 0).hash = restOf (t.nodes 0).hash := by
  unfold MerkelTree.addLeafNode at h
  obtain ⟨u, hu, rfl⟩ := Option.map_eq_some_iff.mp h
  have hnode : (u.nodes 0).hash = (t.nodes 0).hash := by
    split at hu
    · rename_i hfull
      apply (inceaseNode_spec hu hs.room hfull).2.2
      exact Nat.lt_of_lt_of_le hs.pos (UInt32.le_iff_toNat_le.mp hfull)
    · obtain rfl := Option.some.inj hu
      rfl
  by_cases hcur : u.curNum.toNat = 0
  · simp [hcur, MerkelNode.setOriginalData, restOf_vbhDigest, hnode]
  · simp [Function.update_of_ne (Ne.symm hcur), hnode]

theorem addLeafNodes_rest (hs : Sized t) (h : addLeafNodes raw t l = some t') :
    restOf (t'.nodes 0).hash = restOf (t.nodes 0).hash := by
  induction l generalizing t with
  | nil =>
    obtain rfl := Option.some.inj h
    rfl
  | cons data l ih =>
    unfold addLeafNodes at h
    rw [List.foldlM_cons] at h
    obtain ⟨u, hu, h⟩ := Option.bind_eq_some_iff.mp h
    rw [ih (addLeafNode_sized hs hu) h, addLeafNode_rest hs hu]

theorem build_rest (h : addLeafNodes raw t.clear l = some t') :
    restOf t'.buildMerkleTree.1.getRoot = restOf (t'.nodes 0).hash := by
  unfold MerkelTree.buildMerkleTree
  split
  · rfl
  · have hcur : t'.curNum.toNat = l.length := by
      rw [(addLeafNodes_spec h UInt32.zero_le).1, curNum_clear, Nat.zero_add]
    have hkept := ((holds_leaves h).hashLevels l.length).kept 0
    simp only [List.length_map, List.length_mapIdx] at hkept
    rw [hcur]
    exact hkept

theorem caculate_rest {u b' code} (hu : Used t) (h : b.caculateMerkelTree raw t = some (u, b', code)) :
    restOf b'.header.merkelTreeRootHash = restOf (t.nodes 0).hash := by
  obtain ⟨t₁, hadd, h⟩ := Option.bind_eq_some_iff.mp h
  obtain ⟨-, h⟩ := Prod.mk.inj (Option.some.inj h)
  obtain ⟨rfl, -⟩ := Prod.mk.inj h
  have hkept := addLeafNodes_rest hu.sized.clear hadd
  exact (build_rest hadd).trans hkept

/-! ## New memory of one byte -/

def byteBuffer (dg : Digest) (c : UInt8) : HashBuffer dg := ⟨List.replicate dg.length c, List.length_replicate⟩

def byteRaw (dg : Digest) (c : UInt8) : Raw dg := fun _ _ => ⟨byteBuffer dg c, byteBuffer dg c⟩

def newBlock (dg : Digest) (l : List Blob) : BcBlock dg := ⟨⟨0, 0, 0, byteBuffer dg 0, byteBuffer dg 0⟩, l⟩

theorem FillRight.caculate (h : FillRight dg l) (c : UInt8) : ∃ u b' code,
    (newBlock dg l).caculateMerkelTree (byteRaw dg c) (.create (byteRaw dg c)) = some (u, b', code) := by
  have hcheck := h.checks (byteRaw dg c) (byteRaw dg c) _ _ (newBlock dg l) (.create (byteRaw dg c))
    (.create (byteRaw dg c)) rfl
  obtain ⟨x, hcalc, -⟩ := Option.bind_eq_some_iff.mp hcheck
  exact ⟨x.1, x.2.1, x.2.2, hcalc⟩

theorem FillRight.fits (h : FillRight dg l) : l.length ≤ maxNodeCount := by
  obtain ⟨u, b', code, hcalc⟩ := h.caculate 0
  obtain ⟨t₁, hadd, -⟩ := Option.bind_eq_some_iff.mp hcalc
  have hused : Used (.create (byteRaw dg 0)) := .create _
  have hfit := (addLeafNodes_iff hused.sized.clear).mp (Option.isSome_of_mem hadd)
  rw [curNum_clear, Nat.zero_add] at hfit
  exact hfit

theorem byteBuffer_ne (h0 : 0 < dg.length) : byteBuffer dg 0 ≠ byteBuffer dg 1 := by
  intro h
  have hval : List.replicate dg.length (0 : UInt8) = List.replicate dg.length 1 := congrArg Subtype.val h
  rw [List.replicate_inj] at hval
  rcases hval.2 with h | h
  · omega
  · cases h

theorem FillRight.ne_nil (h0 : 0 < dg.length) (h : FillRight dg l) : l ≠ [] := by
  intro hl
  subst hl
  have hfixed := h.fixed (byteRaw dg 0) (byteRaw dg 1) _ _ (newBlock dg []) (newBlock dg []) (.create (byteRaw dg 0))
    (.create (byteRaw dg 1)) rfl rfl
  exact byteBuffer_ne h0 (Option.some.inj hfixed)

/-- Two tree objects in new memory with different bytes fill in different bytes behind the digest. -/
theorem FillRight.size (h : FillRight dg l) : dg.size = dg.length := by
  obtain ⟨u, b, code, hcalc⟩ := h.caculate 0
  obtain ⟨u', b', code', hcalc'⟩ := h.caculate 1
  have hfixed := h.fixed (byteRaw dg 0) (byteRaw dg 1) _ _ (newBlock dg l) (newBlock dg l) (.create (byteRaw dg 0))
    (.create (byteRaw dg 1)) rfl rfl
  rw [hcalc, hcalc', Option.map_some, Option.map_some, Option.some.injEq] at hfixed
  have hrest := caculate_rest (.create _) hcalc
  rw [hfixed, caculate_rest (.create _) hcalc'] at hrest
  have hval : (List.replicate dg.length (1 : UInt8)).drop dg.size = (List.replicate dg.length 0).drop dg.size :=
    congrArg Subtype.val hrest
  rw [List.drop_replicate, List.drop_replicate, List.replicate_inj] at hval
  have hle := dg.size_le
  rcases hval.2 with h | h
  · omega
  · cases h

/-- A filled block is accepted, and has one root, exactly where the digest fills its buffer
and the block has transactions that fit. -/
theorem fill_right_iff (h0 : 0 < dg.length) :
    FillRight dg l ↔ dg.size = dg.length ∧ l ≠ [] ∧ l.length ≤ maxNodeCount := by
  refine ⟨fun h => ⟨h.size, h.ne_nil h0, h.fits⟩, fun ⟨hs, hl, hn⟩ => ?_⟩
  exact fillRight_of_fits hs hl hn

end

/-! ## A block without transactions -/

theorem fill_rejected : ¬∀ (dg : Digest) (l : List Blob), 0 < dg.length → dg.size = dg.length →
    l.length ≤ maxNodeCount → FillRight dg l := by
  intro hall
  exact (hall fullDigest [] (by decide) rfl (Nat.zero_le _)).ne_nil (by decide) rfl

theorem fill_right_three : FillRight fullDigest [[1], [2], [3]] :=
  (fill_right_iff (by decide)).mpr ⟨rfl, by decide, by decide⟩

end VProtocol.Merkle
