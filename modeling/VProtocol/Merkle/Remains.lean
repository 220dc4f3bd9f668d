import VProtocol.Merkle.Fill

/-!
# What is left in the buffers

With a digest that does not fill its buffer the bytes behind it are those that the memory of
a node held, and they are hashed with the others. Two tree objects then agree on a list of
transactions exactly when they hold the same bytes there in the nodes of its leaves.
-/

namespace VProtocol.Merkle

variable {dg : Digest}

/-- For the blocks with the transactions `l` and these two objects. -/
structure Agree (raw raw' : Raw dg) (t t' : MerkelTree dg) (l : List Blob) : Prop where
  checks : ∀ b : BcBlock dg, b.vecTransaction = l → checkFilled raw raw' t t' b b.vecTransaction = some 0
  fixed : ∀ b b' : BcBlock dg, b.vecTransaction = l → b'.vecTransaction = l →
    (b.caculateMerkelTree raw t).map (·.2.1.header.merkelTreeRootHash) =
      (b'.caculateMerkelTree raw' t').map (·.2.1.header.merkelTreeRootHash)

/-- The size of the first array, in steps of the growth, that has a node `i`. -/
def firstSize (i : Nat) : UInt32 := UInt32.ofNat ((i / 256 + 1) * 256)

/-- The bytes behind the digest in node `i`: those of the array that is there, or of the one
that it grows to. -/
def oldRest (raw : Raw dg) (t : MerkelTree dg) (i : Nat) : Rest dg :=
  if i < t.allocNum.toNat then restOf (t.nodes i).hash else restOf (raw (firstSize i) i).hash

/-- The objects have room for the leaves and hold the same bytes behind their digests; without
leaves the root is the first node as it was. -/
structure SameRemains (raw raw' : Raw dg) (t t' : MerkelTree dg) (l : List Blob) : Prop where
  fits : l.length ≤ maxNodeCount
  first : l = [] → (t.nodes 0).hash = (t'.nodes 0).hash
  rests : ∀ i < l.length, oldRest raw t i = oldRest raw' t' i

section
variable {raw raw' : Raw dg} {t t' u : MerkelTree dg} {l : List Blob} {data : Blob}

/-! ## The leaves -/

/-- The bytes behind the digests are those of the object `u` that the leaves were added to. -/
structure KeepsRest (raw : Raw dg) (u t : MerkelTree dg) : Prop where
  sized : Sized t
  grown : u.allocNum.toNat ≤ t.allocNum.toNat
  kept : ∀ i < t.allocNum.toNat, restOf (t.nodes i).hash = oldRest raw u i

variable (raw) in
theorem KeepsRest.self (h : Sized t) : KeepsRest raw t t := by
  refine ⟨h, Nat.le_refl _, fun i hi => ?_⟩
  unfold oldRest
  rw [if_pos hi]

theorem KeepsRest.inceaseNode (h : KeepsRest raw u t) (hfull : t.allocNum ≤ t.curNum)
    (hi : t.inceaseNode raw = some t') : KeepsRest raw u t' := by
  have hsized := inceaseNode_sized h.sized hfull hi
  have hroom := UInt32.le_iff_toNat_le.mp h.sized.room
  have hle := UInt32.le_iff_toNat_le.mp hfull
  have hlt := UInt32.lt_iff_toNat_lt.mp (inceaseNode_spec hi h.sized.room hfull).2.1
  have hcur := (inceaseNode_spec hi h.sized.room hfull).1
  unfold MerkelTree.inceaseNode at hi
  simp only at hi
  split at hi
  · cases hi
  · obtain rfl := Option.some.inj hi
    have hstep := h.sized.step
    have hsum := toNat_allocNum_add t
    have hbound := t.allocNum.toNat_lt
    have hgrown := h.grown
    simp only at hlt
    have hadd : (t.allocNum + merkelTreeNodeIncreaseStep).toNat = t.allocNum.toNat + 256 := by omega
    refine ⟨hsized, by simp only; omega, fun i hi => ?_⟩
    simp only at hi ⊢
    by_cases hold : i < t.curNum.toNat
    · rw [if_pos hold]
      exact h.kept i (by omega)
    · -- a node of the new array only
      have hsize : firstSize i = t.allocNum + merkelTreeNodeIncreaseStep := by
        apply UInt32.toNat_inj.mp
        unfold firstSize
        rw [UInt32.toNat_ofNat', hadd]
        omega
      rw [if_neg hold]
      unfold oldRest
      rw [if_neg (by omega), hsize]

theorem KeepsRest.addLeafNode (h : KeepsRest raw u t) (ha : t.addLeafNode raw data = some t') :
    KeepsRest raw u t' := by
  have hsized := addLeafNode_sized h.sized ha
  unfold MerkelTree.addLeafNode at ha
  obtain ⟨v, hv, rfl⟩ := Option.map_eq_some_iff.mp ha
  have hkeeps : KeepsRest raw u v := by
    split at hv
    · rename_i hfull
      exact h.inceaseNode hfull hv
    · obtain rfl := Option.some.inj hv
      exact h
  refine ⟨hsized, hkeeps.grown, fun i hi => ?_⟩
  rw [← hkeeps.kept i hi]
  by_cases hcur : i = v.curNum.toNat
  · subst hcur
    simp only [Function.update_self, MerkelNode.setOriginalData, restOf_vbhDigest]
  · simp only [Function.update_of_ne hcur]

theorem KeepsRest.addLeafNodes (h : KeepsRest raw u t) (ha : addLeafNodes raw t l = some t') :
    KeepsRest raw u t' := by
  induction l generalizing t with
  | nil =>
    obtain rfl := Option.some.inj ha
    exact h
  | cons data l ih =>
    unfold Merkle.addLeafNodes at ha
    rw [List.foldlM_cons] at ha
    obtain ⟨v, hv, ha⟩ := Option.bind_eq_some_iff.mp ha
    exact ih (h.addLeafNode hv) ha

theorem restsOf_addLeafNodes (hs : Sized t) (ha : addLeafNodes raw t.clear l = some t') :
    ∀ i < l.length, restsOf t'.nodes i = oldRest raw t i := by
  intro i hi
  have hkeeps := (KeepsRest.self raw hs.clear).addLeafNodes ha
  have hcur := (addLeafNodes_spec ha UInt32.zero_le).1
  have hroom := UInt32.le_iff_toNat_le.mp hkeeps.sized.room
  rw [curNum_clear, Nat.zero_add] at hcur
  exact hkeeps.kept i (by omega)

/-! ## The trees -/

theorem ofList_congr {rests rests' : Nat → Rest dg} (h : ∀ i < l.length, rests i = rests' i) :
    HashTree.ofList rests l = HashTree.ofList rests' l := by
  have hleaves : (l.mapIdx fun i data => HashTree.leaf data (rests i)) =
      l.mapIdx fun i data => HashTree.leaf data (rests' i) := by
    apply List.ext_getElem
    · simp
    · intro i hi _
      rw [List.length_mapIdx] at hi
      simp [h i hi]
  unfold HashTree.ofList root
  rw [hleaves, reduce_congr]
  intro i hi
  rw [List.length_mapIdx] at hi
  rw [h i hi]

/-- The leaves of a tree hold the bytes that they were made with. -/
theorem ofList_rests {rests rests' : Nat → Rest dg} {T : HashTree dg} (h : HashTree.ofList rests l = some T)
    (h' : HashTree.ofList rests' l = some T) : ∀ i < l.length, rests i = rests' i := by
  have hred := (reduce_ofList h).trans (reduce_ofList h').symm
  have hleaves := reduce_inj (by intro i a b a' b' hab; injection hab with hl hr; exact ⟨hl, hr⟩)
    (by rw [List.length_mapIdx, List.length_mapIdx]) hred
  intro i hi
  have hget := congrArg (fun L => L[i]?) hleaves
  simp only [List.getElem?_mapIdx, List.getElem?_eq_getElem hi, Option.map_some, Option.some.injEq] at hget
  exact (HashTree.leaf.inj hget).2

/-! ## The root -/

/-- The root that the object gives for a list of leaves, if they fit. -/
def rootOf (raw : Raw dg) (t : MerkelTree dg) (l : List Blob) : Option (HashBuffer dg) :=
  (addLeafNodes raw t.clear l).map (·.buildMerkleTree.1.getRoot)

theorem caculate_rootOf (raw : Raw dg) (t : MerkelTree dg) (b : BcBlock dg) :
    (b.caculateMerkelTree raw t).map (·.2.1.header.merkelTreeRootHash) = rootOf raw t b.vecTransaction := by
  unfold BcBlock.caculateMerkelTree rootOf
  cases addLeafNodes raw t.clear b.vecTransaction <;> rfl

theorem checkFilled_rootOf (raw raw' : Raw dg) (t t' : MerkelTree dg) (b : BcBlock dg) (l' : List Blob) :
    checkFilled raw raw' t t' b l' = (rootOf raw t b.vecTransaction).bind fun r =>
      (rootOf raw' t' l').map fun r' => if r' = r then 0 else -1 := by
  unfold checkFilled BcBlock.caculateMerkelTree BcBlock.checkMerkelTree rootOf
  cases addLeafNodes raw t.clear b.vecTransaction with
  | none => rfl
  | some u =>
    simp only [Option.bind_eq_bind, Option.bind_some, Option.map_some]
    cases addLeafNodes raw' t'.clear l' <;> rfl

theorem agree_iff : Agree raw raw' t t' l ↔ ∃ r, rootOf raw t l = some r ∧ rootOf raw' t' l = some r := by
  constructor
  · intro h
    have hcheck := h.checks (newBlock dg l) rfl
    rw [checkFilled_rootOf] at hcheck
    obtain ⟨r, hr, hcheck⟩ := Option.bind_eq_some_iff.mp hcheck
    obtain ⟨r', hr', hcode⟩ := Option.map_eq_some_iff.mp hcheck
    refine ⟨r, hr, ?_⟩
    by_cases heq : r' = r
    · subst heq
      exact hr'
    · rw [if_neg heq] at hcode
      cases hcode
  · intro ⟨r, hr, hr'⟩
    refine ⟨fun b hb => ?_, fun b b' hb hb' => ?_⟩
    · rw [checkFilled_rootOf, hb, hr, hr']
      simp
    · rw [caculate_rootOf, caculate_rootOf, hb, hb', hr, hr']

variable (raw) in
theorem rootOf_isSome (h : Sized t) : (rootOf raw t l).isSome ↔ l.length ≤ maxNodeCount := by
  unfold rootOf
  rw [Option.isSome_map, addLeafNodes_iff h.clear, curNum_clear, Nat.zero_add]

theorem rootOf_nil : rootOf raw t [] = some (t.nodes 0).hash := rfl

theorem rootOf_tree {r : HashBuffer dg} (h : rootOf raw t l = some r) (hl : l ≠ []) :
    ∃ T, merkleTree raw t l = some T ∧ r.1 = T.value := by
  obtain ⟨t', ht', rfl⟩ := Option.map_eq_some_iff.mp h
  exact build_root ht' hl

theorem merkleTree_rests (hs : Sized t) {T : HashTree dg} (h : merkleTree raw t l = some T) :
    HashTree.ofList (oldRest raw t) l = some T := by
  obtain ⟨t', ht', hof⟩ := Option.bind_eq_some_iff.mp h
  rw [← hof]
  exact (ofList_congr (restsOf_addLeafNodes hs ht')).symm

/-- Without collisions, the roots are equal exactly when the bytes behind the digests are. -/
theorem rootOf_eq_iff (hs : Sized t) (hs' : Sized t') (hl : l ≠ []) {r r' : HashBuffer dg}
    (hr : rootOf raw t l = some r) (hr' : rootOf raw' t' l = some r')
    (hfree : CollisionFree dg (digestInputs raw t l ++ digestInputs raw' t' l)) :
    r = r' ↔ ∀ i < l.length, oldRest raw t i = oldRest raw' t' i := by
  obtain ⟨T, hT, hval⟩ := rootOf_tree hr hl
  obtain ⟨T', hT', hval'⟩ := rootOf_tree hr' hl
  have hof := merkleTree_rests hs hT
  have hof' := merkleTree_rests hs' hT'
  constructor
  · intro heq
    subst heq
    unfold digestInputs at hfree
    rw [hT, hT'] at hfree
    have halike : Alike T T' := HashTree.alike hfree (hval.symm.trans hval')
    obtain rfl := halike.eq_of_full (ofList_full hof) (ofList_full hof')
    exact ofList_rests hof hof'
  · intro hrests
    rw [ofList_congr hrests, hof', Option.some.injEq] at hof
    apply Subtype.ext
    rw [hval, hval', hof]

/-- Two tree objects agree on the root of a list exactly when it fits and they hold the same
bytes where no digest is written. -/
theorem roots_agree_iff (hs : Sized t) (hs' : Sized t')
    (hfree : CollisionFree dg (digestInputs raw t l ++ digestInputs raw' t' l)) :
    Agree raw raw' t t' l ↔ SameRemains raw raw' t t' l := by
  rw [agree_iff]
  by_cases hl : l = []
  · subst hl
    rw [rootOf_nil, rootOf_nil]
    constructor
    · intro ⟨r, hr, hr'⟩
      refine ⟨Nat.zero_le _, fun _ => ?_, fun i hi => absurd hi (Nat.not_lt_zero i)⟩
      exact Option.some.inj (hr.trans hr'.symm)
    · intro h
      exact ⟨_, rfl, congrArg some (h.first rfl).symm⟩
  · constructor
    · intro ⟨r, hr, hr'⟩
      have hfits := (rootOf_isSome raw hs).mp (Option.isSome_of_mem hr)
      exact ⟨hfits, fun h => absurd h hl, (rootOf_eq_iff hs hs' hl hr hr' hfree).mp rfl⟩
    · intro h
      obtain ⟨r, hr⟩ := Option.isSome_iff_exists.mp ((rootOf_isSome raw hs).mpr h.fits)
      obtain ⟨r', hr'⟩ := Option.isSome_iff_exists.mp ((rootOf_isSome raw' hs').mpr h.fits)
      obtain rfl := (rootOf_eq_iff hs hs' hl hr hr' hfree).mpr h.rests
      exact ⟨r, hr, hr'⟩

end

/-! ## A digest of half the buffer -/

theorem length_weigh (data : Blob) : (weigh data).length = 32 := by
  simp [weigh]

theorem half_le : 32 ≤ 64 := by
  decide

/-- As SM3 in buffers of `EVP_MAX_MD_SIZE` bytes. -/
def halfDigest : Digest where
  length := 64
  size := 32
  size_le := half_le
  hash := weigh
  length_hash := length_weigh

/-- New objects in memory of different bytes give one transaction two roots, and the one
rejects what the other filled in. -/
theorem roots_differ : ¬(∀ (dg : Digest) (raw raw' : Raw dg) (t t' : MerkelTree dg) (l : List Blob),
      dg.length = 64 → dg.size = 32 → Used t → Used t' → Agree raw raw' t t' l) ∧
    checkFilled (byteRaw halfDigest 0) (byteRaw halfDigest 1) (.create (byteRaw halfDigest 0))
      (.create (byteRaw halfDigest 1)) (newBlock halfDigest [[1]]) [[1]] = some (-1) := by
  have hcheck : checkFilled (byteRaw halfDigest 0) (byteRaw halfDigest 1) (.create (byteRaw halfDigest 0))
      (.create (byteRaw halfDigest 1)) (newBlock halfDigest [[1]]) [[1]] = some (-1) := by decide +kernel
  refine ⟨fun hall => ?_, hcheck⟩
  have hagree := hall halfDigest (byteRaw halfDigest 0) (byteRaw halfDigest 1) _ _ [[1]] rfl rfl
    (.create (byteRaw halfDigest 0)) (.create (byteRaw halfDigest 1))
  have hzero : some (-1) = some (0 : Int) := hcheck.symm.trans (hagree.checks (newBlock halfDigest [[1]]) rfl)
  cases hzero

theorem length_halves (c d : UInt8) : (List.replicate 32 c ++ List.replicate 32 d).length = halfDigest.length := by
  simp [halfDigest]

/-- The bytes where the digest is written and those of the second half of a node do not matter. -/
def halfRaw (c : UInt8) : Raw halfDigest := fun _ _ =>
  ⟨⟨List.replicate 32 c ++ List.replicate 32 0, length_halves c 0⟩, byteBuffer halfDigest c⟩

theorem roots_agree_two : Agree (halfRaw 1) (halfRaw 2) (.create (halfRaw 1)) (.create (halfRaw 2)) [[1], [2]] := by
  have hs : Sized (MerkelTree.create (halfRaw 1)) := (Used.create (halfRaw 1)).sized
  have hs' : Sized (MerkelTree.create (halfRaw 2)) := (Used.create (halfRaw 2)).sized
  refine (roots_agree_iff hs hs' (by decide +kernel)).mpr ⟨by decide, nofun, ?_⟩
  intro i hi
  have hlt : i < (MerkelTree.create (halfRaw 1)).allocNum.toNat := by
    have hinit : (MerkelTree.create (halfRaw 1)).allocNum.toNat = 1024 := rfl
    rw [List.length_cons, List.length_cons, List.length_nil] at hi
    omega
  have hlt' : i < (MerkelTree.create (halfRaw 2)).allocNum.toNat := hlt
  unfold oldRest
  rw [if_pos hlt, if_pos hlt']
  apply Subtype.ext
  rfl

end VProtocol.Merkle
