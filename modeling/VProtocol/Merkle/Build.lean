import VProtocol.Lib.LevelTree
import VProtocol.Merkle.Tree

/-!
# The tree in the array

The in-place build computes the value of the tree that is built level by level. While
a level is built the nodes before `newSize` are parents and those from there on are
still the children; the scratch half of a node is always written before it is read.
The bytes of a buffer that the digest does not write stay as they were, so they are
part of the value.
-/

namespace VProtocol.Merkle

open Function (update)

/-! ## Hash trees -/

/-- The bytes of a buffer behind the digest; none in the default build. -/
abbrev Rest (dg : Digest) := { b : Blob // dg.size + b.length = dg.length }

variable {dg : Digest}

def restOf (b : HashBuffer dg) : Rest dg :=
  ⟨b.1.drop dg.size, by rw [List.length_drop, b.2]; exact Nat.add_sub_cancel' dg.size_le⟩

inductive HashTree (dg : Digest) where
  | leaf (data : Blob) (rest : Rest dg)
  | node (left right : HashTree dg) (rest : Rest dg)

namespace HashTree

def value : HashTree dg → Blob
  | leaf data rest => dg.hash data ++ rest.1
  | node left right rest => dg.hash (right.value ++ left.value) ++ rest.1

def inputs : HashTree dg → List Blob
  | leaf data _ => [data]
  | node left right _ => (right.value ++ left.value) :: (left.inputs ++ right.inputs)

/-- The leaves from left to right, a node that is paired with itself twice. -/
def leaves : HashTree dg → List Blob
  | leaf data _ => [data]
  | node left right _ => left.leaves ++ right.leaves

theorem length_value : ∀ t : HashTree dg, t.value.length = dg.length
  | leaf data rest => by rw [value, List.length_append, dg.length_hash, rest.2]
  | node left right rest => by rw [value, List.length_append, dg.length_hash, rest.2]

/-- The tree over a list of transactions, in an array with these rests. -/
def ofList (rests : Nat → Rest dg) (l : List Blob) : Option (HashTree dg) :=
  root (fun i left right => node left right (rests i)) (l.mapIdx fun i data => leaf data (rests i))

end HashTree

/-! ## One pair -/

def parentValue (rests : Nat → Rest dg) (i : Nat) (left right : Blob) : Blob := dg.hash (right ++ left) ++ (rests i).1

def Rests (nodes : Nat → MerkelNode dg) (rests : Nat → Rest dg) : Prop := ∀ i, restOf (nodes i).hash = rests i

theorem restOf_vbhDigest (data : Blob) (b : HashBuffer dg) : restOf (vbhDigest data b) = restOf b := by
  apply Subtype.ext
  exact List.drop_left' (dg.length_hash data)

theorem calculateHashValue_hash (nodes : Nat → MerkelNode dg) (left right parent i : Nat) :
    (MerkelTree.calculateHashValue nodes left right parent i).hash =
      if i = parent then vbhDigest ((nodes right).hash.1 ++ (nodes left).hash.1) (nodes parent).hash
      else (nodes i).hash := by
  -- putting the left hash behind the right one changes no hash
  have hkept : ∀ j, (update nodes right { nodes right with scratch := (nodes left).hash } j).hash = (nodes j).hash := by
    intro j
    by_cases hj : j = right
    · subst hj
      rw [Function.update_self]
    · rw [Function.update_of_ne hj]
  unfold MerkelTree.calculateHashValue
  by_cases hi : i = parent
  · subst hi
    rw [if_pos rfl, Function.update_self]
    simp only [hkept, Function.update_self]
  · rw [if_neg hi, Function.update_of_ne hi, hkept]

theorem Rests.calculateHashValue {nodes : Nat → MerkelNode dg} {rests} (h : Rests nodes rests)
    (left right parent : Nat) :
    Rests (MerkelTree.calculateHashValue nodes left right parent) rests := by
  intro i
  rw [calculateHashValue_hash]
  split
  · rename_i hi
    rw [restOf_vbhDigest, hi, h parent]
  · exact h i

theorem value_vbhDigest {nodes : Nat → MerkelNode dg} {rests} (h : Rests nodes rests) (data : Blob) (i : Nat) :
    (vbhDigest data (nodes i).hash).1 = dg.hash data ++ (rests i).1 := by
  rw [← h i]
  rfl

/-! ## One level -/

/-- The nodes before `k` are the first parents of the level over `l`, the others still its elements. -/
structure LevelInv (rests : Nat → Rest dg) (l : List Blob) (k : Nat) (nodes : Nat → MerkelNode dg) : Prop where
  kept : Rests nodes rests
  parents : ∀ j < k, (level (parentValue rests) 0 l)[j]? = some (nodes j).hash.1
  children : ∀ j, k ≤ j → j < l.length → l[j]? = some (nodes j).hash.1

section
variable {rests : Nat → Rest dg} {l : List Blob} {nodes : Nat → MerkelNode dg} {k : Nat}

theorem LevelInv.pair (h : LevelInv rests l k nodes) {right : Nat} (hk : 2 * k < l.length)
    (hr : l[2 * k + 1]?.getD (nodes (2 * k)).hash.1 = (nodes right).hash.1) :
    LevelInv rests l (k + 1) (MerkelTree.calculateHashValue nodes (2 * k) right k) := by
  refine ⟨h.kept.calculateHashValue _ _ _, fun j hj => ?_, fun j hj hjl => ?_⟩
  · rw [calculateHashValue_hash]
    by_cases hjk : j = k
    · subst hjk
      rw [if_pos rfl, getElem?_level, h.children (2 * j) (by omega) hk, Option.map_some, hr, value_vbhDigest h.kept,
        Nat.zero_add, parentValue]
    · rw [if_neg hjk]
      exact h.parents j (by omega)
  · rw [calculateHashValue_hash, if_neg (by omega)]
    exact h.children j (by omega) hjl

theorem hashLevel_spec (fuel : Nat) (h : LevelInv rests l k nodes) (hk : k ≤ (l.length + 1) / 2)
    (hf : (l.length + 1) / 2 ≤ k + fuel) :
    (MerkelTree.hashLevel l.length fuel (2 * k) k nodes).2 = (l.length + 1) / 2 ∧
      LevelInv rests l ((l.length + 1) / 2) (MerkelTree.hashLevel l.length fuel (2 * k) k nodes).1 := by
  induction fuel generalizing k nodes with
  | zero =>
    obtain rfl : k = (l.length + 1) / 2 := by omega
    exact ⟨rfl, h⟩
  | succ fuel ih =>
    unfold MerkelTree.hashLevel
    split
    · rename_i hlt
      have hnext : 2 * k + 2 = 2 * (k + 1) := by omega
      split
      · rename_i hlt₁
        rw [hnext]
        refine ih (h.pair hlt ?_) (by omega) (by omega)
        rw [h.children (2 * k + 1) (by omega) hlt₁, Option.getD_some]
      · rename_i hlt₁
        rw [hnext]
        refine ih (h.pair hlt ?_) (by omega) (by omega)
        rw [List.getElem?_eq_none (by omega), Option.getD_none]
    · obtain rfl : k = (l.length + 1) / 2 := by omega
      exact ⟨rfl, h⟩

/-! ## All levels -/

structure Holds (rests : Nat → Rest dg) (l : List Blob) (nodes : Nat → MerkelNode dg) : Prop where
  kept : Rests nodes rests
  values : ∀ j < l.length, l[j]? = some (nodes j).hash.1

theorem Holds.hashLevel (h : Holds rests l nodes) :
    (MerkelTree.hashLevel l.length l.length 0 0 nodes).2 = (level (parentValue rests) 0 l).length ∧
      Holds rests (level (parentValue rests) 0 l) (MerkelTree.hashLevel l.length l.length 0 0 nodes).1 := by
  have hinv : LevelInv rests l 0 nodes := ⟨h.kept, nofun, fun j _ hj => h.values j hj⟩
  obtain ⟨hsize, hlevel⟩ := hashLevel_spec l.length hinv (Nat.zero_le _) (by omega)
  rw [length_level]
  refine ⟨hsize, hlevel.kept, fun j hj => ?_⟩
  rw [length_level] at hj
  exact hlevel.parents j hj

theorem Holds.hashLevels (fuel : Nat) (h : Holds rests l nodes) :
    Holds rests (reduce (parentValue rests) fuel l) (MerkelTree.hashLevels fuel l.length nodes) := by
  induction fuel generalizing l nodes with
  | zero => exact h
  | succ fuel ih =>
    unfold reduce MerkelTree.hashLevels
    split
    · obtain ⟨hsize, hlevel⟩ := h.hashLevel
      have hholds := ih hlevel
      rw [← hsize] at hholds
      exact hholds
    · exact h

theorem Holds.root (h : Holds rests l nodes) (hl : l ≠ []) :
    VProtocol.root (parentValue rests) l = some (MerkelTree.hashLevels l.length l.length nodes 0).hash.1 := by
  obtain ⟨a, ha, hred⟩ := root_isSome (f := parentValue rests) hl
  have hroot := (h.hashLevels l.length).values 0 (by rw [hred]; exact Nat.one_pos)
  rw [hred] at hroot
  rw [ha, ← hroot]
  rfl

end

/-! ## The leaves -/

section
variable {raw : Raw dg} {t t' : MerkelTree dg}

theorem inceaseNode_spec (h : t.inceaseNode raw = some t') (hn : t.curNum ≤ t.allocNum)
    (hfull : t.allocNum ≤ t.curNum) :
    t'.curNum = t.curNum ∧ t'.curNum < t'.allocNum ∧ ∀ i < t.curNum.toNat, (t'.nodes i).hash = (t.nodes i).hash := by
  unfold MerkelTree.inceaseNode at h
  simp only at h
  split at h
  · cases h
  · rename_i hroom
    obtain rfl := Option.some.inj h
    refine ⟨rfl, ?_, fun i hi => ?_⟩
    · -- the number of nodes did not wrap around, so it grew
      have hstep : (t.allocNum + merkelTreeNodeIncreaseStep).toNat = (t.allocNum.toNat + 256) % 2 ^ 32 :=
        UInt32.toNat_add _ _
      rw [UInt32.lt_iff_toNat_lt] at hroom ⊢
      rw [UInt32.le_iff_toNat_le] at hn hfull
      have := t.allocNum.toNat_lt
      simp only
      omega
    · simp only
      rw [if_pos hi]
      rfl

theorem addLeafNode_spec {data : Blob} (h : t.addLeafNode raw data = some t') (hn : t.curNum ≤ t.allocNum) :
    t'.curNum.toNat = t.curNum.toNat + 1 ∧ t'.curNum ≤ t'.allocNum ∧
      (∀ i < t.curNum.toNat, (t'.nodes i).hash = (t.nodes i).hash) ∧
      (t'.nodes t.curNum.toNat).hash.1.take dg.size = dg.hash data := by
  unfold MerkelTree.addLeafNode at h
  obtain ⟨u, hu, rfl⟩ := Option.map_eq_some_iff.mp h
  have hroom : u.curNum = t.curNum ∧ u.curNum < u.allocNum ∧
      ∀ i < t.curNum.toNat, (u.nodes i).hash = (t.nodes i).hash := by
    split at hu
    · rename_i hfull
      exact inceaseNode_spec hu hn hfull
    · rename_i hlt
      obtain rfl := Option.some.inj hu
      exact ⟨rfl, UInt32.not_le.mp hlt, fun _ _ => rfl⟩
  obtain ⟨hcur, hlt, hkept⟩ := hroom
  rw [UInt32.lt_iff_toNat_lt] at hlt
  have hsucc : (u.curNum + 1).toNat = u.curNum.toNat + 1 := by
    rw [UInt32.toNat_add, UInt32.toNat_one]
    have := u.allocNum.toNat_lt
    omega
  refine ⟨by rw [← hcur]; exact hsucc, ?_, fun i hi => ?_, ?_⟩
  · rw [UInt32.le_iff_toNat_le]
    simp only [hsucc]
    exact hlt
  · simp only
    rw [Function.update_of_ne (by rw [hcur]; exact Nat.ne_of_lt hi)]
    exact hkept i hi
  · simp only
    rw [← hcur, Function.update_self]
    exact List.take_left' (dg.length_hash data)

theorem addLeafNodes_spec {l : List Blob} (h : addLeafNodes raw t l = some t') (hn : t.curNum ≤ t.allocNum) :
    t'.curNum.toNat = t.curNum.toNat + l.length ∧
      (∀ i < t.curNum.toNat, (t'.nodes i).hash = (t.nodes i).hash) ∧
      ∀ j data, l[j]? = some data → (t'.nodes (t.curNum.toNat + j)).hash.1.take dg.size = dg.hash data := by
  induction l generalizing t with
  | nil =>
    obtain rfl := Option.some.inj h
    exact ⟨rfl, fun _ _ => rfl, nofun⟩
  | cons data l ih =>
    unfold addLeafNodes at h
    rw [List.foldlM_cons] at h
    obtain ⟨u, hu, h⟩ := Option.bind_eq_some_iff.mp h
    obtain ⟨hcur, hle, hkept, hleaf⟩ := addLeafNode_spec hu hn
    obtain ⟨hcur', hkept', hleaves⟩ := ih h hle
    refine ⟨by rw [hcur', hcur, List.length_cons]; omega, fun i hi => ?_, fun j x hx => ?_⟩
    · rw [hkept' i (by omega), hkept i hi]
    · cases j with
      | zero =>
        obtain rfl := Option.some.inj hx
        rw [Nat.add_zero, hkept' _ (by omega)]
        exact hleaf
      | succ j =>
        rw [show t.curNum.toNat + (j + 1) = u.curNum.toNat + j by omega]
        exact hleaves j x hx

/-! ## The root -/

def restsOf (nodes : Nat → MerkelNode dg) (i : Nat) : Rest dg := restOf (nodes i).hash

variable (raw t) in
def merkleTree (l : List Blob) : Option (HashTree dg) :=
  (addLeafNodes raw t.clear l).bind fun t' => HashTree.ofList (restsOf t'.nodes) l

theorem holds_leaves {l : List Blob} (h : addLeafNodes raw t.clear l = some t') :
    Holds (restsOf t'.nodes) ((l.mapIdx fun i data => HashTree.leaf data (restsOf t'.nodes i)).map HashTree.value)
      t'.nodes := by
  refine ⟨fun _ => rfl, fun j hj => ?_⟩
  rw [List.length_map, List.length_mapIdx] at hj
  obtain ⟨-, -, hleaves⟩ := addLeafNodes_spec h (UInt32.zero_le)
  have hleaf := hleaves j l[j] (List.getElem?_eq_getElem hj)
  rw [show t.clear.curNum.toNat + j = j from Nat.zero_add j] at hleaf
  rw [List.getElem?_map, List.getElem?_mapIdx, List.getElem?_eq_getElem hj, Option.map_some, Option.map_some,
    HashTree.value, ← hleaf]
  exact congrArg some (List.take_append_drop _ _)

/-- The in-place build refines the tree. -/
theorem build_root {l : List Blob} (h : addLeafNodes raw t.clear l = some t') (hl : l ≠ []) :
    ∃ T, merkleTree raw t l = some T ∧ t'.buildMerkleTree.1.getRoot.1 = T.value := by
  have hholds := holds_leaves h
  have hcur : t'.curNum.toNat = l.length := by
    rw [(addLeafNodes_spec h (UInt32.zero_le)).1]
    exact Nat.zero_add _
  have hpos : t'.curNum ≠ 0 := by
    intro h0
    rw [h0] at hcur
    exact hl (List.length_eq_zero_iff.mp hcur.symm)
  have hroot := hholds.root (by simpa using hl)
  rw [root_map (f := fun i left right => HashTree.node left right (restsOf t'.nodes i)) HashTree.value
    (fun _ _ _ => rfl)] at hroot
  obtain ⟨T, hT, hval⟩ := Option.map_eq_some_iff.mp hroot
  refine ⟨T, by rw [merkleTree, h]; exact hT, ?_⟩
  unfold MerkelTree.buildMerkleTree
  rw [if_neg hpos, hval]
  simp only [List.length_map, List.length_mapIdx, hcur]
  rfl

/-! ## Blocks -/

theorem caculateMerkelTree_root {b b' : BcBlock dg} {code : Int} (h : b.caculateMerkelTree raw t = some (t', b', code))
    (hb : b.vecTransaction ≠ []) :
    ∃ T, merkleTree raw t b.vecTransaction = some T ∧ b'.header.merkelTreeRootHash.1 = T.value := by
  obtain ⟨u, hu, h⟩ := Option.bind_eq_some_iff.mp h
  obtain ⟨T, hT, hroot⟩ := build_root hu hb
  obtain ⟨-, h⟩ := Prod.mk.inj (Option.some.inj h)
  obtain ⟨rfl, -⟩ := Prod.mk.inj h
  exact ⟨T, hT, hroot⟩

theorem checkMerkelTree_root {b : BcBlock dg} (h : b.checkMerkelTree raw t = some (t', 0))
    (hb : b.vecTransaction ≠ []) :
    ∃ T, merkleTree raw t b.vecTransaction = some T ∧ b.header.merkelTreeRootHash.1 = T.value := by
  obtain ⟨u, hu, h⟩ := Option.bind_eq_some_iff.mp h
  obtain ⟨T, hT, hroot⟩ := build_root hu hb
  obtain ⟨-, h⟩ := Prod.mk.inj (Option.some.inj h)
  refine ⟨T, hT, ?_⟩
  split at h
  · rename_i heq
    rw [← heq, hroot]
  · cases h

end

end VProtocol.Merkle
