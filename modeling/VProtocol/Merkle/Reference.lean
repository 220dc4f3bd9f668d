import VProtocol.Merkle.Binding

/-!
# The reference tree

A tree object takes leaves as long as the number of its nodes fits in 32 bits, whatever it
was used for before. With a digest that fills its buffer the root is then the one of the
tree that is built level by level over the digests of the leaves.
-/

namespace VProtocol.Merkle

variable {dg : Digest}

/-- The root of the tree over a list of leaves; the last of an odd level is paired with itself. -/
def referenceRoot (dg : Digest) (l : List Blob) : Option Blob :=
  root (fun _ left right => dg.hash (right ++ left)) (l.map dg.hash)

/-! ## Any use of a tree object -/

inductive Used : MerkelTree dg → Prop
  | create (raw) : Used (.create raw)
  | clear {t} : Used t → Used t.clear
  | addLeafNode {t t'} (raw data) : Used t → t.addLeafNode raw data = some t' → Used t'
  | buildMerkleTree {t} : Used t → Used t.buildMerkleTree.1

/-- The array grows in steps and never holds more than it has room for. -/
structure Sized (t : MerkelTree dg) : Prop where
  step : t.allocNum.toNat % 256 = 0
  room : t.curNum ≤ t.allocNum
  pos : 0 < t.allocNum.toNat

/-- The largest number of nodes the array can have. -/
def maxNodeCount : Nat := 2 ^ 32 - 256

section
variable {raw : Raw dg} {t t' : MerkelTree dg} {data : Blob} {l : List Blob}

theorem curNum_clear (t : MerkelTree dg) : t.clear.curNum.toNat = 0 := rfl

theorem Sized.clear (h : Sized t) : Sized t.clear := ⟨h.step, UInt32.zero_le, h.pos⟩

theorem Sized.curNum_le (h : Sized t) : t.curNum.toNat ≤ maxNodeCount := by
  have hroom := UInt32.le_iff_toNat_le.mp h.room
  have hstep := h.step
  have hlt := t.allocNum.toNat_lt
  unfold maxNodeCount
  omega

theorem toNat_allocNum_add (t : MerkelTree dg) :
    (t.allocNum + merkelTreeNodeIncreaseStep).toNat = (t.allocNum.toNat + 256) % 2 ^ 32 := UInt32.toNat_add _ _

theorem inceaseNode_iff (h : Sized t) (hfull : t.allocNum ≤ t.curNum) :
    (t.inceaseNode raw).isSome ↔ t.curNum.toNat < maxNodeCount := by
  have hroom := UInt32.le_iff_toNat_le.mp h.room
  have hfull := UInt32.le_iff_toNat_le.mp hfull
  have hstep := h.step
  have hpos := h.pos
  have hlt := t.allocNum.toNat_lt
  unfold MerkelTree.inceaseNode maxNodeCount
  simp only
  split
  · rename_i hwrap
    rw [UInt32.lt_iff_toNat_lt, toNat_allocNum_add] at hwrap
    simp only [Option.isSome_none, Bool.false_eq_true, false_iff]
    omega
  · rename_i hwrap
    rw [UInt32.lt_iff_toNat_lt, toNat_allocNum_add] at hwrap
    simp only [Option.isSome_some, true_iff]
    omega

theorem inceaseNode_sized (h : Sized t) (hfull : t.allocNum ≤ t.curNum) (hi : t.inceaseNode raw = some t') :
    Sized t' := by
  have hroom := inceaseNode_spec hi h.room hfull
  unfold MerkelTree.inceaseNode at hi
  simp only at hi
  split at hi
  · cases hi
  · obtain rfl := Option.some.inj hi
    have hstep := h.step
    refine ⟨?_, UInt32.le_of_lt hroom.2.1, ?_⟩
    · simp only [toNat_allocNum_add]
      omega
    · have hlt := UInt32.lt_iff_toNat_lt.mp hroom.2.1
      exact Nat.lt_of_le_of_lt (Nat.zero_le _) hlt

theorem addLeafNode_iff (h : Sized t) : (t.addLeafNode raw data).isSome ↔ t.curNum.toNat < maxNodeCount := by
  unfold MerkelTree.addLeafNode
  rw [Option.isSome_map]
  split
  · rename_i hfull
    exact inceaseNode_iff h hfull
  · rename_i hlt
    rw [UInt32.not_le, UInt32.lt_iff_toNat_lt] at hlt
    have hstep := h.step
    have hsize := t.allocNum.toNat_lt
    unfold maxNodeCount
    simp only [Option.isSome_some, true_iff]
    omega

theorem addLeafNode_sized (h : Sized t) (ha : t.addLeafNode raw data = some t') : Sized t' := by
  obtain ⟨-, hroom, -, -⟩ := addLeafNode_spec ha h.room
  unfold MerkelTree.addLeafNode at ha
  obtain ⟨u, hu, rfl⟩ := Option.map_eq_some_iff.mp ha
  have hsized : Sized u := by
    split at hu
    · exact inceaseNode_sized h ‹_› hu
    · obtain rfl := Option.some.inj hu
      exact h
  exact ⟨hsized.step, hroom, hsized.pos⟩

theorem Used.sized (h : Used t) : Sized t := by
  induction h with
  | create raw =>
    have hinit : merkelTreeInitNodeCount.toNat = 1024 := rfl
    exact ⟨by simp [MerkelTree.create, hinit], UInt32.zero_le, by simp [MerkelTree.create, hinit]⟩
  | clear _ ih => exact ih.clear
  | addLeafNode raw data _ ha ih => exact addLeafNode_sized ih ha
  | buildMerkleTree _ ih =>
    unfold MerkelTree.buildMerkleTree
    split
    · exact ih
    · exact ⟨ih.step, ih.room, ih.pos⟩

/-- The leaves of a list fit exactly as long as their number does. -/
theorem addLeafNodes_iff (h : Sized t) :
    (addLeafNodes raw t l).isSome ↔ t.curNum.toNat + l.length ≤ maxNodeCount := by
  induction l generalizing t with
  | nil =>
    have hle := h.curNum_le
    unfold addLeafNodes
    simpa using hle
  | cons data l ih =>
    unfold addLeafNodes
    rw [List.foldlM_cons, List.length_cons]
    cases ha : t.addLeafNode raw data with
    | none =>
      have hnot : ¬t.curNum.toNat < maxNodeCount := by
        intro hlt
        have hsome : (t.addLeafNode raw data).isSome := (addLeafNode_iff h).mpr hlt
        rw [ha] at hsome
        cases hsome
      change (none : Option (MerkelTree dg)).isSome = true ↔ _
      simp only [Option.isSome_none, Bool.false_eq_true, false_iff]
      omega
    | some u =>
      have hcur := (addLeafNode_spec ha h.room).1
      have hu := ih (addLeafNode_sized h ha)
      rw [hcur] at hu
      have hshift : t.curNum.toNat + (l.length + 1) = t.curNum.toNat + 1 + l.length := by omega
      rw [hshift, ← hu]
      rfl

/-! ## The root -/

theorem ofList_reference {rests : Nat → Rest dg} {T : HashTree dg} (hs : dg.size = dg.length)
    (hT : HashTree.ofList rests l = some T) : referenceRoot dg l = some T.value := by
  have hrest : ∀ i, (rests i).1 = [] := by
    intro i
    have hlen := (rests i).2
    exact List.length_eq_zero_iff.mp (by omega)
  have hmap := root_map (f := fun i left right => HashTree.node left right (rests i))
    (h := fun _ left right => dg.hash (right ++ left)) HashTree.value
    (fun i left right => by simp [HashTree.value, hrest])
    (l.mapIdx fun i data => HashTree.leaf data (rests i))
  have hleaves : (l.mapIdx fun i data => HashTree.leaf data (rests i)).map HashTree.value = l.map dg.hash := by
    apply List.ext_getElem
    · simp
    · intro i hi hi'
      simp [HashTree.value, hrest]
  rw [hleaves, show root _ _ = some T from hT] at hmap
  exact hmap

variable (raw) in
/-- The build in the array gives the root of the reference tree, after any use of the object. -/
theorem build_refines (hs : dg.size = dg.length) (hu : Used t) (hl : l ≠ []) (hn : l.length ≤ maxNodeCount) :
    ∃ t₁ t₂, addLeafNodes raw t.clear l = some t₁ ∧ t₁.buildMerkleTree = (t₂, 0) ∧
      referenceRoot dg l = some t₂.getRoot.1 := by
  have hfit : (addLeafNodes raw t.clear l).isSome := by
    rw [addLeafNodes_iff hu.sized.clear, curNum_clear, Nat.zero_add]
    exact hn
  obtain ⟨t₁, ht₁⟩ := Option.isSome_iff_exists.mp hfit
  obtain ⟨T, hT, hroot⟩ := build_root ht₁ hl
  rw [merkleTree, ht₁] at hT
  refine ⟨t₁, t₁.buildMerkleTree.1, ht₁, ?_, by rw [hroot]; exact ofList_reference hs hT⟩
  have hcur : t₁.curNum ≠ 0 := by
    intro h0
    have hlen := (addLeafNodes_spec ht₁ UInt32.zero_le).1
    rw [h0] at hlen
    have hpos := List.length_pos_of_ne_nil hl
    rw [curNum_clear, Nat.zero_add, UInt32.toNat_zero] at hlen
    omega
  unfold MerkelTree.buildMerkleTree
  rw [if_neg hcur]

end

/-! ## Too many leaves -/

/-- With one leaf more than the array can have nodes, the copy goes past the new array. -/
theorem build_overflows : ¬∀ (dg : Digest) (raw : Raw dg) (t : MerkelTree dg) (l : List Blob), dg.size = dg.length →
    Used t → l ≠ [] → ∃ t₁ t₂, addLeafNodes raw t.clear l = some t₁ ∧ t₁.buildMerkleTree = (t₂, 0) ∧
      referenceRoot dg l = some t₂.getRoot.1 := by
  intro hall
  let l : List Blob := List.replicate (maxNodeCount + 1) []
  have hlen : l.length = maxNodeCount + 1 := List.length_replicate
  obtain ⟨t₁, t₂, h, -, -⟩ := hall fullDigest zeroRaw zeroTree l rfl (.create zeroRaw)
    (List.ne_nil_of_length_pos (by omega))
  have hfit := (addLeafNodes_iff (Used.create zeroRaw).sized.clear).mp (Option.isSome_of_mem h)
  rw [curNum_clear, hlen] at hfit
  omega

theorem build_refines_three : ∃ t₁ t₂, addLeafNodes zeroRaw zeroTree.clear [[1], [2], [3]] = some t₁ ∧
    t₁.buildMerkleTree = (t₂, 0) ∧
      t₂.getRoot.1 = fullDigest.hash (fullDigest.hash (fullDigest.hash [3] ++ fullDigest.hash [3]) ++
        fullDigest.hash (fullDigest.hash [2] ++ fullDigest.hash [1])) := by
  obtain ⟨t₁, t₂, h, hb, hroot⟩ := build_refines zeroRaw rfl (.create zeroRaw)
    (List.cons_ne_nil [1] [[2], [3]]) (by decide)
  refine ⟨t₁, t₂, h, hb, ?_⟩
  simp only [referenceRoot, root, reduce, level, List.map_cons, List.map_nil, List.length_cons, List.length_nil,
    List.head?_cons, Nat.reduceAdd, Nat.reduceLT, if_true, if_false, Option.some.injEq] at hroot
  exact hroot.symm

end VProtocol.Merkle
