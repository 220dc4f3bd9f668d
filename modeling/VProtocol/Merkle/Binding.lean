import VProtocol.Merkle.Build

/-!
# What a root binds

Without collisions two trees with one value are the same, but for a leaf of twice the
digest's length that is made of the two buffers below a node of the other: leaves and
nodes are hashed alike, and the header does not count the transactions. Nor does a tree
tell its last leaf from a copy of it that makes an odd level even.
-/

namespace VProtocol.Merkle

variable {dg : Digest}

def CollisionFree (dg : Digest) (l : List Blob) : Prop := ∀ x ∈ l, ∀ y ∈ l, dg.hash x = dg.hash y → x = y

instance (dg : Digest) (l : List Blob) : Decidable (CollisionFree dg l) := by
  delta CollisionFree; infer_instance

theorem CollisionFree.mono {l l' : List Blob} (h : CollisionFree dg l) (hl : l' ⊆ l) : CollisionFree dg l' :=
  fun x hx y hy => h x (hl hx) y (hl hy)

/-! ## Trees with one value -/

/-- Equal up to a leaf in the place of a node, which is the input of the node's digest. -/
inductive Alike : HashTree dg → HashTree dg → Prop
  | leaf {data rest} : Alike (.leaf data rest) (.leaf data rest)
  | node {left right left' right' rest} : Alike left left' → Alike right right' →
      Alike (.node left right rest) (.node left' right' rest)
  | leafNode {left right rest} : Alike (.leaf (right.value ++ left.value) rest) (.node left right rest)
  | nodeLeaf {left right rest} : Alike (.node left right rest) (.leaf (right.value ++ left.value) rest)

theorem buffer_inj {x y : Blob} {rest rest' : Rest dg} {l : List Blob} (hl : CollisionFree dg l)
    (hx : x ∈ l) (hy : y ∈ l)
    (h : dg.hash x ++ rest.1 = dg.hash y ++ rest'.1) : x = y ∧ rest = rest' := by
  obtain ⟨hhash, hrest⟩ := List.append_inj h (by rw [dg.length_hash, dg.length_hash])
  exact ⟨hl x hx y hy hhash, Subtype.ext hrest⟩

theorem HashTree.alike :
    ∀ {T T' : HashTree dg}, CollisionFree dg (T.inputs ++ T'.inputs) → T.value = T'.value → Alike T T'
  | leaf x rest, leaf y rest', hl, h => by
    obtain ⟨rfl, rfl⟩ := buffer_inj hl (by simp [inputs]) (by simp [inputs]) h
    exact .leaf
  | leaf x rest, node left right rest', hl, h => by
    obtain ⟨rfl, rfl⟩ := buffer_inj hl (by simp [inputs]) (by simp [inputs]) h
    exact .leafNode
  | node left right rest, leaf y rest', hl, h => by
    obtain ⟨hxy, rfl⟩ := buffer_inj hl (by simp [inputs]) (by simp [inputs]) h
    rw [← hxy]
    exact .nodeLeaf
  | node left right rest, node left' right' rest', hl, h => by
    obtain ⟨hxy, rfl⟩ := buffer_inj hl (by simp [inputs]) (by simp [inputs]) h
    obtain ⟨hright, hleft⟩ := List.append_inj hxy (by rw [length_value, length_value])
    refine .node (alike (hl.mono ?_) hleft) (alike (hl.mono ?_) hright)
    · intro x hx
      simp only [inputs, List.mem_append, List.mem_cons] at hx ⊢
      tauto
    · intro x hx
      simp only [inputs, List.mem_append, List.mem_cons] at hx ⊢
      tauto

theorem Alike.eq_of_leaves {T T' : HashTree dg} (h : Alike T T') (hT : ∀ x ∈ T.leaves, x.length ≠ 2 * dg.length)
    (hT' : ∀ x ∈ T'.leaves, x.length ≠ 2 * dg.length) : T' = T := by
  have hlen : ∀ left right : HashTree dg, (right.value ++ left.value).length = 2 * dg.length := by
    intro left right
    rw [List.length_append, HashTree.length_value, HashTree.length_value, Nat.two_mul]
  induction h with
  | leaf => rfl
  | node _ _ ihl ihr =>
    simp only [HashTree.leaves, List.mem_append] at hT hT'
    rw [ihl (fun x hx => hT x (.inl hx)) (fun x hx => hT' x (.inl hx)),
      ihr (fun x hx => hT x (.inr hx)) (fun x hx => hT' x (.inr hx))]
  | leafNode => exact absurd (hlen _ _) (hT _ List.mem_cons_self)
  | nodeLeaf => exact absurd (hlen _ _) (hT' _ List.mem_cons_self)

/-! ## Trees of one shape -/

def HashTree.Full : Nat → HashTree dg → Prop
  | 0, leaf _ _ => True
  | n + 1, node left right _ => left.Full n ∧ right.Full n
  | _, _ => False

theorem Alike.eq_of_full {T T' : HashTree dg} (h : Alike T T') {n : Nat} (hT : T.Full n)
    (hT' : T'.Full n) : T' = T := by
  induction h generalizing n with
  | leaf => rfl
  | node _ _ ihl ihr =>
    cases n with
    | zero => exact hT.elim
    | succ n => rw [ihl hT.1 hT'.1, ihr hT.2 hT'.2]
  | leafNode =>
    cases n with
    | zero => exact hT'.elim
    | succ n => exact hT.elim
  | nodeLeaf =>
    cases n with
    | zero => exact hT.elim
    | succ n => exact hT'.elim

/-! ## The lists under a tree -/

section
variable {rests rests' : Nat → Rest dg} {l l' : List Blob} {T : HashTree dg}

theorem flatMap_leaves (rests : Nat → Rest dg) (l : List Blob) :
    (l.mapIdx fun i data => HashTree.leaf data (rests i)).flatMap HashTree.leaves = l := by
  induction l generalizing rests with
  | nil => rfl
  | cons data l ih =>
    rw [List.mapIdx_cons, List.flatMap_cons, ih fun i => rests (i + 1)]
    rfl

theorem reduce_ofList (h : HashTree.ofList rests l = some T) :
    reduce (fun i left right => HashTree.node left right (rests i)) l.length
      (l.mapIdx fun i data => HashTree.leaf data (rests i)) = [T] := by
  have hl : (l.mapIdx fun i data => HashTree.leaf data (rests i)) ≠ [] := by
    intro hnil
    unfold HashTree.ofList at h
    rw [hnil] at h
    cases h
  obtain ⟨T', hT', hred⟩ := root_isSome (f := fun i left right => HashTree.node left right (rests i)) hl
  rw [List.length_mapIdx] at hred
  obtain rfl := Option.some.inj (hT'.symm.trans h)
  exact hred

theorem ofList_full (h : HashTree.ofList rests l = some T) : T.Full (height l.length l.length) := by
  have hred := reduce_forall (f := fun i left right => HashTree.node left right (rests i)) (P := HashTree.Full)
    (fun _ _ _ _ ha hb => ⟨ha, hb⟩) (k := 0) (n := l.length)
    (l := l.mapIdx fun i data => HashTree.leaf data (rests i)) (by
      intro a ha
      obtain ⟨i, hi, rfl⟩ := List.mem_mapIdx.mp ha
      trivial)
  rw [reduce_ofList h, List.length_mapIdx, Nat.zero_add] at hred
  exact hred T List.mem_cons_self

theorem ofList_inj (h : HashTree.ofList rests l = some T) (h' : HashTree.ofList rests' l' = some T)
    (hl : l'.length = l.length) : l' = l := by
  have hred := (reduce_ofList h').trans (reduce_ofList h).symm
  rw [hl] at hred
  have hleaves := reduce_inj (by intro i a b a' b' hab; injection hab with hl hr; exact ⟨hl, hr⟩)
    (by rw [List.length_mapIdx, List.length_mapIdx, hl]) hred
  have := congrArg (List.flatMap HashTree.leaves) hleaves
  rwa [flatMap_leaves, flatMap_leaves] at this

theorem prefix_leaves (h : HashTree.ofList rests l = some T) : l <+: T.leaves := by
  have hpre := flatMap_reduce (f := fun i left right => HashTree.node left right (rests i)) HashTree.leaves
    (fun _ _ _ => rfl) l.length (l.mapIdx fun i data => HashTree.leaf data (rests i))
  rw [reduce_ofList h, flatMap_leaves] at hpre
  simpa using hpre

theorem leaves_subset (h : HashTree.ofList rests l = some T) : ∀ x ∈ T.leaves, x ∈ l := by
  have hred := reduce_forall (f := fun i left right => HashTree.node left right (rests i))
    (P := fun _ T => ∀ x ∈ T.leaves, x ∈ l)
    (fun _ _ _ _ ha hb x hx => (List.mem_append.mp hx).elim (ha x) (hb x)) (k := 0) (n := l.length)
    (l := l.mapIdx fun i data => HashTree.leaf data (rests i)) (by
      intro a ha x hx
      obtain ⟨i, hi, rfl⟩ := List.mem_mapIdx.mp ha
      rw [List.mem_singleton.mp hx]
      exact List.getElem_mem hi)
  rw [reduce_ofList h] at hred
  exact hred T List.mem_cons_self

end

/-! ## Blocks -/

section
variable (raw raw' : Raw dg) (t t' : MerkelTree dg)

/-- What the digest is given when the tree over `l` is built. -/
def digestInputs (l : List Blob) : List Blob := ((merkleTree raw t l).map HashTree.inputs).getD []

/-- What `CheckMerkelTree` returns for the transactions `l'` under the header that
`CaculateMerkelTree` filled for `b`. -/
def checkFilled (b : BcBlock dg) (l' : List Blob) : Option Int := do
  let filled ← b.caculateMerkelTree raw t
  let checked ← BcBlock.checkMerkelTree raw' t' { filled.2.1 with vecTransaction := l' }
  some checked.2

variable {raw raw' t t'}

/-- An accepted list of the same length is the list that was filled in; one of another
length has a tree that is alike, and without transactions of the length of two buffers
it has the same tree and is a prefix or a continuation. -/
theorem merkle_binding {b : BcBlock dg} {l' : List Blob} (hb : b.vecTransaction ≠ []) (hl' : l' ≠ [])
    (hfree : CollisionFree dg (digestInputs raw t b.vecTransaction ++ digestInputs raw' t' l'))
    (h : checkFilled raw raw' t t' b l' = some 0) :
    l' = b.vecTransaction ∨ l'.length ≠ b.vecTransaction.length ∧
      ∃ T T', merkleTree raw t b.vecTransaction = some T ∧ merkleTree raw' t' l' = some T' ∧ Alike T T' ∧
        ((∀ x ∈ b.vecTransaction ++ l', x.length ≠ 2 * dg.length) →
          T' = T ∧ (l' <+: b.vecTransaction ∨ b.vecTransaction <+: l')) := by
  obtain ⟨⟨u, b', code⟩, hcalc, h⟩ := Option.bind_eq_some_iff.mp h
  obtain ⟨⟨u', ret⟩, hcheck, hret⟩ := Option.bind_eq_some_iff.mp h
  obtain rfl : ret = 0 := Option.some.inj hret
  obtain ⟨T, hT, hroot⟩ := caculateMerkelTree_root hcalc hb
  obtain ⟨T', hT', hroot'⟩ := checkMerkelTree_root hcheck hl'
  unfold digestInputs at hfree
  rw [hT, hT'] at hfree
  have halike : Alike T T' := HashTree.alike hfree (hroot.symm.trans hroot')
  obtain ⟨v, hv, hof⟩ := Option.bind_eq_some_iff.mp hT
  obtain ⟨v', hv', hof'⟩ := Option.bind_eq_some_iff.mp hT'
  by_cases hlen : l'.length = b.vecTransaction.length
  · left
    have hfull := ofList_full hof'
    rw [hlen] at hfull
    obtain rfl := halike.eq_of_full (ofList_full hof) hfull
    exact ofList_inj hof hof' hlen
  · refine .inr ⟨hlen, T, T', hT, hT', halike, fun hno => ?_⟩
    obtain rfl := halike.eq_of_leaves (fun x hx => hno x (List.mem_append_left _ (leaves_subset hof x hx)))
      (fun x hx => hno x (List.mem_append_right _ (leaves_subset hof' x hx)))
    exact ⟨rfl, List.prefix_or_prefix_of_prefix (prefix_leaves hof') (prefix_leaves hof)⟩

end

/-! ## Blocks with one root -/

/-- A digest of 32 bytes that reads its input as a number. -/
def weigh (data : Blob) : Blob :=
  let n := data.foldl (fun n b => 257 * n + b.toNat + 1) 0
  (List.range 32).map fun i => UInt8.ofNat (n / 256 ^ i)

def fullDigest : Digest where
  length := 32
  size := 32
  size_le := Nat.le_refl _
  hash := weigh
  length_hash _ := by simp [weigh]

def zeroBuffer : HashBuffer fullDigest := ⟨List.replicate 32 0, List.length_replicate⟩

def zeroRaw : Raw fullDigest := fun _ _ => ⟨zeroBuffer, zeroBuffer⟩

def zeroTree : MerkelTree fullDigest := .create zeroRaw

def blockOf (l : List Blob) : BcBlock fullDigest := ⟨⟨1, 1, 0, zeroBuffer, zeroBuffer⟩, l⟩

/-- A block of three transactions is accepted with the last of them twice, and a block of
two with the one that is the input of the root's digest. -/
theorem merkle_unbound : (¬∀ (dg : Digest) (raw raw' : Raw dg) (t t' : MerkelTree dg) (b : BcBlock dg) (l' : List Blob),
      b.vecTransaction ≠ [] → l' ≠ [] →
        CollisionFree dg (digestInputs raw t b.vecTransaction ++ digestInputs raw' t' l') →
        checkFilled raw raw' t t' b l' = some 0 → l' = b.vecTransaction) ∧
    ∃ l', ¬l' <+: [[1], [2]] ∧ ¬[[1], [2]] <+: l' ∧
      CollisionFree fullDigest (digestInputs zeroRaw zeroTree [[1], [2]] ++ digestInputs zeroRaw zeroTree l') ∧
      checkFilled zeroRaw zeroRaw zeroTree zeroTree (blockOf [[1], [2]]) l' = some 0 := by
  constructor
  · intro hall
    have h := hall fullDigest zeroRaw zeroRaw zeroTree zeroTree (blockOf [[1], [2], [3]]) [[1], [2], [3], [3]]
      (by decide) (by decide) (by decide +kernel) (by decide +kernel)
    exact absurd h (by decide)
  · exact ⟨[weigh [2] ++ weigh [1]], by decide +kernel, by decide +kernel, by decide +kernel, by decide +kernel⟩

theorem merkle_binding_three : ∃ T, merkleTree zeroRaw zeroTree [[1], [2], [3]] = some T ∧
    merkleTree zeroRaw zeroTree [[1], [2], [3], [3]] = some T := by
  have hfill : checkFilled zeroRaw zeroRaw zeroTree zeroTree (blockOf [[1], [2], [3]])
      [[1], [2], [3], [3]] = some 0 := by decide +kernel
  have h := merkle_binding (by decide) (by decide) (by decide +kernel) hfill
  rcases h with heq | ⟨-, T, T', hT, hT', -, hsame⟩
  · exact absurd heq (by decide)
  · obtain ⟨rfl, -⟩ := hsame (by decide)
    exact ⟨T', hT, hT'⟩

end VProtocol.Merkle
