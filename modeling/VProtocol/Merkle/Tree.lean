import Mathlib.Logic.Function.Basic
import VProtocol.Common.Types

/-!
# The Merkle tree of a block

`CMerkelTree` builds the tree in the array of its leaves: a level overwrites the front
of the level below it, and the second half of a node is the space where the input of
its parent's digest is put together. `CBcBlock` fills the root of its header from its
transactions, or checks it.
-/

namespace VProtocol.Merkle

open Function (update)

/-! ## Digests -/

/-- `vbhDigest` of a build, in buffers of `VBH_BLOCK_DIGEST_LENGTH` bytes. It writes `size`
bytes: SHA256 fills the buffer of the default build, SM3 one half of the other's. -/
structure Digest where
  length : Nat
  size : Nat
  size_le : size ≤ length
  hash : Blob → Blob
  length_hash : ∀ data, (hash data).length = size

abbrev HashBuffer (dg : Digest) := { b : Blob // b.length = dg.length }

variable {dg : Digest}

/-- The bytes of the buffer that the digest does not write stay. -/
def vbhDigest (data : Blob) (digest : HashBuffer dg) : HashBuffer dg :=
  ⟨dg.hash data ++ digest.1.drop dg.size, by
    have := dg.size_le
    rw [List.length_append, dg.length_hash, List.length_drop, digest.2]
    omega⟩

/-! ## Nodes -/

/-- `CMerkelNode`: the two halves of `m_valueBuffer`. -/
structure MerkelNode (dg : Digest) where
  hash : HashBuffer dg
  scratch : HashBuffer dg

def MerkelNode.assign (node value : MerkelNode dg) : MerkelNode dg := { node with hash := value.hash }

def MerkelNode.setOriginalData (data : Blob) (node : MerkelNode dg) : MerkelNode dg :=
  { node with hash := vbhDigest data node.hash }

/-! ## The tree -/

def merkelTreeInitNodeCount : UInt32 := 1024
def merkelTreeNodeIncreaseStep : UInt32 := 256

structure MerkelTree (dg : Digest) where
  nodes : Nat → MerkelNode dg
  allocNum : UInt32
  curNum : UInt32

/-- What an array of a number of nodes holds when it is allocated. -/
abbrev Raw (dg : Digest) := UInt32 → Nat → MerkelNode dg

namespace MerkelTree

def create (raw : Raw dg) : MerkelTree dg where
  nodes := raw merkelTreeInitNodeCount
  allocNum := merkelTreeInitNodeCount
  curNum := 0

def clear (t : MerkelTree dg) : MerkelTree dg := { t with curNum := 0 }

def getRoot (t : MerkelTree dg) : HashBuffer dg := (t.nodes 0).hash

/-- There is no tree when the number of nodes wraps around and the copy goes past the new array. -/
def inceaseNode (raw : Raw dg) (t : MerkelTree dg) : Option (MerkelTree dg) :=
  let allocNum := t.allocNum + merkelTreeNodeIncreaseStep
  if allocNum < t.curNum then none
  else some
    { t with
      nodes := fun i => if i < t.curNum.toNat then (raw allocNum i).assign (t.nodes i) else raw allocNum i
      allocNum := allocNum }

def addLeafNode (raw : Raw dg) (t : MerkelTree dg) (originalData : Blob) : Option (MerkelTree dg) :=
  (if t.allocNum ≤ t.curNum then t.inceaseNode raw else some t).map fun t =>
    { t with
      nodes := update t.nodes t.curNum.toNat ((t.nodes t.curNum.toNat).setOriginalData originalData)
      curNum := t.curNum + 1 }

/-- The left hash is put behind the right one, and the parent may be one of the two. -/
def calculateHashValue (nodes : Nat → MerkelNode dg) (left right parent : Nat) : Nat → MerkelNode dg :=
  let nodes := update nodes right { nodes right with scratch := (nodes left).hash }
  update nodes parent
    { nodes parent with
      hash := vbhDigest ((nodes right).hash.1 ++ (nodes right).scratch.1) (nodes parent).hash }

/-- One level, up to the last pair. The array never holds more than `2 ^ 32 - 256` nodes, so `idx` does not wrap. -/
def hashLevel (curSize : Nat) : Nat → Nat → Nat → (Nat → MerkelNode dg) → (Nat → MerkelNode dg) × Nat
  | 0, _, newSize, nodes => (nodes, newSize)
  | fuel + 1, idx, newSize, nodes =>
    if idx < curSize then
      let nodes :=
        if idx + 1 < curSize then calculateHashValue nodes idx (idx + 1) newSize
        else calculateHashValue nodes idx idx newSize
      hashLevel curSize fuel (idx + 2) (newSize + 1) nodes
    else (nodes, newSize)

def hashLevels : Nat → Nat → (Nat → MerkelNode dg) → Nat → MerkelNode dg
  | 0, _, nodes => nodes
  | fuel + 1, curSize, nodes =>
    if 1 < curSize then
      let r := hashLevel curSize curSize 0 0 nodes
      hashLevels fuel r.2 r.1
    else nodes

def buildMerkleTree (t : MerkelTree dg) : MerkelTree dg × Int :=
  if t.curNum = 0 then (t, -1)
  else ({ t with nodes := hashLevels t.curNum.toNat t.curNum.toNat t.nodes }, 0)

end MerkelTree

/-! ## Blocks -/

structure BcBlockHeader (dg : Digest) where
  orderID : UInt16
  blockID : UInt64
  blockTime : UInt64
  preBlockHash : HashBuffer dg
  merkelTreeRootHash : HashBuffer dg

structure BcBlock (dg : Digest) where
  header : BcBlockHeader dg
  vecTransaction : List Blob

def addLeafNodes (raw : Raw dg) (t : MerkelTree dg) (vecTransaction : List Blob) : Option (MerkelTree dg) :=
  vecTransaction.foldlM (MerkelTree.addLeafNode raw) t

namespace BcBlock

def caculateMerkelTree (raw : Raw dg) (merkelTree : MerkelTree dg) (b : BcBlock dg) :
    Option (MerkelTree dg × BcBlock dg × Int) := do
  let merkelTree ← addLeafNodes raw merkelTree.clear b.vecTransaction
  -- the result of `BuildMerkleTree` is not looked at
  let merkelTree := merkelTree.buildMerkleTree.1
  some (merkelTree, { b with header := { b.header with merkelTreeRootHash := merkelTree.getRoot } }, 0)

def checkMerkelTree (raw : Raw dg) (merkelTree : MerkelTree dg) (b : BcBlock dg) : Option (MerkelTree dg × Int) := do
  let merkelTree ← addLeafNodes raw merkelTree.clear b.vecTransaction
  let merkelTree := merkelTree.buildMerkleTree.1
  some (merkelTree, if merkelTree.getRoot = b.header.merkelTreeRootHash then 0 else -1)

end BcBlock

end VProtocol.Merkle
