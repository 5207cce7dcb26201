import LedgerNode.Bytes.Basic
import LedgerNode.Digest.Keccak

/-!
# SHA3-256

A sponge over the Keccak permutation: input bytes are added to the first 136 bytes of the state,
which is permuted each time they are full; the digest is the first 32 bytes of the state after the
padding has been added.

- `Hasher`: a hash computation under way.
- `Hasher.absorb`: feeds bytes; only their concatenation matters (`Hasher.absorb_append`).
- `Hasher.finish`: the 32 digest bytes (`Hasher.length_finish`).
-/

namespace LedgerNode.Digest

/-- How many bytes the sponge takes in between two permutations. -/
def rate : Nat := 136

/-- A hash computation under way. -/
structure Hasher where
  /-- The state of the sponge. -/
  lanes : Lanes := Vector.replicate 25 0
  /-- How many bytes have been added since the last permutation. -/
  filled : Nat := 0

namespace Hasher

/-- Adds a byte to the state at a byte offset. -/
def addByte (lanes : Lanes) (offset : Nat) (b : UInt8) : Lanes :=
  let i := offset / 8
  lanes.setIfInBounds i (lanes.getD i 0 ^^^ (b.toUInt64 <<< UInt64.ofNat (8 * (offset % 8))))

/-- Takes in one byte. -/
def absorbByte (h : Hasher) (b : UInt8) : Hasher :=
  let lanes := addByte h.lanes h.filled b
  if h.filled + 1 = rate then ⟨lanes.permute, 0⟩ else ⟨lanes, h.filled + 1⟩

/-- Takes in a byte string. -/
def absorb (h : Hasher) (bs : Bytes) : Hasher :=
  bs.foldl absorbByte h

@[simp] theorem absorb_nil (h : Hasher) : h.absorb [] = h := rfl

/-- Feeding two byte strings in turn is feeding their concatenation. -/
theorem absorb_append (h : Hasher) (bs cs : Bytes) :
    h.absorb (bs ++ cs) = (h.absorb bs).absorb cs :=
  List.foldl_append

/-- The state after padding: a domain byte behind the input and the last bit of the block. -/
def padded (h : Hasher) : Lanes :=
  (addByte (addByte h.lanes h.filled 0x06) (rate - 1) 0x80).permute

/-- The digest of the bytes taken in. -/
def finish (h : Hasher) : Bytes :=
  let lanes := h.padded
  Bytes.ofNatLE 8 (lanes.get 0).toNat ++ Bytes.ofNatLE 8 (lanes.get 1).toNat ++
    Bytes.ofNatLE 8 (lanes.get 2).toNat ++ Bytes.ofNatLE 8 (lanes.get 3).toNat

@[simp] theorem length_finish (h : Hasher) : h.finish.length = 32 := by
  simp [finish]

end Hasher

end LedgerNode.Digest
