import LedgerNode.Bytes.Hex
import LedgerNode.Digest.Sha3

/-!
# Hashes

A hash is 32 bytes. The SHA3-256 hash of a byte string identifies scripts and transactions.

- `Hash`: the type, ordered as byte strings are.
- `Hash.digest`: the SHA3-256 hash of a byte string.
- `Hash.ofBytes?`: the hash with given bytes, if there are 32 of them.
- `HashCache`: a slot that remembers the first hash computed for it.
-/

namespace LedgerNode

open Digest (Hasher)

/-- A hash of 32 bytes. -/
structure Hash where
  /-- The bytes of the hash. -/
  bytes : Bytes
  /-- There are 32 of them. -/
  length_bytes : bytes.length = 32
deriving DecidableEq

namespace Hash

/-- The number of bytes of a hash. -/
def size : Nat := 32

@[ext] theorem ext {a b : Hash} (h : a.bytes = b.bytes) : a = b := by
  cases a
  cases b
  simp_all

instance : Hashable Hash := ⟨fun h => hash h.bytes⟩

/-- The hash of zero bytes. -/
def zero : Hash := ⟨List.replicate 32 0, by simp⟩

instance : Inhabited Hash := ⟨zero⟩

/-- The hash with the given bytes, if there are 32 of them. -/
def ofBytes? (bs : Bytes) : Option Hash :=
  if h : bs.length = 32 then some ⟨bs, h⟩ else none

theorem ofBytes?_eq_some_iff {bs : Bytes} {h : Hash} : ofBytes? bs = some h ↔ h.bytes = bs := by
  unfold ofBytes?
  constructor
  · intro e
    split at e
    · cases e
      rfl
    · cases e
  · rintro rfl
    rw [dif_pos h.length_bytes]

/-- The hash with the given 32 bytes. -/
def ofBlock (block : { bs : Bytes // bs.length = 32 }) : Hash := ⟨block.val, block.property⟩

/-- The hash that a computation arrives at. -/
def ofHasher (h : Hasher) : Hash := ⟨h.finish, h.length_finish⟩

/-- The SHA3-256 hash of a byte string. -/
def digest (bs : Bytes) : Hash := ofHasher (({} : Hasher).absorb bs)

/-- The 64 hexadecimal digits of a hash. -/
def toHex (h : Hash) : String := h.bytes.toHex

/-- Whether a hash comes no later than another in the order of byte strings. -/
def le (a b : Hash) : Bool := a.bytes ≤ b.bytes

/-- The order of two hashes as byte strings. -/
def order (a b : Hash) : Ordering := compare a.bytes b.bytes

/-- The text form of a hash in diagnostics: its bytes in decimal. -/
def debugText (h : Hash) : String :=
  "Hash([" ++ String.intercalate ", " (h.bytes.map fun b => Text.numeral b.toNat) ++ "])"

end Hash

/-! ## Remembered hashes -/

/-- A slot that holds the hash of some fixed data once that has been asked for. -/
structure HashCache where
  /-- The hash held, if any. -/
  stored : Option Hash := none
deriving DecidableEq

namespace HashCache

/-- The slot's hash, computed by `compute` unless held already, and the slot that now holds it. -/
def getOrCompute (cache : HashCache) (compute : Unit → Hash) : Hash × HashCache :=
  match cache.stored with
  | some h => (h, cache)
  | none =>
    let h := compute ()
    (h, ⟨some h⟩)

@[simp] theorem getOrCompute_empty (compute : Unit → Hash) :
    ({} : HashCache).getOrCompute compute = (compute (), ⟨some (compute ())⟩) := rfl

@[simp] theorem getOrCompute_stored (h : Hash) (compute : Unit → Hash) :
    (⟨some h⟩ : HashCache).getOrCompute compute = (h, ⟨some h⟩) := rfl

/-- A slot of its own for a copy of the data, with the hash that is held already. -/
def copy (cache : HashCache) : HashCache :=
  match cache.stored with
  | some h => ⟨some h⟩
  | none => {}

@[simp] theorem copy_eq (cache : HashCache) : cache.copy = cache := by
  obtain ⟨_ | h⟩ := cache <;> rfl

end HashCache

end LedgerNode
