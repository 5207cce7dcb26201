import LedgerNode.Proofs.Wire.Unambiguous

/-!
# Every sink takes in the same bytes

A value is written piece by piece, and to sinks that keep, count or hash what they take in. No sink
tells the pieces apart, so that each takes in the encoding of the value behind what it had before.
The hash of a transaction is computed in this way once and remembered, and a copy of the transaction
takes along what is remembered.

- `Codec.Writes.write_buffer`, `Codec.Writes.write_byteCount`, `Codec.Writes.write_hasher`: what a
  value adds to the three sinks.
- `Transaction.slotAfter`: the slot for the hash after a transaction has been hashed and copied.
- `Transaction.cachedHash_slotAfter`: the slot never changes the answer.
- `sinks_agree`: all of the format, and the hash of a transaction.
-/

namespace LedgerNode

open Digest (Hasher)

namespace Wire.Codec

variable {α : Type} {c : Codec α} {layout : α → Bytes}

/-- A buffer holds the encoding behind what it held before. -/
theorem Writes.write_buffer (h : c.Writes layout) (buffer : Array UInt8) (v : α) :
    (c.write buffer v).toList = buffer.toList ++ layout v := by
  rw [h.write_eq, toList_write]

/-- A counter goes up by the length of the encoding. -/
theorem Writes.write_byteCount (h : c.Writes layout) (n : ByteCount) (v : α) :
    (c.write n v).count = n.count + (layout v).length := by
  rw [h.write_eq, count_write]

/-- The size that a value is said to take is the size of its encoding. -/
theorem Writes.encodedSize_eq (h : c.Writes layout) (v : α) :
    c.encodedSize v = (c.encode v).length := by
  show (c.write ({} : ByteCount) v).count = _
  rw [h.write_byteCount, Nat.zero_add, h.encode_eq]

/-- Pieces absorbed one after another are absorbed as one. -/
theorem foldl_absorb (hasher : Hasher) (pieces : List Bytes) :
    pieces.foldl Hasher.absorb hasher = hasher.absorb pieces.flatten := by
  induction pieces generalizing hasher with
  | nil => exact (Hasher.absorb_nil hasher).symm
  | cons piece pieces ih =>
    rw [List.foldl_cons, ih, List.flatten_cons, Hasher.absorb_append]

/-- A hash computation arrives at the hash of what it took in before and the encoding. -/
theorem Writes.write_hasher (h : c.Writes layout) (pieces : List Bytes) (v : α) :
    Hash.ofHasher (c.write (pieces.foldl Hasher.absorb {}) v) =
      Hash.digest (pieces.flatten ++ layout v) := by
  rw [h.write_eq, foldl_absorb]
  show Hash.ofHasher ((({} : Hasher).absorb pieces.flatten).absorb (layout v)) = _
  rw [← Hasher.absorb_append]
  rfl

end Wire.Codec

/-! ## Remembered hashes -/

namespace Transaction

/-- What is done with a transaction on the way to its present slot. -/
inductive Use where
  /-- Its hash is asked for. -/
  | hashed
  /-- It is copied, and the copy is the one gone on with. -/
  | copied
deriving DecidableEq, Repr

/-- The slot for the hash of a transaction after one more use. -/
def useSlot (tx : Transaction) (cache : HashCache) : Use → HashCache
  | .hashed => (tx.cachedHash cache).2
  | .copied => cache.copy

/-- The slot for the hash of a transaction that has been made and then used. -/
def slotAfter (tx : Transaction) (uses : List Use) : HashCache :=
  uses.foldl tx.useSlot {}

variable {tx : Transaction}

/-- The slot is empty or holds the hash of the transaction. -/
def Remembers (tx : Transaction) (cache : HashCache) : Prop :=
  ∀ h ∈ cache.stored, h = tx.hash

/-- Under the invariant, the answer is the hash whether it was held or not. -/
theorem Remembers.cachedHash_eq {cache : HashCache} (hcache : tx.Remembers cache) :
    (tx.cachedHash cache).1 = tx.hash := by
  obtain ⟨_ | h⟩ := cache
  · rfl
  · exact hcache h rfl

theorem Remembers.useSlot {cache : HashCache} (hcache : tx.Remembers cache) (use : Use) :
    tx.Remembers (tx.useSlot cache use) := by
  cases use with
  | hashed =>
    obtain ⟨_ | h⟩ := cache
    · rintro h ⟨⟩
      rfl
    · exact hcache
  | copied =>
    show tx.Remembers cache.copy
    rw [HashCache.copy_eq]
    exact hcache

theorem remembers_slotAfter (tx : Transaction) (uses : List Use) :
    tx.Remembers (tx.slotAfter uses) := by
  have hrun : ∀ cache, tx.Remembers cache → tx.Remembers (uses.foldl tx.useSlot cache) := by
    induction uses with
    | nil => exact fun _ hcache => hcache
    | cons use uses ih => exact fun cache hcache => ih _ (hcache.useSlot use)
  exact hrun {} (by rintro h ⟨⟩)

/-- However often a transaction has been hashed and copied, its hash is the same. -/
theorem cachedHash_slotAfter (tx : Transaction) (uses : List Use) :
    (tx.cachedHash (tx.slotAfter uses)).1 = tx.hash :=
  (tx.remembers_slotAfter uses).cachedHash_eq

end Transaction

/-! ## All types -/

/-- Buffer, counter and hash computation take in the same bytes of a value, whatever they took in
before. The hash of a transaction is that of a domain tag and its encoding, no matter how often it
and the transactions that it was copied from have been hashed, and its copy has the same one. -/
theorem sinks_agree :
    (∀ (f : Wire.Format) (v : f.Value),
      (∀ buffer : Array UInt8,
        (f.codec.write buffer v).toList = buffer.toList ++ f.codec.encode v) ∧
      (∀ n : Wire.ByteCount, (f.codec.write n v).count = n.count + (f.codec.encode v).length) ∧
      ∀ pieces : List Bytes, Hash.ofHasher (f.codec.write (pieces.foldl Hasher.absorb {}) v) =
        Hash.digest (pieces.flatten ++ f.codec.encode v)) ∧
    ∀ (tx : Transaction) (uses : List Transaction.Use),
      (tx.cachedHash (tx.slotAfter uses)).1 = Hash.digest (Bytes.ofText "TX" ++ tx.message) ∧
      (tx.cachedHash (tx.slotAfter uses).copy).1 = (tx.cachedHash (tx.slotAfter uses)).1 := by
  constructor
  · intro f v
    have hwrites : f.codec.Writes f.codec.encode := f.exact_codec.writes
    exact ⟨fun buffer => hwrites.write_buffer buffer v, fun n => hwrites.write_byteCount n v,
      fun pieces => hwrites.write_hasher pieces v⟩
  · intro tx uses
    have hhash : (tx.cachedHash (tx.slotAfter uses)).1 = tx.hash := tx.cachedHash_slotAfter uses
    exact ⟨hhash.trans tx.hash_eq_digest, by rw [HashCache.copy_eq]⟩

end LedgerNode
