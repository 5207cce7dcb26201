import LedgerNode.Digest.Sha3

/-!
# Sinks

Encoded values are written straight to where they are wanted: into a buffer, into a hash
computation, or past a counter that only measures them.

- `Sink`: a destination of bytes.
- `LawfulSink`: a destination for which only the concatenation of what is written matters.
- The sinks `Array UInt8` (a buffer), `ByteCount` and `Digest.Hasher`, all lawful.
-/

namespace LedgerNode.Wire

/-- A destination that bytes are written to. -/
class Sink (σ : Type) where
  /-- The destination after one more piece has been written to it. -/
  write : σ → Bytes → σ

/-- A sink that cannot tell how its input was cut into pieces. -/
class LawfulSink (σ : Type) [Sink σ] : Prop where
  write_nil (s : σ) : Sink.write s [] = s
  write_append (s : σ) (bs cs : Bytes) : Sink.write s (bs ++ cs) = Sink.write (Sink.write s bs) cs

instance : Sink (Array UInt8) := ⟨fun buffer bs => buffer ++ bs⟩

/-- Writing to a buffer appends. -/
@[simp] theorem toList_write (buffer : Array UInt8) (bs : Bytes) :
    (Sink.write buffer bs).toList = buffer.toList ++ bs :=
  Array.toList_appendList

instance : LawfulSink (Array UInt8) where
  write_nil s := Array.ext' (by simp)
  write_append s bs cs := Array.ext' (by simp)

/-- The number of bytes written, without the bytes. -/
structure ByteCount where
  /-- How many bytes have been written. -/
  count : Nat := 0
deriving DecidableEq, Repr

instance : Sink ByteCount := ⟨fun c bs => ⟨c.count + bs.length⟩⟩

@[simp] theorem count_write (c : ByteCount) (bs : Bytes) :
    (Sink.write c bs).count = c.count + bs.length := rfl

instance : LawfulSink ByteCount where
  write_nil s := rfl
  write_append s bs cs := by
    simp only [Sink.write, List.length_append, Nat.add_assoc]

instance : Sink Digest.Hasher := ⟨Digest.Hasher.absorb⟩

instance : LawfulSink Digest.Hasher where
  write_nil := Digest.Hasher.absorb_nil
  write_append := Digest.Hasher.absorb_append

end LedgerNode.Wire
