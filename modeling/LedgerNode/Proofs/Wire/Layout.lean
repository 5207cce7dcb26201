import LedgerNode.Wire.Format

/-!
# What codecs write

Every codec of the format hands one byte string to its sink, whatever the sink is and whatever it
has taken in before. So the bytes of a value can be computed without a sink, part by part.

- `Codec.Writes c layout`: the codec hands `layout v` to every lawful sink that `v` is written to.
- `Codec.Writes.encode_eq`: then `layout v` is the encoding of `v`.
- `Codec.writes_number`, `Codec.Writes.list` and the like: one lemma for each way to build a codec.
-/

namespace LedgerNode.Wire

open LedgerNode

namespace Codec

variable {α β : Type} {c : Codec α} {d : Codec β}

/-- The codec hands `layout v` to every lawful sink that a value `v` is written to. -/
structure Writes (c : Codec α) (layout : α → Bytes) : Prop where
  write_eq : ∀ {σ : Type} [Sink σ] [LawfulSink σ] (s : σ) (v : α),
    c.write s v = Sink.write s (layout v)

/-- What a codec writes is its encoding. -/
theorem Writes.encode_eq {layout : α → Bytes} (h : c.Writes layout) (v : α) :
    c.encode v = layout v := by
  show (c.write (#[] : Array UInt8) v).toList = layout v
  rw [h.write_eq, toList_write]
  rfl

theorem Writes.writes_encode {layout : α → Bytes} (h : c.Writes layout) :
    c.Writes c.encode := by
  have hlayout : c.encode = layout := funext h.encode_eq
  rw [hlayout]
  exact h

/-! ## Numbers and tags -/

theorem writes_number (width : Nat) (toNat : α → Nat) (ofNat : Nat → α) :
    (number width toNat ofNat).Writes fun v => Bytes.ofNatLE width (toNat v) :=
  ⟨fun _ _ => rfl⟩

/-- A byte is its own encoding. -/
theorem writes_uint8 : uint8.Writes fun b => [b] := by
  constructor
  intro σ _ _ s b
  have h : Bytes.ofNatLE 1 b.toNat = [b] := Bytes.ofNatLE_toNatLE [b]
  show Sink.write s (Bytes.ofNatLE 1 b.toNat) = Sink.write s [b]
  rw [h]

theorem writes_tagged (code : α → UInt8) (ofCode? : UInt8 → Option α) :
    (tagged code ofCode?).Writes fun v => [code v] :=
  ⟨fun s v => writes_uint8.write_eq s (code v)⟩

/-! ## Sequences -/

theorem writes_length : length.Writes fun n => Bytes.ofNatLE 8 n :=
  ⟨fun _ _ => rfl⟩

theorem writes_bytes : bytes.Writes fun bs => Bytes.ofNatLE 8 bs.length ++ bs :=
  ⟨fun s bs => (LawfulSink.write_append s (Bytes.ofNatLE 8 bs.length) bs).symm⟩

theorem writes_text : text.Writes fun t => bytes.encode (Bytes.ofText t) :=
  ⟨fun s t => writes_bytes.writes_encode.write_eq s (Bytes.ofText t)⟩

theorem writes_hash : hash.Writes Hash.bytes :=
  ⟨fun _ _ => rfl⟩

/-- Writing values one after another is writing their encodings joined. -/
theorem Writes.foldl_write {layout : α → Bytes} (h : c.Writes layout) {σ : Type} [Sink σ]
    [LawfulSink σ] (s : σ) (vs : List α) :
    vs.foldl c.write s = Sink.write s (vs.flatMap layout) := by
  induction vs generalizing s with
  | nil => exact (LawfulSink.write_nil s).symm
  | cons v vs ih =>
    rw [List.foldl_cons, ih, h.write_eq, List.flatMap_cons, LawfulSink.write_append]

theorem Writes.list {layout : α → Bytes} (h : c.Writes layout) :
    c.list.Writes fun vs => Bytes.ofNatLE 8 vs.length ++ vs.flatMap layout := by
  constructor
  intro σ _ _ s vs
  show vs.foldl c.write (Sink.write s (Bytes.ofNatLE 8 vs.length)) = _
  rw [h.foldl_write, LawfulSink.write_append]

theorem Writes.optional {layout : α → Bytes} (h : c.Writes layout) :
    c.optional.Writes fun v => v.elim [0] fun w => 1 :: layout w := by
  constructor
  intro σ _ _ s v
  cases v with
  | none => exact writes_uint8.write_eq s 0
  | some w =>
    show c.write (uint8.write s 1) w = Sink.write s ([1] ++ layout w)
    rw [writes_uint8.write_eq, h.write_eq, LawfulSink.write_append]

/-! ## Composition -/

theorem Writes.pair {first : α → Bytes} {second : β → Bytes} (hc : c.Writes first)
    (hd : d.Writes second) : (c.pair d).Writes fun v => first v.1 ++ second v.2 := by
  constructor
  intro σ _ _ s v
  show d.write (c.write s v.1) v.2 = _
  rw [hd.write_eq, hc.write_eq, LawfulSink.write_append]

theorem Writes.map {layout : α → Bytes} (h : c.Writes layout) (toPlain : β → α)
    (ofPlain : α → β) : (c.map toPlain ofPlain).Writes fun v => layout (toPlain v) :=
  ⟨fun s v => h.write_eq s (toPlain v)⟩

end Codec

end LedgerNode.Wire
